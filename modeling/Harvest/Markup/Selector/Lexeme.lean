import Harvest.Markup.Reference

/-! The lexemes of a selector. Every text has lexemes: a comment is none, a quoted text may lack its
closing quote at the end, and a backslash makes any character part of a name.
-/

namespace Harvest.Markup.Selector

/-- The parts a selector is written in. -/
inductive Lexeme where
  | space
  | name (s : String)
  /-- A name and the parenthesis it opens. -/
  | function (s : String)
  /-- A hash sign and a name. -/
  | hash (s : String)
  | string (s : String)
  /-- A number; its value if it is an integer. -/
  | number (signed : Bool) (value : Option Int)
  | dimension (value : Option Int) (unit : String)
  | delimiter (c : Char)
  /-- One of the signs for a comparison, the equals sign after it. -/
  | comparison (c : Char)
  | opening (bracket : Char)
  | closing (bracket : Char)
  /-- What no selector holds. -/
  | other
deriving DecidableEq, Repr

/-- A white character. -/
def isWhite (c : Char) : Bool :=
  c == ' ' || c == '\t' || c == '\n' || c == '\r' || c == '\x0c'

/-- A line end. -/
def isLineEnd (c : Char) : Bool :=
  c == '\n' || c == '\r' || c == '\x0c'

/-- A character that begins a name. -/
def beginsName (c : Char) : Bool :=
  c.isAlpha || c == '_' || c == '\x00' || 128 ≤ c.toNat

/-- A character that a name goes on with. -/
def continuesName (c : Char) : Bool :=
  beginsName c || c.isDigit || c == '-'

/-- A backslash before this text makes a character. -/
def escapes (rest : List Char) : Bool :=
  !rest.head?.any isLineEnd

/-- A name begins here. -/
def startsWithName : List Char → Bool
  | '-' :: '-' :: _ => true
  | '-' :: '\\' :: rest => escapes rest
  | '-' :: c :: _ => beginsName c
  | '\\' :: rest => escapes rest
  | c :: _ => beginsName c
  | [] => false

/-- The rest of a text after one white character, if there is one. -/
def skipWhite : List Char → List Char
  | '\r' :: '\n' :: cs => cs
  | c :: cs => if isWhite c then cs else c :: cs
  | [] => []

/-- The character that a backslash makes, and the rest of the text. -/
def escaped : List Char → Char × List Char
  | [] => (replacement, [])
  | c :: cs =>
      if (Text.hexValue? c).isSome then
        let digits := ((c :: cs).take 6).takeWhile fun c => (Text.hexValue? c).isSome
        let n := (Text.hexNumber? digits).getD 0
        let valid := n != 0 && n.isValidChar
        (if valid then Char.ofNat n else replacement, skipWhite ((c :: cs).drop digits.length))
      else (if c == '\x00' then replacement else c, cs)

/-- The name at the front, and the rest of the text; `fuel` bounds its length. -/
def nameWithin : (fuel : Nat) → List Char → List Char × List Char
  | 0, cs => ([], cs)
  | fuel + 1, '\\' :: cs =>
      if escapes cs then
        let (c, rest) := escaped cs
        let (name, rest) := nameWithin fuel rest
        (c :: name, rest)
      else ([], '\\' :: cs)
  | fuel + 1, c :: cs =>
      if continuesName c then
        let (name, rest) := nameWithin fuel cs
        ((if c == '\x00' then replacement else c) :: name, rest)
      else ([], c :: cs)
  | _, [] => ([], [])

/-- The name at the front, and the rest of the text. -/
def readName (cs : List Char) : String × List Char :=
  let (name, rest) := nameWithin cs.length cs
  (String.ofList name, rest)

/-- The text up to a quote, and the rest after it; a line end within spoils it. -/
def quotedWithin (quote : Char) : (fuel : Nat) → List Char → Option (List Char) × List Char
  | 0, cs => (some [], cs)
  | _, [] => (some [], [])
  | _, ['\\'] => (some [], [])
  | fuel + 1, '\\' :: '\r' :: '\n' :: cs => quotedWithin quote fuel cs
  | fuel + 1, '\\' :: c :: cs =>
      if isLineEnd c then quotedWithin quote fuel cs
      else
        let (c, rest) := escaped (c :: cs)
        let (text, rest) := quotedWithin quote fuel rest
        (text.map (c :: ·), rest)
  | fuel + 1, c :: cs =>
      if c == quote then (some [], cs)
      else if isLineEnd c then (none, c :: cs)
      else
        let (text, rest) := quotedWithin quote fuel cs
        (text.map ((if c == '\x00' then replacement else c) :: ·), rest)

/-- The rest of a text after a comment. -/
def skipComment : List Char → List Char
  | '*' :: '/' :: cs => cs
  | _ :: cs => skipComment cs
  | [] => []

/-- The integers that a number may be. -/
def clamp (n : Int) : Int := max (-2147483648) (min 2147483647 n)

/-- An exponent at the front, and the rest of the text. -/
def skipExponent : List Char → Bool × List Char
  | c :: cs =>
      if c == 'e' || c == 'E' then
        let digits := match cs with
          | '+' :: cs => cs
          | '-' :: cs => cs
          | cs => cs
        if digits.head?.any Char.isDigit then (true, digits.dropWhile Char.isDigit)
        else (false, c :: cs)
      else (false, c :: cs)
  | [] => (false, [])

/-- A number begins here. -/
def startsWithNumber : List Char → Bool
  | '.' :: c :: _ => c.isDigit
  | c :: _ => c.isDigit
  | [] => false

/-- The number at the front of a text without a sign, and the rest of the text. -/
def readNumber (sign : Option Char) (cs : List Char) : Lexeme × List Char :=
  let rest := cs.dropWhile Char.isDigit
  let n : Int := Text.decimal (cs.takeWhile Char.isDigit)
  let (isFraction, rest) := match rest with
    | '.' :: c :: rest => if c.isDigit then (true, rest.dropWhile Char.isDigit)
        else (false, '.' :: c :: rest)
    | rest => (false, rest)
  let (hasExponent, rest) := skipExponent rest
  let value := if isFraction || hasExponent then none
    else some (clamp (if sign == some '-' then -n else n))
  match rest with
  | '%' :: rest => (.other, rest)
  | rest =>
      if startsWithName rest then
        let (unit, rest) := readName rest
        (.dimension value unit, rest)
      else (.number sign.isSome value, rest)

/-- The name, the function or the address at the front, and the rest of the text. -/
def readNamed (cs : List Char) : Lexeme × List Char :=
  let (name, rest) := readName cs
  match rest with
  | '(' :: rest =>
      let inside := rest.dropWhile isWhite
      if Text.lowerAscii name == "url" && !inside.head?.any (fun c => c == '"' || c == '\'') then
        (.other, (inside.dropWhile (· != ')')).tail)
      else (.function name, rest)
  | rest => (.name name, rest)

/-- The lexeme that a character begins, and the rest of the text. -/
def readLexeme (c : Char) (cs : List Char) : Lexeme × List Char :=
  if isWhite c then (.space, cs.dropWhile isWhite)
  else if c == '"' || c == '\'' then
    match quotedWithin c cs.length cs with
    | (some text, rest) => (.string (String.ofList text), rest)
    | (none, rest) => (.other, rest)
  else if c == '#' then
    if startsWithName cs then
      let (name, rest) := readName cs
      (.hash name, rest)
    else if cs.head?.any fun c => c.isDigit || c == '-' then (.other, (readName cs).2)
    else (.delimiter '#', cs)
  else if c == '(' || c == '[' || c == '\x7b' then (.opening c, cs)
  else if c == ')' || c == ']' || c == '\x7d' then (.closing c, cs)
  else if "$*^|~".contains c && cs.head? == some '=' then (.comparison c, cs.tail)
  else if (c == '+' || c == '-') && startsWithNumber cs then readNumber (some c) cs
  else if startsWithNumber (c :: cs) then readNumber none (c :: cs)
  else if c == '-' && cs.take 2 == ['-', '>'] then (.other, cs.drop 2)
  else if c == '<' && cs.take 3 == ['!', '-', '-'] then (.other, cs.drop 3)
  else if c == '@' && startsWithName cs then (.other, (readName cs).2)
  else if startsWithName (c :: cs) then readNamed (c :: cs)
  else (.delimiter c, cs)

/-- The lexemes of a text; `fuel` bounds its length. -/
def lexemesWithin : (fuel : Nat) → List Char → List Lexeme
  | 0, _ => []
  | _, [] => []
  | fuel + 1, '/' :: '*' :: cs => lexemesWithin fuel (skipComment cs)
  | fuel + 1, c :: cs =>
      let (lexeme, rest) := readLexeme c cs
      lexeme :: lexemesWithin fuel rest

/-- The lexemes of a text. -/
def lexemes (text : String) : List Lexeme :=
  lexemesWithin text.length text.toList

end Harvest.Markup.Selector
