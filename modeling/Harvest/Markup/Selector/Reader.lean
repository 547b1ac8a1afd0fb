import Harvest.Markup.Selector.Basic
import Harvest.Markup.Selector.Lexeme

/-! Selectors from their text. Brackets that are still open at the end are closed there; anything
else that is out of place makes the text no selector.
-/

namespace Harvest.Markup.Selector

/-- The bracket that closes an open one. -/
def closerOf (bracket : Char) : Char :=
  if bracket == '(' then ')' else if bracket == '[' then ']' else '\x7d'

/-- The bracket that closes what a lexeme opens. -/
def closer? : Lexeme → Option Char
  | .opening bracket => some (closerOf bracket)
  | .function _ => some ')'
  | _ => none

/-- The brackets to be closed after a lexeme, the innermost first. -/
def closersAfter (closers : List Char) (lexeme : Lexeme) : List Char :=
  match closers, lexeme with
  | c :: rest, .closing bracket => if bracket == c then rest else closers
  | closers, lexeme => (closer? lexeme).toList ++ closers

/-- The lexemes within brackets, and those after them. -/
def splitBlock (closers : List Char) : List Lexeme → List Lexeme × List Lexeme
  | [] => ([], [])
  | lexeme :: rest =>
      match closersAfter closers lexeme with
      | [] => ([], rest)
      | closers =>
          let (inside, rest) := splitBlock closers rest
          (lexeme :: inside, rest)

/-- The parts of a list of lexemes between commas that stand in no brackets. -/
def splitCommas (closers : List Char) : List Lexeme → List (List Lexeme)
  | [] => [[]]
  | lexeme :: rest =>
      let parts := splitCommas (closersAfter closers lexeme) rest
      if lexeme == .delimiter ',' && closers.isEmpty then [] :: parts
      else
        match parts with
        | part :: parts => (lexeme :: part) :: parts
        | [] => [[lexeme]]

/-- The lexemes from the first that is no space. -/
def skipSpace (ls : List Lexeme) : List Lexeme := ls.dropWhile (· == .space)

/-! ## Attributes -/

/-- The attributes whose values elements of HTML compare without regard to case. -/
def caselessAttributes : List String :=
  ["accept", "accept-charset", "align", "alink", "axis", "bgcolor", "charset", "checked", "clear",
    "codetype", "color", "compact", "declare", "defer", "dir", "direction", "disabled",
    "enctype", "face", "frame", "hreflang", "http-equiv", "lang", "language", "link", "media",
    "method", "multiple", "nohref", "noresize", "noshade", "nowrap", "readonly", "rel", "rev",
    "rules", "scope", "scrolling", "selected", "shape", "target", "text", "type", "valign",
    "valuetype", "vlink"]

/-- The comparison that a sign stands for. -/
def comparison? : Lexeme → Option Comparison
  | .delimiter '=' => some .equal
  | .comparison '~' => some .word
  | .comparison '|' => some .dash
  | .comparison '^' => some .start
  | .comparison '$' => some .ending
  | .comparison '*' => some .part
  | _ => none

/-- The text of a wanted value. -/
def valueText? : Lexeme → Option String
  | .name s => some s
  | .string s => some s
  | _ => none

/-- Whether the case of letters matters in the value of an attribute, never or in HTML only. -/
def caseRule? (name : String) (anySpace : Bool) : List Lexeme → Option (Bool × Bool)
  | [] => some (false, !anySpace && caselessAttributes.contains (Text.lowerAscii name))
  | .name flag :: rest =>
      if !(skipSpace rest).isEmpty then none
      else if Text.lowerAscii flag == "i" then some (true, true)
      else if Text.lowerAscii flag == "s" then some (false, false)
      else none
  | _ => none

/-- The test that the lexemes after the name of an attribute ask for. -/
def valueTest? (name : String) (anySpace : Bool) (ls : List Lexeme) : Option AttributeTest :=
  match skipSpace ls with
  | [] => some ⟨name, anySpace, none⟩
  | sign :: ls => do
      let comparison ← comparison? sign
      match skipSpace ls with
      | [] => none
      | value :: ls =>
          let value ← valueText? value
          let (ignores, inHtml) ← caseRule? name anySpace (skipSpace ls)
          some ⟨name, anySpace, some ⟨comparison, value, ignores, inHtml⟩⟩

/-- The test that the lexemes in square brackets ask for. -/
def attributeTest? (ls : List Lexeme) : Option AttributeTest :=
  match skipSpace ls with
  | .name _ :: .delimiter '|' :: _ => none
  | .name name :: ls => valueTest? name false ls
  | .delimiter '*' :: .delimiter '|' :: .name name :: ls => valueTest? name true ls
  | .delimiter '|' :: .name name :: ls => valueTest? name false ls
  | _ => none

/-! ## Positions -/

/-- The rest of the pair when nothing but space follows. -/
def endingWith (pair : Int × Int) (ls : List Lexeme) : Option (Int × Int) :=
  if (skipSpace ls).isEmpty then some pair else none

/-- The pair of a coefficient and an unsigned number that follows. -/
def withUnsigned? (a sign : Int) (ls : List Lexeme) : Option (Int × Int) :=
  match skipSpace ls with
  | .number false (some b) :: ls => endingWith (a, sign * b) ls
  | _ => none

/-- The pair of a coefficient and what follows it. -/
def withOffset? (a : Int) (ls : List Lexeme) : Option (Int × Int) :=
  match skipSpace ls with
  | .delimiter '+' :: ls => withUnsigned? a 1 ls
  | .delimiter '-' :: ls => withUnsigned? a (-1) ls
  | .number true (some b) :: ls => endingWith (a, b) ls
  | ls => endingWith (a, 0) ls

/-- The pair of a coefficient and a text such as `n` or `n-1`, and what follows it. -/
def withUnit? (a : Int) (unit : String) (ls : List Lexeme) : Option (Int × Int) :=
  match (Text.lowerAscii unit).toList with
  | ['n'] => withOffset? a ls
  | ['n', '-'] => withUnsigned? a (-1) ls
  | 'n' :: '-' :: digits => do endingWith (a, clamp (-(← Text.natural? digits : Nat))) ls
  | _ => none

/-- The coefficient and the offset that lexemes in parentheses spell. -/
def pair? (ls : List Lexeme) : Option (Int × Int) :=
  match skipSpace ls with
  | .number _ (some b) :: ls => endingWith (0, b) ls
  | .dimension (some a) unit :: ls => withUnit? a unit ls
  | .delimiter '+' :: .name unit :: ls => withUnit? 1 unit ls
  | .name word :: ls =>
      if Text.lowerAscii word == "even" then endingWith (2, 0) ls
      else if Text.lowerAscii word == "odd" then endingWith (2, 1) ls
      else
        match word.toList with
        | '-' :: unit => withUnit? (-1) (String.ofList unit) ls
        | _ => withUnit? 1 word ls
  | _ => none

/-! ## Conditions on one element -/

/-- The condition of a pseudo-class without arguments. -/
def simpleClass? (name : String) : Option (List Simple) :=
  let first := Positions.mk 0 1
  match Text.lowerAscii name with
  | "first-child" => some [.position (first false false)]
  | "last-child" => some [.position (first true false)]
  | "only-child" => some [.position (first false false), .position (first true false)]
  | "first-of-type" => some [.position (first false true)]
  | "last-of-type" => some [.position (first true true)]
  | "only-of-type" => some [.position (first false true), .position (first true true)]
  | "root" => some [.root]
  | "scope" => some [.root]
  | "empty" => some [.empty]
  | _ => none

/-- The positions that a pseudo-class counts. -/
def positions? (name : String) (ls : List Lexeme) : Option Simple := do
  let (fromEnd, ofType) ←
    match name with
    | "nth-child" => some (false, false)
    | "nth-last-child" => some (true, false)
    | "nth-of-type" => some (false, true)
    | "nth-last-of-type" => some (true, true)
    | _ => none
  let (a, b) ← pair? ls
  some (.position ⟨a, b, fromEnd, ofType⟩)

/-- A condition on the name of an element, and the lexemes after it. A vocabulary may be left open
or empty; others are not known.
-/
def typeTest? : List Lexeme → Option (List Simple × List Lexeme)
  | .name _ :: .delimiter '|' :: _ => none
  | .name name :: ls => some ([.named name], ls)
  | .delimiter '*' :: .delimiter '|' :: .name name :: ls => some ([.named name], ls)
  | .delimiter '*' :: .delimiter '|' :: .delimiter '*' :: ls => some ([.any], ls)
  | .delimiter '*' :: .delimiter '|' :: _ => none
  | .delimiter '*' :: ls => some ([.any], ls)
  | .delimiter '|' :: .name _ :: ls => some ([.never], ls)
  | .delimiter '|' :: .delimiter '*' :: ls => some ([.never], ls)
  | .delimiter '|' :: _ => none
  | ls => some ([], ls)

/-- The combinator that a sign stands for. -/
def combinator? : Lexeme → Option Combinator
  | .delimiter '>' => some .child
  | .delimiter '+' => some .next
  | .delimiter '~' => some .later
  | _ => none

/-- The combinator at the front, if there is one, and the lexemes after it. Space is one only when
something else follows that is no combinator.
-/
def leadingCombinator (ls : List Lexeme) : Option Combinator × List Lexeme :=
  match skipSpace ls with
  | [] => (none, [])
  | l :: rest =>
      match combinator? l with
      | some c => (some c, rest)
      | none => (if ls.head? == some .space then some .descendant else none, l :: rest)

mutual

/-- The conditions of a compound after its type, and the lexemes after them. -/
def conditions? : (fuel : Nat) → (relative : Bool) → List Lexeme
    → Option (List Simple × List Lexeme)
  | 0, _, _ => none
  | fuel + 1, relative, ls =>
      match ls with
      | .hash name :: ls => do
          let (more, rest) ← conditions? fuel relative ls
          some (.id name :: more, rest)
      | .delimiter '.' :: ls =>
          match ls with
          | .name name :: ls => do
              let (more, rest) ← conditions? fuel relative ls
              some (.inClass name :: more, rest)
          | _ => none
      | .opening '[' :: ls => do
          let (inside, ls) := splitBlock [']'] ls
          let test ← attributeTest? inside
          let (more, rest) ← conditions? fuel relative ls
          some (.having test :: more, rest)
      | .delimiter ':' :: ls =>
          match ls with
          | .name name :: ls => do
              let found ← simpleClass? name
              let (more, rest) ← conditions? fuel relative ls
              some (found ++ more, rest)
          | .function name :: ls => do
              let (inside, ls) := splitBlock [')'] ls
              let found ← functionClass? fuel relative (Text.lowerAscii name) inside
              let (more, rest) ← conditions? fuel relative ls
              some (found :: more, rest)
          | _ => none
      | ls => some ([], ls)

/-- The condition of a pseudo-class with arguments. -/
def functionClass? : (fuel : Nat) → (relative : Bool) → String → List Lexeme → Option Simple
  | 0, _, _, _ => none
  | fuel + 1, relative, name, ls =>
      match name with
      | "is" | "where" =>
          some (.is ((splitCommas [] ls).filterMap (alternative? fuel relative)))
      | "not" => do
          some (.not (← (splitCommas [] ls).mapM (alternative? fuel relative)))
      | "has" =>
          if relative then none
          else do some (.has (← (splitCommas [] ls).mapM (relative? fuel)))
      | _ => positions? name ls

/-- The selector that goes on with combinators and compounds to the end of the lexemes. -/
def following? : (fuel : Nat) → (relative : Bool) → Complex → Combinator → List Lexeme
    → Option Complex
  | 0, _, _, _, _ => none
  | fuel + 1, relative, left, combinator, ls => do
      let (type, ls) ← typeTest? (skipSpace ls)
      let (more, ls) ← conditions? fuel relative ls
      if type.isEmpty && more.isEmpty then none
      else
        let found := Complex.after left combinator (type ++ more)
        match leadingCombinator ls with
        | (_, []) => if (skipSpace ls).isEmpty then some found else none
        | (some combinator, ls) => following? fuel relative found combinator ls
        | (none, _) => none

/-- The selector that lexemes spell. -/
def alternative? : (fuel : Nat) → (relative : Bool) → List Lexeme → Option Complex
  | 0, _, _ => none
  | fuel + 1, relative, ls => do
      let (type, ls) ← typeTest? (skipSpace ls)
      let (more, ls) ← conditions? fuel relative ls
      if type.isEmpty && more.isEmpty then none
      else
        let found := Complex.alone (type ++ more)
        match leadingCombinator ls with
        | (_, []) => if (skipSpace ls).isEmpty then some found else none
        | (some combinator, ls) => following? fuel relative found combinator ls
        | (none, _) => none

/-- The selector that lexemes spell relative to an element. -/
def relative? : (fuel : Nat) → List Lexeme → Option Complex
  | 0, _ => none
  | fuel + 1, ls =>
      let (combinator, ls) := leadingCombinator (skipSpace ls)
      following? fuel true .anchor (combinator.getD .descendant) ls

end

/-- The selector that a text spells, if it spells one. -/
def ofText? (text : String) : Option Selector := do
  let ls := lexemes text
  some ⟨← (splitCommas [] ls).mapM (alternative? (4 * ls.length + 4) false)⟩

end Harvest.Markup.Selector
