import Harvest.Markup.Entity

/-! Character references in text and in attribute values. What follows an ampersand is a number
or a name; where it is neither, the ampersand stands for itself.
-/

namespace Harvest.Markup

/-- The replacement character. -/
def replacement : Char := Char.ofNat 0xFFFD

/-- The code points that the numbers 128 to 159 stand for; zero where they stand for themselves. -/
def controlPoints : List Nat :=
  [0x20AC, 0, 0x201A, 0x192, 0x201E, 0x2026, 0x2020, 0x2021, 0x2C6, 0x2030, 0x160, 0x2039, 0x152,
    0, 0x17D, 0, 0, 0x2018, 0x2019, 0x201C, 0x201D, 0x2022, 0x2013, 0x2014, 0x2DC, 0x2122, 0x161,
    0x203A, 0x153, 0, 0x17E, 0x178]

/-- The character a number stands for. -/
def charOfNumber (n : Nat) : Char :=
  if n == 0 || 0x10FFFF < n || (0xD800 ≤ n && n ≤ 0xDFFF) then replacement
  else
    match if 0x80 ≤ n && n ≤ 0x9F then controlPoints[n - 0x80]? else none with
    | some (point + 1) => Char.ofNat (point + 1)
    | _ => Char.ofNat n

/-- A semicolon at the front may be left out. -/
def skipSemicolon : List Char → List Char
  | ';' :: cs => cs
  | cs => cs

/-- The character that digits in a base spell, and the rest of the text. -/
def numeric? (base : Nat) (isDigit : Char → Bool) (cs : List Char)
    : Option (List Char × List Char) :=
  match cs.takeWhile isDigit with
  | [] => none
  | digits =>
      let number := digits.foldl (fun n c => n * base + (Text.hexValue? c).getD 0) 0
      some ([charOfNumber number], skipSemicolon (cs.dropWhile isDigit))

/-- The longest name at the front of letters and digits that needs no semicolon. -/
def bareName? (run : List Char) : (length : Nat) → Option (List Char × Nat)
  | 0 => none
  | length + 1 =>
      match bareEntities[String.ofList (run.take (length + 1))]? with
      | some value => some (value, length + 1)
      | none => bareName? run length

/-- The characters that a name at the front stands for, and the rest of the text. In an attribute
a name without its semicolon stays text before an equals sign, a letter or a digit.
-/
def named? (inAttribute : Bool) (cs : List Char) : Option (List Char × List Char) :=
  let run := cs.takeWhile Char.isAlphanum
  let rest := cs.dropWhile Char.isAlphanum
  let closed :=
    match rest with
    | ';' :: rest => (entities[String.ofList run]?).map fun value => (value, rest)
    | _ => none
  closed.or do
    let (value, length) ← bareName? run (min run.length 8)
    let rest := cs.drop length
    let staysText := inAttribute && match rest with
      | c :: _ => c == '=' || c.isAlphanum
      | [] => false
    if staysText then none else some (value, rest)

/-- The characters that a reference stands for, and the rest of the text; the ampersand has been
read.
-/
def reference? (inAttribute : Bool) : List Char → Option (List Char × List Char)
  | '#' :: 'x' :: cs => numeric? 16 (fun c => (Text.hexValue? c).isSome) cs
  | '#' :: 'X' :: cs => numeric? 16 (fun c => (Text.hexValue? c).isSome) cs
  | '#' :: cs => numeric? 10 Char.isDigit cs
  | cs => named? inAttribute cs

/-- The text with its references resolved; `fuel` bounds its length. -/
def resolveWithin (inAttribute : Bool) : (fuel : Nat) → List Char → List Char
  | 0, cs => cs
  | _, [] => []
  | fuel + 1, '&' :: cs =>
      match reference? inAttribute cs with
      | some (value, rest) => value ++ resolveWithin inAttribute fuel rest
      | none => '&' :: resolveWithin inAttribute fuel cs
  | fuel + 1, c :: cs => c :: resolveWithin inAttribute fuel cs

/-- The text with its references resolved. -/
def resolve (inAttribute : Bool) (cs : List Char) : List Char :=
  resolveWithin inAttribute cs.length cs

end Harvest.Markup
