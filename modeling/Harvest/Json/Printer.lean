import Harvest.Decimal.Shortest
import Harvest.Json.Basic
import Harvest.Text.Blank

/-! The two written forms of a JSON value: compact, without any blank, and indented, with one
item a line and two spaces a level.
-/

namespace Harvest.Json

open Decimal

/-- Floating-point numbers are written in positions from a hundred-thousandth up to below ten
quadrillions, and always show that they are not whole numbers.
-/
def realLayout : Layout where
  leastPositional := -5
  mostPositional := 15
  wholeMark := ".0"
  exponentMark := "e"
  positiveMark := "+"

/-- The text of a number. -/
def Number.text : Number → String
  | .whole n => toString n
  | .real x => realLayout.number x

/-- One character inside a written string: quotes, backslashes and controls are escaped, all
else stands for itself.
-/
def escaped (c : Char) : List Char :=
  if c == '"' then ['\\', '"']
  else if c == '\\' then ['\\', '\\']
  else if c == '\x08' then ['\\', 'b']
  else if c == '\x0c' then ['\\', 'f']
  else if c == '\n' then ['\\', 'n']
  else if c == '\r' then ['\\', 'r']
  else if c == '\t' then ['\\', 't']
  else if c.toNat < 0x20 then ['\\', 'u'] ++ Text.hexPadded 4 c.toNat
  else [c]

/-- A string in its written form. -/
def stringText (s : String) : List Char :=
  '"' :: s.toList.flatMap escaped ++ ['"']

mutual

/-- The characters of a value in compact form. -/
def compactChars : Json → List Char
  | .null => "null".toList
  | .bool b => (if b then "true" else "false").toList
  | .number n => n.text.toList
  | .string s => stringText s
  | .array [] => ['[', ']']
  | .array (item :: items) => '[' :: compactChars item ++ compactItems items
  | .object [] => ['\x7b', '\x7d']
  | .object ((name, value) :: members) =>
      '\x7b' :: stringText name ++ ':' :: compactChars value ++ compactMembers members

/-- The characters of the items after the first, up to the closing bracket. -/
def compactItems : List Json → List Char
  | [] => [']']
  | item :: items => ',' :: compactChars item ++ compactItems items

/-- The characters of the members after the first, up to the closing brace. -/
def compactMembers : List (String × Json) → List Char
  | [] => ['\x7d']
  | (name, value) :: members =>
      ',' :: stringText name ++ ':' :: compactChars value ++ compactMembers members

end

/-- A value in compact form. -/
def compact (value : Json) : String :=
  String.ofList (compactChars value)

/-- A new line indented to a level. -/
def lineAt (level : Nat) : List Char :=
  '\n' :: List.replicate (2 * level) ' '

mutual

/-- The characters of a value in indented form, whose first line starts at a level. -/
def indentedChars (level : Nat) : Json → List Char
  | .null => "null".toList
  | .bool b => (if b then "true" else "false").toList
  | .number n => n.text.toList
  | .string s => stringText s
  | .array [] => ['[', ']']
  | .array (item :: items) =>
      '[' :: lineAt (level + 1) ++ indentedChars (level + 1) item
        ++ indentedItems level items
  | .object [] => ['\x7b', '\x7d']
  | .object ((name, value) :: members) =>
      '\x7b' :: lineAt (level + 1) ++ stringText name ++ [':', ' ']
        ++ indentedChars (level + 1) value ++ indentedMembers level members

/-- The characters of the items after the first, up to the closing bracket. -/
def indentedItems (level : Nat) : List Json → List Char
  | [] => lineAt level ++ [']']
  | item :: items =>
      ',' :: lineAt (level + 1) ++ indentedChars (level + 1) item
        ++ indentedItems level items

/-- The characters of the members after the first, up to the closing brace. -/
def indentedMembers (level : Nat) : List (String × Json) → List Char
  | [] => lineAt level ++ ['\x7d']
  | (name, value) :: members =>
      ',' :: lineAt (level + 1) ++ stringText name ++ [':', ' ']
        ++ indentedChars (level + 1) value ++ indentedMembers level members

end

/-- A value in indented form. -/
def indented (value : Json) : String :=
  String.ofList (indentedChars 0 value)

end Harvest.Json
