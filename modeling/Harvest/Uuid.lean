import Harvest.Json.Decoder

/-! Universally unique identifiers of 128 bits. They are written in five groups of small
hexadecimal digits and read in that form, without hyphens, in braces or as a URN.
-/

namespace Harvest

/-- An identifier of 128 bits. -/
structure Uuid where
  bits : BitVec 128
deriving DecidableEq, Repr, Inhabited

namespace Uuid

/-- The identifier whose bits are all zero. -/
def nil : Uuid := ⟨0⟩

/-- The identifier with the given bits, higher ones dropped. -/
def ofNat (n : Nat) : Uuid := ⟨BitVec.ofNat 128 n⟩

/-- The identifier in five groups of hexadecimal digits. -/
def text (id : Uuid) : String :=
  let ds := Text.hexPadded 32 id.bits.toNat
  let group (start count : Nat) := String.ofList ((ds.drop start).take count)
  "-".intercalate [group 0 8, group 8 4, group 12 4, group 16 4, group 20 12]

/-- The identifier that 32 hexadecimal digits name. -/
def ofDigits? (ds : List Char) : Option Uuid :=
  if ds.length == 32 then (Text.hexNumber? ds).map ofNat else none

/-- The identifier that five hyphenated groups of digits name. -/
def ofGroups? (cs : List Char) : Option Uuid :=
  match cs.splitOn '-' with
  | [a, b, c, d, e] =>
      if [a, b, c, d, e].map List.length == [8, 4, 4, 4, 12] then
        ofDigits? (a ++ b ++ c ++ d ++ e)
      else none
  | _ => none

/-- Reads an identifier in any of its forms. -/
def parse? (s : String) : Option Uuid :=
  let cs := s.toList
  let urn := "urn:uuid:".toList
  if cs.length == 32 then ofDigits? cs
  else if cs.length == 36 then ofGroups? cs
  else if cs.length == 38 && cs.head? == some '\x7b' && cs.getLast? == some '\x7d' then
    ofGroups? (cs.drop 1).dropLast
  else if cs.length == 45 && cs.take 9 == urn then ofGroups? (cs.drop 9)
  else none

/-- Why a text is no identifier. -/
def refusal (s : String) : String :=
  "UUID parsing failed: " ++ Text.quoted s ++ " is not 32 hexadecimal digits in groups"

/-- An identifier as a value. -/
def toJson (id : Uuid) : Json := .string id.text

/-- Reads an identifier from a string. -/
def decode : Json.Decoder Uuid :=
  Json.Decoder.stringWith "a formatted UUID string" fun s =>
    match parse? s with
    | some id => return id
    | none => throw (.rule (refusal s))

end Uuid

end Harvest
