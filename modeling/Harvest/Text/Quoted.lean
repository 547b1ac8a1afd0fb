import Harvest.Text.Blank

/-! A text inside a message stands in double quotes, with what cannot be seen written as an
escape, so that the message stays readable whatever the text holds.
-/

namespace Harvest.Text

/-- Ranges of code points that have no visible form of their own: controls, blanks other
than the space, format characters, combining marks, private use.
-/
def invisibleRanges : List (Nat × Nat) :=
  [(0x00, 0x1F), (0x7F, 0xA0), (0xAD, 0xAD), (0x300, 0x36F), (0x378, 0x379),
    (0x483, 0x489), (0x591, 0x5BD), (0x5BF, 0x5BF), (0x5C1, 0x5C2), (0x5C4, 0x5C5),
    (0x600, 0x605), (0x610, 0x61A), (0x61C, 0x61C), (0x64B, 0x65F), (0x670, 0x670),
    (0x6D6, 0x6DD), (0x70F, 0x70F), (0x1680, 0x1680), (0x180B, 0x180F), (0x1AB0, 0x1AFF),
    (0x1DC0, 0x1DFF), (0x2000, 0x200F), (0x2028, 0x202F), (0x205F, 0x206F),
    (0x20D0, 0x20FF), (0x3000, 0x3000), (0x302A, 0x302F), (0x3099, 0x309A),
    (0xE000, 0xF8FF), (0xFE00, 0xFE0F), (0xFE20, 0xFE2F), (0xFEFF, 0xFEFF),
    (0xFF9E, 0xFF9F), (0xFFF0, 0xFFFB), (0xFFFE, 0xFFFF), (0xE0000, 0x10FFFF)]

/-- A character that a reader of the message would not see as it is. -/
def isInvisible (c : Char) : Bool :=
  invisibleRanges.any fun (lo, hi) => lo ≤ c.toNat && c.toNat ≤ hi

/-- The hexadecimal digits of a number without leading zeros. -/
def hexDigits (n : Nat) : List Char :=
  Nat.toDigits 16 n

/-- One character as it stands between quotes. -/
def quotedChar (c : Char) : List Char :=
  if c == '\x00' then ['\\', '0']
  else if c == '\t' then ['\\', 't']
  else if c == '\r' then ['\\', 'r']
  else if c == '\n' then ['\\', 'n']
  else if c == '"' then ['\\', '"']
  else if c == '\\' then ['\\', '\\']
  else if isInvisible c then
    ['\\', 'u', '\x7b'] ++ hexDigits c.toNat ++ ['\x7d']
  else [c]

/-- A text in double quotes. -/
def quoted (s : String) : String :=
  "\"" ++ String.ofList (s.toList.flatMap quotedChar) ++ "\""

end Harvest.Text
