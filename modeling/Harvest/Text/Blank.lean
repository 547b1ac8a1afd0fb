/-! Blank characters are those with the Unicode property White_Space. Trimming removes a
blank margin on either side and nothing else.
-/

namespace Harvest.Text

/-- A character is blank when it has the Unicode property White_Space. -/
def isBlank (c : Char) : Bool :=
  let n := c.toNat
  (9 ≤ n && n ≤ 13) || n == 0x20 || n == 0x85 || n == 0xA0 || n == 0x1680
    || (0x2000 ≤ n && n ≤ 0x200A) || n == 0x2028 || n == 0x2029 || n == 0x202F
    || n == 0x205F || n == 0x3000

/-- The characters from the first one that is not blank. -/
def trimLeft (cs : List Char) : List Char :=
  cs.dropWhile isBlank

/-- The characters up to the last one that is not blank. -/
def trimRight (cs : List Char) : List Char :=
  (cs.reverse.dropWhile isBlank).reverse

/-- A text without its blank margins. -/
def trim (s : String) : String :=
  String.ofList (trimRight (trimLeft s.toList))

/-- A text without the slashes at its end. -/
def trimSlashes (s : String) : String :=
  String.ofList (s.toList.reverse.dropWhile (· == '/')).reverse

/-- The number of bytes a list of characters takes in UTF-8. -/
def byteCount (cs : List Char) : Nat :=
  cs.foldl (fun n c => n + c.utf8Size) 0

/-- The order of texts by code points, which is also the order of their UTF-8 bytes. -/
def before (a b : String) : Bool :=
  decide (a.toList.map Char.toNat < b.toList.map Char.toNat)

/-- The small hexadecimal digit of a number below sixteen. -/
def hexDigit (n : Nat) : Char :=
  if n < 10 then Char.ofNat (48 + n) else Char.ofNat (87 + n)

/-- The number a hexadecimal digit of either case stands for. -/
def hexValue? (c : Char) : Option Nat :=
  let n := c.toNat
  if 48 ≤ n && n ≤ 57 then some (n - 48)
  else if 97 ≤ n && n ≤ 102 then some (n - 87)
  else if 65 ≤ n && n ≤ 70 then some (n - 55)
  else none

/-- The number that a list of hexadecimal digits stands for, most significant first. -/
def hexNumber? (cs : List Char) : Option Nat :=
  cs.foldl (fun acc c => do return (← acc) * 16 + (← hexValue? c)) (some 0)

/-- A number in exactly `width` small hexadecimal digits, the higher ones dropped. -/
def hexPadded : (width : Nat) → Nat → List Char
  | 0, _ => []
  | width + 1, n => hexPadded width (n / 16) ++ [hexDigit (n % 16)]

/-- A number in decimal digits, filled with zeros on the left up to `width`. -/
def padded (width n : Nat) : String :=
  let digits := toString n
  String.ofList (List.replicate (width - digits.length) '0') ++ digits

/-- An ASCII digit. -/
def isDigit (c : Char) : Bool :=
  '0' ≤ c && c ≤ '9'

/-- The number that a list of decimal digits stands for, most significant first. -/
def decimal (cs : List Char) : Nat :=
  cs.foldl (fun acc c => acc * 10 + (c.toNat - 48)) 0

/-- The natural number that decimal digits spell; without digits there is none. -/
def natural? (cs : List Char) : Option Nat :=
  if cs.isEmpty || !cs.all isDigit then none else some (decimal cs)

/-- The integer that decimal digits spell, perhaps after a sign. -/
def integer? : List Char → Option Int
  | '-' :: cs => (natural? cs).map fun n => -(n : Int)
  | '+' :: cs => (natural? cs).map fun n => (n : Int)
  | cs => (natural? cs).map fun n => (n : Int)

/-- The text with every letter A to Z made small. -/
def lowerAscii (s : String) : String :=
  s.map Char.toLower

/-- The two texts are equal up to the case of the letters A to Z. -/
def sameIgnoringCase (a b : String) : Bool :=
  lowerAscii a == lowerAscii b

end Harvest.Text
