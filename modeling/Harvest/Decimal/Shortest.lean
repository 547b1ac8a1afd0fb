import Harvest.Decimal.Binary64

/-! The fewest decimal digits that read back as a given magnitude, and of those the nearest
to it. A candidate counts only after it has been read back, so what is found always denotes
the magnitude it stands for.
-/

namespace Harvest.Decimal

/-- A decimal `digits * 10 ^ exponent`. -/
structure Digits where
  digits : Nat
  exponent : Int
deriving DecidableEq, Repr, Inhabited

namespace Digits

/-- The decimal as a fraction. -/
def fraction (d : Digits) : Nat × Nat :=
  if 0 ≤ d.exponent then (d.digits * Nat.pow 10 d.exponent.toNat, 1)
  else (d.digits, Nat.pow 10 (-d.exponent).toNat)

/-- The decimal denotes the magnitude: the magnitude is the one nearest to it. -/
def denotes (d : Digits) (a : Magnitude) : Bool :=
  Magnitude.nearest d.fraction.1 d.fraction.2 == some a

/-- The same decimal without zeros at the end of its digits, in at most `fuel` steps. -/
def stripZeros (d : Digits) : (fuel : Nat) → Digits
  | 0 => d
  | fuel + 1 =>
      if d.digits != 0 && d.digits % 10 == 0 then
        stripZeros ⟨d.digits / 10, d.exponent + 1⟩ fuel
      else d

end Digits

/-- The number of decimal digits of a whole number, one for zero. -/
def digitCount (n : Nat) : Nat :=
  (Nat.toDigits 10 n).length

/-- The exponent of the leading decimal digit of a positive fraction. -/
def leadingExponent (num den : Nat) : Int :=
  if den ≤ num then (digitCount (num / den) : Int) - 1
  else -(digitCount ((den + num - 1) / num - 1) : Int)

namespace Magnitude

/-- The decimals of a given number of digits next to a positive magnitude, the nearer first;
of two at the same distance the one with even digits first.
-/
def neighbours (a : Magnitude) (count : Nat) : List Digits :=
  let (num, den) := a.fraction
  let exponent := leadingExponent num den - (count : Int) + 1
  let (top, bottom) :=
    if 0 ≤ exponent then (num, den * Nat.pow 10 exponent.toNat)
    else (num * Nat.pow 10 (-exponent).toNat, den)
  let low := top / bottom
  let twice := 2 * (top % bottom)
  let lowFirst := twice < bottom || (twice == bottom && low % 2 == 0)
  if lowFirst then [⟨low, exponent⟩, ⟨low + 1, exponent⟩]
  else [⟨low + 1, exponent⟩, ⟨low, exponent⟩]

/-- The decimal with all digits of the magnitude, which denotes it exactly. -/
def allDigits (a : Magnitude) : Digits :=
  if 0 ≤ a.exponent then ⟨a.mantissa * Nat.pow 2 a.exponent.toNat, 0⟩
  else ⟨a.mantissa * Nat.pow 5 (-a.exponent).toNat, a.exponent⟩

/-- The shortest decimal that denotes a positive magnitude, the nearest of its length. -/
def shortest (a : Magnitude) : Digits :=
  let candidates := (List.range 17).flatMap fun i => a.neighbours (i + 1)
  let found := (candidates.find? (·.denotes a)).getD a.allDigits
  found.stripZeros (digitCount found.digits)

end Magnitude

/-- How a number is laid out from its digits: which exponents of the leading digit are
written out in positions, and what marks a whole number and an exponent.
-/
structure Layout where
  /-- Smallest exponent of the leading digit written in positions. -/
  leastPositional : Int
  /-- Largest exponent of the leading digit written in positions. -/
  mostPositional : Int
  /-- What follows the digits of a whole number. -/
  wholeMark : String
  /-- What stands before an exponent. -/
  exponentMark : String
  /-- What stands before the digits of an exponent that is not negative. -/
  positiveMark : String

namespace Layout

/-- The text of a positive decimal in this layout. -/
def digits (layout : Layout) (d : Digits) : String :=
  let ds := toString d.digits
  let leading := d.exponent + (ds.length : Int) - 1
  if layout.leastPositional ≤ leading && leading ≤ layout.mostPositional then
    if 0 ≤ d.exponent then
      ds ++ String.ofList (List.replicate d.exponent.toNat '0') ++ layout.wholeMark
    else if 0 ≤ leading then
      let (whole, rest) := ds.toList.splitAt (leading.toNat + 1)
      String.ofList whole ++ "." ++ String.ofList rest
    else "0." ++ String.ofList (List.replicate ((-leading).toNat - 1) '0') ++ ds
  else
    let (first, rest) := ds.toList.splitAt 1
    let mantissa :=
      if rest.isEmpty then String.ofList first
      else String.ofList first ++ "." ++ String.ofList rest
    let exponent :=
      if leading < 0 then "-" ++ toString (-leading).toNat
      else layout.positiveMark ++ toString leading.toNat
    mantissa ++ layout.exponentMark ++ exponent

/-- The text of a number in this layout. -/
def number (layout : Layout) (x : Binary64) : String :=
  let sign := if x.negative then "-" else ""
  if x.magnitude.isZero then sign ++ "0" ++ layout.wholeMark
  else sign ++ layout.digits x.magnitude.shortest

end Layout

end Harvest.Decimal
