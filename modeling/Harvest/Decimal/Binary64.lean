/-! Finite binary floating-point magnitudes of 53 significant bits, as exact pairs of a
mantissa and a power of two. Every operation computes the exact rational result and rounds
it once, to the nearest magnitude and on a tie to the even mantissa.
-/

namespace Harvest.Decimal

/-- The quotient of two numbers rounded to the nearest whole number, a half to the even one. -/
def divideEven (num den : Nat) : Nat :=
  let quotient := num / den
  let twice := 2 * (num % den)
  if twice < den then quotient
  else if den < twice then quotient + 1
  else quotient + quotient % 2

/-- The largest `k` with `2 ^ k * den ≤ num`, for positive numbers. -/
def log2Ratio (num den : Nat) : Int :=
  let guess : Int := (num.log2 : Int) - (den.log2 : Int)
  let fits := if 0 ≤ guess then Nat.pow 2 guess.toNat * den ≤ num
    else den ≤ num * Nat.pow 2 (-guess).toNat
  if fits then guess else guess - 1

/-- A magnitude `mantissa * 2 ^ exponent`. -/
structure Magnitude where
  mantissa : Nat
  exponent : Int
deriving DecidableEq, Repr, Inhabited

namespace Magnitude

/-- The smallest exponent; magnitudes with it may have fewer than 53 significant bits. -/
def leastExponent : Int := -1074

/-- The largest exponent of a finite magnitude. -/
def mostExponent : Int := 971

/-- The magnitude zero. -/
def zero : Magnitude := ⟨0, leastExponent⟩

/-- The magnitude is zero. -/
def isZero (a : Magnitude) : Bool := a.mantissa == 0

/-- The magnitude as a fraction. -/
def fraction (a : Magnitude) : Nat × Nat :=
  if 0 ≤ a.exponent then (a.mantissa * Nat.pow 2 a.exponent.toNat, 1)
  else (a.mantissa, Nat.pow 2 (-a.exponent).toNat)

/-- The magnitude nearest to a fraction with positive denominator, or nothing when the
fraction lies beyond the finite magnitudes.
-/
def nearest (num den : Nat) : Option Magnitude :=
  if num == 0 then some zero
  else
    let exponent := max (log2Ratio num den - 52) leastExponent
    let mantissa :=
      if 0 ≤ exponent then divideEven num (den * Nat.pow 2 exponent.toNat)
      else divideEven (num * Nat.pow 2 (-exponent).toNat) den
    let rounded : Magnitude :=
      if mantissa == 9007199254740992 then ⟨4503599627370496, exponent + 1⟩ else ⟨mantissa, exponent⟩
    if rounded.exponent ≤ mostExponent then some rounded else none

/-- The rounded product. -/
def times (a b : Magnitude) : Option Magnitude :=
  let (n, d) := a.fraction
  let (m, e) := b.fraction
  nearest (n * m) (d * e)

/-- The rounded quotient by a magnitude that is not zero. -/
def quotient (a b : Magnitude) : Option Magnitude :=
  let (n, d) := a.fraction
  let (m, e) := b.fraction
  nearest (n * e) (d * m)

/-- The magnitude nearest to a power of ten with an exponent up to 308. -/
def powerOfTen (k : Nat) : Magnitude :=
  (nearest (Nat.pow 10 k) 1).getD zero

/-- A magnitude divided by ten to the `k`, in steps of at most 308 places that each round,
ending early once nothing is left.
-/
def shrink (a : Magnitude) (k : Nat) : Magnitude :=
  if a.isZero then a
  else if k ≤ 308 then (a.quotient (powerOfTen k)).getD zero
  else shrink ((a.quotient (powerOfTen 308)).getD zero) (k - 308)
termination_by k

/-- The magnitude read from a whole significand and a power of ten: the significand is
rounded first, the scaling rounds again. Nothing beyond the finite magnitudes.
-/
def ofDecimal (significand : Nat) (exponent : Int) : Option Magnitude := do
  let start ← nearest significand 1
  if start.isZero then return zero
  if exponent < 0 then return shrink start (-exponent).toNat
  if 308 < exponent then none
  start.times (powerOfTen exponent.toNat)

end Magnitude

/-- A finite binary floating-point number: a sign and a magnitude. -/
structure Binary64 where
  negative : Bool
  magnitude : Magnitude
deriving DecidableEq, Repr, Inhabited

end Harvest.Decimal
