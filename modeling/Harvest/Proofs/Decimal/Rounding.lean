import Harvest.Decimal.Binary64
import Mathlib.Algebra.Order.Field.Power
import Mathlib.Data.Nat.Log
import Mathlib.Data.Rat.Cast.Order
import Mathlib.Tactic.FieldSimp
import Mathlib.Tactic.Linarith
import Mathlib.Tactic.NormNum
import Mathlib.Tactic.Positivity
import Mathlib.Tactic.Ring

/-! How far rounding goes. The magnitude nearest to a fraction is at most half a unit in the
last place away from it, and there is one for every fraction below the finite limit.
-/

namespace Harvest.Decimal

/-- The quotient rounded to the nearest whole number is at most a half away. -/
theorem divideEven_near (num : Nat) {den : Nat} (pos : 0 < den)
    : |(num / den : ℚ) - divideEven num den| ≤ 1 / 2 := by
  have split : den * (num / den) + num % den = num := Nat.div_add_mod num den
  have bound : 2 * num ≤ 2 * den * divideEven num den + den
      ∧ 2 * den * divideEven num den ≤ 2 * num + den := by
    have below : num % den < den := Nat.mod_lt num pos
    unfold divideEven
    simp only
    have parity : num / den % 2 = 0 ∨ num / den % 2 = 1 := Nat.mod_two_eq_zero_or_one _
    rw [mul_assoc 2 den]
    split_ifs with low high
    · omega
    · rw [mul_add]
      omega
    · rcases parity with even | odd
      · rw [even, add_zero]
        omega
      · rw [odd, mul_add]
        omega
  have pos' : (0 : ℚ) < den := by exact_mod_cast pos
  have upper : (2 * num : ℚ) ≤ 2 * den * divideEven num den + den := by exact_mod_cast bound.1
  have lower : (2 * den * divideEven num den : ℚ) ≤ 2 * num + den := by exact_mod_cast bound.2
  rw [abs_le]
  constructor
  · rw [le_sub_iff_add_le, le_div_iff₀ pos']
    linarith
  · rw [sub_le_iff_le_add, div_le_iff₀ pos']
    linarith

/-- Positive fractions lie between two consecutive powers of two. -/
theorem log2Ratio_spec {num den : Nat} (numPos : 0 < num) (denPos : 0 < den)
    : (2 : ℚ) ^ log2Ratio num den ≤ num / den
      ∧ (num / den : ℚ) < 2 ^ (log2Ratio num den + 1) := by
  have denPos' : (0 : ℚ) < den := by exact_mod_cast denPos
  let guess : Int := (num.log2 : Int) - (den.log2 : Int)
  have numLow : ((2 : ℚ) ^ (num.log2 : Int)) ≤ num := by
    exact_mod_cast Nat.log2_self_le numPos.ne'
  have numHigh : (num : ℚ) < 2 ^ ((num.log2 : Int) + 1) := by
    exact_mod_cast Nat.lt_log2_self
  have denLow : ((2 : ℚ) ^ (den.log2 : Int)) ≤ den := by
    exact_mod_cast Nat.log2_self_le denPos.ne'
  have denHigh : (den : ℚ) < 2 ^ ((den.log2 : Int) + 1) := by
    exact_mod_cast Nat.lt_log2_self
  have above : (num / den : ℚ) < 2 ^ (guess + 1) := by
    rw [div_lt_iff₀ denPos']
    calc (num : ℚ) < 2 ^ ((num.log2 : Int) + 1) := numHigh
      _ = 2 ^ (guess + 1) * 2 ^ (den.log2 : Int) := by
          rw [← zpow_add₀ two_ne_zero]
          congr 1
          omega
      _ ≤ 2 ^ (guess + 1) * den := by gcongr
  have below : (2 : ℚ) ^ (guess - 1) < num / den := by
    rw [lt_div_iff₀ denPos']
    calc (2 : ℚ) ^ (guess - 1) * den < 2 ^ (guess - 1) * 2 ^ ((den.log2 : Int) + 1) := by gcongr
      _ = 2 ^ (num.log2 : Int) := by
          rw [← zpow_add₀ two_ne_zero]
          congr 1
          omega
      _ ≤ num := numLow
  have fits : (if 0 ≤ guess then Nat.pow 2 guess.toNat * den ≤ num
      else den ≤ num * Nat.pow 2 (-guess).toNat) ↔ (2 : ℚ) ^ guess ≤ num / den := by
    rw [le_div_iff₀ denPos']
    split_ifs with sign
    · obtain ⟨n, same⟩ := Int.eq_ofNat_of_zero_le sign
      rw [same, zpow_natCast, Int.toNat_natCast]
      exact_mod_cast Iff.rfl
    · obtain ⟨n, same⟩ := Int.eq_ofNat_of_zero_le (show 0 ≤ -guess by omega)
      rw [same, show guess = -(n : Int) by omega, zpow_neg, zpow_natCast, Int.toNat_natCast,
        inv_mul_le_iff₀ (by positivity), mul_comm]
      exact_mod_cast Iff.rfl
  by_cases holds : (2 : ℚ) ^ guess ≤ num / den
  · have found : log2Ratio num den = guess := if_pos (fits.mpr holds)
    rw [found]
    exact ⟨holds, above⟩
  · have found : log2Ratio num den = guess - 1 := if_neg fun here => holds (fits.mp here)
    rw [found, sub_add_cancel]
    exact ⟨below.le, not_le.mp holds⟩

/-- A whole number times a power of a base is written as a fraction in either of two ways. -/
theorem scaled_spec {base : Nat} (pos : 0 < base) (number : Nat) (exponent : Int)
    : let scaled := if 0 ≤ exponent then (number * Nat.pow base exponent.toNat, 1)
        else (number, Nat.pow base (-exponent).toNat)
      0 < scaled.2 ∧ (scaled.1 / scaled.2 : ℚ) = number * (base : ℚ) ^ exponent := by
  split_ifs with sign
  · obtain ⟨n, same⟩ := Int.eq_ofNat_of_zero_le sign
    rw [same, Int.toNat_natCast, zpow_natCast]
    simp
  · obtain ⟨n, same⟩ := Int.eq_ofNat_of_zero_le (show 0 ≤ -exponent by omega)
    rw [same, show exponent = -(n : Int) by omega, Int.toNat_natCast, zpow_neg, zpow_natCast]
    exact ⟨Nat.pow_pos pos, by simp [div_eq_mul_inv]⟩

namespace Magnitude

/-- The rational number that a magnitude stands for. -/
def value (a : Magnitude) : ℚ := a.mantissa * 2 ^ a.exponent

/-- The first fraction beyond the finite magnitudes. -/
def limit : ℚ := (2 ^ 53 - 1 / 2) * 2 ^ (971 : Int)

/-- A magnitude as a fraction has a positive denominator. -/
theorem fraction_pos (a : Magnitude) : 0 < a.fraction.2 := (scaled_spec two_pos _ _).1

/-- A magnitude as a fraction stands for the same number. -/
theorem fraction_value (a : Magnitude) : (a.fraction.1 / a.fraction.2 : ℚ) = a.value :=
  (scaled_spec two_pos _ _).2

/-- The magnitude has at most 53 significant bits, and its exponent is not too large. -/
structure Finite (a : Magnitude) : Prop where
  fits : a.mantissa < 2 ^ 53
  most : a.exponent ≤ mostExponent

/-- What a fraction is rounded to. -/
structure Rounds (x : ℚ) (a : Magnitude) : Prop extends a.Finite where
  near : |x - a.value| ≤ 2 ^ (a.exponent - 1)
  tight : 1 ≤ x → a.value ≤ x * (1 + 1 / 2 ^ 53)
  positive : 1 ≤ x → 0 < a.mantissa

section

variable {num den : Nat}

/-- The fraction in units of a power of two, rounded to the nearest whole number. -/
def units (num den : Nat) (exponent : Int) : Nat :=
  if 0 ≤ exponent then divideEven num (den * Nat.pow 2 exponent.toNat)
  else divideEven (num * Nat.pow 2 (-exponent).toNat) den

/-- Rounded units are at most a half away from the fraction. -/
theorem units_near (num : Nat) (exponent : Int) (pos : 0 < den)
    : |(num / den / 2 ^ exponent : ℚ) - units num den exponent| ≤ 1 / 2 := by
  unfold units
  split_ifs with sign
  · obtain ⟨n, same⟩ := Int.eq_ofNat_of_zero_le sign
    have near := divideEven_near num (Nat.mul_pos pos (Nat.two_pow_pos n))
    rw [same, Int.toNat_natCast, zpow_natCast, div_div]
    exact_mod_cast near
  · obtain ⟨n, same⟩ := Int.eq_ofNat_of_zero_le (show 0 ≤ -exponent by omega)
    have near := divideEven_near (num * Nat.pow 2 n) pos
    rw [same, show exponent = -(n : Int) by omega, Int.toNat_natCast, zpow_neg, zpow_natCast,
      div_inv_eq_mul, div_mul_eq_mul_div]
    exact_mod_cast near

/-- The exponent at which a fraction is rounded. -/
def unit (num den : Nat) : Int := max (log2Ratio num den - 52) leastExponent

/-- At its exponent a positive fraction has less than 54 significant bits. -/
theorem units_lt (numPos : 0 < num) (denPos : 0 < den)
    : (num / den / 2 ^ unit num den : ℚ) < 2 ^ 53 := by
  rw [div_lt_iff₀ (by positivity)]
  calc (num / den : ℚ) < 2 ^ (log2Ratio num den + 1) := (log2Ratio_spec numPos denPos).2
    _ ≤ 2 ^ (53 + unit num den) := zpow_le_zpow_right₀ one_le_two (by unfold unit; omega)
    _ = 2 ^ 53 * 2 ^ unit num den := by
        rw [zpow_add₀ two_ne_zero]
        norm_cast

/-- At its exponent a fraction of one or more has 53 significant bits. -/
theorem le_units (denPos : 0 < den) (large : (1 : ℚ) ≤ num / den)
    : (2 ^ 52 : ℚ) ≤ num / den / 2 ^ unit num den := by
  have numPos : 0 < num := by
    rcases Nat.eq_zero_or_pos num with rfl | pos
    · norm_num at large
    · exact pos
  have bounds := log2Ratio_spec numPos denPos
  have nonneg : 0 ≤ log2Ratio num den := by
    by_contra negative
    have small : (2 : ℚ) ^ (log2Ratio num den + 1) ≤ 2 ^ (0 : Int) :=
      zpow_le_zpow_right₀ one_le_two (by omega)
    rw [zpow_zero] at small
    linarith [bounds.2]
  have same : unit num den = log2Ratio num den - 52 := by
    unfold unit leastExponent
    omega
  rw [le_div_iff₀ (by positivity), same]
  calc (2 : ℚ) ^ 52 * 2 ^ (log2Ratio num den - 52) = 2 ^ log2Ratio num den := by
        rw [← zpow_natCast, ← zpow_add₀ two_ne_zero]
        congr 1
        omega
    _ ≤ num / den := bounds.1

/-- What is found nearest to a positive fraction, before the largest exponent is minded. -/
def rounded (num den : Nat) : Magnitude :=
  if units num den (unit num den) == 9007199254740992 then
    ⟨4503599627370496, unit num den + 1⟩
  else ⟨units num den (unit num den), unit num den⟩

/-- The nearest magnitude to a positive fraction, unless its exponent is too large. -/
theorem nearest_eq (pos : 0 < num)
    : nearest num den
      = if (rounded num den).exponent ≤ mostExponent then some (rounded num den) else none := by
  unfold nearest
  rw [if_neg (by simpa using pos.ne')]
  rfl

/-- What is found stands for the rounded units. -/
theorem rounded_value
    : (rounded num den).value = units num den (unit num den) * 2 ^ unit num den := by
  unfold rounded
  split_ifs with full
  · rw [beq_iff_eq.mp full, value, zpow_add_one₀ two_ne_zero]
    push_cast
    ring
  · rfl

/-- Rounded units are at most the next power of two. -/
theorem units_le (numPos : 0 < num) (denPos : 0 < den)
    : units num den (unit num den) ≤ 2 ^ 53 := by
  have near := abs_le.mp (units_near num (unit num den) denPos)
  have below := units_lt numPos denPos
  have : (units num den (unit num den) : ℚ) < 2 ^ 53 + 1 := by linarith
  have : units num den (unit num den) < 2 ^ 53 + 1 := by exact_mod_cast this
  omega

/-- What is found has 53 bits at most. -/
theorem rounded_fits (numPos : 0 < num) (denPos : 0 < den)
    : (rounded num den).mantissa < 2 ^ 53 := by
  have le := units_le numPos denPos
  unfold rounded
  split_ifs with full
  · norm_num
  · rw [beq_iff_eq] at full
    exact lt_of_le_of_ne le full

/-- A fraction in units is scaled back to itself. -/
theorem scaled_back (num den : Nat)
    : (num / den / 2 ^ unit num den * 2 ^ unit num den : ℚ) = num / den := by
  have unitPos : (0 : ℚ) < 2 ^ unit num den := by positivity
  exact div_mul_cancel₀ _ unitPos.ne'

/-- What is found is at most half a unit away from the fraction. -/
theorem rounded_near (denPos : 0 < den)
    : |(num / den : ℚ) - (rounded num den).value| ≤ 2 ^ ((rounded num den).exponent - 1) := by
  have near := units_near num (unit num den) denPos
  have unitPos : (0 : ℚ) < 2 ^ unit num den := by positivity
  have exponent : (2 : ℚ) ^ (unit num den - 1) ≤ 2 ^ ((rounded num den).exponent - 1) := by
    apply zpow_le_zpow_right₀ one_le_two
    unfold rounded
    split_ifs <;> simp
  rw [rounded_value]
  calc |(num / den : ℚ) - units num den (unit num den) * 2 ^ unit num den|
      = |(num / den / 2 ^ unit num den - units num den (unit num den) : ℚ)|
        * 2 ^ unit num den := by
        rw [← abs_of_pos unitPos, ← abs_mul, abs_of_pos unitPos, sub_mul, scaled_back]
    _ ≤ 1 / 2 * 2 ^ unit num den := by gcongr
    _ = 2 ^ (unit num den - 1) := by
        rw [zpow_sub_one₀ two_ne_zero]
        ring
    _ ≤ 2 ^ ((rounded num den).exponent - 1) := exponent

/-- What is found exceeds a fraction that is not below one by a small part of it at most. -/
theorem rounded_le (denPos : 0 < den) (large : (1 : ℚ) ≤ num / den)
    : (rounded num den).value ≤ num / den * (1 + 1 / 2 ^ 53) := by
  have enough := le_units denPos large
  have close : (units num den (unit num den) : ℚ)
      ≤ num / den / 2 ^ unit num den * (1 + 1 / 2 ^ 53) := by
    have := (abs_le.mp (units_near num (unit num den) denPos)).1
    linarith
  rw [rounded_value]
  calc (units num den (unit num den) * 2 ^ unit num den : ℚ)
      ≤ num / den / 2 ^ unit num den * (1 + 1 / 2 ^ 53) * 2 ^ unit num den := by gcongr
    _ = num / den * (1 + 1 / 2 ^ 53) := by rw [mul_right_comm, scaled_back]

/-- What is found for a fraction that is not below one is not zero. -/
theorem rounded_pos (denPos : 0 < den) (large : (1 : ℚ) ≤ num / den)
    : 0 < (rounded num den).mantissa := by
  have enough := le_units denPos large
  have near := (abs_le.mp (units_near num (unit num den) denPos)).2
  have some' : 0 < units num den (unit num den) := by
    have : (0 : ℚ) < units num den (unit num den) := by linarith
    exact_mod_cast this
  unfold rounded
  split_ifs
  · norm_num
  · exact some'

/-- Zero is what zero is rounded to. -/
theorem zero_rounds : Rounds 0 zero := by
  refine ⟨⟨by simp [zero], by decide⟩, ?_, ?_, ?_⟩
  · simp [value, zero]
    positivity
  all_goals
    intro large
    norm_num at large

/-- What is found nearest to a fraction is what it is rounded to. -/
theorem nearest_rounds (pos : 0 < den) {a : Magnitude} (found : nearest num den = some a)
    : Rounds (num / den) a := by
  rcases Nat.eq_zero_or_pos num with rfl | numPos
  · obtain rfl : zero = a := by simpa [nearest] using found
    rw [Nat.cast_zero, zero_div]
    exact zero_rounds
  · rw [nearest_eq numPos] at found
    split_ifs at found with most
    obtain rfl : rounded num den = a := Option.some.inj found
    exact ⟨⟨rounded_fits numPos pos, most⟩, rounded_near pos, rounded_le pos, rounded_pos pos⟩

/-- There is a nearest magnitude to every fraction below the limit. -/
theorem nearest_isSome (pos : 0 < den) (below : (num / den : ℚ) < limit)
    : (nearest num den).isSome := by
  rcases Nat.eq_zero_or_pos num with rfl | numPos
  · rfl
  · rw [nearest_eq numPos]
    split_ifs with most
    · rfl
    · exfalso
      have unitPos : (0 : ℚ) < 2 ^ unit num den := by positivity
      refine absurd below (not_lt.mpr ?_)
      unfold rounded at most
      split_ifs at most with full
      · have near := (abs_le.mp (units_near num (unit num den) pos)).1
        rw [beq_iff_eq.mp full] at near
        have large : (2 ^ 53 - 1 / 2 : ℚ) ≤ num / den / 2 ^ unit num den := by
          push_cast at near
          linarith
        rw [le_div_iff₀ unitPos] at large
        have exponent : (2 : ℚ) ^ (971 : Int) ≤ 2 ^ unit num den := by
          apply zpow_le_zpow_right₀ one_le_two
          simp only [mostExponent] at most
          omega
        calc limit ≤ (2 ^ 53 - 1 / 2) * 2 ^ unit num den := by
              unfold limit
              gcongr
          _ ≤ num / den := large
      · have exponent : (1024 : Int) ≤ log2Ratio num den := by
          simp only [unit, mostExponent, leastExponent] at most
          omega
        calc limit ≤ 2 ^ (53 : Int) * 2 ^ (971 : Int) := by
              unfold limit
              gcongr
              norm_num
          _ = 2 ^ (1024 : Int) := by
              rw [← zpow_add₀ two_ne_zero]
              rfl
          _ ≤ 2 ^ log2Ratio num den := zpow_le_zpow_right₀ one_le_two exponent
          _ ≤ num / den := (log2Ratio_spec numPos pos).1

end

-----------------------------------------------------------------------------------------
-- Reading decimals
-----------------------------------------------------------------------------------------

/-- The limit has 309 decimal digits. -/
theorem limit_lt : limit < 10 ^ 309 := by
  have powers : (2 : ℚ) ^ 1024 < 10 ^ 309 := by
    have : 2 ^ 1024 < 10 ^ 309 := by decide +kernel
    exact_mod_cast this
  calc limit < 2 ^ (53 : Int) * 2 ^ (971 : Int) :=
        mul_lt_mul_of_pos_right (by norm_num) (by positivity)
    _ = 2 ^ (1024 : Int) := by
        rw [← zpow_add₀ two_ne_zero]
        rfl
    _ < 10 ^ 309 := by exact_mod_cast powers

/-- Numbers of less than 309 digits lie below the limit. -/
theorem lt_limit {x : ℚ} (few : x ≤ 10 ^ 308) : x < limit := by
  have powers : (10 : ℚ) ^ 308 < 9007199254740991 * 2 ^ 971 := by
    have : 10 ^ 308 < 9007199254740991 * 2 ^ 971 := by decide +kernel
    exact_mod_cast this
  calc x ≤ 10 ^ 308 := few
    _ < 9007199254740991 * 2 ^ (971 : Int) := by exact_mod_cast powers
    _ ≤ limit := by
        unfold limit
        gcongr
        norm_num

/-- Powers of ten up to the 308th are rounded. -/
theorem powerOfTen_rounds {k : Nat} (few : k ≤ 308) : Rounds (10 ^ k) (powerOfTen k) := by
  have below : ((10 ^ k : Nat) / (1 : Nat) : ℚ) < limit := by
    apply lt_limit
    push_cast
    rw [div_one]
    exact pow_le_pow_right₀ (show (1 : ℚ) ≤ 10 by norm_num) few
  obtain ⟨a, found⟩ := Option.isSome_iff_exists.mp (nearest_isSome Nat.one_pos below)
  have rounds := nearest_rounds Nat.one_pos found
  have same : powerOfTen k = a := by
    change (nearest (10 ^ k) 1).getD zero = a
    rw [found]
    rfl
  simpa [same] using rounds

/-- Magnitudes whose product stays below the limit have a rounded product. -/
theorem times_isSome {a b : Magnitude} (below : a.value * b.value < limit)
    : (a.times b).isSome := by
  have product : ((a.fraction.1 * b.fraction.1 : Nat) / (a.fraction.2 * b.fraction.2 : Nat) : ℚ)
      = a.value * b.value := by
    rw [← fraction_value a, ← fraction_value b]
    push_cast
    rw [div_mul_div_comm]
  exact nearest_isSome (Nat.mul_pos a.fraction_pos b.fraction_pos) (product ▸ below)

/-- A decimal is read as a magnitude when it stays below the limit even if its digits and the
power of ten are both rounded up.
-/
theorem ofDecimal_isSome {significand : Nat} {exponent : Int} (short : significand < 2 ^ 64)
    (below : (significand * 10 ^ exponent * (1 + 1 / 2 ^ 53) ^ 2 : ℚ) < limit)
    : (ofDecimal significand exponent).isSome := by
  have few : (significand / (1 : Nat) : ℚ) < limit := by
    apply lt_limit
    have : (significand : ℚ) < 2 ^ 64 := by exact_mod_cast short
    rw [Nat.cast_one, div_one]
    calc (significand : ℚ) ≤ 10 ^ 20 := by linarith
      _ ≤ 10 ^ 308 := pow_le_pow_right₀ (by norm_num) (by norm_num)
  obtain ⟨start, found⟩ := Option.isSome_iff_exists.mp (nearest_isSome Nat.one_pos few)
  have rounds := nearest_rounds Nat.one_pos found
  simp only [ofDecimal, found, Option.bind_eq_bind, Option.bind_some]
  split_ifs with none' negative large
  · rfl
  · rfl
  all_goals
    have positive : (1 : ℚ) ≤ significand := by
      have : significand ≠ 0 := by
        rintro rfl
        obtain rfl : zero = start := by simpa [nearest] using found
        exact none' rfl
      exact_mod_cast Nat.one_le_iff_ne_zero.mpr this
    obtain ⟨k, rfl⟩ := Int.eq_ofNat_of_zero_le (not_lt.mp negative)
    rw [zpow_natCast] at below
  · have tens : (10 : ℚ) ^ 309 ≤ 10 ^ k := pow_le_pow_right₀ (by norm_num) (by omega)
    have : (10 : ℚ) ^ 309 < 10 ^ 309 := by
      calc (10 : ℚ) ^ 309 ≤ 10 ^ k := tens
        _ = 1 * 10 ^ k * 1 := by rw [one_mul, mul_one]
        _ ≤ significand * 10 ^ k * (1 + 1 / 2 ^ 53) ^ 2 := by
            gcongr
            norm_num
        _ < limit := below
        _ < 10 ^ 309 := limit_lt
    exact (lt_irrefl _ this).elim
  · have tens := powerOfTen_rounds (k := k) (by omega)
    rw [Int.toNat_natCast]
    apply times_isSome
    have digits : start.value ≤ significand * (1 + 1 / 2 ^ 53) := by
      have := rounds.tight
      rw [Nat.cast_one, div_one] at this
      exact this positive
    have scale : (powerOfTen k).value ≤ 10 ^ k * (1 + 1 / 2 ^ 53) :=
      tens.tight (one_le_pow₀ (by norm_num))
    calc start.value * (powerOfTen k).value
        ≤ (significand * (1 + 1 / 2 ^ 53)) * (10 ^ k * (1 + 1 / 2 ^ 53)) := by
          apply mul_le_mul digits scale
          · unfold value
            positivity
          · positivity
      _ = significand * 10 ^ k * (1 + 1 / 2 ^ 53) ^ 2 := by ring
      _ < limit := below

-----------------------------------------------------------------------------------------
-- Finite magnitudes
-----------------------------------------------------------------------------------------

/-- Zero is finite. -/
theorem finite_zero : zero.Finite := ⟨by simp [zero], by decide⟩

/-- A quotient by a power of ten is finite. -/
theorem quotient_finite (a : Magnitude) {k : Nat} (few : k ≤ 308)
    : ((a.quotient (powerOfTen k)).getD zero).Finite := by
  cases found : a.quotient (powerOfTen k) with
  | none => exact finite_zero
  | some b =>
      have divisor : 0 < (powerOfTen k).fraction.1 := by
        have positive := (powerOfTen_rounds few).positive (one_le_pow₀ (by norm_num))
        unfold fraction
        split_ifs
        · exact Nat.mul_pos positive (Nat.two_pow_pos _)
        · exact positive
      exact (nearest_rounds (Nat.mul_pos a.fraction_pos divisor) found).toFinite

/-- Dividing by powers of ten leaves finite magnitudes, by induction over the steps. -/
theorem shrink_finite {a : Magnitude} (finite : a.Finite) (k : Nat) : (a.shrink k).Finite := by
  fun_induction shrink a k with
  | case1 a _ _ => exact finite
  | case2 a _ _ few => exact quotient_finite a few
  | case3 a _ _ _ ih => exact ih (quotient_finite a le_rfl)

/-- What is read from a decimal is finite. -/
theorem ofDecimal_finite {significand : Nat} {exponent : Int} {a : Magnitude}
    (found : ofDecimal significand exponent = some a)
    : a.Finite := by
  cases start : nearest significand 1 with
  | none => simp [ofDecimal, start] at found
  | some b =>
      have finite := (nearest_rounds Nat.one_pos start).toFinite
      simp only [ofDecimal, start, Option.bind_eq_bind, Option.bind_some] at found
      split_ifs at found
      · obtain rfl : zero = a := Option.some.inj found
        exact finite_zero
      · obtain rfl : b.shrink (-exponent).toNat = a := Option.some.inj found
        exact shrink_finite finite _
      · cases found
      · exact (nearest_rounds (Nat.mul_pos b.fraction_pos (fraction_pos _)) found).toFinite

end Magnitude

end Harvest.Decimal
