import Harvest.Decimal.Shortest
import Harvest.Proofs.Decimal.Rounding

/-! What the shortest decimal of a magnitude stands for. It denotes the magnitude, so it is at
most half a unit away; read again, it stays below the finite limit.
-/

namespace Harvest.Decimal

namespace Digits

/-- The rational number that a decimal stands for. -/
def value (d : Digits) : ℚ := d.digits * 10 ^ d.exponent

/-- A decimal as a fraction has a positive denominator. -/
theorem fraction_pos (d : Digits) : 0 < d.fraction.2 := (scaled_spec (by norm_num) _ _).1

/-- A decimal as a fraction stands for the same number. -/
theorem fraction_value (d : Digits) : (d.fraction.1 / d.fraction.2 : ℚ) = d.value := by
  have spec := (scaled_spec (show 0 < 10 by norm_num) d.digits d.exponent).2
  exact_mod_cast spec

/-- What denotes a magnitude is rounded to it. -/
theorem rounds_of_denotes {d : Digits} {a : Magnitude} (denotes : d.denotes a)
    : Magnitude.Rounds d.value a :=
  d.fraction_value ▸ Magnitude.nearest_rounds d.fraction_pos (beq_iff_eq.mp denotes)

/-- What denotes a positive magnitude has a digit other than zero. -/
theorem digits_pos_of_denotes {d : Digits} {a : Magnitude} (denotes : d.denotes a)
    (positive : 0 < a.mantissa)
    : 0 < d.digits := by
  have found : Magnitude.nearest d.fraction.1 d.fraction.2 = some a := beq_iff_eq.mp denotes
  by_contra zero
  have nothing : d.fraction.1 = 0 := by
    unfold fraction
    split_ifs <;> simp [Nat.eq_zero_of_not_pos zero]
  rw [nothing] at found
  obtain rfl : Magnitude.zero = a := Option.some.inj found
  exact Nat.lt_irrefl 0 positive

/-- Without its last zeros a decimal stands for the same number, by induction over the steps. -/
theorem stripZeros_spec (d : Digits) (fuel : Nat) (positive : 0 < d.digits)
    : (d.stripZeros fuel).value = d.value ∧ 0 < (d.stripZeros fuel).digits := by
  induction fuel generalizing d with
  | zero => exact ⟨rfl, positive⟩
  | succ fuel ih =>
      unfold stripZeros
      split_ifs with more
      · simp only [Bool.and_eq_true, bne_iff_ne, beq_iff_eq] at more
        have tenth : d.digits / 10 * 10 = d.digits :=
          Nat.div_mul_cancel (Nat.dvd_of_mod_eq_zero more.2)
        obtain ⟨same, rest⟩ := ih ⟨d.digits / 10, d.exponent + 1⟩ (by simp only; omega)
        refine ⟨same.trans ?_, rest⟩
        have tenth' : ((d.digits / 10 : Nat) * 10 : ℚ) = d.digits := by exact_mod_cast tenth
        simp only [value]
        rw [zpow_add_one₀ (by norm_num), mul_comm (10 ^ d.exponent) (10 : ℚ), ← mul_assoc, tenth']
      · exact ⟨rfl, positive⟩

end Digits

namespace Magnitude

/-- All digits of a magnitude stand for it. -/
theorem allDigits_value (a : Magnitude) : a.allDigits.value = a.value := by
  unfold allDigits
  split_ifs with sign
  · obtain ⟨n, same⟩ := Int.eq_ofNat_of_zero_le sign
    rw [same, Int.toNat_natCast, Digits.value, value, same, zpow_natCast]
    simp
  · obtain ⟨n, same⟩ := Int.eq_ofNat_of_zero_le (show 0 ≤ -a.exponent by omega)
    rw [same, Int.toNat_natCast, Digits.value, value, show a.exponent = -(n : Int) by omega]
    simp only [Nat.pow_eq, Nat.cast_mul, Nat.cast_pow, Nat.cast_ofNat, zpow_neg, zpow_natCast]
    rw [mul_assoc, show (10 : ℚ) = 5 * 2 by norm_num, mul_pow, mul_inv, ← mul_assoc (5 ^ n),
      mul_inv_cancel₀ (by positivity), one_mul]

/-- The shortest decimal of a positive magnitude has a digit other than zero and is at most
half a unit away.
-/
theorem shortest_spec {a : Magnitude} (positive : 0 < a.mantissa)
    : 0 < a.shortest.digits ∧ a.shortest.value ≤ a.value + 2 ^ (a.exponent - 1) := by
  let candidates := (List.range 17).flatMap fun i => a.neighbours (i + 1)
  have found : 0 < ((candidates.find? (·.denotes a)).getD a.allDigits).digits
      ∧ ((candidates.find? (·.denotes a)).getD a.allDigits).value
        ≤ a.value + 2 ^ (a.exponent - 1) := by
    cases here : candidates.find? (·.denotes a) with
    | none =>
        constructor
        · unfold allDigits
          simp only [Option.getD_none]
          split_ifs
          · exact Nat.mul_pos positive (Nat.two_pow_pos _)
          · exact Nat.mul_pos positive (Nat.pow_pos (by norm_num))
        · rw [Option.getD_none, allDigits_value]
          have : (0 : ℚ) < 2 ^ (a.exponent - 1) := by positivity
          linarith
    | some d =>
        have denotes : d.denotes a := by simpa using List.find?_some here
        have near := (abs_le.mp (Digits.rounds_of_denotes denotes).near).2
        refine ⟨Digits.digits_pos_of_denotes denotes positive, ?_⟩
        rw [Option.getD_some]
        linarith
  obtain ⟨same, some'⟩ := Digits.stripZeros_spec _ (digitCount _) found.1
  exact ⟨some', same.trans_le found.2⟩

/-- Apart from the two largest magnitudes, the shortest decimal stays below the limit even if
its digits and its power of ten are both rounded up.
-/
theorem shortest_below_limit {a : Magnitude} (finite : a.Finite) (positive : 0 < a.mantissa)
    (other : a.exponent = mostExponent → a.mantissa ≤ 9007199254740989)
    : a.shortest.value * (1 + 1 / 2 ^ 53) ^ 2 < limit := by
  have near := (shortest_spec positive).2
  have bound : a.value + 2 ^ (a.exponent - 1)
      ≤ (9007199254740989 + 1 / 2) * 2 ^ (971 : Int) := by
    have half : a.value + 2 ^ (a.exponent - 1) = (a.mantissa + 1 / 2) * 2 ^ a.exponent := by
      rw [value, zpow_sub_one₀ two_ne_zero]
      ring
    rw [half]
    rcases finite.most.lt_or_eq with less | largest
    · have mantissa : (a.mantissa + 1 / 2 : ℚ) ≤ 2 ^ 53 + 1 / 2 := by
        have : (a.mantissa : ℚ) < 2 ^ 53 := by exact_mod_cast finite.fits
        linarith
      have exponent : (2 : ℚ) ^ a.exponent ≤ 2 ^ (970 : Int) := by
        apply zpow_le_zpow_right₀ one_le_two
        unfold mostExponent at less
        omega
      calc (a.mantissa + 1 / 2) * (2 : ℚ) ^ a.exponent
          ≤ (2 ^ 53 + 1 / 2) * 2 ^ (970 : Int) :=
            mul_le_mul mantissa exponent (by positivity) (by positivity)
        _ ≤ ((9007199254740989 + 1 / 2) * 2) * 2 ^ (970 : Int) := by
            gcongr
            norm_num
        _ = (9007199254740989 + 1 / 2) * 2 ^ (971 : Int) := by
            rw [mul_assoc, ← zpow_one_add₀ two_ne_zero]
            rfl
    · have mantissa : (a.mantissa : ℚ) ≤ 9007199254740989 := by exact_mod_cast other largest
      rw [largest]
      change _ * (2 : ℚ) ^ (971 : Int) ≤ _
      gcongr
  calc a.shortest.value * (1 + 1 / 2 ^ 53) ^ 2
      ≤ (9007199254740989 + 1 / 2) * 2 ^ (971 : Int) * (1 + 1 / 2 ^ 53) ^ 2 := by
        gcongr
        exact near.trans bound
    _ = (9007199254740989 + 1 / 2) * (1 + 1 / 2 ^ 53) ^ 2 * 2 ^ (971 : Int) := by ring
    _ < limit := mul_lt_mul_of_pos_right (by norm_num) (by positivity)

end Magnitude

end Harvest.Decimal
