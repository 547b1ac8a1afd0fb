import Harvest.Text.Blank
import Mathlib.Algebra.Group.Nat.Defs
import Mathlib.Data.List.Basic

/-! Numbers in a fixed count of digits. Such texts are in the order of their numbers, and a number
is read back from its digits.
-/

namespace Harvest.Text

-----------------------------------------------------------------------------------------
-- The order of texts
-----------------------------------------------------------------------------------------

/-- Code points, by which texts are ordered. -/
def codes (cs : List Char) : List Nat := cs.map Char.toNat

/-- Among lists that begin with equally many numbers the beginnings decide first, by induction
over both.
-/
theorem append_lt_append_iff {first second : List Nat} (lengths : first.length = second.length)
    (more rest : List Nat)
    : first ++ more < second ++ rest ↔ first < second ∨ first = second ∧ more < rest := by
  induction first generalizing second with
  | nil =>
      rw [List.length_nil, eq_comm, List.length_eq_zero_iff] at lengths
      subst lengths
      simp
  | cons a first ih =>
      cases second with
      | nil => simp at lengths
      | cons b second =>
          rw [List.length_cons, List.length_cons, Nat.add_right_cancel_iff] at lengths
          simp only [List.cons_append, List.cons_lt_cons_iff, ih lengths, List.cons.injEq]
          grind

/-- Behind one character the rest decides. -/
theorem codes_cons_lt_iff (c : Char) (more rest : List Char)
    : codes (c :: more) < codes (c :: rest) ↔ codes more < codes rest := by
  simp [codes]

/-- No list comes before as many least numbers when nothing in it is below those, by induction over
it.
-/
theorem not_lt_replicate {least : Nat} {numbers : List Nat} (floor : ∀ n ∈ numbers, least ≤ n)
    : ¬ numbers < List.replicate numbers.length least := by
  induction numbers with
  | nil => simp
  | cons a numbers ih =>
      rw [List.length_cons, List.replicate_succ, List.cons_lt_cons_iff]
      have here : least ≤ a := floor a List.mem_cons_self
      have there := ih fun n member => floor n (List.mem_cons_of_mem _ member)
      grind

/-- Lists of equal lengths keep their order when the least numbers at their ends give way to a mark
below them, by induction over both.
-/
theorem lt_of_append_replicate_lt {mark least : Nat} (low : mark < least) {first second : List Nat}
    (floor : ∀ n ∈ first, least ≤ n) (floor' : ∀ n ∈ second, least ≤ n) {i j : Nat}
    (lengths : first.length + i = second.length + j)
    (less : first ++ List.replicate i least < second ++ List.replicate j least)
    (more rest : List Nat)
    : first ++ mark :: more < second ++ mark :: rest := by
  induction first generalizing second with
  | nil =>
      cases second with
      | nil =>
          obtain rfl : i = j := by simpa using lengths
          exact absurd less (List.lt_irrefl _)
      | cons b second =>
          have here : least ≤ b := floor' b List.mem_cons_self
          exact List.cons_lt_cons_iff.mpr (Or.inl (by omega))
  | cons a first ih =>
      cases second with
      | nil =>
          have same : j = (a :: first ++ List.replicate i least).length := by
            simp at lengths ⊢
            omega
          rw [List.nil_append, same] at less
          refine absurd less (not_lt_replicate fun n member => ?_)
          rcases List.mem_append.mp member with here | zeros
          · exact floor n here
          · exact Nat.le_of_eq (List.eq_of_mem_replicate zeros).symm
      | cons b second =>
          rw [List.cons_append, List.cons_append, List.cons_lt_cons_iff] at less ⊢
          rcases less with before | ⟨same, behind⟩
          · exact Or.inl before
          · refine Or.inr ⟨same, ih ?_ ?_ ?_ behind⟩
            · exact fun n member => floor n (List.mem_cons_of_mem _ member)
            · exact fun n member => floor' n (List.mem_cons_of_mem _ member)
            · simpa [Nat.add_right_comm] using lengths

-----------------------------------------------------------------------------------------
-- Digits of a base
-----------------------------------------------------------------------------------------

/-- A number in exactly `width` digits of a base, the higher ones dropped. -/
def inDigits (base : Nat) (digit : Nat → Char) : (width : Nat) → Nat → List Char
  | 0, _ => []
  | width + 1, n => inDigits base digit width (n / base) ++ [digit (n % base)]

section

variable {base : Nat} {digit : Nat → Char}

@[simp] theorem length_inDigits (base : Nat) (digit : Nat → Char) (width n : Nat)
    : (inDigits base digit width n).length = width := by
  induction width generalizing n with
  | zero => rfl
  | succ width ih => simp [inDigits, ih]

/-- Each character is the digit of a number below the base, by induction over the width. -/
theorem mem_inDigits (positive : 0 < base) {width n : Nat} {c : Char}
    (member : c ∈ inDigits base digit width n)
    : ∃ d < base, c = digit d := by
  induction width generalizing n with
  | zero => cases member
  | succ width ih =>
      rw [inDigits, List.mem_append, List.mem_singleton] at member
      rcases member with high | low
      · exact ih high
      · exact ⟨n % base, Nat.mod_lt n positive, low⟩

/-- A multiple of the base ends with the digit of zero, by induction over the zeros. -/
theorem inDigits_mul_pow (positive : 0 < base) (width zeros n : Nat)
    : inDigits base digit (width + zeros) (n * base ^ zeros)
      = inDigits base digit width n ++ List.replicate zeros (digit 0) := by
  induction zeros with
  | zero => simp
  | succ zeros ih =>
      have shifted : n * base ^ (zeros + 1) = n * base ^ zeros * base := by
        rw [Nat.pow_succ, Nat.mul_assoc]
      rw [← Nat.add_assoc, inDigits, shifted, Nat.mul_div_cancel _ positive, ih, Nat.mul_mod_left,
        List.append_assoc, List.replicate_succ']

/-- A smaller number has a smaller text when smaller digits have smaller codes and there are enough
of them, by induction over the width.
-/
theorem codes_inDigits_lt (rising : ∀ {a b}, a < b → b < base → (digit a).toNat < (digit b).toNat)
    {width a b : Nat} (less : a < b) (fits : b < base ^ width)
    : codes (inDigits base digit width a) < codes (inDigits base digit width b) := by
  induction width generalizing a b with
  | zero =>
      rw [Nat.pow_zero, Nat.lt_one_iff] at fits
      omega
  | succ width ih =>
      have positive : 0 < base := Nat.pos_of_ne_zero fun zero => by simp [zero] at fits
      have fits' : b / base < base ^ width := by
        rw [Nat.pow_succ] at fits
        exact Nat.div_lt_of_lt_mul (Nat.mul_comm _ base ▸ fits)
      have lengths : (codes (inDigits base digit width (a / base))).length
          = (codes (inDigits base digit width (b / base))).length := by simp [codes]
      have digits (n : Nat) : codes (inDigits base digit (width + 1) n)
          = codes (inDigits base digit width (n / base)) ++ [(digit (n % base)).toNat] := by
        simp [inDigits, codes]
      rw [digits, digits, append_lt_append_iff lengths]
      rcases Nat.lt_or_eq_of_le (Nat.div_le_div_right (c := base) (Nat.le_of_lt less))
        with high | same
      · exact Or.inl (ih high fits')
      · have low : a % base < b % base := by
          have one := Nat.div_add_mod a base
          have two := Nat.div_add_mod b base
          rw [same] at one
          omega
        refine Or.inr ⟨by rw [same], ?_⟩
        exact List.cons_lt_cons_iff.mpr (Or.inl (rising low (Nat.mod_lt b positive)))

/-- Texts that begin with numbers in equally many digits are in the order of the numbers first. -/
theorem codes_inDigits_append_lt_iff
    (rising : ∀ {a b}, a < b → b < base → (digit a).toNat < (digit b).toNat)
    {width a b : Nat} (fitsA : a < base ^ width) (fitsB : b < base ^ width)
    (more rest : List Char)
    : codes (inDigits base digit width a ++ more) < codes (inDigits base digit width b ++ rest)
      ↔ a < b ∨ a = b ∧ codes more < codes rest := by
  have lengths : (codes (inDigits base digit width a)).length
      = (codes (inDigits base digit width b)).length := by simp [codes]
  have split (n : Nat) (tail : List Char) : codes (inDigits base digit width n ++ tail)
      = codes (inDigits base digit width n) ++ codes tail := List.map_append
  rw [split, split, append_lt_append_iff lengths]
  rcases Nat.lt_trichotomy a b with less | same | more'
  · simp [less, codes_inDigits_lt rising less fitsB]
  · subst same
    simp [List.lt_irrefl]
  · have behind := codes_inDigits_lt rising more' fitsA
    have apart : codes (inDigits base digit width a) ≠ codes (inDigits base digit width b) :=
      fun same => List.lt_irrefl _ (same ▸ behind)
    simp [List.lt_asymm behind, apart, Nat.lt_asymm more', Nat.ne_of_gt more']

end

-----------------------------------------------------------------------------------------
-- Decimal digits
-----------------------------------------------------------------------------------------

/-- A number in exactly `width` decimal digits, the higher ones dropped. -/
abbrev inDecimal : (width : Nat) → Nat → List Char := inDigits 10 Nat.digitChar

/-- Smaller decimal digits have smaller codes, by cases on the ten digits. -/
theorem digitChar_lt {a b : Nat} (less : a < b) (small : b < 10)
    : (Nat.digitChar a).toNat < (Nat.digitChar b).toNat := by
  revert a
  revert b
  decide

theorem isDigit_digitChar {d : Nat} (small : d < 10) : isDigit (Nat.digitChar d) := by
  revert d
  decide

/-- A decimal digit is read as its value, by cases on the ten digits. -/
theorem toNat_digitChar {d : Nat} (small : d < 10) : (Nat.digitChar d).toNat - 48 = d := by
  revert d
  decide

theorem isDigit_of_mem_inDecimal {width n : Nat} {c : Char} (member : c ∈ inDecimal width n)
    : isDigit c := by
  obtain ⟨d, small, rfl⟩ := mem_inDigits (by decide) member
  exact isDigit_digitChar small

/-- The digits of a number are digits. -/
theorem isDigit_of_mem_toDigits {n : Nat} {c : Char} (member : c ∈ Nat.toDigits 10 n)
    : isDigit c := by
  have digit := Nat.isDigit_of_mem_toDigits (by decide) (Nat.le_refl 10) member
  simp only [Char.isDigit, Bool.and_eq_true, decide_eq_true_eq] at digit
  simp only [isDigit, Bool.and_eq_true, decide_eq_true_eq]
  exact digit

/-- However large a number is, it is filled up with digits and written in digits. -/
theorem isDigit_of_mem_padded {width n : Nat} {c : Char} (member : c ∈ (padded width n).toList)
    : isDigit c := by
  have parts : (padded width n).toList
      = List.replicate (width - (toString n).length) '0' ++ Nat.toDigits 10 n := by
    simp [padded, Nat.toString_eq_repr, Nat.repr]
  rw [parts, List.mem_append] at member
  rcases member with zeros | digits
  · rw [List.eq_of_mem_replicate zeros]
    decide
  · exact isDigit_of_mem_toDigits digits

/-- No digit is blank. -/
theorem not_isBlank_of_isDigit {c : Char} (digit : isDigit c) : isBlank c = false := by
  simp only [isDigit, Bool.and_eq_true, decide_eq_true_eq] at digit
  have low : 48 ≤ c.toNat := digit.1
  have high : c.toNat ≤ 57 := digit.2
  simp only [isBlank, Bool.or_eq_false_iff, Bool.and_eq_false_iff, beq_eq_false_iff_ne,
    decide_eq_false_iff_not]
  omega

/-- A number is read back from its digits when there are enough of them, by induction over the
width.
-/
theorem decimal_inDecimal {width n : Nat} (fits : n < 10 ^ width)
    : decimal (inDecimal width n) = n := by
  induction width generalizing n with
  | zero =>
      rw [Nat.pow_zero, Nat.lt_one_iff] at fits
      subst fits
      rfl
  | succ width ih =>
      have high : decimal (inDecimal width (n / 10)) = n / 10 := by
        rw [Nat.pow_succ] at fits
        exact ih (Nat.div_lt_of_lt_mul (by omega))
      have low := toNat_digitChar (Nat.mod_lt n (by decide : 0 < 10))
      unfold decimal at high ⊢
      rw [inDecimal, inDigits, List.foldl_append, high]
      simp only [List.foldl_cons, List.foldl_nil, low]
      omega

/-- Filling up with zeros gives a number exactly as many digits as asked for, by induction over the
width.
-/
theorem replicate_append_toDigits {width n : Nat} (fits : n < 10 ^ (width + 1))
    : List.replicate (width + 1 - (Nat.toDigits 10 n).length) '0' ++ Nat.toDigits 10 n
      = inDecimal (width + 1) n := by
  induction width generalizing n with
  | zero =>
      have small : n < 10 := by simpa using fits
      rw [Nat.toDigits_of_lt_base small]
      simp [inDecimal, inDigits, Nat.mod_eq_of_lt small]
  | succ width ih =>
      rw [inDecimal, inDigits]
      by_cases small : n < 10
      · have zeros
            : inDigits 10 Nat.digitChar (0 + (width + 1)) (0 * 10 ^ (width + 1))
              = [] ++ List.replicate (width + 1) '0' :=
          inDigits_mul_pow (by decide) 0 (width + 1) 0
        rw [Nat.zero_add, Nat.zero_mul] at zeros
        rw [Nat.toDigits_of_lt_base small, Nat.div_eq_of_lt small, Nat.mod_eq_of_lt small, zeros]
        rfl
      · have high : n / 10 < 10 ^ (width + 1) := by
          rw [Nat.pow_succ] at fits
          exact Nat.div_lt_of_lt_mul (by omega)
        have split : Nat.toDigits 10 n = Nat.toDigits 10 (n / 10) ++ [Nat.digitChar (n % 10)] := by
          rw [Nat.toDigits_eq_if (by decide), if_neg small]
        rw [split, List.length_append, List.length_singleton, Nat.add_sub_add_right,
          ← List.append_assoc, ih high]

/-- A padded number is written in as many digits as asked for. -/
theorem toList_padded {width n : Nat} (positive : 0 < width) (fits : n < 10 ^ width)
    : (padded width n).toList = inDecimal width n := by
  obtain ⟨width, rfl⟩ := Nat.exists_eq_add_of_lt positive
  rw [Nat.zero_add] at fits ⊢
  rw [← replicate_append_toDigits fits]
  simp [padded, Nat.toString_eq_repr, Nat.repr]

end Harvest.Text
