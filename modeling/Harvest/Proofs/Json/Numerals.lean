import Harvest.Json.Printer
import Harvest.Json.Token
import Harvest.Proofs.Decimal.Shortest
import Harvest.Proofs.Text.Digits
import Mathlib.Tactic.IntervalCases

/-! Numbers in writing. A numeral has digits, perhaps a fraction and perhaps an exponent; the
scanner reads it as one word, and the number that it reads is never too large when the numeral
is the text of a number.
-/

namespace Harvest.Json

open Decimal

-----------------------------------------------------------------------------------------
-- Scanning numbers
-----------------------------------------------------------------------------------------

/-- A text that may stand behind a number: it is empty or goes on with the end of an item or of a
line.
-/
def Closes (rest : List Char) : Prop :=
  ∀ c ∈ rest.head?, c = ',' ∨ c = ']' ∨ c = '\x7d' ∨ c = '\n'

namespace NumberText

/-- The scanner inside a number that may end here. -/
def IsComplete (t : NumberText) : Prop :=
  t.part = .zero ∨ t.part = .whole ∨ t.part = .fraction ∨ t.part = .exponent

/-- The scanner before the first digit of a number. -/
def before (negative : Bool) : NumberText := { minus with negative := negative }

/-- What ends an item or a line does not go on with a number. -/
theorem step_eq_none {t : NumberText} {c : Char}
    (ends : c = ',' ∨ c = ']' ∨ c = '\x7d' ∨ c = '\n')
    : t.step c = none := by
  obtain ⟨part⟩ := t
  rcases ends with rfl | rfl | rfl | rfl <;> cases part <;> rfl

/-- A complete number is one word. -/
theorem token_eq {t : NumberText} (complete : t.IsComplete) (next : Option Char)
    (ends : ∀ c ∈ next, c = ',' ∨ c = ']' ∨ c = '\x7d' ∨ c = '\n')
    : t.token next = .number t.value := by
  unfold token
  rcases complete with zero | other | other | other
  · have digit : next.any Text.isDigit = false := by
      cases next with
      | none => rfl
      | some c => rcases ends c rfl with rfl | rfl | rfl | rfl <;> rfl
    simp [zero, digit]
  all_goals simp [other]

end NumberText

/-- The scanner goes through the characters of a number, by induction over them. -/
theorem scan_steps {cs : List Char} {t u : NumberText}
    (steps : cs.foldlM NumberText.step t = some u) (rest : List Char)
    : scan (.number t) (cs ++ rest) = scan (.number u) rest := by
  induction cs generalizing t with
  | nil => simp_all
  | cons c cs ih =>
      simp only [List.foldlM_cons, Option.bind_eq_bind, Option.bind_eq_some_iff] at steps
      obtain ⟨next, step, steps⟩ := steps
      rw [List.cons_append, scan]
      simp only [Scan.step, step, List.nil_append]
      exact ih steps

/-- A number ends where its item or its line ends. -/
theorem scan_complete {t : NumberText} (complete : t.IsComplete) {rest : List Char}
    (closes : Closes rest)
    : scan (.number t) rest = .number t.value :: scan .between rest := by
  cases rest with
  | nil =>
      simp only [scan, Scan.finish]
      rw [NumberText.token_eq complete none (by simp)]
  | cons c rest =>
      have ends := closes c rfl
      have step := NumberText.step_eq_none (t := t) ends
      have token := NumberText.token_eq complete (some c) (by simpa using ends)
      simp only [scan, Scan.step, step, token]
      cases (Scan.start c).next <;> rfl

/-- The digits are ten characters. -/
theorem mem_digits {c : Char} (digit : Text.isDigit c)
    : c ∈ ['0', '1', '2', '3', '4', '5', '6', '7', '8', '9'] := by
  simp only [Text.isDigit, Bool.and_eq_true, decide_eq_true_eq] at digit
  obtain ⟨low, high⟩ := digit
  have low : 48 ≤ c.toNat := low
  have high : c.toNat ≤ 57 := high
  have same : c = Char.ofNat c.toNat := (Char.ofNat_toNat c).symm
  rw [same]
  generalize c.toNat = n at low high
  interval_cases n <;> decide

/-- A number starts with its first digit. -/
theorem scan_digit {c : Char} (digit : Text.isDigit c) (rest : List Char)
    : scan .between (c :: rest) = scan (.number (.before false)) (c :: rest) := by
  have one := mem_digits digit
  simp only [List.mem_cons, List.not_mem_nil, or_false] at one
  rcases one with rfl | rfl | rfl | rfl | rfl | rfl | rfl | rfl | rfl | rfl <;> rfl

/-- A negative number starts with its sign. -/
theorem scan_minus (rest : List Char)
    : scan .between ('-' :: rest) = scan (.number (.before true)) rest := by
  rfl

-----------------------------------------------------------------------------------------
-- Numerals
-----------------------------------------------------------------------------------------

/-- A number as it is written: its digits before and behind the point, and its exponent. -/
structure Numeral where
  whole : List Char
  fraction : List Char
  exponent : Option Int

namespace Numeral

/-- The characters of the fraction, behind its point. -/
def fractionChars (n : Numeral) : List Char :=
  if n.fraction = [] then [] else '.' :: n.fraction

/-- The characters of the exponent, behind its mark. -/
def exponentChars (n : Numeral) : List Char :=
  match n.exponent with
  | none => []
  | some e => 'e' :: (if e < 0 then '-' else '+') :: Nat.toDigits 10 e.natAbs

/-- The characters of a numeral. -/
def chars (n : Numeral) : List Char := n.whole ++ n.fractionChars ++ n.exponentChars

/-- What the scanner has read at the end of a numeral. -/
def read (n : Numeral) (negative : Bool) : NumberText where
  part :=
    if n.exponent.isSome then .exponent
    else if n.fraction ≠ [] then .fraction
    else if n.whole = ['0'] then .zero
    else .whole
  negative := negative
  wholeDigits := (n.whole.map (·.toNat - 48)).reverse
  fractionDigits := (n.fraction.map (·.toNat - 48)).reverse
  exponentNegative := n.exponent.any (· < 0)
  exponentDigits :=
    (((n.exponent.map fun e => Nat.toDigits 10 e.natAbs).getD []).map (·.toNat - 48)).reverse

/-- The numeral has digits only where digits belong, and no zero before its other digits. -/
structure Sound (n : Numeral) : Prop where
  filled : n.whole ≠ []
  whole : ∀ c ∈ n.whole, Text.isDigit c
  fraction : ∀ c ∈ n.fraction, Text.isDigit c
  leading : n.whole.head? = some '0' → n.whole = ['0']

/-- The number that a numeral stands for. -/
def value (n : Numeral) : ℚ :=
  Nat.ofDigitChars 10 (n.whole ++ n.fraction) 0
    * 10 ^ (n.exponent.getD 0 - (n.fraction.length : Int))

end Numeral

namespace NumberText

variable {t : NumberText} {cs : List Char}

/-- A point may follow the digits before it. -/
theorem step_point (part : t.part = .zero ∨ t.part = .whole)
    : t.step '.' = some { t with part := .point } := by
  have digit : Text.isDigit '.' = false := by decide
  rcases part with part | part <;> simp [step, part, digit]

/-- An exponent may follow a number that could end. -/
theorem step_mark (part : t.part = .zero ∨ t.part = .whole ∨ t.part = .fraction)
    : t.step 'e' = some { t with part := .mark } := by
  have digit : Text.isDigit 'e' = false := by decide
  rcases part with part | part | part <;> simp [step, part, digit]

/-- More digits before the point, by induction over them. -/
theorem steps_whole (part : t.part = .whole) (filled : t.wholeDigits ≠ [])
    (digits : ∀ c ∈ cs, Text.isDigit c)
    : cs.foldlM step t
      = some { t with wholeDigits := (cs.map (·.toNat - 48)).reverse ++ t.wholeDigits } := by
  induction cs generalizing t with
  | nil => simp
  | cons c cs ih =>
      have digit := digits c List.mem_cons_self
      have rest := fun c member => digits c (List.mem_cons_of_mem _ member)
      have here : t.step c = some { t with wholeDigits := (c.toNat - 48) :: t.wholeDigits } := by
        simp [step, part, digit, addWhole, filled]
      rw [List.foldlM_cons, here, Option.bind_eq_bind, Option.bind_some,
        ih (by exact part) (by simp) rest]
      simp

/-- More digits behind the point, by induction over them. -/
theorem steps_fraction (part : t.part = .fraction) (digits : ∀ c ∈ cs, Text.isDigit c)
    : cs.foldlM step t
      = some { t with fractionDigits := (cs.map (·.toNat - 48)).reverse ++ t.fractionDigits } := by
  induction cs generalizing t with
  | nil => simp
  | cons c cs ih =>
      have digit := digits c List.mem_cons_self
      have rest := fun c member => digits c (List.mem_cons_of_mem _ member)
      have here : t.step c
          = some { t with fractionDigits := (c.toNat - 48) :: t.fractionDigits } := by
        simp [step, part, digit]
      rw [List.foldlM_cons, here, Option.bind_eq_bind, Option.bind_some,
        ih (by exact part) rest]
      simp

/-- More digits of the exponent, by induction over them. -/
theorem steps_exponent (part : t.part = .exponent) (digits : ∀ c ∈ cs, Text.isDigit c)
    : cs.foldlM step t
      = some { t with exponentDigits := (cs.map (·.toNat - 48)).reverse ++ t.exponentDigits } := by
  induction cs generalizing t with
  | nil => simp
  | cons c cs ih =>
      have digit := digits c List.mem_cons_self
      have rest := fun c member => digits c (List.mem_cons_of_mem _ member)
      have here : t.step c
          = some { t with exponentDigits := (c.toNat - 48) :: t.exponentDigits } := by
        simp [step, part, digit]
      rw [List.foldlM_cons, here, Option.bind_eq_bind, Option.bind_some,
        ih (by exact part) rest]
      simp

end NumberText

namespace Numeral

variable {n : Numeral}

/-- The scanner reads the digits before the point. -/
theorem Sound.steps_whole (sound : n.Sound) (negative : Bool)
    : n.whole.foldlM NumberText.step (.before negative)
      = some ((⟨n.whole, [], none⟩ : Numeral).read negative) := by
  obtain ⟨filled, digits, _, leading⟩ := sound
  cases whole : n.whole with
  | nil => exact absurd whole filled
  | cons c cs =>
      rw [whole] at digits leading
      have digit := digits c List.mem_cons_self
      have rest := fun c member => digits c (List.mem_cons_of_mem _ member)
      have here : (NumberText.before negative).step c
          = some ((NumberText.before negative).addWhole (c.toNat - 48)) := by
        simp [NumberText.step, NumberText.before, NumberText.minus, digit]
      rw [List.foldlM_cons, here, Option.bind_eq_bind, Option.bind_some]
      by_cases zero : c = '0'
      · subst zero
        obtain rfl : cs = [] := by simpa using leading rfl
        rfl
      · have other : c.toNat - 48 ≠ 0 := by
          have := mem_digits digit
          simp only [List.mem_cons, List.not_mem_nil, or_false] at this
          rcases this with rfl | rfl | rfl | rfl | rfl | rfl | rfl | rfl | rfl | rfl
          · exact absurd rfl zero
          all_goals decide
        rw [NumberText.steps_whole]
        · simp [NumberText.addWhole, NumberText.before, NumberText.minus, read, other, zero]
        · simp [NumberText.addWhole, other]
        · simp [NumberText.addWhole]
        · exact rest

/-- The scanner reads the fraction. -/
theorem Sound.steps_fraction (sound : n.Sound) (negative : Bool)
    : n.fractionChars.foldlM NumberText.step ((⟨n.whole, [], none⟩ : Numeral).read negative)
      = some ((⟨n.whole, n.fraction, none⟩ : Numeral).read negative) := by
  have digits := sound.fraction
  cases fraction : n.fraction with
  | nil => simp [fractionChars, fraction]
  | cons c cs =>
      rw [fraction] at digits
      have digit := digits c List.mem_cons_self
      have rest := fun c member => digits c (List.mem_cons_of_mem _ member)
      have point : ((⟨n.whole, [], none⟩ : Numeral).read negative).step '.'
          = some { (⟨n.whole, [], none⟩ : Numeral).read negative with part := .point } := by
        apply NumberText.step_point
        by_cases zero : n.whole = ['0'] <;> simp [read, zero]
      simp only [fractionChars, fraction, List.cons_ne_nil, if_false, List.foldlM_cons, point,
        Option.bind_eq_bind, Option.bind_some]
      have first : ({ (⟨n.whole, [], none⟩ : Numeral).read negative with part := .point }
            : NumberText).step c
          = some { (⟨n.whole, [], none⟩ : Numeral).read negative with
              part := .fraction
              fractionDigits := [c.toNat - 48] } := by
        simp [NumberText.step, digit]
      rw [first, Option.bind_some, NumberText.steps_fraction rfl rest]
      simp [read]

/-- The scanner reads the exponent. -/
theorem Sound.steps_exponent (negative : Bool)
    : n.exponentChars.foldlM NumberText.step
        ((⟨n.whole, n.fraction, none⟩ : Numeral).read negative)
      = some (n.read negative) := by
  cases exponent : n.exponent with
  | none => simp [exponentChars, exponent, read]
  | some e =>
      have digits : ∀ c ∈ Nat.toDigits 10 e.natAbs, Text.isDigit c :=
        fun _ => Text.isDigit_of_mem_toDigits
      cases written : Nat.toDigits 10 e.natAbs with
      | nil => exact absurd written Nat.toDigits_ne_nil
      | cons c cs =>
          rw [written] at digits
          have digit := digits c List.mem_cons_self
          have rest := fun c member => digits c (List.mem_cons_of_mem _ member)
          obtain ⟨before, same⟩
              : ∃ before, before = (⟨n.whole, n.fraction, none⟩ : Numeral).read negative := ⟨_, rfl⟩
          rw [← same]
          have mark : before.step 'e' = some { before with part := .mark } := by
            apply NumberText.step_mark
            simp only [same, read]
            split_ifs <;> simp_all
          have sign : ({ before with part := .mark } : NumberText).step (if e < 0 then '-' else '+')
              = some { before with part := .markSign, exponentNegative := decide (e < 0) } := by
            have positive : before.exponentNegative = false := by simp [same, read]
            by_cases less : e < 0 <;> simp [NumberText.step, less, positive]
          have first : ({ before with part := .markSign, exponentNegative := decide (e < 0) }
                : NumberText).step c
              = some { before with
                  part := .exponent
                  exponentNegative := decide (e < 0)
                  exponentDigits := [c.toNat - 48] } := by
            simp [NumberText.step, digit]
          simp only [exponentChars, exponent, written, List.foldlM_cons, mark, sign, first,
            Option.bind_eq_bind, Option.bind_some]
          rw [NumberText.steps_exponent rfl rest]
          simp [same, read, exponent, written]

/-- The scanner reads a numeral. -/
theorem Sound.steps (sound : n.Sound) (negative : Bool)
    : n.chars.foldlM NumberText.step (.before negative) = some (n.read negative) := by
  rw [chars, List.foldlM_append, List.foldlM_append, sound.steps_whole, Option.bind_eq_bind,
    Option.bind_some, sound.steps_fraction, Option.bind_some, Sound.steps_exponent]

/-- A numeral may end a number. -/
theorem read_complete (n : Numeral) (negative : Bool) : (n.read negative).IsComplete := by
  simp only [NumberText.IsComplete, read]
  split_ifs <;> simp

/-- A numeral, perhaps behind a sign, is one word. -/
theorem Sound.scan (sound : n.Sound) (negative : Bool) {rest : List Char} (closes : Closes rest)
    : Json.scan .between ((if negative then ['-'] else []) ++ n.chars ++ rest)
      = .number (n.read negative).value :: Json.scan .between rest := by
  have word : Json.scan (.number (.before negative)) (n.chars ++ rest)
      = .number (n.read negative).value :: Json.scan .between rest := by
    rw [scan_steps (sound.steps negative), scan_complete (n.read_complete negative) closes]
  cases negative with
  | true =>
      rw [if_pos rfl, List.append_assoc, List.singleton_append, scan_minus, word]
  | false =>
      rw [if_neg (by decide), List.nil_append]
      obtain ⟨c, cs, whole⟩ := List.exists_cons_of_ne_nil sound.filled
      have digit : Text.isDigit c := sound.whole c (by simp [whole])
      simp only [chars, whole, List.cons_append] at word ⊢
      rw [scan_digit digit, word]

end Numeral

-----------------------------------------------------------------------------------------
-- What is read
-----------------------------------------------------------------------------------------

/-- The number that digits stand for, behind a number that was read before. -/
def continued (before : Nat) (ds : List Nat) : Nat := ds.foldl (fun n d => 10 * n + d) before

/-- Digits behind a number make it larger by powers of ten, by induction over them. -/
theorem le_continued (before : Nat) (ds : List Nat)
    : before * 10 ^ ds.length ≤ continued before ds := by
  induction ds generalizing before with
  | nil => simp [continued]
  | cons d ds ih =>
      calc before * 10 ^ (d :: ds).length = 10 * before * 10 ^ ds.length := by
            rw [List.length_cons, pow_succ]
            ring
        _ ≤ (10 * before + d) * 10 ^ ds.length := by gcongr; omega
        _ ≤ continued before (d :: ds) := ih _

/-- What is taken into a significand fits 64 bits and is no more than its digits stand for, by
induction over them.
-/
theorem absorb_spec {before : Nat} (fits : before < 2 ^ 64) (ds : List Nat)
    : (NumberText.absorb before ds).1 < 2 ^ 64
      ∧ (NumberText.absorb before ds).1 * 10 ^ (NumberText.absorb before ds).2.length
        ≤ continued before ds := by
  induction ds generalizing before with
  | nil => exact ⟨fits, by simp [NumberText.absorb, continued]⟩
  | cons d ds ih =>
      unfold NumberText.absorb
      split_ifs with more
      · have := ih more
        rwa [mul_comm before 10] at this ⊢
      · exact ⟨fits, le_continued before (d :: ds)⟩

/-- Digits are all taken into a significand when they fit 64 bits, by induction over them. -/
theorem absorb_eq {before : Nat} {ds : List Nat} (fits : continued before ds < 2 ^ 64)
    : NumberText.absorb before ds = (continued before ds, []) := by
  induction ds generalizing before with
  | nil => rfl
  | cons d ds ih =>
      have more : before * 10 + d < 18446744073709551616 := by
        calc before * 10 + d = (10 * before + d) * 1 := by ring
          _ ≤ (10 * before + d) * 10 ^ ds.length :=
            Nat.mul_le_mul_left _ (Nat.one_le_pow _ _ (by norm_num))
          _ ≤ continued before (d :: ds) := le_continued _ _
          _ < 18446744073709551616 := fits
      rw [NumberText.absorb, if_pos more, mul_comm before 10]
      exact ih fits

/-- Digits in writing stand for the number that is read from them. -/
theorem continued_map (before : Nat) (cs : List Char)
    : continued before (cs.map (·.toNat - 48)) = Nat.ofDigitChars 10 cs before := by
  rw [continued, List.foldl_map]
  rfl

namespace Numeral

/-- The exponent of a numeral is read from its digits and its sign. -/
theorem read_exponent (n : Numeral) (negative : Bool)
    : (if (n.read negative).exponentNegative
        then
          -(((n.read negative).exponentDigits.reverse.foldl (fun n d => n * 10 + d) 0 : Nat) : Int)
        else
          (((n.read negative).exponentDigits.reverse.foldl (fun n d => n * 10 + d) 0 : Nat) : Int))
      = n.exponent.getD 0 := by
  cases exponent : n.exponent with
  | none => simp [read, exponent]
  | some e =>
      have digits : (n.read negative).exponentDigits.reverse.foldl (fun n d => n * 10 + d) 0
          = e.natAbs := by
        have turned : (fun n d => n * 10 + d : Nat → Nat → Nat) = fun n d => 10 * n + d := by
          funext n d
          rw [mul_comm]
        rw [turned]
        change continued 0 _ = _
        simp only [read, exponent, Option.map_some, Option.getD_some, List.reverse_reverse]
        rw [continued_map, Nat.ofDigitChars_ten_toDigits]
      rw [digits]
      by_cases less : e < 0
      · simp [read, exponent, less, abs_of_neg less]
      · simp [read, exponent, less]
        omega

/-- The significand that is read from a numeral, and the digits that are left over. -/
def significand (n : Numeral) : Nat × List Nat :=
  NumberText.absorb (Nat.ofDigitChars 10 n.whole 0) (n.fraction.map (·.toNat - 48))

/-- The power of ten that is read from a numeral. -/
def scale (n : Numeral) : Int :=
  (n.significand.2.length : Int) - n.fraction.length + n.exponent.getD 0

/-- A numeral with a fraction or an exponent is read as a real number. -/
theorem value_read (n : Numeral) (negative : Bool)
    (fits : Nat.ofDigitChars 10 n.whole 0 < 2 ^ 64)
    (real : n.fraction ≠ [] ∨ n.exponent.isSome)
    : (n.read negative).value
      = (Magnitude.ofDecimal n.significand.1 n.scale).map fun m => .real ⟨negative, m⟩ := by
  have whole : NumberText.absorb 0 (n.read negative).wholeDigits.reverse
      = (Nat.ofDigitChars 10 n.whole 0, []) := by
    have all := continued_map 0 n.whole
    simp only [read, List.reverse_reverse]
    rw [absorb_eq (all ▸ fits), all]
  have part : ((n.read negative).part == .zero || (n.read negative).part == .whole) = false := by
    simp only [read]
    split_ifs <;> simp_all
  unfold NumberText.value
  rw [whole]
  simp only [part, Bool.and_false, Bool.false_eq_true, if_false, List.length_nil]
  rw [read_exponent]
  have fraction : (n.read negative).fractionDigits.reverse = n.fraction.map (·.toNat - 48) := by
    simp [read]
  have length : (n.read negative).fractionDigits.length = n.fraction.length := by simp [read]
  rw [fraction, length]
  change (Magnitude.ofDecimal n.significand.1 _).map _ = _
  congr 2
  unfold scale significand
  push_cast
  ring

/-- A numeral that stays below the finite limit, even if it is rounded up twice, is read. -/
theorem value_isSome (n : Numeral) (fits : Nat.ofDigitChars 10 n.whole 0 < 2 ^ 64)
    (below : n.value * (1 + 1 / 2 ^ 53) ^ 2 < Magnitude.limit)
    : (Magnitude.ofDecimal n.significand.1 n.scale).isSome := by
  have spec := absorb_spec fits (n.fraction.map (·.toNat - 48))
  rw [continued_map, ← Nat.ofDigitChars_append] at spec
  apply Magnitude.ofDecimal_isSome spec.1
  refine lt_of_le_of_lt ?_ below
  have read : (n.significand.1 * 10 ^ n.significand.2.length : ℚ)
      ≤ Nat.ofDigitChars 10 (n.whole ++ n.fraction) 0 := by exact_mod_cast spec.2
  gcongr
  calc (n.significand.1 : ℚ) * 10 ^ n.scale
      = n.significand.1 * 10 ^ n.significand.2.length
        * 10 ^ (n.exponent.getD 0 - (n.fraction.length : Int)) := by
        rw [mul_assoc, ← zpow_natCast, ← zpow_add₀ (by norm_num)]
        congr 2
        unfold scale
        ring
    _ ≤ n.value := by
        unfold value
        gcongr

-----------------------------------------------------------------------------------------
-- Decimals in writing
-----------------------------------------------------------------------------------------

/-- The decimal in the numeral in which it is written. -/
def ofDigits (d : Digits) : Numeral :=
  let ds := Nat.toDigits 10 d.digits
  let leading := d.exponent + (ds.length : Int) - 1
  if -5 ≤ leading ∧ leading ≤ 15 then
    if 0 ≤ d.exponent then ⟨ds ++ List.replicate d.exponent.toNat '0', ['0'], none⟩
    else if 0 ≤ leading then ⟨ds.take (leading.toNat + 1), ds.drop (leading.toNat + 1), none⟩
    else ⟨['0'], List.replicate ((-leading).toNat - 1) '0' ++ ds, none⟩
  else ⟨ds.take 1, ds.drop 1, some leading⟩

/-- A positive number is written without a zero at its front, by induction over its tenths. -/
theorem head_toDigits {k : Nat} (positive : 0 < k) : (Nat.toDigits 10 k).head? ≠ some '0' := by
  induction k using Nat.strong_induction_on with
  | _ k ih =>
      rw [Nat.toDigits_eq_if (by norm_num)]
      split_ifs with small
      · interval_cases k <;> decide
      · have more := ih (k / 10) (by omega) (by omega)
        rwa [List.head?_append_of_ne_nil _ Nat.toDigits_ne_nil]

/-- Digits stand for less than the power of ten that is one digit longer, by induction over
them.
-/
theorem ofDigitChars_lt {cs : List Char} (digits : ∀ c ∈ cs, Text.isDigit c)
    : Nat.ofDigitChars 10 cs 0 < 10 ^ cs.length := by
  induction cs with
  | nil => simp
  | cons c cs ih =>
      have rest := ih fun c member => digits c (List.mem_cons_of_mem _ member)
      have digit : c.toNat - 48 ≤ 9 := by
        have := mem_digits (digits c List.mem_cons_self)
        simp only [List.mem_cons, List.not_mem_nil, or_false] at this
        rcases this with rfl | rfl | rfl | rfl | rfl | rfl | rfl | rfl | rfl | rfl <;> decide
      rw [Nat.ofDigitChars_cons, Nat.ofDigitChars_eq_ofDigitChars_zero, List.length_cons, pow_succ]
      have : 10 ^ cs.length * (10 * 0 + (c.toNat - 48)) ≤ 10 ^ cs.length * 9 :=
        Nat.mul_le_mul_left _ (by omega)
      change 10 ^ cs.length * (10 * 0 + (c.toNat - 48)) + _ < _
      omega

/-- At most 16 digits fit 64 bits. -/
theorem fits_of_length {cs : List Char} (digits : ∀ c ∈ cs, Text.isDigit c)
    (short : cs.length ≤ 16)
    : Nat.ofDigitChars 10 cs 0 < 2 ^ 64 := by
  calc Nat.ofDigitChars 10 cs 0 < 10 ^ cs.length := ofDigitChars_lt digits
    _ ≤ 10 ^ 16 := Nat.pow_le_pow_right (by norm_num) short
    _ < 2 ^ 64 := by norm_num

/-- The text of a positive decimal is its numeral. -/
theorem toList_digits (d : Digits) : (realLayout.digits d).toList = (ofDigits d).chars := by
  have length : d.digits.repr.length = (Nat.toDigits 10 d.digits).length := by
    simp [← String.length_toList]
  unfold Layout.digits ofDigits
  simp only [Nat.toString_eq_repr, length, Nat.toList_repr, realLayout, Bool.and_eq_true,
    decide_eq_true_eq, List.splitAt_eq]
  by_cases positional : -5 ≤ d.exponent + (Nat.toDigits 10 d.digits).length - 1
      ∧ d.exponent + (Nat.toDigits 10 d.digits).length - 1 ≤ 15
  · rw [if_pos positional, if_pos positional]
    split_ifs with whole leading
    · simp [chars, fractionChars, exponentChars]
    · simp [chars, fractionChars, exponentChars]
      omega
    · simp [chars, fractionChars, exponentChars]
  · rw [if_neg positional, if_neg positional]
    generalize d.exponent + (Nat.toDigits 10 d.digits).length - 1 = leading
    have power
        : (if leading < 0 then "-" ++ (-leading).toNat.repr
          else "+" ++ leading.toNat.repr).toList
        = (if leading < 0 then '-' else '+') :: Nat.toDigits 10 leading.natAbs := by
      split_ifs with negative
      · rw [show leading.natAbs = (-leading).toNat by omega]
        simp
      · rw [show leading.natAbs = leading.toNat by omega]
        simp
    simp only [String.toList_append, power, chars, fractionChars, exponentChars, List.isEmpty_iff]
    split_ifs <;> simp

/-- A numeral stands for a decimal when its digits, without some last zeros, are those of the
decimal.
-/
theorem value_eq {n : Numeral} {d : Digits} (z : Nat)
    (digits : Nat.ofDigitChars 10 (n.whole ++ n.fraction) 0 = 10 ^ z * d.digits)
    (exponent : n.exponent.getD 0 - (n.fraction.length : Int) + z = d.exponent)
    : n.value = d.value := by
  rw [value, Digits.value, digits, ← exponent, zpow_add₀ (by norm_num : (10 : ℚ) ≠ 0), zpow_natCast]
  push_cast
  ring

/-- The digits of a positive number are a sound numeral, wherever the point cuts them. -/
theorem sound_cut {k : Nat} (positive : 0 < k) (before : Nat) (exponent : Option Int)
    : Sound ⟨(Nat.toDigits 10 k).take (before + 1), (Nat.toDigits 10 k).drop (before + 1),
        exponent⟩ := by
  have digits : ∀ c ∈ Nat.toDigits 10 k, Text.isDigit c := fun _ => Text.isDigit_of_mem_toDigits
  refine ⟨?_, fun c member => digits c (List.mem_of_mem_take member),
    fun c member => digits c (List.mem_of_mem_drop member), ?_⟩
  · simp [Nat.toDigits_ne_nil]
  · intro zero
    rw [List.head?_take, if_neg (Nat.succ_ne_zero before)] at zero
    exact absurd zero (head_toDigits positive)

/-- The digits of a decimal, cut by a point, stand for it when the exponent makes up for the
point.
-/
theorem value_cut {d : Digits} {before : Nat} {exponent : Option Int}
    (scale : exponent.getD 0 - (((Nat.toDigits 10 d.digits).length - before : Nat) : Int)
      = d.exponent)
    : (⟨(Nat.toDigits 10 d.digits).take before, (Nat.toDigits 10 d.digits).drop before,
        exponent⟩ : Numeral).value = d.value := by
  apply value_eq 0
  · rw [List.take_append_drop, Nat.ofDigitChars_ten_toDigits, pow_zero, one_mul]
  · rw [List.length_drop]
    simpa using scale

/-- Zeros beside the digits of a number leave them digits. -/
theorem isDigit_padded {k zeros : Nat} {c : Char}
    (member : c ∈ List.replicate zeros '0' ∨ c ∈ Nat.toDigits 10 k)
    : Text.isDigit c := by
  rcases member with zero | digit
  · rw [List.eq_of_mem_replicate zero]
    decide
  · exact Text.isDigit_of_mem_toDigits digit

/-- A positive decimal is written in a sound numeral for the same number, whose digits before
the point fit 64 bits and which is not a whole number.
-/
theorem ofDigits_spec {d : Digits} (positive : 0 < d.digits)
    : (ofDigits d).Sound
      ∧ (ofDigits d).value = d.value
      ∧ Nat.ofDigitChars 10 (ofDigits d).whole 0 < 2 ^ 64
      ∧ ((ofDigits d).fraction ≠ [] ∨ (ofDigits d).exponent.isSome) := by
  have filled : Nat.toDigits 10 d.digits ≠ [] := Nat.toDigits_ne_nil
  have length : 0 < (Nat.toDigits 10 d.digits).length := Nat.length_toDigits_pos
  have same : Nat.ofDigitChars 10 (Nat.toDigits 10 d.digits) 0 = d.digits :=
    Nat.ofDigitChars_ten_toDigits
  unfold ofDigits
  simp only
  split_ifs with positional whole leading
  · have zeros : ∀ c ∈ Nat.toDigits 10 d.digits ++ List.replicate d.exponent.toNat '0',
        Text.isDigit c :=
      fun c member => isDigit_padded (List.mem_append.mp member).symm
    refine ⟨⟨by simp [filled], zeros, by simp; decide, ?_⟩, ?_, fits_of_length zeros ?_,
      Or.inl (by simp)⟩
    · intro zero
      rw [List.head?_append_of_ne_nil _ filled] at zero
      exact absurd zero (head_toDigits positive)
    · apply value_eq (d.exponent.toNat + 1)
      · simp only [Nat.ofDigitChars_append, same, Nat.ofDigitChars_replicate_zero]
        rw [pow_succ]
        simp [Nat.ofDigitChars_cons]
        ring
      · simp
        omega
    · simp only [List.length_append, List.length_replicate]
      omega
  · have sound := sound_cut positive
      (d.exponent + (Nat.toDigits 10 d.digits).length - 1).toNat none
    refine ⟨sound, value_cut ?_, fits_of_length sound.whole ?_, Or.inl ?_⟩
    · rw [Option.getD_none]
      omega
    · rw [List.length_take]
      omega
    · rw [ne_eq, List.drop_eq_nil_iff]
      omega
  · refine ⟨⟨by simp, by simp; decide, fun c member => isDigit_padded (List.mem_append.mp member),
      fun _ => rfl⟩, ?_, ?_, Or.inl (by simp [filled])⟩
    · apply value_eq 0
      · simp [Nat.ofDigitChars_append, Nat.ofDigitChars_cons, same]
      · simp only [Option.getD_none, List.length_append, List.length_replicate]
        omega
    · norm_num [Nat.ofDigitChars_cons]
  · have sound := sound_cut positive 0
      (some (d.exponent + (Nat.toDigits 10 d.digits).length - 1))
    refine ⟨sound, value_cut ?_, fits_of_length sound.whole ?_, Or.inr rfl⟩
    · rw [Option.getD_some]
      omega
    · rw [List.length_take]
      omega

/-- The magnitude of a number in the numeral in which it is written. -/
def ofMagnitude (a : Magnitude) : Numeral :=
  if a.isZero then ⟨['0'], ['0'], none⟩ else ofDigits a.shortest

/-- A finite magnitude is written in a sound numeral that is read again. -/
theorem ofMagnitude_spec {a : Magnitude} (finite : a.Finite)
    : (ofMagnitude a).Sound
      ∧ Nat.ofDigitChars 10 (ofMagnitude a).whole 0 < 2 ^ 64
      ∧ ((ofMagnitude a).fraction ≠ [] ∨ (ofMagnitude a).exponent.isSome)
      ∧ (Magnitude.ofDecimal (ofMagnitude a).significand.1 (ofMagnitude a).scale).isSome := by
  unfold ofMagnitude
  split_ifs with zero
  · refine ⟨⟨by simp, by simp; decide, by simp; decide, fun _ => rfl⟩, ?_, Or.inl (by simp), ?_⟩
    all_goals decide +kernel
  · have positive : 0 < a.mantissa := by
      rw [Magnitude.isZero, beq_iff_eq] at zero
      exact Nat.pos_of_ne_zero zero
    obtain ⟨sound, value, fits, real⟩ := ofDigits_spec (Magnitude.shortest_spec positive).1
    refine ⟨sound, fits, real, ?_⟩
    by_cases small : a.exponent = Magnitude.mostExponent → a.mantissa ≤ 9007199254740989
    · apply value_isSome _ fits
      rw [value]
      exact Magnitude.shortest_below_limit finite positive small
    · -- the bound is too coarse for the two largest magnitudes
      push Not at small
      obtain ⟨exponent, large⟩ := small
      have fits : a.mantissa < 9007199254740992 := finite.fits
      obtain ⟨mantissa, _⟩ := a
      obtain rfl : _ = Magnitude.mostExponent := exponent
      have two : mantissa = 9007199254740991 ∨ mantissa = 9007199254740990 := by
        simp only at large fits
        omega
      rcases two with rfl | rfl <;> decide +kernel

end Numeral

-----------------------------------------------------------------------------------------
-- Numbers
-----------------------------------------------------------------------------------------

namespace Number

/-- The numbers that a text can hold: whole ones of 64 bits, and finite ones. -/
def Proper : Number → Prop
  | .whole n => -2 ^ 63 ≤ n ∧ n < 2 ^ 64
  | .real x => x.magnitude.Finite

/-- The number that the text of a number is read as. Whole numbers come back as they are; the
reader does not always find the nearest real number.
-/
def reread : Number → Number
  | .whole n => .whole n
  | .real x =>
      match tokens (Number.real x).text with
      | [.number (some n)] => n
      | _ => .real x

/-- The characters of a whole number are a numeral behind its sign. -/
theorem toList_whole (n : Int)
    : (Number.whole n).text.toList
      = (if decide (n < 0) then ['-'] else [])
        ++ (⟨Nat.toDigits 10 n.natAbs, [], none⟩ : Numeral).chars := by
  change n.repr.toList = _
  rw [Int.repr_eq_if]
  by_cases negative : n < 0
  · rw [if_neg (by omega), show n.natAbs = (-n).toNat by omega]
    simp [negative, Numeral.chars, Numeral.fractionChars, Numeral.exponentChars]
  · rw [if_pos (by omega), show n.natAbs = n.toNat by omega]
    simp [negative, Numeral.chars, Numeral.fractionChars, Numeral.exponentChars]

/-- The characters of a real number are a numeral behind its sign. -/
theorem toList_real (x : Binary64)
    : (Number.real x).text.toList
      = (if x.negative then ['-'] else []) ++ (Numeral.ofMagnitude x.magnitude).chars := by
  have sign : (if x.negative then "-" else "").toList = if x.negative then ['-'] else [] := by
    split_ifs <;> rfl
  unfold Number.text Layout.number Numeral.ofMagnitude
  by_cases zero : x.magnitude.isZero
  · simp only [if_pos zero]
    rw [String.toList_append, String.toList_append, sign, List.append_assoc]
    rfl
  · simp only [if_neg zero]
    rw [String.toList_append, sign, Numeral.toList_digits]

/-- The text of a whole number is read as that number. -/
theorem scan_whole {n : Int} (proper : (Number.whole n).Proper) {rest : List Char}
    (closes : Closes rest)
    : scan .between ((Number.whole n).text.toList ++ rest)
      = .number (some (.whole n)) :: scan .between rest := by
  obtain ⟨low, high⟩ := proper
  let numeral : Numeral := ⟨Nat.toDigits 10 n.natAbs, [], none⟩
  have sound : numeral.Sound := by
    refine ⟨Nat.toDigits_ne_nil, fun c member => Text.isDigit_of_mem_toDigits member,
      by simp [numeral], ?_⟩
    intro zero
    rcases Nat.eq_zero_or_pos n.natAbs with none' | positive
    · simp [numeral, none']
    · exact absurd zero (Numeral.head_toDigits positive)
  have whole : NumberText.absorb 0 (numeral.read (decide (n < 0))).wholeDigits.reverse
      = (n.natAbs, []) := by
    have all := continued_map 0 numeral.whole
    rw [Nat.ofDigitChars_ten_toDigits] at all
    simp only [Numeral.read, List.reverse_reverse]
    rw [absorb_eq (by rw [all]; omega), all]
  have part : (numeral.read (decide (n < 0))).part = .zero
      ∨ (numeral.read (decide (n < 0))).part = .whole := by
    simp only [Numeral.read, numeral]
    split_ifs <;> simp_all
  have isWhole : ((numeral.read (decide (n < 0))).part == .zero
      || (numeral.read (decide (n < 0))).part == .whole) = true := by
    rcases part with part | part <;> rw [part] <;> rfl
  have value : (numeral.read (decide (n < 0))).value = some (.whole n) := by
    unfold NumberText.value
    rw [whole]
    simp only [isWhole, List.isEmpty_nil, Bool.and_self, if_true]
    by_cases negative : n < 0
    · have some' : (n.natAbs != 0 && decide (n.natAbs ≤ 9223372036854775808)) = true := by
        simp only [Bool.and_eq_true, bne_iff_ne, decide_eq_true_eq]
        omega
      simp [Numeral.read, negative, some', abs_of_neg negative]
    · have same : (n.natAbs : Int) = n := by omega
      simp [Numeral.read, negative, same]
  rw [toList_whole, sound.scan _ closes, value]

/-- The text of a finite number is read as a finite number of the same sign. -/
theorem scan_real {x : Binary64} (proper : (Number.real x).Proper)
    : ∃ y : Binary64,
        (Number.real y).Proper
        ∧ y.negative = x.negative
        ∧ ∀ rest,
            Closes rest
            → scan .between ((Number.real x).text.toList ++ rest)
              = .number (some (.real y)) :: scan .between rest := by
  obtain ⟨sound, fits, real, read⟩ := Numeral.ofMagnitude_spec proper
  obtain ⟨magnitude, found⟩ := Option.isSome_iff_exists.mp read
  refine ⟨⟨x.negative, magnitude⟩, Magnitude.ofDecimal_finite found, rfl, fun rest closes => ?_⟩
  rw [toList_real, sound.scan _ closes, Numeral.value_read _ _ fits real, found]
  rfl

/-- The text of a finite number alone is read as a finite number of the same sign. -/
theorem reread_real {x : Binary64} (proper : (Number.real x).Proper)
    : ∃ y : Binary64,
        (Number.real y).Proper
        ∧ y.negative = x.negative
        ∧ (Number.real x).reread = .real y
        ∧ ∀ rest,
            Closes rest
            → scan .between ((Number.real x).text.toList ++ rest)
              = .number (some (.real y)) :: scan .between rest := by
  obtain ⟨y, finite, sign, read⟩ := scan_real proper
  have alone : tokens (Number.real x).text = [.number (some (.real y))] := by
    have word := read [] (by simp [Closes])
    rw [List.append_nil] at word
    simpa [tokens, scan, Scan.finish] using word
  exact ⟨y, finite, sign, by rw [reread, alone], read⟩

/-- What a proper number reads back as is proper. -/
theorem Proper.reread {n : Number} (proper : n.Proper) : n.reread.Proper := by
  cases n with
  | whole n => exact proper
  | real x =>
      obtain ⟨y, finite, _, same, _⟩ := reread_real proper
      rw [same]
      exact finite

/-- The text of a number is read as that number, up to the reading of real numbers. -/
theorem scan_text {n : Number} (proper : n.Proper) {rest : List Char} (closes : Closes rest)
    : scan .between (n.text.toList ++ rest) = .number (some n.reread) :: scan .between rest := by
  cases n with
  | whole n => exact scan_whole proper closes
  | real x =>
      obtain ⟨y, _, _, same, read⟩ := reread_real proper
      rw [same, read rest closes]

/-- Numbers that are read are proper. -/
theorem proper_of_value {t : NumberText} {n : Number} (found : t.value = some n) : n.Proper := by
  have fits := (absorb_spec (show 0 < 2 ^ 64 by norm_num) t.wholeDigits.reverse).1
  unfold NumberText.value at found
  generalize NumberText.absorb 0 t.wholeDigits.reverse = taken at fits found
  obtain ⟨significand, left⟩ := taken
  simp only at fits found
  split_ifs at found with whole positive small
  · obtain rfl := Option.some.inj found
    exact ⟨by omega, by exact_mod_cast fits⟩
  · obtain rfl := Option.some.inj found
    simp only [Bool.and_eq_true, bne_iff_ne, decide_eq_true_eq] at small
    exact ⟨by omega, by omega⟩
  · obtain ⟨magnitude, nearest, rfl⟩ := Option.map_eq_some_iff.mp found
    exact (Magnitude.nearest_rounds Nat.one_pos nearest).toFinite
  all_goals
    obtain ⟨magnitude, read, rfl⟩ := Option.map_eq_some_iff.mp found
    exact Magnitude.ofDecimal_finite read

end Number

end Harvest.Json
