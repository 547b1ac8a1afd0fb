import Harvest.Proofs.Text.Digits
import Harvest.Proofs.Time.Calendar
import Harvest.Time.Column

/-! Instants in writing. An instant of a year of four digits is read back from its text, and such
texts are in the order of time.
-/

namespace Harvest.Time

open Text

-----------------------------------------------------------------------------------------
-- Faces
-----------------------------------------------------------------------------------------

/-- An instant that has a text of its own: its year has four digits, and leap seconds follow the
last second of a minute.
-/
structure Instant.IsProper (a : Instant) : Prop where
  year_nonneg : 0 ≤ a.date.year
  year_le : a.date.year ≤ 9999
  second_lt : a.second < 86400
  nanos_lt : a.nanos < 2000000000
  leap : 1000000000 ≤ a.nanos → a.second % 60 = 59

instance (a : Instant) : Decidable a.IsProper :=
  decidable_of_iff
    (0 ≤ a.date.year ∧ a.date.year ≤ 9999 ∧ a.second < 86400 ∧ a.nanos < 2000000000
      ∧ (1000000000 ≤ a.nanos → a.second % 60 = 59))
    ⟨fun ⟨nonneg, year, second, nanos, leap⟩ => ⟨nonneg, year, second, nanos, leap⟩,
      fun ⟨nonneg, year, second, nanos, leap⟩ => ⟨nonneg, year, second, nanos, leap⟩⟩

/-- What the text of an instant shows. -/
structure Face where
  year : Nat
  month : Nat
  day : Nat
  hour : Nat
  minute : Nat
  second : Nat
  nanos : Nat

/-- What the text of an instant shows; a leap second is the sixtieth of its minute. -/
def Instant.face (a : Instant) : Face where
  year := a.date.year.toNat
  month := a.date.month
  day := a.date.day
  hour := a.second / 3600
  minute := a.second / 60 % 60
  second := a.second % 60 + a.nanos / 1000000000
  nanos := a.nanos % 1000000000

/-- The face has as many digits as a text has places for. -/
structure Face.Fits (f : Face) : Prop where
  year : f.year < 10 ^ 4
  month : f.month < 10 ^ 2
  day : f.day < 10 ^ 2
  hour : f.hour < 10 ^ 2
  minute : f.minute < 10 ^ 2
  second : f.second < 10 ^ 2
  nanos : f.nanos < 10 ^ 9

theorem Instant.IsProper.fits {a : Instant} (proper : a.IsProper) : a.face.Fits := by
  have valid := Date.isValid_ofDays a.day
  have day : daysInMonth (Date.ofDays a.day).year (Date.ofDays a.day).month ≤ 31 := by
    unfold daysInMonth
    split_ifs <;> decide
  obtain ⟨_, month, _, within⟩ := valid
  obtain ⟨_, year, second, nanos, _⟩ := proper
  constructor
  all_goals simp only [face, Instant.date] at *; omega

/-- The digits of a fraction in the fewest groups of three that hold it. -/
def fractionDigits (nanos : Nat) : List Char :=
  if nanos % 1000000 = 0 then inDecimal 3 (nanos / 1000000)
  else if nanos % 1000 = 0 then inDecimal 6 (nanos / 1000)
  else inDecimal 9 nanos

/-- The characters of a fraction, behind its point if there is one. -/
def fractionChars (nanos : Nat) : List Char :=
  if nanos = 0 then [] else '.' :: fractionDigits nanos

/-- The mark of universal time in a column. -/
def zone : List Char := ['+', '0', '0', ':', '0', '0']

/-- The characters of a date. -/
def Face.dateChars (f : Face) (rest : List Char) : List Char :=
  inDecimal 4 f.year ++ '-' :: (inDecimal 2 f.month ++ '-' :: (inDecimal 2 f.day ++ rest))

/-- The characters of a clock up to the minute. -/
def Face.hourChars (f : Face) (rest : List Char) : List Char :=
  inDecimal 2 f.hour ++ ':' :: (inDecimal 2 f.minute ++ rest)

/-- The characters of a second and its fraction. -/
def Face.secondChars (f : Face) (rest : List Char) : List Char :=
  ':' :: (inDecimal 2 f.second ++ (fractionChars f.nanos ++ rest))

/-- The characters of an instant in a column. -/
def Face.chars (f : Face) : List Char :=
  f.dateChars ('T' :: f.hourChars (f.secondChars zone))

/-- A fraction is written in some of nine digits, and the others are zeros. -/
theorem fractionDigits_spec (nanos : Nat)
    : ∃ width zeros whole,
        0 < width ∧ width + zeros = 9 ∧ nanos = whole * 10 ^ zeros
        ∧ fractionDigits nanos = inDecimal width whole := by
  unfold fractionDigits
  split
  · exact ⟨3, 6, nanos / 1000000, by decide, rfl, by omega, rfl⟩
  · split
    · exact ⟨6, 3, nanos / 1000, by decide, rfl, by omega, rfl⟩
    · exact ⟨9, 0, nanos, by decide, rfl, by omega, rfl⟩

theorem toList_fractionText {nanos : Nat} (fits : nanos < 10 ^ 9)
    : (fractionText nanos).toList = fractionChars nanos := by
  unfold fractionText fractionChars fractionDigits
  simp only [beq_iff_eq]
  split_ifs
  · rfl
  · rw [String.toList_append, toList_padded (by decide) (by omega)]
    rfl
  · rw [String.toList_append, toList_padded (by decide) (by omega)]
    rfl
  · rw [String.toList_append, toList_padded (by decide) fits]
    rfl

/-- The date of a proper instant in writing. -/
theorem toList_dateText {a : Instant} (proper : a.IsProper)
    : a.dateText.toList = a.face.dateChars [] := by
  have fits := proper.fits
  have year : yearText a.date.year = padded 4 a.face.year := by
    rw [yearText, if_neg (by have := proper.year_nonneg; omega),
      if_neg (by have := proper.year_le; omega)]
    rfl
  have month : (padded 2 a.date.month).toList = inDecimal 2 a.face.month :=
    toList_padded (by decide) fits.month
  have day : (padded 2 a.date.day).toList = inDecimal 2 a.face.day :=
    toList_padded (by decide) fits.day
  have hyphen : "-".toList = ['-'] := rfl
  simp only [Instant.dateText, String.toList_append, year,
    toList_padded (by decide : 0 < 4) fits.year, month, day, hyphen]
  simp [Face.dateChars]

/-- The hour, minute and second of a proper instant in writing. -/
theorem toList_clockText {a : Instant} (proper : a.IsProper) (between : String)
    : (a.clockText between).toList
      = inDecimal 2 a.face.hour
        ++ (between.toList
          ++ (inDecimal 2 a.face.minute ++ (between.toList ++ inDecimal 2 a.face.second))) := by
  have fits := proper.fits
  have two {n : Nat} (small : n < 10 ^ 2) : (padded 2 n).toList = inDecimal 2 n :=
    toList_padded (by decide) small
  have hour : (padded 2 (a.second / 3600)).toList = inDecimal 2 a.face.hour := two fits.hour
  have minute : (padded 2 (a.second / 60 % 60)).toList = inDecimal 2 a.face.minute :=
    two fits.minute
  have second : (padded 2 (a.second % 60 + a.nanos / 1000000000)).toList
      = inDecimal 2 a.face.second := two fits.second
  simp only [Instant.clockText, String.toList_append, hour, minute, second, List.append_assoc]

/-- The text of a proper instant shows its face. -/
theorem toList_textWith {a : Instant} (proper : a.IsProper)
    : (a.textWith "+00:00").toList = a.face.chars := by
  have colon : ":".toList = [':'] := rfl
  have letter : "T".toList = ['T'] := rfl
  have mark : "+00:00".toList = zone := rfl
  have fraction : (fractionText (a.nanos % 1000000000)).toList = fractionChars a.face.nanos :=
    toList_fractionText proper.fits.nanos
  simp only [Instant.textWith, String.toList_append, toList_dateText proper,
    toList_clockText proper, fraction, colon, letter, mark]
  simp [Face.chars, Face.dateChars, Face.hourChars, Face.secondChars]

-----------------------------------------------------------------------------------------
-- The order of instants
-----------------------------------------------------------------------------------------

namespace Instant

theorem before_or_eq_or_before (a b : Instant) : a.before b ∨ a = b ∨ b.before a := by
  obtain ⟨day, second, nanos⟩ := a
  obtain ⟨day', second', nanos'⟩ := b
  simp only [before, mk.injEq, Bool.or_eq_true, Bool.and_eq_true, decide_eq_true_eq, beq_iff_eq]
  omega

theorem before_asymm {a b : Instant} (first : a.before b) : b.before a = false := by
  refine eq_false_of_ne_true fun second => ?_
  simp only [before, Bool.or_eq_true, Bool.and_eq_true, decide_eq_true_eq, beq_iff_eq]
    at first second
  omega

theorem before_irrefl (a : Instant) : a.before a = false := by
  simp [before]

/-- To be before an instant, or to be it and meet a condition, is to be up to it and to meet the
condition if it is not later, by cases on which comes first.
-/
theorem before_or_beq_and (a b : Instant) (condition : Bool)
    : (a.before b || (a == b && condition))
      = if a.upTo b then if b.upTo a then condition else true else false := by
  unfold upTo
  rcases before_or_eq_or_before a b with first | rfl | second
  · simp [first, before_asymm first]
  · simp [before_irrefl]
  · have apart : a ≠ b := by
      rintro rfl
      exact absurd second (by simp [before_irrefl])
    simp [second, before_asymm second, apart]

theorem upTo_trans {a b c : Instant} (first : a.upTo b) (second : b.upTo c)
    : a.upTo c := by
  simp only [upTo, before, Bool.not_eq_true', Bool.or_eq_false_iff, Bool.and_eq_false_iff,
    decide_eq_false_iff_not, beq_eq_false_iff_ne] at *
  omega

theorem upTo_total (a b : Instant) : a.upTo b || b.upTo a := by
  rcases before_or_eq_or_before a b with first | rfl | second
  · simp [upTo, before_asymm first]
  · simp [upTo, before_irrefl]
  · simp [upTo, before_asymm second]

end Instant

-----------------------------------------------------------------------------------------
-- The order of texts
-----------------------------------------------------------------------------------------

/-- The first face comes before the second. -/
def Face.Before (f g : Face) : Prop :=
  f.year < g.year ∨ f.year = g.year
  ∧ (f.month < g.month ∨ f.month = g.month
    ∧ (f.day < g.day ∨ f.day = g.day
      ∧ (f.hour < g.hour ∨ f.hour = g.hour
        ∧ (f.minute < g.minute ∨ f.minute = g.minute
          ∧ (f.second < g.second ∨ f.second = g.second ∧ f.nanos < g.nanos)))))

/-- A smaller fraction has a smaller text, for the zone begins with a mark that comes before the
point and all digits.
-/
theorem codes_fraction_lt {m n : Nat} (less : m < n) (fits : n < 10 ^ 9)
    : codes (fractionChars m ++ zone) < codes (fractionChars n ++ zone) := by
  have later : fractionChars n = '.' :: fractionDigits n := if_neg (by omega)
  rw [later]
  by_cases none : m = 0
  · subst none
    exact List.cons_lt_cons_iff.mpr (Or.inl (by decide))
  · have point : fractionChars m = '.' :: fractionDigits m := if_neg none
    rw [point, List.cons_append, List.cons_append, codes_cons_lt_iff]
    obtain ⟨width, zeros, whole, _, nine, same, digits⟩ := fractionDigits_spec m
    obtain ⟨width', zeros', whole', _, nine', same', digits'⟩ := fractionDigits_spec n
    have filled (width zeros whole : Nat) (nine : width + zeros = 9)
        : codes (inDecimal 9 (whole * 10 ^ zeros))
          = codes (inDecimal width whole) ++ List.replicate zeros ('0').toNat := by
      rw [← nine, inDecimal, inDigits_mul_pow (by decide), codes, List.map_append,
        List.map_replicate]
      rfl
    have floor {width whole : Nat} : ∀ c ∈ codes (inDecimal width whole), ('0').toNat ≤ c := by
      intro c member
      obtain ⟨digit, here, rfl⟩ := List.mem_map.mp member
      have isDigit := isDigit_of_mem_inDecimal here
      simp only [Text.isDigit, Bool.and_eq_true, decide_eq_true_eq] at isDigit
      exact isDigit.1
    have whole_lt := codes_inDigits_lt digitChar_lt less fits
    rw [same, same', filled _ _ _ nine, filled _ _ _ nine'] at whole_lt
    rw [digits, digits']
    have split (digits : List Char) : codes (digits ++ zone)
        = codes digits ++ ('+').toNat :: codes zone.tail := List.map_append
    rw [split, split]
    refine lt_of_append_replicate_lt (by decide) floor floor ?_ whole_lt _ _
    simp [codes, nine, nine']

theorem codes_fraction_lt_iff {m n : Nat} (fitsM : m < 10 ^ 9) (fitsN : n < 10 ^ 9)
    : codes (fractionChars m ++ zone) < codes (fractionChars n ++ zone) ↔ m < n := by
  rcases Nat.lt_trichotomy m n with less | same | more
  · exact iff_of_true (codes_fraction_lt less fitsN) less
  · subst same
    exact iff_of_false (List.lt_irrefl _) (Nat.lt_irrefl _)
  · exact iff_of_false (List.lt_asymm (codes_fraction_lt more fitsM)) (Nat.lt_asymm more)

/-- Texts are in the order of their faces. -/
theorem codes_chars_lt_iff {f g : Face} (fitsF : f.Fits) (fitsG : g.Fits)
    : codes f.chars < codes g.chars ↔ f.Before g := by
  unfold Face.chars Face.dateChars Face.hourChars Face.secondChars Face.Before
  rw [codes_inDigits_append_lt_iff digitChar_lt fitsF.year fitsG.year, codes_cons_lt_iff,
    codes_inDigits_append_lt_iff digitChar_lt fitsF.month fitsG.month, codes_cons_lt_iff,
    codes_inDigits_append_lt_iff digitChar_lt fitsF.day fitsG.day, codes_cons_lt_iff,
    codes_inDigits_append_lt_iff digitChar_lt fitsF.hour fitsG.hour, codes_cons_lt_iff,
    codes_inDigits_append_lt_iff digitChar_lt fitsF.minute fitsG.minute, codes_cons_lt_iff,
    codes_inDigits_append_lt_iff digitChar_lt fitsF.second fitsG.second,
    codes_fraction_lt_iff fitsF.nanos fitsG.nanos]

theorem Face.Before.asymm {f g : Face} (before : f.Before g) : ¬ g.Before f := by
  unfold Before at *
  omega

/-- Faces of earlier days come first, for the dates do. -/
theorem face_before_of_day_lt {a b : Instant} (properA : a.IsProper) (properB : b.IsProper)
    (less : a.day < b.day)
    : a.face.Before b.face := by
  have dates : a.date.Before b.date := Date.ofDays_before less
  have nonnegA := properA.year_nonneg
  have nonnegB := properB.year_nonneg
  unfold Date.Before at dates
  simp only [Face.Before, Instant.face]
  omega

/-- Faces of one day are in the order of the clock. -/
theorem face_before_iff_of_day_eq {a b : Instant} (properA : a.IsProper) (properB : b.IsProper)
    (same : a.day = b.day)
    : a.face.Before b.face ↔ a.second < b.second ∨ a.second = b.second ∧ a.nanos < b.nanos := by
  have dates : a.date = b.date := congrArg Date.ofDays same
  obtain ⟨_, _, _, nanosA, leapA⟩ := properA
  obtain ⟨_, _, _, nanosB, leapB⟩ := properB
  simp only [Face.Before, Instant.face, dates, Nat.lt_irrefl, false_or, true_and]
  omega

/-- Faces are in the order of their instants: days decide by their dates, and on one day the clock
decides.
-/
theorem face_before_iff {a b : Instant} (properA : a.IsProper) (properB : b.IsProper)
    : a.face.Before b.face ↔ a.before b := by
  simp only [Instant.before, Bool.or_eq_true, Bool.and_eq_true, decide_eq_true_eq, beq_iff_eq]
  rcases Int.lt_trichotomy a.day b.day with less | same | more
  · exact iff_of_true (face_before_of_day_lt properA properB less) (Or.inl less)
  · rw [face_before_iff_of_day_eq properA properB same]
    simp [same]
  · refine iff_of_false (face_before_of_day_lt properB properA more).asymm ?_
    omega
/-- Texts of proper instants are ordered as the instants. -/
theorem before_textWith {a b : Instant} (properA : a.IsProper) (properB : b.IsProper)
    : Text.before (a.textWith "+00:00") (b.textWith "+00:00") = a.before b := by
  refine Bool.eq_iff_iff.mpr ?_
  rw [← face_before_iff properA properB, ← codes_chars_lt_iff properA.fits properB.fits,
    Text.before, decide_eq_true_eq, toList_textWith properA, toList_textWith properB]
  rfl

-----------------------------------------------------------------------------------------
-- Reading
-----------------------------------------------------------------------------------------

/-- A number in some digits begins with one. -/
theorem exists_inDecimal {width : Nat} (positive : 0 < width) (n : Nat)
    : ∃ c cs, inDecimal width n = c :: cs ∧ Text.isDigit c := by
  cases written : inDecimal width n with
  | nil =>
      have length : (inDecimal width n).length = width := length_inDigits 10 Nat.digitChar width n
      rw [written, List.length_nil] at length
      omega
  | cons c cs => exact ⟨c, cs, rfl, isDigit_of_mem_inDecimal (written ▸ List.mem_cons_self)⟩

/-- No blanks stand before digits. -/
theorem trimLeft_inDecimal {width : Nat} (positive : 0 < width) (n : Nat) (rest : List Char)
    : Text.trimLeft (inDecimal width n ++ rest) = inDecimal width n ++ rest := by
  obtain ⟨c, cs, same, digit⟩ := exists_inDecimal positive n
  rw [same]
  exact List.dropWhile_cons_of_neg (by simp [not_isBlank_of_isDigit digit])

/-- A number is read from its digits, up to what follows them. -/
theorem digits_inDecimal {most width n : Nat} {rest : List Char} (positive : 0 < width)
    (within : width ≤ most) (few : width ≤ 18) (fits : n < 10 ^ width)
    (ends : (rest.take (most - width)).takeWhile Text.isDigit = [])
    : digits most (inDecimal width n ++ rest) = .ok (n, rest) := by
  have run : ((inDecimal width n ++ rest).take most).takeWhile Text.isDigit
      = inDecimal width n := by
    rw [List.take_append, List.take_of_length_le (by rw [length_inDigits]; exact within),
      length_inDigits, List.takeWhile_append_of_pos fun c member => isDigit_of_mem_inDecimal member,
      ends, List.append_nil]
  have small : ¬ maxSigned < n := by
    have most : 10 ^ width ≤ 10 ^ 18 := Nat.pow_le_pow_right (by decide) few
    unfold maxSigned
    omega
  have behind : (inDecimal width n ++ rest).drop (inDecimal width n).length = rest :=
    List.drop_left
  obtain ⟨c, cs, same, _⟩ := exists_inDecimal positive n
  have value := decimal_inDecimal fits
  rw [same] at run behind value ⊢
  simp only [List.cons_append, digits] at run behind ⊢
  rw [run, value, if_neg (by simp), if_neg small, behind]
  rfl

/-- A number of two digits is read when it is within the bounds. -/
theorem bounded_inDecimal {lo hi n : Nat} (least : lo ≤ n) (largest : n ≤ hi) (two : hi < 10 ^ 2)
    (rest : List Char)
    : bounded 2 lo hi (inDecimal 2 n ++ rest) = .ok (n, rest) := by
  have inside : ¬ (decide (n < lo) || decide (hi < n)) = true := by
    rw [Bool.or_eq_true, decide_eq_true_eq, decide_eq_true_eq]
    omega
  have fits : n < 10 ^ 2 := Nat.lt_of_le_of_lt largest two
  rw [bounded, trimLeft_inDecimal (by decide),
    digits_inDecimal (by decide) (Nat.le_refl 2) (by decide) fits rfl]
  exact if_neg inside

/-- A year of four digits is read. -/
theorem year_inDecimal {n : Nat} (fits : n < 10 ^ 4) (rest : List Char)
    : year (inDecimal 4 n ++ rest) = .ok ((n : Int), rest) := by
  obtain ⟨c, cs, same, digit⟩ := exists_inDecimal (by decide : 0 < 4) n
  have read : digits 4 (inDecimal 4 n ++ rest) = .ok (n, rest) :=
    digits_inDecimal (by decide) (Nat.le_refl 4) (by decide) fits rfl
  have inside : ¬ (decide ((n : Int) < -2147483648) || decide (2147483648 ≤ (n : Int))) = true := by
    rw [Bool.or_eq_true, decide_eq_true_eq, decide_eq_true_eq]
    omega
  rw [year, trimLeft_inDecimal (by decide)]
  rw [same, List.cons_append] at read ⊢
  split
  · next sign =>
      cases sign
      exact absurd digit (by decide)
  · next sign =>
      cases sign
      exact absurd digit (by decide)
  · rw [read]
    exact if_neg inside

/-- A date is read back. -/
theorem datePart_dateChars {f : Face} (fits : f.Fits) (month : 1 ≤ f.month ∧ f.month ≤ 12)
    (day : 1 ≤ f.day ∧ f.day ≤ 31) (rest : List Char)
    : datePart (f.dateChars rest) = .ok (((f.year : Int), f.month, f.day), rest) := by
  rw [datePart, Face.dateChars, year_inDecimal fits.year]
  change (bounded 2 1 12 _ >>= _) = _
  rw [bounded_inDecimal month.1 month.2 (by decide)]
  change (bounded 2 1 31 _ >>= _) = _
  rw [bounded_inDecimal day.1 day.2 (by decide)]
  rfl

/-- An hour and a minute are read back. -/
theorem hourPart_hourChars {f : Face} (hour : f.hour ≤ 23) (minute : f.minute ≤ 59)
    (rest : List Char)
    : hourPart (f.hourChars rest) = .ok ((f.hour, f.minute), rest) := by
  rw [hourPart, Face.hourChars, bounded_inDecimal (Nat.zero_le _) hour (by decide)]
  change (bounded 2 0 59 _ >>= _) = _
  rw [bounded_inDecimal (Nat.zero_le _) minute (by decide)]
  rfl

/-- A fraction is read back, however many of its digits are written. -/
theorem fraction_fractionChars {nanos : Nat} (fits : nanos < 10 ^ 9)
    : fraction (fractionChars nanos ++ zone) = .ok (nanos, zone) := by
  by_cases none : nanos = 0
  · subst none
    rfl
  · rw [show fractionChars nanos = '.' :: fractionDigits nanos from if_neg none, List.cons_append,
      fraction]
    obtain ⟨width, zeros, whole, positive, nine, same, written⟩ := fractionDigits_spec nanos
    have few : whole < 10 ^ width := by
      refine Nat.lt_of_mul_lt_mul_right (a := 10 ^ zeros) ?_
      rw [← same, ← Nat.pow_add, nine]
      exact fits
    have ends (n : Nat) : (zone.take n).takeWhile Text.isDigit = [] := by
      cases n <;> rfl
    rw [written, digits_inDecimal positive (by omega) (by omega) few (ends _)]
    have taken : 9 - ((inDecimal width whole ++ zone).length - zone.length) = zeros := by
      rw [List.length_append, length_inDigits]
      omega
    change Except.ok (_ * 10 ^ _, _) = _
    rw [taken, ← same]
    rfl

/-- A second and its fraction are read back. -/
theorem secondPart_secondChars {f : Face} (fits : f.Fits) (second : f.second ≤ 60)
    : secondPart (f.secondChars zone) = .ok ((f.second, f.nanos), zone) := by
  rw [secondPart, Face.secondChars]
  change (bounded 2 0 60 _ >>= _) = _
  rw [bounded_inDecimal (Nat.zero_le _) second (by decide)]
  change (fraction _ >>= _) = _
  rw [fraction_fractionChars fits.nanos]
  rfl
/-- A proper instant is made of what its face shows: the sixtieth second of a minute stands for the
fraction above one of the last.
-/
theorem ofParts_face {a : Instant} (proper : a.IsProper)
    : Instant.ofParts ((a.face.year : Int), a.face.month, a.face.day) (a.face.hour, a.face.minute)
        (a.face.second, a.face.nanos) 0
      = .ok a := by
  obtain ⟨nonneg, year_le, second_lt, nanos_lt, leap⟩ := proper
  have valid : a.date.IsValid := Date.isValid_ofDays a.day
  have year : (a.face.year : Int) = a.date.year := Int.toNat_of_nonneg nonneg
  have within : ¬ (decide (a.date.year < leastYear) || decide (mostYear < a.date.year)
      || decide (daysInMonth a.date.year a.date.month < a.date.day)) = true := by
    have day := valid.day_le
    simp only [Bool.or_eq_true, decide_eq_true_eq]
    unfold leastYear mostYear
    omega
  have within'
      : ¬ (decide (a.date.year < leastYear) || decide (mostYear < a.date.year)) = true := by
    simp only [Bool.or_eq_true, decide_eq_true_eq]
    unfold leastYear mostYear
    omega
  have days : a.date.toDays = a.day := Date.toDays_ofDays a.day
  have sixty : (a.face.second == 60) = decide (1000000000 ≤ a.nanos) := by
    rw [Bool.beq_eq_decide_eq, decide_eq_decide]
    simp only [Instant.face]
    omega
  have clock : a.face.hour * 3600 + a.face.minute * 60
      + (if (a.face.second == 60) = true then 59 else a.face.second) = a.second := by
    simp only [sixty, decide_eq_true_eq]
    simp only [Instant.face]
    split <;> omega
  have nanos : (if (a.face.second == 60) = true then a.face.nanos + 1000000000 else a.face.nanos)
      = a.nanos := by
    simp only [sixty, decide_eq_true_eq]
    simp only [Instant.face]
    split <;> omega
  have sameDay : a.day + ((a.second : Int) - 0).fdiv 86400 = a.day := by
    rw [Int.fdiv_eq_ediv_of_nonneg _ (by decide)]
    omega
  have sameSecond : (((a.second : Int) - 0).fmod 86400).toNat = a.second := by
    rw [Int.fmod_eq_emod_of_nonneg _ (by decide)]
    omega
  unfold Instant.ofParts
  dsimp only
  rw [year, clock, nanos]
  change (if (_ || decide (daysInMonth a.date.year a.date.month < a.date.day)) = true then _ else _)
    = _
  rw [if_neg within]
  rw [show (Date.mk a.date.year a.face.month a.face.day).toDays = a.day from days, sameDay,
    sameSecond]
  exact if_neg within'

/-- A proper instant is read back from its text. -/
theorem parse_textWith {a : Instant} (proper : a.IsProper)
    : Instant.parse (a.textWith "+00:00") = .ok a := by
  have valid : a.date.IsValid := Date.isValid_ofDays a.day
  have day : daysInMonth a.date.year a.date.month ≤ 31 := by
    unfold daysInMonth
    split_ifs <;> decide
  have fits := proper.fits
  have clock : a.face.hour ≤ 23 ∧ a.face.minute ≤ 59 ∧ a.face.second ≤ 60 := by
    obtain ⟨_, _, second_lt, nanos_lt, leap⟩ := proper
    simp only [Instant.face]
    omega
  rw [Instant.parse, toList_textWith proper, Face.chars,
    datePart_dateChars fits ⟨valid.month_pos, valid.month_le⟩
      ⟨valid.day_pos, Nat.le_trans valid.day_le day⟩]
  change (hourPart _ >>= _) = _
  rw [hourPart_hourChars clock.1 clock.2.1]
  change (secondPart _ >>= _) = _
  rw [secondPart_secondChars fits clock.2.2]
  have universal : offset (Text.trimLeft zone) = .ok (0, []) := by decide +kernel
  change (offset (Text.trimLeft zone) >>= _) = _
  rw [universal]
  exact ofParts_face proper

/-- A proper instant is read back from a column. -/
theorem ofColumn?_textWith {a : Instant} (proper : a.IsProper)
    : Instant.ofColumn? (a.textWith "+00:00") = some a := by
  rw [Instant.ofColumn?, parse_textWith proper]

/-- Proper instants are the same when their texts are. -/
theorem textWith_injective {a b : Instant} (properA : a.IsProper) (properB : b.IsProper)
    (same : a.textWith "+00:00" = b.textWith "+00:00")
    : a = b := by
  have read := ofColumn?_textWith properA
  rw [same, ofColumn?_textWith properB, Option.some.injEq] at read
  exact read.symm

-----------------------------------------------------------------------------------------
-- Instants in file names
-----------------------------------------------------------------------------------------

/-- The beginning of the second that an instant falls into. -/
def Instant.floor (a : Instant) : Instant := ⟨a.day, a.second, a.nanos / 1000000000 * 1000000000⟩

/-- The second of a proper instant begins with a proper instant. -/
theorem Instant.IsProper.floor {a : Instant} (proper : a.IsProper) : a.floor.IsProper := by
  obtain ⟨nonneg, year, second, nanos, leap⟩ := proper
  refine ⟨nonneg, year, second, ?_, ?_⟩ <;> simp only [Instant.floor] <;> omega

/-- The beginning of a second shows no fraction. -/
theorem face_floor (a : Instant) : a.floor.face = { a.face with nanos := 0 } := by
  simp [Instant.face, Instant.floor, Instant.date]

/-- Numbers in as many digits are the same when their digits are. -/
theorem inDecimal_inj {width m n : Nat} (fitsM : m < 10 ^ width) (fitsN : n < 10 ^ width)
    (same : inDecimal width m = inDecimal width n)
    : m = n := by
  rw [← decimal_inDecimal fitsM, same, decimal_inDecimal fitsN]

/-- The text of a proper instant in a file name. -/
theorem toList_fileText {a : Instant} (proper : a.IsProper)
    : a.fileText.toList
      = a.face.dateChars ('T' :: (inDecimal 2 a.face.hour
        ++ '-' :: (inDecimal 2 a.face.minute ++ '-' :: inDecimal 2 a.face.second))) := by
  simp only [Instant.fileText, String.toList_append, toList_dateText proper,
    toList_clockText proper]
  simp [Face.dateChars]

/-- In years of four digits the text of an instant in a file name is made of digits, hyphens and
one letter.
-/
theorem forall_mem_fileText {a : Instant} (nonneg : 0 ≤ a.date.year)
    (year_le : a.date.year ≤ 9999)
    : ∀ c ∈ a.fileText.toList, Text.isDigit c ∨ c = '-' ∨ c = 'T' := by
  have year : yearText a.date.year = padded 4 a.date.year.toNat := by
    rw [yearText, if_neg (by omega), if_neg (by omega)]
  have number {width n : Nat}
      : ∀ c ∈ (padded width n).toList, Text.isDigit c ∨ c = '-' ∨ c = 'T' :=
    fun c member => Or.inl (isDigit_of_mem_padded member)
  have hyphen : ∀ c ∈ "-".toList, Text.isDigit c ∨ c = '-' ∨ c = 'T' :=
    List.forall_mem_singleton.mpr (Or.inr (Or.inl rfl))
  have letter : ∀ c ∈ "T".toList, Text.isDigit c ∨ c = '-' ∨ c = 'T' :=
    List.forall_mem_singleton.mpr (Or.inr (Or.inr rfl))
  have date : ∀ c ∈ a.dateText.toList, Text.isDigit c ∨ c = '-' ∨ c = 'T' := by
    simp only [Instant.dateText, year, String.toList_append, List.forall_mem_append]
    exact ⟨⟨⟨⟨number, hyphen⟩, number⟩, hyphen⟩, number⟩
  have clock : ∀ c ∈ (a.clockText "-").toList, Text.isDigit c ∨ c = '-' ∨ c = 'T' := by
    simp only [Instant.clockText, String.toList_append, List.forall_mem_append]
    exact ⟨⟨⟨⟨number, hyphen⟩, number⟩, hyphen⟩, number⟩
  simp only [Instant.fileText, String.toList_append, List.forall_mem_append]
  exact ⟨⟨date, letter⟩, clock⟩

/-- Proper instants have one text in file names exactly when they fall into one second. -/
theorem fileText_eq_iff {a b : Instant} (properA : a.IsProper) (properB : b.IsProper)
    : a.fileText = b.fileText ↔ a.floor = b.floor := by
  constructor
  · intro same
    have chars := congrArg String.toList same
    rw [toList_fileText properA, toList_fileText properB] at chars
    have fitsA := properA.fits
    have fitsB := properB.fits
    -- Each part has as many digits in both texts, so the parts agree from left to right.
    obtain ⟨year, chars⟩ := List.append_inj chars (by simp)
    obtain ⟨month, chars⟩ := List.append_inj (List.cons.inj chars).2 (by simp)
    obtain ⟨day, chars⟩ := List.append_inj (List.cons.inj chars).2 (by simp)
    obtain ⟨hour, chars⟩ := List.append_inj (List.cons.inj chars).2 (by simp)
    obtain ⟨minute, chars⟩ := List.append_inj (List.cons.inj chars).2 (by simp)
    have face : a.floor.face = b.floor.face := by
      rw [face_floor, face_floor]
      dsimp only
      rw [inDecimal_inj fitsA.year fitsB.year year,
        inDecimal_inj fitsA.month fitsB.month month, inDecimal_inj fitsA.day fitsB.day day,
        inDecimal_inj fitsA.hour fitsB.hour hour,
        inDecimal_inj fitsA.minute fitsB.minute minute,
        inDecimal_inj fitsA.second fitsB.second (List.cons.inj chars).2]
    refine textWith_injective properA.floor properB.floor (String.toList_inj.mp ?_)
    rw [toList_textWith properA.floor, toList_textWith properB.floor, face]
  · intro same
    obtain ⟨day, second, nanos⟩ := Instant.mk.inj same
    have leap : a.nanos / 1000000000 = b.nanos / 1000000000 := by omega
    have date : a.date = b.date := congrArg Date.ofDays day
    rw [Instant.fileText, Instant.fileText, Instant.dateText, Instant.dateText, date,
      Instant.clockText, Instant.clockText, second, leap]

/-- The texts of proper instants in file names are equally long. -/
theorem length_fileText {a b : Instant} (properA : a.IsProper) (properB : b.IsProper)
    : a.fileText.toList.length = b.fileText.toList.length := by
  simp [toList_fileText properA, toList_fileText properB, Face.dateChars]

end Harvest.Time
