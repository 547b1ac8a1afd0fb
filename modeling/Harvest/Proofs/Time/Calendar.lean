import Harvest.Time.Instant
import Mathlib.Tactic.IntervalCases

/-! Days and dates. Every number of days has a date of the calendar, the date leads back to it, and
later days have later dates.
-/

namespace Harvest.Time

-----------------------------------------------------------------------------------------
-- Dates of the calendar
-----------------------------------------------------------------------------------------

/-- The days of a year before a month, both counted from March on. -/
def daysBefore (months : Int) : Int := (153 * months + 2) / 5

/-- The months of a year before a month, from March on. -/
def monthsBefore (month : Nat) : Int := if 2 < month then (month : Int) - 3 else (month : Int) + 9

/-- The days before a year, years counted from March on: one more for each leap year. -/
def daysBeforeYear (year : Int) : Int := 365 * year + year / 4 - year / 100 + year / 400

/-- A year from March on has the length of the year that begins with its January. -/
theorem daysBeforeYear_succ (year : Int)
    : daysBeforeYear (year + 1)
      = daysBeforeYear year + if isLeapYear (year + 1) then 366 else 365 := by
  simp only [daysBeforeYear, isLeapYear, Bool.and_eq_true, Bool.or_eq_true, beq_iff_eq, bne_iff_ne]
  split <;> omega

theorem daysBeforeYear_mono {one two : Int} (before : one ≤ two)
    : daysBeforeYear one ≤ daysBeforeYear two := by
  unfold daysBeforeYear
  omega

/-- All months but February end where the next one begins. -/
theorem daysInMonth_eq {month : Nat} (first : 1 ≤ month) (last : month ≤ 12)
    (other : month ≠ 2) (year : Int)
    : (daysInMonth year month : Int)
      = daysBefore (monthsBefore month + 1) - daysBefore (monthsBefore month) := by
  interval_cases month <;> first | rfl | exact absurd rfl other

theorem daysInMonth_two (year : Int)
    : daysInMonth year 2 = if isLeapYear year then 29 else 28 := rfl

namespace Date

/-- The date is one of the calendar. -/
structure IsValid (d : Date) : Prop where
  month_pos : 1 ≤ d.month
  month_le : d.month ≤ 12
  day_pos : 1 ≤ d.day
  day_le : d.day ≤ daysInMonth d.year d.month

/-- The first date comes before the second in the calendar. -/
def Before (a b : Date) : Prop :=
  a.year < b.year ∨ a.year = b.year ∧ (a.month < b.month ∨ a.month = b.month ∧ a.day < b.day)

theorem before_or_eq_or_before (a b : Date) : a.Before b ∨ a = b ∨ b.Before a := by
  obtain ⟨year, month, day⟩ := a
  obtain ⟨year', month', day'⟩ := b
  simp only [Before, mk.injEq]
  omega

/-- The year of a date when years begin with March. -/
def marchYear (d : Date) : Int := if d.month ≤ 2 then d.year - 1 else d.year

/-- The days before a date are those before its year, those before its month and those before it in
its month.
-/
theorem toDays_eq (d : Date)
    : d.toDays
      = daysBeforeYear d.marchYear + daysBefore (monthsBefore d.month) + d.day - 719469 := by
  have floor := Int.fdiv_eq_ediv_of_nonneg d.marchYear (by decide : (0 : Int) ≤ 400)
  change d.marchYear.fdiv 400 * 146097 + ((d.marchYear - d.marchYear.fdiv 400 * 400) * 365
    + (d.marchYear - d.marchYear.fdiv 400 * 400) / 4
    - (d.marchYear - d.marchYear.fdiv 400 * 400) / 100
    + (daysBefore (monthsBefore d.month) + d.day - 1)) - 719468 = _
  rw [floor, daysBeforeYear]
  omega

/-- A month of the calendar has its place in the year from March on. -/
theorem IsValid.monthsBefore {d : Date} (valid : d.IsValid)
    : 0 ≤ monthsBefore d.month ∧ monthsBefore d.month ≤ 11
      ∧ (d.month = 2 ↔ monthsBefore d.month = 11) := by
  obtain ⟨first, last, _, _⟩ := valid
  unfold Time.monthsBefore
  split <;> omega

/-- A date lies before the next month of its year. -/
theorem IsValid.day_lt {d : Date} (valid : d.IsValid) (other : d.month ≠ 2)
    : daysBefore (Time.monthsBefore d.month) + d.day
      ≤ daysBefore (Time.monthsBefore d.month + 1) := by
  have ends := daysInMonth_eq valid.month_pos valid.month_le other d.year
  have within := valid.day_le
  omega

/-- A date lies before the next year from March on; only in February does it matter how long the
year is.
-/
theorem IsValid.day_lt_year {d : Date} (valid : d.IsValid)
    : daysBeforeYear d.marchYear + daysBefore (Time.monthsBefore d.month) + d.day
      ≤ daysBeforeYear (d.marchYear + 1) := by
  obtain ⟨early, late, february⟩ := valid.monthsBefore
  rw [daysBeforeYear_succ]
  by_cases here : d.month = 2
  · have within := valid.day_le
    have year : d.marchYear + 1 = d.year := by
      unfold marchYear
      split <;> omega
    rw [here, daysInMonth_two] at within
    rw [february.mp here, year, show daysBefore 11 = 337 from rfl]
    split at within <;> split <;> omega
  · have month := valid.day_lt here
    have ends : daysBefore (Time.monthsBefore d.month + 1) ≤ 337 := by
      unfold daysBefore
      omega
    split <;> omega

/-- Later dates of the calendar are later days: years, months and days decide in this order, also
when years begin with March.
-/
theorem toDays_lt {a b : Date} (validA : a.IsValid) (validB : b.IsValid) (before : a.Before b)
    : a.toDays < b.toDays := by
  obtain ⟨earlyA, lateA, februaryA⟩ := validA.monthsBefore
  obtain ⟨earlyB, lateB, _⟩ := validB.monthsBefore
  have dayB := validB.day_pos
  have order : a.marchYear < b.marchYear ∨ a.marchYear = b.marchYear
      ∧ (Time.monthsBefore a.month < Time.monthsBefore b.month
        ∨ Time.monthsBefore a.month = Time.monthsBefore b.month ∧ a.day < b.day) := by
    have := validA.month_le
    have := validB.month_le
    have := validA.month_pos
    have := validB.month_pos
    unfold Before at before
    unfold marchYear Time.monthsBefore
    split <;> split <;> split <;> split <;> omega
  rw [toDays_eq, toDays_eq]
  have nonneg : 0 ≤ daysBefore (Time.monthsBefore b.month) := by
    unfold daysBefore
    omega
  rcases order with year | ⟨year, month | ⟨month, day⟩⟩
  · have ends := validA.day_lt_year
    have mono : daysBeforeYear (a.marchYear + 1) ≤ daysBeforeYear b.marchYear :=
      daysBeforeYear_mono year
    omega
  · have ends := validA.day_lt (by omega)
    have mono : daysBefore (Time.monthsBefore a.month + 1)
        ≤ daysBefore (Time.monthsBefore b.month) := by
      unfold daysBefore
      omega
    rw [year]
    omega
  · rw [year, month]
    omega

end Date

-----------------------------------------------------------------------------------------
-- The days of four hundred years
-----------------------------------------------------------------------------------------

/-- A day of the four hundred years from a first of March on: its century, the fours of years
before it in that century, the years before it in those four, and the days before it in its year.
-/
structure Place where
  century : Int
  fours : Int
  year : Int
  day : Int

namespace Place

/-- The day is there: only leap years have a day 365, and the last year of a century is none unless
the century is the last one.
-/
structure IsValid (p : Place) : Prop where
  century : 0 ≤ p.century ∧ p.century ≤ 3
  fours : 0 ≤ p.fours ∧ p.fours ≤ 24
  year : 0 ≤ p.year ∧ p.year ≤ 3
  day : 0 ≤ p.day ∧ p.day ≤ 365
  leap : p.day = 365 → p.year = 3 ∧ (p.fours = 24 → p.century = 3)

/-- The days before a day. -/
def days (p : Place) : Int := 36524 * p.century + 1461 * p.fours + 365 * p.year + p.day

/-- The years before the year of a day. -/
def years (p : Place) : Int := 100 * p.century + 4 * p.fours + p.year

/-- The months before the month of a day, from March on. -/
def months (p : Place) : Int := (5 * p.day + 2) / 153

/-- The date of a place after some times four hundred years. -/
def date (p : Place) (era : Int) : Date :=
  let month := if p.months < 10 then p.months + 3 else p.months - 9
  let year := p.years + era * 400
  ⟨if month ≤ 2 then year + 1 else year, month.toNat,
    (p.day - daysBefore p.months + 1).toNat⟩

variable {p : Place} {days : Int}

/-- Every day of four hundred years has a place, taking centuries first and fours of years next. -/
theorem exists_of_days (early : 0 ≤ days) (late : days < 146097)
    : ∃ p : Place, p.IsValid ∧ p.days = days := by
  let century := min (days / 36524) 3
  let inCentury := days - 36524 * century
  let inFour := inCentury % 1461
  let year := min (inFour / 365) 3
  refine ⟨⟨century, inCentury / 1461, year, inFour - 365 * year⟩, ⟨?_, ?_, ?_, ?_, ?_⟩, ?_⟩
  all_goals simp only [Place.days, century, inCentury, inFour, year]; omega

/-- The number of years is found from the number of days. -/
theorem years_eq (valid : p.IsValid)
    : (p.days - p.days / 1460 + p.days / 36524 - p.days / 146096) / 365 = p.years := by
  obtain ⟨century, fours, year, day⟩ := p
  obtain ⟨⟨_, _⟩, ⟨_, _⟩, ⟨_, _⟩, ⟨_, _⟩, leap⟩ := valid
  simp only [Place.days, years] at *
  generalize whole : 36524 * century + 1461 * fours + 365 * year + day = n
  have inCentury : 1461 * fours + 365 * year + day ≤ 36524 := by omega
  have atEnd : 1461 * fours + 365 * year + day = 36524 → century = 3 := by omega
  -- the last of the days belongs to the last century, not to one more
  have centuries : n / 36524 - n / 146096 = century := by
    have last : n / 146096 = 0 ∨ n = 146096 := by omega
    interval_cases century <;> omega
  omega

/-- The days before a day are those of its years, with one for each leap year, and those of its own
year.
-/
theorem days_eq (valid : p.IsValid)
    : p.days = 365 * p.years + p.years / 4 - p.years / 100 + p.day := by
  obtain ⟨_, ⟨_, _⟩, ⟨_, _⟩, _, _⟩ := valid
  simp only [Place.days, years]
  omega

/-- The year that begins with the January behind a place is a leap year when it has a day 365. -/
theorem isLeapYear_of_day (valid : p.IsValid) (long : p.day = 365) (era : Int)
    : isLeapYear (p.years + era * 400 + 1) := by
  obtain ⟨⟨_, _⟩, ⟨_, _⟩, ⟨_, _⟩, _, leap⟩ := valid
  simp only [isLeapYear, years, Bool.and_eq_true, Bool.or_eq_true, beq_iff_eq, bne_iff_ne]
  have := leap long
  omega

/-- A year from March on has twelve months, and a day lies between the first days of two of them. -/
theorem months_spec (valid : p.IsValid)
    : 0 ≤ p.months ∧ p.months ≤ 11
      ∧ daysBefore p.months ≤ p.day ∧ p.day < daysBefore (p.months + 1) := by
  obtain ⟨_, _, _, ⟨_, _⟩, _⟩ := valid
  unfold months daysBefore
  omega

theorem monthsBefore_date (valid : p.IsValid) (era : Int)
    : monthsBefore (p.date era).month = p.months := by
  obtain ⟨first, last, _⟩ := p.months_spec valid
  simp only [date, monthsBefore]
  split <;> split <;> omega

theorem marchYear_date (valid : p.IsValid) (era : Int)
    : (p.date era).marchYear = p.years + era * 400 := by
  obtain ⟨first, last, _⟩ := p.months_spec valid
  simp only [date, Date.marchYear]
  split <;> split <;> omega

/-- The date of a place is a date of the calendar; the last month is February. -/
theorem isValid_date (valid : p.IsValid) (era : Int) : (p.date era).IsValid := by
  obtain ⟨first, last, begun, going⟩ := p.months_spec valid
  have months := p.monthsBefore_date valid era
  have day : ((p.date era).day : Int) = p.day - daysBefore p.months + 1 :=
    Int.toNat_of_nonneg (by omega)
  have month : (p.date era).month = 2 ↔ p.months = 11 := by
    simp only [date]
    split <;> omega
  have bounds : 1 ≤ (p.date era).month ∧ (p.date era).month ≤ 12 := by
    simp only [date]
    split <;> omega
  refine ⟨bounds.1, bounds.2, by omega, ?_⟩
  by_cases february : (p.date era).month = 2
  · have year : (p.date era).year = p.years + era * 400 + 1 := by
      simp only [date, month.mp february]
      rfl
    have long : p.day = 365 → isLeapYear (p.years + era * 400 + 1) :=
      fun same => p.isLeapYear_of_day valid same era
    obtain ⟨_, _, _, ⟨_, _⟩, _⟩ := valid
    rw [february, daysInMonth_two, year]
    rw [month.mp february, show daysBefore 11 = 337 from rfl] at day
    split
    · omega
    · next common =>
        have short : p.day ≠ 365 := fun same => common (long same)
        omega
  · have ends := daysInMonth_eq bounds.1 bounds.2 february (p.date era).year
    rw [months] at ends
    omega

/-- The date of a place leads back to it. -/
theorem toDays_date (valid : p.IsValid) (era : Int)
    : (p.date era).toDays = era * 146097 + p.days - 719468 := by
  obtain ⟨_, _, begun, _⟩ := p.months_spec valid
  have day : ((p.date era).day : Int) = p.day - daysBefore p.months + 1 :=
    Int.toNat_of_nonneg (by omega)
  rw [Date.toDays_eq, p.monthsBefore_date valid, p.marchYear_date valid, day, p.days_eq valid,
    daysBeforeYear]
  obtain ⟨⟨_, _⟩, ⟨_, _⟩, ⟨_, _⟩, _, _⟩ := valid
  simp only [years]
  omega

end Place

-----------------------------------------------------------------------------------------
-- Dates of days
-----------------------------------------------------------------------------------------

namespace Date

/-- The date of a number of days is that of a place in its four hundred years. -/
theorem exists_place (days : Int)
    : ∃ (p : Place) (era : Int),
        p.IsValid ∧ days = era * 146097 + p.days - 719468 ∧ ofDays days = p.date era := by
  let era := (days + 719468) / 146097
  have floor : (days + 719468).fdiv 146097 = era :=
    Int.fdiv_eq_ediv_of_nonneg _ (by decide)
  obtain ⟨p, valid, same⟩ : ∃ p : Place, p.IsValid ∧ p.days = days + 719468 - era * 146097 :=
    Place.exists_of_days (by omega) (by omega)
  refine ⟨p, era, valid, by omega, ?_⟩
  have years := p.years_eq valid
  have day := p.days_eq valid
  have inYear : p.days - (365 * p.years + p.years / 4 - p.years / 100) = p.day := by omega
  unfold ofDays
  dsimp only
  rw [floor, ← same, years, inYear]
  rfl

theorem isValid_ofDays (days : Int) : (ofDays days).IsValid := by
  obtain ⟨p, era, valid, _, same⟩ := exists_place days
  exact same ▸ p.isValid_date valid era

/-- The date of a number of days is as many days away. -/
theorem toDays_ofDays (days : Int) : (ofDays days).toDays = days := by
  obtain ⟨p, era, valid, number, same⟩ := exists_place days
  rw [same, p.toDays_date valid, number]

/-- Later days have later dates, for the dates lead back to the days. -/
theorem ofDays_before {one two : Int} (before : one < two) : (ofDays one).Before (ofDays two) := by
  rcases before_or_eq_or_before (ofDays one) (ofDays two) with first | same | second
  · exact first
  · have equal := congrArg toDays same
    rw [toDays_ofDays, toDays_ofDays] at equal
    omega
  · have after := toDays_lt (isValid_ofDays two) (isValid_ofDays one) second
    rw [toDays_ofDays, toDays_ofDays] at after
    omega

end Date

end Harvest.Time
