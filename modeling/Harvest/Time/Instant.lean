/-! Instants of the proleptic Gregorian calendar in universal time, to the nanosecond. A leap
second is the last second of its minute with a fraction of one second or more, so the order
of instants stays the order of their parts.
-/

namespace Harvest.Time

/-- A day of the calendar. -/
structure Date where
  year : Int
  month : Nat
  day : Nat
deriving DecidableEq, Repr, Inhabited

/-- An instant: days since the first of January 1970, seconds of the day, nanoseconds. -/
structure Instant where
  day : Int
  second : Nat
  nanos : Nat
deriving DecidableEq, Repr, Inhabited

/-- A year with a leap day. -/
def isLeapYear (year : Int) : Bool :=
  year % 4 == 0 && (year % 100 != 0 || year % 400 == 0)

/-- The number of days of a month. -/
def daysInMonth (year : Int) (month : Nat) : Nat :=
  if month == 2 then if isLeapYear year then 29 else 28
  else if month == 4 || month == 6 || month == 9 || month == 11 then 30
  else 31

/-- The days from the first of January 1970 to a date. Years count from March here, so that
a leap day is the last day of its year.
-/
def Date.toDays (d : Date) : Int :=
  let year := if d.month ≤ 2 then d.year - 1 else d.year
  let era := year.fdiv 400
  let yearOfEra := year - era * 400
  let monthFromMarch : Int := if 2 < d.month then (d.month : Int) - 3 else (d.month : Int) + 9
  let dayOfYear := (153 * monthFromMarch + 2) / 5 + (d.day : Int) - 1
  let dayOfEra := yearOfEra * 365 + yearOfEra / 4 - yearOfEra / 100 + dayOfYear
  era * 146097 + dayOfEra - 719468

/-- The date that lies a number of days after the first of January 1970. -/
def Date.ofDays (days : Int) : Date :=
  let shifted := days + 719468
  let era := shifted.fdiv 146097
  let dayOfEra := shifted - era * 146097
  let yearOfEra :=
    (dayOfEra - dayOfEra / 1460 + dayOfEra / 36524 - dayOfEra / 146096) / 365
  let dayOfYear := dayOfEra - (365 * yearOfEra + yearOfEra / 4 - yearOfEra / 100)
  let monthFromMarch := (5 * dayOfYear + 2) / 153
  let day := dayOfYear - (153 * monthFromMarch + 2) / 5 + 1
  let month := if monthFromMarch < 10 then monthFromMarch + 3 else monthFromMarch - 9
  let year := yearOfEra + era * 400
  ⟨if month ≤ 2 then year + 1 else year, month.toNat, day.toNat⟩

namespace Instant

/-- The first instant comes strictly before the second. -/
def before (a b : Instant) : Bool :=
  decide (a.day < b.day)
    || (a.day == b.day && (decide (a.second < b.second)
      || (a.second == b.second && decide (a.nanos < b.nanos))))

/-- The first instant comes before the second or is the same. -/
def upTo (a b : Instant) : Bool := !b.before a

/-- The nanoseconds from one instant to a later one. A leap second between them counts, if
it belongs to one of the two.
-/
def nanosSince (later earlier : Instant) : Int :=
  let seconds := (later.second : Int) - earlier.second
  let seconds :=
    if earlier.second < later.second && 1000000000 ≤ earlier.nanos then seconds + 1
    else if later.second < earlier.second && 1000000000 ≤ later.nanos then seconds - 1
    else seconds
  ((later.day - earlier.day) * 86400 + seconds) * 1000000000
    + ((later.nanos : Int) - earlier.nanos)

/-- The whole milliseconds from one instant to another, fractions dropped. -/
def millisSince (later earlier : Instant) : Int :=
  (nanosSince later earlier).tdiv 1000000

/-- The instant a number of nanoseconds later, for an instant outside a leap second. -/
def plusNanos (a : Instant) (n : Nat) : Instant :=
  let nanos := a.nanos + n
  let second := a.second + nanos / 1000000000
  ⟨a.day + (second / 86400 : Nat), second % 86400, nanos % 1000000000⟩

/-- The date of an instant. -/
def date (a : Instant) : Date := Date.ofDays a.day

end Instant

end Harvest.Time
