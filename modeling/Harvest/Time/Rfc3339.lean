import Harvest.Json.Decoder
import Harvest.Time.Instant

/-! Instants as text. Writing follows RFC 3339 with as many groups of three fraction digits as
the instant needs. Reading is wider: a blank may stand for the letter between date and time,
numbers may lack leading zeros, and the offset may be any number of hours below a day.
-/

namespace Harvest.Time

/-- Reasons why a text is no instant. -/
inductive ParseError where
  | outOfRange
  | impossible
  | invalid
  | tooShort
  | tooLong
deriving DecidableEq, Repr

/-- The wording of a reason. -/
def ParseError.message : ParseError → String
  | .outOfRange => "input is out of range"
  | .impossible => "no possible date and time matching input"
  | .invalid => "input contains invalid characters"
  | .tooShort => "premature end of input"
  | .tooLong => "trailing input"

/-- A reader of a part of a text, giving the value and the rest. -/
abbrev Part (α : Type) := List Char → Except ParseError (α × List Char)

/-- The largest signed number of 64 bits. -/
def maxSigned : Nat := 9223372036854775807

/-- Reads at least one digit and at most `most`. -/
def digits (most : Nat) : Part Nat := fun cs =>
  match cs with
  | [] => throw .tooShort
  | _ =>
      let run := (cs.take most).takeWhile Text.isDigit
      if run.isEmpty then throw .invalid
      else if maxSigned < Text.decimal run then throw .outOfRange
      else return (Text.decimal run, cs.drop run.length)

/-- Reads a number of at most `most` digits within bounds, after blanks. -/
def bounded (most lo hi : Nat) : Part Nat := fun cs => do
  let (n, rest) ← digits most (Text.trimLeft cs)
  if n < lo || hi < n then throw .outOfRange
  return (n, rest)

/-- Reads a year, after blanks: four digits at most, or any number of them after a sign. -/
def year : Part Int := fun cs => do
  let (n, rest) ← match Text.trimLeft cs with
    | '-' :: cs => do
        let (n, rest) ← digits cs.length cs
        pure (-(n : Int), rest)
    | '+' :: cs => do
        let (n, rest) ← digits cs.length cs
        pure ((n : Int), rest)
    | cs => do
        let (n, rest) ← digits 4 cs
        pure ((n : Int), rest)
  if n < -2147483648 || 2147483648 ≤ n then throw .outOfRange
  return (n, rest)

/-- Steps over one character. -/
def mark (c : Char) (cs : List Char) : Except ParseError (List Char) :=
  match cs with
  | [] => throw .tooShort
  | x :: rest => if x == c then return rest else throw .invalid

/-- Reads a fraction of a second, if there is one, in nanoseconds; digits after the ninth
are dropped.
-/
def fraction : Part Nat := fun cs =>
  match cs with
  | '.' :: cs => do
      let (n, rest) ← digits 9 cs
      let taken := cs.length - rest.length
      return (n * Nat.pow 10 (9 - taken), rest.dropWhile Text.isDigit)
  | cs => return (0, cs)

/-- Reads the digits of an offset in seconds. -/
def offsetDigits (cs : List Char) : Except ParseError (Nat × List Char) := do
  let pair (cs : List Char) (limit : Nat) : Except ParseError (Nat × List Char) :=
    match cs with
    | a :: b :: rest =>
        if a.toNat < 128 && b.toNat < 128 then
          if Text.isDigit a && Text.isDigit b then
            let n := Text.decimal [a, b]
            if n < limit then return (n, rest) else throw .outOfRange
          else throw .invalid
        else throw .invalid
    | [a] => if a.toNat < 128 then throw .tooShort else throw .invalid
    | [] => throw .tooShort
  let (hours, rest) ← pair cs 100
  let rest := rest.dropWhile fun c => c == ':' || Text.isBlank c
  let (minutes, rest) ← pair rest 60
  return (hours * 3600 + minutes * 60, rest)

/-- Reads an offset from universal time in seconds. -/
def offset : Part Int := fun cs =>
  match cs with
  | [] => throw .tooShort
  | c :: rest =>
      if c == 'Z' || c == 'z' then return (0, rest)
      else if sameLetters cs then return (0, cs.drop 3)
      else if c == '+' then do
        let (n, rest) ← offsetDigits rest
        return ((n : Int), rest)
      else if c == '-' || c.toNat == 0x2212 then do
        let (n, rest) ← offsetDigits rest
        return (-(n : Int), rest)
      else throw .invalid
where
  /-- The text starts with the letters of universal time, in either case. -/
  sameLetters (cs : List Char) : Bool :=
    Text.lowerAscii (String.ofList (cs.take 3)) == "utc"

/-- The years that dates can have. -/
def leastYear : Int := -262143

/-- The years that dates can have. -/
def mostYear : Int := 262142

/-- Reads a date: a year, a month and a day with hyphens between them. -/
def datePart : Part (Int × Nat × Nat) := fun cs => do
  let (y, cs) ← year cs
  let cs ← mark '-' cs
  let (month, cs) ← bounded 2 1 12 cs
  let cs ← mark '-' cs
  let (day, cs) ← bounded 2 1 31 cs
  return ((y, month, day), cs)

/-- Reads an hour and a minute with a colon between them. -/
def hourPart : Part (Nat × Nat) := fun cs => do
  let (hour, cs) ← bounded 2 0 23 cs
  let cs ← mark ':' cs
  let (minute, cs) ← bounded 2 0 59 cs
  return ((hour, minute), cs)

/-- Reads a colon, a second and its fraction in nanoseconds. -/
def secondPart : Part (Nat × Nat) := fun cs => do
  let cs ← mark ':' cs
  let (second, cs) ← bounded 2 0 60 cs
  let (nanos, cs) ← fraction cs
  return ((second, nanos), cs)

/-- The instant of a date and a clock that are ahead of universal time by some seconds. The
sixtieth second of a minute is a leap second.
-/
def Instant.ofParts (date : Int × Nat × Nat) (clock second : Nat × Nat) (ahead : Int)
    : Except ParseError Instant := do
  let ((y, month, day), (hour, minute), (second, nanos)) := (date, clock, second)
  if y < leastYear || mostYear < y || daysInMonth y month < day then throw .outOfRange
  if ahead.natAbs ≥ 86400 then throw .outOfRange
  let leap := second == 60
  let clock := hour * 3600 + minute * 60 + (if leap then 59 else second)
  let total : Int := (clock : Int) - ahead
  let day := (Date.mk y month day).toDays + total.fdiv 86400
  let date := Date.ofDays day
  if date.year < leastYear || mostYear < date.year then throw .impossible
  return ⟨day, (total.fmod 86400).toNat, if leap then nanos + 1000000000 else nanos⟩

/-- Reads an instant. -/
def Instant.parse (text : String) : Except ParseError Instant := do
  let (date, cs) ← datePart text.toList
  let cs ← match cs with
    | [] => throw .tooShort
    | c :: rest => if c == 't' || c == 'T' || c == ' ' then pure rest else throw .invalid
  let (clock, cs) ← hourPart cs
  let (second, cs) ← secondPart cs
  let (ahead, cs) ← offset (Text.trimLeft cs)
  if !(Text.trimLeft cs).isEmpty then throw .tooLong
  Instant.ofParts date clock second ahead

/-- A year in at least four digits, with a sign when it needs more or is negative. -/
def yearText (y : Int) : String :=
  if y < 0 then "-" ++ Text.padded 4 y.natAbs
  else if 9999 < y then "+" ++ toString y.toNat
  else Text.padded 4 y.toNat

/-- A fraction of a second in the fewest groups of three digits that hold it. -/
def fractionText (nanos : Nat) : String :=
  if nanos == 0 then ""
  else if nanos % 1000000 == 0 then "." ++ Text.padded 3 (nanos / 1000000)
  else if nanos % 1000 == 0 then "." ++ Text.padded 6 (nanos / 1000)
  else "." ++ Text.padded 9 nanos

/-- The date of an instant as text. -/
def Instant.dateText (a : Instant) : String :=
  let date := a.date
  yearText date.year ++ "-" ++ Text.padded 2 date.month ++ "-" ++ Text.padded 2 date.day

/-- The hour, minute and second of an instant with a mark between them. -/
def Instant.clockText (a : Instant) (between : String) : String :=
  let second := a.second % 60 + a.nanos / 1000000000
  Text.padded 2 (a.second / 3600) ++ between ++ Text.padded 2 (a.second / 60 % 60) ++ between
    ++ Text.padded 2 second

/-- An instant as text, up to the mark of universal time. -/
def Instant.textWith (a : Instant) (zone : String) : String :=
  a.dateText ++ "T" ++ a.clockText ":" ++ fractionText (a.nanos % 1000000000) ++ zone

/-- An instant as text. -/
def Instant.text (a : Instant) : String := a.textWith "Z"

/-- An instant as text that can stand in a file name. -/
def Instant.fileText (a : Instant) : String :=
  a.dateText ++ "T" ++ a.clockText "-"

/-- An instant as a value. -/
def Instant.toJson (a : Instant) : Json := .string a.text

/-- Reads an instant from a string. -/
def Instant.decode : Json.Decoder Instant :=
  Json.Decoder.stringWith "an RFC 3339 formatted date and time string" fun s =>
    match Instant.parse s with
    | .ok a => return a
    | .error e => throw (.rule e.message)

end Harvest.Time
