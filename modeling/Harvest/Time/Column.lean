import Harvest.Time.Rfc3339

/-! Instants as the columns of tables may hold them. Besides the written form of instants a column
may hold a date and a clock without seconds or without an offset; the clock then shows universal
time.
-/

namespace Harvest.Time

/-- Reads seconds if there are any. -/
def optionalSecond (cs : List Char) : Except ParseError ((Nat × Nat) × List Char) :=
  if cs.head? == some ':' then secondPart cs else return ((0, 0), cs)

/-- Reads what ends a text: nothing, the letter of universal time, or an offset in digits. -/
def ending (cs : List Char) : Except ParseError Int := do
  if cs == [] || cs == ['Z'] then return 0
  match Text.trimLeft cs with
  | [] => throw .tooLong
  | c :: rest =>
      let sign : Int ←
        if c == '+' then pure 1
        else if c == '-' || c.toNat == 0x2212 then pure (-1)
        else throw .invalid
      let (n, rest) ← offsetDigits rest
      if !rest.isEmpty then throw .tooLong
      return sign * n

/-- Reads a date and a clock with the letter for a time or blanks between them. -/
def Instant.parsePlain (text : String) : Except ParseError Instant := do
  let (date, cs) ← datePart text.toList
  let cs := if cs.head? == some 'T' then cs.tail else Text.trimLeft cs
  let (clock, cs) ← hourPart cs
  let (second, cs) ← optionalSecond cs
  let ahead ← ending cs
  Instant.ofParts date clock second ahead

/-- The instant that a text in a column stands for. -/
def Instant.ofColumn? (text : String) : Option Instant :=
  match Instant.parse text with
  | .ok t => some t
  | .error _ => (Instant.parsePlain text).toOption

end Harvest.Time
