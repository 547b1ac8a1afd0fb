import Harvest.Json.Basic

/-! A draft is what a text says before anyone has decided what to read from it. Damage stays
at the place where it was met, so a reader that walks the draft in order reports the first
fault it comes to, and faults that only matter to a value in use stay silent in values that
nobody asks for.
-/

namespace Harvest.Json

/-- Ways in which a text is not a JSON document. -/
inductive SyntaxError where
  | expectedValue
  | valueCut
  | listCut
  | objectCut
  | stringCut
  | expectedCommaOrBracket
  | expectedCommaOrBrace
  | expectedColon
  | expectedIdent
  | nameNotString
  | trailingComma
  | trailingCharacters
  | invalidNumber
  | numberOutOfRange
  | invalidEscape
  | controlCharacter
  | loneSurrogate
  | hexEscapeCut
  | tooDeep
deriving DecidableEq, Repr

/-- The wording of a syntax error. -/
def SyntaxError.message : SyntaxError → String
  | .expectedValue => "expected value"
  | .valueCut => "EOF while parsing a value"
  | .listCut => "EOF while parsing a list"
  | .objectCut => "EOF while parsing an object"
  | .stringCut => "EOF while parsing a string"
  | .expectedCommaOrBracket => "expected `,` or `]`"
  | .expectedCommaOrBrace => "expected `,` or `\x7d`"
  | .expectedColon => "expected `:`"
  | .expectedIdent => "expected ident"
  | .nameNotString => "key must be a string"
  | .trailingComma => "trailing comma"
  | .trailingCharacters => "trailing characters"
  | .invalidNumber => "invalid number"
  | .numberOutOfRange => "number out of range"
  | .invalidEscape => "invalid escape"
  | .controlCharacter => "control character (\\u0000-\\u001F) found while parsing a string"
  | .loneSurrogate => "lone leading surrogate in hex escape"
  | .hexEscapeCut => "unexpected end of hex escape"
  | .tooDeep => "recursion limit exceeded"

/-- The damage at one place of a text. A reader that wants the value there may meet it
differently from one that only steps over it.
-/
structure Breach where
  /-- What a reader of the value meets. -/
  used : SyntaxError
  /-- What a reader that steps over the value meets. -/
  skipped : SyntaxError
deriving DecidableEq, Repr

/-- The same damage for every reader. -/
def Breach.both (e : SyntaxError) : Breach := ⟨e, e⟩

/-- A document as far as its text goes. -/
inductive Draft where
  | null
  | bool (value : Bool)
  /-- A number, or nothing when it is too large to be one. -/
  | number (value : Option Number)
  /-- A string, or the reason why its escapes name no text. -/
  | string (value : Except SyntaxError String)
  /-- Items, and the damage met where the next one or the end should be. -/
  | array (items : List Draft) (closing : Option Breach)
  /-- Members, and the damage met where the next one or the end should be. -/
  | object (members : List (Except SyntaxError String × Draft)) (closing : Option Breach)
  /-- No value, for the text is damaged where it should start. -/
  | broken (breach : Breach)

mutual

/-- The draft of a value, without damage. -/
def toDraft : Json → Draft
  | .null => .null
  | .bool b => .bool b
  | .number n => .number (some n)
  | .string s => .string (.ok s)
  | .array items => .array (toDrafts items) none
  | .object members => .object (toDraftMembers members) none

/-- The drafts of values in order. -/
def toDrafts : List Json → List Draft
  | [] => []
  | item :: items => toDraft item :: toDrafts items

/-- The drafts of named values in order. -/
def toDraftMembers : List (String × Json) → List (Except SyntaxError String × Draft)
  | [] => []
  | (name, value) :: members => (.ok name, toDraft value) :: toDraftMembers members

end

/-- The fault met by a reader that has all the items it wants where the list should end. -/
def SyntaxError.atListEnd : SyntaxError → SyntaxError
  | .expectedCommaOrBracket => .trailingCharacters
  | .valueCut => .trailingCharacters
  | e => e

mutual

/-- Steps over a value, failing at the first damage that even a reader without interest in it
meets.
-/
def Draft.skip : Draft → Except SyntaxError Unit
  | .array items closing => do
      skipItems items
      match closing with
      | none => pure ()
      | some breach => throw breach.skipped
  | .object members closing => do
      skipMembers members
      match closing with
      | none => pure ()
      | some breach => throw breach.skipped
  | .broken breach => throw breach.skipped
  | _ => pure ()

/-- Steps over values in order. -/
def Draft.skipItems : List Draft → Except SyntaxError Unit
  | [] => pure ()
  | item :: items => do
      item.skip
      skipItems items

/-- Steps over members in order. -/
def Draft.skipMembers : List (Except SyntaxError String × Draft) → Except SyntaxError Unit
  | [] => pure ()
  | (_, value) :: members => do
      value.skip
      skipMembers members

end

/-- Values nest at most this deep in a value that is read. -/
def depthLimit : Nat := 127

mutual

/-- The value of a draft, read with a number of levels left to open. -/
def Draft.value (room : Nat) : Draft → Except SyntaxError Json
  | .null => return .null
  | .bool b => return .bool b
  | .number none => throw .numberOutOfRange
  | .number (some n) => return .number n
  | .string (.error e) => throw e
  | .string (.ok s) => return .string s
  | .array items closing => do
      if room == 0 then throw .tooDeep
      let values ← valueItems (room - 1) items
      match closing with
      | none => return .array values
      | some breach => throw breach.used
  | .object members closing => do
      if room == 0 then throw .tooDeep
      let values ← valueMembers (room - 1) members
      match closing with
      | none => return .object (Named.collect values)
      | some breach => throw breach.used
  | .broken breach => throw breach.used

/-- The values of drafts in order. -/
def Draft.valueItems (room : Nat) : List Draft → Except SyntaxError (List Json)
  | [] => return []
  | item :: items => do
      let value ← item.value room
      return value :: (← valueItems room items)

/-- The named values of members in order, names that come again included. -/
def Draft.valueMembers (room : Nat)
    : List (Except SyntaxError String × Draft) → Except SyntaxError (List (String × Json))
  | [] => return []
  | (.error e, _) :: _ => throw e
  | (.ok name, item) :: members => do
      let value ← item.value room
      return (name, value) :: (← valueMembers room members)

end

end Harvest.Json
