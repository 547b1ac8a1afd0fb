import Harvest.Json.Printer
import Harvest.Json.Reader
import Harvest.Text.Quoted

/-! Typed reading of drafts. A decoder walks a draft in document order, so of several faults
the one that stands first wins. The same decoder reads a text and a value that is already in
memory; the two differ only in what an excess of items and a misplaced kind of value are
called.
-/

namespace Harvest.Json

/-- Where a draft comes from. -/
inductive Source where
  | text
  | tree
deriving DecidableEq

/-- How a draft is read: where it comes from, and how many levels may still open. -/
structure Mode where
  source : Source
  room : Nat

/-- The mode one level further in. -/
def Mode.inner (mode : Mode) : Mode := { mode with room := mode.room - 1 }

/-- The kind of value that was found where another was wanted. -/
inductive Found where
  | null
  | bool (value : Bool)
  | number (value : Number)
  | string (value : String)
  | list
  | record

/-- The wording of a found value. -/
def Found.text : Found → String
  | .null => "null"
  | .bool b => "boolean `" ++ (if b then "true" else "false") ++ "`"
  | .number (.whole n) => "integer `" ++ toString n ++ "`"
  | .number (.real x) => "floating point `" ++ (Number.real x).text ++ "`"
  | .string s => "string " ++ Text.quoted s
  | .list => "sequence"
  | .record => "map"

/-- Reasons why a draft is not what a decoder wants. -/
inductive DecodeError where
  | damaged (fault : SyntaxError)
  | invalidType (found : Found) (expected : String)
  | invalidValue (found : Found) (expected : String)
  | invalidLength (length : Nat) (expected : String)
  | missingField (name : String)
  | duplicateField (name : String)
  | unknownVariant (name : String) (options : List String)
  /-- A rule of the decoded type, in its own words. -/
  | rule (reason : String)

/-- The wording of a choice between names. -/
def choiceText : List String → String
  | [a] => "`" ++ a ++ "`"
  | [a, b] => "`" ++ a ++ "` or `" ++ b ++ "`"
  | options => "one of " ++ ", ".intercalate (options.map fun o => "`" ++ o ++ "`")

/-- The wording of a reason. -/
def DecodeError.message : DecodeError → String
  | .damaged fault => fault.message
  | .invalidType found expected => "invalid type: " ++ found.text ++ ", expected " ++ expected
  | .invalidValue found expected => "invalid value: " ++ found.text ++ ", expected " ++ expected
  | .invalidLength n expected => "invalid length " ++ toString n ++ ", expected " ++ expected
  | .missingField name => "missing field `" ++ name ++ "`"
  | .duplicateField name => "duplicate field `" ++ name ++ "`"
  | .unknownVariant name [] => "unknown variant `" ++ name ++ "`, there are no variants"
  | .unknownVariant name options =>
      "unknown variant `" ++ name ++ "`, expected " ++ choiceText options
  | .rule reason => reason

/-- The outcome of a decoder. -/
abbrev Decoded (α : Type) := Except DecodeError α

/-- A typed reader of drafts. -/
abbrev Decoder (α : Type) := Mode → Draft → Decoded α

/-- A syntactic outcome as the outcome of a decoder. -/
def sound {α : Type} (outcome : Except SyntaxError α) : Decoded α :=
  outcome.mapError .damaged

/-- The kind of a draft; drafts that hold no value have none. -/
def Draft.found : Draft → Decoded Found
  | .null => return .null
  | .bool b => return .bool b
  | .number (some n) => return .number n
  | .number none => throw (.damaged .numberOutOfRange)
  | .string (.ok s) => return .string s
  | .string (.error e) => throw (.damaged e)
  | .array _ _ => return .list
  | .object _ _ => return .record
  | .broken breach => throw (.damaged breach.used)

namespace Decoder

/-- Refuses a draft that is of another kind than expected. -/
def mismatch {α : Type} (expected : String) (draft : Draft) : Decoded α := do
  throw (.invalidType (← draft.found) expected)

/-- Refuses damage where a list or record should end. -/
def closed (closing : Option Breach) : Decoded Unit :=
  match closing with
  | none => pure ()
  | some breach => throw (.damaged breach.used)

/-- Refuses to open one more level than there is room for. -/
def opens (mode : Mode) : Decoded Unit :=
  if mode.room == 0 then throw (.damaged .tooDeep) else pure ()

/-- Any value. -/
def any : Decoder Json := fun mode draft => sound (draft.value mode.room)

/-- A string that passes a rule of its own; `expected` names it. -/
def stringWith {α : Type} (expected : String) (read : String → Decoded α) : Decoder α :=
  fun _ draft =>
    match draft with
    | .string (.ok s) => read s
    | draft => mismatch expected draft

/-- A string. -/
def string : Decoder String := stringWith "a string" pure

/-- A boolean. -/
def bool : Decoder Bool := fun _ draft =>
  match draft with
  | .bool b => return b
  | draft => mismatch "a boolean" draft

/-- A natural number of at most `bits` bits; `expected` names its type. -/
def natural (bits : Nat) (expected : String) : Decoder Nat := fun _ draft =>
  match draft with
  | .number (some (.whole n)) =>
      if 0 ≤ n && n < Nat.pow 2 bits then return n.toNat
      else throw (.invalidValue (.number (.whole n)) expected)
  | draft => mismatch expected draft

/-- A natural number of at most 32 bits. -/
def nat32 : Decoder Nat := natural 32 "u32"

/-- A natural number of at most 64 bits. -/
def nat64 : Decoder Nat := natural 64 "u64"

/-- The absence of a value. -/
def unit : Decoder Unit := fun _ draft =>
  match draft with
  | .null => return ()
  | draft => mismatch "unit" draft

/-- A value or `null`. -/
def option {α : Type} (item : Decoder α) : Decoder (Option α) := fun mode draft =>
  match draft with
  | .null => return none
  | draft => some <$> item mode draft

/-- A list of any length. -/
def list {α : Type} (item : Decoder α) : Decoder (List α) := fun mode draft =>
  match draft with
  | .array items closing => do
      opens mode
      let values ← items.mapM (item mode.inner)
      closed closing
      return values
  | draft => mismatch "a sequence" draft

/-- The name of a member. -/
def name (key : Except SyntaxError String) : Decoded String := sound key

/-- Named values, one a name. -/
def record {α : Type} (value : Decoder α) : Decoder (List (String × α)) := fun mode draft =>
  match draft with
  | .object members closing => do
      opens mode
      let values ← members.mapM fun (key, item) => do
        let key ← name key
        return (key, ← value mode.inner item)
      closed closing
      return Named.collect values
  | draft => mismatch "a map" draft

/-- The value of a name among options. -/
def select {α : Type} (options : List (String × α)) (key : String) : Decoded α :=
  match Named.get? key options with
  | some value => return value
  | none => throw (.unknownVariant key (options.map (·.1)))

/-- A name among options, alone or as the only member of a record with an empty value. -/
def variant {α : Type} (options : List (String × α)) : Decoder α := fun mode draft =>
  match draft, mode.source with
  | .string (.ok key), _ => select options key
  | .string (.error e), _ => throw (.damaged e)
  | .broken breach, _ => throw (.damaged breach.used)
  | .object [(key, item)] closing, _ => do
      opens mode
      let value ← select options (← name key)
      unit mode.inner item
      closed closing
      return value
  | .object [] closing, .text => do
      opens mode
      match closing with
      | some ⟨.objectCut, _⟩ => throw (.damaged .valueCut)
      | _ => throw (.damaged .expectedValue)
  | .object ((key, item) :: _) _, .text => do
      opens mode
      let _ ← select options (← name key)
      unit mode.inner item
      throw (.damaged .expectedValue)
  | .object _ _, .tree => throw (.invalidValue .record "map with a single key")
  | _, .text => throw (.damaged .expectedValue)
  | draft, .tree => mismatch "string or map" draft

end Decoder

/-- The fields of a structure: how each is checked where it stands, and how all together are
read from members and from a list of items.
-/
structure Shape (α : Type) where
  probes : List (String × Decoder Unit)
  fromMembers : Mode → List (String × Draft) → Decoded α
  /-- Reads the items from an index on; the index of a missing item is refused. -/
  fromItems : Mode → (short : Nat → DecodeError) → Nat → List Draft → Decoded (α × List Draft)

namespace Shape

/-- A field that is read by a decoder. Without the member it has the value `absent`, and
without the item the value `short`, if there are such values.
-/
def field {α : Type} (name : String) (decode : Decoder α) (absent short : Option α)
    : Shape α where
  probes := [(name, fun mode draft => do let _ ← decode mode draft)]
  fromMembers mode members :=
    match Named.get? name members, absent with
    | some draft, _ => decode mode draft
    | none, some value => return value
    | none, none => throw (.missingField name)
  fromItems mode tooShort index items :=
    match items, short with
    | draft :: rest, _ => do return (← decode mode draft, rest)
    | [], some value => return (value, [])
    | [], none => throw (tooShort index)

/-- A field that must be there. -/
def required {α : Type} (name : String) (decode : Decoder α) : Shape α :=
  field name decode none none

/-- A field that may be absent or `null`. -/
def optional {α : Type} (name : String) (decode : Decoder α) : Shape (Option α) :=
  field name (Decoder.option decode) (some none) none

/-- A field that has a value of its own when it is absent. -/
def defaulted {α : Type} (name : String) (decode : Decoder α) (value : α) : Shape α :=
  field name decode (some value) (some value)

/-- The structure without fields. -/
def empty {α : Type} (value : α) : Shape α where
  probes := []
  fromMembers _ _ := return value
  fromItems _ _ _ items := return (value, items)

/-- The fields of a function and of its argument. -/
def apply {α β : Type} (f : Shape (α → β)) (a : Shape α) : Shape β where
  probes := f.probes ++ a.probes
  fromMembers mode members := do
    let g ← f.fromMembers mode members
    return g (← a.fromMembers mode members)
  fromItems mode tooShort index items := do
    let (g, rest) ← f.fromItems mode tooShort index items
    let (x, rest) ← a.fromItems mode tooShort (index + f.probes.length) rest
    return (g x, rest)

instance : Applicative Shape where
  pure := empty
  seq f a := apply f (a ())

/-- The members that are fields, each checked where it stands; other members are stepped
over.
-/
def sift {α : Type} (shape : Shape α) (mode : Mode)
    : (seen : List String) → List (Except SyntaxError String × Draft)
      → Decoded (List (String × Draft))
  | _, [] => return []
  | seen, (key, item) :: members => do
      let key ← Decoder.name key
      match Named.get? key shape.probes with
      | none => do
          sound item.skip
          sift shape mode seen members
      | some probe =>
          if seen.contains key then throw (.duplicateField key)
          else do
            probe mode item
            return (key, item) :: (← sift shape mode (key :: seen) members)

/-- The wording of a number of elements. -/
def elements (n : Nat) : String :=
  if n == 1 then "1 element" else toString n ++ " elements"

/-- The structure from its members. -/
def decodeMembers {α : Type} (shape : Shape α) (mode : Mode)
    (members : List (Except SyntaxError String × Draft)) (closing : Option Breach)
    : Decoded α := do
  let fields ← shape.sift mode [] members
  Decoder.closed closing
  shape.fromMembers mode fields

/-- The structure from a list of its fields in order; `title` names it. -/
def decodeItems {α : Type} (shape : Shape α) (title : String) (mode : Mode)
    (items : List Draft) (closing : Option Breach) : Decoded α := do
  let short n :=
    .invalidLength n (title ++ " with " ++ elements shape.probes.length)
  let (value, rest) ← shape.fromItems mode short 0 items
  match rest, mode.source, closing with
  | [], _, none => return value
  | [], _, some breach => throw (.damaged breach.used.atListEnd)
  | _, .text, _ => throw (.damaged .trailingCharacters)
  | _, .tree, _ => throw (.invalidLength items.length "fewer elements in array")

/-- A structure, as a record of its fields or as a list of them in order. -/
def decode {α : Type} (title : String) (shape : Shape α) : Decoder α := fun mode draft =>
  match draft with
  | .object members closing => do
      Decoder.opens mode
      shape.decodeMembers mode.inner members closing
  | .array items closing => do
      Decoder.opens mode
      shape.decodeItems title mode.inner items closing
  | draft => Decoder.mismatch title draft

end Shape

mutual

/-- The number of levels of a value. -/
def depth : Json → Nat
  | .array items => depthItems items + 1
  | .object members => depthMembers members + 1
  | _ => 0

/-- The number of levels of the deepest item. -/
def depthItems : List Json → Nat
  | [] => 0
  | item :: items => max (depth item) (depthItems items)

/-- The number of levels of the deepest member. -/
def depthMembers : List (String × Json) → Nat
  | [] => 0
  | (_, value) :: members => max (depth value) (depthMembers members)

end

/-- Reads a typed value from a text that holds nothing else. -/
def decodeText {α : Type} (decoder : Decoder α) (text : String) : Decoded α := do
  let doc := document text
  let value ← decoder ⟨.text, depthLimit⟩ doc.root
  if doc.trailing then throw (.damaged .trailingCharacters)
  return value

/-- Reads a typed value from a value in memory. -/
def decodeTree {α : Type} (decoder : Decoder α) (value : Json) : Decoded α :=
  decoder ⟨.tree, value.depth⟩ value.toDraft

end Harvest.Json
