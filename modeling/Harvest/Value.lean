import Harvest.Json.Decoder

/-! Values on the inputs and outputs of nodes. A browser never travels by value: its value
only marks that the shared browser of the run is meant.
-/

namespace Harvest

/-- A value on an input or output. -/
inductive TaskValue where
  | text (value : String)
  | list (items : List String)
  | structured (value : Json)
  | browser
deriving Repr, Inhabited

namespace TaskValue

/-- The texts of values that are all strings. -/
def strings? : List Json → Option (List String)
  | [] => some []
  | .string s :: rest => (strings? rest).map (s :: ·)
  | _ :: _ => none

/-- The value that a literal of the editor stands for; `null` stands for none. -/
def ofJson? : Json → Option TaskValue
  | .null => none
  | .string s => some (.text s)
  | .array items =>
      match strings? items with
      | some texts => some (.list texts)
      | none => some (.structured (.array items))
  | other => some (.structured other)

/-- The value counts as supplied: it is not empty. -/
def isProvided : TaskValue → Bool
  | .text s => !s.isEmpty
  | .list items => !items.isEmpty
  | .structured v => !v.isNull
  | .browser => true

/-- The text of a text value. -/
def asText? : TaskValue → Option String
  | .text s => some s
  | _ => none

/-- The value as data; a text is read as a document. -/
def toData? : TaskValue → Option Json
  | .text s => Json.parse? s
  | .list items => some (.array (items.map .string))
  | .structured v => some v
  | .browser => none

/-- The text in which the value is kept. -/
def kept : TaskValue → String
  | .text s => s
  | .list items => (Json.array (items.map .string)).compact
  | .structured v => v.compact
  | .browser => "[browser]"

/-- A value under the name of its kind. -/
def toJson : TaskValue → Json
  | .text s => .object [("kind", .string "string"), ("value", .string s)]
  | .list items =>
      .object [("kind", .string "array"), ("value", .array (items.map .string))]
  | .structured v => .object [("kind", .string "structured"), ("value", v)]
  | .browser => .object [("kind", .string "browser_handle")]

/-- Reads what must come with a kind. -/
def carried (read : Json.Decoder TaskValue) (mode : Json.Mode)
    : Option Json.Draft → Json.Decoded TaskValue
  | some draft => read mode draft
  | none => throw (.missingField "value")

/-- Reads what may come with the browser kind: nothing, or an empty value. -/
def uncarried : Option Json.Draft → Json.Decoded TaskValue
  | none => return .browser
  | some .null => return .browser
  | some draft => Json.Decoder.mismatch "unit variant TaskValue::BrowserHandle" draft

/-- The names of the kinds, each with the reader of what comes with it. -/
def kinds : List (String × (Json.Mode → Option Json.Draft → Json.Decoded TaskValue)) :=
  [("string", carried fun mode draft => text <$> Json.Decoder.string mode draft),
   ("array", carried fun mode draft => list <$> Json.Decoder.list .string mode draft),
   ("structured", carried fun mode draft => structured <$> Json.Decoder.any mode draft),
   ("browser_handle", fun _ content => uncarried content)]

/-- The members of a tagged value that count: the kind and what comes with it. -/
def tagParts (mode : Json.Mode)
    : List (Except Json.SyntaxError String × Json.Draft)
      → Option Json.Draft → Option Json.Draft
      → Json.Decoded (Option Json.Draft × Option Json.Draft)
  | [], kind, content => return (kind, content)
  | (key, item) :: members, kind, content => do
      let key ← Json.Decoder.name key
      if key == "kind" then
        if kind.isSome then throw (.duplicateField "kind")
        tagParts mode members (some item) content
      else if key == "value" then
        if content.isSome then throw (.duplicateField "value")
        tagParts mode members kind (some item)
      else do
        Json.sound item.skip
        tagParts mode members kind content

/-- How the reader names what it expects. -/
def title : String := "adjacently tagged enum TaskValue"

/-- Reads a value under the name of its kind, as a record or as a pair. -/
def decode : Json.Decoder TaskValue := fun mode draft =>
  match draft with
  | .object members closing => do
      Json.Decoder.opens mode
      let (kind, content) ← tagParts mode members none none
      Json.Decoder.closed closing
      match kind with
      | none => throw (.missingField "kind")
      | some kind =>
          let read ← Json.Decoder.variant kinds mode.inner kind
          read mode.inner content
  | .array items closing => do
      Json.Decoder.opens mode
      match items with
      | [] => throw (.invalidLength 0 title)
      | [kind] =>
          let _ ← Json.Decoder.variant kinds mode.inner kind
          throw (.invalidLength 1 title)
      | kind :: content :: rest =>
          let read ← Json.Decoder.variant kinds mode.inner kind
          let value ← read mode.inner (some content)
          match rest, mode.source with
          | [], _ => Json.Decoder.closed closing
          | _, .text => throw (.damaged .trailingCharacters)
          | _, .tree => throw (.invalidLength items.length "fewer elements in array")
          return value
  | draft => Json.Decoder.mismatch title draft

end TaskValue

end Harvest
