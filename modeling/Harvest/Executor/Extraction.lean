import Harvest.Executor.Basic
import Harvest.Markup.Page
import Harvest.Markup.Selector.Match
import Harvest.Markup.Selector.Reader

/-! The extraction of texts from pages. One task takes the first element that a selector selects,
the other all elements of each of its fields.
-/

namespace Harvest.Executor

open TaskM Markup

/-- The text of a node without its blank margins. -/
def textOf (d : Document) (n : NodeId) : String := Text.trim (d.text n)

/-- What is wrong with a text that is no selector. -/
def selectorFault : String := "it does not select elements"

/-- The wording for a text that is no selector. -/
def noSelector (selector : String) : String :=
  "Invalid selector " ++ selector ++ ": " ++ selectorFault

/-- Extracts the text of the first element that the selector on an input selects. -/
def extractText : Executor := do
  let some page ← requireText Slot.html | return false
  let some selector ← requireText Slot.selector | return false
  match Selector.ofText? selector with
  | none => refuse (noSelector selector)
  | some found =>
      let d := Document.ofPage page
      match d.select found with
      | [] => refuse "Element not found"
      | n :: _ =>
          let text := textOf d n
          if text.isEmpty then refuse "Element has no text"
          else
            outputText Slot.extractedText text
            return true

/-- A field to be extracted: a name and a selector. -/
structure Field where
  name : String
  selector : String
deriving DecidableEq, Repr

/-- How a field is written. -/
def Field.shape : Json.Shape Field :=
  Field.mk <$> .required "name" .string <*> .required "selector" .string

/-- Reads a field. -/
def Field.decode : Json.Decoder Field := Field.shape.decode "struct Field"

/-- The field that an item describes, directly or in a text that holds the value. -/
def Field.ofItem? : Json → Option Field
  | .string text => (Json.decodeText Field.decode text).toOption
  | other => (Json.decodeTree Field.decode other).toOption

/-- The fields that a value describes; one item that describes none spoils them all. -/
def Field.listOf? (value : TaskValue) : Option (List Field) :=
  match value.toData? with
  | some (.array items) => items.mapM Field.ofItem?
  | _ => none

/-- The texts of each field under its name, or the first text that is no selector. -/
def extractFields (d : Document) (fields : List Field) : Except String Json :=
  return .array (← fields.mapM fun field =>
    match Selector.ofText? field.selector with
    | some selector =>
        .ok (.object [(field.name,
          .array ((d.select selector).map fun n => .string (textOf d n)))])
    | none => .error field.selector)

/-- Extracts the texts of all elements of each field on an input. -/
def extractMultiple : Executor := do
  let some page ← inputText? Slot.html | refuse "Html not defined"
  let some value ← input? Slot.fields | refuse "Fields not defined"
  match (Field.listOf? value).filter (!·.isEmpty) with
  | none => refuse "Fields is not an array or is empty"
  | some fields =>
      match extractFields (.ofPage page) fields with
      | .error selector => refuse (noSelector selector)
      | .ok data =>
          info ("Extracted " ++ toString fields.length ++ " fields")
          outputText Slot.extractedData data.compact
          return true

end Harvest.Executor
