import Harvest.Proofs.Executor.Fields
import Harvest.Proofs.Executor.Parts

/-! What extracting fields comes to. However fields are spelled, the texts of all elements of each
field are written as one row a field, in the order of the fields, or nothing is written: where an
item describes no field, and where a text is no selector.
-/

namespace Harvest

open TaskM Markup

namespace Executor

-----------------------------------------------------------------------------------------
-- Rows
-----------------------------------------------------------------------------------------

/-- The row of a field: its name alone, over the texts of all elements that its selector selects. -/
inductive RowOf (d : Document) (field : Field) : Json → Prop where
  | intro {selector : Selector} (valid : Selector.ofText? field.selector = some selector)
      : RowOf d field
          (.object [(field.name,
            .array ((d.select selector).map fun n => .string (textOf d n)))])

/-- A row fits into a text on two levels, and holds no real numbers. -/
theorem RowOf.fits {d : Document} {field : Field} {row : Json} (of : RowOf d field row)
    : row.Fits 2 ∧ row.reals = [] := by
  obtain @⟨selector, valid⟩ := of
  have texts : ((d.select selector).map fun n => Json.string (textOf d n))
      = ((d.select selector).map (textOf d)).map .string := by
    rw [List.map_map]
    rfl
  rw [texts]
  constructor
  · refine Json.fits_object_iff.mpr ⟨two_ne_zero, by simp, ?_⟩
    exact List.forall_mem_singleton.mpr (Json.fits_strings _)
  · change Json.realsItems _ ++ [] = []
    rw [Json.realsItems_strings, List.append_nil]

namespace Headlines

/-- Two fields of a page. -/
def fields : List Field := [⟨"title", "#top"⟩, ⟨"a \"quoted\" name", "#news #lead"⟩]

def html : String := "<h1 id=top> News </h1><div id=news><p id=lead>One</p></div>"

/-- A node with the page and the text of the fields. -/
def work : Workspace where
  node := "n"
  inputs :=
    [(Slot.html, .text html),
      (Slot.fields, .text (Json.array (fields.map Field.toJson)).compact)]
  outputs := []
  browser := none
  page := none
  log := []

end Headlines

end Executor

end Harvest
