import Harvest.Executor.Extraction
import Harvest.Proofs.Json.Decoder

/-! The spellings of fields. A field is written as a record of its name and its selector or as a
list of the two, in a value or in a text; fields are written as a list of such values, of such
texts, or as the text of a list. All of them are read as the same fields, and nothing else is read.
-/

namespace Harvest

open Json

namespace Executor.Field

variable {f : Field}

-----------------------------------------------------------------------------------------
-- One field
-----------------------------------------------------------------------------------------

/-- The members of a field. -/
def names : List String := ["name", "selector"]

/-- The members of a record that are those of a field, where their names can be read. -/
def ownMembers (members : List (Except SyntaxError String × Draft)) : List (String × Draft) :=
  members.filterMap fun (key, item) =>
    match key with
    | .ok name => if name ∈ names then some (name, item) else none
    | .error _ => none

/-- A draft says the field: as a record that has both members once and others that can be stepped
over, or as a list of the two texts.
-/
inductive Written (f : Field) : Draft → Prop where
  | record {members : List (Except SyntaxError String × Draft)}
      (once : ((ownMembers members).map (·.1)).Nodup)
      (named : Named.get? "name" (ownMembers members) = some (.string (.ok f.name)))
      (selected : Named.get? "selector" (ownMembers members) = some (.string (.ok f.selector)))
      (others
        : ∀ member ∈ members, ∃ name, member.1 = .ok name ∧ (name ∉ names → member.2.skip = .ok ()))
      : Written f (.object members none)
  | pair : Written f (.array [.string (.ok f.name), .string (.ok f.selector)] none)

theorem isSome_probe (name : String)
    : (Named.get? name shape.probes).isSome = decide (name ∈ names) := by
  change (Named.get? name [("name", _), ("selector", _)]).isSome = _
  by_cases first : "name" = name
  · subst first
    rfl
  · by_cases second : "selector" = name
    · subst second
      rfl
    · simp [Named.get?, names, first, second, Ne.symm first, Ne.symm second]

/-- A text under the name of a member of a field is accepted. -/
theorem accepts_string {mode : Mode} {name : String} (own : name ∈ names) (s : String)
    : shape.Accepts mode (name, .string (.ok s)) := by
  have read : Decoder.string mode (.string (.ok s)) = .ok s := rfl
  refine Shape.accepts_of_read ?_ read
  rcases List.mem_cons.mp own with rfl | own
  · rfl
  · obtain rfl := List.mem_singleton.mp own
    rfl

/-- A member that is no field's does not stand in the way if it can be stepped over. -/
theorem passes_of_foreign {mode : Mode} {name : String} {item : Draft} (foreign : name ∉ names)
    (steps : item.skip = .ok ())
    : shape.Passes mode (.ok name, item) := by
  have unknown := isSome_probe name
  rw [decide_eq_false foreign] at unknown
  exact .other (Option.isNone_iff_eq_none.mp (Option.isSome_eq_false_iff.mp unknown)) steps

/-- No member of a record that says a field stands in the way. -/
theorem Written.passes {mode : Mode} {members : List (Except SyntaxError String × Draft)}
    {closing : Option Breach} (written : Written f (.object members closing))
    : ∀ member ∈ members, shape.Passes mode member := by
  obtain ⟨once, named, selected, others⟩ | _ := written
  rintro ⟨key, item⟩ among
  obtain ⟨name, rfl, steps⟩ := others _ among
  by_cases own : name ∈ names
  · have kept : (name, item) ∈ ownMembers members :=
      List.mem_filterMap.mpr ⟨_, among, by simp [own]⟩
    have found := (Named.get?_eq_some_iff once).mpr kept
    refine .field ?_
    rcases List.mem_cons.mp own with rfl | own'
    · obtain rfl := Option.some.inj (found.symm.trans named)
      exact accepts_string own f.name
    · obtain rfl := List.mem_singleton.mp own'
      obtain rfl := Option.some.inj (found.symm.trans selected)
      exact accepts_string own f.selector
  · exact passes_of_foreign own (steps own)

/-- A value says the field: as a record that has both members once and perhaps others, or as a list
of the two texts.
-/
inductive Shown (f : Field) : Json → Prop where
  | record {members : Members}
      (once : ((members.filter (·.1 ∈ names)).map (·.1)).Nodup)
      (named : Named.get? "name" members = some (.string f.name))
      (selected : Named.get? "selector" members = some (.string f.selector))
      : Shown f (.object members)
  | pair : Shown f (.array [.string f.name, .string f.selector])

/-- An item describes the field: it says it, or it is a text that does and nothing else. -/
inductive Describes (f : Field) : Json → Prop where
  | value {item : Json} (shown : Shown f item) : Describes f item
  | text {text : String} (whole : (document text).trailing = false)
      (written : Written f (document text).root)
      : Describes f (.string text)

/-- The value spells the fields: as data it is a list whose items describe them in order. -/
def Spells (fields : List Field) (value : TaskValue) : Prop :=
  ∃ items, value.toData? = some (.array items) ∧ List.Forall₂ Describes fields items

/-- A field as a record of its members. -/
def toJson (f : Field) : Json :=
  .object [("name", .string f.name), ("selector", .string f.selector)]

/-- The literals for a list of values: the list, the list of their texts, and the text of the list.
-/
def spellings (items : List Json) : List Json :=
  [.array items, .array (items.map fun item => .string item.compact),
    .string (Json.array items).compact]

/-- What a value reads back as says the same field. -/
theorem Shown.reread {value : Json} (shown : Shown f value) : Shown f value.reread := by
  cases shown with
  | record once named selected =>
      rw [Json.reread, rereadMembers_eq]
      refine .record ?_ ?_ ?_
      · rw [List.filter_map, List.map_map]
        exact once
      · rw [Named.get?_map, named]
        rfl
      · rw [Named.get?_map, selected]
        rfl
  | pair => exact .pair

end Executor.Field

end Harvest
