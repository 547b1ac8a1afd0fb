import Harvest.Json.Decoder
import Harvest.Proofs.Json.Printed
import Harvest.Proofs.Named

/-! Values that come from texts. Every value that is read from a text is proper and nests no
deeper than the reader allows, and a proper value comes back from its own text.
-/

namespace Harvest.Json

-----------------------------------------------------------------------------------------
-- Items and members
-----------------------------------------------------------------------------------------

/-- Items are proper when each of them is. -/
theorem properItems_iff {items : List Json}
    : ProperItems items ↔ ∀ item ∈ items, item.Proper := by
  induction items with
  | nil => simp [ProperItems]
  | cons item items ih => simp [ProperItems, ih]

/-- Members are proper when each value is. -/
theorem properMembers_iff {members : List (String × Json)}
    : ProperMembers members ↔ ∀ member ∈ members, member.2.Proper := by
  induction members with
  | nil => simp [ProperMembers]
  | cons member members ih => simp [ProperMembers, ih]

/-- Items have some levels at most when each of them does. -/
theorem depthItems_le {items : List Json} {room : Nat}
    : depthItems items ≤ room ↔ ∀ item ∈ items, item.depth ≤ room := by
  induction items with
  | nil => simp [depthItems]
  | cons item items ih => simp [depthItems, ih]

/-- Members have some levels at most when each value does. -/
theorem depthMembers_le {members : List (String × Json)} {room : Nat}
    : depthMembers members ≤ room ↔ ∀ member ∈ members, member.2.depth ≤ room := by
  induction members with
  | nil => simp [depthMembers]
  | cons member members ih => simp [depthMembers, ih]

/-- Members read back under their names. -/
theorem rereadMembers_eq (members : List (String × Json))
    : rereadMembers members = members.map fun (name, value) => (name, value.reread) := by
  induction members with
  | nil => rfl
  | cons member members ih => rw [rereadMembers, ih, List.map_cons]

/-- The names of members stay when their values are read back. -/
theorem names_rereadMembers (members : List (String × Json))
    : (rereadMembers members).map (·.1) = members.map (·.1) := by
  rw [rereadMembers_eq, List.map_map]
  rfl

-----------------------------------------------------------------------------------------
-- Values that are kept exactly
-----------------------------------------------------------------------------------------

/-- The number comes back from its own text. -/
def Number.Exact (n : Number) : Prop := n.reread = n

instance (n : Number) : Decidable n.Exact := inferInstanceAs (Decidable (n.reread = n))

example
    : (Number.real ⟨false, ⟨2 ^ 52, -53⟩⟩).text = "0.5"
      ∧ (Number.real ⟨false, ⟨2 ^ 52, -53⟩⟩).Exact := by
  decide +kernel

mutual

/-- The real numbers that occur in a value. -/
def reals : Json → List Decimal.Binary64
  | .number (.real x) => [x]
  | .array items => realsItems items
  | .object members => realsMembers members
  | _ => []

/-- The real numbers that occur in items. -/
def realsItems : List Json → List Decimal.Binary64
  | [] => []
  | item :: items => reals item ++ realsItems items

/-- The real numbers that occur in the values of members. -/
def realsMembers : List (String × Json) → List Decimal.Binary64
  | [] => []
  | (_, value) :: members => reals value ++ realsMembers members

end

/-- Items hold no real numbers when none of them does, by induction over them. -/
theorem realsItems_eq_nil {items : List Json} (none : ∀ item ∈ items, item.reals = [])
    : realsItems items = [] := by
  induction items with
  | nil => rfl
  | cons item items ih =>
      obtain ⟨here, there⟩ := List.forall_mem_cons.mp none
      rw [realsItems, here, ih there, List.append_nil]

/-- Strings hold no real numbers. -/
theorem realsItems_strings (texts : List String) : realsItems (texts.map .string) = [] :=
  realsItems_eq_nil (by simp [reals])

/-- A number occurs in members when it occurs in the value of one, by induction over them. -/
theorem mem_realsMembers {members : List (String × Json)} {x : Decimal.Binary64}
    : x ∈ realsMembers members ↔ ∃ member ∈ members, x ∈ member.2.reals := by
  induction members with
  | nil => simp [realsMembers]
  | cons member members ih => simp [realsMembers, ih]

mutual

/-- A value comes back from its own text when its real numbers do. -/
theorem reread_of_exact
    : (value : Json) → (∀ x ∈ value.reals, (Number.real x).Exact) → value.reread = value
  | .null, _ | .bool _, _ | .string _, _ | .number (.whole _), _ => rfl
  | .number (.real x), exact => congrArg Json.number (exact x List.mem_cons_self)
  | .array items, exact => congrArg Json.array (rereadItems_of_exact items exact)
  | .object members, exact => congrArg Json.object (rereadMembers_of_exact members exact)

/-- Items come back when their real numbers do. -/
theorem rereadItems_of_exact
    : (items : List Json)
      → (∀ x ∈ realsItems items, (Number.real x).Exact)
      → rereadItems items = items
  | [], _ => rfl
  | item :: items, exact => by
      obtain ⟨here, later⟩ := List.forall_mem_append.mp exact
      rw [rereadItems, reread_of_exact item here, rereadItems_of_exact items later]

/-- Members come back when the real numbers in their values do. -/
theorem rereadMembers_of_exact
    : (members : List (String × Json))
      → (∀ x ∈ realsMembers members, (Number.real x).Exact)
      → rereadMembers members = members
  | [], _ => rfl
  | (_, value) :: members, exact => by
      obtain ⟨here, later⟩ := List.forall_mem_append.mp exact
      rw [rereadMembers, reread_of_exact value here, rereadMembers_of_exact members later]

end

-----------------------------------------------------------------------------------------
-- Reading back
-----------------------------------------------------------------------------------------

mutual

/-- What a proper value reads back as has as many levels. -/
theorem depth_reread : (value : Json) → value.reread.depth = value.depth
  | .null | .bool _ | .number _ | .string _ => rfl
  | .array items => by rw [reread, depth, depth, depthItems_reread items]
  | .object members => by rw [reread, depth, depth, depthMembers_reread members]

/-- What items read back as has as many levels. -/
theorem depthItems_reread : (items : List Json) → depthItems (rereadItems items) = depthItems items
  | [] => rfl
  | item :: items => by
      rw [rereadItems, depthItems, depthItems, depth_reread item, depthItems_reread items]

/-- What members read back as has as many levels. -/
theorem depthMembers_reread
    : (members : List (String × Json)) → depthMembers (rereadMembers members) = depthMembers members
  | [] => rfl
  | (_, value) :: members => by
      rw [rereadMembers, depthMembers, depthMembers, depth_reread value,
        depthMembers_reread members]

end

mutual

/-- What a proper value reads back as is proper. -/
theorem proper_reread : (value : Json) → value.Proper → value.reread.Proper
  | .null, _ | .bool _, _ | .string _, _ => trivial
  | .number _, proper => proper.reread
  | .array items, proper => properItems_reread items proper
  | .object members, ⟨distinct, proper⟩ =>
      ⟨(names_rereadMembers members).symm ▸ distinct, properMembers_reread members proper⟩

/-- What proper items read back as is proper. -/
theorem properItems_reread
    : (items : List Json) → ProperItems items → ProperItems (rereadItems items)
  | [], _ => trivial
  | item :: items, ⟨first, others⟩ => ⟨proper_reread item first, properItems_reread items others⟩

/-- What proper members read back as is proper. -/
theorem properMembers_reread
    : (members : List (String × Json)) → ProperMembers members
      → ProperMembers (rereadMembers members)
  | [], _ => trivial
  | (_, value) :: members, ⟨first, others⟩ =>
      ⟨proper_reread value first, properMembers_reread members others⟩

end

mutual

/-- The draft of a proper value is read as that value where there is room for its levels. -/
theorem value_toDraft : (value : Json) → value.Proper → {room : Nat} → value.depth ≤ room
    → value.toDraft.value room = .ok value
  | .null, _, _, _ | .bool _, _, _, _ | .number _, _, _, _ | .string _, _, _, _ => rfl
  | .array items, proper, room, enough => by
      rw [depth] at enough
      have some' : (room == 0) = false := beq_false_of_ne (by omega)
      rw [toDraft, Draft.value, some', value_toDrafts items proper (show _ ≤ room - 1 by omega)]
      rfl
  | .object members, ⟨distinct, proper⟩, room, enough => by
      rw [depth] at enough
      have some' : (room == 0) = false := beq_false_of_ne (by omega)
      rw [toDraft, Draft.value, some',
        value_toDraftMembers members proper (show _ ≤ room - 1 by omega)]
      change Except.ok (Json.object (Named.collect members)) = _
      rw [Named.collect_eq distinct]

/-- The drafts of proper items are read as those items. -/
theorem value_toDrafts : (items : List Json) → ProperItems items → {room : Nat}
    → depthItems items ≤ room → Draft.valueItems room (toDrafts items) = .ok items
  | [], _, _, _ => rfl
  | item :: items, ⟨first, others⟩, room, enough => by
      rw [depthItems, max_le_iff] at enough
      rw [toDrafts, Draft.valueItems, value_toDraft item first enough.1,
        value_toDrafts items others enough.2]
      rfl

/-- The drafts of proper members are read as those members. -/
theorem value_toDraftMembers : (members : List (String × Json)) → ProperMembers members
    → {room : Nat} → depthMembers members ≤ room
    → Draft.valueMembers room (toDraftMembers members) = .ok members
  | [], _, _, _ => rfl
  | (_, value) :: members, ⟨first, others⟩, room, enough => by
      rw [depthMembers, max_le_iff] at enough
      rw [toDraftMembers, Draft.valueMembers, value_toDraft value first enough.1,
        value_toDraftMembers members others enough.2]
      rfl

end

mutual

/-- A value in memory can be stepped over. -/
theorem skip_toDraft : (value : Json) → value.toDraft.skip = .ok ()
  | .null | .bool _ | .number _ | .string _ => rfl
  | .array items => by
      rw [toDraft, Draft.skip, skipItems_toDrafts items]
      rfl
  | .object members => by
      rw [toDraft, Draft.skip, skipMembers_toDraftMembers members]
      rfl

theorem skipItems_toDrafts : (items : List Json) → Draft.skipItems (toDrafts items) = .ok ()
  | [] => rfl
  | item :: items => by
      rw [toDrafts, Draft.skipItems, skip_toDraft item]
      exact skipItems_toDrafts items

theorem skipMembers_toDraftMembers
    : (members : List (String × Json)) → Draft.skipMembers (toDraftMembers members) = .ok ()
  | [] => rfl
  | (_, value) :: members => by
      rw [toDraftMembers, Draft.skipMembers, skip_toDraft value]
      exact skipMembers_toDraftMembers members

end

/-- A proper value comes back from its text, up to the reading of its real numbers. -/
theorem parse_compact {value : Json} (proper : value.Proper) (shallow : value.depth ≤ depthLimit)
    : parse value.compact = .ok value.reread := by
  have read := value_toDraft _ (proper_reread value proper) ((depth_reread value).trans_le shallow)
  rw [parse, document_compact proper, read]
  rfl

end Harvest.Json
