import Harvest.Proofs.Except
import Harvest.Proofs.Json.Proper
import Harvest.Proofs.Json.Sources

/-! Values that are read from drafts. Whatever is read from what a text says is proper, and nests
no deeper than there was room for.
-/

namespace Harvest

namespace Json

/-- The value is proper and has no more levels than there is room for. -/
def Fits (room : Nat) (value : Json) : Prop := value.Proper ∧ value.depth ≤ room

/-- No name stands twice, and every value fits. -/
structure Members.Fit (room : Nat) (members : Members) : Prop where
  distinct : (members.map (·.1)).Nodup
  fit : ∀ member ∈ members, member.2.Fits room

/-- A value that fits also fits where there is more room. -/
theorem Fits.mono {room more : Nat} {value : Json} (fits : value.Fits room) (le : room ≤ more)
    : value.Fits more :=
  ⟨fits.1, fits.2.trans le⟩

/-- Members that fit also fit where there is more room. -/
theorem Members.Fit.mono {room more : Nat} {members : Members} (fit : members.Fit room)
    (le : room ≤ more)
    : members.Fit more :=
  ⟨fit.distinct, fun member here => (fit.fit member here).mono le⟩

/-- What a value that fits reads back as fits. -/
theorem Fits.reread {room : Nat} {value : Json} (fits : value.Fits room) : value.reread.Fits room :=
  ⟨proper_reread value fits.1, (depth_reread value).trans_le fits.2⟩

/-- What members that fit read back as fit. -/
theorem Members.Fit.reread {room : Nat} {members : Members} (fit : members.Fit room)
    : Members.Fit room (rereadMembers members) where
  distinct := (names_rereadMembers members).symm ▸ fit.distinct
  fit member here := by
    rw [rereadMembers_eq] at here
    obtain ⟨⟨name, value⟩, there, rfl⟩ := List.mem_map.mp here
    exact (fit.fit _ there).reread

/-- Collected members fit when each value that was collected does. -/
theorem fit_collect {room : Nat} {pairs : List (String × Json)}
    (fit : ∀ pair ∈ pairs, pair.2.Fits room)
    : Members.Fit room (Named.collect pairs) :=
  ⟨Named.nodup_collect pairs, fun pair member => fit pair (Named.mem_of_mem_collect member)⟩

/-- A list of items fits where there is room for it and its items. -/
theorem fits_array {room : Nat} {items : List Json} (space : room ≠ 0)
    (fit : ∀ item ∈ items, item.Fits (room - 1))
    : (Json.array items).Fits room := by
  refine ⟨properItems_iff.mpr fun item member => (fit item member).1, ?_⟩
  have inner : depthItems items ≤ room - 1 :=
    depthItems_le.mpr fun item member => (fit item member).2
  rw [depth]
  omega

/-- A list of strings fits on one level. -/
theorem fits_strings (texts : List String) : (array (texts.map .string)).Fits 1 := by
  refine fits_array one_ne_zero ?_
  simp [Fits, Proper, depth]

/-- Members fit as a value exactly where there is room for the value and its members. -/
theorem fits_object_iff {room : Nat} {members : Members}
    : (Json.object members).Fits room ↔ room ≠ 0 ∧ members.Fit (room - 1) := by
  constructor
  · rintro ⟨⟨distinct, proper⟩, shallow⟩
    rw [depth] at shallow
    have inner : depthMembers members ≤ room - 1 := by omega
    exact ⟨by omega, distinct, fun member here =>
      ⟨properMembers_iff.mp proper member here, depthMembers_le.mp inner member here⟩⟩
  · rintro ⟨space, distinct, fit⟩
    refine ⟨⟨distinct, properMembers_iff.mpr fun member here => (fit member here).1⟩, ?_⟩
    have inner : depthMembers members ≤ room - 1 :=
      depthMembers_le.mpr fun member here => (fit member here).2
    rw [depth]
    omega

mutual

/-- What is read of a proper draft fits. -/
theorem fits_value : (draft : Draft) → draft.Proper → {room : Nat} → {value : Json}
    → draft.value room = .ok value → value.Fits room
  | .null, _, _, _, read | .bool _, _, _, _, read => by
      cases read
      exact ⟨trivial, Nat.zero_le _⟩
  | .number (some n), proper, _, _, read => by
      cases read
      exact ⟨proper, Nat.zero_le _⟩
  | .string (.ok _), _, _, _, read => by
      cases read
      exact ⟨trivial, Nat.zero_le _⟩
  | .array items closing, proper, room, value, read => by
      rw [Draft.value] at read
      split at read
      · cases read
      · rename_i space
        obtain ⟨values, inner, read⟩ := bind_eq_ok.mp read
        cases closing with
        | some breach => cases read
        | none =>
            cases read
            exact fits_array (by simpa using space) (fits_valueItems items proper inner)
  | .object members closing, proper, room, value, read => by
      rw [Draft.value] at read
      split at read
      · cases read
      · rename_i space
        obtain ⟨values, inner, read⟩ := bind_eq_ok.mp read
        cases closing with
        | some breach => cases read
        | none =>
            cases read
            exact fits_object_iff.mpr ⟨by simpa using space,
              fit_collect (fits_valueMembers members proper inner)⟩
  | .number none, _, _, _, read | .string (.error _), _, _, _, read | .broken _, _, _, _, read => by
      cases read

/-- What is read of proper items fits. -/
theorem fits_valueItems : (items : List Draft) → Draft.ProperItems items → {room : Nat}
    → {values : List Json} → Draft.valueItems room items = .ok values
    → ∀ value ∈ values, value.Fits room
  | [], _, _, _, read => by
      cases read
      simp
  | item :: items, ⟨first, others⟩, room, values, read => by
      obtain ⟨value, here, read⟩ := bind_eq_ok.mp read
      obtain ⟨rest, there, read⟩ := bind_eq_ok.mp read
      cases read
      exact List.forall_mem_cons.mpr
        ⟨fits_value item first here, fits_valueItems items others there⟩

/-- What is read of proper members fits. -/
theorem fits_valueMembers : (members : List (Except SyntaxError String × Draft))
    → Draft.ProperMembers members → {room : Nat} → {values : Members}
    → Draft.valueMembers room members = .ok values → ∀ value ∈ values, value.2.Fits room
  | [], _, _, _, read => by
      cases read
      simp
  | (.error _, _) :: _, _, _, _, read => by cases read
  | (.ok name, item) :: members, ⟨first, others⟩, room, values, read => by
      obtain ⟨value, here, read⟩ := bind_eq_ok.mp read
      obtain ⟨rest, there, read⟩ := bind_eq_ok.mp read
      cases read
      exact List.forall_mem_cons.mpr
        ⟨fits_value item first here, fits_valueMembers members others there⟩

end

end Json

end Harvest
