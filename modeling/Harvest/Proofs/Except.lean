import Mathlib.Data.List.Forall2

/-! Parts that may be refused: what succeeded was made of parts that succeeded. -/

namespace Harvest

variable {ε α β : Type}

/-- A part that succeeds is followed by what succeeds from its value. -/
theorem bind_eq_ok {first : Except ε α} {next : α → Except ε β} {value : β}
    : (first >>= next) = .ok value ↔ ∃ middle, first = .ok middle ∧ next middle = .ok value := by
  cases first with
  | error reason => simp [bind, Except.bind]
  | ok middle => simp [bind, Except.bind]

/-- A value is made of a part exactly when the part succeeds with what it is made of. -/
theorem map_eq_ok {make : α → β} {part : Except ε α} {value : β}
    : make <$> part = .ok value ↔ ∃ other, part = .ok other ∧ make other = value := by
  cases part with
  | error reason => simp [Functor.map, Except.map]
  | ok other => simp [Functor.map, Except.map]

/-- A part has a value only when it succeeds with it. -/
theorem eq_ok_of_toOption {part : Except ε α} {value : α} (has : part.toOption = some value)
    : part = .ok value := by
  cases part with
  | error reason => cases has
  | ok other => exact congrArg _ (Option.some.inj has)

/-- What stands in the second of two lists in step belongs to something in the first, by induction
over the pairs.
-/
theorem exists_of_forall₂ {related : α → β → Prop} {items : List α} {values : List β}
    (pairs : List.Forall₂ related items values) {value : β} (member : value ∈ values)
    : ∃ item ∈ items, related item value := by
  induction pairs with
  | nil => cases member
  | @cons item first items others here _ ih =>
      rcases List.mem_cons.mp member with rfl | later
      · exact ⟨item, List.mem_cons_self, here⟩
      · obtain ⟨other, among, there⟩ := ih later
        exact ⟨other, List.mem_cons_of_mem _ among, there⟩

/-- A list of parts succeeds when each part does, by induction over the list. -/
theorem forall₂_of_mapM {part : α → Except ε β} {items : List α} {values : List β}
    (succeeds : items.mapM part = .ok values)
    : List.Forall₂ (fun item value => part item = .ok value) items values := by
  induction items generalizing values with
  | nil =>
      cases succeeds
      exact .nil
  | cons item items ih =>
      rw [List.mapM_cons] at succeeds
      obtain ⟨first, here, succeeds⟩ := bind_eq_ok.mp succeeds
      obtain ⟨others, there, succeeds⟩ := bind_eq_ok.mp succeeds
      cases succeeds
      exact .cons here (ih there)

/-- What each part determines of its value is determined of the list, by induction over the
pairs.
-/
theorem map_eq_of_mapM {γ : Type} {part : α → Except ε β} {items : List α} {values : List β}
    (given : α → γ) (shown : β → γ) (succeeds : items.mapM part = .ok values)
    (each : ∀ item ∈ items, ∀ value, part item = .ok value → shown value = given item)
    : values.map shown = items.map given := by
  have pairs := forall₂_of_mapM succeeds
  clear succeeds
  induction pairs with
  | nil => rfl
  | cons here _ ih =>
      rw [List.map_cons, List.map_cons, each _ List.mem_cons_self _ here,
        ih fun item member => each item (List.mem_cons_of_mem _ member)]

/-- Each value of a list of parts that succeed is the value of one of them. -/
theorem exists_of_mapM {part : α → Except ε β} {items : List α} {values : List β}
    (succeeds : items.mapM part = .ok values) {value : β} (member : value ∈ values)
    : ∃ item ∈ items, part item = .ok value :=
  exists_of_forall₂ (forall₂_of_mapM succeeds) member

end Harvest
