import Harvest.Named
import Mathlib.Data.List.Nodup

/-! Looking up named values. A value that is put under a name is the one found there, the other
names keep theirs, and no name stands twice.
-/

namespace Harvest.Named

variable {α β : Type} {name key : String} {value : α} {entries : List (String × α)}

/-- The value that was put under a name is found there, and other names keep theirs, by
induction over the list.
-/
theorem get?_put (name key : String) (value : α) (entries : List (String × α))
    : get? key (put name value entries) = if name = key then some value else get? key entries := by
  induction entries with
  | nil => simp [put, get?]
  | cons entry entries ih =>
      obtain ⟨other, old⟩ := entry
      by_cases same : other = name
      · subst same
        by_cases wanted : other = key <;> simp [put, get?, wanted]
      · by_cases wanted : other = key
        · subst wanted
          simp [put, get?, same, Ne.symm same]
        · simp [put, get?, same, wanted, ih]

/-- The names after a value was put: a new name comes last, by induction over the list. -/
theorem names_put (name : String) (value : α) (entries : List (String × α))
    : (put name value entries).map (·.1)
      = if name ∈ entries.map (·.1) then entries.map (·.1) else entries.map (·.1) ++ [name] := by
  induction entries with
  | nil => simp [put]
  | cons entry entries ih =>
      obtain ⟨other, old⟩ := entry
      by_cases same : other = name
      · simp [put, same]
      · have apart : name ≠ other := Ne.symm same
        simp only [put, beq_iff_eq, same, if_false, List.map_cons, ih, List.mem_cons, apart,
          false_or]
        split_ifs <;> rfl

/-- Putting a value leaves each name standing once. -/
theorem nodup_put (nodup : (entries.map (·.1)).Nodup) (name : String) (value : α)
    : ((put name value entries).map (·.1)).Nodup := by
  rw [names_put]
  split_ifs with there
  · exact nodup
  · exact List.concat_eq_append ▸ nodup.concat there

/-- What stands in a list after a value was put is that value or stood there before, by
induction over the list.
-/
theorem mem_put {entry : String × α} (member : entry ∈ put name value entries)
    : entry = (name, value) ∨ entry ∈ entries := by
  induction entries with
  | nil => simpa [put] using member
  | cons first entries ih =>
      obtain ⟨other, old⟩ := first
      simp only [put] at member
      split_ifs at member with same
      · rw [beq_iff_eq.mp same, List.mem_cons] at member
        rcases member with here | rest
        · exact Or.inl here
        · exact Or.inr (List.mem_cons_of_mem _ rest)
      · rcases List.mem_cons.mp member with here | rest
        · exact Or.inr (here ▸ List.mem_cons_self)
        · rcases ih rest with here | there
          · exact Or.inl here
          · exact Or.inr (List.mem_cons_of_mem _ there)

/-- A new name is put last, by induction over the list. -/
theorem put_of_notMem (value : α) (new : name ∉ entries.map (·.1))
    : put name value entries = entries ++ [(name, value)] := by
  induction entries with
  | nil => rfl
  | cons entry entries ih =>
      obtain ⟨other, old⟩ := entry
      simp only [List.map_cons, List.mem_cons, not_or] at new
      have apart : (other == name) = false := beq_false_of_ne (Ne.symm new.1)
      simp [put, apart, ih new.2]

/-- A value that is found stands in the list, by induction over it. -/
theorem mem_of_get? (found : get? name entries = some value) : (name, value) ∈ entries := by
  induction entries with
  | nil => cases found
  | cons entry entries ih =>
      obtain ⟨other, old⟩ := entry
      simp only [get?] at found
      split_ifs at found with same
      · obtain rfl := Option.some.inj found
        exact beq_iff_eq.mp same ▸ List.mem_cons_self
      · exact List.mem_cons_of_mem _ (ih found)

/-- A value is found under a name that stands once exactly when it stands there, by induction over
the list.
-/
theorem get?_eq_some_iff (distinct : (entries.map (·.1)).Nodup)
    : get? name entries = some value ↔ (name, value) ∈ entries := by
  refine ⟨mem_of_get?, fun member => ?_⟩
  induction entries with
  | nil => cases member
  | cons entry entries ih =>
      obtain ⟨once, later⟩ := List.nodup_cons.mp distinct
      rcases List.mem_cons.mp member with rfl | there
      · simp [get?]
      · have apart : entry.1 ≠ name := fun same =>
          once (List.mem_map.mpr ⟨_, there, same.symm⟩)
        simp [get?, apart, ih later there]

/-- Named values in another order are found under the same names. -/
theorem get?_perm {one two : List (String × α)}
    (distinct : (one.map (·.1)).Nodup) (perm : one.Perm two) (name : String)
    : get? name one = get? name two := by
  refine Option.ext fun value => ?_
  rw [get?_eq_some_iff distinct, get?_eq_some_iff ((perm.map _).nodup_iff.mp distinct),
    perm.mem_iff]

/-- Values that are changed are found changed, by induction over the list. -/
theorem get?_map (f : α → β) (name : String) (entries : List (String × α))
    : get? name (entries.map fun (key, value) => (key, f value)) = (get? name entries).map f := by
  induction entries with
  | nil => rfl
  | cons entry entries ih =>
      obtain ⟨other, old⟩ := entry
      by_cases same : other = name <;> simp [get?, same, ih]

/-- No name stands twice among collected values, by induction over the pairs. -/
theorem nodup_collect (pairs : List (String × α)) : ((collect pairs).map (·.1)).Nodup := by
  suffices ∀ acc : List (String × α),
      (acc.map (·.1)).Nodup
      → ((pairs.foldl (fun acc (name, value) => put name value acc) acc).map (·.1)).Nodup from
    this [] List.nodup_nil
  induction pairs with
  | nil => exact fun acc nodup => nodup
  | cons pair pairs ih => exact fun acc nodup => ih _ (nodup_put nodup _ _)

/-- Collected values are some of the pairs, by induction over them. -/
theorem mem_of_mem_collect {pairs : List (String × α)} {entry : String × α}
    (member : entry ∈ collect pairs)
    : entry ∈ pairs := by
  suffices ∀ acc : List (String × α),
      entry ∈ pairs.foldl (fun acc (name, value) => put name value acc) acc
      → entry ∈ acc ∨ entry ∈ pairs by
    rcases this [] member with none' | here
    · cases none'
    · exact here
  clear member
  induction pairs with
  | nil => exact fun acc here => Or.inl here
  | cons pair pairs ih =>
      intro acc here
      rw [List.foldl_cons] at here
      rcases ih _ here with early | late
      · rcases mem_put early with rfl | old
        · exact Or.inr List.mem_cons_self
        · exact Or.inl old
      · exact Or.inr (List.mem_cons_of_mem _ late)

/-- Pairs without a name twice are collected as they are, by induction over them. -/
theorem collect_eq {pairs : List (String × α)} (nodup : (pairs.map (·.1)).Nodup)
    : collect pairs = pairs := by
  suffices ∀ acc : List (String × α),
      ((acc ++ pairs).map (·.1)).Nodup
      → pairs.foldl (fun acc (name, value) => put name value acc) acc = acc ++ pairs from
    this [] nodup
  induction pairs with
  | nil => simp
  | cons pair pairs ih =>
      intro acc apart
      obtain ⟨name, value⟩ := pair
      have new : name ∉ acc.map (·.1) := by
        simp only [List.map_append, List.map_cons] at apart
        exact fun there => (List.nodup_append.mp apart).2.2 name there name List.mem_cons_self rfl
      have step : put name value acc = acc ++ [(name, value)] := put_of_notMem value new
      simp only [List.foldl_cons, step]
      rw [ih (List.nodup_cons.mp nodup).2 _ (by simpa using apart)]
      simp

/-- A value is found in the first of two lists that has one under the name, by induction over the
first.
-/
theorem get?_append (name : String) (front back : List (String × α))
    : get? name (front ++ back) = (get? name front).or (get? name back) := by
  induction front with
  | nil => rfl
  | cons entry front ih =>
      obtain ⟨other, old⟩ := entry
      by_cases same : other = name <;> simp [get?, same, ih]

/-- A value that is made from its name is found where the name is listed, by induction over the
names.
-/
theorem get?_filterMap (value : String → Option α) (name : String) (names : List String)
    : get? name (names.filterMap fun key => (value key).map fun x => (key, x))
      = if name ∈ names then value name else none := by
  induction names with
  | nil => rfl
  | cons key names ih =>
      by_cases same : key = name
      · subst same
        cases made : value key with
        | none => simp [made, ih]
        | some x => simp [made, get?]
      · have apart : name ≠ key := Ne.symm same
        cases made : value key <;> simp [made, get?, same, apart, ih]

/-- Of pairs that are put one after another the last one under a name is found there, by
induction over them.
-/
theorem get?_foldl_put (name : String) (pairs acc : List (String × α))
    : get? name (pairs.foldl (fun acc (key, value) => put key value acc) acc)
      = (get? name pairs.reverse).or (get? name acc) := by
  induction pairs generalizing acc with
  | nil => rfl
  | cons pair pairs ih =>
      obtain ⟨key, value⟩ := pair
      rw [List.foldl_cons, ih, get?_put, List.reverse_cons, get?_append, Option.or_assoc]
      by_cases same : key = name <;> simp [get?, same]

/-- Of collected pairs the last one under a name is found there. -/
theorem get?_collect (name : String) (pairs : List (String × α))
    : get? name (collect pairs) = get? name pairs.reverse := by
  rw [collect, get?_foldl_put]
  cases get? name pairs.reverse <;> rfl

end Harvest.Named
