import Harvest.Csv.Row
import Harvest.Proofs.Json.Printed
import Harvest.Proofs.Named
import Mathlib.Data.Set.Function

/-! The row of an object against the object. Each value in it that is not an object again has a
column of its own, which is named after the way that leads to it, and there are no other columns.
-/

namespace Harvest.Csv

-----------------------------------------------------------------------------------------
-- Ways through an object
-----------------------------------------------------------------------------------------

/-- The names along the way to a value that is not an object, through objects alone. -/
inductive Leads : Json.Members → List String → Json → Prop where
  | here {members : Json.Members} {name : String} {leaf : Json}
      (member : (name, leaf) ∈ members) (single : ∀ nested, leaf ≠ .object nested)
      : Leads members [name] leaf
  | inside {members nested : Json.Members} {name : String} {path : List String} {leaf : Json}
      (member : (name, .object nested) ∈ members) (leads : Leads nested path leaf)
      : Leads members (name :: path) leaf

/-- A name that is reached through objects alone. -/
inductive Reaches : Json.Members → String → Prop where
  | here {members : Json.Members} {name : String} {value : Json}
      (member : (name, value) ∈ members)
      : Reaches members name
  | inside {members nested : Json.Members} {outer name : String}
      (member : (outer, .object nested) ∈ members) (reaches : Reaches nested name)
      : Reaches members name

/-- The names along a way are reached, by induction over it. -/
theorem Leads.reaches {members : Json.Members} {path : List String} {leaf : Json}
    (leads : Leads members path leaf) {name : String} (along : name ∈ path)
    : Reaches members name := by
  induction leads with
  | here member single =>
      obtain rfl := List.mem_singleton.mp along
      exact .here member
  | inside member leads ih =>
      rcases List.mem_cons.mp along with rfl | later
      · exact .here member
      · exact .inside member (ih later)

@[simp]
theorem not_reaches_nil {name : String} : ¬ Reaches [] name := by
  rintro (⟨member⟩ | ⟨member, _⟩) <;> cases member

/-- A name is reached at the first member, through it, or through the others. -/
theorem reaches_cons {members : Json.Members} {first name : String} {value : Json}
    : Reaches ((first, value) :: members) name
      ↔ name = first
        ∨ (∃ nested, value = .object nested ∧ Reaches nested name)
        ∨ Reaches members name := by
  constructor
  · rintro (⟨member⟩ | ⟨member, reaches⟩)
    · rcases List.mem_cons.mp member with same | later
      · exact Or.inl (Prod.mk.inj same).1
      · exact Or.inr (Or.inr (.here later))
    · rcases List.mem_cons.mp member with same | later
      · exact Or.inr (Or.inl ⟨_, (Prod.mk.inj same).2.symm, reaches⟩)
      · exact Or.inr (Or.inr (.inside later reaches))
  · rintro (rfl | ⟨nested, rfl, reaches⟩ | ⟨member⟩ | ⟨member, reaches⟩)
    · exact .here List.mem_cons_self
    · exact .inside List.mem_cons_self reaches
    · exact .here (List.mem_cons_of_mem _ member)
    · exact .inside (List.mem_cons_of_mem _ member) reaches

theorem Leads.ne_nil {members : Json.Members} {path : List String} {leaf : Json}
    (leads : Leads members path leaf)
    : path ≠ [] := by
  cases leads <;> exact List.cons_ne_nil _ _

-----------------------------------------------------------------------------------------
-- All ways, from left to right
-----------------------------------------------------------------------------------------

mutual

/-- The ways to what is in a value and not an object, from left to right. -/
def leafPaths : Json → List (List String × Json)
  | .object members => memberPaths members
  | leaf => [([], leaf)]

/-- The ways to what is in members and not an object, from left to right. -/
def memberPaths : List (String × Json) → List (List String × Json)
  | [] => []
  | (name, value) :: members =>
      (leafPaths value).map (fun (path, leaf) => (name :: path, leaf)) ++ memberPaths members

end

theorem leafPaths_of_single {leaf : Json} (single : ∀ nested, leaf ≠ .object nested)
    : leafPaths leaf = [([], leaf)] := by
  cases leaf with
  | object members => exact absurd rfl (single members)
  | _ => rfl

mutual

/-- The cells of a value are those at the ends of its ways, below its column. -/
theorem leaves_eq (column : String)
    : (value : Json)
      → leaves column value
        = (leafPaths value).map fun (path, leaf) => (path.foldl columnBelow column, leafText leaf)
  | .object members => memberLeaves_eq column members
  | .null | .bool _ | .number _ | .string _ | .array _ => rfl

/-- The cells of members are those at the ends of their ways, below their column. -/
theorem memberLeaves_eq (column : String)
    : (members : List (String × Json))
      → memberLeaves column members
        = (memberPaths members).map fun (path, leaf) =>
            (path.foldl columnBelow column, leafText leaf)
  | [] => rfl
  | (name, value) :: members => by
      rw [memberLeaves, memberPaths, leaves_eq, memberLeaves_eq column members, List.map_append,
        List.map_map]
      rfl

end

/-- A way through members begins with one of them, by induction over the members. -/
theorem mem_memberPaths_iff {members : List (String × Json)} {path : List String} {leaf : Json}
    : (path, leaf) ∈ memberPaths members
      ↔ ∃ name value rest,
          path = name :: rest ∧ (name, value) ∈ members ∧ (rest, leaf) ∈ leafPaths value := by
  induction members with
  | nil => simp [memberPaths]
  | cons member members ih =>
      obtain ⟨name, value⟩ := member
      rw [memberPaths, List.mem_append, ih]
      constructor
      · rintro (first | ⟨other, value', rest, rfl, member, ends⟩)
        · obtain ⟨⟨rest, leaf'⟩, ends, same⟩ := List.mem_map.mp first
          obtain ⟨rfl, rfl⟩ := Prod.mk.inj same
          exact ⟨name, value, rest, rfl, List.mem_cons_self, ends⟩
        · exact ⟨other, value', rest, rfl, List.mem_cons_of_mem _ member, ends⟩
      · rintro ⟨other, value', rest, rfl, member, ends⟩
        rcases List.mem_cons.mp member with same | later
        · obtain ⟨rfl, rfl⟩ := Prod.mk.inj same
          exact Or.inl (List.mem_map.mpr ⟨_, ends, rfl⟩)
        · exact Or.inr ⟨other, value', rest, rfl, later, ends⟩

/-- The ways are those that lead somewhere, by induction over the names along a way. -/
theorem mem_memberPaths {members : List (String × Json)} {path : List String} {leaf : Json}
    : (path, leaf) ∈ memberPaths members ↔ Leads members path leaf := by
  constructor
  · intro ends
    induction path generalizing members with
    | nil =>
        obtain ⟨_, _, _, none, _⟩ := mem_memberPaths_iff.mp ends
        cases none
    | cons name path ih =>
        obtain ⟨_, value, _, same, member, rest⟩ := mem_memberPaths_iff.mp ends
        obtain ⟨rfl, rfl⟩ := List.cons.inj same
        by_cases object : ∃ nested, value = .object nested
        · obtain ⟨nested, rfl⟩ := object
          exact .inside member (ih rest)
        · have single : ∀ nested, value ≠ .object nested := not_exists.mp object
          rw [leafPaths_of_single single, List.mem_singleton] at rest
          obtain ⟨rfl, rfl⟩ := Prod.mk.inj rest
          exact .here member single
  · intro leads
    induction leads with
    | here member single =>
        refine mem_memberPaths_iff.mpr ⟨_, _, [], rfl, member, ?_⟩
        rw [leafPaths_of_single single]
        exact List.mem_singleton.mpr rfl
    | inside member leads ih => exact mem_memberPaths_iff.mpr ⟨_, _, _, rfl, member, ih⟩

mutual

/-- No two ways through a value are the same. -/
theorem nodup_leafPaths
    : (value : Json) → value.Proper → ((leafPaths value).map (·.1)).Nodup
  | .object members, proper => nodup_memberPaths members proper.1 proper.2
  | .null, _ | .bool _, _ | .number _, _ | .string _, _ | .array _, _ => by simp [leafPaths]

/-- No two ways through members are the same: they differ in the first name, or behind it. -/
theorem nodup_memberPaths
    : (members : List (String × Json))
      → (members.map (·.1)).Nodup
      → Json.ProperMembers members
      → ((memberPaths members).map (·.1)).Nodup
  | [], _, _ => .nil
  | (name, value) :: members, distinct, proper => by
      obtain ⟨new, distinct⟩ := List.nodup_cons.mp distinct
      have behind := nodup_leafPaths value proper.1
      have later := nodup_memberPaths members distinct proper.2
      rw [memberPaths, List.map_append, List.map_map]
      refine List.nodup_append.mpr ⟨?_, later, ?_⟩
      · have first := behind.map (List.cons_injective (a := name))
        rwa [List.map_map] at first
      · rintro path first _ second rfl
        obtain ⟨_, _, rfl⟩ := List.mem_map.mp first
        obtain ⟨⟨_, _⟩, ends, rfl⟩ := List.mem_map.mp second
        obtain ⟨other, value', _, same, member, _⟩ := mem_memberPaths_iff.mp ends
        obtain ⟨rfl, _⟩ := List.cons.inj same
        exact new (List.mem_map.mpr ⟨_, member, rfl⟩)

end

/-- Where names are distinct a way leads to one value. -/
theorem Leads.unique {members : Json.Members} (proper : (Json.object members).Proper)
    {path : List String} {one two : Json} (leads : Leads members path one)
    (leads' : Leads members path two)
    : one = two := by
  have distinct := nodup_memberPaths members proper.1 proper.2
  have same := List.inj_on_of_nodup_map distinct (mem_memberPaths.mpr leads)
    (mem_memberPaths.mpr leads') rfl
  exact (Prod.mk.inj same).2

-----------------------------------------------------------------------------------------
-- Columns
-----------------------------------------------------------------------------------------

/-- Names may stand in a column: none is empty or has a full stop in it. -/
def Plain (path : List String) : Prop := ∀ name ∈ path, name ≠ "" ∧ '.' ∉ name.toList

/-- Below a column further names are joined to it, by induction over them. -/
theorem foldl_columnBelow {column : String} (named : column ≠ "") (path : List String)
    : path.foldl columnBelow column = ".".intercalate (column :: path) := by
  induction path generalizing column with
  | nil => rfl
  | cons name path ih =>
      have below : columnBelow column name = column ++ "." ++ name := by
        simp [columnBelow, named]
      rw [List.foldl_cons, below, ih (by simp [named])]
      rfl

/-- The column at the end of a way joins the names along it. -/
theorem column_eq {path : List String} (plain : Plain path) (some : path ≠ [])
    : path.foldl columnBelow "" = ".".intercalate path := by
  cases path with
  | nil => exact absurd rfl some
  | cons name path => exact foldl_columnBelow (plain name List.mem_cons_self).1 path

/-- Names are read back from what they are joined to. -/
theorem intercalate_injOn
    : Set.InjOn (".".intercalate) {path : List String | path ≠ [] ∧ Plain path} := by
  have split {path : List String} (some : path ≠ []) (plain : Plain path)
      : ((".".intercalate path).toList.splitOn '.') = path.map String.toList := by
    rw [String.toList_intercalate]
    refine List.splitOn_intercalate '.' ?_ (by simpa using some)
    intro chars member
    obtain ⟨name, along, rfl⟩ := List.mem_map.mp member
    exact (plain name along).2
  rintro one ⟨some, plain⟩ two ⟨some', plain'⟩ same
  have lists := split some plain
  rw [same, split some' plain'] at lists
  exact ((List.map_injective_iff.mpr fun _ _ => String.toList_inj.mp) lists).symm

-----------------------------------------------------------------------------------------
-- Cells
-----------------------------------------------------------------------------------------

/-- How a value is told inside a cell: nothing, a text, or the JSON of the value. -/
inductive Tells : Json → String → Prop where
  | null : Tells .null ""
  | string (s : String) : Tells (.string s) s
  | json {value : Json} (there : value ≠ .null) (other : ∀ s, value ≠ .string s)
      : Tells value value.compact

/-- The text of a cell: the items of a list with commas between them, or a single value. -/
inductive Shows : Json → String → Prop where
  | list {items : List Json} {texts : List String} (told : List.Forall₂ Tells items texts)
      : Shows (.array items) (", ".intercalate texts)
  | single {value : Json} {text : String} (other : ∀ items, value ≠ .array items)
      (told : Tells value text)
      : Shows value text

theorem tells_cellText (value : Json) : Tells value (cellText value) := by
  cases value with
  | null => exact .null
  | string s => exact .string s
  | _ => exact .json (by simp) (by simp)

/-- A value is shown in its cell. -/
theorem shows_leafText (value : Json) : Shows value (leafText value) := by
  cases value with
  | array items =>
      refine .list (List.forall₂_map_right_iff.mpr ?_)
      exact List.forall₂_same.mpr fun item _ => tells_cellText item
  | _ => exact .single (by simp) (tells_cellText _)

-----------------------------------------------------------------------------------------
-- Rows
-----------------------------------------------------------------------------------------

section

variable {members : Json.Members}

/-- Where all names may stand in a column those along a way do. -/
theorem Leads.plain (plain : ∀ name, Reaches members name → name ≠ "" ∧ '.' ∉ name.toList)
    {path : List String} {leaf : Json} (leads : Leads members path leaf)
    : path ≠ [] ∧ Plain path :=
  ⟨leads.ne_nil, fun name member => plain name (leads.reaches member)⟩

/-- Different ways have different columns. -/
theorem columns_injOn (plain : ∀ name, Reaches members name → name ≠ "" ∧ '.' ∉ name.toList)
    : Set.InjOn (".".intercalate) {path | ∃ leaf, Leads members path leaf} :=
  intercalate_injOn.mono fun _ ⟨_, leads⟩ => leads.plain plain

theorem mem_ways {path : List String}
    : path ∈ (memberPaths members).map (·.1) ↔ ∃ leaf, Leads members path leaf := by
  simp [mem_memberPaths]

/-- No column stands in a row twice, so that it holds a cell for each way. -/
theorem flatten_eq (proper : (Json.object members).Proper)
    (plain : ∀ name, Reaches members name → name ≠ "" ∧ '.' ∉ name.toList)
    : flatten members
        = (memberPaths members).map (fun (path, leaf) => (".".intercalate path, leafText leaf))
      ∧ (flatten members).map (·.1) = ((memberPaths members).map (·.1)).map (".".intercalate)
      ∧ ((flatten members).map (·.1)).Nodup := by
  have cells : memberLeaves "" members
      = (memberPaths members).map fun (path, leaf) => (".".intercalate path, leafText leaf) := by
    rw [memberLeaves_eq]
    refine List.map_congr_left ?_
    rintro ⟨path, leaf⟩ member
    obtain ⟨some, plain⟩ := (mem_memberPaths.mp member).plain plain
    exact Prod.ext (column_eq plain some) rfl
  have columns : (memberLeaves "" members).map (·.1)
      = ((memberPaths members).map (·.1)).map (".".intercalate) := by
    rw [cells, List.map_map, List.map_map]
    rfl
  have distinct : ((memberLeaves "" members).map (·.1)).Nodup := by
    rw [columns]
    refine (nodup_memberPaths members proper.1 proper.2).map_on fun one first two second same => ?_
    exact columns_injOn plain (mem_ways.mp first) (mem_ways.mp second) same
  have row : flatten members = memberLeaves "" members := Named.collect_eq distinct
  rw [row]
  exact ⟨cells, columns, distinct⟩

end

/-- The row of an object keeps all it holds. If no name in it, reached through objects alone, is
empty or has a full stop in it, then the columns are one for each way to a value that is not an
object, named after the way, and the value is shown in its column.
-/
theorem leaves_kept {members : Json.Members} (proper : (Json.object members).Proper)
    (plain : ∀ name, Reaches members name → name ≠ "" ∧ '.' ∉ name.toList)
    : ((flatten members).map (·.1)).Nodup
      ∧ Set.BijOn (".".intercalate) {path | ∃ leaf, Leads members path leaf}
          {column | column ∈ (flatten members).map (·.1)}
      ∧ ∀ path leaf,
          Leads members path leaf
          → (∀ other, Leads members path other → other = leaf)
            ∧ ∃ text,
                Shows leaf text
                ∧ Named.get? (".".intercalate path) (flatten members) = some text := by
  obtain ⟨cells, columns, distinct⟩ := flatten_eq proper plain
  refine ⟨distinct, ⟨?_, columns_injOn plain, ?_⟩, fun path leaf leads => ⟨?_, ?_⟩⟩
  · intro path there
    change ".".intercalate path ∈ (flatten members).map (·.1)
    rw [columns]
    exact List.mem_map_of_mem (mem_ways.mpr there)
  · intro column there
    change column ∈ (flatten members).map (·.1) at there
    rw [columns] at there
    obtain ⟨path, way, rfl⟩ := List.mem_map.mp there
    exact ⟨path, mem_ways.mp way, rfl⟩
  · exact fun other leads' => leads'.unique proper leads
  · refine ⟨leafText leaf, shows_leafText leaf, (Named.get?_eq_some_iff distinct).mpr ?_⟩
    rw [cells]
    exact List.mem_map.mpr ⟨_, mem_memberPaths.mpr leads, rfl⟩

namespace Crate

/-- What a registry tells of a package. -/
def members : Json.Members :=
  [("name", .string "tokio"),
    ("meta", .object [("stars", .nat 25000), ("terms", .object [("license", .string "MIT")])]),
    ("tags", .array [.string "async", .null, .array [.bool true]])]

theorem proper : (Json.object members).Proper := by
  simp [members, Json.Proper, Json.ProperMembers, Json.ProperItems, Json.nat, Json.whole,
    Json.Number.Proper]

theorem plain : ∀ name, Reaches members name → name ≠ "" ∧ '.' ∉ name.toList := by
  intro name reaches
  simp only [members, Json.nat, Json.whole, reaches_cons, Json.object.injEq, exists_eq_left',
    not_reaches_nil, reduceCtorEq, false_and, exists_false, false_or, or_false] at reaches
  rcases reaches with rfl | rfl | (rfl | rfl | rfl) | rfl <;> decide

end Crate

/-- The license is found behind two objects. -/
theorem license_kept
    : (Json.object Crate.members).Proper
      ∧ (∀ name, Reaches Crate.members name → name ≠ "" ∧ '.' ∉ name.toList)
      ∧ flatten Crate.members
        = [("name", "tokio"), ("meta.stars", "25000"), ("meta.terms.license", "MIT"),
          ("tags", "async, , [true]")]
      ∧ Set.BijOn (".".intercalate) {path | ∃ leaf, Leads Crate.members path leaf}
          {column | column ∈ (flatten Crate.members).map (·.1)}
      ∧ ∃ text,
          Shows (.string "MIT") text
          ∧ Named.get? "meta.terms.license" (flatten Crate.members) = some text := by
  have kept := leaves_kept Crate.proper Crate.plain
  have leads : Leads Crate.members ["meta", "terms", "license"] (.string "MIT") :=
    .inside (List.mem_cons_of_mem _ List.mem_cons_self)
      (.inside (List.mem_cons_of_mem _ List.mem_cons_self) (.here List.mem_cons_self nofun))
  exact ⟨Crate.proper, Crate.plain, by decide +kernel, kept.2.1, (kept.2.2 _ _ leads).2⟩

end Harvest.Csv
