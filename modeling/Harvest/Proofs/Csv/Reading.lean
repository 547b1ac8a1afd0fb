import Harvest.Csv.Table
import Harvest.Proofs.Text.Digits
import Mathlib.Data.List.Lex
import Mathlib.Data.List.Sort

/-! Tables in writing. A reader that knows of quotes, commas and line feeds reads back the table
that was written, whatever its cells hold; its first record names the columns in the order of their
code points, each of them once.
-/

namespace Harvest.Csv

-----------------------------------------------------------------------------------------
-- The reader
-----------------------------------------------------------------------------------------

/-- Where a reader of a table stands. -/
inductive Stand where
  /-- Before a field. -/
  | start
  /-- Inside a field without quotes. -/
  | bare
  /-- Between quotes. -/
  | quoted
  /-- Behind a quote that ends the field, or is the first of two that stand for one. -/
  | behind
deriving DecidableEq

/-- A reader of a table. -/
structure Reader where
  stand : Stand
  /-- The records before this one. -/
  records : List (List String)
  /-- The fields of this record before this one. -/
  fields : List String
  /-- The characters of this field. -/
  text : List Char

namespace Reader

/-- A reader that has read nothing. -/
def fresh : Reader := ⟨.start, [], [], []⟩

/-- The reader with one more character in its field. -/
def add (r : Reader) (stand : Stand) (c : Char) : Reader :=
  { r with stand, text := r.text ++ [c] }

/-- The reader behind the end of its field. -/
def endField (r : Reader) : Reader :=
  ⟨.start, r.records, r.fields ++ [String.ofList r.text], []⟩

/-- The reader behind the end of its record. -/
def endRecord (r : Reader) : Reader :=
  ⟨.start, r.records ++ [r.fields ++ [String.ofList r.text]], [], []⟩

/-- The reader behind a mark that ends a field; other characters are refused. -/
def separate (r : Reader) (c : Char) : Option Reader :=
  if c == ',' then some r.endField
  else if c == '\n' then some r.endRecord
  else none

/-- The reader behind a character that stands outside quotes, where quotes and carriage returns may
not stand.
-/
def addBare (r : Reader) (c : Char) : Option Reader :=
  if c == ',' || c == '\n' then r.separate c
  else if c == '"' || c == '\r' then none
  else some (r.add .bare c)

/-- The reader behind one more character. -/
def step (r : Reader) (c : Char) : Option Reader :=
  match r.stand with
  | .start => if c == '"' then some { r with stand := .quoted } else r.addBare c
  | .bare => r.addBare c
  | .quoted => some (if c == '"' then { r with stand := .behind } else r.add .quoted c)
  | .behind => if c == '"' then some (r.add .quoted '"') else r.separate c

/-- The records where the text ends, unless a quote is still open. -/
def finish (r : Reader) : Option (List (List String)) :=
  if r.stand = .quoted then none else some r.endRecord.records

end Reader

/-- The records of a text: fields with a comma between them, and a line feed between two records.
A field that begins with a quote goes on to the next quote that is not doubled.
-/
def read? (text : String) : Option (List (List String)) :=
  (text.toList.foldlM Reader.step .fresh).bind Reader.finish

-----------------------------------------------------------------------------------------
-- Reading back
-----------------------------------------------------------------------------------------

namespace Reader

/-- Between quotes, characters whose quotes are doubled are read as they were, by induction over
them.
-/
theorem steps_doubled (records : List (List String)) (fields : List String)
    (cs before : List Char)
    : (doubled cs).foldlM step ⟨.quoted, records, fields, before⟩
      = some ⟨.quoted, records, fields, before ++ cs⟩ := by
  induction cs generalizing before with
  | nil => simp [doubled]
  | cons c cs ih =>
      by_cases quote : c = '"'
      · subst quote
        simpa [doubled, step, add] using ih (before ++ ['"'])
      · simpa [doubled, step, add, quote] using ih (before ++ [c])

/-- Outside quotes, characters that are not special are read as they are, by induction over them. -/
theorem steps_bare (records : List (List String)) (fields : List String) {cs : List Char}
    (plain : cs.any isSpecial = false) {stand : Stand}
    (outside : stand = .start ∨ stand = .bare) (before : List Char)
    : ∃ stand',
        (stand' = .start ∨ stand' = .bare)
        ∧ cs.foldlM step ⟨stand, records, fields, before⟩
          = some ⟨stand', records, fields, before ++ cs⟩ := by
  induction cs generalizing stand before with
  | nil => exact ⟨stand, outside, by simp⟩
  | cons c cs ih =>
      rw [List.any_cons, Bool.or_eq_false_iff] at plain
      obtain ⟨stand', outside', rest⟩ := ih plain.2 (Or.inr rfl) (before ++ [c])
      have here : step ⟨stand, records, fields, before⟩ c
          = some ⟨.bare, records, fields, before ++ [c]⟩ := by
        have ordinary := plain.1
        simp only [isSpecial, Bool.or_eq_false_iff, beq_eq_false_iff_ne] at ordinary
        rcases outside with rfl | rfl <;> simp [step, addBare, add, ordinary]
      refine ⟨stand', outside', ?_⟩
      rw [List.foldlM_cons, here]
      simpa using rest

/-- A field is read back from its written form. -/
theorem steps_field (records : List (List String)) (fields : List String) (text : String)
    : ∃ stand,
        stand ≠ .quoted
        ∧ (field text).foldlM step ⟨.start, records, fields, []⟩
          = some ⟨stand, records, fields, text.toList⟩ := by
  cases special : text.toList.any isSpecial with
  | true =>
      have written : field text = '"' :: (doubled text.toList ++ ['"']) := by simp [field, special]
      have opened : step ⟨.start, records, fields, []⟩ '"'
          = some ⟨.quoted, records, fields, []⟩ := rfl
      refine ⟨.behind, nofun, ?_⟩
      rw [written, List.foldlM_cons, opened, Option.bind_eq_bind, Option.bind_some,
        List.foldlM_append, steps_doubled]
      rfl
  | false =>
      have written : field text = text.toList := by simp [field, special]
      obtain ⟨stand, outside, read⟩ :=
        steps_bare records fields special (Or.inl rfl) []
      refine ⟨stand, by rcases outside with rfl | rfl <;> nofun, ?_⟩
      rw [written, read, List.nil_append]

/-- Outside quotes a comma ends the field. -/
theorem step_comma {r : Reader} (outside : r.stand ≠ .quoted) : r.step ',' = some r.endField := by
  obtain ⟨stand⟩ := r
  cases stand <;> first | rfl | exact absurd rfl outside

/-- Outside quotes a line feed ends the record. -/
theorem step_feed {r : Reader} (outside : r.stand ≠ .quoted) : r.step '\n' = some r.endRecord := by
  obtain ⟨stand⟩ := r
  cases stand <;> first | rfl | exact absurd rfl outside

/-- A line is read back up to the end of its record, by induction over its cells. -/
theorem steps_line (records : List (List String)) {cells : List String} (filled : cells ≠ [])
    (fields : List String)
    : ∃ r : Reader,
        r.stand ≠ .quoted
        ∧ (line cells).foldlM step ⟨.start, records, fields, []⟩ = some r
        ∧ r.endRecord = ⟨.start, records ++ [fields ++ cells], [], []⟩ := by
  induction cells generalizing fields with
  | nil => exact absurd rfl filled
  | cons cell cells ih =>
      obtain ⟨stand, outside, here⟩ := steps_field records fields cell
      cases cells with
      | nil =>
          have alone : line [cell] = field cell := by simp [line]
          exact ⟨⟨stand, records, fields, cell.toList⟩, outside, alone ▸ here, by simp [endRecord]⟩
      | cons next cells =>
          obtain ⟨r, outside', read, ends⟩ := ih (List.cons_ne_nil _ _) (fields ++ [cell])
          have comma := step_comma (r := ⟨stand, records, fields, cell.toList⟩) outside
          have split
              : line (cell :: next :: cells) = field cell ++ ',' :: line (next :: cells) := by
            simp [line, List.intercalate_cons_cons]
          refine ⟨r, outside', ?_, ?_⟩
          · rw [split, List.foldlM_append, here, Option.bind_eq_bind, Option.bind_some,
              List.foldlM_cons, comma, Option.bind_eq_bind, Option.bind_some]
            simpa [endField] using read
          · simpa using ends

/-- Lines are read back record by record, by induction over them. -/
theorem steps_lines {table : List (List String)} (filled : table ≠ [])
    (wide : ∀ cells ∈ table, cells ≠ []) (records : List (List String))
    : ∃ r : Reader,
        r.stand ≠ .quoted
        ∧ (['\n'].intercalate (table.map line)).foldlM step ⟨.start, records, [], []⟩ = some r
        ∧ r.endRecord = ⟨.start, records ++ table, [], []⟩ := by
  induction table generalizing records with
  | nil => exact absurd rfl filled
  | cons cells table ih =>
      obtain ⟨here, later⟩ := List.forall_mem_cons.mp wide
      obtain ⟨r, outside, read, ends⟩ := steps_line records here []
      cases table with
      | nil => exact ⟨r, outside, by simpa using read, ends⟩
      | cons next table =>
          obtain ⟨last, outside', read', ends'⟩ :=
            ih (List.cons_ne_nil _ _) later (records ++ [cells])
          refine ⟨last, outside', ?_, by simpa using ends'⟩
          rw [List.map_cons, List.map_cons, List.intercalate_cons_cons, List.append_assoc,
            List.foldlM_append, read, Option.bind_eq_bind, Option.bind_some, List.singleton_append,
            List.foldlM_cons, step_feed outside, ends]
          exact read'

end Reader

/-- A table whose records have cells is read back from its lines. -/
theorem read?_lines {table : List (List String)} (filled : table ≠ [])
    (wide : ∀ cells ∈ table, cells ≠ [])
    : read? (String.ofList (['\n'].intercalate (table.map line))) = some table := by
  obtain ⟨r, outside, read, ends⟩ := Reader.steps_lines filled wide []
  rw [read?, String.toList_ofList, Reader.fresh, read, Option.bind_some, Reader.finish,
    if_neg outside, ends, List.nil_append]

-----------------------------------------------------------------------------------------
-- Columns
-----------------------------------------------------------------------------------------

section

variable {α : Type} [BEq α]

/-- What was kept of values before stays in front, by induction over the values. -/
theorem eraseReps_loop (a : α) (values kept : List α)
    : List.eraseRepsBy.loop (· == ·) a values kept
      = kept.reverse ++ (a :: values).eraseReps := by
  induction values generalizing a kept with
  | nil => simp [List.eraseReps, List.eraseRepsBy, List.eraseRepsBy.loop]
  | cons b values ih =>
      have behind (kept : List α) : List.eraseRepsBy.loop (· == ·) a (b :: values) kept
          = if a == b then kept.reverse ++ (a :: values).eraseReps
            else kept.reverse ++ a :: (b :: values).eraseReps := by
        cases same : a == b <;> simp [List.eraseRepsBy.loop, same, ih]
      have whole : (a :: b :: values).eraseReps
          = List.eraseRepsBy.loop (· == ·) a (b :: values) [] := rfl
      rw [whole, behind, behind]
      split <;> simp

/-- Of two values in front the first is kept when they differ, and stands for both when not. -/
theorem eraseReps_cons_cons (a b : α) (values : List α)
    : (a :: b :: values).eraseReps
      = if a == b then (a :: values).eraseReps else a :: (b :: values).eraseReps := by
  rw [List.eraseReps, List.eraseRepsBy, List.eraseRepsBy.loop]
  cases same : a == b <;> simp [eraseReps_loop]

/-- No value is lost, by induction over the values. -/
theorem mem_eraseReps [LawfulBEq α] {x : α} (a : α) (values : List α)
    : x ∈ (a :: values).eraseReps ↔ x ∈ a :: values := by
  induction values generalizing a with
  | nil => rfl
  | cons b values ih =>
      rw [eraseReps_cons_cons]
      split
      · next same =>
          obtain rfl := eq_of_beq same
          rw [ih]
          simp
      · rw [List.mem_cons, ih, List.mem_cons (b := a)]

end

/-- The first name does not come behind the second. -/
def UpTo (a b : String) : Prop := Text.codes a.toList ≤ Text.codes b.toList

theorem before_iff {a b : String}
    : Text.before a b ↔ Text.codes a.toList < Text.codes b.toList :=
  decide_eq_true_iff

theorem not_before_iff {a b : String} : (!Text.before b a) ↔ UpTo a b := by
  rw [Bool.not_eq_true', ← Bool.not_eq_true, before_iff, not_lt]
  rfl

/-- Names with the same code points are the same. -/
theorem codes_inj {a b : String} : Text.codes a.toList = Text.codes b.toList ↔ a = b := by
  rw [Text.codes, Text.codes, List.map_inj_right fun _ _ => Char.toNat_inj.mp, String.toList_inj]

/-- Names in order are in strict order when repetitions are left out, by induction over them. -/
theorem pairwise_eraseReps {names : List String} (sorted : names.Pairwise UpTo)
    : names.eraseReps.Pairwise fun a b => Text.before a b := by
  cases names with
  | nil => exact .nil
  | cons a names =>
      induction names generalizing a with
      | nil => simp [List.eraseReps, List.eraseRepsBy, List.eraseRepsBy.loop]
      | cons b names ih =>
          obtain ⟨first, rest⟩ := List.pairwise_cons.mp sorted
          rw [eraseReps_cons_cons]
          split
          · exact ih a (List.pairwise_cons.mpr
              ⟨fun x member => first x (List.mem_cons_of_mem _ member), rest.of_cons⟩)
          · next apart =>
              have here : Text.codes a.toList < Text.codes b.toList :=
                lt_of_le_of_ne (first b List.mem_cons_self)
                  fun same => apart (beq_iff_eq.mpr (codes_inj.mp same))
              refine List.pairwise_cons.mpr ⟨fun x member => before_iff.mpr ?_, ih b rest⟩
              rcases List.mem_cons.mp ((mem_eraseReps b names).mp member) with rfl | later
              · exact here
              · exact here.trans_le ((List.pairwise_cons.mp rest).1 x later)

/-- The columns stand in the order of their code points, each of them once. -/
theorem columns_rising (rows : List Row) : (columns rows).Pairwise fun a b => Text.before a b := by
  refine pairwise_eraseReps (List.Pairwise.imp not_before_iff.mp
    (List.pairwise_mergeSort (fun a b c => ?_) (fun a b => ?_) _))
  · rw [not_before_iff, not_before_iff, not_before_iff]
    exact le_trans
  · rw [Bool.or_eq_true, not_before_iff, not_before_iff]
    exact le_total _ _

/-- The columns are those of the rows. -/
theorem mem_columns {rows : List Row} {name : String}
    : name ∈ columns rows ↔ ∃ row ∈ rows, name ∈ row.map (·.1) := by
  have all : name ∈ columns rows
      ↔ name ∈ (rows.flatMap fun row => row.map (·.1)).mergeSort fun a b => !Text.before b a := by
    unfold columns
    cases (rows.flatMap fun row => row.map (·.1)).mergeSort fun a b => !Text.before b a with
    | nil => rfl
    | cons a names => exact mem_eraseReps a names
  rw [all, List.mem_mergeSort, List.mem_flatMap]

/-- Names in strict order that are those of some rows are their columns. -/
theorem columns_eq {rows : List Row} {names : List String}
    (rising : names.Pairwise fun a b => Text.before a b)
    (same : ∀ name, name ∈ names ↔ ∃ row ∈ rows, name ∈ row.map (·.1))
    : columns rows = names := by
  have : Std.Irrefl fun a b : String => (Text.before a b : Prop) :=
    ⟨fun a => before_iff.not.mpr (lt_irrefl _)⟩
  have : Std.Antisymm fun a b : String => (Text.before a b : Prop) :=
    ⟨fun a b first second => absurd (before_iff.mp first) (before_iff.mp second).asymm⟩
  exact (columns_rising rows).eq_of_mem_iff rising fun name => mem_columns.trans (same name).symm

/-- A table of rows is read back from its written form when one of the rows has a cell. -/
theorem read?_render {rows : List Row} (filled : ∃ row ∈ rows, row ≠ [])
    : read? (render rows) = some (columns rows :: rows.map (cells (columns rows))) := by
  obtain ⟨row, member, other⟩ := filled
  obtain ⟨cell, rest, rfl⟩ := List.exists_cons_of_ne_nil other
  have wide : columns rows ≠ [] :=
    List.ne_nil_of_mem (mem_columns.mpr ⟨_, member, List.mem_cons_self⟩)
  refine read?_lines (List.cons_ne_nil _ _) fun record here => ?_
  rcases List.mem_cons.mp here with rfl | later
  · exact wide
  · obtain ⟨other, _, rfl⟩ := List.mem_map.mp later
    simpa [cells] using wide

end Harvest.Csv
