import Harvest.Executor.Export
import Harvest.Proofs.Csv.Reading
import Harvest.Proofs.Executor.Parts
import Harvest.Proofs.Json.Proper
import Harvest.Proofs.Named

/-! What an export comes to. It asks for one file to be written or for none. Once the file is
written the outputs tell its address and the number of its rows; else the outputs stay as they were.
A reader of tables gets the columns and the cells of all rows out of the file.
-/

namespace Harvest

open TaskM Time

-----------------------------------------------------------------------------------------
-- Rows and times
-----------------------------------------------------------------------------------------

namespace Csv

/-- Only an empty list has no rows. -/
theorem rowsOf_eq_nil {time : Instant} {data : Json}
    : rowsOf time data = [] ↔ data = .array [] := by
  cases data with
  | array items =>
      cases items with
      | nil => simp [rowsOf, startsWithObject]
      | cons item items =>
          rw [rowsOf]
          split <;> simp
  | object members =>
      rw [rowsOf]
      cases reportPages? (.object members) <;> simp [reportRows]
  | _ => simp [rowsOf]

/-- Whether some row has a cell does not depend on the time. -/
theorem exists_cell_iff (time later : Instant) (data : Json)
    : (∃ row ∈ rowsOf time data, row ≠ []) ↔ ∃ row ∈ rowsOf later data, row ≠ [] := by
  cases data with
  | object members =>
      simp only [rowsOf]
      cases reportPages? (.object members) with
      | none => rfl
      | some pages =>
          exact iff_of_true ⟨_, List.mem_cons_self, List.cons_ne_nil _ _⟩
            ⟨_, List.mem_cons_self, List.cons_ne_nil _ _⟩
  | _ => rfl

end Csv

-----------------------------------------------------------------------------------------
-- Exports
-----------------------------------------------------------------------------------------

/-- An export: the data, the wanted name, and the times at which its rows and its name are made. -/
structure Export where
  data : Json
  wanted : Option String
  time : Instant
  named : Instant

namespace Export

/-- The rows of an export. -/
def rows (e : Export) : List Csv.Row := Csv.rowsOf e.time e.data

/-- The name of the file of an export. -/
def name (e : Export) : String := Executor.fileName e.wanted e.named

/-- The text of the file of an export. -/
def text (e : Export) : String := Csv.render e.rows

/-- Where the file of an export can be fetched. -/
def address (settings : TaskSettings) (e : Export) : String :=
  Text.trimSlashes settings.downloadBase ++ "/" ++ e.name

/-- Outputs that tell of an export. -/
def told (settings : TaskSettings) (e : Export) (outputs : Values) : Values :=
  Named.put Slot.rowCount (.text (toString e.rows.length))
    (Named.put Slot.downloadUrl (.text (e.address settings)) outputs)

/-- The outputs tell the number of the rows. -/
theorem rowCount_told (settings : TaskSettings) (e : Export) (outputs : Values)
    : Named.get? Slot.rowCount (e.told settings outputs)
      = some (.text (toString e.rows.length)) := by
  rw [told, Named.get?_put, if_pos rfl]

/-- The outputs tell where the file can be fetched. -/
theorem downloadUrl_told (settings : TaskSettings) (e : Export) (outputs : Values)
    : Named.get? Slot.downloadUrl (e.told settings outputs)
      = some (.text (e.address settings)) := by
  rw [told, Named.get?_put, if_neg (by decide), Named.get?_put, if_pos rfl]

/-- The calls of an export whose file is written. -/
def calls (e : Export) (begun ended : Instant) : List (Happening taskCalls) :=
  [⟨.now, begun⟩, ⟨.now, e.time⟩, ⟨.now, e.named⟩,
    ⟨.save e.name e.text, (.ok () : Except FileError Unit)⟩, ⟨.now, ended⟩]

/-- The export is one of the data and the wanted name on the inputs, and there are rows in it. -/
structure Of (work : Workspace) (e : Export) : Prop where
  source : ∃ source, work.inputText? Slot.dataSource = some source ∧ Json.parse source = .ok e.data
  wanted : e.wanted = work.inputText? Slot.fileName
  filled : e.rows ≠ []

end Export

/-- The files that are asked to be written, each with the answer. -/
def saves (calls : List (Happening taskCalls)) : List ((String × String) × Except FileError Unit) :=
  calls.filterMap fun
    | ⟨.save name text, answer⟩ => some ((name, text), answer)
    | _ => none

namespace Executor

/-- What an export comes to. -/
inductive Exported (settings : TaskSettings) (work : Workspace) : Wanted Bool where
  /-- There is nothing to be exported. -/
  | declined {calls : List (Happening taskCalls)} {left : Workspace}
      (nothing : ∀ e : Export, ¬ e.Of work) (unasked : saves calls = [])
      (same : left.outputs = work.outputs)
      : Exported settings work calls (.ok false) left
  /-- The file cannot be written. -/
  | refused {e : Export} {calls : List (Happening taskCalls)} {reason : FileError}
      {left : Workspace} (of : e.Of work) (read : ⟨.now, e.time⟩ ∈ calls)
      (asked : saves calls = [((e.name, e.text), .error reason)])
      (same : left.outputs = work.outputs)
      : Exported settings work calls (.ok false) left
  /-- The file is written and told of. -/
  | saved {e : Export} {begun ended : Instant} {left : Workspace} (of : e.Of work)
      (told : left.outputs = e.told settings work.outputs)
      : Exported settings work (e.calls begun ended) (.ok true) left

/-- However its calls are answered, an export comes to one of these ends. -/
theorem always_csvExport (settings : TaskSettings) (work : Workspace)
    : (csvExport settings).Always work (Exported settings work) := by
  have nothing {reason : String} (nothing : ∀ e : Export, ¬ e.Of work)
      : (refuse reason).Always work (Exported settings work) :=
    always_refuse.mpr fun time => .declined nothing rfl rfl
  unfold csvExport
  refine always_bind.mpr (always_inputText?.mpr ?_)
  dsimp only [List.nil_append]
  cases there : work.inputText? Slot.dataSource with
  | none =>
      refine nothing fun e of => ?_
      obtain ⟨_, other, _⟩ := of.source
      exact absurd (there.symm.trans other) nofun
  | some source =>
  dsimp only
  cases parsed : Json.parse source with
  | error reason =>
      refine nothing fun e of => ?_
      obtain ⟨_, other, ok⟩ := of.source
      obtain rfl := Option.some.inj (there.symm.trans other)
      exact absurd (parsed.symm.trans ok) nofun
  | ok data =>
  refine always_bind.mpr (always_info.mpr fun begun => ?_)
  refine always_bind.mpr (always_ask.mpr fun time => ?_)
  dsimp only
  split
  case isTrue empty =>
    refine always_refuse.mpr fun ended => .declined (fun e of => ?_) rfl rfl
    obtain ⟨_, other, ok⟩ := of.source
    obtain rfl := Option.some.inj (there.symm.trans other)
    obtain rfl := Except.ok.inj (parsed.symm.trans ok)
    exact of.filled (Csv.rowsOf_eq_nil.mpr (Csv.rowsOf_eq_nil.mp (List.isEmpty_iff.mp empty)))
  case isFalse filled =>
  refine always_bind.mpr (always_inputText?.mpr (always_bind.mpr (always_ask.mpr fun named => ?_)))
  refine always_bind.mpr (always_ask.mpr fun answer => ?_)
  let e : Export := ⟨data, work.inputText? Slot.fileName, time, named⟩
  have of : e.Of work :=
    ⟨⟨source, there, parsed⟩, rfl, fun none => filled (List.isEmpty_iff.mpr none)⟩
  cases answer with
  | error reason =>
      exact always_refuse.mpr fun ended => .refused of (by simp [e]) rfl rfl
  | ok _ =>
      refine always_bind.mpr (always_outputText.mpr (always_bind.mpr (always_outputText.mpr ?_)))
      refine always_bind.mpr (always_info.mpr fun ended => always_pure.mpr ?_)
      exact .saved of rfl

/-- Where there is something to be exported a file is asked for, and the outputs tell of it once it
is written.
-/
theorem always_exports (settings : TaskSettings) {work : Workspace} {source : String} {data : Json}
    (input : work.inputText? Slot.dataSource = some source)
    (parsed : Json.parse source = .ok data) (some : data ≠ .array [])
    : (csvExport settings).Always work fun calls result left =>
        ∃ e : Export, ∃ answer,
          e.data = data
          ∧ ⟨.now, e.time⟩ ∈ calls
          ∧ saves calls = [((e.name, e.text), answer)]
          ∧ (answer = .ok ()
            → result = .ok true ∧ left.outputs = e.told settings work.outputs) := by
  have known {e : Export} (of : e.Of work) : e.data = data := by
    obtain ⟨_, other, ok⟩ := of.source
    obtain rfl := Option.some.inj (input.symm.trans other)
    exact Except.ok.inj (ok.symm.trans parsed)
  refine (always_csvExport settings work).mono fun calls result left exported => ?_
  cases exported with
  | declined nothing =>
      let e : Export := ⟨data, work.inputText? Slot.fileName, ⟨0, 0, 0⟩, ⟨0, 0, 0⟩⟩
      exact absurd ⟨⟨source, input, parsed⟩, rfl, fun none => some (Csv.rowsOf_eq_nil.mp none)⟩
        (nothing e)
  | @refused e _ reason _ of read asked _ => exact ⟨e, _, known of, read, asked, nofun⟩
  | @saved e _ _ _ of told =>
      exact ⟨e, _, known of, by simp [Export.calls], rfl, fun _ => ⟨rfl, told⟩⟩

/-- Every export can be carried out, whatever the times. -/
theorem exists_saved (settings : TaskSettings) {work : Workspace} {e : Export} (of : e.Of work)
    (begun ended : Instant)
    : ∃ left,
        ((ExceptT.run (csvExport settings)).run work).Ends (e.calls begun ended)
          (.ok true, left) := by
  obtain ⟨⟨source, there, parsed⟩, wanted, filled⟩ := of
  by_contra none
  have never : (csvExport settings).Always work fun calls result _ =>
      ¬ (calls = e.calls begun ended ∧ result = .ok true) := by
    rintro calls ⟨_, left⟩ ends ⟨rfl, rfl⟩
    exact none ⟨left, ends⟩
  have some : ¬ (Csv.rowsOf e.time e.data).isEmpty := fun empty =>
    filled (List.isEmpty_iff.mp empty)
  unfold csvExport at never
  replace never := always_inputText?.mp (always_bind.mp never)
  dsimp only [List.nil_append] at never
  rw [there] at never
  dsimp only at never
  rw [parsed] at never
  replace never := always_info.mp (always_bind.mp never) begun
  replace never := always_ask.mp (always_bind.mp never) e.time
  dsimp only at never
  rw [if_neg some] at never
  replace never := always_inputText?.mp (always_bind.mp never)
  replace never := always_ask.mp (always_bind.mp never) e.named
  replace never := always_ask.mp (always_bind.mp never) (.ok ())
  replace never := always_outputText.mp (always_bind.mp never)
  replace never := always_outputText.mp (always_bind.mp never)
  replace never := always_pure.mp (always_info.mp (always_bind.mp never) ended)
  exact never ⟨by rw [Export.calls, Export.name, wanted]; rfl, rfl⟩

-----------------------------------------------------------------------------------------
-- Reading a file back
-----------------------------------------------------------------------------------------

/-- Where some row of the data has a cell, a file is asked for, and a reader of tables gets out of
its text the columns in the order of their code points and, row by row, the cell in each column,
empty where the row has none. The row count is the number of the records behind the columns.
-/
theorem exported_reads_back (settings : TaskSettings) {work : Workspace} {source : String}
    {data : Json} {sometime : Instant} (input : work.inputText? Slot.dataSource = some source)
    (parsed : Json.parse source = .ok data)
    (filled : ∃ row ∈ Csv.rowsOf sometime data, row ≠ [])
    : (csvExport settings).Always work fun calls result left =>
        ∃ e : Export, ∃ answer header records,
          e.data = data
          ∧ ⟨.now, e.time⟩ ∈ calls
          ∧ saves calls = [((e.name, e.text), answer)]
          ∧ Csv.read? e.text = some (header :: records)
          ∧ (header.Pairwise fun a b => Text.before a b)
          ∧ (∀ column, column ∈ header ↔ ∃ row ∈ e.rows, column ∈ row.map (·.1))
          ∧ records
            = e.rows.map (fun row => header.map fun column => (Named.get? column row).getD "")
          ∧ (answer = .ok ()
            → result = .ok true
              ∧ Named.get? Slot.rowCount left.outputs
                = some (.text (toString records.length))) := by
  obtain ⟨row, member, cell⟩ := filled
  have some : data ≠ .array [] := fun none =>
    absurd (Csv.rowsOf_eq_nil.mpr none) (List.ne_nil_of_mem member)
  refine (always_exports settings input parsed some).mono ?_
  rintro calls result left ⟨e, answer, rfl, read, asked, done⟩
  have reads : Csv.read? e.text
      = .some (Csv.columns e.rows :: e.rows.map (Csv.cells (Csv.columns e.rows))) :=
    Csv.read?_render ((Csv.exists_cell_iff sometime e.time e.data).mp ⟨row, member, cell⟩)
  refine ⟨e, answer, _, _, rfl, read, asked, reads, Csv.columns_rising e.rows,
    fun column => Csv.mem_columns, rfl, fun written => ?_⟩
  obtain ⟨success, told⟩ := done written
  exact ⟨success, by rw [told, Export.rowCount_told, List.length_map]⟩

namespace Ragged

/-- Two rows without a common column, with cells that need quotes. -/
def data : Json := .array [.object [("a", .string "x,\"y\"")], .object [("b", .string "p\nq")]]

def work : Workspace := ⟨"n", [(Slot.dataSource, .text data.compact)], [], none, none, []⟩

def order : Export := ⟨data, none, ⟨0, 0, 0⟩, ⟨0, 0, 0⟩⟩

end Ragged

/-- Both columns and both rows come back. -/
theorem exported_reads_back_ragged
    : ∃ left header records,
        ((ExceptT.run (csvExport .usual)).run Ragged.work).Ends
          (Ragged.order.calls ⟨0, 0, 0⟩ ⟨0, 0, 0⟩) (.ok true, left)
        ∧ Csv.read? Ragged.order.text = some (header :: records)
        ∧ "a" ∈ header
        ∧ "b" ∈ header
        ∧ records.length = 2
        ∧ Named.get? Slot.rowCount left.outputs = some (.text "2") := by
  have input : Ragged.work.inputText? Slot.dataSource = some Ragged.data.compact := by
    decide +kernel
  have parsed : Json.parse Ragged.data.compact = .ok Ragged.data := by
    refine (Json.parse_compact ?_ (by decide)).trans rfl
    simp [Ragged.data, Json.Proper, Json.ProperItems, Json.ProperMembers]
  have filled : ∃ row ∈ Csv.rowsOf ⟨0, 0, 0⟩ Ragged.data, row ≠ [] :=
    ⟨[("a", "x,\"y\"")], List.mem_cons_self, List.cons_ne_nil _ _⟩
  have of : Ragged.order.Of Ragged.work := ⟨⟨_, input, parsed⟩, rfl, List.cons_ne_nil _ _⟩
  obtain ⟨left, ends⟩ := exists_saved .usual of ⟨0, 0, 0⟩ ⟨0, 0, 0⟩
  obtain ⟨e, answer, header, records, same, _, saved, reads, _, columns, rows, counted⟩ :=
    exported_reads_back .usual input parsed filled _ _ ends
  have asked : [((Ragged.order.name, Ragged.order.text), Except.ok ())]
      = [((e.name, e.text), answer)] := saved
  obtain ⟨⟨_, text⟩, rfl⟩ : (_ ∧ Ragged.order.text = e.text) ∧ Except.ok () = answer := by
    simpa only [List.cons.injEq, Prod.mk.injEq, and_true] using asked
  have made : e.rows = [[("a", "x,\"y\"")], [("b", "p\nq")]] := by
    rw [Export.rows, same]
    rfl
  have two : records.length = 2 := by
    rw [rows, made]
    rfl
  refine ⟨left, header, records, ends, text ▸ reads, ?_, ?_, two, ?_⟩
  · exact (columns "a").mpr (by simp [made])
  · exact (columns "b").mpr (by simp [made])
  · rw [(counted rfl).2, two]
    rfl

end Executor

end Harvest
