import Harvest.Proofs.Executor.Exporting
import Harvest.Proofs.Json.Proper
import Harvest.Proofs.Time.Written

/-! The files of exports in one folder. A file holds what was last written under its name, and the
name is made of the stem of the wanted name and of the second in which it is made; so an export
keeps its file unless a later one with the same stem falls into the same second.
-/

namespace Harvest

open TaskM Time

-----------------------------------------------------------------------------------------
-- Names of files
-----------------------------------------------------------------------------------------

/-- Two exports have one file name exactly when they have one stem and fall into one second. -/
theorem Export.name_eq_iff {e f : Export} (properE : e.named.IsProper)
    (properF : f.named.IsProper)
    : e.name = f.name
      ↔ Executor.fileStem e.wanted = Executor.fileStem f.wanted
        ∧ e.named.floor = f.named.floor := by
  rw [← fileText_eq_iff properE properF]
  constructor
  · intro same
    have chars := congrArg String.toList same
    simp only [Export.name, Executor.fileName, String.toList_append, List.append_assoc] at chars
    have ends : ("-".toList ++ (e.named.fileText.toList ++ ".csv".toList)).length
        = ("-".toList ++ (f.named.fileText.toList ++ ".csv".toList)).length := by
      simp [length_fileText properE properF]
    obtain ⟨stem, rest⟩ := List.append_inj' chars ends
    have time := (List.append_inj (List.append_cancel_left rest)
      (length_fileText properE properF)).1
    exact ⟨String.toList_inj.mp stem, String.toList_inj.mp time⟩
  · rintro ⟨stem, time⟩
    rw [Export.name, Export.name, Executor.fileName, Executor.fileName, stem, time]

-----------------------------------------------------------------------------------------
-- Files that were written
-----------------------------------------------------------------------------------------

/-- The files that were written, each with its text. -/
def written (calls : List (Happening taskCalls)) : List (String × String) :=
  (saves calls).filterMap fun (file, answer) => if answer.isOk then some file else none

/-- What was written in one part and in the other. -/
theorem written_append (calls more : List (Happening taskCalls))
    : written (calls ++ more) = written calls ++ written more := by
  simp [written, saves]

/-- The files of a folder after some calls: what is written under a name replaces what was there. -/
def filesAfter (calls : List (Happening taskCalls)) (files : List (String × String))
    : List (String × String) :=
  (written calls).foldl (fun files (name, text) => Named.put name text files) files

/-- The times that were told, in order. -/
def readings (calls : List (Happening taskCalls)) : List Instant :=
  calls.filterMap fun
    | ⟨.now, time⟩ => some time
    | _ => none

namespace Executor

/-- A run of an export to a folder that succeeded. -/
structure Success (folder : String) where
  settings : TaskSettings
  work : Workspace
  calls : List (Happening taskCalls)
  left : Workspace
  place : settings.exportDir = folder
  ends : ((ExceptT.run (csvExport settings)).run work).Ends calls (.ok true, left)

variable {folder : String}

/-- The run has made this export. -/
def Success.Made (run : Success folder) (e : Export) : Prop :=
  e.Of run.work ∧ ∃ begun ended, run.calls = e.calls begun ended

/-- A run has made no more than one export. -/
theorem Success.Made.unique {run : Success folder} {e f : Export} (one : run.Made e)
    (other : run.Made f)
    : e = f := by
  obtain ⟨⟨⟨source, there, parsed⟩, wanted, _⟩, begun, ended, calls⟩ := one
  obtain ⟨⟨⟨source', there', parsed'⟩, wanted', _⟩, begun', ended', calls'⟩ := other
  obtain rfl := Option.some.inj (there.symm.trans there')
  have data : e.data = f.data := Except.ok.inj (parsed.symm.trans parsed')
  have times : [begun, e.time, e.named, ended] = [begun', f.time, f.named, ended'] :=
    congrArg readings (calls.symm.trans calls')
  simp only [List.cons.injEq] at times
  obtain ⟨_, time, named, _⟩ := times
  cases e
  cases f
  simp_all

/-- The one file that an export has written. -/
theorem Success.Made.written {run : Success folder} {e : Export} (made : run.Made e)
    : written run.calls = [(e.name, e.text)] := by
  obtain ⟨_, begun, ended, calls⟩ := made
  rw [calls]
  rfl

/-- A run that succeeded has made an export and tells its address. -/
theorem Success.exists_made (run : Success folder)
    : ∃ e : Export,
        run.Made e
        ∧ Named.get? Slot.downloadUrl run.left.outputs
          = some (.text (e.address run.settings)) := by
  have exported := always_csvExport run.settings run.work _ _ run.ends
  obtain ⟨settings, work, calls, left, place, ends⟩ := run
  cases exported with
  | saved of told =>
      refine ⟨_, ⟨of, _, _, rfl⟩, ?_⟩
      change Named.get? Slot.downloadUrl left.outputs = _
      rw [told, Export.downloadUrl_told]

/-- Whatever exports to a folder succeed one after another, with other calls in between that write
no files: behind the address that an export tells there is the text of the last one whose file has
the same name, which is its own unless a later one has that name. Names are the same exactly when
their stems are and their times fall into one second.
-/
theorem files_kept {history : List (Happening taskCalls)} {runs : List (Success folder)}
    (wrote : written history = runs.flatMap fun run => written run.calls)
    {before after : List (Success folder)} {run : Success folder}
    (split : runs = before ++ run :: after) (files : List (String × String))
    : ∃ e : Export,
        run.Made e
        ∧ Named.get? Slot.downloadUrl run.left.outputs = some (.text (e.address run.settings))
        ∧ (∃ last ∈ run :: after, ∃ f : Export,
            last.Made f
            ∧ f.name = e.name
            ∧ Named.get? e.name (filesAfter history files) = some f.text)
        ∧ ((∀ other ∈ after, ∀ f : Export, other.Made f → f.name ≠ e.name)
          → Named.get? e.name (filesAfter history files) = some e.text)
        ∧ ∀ f : Export,
            e.named.IsProper
            → f.named.IsProper
            → (f.name = e.name
              ↔ fileStem f.wanted = fileStem e.wanted ∧ f.named.floor = e.named.floor) := by
  obtain ⟨e, made, told⟩ := run.exists_made
  -- Of the writes that count for this name the later ones come first.
  let later := after.flatMap fun run => written run.calls
  have held : Named.get? e.name (filesAfter history files)
      = (Named.get? e.name later.reverse).or (some e.text) := by
    rw [filesAfter, Named.get?_foldl_put, wrote, split, List.flatMap_append, List.flatMap_cons,
      made.written, List.reverse_append, List.reverse_append, Named.get?_append,
      Named.get?_append, List.reverse_singleton, Named.get?, if_pos (beq_self_eq_true _)]
    simp [later]
  have names (f : Export) (properE : e.named.IsProper) (properF : f.named.IsProper) :=
    Export.name_eq_iff properF properE
  cases found : Named.get? e.name later.reverse with
  | none =>
      rw [found, Option.none_or] at held
      exact ⟨e, made, told, ⟨run, List.mem_cons_self, e, made, rfl, held⟩, fun _ => held, names⟩
  | some text =>
      rw [found, Option.some_or] at held
      obtain ⟨other, member, wrote⟩ :=
        List.mem_flatMap.mp (List.mem_reverse.mp (Named.mem_of_get? found))
      obtain ⟨f, made', _⟩ := other.exists_made
      rw [made'.written, List.mem_singleton, Prod.mk.injEq] at wrote
      obtain ⟨same, rfl⟩ := wrote
      exact ⟨e, made, told, ⟨other, List.mem_cons_of_mem _ member, f, made', same.symm, held⟩,
        fun apart => absurd same.symm (apart other member f made'), names⟩

namespace Rivals

def noon : Instant := ⟨0, 43200, 0⟩

/-- An export of one text at noon. -/
def order (wanted text : String) : Export := ⟨.string text, some wanted, noon, noon⟩

def work (wanted text : String) : Workspace where
  node := "n"
  inputs := [(Slot.dataSource, .text (Json.string text).compact), (Slot.fileName, .text wanted)]
  outputs := []
  browser := none
  page := none
  log := []

/-- The workspace asks for such an export. -/
theorem order_of (wanted text : String) (named : wanted ≠ "")
    : (order wanted text).Of (work wanted text) := by
  have written : (Json.string text).compact ≠ "" := by
    intro none
    have chars := congrArg String.toList none
    rw [Json.compact, String.toList_ofList] at chars
    cases chars
  refine ⟨⟨(Json.string text).compact, ?_, ?_⟩, ?_, List.cons_ne_nil _ _⟩
  · exact Option.filter_eq_some_iff.mpr ⟨rfl, by simp [written]⟩
  · exact Json.parse_compact trivial (Nat.zero_le _)
  · exact (Option.filter_eq_some_iff.mpr ⟨rfl, by simp [named]⟩).symm

/-- Such an export can succeed. -/
theorem exists_success (wanted text : String) (named : wanted ≠ "")
    : ∃ run : Success "public/exports",
        run.Made (order wanted text)
        ∧ run.calls = (order wanted text).calls noon noon
        ∧ Named.get? Slot.downloadUrl run.left.outputs
          = some (.text ((order wanted text).address .usual)) := by
  have of : (order wanted text).Of (work wanted text) := order_of wanted text named
  obtain ⟨left, ends⟩ := exists_saved .usual of noon noon
  let run : Success "public/exports" := ⟨.usual, work wanted text, _, left, rfl, ends⟩
  have made : run.Made (order wanted text) := ⟨of, noon, noon, rfl⟩
  obtain ⟨e, made', told⟩ := run.exists_made
  obtain rfl := made'.unique made
  exact ⟨run, made, rfl, told⟩

end Rivals

/-- Two exports at one moment under different names keep their files. -/
theorem files_kept_apart
    : ∃ first second : Success "public/exports",
        first.Made (Rivals.order "one" "a")
        ∧ second.Made (Rivals.order "two" "b")
        ∧ Named.get? Slot.downloadUrl first.left.outputs
          = some (.text "/exports/one-1970-01-01T12-00-00.csv")
        ∧ Named.get? "one-1970-01-01T12-00-00.csv" (filesAfter (first.calls ++ second.calls) [])
          = some "value\na" := by
  obtain ⟨first, made, _, told⟩ := Rivals.exists_success "one" "a" (by decide)
  obtain ⟨second, made', _, _⟩ := Rivals.exists_success "two" "b" (by decide)
  have wrote : written (first.calls ++ second.calls)
      = [first, second].flatMap fun run => written run.calls := by
    simp [written_append]
  obtain ⟨e, made'', _, _, kept, names⟩ := files_kept wrote (List.nil_append _).symm []
  obtain rfl := made''.unique made
  have name : (Rivals.order "one" "a").name = "one-1970-01-01T12-00-00.csv" := by decide +kernel
  have address : (Rivals.order "one" "a").address .usual
      = "/exports/one-1970-01-01T12-00-00.csv" := by
    decide +kernel
  have text : (Rivals.order "one" "a").text = "value\na" := by decide +kernel
  have stems : fileStem (Rivals.order "two" "b").wanted ≠ fileStem (Rivals.order "one" "a").wanted
      := by decide +kernel
  refine ⟨first, second, made, made', address ▸ told, ?_⟩
  rw [← name, ← text]
  refine kept fun other member f made'' same => ?_
  obtain rfl := List.mem_singleton.mp member
  obtain rfl := made''.unique made'
  exact stems ((names _ (by decide +kernel) (by decide +kernel)).mp same).1

/-- Two exports at one moment whose names have the same stem leave one file, which holds the text
of the later one.
-/
theorem files_overwritten
    : ∃ first second : Success "public/exports",
        first.Made (Rivals.order "my report" "a")
        ∧ second.Made (Rivals.order "my/report" "b")
        ∧ ((readings (first.calls ++ second.calls)).Pairwise fun a b => a.upTo b)
        ∧ Named.get? Slot.downloadUrl first.left.outputs
          = some (.text "/exports/my_report-1970-01-01T12-00-00.csv")
        ∧ (Rivals.order "my report" "a").text = "value\na"
        ∧ Named.get? "my_report-1970-01-01T12-00-00.csv"
            (filesAfter (first.calls ++ second.calls) [])
          = some "value\nb" := by
  obtain ⟨first, made, calls, told⟩ := Rivals.exists_success "my report" "a" (by decide)
  obtain ⟨second, made', calls', _⟩ := Rivals.exists_success "my/report" "b" (by decide)
  have name : (Rivals.order "my report" "a").name = "my_report-1970-01-01T12-00-00.csv" := by
    decide +kernel
  have address : (Rivals.order "my report" "a").address .usual
      = "/exports/my_report-1970-01-01T12-00-00.csv" := by
    decide +kernel
  have text : (Rivals.order "my report" "a").text = "value\na" := by decide +kernel
  have later : ((Rivals.order "my/report" "b").name, (Rivals.order "my/report" "b").text)
      = ("my_report-1970-01-01T12-00-00.csv", "value\nb") := by
    decide +kernel
  refine ⟨first, second, made, made', ?_, address ▸ told, text, ?_⟩
  · rw [calls, calls']
    change (List.replicate 8 Rivals.noon).Pairwise _
    decide
  · rw [filesAfter, written_append, made.written, made'.written, name, text, later]
    decide

end Executor

end Harvest
