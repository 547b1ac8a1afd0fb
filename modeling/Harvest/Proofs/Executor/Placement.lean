import Harvest.Command.Folder
import Harvest.Proofs.Executor.Files
import Mathlib.Data.List.DropRight

/-! Where exports put their files. No character of a file name means anything in a path, whatever
name is wanted; so the path of a file goes through the folder of exports and one step further, and
the address that the outputs tell ends with the same name.
-/

namespace Harvest

open TaskM Time

-----------------------------------------------------------------------------------------
-- Paths
-----------------------------------------------------------------------------------------

namespace Folder

/-- The path begins at the root. -/
def isRooted (path : String) : Bool := path.toList.head? == some '/'

/-- The path of what has a name in a folder; a name that begins at the root stands for itself. -/
def pathTo (folder name : String) : String :=
  if isRooted name then name
  else if folder.isEmpty || folder.toList.getLast? == some '/' then folder ++ name
  else folder ++ "/" ++ name

/-- The path leads to what has the name in the folder: it begins where the path of the folder does,
and goes one step further, which does not lead back.
-/
structure LeadsInto (path folder name : String) : Prop where
  root : isRooted path = isRooted folder
  further : steps path = steps folder ++ [name]
  forth : name ≠ ".."

/-- The empty path takes no step. -/
theorem steps_empty : steps "" = [] := by
  simp [steps]

/-- The steps in front of a slash and those behind it. -/
theorem steps_slash (front back : String)
    : steps (front ++ "/" ++ back) = steps front ++ steps back := by
  have chars : (front ++ "/" ++ back).toList = front.toList ++ '/' :: back.toList := by
    simp
  rw [steps, chars, List.splitOn_append_cons_self, List.map_append, List.filter_append]
  rfl

/-- A slash at the end is no step. -/
theorem steps_slash_end (front : String) : steps (front ++ "/") = steps front := by
  have split := steps_slash front ""
  rwa [String.append_empty, steps_empty, List.append_nil] at split

/-- A name without slashes is one step, unless it stands for where it is. -/
theorem steps_name {name : String} (whole : '/' ∉ name.toList) (some : name ≠ "")
    (away : name ≠ ".")
    : steps name = [name] := by
  rw [steps, List.splitOn_eq_singleton whole]
  simp [some, away]

/-- A path that goes on begins where it began. -/
theorem isRooted_append {front : String} (some : front ≠ "") (back : String)
    : isRooted (front ++ back) = isRooted front := by
  have filled : front.toList ≠ [] := by simpa using some
  rw [isRooted, isRooted, String.toList_append, List.head?_append_of_ne_nil _ filled]

/-- A name without slashes, which neither is empty nor consists of points, leads into the folder, by
cases on how its path is made.
-/
theorem leadsInto_pathTo (folder : String) {name : String} (whole : '/' ∉ name.toList)
    (some : name ≠ "") (away : name ≠ ".") (forth : name ≠ "..")
    : LeadsInto (pathTo folder name) folder name := by
  have unrooted : isRooted name = false := by
    refine beq_eq_false_iff_ne.mpr fun root => whole ?_
    exact List.mem_of_mem_head? root
  have step : steps name = [name] := steps_name whole some away
  rw [pathTo, if_neg (by simp [unrooted])]
  by_cases none : folder = ""
  · subst none
    refine ⟨unrooted, ?_, forth⟩
    change steps ("" ++ name) = _
    rw [String.empty_append, step, steps_empty, List.nil_append]
  -- A slash at the end of the folder is no step, so it stands for the one in between.
  by_cases ended : folder.toList.getLast? = Option.some '/'
  · obtain ⟨front, chars⟩ := List.getLast?_eq_some_iff.mp ended
    obtain rfl : folder = String.ofList front ++ "/" := by
      rw [← String.toList_inj]
      simp [chars]
    rw [if_pos (by simp)]
    refine ⟨isRooted_append none name, ?_, forth⟩
    rw [steps_slash, steps_slash_end, step]
  · rw [if_neg (by simp [none, ended]), String.append_assoc]
    refine ⟨isRooted_append none _, ?_, forth⟩
    rw [← String.append_assoc, steps_slash, step]

end Folder

/-- The path under which the file of an export is written. -/
def Export.path (settings : TaskSettings) (e : Export) : String :=
  Folder.pathTo settings.exportDir e.name

-----------------------------------------------------------------------------------------
-- Names of tables
-----------------------------------------------------------------------------------------

namespace Executor

/-- A letter or a digit of ASCII, a hyphen or an underscore. -/
def IsPlain (c : Char) : Prop :=
  ('A' ≤ c ∧ c ≤ 'Z') ∨ ('a' ≤ c ∧ c ≤ 'z') ∨ ('0' ≤ c ∧ c ≤ '9') ∨ c = '-' ∨ c = '_'

instance (c : Char) : Decidable (IsPlain c) := inferInstanceAs (Decidable (_ ∨ _))

/-- The name is that of a table: one plain character or more in front of the ending. -/
def IsTableName (name : String) : Prop :=
  ∃ stem : String, stem ≠ "" ∧ (∀ c ∈ stem.toList, IsPlain c) ∧ name = stem ++ ".csv"

/-- The name is free of whatever means something in a path. -/
structure IsInert (name : String) : Prop where
  slash : '/' ∉ name.toList
  backslash : '\\' ∉ name.toList
  null : '\x00' ∉ name.toList
  points : ¬ ['.', '.'] <:+: name.toList

/-- What a file name keeps are the plain characters. -/
theorem isNameChar_iff {c : Char} : isNameChar c ↔ IsPlain c := by
  have classes : c.isAlphanum
      = (decide ('A' ≤ c ∧ c ≤ 'Z') || decide ('a' ≤ c) && decide (c ≤ 'z')
        || decide ('0' ≤ c) && decide (c ≤ '9')) :=
    rfl
  simp [isNameChar, classes, IsPlain, or_assoc]

/-- Whatever name is wanted, a file name begins with plain characters. -/
theorem isPlain_of_mem_fileStem {wanted : Option String} {c : Char}
    (member : c ∈ (fileStem wanted).toList)
    : IsPlain c := by
  unfold fileStem at member
  split at member
  · rw [String.toList_map] at member
    obtain ⟨other, _, rfl⟩ := List.mem_map.mp member
    split
    · next kept => exact isNameChar_iff.mp kept
    · decide
  · have usual : "scraped-data".toList.all fun c => decide (IsPlain c) := by decide
    exact of_decide_eq_true (List.all_eq_true.mp usual c member)

/-- In years of four digits every file name is that of a table. -/
theorem isTableName_fileName (wanted : Option String) {time : Instant}
    (nonneg : 0 ≤ time.date.year) (year_le : time.date.year ≤ 9999)
    : IsTableName (fileName wanted time) := by
  refine ⟨fileStem wanted ++ "-" ++ time.fileText, by simp, fun c member => ?_, rfl⟩
  simp only [String.toList_append, List.mem_append] at member
  rcases member with (stem | hyphen) | text
  · exact isPlain_of_mem_fileStem stem
  · obtain rfl := List.mem_singleton.mp hyphen
    decide
  · rcases forall_mem_fileText nonneg year_le c text with digit | rfl | rfl
    · simp only [Text.isDigit, Bool.and_eq_true, decide_eq_true_eq] at digit
      exact Or.inr (Or.inr (Or.inl digit))
    · decide
    · decide

/-- The name of a table has its one point in front of the ending and no mark of a path. -/
theorem IsTableName.isInert {name : String} (table : IsTableName name) : IsInert name := by
  obtain ⟨stem, _, plain, rfl⟩ := table
  have absent {c : Char} (mark : ¬ IsPlain c) (other : c ∉ ".csv".toList)
      : c ∉ (stem ++ ".csv").toList := by
    rw [String.toList_append, List.mem_append]
    rintro (inside | ending)
    · exact mark (plain c inside)
    · exact other ending
  refine ⟨absent (by decide) (by decide), absent (by decide) (by decide),
    absent (by decide) (by decide), fun twice => ?_⟩
  have none : stem.toList.count '.' = 0 :=
    List.count_eq_zero.mpr fun inside => absurd (plain '.' inside) (by decide)
  have two := twice.sublist.count_le '.'
  rw [String.toList_append, List.count_append, none] at two
  exact absurd two (by decide)

/-- What has the name of a table is in the folder itself. -/
theorem IsTableName.leadsInto {name : String} (table : IsTableName name) (folder : String)
    : Folder.LeadsInto (Folder.pathTo folder name) folder name := by
  have inert := table.isInert
  obtain ⟨stem, _, _, rfl⟩ := table
  have apart {short : String} (few : short.toList.length ≤ 2) : stem ++ ".csv" ≠ short := by
    rintro rfl
    rw [String.toList_append, List.length_append] at few
    exact absurd (Nat.le_trans (Nat.le_add_left _ _) few) (by decide)
  exact Folder.leadsInto_pathTo folder inert.slash (apart (by decide)) (apart (by decide))
    (apart (by decide))

-----------------------------------------------------------------------------------------
-- Exports
-----------------------------------------------------------------------------------------

/-- A text is this one and slashes behind it, and this one does not end with one. -/
structure IsBase (text base : String) : Prop where
  slashes : ∃ n, text = base ++ String.ofList (List.replicate n '/')
  bare : base.toList.getLast? ≠ some '/'

/-- Trimming takes slashes from the end of the characters. -/
theorem toList_trimSlashes (text : String)
    : (Text.trimSlashes text).toList = text.toList.rdropWhile (· == '/') :=
  String.toList_ofList

/-- Trimming leaves what stands in front of the slashes at the end. -/
theorem isBase_trimSlashes (text : String) : IsBase text (Text.trimSlashes text) := by
  let isSlash (c : Char) : Bool := c == '/'
  have trimmed : (Text.trimSlashes text).toList = text.toList.rdropWhile isSlash :=
    toList_trimSlashes text
  have slashes : text.toList.rtakeWhile isSlash
      = List.replicate (text.toList.rtakeWhile isSlash).length '/' := by
    refine List.eq_replicate_of_mem fun c member => ?_
    have slash : isSlash c := List.mem_rtakeWhile_imp member
    exact beq_iff_eq.mp slash
  refine ⟨⟨(text.toList.rtakeWhile isSlash).length, String.toList_inj.mp ?_⟩, fun slash => ?_⟩
  · rw [String.toList_append, trimmed, String.toList_ofList, ← slashes,
      List.rdropWhile_append_rtakeWhile]
  · rw [trimmed] at slash
    have filled : text.toList.rdropWhile isSlash ≠ [] := fun none => by simp [none] at slash
    rw [List.getLast?_eq_some_getLast filled] at slash
    exact List.rdropWhile_last_not isSlash _ filled (beq_iff_eq.mpr (Option.some.inj slash))

/-- A text has no other base than what trimming leaves. -/
theorem IsBase.eq_trimSlashes {text base : String} (isBase : IsBase text base)
    : base = Text.trimSlashes text := by
  obtain ⟨⟨n, rfl⟩, bare⟩ := isBase
  have kept : base.toList.rdropWhile (· == '/') = base.toList := by
    refine List.rdropWhile_eq_self_iff.mpr fun filled slash => bare ?_
    rw [List.getLast?_eq_some_getLast filled, beq_iff_eq.mp slash]
  rw [← String.toList_inj, toList_trimSlashes, String.toList_append, String.toList_ofList,
    List.rdropWhile, List.reverse_append, List.reverse_replicate,
    List.dropWhile_append_of_pos fun c member => ?_]
  · exact kept.symm
  · exact beq_iff_eq.mpr (List.eq_of_mem_replicate member)

/-- However its calls are answered, an export refuses and leaves the outputs as they were, or it
succeeds and has written one file, of whose name the outputs tell the address: it stands behind a
slash and the base of addresses, whose own slashes at the end do not count. Whatever name is wanted,
in years of four digits the file has the name of a table, so its path leads into the folder of
exports.
-/
theorem exports_stay_inside (settings : TaskSettings) (work : Workspace)
    : (csvExport settings).Always work fun calls result left =>
        (result = .ok false ∧ left.outputs = work.outputs)
        ∨ result = .ok true
          ∧ ∃ e : Export, ∃ base,
              e.Of work
              ∧ e.named ∈ readings calls
              ∧ saves calls = [((e.name, e.text), .ok ())]
              ∧ IsBase settings.downloadBase base
              ∧ Named.get? Slot.downloadUrl left.outputs = some (.text (base ++ "/" ++ e.name))
              ∧ (0 ≤ e.named.date.year
                → e.named.date.year ≤ 9999
                → IsTableName e.name
                  ∧ IsInert e.name
                  ∧ Folder.LeadsInto (e.path settings) settings.exportDir e.name) := by
  refine (always_csvExport settings work).mono fun calls result left exported => ?_
  cases exported with
  | declined _ _ same => exact Or.inl ⟨rfl, same⟩
  | refused _ _ _ same => exact Or.inl ⟨rfl, same⟩
  | @saved e begun ended _ of told =>
      have address : Named.get? Slot.downloadUrl left.outputs
          = some (.text (e.address settings)) := by
        rw [told, Export.downloadUrl_told]
      refine Or.inr ⟨rfl, e, _, of, by simp [readings, Export.calls], rfl,
        isBase_trimSlashes settings.downloadBase, address, fun nonneg year_le => ?_⟩
      have table : IsTableName e.name := isTableName_fileName e.wanted nonneg year_le
      exact ⟨table, table.isInert, table.leadsInto settings.exportDir⟩

namespace Climbing

/-- The base of addresses ends with slashes. -/
def settings : TaskSettings := { TaskSettings.usual with downloadBase := "/exports//" }

/-- A name that would climb out of the folder, with blanks around it and a null character. -/
def wanted : String := " ../../etc/pass\x00wd\n"

/-- The name of the file. -/
def name : String := "______etc_pass_wd-1970-01-01T12-00-00.csv"

end Climbing

/-- The file is in the folder, although the name would lead out of it. -/
theorem exports_stay_inside_climbing
    : ∃ calls left,
        ((ExceptT.run (csvExport Climbing.settings)).run (Rivals.work Climbing.wanted "a")).Ends
          calls (.ok true, left)
        ∧ saves calls = [((Climbing.name, "value\na"), .ok ())]
        ∧ Named.get? Slot.downloadUrl left.outputs = some (.text ("/exports/" ++ Climbing.name))
        ∧ 0 ≤ Rivals.noon.date.year
        ∧ Rivals.noon.date.year ≤ 9999
        ∧ IsTableName Climbing.name
        ∧ IsInert Climbing.name
        ∧ Folder.LeadsInto ("public/exports/" ++ Climbing.name) "public/exports" Climbing.name := by
  let order : Export := Rivals.order Climbing.wanted "a"
  have of : order.Of (Rivals.work Climbing.wanted "a") := Rivals.order_of _ _ (by decide)
  obtain ⟨left, ends⟩ := exists_saved Climbing.settings of Rivals.noon Rivals.noon
  rcases exports_stay_inside Climbing.settings _ _ _ ends with
    ⟨refused, _⟩ | ⟨_, e, base, _, read, saved, isBase, address, inside⟩
  · cases refused
  have file : (order.name, order.text) = (Climbing.name, "value\na") := by decide +kernel
  have wrote : saves (order.calls Rivals.noon Rivals.noon)
      = [((Climbing.name, "value\na"), .ok ())] := by
    rw [← file]
    rfl
  have same := (List.cons.inj (wrote.symm.trans saved)).1
  have name : e.name = Climbing.name := (Prod.mk.inj (Prod.mk.inj same).1).1.symm
  have noon : e.named = Rivals.noon := List.eq_of_mem_replicate (n := 4) read
  have years : 0 ≤ Rivals.noon.date.year ∧ Rivals.noon.date.year ≤ 9999 := by decide +kernel
  obtain rfl : base = "/exports" := isBase.eq_trimSlashes.trans (by decide +kernel)
  obtain ⟨table, inert, leads⟩ := inside (noon ▸ years.1) (noon ▸ years.2)
  have path : Folder.pathTo "public/exports" Climbing.name
      = "public/exports/" ++ Climbing.name := by
    decide +kernel
  rw [Export.path, name] at leads
  exact ⟨_, left, ends, wrote, name ▸ address, years.1, years.2, name ▸ table, name ▸ inert,
    path ▸ leads⟩

end Executor

end Harvest
