import Harvest.Executor.Standard
import Harvest.Proofs.Executor.Parts
import Harvest.Task.Standard

/-! What standard tasks report of required texts. A task whose required texts are all there reports
none of them as absent, and one that lacks a required text refuses at once with such a report.
-/

namespace Harvest

open TaskM

/-- The required inputs of a task type that are texts. -/
def Catalog.requiredTexts (catalog : Catalog) (t : TaskType) : List String :=
  ((((catalog.get? t).map (·.inputs)).getD []).filter fun param =>
    param.required && param.kind == .string).map (·.name)

/-- How a standard task says that a required text is absent. Some tasks do not name the text. -/
def absence (t : TaskType) (name : String) : String :=
  match t with
  | .extractMultiple => "Html not defined"
  | .csvExport => "Data Source is required"
  | .customScript => "JavaScript Code not provided"
  | .pagination => "Missing required inputs"
  | _ => "input->" ++ name ++ " is not defined"

/-- The entries that a task has made before any code of a user could make one. -/
def ownEntries (t : TaskType) (added : Log) : Log :=
  if t = .customScript then added.take 1 else added

/-- A task has reported that a required text is absent. -/
def Reports (t : TaskType) (name : String) (work left : Workspace) : Prop :=
  ∃ added,
    left.log = work.log ++ added
    ∧ ∃ entry ∈ ownEntries t added, entry.level = .error ∧ entry.message = absence t name

/-- What a task makes of absent texts: it reports none but for an absent one, and it refuses with a
report when there is one.
-/
structure Judges (t : TaskType) (work : Workspace) (result : Except Halt Bool)
    (left : Workspace) : Prop where
  truthful
    : ∀ name ∈ Catalog.standard.requiredTexts t,
        Reports t name work left
        → ∃ other ∈ Catalog.standard.requiredTexts t,
            absence t other = absence t name ∧ work.inputText? other = none
  refused
    : ∀ name ∈ Catalog.standard.requiredTexts t,
        work.inputText? name = none
        → result = .ok false
          ∧ ∃ other ∈ Catalog.standard.requiredTexts t,
              work.inputText? other = none ∧ Reports t other work left

-----------------------------------------------------------------------------------------
-- Entries that a part makes
-----------------------------------------------------------------------------------------

/-- Every entry that a part adds to the log fits. -/
def TaskM.Logs {α : Type} (fits : LogLevel → String → Prop) (part : TaskM α) : Prop :=
  ∀ work, part.Always work fun _ _ left =>
    ∃ added, left.log = work.log ++ added ∧ ∀ entry ∈ added, fits entry.level entry.message

namespace TaskM.Logs

variable {α β : Type} {fits : LogLevel → String → Prop}

theorem pure {value : α} : (Pure.pure value : TaskM α).Logs fits :=
  fun _ => always_pure.mpr ⟨[], by simp⟩

theorem throw {halt : Halt} : (MonadExcept.throw halt : TaskM α).Logs fits :=
  fun _ => always_throw.mpr ⟨[], by simp⟩

/-- A sequence says what its parts say. -/
theorem bind {part : TaskM α} {next : α → TaskM β} (first : part.Logs fits)
    (rest : ∀ value, (next value).Logs fits)
    : (part >>= next).Logs fits := by
  intro work
  refine always_bind.mpr ((first work).mono fun calls result middle ⟨added, log, fit⟩ => ?_)
  cases result with
  | error halt => exact ⟨added, log, fit⟩
  | ok value =>
      refine (rest value middle).mono fun more result left ⟨later, log', fit'⟩ => ?_
      exact ⟨added ++ later, by simp [log', log], List.forall_mem_append.mpr ⟨fit, fit'⟩⟩

theorem ask {call : TaskCall} : (TaskM.ask call).Logs fits :=
  fun _ => always_ask.mpr fun _ => ⟨[], by simp⟩

theorem orHalt {answer : Except BrowserError α} : (TaskM.orHalt answer).Logs fits := by
  cases answer with
  | ok value => exact pure
  | error reason => exact throw

/-- A part that keeps the log says nothing. -/
theorem modify {f : Workspace → Workspace} (same : ∀ work, (f work).log = work.log)
    : (MonadState.modifyGet fun work => (⟨⟩, f work) : TaskM PUnit).Logs fits :=
  fun work => always_modify.mpr ⟨[], by simp [same]⟩

theorem log {level : LogLevel} {message : String} (fit : fits level message)
    : (TaskM.log level message).Logs fits :=
  fun _ => always_log.mpr fun time =>
    ⟨[⟨level, message, time⟩], rfl, List.forall_mem_singleton.mpr fit⟩

theorem refuse {message : String} (fit : fits .error message) : (TaskM.refuse message).Logs fits :=
  bind (log fit) fun _ => pure

theorem output {name : String} {value : TaskValue} : (TaskM.output name value).Logs fits :=
  modify fun _ => rfl

theorem input? {name : String} : (TaskM.input? name).Logs fits :=
  fun _ => always_input?.mpr ⟨[], by simp⟩

theorem inputText? {name : String} : (TaskM.inputText? name).Logs fits :=
  fun _ => always_inputText?.mpr ⟨[], by simp⟩

theorem requirePage (fit : fits .error "No browser page available")
    : TaskM.requirePage.Logs fits := by
  refine bind (fun _ => always_get.mpr ⟨[], by simp⟩) fun work => ?_
  cases work.page with
  | some page => exact pure
  | none => exact bind (log fit) fun _ => pure

end TaskM.Logs

-----------------------------------------------------------------------------------------
-- Messages that are no reports
-----------------------------------------------------------------------------------------

/-- An entry is no report of an absent text. -/
def Apart (t : TaskType) (level : LogLevel) (message : String) : Prop :=
  level = .error → ∀ name, message ≠ absence t name

/-- The letter that the reports of a task begin with. -/
def absenceInitial : TaskType → Char
  | .extractMultiple => 'H'
  | .csvExport => 'D'
  | .customScript => 'J'
  | .pagination => 'M'
  | _ => 'i'

/-- A message that is longer at its end begins with the same letter. -/
theorem head?_longer {message rest : String} {c : Char} (head : message.toList.head? = some c)
    : (message ++ rest).toList.head? = some c := by
  rw [String.toList_append, List.head?_append, head]
  rfl

theorem head?_absence (t : TaskType) (name : String)
    : (absence t name).toList.head? = some (absenceInitial t) := by
  cases t <;> simp [absence, absenceInitial]

/-- A message that begins with another letter is no report. -/
theorem apart_of_head {t : TaskType} {level : LogLevel} {message : String} {c : Char}
    (head : message.toList.head? = some c) (other : c ≠ absenceInitial t)
    : Apart t level message := by
  intro _ name same
  rw [same, head?_absence] at head
  exact other (Option.some.inj head).symm

theorem apart_info {t : TaskType} {message : String} : Apart t .info message := nofun

-----------------------------------------------------------------------------------------
-- Judging
-----------------------------------------------------------------------------------------

section

variable {t : TaskType} {work left : Workspace} {result : Except Halt Bool}

/-- A task that requires no text judges none. -/
theorem judges_of_nil (none : Catalog.standard.requiredTexts t = [])
    : Judges t work result left := by
  constructor <;> simp [none]

/-- A task that refuses with nothing but a true report judges well. -/
theorem judges_of_absent {name : String} (declared : name ∈ Catalog.standard.requiredTexts t)
    (absent : work.inputText? name = none) (time : Time.Instant)
    : Judges t work (.ok false) (work.record .error (absence t name) time) := by
  have own : ownEntries t [⟨.error, absence t name, time⟩] = [⟨.error, absence t name, time⟩] := by
    unfold ownEntries
    split <;> rfl
  constructor
  · rintro other _ ⟨added, log, entry, here, _, message⟩
    obtain rfl := List.append_cancel_left log
    rw [own] at here
    obtain rfl := List.mem_singleton.mp here
    exact ⟨name, declared, message, absent⟩
  · refine fun _ _ _ => ⟨rfl, name, declared, absent, [⟨.error, absence t name, time⟩], rfl, ?_⟩
    exact ⟨_, own ▸ List.mem_singleton_self _, rfl, rfl⟩

/-- A task whose required texts are there judges well when it reports nothing. -/
theorem judges_of_apart
    (there : ∀ name ∈ Catalog.standard.requiredTexts t, work.inputText? name ≠ none)
    {added : Log} (log : left.log = work.log ++ added)
    (apart : ∀ entry ∈ ownEntries t added, Apart t entry.level entry.message)
    : Judges t work result left := by
  constructor
  · rintro name declared ⟨other, log', entry, here, error, message⟩
    obtain rfl := List.append_cancel_left (log'.symm.trans log)
    exact absurd message (apart entry here error name)
  · exact fun name declared absent => absurd absent (there name declared)

/-- What remains of such a task may say what is no report. -/
theorem judges_of_logs {rest : Executor}
    (there : ∀ name ∈ Catalog.standard.requiredTexts t, work.inputText? name ≠ none)
    (logs : rest.Logs (Apart t))
    : rest.Always work fun _ result left => Judges t work result left := by
  refine (logs work).mono fun _ result left ⟨added, log, apart⟩ => ?_
  refine judges_of_apart there log fun entry here => apart entry ?_
  unfold ownEntries at here
  split at here
  · exact List.mem_of_mem_take here
  · exact here

/-- A required text is read, or its absence is reported. -/
theorem judges_requireText {name : String} {next : Option String → Executor}
    (declared : name ∈ Catalog.standard.requiredTexts t)
    (reports : absence t name = "input->" ++ name ++ " is not defined")
    (stops : next none = pure false)
    (rest
      : ∀ text,
          work.inputText? name = some text
          → (next (some text)).Always work fun _ result left => Judges t work result left)
    : (requireText name >>= next).Always work fun _ result left => Judges t work result left := by
  refine always_bind.mpr (always_requireText.mpr ⟨rest, fun absent time => ?_⟩)
  change (next none).Always _ _
  rw [stops, ← reports]
  exact always_pure.mpr (judges_of_absent declared absent time)

theorem judges_inputText? {name : String} {next : Option String → Executor}
    (declared : name ∈ Catalog.standard.requiredTexts t)
    (stops : next none = refuse (absence t name))
    (rest
      : ∀ text,
          work.inputText? name = some text
          → (next (some text)).Always work fun _ result left => Judges t work result left)
    : (inputText? name >>= next).Always work fun _ result left => Judges t work result left := by
  refine always_bind.mpr (always_inputText?.mpr ?_)
  change (next (work.inputText? name)).Always _ _
  cases read : work.inputText? name with
  | some text => exact rest text read
  | none =>
      rw [stops]
      exact always_refuse.mpr fun time => judges_of_absent declared read time

end

-----------------------------------------------------------------------------------------
-- The standard tasks
-----------------------------------------------------------------------------------------

namespace Executor

variable (work : Workspace)

theorem launchBrowser_judges
    : launchBrowser.Always work fun _ result left => Judges .launchBrowser work result left := by
  refine judges_requireText (by decide) rfl rfl fun url there => judges_of_logs ?_ ?_
  · change ∀ name ∈ [Slot.websiteUrl], _
    simp [there]
  · refine .bind .ask fun answer => .bind .orHalt fun browser => ?_
    refine .bind (.modify fun _ => rfl) fun _ => .bind (.log apart_info) fun _ => ?_
    refine .bind .ask fun opened => .bind .orHalt fun page => ?_
    refine .bind (.modify fun _ => rfl) fun _ => ?_
    refine .bind .ask fun reached => .bind .orHalt fun _ => .bind (.log apart_info) fun _ => ?_
    exact .bind .output fun _ => .pure

theorem navigateUrl_judges
    : navigateUrl.Always work fun _ result left => Judges .navigateUrl work result left := by
  refine judges_requireText (by decide) rfl rfl fun url there => judges_of_logs ?_ ?_
  · change ∀ name ∈ [Slot.url], _
    simp [there]
  · refine .bind (.requirePage (apart_of_head rfl (by decide))) fun page => ?_
    cases page with
    | none => exact .pure
    | some page =>
        refine .bind .ask fun reached => .bind .orHalt fun _ => .bind (.log apart_info) fun _ => ?_
        exact .bind .output fun _ => .pure

theorem fillInput_judges
    : fillInput.Always work fun _ result left => Judges .fillInput work result left := by
  refine judges_requireText (by decide) rfl rfl fun selector there => ?_
  refine judges_requireText (by decide) rfl rfl fun value there' => judges_of_logs ?_ ?_
  · change ∀ name ∈ [Slot.selector, Slot.value], _
    simp [there, there']
  · refine .bind (.requirePage (apart_of_head rfl (by decide))) fun page => ?_
    cases page with
    | none => exact .pure
    | some page =>
        refine .bind .ask fun typed => .bind .orHalt fun _ => ?_
        exact .bind .output fun _ => .pure

theorem extractText_judges
    : extractText.Always work fun _ result left => Judges .extractText work result left := by
  refine judges_requireText (by decide) rfl rfl fun page there => ?_
  refine judges_requireText (by decide) rfl rfl fun selector there' => judges_of_logs ?_ ?_
  · change ∀ name ∈ [Slot.html, Slot.selector], _
    simp [there, there']
  · dsimp only
    cases Markup.Selector.ofText? selector with
    | none =>
        exact .refuse (apart_of_head (head?_longer (head?_longer (head?_longer rfl))) (by decide))
    | some found =>
        dsimp only
        cases (Markup.Document.ofPage page).select found with
        | nil => exact .refuse (apart_of_head rfl (by decide))
        | cons n _ =>
            dsimp only
            split
            · exact .refuse (apart_of_head rfl (by decide))
            · exact .bind .output fun _ => .pure

theorem extractMultiple_judges
    : extractMultiple.Always work fun _ result left =>
        Judges .extractMultiple work result left := by
  refine judges_inputText? (by decide) rfl fun page there => judges_of_logs ?_ ?_
  · change ∀ name ∈ [Slot.html], _
    simp [there]
  · refine .bind .input? fun value => ?_
    cases value with
    | none => exact .refuse (apart_of_head rfl (by decide))
    | some value =>
    dsimp only
    cases (Field.listOf? value).filter (!·.isEmpty) with
    | none => exact .refuse (apart_of_head rfl (by decide))
    | some fields =>
    dsimp only
    cases extractFields (.ofPage page) fields with
    | error selector =>
        exact .refuse (apart_of_head (head?_longer (head?_longer (head?_longer rfl))) (by decide))
    | ok data => exact .bind (.log apart_info) fun _ => .bind .output fun _ => .pure

theorem csvExport_judges (settings : TaskSettings)
    : (csvExport settings).Always work fun _ result left => Judges .csvExport work result left := by
  refine judges_inputText? (by decide) rfl fun source there => judges_of_logs ?_ ?_
  · change ∀ name ∈ [Slot.dataSource], _
    simp [there]
  · dsimp only
    cases Json.parse source with
    | error reason => exact .refuse (apart_of_head (head?_longer rfl) (by decide))
    | ok data =>
    refine .bind (.log apart_info) fun _ => .bind .ask fun time => ?_
    split
    · exact .refuse (apart_of_head rfl (by decide))
    · refine .bind .inputText? fun wanted => .bind .ask fun later => .bind .ask fun saved => ?_
      cases saved with
      | error reason => exact .refuse (apart_of_head (head?_longer rfl) (by decide))
      | ok _ =>
          refine .bind .output fun _ => .bind .output fun _ => .bind (.log apart_info) fun _ => ?_
          exact .pure

/-- The reading of a page says what failed. -/
theorem logs_readPage (job : PageJob) (number : Int) (url : String)
    : (readPage job number url).Logs (Apart .pagination) := by
  have failed (reason : BrowserError)
      : Apart .pagination .error
          ("Failed to process page " ++ toString number ++ ": " ++ reason.message) :=
    apart_of_head (head?_longer (head?_longer (head?_longer rfl))) (by decide)
  refine .bind (.log apart_info) fun _ => .bind .ask fun opened => ?_
  cases opened with
  | error reason => exact .bind (.log (failed reason)) fun _ => .pure
  | ok _ =>
      refine .bind .ask fun shown => ?_
      cases shown with
      | error reason => exact .bind (.log apart_info) fun _ => .pure
      | ok _ =>
          refine .bind .ask fun read => ?_
          cases read with
          | error reason => exact .bind (.log (failed reason)) fun _ => .pure
          | ok found => exact .bind (.log apart_info) fun _ => .bind .ask fun _ => .pure

theorem logs_readPages (job : PageJob) (address : Int → String) (numbers : List Int)
    : (readPages job address numbers).Logs (Apart .pagination) := by
  induction numbers with
  | nil => exact .pure
  | cons number numbers ih =>
      exact .bind (logs_readPage job number _) fun _ => .bind ih fun _ => .pure

theorem pagination_judges (settings : TaskSettings)
    : (pagination settings).Always work fun _ result left =>
        Judges .pagination work result left := by
  have missing {name : String} (declared : name ∈ Catalog.standard.requiredTexts .pagination)
      (absent : work.inputText? name = none)
      : pagination.missing.Always work fun _ result left => Judges .pagination work result left :=
    always_refuse.mpr fun time => judges_of_absent declared absent time
  unfold pagination
  rw [always_bind, always_get]
  dsimp only [List.nil_append]
  cases base : work.inputText? Slot.baseUrl with
  | none => exact missing (by decide) base
  | some base' =>
  cases sign : work.inputText? Slot.paginationSign with
  | none => exact missing (by decide) sign
  | some sign' =>
  cases first : work.inputText? Slot.startPage with
  | none => exact missing (by decide) first
  | some first' =>
  cases last : work.inputText? Slot.endPage with
  | none => exact missing (by decide) last
  | some last' =>
  cases selector : work.inputText? Slot.elementSelector with
  | none => exact missing (by decide) selector
  | some selector' =>
  cases attribute' : work.inputText? Slot.attributeName with
  | none => exact missing (by decide) attribute'
  | some attributeName =>
  refine judges_of_logs ?_ ?_
  · change ∀ name ∈ [Slot.baseUrl, Slot.paginationSign, Slot.startPage, Slot.endPage,
      Slot.elementSelector, Slot.attributeName], _
    simp [base, sign, first, last, selector, attribute']
  · dsimp only
    cases PageRange.parse first' last' with
    | error reason => cases reason <;> exact .refuse (apart_of_head rfl (by decide))
    | ok range =>
        refine .bind (.requirePage (apart_of_head rfl (by decide))) fun page => ?_
        cases page with
        | none => exact .pure
        | some page =>
            refine .bind (.log apart_info) fun _ => .bind (logs_readPages _ _ _) fun results => ?_
            refine .bind .output fun _ => .bind .output fun _ => .bind (.log apart_info) fun _ => ?_
            exact .pure

/-- What a script logged is taken over, whatever it is. -/
theorem logs_takeOutcome (outcome : ScriptOutcome)
    : (takeOutcome outcome).Logs fun _ _ => True := by
  have lines (lines : List ScriptLine) : (logScript lines).Logs fun _ _ => True := by
    induction lines with
    | nil => exact .pure
    | cons line lines ih => exact .bind (.log trivial) fun _ => ih
  refine .bind (lines outcome.logs) fun _ => ?_
  dsimp only
  split
  · exact .refuse trivial
  · refine .bind (.log trivial) fun _ => ?_
    cases outcome.resultText? with
    | none => exact .bind .output fun _ => .pure
    | some text => exact .bind .output fun _ => .bind .output fun _ => .pure

/-- A script whose code is there may say what it likes behind an entry that is no report. -/
theorem judges_of_first {level : LogLevel} {message : String} {next : Unit → Executor}
    (there : ∀ name ∈ Catalog.standard.requiredTexts .customScript, work.inputText? name ≠ none)
    (apart : Apart .customScript level message) (logs : (next ()).Logs fun _ _ => True)
    : (log level message >>= next).Always work fun _ result left =>
        Judges .customScript work result left := by
  refine always_bind.mpr (always_log.mpr fun time => ?_)
  refine (logs (work.record level message time)).mono fun _ result left ⟨added, more, _⟩ => ?_
  have whole : left.log = work.log ++ (⟨level, message, time⟩ :: added) := by
    simp [more, Workspace.record]
  exact judges_of_apart there whole (List.forall_mem_singleton.mpr apart)

/-- Before its code runs, a script says that there is no page or that it starts. -/
theorem customScript_judges (settings : TaskSettings)
    : (customScript settings).Always work fun _ result left =>
        Judges .customScript work result left := by
  refine judges_inputText? (by decide) rfl fun code there => ?_
  have read : ∀ name ∈ Catalog.standard.requiredTexts .customScript,
      work.inputText? name ≠ none := by
    change ∀ name ∈ [Slot.scriptCode], _
    simp [there]
  have pageless : Apart .customScript .error "No browser page available" :=
    apart_of_head rfl (by decide)
  refine always_bind.mpr (always_requirePage.mpr ⟨fun page _ => ?_, fun _ time => ?_⟩)
  · refine always_bind.mpr (always_input?.mpr (judges_of_first work read apart_info ?_))
    refine .bind .ask fun answer => ?_
    cases answer with
    | none => exact .refuse trivial
    | some answered =>
    cases answered with
    | error reason => exact .refuse trivial
    | ok value =>
    dsimp only
    cases Json.decodeTree ScriptOutcome.decode value with
    | error reason => exact .throw
    | ok outcome => exact logs_takeOutcome outcome
  · exact always_pure.mpr (judges_of_apart read rfl (List.forall_mem_singleton.mpr pageless))

end Executor

/-- Only a pagination reports several texts with one message. -/
theorem absence_inj {t : TaskType} (other : t ≠ .pagination)
    : ∀ one ∈ Catalog.standard.requiredTexts t, ∀ two ∈ Catalog.standard.requiredTexts t,
        absence t one = absence t two → one = two := by
  cases t
  case pagination => exact absurd rfl other
  all_goals decide

/-- The standard tasks judge their required texts well. -/
theorem standard_judges {settings : TaskSettings} {t : TaskType} {executor : Executor}
    (standard : Registry.standard settings t = some executor) (work : Workspace)
    : executor.Always work fun _ result left => Judges t work result left := by
  cases t <;> obtain rfl := Option.some.inj standard
  case launchBrowser => exact Executor.launchBrowser_judges work
  case extractText => exact Executor.extractText_judges work
  case extractMultiple => exact Executor.extractMultiple_judges work
  case fillInput => exact Executor.fillInput_judges work
  case navigateUrl => exact Executor.navigateUrl_judges work
  case pagination => exact Executor.pagination_judges work settings
  case csvExport => exact Executor.csvExport_judges work settings
  case customScript => exact Executor.customScript_judges work settings
  case closeBrowser | pageToHtml => exact fun _ _ _ => judges_of_nil rfl

end Harvest
