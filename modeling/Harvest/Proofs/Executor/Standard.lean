import Harvest.Proofs.Executor.Pages

/-! The standard tasks keep their contract. There is one rule for each way in which a task goes on;
the proof for a task follows its text, and stops only where browsers are launched or closed.
-/

namespace Harvest

open TaskM

-----------------------------------------------------------------------------------------
-- Going on
-----------------------------------------------------------------------------------------

/-- What remains of a task that is no pagination, was lent a workspace and has come to another one
in an orderly way keeps the contract.
-/
def Upholds (t : TaskType) (work now : Workspace) (part : Executor) : Prop :=
  t ≠ .pagination → ∀ calls, Orderly t work calls now →
    part.Always now fun more result left => Contract t work (calls ++ more) result left

namespace Upholds

variable {t : TaskType} {work now : Workspace} {α : Type}

/-- A task that keeps the contract from the beginning keeps it. -/
theorem contract {executor : Executor} (upholds : Upholds t work work executor)
    (other : t ≠ .pagination)
    : executor.Always work (Contract t work) :=
  upholds other [] (.refl t work)

/-- A task may end when its outputs are filled. -/
theorem done (filled : t ≠ .customScript → ∀ name ∈ Catalog.standard.outputNames t, now.Has name)
    : Upholds t work now (pure true) := by
  intro _ calls orderly
  refine always_pure.mpr ?_
  rw [List.append_nil]
  exact orderly.done filled

/-- A task may refuse with an error. -/
theorem refuses {message : String} : Upholds t work now (refuse message) := by
  intro other calls orderly
  exact always_refuse.mpr fun time => orderly.refuses message time other

/-- A task may break off. -/
theorem breaks {halt : Halt} : Upholds t work now (throw halt) := by
  intro other calls orderly
  refine always_throw.mpr ?_
  rw [List.append_nil]
  exact orderly.broken halt other

/-- A modest part may come first. -/
theorem bind {part : TaskM α} {next : α → Executor}
    (first
      : part.Always now fun calls result left =>
          Modest now calls left ∧ ∀ value, result = .ok value → Upholds t work left (next value))
    : Upholds t work now (part >>= next) := by
  intro other calls orderly
  refine always_bind.mpr (first.mono fun more result left ⟨modest, rest⟩ => ?_)
  have soFar := orderly.goesOn modest
  cases result with
  | ok value => simpa using rest value rfl other (calls ++ more) soFar
  | error halt => exact soFar.broken halt other

/-- A call that has to do with no browser is answered. -/
theorem ask {call : TaskCall} {next : call.Answer → Executor} (minor : call.IsMinor)
    (rest : ∀ answer, Upholds t work now (next answer))
    : Upholds t work now (TaskM.ask call >>= next) :=
  bind (always_ask.mpr fun answer => ⟨.asked now call minor answer, by simpa using rest answer⟩)

theorem orHalt {answer : Except BrowserError α} {next : α → Executor}
    (rest : ∀ value, answer = .ok value → Upholds t work now (next value))
    : Upholds t work now (TaskM.orHalt answer >>= next) := by
  refine bind (always_orHalt.mpr ?_)
  cases answer with
  | ok value => exact ⟨.refl now, by simpa using rest value rfl⟩
  | error reason => exact ⟨.refl now, nofun⟩

theorem log {level : LogLevel} {message : String} {next : Unit → Executor}
    (rest : ∀ time, Upholds t work (now.record level message time) (next ()))
    : Upholds t work now (TaskM.log level message >>= next) :=
  bind (always_log.mpr fun time =>
    ⟨(Modest.refl now).record level message time, fun _ _ => rest time⟩)

theorem output {name : String} {value : TaskValue} {next : Unit → Executor}
    (rest : Upholds t work (now.setOutput name value) (next ()))
    : Upholds t work now (TaskM.output name value >>= next) :=
  bind (always_output.mpr ⟨(Modest.refl now).setOutput name value, fun _ _ => rest⟩)

/-- The page of the run is replaced. -/
theorem setPage {page : Option PageId} {next : Unit → Executor}
    (rest : Upholds t work { now with page := page } (next ()))
    : Upholds t work now ((modify fun work => { work with page := page }) >>= next) :=
  bind (always_modify.mpr
    ⟨⟨.setHandles (.refl now) now.browser page, by simp, rfl⟩, fun _ _ => rest⟩)

theorem input? {name : String} {next : Option TaskValue → Executor}
    (rest : Upholds t work now (next (now.input? name)))
    : Upholds t work now (TaskM.input? name >>= next) :=
  bind (always_input?.mpr ⟨.refl now, by simpa using rest⟩)

theorem inputText? {name : String} {next : Option String → Executor}
    (rest : Upholds t work now (next (now.inputText? name)))
    : Upholds t work now (TaskM.inputText? name >>= next) :=
  bind (always_inputText?.mpr ⟨.refl now, by simpa using rest⟩)

/-- A task may refuse when a text or the page is not there. -/
theorem requireText {name : String} {next : Option String → Executor}
    (refuses : next none = pure false) (rest : ∀ text, Upholds t work now (next (some text)))
    : Upholds t work now (TaskM.requireText name >>= next) := by
  intro other calls orderly
  refine always_bind.mpr (always_requireText.mpr ⟨fun text _ => ?_, fun _ time => ?_⟩)
  · exact rest text other calls orderly
  · change (next none).Always _ _
    rw [refuses]
    exact always_pure.mpr (orderly.refuses _ time other)

theorem requirePage {next : Option PageId → Executor}
    (refuses : next none = pure false) (rest : ∀ page, Upholds t work now (next (some page)))
    : Upholds t work now (TaskM.requirePage >>= next) := by
  intro other calls orderly
  refine always_bind.mpr (always_requirePage.mpr ⟨fun page _ => ?_, fun _ time => ?_⟩)
  · exact rest page other calls orderly
  · change (next none).Always _ _
    rw [refuses]
    exact always_pure.mpr (orderly.refuses _ time other)

end Upholds

namespace Executor

variable (work : Workspace)

theorem navigateUrl_contract : navigateUrl.Always work (Contract .navigateUrl work) := by
  refine Upholds.contract ?_ nofun
  refine .requireText rfl fun url => ?_
  refine .requirePage rfl fun page => ?_
  refine .ask trivial fun reached => .orHalt fun _ _ => ?_
  refine .log fun _ => .output (.done fun _ => ?_)
  change ∀ name ∈ [Slot.webPage], _
  simp

theorem pageToHtml_contract : pageToHtml.Always work (Contract .pageToHtml work) := by
  refine Upholds.contract ?_ nofun
  refine .requirePage rfl fun page => ?_
  refine .ask trivial fun content => .orHalt fun html _ => ?_
  refine .output (.output (.done fun _ => ?_))
  change ∀ name ∈ [Slot.html, Slot.webPage], _
  simp

theorem fillInput_contract : fillInput.Always work (Contract .fillInput work) := by
  refine Upholds.contract ?_ nofun
  refine .requireText rfl fun selector => .requireText rfl fun value => ?_
  refine .requirePage rfl fun page => ?_
  refine .ask trivial fun typed => .orHalt fun _ _ => .output (.done fun _ => ?_)
  change ∀ name ∈ [Slot.webPage], _
  simp

theorem extractText_contract : extractText.Always work (Contract .extractText work) := by
  refine Upholds.contract ?_ nofun
  refine .requireText rfl fun page => .requireText rfl fun selector => ?_
  dsimp only
  cases Markup.Selector.ofText? selector with
  | none => exact .refuses
  | some found =>
      dsimp only
      cases (Markup.Document.ofPage page).select found with
      | nil => exact .refuses
      | cons n _ =>
          dsimp only
          split
          · exact .refuses
          · refine .output (.done fun _ => ?_)
            change ∀ name ∈ [Slot.extractedText], _
            simp

theorem extractMultiple_contract
    : extractMultiple.Always work (Contract .extractMultiple work) := by
  refine Upholds.contract ?_ nofun
  refine .inputText? ?_
  cases work.inputText? Slot.html with
  | none => exact .refuses
  | some page =>
  refine .input? ?_
  cases work.input? Slot.fields with
  | none => exact .refuses
  | some value =>
  dsimp only
  cases (Field.listOf? value).filter (!·.isEmpty) with
  | none => exact .refuses
  | some fields =>
  dsimp only
  cases extractFields (.ofPage page) fields with
  | error selector => exact .refuses
  | ok data =>
      refine .log fun _ => .output (.done fun _ => ?_)
      change ∀ name ∈ [Slot.extractedData], _
      simp

theorem csvExport_contract (settings : TaskSettings)
    : (csvExport settings).Always work (Contract .csvExport work) := by
  refine Upholds.contract ?_ nofun
  refine .inputText? ?_
  cases work.inputText? Slot.dataSource with
  | none => exact .refuses
  | some source =>
  dsimp only
  cases Json.parse source with
  | error reason => exact .refuses
  | ok data =>
  refine .log fun _ => .ask trivial fun time => ?_
  split
  · exact .refuses
  · refine .inputText? (.ask trivial fun later => .ask trivial fun saved => ?_)
    cases saved with
    | error reason => exact .refuses
    | ok _ =>
        refine .output (.output (.log fun _ => .done fun _ => ?_))
        change ∀ name ∈ [Slot.downloadUrl, Slot.rowCount], _
        simp

/-- The lines of a script are only added to the log, by induction over them. -/
theorem always_logScript (lines : List ScriptLine)
    : (logScript lines).Always work fun calls result left =>
        Modest work calls left ∧ result = .ok () := by
  induction lines generalizing work with
  | nil => exact always_pure.mpr ⟨.refl work, rfl⟩
  | cons line lines ih =>
      refine always_bind.mpr (always_log.mpr fun time => ?_)
      have logged := (Modest.refl work).record (scriptLevel line.level) line.message time
      exact (ih _).mono fun calls result left ⟨modest, ends⟩ => ⟨logged.trans modest, ends⟩

/-- What a script came to is taken over. -/
theorem upholds_takeOutcome (now : Workspace) (outcome : ScriptOutcome)
    : Upholds .customScript work now (takeOutcome outcome) := by
  refine .bind ((always_logScript now outcome.logs).mono fun calls result left scripted => ?_)
  refine ⟨scripted.1, fun _ _ => ?_⟩
  dsimp only
  split
  · exact .refuses
  · refine .log fun _ => ?_
    cases outcome.resultText? with
    | none => exact .output (.done fun scripts => absurd rfl scripts)
    | some text => exact .output (.output (.done fun scripts => absurd rfl scripts))

theorem customScript_contract (settings : TaskSettings)
    : (customScript settings).Always work (Contract .customScript work) := by
  refine Upholds.contract (.inputText? ?_) nofun
  cases work.inputText? Slot.scriptCode with
  | none => exact .refuses
  | some code =>
  refine .requirePage rfl fun page => ?_
  refine .input? (.log fun _ => .ask trivial fun answer => ?_)
  cases answer with
  | none => exact .refuses
  | some answered =>
  cases answered with
  | error reason => exact .refuses
  | ok value =>
  dsimp only
  cases Json.decodeTree ScriptOutcome.decode value with
  | error reason => exact .breaks
  | ok outcome => exact upholds_takeOutcome work _ outcome

/-- A launched browser takes the place of the one that was due to be closed before. -/
theorem launchBrowser_contract
    : launchBrowser.Always work (Contract .launchBrowser work) := by
  have other : TaskType.launchBrowser ≠ .pagination := nofun
  refine always_bind.mpr (always_requireText.mpr ⟨fun url _ => ?_, fun _ time => ?_⟩)
  · refine always_bind.mpr (always_ask.mpr fun answer => always_bind.mpr (always_orHalt.mpr ?_))
    cases answer with
    | error reason =>
        have failed : Orderly .launchBrowser work [⟨.browser .launch, .error reason⟩] work :=
          ⟨.refl work, fun _ same => same, Nat.le_refl 1⟩
        exact failed.broken _ other
    | ok browser =>
        let holding : Workspace := { work with browser := some browser }
        have launched : Orderly .launchBrowser work [⟨.browser .launch, .ok browser⟩] holding :=
          ⟨.setHandles (.refl work) _ work.page, fun _ _ => Or.inr rfl, Nat.le_refl 1⟩
        refine always_bind.mpr (always_modify.mpr ?_)
        refine Upholds.log (fun _ => ?_) other _ launched
        refine .ask trivial fun opened => .orHalt fun page _ => .setPage ?_
        refine .ask trivial fun reached => .orHalt fun _ _ => ?_
        refine .log fun _ => .output (.done fun _ => ?_)
        change ∀ name ∈ [Slot.webPage], _
        simp
  · exact always_pure.mpr ((Orderly.refl _ work).refuses _ time other)

/-- Pages are closed without a browser being launched or closed, by induction over them. -/
theorem always_closePages (pages : List PageId)
    : (closePages pages).Always work fun calls result left =>
        Modest work calls left ∧ ∃ closed, result = .ok closed := by
  induction pages with
  | nil => exact always_pure.mpr ⟨.refl work, _, rfl⟩
  | cons page pages ih =>
      have goes {calls : List (Happening taskCalls)} (first : Modest work calls work)
          : (closePages pages).Always work fun more result left =>
              Modest work (calls ++ more) left ∧ ∃ closed, result = .ok closed :=
        ih.mono fun more result left ⟨modest, ends⟩ => ⟨first.trans modest, ends⟩
      refine always_bind.mpr (always_ask.mpr fun (gone : Bool) => ?_)
      have asked := Modest.asked work (.browser (.isClosed page)) trivial gone
      cases gone with
      | true => exact goes asked
      | false =>
          refine always_bind.mpr (always_ask.mpr fun answer => ?_)
          have closed := asked.trans (.asked work (.browser (.closePage page)) trivial answer)
          cases answer with
          | ok _ => exact goes closed
          | error reason => exact always_pure.mpr ⟨closed, _, rfl⟩

/-- What closing a browser comes to: unless that failed, it is no longer due to be closed. -/
structure Closes (browser : BrowserId) (work : Workspace) (calls : List (Happening taskCalls))
    (closed : Except BrowserError Unit) (left : Workspace) : Prop where
  extended : work.Extends left
  same : left.browser = work.browser
  launches : calls.countP isLaunch = 0
  handed : HandsOn (some browser) calls (if closed.isOk then none else some browser)

/-- Closing a browser asks it to close, unless one of its pages is not closed before. -/
theorem always_closeAll (browser : BrowserId)
    : (closeAll browser).Always work fun calls result left =>
        ∃ closed, result = .ok closed ∧ Closes browser work calls closed left := by
  have stuck {calls : List (Happening taskCalls)} {left : Workspace}
      (modest : Modest work calls left) (reason : BrowserError)
      : Closes browser work calls (.error reason) left :=
    ⟨modest.extended, modest.browser, countP_isLaunch_of_minor modest.minor,
      fun due same => by rwa [foldl_dueAfter_of_minor modest.minor]⟩
  refine always_bind.mpr (always_ask.mpr fun answer => ?_)
  have asked := Modest.asked work (.browser (.pages browser)) trivial answer
  cases answer with
  | error reason => exact always_pure.mpr ⟨_, rfl, stuck asked reason⟩
  | ok pages =>
      refine always_bind.mpr ((always_closePages work pages).mono ?_)
      rintro calls _ left ⟨modest, closed, rfl⟩
      have emptied := asked.trans modest
      cases closed with
      | error reason => exact always_pure.mpr ⟨_, rfl, by simpa using stuck emptied reason⟩
      | ok _ =>
          refine always_ask.mpr fun answer => ⟨answer, rfl, ?_⟩
          refine ⟨emptied.extended, emptied.browser, ?_, ?_⟩
          · rw [← List.append_assoc, List.countP_append, countP_isLaunch_of_minor emptied.minor]
            rfl
          · intro due same
            have gone : (if due = some browser then none else due) = none := by
              rcases same with rfl | rfl <;> simp
            left
            rw [← List.append_assoc, List.foldl_append, foldl_dueAfter_of_minor emptied.minor]
            exact gone

/-- Closing the browser of the run lets go of it, or keeps it for another try. -/
theorem closeBrowser_contract : closeBrowser.Always work (Contract .closeBrowser work) := by
  have other : TaskType.closeBrowser ≠ .pagination := nofun
  have filled {now : Workspace} (status : now.Has Slot.closureStatus)
      : Upholds .closeBrowser work now (pure true) := by
    refine .done fun _ => ?_
    change ∀ name ∈ [Slot.closureStatus], _
    simpa using status
  refine always_bind.mpr (always_get.mpr ?_)
  dsimp only
  cases held : work.browser with
  | none =>
      refine Upholds.contract (.log fun _ => .output (filled ?_)) other
      simp
  | some browser =>
      refine always_bind.mpr ((always_closeAll work browser).mono ?_)
      rintro calls _ left ⟨closed, rfl, closes⟩
      cases closed with
      | ok _ =>
          have orderly
              : Orderly .closeBrowser work calls { left with browser := none, page := none } := by
            refine ⟨closes.extended.setHandles none none, ?_, Nat.le_of_eq closes.launches⟩
            rw [held]
            exact closes.handed
          refine always_bind.mpr (always_modify.mpr ?_)
          refine Upholds.log (fun _ => .output (filled ?_)) other _ orderly
          simp
      | error reason =>
          have orderly : Orderly .closeBrowser work calls left := by
            refine ⟨closes.extended, ?_, Nat.le_of_eq closes.launches⟩
            rw [closes.same, held]
            exact closes.handed
          refine Upholds.log (fun _ => .output (filled ?_)) other _ orderly
          simp

end Executor

/-- Every standard task keeps its contract. -/
theorem standard_contract {settings : TaskSettings} {t : TaskType} {executor : Executor}
    (standard : Registry.standard settings t = some executor) (work : Workspace)
    : executor.Always work (Contract t work) := by
  cases t <;> obtain rfl := Option.some.inj standard
  case launchBrowser => exact Executor.launchBrowser_contract work
  case closeBrowser => exact Executor.closeBrowser_contract work
  case pageToHtml => exact Executor.pageToHtml_contract work
  case extractText => exact Executor.extractText_contract work
  case extractMultiple => exact Executor.extractMultiple_contract work
  case fillInput => exact Executor.fillInput_contract work
  case navigateUrl => exact Executor.navigateUrl_contract work
  case pagination => exact Executor.pagination_contract settings work
  case csvExport => exact Executor.csvExport_contract work settings
  case customScript => exact Executor.customScript_contract work settings

end Harvest
