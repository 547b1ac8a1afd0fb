import Harvest.Executor.Standard
import Harvest.Proofs.Executor.Parts
import Harvest.Proofs.Named
import Harvest.Task.Standard

/-! What the standard tasks keep to. However its calls are answered, a task gives back the node and
the inputs that it was lent, only adds to the log, logs an error when it refuses, fills its declared
outputs when it succeeds, and leaves the browser that is due to be closed where a run looks for it.
-/

namespace Harvest

open TaskM

-----------------------------------------------------------------------------------------
-- Workspaces
-----------------------------------------------------------------------------------------

namespace Workspace

variable {work left : Workspace}

/-- The node and its inputs are those of another workspace, and entries were added to its log. -/
structure Extends (work left : Workspace) : Prop where
  node : left.node = work.node
  inputs : left.inputs = work.inputs
  log : ∃ added, left.log = work.log ++ added

/-- An error was added to the log. -/
def Errs (work left : Workspace) : Prop :=
  ∃ added, left.log = work.log ++ added ∧ Log.hasErrors added

namespace Extends

@[simp] theorem refl (work : Workspace) : work.Extends work := ⟨rfl, rfl, [], by simp⟩

/-- Recording, writing outputs and changing handles all extend a workspace. -/
theorem record (grown : work.Extends left) (level : LogLevel) (message : String)
    (time : Time.Instant)
    : work.Extends (left.record level message time) := by
  obtain ⟨node, inputs, added, log⟩ := grown
  refine ⟨node, inputs, added ++ [⟨level, message, time⟩], ?_⟩
  simp [Workspace.record, log]

theorem setOutput (grown : work.Extends left) (name : String) (value : TaskValue)
    : work.Extends (left.setOutput name value) :=
  ⟨grown.node, grown.inputs, grown.log⟩

theorem setHandles (grown : work.Extends left) (browser : Option BrowserId)
    (page : Option PageId)
    : work.Extends { left with browser := browser, page := page } :=
  ⟨grown.node, grown.inputs, grown.log⟩

/-- An error that is recorded is an error that was added. -/
theorem errs (grown : work.Extends left) (message : String) (time : Time.Instant)
    : work.Errs (left.record .error message time) := by
  obtain ⟨_, _, added, log⟩ := grown
  exact ⟨added ++ [⟨.error, message, time⟩], by simp [Workspace.record, log],
    by simp [Log.hasErrors]⟩

/-- What extends an extension extends the whole. -/
theorem trans {middle : Workspace} (one : work.Extends middle) (two : middle.Extends left)
    : work.Extends left := by
  obtain ⟨node, inputs, first, log⟩ := one
  obtain ⟨node', inputs', second, log'⟩ := two
  exact ⟨node'.trans node, inputs'.trans inputs, first ++ second, by simp [log', log]⟩

end Extends

/-- Whether an error was added is told by the entries that were added. -/
theorem errs_iff {added : Log} (log : left.log = work.log ++ added)
    : work.Errs left ↔ Log.hasErrors added := by
  constructor
  · rintro ⟨other, same, errors⟩
    rwa [List.append_cancel_left (log.symm.trans same)]
  · exact fun errors => ⟨added, log, errors⟩

/-- Where nothing was added no error was. -/
theorem not_errs_self (work : Workspace) : ¬ work.Errs work := by
  rw [errs_iff (List.append_nil work.log).symm]
  nofun

/-- An entry at the info level is no error. -/
theorem errs_recordInfo (grown : work.Extends left) (message : String) (time : Time.Instant)
    : work.Errs (left.record .info message time) ↔ work.Errs left := by
  obtain ⟨added, log⟩ := grown.log
  have more
      : (left.record .info message time).log
        = work.log ++ (added ++ [⟨.info, message, time⟩]) := by
    simp [Workspace.record, log]
  rw [errs_iff log, errs_iff more]
  simp [Log.hasErrors]

/-- An error was added in one of two steps. -/
theorem errs_trans {middle : Workspace} (one : work.Extends middle) (two : middle.Extends left)
    : work.Errs left ↔ work.Errs middle ∨ middle.Errs left := by
  obtain ⟨first, log⟩ := one.log
  obtain ⟨second, log'⟩ := two.log
  have whole : left.log = work.log ++ (first ++ second) := by simp [log', log]
  rw [errs_iff log, errs_iff log', errs_iff whole]
  simp [Log.hasErrors]

/-- There is a value on an output. -/
def Has (work : Workspace) (name : String) : Prop := (Named.get? name work.outputs).isSome

@[simp] theorem has_setOutput {name key : String} {value : TaskValue}
    : (work.setOutput key value).Has name ↔ key = name ∨ work.Has name := by
  simp only [Has, setOutput, Named.get?_put]
  split_ifs with same <;> simp [same]

@[simp] theorem has_record {name message : String} {level : LogLevel} {time : Time.Instant}
    : (work.record level message time).Has name ↔ work.Has name :=
  Iff.rfl

end Workspace

-----------------------------------------------------------------------------------------
-- Browsers that are due to be closed
-----------------------------------------------------------------------------------------

/-- A call that neither launches a browser nor closes one. -/
def TaskCall.IsMinor : TaskCall → Prop
  | .browser .launch => False
  | .browser (.closeBrowser _) => False
  | _ => True

/-- The browser that is due to be closed once a call is answered: a launched one takes the place
of any other, and a browser that was asked to close is no longer due.
-/
def dueAfter (due : Option BrowserId) : Happening taskCalls → Option BrowserId
  | ⟨.browser .launch, answer⟩ =>
      match (answer : Except BrowserError BrowserId) with
      | .ok browser => some browser
      | .error _ => due
  | ⟨.browser (.closeBrowser browser), _⟩ => if due = some browser then none else due
  | _ => due

/-- The call asks for a browser. -/
def isLaunch : Happening taskCalls → Bool
  | ⟨.browser .launch, _⟩ => true
  | _ => false

/-- If no browser is due but perhaps that of the run before some calls, then none is due but
perhaps that of the run after them.
-/
def HandsOn (before : Option BrowserId) (calls : List (Happening taskCalls))
    (after : Option BrowserId) : Prop :=
  ∀ due, due = none ∨ due = before →
    calls.foldl dueAfter due = none ∨ calls.foldl dueAfter due = after

section

variable {calls : List (Happening taskCalls)}

/-- Minor calls leave the browser that is due, by induction over them. -/
theorem foldl_dueAfter_of_minor (minor : ∀ happening ∈ calls, happening.1.IsMinor)
    (due : Option BrowserId)
    : calls.foldl dueAfter due = due := by
  induction calls with
  | nil => rfl
  | cons happening calls ih =>
      obtain ⟨here, rest⟩ := List.forall_mem_cons.mp minor
      have same : dueAfter due happening = due := by
        unfold dueAfter
        split
        · exact here.elim
        · exact here.elim
        · rfl
      rw [List.foldl_cons, same, ih rest]

/-- Minor calls ask for no browser. -/
theorem countP_isLaunch_of_minor (minor : ∀ happening ∈ calls, happening.1.IsMinor)
    : calls.countP isLaunch = 0 := by
  rw [List.countP_eq_zero]
  intro happening member launch
  have here := minor happening member
  unfold isLaunch at launch
  split at launch
  · exact here
  · cases launch

end

-----------------------------------------------------------------------------------------
-- Pages without the wanted elements
-----------------------------------------------------------------------------------------

/-- A call that opens a page at an address. -/
def TaskCall.IsVisit : TaskCall → Prop
  | .browser (.goto _ _) => True
  | _ => False

/-- If the call opens a page then it is opened, and if it waits for an element then in vain. -/
def Misses : Happening taskCalls → Prop
  | ⟨.browser (.goto _ _), answer⟩ => answer = (Except.ok () : Except BrowserError Unit)
  | ⟨.browser (.waitFor _ _ _), answer⟩ =>
      ∃ reason, answer = (Except.error reason : Except BrowserError Unit)
  | _ => True

/-- Pages were visited, all of them were opened, and none showed what was waited for. -/
def Barren (calls : List (Happening taskCalls)) : Prop :=
  (∃ happening ∈ calls, happening.1.IsVisit) ∧ ∀ happening ∈ calls, Misses happening

/-- Calls that visit no page, and miss nothing, may stand around others. -/
theorem barren_between {before calls after : List (Happening taskCalls)}
    (quiet : ∀ happening ∈ before ++ after, ¬ happening.1.IsVisit ∧ Misses happening)
    : Barren (before ++ calls ++ after) ↔ Barren calls := by
  obtain ⟨early, late⟩ := List.forall_mem_append.mp quiet
  constructor
  · rintro ⟨⟨happening, here, visits⟩, misses⟩
    have within : happening ∈ calls := by
      rcases List.mem_append.mp here with here | after'
      · rcases List.mem_append.mp here with before' | within
        · exact absurd visits (early happening before').1
        · exact within
      · exact absurd visits (late happening after').1
    exact ⟨⟨happening, within, visits⟩, fun other member => misses other (by simp [member])⟩
  · rintro ⟨⟨happening, here, visits⟩, misses⟩
    refine ⟨⟨happening, by simp [here], visits⟩, ?_⟩
    simp only [List.forall_mem_append]
    exact ⟨⟨fun other member => (early other member).2, misses⟩,
      fun other member => (late other member).2⟩

-----------------------------------------------------------------------------------------
-- The contract
-----------------------------------------------------------------------------------------

/-- The names of the declared outputs of a task type. -/
def Catalog.outputNames (catalog : Catalog) (t : TaskType) : List String :=
  (((catalog.get? t).map (·.outputs)).getD []).map (·.name)

/-- What a part of a task of a type keeps to, whatever it comes to. -/
structure Orderly (t : TaskType) (work : Workspace) (calls : List (Happening taskCalls))
    (left : Workspace) : Prop where
  extended : work.Extends left
  handed : HandsOn work.browser calls left.browser
  launches : calls.countP isLaunch ≤ if t = .launchBrowser then 1 else 0

/-- What a task of a type keeps to. Scripts need not give a result. A pagination never breaks off,
and one that saw nothing but pages without the wanted elements refuses without an error.
-/
structure Contract (t : TaskType) (work : Workspace) (calls : List (Happening taskCalls))
    (result : Except Halt Bool) (left : Workspace) : Prop extends Orderly t work calls left where
  whole : t = .pagination → ∃ success, result = .ok success
  explained : result = .ok false → (work.Errs left ↔ ¬ (t = .pagination ∧ Barren calls))
  filled
    : result = .ok true
      → t ≠ .customScript
      → ∀ name ∈ Catalog.standard.outputNames t, left.Has name

/-- What a part of a task keeps to that does not concern itself with browsers. -/
structure Modest (work : Workspace) (calls : List (Happening taskCalls)) (left : Workspace)
    : Prop where
  extended : work.Extends left
  minor : ∀ happening ∈ calls, happening.1.IsMinor
  browser : left.browser = work.browser

section

variable {t : TaskType} {work middle left : Workspace} {calls more : List (Happening taskCalls)}

namespace Modest

/-- Nothing was done. -/
theorem refl (work : Workspace) : Modest work [] work := ⟨.refl work, by simp, rfl⟩

/-- What is modest twice is modest. -/
theorem trans (one : Modest work calls middle) (two : Modest middle more left)
    : Modest work (calls ++ more) left where
  extended := one.extended.trans two.extended
  minor _ member := (List.mem_append.mp member).elim (one.minor _) (two.minor _)
  browser := two.browser.trans one.browser

/-- Recording, writing outputs and asking minor things are modest. -/
theorem record (modest : Modest work calls left) (level : LogLevel) (message : String)
    (time : Time.Instant)
    : Modest work (calls ++ [⟨.now, time⟩]) (left.record level message time) :=
  modest.trans ⟨.record (.refl left) level message time, by simp [TaskCall.IsMinor], rfl⟩

theorem setOutput (modest : Modest work calls left) (name : String) (value : TaskValue)
    : Modest work calls (left.setOutput name value) :=
  ⟨modest.extended.setOutput name value, modest.minor, modest.browser⟩

theorem asked (work : Workspace) (call : TaskCall) (minor : call.IsMinor) (answer : call.Answer)
    : Modest work [⟨call, answer⟩] work :=
  ⟨.refl work, by simpa using minor, rfl⟩

end Modest

namespace Orderly

/-- An orderly part may go on modestly. -/
theorem goesOn (orderly : Orderly t work calls middle) (modest : Modest middle more left)
    : Orderly t work (calls ++ more) left where
  extended := orderly.extended.trans modest.extended
  handed due same := by
    rw [List.foldl_append, foldl_dueAfter_of_minor modest.minor, modest.browser]
    exact orderly.handed due same
  launches := by
    rw [List.countP_append, countP_isLaunch_of_minor modest.minor]
    exact orderly.launches

/-- A part that has done nothing is orderly. -/
theorem refl (t : TaskType) (work : Workspace) : Orderly t work [] work :=
  ⟨.refl work, fun _ same => same, Nat.zero_le _⟩

/-- An orderly task that is no pagination may break off. -/
theorem broken (orderly : Orderly t work calls left) (halt : Halt) (other : t ≠ .pagination)
    : Contract t work calls (.error halt) left :=
  ⟨orderly, fun pages => absurd pages other, nofun, nofun⟩

/-- An orderly task that is no pagination may refuse with an error. -/
theorem refused (orderly : Orderly t work calls left) (errs : work.Errs left)
    (other : t ≠ .pagination)
    : Contract t work calls (.ok false) left :=
  ⟨orderly, fun pages => absurd pages other,
    fun _ => iff_of_true errs fun barren => other barren.1, nofun⟩

/-- It may log an error and refuse. -/
theorem refuses (orderly : Orderly t work calls left) (message : String) (time : Time.Instant)
    (other : t ≠ .pagination)
    : Contract t work (calls ++ [⟨.now, time⟩]) (.ok false) (left.record .error message time) :=
  (orderly.goesOn ((Modest.refl left).record .error message time)).refused
    (orderly.extended.errs message time) other

/-- An orderly task may succeed when it has filled its outputs. -/
theorem done (orderly : Orderly t work calls left)
    (filled : t ≠ .customScript → ∀ name ∈ Catalog.standard.outputNames t, left.Has name)
    : Contract t work calls (.ok true) left :=
  ⟨orderly, fun _ => ⟨true, rfl⟩, nofun, fun _ => filled⟩

end Orderly

/-- What is modest is orderly. -/
theorem Modest.orderly (modest : Modest work calls left) (t : TaskType)
    : Orderly t work calls left :=
  (Orderly.refl t work).goesOn modest

end

end Harvest
