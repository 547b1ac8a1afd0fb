import Harvest.Service.Basic

/-! The list of runs that are under way. Every run has a token of its own; a run whose token was
cancelled, and every run after the service was shut, is asked to stop.
-/

namespace Harvest

/-- The runs under way, and which of them were asked to stop. -/
structure Supervisor where
  runs : List (Uuid × Token)
  /-- The number of tokens given out. -/
  issued : Nat
  cancelled : List Token
  isShut : Bool
  /-- Runs that were put in the background and have not begun. -/
  waiting : List (Uuid × Token)
deriving Repr, Inhabited

namespace Supervisor

/-- The list without runs. -/
def empty : Supervisor := ⟨[], 0, [], false, []⟩

/-- The token of the run of an execution. -/
def token? (s : Supervisor) (execution : Uuid) : Option Token :=
  (s.runs.find? (·.1 == execution)).map (·.2)

/-- The list without the run of an execution. -/
def dismiss (s : Supervisor) (execution : Uuid) : Supervisor :=
  { s with runs := s.runs.filter (·.1 != execution) }

/-- Puts a run on the list, in place of an earlier one of the execution. -/
def enlist (s : Supervisor) (execution : Uuid) : Token × Supervisor :=
  let token := ⟨s.issued⟩
  (token, { s.dismiss execution with
    runs := (s.dismiss execution).runs ++ [(execution, token)], issued := s.issued + 1 })

/-- Asks the run of an execution to stop, if one is on the list. -/
def cancel (s : Supervisor) (execution : Uuid) : Supervisor :=
  match s.token? execution with
  | some token => { s with cancelled := token :: s.cancelled }
  | none => s

/-- Whether the run of a token was asked to stop. -/
def isCancelled (s : Supervisor) (token : Token) : Bool :=
  s.isShut || s.cancelled.contains token

/-- Asks all runs to stop, those to come too. -/
def shut (s : Supervisor) : Supervisor := { s with isShut := true }

/-- Puts a run in the background. -/
def spawn (s : Supervisor) (execution : Uuid) (token : Token) : Supervisor :=
  { s with waiting := s.waiting ++ [(execution, token)] }

/-- The runs that have not begun, which begin now. -/
def takeWaiting (s : Supervisor) : List (Uuid × Token) × Supervisor :=
  (s.waiting, { s with waiting := [] })

end Supervisor

end Harvest
