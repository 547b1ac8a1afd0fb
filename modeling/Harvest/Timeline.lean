import Harvest.Program

/-! Programs side by side in time. A call may take a while; until its answer is there, the other
programs go on, each strictly in its own order. Of programs that are due at one moment the one
that began to wait first goes first.
-/

namespace Harvest

/-- Who answers the calls of a signature and keeps a state. Times are in milliseconds. -/
structure Host (S : Signature) (σ : Type) where
  /-- What happens when a call is made, and how long its answer takes. -/
  start : (now : Nat) → (call : S.Call) → σ → Nat × σ
  /-- The answer, once its time has come. -/
  finish : (now : Nat) → (call : S.Call) → σ → S.Answer call × σ
  /-- The programs that were put in the background since this was last asked. -/
  spawned : σ → List (Program S Unit) × σ

/-- A program in the background that waits for an answer. -/
structure Job (S : Signature) where
  wake : Nat
  call : S.Call
  next : S.Answer call → Program S Unit

/-- The present moment, the programs that wait, and the state of their host. -/
structure Timeline (S : Signature) (σ : Type) where
  now : Nat
  jobs : List (Job S)
  state : σ

namespace Host

variable {S : Signature} {σ : Type}

/-- Carries a program on until it waits or ends. -/
def advance (host : Host S σ) (now : Nat) : Program S Unit → σ → Option (Job S) × σ
  | .done _, state => (none, state)
  | .ask call next, state =>
      let (delay, state) := host.start now call state
      if delay = 0 then
        let (answer, state) := host.finish now call state
        advance host now (next answer) state
      else (some ⟨now + delay, call, next⟩, state)

/-- A program that waits, waits for a later moment. -/
theorem lt_wake_of_advance (host : Host S σ) (now : Nat) (p : Program S Unit) (state : σ)
    {job : Job S} (h : (host.advance now p state).1 = some job)
    : now < job.wake := by
  induction p generalizing state with
  | done value => simp [advance] at h
  | ask call next ih =>
      simp only [advance] at h
      split at h
      · exact ih _ _ h
      · cases h
        simp only
        omega

end Host

/-- The job that is due first, and the others in order. -/
def takeEarliest {S : Signature} : List (Job S) → Option (Job S × List (Job S))
  | [] => none
  | job :: jobs =>
      match takeEarliest jobs with
      | none => some (job, [])
      | some (other, rest) =>
          if other.wake < job.wake then some (other, job :: rest) else some (job, jobs)

/-- The milliseconds that some jobs can still go on before a limit. -/
def timeLeft {S : Signature} (limit : Nat) : List (Job S) → Nat
  | [] => 0
  | job :: jobs => (limit - job.wake) + timeLeft limit jobs

/-- The time of jobs and of further jobs is the sum of both. -/
theorem timeLeft_append {S : Signature} (limit : Nat) (jobs more : List (Job S))
    : timeLeft limit (jobs ++ more) = timeLeft limit jobs + timeLeft limit more := by
  induction jobs with
  | nil => simp [timeLeft]
  | cons job jobs ih => simp [timeLeft, ih, Nat.add_assoc]

/-- Taking a job leaves the time of the others. -/
theorem timeLeft_takeEarliest {S : Signature} (limit : Nat) {jobs rest : List (Job S)}
    {job : Job S} (h : takeEarliest jobs = some (job, rest))
    : timeLeft limit jobs = (limit - job.wake) + timeLeft limit rest := by
  induction jobs generalizing job rest with
  | nil => simp [takeEarliest] at h
  | cons first jobs ih =>
      simp only [takeEarliest] at h
      split at h
      · rename_i hnone
        cases h
        cases jobs with
        | nil => rfl
        | cons second jobs =>
            simp only [takeEarliest] at hnone
            split at hnone <;> try split at hnone
            all_goals simp at hnone
      · rename_i other others hsome
        split at h
        · cases h
          have := ih hsome
          simp only [timeLeft] at this ⊢
          omega
        · cases h
          rfl

namespace Timeline

variable {S : Signature} {σ : Type}

/-- Lets the jobs go on that are due before a limit. -/
def runUntil (host : Host S σ) (limit : Nat) (line : Timeline S σ) : Timeline S σ :=
  match h : takeEarliest line.jobs with
  | none => line
  | some (job, rest) =>
      if due : job.wake < limit then
        let (answer, state) := host.finish job.wake job.call line.state
        match again : host.advance job.wake (job.next answer) state with
        | (waiting, state) =>
            runUntil host limit ⟨job.wake, rest ++ waiting.toList, state⟩
      else line
termination_by timeLeft limit line.jobs
decreasing_by
  rw [timeLeft_takeEarliest limit h, timeLeft_append]
  cases waiting with
  | none =>
      simp only [timeLeft, Option.toList_none]
      omega
  | some next =>
      have later := host.lt_wake_of_advance job.wake (job.next answer) _
        (by rw [again])
      simp only [timeLeft, Option.toList_some]
      omega

/-- Lets the programs begin that were put in the background. -/
def begin (host : Host S σ) (line : Timeline S σ) : Timeline S σ :=
  let (programs, state) := host.spawned line.state
  programs.foldl (fun line p =>
    let (waiting, state) := host.advance line.now p line.state
    { line with jobs := line.jobs ++ waiting.toList, state := state })
    { line with state := state }

/-- Lets a number of milliseconds pass. -/
def pass (host : Host S σ) (millis : Nat) (line : Timeline S σ) : Timeline S σ :=
  { (runUntil host (line.now + millis + 1) (begin host line)) with now := line.now + millis }

/-- Lets at most a number of milliseconds pass, until nothing waits any more. -/
def await (host : Host S σ) (millis : Nat) (line : Timeline S σ) : Timeline S σ :=
  let later := runUntil host (line.now + millis + 1) (begin host line)
  if later.jobs.isEmpty then later else { later with now := line.now + millis }

/-- Carries a program to its end, whatever time that takes. -/
def complete (host : Host S σ) : Program S Unit → (now : Nat) → σ → Nat × σ
  | .done _, now, state => (now, state)
  | .ask call next, now, state =>
      let (delay, state) := host.start now call state
      let (answer, state) := host.finish (now + delay) call state
      complete host (next answer) (now + delay) state

/-- Carries every job to its end, one after another. -/
def exhaust (host : Host S σ) (line : Timeline S σ) : Timeline S σ :=
  let line := begin host line
  line.jobs.foldl (fun line job =>
    let moment := max line.now job.wake
    let (answer, state) := host.finish moment job.call line.state
    let (now, state) := complete host (job.next answer) moment state
    { line with now := now, state := state }) { line with jobs := [] }

/-- Carries a program to its end while the jobs go on beside it. When it is due together with
a job, it goes first.
-/
def foreground {α : Type} (host : Host S σ) : Program S α → Timeline S σ → α × Timeline S σ
  | .done value, line => (value, line)
  | .ask call next, line =>
      let (delay, state) := host.start line.now call line.state
      let line := { line with state := state }
      let line :=
        if delay = 0 then line
        else { (runUntil host (line.now + delay) (begin host line)) with
          now := line.now + delay }
      let (answer, state) := host.finish line.now call line.state
      foreground host (next answer) { line with state := state }

end Timeline

end Harvest
