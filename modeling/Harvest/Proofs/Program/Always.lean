import Harvest.Proofs.Program.Realm

/-! Programs whose calls may be answered in any way. What is wanted of such a program is said of
the calls that it made, with their answers, and of its value.
-/

namespace Harvest.Program

variable {S : Signature} {α β : Type} {program : Program S α}
  {wanted : List (Happening S) → α → Prop}

/-- However its calls are answered, the program comes to what is wanted. -/
def Always (program : Program S α) (wanted : List (Happening S) → α → Prop) : Prop :=
  ∀ calls value, program.Ends calls value → wanted calls value

/-- More may be accepted than was wanted. -/
theorem Always.mono (always : program.Always wanted) {accepted : List (Happening S) → α → Prop}
    (fits : ∀ calls value, wanted calls value → accepted calls value)
    : program.Always accepted :=
  fun calls value ends => fits calls value (always calls value ends)

/-- A program that has ended comes to its value without a call. -/
theorem always_done {value : α} : (done value).Always wanted ↔ wanted [] value := by
  constructor
  · exact fun always => always [] value (.done value)
  · intro holds calls other ends
    obtain ⟨rfl, rfl⟩ := ends_of_done ends
    exact holds

/-- A program that makes a call comes to what follows each of its answers. -/
theorem always_ask {call : S.Call} {next : S.Answer call → Program S α}
    : (ask call next).Always wanted
      ↔ ∀ answer, (next answer).Always fun calls => wanted (⟨call, answer⟩ :: calls) := by
  constructor
  · exact fun always answer calls value ends => always _ value (.ask ends)
  · intro all calls value ends
    cases ends with
    | ask rest => exact all _ _ value rest

/-- A program that is followed by another comes to its own end first, by induction over it. -/
theorem always_bind {next : α → Program S β} {wanted : List (Happening S) → β → Prop}
    : (program.bind next).Always wanted
      ↔ program.Always fun calls value =>
          (next value).Always fun more => wanted (calls ++ more) := by
  induction program generalizing wanted with
  | done value =>
      change (next value).Always wanted
        ↔ (done value).Always fun calls value =>
            (next value).Always fun more => wanted (calls ++ more)
      rw [always_done]
      rfl
  | ask call rest ih =>
      change (ask call fun answer => (rest answer).bind next).Always wanted ↔ _
      rw [always_ask, always_ask]
      exact forall_congr' fun answer => ih answer

/-- The calls of a program that keeps to a kind are of that kind, by induction over the program. -/
theorem Only.always {kind : S.Call → Prop} (only : program.Only kind)
    : program.Always fun calls _ => ∀ happening ∈ calls, kind happening.1 := by
  induction only with
  | done value => exact always_done.mpr (by simp)
  | ask here rest ih =>
      refine always_ask.mpr fun answer => (ih answer).mono fun calls value kept => ?_
      simpa using ⟨here, kept⟩

/-- The calls are the first ones of a program that is answered so. -/
inductive Begins : Program S α → List (Happening S) → Prop where
  | nil (program : Program S α) : Begins program []
  | ask {call : S.Call} {next : S.Answer call → Program S α} {answer : S.Answer call}
      {calls : List (Happening S)} (rest : Begins (next answer) calls)
      : Begins (.ask call next) (⟨call, answer⟩ :: calls)

-----------------------------------------------------------------------------------------
-- Noted calls
-----------------------------------------------------------------------------------------

/-- Answers that depend on the calls before, which are noted. -/
def noting (answer : (call : S.Call) → List (Happening S) → S.Answer call) (call : S.Call)
    (past : List (Happening S)) : S.Answer call × List (Happening S) :=
  (answer call past, past ++ [⟨call, answer call past⟩])

/-- A program that is run with its calls being noted ends with these calls, each of them answered
as is said, by induction over it.
-/
theorem ends_run (answer : (call : S.Call) → List (Happening S) → S.Answer call)
    (program : Program S α) (past : List (Happening S))
    : ∃ calls,
        (program.run (noting answer) past).2 = past ++ calls
        ∧ program.Ends calls (program.run (noting answer) past).1
        ∧ ∀ happening ∈ calls, ∃ before, happening.2 = answer happening.1 before := by
  induction program generalizing past with
  | done value => exact ⟨[], (List.append_nil past).symm, .done value, nofun⟩
  | ask call next ih =>
      obtain ⟨calls, noted, ends, answered⟩ :=
        ih (answer call past) (past ++ [⟨call, answer call past⟩])
      refine ⟨_ :: calls, noted.trans (by simp), .ask ends, ?_⟩
      exact List.forall_mem_cons.mpr ⟨⟨past, rfl⟩, answered⟩

end Harvest.Program
