import Harvest.Program
import Mathlib.Logic.Relation

/-! Programs in a realm that answers their calls while others act beside them. A safe program
keeps a promise at every call, whatever is answered and whatever happens in between.
-/

namespace Harvest

open Relation

/-- What a realm may answer to the calls of programs, and what others may do to its state
between two calls.
-/
structure Realm (S : Signature) (σ : Type) where
  replies : (call : S.Call) → σ → S.Answer call → σ → Prop
  drifts : σ → σ → Prop
  still : ∀ state, drifts state state
  further : ∀ {first middle last}, drifts first middle → drifts middle last → drifts first last

/-- A call together with its answer. -/
abbrev Happening (S : Signature) := (call : S.Call) × S.Answer call

namespace Realm

variable {S : Signature} {σ α β : Type}

/-- What can happen next to a program and a state: its call is answered, or others act. -/
inductive Step (realm : Realm S σ) : Program S α × σ → Program S α × σ → Prop where
  | reply {call : S.Call} {next : S.Answer call → Program S α} {before after : σ}
      {answer : S.Answer call} (replies : realm.replies call before answer after)
      : Step realm (.ask call next, before) (next answer, after)
  | drift {program : Program S α} {before after : σ} (drifts : realm.drifts before after)
      : Step realm (program, before) (program, after)

/-- What a program and a state can come to. -/
def Reaches (realm : Realm S σ) : Program S α × σ → Program S α × σ → Prop :=
  ReflTransGen realm.Step

/-- What holds of a state whatever others do. -/
def Stable (realm : Realm S σ) (holds : σ → Prop) : Prop :=
  ∀ {before after}, realm.drifts before after → holds before → holds after

/-- Every call of the program keeps a promise, and its value and the state that is left are as
wanted.
-/
def Safe (realm : Realm S σ) (keeps : (call : S.Call) → σ → S.Answer call → σ → Prop)
    (wanted : α → σ → Prop)
    : Program S α → σ → Prop
  | .done value, state => ∀ later, realm.drifts state later → wanted value later
  | .ask call next, state =>
      ∀ before, realm.drifts state before
      → ∀ answer after, realm.replies call before answer after
      → keeps call before answer after ∧ Safe realm keeps wanted (next answer) after

variable {realm : Realm S σ} {keeps : (call : S.Call) → σ → S.Answer call → σ → Prop}
  {wanted : α → σ → Prop} {program : Program S α} {state : σ}

/-- A call is answered, and then what follows is reached. -/
theorem Reaches.reply {call : S.Call} {next : S.Answer call → Program S α} {before after : σ}
    {answer : S.Answer call} {config : Program S α × σ}
    (replies : realm.replies call before answer after)
    (rest : realm.Reaches (next answer, after) config)
    : realm.Reaches (.ask call next, before) config :=
  .head (.reply replies) rest

/-- What is reached before a program that follows is reached with that program behind, by
induction over the steps.
-/
theorem Reaches.bind {first last : Program S α} {before after : σ}
    (reached : realm.Reaches (first, before) (last, after)) (next : α → Program S β)
    : realm.Reaches (first.bind next, before) (last.bind next, after) := by
  let behind (config : Program S α × σ) : Program S β × σ := (config.1.bind next, config.2)
  refine Relation.ReflTransGen.lift behind (fun one two step => ?_) _ _ reached
  cases step with
  | reply replies => exact .reply replies
  | drift drifts => exact .drift drifts

/-- Others cannot make a safe program unsafe. -/
theorem Safe.drift (safe : realm.Safe keeps wanted program state) {later : σ}
    (drifts : realm.drifts state later)
    : realm.Safe keeps wanted program later := by
  cases program with
  | done value => exact fun last more => safe last (realm.further drifts more)
  | ask call next => exact fun before more => safe before (realm.further drifts more)

/-- A program that ends at once is safe when its value is wanted whatever others do. -/
theorem safe_done {value : α} (stable : realm.Stable (wanted value)) (holds : wanted value state)
    : realm.Safe keeps wanted (.done value) state :=
  fun _ drifts => stable drifts holds

/-- A safe program stays safe when more is accepted, by induction over the program. -/
theorem Safe.mono (safe : realm.Safe keeps wanted program state)
    {promised : (call : S.Call) → σ → S.Answer call → σ → Prop} {accepted : α → σ → Prop}
    (kept : ∀ {call before answer after},
      keeps call before answer after → promised call before answer after)
    (fits : ∀ value later, wanted value later → accepted value later)
    : realm.Safe promised accepted program state := by
  induction program generalizing state with
  | done value => exact fun later drifts => fits value later (safe later drifts)
  | ask call next ih =>
      intro before drifts answer after replies
      obtain ⟨keep, rest⟩ := safe before drifts answer after replies
      exact ⟨kept keep, ih answer rest⟩

/-- What is made of the value of a safe program is wanted when it is wanted of that value, by
induction over the program.
-/
theorem Safe.map {last : β → σ → Prop} {f : α → β}
    (safe : realm.Safe keeps (fun value => last (f value)) program state)
    : realm.Safe keeps last (f <$> program) state := by
  induction program generalizing state with
  | done value => exact safe
  | ask call rest ih =>
      intro before drifts answer after replies
      obtain ⟨keep, safe⟩ := safe before drifts answer after replies
      exact ⟨keep, ih answer safe⟩

/-- A program is safe when it is followed by a safe one, by induction over the program. -/
theorem Safe.bind {next : α → Program S β} {last : β → σ → Prop}
    (safe : realm.Safe keeps (fun value => realm.Safe keeps last (next value)) program state)
    : realm.Safe keeps last (program.bind next) state := by
  induction program generalizing state with
  | done value => exact safe state (realm.still state)
  | ask call rest ih =>
      intro before drifts answer after replies
      obtain ⟨keep, safe⟩ := safe before drifts answer after replies
      exact ⟨keep, ih answer safe⟩

/-- A safe program is followed by what is safe wherever it ends. -/
theorem Safe.followed (safe : realm.Safe keeps wanted program state) {next : α → Program S β}
    {last : β → σ → Prop}
    (rest : ∀ value later, wanted value later → realm.Safe keeps last (next value) later)
    : realm.Safe keeps last (program.bind next) state :=
  Safe.bind (safe.mono id rest)

/-- Whatever is reached from a safe program is safe, by induction over the steps. -/
theorem Safe.reaches (safe : realm.Safe keeps wanted program state) {rest : Program S α}
    {later : σ} (reached : realm.Reaches (program, state) (rest, later))
    : realm.Safe keeps wanted rest later := by
  suffices ∀ config, realm.Reaches (program, state) config
      → realm.Safe keeps wanted config.1 config.2 from this _ reached
  intro config reached
  induction reached with
  | refl => exact safe
  | @tail middle last _ step ih =>
      cases step with
      | reply replies => exact (ih _ (realm.still _) _ _ replies).2
      | drift drifts => exact ih.drift drifts

/-- The value of a safe program that came to its end is wanted. -/
theorem Safe.ended (safe : realm.Safe keeps wanted program state) {value : α} {later : σ}
    (reached : realm.Reaches (program, state) (.done value, later))
    : wanted value later :=
  safe.reaches reached later (realm.still later)

/-- What every kept call preserves holds of all states that are reached, by induction over the
steps.
-/
theorem Safe.preserved (safe : realm.Safe keeps wanted program state) (holds : σ → Prop)
    (stable : realm.Stable holds)
    (preserved
      : ∀ {call before answer after},
          realm.replies call before answer after
          → keeps call before answer after
          → holds before
          → holds after)
    (start : holds state) {rest : Program S α} {later : σ}
    (reached : realm.Reaches (program, state) (rest, later))
    : holds later := by
  suffices ∀ config, realm.Reaches (program, state) config → holds config.2 from this _ reached
  intro config reached
  induction reached with
  | refl => exact start
  | @tail middle last before step ih =>
      cases step with
      | reply replies =>
          exact preserved replies (safe.reaches before _ (realm.still _) _ _ replies).1 ih
      | drift drifts => exact stable drifts ih

/-- What every kept call leaves holds of all states that are reached. -/
theorem Safe.invariant (safe : realm.Safe keeps wanted program state) {holds : σ → Prop}
    (stable : realm.Stable holds)
    (left : ∀ {call before answer after}, keeps call before answer after → holds after)
    (start : holds state) {rest : Program S α} {later : σ}
    (reached : realm.Reaches (program, state) (rest, later))
    : holds later :=
  safe.preserved holds stable (fun _ kept _ => left kept) start reached

end Realm

namespace Program

variable {S : Signature} {α β : Type}

/-- A value by itself is a program that has ended. -/
theorem pure_eq_done (value : α) : (pure value : Program S α) = .done value := rfl

/-- Programs that follow one another can be grouped as one likes, by induction over the first. -/
theorem bind_bind {γ : Type} (program : Program S α) (next : α → Program S β)
    (last : β → Program S γ)
    : (program.bind next).bind last = program.bind fun value => (next value).bind last := by
  induction program with
  | done value => rfl
  | ask call rest ih => simp only [bind, ih]

/-- A part that may refuse goes first, and its refusal is the end. -/
theorem except_bind {ε : Type} (part : ExceptT ε (Program S) α)
    (next : α → ExceptT ε (Program S) β)
    : ExceptT.run (part >>= next)
      = (ExceptT.run part).bind fun
          | .ok value => ExceptT.run (next value)
          | .error reason => .done (.error reason) := by
  change (ExceptT.run part).bind _ = _
  congr 1
  funext result
  cases result <;> rfl

/-- What follows a part is reached from where the part was done. -/
theorem reaches_bind {ε σ : Type} {realm : Realm S σ} {part : ExceptT ε (Program S) α}
    {next : α → ExceptT ε (Program S) β} {value : α} {before middle : σ}
    {config : Program S (Except ε β) × σ}
    (reached : realm.Reaches (ExceptT.run part, before) (.done (.ok value), middle))
    (further : realm.Reaches (ExceptT.run (next value), middle) config)
    : realm.Reaches (ExceptT.run (part >>= next), before) config := by
  rw [except_bind]
  exact (reached.bind _).trans further

/-- A part whose refusals are told in other words. -/
theorem except_adapt {ε δ : Type} (wrap : ε → δ) (part : ExceptT ε (Program S) α)
    : ExceptT.run (part.adapt wrap)
      = (ExceptT.run part).bind fun result => .done (result.mapError wrap) :=
  rfl

/-- A part that never refuses goes first. -/
theorem except_lift_bind {ε : Type} (part : Program S α) (next : α → ExceptT ε (Program S) β)
    : ExceptT.run ((liftM part : ExceptT ε (Program S) α) >>= next)
      = part.bind fun value => ExceptT.run (next value) := by
  change (part.bind _).bind _ = _
  rw [bind_bind]
  rfl

/-- A part that never refuses is safe when what follows is safe wherever it ends. -/
theorem safe_lift_bind {ε σ : Type} {realm : Realm S σ}
    {keeps : (call : S.Call) → σ → S.Answer call → σ → Prop} {wanted : α → σ → Prop}
    {part : Program S α} {state : σ} (safe : realm.Safe keeps wanted part state)
    {next : α → ExceptT ε (Program S) β} {last : Except ε β → σ → Prop}
    (rest
      : ∀ value later, wanted value later → realm.Safe keeps last (ExceptT.run (next value)) later)
    : realm.Safe keeps last (ExceptT.run ((liftM part : ExceptT ε (Program S) α) >>= next))
        state := by
  rw [except_lift_bind]
  exact safe.followed rest

/-- What holds all the time holds after a part that may refuse and after what follows it. -/
theorem safe_except_bind {ε σ : Type} {realm : Realm S σ}
    {keeps : (call : S.Call) → σ → S.Answer call → σ → Prop} {holds : σ → Prop}
    (stable : realm.Stable holds) {part : ExceptT ε (Program S) α} {state : σ}
    (safe : realm.Safe keeps (fun _ => holds) (ExceptT.run part) state)
    {next : α → ExceptT ε (Program S) β}
    (rest
      : ∀ value later,
          holds later
          → realm.Safe keeps (fun _ => holds) (ExceptT.run (next value)) later)
    : realm.Safe keeps (fun _ => holds) (ExceptT.run (part >>= next)) state := by
  rw [except_bind]
  refine safe.followed fun result later held => ?_
  cases result with
  | ok value => exact rest value later held
  | error reason => exact fun _ drifts => stable drifts held

/-- Some answers lead a program to its end, with that value. -/
inductive Ends : Program S α → List (Happening S) → α → Prop where
  | done (value : α) : Ends (.done value) [] value
  | ask {call : S.Call} {next : S.Answer call → Program S α} {answer : S.Answer call}
      {calls : List (Happening S)} {value : α} (rest : Ends (next answer) calls value)
      : Ends (.ask call next) (⟨call, answer⟩ :: calls) value

/-- A program that has ended makes no calls. -/
theorem ends_of_done {value other : α} {calls : List (Happening S)}
    (ends : (done value : Program S α).Ends calls other)
    : other = value ∧ calls = [] := by
  cases ends
  exact ⟨rfl, rfl⟩

/-- A program that was followed by another came to its own end first, by induction over it. -/
theorem ends_of_bind {program : Program S α} {next : α → Program S β}
    {calls : List (Happening S)} {value : β} (ends : (program.bind next).Ends calls value)
    : ∃ first middle second,
        program.Ends first middle ∧ (next middle).Ends second value ∧ calls = first ++ second := by
  induction program generalizing calls with
  | done middle => exact ⟨[], middle, calls, .done middle, ends, rfl⟩
  | ask call rest ih =>
      cases ends with
      | ask later =>
          obtain ⟨first, middle, second, one, two, rfl⟩ := ih _ later
          exact ⟨_ :: first, middle, second, .ask one, two, rfl⟩

/-- Every call that the program can come to is of a kind. -/
inductive Only (kind : S.Call → Prop) : Program S α → Prop where
  | done (value : α) : Only kind (.done value)
  | ask {call : S.Call} {next : S.Answer call → Program S α} (here : kind call)
      (rest : ∀ answer, Only kind (next answer))
      : Only kind (.ask call next)

/-- A program keeps to a kind of calls when both its parts do. -/
theorem Only.bind {kind : S.Call → Prop} {program : Program S α} {next : α → Program S β}
    (first : program.Only kind) (second : ∀ value, (next value).Only kind)
    : (program.bind next).Only kind := by
  induction first with
  | done value => exact second value
  | ask here _ ih => exact .ask here ih

/-- A program that keeps to a kind of calls keeps to a wider one. -/
theorem Only.mono {kind wider : S.Call → Prop} {program : Program S α}
    (only : program.Only kind) (within : ∀ call, kind call → wider call)
    : program.Only wider := by
  induction only with
  | done value => exact .done value
  | ask here _ ih => exact .ask (within _ here) ih

/-- A program that keeps to a kind of calls is embedded as one that keeps to what these are embedded
by, by induction over the program.
-/
theorem Only.embed_of {T : Signature} {kind : S.Call → Prop} {wider : T.Call → Prop}
    {into : (call : S.Call) → Program T (S.Answer call)}
    (calls : ∀ call, kind call → (into call).Only wider) {program : Program S α}
    (only : program.Only kind)
    : (program.embed into).Only wider := by
  induction only with
  | done value => exact .done value
  | ask here _ ih => exact (calls _ here).bind ih

/-- An embedded program keeps to the calls that it is embedded by. -/
theorem Only.embed {T : Signature} {kind : T.Call → Prop}
    {into : (call : S.Call) → Program T (S.Answer call)} (calls : ∀ call, (into call).Only kind)
    (program : Program S α)
    : (program.embed into).Only kind := by
  induction program with
  | done value => exact .done value
  | ask call next ih => exact (calls call).bind ih

/-- A program that keeps to a kind of calls is safe when every such call keeps its promise and
preserves what holds, by induction over the program.
-/
theorem Only.safe {σ : Type} {realm : Realm S σ}
    {keeps : (call : S.Call) → σ → S.Answer call → σ → Prop} {kind : S.Call → Prop}
    {program : Program S α} (only : program.Only kind) {holds : σ → Prop}
    (stable : realm.Stable holds)
    (step
      : ∀ {call before answer after},
          kind call
          → realm.replies call before answer after
          → holds before
          → keeps call before answer after ∧ holds after)
    {state : σ} (start : holds state)
    : realm.Safe keeps (fun _ later => holds later) program state := by
  induction only generalizing state with
  | done value => exact fun later drifts => stable drifts start
  | ask here _ ih =>
      intro before drifts answer after replies
      obtain ⟨keep, held⟩ := step here replies (stable drifts start)
      exact ⟨keep, ih answer held⟩

/-- One answerer runs a program that is followed by another first, by induction over it. -/
theorem run_bind {σ : Type} {answer : (call : S.Call) → σ → S.Answer call × σ}
    (program : Program S α) (next : α → Program S β) (state : σ)
    : (program.bind next).run answer state
      = (next (program.run answer state).1).run answer (program.run answer state).2 := by
  induction program generalizing state with
  | done value => rfl
  | ask call rest ih => exact ih (answer call state).1 (answer call state).2

section

variable {σ ε : Type} {answer : (call : S.Call) → σ → S.Answer call × σ} {state left : σ}

/-- What follows a program is run from what the program leaves. -/
theorem run_then {program : Program S α} {next : α → Program S β} {value : α}
    (first : program.run answer state = (value, left))
    : (program.bind next).run answer state = (next value).run answer left := by
  rw [run_bind, first]

/-- A part that may refuse does not, and what follows goes on. -/
theorem run_known {part : ExceptT ε (Program S) α} {next : α → ExceptT ε (Program S) β}
    {value : α} (first : (ExceptT.run part).run answer state = (.ok value, left))
    : (ExceptT.run (part >>= next)).run answer state
      = (ExceptT.run (next value)).run answer left := by
  rw [except_bind]
  exact run_then first

/-- A refusal is the end. -/
theorem run_refused {part : ExceptT ε (Program S) α} {next : α → ExceptT ε (Program S) β}
    {reason : ε} (first : (ExceptT.run part).run answer state = (.error reason, left))
    : (ExceptT.run (part >>= next)).run answer state = (.error reason, left) := by
  rw [except_bind]
  exact run_then first

/-- A part that never refuses goes first. -/
theorem run_lift {program : Program S α} {next : α → ExceptT ε (Program S) β} {value : α}
    (first : program.run answer state = (value, left))
    : (ExceptT.run ((liftM program : ExceptT ε (Program S) α) >>= next)).run answer state
      = (ExceptT.run (next value)).run answer left := by
  rw [except_lift_bind]
  exact run_then first

end

end Program

end Harvest
