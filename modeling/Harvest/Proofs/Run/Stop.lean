import Harvest.Proofs.Service.Opening

/-! Requests to stop. A run that is asked to stop starts no phase that it has not looked before, the
request stays on record, and what the run does not reach is left waiting.
-/

namespace Harvest

namespace Run

open Realm

variable {σ : Type} [Ledger σ] {mine : Uuid → Prop} {execution : Uuid} {token : Token}

-----------------------------------------------------------------------------------------
-- The past of a run that is asked to stop
-----------------------------------------------------------------------------------------

/-- The two signs by which a run is asked to stop. -/
inductive Sign where
  | flag
  | token

/-- How a run looks for a sign. -/
def Sign.look (execution : Uuid) (token : Token) : Sign → RunCall
  | .flag => .store (.getExecution execution)
  | .token => .isCancelled token

/-- The sign is given. -/
def Sign.IsGiven (execution : Uuid) (token : Token) : Sign → Arena σ → Prop
  | .flag, arena => IsStopped execution arena.store
  | .token, arena => arena.supervisor.isCancelled token

/-- The run was told that no stop was asked for. -/
def Denies : Happening runCalls → Prop
  | ⟨.isCancelled _, answer⟩ => answer = false
  | ⟨.store (.getExecution _), answer⟩ =>
      ∃ current : Execution, answer = .ok current ∧ current.stopRequested = false
  | _ => False

/-- The call starts a phase. -/
def IsStart (happening : Happening runCalls) : Prop := begun [happening] ≠ []

/-- Since some time a run has heeded a sign: it was not told that there is none, and it started a
phase only before it looked again, for it had looked before that time.
-/
structure Heeds (look : RunCall) (token : Token) (earlier more : List (Happening runCalls))
    : Prop where
  shown : ∀ happening ∈ more, happening.1 = look → ¬ Denies happening
  started
    : ∀ early happening late,
        more = early ++ happening :: late
        → IsStart happening
        → begun early = []
          ∧ (∀ other ∈ early, other.1 ≠ look)
          ∧ ∃ other ∈ earlier, other.1 = .isCancelled token

section

variable {look : RunCall} {earlier more : List (Happening runCalls)}

/-- No phase was begun when no call starts one, by induction over the calls. -/
theorem begun_eq_nil_iff : begun more = [] ↔ ∀ happening ∈ more, ¬ IsStart happening := by
  induction more with
  | nil => simp [begun]
  | cons happening more ih =>
      rw [← List.singleton_append, begun_append, List.append_eq_nil_iff, ih,
        List.singleton_append, List.forall_mem_cons, IsStart, Classical.not_not]

/-- A list that ends two ways: what follows an element of the one is in the end of the other, or the
element is.
-/
theorem mem_or_split {α : Type} {front back early late : List α} {item : α}
    (same : front ++ back = early ++ item :: late)
    : item ∈ back ∨ ∃ rest, front = early ++ item :: rest ∧ late = rest ++ back := by
  rcases List.append_eq_append_iff.mp same with ⟨rest, _, rfl⟩ | ⟨rest, rfl, split⟩
  · exact Or.inl (List.mem_append_right _ List.mem_cons_self)
  · cases rest with
    | nil =>
        rw [List.nil_append] at split
        exact Or.inl (split ▸ List.mem_cons_self)
    | cons head tail =>
        obtain ⟨rfl, rfl⟩ := List.cons.inj split
        exact Or.inr ⟨tail, rfl, rfl⟩

/-- A run that has looked and was told of no stop, but heeds a sign, looked before it was given: it
has started nothing since, and it has not looked for the sign.
-/
theorem Cleared.quiet_since {sign : Sign}
    (cleared : Cleared execution token (earlier ++ more))
    (shown
      : ∀ happening ∈ more, happening.1 = sign.look execution token → ¬ Denies happening)
    : begun more = []
      ∧ (∀ other ∈ more, other.1 ≠ sign.look execution token)
      ∧ ∃ other ∈ earlier, other.1 = .isCancelled token := by
  obtain ⟨front, late, current, past, unstopped, quiet⟩ := cleared
  cases sign with
  | flag =>
      have split : earlier ++ more
          = (front ++ [⟨.isCancelled token, false⟩])
            ++ ⟨.store (.getExecution execution), .ok current⟩ :: late := by
        simpa using past
      -- the answer without the flag is from before the sign, and all since then is quiet
      rcases mem_or_split split with member | ⟨rest, rfl, rfl⟩
      · exact absurd ⟨current, rfl, unstopped⟩ (shown _ member rfl)
      · have quiet' : ∀ other ∈ more, other.1.IsQuiet :=
          fun other member => quiet other (List.mem_append_right _ member)
        refine ⟨begun_quiet quiet', fun other member same => ?_, ?_⟩
        · exact (same ▸ quiet' other member : (Sign.flag.look execution token).IsQuiet)
        · exact ⟨⟨.isCancelled token, false⟩, by simp, rfl⟩
  | token =>
      have split : earlier ++ more
          = front ++ ⟨.isCancelled token, false⟩
            :: ([⟨.store (.getExecution execution), .ok current⟩] ++ late) := by
        simpa using past
      -- the token was looked at before the sign; the look at the record may have come after it
      rcases mem_or_split split with member | ⟨rest, rfl, tail⟩
      · exact absurd rfl (shown _ member rfl)
      · have kinds : ∀ other ∈ more,
            other = ⟨.store (.getExecution execution), .ok current⟩ ∨ other.1.IsQuiet := by
          intro other member
          have listed : other ∈ rest ++ more := List.mem_append_right _ member
          rw [← tail] at listed
          exact (List.mem_cons.mp listed).imp_right (quiet other)
        refine ⟨begun_eq_nil_iff.mpr fun other member => ?_, fun other member same => ?_, ?_⟩
        · rcases kinds other member with rfl | quiet
          · exact fun start => start rfl
          · refine fun start => start (begun_quiet fun happening here => ?_)
            exact List.mem_singleton.mp here ▸ quiet
        · rcases kinds other member with rfl | quiet
          · cases same
          · exact (same ▸ quiet : (Sign.token.look execution token).IsQuiet)
        · exact ⟨⟨.isCancelled token, false⟩, by simp, rfl⟩

theorem Heeds.nil (look : RunCall) (token : Token) (earlier : List (Happening runCalls))
    : Heeds look token earlier [] where
  shown := by simp
  started early happening late split := by simp at split

/-- A run that heeds a sign heeds it through one more call. -/
theorem Heeds.snoc (heeds : Heeds look token earlier more) {happening : Happening runCalls}
    (shown : happening.1 = look → ¬ Denies happening)
    (started
      : IsStart happening
        → begun more = []
          ∧ (∀ other ∈ more, other.1 ≠ look)
          ∧ ∃ other ∈ earlier, other.1 = .isCancelled token)
    : Heeds look token earlier (more ++ [happening]) where
  shown other member := by
    rcases List.mem_append.mp member with old | new
    · exact heeds.shown other old
    · rw [List.mem_singleton.mp new]
      exact shown
  started early other late split start := by
    rcases List.eq_nil_or_concat late with rfl | ⟨late, last, rfl⟩
    · obtain ⟨rfl, same⟩ := List.append_inj' split rfl
      rw [← List.singleton_inj.mp same] at start
      exact started start
    · rw [List.concat_eq_append, ← List.cons_append, ← List.append_assoc] at split
      obtain ⟨same, _⟩ := List.append_inj' split rfl
      exact heeds.started early other late same start

/-- At most one phase is started since, by induction over the calls from the last one on. -/
theorem Heeds.length_begun_le (heeds : Heeds look token earlier more)
    : (begun more).length ≤ 1 := by
  induction more using List.reverseRecOn with
  | nil => exact Nat.zero_le 1
  | append_singleton more last ih =>
      rw [begun_append]
      by_cases start : IsStart last
      · rw [(heeds.started more last [] rfl start).1, List.nil_append]
        exact List.length_filterMap_le _ [last]
      · rw [Classical.not_not.mp start, List.append_nil]
        refine ih ⟨fun other member => ?_, fun early other late split => ?_⟩
        · exact heeds.shown other (List.mem_append_left _ member)
        · exact heeds.started early other (late ++ [last]) (by simp [split])

end

-----------------------------------------------------------------------------------------
-- Runs that are asked to stop
-----------------------------------------------------------------------------------------

/-- Someone asks the run of an execution to stop: the store grants the request, or the token of the
run is cancelled by now.
-/
inductive Asks (execution : Uuid) (token : Token) : Sign → Arena σ → Arena σ → Prop where
  | request {before : Arena σ}
      (granted : (Store.answer (.requestStop execution) before.store).1 = .ok ())
      : Asks execution token .flag before
          { before.answered (.requestStop execution) with past := before.past }
  | cancelled {before : Arena σ} (cancelled : before.supervisor.isCancelled token)
      : Asks execution token .token before before

namespace Asks

variable {sign : Sign} {before after : Arena σ}

theorem drifts (asks : Asks execution token sign before after) (mine : Uuid → Prop)
    : Arena.Drifts mine before after := by
  cases asks with
  | request => exact Arena.drifts_requestStop mine before execution
  | cancelled => exact .refl before

theorem isGiven (asks : Asks execution token sign before after)
    : sign.IsGiven execution token after := by
  cases asks with
  | request granted =>
      obtain ⟨⟨old, _, _, raised⟩, _⟩ :=
        (Ledger.handles (.requestStop execution) before.sound).effect granted
      exact ⟨_, raised, rfl⟩
  | cancelled cancelled => exact cancelled

/-- A service that is shut asks every run, those to come too. -/
theorem of_shut (execution : Uuid) (token : Token) {arena : Arena σ} {supervisor : Supervisor}
    (shut : arena.supervisor = supervisor.shut)
    : Asks execution token .token arena arena :=
  .cancelled (shut ▸ rfl)

/-- A service that cancels a run asks the run whose token is on its list. -/
theorem of_cancel {arena : Arena σ} {supervisor : Supervisor}
    (listed : supervisor.token? execution = some token)
    (cancel : arena.supervisor = supervisor.cancel execution)
    : Asks execution token .token arena arena := by
  refine .cancelled ?_
  rw [cancel, Supervisor.cancel, listed]
  simp [Supervisor.isCancelled]

end Asks

section

variable {charge : Charge} {sign : Sign} {before later : Arena σ} {call : RunCall}
  {answer : call.Answer}

/-- Others do not take back a sign. -/
theorem Sign.IsGiven.drift (given : sign.IsGiven charge.execution token before)
    (ours : mine charge.execution) (drifts : Arena.Drifts mine before later)
    : sign.IsGiven charge.execution token later := by
  cases sign with
  | flag => exact (drifts.alone charge.execution ours).isStopped given
  | token => exact drifts.cancelled token given

/-- The run does not take it back either: what it writes of its execution keeps the flag. -/
theorem Sign.IsGiven.reply (given : sign.IsGiven charge.execution token before)
    (replies : Arena.Replies mine call before answer later)
    (proper : charge.Proper call before answer later)
    : sign.IsGiven charge.execution token later := by
  cases sign with
  | flag =>
      cases replies with
      | store call => exact proper.1.isStopped before.sound given
      | _ => exact given
  | token =>
      have kept := replies.grows.1
      exact (congrArg (Supervisor.isCancelled · token) kept).trans given

/-- A run that looks for a sign that is given is not told that there is none. -/
theorem Sign.IsGiven.shown (given : sign.IsGiven charge.execution token before)
    (replies : Arena.Replies mine call before answer later)
    (looks : call = sign.look charge.execution token)
    : ¬ Denies ⟨call, answer⟩ := by
  subst looks
  cases sign with
  | flag =>
      rintro ⟨current, rfl, unstopped⟩
      rcases Arena.Replies.store_inv replies with ⟨result, same, _, _, effect⟩ | ⟨_, same, _⟩
      · cases same
        obtain ⟨_, _, held⟩ := effect
        obtain ⟨standing, held', flag⟩ := given
        rw [held, Option.some.injEq] at held'
        rw [← held'] at flag
        exact absurd (flag.symm.trans unstopped) (by decide)
      · cases same
  | token =>
      obtain ⟨same, _⟩ := Arena.Replies.isCancelled_inv replies
      intro denied
      exact absurd ((given.symm.trans same.symm).trans denied) (by decide)

/-- A start comes right after a look for a stop. -/
theorem cleared_of_isStart (proper : charge.Proper call before answer later)
    (start : IsStart ⟨call, answer⟩)
    : Cleared charge.execution charge.token before.past := by
  cases call with
  | store call =>
      cases started : started? call with
      | none => exact absurd (by simp [begun, started]) start
      | some phase => exact proper.2.1 phase started
  | _ => exact absurd rfl start

/-- From the time when a sign is given on, a run heeds it, by induction over its steps. -/
theorem heeds_of_reaches (ours : mine charge.execution) {α : Type} {program rest : RunM α}
    {wanted : α → Arena σ → Prop}
    (safe : (Arena.running mine).Safe charge.Proper wanted program before)
    (given : sign.IsGiven charge.execution charge.token before)
    (run : (Arena.running mine).Reaches (program, before) (rest, later))
    : sign.IsGiven charge.execution charge.token later
      ∧ ∃ more,
          later.past = before.past ++ more
          ∧ Heeds (sign.look charge.execution charge.token) charge.token before.past more := by
  let heeded (arena : Arena σ) : Prop :=
    sign.IsGiven charge.execution charge.token arena
    ∧ ∃ more,
        arena.past = before.past ++ more
        ∧ Heeds (sign.look charge.execution charge.token) charge.token before.past more
  refine safe.preserved heeded ?_ ?_ ?_ run
  · rintro here there drifts ⟨given, more, past, heeds⟩
    exact ⟨given.drift ours drifts, more, drifts.past.trans past, heeds⟩
  · rintro call here answer there replies proper ⟨given, more, past, heeds⟩
    refine ⟨given.reply replies proper, more ++ [⟨call, answer⟩], ?_, ?_⟩
    · rw [replies.grows.2, past, List.append_assoc]
    · refine heeds.snoc (given.shown replies) fun start => ?_
      exact (past ▸ cleared_of_isStart proper start).quiet_since heeds.shown
  · exact ⟨given, [], (List.append_nil _).symm, .nil _ _ _⟩

/-- A run that has not looked for a stop has started nothing, by induction over its steps. -/
theorem looked_of_reaches {α : Type} {program rest : RunM α} {wanted : α → Arena σ → Prop}
    (safe : (Arena.running mine).Safe charge.Proper wanted program before)
    (fresh : before.past = [])
    (run : (Arena.running mine).Reaches (program, before) (rest, later))
    : begun later.past = [] ∨ ∃ other ∈ later.past, other.1 = .isCancelled charge.token := by
  let tame (arena : Arena σ) : Prop :=
    begun arena.past = [] ∨ ∃ other ∈ arena.past, other.1 = .isCancelled charge.token
  refine safe.preserved tame ?_ ?_ ?_ run
  · rintro here there drifts looked
    simpa only [tame, drifts.past] using looked
  · rintro call here answer there replies proper looked
    simp only [tame, replies.grows.2, begun_append]
    by_cases start : IsStart ⟨call, answer⟩
    · obtain ⟨early, late, current, past, _⟩ := cleared_of_isStart proper start
      exact Or.inr ⟨⟨.isCancelled charge.token, false⟩, by simp [past], rfl⟩
    · rw [Classical.not_not.mp start, List.append_nil]
      rcases looked with none | ⟨other, member, same⟩
      · exact Or.inl none
      · exact Or.inr ⟨other, List.mem_append_left _ member, same⟩
  · exact Or.inl (congrArg begun fresh)

end

/-- How a run leaves its execution: the phases that it started come first, and the others wait. -/
structure Leaves (execution : Uuid) (outcome : RunOutcome) (arena : Arena σ)
    (reached unreached : List Entry) : Prop where
  status
    : ∃ standing,
        Books.standing? arena.store execution = some standing ∧ standing.status = outcome.status
  roll : Books.roll arena.store execution = reached ++ unreached
  started : begun arena.past = reached.map Entry.id
  waits : ∀ entry ∈ unreached, entry.status = .pending
  failed : unreached ≠ [] → outcome.status = .failed

/-- A stop is never lost. From the time when it is asked for on, no phase is started after the run
has looked again, and none at all if it had not looked yet; the request stays on record through all
that the run writes; and when phases are left waiting, the execution has failed.
-/
theorem stop_never_lost {settings : RunSettings} {request : RunRequest} {sign : Sign}
    {execution : Execution} {start created before after later : Arena σ}
    {middle rest : RunM (Except SetupError RunOutcome)}
    (made
      : (Arena.serving mine).Reaches
          (ExceptT.run (Service.createExecution settings.catalog request), start)
          (.done (.ok execution), created))
    (first
      : (Arena.running mine).Reaches (execute settings execution.id token, created.anew)
          (middle, before))
    (asks : Asks execution.id token sign before after)
    (last : (Arena.running mine).Reaches (middle, after) (rest, later))
    (granted : ∀ happening ∈ later.past, IsGranted happening)
    : (∃ more,
        later.past = before.past ++ more
        ∧ (begun more).length ≤ 1
        ∧ ∀ early happening late,
            more = early ++ happening :: late
            → IsStart happening
            → ∀ other ∈ early, other.1 ≠ sign.look execution.id token)
      ∧ ((∀ other ∈ before.past, other.1 ≠ .isCancelled token) → begun later.past = [])
      ∧ sign.IsGiven execution.id token later
      ∧ ∀ result,
          rest = .done result
          → ∃ outcome reached unreached,
              result = .ok outcome ∧ Leaves execution.id outcome later reached unreached := by
  obtain ⟨ours, charge, flow, plan, catalog, named, rfl, parsed, suits, new, safe⟩ :=
    Charge.exists_isNew made token
  rw [← named] at asks ours ⊢
  -- asking is a drift, so the run stays safe and heeds the sign from then on
  have drifts := asks.drifts mine
  have safe' := (safe.reaches first).drift drifts
  obtain ⟨given, more, past, heeds⟩ := heeds_of_reaches ours safe' asks.isGiven last
  rw [drifts.past] at past heeds
  refine ⟨⟨more, past, heeds.length_begun_le, ?_⟩, ?_, given, ?_⟩
  · intro early happening late split starts
    exact (heeds.started early happening late split starts).2.1
  · intro unlooked
    have earlier : begun before.past = [] := by
      rcases looked_of_reaches safe rfl first with none | ⟨other, member, same⟩
      · exact none
      · exact absurd same (unlooked other member)
    rw [past, begun_append, earlier, List.nil_append, begun_eq_nil_iff]
    intro happening member starts
    obtain ⟨early, late, split⟩ := List.append_of_mem member
    obtain ⟨_, _, other, looked, same⟩ := heeds.started early happening late split starts
    exact unlooked other looked same
  · rintro result rfl
    have run := (first.tail (.drift drifts)).trans last
    cases safe.ended run with
    | faulted faulted =>
        obtain ⟨happening, member, refused⟩ := faulted
        exact absurd (granted happening member) refused
    | refused refuses => exact absurd refuses new.not_refuses
    | concluded concluded =>
        obtain ⟨ending, turns, waits, credits, stop, millis, time, order, went, rfl, holds⟩ :=
          concluded
        obtain ⟨stop', definition, held⟩ := holds.standing
        obtain ⟨done, past', _, started⟩ := holds.past
        refine ⟨_, turns.map (Turn.entry charge.catalog), waits, rfl, ⟨_, held, rfl⟩, holds.roll,
          ?_, ?_, ?_⟩
        · rw [past', List.nil_append, started, List.map_map]
          rfl
        · intro entry member
          exact (new.waits entry (order ▸ List.mem_append_right _ member)).1
        · intro left
          cases went with
          | finished => exact absurd rfl left
          | failed => rfl
          | stopped => rfl

/-- A run that begins after the service was shut starts no phase and leaves its only one waiting. -/
theorem stop_never_lost_shut
    : ∃ (created later : Arena Memory) (outcome : RunOutcome),
        (Arena.serving fun _ => True).Reaches
            (ExceptT.run (Service.createExecution Lone.settings.catalog Lone.request), Lone.ground)
            (.done (.ok (Lone.execution Lone.flow.text)), created)
        ∧ Asks (Lone.execution Lone.flow.text).id ⟨0⟩ .token created.anew created.anew
        ∧ (Arena.running fun _ => True).Reaches
            (execute Lone.settings (Lone.execution Lone.flow.text).id ⟨0⟩, created.anew)
            (.done (.ok outcome), later)
        ∧ (∀ happening ∈ later.past, IsGranted happening)
        ∧ begun later.past = []
        ∧ ∃ reached unreached,
            Leaves (Lone.execution Lone.flow.text).id outcome later reached unreached := by
  obtain ⟨sound, past, made⟩ := Lone.opened
  obtain ⟨flow, parsed, _⟩ := Service.planned_of_planOf Lone.planned
  obtain ⟨outcome, later, run, granted⟩ := Lone.halted parsed sound past
  refine ⟨_, later, outcome, made, .of_shut _ _ rfl, run, granted, ?_⟩
  obtain ⟨_, unlooked, _, ends⟩ := stop_never_lost made .refl (.of_shut _ _ rfl) run granted
  obtain ⟨_, reached, unreached, same, leaves⟩ := ends _ rfl
  cases same
  exact ⟨unlooked (by simp [Arena.anew]), reached, unreached, leaves⟩

end Run

end Harvest
