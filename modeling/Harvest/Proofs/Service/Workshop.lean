import Harvest.Proofs.Service.Crowd

/-! Any number of operations at once over one store. Each respects what is there, so each is company
that the others can bear, and the store is tidy and grows whatever happens.
-/

namespace Harvest

open Realm Program Relation

/-- An operation under way: the identifiers that were given out to it, what it has asked, and what
is left of it, whose value goes to nobody.
-/
structure Worker where
  given : List Uuid
  past : List (Happening runCalls)
  rest : ServiceM Unit

/-- The scene of an operation at a store. -/
def Worker.scene (worker : Worker) (store : Memory) : Scene := ⟨store, worker.given, worker.past⟩

/-- An operation that has asked nothing yet. -/
def Worker.begin {α : Type} (part : ServiceM α) : Worker := ⟨[], [], part.bind fun _ => .done ()⟩

/-- A store and the operations that are under way over it. -/
structure Workshop where
  store : Memory
  workers : List Worker

namespace Workshop

/-- Before anything was done. -/
def start : Workshop := ⟨.empty, []⟩

/-- An operation begins, or the next call of one is answered by the store or refused by a fault; an
identifier that is given out is new to all of them. An operation may be left at any point.
-/
inductive Works : Workshop → Workshop → Prop where
  | begin {α : Type} {part : ServiceM α} (operation : Service.IsOperation part) (store : Memory)
      (workers : List Worker)
      : Works ⟨store, workers⟩ ⟨store, .begin part :: workers⟩
  | turn {store : Memory} {workers others : List Worker} {given : List Uuid}
      {past : List (Happening runCalls)} {call : ServiceCall} {next : call.Answer → ServiceM Unit}
      {answer : call.Answer} {later : Scene}
      (chosen : workers.Perm (⟨given, past, Program.ask call next⟩ :: others))
      (serves : crowd.Serves call ⟨store, given, past⟩ answer later)
      (apart : ∀ id ∈ later.given, id ∉ given → ∀ other ∈ others, id ∉ other.given)
      : Works ⟨store, workers⟩ ⟨later.store, ⟨later.given, later.past, next answer⟩ :: others⟩

/-- What a workshop can come to. -/
def Reaches : Workshop → Workshop → Prop := ReflTransGen Works

variable {before after : Workshop}

-----------------------------------------------------------------------------------------
-- One call is company that others can bear
-----------------------------------------------------------------------------------------

/-- What an operation does to the store is what others may do beside those who were given other
identifiers.
-/
theorem acts_of_serves {call : ServiceCall} {scene later : Scene} {answer : call.Answer}
    (serves : crowd.Serves call scene answer later)
    (kept : Crowd.Respectful call scene answer later) {given : List Uuid}
    (apart : ∀ id ∈ given, id ∉ scene.given)
    : crowd.acts given scene.store later.store := by
  cases serves with
  | own => exact crowd.still _ _
  | run replies =>
      cases replies with
      | fault => exact crowd.still _ _
      | fresh => exact crowd.still _ _
      | outside => exact crowd.still _ _
      | store call scene =>
          obtain ⟨respects, mine⟩ := kept
          have adds := Memory.adds_answer respects
          refine ⟨adds.grows respects, fun tidy => tidy.answer respects, fun id member vacant => ?_⟩
          exact adds.vacant vacant fun taken => apart id member (mine id taken)

-----------------------------------------------------------------------------------------
-- Order
-----------------------------------------------------------------------------------------

/-- No identifier was given out to both. -/
def Apart (one other : Worker) : Prop := ∀ id ∈ one.given, id ∉ other.given

theorem Apart.symm {one other : Worker} (apart : Apart one other) : Apart other one :=
  fun id there here => apart id here there

/-- The store is tidy, and what is left of every operation respects it whatever the others do. -/
structure Orderly (workshop : Workshop) : Prop where
  tidy : workshop.store.Tidy
  respectful
    : ∀ worker ∈ workshop.workers,
        crowd.serves.Safe Crowd.Respectful (fun _ _ => True) worker.rest
          (worker.scene workshop.store)
  apart : workshop.workers.Pairwise Apart

theorem orderly_start : start.Orderly :=
  ⟨Memory.tidy_empty, List.forall_mem_nil _, .nil⟩

/-- Whatever is done next keeps the order, and the store grows. -/
theorem Orderly.works (orderly : before.Orderly) (works : Works before after)
    : after.Orderly ∧ before.store.Grows after.store := by
  cases works with
  | begin operation store workers =>
      refine ⟨⟨orderly.tidy, List.forall_mem_cons.mpr ⟨?_, orderly.respectful⟩, ?_⟩, .refl store⟩
      · have start : Crowd.Since store (.start store) := ⟨orderly.tidy, .refl store⟩
        refine ((Crowd.parts store).operation operation start).followed ?_
        exact fun _ _ _ _ _ => trivial
      · exact List.pairwise_cons.mpr ⟨fun _ _ => List.forall_mem_nil _, orderly.apart⟩
  | @turn store workers others given past call next answer later chosen serves apart =>
      have all := (chosen.pairwise_iff Apart.symm).mp orderly.apart
      obtain ⟨separate, rest⟩ := List.pairwise_cons.mp all
      have mine := orderly.respectful _ (chosen.mem_iff.mpr List.mem_cons_self)
      obtain ⟨kept, safe⟩ := mine _ (crowd.serves.still _) answer later serves
      have acts (worker : Worker) (member : worker ∈ others)
          : crowd.acts worker.given store later.store :=
        acts_of_serves serves kept fun id there here => separate worker member id here there
      have own : crowd.acts [] store later.store :=
        acts_of_serves serves kept (List.forall_mem_nil _)
      refine ⟨⟨own.2.1 orderly.tidy, List.forall_mem_cons.mpr ⟨safe, ?_⟩, ?_⟩, own.1⟩
      · intro worker member
        have there := chosen.mem_iff.mpr (List.mem_cons_of_mem _ member)
        exact (orderly.respectful worker there).drift ⟨rfl, rfl, acts worker member⟩
      · refine List.pairwise_cons.mpr ⟨fun worker member id here there => ?_, rest⟩
        by_cases old : id ∈ given
        · exact separate worker member id old there
        · exact apart id here old worker member there

/-- The order is kept for good and the store grows all the time, by induction over what is done. -/
theorem Orderly.reaches (orderly : before.Orderly) (reached : Reaches before after)
    : after.Orderly ∧ before.store.Grows after.store := by
  induction reached with
  | refl => exact ⟨orderly, .refl _⟩
  | tail _ works ih =>
      obtain ⟨kept, grown⟩ := ih.1.works works
      exact ⟨kept, ih.2.trans grown⟩

/-- Whatever operations do at once, the store that they leave is tidy. -/
theorem tidy_of_reaches (reached : Reaches start after) : after.store.Tidy :=
  (orderly_start.reaches reached).1.tidy

/-- Whatever else operations do, records stay what they are for good. -/
theorem grows_of_reaches (first : Reaches start before) (more : Reaches before after)
    : before.store.Grows after.store :=
  ((orderly_start.reaches first).1.reaches more).2

/-- A workflow whose graph can be read can be saved under a new identifier. -/
theorem reaches_createWorkflow {store : Memory} {workers : List Worker} {id : Uuid}
    (vacant : store.Vacant id) (new : ∀ worker ∈ workers, id ∉ worker.given)
    {definition : String} {flow : Flow} (parsed : Flow.parse definition = .ok flow)
    (time : Time.Instant) (user name : String)
    : ∃ past,
        Reaches ⟨store, workers⟩
          ⟨store.putWorkflow (.fresh id time user name definition),
            ⟨[id], past, .done ()⟩ :: workers⟩ := by
  apply Exists.intro
  refine .head (.begin (.createWorkflow user name definition) store workers) ?_
  simp only [Worker.begin, Service.createWorkflow, parsed]
  refine .head (.turn (.refl _) (.run (.fresh id _ List.not_mem_nil vacant)) ?_) ?_
  · intro other member _ worker there
    obtain rfl := List.mem_singleton.mp member
    exact new worker there
  refine .head (.turn (.refl _) (.run (.outside (.task .now) trivial time _)) ?_) ?_
  · exact fun other member fresh => absurd member fresh
  refine .head (.turn (.refl _) (.run (.store (.createWorkflow _) _ trivial)) ?_) .refl
  exact fun other member fresh => absurd member fresh

end Workshop

end Harvest
