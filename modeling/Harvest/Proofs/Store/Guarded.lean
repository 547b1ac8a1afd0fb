import Harvest.Proofs.Store.Finished

/-! Stores that guard their finished phases. Whoever tries to replace one is told that it is
terminal, and its record and its place on the roll outlast every call that creates nothing and moves
no finished phases.
-/

namespace Harvest

open Books

/-- The call creates no phases and moves no finished ones. -/
def StoreCall.SparesFinished : StoreCall → Prop
  | .createExecution _ _ => False
  | .setPhaseStatuses _ source _ => ¬ source.isTerminal
  | _ => True

/-- A store that guards its finished phases. -/
class Guard (σ : Type) extends Archive σ where
  refuses
    : ∀ {store : σ} {id : Uuid} {entry : Entry} {record : PhaseRecord},
        Sound store
        → entry ∈ roll store id
        → entry.status.isTerminal
        → record.id = entry.id
        → (Store.answer (.updatePhase record) store).1 = .error (.terminal entry.id.text)
  lasts
    : ∀ {call : StoreCall} {store : σ} {id : Uuid} {entry : Entry},
        Sound store
        → entry ∈ roll store id
        → entry.status.isTerminal
        → call.SparesFinished
        → entry ∈ roll (Store.answer call store).2 id
          ∧ recordOf entry.id (Store.answer call store).2 = recordOf entry.id store

-----------------------------------------------------------------------------------------
-- Stores in memory
-----------------------------------------------------------------------------------------

namespace Memory

variable {m : Memory} {id : Uuid} {entry : Entry} {call : StoreCall}

/-- An entry is on the roll of an execution when a phase of the execution is found that has it. -/
theorem mem_roll_iff (sound : m.Sound)
    : entry ∈ roll m id
      ↔ ∃ p, m.phase? entry.id = some p ∧ p.executionId = id ∧ p.entry = entry := by
  constructor
  · intro listed
    obtain ⟨p, here, rfl⟩ := List.mem_map.mp listed
    obtain ⟨stored, owned⟩ := mem_planned.mp here
    exact ⟨p, Keyed.find?_of_mem sound.phases stored, owned, rfl⟩
  · rintro ⟨p, found, owned, rfl⟩
    exact List.mem_map_of_mem (mem_planned.mpr ⟨List.mem_of_find?_eq_some found, owned⟩)

/-- A finished phase is found the same after a call that spares what is finished. -/
theorem phase?_lasts {p : PhaseRecord} (found : m.phase? id = some p)
    (finished : p.status.isTerminal) (spares : call.SparesFinished)
    : (Memory.answer call m).2.phase? id = some p := by
  have new : call.CreatesNew m := by
    cases call with
    | createExecution _ _ => exact spares.elim
    | _ => trivial
  rcases phases_last call new found finished with same | ⟨_, rfl, _⟩
  · exact same
  · exact absurd finished spares

instance : Guard Memory where
  refuses := by
    intro m id entry record sound listed finished named
    obtain ⟨p, found, _, rfl⟩ := (mem_roll_iff sound).mp listed
    change (m.updatePhase record).1 = _
    rw [updatePhase, named, found]
    exact congrArg Prod.fst (if_pos finished)
  lasts := by
    intro call m id entry sound listed finished spares
    obtain ⟨p, found, owned, rfl⟩ := (mem_roll_iff sound).mp listed
    have same := phase?_lasts found finished spares
    refine ⟨(mem_roll_iff (handles call sound).sound).mpr ⟨p, same, owned, rfl⟩, ?_⟩
    exact recordOf_congr (same.trans found.symm)

end Memory

-----------------------------------------------------------------------------------------
-- Stores in tables
-----------------------------------------------------------------------------------------

namespace Tables

variable {t : Tables} {m : Memory} {id : Uuid} {entry : Entry}

/-- An entry is on the roll of an execution when a row is found that has it. -/
theorem Mirrors.mem_roll_iff (mirrors : t.Mirrors m)
    : entry ∈ Books.roll t id
      ↔ ∃ p : PhaseRecord,
          t.phases.find? (·.id == entry.id.text) = some (.ofRecord p)
          ∧ p.executionId = id
          ∧ p.entry = entry := by
  rw [mirrors.roll, Memory.mem_roll_iff mirrors.sound, mirrors.phase?]
  constructor
  · rintro ⟨p, found, owned, same⟩
    exact ⟨p, congrArg (Option.map PhaseRow.ofRecord) found, owned, same⟩
  · rintro ⟨p, found, owned, rfl⟩
    obtain ⟨stored, held, row⟩ := Option.map_eq_some_iff.mp found
    have entry : stored.entry = p.entry := by
      rw [← PhaseRow.entry_ofRecord, row, PhaseRow.entry_ofRecord]
    have owner : stored.executionId.text = p.executionId.text := by
      simpa only [PhaseRow.ofRecord] using congrArg PhaseRow.executionId row
    exact ⟨stored, held, (Uuid.text_injective owner).trans owned, entry⟩

/-- A finished phase is refused to whoever would change it. -/
theorem Mirrors.changePhase_refused (mirrors : t.Mirrors m) {p : PhaseRecord}
    (found : t.phases.find? (·.id == p.id.text) = some (.ofRecord p))
    (finished : p.status.isTerminal) (change : PhaseRow → PhaseRow)
    : (t.changePhase p.id change).1 = .error (.terminal p.id.text) := by
  have present : t.hasPhase p.id.text = true :=
    List.any_eq_true.mpr ⟨_, List.mem_of_find?_eq_some found, beq_self_eq_true _⟩
  have none' : ¬ t.phases.any fun row => row.id == p.id.text && !row.isTerminal := by
    intro some'
    obtain ⟨row, stored, passes⟩ := List.any_eq_true.mp some'
    obtain ⟨named, unfinished⟩ := Bool.and_eq_true_iff.mp passes
    -- rows of one identifier are one row
    have distinct : (t.phases.map PhaseRow.id).Nodup := by
      rw [mirrors.phases, List.map_map]
      change (m.phases.map fun record => record.id.text).Nodup
      have ids := mirrors.sound.phases.map (f := Uuid.text) fun _ _ => Uuid.text_injective
      rwa [List.map_map] at ids
    have same := Keyed.find?_of_mem distinct stored
    rw [beq_iff_eq.mp named, found, Option.some.injEq] at same
    rw [← same, PhaseRow.isTerminal_ofRecord, finished] at unfinished
    cases unfinished
  simp only [changePhase, if_neg none', untouched, present, if_pos]
  rfl

instance : Guard Tables where
  refuses := by
    rintro t id entry record ⟨m, mirrors⟩ listed finished named
    obtain ⟨p, found, _, rfl⟩ := mirrors.mem_roll_iff.mp listed
    change (t.changePhase record.id (setPhase record)).1 = _
    rw [named]
    exact mirrors.changePhase_refused found finished _
  lasts := by
    rintro call t id entry ⟨m, mirrors⟩ listed finished spares
    obtain ⟨p, found, owned, rfl⟩ := mirrors.mem_roll_iff.mp listed
    have terminal : (PhaseRow.ofRecord p).isTerminal :=
      (PhaseRow.isTerminal_ofRecord p).trans finished
    have same : (Tables.answer call t).2.phases.find? (·.id == p.id.text)
        = some (.ofRecord p) := by
      rcases phases_last call found terminal with same | ⟨_, source, _, rfl, _, status, _⟩
      · exact same
      · have left : p.status = source := by
          have names := PhaseStatus.name_beq p.status source
          rw [show p.status.name = source.name from status, beq_self_eq_true] at names
          exact beq_iff_eq.mp names.symm
        exact absurd (left ▸ finished) spares
    obtain ⟨next, after⟩ := (handles mirrors call).sound
    refine ⟨after.mem_roll_iff.mpr ⟨p, same, owned, rfl⟩, ?_⟩
    change readOne (List.find? _ _) _ _ = readOne (List.find? _ _) _ _
    exact congrArg (readOne · _ _) (same.trans found.symm)

end Tables

end Harvest
