import Harvest.Proofs.Store.Growth

/-! Who owns what. A workflow belongs to a user, and with it its executions and their phases. Stores
that agree on who owns what and on all that a user owns list the same for that user.
-/

namespace Harvest

-----------------------------------------------------------------------------------------
-- Orders of listing
-----------------------------------------------------------------------------------------

namespace PhaseRecord

theorem upTo_trans (one two three : PhaseRecord) (first : one.upTo two) (second : two.upTo three)
    : one.upTo three := by
  simp only [upTo, Bool.or_eq_true, Bool.and_eq_true, decide_eq_true_eq, beq_iff_eq,
    BitVec.le_def] at first second ⊢
  omega

theorem upTo_total (one two : PhaseRecord) : one.upTo two || two.upTo one := by
  simp only [upTo, Bool.or_eq_true, Bool.and_eq_true, decide_eq_true_eq, beq_iff_eq,
    BitVec.le_def]
  omega

/-- Phases that are up to each other have one identifier. -/
theorem id_of_upTo (one two : PhaseRecord) (first : one.upTo two) (second : two.upTo one)
    : one.id = two.id := by
  simp only [upTo, Bool.or_eq_true, Bool.and_eq_true, decide_eq_true_eq, beq_iff_eq,
    BitVec.le_def] at first second
  have same : one.id.bits.toNat = two.id.bits.toNat := by omega
  exact congrArg Uuid.mk (BitVec.eq_of_toNat_eq same)

end PhaseRecord

namespace Execution

/-- The order in parts that numbers decide. -/
theorem latestUpTo_iff (one two : Execution)
    : one.latestUpTo two
      ↔ (two.createdAt.day < one.createdAt.day
          ∨ two.createdAt.day = one.createdAt.day
            ∧ (two.createdAt.second < one.createdAt.second
              ∨ two.createdAt.second = one.createdAt.second
                ∧ two.createdAt.nanos < one.createdAt.nanos))
        ∨ (one.createdAt.day = two.createdAt.day ∧ one.createdAt.second = two.createdAt.second
            ∧ one.createdAt.nanos = two.createdAt.nanos)
          ∧ one.id.bits.toNat ≤ two.id.bits.toNat := by
  obtain ⟨_, _, _, _, _, ⟨day, second, nanos⟩, _, _, _, _, _⟩ := one
  obtain ⟨_, _, _, _, _, ⟨day', second', nanos'⟩, _, _, _, _, _⟩ := two
  simp only [latestUpTo, Time.Instant.before, Bool.or_eq_true, Bool.and_eq_true,
    decide_eq_true_eq, beq_iff_eq, BitVec.le_def, Time.Instant.mk.injEq]

theorem latestUpTo_trans (one two three : Execution) (first : one.latestUpTo two)
    (second : two.latestUpTo three)
    : one.latestUpTo three := by
  rw [latestUpTo_iff] at first second ⊢
  omega

theorem latestUpTo_total (one two : Execution) : one.latestUpTo two || two.latestUpTo one := by
  rw [Bool.or_eq_true, latestUpTo_iff, latestUpTo_iff]
  omega

/-- Executions that are up to each other have one identifier. -/
theorem id_of_latestUpTo (one two : Execution) (first : one.latestUpTo two)
    (second : two.latestUpTo one)
    : one.id = two.id := by
  rw [latestUpTo_iff] at first second
  have same : one.id.bits.toNat = two.id.bits.toNat := by omega
  exact congrArg Uuid.mk (BitVec.eq_of_toNat_eq same)

end Execution

namespace Memory

-----------------------------------------------------------------------------------------
-- Owners
-----------------------------------------------------------------------------------------

/-- Whom a workflow belongs to. -/
def workflowOwner? (m : Memory) (id : Uuid) : Option String := (m.workflow? id).map Workflow.userId

/-- Whom an execution belongs to: its workflow decides. -/
def executionOwner? (m : Memory) (id : Uuid) : Option String :=
  (m.execution? id).bind fun e => m.workflowOwner? e.workflowId

/-- Whom a phase belongs to: its execution decides. -/
def phaseOwner? (m : Memory) (id : Uuid) : Option String :=
  (m.phase? id).bind fun p => m.executionOwner? p.executionId

/-- The executions of a workflow, the latest first. -/
def latest (m : Memory) (workflow : Uuid) : List Execution :=
  (m.executions.filter (·.workflowId == workflow)).mergeSort Execution.latestUpTo

variable {m m' : Memory} {id : Uuid} {user : String}

/-- An execution of a tidy store belongs to the user that its record names. -/
theorem Tidy.executionOwner (tidy : m.Tidy) {e : Execution} (held : m.execution? id = some e)
    : m.executionOwner? id = some e.userId := by
  obtain ⟨w, there, owner⟩ := tidy.owned e (List.mem_of_find?_eq_some held)
  simp [executionOwner?, workflowOwner?, held, there, owner]

-----------------------------------------------------------------------------------------
-- Agreement
-----------------------------------------------------------------------------------------

/-- Two stores have the same identifiers, owners and links, and the same to tell of all that belongs
to a user. What else belongs to others may differ.
-/
structure AgreeFor (user : String) (m m' : Memory) : Prop where
  owners : ∀ id, m.workflowOwner? id = m'.workflowOwner? id
  parents
    : ∀ id,
        (m.execution? id).map Execution.workflowId = (m'.execution? id).map Execution.workflowId
  homes
    : ∀ id,
        (m.phase? id).map PhaseRecord.executionId = (m'.phase? id).map PhaseRecord.executionId
  workflows : ∀ id, m.workflowOwner? id = some user → m.workflow? id = m'.workflow? id
  executions : ∀ id, m.executionOwner? id = some user → m.execution? id = m'.execution? id
  phases : ∀ id, m.phaseOwner? id = some user → m.phase? id = m'.phase? id
  logs : ∀ id, m.phaseOwner? id = some user → m.logsOf id = m'.logsOf id

namespace AgreeFor

/-- Executions have the same owners. -/
theorem executionOwner (agree : AgreeFor user m m') (id : Uuid)
    : m.executionOwner? id = m'.executionOwner? id := by
  have through (m : Memory)
      : m.executionOwner? id
        = ((m.execution? id).map Execution.workflowId).bind m.workflowOwner? := by
    rw [Option.bind_map]
    rfl
  rw [through, through, agree.parents, funext agree.owners]

/-- Phases have the same owners. -/
theorem phaseOwner (agree : AgreeFor user m m') (id : Uuid)
    : m.phaseOwner? id = m'.phaseOwner? id := by
  have through (m : Memory)
      : m.phaseOwner? id
        = ((m.phase? id).map PhaseRecord.executionId).bind m.executionOwner? := by
    rw [Option.bind_map]
    rfl
  rw [through, through, agree.homes, funext agree.executionOwner]

theorem symm (agree : AgreeFor user m m') : AgreeFor user m' m where
  owners id := (agree.owners id).symm
  parents id := (agree.parents id).symm
  homes id := (agree.homes id).symm
  workflows id own := (agree.workflows id ((agree.owners id).trans own)).symm
  executions id own := (agree.executions id ((agree.executionOwner id).trans own)).symm
  phases id own := (agree.phases id ((agree.phaseOwner id).trans own)).symm
  logs id own := (agree.logs id ((agree.phaseOwner id).trans own)).symm

/-- A phase of an execution of the user is in both stores. -/
theorem mem_phasesOf (agree : AgreeFor user m m') (tidy : m.Tidy)
    (own : m.executionOwner? id = some user) {p : PhaseRecord} (member : p ∈ m.phasesOf id)
    : p ∈ m'.phasesOf id := by
  obtain ⟨there, home⟩ := List.mem_filter.mp member
  have held : m.phase? p.id = some p := Keyed.find?_of_mem tidy.phases there
  have owner : m.phaseOwner? p.id = some user := by
    rw [phaseOwner?, held, ← own]
    exact congrArg m.executionOwner? (beq_iff_eq.mp home)
  rw [agree.phases p.id owner] at held
  exact List.mem_filter.mpr ⟨List.mem_of_find?_eq_some held, home⟩

/-- Both stores list the same phases of an execution of the user. -/
theorem planned (agree : AgreeFor user m m') (tidy : m.Tidy) (tidy' : m'.Tidy)
    (own : m.executionOwner? id = some user)
    : m.planned id = m'.planned id := by
  have own' : m'.executionOwner? id = some user := (agree.executionOwner id).symm.trans own
  refine Keyed.mergeSort_of_mem_iff ?_ ?_ ?_ PhaseRecord.upTo_trans
    PhaseRecord.upTo_total PhaseRecord.id_of_upTo
  · exact tidy.phases.sublist (List.filter_sublist.map _)
  · exact tidy'.phases.sublist (List.filter_sublist.map _)
  · exact fun p => ⟨agree.mem_phasesOf tidy own, agree.symm.mem_phasesOf tidy' own'⟩

/-- An execution of a workflow of the user is in both stores. -/
theorem mem_executions (agree : AgreeFor user m m') (tidy : m.Tidy)
    (own : m.workflowOwner? id = some user) {e : Execution}
    (member : e ∈ m.executions.filter (·.workflowId == id))
    : e ∈ m'.executions.filter (·.workflowId == id) := by
  obtain ⟨there, parent⟩ := List.mem_filter.mp member
  have held : m.execution? e.id = some e := Keyed.find?_of_mem tidy.executions there
  have owner : m.executionOwner? e.id = some user := by
    rw [executionOwner?, held, ← own]
    exact congrArg m.workflowOwner? (beq_iff_eq.mp parent)
  rw [agree.executions e.id owner] at held
  exact List.mem_filter.mpr ⟨List.mem_of_find?_eq_some held, parent⟩

/-- Both stores list the same executions of a workflow of the user. -/
theorem latest (agree : AgreeFor user m m') (tidy : m.Tidy) (tidy' : m'.Tidy)
    (own : m.workflowOwner? id = some user)
    : m.latest id = m'.latest id := by
  have own' : m'.workflowOwner? id = some user := (agree.owners id).symm.trans own
  refine Keyed.mergeSort_of_mem_iff ?_ ?_ ?_ Execution.latestUpTo_trans
    Execution.latestUpTo_total Execution.id_of_latestUpTo
  · exact tidy.executions.sublist (List.filter_sublist.map _)
  · exact tidy'.executions.sublist (List.filter_sublist.map _)
  · exact fun e => ⟨agree.mem_executions tidy own, agree.symm.mem_executions tidy' own'⟩

end AgreeFor

end Memory

end Harvest
