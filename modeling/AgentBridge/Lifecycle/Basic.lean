import AgentBridge.Basic
import AgentBridge.Table.Sum

/-!
# The task lifecycle

A task has a state and an event sequence. It is created once, in state `submitted` at sequence
zero, and every transition appends the event with the next sequence number. A terminal state
has no successor, so a finished task stays as it is.
-/

namespace AgentBridge

open Except

inductive TaskState
  | submitted
  | working
  | inputRequired
  | authRequired
  | completed
  | failed
  | canceled
  | rejected
  deriving DecidableEq, Repr

/-- `_TERMINAL`. -/
def TaskState.isTerminal : TaskState → Bool
  | .completed | .failed | .canceled | .rejected => true
  | .submitted | .working | .inputRequired | .authRequired => false

/-- `_TRANSITIONS`. -/
def TaskState.successors : TaskState → List TaskState
  | .submitted => [.working, .inputRequired, .authRequired, .failed, .canceled, .rejected]
  | .working => [.inputRequired, .authRequired, .completed, .failed, .canceled, .rejected]
  | .inputRequired => [.working, .canceled, .failed]
  | .authRequired => [.working, .canceled, .rejected, .failed]
  | .completed | .failed | .canceled | .rejected => []

/-- `TaskLifecycle`: one snapshot of a task. -/
structure Task where
  taskId : String
  contextId : String
  sourceProtocol : String
  state : TaskState := .submitted
  sequence : ℕ := 0
  deriving DecidableEq, Repr

namespace Task

/-- `_identifier` of the lifecycle. -/
def isIdentifier (value : String) : Bool :=
  1 ≤ value.length && value.length ≤ 128 && isStripped value

/-- The checked constructor of a new task. -/
def submit (taskId contextId sourceProtocol : String) : Except Fault Task := do
  require (isIdentifier taskId) (.valueError "task_id must be a bounded nonempty identifier")
  require (isIdentifier contextId) (.valueError "context_id must be a bounded nonempty identifier")
  require (sourceProtocol == "a2a" || sourceProtocol == "agentbridge")
    (.valueError "only reviewed A2A and native task provenance is supported")
  return { taskId, contextId, sourceProtocol }

/-- `TaskLifecycle.terminal`. -/
def isTerminal (t : Task) : Bool := t.state.isTerminal

/-- `TaskLifecycle.transition`. -/
def transition (t : Task) (newState : TaskState) (sequence : ℕ) : Except Fault Task := do
  require (decide (t.sequence < sequence))
    (.valueError "stale or replayed lifecycle event sequence")
  require (t.state.successors.contains newState)
    (.valueError "illegal or terminal task lifecycle transition")
  return { t with state := newState, sequence }

end Task

/-- Owner and task id. -/
abbrev TaskKey := String × String

/-- `DurableTaskLifecycle`: the snapshots and events of one store, with its capacities. -/
structure Lifecycle where
  snapshots : Table TaskKey Task := ∅
  events : Table (TaskKey × ℕ) Task := ∅
  maxTasks : ℕ := 10000
  maxActive : ℕ := 128
  maxEvents : ℕ := 1024

namespace Lifecycle

variable (l : Lifecycle)

/-- The owner's tasks that are not terminal. -/
def active (ownerId : String) : ℕ :=
  (l.snapshots.entries.filter fun e => e.1.1 == ownerId && !e.2.isTerminal).length

/-- The number of events of a task. -/
def eventCount (key : TaskKey) : ℕ := (l.events.entries.filter fun e => e.1.1 == key).length

def write (key : TaskKey) (task : Task) : Except Fault Lifecycle := do
  let events ← l.events.insertNew (key, task.sequence) task
    (.integrityError "task_lifecycle_events")
  return { l with snapshots := l.snapshots.insert key task, events }

/-- `create`. -/
def create (ownerId : String) (task : Task) : Except Fault Lifecycle := do
  require (task.state == .submitted && task.sequence == 0)
    (.valueError "new task must start submitted at sequence zero")
  require (l.snapshots.lookup (ownerId, task.taskId)).isNone
    (.valueError "task identity already exists; no replay or replacement")
  require (decide (Table.size l.snapshots < l.maxTasks))
    (.valueError "historical-task capacity reached; reviewed capacity increase required")
  require (decide (l.active ownerId < l.maxActive))
    (.valueError "active-task capacity reached; retry after terminal status")
  l.write (ownerId, task.taskId) task

/-- `get`. -/
def get (key : TaskKey) : Except Fault Task :=
  match l.snapshots.lookup key with
  | some task => .ok task
  | none => .error (.valueError "task unavailable for authenticated owner")

/-- The capacity check of a transition: the last event slot is kept for a terminal one. -/
def hasRoom (key : TaskKey) (updated : Task) : Bool :=
  decide (l.eventCount key < l.maxEvents) &&
    (updated.isTerminal || decide (l.eventCount key < l.maxEvents - 1))

/-- `transition`. -/
def transition (key : TaskKey) (newState : TaskState) (expectedSequence : ℕ) :
    Except Fault (Task × Lifecycle) := do
  require (decide (expectedSequence < 2 ^ 63 - 1))
    (.valueError "invalid expected lifecycle sequence")
  let current ← l.get key
  require (current.sequence == expectedSequence)
    (.valueError "stale lifecycle sequence; reload before updating")
  let updated ← current.transition newState (current.sequence + 1)
  require (l.hasRoom key updated)
    (.valueError "task event capacity reached; terminal update required")
  let l' ← l.write key updated
  return (updated, l')

end Lifecycle

/-! ### What the statements establish -/

theorem Task.transition_eq_ok {t t' : Task} {newState : TaskState} {sequence : ℕ} :
    t.transition newState sequence = .ok t' ↔
      t.sequence < sequence ∧ newState ∈ t.state.successors ∧
        t' = { t with state := newState, sequence } := by
  simp only [transition, bind_eq_ok, require_eq_ok, decide_eq_true_eq,
    List.contains_iff_mem, pure_eq_ok]
  constructor
  · rintro ⟨-, hlt, -, hmem, rfl⟩
    exact ⟨hlt, hmem, rfl⟩
  · rintro ⟨hlt, hmem, rfl⟩
    exact ⟨⟨⟩, hlt, ⟨⟩, hmem, rfl⟩

theorem Task.not_isTerminal_of_transition {t t' : Task} {newState : TaskState} {sequence : ℕ}
    (h : t.transition newState sequence = .ok t') : t.isTerminal = false := by
  obtain ⟨-, hmem, -⟩ := transition_eq_ok.mp h
  unfold isTerminal
  cases hs : t.state with
  | submitted | working | inputRequired | authRequired => rfl
  | completed | failed | canceled | rejected => simp [hs, TaskState.successors] at hmem

namespace Lifecycle

variable {l l' : Lifecycle} {key : TaskKey}

variable {task : Task}

theorem write_eq_ok :
    l.write key task = .ok l' ↔ l.events.lookup (key, task.sequence) = none ∧
      l' = { l with
        snapshots := l.snapshots.insert key task
        events := l.events.insert (key, task.sequence) task } := by
  simp only [write, bind_eq_ok, Table.insertNew_eq_ok, pure_eq_ok]
  constructor
  · rintro ⟨_, ⟨hnone, rfl⟩, rfl⟩
    exact ⟨hnone, rfl⟩
  · rintro ⟨hnone, rfl⟩
    exact ⟨_, ⟨hnone, rfl⟩, rfl⟩

theorem get_eq_ok : l.get key = .ok task ↔ l.snapshots.lookup key = some task := by
  unfold get
  cases l.snapshots.lookup key <;> simp

/-- What a creation found and did. -/
structure CreateOk (l : Lifecycle) (key : TaskKey) (task : Task) (l' : Lifecycle) : Prop where
  unused : l.snapshots.lookup key = none
  initial : task.state = .submitted ∧ task.sequence = 0
  snapshots : l'.snapshots = l.snapshots.insert key task
  events : l'.events = l.events.insert (key, 0) task

theorem CreateOk.of_create {ownerId : String} (h : l.create ownerId task = .ok l') :
    CreateOk l (ownerId, task.taskId) task l' := by
  simp only [create, bind_eq_ok, require_eq_ok, Bool.and_eq_true, beq_iff_eq,
    Option.isNone_iff_eq_none, write_eq_ok] at h
  obtain ⟨-, hinitial, -, hnone, -, -, -, -, -, rfl⟩ := h
  exact ⟨hnone, hinitial, rfl, by rw [hinitial.2]⟩

/-- What a transition found and did. -/
structure TransitionOk (l : Lifecycle) (key : TaskKey) (newState : TaskState) (task : Task)
    (l' : Lifecycle) : Prop where
  current : ∃ t, l.snapshots.lookup key = some t ∧ t.isTerminal = false ∧
    task = { t with state := newState, sequence := t.sequence + 1 }
  snapshots : l'.snapshots = l.snapshots.insert key task
  events : l'.events = l.events.insert (key, task.sequence) task

theorem TransitionOk.of_transition {newState : TaskState} {expectedSequence : ℕ}
    (h : l.transition key newState expectedSequence = .ok (task, l')) :
    TransitionOk l key newState task l' ∧ task.sequence = expectedSequence + 1 := by
  simp only [transition, bind_eq_ok, get_eq_ok, require_eq_ok, beq_iff_eq, write_eq_ok,
    pure_eq_ok, Prod.mk.injEq] at h
  obtain ⟨-, -, t, ht, -, hseq, updated, hupdated, -, -, _, ⟨-, rfl⟩, rfl, rfl⟩ := h
  obtain ⟨-, -, rfl⟩ := Task.transition_eq_ok.mp hupdated
  have hopen := Task.not_isTerminal_of_transition hupdated
  exact ⟨⟨⟨t, ht, hopen, rfl⟩, rfl, rfl⟩, by rw [← hseq]⟩

end Lifecycle

end AgentBridge
