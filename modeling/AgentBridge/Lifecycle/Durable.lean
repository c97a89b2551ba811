import AgentBridge.LTS.Basic
import AgentBridge.Lifecycle.Codec

/-!
# The durable task lifecycle

`DurableTaskLifecycle` on one store: snapshots and events as stored text, the history and the
event-byte policy, and the triggers of a tenant's store. Every call is one transaction under one
lock (`BEGIN IMMEDIATE`, or advisory lock 911006), so a call is one step and a call that raises
changes nothing.

Every write recomputes the bytes of all events and the reservations of all tasks in SQL. On
PostgreSQL the state of a task is read through `snapshot::jsonb`, a cast that can fail.
-/

namespace AgentBridge.Durable

open JsonText

/-- The settings of all workers on one store. -/
structure Config where
  backend : Backend
  /-- The store is bound to a tenant and has its triggers. -/
  tenant : Bool
  maxActive : ℕ
  maxEvents : ℕ
  maxActive_bounds : 1 ≤ maxActive ∧ maxActive ≤ 10000
  maxEvents_bounds : 3 ≤ maxEvents ∧ maxEvents ≤ 10000

/-- Owner and task id. -/
abbrev Key := PyString × PyString

/-- A row of `task_lifecycle_snapshots`. -/
structure Row where
  raw : List Char
  terminal : Bool
  deriving DecidableEq

structure Tables where
  snapshots : Table Key Row := ∅
  events : Table (Key × ℕ) (List Char) := ∅
  /-- `task_lifecycle_history_policy_v1`. -/
  maxTasks : ℕ := 10000
  /-- `task_lifecycle_event_policy_v1`. -/
  maxBytes : ℕ := 67108864

/-- Bind a string as a parameter of type `TEXT`. -/
def bindText (b : Backend) (s : PyString) : Except LifecycleFault Unit := do
  require s.isEncodable (.database "surrogates not allowed")
  require (b == .sqlite || !s.codes.contains 0) (.database "text cannot contain NUL")

/-- `_scope`. -/
def scope (key : Key) : Except LifecycleFault Unit := do
  require key.1.isIdentifier
    (.rejected "authenticated owner_id must be a bounded nonempty identifier")
  require key.2.isIdentifier (.rejected "task_id must be a bounded nonempty identifier")

/-- `_event_reserve`. -/
def eventReserve (state : TaskState) : ℕ :=
  if state.isTerminal then 0
  else if state = .inputRequired ∨ state = .authRequired then 4096 else 8192

/-- The state column of the stored text, in the SQL of the backend. -/
def storedState (b : Backend) (raw : List Char) : Except LifecycleFault PyString :=
  match b with
  | .sqlite =>
    match parse raw with
    | some f => .ok f.state
    | none => .error (.database "malformed JSON")
  | .postgres =>
    match jsonb raw with
    | some f => .ok f.state
    | none => .error (.database "unsupported Unicode escape sequence")

/-- `state IN ('input-required','auth-required')`. -/
def isWaiting (state : PyString) : Bool :=
  state = .ofString "input-required" || state = .ofString "auth-required"

/-- `_reserve_sql`. -/
def reserveSql (b : Backend) (row : Row) : Except LifecycleFault ℕ :=
  if row.terminal then .ok 0
  else do
    let state ← storedState b row.raw
    return if isWaiting state then 4096 else 8192

namespace Tables

variable (t : Tables)

/-- The bytes of all events. -/
def used : ℕ := Table.sum (fun _ raw => byteLength raw) t.events

/-- The reservations of all tasks. -/
def reserved (b : Backend) : Except LifecycleFault ℕ := do
  let amounts ← t.snapshots.entries.mapM fun e => reserveSql b e.2
  return amounts.sum

/-- `_event_usage`. -/
def usage (b : Backend) : Except LifecycleFault (ℕ × ℕ) := do
  let reserved ← t.reserved b
  return (t.used, reserved)

/-- `_history_count`. -/
def historyCount : ℕ := Table.size t.snapshots

/-- `_history_policy`. -/
def historyPolicy : Except LifecycleFault ℕ := do
  require (1 ≤ t.maxTasks && t.maxTasks ≤ 1000000)
    (.capacity "missing or unsupported historical-task capacity policy")
  return t.maxTasks

/-- `_event_policy`. -/
def eventPolicy : Except LifecycleFault ℕ := do
  require (4096 ≤ t.maxBytes && t.maxBytes ≤ 1073741824)
    (.capacity "missing or unsupported event-byte capacity policy")
  return t.maxBytes

/-- The owner's rows with `terminal=0`. -/
def active (owner : PyString) : ℕ :=
  t.snapshots.entries.countP fun e => e.1.1 = owner && !e.2.terminal

/-- The number of events of a task. -/
def eventCount (key : Key) : ℕ := t.events.entries.countP fun e => e.1.1 = key

/-- `_check_event_append`. -/
def checkEventAppend (b : Backend) (raw : List Char) (reserveDelta : ℤ) :
    Except LifecycleFault Unit := do
  require (byteLength raw ≤ 4096)
    (.rejected "canonical task event exceeds reserved terminal payload bound")
  let (used, reserved) ← t.usage b
  let cap ← t.eventPolicy
  require (decide ((used + byteLength raw + reserved : ℕ) + reserveDelta ≤ (cap : ℤ)))
    (.capacity "event-byte capacity reached; recovery and terminal capacity are reserved")

/-- `agentbridge_task_history_capacity_v1`, the history trigger of a tenant. -/
def historyTrigger (cfg : Config) : Except LifecycleFault Unit :=
  if cfg.tenant then
    match cfg.backend with
    | .sqlite =>
      require (1 ≤ t.maxTasks && decide (t.historyCount < t.maxTasks))
        (.database "historical-task capacity reached or policy unavailable")
    | .postgres => do
      require (1 ≤ t.maxTasks && t.maxTasks ≤ 1000000)
        (.database "historical-task capacity policy unavailable")
      require (decide (t.historyCount < t.maxTasks)) (.database "historical-task capacity reached")
  else .ok ()

/-- The event-byte triggers of a tenant; `adjustment` is how the new row changes the
reservations. -/
def byteTrigger (cfg : Config) (raw : List Char) (adjustment : Except LifecycleFault ℤ) :
    Except LifecycleFault Unit :=
  if cfg.tenant then
    match cfg.backend with
    | .sqlite => do
      let (used, reserved) ← t.usage .sqlite
      let change ← adjustment
      require (4096 ≤ t.maxBytes && byteLength raw ≤ 4096 &&
          decide ((used + reserved + byteLength raw : ℕ) + change ≤ (t.maxBytes : ℤ)))
        (.database "event-byte capacity reached or policy unavailable")
    | .postgres => do
      require (4096 ≤ t.maxBytes && t.maxBytes ≤ 1073741824)
        (.database "event-byte capacity policy unavailable")
      let (used, reserved) ← t.usage .postgres
      let change ← adjustment
      require (byteLength raw ≤ 4096 &&
          decide ((used + reserved + byteLength raw : ℕ) + change ≤ (t.maxBytes : ℤ)))
        (.database "event-byte capacity reached")
  else .ok ()

/-- The reservation after an event, in the SQL of the trigger. -/
def reserveAfter (b : Backend) (raw : List Char) : Except LifecycleFault ℕ := do
  let state ← storedState b raw
  return if [.completed, .failed, .canceled, .rejected].any fun s => state = .ofString (stateText s)
    then 0 else if isWaiting state then 4096 else 8192

/-- The reservation before an event, zero for a task without a row. -/
def reservePrior (b : Backend) (key : Key) : Except LifecycleFault ℕ :=
  match t.snapshots.lookup key with
  | none => .ok 0
  | some row => reserveSql b row

/-- How a new snapshot changes the reservations. -/
def snapshotAdjustment (b : Backend) (row : Row) : Except LifecycleFault ℤ := do
  let own ← reserveSql b row
  return own

/-- How a new event changes the reservations. -/
def eventAdjustment (b : Backend) (key : Key) (raw : List Char) : Except LifecycleFault ℤ := do
  let after ← reserveAfter b raw
  let prior ← t.reservePrior b key
  return (after : ℤ) - prior

/-- `INSERT INTO task_lifecycle_snapshots`. -/
def insertSnapshot (cfg : Config) (key : Key) (row : Row) : Except LifecycleFault Tables := do
  -- PostgreSQL fires triggers in the order of their names
  t.byteTrigger cfg row.raw (snapshotAdjustment cfg.backend row)
  t.historyTrigger cfg
  let snapshots ← t.snapshots.insertNew key row (.database "task_lifecycle_snapshots")
  return { t with snapshots }

/-- `INSERT INTO task_lifecycle_events`. -/
def insertEvent (cfg : Config) (key : Key) (sequence : ℕ) (raw : List Char) :
    Except LifecycleFault Tables := do
  t.byteTrigger cfg raw (t.eventAdjustment cfg.backend key raw)
  let events ← t.events.insertNew (key, sequence) raw (.database "task_lifecycle_events")
  return { t with events }

/-- `_get`. -/
def current (key : Key) : Except LifecycleFault Snapshot :=
  match t.snapshots.lookup key with
  | none => .error (.rejected "task unavailable for authenticated owner")
  | some row => decode row.raw

/-- The two parameters that every query binds. -/
def bindKey (b : Backend) (key : Key) : Except LifecycleFault Unit := do
  bindText b key.1
  bindText b key.2

/-- `create`. -/
def create (cfg : Config) (owner : PyString) (task : TaskLifecycle) :
    Except LifecycleFault Tables := do
  require (task.1.state = .submitted && task.1.sequence = 0)
    (.rejected "new task must start submitted at sequence zero")
  let key : Key := (owner, task.1.taskId)
  scope key
  bindKey cfg.backend key
  require (t.snapshots.lookup key).isNone
    (.rejected "task identity already exists; no replay or replacement")
  let cap ← t.historyPolicy
  require (decide (t.historyCount < cap))
    (.capacity "historical-task capacity reached; reviewed capacity increase required")
  require (decide (t.active owner < cfg.maxActive))
    (.capacity "active-task capacity reached; retry after terminal status")
  let raw := encode task.1
  t.checkEventAppend cfg.backend raw (eventReserve task.1.state)
  let t ← t.insertSnapshot cfg key ⟨raw, false⟩
  t.insertEvent cfg key 0 raw

/-- `get`. -/
def get (cfg : Config) (key : Key) : Except LifecycleFault Snapshot := do
  scope key
  bindKey cfg.backend key
  t.current key

/-- The event slots: the last one is kept for a terminal event. -/
def hasRoom (cfg : Config) (key : Key) (updated : Snapshot) : Bool :=
  decide (t.eventCount key < cfg.maxEvents) &&
    (updated.isTerminal || decide (t.eventCount key < cfg.maxEvents - 1))

/-- `transition`. -/
def transition (cfg : Config) (key : Key) (newState : TaskState) (expectedSequence : ℤ) :
    Except LifecycleFault (Snapshot × Tables) := do
  scope key
  require (decide (0 ≤ expectedSequence ∧ expectedSequence < 2 ^ 63 - 1))
    (.rejected "invalid expected lifecycle sequence")
  bindKey cfg.backend key
  let current ← t.current key
  require (current.sequence = expectedSequence)
    (.rejected "stale lifecycle sequence; reload before updating")
  let updated ← current.transition newState (current.sequence + 1)
  require (t.hasRoom cfg key updated)
    (.capacity "task event capacity reached; terminal update required")
  let raw := encode updated
  t.checkEventAppend cfg.backend raw
    ((eventReserve updated.state : ℤ) - eventReserve current.state)
  let t ← t.insertEvent cfg key updated.sequence raw
  return (updated, { t with snapshots := t.snapshots.insert key ⟨raw, updated.isTerminal⟩ })

/-- `cancel`. -/
def cancel (cfg : Config) (key : Key) (expectedSequence : ℤ) :
    Except LifecycleFault (Snapshot × Tables) :=
  t.transition cfg key .canceled expectedSequence

/-- `events`: one page of the history, in order. -/
def eventPage (cfg : Config) (key : Key) (afterSequence : ℤ) (limit : ℕ) :
    Except LifecycleFault (List Snapshot) := do
  scope key
  require (decide (-1 ≤ afterSequence ∧ afterSequence < 2 ^ 63)) (.rejected "invalid recovery cursor")
  require (1 ≤ limit && limit ≤ 100) (.rejected "event page limit must be in [1,100]")
  bindKey cfg.backend key
  let current ← t.current key
  require (decide (afterSequence ≤ current.sequence))
    (.rejected "recovery cursor is ahead of durable history")
  let rows := t.events.entries.filter fun e => e.1.1 = key && decide (afterSequence < e.1.2)
  let ordered := rows.insertionSort fun e e' => e.1.2 ≤ e'.1.2
  (ordered.take limit).mapM fun e => decode e.2

/-- `set_history_capacity`. -/
def setHistoryCapacity (maxTasks : ℕ) : Except LifecycleFault Tables := do
  require (1 ≤ maxTasks && maxTasks ≤ 1000000)
    (.rejected "bounded historical-task capacity required")
  let _ ← t.historyPolicy
  require (decide (t.historyCount ≤ maxTasks))
    (.capacity "capacity cannot discard retained task history")
  return { t with maxTasks }

/-- `set_event_capacity`. -/
def setEventCapacity (b : Backend) (maxBytes : ℕ) : Except LifecycleFault Tables := do
  require (4096 ≤ maxBytes && maxBytes ≤ 1073741824)
    (.rejected "event-byte limit must be an integer in [4096,1073741824]")
  let _ ← t.eventPolicy
  let (used, reserved) ← t.usage b
  require (decide (used + reserved ≤ maxBytes))
    (.capacity "event-byte capacity cannot discard history or control reservations")
  return { t with maxBytes }

end Tables

/-! ### The transition system -/

/-- The tables, and the transitions that succeeded so far. -/
structure World where
  tables : Tables
  /-- Task and expected sequence of every successful transition, in order. -/
  accepted : List (Key × ℤ) := []

/-- One call that writes. -/
inductive Action
  | create (owner : PyString) (task : TaskLifecycle)
  | transition (key : Key) (newState : TaskState) (expectedSequence : ℤ)
  | cancel (key : Key) (expectedSequence : ℤ)
  | setHistoryCapacity (maxTasks : ℕ)
  | setEventCapacity (maxBytes : ℕ)

/-- The effect of one call. -/
def exec (cfg : Config) (w : World) : Action → Except LifecycleFault World
  | .create owner task => do
    let tables ← w.tables.create cfg owner task
    return { w with tables }
  | .transition key newState expectedSequence => do
    let (_, tables) ← w.tables.transition cfg key newState expectedSequence
    return { tables, accepted := w.accepted ++ [(key, expectedSequence)] }
  | .cancel key expectedSequence => do
    let (_, tables) ← w.tables.cancel cfg key expectedSequence
    return { tables, accepted := w.accepted ++ [(key, expectedSequence)] }
  | .setHistoryCapacity maxTasks => do
    let tables ← w.tables.setHistoryCapacity maxTasks
    return { w with tables }
  | .setEventCapacity maxBytes => do
    let tables ← w.tables.setEventCapacity cfg.backend maxBytes
    return { w with tables }

/-- The lifecycle as a transition system. -/
def system (cfg : Config) : LTS World Action := .ofExec (exec cfg)

/-- A store after its first worker has set it up. -/
def World.initial (maxBytes : ℕ) : World := { tables := { maxBytes } }

end AgentBridge.Durable
