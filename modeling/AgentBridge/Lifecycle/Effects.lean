import AgentBridge.Lifecycle.Durable
import AgentBridge.Table.Relabel

/-!
# What a call of the lifecycle can do

One lemma per call that says under which checks it succeeds and which rows it writes. The byte
accounting is stated with two plain sums, `used` over the events and `control` over the
reservations of the snapshots: whenever the SQL of a backend computes the reservations at all, it
computes `control`.

* `step_cases` : **the four things a call can do**.
* `Tables.transition_ofLifecycle` : **a stored transition is one of the lifecycle** that the queued
  tasks are modelled with.
-/

namespace AgentBridge.Durable

open JsonText Except Bool

/-! ### Reservations -/

/-- The reservation a stored row stands for. -/
def Row.reserve (row : Row) : ℕ :=
  if row.terminal then 0
  else (parse row.raw).elim 0 fun f => if isWaiting f.state then 4096 else 8192

/-- The sum of all reservations. -/
def Tables.control (t : Tables) : ℕ := Table.sum (fun _ row => row.reserve) t.snapshots

theorem parse_of_jsonb {raw : List Char} {f : Fields} (h : jsonb raw = some f) :
    parse raw = some f := by
  simp only [jsonb, Option.bind_eq_bind, Option.bind_eq_some_iff] at h
  obtain ⟨g, hg, h⟩ := h
  split at h
  · cases h
    exact hg
  · cases h

theorem storedState_ok {b : Backend} {raw : List Char} {state : PyString}
    (h : storedState b raw = .ok state) : ∃ f, parse raw = some f ∧ f.state = state := by
  cases b with
  | sqlite =>
    simp only [storedState] at h
    split at h
    · cases h
      exact ⟨_, ‹_›, rfl⟩
    · cases h
  | postgres =>
    simp only [storedState] at h
    split at h
    · cases h
      exact ⟨_, parse_of_jsonb ‹_›, rfl⟩
    · cases h

theorem reserveSql_ok {b : Backend} {row : Row} {n : ℕ} (h : reserveSql b row = .ok n) :
    n = row.reserve := by
  unfold reserveSql at h
  unfold Row.reserve
  split at h
  case isTrue hterminal =>
    cases h
    rw [if_pos hterminal]
  case isFalse hterminal =>
    obtain ⟨state, hstate, hn⟩ := bind_eq_ok.mp h
    obtain ⟨f, hf, rfl⟩ := storedState_ok hstate
    rw [if_neg hterminal, hf]
    exact (pure_eq_ok.mp hn).symm

namespace Tables

variable {cfg : Config} {t t' : Tables} {key : Key} {raw : List Char}

variable {b : Backend} {n : ℕ}

theorem reserved_eq (h : t.reserved b = .ok n) : n = t.control := by
  obtain ⟨amounts, hamounts, hn⟩ := bind_eq_ok.mp h
  cases hn
  rw [mapM_eq_ok (fun e n hn => reserveSql_ok hn) hamounts]
  rfl

theorem usage_ok {x : ℕ × ℕ} (h : t.usage b = .ok x) :
    t.reserved b = .ok t.control ∧ x = (t.used, t.control) := by
  obtain ⟨reserved, hreserved, hx⟩ := bind_eq_ok.mp h
  have heq := reserved_eq hreserved
  subst heq
  exact ⟨hreserved, (pure_eq_ok.mp hx).symm⟩

theorem checkEventAppend_ok {d : ℤ} (h : t.checkEventAppend b raw d = .ok ()) :
    byteLength raw ≤ 4096 ∧ ((t.used + byteLength raw + t.control : ℕ) : ℤ) + d ≤ t.maxBytes := by
  obtain ⟨_, hsize, h⟩ := bind_eq_ok.mp h
  obtain ⟨x, hx, h⟩ := bind_eq_ok.mp h
  obtain ⟨-, rfl⟩ := usage_ok hx
  obtain ⟨cap, hcap, h⟩ := bind_eq_ok.mp h
  obtain ⟨-, -, ⟨⟩⟩ := bind_eq_ok.mp hcap
  rw [require_eq_ok, decide_eq_true_eq] at hsize h
  exact ⟨hsize, h⟩

theorem insertSnapshot_ok {row : Row} (h : t.insertSnapshot cfg key row = .ok t') :
    t' = { t with snapshots := t.snapshots.insert key row } := by
  obtain ⟨-, -, h⟩ := bind_eq_ok.mp h
  obtain ⟨-, -, h⟩ := bind_eq_ok.mp h
  obtain ⟨snapshots, hinsert, h⟩ := bind_eq_ok.mp h
  obtain ⟨-, rfl⟩ := Table.insertNew_eq_ok.mp hinsert
  exact (pure_eq_ok.mp h).symm

theorem insertEvent_ok (h : t.insertEvent cfg key n raw = .ok t') :
    t.events.lookup (key, n) = none ∧
      t' = { t with events := t.events.insert (key, n) raw } := by
  obtain ⟨-, -, h⟩ := bind_eq_ok.mp h
  obtain ⟨events, hinsert, h⟩ := bind_eq_ok.mp h
  obtain ⟨hnone, rfl⟩ := Table.insertNew_eq_ok.mp hinsert
  exact ⟨hnone, (pure_eq_ok.mp h).symm⟩

theorem current_ok {s : Snapshot} (h : t.current key = .ok s) :
    ∃ row, t.snapshots.lookup key = some row ∧ decode row.raw = .ok s := by
  unfold current at h
  split at h
  · cases h
  · exact ⟨_, ‹_›, h⟩

/-- Write the snapshot of a task together with its event. -/
def append (t : Tables) (key : Key) (sequence : ℕ) (row : Row) : Tables :=
  { t with snapshots := t.snapshots.insert key row
           events := t.events.insert (key, sequence) row.raw }

/-- What a successful `create` has checked and written. -/
structure Created (cfg : Config) (t : Tables) (owner : PyString) (task : TaskLifecycle)
    (t' : Tables) : Prop where
  submitted : task.1.state = .submitted
  zero : task.1.sequence = 0
  named : scope (owner, task.1.taskId) = .ok ()
  bound : bindKey cfg.backend (owner, task.1.taskId) = .ok ()
  fresh : t.snapshots.lookup (owner, task.1.taskId) = none
  history : t.historyCount < t.maxTasks
  active : t.active owner < cfg.maxActive
  bytes : t.used + byteLength (encode task.1) + t.control + 8192 ≤ t.maxBytes
  unlogged : t.events.lookup ((owner, task.1.taskId), 0) = none
  result : t' = t.append (owner, task.1.taskId) 0 ⟨encode task.1, false⟩

theorem create_ok {owner : PyString} {task : TaskLifecycle}
    (h : t.create cfg owner task = .ok t') : Created cfg t owner task t' := by
  obtain ⟨_, hnew, h⟩ := bind_eq_ok.mp h
  obtain ⟨_, hscope, h⟩ := bind_eq_ok.mp h
  obtain ⟨_, hbind, h⟩ := bind_eq_ok.mp h
  obtain ⟨_, hfresh, h⟩ := bind_eq_ok.mp h
  obtain ⟨cap, hcap, h⟩ := bind_eq_ok.mp h
  obtain ⟨_, hhistory, h⟩ := bind_eq_ok.mp h
  obtain ⟨_, hactive, h⟩ := bind_eq_ok.mp h
  obtain ⟨_, hbytes, h⟩ := bind_eq_ok.mp h
  obtain ⟨mid, hmid, h⟩ := bind_eq_ok.mp h
  obtain ⟨-, -, ⟨⟩⟩ := bind_eq_ok.mp hcap
  have hmid := insertSnapshot_ok hmid
  subst hmid
  obtain ⟨hunlogged, hresult⟩ := insertEvent_ok h
  simp only [require_eq_ok, and_eq_true, decide_eq_true_eq] at hnew hhistory hactive
  obtain ⟨-, hbytes⟩ := checkEventAppend_ok hbytes
  rw [hnew.1, show eventReserve .submitted = 8192 by decide] at hbytes
  exact
    { submitted := hnew.1
      zero := hnew.2
      named := hscope
      bound := hbind
      fresh := Option.isNone_iff_eq_none.mp (require_eq_ok.mp hfresh)
      history := hhistory
      active := hactive
      bytes := by omega
      unlogged := hunlogged
      result := hresult }

/-- What a successful `transition` has checked and written. -/
structure Moved (cfg : Config) (t : Tables) (key : Key) (newState : TaskState)
    (expectedSequence : ℤ) (updated : Snapshot) (t' : Tables) : Prop where
  current : ∃ row cur, t.snapshots.lookup key = some row ∧ decode row.raw = .ok cur ∧
    (cur.sequence : ℤ) = expectedSequence ∧
    cur.transition newState (cur.sequence + 1) = .ok updated ∧
    ((t.used + byteLength (encode updated) + t.control : ℕ) : ℤ) +
      ((eventReserve updated.state : ℤ) - eventReserve cur.state) ≤ t.maxBytes
  room : t.hasRoom cfg key updated = true
  unlogged : t.events.lookup (key, updated.sequence) = none
  result : t' = t.append key updated.sequence ⟨encode updated, updated.isTerminal⟩

theorem transition_ok {newState : TaskState} {e : ℤ} {updated : Snapshot}
    (h : t.transition cfg key newState e = .ok (updated, t')) :
    Moved cfg t key newState e updated t' := by
  obtain ⟨-, -, h⟩ := bind_eq_ok.mp h
  obtain ⟨-, -, h⟩ := bind_eq_ok.mp h
  obtain ⟨-, -, h⟩ := bind_eq_ok.mp h
  obtain ⟨cur, hcur, h⟩ := bind_eq_ok.mp h
  obtain ⟨_, hseq, h⟩ := bind_eq_ok.mp h
  obtain ⟨next, hnext, h⟩ := bind_eq_ok.mp h
  obtain ⟨_, hroom, h⟩ := bind_eq_ok.mp h
  obtain ⟨_, hbytes, h⟩ := bind_eq_ok.mp h
  obtain ⟨mid, hmid, h⟩ := bind_eq_ok.mp h
  cases h
  obtain ⟨row, hrow, hdecode⟩ := current_ok hcur
  obtain ⟨hunlogged, rfl⟩ := insertEvent_ok hmid
  obtain ⟨-, hbytes⟩ := checkEventAppend_ok hbytes
  rw [require_eq_ok, decide_eq_true_eq] at hseq
  exact
    { current := ⟨row, cur, hrow, hdecode, hseq, hnext, hbytes⟩
      room := require_eq_ok.mp hroom
      unlogged := hunlogged
      result := rfl }

theorem setHistoryCapacity_ok (h : t.setHistoryCapacity n = .ok t') :
    1 ≤ n ∧ n ≤ 1000000 ∧ t.historyCount ≤ n ∧ t' = { t with maxTasks := n } := by
  simp only [setHistoryCapacity, bind_eq_ok, require_eq_ok, and_eq_true,
    decide_eq_true_eq, pure_eq_ok] at h
  obtain ⟨-, hrange, -, -, -, hcount, rfl⟩ := h
  exact ⟨hrange.1, hrange.2, hcount, rfl⟩

theorem setEventCapacity_ok (h : t.setEventCapacity b n = .ok t') :
    4096 ≤ n ∧ n ≤ 1073741824 ∧ t.used + t.control ≤ n ∧ t' = { t with maxBytes := n } := by
  obtain ⟨_, hrange, h⟩ := bind_eq_ok.mp h
  obtain ⟨-, -, h⟩ := bind_eq_ok.mp h
  obtain ⟨x, hx, h⟩ := bind_eq_ok.mp h
  obtain ⟨-, rfl⟩ := usage_ok hx
  obtain ⟨_, hroom, h⟩ := bind_eq_ok.mp h
  cases h
  simp only [require_eq_ok, and_eq_true, decide_eq_true_eq] at hrange hroom
  exact ⟨hrange.1, hrange.2, hroom, rfl⟩

end Tables

/-- **The four things a call can do**: create a task, move one, or set one of the policies. -/
theorem step_cases {cfg : Config} {w w' : World} {a : Action} (h : exec cfg w a = .ok w') :
    (∃ owner task, a = .create owner task ∧ Tables.Created cfg w.tables owner task w'.tables ∧
      w'.accepted = w.accepted) ∨
    (∃ key newState e updated,
      (a = .transition key newState e ∨ (a = .cancel key e ∧ newState = .canceled)) ∧
      Tables.Moved cfg w.tables key newState e updated w'.tables ∧
      w'.accepted = w.accepted ++ [(key, e)]) ∨
    (∃ n, a = .setHistoryCapacity n ∧ 1 ≤ n ∧ n ≤ 1000000 ∧ w.tables.historyCount ≤ n ∧
      w' = { w with tables := { w.tables with maxTasks := n } }) ∨
    (∃ n, a = .setEventCapacity n ∧ 4096 ≤ n ∧ n ≤ 1073741824 ∧
      w.tables.used + w.tables.control ≤ n ∧
      w' = { w with tables := { w.tables with maxBytes := n } }) := by
  cases a with
  | create owner task =>
    obtain ⟨t, ht, h⟩ := bind_eq_ok.mp h
    cases h
    exact .inl ⟨owner, task, rfl, Tables.create_ok ht, rfl⟩
  | transition key newState e =>
    obtain ⟨⟨updated, t⟩, ht, h⟩ := bind_eq_ok.mp h
    cases h
    exact .inr (.inl ⟨key, newState, e, updated, .inl rfl, Tables.transition_ok ht, rfl⟩)
  | cancel key e =>
    obtain ⟨⟨updated, t⟩, ht, h⟩ := bind_eq_ok.mp h
    cases h
    exact .inr (.inl ⟨key, _, e, updated, .inr ⟨rfl, rfl⟩, Tables.transition_ok ht, rfl⟩)
  | setHistoryCapacity n =>
    obtain ⟨t, ht, h⟩ := bind_eq_ok.mp h
    cases h
    obtain ⟨hpos, hle, hcount, rfl⟩ := Tables.setHistoryCapacity_ok ht
    exact .inr (.inr (.inl ⟨n, rfl, hpos, hle, hcount, rfl⟩))
  | setEventCapacity n =>
    obtain ⟨t, ht, h⟩ := bind_eq_ok.mp h
    cases h
    obtain ⟨hpos, hle, hroom, rfl⟩ := Tables.setEventCapacity_ok ht
    exact .inr (.inr (.inr ⟨n, rfl, hpos, hle, hroom, rfl⟩))

/-! ### Tasks with plain names -/

/-- The fields of a task with plain names. -/
def Snapshot.ofTask (task : Task) : Snapshot where
  taskId := .ofString task.taskId
  contextId := .ofString task.contextId
  sourceProtocol := .ofString task.sourceProtocol
  state := task.state
  sequence := task.sequence

theorem decode_ofTask {task : Task} {s : Snapshot} (h : decode (encode (.ofTask task)) = .ok s) :
    s = .ofTask task := by
  simp only [decode, parse_encode, Snapshot.fields, stateOf?_stateText, bind_eq_ok, pure_eq_ok] at h
  obtain ⟨-, -, rfl⟩ := h
  simp only [Snapshot.ofTask, PyString.norm_of_isEncodable (PyString.isEncodable_ofString _)]

def keyOf : TaskKey ↪ Key where
  toFun key := (.ofString key.1, .ofString key.2)
  inj' := by
    rintro ⟨a, b⟩ ⟨a', b'⟩ h
    simpa [PyString.ofString_inj] using h

theorem fst_keyOf (key : TaskKey) : (keyOf key).1 = .ofString key.1 := rfl

def eventOf : TaskKey × ℕ ↪ Key × ℕ := keyOf.prodMap (.refl ℕ)

/-- The row of a task. -/
def Row.ofTask (task : Task) : Row := ⟨encode (.ofTask task), task.isTerminal⟩

/-- The tables that hold the tasks of a lifecycle. -/
def Tables.ofLifecycle (l : Lifecycle) (maxBytes : ℕ) : Tables where
  snapshots := l.snapshots.relabel keyOf .ofTask
  events := l.events.relabel eventOf fun task => encode (.ofTask task)
  maxTasks := l.maxTasks
  maxBytes := maxBytes

namespace Tables

variable {cfg : Config} {t' : Tables} {l : Lifecycle} {maxBytes : ℕ}

theorem eventCount_ofLifecycle (key : TaskKey) :
    (ofLifecycle l maxBytes).eventCount (keyOf key) = l.eventCount key := by
  rw [eventCount, ofLifecycle, Table.entries_relabel, List.countP_map, Lifecycle.eventCount,
    ← List.countP_eq_length_filter]
  exact List.countP_congr fun e _ => by
    simp [Table.relabelEntry, eventOf, keyOf.injective.eq_iff]

theorem active_ofLifecycle (owner : String) :
    (ofLifecycle l maxBytes).active (.ofString owner) = l.active owner := by
  rw [active, ofLifecycle, Table.entries_relabel, List.countP_map, Lifecycle.active,
    ← List.countP_eq_length_filter]
  exact List.countP_congr fun e _ => by
    simp [Table.relabelEntry, fst_keyOf, Row.ofTask, PyString.ofString_inj]

/-- Rows are written alike. -/
theorem write_ofLifecycle (key : TaskKey) (task : Task)
    (hnew : (ofLifecycle l maxBytes).events.lookup (keyOf key, task.sequence) = none) :
    ∃ l', l.write key task = .ok l' ∧
      (ofLifecycle l maxBytes).append (keyOf key) task.sequence (.ofTask task) =
        ofLifecycle l' maxBytes := by
  have hnone : (l.events.lookup (key, task.sequence)).map (fun task => encode (.ofTask task)) =
      none :=
    (Table.lookup_relabel eventOf _ l.events (key, task.sequence)).symm.trans hnew
  refine ⟨_, Lifecycle.write_eq_ok.mpr ⟨Option.map_eq_none_iff.mp hnone, rfl⟩, ?_⟩
  simp only [ofLifecycle, append, Table.relabel_insert]
  rfl

/-- **A stored creation is one of the lifecycle.** -/
theorem create_ofLifecycle (hactive : l.maxActive = cfg.maxActive) {owner : String} {task : Task}
    (hcheck : (Snapshot.ofTask task).check = .ok ())
    (h : (ofLifecycle l maxBytes).create cfg (.ofString owner) ⟨.ofTask task, hcheck⟩ = .ok t') :
    ∃ l', l.create owner task = .ok l' ∧ t' = ofLifecycle l' maxBytes := by
  obtain ⟨hstate, hzero, -, -, hfresh, hhistory, hroom, -, hunlogged, rfl⟩ := create_ok h
  have hstate : task.state = .submitted := hstate
  have hzero : task.sequence = 0 := hzero
  have hfresh : (l.snapshots.lookup (owner, task.taskId)).map Row.ofTask = none :=
    (Table.lookup_relabel keyOf _ l.snapshots (owner, task.taskId)).symm.trans hfresh
  rw [historyCount, ofLifecycle, Table.size_relabel] at hhistory
  rw [active_ofLifecycle, ← hactive] at hroom
  obtain ⟨l', hwrite, happend⟩ := write_ofLifecycle (owner, task.taskId) task
    (by rw [hzero]; exact hunlogged)
  refine ⟨l', ?_, ?_⟩
  · simp only [Lifecycle.create, bind_eq_ok, require_eq_ok, and_eq_true, beq_iff_eq,
      decide_eq_true_eq, Option.isNone_iff_eq_none]
    exact ⟨(), ⟨hstate, hzero⟩, (), Option.map_eq_none_iff.mp hfresh, (), hhistory, (), hroom,
      hwrite⟩
  · rw [← happend, hzero, Row.ofTask, Task.isTerminal, hstate]
    rfl

/-- **A stored transition is one of the lifecycle.** -/
theorem transition_ofLifecycle (hevents : l.maxEvents = cfg.maxEvents) {key : TaskKey}
    {newState : TaskState} {n : ℕ} {updated : Snapshot}
    (h : (ofLifecycle l maxBytes).transition cfg (keyOf key) newState n = .ok (updated, t')) :
    ∃ task l', l.transition key newState n = .ok (task, l') ∧ updated = .ofTask task ∧
      t' = ofLifecycle l' maxBytes := by
  obtain ⟨_, -, hrest⟩ := bind_eq_ok.mp h
  obtain ⟨_, hrange, -⟩ := bind_eq_ok.mp hrest
  simp only [require_eq_ok, decide_eq_true_eq] at hrange
  obtain ⟨⟨row, current, hrow, hdecode, hsequence, hlegal, -⟩, hroom, hunlogged, rfl⟩ :=
    transition_ok h
  rw [ofLifecycle, Table.lookup_relabel, Option.map_eq_some_iff] at hrow
  obtain ⟨task, htask, rfl⟩ := hrow
  cases decode_ofTask hdecode
  simp only [Snapshot.transition, bind_eq_ok, require_eq_ok, pure_eq_ok] at hlegal
  obtain ⟨-, -, -, hmem, rfl⟩ := hlegal
  let next : Task := { task with state := newState, sequence := task.sequence + 1 }
  rw [hasRoom, eventCount_ofLifecycle, ← hevents] at hroom
  obtain ⟨l', hwrite, happend⟩ := write_ofLifecycle key next hunlogged
  refine ⟨next, l', ?_, rfl, happend⟩
  simp only [Lifecycle.transition, bind_eq_ok, require_eq_ok, beq_iff_eq, decide_eq_true_eq,
    Lifecycle.get_eq_ok, pure_eq_ok]
  exact ⟨(), by omega, task, htask, (), by exact_mod_cast hsequence, next,
    Task.transition_eq_ok.mpr ⟨Nat.lt_succ_self _, List.contains_iff_mem.mp hmem, rfl⟩, (), hroom,
    l', hwrite, rfl⟩

end Tables

end AgentBridge.Durable
