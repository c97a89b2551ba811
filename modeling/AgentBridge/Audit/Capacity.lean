import AgentBridge.Aggregate.Basic
import AgentBridge.Basic
import AgentBridge.Bytes.Basic
import AgentBridge.LTS.Basic
import AgentBridge.Table.Sum
import Mathlib.Algebra.Group.Prod

/-!
# The capacity of the audit table

`audit_capacity.py` keeps the number of audit rows and their bytes in a policy row beside the
table. Triggers on the table count each change and refuse it beyond the limits. There is no policy
row at first: the first insert, update or call of `policy` creates it from the rows it finds.

The two databases run the triggers at different times. SQLite runs them after each row.
PostgreSQL runs them after the whole statement, so the one that creates the policy row finds every
row of the statement, and the others count theirs again (`Aggregate.exact_deferred_none`).

* `retained_usage_exact` : **the counters are exact after every run of careful statements**.
-/

namespace AgentBridge.Capacity

open Aggregate Except List Table AList Prod

/-! ### Limits -/

/-- `AuditLimits` : limits that have passed the checks of `__post_init__`. -/
structure AuditLimits where
  maxRecords : ℤ
  maxBytes : ℤ
  maxEntryBytes : ℤ
  records_bounded : 1 ≤ maxRecords ∧ maxRecords ≤ 1000000
  bytes_bounded : 1 ≤ maxBytes ∧ maxBytes ≤ 1073741824
  entry_bounded : 1 ≤ maxEntryBytes ∧ maxEntryBytes ≤ 65536
  entry_le_bytes : maxEntryBytes ≤ maxBytes

def AuditLimits.make (maxRecords maxBytes maxEntryBytes : ℤ) : Except Fault AuditLimits :=
  if h : (1 ≤ maxRecords ∧ maxRecords ≤ 1000000) ∧ (1 ≤ maxBytes ∧ maxBytes ≤ 1073741824) ∧
      (1 ≤ maxEntryBytes ∧ maxEntryBytes ≤ 65536) then
    if hle : maxEntryBytes ≤ maxBytes then
      .ok ⟨maxRecords, maxBytes, maxEntryBytes, h.1, h.2.1, h.2.2, hle⟩
    else .error (.runtimeError "audit entry capacity exceeds retained byte capacity")
  else .error (.runtimeError "positive bounded audit capacity required")

/-- `DEFAULTS`. -/
def defaults : AuditLimits where
  maxRecords := 100000
  maxBytes := 67108864
  maxEntryBytes := 16384
  records_bounded := by decide
  bytes_bounded := by decide
  entry_bounded := by decide
  entry_le_bytes := by decide

/-- The row of `audit_capacity_policy_v1`. Its key `singleton` is always 1. -/
structure Policy where
  version : ℤ
  maxRecords : ℤ
  maxBytes : ℤ
  maxEntryBytes : ℤ
  usedRecords : ℤ
  usedBytes : ℤ
  deriving DecidableEq

namespace Policy

/-- The two counters. -/
def used (p : Policy) : ℤ × ℤ := (p.usedRecords, p.usedBytes)

/-- `UPDATE … SET used_records=used_records+d.1,used_bytes=used_bytes+d.2`. -/
def add (p : Policy) (d : ℤ × ℤ) : Policy :=
  { p with usedRecords := p.usedRecords + d.1, usedBytes := p.usedBytes + d.2 }

/-- `UPDATE … SET max_records=…,max_bytes=…,max_entry_bytes=…`. -/
def setLimits (p : Policy) (l : AuditLimits) : Policy :=
  { p with maxRecords := l.maxRecords, maxBytes := l.maxBytes, maxEntryBytes := l.maxEntryBytes }

/-- A new row with the default limits. -/
def create (used : ℤ × ℤ) : Policy where
  version := 1
  maxRecords := defaults.maxRecords
  maxBytes := defaults.maxBytes
  maxEntryBytes := defaults.maxEntryBytes
  usedRecords := used.1
  usedBytes := used.2

/-- The condition under which the triggers call a policy invalid. -/
def invalid (p : Policy) : Bool :=
  p.version ≠ 1 || p.usedRecords < 0 || p.usedBytes < 0 ||
    p.maxRecords < 1 || p.maxRecords > 1000000 || p.maxBytes < 1 || p.maxBytes > 1073741824 ||
    p.maxEntryBytes < 1 || p.maxEntryBytes > 65536 || p.maxEntryBytes > p.maxBytes

/-- The condition under which an entry of `size` bytes is refused. -/
def reached (p : Policy) (size : ℤ) : Bool :=
  p.usedRecords > p.maxRecords || p.usedBytes > p.maxBytes || size > p.maxEntryBytes

/-- `_validate`. -/
def validate (p : Policy) : Except Fault AuditLimits := do
  require (p.version == 1) (.runtimeError "missing or unsupported audit capacity policy")
  let limits ← AuditLimits.make p.maxRecords p.maxBytes p.maxEntryBytes
  require (0 ≤ p.usedRecords && 0 ≤ p.usedBytes)
    (.runtimeError "invalid retained audit capacity counters")
  return limits

/-- What `_validate` checks besides the counters. -/
structure Sound (p : Policy) : Prop where
  version : p.version = 1
  records : 1 ≤ p.maxRecords ∧ p.maxRecords ≤ 1000000
  bytes : 1 ≤ p.maxBytes ∧ p.maxBytes ≤ 1073741824
  entry : 1 ≤ p.maxEntryBytes ∧ p.maxEntryBytes ≤ 65536
  entry_le_bytes : p.maxEntryBytes ≤ p.maxBytes

@[simp] theorem used_add (p : Policy) (d : ℤ × ℤ) : (p.add d).used = p.used + d := rfl

@[simp] theorem used_create (d : ℤ × ℤ) : (create d).used = d := rfl

@[simp] theorem used_setLimits (p : Policy) (l : AuditLimits) :
    (p.setLimits l).used = p.used := rfl

variable {p : Policy}

theorem Sound.add (h : p.Sound) (d : ℤ × ℤ) : (p.add d).Sound :=
  ⟨h.version, h.records, h.bytes, h.entry, h.entry_le_bytes⟩

theorem Sound.setLimits (h : p.Sound) (l : AuditLimits) : (p.setLimits l).Sound :=
  ⟨h.version, l.records_bounded, l.bytes_bounded, l.entry_bounded, l.entry_le_bytes⟩

theorem sound_create (d : ℤ × ℤ) : (create d).Sound :=
  ⟨rfl, defaults.records_bounded, defaults.bytes_bounded, defaults.entry_bounded,
    defaults.entry_le_bytes⟩

/-- A sound policy with counters that are not negative is valid. -/
theorem Sound.validate (h : p.Sound) (hr : 0 ≤ p.usedRecords) (hb : 0 ≤ p.usedBytes) :
    ∃ limits, p.validate = .ok limits := by
  have hmake : AuditLimits.make p.maxRecords p.maxBytes p.maxEntryBytes =
      .ok ⟨p.maxRecords, p.maxBytes, p.maxEntryBytes, h.records, h.bytes, h.entry,
        h.entry_le_bytes⟩ := by
    unfold AuditLimits.make
    rw [dif_pos ⟨h.records, h.bytes, h.entry⟩, dif_pos h.entry_le_bytes]
  have hversion : (p.version == 1) = true := beq_iff_eq.mpr h.version
  have hused : (decide (0 ≤ p.usedRecords) && decide (0 ≤ p.usedBytes)) = true := by
    simp [hr, hb]
  unfold Policy.validate
  rw [hversion, hused, hmake]
  exact ⟨_, rfl⟩

end Policy

/-! ### The audit table -/

/-- A row of `audit` : its `seq`, and the stored bytes of its `entry`. -/
structure Row where
  seq : ℤ
  entry : Bytes

/-- The bytes of an entry, as the triggers measure them. -/
def size (entry : Bytes) : ℤ := entry.length

/-- `SELECT count(*),coalesce(sum(size),0) FROM audit`. -/
def usage (audit : Table ℤ Bytes) : ℤ × ℤ :=
  (Table.size audit, Table.sum (fun _ entry => size entry) audit)

/-- The audit table and the policy row, if there is one. -/
structure Store where
  audit : Table ℤ Bytes
  policy : Option Policy

/-- What a row trigger is called with. -/
inductive Event
  | inserted (new : Row)
  | updated (old new : Row)
  | deleted (old : Row)

/-- What a change adds to the counters. -/
def Event.delta : Event → ℤ × ℤ
  | .inserted new => (1, size new.entry)
  | .updated old new => (0, size new.entry - size old.entry)
  | .deleted old => (-1, -size old.entry)

/-- A deletion does not create the policy row. -/
def Event.creates : Event → Bool
  | .deleted _ => false
  | _ => true

/-- The counting rule of the triggers. -/
def counting : Rule Event (ℤ × ℤ) := ⟨Event.delta, Event.creates⟩

/-- How a statement resolves a `seq` that is taken: it fails, it leaves the row out
(`OR IGNORE`, `ON CONFLICT DO NOTHING`), or it overwrites (`OR REPLACE`, `ON CONFLICT DO
UPDATE`). -/
inductive Conflict
  | abort
  | ignore
  | replace
  deriving DecidableEq

/-- What a statement asks of one row. -/
inductive Request
  | insert (conflict : Conflict) (new : Row)
  | update (conflict : Conflict) (seq : ℤ) (new : Row)
  | delete (seq : ℤ)

/-- A statement on the audit table, with the rows that it reaches in their order. -/
inductive Statement
  | insert (conflict : Conflict) (rows : List Row)
  | update (conflict : Conflict) (rows : List (ℤ × Row))
  | delete (seqs : List ℤ)

def Statement.requests : Statement → List Request
  | .insert conflict rows => rows.map (.insert conflict)
  | .update conflict rows => rows.map fun r => .update conflict r.1 r.2
  | .delete seqs => seqs.map .delete

def uniqueFailed : Backend → Fault
  | .sqlite => .integrityError "UNIQUE constraint failed: audit.seq"
  | .postgres => .integrityError
      "duplicate key value violates unique constraint \"audit_pkey\""

def insertRow (b : Backend) (audit : Table ℤ Bytes) (conflict : Conflict) (new : Row) :
    Except Fault (Table ℤ Bytes × Option Event) :=
  match audit.lookup new.seq with
  | none => .ok (audit.insert new.seq new.entry, some (.inserted new))
  | some old =>
    match b, conflict with
    -- `audit_capacity_no_replace_v1` runs before SQLite resolves the conflict.
    | .sqlite, _ =>
      .error (.integrityError "audit sequence already exists; replacement forbidden")
    | .postgres, .abort => .error (uniqueFailed .postgres)
    | .postgres, .ignore => .ok (audit, none)
    | .postgres, .replace =>
      .ok (audit.insert new.seq new.entry, some (.updated ⟨new.seq, old⟩ new))

/-- Put `new` in the place of the row `seq`. -/
def moveRow (audit : Table ℤ Bytes) (seq : ℤ) (new : Row) : Table ℤ Bytes :=
  (audit.erase seq).insert new.seq new.entry

/-- Update one row. A row that is gone by now is passed over. -/
def updateRow (b : Backend) (audit : Table ℤ Bytes) (conflict : Conflict) (seq : ℤ) (new : Row) :
    Except Fault (Table ℤ Bytes × Option Event) :=
  match audit.lookup seq with
  | none => .ok (audit, none)
  | some old =>
    match (audit.erase seq).lookup new.seq, b, conflict with
    | none, _, _ => .ok (moveRow audit seq new, some (.updated ⟨seq, old⟩ new))
    | some _, .sqlite, .ignore => .ok (audit, none)
    -- Without `recursive_triggers` the row that is replaced gets no delete trigger.
    | some _, .sqlite, .replace =>
      .ok (moveRow audit seq new, some (.updated ⟨seq, old⟩ new))
    | some _, .sqlite, .abort => .error (uniqueFailed .sqlite)
    -- PostgreSQL has no conflict clause for updates.
    | some _, .postgres, _ => .error (uniqueFailed .postgres)

def deleteRow (audit : Table ℤ Bytes) (seq : ℤ) : Table ℤ Bytes × Option Event :=
  match audit.lookup seq with
  | none => (audit, none)
  | some old => (audit.erase seq, some (.deleted ⟨seq, old⟩))

/-- The change of one row, and the event for its `AFTER` trigger. -/
def change (b : Backend) (audit : Table ℤ Bytes) :
    Request → Except Fault (Table ℤ Bytes × Option Event)
  | .insert conflict new => insertRow b audit conflict new
  | .update conflict seq new => updateRow b audit conflict seq new
  | .delete seq => .ok (deleteRow audit seq)

/-! ### The triggers -/

def invalidPolicy : Fault := .integrityError "invalid audit capacity policy"

def capacityReached : Fault := .integrityError "retained audit capacity reached"

/-- `audit_capacity_insert_v1`, `audit_capacity_update_v1` and `audit_capacity_delete_v1`. -/
def sqliteTrigger (s : Store) : Event → Except Fault Store
  | .inserted new => do
    -- The scan leaves out the new row : `WHERE seq<>NEW.seq`.
    let p := s.policy.getD (.create (usage (s.audit.erase new.seq)))
    require (!p.invalid) invalidPolicy
    let p := p.add (1, size new.entry)
    require (!p.reached (size new.entry)) capacityReached
    return { s with policy := some p }
  | .updated old new => do
    let p := s.policy.getD
      (.create ((usage s.audit).1, (usage s.audit).2 - size new.entry + size old.entry))
    let p := p.add (0, size new.entry - size old.entry)
    require (!(p.invalid || p.reached (size new.entry))) capacityReached
    return { s with policy := some p }
  | .deleted old => .ok { s with policy := s.policy.map fun p => p.add (-1, -size old.entry) }

/-- The end of `agentbridge_audit_capacity_v1` : the checks of the row it has written. -/
def checkPolicy (s : Store) (p : Policy) (size : ℤ) : Except Fault Store := do
  require (!p.invalid) invalidPolicy
  require (!p.reached size) capacityReached
  return { s with policy := some p }

/-- `agentbridge_audit_capacity_v1`. -/
def postgresTrigger (s : Store) : Event → Except Fault Store
  | .deleted old => .ok { s with policy := s.policy.map fun p => p.add (-1, -size old.entry) }
  | .inserted new =>
    match s.policy with
    | none => checkPolicy s (.create (usage s.audit)) (size new.entry)
    | some p => checkPolicy s (p.add (1, size new.entry)) (size new.entry)
  | .updated old new =>
    match s.policy with
    | none => checkPolicy s (.create (usage s.audit)) (size new.entry)
    | some p => checkPolicy s (p.add (0, size new.entry - size old.entry)) (size new.entry)

/-! ### Statements and calls -/

/-- SQLite : change a row and run its trigger. -/
def sqliteRow (s : Store) (r : Request) : Except Fault Store := do
  let (audit, event) ← change .sqlite s.audit r
  match event with
  | none => return { s with audit }
  | some e => sqliteTrigger { s with audit } e

/-- PostgreSQL : change a row and queue its event. -/
def postgresRow (queue : Table ℤ Bytes × List Event) (r : Request) :
    Except Fault (Table ℤ Bytes × List Event) := do
  let (audit, event) ← change .postgres queue.1 r
  return (audit, queue.2 ++ event.toList)

def execute (b : Backend) (s : Store) (st : Statement) : Except Fault Store :=
  match b with
  | .sqlite => st.requests.foldlM sqliteRow s
  | .postgres => do
    let (audit, events) ← st.requests.foldlM postgresRow (s.audit, [])
    events.foldlM postgresTrigger { s with audit }

/-- `policy` : the row is created and its limits are set. `audit` has the statements of the
callback, which is called only when limits are given. The row is returned with the store. -/
def policy (b : Backend) (s : Store) (limits : Option AuditLimits) (audit : List Statement) :
    Except Fault (Store × Option Policy) := do
  let row := s.policy.getD (.create (usage s.audit))
  let _ ← row.validate
  match limits with
  | none => return ({ s with policy := some row }, some row)
  | some limits =>
    let s ← audit.foldlM (execute b) { s with policy := some (row.setLimits limits) }
    return (s, s.policy)

/-- `verify_retained_usage`. -/
def verifyRetainedUsage (s : Store) : Except Fault Unit :=
  match s.policy with
  | none => .ok ()
  | some row => do
    let _ ← row.validate
    require (row.used == usage s.audit)
      (.runtimeError "retained audit counters do not match stored history")

/-- What is committed on the store. -/
inductive Action
  | statement (st : Statement)
  | policy (limits : Option AuditLimits) (audit : List Statement)

def exec (b : Backend) (s : Store) : Action → Except Fault Store
  | .statement st => execute b s st
  | .policy limits audit => (policy b s limits audit).map Prod.fst

/-- All changes of the statement are counted once: an update on SQLite does not replace other
rows, and on PostgreSQL the policy row exists, or one row at most can create it. -/
def Statement.careful (b : Backend) (created : Bool) (st : Statement) : Bool :=
  match b, st with
  | .sqlite, .update .replace _ => false
  | .sqlite, _ => true
  | .postgres, .delete _ => true
  | .postgres, st => created || st.requests.length ≤ 1

def careful (b : Backend) (s : Store) : Action → Bool
  | .statement st => st.careful b s.policy.isSome
  | .policy _ audit => audit.all (Statement.careful b true)

/-! ### Row changes and their events -/

variable {audit audit' : Table ℤ Bytes} {seq : ℤ} {new : Row} {b : Backend} {event : Option Event}

theorem usage_insert (entry : Bytes) (h : audit.lookup seq = none) :
    usage (audit.insert seq entry) = usage audit + (1, size entry) := by
  apply Prod.ext
  · simp only [usage, fst_add, size_eq_sum, sum_insert _ h]
    push_cast
    exact add_comm _ _
  · simp only [usage, snd_add, sum_insert _ h]
    exact add_comm _ _

theorem usage_erase {entry : Bytes} (h : audit.lookup seq = some entry) :
    usage (audit.erase seq) = usage audit - (1, size entry) := by
  apply Prod.ext
  · have hsize := size_erase h
    simp only [usage, fst_sub]
    omega
  · have hsum := sum_erase (fun _ entry => size entry) h
    simp only [usage, snd_sub]
    omega

/-- An update that takes the place of another row on SQLite, which gets no event. -/
def Request.replaces : Backend → Request → Bool
  | .sqlite, .update .replace _ _ => true
  | _, _ => false

theorem usage_moveRow {old : Bytes} (hold : audit.lookup seq = some old)
    (hfree : (audit.erase seq).lookup new.seq = none) :
    usage (moveRow audit seq new) = usage audit + (Event.updated ⟨seq, old⟩ new).delta := by
  rw [moveRow, usage_insert _ hfree, usage_erase hold]
  apply Prod.ext
  · simp [Event.delta]
  · simp only [Event.delta, snd_add, snd_sub]
    omega

theorem usage_insertRow {conflict : Conflict}
    (h : insertRow b audit conflict new = .ok (audit', event)) :
    usage audit' = usage audit + event.elim 0 Event.delta := by
  unfold insertRow at h
  cases hold : audit.lookup new.seq with
  | none =>
    simp only [hold] at h
    cases h
    exact usage_insert new.entry hold
  | some old =>
    simp only [hold] at h
    cases b with
    | sqlite => cases h
    | postgres =>
      cases conflict with
      | abort => cases h
      | ignore =>
        cases h
        simp
      | replace =>
        cases h
        have hmove : audit.insert new.seq new.entry = moveRow audit new.seq new := by
          have herase := erase_of_lookup_none (lookup_erase new.seq audit)
          apply AList.ext
          rw [moveRow, entries_insert, entries_insert, ← entries_erase,
            ← entries_erase, herase]
        rw [hmove]
        exact usage_moveRow hold (lookup_erase _ _)

theorem usage_updateRow {conflict : Conflict}
    (h : updateRow b audit conflict seq new = .ok (audit', event))
    (hr : (Request.update conflict seq new).replaces b = false) :
    usage audit' = usage audit + event.elim 0 Event.delta := by
  unfold updateRow at h
  cases hold : audit.lookup seq with
  | none =>
    simp only [hold] at h
    cases h
    simp
  | some old =>
    cases hnew : (audit.erase seq).lookup new.seq with
    | none =>
      simp only [hold, hnew] at h
      cases h
      exact usage_moveRow hold hnew
    | some taken =>
      simp only [hold, hnew] at h
      cases b with
      | postgres => cases h
      | sqlite =>
        cases conflict with
        | abort => cases h
        | ignore =>
          cases h
          simp
        | replace => cases hr

theorem usage_deleteRow (audit : Table ℤ Bytes) (seq : ℤ) :
    usage (deleteRow audit seq).1 =
      usage audit + (deleteRow audit seq).2.elim 0 Event.delta := by
  unfold deleteRow
  cases hold : audit.lookup seq with
  | none => simp
  | some old =>
    rw [usage_erase hold, sub_eq_add_neg]
    rfl

variable {r : Request} {s s' : Store}

theorem usage_change (h : change b audit r = .ok (audit', event)) (hr : r.replaces b = false) :
    usage audit' = usage audit + event.elim 0 Event.delta := by
  cases r with
  | insert conflict new => exact usage_insertRow h
  | update conflict seq new => exact usage_updateRow h hr
  | delete seq =>
    have hdelete := usage_deleteRow audit seq
    rw [Except.ok.inj h] at hdelete
    exact hdelete

/-- The event of an insert has the row that is now in the table. -/
theorem lookup_of_inserted (h : change b audit r = .ok (audit', some (.inserted new))) :
    audit'.lookup new.seq = some new.entry := by
  cases r with
  | insert conflict row =>
    simp only [change, insertRow] at h
    split at h
    case h_1 =>
      cases h
      exact lookup_insert _
    case h_2 => cases b <;> cases conflict <;> cases h
  | update conflict seq row =>
    simp only [change, updateRow] at h
    split at h
    · cases h
    · split at h <;> cases h
  | delete seq =>
    simp only [change, deleteRow] at h
    split at h <;> cases h

/-! ### The triggers keep the counters -/

/-- The counters of the policy row, if there is one. -/
def Store.used (s : Store) : Option (ℤ × ℤ) := s.policy.map Policy.used

/-- The limits of the policy row are sound. -/
def Store.Sound (s : Store) : Prop := ∀ p ∈ s.policy, p.Sound

theorem Store.Sound.getD (h : s.Sound) (d : ℤ × ℤ) : (s.policy.getD (.create d)).Sound := by
  cases hp : s.policy with
  | none => exact Policy.sound_create d
  | some p => exact h p hp

/-- What one trigger call does, on either database. -/
structure Counts (step : Option (ℤ × ℤ) → Event → Option (ℤ × ℤ)) (e : Event) (s s' : Store) :
    Prop where
  audit : s'.audit = s.audit
  used : s'.used = step s.used e
  sound : s.Sound → s'.Sound

theorem counts_deleted {step : Option (ℤ × ℤ) → Event → Option (ℤ × ℤ)} {old : Row}
    (hnone : step none (.deleted old) = none)
    (hsome : ∀ c, step (some c) (.deleted old) = some (c + (Event.deleted old).delta)) :
    Counts step (.deleted old) s
      { s with policy := s.policy.map fun p => p.add (-1, -size old.entry) } := by
  refine ⟨rfl, ?_, fun hsound p' hp' => ?_⟩
  · cases hp : s.policy with
    | none => simp [Store.used, hp, hnone]
    | some p =>
      simp only [Store.used, hp, Option.map_some, hsome, Policy.used_add]
      rfl
  · obtain ⟨p, hp, rfl⟩ := Option.map_eq_some_iff.mp hp'
    exact (hsound p hp).add _

/-- A missing policy row is created from what the table was before the change. -/
theorem counts_created {e : Event} {scanned : ℤ × ℤ} (hcreates : e.creates = true)
    (hscan : scanned = usage s.audit - e.delta) :
    Counts (counting.immediate (usage s.audit)) e s
      { s with policy := some ((s.policy.getD (.create scanned)).add e.delta) } := by
  refine ⟨rfl, ?_, fun hsound p hp => ?_⟩
  · cases hp : s.policy with
    | none => simp [Store.used, hp, hscan, Rule.immediate, hcreates, counting]
    | some p =>
      simp only [Store.used, hp, Option.map_some, Option.getD_some]
      rfl
  · cases hp
    exact (hsound.getD _).add _

/-- A trigger of SQLite runs right after its change. -/
theorem counts_sqliteTrigger {e : Event} (h : sqliteTrigger s e = .ok s')
    (hin : ∀ new, e = .inserted new → s.audit.lookup new.seq = some new.entry) :
    Counts (counting.immediate (usage s.audit)) e s s' := by
  cases e with
  | deleted old =>
    cases h
    exact counts_deleted rfl fun c => rfl
  | inserted new =>
    simp only [sqliteTrigger, bind_eq_ok, require_eq_ok, pure_eq_ok] at h
    obtain ⟨_, _, _, _, rfl⟩ := h
    exact counts_created rfl (usage_erase (hin new rfl))
  | updated old new =>
    simp only [sqliteTrigger, bind_eq_ok, require_eq_ok, pure_eq_ok] at h
    obtain ⟨_, _, rfl⟩ := h
    refine counts_created rfl (Prod.ext (by simp [Event.delta]) ?_)
    simp only [Event.delta, snd_sub]
    omega

theorem checkPolicy_eq_ok {p : Policy} {n : ℤ} (h : checkPolicy s p n = .ok s') :
    s' = { s with policy := some p } := by
  simp only [checkPolicy, bind_eq_ok, require_eq_ok, pure_eq_ok] at h
  obtain ⟨_, _, _, _, rfl⟩ := h
  rfl

/-- A trigger of PostgreSQL sees all changes of the statement. -/
theorem counts_postgresTrigger {e : Event} (h : postgresTrigger s e = .ok s') :
    Counts (counting.deferred (usage s.audit)) e s s' := by
  cases e with
  | deleted old =>
    cases h
    exact counts_deleted rfl fun c => rfl
  | inserted new | updated old new =>
    cases hp : s.policy with
    | none =>
      simp only [postgresTrigger, hp] at h
      rw [checkPolicy_eq_ok h]
      refine ⟨rfl, ?_, fun _ p' hp' => ?_⟩
      · simp only [Store.used, hp]
        rfl
      · cases hp'
        exact Policy.sound_create _
    | some p =>
      simp only [postgresTrigger, hp] at h
      rw [checkPolicy_eq_ok h]
      refine ⟨rfl, ?_, fun hsound p' hp' => ?_⟩
      · simp only [Store.used, hp]
        rfl
      · cases hp'
        exact (hsound p hp).add _

/-! ### Statements keep the counters -/

/-- The counters are exact and the limits sound. -/
structure Kept (s : Store) : Prop where
  exact : Exact s.used (usage s.audit)
  sound : s.Sound

theorem Kept.sqliteRow (hs : Kept s) (h : sqliteRow s r = .ok s')
    (hr : r.replaces .sqlite = false) : Kept s' := by
  simp only [Capacity.sqliteRow, bind_eq_ok] at h
  obtain ⟨⟨audit, event⟩, hchange, h⟩ := h
  have husage := usage_change hchange hr
  cases event with
  | none =>
    cases h
    refine ⟨?_, hs.sound⟩
    have hsame : usage audit = usage s.audit := by simpa using husage
    rw [hsame]
    exact hs.exact
  | some e =>
    have hcounts := counts_sqliteTrigger h fun new he => lookup_of_inserted (he ▸ hchange)
    refine ⟨?_, hcounts.sound hs.sound⟩
    rw [hcounts.audit, hcounts.used]
    exact hs.exact.immediate husage

variable {events : List Event} {st : Statement}

/-- The rows of a statement on PostgreSQL, with the events that are queued. -/
theorem usage_postgresRows {requests : List Request}
    (h : requests.foldlM postgresRow (audit, []) = .ok (audit', events)) :
    usage audit' = usage audit + (events.map Event.delta).sum := by
  have hinv := foldlM_invariant
    (I := fun q : Table ℤ Bytes × List Event =>
      usage q.1 = usage audit + (q.2.map Event.delta).sum) h (by simp) ?_
  · exact hinv
  rintro r - ⟨audit₁, events₁⟩ q' hq hrow
  simp only [postgresRow, bind_eq_ok, pure_eq_ok] at hrow
  obtain ⟨⟨audit₂, event⟩, hchange, rfl⟩ := hrow
  have husage := usage_change hchange rfl
  dsimp only at hq husage ⊢
  rw [husage, hq]
  cases event with
  | none => simp
  | some e => simp [add_assoc]

/-- Each row of a statement queues at most one event. -/
theorem length_postgresRows {requests : List Request} {q q' : Table ℤ Bytes × List Event}
    (h : requests.foldlM postgresRow q = .ok q') :
    q'.2.length ≤ q.2.length + requests.length := by
  induction requests generalizing q with
  | nil =>
    cases h
    exact Nat.le_refl _
  | cons r requests ih =>
    rw [foldlM_cons] at h
    obtain ⟨q₁, hrow, h⟩ := bind_eq_ok.mp h
    have hrest := ih h
    simp only [postgresRow, bind_eq_ok, pure_eq_ok] at hrow
    obtain ⟨⟨audit, event⟩, _, rfl⟩ := hrow
    have hevent : event.toList.length ≤ 1 := by cases event <;> simp
    simp only [length_append, length_cons] at hrest ⊢
    omega

/-- A deletion queues deletions only. -/
theorem creates_postgresRows {seqs : List ℤ}
    (h : (Statement.delete seqs).requests.foldlM postgresRow (audit, []) = .ok (audit', events)) :
    ∀ e ∈ events, counting.creates e = false := by
  have hinv := foldlM_invariant
    (I := fun q : Table ℤ Bytes × List Event => ∀ e ∈ q.2, counting.creates e = false) h
    (by simp) ?_
  · exact hinv
  rintro r hr ⟨audit₁, events₁⟩ q' hq hrow
  obtain ⟨seq, -, rfl⟩ := mem_map.mp hr
  simp only [postgresRow, change, bind_eq_ok, pure_eq_ok] at hrow
  obtain ⟨⟨audit₂, event⟩, hchange, rfl⟩ := hrow
  intro e he
  rcases mem_append.mp he with he | he
  · exact hq e he
  · unfold deleteRow at hchange
    split at hchange
    · cases hchange
      cases he
    · cases hchange
      rw [mem_singleton.mp he]
      rfl

/-- The queued triggers, one after another. -/
theorem foldlM_postgresTrigger (h : events.foldlM postgresTrigger s = .ok s') :
    s'.audit = s.audit ∧ s'.used = events.foldl (counting.deferred (usage s.audit)) s.used ∧
      (s.Sound → s'.Sound) := by
  induction events generalizing s with
  | nil =>
    cases h
    exact ⟨rfl, rfl, id⟩
  | cons e events ih =>
    rw [foldlM_cons] at h
    obtain ⟨s₁, htrigger, h⟩ := bind_eq_ok.mp h
    have hcounts := counts_postgresTrigger htrigger
    obtain ⟨haudit, hused, hsound⟩ := ih h
    rw [hcounts.audit] at haudit hused
    refine ⟨haudit, ?_, fun hs => hsound (hcounts.sound hs)⟩
    rw [hused, hcounts.used, foldl_cons]

/-- What a statement on PostgreSQL leaves in the counters, whatever its rows are. -/
theorem execute_postgres (h : execute .postgres s st = .ok s') :
    ∃ events, st.requests.foldlM postgresRow (s.audit, []) = .ok (s'.audit, events) ∧
      s'.used = events.foldl (counting.deferred (usage s'.audit)) s.used ∧
      (s.Sound → s'.Sound) := by
  simp only [execute, bind_eq_ok] at h
  obtain ⟨⟨audit, events⟩, hrows, h⟩ := h
  obtain ⟨haudit, hused, hsound⟩ := foldlM_postgresTrigger h
  refine ⟨events, ?_, ?_, hsound⟩
  · rw [haudit]
    exact hrows
  · rw [haudit]
    exact hused

/-- Where PostgreSQL creates the policy row, the counters are exact just when the changes after
the first one that creates it add up to nothing. -/
theorem exact_execute_postgres (hnone : s.policy = none) (h : execute .postgres s st = .ok s') :
    ∃ events, st.requests.foldlM postgresRow (s.audit, []) = .ok (s'.audit, events) ∧
      (Exact s'.used (usage s'.audit) ↔ ((counting.late events).map Event.delta).sum = 0) := by
  obtain ⟨events, hrows, hused, -⟩ := execute_postgres h
  refine ⟨events, hrows, ?_⟩
  rw [hused, Store.used, hnone]
  exact exact_deferred_none

theorem late_of_careful (hcareful : st.careful .postgres false = true)
    (h : st.requests.foldlM postgresRow (audit, []) = .ok (audit', events)) :
    counting.late events = [] := by
  have hshort : st.requests.length ≤ 1 → counting.late events = [] := by
    intro hone
    have hlen := length_postgresRows h
    exact late_of_length_le_one (by simpa using hlen.trans (by simpa using hone))
  cases st with
  | delete seqs => exact late_of_creates_false (creates_postgresRows h)
  | insert conflict rows | update conflict rows =>
    exact hshort (by simpa [Statement.careful] using hcareful)

theorem Kept.execute_postgres (hs : Kept s) (hcareful : st.careful .postgres s.policy.isSome = true)
    (h : execute .postgres s st = .ok s') : Kept s' := by
  obtain ⟨events, hrows, hused, hsound⟩ := Capacity.execute_postgres h
  refine ⟨?_, hsound hs.sound⟩
  cases hp : s.policy with
  | none =>
    obtain ⟨events', hrows', hiff⟩ := exact_execute_postgres hp h
    rw [hp] at hcareful
    rw [hiff, late_of_careful hcareful hrows']
    rfl
  | some p =>
    have hexact : p.used = usage s.audit := by
      simpa [Store.used, hp] using hs.exact
    rw [hused, Store.used, hp, Option.map_some, hexact]
    exact exact_deferred_some (usage_postgresRows hrows)

theorem Kept.execute_sqlite (hs : Kept s) {created : Bool}
    (hcareful : st.careful .sqlite created = true) (h : execute .sqlite s st = .ok s') :
    Kept s' := by
  refine foldlM_invariant h hs fun r hr s₁ s₂ hs₁ hrow => hs₁.sqliteRow hrow ?_
  cases st with
  | insert conflict rows =>
    obtain ⟨row, -, rfl⟩ := mem_map.mp hr
    rfl
  | update conflict rows =>
    obtain ⟨row, -, rfl⟩ := mem_map.mp hr
    cases conflict with
    | abort | ignore => rfl
    | replace => cases hcareful
  | delete seqs =>
    obtain ⟨seq, -, rfl⟩ := mem_map.mp hr
    rfl

/-! ### Runs -/

theorem isSome_execute_postgres (h : execute .postgres s st = .ok s')
    (hp : s.policy.isSome = true) : s'.policy.isSome = true := by
  obtain ⟨events, -, hused, -⟩ := execute_postgres h
  have hsome : s'.used.isSome = true := by
    rw [hused]
    exact isSome_foldl_deferred (by simpa [Store.used] using hp)
  simpa [Store.used] using hsome

theorem Kept.callback {audit : List Statement} (hs : Kept s) (hp : s.policy.isSome = true)
    (hcareful : audit.all (Statement.careful b true) = true)
    (h : audit.foldlM (execute b) s = .ok s') : Kept s' := by
  rw [all_eq_true] at hcareful
  cases b with
  | sqlite =>
    exact foldlM_invariant h hs fun st hst s₁ s₂ hs₁ hexec =>
      hs₁.execute_sqlite (hcareful st hst) hexec
  | postgres =>
    have hinv := foldlM_invariant (I := fun s => Kept s ∧ s.policy.isSome = true) h
      ⟨hs, hp⟩ ?_
    · exact hinv.1
    rintro st hst s₁ s₂ ⟨hs₁, hp₁⟩ hexec
    refine ⟨hs₁.execute_postgres ?_ hexec, isSome_execute_postgres hexec hp₁⟩
    rw [hp₁]
    exact hcareful st hst

theorem Kept.create (hs : Kept s) :
    (s.policy.getD (.create (usage s.audit))).used = usage s.audit := by
  cases hp : s.policy with
  | none => rfl
  | some p => simpa [Store.used, hp] using hs.exact

theorem Kept.policy {result : Store × Option Policy} {limits : Option AuditLimits}
    {audit : List Statement} (hs : Kept s) (hcareful : audit.all (Statement.careful b true) = true)
    (h : policy b s limits audit = .ok result) : Kept result.1 := by
  simp only [Capacity.policy, bind_eq_ok] at h
  obtain ⟨_, _, h⟩ := h
  cases limits with
  | none =>
    cases h
    refine ⟨?_, fun p hp => ?_⟩
    · simpa [Store.used] using hs.create
    · cases hp
      exact hs.sound.getD _
  | some limits =>
    simp only [bind_eq_ok, pure_eq_ok] at h
    obtain ⟨s', hcallback, rfl⟩ := h
    refine Kept.callback ⟨?_, fun p hp => ?_⟩ rfl hcareful hcallback
    · simpa [Store.used] using hs.create
    · cases hp
      exact (hs.sound.getD _).setLimits limits

theorem Kept.exec {a : Action} (hs : Kept s) (hcareful : careful b s a = true)
    (h : exec b s a = .ok s') : Kept s' := by
  cases a with
  | statement st =>
    cases b with
    | sqlite => exact hs.execute_sqlite hcareful h
    | postgres => exact hs.execute_postgres hcareful h
  | policy limits audit =>
    simp only [Capacity.exec] at h
    cases hpolicy : Capacity.policy b s limits audit with
    | error e =>
      rw [hpolicy] at h
      cases h
    | ok result =>
      rw [hpolicy] at h
      cases h
      exact hs.policy hcareful hpolicy

/-- Exact counters pass the check. -/
theorem Kept.verifyRetainedUsage (hs : Kept s) : verifyRetainedUsage s = .ok () := by
  unfold Capacity.verifyRetainedUsage
  cases hp : s.policy with
  | none => rfl
  | some p =>
    have hexact : p.used = usage s.audit := by simpa [Store.used, hp] using hs.exact
    have hrecords : p.usedRecords = Table.size s.audit := congrArg Prod.fst hexact
    have hbytes : p.usedBytes = Table.sum (fun _ entry => size entry) s.audit :=
      congrArg Prod.snd hexact
    have hnonneg : 0 ≤ Table.sum (fun (_ : ℤ) entry => size entry) s.audit :=
      sum_nonneg fun n hn => by
        obtain ⟨e, -, rfl⟩ := mem_map.mp hn
        exact Int.natCast_nonneg _
    obtain ⟨limits, hvalid⟩ := (hs.sound p hp).validate (by omega) (by omega)
    simp [hvalid, hexact, ok_bind, require]

/-- The committed statements and calls on a store. -/
def system (b : Backend) : LTS Store Action := LTS.ofExec (exec b)

/-- On either database, from any audit rows without a policy row, careful statements and calls
leave exact counters, and the store can be opened again. -/
theorem retained_usage_exact (b : Backend) (rows : Table ℤ Bytes) {s : Store}
    (hrun : ((system b).restrict fun s a => careful b s a = true).Reachable ⟨rows, none⟩ s) :
    (∀ p ∈ s.policy, p.usedRecords = Table.size s.audit ∧
      p.usedBytes = Table.sum (fun _ entry => (entry.length : ℤ)) s.audit) ∧
    verifyRetainedUsage s = .ok () := by
  have hkept : Kept s := by
    refine hrun.invariant (I := Kept) ⟨exact_none, fun p hp => by cases hp⟩ ?_
    rintro s₁ a s₂ hs₁ ⟨hcareful, hstep⟩
    exact hs₁.exec hcareful hstep
  refine ⟨fun p hp => ?_, hkept.verifyRetainedUsage⟩
  have hused := hkept.exact p.used (by simp [Store.used, Option.mem_def.mp hp])
  exact ⟨congrArg Prod.fst hused, congrArg Prod.snd hused⟩

/-- A table with one row from before the policy. -/
def sampleRows : Table ℤ Bytes := AList.insert 0 [123, 125] ∅

/-- Single rows first, then several rows at once, and a change of the limits. -/
def sampleRun : List Action :=
  [.statement (.insert .abort [⟨1, [34, 97, 34]⟩]),
    .statement (.insert .abort [⟨2, [48]⟩, ⟨3, [49, 50]⟩]),
    .policy (some defaults) [.update .abort [(0, ⟨0, [91, 93, 32]⟩), (2, ⟨5, [49]⟩)]],
    .statement (.delete [1, 3])]

def sampleStore (b : Backend) : Store :=
  LTS.drive (LTS.guarded (careful b) capacityReached (exec b)) ⟨sampleRows, none⟩ sampleRun

theorem retained_usage_exact_sample :
    ((sampleStore .sqlite).used = some (2, 4) ∧
      verifyRetainedUsage (sampleStore .sqlite) = .ok ()) ∧
    (sampleStore .postgres).used = some (2, 4) ∧
      verifyRetainedUsage (sampleStore .postgres) = .ok () :=
  ⟨⟨by decide, (retained_usage_exact .sqlite sampleRows
      (LTS.reachable_drive_guarded _ _ _ _ sampleRun)).2⟩,
    by decide, (retained_usage_exact .postgres sampleRows
      (LTS.reachable_drive_guarded _ _ _ _ sampleRun)).2⟩

/-- PostgreSQL counts the second row of the first insert twice, and SQLite does not count a row
that an update replaces. Neither store can be opened again. -/
theorem miscounted_usage :
    (∃ s, (system .postgres).Reachable ⟨sampleRows, none⟩ s ∧
      usage s.audit = (3, 5) ∧ s.used = some (4, 7) ∧
      verifyRetainedUsage s =
        .error (.runtimeError "retained audit counters do not match stored history")) ∧
    ∃ s, (system .sqlite).Reachable ⟨sampleRows, none⟩ s ∧
      usage s.audit = (1, 1) ∧ s.used = some (2, 3) ∧
      verifyRetainedUsage s =
        .error (.runtimeError "retained audit counters do not match stored history") := by
  refine ⟨⟨_, LTS.reachable_drive (exec .postgres) _
      [.statement (.insert .abort [⟨1, [48]⟩, ⟨2, [49, 50]⟩])], ?_⟩,
    ⟨_, LTS.reachable_drive (exec .sqlite) _
      [.statement (.insert .abort [⟨1, [48]⟩]),
        .statement (.update .replace [(1, ⟨0, [48]⟩)])], ?_⟩⟩
  · exact ⟨by decide, by decide, by decide⟩
  · exact ⟨by decide, by decide, by decide⟩

end AgentBridge.Capacity
