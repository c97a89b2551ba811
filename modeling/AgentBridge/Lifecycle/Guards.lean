import AgentBridge.Lifecycle.Ending

/-!
# Triggers and checks of a tenant's SQLite store

The limits of a tenant's store are enforced twice. A call checks them before it writes, and
triggers check every insert again, so that an older worker without the checks is bound as well.
The call adds up what it is about to change; the triggers see the tables between its statements, and
read the reservations from the stored text.

`create` writes the snapshot first: its event trigger finds the reservation of the new task in the
sum already, and subtracts it as the prior one. `transition` writes the event first, and its
trigger finds the row of the state before.

* `guards_agree_with_checks` : **the triggers admit exactly what the checks accept, and no call
  that passes its checks is aborted by the database.**
-/

namespace AgentBridge.Durable

open JsonText Except

namespace Tables

/-- The history and event-byte checks of `create`. -/
def createChecks (t : Tables) (b : Backend) (task : Snapshot) : Except LifecycleFault Unit := do
  let cap ← t.historyPolicy
  require (decide (t.historyCount < cap))
    (.capacity "historical-task capacity reached; reviewed capacity increase required")
  t.checkEventAppend b (encode task) (eventReserve task.state)

/-- The inserts of `create`. -/
def createInserts (t : Tables) (cfg : Config) (key : Key) (raw : List Char) :
    Except LifecycleFault Tables := do
  let t ← t.insertSnapshot cfg key ⟨raw, false⟩
  t.insertEvent cfg key 0 raw

variable {cfg : Config} {t t' : Tables} {key : Key} {owner : PyString}

/-- An event is inserted when its trigger accepts and its sequence number is free. -/
theorem insertEvent_eq_ok {n : ℕ} {raw : List Char} : t.insertEvent cfg key n raw = .ok t' ↔
    (t.byteTrigger cfg raw (t.eventAdjustment cfg.backend key raw) = .ok () ∧
      t.events.lookup (key, n) = none) ∧
    { t with events := t.events.insert (key, n) raw } = t' := by
  simp only [insertEvent, bind_eq_ok, Table.insertNew_eq_ok, pure_eq_ok]
  constructor
  · rintro ⟨_, htrigger, _, ⟨hnew, rfl⟩, rfl⟩
    exact ⟨⟨htrigger, hnew⟩, rfl⟩
  · rintro ⟨⟨htrigger, hnew⟩, rfl⟩
    exact ⟨(), htrigger, _, ⟨hnew, rfl⟩, rfl⟩

end Tables

section Tenant

variable {cfg : Config} {w : World} {key : Key}

/-! ### The inserts of `create` -/

/-- The event-byte law of a new task. -/
def Fits (t : Tables) (task : Snapshot) : Prop :=
  byteLength (encode task) ≤ 4096 ∧
    ((t.used + byteLength (encode task) + t.control : ℕ) : ℤ) + eventReserve task.state ≤ t.maxBytes

variable {task : Snapshot}

theorem createChecks_iff (hi : Inv cfg w) (hr : Room w.tables) :
    w.tables.createChecks .sqlite task = .ok () ↔
      w.tables.historyCount < w.tables.maxTasks ∧ Fits w.tables task := by
  have hcap : w.tables.historyPolicy = .ok w.tables.maxTasks := by
    simp [Tables.historyPolicy, require, hi.policy.1, hi.policy.2]
  simp only [Tables.createChecks, hcap, ok_bind, bind_eq_ok, require_eq_ok,
    decide_eq_true_eq, hi.encoded.checkEventAppend_iff hr.policy]
  constructor
  · rintro ⟨_, hroom, hfits⟩
    exact ⟨hroom, hfits⟩
  · rintro ⟨hroom, hfits⟩
    exact ⟨(), hroom, hfits⟩

/-- The store between the two inserts of `create`. -/
def Tables.half (t : Tables) (key : Key) (task : Snapshot) : Tables :=
  { t with snapshots := t.snapshots.insert key ⟨encode task, task.isTerminal⟩ }

theorem Tables.Encoded.half {t : Tables} (he : t.Encoded) (key : Key) (task : Snapshot) :
    (t.half key task).Encoded := by
  intro key' row hrow
  rw [Tables.half, Table.lookup_insert'] at hrow
  split at hrow
  · cases hrow
    exact ⟨task, rfl⟩
  · exact he key' row hrow

theorem control_half {t : Tables} (task : Snapshot) (hfresh : t.snapshots.lookup key = none) :
    (t.half key task).control = eventReserve task.state + t.control := by
  rw [← reserve_encode task]
  exact Table.sum_insert _ hfresh

/-- The trigger of the first event takes the new reservation out of the sum again. -/
theorem eventAdjustment_half (t : Tables) (task : Snapshot) :
    (t.half key task).eventAdjustment .sqlite key (encode task) = .ok 0 := by
  have hprior : (t.half key task).reservePrior .sqlite key = .ok (eventReserve task.state) := by
    unfold Tables.reservePrior Tables.half
    rw [AList.lookup_insert]
    exact reserveSql_encode task
  refine bind_eq_ok.mpr ⟨_, reserveAfter_encode task, ?_⟩
  exact bind_eq_ok.mpr ⟨_, hprior, congrArg Except.ok (sub_self _)⟩

theorem historyTrigger_iff (hb : cfg.backend = .sqlite) (ht : cfg.tenant = true) (hi : Inv cfg w) :
    w.tables.historyTrigger cfg = .ok () ↔ w.tables.historyCount < w.tables.maxTasks := by
  simp only [Tables.historyTrigger, ht, if_true, hb, require_eq_ok, Bool.and_eq_true,
    decide_eq_true_eq, hi.policy.1, true_and]

theorem insertSnapshot_iff (hb : cfg.backend = .sqlite) (ht : cfg.tenant = true) (hi : Inv cfg w)
    (hr : Room w.tables) (hopen : task.isTerminal = false) {t' : Tables} :
    w.tables.insertSnapshot cfg key ⟨encode task, false⟩ = .ok t' ↔
      (Fits w.tables task ∧ w.tables.historyCount < w.tables.maxTasks ∧
        w.tables.snapshots.lookup key = none) ∧ w.tables.half key task = t' := by
  have hadjust : Tables.snapshotAdjustment cfg.backend ⟨encode task, false⟩ =
      .ok (eventReserve task.state : ℤ) := by
    rw [hb, ← hopen]
    exact bind_eq_ok.mpr ⟨_, reserveSql_encode task, rfl⟩
  have htrigger : w.tables.byteTrigger cfg (encode task) _ = .ok () ↔ _ :=
    hi.encoded.byteTrigger_iff hb hr.policy hadjust
  simp only [ht, forall_const] at htrigger
  simp only [Tables.insertSnapshot, bind_eq_ok, htrigger, historyTrigger_iff hb ht hi,
    Table.insertNew_eq_ok, pure_eq_ok, Tables.half, hopen, Fits]
  constructor
  · rintro ⟨_, hfits, _, hcount, _, ⟨hfresh, rfl⟩, rfl⟩
    exact ⟨⟨hfits, hcount, hfresh⟩, rfl⟩
  · rintro ⟨⟨hfits, hcount, hfresh⟩, rfl⟩
    exact ⟨(), hfits, (), hcount, _, ⟨hfresh, rfl⟩, rfl⟩

theorem createInserts_iff (hb : cfg.backend = .sqlite) (ht : cfg.tenant = true) (hi : Inv cfg w)
    (hr : Room w.tables) (hopen : task.isTerminal = false) :
    (∃ t', w.tables.createInserts cfg key (encode task) = .ok t') ↔
      w.tables.snapshots.lookup key = none ∧
        w.tables.historyCount < w.tables.maxTasks ∧ Fits w.tables task := by
  constructor
  · rintro ⟨t', h⟩
    obtain ⟨mid, hmid, -⟩ := bind_eq_ok.mp h
    obtain ⟨⟨hfits, hcount, hfresh⟩, -⟩ := (insertSnapshot_iff hb ht hi hr hopen).mp hmid
    exact ⟨hfresh, hcount, hfits⟩
  · rintro ⟨hfresh, hcount, hfits⟩
    have hsnapshot := (insertSnapshot_iff hb ht hi hr hopen).mpr ⟨⟨hfits, hcount, hfresh⟩, rfl⟩
    have hadjust : (w.tables.half key task).eventAdjustment cfg.backend key (encode task) =
        .ok 0 := by
      rw [hb]
      exact eventAdjustment_half w.tables task
    -- the reservation has moved from the adjustment into the sum
    have hsum : (((w.tables.half key task).used + byteLength (encode task) +
        (w.tables.half key task).control : ℕ) : ℤ) + 0 ≤ w.tables.maxBytes := by
      rw [control_half task hfresh]
      have hbytes := hfits.2
      have hused : (w.tables.half key task).used = w.tables.used := rfl
      rw [hused]
      push_cast at hbytes ⊢
      linarith
    have htrigger := ((hi.encoded.half key task).byteTrigger_iff hb hr.policy hadjust).mpr
      fun _ => ⟨hfits.1, hsum⟩
    have hnew : (w.tables.half key task).events.lookup (key, 0) = none := hi.orphan key hfresh 0
    have hevent := Tables.insertEvent_eq_ok.mpr ⟨⟨htrigger, hnew⟩, rfl⟩
    exact ⟨_, bind_eq_ok.mpr ⟨_, hsnapshot, hevent⟩⟩

/-! ### The insert of `transition` -/

/-- The snapshot that a call finds is the last one of the history. -/
theorem current_eq_ok (hi : Inv cfg w) {current : Snapshot}
    (h : w.tables.current key = .ok current) : ∃ row hist,
      w.tables.snapshots.lookup key = some row ∧ Stored w.tables key row hist ∧
        hist.last = current := by
  obtain ⟨row, hrow, -⟩ := Tables.current_ok h
  obtain ⟨hist, hs, -⟩ := hi.stored key row hrow
  refine ⟨row, hist, hrow, hs, ?_⟩
  rw [current_stored hrow hs] at h
  exact Except.ok.inj h

theorem insertEvent_iff (hb : cfg.backend = .sqlite) (ht : cfg.tenant = true) (hi : Inv cfg w)
    (hr : Room w.tables) {current updated : Snapshot} {newState : TaskState}
    (hcurrent : w.tables.current key = .ok current)
    (hnext : current.transition newState (current.sequence + 1) = .ok updated) :
    (∃ t', w.tables.insertEvent cfg key updated.sequence (encode updated) = .ok t') ↔
      w.tables.checkEventAppend .sqlite (encode updated)
        ((eventReserve updated.state : ℤ) - eventReserve current.state) = .ok () := by
  obtain ⟨row, hist, hrow, hs, rfl⟩ := current_eq_ok hi hcurrent
  have hadjust : w.tables.eventAdjustment cfg.backend key (encode updated) =
      .ok ((eventReserve updated.state : ℤ) - eventReserve hist.last.state) := by
    rw [hb]
    exact eventAdjustment_sqlite hrow hs updated
  have htrigger : w.tables.byteTrigger cfg (encode updated) _ = .ok () ↔ _ :=
    hi.encoded.byteTrigger_iff hb hr.policy hadjust
  have hseq : updated.sequence = hist.last.sequence + 1 := by
    rw [(Snapshot.transition_ok hnext).2]
  have hnew : w.tables.events.lookup (key, updated.sequence) = none := by
    have hlast := hist.last_sequence
    rw [hs.events, List.getElem?_eq_none (by omega)]
    rfl
  rw [hi.encoded.checkEventAppend_iff hr.policy]
  simp only [ht, forall_const] at htrigger
  rw [← htrigger]
  constructor
  · rintro ⟨t', h⟩
    exact (Tables.insertEvent_eq_ok.mp h).1.1
  · intro hbytes
    exact ⟨_, Tables.insertEvent_eq_ok.mpr ⟨⟨hbytes, hnew⟩, rfl⟩⟩

/-! ### Calls that the database does not abort -/

/-- The computation does not end in an error of the database. -/
def Quiet {α : Type} (x : Except LifecycleFault α) : Prop := ∀ message, x ≠ .error (.database message)

namespace Quiet

variable {α β : Type}

theorem of_ok {x : Except LifecycleFault α} {a : α} (h : x = .ok a) : Quiet x := by
  intro message herror
  rw [h] at herror
  cases herror

theorem bind {x : Except LifecycleFault α} {f : α → Except LifecycleFault β} (hx : Quiet x)
    (hf : ∀ a, x = .ok a → Quiet (f a)) : Quiet (x >>= f) := by
  intro message herror
  rcases bind_eq_error.mp herror with hfirst | ⟨a, ha, hrest⟩
  · exact hx message hfirst
  · exact hf a ha message hrest

theorem rejected (b : Bool) (text : String) : Quiet (require b (.rejected text)) := by
  intro message herror
  cases (require_eq_error.mp herror).2

theorem capacity (b : Bool) (text : String) : Quiet (require b (.capacity text)) := by
  intro message herror
  cases (require_eq_error.mp herror).2

theorem scope (key : Key) : Quiet (scope key) :=
  (rejected _ _).bind fun _ _ => rejected _ _

end Quiet

theorem quiet_checkEventAppend (hi : Inv cfg w) (hr : Room w.tables) (raw : List Char) (d : ℤ) :
    Quiet (w.tables.checkEventAppend .sqlite raw d) := by
  have hcap : w.tables.eventPolicy = .ok w.tables.maxBytes := by
    simp [Tables.eventPolicy, require, hr.policy.1, hr.policy.2]
  refine (Quiet.rejected _ _).bind fun _ _ => ?_
  refine (Quiet.of_ok hi.encoded.usage_sqlite).bind fun _ _ => ?_
  exact (Quiet.of_ok hcap).bind fun _ _ => Quiet.capacity _ _

theorem quiet_current (hi : Inv cfg w) (key : Key) : Quiet (w.tables.current key) := by
  cases hrow : w.tables.snapshots.lookup key with
  | none =>
    intro message herror
    unfold Tables.current at herror
    rw [hrow] at herror
    cases herror
  | some row =>
    obtain ⟨hist, hs, -⟩ := hi.stored key row hrow
    exact Quiet.of_ok (current_stored hrow hs)

/-- Once its parameters are bound, the database does not abort a `create`. -/
theorem quiet_create (hb : cfg.backend = .sqlite) (ht : cfg.tenant = true) (hi : Inv cfg w)
    (hr : Room w.tables) (owner : PyString) (task : TaskLifecycle)
    (hbind : Tables.bindKey cfg.backend (owner, task.1.taskId) = .ok ()) :
    Quiet (w.tables.create cfg owner task) := by
  have hcap : w.tables.historyPolicy = .ok w.tables.maxTasks := by
    simp [Tables.historyPolicy, require, hi.policy.1, hi.policy.2]
  refine (Quiet.rejected _ _).bind fun _ hnew => (Quiet.scope _).bind fun _ _ => ?_
  refine (Quiet.of_ok hbind).bind fun _ _ => (Quiet.rejected _ _).bind fun _ hfresh => ?_
  refine (Quiet.of_ok hcap).bind fun cap hcap' => (Quiet.capacity _ _).bind fun _ hroom => ?_
  refine (Quiet.capacity _ _).bind fun _ _ => ?_
  rw [hb]
  refine (quiet_checkEventAppend hi hr _ _).bind fun _ hbytes => ?_
  simp only [require_eq_ok, Bool.and_eq_true, decide_eq_true_eq] at hnew hroom
  obtain rfl : w.tables.maxTasks = cap := Except.ok.inj (hcap.symm.trans hcap')
  have hopen : task.1.isTerminal = false := by
    rw [Snapshot.isTerminal, hnew.1]
    rfl
  have hfits : Fits w.tables task.1 := (hi.encoded.checkEventAppend_iff hr.policy).mp hbytes
  have hfree := Option.isNone_iff_eq_none.mp (require_eq_ok.mp hfresh)
  obtain ⟨t', hinserts⟩ := (createInserts_iff hb ht hi hr hopen).mpr ⟨hfree, hroom, hfits⟩
  exact Quiet.of_ok hinserts

/-- Once its parameters are bound, the database does not abort a `transition`. -/
theorem quiet_transition (hb : cfg.backend = .sqlite) (ht : cfg.tenant = true) (hi : Inv cfg w)
    (hr : Room w.tables) (key : Key) (newState : TaskState) (expectedSequence : ℤ)
    (hbind : Tables.bindKey cfg.backend key = .ok ()) :
    Quiet (w.tables.transition cfg key newState expectedSequence) := by
  refine (Quiet.scope _).bind fun _ _ => (Quiet.rejected _ _).bind fun _ _ => ?_
  refine (Quiet.of_ok hbind).bind fun _ _ => ?_
  refine (quiet_current hi key).bind fun current hcurrent => ?_
  refine (Quiet.rejected _ _).bind fun _ _ => ?_
  have hlegal : Quiet (current.transition newState (current.sequence + 1)) :=
    (Quiet.rejected _ _).bind fun _ _ => (Quiet.rejected _ _).bind fun _ _ => Quiet.of_ok rfl
  refine hlegal.bind fun updated hnext => (Quiet.capacity _ _).bind fun _ _ => ?_
  rw [hb]
  refine (quiet_checkEventAppend hi hr _ _).bind fun _ hbytes => ?_
  obtain ⟨t', hinsert⟩ := (insertEvent_iff hb ht hi hr hcurrent hnext).mpr hbytes
  exact (Quiet.of_ok hinsert).bind fun _ _ => Quiet.of_ok rfl

end Tenant

/-- **In every reachable state of a tenant's SQLite store the triggers admit exactly what the
checks accept.** A `create` or `transition` whose parameters can be bound is never aborted by the
database, and the same rows inserted without the checks are admitted in the same cases. -/
theorem guards_agree_with_checks (cfg : Config) (hb : cfg.backend = .sqlite)
    (ht : cfg.tenant = true) (maxBytes : ℕ) (hlo : 4096 ≤ maxBytes) (hhi : maxBytes ≤ 1073741824)
    (w : World) (h : (system cfg).Reachable (World.initial maxBytes) w) :
    (∀ (owner : PyString) (task : TaskLifecycle), task.1.state = .submitted →
      ((∃ t', w.tables.createInserts cfg (owner, task.1.taskId) (encode task.1) = .ok t') ↔
        w.tables.snapshots.lookup (owner, task.1.taskId) = none ∧
          w.tables.createChecks .sqlite task.1 = .ok ())) ∧
    (∀ (key : Key) (current updated : Snapshot) (newState : TaskState),
      w.tables.current key = .ok current →
      current.transition newState (current.sequence + 1) = .ok updated →
      ((∃ t', w.tables.insertEvent cfg key updated.sequence (encode updated) = .ok t') ↔
        w.tables.checkEventAppend .sqlite (encode updated)
          ((eventReserve updated.state : ℤ) - eventReserve current.state) = .ok ())) ∧
    (∀ (owner : PyString) (task : TaskLifecycle),
      Tables.bindKey cfg.backend (owner, task.1.taskId) = .ok () →
      ∀ message, w.tables.create cfg owner task ≠ .error (.database message)) ∧
    (∀ (key : Key) (newState : TaskState) (expectedSequence : ℤ),
      Tables.bindKey cfg.backend key = .ok () →
      ∀ message, w.tables.transition cfg key newState expectedSequence ≠
        .error (.database message)) := by
  have hi := Inv.reachable h
  have hr := Room.reachable hlo hhi h
  refine ⟨fun owner task hstate => ?_, fun key current updated newState hcurrent hnext => ?_,
    quiet_create hb ht hi hr, quiet_transition hb ht hi hr⟩
  · have hopen : task.1.isTerminal = false := by
      rw [Snapshot.isTerminal, hstate]
      rfl
    rw [createInserts_iff hb ht hi hr hopen, createChecks_iff hi hr]
  · exact insertEvent_iff hb ht hi hr hcurrent hnext

/-- The task of the full store, which waits for input, and its next snapshot. -/
def sampleWaiting : Snapshot := { sampleTask.1 with state := .inputRequired, sequence := 1 }

@[inherit_doc sampleWaiting]
def sampleNext (state : TaskState) : Snapshot := { sampleTask.1 with state, sequence := 2 }

/-- In the full store, an older worker cannot resume the waiting task, but it can cancel it. -/
theorem sample_guards_agree :
    (¬∃ t', fullWorld.tables.insertEvent sampleConfig sampleKey (sampleNext .working).sequence
      (encode (sampleNext .working)) = .ok t') ∧
    ∃ t', fullWorld.tables.insertEvent sampleConfig sampleKey (sampleNext .canceled).sequence
      (encode (sampleNext .canceled)) = .ok t' := by
  have hagree := (guards_agree_with_checks sampleConfig rfl rfl 20480 (by decide) (by decide)
    fullWorld (LTS.reachable_drive _ _ _)).2.1
  have hcurrent : fullWorld.tables.current sampleKey = .ok sampleWaiting :=
    toOption_eq_some.mp (by decide +kernel)
  constructor
  · intro hinsert
    have hcheck := (hagree sampleKey sampleWaiting (sampleNext .working) .working hcurrent
      rfl).mp hinsert
    revert hcheck
    decide +kernel
  · refine (hagree sampleKey sampleWaiting (sampleNext .canceled) .canceled hcurrent rfl).mpr ?_
    decide +kernel

end AgentBridge.Durable
