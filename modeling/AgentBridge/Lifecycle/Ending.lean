import AgentBridge.Lifecycle.History

/-!
# A task can always be ended

The event bytes are shared by all owners. Every task that is not finished reserves room: 8192
bytes while it is submitted or working, for one wait and one terminal event, and 4096 bytes while
it waits, for the terminal event. Bytes used and bytes reserved never exceed the limit, and every
event fits 4096 bytes, so the reservation of a task pays for its end however full the store is.

The reservation does not pay for a return to `working`: that call must find 8192 bytes again, and
in a full store it is refused.

* `task_can_be_ended` : **on SQLite every unfinished task can be cancelled or failed, in every
  reachable state.**
-/

namespace AgentBridge.Durable

open JsonText Except

/-! ### Reservations of stored rows -/

theorem isWaiting_stateText (state : TaskState) :
    isWaiting (.ofString (stateText state)) =
      decide (state = .inputRequired ∨ state = .authRequired) := by
  cases state <;> decide +kernel

/-- The row of a snapshot reserves what `_event_reserve` says. -/
theorem reserve_encode (s : Snapshot) :
    Row.reserve ⟨encode s, s.isTerminal⟩ = eventReserve s.state := by
  simp only [Row.reserve, parse_encode, Option.elim_some, Snapshot.fields, isWaiting_stateText,
    decide_eq_true_eq, Snapshot.isTerminal, eventReserve]

theorem storedState_encode (s : Snapshot) :
    storedState .sqlite (encode s) = .ok (.ofString (stateText s.state)) := by
  simp only [storedState, parse_encode]
  rfl

theorem reserveSql_encode (s : Snapshot) :
    reserveSql .sqlite ⟨encode s, s.isTerminal⟩ = .ok (eventReserve s.state) := by
  unfold reserveSql eventReserve
  rw [storedState_encode]
  show (if s.state.isTerminal = true then _ else _) = _
  by_cases hterminal : s.state.isTerminal = true
  · rw [if_pos hterminal, if_pos hterminal]
  · rw [if_neg hterminal, if_neg hterminal]
    show Except.ok _ = _
    simp only [isWaiting_stateText, decide_eq_true_eq]

/-- The trigger reads the same reservation off the text of the event alone. -/
theorem reserveAfter_encode (s : Snapshot) :
    Tables.reserveAfter .sqlite (encode s) = .ok (eventReserve s.state) := by
  have hterminal : ([.completed, .failed, .canceled, .rejected].any fun x =>
      decide (PyString.ofString (stateText s.state) = .ofString (stateText x))) =
        s.state.isTerminal := by
    cases s.state <;> decide +kernel
  unfold Tables.reserveAfter eventReserve
  rw [storedState_encode]
  show Except.ok _ = _
  simp only [hterminal, isWaiting_stateText, decide_eq_true_eq]

namespace Tables

variable {t : Tables} {key : Key} {n : ℕ}

theorem append_used (row : Row) (hnew : t.events.lookup (key, n) = none) :
    (t.append key n row).used = byteLength row.raw + t.used :=
  Table.sum_insert _ hnew

theorem append_control_new (row : Row) (hnew : t.snapshots.lookup key = none) :
    (t.append key n row).control = row.reserve + t.control :=
  Table.sum_insert _ hnew

theorem append_control {old : Row} (row : Row) (hold : t.snapshots.lookup key = some old) :
    old.reserve + (t.append key n row).control = row.reserve + t.control :=
  Table.sum_insert_some (fun _ row => row.reserve) row hold

end Tables

/-! ### The byte limit -/

/-- Bytes used and reserved stay below the limit, and the limit in its range. -/
structure Room (t : Tables) : Prop where
  fits : t.used + t.control ≤ t.maxBytes
  policy : 4096 ≤ t.maxBytes ∧ t.maxBytes ≤ 1073741824

theorem Room.initial {maxBytes : ℕ} (hlo : 4096 ≤ maxBytes) (hhi : maxBytes ≤ 1073741824) :
    Room (World.initial maxBytes).tables where
  fits := Nat.zero_le _
  policy := ⟨hlo, hhi⟩

theorem Room.exec {cfg : Config} {w w' : World} {a : Action} (hi : Inv cfg w)
    (hr : Room w.tables) (h : exec cfg w a = .ok w') : Room w'.tables := by
  rcases step_cases h with ⟨owner, task, -, hc, -⟩ | ⟨key, newState, e, updated, -, hm, -⟩ |
    ⟨n, -, -, -, -, rfl⟩ | ⟨n, -, hlo, hhi, hfits, rfl⟩
  · have hopen : task.1.isTerminal = false := by
      rw [Snapshot.isTerminal, hc.submitted]
      rfl
    have hown := reserve_encode task.1
    rw [hopen, hc.submitted, show eventReserve .submitted = 8192 by decide] at hown
    have hused := Tables.append_used ⟨encode task.1, false⟩ hc.unlogged
    have hcontrol := Tables.append_control_new (n := 0) ⟨encode task.1, false⟩ hc.fresh
    have hbytes := hc.bytes
    rw [hc.result]
    refine ⟨?_, hr.policy⟩
    rw [hused, hcontrol, hown, Tables.append_maxBytes]
    show byteLength (encode task.1) + w.tables.used + (8192 + w.tables.control) ≤ _
    omega
  · obtain ⟨row, hist, hrow, hs, -, -, -, -, -, -, hbytes⟩ := hi.moved hm
    have hold : row.reserve = eventReserve hist.last.state := by
      rw [hs.row]
      exact reserve_encode _
    have hown := reserve_encode updated
    have hused := Tables.append_used ⟨encode updated, updated.isTerminal⟩ hm.unlogged
    have hcontrol := Tables.append_control (n := updated.sequence)
      ⟨encode updated, updated.isTerminal⟩ hrow
    rw [hold, hown] at hcontrol
    rw [hm.result]
    refine ⟨?_, hr.policy⟩
    rw [hused, Tables.append_maxBytes]
    show byteLength (encode updated) + w.tables.used + _ ≤ _
    omega
  · exact ⟨hr.fits, hr.policy⟩
  · exact ⟨hfits, hlo, hhi⟩

theorem Room.reachable {cfg : Config} {maxBytes : ℕ} (hlo : 4096 ≤ maxBytes)
    (hhi : maxBytes ≤ 1073741824) {w : World}
    (h : (system cfg).Reachable (World.initial maxBytes) w) : Room w.tables := by
  -- the byte limit leans on the histories, so both go through the induction together
  have hboth : Inv cfg w ∧ Room w.tables := by
    refine LTS.Reachable.invariant (I := fun w => Inv cfg w ∧ Room w.tables) h
      ⟨Inv.initial cfg maxBytes, Room.initial hlo hhi⟩ ?_
    rintro s a s' ⟨hi, hr⟩ hstep
    exact ⟨hi.exec hstep, hr.exec hi hstep⟩
  exact hboth.2

/-! ### Calls that succeed -/

/-- What a reservation pays for: a terminal event, or a wait out of a state that is not one. -/
theorem eventReserve_covers {s s' : TaskState} (h : s' ∈ s.successors) (hne : s' ≠ .working) :
    4096 + eventReserve s' ≤ eventReserve s := by
  revert h hne
  cases s <;> cases s' <;> decide

section Sqlite

variable {cfg : Config} {w : World} {key : Key} {row : Row} {hist : History}

def Tables.Encoded (t : Tables) : Prop :=
  ∀ key row, t.snapshots.lookup key = some row → ∃ s : Snapshot, row = ⟨encode s, s.isTerminal⟩

theorem Inv.encoded (hi : Inv cfg w) : w.tables.Encoded := by
  intro key row hrow
  obtain ⟨hist, hs, -⟩ := hi.stored key row hrow
  exact ⟨hist.last, hs.row⟩

namespace Tables.Encoded

variable {t : Tables} {raw : List Char} {d : ℤ}

theorem usage_sqlite (he : t.Encoded) : t.usage .sqlite = .ok (t.used, t.control) := by
  have hrows : ∀ e ∈ t.snapshots.entries, reserveSql .sqlite e.2 = .ok e.2.reserve := by
    rintro ⟨k, r⟩ hmem
    obtain ⟨s, rfl⟩ := he k r (AList.mem_lookup_iff.mpr hmem)
    rw [reserveSql_encode, reserve_encode]
  have hall : t.snapshots.entries.mapM (fun e => reserveSql .sqlite e.2) =
      .ok (t.snapshots.entries.map fun e => e.2.reserve) := mapM_of_ok hrows
  unfold Tables.usage Tables.reserved
  rw [hall]
  rfl

/-- When the call's own check accepts. -/
theorem checkEventAppend_iff (he : t.Encoded)
    (hpolicy : 4096 ≤ t.maxBytes ∧ t.maxBytes ≤ 1073741824) :
    t.checkEventAppend .sqlite raw d = .ok () ↔ byteLength raw ≤ 4096 ∧
      ((t.used + byteLength raw + t.control : ℕ) : ℤ) + d ≤ t.maxBytes := by
  refine ⟨checkEventAppend_ok, fun ⟨hsize, hfits⟩ => ?_⟩
  have hcap : t.eventPolicy = .ok t.maxBytes := by
    simp [Tables.eventPolicy, require, hpolicy.1, hpolicy.2]
  refine bind_eq_ok.mpr ⟨(), require_eq_ok.mpr (decide_eq_true hsize), ?_⟩
  refine bind_eq_ok.mpr ⟨_, he.usage_sqlite, ?_⟩
  refine bind_eq_ok.mpr ⟨_, hcap, ?_⟩
  exact require_eq_ok.mpr (decide_eq_true hfits)

/-- When the trigger accepts: it applies the same law, in a tenant's store only. -/
theorem byteTrigger_iff {cfg : Config} (hb : cfg.backend = .sqlite) (he : t.Encoded)
    (hpolicy : 4096 ≤ t.maxBytes ∧ t.maxBytes ≤ 1073741824)
    {adjustment : Except LifecycleFault ℤ} (had : adjustment = .ok d) :
    t.byteTrigger cfg raw adjustment = .ok () ↔ (cfg.tenant = true → byteLength raw ≤ 4096 ∧
      ((t.used + byteLength raw + t.control : ℕ) : ℤ) + d ≤ t.maxBytes) := by
  have hsum : ((t.used + t.control + byteLength raw : ℕ) : ℤ) + d =
      ((t.used + byteLength raw + t.control : ℕ) : ℤ) + d := by
    rw [Nat.add_right_comm]
  unfold Tables.byteTrigger
  by_cases ht : cfg.tenant = true
  · simp only [ht, if_true, hb, he.usage_sqlite, had, ok_bind, require_eq_ok, hpolicy.1,
      Bool.and_eq_true, decide_eq_true_eq, hsum, true_and, forall_const]
  · simp only [ht, if_false, Bool.false_eq_true, false_implies]

end Tables.Encoded

theorem eventAdjustment_sqlite (hrow : w.tables.snapshots.lookup key = some row)
    (hs : Stored w.tables key row hist) (s : Snapshot) :
    w.tables.eventAdjustment .sqlite key (encode s) =
      .ok ((eventReserve s.state : ℤ) - eventReserve hist.last.state) := by
  have hprior : w.tables.reservePrior .sqlite key = .ok (eventReserve hist.last.state) := by
    unfold Tables.reservePrior
    rw [hrow, hs.row]
    exact reserveSql_encode _
  refine bind_eq_ok.mpr ⟨_, reserveAfter_encode s, ?_⟩
  exact bind_eq_ok.mpr ⟨_, hprior, rfl⟩

theorem current_stored (hrow : w.tables.snapshots.lookup key = some row)
    (hs : Stored w.tables key row hist) : w.tables.current key = .ok hist.last := by
  unfold Tables.current
  rw [hrow, hs.row]
  exact hist.decode_last

/-- **A transition that its reservation pays for is not refused.** -/
theorem transition_succeeds (hb : cfg.backend = .sqlite) (hi : Inv cfg w) (hr : Room w.tables)
    (hrow : w.tables.snapshots.lookup key = some row) (hs : Stored w.tables key row hist)
    {newState : TaskState} (hlegal : newState ∈ hist.last.state.successors)
    (hne : newState ≠ .working)
    (hroom : newState.isTerminal = true ∨ hist.log.length < cfg.maxEvents - 1) :
    ∃ t', w.tables.transition cfg key newState hist.last.sequence =
      .ok ({ hist.last with state := newState, sequence := hist.last.sequence + 1 }, t') := by
  set s : Snapshot := { hist.last with state := newState, sequence := hist.last.sequence + 1 }
    with hsdef
  obtain ⟨hscope, hbind⟩ := hi.keys key row hrow
  obtain ⟨hist', hs', hle, hopen⟩ := hi.stored key row hrow
  have hmax := cfg.maxEvents_bounds
  -- the invariant speaks of its own history of this task, which has the same length
  have hsame : hist'.log.length = hist.log.length := by rw [← hs.count, ← hs'.count]
  have hflag : hist'.last.isTerminal = hist.last.isTerminal := by
    have heq := hs'.row.symm.trans hs.row
    exact (Row.mk.injEq _ _ _ _ ▸ heq).2
  have hlast : hist.last.isTerminal = false := isTerminal_of_mem_successors hlegal
  have hslots : hist.log.length ≤ cfg.maxEvents - 1 := by
    rw [← hsame]
    exact hopen (hflag.trans hlast)
  have hseq := hist.last_sequence
  have hexpected : (0 : ℤ) ≤ hist.last.sequence ∧ (hist.last.sequence : ℤ) < 2 ^ 63 - 1 := by
    constructor <;> omega
  have hnext : hist.last.transition newState (hist.last.sequence + 1) = .ok s := by
    simp [Snapshot.transition, require, hlegal, hsdef]
  have hslot : w.tables.hasRoom cfg key s = true := by
    simp only [Tables.hasRoom, hs.count, Bool.and_eq_true, Bool.or_eq_true, decide_eq_true_eq]
    exact ⟨by omega, hroom⟩
  have hcheck : s.check = .ok () := (hist.stored _ hist.last_mem).1
  have hsize : byteLength (encode s) ≤ 4096 := by
    refine byteLength_encode_le hcheck ?_
    show hist.last.sequence + 1 < 10 ^ 19
    omega
  have hfits : ((w.tables.used + byteLength (encode s) + w.tables.control : ℕ) : ℤ) +
      ((eventReserve s.state : ℤ) - eventReserve hist.last.state) ≤ w.tables.maxBytes := by
    have hcover : 4096 + eventReserve s.state ≤ eventReserve hist.last.state :=
      eventReserve_covers hlegal hne
    have := hr.fits
    omega
  have happend := (hi.encoded.checkEventAppend_iff hr.policy).mpr ⟨hsize, hfits⟩
  have hnew : w.tables.events.lookup (key, s.sequence) = none := by
    rw [hs.events, List.getElem?_eq_none (by show hist.log.length ≤ hist.last.sequence + 1; omega)]
    rfl
  have hinsert : w.tables.insertEvent cfg key s.sequence (encode s) =
      .ok { w.tables with events := w.tables.events.insert (key, s.sequence) (encode s) } := by
    have hadjust : w.tables.eventAdjustment cfg.backend key (encode s) =
        .ok ((eventReserve s.state : ℤ) - eventReserve hist.last.state) := by
      rw [hb]
      exact eventAdjustment_sqlite hrow hs s
    have htrigger := (hi.encoded.byteTrigger_iff hb hr.policy hadjust).mpr fun _ => ⟨hsize, hfits⟩
    refine bind_eq_ok.mpr ⟨(), htrigger, ?_⟩
    exact bind_eq_ok.mpr ⟨_, Table.insertNew_eq_ok.mpr ⟨hnew, rfl⟩, rfl⟩
  refine ⟨w.tables.append key s.sequence ⟨encode s, s.isTerminal⟩, ?_⟩
  refine bind_eq_ok.mpr ⟨(), hscope, ?_⟩
  refine bind_eq_ok.mpr ⟨(), require_eq_ok.mpr (decide_eq_true hexpected), ?_⟩
  refine bind_eq_ok.mpr ⟨(), hbind, ?_⟩
  refine bind_eq_ok.mpr ⟨_, current_stored hrow hs, ?_⟩
  refine bind_eq_ok.mpr ⟨(), require_eq_ok.mpr (decide_eq_true rfl), ?_⟩
  refine bind_eq_ok.mpr ⟨s, hnext, ?_⟩
  refine bind_eq_ok.mpr ⟨(), require_eq_ok.mpr hslot, ?_⟩
  refine bind_eq_ok.mpr ⟨(), by rw [hb]; exact happend, ?_⟩
  exact bind_eq_ok.mpr ⟨_, hinsert, rfl⟩

end Sqlite

theorem mem_successors_of_open {s : TaskState} (h : s.isTerminal = false) :
    .canceled ∈ s.successors ∧ .failed ∈ s.successors := by
  cases s <;> first | decide | cases h

/-- **On SQLite every unfinished task can be cancelled or failed, in every reachable state**, with
or without the triggers of a tenant. Bytes used and reserved never exceed the limit; a reservation
pays for every legal terminal event and, while an event slot is left, for a wait before it. -/
theorem task_can_be_ended (cfg : Config) (hb : cfg.backend = .sqlite) (maxBytes : ℕ)
    (hlo : 4096 ≤ maxBytes) (hhi : maxBytes ≤ 1073741824) (w : World)
    (h : (system cfg).Reachable (World.initial maxBytes) w) :
    (∃ used reserved, w.tables.usage .sqlite = .ok (used, reserved) ∧
      used + reserved ≤ w.tables.maxBytes) ∧
    ∀ key row, w.tables.snapshots.lookup key = some row → row.terminal = false →
      ∃ cur : Snapshot, w.tables.get cfg key = .ok cur ∧
        (∃ t', w.tables.cancel cfg key cur.sequence =
          .ok ({ cur with state := .canceled, sequence := cur.sequence + 1 }, t')) ∧
        (∃ t', w.tables.transition cfg key .failed cur.sequence =
          .ok ({ cur with state := .failed, sequence := cur.sequence + 1 }, t')) ∧
        (∀ s ∈ cur.state.successors, s.isTerminal = true →
          ∃ x, w.tables.transition cfg key s cur.sequence = .ok x) ∧
        (∀ s ∈ cur.state.successors, s ≠ .working →
          w.tables.eventCount key < cfg.maxEvents - 1 →
          ∃ x, w.tables.transition cfg key s cur.sequence = .ok x) := by
  have hi := Inv.reachable h
  have hr := Room.reachable hlo hhi h
  refine ⟨⟨_, _, hi.encoded.usage_sqlite, hr.fits⟩, fun key row hrow hopen => ?_⟩
  obtain ⟨hist, hs, -, -⟩ := hi.stored key row hrow
  obtain ⟨hscope, hbind⟩ := hi.keys key row hrow
  have hlast : hist.last.state.isTerminal = false := by
    rw [hs.row] at hopen
    exact hopen
  obtain ⟨hcanceled, hfailed⟩ := mem_successors_of_open hlast
  have hget : w.tables.get cfg key = .ok hist.last := by
    refine bind_eq_ok.mpr ⟨(), hscope, ?_⟩
    exact bind_eq_ok.mpr ⟨(), hbind, current_stored hrow hs⟩
  refine ⟨hist.last, hget, ?_, ?_, fun s hmem hterminal => ?_, fun s hmem hne hcount => ?_⟩
  · exact transition_succeeds hb hi hr hrow hs hcanceled (by decide) (.inl rfl)
  · exact transition_succeeds hb hi hr hrow hs hfailed (by decide) (.inl rfl)
  · have hne : s ≠ .working := by
      rintro rfl
      cases hterminal
    obtain ⟨t', ht'⟩ := transition_succeeds hb hi hr hrow hs hmem hne (.inl hterminal)
    exact ⟨_, ht'⟩
  · rw [hs.count] at hcount
    obtain ⟨t', ht'⟩ := transition_succeeds hb hi hr hrow hs hmem hne (.inr hcount)
    exact ⟨_, ht'⟩

/-- A task waits for input in a store that is then filled to the last byte. -/
def fullWorld : World :=
  LTS.drive (exec sampleConfig) (World.initial 20480)
    [.create sampleKey.1 sampleTask, .transition sampleKey .inputRequired 0,
      .setEventCapacity 4305]

/-- In the full store the waiting task can still be cancelled. -/
theorem sample_full_store_task_ends :
    (fullWorld.tables.used + fullWorld.tables.control = fullWorld.tables.maxBytes ∧
      fullWorld.tables.snapshots.lookup sampleKey ≠ none) ∧
    ∃ cur : Snapshot, fullWorld.tables.get sampleConfig sampleKey = .ok cur ∧
      ∃ x, fullWorld.tables.cancel sampleConfig sampleKey cur.sequence = .ok x := by
  refine ⟨by decide +kernel, ?_⟩
  have hrow : (fullWorld.tables.snapshots.lookup sampleKey).map Row.terminal = some false := by
    decide +kernel
  obtain ⟨row, hrow, hopen⟩ := Option.map_eq_some_iff.mp hrow
  obtain ⟨cur, hget, ⟨t', hcancel⟩, -⟩ := (task_can_be_ended sampleConfig rfl 20480 (by decide)
    (by decide) fullWorld (LTS.reachable_drive _ _ _)).2 sampleKey row hrow hopen
  exact ⟨cur, hget, _, hcancel⟩

/-- **A full store refuses to resume a waiting task**, although `working` is a legal successor that
leads to `completed`: the reservation of a wait covers its end only. -/
theorem resume_is_not_reserved :
    (system sampleConfig).Reachable (World.initial 20480) fullWorld ∧
    (∃ cur : Snapshot, fullWorld.tables.get sampleConfig sampleKey = .ok cur ∧
      cur.state = .inputRequired ∧ cur.sequence = 1) ∧
    .working ∈ TaskState.inputRequired.successors ∧
    .completed ∈ TaskState.working.successors ∧
    fullWorld.tables.transition sampleConfig sampleKey .working 1 = .error (.capacity
      "event-byte capacity reached; recovery and terminal capacity are reserved") := by
  refine ⟨LTS.reachable_drive _ _ _, ?_, by decide, by decide, ?_⟩
  · have hget : (fullWorld.tables.get sampleConfig sampleKey).toOption.map
        (fun cur => (cur.state, cur.sequence)) = some (.inputRequired, 1) := by
      decide +kernel
    obtain ⟨cur, hcur, heq⟩ := Option.map_eq_some_iff.mp hget
    rw [Prod.mk.injEq] at heq
    exact ⟨cur, toOption_eq_some.mp hcur, heq⟩
  · refine error?_eq_some.mp ?_
    decide +kernel

end AgentBridge.Durable
