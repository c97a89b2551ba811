import Mathlib.Data.List.Chain
import AgentBridge.Lifecycle.Effects

/-!
# The history of a task is a replayable log

Snapshot, events, counts and the terminal flag are separate rows, written by calls that race for
the same sequence number. They always describe one `History`: a list of snapshots that starts
submitted, is numbered from zero, and in which every entry is a legal transition of the entry
before it.

A call reads the last entry back from the stored text, so the entries are in the normal form of
`json.loads`.

* `history_replayable` : **the rows of every task are a log that can be replayed, no sequence
  number is won twice, and the limits hold.**
-/

namespace AgentBridge.Durable

open JsonText List Table

/-! ### Histories -/

/-- `s'` is a legal next event after `s`. -/
structure Follows (s s' : Snapshot) : Prop where
  legal : s'.state ∈ s.state.successors
  taskId : s'.taskId = s.taskId
  contextId : s'.contextId = s.contextId
  sourceProtocol : s'.sourceProtocol = s.sourceProtocol

theorem isTerminal_of_mem_successors {s s' : TaskState} (h : s' ∈ s.successors) :
    s.isTerminal = false := by
  cases s <;> first | rfl | cases h

theorem Snapshot.transition_ok {s s' : Snapshot} {newState : TaskState} {n : ℕ}
    (h : s.transition newState n = .ok s') :
    newState ∈ s.state.successors ∧ s' = { s with state := newState, sequence := n } := by
  simp only [Snapshot.transition, Except.bind_eq_ok, require_eq_ok, decide_eq_true_eq,
    contains_iff_mem, Except.pure_eq_ok] at h
  obtain ⟨-, -, -, hlegal, rfl⟩ := h
  exact ⟨hlegal, rfl⟩

/-- A well-formed history of one task. -/
structure History where
  log : List Snapshot
  ne : log ≠ []
  first : (log.head ne).state = .submitted
  numbered : ∀ (i : ℕ) (s : Snapshot), log[i]? = some s → s.sequence = i
  chain : log.IsChain Follows
  /-- Every entry can be stored and is read back as it is. -/
  stored : ∀ s ∈ log, s.check = .ok () ∧ s.norm = s

namespace History

variable (h : History)

/-- The newest entry. -/
def last : Snapshot := h.log.getLast h.ne

theorem last_mem : h.last ∈ h.log := getLast_mem h.ne

theorem getLast? : h.log.getLast? = some h.last := getLast?_eq_some_getLast h.ne

theorem last_sequence : h.last.sequence + 1 = h.log.length := by
  have hpos : 0 < h.log.length := length_pos_of_ne_nil h.ne
  have hget : h.log[h.log.length - 1]? = some h.last := by
    rw [← getLast?_eq_getElem?]
    exact h.getLast?
  have := h.numbered _ _ hget
  omega

theorem decode_last : decode (encode h.last) = .ok h.last := by
  obtain ⟨hcheck, hnorm⟩ := h.stored _ h.last_mem
  rw [decode_encode hcheck, hnorm]

/-- Nothing follows a terminal event. -/
theorem terminal_last {i : ℕ} {s : Snapshot} (hs : h.log[i]? = some s)
    (hterminal : s.isTerminal = true) : i + 1 = h.log.length := by
  obtain ⟨hi, rfl⟩ := List.getElem?_eq_some_iff.mp hs
  by_contra hne
  have hnext : i + 1 < h.log.length := by omega
  have hfollows := isChain_iff_getElem.mp h.chain i hnext
  have hopen := isTerminal_of_mem_successors hfollows.legal
  rw [Snapshot.isTerminal, hopen] at hterminal
  cases hterminal

/-- The history of a new task. -/
def start (task : TaskLifecycle) (hstate : task.1.state = .submitted)
    (hzero : task.1.sequence = 0) : History where
  log := [task.1.norm]
  ne := cons_ne_nil _ _
  first := hstate
  numbered i s hs := by
    cases i with
    | zero =>
      cases hs
      exact hzero
    | succ i => cases hs
  chain := isChain_singleton _
  stored s hs := by
    rw [mem_singleton] at hs
    subst hs
    exact ⟨Snapshot.check_norm task.2, task.1.norm_norm⟩

/-- The history after one more event. -/
def append (s : Snapshot) (hfollows : Follows h.last s)
    (hseq : s.sequence = h.last.sequence + 1) (hstored : s.check = .ok () ∧ s.norm = s) :
    History where
  log := h.log ++ [s]
  ne := append_ne_nil_of_left_ne_nil h.ne _
  first := by
    rw [head_append_of_ne_nil h.ne]
    exact h.first
  numbered i s' hs' := by
    rcases lt_trichotomy i h.log.length with hi | hi | hi
    · rw [getElem?_append_left hi] at hs'
      exact h.numbered i s' hs'
    · subst hi
      rw [getElem?_concat_length] at hs'
      cases hs'
      rw [hseq, h.last_sequence]
    · rw [getElem?_eq_none (by simp only [length_append, length_singleton]; omega)]
        at hs'
      cases hs'
  chain := by
    refine isChain_append.mpr ⟨h.chain, isChain_singleton _, fun x hx y hy => ?_⟩
    rw [h.getLast?] at hx
    cases hx
    cases hy
    exact hfollows
  stored s' hs' := by
    rcases mem_append.mp hs' with hold | hnew
    · exact h.stored s' hold
    · rw [mem_singleton] at hnew
      subst hnew
      exact hstored

@[simp] theorem append_last {s : Snapshot} (hfollows : Follows h.last s)
    (hseq : s.sequence = h.last.sequence + 1) (hstored : s.check = .ok () ∧ s.norm = s) :
    (h.append s hfollows hseq hstored).last = s :=
  getLast_append_singleton _

end History

/-! ### Rows -/

structure Stored (t : Tables) (key : Key) (row : Row) (h : History) : Prop where
  owned : ∀ s ∈ h.log, s.taskId = key.2
  events : ∀ i, t.events.lookup (key, i) = (h.log[i]?).map encode
  count : t.eventCount key = h.log.length
  row : row = ⟨encode h.last, h.last.isTerminal⟩

namespace Tables

variable {t : Tables} {key : Key} {n : ℕ}

@[simp] theorem append_maxTasks (row : Row) : (t.append key n row).maxTasks = t.maxTasks := rfl

@[simp] theorem append_maxBytes (row : Row) : (t.append key n row).maxBytes = t.maxBytes := rfl

theorem append_lookup (row : Row) (key' : Key) :
    (t.append key n row).snapshots.lookup key' =
      if key' = key then some row else t.snapshots.lookup key' :=
  lookup_insert' _ _ _ _

theorem append_event (row : Row) (key' : Key) (i : ℕ) :
    (t.append key n row).events.lookup (key', i) =
      if key' = key ∧ i = n then some row.raw else t.events.lookup (key', i) := by
  have h := lookup_insert' t.events (key, n) (key', i) row.raw
  simp only [Prod.mk.injEq] at h
  exact h

theorem append_eventCount (row : Row) (hnew : t.events.lookup (key, n) = none) (key' : Key) :
    (t.append key n row).eventCount key' = (if key = key' then 1 else 0) + t.eventCount key' := by
  simp only [eventCount, append, entries_insert_new _ hnew, countP_cons,
    decide_eq_true_eq]
  exact Nat.add_comm _ _

theorem eventCount_eq_zero (h : ∀ i, t.events.lookup (key, i) = none) : t.eventCount key = 0 := by
  refine countP_eq_zero.mpr ?_
  rintro ⟨⟨k, i⟩, raw⟩ hmem heq
  have hsome : t.events.lookup (k, i) = some raw := AList.mem_lookup_iff.mpr hmem
  simp only [decide_eq_true_eq] at heq
  rw [heq, h i] at hsome
  cases hsome

theorem active_eq_sum (owner : PyString) :
    t.active owner = Table.sum (fun k row => if k.1 = owner && !row.terminal then 1 else 0)
      t.snapshots :=
  countP_entries _ _

theorem append_active_new (row : Row) (hnew : t.snapshots.lookup key = none) (owner : PyString) :
    (t.append key n row).active owner =
      (if key.1 = owner && !row.terminal then 1 else 0) + t.active owner := by
  rw [active_eq_sum, active_eq_sum]
  exact sum_insert _ hnew

theorem append_active_le {old : Row} (row : Row) (hold : t.snapshots.lookup key = some old)
    (hopen : old.terminal = false) (owner : PyString) :
    (t.append key n row).active owner ≤ t.active owner := by
  have hsum := sum_insert_some
    (fun k row => if k.1 = owner && !row.terminal then 1 else 0) row hold
  have hle : (if key.1 = owner && !row.terminal then 1 else 0) ≤
      if key.1 = owner && !old.terminal then 1 else 0 := by
    rw [hopen]
    cases row.terminal <;> simp
  rw [active_eq_sum, active_eq_sum]
  exact le_of_add_le_add_left (hsum.le.trans (Nat.add_le_add_right hle _))

theorem append_historyCount_new (row : Row) (hnew : t.snapshots.lookup key = none) :
    (t.append key n row).historyCount = t.historyCount + 1 := by
  simp only [historyCount, Table.size, append, entries_insert_new _ hnew, length_cons]

theorem append_historyCount {old : Row} (row : Row) (hold : t.snapshots.lookup key = some old) :
    (t.append key n row).historyCount = t.historyCount := by
  have hsum := sum_insert_some (fun _ _ => 1) row hold
  rw [← size_eq_sum, ← size_eq_sum] at hsum
  exact Nat.add_left_cancel hsum

end Tables

namespace Stored

variable {t : Tables} {key : Key} {row : Row} {h : History}

/-- The rows of another task stay as they are. -/
theorem append_ne (hs : Stored t key row h) {key' : Key} (hne : key ≠ key') {n : ℕ} (row' : Row)
    (hnew : t.events.lookup (key', n) = none) : Stored (t.append key' n row') key row h where
  owned := hs.owned
  events i := by
    rw [Tables.append_event, if_neg (fun heq => hne heq.1)]
    exact hs.events i
  count := by
    rw [Tables.append_eventCount row' hnew, if_neg hne.symm, Nat.zero_add]
    exact hs.count
  row := hs.row

theorem start (task : TaskLifecycle) (hstate : task.1.state = .submitted)
    (hzero : task.1.sequence = 0) (hencodable : task.1.taskId.isEncodable = true)
    {owner : PyString} (hempty : ∀ i, t.events.lookup ((owner, task.1.taskId), i) = none) :
    Stored (t.append (owner, task.1.taskId) 0 ⟨encode task.1, false⟩) (owner, task.1.taskId)
      ⟨encode task.1, false⟩ (History.start task hstate hzero) where
  owned s hs := by
    rw [History.start, mem_singleton] at hs
    rw [hs]
    exact PyString.norm_of_isEncodable hencodable
  events i := by
    rw [Tables.append_event]
    cases i with
    | zero =>
      rw [if_pos ⟨rfl, rfl⟩]
      show some (encode task.1) = some (encode task.1.norm)
      rw [encode_norm]
    | succ i =>
      rw [if_neg (by rintro ⟨-, hi⟩; cases hi)]
      exact hempty _
  count := by
    rw [Tables.append_eventCount _ (hempty 0), if_pos rfl, Tables.eventCount_eq_zero hempty]
    rfl
  row := by
    have hopen : task.1.norm.isTerminal = false := by
      show task.1.state.isTerminal = false
      rw [hstate]
      rfl
    show (⟨encode task.1, false⟩ : Row) = ⟨encode task.1.norm, task.1.norm.isTerminal⟩
    rw [encode_norm, hopen]

/-- A moved task has one entry more. -/
theorem append (hs : Stored t key row h) {s : Snapshot} (hfollows : Follows h.last s)
    (hseq : s.sequence = h.last.sequence + 1) (hstored : s.check = .ok () ∧ s.norm = s) :
    Stored (t.append key s.sequence ⟨encode s, s.isTerminal⟩) key ⟨encode s, s.isTerminal⟩
      (h.append s hfollows hseq hstored) := by
  have hlength : s.sequence = h.log.length := by rw [hseq, h.last_sequence]
  have hnew : t.events.lookup (key, s.sequence) = none := by
    rw [hs.events, hlength, getElem?_eq_none (Nat.le_refl _)]
    rfl
  refine ⟨fun s' hs' => ?_, fun i => ?_, ?_, ?_⟩
  · rcases mem_append.mp hs' with hold | hlast
    · exact hs.owned s' hold
    · rw [mem_singleton.mp hlast, hfollows.taskId]
      exact hs.owned _ h.last_mem
  · rw [Tables.append_event]
    show _ = ((h.log ++ [s])[i]?).map encode
    rcases lt_trichotomy i h.log.length with hi | hi | hi
    · rw [if_neg (by omega), getElem?_append_left hi]
      exact hs.events i
    · rw [if_pos ⟨rfl, by omega⟩, hi, getElem?_concat_length]
      rfl
    · rw [if_neg (by omega), hs.events, getElem?_eq_none (by omega),
        getElem?_eq_none (by simp only [length_append, length_singleton]; omega)]
  · rw [Tables.append_eventCount _ hnew, if_pos rfl, hs.count]
    show 1 + h.log.length = (h.log ++ [s]).length
    rw [length_append, length_singleton, Nat.add_comm]
  · rw [h.append_last]

end Stored

/-! ### The invariant -/

/-- What holds of a lifecycle after every call. -/
structure Inv (cfg : Config) (w : World) : Prop where
  stored : ∀ key row, w.tables.snapshots.lookup key = some row → ∃ h : History,
    Stored w.tables key row h ∧ h.log.length ≤ cfg.maxEvents ∧
      (h.last.isTerminal = false → h.log.length ≤ cfg.maxEvents - 1)
  orphan : ∀ key, w.tables.snapshots.lookup key = none →
    ∀ i, w.tables.events.lookup (key, i) = none
  /-- Every key passed the checks of its call. -/
  keys : ∀ key row, w.tables.snapshots.lookup key = some row →
    scope key = .ok () ∧ Tables.bindKey cfg.backend key = .ok ()
  active : ∀ owner, w.tables.active owner ≤ cfg.maxActive
  history : w.tables.historyCount ≤ w.tables.maxTasks
  policy : 1 ≤ w.tables.maxTasks ∧ w.tables.maxTasks ≤ 1000000
  /-- An accepted sequence number has its event. -/
  accepted : ∀ key e, (key, e) ∈ w.accepted → ∃ n : ℕ, (n : ℤ) = e ∧
    (w.tables.events.lookup (key, n + 1)).isSome = true
  nodup : w.accepted.Nodup

namespace Inv

variable {cfg : Config} {w w' : World}

theorem initial (cfg : Config) (maxBytes : ℕ) : Inv cfg (World.initial maxBytes) where
  stored _ _ h := by cases h
  orphan _ _ _ := rfl
  keys _ _ h := by cases h
  active _ := Nat.zero_le _
  history := Nat.zero_le _
  policy := by
    show 1 ≤ 10000 ∧ 10000 ≤ 1000000
    decide
  accepted _ _ h := by cases h
  nodup := nodup_nil

theorem isEncodable_of_bindKey {b : Backend} {key : Key} (h : Tables.bindKey b key = .ok ()) :
    key.2.isEncodable = true := by
  simp only [Tables.bindKey, bindText, Except.bind_eq_ok, require_eq_ok] at h
  obtain ⟨-, -, -, hencodable, -⟩ := h
  exact hencodable

theorem create (hi : Inv cfg w) {owner : PyString} {task : TaskLifecycle}
    (hc : Tables.Created cfg w.tables owner task w'.tables) (ha : w'.accepted = w.accepted) :
    Inv cfg w' := by
  have hresult := hc.result
  have hstate := hc.submitted
  have hzero := hc.zero
  have hempty := hi.orphan _ hc.fresh
  have hmax := cfg.maxEvents_bounds
  refine ⟨fun key row hrow => ?_, fun key hnone i => ?_, fun key row hrow => ?_, fun o => ?_, ?_,
    ?_, fun key e he => ?_, ?_⟩
  · rw [hresult, Tables.append_lookup] at hrow
    split at hrow
    case isTrue heq =>
      subst heq
      cases hrow
      refine ⟨History.start task hstate hzero, ?_, ?_, fun _ => ?_⟩
      · rw [hresult]
        exact Stored.start task hstate hzero (isEncodable_of_bindKey hc.bound) hempty
      · show 1 ≤ cfg.maxEvents
        omega
      · show 1 ≤ cfg.maxEvents - 1
        omega
    case isFalse hne =>
      obtain ⟨h, hs, hle, hopen⟩ := hi.stored key row hrow
      exact ⟨h, hresult ▸ hs.append_ne hne _ hc.unlogged, hle, hopen⟩
  · rw [hresult, Tables.append_lookup] at hnone
    split at hnone
    · cases hnone
    · rename_i hne
      rw [hresult, Tables.append_event, if_neg (fun heq => hne heq.1)]
      exact hi.orphan key hnone i
  · rw [hresult, Tables.append_lookup] at hrow
    split at hrow
    case isTrue heq =>
      subst heq
      exact ⟨hc.named, hc.bound⟩
    case isFalse => exact hi.keys key row hrow
  · rw [hresult, Tables.append_active_new _ hc.fresh]
    have hroom := hc.active
    have hold := hi.active o
    by_cases ho : owner = o
    · subst ho
      simp only [decide_true, Bool.not_false, Bool.and_self, if_true]
      omega
    · simp only [ho, decide_false, Bool.false_and, Bool.false_eq_true, if_false]
      omega
  · rw [hresult, Tables.append_historyCount_new _ hc.fresh]
    exact hc.history
  · rw [hresult]
    exact hi.policy
  · rw [ha] at he
    obtain ⟨n, hn, hsome⟩ := hi.accepted key e he
    refine ⟨n, hn, ?_⟩
    rw [hresult, Tables.append_event]
    split
    · rfl
    · exact hsome
  · rw [ha]
    exact hi.nodup

/-- What a transition finds and writes, in terms of the history. -/
theorem moved (hi : Inv cfg w) {key : Key} {newState : TaskState} {e : ℤ} {updated : Snapshot}
    (hm : Tables.Moved cfg w.tables key newState e updated w'.tables) :
    ∃ row h, w.tables.snapshots.lookup key = some row ∧ Stored w.tables key row h ∧
      row.terminal = false ∧ (h.last.sequence : ℤ) = e ∧ Follows h.last updated ∧
      updated.sequence = h.last.sequence + 1 ∧ (updated.check = .ok () ∧ updated.norm = updated) ∧
      updated.state = newState ∧ ((w.tables.used + byteLength (encode updated) + w.tables.control : ℕ)
        : ℤ) + ((eventReserve updated.state : ℤ) - eventReserve h.last.state) ≤ w.tables.maxBytes := by
  obtain ⟨row, cur, hrow, hdecode, hseq, htransition, hbytes⟩ := hm.current
  obtain ⟨h, hs, -, -⟩ := hi.stored key row hrow
  rw [hs.row, h.decode_last] at hdecode
  cases hdecode
  obtain ⟨hlegal, rfl⟩ := Snapshot.transition_ok htransition
  obtain ⟨hcheck, hnorm⟩ := h.stored _ h.last_mem
  refine ⟨row, h, hrow, hs, ?_, hseq, ⟨hlegal, rfl, rfl, rfl⟩, rfl, ⟨hcheck, ?_⟩, rfl, hbytes⟩
  · rw [hs.row]
    exact isTerminal_of_mem_successors hlegal
  · show { h.last.norm with state := newState, sequence := h.last.sequence + 1 } = _
    rw [hnorm]

theorem move (hi : Inv cfg w) {key : Key} {newState : TaskState} {e : ℤ} {updated : Snapshot}
    (hm : Tables.Moved cfg w.tables key newState e updated w'.tables)
    (ha : w'.accepted = w.accepted ++ [(key, e)]) : Inv cfg w' := by
  obtain ⟨row, h, hrow, hs, hopen, he, hfollows, hseq, hstored, -, -⟩ := hi.moved hm
  have hresult := hm.result
  have hroom := hm.room
  simp only [Tables.hasRoom, Bool.and_eq_true, Bool.or_eq_true, decide_eq_true_eq, hs.count]
    at hroom
  have hlength : (h.append updated hfollows hseq hstored).log.length = h.log.length + 1 :=
    length_append
  have hmax := cfg.maxEvents_bounds
  refine ⟨fun key' row' hrow' => ?_, fun key' hnone i => ?_, fun key' row' hrow' => ?_,
    fun o => ?_, ?_, ?_, fun key' e' he' => ?_, ?_⟩
  · rw [hresult, Tables.append_lookup] at hrow'
    split at hrow'
    case isTrue heq =>
      subst heq
      cases hrow'
      refine ⟨_, hresult ▸ hs.append hfollows hseq hstored, ?_, fun hnext => ?_⟩
      · omega
      · rw [h.append_last] at hnext
        rcases hroom.2 with hterminal | hlt
        · rw [hnext] at hterminal
          cases hterminal
        · omega
    case isFalse hne =>
      obtain ⟨h', hs', hle, hopen'⟩ := hi.stored key' row' hrow'
      exact ⟨h', hresult ▸ hs'.append_ne hne _ hm.unlogged, hle, hopen'⟩
  · rw [hresult, Tables.append_lookup] at hnone
    split at hnone
    · cases hnone
    · rename_i hne
      rw [hresult, Tables.append_event, if_neg (fun heq => hne heq.1)]
      exact hi.orphan key' hnone i
  · rw [hresult, Tables.append_lookup] at hrow'
    split at hrow'
    case isTrue heq =>
      subst heq
      exact hi.keys _ row hrow
    case isFalse => exact hi.keys key' row' hrow'
  · rw [hresult]
    exact (Tables.append_active_le _ hrow hopen o).trans (hi.active o)
  · rw [hresult, Tables.append_historyCount _ hrow]
    exact hi.history
  · rw [hresult]
    exact hi.policy
  · rw [ha] at he'
    rw [hresult]
    rcases mem_append.mp he' with hold | hnew
    · obtain ⟨n, hn, hsome⟩ := hi.accepted key' e' hold
      refine ⟨n, hn, ?_⟩
      rw [Tables.append_event]
      split
      · rfl
      · exact hsome
    · rw [mem_singleton] at hnew
      cases hnew
      refine ⟨h.last.sequence, he, ?_⟩
      rw [Tables.append_event, if_pos ⟨rfl, hseq.symm⟩]
      rfl
  · -- an accepted pair has its event, and the event of this one is still missing
    rw [ha]
    refine nodup_append.mpr ⟨hi.nodup, nodup_singleton _, ?_⟩
    rintro ⟨key', e'⟩ hold x hx rfl
    rw [mem_singleton] at hx
    cases hx
    obtain ⟨n, hn, hsome⟩ := hi.accepted key e hold
    have heq : n + 1 = updated.sequence := by omega
    rw [heq, hm.unlogged] at hsome
    cases hsome

/-- Every call keeps the invariant. -/
theorem exec (hi : Inv cfg w) {a : Action} (h : Durable.exec cfg w a = .ok w') : Inv cfg w' := by
  rcases step_cases h with ⟨owner, task, -, hc, ha⟩ | ⟨key, newState, e, updated, -, hm, ha⟩ |
    ⟨n, -, hpos, hle, hcount, rfl⟩ | ⟨n, -, -, -, -, rfl⟩
  · exact hi.create hc ha
  · exact hi.move hm ha
  · exact { hi with
      stored := fun key row hrow => by
        obtain ⟨h, hs, hrest⟩ := hi.stored key row hrow
        exact ⟨h, ⟨hs.owned, hs.events, hs.count, hs.row⟩, hrest⟩
      history := hcount
      policy := ⟨hpos, hle⟩ }
  · exact { hi with
      stored := fun key row hrow => by
        obtain ⟨h, hs, hrest⟩ := hi.stored key row hrow
        exact ⟨h, ⟨hs.owned, hs.events, hs.count, hs.row⟩, hrest⟩ }

theorem reachable {maxBytes : ℕ} (h : (system cfg).Reachable (World.initial maxBytes) w) :
    Inv cfg w :=
  h.invariant (initial cfg maxBytes) fun _ _ _ hi hstep => hi.exec hstep

end Inv

/-- **The rows of every task are a log that can be replayed, no sequence number is won twice, and
the limits hold**, after any calls of any owners. -/
theorem history_replayable (cfg : Config) (maxBytes : ℕ) (w : World)
    (h : (system cfg).Reachable (World.initial maxBytes) w) :
    (∀ key row, w.tables.snapshots.lookup key = some row → ∃ log : List Snapshot,
      (∀ i, w.tables.events.lookup (key, i) = (log[i]?).map encode) ∧
      (∀ i s, log[i]? = some s →
        s.sequence = i ∧ s.taskId = key.2 ∧ decode (encode s) = .ok s) ∧
      (∃ s, log[0]? = some s ∧ s.state = .submitted) ∧
      (∀ i s s', log[i]? = some s → log[i + 1]? = some s' → s'.state ∈ s.state.successors ∧
        s'.taskId = s.taskId ∧ s'.contextId = s.contextId ∧
        s'.sourceProtocol = s.sourceProtocol) ∧
      (∃ s, log.getLast? = some s ∧ row.raw = encode s ∧ row.terminal = s.isTerminal) ∧
      (∀ i s, log[i]? = some s → s.isTerminal = true → i + 1 = log.length) ∧
      log.length ≤ cfg.maxEvents) ∧
    (∀ key i raw, w.tables.events.lookup (key, i) = some raw →
      (w.tables.snapshots.lookup key).isSome = true) ∧
    w.accepted.Nodup ∧
    (∀ owner, w.tables.active owner ≤ cfg.maxActive) ∧
    w.tables.historyCount ≤ w.tables.maxTasks := by
  have hi := Inv.reachable h
  refine ⟨fun key row hrow => ?_, fun key i raw hraw => ?_, hi.nodup, hi.active, hi.history⟩
  · obtain ⟨hist, hs, hle, -⟩ := hi.stored key row hrow
    refine ⟨hist.log, hs.events, fun i s hget => ?_, ?_, fun i s s' hget hget' => ?_, ?_,
      fun i s hget hterminal => hist.terminal_last hget hterminal, hle⟩
    · have hmem : s ∈ hist.log := mem_of_getElem? hget
      obtain ⟨hcheck, hnorm⟩ := hist.stored s hmem
      refine ⟨hist.numbered i s hget, hs.owned s hmem, ?_⟩
      rw [decode_encode hcheck, hnorm]
    · refine ⟨hist.log.head hist.ne, ?_, hist.first⟩
      rw [← head?_eq_getElem?, head?_eq_some_head hist.ne]
    · obtain ⟨hi, rfl⟩ := List.getElem?_eq_some_iff.mp hget
      obtain ⟨hi', rfl⟩ := List.getElem?_eq_some_iff.mp hget'
      have hfollows := isChain_iff_getElem.mp hist.chain i hi'
      exact ⟨hfollows.legal, hfollows.taskId, hfollows.contextId, hfollows.sourceProtocol⟩
    · refine ⟨hist.last, hist.getLast?, ?_⟩
      rw [hs.row]
      exact ⟨rfl, rfl⟩
  · cases hrow : w.tables.snapshots.lookup key with
    | some row => rfl
    | none =>
      rw [hi.orphan key hrow i] at hraw
      cases hraw

/-- A small tenant store. -/
def sampleConfig : Config where
  backend := .sqlite
  tenant := true
  maxActive := 1
  maxEvents := 4
  maxActive_bounds := by decide
  maxEvents_bounds := by decide

/-- A task as its owner submits it. -/
def sampleTask : TaskLifecycle :=
  ⟨{ taskId := .ofString "task-1", contextId := .ofString "context-1"
     sourceProtocol := .ofString "a2a" }, by decide +kernel⟩

def sampleKey : Key := (.ofString "alice", .ofString "task-1")

/-- Two workers race for the first transition, then the task is cancelled. -/
def sampleWorld : World :=
  LTS.drive (exec sampleConfig) (World.initial 20480)
    [.create sampleKey.1 sampleTask, .transition sampleKey .working 0,
      .transition sampleKey .failed 0, .cancel sampleKey 1, .transition sampleKey .failed 2]

/-- One of the two racing transitions was accepted, and the log has three entries. -/
theorem sample_history_replayable :
    sampleWorld.accepted = [(sampleKey, 0), (sampleKey, 1)] ∧
      sampleWorld.tables.eventCount sampleKey = 3 ∧ sampleWorld.accepted.Nodup ∧
      sampleWorld.tables.active sampleKey.1 ≤ 1 :=
  have h := history_replayable sampleConfig 20480 sampleWorld (LTS.reachable_drive _ _ _)
  ⟨by decide +kernel, by decide +kernel, h.2.2.1, h.2.2.2.1 _⟩

end AgentBridge.Durable
