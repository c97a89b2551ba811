import AgentBridge.Lifecycle.History

/-!
# The log of a task

Readers of a task see its rows page by page. Whatever the interleaving, a page is a piece of one
list, the log of the task, and that list only grows.

* `eventPage_eq`, `get_eq` : **a page is a piece of the log**, and the snapshot is its end.
-/

namespace AgentBridge.Durable

open List

/-- The events of a task, in order. -/
def Tables.taskLog (t : Tables) (key : Key) : List Snapshot :=
  (List.range (t.eventCount key)).filterMap fun i =>
    (t.events.lookup (key, i)).bind fun raw => (decode raw).toOption

/-- The call is about the task. -/
def Action.touches (key : Key) : Action → Bool
  | .create owner task => (owner, task.1.taskId) = key
  | .transition key' _ _ | .cancel key' _ => key' = key
  | .setHistoryCapacity _ | .setEventCapacity _ => false

theorem filterMap_range_getElem? {α : Type*} (l : List α) :
    (List.range l.length).filterMap (fun i => l[i]?) = l := by
  induction l using List.reverseRecOn with
  | nil => rfl
  | append_singleton l a ih =>
    have hsame : (List.range l.length).filterMap (fun i => (l ++ [a])[i]?) =
        (List.range l.length).filterMap fun i => l[i]? := by
      refine filterMap_congr fun i hi => ?_
      exact getElem?_append_left (mem_range.mp hi)
    rw [length_append, length_singleton, range_succ, filterMap_append, hsame, ih]
    simp

section Stored

variable {t : Tables} {key : Key} {row : Row} {h : History}

theorem decode_of_mem {s : Snapshot} (hs : s ∈ h.log) : decode (encode s) = .ok s := by
  obtain ⟨hcheck, hnorm⟩ := h.stored s hs
  rw [decode_encode hcheck, hnorm]

theorem Stored.taskLog_eq (hs : Stored t key row h) : t.taskLog key = h.log := by
  have hentry : ∀ i, (t.events.lookup (key, i)).bind (fun raw => (decode raw).toOption) =
      h.log[i]? := by
    intro i
    rw [hs.events]
    cases hi : h.log[i]? with
    | none => rfl
    | some s =>
      rw [Option.map_some, Option.bind_some, decode_of_mem (mem_of_getElem? hi)]
      rfl
  unfold Tables.taskLog
  simp only [hentry]
  rw [hs.count]
  exact filterMap_range_getElem? h.log

theorem Stored.get_eq (hs : Stored t key row h) (hrow : t.snapshots.lookup key = some row)
    {cfg : Config} {s : Snapshot} (hget : t.get cfg key = .ok s) : s = h.last := by
  obtain ⟨-, -, hget⟩ := Except.bind_eq_ok.mp hget
  obtain ⟨-, -, hget⟩ := Except.bind_eq_ok.mp hget
  rw [Tables.current, hrow, hs.row] at hget
  exact (Except.ok.inj (h.decode_last.symm.trans hget)).symm

/-- The row of an event. -/
def eventRow (key : Key) (s : Snapshot) : Sigma fun _ : Key × ℕ => List Char :=
  ⟨(key, s.sequence), encode s⟩

/-- The rows that a page is taken from, in order. -/
theorem Stored.ordered_eq (hs : Stored t key row h) {after : ℤ} (hafter : -1 ≤ after) :
    (t.events.entries.filter fun e => e.1.1 = key && decide (after < e.1.2)).insertionSort
        (fun e e' => e.1.2 ≤ e'.1.2) =
      (h.log.drop (after + 1).toNat).map (eventRow key) := by
  have hindex : ∀ (i : ℕ) s, (h.log.drop (after + 1).toNat)[i]? = some s →
      s.sequence = (after + 1).toNat + i := by
    intro i s hi
    rw [getElem?_drop] at hi
    exact h.numbered _ s hi
  have hsorted : ((h.log.drop (after + 1).toNat).map (eventRow key)).Pairwise
      fun e e' => e.1.2 < e'.1.2 := by
    rw [pairwise_map, pairwise_iff_getElem]
    intro i j hi hj hij
    have hi' := hindex i _ (getElem?_eq_getElem hi)
    have hj' := hindex j _ (getElem?_eq_getElem hj)
    dsimp only [eventRow]
    omega
  have hmem : ∀ e : Sigma fun _ : Key × ℕ => List Char,
      e ∈ t.events.entries.filter (fun e => e.1.1 = key && decide (after < e.1.2)) ↔
      e ∈ (h.log.drop (after + 1).toNat).map (eventRow key) := by
    rintro ⟨⟨key', n⟩, raw⟩
    rw [mem_filter, ← AList.mem_lookup_iff, Bool.and_eq_true, decide_eq_true_eq,
      decide_eq_true_eq, mem_map]
    constructor
    · rintro ⟨hlookup, rfl, hlt⟩
      have hlog : (h.log[n]?).map encode = some raw := (hs.events n).symm.trans hlookup
      obtain ⟨s, hn, rfl⟩ := Option.map_eq_some_iff.mp hlog
      refine ⟨s, ?_, by rw [eventRow, h.numbered n s hn]⟩
      refine mem_of_getElem? (i := n - (after + 1).toNat) ?_
      rw [getElem?_drop]
      have hn' : (after + 1).toNat + (n - (after + 1).toNat) = n := by
        have : after < (n : ℤ) := hlt
        omega
      rw [hn', hn]
    · rintro ⟨s, hmem, heq⟩
      cases heq
      obtain ⟨i, hi⟩ := mem_iff_getElem?.mp hmem
      have hseq := hindex i s hi
      rw [getElem?_drop, ← hseq] at hi
      refine ⟨?_, rfl, ?_⟩
      · show t.events.lookup (key, s.sequence) = some (encode s)
        rw [hs.events, hi]
        rfl
      · show after < (s.sequence : ℤ)
        omega
  refine List.Perm.eq_of_pairwise ?_ ?_ (hsorted.imp le_of_lt) ?_
  · -- two rows of the task with one number are the same row
    intro e e' he he' hle hle'
    obtain ⟨s, hs, rfl⟩ := mem_map.mp ((hmem e).mp ((perm_insertionSort _ _).mem_iff.mp he))
    obtain ⟨s', hs', rfl⟩ := mem_map.mp he'
    obtain ⟨i, hi⟩ := mem_iff_getElem?.mp hs
    obtain ⟨j, hj⟩ := mem_iff_getElem?.mp hs'
    have hseq : s.sequence = s'.sequence := le_antisymm hle hle'
    have hij : i = j := by
      have := hindex i s hi
      have := hindex j s' hj
      omega
    subst hij
    cases hi.symm.trans hj
    rfl
  · exact pairwise_insertionSort _ _
  · refine (perm_insertionSort _ _).trans ?_
    refine (perm_ext_iff_of_nodup ?_ ?_).mpr hmem
    · exact (List.Nodup.of_map Sigma.fst t.events.nodupKeys).filter _
    · exact hsorted.imp fun hlt heq => by rw [heq] at hlt; exact lt_irrefl _ hlt

theorem Stored.eventPage_eq (hs : Stored t key row h) (hrow : t.snapshots.lookup key = some row)
    {cfg : Config} {after : ℤ} {limit : ℕ} {page : List Snapshot}
    (hpage : t.eventPage cfg key after limit = .ok page) :
    page = (h.log.drop (after + 1).toNat).take limit ∧ -1 ≤ after ∧ after < h.log.length ∧
      1 ≤ limit := by
  obtain ⟨-, -, hpage⟩ := Except.bind_eq_ok.mp hpage
  obtain ⟨_, hafter, hpage⟩ := Except.bind_eq_ok.mp hpage
  obtain ⟨_, hlimit, hpage⟩ := Except.bind_eq_ok.mp hpage
  obtain ⟨-, -, hpage⟩ := Except.bind_eq_ok.mp hpage
  obtain ⟨current, hcurrent, hpage⟩ := Except.bind_eq_ok.mp hpage
  obtain ⟨_, hahead, hpage⟩ := Except.bind_eq_ok.mp hpage
  rw [require_eq_ok, decide_eq_true_eq] at hafter hahead
  rw [require_eq_ok, Bool.and_eq_true, decide_eq_true_eq] at hlimit
  rw [Tables.current, hrow, hs.row] at hcurrent
  rw [← Except.ok.inj (h.decode_last.symm.trans hcurrent)] at hahead
  have hlast := h.last_sequence
  have hdecode : ((h.log.drop (after + 1).toNat).take limit).mapM
      (fun s => decode (encode s)) = .ok (((h.log.drop (after + 1).toNat).take limit).map id) :=
    Except.mapM_of_ok fun s hs' => decode_of_mem (mem_of_mem_drop (mem_of_mem_take hs'))
  rw [map_id] at hdecode
  dsimp only at hpage
  rw [hs.ordered_eq hafter.1, ← map_take, mapM_map] at hpage
  exact ⟨(Except.ok.inj (hdecode.symm.trans hpage)).symm, hafter.1, by omega, hlimit.1⟩

end Stored

/-! ### Reachable states -/

/-- What is known of the log of a task. -/
structure Logged (log : List Snapshot) : Prop where
  numbered : ∀ (i : ℕ) (s : Snapshot), log[i]? = some s → s.sequence = i
  /-- Nothing follows a terminal event. -/
  terminal : ∀ (i : ℕ) (s : Snapshot), log[i]? = some s → s.isTerminal = true →
    i + 1 = log.length

/-- The events above a cursor. -/
theorem Logged.drop_eq_filter {log : List Snapshot} (h : Logged log) {after : ℤ}
    (hafter : -1 ≤ after) :
    log.drop (after + 1).toNat = log.filter fun s => decide (after < s.sequence) := by
  have hlow : (log.take (after + 1).toNat).filter (fun s => decide (after < s.sequence)) = [] := by
    refine filter_eq_nil_iff.mpr fun s hs => ?_
    obtain ⟨i, hi⟩ := mem_iff_getElem?.mp hs
    rw [getElem?_take] at hi
    split at hi
    case isTrue hlt =>
      rw [decide_eq_true_eq, h.numbered i s hi]
      omega
    case isFalse => cases hi
  have hhigh : (log.drop (after + 1).toNat).filter (fun s => decide (after < s.sequence)) =
      log.drop (after + 1).toNat := by
    refine filter_eq_self.mpr fun s hs => ?_
    obtain ⟨i, hi⟩ := mem_iff_getElem?.mp hs
    rw [getElem?_drop] at hi
    rw [decide_eq_true_eq, h.numbered _ s hi]
    omega
  conv_rhs => rw [← take_append_drop (after + 1).toNat log, filter_append, hlow, hhigh]
  rfl

namespace Inv

variable {cfg : Config} {w w' : World} {key : Key}

theorem taskLog_eq_nil (hi : Inv cfg w) (hrow : w.tables.snapshots.lookup key = none) :
    w.tables.taskLog key = [] := by
  rw [Tables.taskLog, Tables.eventCount_eq_zero (hi.orphan key hrow)]
  rfl

theorem logged (hi : Inv cfg w) (key : Key) : Logged (w.tables.taskLog key) := by
  cases hrow : w.tables.snapshots.lookup key with
  | none =>
    rw [hi.taskLog_eq_nil hrow]
    refine ⟨fun _ _ hs => ?_, fun _ _ hs => ?_⟩
    · cases hs
    · cases hs
  | some row =>
    obtain ⟨h, hs, -⟩ := hi.stored key row hrow
    rw [hs.taskLog_eq]
    exact ⟨h.numbered, fun i s => h.terminal_last⟩

/-- **A page is a piece of the log.** -/
theorem eventPage_eq (hi : Inv cfg w) {after : ℤ} {limit : ℕ} {page : List Snapshot}
    (hpage : w.tables.eventPage cfg key after limit = .ok page) :
    page = ((w.tables.taskLog key).drop (after + 1).toNat).take limit ∧ -1 ≤ after ∧
      after < (w.tables.taskLog key).length ∧ 1 ≤ limit := by
  cases hrow : w.tables.snapshots.lookup key with
  | none =>
    simp [Tables.eventPage, Tables.current, hrow, Except.bind_eq_ok] at hpage
  | some row =>
    obtain ⟨h, hs, -⟩ := hi.stored key row hrow
    rw [hs.taskLog_eq]
    exact hs.eventPage_eq hrow hpage

theorem get_eq (hi : Inv cfg w) {s : Snapshot} (hget : w.tables.get cfg key = .ok s) :
    (w.tables.taskLog key).getLast? = some s := by
  cases hrow : w.tables.snapshots.lookup key with
  | none =>
    simp [Tables.get, Tables.current, hrow, Except.bind_eq_ok] at hget
  | some row =>
    obtain ⟨h, hs, -⟩ := hi.stored key row hrow
    rw [hs.taskLog_eq, hs.get_eq hrow hget]
    exact h.getLast?

/-- The log of a task grows by one event at most, and only by a call about the task. -/
theorem taskLog_step (hi : Inv cfg w) {a : Action} (h : Durable.exec cfg w a = .ok w') (key : Key) :
    w'.tables.taskLog key = w.tables.taskLog key ∨
      a.touches key = true ∧ ∃ s, w'.tables.taskLog key = w.tables.taskLog key ++ [s] := by
  have hi' := hi.exec h
  have hother : ∀ (key' : Key) (n : ℕ) (row : Row), key ≠ key' →
      w.tables.events.lookup (key', n) = none → w'.tables = w.tables.append key' n row →
      w'.tables.taskLog key = w.tables.taskLog key := by
    intro key' n row hne hnew hresult
    cases hrow : w.tables.snapshots.lookup key with
    | none =>
      rw [hi.taskLog_eq_nil hrow, hi'.taskLog_eq_nil]
      rw [hresult, Tables.append_lookup, if_neg hne, hrow]
    | some old =>
      obtain ⟨h, hs, -⟩ := hi.stored key old hrow
      rw [hs.taskLog_eq, hresult, (hs.append_ne hne row hnew).taskLog_eq]
  rcases step_cases h with ⟨owner, task, rfl, hc, -⟩ | ⟨key', newState, e, updated, ha, hm, -⟩ |
    ⟨n, -, -, -, -, rfl⟩ | ⟨n, -, -, -, -, rfl⟩
  · by_cases hkey : key = (owner, task.1.taskId)
    · subst hkey
      have hempty := hi.orphan _ hc.fresh
      have hs := Stored.start task hc.submitted hc.zero (isEncodable_of_bindKey hc.bound) hempty
      refine .inr ⟨decide_eq_true rfl, task.1.norm, ?_⟩
      rw [hi.taskLog_eq_nil hc.fresh, hc.result, hs.taskLog_eq]
      rfl
    · exact .inl (hother _ 0 _ hkey hc.unlogged hc.result)
  · by_cases hkey : key = key'
    · subst hkey
      obtain ⟨row, h, hrow, hs, -, -, hfollows, hseq, hstored, -⟩ := hi.moved hm
      refine .inr ⟨?_, updated, ?_⟩
      · rcases ha with rfl | ⟨rfl, -⟩
        · exact decide_eq_true rfl
        · exact decide_eq_true rfl
      · rw [hs.taskLog_eq, hm.result, (hs.append hfollows hseq hstored).taskLog_eq]
        rfl
    · exact .inl (hother _ _ _ hkey hm.unlogged hm.result)
  · exact .inl rfl
  · exact .inl rfl

theorem taskLog_prefix (hi : Inv cfg w) {a : Action} (h : Durable.exec cfg w a = .ok w')
    (key : Key) : w.tables.taskLog key <+: w'.tables.taskLog key := by
  rcases hi.taskLog_step h key with heq | ⟨-, s, heq⟩
  · rw [heq]
  · rw [heq]
    exact prefix_append _ _

theorem taskLog_eq_of_not_touches (hi : Inv cfg w) {a : Action}
    (h : Durable.exec cfg w a = .ok w') (ha : a.touches key = false) :
    w'.tables.taskLog key = w.tables.taskLog key := by
  rcases hi.taskLog_step h key with heq | ⟨htouches, -⟩
  · exact heq
  · rw [ha] at htouches
    cases htouches

end Inv

end AgentBridge.Durable
