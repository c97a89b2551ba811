import AgentBridge.Audit.Retention

/-!
# The audit chain

The committed history of the store is a serial one (`Audit.Retention`), so what the workers make of
the audit table can be read off the committed changes one after the other. Abstractly the table is
a log that only grows, of which the oldest entries may be missing: an append continues the log, a
deletion drops a part of it but never its last entry.

* `audit_chain_intact` : **the chain never forks, gaps or restarts**.
-/

namespace AgentBridge.Audit

open HashChain Locking List Nat

/-- The entry that a change appends. -/
def Change.entry? : Change → Option AuditEntry
  | .insertAudit e => some e
  | _ => none

/-- The entries that the changes append, in order. -/
def appended (history : List Change) : List AuditEntry := history.filterMap Change.entry?

/-- The rows are what is left of the complete chain `log` when its first `k` entries are gone, and
its last entry is not. -/
structure Retains (H : Sha256) (log rows : List AuditEntry) (k : ℕ) : Prop where
  intact : Intact H log
  rows_eq : rows = log.drop k
  kept : k ≤ log.length - 1

/-! ### Rows -/

theorem orderedInsert_eq {rows : List AuditEntry} {e : AuditEntry}
    (h : ∀ a ∈ rows, a.seq < e.seq) : rows.orderedInsert (·.seq ≤ ·.seq) e = rows ++ [e] := by
  induction rows with
  | nil => rfl
  | cons a rows ih =>
    have hlt : ¬e.seq ≤ a.seq := not_le.mpr (h a mem_cons_self)
    rw [List.orderedInsert, if_neg hlt, ih fun a' ha' => h a' (mem_cons_of_mem _ ha'),
      cons_append]

/-- Deleting by number is dropping a part of the front. -/
theorem filter_eq_drop {rows : List AuditEntry} {m : ℤ} (h : Numbered (·.seq) m rows) (n : ℤ) :
    rows.filter (n ≤ ·.seq) = rows.drop (n - m).toNat := by
  induction rows generalizing m with
  | nil => simp
  | cons a rows ih =>
    have ha : a.seq = m := h.1
    by_cases hn : n ≤ m
    · have hzero : (n - m).toNat = 0 := by omega
      have hall : ∀ e ∈ a :: rows, decide (n ≤ e.seq) = true := by
        intro e he
        exact decide_eq_true (hn.trans (h.le_of_mem he))
      rw [hzero, drop_zero, filter_eq_self.mpr hall]
    · have hsucc : (n - m).toNat = (n - (m + 1)).toNat + 1 := by omega
      have hout : ¬decide (n ≤ a.seq) = true := by
        rw [decide_eq_true_eq, ha]
        exact hn
      rw [hsucc, drop_succ_cons, filter_cons, if_neg hout, ih h.2]

/-! ### One change -/

namespace Retains

variable {H : Sha256} {log rows : List AuditEntry} {k : ℕ}

theorem nil : Retains H [] [] 0 := ⟨.nil, rfl, le_refl 0⟩

theorem getLast? (h : Retains H log rows k) : rows.getLast? = log.getLast? := by
  rw [h.rows_eq, getLast?_drop]
  split
  case isTrue hle =>
    have hzero : log.length = 0 := by
      have := h.kept
      omega
    rw [length_eq_zero_iff.mp hzero]
    rfl
  case isFalse => rfl

theorem numbered (h : Retains H log rows k) : Numbered (·.seq) (k : ℤ) rows := by
  have hk : k ≤ log.length := h.kept.trans (sub_le _ _)
  have hnum := h.intact.numbered.drop hk
  rwa [zero_add, ← h.rows_eq] at hnum

theorem last_seq (h : Intact H log) {last : AuditEntry} (hlast : log.getLast? = some last) :
    last.seq + 1 = log.length := by
  obtain ⟨init, rfl⟩ := getLast?_eq_some_iff.mp hlast
  have hget : (init ++ [last])[init.length]? = some last := by simp
  have hseq := h.numbered.getElem? hget
  rw [hseq, length_append, length_singleton]
  push_cast
  omega

variable {e : AuditEntry}

/-- The rows are numbered below an entry that continues the log. -/
theorem seq_eq (h : Retains H log rows k) (he : Continues H rows e) : e.seq = log.length := by
  rw [he.seq, h.getLast?]
  cases hlast : log.getLast? with
  | none =>
    rw [getLast?_eq_none_iff.mp hlast]
    rfl
  | some last => exact last_seq h.intact hlast

theorem concat (h : Retains H log rows k) (he : Continues H rows e) :
    Retains H (log ++ [e]) (rows ++ [e]) k := by
  have hk : k ≤ log.length := h.kept.trans (sub_le _ _)
  have hprev : e.prevHash = AuditEntry.format.head log := by
    rw [he.prevHash, h.getLast?, Format.head_eq]
    cases hlast : log.getLast? with
    | none => rfl
    | some last =>
      exact PyString.norm_of_isHex (h.intact.isHex_entryHash (mem_of_getLast? hlast))
  refine ⟨h.intact.concat (h.seq_eq he) hprev he.entryHash, ?_, ?_⟩
  · rw [h.rows_eq, drop_append_of_le_length hk]
  · rw [length_append, length_singleton]
    omega

theorem append (h : Retains H log rows k) (he : Continues H rows e) :
    Retains H (log ++ [e]) (rows.orderedInsert (·.seq ≤ ·.seq) e) k := by
  have hbelow : ∀ a ∈ rows, a.seq < e.seq := by
    intro a ha
    rw [h.rows_eq] at ha
    obtain ⟨i, hi⟩ := mem_iff_getElem?.mp (mem_of_mem_drop ha)
    have hlt : i < log.length := (List.getElem?_eq_some_iff.mp hi).1
    rw [h.intact.numbered.getElem? hi, h.seq_eq he]
    omega
  rw [orderedInsert_eq hbelow]
  exact h.concat he

/-- A deletion below the last row drops a part of the log, but not its end. -/
theorem delete (h : Retains H log rows k) {n : ℤ} (hn : ∀ last ∈ rows.getLast?, n ≤ last.seq) :
    ∃ k', Retains H log (rows.filter (n ≤ ·.seq)) k' := by
  have hrows : rows.filter (n ≤ ·.seq) = log.drop (k + (n - k).toNat) := by
    rw [filter_eq_drop h.numbered, h.rows_eq, drop_drop]
  cases hlast : log.getLast? with
  | none =>
    have hlog : log = [] := getLast?_eq_none_iff.mp hlast
    refine ⟨0, h.intact, ?_, zero_le _⟩
    rw [hrows, hlog, drop_nil, drop_nil]
  | some last =>
    have hle : n ≤ last.seq := hn last (h.getLast?.trans hlast)
    have hseq := last_seq h.intact hlast
    have hkept := h.kept
    exact ⟨_, h.intact, hrows, by omega⟩

/-- Every change that fits keeps the rows a part of one complete chain. -/
theorem apply {d : Tables} (h : Retains H log d.audit k) {ch : Change} (hfits : fits H d ch) :
    ∃ k', Retains H (log ++ appended [ch]) (d.apply ch).audit k' := by
  cases ch with
  | insertAudit e => exact ⟨k, h.append hfits⟩
  | deleteAudit n =>
    obtain ⟨k', hk'⟩ := h.delete hfits.2
    exact ⟨k', by rwa [appended, filterMap_cons_none rfl, filterMap_nil, append_nil]⟩
  | put row =>
    have haudit : (d.apply (.put row)).audit = d.audit := by cases row <;> rfl
    refine ⟨k, ?_⟩
    rwa [haudit, appended, filterMap_cons_none rfl, filterMap_nil, append_nil]

/-- A serial history keeps the rows a part of one complete chain: the induction is on the history,
one change at a time. -/
theorem foldl {d : Tables} {history : List Change} (hserial : (spec H).Serial d history)
    (h : Retains H log d.audit k) :
    ∃ k', Retains H (log ++ appended history) (history.foldl Tables.apply d).audit k' := by
  induction history generalizing d log k with
  | nil => exact ⟨k, by rwa [appended, filterMap_nil, append_nil]⟩
  | cons ch history ih =>
    obtain ⟨k₁, h₁⟩ := h.apply hserial.1
    obtain ⟨k₂, h₂⟩ := ih hserial.2 h₁
    refine ⟨k₂, ?_⟩
    have hsplit : appended (ch :: history) = appended [ch] ++ appended history := by
      rw [appended, ← singleton_append, filterMap_append]
      rfl
    rwa [hsplit, ← append_assoc]

/-- The rows as they are read back. -/
theorem map_norm (h : Retains H log rows k) :
    Retains H (log.map AuditEntry.norm) (rows.map AuditEntry.norm) k :=
  ⟨h.intact.map_norm, by rw [h.rows_eq, map_drop], by rw [length_map]; exact h.kept⟩

/-- `_starts_at_genesis`: nothing was dropped. -/
theorem startsAtGenesis_iff (h : Retains H log rows k) (hne : rows ≠ []) :
    startsAtGenesis rows = true ↔ k = 0 := by
  have hnum := h.numbered
  cases rows with
  | nil => exact absurd rfl hne
  | cons first rest =>
    have hfirst : first.seq = k := hnum.1
    have hmin : (List.map (·.seq) (first :: rest)).min? = some (k : ℤ) := by
      rw [min?_eq_some_iff]
      refine ⟨?_, fun n hn => ?_⟩
      · rw [map_cons, hfirst]
        exact mem_cons_self
      · obtain ⟨e, he, rfl⟩ := mem_map.mp hn
        exact hnum.le_of_mem he
    simp only [startsAtGenesis, hmin, isEmpty_cons, Bool.false_or, decide_eq_true_eq,
      Option.some.injEq, cast_eq_zero]

/-- What `verify_chain` says of the rows. -/
theorem verifyChain_iff (h : Retains H log rows k) (g : Bool) :
    verifyChain H rows g = true ↔ (g = true → startsAtGenesis rows = true) := by
  by_cases hne : rows = []
  · subst hne
    simp [verifyChain, startsAtGenesis]
  · have hlt : k < log.length := by
      have hkept := h.kept
      have hlen : log.length ≠ 0 := by
        intro hzero
        rw [length_eq_zero_iff.mp hzero] at h
        exact hne (h.rows_eq.trans drop_nil)
      omega
    rw [h.startsAtGenesis_iff hne, h.rows_eq]
    exact h.intact.verifyChain_drop hlt g

end Retains

/-! ### All interleavings -/

section System

variable {b : Backend} {H : Sha256} {production : Bool} {d₀ : Tables} {s s' : Store}

theorem retains_of_reachable
    (h : (system b H production).Reachable (World.initial { d₀ with audit := [] }) s) :
    ∃ k, Retains H (appended s.history) s.store.data.audit k := by
  obtain ⟨hserial, hdata⟩ := serial (verified b H production) h
  have hnil : Retains H [] ({ d₀ with audit := [] } : Tables).audit 0 := .nil
  obtain ⟨k, hk⟩ := Retains.foldl hserial hnil
  refine ⟨k, ?_⟩
  rw [hdata]
  exact hk

/-- The highest number does not decrease: the log of all entries grows, and its end is kept. -/
theorem exists_ge_of_reachable
    (h : (system b H production).Reachable (World.initial { d₀ with audit := [] }) s)
    (h' : (system b H production).Reachable s s') {e : AuditEntry} (he : e ∈ loadAudit s) :
    ∃ e' ∈ loadAudit s', e.seq ≤ e'.seq := by
  obtain ⟨k, hk⟩ := retains_of_reachable h
  obtain ⟨k', hk'⟩ := retains_of_reachable (h.trans h')
  obtain ⟨e₀, he₀, rfl⟩ := mem_map.mp he
  rw [hk.rows_eq] at he₀
  obtain ⟨i, hi⟩ := mem_iff_getElem?.mp (mem_of_mem_drop he₀)
  have hlt : i < (appended s.history).length := (List.getElem?_eq_some_iff.mp hi).1
  have hle : (appended s.history).length ≤ (appended s'.history).length := by
    obtain ⟨more, hmore⟩ := history_prefix h'
    rw [← hmore, appended, appended, filterMap_append, length_append]
    exact le_add_right _ _
  have hne : appended s'.history ≠ [] := by
    intro hnil
    rw [hnil, length_nil] at hle
    omega
  obtain ⟨last, hlast⟩ := Option.ne_none_iff_exists'.mp (getLast?_eq_none_iff.not.mpr hne)
  have hmem : last ∈ s'.store.data.audit := mem_of_getLast? (hk'.getLast?.trans hlast)
  refine ⟨last.norm, mem_map_of_mem hmem, ?_⟩
  have hseq := Retains.last_seq hk'.intact hlast
  have hi' := hk.intact.numbered.getElem? hi
  show e₀.seq ≤ last.seq
  omega

end System

/-- **The audit chain never forks, gaps or restarts.** In every interleaving of appends, settlements
and deletions the retained records have consecutive numbers, are linked by their hashes and are
accepted by `verify_chain`, as complete exactly when they start at number zero; the highest number
never decreases, and no number is given to two committed entries. -/
theorem audit_chain_intact (b : Backend) (H : Sha256) (production : Bool) (d₀ : Tables) (s : Store)
    (h : (system b H production).Reachable (World.initial { d₀ with audit := [] }) s) :
    (∃ first : ℕ, ∀ (i : ℕ) e, (loadAudit s)[i]? = some e → e.seq = first + i) ∧
    (∀ (i : ℕ) e e', (loadAudit s)[i]? = some e → (loadAudit s)[i + 1]? = some e' →
      e'.prevHash = e.entryHash) ∧
    (∀ e ∈ loadAudit s, computeHash H e = e.entryHash) ∧
    verifyChain H (loadAudit s) false = true ∧
    (verifyChain H (loadAudit s) true = true ↔ startsAtGenesis (loadAudit s) = true) ∧
    (∀ s', (system b H production).Reachable s s' → ∀ e ∈ loadAudit s,
      ∃ e' ∈ loadAudit s', e.seq ≤ e'.seq) ∧
    (∀ e ∈ s.store.data.audit, e ∈ appended s.history) ∧
    ∀ (i j : ℕ) e e', (appended s.history)[i]? = some e → (appended s.history)[j]? = some e' →
      e.seq = e'.seq → i = j := by
  obtain ⟨k, hk⟩ := retains_of_reachable h
  have hload : Retains H _ (loadAudit s) k := hk.map_norm
  have hlink := hload.intact.linked.drop k
  rw [← hload.rows_eq] at hlink
  refine ⟨⟨k, fun i e he => hload.numbered.getElem? he⟩, fun i e e' he he' => hlink.prev_eq he he',
    fun e he => ?_, ?_, ?_, fun s' h' e he => exists_ge_of_reachable h h' he, fun e he => ?_,
    fun i j e e' he he' hseq => ?_⟩
  · rw [hload.rows_eq] at he
    exact (hload.intact.hashed e (mem_of_mem_drop he)).symm
  · exact (hload.verifyChain_iff false).mpr nofun
  · rw [hload.verifyChain_iff true]
    exact ⟨fun himp => himp rfl, fun hstart _ => hstart⟩
  · rw [hk.rows_eq] at he
    exact mem_of_mem_drop he
  · rw [hk.intact.numbered.getElem? he, hk.intact.numbered.getElem? he'] at hseq
    omega

theorem sample_audit_chain_intact :
    (loadAudit sampleRun).length = 1 ∧ verifyChain sampleSha (loadAudit sampleRun) false = true ∧
    startsAtGenesis (loadAudit sampleRun) = false :=
  ⟨by decide +kernel, (audit_chain_intact .postgres sampleSha false {} sampleRun
    sampleRun_reachable).2.2.2.1, by decide +kernel⟩

end AgentBridge.Audit
