import AgentBridge.Audit.Chain

/-!
# Retention in memory

`AuditLog` over an `InMemoryStore`. The number and the link of a new entry come from the last entry
that is left, and a log counts as complete when its smallest number is zero.

Unlike the SQL stores, `InMemoryStore.truncate_audit_before` does not ask whether it deletes the
last entry. When it does, the chain starts again: the next entry gets number zero and links to the
genesis, and the log is reported as complete (`restarted_chain`). As long as the last entry is kept,
the log is what remains of one chain, as in the SQL stores.

* `head_is_preserved` : **where every truncation spares the last entry, numbers increase, no later
  entry links to the genesis, and a shortened log is not reported as complete.**
-/

namespace AgentBridge.Memory

open Audit HashChain List

/-! ### The log -/

structure AuditLog where
  /-- `InMemoryStore._audit`. -/
  store : List AuditEntry := []
  /-- `AuditLog._entries`. -/
  entries : List AuditEntry := []
  legalHold : Bool := false

/-- `record`, with `append_audit_chained` of the store. -/
def record (H : Sha256) (log : AuditLog) (draft : Draft) : AuditEntry × AuditLog :=
  let entry := draft.build H log.store.getLast?
  (entry, { log with store := log.store ++ [entry], entries := log.entries ++ [entry] })

/-- `InMemoryStore.truncate_audit_before`. -/
def truncateAuditBefore (audit : List AuditEntry) (seq : ℤ) : ℕ × List AuditEntry :=
  if seq ≤ 0 then (0, audit)
  else
    let kept := audit.filter (seq ≤ ·.seq)
    (audit.length - kept.length, kept)

/-- `truncate_before`. -/
def truncateBefore (production : Bool) (log : AuditLog) (seq : ℤ) : Except Denied (ℕ × AuditLog) :=
  if production then
    .error (.permission
      "production audit deletion requires durable legal holds and trusted checkpoints")
  else if seq ≤ 0 then .ok (0, log)
  else if log.legalHold then .ok (0, log)
  else
    let (removed, store) := truncateAuditBefore log.store seq
    .ok (removed,
      { log with
        store
        entries := if 0 < removed then log.entries.filter (seq ≤ ·.seq) else log.entries })

/-- `verify_integrity`. -/
def verifyIntegrity (H : Sha256) (log : AuditLog) : Bool :=
  verifyChain H log.entries (startsAtGenesis log.entries)

/-! ### Runs -/

/-- The log with the entries that were ever recorded, in order, and how many were removed. -/
structure World where
  log : AuditLog := {}
  recorded : List AuditEntry := []
  removed : ℕ := 0

inductive Action
  | record (draft : Draft)
  | truncateBefore (seq : ℤ)
  | setLegalHold (on : Bool)

def exec (H : Sha256) (production : Bool) (w : World) : Action → Except Denied World
  | .record draft =>
    let (entry, log) := record H w.log draft
    .ok { w with log, recorded := w.recorded ++ [entry] }
  | .truncateBefore seq => do
    let (removed, log) ← truncateBefore production w.log seq
    return { w with log, removed := w.removed + removed }
  | .setLegalHold on => .ok { w with log := { w.log with legalHold := on } }

def system (H : Sha256) (production : Bool) : LTS World Action := .ofExec (exec H production)

/-- The truncation spares the last entry. -/
def keepsHead (w : World) : Action → Bool
  | .truncateBefore seq => w.log.store.getLast?.all fun last => seq ≤ last.seq
  | _ => true

/-! ### The invariant -/

/-- The log is what remains of the recorded chain, and starts at zero only if nothing is missing. -/
structure Inv (H : Sha256) (w : World) : Prop where
  same : w.log.entries = w.log.store
  retains : ∃ k, Retains H w.recorded w.log.store k ∧ (w.removed ≠ 0 → k ≠ 0)

variable {H : Sha256} {w : World}

theorem Inv.initial : Inv H {} := ⟨rfl, 0, .nil, fun h => absurd rfl h⟩

theorem continues_build {log rows : List AuditEntry} {k : ℕ} (h : Retains H log rows k)
    (draft : Draft) : Continues H rows (draft.build H rows.getLast?) where
  seq := rfl
  prevHash := by
    have hnorm : ∀ last ∈ rows.getLast?, last.entryHash.norm = last.entryHash := by
      intro last hlast
      rw [h.getLast?] at hlast
      exact PyString.norm_of_isHex (h.intact.isHex_entryHash (mem_of_getLast? hlast))
    cases hlast : rows.getLast? with
    | none => rfl
    | some last => exact (hnorm last hlast).symm
  entryHash := rfl

/-- How many rows are left tells how many are missing. -/
theorem missing_of_length {log rows rows' : List AuditEntry} {k k' : ℕ} (h : Retains H log rows k)
    (h' : Retains H log rows' k') : rows.length + k = rows'.length + k' := by
  have hlen : rows.length = log.length - k := by rw [h.rows_eq, length_drop]
  have hlen' : rows'.length = log.length - k' := by rw [h'.rows_eq, length_drop]
  have hk := h.kept
  have hk' := h'.kept
  omega

theorem Inv.record (hi : Inv H w) (draft : Draft) :
    Inv H { w with log := (record H w.log draft).2
                   recorded := w.recorded ++ [(Memory.record H w.log draft).1] } := by
  obtain ⟨k, hretains, hremoved⟩ := hi.retains
  refine ⟨?_, k, hretains.concat (continues_build hretains draft), hremoved⟩
  show w.log.entries ++ _ = w.log.store ++ _
  rw [hi.same]

theorem Inv.filter (hi : Inv H w) {seq : ℤ} (hkeep : keepsHead w (.truncateBefore seq) = true)
    {entries : List AuditEntry} (hentries : entries = w.log.store.filter (seq ≤ ·.seq)) :
    Inv H { w with
      log := { w.log with store := w.log.store.filter (seq ≤ ·.seq), entries }
      removed := w.removed +
        (w.log.store.length - (w.log.store.filter (seq ≤ ·.seq)).length) } := by
  obtain ⟨k, hretains, hremoved⟩ := hi.retains
  have hlast : ∀ last ∈ w.log.store.getLast?, seq ≤ last.seq := by
    intro last hmem
    exact of_decide_eq_true ((Option.all_eq_true _ _).mp hkeep last hmem)
  obtain ⟨k', hretains'⟩ := hretains.delete hlast
  have hmissing := missing_of_length hretains hretains'
  have hle := length_filter_le (fun e : AuditEntry => decide (seq ≤ e.seq)) w.log.store
  refine ⟨hentries, k', hretains', ?_⟩
  show w.removed + (w.log.store.length - (w.log.store.filter (seq ≤ ·.seq)).length) ≠ 0 → k' ≠ 0
  omega

theorem Inv.truncateBefore (hi : Inv H w) {production : Bool} {seq : ℤ} {result : ℕ × AuditLog}
    (hkeep : keepsHead w (.truncateBefore seq) = true)
    (h : truncateBefore production w.log seq = .ok result) :
    Inv H { w with log := result.2, removed := w.removed + result.1 } := by
  unfold Memory.truncateBefore at h
  split at h
  · cases h
  split at h
  · cases h
    exact hi
  split at h
  · cases h
    exact hi
  case isFalse hpositive _ =>
    rw [truncateAuditBefore, if_neg hpositive] at h
    cases h
    refine hi.filter hkeep ?_
    -- the object's own entries are filtered only when the store has lost some
    rw [hi.same]
    split
    · rfl
    case isFalse hnone =>
      have hall : (w.log.store.filter (seq ≤ ·.seq)).length = w.log.store.length := by
        have hle := length_filter_le (fun e : AuditEntry => decide (seq ≤ e.seq)) w.log.store
        omega
      exact (filter_sublist.eq_of_length hall).symm

theorem Inv.exec (hi : Inv H w) {production : Bool} {a : Action} {w' : World}
    (hkeep : keepsHead w a = true) (h : exec H production w a = .ok w') : Inv H w' := by
  cases a with
  | record draft =>
    cases h
    exact hi.record draft
  | truncateBefore seq =>
    obtain ⟨result, htruncate, h⟩ := Except.bind_eq_ok.mp h
    cases h
    exact hi.truncateBefore hkeep htruncate
  | setLegalHold on =>
    cases h
    exact ⟨hi.same, hi.retains⟩

/-- **Where every truncation spares the last entry, the head of the chain is preserved.** Numbers
strictly increase over the whole run, every entry after the first links to the one recorded before
it and so not to the genesis, and once entries were removed the log is never reported as complete.
The digest is one that no text maps to the genesis. -/
theorem head_is_preserved (H : Sha256) (production : Bool) {w : World}
    (hrun : ((system H production).restrict fun w a => keepsHead w a = true).Reachable {} w) :
    w.recorded.Pairwise (·.seq < ·.seq) ∧
    (∀ (i : ℕ) e e', w.recorded[i]? = some e → w.recorded[i + 1]? = some e' →
      e'.prevHash = e.entryHash ∧ ((∀ text, H.digest text ≠ genesis) → e'.prevHash ≠ genesis)) ∧
    (w.removed ≠ 0 → startsAtGenesis w.log.entries = false ∧
      verifyChain H w.log.entries true = false ∧ verifyChain H w.log.store true = false) := by
  have hi : Inv H w := by
    refine hrun.invariant (I := Inv H) .initial ?_
    rintro w₁ a w₂ hi ⟨hkeep, hstep⟩
    exact hi.exec hkeep hstep
  obtain ⟨k, hretains, hremoved⟩ := hi.retains
  have hintact := hretains.intact
  refine ⟨hintact.numbered.pairwise, fun i e e' he he' => ?_, fun hshort => ?_⟩
  · have hprev : e'.prevHash = e.entryHash := hintact.linked.prev_eq he he'
    refine ⟨hprev, fun hdigest => ?_⟩
    rw [hprev, hintact.hashed e (mem_of_getElem? he)]
    exact hdigest _
  · have hmissing : k ≠ 0 := hremoved hshort
    have hne : w.log.store ≠ [] := by
      have hkept := hretains.kept
      rw [hretains.rows_eq]
      intro hnil
      rw [drop_eq_nil_iff] at hnil
      omega
    have hstart : startsAtGenesis w.log.store = false := by
      rw [Bool.eq_false_iff, Ne, hretains.startsAtGenesis_iff hne]
      exact hmissing
    have hchain : verifyChain H w.log.store true = false := by
      rw [Bool.eq_false_iff, Ne, hretains.verifyChain_iff true]
      intro himp
      rw [himp rfl] at hstart
      cases hstart
    rw [hi.same]
    exact ⟨hstart, hchain, hchain⟩

/-- Three entries, of which the first is removed. -/
def sampleWorld : World :=
  LTS.drive (LTS.guarded keepsHead .duplicate (exec sampleSha false)) {}
    [.record sampleDraft, .record sampleDraft, .truncateBefore 1, .record sampleDraft]

theorem head_is_preserved_sample :
    sampleWorld.removed = 1 ∧ sampleWorld.recorded.map (·.seq) = [0, 1, 2] ∧
      startsAtGenesis sampleWorld.log.entries = false :=
  ⟨by decide +kernel, by decide +kernel,
    ((head_is_preserved sampleSha false (LTS.reachable_drive_guarded _ _ _ _ _)).2.2
      (by decide +kernel)).1⟩

/-- One entry, removed by `truncate_before(1)`, and another one. -/
def restartedWorld : World :=
  LTS.drive (exec sampleSha false) {}
    [.record sampleDraft, .truncateBefore 1, .record sampleDraft]

/-- The chain starts again, and is reported as complete although an entry is missing. -/
theorem restarted_chain :
    (system sampleSha false).Reachable {} restartedWorld ∧
    restartedWorld.removed = 1 ∧
    restartedWorld.recorded.map (·.seq) = [0, 0] ∧
    (∀ e ∈ restartedWorld.recorded, e.prevHash = genesis) ∧
    startsAtGenesis restartedWorld.log.entries = true ∧
    verifyIntegrity sampleSha restartedWorld.log = true ∧
    verifyChain sampleSha restartedWorld.log.store true = true :=
  ⟨LTS.reachable_drive _ _ _, by decide +kernel, by decide +kernel, by decide +kernel,
    by decide +kernel, by decide +kernel, by decide +kernel⟩

end AgentBridge.Memory
