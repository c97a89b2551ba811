import AgentBridge.Witness.Journal

/-!
# The order of an exported history

`verify_chain` sorts the records that it is given. `verify_anchored_audit` then looks for the
witnessed entry at position `seq - 1` of the list as it was given, not of the sorted one. For a
history in ascending order this is the record with the number `seq - 1`; for another order of the
same records it is some other one, and a complete history is refused, or one that is not the
witnessed one is accepted.

* `accepted_iff_anchored` : **accepted are the complete histories with the witnessed entry** exactly
  where the record at the place that is looked at has the witnessed hash if the right one has it.
-/

namespace AgentBridge.Witness

open Audit HashChain List

/-! ### The witnessed entry -/

/-- The records form a complete chain, and it has the witnessed entry: the one before number `seq`,
or none at all. -/
@[mk_iff]
structure Anchored (L : Library) (records : List AuditEntry) (seq : ℕ) (head : PyString) : Prop where
  complete : Intact L.sha (byNumber records)
  witnessed : seq = 0 ∧ head = genesis ∨ ∃ e ∈ records, e.seq = seq - 1 ∧ e.entryHash = head

section Anchored

variable {L : Library} {records : List AuditEntry} {checkpoint witness : Object} {seq : ℕ}
  {head : PyString}

/-- `verify_chain` accepts the records that are a complete chain when they are sorted. -/
theorem verifyChain_true_iff {H : Sha256} : verifyChain H records true = true ↔
    Intact H (byNumber records) := by
  have hsorted : (byNumber records).Pairwise (·.seq ≤ ·.seq) :=
    pairwise_insertionSort _ records
  have hsort : verifyChain H records true =
      verifyChain H (byNumber records) true := by
    rw [verifyChain, verifyChain, byNumber_eq hsorted]
  rw [hsort]
  exact ⟨Intact.of_verifyChain hsorted, fun h => h.verifyChain_eq true⟩

/-- The records of a complete chain have the numbers below their count. -/
theorem lt_of_mem (h : Intact L.sha (byNumber records)) {e : AuditEntry}
    (he : e ∈ records) : 0 ≤ e.seq ∧ e.seq < records.length := by
  have hmem : e ∈ byNumber records := (mem_insertionSort _).mpr he
  obtain ⟨i, hi⟩ := mem_iff_getElem?.mp hmem
  obtain ⟨hlt, -⟩ := List.getElem?_eq_some_iff.mp hi
  rw [length_insertionSort] at hlt
  rw [h.numbered.getElem? hi]
  omega

theorem eq_of_seq_eq (h : Intact L.sha (byNumber records))
    {e e' : AuditEntry} (he : e ∈ records) (he' : e' ∈ records) (hseq : e.seq = e'.seq) :
    e = e' := by
  have hmem : e ∈ byNumber records := (mem_insertionSort _).mpr he
  have hmem' : e' ∈ byNumber records := (mem_insertionSort _).mpr he'
  obtain ⟨i, hi⟩ := mem_iff_getElem?.mp hmem
  obtain ⟨j, hj⟩ := mem_iff_getElem?.mp hmem'
  rw [h.numbered.getElem? hi, h.numbered.getElem? hj] at hseq
  obtain rfl : i = j := by omega
  exact Option.some.inj (hi.symm.trans hj)

theorem accepted_iff {checkpointKey witnessKey : PyString}
    (henvelopes : checkEnvelopes L checkpoint witness checkpointKey witnessKey = .ok seq)
    (hhead : witness.str "head_hash" = some head) :
    (∃ summary, verifyAnchoredAudit L records checkpoint witness checkpointKey witnessKey =
      .ok summary) ↔ Intact L.sha (byNumber records) ∧
        seq ≤ records.length ∧ headAt records seq = some head := by
  obtain ⟨witnessId, hid⟩ := (checkEnvelopes_ok henvelopes).named
  simp only [verifyAnchoredAudit, henvelopes, Except.ok_bind, checkHistory_eq_ok, hid, hhead,
    verifyChain_true_iff, Option.some.injEq]
  constructor
  · rintro ⟨summary, hintact, hle, hat, -, rfl, -, -⟩
    exact ⟨hintact, hle, hat⟩
  · rintro ⟨hintact, hle, hat⟩
    exact ⟨⟨witnessId, seq, head, records.length⟩, hintact, hle, hat, rfl, rfl, rfl, rfl⟩

/-- The record at position `seq - 1` of the list has the hash exactly if the record with the number
`seq - 1` has it. -/
def ReadsHead (records : List AuditEntry) (seq : ℕ) (head : PyString) : Prop :=
  seq ≠ 0 → ((∃ e, records[seq - 1]? = some e ∧ e.entryHash = head) ↔
    ∃ e ∈ records, e.seq = seq - 1 ∧ e.entryHash = head)

/-- On a complete history the two readings of the head agree only where the hashes do. -/
theorem readsHead_iff (hintact : Intact L.sha (byNumber records)) :
    (seq ≤ records.length ∧ headAt records seq = some head ↔
      seq = 0 ∧ head = genesis ∨ ∃ e ∈ records, e.seq = seq - 1 ∧ e.entryHash = head) ↔
    ReadsHead records seq head := by
  by_cases hzero : seq = 0
  · subst hzero
    -- no record has a number below zero
    have hnone : ¬∃ e ∈ records, e.seq = ((0 : ℕ) : ℤ) - 1 ∧ e.entryHash = head := by
      rintro ⟨e, he, hseq, -⟩
      have hnonneg := (lt_of_mem hintact he).1
      omega
    rw [or_iff_left hnone, headAt, if_pos rfl, Option.some.injEq, eq_comm]
    simp [ReadsHead]
  · rw [or_iff_right (fun h => hzero h.1), headAt, if_neg hzero, Option.map_eq_some_iff, ReadsHead,
      forall_prop_of_true hzero]
    have hbound : (∃ e, records[seq - 1]? = some e ∧ e.entryHash = head) → seq ≤ records.length := by
      rintro ⟨e, he, -⟩
      obtain ⟨hlt, -⟩ := List.getElem?_eq_some_iff.mp he
      omega
    rw [and_iff_right_of_imp hbound]

/-- The history is in ascending order, or at least the record at the place that is looked at is the
one that is looked for. -/
def InPlace (records : List AuditEntry) (seq : ℕ) : Prop :=
  records.Pairwise (·.seq ≤ ·.seq) ∨
    ∀ e, seq ≠ 0 → records[seq - 1]? = some e → e.seq = seq - 1

theorem InPlace.seq_eq (h : InPlace records seq)
    (hintact : Intact L.sha (byNumber records)) {e : AuditEntry}
    (hzero : seq ≠ 0) (he : records[seq - 1]? = some e) : e.seq = seq - 1 := by
  rcases h with hsorted | hplace
  · rw [byNumber_eq hsorted] at hintact
    rw [hintact.numbered.getElem? he]
    omega
  · exact hplace e hzero he

theorem InPlace.readsHead (hplace : InPlace records seq)
    (hintact : Intact L.sha (byNumber records)) :
    ReadsHead records seq head := by
  intro hzero
  constructor
  · rintro ⟨e, he, hhash⟩
    exact ⟨e, mem_of_getElem? he, hplace.seq_eq hintact hzero he, hhash⟩
  · rintro ⟨e, he, hseq, hhash⟩
    have hlt := (lt_of_mem hintact he).2
    have hbound : seq - 1 < records.length := by omega
    have hfound : records[seq - 1]? = some records[seq - 1] := List.getElem?_eq_getElem hbound
    have hsame : records[seq - 1] = e :=
      eq_of_seq_eq hintact (getElem_mem _) he
        ((hplace.seq_eq hintact hzero hfound).trans hseq.symm)
    exact ⟨e, hfound.trans (congrArg some hsame), hhash⟩

end Anchored

/-- **Accepted are the complete histories with the witnessed entry**, for every checkpoint and every
witness that passes the checks of signatures, keys and fields and matches the checkpoint, exactly if
the history is not complete, or the record at position `seq - 1` of the list and the record with the
number `seq - 1` both have the witnessed hash or neither has it. This is so in ascending order, or
with the right record in its place. -/
theorem accepted_iff_anchored (L : Library) (records : List AuditEntry)
    (checkpoint witness : Object) (checkpointKey witnessKey : PyString) (seq : ℕ) (head : PyString)
    (henvelopes : checkEnvelopes L checkpoint witness checkpointKey witnessKey = .ok seq)
    (hhead : witness.str "head_hash" = some head) :
    (((∃ summary, verifyAnchoredAudit L records checkpoint witness checkpointKey witnessKey =
        .ok summary) ↔ Anchored L records seq head) ↔
      (verifyChain L.sha records true = true → ReadsHead records seq head)) ∧
    (InPlace records seq →
      ((∃ summary, verifyAnchoredAudit L records checkpoint witness checkpointKey witnessKey =
        .ok summary) ↔ Anchored L records seq head)) := by
  have hexact : ((∃ summary, verifyAnchoredAudit L records checkpoint witness checkpointKey
      witnessKey = .ok summary) ↔ Anchored L records seq head) ↔
      (verifyChain L.sha records true = true → ReadsHead records seq head) := by
    rw [accepted_iff henvelopes hhead, anchored_iff, verifyChain_true_iff]
    by_cases hintact : Intact L.sha (byNumber records)
    · rw [and_iff_right hintact, and_iff_right hintact, readsHead_iff hintact,
        forall_prop_of_true hintact]
    · simp [hintact]
  refine ⟨hexact, fun hplace => hexact.mpr fun hchain => ?_⟩
  exact hplace.readsHead (verifyChain_true_iff.mp hchain)

def thirdEntry : AuditEntry :=
  let e : AuditEntry := { sampleEntry with seq := 2, prevHash := nextEntry.entryHash }
  { e with entryHash := computeHash sampleSha e }

/-- Three linked entries that are not in order, of which the first one is in its place. -/
theorem accepted_iff_anchored_sample :
    verifyChain sampleSha [sampleEntry, thirdEntry, nextEntry] true = true ∧
    (∃ summary, verifyAnchoredAudit sampleLibrary [sampleEntry, thirdEntry, nextEntry]
      (sampleCall 1 sampleEntry.entryHash []).checkpoint
      (sampleCall 1 sampleEntry.entryHash []).witness samplePins.checkpointKey
      samplePins.witnessKey = .ok summary) ∧
    Anchored sampleLibrary [sampleEntry, thirdEntry, nextEntry] 1 sampleEntry.entryHash := by
  have haccepted : ∃ summary, verifyAnchoredAudit sampleLibrary [sampleEntry, thirdEntry, nextEntry]
      (sampleCall 1 sampleEntry.entryHash []).checkpoint
      (sampleCall 1 sampleEntry.entryHash []).witness samplePins.checkpointKey
      samplePins.witnessKey = .ok summary :=
    ⟨⟨samplePins.witnessId, 1, sampleEntry.entryHash, 3⟩, by decide +kernel⟩
  refine ⟨by decide +kernel, haccepted, ?_⟩
  refine ((accepted_iff_anchored sampleLibrary [sampleEntry, thirdEntry, nextEntry] _ _ _ _ 1
    sampleEntry.entryHash (by decide +kernel) (by decide +kernel)).2 (.inr ?_)).mp haccepted
  rintro e - ⟨⟩
  rfl

/-- `verify_anchored_audit` accepts a history of the two entries, in this order. -/
def accepts (records : List AuditEntry) (head : PyString) : Bool :=
  (verifyAnchoredAudit sampleLibrary records (sampleCall 1 head []).checkpoint
    (sampleCall 1 head []).witness samplePins.checkpointKey samplePins.witnessKey).toOption.isSome

/-- The history of two entries is complete in either order. In ascending order it is accepted for
the hash of its first entry; in the other order it is refused for this one, and accepted for the
hash of its second entry. -/
theorem reversed_history_misread :
    verifyChain sampleSha [nextEntry, sampleEntry] true = true ∧
    accepts [sampleEntry, nextEntry] sampleEntry.entryHash = true ∧
    accepts [nextEntry, sampleEntry] sampleEntry.entryHash = false ∧
    accepts [sampleEntry, nextEntry] nextEntry.entryHash = false ∧
    accepts [nextEntry, sampleEntry] nextEntry.entryHash = true := by
  decide +kernel

end AgentBridge.Witness
