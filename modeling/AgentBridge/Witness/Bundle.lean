import AgentBridge.Witness.Journal

/-!
# Evidence bundles

`verify_evidence_bundle` checks exported records against one signed checkpoint. The records may be
the whole log, the log with newer entries after the checkpoint, or a log whose oldest entries were
dropped at the checkpoint. Which case it is follows from the first number and the signed one.

A branch for entries before a checkpoint with the number zero compares the signed head with the
genesis, and nothing with the records. Only records with negative numbers get there.

* `bundle_descends` : **an accepted bundle descends from the signed checkpoint**, exactly if it is not
  a chain from a negative number on that has the signed head.
-/

namespace AgentBridge.Witness

open Audit HashChain List
open Protocols (Value)

/-- `isinstance(seq, int) and seq >= 0`; in Python `True` is such a number. -/
def position? : Value → Option ℕ
  | .bool b => some (if b then 1 else 0)
  | .int (.ofNat n) => some n
  | _ => none

section Verify

variable (L : Library)

/-- The checks of the records against the signed number and head. -/
def checkPosition (ordered : List AuditEntry) (seq : ℕ) (head : PyString) : Except Denied Unit :=
  match ordered with
  | [] => require (seq = 0 && head = genesis) "non-empty checkpoint but no log"
  | first :: _ =>
    if first.seq > seq then .error "unanchored history gap before checkpoint"
    else if first.seq = seq then
      require (first.prevHash = head) "truncated history fails checkpoint linkage"
    -- there are entries before the checkpoint
    else if seq = 0 then require (head = genesis) "genesis checkpoint mismatch"
    else
      require ((ordered.find? fun e => e.seq = (seq : ℤ) - 1).any (·.entryHash = head))
        "signed checkpoint disagrees with chain"

/-- `verify_evidence_bundle`. -/
def verifyEvidenceBundle (records : List AuditEntry) (checkpoint : Object)
    (trustedKey : PyString) : Except Denied Unit := do
  require (trustedKey.codes.length = 64) "trusted signer key must be 32-byte hex"
  require (checkpoint.str "public_key_hex" = some trustedKey) "checkpoint signer is not trusted"
  require (verifyCheckpoint L checkpoint) "invalid checkpoint signature"
  match (checkpoint.get "seq").bind position?, checkpoint.str "head_hash" with
  | some seq, some head =>
    let ordered := byNumber records
    require (verifyChain L.sha ordered (ordered.head?.all (·.seq = 0))) "broken audit chain"
    checkPosition ordered seq head
  | _, _ => .error "invalid checkpoint position"

end Verify

/-! ### Descent from the checkpoint -/

/-- The checkpoint is signed by the trusted key, and says where it is. -/
structure Signed (L : Library) (checkpoint : Object) (trustedKey : PyString) (seq : ℕ)
    (head : PyString) : Prop where
  length : trustedKey.codes.length = 64
  signer : checkpoint.str "public_key_hex" = some trustedKey
  signature : verifyCheckpoint L checkpoint = true
  position : (checkpoint.get "seq").bind position? = some seq
  headHash : checkpoint.str "head_hash" = some head

/-- The records, by number, are one chain from the number of the first one on. -/
structure Chained (L : Library) (records : List AuditEntry) : Prop where
  linked : ∀ first ∈ (byNumber records).head?,
    (AuditEntry.format.after first.prevHash).Linked (byNumber records) ∧
      Numbered (·.seq) first.seq (byNumber records)
  hashed : ∀ e ∈ records, e.entryHash = computeHash L.sha e

/-- The records are one chain, and it is the signed one. -/
structure Descent (L : Library) (records : List AuditEntry) (seq : ℕ) (head : PyString) : Prop
    extends Chained L records where
  nonneg : ∀ e ∈ records, 0 ≤ e.seq
  before : ∀ e ∈ records, e.seq = seq - 1 → e.entryHash = head
  after : ∀ e ∈ records, e.seq = seq → e.prevHash = head
  anchored : (∀ e ∈ records, e.seq ≠ seq - 1 ∧ e.seq ≠ seq) →
    records = [] ∧ seq = 0 ∧ head = genesis

/-- The records are one chain from a negative number on. A checkpoint with the number zero is that
of the genesis; another one has the hash of the record before it. -/
structure Slips (L : Library) (records : List AuditEntry) (seq : ℕ) (head : PyString) : Prop
    extends Chained L records where
  negative : ∃ e ∈ records, e.seq < 0
  head : if seq = 0 then head = genesis else ∃ e ∈ records, e.seq = seq - 1 ∧ e.entryHash = head

section Descent

variable {L : Library} {records : List AuditEntry} {checkpoint : Object} {trustedKey : PyString}
  {seq : ℕ} {head : PyString}

/-- What is accepted, once the checkpoint is. -/
theorem verifyEvidenceBundle_eq_ok (h : Signed L checkpoint trustedKey seq head) :
    verifyEvidenceBundle L records checkpoint trustedKey = .ok () ↔
      verifyChain L.sha (byNumber records)
          ((byNumber records).head?.all (·.seq = 0)) = true ∧
        checkPosition (byNumber records) seq head = .ok () := by
  simp only [verifyEvidenceBundle, h.length, h.signer, h.signature, h.position, h.headHash,
    Except.bind_eq_ok, require_eq_ok, decide_true, true_and, exists_const]

/-- Of two records with consecutive numbers the second one names the hash of the first one. -/
theorem prevHash_eq {log : List AuditEntry} {genesis : PyString} {n : ℤ}
    (hlinked : (AuditEntry.format.after genesis).Linked log) (hnumbered : Numbered (·.seq) n log)
    {e e' : AuditEntry} (he : e ∈ log) (he' : e' ∈ log) (hnext : e'.seq = e.seq + 1) :
    e'.prevHash = e.entryHash := by
  obtain ⟨i, hi⟩ := mem_iff_getElem?.mp he
  obtain ⟨j, hj⟩ := mem_iff_getElem?.mp he'
  rw [hnumbered.getElem? hi, hnumbered.getElem? hj] at hnext
  obtain rfl : j = i + 1 := by omega
  exact hlinked.prev_eq hi hj

theorem Chained.eq_of_seq_eq (h : Chained L records) {e e' : AuditEntry} (he : e ∈ records)
    (he' : e' ∈ records) (hseq : e.seq = e'.seq) : e = e' := by
  have hmem : ∀ {e}, e ∈ records → e ∈ byNumber records := fun he =>
    (mem_insertionSort _).mpr he
  cases hordered : byNumber records with
  | nil =>
    have hmem := hmem he
    rw [hordered] at hmem
    cases hmem
  | cons first rest =>
    obtain ⟨-, hnumbered⟩ := h.linked first (by rw [hordered]; rfl)
    obtain ⟨i, hi⟩ := mem_iff_getElem?.mp (hmem he)
    obtain ⟨j, hj⟩ := mem_iff_getElem?.mp (hmem he')
    rw [hnumbered.getElem? hi, hnumbered.getElem? hj] at hseq
    obtain rfl : i = j := by omega
    exact Option.some.inj (hi.symm.trans hj)

variable {first : AuditEntry} {rest : List AuditEntry}

section Cons

variable (hordered : byNumber records = first :: rest)
include hordered

theorem mem_iff_of_ordered {e : AuditEntry} : e ∈ records ↔ e ∈ first :: rest := by
  rw [← hordered]
  exact (mem_insertionSort _).symm

/-- No number is below the first one. -/
theorem Chained.first_le (h : Chained L records) {e : AuditEntry} (he : e ∈ records) :
    first.seq ≤ e.seq := by
  obtain ⟨-, hnumbered⟩ := h.linked first (by rw [hordered]; rfl)
  rw [hordered] at hnumbered
  exact hnumbered.le_of_mem ((mem_iff_of_ordered hordered).mp he)

/-- `verify_chain` without the genesis: the records are chained. -/
theorem chained_iff : Chained L records ↔
    (AuditEntry.format.after first.prevHash).Linked (first :: rest) ∧
      Numbered (·.seq) first.seq (first :: rest) ∧
      ∀ e ∈ first :: rest, e.entryHash = computeHash L.sha e := by
  constructor
  · intro h
    obtain ⟨hlinked, hnumbered⟩ := h.linked first (by rw [hordered]; rfl)
    rw [hordered] at hlinked hnumbered
    exact ⟨hlinked, hnumbered, fun e he => h.hashed e ((mem_iff_of_ordered hordered).mpr he)⟩
  · rintro ⟨hlinked, hnumbered, hhashed⟩
    refine ⟨?_, fun e he => hhashed e ((mem_iff_of_ordered hordered).mp he)⟩
    rw [hordered]
    rintro _ ⟨⟩
    exact ⟨hlinked, hnumbered⟩

/-- A bundle with records: the chain begins at the checkpoint, or has the entry before it. -/
theorem Descent.of_cons (h : Chained L records) (hnonneg : ∀ e ∈ records, 0 ≤ e.seq)
    (hposition : first.seq = seq ∧ first.prevHash = head ∨ ∃ e ∈ records, e.seq = seq - 1 ∧
      e.entryHash = head) : Descent L records seq head := by
  have hfirst : first ∈ records := (mem_iff_of_ordered hordered).mpr mem_cons_self
  refine ⟨h, hnonneg, ?_, ?_, ?_⟩
  · intro e he hseq
    rcases hposition with ⟨hstart, -⟩ | ⟨e', he', hseq', hhash⟩
    · -- the chain begins at the checkpoint
      have hle := h.first_le hordered he
      omega
    · rw [h.eq_of_seq_eq he he' (hseq.trans hseq'.symm), hhash]
  · intro e he hseq
    rcases hposition with ⟨hstart, hprev⟩ | ⟨e', he', hseq', hhash⟩
    · rw [h.eq_of_seq_eq he hfirst (hseq.trans hstart.symm), hprev]
    · obtain ⟨hlinked, hnumbered, -⟩ := (chained_iff hordered).mp h
      rw [prevHash_eq hlinked hnumbered ((mem_iff_of_ordered hordered).mp he')
        ((mem_iff_of_ordered hordered).mp he) (by omega), hhash]
  · intro hneither
    exfalso
    rcases hposition with ⟨hstart, -⟩ | ⟨e', he', hseq', -⟩
    · exact (hneither first hfirst).2 hstart
    · exact (hneither e' he').1 hseq'

end Cons

/-- What `checkPosition` finds before the checkpoint. -/
theorem find_any_iff (seq : ℕ) (head : PyString) (h : Chained L records) {ordered : List AuditEntry}
    (hmem : ∀ e, e ∈ ordered ↔ e ∈ records) :
    (ordered.find? fun e => e.seq = (seq : ℤ) - 1).any (·.entryHash = head) = true ↔
      ∃ e ∈ records, e.seq = seq - 1 ∧ e.entryHash = head := by
  rw [Option.any_eq_true]
  constructor
  · rintro ⟨e, hfind, hhash⟩
    have hseq := List.find?_some hfind
    exact ⟨e, (hmem e).mp (mem_of_find?_eq_some hfind), of_decide_eq_true hseq,
      of_decide_eq_true hhash⟩
  · rintro ⟨e, he, hseq, hhash⟩
    cases hfind : ordered.find? fun e => e.seq = (seq : ℤ) - 1 with
    | none => exact absurd (decide_eq_true hseq) (List.find?_eq_none.mp hfind e ((hmem e).mpr he))
    | some e' =>
      have hseq' := List.find?_some hfind
      have he' := (hmem e').mp (mem_of_find?_eq_some hfind)
      obtain rfl := h.eq_of_seq_eq he he' (hseq.trans (of_decide_eq_true hseq').symm)
      exact ⟨e, rfl, decide_eq_true hhash⟩

/-- The chain begins at the checkpoint, or before it and has its head. -/
theorem checkPosition_eq_ok (h : Chained L records)
    (hordered : byNumber records = first :: rest) :
    checkPosition (first :: rest) seq head = .ok () ↔
      first.seq = seq ∧ first.prevHash = head ∨ first.seq < seq ∧
        if seq = 0 then head = genesis else ∃ e ∈ records, e.seq = seq - 1 ∧ e.entryHash = head := by
  have hfind := find_any_iff seq head h fun e => (mem_iff_of_ordered hordered).symm
  rw [checkPosition]
  by_cases hgap : first.seq > seq
  · rw [if_pos hgap]
    have hne : ¬first.seq = seq := by omega
    have hlt : ¬first.seq < seq := by omega
    simp [hne, hlt]
  · rw [if_neg hgap]
    by_cases hstart : first.seq = seq
    · rw [if_pos hstart, require_eq_ok, decide_eq_true_eq]
      simp [hstart]
    · have hlt : first.seq < seq := by omega
      rw [if_neg hstart]
      by_cases hzero : seq = 0
      · simp only [if_pos hzero, require_eq_ok, decide_eq_true_eq, hstart, hlt, false_and, true_and,
          false_or]
      · simp only [if_neg hzero, require_eq_ok, hfind, hstart, hlt, false_and, true_and, false_or]

theorem accepted_cons (hsigned : Signed L checkpoint trustedKey seq head)
    (hordered : byNumber records = first :: rest) :
    verifyEvidenceBundle L records checkpoint trustedKey = .ok () ↔
      Chained L records ∧ (first.seq = 0 → first.prevHash = genesis) ∧
        (first.seq = seq ∧ first.prevHash = head ∨ first.seq < seq ∧
          if seq = 0 then head = genesis
          else ∃ e ∈ records, e.seq = seq - 1 ∧ e.entryHash = head) := by
  have hsorted : (first :: rest).Pairwise (·.seq ≤ ·.seq) :=
    hordered ▸ pairwise_insertionSort _ records
  rw [verifyEvidenceBundle_eq_ok hsigned, hordered, verifyChain_iff L.sha hsorted]
  simp only [List.head?_cons, Option.mem_some_iff, forall_eq', Option.all_some, decide_eq_true_eq,
    ← chained_iff hordered]
  constructor
  · rintro ⟨⟨hgenesis, hchained⟩, hposition⟩
    exact ⟨hchained, fun hzero => (hgenesis hzero).2, (checkPosition_eq_ok hchained hordered).mp
      hposition⟩
  · rintro ⟨hchained, hgenesis, hposition⟩
    exact ⟨⟨fun hzero => ⟨hzero, hgenesis hzero⟩, hchained⟩,
      (checkPosition_eq_ok hchained hordered).mpr hposition⟩

theorem Slips.accepted (hsigned : Signed L checkpoint trustedKey seq head)
    (h : Slips L records seq head) :
    verifyEvidenceBundle L records checkpoint trustedKey = .ok () := by
  obtain ⟨e, he, hneg⟩ := h.negative
  cases hordered : byNumber records with
  | nil =>
    have hmem : e ∈ byNumber records := (mem_insertionSort _).mpr he
    rw [hordered] at hmem
    cases hmem
  | cons first rest =>
    have hfirst := h.toChained.first_le hordered he
    refine (accepted_cons hsigned hordered).mpr ⟨h.toChained, fun hzero => ?_, .inr ⟨?_, h.head⟩⟩
    · omega
    · omega

/-- An accepted bundle descends from the checkpoint or slips through. -/
theorem descent_or_slips (hsigned : Signed L checkpoint trustedKey seq head)
    (h : verifyEvidenceBundle L records checkpoint trustedKey = .ok ()) :
    Descent L records seq head ∨ Slips L records seq head := by
  cases hordered : byNumber records with
  | nil =>
    have hposition := ((verifyEvidenceBundle_eq_ok hsigned).mp h).2
    have hempty : records = [] :=
      length_eq_zero_iff.mp ((length_insertionSort _ _).symm.trans (congrArg length hordered))
    subst hempty
    rw [hordered, checkPosition, require_eq_ok, Bool.and_eq_true, decide_eq_true_eq,
      decide_eq_true_eq] at hposition
    exact .inl ⟨⟨by rintro _ ⟨⟩, nofun⟩, nofun, nofun, nofun, fun _ => ⟨rfl, hposition⟩⟩
  | cons first rest =>
    obtain ⟨hchained, -, hposition⟩ := (accepted_cons hsigned hordered).mp h
    have hfirst : first ∈ records := (mem_iff_of_ordered hordered).mpr mem_cons_self
    by_cases hneg : first.seq < 0
    · -- a chain from a negative number on does not begin at the checkpoint
      rcases hposition with ⟨hstart, -⟩ | ⟨-, hhead⟩
      · omega
      · exact .inr ⟨hchained, ⟨first, hfirst, hneg⟩, hhead⟩
    · have hnonneg : ∀ e ∈ records, 0 ≤ e.seq := by
        intro e he
        have hle := hchained.first_le hordered he
        omega
      refine .inl (Descent.of_cons hordered hchained hnonneg ?_)
      rcases hposition with hstart | ⟨hlt, hhead⟩
      · exact .inl hstart
      · rw [if_neg (by omega)] at hhead
        exact .inr hhead

end Descent

/-- **An accepted bundle descends from the signed checkpoint**: the records are one chain without a
negative number, the record before the signed number has the signed hash, the record with the signed
number names it, and without both the bundle is empty and the checkpoint that of the genesis. This
is so for all bundles and checkpoints but the chains from a negative number on that have the signed
head, or that come with the checkpoint of the genesis. -/
theorem bundle_descends (L : Library) (records : List AuditEntry) (checkpoint : Object)
    (trustedKey : PyString) (seq : ℕ) (head : PyString)
    (hsigned : Signed L checkpoint trustedKey seq head) :
    (verifyEvidenceBundle L records checkpoint trustedKey = .ok () → Descent L records seq head) ↔
      ¬Slips L records seq head := by
  constructor
  · intro h hslips
    obtain ⟨e, he, hneg⟩ := hslips.negative
    have hnonneg := (h (hslips.accepted hsigned)).nonneg e he
    omega
  · intro hslips h
    exact (descent_or_slips hsigned h).resolve_right hslips

/-- Two linked entries, the second one first, and the checkpoint between them. -/
theorem bundle_descends_sample :
    verifyEvidenceBundle sampleLibrary [nextEntry, sampleEntry]
        (sampleCall 1 sampleEntry.entryHash []).checkpoint samplePins.checkpointKey = .ok () ∧
      Descent sampleLibrary [nextEntry, sampleEntry] 1 sampleEntry.entryHash := by
  have haccepted : verifyEvidenceBundle sampleLibrary [nextEntry, sampleEntry]
      (sampleCall 1 sampleEntry.entryHash []).checkpoint samplePins.checkpointKey = .ok () := by
    decide +kernel
  refine ⟨haccepted, (bundle_descends sampleLibrary [nextEntry, sampleEntry] _ _ 1 _
    ⟨by decide +kernel, by decide +kernel, by decide +kernel, rfl, rfl⟩).mpr ?_ haccepted⟩
  rintro ⟨-, ⟨e, he, hneg⟩, -⟩
  simp only [mem_cons, not_mem_nil, or_false] at he
  rcases he with rfl | rfl
  · exact absurd hneg (by decide)
  · exact absurd hneg (by decide)

/-- An entry with a negative number. -/
def negativeEntry : AuditEntry :=
  let e : AuditEntry := { sampleEntry with seq := -1 }
  { e with entryHash := computeHash sampleSha e }

/-- A record with the number -1 is accepted with the checkpoint of the empty log, although its hash
is not the signed one. -/
theorem negative_number_accepted :
    verifyEvidenceBundle sampleLibrary [negativeEntry] (sampleCall 0 genesis []).checkpoint
        samplePins.checkpointKey = .ok () ∧
      negativeEntry.seq = (0 : ℕ) - 1 ∧ negativeEntry.entryHash ≠ genesis := by
  decide +kernel

end AgentBridge.Witness
