import AgentBridge.LTS.Basic
import AgentBridge.Witness.Anchor
import Mathlib.Data.List.MinMax

/-!
# The witness journal

A witness journal accepts checkpoints of an audit history, each with the complete history that it is
about. `accept` compares a new checkpoint with the latest one of the journal only. All the same no
two accepted histories differ in an accepted prefix: a hash determines everything before it.

A journal is pinned to a witness. The file can hold the journals of several witnesses, and several
processes can use the same journal: `accept` does its checks on its arguments and then runs a single
write transaction, so it is one step here.

* `journal_commits_to_one_history` : **all accepted checkpoints are about one chain**.
-/

namespace AgentBridge.Witness

open Audit HashChain AuditEntry List Except

/-! ### The journal -/

/-- What a `WitnessJournal` is opened with. -/
structure Pins where
  checkpointKey : PyString
  witnessKey : PyString
  witnessId : PyString

/-- A row of `witness_journal`. -/
structure Row where
  witnessId : PyString
  seq : ℕ
  checkpointDigest : PyString
  headHash : PyString
  checkpoint : Object
  receipt : Object

/-- A call of `accept` on a journal. -/
structure Call where
  pins : Pins
  records : List AuditEntry
  checkpoint : Object
  witness : Object

/-- The head that the checkpoint is about. -/
def Call.head (c : Call) : Option PyString := c.checkpoint.str "head_hash"

structure Response where
  duplicate : Bool
  seq : ℕ

def rowsOf (rows : List Row) (witnessId : PyString) : List Row :=
  rows.filter (·.witnessId = witnessId)

/-- `SELECT … WHERE witness_id=? ORDER BY seq DESC LIMIT 1`. -/
def latest (rows : List Row) (witnessId : PyString) : Option Row :=
  (rowsOf rows witnessId).argmax Row.seq

/-- `INSERT INTO witness_journal`. -/
def insertRow (rows : List Row) (row : Row) : Except Denied (List Row) :=
  if (rowsOf rows row.witnessId).any (·.seq = row.seq) then
    .error "UNIQUE constraint failed: witness_journal.witness_id, witness_journal.seq"
  else .ok (rows ++ [row])

section Accept

variable (L : Library)

/-- `WitnessJournal.accept`. -/
def accept (rows : List Row) (c : Call) : Except Denied (List Row × Response) := do
  let summary ← verifyAnchoredAudit L c.records c.checkpoint c.witness c.pins.checkpointKey
    c.pins.witnessKey
  require (c.witness.str "witness_id" = some c.pins.witnessId) "witness identity not pinned"
  let seq := summary.witnessedSequence
  let digest ← checkpointDigest L c.checkpoint
  let row : Row := ⟨c.pins.witnessId, seq, digest, summary.headHash, c.checkpoint, c.witness⟩
  match latest rows c.pins.witnessId with
  | none =>
    let rows ← insertRow rows row
    return (rows, ⟨false, seq⟩)
  | some prior =>
    if seq < prior.seq then .error "rollback behind journal head"
    else if seq = prior.seq then
      if digest ≠ prior.checkpointDigest then .error "conflicting checkpoint at same sequence"
      else .ok (rows, ⟨true, seq⟩)
    else
      require (prior.seq ≤ c.records.length) "history truncated before prior witness"
      require (headAt c.records prior.seq = some prior.headHash)
        "fork detected against previous witness"
      let rows ← insertRow rows row
      return (rows, ⟨false, seq⟩)

structure Accepted where
  call : Call
  seq : ℕ

/-- The table, and the calls that were accepted so far. -/
structure World where
  rows : List Row := []
  accepted : List Accepted := []

/-- The accepted calls on the journal of a witness. -/
def World.acceptedBy (s : World) (witnessId : PyString) : List Accepted :=
  s.accepted.filter (·.call.pins.witnessId = witnessId)

def exec (s : World) (c : Call) : Except Denied World := do
  let (rows, response) ← accept L s.rows c
  return ⟨rows, s.accepted ++ [⟨c, response.seq⟩]⟩

/-- The calls of any number of processes, in the order of their transactions. -/
def run (calls : List Call) : World := LTS.drive (exec L) {} calls

/-- The texts that a call hashes. -/
def texts (c : Call) : List (List Char) :=
  c.records.map payload ++ (L.dumps c.checkpoint).toList

end Accept

/-! ### What an accepted call does -/

theorem headAt_eq {records : List AuditEntry} {seq : ℕ} (h : seq ≤ records.length) :
    headAt records seq = some (format.head (records.take seq)) := by
  cases seq with
  | zero => rfl
  | succ n =>
    have hn : n < records.length := h
    rw [headAt, if_neg n.succ_ne_zero, Nat.add_sub_cancel, getElem?_eq_getElem hn,
      take_add_one, getElem?_eq_getElem hn, Option.toList_some, Format.head_concat]
    rfl

variable {row : Row}

theorem insertRow_eq_ok {rows rows' : List Row} (h : insertRow rows row = .ok rows') :
    rows' = rows ++ [row] := by
  unfold insertRow at h
  split at h
  · cases h
  · cases h
    rfl

variable {L : Library} {rows rows' : List Row} {c : Call} {response : Response}

/-- What the transaction of an accepted call does: nothing, for the latest checkpoint, or one new
row after it. -/
inductive Outcome (L : Library) (rows : List Row) (c : Call) (summary : Summary) :
    List Row → Prop
  | duplicate (text : List Char) (prior : Row) :
    L.dumps c.checkpoint = some text → latest rows c.pins.witnessId = some prior →
    summary.witnessedSequence = prior.seq → L.sha.digest text = prior.checkpointDigest →
    Outcome L rows c summary rows
  | inserted (text : List Char) :
    L.dumps c.checkpoint = some text →
    (∀ prior, latest rows c.pins.witnessId = some prior →
      prior.seq < summary.witnessedSequence ∧
      headAt c.records prior.seq = some prior.headHash) →
    Outcome L rows c summary (rows ++ [⟨c.pins.witnessId, summary.witnessedSequence,
      L.sha.digest text, summary.headHash, c.checkpoint, c.witness⟩])

theorem accept_cases (h : accept L rows c = .ok (rows', response)) :
    ∃ summary, Verified L c.records c.checkpoint c.witness summary ∧
      response.seq = summary.witnessedSequence ∧ Outcome L rows c summary rows' := by
  obtain ⟨summary, hverified, h⟩ := bind_eq_ok.mp h
  obtain ⟨-, -, h⟩ := bind_eq_ok.mp h
  obtain ⟨digest, hdigest, h⟩ := bind_eq_ok.mp h
  obtain ⟨text, htext, rfl⟩ := checkpointDigest_eq_ok.mp hdigest
  refine ⟨summary, verifyAnchoredAudit_ok hverified, ?_⟩
  split at h
  case h_1 hnone =>
    obtain ⟨inserted, hinserted, h⟩ := bind_eq_ok.mp h
    cases h
    rw [insertRow_eq_ok hinserted]
    refine ⟨rfl, .inserted text htext fun prior hprior => ?_⟩
    rw [hnone] at hprior
    cases hprior
  case h_2 prior hprior =>
    split at h
    case isTrue => cases h
    case isFalse hbehind =>
      split at h
      case isTrue hsame =>
        split at h
        case isTrue => cases h
        case isFalse hdup =>
          cases h
          exact ⟨rfl, .duplicate text prior htext hprior hsame (not_not.mp hdup)⟩
      case isFalse hnew =>
        obtain ⟨-, -, h⟩ := bind_eq_ok.mp h
        obtain ⟨_, hfork, h⟩ := bind_eq_ok.mp h
        obtain ⟨inserted, hinserted, h⟩ := bind_eq_ok.mp h
        cases h
        rw [require_eq_ok, decide_eq_true_eq] at hfork
        rw [insertRow_eq_ok hinserted]
        refine ⟨rfl, .inserted text htext fun row hrow => ?_⟩
        rw [hprior] at hrow
        cases hrow
        exact ⟨by omega, hfork⟩

/-! ### The invariant -/

/-- The call is about a prefix of the chain. -/
structure Agrees (chain : List AuditEntry) (a : Accepted) : Prop where
  covered : a.seq ≤ chain.length
  head : a.call.head = some (format.head (chain.take a.seq))
  records : (a.call.records.take a.seq).map norm = (chain.take a.seq).map norm

/-- The row holds the checkpoint of a call. -/
structure Recorded (L : Library) (calls : List Call) (row : Row) : Prop where
  digest : ∃ text, L.dumps row.checkpoint = some text ∧ L.sha.digest text = row.checkpointDigest
  head : row.checkpoint.str "head_hash" = some row.headHash
  isHex : row.headHash.isHex 64 = true
  call : ∃ c ∈ calls, c.checkpoint = row.checkpoint

/-- The journal with the rows `rows`, which has accepted `accepted`, is committed to the chain, which
ends at the latest row. -/
structure Commits (L : Library) (calls : List Call) (rows : List Row) (accepted : List Accepted)
    (chain : List AuditEntry) : Prop where
  intact : Intact L.sha chain
  supplied : ∀ e ∈ chain, ∃ c ∈ calls, e ∈ c.records
  agrees : ∀ a ∈ accepted, Agrees chain a
  ascending : accepted.Pairwise (·.seq ≤ ·.seq)
  present : ∀ a ∈ accepted, ∃ row ∈ rows, row.seq = a.seq
  recorded : ∀ row ∈ rows, Recorded L calls row
  sorted : rows.Pairwise (·.seq < ·.seq)
  latest : ∀ row, rows.argmax Row.seq = some row →
    row.seq = chain.length ∧ row.headHash = format.head chain

/-- The digest has no collision among the texts of the calls. -/
abbrev CollisionFree (L : Library) (calls : List Call) : Prop :=
  Set.InjOn L.sha.digest {text | ∃ c ∈ calls, text ∈ texts L c}

section Step

variable {calls : List Call} {accepted : List Accepted} {chain : List AuditEntry}
  {summary : Summary}

theorem CollisionFree.payload (hfree : CollisionFree L calls) {l l' : List AuditEntry}
    (hl : ∀ e ∈ l, ∃ c ∈ calls, e ∈ c.records) (hl' : ∀ e ∈ l', ∃ c ∈ calls, e ∈ c.records) :
    ∀ e ∈ l, ∀ e' ∈ l', L.sha.digest e.payload = L.sha.digest e'.payload →
      e.payload = e'.payload := by
  have hmem : ∀ e : AuditEntry, (∃ c ∈ calls, e ∈ c.records) →
      e.payload ∈ {text | ∃ c ∈ calls, text ∈ texts L c} := by
    rintro e ⟨c, hc, he⟩
    exact ⟨c, hc, mem_append_left _ (mem_map_of_mem he)⟩
  intro e he e' he' hdigest
  exact hfree (hmem e (hl e he)) (hmem e' (hl' e' he')) hdigest

variable {text : List Char}

theorem CollisionFree.checkpoint (hfree : CollisionFree L calls) {c c' : Call} (hc : c ∈ calls)
    (hc' : c' ∈ calls) {text' : List Char} (htext : L.dumps c.checkpoint = some text)
    (htext' : L.dumps c'.checkpoint = some text') (h : L.sha.digest text = L.sha.digest text') :
    text = text' := by
  have hmem : ∀ (c : Call) (text : List Char), c ∈ calls → L.dumps c.checkpoint = some text →
      text ∈ {text | ∃ c ∈ calls, text ∈ texts L c} := by
    intro c text hc htext
    refine ⟨c, hc, mem_append_right _ ?_⟩
    rw [htext]
    exact mem_singleton_self text
  exact hfree (hmem c text hc htext) (hmem c' text' hc' htext') h

/-- What is known of the records of an accepted call. -/
theorem Verified.take (hv : Verified L c.records c.checkpoint c.witness summary)
    (hsorted : c.records.Pairwise (·.seq ≤ ·.seq)) {k : ℕ}
    (hk : k ≤ summary.witnessedSequence) :
    Intact L.sha (c.records.take k) ∧ (c.records.take k).length = k ∧
      headAt c.records k = some (format.head (c.records.take k)) := by
  have hlen : k ≤ c.records.length := hk.trans hv.covered
  exact ⟨(Intact.of_verifyChain hsorted hv.complete).take k, by rw [length_take]; omega,
    headAt_eq hlen⟩

theorem Verified.head_eq (hv : Verified L c.records c.checkpoint c.witness summary) :
    summary.headHash = format.head (c.records.take summary.witnessedSequence) := by
  have hhead := hv.head
  rw [headAt_eq hv.covered] at hhead
  exact (Option.some.inj hhead).symm

theorem Commits.extends (h : Commits L calls rows accepted chain) (hfree : CollisionFree L calls)
    (hc : c ∈ calls) (hintact : Intact L.sha (c.records.take chain.length))
    (hlen : (c.records.take chain.length).length = chain.length)
    (hhead : format.head (c.records.take chain.length) = format.head chain) :
    (c.records.take chain.length).map norm = chain.map norm := by
  refine hintact.map_norm_eq h.intact hlen hhead (hfree.payload ?_ h.supplied)
  exact fun e he => ⟨c, hc, mem_of_mem_take he⟩

/-- The latest row, once more: the checkpoint is the same, so the head is. -/
theorem Commits.duplicate (h : Commits L calls rows accepted chain) (hfree : CollisionFree L calls)
    (hc : c ∈ calls) (hsorted : c.records.Pairwise (·.seq ≤ ·.seq))
    (hv : Verified L c.records c.checkpoint c.witness summary) {prior : Row}
    (htext : L.dumps c.checkpoint = some text) (hprior : rows.argmax Row.seq = some prior)
    (hseq : summary.witnessedSequence = prior.seq)
    (hdigest : L.sha.digest text = prior.checkpointDigest) :
    L.dumps prior.checkpoint = some text ∧
      Commits L calls rows (accepted ++ [⟨c, summary.witnessedSequence⟩]) chain := by
  have hmem : prior ∈ rows := argmax_mem hprior
  obtain ⟨hlength, hhead⟩ := h.latest prior hprior
  obtain ⟨⟨text', htext', hdigest'⟩, hheadHash, hhex, c', hc', hsame⟩ := h.recorded prior hmem
  have heq : text = text' :=
    hfree.checkpoint hc hc' htext (by rw [hsame]; exact htext') (hdigest.trans hdigest'.symm)
  subst heq
  have hstr := L.dumps_headHash htext' htext hheadHash hhex
  have hchain : summary.witnessedSequence = chain.length := hseq.trans hlength
  obtain ⟨hintact, hlen, -⟩ := hv.take hsorted le_rfl
  have hheads : format.head (c.records.take summary.witnessedSequence) = format.head chain := by
    rw [← hv.head_eq, ← hhead]
    exact Option.some.inj (hv.headHash.symm.trans hstr)
  rw [hchain] at hintact hlen hheads ⊢
  have hrecords := h.extends hfree hc hintact hlen hheads
  refine ⟨htext', { h with agrees := ?_, ascending := ?_, present := ?_ }⟩
  · intro a ha
    rcases mem_append.mp ha with hold | hnew
    · exact h.agrees a hold
    · rw [mem_singleton.mp hnew]
      refine ⟨le_rfl, ?_, ?_⟩
      · rw [take_length, ← hhead]
        exact hstr
      · rw [take_length]
        exact hrecords
  · refine pairwise_append.mpr ⟨h.ascending, pairwise_singleton _ _, ?_⟩
    intro a ha b hb
    rw [mem_singleton.mp hb]
    exact (h.agrees a ha).covered
  · intro a ha
    rcases mem_append.mp ha with hold | hnew
    · exact h.present a hold
    · rw [mem_singleton.mp hnew]
      exact ⟨prior, hmem, hlength⟩

theorem argmax_concat_of_lt {rows : List Row} {row : Row} (h : ∀ r ∈ rows, r.seq < row.seq) :
    (rows ++ [row]).argmax Row.seq = some row := by
  rw [argmax_concat]
  cases hmax : rows.argmax Row.seq with
  | none => rfl
  | some prior => exact if_pos (h prior (argmax_mem hmax))

/-- A new row: the history that comes with it begins with the chain, and it is the new chain. -/
theorem Commits.inserted (h : Commits L calls rows accepted chain) (hfree : CollisionFree L calls)
    (hc : c ∈ calls) (hsorted : c.records.Pairwise (·.seq ≤ ·.seq))
    (hv : Verified L c.records c.checkpoint c.witness summary)
    (htext : L.dumps c.checkpoint = some text)
    (hnew : ∀ prior, rows.argmax Row.seq = some prior → prior.seq < summary.witnessedSequence ∧
      headAt c.records prior.seq = some prior.headHash) :
    Commits L calls
      (rows ++ [⟨c.pins.witnessId, summary.witnessedSequence, L.sha.digest text, summary.headHash,
        c.checkpoint, c.witness⟩])
      (accepted ++ [⟨c, summary.witnessedSequence⟩])
      (c.records.take summary.witnessedSequence) := by
  obtain ⟨hintact, hlen, -⟩ := hv.take hsorted le_rfl
  have hrows : ∀ row ∈ rows, row.seq < summary.witnessedSequence := by
    intro row hrow
    cases hmax : rows.argmax Row.seq with
    | none =>
      rw [argmax_eq_none.mp hmax] at hrow
      cases hrow
    | some prior => exact (le_of_mem_argmax hrow hmax).trans_lt (hnew prior hmax).1
  have hold : ∀ a ∈ accepted, Agrees (c.records.take summary.witnessedSequence) a := by
    intro a ha
    obtain ⟨row, hrow, hseq⟩ := h.present a ha
    obtain ⟨hcovered, hhead, hrecords⟩ := h.agrees a ha
    cases hmax : rows.argmax Row.seq with
    | none =>
      rw [argmax_eq_none.mp hmax] at hrow
      cases hrow
    | some prior =>
      obtain ⟨hlength, hheadHash⟩ := h.latest prior hmax
      obtain ⟨hlt, hat⟩ := hnew prior hmax
      rw [hlength] at hlt hat
      obtain ⟨hintact', hlen', hat'⟩ := hv.take hsorted hlt.le
      have hheads : format.head (c.records.take chain.length) = format.head chain :=
        (Option.some.inj (hat'.symm.trans hat)).trans hheadHash
      have hmap := h.extends hfree hc hintact' hlen' hheads
      -- both chains, cut at the sequence of the call
      have hcut : (c.records.take a.seq).map norm = (chain.take a.seq).map norm := by
        have := congrArg (List.take a.seq) hmap
        rwa [← map_take, ← map_take, take_take, Nat.min_eq_left hcovered] at this
      have hshort : a.seq ≤ summary.witnessedSequence := hcovered.trans hlt.le
      have hintactCut := (hv.take hsorted hshort).1
      refine ⟨by rw [hlen]; exact hshort, ?_, ?_⟩
      · rw [take_take, Nat.min_eq_left hshort, hhead, ← hintactCut.head_map_norm, hcut,
          (h.intact.take _).head_map_norm]
      · rw [take_take, Nat.min_eq_left hshort, hcut]
        exact hrecords
  refine ⟨hintact, fun e he => ⟨c, hc, mem_of_mem_take he⟩, ?_, ?_, ?_, ?_, ?_, ?_⟩
  · intro a ha
    rcases mem_append.mp ha with hmem | hmem
    · exact hold a hmem
    · rw [mem_singleton.mp hmem]
      refine ⟨hlen.ge, ?_, ?_⟩
      · rw [take_take, Nat.min_self, ← hv.head_eq]
        exact hv.headHash
      · rw [take_take, Nat.min_self]
  · refine pairwise_append.mpr ⟨h.ascending, pairwise_singleton _ _, ?_⟩
    intro a ha b hb
    rw [mem_singleton.mp hb]
    obtain ⟨row, hrow, hseq⟩ := h.present a ha
    exact hseq ▸ (hrows row hrow).le
  · intro a ha
    rcases mem_append.mp ha with hmem | hmem
    · obtain ⟨row, hrow, hseq⟩ := h.present a hmem
      exact ⟨row, mem_append_left _ hrow, hseq⟩
    · rw [mem_singleton.mp hmem]
      exact ⟨_, mem_append_right _ (mem_singleton_self _), rfl⟩
  · intro row hrow
    rcases mem_append.mp hrow with hmem | hmem
    · exact h.recorded row hmem
    · rw [mem_singleton.mp hmem]
      exact ⟨⟨text, htext, rfl⟩, hv.headHash, hv.isHex, c, hc, rfl⟩
  · refine pairwise_append.mpr ⟨h.sorted, pairwise_singleton _ _, ?_⟩
    intro row hrow row' hrow'
    rw [mem_singleton.mp hrow']
    exact hrows row hrow
  · intro row hrow
    rw [argmax_concat_of_lt hrows] at hrow
    cases hrow
    exact ⟨hlen.symm, hv.head_eq⟩

end Step

/-! ### Runs -/

/-- The journal of every witness is committed to a chain. -/
def Inv (L : Library) (calls : List Call) (s : World) : Prop :=
  ∀ id, ∃ chain, Commits L calls (rowsOf s.rows id) (s.acceptedBy id) chain

variable {calls : List Call} {s s' : World}

theorem Inv.initial : Inv L calls {} := by
  intro id
  refine ⟨[], .nil, ?_, ?_, .nil, ?_, ?_, .nil, ?_⟩
  · intro e he
    cases he
  · intro a ha
    cases ha
  · intro a ha
    cases ha
  · intro row hrow
    cases hrow
  · intro row hrow
    cases hrow

/-- One call keeps the journals committed. -/
theorem Inv.exec (hfree : CollisionFree L calls) (hc : c ∈ calls)
    (hsorted : c.records.Pairwise (·.seq ≤ ·.seq)) (hi : Inv L calls s)
    (h : exec L s c = .ok s') : Inv L calls s' := by
  obtain ⟨⟨rows', response⟩, haccept, h⟩ := bind_eq_ok.mp h
  cases h
  obtain ⟨summary, hv, hseq, houtcome⟩ := accept_cases haccept
  intro id
  obtain ⟨chain, hcommits⟩ := hi id
  by_cases hid : c.pins.witnessId = id
  · subst hid
    have haccepted : World.acceptedBy ⟨rows', s.accepted ++ [⟨c, response.seq⟩]⟩ c.pins.witnessId =
        s.acceptedBy c.pins.witnessId ++ [⟨c, summary.witnessedSequence⟩] := by
      simp [World.acceptedBy, filter_append, hseq]
    rw [haccepted]
    cases houtcome with
    | duplicate text prior htext hprior hsame hdigest =>
      exact ⟨chain, (hcommits.duplicate hfree hc hsorted hv htext hprior hsame hdigest).2⟩
    | inserted text htext hnew =>
      refine ⟨c.records.take summary.witnessedSequence, ?_⟩
      have hinserted := hcommits.inserted hfree hc hsorted hv htext hnew
      simpa [rowsOf, filter_append] using hinserted
  · have haccepted : World.acceptedBy ⟨rows', s.accepted ++ [⟨c, response.seq⟩]⟩ id =
        s.acceptedBy id := by
      simp [World.acceptedBy, filter_append, hid]
    have hrows : rowsOf rows' id = rowsOf s.rows id := by
      cases houtcome with
      | duplicate => rfl
      | inserted => simp [rowsOf, filter_append, hid]
    rw [haccepted]
    refine ⟨chain, ?_⟩
    show Commits L calls (rowsOf rows' id) _ chain
    rwa [hrows]

theorem Inv.run (hsorted : ∀ c ∈ calls, c.records.Pairwise (·.seq ≤ ·.seq))
    (hfree : CollisionFree L calls) {before : List Call} (hbefore : before ⊆ calls) :
    Inv L calls (run L before) :=
  LTS.drive_invariant .initial fun _ c _ hc hi hexec =>
    hi.exec hfree (hbefore hc) (hsorted c (hbefore hc)) hexec

/-- Rows of one journal with the same sequence are the same row. -/
theorem Commits.row_eq {rows : List Row} {accepted : List Accepted} {chain : List AuditEntry}
    (h : Commits L calls rows accepted chain) {row' : Row} (hrow : row ∈ rows) (hrow' : row' ∈ rows)
    (hseq : row.seq = row'.seq) : row = row' := by
  have hnodup : (rows.map Row.seq).Nodup := pairwise_map.mpr (h.sorted.imp fun hlt => hlt.ne)
  exact inj_on_of_nodup_map hnodup hrow hrow' hseq

/-- A recorded sequence is accepted again only with the recorded checkpoint, and changes nothing. -/
theorem Inv.recorded (hfree : CollisionFree L calls) (hc : c ∈ calls)
    (hsorted : c.records.Pairwise (·.seq ≤ ·.seq)) (hi : Inv L calls s)
    (h : accept L s.rows c = .ok (rows', response)) (hrow : row ∈ s.rows)
    (hid : row.witnessId = c.pins.witnessId) (hseq : row.seq = response.seq) :
    L.dumps c.checkpoint = L.dumps row.checkpoint ∧ c.head = some row.headHash ∧
      rows' = s.rows := by
  obtain ⟨summary, hv, hresponse, houtcome⟩ := accept_cases h
  obtain ⟨chain, hcommits⟩ := hi c.pins.witnessId
  have hmem : row ∈ rowsOf s.rows c.pins.witnessId :=
    mem_filter.mpr ⟨hrow, decide_eq_true hid⟩
  cases houtcome with
  | duplicate text prior htext hprior hsame hdigest =>
    have heq : row = prior :=
      hcommits.row_eq hmem (argmax_mem hprior) (by rw [hseq, hresponse, hsame])
    subst heq
    obtain ⟨htext', hcommits'⟩ :=
      hcommits.duplicate hfree hc hsorted hv htext hprior hsame hdigest
    obtain ⟨-, hheadHash, hhex, -⟩ := hcommits.recorded row hmem
    exact ⟨htext.trans htext'.symm, L.dumps_headHash htext' htext hheadHash hhex, rfl⟩
  | inserted text htext hnew =>
    -- a new row would be above the latest, and the latest is above every row
    cases hmax : latest s.rows c.pins.witnessId with
    | none =>
      rw [argmax_eq_none.mp hmax] at hmem
      cases hmem
    | some prior =>
      have hle : row.seq ≤ prior.seq := le_of_mem_argmax hmem hmax
      have hlt := (hnew prior hmax).1
      omega

theorem Inv.prefix_kept (hfree : CollisionFree L calls) (hc : c ∈ calls)
    (hsorted : c.records.Pairwise (·.seq ≤ ·.seq)) (hi : Inv L calls s)
    (h : Witness.exec L s c = .ok s') {a : Accepted} (ha : a ∈ s.acceptedBy c.pins.witnessId) :
    a.seq ≤ c.records.length ∧ headAt c.records a.seq = a.call.head ∧
      (c.records.take a.seq).map norm = (a.call.records.take a.seq).map norm := by
  obtain ⟨chain, hcommits⟩ := hi.exec hfree hc hsorted h c.pins.witnessId
  obtain ⟨⟨rows', response⟩, haccept, h⟩ := bind_eq_ok.mp h
  cases h
  obtain ⟨summary, hv, hresponse, -⟩ := accept_cases haccept
  have haccepted : World.acceptedBy ⟨rows', s.accepted ++ [⟨c, response.seq⟩]⟩ c.pins.witnessId =
      s.acceptedBy c.pins.witnessId ++ [⟨c, response.seq⟩] := by
    simp [World.acceptedBy, filter_append]
  rw [haccepted] at hcommits
  obtain ⟨-, hhead, hrecords⟩ := hcommits.agrees a (mem_append_left _ ha)
  obtain ⟨hcovered, -, hnew⟩ := hcommits.agrees ⟨c, response.seq⟩
    (mem_append_right _ (mem_singleton_self _))
  have hle : a.seq ≤ response.seq := (pairwise_append.mp hcommits.ascending).2.2 a ha _
    (mem_singleton_self _)
  have hlen : a.seq ≤ c.records.length := by
    have := hv.covered
    omega
  have hcut : (c.records.take a.seq).map norm = (chain.take a.seq).map norm := by
    have hnew' := congrArg (List.take a.seq) hnew
    simp only [← map_take, take_take] at hnew'
    rwa [Nat.min_eq_left hle] at hnew'
  have hintact := (hv.take hsorted (hresponse ▸ hle)).1
  refine ⟨hlen, ?_, hcut.trans hrecords.symm⟩
  rw [headAt_eq hlen, hhead, ← hintact.head_map_norm, hcut,
    (hcommits.intact.take _).head_map_norm]

/-- **All accepted checkpoints are about one chain.** For every list of calls with records in
ascending order, by any number of processes and with any pins, and for the journal of each witness:
the accepted checkpoints are heads of prefixes of one complete chain, and the accepted histories
begin with these prefixes; accepted sequences do not decrease; a sequence that is recorded is
accepted again only with the recorded checkpoint, and this adds no row; a history that is shorter
than an accepted prefix or differs from it is refused. -/
theorem journal_commits_to_one_history (L : Library) (calls : List Call)
    (hsorted : ∀ c ∈ calls, c.records.Pairwise (·.seq ≤ ·.seq))
    (hfree : CollisionFree L calls) (witnessId : PyString) :
    (∃ chain, Intact L.sha chain ∧ verifyChain L.sha chain true = true ∧
      ∀ a ∈ (run L calls).acceptedBy witnessId, a.seq ≤ chain.length ∧
        a.call.head = some (format.head (chain.take a.seq)) ∧
        (a.call.records.take a.seq).map norm = (chain.take a.seq).map norm) ∧
    ((run L calls).acceptedBy witnessId).Pairwise (·.seq ≤ ·.seq) ∧
    ∀ before c after, calls = before ++ c :: after → c.pins.witnessId = witnessId →
      (∀ rows response row, accept L (run L before).rows c = .ok (rows, response) →
        row ∈ (run L before).rows → row.witnessId = witnessId → row.seq = response.seq →
        L.dumps c.checkpoint = L.dumps row.checkpoint ∧ c.head = some row.headHash ∧
        rows = (run L before).rows) ∧
      ∀ a ∈ (run L before).acceptedBy witnessId,
        c.records.length < a.seq ∨ headAt c.records a.seq ≠ a.call.head ∨
          (c.records.take a.seq).map norm ≠ (a.call.records.take a.seq).map norm →
        ∃ denied, accept L (run L before).rows c = .error denied := by
  obtain ⟨chain, hcommits⟩ := Inv.run hsorted hfree (List.Subset.refl calls) witnessId
  refine ⟨⟨chain, hcommits.intact, hcommits.intact.verifyChain_eq true, fun a ha => ?_⟩,
    hcommits.ascending, fun before c after hcalls hid => ⟨?_, ?_⟩⟩
  · exact ⟨(hcommits.agrees a ha).covered, (hcommits.agrees a ha).head,
      (hcommits.agrees a ha).records⟩
  all_goals
    subst hid
    have hc : c ∈ calls := by simp [hcalls]
    have hi : Inv L calls (run L before) :=
      .run hsorted hfree fun c' hc' => hcalls ▸ mem_append_left _ hc'
  · intro rows response row haccept hrow hrowId hseq
    exact hi.recorded hfree hc (hsorted c hc) haccept hrow hrowId hseq
  · intro a ha hdiffers
    cases haccept : accept L (run L before).rows c with
    | error denied => exact ⟨denied, rfl⟩
    | ok out =>
      have hexec : exec L (run L before) c =
          .ok ⟨out.1, (run L before).accepted ++ [⟨c, out.2.seq⟩]⟩ := by
        rw [exec, haccept]
        rfl
      obtain ⟨hlen, hhead, hrecords⟩ := hi.prefix_kept hfree hc (hsorted c hc) hexec ha
      rcases hdiffers with hshort | hfork | hfork
      · omega
      · exact absurd hhead hfork
      · exact absurd hrecords hfork

/-! ### A sample run -/

/-- Texts of which only the head matters. -/
def sampleDumps (o : Object) : Option (List Char) :=
  match o.str "head_hash" with
  | none => none
  | some s => if s.isHex 64 then some (JsonText.quoted s) else none

theorem sampleDumps_eq_some {o : Object} {text : List Char} (h : sampleDumps o = some text) :
    ∃ s, o.str "head_hash" = some s ∧ s.isHex 64 = true ∧ JsonText.quoted s = text := by
  unfold sampleDumps at h
  split at h
  case h_1 => cases h
  case h_2 s hs =>
    split at h
    case isTrue hhex => exact ⟨s, hs, hhex, Option.some.inj h⟩
    case isFalse => cases h

def sampleLibrary : Library where
  sha := sampleSha
  dumps := sampleDumps
  dumps_headHash := by
    intro c c' text s n hc hc' hs _
    obtain ⟨t, ht, hhex, htext⟩ := sampleDumps_eq_some hc
    obtain ⟨t', ht', hhex', htext'⟩ := sampleDumps_eq_some hc'
    have hnorm := JsonText.norm_eq_of_quoted_eq (htext.trans htext'.symm)
    rw [PyString.norm_of_isHex hhex, PyString.norm_of_isHex hhex'] at hnorm
    rw [ht', ← hnorm, ← ht, hs]
  verify _ _ _ := true
  format _ := .ofString ""

def samplePins : Pins where
  checkpointKey := ⟨List.replicate 64 49, fun c hc => by rw [(mem_replicate.mp hc).2]; decide⟩
  witnessKey := ⟨List.replicate 64 50, fun c hc => by rw [(mem_replicate.mp hc).2]; decide⟩
  witnessId := .ofString "witness"

/-- A call about the first `seq` records of a history. -/
def sampleCall (seq : ℕ) (head : PyString) (records : List AuditEntry) : Call where
  pins := samplePins
  records := records
  checkpoint := List.toAList [
    ⟨.ofString "public_key_hex", .str samplePins.checkpointKey⟩, ⟨.ofString "seq", .int seq⟩,
    ⟨.ofString "head_hash", .str head⟩, ⟨.ofString "signature_hex", .str (.ofString "")⟩]
  witness := List.toAList [
    ⟨.ofString "version", .int 1⟩, ⟨.ofString "witness_id", .str (.ofString "witness")⟩,
    ⟨.ofString "checkpoint_sha256", .str (sampleSha.digest (JsonText.quoted head))⟩,
    ⟨.ofString "seq", .int seq⟩, ⟨.ofString "head_hash", .str head⟩,
    ⟨.ofString "witnessed_at", .str (.ofString "2026-01-02")⟩,
    ⟨.ofString "anchor_reference", .str (.ofString "archive")⟩,
    ⟨.ofString "signature_hex", .str (samplePins.witnessKey.append samplePins.witnessKey)⟩]

/-- The empty history, a history of one entry twice, and the empty history again. -/
def sampleCalls : List Call :=
  [sampleCall 0 genesis [], sampleCall 1 sampleEntry.entryHash [sampleEntry],
    sampleCall 1 sampleEntry.entryHash [sampleEntry], sampleCall 0 genesis []]

theorem sample_journal_commits :
    ((run sampleLibrary sampleCalls).acceptedBy (.ofString "witness")).map Accepted.seq = [0, 1, 1] ∧
    ∃ chain, Intact sampleSha chain ∧
      ∀ a ∈ (run sampleLibrary sampleCalls).acceptedBy (.ofString "witness"),
        a.call.head = some (format.head (chain.take a.seq)) := by
  have hsorted : ∀ c ∈ sampleCalls, c.records.Pairwise (·.seq ≤ ·.seq) := by
    simp [sampleCalls, sampleCall]
  have hdecided : ∀ t ∈ sampleCalls.flatMap (texts sampleLibrary),
      ∀ t' ∈ sampleCalls.flatMap (texts sampleLibrary),
        sampleSha.digest t = sampleSha.digest t' → t = t' := by
    decide +kernel
  have hfree : CollisionFree sampleLibrary sampleCalls := by
    rintro t ⟨c, hc, ht⟩ t' ⟨c', hc', ht'⟩ hdigest
    exact hdecided t (mem_flatMap.mpr ⟨c, hc, ht⟩) t' (mem_flatMap.mpr ⟨c', hc', ht'⟩)
      hdigest
  obtain ⟨⟨chain, hintact, -, hchain⟩, -⟩ := journal_commits_to_one_history sampleLibrary sampleCalls
    hsorted hfree (.ofString "witness")
  exact ⟨by decide +kernel, chain, hintact, fun a ha => (hchain a ha).2.1⟩

end AgentBridge.Witness
