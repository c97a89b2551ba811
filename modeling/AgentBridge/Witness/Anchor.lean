import AgentBridge.Audit.Entry
import AgentBridge.Protocols.Equality

/-!
# Anchored audit histories

A checkpoint is a signed statement about a prefix of the audit chain: how many entries it has and
what the hash of its last entry is. A witness countersigns a checkpoint. `verify_anchored_audit`
checks an exported history against both.

Checkpoints and witnesses are JSON objects from outside, so nothing is assumed of their members. The
signature scheme, `json.dumps` and the formatting of values are parameters.

* `Verified`, `verifyAnchoredAudit_ok` : **what an accepted history satisfies**.
-/

namespace AgentBridge.Witness

open Audit HashChain Except
open Protocols (Value)

/-- A JSON object. -/
abbrev Object := Table PyString Value

/-- A member of an object. -/
def Object.get (o : Object) (key : String) : Option Value := o.lookup (.ofString key)

/-- A member that is a string. -/
def Object.str (o : Object) (key : String) : Option PyString :=
  match o.get key with
  | some (.str s) => some s
  | _ => none

/-- The functions from outside. -/
structure Library where
  sha : Sha256
  /-- `json.dumps` with sorted keys and without blanks, if it accepts the object. -/
  dumps : Object → Option (List Char)
  /-- The text of an object determines its member `head_hash`, if that is hexadecimal. -/
  dumps_headHash : ∀ {c c' text s n}, dumps c = some text → dumps c' = some text →
    c.str "head_hash" = some s → s.isHex n = true → c'.str "head_hash" = some s
  /-- Ed25519: public key, signature and message. -/
  verify : PyString → PyString → PyString → Bool
  /-- The text of a value in a format string. -/
  format : Value → PyString

/-- `AnchorVerificationError`. -/
abbrev Denied := String

section Checks

variable (L : Library)

/-- `checkpoint_digest`. -/
def checkpointDigest (checkpoint : Object) : Except Denied PyString :=
  match L.dumps checkpoint with
  | none => .error "checkpoint not canonicalizable"
  | some text => .ok (L.sha.digest text)

/-- `AuditLog._checkpoint_payload`. -/
def checkpointPayload (seq headHash : Value) : PyString :=
  (PyString.ofString "agentbridge-audit-checkpoint:").append
    ((L.format seq).append ((PyString.ofString ":").append (L.format headHash)))

/-- `AuditLog.verify_checkpoint`. A member that is no string makes it fail in another way. -/
def verifyCheckpoint (checkpoint : Object) : Bool :=
  match checkpoint.str "public_key_hex", checkpoint.get "seq", checkpoint.get "head_hash",
    checkpoint.str "signature_hex" with
  | some key, some seq, some headHash, some signature =>
    L.verify key signature (checkpointPayload L seq headHash)
  | _, _, _, _ => false

/-- `_WITNESS_FIELDS`. -/
def witnessFields : List String :=
  ["version", "witness_id", "checkpoint_sha256", "seq", "head_hash", "witnessed_at",
    "anchor_reference"]

def signedPart (witness : Object) : Object :=
  witnessFields.foldl (fun o field =>
    match witness.get field with
    | none => o
    | some v => AList.insert (.ofString field) v o) ∅

/-- `canonical_witness_payload`, and the check of the signature. -/
def verifyWitness (witnessKey signature : PyString) (witness : Object) : Bool :=
  match L.dumps (signedPart witness) with
  | none => false
  | some text => L.verify witnessKey signature (.ofString (String.ofList text))

/-- The hash at the end of the first `seq` records. -/
def headAt (records : List AuditEntry) (seq : ℕ) : Option PyString :=
  if seq = 0 then some genesis else (records[seq - 1]?).map (·.entryHash)

/-- `isinstance(value, str) and value and len(value) <= 512`. -/
def isMetadata (value : Option PyString) : Bool :=
  value.any fun s => 1 ≤ s.codes.length && s.codes.length ≤ 512

/-- `isinstance(version, int) and version == 1`; in Python `True` is such a version. -/
def isVersionOne : Option Value → Bool
  | some (.int n) => n = 1
  | some (.bool b) => b
  | _ => false

/-- The sequence that the witness vouches for. -/
def witnessedSequence (witness : Object) : Except Denied ℕ :=
  match witness.get "seq" with
  | some (.int (.ofNat n)) => .ok n
  | _ => .error "invalid witness sequence"

/-- What `verify_anchored_audit` reports. -/
structure Summary where
  witnessId : PyString
  witnessedSequence : ℕ
  headHash : PyString
  auditedEntries : ℕ
  deriving DecidableEq

/-- The checks of checkpoint and witness, up to the signature of the witness. -/
def checkEnvelopes (checkpoint witness : Object) (checkpointKey witnessKey : PyString) :
    Except Denied ℕ := do
  let expected := "signature_hex" :: witnessFields
  require (witness.keys.all (fun key => expected.any fun field => key = .ofString field) &&
      expected.all fun field => (witness.get field).isSome)
    "unexpected or missing witness fields"
  require (isVersionOne (witness.get "version")) "unsupported witness version"
  require (["witness_id", "witnessed_at", "anchor_reference"].all fun field =>
    isMetadata (witness.str field)) "invalid witness metadata"
  let seq ← witnessedSequence witness
  require (["checkpoint_sha256", "head_hash"].all fun field =>
    (witness.str field).any (·.isHex 64)) "invalid witness digest"
  require ((witness.str "signature_hex").any (·.isHex 128)) "invalid witness signature"
  require (checkpointKey.isHex 64 && witnessKey.isHex 64)
    "trusted keys must be canonical Ed25519 hex"
  require (checkpointKey ≠ witnessKey) "independent witness key required"
  require (checkpoint.str "public_key_hex" = some checkpointKey && verifyCheckpoint L checkpoint)
    "checkpoint not signed by pinned issuer"
  let digest ← checkpointDigest L checkpoint
  require (witness.str "checkpoint_sha256" = some digest &&
      (checkpoint.get "seq").any (·.eq (.int seq)) &&
      checkpoint.str "head_hash" = witness.str "head_hash")
    "witness does not match checkpoint"
  require ((witness.str "signature_hex").any fun signature =>
    verifyWitness L witnessKey signature witness) "invalid independent witness signature"
  return seq

/-- The checks of the history, from `verify_chain` on. -/
def checkHistory (records : List AuditEntry) (witness : Object) (seq : ℕ) :
    Except Denied Summary := do
  require (verifyChain L.sha records true) "audit chain invalid or not complete from genesis"
  require (seq ≤ records.length) "audit was truncated or rolled back behind witness"
  match headAt records seq, witness.str "witness_id" with
  | some head, some witnessId =>
    require (witness.str "head_hash" = some head)
      "audit history forked from witnessed checkpoint"
    return ⟨witnessId, seq, head, records.length⟩
  | _, _ => .error "audit history forked from witnessed checkpoint"

/-- `verify_anchored_audit`. -/
def verifyAnchoredAudit (records : List AuditEntry) (checkpoint witness : Object)
    (checkpointKey witnessKey : PyString) : Except Denied Summary :=
  checkEnvelopes L checkpoint witness checkpointKey witnessKey >>= checkHistory L records witness

end Checks

/-! ### What an accepted history satisfies -/

/-- What `verify_anchored_audit` has checked. -/
structure Verified (L : Library) (records : List AuditEntry) (checkpoint witness : Object)
    (summary : Summary) : Prop where
  issued : verifyCheckpoint L checkpoint = true
  canonical : ∃ text, L.dumps checkpoint = some text
  pinned : witness.str "witness_id" = some summary.witnessId
  headHash : checkpoint.str "head_hash" = some summary.headHash
  isHex : summary.headHash.isHex 64 = true
  complete : verifyChain L.sha records true = true
  covered : summary.witnessedSequence ≤ records.length
  head : headAt records summary.witnessedSequence = some summary.headHash

theorem checkpointDigest_eq_ok {L : Library} {checkpoint : Object} {digest : PyString} :
    checkpointDigest L checkpoint = .ok digest ↔
      ∃ text, L.dumps checkpoint = some text ∧ L.sha.digest text = digest := by
  rw [checkpointDigest]
  cases L.dumps checkpoint <;> simp

/-- What the checks of checkpoint and witness have found. -/
structure Enveloped (L : Library) (checkpoint witness : Object) : Prop where
  issued : verifyCheckpoint L checkpoint = true
  canonical : ∃ text, L.dumps checkpoint = some text
  named : ∃ witnessId, witness.str "witness_id" = some witnessId
  head : ∃ head, witness.str "head_hash" = some head ∧ head.isHex 64 = true ∧
    checkpoint.str "head_hash" = some head

section Accepted

variable {L : Library} {records : List AuditEntry} {checkpoint witness : Object}
  {checkpointKey witnessKey : PyString} {seq : ℕ} {summary : Summary}

theorem checkEnvelopes_ok
    (h : checkEnvelopes L checkpoint witness checkpointKey witnessKey = .ok seq) :
    Enveloped L checkpoint witness := by
  unfold checkEnvelopes at h
  obtain ⟨-, -, h⟩ := bind_eq_ok.mp h
  obtain ⟨-, -, h⟩ := bind_eq_ok.mp h
  obtain ⟨_, hmetadata, h⟩ := bind_eq_ok.mp h
  obtain ⟨_, -, h⟩ := bind_eq_ok.mp h
  obtain ⟨_, hdigests, h⟩ := bind_eq_ok.mp h
  obtain ⟨-, -, h⟩ := bind_eq_ok.mp h
  obtain ⟨-, -, h⟩ := bind_eq_ok.mp h
  obtain ⟨-, -, h⟩ := bind_eq_ok.mp h
  obtain ⟨_, hissued, h⟩ := bind_eq_ok.mp h
  obtain ⟨digest, hdigest, h⟩ := bind_eq_ok.mp h
  obtain ⟨_, hmatch, -⟩ := bind_eq_ok.mp h
  rw [require_eq_ok] at hmetadata hdigests hissued hmatch
  simp only [Bool.and_eq_true, decide_eq_true_eq] at hissued hmatch
  have hid : isMetadata (witness.str "witness_id") = true :=
    List.all_eq_true.mp hmetadata "witness_id" (by simp)
  have hhex : (witness.str "head_hash").any (·.isHex 64) = true :=
    List.all_eq_true.mp hdigests "head_hash" (by simp)
  obtain ⟨witnessId, hid, -⟩ := (Option.any_eq_true _ _).mp hid
  obtain ⟨head, hhead, hhex⟩ := (Option.any_eq_true _ _).mp hhex
  obtain ⟨text, htext, -⟩ := checkpointDigest_eq_ok.mp hdigest
  exact ⟨hissued.2, ⟨text, htext⟩, ⟨witnessId, hid⟩, head, hhead, hhex, hmatch.2.trans hhead⟩

theorem checkHistory_eq_ok : checkHistory L records witness seq = .ok summary ↔
    verifyChain L.sha records true = true ∧ seq ≤ records.length ∧
      headAt records seq = some summary.headHash ∧
      witness.str "witness_id" = some summary.witnessId ∧
      witness.str "head_hash" = some summary.headHash ∧
      summary.witnessedSequence = seq ∧ summary.auditedEntries = records.length := by
  obtain ⟨witnessId, witnessed, head, audited⟩ := summary
  unfold checkHistory
  simp only [bind_eq_ok, require_eq_ok, decide_eq_true_eq, exists_const]
  refine and_congr_right fun _ => and_congr_right fun _ => ?_
  cases headAt records seq with
  | none => simp
  | some found =>
    cases witness.str "witness_id" with
    | none => simp
    | some id =>
      simp only [bind_eq_ok, require_eq_ok, decide_eq_true_eq, exists_const, pure_eq_ok,
        Summary.mk.injEq, Option.some.injEq]
      constructor
      · rintro ⟨hhead, rfl, rfl, rfl, rfl⟩
        exact ⟨rfl, rfl, hhead, rfl, rfl⟩
      · rintro ⟨rfl, rfl, hhead, rfl, rfl⟩
        exact ⟨hhead, rfl, rfl, rfl, rfl⟩

theorem verifyAnchoredAudit_ok
    (h : verifyAnchoredAudit L records checkpoint witness checkpointKey witnessKey = .ok summary) :
    Verified L records checkpoint witness summary := by
  obtain ⟨seq, henvelopes, h⟩ := bind_eq_ok.mp h
  obtain ⟨hissued, hcanonical, -, head, hhead, hhex, hcheckpoint⟩ := checkEnvelopes_ok henvelopes
  obtain ⟨hchain, hcovered, hat, hid, hfork, rfl, -⟩ := checkHistory_eq_ok.mp h
  obtain rfl : head = summary.headHash := Option.some.inj (hhead.symm.trans hfork)
  exact ⟨hissued, hcanonical, hid, hcheckpoint, hhex, hchain, hcovered, hat⟩

end Accepted

end AgentBridge.Witness
