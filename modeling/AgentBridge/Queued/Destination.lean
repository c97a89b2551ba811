import AgentBridge.Lifecycle.Basic
import AgentBridge.Ledger.Basic
import Mathlib.Data.Rat.Floor

/-!
# The fenced destination

A destination is a SQLite file of its own, reached through a descriptor that the operator
provisions. An effect commits there in one transaction, under a fence that its worker holds and
a signed authorization that is still in its window. Effect rows are immutable, and one
operation, as one attempt, has at most one of them.
-/

namespace AgentBridge.Queued

open Except (bind_eq_ok pure_eq_ok)

/-- The operator's descriptor of a destination. -/
structure Descriptor where
  kind : String
  protocol : String
  tenantId : String
  targetId : String
  destinationId : String
  path : String
  actionSchema : String
  authorizerKeyId : String
  authorizerPublicKeyHex : String
  destinationKeyId : String
  destinationPublicKeyHex : String
  observerKeyId : String
  observerPublicKeyHex : String
  callTimeoutSeconds : Time
  maxActionBytes : ℕ
  deriving DecidableEq, Repr

/-- `QUEUED_DESTINATION_KIND`. -/
def destinationKind : String := "queued_fenced_sqlite_v2"

/-- `QUEUED_RESULT_ENVELOPE_LIMIT_BYTES`. -/
def resultEnvelopeLimitBytes : ℕ := 65536

/-- The conditions of `normalize_queued_descriptor` on a descriptor with a resolved path. -/
def Descriptor.isNormal (d : Descriptor) : Bool :=
  d.kind == destinationKind && d.protocol == "mcp" &&
    d.actionSchema == "agentbridge.demo.append.v1" && d.maxActionBytes == 4096 &&
    [d.tenantId, d.targetId, d.destinationId, d.authorizerKeyId, d.destinationKeyId,
      d.observerKeyId].all Task.isIdentifier &&
    [d.authorizerPublicKeyHex, d.destinationPublicKeyHex, d.observerPublicKeyHex].all (isHex 64) &&
    decide [d.authorizerPublicKeyHex, d.destinationPublicKeyHex, d.observerPublicKeyHex].Nodup &&
    decide [d.authorizerKeyId, d.destinationKeyId, d.observerKeyId].Nodup &&
    decide (0 < d.callTimeoutSeconds) && decide (d.callTimeoutSeconds ≤ 10) && d.path != ""

/-- The signed permission for one attempt of one operation. -/
structure Authorization where
  tenantId : String
  storeId : String
  ownerId : String
  taskId : String
  agentId : String
  operationId : String
  admissionLinkSha256 : String
  authoritySha256 : String
  contextId : String
  intentSha256 : String
  fingerprint : String
  originalActionSha256 : String
  targetId : String
  targetConfigurationSha256 : String
  destinationId : String
  actionSha256 : String
  resultLimitBytes : ℕ
  attemptId : String
  fenceScope : String
  fenceOwner : String
  fenceEpoch : ℕ
  issuedAt : Time
  expiresAt : Time
  authorizerKeyId : String
  signatureHex : String
  deriving DecidableEq, Repr

/-- The result of the demonstration action. -/
structure DemoResult where
  storedSha256 : String
  storedBytes : ℕ
  effectId : String
  deriving DecidableEq, Repr

/-- The destination's signed receipt. -/
structure Receipt where
  authorizationSha256 : String
  tenantId : String
  agentId : String
  operationId : String
  fingerprint : String
  targetId : String
  destinationId : String
  attemptId : String
  fenceEpoch : ℕ
  actionSha256 : String
  outcome : Outcome
  externalReference : String
  committedAt : Time
  resultSha256 : String
  destinationKeyId : String
  signatureHex : String
  deriving DecidableEq, Repr

/-- The observer's signed readback: what it copies from the receipt, and its own fields. -/
structure Attestation where
  receipt : Receipt
  destinationReceiptSha256 : String
  observedAt : Time
  observerKeyId : String
  sourceEvidenceSha256 : String
  signatureHex : String
  deriving DecidableEq, Repr

/-- What a readback returns. -/
structure Evidence where
  result : DemoResult
  destinationReceipt : Receipt
  readbackAttestation : Attestation
  deriving DecidableEq, Repr

/-- The digests, the action codec and the three signing callbacks of the contract. A signature
is valid if it is the one its callback issues for the document. -/
structure Contract where
  descriptorSha256 : Descriptor → String
  authorizationSha256 : Authorization → String
  /-- `parse_demo_action` accepts the bytes. -/
  isDemoAction : String → Bool
  actionSha256 : String → String
  /-- Digest and length of the value a demonstration action stores. -/
  stored : String → String × ℕ
  resultSha256 : DemoResult → String
  receiptSha256 : Receipt → String
  sourceEvidenceSha256 : Authorization → String → DemoResult → Receipt → String
  authorizerSign : Authorization → String
  destinationSign : Receipt → String
  observerSign : Attestation → String

/-- `queued_seconds`. -/
def isSeconds (t : Time) : Bool := decide (0 < t) && decide (t ≤ 253402300800)

namespace Contract

variable (c : Contract)

/-- `demo_result`. -/
def demoResult (action authorizationSha256 : String) : DemoResult where
  storedSha256 := (c.stored action).1
  storedBytes := (c.stored action).2
  effectId := "sqlite-queued-effect-v2:" ++ authorizationSha256

/-- `verify_queued_authorization`; without a time it accepts any historical authorization. -/
def verifyAuthorization (a : Authorization) (d : Descriptor) (action : String)
    (now : Option Time) : Except Fault String := do
  require (d.isNormal && c.isDemoAction action)
    (.valueError "malformed queued authorization or destination configuration")
  require ([a.tenantId, a.storeId, a.ownerId, a.agentId, a.taskId, a.contextId, a.targetId,
      a.destinationId, a.operationId, a.attemptId, a.fenceScope, a.fenceOwner,
      a.authorizerKeyId].all Task.isIdentifier)
    (.valueError "invalid queued authorization identifier")
  require ([a.authoritySha256, a.intentSha256, a.admissionLinkSha256, a.fingerprint,
      a.originalActionSha256, a.targetConfigurationSha256, a.actionSha256].all (isHex 64))
    (.valueError "invalid queued authorization digest")
  require (a.tenantId == d.tenantId && a.targetId == d.targetId &&
      a.destinationId == d.destinationId && a.authorizerKeyId == d.authorizerKeyId &&
      a.targetConfigurationSha256 == c.descriptorSha256 d &&
      a.actionSha256 == c.actionSha256 action)
    (.valueError "queued authorization disagrees with configured destination or action")
  require (decide (1 ≤ a.fenceEpoch) && decide (a.fenceEpoch < 2 ^ 63) &&
      decide (1 ≤ a.resultLimitBytes) && decide (a.resultLimitBytes ≤ 1048576))
    (.valueError "invalid queued authorization epoch or result limit")
  require (isSeconds a.issuedAt && isSeconds a.expiresAt && decide (a.issuedAt < a.expiresAt) &&
      decide (a.expiresAt ≤ a.issuedAt + d.callTimeoutSeconds))
    (.valueError "invalid queued authorization window")
  require (now.all fun t => isSeconds t && decide (a.issuedAt ≤ t) && decide (t < a.expiresAt))
    (.valueError "queued execution authorization is expired or not yet valid")
  require (a.signatureHex == c.authorizerSign { a with signatureHex := "" })
    (.valueError "invalid queued authorization signature")
  return c.authorizationSha256 a

/-- The receipt of an authorized action, before it is signed. -/
def receiptFor (a : Authorization) (d : Descriptor) (result : DemoResult) (committedAt : Time) :
    Receipt :=
  { authorizationSha256 := c.authorizationSha256 a, tenantId := a.tenantId, agentId := a.agentId
    operationId := a.operationId, fingerprint := a.fingerprint, targetId := a.targetId
    destinationId := a.destinationId, attemptId := a.attemptId, fenceEpoch := a.fenceEpoch
    actionSha256 := a.actionSha256, outcome := .succeeded, externalReference := result.effectId
    committedAt, resultSha256 := c.resultSha256 result, destinationKeyId := d.destinationKeyId
    signatureHex := "" }

/-- `verify_queued_destination_receipt`. -/
def verifyReceipt (r : Receipt) (a : Authorization) (action : String) (d : Descriptor)
    (result : DemoResult) : Except Fault String := do
  let digest ← c.verifyAuthorization a d action none
  require (result == c.demoResult action digest)
    (.valueError "queued result is not the exact bounded demonstration effect")
  require ({ r with signatureHex := "" } == c.receiptFor a d result r.committedAt)
    (.valueError "queued receipt does not match exact authorization and result")
  require (isSeconds r.committedAt && decide (a.issuedAt ≤ r.committedAt) &&
      decide (r.committedAt < a.expiresAt))
    (.valueError "queued receipt commit is outside signed execution window")
  require (r.signatureHex == c.destinationSign { r with signatureHex := "" })
    (.valueError "invalid queued destination signature")
  return c.receiptSha256 r

/-- `verify_queued_readback_attestation`. -/
def verifyAttestation (p : Attestation) (a : Authorization) (action : String) (d : Descriptor)
    (result : DemoResult) (r : Receipt) (now : Time) : Except Fault Unit := do
  let digest ← c.verifyReceipt r a action d result
  require (p.receipt == r && p.destinationReceiptSha256 == digest &&
      p.observerKeyId == d.observerKeyId &&
      p.sourceEvidenceSha256 == c.sourceEvidenceSha256 a action result r)
    (.valueError "queued readback disagrees with exact committed evidence")
  require (isSeconds p.observedAt && decide (now - 300 ≤ p.observedAt) &&
      decide (p.observedAt ≤ now + 30) && decide (r.committedAt ≤ p.observedAt + 30))
    (.valueError "queued readback is stale or from the future")
  require (p.signatureHex == c.observerSign { p with signatureHex := "" })
    (.valueError "untrusted queued readback evidence")

/-- `verify_queued_action_evidence`: the outcome of verified evidence. -/
def verifyEvidence (a : Authorization) (action : String) (d : Descriptor) (e : Evidence)
    (now : Time) : Except Fault Outcome := do
  let _ ← c.verifyReceipt e.destinationReceipt a action d e.result
  c.verifyAttestation e.readbackAttestation a action d e.result e.destinationReceipt now
  return .succeeded

end Contract

/-! ### The destination files -/

/-- A row of `ab_destination_fences`. -/
structure Fence where
  owner : String
  epoch : ℕ
  expiresSeconds : Time
  deriving DecidableEq, Repr

/-- A row of `ab_queued_effects_v2`, with the file it lies in. -/
structure Effect where
  path : String
  authorization : Authorization
  actionBytes : String
  result : DemoResult
  receipt : Receipt
  deriving DecidableEq, Repr

/-- The primary key of an effect row. -/
def Effect.key (e : Effect) : String × String × String :=
  (e.authorization.tenantId, e.authorization.agentId, e.authorization.operationId)

/-- The task an effect was made for. -/
def Effect.taskKey (e : Effect) : TaskKey := (e.authorization.ownerId, e.authorization.taskId)

/-- `committed_at`. -/
def Effect.committedAt (e : Effect) : Time := e.receipt.committedAt

/-- The destination files of a deployment. -/
structure Destinations where
  /-- The descriptor each file was created with. -/
  bindings : Table String Descriptor := ∅
  /-- The fences, by file and scope. -/
  fences : Table (String × String) Fence := ∅
  /-- The effect rows of all files, in commit order. -/
  effects : List Effect := []

namespace Destinations

variable (ds : Destinations)

/-- `_qualify_queued_destination`: the file belongs to this descriptor. -/
def isBound (d : Descriptor) : Bool := ds.bindings.lookup d.path == some d

/-- `_initialize_queued`: an empty file is bound to its first descriptor. -/
def initializeQueued (d : Descriptor) : Except Fault Destinations := do
  require d.isNormal (.valueError "exact queued destination descriptor required")
  match ds.bindings.lookup d.path with
  | none => return { ds with bindings := ds.bindings.insert d.path d }
  | some _ =>
    require (ds.isBound d)
      (.valueError "queued destination binding is missing, changed or unsupported")
    return ds

/-- The epoch of the next owner of a fence. -/
def nextEpoch : Option Fence → ℕ
  | none => 1
  | some fence => fence.epoch + 1

/-- `QueuedSqliteAdapter.acquire`: take the fence of a scope, unless it is held. -/
def acquire (d : Descriptor) (scope owner : String) (now : Time) :
    Except Fault ((ℕ × Time) × Destinations) := do
  let ds ← ds.initializeQueued d
  let row := ds.fences.lookup (d.path, scope)
  require (row.all fun fence => decide (fence.expiresSeconds ≤ now))
    (.runtimeError "an authoritative destination owner is already live")
  let epoch := nextEpoch row
  require (decide (epoch < 2 ^ 63))
    (.runtimeError "Python int too large to convert to SQLite INTEGER")
  let expiresSeconds := now + (⌈d.callTimeoutSeconds⌉ + 1)
  return ((epoch, expiresSeconds),
    { ds with fences := ds.fences.insert (d.path, scope) ⟨owner, epoch, expiresSeconds⟩ })

/-- The fence check of `commit_queued`. -/
def holdsFence (d : Descriptor) (a : Authorization) (now : Time) : Bool :=
  (ds.fences.lookup (d.path, a.fenceScope)).any fun fence =>
    fence.owner == a.fenceOwner && fence.epoch == a.fenceEpoch &&
      decide (now < fence.expiresSeconds) && decide (a.expiresAt ≤ fence.expiresSeconds)

/-- The duplicate check of `commit_queued`, and the two unique keys of the table. -/
def isDuplicate (d : Descriptor) (a : Authorization) : Bool :=
  ds.effects.any fun e => e.path == d.path && e.authorization.tenantId == a.tenantId &&
    ((e.authorization.agentId == a.agentId && e.authorization.operationId == a.operationId) ||
      e.authorization.attemptId == a.attemptId)

/-- `commit_queued`, with the clock readings before and after the receipt is signed. -/
def commitQueued (c : Contract) (d : Descriptor) (a : Authorization) (action : String)
    (first second : Time) : Except Fault Destinations := do
  let _ ← c.verifyAuthorization a d action none
  let ds ← ds.initializeQueued d
  let digest ← c.verifyAuthorization a d action (some first)
  require (ds.holdsFence d a first)
    (.runtimeError "stale, expired or unauthorized queued destination fence")
  require (decide (resultEnvelopeLimitBytes ≤ a.resultLimitBytes))
    (.valueError "immutable result allowance cannot hold bounded queued evidence")
  require (!ds.isDuplicate d a)
    (.runtimeError "queued operation or attempt already executed; no replay")
  let result := c.demoResult action digest
  let unsigned := c.receiptFor a d result first
  let receipt := { unsigned with signatureHex := c.destinationSign unsigned }
  let _ ← c.verifyReceipt receipt a action d result
  require (ds.holdsFence d a second)
    (.runtimeError "queued destination fence expired or changed while signing")
  let _ ← c.verifyAuthorization a d action (some second)
  return { ds with
    effects := ds.effects ++
      [{ path := d.path, authorization := a, actionBytes := action, result, receipt }] }

/-- The effect row a readback looks at. -/
def find (d : Descriptor) (a : Authorization) : Option Effect :=
  ds.effects.find? fun e => e.path == d.path &&
    e.key == (a.tenantId, a.agentId, a.operationId)

/-- `observe_queued`: read the committed row of exactly this authorization. -/
def observeQueued (c : Contract) (d : Descriptor) (a : Authorization) (action : String)
    (now : Time) : Except Fault Evidence := do
  let _ ← c.verifyAuthorization a d action none
  require (ds.isBound d) (.valueError "queued destination binding is missing or changed")
  match ds.find d a with
  | none => throw (.runtimeError "no authoritative queued record; outcome unknown")
  | some e =>
    require (e.authorization == a && e.actionBytes == action)
      (.runtimeError "persisted queued authorization, action or encoding disagrees")
    let digest ← c.verifyReceipt e.receipt a action d e.result
    let unsigned : Attestation :=
      { receipt := e.receipt, destinationReceiptSha256 := digest, observedAt := ⌊now⌋
        observerKeyId := d.observerKeyId
        sourceEvidenceSha256 := c.sourceEvidenceSha256 a action e.result e.receipt
        signatureHex := "" }
    let proof := { unsigned with signatureHex := c.observerSign unsigned }
    c.verifyAttestation proof a action d e.result e.receipt ⌊now⌋
    return ⟨e.result, e.receipt, proof⟩

end Destinations

/-! ### What the calls establish -/

theorem Contract.verifyAuthorization_window {c : Contract} {a : Authorization} {d : Descriptor}
    {action digest : String} {now : Time}
    (h : c.verifyAuthorization a d action (some now) = .ok digest) :
    a.issuedAt ≤ now ∧ now < a.expiresAt := by
  simp only [verifyAuthorization, bind_eq_ok, require_eq_ok, Option.all_some,
    Bool.and_eq_true, decide_eq_true_eq] at h
  obtain ⟨-, -, -, -, -, -, -, -, -, -, -, -, -, ⟨⟨-, hissued⟩, hexpires⟩, -⟩ := h
  exact ⟨hissued, hexpires⟩

theorem Contract.verifyEvidence_eq_ok {c : Contract} {a : Authorization} {action : String}
    {d : Descriptor} {e : Evidence} {now : Time} {outcome : Outcome}
    (h : c.verifyEvidence a action d e now = .ok outcome) : outcome = .succeeded := by
  simp only [verifyEvidence, bind_eq_ok, pure_eq_ok] at h
  obtain ⟨-, -, -, -, rfl⟩ := h
  rfl

namespace Destinations

variable {ds ds' : Destinations} {c : Contract} {d : Descriptor} {a : Authorization}

/-- Opening a file writes its binding only. -/
theorem initializeQueued_frame (h : ds.initializeQueued d = .ok ds') :
    ds' = { ds with bindings := ds'.bindings } := by
  simp only [initializeQueued, bind_eq_ok] at h
  obtain ⟨-, -, h⟩ := h
  split at h
  · cases h; rfl
  · simp only [bind_eq_ok, pure_eq_ok] at h
    obtain ⟨-, -, rfl⟩ := h
    rfl

/-- A fence is taken without an effect. -/
theorem acquire_effects {scope owner : String} {now : Time} {lease : ℕ × Time}
    (h : ds.acquire d scope owner now = .ok (lease, ds')) : ds'.effects = ds.effects := by
  simp only [acquire, bind_eq_ok, pure_eq_ok, Prod.mk.injEq] at h
  obtain ⟨ds₁, hinit, -, -, -, -, -, rfl⟩ := h
  rw [initializeQueued_frame hinit]

/-- Epochs start at one, and fit the database's integers. -/
theorem acquire_epoch {scope owner : String} {now expiry : Time} {epoch : ℕ}
    (h : ds.acquire d scope owner now = .ok ((epoch, expiry), ds')) :
    1 ≤ epoch ∧ epoch < 2 ^ 63 := by
  have hpos : ∀ row, 1 ≤ nextEpoch row := by
    intro row
    cases row <;> simp [nextEpoch]
  simp only [acquire, bind_eq_ok, pure_eq_ok, Prod.mk.injEq, require_eq_ok,
    decide_eq_true_eq] at h
  obtain ⟨ds₁, -, -, -, -, hbound, ⟨rfl, -⟩, -⟩ := h
  exact ⟨hpos _, hbound⟩

/-- What a committed effect found and did. -/
structure CommitOk (ds : Destinations) (d : Descriptor) (a : Authorization) (action : String)
    (ds' : Destinations) : Prop where
  fresh : ds.isDuplicate d a = false
  appended : ∃ e, ds'.effects = ds.effects ++ [e] ∧ e.path = d.path ∧ e.authorization = a ∧
    e.actionBytes = action ∧ a.issuedAt ≤ e.committedAt ∧ e.committedAt < a.expiresAt

theorem CommitOk.of_commitQueued {action : String} {first second : Time}
    (h : ds.commitQueued c d a action first second = .ok ds') : CommitOk ds d a action ds' := by
  simp only [commitQueued, bind_eq_ok, require_eq_ok, Bool.not_eq_true',
    pure_eq_ok] at h
  obtain ⟨-, -, ds₁, hinit, digest, hverify, -, -, -, -, -, hfresh, -, -, -, -, -, -, rfl⟩ := h
  have hframe := initializeQueued_frame hinit
  refine ⟨by rw [hframe] at hfresh; exact hfresh, _, by rw [hframe], rfl, rfl, rfl, ?_⟩
  exact Contract.verifyAuthorization_window hverify

/-- Evidence is a readback of a committed effect of exactly this authorization. -/
theorem effect_of_observeQueued {action : String} {now : Time} {evidence : Evidence}
    (h : ds.observeQueued c d a action now = .ok evidence) :
    ∃ e ∈ ds.effects, e.authorization = a := by
  simp only [observeQueued, bind_eq_ok] at h
  obtain ⟨-, -, -, -, h⟩ := h
  split at h
  case h_1 => simp at h
  case h_2 e hfind =>
    simp only [bind_eq_ok, require_eq_ok, Bool.and_eq_true, beq_iff_eq] at h
    obtain ⟨-, ⟨ha, -⟩, -⟩ := h
    exact ⟨e, List.mem_of_find?_eq_some hfind, ha⟩

end Destinations

end AgentBridge.Queued
