import AgentBridge.Queued.Documents

/-!
# Verifying the documents of a queued action

Four functions judge what the parties sent: the authorization of an attempt, the destination's
receipt, the observer's readback, and the three together. Each is the check of its predecessor
with more after it, and each judges texts: byte limits, the alphabet of digests and the characters
of identifiers count.

A judgement does not depend on when it is made, except for two windows: the one an authorization
may be executed in, and the freshness of a readback.

* `verifyQueuedAuthorization_eq_ok`, `verifyQueuedDestinationReceipt_eq_ok`,
  `verifyQueuedReadbackAttestation_eq_ok` : **what is accepted, exactly**.
-/

namespace AgentBridge.Queued

open JsonText Except List Bool

def Authorization.identifiers (a : Authorization) : List String :=
  [a.tenantId, a.storeId, a.ownerId, a.agentId, a.taskId, a.contextId, a.targetId,
    a.destinationId, a.operationId, a.attemptId, a.fenceScope, a.fenceOwner, a.authorizerKeyId]

def Authorization.digests (a : Authorization) : List String :=
  [a.authoritySha256, a.intentSha256, a.admissionLinkSha256, a.fingerprint,
    a.originalActionSha256, a.targetConfigurationSha256, a.actionSha256]

/-- The fields of a receipt that a readback copies. -/
def Receipt.copied (r : Receipt) : Receipt := { r with destinationKeyId := "", signatureHex := "" }

namespace Codec

variable (C : Codec)

/-! ### The descriptor -/

/-- The first check of a path. -/
def isPath (path : String) : Bool :=
  path != "" && path.length ≤ 1024 && !hasNul path && path != ":memory:" &&
    !path.startsWith "file:" && !path.startsWith "\\\\" && !path.startsWith "//" &&
    path.startsWith "/"

/-- `normalize_queued_descriptor`. -/
def normalizeQueuedDescriptor (d : Descriptor) : Except Fault Descriptor := do
  require (d.kind == destinationKind && d.protocol == "mcp" &&
      d.actionSchema == "agentbridge.demo.append.v1" && d.maxActionBytes == 4096)
    (.valueError "unsupported queued demonstration contract")
  require ([d.tenantId, d.targetId, d.destinationId, d.authorizerKeyId, d.destinationKeyId,
      d.observerKeyId].all isQueuedIdentifier)
    (.valueError "bounded queued destination identity required")
  let keys := [d.authorizerPublicKeyHex, d.destinationPublicKeyHex, d.observerPublicKeyHex]
  require (keys.all (isLowerHex 64))
    (.valueError "canonical 32-byte Ed25519 trust roots required")
  require (decide keys.Nodup)
    (.valueError "authorization, destination and observer trust roots must be distinct")
  require (decide [d.authorizerKeyId, d.destinationKeyId, d.observerKeyId].Nodup)
    (.valueError "signing key identities must be distinct")
  require (decide (0 < d.callTimeoutSeconds) && decide (d.callTimeoutSeconds ≤ 10))
    (.valueError "queued destination timeout must be finite and at most ten seconds")
  require (isPath d.path) (.valueError "dedicated absolute SQLite destination path required")
  let path := C.resolve d.path
  require (path.utf8ByteSize ≤ 4096 && path.length ≤ 1024)
    (.valueError "destination path exceeds bounds")
  require ((C.descriptorText { d with path }).length ≤ 8192)
    (.valueError "normalized queued descriptor exceeds byte limit")
  return { d with path }

/-- The descriptor is its own normal form, as every registered one is. -/
def IsNormal (d : Descriptor) : Prop := C.normalizeQueuedDescriptor d = .ok d

/-! ### The judgements -/

/-- The authorization names this destination and this action. -/
def agrees (a : Authorization) (d : Descriptor) (action : String) : Bool :=
  a.tenantId == d.tenantId && a.targetId == d.targetId && a.destinationId == d.destinationId &&
    a.authorizerKeyId == d.authorizerKeyId &&
    a.targetConfigurationSha256 == C.descriptorSha256 d &&
    a.actionSha256 == C.sha256 action.toList

/-- The signed window of an authorization. -/
def hasWindow (a : Authorization) (d : Descriptor) : Bool :=
  isSeconds a.issuedAt && isSeconds a.expiresAt && decide (a.issuedAt < a.expiresAt) &&
    decide (a.expiresAt ≤ a.issuedAt + d.callTimeoutSeconds)

/-- `verify_queued_authorization`; without a time it judges a historical authorization. -/
def verifyQueuedAuthorization (a : Authorization) (d : Descriptor) (action : String)
    (now : Option Time) : Except Fault String := do
  let malformed : Fault :=
    .valueError "malformed queued authorization or destination configuration"
  let d ← (C.normalizeQueuedDescriptor d).mapError fun _ => malformed
  require (demoValue action).isSome malformed
  require ((C.authorizationText a).length ≤ 8192)
    (.valueError "queued authorization exceeds byte limit")
  require (a.identifiers.all isQueuedIdentifier)
    (.valueError "invalid queued authorization identifier")
  require (a.digests.all (isLowerHex 64)) (.valueError "invalid queued authorization digest")
  require (C.agrees a d action)
    (.valueError "queued authorization disagrees with configured destination or action")
  require (decide (1 ≤ a.fenceEpoch) && decide (a.fenceEpoch ≤ 9223372036854775807) &&
      decide (1 ≤ a.resultLimitBytes) && decide (a.resultLimitBytes ≤ 1048576))
    (.valueError "invalid queued authorization epoch or result limit")
  require (hasWindow a d) (.valueError "invalid queued authorization window")
  require (now.all fun t => isSeconds t && decide (a.issuedAt ≤ t) && decide (t < a.expiresAt))
    (.valueError "queued execution authorization is expired or not yet valid")
  require (isLowerHex 128 a.signatureHex)
    (.valueError "invalid queued authorization signature encoding")
  require (C.verifies d.authorizerPublicKeyHex (C.authorizationPayload a) a.signatureHex)
    (.valueError "invalid queued authorization signature")
  return C.authorizationSha256 a

/-- `demo_result`. -/
def demoResult (value authorizationSha256 : String) : DemoResult where
  storedSha256 := C.sha256 value.toList
  storedBytes := value.utf8ByteSize
  effectId := "sqlite-queued-effect-v2:" ++ authorizationSha256

/-- The receipt of an authorized action, before it is signed. -/
def receiptFor (a : Authorization) (d : Descriptor) (result : DemoResult) (committedAt : Time) :
    Receipt :=
  { authorizationSha256 := C.authorizationSha256 a, tenantId := a.tenantId, agentId := a.agentId
    operationId := a.operationId, fingerprint := a.fingerprint, targetId := a.targetId
    destinationId := a.destinationId, attemptId := a.attemptId, fenceEpoch := a.fenceEpoch
    actionSha256 := a.actionSha256, outcome := .succeeded, externalReference := result.effectId
    committedAt, resultSha256 := C.sha256 (resultText result)
    destinationKeyId := d.destinationKeyId, signatureHex := "" }

/-- `verify_queued_destination_receipt`. -/
def verifyQueuedDestinationReceipt (r : Receipt) (a : Authorization) (action : String)
    (d : Descriptor) (result : DemoResult) : Except Fault String := do
  let malformed : Fault := .valueError "malformed queued destination receipt or result"
  let digest ← C.verifyQueuedAuthorization a d action none
  let d ← (C.normalizeQueuedDescriptor d).mapError fun _ => malformed
  require ((C.receiptText r).length ≤ 16384) (.valueError "queued receipt exceeds byte limit")
  require ((demoValue action).any fun value => result == C.demoResult value digest &&
      (resultText result).length ≤ 512)
    (.valueError "queued result is not the exact bounded demonstration effect")
  require ({ r with signatureHex := "" } == C.receiptFor a d result r.committedAt)
    (.valueError "queued receipt does not match exact authorization and result")
  require (isSeconds r.committedAt && decide (a.issuedAt ≤ r.committedAt) &&
      decide (r.committedAt < a.expiresAt))
    (.valueError "queued receipt commit is outside signed execution window")
  require (isLowerHex 128 r.signatureHex)
    (.valueError "invalid queued destination signature encoding")
  require (C.verifies d.destinationPublicKeyHex (C.receiptPayload r) r.signatureHex)
    (.valueError "invalid queued destination signature")
  return C.sha256 (C.receiptText r)

/-- The readback says what the receipt and the descriptor say. -/
def matchesReceipt (p : Attestation) (a : Authorization) (action : String) (d : Descriptor)
    (result : DemoResult) (r : Receipt) : Bool :=
  p.receipt.copied == r.copied && p.destinationReceiptSha256 == C.sha256 (C.receiptText r) &&
    p.observerKeyId == d.observerKeyId &&
    p.sourceEvidenceSha256 == C.sourceEvidenceSha256 a action result r

/-- The readback is neither stale nor from the future, for a verifier whose clock reads `now`. -/
def isTimely (p : Attestation) (now : ℤ) : Bool :=
  isSeconds p.observedAt && decide ((now : Time) - ((300 : ℕ) : ℚ) ≤ p.observedAt) &&
    decide (p.observedAt ≤ now + ((30 : ℕ) : ℚ)) &&
    decide (p.receipt.committedAt ≤ p.observedAt + ((30 : ℕ) : ℚ))

/-- `verify_queued_readback_attestation`, with the default age of 300 seconds. -/
def verifyQueuedReadbackAttestation (p : Attestation) (a : Authorization) (action : String)
    (d : Descriptor) (result : DemoResult) (r : Receipt) (now : ℤ) : Except Fault String := do
  let untrusted : Fault := .valueError "untrusted queued readback evidence"
  let d ← (C.normalizeQueuedDescriptor d).mapError fun _ => untrusted
  let _ ← (C.verifyQueuedDestinationReceipt r a action d result).mapError fun _ => untrusted
  require ((C.readbackText p).length ≤ 16384) (.valueError "queued readback exceeds byte limit")
  require (C.matchesReceipt p a action d result r)
    (.valueError "queued readback disagrees with exact committed evidence")
  require (isTimely p now) (.valueError "queued readback is stale or from the future")
  require (isLowerHex 128 p.signatureHex)
    (.valueError "invalid queued readback signature encoding")
  require (C.verifies d.observerPublicKeyHex (C.readbackPayload p) p.signatureHex) untrusted
  return C.sha256 (C.readbackText p)

/-- `verify_queued_action_evidence`: the digests of the verified receipt and readback. -/
def verifyQueuedActionEvidence (a : Authorization) (action : String) (d : Descriptor)
    (e : Evidence) (now : ℤ) : Except Fault (String × String) := do
  let receipt ← C.verifyQueuedDestinationReceipt e.destinationReceipt a action d e.result
  let readback ← C.verifyQueuedReadbackAttestation e.readbackAttestation a action d e.result
    e.destinationReceipt now
  require ((C.envelopeText a e).length ≤ min a.resultLimitBytes resultEnvelopeLimitBytes)
    (.valueError "queued result and evidence exceed immutable result allowance")
  return (receipt, readback)

/-! ### What is accepted -/

/-- An authorization that the destination accepts at any time of its window. -/
structure Acceptable (a : Authorization) (d : Descriptor) (action : String) : Prop where
  canonical : (demoValue action).isSome = true
  size : (C.authorizationText a).length ≤ 8192
  identifiers : a.identifiers.all isQueuedIdentifier = true
  digests : a.digests.all (isLowerHex 64) = true
  agrees : C.agrees a d action = true
  epoch : 1 ≤ a.fenceEpoch ∧ a.fenceEpoch ≤ 9223372036854775807
  allowance : 1 ≤ a.resultLimitBytes ∧ a.resultLimitBytes ≤ 1048576
  window : hasWindow a d = true
  encoding : isLowerHex 128 a.signatureHex = true
  signature : C.verifies d.authorizerPublicKeyHex (C.authorizationPayload a) a.signatureHex = true

variable {C} {a : Authorization} {d : Descriptor} {action : String}

variable {digest : String}

/-- **An authorization is accepted if it is acceptable and the time lies in its window.** -/
theorem verifyQueuedAuthorization_eq_ok (hd : C.IsNormal d) {now : Option Time} :
    C.verifyQueuedAuthorization a d action now = .ok digest ↔
      C.Acceptable a d action ∧ (∀ t ∈ now, isSeconds t = true ∧ a.issuedAt ≤ t ∧ t < a.expiresAt) ∧
        digest = C.authorizationSha256 a := by
  unfold IsNormal at hd
  simp only [verifyQueuedAuthorization, hd, bind_eq_ok, mapError_eq_ok,
    Except.ok.injEq, require_eq_ok, pure_eq_ok, Option.all_eq_true, and_eq_true,
    decide_eq_true_eq]
  constructor
  · rintro ⟨_, rfl, -, haction, -, hsize, -, hids, -, hdigests, -, hagrees, -,
      ⟨⟨⟨hlow, hhigh⟩, hone⟩, hlimit⟩, -, hwindow, -, hnow, -, hencoding, -, hsign, rfl⟩
    exact ⟨⟨haction, hsize, hids, hdigests, hagrees, ⟨hlow, hhigh⟩, ⟨hone, hlimit⟩, hwindow,
      hencoding, hsign⟩, fun t ht => and_assoc.mp (hnow t ht), rfl⟩
  · rintro ⟨h, hnow, rfl⟩
    exact ⟨d, rfl, (), h.canonical, (), h.size, (), h.identifiers, (), h.digests, (), h.agrees, (),
      ⟨⟨h.epoch, h.allowance.1⟩, h.allowance.2⟩, (), h.window, (),
      fun t ht => and_assoc.mpr (hnow t ht), (), h.encoding, (), h.signature, rfl⟩

section Refused

variable (hd : C.IsNormal d) (haction : (demoValue action).isSome = true) {now : Option Time}

include hd haction

/-- Identifiers are judged before the time is read. -/
theorem verifyQueuedAuthorization_of_identifiers (h : (C.authorizationText a).length ≤ 8192)
    (hids : a.identifiers.all isQueuedIdentifier = false) :
    C.verifyQueuedAuthorization a d action now =
      .error (.valueError "invalid queued authorization identifier") := by
  have hnormal : C.normalizeQueuedDescriptor d = .ok d := hd
  unfold verifyQueuedAuthorization
  rw [hnormal, haction, decide_eq_true h, hids]
  rfl

end Refused

/-- What a verified receipt says, apart from its authorization. -/
structure Receipted (C : Codec) (r : Receipt) (a : Authorization) (action : String)
    (d : Descriptor) (result : DemoResult) : Prop where
  size : (C.receiptText r).length ≤ 16384
  effect : ∃ value, demoValue action = some value ∧
    result = C.demoResult value (C.authorizationSha256 a) ∧ (resultText result).length ≤ 512
  receipt : { r with signatureHex := "" } = C.receiptFor a d result r.committedAt
  committed : isSeconds r.committedAt = true ∧ a.issuedAt ≤ r.committedAt ∧
    r.committedAt < a.expiresAt
  encoding : isLowerHex 128 r.signatureHex = true
  signature : C.verifies d.destinationPublicKeyHex (C.receiptPayload r) r.signatureHex = true

/-- **A receipt is accepted whenever it is verified**: the judgement does not depend on time. -/
theorem verifyQueuedDestinationReceipt_eq_ok (hd : C.IsNormal d) {r : Receipt}
    {result : DemoResult} :
    C.verifyQueuedDestinationReceipt r a action d result = .ok digest ↔
      C.Acceptable a d action ∧ Receipted C r a action d result ∧
        digest = C.sha256 (C.receiptText r) := by
  have hnormal : C.normalizeQueuedDescriptor d = .ok d := hd
  simp only [verifyQueuedDestinationReceipt, hnormal, bind_eq_ok, mapError_eq_ok,
    Except.ok.injEq, require_eq_ok, pure_eq_ok, Option.any_eq_true, and_eq_true,
    decide_eq_true_eq, beq_iff_eq, verifyQueuedAuthorization_eq_ok hd]
  constructor
  · rintro ⟨_, ⟨hok, -, rfl⟩, _, rfl, -, hsize, -, ⟨value, hvalue, hresult, hsmall⟩, -, hreceipt,
      -, ⟨⟨hseconds, hissued⟩, hexpires⟩, -, hencoding, -, hsign, rfl⟩
    exact ⟨hok, ⟨hsize, ⟨value, hvalue, hresult, hsmall⟩, hreceipt, ⟨hseconds, hissued, hexpires⟩,
      hencoding, hsign⟩, rfl⟩
  · rintro ⟨hok, h, rfl⟩
    obtain ⟨value, hvalue, hresult, hsmall⟩ := h.effect
    exact ⟨_, ⟨hok, by simp, rfl⟩, d, rfl, (), h.size, (), ⟨value, hvalue, hresult, hsmall⟩, (),
      h.receipt, (), ⟨⟨h.committed.1, h.committed.2.1⟩, h.committed.2.2⟩, (), h.encoding, (),
      h.signature, rfl⟩

/-- **A readback is accepted if it is timely and agrees with a verified receipt.** -/
theorem verifyQueuedReadbackAttestation_eq_ok (hd : C.IsNormal d) {p : Attestation} {r : Receipt}
    {result : DemoResult} {now : ℤ} :
    C.verifyQueuedReadbackAttestation p a action d result r now = .ok digest ↔
      (C.Acceptable a d action ∧ Receipted C r a action d result) ∧
        (C.readbackText p).length ≤ 16384 ∧ C.matchesReceipt p a action d result r = true ∧
        isTimely p now = true ∧ isLowerHex 128 p.signatureHex = true ∧
        C.verifies d.observerPublicKeyHex (C.readbackPayload p) p.signatureHex = true ∧
        digest = C.sha256 (C.readbackText p) := by
  have hnormal : C.normalizeQueuedDescriptor d = .ok d := hd
  simp only [verifyQueuedReadbackAttestation, hnormal, bind_eq_ok, mapError_eq_ok,
    Except.ok.injEq, require_eq_ok, pure_eq_ok, decide_eq_true_eq]
  constructor
  · rintro ⟨_, rfl, _, hreceipt, -, hsize, -, hmatches, -, htimely, -, hencoding, -, hsign, rfl⟩
    obtain ⟨hok, hreceipted, -⟩ := (verifyQueuedDestinationReceipt_eq_ok hd).mp hreceipt
    exact ⟨⟨hok, hreceipted⟩, hsize, hmatches, htimely, hencoding, hsign, rfl⟩
  · rintro ⟨⟨hok, hreceipted⟩, hsize, hmatches, htimely, hencoding, hsign, rfl⟩
    exact ⟨d, rfl, _, (verifyQueuedDestinationReceipt_eq_ok hd).mpr ⟨hok, hreceipted, rfl⟩, (),
      hsize, (), hmatches, (), htimely, (), hencoding, (), hsign, rfl⟩

end Codec

/-! ### The typed contract -/

/-- The three signing callbacks, on the texts they are given. -/
structure Signers where
  authorizer : List Char → String
  destination : List Char → String
  observer : List Char → String

/-- A callback signs correctly for a public key. -/
structure Codec.Signs (C : Codec) (key : String) (sign : List Char → String) : Prop where
  encoding : ∀ m, isLowerHex 128 (sign m) = true
  verifies : ∀ m, C.verifies key m (sign m) = true

/-- The digests and signatures of the documents' texts. -/
def Codec.contract (C : Codec) (k : Signers) : Contract where
  descriptorSha256 := C.descriptorSha256
  authorizationSha256 := C.authorizationSha256
  isDemoAction action := (demoValue action).isSome
  actionSha256 action := C.sha256 action.toList
  stored action := ((demoValue action).map fun value =>
    (C.sha256 value.toList, value.utf8ByteSize)).getD ("", 0)
  resultSha256 r := C.sha256 (Codec.resultText r)
  receiptSha256 r := C.sha256 (C.receiptText r)
  sourceEvidenceSha256 := C.sourceEvidenceSha256
  authorizerSign a := k.authorizer (C.authorizationPayload a)
  destinationSign r := k.destination (C.receiptPayload r)
  observerSign p := k.observer (C.readbackPayload p)

theorem Codec.contract_demoResult (C : Codec) (k : Signers) {action value : String}
    (h : demoValue action = some value) (digest : String) :
    (C.contract k).demoResult action digest = C.demoResult value digest := by
  simp [Contract.demoResult, Codec.demoResult, Codec.contract, h]

section Typed

variable {C : Codec} {a : Authorization} {d : Descriptor} {action : String}

theorem isNormal_of_isNormal (h : C.IsNormal d) : d.isNormal = true := by
  simp only [Codec.IsNormal, Codec.normalizeQueuedDescriptor, bind_eq_ok, require_eq_ok,
    and_eq_true, decide_eq_true_eq, pure_eq_ok] at h
  obtain ⟨-, ⟨⟨⟨hkind, hprotocol⟩, hschema⟩, hmax⟩, -, hids, -, hkeys, -, hdistinct, -, hnames, -,
    ⟨hpos, hten⟩, -, hpath, -⟩ := h
  simp only [Descriptor.isNormal, and_eq_true, decide_eq_true_eq]
  refine ⟨⟨⟨⟨⟨⟨⟨⟨⟨⟨hkind, hprotocol⟩, hschema⟩, hmax⟩, ?_⟩, ?_⟩, hdistinct⟩, hnames⟩, hpos⟩,
    hten⟩, ?_⟩
  · exact all_eq_true.mpr fun s hs =>
      ((isQueuedIdentifier_iff s).mp (all_eq_true.mp hids s hs)).1
  · exact all_eq_true.mpr fun s hs => isHex_of_isLowerHex (all_eq_true.mp hkeys s hs)
  · simp only [Codec.isPath, and_eq_true] at hpath
    exact hpath.1.1.1.1.1.1.1

/-- Only what the callbacks sign verifies under the keys of the descriptor. -/
structure Signers.Only (k : Signers) (C : Codec) (d : Descriptor) : Prop where
  authorizer : ∀ m s, C.verifies d.authorizerPublicKeyHex m s = true → s = k.authorizer m
  destination : ∀ m s, C.verifies d.destinationPublicKeyHex m s = true → s = k.destination m
  observer : ∀ m s, C.verifies d.observerPublicKeyHex m s = true → s = k.observer m

variable {k : Signers} {digest : String}

/-- **The typed contract accepts what is accepted here.** -/
theorem verifyAuthorization_of_exact (hd : C.IsNormal d) (hk : k.Only C d) (now : Option Time)
    (h : C.verifyQueuedAuthorization a d action now = .ok digest) :
    (C.contract k).verifyAuthorization a d action now = .ok digest := by
  obtain ⟨hok, hnow, rfl⟩ := (Codec.verifyQueuedAuthorization_eq_ok hd).mp h
  have hidentifier : a.identifiers.all Task.isIdentifier = true :=
    all_eq_true.mpr fun s hs =>
      ((isQueuedIdentifier_iff s).mp (all_eq_true.mp hok.identifiers s hs)).1
  have hdigest : a.digests.all (isHex 64) = true :=
    all_eq_true.mpr fun s hs => isHex_of_isLowerHex (all_eq_true.mp hok.digests s hs)
  have hepoch : a.fenceEpoch < 2 ^ 63 := by have := hok.epoch.2; omega
  have hsign : a.signatureHex =
      k.authorizer (C.authorizationPayload { a with signatureHex := "" }) :=
    hk.authorizer _ _ hok.signature
  simp only [Contract.verifyAuthorization, bind_eq_ok, require_eq_ok, and_eq_true,
    decide_eq_true_eq, beq_iff_eq, Option.all_eq_true, pure_eq_ok]
  have hagrees := hok.agrees
  have hwindow := hok.window
  simp only [Codec.agrees, Codec.hasWindow, and_eq_true, beq_iff_eq,
    decide_eq_true_eq] at hagrees hwindow
  exact ⟨(), ⟨isNormal_of_isNormal hd, hok.canonical⟩, (), hidentifier, (), hdigest, (), hagrees,
    (), ⟨⟨⟨hok.epoch.1, hepoch⟩, hok.allowance.1⟩, hok.allowance.2⟩, (), hwindow, (),
    fun t ht => and_assoc.mpr (hnow t ht), (), hsign, rfl⟩

theorem verifyReceipt_of_exact (hd : C.IsNormal d) (hk : k.Only C d) {r : Receipt}
    {result : DemoResult} (h : C.verifyQueuedDestinationReceipt r a action d result = .ok digest) :
    (C.contract k).verifyReceipt r a action d result = .ok digest := by
  obtain ⟨hok, hr, rfl⟩ := (Codec.verifyQueuedDestinationReceipt_eq_ok hd).mp h
  have hauthorized := verifyAuthorization_of_exact hd hk none
    ((Codec.verifyQueuedAuthorization_eq_ok hd).mpr ⟨hok, nofun, rfl⟩)
  obtain ⟨value, hvalue, hresult, -⟩ := hr.effect
  have hdemo : result = (C.contract k).demoResult action (C.authorizationSha256 a) :=
    hresult.trans (C.contract_demoResult k hvalue _).symm
  simp only [Contract.verifyReceipt, hauthorized, ok_bind, bind_eq_ok, require_eq_ok, and_eq_true,
    decide_eq_true_eq, beq_iff_eq, pure_eq_ok]
  exact ⟨(), hdemo, (), hr.receipt, (), and_assoc.mpr hr.committed, (),
    hk.destination _ _ hr.signature, rfl⟩

theorem verifyEvidence_of_exact (hd : C.IsNormal d) (hk : k.Only C d) {e : Evidence} {now : ℤ}
    {digests : String × String} (hcopy : e.readbackAttestation.receipt = e.destinationReceipt)
    (h : C.verifyQueuedActionEvidence a action d e now = .ok digests) :
    (C.contract k).verifyEvidence a action d e now = .ok .succeeded := by
  simp only [Codec.verifyQueuedActionEvidence, bind_eq_ok] at h
  obtain ⟨receipt, hreceipt, readback, hreadback, -⟩ := h
  obtain ⟨-, -, hmatches, htimely, -, hsign, -⟩ :=
    (Codec.verifyQueuedReadbackAttestation_eq_ok hd).mp hreadback
  obtain ⟨-, -, rfl⟩ := (Codec.verifyQueuedDestinationReceipt_eq_ok hd).mp hreceipt
  simp only [Codec.matchesReceipt, Codec.isTimely, hcopy, Nat.cast_ofNat, and_eq_true, beq_iff_eq,
    decide_eq_true_eq] at hmatches htimely
  simp only [Contract.verifyEvidence, Contract.verifyAttestation, verifyReceipt_of_exact hd hk
    hreceipt, ok_bind, bind_eq_ok, require_eq_ok, and_eq_true, decide_eq_true_eq, beq_iff_eq,
    pure_eq_ok]
  exact ⟨(), ⟨(), ⟨⟨⟨hcopy, hmatches.1.1.2⟩, hmatches.1.2⟩, hmatches.2⟩, (), htimely,
    hk.observer _ _ hsign⟩, trivial⟩

end Typed

end AgentBridge.Queued
