import AgentBridge.Queued.Guard

/-!
# The transactions of a queued task

Each entry point writes the tenant store in one transaction, which is a function here that
returns the new store or the exception that rolls everything back: acceptance of an intent, its
admission, the execution decision, the settlement of a verified result, and cancellation. Locks
are taken inside the transactions; what is read again under a further lock is read once here.
-/

namespace AgentBridge.Queued

open Authority

/-! ### Acceptance -/

/-- A parsed and signed submission. -/
structure TaskRequest where
  submission : Submission
  nonce : String
  bodySha256 : String
  deriving DecidableEq

/-- The identifier checks of `parse_submission`. -/
def TaskRequest.isValid (q : TaskRequest) : Bool :=
  let s := q.submission
  [s.src, s.dst, s.targetId, s.operationId].all Task.isIdentifier && s.src.length ≤ 32 &&
    s.dst.length ≤ 32 && 16 ≤ s.operationId.length

/-- `assert_request`. -/
def assertRequest (s : Authority.State) (r : Reads) (p : Principal) (q : TaskRequest) :
    Except Fault Unit := do
  current s.dir s.minted r p
  require ((p.kind == .machine || p.kind == .delegatedHuman) &&
      p.requestBodySha256 == q.bodySha256 && p.requestNonce == q.nonce)
    (.authorityDenied "principal proof is bound to a different request")

namespace Tenant

variable (cfg : Config) (s : Authority.State) (t : Tenant)

/-- The registered identity of an agent agrees with its enrollment. -/
def agrees (agentId publicKeyHex : String) : Bool :=
  (t.identities.lookup agentId).any fun i => !i.revoked && i.publicKeyHex == publicKeyHex

/-- The key or the operation of a new intent is taken. -/
def isTaken (key : TaskKey) (k : OpKey) : Bool :=
  (t.intents.lookup key).isSome ||
    t.intents.entries.any (fun e => (e.2.agentId, e.2.operationId) == k) ||
    (t.lifecycle.snapshots.lookup key).isSome || (t.store.accounts.operations.lookup k).isSome

/-- The provenance an intent is accepted with. -/
def provenance (p : Principal) (q : TaskRequest) (agent : AgentRow) (capability : String)
    (cost : Cost) (setup : Setup) : Provenance where
  authority := p.binding
  authorizationExpiresAt := p.validUntil
  requestNonce := q.nonce
  requestBodySha256 := q.bodySha256
  signerPublicKeyHex := agent.publicKeyHex
  capability := capability
  operatorCost := cost
  -- an action without a target has the digest of no target, and is never admitted
  targetConfigurationSha256 := (setup.target.map cfg.contract.descriptorSha256).getD ""
  approvalRequiredAtSubmission := setup.rule.approvalRequired

/-- `_accept`: retain the intent and create its task. -/
def accept (ownerId agentId : String) (record : IntentRecord) : Except Fault Tenant := do
  let submission := record.submission
  let key : TaskKey := (ownerId, submission.taskId)
  require (!t.isTaken key (agentId, submission.operationId))
    (.operationConflict "retained task or operation identity already exists; no replacement")
  require (decide (Table.size t.intents < t.maxIntents))
    (.valueError "retained intent capacity reached; reviewed capacity increase required")
  let task ← Task.submit submission.taskId submission.contextId "agentbridge"
  let lifecycle ← t.lifecycle.create ownerId task
  return { t with
    lifecycle
    intents := t.intents.insert key
      { agentId, operationId := submission.operationId, intentSha256 := cfg.intentSha256 record
        record, resultLimitBytes := t.maxResultBytes } }

/-- `submit_task`, with the clock readings of its checks. -/
def submitTask (p : Principal) (q : TaskRequest) (setup : Setup) (first second : Reads)
    (acceptedAt : Time) : Except Fault Tenant := do
  assertRequest s first p q
  require q.isValid (.valueError "invalid task submission")
  match setup.capability, setup.cost, p.agentId with
  | some capability, some cost, some agentId => do
    authorize s.dir s.minted first p capability (some q.submission.targetId)
    let agent ← s.dir.agent (some cfg.tenantId) (some agentId)
    require (t.agrees agentId agent.publicKeyHex)
      (.authorityDenied "tenant identity and enrollment disagree")
    require setup.rule.allowed
      (.authorityDenied "current declarative policy denies queued intent")
    let ownerId ← cfg.bindingOwner p.binding
    let t ← t.accept cfg ownerId agentId
      { submission := q.submission, acceptedAt
        provenance := provenance cfg p q agent capability cost setup }
    authorize s.dir s.minted second p capability (some q.submission.targetId)
    return t
  | _, _, _ => throw (.authorityDenied "operator-owned tenant cost schedule missing")

/-! ### Admission -/

/-- `approvals.is_granted`. -/
def isGranted (agentId capability scope : String) : Bool :=
  t.store.approvals.entries.any fun e => e.2.status == .approved && e.2.agentId == agentId &&
    e.2.capability == capability ++ "|" ++ scope

/-- `_queued_policy`: queued work needs an operator's budget, and keeps the approval it was
submitted with. -/
def queuedPolicy (intent : StoredIntent) (capability scope : String) (decision : Decision) :
    Decision :=
  if (t.store.accounts.budgets.lookup intent.agentId).isNone then
    { allowed := false, reason := "operator budget required for queued admission" }
  else if decision.allowed && intent.record.provenance.approvalRequiredAtSubmission &&
      !decision.approvalRequired then
    if t.isGranted intent.agentId capability scope then
      { allowed := true, reason := decision.reason, approvalRequired := true }
    else { allowed := false, reason := "original queued approval required" }
  else decision

/-- `_queued_scope`: the fingerprint of the prepared action, and the one of the plain action. -/
def preparedScope (context : QueuedAuthority) (p : Plan) : String × String :=
  let q := p.submission
  let original := cfg.actionSha256
    { agentId := context.intent.agentId, src := q.src, dst := q.dst, wire := q.wire
      cost := p.cost, targetId := q.targetId, operationId := q.operationId
      authority := context.principal.binding }
  (cfg.queuedActionSha256 (p.ownerId, q.taskId) p.intentSha256 original, original)

/-- What one admission reads from outside: clocks, the fresh token, the usage snapshots. -/
structure QueuedInput where
  plan : Reads
  claimedAt : Time
  reservedAt : Time
  token : String
  quotaNow : Time := 0
  quotaReads : QuotaReads := {}
  firstAuthorize : Reads
  secondAuthorize : Reads
  prepared : LifetimeReads
  admittedAt : Time
  lifetime : LifetimeReads

/-- The trigger on `task_operation_links_v1`. -/
def linkGuard (link : Link) (snapshot : Task) : Bool :=
  let key : TaskKey := (link.ownerId, link.taskId)
  ((t.intents.lookup key).any fun i => i.agentId == link.agentId &&
      i.operationId == link.operationId && i.intentSha256 == link.intentSha256) &&
    ((t.store.accounts.operations.lookup link.opKey).any fun o =>
      o.fingerprint == link.actionSha256 && o.state == .unknown) &&
    t.store.accounts.reservations.lookup link.opKey == some link.reservationToken &&
    t.lifecycle.events.lookup (key, link.eventSequence) == some snapshot &&
    t.lifecycle.snapshots.lookup key == some snapshot && !snapshot.isTerminal &&
    link.eventSequence == 1

/-- `TaskAdmissionStore._insert`: the stored link is its receipt. -/
def insertLink (link : Link) (snapshot : Task) : Except Fault (LinkRow × Tenant) := do
  let row : LinkRow := { link with snapshot, linkSha256 := cfg.linkSha256 link }
  require (t.linkGuard link snapshot) (.integrityError "invalid or unbounded task admission link")
  require (!t.links.entries.any fun e => e.2.opKey == link.opKey)
    (.integrityError "unique agent and operation")
  let links ← t.links.insertNew (link.ownerId, link.taskId) row
    (.integrityError "unique owner and task")
  return (row, { t with links })

/-- The metadata of a new link. -/
def linkFor (context : QueuedAuthority) (p : Plan) (task : Task) (token : String)
    (approvalRequired : Bool) (admittedAt : Time) : Link where
  tenantId := cfg.tenantId
  ownerId := p.ownerId
  taskId := p.submission.taskId
  contextId := p.submission.contextId
  agentId := context.intent.agentId
  operationId := p.submission.operationId
  intentSha256 := p.intentSha256
  actionSha256 := (preparedScope cfg context p).1
  originalActionSha256 := (preparedScope cfg context p).2
  reservationToken := token
  eventSequence := task.sequence
  targetId := p.submission.targetId
  targetConfigurationSha256 := p.targetConfigurationSha256
  reservedCost := p.cost
  approvalRequired := approvalRequired
  resultLimitBytes := p.resultLimitBytes
  originalAuthorizationExpiresAt := p.originalAuthorizationExpiresAt
  admittedAt := admittedAt

/-- `_link`: the task starts working, and is linked to its operation. -/
def link (context : QueuedAuthority) (p : Plan) (approvalRequired : Bool) (i : QueuedInput) :
    Except Fault (LinkRow × Tenant) := do
  assertQueuedLifetime cfg s t context i.prepared
  let (task, lifecycle) ← t.lifecycle.transition (p.ownerId, p.submission.taskId) .working 0
  let (receipt, t) ← insertLink cfg { t with lifecycle }
    (linkFor cfg context p task i.token approvalRequired i.admittedAt) task
  assertQueuedLifetime cfg s t context i.lifetime
  return (receipt, t)

/-- The admission request of a prepared action. -/
def admissionRequest (context : QueuedAuthority) (p : Plan) : AdmissionRequest where
  agentId := context.intent.agentId
  operationId := some p.submission.operationId
  capability := p.capability
  requestScope := (preparedScope cfg context p).1
  cost := p.cost
  principal := some context.principal
  -- queued work is decided inside the transaction
  decision := { allowed := false, reason := "" }

/-- The inputs of the common admission transaction. -/
def admissionInput (context : QueuedAuthority) (p : Plan) (decision : Decision)
    (i : QueuedInput) : AdmissionInput where
  claimedAt := i.claimedAt
  reservedAt := i.reservedAt
  token := i.token
  firstAuthorized := (authorize s.dir s.minted i.firstAuthorize context.principal p.capability
    (some p.submission.targetId)).isOk
  secondAuthorized := (authorize s.dir s.minted i.secondAuthorize context.principal p.capability
    (some p.submission.targetId)).isOk
  quotaNow := i.quotaNow
  quotaReads := i.quotaReads
  queuedDecision := some decision

/-- `_admit_queued_intent` under its guard: the common admission, and the link. -/
def admitPrepared (context : QueuedAuthority) (setup : Setup) (i : QueuedInput) :
    Except Fault (LinkRow × Tenant) := do
  let p ← plan cfg s context setup i.plan
  let decision := t.queuedPolicy context.intent p.capability (preparedScope cfg context p).1
    setup.policy
  let store ← t.store.admitTransaction cfg.quotaDigest (admissionRequest cfg context p)
    (admissionInput s context p decision i)
  link cfg s { t with store } context p decision.approvalRequired i

/-! ### Decisions -/

/-- `settle_owned_reservation` of a linked operation. -/
def settleTask (intent : StoredIntent) (link : LinkRow) (outcome : Outcome) (now : Time) :
    Except Fault Tenant := do
  let settled ← t.store.accounts.settleOwnedReservation intent.opKey link.reservationToken outcome
    (some link.reservedCost) now
  return { t with store := { t.store with accounts := settled.2 } }

/-- A task that is not yet terminal becomes so. -/
def endTask (key : TaskKey) (state : TaskState) : Except Fault Tenant := do
  let current ← t.lifecycle.get key
  if current.isTerminal then return t
  let ended ← t.lifecycle.transition key state current.sequence
  return { t with lifecycle := ended.2 }

/-- `_close`: decide that a task is never dispatched, and give its budget back. -/
def close (h : History) (reason : String) (terminal : TaskState) (now : Time) :
    Except Fault Tenant := do
  require (t.decisions.lookup h.intent.key).isNone
    (.authorityDenied "execution decision already exists")
  let t ← t.insertDecision cfg (h.intent.base h.link) (.closed reason)
  let t ← t.settleTask h.intent h.link .failed now
  t.endTask h.intent.key terminal

/-- What the transaction of a dispatch reads from outside. -/
structure DispatchInput where
  setup : Setup
  check : CheckReads
  stamp : Time
  lifetime : LifetimeReads

/-- The closing transaction of `dispatch_once`: the result allowance is too small. -/
def closeInsufficient (context : QueuedAuthority) (refs : Refs) (i : DispatchInput) :
    Except Fault Tenant := do
  let _ ← t.store.accounts.lockUnknown context.intent.opKey
  let (h, _) ← currentDispatch cfg s t context refs i.setup i.check
  let t ← t.close cfg h "immutable result allowance is insufficient for queued evidence" .rejected
    i.stamp
  assertQueuedLifetime cfg s t context i.lifetime
  return t

/-- A fence that was taken at the destination. -/
structure Lease where
  attemptId : String
  fenceScope : String
  epoch : ℕ
  expiry : Time
  deriving DecidableEq, Repr

def attemptDeadline (context : QueuedAuthority) (p : Plan) (lease : Lease) (stamp : Time) :
    Time :=
  min (min context.originalDeadline context.principal.validUntil)
    (min lease.expiry (stamp + p.target.callTimeoutSeconds))

/-- The authorization of an attempt, before it is signed. -/
def unsigned (h : History) (p : Plan) (lease : Lease) (action : String) (stamp deadline : Time) :
    Authorization where
  tenantId := cfg.tenantId
  storeId := cfg.storeId
  ownerId := h.intent.ownerId
  taskId := h.intent.taskId
  agentId := h.intent.agentId
  operationId := h.intent.operationId
  admissionLinkSha256 := h.link.linkSha256
  authoritySha256 := cfg.authoritySha256 h.intent.record.provenance.authority
  contextId := p.submission.contextId
  intentSha256 := h.intent.intentSha256
  fingerprint := h.link.actionSha256
  originalActionSha256 := h.link.originalActionSha256
  targetId := p.submission.targetId
  targetConfigurationSha256 := p.targetConfigurationSha256
  destinationId := p.target.destinationId
  actionSha256 := cfg.contract.actionSha256 action
  resultLimitBytes := h.intent.resultLimitBytes
  attemptId := lease.attemptId
  fenceScope := lease.fenceScope
  fenceOwner := lease.attemptId
  fenceEpoch := lease.epoch
  issuedAt := stamp
  expiresAt := deadline
  authorizerKeyId := p.target.authorizerKeyId
  signatureHex := ""

/-- `QueuedSqliteAdapter.authorize`. -/
def signed (a : Authorization) : Authorization :=
  { a with signatureHex := cfg.contract.authorizerSign a }

/-- The attempt transaction of `dispatch_once`: the decision is stored before the call. -/
def attempt (context : QueuedAuthority) (refs : Refs) (p : Plan) (lease : Lease)
    (action : String) (i : DispatchInput) : Except Fault (Authorization × Tenant) := do
  let _ ← t.store.accounts.lockUnknown context.intent.opKey
  let (h, locked) ← currentDispatch cfg s t context refs i.setup i.check
  require (locked == p && (t.decisions.lookup refs.key).isNone)
    (.authorityDenied "queued decision or current plan changed")
  let deadline := attemptDeadline context p lease i.stamp
  require (decide (i.stamp < deadline)) (.authorityDenied "queued dispatch deadline expired")
  let authorization := signed cfg (unsigned cfg h p lease action i.stamp deadline)
  let t ← t.insertDecision cfg (h.intent.base h.link)
    (.attempt lease.attemptId authorization p.target)
  assertQueuedLifetime cfg s t context i.lifetime
  return (authorization, t)

/-- `cancel`: close a task without a decision; otherwise only note the request. -/
def cancel (refs : Refs) (reason : String) (now : Time) : Except Fault Tenant := do
  require (reason.toList.any (fun c => !isSpace c) && reason.utf8ByteSize ≤ 200)
    (.valueError "bounded cancellation reason required")
  let h ← t.linkedHistory cfg refs
  let decision := t.decisions.lookup refs.key
  if (t.results.lookup refs.key).isSome || decision.any fun d => !d.body.isAttempt then return t
  let _ ← t.store.accounts.lockUnknown h.intent.opKey
  if decision.isNone then t.close cfg h reason .canceled now
  else if (t.controls.lookup refs.key).isNone then
    t.insertCancellation { base := h.intent.base h.link, reason }
  else return t

/-! ### Settlement -/

/-- `_Readback`: a sealed observation. -/
structure Readback where
  refs : Refs
  decisionSha256 : String
  evidence : Evidence
  deriving DecidableEq

/-- The identity an authorization certifies is the one of the admitted task. -/
def certifies (a : Authorization) (h : History) (attemptId : String) : Bool :=
  a.tenantId == cfg.tenantId && a.storeId == cfg.storeId && a.ownerId == h.intent.ownerId &&
    a.agentId == h.intent.agentId && a.taskId == h.intent.taskId &&
    a.operationId == h.intent.operationId && a.intentSha256 == h.intent.intentSha256 &&
    a.admissionLinkSha256 == h.link.linkSha256 && a.fingerprint == h.operation.fingerprint &&
    a.attemptId == attemptId

/-- The result row of a verified attempt. -/
def resultFor (h : History) (a : Authorization) (decisionSha256 : String) (evidence : Evidence)
    (outcome : Outcome) (review : Option OperatorReview) : ResultRow where
  base := h.intent.base h.link
  outcome := outcome
  decisionSha256 := decisionSha256
  authorization := a
  evidence := evidence
  review := review
  previousTerminalState := if h.current.isTerminal then some h.current.state else none

/-- `_finish_verified`: settle an attempt by what was read back at the destination. A manual
reconciliation brings a review, which must verify. -/
def finishVerified (completion : Readback) (review : Option OperatorReview) (isReviewed : Bool)
    (now : Time) : Except Fault Tenant := do
  let refs := completion.refs
  match t.decisions.lookup refs.key with
  | some ⟨_, .attempt attemptId a descriptor, recordSha256⟩ => do
    require (recordSha256 == completion.decisionSha256)
      (.authorityDenied "exact immutable attempt required for settlement")
    let h ← t.linkedHistory cfg refs
    if (t.results.lookup refs.key).isSome then return t
    let _ ← t.store.accounts.lockUnknown h.intent.opKey
    match cfg.demoAction h.intent.record.submission.wire with
    | none => throw (.valueError "exact queued MCP tools/call required")
    | some action => do
      let outcome ← cfg.contract.verifyEvidence a action descriptor completion.evidence now
      require (certifies cfg a h attemptId)
        (.authorityDenied "verified result does not match the admitted task")
      require (review.isNone || isReviewed) (.authorityDenied "signed operator review required")
      let t ← t.insertResult (resultFor h a recordSha256 completion.evidence outcome review)
      let t ← t.settleTask h.intent h.link outcome now
      t.endTask refs.key .completed
  | _ => throw (.authorityDenied "exact immutable attempt required for settlement")

end Tenant

end AgentBridge.Queued
