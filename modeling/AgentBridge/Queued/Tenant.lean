import AgentBridge.Authority.System
import AgentBridge.Gateway.Store
import AgentBridge.Queued.Destination

/-!
# The rows of a queued task

A queued task leaves one row in each of several tables of its tenant store: the accepted intent,
the admission link to its operation, the execution decision, the result. None of them is ever
rewritten. This file has the tables, the statements that insert into them, and the loader
that every later step starts from.
-/

namespace AgentBridge.Queued

open Authority Except Bool

/-! ### Rows -/

/-- The submitted action. -/
structure Submission where
  taskId : String
  contextId : String
  src : String
  dst : String
  wire : String
  operationId : String
  targetId : String
  deriving DecidableEq

/-- Under which authority an intent was accepted. -/
structure Provenance where
  authority : Binding
  authorizationExpiresAt : Time
  requestNonce : String
  requestBodySha256 : String
  signerPublicKeyHex : String
  capability : String
  operatorCost : Cost
  targetConfigurationSha256 : String
  approvalRequiredAtSubmission : Bool
  deriving DecidableEq

/-- The retained record of an intent. -/
structure IntentRecord where
  submission : Submission
  provenance : Provenance
  acceptedAt : Time
  deriving DecidableEq

/-- A row of `task_intents_v1`, under owner and task id. -/
structure Intent where
  agentId : String
  operationId : String
  intentSha256 : String
  record : IntentRecord
  resultLimitBytes : ℕ
  deriving DecidableEq

/-- `_StoredIntent`: an intent together with its key. -/
structure StoredIntent extends Intent where
  ownerId : String
  taskId : String
  deriving DecidableEq

/-- The metadata of an admission link. -/
structure Link where
  tenantId : String
  ownerId : String
  taskId : String
  contextId : String
  agentId : String
  operationId : String
  intentSha256 : String
  actionSha256 : String
  originalActionSha256 : String
  reservationToken : String
  eventSequence : ℕ
  targetId : String
  targetConfigurationSha256 : String
  reservedCost : Cost
  approvalRequired : Bool
  resultLimitBytes : ℕ
  originalAuthorizationExpiresAt : Time
  admittedAt : Time
  deriving DecidableEq

/-- A row of `task_operation_links_v1`. -/
structure LinkRow extends Link where
  snapshot : Task
  linkSha256 : String
  deriving DecidableEq

/-- The columns the three execution tables share. -/
structure Base where
  ownerId : String
  taskId : String
  agentId : String
  operationId : String
  admissionLinkSha256 : String
  deriving DecidableEq

/-- What was decided about a task. -/
inductive DecisionBody
  | closed (reason : String)
  | attempt (attemptId : String) (authorization : Authorization) (descriptor : Descriptor)
  deriving DecidableEq

/-- The stored kind of a decision is `attempt`. -/
def DecisionBody.isAttempt : DecisionBody → Bool
  | .closed _ => false
  | .attempt _ _ _ => true

/-- A row of `task_execution_decisions_v1`. -/
structure DecisionRow where
  base : Base
  body : DecisionBody
  recordSha256 : String
  deriving DecidableEq

/-- The signed review of a manual reconciliation, and the operator who makes it. -/
structure OperatorReview where
  reviewer : String
  signatureHex : String
  operator : Binding
  deriving DecidableEq

/-- A row of `task_execution_results_v1`. -/
structure ResultRow where
  base : Base
  outcome : Outcome
  decisionSha256 : String
  authorization : Authorization
  evidence : Evidence
  review : Option OperatorReview
  previousTerminalState : Option TaskState
  deriving DecidableEq

/-- A row of `task_execution_controls_v1`. -/
structure ControlRow where
  base : Base
  reason : String
  deriving DecidableEq

/-- A registered identity. -/
structure Identity where
  publicKeyHex : String
  revoked : Bool := false
  deriving DecidableEq

/-- The tables of the queued tasks. -/
structure Tables where
  lifecycle : Lifecycle := {}
  intents : Table TaskKey Intent := ∅
  links : Table TaskKey LinkRow := ∅
  decisions : Table TaskKey DecisionRow := ∅
  results : Table TaskKey ResultRow := ∅
  controls : Table TaskKey ControlRow := ∅
  identities : Table String Identity := ∅
  maxIntents : ℕ := 1024
  maxResultBytes : ℕ := 65536

structure Tenant extends Tables where
  store : Store := {}

/-- How a caller names an admitted task. -/
structure Refs where
  ownerId : String
  taskId : String
  intentSha256 : String
  admissionLinkSha256 : String
  deriving DecidableEq, Repr

/-- Owner and task id of the reference. -/
def Refs.key (refs : Refs) : TaskKey := (refs.ownerId, refs.taskId)

/-! ### Configuration -/

/-- What the owner of a task is derived from. -/
structure ResourceOwner where
  tenantId : Option String
  kind : Kind
  issuer : String
  subject : String
  agentId : Option String
  capabilities : List String
  targets : List String
  deriving DecidableEq

/-- What the fingerprint of an action is derived from. -/
structure ActionMaterial where
  agentId : String
  src : String
  dst : String
  wire : String
  cost : Cost
  targetId : String
  operationId : String
  authority : Binding
  deriving DecidableEq

/-- A kernel with one tenant: its names, and the digests it computes. -/
structure Config where
  authority : Authority.Config
  contract : Contract
  tenantId : String
  storeId : String
  deadlineSeconds : Time := 30
  quotaDigest : OwnerMaterial → String
  ownerSha256 : ResourceOwner → String
  intentSha256 : IntentRecord → String
  actionSha256 : ActionMaterial → String
  queuedActionSha256 : TaskKey → String → String → String
  linkSha256 : Link → String
  decisionSha256 : Base → DecisionBody → String
  authoritySha256 : Binding → String
  fenceScope : String → String → String → String → String
  /-- `canonical_demo_action`; `none` when it raises. -/
  demoAction : String → Option String

namespace Config

variable (cfg : Config)

/-- `binding_owner`. -/
def bindingOwner (b : Binding) : Except Fault String := do
  let unavailable : Fault := .authorityDenied "resource ownership is incomplete or unavailable"
  require ((b.kind == .machine || b.kind == .delegatedHuman) &&
      1 ≤ b.issuer.length && b.issuer.length ≤ 2048 && !hasControl b.issuer &&
      b.tenantId.any isIdentifier && b.agentId.any isIdentifier) unavailable
  (subject b.subject).mapError fun _ => unavailable
  let capabilities ← (scopes b.capabilities).mapError fun _ => unavailable
  let targets ← (scopes b.targets).mapError fun _ => unavailable
  return cfg.ownerSha256
    { tenantId := b.tenantId, kind := b.kind, issuer := b.issuer, subject := b.subject
      agentId := b.agentId, capabilities, targets }

/-- `_action_scope` of a retained intent. -/
def originalScope (intent : StoredIntent) : String :=
  let s := intent.record.submission
  cfg.actionSha256
    { agentId := intent.agentId, src := s.src, dst := s.dst, wire := s.wire
      cost := intent.record.provenance.operatorCost, targetId := s.targetId
      operationId := intent.operationId, authority := intent.record.provenance.authority }

/-- The fingerprint under which a queued action is admitted. -/
def queuedScope (intent : StoredIntent) : String :=
  cfg.queuedActionSha256 (intent.ownerId, intent.taskId) intent.intentSha256
    (cfg.originalScope intent)

end Config

def StoredIntent.opKey (intent : StoredIntent) : OpKey := (intent.agentId, intent.operationId)

def StoredIntent.key (intent : StoredIntent) : TaskKey := (intent.ownerId, intent.taskId)

def Link.opKey (link : Link) : OpKey := (link.agentId, link.operationId)

/-- The key of an execution row. -/
def Base.key (b : Base) : TaskKey := (b.ownerId, b.taskId)

/-- `_base`. -/
def StoredIntent.base (intent : StoredIntent) (link : LinkRow) : Base where
  ownerId := intent.ownerId
  taskId := intent.taskId
  agentId := intent.agentId
  operationId := intent.operationId
  admissionLinkSha256 := link.linkSha256

namespace Tenant

variable (t : Tenant)

/-! ### Inserts into the execution tables -/

/-- The trigger condition on the admission link. -/
def isLinkedTo (b : Base) : Bool :=
  (t.links.lookup b.key).any fun l =>
    l.agentId == b.agentId && l.operationId == b.operationId &&
      l.linkSha256 == b.admissionLinkSha256

/-- The trigger condition on the decision. -/
def hasAttempt (b : Base) : Bool :=
  (t.decisions.lookup b.key).any fun d =>
    d.base.admissionLinkSha256 == b.admissionLinkSha256 && d.body.isAttempt

/-- `_put`: insert one row under the trigger and the two unique keys of its table. -/
def put {R : Type} (base : R → Base) (table : Table TaskKey R) (isValid : Bool) (row : R) :
    Except Fault (Table TaskKey R) := do
  require isValid (.integrityError "invalid or unbounded task execution history")
  require (!table.entries.any fun e =>
      (base e.2).agentId == (base row).agentId && (base e.2).operationId == (base row).operationId)
    (.integrityError "unique agent and operation")
  table.insertNew (base row).key row (.integrityError "unique owner and task")

/-- `insert_decision`. -/
def insertDecision (cfg : Config) (base : Base) (body : DecisionBody) : Except Fault Tenant := do
  let decisions ← put DecisionRow.base t.decisions (t.isLinkedTo base)
    { base, body, recordSha256 := cfg.decisionSha256 base body }
  return { t with decisions }

/-- `insert_result`. -/
def insertResult (row : ResultRow) : Except Fault Tenant := do
  let results ← put ResultRow.base t.results (t.isLinkedTo row.base && t.hasAttempt row.base) row
  return { t with results }

/-- `insert_cancellation`. -/
def insertCancellation (row : ControlRow) : Except Fault Tenant := do
  let controls ← put ControlRow.base t.controls (t.isLinkedTo row.base && t.hasAttempt row.base)
    row
  return { t with controls }

/-! ### Loading the linkage -/

/-- `_load_immutable`: the accepted intent with its initial and its current task. -/
def loadImmutable (cfg : Config) (key : TaskKey) (intentSha256 : String) :
    Except Fault (StoredIntent × Task × Task) := do
  let unavailable : Fault :=
    .authorityDenied "retained queued intent integrity or ownership unavailable"
  match t.intents.lookup key, t.lifecycle.events.lookup (key, 0),
      t.lifecycle.snapshots.lookup key with
  | some intent, some initial, some current => do
    let provenance := intent.record.provenance
    let submission := intent.record.submission
    require (intent.intentSha256 == intentSha256 &&
      cfg.intentSha256 intent.record == intentSha256) unavailable
    require (decide (0 < intent.record.acceptedAt) &&
      decide (intent.record.acceptedAt < provenance.authorizationExpiresAt)) unavailable
    require (provenance.authority.tenantId == t.store.tenantId &&
      provenance.authority.agentId == some intent.agentId &&
      (cfg.bindingOwner provenance.authority).toOption == some key.1 &&
      submission.taskId == key.2 && submission.operationId == intent.operationId) unavailable
    require (decide (1 ≤ intent.resultLimitBytes) &&
      decide (intent.resultLimitBytes ≤ 1048576)) unavailable
    require (initial == { taskId := key.2, contextId := submission.contextId,
                          sourceProtocol := "agentbridge" }) unavailable
    return ({ intent with ownerId := key.1, taskId := key.2 }, initial, current)
  | _, _, _ => throw unavailable

/-- `TaskAdmissionStore.get`. -/
def getLink (key : TaskKey) (intentSha256 : String) : Except Fault LinkRow :=
  match t.links.lookup key with
  | some link =>
    if link.intentSha256 = intentSha256 then .ok link
    else .error (.authorityDenied "admission link unavailable for exact retained intent")
  | none => .error (.authorityDenied "admission link unavailable for exact retained intent")

/-- What `_linked_history` returns. -/
structure History where
  intent : StoredIntent
  link : LinkRow
  initial : Task
  current : Task
  operation : Operation

/-- The link repeats what the accepted intent says. -/
def matchesIntent (cfg : Config) (intent : StoredIntent) (initial : Task) (link : LinkRow) :
    Bool :=
  link.tenantId == cfg.tenantId && link.ownerId == intent.ownerId &&
    link.taskId == intent.taskId && link.contextId == initial.contextId &&
    link.agentId == intent.agentId && link.operationId == intent.operationId &&
    link.intentSha256 == intent.intentSha256 &&
    link.resultLimitBytes == intent.resultLimitBytes &&
    link.originalAuthorizationExpiresAt == intent.record.provenance.authorizationExpiresAt &&
    link.reservedCost == intent.record.provenance.operatorCost && link.eventSequence == 1

/-- The operation of a linked task, under the link's fingerprint and the intent's authority. -/
def linkedOperation (intent : StoredIntent) (link : LinkRow) : Except Fault Operation :=
  match t.store.accounts.operations.lookup intent.opKey with
  | some operation =>
    if operation.fingerprint = link.actionSha256 ∧
        t.store.authority.lookup intent.opKey = some intent.record.provenance.authority then
      .ok operation
    else .error (.authorityDenied "admission operation or authority binding unavailable")
  | none => .error (.authorityDenied "admission operation or authority binding unavailable")

/-- `_linked_history`: the exact immutable linkage of an admitted task. -/
def linkedHistory (cfg : Config) (refs : Refs) : Except Fault History := do
  let (intent, initial, current) ← t.loadImmutable cfg refs.key refs.intentSha256
  let link ← t.getLink refs.key refs.intentSha256
  require (link.linkSha256 == refs.admissionLinkSha256)
    (.authorityDenied "exact immutable admission link required")
  let expected ← initial.transition .working 1
  require (t.lifecycle.events.lookup (refs.key, 1) == some expected && link.snapshot == expected)
    (.authorityDenied "admission event linkage unavailable")
  require (link.actionSha256 == cfg.queuedScope intent &&
      link.originalActionSha256 == cfg.originalScope intent &&
      link.targetConfigurationSha256 == intent.record.provenance.targetConfigurationSha256)
    (.authorityDenied "admission action or target binding unavailable")
  require (matchesIntent cfg intent initial link)
    (.authorityDenied "admission does not match immutable accepted intent")
  let operation ← t.linkedOperation intent link
  return { intent, link, initial, current, operation }

/-- The admission-scoped approval of the task was consumed. -/
def isConsumed (intent : StoredIntent) (link : LinkRow) : Bool :=
  t.store.approvals.entries.any fun e =>
    e.2.agentId == intent.agentId && e.2.status == .consumed &&
      e.2.capability == intent.record.provenance.capability ++ "|" ++ link.actionSha256

/-- `_load_admitted`: what a first dispatch requires beyond the linkage. -/
def loadAdmitted (cfg : Config) (refs : Refs) : Except Fault History := do
  let h ← t.linkedHistory cfg refs
  let expected ← h.initial.transition .working 1
  require (h.current == expected && h.operation.state == .unknown)
    (.authorityDenied
      "first dispatch requires the unchanged admitted task and UNKNOWN operation")
  require (t.store.accounts.reservations.lookup h.intent.opKey == some h.link.reservationToken &&
      (t.store.accounts.budgets.lookup h.intent.agentId).any fun b =>
        b.reserved.lookup h.link.reservationToken == some h.link.reservedCost)
    (.authorityDenied "exact already-held admission reservation required")
  require (!h.link.approvalRequired || t.isConsumed h.intent h.link)
    (.authorityDenied "exact admission-scoped consumed grant unavailable")
  return h

end Tenant

/-! ### What the statements establish -/

namespace Tenant

variable {t t' : Tenant} {cfg : Config}

theorem put_eq_ok {R : Type} {base : R → Base} {table table' : Table TaskKey R} {isValid : Bool}
    {row : R} (h : put base table isValid row = .ok table') :
    isValid = true ∧ table.lookup (base row).key = none ∧
      table' = table.insert (base row).key row ∧
      ∀ k r, table.lookup k = some r → ((base r).agentId, (base r).operationId) ≠
        ((base row).agentId, (base row).operationId) := by
  simp only [put, bind_eq_ok, require_eq_ok, Table.insertNew_eq_ok, not_eq_true',
    List.any_eq_false, and_eq_true, beq_iff_eq] at h
  obtain ⟨-, hvalid, -, hunique, hnone, rfl⟩ := h
  refine ⟨hvalid, hnone, rfl, fun k r hr heq => ?_⟩
  rw [Prod.mk.injEq] at heq
  exact hunique ⟨k, r⟩ (AList.mem_lookup_iff.mp hr) heq

/-- What the linkage of a task consists of. -/
structure HistoryOk (t : Tenant) (cfg : Config) (refs : Refs) (h : History) : Prop where
  intent : ∃ row, t.intents.lookup refs.key = some row ∧
    h.intent = { row with ownerId := refs.ownerId, taskId := refs.taskId }
  link : t.links.lookup refs.key = some h.link
  current : t.lifecycle.snapshots.lookup refs.key = some h.current
  operation : t.store.accounts.operations.lookup h.intent.opKey = some h.operation
  opKey : h.link.opKey = h.intent.opKey
  scope : h.link.actionSha256 = cfg.queuedScope h.intent
  tenant : h.intent.record.provenance.authority.tenantId = t.store.tenantId
  agent : h.intent.record.provenance.authority.agentId = some h.intent.agentId
  expiry : h.link.originalAuthorizationExpiresAt =
    h.intent.record.provenance.authorizationExpiresAt
  owner : cfg.bindingOwner h.intent.record.provenance.authority = .ok refs.ownerId
  digest : h.intent.intentSha256 = cfg.intentSha256 h.intent.record
  named : h.intent.record.submission.taskId = h.intent.taskId ∧
    h.intent.record.submission.operationId = h.intent.operationId
  allowance : h.intent.resultLimitBytes ≤ 1048576
  original : h.link.originalActionSha256 = cfg.originalScope h.intent

theorem loadImmutable_eq_ok {key : TaskKey} {intentSha256 : String} {intent : StoredIntent}
    {initial current : Task}
    (h : t.loadImmutable cfg key intentSha256 = .ok (intent, initial, current)) :
    (∃ row, t.intents.lookup key = some row ∧
      intent = { row with ownerId := key.1, taskId := key.2 }) ∧
    t.lifecycle.snapshots.lookup key = some current ∧
    intent.record.provenance.authority.tenantId = t.store.tenantId ∧
    intent.record.provenance.authority.agentId = some intent.agentId ∧
    cfg.bindingOwner intent.record.provenance.authority = .ok key.1 ∧
    intent.intentSha256 = cfg.intentSha256 intent.record ∧
    (intent.record.submission.taskId = intent.taskId ∧
      intent.record.submission.operationId = intent.operationId) ∧
    intent.resultLimitBytes ≤ 1048576 := by
  simp only [loadImmutable] at h
  split at h
  case h_1 row init cur hrow _ hcurrent =>
    simp only [bind_eq_ok, require_eq_ok, and_eq_true, beq_iff_eq, decide_eq_true_eq,
      toOption_eq_some, pure_eq_ok, Prod.mk.injEq] at h
    obtain ⟨-, ⟨hsha, hdigest⟩, -, -, -, ⟨⟨⟨⟨htenant, hagent⟩, howner⟩, htask⟩, hop⟩, -, ⟨-, hlimit⟩,
      -, -, rfl, rfl, rfl⟩ := h
    exact ⟨⟨row, hrow, rfl⟩, hcurrent, htenant, hagent, howner, hsha.trans hdigest.symm,
      ⟨htask, hop⟩, hlimit⟩
  case h_2 => simp at h

theorem getLink_eq_ok {key : TaskKey} {intentSha256 : String} {link : LinkRow}
    (h : t.getLink key intentSha256 = .ok link) : t.links.lookup key = some link := by
  unfold getLink at h
  split at h
  case h_1 l hl =>
    split at h
    · rw [hl, Except.ok.inj h]
    · cases h
  case h_2 => cases h

theorem linkedOperation_eq_ok {intent : StoredIntent} {link : LinkRow} {operation : Operation}
    (h : t.linkedOperation intent link = .ok operation) :
    t.store.accounts.operations.lookup intent.opKey = some operation := by
  unfold linkedOperation at h
  split at h
  case h_1 o ho =>
    split at h
    · rw [ho, Except.ok.inj h]
    · cases h
  case h_2 => cases h

theorem HistoryOk.of_linkedHistory {refs : Refs} {h : History}
    (hh : t.linkedHistory cfg refs = .ok h) : HistoryOk t cfg refs h := by
  simp only [linkedHistory, bind_eq_ok, require_eq_ok, and_eq_true, beq_iff_eq,
    pure_eq_ok, Prod.exists, matchesIntent] at hh
  obtain ⟨intent, initial, current, hload, link, hlink, -, -, expected, -, -, -, -,
    ⟨⟨hscope, horiginal⟩, -⟩, -, ⟨⟨⟨⟨⟨⟨⟨-, hagent⟩, hoperation⟩, -⟩, -⟩, hexpiry⟩, -⟩, -⟩,
    operation, hop, rfl⟩ := hh
  obtain ⟨hintent, hcurrent, htenant, hbound, howner, hdigest, hnamed, hlimit⟩ :=
    loadImmutable_eq_ok hload
  exact
    { intent := hintent, link := getLink_eq_ok hlink, current := hcurrent
      operation := linkedOperation_eq_ok hop, opKey := Prod.ext hagent hoperation
      scope := hscope, tenant := htenant, agent := hbound, expiry := hexpiry, owner := howner
      digest := hdigest, named := hnamed, allowance := hlimit, original := horiginal }

theorem loadAdmitted_eq_ok {refs : Refs} {h : History} (hh : t.loadAdmitted cfg refs = .ok h) :
    HistoryOk t cfg refs h ∧ h.operation.state = .unknown := by
  simp only [loadAdmitted, bind_eq_ok, require_eq_ok, and_eq_true, beq_iff_eq,
    pure_eq_ok] at hh
  obtain ⟨h', hlinked, -, -, -, ⟨-, hunknown⟩, -, -, -, -, rfl⟩ := hh
  exact ⟨.of_linkedHistory hlinked, hunknown⟩

end Tenant

end AgentBridge.Queued
