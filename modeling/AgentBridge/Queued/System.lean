import AgentBridge.Gateway.Linked
import AgentBridge.Queued.Outcome

/-!
# Queued dispatch as a transition system

Any number of workers run `dispatch_once`, `recover`, `cancel` and the manual reconciliation on
the tasks of one tenant store, next to submissions and admissions, to the synchronous gateway on
the same store, and to enrollments and revocations in the authority directory. A step is one
transaction on one database, or the reads a worker makes between two transactions; a transaction
that raises is no step. A worker may stop for good after every step, and a commit whose
acknowledgement is lost changes the database while its worker goes on as after an exception.

An admission and a dispatch hold the directory's lock from the derivation of their context to the
end, for a dispatch until after the call. Writers of the directory wait until nobody holds it.
-/

namespace AgentBridge

/-- An operation that writes the directory under its exclusive lock. -/
def Authority.Action.isWrite (calls : List Authority.Call) : Authority.Action → Bool
  | .derive _ _ _ _ | .beginOperator _ _ _ | .beginAgent _ | .beginDelegation _ => false
  | .commit position _ => calls[position]?.any fun
    | .delegation _ => true
    | .operator _ | .agent _ => false
  | _ => true

namespace Queued

open Authority Tenant

/-- How far a worker has come. -/
inductive Phase
  /-- The guard of an admission is held. -/
  | admitting (context : QueuedAuthority)
  /-- `dispatch_once` is entered. -/
  | dispatching
  /-- No decision was seen; the guard is to be taken. -/
  | guarding
  /-- The guard is held. -/
  | guarded (context : QueuedAuthority)
  /-- The preliminary checks are made. -/
  | planned (context : QueuedAuthority) (plan : Plan)
  /-- The destination's fence is taken. -/
  | fenced (context : QueuedAuthority) (plan : Plan) (lease : Lease)
  /-- The attempt is committed and acknowledged: this worker may make the call, once its last
  checks are made. -/
  | sending (context : QueuedAuthority) (authorization : Authorization) (target : Descriptor)
      (action : String) (checked : Bool)
  /-- The call was made, or failed; the guard is still held. -/
  | sent
  /-- `recover` is entered. -/
  | recovering
  /-- An attempt without a result was found. -/
  | observing (decision : DecisionRow)
  /-- A sealed readback is at hand. -/
  | observed (completion : Readback)
  | done
  deriving DecidableEq

/-- The worker holds the directory's lock. -/
def Phase.holdsGuard : Phase → Bool
  | .admitting _ | .guarded _ | .planned _ _ | .fenced _ _ _ | .sending _ _ _ _ _ | .sent => true
  | .dispatching | .guarding | .recovering | .observing _ | .observed _ | .done => false

/-- `dispatch_once` handles a refusal in this phase by `recover`, if there is a decision. -/
def Phase.isHandled : Phase → Bool
  | .guarding | .guarded _ | .planned _ _ | .fenced _ _ _ => true
  | _ => false

/-- One run of an admission, of `dispatch_once` or of `recover`. -/
structure Worker where
  refs : Refs
  phase : Phase
  deriving DecidableEq

/-- Everything the workers share. -/
structure World where
  /-- The synchronous gateway, with the governance tables of the tenant store. -/
  gateway : Gateway.Ledgered
  tables : Tables := {}
  authority : Authority.State := {}
  destinations : Destinations := {}
  workers : Table ℕ Worker := ∅

/-- One step of the system. -/
inductive Action
  /-- A step of the synchronous gateway, of the generic reconciliation or of `set_budget`. -/
  | gateway (act : Gateway.Action)
  /-- An operation of the authority directory. -/
  | authority (event : Authority.Event)
  | submit (principal : Principal) (request : TaskRequest) (setup : Setup) (first second : Reads)
      (acceptedAt : Time)
  /-- The registry of identities is written. -/
  | setIdentity (agentId : String) (identity : Identity)
  | cancel (refs : Refs) (reason : String) (now : Time)
  | guardIntent (id : ℕ) (key : TaskKey) (intentSha256 : String) (now : Time)
      (reads : DeriveReads)
  | admission (id : ℕ) (setup : Setup) (input : QueuedInput)
  | dispatch (id : ℕ) (refs : Refs)
  | recover (id : ℕ) (refs : Refs)
  | look (id : ℕ)
  | guard (id : ℕ) (now : Time) (reads : DeriveReads)
  | prepare (id : ℕ) (setup : Setup) (reads : CheckReads)
  | close (id : ℕ) (input : DispatchInput)
  | acquire (id : ℕ) (attemptId : String) (now : Time) (acked : Bool)
  | attempt (id : ℕ) (input : DispatchInput) (acked : Bool)
  | enter (id : ℕ) (lifetime : LifetimeReads) (now : Time)
  | send (id : ℕ) (first second : Time)
  | sendFails (id : ℕ)
  | release (id : ℕ)
  | read (id : ℕ)
  | observe (id : ℕ) (target : Option Descriptor) (now : Time)
  | finish (id : ℕ) (review : Option OperatorReview) (isReviewed : Bool) (now : Time)
  /-- An exception ends the run; a refusal may lead to `recover`. -/
  | fail (id : ℕ) (refused : Bool)
  | crash (id : ℕ)

namespace World

variable (cfg : Config) (w : World)

/-- The tenant store: the governance tables and the task tables. -/
def tenant : Tenant := { w.tables with store := w.gateway.world.store }

/-- Commit a transaction on the tenant store. -/
def withTenant (t : Tenant) : World :=
  { w with
    tables := t.toTables
    gateway := { w.gateway with world := { w.gateway.world with store := t.store } } }

/-- The gateway of the tenant; its generic reconciliation refuses linked operations. -/
def gatewayConfig : Gateway.Config where
  placement := .shared
  digest := cfg.quotaDigest
  isLinked k := w.tables.links.entries.any fun e => e.2.opKey == k

/-- Some worker holds the directory's lock. -/
def isGuarded : Bool := w.workers.entries.any fun e => e.2.phase.holdsGuard

/-- The history an admission writes: the cost of the new link. -/
def recordAdmission (row : LinkRow) : World :=
  { w with
    gateway := { w.gateway with
      admitted := w.gateway.admitted.insert row.opKey row.reservedCost } }

def worker (id : ℕ) : Except Fault Worker :=
  match w.workers.lookup id with
  | some x => .ok x
  | none => .error (.runtimeError "no such worker")

/-- A worker goes on to another phase. -/
def move (id : ℕ) (x : Worker) (phase : Phase) : World :=
  { w with workers := w.workers.insert id { x with phase } }

/-- A new run starts. -/
def start (id : ℕ) (refs : Refs) (phase : Phase) : Except Fault World := do
  let workers ← w.workers.insertNew id ⟨refs, phase⟩ (.runtimeError "worker id in use")
  return { w with workers }

end World

/-- A step that the worker is not at. -/
def notEnabled {α : Type} : Except Fault α := .error (.runtimeError "step not enabled")

/-- The admission of an intent, under its guard. -/
def execAdmission (cfg : Config) (w : World) (id : ℕ) (x : Worker) (setup : Setup)
    (input : QueuedInput) : Except Fault World :=
  match x.phase with
  | .admitting context => do
    require (w.gateway.world.store.accounts.isFreshToken input.token)
      (.valueError "a token is never drawn twice")
    let (receipt, t) ← w.tenant.admitPrepared cfg w.authority context setup input
    return ((w.withTenant t).recordAdmission receipt).move id x .done
  | _ => notEnabled

/-- The steps before the attempt: look, guard, prepare, acquire. -/
def execBefore (cfg : Config) (w : World) (id : ℕ) (x : Worker) : Action → Except Fault World
  | .look _ =>
    match x.phase with
    | .dispatching => do
      let _ ← w.tenant.linkedHistory cfg x.refs
      return w.move id x
        (if (w.tables.decisions.lookup x.refs.key).isSome then .recovering else .guarding)
    | _ => notEnabled
  | .guard _ now reads =>
    match x.phase with
    | .guarding => do
      let context ← guardAdmitted cfg w.authority w.tenant x.refs now reads
      return { w.move id x (.guarded context) with
        authority := w.authority.mint context.principal }
    | _ => notEnabled
  | .prepare _ setup reads =>
    match x.phase with
    | .guarded context => do
      let (_, plan) ← currentDispatch cfg w.authority w.tenant context x.refs setup reads
      return w.move id x (.planned context plan)
    | _ => notEnabled
  | .acquire _ attemptId now acked =>
    match x.phase with
    | .planned context plan => do
      require (decide (resultEnvelopeLimitBytes ≤ context.intent.resultLimitBytes))
        (.authorityDenied "immutable result allowance is insufficient for queued evidence")
      let fenceScope := cfg.fenceScope cfg.tenantId cfg.storeId context.intent.agentId
        context.intent.operationId
      let ((epoch, expiry), destinations) ←
        w.destinations.acquire plan.target fenceScope attemptId now
      let lease : Lease := ⟨attemptId, fenceScope, epoch, expiry⟩
      return { w.move id x (if acked then .fenced context plan lease else .done) with
        destinations }
    | _ => notEnabled
  | _ => notEnabled

/-- The steps that decide and call: close, attempt, enter, send. -/
def execDecide (cfg : Config) (w : World) (id : ℕ) (x : Worker) : Action → Except Fault World
  | .close _ input =>
    match x.phase with
    | .planned context _ => do
      require (decide (context.intent.resultLimitBytes < resultEnvelopeLimitBytes))
        (.runtimeError "the result allowance is sufficient")
      let t ← w.tenant.closeInsufficient cfg w.authority context x.refs input
      return (w.withTenant t).move id x .done
    | _ => notEnabled
  | .attempt _ input acked =>
    match x.phase with
    | .fenced context plan lease =>
      match cfg.demoAction plan.submission.wire with
      | none => .error (.valueError "exact queued MCP tools/call required")
      | some action => do
        let (authorization, t) ←
          w.tenant.attempt cfg w.authority context x.refs plan lease action input
        return (w.withTenant t).move id x
          (if acked then .sending context authorization plan.target action false else .done)
    | _ => notEnabled
  | .enter _ lifetime now =>
    match x.phase with
    | .sending context authorization target action false => do
      assertQueuedLifetime cfg w.authority w.tenant context lifetime
      require (decide (now < authorization.expiresAt))
        (.authorityDenied "attempt expired before destination entry")
      return w.move id x (.sending context authorization target action true)
    | _ => notEnabled
  | .send _ first second =>
    match x.phase with
    | .sending _ authorization target action true => do
      let destinations ← w.destinations.commitQueued cfg.contract target authorization action
        first second
      return { w.move id x .sent with destinations }
    | _ => notEnabled
  | .sendFails _ =>
    match x.phase with
    | .sending _ _ _ _ _ => .ok (w.move id x .sent)
    | _ => notEnabled
  | .release _ =>
    match x.phase with
    | .sent => .ok (w.move id x .recovering)
    | _ => notEnabled
  | _ => notEnabled

/-- Where `recover` goes on: only an attempt without a result is observed. -/
def recoverPhase (w : World) (key : TaskKey) : Phase :=
  match w.tables.decisions.lookup key, w.tables.results.lookup key with
  | some decision, none => if decision.body.isAttempt then .observing decision else .done
  | _, _ => .done

/-- `_observe`: read the destination of a decision back. -/
def observe (cfg : Config) (w : World) (refs : Refs) (decision : DecisionRow)
    (target : Option Descriptor) (now : Time) : Except Fault Readback := do
  let h ← w.tenant.linkedHistory cfg refs
  match decision.body, cfg.demoAction h.intent.record.submission.wire with
  | .attempt _ authorization descriptor, some action => do
    require (target == some descriptor && authorization.admissionLinkSha256 == h.link.linkSha256)
      (.authorityDenied "current queued readback configuration changed")
    let evidence ← w.destinations.observeQueued cfg.contract descriptor authorization action now
    return ⟨refs, decision.recordSha256, evidence⟩
  | _, _ => throw (.valueError "exact queued MCP tools/call required")

/-- The steps of `recover` and of the manual reconciliation. -/
def execRecover (cfg : Config) (w : World) (id : ℕ) (x : Worker) : Action → Except Fault World
  | .read _ =>
    match x.phase with
    | .recovering => do
      let _ ← w.tenant.linkedHistory cfg x.refs
      return w.move id x (recoverPhase w x.refs.key)
    | _ => notEnabled
  | .observe _ target now =>
    match x.phase with
    | .observing decision => do
      let completion ← observe cfg w x.refs decision target now
      return w.move id x (.observed completion)
    | _ => notEnabled
  | .finish _ review isReviewed now =>
    match x.phase with
    | .observed completion => do
      let t ← w.tenant.finishVerified cfg completion review isReviewed now
      return (w.withTenant t).move id x .done
    | _ => notEnabled
  | _ => notEnabled

/-- The effect of one step. -/
def exec (cfg : Config) (w : World) : Action → Except Fault World
  | .gateway act => do
    let gateway ← Gateway.execLinked (w.gatewayConfig cfg) w.gateway act
    return { w with gateway }
  | .authority event => do
    require (!(event.action.isWrite w.authority.calls && w.isGuarded))
      (.runtimeError "the authority directory is locked")
    let authority ← Authority.exec cfg.authority w.authority event
    return { w with authority }
  | .submit principal request setup first second acceptedAt => do
    let t ← w.tenant.submitTask cfg w.authority principal request setup first second acceptedAt
    return w.withTenant t
  | .setIdentity agentId identity =>
    .ok { w with
      tables := { w.tables with identities := w.tables.identities.insert agentId identity } }
  | .cancel refs reason now => do
    let t ← w.tenant.cancel cfg refs reason now
    return w.withTenant t
  | .guardIntent id key intentSha256 now reads => do
    let context ← guardQueuedIntent cfg w.authority w.tenant key intentSha256 now reads
    -- an admission has no link yet
    let w' ← w.start id ⟨key.1, key.2, intentSha256, ""⟩ (.admitting context)
    return { w' with authority := w.authority.mint context.principal }
  | .admission id setup input => do execAdmission cfg w id (← w.worker id) setup input
  | .dispatch id refs => w.start id refs .dispatching
  | .recover id refs => w.start id refs .recovering
  | .fail id refused => do
    let x ← w.worker id
    return w.move id x
      (if refused && x.phase.isHandled && (w.tables.decisions.lookup x.refs.key).isSome then
        .recovering else .done)
  | .crash id => .ok { w with workers := w.workers.erase id }
  | .look id => do execBefore cfg w id (← w.worker id) (.look id)
  | .guard id now reads => do execBefore cfg w id (← w.worker id) (.guard id now reads)
  | .prepare id setup reads => do execBefore cfg w id (← w.worker id) (.prepare id setup reads)
  | .acquire id attemptId now acked => do
    execBefore cfg w id (← w.worker id) (.acquire id attemptId now acked)
  | .close id input => do execDecide cfg w id (← w.worker id) (.close id input)
  | .attempt id input acked => do execDecide cfg w id (← w.worker id) (.attempt id input acked)
  | .enter id lifetime now => do execDecide cfg w id (← w.worker id) (.enter id lifetime now)
  | .send id first second => do execDecide cfg w id (← w.worker id) (.send id first second)
  | .sendFails id => do execDecide cfg w id (← w.worker id) (.sendFails id)
  | .release id => do execDecide cfg w id (← w.worker id) (.release id)
  | .read id => do execRecover cfg w id (← w.worker id) (.read id)
  | .observe id target now => do execRecover cfg w id (← w.worker id) (.observe id target now)
  | .finish id review isReviewed now => do
    execRecover cfg w id (← w.worker id) (.finish id review isReviewed now)

/-- Queued dispatch as a transition system. -/
def system (cfg : Config) : LTS World Action := .ofExec (exec cfg)

/-- A tenant store that has seen no operation and no queued task yet, with destinations that hold
no effect; limits, approvals, tasks of other kinds and the rows of the directory are arbitrary. -/
structure World.Fresh (cfg : Config) (w : World) : Prop where
  bound : w.gateway.world.store.tenantId = some cfg.tenantId
  unused : w.gateway.world.Unused
  admitted : w.gateway.admitted = ∅
  intents : w.tables.intents = ∅
  links : w.tables.links = ∅
  decisions : w.tables.decisions = ∅
  results : w.tables.results = ∅
  minted : w.authority.minted = []
  effects : w.destinations.effects = []
  workers : w.workers = ∅

/-! ### A small deployment

One task of the directory's sample deployment; the results below are evaluated on it. -/

/-- A digest. -/
def sampleHex : String := String.ofList (List.replicate 64 'a')

/-- Every digest is the same; each callback signs with its own name. -/
def sampleContract : Contract where
  descriptorSha256 _ := sampleHex
  authorizationSha256 _ := sampleHex
  isDemoAction _ := true
  actionSha256 _ := sampleHex
  stored _ := (sampleHex, 5)
  resultSha256 _ := sampleHex
  receiptSha256 _ := sampleHex
  sourceEvidenceSha256 _ _ _ _ := sampleHex
  authorizerSign _ := "authorizer"
  destinationSign _ := "destination"
  observerSign _ := "observer"

/-- One tenant, on the sample directory. -/
def sampleConfig : Config where
  authority := Authority.sampleConfig
  contract := sampleContract
  tenantId := "acme"
  storeId := "store-1"
  quotaDigest m := m.subject
  ownerSha256 _ := "owner"
  intentSha256 _ := sampleHex
  actionSha256 _ := sampleHex
  queuedActionSha256 _ _ _ := sampleHex
  linkSha256 _ := sampleHex
  decisionSha256 _ _ := sampleHex
  authoritySha256 _ := sampleHex
  fenceScope _ _ _ _ := "scope"
  demoAction := some

/-- The provisioned destination. -/
def sampleTarget : Descriptor where
  kind := destinationKind
  protocol := "mcp"
  tenantId := "acme"
  targetId := "t1"
  destinationId := "dest-1"
  path := "/var/dest-1.db"
  actionSchema := "agentbridge.demo.append.v1"
  authorizerKeyId := "key-a"
  authorizerPublicKeyHex := String.ofList (List.replicate 64 'a')
  destinationKeyId := "key-b"
  destinationPublicKeyHex := String.ofList (List.replicate 64 'b')
  observerKeyId := "key-c"
  observerPublicKeyHex := String.ofList (List.replicate 64 'c')
  callTimeoutSeconds := 5
  maxActionBytes := 4096

/-- The operator's configuration of the action. -/
def sampleSetup : Setup where
  capability := some "echo"
  cost := some 1
  target := some sampleTarget
  rule := { allowed := true, reason := "allowed" }
  policy := { allowed := true, reason := "allowed" }

/-- The submitted task, under the sample request's proof. -/
def sampleTask : TaskRequest where
  submission :=
    { taskId := "task-1", contextId := "context-1", src := "mcp", dst := "mcp", wire := "append"
      operationId := "operation-000001", targetId := "t1" }
  nonce := "100:0123456789abcdef"
  bodySha256 := "body"

/-- The tenant store with its quota policy, before anything happened. -/
def sampleWorld : World where
  gateway :=
    { world :=
        { store := { tenantId := some "acme"
                     quotaPolicy := some { spendLimit := 1, userSpendLimit := 1 } } } }

/-- Every clock reads the same. -/
def sampleReads (now : Time) : LifetimeReads := ⟨⟨now, now⟩, now, now, ⟨now, now⟩⟩

/-- The admitted task. -/
def sampleRefs : Refs := ⟨"owner", "task-1", sampleHex, sampleHex⟩

/-- The inputs of a dispatch transaction. -/
def sampleInput (now : Time) : DispatchInput :=
  ⟨sampleSetup, ⟨sampleReads now, ⟨now, now⟩⟩, now, sampleReads now⟩

/-- Enrollment, a budget, the submission of one task and its admission. -/
def sampleAdmission : List Action :=
  Authority.sampleEvents.map .authority ++
  [ .setIdentity "bot" { publicKeyHex := sampleHex },
    .gateway (.setBudget "bot" 10 60 60),
    .submit samplePrincipal sampleTask sampleSetup ⟨100, 100⟩ ⟨100, 100⟩ 100,
    .guardIntent 0 sampleRefs.key sampleHex 100 (sampleReads 100).derive,
    .admission 0 sampleSetup
      { plan := ⟨100, 100⟩, claimedAt := 100, reservedAt := 100, token := "token-1"
        quotaNow := 100, firstAuthorize := ⟨100, 100⟩, secondAuthorize := ⟨100, 100⟩
        prepared := sampleReads 100, admittedAt := 100, lifetime := sampleReads 100 } ]

/-- One dispatch of the task, from the guard to the settlement. -/
def sampleDispatch : List Action :=
  [ .dispatch 1 sampleRefs, .look 1, .guard 1 100 (sampleReads 100).derive,
    .prepare 1 sampleSetup ⟨sampleReads 100, ⟨100, 100⟩⟩, .acquire 1 "attempt-1" 100 true,
    .attempt 1 (sampleInput 100) true, .enter 1 (sampleReads 100) 100, .send 1 101 101,
    .release 1, .read 1, .observe 1 (some sampleTarget) 102, .finish 1 none false 102 ]

/-- The deployment after these steps. -/
def sampleFinal : World :=
  LTS.drive (exec sampleConfig) sampleWorld (sampleAdmission ++ sampleDispatch)

theorem sampleWorld_fresh : sampleWorld.Fresh sampleConfig :=
  ⟨rfl, ⟨rfl, rfl, fun _ _ => rfl, rfl⟩, rfl, rfl, rfl, rfl, rfl, rfl, rfl, rfl⟩

theorem sampleFinal_rows :
    sampleFinal.destinations.effects.map Effect.key = [("acme", "bot", "operation-000001")] ∧
      (sampleFinal.tables.links.lookup sampleRefs.key).isSome = true ∧
      (sampleFinal.tables.decisions.lookup sampleRefs.key).isSome = true ∧
      (sampleFinal.tables.results.lookup sampleRefs.key).isSome = true := by
  decide +kernel

theorem sampleFinal_reachable : (system sampleConfig).Reachable sampleWorld sampleFinal :=
  LTS.reachable_drive _ _ _

end Queued

end AgentBridge
