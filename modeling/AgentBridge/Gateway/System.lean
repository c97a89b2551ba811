import AgentBridge.Gateway.Store

/-!
# The gateway as a transition system

Any number of workers run `route_call`. A worker is the coroutine together with the thread
that admits its call. A step is one transaction, one statement outside a transaction, or one
resumption of the coroutine; between two steps anything may happen, and a worker may stop for
good at any point. A transaction that raises is no step at all. A commit whose
acknowledgement is lost changes the store, but its worker continues as after an exception.
-/

namespace AgentBridge.Gateway

/-- Where the participants of a gateway keep their state. -/
inductive Placement
  /-- One SQL store for all of them. -/
  | shared
  /-- Not one store; the budgets have a store of their own, or lie beside the ledger. -/
  | separate (ownBudgets : Bool)
  deriving DecidableEq, Repr

/-- The deployment of a gateway. -/
structure Config where
  placement : Placement
  digest : OwnerMaterial → String := fun m => m.issuer ++ m.subject
  /-- The operations that belong to a queued task. -/
  isLinked : OpKey → Bool := fun _ => false

/-- How far one `route_call` has come. -/
inductive Phase
  /-- The admission thread runs; nothing is reserved. -/
  | admitting
  /-- Separate participants: the budget is reserved. -/
  | reserved (token : String)
  /-- Separate participants: no approval is outstanding. -/
  | granted (token : String)
  /-- Separate participants: the claim is committed. -/
  | claimed (token : String)
  /-- Separate participants: the exception handler of the admission. -/
  | cleaning (token : String) (claimed : Bool)
  /-- The ledger row is to be set to `failed`. -/
  | finishing
  /-- The admission is complete; the coroutine has not resumed. -/
  | admitted (token : String)
  /-- The caller went away before the invocation. -/
  | aborting (token : String)
  /-- The callback has been entered. -/
  | invoking (token : String)
  /-- The callback returned. -/
  | settling (token : String)
  /-- Separate participants: the budget is charged, the ledger row is not yet set. -/
  | settleFinishing (token : String)
  /-- The invocation or its settlement failed. -/
  | noting (token : String)
  | done
  deriving DecidableEq, Repr

/-- One call. -/
structure Worker where
  request : AdmissionRequest
  phase : Phase
  deriving DecidableEq

/-- The identity of a call: agent and optional operation id. -/
abbrev CallId := String × Option String

/-- The identity of the call a worker runs. -/
def Worker.callId (x : Worker) : CallId := (x.request.agentId, x.request.operationId)

/-- Everything the calls share, and what they have done. -/
structure World where
  store : Store
  /-- The budgets of a gateway that keeps them apart from the ledger. -/
  own : Budgets := ∅
  workers : Table ℕ Worker := ∅
  /-- The calls whose callback was entered, in order. -/
  entered : List CallId := []
  /-- The calls whose admission succeeded, in order. -/
  admissions : List CallId := []

/-- One step of the system. -/
inductive Action
  | start (id : ℕ) (request : AdmissionRequest)
  | precheck (id : ℕ) (now : Time)
  | admission (id : ℕ) (input : AdmissionInput) (acked : Bool)
  | reserve (id : ℕ) (now : Time) (token : String) (acked : Bool)
  | consume (id : ℕ) (acked : Bool)
  | claim (id : ℕ) (stamp : Time) (acked : Bool)
  | complete (id : ℕ)
  | interrupt (id : ℕ)
  | release (id : ℕ) (acked : Bool)
  | finishFailed (id : ℕ) (now : Time)
  | enter (id : ℕ)
  | cancel (id : ℕ)
  | abort (id : ℕ) (now : Time) (acked : Bool)
  | respond (id : ℕ)
  | raise (id : ℕ)
  | settle (id : ℕ) (now : Time) (acked : Bool)
  | finishSucceeded (id : ℕ) (now : Time) (acked : Bool)
  | settleFails (id : ℕ)
  | note (id : ℕ)
  | crash (id : ℕ)
  | record (review : Store.Review) (now : Time)
  | setBudget (agentId : String) (spendLimit : Cost) (rateLimit windowSeconds : ℕ)
  | setApproval (id : String) (approval : Approval)

namespace World

variable (cfg : Config) (w : World)

/-- The budgets the gateway uses. -/
def budgets : Budgets :=
  match cfg.placement with
  | .separate true => w.own
  | _ => w.store.accounts.budgets

/-- Write the budgets the gateway uses. -/
def withBudgets (budgets : Budgets) : World :=
  match cfg.placement with
  | .separate true => { w with own := budgets }
  | _ => { w with store := { w.store with accounts := { w.store.accounts with budgets } } }

/-- The request and phase of a worker. -/
def worker (id : ℕ) : Except Fault Worker :=
  match w.workers.lookup id with
  | some x => .ok x
  | none => .error (.runtimeError "no such call")

/-- A worker goes on to another phase. -/
def move (id : ℕ) (x : Worker) (phase : Phase) : World :=
  { w with workers := w.workers.insert id { x with phase } }

/-- A step that the call is not at. -/
def notEnabled {α : Type} : Except Fault α := .error (.runtimeError "step not enabled")

/-- The admission of a call has succeeded. -/
def admits (id : ℕ) (x : Worker) (token : String) : World :=
  { w.move id x (.admitted token) with admissions := w.admissions ++ [x.callId] }

end World

/-- `ledger.finish` for a call that has an operation id. -/
def finishCall (w : World) (x : Worker) (state : OpState) (now : Time) : Except Fault World :=
  match x.request.operationId with
  | none => .ok w
  | some op => do
    let accounts ← w.store.accounts.finish (x.request.agentId, op) state now
    return { w with store := { w.store with accounts } }

/-- The steps of a call whose participants share one store. -/
def execShared (cfg : Config) (w : World) : Action → Except Fault World
  | .admission id input acked => do
    let x ← w.worker id
    match x.phase with
    | .admitting => do
      let store ← w.store.admitTransaction cfg.digest x.request input
      let w := { w with store }
      return if acked then w.admits id x input.token else w.move id x .done
    | _ => World.notEnabled
  | .abort id now _ => do
    let x ← w.worker id
    match x.phase with
    | .aborting token => do
      let store ← w.store.abortAdmission x.request.agentId x.request.operationId token now
      return { w with store }.move id x .done
    | _ => World.notEnabled
  | .settle id now acked => do
    let x ← w.worker id
    match x.phase with
    | .settling token => do
      let store ← w.store.settle x.request.agentId x.request.operationId token x.request.cost now
      return { w with store }.move id x (if acked then .done else .noting token)
    | _ => World.notEnabled
  | _ => World.notEnabled

/-- The steps of a call whose participants do not share one store. -/
def execSeparate (cfg : Config) (w : World) : Action → Except Fault World
  | .reserve id now token acked => do
    let x ← w.worker id
    match x.phase with
    | .admitting => do
      require x.request.principal.isNone
        (.valueError "tenant governance requires one shared durable SQL store")
      match (w.budgets cfg).reserve x.request.agentId x.request.cost now token with
      | (none, budgets) =>
        return (w.withBudgets cfg budgets).move id x (if acked then .reserved token else .done)
      | (some _, budgets) => return (w.withBudgets cfg budgets).move id x .done
    | _ => World.notEnabled
  | .consume id acked => do
    let x ← w.worker id
    match x.phase with
    | .reserved token => do
      let store ← w.store.consumeRequired x.request x.request.decision
      return { w with store }.move id x
        (if acked then .granted token else .cleaning token false)
    | _ => World.notEnabled
  | .claim id stamp acked => do
    let x ← w.worker id
    match x.phase, x.request.operationId with
    | .granted token, none => return w.admits id x token
    | .granted token, some op => do
      let store ← w.store.claim (x.request.agentId, op) x.request.requestScope (some token) none
        .ok stamp
      return { w with store }.move id x (if acked then .claimed token else .cleaning token false)
    | _, _ => World.notEnabled
  | .complete id => do
    let x ← w.worker id
    match x.phase with
    | .claimed token => return w.admits id x token
    | _ => World.notEnabled
  | .release id acked => do
    let x ← w.worker id
    match x.phase with
    | .cleaning token claimed =>
      return (w.withBudgets cfg ((w.budgets cfg).release x.request.agentId token).2).move id x
        (if claimed && acked then .finishing else .done)
    | _ => World.notEnabled
  | .abort id _ acked => do
    let x ← w.worker id
    match x.phase with
    | .aborting token =>
      return (w.withBudgets cfg ((w.budgets cfg).release x.request.agentId token).2).move id x
        (if acked then .finishing else .done)
    | _ => World.notEnabled
  | .finishFailed id now => do
    let x ← w.worker id
    match x.phase with
    | .finishing => do
      let w ← finishCall w x .failed now
      return w.move id x .done
    | _ => World.notEnabled
  | .settle id now acked => do
    let x ← w.worker id
    match x.phase with
    | .settling token =>
      match (w.budgets cfg).commit x.request.agentId token now with
      | (true, budgets) =>
        return (w.withBudgets cfg budgets).move id x
          (if acked then .settleFinishing token else .noting token)
      | (false, budgets) => return (w.withBudgets cfg budgets).move id x (.noting token)
    | _ => World.notEnabled
  | .finishSucceeded id now acked => do
    let x ← w.worker id
    match x.phase with
    | .settleFinishing token => do
      let w ← finishCall w x .succeeded now
      return w.move id x (if acked then .done else .noting token)
    | _ => World.notEnabled
  | _ => World.notEnabled

/-- Where an exception inside the admission thread leads. -/
def Phase.interrupted : Phase → Option Phase
  | .admitting => some .done
  | .reserved token => some (.cleaning token false)
  | .granted token => some (.cleaning token false)
  | .claimed token => some (.cleaning token true)
  | _ => none

/-- Where a resumption of the coroutine leads. -/
def Phase.resumed : Action → Phase → Option Phase
  | .cancel _, .admitted token => some (.aborting token)
  | .respond _, .invoking token => some (.settling token)
  | .raise _, .invoking token => some (.noting token)
  | .settleFails _, .settling token => some (.noting token)
  | .settleFails _, .settleFinishing token => some (.noting token)
  | .interrupt _, phase => phase.interrupted
  | _, _ => none

/-- A step that changes nothing but the phase of a call. -/
def execResume (w : World) (id : ℕ) (act : Action) : Except Fault World := do
  let x ← w.worker id
  match Phase.resumed act x.phase with
  | some phase => return w.move id x phase
  | none => World.notEnabled

/-- The effect of one step. -/
def exec (cfg : Config) (w : World) : Action → Except Fault World
  | .start id request => do
    let workers ← w.workers.insertNew id ⟨request, .admitting⟩ (.runtimeError "call id in use")
    return { w with workers }
  | .precheck id now => do
    let x ← w.worker id
    match x.phase with
    | .admitting =>
      return w.withBudgets cfg
        ((w.budgets cfg).canAfford x.request.agentId x.request.cost now).2
    | _ => World.notEnabled
  | .enter id => do
    let x ← w.worker id
    match x.phase with
    | .admitted token =>
      return { w.move id x (.invoking token) with entered := w.entered ++ [x.callId] }
    | _ => World.notEnabled
  | .note id => do
    let x ← w.worker id
    match x.phase, x.request.operationId with
    | .noting _, some _ => return w.move id x .done
    | .noting token, none =>
      return (w.withBudgets cfg ((w.budgets cfg).release x.request.agentId token).2).move id x
        .done
    | _, _ => World.notEnabled
  | .crash id => .ok { w with workers := w.workers.erase id }
  | .record review now => do
    let store ← w.store.record cfg.isLinked review now
    return { w with store }
  | .setBudget agentId spendLimit rateLimit windowSeconds => do
    let budgets ← (w.budgets cfg).setBudget agentId spendLimit rateLimit windowSeconds
    return w.withBudgets cfg budgets
  | .setApproval id approval =>
    .ok { w with store := { w.store with approvals := w.store.approvals.insert id approval } }
  | .cancel id => execResume w id (.cancel id)
  | .respond id => execResume w id (.respond id)
  | .raise id => execResume w id (.raise id)
  | .settleFails id => execResume w id (.settleFails id)
  | .interrupt id => execResume w id (.interrupt id)
  | act =>
    match cfg.placement with
    | .shared => execShared cfg w act
    | .separate _ => execSeparate cfg w act

/-- The gateway as a transition system. -/
def system (cfg : Config) : LTS World Action := .ofExec (exec cfg)

end AgentBridge.Gateway
