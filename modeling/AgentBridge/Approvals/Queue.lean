import AgentBridge.Gateway.Store

/-!
# The approval queue under concurrent workers

`ApprovalQueue` finds a grant by listing the approved rows and then updates one of them on the
condition that it is still approved. The gateway does so inside the transaction of an admission,
which may roll back. This file models every statement of that protocol as a step of its own, so
that anything may happen between the listing and the update.

A status is only written under one write lock, which the writer keeps until its transaction ends:
on SQLite the write lock of the database, taken by `BEGIN IMMEDIATE`; on PostgreSQL the advisory
lock of `update_approval_status` and `consume_approval`. A listing takes no lock and sees what is
committed.
-/

namespace AgentBridge.Approvals

/-- The arguments of `ApprovalQueue.request`, `is_granted` and `consume`. -/
structure Call where
  agentId : String
  capability : String
  requestScope : Option String
  deriving DecidableEq, Repr

/-- `scoped_capability`. -/
def Call.scopedCapability (c : Call) : String :=
  match c.requestScope with
  | none => c.capability
  | some scope => c.capability ++ "|" ++ scope

/-- The call names an agent, a capability and the fingerprint of a request. -/
def Call.isTriple (c : Call) : Bool := c.requestScope.any (isHex 64)

/-- A row of `approvals`. -/
structure Row extends Approval where
  cost : Cost
  createdAt : String
  deriving DecidableEq

/-- The comparison of `is_granted` and `consume`. -/
def Row.isFor (row : Row) (c : Call) : Bool :=
  row.agentId == c.agentId && row.capability == c.scopedCapability

/-- `list_approvals("approved")`, oldest first, and the matching ids among them. -/
def listApproved (rows : Table String Row) (c : Call) : List String :=
  let approved := rows.entries.filter fun e => e.2.status == .approved
  let ordered := approved.insertionSort fun e e' => e.2.createdAt ≤ e'.2.createdAt
  (ordered.filter fun e => e.2.isFor c).map Sigma.fst

/-- What a worker does. -/
inductive Task
  /-- `approve` and `deny`. -/
  | decide (id : String) (granted : Bool)
  /-- `ApprovalQueue.consume` in a transaction of its own. -/
  | consume (call : Call)
  /-- `_admit_transaction`, with the `approval_required` of its decision. -/
  | admission (call : Call) (required : Bool)
  deriving DecidableEq, Repr

/-- The grant a task needs. -/
def Task.call? : Task → Option Call
  | .decide _ _ => none
  | .consume c => some c
  | .admission c required => if required then some c else none

/-- The status a task reads before its update. -/
def Task.expected : Task → ApprovalStatus
  | .decide _ _ => .pending
  | _ => .approved

/-- The status a task writes. -/
def Task.written : Task → ApprovalStatus
  | .decide _ true => .approved
  | .decide _ false => .denied
  | _ => .consumed

/-- How far a worker has come. -/
inductive Phase
  | ready
  /-- Inside the loop of `consume`, with the candidates that are left. -/
  | looping (candidates : List String)
  /-- The row is updated; the transaction is open. -/
  | written (id : String)
  /-- An admission that needs no grant. -/
  | passed
  /-- `consume` has returned true to an admission whose participants share no transaction. -/
  | granted (id : String)
  deriving DecidableEq, Repr

/-- A thread with its connection. -/
structure Worker where
  task : Task
  phase : Phase
  deriving DecidableEq, Repr

/-- A grant that was used up for a call. -/
structure Use where
  id : String
  call : Call
  deriving DecidableEq, Repr

/-- The committed table, the lock, the workers, and the history. -/
structure World where
  rows : Table String Row := ∅
  /-- The worker whose transaction holds the write lock. -/
  lock : Option ℕ := none
  workers : Table ℕ Worker := ∅
  /-- What each request was made for. -/
  requests : Table String Call := ∅
  /-- The requests an operator approved, in order. -/
  approved : List String := []
  /-- The grants that were consumed. -/
  uses : List Use := []
  /-- The committed admissions that required approval. -/
  admissions : List Use := []

/-- One step of the queue. -/
inductive Action
  | request (id : String) (call : Call) (cost : Cost) (createdAt : String)
  | start (worker : ℕ) (task : Task)
  | scan (worker : ℕ)
  | next (worker : ℕ)
  | commit (worker : ℕ)
  | complete (worker : ℕ)
  | rollback (worker : ℕ)
  deriving DecidableEq

namespace World

variable (w : World)

/-- A worker that is running. -/
def worker (n : ℕ) : Except Fault Worker :=
  match w.workers.lookup n with
  | some x => .ok x
  | none => .error (.runtimeError "no such worker")

/-- A worker goes on to another phase. -/
def move (n : ℕ) (x : Worker) (phase : Phase) : World :=
  { w with workers := w.workers.insert n { x with phase } }

/-- Wait for the write lock; a worker that does not get it makes no step. -/
def acquire (n : ℕ) : Except Fault Unit :=
  require (w.lock.all (· == n)) (.runtimeError "lock not available")

/-- A worker ends, and with it its transaction. -/
def leave (n : ℕ) : World :=
  { w with workers := w.workers.erase n, lock := if w.lock = some n then none else w.lock }

def hasStatus (id : String) (status : ApprovalStatus) : Bool :=
  (w.rows.lookup id).any fun row => row.status == status

/-- `UPDATE approvals SET status=? WHERE id=?`. -/
def setStatus (id : String) (status : ApprovalStatus) : Table String Row :=
  match w.rows.lookup id with
  | none => w.rows
  | some row => w.rows.insert id { row with status }

/-- A step the worker is not at. -/
def notEnabled : Except Fault World := .error (.runtimeError "step not enabled")

/-- The conditional update: on the expected status the row is written under the lock. -/
def tryWrite (n : ℕ) (x : Worker) (id : String) (otherwise : World) : World :=
  if w.hasStatus id x.task.expected then { w.move n x (.written id) with lock := some n }
  else otherwise

end World

/-- The end of a transaction that has updated the row `id`. -/
def commitWritten (w : World) (n : ℕ) (x : Worker) (id : String) : World :=
  let rows := w.setStatus id x.task.written
  match x.task with
  | .decide _ granted =>
    { w.leave n with rows, approved := if granted then w.approved ++ [id] else w.approved }
  | .consume c =>
    { w.move n x (.granted id) with rows, lock := none, uses := w.uses ++ [⟨id, c⟩] }
  | .admission c _ =>
    { w.leave n with rows, uses := w.uses ++ [⟨id, c⟩], admissions := w.admissions ++ [⟨id, c⟩] }

/-- The effect of one step. -/
def exec (b : Backend) (w : World) : Action → Except Fault World
  | .request id call cost createdAt => do
    -- an `INSERT` waits for the write lock of SQLite, but not for the advisory lock
    require (b == .postgres || w.lock.isNone) (.runtimeError "lock not available")
    match w.rows.lookup id with
    | some _ => return w
    | none =>
      let row : Row := { agentId := call.agentId, capability := call.scopedCapability,
                         status := .pending, cost, createdAt }
      return { w with rows := w.rows.insert id row, requests := w.requests.insert id call }
  | .start n task => do
    let workers ← w.workers.insertNew n ⟨task, .ready⟩ (.runtimeError "worker id in use")
    match b, task with
    | .sqlite, .admission _ _ => do
      w.acquire n
      return { w with workers, lock := some n }
    | _, _ => return { w with workers }
  | .scan n => do
    let x ← w.worker n
    match x.phase, x.task with
    | .ready, .admission _ false => return w.move n x .passed
    | .ready, task =>
      match task.call? with
      | some c => return w.move n x (.looping (listApproved w.rows c))
      | none => World.notEnabled
    | _, _ => World.notEnabled
  | .next n => do
    let x ← w.worker n
    match x.task, x.phase with
    | .decide id _, .ready => do
      w.acquire n
      return w.tryWrite n x id (w.leave n)
    | .consume _, .looping (id :: ids) => do
      w.acquire n
      return w.tryWrite n x id (w.move n x (.looping ids))
    | .admission _ _, .looping (id :: ids) => do
      -- inside the admission the lock outlives a candidate that was gone
      w.acquire n
      return w.tryWrite n x id { w.move n x (.looping ids) with lock := some n }
    | _, .looping [] => return w.leave n
    | _, _ => World.notEnabled
  | .commit n => do
    let x ← w.worker n
    match x.phase with
    | .written id => return commitWritten w n x id
    | .passed => return w.leave n
    | _ => World.notEnabled
  | .complete n => do
    let x ← w.worker n
    match x.phase, x.task with
    | .granted id, .consume c => return { w.leave n with admissions := w.admissions ++ [⟨id, c⟩] }
    | _, _ => World.notEnabled
  | .rollback n => do
    let _ ← w.worker n
    return w.leave n

/-- The approval queue as a transition system. -/
def system (b : Backend) : LTS World Action := .ofExec (exec b)

end AgentBridge.Approvals
