import AgentBridge.Audit.Entry
import AgentBridge.LTS.Script

/-!
# The audit table and its neighbours

`AuditLog.record` and `Reconciliation` append to the audit chain, and `truncate_audit_before` deletes
its oldest entries. Other workers change the tables that a deletion looks at: legal holds,
operations, admission links, tasks and budgets.

On PostgreSQL appends and deletions take an advisory lock on the chain, `set_hold` and a deletion
take one on the holds, and a deletion locks four tables against writers. On SQLite a transaction
has the only write lock of the database. In the model that lock is all the locks at once.
-/

namespace AgentBridge.Audit

open HashChain Locking

/-! ### Tables -/

/-- The tables. Of an operation and of an admission link only the key matters here; of a task,
whether it is terminal; of a budget, the member `reserved` of its state, if it has one. -/
structure Tables where
  /-- In ascending order of `seq`. -/
  audit : List AuditEntry := []
  holds : Table PyString Bool := ∅
  operations : List (PyString × PyString) := []
  links : List PyString := []
  tasks : Table PyString Bool := ∅
  budgets : Table PyString (Option (List PyString)) := ∅

/-- A row that another worker inserts or updates: `set_hold`, operation claims and settlements,
admission links, task creation and transitions, budget reservations, commits and releases. -/
inductive Row
  | hold (name : PyString) (enabled : Bool)
  | operation (agent operation : PyString)
  | link (key : PyString)
  | task (id : PyString) (terminal : Bool)
  | budget (agent : PyString) (reserved : Option (List PyString))
  deriving DecidableEq

/-- What one statement changes. -/
inductive Change
  | insertAudit (e : AuditEntry)
  | deleteAudit (before : ℤ)
  | put (row : Row)
  deriving DecidableEq

def Tables.put (d : Tables) : Row → Tables
  | .hold name enabled => { d with holds := d.holds.insert name enabled }
  | .operation agent op => { d with operations := d.operations.insert (agent, op) }
  | .link key => { d with links := d.links.insert key }
  | .task id terminal => { d with tasks := d.tasks.insert id terminal }
  | .budget agent reserved => { d with budgets := d.budgets.insert agent reserved }

def Tables.apply (d : Tables) : Change → Tables
  | .insertAudit e => { d with audit := d.audit.orderedInsert (·.seq ≤ ·.seq) e }
  | .deleteAudit n => { d with audit := d.audit.filter (n ≤ ·.seq) }
  | .put row => d.put row

/-! ### Locks -/

/-- The tables that a deletion locks. -/
inductive Relation
  | operations
  | links
  | budgets
  | tasks
  deriving DecidableEq

inductive Lock
  /-- The advisory lock 911001. -/
  | audit
  /-- The advisory lock 911003. -/
  | holds
  /-- `LOCK TABLE … IN SHARE MODE`. -/
  | share (t : Relation)
  /-- What a statement takes that writes to the table. -/
  | rowExclusive (t : Relation)
  deriving DecidableEq

def Lock.conflict : Lock → Lock → Bool
  | .audit, .audit => true
  | .holds, .holds => true
  | .share t, .rowExclusive t' => t = t'
  | .rowExclusive t, .share t' => t = t'
  | _, _ => false

theorem Lock.conflict_symm (k k' : Lock) : k.conflict k' = k'.conflict k := by
  cases k <;> cases k' <;> simp [conflict, eq_comm]

def Row.lock : Row → Lock
  | .hold .. => .holds
  | .operation .. => .rowExclusive .operations
  | .link .. => .rowExclusive .links
  | .task .. => .rowExclusive .tasks
  | .budget .. => .rowExclusive .budgets

def Change.lock : Change → Lock
  | .insertAudit _ | .deleteAudit _ => .audit
  | .put row => row.lock

def rules : Discipline Tables Lock Change where
  conflict := Lock.conflict
  symm := Lock.conflict_symm
  apply := Tables.apply
  guard := Change.lock

/-- The write lock of a SQLite database. -/
def allLocks : List Lock :=
  [.audit, .holds, .share .operations, .share .links, .share .budgets, .share .tasks,
    .rowExclusive .operations, .rowExclusive .links, .rowExclusive .budgets, .rowExclusive .tasks]

/-! ### Statements -/

/-- An entry before it has its place in the chain. -/
structure Draft where
  timestamp : PyString
  actor : PyString
  action : PyString
  sourceProtocol : PyString
  targetProtocol : PyString
  capability : PyString
  decision : PyString
  reason : PyString
  cost : Cost

/-- What `_append_settlement_evidence` records. -/
def settlement (timestamp reviewer result reason : PyString) : Draft where
  timestamp := timestamp
  actor := reviewer
  action := .ofString "reconcile_operation"
  sourceProtocol := .ofString "operator"
  targetProtocol := .ofString "destination"
  capability := .ofString "settle_unknown_operation"
  decision := result
  reason := reason
  cost := .zero

/-- `build`: the entry after the head. -/
def Draft.build (H : Sha256) (draft : Draft) (head : Option AuditEntry) : AuditEntry :=
  let entry : AuditEntry :=
    { seq := head.elim 0 (·.seq + 1)
      timestamp := draft.timestamp
      actor := draft.actor
      action := draft.action
      sourceProtocol := draft.sourceProtocol
      targetProtocol := draft.targetProtocol
      capability := draft.capability
      decision := draft.decision
      reason := draft.reason
      cost := draft.cost
      prevHash := head.elim genesis (·.entryHash) }
  { entry with entryHash := computeHash H entry }

/-- What a deletion looks at. -/
inductive Check
  | holds
  | operations
  | links
  | tasks
  | budgets

/-- The query of the check finds nothing. -/
def Check.passes : Check → Tables → Bool
  | .holds, d => d.holds.entries.all fun e => !e.2
  | .operations, d => d.operations.isEmpty
  | .links, d => d.links.isEmpty
  | .tasks, d => d.tasks.entries.all fun e => e.2
  | .budgets, d => d.budgets.entries.all fun e => (e.2.getD []).isEmpty

def Check.message : Check → String
  | .holds => "durable legal hold blocks audit deletion"
  | .operations | .links => "retained operation evidence blocks audit deletion"
  | .tasks => "nonterminal task evidence blocks audit deletion"
  | .budgets => "reserved budget evidence blocks audit deletion"

inductive Statement
  /-- The environment variable `AGENTBRIDGE_ENV`. -/
  | environment
  | check (c : Check)
  /-- The last row of the audit table. -/
  | readHead
  | append (draft : Draft)
  | delete (before : ℤ)
  | put (row : Row)

/-- Why a statement is refused. -/
inductive Denied
  | permission (message : String)
  /-- The primary key of the audit table. -/
  | duplicate
  | trust (message : String)
  deriving DecidableEq

/-- What a statement does. A call keeps the head of the chain that it has read. -/
def run (H : Sha256) (production : Bool) :
    Statement → Unit → Tables → Option AuditEntry →
      Except Denied (Option AuditEntry × Option Change)
  | .environment, _, _, head =>
    if production then .error (.permission "production audit retention requires external anchoring")
    else .ok (head, none)
  | .check c, _, d, head =>
    if c.passes d then .ok (head, none) else .error (.permission c.message)
  | .readHead, _, d, _ => .ok (d.audit.getLast?.map AuditEntry.norm, none)
  | .append draft, _, d, head =>
    let entry := draft.build H head
    if d.audit.any (·.seq = entry.seq) then .error .duplicate
    else .ok (head, some (.insertAudit entry))
  | .delete n, _, _, head =>
    if head.any (·.seq < n) then
      .error (.permission "audit retention must preserve the current chain head")
    else .ok (head, some (.deleteAudit n))
  | .put row, _, _, head =>
    match row with
    | .hold name _ =>
      if name.codes.isEmpty then .error (.trust "legal-hold identifier required")
      else .ok (head, some (.put row))
    | _ => .ok (head, some (.put row))

/-! ### Calls -/

inductive Call
  /-- `AuditLog.record`. -/
  | record (draft : Draft)
  /-- The append of `Reconciliation.record`. -/
  | settle (timestamp reviewer result reason : PyString)
  /-- `truncate_audit_before`. -/
  | truncate (seq : ℤ)
  | put (row : Row)

/-- `append_audit_chained`. -/
def appendScript (draft : Draft) : List (Instr Lock Statement) :=
  [.lock .audit, .stmt .readHead, .stmt (.append draft)]

/-- `retention_guard`: the tables are locked before they are read. -/
def guardScript : List (Instr Lock Statement) :=
  [Relation.operations, .links, .budgets, .tasks].map (.lock <| .share ·) ++
    [Check.operations, .links, .tasks, .budgets].map (.stmt <| .check ·)

def script : Call → List (Instr Lock Statement)
  | .record draft => appendScript draft
  | .settle timestamp reviewer result reason =>
    appendScript (settlement timestamp reviewer result reason)
  | .truncate seq =>
    .stmt .environment ::
      if seq ≤ 0 then []
      else .lock .holds :: .stmt (.check .holds) ::
        (guardScript ++ [.lock .audit, .stmt .readHead, .stmt (.delete seq)])
  | .put row => [.lock row.lock, .stmt (.put row)]

/-- The calls of a store. -/
def program (b : Backend) (H : Sha256) (production : Bool) :
    Program Tables Lock Change Statement Unit (Option AuditEntry) Call Denied where
  rules := rules
  base := match b with
    | .sqlite => allLocks
    | .postgres => []
  init _ := none
  script := script
  run := run H production

/-- The store with its workers. -/
abbrev Store := World Tables Lock Change Statement (Option AuditEntry)

/-- Any number of workers, in any interleaving. -/
def system (b : Backend) (H : Sha256) (production : Bool) : LTS Store (Action Unit Call) :=
  Locking.system (program b H production)

/-- `load_audit`. -/
def loadAudit (s : Store) : List AuditEntry := s.store.data.audit.map AuditEntry.norm

end AgentBridge.Audit
