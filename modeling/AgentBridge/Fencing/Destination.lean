import AgentBridge.LTS.Script
import AgentBridge.Text.PyString
import Mathlib.Data.Rat.Defs

/-!
# Fenced destinations

A worker that wants to act for a scope acquires its fence and gets an *epoch*. The fence is a lease:
when it has expired another worker may take it, with the next epoch. The destination accepts an
effect only from the owner of the current epoch, and it accepts each operation once.

`FencedSqliteTarget` does this in one write transaction of SQLite. On PostgreSQL `PgFencing.acquire`
is a single statement, and `PgFencing.renew` and `FencedPostgresDestination.commit` lock the row of
the fence before they read it. Every reading of the clock is an input of the statement that makes
it, so nothing is assumed of the clock.
-/

namespace AgentBridge.Fencing

open Locking

/-! ### Tables -/

/-- A row of the fence table. -/
structure Fence where
  owner : PyString
  epoch : ℤ
  expires : ℚ
  deriving DecidableEq

/-- An effect is identified by agent and operation. -/
abbrev EffectKey := PyString × PyString

/-- A row of the effect table: the receipt, but for its key. -/
structure Effect where
  fingerprint : PyString
  outcome : PyString
  externalReference : PyString
  signature : PyString
  deriving DecidableEq

structure Tables where
  fences : Table PyString Fence := ∅
  effects : Table EffectKey Effect := ∅

/-- What one statement changes. A grant says when the old lease was found expired; an effect says
under which fence it was accepted. -/
inductive Change
  | grant (scope : PyString) (fence : Fence) (checked : ℚ)
  | renew (scope : PyString) (expires : ℚ)
  | effect (scope owner : PyString) (epoch : ℤ) (key : EffectKey) (effect : Effect)
  deriving DecidableEq

def Tables.apply (d : Tables) : Change → Tables
  | .grant scope fence _ => { d with fences := d.fences.insert scope fence }
  | .renew scope expires =>
    match d.fences.lookup scope with
    | none => d
    | some fence => { d with fences := d.fences.insert scope { fence with expires } }
  | .effect _ _ _ key effect => { d with effects := d.effects.insert key effect }

/-! ### Locks -/

inductive Lock
  /-- The write lock of a SQLite database. -/
  | database
  /-- The row of a fence. -/
  | fence (scope : PyString)
  /-- The row of an effect: two inserts of the same key wait for each other. -/
  | effect (key : EffectKey)
  deriving DecidableEq

def Lock.conflict : Lock → Lock → Bool
  | .database, .database => true
  | .fence scope, .fence scope' => scope = scope'
  | .effect key, .effect key' => key = key'
  | _, _ => false

theorem Lock.conflict_symm (k k' : Lock) : k.conflict k' = k'.conflict k := by
  cases k <;> cases k' <;> simp [conflict, eq_comm]

def Change.lock : Change → Lock
  | .grant scope .. | .renew scope _ => .fence scope
  | .effect _ _ _ key _ => .effect key

def rules : Discipline Tables Lock Change where
  conflict := Lock.conflict
  symm := Lock.conflict_symm
  apply := Tables.apply
  guard := Change.lock

/-! ### Statements -/

inductive Denied
  /-- `ValueError`. -/
  | value (message : String)
  /-- `FenceDenied`, `SqliteFenceDenied` and `StaleDestinationLeader`. -/
  | fence (message : String)
  /-- `DuplicateDestinationAction` and `SqliteDuplicateEffect`. -/
  | duplicate (message : String)
  deriving DecidableEq

/-- A number of seconds, with its Python type. -/
inductive Duration
  | int (n : ℤ)
  | float (q : ℚ)

def Duration.seconds : Duration → ℚ
  | .int n => n
  | .float q => q

/-- What a statement gets from outside: the clock, read twice where it reads it twice, and what the
signer returns, if that is a signature. -/
structure Input where
  now : ℚ
  later : ℚ
  signature : Option PyString

/-- What a call keeps: a reading of the clock, a fence that it has read and a signature. -/
structure Registers where
  stamp : Option ℚ := none
  row : Option Fence := none
  signature : Option PyString := none

inductive Statement
  /-- A check of the arguments. -/
  | require (ok : Bool) (denied : Denied)
  /-- Read the clock. -/
  | stamp
  /-- Call the signer. -/
  | sign (denied : Denied)
  /-- `SELECT epoch,expires_seconds`, and refuse while the lease is live. -/
  | selectFence (scope : PyString) (denied : Denied)
  /-- The `INSERT … ON CONFLICT` of SQLite. -/
  | upsertFence (scope owner : PyString) (ttl : ℚ)
  /-- The `INSERT … ON CONFLICT … WHERE` of PostgreSQL. -/
  | grantFence (scope owner : PyString) (ttl : ℚ) (denied : Denied)
  /-- `SELECT 1 … FOR UPDATE`. -/
  | existsFence (scope : PyString) (denied : Denied)
  /-- The `UPDATE` of `renew`. -/
  | extendFence (scope owner : PyString) (epoch : ℤ) (ttl : ℚ) (denied : Denied)
  /-- The fence is the caller's, and live. -/
  | checkFence (scope owner : PyString) (epoch : ℤ) (denied : Denied)
  | checkEffect (key : EffectKey) (denied : Denied)
  | insertEffect (scope owner : PyString) (epoch : ℤ) (key : EffectKey)
      (fingerprint reference : PyString) (denied : Denied)

def nextEpoch (row : Option Fence) : ℤ := row.elim 1 (·.epoch + 1)

/-- What a statement does. `plus` is the addition of seconds to a time, as the database rounds
it. -/
def run (plus : ℚ → ℚ → ℚ) : Statement → Input → Tables → Registers →
    Except Denied (Registers × Option Change)
  | .require ok denied, _, _, r => if ok then .ok (r, none) else .error denied
  | .stamp, i, _, r => .ok ({ r with stamp := some i.now }, none)
  | .sign denied, i, _, r =>
    match i.signature with
    | none => .error denied
    | some signature => .ok ({ r with signature := some signature }, none)
  | .selectFence scope denied, _, d, r =>
    let row := d.fences.lookup scope
    if row.any fun fence => r.stamp.any fun now => decide (now < fence.expires) then .error denied
    else .ok ({ r with row }, none)
  | .upsertFence scope owner ttl, _, _, r =>
    .ok (r, r.stamp.map fun now => .grant scope ⟨owner, nextEpoch r.row, plus now ttl⟩ now)
  | .grantFence scope owner ttl denied, i, d, r =>
    match d.fences.lookup scope with
    | none =>
      -- the values of the insert are computed before the row is locked
      .ok (r, r.stamp.map fun now => .grant scope ⟨owner, 1, plus now ttl⟩ now)
    | some fence =>
      if fence.expires ≤ i.now then
        .ok (r, some (.grant scope ⟨owner, fence.epoch + 1, plus i.later ttl⟩ i.now))
      else .error denied
  | .existsFence scope denied, _, d, r =>
    if (d.fences.lookup scope).isSome then .ok (r, none) else .error denied
  | .extendFence scope owner epoch ttl denied, i, d, r =>
    match d.fences.lookup scope with
    | none => .error denied
    | some fence =>
      if fence.owner = owner ∧ fence.epoch = epoch ∧ i.now < fence.expires then
        .ok (r, some (.renew scope (plus i.later ttl)))
      else .error denied
  | .checkFence scope owner epoch denied, i, d, r =>
    match d.fences.lookup scope with
    | none => .error denied
    | some fence =>
      if fence.owner = owner ∧ fence.epoch = epoch ∧ i.now < fence.expires then .ok (r, none)
      else .error denied
  | .checkEffect key denied, _, d, r =>
    if (d.effects.lookup key).isSome then .error denied else .ok (r, none)
  | .insertEffect scope owner epoch key fingerprint reference denied, _, d, r =>
    if (d.effects.lookup key).isSome then .error denied
    else .ok (r, some (.effect scope owner epoch key
      ⟨fingerprint, .ofString "succeeded", reference, r.signature.getD (.ofString "")⟩))

/-! ### Calls -/

inductive Call
  | acquire (scope owner : PyString) (ttl : Duration)
  /-- On PostgreSQL only. -/
  | renew (scope owner : PyString) (epoch : ℤ) (ttl : Duration)
  | commit (scope owner : PyString) (epoch : ℤ) (agent operation fingerprint : PyString)

/-- A string of `1` to `bound` characters. -/
def isBounded (bound : ℕ) (s : PyString) : Bool := 1 ≤ s.codes.length && s.codes.length ≤ bound

/-- `FencedSqliteTarget.acquire` takes an `int` of at least a second. -/
def isSqliteTtl : Duration → Bool
  | .int n => 1 ≤ n && n ≤ 3600
  | .float _ => false

/-- `PgFencing` takes any number of at least half a second. -/
def isPostgresTtl (ttl : Duration) : Bool :=
  ((1 : ℕ) : ℚ) ≤ ttl.seconds + ttl.seconds && ttl.seconds ≤ ((3600 : ℕ) : ℚ)

/-- `FencedSqliteTarget`; `queued` says that the file is a queued-only destination. -/
def sqliteScript (queued : Bool) : Call → List (Instr Lock Statement)
  | .acquire scope owner ttl =>
    [.stmt (.require (isBounded 128 scope && isBounded 128 owner)
        (.value "bounded scope and owner required")),
      .stmt (.require (isSqliteTtl ttl) (.value "bounded integer TTL required")),
      .lock (.fence scope),
      .stmt .stamp,
      .stmt (.selectFence scope (.fence "an authoritative destination owner is already live")),
      .stmt (.upsertFence scope owner ttl.seconds)]
  | .renew .. => []
  | .commit scope owner epoch agent operation fingerprint =>
    [.stmt (.require (!queued) (.value "queued-only destination rejects the v1 commit contract")),
      .stmt (.require ([scope, owner, agent, operation, fingerprint].all (isBounded 128))
        (.value "exact bounded operation identity required")),
      .stmt (.require (1 ≤ epoch) (.value "valid monotonic destination epoch required")),
      .lock (.fence scope),
      .stmt (.checkFence scope owner epoch
        (.fence "stale, expired or unauthorized destination epoch")),
      .lock (.effect (agent, operation)),
      .stmt (.checkEffect (agent, operation)
        (.duplicate "operation was already executed at the destination")),
      .stmt (.sign (.value "destination signature invalid")),
      .stmt (.insertEffect scope owner epoch (agent, operation) fingerprint
        (.append (.ofString "sqlite-fenced-effect:") operation) (.duplicate "UNIQUE constraint failed"))]

/-- `PgFencing` and `FencedPostgresDestination`. -/
def postgresScript : Call → List (Instr Lock Statement)
  | .acquire scope owner ttl =>
    [.stmt (.require (isBounded 128 scope && isBounded 128 owner)
        (.fence "scope and owner must be nonempty bounded identities")),
      .stmt (.require (isPostgresTtl ttl) (.fence "invalid bounded lease duration")),
      .stmt .stamp,
      .lock (.fence scope),
      .stmt (.grantFence scope owner ttl.seconds (.fence "leadership already held"))]
  | .renew scope owner epoch ttl =>
    [.stmt (.require (isBounded 128 scope && isBounded 128 owner)
        (.fence "scope and owner must be nonempty bounded identities")),
      .stmt (.require (1 ≤ epoch && isPostgresTtl ttl)
        (.fence "invalid fence token or lease duration")),
      .lock (.fence scope),
      .stmt (.existsFence scope (.fence "stale or expired fencing epoch")),
      .stmt (.extendFence scope owner epoch ttl.seconds (.fence "stale or expired fencing epoch"))]
  | .commit scope owner epoch agent operation fingerprint =>
    [.stmt (.require ([scope, owner, agent, operation, fingerprint].all (isBounded 256))
        (.value "exact destination identifiers required")),
      .stmt (.require (1 ≤ epoch) (.value "valid fencing epoch required")),
      .stmt (.sign (.value "invalid destination signer")),
      .lock (.fence scope),
      .stmt (.existsFence scope (.fence "destination rejected stale or expired fence")),
      .stmt (.checkFence scope owner epoch (.fence "destination rejected stale or expired fence")),
      .lock (.effect (agent, operation)),
      .stmt (.insertEffect scope owner epoch (agent, operation) fingerprint
        (.append (.ofString "pg-fenced-effect:") operation)
        (.duplicate "effect already committed; no second write allowed"))]

/-- The kind of destination. -/
inductive Kind
  | sqlite (queued : Bool)
  | postgres

def script : Kind → Call → List (Instr Lock Statement)
  | .sqlite queued => sqliteScript queued
  | .postgres => postgresScript

/-- The calls of a destination. -/
def program (kind : Kind) (plus : ℚ → ℚ → ℚ) :
    Program Tables Lock Change Statement Input Registers Call Denied where
  rules := rules
  base := match kind with
    | .sqlite _ => [.database]
    | .postgres => []
  init _ := {}
  script := script kind
  run := run plus

/-- A destination with its workers. -/
abbrev Destination := World Tables Lock Change Statement Registers

/-- Any number of workers, in any interleaving, with any readings of the clock. -/
def system (kind : Kind) (plus : ℚ → ℚ → ℚ) : LTS Destination (Action Input Call) :=
  Locking.system (program kind plus)

end AgentBridge.Fencing
