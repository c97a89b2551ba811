import AgentBridge.Ledger.Basic
import AgentBridge.Authority.Basic

/-!
# Aggregate admission quotas

`admission_quotas.py`: a policy of caps for the tenant as a whole and for each quota owner.
Usage is recomputed at every admission from the budgets, the operations and the records of
earlier admissions. The three statements that read it may each see a different snapshot, so
that usage is a function of what each statement saw (`QuotaReads`).
-/

namespace AgentBridge

open Authority

/-- `QuotaLimits`, with its defaults. -/
structure QuotaLimits where
  enabled : Bool := false
  spendLimit : Cost := 1000
  userSpendLimit : Cost := 100
  rateLimit : ℕ := 10000
  userRateLimit : ℕ := 1000
  windowSeconds : ℕ := 3600
  maxActive : ℕ := 128
  userMaxActive : ℕ := 32
  maxRecords : ℕ := 100000
  deriving DecidableEq

/-- `QuotaLimits.validated`: the integer bounds. The first field out of its bounds is named. -/
def QuotaLimits.validated (l : QuotaLimits) : Except Fault Unit := do
  for (value, maximum, field) in [(l.rateLimit, 1000000, "rate_limit"),
      (l.userRateLimit, 1000000, "user_rate_limit"), (l.windowSeconds, 31536000, "window_seconds"),
      (l.maxActive, 1000000, "max_active"), (l.userMaxActive, 1000000, "user_max_active"),
      (l.maxRecords, 10000000, "max_records")] do
    require (1 ≤ value && value ≤ maximum) (.valueError ("invalid bounded quota " ++ field))

/-- A row of `admission_quota_records_v1`. -/
structure QuotaRecord where
  fingerprint : String
  owner : String
  cost : Cost
  admitted : Time
  deriving DecidableEq

/-- What identifies a quota owner. -/
structure OwnerMaterial where
  tenantId : Option String
  kind : Kind
  issuer : String
  subject : String
  deriving DecidableEq

/-- `quota_owner`: the digest of the enrolled human or machine. -/
def quotaOwner (digest : OwnerMaterial → String) (p : Principal) : Except Fault String := do
  require (p.kind == .machine || p.kind == .delegatedHuman)
    (.authorityDenied "agent quota owner required")
  require (1 ≤ p.issuer.length && p.issuer.length ≤ 2048 && !hasControl p.issuer)
    (.authorityDenied "invalid quota issuer")
  require (p.tenantId.any isIdentifier) (.valueError "invalid bounded tenant_id")
  subject p.subject
  return digest { tenantId := p.tenantId, kind := p.kind, issuer := p.issuer, subject := p.subject }

/-- The two tables the join of a usage statement reads. -/
structure JoinRead where
  records : Table OpKey QuotaRecord := ∅
  operations : Table OpKey Operation := ∅

/-- What the three statements of one usage query saw. -/
structure QuotaReads where
  budgets : Budgets := ∅
  joined : JoinRead := {}
  legacy : JoinRead := {}

namespace JoinRead

variable (r : JoinRead)

/-- The cost still charged to a record: its operation is unknown or succeeded. -/
def charge (operations : Table OpKey Operation) (k : OpKey) (q : QuotaRecord) : Cost :=
  if (operations.lookup k).any fun o => o.state == .unknown || o.state == .succeeded then q.cost
  else 0

def running (operations : Table OpKey Operation) (k : OpKey) (_ : QuotaRecord) : ℕ :=
  if (operations.lookup k).any fun o => o.state == .unknown then 1 else 0

/-- One if the record was admitted after `since`. -/
def recently (operations : Table OpKey Operation) (since : Time) (k : OpKey)
    (q : QuotaRecord) : ℕ :=
  if (operations.lookup k).isSome ∧ since < q.admitted then 1 else 0

/-- `attributed`. -/
def attributed : Cost := Table.sum (charge r.operations) r.records

/-- `owned`. -/
def owned (owner : String) : Cost :=
  Table.sum (fun k q => if q.owner = owner then charge r.operations k q else 0) r.records

/-- `active` of the joined rows. -/
def active : ℕ := Table.sum (running r.operations) r.records

/-- `owned_active`. -/
def ownedActive (owner : String) : ℕ :=
  Table.sum (fun k q => if q.owner = owner then running r.operations k q else 0) r.records

/-- `recent` of the joined rows. -/
def recent (since : Time) : ℕ := Table.sum (recently r.operations since) r.records

/-- `owned_recent`. -/
def ownedRecent (owner : String) (since : Time) : ℕ :=
  Table.sum (fun k q => if q.owner = owner then recently r.operations since k q else 0) r.records

/-- `active` of the operations without a record. -/
def legacyActive : ℕ :=
  Table.sum (fun k o => if r.records.lookup k = none ∧ o.state = .unknown then 1 else 0)
    r.operations

/-- `recent` of the operations without a record. -/
def legacyRecent (since : Time) : ℕ :=
  Table.sum (fun k o =>
    if r.records.lookup k = none ∧ (o.state = .unknown ∨ since < o.updated) then 1 else 0)
    r.operations

end JoinRead

/-- The usage an admission is checked against. -/
structure Usage where
  spend : Cost
  userSpend : Cost
  active : ℕ
  userActive : ℕ
  recent : ℕ
  userRecent : ℕ

/-- `_usage`. The difference of two costs is truncated at zero, as `max(0.0, ..)` is. -/
def usage (owner : String) (now : Time) (limits : QuotaLimits) (r : QuotaReads) : Usage :=
  let since := now - limits.windowSeconds
  let unattributed := r.budgets.exposureTotal - r.joined.attributed
  { spend := r.budgets.exposureTotal
    userSpend := r.joined.owned owner + unattributed
    active := r.joined.active + r.legacy.legacyActive
    userActive := r.joined.ownedActive owner + r.legacy.legacyActive
    recent := r.joined.recent since + r.legacy.legacyRecent since
    userRecent := r.joined.ownedRecent owner since + r.legacy.legacyRecent since }

/-- The cap checks of `_admit`, in order. -/
def QuotaLimits.check (l : QuotaLimits) (u : Usage) (cost : Cost) : Except Fault Unit := do
  require (decide (u.spend + cost ≤ l.spendLimit)) (.quotaDenied "tenant spend quota exceeded")
  require (decide (u.userSpend + cost ≤ l.userSpendLimit))
    (.quotaDenied "user spend quota exceeded")
  require (u.recent + 1 ≤ l.rateLimit) (.quotaDenied "tenant rate quota exceeded")
  require (u.userRecent + 1 ≤ l.userRateLimit) (.quotaDenied "user rate quota exceeded")
  require (u.active + 1 ≤ l.maxActive) (.quotaDenied "tenant active operations quota exceeded")
  require (u.userActive + 1 ≤ l.userMaxActive)
    (.quotaDenied "user active operations quota exceeded")

/-- What a passed check establishes. -/
structure Usage.Within (u : Usage) (l : QuotaLimits) (cost : Cost) : Prop where
  spend : u.spend + cost ≤ l.spendLimit
  userSpend : u.userSpend + cost ≤ l.userSpendLimit
  recent : u.recent < l.rateLimit
  userRecent : u.userRecent < l.userRateLimit
  active : u.active < l.maxActive
  userActive : u.userActive < l.userMaxActive

theorem QuotaLimits.check_eq_ok {l : QuotaLimits} {u : Usage} {cost : Cost}
    (h : l.check u cost = .ok ()) : u.Within l cost := by
  simp only [check, Except.bind_eq_ok, require_eq_ok, decide_eq_true_eq] at h
  obtain ⟨-, hspend, -, huser, -, hrecent, -, huserRecent, -, hactive, huserActive⟩ := h
  exact ⟨hspend, huser, hrecent, huserRecent, hactive, huserActive⟩

example : ({} : QuotaLimits).validated = .ok () := by decide

end AgentBridge
