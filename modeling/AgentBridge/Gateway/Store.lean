import AgentBridge.Quota.Basic

/-!
# The shared store and its transactions

The tables the gateway works on, and each of its transactions as one function that returns the
new store or the exception that rolls everything back.
-/

namespace AgentBridge

open Authority
open Except (bind_eq_ok pure_eq_ok)

/-- The authority fingerprint of an operation: a principal without lifetime and request proof. -/
abbrev Binding := Principal

/-- `Principal.binding`. -/
def Authority.Principal.binding (p : Principal) : Binding :=
  { p with validUntil := 0, requestBodySha256 := "", requestNonce := "" }

/-- The state of an approval request. -/
inductive ApprovalStatus
  | pending
  | approved
  | denied
  | consumed
  deriving DecidableEq, Repr

/-- A row of the approval queue. -/
structure Approval where
  agentId : String
  capability : String
  status : ApprovalStatus
  deriving DecidableEq, Repr

/-- A row of `operation_reconciliations`. -/
structure ReconciliationRow where
  result : Outcome
  externalReference : String
  evidenceSha256 : String
  reviewer : String
  created : Time
  deriving DecidableEq, Repr

/-- The governance tables of one SQL store. -/
structure Store where
  /-- The tenant the store is bound to, if any. -/
  tenantId : Option String := none
  accounts : Accounts := {}
  /-- `operation_authority`. -/
  authority : Table OpKey Binding := ∅
  approvals : Table String Approval := ∅
  /-- The stored quota policy, where the quota component is installed. -/
  quotaPolicy : Option QuotaLimits := none
  quotaRecords : Table OpKey QuotaRecord := ∅
  reconciliations : Table OpKey ReconciliationRow := ∅

/-- A policy decision. -/
structure Decision where
  allowed : Bool
  reason : String
  approvalRequired : Bool := false
  deriving DecidableEq, Repr

/-- The arguments of one admission. -/
structure AdmissionRequest where
  agentId : String
  operationId : Option String
  capability : String
  requestScope : String
  cost : Cost
  principal : Option Principal := none
  decision : Decision
  deriving DecidableEq

/-- What one admission reads from outside the store: clocks, the fresh token, the results of
the authority checks, the snapshots of the usage query, and the policy of queued work. -/
structure AdmissionInput where
  claimedAt : Time
  reservedAt : Time
  token : String
  firstAuthorized : Bool := true
  secondAuthorized : Bool := true
  quotaNow : Time := 0
  quotaReads : QuotaReads := {}
  /-- The outcome of `_queued_policy`, for queued work only. -/
  queuedDecision : Option Decision := none

namespace Store

variable (s : Store)

/-! ### Approvals -/

/-- `ApprovalQueue.consume`: use up the first matching grant. -/
def consume (agentId capability requestScope : String) : Option Store :=
  let granted : Option (Sigma fun _ : String => Approval) := s.approvals.entries.find? fun e =>
    e.2.status == .approved && e.2.agentId == agentId &&
      e.2.capability == capability ++ "|" ++ requestScope
  granted.map fun e =>
    { s with approvals := s.approvals.insert e.1 { e.2 with status := .consumed } }

/-- The consumption step of an admission. -/
def consumeRequired (r : AdmissionRequest) (decision : Decision) : Except Fault Store :=
  if decision.approvalRequired then
    match s.consume r.agentId r.capability r.requestScope with
    | some s' => .ok s'
    | none => .error (.admissionRejected "approval grant already consumed")
  else .ok s

/-! ### Quotas -/

/-- `AdmissionQuotas._policy`. -/
def policy : Except Fault QuotaLimits :=
  match s.quotaPolicy with
  | none => .error (.quotaDenied "missing, altered or unsupported quota policy")
  | some l =>
    match l.validated with
    | .ok _ => .ok l
    | .error _ => .error (.quotaDenied "missing, altered or unsupported quota policy")

/-- `AdmissionQuotas._admit`: check the caps and record the admission. -/
def quotaAdmit (digest : OwnerMaterial → String) (p : Principal) (k : OpKey)
    (fingerprint : String) (cost : Cost) (now : Time) (reads : QuotaReads) :
    Except Fault Store := do
  require (p.tenantId == s.tenantId && p.agentId == some k.1)
    (.authorityDenied "quota principal does not own admission")
  let owner ← quotaOwner digest p
  let limits ← s.policy
  require (decide (Table.size s.quotaRecords < limits.maxRecords))
    (.quotaDenied "quota history capacity reached; reviewed archival required")
  if limits.enabled then
    limits.check (usage owner now limits reads) cost
  let quotaRecords ← s.quotaRecords.insertNew k { fingerprint, owner, cost, admitted := now }
    (.integrityError "admission_quota_records_v1")
  return { s with quotaRecords }

/-- The trigger on `agent_operations`: under an enabled policy a claim needs its record. -/
def claimGuard (k : OpKey) (fingerprint : String) : Bool :=
  s.quotaPolicy.all (fun l => !l.enabled) ||
    (s.quotaRecords.lookup k).any fun q => q.fingerprint == fingerprint

/-! ### Claim -/

/-- The optional reservation row of a claim. -/
def insertReservation (k : OpKey) : Option String → Except Fault (Table OpKey String)
  | none => .ok s.accounts.reservations
  | some token =>
    s.accounts.reservations.insertNew k token (.integrityError "operation_reservations")

/-- The optional authority row of a claim. -/
def insertAuthority (k : OpKey) : Option Binding → Except Fault (Table OpKey Binding)
  | none => .ok s.authority
  | some b => s.authority.insertNew k b (.integrityError "operation_authority")

/-- `OperationLedger.claim`. -/
def claim (k : OpKey) (fingerprint : String) (reservationToken : Option String)
    (binding : Option Binding) (beforeInsert : Store → Except Fault Store) (stamp : Time) :
    Except Fault Store := do
  require (Accounts.isBounded k.1 && Accounts.isBounded k.2 && Accounts.isBounded fingerprint)
    (.valueError "invalid operation claim")
  require (reservationToken.all (· != "")) (.valueError "reservation_token must be nonempty")
  require (binding.all fun b => b.tenantId == s.tenantId && b.agentId == some k.1)
    (.valueError "operation authority does not match the bound tenant/agent")
  match s.accounts.operations.lookup k with
  | some row =>
    if row.fingerprint ≠ fingerprint then
      throw (.operationConflict "idempotency key reused for different request")
    else throw (.operationConflict
      ("existing operation is " ++ row.state.text ++ "; no automatic replay"))
  | none =>
    let s ← beforeInsert s
    require (s.claimGuard k fingerprint) (.integrityError "atomic quota admission required")
    let operations ← s.accounts.operations.insertNew k
      { fingerprint, state := .unknown, updated := stamp } (.integrityError "agent_operations")
    let reservations ← s.insertReservation k reservationToken
    let authority ← s.insertAuthority k binding
    return { s with accounts := { s.accounts with operations, reservations }, authority }

/-! ### Admission on one shared store -/

/-- The quota hook of an admission: only a gateway with an authority directory has one. -/
def quotaHook (digest : OwnerMaterial → String) (r : AdmissionRequest) (k : OpKey)
    (i : AdmissionInput) (s : Store) : Except Fault Store :=
  match r.principal with
  | none => .ok s
  | some p =>
    match s.quotaAdmit digest p k r.requestScope r.cost i.quotaNow i.quotaReads with
    | .error (.quotaDenied why) => .error (.admissionRejected why)
    | other => other

/-- The reservation step of an admission. -/
def reserveBudget (r : AdmissionRequest) (i : AdmissionInput) : Except Fault Store :=
  match s.accounts.budgets.reserve r.agentId r.cost i.reservedAt i.token with
  | (none, budgets) => .ok { s with accounts := { s.accounts with budgets } }
  | (some why, _) => .error (.admissionRejected why.text)

/-- The decision an admission acts on: queued work is decided inside its transaction. -/
def currentDecision (r : AdmissionRequest) (i : AdmissionInput) : Except Fault Decision :=
  match i.queuedDecision with
  | none => .ok r.decision
  | some d => if d.allowed then .ok d else .error (.admissionRejected d.reason)

/-- The claim of an admission that carries an operation id. -/
def claimOperation (digest : OwnerMaterial → String) (r : AdmissionRequest)
    (i : AdmissionInput) : Except Fault Store :=
  match r.operationId with
  | none => .ok s
  | some op =>
    s.claim (r.agentId, op) r.requestScope none (r.principal.map (·.binding))
      (quotaHook digest r (r.agentId, op) i) i.claimedAt

/-- The token link of an admission that carries an operation id. -/
def attachOperation (r : AdmissionRequest) (i : AdmissionInput) : Except Fault Store :=
  match r.operationId with
  | none => .ok s
  | some op => do
    let accounts ← s.accounts.attachReservation (r.agentId, op) i.token
    return { s with accounts }

/-- `_admit_transaction` on one shared SQL store, up to the queued link. -/
def admitTransaction (digest : OwnerMaterial → String) (r : AdmissionRequest)
    (i : AdmissionInput) : Except Fault Store := do
  let s ← s.claimOperation digest r i
  let decision ← currentDecision r i
  let s ← s.reserveBudget r i
  require i.firstAuthorized (.authorityDenied "current authority required")
  let s ← s.attachOperation r i
  let s ← s.consumeRequired r decision
  require i.secondAuthorized (.authorityDenied "current authority required")
  return s

/-! ### Leaving `unknown` -/

/-- `_abort_admission` on one shared SQL store. -/
def abortAdmission (agentId : String) (operationId : Option String) (token : String)
    (now : Time) : Except Fault Store :=
  match operationId with
  | none =>
    .ok { s with accounts := { s.accounts with
            budgets := (s.accounts.budgets.release agentId token).2 } }
  | some op => do
    let _ ← s.accounts.lockUnknown (agentId, op)
    let accounts ← Accounts.finish
      { s.accounts with budgets := (s.accounts.budgets.release agentId token).2 }
      (agentId, op) .failed now
    return { s with accounts }

/-- Lock an unknown operation and settle it with its own reservation. -/
def settleOwned (k : OpKey) (token : String) (outcome : Outcome) (expectedCost : Option Cost)
    (now : Time) : Except Fault Store := do
  let _ ← s.accounts.lockUnknown k
  let settled ← s.accounts.settleOwnedReservation k token outcome expectedCost now
  return { s with accounts := settled.2 }

/-- `_settle` on one shared SQL store. -/
def settle (agentId : String) (operationId : Option String) (token : String) (cost : Cost)
    (now : Time) : Except Fault Store :=
  match operationId with
  | none => do
    require (s.accounts.budgets.commit agentId token now).1
      (.runtimeError "budget reservation missing after invocation; reconcile outcome")
    return { s with accounts := { s.accounts with
              budgets := (s.accounts.budgets.commit agentId token now).2 } }
  | some op => s.settleOwned (agentId, op) token .succeeded (some cost) now

/-- The operator's statement about an operation. -/
structure Review where
  agentId : String
  operationId : String
  result : Outcome
  externalReference : String
  evidenceSha256 : String
  reviewer : String
  /-- The verdict of `_verify_evidence` and of the trust journal. -/
  verified : Bool := true
  deriving DecidableEq, Repr

/-- The text checks of `record`. -/
def isReviewText (text : String) : Bool :=
  text.toList.any (fun c => !isSpace c) && text.length ≤ 512

/-- The settlement of `record`: with the reservation where there is one. -/
def settleRecorded (k : OpKey) (result : Outcome) (now : Time) : Except Fault Accounts :=
  match s.accounts.reservations.lookup k with
  | none => s.accounts.finish k result.state now
  | some token =>
    match s.accounts.settleOwnedReservation k token result none now with
    | .ok settled => .ok settled.2
    | .error _ => .error (.reconciliationError "reserved budget token missing; cannot settle")

/-- `Reconciliation.record`; `isLinked` tells the operations that belong to a queued task. -/
def record (isLinked : OpKey → Bool) (r : Review) (now : Time) : Except Fault Store := do
  require ([r.agentId, r.operationId, r.externalReference, r.reviewer].all isReviewText)
    (.reconciliationError "missing reviewer or external reference")
  require (r.evidenceSha256.length == 64 &&
      r.evidenceSha256.toList.all fun c => c.isDigit || ('a' ≤ c && c ≤ 'f'))
    (.reconciliationError "independent evidence SHA256 digest required")
  let k : OpKey := (r.agentId, r.operationId)
  match s.accounts.lockUnknown k with
  | .error _ => throw (.reconciliationError "operation missing or no longer unknown")
  | .ok _ =>
    require (!(s.tenantId.isSome && isLinked k)) (.reconciliationError
      "task-linked operation requires task-aware verified reconciliation")
    require r.verified (.reconciliationError "verified settlement evidence required")
    let reconciliations ← s.reconciliations.insertNew k
      { result := r.result, externalReference := r.externalReference
        evidenceSha256 := r.evidenceSha256, reviewer := r.reviewer, created := now }
      (.integrityError "operation_reconciliations")
    let accounts ← s.settleRecorded k r.result now
    return { s with accounts, reconciliations }

end Store

/-! ### What the transactions establish -/

namespace Store

variable {s s' : Store} {digest : OwnerMaterial → String} {r : AdmissionRequest}
  {i : AdmissionInput}

/-- What a passed quota admission found and did. -/
structure QuotaOk (s : Store) (digest : OwnerMaterial → String) (p : Principal) (k : OpKey)
    (fingerprint : String) (cost : Cost) (now : Time) (reads : QuotaReads) (s' : Store) :
    Prop where
  unrecorded : s.quotaRecords.lookup k = none
  admitted : ∃ owner limits, quotaOwner digest p = .ok owner ∧ s.quotaPolicy = some limits ∧
    (limits.enabled = true → (usage owner now limits reads).Within limits cost) ∧
    s' = { s with
           quotaRecords := s.quotaRecords.insert k { fingerprint, owner, cost, admitted := now } }

theorem policy_eq_ok {l : QuotaLimits} (h : s.policy = .ok l) : s.quotaPolicy = some l := by
  unfold policy at h
  split at h
  case h_1 => cases h
  case h_2 l' hl =>
    split at h
    · rw [hl, Except.ok.inj h]
    · cases h

variable {k : OpKey} {now : Time}

theorem QuotaOk.of_quotaAdmit {p : Principal} {fingerprint : String} {cost : Cost}
    {reads : QuotaReads} (h : s.quotaAdmit digest p k fingerprint cost now reads = .ok s') :
    QuotaOk s digest p k fingerprint cost now reads s' := by
  simp only [quotaAdmit, bind_eq_ok, require_eq_ok] at h
  obtain ⟨-, -, owner, howner, limits, hlimits, -, -, h⟩ := h
  have hpolicy := policy_eq_ok hlimits
  split at h
  case isTrue hon =>
    simp only [bind_eq_ok, Table.insertNew_eq_ok, pure_eq_ok] at h
    obtain ⟨_, hcheck, _, ⟨hnew, rfl⟩, rfl⟩ := h
    exact ⟨hnew, owner, limits, howner, hpolicy, fun _ => QuotaLimits.check_eq_ok hcheck, rfl⟩
  case isFalse hoff =>
    simp only [bind_eq_ok, Table.insertNew_eq_ok, pure_eq_ok] at h
    obtain ⟨_, ⟨hnew, rfl⟩, rfl⟩ := h
    exact ⟨hnew, owner, limits, howner, hpolicy, fun hon => absurd hon hoff, rfl⟩

/-- The hook writes at most the quota records. -/
theorem quotaHook_eq_ok (h : quotaHook digest r k i s = .ok s') :
    (r.principal = none ∧ s' = s) ∨
      ∃ p, r.principal = some p ∧
        QuotaOk s digest p k r.requestScope r.cost i.quotaNow i.quotaReads s' := by
  unfold quotaHook at h
  cases hp : r.principal with
  | none =>
    rw [hp] at h
    exact .inl ⟨rfl, (Except.ok.inj h).symm⟩
  | some p =>
    simp only [hp] at h
    split at h
    · cases h
    · exact .inr ⟨p, rfl, .of_quotaAdmit h⟩

theorem quotaHook_frame (h : quotaHook digest r k i s = .ok s') :
    s' = { s with quotaRecords := s'.quotaRecords } := by
  rcases quotaHook_eq_ok h with ⟨-, rfl⟩ | ⟨p, -, hok⟩
  · rfl
  · obtain ⟨owner, limits, -, -, -, rfl⟩ := hok.admitted
    rfl

/-- What a successful claim found and did. -/
structure ClaimOk (s : Store) (k : OpKey) (fingerprint : String)
    (reservationToken : Option String) (binding : Option Binding)
    (beforeInsert : Store → Except Fault Store) (stamp : Time) (s' : Store) : Prop where
  new : s.accounts.operations.lookup k = none
  inserted : ∃ s₁ operations reservations authority, beforeInsert s = .ok s₁ ∧
    s₁.claimGuard k fingerprint = true ∧
    operations = s₁.accounts.operations.insert k
      { fingerprint, state := .unknown, updated := stamp } ∧
    s₁.insertReservation k reservationToken = .ok reservations ∧
    s₁.insertAuthority k binding = .ok authority ∧
    s' = { s₁ with accounts := { s₁.accounts with operations, reservations }, authority }

theorem ClaimOk.of_claim {fingerprint : String} {reservationToken : Option String}
    {binding : Option Binding} {beforeInsert : Store → Except Fault Store} {stamp : Time}
    (h : s.claim k fingerprint reservationToken binding beforeInsert stamp = .ok s') :
    ClaimOk s k fingerprint reservationToken binding beforeInsert stamp s' := by
  simp only [claim, bind_eq_ok, require_eq_ok] at h
  obtain ⟨-, -, -, -, -, -, h⟩ := h
  split at h
  case h_1 =>
    split at h <;> simp at h
  case h_2 hnew =>
    simp only [bind_eq_ok, require_eq_ok, Table.insertNew_eq_ok, pure_eq_ok] at h
    obtain ⟨s₁, hhook, -, hguard, ops, ⟨-, hops⟩, res, hres, auth, hauth, hs'⟩ := h
    exact ⟨hnew, s₁, ops, res, auth, hhook, hguard, hops.symm, hres, hauth, hs'.symm⟩

theorem reserveBudget_eq_ok (h : s.reserveBudget r i = .ok s') :
    (s.accounts.budgets.reserve r.agentId r.cost i.reservedAt i.token).1 = none ∧
      s' = { s with accounts := { s.accounts with
        budgets := (s.accounts.budgets.reserve r.agentId r.cost i.reservedAt i.token).2 } } := by
  unfold reserveBudget at h
  split at h
  case h_1 budgets hres =>
    rw [hres]
    exact ⟨rfl, (Except.ok.inj h).symm⟩
  case h_2 => cases h

/-- Consuming a grant touches the approvals only. -/
theorem consumeRequired_frame {d : Decision} (h : s.consumeRequired r d = .ok s') :
    s' = { s with approvals := s'.approvals } := by
  unfold consumeRequired consume at h
  split at h
  case isTrue =>
    split at h
    case h_1 hsome =>
      obtain ⟨e, -, rfl⟩ := Option.map_eq_some_iff.mp hsome
      rw [← Except.ok.inj h]
    case h_2 => cases h
  case isFalse => rw [← Except.ok.inj h]

/-- What an admission with an operation id found and did. -/
structure AdmitOk (s : Store) (digest : OwnerMaterial → String) (r : AdmissionRequest)
    (i : AdmissionInput) (op : String) (s' : Store) : Prop where
  new : s.accounts.operations.lookup (r.agentId, op) = none
  fits : (s.accounts.budgets.reserve r.agentId r.cost i.reservedAt i.token).1 = none
  accounts : s'.accounts =
    { operations := s.accounts.operations.insert (r.agentId, op)
        { fingerprint := r.requestScope, state := .unknown, updated := i.claimedAt }
      reservations := s.accounts.reservations.insert (r.agentId, op) i.token
      budgets := (s.accounts.budgets.reserve r.agentId r.cost i.reservedAt i.token).2 }
  hooked : ∃ s₁, quotaHook digest r (r.agentId, op) i s = .ok s₁ ∧
    s₁.claimGuard (r.agentId, op) r.requestScope = true ∧ s'.quotaRecords = s₁.quotaRecords
  bound : s.insertAuthority (r.agentId, op) (r.principal.map (·.binding)) = .ok s'.authority
  frame : s'.tenantId = s.tenantId ∧ s'.quotaPolicy = s.quotaPolicy ∧
    s'.reconciliations = s.reconciliations

theorem AdmitOk.of_admitTransaction {op : String} (hop : r.operationId = some op)
    (h : s.admitTransaction digest r i = .ok s') : AdmitOk s digest r i op s' := by
  simp only [admitTransaction, claimOperation, attachOperation, hop, bind_eq_ok,
    require_eq_ok, pure_eq_ok] at h
  obtain ⟨s₁, hclaim, d, -, s₂, hreserve, -, -, s₃, ⟨accounts, hattach, rfl⟩, s₄, hconsume,
    -, -, rfl⟩ := h
  have hc := ClaimOk.of_claim hclaim
  obtain ⟨s₀, ops, res, auth, hhook, hguard, rfl, hres, hauth, rfl⟩ := hc.inserted
  obtain rfl : s₀.accounts.reservations = res := by simpa [insertReservation] using hres
  obtain ⟨hfits, rfl⟩ := reserveBudget_eq_ok hreserve
  obtain rfl := (Accounts.AttachOk.of_attachReservation hattach).result
  have hframe := quotaHook_frame hhook
  rw [consumeRequired_frame hconsume]
  rw [hframe] at hfits hauth
  refine ⟨hc.new, hfits, ?_, ⟨s₀, hhook, hguard, rfl⟩, hauth, ?_⟩
  · rw [hframe]
  · rw [hframe]
    exact ⟨rfl, rfl, rfl⟩

theorem abortAdmission_eq_ok {agentId op token : String}
    (h : s.abortAdmission agentId (some op) token now = .ok s') :
    ∃ row, s.accounts.operations.lookup (agentId, op) = some row ∧ row.state = .unknown ∧
      s' = { s with accounts :=
        { operations := s.accounts.operations.insert (agentId, op)
            { row with state := .failed, updated := now }
          reservations := s.accounts.reservations
          budgets := (s.accounts.budgets.release agentId token).2 } } := by
  simp only [abortAdmission, bind_eq_ok, pure_eq_ok, Accounts.lockUnknown_eq_ok,
    Accounts.finish_eq_ok] at h
  obtain ⟨row, ⟨hrow, hunknown⟩, _, ⟨row', hrow', rfl⟩, rfl⟩ := h
  obtain rfl : row = row' := by simpa [hrow] using hrow'
  exact ⟨row, hrow, hunknown, rfl⟩

theorem settleOwned_eq_ok {token : String} {outcome : Outcome} {expectedCost : Option Cost}
    (h : s.settleOwned k token outcome expectedCost now = .ok s') :
    ∃ row amount accounts, s.accounts.operations.lookup k = some row ∧ row.state = .unknown ∧
      s.accounts.SettleOk k token outcome now amount accounts ∧
      (∀ c, expectedCost = some c → c = amount) ∧ s' = { s with accounts } := by
  simp only [settleOwned, bind_eq_ok, pure_eq_ok, Accounts.lockUnknown_eq_ok] at h
  obtain ⟨row, ⟨hrow, hunknown⟩, ⟨amount, accounts⟩, hsettle, rfl⟩ := h
  obtain ⟨hok, hcost⟩ := Accounts.SettleOk.of_settle hsettle
  exact ⟨row, amount, accounts, hrow, hunknown, hok, hcost, rfl⟩

/-- What a recorded reconciliation found and did. -/
structure RecordOk (s : Store) (isLinked : OpKey → Bool) (r : Review) (now : Time)
    (s' : Store) : Prop where
  unlinked : (s.tenantId.isSome && isLinked (r.agentId, r.operationId)) = false
  settled : ∃ row accounts reconciliations,
    s.accounts.operations.lookup (r.agentId, r.operationId) = some row ∧
    row.state = .unknown ∧
    s.settleRecorded (r.agentId, r.operationId) r.result now = .ok accounts ∧
    s' = { s with accounts, reconciliations }

theorem RecordOk.of_record {isLinked : OpKey → Bool} {r : Review}
    (h : s.record isLinked r now = .ok s') : RecordOk s isLinked r now s' := by
  simp only [record, bind_eq_ok, require_eq_ok] at h
  obtain ⟨-, -, -, -, h⟩ := h
  split at h
  case h_1 => simp at h
  case h_2 row hlock =>
    simp only [bind_eq_ok, require_eq_ok, pure_eq_ok, Table.insertNew_eq_ok,
      Bool.not_eq_true'] at h
    obtain ⟨-, hlinked, -, -, reconciliations, -, accounts, hsettled, rfl⟩ := h
    obtain ⟨hrow, hunknown⟩ := Accounts.lockUnknown_eq_ok.mp hlock
    exact ⟨hlinked, row, accounts, reconciliations, hrow, hunknown, hsettled, rfl⟩

theorem settleRecorded_eq_ok {result : Outcome} {a' : Accounts}
    (h : s.settleRecorded k result now = .ok a') :
    (s.accounts.reservations.lookup k = none ∧
        s.accounts.finish k result.state now = .ok a') ∨
      ∃ token amount, s.accounts.reservations.lookup k = some token ∧
        s.accounts.SettleOk k token result now amount a' := by
  unfold settleRecorded at h
  split at h
  case h_1 hnone => exact .inl ⟨hnone, h⟩
  case h_2 token hsome =>
    split at h
    case h_1 settled hsettle =>
      obtain ⟨amount, accounts⟩ := settled
      rw [← Except.ok.inj h]
      exact .inr ⟨token, amount, hsome, (Accounts.SettleOk.of_settle hsettle).1⟩
    case h_2 => cases h

end Store

end AgentBridge
