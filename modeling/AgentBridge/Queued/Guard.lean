import AgentBridge.Authority.Revocation
import AgentBridge.Queued.Tenant

/-!
# The authority of a retained intent

A queued task runs long after the request that submitted it. Its authority is therefore never
read from the retained record: the enrolled rows are read again, under the directory's lock, and
must give exactly the binding and the lifetime that were accepted.
-/

namespace AgentBridge.Queued

open Authority Except

/-- `_QueuedIntentAuthority`. -/
structure QueuedAuthority where
  intent : StoredIntent
  principal : Principal
  storeId : String
  originalDeadline : Time
  deriving DecidableEq

/-- The clock readings of one derivation. -/
structure DeriveReads where
  grant : Time
  deadline : Time
  current : Reads

/-- The delegation named by a binding, for a delegated one. -/
def boundGrant (d : Directory) (now : Time) (tenantId : String) (b : Binding) (agentId : String)
    (agent : AgentRow) : Except Fault (Option (String × DelegationRow)) :=
  if b.kind = .delegatedHuman then
    match b.delegationId with
    | none => .error (.authorityDenied "delegation unavailable or stale")
    | some g => optionalGrant d now tenantId (some g) agentId agent
  else .ok none

/-- The lifetime a request was accepted with. -/
def originalDeadline (stamp : Time) : Option (String × DelegationRow) → Time
  | some (_, g) => min (stamp + 300) g.expiresAt
  | none => stamp + 300

/-- `_derive`. -/
def derive (cfg : Config) (s : Authority.State) (t : Tenant) (intent : StoredIntent)
    (validUntil : Time) (r : DeriveReads) : Except Fault (Principal × Time) := do
  let unavailable : Fault :=
    .authorityDenied "queued intent authority or original deadline unavailable"
  let provenance := intent.record.provenance
  match splitNonce cfg.authority provenance.requestNonce with
  | none => throw unavailable
  | some (stamp, random) => do
    require (provenance.requestNonce.length ≤ 256 && 16 ≤ random.length) unavailable
    let tenant ← s.dir.tenant (some cfg.tenantId)
    let agent ← s.dir.agent (some cfg.tenantId) (some intent.agentId)
    let grant ← boundGrant s.dir r.grant cfg.tenantId provenance.authority intent.agentId agent
    let deadline := originalDeadline stamp grant
    require (provenance.authorizationExpiresAt == deadline && decide (r.deadline < deadline))
      unavailable
    let principal := agentPrincipal cfg.tenantId tenant intent.agentId agent grant
      (min validUntil deadline) "" ""
    require (principal.binding == provenance.authority &&
      agent.publicKeyHex == provenance.signerPublicKeyHex) unavailable
    require ((t.identities.lookup intent.agentId).any fun i =>
      !i.revoked && i.publicKeyHex == agent.publicKeyHex) unavailable
    current s.dir (principal :: s.minted) r.current principal
    return (principal, deadline)

/-- The clock readings of one lifetime check. -/
structure LifetimeReads where
  current : Reads
  derive : DeriveReads

/-- `_assert_queued_lifetime`: the rows still give the context that is held. -/
def assertQueuedLifetime (cfg : Config) (s : Authority.State) (t : Tenant)
    (context : QueuedAuthority) (r : LifetimeReads) : Except Fault Unit := do
  require (context.storeId == cfg.storeId)
    (.authorityDenied "unverified or inactive queued intent context")
  current s.dir s.minted r.current context.principal
  let derived ← derive cfg s t context.intent context.principal.validUntil r.derive
  require (derived == (context.principal, context.originalDeadline))
    (.authorityDenied "queued admission scope or lifetime changed")

/-- What the operator has configured for the action of a task, at one moment. -/
structure Setup where
  /-- The capability of the action; `none` when a protocol adapter refuses it. -/
  capability : Option String
  /-- The operator's cost schedule. -/
  cost : Option Cost
  /-- `resolve_queued_target`. -/
  target : Option Descriptor
  /-- The declarative rules. -/
  rule : Decision
  /-- The verdict of the policy engine. -/
  policy : Decision

/-- The plan of a queued action. -/
structure Plan where
  ownerId : String
  intentSha256 : String
  submission : Submission
  capability : String
  cost : Cost
  target : Descriptor
  targetConfigurationSha256 : String
  originalAuthorizationExpiresAt : Time
  resultLimitBytes : ℕ
  approvalRequiredNow : Bool
  deriving DecidableEq

/-- `_plan`: the action as it would run now, if it is still the accepted one. -/
def plan (cfg : Config) (s : Authority.State) (context : QueuedAuthority) (setup : Setup)
    (r : Reads) : Except Fault Plan := do
  let changed : Fault :=
    .authorityDenied "queued intent action, target, cost or current policy changed"
  let intent := context.intent
  let provenance := intent.record.provenance
  match setup.capability, setup.cost, setup.target with
  | some capability, some cost, some target => do
    authorize s.dir s.minted r context.principal capability
      (some intent.record.submission.targetId)
    require (capability == provenance.capability && cost == provenance.operatorCost) changed
    let digest := cfg.contract.descriptorSha256 target
    require (digest == provenance.targetConfigurationSha256) changed
    require setup.rule.allowed changed
    return { ownerId := intent.ownerId, intentSha256 := intent.intentSha256
             submission := intent.record.submission, capability, cost, target
             targetConfigurationSha256 := digest
             originalAuthorizationExpiresAt := context.originalDeadline
             resultLimitBytes := intent.resultLimitBytes
             approvalRequiredNow := setup.rule.approvalRequired }
  | _, _, _ => throw changed

/-- The clock readings of one dispatch check. -/
structure CheckReads where
  lifetime : LifetimeReads
  authorize : Reads

/-- `_current`: everything a dispatch checks before it acts. -/
def currentDispatch (cfg : Config) (s : Authority.State) (t : Tenant) (context : QueuedAuthority)
    (refs : Refs) (setup : Setup) (r : CheckReads) : Except Fault (Tenant.History × Plan) := do
  assertQueuedLifetime cfg s t context r.lifetime
  let h ← t.loadAdmitted cfg refs
  require (h.intent == context.intent)
    (.authorityDenied "admitted intent changed under execution guard")
  let p ← plan cfg s context setup r.authorize
  require (p.target.kind == destinationKind)
    (.authorityDenied "explicit queued-only destination required")
  require (setup.policy.allowed && (!setup.policy.approvalRequired || h.link.approvalRequired))
    (.authorityDenied "current policy requires an admission-scoped consumed approval")
  return (h, p)

/-- `_guard_admitted`: the context a dispatch holds while it has the directory's lock. -/
def guardAdmitted (cfg : Config) (s : Authority.State) (t : Tenant) (refs : Refs) (now : Time)
    (r : DeriveReads) : Except Fault QueuedAuthority := do
  let h ← t.loadAdmitted cfg refs
  let (principal, deadline) ← derive cfg s t h.intent (now + min 30 cfg.deadlineSeconds) r
  return ⟨h.intent, principal, cfg.storeId, deadline⟩

/-- `_guard_queued_intent`: the context of a first admission, for a task that is still new. -/
def guardQueuedIntent (cfg : Config) (s : Authority.State) (t : Tenant) (key : TaskKey)
    (intentSha256 : String) (now : Time) (r : DeriveReads) : Except Fault QueuedAuthority := do
  let (intent, initial, current) ← t.loadImmutable cfg key intentSha256
  require (current == initial)
    (.authorityDenied "retained queued intent integrity or ownership unavailable")
  let (principal, deadline) ← derive cfg s t intent (now + 30) r
  return ⟨intent, principal, cfg.storeId, deadline⟩

/-! ### What a binding depends on -/

variable {d : Directory} {cfg : Config} {s : Authority.State} {t : Tenant} {r : DeriveReads}

/-- Lifetime and request proof do not matter for what a principal depends on. -/
theorem dependsOn_binding {p : Principal} {k : RowKey} {n : ℕ} :
    p.binding.DependsOn d k n ↔ p.DependsOn d k n := by
  constructor
  · intro h
    cases h <;> constructor <;> assumption
  · intro h
    cases h <;> constructor <;> assumption

theorem anchored_binding {p : Principal} (h : Anchored d p) : Anchored d p.binding :=
  ⟨fun k n hdep => h.reached k n (dependsOn_binding.mp hdep), h.granted⟩

/-! ### What a derivation establishes -/

/-- The accepted lifetime of an intent: at most 300 seconds from the nonce of its request, and
no longer than the delegation it was made under. -/
structure Bounded (cfg : Config) (d : Directory) (provenance : Provenance) : Prop where
  stamped : ∃ stamp random, splitNonce cfg.authority provenance.requestNonce =
    some (stamp, random) ∧ provenance.authorizationExpiresAt ≤ stamp + 300
  granted : provenance.authority.kind = .delegatedHuman → ∃ row,
    d.delegation (some cfg.tenantId) provenance.authority.delegationId = some row ∧
      provenance.authorizationExpiresAt ≤ row.expiresAt

/-- The terms of a delegation never change, so the bound stays. -/
theorem Bounded.evolves {d' : Directory} {provenance : Provenance} (h : Bounded cfg d provenance)
    (he : d.Evolves d') : Bounded cfg d' provenance := by
  refine ⟨h.stamped, fun hk => ?_⟩
  obtain ⟨row, hrow, hle⟩ := h.granted hk
  obtain ⟨row', hrow', -, hterms⟩ := he.delegation hrow
  have hexpires : row'.expiresAt = row.expiresAt := congrArg GrantTerms.expiresAt hterms
  exact ⟨row', hrow', hexpires ▸ hle⟩

/-- What a derivation found. -/
structure DeriveOk (cfg : Config) (s : Authority.State) (intent : StoredIntent)
    (r : DeriveReads) (principal : Principal) (deadline : Time) : Prop where
  minted : ∃ grantId validUntil, derivePrincipal s.dir r.grant cfg.tenantId intent.agentId grantId
    validUntil = .ok principal
  binding : principal.binding = intent.record.provenance.authority
  accepted : current s.dir (principal :: s.minted) r.current principal = .ok ()
  expiry : intent.record.provenance.authorizationExpiresAt = deadline
  bounded : Bounded cfg s.dir intent.record.provenance

theorem boundGrant_eq_ok {now : Time} {tenantId agentId : String} {b : Binding} {agent : AgentRow}
    {grant : Option (String × DelegationRow)}
    (h : boundGrant d now tenantId b agentId agent = .ok grant) :
    (∃ grantId, optionalGrant d now tenantId grantId agentId agent = .ok grant) ∧
      (b.kind = .delegatedHuman → ∃ g row, grant = some (g, row) ∧
        d.delegation (some tenantId) b.delegationId = some row) := by
  unfold boundGrant at h
  split at h
  case isTrue hk =>
    split at h
    case h_1 => cases h
    case h_2 g hg =>
      refine ⟨⟨some g, h⟩, fun _ => ?_⟩
      rcases optionalGrant_eq_ok.mp h with ⟨hnone, -⟩ | ⟨_, row, hsome, rfl, hrow⟩
      · cases hnone
      · cases hsome
        exact ⟨g, row, rfl, hg ▸ (Directory.GrantOk.of_grant hrow).found⟩
  case isFalse hk =>
    rw [← Except.ok.inj h]
    exact ⟨⟨none, rfl⟩, fun hk' => absurd hk' hk⟩

theorem DeriveOk.of_derive {intent : StoredIntent} {validUntil : Time} {principal : Principal}
    {deadline : Time} (h : derive cfg s t intent validUntil r = .ok (principal, deadline)) :
    DeriveOk cfg s intent r principal deadline := by
  simp only [derive] at h
  split at h
  case h_1 => simp at h
  case h_2 stamp random hnonce =>
    simp only [bind_eq_ok, require_eq_ok, Bool.and_eq_true, beq_iff_eq,
      pure_eq_ok, Prod.mk.injEq] at h
    obtain ⟨-, -, tenant, ht, agent, ha, grant, hg, -, ⟨hexpiry, -⟩, -, ⟨hbinding, -⟩, -, -, ⟨⟩,
      hcurrent, rfl, rfl⟩ := h
    obtain ⟨⟨grantId, hoptional⟩, hdelegated⟩ := boundGrant_eq_ok hg
    refine ⟨⟨grantId, min validUntil (originalDeadline stamp grant), ?_⟩, hbinding, hcurrent,
      hexpiry, ⟨stamp, random, hnonce, ?_⟩, fun hk => ?_⟩
    · simp only [derivePrincipal, bind_eq_ok, pure_eq_ok]
      exact ⟨tenant, ht, agent, ha, grant, hoptional, rfl⟩
    · rw [hexpiry]
      unfold originalDeadline
      split
      · exact min_le_left _ _
      · exact le_rfl
    · obtain ⟨g, row, rfl, hrow⟩ := hdelegated hk
      refine ⟨row, hrow, ?_⟩
      rw [hexpiry]
      exact min_le_right _ _

/-- **A derived context finds every row the accepted binding depends on at its recorded
revision.** -/
theorem revision_of_derive {intent : StoredIntent} {principal : Principal} {deadline : Time}
    {k : RowKey} {n : ℕ} (h : DeriveOk cfg s intent r principal deadline)
    (hdep : intent.record.provenance.authority.DependsOn s.dir k n) :
    s.dir.revisionOf k = some n := by
  rw [← h.binding] at hdep
  exact current_revision h.accepted (dependsOn_binding.mp hdep)

/-- What a guard holds: the admitted intent, and a context derived for it. -/
structure GuardOk (cfg : Config) (s : Authority.State) (t : Tenant) (refs : Refs)
    (r : DeriveReads) (context : QueuedAuthority) : Prop where
  admitted : ∃ h : Tenant.History, t.HistoryOk cfg refs h ∧ h.intent = context.intent
  derived : DeriveOk cfg s context.intent r context.principal context.originalDeadline

variable {context : QueuedAuthority}

theorem GuardOk.of_guardAdmitted {refs : Refs} {now : Time}
    (h : guardAdmitted cfg s t refs now r = .ok context) : GuardOk cfg s t refs r context := by
  simp only [guardAdmitted, bind_eq_ok, pure_eq_ok, Prod.exists] at h
  obtain ⟨history, hload, principal, deadline, hderive, rfl⟩ := h
  exact ⟨⟨history, (Tenant.loadAdmitted_eq_ok hload).1, rfl⟩, .of_derive hderive⟩

theorem derived_of_lifetime {r : LifetimeReads} {u : Unit}
    (h : assertQueuedLifetime cfg s t context r = .ok u) :
    DeriveOk cfg s context.intent r.derive context.principal context.originalDeadline := by
  simp only [assertQueuedLifetime, bind_eq_ok, require_eq_ok, beq_iff_eq] at h
  obtain ⟨-, -, -, -, derived, hderive, rfl⟩ := h
  exact .of_derive hderive

/-- What a passed dispatch check found. -/
structure DispatchOk (cfg : Config) (s : Authority.State) (t : Tenant)
    (context : QueuedAuthority) (refs : Refs) (h : Tenant.History) (p : Plan) : Prop where
  derived : ∃ r, DeriveOk cfg s context.intent r context.principal context.originalDeadline
  history : t.HistoryOk cfg refs h
  unknown : h.operation.state = .unknown
  intent : h.intent = context.intent
  target : p.target.kind = destinationKind
  submission : p.submission = context.intent.record.submission
  configuration : p.targetConfigurationSha256 = cfg.contract.descriptorSha256 p.target

/-- A plan keeps the submission, and has the digest of its own target. -/
theorem plan_eq_ok {setup : Setup} {r : Reads} {p : Plan} (h : plan cfg s context setup r = .ok p) :
    p.submission = context.intent.record.submission ∧
      p.targetConfigurationSha256 = cfg.contract.descriptorSha256 p.target := by
  simp only [plan] at h
  split at h
  case h_1 =>
    simp only [bind_eq_ok, pure_eq_ok] at h
    obtain ⟨-, -, -, -, -, -, -, -, rfl⟩ := h
    exact ⟨rfl, rfl⟩
  case h_2 => simp at h

theorem DispatchOk.of_currentDispatch {refs : Refs} {setup : Setup} {r : CheckReads}
    {h : Tenant.History} {p : Plan} (hh : currentDispatch cfg s t context refs setup r = .ok
    (h, p)) : DispatchOk cfg s t context refs h p := by
  simp only [currentDispatch, bind_eq_ok, require_eq_ok, beq_iff_eq, pure_eq_ok,
    Prod.mk.injEq] at hh
  obtain ⟨⟨⟩, hlifetime, h', hload, -, hintent, p', hplan, -, htarget, -, -, rfl, rfl⟩ := hh
  obtain ⟨hhistory, hunknown⟩ := Tenant.loadAdmitted_eq_ok hload
  obtain ⟨hsubmission, hconfiguration⟩ := plan_eq_ok hplan
  exact ⟨⟨r.lifetime.derive, derived_of_lifetime hlifetime⟩, hhistory, hunknown, hintent, htarget,
    hsubmission, hconfiguration⟩

end AgentBridge.Queued
