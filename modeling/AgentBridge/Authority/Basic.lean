import AgentBridge.Basic

/-!
# The authority directory

Tables, principals and checks of `AuthorityDirectory`. Every enrollment row carries a
revision; a principal records the revisions of the rows it was derived from, and
`current` compares the recorded values with the rows of the present state.

The seal of a principal is a keyed hash under a key that never leaves the process. It is
modelled as membership in the list of contexts the directory has sealed.
-/

namespace AgentBridge

open Except

namespace Authority

/-- Tenant roles (`_ROLES`). -/
inductive Role
  | tenantAdmin
  | tenantOperator
  | tenantViewer
  deriving DecidableEq, Repr

/-- Principal kinds. -/
inductive Kind
  | platformAdmin
  | member (role : Role)
  | machine
  | delegatedHuman
  deriving DecidableEq, Repr

/-- What every enrollment row carries; a tenant or platform-admin row has nothing else. -/
structure Enrollment where
  revision : ℕ
  active : Bool
  deriving DecidableEq, Repr

/-- A row of `authority_members`. -/
structure MemberRow extends Enrollment where
  role : Role
  capabilities : List String
  targets : List String
  deriving DecidableEq, Repr

/-- A row of `authority_agents`. -/
structure AgentRow extends Enrollment where
  publicKeyHex : String
  capabilities : List String
  targets : List String
  deriving DecidableEq, Repr

/-- The columns of `authority_delegations` that no statement updates. -/
structure GrantTerms where
  agentId : String
  agentRevision : ℕ
  userIssuer : String
  userSubject : String
  userRevision : ℕ
  grantorIssuer : String
  grantorSubject : String
  grantorKind : Kind
  grantorRevision : ℕ
  capabilities : List String
  targets : List String
  notBefore : Time
  expiresAt : Time
  tenantRevision : ℕ
  deriving DecidableEq, Repr

/-- A row of `authority_delegations`. -/
structure DelegationRow extends Enrollment, GrantTerms where
  deriving DecidableEq, Repr

/-- The authority database. -/
structure Directory where
  tenants : Table String Enrollment := ∅
  platformAdmins : Table (String × String) Enrollment := ∅
  members : Table (String × String × String) MemberRow := ∅
  agents : Table (String × String) AgentRow := ∅
  delegations : Table (String × String) DelegationRow := ∅
  /-- Claimed nonces with the time of the claim, by tenant, agent and nonce. -/
  replays : Table (String × String × String) Time := ∅

/-- A principal context without its seal. -/
structure Principal where
  tenantId : Option String
  subject : String
  issuer : String
  kind : Kind
  revision : ℕ
  tenantRevision : ℕ := 0
  agentId : Option String := none
  agentRevision : ℕ := 0
  delegationId : Option String := none
  delegationRevision : ℕ := 0
  userRevision : ℕ := 0
  grantorRevision : ℕ := 0
  validUntil : Time := 0
  capabilities : List String := []
  targets : List String := []
  requestBodySha256 : String := ""
  requestNonce : String := ""
  deriving DecidableEq, Repr

/-- Two successive clock readings inside one call. -/
structure Reads where
  first : Time
  second : Time
  deriving DecidableEq, Repr

/-! ### Row lookups

A selector that is `NULL` matches no row, hence the optional keys. -/

/-- Return the row if it exists and is active, or deny. -/
def fetchActive {R : Type} (active : R → Bool) (row : Option R) (message : String) :
    Except Fault R :=
  match row with
  | some r => if active r then .ok r else .error (.authorityDenied message)
  | none => .error (.authorityDenied message)

@[simp] theorem fetchActive_eq_ok {R : Type} {active : R → Bool} {row : Option R}
    {message : String} {r : R} :
    fetchActive active row message = .ok r ↔ row = some r ∧ active r = true := by
  cases row with
  | none => simp [fetchActive]
  | some r' =>
    simp only [fetchActive]
    split <;> simp_all
    · rintro rfl; assumption
    · rintro rfl; assumption

namespace Directory

variable (d : Directory)

/-- `_tenant`. -/
def tenant (tenantId : Option String) : Except Fault Enrollment :=
  fetchActive Enrollment.active (tenantId.bind fun t => d.tenants.lookup t)
    "tenant unavailable"

/-- `_platform`. -/
def platform (issuer subject : String) : Except Fault Enrollment :=
  fetchActive Enrollment.active (d.platformAdmins.lookup (issuer, subject))
    "platform authority unavailable"

/-- `_member`. -/
def member (tenantId : Option String) (issuer subject : String) : Except Fault MemberRow :=
  fetchActive (fun r => r.active) (tenantId.bind fun t => d.members.lookup (t, issuer, subject))
    "tenant membership unavailable"

/-- `_agent`. -/
def agent (tenantId agentId : Option String) : Except Fault AgentRow :=
  fetchActive (fun r => r.active)
    (tenantId.bind fun t => agentId.bind fun a => d.agents.lookup (t, a))
    "agent enrollment unavailable"

/-- The row of a delegation, active or not. -/
def delegation (tenantId grantId : Option String) : Option DelegationRow :=
  tenantId.bind fun t => grantId.bind fun g => d.delegations.lookup (t, g)

/-- The grantor row a delegation was made under. -/
def grantor (tenantId : Option String) (terms : GrantTerms) : Except Fault Enrollment := do
  if terms.grantorKind = .platformAdmin then
    d.platform terms.grantorIssuer terms.grantorSubject
  else
    let row ← d.member tenantId terms.grantorIssuer terms.grantorSubject
    require (row.role == .tenantAdmin)
      (.authorityDenied "delegation grantor no longer an administrator")
    return row.toEnrollment

/-- `_grant`: the delegation is active, in its lifetime, and every row it was made under
still has the revision it recorded. -/
def grant (now : Time) (tenantId grantId agentId : Option String) (agent : AgentRow) :
    Except Fault DelegationRow := do
  match d.delegation tenantId grantId with
  | none => throw (.authorityDenied "delegation unavailable or stale")
  | some row =>
    require (row.active && row.notBefore ≤ now && now < row.expiresAt &&
        some row.agentId == agentId && row.agentRevision == agent.revision)
      (.authorityDenied "delegation unavailable or stale")
    let tenant ← d.tenant tenantId
    require (row.tenantRevision == tenant.revision)
      (.authorityDenied "delegation tenant revision changed")
    let user ← d.member tenantId row.userIssuer row.userSubject
    let grantor ← d.grantor tenantId row.toGrantTerms
    require (user.revision == row.userRevision && grantor.revision == row.grantorRevision)
      (.authorityDenied "delegation enrollment revision changed")
    return row

end Directory

/-! ### Principal checks -/

/-- `_verify_seal`, given the contexts the directory has sealed. -/
def verifySeal (minted : List Principal) (now : Time) (p : Principal) : Except Fault Unit :=
  require (decide (p ∈ minted) && decide (now < p.validUntil))
    (.authorityDenied "unverified, altered or expired principal context")

/-- The part of `_current` for a principal bound to an agent. -/
def currentAgent (d : Directory) (now : Time) (p : Principal) : Except Fault Unit := do
  let row ← d.agent p.tenantId p.agentId
  require (row.revision == p.agentRevision) (.authorityDenied "agent authority changed")
  if p.kind = .delegatedHuman then
    let row ← d.grant now p.tenantId p.delegationId p.agentId row
    require (row.revision == p.delegationRevision)
      (.authorityDenied "delegation revision changed")

/-- `_current`: the sealed principal still matches every row it depends on. The seal is
checked at the first clock reading, a delegation at the second. -/
def current (d : Directory) (minted : List Principal) (r : Reads) (p : Principal) :
    Except Fault Unit := do
  verifySeal minted r.first p
  match p.kind with
  | .platformAdmin =>
    let row ← d.platform p.issuer p.subject
    require (p.tenantId.isNone && row.revision == p.revision)
      (.authorityDenied "platform authority changed")
  | .member role =>
    let tenant ← d.tenant p.tenantId
    require (tenant.revision == p.tenantRevision) (.authorityDenied "tenant authority changed")
    let row ← d.member p.tenantId p.issuer p.subject
    require (row.role == role && row.revision == p.revision)
      (.authorityDenied "membership authority changed")
  | .machine | .delegatedHuman =>
    let tenant ← d.tenant p.tenantId
    require (tenant.revision == p.tenantRevision) (.authorityDenied "tenant authority changed")
    currentAgent d r.second p

/-- `_admin`: a platform administrator, or the administrator of the named tenant. -/
def admin (d : Directory) (minted : List Principal) (r : Reads) (actor : Principal)
    (tenantId : Option String) : Except Fault Unit := do
  current d minted r actor
  if actor.kind = .platformAdmin then
    return ()
  require (tenantId.isSome && actor.kind == .member .tenantAdmin && actor.tenantId == tenantId)
    (.authorityDenied "appropriately scoped administrator required")

/-- `authorize`: a current agent principal acting inside its scopes. -/
def authorize (d : Directory) (minted : List Principal) (r : Reads) (p : Principal)
    (capability : String) (targetId : Option String) : Except Fault Unit := do
  current d minted r p
  require ((p.kind == .machine || p.kind == .delegatedHuman) &&
      p.capabilities.contains capability && targetId.all fun t => p.targets.contains t)
    (.authorityDenied "action outside authenticated principal scope")

/-! ### What the checks establish -/

namespace Directory

variable {d : Directory}

variable {tenantId : Option String} {row : Enrollment} {issuer subject t : String}

theorem platform_eq_ok :
    d.platform issuer subject = .ok row ↔
      d.platformAdmins.lookup (issuer, subject) = some row ∧ row.active = true := by
  simp [platform]

@[simp] theorem tenant_some_eq_ok :
    d.tenant (some t) = .ok row ↔ d.tenants.lookup t = some row ∧ row.active = true := by
  simp [tenant]

@[simp] theorem member_some_eq_ok {row : MemberRow} :
    d.member (some t) issuer subject = .ok row ↔
      d.members.lookup (t, issuer, subject) = some row ∧ row.active = true := by
  simp [member]

@[simp] theorem agent_some_eq_ok {a : String} {row : AgentRow} :
    d.agent (some t) (some a) = .ok row ↔
      d.agents.lookup (t, a) = some row ∧ row.active = true := by
  simp [agent]

theorem delegation_eq_some {grantId : Option String} {row : DelegationRow} :
    d.delegation tenantId grantId = some row ↔
      ∃ t g, tenantId = some t ∧ grantId = some g ∧ d.delegations.lookup (t, g) = some row := by
  cases tenantId <;> cases grantId <;> simp [delegation]

/-- The active row of the grantor: a platform administrator, or an administrator of the
tenant. -/
theorem grantor_eq_ok {terms : GrantTerms} :
    d.grantor tenantId terms = .ok row ↔
      (terms.grantorKind = .platformAdmin ∧
        d.platform terms.grantorIssuer terms.grantorSubject = .ok row) ∨
      (terms.grantorKind ≠ .platformAdmin ∧ ∃ m,
        d.member tenantId terms.grantorIssuer terms.grantorSubject = .ok m ∧
        m.role = .tenantAdmin ∧ m.toEnrollment = row) := by
  by_cases h : terms.grantorKind = .platformAdmin <;>
    simp [grantor, h, -bind_pure_comp]

/-- What an accepted delegation satisfies. -/
structure GrantOk (d : Directory) (now : Time) (tenantId grantId agentId : Option String)
    (agent : AgentRow) (row : DelegationRow) : Prop where
  found : d.delegation tenantId grantId = some row
  active : row.active = true
  started : row.notBefore ≤ now
  unexpired : now < row.expiresAt
  agentId_eq : agentId = some row.agentId
  agentRevision_eq : row.agentRevision = agent.revision
  tenant_ok : ∃ tr, d.tenant tenantId = .ok tr ∧ row.tenantRevision = tr.revision
  user_ok : ∃ u, d.member tenantId row.userIssuer row.userSubject = .ok u ∧
    u.revision = row.userRevision
  grantor_ok : ∃ g, d.grantor tenantId row.toGrantTerms = .ok g ∧
    g.revision = row.grantorRevision

theorem GrantOk.of_grant {now : Time} {grantId agentId : Option String} {agent : AgentRow}
    {row : DelegationRow} (h : d.grant now tenantId grantId agentId agent = .ok row) :
    GrantOk d now tenantId grantId agentId agent row := by
  unfold grant at h
  split at h
  case h_1 => simp at h
  case h_2 found =>
    simp only [bind_eq_ok, require_eq_ok, pure_eq_ok, Bool.and_eq_true,
      decide_eq_true_eq, beq_iff_eq] at h
    obtain ⟨-, ⟨⟨⟨⟨hact, hnb⟩, hexp⟩, hag⟩, hrev⟩, tr, htr, -, htrev, u, hu, g, hg, -,
      ⟨hurev, hgrev⟩, rfl⟩ := h
    exact ⟨found, hact, hnb, hexp, hag.symm, hrev, ⟨tr, htr, htrev⟩, ⟨u, hu, hurev⟩,
      ⟨g, hg, hgrev⟩⟩

end Directory

variable {minted : List Principal} {p : Principal} {d : Directory} {r : Reads}

theorem verifySeal_eq_ok {now : Time} {u : Unit} :
    verifySeal minted now p = .ok u ↔ p ∈ minted ∧ now < p.validUntil := by
  simp [verifySeal]

/-- An accepted principal bound to a tenant finds the tenant at its recorded revision. -/
theorem tenant_of_current (h : current d minted r p = .ok ()) (hk : p.kind ≠ .platformAdmin) :
    ∃ tr, d.tenant p.tenantId = .ok tr ∧ tr.revision = p.tenantRevision := by
  unfold current at h
  cases hkind : p.kind with
  | platformAdmin => exact absurd hkind hk
  | member role | machine | delegatedHuman =>
    simp only [hkind, bind_eq_ok, require_eq_ok, beq_iff_eq] at h
    obtain ⟨-, -, tr, htr, -, hrev, -⟩ := h
    exact ⟨tr, htr, hrev⟩

theorem mem_of_current (h : current d minted r p = .ok ()) :
    p ∈ minted ∧ r.first < p.validUntil := by
  unfold current at h
  simp only [bind_eq_ok] at h
  obtain ⟨u, hseal, -⟩ := h
  exact verifySeal_eq_ok.mp hseal

theorem platform_of_current (h : current d minted r p = .ok ()) (hk : p.kind = .platformAdmin) :
    ∃ row, d.platform p.issuer p.subject = .ok row ∧ row.revision = p.revision := by
  unfold current at h
  simp only [hk, bind_eq_ok, require_eq_ok, Bool.and_eq_true, beq_iff_eq] at h
  obtain ⟨-, -, row, hrow, -, hrev⟩ := h
  exact ⟨row, hrow, hrev⟩

theorem member_of_current {role : Role} (h : current d minted r p = .ok ())
    (hk : p.kind = .member role) :
    ∃ row, d.member p.tenantId p.issuer p.subject = .ok row ∧ row.role = role ∧
      row.revision = p.revision := by
  unfold current at h
  simp only [hk, bind_eq_ok, require_eq_ok, Bool.and_eq_true, beq_iff_eq] at h
  obtain ⟨-, -, -, -, -, -, row, hrow, hrole, hrev⟩ := h
  exact ⟨row, hrow, hrole, hrev⟩

theorem agent_of_current (h : current d minted r p = .ok ())
    (hk : p.kind = .machine ∨ p.kind = .delegatedHuman) :
    ∃ row, d.agent p.tenantId p.agentId = .ok row ∧ row.revision = p.agentRevision := by
  unfold current currentAgent at h
  rcases hk with hk | hk <;>
  · simp only [hk, bind_eq_ok, require_eq_ok, beq_iff_eq] at h
    obtain ⟨-, -, -, -, -, -, row, hrow, -, hrev, -⟩ := h
    exact ⟨row, hrow, hrev⟩

/-- An accepted delegated principal passes the check of its delegation. -/
theorem grant_of_current (h : current d minted r p = .ok ()) (hk : p.kind = .delegatedHuman) :
    ∃ agent row, d.agent p.tenantId p.agentId = .ok agent ∧
      Directory.GrantOk d r.second p.tenantId p.delegationId p.agentId agent row ∧
      row.revision = p.delegationRevision := by
  unfold current currentAgent at h
  simp only [hk, bind_eq_ok, require_eq_ok, beq_iff_eq, if_true] at h
  obtain ⟨-, -, -, -, -, -, agent, hagent, -, -, row, hrow, hrev⟩ := h
  exact ⟨agent, row, hagent, Directory.GrantOk.of_grant hrow, hrev⟩

end Authority

end AgentBridge
