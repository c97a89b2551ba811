import AgentBridge.Authority.Evolution

/-!
# Revocation is permanent

A principal records the revision of every row it was derived from; a delegated one also
depends, through the terms of its grant, on the rows of the delegating user and of the
grantor. Since a row that is touched never returns to an old revision, a principal that
depends on it is refused from then on.

* `current_denied_of_touched` : **once a row is touched, every principal already minted that
  depends on it is refused for ever**.
-/

namespace AgentBridge

open Except

namespace Authority

/-- The row of the grantor of a delegation. -/
def GrantTerms.grantorKey (tenantId : String) (g : GrantTerms) : RowKey :=
  if g.grantorKind = .platformAdmin then .platform g.grantorIssuer g.grantorSubject
  else .member tenantId g.grantorIssuer g.grantorSubject

/-- The principal depends on this row, which it recorded at this revision. -/
inductive Principal.DependsOn (d : Directory) (p : Principal) : RowKey → ℕ → Prop
  | platform (hk : p.kind = .platformAdmin) :
      DependsOn d p (.platform p.issuer p.subject) p.revision
  | tenant {t : String} (hk : p.kind ≠ .platformAdmin) (ht : p.tenantId = some t) :
      DependsOn d p (.tenant t) p.tenantRevision
  | member {t : String} {role : Role} (hk : p.kind = .member role) (ht : p.tenantId = some t) :
      DependsOn d p (.member t p.issuer p.subject) p.revision
  | agent {t a : String} (hk : p.kind = .machine ∨ p.kind = .delegatedHuman)
      (ht : p.tenantId = some t) (ha : p.agentId = some a) :
      DependsOn d p (.agent t a) p.agentRevision
  | grant {t g : String} (hk : p.kind = .delegatedHuman) (ht : p.tenantId = some t)
      (hg : p.delegationId = some g) : DependsOn d p (.grant t g) p.delegationRevision
  | user {t : String} {row : DelegationRow} (hk : p.kind = .delegatedHuman)
      (ht : p.tenantId = some t) (hrow : d.delegation p.tenantId p.delegationId = some row) :
      DependsOn d p (.member t row.userIssuer row.userSubject) row.userRevision
  | grantor {t : String} {row : DelegationRow} (hk : p.kind = .delegatedHuman)
      (ht : p.tenantId = some t) (hrow : d.delegation p.tenantId p.delegationId = some row) :
      DependsOn d p (row.grantorKey t) row.grantorRevision

/-! ### Accepted rows sit at the recorded revision -/

namespace Directory

variable {d : Directory}

variable {t : String} {row : Enrollment} {now : Time} {agentId : Option String} {agent : AgentRow}

theorem revisionOf_tenant (h : d.tenant (some t) = .ok row) :
    d.revisionOf (.tenant t) = some row.revision := by
  simp [revisionOf, (tenant_some_eq_ok.mp h).1]

theorem revisionOf_platform {i s : String} (h : d.platform i s = .ok row) :
    d.revisionOf (.platform i s) = some row.revision := by
  simp [revisionOf, (platform_eq_ok.mp h).1]

theorem revisionOf_member {i s : String} {row : MemberRow} (h : d.member (some t) i s = .ok row) :
    d.revisionOf (.member t i s) = some row.revision := by
  simp [revisionOf, (member_some_eq_ok.mp h).1]

theorem revisionOf_agent {a : String} {row : AgentRow} (h : d.agent (some t) (some a) = .ok row) :
    d.revisionOf (.agent t a) = some row.revision := by
  simp [revisionOf, (agent_some_eq_ok.mp h).1]

theorem revisionOf_grantor {g : GrantTerms} (h : d.grantor (some t) g = .ok row) :
    d.revisionOf (g.grantorKey t) = some row.revision := by
  rcases grantor_eq_ok.mp h with ⟨hk, hp⟩ | ⟨hk, m, hm, -, rfl⟩
  · simp only [GrantTerms.grantorKey, if_pos hk]
    exact revisionOf_platform hp
  · simp only [GrantTerms.grantorKey, if_neg hk]
    exact revisionOf_member hm

theorem GrantOk.revisionOf {g : String} {row : DelegationRow}
    (h : GrantOk d now (some t) (some g) agentId agent row) :
    d.revisionOf (.grant t g) = some row.revision := by
  obtain ⟨_, _, h₁, h₂, hrow⟩ := delegation_eq_some.mp h.found
  cases h₁
  cases h₂
  simp [Directory.revisionOf, hrow]

/-- An accepted delegation finds its user and its grantor at the recorded revisions. -/
theorem GrantOk.user_revision {g : Option String} {row : DelegationRow}
    (h : GrantOk d now (some t) g agentId agent row) :
    d.revisionOf (.member t row.userIssuer row.userSubject) = some row.userRevision := by
  obtain ⟨u, hu, hrev⟩ := h.user_ok
  exact hrev ▸ revisionOf_member hu

theorem GrantOk.grantor_revision {g : Option String} {row : DelegationRow}
    (h : GrantOk d now (some t) g agentId agent row) :
    d.revisionOf (row.grantorKey t) = some row.grantorRevision := by
  obtain ⟨u, hu, hrev⟩ := h.grantor_ok
  exact hrev ▸ revisionOf_grantor hu

end Directory

variable {d d' : Directory} {p : Principal} {k : RowKey} {n : ℕ} {grantId : Option String}

/-- **An accepted principal finds every row it depends on at the recorded revision.** -/
theorem current_revision {minted : List Principal} {r : Reads} (h : current d minted r p = .ok ())
    (hdep : p.DependsOn d k n) : d.revisionOf k = some n := by
  cases hdep with
  | platform hk =>
    obtain ⟨row, hrow, hrev⟩ := platform_of_current h hk
    exact hrev ▸ Directory.revisionOf_platform hrow
  | tenant hk ht =>
    obtain ⟨row, hrow, hrev⟩ := tenant_of_current h hk
    exact hrev ▸ Directory.revisionOf_tenant (ht ▸ hrow)
  | member hk ht =>
    obtain ⟨row, hrow, -, hrev⟩ := member_of_current h hk
    exact hrev ▸ Directory.revisionOf_member (ht ▸ hrow)
  | agent hk ht ha =>
    obtain ⟨row, hrow, hrev⟩ := agent_of_current h hk
    exact hrev ▸ Directory.revisionOf_agent (ht ▸ ha ▸ hrow)
  | grant hk ht hg =>
    obtain ⟨agent, row, -, hok, hrev⟩ := grant_of_current h hk
    exact hrev ▸ Directory.GrantOk.revisionOf (ht ▸ hg ▸ hok)
  | user hk ht hrow =>
    obtain ⟨agent, row', -, hok, -⟩ := grant_of_current h hk
    obtain rfl := Option.some.inj (hrow.symm.trans hok.found)
    exact Directory.GrantOk.user_revision (ht ▸ hok)
  | grantor hk ht hrow =>
    obtain ⟨agent, row', -, hok, -⟩ := grant_of_current h hk
    obtain rfl := Option.some.inj (hrow.symm.trans hok.found)
    exact Directory.GrantOk.grantor_revision (ht ▸ hok)

/-! ### Recorded revisions never lie ahead of the rows -/

/-- Every row the principal depends on exists and has reached the recorded revision. -/
structure Anchored (d : Directory) (p : Principal) : Prop where
  reached : ∀ k n, p.DependsOn d k n → ∃ m, d.revisionOf k = some m ∧ n ≤ m
  granted : p.kind = .delegatedHuman → ∃ row, d.delegation p.tenantId p.delegationId = some row

theorem Directory.Evolves.delegation (h : d.Evolves d') {tenantId : Option String}
    {row : DelegationRow} (hrow : d.delegation tenantId grantId = some row) :
    ∃ row', d'.delegation tenantId grantId = some row' ∧ DelegationRevised row row' := by
  obtain ⟨t, g, rfl, rfl, hrow⟩ := Directory.delegation_eq_some.mp hrow
  exact h.delegations _ _ hrow

theorem Principal.DependsOn.of_terms (h : p.DependsOn d k n)
    (hgrant : p.kind = .delegatedHuman → ∀ row, d.delegation p.tenantId p.delegationId = some row →
      ∃ row', d'.delegation p.tenantId p.delegationId = some row' ∧
        row'.toGrantTerms = row.toGrantTerms) : p.DependsOn d' k n := by
  cases h with
  | user hk ht hrow =>
    obtain ⟨row', hrow', hterms⟩ := hgrant hk _ hrow
    rw [← hterms]
    exact .user hk ht hrow'
  | grantor hk ht hrow =>
    obtain ⟨row', hrow', hterms⟩ := hgrant hk _ hrow
    rw [← hterms]
    exact .grantor hk ht hrow'
  | _ => constructor <;> assumption

theorem Principal.DependsOn.of_evolves (he : d.Evolves d') (hp : Anchored d p)
    (h : p.DependsOn d' k n) : p.DependsOn d k n := by
  -- the terms of a grant never change
  refine h.of_terms fun hk row' hrow' => ?_
  obtain ⟨row, hrow⟩ := hp.granted hk
  obtain ⟨row'', hrow'', -, hterms⟩ := he.delegation hrow
  obtain rfl := Option.some.inj (hrow'.symm.trans hrow'')
  exact ⟨row, hrow, hterms.symm⟩

theorem Principal.DependsOn.evolves (he : d.Evolves d') (h : p.DependsOn d k n) :
    p.DependsOn d' k n := by
  refine h.of_terms fun _ row hrow => ?_
  obtain ⟨row', hrow', -, hterms⟩ := he.delegation hrow
  exact ⟨row', hrow', hterms⟩

theorem Anchored.evolves (h : Anchored d p) (he : d.Evolves d') : Anchored d' p where
  reached k n hdep := by
    obtain ⟨m, hm, hnm⟩ := h.reached k n (.of_evolves he h hdep)
    obtain ⟨m', hm', hmm'⟩ := he.revisionOf_le hm
    exact ⟨m', hm', hnm.trans hmm'⟩
  granted hk := by
    obtain ⟨row, hrow⟩ := h.granted hk
    obtain ⟨row', hrow', -⟩ := he.delegation hrow
    exact ⟨row', hrow'⟩

/-! ### Minting -/

theorem optionalGrant_eq_ok {now : Time} {t : String} {a : String} {agent : AgentRow}
    {grant : Option (String × DelegationRow)} :
    optionalGrant d now t grantId a agent = .ok grant ↔
      (grantId = none ∧ grant = none) ∨
      ∃ g row, grantId = some g ∧ grant = some (g, row) ∧
        d.grant now (some t) (some g) (some a) agent = .ok row := by
  cases grantId with
  | none => simp [optionalGrant, @eq_comm _ none]
  | some g =>
    simp only [optionalGrant, bind_eq_ok, pure_eq_ok]
    constructor
    · rintro ⟨row, hrow, rfl⟩
      exact .inr ⟨g, row, rfl, rfl, hrow⟩
    · rintro (⟨h, -⟩ | ⟨_, row, h, rfl, hrow⟩)
      · cases h
      · cases h
        exact ⟨row, hrow, rfl⟩

theorem anchored_agentPrincipal {now : Time} {t a : String} {tenant : Enrollment} {agent : AgentRow}
    {grant : Option (String × DelegationRow)} {validUntil : Time} {sha nonce : String}
    (ht : d.tenant (some t) = .ok tenant) (ha : d.agent (some t) (some a) = .ok agent)
    (hg : optionalGrant d now t grantId a agent = .ok grant) :
    Anchored d (agentPrincipal t tenant a agent grant validUntil sha nonce) := by
  rcases optionalGrant_eq_ok.mp hg with ⟨-, rfl⟩ | ⟨g, row, -, rfl, hrow⟩
  · refine ⟨fun k n hdep => ?_, by simp [agentPrincipal]⟩
    cases hdep with
    | tenant hk h =>
      cases h
      exact ⟨_, Directory.revisionOf_tenant ht, le_rfl⟩
    | agent hk h h' =>
      cases h
      cases h'
      exact ⟨_, Directory.revisionOf_agent ha, le_rfl⟩
    | _ hk => simp [agentPrincipal] at hk
  · have hok := Directory.GrantOk.of_grant hrow
    refine ⟨fun k n hdep => ?_, fun _ => ⟨row, hok.found⟩⟩
    cases hdep with
    | tenant hk h =>
      cases h
      exact ⟨_, Directory.revisionOf_tenant ht, le_rfl⟩
    | agent hk h h' =>
      cases h
      cases h'
      exact ⟨_, Directory.revisionOf_agent ha, le_rfl⟩
    | grant hk h h' =>
      cases h
      cases h'
      exact ⟨_, hok.revisionOf, le_rfl⟩
    | user hk h hrow' =>
      cases h
      obtain rfl := Option.some.inj (hok.found.symm.trans hrow')
      exact ⟨_, hok.user_revision, le_rfl⟩
    | grantor hk h hrow' =>
      cases h
      obtain rfl := Option.some.inj (hok.found.symm.trans hrow')
      exact ⟨_, hok.grantor_revision, le_rfl⟩
    | _ hk => simp [agentPrincipal] at hk

theorem anchored_mintOperator {c : OperatorCall} (h : mintOperator d c = .ok p) : Anchored d p := by
  unfold mintOperator at h
  split at h
  · simp only [bind_eq_ok, pure_eq_ok] at h
    obtain ⟨row, hrow, rfl⟩ := h
    refine ⟨fun k n hdep => ?_, by simp⟩
    cases hdep with
    | platform hk => exact ⟨_, Directory.revisionOf_platform hrow, le_rfl⟩
    | _ hk => simp at hk
  · simp only [bind_eq_ok, pure_eq_ok] at h
    obtain ⟨tenant, htenant, row, hrow, rfl⟩ := h
    refine ⟨fun k n hdep => ?_, by simp⟩
    cases hdep with
    | tenant hk ht =>
      cases ht
      exact ⟨_, Directory.revisionOf_tenant htenant, le_rfl⟩
    | member hk ht =>
      cases ht
      exact ⟨_, Directory.revisionOf_member hrow, le_rfl⟩
    | _ hk => simp at hk

/-- A step seals only anchored contexts. -/
theorem exec_anchored {cfg : Config} {s s' : State} {e : Event} (h : exec cfg s e = .ok s')
    (hs : ∀ p ∈ s.minted, Anchored s.dir p) : ∀ p ∈ s'.minted, Anchored s'.dir p := by
  have he := exec_evolves h
  have hold : ∀ p ∈ s.minted, Anchored s'.dir p := fun p hp => (hs p hp).evolves he
  have hnew : ∀ q, Anchored s.dir q → ∀ p ∈ s.minted ++ [q], Anchored s'.dir p := by
    intro q hq p hp
    rcases List.mem_append.mp hp with hp | hp
    · exact hold p hp
    · cases List.mem_singleton.mp hp
      exact hq.evolves he
  cases outcome_of_exec h with
  | derive _ hd =>
    simp only [derivePrincipal, bind_eq_ok, pure_eq_ok] at hd
    obtain ⟨tenant, ht, agent, ha, grant, hg, rfl⟩ := hd
    exact hnew _ (anchored_agentPrincipal ht ha hg)
  | commitOperator _ _ hm => exact hnew _ (anchored_mintOperator hm)
  | commitAgent _ _ ha =>
    obtain ⟨tenant, agent, grant, ht, hag, hg, rfl⟩ :=
      (AuthenticateOk.of_authenticateAgent ha).rows
    exact hnew _ (anchored_agentPrincipal ht hag hg)
  | _ => exact hold

/-- In every state reached from a directory without contexts, every context is anchored. -/
theorem reachable_anchored {cfg : Config} {s₀ s : State} (h₀ : s₀.minted = [])
    (h : (system cfg).Reachable s₀ s) : ∀ p ∈ s.minted, Anchored s.dir p :=
  h.invariant (by simp [h₀]) fun _ _ _ hs hst => exec_anchored hst hs

/-! ### Revocation -/

/-- A principal that depends on a row below its present revision is refused. -/
theorem current_denied {minted : List Principal} {r : Reads} {m : ℕ} (hdep : p.DependsOn d k n)
    (hm : d.revisionOf k = some m) (hlt : n < m) :
    ∃ fault, current d minted r p = .error fault := by
  cases h : current d minted r p with
  | error fault => exact ⟨fault, rfl⟩
  | ok u =>
    have := current_revision h hdep
    rw [hm] at this
    cases this
    omega

/-- **Revocation is permanent.** Once an enrollment or a revocation commits that touches a
row a sealed principal depends on, the principal is refused in every later state, at any
clock reading and whatever is enrolled again. -/
theorem current_denied_of_touched (cfg : Config) {s₀ s s' s'' : State} (h₀ : s₀.minted = [])
    (hs : (system cfg).Reachable s₀ s) {p : Principal} (hp : p ∈ s.minted) {k : RowKey} {n : ℕ}
    (hdep : p.DependsOn s.dir k n) {e : Event} (hstep : (system cfg).step s e s')
    (htouch : e.action.touched = some k) (hlater : (system cfg).Reachable s' s'') (r : Reads) :
    ∃ fault, current s''.dir s''.minted r p = .error fault := by
  have hanchored := reachable_anchored h₀ hs p hp
  obtain ⟨m, hm, hnm⟩ := hanchored.reached k n hdep
  obtain ⟨m', hm', hlt⟩ := (exec_touched hstep htouch).higher m hm
  have hrun := reachable_evolves hlater
  obtain ⟨m'', hm'', hle⟩ := hrun.revisionOf_le hm'
  exact current_denied ((hdep.evolves (exec_evolves hstep)).evolves hrun) hm'' (by omega)

/-- The delegation of the sample deployment. -/
def sampleGrant : DelegationRow :=
  { revision := 1, active := true, agentId := "bot", agentRevision := 1,
    userIssuer := "https://idp.example", userSubject := "alice", userRevision := 1,
    grantorIssuer := "https://idp.example", grantorSubject := "root",
    grantorKind := .platformAdmin, grantorRevision := 1, capabilities := ["echo"],
    targets := ["t1"], notBefore := 100, expiresAt := 1000, tenantRevision := 1 }

/-- The delegating user is revoked. -/
def sampleRevoked : State :=
  LTS.attempt (exec sampleConfig) sampleState
    ⟨.revokeMember sampleRoot "acme" "https://idp.example" "alice", ⟨110, 110⟩⟩

/-- The delegating user is enrolled again, with the same role and scopes. -/
def sampleReenrolled : State :=
  LTS.attempt (exec sampleConfig) sampleRevoked
    ⟨.enrollMember sampleRoot "acme" "https://idp.example" "alice" .tenantOperator ["echo"] ["t1"],
      ⟨120, 120⟩⟩

/-- The delegated context of the sample deployment is accepted, until its user is revoked and
enrolled again. -/
theorem sample_context_denied_after_reenrollment :
    (current sampleState.dir sampleState.minted ⟨130, 130⟩ samplePrincipal).isOk = true ∧
    ∃ fault, current sampleReenrolled.dir sampleReenrolled.minted ⟨130, 130⟩ samplePrincipal =
      .error fault := by
  have hfacts :
      (current sampleState.dir sampleState.minted ⟨130, 130⟩ samplePrincipal).isOk = true ∧
      samplePrincipal ∈ sampleState.minted ∧
      sampleState.dir.delegation (some "acme") (some "grant-1") = some sampleGrant ∧
      (exec sampleConfig sampleState ⟨.revokeMember sampleRoot "acme" "https://idp.example" "alice",
        ⟨110, 110⟩⟩).isOk = true := by
    decide +kernel
  obtain ⟨hcur, hmem, hgrant, hrevoke⟩ := hfacts
  have hrun : (system sampleConfig).Reachable {} sampleState :=
    LTS.reachable_drive _ _ sampleEvents
  exact ⟨hcur, current_denied_of_touched sampleConfig rfl hrun hmem
    (.user (t := "acme") rfl rfl hgrant) (LTS.step_attempt hrevoke) rfl
    (LTS.reachable_attempt _ sampleRevoked _) _⟩

end Authority

end AgentBridge
