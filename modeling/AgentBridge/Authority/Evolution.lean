import AgentBridge.Authority.System

/-!
# What one directory operation can do

Rows are never deleted, and a row is rewritten only under a higher revision. This file
says so once, for every operation, and the results on revocation, delegation and replay
are derived from it.
-/

namespace AgentBridge

open Option

namespace Authority

open Except (bind_eq_ok pure_eq_ok)

/-- The name of an enrollment row. -/
inductive RowKey
  | tenant (tenantId : String)
  | platform (issuer subject : String)
  | member (tenantId issuer subject : String)
  | agent (tenantId agentId : String)
  | grant (tenantId grantId : String)
  deriving DecidableEq, Repr

/-- The row an enrollment or revocation rewrites. -/
def Action.touched : Action → Option RowKey
  | .setTenant _ tenantId _ => some (.tenant tenantId)
  | .enrollPlatformAdmin _ issuer subj => some (.platform issuer subj)
  | .revokePlatformAdmin _ issuer subj => some (.platform issuer subj)
  | .enrollMember _ tenantId issuer subj _ _ _ => some (.member tenantId issuer subj)
  | .revokeMember _ tenantId issuer subj => some (.member tenantId issuer subj)
  | .enrollAgent _ tenantId agentId _ _ _ => some (.agent tenantId agentId)
  | .revokeAgent _ tenantId agentId => some (.agent tenantId agentId)
  | .revokeDelegation _ tenantId grantId => some (.grant tenantId grantId)
  | _ => none

/-- A delegation keeps its terms when it is revised. -/
def DelegationRevised (g g' : DelegationRow) : Prop :=
  Table.Revised (fun r : DelegationRow => r.revision) g g' ∧ g'.toGrantTerms = g.toGrantTerms

namespace Directory

def revisionOf (d : Directory) : RowKey → Option ℕ
  | .tenant t => (d.tenants.lookup t).map (·.revision)
  | .platform i s => (d.platformAdmins.lookup (i, s)).map (·.revision)
  | .member t i s => (d.members.lookup (t, i, s)).map (·.revision)
  | .agent t a => (d.agents.lookup (t, a)).map (·.revision)
  | .grant t g => (d.delegations.lookup (t, g)).map (·.revision)

/-- Every row is kept or revised; the terms of a delegation never change. -/
structure Evolves (d d' : Directory) : Prop where
  tenants : Table.Evolves (Table.Revised Enrollment.revision) d.tenants d'.tenants
  platformAdmins :
    Table.Evolves (Table.Revised Enrollment.revision) d.platformAdmins d'.platformAdmins
  members : Table.Evolves (Table.Revised fun r : MemberRow => r.revision) d.members d'.members
  agents : Table.Evolves (Table.Revised fun r : AgentRow => r.revision) d.agents d'.agents
  delegations : Table.Evolves DelegationRevised d.delegations d'.delegations

namespace Evolves

theorem delegationRevised_refl (g : DelegationRow) : DelegationRevised g g :=
  ⟨Table.Revised.refl g, rfl⟩

theorem refl (d : Directory) : Evolves d d :=
  ⟨.refl Table.Revised.refl _, .refl Table.Revised.refl _, .refl Table.Revised.refl _,
    .refl Table.Revised.refl _, .refl delegationRevised_refl _⟩

theorem trans {d d' d'' : Directory} (h : Evolves d d') (h' : Evolves d' d'') : Evolves d d'' :=
  ⟨h.tenants.trans Table.Revised.trans h'.tenants,
    h.platformAdmins.trans Table.Revised.trans h'.platformAdmins,
    h.members.trans Table.Revised.trans h'.members,
    h.agents.trans Table.Revised.trans h'.agents,
    h.delegations.trans (fun _ _ _ a b => ⟨a.1.trans _ _ _ b.1, b.2.trans a.2⟩) h'.delegations⟩

theorem revisionOf_le {d d' : Directory} (h : Evolves d d') {k : RowKey} {n : ℕ}
    (hn : d.revisionOf k = some n) : ∃ n', d'.revisionOf k = some n' ∧ n ≤ n' := by
  cases k with
  | tenant t =>
    obtain ⟨row, hrow, rfl⟩ := map_eq_some_iff.mp hn
    obtain ⟨row', hrow', hr⟩ := h.tenants _ _ hrow
    exact ⟨_, by simp [revisionOf, hrow'], hr.le⟩
  | platform i s =>
    obtain ⟨row, hrow, rfl⟩ := map_eq_some_iff.mp hn
    obtain ⟨row', hrow', hr⟩ := h.platformAdmins _ _ hrow
    exact ⟨_, by simp [revisionOf, hrow'], hr.le⟩
  | member t i s =>
    obtain ⟨row, hrow, rfl⟩ := map_eq_some_iff.mp hn
    obtain ⟨row', hrow', hr⟩ := h.members _ _ hrow
    exact ⟨_, by simp [revisionOf, hrow'], hr.le⟩
  | agent t a =>
    obtain ⟨row, hrow, rfl⟩ := map_eq_some_iff.mp hn
    obtain ⟨row', hrow', hr⟩ := h.agents _ _ hrow
    exact ⟨_, by simp [revisionOf, hrow'], hr.le⟩
  | grant t g =>
    obtain ⟨row, hrow, rfl⟩ := map_eq_some_iff.mp hn
    obtain ⟨row', hrow', hr⟩ := h.delegations _ _ hrow
    exact ⟨_, by simp [revisionOf, hrow'], hr.1.le⟩

end Evolves

/-- `d'` comes from `d` by rewriting rows: no claim and no grant is added. -/
structure Rewrites (d d' : Directory) : Prop extends Evolves d d' where
  replays_eq : d'.replays = d.replays
  grants_old : ∀ k g', d'.delegations.lookup k = some g' →
    ∃ g, d.delegations.lookup k = some g ∧ g'.toGrantTerms = g.toGrantTerms

theorem Rewrites.refl (d : Directory) : Rewrites d d :=
  ⟨Evolves.refl d, rfl, fun _ g hg => ⟨g, hg, rfl⟩⟩

/-- A rewriting that leaves the row at `k` with a higher revision than it had. -/
structure Bumps (d : Directory) (k : RowKey) (d' : Directory) : Prop where
  rewrites : Rewrites d d'
  higher : ∀ n, d.revisionOf k = some n → ∃ n', d'.revisionOf k = some n' ∧ n < n'

/-! ### Writing one row -/

section Write

variable {d : Directory}

variable {t : String}

theorem bumps_tenant {row : Enrollment}
    (h : ∀ old, d.tenants.lookup t = some old → old.revision < row.revision) :
    Bumps d (.tenant t) { d with tenants := d.tenants.insert t row } where
  rewrites :=
    { Rewrites.refl d with tenants := .insert Table.Revised.refl fun old ho => .inr (h old ho) }
  higher n hn := by
    obtain ⟨old, ho, rfl⟩ := map_eq_some_iff.mp hn
    exact ⟨row.revision, by simp [revisionOf], h old ho⟩

theorem bumps_platform {i s : String} {row : Enrollment}
    (h : ∀ old, d.platformAdmins.lookup (i, s) = some old → old.revision < row.revision) :
    Bumps d (.platform i s)
      { d with platformAdmins := d.platformAdmins.insert (i, s) row } where
  rewrites :=
    { Rewrites.refl d with
      platformAdmins := .insert Table.Revised.refl fun old ho => .inr (h old ho) }
  higher n hn := by
    obtain ⟨old, ho, rfl⟩ := map_eq_some_iff.mp hn
    exact ⟨row.revision, by simp [revisionOf], h old ho⟩

theorem bumps_member {i s : String} {row : MemberRow}
    (h : ∀ old, d.members.lookup (t, i, s) = some old → old.revision < row.revision) :
    Bumps d (.member t i s) { d with members := d.members.insert (t, i, s) row } where
  rewrites :=
    { Rewrites.refl d with members := .insert Table.Revised.refl fun old ho => .inr (h old ho) }
  higher n hn := by
    obtain ⟨old, ho, rfl⟩ := map_eq_some_iff.mp hn
    exact ⟨row.revision, by simp [revisionOf], h old ho⟩

theorem bumps_agent {a : String} {row : AgentRow}
    (h : ∀ old, d.agents.lookup (t, a) = some old → old.revision < row.revision) :
    Bumps d (.agent t a) { d with agents := d.agents.insert (t, a) row } where
  rewrites :=
    { Rewrites.refl d with agents := .insert Table.Revised.refl fun old ho => .inr (h old ho) }
  higher n hn := by
    obtain ⟨old, ho, rfl⟩ := map_eq_some_iff.mp hn
    exact ⟨row.revision, by simp [revisionOf], h old ho⟩

theorem bumps_delegation {g : String} {old row : DelegationRow}
    (ho : d.delegations.lookup (t, g) = some old) (hrev : old.revision < row.revision)
    (hterms : row.toGrantTerms = old.toGrantTerms) :
    Bumps d (.grant t g) { d with delegations := d.delegations.insert (t, g) row } where
  rewrites :=
    { Rewrites.refl d with
      delegations := .insert Evolves.delegationRevised_refl fun old' ho' => by
        obtain rfl : old = old' := Option.some.inj (ho.symm.trans ho')
        exact ⟨.inr hrev, hterms⟩
      grants_old := fun k g' hg' => by
        rw [Table.lookup_insert'] at hg'
        split at hg'
        case isTrue hk =>
          cases hg'
          exact ⟨old, hk ▸ ho, hterms⟩
        case isFalse => exact ⟨g', hg', rfl⟩ }
  higher n hn := by
    obtain ⟨old', ho', rfl⟩ := map_eq_some_iff.mp hn
    obtain rfl : old = old' := Option.some.inj (ho.symm.trans ho')
    exact ⟨row.revision, by simp [revisionOf], hrev⟩

end Write

end Directory

theorem lt_nextRevision {R : Type} (revision : R → ℕ) {row : Option R} {old : R}
    (h : row = some old) : revision old < nextRevision revision row := by
  subst h
  exact Nat.lt_succ_self _

/-! ### Each mutation writes its row -/

section Mutations

variable {cfg : Config} {d d' : Directory} {minted : List Principal} {r : Reads}
  {actor : Principal}

variable {issuer subj tenantId : String}

theorem bootstrapPlatformAdmin_rewrites (h : bootstrapPlatformAdmin cfg d issuer subj = .ok d') :
    d.Rewrites d' := by
  simp only [bootstrapPlatformAdmin, bind_eq_ok, require_eq_ok, pure_eq_ok] at h
  obtain ⟨-, -, -, -, -, hempty, rfl⟩ := h
  refine (Directory.bumps_platform fun old ho => ?_).rewrites
  -- the table is empty, so there is no row to rewrite
  have hnil : d.platformAdmins = ∅ := AList.ext (List.isEmpty_iff.mp hempty)
  simp [hnil] at ho

theorem setTenant_bumps {active : Bool} (h : setTenant d minted r actor tenantId active = .ok d') :
    d.Bumps (.tenant tenantId) d' := by
  simp only [setTenant, bind_eq_ok, pure_eq_ok] at h
  obtain ⟨-, -, -, -, rfl⟩ := h
  exact Directory.bumps_tenant fun old ho => lt_nextRevision _ ho

theorem enrollPlatformAdmin_bumps
    (h : enrollPlatformAdmin cfg d minted r actor issuer subj = .ok d') :
    d.Bumps (.platform issuer subj) d' := by
  simp only [enrollPlatformAdmin, bind_eq_ok, pure_eq_ok] at h
  obtain ⟨-, -, -, -, -, -, rfl⟩ := h
  exact Directory.bumps_platform fun old ho => lt_nextRevision _ ho

theorem revokePlatformAdmin_bumps (h : revokePlatformAdmin d minted r actor issuer subj = .ok d') :
    d.Bumps (.platform issuer subj) d' := by
  simp only [revokePlatformAdmin, bind_eq_ok, pure_eq_ok,
    Directory.platform_eq_ok] at h
  obtain ⟨-, -, row, ⟨hrow, -⟩, -, -, rfl⟩ := h
  refine Directory.bumps_platform fun old ho => ?_
  obtain rfl : row = old := Option.some.inj (hrow.symm.trans ho)
  exact Nat.lt_succ_self _

theorem enrollMember_bumps {role : Role} {capabilities targets : List String}
    (h : enrollMember cfg d minted r actor tenantId issuer subj role capabilities targets = .ok d') :
    d.Bumps (.member tenantId issuer subj) d' := by
  simp only [enrollMember, bind_eq_ok, pure_eq_ok] at h
  obtain ⟨-, -, -, -, -, -, _, -, _, -, -, -, _, -, rfl⟩ := h
  exact Directory.bumps_member fun old ho => lt_nextRevision (fun m : MemberRow => m.revision) ho

theorem enrollAgent_bumps {agentId publicKeyHex : String} {capabilities targets : List String}
    (h : enrollAgent cfg d minted r actor tenantId agentId publicKeyHex capabilities targets = .ok
      d') : d.Bumps (.agent tenantId agentId) d' := by
  simp only [enrollAgent, bind_eq_ok, pure_eq_ok] at h
  obtain ⟨-, -, -, -, -, -, _, -, _, -, -, -, _, -, rfl⟩ := h
  exact Directory.bumps_agent fun old ho => lt_nextRevision (fun a : AgentRow => a.revision) ho

theorem revokeAgent_bumps {agentId : String}
    (h : revokeAgent d minted r actor tenantId agentId = .ok d') :
    d.Bumps (.agent tenantId agentId) d' := by
  simp only [revokeAgent, bind_eq_ok, pure_eq_ok,
    Directory.agent_some_eq_ok] at h
  obtain ⟨-, -, row, ⟨hrow, -⟩, rfl⟩ := h
  refine Directory.bumps_agent fun old ho => ?_
  obtain rfl : row = old := Option.some.inj (hrow.symm.trans ho)
  exact Nat.lt_succ_self _

theorem revokeMember_bumps (h : revokeMember d minted r actor tenantId issuer subj = .ok d') :
    d.Bumps (.member tenantId issuer subj) d' := by
  simp only [revokeMember, bind_eq_ok, pure_eq_ok,
    Directory.member_some_eq_ok] at h
  obtain ⟨-, -, row, ⟨hrow, -⟩, rfl⟩ := h
  refine Directory.bumps_member fun old ho => ?_
  obtain rfl : row = old := Option.some.inj (hrow.symm.trans ho)
  exact Nat.lt_succ_self _

theorem revokeDelegation_bumps {grantId : String}
    (h : revokeDelegation d minted r actor tenantId grantId = .ok d') :
    d.Bumps (.grant tenantId grantId) d' := by
  simp only [revokeDelegation, bind_eq_ok] at h
  obtain ⟨-, -, h⟩ := h
  split at h
  case h_1 => simp at h
  case h_2 row hrow =>
    cases h
    exact Directory.bumps_delegation hrow (Nat.lt_succ_self _) rfl

end Mutations

/-! ### The shapes of a step -/

/-- What a successful operation does to the state. -/
inductive Outcome (cfg : Config) (s : State) (e : Event) : State → Prop
  /-- An enrollment or revocation writes the row it touches. -/
  | write {k : RowKey} {dir : Directory} (htouched : e.action.touched = some k)
      (hbumps : s.dir.Bumps k dir) : Outcome cfg s e { s with dir }
  | bootstrap {dir : Directory} (huntouched : e.action.touched = none)
      (hrewrites : s.dir.Rewrites dir) : Outcome cfg s e { s with dir }
  | prune {actor : Principal} {limit : ℕ} {dir : Directory}
      (huntouched : e.action.touched = none)
      (hprune : pruneReplays s.dir s.minted e.reads actor limit = .ok dir) :
      Outcome cfg s e { s with dir }
  | derive {tenantId agentId : String} {grantId : Option String} {validUntil : Time}
      {p : Principal} (huntouched : e.action.touched = none)
      (hderive : derivePrincipal s.dir e.reads.second tenantId agentId grantId validUntil =
        .ok p) : Outcome cfg s e (s.mint p)
  | beginOperator {c : OperatorCall} (huntouched : e.action.touched = none) :
      Outcome cfg s e { s with calls := s.calls ++ [.operator c] }
  | beginAgent {q : SignedRequest} {c : AgentCall} (huntouched : e.action.touched = none)
      (hbegin : beginAgent cfg e.reads.first q = .ok c) :
      Outcome cfg s e { s with calls := s.calls ++ [.agent c] }
  | beginDelegation {q : DelegationRequest} {c : DelegationCall}
      (huntouched : e.action.touched = none)
      (hbegin : beginDelegation s.minted e.reads q = .ok c) :
      Outcome cfg s e { s with calls := s.calls ++ [.delegation c] }
  | commitOperator {i : ℕ} {c : OperatorCall} {p : Principal}
      (huntouched : e.action.touched = none) (hcall : s.calls[i]? = some (.operator c))
      (hmint : mintOperator s.dir c = .ok p) :
      Outcome cfg s e { s.mint p with calls := s.calls.eraseIdx i }
  | commitAgent {i : ℕ} {c : AgentCall} {dir : Directory} {p : Principal}
      (huntouched : e.action.touched = none) (hcall : s.calls[i]? = some (.agent c))
      (hauth : authenticateAgent cfg s.dir e.reads c = .ok (dir, p)) :
      Outcome cfg s e
        { s.mint p with dir, requests := s.requests ++ [p], calls := s.calls.eraseIdx i }
  | commitDelegation {i : ℕ} {c : DelegationCall} {grantId : String} {dir : Directory}
      (huntouched : e.action.touched = none) (hcall : s.calls[i]? = some (.delegation c))
      (hgrant : grantDelegation s.dir s.minted e.reads c grantId = .ok dir) :
      Outcome cfg s e
        { s with dir, origins := s.origins.insert (c.tenantId, grantId) ⟨c.madeAt, c.user⟩,
                 calls := s.calls.eraseIdx i }

variable {cfg : Config} {s s' : State} {e : Event} {d d' : Directory} {minted : List Principal}
  {r : Reads}

theorem outcome_of_exec (h : exec cfg s e = .ok s') : Outcome cfg s e s' := by
  obtain ⟨action, r⟩ := e
  cases action
  case commit i grantId =>
    simp only [exec] at h
    split at h
    case h_1 => simp at h
    case h_2 call hcall =>
      simp only [bind_eq_ok, pure_eq_ok] at h
      obtain ⟨s₁, hs₁, rfl⟩ := h
      cases call with
      | operator c =>
        simp only [commitCall, bind_eq_ok, pure_eq_ok] at hs₁
        obtain ⟨p, hp, rfl⟩ := hs₁
        exact .commitOperator rfl hcall hp
      | agent c =>
        simp only [commitCall, bind_eq_ok, pure_eq_ok] at hs₁
        obtain ⟨⟨dir, p⟩, hp, rfl⟩ := hs₁
        exact .commitAgent rfl hcall hp
      | delegation c =>
        simp only [commitCall, bind_eq_ok, pure_eq_ok] at hs₁
        obtain ⟨dir, hdir, rfl⟩ := hs₁
        exact .commitDelegation rfl hcall hdir
  all_goals
    simp only [exec, bind_eq_ok, pure_eq_ok] at h
    obtain ⟨_, hop, rfl⟩ := h
  case bootstrapPlatformAdmin => exact .bootstrap rfl (bootstrapPlatformAdmin_rewrites hop)
  case setTenant => exact .write rfl (setTenant_bumps hop)
  case enrollPlatformAdmin => exact .write rfl (enrollPlatformAdmin_bumps hop)
  case revokePlatformAdmin => exact .write rfl (revokePlatformAdmin_bumps hop)
  case enrollMember => exact .write rfl (enrollMember_bumps hop)
  case enrollAgent => exact .write rfl (enrollAgent_bumps hop)
  case revokeAgent => exact .write rfl (revokeAgent_bumps hop)
  case revokeMember => exact .write rfl (revokeMember_bumps hop)
  case revokeDelegation => exact .write rfl (revokeDelegation_bumps hop)
  case pruneReplays => exact .prune rfl hop
  case derive => exact .derive rfl hop
  case beginOperator => exact .beginOperator rfl
  case beginAgent => exact .beginAgent rfl hop
  case beginDelegation => exact .beginDelegation rfl hop

/-! ### Consequences for every step -/

theorem pruneReplays_dir {actor : Principal} {limit : ℕ}
    (h : pruneReplays d minted r actor limit = .ok d') :
    d' = { d with
      replays := (staleReplays d r.second limit).foldl (fun t k => t.erase k) d.replays } := by
  simp only [pruneReplays, bind_eq_ok, pure_eq_ok] at h
  obtain ⟨-, -, -, -, rfl⟩ := h
  rfl

/-- What a request's transaction found and did. -/
structure AuthenticateOk (cfg : Config) (d : Directory) (r : Reads) (c : AgentCall)
    (d' : Directory) (p : Principal) : Prop where
  unclaimed : d.replays.lookup (c.request.tenantId, c.request.agentId, c.request.nonce) = none
  dir_eq : d' = { d with
    replays := d.replays.insert (c.request.tenantId, c.request.agentId, c.request.nonce)
      r.second }
  rows : ∃ tenant agent grant, d.tenant (some c.request.tenantId) = .ok tenant ∧
    d.agent (some c.request.tenantId) (some c.request.agentId) = .ok agent ∧
    optionalGrant d r.first c.request.tenantId c.request.delegationId c.request.agentId agent =
      .ok grant ∧
    p = agentPrincipal c.request.tenantId tenant c.request.agentId agent grant (c.stamp + 300)
      (cfg.sha256 c.request.body) c.request.nonce

theorem AuthenticateOk.of_authenticateAgent {c : AgentCall} {p : Principal}
    (h : authenticateAgent cfg d r c = .ok (d', p)) : AuthenticateOk cfg d r c d' p := by
  simp only [authenticateAgent, bind_eq_ok, pure_eq_ok, Table.insertNew_eq_ok,
    Prod.mk.injEq] at h
  obtain ⟨tenant, ht, agent, ha, -, -, grant, hg, _, ⟨hnone, rfl⟩, rfl, rfl⟩ := h
  exact ⟨hnone, rfl, tenant, agent, grant, ht, ha, hg, rfl⟩

/-- What a delegation's transaction checked and did. -/
structure DelegateOk (d : Directory) (minted : List Principal) (r : Reads) (c : DelegationCall)
    (grantId : String) (d' : Directory) : Prop where
  actor_ok : admin d minted r c.actor (some c.tenantId) = .ok ()
  user_ok : current d minted ⟨r.second, r.second⟩ c.user = .ok ()
  unused : d.delegations.lookup (c.tenantId, grantId) = none
  rows : ∃ (agent : AgentRow) (row : DelegationRow),
    d.agent (some c.tenantId) (some c.agentId) = .ok agent ∧
    (∀ x ∈ c.capabilities, x ∈ c.user.capabilities ∧ x ∈ agent.capabilities) ∧
    (∀ x ∈ c.targets, x ∈ c.user.targets ∧ x ∈ agent.targets) ∧
    d' = { d with delegations := d.delegations.insert (c.tenantId, grantId) row } ∧
    row.toGrantTerms =
      { agentId := c.agentId, agentRevision := agent.revision,
        userIssuer := c.user.issuer, userSubject := c.user.subject,
        userRevision := c.user.revision, grantorIssuer := c.actor.issuer,
        grantorSubject := c.actor.subject, grantorKind := c.actor.kind,
        grantorRevision := c.actor.revision, capabilities := c.capabilities,
        targets := c.targets, notBefore := c.notBefore, expiresAt := c.expiresAt,
        tenantRevision := c.user.tenantRevision }

theorem DelegateOk.of_grantDelegation {c : DelegationCall} {grantId : String}
    (h : grantDelegation d minted r c grantId = .ok d') : DelegateOk d minted r c grantId d' := by
  simp only [grantDelegation, bind_eq_ok, pure_eq_ok, Table.insertNew_eq_ok,
    require_eq_ok, Bool.and_eq_true, List.all_eq_true, List.contains_iff_mem] at h
  obtain ⟨⟨⟩, hactor, ⟨⟩, huser, -, -, agent, ha, -, ⟨⟨-, hcaps⟩, htgts⟩, _, ⟨hnone, rfl⟩, rfl⟩ := h
  exact ⟨hactor, huser, hnone, agent, _, ha, hcaps, htgts, rfl, rfl⟩

theorem DelegateOk.evolves {c : DelegationCall} {grantId : String}
    (h : DelegateOk d minted r c grantId d') : d.Evolves d' := by
  obtain ⟨agent, row, -, -, -, rfl, -⟩ := h.rows
  refine { Directory.Evolves.refl d with
    delegations := .insert Directory.Evolves.delegationRevised_refl fun old ho => ?_ }
  simp [h.unused] at ho

/-- **Every operation evolves the directory.** -/
theorem Outcome.evolves (h : Outcome cfg s e s') : s.dir.Evolves s'.dir := by
  cases h with
  | write _ hb => exact hb.rewrites.toEvolves
  | bootstrap _ hr => exact hr.toEvolves
  | prune _ hp =>
    rw [pruneReplays_dir hp]
    exact { Directory.Evolves.refl s.dir with }
  | commitAgent _ _ ha =>
    rw [(AuthenticateOk.of_authenticateAgent ha).dir_eq]
    exact { Directory.Evolves.refl s.dir with }
  | commitDelegation _ _ hg => exact (DelegateOk.of_grantDelegation hg).evolves
  | _ => exact Directory.Evolves.refl s.dir

theorem exec_evolves (h : exec cfg s e = .ok s') : s.dir.Evolves s'.dir :=
  (outcome_of_exec h).evolves

/-- A step that touches a row leaves it at a higher revision. -/
theorem exec_touched {k : RowKey} (h : exec cfg s e = .ok s') (hk : e.action.touched = some k) :
    s.dir.Bumps k s'.dir := by
  cases outcome_of_exec h with
  | write ht hb =>
    obtain rfl : _ = k := Option.some.inj (ht.symm.trans hk)
    exact hb
  | _ => simp_all

/-- Over a run the directory evolves. -/
theorem reachable_evolves (h : (system cfg).Reachable s s') : s.dir.Evolves s'.dir :=
  h.relate (r := fun s s' => s.dir.Evolves s'.dir) (fun s => .refl s.dir)
    (fun _ _ _ => .trans) fun _ _ _ => exec_evolves

end Authority

end AgentBridge
