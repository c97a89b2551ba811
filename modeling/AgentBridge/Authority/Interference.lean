import AgentBridge.Authority.Replay

/-!
# What an operation of a tenant may write

Every entry point takes a tenant id that its caller chose, an actor, and sometimes a second
principal. This file says whose operation each of them is, and that it writes rows of that tenant
only. It also sets up the comparison of two directories on the rows of the *other* tenants.

* `perform_frame` : **an operation about a tenant writes rows of that tenant only**.
-/

namespace AgentBridge

open Table

namespace Authority

open Except (bind_eq_ok pure_eq_ok)

/-! ### Whose operation it is -/

/-- The tenants whose principals or credentials an operation uses. -/
def Action.parties : Action → List (Option String)
  | .bootstrapPlatformAdmin _ _ => []
  | .setTenant actor _ _ => [actor.tenantId]
  | .enrollPlatformAdmin actor _ _ => [actor.tenantId]
  | .revokePlatformAdmin actor _ _ => [actor.tenantId]
  | .enrollMember actor _ _ _ _ _ _ => [actor.tenantId]
  | .enrollAgent actor _ _ _ _ _ => [actor.tenantId]
  | .revokeAgent actor _ _ => [actor.tenantId]
  | .revokeMember actor _ _ _ => [actor.tenantId]
  | .revokeDelegation actor _ _ => [actor.tenantId]
  | .pruneReplays actor _ => [actor.tenantId]
  | .derive tenantId _ _ _ => [some tenantId]
  | .beginOperator _ _ tenantId => [tenantId]
  | .beginAgent request => [some request.tenantId]
  | .beginDelegation request => [request.actor.tenantId, request.user.tenantId]
  | .commit _ _ => []

/-- The same for a call in flight. -/
def Call.parties : Call → List (Option String)
  | .operator c => [c.tenantId]
  | .agent c => [some c.request.tenantId]
  | .delegation c => [c.actor.tenantId, some c.tenantId]

/-- The principals an operation presents. -/
def Action.principals : Action → List Principal
  | .setTenant actor _ _ => [actor]
  | .enrollPlatformAdmin actor _ _ => [actor]
  | .revokePlatformAdmin actor _ _ => [actor]
  | .enrollMember actor _ _ _ _ _ _ => [actor]
  | .enrollAgent actor _ _ _ _ _ => [actor]
  | .revokeAgent actor _ _ => [actor]
  | .revokeMember actor _ _ _ => [actor]
  | .revokeDelegation actor _ _ => [actor]
  | .pruneReplays actor _ => [actor]
  | .beginDelegation request => [request.actor, request.user]
  | _ => []

/-- The same for a call in flight. -/
def Call.principals : Call → List Principal
  | .delegation c => [c.actor, c.user]
  | _ => []

/-- The tenant whose rows an administrative operation names. -/
def Action.addressed : Action → Option String
  | .setTenant _ tenantId _ => some tenantId
  | .enrollMember _ tenantId _ _ _ _ _ => some tenantId
  | .enrollAgent _ tenantId _ _ _ _ => some tenantId
  | .revokeAgent _ tenantId _ => some tenantId
  | .revokeMember _ tenantId _ _ => some tenantId
  | .revokeDelegation _ tenantId _ => some tenantId
  | _ => none

deriving instance DecidableEq for Action

/-- An operation as it is seen from outside: a transaction carries the call that it finishes in
place of the call's position. -/
structure Operation where
  action : Action
  call : Option Call
  reads : Reads
  deriving DecidableEq

/-- The operation that an event performs. -/
def State.operation (s : State) (e : Event) : Operation :=
  match e.action with
  | .commit position grantId => ⟨.commit 0 grantId, s.calls[position]?, e.reads⟩
  | action => ⟨action, none, e.reads⟩

/-- The operation is performed by a principal of the tenant, or made with its credentials. -/
def Operation.isOf (o : Operation) (t : String) : Bool :=
  o.action.parties.any (· == some t) || o.call.any fun c => c.parties.any (· == some t)

/-- The principals an operation presents. -/
def Operation.principals (o : Operation) : List Principal :=
  o.action.principals ++ o.call.toList.flatMap Call.principals

/-- What an operation does to the tables, and the contexts it mints. -/
def perform (cfg : Config) (d : Directory) (minted : List Principal) (o : Operation) :
    Except Fault (Directory × List Principal) :=
  let r := o.reads
  match o.action with
  | .bootstrapPlatformAdmin issuer subj =>
    (bootstrapPlatformAdmin cfg d issuer subj).map (·, [])
  | .setTenant actor tenantId active => (setTenant d minted r actor tenantId active).map (·, [])
  | .enrollPlatformAdmin actor issuer subj =>
    (enrollPlatformAdmin cfg d minted r actor issuer subj).map (·, [])
  | .revokePlatformAdmin actor issuer subj =>
    (revokePlatformAdmin d minted r actor issuer subj).map (·, [])
  | .enrollMember actor tenantId issuer subj role capabilities targets =>
    (enrollMember cfg d minted r actor tenantId issuer subj role capabilities targets).map (·, [])
  | .enrollAgent actor tenantId agentId publicKeyHex capabilities targets =>
    (enrollAgent cfg d minted r actor tenantId agentId publicKeyHex capabilities targets).map
      (·, [])
  | .revokeAgent actor tenantId agentId => (revokeAgent d minted r actor tenantId agentId).map (·, [])
  | .revokeMember actor tenantId issuer subj =>
    (revokeMember d minted r actor tenantId issuer subj).map (·, [])
  | .revokeDelegation actor tenantId grantId =>
    (revokeDelegation d minted r actor tenantId grantId).map (·, [])
  | .pruneReplays actor limit => (pruneReplays d minted r actor limit).map (·, [])
  | .derive tenantId agentId grantId validUntil =>
    (derivePrincipal d r.second tenantId agentId grantId validUntil).map fun p => (d, [p])
  | .beginOperator issuer token tenantId =>
    (beginOperator cfg r.first issuer token tenantId).map fun _ => (d, [])
  | .beginAgent request => (beginAgent cfg r.first request).map fun _ => (d, [])
  | .beginDelegation request => (beginDelegation minted r request).map fun _ => (d, [])
  | .commit _ grantId =>
    match o.call with
    | none => .error (.runtimeError "no such call")
    | some (.operator c) => (mintOperator d c).map fun p => (d, [p])
    | some (.agent c) => (authenticateAgent cfg d r c).map fun x => (x.1, [x.2])
    | some (.delegation c) => (grantDelegation d minted r c grantId).map (·, [])

/-- An operation that mints no context. -/
theorem map_write {C : Type} (s : State) (x : Except Fault C) (f : C → Directory)
    (g : C → List Call) :
    (x >>= fun c => pure { s with dir := f c, calls := g c }).map
        (fun s' : State => (s'.dir, s'.minted)) =
      (x.map fun c => (f c, [])).map fun y : Directory × List Principal =>
        (y.1, s.minted ++ y.2) := by
  cases x <;> simp [Except.map, pure, Except.pure, bind, Except.bind]

/-- `perform` says what a step of the system does to tables and contexts. -/
theorem exec_eq_perform (cfg : Config) (s : State) (e : Event) :
    (exec cfg s e).map (fun s' => (s'.dir, s'.minted)) =
      (perform cfg s.dir s.minted (s.operation e)).map fun x => (x.1, s.minted ++ x.2) := by
  obtain ⟨action, r⟩ := e
  cases action
  case commit position grantId =>
    simp only [exec, State.operation, perform]
    cases hcall : s.calls[position]? with
    | none => rfl
    | some call =>
      cases call with
      | operator c => cases h : mintOperator s.dir c <;> simp [commitCall, h] <;> rfl
      | agent c => cases h : authenticateAgent cfg s.dir r c <;> simp [commitCall, h] <;> rfl
      | delegation c =>
        cases h : grantDelegation s.dir s.minted r c grantId <;>
          simp [commitCall, h, Except.map]
  case derive tenantId agentId grantId validUntil =>
    cases h : derivePrincipal s.dir r.second tenantId agentId grantId validUntil <;>
      simp [exec, State.operation, perform, h, Except.map, State.mint]
  all_goals exact map_write s _ _ _

/-! ### Agreement on the other tenants -/

/-- The primary key of a replay claim: tenant, agent and nonce. -/
abbrev ReplayKey := String × String × String

/-- The context was minted for a request that claimed the key. -/
structure Principal.Claims (p : Principal) (k : ReplayKey) : Prop where
  kind : p.kind = .machine ∨ p.kind = .delegatedHuman
  tenantId : p.tenantId = some k.1
  agentId : p.agentId = some k.2.1
  nonce : p.requestNonce = k.2.2

/-- The context was minted for a request with one of these claims. -/
def Tainted (E : ReplayKey → Prop) (p : Principal) : Prop := ∃ k, E k ∧ p.Claims k

/-- Two directories agree on all platform rows, and on all rows of tenants other than `A` but the
replay claims in `E`. -/
structure Directory.AgreesOn (E : ReplayKey → Prop) (A : String) (d d' : Directory) : Prop where
  tenants : ∀ t, t ≠ A → d.tenants.lookup t = d'.tenants.lookup t
  platformAdmins : d.platformAdmins = d'.platformAdmins
  members : ∀ t i u, t ≠ A → d.members.lookup (t, i, u) = d'.members.lookup (t, i, u)
  agents : ∀ t a, t ≠ A → d.agents.lookup (t, a) = d'.agents.lookup (t, a)
  delegations : ∀ t g, t ≠ A → d.delegations.lookup (t, g) = d'.delegations.lookup (t, g)
  replays : ∀ k : ReplayKey, k.1 ≠ A → ¬E k → d.replays.lookup k = d'.replays.lookup k

/-- The same contexts are sealed, but for those bound to `A` and those of the claims in `E`. -/
def SealsAgree (E : ReplayKey → Prop) (A : String) (m m' : List Principal) : Prop :=
  ∀ p, p.tenantId ≠ some A → ¬Tainted E p → (p ∈ m ↔ p ∈ m')

/-- Tables and contexts agree. -/
structure Agrees (E : ReplayKey → Prop) (A : String) (x y : Directory × List Principal) :
    Prop where
  dir : x.1.AgreesOn E A y.1
  minted : SealsAgree E A x.2 y.2

section Agreement

variable {E : ReplayKey → Prop} {A : String} {d d' d'' : Directory}
  {m m' m'' : List Principal} {x y z : Directory × List Principal}

theorem Directory.AgreesOn.refl (d : Directory) : d.AgreesOn E A d :=
  ⟨fun _ _ => rfl, rfl, fun _ _ _ _ => rfl, fun _ _ _ => rfl, fun _ _ _ => rfl, fun _ _ _ => rfl⟩

theorem Agrees.refl (x : Directory × List Principal) : Agrees E A x x :=
  ⟨.refl _, fun _ _ _ => .rfl⟩

theorem Agrees.symm (h : Agrees E A x y) : Agrees E A y x where
  dir :=
    { tenants := fun t ht => (h.dir.tenants t ht).symm
      platformAdmins := h.dir.platformAdmins.symm
      members := fun t i u ht => (h.dir.members t i u ht).symm
      agents := fun t a ht => (h.dir.agents t a ht).symm
      delegations := fun t g ht => (h.dir.delegations t g ht).symm
      replays := fun k hk hne => (h.dir.replays k hk hne).symm }
  minted p hp hu := (h.minted p hp hu).symm

theorem Agrees.trans (h : Agrees E A x y) (h' : Agrees E A y z) : Agrees E A x z where
  dir :=
    { tenants := fun t ht => (h.dir.tenants t ht).trans (h'.dir.tenants t ht)
      platformAdmins := h.dir.platformAdmins.trans h'.dir.platformAdmins
      members := fun t i u ht => (h.dir.members t i u ht).trans (h'.dir.members t i u ht)
      agents := fun t a ht => (h.dir.agents t a ht).trans (h'.dir.agents t a ht)
      delegations := fun t g ht => (h.dir.delegations t g ht).trans (h'.dir.delegations t g ht)
      replays := fun k hk hne => (h.dir.replays k hk hne).trans (h'.dir.replays k hk hne) }
  minted p hp hu := (h.minted p hp hu).trans (h'.minted p hp hu)

/-- New contexts that all belong to `A`, or to a claim in `E`, do not matter. -/
theorem Agrees.of_dir {new : List Principal} (h : d.AgreesOn E A d')
    (hnew : ∀ p ∈ new, p.tenantId = some A ∨ Tainted E p) : Agrees E A (d, m) (d', m ++ new) where
  dir := h
  minted p hp hu := by
    rw [List.mem_append]
    refine ⟨Or.inl, fun hmem => hmem.resolve_right fun hin => ?_⟩
    rcases hnew p hin with hbound | htainted
    · exact hp hbound
    · exact hu htainted

/-! ### Reads agree -/

namespace Directory.AgreesOn

variable {tenantId : Option String} (h : d.AgreesOn E A d')

include h

theorem platform (issuer subj : String) : d.platform issuer subj = d'.platform issuer subj := by
  rw [Directory.platform, Directory.platform, h.platformAdmins]

variable (ht : tenantId ≠ some A)

include ht

theorem tenant : d.tenant tenantId = d'.tenant tenantId := by
  cases tenantId with
  | none => rfl
  | some t =>
    have hlookup := h.tenants t fun heq => ht (by rw [heq])
    simp only [Directory.tenant, Option.bind_some, hlookup]

theorem member (issuer subj : String) :
    d.member tenantId issuer subj = d'.member tenantId issuer subj := by
  cases tenantId with
  | none => rfl
  | some t =>
    have hlookup := h.members t issuer subj fun heq => ht (by rw [heq])
    simp only [Directory.member, Option.bind_some, hlookup]

theorem agent (agentId : Option String) :
    d.agent tenantId agentId = d'.agent tenantId agentId := by
  cases tenantId with
  | none => rfl
  | some t =>
    cases agentId with
    | none => rfl
    | some a =>
      have hlookup := h.agents t a fun heq => ht (by rw [heq])
      simp only [Directory.agent, Option.bind_some, hlookup]

theorem grantor (terms : GrantTerms) :
    d.grantor tenantId terms = d'.grantor tenantId terms := by
  rw [Directory.grantor, Directory.grantor, h.platform, h.member ht]

theorem grant (now : Time) (grantId agentId : Option String) (agent : AgentRow) :
    d.grant now tenantId grantId agentId agent = d'.grant now tenantId grantId agentId agent := by
  have hrow : d.delegation tenantId grantId = d'.delegation tenantId grantId := by
    cases tenantId with
    | none => rfl
    | some t =>
      cases grantId with
      | none => rfl
      | some g => exact h.delegations t g fun heq => ht (by rw [heq])
  simp only [Directory.grant, hrow, h.tenant ht, h.member ht, h.grantor ht]

end Directory.AgreesOn

namespace Agrees

variable {r : Reads} {p : Principal} (h : Agrees E A (d, m) (d', m')) (hp : p.tenantId ≠ some A)
  (hu : ¬Tainted E p)

include h hp hu

theorem verifySeal (now : Time) : verifySeal m now p = verifySeal m' now p := by
  have hmem : p ∈ m ↔ p ∈ m' := h.minted p hp hu
  simp only [Authority.verifySeal, hmem]

theorem current : current d m r p = current d' m' r p := by
  have hd : d.AgreesOn E A d' := h.dir
  simp only [Authority.current, currentAgent, h.verifySeal hp hu, hd.platform, hd.tenant hp,
    hd.member hp, hd.agent hp, hd.grant hp]

theorem authorize (capability : String) (targetId : Option String) :
    authorize d m r p capability targetId = authorize d' m' r p capability targetId := by
  simp only [Authority.authorize, h.current hp hu]

end Agrees

end Agreement

/-! ### Writes -/

section Writes

variable {E : ReplayKey → Prop} {A : String} {d d' : Directory}

namespace Directory.AgreesOn

/-- Writing a row of `A` does not show. -/
theorem hide_tenant (d : Directory) (row : Enrollment) :
    d.AgreesOn E A { d with tenants := d.tenants.insert A row } :=
  { AgreesOn.refl d with
    tenants := fun t ht => by rw [lookup_insert', if_neg ht] }

theorem hide_member (d : Directory) (i u : String) (row : MemberRow) :
    d.AgreesOn E A { d with members := d.members.insert (A, i, u) row } :=
  { AgreesOn.refl d with
    members := fun t i' u' ht => by
      rw [lookup_insert', if_neg fun heq => ht (Prod.mk.inj heq).1] }

theorem hide_agent (d : Directory) (a : String) (row : AgentRow) :
    d.AgreesOn E A { d with agents := d.agents.insert (A, a) row } :=
  { AgreesOn.refl d with
    agents := fun t a' ht => by
      rw [lookup_insert', if_neg fun heq => ht (Prod.mk.inj heq).1] }

theorem hide_delegation (d : Directory) (g : String) (row : DelegationRow) :
    d.AgreesOn E A { d with delegations := d.delegations.insert (A, g) row } :=
  { AgreesOn.refl d with
    delegations := fun t g' ht => by
      rw [lookup_insert', if_neg fun heq => ht (Prod.mk.inj heq).1] }

/-- Neither does a claim of `A`, or one in `E`. -/
theorem hide_replay (d : Directory) {k : ReplayKey} (hk : k.1 = A ∨ E k) (claimed : Time) :
    d.AgreesOn E A { d with replays := d.replays.insert k claimed } :=
  { AgreesOn.refl (E := E) d with
    replays := fun k' hk' hne => by
      rw [lookup_insert', if_neg]
      rintro rfl
      rcases hk with hA | hE
      · exact hk' hA
      · exact hne hE }

variable (h : d.AgreesOn E A d')

include h

/-- Writing the same row on both sides. -/
theorem write_tenant (t : String) (row : Enrollment) :
    AgreesOn E A { d with tenants := d.tenants.insert t row }
      { d' with tenants := d'.tenants.insert t row } :=
  { h with
    tenants := fun t' ht => by
      rw [lookup_insert', lookup_insert', h.tenants t' ht] }

theorem write_platform (k : String × String) (row : Enrollment) :
    AgreesOn E A { d with platformAdmins := d.platformAdmins.insert k row }
      { d' with platformAdmins := d'.platformAdmins.insert k row } :=
  { h with platformAdmins := by rw [h.platformAdmins] }

theorem write_member (k : String × String × String) (row : MemberRow) :
    AgreesOn E A { d with members := d.members.insert k row }
      { d' with members := d'.members.insert k row } :=
  { h with
    members := fun t i u ht => by
      rw [lookup_insert', lookup_insert', h.members t i u ht] }

theorem write_agent (k : String × String) (row : AgentRow) :
    AgreesOn E A { d with agents := d.agents.insert k row }
      { d' with agents := d'.agents.insert k row } :=
  { h with
    agents := fun t a ht => by
      rw [lookup_insert', lookup_insert', h.agents t a ht] }

theorem write_delegation (k : String × String) (row : DelegationRow) :
    AgreesOn E A { d with delegations := d.delegations.insert k row }
      { d' with delegations := d'.delegations.insert k row } :=
  { h with
    delegations := fun t g ht => by
      rw [lookup_insert', lookup_insert', h.delegations t g ht] }

theorem write_replay (k : ReplayKey) (claimed : Time) :
    AgreesOn E A { d with replays := d.replays.insert k claimed }
      { d' with replays := d'.replays.insert k claimed } :=
  { h with
    replays := fun k' hk hne => by
      rw [lookup_insert', lookup_insert', h.replays k' hk hne] }

end Directory.AgreesOn

end Writes

/-! ### What an operation of the tenant writes -/

section Frame

variable {cfg : Config} {d d' : Directory} {m : List Principal} {r : Reads} {actor : Principal}
  {A : String}

variable {u : Unit} {t : String} {E : ReplayKey → Prop}

/-- An accepted administrator is a platform administrator, or bound to the tenant it names. -/
theorem tenantId_of_admin {tenantId : Option String} (h : admin d m r actor tenantId = .ok u) :
    actor.tenantId = none ∨ (tenantId.isSome = true ∧ actor.tenantId = tenantId) := by
  simp only [admin, bind_eq_ok] at h
  obtain ⟨⟨⟩, hcurrent, h⟩ := h
  by_cases hk : actor.kind = .platformAdmin
  · left
    unfold current at hcurrent
    simp only [hk, bind_eq_ok, require_eq_ok, Bool.and_eq_true] at hcurrent
    obtain ⟨-, -, -, -, hnone, -⟩ := hcurrent
    exact Option.isNone_iff_eq_none.mp hnone
  · right
    simp only [if_neg hk, require_eq_ok, Bool.and_eq_true, beq_iff_eq] at h
    exact ⟨h.1.1, h.2⟩

/-- An accepted administrator is not an agent. -/
theorem kind_of_admin {tenantId : Option String} (h : admin d m r actor tenantId = .ok u) :
    actor.kind ≠ .machine ∧ actor.kind ≠ .delegatedHuman := by
  simp only [admin, bind_eq_ok] at h
  obtain ⟨-, -, h⟩ := h
  by_cases hk : actor.kind = .platformAdmin
  · rw [hk]
    exact ⟨by simp, by simp⟩
  · simp only [if_neg hk, require_eq_ok, Bool.and_eq_true, beq_iff_eq] at h
    rw [h.1.2]
    exact ⟨by simp, by simp⟩

/-- A principal of `A` administers no platform row. -/
theorem not_admin_none (hA : actor.tenantId = some A) : admin d m r actor none ≠ .ok u := by
  intro h
  rcases tenantId_of_admin h with hnone | ⟨hsome, -⟩
  · rw [hA] at hnone
    cases hnone
  · cases hsome

/-- A principal of `A` administers rows of `A` only. -/
theorem eq_of_admin (hA : actor.tenantId = some A) (h : admin d m r actor (some t) = .ok u) :
    t = A := by
  rcases tenantId_of_admin h with hnone | ⟨-, heq⟩
  · rw [hA] at hnone
    cases hnone
  · rw [hA] at heq
    exact (Option.some.inj heq).symm

/-- The operation is of `A`, or names rows of `A`. -/
def Operation.isAbout (o : Operation) (A : String) : Bool :=
  o.isOf A || o.action.addressed == some A

section About

variable (hA : actor.tenantId = some A ∨ t = A)

include hA

/-- The tenant that an administrative operation about `A` writes to. -/
theorem eq_of_isAbout (h : admin d m r actor (some t) = .ok u) : t = A :=
  hA.elim (fun hactor => eq_of_admin hactor h) id

theorem setTenant_frame {active : Bool} (h : setTenant d m r actor t active = .ok d') :
    d.AgreesOn E A d' := by
  simp only [setTenant, bind_eq_ok, pure_eq_ok] at h
  obtain ⟨-, -, ⟨⟩, hadmin, rfl⟩ := h
  rcases hA with hactor | rfl
  · exact absurd hadmin (not_admin_none hactor)
  · exact .hide_tenant d _

theorem enrollMember_frame {issuer subj : String} {role : Role} {capabilities targets : List String}
    (h : enrollMember cfg d m r actor t issuer subj role capabilities targets = .ok d') :
    d.AgreesOn E A d' := by
  simp only [enrollMember, bind_eq_ok, pure_eq_ok] at h
  obtain ⟨-, -, -, -, -, -, _, -, _, -, ⟨⟩, hadmin, _, -, rfl⟩ := h
  obtain rfl := eq_of_isAbout hA hadmin
  exact .hide_member d _ _ _

theorem enrollAgent_frame {agentId publicKeyHex : String} {capabilities targets : List String}
    (h : enrollAgent cfg d m r actor t agentId publicKeyHex capabilities targets = .ok d') :
    d.AgreesOn E A d' := by
  simp only [enrollAgent, bind_eq_ok, pure_eq_ok] at h
  obtain ⟨-, -, -, -, -, -, _, -, _, -, ⟨⟩, hadmin, _, -, rfl⟩ := h
  obtain rfl := eq_of_isAbout hA hadmin
  exact .hide_agent d _ _

theorem revokeAgent_frame {agentId : String}
    (h : revokeAgent d m r actor t agentId = .ok d') : d.AgreesOn E A d' := by
  simp only [revokeAgent, bind_eq_ok, pure_eq_ok] at h
  obtain ⟨⟨⟩, hadmin, _, -, rfl⟩ := h
  obtain rfl := eq_of_isAbout hA hadmin
  exact .hide_agent d _ _

theorem revokeMember_frame {issuer subj : String}
    (h : revokeMember d m r actor t issuer subj = .ok d') : d.AgreesOn E A d' := by
  simp only [revokeMember, bind_eq_ok, pure_eq_ok] at h
  obtain ⟨⟨⟩, hadmin, _, -, rfl⟩ := h
  obtain rfl := eq_of_isAbout hA hadmin
  exact .hide_member d _ _ _

theorem revokeDelegation_frame {grantId : String}
    (h : revokeDelegation d m r actor t grantId = .ok d') : d.AgreesOn E A d' := by
  simp only [revokeDelegation, bind_eq_ok] at h
  obtain ⟨⟨⟩, hadmin, h⟩ := h
  obtain rfl := eq_of_isAbout hA hadmin
  split at h
  · simp at h
  · cases h
    exact .hide_delegation d _ _

end About

theorem grantDelegation_frame {c : DelegationCall} {grantId : String}
    (hA : c.actor.tenantId = some A ∨ c.tenantId = A)
    (h : grantDelegation d m r c grantId = .ok d') : d.AgreesOn E A d' := by
  simp only [grantDelegation, bind_eq_ok, insertNew_eq_ok, pure_eq_ok] at h
  obtain ⟨⟨⟩, hadmin, -, -, -, -, _, -, -, -, _, ⟨-, rfl⟩, rfl⟩ := h
  obtain rfl := eq_of_isAbout hA hadmin
  exact .hide_delegation d _ _

theorem tenantId_mintOperator {c : OperatorCall} {p : Principal} (h : mintOperator d c = .ok p) :
    p.tenantId = c.tenantId := by
  unfold mintOperator at h
  split at h
  case h_1 hnone =>
    simp only [bind_eq_ok, pure_eq_ok] at h
    obtain ⟨_, -, rfl⟩ := h
    exact hnone.symm
  case h_2 t hsome =>
    simp only [bind_eq_ok, pure_eq_ok] at h
    obtain ⟨_, -, _, -, rfl⟩ := h
    exact hsome.symm

/-- A write mints nothing. -/
theorem frame_of_write {x : Except Fault Directory} {new : List Principal}
    (h : x.map (·, []) = .ok (d', new)) (hframe : x = .ok d' → d.AgreesOn E A d') :
    d.AgreesOn E A d' ∧ ∀ p ∈ new, p.tenantId = some A := by
  cases x with
  | error e => cases h
  | ok d₁ =>
    cases h
    exact ⟨hframe rfl, nofun⟩

theorem map_eq_ok {α β : Type} {x : Except Fault α} {f : α → β} {b : β}
    (h : x.map f = .ok b) : ∃ a, x = .ok a ∧ f a = b := by
  cases x with
  | error e => cases h
  | ok a => exact ⟨a, rfl, Except.ok.inj h⟩

/-- **An operation about a tenant writes rows of that tenant only**, and mints contexts of that
tenant only. -/
theorem perform_frame {s : State} {e : Event} {new : List Principal}
    (hA : (s.operation e).isAbout A = true) (h : perform cfg d m (s.operation e) = .ok (d', new)) :
    d.AgreesOn E A d' ∧ ∀ p ∈ new, p.tenantId = some A := by
  obtain ⟨action, r⟩ := e
  cases action
  case commit position grantId =>
    simp only [State.operation, Operation.isAbout, Operation.isOf, Action.parties,
      Action.addressed, perform] at hA h
    cases hcall : s.calls[position]? with
    | none => simp [hcall] at hA
    | some call =>
      rw [hcall] at hA h
      cases call with
      | operator c =>
        obtain ⟨p, hp, heq⟩ := map_eq_ok h
        cases heq
        have hc : c.tenantId = some A := by simpa [Call.parties] using hA
        refine ⟨.refl d, fun q hq => ?_⟩
        rw [List.mem_singleton.mp hq, tenantId_mintOperator hp, hc]
      | agent c =>
        obtain ⟨x, hx, heq⟩ := map_eq_ok h
        cases heq
        have hc : c.request.tenantId = A := by simpa [Call.parties] using hA
        have hok := AuthenticateOk.of_authenticateAgent (p := x.2) hx
        obtain ⟨_, _, _, -, -, -, hp⟩ := hok.rows
        refine ⟨?_, fun q hq => ?_⟩
        · rw [hok.dir_eq]
          exact .hide_replay d (.inl hc) _
        · rw [List.mem_singleton.mp hq, hp, tenantId_agentPrincipal, hc]
      | delegation c =>
        have hc : c.actor.tenantId = some A ∨ c.tenantId = A := by
          simpa [Call.parties] using hA
        exact frame_of_write h (grantDelegation_frame hc)
  all_goals
    simp only [State.operation, Operation.isAbout, Operation.isOf, Action.parties,
      Action.addressed, perform] at hA h
  case bootstrapPlatformAdmin => simp at hA
  case setTenant actor t active =>
    exact frame_of_write h (setTenant_frame (by simpa using hA))
  case enrollPlatformAdmin actor issuer subj =>
    refine frame_of_write h fun hwrite => ?_
    simp only [enrollPlatformAdmin, bind_eq_ok] at hwrite
    obtain ⟨-, -, -, -, ⟨⟩, hadmin, -⟩ := hwrite
    exact absurd hadmin (not_admin_none (by simpa using hA))
  case revokePlatformAdmin actor issuer subj =>
    refine frame_of_write h fun hwrite => ?_
    simp only [revokePlatformAdmin, bind_eq_ok] at hwrite
    obtain ⟨⟨⟩, hadmin, -⟩ := hwrite
    exact absurd hadmin (not_admin_none (by simpa using hA))
  case pruneReplays actor limit =>
    refine frame_of_write h fun hwrite => ?_
    simp only [pruneReplays, bind_eq_ok] at hwrite
    obtain ⟨-, -, ⟨⟩, hadmin, -⟩ := hwrite
    exact absurd hadmin (not_admin_none (by simpa using hA))
  case enrollMember actor t issuer subj role capabilities targets =>
    exact frame_of_write h (enrollMember_frame (by simpa using hA))
  case enrollAgent actor t agentId publicKeyHex capabilities targets =>
    exact frame_of_write h (enrollAgent_frame (by simpa using hA))
  case revokeAgent actor t agentId =>
    exact frame_of_write h (revokeAgent_frame (by simpa using hA))
  case revokeMember actor t issuer subj =>
    exact frame_of_write h (revokeMember_frame (by simpa using hA))
  case revokeDelegation actor t grantId =>
    exact frame_of_write h (revokeDelegation_frame (by simpa using hA))
  case derive t agentId grantId validUntil =>
    obtain ⟨p, hp, heq⟩ := map_eq_ok h
    cases heq
    have ht : t = A := by simpa using hA
    simp only [derivePrincipal, bind_eq_ok, pure_eq_ok] at hp
    obtain ⟨_, -, _, -, _, -, rfl⟩ := hp
    exact ⟨.refl d, fun q hq => by rw [List.mem_singleton.mp hq, tenantId_agentPrincipal, ht]⟩
  all_goals
    obtain ⟨c, -, heq⟩ := map_eq_ok h
    cases heq
    exact ⟨.refl d, by simp⟩

end Frame

end Authority

end AgentBridge
