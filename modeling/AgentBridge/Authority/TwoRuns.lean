import Mathlib.Data.String.Basic
import AgentBridge.Authority.Interference
import AgentBridge.LTS.Unwinding

/-!
# One operation on two directories

Two directories that agree on everybody but one tenant are given the same operation. Unless the
operation is about that tenant, it is accepted or refused on both, writes the same rows and mints
the same contexts.
-/

namespace AgentBridge

open List

namespace Authority

/-! ### What the others see -/

section Visible

variable {E : ReplayKey → Prop} {A : String} {Q : Prop} {cfg : Config} {d d' : Directory}
  {m m' : List Principal} {r : Reads} {actor : Principal}

/-- A claim that is not outdated survives the batch. -/
theorem lookup_of_pruneReplays {d₁ : Directory} {limit : ℕ} {k : ReplayKey}
    (h : pruneReplays d m r actor limit = .ok d₁)
    (hk : ∀ claimed, d.replays.lookup k = some claimed → ¬claimed < r.second - 600) :
    d₁.replays.lookup k = d.replays.lookup k := by
  cases hlookup : d.replays.lookup k with
  | some claimed => exact (pruneReplays_lookup h hlookup).resolve_right (hk claimed hlookup)
  | none =>
    rw [pruneReplays_dir h, Table.lookup_foldl_erase, hlookup, ite_self]

namespace Agrees

section Admin

variable (h : Agrees E A (d, m) (d', m')) (ha : actor.tenantId ≠ some A)
  (hQ : Q → ¬Tainted E actor)

include h ha hQ

theorem admin (tenantId : Option String) :
    Except.Rel Q Eq (admin d m r actor tenantId) (admin d' m' r actor tenantId) := by
  by_cases ht : Tainted E actor
  · -- an agent is refused on both sides
    have hkind : actor.kind = .machine ∨ actor.kind = .delegatedHuman := by
      obtain ⟨k, -, hclaims⟩ := ht
      exact hclaims.kind
    have hrefused : ∀ (d : Directory) (m : List Principal),
        ∃ e, Authority.admin d m r actor tenantId = .error e := by
      intro d m
      cases hx : Authority.admin d m r actor tenantId with
      | error e => exact ⟨e, rfl⟩
      | ok u =>
        obtain ⟨hmachine, hhuman⟩ := kind_of_admin hx
        rcases hkind with hk | hk
        · exact absurd hk hmachine
        · exact absurd hk hhuman
    obtain ⟨e, he⟩ := hrefused d m
    obtain ⟨e', he'⟩ := hrefused d' m'
    exact .of_errors he he' fun hq => absurd ht (hQ hq)
  · refine .of_eq ?_
    simp only [Authority.admin, h.current ha ht]

/-- An administrator of another tenant does not pass for rows of `A`. -/
theorem denied {B : String} (hb : actor.tenantId = some B) {α : Type}
    {f f' : Unit → Except Fault α} :
    Except.Rel Q (fun _ _ => False) (Authority.admin d m r actor (some A) >>= f)
      (Authority.admin d' m' r actor (some A) >>= f') :=
  (h.admin ha hQ (some A)).bind fun _ _ hx _ _ =>
    absurd (hb.trans (congrArg some (eq_of_admin hb hx).symm)) ha

variable {t : String}

theorem setTenant (ht : t ≠ A) (active : Bool) :
    Except.Rel Q (Directory.AgreesOn E A) (setTenant d m r actor t active)
      (setTenant d' m' r actor t active) := by
  unfold Authority.setTenant
  refine .bind_eq rfl fun _ _ => (h.admin ha hQ none).bind fun _ _ _ _ _ => ?_
  have hrow : d.tenants.lookup t = d'.tenants.lookup t := h.dir.tenants t ht
  rw [hrow]
  exact h.dir.write_tenant t _

theorem enrollPlatformAdmin (issuer subj : String) :
    Except.Rel Q (Directory.AgreesOn E A) (enrollPlatformAdmin cfg d m r actor issuer subj)
      (enrollPlatformAdmin cfg d' m' r actor issuer subj) := by
  unfold Authority.enrollPlatformAdmin
  refine .bind_eq rfl fun _ _ => .bind_eq rfl fun _ _ =>
    (h.admin ha hQ none).bind fun _ _ _ _ _ => ?_
  have hrows : d.platformAdmins = d'.platformAdmins := h.dir.platformAdmins
  rw [← hrows]
  have hwrite := h.dir.write_platform (issuer, subj)
    ⟨nextRevision Enrollment.revision (d.platformAdmins.lookup (issuer, subj)), true⟩
  rw [← hrows] at hwrite
  exact hwrite

theorem revokePlatformAdmin (issuer subj : String) :
    Except.Rel Q (Directory.AgreesOn E A) (revokePlatformAdmin d m r actor issuer subj)
      (revokePlatformAdmin d' m' r actor issuer subj) := by
  unfold Authority.revokePlatformAdmin
  refine (h.admin ha hQ none).bind fun _ _ _ _ _ =>
    .bind_eq (h.dir.platform issuer subj) fun row _ => ?_
  have hrows : d.platformAdmins = d'.platformAdmins := h.dir.platformAdmins
  refine .bind_eq (by rw [hrows]) fun _ _ => ?_
  exact h.dir.write_platform (issuer, subj) _

theorem enrollMember (ht : t ≠ A) (issuer subj : String) (role : Role)
    (capabilities targets : List String) :
    Except.Rel Q (Directory.AgreesOn E A)
      (enrollMember cfg d m r actor t issuer subj role capabilities targets)
      (enrollMember cfg d' m' r actor t issuer subj role capabilities targets) := by
  unfold Authority.enrollMember
  refine .bind_eq rfl fun _ _ => .bind_eq rfl fun _ _ => .bind_eq rfl fun _ _ =>
    .bind_eq rfl fun _ _ => .bind_eq rfl fun _ _ => (h.admin ha hQ (some t)).bind fun _ _ _ _ _ =>
      .bind_eq (h.dir.tenant (mt Option.some.inj ht)) fun _ _ => ?_
  rw [h.dir.members t issuer subj ht]
  exact h.dir.write_member _ _

theorem enrollAgent (ht : t ≠ A) (agentId publicKeyHex : String)
    (capabilities targets : List String) :
    Except.Rel Q (Directory.AgreesOn E A)
      (enrollAgent cfg d m r actor t agentId publicKeyHex capabilities targets)
      (enrollAgent cfg d' m' r actor t agentId publicKeyHex capabilities targets) := by
  unfold Authority.enrollAgent
  refine .bind_eq rfl fun _ _ => .bind_eq rfl fun _ _ => .bind_eq rfl fun _ _ =>
    .bind_eq rfl fun _ _ => .bind_eq rfl fun _ _ => (h.admin ha hQ (some t)).bind fun _ _ _ _ _ =>
      .bind_eq (h.dir.tenant (mt Option.some.inj ht)) fun _ _ => ?_
  rw [h.dir.agents t agentId ht]
  exact h.dir.write_agent _ _

theorem revokeAgent (ht : t ≠ A) (agentId : String) :
    Except.Rel Q (Directory.AgreesOn E A) (revokeAgent d m r actor t agentId)
      (revokeAgent d' m' r actor t agentId) := by
  unfold Authority.revokeAgent
  refine (h.admin ha hQ (some t)).bind fun _ _ _ _ _ =>
    .bind_eq (h.dir.agent (mt Option.some.inj ht) _) fun row _ => ?_
  exact h.dir.write_agent _ _

theorem revokeMember (ht : t ≠ A) (issuer subj : String) :
    Except.Rel Q (Directory.AgreesOn E A) (revokeMember d m r actor t issuer subj)
      (revokeMember d' m' r actor t issuer subj) := by
  unfold Authority.revokeMember
  refine (h.admin ha hQ (some t)).bind fun _ _ _ _ _ =>
    .bind_eq (h.dir.member (mt Option.some.inj ht) _ _) fun row _ => ?_
  exact h.dir.write_member _ _

theorem revokeDelegation (ht : t ≠ A) (grantId : String) :
    Except.Rel Q (Directory.AgreesOn E A) (revokeDelegation d m r actor t grantId)
      (revokeDelegation d' m' r actor t grantId) := by
  unfold Authority.revokeDelegation
  refine (h.admin ha hQ (some t)).bind fun _ _ _ _ _ => ?_
  rw [h.dir.delegations t grantId ht]
  cases d'.delegations.lookup (t, grantId) with
  | none => exact .of_errors rfl rfl fun _ => rfl
  | some row => exact h.dir.write_delegation _ _

end Admin

theorem bootstrapPlatformAdmin (h : d.AgreesOn E A d') (issuer subj : String) :
    Except.Rel Q (Directory.AgreesOn E A) (bootstrapPlatformAdmin cfg d issuer subj)
      (bootstrapPlatformAdmin cfg d' issuer subj) := by
  unfold Authority.bootstrapPlatformAdmin
  refine .bind_eq rfl fun _ _ => .bind_eq rfl fun _ _ =>
    .bind_eq (by rw [h.platformAdmins]) fun _ _ => ?_
  exact h.write_platform _ _

/-- A claim that is not outdated on either side survives the batch on both. -/
theorem pruneReplays (h : Agrees E A (d, m) (d', m')) (ha : actor.tenantId ≠ some A)
    (hQ : Q → ¬Tainted E actor) (limit : ℕ)
    (hE : ∀ d₁, pruneReplays d m r actor limit = .ok d₁ → ∀ k claimed,
      d.replays.lookup k = some claimed → claimed < r.second - 600 → E k)
    (hE' : ∀ d₁, pruneReplays d' m' r actor limit = .ok d₁ → ∀ k claimed,
      d'.replays.lookup k = some claimed → claimed < r.second - 600 → E k) :
    Except.Rel Q (Directory.AgreesOn E A) (pruneReplays d m r actor limit)
      (pruneReplays d' m' r actor limit) := by
  have hrel : Except.Rel Q (fun _ _ => True) (Authority.pruneReplays d m r actor limit)
      (Authority.pruneReplays d' m' r actor limit) := by
    unfold Authority.pruneReplays
    exact .bind_eq rfl fun _ _ => (h.admin ha hQ none).bind fun _ _ _ _ _ => trivial
  cases hx : Authority.pruneReplays d m r actor limit with
  | error e =>
    cases hy : Authority.pruneReplays d' m' r actor limit with
    | error e' => rwa [hx, hy] at hrel
    | ok d₂ => rw [hx, hy] at hrel; exact hrel.elim
  | ok d₁ =>
    cases hy : Authority.pruneReplays d' m' r actor limit with
    | error e' => rw [hx, hy] at hrel; exact hrel.elim
    | ok d₂ =>
      have hkeep : ∀ k, k.1 ≠ A → ¬E k → d₁.replays.lookup k = d₂.replays.lookup k := by
        intro k hkA hne
        rw [lookup_of_pruneReplays hx fun claimed hl hlt => hne (hE d₁ hx k claimed hl hlt),
          lookup_of_pruneReplays hy fun claimed hl hlt => hne (hE' d₂ hy k claimed hl hlt)]
        exact h.dir.replays k hkA hne
      rw [pruneReplays_dir hx, pruneReplays_dir hy] at hkeep ⊢
      exact { h.dir with replays := hkeep }

theorem optionalGrant (h : d.AgreesOn E A d') {t : String} (ht : t ≠ A) (now : Time)
    (grantId : Option String) (agentId : String) (agent : AgentRow) :
    optionalGrant d now t grantId agentId agent = optionalGrant d' now t grantId agentId agent := by
  unfold Authority.optionalGrant
  cases grantId with
  | none => rfl
  | some g => simp only [h.grant (mt Option.some.inj ht)]

theorem derivePrincipal (h : d.AgreesOn E A d') {t : String} (ht : t ≠ A) (now : Time)
    (agentId : String) (grantId : Option String) (validUntil : Time) :
    derivePrincipal d now t agentId grantId validUntil =
      derivePrincipal d' now t agentId grantId validUntil := by
  have hsome : some t ≠ some A := mt Option.some.inj ht
  simp only [Authority.derivePrincipal, h.tenant hsome, h.agent hsome, optionalGrant h ht]

theorem mintOperator (h : d.AgreesOn E A d') {c : OperatorCall} (hc : c.tenantId ≠ some A) :
    mintOperator d c = mintOperator d' c := by
  unfold Authority.mintOperator
  cases ht : c.tenantId with
  | none => simp only [h.platform]
  | some t =>
    rw [ht] at hc
    simp only [h.tenant hc, h.member hc]

theorem authenticateAgent (h : d.AgreesOn E A d') {c : AgentCall} (hc : c.request.tenantId ≠ A)
    (hE : ¬E (c.request.tenantId, c.request.agentId, c.request.nonce)) :
    Except.Rel Q (fun x y => x.1.AgreesOn E A y.1 ∧ x.2 = y.2) (authenticateAgent cfg d r c)
      (authenticateAgent cfg d' r c) := by
  have hsome : some c.request.tenantId ≠ some A := mt Option.some.inj hc
  unfold Authority.authenticateAgent
  refine .bind_eq (h.tenant hsome) fun _ _ => .bind_eq (h.agent hsome _) fun _ _ =>
    .bind_eq rfl fun _ _ => .bind_eq (optionalGrant h hc _ _ _ _) fun _ _ => ?_
  have hclaim := h.replays (c.request.tenantId, c.request.agentId, c.request.nonce) hc hE
  unfold Table.insertNew
  rw [hclaim]
  cases d'.replays.lookup (c.request.tenantId, c.request.agentId, c.request.nonce) with
  | some _ => exact .of_errors rfl rfl fun _ => rfl
  | none => exact ⟨h.write_replay _ _, rfl⟩

theorem grantDelegation (h : Agrees E A (d, m) (d', m')) {c : DelegationCall}
    (ha : c.actor.tenantId ≠ some A) (hQ : Q → ¬Tainted E c.actor) (hc : c.tenantId ≠ A)
    (huser : c.user.tenantId = some c.tenantId) (hkind : ∃ role, c.user.kind = .member role)
    (grantId : String) :
    Except.Rel Q (Directory.AgreesOn E A) (grantDelegation d m r c grantId)
      (grantDelegation d' m' r c grantId) := by
  have hsome : some c.tenantId ≠ some A := mt Option.some.inj hc
  have hclean : ¬Tainted E c.user := by
    rintro ⟨k, -, hclaims⟩
    obtain ⟨role, hrole⟩ := hkind
    rcases hclaims.kind with hk | hk
    · rw [hrole] at hk; cases hk
    · rw [hrole] at hk; cases hk
  unfold Authority.grantDelegation
  refine (h.admin ha hQ _).bind fun _ _ _ _ _ =>
    .bind_eq (h.current (by rw [huser]; exact hsome) hclean) fun _ _ => .bind_eq rfl fun _ _ =>
      .bind_eq (h.dir.agent hsome _) fun _ _ => .bind_eq rfl fun _ _ => ?_
  unfold Table.insertNew
  rw [h.dir.delegations c.tenantId grantId hc]
  cases d'.delegations.lookup (c.tenantId, grantId) with
  | some _ => exact .of_errors rfl rfl fun _ => rfl
  | none => exact h.dir.write_delegation _ _

theorem beginDelegation (h : Agrees E A (d, m) (d', m')) {q : DelegationRequest}
    (hp : q.user.tenantId ≠ some A) (hQ : Q → ¬Tainted E q.user) :
    Except.Rel Q Eq (beginDelegation m r q) (beginDelegation m' r q) := by
  by_cases ht : Tainted E q.user
  · -- the consent of an agent is refused on both sides
    have hrefused : ∀ m : List Principal, ∃ e, Authority.beginDelegation m r q = .error e := by
      intro m
      cases hx : Authority.beginDelegation m r q with
      | error e => exact ⟨e, rfl⟩
      | ok c =>
        obtain ⟨k, -, hclaims⟩ := ht
        simp only [Authority.beginDelegation, Except.bind_eq_ok] at hx
        obtain ⟨-, -, hx⟩ := hx
        rcases hclaims.kind with hk | hk <;> simp [hk] at hx
    obtain ⟨e, he⟩ := hrefused m
    obtain ⟨e', he'⟩ := hrefused m'
    exact .of_errors he he' fun hq => absurd ht (hQ hq)
  · refine .of_eq ?_
    simp only [Authority.beginDelegation, h.verifySeal hp ht]

end Agrees

/-- The claim of a request's transaction. -/
def AgentCall.key (c : AgentCall) : ReplayKey :=
  (c.request.tenantId, c.request.agentId, c.request.nonce)

/-- The consent in a call in flight is a member's, for the call's tenant. -/
def Call.IsConsented : Call → Prop
  | .delegation c => c.user.tenantId = some c.tenantId ∧ ∃ role, c.user.kind = .member role
  | _ => True

/-- An accepted `prune_replays` may delete the claim: it was made over 600 seconds ago. -/
def Outdated (cfg : Config) (k : ReplayKey) (s : State) (e : Event) : Prop :=
  ∃ actor limit claimed, e.action = .pruneReplays actor limit ∧ (exec cfg s e).isOk = true ∧
    s.dir.replays.lookup k = some claimed ∧ claimed < e.reads.second - 600

@[simp] theorem State.operation_reads (s : State) (e : Event) : (s.operation e).reads = e.reads := by
  obtain ⟨action, r⟩ := e
  cases action <;> rfl

variable {s : State} {e : Event}

/-- Only a transaction is renamed. -/
theorem State.action_of_operation {a : Action} (h : (s.operation e).action = a)
    (ha : ∀ i g, a ≠ .commit i g) : e.action = a := by
  obtain ⟨action, r⟩ := e
  cases action
  case commit i g => exact absurd h.symm (ha 0 g)
  all_goals exact h

theorem isOk_prune {limit : ℕ} {d₁ : Directory} (he : e.action = .pruneReplays actor limit)
    (h : pruneReplays s.dir s.minted e.reads actor limit = .ok d₁) :
    (exec cfg s e).isOk = true := by
  simp [exec, he, h, Except.isOk, Except.toBool]

/-- The same rows written on both sides, and nothing minted. -/
theorem written {x y : Except Fault Directory} (h : Except.Rel Q (Directory.AgreesOn E A) x y) :
    Except.Rel Q (fun x y => x.1.AgreesOn E A y.1 ∧ x.2 = y.2)
      (x.map (·, ([] : List Principal))) (y.map (·, [])) :=
  h.map fun _ _ _ _ hd => ⟨hd, rfl⟩

/-- An operation that is not about `A` has the same effect on both sides. -/
theorem perform_rel {t : State} {e' : Event} (h : Agrees E A (s.dir, s.minted) (t.dir, t.minted))
    (hsame : t.operation e' = s.operation e) (hA : (s.operation e).isAbout A = false)
    (hQ : Q → ∀ p ∈ (s.operation e).principals, ¬Tainted E p)
    (hkey : ∀ c, (s.operation e).call = some (.agent c) → ¬E c.key)
    (hconsent : ∀ c, (s.operation e).call = some c → c.IsConsented)
    (hE : ∀ k, Outdated cfg k s e → E k) (hE' : ∀ k, Outdated cfg k t e' → E k) :
    Except.Rel Q (fun x y => x.1.AgreesOn E A y.1 ∧ x.2 = y.2)
      (perform cfg s.dir s.minted (s.operation e))
      (perform cfg t.dir t.minted (s.operation e)) := by
  have hprune : ∀ actor limit, (s.operation e).action = .pruneReplays actor limit →
      e'.action = .pruneReplays actor limit ∧ e'.reads = e.reads := by
    intro actor limit heq
    refine ⟨State.action_of_operation (by rw [hsame, heq]) (by simp), ?_⟩
    rw [← State.operation_reads t e', hsame, State.operation_reads]
  obtain ⟨action, r⟩ := e
  cases action
  case commit position grantId =>
    simp only [State.operation, Operation.isAbout, Operation.isOf, Action.parties,
      Action.addressed, Operation.principals, Action.principals] at hA hQ hkey hconsent ⊢
    cases hcall : s.calls[position]? with
    | none => exact .of_errors rfl rfl fun _ => rfl
    | some call =>
      rw [hcall] at hA hQ hkey hconsent
      cases call with
      | operator c =>
        have hc : c.tenantId ≠ some A := by simpa [Call.parties] using hA
        exact (Except.Rel.of_eq (Agrees.mintOperator h.dir hc)).map
          fun p q _ _ hpq => ⟨h.dir, by rw [hpq]⟩
      | agent c =>
        have hc : c.request.tenantId ≠ A := by simpa [Call.parties] using hA
        exact (Agrees.authenticateAgent h.dir hc (hkey c rfl)).map
          fun x y _ _ hxy => ⟨hxy.1, by rw [hxy.2]⟩
      | delegation c =>
        have hc : c.actor.tenantId ≠ some A ∧ c.tenantId ≠ A := by
          simpa [Call.parties] using hA
        obtain ⟨huser, hkind⟩ := hconsent _ rfl
        exact written (h.grantDelegation hc.1 (fun hq => hQ hq _ (by simp [Call.principals])) hc.2
          huser hkind grantId)
  all_goals
    simp only [State.operation, Operation.isAbout, Operation.isOf, Action.parties,
      Action.addressed, Operation.principals, Action.principals] at hA hQ hprune ⊢
  case bootstrapPlatformAdmin issuer subj =>
    exact written (Agrees.bootstrapPlatformAdmin h.dir issuer subj)
  case setTenant actor tenantId active =>
    have ha : actor.tenantId ≠ some A ∧ tenantId ≠ A := by simpa using hA
    exact written (h.setTenant ha.1 (fun hq => hQ hq _ (by simp)) ha.2 active)
  case enrollPlatformAdmin actor issuer subj =>
    have ha : actor.tenantId ≠ some A := by simpa using hA
    exact written (h.enrollPlatformAdmin ha (fun hq => hQ hq _ (by simp)) issuer subj)
  case revokePlatformAdmin actor issuer subj =>
    have ha : actor.tenantId ≠ some A := by simpa using hA
    exact written (h.revokePlatformAdmin ha (fun hq => hQ hq _ (by simp)) issuer subj)
  case enrollMember actor tenantId issuer subj role capabilities targets =>
    have ha : actor.tenantId ≠ some A ∧ tenantId ≠ A := by simpa using hA
    exact written (h.enrollMember ha.1 (fun hq => hQ hq _ (by simp)) ha.2 issuer subj role
      capabilities targets)
  case enrollAgent actor tenantId agentId publicKeyHex capabilities targets =>
    have ha : actor.tenantId ≠ some A ∧ tenantId ≠ A := by simpa using hA
    exact written (h.enrollAgent ha.1 (fun hq => hQ hq _ (by simp)) ha.2 agentId publicKeyHex
      capabilities targets)
  case revokeAgent actor tenantId agentId =>
    have ha : actor.tenantId ≠ some A ∧ tenantId ≠ A := by simpa using hA
    exact written (h.revokeAgent ha.1 (fun hq => hQ hq _ (by simp)) ha.2 agentId)
  case revokeMember actor tenantId issuer subj =>
    have ha : actor.tenantId ≠ some A ∧ tenantId ≠ A := by simpa using hA
    exact written (h.revokeMember ha.1 (fun hq => hQ hq _ (by simp)) ha.2 issuer subj)
  case revokeDelegation actor tenantId grantId =>
    have ha : actor.tenantId ≠ some A ∧ tenantId ≠ A := by simpa using hA
    exact written (h.revokeDelegation ha.1 (fun hq => hQ hq _ (by simp)) ha.2 grantId)
  case pruneReplays actor limit =>
    have ha : actor.tenantId ≠ some A := by simpa using hA
    obtain ⟨haction, hreads⟩ := hprune actor limit rfl
    refine written (h.pruneReplays ha (fun hq => hQ hq _ (by simp)) limit ?_ ?_)
    · intro d₁ hd₁ k claimed hk hlt
      exact hE k ⟨actor, limit, claimed, rfl, isOk_prune rfl hd₁, hk, hlt⟩
    · intro d₁ hd₁ k claimed hk hlt
      have hok : (exec cfg t e').isOk = true := isOk_prune haction (by rw [hreads]; exact hd₁)
      exact hE' k ⟨actor, limit, claimed, haction, hok, hk, by rw [hreads]; exact hlt⟩
  case derive tenantId agentId grantId validUntil =>
    have ht : tenantId ≠ A := by simpa using hA
    exact (Except.Rel.of_eq (Agrees.derivePrincipal h.dir ht _ agentId grantId validUntil)).map
      fun p q _ _ hpq => ⟨h.dir, by rw [hpq]⟩
  case beginOperator issuer token tenantId | beginAgent request =>
    exact (Except.Rel.of_eq rfl).map fun _ _ _ _ _ => ⟨h.dir, rfl⟩
  case beginDelegation request =>
    have ha : request.actor.tenantId ≠ some A ∧ request.user.tenantId ≠ some A := by
      simpa using hA
    exact (h.beginDelegation ha.2 fun hq => hQ hq request.user (by simp)).map
      fun _ _ _ _ _ => ⟨h.dir, rfl⟩

/-- Rows of `A` are out of reach for a principal of another tenant, in both runs alike. -/
theorem perform_denied {t : State} {B : String} (h : Agrees E A (s.dir, s.minted) (t.dir, t.minted))
    (hA : (s.operation e).isOf A = false) (hB : (s.operation e).isOf B = true)
    (haddressed : (s.operation e).action.addressed = some A)
    (hQ : Q → ∀ p ∈ (s.operation e).principals, ¬Tainted E p) :
    Except.Rel Q (fun _ _ => False) (perform cfg s.dir s.minted (s.operation e))
      (perform cfg t.dir t.minted (s.operation e)) := by
  obtain ⟨action, r⟩ := e
  cases action
  all_goals
    simp only [State.operation, Operation.isOf, Action.parties, Operation.principals,
      Action.principals] at hA hB hQ
    try cases haddressed
  -- such a principal passes `_admin` for its own tenant only
  case setTenant actor active =>
    refine Except.Rel.map (R := fun _ _ => False) ?_ fun _ _ _ _ hf => hf
    refine .bind_eq rfl fun _ _ =>
      (h.admin (by simpa using hA) (fun hq => hQ hq _ (by simp)) none).bind ?_
    exact fun _ _ hx _ _ => absurd hx (not_admin_none (A := B) (by simpa using hB))
  case enrollMember | enrollAgent =>
    refine Except.Rel.map (R := fun _ _ => False) ?_ fun _ _ _ _ hf => hf
    refine .bind_eq rfl fun _ _ => .bind_eq rfl fun _ _ => .bind_eq rfl fun _ _ =>
      .bind_eq rfl fun _ _ => .bind_eq rfl fun _ _ => ?_
    exact h.denied (by simpa using hA) (fun hq => hQ hq _ (by simp)) (by simpa using hB)
  all_goals
    refine Except.Rel.map (R := fun _ _ => False) ?_ fun _ _ _ _ hf => hf
    exact h.denied (by simpa using hA) (fun hq => hQ hq _ (by simp)) (by simpa using hB)

end Visible

/-! ### The listing of agents -/

/-- One entry of `list_agents`. -/
structure AgentEntry where
  agentId : String
  publicKeyHex : String
  revision : ℕ
  active : Bool
  deriving DecidableEq, Repr

/-- `list_agents`: the agents of a tenant, in the order of their ids. -/
def listAgents (d : Directory) (minted : List Principal) (r : Reads) (actor : Principal)
    (tenantId : String) : Except Fault (List AgentEntry) := do
  admin d minted r actor (some tenantId)
  let _ ← d.tenant (some tenantId)
  let ids := ((d.agents.keys.filter fun k => k.1 == tenantId).map Prod.snd).insertionSort (· ≤ ·)
  return ids.filterMap fun a => (d.agents.lookup (tenantId, a)).map fun row =>
    ⟨a, row.publicKeyHex, row.revision, row.active⟩

section Listing

variable {E : ReplayKey → Prop} {A : String} {d d' : Directory} {m m' : List Principal}

/-- The ids of a tenant's agents are the same up to order. -/
theorem agentIds_perm (h : d.AgreesOn E A d') {t : String} (ht : t ≠ A) :
    ((d.agents.keys.filter fun k => k.1 == t).map Prod.snd).Perm
      ((d'.agents.keys.filter fun k => k.1 == t).map Prod.snd) := by
  have hkeys : (d.agents.keys.filter fun k => k.1 == t).Perm
      (d'.agents.keys.filter fun k => k.1 == t) := by
    refine (perm_ext_iff_of_nodup (d.agents.keys_nodup.filter _)
      (d'.agents.keys_nodup.filter _)).mpr fun k => ?_
    rw [mem_filter, mem_filter]
    refine and_congr_left fun hk => ?_
    have hkt : k.1 = t := by simpa using hk
    have hlookup : d.agents.lookup k = d'.agents.lookup k := h.agents k.1 k.2 (hkt ▸ ht)
    rw [← AList.mem_keys, ← AList.mem_keys, ← AList.lookup_isSome, ← AList.lookup_isSome, hlookup]
  exact hkeys.map _

theorem Agrees.listAgents (h : Agrees E A (d, m) (d', m')) {actor : Principal}
    (ha : actor.tenantId ≠ some A) (hu : ¬Tainted E actor) {t : String} (ht : t ≠ A) (r : Reads) :
    listAgents d m r actor t = listAgents d' m' r actor t := by
  have hsome : some t ≠ some A := mt Option.some.inj ht
  have hids : (((d.agents.keys.filter fun k => k.1 == t).map Prod.snd).insertionSort (· ≤ ·)) =
      (((d'.agents.keys.filter fun k => k.1 == t).map Prod.snd).insertionSort (· ≤ ·)) := by
    have hperm := ((perm_insertionSort (· ≤ ·) _).trans (agentIds_perm h.dir ht)).trans
      (perm_insertionSort (· ≤ ·) _).symm
    exact hperm.eq_of_sortedLE sortedLE_insertionSort sortedLE_insertionSort
  have hrows : ∀ a, d.agents.lookup (t, a) = d'.agents.lookup (t, a) :=
    fun a => h.dir.agents t a ht
  simp only [Authority.listAgents, Authority.admin, h.current ha hu, h.dir.tenant hsome, hids, hrows]

end Listing

end Authority

end AgentBridge
