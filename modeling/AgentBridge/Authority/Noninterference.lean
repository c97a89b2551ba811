import AgentBridge.Authority.TwoRuns

/-!
# Tenants do not interfere

Two runs of the directory are compared that differ only in the operations of one tenant: those
performed by its principals or made with its credentials. They never show in the rows of another
tenant, nor in what its operations answer.

The one thing the tenants share is the batch of `prune_replays`: it deletes the *oldest* claims of
all tenants together, so the claims of one tenant decide whether an outdated claim of another one
is deleted now or by a later call.

* `tenants_do_not_interfere` : **the two-run property, up to outdated replay claims**.
-/

namespace AgentBridge

open List

namespace Authority

/-! ### Two runs -/

/-- The operations of everybody but `A`. -/
def seen (A : String) (s : State) (e : Event) : Option Operation :=
  if (s.operation e).isOf A then none else some (s.operation e)

/-- What an operation answers: a refusal, or the contexts it mints. -/
def answer (cfg : Config) (s : State) (e : Event) : Except Fault (List Principal) :=
  (exec cfg s e).map fun s' => s'.minted.drop s.minted.length

/-- The operations of everybody but `A` in a run, with their answers. -/
def logWithout (cfg : Config) (A : String) : State → List Event →
    List (Operation × Except Fault (List Principal)) :=
  LTS.log (exec cfg) (seen A) (answer cfg)

/-- The claim was outdated at some accepted `prune_replays` of one of the two runs. -/
def OutdatedIn (cfg : Config) (s : State) (es es' : List Event) (k : ReplayKey) : Prop :=
  LTS.Occurs (exec cfg) (Outdated cfg k) s es ∨ LTS.Occurs (exec cfg) (Outdated cfg k) s es'

/-- The operation neither presents a context of such a claim nor makes the claim again. -/
def Operation.Avoids (o : Operation) (E : ReplayKey → Prop) : Prop :=
  (∀ p ∈ o.principals, ¬Tainted E p) ∧ ∀ c, o.call = some (.agent c) → ¬E c.key

/-- Tables and contexts of a state. -/
def State.core (s : State) : Directory × List Principal := (s.dir, s.minted)

/-- Every consent in flight is a member's. -/
def State.Consenting (s : State) : Prop := ∀ c ∈ s.calls, c.IsConsented

section Unwinding

variable {cfg : Config} {A : String} {E : ReplayKey → Prop} {s t : State} {e e' : Event}

/-- A step leaves what `perform` returns; a refused one leaves everything. -/
theorem core_attempt (cfg : Config) (s : State) (e : Event) :
    (LTS.attempt (exec cfg) s e).core =
      match perform cfg s.dir s.minted (s.operation e) with
      | .ok x => (x.1, s.minted ++ x.2)
      | .error _ => s.core := by
  have hexec := exec_eq_perform cfg s e
  unfold LTS.attempt
  cases hx : exec cfg s e with
  | error f =>
    cases hy : perform cfg s.dir s.minted (s.operation e) with
    | error g => rfl
    | ok x => rw [hx, hy] at hexec; cases hexec
  | ok s' =>
    cases hy : perform cfg s.dir s.minted (s.operation e) with
    | error g => rw [hx, hy] at hexec; cases hexec
    | ok x => rw [hx, hy] at hexec; exact Except.ok.inj hexec

theorem answer_eq (cfg : Config) (s : State) (e : Event) :
    answer cfg s e = (perform cfg s.dir s.minted (s.operation e)).map Prod.snd := by
  have hexec := exec_eq_perform cfg s e
  unfold answer
  cases hx : exec cfg s e with
  | error f =>
    cases hy : perform cfg s.dir s.minted (s.operation e) with
    | error g => rw [hx, hy] at hexec; cases hexec; rfl
    | ok x => rw [hx, hy] at hexec; cases hexec
  | ok s' =>
    cases hy : perform cfg s.dir s.minted (s.operation e) with
    | error g => rw [hx, hy] at hexec; cases hexec
    | ok x =>
      rw [hx, hy] at hexec
      have hminted : s'.minted = s.minted ++ x.2 := congrArg Prod.snd (Except.ok.inj hexec)
      simp [Except.map, hminted]

/-- An operation about `A` does not show. -/
theorem agrees_attempt (hA : (s.operation e).isAbout A = true) :
    Agrees E A s.core (LTS.attempt (exec cfg) s e).core := by
  rw [core_attempt]
  cases hx : perform cfg s.dir s.minted (s.operation e) with
  | error f => exact .refl _
  | ok x =>
    obtain ⟨dir, new⟩ := x
    obtain ⟨hdir, hnew⟩ := perform_frame (E := E) hA hx
    exact .of_dir hdir fun p hp => .inl (hnew p hp)

theorem isConsented_of_beginDelegation {m : List Principal} {r : Reads} {q : DelegationRequest}
    {c : DelegationCall} (h : beginDelegation m r q = .ok c) :
    (Call.delegation c).IsConsented := by
  simp only [beginDelegation, Except.bind_eq_ok] at h
  obtain ⟨-, -, h⟩ := h
  split at h
  case h_1 role t hkind ht =>
    simp only [Except.bind_eq_ok, Except.pure_eq_ok] at h
    obtain ⟨_, -, _, -, -, -, rfl⟩ := h
    exact ⟨ht, role, hkind⟩
  case h_2 => simp at h

theorem State.Consenting.attempt (h : s.Consenting) (e : Event) :
    (LTS.attempt (exec cfg) s e).Consenting := by
  unfold LTS.attempt
  split
  case h_2 => exact h
  case h_1 s' hexec =>
    have happend : ∀ c : Call, c.IsConsented → ∀ c' ∈ s.calls ++ [c], c'.IsConsented := by
      intro c hc c' hc'
      rcases mem_append.mp hc' with hold | hnew
      · exact h c' hold
      · rw [mem_singleton.mp hnew]
        exact hc
    cases outcome_of_exec hexec with
    | beginOperator | beginAgent => exact happend _ trivial
    | beginDelegation _ hbegin => exact happend _ (isConsented_of_beginDelegation hbegin)
    | commitOperator | commitAgent | commitDelegation =>
      exact fun c hc => h c (mem_of_mem_eraseIdx hc)
    | _ => exact h

theorem isAbout_of_isOf {o : Operation} (h : o.isOf A = true) : o.isAbout A = true := by
  simp [Operation.isAbout, h]

theorem isAbout_of_seen (h : seen A s e = none) : (s.operation e).isAbout A = true := by
  refine isAbout_of_isOf ?_
  by_contra hnot
  simp [seen, hnot] at h

theorem operation_of_seen {o : Operation} (h : seen A s e = some o) :
    (s.operation e).isOf A = false ∧ s.operation e = o := by
  unfold seen at h
  split at h
  case isTrue => cases h
  case isFalse hnot => exact ⟨by simpa using hnot, Option.some.inj h⟩

/-- The call that a transaction finishes is in flight. -/
theorem mem_calls_of_operation {c : Call} (h : (s.operation e).call = some c) : c ∈ s.calls := by
  obtain ⟨action, r⟩ := e
  cases action
  case commit position grantId => exact mem_of_getElem? h
  all_goals cases h

theorem claims_agentPrincipal {tenant : Enrollment} {agent : AgentRow}
    {grant : Option (String × DelegationRow)} {t a nonce sha : String} {validUntil : Time} :
    (agentPrincipal t tenant a agent grant validUntil sha nonce).Claims (t, a, nonce) := by
  refine ⟨?_, tenantId_agentPrincipal, agentId_agentPrincipal, requestNonce_agentPrincipal⟩
  cases grant <;> simp [agentPrincipal]

/-- A request that makes a claim in `E` again shows in that claim only. -/
theorem agrees_attempt_agent {c : AgentCall} (hcall : (s.operation e).call = some (.agent c))
    (hE : E c.key) : Agrees E A s.core (LTS.attempt (exec cfg) s e).core := by
  obtain ⟨action, r⟩ := e
  cases action
  case commit position grantId =>
    have hperform : perform cfg s.dir s.minted (s.operation ⟨.commit position grantId, r⟩) =
        (authenticateAgent cfg s.dir r c).map fun x => (x.1, [x.2]) := by
      have hposition : s.calls[position]? = some (.agent c) := hcall
      simp [State.operation, perform, hposition]
    rw [core_attempt, hperform]
    cases hx : authenticateAgent cfg s.dir r c with
    | error f => exact .refl _
    | ok x =>
      have hok := AuthenticateOk.of_authenticateAgent (p := x.2) hx
      obtain ⟨_, _, _, -, -, -, hp⟩ := hok.rows
      refine .of_dir ?_ fun p hmem => .inr ⟨c.key, hE, ?_⟩
      · rw [hok.dir_eq]
        exact .hide_replay s.dir (.inr hE) _
      · rw [mem_singleton.mp hmem, hp]
        exact claims_agentPrincipal
  all_goals cases hcall

/-- The seen operations whose answers are the same in both runs. -/
def Operation.IsCompared (E : ReplayKey → Prop) (A : String) (o : Operation) : Prop :=
  o.Avoids E ∧ (o.action.addressed ≠ some A ∨ ∃ B, o.isOf B = true)

/-- Two runs seen by everybody but `A`. -/
def Alike (E : ReplayKey → Prop) (A : String) (s t : State) : Prop :=
  Agrees E A s.core t.core ∧ s.Consenting ∧ t.Consenting

/-- What happens on both sides in the same way keeps the agreement. -/
theorem agrees_attempt_both {Q : Prop} (h : Agrees E A s.core t.core)
    (hsame : t.operation e' = s.operation e)
    (hrel : Except.Rel Q (fun x y => x.1.AgreesOn E A y.1 ∧ x.2 = y.2)
      (perform cfg s.dir s.minted (s.operation e)) (perform cfg t.dir t.minted (s.operation e))) :
    Agrees E A (LTS.attempt (exec cfg) s e).core (LTS.attempt (exec cfg) t e').core := by
  rw [core_attempt, core_attempt, hsame]
  cases hx : perform cfg s.dir s.minted (s.operation e) with
  | error f =>
    cases hy : perform cfg t.dir t.minted (s.operation e) with
    | error g => exact h
    | ok y => rw [hx, hy] at hrel; exact hrel.elim
  | ok x =>
    cases hy : perform cfg t.dir t.minted (s.operation e) with
    | error g => rw [hx, hy] at hrel; exact hrel.elim
    | ok y =>
      rw [hx, hy] at hrel
      obtain ⟨hdir, hnew⟩ := hrel
      refine ⟨hdir, fun p hp hu => ?_⟩
      show p ∈ s.minted ++ x.2 ↔ p ∈ t.minted ++ y.2
      rw [mem_append, mem_append, hnew]
      exact or_congr_left (h.minted p hp hu)

/-- **The operations of a tenant do not show**, and the others go the same way in both runs. -/
theorem unwinding_tenant (cfg : Config) (A : String) (E : ReplayKey → Prop) :
    LTS.Unwinding (exec cfg) (seen A) (answer cfg) (fun s e => ∀ k, Outdated cfg k s e → E k)
      (Operation.IsCompared E A) (Alike E A) where
  left s t e h hG hseen := by
    obtain ⟨hagrees, hs, ht⟩ := h
    exact ⟨(agrees_attempt (isAbout_of_seen hseen)).symm.trans hagrees, hs.attempt e, ht⟩
  right s t e h hG hseen := by
    obtain ⟨hagrees, hs, ht⟩ := h
    exact ⟨hagrees.trans (agrees_attempt (isAbout_of_seen hseen)), hs, ht.attempt e⟩
  both s t e e' o h hGs hGt hs ht := by
    obtain ⟨hagrees, hconsents, hconsentt⟩ := h
    obtain ⟨hnot, rfl⟩ := operation_of_seen hs
    obtain ⟨-, hsame⟩ := operation_of_seen ht
    -- an operation on rows of `A` does not show; one that makes a claim in `E` shows there only
    by_cases haddressed : (s.operation e).action.addressed = some A
    · have habout : (s.operation e).isAbout A = true := by
        simp [Operation.isAbout, haddressed]
      have habout' : (t.operation e').isAbout A = true := by rw [hsame, habout]
      refine ⟨⟨?_, hconsents.attempt e, hconsentt.attempt e'⟩, fun hP => ?_⟩
      · exact ((agrees_attempt habout).symm.trans hagrees).trans (agrees_attempt habout')
      · obtain ⟨B, hB⟩ := hP.2.resolve_left fun hne => hne haddressed
        have hrel : Except.Rel True (fun _ _ => False)
            (perform cfg s.dir s.minted (s.operation e))
            (perform cfg t.dir t.minted (s.operation e)) :=
          perform_denied hagrees hnot hB haddressed fun _ => hP.1.1
        rw [answer_eq, answer_eq, hsame]
        exact (hrel.map fun _ _ _ _ hf => hf.elim).eq trivial
    · have hnotabout : (s.operation e).isAbout A = false := by
        simp [Operation.isAbout, haddressed, hnot]
      have hconsented : ∀ c, (s.operation e).call = some c → c.IsConsented :=
        fun c hc => hconsents c (mem_calls_of_operation hc)
      by_cases hkey : ∃ c, (s.operation e).call = some (.agent c) ∧ E c.key
      · obtain ⟨c, hc, hE⟩ := hkey
        have hc' : (t.operation e').call = some (.agent c) := by rw [hsame, hc]
        refine ⟨⟨?_, hconsents.attempt e, hconsentt.attempt e'⟩, fun hP => ?_⟩
        · exact ((agrees_attempt_agent hc hE).symm.trans hagrees).trans
            (agrees_attempt_agent hc' hE)
        · exact absurd hE (hP.1.2 c hc)
      · have hfresh : ∀ c, (s.operation e).call = some (.agent c) → ¬E c.key :=
          fun c hc hE => hkey ⟨c, hc, hE⟩
        have hrel : ∀ Q : Prop, (Q → ∀ p ∈ (s.operation e).principals, ¬Tainted E p) → _ :=
          fun Q hQ => perform_rel (Q := Q) hagrees hsame hnotabout hQ hfresh hconsented hGs hGt
        refine ⟨⟨?_, hconsents.attempt e, hconsentt.attempt e'⟩, fun hP => ?_⟩
        · exact agrees_attempt_both hagrees hsame (hrel False False.elim)
        · rw [answer_eq, answer_eq, hsame]
          exact ((hrel True fun _ => hP.1.1).map fun _ _ _ _ hxy => hxy.2).eq trivial

end Unwinding

/-- **Tenants do not interfere.** An accepted operation of tenant `A` writes no platform row and
no row of another tenant. Two runs that differ in the operations of `A` only end with the same
rows of everybody else, give the same answers to every operation of another tenant or of the
platform, and accept the same contexts, except for replay claims that were outdated when one of
the runs pruned, and for the contexts of those claims. -/
theorem tenants_do_not_interfere (cfg : Config) (A : String) :
    (∀ s e s', (s.operation e).isOf A = true → exec cfg s e = .ok s' →
      s.dir.AgreesOn (fun _ => False) A s'.dir) ∧
    ∀ (d : Directory) (m : List Principal) (es es' : List Event),
      let s : State := { dir := d, minted := m }
      let E := OutdatedIn cfg s es es'
      let w := LTS.drive (exec cfg) s es
      let w' := LTS.drive (exec cfg) s es'
      (logWithout cfg A s es).map Prod.fst = (logWithout cfg A s es').map Prod.fst →
      w.dir.AgreesOn E A w'.dir ∧
      List.Forall₂ (fun x y => x.1 = y.1 ∧ (x.1.IsCompared E A → x.2 = y.2))
        (logWithout cfg A s es) (logWithout cfg A s es') ∧
      ∀ r p, p.tenantId ≠ some A → ¬Tainted E p →
        current w.dir w.minted r p = current w'.dir w'.minted r p ∧
        (∀ capability target, authorize w.dir w.minted r p capability target =
          authorize w'.dir w'.minted r p capability target) ∧
        ∀ t, t ≠ A → listAgents w.dir w.minted r p t = listAgents w'.dir w'.minted r p t := by
  refine ⟨fun s e s' hA hexec => ?_, fun d m es es' => ?_⟩
  · have hagrees : Agrees (fun _ => False) A s.core (LTS.attempt (exec cfg) s e).core :=
      agrees_attempt (isAbout_of_isOf hA)
    rw [LTS.attempt_eq hexec] at hagrees
    exact hagrees.dir
  · intro s E w w' hsame
    have hconsenting : s.Consenting := by simp [State.Consenting, s]
    have halike : Alike E A s s := ⟨.refl _, hconsenting, hconsenting⟩
    have hleft : LTS.Along (exec cfg) (fun s e => ∀ k, Outdated cfg k s e → E k) s es :=
      LTS.along_forall fun k => LTS.along_of_occurs .inl
    have hright : LTS.Along (exec cfg) (fun s e => ∀ k, Outdated cfg k s e → E k) s es' :=
      LTS.along_forall fun k => LTS.along_of_occurs .inr
    obtain ⟨⟨hagrees, -, -⟩, hanswers⟩ :=
      (unwinding_tenant cfg A E).related halike hleft hright hsame
    refine ⟨hagrees.dir, hanswers, fun r p hp hu => ⟨?_, ?_, ?_⟩⟩
    · exact hagrees.current hp hu
    · exact hagrees.authorize hp hu
    · exact fun t ht => hagrees.listAgents hp hu ht r

/-! ### Two tenants with one agent each -/

/-- Tenants `acme` and `globex` with an agent each. -/
def sampleTenants : State :=
  LTS.drive (exec sampleConfig) {} <|
    [ .bootstrapPlatformAdmin "https://idp.example" "root",
      .beginOperator "https://idp.example" "root-token" none,
      .commit 0 "",
      .setTenant sampleRoot "acme" true,
      .setTenant sampleRoot "globex" true,
      .enrollAgent sampleRoot "acme" "bot" (String.ofList (List.replicate 64 'a')) ["echo"] ["t1"],
      .enrollAgent sampleRoot "globex" "bot" (String.ofList (List.replicate 64 'b')) ["echo"] ["t1"]
    ].map fun action => ⟨action, ⟨100, 100⟩⟩

/-- A signed request of a tenant's agent. -/
def sampleRequestOf (tenantId : String) : SignedRequest :=
  { tenantId, agentId := "bot", nonce := "100:0123456789abcdef", body := [],
    signatureHex := String.ofList (List.replicate 128 'a'), delegationId := none }

/-- The agent of `globex` sends its request twice; the second transaction waits until after a
pruning. -/
def sampleGlobexEvents : List Event :=
  [⟨.beginAgent (sampleRequestOf "globex"), ⟨100, 100⟩⟩,
    ⟨.beginAgent (sampleRequestOf "globex"), ⟨100, 100⟩⟩,
    ⟨.commit 0 "", ⟨101, 101⟩⟩,
    ⟨.pruneReplays sampleRoot 1, ⟨1000, 1000⟩⟩,
    ⟨.commit 0 "", ⟨1000, 1000⟩⟩]

/-- A request of `acme` before that. -/
def sampleAcmeEvents : List Event :=
  [⟨.beginAgent (sampleRequestOf "acme"), ⟨100, 100⟩⟩, ⟨.commit 0 "", ⟨100, 100⟩⟩]

/-- A request of `acme` decides whether the outdated claim of `globex` is in the batch, and with
it what the waiting transaction answers. -/
theorem sample_prune_shared_batch :
    let s : State := { dir := sampleTenants.dir, minted := sampleTenants.minted }
    let log := logWithout sampleConfig "acme" s sampleGlobexEvents
    let log' := logWithout sampleConfig "acme" s (sampleAcmeEvents ++ sampleGlobexEvents)
    log.map Prod.fst = log'.map Prod.fst ∧
    ((LTS.drive (exec sampleConfig) s sampleGlobexEvents).dir.replays.lookup
      ("globex", "bot", "100:0123456789abcdef") = some 1000) ∧
    ((LTS.drive (exec sampleConfig) s (sampleAcmeEvents ++ sampleGlobexEvents)).dir.replays.lookup
      ("globex", "bot", "100:0123456789abcdef") = some 101) ∧
    (log.map fun x => x.2.isOk) = [true, true, true, true, true] ∧
    (log'.map fun x => x.2.isOk) = [true, true, true, true, false] := by
  decide +kernel

/-- The two runs agree on `globex` up to that claim; the request of `acme` writes no row of
`globex`. -/
theorem sample_tenants_do_not_interfere :
    let s : State := { dir := sampleTenants.dir, minted := sampleTenants.minted }
    let s₁ := LTS.drive (exec sampleConfig) s (sampleAcmeEvents.take 1)
    let s₂ := LTS.attempt (exec sampleConfig) s₁ ⟨.commit 0 "", ⟨100, 100⟩⟩
    s₁.dir.AgreesOn (fun _ => False) "acme" s₂.dir ∧
    (LTS.drive (exec sampleConfig) s sampleGlobexEvents).dir.AgreesOn
      (OutdatedIn sampleConfig s sampleGlobexEvents (sampleAcmeEvents ++ sampleGlobexEvents)) "acme"
      (LTS.drive (exec sampleConfig) s (sampleAcmeEvents ++ sampleGlobexEvents)).dir := by
  intro s s₁ s₂
  have hstep : (s₁.operation ⟨.commit 0 "", ⟨100, 100⟩⟩).isOf "acme" = true ∧
      (exec sampleConfig s₁ ⟨.commit 0 "", ⟨100, 100⟩⟩).isOk = true := by decide +kernel
  refine ⟨(tenants_do_not_interfere sampleConfig "acme").1 s₁ ⟨.commit 0 "", ⟨100, 100⟩⟩ s₂
    hstep.1 (LTS.step_attempt hstep.2), ?_⟩
  exact ((tenants_do_not_interfere sampleConfig "acme").2 sampleTenants.dir sampleTenants.minted
    sampleGlobexEvents (sampleAcmeEvents ++ sampleGlobexEvents) (by decide +kernel)).1

end Authority

end AgentBridge
