import AgentBridge.Authority.Evolution
import Mathlib.Algebra.Order.Ring.Abs
import Mathlib.Tactic.Linarith

/-!
# A signed request is usable once

The freshness of a nonce is checked before the transaction that claims it, nonces may be
dated up to 300 seconds ahead, and claims older than 600 seconds are pruned. A second claim
of the same nonce can therefore succeed, but only when every context it mints has already
expired.

* `request_accepted_once` : **of the contexts minted for one nonce, at most one is ever
  accepted**.
-/

namespace AgentBridge

open Except List

namespace Authority

/-- The directory together with the latest clock reading. -/
structure Clocked where
  state : State
  clock : Time

/-- Perform one operation whose clock readings do not go back. -/
def execClocked (cfg : Config) (w : Clocked) (e : Event) : Except Fault Clocked := do
  require (w.clock ≤ e.reads.first && e.reads.first ≤ e.reads.second)
    (.runtimeError "clock went back")
  return ⟨← exec cfg w.state e, e.reads.second⟩

/-- The directory under a nondecreasing clock. -/
def clockedSystem (cfg : Config) : LTS Clocked Event := LTS.ofExec (execClocked cfg)

variable {cfg : Config} {w w' : Clocked} {e : Event} {d d' : Directory} {r : Reads} {c : AgentCall}
  {t : Time} {p : Principal}

theorem execClocked_eq_ok (h : execClocked cfg w e = .ok w') :
    w.clock ≤ e.reads.first ∧ e.reads.first ≤ e.reads.second ∧ w'.clock = e.reads.second ∧
      exec cfg w.state e = .ok w'.state := by
  simp only [execClocked, bind_eq_ok, require_eq_ok, Bool.and_eq_true,
    decide_eq_true_eq, pure_eq_ok] at h
  obtain ⟨-, ⟨h₁, h₂⟩, s', hs', rfl⟩ := h
  exact ⟨h₁, h₂, rfl, hs'⟩

/-! ### Claims and pruning -/

/-- Pruning deletes only claims made over 600 seconds ago. -/
theorem pruneReplays_lookup {minted : List Principal} {actor : Principal} {limit : ℕ}
    {k : String × String × String} {claimed : Time}
    (h : pruneReplays d minted r actor limit = .ok d') (hk : d.replays.lookup k = some claimed) :
    d'.replays.lookup k = some claimed ∨ claimed < r.second - 600 := by
  obtain rfl := pruneReplays_dir h
  simp only [Table.lookup_foldl_erase]
  split
  case isFalse => exact .inl hk
  case isTrue hmem =>
    right
    simp only [staleReplays, mem_map] at hmem
    obtain ⟨⟨k', claimed'⟩, hmem, rfl⟩ := hmem
    have hmem := mem_filter.mp ((mem_insertionSort _).mp (mem_of_mem_take hmem))
    have hlook : d.replays.lookup k' = some claimed' := AList.mem_lookup_iff.mpr hmem.1
    obtain rfl := Option.some.inj (hk.symm.trans hlook)
    simpa using hmem.2

/-- A request in flight was checked to be at most 300 seconds ahead of the clock. -/
structure FreshCall (cfg : Config) (clock : Time) (c : AgentCall) : Prop where
  ahead : c.stamp ≤ clock + 300
  stamped : ∃ random, splitNonce cfg c.request.nonce = some (c.stamp, random)

theorem freshCall_of_beginAgent {now : Time} {q : SignedRequest}
    (h : beginAgent cfg now q = .ok c) : FreshCall cfg now c := by
  simp only [beginAgent, bind_eq_ok] at h
  obtain ⟨-, -, payload, -, h⟩ := h
  split at h
  case h_1 => simp at h
  case h_2 stamp random hsplit =>
    simp only [bind_eq_ok, require_eq_ok, Bool.and_eq_true, decide_eq_true_eq,
      pure_eq_ok] at h
    obtain ⟨-, ⟨habs, -⟩, rfl⟩ := h
    have := neg_le_of_abs_le habs
    exact ⟨by linarith, random, hsplit⟩

/-- A minted request still holds the claim of its nonce, or the nonce is out of date. -/
structure Claimed (cfg : Config) (d : Directory) (clock : Time) (p : Principal) : Prop where
  claim : ∃ t a stamp random, p.tenantId = some t ∧ p.agentId = some a ∧
    splitNonce cfg p.requestNonce = some (stamp, random) ∧ p.validUntil ≤ stamp + 300 ∧
    ((∃ claimed, d.replays.lookup (t, a, p.requestNonce) = some claimed ∧
      stamp ≤ claimed + 300) ∨ stamp + 300 < clock)

/-- Two contexts were minted for the same tenant, agent and nonce. -/
def SameNonce (p q : Principal) : Prop :=
  p.tenantId = q.tenantId ∧ p.agentId = q.agentId ∧ p.requestNonce = q.requestNonce

/-- The invariant behind single use. -/
structure ReplayInv (cfg : Config) (w : Clocked) : Prop where
  calls : ∀ c, Call.agent c ∈ w.state.calls → FreshCall cfg w.clock c
  claims : ∀ p ∈ w.state.requests, Claimed cfg w.state.dir w.clock p
  /-- A context minted for a nonce that was claimed before has expired. -/
  late : ∀ (i j : ℕ) (p q : Principal), i < j → w.state.requests[i]? = some p →
    w.state.requests[j]? = some q → SameNonce p q → q.validUntil < w.clock

theorem FreshCall.mono {t' : Time} (h : FreshCall cfg t c) (ht : t ≤ t') : FreshCall cfg t' c :=
  ⟨by linarith [h.ahead], h.stamped⟩

/-- A claim survives a step that keeps it, or deletes it more than 600 seconds later. -/
theorem Claimed.mono {t' : Time} (h : Claimed cfg d t p) (ht : t ≤ t')
    (hd : ∀ k claimed, d.replays.lookup k = some claimed → d'.replays.lookup k = some claimed ∨
      claimed < t' - 600) : Claimed cfg d' t' p := by
  obtain ⟨tid, a, stamp, random, htid, ha, hsplit, hvalid, hclaim⟩ := h.claim
  refine ⟨tid, a, stamp, random, htid, ha, hsplit, hvalid, ?_⟩
  rcases hclaim with ⟨claimed, hlook, hle⟩ | hlt
  · rcases hd _ _ hlook with hkeep | hold
    · exact .inl ⟨claimed, hkeep, hle⟩
    · exact .inr (by linarith)
  · exact .inr (hlt.trans_le ht)

section AgentPrincipal

variable {t a : String} {tenant : Enrollment} {agent : AgentRow}
  {grant : Option (String × DelegationRow)} {validUntil : Time} {sha nonce : String}

theorem validUntil_agentPrincipal_le :
    (agentPrincipal t tenant a agent grant validUntil sha nonce).validUntil ≤ validUntil := by
  cases grant with
  | none => exact le_rfl
  | some g => exact min_le_right _ _

@[simp] theorem tenantId_agentPrincipal :
    (agentPrincipal t tenant a agent grant validUntil sha nonce).tenantId = some t := by
  cases grant <;> rfl

@[simp] theorem agentId_agentPrincipal :
    (agentPrincipal t tenant a agent grant validUntil sha nonce).agentId = some a := by
  cases grant <;> rfl

@[simp] theorem requestNonce_agentPrincipal :
    (agentPrincipal t tenant a agent grant validUntil sha nonce).requestNonce = nonce := by
  cases grant <;> rfl

end AgentPrincipal

/-- A claim that finds an earlier context of the same nonce mints an expired one. -/
theorem expired_of_claimed {clock : Time} {q : Principal} (hp : Claimed cfg d clock p)
    (hc : FreshCall cfg clock c) (hq : AuthenticateOk cfg d r c d' q) (hsame : SameNonce p q) :
    q.validUntil < clock := by
  obtain ⟨tenant, agent, grant, -, -, -, rfl⟩ := hq.rows
  obtain ⟨t, a, stamp, random, ht, ha, hsplit, -, hclaim⟩ := hp.claim
  simp only [SameNonce, tenantId_agentPrincipal, agentId_agentPrincipal,
    requestNonce_agentPrincipal] at hsame
  obtain ⟨ht', ha', hnonce⟩ := hsame
  obtain rfl := Option.some.inj (ht.symm.trans ht')
  obtain rfl := Option.some.inj (ha.symm.trans ha')
  -- both contexts carry the timestamp of the one nonce
  obtain ⟨random', hstamp⟩ := hc.stamped
  rw [hnonce, hstamp] at hsplit
  cases hsplit
  rcases hclaim with ⟨claimed, hlook, -⟩ | hlt
  · rw [hnonce, hq.unclaimed] at hlook
    cases hlook
  · exact validUntil_agentPrincipal_le.trans_lt hlt

/-- The context just minted holds the claim just made. -/
theorem claimed_of_authenticate {clock : Time} {q : Principal} (hclock : clock ≤ r.second)
    (hc : FreshCall cfg clock c) (hq : AuthenticateOk cfg d r c d' q) :
    Claimed cfg d' r.second q := by
  obtain ⟨tenant, agent, grant, -, -, -, rfl⟩ := hq.rows
  obtain ⟨random, hstamp⟩ := hc.stamped
  refine ⟨_, _, c.stamp, random, tenantId_agentPrincipal, agentId_agentPrincipal, by simpa,
    validUntil_agentPrincipal_le, .inl ⟨r.second, ?_, by linarith [hc.ahead]⟩⟩
  rw [requestNonce_agentPrincipal, hq.dir_eq]
  exact AList.lookup_insert _

/-! ### The invariant -/

theorem Directory.Rewrites.keeps (h : d.Rewrites d') (k : String × String × String) (claimed : Time)
    (hk : d.replays.lookup k = some claimed) :
    d'.replays.lookup k = some claimed ∨ claimed < t - 600 :=
  .inl (by rw [h.replays_eq]; exact hk)

/-- A step that mints no request keeps the invariant. -/
theorem ReplayInv.of_requests_eq (hw : ReplayInv cfg w) (hclock : w.clock ≤ w'.clock)
    (hcalls : ∀ c, Call.agent c ∈ w'.state.calls → Call.agent c ∈ w.state.calls ∨ FreshCall cfg
      w'.clock c) (hreq : w'.state.requests = w.state.requests)
    (hdir : ∀ k claimed, w.state.dir.replays.lookup k = some claimed → w'.state.dir.replays.lookup
      k = some claimed ∨ claimed < w'.clock - 600) :
    ReplayInv cfg w' where
  calls c hc := (hcalls c hc).elim (fun h => (hw.calls c h).mono hclock) id
  claims p hp := (hw.claims p (hreq ▸ hp)).mono hclock hdir
  late i j p q hij hi hj hsame :=
    (hw.late i j p q hij (hreq ▸ hi) (hreq ▸ hj) hsame).trans_le hclock

/-- **Every operation keeps the replay invariant.** -/
theorem execClocked_replayInv (h : execClocked cfg w e = .ok w') (hw : ReplayInv cfg w) :
    ReplayInv cfg w' := by
  obtain ⟨hfirst, hsecond, hclock, hexec⟩ := execClocked_eq_ok h
  obtain ⟨s', clock'⟩ := w'
  obtain rfl : clock' = e.reads.second := hclock
  have hle : w.clock ≤ e.reads.second := hfirst.trans hsecond
  have hkeep : ∀ k claimed, w.state.dir.replays.lookup k = some claimed →
      w.state.dir.replays.lookup k = some claimed ∨ claimed < e.reads.second - 600 :=
    fun _ _ hk => .inl hk
  have herase : ∀ i c, Call.agent c ∈ w.state.calls.eraseIdx i →
      Call.agent c ∈ w.state.calls ∨ FreshCall cfg e.reads.second c :=
    fun i c hc => .inl ((eraseIdx_sublist _ i).subset hc)
  cases outcome_of_exec hexec with
  | write _ hb => exact hw.of_requests_eq hle (fun c hc => .inl hc) rfl hb.rewrites.keeps
  | bootstrap _ hr => exact hw.of_requests_eq hle (fun c hc => .inl hc) rfl hr.keeps
  | prune _ hp =>
    exact hw.of_requests_eq hle (fun c hc => .inl hc) rfl fun k t hk => pruneReplays_lookup hp hk
  | derive _ _ => exact hw.of_requests_eq hle (fun c hc => .inl hc) rfl hkeep
  | beginOperator _ | beginDelegation _ _ =>
    exact hw.of_requests_eq hle (fun c hc => .inl (by simpa using hc)) rfl hkeep
  | beginAgent _ hb =>
    refine hw.of_requests_eq hle (fun c hc => ?_) rfl hkeep
    rcases mem_append.mp hc with hc | hc
    · exact .inl hc
    · cases mem_singleton.mp hc
      exact .inr ((freshCall_of_beginAgent hb).mono hsecond)
  | commitOperator _ _ _ => exact hw.of_requests_eq hle (herase _) rfl hkeep
  | commitDelegation _ _ hg =>
    refine hw.of_requests_eq hle (herase _) rfl fun k t hk => .inl ?_
    obtain ⟨_, _, -, -, -, rfl, -⟩ := (DelegateOk.of_grantDelegation hg).rows
    exact hk
  | @commitAgent i c dir q _ hcall ha =>
    have hfresh := hw.calls c (mem_of_getElem? hcall)
    have hq := AuthenticateOk.of_authenticateAgent ha
    have hkeep' : ∀ k claimed, w.state.dir.replays.lookup k = some claimed →
        dir.replays.lookup k = some claimed ∨ claimed < e.reads.second - 600 := by
      intro k claimed hk
      rw [hq.dir_eq]
      refine .inl ?_
      rw [AList.lookup_insert_ne]
      · exact hk
      · rintro rfl
        simp [hq.unclaimed] at hk
    refine ⟨fun c' hc' => ?_, fun p hp => ?_, fun i j p q' hij hi hj hsame => ?_⟩
    · exact (herase i c' hc').elim (fun h => (hw.calls c' h).mono hle) id
    · rcases mem_append.mp hp with hp | hp
      · exact (hw.claims p hp).mono hle hkeep'
      · cases mem_singleton.mp hp
        exact claimed_of_authenticate hle hfresh hq
    · -- `j` is an old position, or the one just minted
      have hjlt : j < (w.state.requests ++ [q]).length := (List.getElem?_eq_some_iff.mp hj).1
      rw [length_append, length_singleton] at hjlt
      have hi' : w.state.requests[i]? = some p := by
        rw [← hi]
        exact (List.getElem?_append_left (by omega)).symm
      by_cases hold : j < w.state.requests.length
      · have hj' : w.state.requests[j]? = some q' := by
          rw [← hj]
          exact (List.getElem?_append_left hold).symm
        exact (hw.late i j p q' hij hi' hj' hsame).trans_le hle
      · obtain rfl : j = w.state.requests.length := by omega
        have hnew : (w.state.requests ++ [q])[w.state.requests.length]? = some q' := hj
        rw [List.getElem?_concat_length] at hnew
        cases hnew
        exact (expired_of_claimed (hw.claims p (mem_of_getElem? hi')) hfresh hq
          hsame).trans_le hle

theorem execClocked_requests_isPrefix (h : execClocked cfg w e = .ok w') :
    w.state.requests <+: w'.state.requests := by
  obtain ⟨-, -, -, hexec⟩ := execClocked_eq_ok h
  obtain ⟨s', clock'⟩ := w'
  cases outcome_of_exec hexec <;> simp [State.mint]

/-! ### Single use -/

/-- The `i`-th context minted for a request is accepted at some reading not before the clock,
by its seal alone or by the full check. -/
def AcceptedAt (w : Clocked) (i : ℕ) (p : Principal) : Prop :=
  w.state.requests[i]? = some p ∧ ∃ r : Reads, w.clock ≤ r.first ∧
    (verifySeal w.state.minted r.first p = .ok () ∨
      current w.state.dir w.state.minted r p = .ok ())

theorem AcceptedAt.unexpired {i : ℕ} (h : AcceptedAt w i p) : w.clock < p.validUntil := by
  obtain ⟨-, r, hclock, hacc⟩ := h
  refine hclock.trans_lt ?_
  rcases hacc with hseal | hcur
  · exact (verifySeal_eq_ok.mp hseal).2
  · exact (mem_of_current hcur).2

/-- **A signed request is usable once.** Whatever claims and prunings interleave, two
acceptances of contexts minted for the same tenant, agent and nonce are acceptances of the
same context. -/
theorem request_accepted_once (cfg : Config) (d : Directory) (t₀ : Time) {w₁ w₂ : Clocked}
    (h₁ : (clockedSystem cfg).Reachable ⟨{ dir := d }, t₀⟩ w₁)
    (h₂ : (clockedSystem cfg).Reachable w₁ w₂) {i j : ℕ} {p q : Principal}
    (hp : AcceptedAt w₁ i p) (hq : AcceptedAt w₂ j q) (hsame : SameNonce p q) : i = j := by
  have hinit : ReplayInv cfg ⟨{ dir := d }, t₀⟩ := ⟨by simp, by simp, by simp⟩
  have hinv : ∀ w, (clockedSystem cfg).Reachable ⟨{ dir := d }, t₀⟩ w → ReplayInv cfg w :=
    fun w hw => hw.invariant hinit fun _ _ _ hI hst => execClocked_replayInv hst hI
  have hprefix : w₁.state.requests <+: w₂.state.requests :=
    h₂.relate (r := fun w w' => w.state.requests <+: w'.state.requests)
      (fun w => prefix_rfl) (fun _ _ _ => List.IsPrefix.trans)
      fun _ _ _ => execClocked_requests_isPrefix
  rcases Nat.lt_trichotomy i j with hij | hij | hij
  · -- the later context had expired when it was minted
    have hi : w₂.state.requests[i]? = some p := by
      obtain ⟨l, hl⟩ := hprefix
      rw [← hl]
      have hlen := (List.getElem?_eq_some_iff.mp hp.1).1
      rw [List.getElem?_append_left hlen]
      exact hp.1
    have := (hinv w₂ (h₁.trans h₂)).late i j p q hij hi hq.1 hsame
    exact absurd hq.unexpired this.not_gt
  · exact hij
  · have hj : w₁.state.requests[j]? = some q := by
      obtain ⟨l, hl⟩ := hprefix
      have hlen := (List.getElem?_eq_some_iff.mp hp.1).1
      have hq1 := hq.1
      rw [← hl, List.getElem?_append_left (hij.trans hlen)] at hq1
      exact hq1
    have hsame' : SameNonce q p := ⟨hsame.1.symm, hsame.2.1.symm, hsame.2.2.symm⟩
    have := (hinv w₁ h₁).late j i q p hij hj hp.1 hsame'
    exact absurd hp.unexpired this.not_gt

/-- The sample deployment under a clock, and the same after a pruning. -/
def sampleClocked : Clocked := LTS.drive (execClocked sampleConfig) ⟨{}, 0⟩ sampleEvents

@[inherit_doc sampleClocked]
def samplePruned : Clocked :=
  LTS.attempt (execClocked sampleConfig) sampleClocked
    ⟨.pruneReplays sampleRoot 10, ⟨200, 200⟩⟩

/-- The sample request is accepted before and after a pruning; it is the same context. -/
theorem sample_request_accepted_once :
    AcceptedAt sampleClocked 0 samplePrincipal ∧ AcceptedAt samplePruned 0 samplePrincipal ∧
      0 = 0 := by
  have hfacts : (sampleClocked.state.requests[0]? = some samplePrincipal ∧
      sampleClocked.clock ≤ 150 ∧
      current sampleClocked.state.dir sampleClocked.state.minted ⟨150, 150⟩ samplePrincipal =
        .ok ()) ∧
      samplePruned.state.requests[0]? = some samplePrincipal ∧ samplePruned.clock ≤ 250 ∧
      verifySeal samplePruned.state.minted 250 samplePrincipal = .ok () := by
    decide +kernel
  obtain ⟨⟨hp, hpclock, hcur⟩, hq, hqclock, hseal⟩ := hfacts
  have h₁ : AcceptedAt sampleClocked 0 samplePrincipal := ⟨hp, ⟨150, 150⟩, hpclock, .inr hcur⟩
  have h₂ : AcceptedAt samplePruned 0 samplePrincipal := ⟨hq, ⟨250, 250⟩, hqclock, .inl hseal⟩
  exact ⟨h₁, h₂, request_accepted_once sampleConfig {} 0 (LTS.reachable_drive _ _ sampleEvents)
    (LTS.reachable_attempt _ _ _) h₁ h₂ ⟨rfl, rfl, rfl⟩⟩

end Authority

end AgentBridge
