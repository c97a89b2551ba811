import AgentBridge.Queued.AtMostOnce

/-!
# No queued effect outlives its authority

A dispatch checks the directory, commits its decision to the tenant store, and calls a third
database. Two things keep the call within the authority it was checked against: the directory's
lock is held from the check until after the call, so no row changes in between; and the deadlines
of the request, the delegation, the context and the fence are combined into the one that is signed
and checked again at the destination.

* `no_effect_outlives_authority` : **no effect after a change of authority, and none after any of
  the deadlines**.
-/

namespace AgentBridge.Queued

open Authority Tenant Except List

/-- An operation that touches an enrolled row takes the exclusive lock. -/
theorem isWrite_of_touched {action : Authority.Action} {calls : List Call} {k : RowKey}
    (h : action.touched = some k) : action.isWrite calls = true := by
  cases action <;> first | rfl | cases h

variable {w w' : World} {cfg : Config}

/-- Who may call holds the directory's lock. -/
theorem isGuarded_of_call {id : ℕ} {x : Worker} {a : Authorization}
    (hx : w.workers.lookup id = some x) (ha : x.phase.call = some a) : w.isGuarded = true := by
  refine any_eq_true.mpr ⟨⟨id, x⟩, AList.mem_lookup_iff.mp hx, ?_⟩
  cases hphase : x.phase with
  | sending => rfl
  | _ =>
    rw [hphase] at ha
    cases ha

theorem Change.evolves (h : Change cfg w w') : w.authority.dir.Evolves w'.authority.dir := by
  cases h with
  | authority hexec => exact exec_evolves hexec
  | _ => exact .refl _

/-! ### Accepted bindings -/

/-- Sealed contexts and accepted bindings are of rows that were enrolled. -/
structure Rooted (w : World) : Prop where
  minted : ∀ p ∈ w.authority.minted, Anchored w.authority.dir p
  accepted : ∀ key intent, w.tables.intents.lookup key = some intent →
    Anchored w.authority.dir intent.record.provenance.authority

theorem Rooted.change (h : Rooted w) (hc : Change cfg w w') : Rooted w' := by
  cases hc with
  | authority hexec =>
    exact ⟨exec_anchored hexec h.minted, fun key intent hintent =>
      (h.accepted key intent hintent).evolves (exec_evolves hexec)⟩
  | accept hok =>
    rw [hok.result]
    refine ⟨h.minted, fun key intent hintent => ?_⟩
    rcases Table.of_lookup_insert hintent with ⟨rfl, rfl⟩ | ⟨-, hintent⟩
    · rw [hok.binding]
      exact anchored_binding (h.minted _ hok.sealed)
    · exact h.accepted key intent hintent
  | admission _ hok | close hok | attempt _ hok | finish _ _ hok =>
    rw [hok.result]; exact ⟨h.minted, h.accepted⟩
  | _ => exact ⟨h.minted, h.accepted⟩

theorem Rooted.of_fresh (h : w.Fresh cfg) : Rooted w where
  minted p hp := by simp [h.minted] at hp
  accepted key intent hintent := by simp [h.intents] at hintent

/-! ### After a change of authority -/

/-- Nobody may call for the task. -/
def Silent (ws : Table ℕ Worker) (key : TaskKey) : Prop :=
  ∀ id x a, ws.lookup id = some x → x.phase.call = some a → x.refs.key ≠ key

theorem Silent.quiet {ws ws' : Table ℕ Worker} {key : TaskKey} (h : Silent ws key)
    (hq : Quiet cfg ws ws') : Silent ws' key :=
  fun id x a hx ha => h id x a (hq.call hx ha) ha

theorem Silent.insert {ws : Table ℕ Worker} {key : TaskKey} {id : ℕ} {x : Worker}
    (h : Silent ws key) (hx : ∀ a, x.phase.call = some a → x.refs.key ≠ key) :
    Silent (ws.insert id x) key := by
  intro id' y a hy ha
  rcases Table.of_lookup_insert hy with ⟨rfl, rfl⟩ | ⟨-, hy⟩
  · exact hx a ha
  · exact h id' y a hy ha

/-- A row that the accepted binding depends on has moved on, and nobody may call for the task. -/
structure Withdrawn (w : World) (key : TaskKey) (intent : Intent) (k : RowKey) (n : ℕ) :
    Prop where
  accepted : w.tables.intents.lookup key = some intent
  depends : intent.record.provenance.authority.DependsOn w.authority.dir k n
  moved : ∃ m, w.authority.dir.revisionOf k = some m ∧ n < m
  silent : Silent w.workers key

section

variable {cfg : Config} {w w' : World} {key : TaskKey} {intent : Intent} {k : RowKey} {n : ℕ}

/-- No attempt is made for such a task: its context cannot be derived. -/
theorem Withdrawn.not_attempt {context : QueuedAuthority} {refs : Refs} {hist : History}
    {row : DecisionRow} {a : Authorization} {d : Descriptor} {t : Tenant}
    (h : Withdrawn w key intent k n)
    (hok : AttemptOk cfg w.authority w.tenant context refs hist row a d t) : refs.key ≠ key := by
  rintro rfl
  obtain ⟨stored, hstored, hintent⟩ := hok.history.intent
  obtain rfl := Option.some.inj (h.accepted.symm.trans hstored)
  obtain ⟨r, hderived⟩ := hok.derived
  have hdepends := h.depends
  obtain ⟨m, hm, hlt⟩ := h.moved
  have hrecord : context.intent.record = intent.record := by rw [← hok.intent, hintent]
  rw [← hrecord] at hdepends
  have hrevision := revision_of_derive hderived hdepends
  rw [hm] at hrevision
  exact absurd (Option.some.inj hrevision) hlt.ne'

/-- A withdrawn task stays so. -/
theorem Withdrawn.change (h : Withdrawn w key intent k n) (hc : Change cfg w w') :
    Withdrawn w' key intent k n := by
  have hevolves := hc.evolves
  refine ⟨hc.intents h.accepted, h.depends.evolves hevolves, ?_, ?_⟩
  · obtain ⟨m, hm, hlt⟩ := h.moved
    obtain ⟨m', hm', hle⟩ := hevolves.revisionOf_le hm
    exact ⟨m', hm', by omega⟩
  · have hsilent := h.silent
    cases hc with
    | authority _ hq | plain hq | admission _ _ hq | close _ hq | finish _ _ _ hq =>
      exact hsilent.quiet hq
    | attempt _ hok => exact hsilent.insert fun _ _ => h.not_attempt hok
    | @enter id x _ a _ _ hx hphase =>
      have hne : x.refs.key ≠ key := hsilent id x a hx (congrArg Phase.call hphase)
      exact hsilent.insert fun _ _ => hne
    | send | observing | observed => exact hsilent.insert fun _ ha => by cases ha
    | gateway => exact hsilent
    | accept => exact hsilent

theorem Withdrawn.effects (h : Withdrawn w key intent k n) (hsound : Sound cfg w)
    (hc : Change cfg w w') :
    w'.destinations.effects.filter (fun e => e.taskKey = key) =
      w.destinations.effects.filter (fun e => e.taskKey = key) := by
  rcases hc.effects with heq | ⟨id, x, e, hx, hcall, -, heq⟩
  · rw [heq]
  · have htask : e.taskKey = x.refs.key := hsound.task_of_attempted (hsound.armed id x _ hx hcall)
    have hne : e.taskKey ≠ key := htask ▸ h.silent id x _ hx hcall
    rw [heq, filter_append, filter_singleton]
    simp [hne]

/-- From then on, no run makes an effect for the task. -/
theorem Withdrawn.reachable (h : Withdrawn w key intent k n) (hsound : Sound cfg w)
    (hrun : (system cfg).Reachable w w') :
    w'.destinations.effects.filter (fun e => e.taskKey = key) =
      w.destinations.effects.filter (fun e => e.taskKey = key) := by
  have hinv : Withdrawn w' key intent k n ∧ Sound cfg w' ∧
      w'.destinations.effects.filter (fun e => e.taskKey = key) =
        w.destinations.effects.filter (fun e => e.taskKey = key) := by
    refine hrun.invariant (I := fun v => Withdrawn v key intent k n ∧ Sound cfg v ∧
      v.destinations.effects.filter (fun e => e.taskKey = key) =
        w.destinations.effects.filter (fun e => e.taskKey = key)) ⟨h, hsound, rfl⟩ ?_
    rintro v act v' ⟨hv, hs, heq⟩ hstep
    have hc := change_of_exec hstep
    exact ⟨hv.change hc, hs.change hc, (hv.effects hs hc).trans heq⟩
  exact hinv.2.2

/-- A committed change of a row withdraws every task that depends on it. -/
theorem withdrawn_of_touched {e : Event} (h : Rooted w)
    (hintent : w.tables.intents.lookup key = some intent)
    (hdepends : intent.record.provenance.authority.DependsOn w.authority.dir k n)
    (htouched : e.action.touched = some k)
    (hstep : (system cfg).step w (.authority e) w') : Withdrawn w' key intent k n := by
  have hexec : exec cfg w (.authority e) = .ok w' := hstep
  simp only [exec, bind_eq_ok, require_eq_ok, pure_eq_ok,
    isWrite_of_touched htouched, Bool.true_and, Bool.not_eq_true'] at hexec
  obtain ⟨-, hunguarded, s, hexec, rfl⟩ := hexec
  obtain ⟨m, hm, hle⟩ := (h.accepted key intent hintent).reached k n hdepends
  obtain ⟨m', hm', hlt⟩ := (exec_touched hexec htouched).higher m hm
  refine ⟨hintent, hdepends.evolves (exec_evolves hexec), ⟨m', hm', by omega⟩, ?_⟩
  intro id x a hx ha
  -- the writer had the lock for itself
  rw [isGuarded_of_call (w := w) hx ha] at hunguarded
  cases hunguarded

end

/-! ### Deadlines -/

/-- Attempts are bounded by the accepted lifetime, and effects by their attempt. -/
structure Timely (cfg : Config) (w : World) : Prop where
  attempts : ∀ key row i a d, w.tables.decisions.lookup key = some row →
    row.body = .attempt i a d → ∃ intent, w.tables.intents.lookup key = some intent ∧
      a.expiresAt ≤ intent.record.provenance.authorizationExpiresAt ∧
      Bounded cfg w.authority.dir intent.record.provenance
  effects : ∀ e ∈ w.destinations.effects, e.committedAt < e.authorization.expiresAt

theorem Timely.of_fresh (h : w.Fresh cfg) : Timely cfg w where
  attempts key row i a d hrow := by simp [h.decisions] at hrow
  effects e he := by simp [h.effects] at he

/-- The attempt that is signed ends with the accepted lifetime. -/
theorem bounded_of_attempt {context : QueuedAuthority} {refs : Refs} {hist : History}
    {row : DecisionRow} {a : Authorization} {d : Descriptor} {t : Tenant}
    (hok : AttemptOk cfg w.authority w.tenant context refs hist row a d t) :
    ∃ intent, w.tables.intents.lookup refs.key = some intent ∧
      a.expiresAt ≤ intent.record.provenance.authorizationExpiresAt ∧
      Bounded cfg w.authority.dir intent.record.provenance := by
  obtain ⟨stored, hstored, hintent⟩ := hok.history.intent
  obtain ⟨r, hderived⟩ := hok.derived
  have hrecord : context.intent.record = stored.record := by rw [← hok.intent, hintent]
  have hexpiry := hderived.expiry
  have hbounded := hderived.bounded
  rw [hrecord] at hexpiry hbounded
  exact ⟨stored, hstored, hexpiry ▸ hok.deadline, hbounded⟩

theorem Timely.change (h : Timely cfg w) (hc : Change cfg w w') : Timely cfg w' := by
  have hkeep : ∀ {key a}, (∃ intent, w.tables.intents.lookup key = some intent ∧
      a ≤ intent.record.provenance.authorizationExpiresAt ∧
      Bounded cfg w.authority.dir intent.record.provenance) →
      ∃ intent, w'.tables.intents.lookup key = some intent ∧
        a ≤ intent.record.provenance.authorizationExpiresAt ∧
        Bounded cfg w'.authority.dir intent.record.provenance := by
    rintro key a ⟨intent, hintent, hle, hbounded⟩
    exact ⟨intent, hc.intents hintent, hle, hbounded.evolves hc.evolves⟩
  constructor
  · intro key row i a d hrow hbody
    rcases hc.attempted hrow hbody with hrow | ⟨_, _, _, _, _, rfl, -, -, hok⟩
    · exact hkeep (h.attempts key row i a d hrow hbody)
    · exact hkeep (bounded_of_attempt hok)
  · intro e he
    rcases hc.effects with heq | ⟨id, x, e', -, -, htime, heq⟩
    · exact h.effects e (heq ▸ he)
    · rw [heq, mem_append, mem_singleton] at he
      rcases he with he | rfl
      · exact h.effects e he
      · exact htime

/-- **No queued effect outlives its authority.** Over every interleaving of dispatches with
enrollments and revocations: once a change commits to a row that the binding of an accepted intent
depends on, no effect for that intent commits any more; and an effect is committed before its
signed authorization expires, which is at most 300 seconds after the nonce of the original request
and, for a delegated one, no later than the delegation. -/
theorem no_effect_outlives_authority {cfg : Config} {w₀ w : World}
    (hrun : (system cfg).Reachable w₀ w) (h₀ : w₀.Fresh cfg) :
    (∀ key intent k n e w', w.tables.intents.lookup key = some intent →
      intent.record.provenance.authority.DependsOn w.authority.dir k n →
      e.action.touched = some k → (system cfg).step w (.authority e) w' →
      ∀ w'', (system cfg).Reachable w' w'' →
        w''.destinations.effects.filter (fun e => e.taskKey = key) =
          w.destinations.effects.filter (fun e => e.taskKey = key)) ∧
    ∀ e ∈ w.destinations.effects, e.committedAt < e.authorization.expiresAt ∧
      ∃ intent, w.tables.intents.lookup e.taskKey = some intent ∧
        (∃ stamp random, splitNonce cfg.authority intent.record.provenance.requestNonce =
          some (stamp, random) ∧ e.authorization.expiresAt ≤ stamp + 300) ∧
        (intent.record.provenance.authority.kind = .delegatedHuman → ∃ row,
          w.authority.dir.delegation (some cfg.tenantId)
            intent.record.provenance.authority.delegationId = some row ∧
          e.authorization.expiresAt ≤ row.expiresAt) := by
  have hsound := (Sound.of_fresh h₀).reachable hrun
  obtain ⟨hrooted, htimely⟩ : Rooted w ∧ Timely cfg w :=
    hrun.invariant (I := fun v => Rooted v ∧ Timely cfg v)
      ⟨Rooted.of_fresh h₀, Timely.of_fresh h₀⟩ fun _ _ _ hv hstep =>
        ⟨hv.1.change (change_of_exec hstep), hv.2.change (change_of_exec hstep)⟩
  constructor
  · intro key intent k n e w' hintent hdepends htouched hstep w'' hrun'
    have hwithdrawn := withdrawn_of_touched hrooted hintent hdepends htouched hstep
    have hsound' := hsound.change (change_of_exec hstep)
    rw [hwithdrawn.reachable hsound' hrun']
    have hexec : exec cfg w (.authority e) = .ok w' := hstep
    simp only [exec, bind_eq_ok, pure_eq_ok] at hexec
    obtain ⟨-, -, s, -, rfl⟩ := hexec
    rfl
  · intro e he
    obtain ⟨row, d, hrow, hbody⟩ := hsound.attempted e he
    obtain ⟨intent, hintent, hle, hbounded⟩ := htimely.attempts _ row _ _ d hrow hbody
    obtain ⟨stamp, random, hnonce, hstamp⟩ := hbounded.stamped
    refine ⟨htimely.effects e he, intent, hintent, ⟨stamp, random, hnonce, hle.trans hstamp⟩, ?_⟩
    intro hk
    obtain ⟨grant, hgrant, hexpires⟩ := hbounded.granted hk
    exact ⟨grant, hgrant, hle.trans hexpires⟩

/-- The sample task, admitted. -/
def sampleAdmitted : World := LTS.drive (exec sampleConfig) sampleWorld sampleAdmission

/-- The delegating user is revoked. -/
def sampleRevocation : Event :=
  ⟨.revokeMember sampleRoot "acme" "https://idp.example" "alice", ⟨100, 100⟩⟩

/-- The sample task has an effect in time; but none if its user is revoked before the dispatch. -/
theorem sample_no_effect_outlives_authority :
    (∃ e ∈ sampleFinal.destinations.effects, e.committedAt < e.authorization.expiresAt) ∧
    (LTS.drive (exec sampleConfig)
        (LTS.attempt (exec sampleConfig) sampleAdmitted (.authority sampleRevocation))
        sampleDispatch).destinations.effects.filter (fun e => e.taskKey = sampleRefs.key) =
      sampleAdmitted.destinations.effects.filter (fun e => e.taskKey = sampleRefs.key) := by
  have hfacts : (sampleAdmitted.tables.intents.lookup sampleRefs.key).map
        (fun i => i.record.provenance.authority) = some samplePrincipal.binding ∧
      sampleAdmitted.authority.dir.delegation (some "acme") (some "grant-1") =
        some sampleGrant ∧
      (exec sampleConfig sampleAdmitted (.authority sampleRevocation)).isOk = true := by
    decide +kernel
  obtain ⟨hintent, hgrant, hrevoked⟩ := hfacts
  constructor
  · have hmem : ("acme", "bot", "operation-000001") ∈
        sampleFinal.destinations.effects.map Effect.key := by
      rw [sampleFinal_rows.1]
      exact mem_singleton_self _
    obtain ⟨e, he, -⟩ := mem_map.mp hmem
    exact ⟨e, he, ((no_effect_outlives_authority sampleFinal_reachable sampleWorld_fresh).2 e he).1⟩
  · obtain ⟨intent, hlookup, hbinding⟩ := Option.map_eq_some_iff.mp hintent
    have hdepends : intent.record.provenance.authority.DependsOn sampleAdmitted.authority.dir
        (.member "acme" "https://idp.example" "alice") 1 := by
      rw [hbinding]
      exact .user (p := samplePrincipal.binding) (t := "acme") rfl rfl hgrant
    exact (no_effect_outlives_authority (LTS.reachable_drive _ _ sampleAdmission)
      sampleWorld_fresh).1 sampleRefs.key intent _ 1 sampleRevocation _ hlookup hdepends rfl
      (LTS.step_attempt hrevoked) _ (LTS.reachable_drive _ _ sampleDispatch)

end AgentBridge.Queued
