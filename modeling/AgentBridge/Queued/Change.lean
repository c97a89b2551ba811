import AgentBridge.Queued.System

/-!
# What one step of queued dispatch can do

Every step of the system is one of a few changes, each with what its transaction found. The
invariants of queued dispatch are proved against these changes, so that a step that only moves a
worker, opens a destination file or takes a fence is looked at once.

* `change_of_exec` : **every step is one of the changes**.
-/

namespace AgentBridge.Queued

open Authority Tenant Table
open Except (bind_eq_ok pure_eq_ok)

/-- The worker is not about to call, and holds nothing of a readback. -/
def Phase.isPlain : Phase → Bool
  | .sending _ _ _ _ _ | .observing _ | .observed _ => false
  | _ => true

/-- The authorization a worker may still call with. -/
def Phase.call : Phase → Option Authorization
  | .sending _ a _ _ _ => some a
  | _ => none

theorem Phase.call_of_isPlain {p : Phase} (h : p.isPlain = true) : p.call = none := by
  cases p <;> first | rfl | cases h

/-- A fence that is held was taken for the operation, with a sufficient result allowance. -/
def Phase.HasFence (cfg : Config) : Phase → Prop
  | .fenced context _ lease =>
    lease.fenceScope = cfg.fenceScope cfg.tenantId cfg.storeId context.intent.agentId
      context.intent.operationId ∧ (1 ≤ lease.epoch ∧ lease.epoch < 2 ^ 63) ∧
      resultEnvelopeLimitBytes ≤ context.intent.resultLimitBytes
  | _ => True

/-- No worker gained a right to call, or a readback; who holds a fence has taken it. -/
def Quiet (cfg : Config) (ws ws' : Table ℕ Worker) : Prop :=
  ∀ id x, ws'.lookup id = some x →
    ws.lookup id = some x ∨ x.phase.isPlain = true ∧ x.phase.HasFence cfg

namespace Quiet

variable {cfg : Config} {ws : Table ℕ Worker} {id : ℕ}

theorem refl (ws : Table ℕ Worker) : Quiet cfg ws ws := fun _ _ hx => .inl hx

theorem insert {x : Worker} (h : x.phase.isPlain = true) (hf : x.phase.HasFence cfg) :
    Quiet cfg ws (ws.insert id x) := by
  intro id' y hy
  rcases of_lookup_insert hy with ⟨rfl, rfl⟩ | ⟨-, hy⟩
  · exact .inr ⟨h, hf⟩
  · exact .inl hy

theorem erase : Quiet cfg ws (ws.erase id) := by
  intro id' y hy
  exact .inl (of_lookup_erase hy).2

theorem call {ws' : Table ℕ Worker} {x : Worker} {a : Authorization} (h : Quiet cfg ws ws')
    (hx : ws'.lookup id = some x) (ha : x.phase.call = some a) : ws.lookup id = some x := by
  rcases h id x hx with hx | ⟨hplain, -⟩
  · exact hx
  · rw [Phase.call_of_isPlain hplain] at ha
    cases ha

end Quiet

/-- The authorization was made by a worker that holds the fence it names. -/
def Worker.Issues (x : Worker) (cfg : Config) (context : QueuedAuthority) (h : History)
    (a : Authorization) (d : Descriptor) : Prop :=
  ∃ p lease action stamp, x.phase = .fenced context p lease ∧ p.target = d ∧
    cfg.demoAction p.submission.wire = some action ∧ Issued cfg context h p lease action stamp a

section

variable (cfg : Config) (w : World)

/-- The changes a step can make. -/
inductive Change : World → Prop
  /-- The synchronous gateway. -/
  | gateway {act : Gateway.Action} {g : Gateway.Ledgered}
      (hexec : Gateway.execLinked (w.gatewayConfig cfg) w.gateway act = .ok g) :
      Change { w with gateway := g }
  /-- The directory, or a context minted by a guard. -/
  | authority {e : Event} {s : Authority.State} {workers : Table ℕ Worker}
      (hexec : Authority.exec cfg.authority w.authority e = .ok s)
      (hquiet : Quiet cfg w.workers workers) : Change { w with authority := s, workers }
  /-- Nothing that is decided, owed or done. -/
  | plain {workers : Table ℕ Worker} {destinations : Destinations}
      {controls : Table TaskKey ControlRow} {identities : Table String Identity}
      (hquiet : Quiet cfg w.workers workers)
      (heffects : destinations.effects = w.destinations.effects) :
      Change { w with workers, destinations, tables := { w.tables with controls, identities } }
  | accept {p : Principal} {key : TaskKey} {intent : Intent} {task : Task}
      {lifecycle : Lifecycle} {t : Tenant}
      (hok : AcceptOk cfg w.authority w.tenant p key intent task lifecycle t) :
      Change (w.withTenant t)
  | admission {r : AdmissionRequest} {i : AdmissionInput} {op : String} {store : Store}
      {task : Task} {lifecycle : Lifecycle} {row : LinkRow} {t : Tenant}
      {workers : Table ℕ Worker} (hfresh : w.gateway.world.store.accounts.FreshToken i.token)
      (hok : LinkedOk cfg w.tenant r i op store task lifecycle row t)
      (hquiet : Quiet cfg w.workers workers) :
      Change { (w.withTenant t).recordAdmission row with workers }
  | close {refs : Refs} {h : History} {row : DecisionRow} {now : Time} {accounts : Accounts}
      {lifecycle : Lifecycle} {t : Tenant} {workers : Table ℕ Worker}
      (hok : CloseOk cfg w.tenant refs h row now accounts lifecycle t)
      (hquiet : Quiet cfg w.workers workers) : Change { w.withTenant t with workers }
  | attempt {id : ℕ} {x : Worker} {context : QueuedAuthority} {h : History} {row : DecisionRow}
      {a : Authorization} {d : Descriptor} {phase : Phase} {t : Tenant}
      (hx : w.workers.lookup id = some x)
      (hok : AttemptOk cfg w.authority w.tenant context x.refs h row a d t)
      (hphase : (∃ action, phase = .sending context a d action false) ∨ phase = .done)
      (hissued : x.Issues cfg context h a d) :
      Change ((w.withTenant t).move id x phase)
  | enter {id : ℕ} {x : Worker} {context : QueuedAuthority} {a : Authorization} {d : Descriptor}
      {action : String} (hx : w.workers.lookup id = some x)
      (hphase : x.phase = .sending context a d action false) :
      Change (w.move id x (.sending context a d action true))
  | send {id : ℕ} {x : Worker} {context : QueuedAuthority} {a : Authorization} {d : Descriptor}
      {action : String} {destinations : Destinations} (hx : w.workers.lookup id = some x)
      (hphase : x.phase = .sending context a d action true)
      (hok : w.destinations.CommitOk d a action destinations) :
      Change { w.move id x .sent with destinations }
  | observing {id : ℕ} {x : Worker} {decision : DecisionRow} (hx : w.workers.lookup id = some x)
      (hdecision : w.tables.decisions.lookup x.refs.key = some decision) :
      Change (w.move id x (.observing decision))
  | observed {id : ℕ} {x : Worker} {decision : DecisionRow} {attemptId : String}
      {a : Authorization} {d : Descriptor} {completion : Readback}
      (hx : w.workers.lookup id = some x) (hphase : x.phase = .observing decision)
      (hbody : decision.body = .attempt attemptId a d)
      (heffect : ∃ e ∈ w.destinations.effects, e.authorization = a)
      (hrefs : completion.refs = x.refs) : Change (w.move id x (.observed completion))
  | finish {id : ℕ} {x : Worker} {completion : Readback} {h : History} {decision : DecisionRow}
      {a : Authorization} {row : ResultRow} {now : Time} {accounts : Accounts}
      {lifecycle : Lifecycle} {t : Tenant} {workers : Table ℕ Worker}
      (hx : w.workers.lookup id = some x) (hphase : x.phase = .observed completion)
      (hok : FinishOk cfg w.tenant completion h decision a row now accounts lifecycle t)
      (hquiet : Quiet cfg w.workers workers) : Change { w.withTenant t with workers }

end

section

variable {cfg : Config} {w w' : World} {id : ℕ} {x : Worker}

/-! ### Every step is a change -/

@[simp] theorem World.withTenant_tenant (w : World) : w.withTenant w.tenant = w := rfl

theorem World.worker_eq_ok : w.worker id = .ok x ↔ w.workers.lookup id = some x := by
  unfold worker
  split <;> simp_all

/-- A step that only moves a worker. -/
theorem Change.move {phase : Phase} (h : phase.isPlain = true) (hf : phase.HasFence cfg) :
    Change cfg w (w.move id x phase) :=
  .plain (.insert h hf) rfl

/-- A step that only starts a worker. -/
theorem Change.of_start {refs : Refs} {phase : Phase} (hstart : w.start id refs phase = .ok w')
    (h : phase.isPlain = true) (hf : phase.HasFence cfg) : Change cfg w w' := by
  simp only [World.start, bind_eq_ok, insertNew_eq_ok, pure_eq_ok] at hstart
  obtain ⟨_, ⟨-, rfl⟩, rfl⟩ := hstart
  exact .plain (.insert h hf) rfl

/-- The context of a guard is minted as the directory mints it. -/
theorem exec_derive {intent : StoredIntent} {r : DeriveReads} {principal : Principal}
    {deadline : Time} (h : DeriveOk cfg w.authority intent r principal deadline) :
    ∃ e, Authority.exec cfg.authority w.authority e = .ok (w.authority.mint principal) := by
  obtain ⟨grantId, validUntil, hderive⟩ := h.minted
  refine ⟨⟨.derive cfg.tenantId intent.agentId grantId validUntil, ⟨r.grant, r.grant⟩⟩, ?_⟩
  simp only [Authority.exec, bind_eq_ok, pure_eq_ok]
  exact ⟨principal, hderive, rfl⟩

theorem change_of_admission {setup : Setup} {input : QueuedInput}
    (h : execAdmission cfg w id x setup input = .ok w') : Change cfg w w' := by
  unfold execAdmission at h
  split at h
  case h_1 context hphase =>
    simp only [bind_eq_ok, require_eq_ok, pure_eq_ok, Prod.exists] at h
    obtain ⟨-, hfresh, row, t, hadmission, rfl⟩ := h
    obtain ⟨r, i, op, store, task, lifecycle, htoken, hok⟩ := LinkedOk.of_admitPrepared hadmission
    refine .admission (htoken ▸ .of_isFreshToken hfresh) hok (.insert rfl trivial)
  case h_2 => cases h

variable {act : Action}

theorem change_of_before (h : execBefore cfg w id x act = .ok w') : Change cfg w w' := by
  unfold execBefore at h
  split at h
  case h_1 =>
    split at h
    case h_1 =>
      simp only [bind_eq_ok, pure_eq_ok] at h
      obtain ⟨-, -, rfl⟩ := h
      exact .move (by split <;> rfl) (by split <;> trivial)
    case h_2 => cases h
  case h_2 now reads =>
    split at h
    case h_1 =>
      simp only [bind_eq_ok, pure_eq_ok] at h
      obtain ⟨context, hguard, rfl⟩ := h
      obtain ⟨e, he⟩ := exec_derive (GuardOk.of_guardAdmitted hguard).derived
      exact .authority he (.insert rfl trivial)
    case h_2 => cases h
  case h_3 setup reads =>
    split at h
    case h_1 =>
      simp only [bind_eq_ok, pure_eq_ok, Prod.exists] at h
      obtain ⟨-, plan, -, rfl⟩ := h
      exact .move rfl trivial
    case h_2 => cases h
  case h_4 attemptId now acked =>
    split at h
    case h_1 =>
      simp only [bind_eq_ok, require_eq_ok, decide_eq_true_eq, pure_eq_ok,
        Prod.exists] at h
      obtain ⟨-, hallowance, epoch, expiry, destinations, hacquire, rfl⟩ := h
      refine .plain (.insert (by split <;> rfl) ?_) (Destinations.acquire_effects hacquire)
      dsimp only
      split
      · exact ⟨rfl, Destinations.acquire_epoch hacquire, hallowance⟩
      · trivial
    case h_2 => cases h
  case h_5 => cases h

theorem change_of_decide (hx : w.workers.lookup id = some x)
    (h : execDecide cfg w id x act = .ok w') : Change cfg w w' := by
  unfold execDecide at h
  split at h
  case h_1 input =>
    split at h
    case h_1 =>
      simp only [bind_eq_ok, pure_eq_ok] at h
      obtain ⟨-, -, t, hclose, rfl⟩ := h
      obtain ⟨hist, row, accounts, lifecycle, hok⟩ := CloseOk.of_closeInsufficient hclose
      exact .close hok (.insert rfl trivial)
    case h_2 => cases h
  case h_2 input acked =>
    split at h
    case h_1 context plan lease hfenced =>
      split at h
      case h_1 => cases h
      case h_2 action haction =>
        simp only [bind_eq_ok, pure_eq_ok, Prod.exists] at h
        obtain ⟨a, t, hattempt, rfl⟩ := h
        obtain ⟨hist, row, hok, hissued⟩ := AttemptOk.of_attempt hattempt
        cases acked with
        | true =>
          exact .attempt hx hok (.inl ⟨action, rfl⟩)
            ⟨plan, lease, action, input.stamp, hfenced, rfl, haction, hissued⟩
        | false =>
          exact .attempt hx hok (.inr rfl)
            ⟨plan, lease, action, input.stamp, hfenced, rfl, haction, hissued⟩
    case h_2 => cases h
  case h_3 lifetime now =>
    split at h
    case h_1 hphase =>
      simp only [bind_eq_ok, pure_eq_ok] at h
      obtain ⟨-, -, -, -, rfl⟩ := h
      exact .enter hx hphase
    case h_2 => cases h
  case h_4 first second =>
    split at h
    case h_1 hphase =>
      simp only [bind_eq_ok, pure_eq_ok] at h
      obtain ⟨destinations, hcommit, rfl⟩ := h
      exact .send hx hphase (.of_commitQueued hcommit)
    case h_2 => cases h
  case h_5 | h_6 =>
    split at h
    case h_1 =>
      rw [← Except.ok.inj h]
      exact .move rfl trivial
    case h_2 => cases h
  case h_7 => cases h

/-- Evidence is read back from an effect of the decision's own authorization. -/
theorem observe_eq_ok {refs : Refs} {decision : DecisionRow} {target : Option Descriptor}
    {now : Time} {completion : Readback}
    (h : observe cfg w refs decision target now = .ok completion) :
    completion.refs = refs ∧ ∃ attemptId a d, decision.body = .attempt attemptId a d ∧
      ∃ e ∈ w.destinations.effects, e.authorization = a := by
  simp only [observe, bind_eq_ok] at h
  obtain ⟨hist, -, h⟩ := h
  split at h
  case h_1 attemptId a d action hbody _ =>
    simp only [bind_eq_ok, pure_eq_ok] at h
    obtain ⟨-, -, evidence, hobserve, rfl⟩ := h
    exact ⟨rfl, attemptId, a, d, hbody, Destinations.effect_of_observeQueued hobserve⟩
  case h_2 => simp at h

theorem change_of_recover (hx : w.workers.lookup id = some x)
    (h : execRecover cfg w id x act = .ok w') : Change cfg w w' := by
  unfold execRecover at h
  split at h
  case h_1 =>
    split at h
    case h_1 =>
      simp only [bind_eq_ok, pure_eq_ok] at h
      obtain ⟨-, -, rfl⟩ := h
      unfold recoverPhase
      split
      case h_1 decision hdecision _ =>
        split
        · exact .observing hx hdecision
        · exact .move rfl trivial
      case h_2 => exact .move rfl trivial
    case h_2 => cases h
  case h_2 target now =>
    split at h
    case h_1 hphase =>
      simp only [bind_eq_ok, pure_eq_ok] at h
      obtain ⟨completion, hobserve, rfl⟩ := h
      obtain ⟨hrefs, attemptId, a, d, hbody, heffect⟩ := observe_eq_ok hobserve
      exact .observed hx hphase hbody heffect hrefs
    case h_2 => cases h
  case h_3 review isReviewed now =>
    split at h
    case h_1 hphase =>
      simp only [bind_eq_ok, pure_eq_ok] at h
      obtain ⟨t, hfinish, rfl⟩ := h
      rcases finishVerified_cases hfinish with rfl | ⟨_, _, _, _, _, _, hok⟩
      · exact .move rfl trivial
      · exact .finish hx hphase hok (.insert rfl trivial)
    case h_2 => cases h
  case h_4 => cases h

/-- **Every step is one of the changes.** -/
theorem change_of_exec (h : exec cfg w act = .ok w') : Change cfg w w' := by
  cases act <;> simp only [exec, bind_eq_ok, pure_eq_ok, require_eq_ok,
    World.worker_eq_ok] at h
  case gateway =>
    obtain ⟨g, hexec, rfl⟩ := h
    exact .gateway hexec
  case authority =>
    obtain ⟨-, -, s, hexec, rfl⟩ := h
    exact .authority hexec (.refl _)
  case submit =>
    obtain ⟨t, hsubmit, rfl⟩ := h
    obtain ⟨key, intent, task, lifecycle, hok⟩ := AcceptOk.of_submitTask hsubmit
    exact .accept hok
  case setIdentity =>
    rw [← Except.ok.inj h]
    exact .plain (.refl _) rfl
  case cancel =>
    obtain ⟨t, hcancel, rfl⟩ := h
    rcases cancel_cases hcancel with rfl | ⟨_, _, _, _, hok⟩ | ⟨controls, rfl⟩
    · exact .plain (.refl _) rfl
    · exact .close hok (.refl _)
    · exact .plain (.refl _) rfl
  case guardIntent =>
    obtain ⟨context, hguard, _, hstart, rfl⟩ := h
    simp only [World.start, bind_eq_ok, insertNew_eq_ok, pure_eq_ok] at hstart
    obtain ⟨_, ⟨-, rfl⟩, rfl⟩ := hstart
    simp only [guardQueuedIntent, bind_eq_ok, pure_eq_ok, Prod.exists] at hguard
    obtain ⟨_, _, _, -, -, -, principal, deadline, hderive, rfl⟩ := hguard
    obtain ⟨e, he⟩ := exec_derive (.of_derive hderive)
    exact .authority he (.insert rfl trivial)
  case admission =>
    obtain ⟨x, -, h⟩ := h
    exact change_of_admission h
  case dispatch | recover => exact .of_start h rfl trivial
  case fail =>
    obtain ⟨x, -, rfl⟩ := h
    exact .move (by split <;> rfl) (by split <;> trivial)
  case crash =>
    rw [← Except.ok.inj h]
    exact .plain .erase rfl
  case look | guard | prepare | acquire =>
    obtain ⟨x, -, h⟩ := h
    exact change_of_before h
  case close | attempt | enter | send | sendFails | release =>
    obtain ⟨x, hx, h⟩ := h
    exact change_of_decide hx h
  case read | observe | finish =>
    obtain ⟨x, hx, h⟩ := h
    exact change_of_recover hx h

/-! ### Rows that stay -/

variable {k : TaskKey}

/-- A decision is never changed. -/
theorem Change.decisions (h : Change cfg w w') {row : DecisionRow}
    (hrow : w.tables.decisions.lookup k = some row) : w'.tables.decisions.lookup k = some row := by
  have hinsert : ∀ {k' row'}, w.tables.decisions.lookup k' = none →
      (w.tables.decisions.insert k' row').lookup k = some row := by
    intro k' row' hnone
    rw [lookup_insert', if_neg]
    · exact hrow
    · rintro rfl
      rw [hnone] at hrow
      cases hrow
  cases h with
  | accept hok | admission _ hok | finish _ _ hok => rw [hok.result]; exact hrow
  | close hok | attempt _ hok => rw [hok.result]; exact hinsert hok.undecided
  | _ => exact hrow

/-- A decision to attempt was there before, or comes from the attempt transaction. -/
theorem Change.attempted (h : Change cfg w w') {row : DecisionRow} {i : String} {a : Authorization}
    {d : Descriptor} (hrow : w'.tables.decisions.lookup k = some row)
    (hbody : row.body = .attempt i a d) :
    w.tables.decisions.lookup k = some row ∨ ∃ id x context hist t, x.refs.key = k ∧
      w.workers.lookup id = some x ∧ x.Issues cfg context hist a d ∧
      AttemptOk cfg w.authority w.tenant context x.refs hist row a d t := by
  cases h with
  | accept hok | admission _ hok | finish _ _ hok => rw [hok.result] at hrow; exact .inl hrow
  | @close refs _ row' _ _ _ _ _ hok =>
    rw [hok.result] at hrow
    change (w.tables.decisions.insert refs.key row').lookup k = some row at hrow
    rw [lookup_insert'] at hrow
    split at hrow
    case isTrue =>
      have hclosed := hok.row_body
      rw [Option.some.inj hrow, hbody] at hclosed
      cases hclosed
    case isFalse => exact .inl hrow
  | @attempt id x context hist row' a' d' _ t hx hok _ hissued =>
    rw [hok.result] at hrow
    change (w.tables.decisions.insert x.refs.key row').lookup k = some row at hrow
    rw [lookup_insert'] at hrow
    split at hrow
    case isTrue hk =>
      obtain rfl := Option.some.inj hrow
      have heq := hok.row_body
      rw [hbody] at heq
      injection heq with _ ha hd
      subst ha hd
      exact .inr ⟨id, x, context, hist, t, hk.symm, hx, hissued, hok⟩
    case isFalse => exact .inl hrow
  | _ => exact .inl hrow

theorem Change.intents (h : Change cfg w w') {intent : Intent}
    (hintent : w.tables.intents.lookup k = some intent) :
    w'.tables.intents.lookup k = some intent := by
  cases h with
  | accept hok =>
    rw [hok.result]
    refine (lookup_insert' _ _ _ _).trans ((if_neg ?_).trans hintent)
    rintro rfl
    have hnone : w.tables.intents.lookup _ = none := hok.unused
    rw [hnone] at hintent
    cases hintent
  | admission _ hok | close hok | attempt _ hok | finish _ _ hok => rw [hok.result]; exact hintent
  | _ => exact hintent

/-- Effects are only added, each by a worker that may call, within the authorized time. -/
theorem Change.effects (h : Change cfg w w') :
    w'.destinations.effects = w.destinations.effects ∨ ∃ id x e, w.workers.lookup id = some x ∧
      x.phase.call = some e.authorization ∧ e.committedAt < e.authorization.expiresAt ∧
      w'.destinations.effects = w.destinations.effects ++ [e] := by
  cases h with
  | send hx hphase hok =>
    obtain ⟨e, heffects, -, rfl, -, -, hexpires⟩ := hok.appended
    exact .inr ⟨_, _, e, hx, by rw [hphase]; rfl, hexpires, heffects⟩
  | plain _ heffects => exact .inl heffects
  | _ => exact .inl rfl

end

end AgentBridge.Queued
