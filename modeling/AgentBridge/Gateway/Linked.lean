import AgentBridge.Gateway.AtMostOnce
import AgentBridge.Ledger.Accounting

/-!
# Ledger and budget stay linked

On one shared store, where every call carries an operation id, the gateway refines the abstract
accounting machine: each of its steps leaves the accounts alone or is one accounting step. The
accounting law then holds in every reachable state.

What makes the refinement work is that a call in flight holds the token of its own ledger row
(`InFlight.held`), so that the release of a cancelled call is the settlement of that row.

* `ledger_and_budget_linked` : **the accounting law in every reachable state**.
-/

namespace AgentBridge

open Table
open Except (bind_eq_ok pure_eq_ok)

/-- The token is new to the store. -/
def Accounts.isFreshToken (a : Accounts) (token : String) : Bool :=
  (a.reservations.entries.all fun e => e.2 != token) &&
    a.budgets.entries.all fun e => (e.2.reserved.lookup token).isNone

theorem Accounts.FreshToken.of_isFreshToken {a : Accounts} {token : String}
    (h : a.isFreshToken token = true) : a.FreshToken token := by
  simp only [isFreshToken, Bool.and_eq_true, List.all_eq_true, bne_iff_ne, ne_eq,
    Option.isNone_iff_eq_none] at h
  obtain ⟨hreservations, hbudgets⟩ := h
  refine ⟨fun k hk => hreservations ⟨k, token⟩ (AList.mem_lookup_iff.mp hk) rfl, fun agentId => ?_⟩
  unfold Budgets.view
  cases hb : a.budgets.lookup agentId with
  | none => rfl
  | some b => exact hbudgets ⟨agentId, b⟩ (AList.mem_lookup_iff.mp hb)

/-- A pending token of a view is pending in a stored record. -/
theorem Budgets.lookup_of_view {t : Budgets} {agentId token : String} {cost : Cost}
    (h : (t.view agentId).reserved.lookup token = some cost) :
    ∃ b, t.lookup agentId = some b ∧ b.reserved.lookup token = some cost := by
  unfold view at h
  cases hb : t.lookup agentId with
  | none =>
    rw [hb] at h
    cases h
  | some b =>
    rw [hb] at h
    exact ⟨b, rfl, h⟩

namespace Gateway

/-- The token a call holds. -/
def Phase.token : Phase → Option String
  | .admitting => none
  | .reserved token => some token
  | .granted token => some token
  | .claimed token => some token
  | .cleaning token _ => some token
  | .finishing => none
  | .admitted token => some token
  | .aborting token => some token
  | .invoking token => some token
  | .settling token => some token
  | .settleFinishing token => some token
  | .noting token => some token
  | .done => none

/-- The gateway with the history of admitted costs. -/
structure Ledgered where
  world : World
  admitted : Table OpKey Cost := ∅

/-- The accounts the abstract machine sees. -/
def Ledgered.audited (s : Ledgered) : Audited := ⟨s.world.store.accounts, s.admitted⟩

/-- Every call carries an operation id, and a token is never drawn twice. -/
def Action.isLinked (a : Accounts) : Action → Bool
  | .start _ request => request.operationId.isSome
  | .admission _ input _ => a.isFreshToken input.token
  | _ => true

/-- The history an admission writes. -/
def Ledgered.history (s : Ledgered) : Action → Table OpKey Cost
  | .admission id _ _ =>
    match s.world.workers.lookup id with
    | some x =>
      match x.request.operationId with
      | some op => s.admitted.insert (x.request.agentId, op) x.request.cost
      | none => s.admitted
    | none => s.admitted
  | _ => s.admitted

/-- One step of the gateway, with its history. -/
def execLinked (cfg : Config) (s : Ledgered) (act : Action) : Except Fault Ledgered := do
  require (act.isLinked s.world.store.accounts) (.valueError "operation id and fresh token")
  let world ← exec cfg s.world act
  return ⟨world, s.history act⟩

/-- The gateway on one shared store. -/
def linkedSystem (digest : OwnerMaterial → String) (isLinked : OpKey → Bool) :
    LTS Ledgered Action :=
  .ofExec (execLinked ⟨.shared, digest, isLinked⟩)

/-- The calls in flight hold the tokens of their own ledger rows. -/
structure InFlight (w : World) : Prop where
  named : ∀ id x, w.workers.lookup id = some x → ∃ op, x.request.operationId = some op
  held : ∀ id x op token, w.workers.lookup id = some x → x.request.operationId = some op →
    x.phase.token = some token →
    w.store.accounts.reservations.lookup (x.request.agentId, op) = some token

namespace InFlight

variable {w w' : World} {id : ℕ} {x : Worker}

/-- Calls in flight keep what they hold when no reservation row is rewritten. -/
theorem mono (h : InFlight w) (hworkers : w'.workers = w.workers)
    (hkeep : ∀ k t, w.store.accounts.reservations.lookup k = some t →
      w'.store.accounts.reservations.lookup k = some t) : InFlight w' := by
  constructor
  · rw [hworkers]
    exact h.named
  · rw [hworkers]
    exact fun id x op token hx hop ht => hkeep _ _ (h.held id x op token hx hop ht)

/-- One call moves on, and holds a token of its own ledger row or none. -/
theorem move {phase : Phase} (h : InFlight w) (hx : w.workers.lookup id = some x)
    (hworkers : w'.workers = w.workers.insert id { x with phase })
    (hkeep : ∀ k t, w.store.accounts.reservations.lookup k = some t →
      w'.store.accounts.reservations.lookup k = some t)
    (hheld : ∀ op token, x.request.operationId = some op → phase.token = some token →
      w'.store.accounts.reservations.lookup (x.request.agentId, op) = some token) :
    InFlight w' := by
  constructor
  · intro id' y hy
    rw [hworkers] at hy
    rcases of_lookup_insert hy with ⟨rfl, rfl⟩ | ⟨-, hy⟩
    · exact h.named id x hx
    · exact h.named id' y hy
  · intro id' y op token hy hop ht
    rw [hworkers] at hy
    rcases of_lookup_insert hy with ⟨rfl, rfl⟩ | ⟨-, hy⟩
    · exact hheld op token hop ht
    · exact hkeep _ _ (h.held id' y op token hy hop ht)

/-- A call moves on without a new token. -/
theorem move_of_token (phase : Phase) (h : InFlight w) (hx : w.workers.lookup id = some x)
    (hworkers : w'.workers = w.workers.insert id { x with phase })
    (hkeep : ∀ k t, w.store.accounts.reservations.lookup k = some t →
      w'.store.accounts.reservations.lookup k = some t)
    (htoken : ∀ token, phase.token = some token → x.phase.token = some token) : InFlight w' :=
  h.move hx hworkers hkeep fun op token hop ht =>
    hkeep _ _ (h.held id x op token hx hop (htoken token ht))

end InFlight

theorem Phase.resumed_token {act : Action} {p p' : Phase} {token : String}
    (h : Phase.resumed act p = some p') (ht : p'.token = some token) : p.token = some token := by
  unfold resumed at h
  split at h
  case h_6 =>
    unfold interrupted at h
    split at h <;> cases h <;> exact ht
  all_goals cases h
  all_goals exact ht

/-! ### Accounting steps of the gateway -/

section Refinement

variable {initial : String → Cost} {a : Accounts} {admitted : Table OpKey Cost}

/-- A change of the limits is an accounting step. -/
theorem step_setBudget {agentId : String} {spendLimit : Cost} {rateLimit windowSeconds : ℕ}
    {budgets : Budgets}
    (h : a.budgets.setBudget agentId spendLimit rateLimit windowSeconds = .ok budgets) :
    Audited.Step ⟨a, admitted⟩ ⟨{ a with budgets }, admitted⟩ := by
  simp only [Budgets.setBudget, BudgetState.setLimits, bind_eq_ok, pure_eq_ok,
    require_eq_ok] at h
  obtain ⟨-, -, b, ⟨-, -, rfl⟩, rfl⟩ := h
  exact .touch rfl rfl

/-- A cancelled call settles its own row: the law makes its token pending. -/
theorem step_abort {s s' : Store} {agentId op token : String} {now : Time}
    (hlaw : AccountsLaw initial ⟨s.accounts, admitted⟩)
    (hheld : s.accounts.reservations.lookup (agentId, op) = some token)
    (h : s.abortAdmission agentId (some op) token now = .ok s') :
    Audited.Step ⟨s.accounts, admitted⟩ ⟨s'.accounts, admitted⟩ ∧
      s'.accounts.reservations = s.accounts.reservations := by
  obtain ⟨row, hrow, hunknown, rfl⟩ := Store.abortAdmission_eq_ok h
  obtain ⟨cost, hpending, -⟩ := hlaw.unknown_pending _ row token hrow hunknown hheld
  have hok : s.accounts.SettleOk (agentId, op) token .failed now cost _ :=
    ⟨hheld, Budgets.lookup_of_view hpending, row, hrow, rfl⟩
  exact ⟨.settle hrow hunknown hok, rfl⟩

theorem step_record {s s' : Store} {isLinked : OpKey → Bool} {r : Store.Review} {now : Time}
    (hlaw : AccountsLaw initial ⟨s.accounts, admitted⟩)
    (h : s.record isLinked r now = .ok s') :
    Audited.Step ⟨s.accounts, admitted⟩ ⟨s'.accounts, admitted⟩ ∧
      s'.accounts.reservations = s.accounts.reservations := by
  obtain ⟨row, accounts, _, hrow, hunknown, hsettled, rfl⟩ := (Store.RecordOk.of_record h).settled
  rcases Store.settleRecorded_eq_ok hsettled with ⟨hnone, -⟩ | ⟨token, amount, -, hok⟩
  · obtain ⟨token, htoken⟩ := hlaw.attached _ row hrow
    simp [hnone] at htoken
  · refine ⟨.settle hrow hunknown hok, ?_⟩
    obtain ⟨_, -, rfl⟩ := hok.result
    rfl

end Refinement

/-- The state of the refinement: the law, and calls that hold their own tokens. -/
structure Linked (initial : String → Cost) (s : Ledgered) : Prop where
  law : AccountsLaw initial s.audited
  inFlight : InFlight s.world

/-- What one step does: no accounting step or one, and the calls in flight hold on. -/
structure Refines (s s' : Ledgered) : Prop where
  step : s'.audited = s.audited ∨ Audited.Step s.audited s'.audited
  bound : s'.world.store.tenantId = s.world.store.tenantId
  inFlight : InFlight s'.world

section Steps

variable {initial : String → Cost} {digest : OwnerMaterial → String}
  {isLinked : OpKey → Bool} {s : Ledgered} {w' : World} {id : ℕ} {x : Worker}

/-- An admission keeps every reservation row: a row that is attached is claimed already. -/
theorem Linked.reservations_admission {r : AdmissionRequest} {i : AdmissionInput} {op : String}
    {s' : Store} (h : Linked initial s) (hok : s.world.store.AdmitOk digest r i op s') {k : OpKey}
    {token : String} (ht : s.world.store.accounts.reservations.lookup k = some token) :
    s'.accounts.reservations.lookup k = some token := by
  rw [hok.accounts, lookup_insert', if_neg]
  · exact ht
  · rintro rfl
    obtain ⟨row, hrow⟩ := h.law.claimed _ token ht
    have hnone : s.audited.accounts.operations.lookup (r.agentId, op) = none := hok.new
    rw [hnone] at hrow
    cases hrow

/-- What one step does, where every call is named and one store is shared. -/
inductive Moves (digest : OwnerMaterial → String) (isLinked : OpKey → Bool) (s : Ledgered) :
    Ledgered → Prop
  | start {id : ℕ} {request : AdmissionRequest} (hnamed : request.operationId.isSome = true) :
      Moves digest isLinked s
        ⟨{ s.world with workers := s.world.workers.insert id ⟨request, .admitting⟩ }, s.admitted⟩
  | crash {id : ℕ} :
      Moves digest isLinked s ⟨{ s.world with workers := s.world.workers.erase id }, s.admitted⟩
  /-- The calls stay, and so does what the ledger says. -/
  | touch {store : Store} (htenant : store.tenantId = s.world.store.tenantId)
      (hoperations : store.accounts.operations = s.world.store.accounts.operations)
      (hreservations : store.accounts.reservations = s.world.store.accounts.reservations)
      (hstep : store.accounts = s.world.store.accounts ∨
        Audited.Step s.audited ⟨store.accounts, s.admitted⟩) :
      Moves digest isLinked s ⟨{ s.world with store }, s.admitted⟩
  | record {review : Store.Review} {now : Time} {store : Store}
      (hrecord : s.world.store.record isLinked review now = .ok store) :
      Moves digest isLinked s ⟨{ s.world with store }, s.admitted⟩
  /-- A call goes on with the token it has. -/
  | go {id : ℕ} {x : Worker} {phase : Phase} {entered : List CallId}
      (hx : s.world.workers.lookup id = some x)
      (htoken : ∀ token, phase.token = some token → x.phase.token = some token) :
      Moves digest isLinked s ⟨{ s.world.move id x phase with entered }, s.admitted⟩
  | admission {id : ℕ} {x : Worker} {op : String} {i : AdmissionInput} {store : Store}
      {phase : Phase} {admissions : List CallId} (hx : s.world.workers.lookup id = some x)
      (hop : x.request.operationId = some op)
      (hfresh : s.world.store.accounts.FreshToken i.token)
      (hok : s.world.store.AdmitOk digest x.request i op store)
      (htoken : ∀ token, phase.token = some token → token = i.token) :
      Moves digest isLinked s ⟨{ { s.world with store }.move id x phase with admissions },
        s.admitted.insert (x.request.agentId, op) x.request.cost⟩
  | abort {id : ℕ} {x : Worker} {op token : String} {now : Time} {store : Store}
      (hx : s.world.workers.lookup id = some x) (hop : x.request.operationId = some op)
      (hphase : x.phase.token = some token)
      (habort : s.world.store.abortAdmission x.request.agentId (some op) token now = .ok store) :
      Moves digest isLinked s ⟨{ s.world with store }.move id x .done, s.admitted⟩
  | settle {id : ℕ} {x : Worker} {op token : String} {phase : Phase} {outcome : Outcome}
      {now : Time} {amount : Cost} {row : Operation} {accounts : Accounts}
      (hx : s.world.workers.lookup id = some x) (hop : x.request.operationId = some op)
      (hphase : x.phase.token = some token)
      (htoken : ∀ token, phase.token = some token → x.phase.token = some token)
      (hrow : s.world.store.accounts.operations.lookup (x.request.agentId, op) = some row)
      (hunknown : row.state = .unknown)
      (hok : s.world.store.accounts.SettleOk (x.request.agentId, op) token outcome now amount
        accounts) :
      Moves digest isLinked s
        ⟨{ s.world with store := { s.world.store with accounts } }.move id x phase, s.admitted⟩

theorem moves_of_shared {act : Action} (h : InFlight s.world)
    (hfresh : act.isLinked s.world.store.accounts = true)
    (hexec : execShared ⟨.shared, digest, isLinked⟩ s.world act = .ok w') :
    Moves digest isLinked s ⟨w', s.history act⟩ := by
  cases Shared.of_execShared hexec with
  | @admission id x i store acked hx hphase hadmission =>
    obtain ⟨op, hop⟩ := h.named id x hx
    have hhistory : s.history (.admission id i acked) =
        s.admitted.insert (x.request.agentId, op) x.request.cost := by
      simp [Ledgered.history, hx, hop]
    have hfresh' := Accounts.FreshToken.of_isFreshToken hfresh
    have hok := Store.AdmitOk.of_admitTransaction hop hadmission
    rw [hhistory]
    cases acked with
    | true => exact .admission hx hop hfresh' hok fun _ ht => (Option.some.inj ht).symm
    | false => exact .admission hx hop hfresh' hok fun _ ht => by cases ht
  | @abort id x now acked token store hx hphase habort =>
    obtain ⟨op, hop⟩ := h.named id x hx
    rw [hop] at habort
    exact .abort hx hop (by rw [hphase]; rfl) habort
  | @settle id x now token store acked hx hphase hsettle =>
    obtain ⟨op, hop⟩ := h.named id x hx
    rw [hop] at hsettle
    obtain ⟨row, amount, accounts, hrow, hunknown, hok, -, rfl⟩ := Store.settleOwned_eq_ok hsettle
    refine .settle hx hop (by rw [hphase]; rfl) (fun token' ht => ?_) hrow hunknown hok
    cases acked with
    | true => cases ht
    | false => rw [hphase]; exact ht

theorem moves_of_exec {act : Action} {s' : Ledgered} (h : InFlight s.world)
    (hexec : execLinked ⟨.shared, digest, isLinked⟩ s act = .ok s') :
    Moves digest isLinked s s' := by
  simp only [execLinked, bind_eq_ok, require_eq_ok, pure_eq_ok] at hexec
  obtain ⟨-, hlinked, w', hexec, rfl⟩ := hexec
  have hresume : ∀ id act', execResume s.world id act' = .ok w' →
      Moves digest isLinked s ⟨w', s.admitted⟩ := by
    intro id act' hresume
    obtain ⟨x, phase, hx, hphase, rfl⟩ := execResume_eq_ok.mp hresume
    exact .go hx fun _ ht => Phase.resumed_token hphase ht
  unfold exec at hexec
  split at hexec
  case h_1 id request =>
    simp only [bind_eq_ok, insertNew_eq_ok, pure_eq_ok] at hexec
    obtain ⟨_, ⟨-, rfl⟩, rfl⟩ := hexec
    exact .start hlinked
  case h_2 id now =>
    obtain ⟨x, hx, hexec⟩ := World.bind_worker_eq_ok.mp hexec
    split at hexec
    · cases hexec
      exact .touch rfl rfl rfl (.inr (.touch rfl rfl))
    · simp at hexec
  case h_3 id =>
    obtain ⟨x, hx, hexec⟩ := World.bind_worker_eq_ok.mp hexec
    split at hexec
    case h_1 token hphase =>
      cases hexec
      exact .go hx fun _ ht => by rw [hphase]; exact ht
    case h_2 => simp at hexec
  case h_4 id =>
    obtain ⟨x, hx, hexec⟩ := World.bind_worker_eq_ok.mp hexec
    obtain ⟨op, hop⟩ := h.named id x hx
    rw [hop] at hexec
    split at hexec
    · cases hexec
      exact .go hx fun _ ht => by cases ht
    case h_2 hnone => cases hnone
    · simp at hexec
  case h_5 id =>
    cases hexec
    exact .crash
  case h_6 review now =>
    simp only [bind_eq_ok, pure_eq_ok] at hexec
    obtain ⟨s', hrecord, rfl⟩ := hexec
    exact .record hrecord
  case h_7 =>
    simp only [bind_eq_ok, pure_eq_ok] at hexec
    obtain ⟨b, hset, rfl⟩ := hexec
    exact .touch rfl rfl rfl (.inr (step_setBudget hset))
  case h_8 =>
    cases hexec
    exact .touch rfl rfl rfl (.inl rfl)
  case h_14 => exact moves_of_shared h hlinked hexec
  all_goals exact hresume _ _ hexec

/-- **The gateway refines the accounting machine.** -/
theorem refines {s' : Ledgered} (h : Linked initial s) (hmoves : Moves digest isLinked s s') :
    Refines s s' := by
  cases hmoves with
  | start hnamed =>
    refine ⟨.inl rfl, rfl, fun id' y hy => ?_, fun id' y op token hy hop ht => ?_⟩
    · rcases of_lookup_insert hy with ⟨rfl, rfl⟩ | ⟨-, hy⟩
      · exact Option.isSome_iff_exists.mp hnamed
      · exact h.inFlight.named id' y hy
    · rcases of_lookup_insert hy with ⟨rfl, rfl⟩ | ⟨-, hy⟩
      · cases ht
      · exact h.inFlight.held id' y op token hy hop ht
  | crash =>
    refine ⟨.inl rfl, rfl, fun id' y hy => ?_, fun id' y op token hy hop ht => ?_⟩
    · exact h.inFlight.named id' y (of_lookup_erase hy).2
    · exact h.inFlight.held id' y op token (of_lookup_erase hy).2 hop ht
  | touch htenant hoperations hreservations hstep =>
    refine ⟨hstep.imp (fun heq => ?_) id, htenant, h.inFlight.mono rfl fun _ _ ht => ?_⟩
    · simp only [Ledgered.audited, heq]
    · rw [hreservations]
      exact ht
  | record hrecord =>
    obtain ⟨hstep, hres⟩ := step_record h.law hrecord
    refine ⟨.inr hstep, ?_, h.inFlight.mono rfl fun _ _ ht => hres ▸ ht⟩
    obtain ⟨_, _, _, -, -, -, rfl⟩ := (Store.RecordOk.of_record hrecord).settled
    rfl
  | go hx htoken =>
    exact ⟨.inl rfl, rfl, h.inFlight.move_of_token _ hx rfl (fun _ _ ht => ht) htoken⟩
  | admission hx hop hfresh hok htoken =>
    refine ⟨.inr ?_, hok.frame.1, h.inFlight.move hx rfl
      (fun k t ht => h.reservations_admission hok ht) fun op' token hop' ht => ?_⟩
    · simp only [Ledgered.audited, World.move, hok.accounts]
      exact .admission hok.new rfl hfresh hok.fits
    · obtain rfl := Option.some.inj (hop.symm.trans hop')
      simp only [World.move, hok.accounts, htoken token ht]
      exact AList.lookup_insert _
  | abort hx hop hphase habort =>
    obtain ⟨hstep, hres⟩ := step_abort h.law (h.inFlight.held _ _ _ _ hx hop hphase) habort
    refine ⟨.inr hstep, ?_, h.inFlight.move_of_token .done hx rfl (fun k t ht => hres ▸ ht)
      fun _ ht => by cases ht⟩
    obtain ⟨_, -, -, rfl⟩ := Store.abortAdmission_eq_ok habort
    rfl
  | settle hx hop hphase htoken hrow hunknown hok =>
    refine ⟨.inr (.settle hrow hunknown hok), rfl,
      h.inFlight.move_of_token _ hx rfl (fun k t ht => ?_) htoken⟩
    obtain ⟨_, -, rfl⟩ := hok.result
    exact ht

theorem exec_linked {act : Action} {s' : Ledgered} (h : Linked initial s)
    (hexec : execLinked ⟨.shared, digest, isLinked⟩ s act = .ok s') : Linked initial s' := by
  have hrefines := refines h (moves_of_exec h.inFlight hexec)
  refine ⟨?_, hrefines.inFlight⟩
  rcases hrefines.step with heq | hstep
  · rw [heq]
    exact h.law
  · exact hstep.law h.law

end Steps

/-- A store that has seen no operation yet, and no call. -/
structure World.Unused (w : World) : Prop where
  operations : w.store.accounts.operations = ∅
  reservations : w.store.accounts.reservations = ∅
  unreserved : ∀ agentId token,
    (w.store.accounts.budgets.view agentId).reserved.lookup token = none
  workers : w.workers = ∅

theorem World.Unused.linked {w : World} (h : w.Unused) :
    Linked (fun agentId => (w.store.accounts.budgets.view agentId).spent) ⟨w, ∅⟩ := by
  refine ⟨?_, ?_, ?_⟩
  · have haccounts : w.store.accounts = { budgets := w.store.accounts.budgets } := by
      rw [← h.operations, ← h.reservations]
    unfold Ledgered.audited
    rw [haccounts]
    exact AccountsLaw.start h.unreserved
  · intro id x hx
    simp [h.workers] at hx
  · intro id x op token hx
    simp [h.workers] at hx

/-- **Ledger and budget stay linked.** On one shared store, over every interleaving of
admission, settlement, cancellation cleanup, invocation failure, reconciliation and crashes of
calls with operation ids, the accounting law holds in every reachable state. -/
theorem ledger_and_budget_linked {digest : OwnerMaterial → String} {isLinked : OpKey → Bool}
    {w₀ : World} {s : Ledgered} (hrun : (linkedSystem digest isLinked).Reachable ⟨w₀, ∅⟩ s)
    (h₀ : w₀.Unused) :
    AccountsLaw (fun agentId => (w₀.store.accounts.budgets.view agentId).spent)
      ⟨s.world.store.accounts, s.admitted⟩ :=
  (hrun.invariant (I := Linked fun agentId => (w₀.store.accounts.budgets.view agentId).spent)
    h₀.linked fun _ _ _ hs hstep => exec_linked hs hstep).law

/-- One operation is charged, one is cancelled, and one stays unknown. -/
def sampleLedger : List Action :=
  let call (op : String) : AdmissionRequest :=
    { agentId := "bot", operationId := some op, capability := "write", requestScope := op
      cost := 1, decision := { allowed := true, reason := "allowed" } }
  [.start 0 (call "first"), .start 1 (call "second"), .start 2 (call "third"),
   .admission 0 { claimedAt := 1, reservedAt := 1, token := "t0" } true,
   .admission 1 { claimedAt := 1, reservedAt := 1, token := "t1" } true,
   .admission 2 { claimedAt := 2, reservedAt := 2, token := "t2" } true,
   .enter 0, .respond 0, .settle 0 3 true, .cancel 1, .abort 1 3 true, .enter 2, .raise 2]

/-- The law on a run that charges one of three operations. -/
theorem sample_ledger_linked :
    ((LTS.drive (execLinked ⟨.shared, fun m => m.subject, fun _ => false⟩) ⟨⟨{}, ∅, ∅, [], []⟩, ∅⟩
        sampleLedger).world.store.accounts.budgets.view "bot").spent = 1 ∧
    AccountsLaw (fun _ => 0)
      (LTS.drive (execLinked ⟨.shared, fun m => m.subject, fun _ => false⟩) ⟨⟨{}, ∅, ∅, [], []⟩, ∅⟩
        sampleLedger).audited := by
  have h₀ : World.Unused ⟨{}, ∅, ∅, [], []⟩ := ⟨rfl, rfl, fun _ _ => rfl, rfl⟩
  exact ⟨by decide +kernel, ledger_and_budget_linked (LTS.reachable_drive _ _ sampleLedger) h₀⟩

/-! ### Outcomes are final

`OperationLedger.finish` overwrites whatever state a row has. On a shared store it is reached only
through settlements that find the operation unknown. -/

/-- **A settled outcome is final.** On one shared store, over every interleaving of calls,
cancellations, failures, crashes and reconciliations: an operation that is there keeps its
fingerprint, its reservation and its cost in every later state, and one that has succeeded or failed
keeps its whole row. -/
theorem settled_outcome_final {digest : OwnerMaterial → String} {isLinked : OpKey → Bool}
    {w₀ : World} {s s' : Ledgered} (h₀ : w₀.Unused)
    (hrun : (linkedSystem digest isLinked).Reachable ⟨w₀, ∅⟩ s)
    (hlater : (linkedSystem digest isLinked).Reachable s s') : s.audited.Keeps s'.audited := by
  have hlinked := hrun.invariant (I := Linked fun agentId =>
    (w₀.store.accounts.budgets.view agentId).spent) h₀.linked fun _ _ _ hs hstep =>
      exec_linked hs hstep
  refine (hlater.invariant (I := fun v => Linked _ v ∧ s.audited.Keeps v.audited)
    ⟨hlinked, .refl _⟩ fun v act v' ⟨hv, hkeeps⟩ hstep => ⟨exec_linked hv hstep, ?_⟩).2
  rcases (refines hv (moves_of_exec hv.inFlight hstep)).step with heq | hstep
  · rwa [heq]
  · exact hkeeps.trans hstep.keeps

/-- The sample run, continued after its third operation has failed. -/
theorem settled_outcome_final_sample :
    (LTS.drive (execLinked ⟨.shared, fun m => m.subject, fun _ => false⟩) ⟨⟨{}, ∅, ∅, [], []⟩, ∅⟩
        sampleLedger).audited.Keeps
      (LTS.drive (execLinked ⟨.shared, fun m => m.subject, fun _ => false⟩)
        (LTS.drive (execLinked ⟨.shared, fun m => m.subject, fun _ => false⟩)
          ⟨⟨{}, ∅, ∅, [], []⟩, ∅⟩ sampleLedger) [.note 2]).audited := by
  have h₀ : World.Unused ⟨{}, ∅, ∅, [], []⟩ := ⟨rfl, rfl, fun _ _ => rfl, rfl⟩
  exact settled_outcome_final h₀ (LTS.reachable_drive _ _ _) (LTS.reachable_drive _ _ _)

end Gateway

end AgentBridge
