import AgentBridge.Gateway.System
import Mathlib.Algebra.Order.Ring.Nat

/-!
# A call is invoked at most once

For one agent and one operation id, the callback is entered at most once over the whole life of
the store, and after it was entered no admission under that identity succeeds.

The argument does not follow the phases of a call. The ledger row of an identity is written
once and never deleted, and a call can enter its callback only after it wrote the row. So the
entries made plus the calls that may still enter are at most one, and none before there is a row.

* `invoked_at_most_once` : **at most one entry, and no admission after it**.
-/

namespace AgentBridge

open List Table
open Except (bind_eq_ok pure_eq_ok)

/-- No ledger row is lost. -/
def Store.Keeps (s s' : Store) : Prop :=
  ∀ k, s.accounts.operations.lookup k ≠ none → s'.accounts.operations.lookup k ≠ none

namespace Store

variable {s s' : Store}

theorem Keeps.of_eq (h : s'.accounts.operations = s.accounts.operations) : s.Keeps s' := by
  intro k hk
  rwa [h]

variable {k : OpKey} {now : Time} {token : String}

theorem Keeps.of_insert {row : Operation}
    (h : s'.accounts.operations = s.accounts.operations.insert k row) : s.Keeps s' := by
  intro k' hk'
  rw [h, lookup_insert']
  split
  · simp
  · exact hk'

theorem Keeps.of_finish {state : OpState} {a' : Accounts}
    (h : s.accounts.finish k state now = .ok a') : s.Keeps { s with accounts := a' } := by
  obtain ⟨row, -, rfl⟩ := Accounts.finish_eq_ok.mp h
  exact .of_insert rfl

theorem Keeps.of_settleOk {outcome : Outcome} {amount : Cost} {a' : Accounts}
    (h : s.accounts.SettleOk k token outcome now amount a') :
    s.Keeps { s with accounts := a' } := by
  obtain ⟨row, -, rfl⟩ := h.result
  exact .of_insert rfl

theorem Keeps.of_record {isLinked : OpKey → Bool} {r : Review}
    (h : s.record isLinked r now = .ok s') : s.Keeps s' := by
  obtain ⟨row, accounts, reconciliations, -, -, hsettled, rfl⟩ := (RecordOk.of_record h).settled
  rcases settleRecorded_eq_ok hsettled with ⟨-, hfinish⟩ | ⟨token, amount, -, hok⟩
  · exact Keeps.of_finish hfinish
  · exact Keeps.of_settleOk hok

theorem Keeps.of_abort {agentId : String} {operationId : Option String}
    (h : s.abortAdmission agentId operationId token now = .ok s') : s.Keeps s' := by
  cases operationId with
  | none => exact .of_eq (by rw [← Except.ok.inj h])
  | some op =>
    obtain ⟨row, -, -, rfl⟩ := abortAdmission_eq_ok h
    exact .of_insert rfl

theorem Keeps.of_settle {agentId : String} {operationId : Option String} {cost : Cost}
    (h : s.settle agentId operationId token cost now = .ok s') : s.Keeps s' := by
  cases operationId with
  | none =>
    simp only [settle, bind_eq_ok, require_eq_ok, pure_eq_ok] at h
    obtain ⟨-, -, rfl⟩ := h
    exact .of_eq rfl
  | some op =>
    obtain ⟨row, amount, accounts, -, -, hok, -, rfl⟩ := settleOwned_eq_ok h
    exact Keeps.of_settleOk hok

/-- An admission without an operation id leaves the ledger alone. -/
theorem operations_admitTransaction {digest : OwnerMaterial → String} {r : AdmissionRequest}
    {i : AdmissionInput} (hop : r.operationId = none)
    (h : s.admitTransaction digest r i = .ok s') :
    s'.accounts.operations = s.accounts.operations := by
  simp only [admitTransaction, claimOperation, attachOperation, hop, bind_eq_ok,
    require_eq_ok, pure_eq_ok, Except.ok.injEq] at h
  obtain ⟨_, rfl, d, -, s₂, hreserve, -, -, _, rfl, s₄, hconsume, -, -, rfl⟩ := h
  rw [consumeRequired_frame hconsume, (reserveBudget_eq_ok hreserve).2]

/-- A claim writes the row of its key. -/
theorem operations_claim {fingerprint : String} {token : Option String} {stamp : Time}
    (h : s.claim k fingerprint token none .ok stamp = .ok s') :
    s.accounts.operations.lookup k = none ∧ s'.accounts.operations =
      s.accounts.operations.insert k { fingerprint, state := .unknown, updated := stamp } := by
  have hc := ClaimOk.of_claim h
  obtain ⟨s₁, ops, res, auth, hhook, -, rfl, -, -, rfl⟩ := hc.inserted
  cases hhook
  exact ⟨hc.new, rfl⟩

end Store

namespace Gateway

/-- The call may still enter its callback. -/
def Phase.mayEnter : Phase → Bool
  | .claimed _ => true
  | .admitted _ => true
  | _ => false

/-- What one step does to rows, calls and logs. -/
inductive Change (w w' : World) : Prop
  /-- The calls and logs stay as they are. -/
  | still (hworkers : w'.workers = w.workers) (hentered : w'.entered = w.entered)
      (hadmissions : w'.admissions = w.admissions) (hkeeps : w.store.Keeps w'.store)
  | start (id : ℕ) (request : AdmissionRequest) (hnew : w.workers.lookup id = none)
      (hw : w' = { w with workers := w.workers.insert id ⟨request, .admitting⟩ })
  | crash (id : ℕ) (hw : w' = { w with workers := w.workers.erase id })
  /-- A call moves on to a phase from which it does not enter. -/
  | leave {id : ℕ} {x : Worker} {phase : Phase} (hx : w.workers.lookup id = some x)
      (hphase : phase.mayEnter = false)
      (hworkers : w'.workers = w.workers.insert id { x with phase })
      (hentered : w'.entered = w.entered) (hadmissions : w'.admissions = w.admissions)
      (hkeeps : w.store.Keeps w'.store)
  /-- A call writes its ledger row. -/
  | claim {id : ℕ} {x : Worker} {phase : Phase} {op : String} {row : Operation}
      (hx : w.workers.lookup id = some x) (hphase : x.phase.mayEnter = false)
      (hop : x.request.operationId = some op)
      (hnew : w.store.accounts.operations.lookup (x.request.agentId, op) = none)
      (hworkers : w'.workers = w.workers.insert id { x with phase })
      (hentered : w'.entered = w.entered)
      (hadmissions : w'.admissions = w.admissions ∨ w'.admissions = w.admissions ++ [x.callId])
      (hrow : w'.store.accounts.operations =
        w.store.accounts.operations.insert (x.request.agentId, op) row)
  /-- An admission completes that has its row already, or needs none. -/
  | complete {id : ℕ} {x : Worker} {token : String} (hx : w.workers.lookup id = some x)
      (hphase : x.phase.mayEnter = true ∨ x.request.operationId = none)
      (hworkers : w'.workers = w.workers.insert id { x with phase := .admitted token })
      (hentered : w'.entered = w.entered)
      (hadmissions : w'.admissions = w.admissions ++ [x.callId])
      (hkeeps : w.store.Keeps w'.store)
  /-- A call enters its callback. -/
  | enter {id : ℕ} {x : Worker} {token : String} (hx : w.workers.lookup id = some x)
      (hphase : x.phase.mayEnter = true)
      (hw : w' = { w.move id x (.invoking token) with entered := w.entered ++ [x.callId] })

namespace World

variable {cfg : Config} {w : World} {b : Budgets}

@[simp] theorem workers_withBudgets : (w.withBudgets cfg b).workers = w.workers := by
  unfold withBudgets
  split <;> rfl

@[simp] theorem entered_withBudgets : (w.withBudgets cfg b).entered = w.entered := by
  unfold withBudgets
  split <;> rfl

@[simp] theorem admissions_withBudgets : (w.withBudgets cfg b).admissions = w.admissions := by
  unfold withBudgets
  split <;> rfl

@[simp] theorem operations_withBudgets :
    (w.withBudgets cfg b).store.accounts.operations = w.store.accounts.operations := by
  unfold withBudgets
  split <;> rfl

theorem worker_eq_ok {id : ℕ} {x : Worker} :
    w.worker id = .ok x ↔ w.workers.lookup id = some x := by
  unfold worker
  cases w.workers.lookup id <;> simp

theorem bind_worker_eq_ok {α : Type} {id : ℕ} {f : Worker → Except Fault α} {a : α} :
    (w.worker id >>= f) = .ok a ↔ ∃ x, w.workers.lookup id = some x ∧ f x = .ok a := by
  simp only [bind_eq_ok, worker_eq_ok]

@[simp] theorem notEnabled_eq_ok {α : Type} {a : α} : notEnabled = .ok a ↔ False := by
  simp [notEnabled]

end World

variable {cfg : Config} {w w' : World} {id : ℕ} {x : Worker}

/-- A call that writes its budgets and moves on. -/
theorem Change.of_withBudgets {b : Budgets} {phase : Phase} (hx : w.workers.lookup id = some x)
    (hphase : phase.mayEnter = false) : Change w ((w.withBudgets cfg b).move id x phase) :=
  .leave hx hphase (by simp [World.move]) (by simp [World.move]) (by simp [World.move])
    (.of_eq (by simp [World.move]))

/-- A call that writes the store and moves on. -/
theorem Change.of_store {s' : Store} {phase : Phase} (hx : w.workers.lookup id = some x)
    (hphase : phase.mayEnter = false) (hkeeps : w.store.Keeps s') :
    Change w ({ w with store := s' }.move id x phase) :=
  .leave hx hphase rfl rfl rfl hkeeps

variable {act : Action}

theorem Phase.resumed_mayEnter {p p' : Phase} (h : Phase.resumed act p = some p') :
    p'.mayEnter = false := by
  unfold resumed at h
  split at h
  case h_6 =>
    unfold interrupted at h
    split at h <;> cases h <;> rfl
  all_goals cases h
  all_goals rfl

theorem execResume_eq_ok : execResume w id act = .ok w' ↔ ∃ x phase,
    w.workers.lookup id = some x ∧ Phase.resumed act x.phase = some phase ∧
      w.move id x phase = w' := by
  simp only [execResume, World.bind_worker_eq_ok]
  refine exists_congr fun x => ?_
  cases Phase.resumed act x.phase <;> simp

/-- What the steps on one store can do. -/
inductive Shared (cfg : Config) (w : World) : Action → World → Prop
  | admission {id : ℕ} {x : Worker} {i : AdmissionInput} {store : Store} (acked : Bool)
      (hx : w.workers.lookup id = some x) (hphase : x.phase = .admitting)
      (hadmission : w.store.admitTransaction cfg.digest x.request i = .ok store) :
      Shared cfg w (.admission id i acked) (if acked then { w with store }.admits id x i.token
        else { w with store }.move id x .done)
  | abort {id : ℕ} {x : Worker} {now : Time} {acked : Bool} {token : String} {store : Store}
      (hx : w.workers.lookup id = some x) (hphase : x.phase = .aborting token)
      (habort : w.store.abortAdmission x.request.agentId x.request.operationId token now =
        .ok store) : Shared cfg w (.abort id now acked) ({ w with store }.move id x .done)
  | settle {id : ℕ} {x : Worker} {now : Time} {token : String} {store : Store} (acked : Bool)
      (hx : w.workers.lookup id = some x) (hphase : x.phase = .settling token)
      (hsettle : w.store.settle x.request.agentId x.request.operationId token x.request.cost now =
        .ok store) : Shared cfg w (.settle id now acked)
          ({ w with store }.move id x (if acked then .done else .noting token))

theorem Shared.of_execShared (h : execShared cfg w act = .ok w') : Shared cfg w act w' := by
  unfold execShared at h
  split at h
  case h_1 | h_2 | h_3 =>
    obtain ⟨x, hx, h⟩ := World.bind_worker_eq_ok.mp h
    split at h
    · obtain ⟨store, hstore, h⟩ := bind_eq_ok.mp h
      cases h
      constructor <;> assumption
    · simp at h
  case h_4 => simp at h

theorem change_of_execShared (h : execShared cfg w act = .ok w') : Change w w' := by
  cases Shared.of_execShared h with
  | @admission id x i store acked hx hphase hadmission =>
    cases hop : x.request.operationId with
    | none =>
      have hkeeps := Store.Keeps.of_eq (Store.operations_admitTransaction hop hadmission)
      cases acked with
      | true => exact .complete hx (.inr hop) rfl rfl rfl hkeeps
      | false => exact Change.of_store hx rfl hkeeps
    | some op =>
      have hok := Store.AdmitOk.of_admitTransaction hop hadmission
      have hrow := congrArg Accounts.operations hok.accounts
      cases acked with
      | true => exact .claim hx (by rw [hphase]; rfl) hop hok.new rfl rfl (.inr rfl) hrow
      | false => exact .claim hx (by rw [hphase]; rfl) hop hok.new rfl rfl (.inl rfl) hrow
  | abort hx hphase habort => exact Change.of_store hx rfl (.of_abort habort)
  | settle acked hx hphase hsettle =>
    exact Change.of_store hx (by cases acked <;> rfl) (.of_settle hsettle)

theorem finishCall_eq_ok {state : OpState} {now : Time} (h : finishCall w x state now = .ok w') :
    ∃ s', w' = { w with store := s' } ∧ w.store.Keeps s' := by
  unfold finishCall at h
  split at h
  case h_1 => exact ⟨w.store, (Except.ok.inj h).symm, .of_eq rfl⟩
  case h_2 op hop =>
    simp only [bind_eq_ok, pure_eq_ok] at h
    obtain ⟨accounts, hfinish, rfl⟩ := h
    exact ⟨_, rfl, .of_finish hfinish⟩

theorem change_of_execSeparate (h : execSeparate cfg w act = .ok w') : Change w w' := by
  unfold execSeparate at h
  split at h
  case h_1 id now token acked =>
    obtain ⟨x, hx, h⟩ := World.bind_worker_eq_ok.mp h
    split at h
    case h_1 =>
      -- granted or refused, the call cannot enter yet
      simp only [bind_eq_ok] at h
      obtain ⟨-, -, h⟩ := h
      split at h
      · cases h
        exact Change.of_withBudgets hx (by cases acked <;> rfl)
      · cases h
        exact Change.of_withBudgets hx rfl
    case h_2 => simp at h
  case h_2 id acked =>
    obtain ⟨x, hx, h⟩ := World.bind_worker_eq_ok.mp h
    split at h
    case h_1 token hphase =>
      simp only [bind_eq_ok, pure_eq_ok] at h
      obtain ⟨s', hconsume, rfl⟩ := h
      refine Change.of_store hx (by cases acked <;> rfl) (.of_eq ?_)
      rw [Store.consumeRequired_frame hconsume]
    case h_2 => simp at h
  case h_3 id stamp acked =>
    obtain ⟨x, hx, h⟩ := World.bind_worker_eq_ok.mp h
    split at h
    case h_1 token hphase hop =>
      cases h
      exact .complete hx (.inr hop) rfl rfl rfl (.of_eq rfl)
    case h_2 token op hphase hop =>
      simp only [bind_eq_ok, pure_eq_ok] at h
      obtain ⟨s', hclaim, rfl⟩ := h
      obtain ⟨hnew, hrow⟩ := Store.operations_claim hclaim
      exact .claim hx (by rw [hphase]; rfl) hop hnew rfl rfl (.inl rfl) hrow
    case h_3 => simp at h
  case h_4 id =>
    obtain ⟨x, hx, h⟩ := World.bind_worker_eq_ok.mp h
    split at h
    case h_1 token hphase =>
      cases h
      exact .complete hx (.inl (by rw [hphase]; rfl)) rfl rfl rfl (.of_eq rfl)
    case h_2 => simp at h
  case h_5 id acked =>
    obtain ⟨x, hx, h⟩ := World.bind_worker_eq_ok.mp h
    split at h
    case h_1 token claimed hphase =>
      cases h
      exact Change.of_withBudgets hx (by cases claimed <;> cases acked <;> rfl)
    case h_2 => simp at h
  case h_6 id _ acked =>
    obtain ⟨x, hx, h⟩ := World.bind_worker_eq_ok.mp h
    split at h
    case h_1 token hphase =>
      cases h
      exact Change.of_withBudgets hx (by cases acked <;> rfl)
    case h_2 => simp at h
  case h_7 id now =>
    obtain ⟨x, hx, h⟩ := World.bind_worker_eq_ok.mp h
    split at h
    case h_1 hphase =>
      simp only [bind_eq_ok, pure_eq_ok] at h
      obtain ⟨w₁, hfinish, rfl⟩ := h
      obtain ⟨s', rfl, hkeeps⟩ := finishCall_eq_ok hfinish
      exact Change.of_store hx rfl hkeeps
    case h_2 => simp at h
  case h_8 id now acked =>
    obtain ⟨x, hx, h⟩ := World.bind_worker_eq_ok.mp h
    split at h
    case h_1 token hphase =>
      split at h
      · cases h
        exact Change.of_withBudgets hx (by cases acked <;> rfl)
      · cases h
        exact Change.of_withBudgets hx rfl
    case h_2 => simp at h
  case h_9 id now acked =>
    obtain ⟨x, hx, h⟩ := World.bind_worker_eq_ok.mp h
    split at h
    case h_1 token hphase =>
      simp only [bind_eq_ok, pure_eq_ok] at h
      obtain ⟨w₁, hfinish, rfl⟩ := h
      obtain ⟨s', rfl, hkeeps⟩ := finishCall_eq_ok hfinish
      exact Change.of_store hx (by cases acked <;> rfl) hkeeps
    case h_2 => simp at h
  case h_10 => simp at h

/-- **What one step does to rows, calls and logs.** -/
theorem change_of_exec (h : exec cfg w act = .ok w') : Change w w' := by
  unfold exec at h
  split at h
  case h_1 id request =>
    simp only [bind_eq_ok, insertNew_eq_ok, pure_eq_ok] at h
    obtain ⟨_, ⟨hnew, rfl⟩, rfl⟩ := h
    exact .start id request hnew rfl
  case h_2 id now =>
    obtain ⟨x, hx, h⟩ := World.bind_worker_eq_ok.mp h
    split at h
    · cases h
      exact .still (by simp) (by simp) (by simp) (.of_eq (by simp))
    · simp at h
  case h_3 id =>
    obtain ⟨x, hx, h⟩ := World.bind_worker_eq_ok.mp h
    split at h
    case h_1 token hphase =>
      exact .enter hx (by rw [hphase]; rfl) (pure_eq_ok.mp h).symm
    case h_2 => simp at h
  case h_4 id =>
    obtain ⟨x, hx, h⟩ := World.bind_worker_eq_ok.mp h
    split at h
    · cases h
      exact Change.of_store hx rfl (.of_eq rfl)
    · cases h
      exact Change.of_withBudgets hx rfl
    · simp at h
  case h_5 id => exact .crash id (Except.ok.inj h).symm
  case h_6 review now =>
    simp only [bind_eq_ok, pure_eq_ok] at h
    obtain ⟨s', hrecord, rfl⟩ := h
    exact .still rfl rfl rfl (.of_record hrecord)
  case h_7 =>
    simp only [bind_eq_ok, pure_eq_ok] at h
    obtain ⟨b, -, rfl⟩ := h
    exact .still (by simp) (by simp) (by simp) (.of_eq (by simp))
  case h_8 =>
    cases h
    exact .still rfl rfl rfl (.of_eq rfl)
  case h_14 =>
    split at h
    · exact change_of_execShared h
    · exact change_of_execSeparate h
  all_goals
    obtain ⟨x, phase, hx, hphase, rfl⟩ := execResume_eq_ok.mp h
    exact .leave hx (Phase.resumed_mayEnter hphase) rfl rfl rfl (.of_eq rfl)

/-! ### Counting entries -/

/-- One if the worker may still enter the callback of `c`. -/
def mayEnter (c : CallId) (_ : ℕ) (x : Worker) : ℕ :=
  if x.callId = c ∧ x.phase.mayEnter = true then 1 else 0

/-- The entries of `c` made so far, and those that may still be made. -/
def World.chances (w : World) (c : CallId) : ℕ :=
  w.entered.count c + Table.sum (mayEnter c) w.workers

/-- **The counting invariant** of one identity. -/
structure Guarded (k : OpKey) (w : World) : Prop where
  le_one : w.chances (k.1, some k.2) ≤ 1
  unclaimed : w.store.accounts.operations.lookup k = none → w.chances (k.1, some k.2) = 0

theorem mayEnter_eq_zero {c : CallId} (id : ℕ) (x : Worker)
    (h : x.callId = c → x.phase.mayEnter = false) :
    mayEnter c id x = 0 := by
  unfold mayEnter
  rw [if_neg]
  rintro ⟨hc, hp⟩
  simp [h hc] at hp

/-- What a change of one worker does to the count. -/
theorem chances_insert {x' : Worker} (c : CallId) (hx : w.workers.lookup id = some x)
    (hworkers : w'.workers = w.workers.insert id x') (hentered : w'.entered = w.entered) :
    w'.chances c + mayEnter c id x = w.chances c + mayEnter c id x' := by
  have hsum := sum_erase (mayEnter c) hx
  simp only [World.chances, hworkers, hentered, sum_insert_erase]
  omega

variable {k : OpKey}

/-- No step but the claim adds a chance. -/
theorem Guarded.of_le (h : Guarded k w)
    (hle : w'.chances (k.1, some k.2) ≤ w.chances (k.1, some k.2))
    (hkeeps : w.store.Keeps w'.store) : Guarded k w' := by
  refine ⟨hle.trans h.le_one, fun hnone => ?_⟩
  have hold : w.store.accounts.operations.lookup k = none := by
    by_contra hsome
    exact hkeeps k hsome hnone
  have := h.unclaimed hold
  omega

theorem Change.guarded (hstep : Change w w') (h : Guarded k w) : Guarded k w' := by
  cases hstep with
  | still hworkers hentered _ hkeeps =>
    refine h.of_le ?_ hkeeps
    simp only [World.chances, hworkers, hentered, le_refl]
  | start id request hnew hw =>
    subst hw
    refine h.of_le ?_ (.of_eq rfl)
    simp only [World.chances, sum_insert _ hnew]
    rw [mayEnter_eq_zero id ⟨request, .admitting⟩ fun _ => rfl]
    omega
  | crash id hw =>
    subst hw
    refine h.of_le ?_ (.of_eq rfl)
    exact Nat.add_le_add_left (sum_erase_le (fun _ _ => Nat.zero_le _) _ _) _
  | @leave id x phase hx hphase hworkers hentered _ hkeeps =>
    refine h.of_le ?_ hkeeps
    have hmove := chances_insert (k.1, some k.2) hx hworkers hentered
    rw [mayEnter_eq_zero id { x with phase } fun _ => hphase] at hmove
    omega
  | @claim id x phase op row hx hphase hop hnew hworkers hentered _ hrow =>
    have hmove := chances_insert (k.1, some k.2) hx hworkers hentered
    rw [mayEnter_eq_zero id x fun _ => hphase] at hmove
    by_cases hk : (x.request.agentId, op) = k
    · -- the row is new, so there was no chance before
      have hzero := h.unclaimed (hk ▸ hnew)
      have hone : mayEnter (k.1, some k.2) id { x with phase } ≤ 1 := by
        unfold mayEnter
        split <;> omega
      refine ⟨by omega, fun hnone => ?_⟩
      rw [hrow, hk, lookup_insert', if_pos rfl] at hnone
      cases hnone
    · have hcall : ({ x with phase } : Worker).callId ≠ (k.1, some k.2) := by
        intro heq
        simp only [Worker.callId, hop, Prod.mk.injEq, Option.some.injEq] at heq
        exact hk (Prod.ext heq.1 heq.2)
      rw [mayEnter_eq_zero id { x with phase } fun heq => absurd heq hcall] at hmove
      exact h.of_le (by omega) (.of_insert hrow)
  | @complete id x token hx hphase hworkers hentered _ hkeeps =>
    refine h.of_le ?_ hkeeps
    have hmove := chances_insert (k.1, some k.2) hx hworkers hentered
    by_cases hcall : x.callId = (k.1, some k.2)
    · have hp : x.phase.mayEnter = true := by
        refine hphase.resolve_right fun hnone => ?_
        simp [Worker.callId, hnone] at hcall
      have hone : mayEnter (k.1, some k.2) id x = 1 := by simp [mayEnter, hcall, hp]
      have hle : mayEnter (k.1, some k.2) id { x with phase := .admitted token } ≤ 1 := by
        unfold mayEnter
        split <;> omega
      omega
    · rw [mayEnter_eq_zero id { x with phase := .admitted token } fun heq =>
        absurd heq hcall] at hmove
      omega
  | @enter id x token hx hphase hw =>
    subst hw
    refine h.of_le ?_ (.of_eq rfl)
    have hsum := sum_erase (mayEnter (k.1, some k.2)) hx
    have hnew : mayEnter (k.1, some k.2) id { x with phase := .invoking token } = 0 :=
      mayEnter_eq_zero _ _ fun _ => rfl
    simp only [World.chances, World.move, sum_insert_erase, hnew, count_append]
    by_cases hcall : x.callId = (k.1, some k.2)
    · have hone : mayEnter (k.1, some k.2) id x = 1 := by simp [mayEnter, hcall, hphase]
      rw [hcall, count_singleton_self]
      omega
    · rw [count_singleton, if_neg (by simpa using hcall)]
      omega

/-! ### The whole life of the store -/

/-- A step of the run: what the log of admissions gains. -/
theorem Change.admissions_eq (hstep : Change w w') (h : Guarded k w)
    (hentered : (k.1, some k.2) ∈ w.entered) :
    w'.admissions.count (k.1, some k.2) = w.admissions.count (k.1, some k.2) := by
  have hpos : 0 < w.entered.count (k.1, some k.2) := count_pos_iff.mpr hentered
  have hle := h.le_one
  have hrow : w.store.accounts.operations.lookup k ≠ none := by
    intro hnone
    have := h.unclaimed hnone
    unfold World.chances at this
    omega
  cases hstep with
  | still _ _ hadm _ => rw [hadm]
  | start id request _ hw => rw [hw]
  | crash id hw => rw [hw]
  | leave _ _ _ _ hadm _ => rw [hadm]
  | @claim id x phase op row hx _ hop hnew _ _ hadm _ =>
    rcases hadm with hadm | hadm
    · rw [hadm]
    · have hcall : x.callId ≠ (k.1, some k.2) := by
        intro heq
        simp only [Worker.callId, hop, Prod.mk.injEq, Option.some.injEq] at heq
        exact hrow (by rw [← hnew]; congr 1; exact Prod.ext heq.1.symm heq.2.symm)
      rw [hadm, count_append, count_singleton, if_neg (by simpa using hcall), add_zero]
  | @complete id x token hx hphase _ _ hadm _ =>
    have hcall : x.callId ≠ (k.1, some k.2) := by
      intro hcall
      have hp : x.phase.mayEnter = true := by
        refine hphase.resolve_right fun hnone => ?_
        simp [Worker.callId, hnone] at hcall
      -- the call itself would be a second chance
      have hsum := sum_erase (mayEnter (k.1, some k.2)) hx
      have hone : mayEnter (k.1, some k.2) id x = 1 := by simp [mayEnter, hcall, hp]
      unfold World.chances at hle
      omega
    rw [hadm, count_append, count_singleton, if_neg (by simpa using hcall), add_zero]
  | enter _ _ hw => rw [hw]; rfl

theorem Change.entered_subset (hstep : Change w w') : w.entered ⊆ w'.entered := by
  cases hstep with
  | still _ h _ _ | leave _ _ _ h _ _ | claim _ _ _ _ _ h _ _ | complete _ _ _ h _ _ =>
    rw [h]; exact List.Subset.refl _
  | start _ _ _ hw | crash _ hw => rw [hw]; exact List.Subset.refl _
  | enter _ _ hw => rw [hw]; exact subset_append_left _ _

/-- No call is running, and no callback was entered yet; the store is arbitrary. -/
structure World.Quiet (w : World) : Prop where
  workers : w.workers = ∅
  entered : w.entered = []

theorem World.Quiet.guarded (h : w.Quiet) (k : OpKey) : Guarded k w := by
  have hzero : w.chances (k.1, some k.2) = 0 := by
    simp [chances, h.workers, h.entered]
  exact ⟨by omega, fun _ => hzero⟩

theorem reachable_guarded {w₀ : World} (hrun : (system cfg).Reachable w₀ w) (h₀ : Guarded k w₀) :
    Guarded k w :=
  hrun.invariant (I := Guarded k) h₀ fun _ _ _ hs hstep => (change_of_exec hstep).guarded hs

/-- An entered identity keeps its row, and gains no admission, in every continuation. -/
theorem admissions_frozen (hrun : (system cfg).Reachable w w') (h : Guarded k w)
    (hentered : (k.1, some k.2) ∈ w.entered) :
    w'.admissions.count (k.1, some k.2) = w.admissions.count (k.1, some k.2) ∧
      w'.store.accounts.operations.lookup k ≠ none := by
  have hinv : Guarded k w' ∧ (k.1, some k.2) ∈ w'.entered ∧
      w'.admissions.count (k.1, some k.2) = w.admissions.count (k.1, some k.2) := by
    refine hrun.invariant (I := fun v => Guarded k v ∧ (k.1, some k.2) ∈ v.entered ∧
      v.admissions.count (k.1, some k.2) = w.admissions.count (k.1, some k.2))
      ⟨h, hentered, rfl⟩ ?_
    rintro v act v' ⟨hv, hin, hcount⟩ hstep
    have hchange := change_of_exec hstep
    exact ⟨hchange.guarded hv, hchange.entered_subset hin,
      (hchange.admissions_eq hv hin).trans hcount⟩
  refine ⟨hinv.2.2, fun hnone => ?_⟩
  have hzero := hinv.1.unclaimed hnone
  have hpos : 0 < w'.entered.count (k.1, some k.2) := count_pos_iff.mpr hinv.2.1
  unfold World.chances at hzero
  omega

/-- A claimed id is refused, by the admission transaction and by the bare claim. -/
theorem refused_of_row {s : Store} (h : s.accounts.operations.lookup k ≠ none) :
    (∀ (digest : OwnerMaterial → String) (r : AdmissionRequest) (i : AdmissionInput),
      r.agentId = k.1 → r.operationId = some k.2 →
      (s.admitTransaction digest r i).isOk = false) ∧
    ∀ (fingerprint : String) (token : Option String) (binding : Option Binding)
      (beforeInsert : Store → Except Fault Store) (stamp : Time),
      (s.claim k fingerprint token binding beforeInsert stamp).isOk = false := by
  constructor
  · intro digest r i hagent hop
    cases hadmission : s.admitTransaction digest r i with
    | error e => rfl
    | ok s' =>
      refine absurd (Store.AdmitOk.of_admitTransaction hop hadmission).new ?_
      rwa [hagent]
  · intro fingerprint token binding beforeInsert stamp
    cases hclaim : s.claim k fingerprint token binding beforeInsert stamp with
    | error e => rfl
    | ok s' => exact absurd (Store.ClaimOk.of_claim hclaim).new h

/-- **Synchronous calls are at most once per operation identity.** From any store, on both
placements of the participants, over every interleaving of calls, cancellations, failures,
crashes and reconciliations: the callback of an agent and operation id is entered at most once;
and once it was entered, in every later state no admission of that identity is added, and the
store refuses to admit or claim it. -/
theorem invoked_at_most_once {cfg : Config} {w₀ w : World}
    (hrun : (system cfg).Reachable w₀ w) (h₀ : w₀.Quiet) (agentId operationId : String) :
    w.entered.count (agentId, some operationId) ≤ 1 ∧
    ((agentId, some operationId) ∈ w.entered → ∀ w', (system cfg).Reachable w w' →
      w'.admissions.count (agentId, some operationId) =
        w.admissions.count (agentId, some operationId) ∧
      (∀ (digest : OwnerMaterial → String) (r : AdmissionRequest) (i : AdmissionInput),
        r.agentId = agentId → r.operationId = some operationId →
        (w'.store.admitTransaction digest r i).isOk = false) ∧
      ∀ (fingerprint : String) (token : Option String) (binding : Option Binding)
        (beforeInsert : Store → Except Fault Store) (stamp : Time),
        (w'.store.claim (agentId, operationId) fingerprint token binding beforeInsert
          stamp).isOk = false) := by
  have hguarded : Guarded (agentId, operationId) w :=
    reachable_guarded hrun (h₀.guarded (agentId, operationId))
  refine ⟨?_, fun hentered w' hrun' => ?_⟩
  · have hle : w.chances (agentId, some operationId) ≤ 1 := hguarded.le_one
    unfold World.chances at hle
    omega
  · obtain ⟨hcount, hrow⟩ := admissions_frozen hrun' hguarded hentered
    exact ⟨hcount, refused_of_row hrow⟩

/-- Two calls under one operation id. -/
def sampleRequest (scope : String) : AdmissionRequest where
  agentId := "bot"
  operationId := some "operation-000001"
  capability := "write"
  requestScope := scope
  cost := 1
  decision := { allowed := true, reason := "allowed" }

/-- One call is entered and fails; an operator settles it; a second call tries again. -/
def sampleActions : List Action :=
  [.start 0 (sampleRequest "a"), .start 1 (sampleRequest "b"),
   .admission 0 { claimedAt := 1, reservedAt := 1, token := "t0" } true, .enter 0, .raise 0,
   .note 0,
   .record { agentId := "bot", operationId := "operation-000001", result := .failed
             externalReference := "ticket", reviewer := "ops"
             evidenceSha256 := "0123456789abcdef0123456789abcdef0123456789abcdef0123456789abcdef" }
     2,
   .admission 1 { claimedAt := 3, reservedAt := 3, token := "t1" } true, .enter 1]

/-- The retry is not admitted although the first attempt was settled as failed. -/
theorem sample_invoked_once :
    (LTS.drive (exec ⟨.shared, fun m => m.subject, fun _ => false⟩) ⟨{}, ∅, ∅, [], []⟩
        sampleActions).entered = [("bot", some "operation-000001")] ∧
    (LTS.drive (exec ⟨.shared, fun m => m.subject, fun _ => false⟩) ⟨{}, ∅, ∅, [], []⟩
        sampleActions).entered.count ("bot", some "operation-000001") ≤ 1 := by
  refine ⟨by decide +kernel, ?_⟩
  exact (invoked_at_most_once (LTS.reachable_drive _ _ sampleActions) ⟨rfl, rfl⟩ "bot"
    "operation-000001").1

end Gateway

end AgentBridge
