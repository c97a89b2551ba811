import AgentBridge.Window.Basic
import AgentBridge.Gateway.Store
import Mathlib.Algebra.Order.Ring.Nat

/-!
# Aggregate quotas are enforced

An admission takes the quota lock, reads usage in three statements, and commits. Every other
transaction may commit in between. Because only admissions add usage and the lock keeps them
apart, what was read dominates what is true at the commit: settlements only take usage away.

The clock readings are arbitrary: the rate check counts every record later than the start of
the window, so the bound needs no order between admissions.

* `quotas_enforced` : **every cap holds in every reachable state**.
-/

namespace AgentBridge

open List Nat
open Except (bind_eq_ok pure_eq_ok)

namespace Store

variable (s : Store)

/-- The store as a usage statement sees it. -/
def join : JoinRead := ⟨s.quotaRecords, s.accounts.operations⟩

/-- The number of unknown operations. -/
def unknownCount : ℕ :=
  Table.sum (fun _ o => if o.state = .unknown then 1 else 0) s.accounts.operations

/-- When operations were admitted. -/
def admissionTimes : List Time := s.quotaRecords.entries.map fun e => e.2.admitted

/-- When operations of one owner were admitted. -/
def admissionTimesOf (owner : String) : List Time :=
  (s.quotaRecords.entries.filter fun e => e.2.owner == owner).map fun e => e.2.admitted

end Store

namespace Quota

/-- The admission transaction that holds the quota lock. -/
structure Holder where
  request : AdmissionRequest
  now : Time
  budgets : Option Budgets := none
  joined : Option JoinRead := none
  legacy : Option JoinRead := none

/-- The store, and who holds the quota lock. -/
structure Tenant where
  store : Store
  holder : Option Holder := none

/-- One statement of an admission, or one other transaction. -/
inductive Action
  /-- The claim reaches its quota hook: lock, policy and clock. -/
  | acquire (request : AdmissionRequest) (now : Time)
  | readBudgets
  | readJoined
  | readLegacy
  /-- The rest of the admission, up to its commit. -/
  | commit (input : AdmissionInput)
  /-- The admission raises, or its worker dies. -/
  | rollback
  /-- An admission by a worker that knows no quotas. -/
  | unmetered (request : AdmissionRequest) (input : AdmissionInput)
  | abort (agentId operationId token : String) (now : Time)
  | settle (k : OpKey) (token : String) (outcome : Outcome) (expectedCost : Option Cost)
      (now : Time)
  | record (review : Store.Review) (now : Time)
  | canAfford (agentId : String) (cost : Cost) (now : Time)
  | setBudget (agentId : String) (spendLimit : Cost) (rateLimit windowSeconds : ℕ)

/-- The admission that holds the lock. -/
def Tenant.held (t : Tenant) : Except Fault Holder :=
  match t.holder with
  | some h => .ok h
  | none => .error (.runtimeError "quota lock not held")

/-- What the three statements of the holder have read. -/
def Holder.reads (h : Holder) : Except Fault QuotaReads :=
  match h.budgets, h.joined, h.legacy with
  | some budgets, some joined, some legacy => .ok { budgets, joined, legacy }
  | _, _, _ => .error (.runtimeError "usage not read")

/-- Write the budgets of the store. -/
def Tenant.withBudgets (t : Tenant) (budgets : Budgets) : Tenant :=
  { t with store := { t.store with accounts := { t.store.accounts with budgets } } }

/-- The effect of one step. -/
def exec (digest : OwnerMaterial → String) (isLinked : OpKey → Bool) (t : Tenant) :
    Action → Except Fault Tenant
  | .acquire request now => do
    require t.holder.isNone (.runtimeError "quota lock taken")
    require (request.principal.isSome && request.operationId.isSome)
      (.admissionRejected "durable operation_id required in production")
    return { t with holder := some { request, now } }
  | .readBudgets => do
    let h ← t.held
    return { t with holder := some { h with budgets := some t.store.accounts.budgets } }
  | .readJoined => do
    let h ← t.held
    require h.budgets.isSome (.runtimeError "budgets are read first")
    return { t with holder := some { h with joined := some t.store.join } }
  | .readLegacy => do
    let h ← t.held
    require h.joined.isSome (.runtimeError "joined records are read first")
    return { t with holder := some { h with legacy := some t.store.join } }
  | .commit input => do
    let h ← t.held
    let quotaReads ← h.reads
    let store ← t.store.admitTransaction digest h.request
      { input with quotaNow := h.now, quotaReads }
    return { store, holder := none }
  | .rollback => .ok { t with holder := none }
  | .unmetered request input => do
    require (request.principal.isNone && request.operationId.isSome)
      (.runtimeError "an admission without quotas has no principal")
    let store ← t.store.admitTransaction digest request input
    return { t with store }
  | .abort agentId operationId token now => do
    let store ← t.store.abortAdmission agentId (some operationId) token now
    return { t with store }
  | .settle k token outcome expectedCost now => do
    let store ← t.store.settleOwned k token outcome expectedCost now
    return { t with store }
  | .record review now => do
    let store ← t.store.record isLinked review now
    return { t with store }
  | .canAfford agentId cost now =>
    .ok (t.withBudgets (t.store.accounts.budgets.canAfford agentId cost now).2)
  | .setBudget agentId spendLimit rateLimit windowSeconds => do
    let budgets ← t.store.accounts.budgets.setBudget agentId spendLimit rateLimit windowSeconds
    return t.withBudgets budgets

/-- Admissions, settlements and reconciliations of one tenant. -/
def system (digest : OwnerMaterial → String) (isLinked : OpKey → Bool) : LTS Tenant Action :=
  .ofExec (exec digest isLinked)

/-- **All six caps** of a policy. -/
structure Caps (l : QuotaLimits) (s : Store) : Prop where
  spend : s.accounts.budgets.exposureTotal ≤ l.spendLimit
  userSpend : ∀ owner, s.join.owned owner ≤ l.userSpendLimit
  active : s.unknownCount ≤ l.maxActive
  userActive : ∀ owner, s.join.ownedActive owner ≤ l.userMaxActive
  rate : Windowed (l.windowSeconds : Time) l.rateLimit s.admissionTimes
  userRate : ∀ owner,
    Windowed (l.windowSeconds : Time) l.userRateLimit (s.admissionTimesOf owner)

/-- Every admission record has its operation. -/
def Recorded (s : Store) : Prop :=
  ∀ k q, s.quotaRecords.lookup k = some q → s.accounts.operations.lookup k ≠ none

/-! ### Settlements take usage away -/

/-- The second ledger is the first one with operations settled. -/
structure Settled (o o' : Table OpKey Operation) : Prop where
  isSome : ∀ k, (o'.lookup k).isSome = (o.lookup k).isSome
  charge : ∀ k q, JoinRead.charge o' k q ≤ JoinRead.charge o k q
  running : ∀ k q, JoinRead.running o' k q ≤ JoinRead.running o k q

theorem Settled.refl (o : Table OpKey Operation) : Settled o o :=
  ⟨fun _ => rfl, fun _ _ => le_refl _, fun _ _ => le_refl _⟩

theorem Settled.trans {o o' o'' : Table OpKey Operation} (h : Settled o o')
    (h' : Settled o' o'') : Settled o o'' :=
  ⟨fun k => (h'.isSome k).trans (h.isSome k), fun k q => (h'.charge k q).trans (h.charge k q),
    fun k q => (h'.running k q).trans (h.running k q)⟩

theorem Settled.insert {o : Table OpKey Operation} {k : OpKey} {row row' : Operation}
    (hrow : o.lookup k = some row) (hunknown : row.state = .unknown)
    (hdone : row'.state ≠ .unknown) : Settled o (o.insert k row') := by
  constructor
  · intro k'
    rw [Table.lookup_insert']
    split
    case isTrue hk => rw [hk, hrow]; rfl
    case isFalse => rfl
  · intro k' q
    unfold JoinRead.charge
    rw [Table.lookup_insert']
    split
    case isTrue hk =>
      rw [hk, hrow]
      split
      · simp [hunknown]
      · exact zero_le
    case isFalse => exact le_refl _
  · intro k' q
    unfold JoinRead.running
    rw [Table.lookup_insert']
    split
    case isTrue hk =>
      rw [if_neg (by simpa using hdone)]
      exact zero_le _
    case isFalse => exact le_refl _

/-- What every transaction but an admission does to usage. -/
structure Relaxes (s s' : Store) : Prop where
  records : s'.quotaRecords = s.quotaRecords
  policy : s'.quotaPolicy = s.quotaPolicy
  exposure : s'.accounts.budgets.exposureTotal ≤ s.accounts.budgets.exposureTotal
  operations : s'.accounts.operations = s.accounts.operations ∨
    ∃ k row row', s.accounts.operations.lookup k = some row ∧ row.state = .unknown ∧
      row'.state ≠ .unknown ∧ s'.accounts.operations = s.accounts.operations.insert k row'

namespace Relaxes

variable {s s' : Store}

theorem settled (h : Relaxes s s') : Settled s.accounts.operations s'.accounts.operations := by
  rcases h.operations with heq | ⟨k, row, row', hrow, hunknown, hdone, heq⟩
  · rw [heq]
    exact .refl _
  · rw [heq]
    exact .insert hrow hunknown hdone

/-- An aggregate over the operations in which only unknown ones count. -/
theorem sum_unknown_le {f : OpKey → Operation → ℕ} (h : Relaxes s s')
    (hf : ∀ k o, o.state ≠ .unknown → f k o = 0) :
    Table.sum f s'.accounts.operations ≤ Table.sum f s.accounts.operations := by
  rcases h.operations with heq | ⟨k, row, row', hrow, -, hdone, heq⟩
  · rw [heq]
  · rw [heq, Table.sum_insert_erase, ← Table.sum_erase f hrow, hf k row' hdone, zero_add]
    exact le_add_left _ _

theorem legacyActive_le (h : Relaxes s s') : s'.join.legacyActive ≤ s.join.legacyActive := by
  unfold Store.join JoinRead.legacyActive
  rw [h.records]
  exact h.sum_unknown_le fun _ _ ho => if_neg fun hc => ho hc.2

theorem caps {l : QuotaLimits} (h : Relaxes s s') (hcaps : Caps l s) : Caps l s' := by
  have hs := h.settled
  constructor
  case spend => exact h.exposure.trans hcaps.spend
  case userSpend =>
    intro owner
    refine le_trans ?_ (hcaps.userSpend owner)
    unfold Store.join JoinRead.owned
    rw [h.records]
    refine Table.sum_le_sum fun e _ => ?_
    split
    · exact hs.charge _ _
    · exact le_refl _
  case active => exact (h.sum_unknown_le fun _ _ ho => if_neg ho).trans hcaps.active
  case userActive =>
    intro owner
    refine le_trans ?_ (hcaps.userActive owner)
    unfold Store.join JoinRead.ownedActive
    rw [h.records]
    refine Table.sum_le_sum fun e _ => ?_
    split
    · exact hs.running _ _
    · exact le_refl _
  case rate =>
    unfold Store.admissionTimes
    rw [h.records]
    exact hcaps.rate
  case userRate =>
    unfold Store.admissionTimesOf
    rw [h.records]
    exact hcaps.userRate

theorem recorded (h : Relaxes s s') (hr : Recorded s) : Recorded s' := by
  intro k q hq
  rw [h.records] at hq
  have hold := Option.isSome_iff_ne_none.mpr (hr k q hq)
  exact Option.isSome_iff_ne_none.mp ((h.settled.isSome k).trans hold)

end Relaxes

/-! ### Which transactions relax -/

section Transactions

variable {s s' : Store}

/-- The budget side of a settlement never adds exposure. -/
theorem exposureTotal_settleBudget_le (a : Accounts) (k : OpKey) (token : String)
    (outcome : Outcome) (now : Time) :
    (a.settleBudget k token outcome now).2.exposureTotal ≤ a.budgets.exposureTotal := by
  cases outcome with
  | succeeded => exact Budgets.exposureTotal_insert_of_le (BudgetState.exposure_commit token now).le
  | failed => exact Budgets.exposureTotal_insert_of_le (BudgetState.exposure_release_le token)

variable {token : String} {now : Time}

theorem Relaxes.of_settleOk {k : OpKey} {outcome : Outcome} {amount : Cost} {a' : Accounts}
    {row : Operation} (hrow : s.accounts.operations.lookup k = some row)
    (hunknown : row.state = .unknown) (h : s.accounts.SettleOk k token outcome now amount a') :
    Relaxes s { s with accounts := a' } := by
  obtain ⟨row', hrow', rfl⟩ := h.result
  refine ⟨rfl, rfl, exposureTotal_settleBudget_le _ _ _ _ _,
    .inr ⟨k, row, _, hrow, hunknown, ?_, rfl⟩⟩
  cases outcome <;> simp [Outcome.state]

theorem Relaxes.of_abort {agentId op : String}
    (h : s.abortAdmission agentId (some op) token now = .ok s') : Relaxes s s' := by
  obtain ⟨row, hrow, hunknown, rfl⟩ := Store.abortAdmission_eq_ok h
  exact ⟨rfl, rfl, exposureTotal_settleBudget_le s.accounts (agentId, op) token .failed now,
    .inr ⟨(agentId, op), row, _, hrow, hunknown, by simp, rfl⟩⟩

theorem Relaxes.of_settleOwned {k : OpKey} {outcome : Outcome} {expectedCost : Option Cost}
    (h : s.settleOwned k token outcome expectedCost now = .ok s') : Relaxes s s' := by
  obtain ⟨row, amount, accounts, hrow, hunknown, hok, -, rfl⟩ := Store.settleOwned_eq_ok h
  exact .of_settleOk hrow hunknown hok

theorem Relaxes.of_record {isLinked : OpKey → Bool} {r : Store.Review}
    (h : s.record isLinked r now = .ok s') : Relaxes s s' := by
  obtain ⟨row, accounts, _, hrow, hunknown, hsettled, rfl⟩ := (Store.RecordOk.of_record h).settled
  rcases Store.settleRecorded_eq_ok hsettled with ⟨-, hfinish⟩ | ⟨token, amount, -, hok⟩
  · obtain ⟨row', -, rfl⟩ := Accounts.finish_eq_ok.mp hfinish
    refine ⟨rfl, rfl, le_refl _, .inr ⟨_, row, _, hrow, hunknown, ?_, rfl⟩⟩
    cases r.result <;> simp [Outcome.state]
  · have hr := Relaxes.of_settleOk hrow hunknown hok
    exact ⟨hr.records, hr.policy, hr.exposure, hr.operations⟩

/-- A budget record that owes no more than before. -/
theorem Relaxes.of_touch {t : Tenant} {agentId : String} {b : BudgetState}
    (h : b.exposure ≤ (t.store.accounts.budgets.view agentId).exposure) :
    Relaxes t.store (t.withBudgets (t.store.accounts.budgets.insert agentId b)).store :=
  ⟨rfl, rfl, Budgets.exposureTotal_insert_of_le h, .inl rfl⟩

end Transactions

/-! ### What was read dominates what is true -/

/-- What the holder of the lock has read is no less than what is true now. -/
structure Dominates (h : Holder) (s : Store) : Prop where
  budgets : ∀ b, h.budgets = some b →
    s.accounts.budgets.exposureTotal ≤ Budgets.exposureTotal b
  joined : ∀ j, h.joined = some j →
    j.records = s.quotaRecords ∧ Settled j.operations s.accounts.operations
  legacy : ∀ j, h.legacy = some j → s.join.legacyActive ≤ j.legacyActive

variable {s : Store}

theorem Dominates.relax {h : Holder} {s' : Store} (hd : Dominates h s) (hr : Relaxes s s') :
    Dominates h s' := by
  refine ⟨fun b hb => hr.exposure.trans (hd.budgets b hb), fun j hj => ?_,
    fun j hj => hr.legacyActive_le.trans (hd.legacy j hj)⟩
  obtain ⟨hrecords, hsettled⟩ := hd.joined j hj
  exact ⟨hrecords.trans hr.records.symm, hsettled.trans hr.settled⟩

/-- The same for the three snapshots of a whole usage query. -/
structure ReadsDominate (r : QuotaReads) (s : Store) : Prop where
  budgets : s.accounts.budgets.exposureTotal ≤ r.budgets.exposureTotal
  records : r.joined.records = s.quotaRecords
  settled : Settled r.joined.operations s.accounts.operations
  legacy : s.join.legacyActive ≤ r.legacy.legacyActive

theorem Dominates.reads {h : Holder} {r : QuotaReads} (hd : Dominates h s)
    (hreads : h.reads = .ok r) : ReadsDominate r s := by
  unfold Holder.reads at hreads
  split at hreads
  case h_1 b j l hb hj hl =>
    obtain rfl := Except.ok.inj hreads
    obtain ⟨hrecords, hsettled⟩ := hd.joined j hj
    exact ⟨hd.budgets b hb, hrecords, hsettled, hd.legacy l hl⟩
  case h_2 => cases hreads

namespace ReadsDominate

variable {r : QuotaReads} {s : Store}

theorem owned_le (h : ReadsDominate r s) (owner : String) :
    s.join.owned owner ≤ r.joined.owned owner := by
  unfold JoinRead.owned
  rw [h.records]
  refine Table.sum_le_sum fun e _ => ?_
  split
  · exact h.settled.charge _ _
  · exact le_refl _

theorem active_le (h : ReadsDominate r s) : s.join.active ≤ r.joined.active := by
  unfold JoinRead.active
  rw [h.records]
  exact Table.sum_le_sum fun e _ => h.settled.running _ _

theorem ownedActive_le (h : ReadsDominate r s) (owner : String) :
    s.join.ownedActive owner ≤ r.joined.ownedActive owner := by
  unfold JoinRead.ownedActive
  rw [h.records]
  refine Table.sum_le_sum fun e _ => ?_
  split
  · exact h.settled.running _ _
  · exact le_refl _

/-- A record that has its operation is counted when it is recent. -/
theorem recently_eq (h : ReadsDominate r s) (hr : Recorded s) (since : Time)
    {e : Sigma fun _ : OpKey => QuotaRecord} (he : e ∈ s.quotaRecords.entries) :
    JoinRead.recently r.joined.operations since e.1 e.2 =
      if since < e.2.admitted then 1 else 0 := by
  have hlook : s.quotaRecords.lookup e.1 = some e.2 := AList.mem_lookup_iff.mpr he
  have hsome : (r.joined.operations.lookup e.1).isSome = true := by
    rw [← h.settled.isSome]
    exact Option.isSome_iff_ne_none.mpr (hr _ _ hlook)
  simp [JoinRead.recently, hsome]

theorem recent_eq (h : ReadsDominate r s) (hr : Recorded s) (since : Time) :
    s.admissionTimes.countP (fun x => since < x) = r.joined.recent since := by
  unfold Store.admissionTimes JoinRead.recent
  rw [countP_map, Table.countP_entries, h.records]
  refine Table.sum_congr fun e he => ?_
  rw [h.recently_eq hr since he]
  simp

theorem ownedRecent_eq (h : ReadsDominate r s) (hr : Recorded s) (owner : String)
    (since : Time) :
    (s.admissionTimesOf owner).countP (fun x => since < x) =
      r.joined.ownedRecent owner since := by
  unfold Store.admissionTimesOf JoinRead.ownedRecent
  rw [countP_map, countP_filter, Table.countP_entries, h.records]
  refine Table.sum_congr fun e he => ?_
  rw [h.recently_eq hr since he]
  by_cases ho : e.2.owner = owner <;> simp [ho]

end ReadsDominate

theorem unknownCount_eq (s : Store) :
    s.unknownCount = s.join.active + s.join.legacyActive := by
  have hactive : s.join.active = Table.sum (fun k o =>
      (s.quotaRecords.lookup k).elim 0 fun _ => if o.state = .unknown then 1 else 0)
      s.accounts.operations := by
    rw [← Table.sum_join (fun (_ : OpKey) (_ : QuotaRecord) (o : Operation) =>
      if o.state = .unknown then 1 else 0) s.quotaRecords s.accounts.operations]
    refine Table.sum_congr fun e _ => ?_
    unfold JoinRead.running
    cases h : s.accounts.operations.lookup e.1 with
    | none | some o => simp [Store.join, h]
  rw [hactive]
  unfold Store.unknownCount JoinRead.legacyActive Store.join
  rw [← Table.sum_add]
  refine Table.sum_congr fun e _ => ?_
  cases s.quotaRecords.lookup e.1 <;> simp

/-! ### Admissions -/

/-- What a metered admission adds to the store. -/
structure Admits (l : QuotaLimits) (r : QuotaReads) (s s' : Store) (k : OpKey)
    (q : QuotaRecord) : Prop where
  new : s.accounts.operations.lookup k = none
  unrecorded : s.quotaRecords.lookup k = none
  within : (usage q.owner q.admitted l r).Within l q.cost
  records : s'.quotaRecords = s.quotaRecords.insert k q
  operations : ∃ row, row.state = .unknown ∧
    s'.accounts.operations = s.accounts.operations.insert k row
  exposure : s'.accounts.budgets.exposureTotal ≤ s.accounts.budgets.exposureTotal + q.cost
  policy : s'.quotaPolicy = s.quotaPolicy

theorem Admits.of_admitTransaction {digest : OwnerMaterial → String} {r : AdmissionRequest}
    {i : AdmissionInput} {op : String} {p : Authority.Principal} {l : QuotaLimits} {s' : Store}
    (hop : r.operationId = some op) (hp : r.principal = some p) (hpolicy : s.quotaPolicy = some l)
    (hon : l.enabled = true) (h : s.admitTransaction digest r i = .ok s') :
    ∃ q, Admits l i.quotaReads s s' (r.agentId, op) q := by
  have hok := Store.AdmitOk.of_admitTransaction hop h
  obtain ⟨s₁, hhook, -, hrecords⟩ := hok.hooked
  rcases Store.quotaHook_eq_ok hhook with ⟨hnone, -⟩ | ⟨p', -, hquota⟩
  · rw [hp] at hnone
    cases hnone
  · obtain ⟨owner, limits, -, hlimits, hwithin, rfl⟩ := hquota.admitted
    obtain rfl : limits = l := by simpa [hpolicy, eq_comm] using hlimits
    refine ⟨⟨r.requestScope, owner, r.cost, i.quotaNow⟩, hok.new, hquota.unrecorded, hwithin hon,
      hrecords, ⟨_, rfl, congrArg Accounts.operations hok.accounts⟩, ?_, hok.frame.2.1⟩
    rw [hok.accounts]
    exact Budgets.exposureTotal_insert_le (BudgetState.exposure_reserve_le _ _ _)

namespace Admits

variable {l : QuotaLimits} {r : QuotaReads} {s s' : Store} {k : OpKey} {q : QuotaRecord}

/-- The new operation is charged with its cost; the others as before. -/
theorem charge_eq (h : Admits l r s s' k q) :
    JoinRead.charge s'.accounts.operations k q = q.cost ∧
      ∀ k' q', k' ≠ k → JoinRead.charge s'.accounts.operations k' q' =
        JoinRead.charge s.accounts.operations k' q' := by
  obtain ⟨row, hrow, heq⟩ := h.operations
  constructor
  · simp [JoinRead.charge, heq, hrow]
  · intro k' q' hk'
    simp [JoinRead.charge, heq, hk']

theorem running_eq (h : Admits l r s s' k q) :
    JoinRead.running s'.accounts.operations k q = 1 ∧
      ∀ k' q', k' ≠ k → JoinRead.running s'.accounts.operations k' q' =
        JoinRead.running s.accounts.operations k' q' := by
  obtain ⟨row, hrow, heq⟩ := h.operations
  constructor
  · simp [JoinRead.running, heq, hrow]
  · intro k' q' hk'
    simp [JoinRead.running, heq, hk']

theorem owned_eq (h : Admits l r s s' k q) (owner : String) :
    s'.join.owned owner = (if q.owner = owner then q.cost else 0) + s.join.owned owner := by
  obtain ⟨hnew, hold⟩ := h.charge_eq
  unfold JoinRead.owned Store.join
  rw [h.records, Table.sum_insert_congr q h.unrecorded fun k' q' hk' => by rw [hold k' q' hk'],
    hnew]

theorem ownedActive_eq (h : Admits l r s s' k q) (owner : String) :
    s'.join.ownedActive owner = (if q.owner = owner then 1 else 0) + s.join.ownedActive owner := by
  obtain ⟨hnew, hold⟩ := h.running_eq
  unfold JoinRead.ownedActive Store.join
  rw [h.records, Table.sum_insert_congr q h.unrecorded fun k' q' hk' => by rw [hold k' q' hk'],
    hnew]

theorem unknownCount_eq (h : Admits l r s s' k q) : s'.unknownCount = 1 + s.unknownCount := by
  obtain ⟨row, hrow, heq⟩ := h.operations
  unfold Store.unknownCount
  rw [heq, Table.sum_insert _ h.new, if_pos hrow]

theorem rate (h : Admits l r s s' k q) (hd : ReadsDominate r s) (hr : Recorded s)
    (hcaps : Caps l s) : Windowed (l.windowSeconds : Time) l.rateLimit s'.admissionTimes := by
  have hcount : s.admissionTimes.countP (fun x => q.admitted - l.windowSeconds < x) <
      l.rateLimit := by
    rw [hd.recent_eq hr]
    exact lt_of_le_of_lt (le_add_right _ _) h.within.recent
  have hperm : (s.admissionTimes ++ [q.admitted]).Perm s'.admissionTimes := by
    unfold Store.admissionTimes
    rw [h.records, Table.entries_insert_new q h.unrecorded, map_cons]
    exact perm_append_singleton _ _
  exact (hcaps.rate.append (le_refl _) hcount).perm hperm

theorem userRate (h : Admits l r s s' k q) (hd : ReadsDominate r s) (hr : Recorded s)
    (hcaps : Caps l s) (owner : String) :
    Windowed (l.windowSeconds : Time) l.userRateLimit (s'.admissionTimesOf owner) := by
  by_cases ho : q.owner = owner
  · subst ho
    have hcount : (s.admissionTimesOf q.owner).countP
        (fun x => q.admitted - l.windowSeconds < x) < l.userRateLimit := by
      rw [hd.ownedRecent_eq hr]
      exact lt_of_le_of_lt (le_add_right _ _) h.within.userRecent
    have hperm : (s.admissionTimesOf q.owner ++ [q.admitted]).Perm
        (s'.admissionTimesOf q.owner) := by
      unfold Store.admissionTimesOf
      rw [h.records, Table.entries_insert_new q h.unrecorded,
        filter_cons_of_pos (by simp), map_cons]
      exact perm_append_singleton _ _
    exact ((hcaps.userRate q.owner).append (le_refl _) hcount).perm hperm
  · have heq : s'.admissionTimesOf owner = s.admissionTimesOf owner := by
      unfold Store.admissionTimesOf
      rw [h.records, Table.entries_insert_new q h.unrecorded,
        filter_cons_of_neg (by simpa using ho)]
    rw [heq]
    exact hcaps.userRate owner

/-- **An admission that passed its checks keeps every cap**, whatever was settled since its
usage was read. -/
theorem caps (h : Admits l r s s' k q) (hd : ReadsDominate r s) (hr : Recorded s)
    (hcaps : Caps l s) : Caps l s' := by
  constructor
  case spend =>
    calc s'.accounts.budgets.exposureTotal
        ≤ s.accounts.budgets.exposureTotal + q.cost := h.exposure
      _ ≤ r.budgets.exposureTotal + q.cost := add_le_add_left hd.budgets _
      _ ≤ l.spendLimit := h.within.spend
  case userSpend =>
    intro owner
    rw [h.owned_eq]
    split
    case isTrue ho =>
      calc q.cost + s.join.owned owner
          ≤ q.cost + r.joined.owned owner := add_le_add_right (hd.owned_le owner) _
        _ = r.joined.owned q.owner + q.cost := by rw [add_comm, ho]
        _ ≤ (usage q.owner q.admitted l r).userSpend + q.cost :=
            add_le_add_left le_self_add _
        _ ≤ l.userSpendLimit := h.within.userSpend
    case isFalse =>
      rw [zero_add]
      exact hcaps.userSpend owner
  case active =>
    have hactive : r.joined.active + r.legacy.legacyActive < l.maxActive := h.within.active
    have hle := hd.active_le
    have hlegacy := hd.legacy
    rw [h.unknownCount_eq, Quota.unknownCount_eq]
    omega
  case userActive =>
    intro owner
    rw [h.ownedActive_eq]
    split
    case isTrue ho =>
      have hactive : r.joined.ownedActive q.owner + r.legacy.legacyActive < l.userMaxActive :=
        h.within.userActive
      have hle := hd.ownedActive_le q.owner
      rw [ho] at hactive hle
      omega
    case isFalse =>
      rw [zero_add]
      exact hcaps.userActive owner
  case rate => exact h.rate hd hr hcaps
  case userRate => exact h.userRate hd hr hcaps

theorem recorded (h : Admits l r s s' k q) (hr : Recorded s) : Recorded s' := by
  obtain ⟨row, -, heq⟩ := h.operations
  intro k' q' hq'
  rw [h.records, Table.lookup_insert'] at hq'
  rw [heq, Table.lookup_insert']
  split
  · simp
  case isFalse hk =>
    rw [if_neg hk] at hq'
    exact hr k' q' hq'

end Admits

/-! ### Every interleaving -/

/-- The invariant of the system: the caps, and a lock holder whose reads dominate. -/
structure Enforced (l : QuotaLimits) (t : Tenant) : Prop where
  caps : Caps l t.store
  recorded : Recorded t.store
  policy : t.store.quotaPolicy = some l
  holder : ∀ h, t.holder = some h → Dominates h t.store ∧
    (∃ p, h.request.principal = some p) ∧ ∃ op, h.request.operationId = some op

section Steps

variable {digest : OwnerMaterial → String} {isLinked : OpKey → Bool} {l : QuotaLimits}
  {t t' : Tenant}

theorem Enforced.relax (h : Enforced l t) (hr : Relaxes t.store t'.store)
    (hholder : t'.holder = t.holder) : Enforced l t' := by
  refine ⟨hr.caps h.caps, hr.recorded h.recorded, hr.policy.trans h.policy, fun x hx => ?_⟩
  obtain ⟨hd, hnamed⟩ := h.holder x (hholder ▸ hx)
  exact ⟨hd.relax hr, hnamed⟩

theorem Enforced.read {h h' : Holder} (he : Enforced l t) (hh : t.holder = some h)
    (hrequest : h'.request = h.request) (hd : Dominates h t.store → Dominates h' t.store) :
    Enforced l { t with holder := some h' } := by
  refine ⟨he.caps, he.recorded, he.policy, fun x hx => ?_⟩
  obtain ⟨hdom, hnamed⟩ := he.holder h hh
  obtain rfl : h' = x := Option.some.inj hx
  refine ⟨hd hdom, ?_⟩
  rwa [hrequest]

theorem held_eq_ok {h : Holder} : t.held = .ok h ↔ t.holder = some h := by
  unfold Tenant.held
  cases t.holder <;> simp

theorem unmetered_refused {r : AdmissionRequest} {i : AdmissionInput} {op : String} {s' : Store}
    (h : Enforced l t) (hon : l.enabled = true) (hp : r.principal = none)
    (hop : r.operationId = some op) : t.store.admitTransaction digest r i ≠ .ok s' := by
  intro hadmission
  have hok := Store.AdmitOk.of_admitTransaction hop hadmission
  obtain ⟨s₁, hhook, hguard, -⟩ := hok.hooked
  rcases Store.quotaHook_eq_ok hhook with ⟨-, rfl⟩ | ⟨p, hsome, -⟩
  · simp only [Store.claimGuard, h.policy, Option.all_some, hon, Bool.not_true, Bool.false_or,
      Option.any_eq_true] at hguard
    obtain ⟨q, hq, -⟩ := hguard
    exact h.recorded _ q hq hok.new
  · rw [hp] at hsome
    cases hsome

theorem exec_enforced {act : Action} (h : Enforced l t) (hon : l.enabled = true)
    (hexec : exec digest isLinked t act = .ok t') : Enforced l t' := by
  cases act with
  | acquire request now =>
    simp only [exec, bind_eq_ok, require_eq_ok, pure_eq_ok, Bool.and_eq_true,
      Option.isSome_iff_exists] at hexec
    obtain ⟨-, -, -, hnamed, rfl⟩ := hexec
    refine ⟨h.caps, h.recorded, h.policy, fun x hx => ?_⟩
    obtain rfl := Option.some.inj hx
    exact ⟨⟨fun _ hb => (by cases hb), fun _ hj => (by cases hj), fun _ hj => (by cases hj)⟩,
      hnamed⟩
  | readBudgets =>
    simp only [exec, bind_eq_ok, held_eq_ok, pure_eq_ok] at hexec
    obtain ⟨x, hx, rfl⟩ := hexec
    refine h.read hx rfl fun hd => ⟨fun b hb => ?_, hd.joined, hd.legacy⟩
    rw [← Option.some.inj hb]
  | readJoined =>
    simp only [exec, bind_eq_ok, held_eq_ok, pure_eq_ok] at hexec
    obtain ⟨x, hx, -, -, rfl⟩ := hexec
    refine h.read hx rfl fun hd => ⟨hd.budgets, fun j hj => ?_, hd.legacy⟩
    rw [← Option.some.inj hj]
    exact ⟨rfl, .refl _⟩
  | readLegacy =>
    simp only [exec, bind_eq_ok, held_eq_ok, pure_eq_ok] at hexec
    obtain ⟨x, hx, -, -, rfl⟩ := hexec
    refine h.read hx rfl fun hd => ⟨hd.budgets, hd.joined, fun j hj => ?_⟩
    rw [← Option.some.inj hj]
  | commit input =>
    simp only [exec, bind_eq_ok, held_eq_ok, pure_eq_ok] at hexec
    obtain ⟨x, hx, reads, hreads, s', hadmission, rfl⟩ := hexec
    obtain ⟨hd, ⟨p, hp⟩, op, hop⟩ := h.holder x hx
    obtain ⟨q, hadmits⟩ := Admits.of_admitTransaction hop hp h.policy hon hadmission
    exact ⟨hadmits.caps (hd.reads hreads) h.recorded h.caps, hadmits.recorded h.recorded,
      hadmits.policy.trans h.policy, fun _ hnone => by cases hnone⟩
  | rollback =>
    rw [← Except.ok.inj hexec]
    exact ⟨h.caps, h.recorded, h.policy, fun _ hnone => by cases hnone⟩
  | unmetered request input =>
    simp only [exec, bind_eq_ok, require_eq_ok, pure_eq_ok, Bool.and_eq_true,
      Option.isNone_iff_eq_none, Option.isSome_iff_exists] at hexec
    obtain ⟨-, ⟨hp, op, hop⟩, s', hadmission, rfl⟩ := hexec
    exact absurd hadmission (unmetered_refused h hon hp hop)
  | abort agentId operationId token now =>
    simp only [exec, bind_eq_ok, pure_eq_ok] at hexec
    obtain ⟨s', habort, rfl⟩ := hexec
    exact h.relax (.of_abort habort) rfl
  | settle k token outcome expectedCost now =>
    simp only [exec, bind_eq_ok, pure_eq_ok] at hexec
    obtain ⟨s', hsettle, rfl⟩ := hexec
    exact h.relax (.of_settleOwned hsettle) rfl
  | record review now =>
    simp only [exec, bind_eq_ok, pure_eq_ok] at hexec
    obtain ⟨s', hrecord, rfl⟩ := hexec
    exact h.relax (.of_record hrecord) rfl
  | canAfford agentId cost now =>
    rw [← Except.ok.inj hexec]
    exact h.relax (.of_touch (le_refl _)) rfl
  | setBudget agentId spendLimit rateLimit windowSeconds =>
    simp only [exec, Budgets.setBudget, BudgetState.setLimits, bind_eq_ok,
      pure_eq_ok, require_eq_ok] at hexec
    obtain ⟨_, ⟨-, -, b, ⟨-, -, rfl⟩, rfl⟩, rfl⟩ := hexec
    exact h.relax (.of_touch (le_refl _)) rfl

end Steps

/-- **Aggregate admission quotas are enforced.** Under an enabled policy, from a store within
its caps whose records all have their operation, every cap holds in every reachable state of
any interleaving, each statement of the usage query seeing its own snapshot. -/
theorem quotas_enforced {digest : OwnerMaterial → String} {isLinked : OpKey → Bool}
    {l : QuotaLimits} {s₀ : Store} {t : Tenant}
    (hrun : (system digest isLinked).Reachable ⟨s₀, none⟩ t)
    (hpolicy : s₀.quotaPolicy = some l) (hon : l.enabled = true) (hrecorded : Recorded s₀)
    (hcaps : Caps l s₀) : Caps l t.store := by
  have h₀ : Enforced l ⟨s₀, none⟩ :=
    ⟨hcaps, hrecorded, hpolicy, fun _ hnone => by cases hnone⟩
  exact (hrun.invariant (I := Enforced l) h₀ fun _ _ _ hs hstep =>
    exec_enforced hs hon hstep).caps

/-- A tenant whose policy has room for one admission of cost one. -/
def sampleStore : Store where
  tenantId := some "acme"
  quotaPolicy := some { enabled := true, spendLimit := 1, userSpendLimit := 1 }

def sampleRequest (op : String) : AdmissionRequest where
  agentId := "bot"
  operationId := some op
  capability := "write"
  requestScope := op
  cost := 1
  principal := some { tenantId := some "acme", subject := "bot", issuer := "issuer"
                      kind := .machine, revision := 1, agentId := some "bot" }
  decision := { allowed := true, reason := "allowed" }

/-- Two admissions, one after the other; the first one is settled while the second reads. -/
def sampleActions : List Action :=
  [.acquire (sampleRequest "operation-000001") 10, .readBudgets, .readJoined, .readLegacy,
   .commit { claimedAt := 10, reservedAt := 10, token := "t1" },
   .acquire (sampleRequest "operation-000002") 11, .readBudgets,
   .settle ("bot", "operation-000001") "t1" .succeeded (some 1) 11, .readJoined, .readLegacy,
   .commit { claimedAt := 11, reservedAt := 11, token := "t2" }, .rollback]

/-- The caps on a run in which the second admission is over the spend limit. -/
theorem sample_quotas_enforced :
    Table.size (LTS.drive (exec (fun m => m.subject) fun _ => false) ⟨sampleStore, none⟩
      sampleActions).store.accounts.operations = 1 ∧
    Caps { enabled := true, spendLimit := 1, userSpendLimit := 1 }
      (LTS.drive (exec (fun m => m.subject) fun _ => false) ⟨sampleStore, none⟩
        sampleActions).store := by
  have hcaps : Caps { enabled := true, spendLimit := 1, userSpendLimit := 1 } sampleStore := by
    refine ⟨by decide +kernel, fun _ => zero_le, by decide, fun _ => zero_le _, ?_,
      fun _ => ?_⟩
    · exact .of_length_le (zero_le _)
    · exact .of_length_le (zero_le _)
  exact ⟨by decide +kernel, quotas_enforced (LTS.reachable_drive _ _ sampleActions) rfl rfl
    (fun _ _ hq => by cases hq) hcaps⟩

end Quota

end AgentBridge
