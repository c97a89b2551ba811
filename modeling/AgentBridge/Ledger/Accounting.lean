import AgentBridge.Ledger.Basic

/-!
# The accounting law

What the ledger and the budgets are for, said once: an abstract machine that admits an
operation with a fresh reservation and settles it later. Every concrete way to admit or
settle is shown to be one of its steps, so each of them keeps the law below.

* `Audited.Step.law` : **every accounting step keeps the law**.
-/

namespace AgentBridge

open Table

/-- The accounts, and the cost at which each operation was admitted. -/
structure Audited where
  accounts : Accounts
  admitted : Table OpKey Cost := ∅

/-- The token is attached to no operation and pending in no budget. -/
structure Accounts.FreshToken (a : Accounts) (token : String) : Prop where
  unattached : ∀ k, a.reservations.lookup k ≠ some token
  absent : ∀ agentId, (a.budgets.view agentId).reserved.lookup token = none

/-- The steps of the abstract machine. -/
inductive Audited.Step : Audited → Audited → Prop
  /-- A new operation is claimed together with its reservation. -/
  | admission {a : Accounts} {admitted : Table OpKey Cost} {k : OpKey} {row : Operation}
      {token : String} {cost : Cost} {now : Time} (hnew : a.operations.lookup k = none)
      (hstate : row.state = .unknown) (hfresh : a.FreshToken token)
      (hfits : (a.budgets.reserve k.1 cost now token).1 = none) :
      Step ⟨a, admitted⟩
        ⟨{ operations := a.operations.insert k row
           reservations := a.reservations.insert k token
           budgets := (a.budgets.reserve k.1 cost now token).2 }, admitted.insert k cost⟩
  /-- An unknown operation is settled with its own reservation. -/
  | settle {a a' : Accounts} {admitted : Table OpKey Cost} {k : OpKey} {row : Operation}
      {token : String} {outcome : Outcome} {now : Time} {amount : Cost}
      (hrow : a.operations.lookup k = some row) (hstate : row.state = .unknown)
      (hsettle : a.SettleOk k token outcome now amount a') :
      Step ⟨a, admitted⟩ ⟨a', admitted⟩
  /-- A budget record changes, its spend and its reservations apart. -/
  | touch {a : Accounts} {admitted : Table OpKey Cost} {agentId : String} {b : BudgetState}
      (hspent : b.spent = (a.budgets.view agentId).spent)
      (hreserved : b.reserved = (a.budgets.view agentId).reserved) :
      Step ⟨a, admitted⟩ ⟨{ a with budgets := a.budgets.insert agentId b }, admitted⟩

/-- The admitted cost of the agent's succeeded operations. -/
def succeededCost (admitted : Table OpKey Cost) (agentId : String) (k : OpKey)
    (row : Operation) : Cost :=
  if k.1 = agentId ∧ row.state = .succeeded then (admitted.lookup k).getD 0 else 0

/-- **The accounting law**: ledger and budgets are linked, and the spend adds up. -/
structure AccountsLaw (initial : String → Cost) (s : Audited) : Prop where
  /-- Every operation has a reservation row. -/
  attached : ∀ k row, s.accounts.operations.lookup k = some row →
    ∃ token, s.accounts.reservations.lookup k = some token
  /-- Every reservation row belongs to an operation. -/
  claimed : ∀ k token, s.accounts.reservations.lookup k = some token →
    ∃ row, s.accounts.operations.lookup k = some row
  /-- The token of an unknown operation is pending with the admitted cost. -/
  unknown_pending : ∀ k row token, s.accounts.operations.lookup k = some row →
    row.state = .unknown → s.accounts.reservations.lookup k = some token →
    ∃ cost, (s.accounts.budgets.view k.1).reserved.lookup token = some cost ∧
      s.admitted.lookup k = some cost
  /-- The token of a settled operation is not pending. -/
  settled_released : ∀ k row token, s.accounts.operations.lookup k = some row →
    row.state ≠ .unknown → s.accounts.reservations.lookup k = some token →
    (s.accounts.budgets.view k.1).reserved.lookup token = none
  /-- No token belongs to two operations. -/
  token_unique : ∀ k k' token, s.accounts.reservations.lookup k = some token →
    s.accounts.reservations.lookup k' = some token → k = k'
  /-- Every pending token belongs to an unknown operation of the agent. -/
  pending_unknown : ∀ agentId token cost,
    (s.accounts.budgets.view agentId).reserved.lookup token = some cost →
    ∃ operationId row, s.accounts.reservations.lookup (agentId, operationId) = some token ∧
      s.accounts.operations.lookup (agentId, operationId) = some row ∧ row.state = .unknown
  /-- The agent has spent what its succeeded operations were admitted at. -/
  spent_eq : ∀ agentId, (s.accounts.budgets.view agentId).spent =
    initial agentId + Table.sum (succeededCost s.admitted agentId) s.accounts.operations

/-! ### Effects on one record -/

namespace Budgets

variable {t : Budgets} {agentId : String}

theorem view_reserve {cost : Cost} {now : Time} {token : String}
    (h : (t.reserve agentId cost now token).1 = none) (a : String) :
    (t.reserve agentId cost now token).2.view a =
      if a = agentId then
        { (t.view agentId).prune now with reserved := (t.view agentId).reserved.insert token cost }
      else t.view a := by
  simp only [reserve, mutate, view_insert] at h ⊢
  rcases (t.view agentId).reserve_cases cost now token with ⟨why, hc⟩ | ⟨-, hc⟩
  · rw [hc] at h
    cases h
  · rw [hc]

end Budgets

namespace Accounts

variable {a : Accounts} {k : OpKey} {token : String} {now : Time} {amount : Cost}

variable {outcome : Outcome}

theorem view_settleBudget (h : (a.budgets.view k.1).reserved.lookup token = some amount)
    (agentId : String) :
    (a.settleBudget k token outcome now).2.view agentId =
      if agentId = k.1 then
        match outcome with
        | .succeeded =>
          { a.budgets.view k.1 with
            reserved := (a.budgets.view k.1).reserved.erase token
            spent := (a.budgets.view k.1).spent + amount
            calls := (a.budgets.view k.1).calls ++ [now] }
        | .failed =>
          { a.budgets.view k.1 with reserved := (a.budgets.view k.1).reserved.erase token }
      else a.budgets.view agentId := by
  cases outcome with
  | succeeded =>
    simp only [settleBudget, Budgets.commit, Budgets.mutate, Budgets.view_insert,
      BudgetState.commit, h]
  | failed =>
    simp only [settleBudget, Budgets.release, Budgets.mutate, Budgets.view_insert,
      BudgetState.release, h]

theorem reserved_settleBudget (h : (a.budgets.view k.1).reserved.lookup token = some amount)
    (agentId token' : String) :
    ((a.settleBudget k token outcome now).2.view agentId).reserved.lookup token' =
      if agentId = k.1 ∧ token' = token then none
      else (a.budgets.view agentId).reserved.lookup token' := by
  rw [view_settleBudget h]
  by_cases hk : agentId = k.1
  · subst hk
    cases outcome <;> simp [lookup_erase']
  · simp [hk]

theorem spent_settleBudget (h : (a.budgets.view k.1).reserved.lookup token = some amount)
    (agentId : String) :
    ((a.settleBudget k token outcome now).2.view agentId).spent =
      if agentId = k.1 ∧ outcome = .succeeded then (a.budgets.view agentId).spent + amount
      else (a.budgets.view agentId).spent := by
  rw [view_settleBudget h]
  by_cases hk : agentId = k.1
  · subst hk
    cases outcome <;> simp
  · simp [hk]

theorem SettleOk.view_pending {a' : Accounts} (h : a.SettleOk k token outcome now amount a') :
    (a.budgets.view k.1).reserved.lookup token = some amount := by
  obtain ⟨b, hb, hp⟩ := h.pending
  simpa [Budgets.view, hb] using hp

end Accounts

/-! ### Every step keeps the law -/

namespace AccountsLaw

variable {initial : String → Cost} {a a' : Accounts} {admitted : Table OpKey Cost}
  {k : OpKey} {row : Operation} {token : String} {now : Time} {cost : Cost}

theorem admission (h : AccountsLaw initial ⟨a, admitted⟩) (hnew : a.operations.lookup k = none)
    (hstate : row.state = .unknown) (hfresh : a.FreshToken token)
    (hfits : (a.budgets.reserve k.1 cost now token).1 = none) :
    AccountsLaw initial
      ⟨{ operations := a.operations.insert k row
         reservations := a.reservations.insert k token
         budgets := (a.budgets.reserve k.1 cost now token).2 }, admitted.insert k cost⟩ := by
  have hreserved : ∀ agentId token',
      ((a.budgets.reserve k.1 cost now token).2.view agentId).reserved.lookup token' =
        if agentId = k.1 ∧ token' = token then some cost
        else (a.budgets.view agentId).reserved.lookup token' := by
    intro agentId token'
    rw [Budgets.view_reserve hfits]
    by_cases hk : agentId = k.1
    · subst hk
      simp [lookup_insert']
    · simp [hk]
  have hspent : ∀ agentId, ((a.budgets.reserve k.1 cost now token).2.view agentId).spent =
      (a.budgets.view agentId).spent := by
    intro agentId
    rw [Budgets.view_reserve hfits]
    by_cases hk : agentId = k.1
    · subst hk
      simp [BudgetState.prune]
    · simp [hk]
  have hne : ∀ k' r, a.operations.lookup k' = some r → k' ≠ k := by
    rintro k' r hr rfl
    simp [hnew] at hr
  have hunres : ∀ k' t, a.reservations.lookup k' = some t → k' ≠ k ∧ t ≠ token := by
    intro k' t ht
    obtain ⟨r, hr⟩ := h.claimed k' t ht
    refine ⟨hne k' r hr, ?_⟩
    rintro rfl
    exact hfresh.unattached k' ht
  constructor
  case attached =>
    intro k' r hr
    simp only [lookup_insert'] at hr ⊢
    by_cases hk : k' = k
    · exact ⟨token, by simp [hk]⟩
    · simpa [hk] using h.attached k' r (by simpa [hk] using hr)
  case claimed =>
    intro k' t ht
    simp only [lookup_insert'] at ht ⊢
    by_cases hk : k' = k
    · exact ⟨row, by simp [hk]⟩
    · simpa [hk] using h.claimed k' t (by simpa [hk] using ht)
  case unknown_pending =>
    intro k' r t hr hu ht
    simp only [lookup_insert', hreserved] at hr ht ⊢
    by_cases hk : k' = k
    · subst hk
      obtain rfl : token = t := by simpa using ht
      exact ⟨cost, by simp⟩
    · rw [if_neg hk] at hr ht
      simpa [hk, (hunres k' t ht).2] using h.unknown_pending k' r t hr hu ht
  case settled_released =>
    intro k' r t hr hu ht
    simp only [lookup_insert', hreserved] at hr ht ⊢
    by_cases hk : k' = k
    · subst hk
      obtain rfl : row = r := by simpa using hr
      exact absurd hstate hu
    · rw [if_neg hk] at hr ht
      simpa [(hunres k' t ht).2] using h.settled_released k' r t hr hu ht
  case token_unique =>
    intro k₁ k₂ t h₁ h₂
    simp only [lookup_insert'] at h₁ h₂
    by_cases hk₁ : k₁ = k <;> by_cases hk₂ : k₂ = k
    · rw [hk₁, hk₂]
    · rw [if_pos hk₁, Option.some.injEq] at h₁
      rw [if_neg hk₂] at h₂
      exact absurd h₁.symm (hunres k₂ t h₂).2
    · rw [if_neg hk₁] at h₁
      rw [if_pos hk₂, Option.some.injEq] at h₂
      exact absurd h₂.symm (hunres k₁ t h₁).2
    · rw [if_neg hk₁] at h₁
      rw [if_neg hk₂] at h₂
      exact h.token_unique k₁ k₂ t h₁ h₂
  case pending_unknown =>
    intro agentId t c hc
    simp only [hreserved] at hc
    by_cases hat : agentId = k.1 ∧ t = token
    · obtain ⟨rfl, rfl⟩ := hat
      exact ⟨k.2, row, by simp, by simp, hstate⟩
    · rw [if_neg hat] at hc
      obtain ⟨op, r, ht, hr, hu⟩ := h.pending_unknown agentId t c hc
      have hk := hne _ r hr
      exact ⟨op, r, by simp [hk, ht],
        by simp [hk, hr], hu⟩
  case spent_eq =>
    intro agentId
    have hsum : Table.sum (succeededCost (admitted.insert k cost) agentId) a.operations =
        Table.sum (succeededCost admitted agentId) a.operations := by
      refine sum_congr fun e he => ?_
      have hk : e.1 ≠ k := hne e.1 e.2 (AList.mem_lookup_iff.mpr he)
      simp [succeededCost, hk]
    have hzero : succeededCost (admitted.insert k cost) agentId k row = 0 := by
      simp [succeededCost, hstate]
    simp only [hspent, sum_insert _ hnew, hsum, hzero, zero_add]
    exact h.spent_eq agentId

theorem settle {outcome : Outcome} {amount : Cost} (h : AccountsLaw initial ⟨a, admitted⟩)
    (hrow : a.operations.lookup k = some row) (hstate : row.state = .unknown)
    (hsettle : a.SettleOk k token outcome now amount a') :
    AccountsLaw initial ⟨a', admitted⟩ := by
  have hpend := hsettle.view_pending
  have howned := hsettle.owned
  obtain ⟨row', hrow', rfl⟩ := hsettle.result
  obtain rfl : row = row' := by simpa [hrow] using hrow'
  have hout : outcome.state ≠ .unknown := by cases outcome <;> simp [Outcome.state]
  have hamount : admitted.lookup k = some amount := by
    obtain ⟨c, hc, hadm⟩ := h.unknown_pending k row token hrow hstate howned
    rw [hpend, Option.some.injEq] at hc
    rw [hc]
    exact hadm
  constructor
  case attached =>
    intro k' r hr
    simp only [lookup_insert'] at hr
    by_cases hk : k' = k
    · exact ⟨token, by rw [hk]; exact howned⟩
    · exact h.attached k' r (by simpa [hk] using hr)
  case claimed =>
    intro k' t ht
    obtain ⟨r, hr⟩ := h.claimed k' t ht
    simp only [lookup_insert']
    by_cases hk : k' = k <;> simp [hk, hr]
  case unknown_pending =>
    intro k' r t hr hu ht
    simp only [lookup_insert', Accounts.reserved_settleBudget hpend] at hr ⊢
    by_cases hk : k' = k
    · obtain rfl : _ = r := by simpa [hk] using hr
      exact absurd hu hout
    · rw [if_neg hk] at hr
      have hne : t ≠ token := fun heq => hk (h.token_unique k' k t ht (heq ▸ howned))
      simpa [hne] using h.unknown_pending k' r t hr hu ht
  case settled_released =>
    intro k' r t hr hu ht
    simp only [lookup_insert', Accounts.reserved_settleBudget hpend] at hr ⊢
    by_cases hk : k' = k
    · subst hk
      obtain rfl : token = t := by simpa [howned] using ht
      simp
    · rw [if_neg hk] at hr
      rw [h.settled_released k' r t hr hu ht, ite_self]
  case token_unique => exact h.token_unique
  case pending_unknown =>
    intro agentId t c hc
    simp only [Accounts.reserved_settleBudget hpend] at hc
    split at hc
    case isTrue => cases hc
    case isFalse hat =>
      obtain ⟨op, r, ht, hr, hu⟩ := h.pending_unknown agentId t c hc
      refine ⟨op, r, ht, ?_, hu⟩
      have hk : (agentId, op) ≠ k := by
        rintro rfl
        exact hat ⟨rfl, by simpa [howned, eq_comm] using ht⟩
      simp [hk, hr]
  case spent_eq =>
    intro agentId
    have hspent := h.spent_eq agentId
    have hold : succeededCost admitted agentId k row = 0 := by simp [succeededCost, hstate]
    rw [← sum_erase _ hrow, hold, zero_add] at hspent
    simp only [Accounts.spent_settleBudget hpend, sum_insert_erase, hspent]
    by_cases hs : agentId = k.1 ∧ outcome = .succeeded
    · obtain ⟨rfl, rfl⟩ := hs
      have hnew : succeededCost admitted k.1 k
          { row with state := Outcome.succeeded.state, updated := now } = amount := by
        simp [succeededCost, Outcome.state, hamount]
      rw [hnew, if_pos ⟨rfl, rfl⟩, add_assoc, add_comm amount]
    · have hnew : succeededCost admitted agentId k
          { row with state := outcome.state, updated := now } = 0 := by
        unfold succeededCost
        rw [if_neg]
        rintro ⟨rfl, hst⟩
        exact hs ⟨rfl, by cases outcome <;> simp_all [Outcome.state]⟩
      rw [hnew, if_neg hs, zero_add]

theorem touch {agentId : String} {b : BudgetState} (h : AccountsLaw initial ⟨a, admitted⟩)
    (hspent : b.spent = (a.budgets.view agentId).spent)
    (hreserved : b.reserved = (a.budgets.view agentId).reserved) :
    AccountsLaw initial ⟨{ a with budgets := a.budgets.insert agentId b }, admitted⟩ := by
  have hviewReserved : ∀ x, (Budgets.view (a.budgets.insert agentId b) x).reserved =
      (a.budgets.view x).reserved := by
    intro x
    rw [Budgets.view_insert]
    split
    case isTrue hx => rw [hx, hreserved]
    case isFalse => rfl
  have hviewSpent : ∀ x, (Budgets.view (a.budgets.insert agentId b) x).spent =
      (a.budgets.view x).spent := by
    intro x
    rw [Budgets.view_insert]
    split
    case isTrue hx => rw [hx, hspent]
    case isFalse => rfl
  refine ⟨h.attached, h.claimed, ?_, ?_, h.token_unique, ?_, ?_⟩
  · simpa only [hviewReserved] using h.unknown_pending
  · simpa only [hviewReserved] using h.settled_released
  · simpa only [hviewReserved] using h.pending_unknown
  · simpa only [hviewSpent] using h.spent_eq

end AccountsLaw

/-- **Every accounting step keeps the law.** -/
theorem Audited.Step.law {initial : String → Cost} {s s' : Audited} (hstep : Step s s')
    (h : AccountsLaw initial s) : AccountsLaw initial s' := by
  cases hstep with
  | admission hnew hstate hfresh hfits => exact h.admission hnew hstate hfresh hfits
  | settle hrow hstate hsettle => exact h.settle hrow hstate hsettle
  | touch hspent hreserved => exact h.touch hspent hreserved

/-- The law holds at the start: no operations, and no reservation is pending. -/
theorem AccountsLaw.start {budgets : Budgets}
    (h : ∀ agentId token, (budgets.view agentId).reserved.lookup token = none) :
    AccountsLaw (fun agentId => (budgets.view agentId).spent) ⟨{ budgets }, ∅⟩ := by
  constructor
  case spent_eq => simp
  all_goals simp [h]

/-! ### Outcomes -/

/-- An operation keeps its fingerprint, its token and its cost, and a settled one its whole row. -/
def Audited.Keeps (s s' : Audited) : Prop :=
  ∀ k row, s.accounts.operations.lookup k = some row →
    (∃ row', s'.accounts.operations.lookup k = some row' ∧ row'.fingerprint = row.fingerprint ∧
      (row.state ≠ .unknown → row' = row)) ∧
    s'.accounts.reservations.lookup k = s.accounts.reservations.lookup k ∧
    s'.admitted.lookup k = s.admitted.lookup k

namespace Audited

theorem Keeps.refl (s : Audited) : s.Keeps s :=
  fun _ row hrow => ⟨⟨row, hrow, rfl, fun _ => rfl⟩, rfl, rfl⟩

theorem Keeps.trans {s₁ s₂ s₃ : Audited} (h : s₁.Keeps s₂) (h' : s₂.Keeps s₃) : s₁.Keeps s₃ := by
  intro k row hrow
  obtain ⟨⟨row₂, hrow₂, hprint₂, hfinal₂⟩, htoken₂, hcost₂⟩ := h k row hrow
  obtain ⟨⟨row₃, hrow₃, hprint₃, hfinal₃⟩, htoken₃, hcost₃⟩ := h' k row₂ hrow₂
  refine ⟨⟨row₃, hrow₃, hprint₃.trans hprint₂, fun hsettled => ?_⟩, htoken₃.trans htoken₂,
    hcost₃.trans hcost₂⟩
  obtain rfl := hfinal₂ hsettled
  exact hfinal₃ hsettled

theorem Step.keeps {s s' : Audited} (h : s.Step s') : s.Keeps s' := by
  intro k row hrow
  cases h with
  | @admission a admitted k' _ _ _ _ hnew =>
    have hk : k ≠ k' := by
      rintro rfl
      rw [hnew] at hrow
      cases hrow
    simp only [lookup_insert', if_neg hk]
    exact ⟨⟨row, hrow, rfl, fun _ => rfl⟩, trivial, trivial⟩
  | @settle a a' admitted k' row' _ _ _ _ hrow' hunknown hsettle =>
    obtain ⟨row₀, hrow₀, rfl⟩ := hsettle.result
    refine ⟨?_, rfl, rfl⟩
    by_cases hk : k = k'
    · subst hk
      obtain rfl := Option.some.inj (hrow.symm.trans hrow')
      obtain rfl := Option.some.inj (hrow.symm.trans hrow₀)
      exact ⟨_, AList.lookup_insert _, rfl, fun hsettled => absurd hunknown hsettled⟩
    · exact ⟨row, (lookup_insert' _ _ _ _).trans ((if_neg hk).trans hrow), rfl, fun _ => rfl⟩
  | touch => exact Keeps.refl ⟨_, _⟩ k row hrow

end Audited

end AgentBridge
