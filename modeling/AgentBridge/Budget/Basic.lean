import AgentBridge.Basic
import AgentBridge.LTS.Basic
import AgentBridge.Table.Sum
import Mathlib.Algebra.Field.Rat
import Mathlib.Algebra.Order.Ring.NNRat

/-!
# Agent budgets

`BudgetManager` keeps one record for each agent: two caps, the spend so far, the times of
recent commits and the outstanding reservations. Every operation is one serialized
read-modify-write of that record. Amounts are exact nonnegative rationals.
-/

namespace AgentBridge

open Table

/-- An amount of money. -/
abbrev Cost := ℚ≥0

/-- A persisted budget record. -/
structure BudgetState where
  spendLimit : Cost
  rateLimit : ℕ
  windowSeconds : ℕ
  spent : Cost
  /-- Times of recent commits. -/
  calls : List Time
  /-- Outstanding reservations by token. -/
  reserved : Table String Cost

/-- Why a cost does not fit. -/
inductive Refusal
  | spendCap (spent reserved cost spendLimit : Cost)
  | rateCap (rateLimit : ℕ)
  deriving DecidableEq

def Refusal.text : Refusal → String
  | .spendCap spent reserved cost spendLimit =>
    "spend cap exceeded (" ++ toString (spent : ℚ) ++ "+" ++ toString (reserved : ℚ) ++ "+" ++
      toString (cost : ℚ) ++ " > " ++ toString (spendLimit : ℚ) ++ ")"
  | .rateCap rateLimit => "rate cap exceeded (>= " ++ toString rateLimit ++ " in window)"

namespace BudgetState

/-- `Budget()`: the record the default factory makes. -/
def initial : BudgetState where
  spendLimit := 100
  rateLimit := 1000
  windowSeconds := 3600
  spent := 0
  calls := []
  reserved := ∅

variable (b : BudgetState)

/-- `_reserved_sum`. -/
def reservedSum : Cost := Table.sum (fun _ c => c) b.reserved

/-- What the agent has spent or may still be charged. -/
def exposure : Cost := b.spent + b.reservedSum

/-- `_prune`: forget the commits that have left the window. -/
def prune (now : Time) : BudgetState :=
  { b with calls := b.calls.filter fun t => decide (now - b.windowSeconds < t) }

/-- The cap check of a pruned record: the first cap the cost would exceed. -/
def refusal (cost : Cost) : Option Refusal :=
  if b.spendLimit < b.spent + b.reservedSum + cost then
    some (.spendCap b.spent b.reservedSum cost b.spendLimit)
  else if b.rateLimit ≤ b.calls.length + Table.size b.reserved then
    some (.rateCap b.rateLimit)
  else none

/-- The mutator of `can_afford`. -/
def canAfford (cost : Cost) (now : Time) : Option Refusal × BudgetState :=
  ((b.prune now).refusal cost, b.prune now)

/-- The mutator of `reserve`, with the fresh token. -/
def reserve (cost : Cost) (now : Time) (token : String) : Option Refusal × BudgetState :=
  match (b.prune now).refusal cost with
  | some why => (some why, b.prune now)
  | none => (none, { b.prune now with reserved := (b.prune now).reserved.insert token cost })

/-- The mutator of `commit`. -/
def commit (token : String) (now : Time) : Bool × BudgetState :=
  match b.reserved.lookup token with
  | none => (false, b)
  | some cost =>
    (true, { b with reserved := b.reserved.erase token, spent := b.spent + cost,
                    calls := b.calls ++ [now] })

/-- The mutator of `release`. -/
def release (token : String) : Bool × BudgetState :=
  match b.reserved.lookup token with
  | none => (false, b)
  | some _ => (true, { b with reserved := b.reserved.erase token })

/-- The mutator of `TenantSession.set_budget`. -/
def setLimits (spendLimit : Cost) (rateLimit windowSeconds : ℕ) : Except Fault BudgetState := do
  require (decide (b.exposure ≤ spendLimit))
    (.valueError "spend limit cannot remove existing spend or outstanding exposure")
  return { b with spendLimit, rateLimit, windowSeconds }

end BudgetState

abbrev Budgets := Table String BudgetState

namespace Budgets

variable (t : Budgets) (agentId : String)

/-- `_seed`: the agent's record, or the default for an agent without one. -/
def view : BudgetState := (t.lookup agentId).getD BudgetState.initial

/-- `mutate_budget`: read, change and write back one record. -/
def mutate {R : Type} (f : BudgetState → R × BudgetState) : R × Budgets :=
  ((f (t.view agentId)).1, t.insert agentId (f (t.view agentId)).2)

/-- `BudgetManager.can_afford`. -/
def canAfford (cost : Cost) (now : Time) : Option Refusal × Budgets :=
  t.mutate agentId fun b => b.canAfford cost now

/-- `BudgetManager.reserve`. -/
def reserve (cost : Cost) (now : Time) (token : String) : Option Refusal × Budgets :=
  t.mutate agentId fun b => b.reserve cost now token

/-- `BudgetManager.commit`. -/
def commit (token : String) (now : Time) : Bool × Budgets :=
  t.mutate agentId fun b => b.commit token now

/-- `BudgetManager.release`. -/
def release (token : String) : Bool × Budgets :=
  t.mutate agentId fun b => b.release token

/-- `TenantSession.set_budget`. -/
def setBudget (spendLimit : Cost) (rateLimit windowSeconds : ℕ) : Except Fault Budgets := do
  require (1 ≤ rateLimit && rateLimit ≤ 1000000 && 1 ≤ windowSeconds &&
      windowSeconds ≤ 31536000) (.valueError "bounded budget rate/window required")
  let b ← (t.view agentId).setLimits spendLimit rateLimit windowSeconds
  return t.insert agentId b

/-- What all agents together have spent or reserved. -/
def exposureTotal : Cost := Table.sum (fun _ b => b.exposure) t

end Budgets

/-! ### One record -/

namespace BudgetState

variable {b b' : BudgetState}

@[simp] theorem exposure_prune (now : Time) : (b.prune now).exposure = b.exposure := rfl

theorem refusal_eq_none {cost : Cost} :
    b.refusal cost = none ↔ b.exposure + cost ≤ b.spendLimit ∧
      b.calls.length + Table.size b.reserved < b.rateLimit := by
  unfold refusal exposure
  split
  case isTrue h => simp [h]
  case isFalse h =>
    split
    case isTrue h' => simp [h']
    case isFalse h' => simp [not_lt.mp h, not_le.mp h']

/-- `commit` moves a reservation into the spend. -/
theorem commit_cases (token : String) (now : Time) :
    (b.reserved.lookup token = none ∧ b.commit token now = (false, b)) ∨
    ∃ cost, b.reserved.lookup token = some cost ∧
      b.commit token now =
        (true, { b with reserved := b.reserved.erase token, spent := b.spent + cost,
                        calls := b.calls ++ [now] }) := by
  unfold commit
  cases h : b.reserved.lookup token with
  | none => exact .inl ⟨rfl, rfl⟩
  | some cost => exact .inr ⟨cost, rfl, rfl⟩

theorem release_cases (token : String) :
    (b.reserved.lookup token = none ∧ b.release token = (false, b)) ∨
    ∃ cost, b.reserved.lookup token = some cost ∧
      b.release token = (true, { b with reserved := b.reserved.erase token }) := by
  unfold release
  cases h : b.reserved.lookup token with
  | none => exact .inl ⟨rfl, rfl⟩
  | some cost => exact .inr ⟨cost, rfl, rfl⟩

/-- `reserve` is refused and only prunes, or adds a reservation that fits both caps. -/
theorem reserve_cases (cost : Cost) (now : Time) (token : String) :
    (∃ why, b.reserve cost now token = (some why, b.prune now)) ∨
    (b.prune now).refusal cost = none ∧ b.reserve cost now token =
      (none, { b.prune now with reserved := b.reserved.insert token cost }) := by
  unfold reserve
  cases h : (b.prune now).refusal cost with
  | none => exact .inr ⟨rfl, rfl⟩
  | some why => exact .inl ⟨why, rfl⟩

/-- A commit changes neither cap nor the exposure. -/
theorem exposure_commit (token : String) (now : Time) :
    (b.commit token now).2.exposure = b.exposure := by
  rcases b.commit_cases token now with ⟨-, h⟩ | ⟨cost, hcost, h⟩
  · rw [h]
  · rw [h]
    simp only [exposure, reservedSum]
    rw [add_assoc, sum_erase (fun _ c => c) hcost]

theorem exposure_release_le (token : String) :
    (b.release token).2.exposure ≤ b.exposure := by
  rcases b.release_cases token with ⟨-, h⟩ | ⟨cost, -, h⟩
  · rw [h]
  · rw [h]
    exact add_le_add_right (sum_erase_le (fun _ _ => zero_le) _ _) _

theorem exposure_reserve_le (cost : Cost) (now : Time) (token : String) :
    (b.reserve cost now token).2.exposure ≤ b.exposure + cost := by
  rcases b.reserve_cases cost now token with ⟨why, h⟩ | ⟨-, h⟩
  · rw [h]
    exact le_self_add
  · rw [h]
    calc b.spent + Table.sum (fun _ c => c) (b.reserved.insert token cost)
        ≤ b.spent + (cost + b.reservedSum) :=
          add_le_add_right (sum_insert_le (fun _ _ => zero_le) _ _ _) _
      _ = b.exposure + cost := by rw [exposure, add_comm cost, add_assoc]

end BudgetState

namespace Budgets

variable {t : Budgets} {agentId : String}

@[simp] theorem view_insert (b : BudgetState) (a : String) :
    view (t.insert agentId b) a = if a = agentId then b else view t a := by
  unfold view
  rw [lookup_insert']
  split <;> rfl

/-- One record, taken out of the total. An agent without a record has spent nothing. -/
theorem exposureTotal_erase (t : Budgets) (agentId : String) :
    t.exposureTotal =
      (t.view agentId).exposure + Table.sum (fun _ b => b.exposure) (t.erase agentId) := by
  unfold exposureTotal view
  cases h : t.lookup agentId with
  | some b => exact (sum_erase _ h).symm
  | none =>
    have hzero : BudgetState.initial.exposure = 0 := by
      simp [BudgetState.exposure, BudgetState.reservedSum, BudgetState.initial]
    rw [erase_of_lookup_none h, Option.getD_none, hzero, zero_add]

/-- A rewritten record changes the total by what it adds to its own exposure. -/
theorem exposureTotal_insert_le {b : BudgetState} {cost : Cost}
    (h : b.exposure ≤ (t.view agentId).exposure + cost) :
    exposureTotal (t.insert agentId b) ≤ t.exposureTotal + cost := by
  rw [t.exposureTotal_erase agentId, add_right_comm]
  unfold exposureTotal
  rw [sum_insert_erase]
  exact add_le_add_left h _

theorem exposureTotal_insert_of_le {b : BudgetState}
    (h : b.exposure ≤ (t.view agentId).exposure) :
    exposureTotal (t.insert agentId b) ≤ t.exposureTotal := by
  rw [← add_zero t.exposureTotal]
  exact exposureTotal_insert_le (by rwa [add_zero])

end Budgets

end AgentBridge
