import AgentBridge.Budget.Basic

/-!
# The operation ledger

An operation is claimed once, under a caller-chosen id, before its effect is attempted. Its
row is never deleted, so a claimed id is used up. The ledger also records which budget
reservation belongs to an operation, and the two are settled together.
-/

namespace AgentBridge

open Except Option

/-- The state of an operation. -/
inductive OpState
  | unknown
  | succeeded
  | failed
  deriving DecidableEq, Repr

/-- The stored text of a state. -/
def OpState.text : OpState → String
  | .unknown => "unknown"
  | .succeeded => "succeeded"
  | .failed => "failed"

/-- A determined result. -/
inductive Outcome
  | succeeded
  | failed
  deriving DecidableEq, Repr

/-- The state an operation is settled to. -/
def Outcome.state : Outcome → OpState
  | .succeeded => .succeeded
  | .failed => .failed

/-- A row of `agent_operations`. -/
structure Operation where
  fingerprint : String
  state : OpState
  updated : Time
  deriving DecidableEq, Repr

/-- The identity of an operation: agent and operation id. -/
abbrev OpKey := String × String

structure Accounts where
  operations : Table OpKey Operation := ∅
  reservations : Table OpKey String := ∅
  budgets : Budgets := ∅

namespace Accounts

variable (a : Accounts) (k : OpKey)

/-- `lock_unknown_operation`. -/
def lockUnknown : Except Fault Operation :=
  match a.operations.lookup k with
  | some row =>
    if row.state = .unknown then .ok row
    else .error (.operationConflict
      "operation missing or already settled; inspect its durable outcome")
  | none => .error (.operationConflict
      "operation missing or already settled; inspect its durable outcome")

/-- `OperationLedger.finish`. -/
def finish (state : OpState) (now : Time) : Except Fault Accounts :=
  match a.operations.lookup k with
  | none => .error (.operationConflict "operation missing")
  | some row =>
    .ok { a with operations := a.operations.insert k { row with state, updated := now } }

/-- A bounded, nonempty text argument. -/
def isBounded (text : String) : Bool := 1 ≤ text.length && text.length ≤ 256

/-- `OperationLedger.attach_reservation`. -/
def attachReservation (token : String) : Except Fault Accounts := do
  require (isBounded k.1 && isBounded k.2 && isBounded token)
    (.valueError "invalid reservation binding")
  require ((a.operations.lookup k).any fun row => row.state == .unknown)
    (.operationConflict "reservation requires an unresolved owned operation")
  require (a.reservations.lookup k).isNone
    (.operationConflict "operation already has a reservation binding")
  require ((a.budgets.lookup k.1).any fun b => (b.reserved.lookup token).isSome)
    (.operationConflict "reservation is not pending for this agent")
  require (!a.reservations.entries.any fun e => e.1.1 == k.1 && e.2 == token)
    (.operationConflict "reservation is already attached to an operation")
  return { a with reservations := a.reservations.insert k token }

/-- The budget side of a settlement: charge the reservation, or give it back. -/
def settleBudget (token : String) (outcome : Outcome) (now : Time) : Bool × Budgets :=
  match outcome with
  | .succeeded => a.budgets.commit k.1 token now
  | .failed => a.budgets.release k.1 token

/-- `settle_owned_reservation`: settle the locked operation and exactly its own token. The
amount settled is returned. -/
def settleOwnedReservation (token : String) (outcome : Outcome) (expectedCost : Option Cost)
    (now : Time) : Except Fault (Cost × Accounts) := do
  require (a.reservations.lookup k == some token)
    (.operationConflict "exact owned operation reservation required")
  match (a.budgets.lookup k.1).bind fun b => b.reserved.lookup token with
  | none => throw (.operationConflict "budget reservation missing; reconcile outcome")
  | some amount =>
    require (expectedCost.all (· == amount))
      (.operationConflict "owned reservation amount does not match admission")
    require (a.settleBudget k token outcome now).1
      (.operationConflict "budget reservation missing; reconcile outcome")
    let settled ← finish { a with budgets := (a.settleBudget k token outcome now).2 } k
      outcome.state now
    return (amount, settled)

end Accounts

/-! ### What the statements establish -/

namespace Accounts

variable {a a' : Accounts} {k : OpKey}

theorem lockUnknown_eq_ok {row : Operation} :
    a.lockUnknown k = .ok row ↔ a.operations.lookup k = some row ∧ row.state = .unknown := by
  unfold lockUnknown
  cases h : a.operations.lookup k with
  | none => simp
  | some r =>
    by_cases hr : r.state = .unknown
    · simp only [hr, if_true, Except.ok.injEq, Option.some.injEq]
      exact ⟨by rintro rfl; exact ⟨rfl, hr⟩, fun h => h.1⟩
    · simp only [hr, if_false, Option.some.injEq, reduceCtorEq, false_iff, not_and]
      rintro rfl
      exact hr

theorem finish_eq_ok {state : OpState} {now : Time} :
    a.finish k state now = .ok a' ↔ ∃ row, a.operations.lookup k = some row ∧
      a' = { a with operations := a.operations.insert k { row with state, updated := now } } := by
  unfold finish
  cases h : a.operations.lookup k with
  | none => simp
  | some row => simp [eq_comm]

/-- What a successful attachment found. -/
structure AttachOk (a : Accounts) (k : OpKey) (token : String) (a' : Accounts) : Prop where
  unknown : ∃ row, a.operations.lookup k = some row ∧ row.state = .unknown
  unattached : a.reservations.lookup k = none
  pending : ∃ b cost, a.budgets.lookup k.1 = some b ∧ b.reserved.lookup token = some cost
  unused : ∀ k', k'.1 = k.1 → a.reservations.lookup k' ≠ some token
  result : a' = { a with reservations := a.reservations.insert k token }

theorem AttachOk.of_attachReservation {token : String}
    (h : a.attachReservation k token = .ok a') : AttachOk a k token a' := by
  simp only [attachReservation, bind_eq_ok, pure_eq_ok, require_eq_ok,
    any_eq_true, beq_iff_eq, isNone_iff_eq_none, isSome_iff_exists,
    Bool.not_eq_true', List.any_eq_false, Bool.and_eq_true, not_and] at h
  obtain ⟨-, -, -, hop, -, hnone, -, ⟨b, hb, cost, hcost⟩, -, hunused, rfl⟩ := h
  refine ⟨hop, hnone, ⟨b, cost, hb, hcost⟩, fun k' hk' hlook => ?_, rfl⟩
  exact hunused ⟨k', token⟩ (AList.mem_lookup_iff.mp hlook) hk' rfl

/-- What a successful settlement found and did. -/
structure SettleOk (a : Accounts) (k : OpKey) (token : String) (outcome : Outcome)
    (now : Time) (amount : Cost) (a' : Accounts) : Prop where
  owned : a.reservations.lookup k = some token
  pending : ∃ b, a.budgets.lookup k.1 = some b ∧ b.reserved.lookup token = some amount
  result : ∃ row, a.operations.lookup k = some row ∧
    a' = { operations := a.operations.insert k { row with state := outcome.state, updated := now }
           reservations := a.reservations
           budgets := (a.settleBudget k token outcome now).2 }

theorem SettleOk.of_settle {token : String} {outcome : Outcome} {expectedCost : Option Cost}
    {now : Time} {amount : Cost}
    (h : a.settleOwnedReservation k token outcome expectedCost now = .ok (amount, a')) :
    SettleOk a k token outcome now amount a' ∧ ∀ c, expectedCost = some c → c = amount := by
  simp only [settleOwnedReservation, bind_eq_ok, require_eq_ok, beq_iff_eq] at h
  obtain ⟨-, howned, h⟩ := h
  split at h
  case h_1 => simp at h
  case h_2 amount' hpending =>
    simp only [bind_eq_ok, require_eq_ok, pure_eq_ok, Prod.mk.injEq,
      finish_eq_ok] at h
    obtain ⟨-, hexpected, -, -, _, ⟨row, hrow, rfl⟩, rfl, rfl⟩ := h
    refine ⟨⟨howned, bind_eq_some_iff.mp hpending, row, hrow, rfl⟩, ?_⟩
    rintro c rfl
    simpa using hexpected

end Accounts

end AgentBridge
