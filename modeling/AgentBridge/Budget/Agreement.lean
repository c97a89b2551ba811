import AgentBridge.Budget.Basic
import AgentBridge.Table.Relabel
import AgentBridge.Window.Basic
import Mathlib.Data.NNRat.BigOperators

/-!
# The two budgets

The in-memory `Budget` keeps the times of recent calls in a deque and drops expired times from its
left end. `BudgetManager` keeps a record in the store, filters the times, and writes the record
back after every operation. Both draw their own tokens.

The two agree step by step as long as the deque is ascending (`implementations_agree`). The class
says that its times are "sorted by insertion", but its constructor takes any list: in `[100, 0]`
the expired second time is hidden behind the first one, and only the filter finds it
(`unsorted_calls`).

Amounts are exact rationals. What a store does to a record is a `Codec`: the round trip is all
that matters. Records and limits here may be negative, unlike in `Budget.Basic`, whose records are
the ones with nonnegative amounts (`embed_reserve` and the lemmas beside it).

* `implementations_agree` : **equal answers, spend, reservations and call counts along every run**.
-/

namespace AgentBridge.Agreement

open List Table

/-! ### Operations -/

/-- Why a cost does not fit. -/
inductive Exceeded
  | spendCap (spent reserved cost spendLimit : ℚ)
  | rateCap (rateLimit : ℤ)
  deriving DecidableEq

/-- An operation. A reservation comes with the token that it will draw. -/
inductive Op (T : Type)
  | canAfford (cost : ℚ) (now : Time)
  | reserve (cost : ℚ) (now : Time) (token : T)
  | commit (token : T) (now : Time)
  | release (token : T)

/-- The answer of an operation. -/
inductive Answer (T : Type)
  | afford (why : Option Exceeded)
  | refused (why : Exceeded)
  | reserved (token : T)
  | flag (ok : Bool)
  deriving DecidableEq

def Op.map {T U : Type} (f : T → U) : Op T → Op U
  | .canAfford cost now => .canAfford cost now
  | .reserve cost now token => .reserve cost now (f token)
  | .commit token now => .commit (f token) now
  | .release token => .release (f token)

def Answer.map {T U : Type} (f : T → U) : Answer T → Answer U
  | .afford why => .afford why
  | .refused why => .refused why
  | .reserved token => .reserved (f token)
  | .flag ok => .flag ok

def Op.now? {T : Type} : Op T → Option Time
  | .canAfford _ now => some now
  | .reserve _ now _ => some now
  | .commit _ now => some now
  | .release _ => none

/-- The clock values of a run. -/
def times {T : Type} (ops : List (Op T)) : List Time := ops.filterMap Op.now?

/-- What is compared after an operation. -/
structure Summary where
  spent : ℚ
  reserved : ℚ
  calls : ℕ
  deriving DecidableEq

/-- `_checked_cost`. -/
def checkedCost (cost : ℚ) : Except Fault ℚ := do
  require (0 ≤ cost) (.valueError "cost must be a finite, nonnegative number")
  return cost

/-- A call that raises leaves everything as it was. -/
def settle {A S : Type} (s : S) : Except Fault (A × S) → Except Fault A × S
  | .ok (a, s') => (.ok a, s')
  | .error e => (.error e, s)

/-- The answer without the token. -/
def forget {T S : Type} (r : Except Fault (Answer T) × S) : Except Fault (Answer Unit) × S :=
  (r.1.map (Answer.map fun _ => ()), r.2)

/-! ### The class -/

/-- `Budget`. -/
structure Budget (T : Type) where
  spendLimit : ℚ
  rateLimit : ℤ
  windowSeconds : ℚ
  spent : ℚ
  /-- The deque of recent calls, leftmost first. -/
  calls : List Time
  reserved : Table T ℚ

namespace Budget

variable {T : Type} (b : Budget T)

/-- `_prune`: pop expired calls from the left. -/
def prune (now : Time) : Budget T :=
  { b with calls := b.calls.dropWhile fun t => t ≤ now - b.windowSeconds }

/-- The `reserved` property. -/
def reservedTotal : ℚ := Table.sum (fun _ c => c) b.reserved

/-- The caps that `can_afford` checks. -/
def exceeded (cost : ℚ) : Option Exceeded :=
  if b.spendLimit < b.spent + b.reservedTotal + cost then
    some (.spendCap b.spent b.reservedTotal cost b.spendLimit)
  else if b.rateLimit ≤ b.calls.length + Table.size b.reserved then
    some (.rateCap b.rateLimit)
  else none

def canAfford (cost : ℚ) (now : Time) : Except Fault (Option Exceeded × Budget T) := do
  let cost ← checkedCost cost
  return ((b.prune now).exceeded cost, b.prune now)

variable [DecidableEq T]

def reserve (cost : ℚ) (now : Time) (token : T) : Except Fault (Answer T × Budget T) := do
  let cost ← checkedCost cost
  let (why?, b) ← b.canAfford cost now
  match why? with
  | some why => return (.refused why, b)
  | none => return (.reserved token, { b with reserved := b.reserved.insert token cost })

def commit (token : T) (now : Time) : Bool × Budget T :=
  match b.reserved.lookup token with
  | none => (false, b)
  | some cost =>
    (true, { b with reserved := b.reserved.erase token, spent := b.spent + cost,
                    calls := b.calls ++ [now] })

def release (token : T) : Bool × Budget T :=
  match b.reserved.lookup token with
  | none => (false, b)
  | some _ => (true, { b with reserved := b.reserved.erase token })

/-- One operation. -/
def step : Op T → Except Fault (Answer T) × Budget T
  | .canAfford cost now =>
    settle b ((b.canAfford cost now).map fun r => (.afford r.1, r.2))
  | .reserve cost now token => settle b (b.reserve cost now token)
  | .commit token now => (.ok (.flag (b.commit token now).1), (b.commit token now).2)
  | .release token => (.ok (.flag (b.release token).1), (b.release token).2)

omit [DecidableEq T] in
def summary : Summary := ⟨b.spent, b.reservedTotal, b.calls.length⟩

end Budget

/-! ### The manager -/

/-- The dictionary on which the mutators work. -/
structure State (T : Type) where
  spendLimit : ℚ
  rateLimit : ℤ
  windowSeconds : ℚ
  spent : ℚ
  calls : List Time
  reserved : Table T ℚ

/-- The dictionary as the store keeps it; `_seed` fills what is missing. -/
structure Record (T : Type) where
  spendLimit : ℚ
  rateLimit : ℤ
  windowSeconds : ℚ
  spent : Option ℚ
  calls : Option (List Time)
  reserved : Option (Table T ℚ)

/-- `Budget.state`. -/
def Budget.state {T : Type} (b : Budget T) : State T :=
  { b with }

namespace State

variable {T : Type} (s : State T)

/-- `_prune`. -/
def prune (now : Time) : State T :=
  { s with calls := s.calls.filter fun t => now - s.windowSeconds < t }

/-- `_reserved_sum`. -/
def reservedSum : ℚ := Table.sum (fun _ c => c) s.reserved

/-- The caps that both mutators check. -/
def exceeded (cost : ℚ) : Option Exceeded :=
  if s.spendLimit < s.spent + s.reservedSum + cost then
    some (.spendCap s.spent s.reservedSum cost s.spendLimit)
  else if s.rateLimit ≤ s.calls.length + Table.size s.reserved then
    some (.rateCap s.rateLimit)
  else none

/-- The mutator of `can_afford`. -/
def canAfford (cost : ℚ) (now : Time) : Option Exceeded × State T :=
  ((s.prune now).exceeded cost, s.prune now)

variable [DecidableEq T]

/-- The mutator of `reserve`. -/
def reserve (cost : ℚ) (now : Time) (token : T) : Answer T × State T :=
  match (s.prune now).exceeded cost with
  | some why => (.refused why, s.prune now)
  | none =>
    (.reserved token, { s.prune now with reserved := (s.prune now).reserved.insert token cost })

/-- The mutator of `commit`. -/
def commit (token : T) (now : Time) : Bool × State T :=
  match s.reserved.lookup token with
  | none => (false, s)
  | some cost =>
    (true, { s with reserved := s.reserved.erase token, spent := s.spent + cost,
                    calls := s.calls ++ [now] })

/-- The mutator of `release`. -/
def release (token : T) : Bool × State T :=
  match s.reserved.lookup token with
  | none => (false, s)
  | some _ => (true, { s with reserved := s.reserved.erase token })

/-- What an operation does to the dictionary. -/
def step : Op T → Except Fault (Answer T) × State T
  | .canAfford cost now =>
    settle s ((checkedCost cost).map fun cost =>
      (.afford (s.canAfford cost now).1, (s.canAfford cost now).2))
  | .reserve cost now token =>
    settle s ((checkedCost cost).map fun cost => s.reserve cost now token)
  | .commit token now => (.ok (.flag (s.commit token now).1), (s.commit token now).2)
  | .release token => (.ok (.flag (s.release token).1), (s.release token).2)

omit [DecidableEq T] in
def summary : Summary := ⟨s.spent, s.reservedSum, s.calls.length⟩

omit [DecidableEq T] in
/-- The dictionary with all its keys. -/
def record : Record T :=
  { s with spent := some s.spent, calls := some s.calls, reserved := some s.reserved }

end State

/-- What a store does to a record. -/
structure Codec (S : Type) where
  Text : Type
  encode : S → Text
  decode : Text → S
  decode_encode : ∀ s, decode (encode s) = s

/-- `BudgetManager` on its store. -/
structure Manager (T : Type) (C : Codec (Record T)) where
  store : Table String C.Text := ∅
  /-- The cache `_budgets`. -/
  budgets : Table String (Budget T) := ∅
  defaultFactory : Budget T

namespace Manager

variable {T : Type} {C : Codec (Record T)} (m : Manager T C) (agentId : String)

/-- `_seed`. -/
def seed (record? : Option (Record T)) (base : Budget T) : State T :=
  match record? with
  | none => base.state
  | some r =>
    { r with spent := r.spent.getD 0, calls := r.calls.getD [], reserved := r.reserved.getD ∅ }

/-- The dictionary that a mutator of the agent gets to see. -/
def view : State T :=
  seed ((m.store.lookup agentId).map C.decode) ((m.budgets.lookup agentId).getD m.defaultFactory)

/-- `mutate_budget`. -/
def mutateBudget {R : Type} (mutator : State T → R × State T) : R × Manager T C :=
  let r := mutator (m.view agentId)
  (r.1, { m with store := m.store.insert agentId (C.encode r.2.record) })

/-- Forget the cached budget. -/
def invalidate {R : Type} (r : R × Manager T C) : R × Manager T C :=
  (r.1, { r.2 with budgets := r.2.budgets.erase agentId })

def canAfford (cost : ℚ) (now : Time) : Except Fault (Option Exceeded × Manager T C) := do
  let cost ← checkedCost cost
  return m.mutateBudget agentId fun s => s.canAfford cost now

variable [DecidableEq T]

def reserve (cost : ℚ) (now : Time) (token : T) : Except Fault (Answer T × Manager T C) := do
  let cost ← checkedCost cost
  return invalidate agentId (m.mutateBudget agentId fun s => s.reserve cost now token)

def commit (token : T) (now : Time) : Bool × Manager T C :=
  invalidate agentId (m.mutateBudget agentId fun s => s.commit token now)

def release (token : T) : Bool × Manager T C :=
  invalidate agentId (m.mutateBudget agentId fun s => s.release token)

/-- One operation. -/
def step : Op T → Except Fault (Answer T) × Manager T C
  | .canAfford cost now =>
    settle m ((m.canAfford agentId cost now).map fun r => (.afford r.1, r.2))
  | .reserve cost now token => settle m (m.reserve agentId cost now token)
  | .commit token now =>
    (.ok (.flag (m.commit agentId token now).1), (m.commit agentId token now).2)
  | .release token => (.ok (.flag (m.release agentId token).1), (m.release agentId token).2)

end Manager

/-! ### The manager works on the dictionary -/

namespace Manager

variable {T : Type} {C : Codec (Record T)} {m : Manager T C} {agentId : String}

/-- What was written is what the next mutator sees, whatever the cache holds. -/
theorem view_mutateBudget {R : Type} (mutator : State T → R × State T) :
    (m.mutateBudget agentId mutator).2.view agentId = (mutator (m.view agentId)).2 := by
  unfold view mutateBudget
  rw [AList.lookup_insert, Option.map_some, C.decode_encode]
  rfl

theorem view_invalidate_mutateBudget {R : Type} (mutator : State T → R × State T) :
    (invalidate agentId (m.mutateBudget agentId mutator)).2.view agentId =
      (mutator (m.view agentId)).2 := by
  unfold view invalidate mutateBudget
  rw [AList.lookup_insert, Option.map_some, C.decode_encode]
  rfl

variable [DecidableEq T]

/-- The manager answers as the mutator does. -/
theorem answer_step (op : Op T) : (m.step agentId op).1 = ((m.view agentId).step op).1 := by
  cases op with
  | canAfford cost now =>
    simp only [step, State.step, canAfford]
    cases checkedCost cost <;> rfl
  | reserve cost now token =>
    simp only [step, State.step, reserve]
    cases checkedCost cost <;> rfl
  | commit token now => rfl
  | release token => rfl

/-- The record moves as the mutator says. -/
theorem view_step (op : Op T) :
    (m.step agentId op).2.view agentId = ((m.view agentId).step op).2 := by
  cases op with
  | canAfford cost now =>
    simp only [step, State.step, canAfford]
    cases checkedCost cost with
    | error e => rfl
    | ok cost => exact view_mutateBudget fun s => s.canAfford cost now
  | reserve cost now token =>
    simp only [step, State.step, reserve]
    cases checkedCost cost with
    | error e => rfl
    | ok cost => exact view_invalidate_mutateBudget fun s => s.reserve cost now token
  | commit token now => exact view_invalidate_mutateBudget fun s => s.commit token now
  | release token => exact view_invalidate_mutateBudget fun s => s.release token

end Manager

/-! ### The class works on the dictionary, as long as it is ascending -/

namespace Budget

variable {T : Type} {b : Budget T}

/-- Popping from the left and filtering are the same on an ascending deque. -/
theorem state_prune (hsorted : b.calls.Pairwise (· ≤ ·)) (now : Time) :
    (b.prune now).state = b.state.prune now := by
  have hfront : b.calls.Pairwise fun x y =>
      decide (y ≤ now - b.windowSeconds) = true → decide (x ≤ now - b.windowSeconds) = true := by
    refine hsorted.imp fun {x y} hxy hy => ?_
    exact decide_eq_true (hxy.trans (of_decide_eq_true hy))
  have hcalls : (b.calls.dropWhile fun t => t ≤ now - b.windowSeconds) =
      b.calls.filter fun t => now - b.windowSeconds < t := by
    rw [dropWhile_eq_filter hfront]
    refine filter_congr fun t _ => ?_
    rw [← decide_not, decide_eq_decide, not_le]
  unfold prune State.prune state
  rw [hcalls]

theorem exceeded_state (cost : ℚ) : b.state.exceeded cost = b.exceeded cost := rfl

end Budget

theorem checkedCost_eq_ok {cost cost' : ℚ} (h : checkedCost cost = .ok cost') : cost = cost' := by
  obtain ⟨_, _, h⟩ := Except.bind_eq_ok.mp h
  exact Except.pure_eq_ok.mp h

namespace Budget

variable {T : Type} [DecidableEq T] {b : Budget T}

/-- What `reserve` does after its cost was checked. -/
theorem reserve_eq (cost : ℚ) (now : Time) (token : T) :
    b.reserve cost now token = (checkedCost cost).map fun cost =>
      match (b.prune now).exceeded cost with
      | some why => (.refused why, b.prune now)
      | none => (.reserved token,
          { b.prune now with reserved := (b.prune now).reserved.insert token cost }) := by
  unfold reserve canAfford
  cases hcost : checkedCost cost with
  | error e => rfl
  | ok cost' =>
    -- the cost is checked a second time inside `can_afford`
    obtain rfl := checkedCost_eq_ok hcost
    simp only [Except.ok_bind, hcost, Except.map]
    cases (b.prune now).exceeded cost <;> rfl

/-- **On an ascending deque a step of the class is a step of the dictionary.** -/
theorem state_step (hsorted : b.calls.Pairwise (· ≤ ·)) (op : Op T) :
    b.state.step op = ((b.step op).1, (b.step op).2.state) := by
  cases op with
  | canAfford cost now =>
    simp only [State.step, Budget.step, Budget.canAfford, State.canAfford, ← state_prune hsorted,
      exceeded_state]
    cases checkedCost cost <;> rfl
  | reserve cost now token =>
    simp only [State.step, Budget.step, reserve_eq, State.reserve, ← state_prune hsorted,
      exceeded_state]
    cases checkedCost cost with
    | error e => rfl
    | ok cost =>
      simp only [Except.map, settle]
      cases (b.prune now).exceeded cost <;> rfl
  | commit token now =>
    have hlookup : b.state.reserved.lookup token = b.reserved.lookup token := rfl
    simp only [State.step, Budget.step, State.commit, Budget.commit, hlookup]
    cases b.reserved.lookup token <;> rfl
  | release token =>
    have hlookup : b.state.reserved.lookup token = b.reserved.lookup token := rfl
    simp only [State.step, Budget.step, State.release, Budget.release, hlookup]
    cases b.reserved.lookup token <;> rfl

/-- A step drops times and adds at most the present one. -/
theorem calls_step (op : Op T) : (b.step op).2.calls.Sublist (b.calls ++ op.now?.toList) := by
  have hprune : ∀ now : Time, (b.prune now).calls.Sublist (b.calls ++ [now]) := fun now =>
    (dropWhile_sublist _).trans (sublist_append_left _ _)
  have hsame : ∀ l : List Time, b.calls.Sublist (b.calls ++ l) := fun l =>
    sublist_append_left _ _
  cases op with
  | canAfford cost now =>
    simp only [step, canAfford]
    cases checkedCost cost with
    | error e => exact hsame _
    | ok cost => exact hprune now
  | reserve cost now token =>
    simp only [step, reserve_eq]
    cases checkedCost cost with
    | error e => exact hsame _
    | ok cost =>
      simp only [Except.map, settle]
      cases (b.prune now).exceeded cost <;> exact hprune now
  | commit token now =>
    simp only [step, commit]
    cases b.reserved.lookup token with
    | none => exact hsame _
    | some cost => exact List.Sublist.refl _
  | release token =>
    simp only [step, release]
    cases b.reserved.lookup token <;> exact hsame _

/-! ### Other tokens -/

/-- The budget under other tokens. -/
def relabel {I : Type} (f : I ↪ T) (b : Budget I) : Budget T :=
  { b with reserved := Table.relabel f id b.reserved }

variable {I : Type} {a : Budget I} (f : I ↪ T)

omit [DecidableEq T] in
theorem reservedTotal_relabel : (a.relabel f).reservedTotal = a.reservedTotal :=
  sum_relabel f id (fun _ c => c) a.reserved

omit [DecidableEq T] in
theorem exceeded_relabel (cost : ℚ) : (a.relabel f).exceeded cost = a.exceeded cost := by
  have hsize : Table.size (a.relabel f).reserved = Table.size a.reserved :=
    size_relabel f id a.reserved
  unfold exceeded
  rw [reservedTotal_relabel, hsize]
  rfl

omit [DecidableEq T] in
theorem summary_relabel : (a.relabel f).summary = a.summary := by
  unfold summary
  rw [reservedTotal_relabel]
  rfl

/-- The class does not look into its tokens. -/
theorem step_relabel [DecidableEq I] (op : Op I) :
    (a.relabel f).step (op.map f) =
      ((a.step op).1.map (Answer.map f), (a.step op).2.relabel f) := by
  have hprune : ∀ now, (a.relabel f).prune now = (a.prune now).relabel f := fun _ => rfl
  have hlookup : ∀ token, (a.relabel f).reserved.lookup (f token) = a.reserved.lookup token := by
    intro token
    refine (lookup_relabel f id a.reserved token).trans ?_
    rw [Option.map_id]
    rfl
  cases op with
  | canAfford cost now =>
    simp only [Op.map, step, canAfford, hprune, exceeded_relabel]
    cases checkedCost cost <;> rfl
  | reserve cost now token =>
    simp only [Op.map, step, reserve_eq, hprune, exceeded_relabel]
    cases checkedCost cost with
    | error e => rfl
    | ok cost =>
      simp only [Except.map, settle]
      cases (a.prune now).exceeded cost with
      | some why => rfl
      | none =>
        simp only [Answer.map, relabel, relabel_insert]
        rfl
  | commit token now =>
    simp only [Op.map, step, commit, hlookup]
    cases a.reserved.lookup token with
    | none => rfl
    | some cost =>
      simp only [Except.map, Answer.map, relabel, relabel_erase]
  | release token =>
    simp only [Op.map, step, release, hlookup]
    cases a.reserved.lookup token with
    | none => rfl
    | some cost =>
      simp only [Except.map, Answer.map, relabel, relabel_erase]

end Budget

/-! ### Agreement -/

/-- Forgetting tokens forgets their labels. -/
theorem forget_relabel {I T S : Type} (f : I → T) (r : Except Fault (Answer I)) (s : S) :
    forget (r.map (Answer.map f), s) = (r.map (Answer.map fun _ => ()), s) := by
  cases r with
  | error e => rfl
  | ok answer => cases answer <;> rfl

/-- **The two budgets agree.** The class under the tokens `f` and the manager under the tokens `g`
start from the same budget, whose calls are ascending and not later than the first clock value, and
the clock does not run backwards. Then they give the same answers, and have the same spend, the
same total of reservations and the same number of calls after every operation. -/
theorem implementations_agree {I : Type} [DecidableEq I] {C : Codec (Record String)}
    (f g : I ↪ String) (b : Budget I) (m : Manager String C) (agentId : String) (ops : List (Op I))
    (hview : m.view agentId = (b.relabel g).state)
    (htimes : (b.calls ++ times ops).Pairwise (· ≤ ·)) :
    LTS.transcript (fun b op => forget (b.step (op.map f))) Budget.summary (b.relabel f) ops =
      LTS.transcript (fun m op => forget (m.step agentId (op.map g)))
        (fun m => (m.view agentId).summary) m ops := by
  -- a third budget, under the common tokens, runs beside the two
  refine LTS.transcript_eq (r := fun ops b' m' => ∃ b : Budget I, b' = b.relabel f ∧
    m'.view agentId = (b.relabel g).state ∧ (b.calls ++ times ops).Pairwise (· ≤ ·)) ?_ ?_
    ⟨b, rfl, hview, htimes⟩
  · rintro op ops b' m' ⟨b, rfl, hview, htimes⟩
    have hsorted : (b.relabel g).calls.Pairwise (· ≤ ·) := (pairwise_append.mp htimes).1
    have hstate := Budget.state_step hsorted (op.map g)
    rw [Budget.step_relabel] at hstate
    refine ⟨?_, b.step op |>.2, ?_, ?_, ?_⟩
    · have hanswer : (m'.step agentId (op.map g)).1 = (b.step op).1.map (Answer.map g) := by
        rw [Manager.answer_step, hview, hstate]
      rw [Budget.step_relabel, forget_relabel, forget, hanswer]
      cases (b.step op).1 with
      | error e => rfl
      | ok answer => cases answer <;> rfl
    · rw [Budget.step_relabel, forget_relabel]
    · exact (Manager.view_step _).trans (by rw [hview, hstate])
    · have hlist : times (op :: ops) = op.now?.toList ++ times ops := by
        unfold times
        cases h : op.now? with
        | none => rw [filterMap_cons_none h]; rfl
        | some now => rw [filterMap_cons_some h]; rfl
      rw [hlist, ← append_assoc] at htimes
      exact htimes.sublist ((Budget.calls_step op).append (.refl _))
  · rintro ops b' m' ⟨b, rfl, hview, -⟩
    rw [hview, Budget.summary_relabel]
    exact (Budget.summary_relabel g).symm

/-- The store keeps the dictionary itself. -/
def plainCodec : Codec (Record String) := ⟨Record String, id, id, fun _ => rfl⟩

def classTokens : Bool ↪ String := ⟨fun i => if i then "a" else "b", fun i j => by
  revert i j
  decide⟩

def managerTokens : Bool ↪ String := ⟨fun i => if i then "x" else "y", fun i j => by
  revert i j
  decide⟩

/-- A budget of 100 with at most two calls in ten seconds. -/
def sampleBudget {T : Type} (calls : List Time) : Budget T where
  spendLimit := ((100 : ℕ) : ℚ)
  rateLimit := 2
  windowSeconds := ((10 : ℕ) : ℚ)
  spent := 0
  calls
  reserved := ∅

/-- Nobody has written a record yet, and the manager makes this budget. -/
def sampleManager (calls : List Time) : Manager String plainCodec where
  defaultFactory := sampleBudget calls

/-- A reservation, one that is over the cap, a commit twice, and a negative cost. -/
def sampleOps : List (Op Bool) :=
  [.reserve 1 1 true, .canAfford ((100 : ℕ) : ℚ) 1, .commit true 1, .commit true 1,
    .reserve (-1) 1 false]

theorem implementations_agree_sample :
    LTS.transcript (fun b op => forget (b.step (op.map classTokens))) Budget.summary
        (sampleBudget [0]) sampleOps =
      LTS.transcript (fun m op => forget (m.step "agent" (op.map managerTokens)))
        (fun m => (m.view "agent").summary) (sampleManager [0]) sampleOps ∧
    (LTS.transcript (fun b op => forget (b.step (op.map classTokens))) Budget.summary
        (sampleBudget [0]) sampleOps).map Prod.snd =
      [⟨0, 1, 1⟩, ⟨0, 1, 1⟩, ⟨1, 0, 2⟩, ⟨1, 0, 2⟩, ⟨1, 0, 2⟩] :=
  ⟨implementations_agree classTokens managerTokens (sampleBudget [0]) (sampleManager [0]) "agent"
    sampleOps rfl (by decide +kernel), by decide +kernel⟩

/-- The second call has expired but the first has not: the class still counts two calls and refuses,
the manager counts one. -/
theorem unsorted_calls :
    ((sampleManager [100, 0]).view "agent" = (sampleBudget [100, 0]).state) ∧
    ((sampleBudget [100, 0] : Budget String).step (.canAfford 0 105)).1.toOption =
      some (.afford (some (.rateCap 2))) ∧
    ((sampleBudget [100, 0] : Budget String).step (.canAfford 0 105)).2.calls.length = 2 ∧
    ((sampleManager [100, 0]).step "agent" (.canAfford 0 105)).1.toOption =
      some (.afford none) ∧
    (((sampleManager [100, 0]).step "agent" (.canAfford 0 105)).2.view "agent").calls.length = 1 :=
  ⟨rfl, by decide +kernel, by decide +kernel, by decide +kernel, by decide +kernel⟩

/-! ### Records with nonnegative amounts -/

/-- The record of `Budget.Basic` as a dictionary. -/
def embed (b : BudgetState) : State String where
  spendLimit := b.spendLimit
  rateLimit := b.rateLimit
  windowSeconds := b.windowSeconds
  spent := b.spent
  calls := b.calls
  reserved := Table.relabel (.refl String) (fun c : Cost => (c : ℚ)) b.reserved

def ofRefusal : Refusal → Exceeded
  | .spendCap spent reserved cost spendLimit => .spendCap spent reserved cost spendLimit
  | .rateCap rateLimit => .rateCap rateLimit

theorem embed_prune (b : BudgetState) (now : Time) : embed (b.prune now) = (embed b).prune now := rfl

theorem embed_reservedSum (b : BudgetState) : (embed b).reservedSum = b.reservedSum := by
  refine (sum_relabel (.refl String) _ (fun _ c => c) b.reserved).trans ?_
  unfold BudgetState.reservedSum Table.sum
  rw [NNRat.cast_listSum, map_map]
  rfl

theorem embed_exceeded (b : BudgetState) (cost : Cost) :
    (embed b).exceeded cost = (b.refusal cost).map ofRefusal := by
  have hsize : Table.size (embed b).reserved = Table.size b.reserved := size_relabel _ _ _
  have hspend : (embed b).spendLimit < (embed b).spent + b.reservedSum + cost ↔
      b.spendLimit < b.spent + b.reservedSum + cost := by
    rw [← NNRat.coe_lt_coe]
    push_cast
    rfl
  have hrate : (embed b).rateLimit ≤ (embed b).calls.length + Table.size b.reserved ↔
      b.rateLimit ≤ b.calls.length + Table.size b.reserved := by
    rw [← Int.ofNat_le]
    push_cast
    rfl
  unfold State.exceeded BudgetState.refusal
  rw [embed_reservedSum, hsize]
  simp only [hspend, hrate]
  split
  · rfl
  · split <;> rfl

theorem embed_canAfford (b : BudgetState) (cost : Cost) (now : Time) :
    (embed b).canAfford cost now =
      ((b.canAfford cost now).1.map ofRefusal, embed (b.canAfford cost now).2) := by
  unfold State.canAfford BudgetState.canAfford
  rw [← embed_prune, embed_exceeded]

theorem embed_reserve (b : BudgetState) (cost : Cost) (now : Time) (token : String) :
    (embed b).reserve cost now token =
      ((b.reserve cost now token).1.elim (.reserved token) fun why => .refused (ofRefusal why),
        embed (b.reserve cost now token).2) := by
  unfold State.reserve BudgetState.reserve
  rw [← embed_prune, embed_exceeded]
  cases (b.prune now).refusal cost with
  | some why => rfl
  | none =>
    simp only [Option.map_none, Option.elim_none, embed, relabel_insert]
    rfl

theorem embed_lookup (b : BudgetState) (token : String) :
    (embed b).reserved.lookup token = (b.reserved.lookup token).map fun c : Cost => (c : ℚ) :=
  lookup_relabel (.refl String) _ b.reserved token

theorem embed_commit (b : BudgetState) (token : String) (now : Time) :
    (embed b).commit token now = ((b.commit token now).1, embed (b.commit token now).2) := by
  unfold State.commit BudgetState.commit
  rw [embed_lookup]
  cases b.reserved.lookup token with
  | none => rfl
  | some cost =>
    simp only [Option.map_some, embed, relabel_erase, NNRat.coe_add]
    rfl

theorem embed_release (b : BudgetState) (token : String) :
    (embed b).release token = ((b.release token).1, embed (b.release token).2) := by
  unfold State.release BudgetState.release
  rw [embed_lookup]
  cases b.reserved.lookup token with
  | none => rfl
  | some cost =>
    simp only [Option.map_some, embed, relabel_erase]
    rfl

end AgentBridge.Agreement
