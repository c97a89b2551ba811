import AgentBridge.Budget.Basic
import AgentBridge.Window.Basic
import Mathlib.Tactic.Linarith

/-!
# Budget caps under concurrency

Workers interleave `reserve`, `commit`, `release` and `can_afford` with changes of the limits;
each is one serialized mutation, so an interleaving is a run of the system below.

* `budget_caps` : **both caps**.
-/

namespace AgentBridge

open List Table Except

namespace Budgets

/-- The budget table and the history of its commits, by agent and time. -/
structure Book where
  budgets : Budgets
  commits : List (String × Time) := []

/-- The operations of `BudgetManager`, and `TenantSession.set_budget`. -/
inductive Action
  | canAfford (agentId : String) (cost : Cost) (now : Time)
  | reserve (agentId : String) (cost : Cost) (now : Time) (token : String)
  | commit (agentId : String) (token : String) (now : Time)
  | release (agentId : String) (token : String)
  | setBudget (agentId : String) (spendLimit : Cost) (rateLimit windowSeconds : ℕ)

/-- Perform one operation. -/
def exec (s : Book) : Action → Except Fault Book
  | .canAfford a cost now => .ok { s with budgets := (s.budgets.canAfford a cost now).2 }
  | .reserve a cost now token =>
    .ok { s with budgets := (s.budgets.reserve a cost now token).2 }
  | .commit a token now =>
    match s.budgets.commit a token now with
    | (true, budgets) => .ok { budgets, commits := s.commits ++ [(a, now)] }
    | (false, budgets) => .ok { s with budgets }
  | .release a token => .ok { s with budgets := (s.budgets.release a token).2 }
  | .setBudget a spendLimit rateLimit windowSeconds => do
    let budgets ← s.budgets.setBudget a spendLimit rateLimit windowSeconds
    return { s with budgets }

/-- The budgets as a transition system. -/
def system : LTS Book Action := LTS.ofExec exec

/-- The clock reading of an operation. -/
def Action.time : Action → Option Time
  | .canAfford _ _ now => some now
  | .reserve _ _ now _ => some now
  | .commit _ _ now => some now
  | _ => none

/-- The operation leaves the agent's rate limit and window as they are. -/
def Action.keepsRate (agentId : String) (b : BudgetState) : Action → Bool
  | .setBudget a _ rateLimit windowSeconds =>
    a != agentId || (rateLimit == b.rateLimit && windowSeconds == b.windowSeconds)
  | _ => true

/-- The book together with the latest clock reading. -/
structure Steady where
  book : Book
  clock : Time

/-- Perform an operation under a nondecreasing clock and an unchanged rate limit. -/
def execSteady (agentId : String) (w : Steady) (a : Action) : Except Fault Steady := do
  require (a.time.all fun now => w.clock ≤ now) (.runtimeError "clock went back")
  require (a.keepsRate agentId (w.book.budgets.view agentId)) (.runtimeError "rate changed")
  return ⟨← exec w.book a, a.time.getD w.clock⟩

/-- The runs in which the rate limit and the window of the agent do not change. -/
def steadySystem (agentId : String) : LTS Steady Action := LTS.ofExec (execSteady agentId)

/-- The commit times of one agent. -/
def Book.commitsOf (s : Book) (agentId : String) : List Time :=
  (s.commits.filter fun c => c.1 = agentId).map Prod.snd

/-! ### One step, seen by one agent -/

/-- What an operation can do to an agent's record `b` and to its commit history `h`. -/
inductive Change (agentId : String) (a : Action) (b : BudgetState) (h : List Time) :
    BudgetState → List Time → Prop
  | idle : Change agentId a b h b h
  | prune {now : Time} (htime : a.time = some now) : Change agentId a b h (b.prune now) h
  | reserve {cost : Cost} {now : Time} {token : String} (htime : a.time = some now)
      (hfits : (b.prune now).refusal cost = none) :
      Change agentId a b h { b.prune now with reserved := b.reserved.insert token cost } h
  | commit {cost : Cost} {now : Time} {token : String} (htime : a.time = some now)
      (htoken : b.reserved.lookup token = some cost) :
      Change agentId a b h
        { b with reserved := b.reserved.erase token, spent := b.spent + cost,
                 calls := b.calls ++ [now] } (h ++ [now])
  | release {cost : Cost} {token : String} (htoken : b.reserved.lookup token = some cost) :
      Change agentId a b h { b with reserved := b.reserved.erase token } h
  | limits {spendLimit : Cost} {rateLimit windowSeconds : ℕ} (hfits : b.exposure ≤ spendLimit)
      (hkeeps : a.keepsRate agentId b → rateLimit = b.rateLimit ∧
        windowSeconds = b.windowSeconds) :
      Change agentId a b h { b with spendLimit, rateLimit, windowSeconds } h

theorem commitsOf_append (s : Book) (a agentId : String) (now : Time) (t : Budgets) :
    Book.commitsOf ⟨t, s.commits ++ [(a, now)]⟩ agentId =
      if a = agentId then s.commitsOf agentId ++ [now] else s.commitsOf agentId := by
  unfold Book.commitsOf
  by_cases h : a = agentId <;> simp [h, filter_append]

variable {a : Action} {agentId : String}

/-- A mutation of one record changes nothing for the other agents. -/
theorem change_of_exec {s s' : Book} (agentId : String) (h : exec s a = .ok s') :
    Change agentId a (s.budgets.view agentId) (s.commitsOf agentId) (s'.budgets.view agentId)
      (s'.commitsOf agentId) := by
  cases a with
  | canAfford x cost now =>
    cases h
    simp only [canAfford, mutate, view_insert, BudgetState.canAfford]
    split
    case isFalse => exact .idle
    case isTrue hx =>
      subst hx
      exact .prune rfl
  | reserve x cost now token =>
    cases h
    simp only [reserve, mutate, view_insert]
    split
    case isFalse => exact .idle
    case isTrue hx =>
      subst hx
      rcases (s.budgets.view agentId).reserve_cases cost now token with ⟨why, h⟩ | ⟨hfits, h⟩
      · rw [h]
        exact .prune rfl
      · rw [h]
        exact .reserve rfl hfits
  | commit x token now =>
    simp only [exec, commit, mutate] at h
    rcases (s.budgets.view x).commit_cases token now with ⟨-, hc⟩ | ⟨cost, hcost, hc⟩
    · simp only [hc, Except.ok.injEq] at h
      subst h
      simp only [view_insert]
      split
      case isFalse => exact .idle
      case isTrue hx =>
        subst hx
        exact .idle
    · simp only [hc, Except.ok.injEq] at h
      subst h
      simp only [view_insert, commitsOf_append]
      by_cases hx : agentId = x
      · subst hx
        simp only [if_true]
        exact .commit rfl hcost
      · rw [if_neg hx, if_neg (Ne.symm hx)]
        exact .idle
  | release x token =>
    cases h
    simp only [release, mutate, view_insert]
    split
    case isFalse => exact .idle
    case isTrue hx =>
      subst hx
      rcases (s.budgets.view agentId).release_cases token with ⟨-, h⟩ | ⟨cost, hcost, h⟩
      · rw [h]
        exact .idle
      · rw [h]
        exact .release hcost
  | setBudget x spendLimit rateLimit windowSeconds =>
    simp only [exec, setBudget, BudgetState.setLimits, bind_eq_ok, pure_eq_ok,
      require_eq_ok, decide_eq_true_eq] at h
    obtain ⟨_, ⟨-, -, _, ⟨-, hfits, rfl⟩, rfl⟩, rfl⟩ := h
    simp only [view_insert]
    split
    case isFalse => exact .idle
    case isTrue hx =>
      subst hx
      refine .limits hfits fun hkeeps => ?_
      simpa [Action.keepsRate] using hkeeps

/-! ### The spend cap -/

/-- **The spend cap survives every operation.** -/
theorem Change.exposure_le {b b' : BudgetState} {h h' : List Time} (hc : Change agentId a b h b' h')
    (hb : b.exposure ≤ b.spendLimit) : b'.exposure ≤ b'.spendLimit := by
  cases hc with
  | idle => exact hb
  | prune => exact hb
  | @reserve cost now token _ hfits =>
    have hcap := (BudgetState.refusal_eq_none.mp hfits).1
    calc b.spent + Table.sum (fun _ c => c) (b.reserved.insert token cost)
        ≤ b.spent + (cost + b.reservedSum) :=
          add_le_add_right (sum_insert_le (fun _ _ => zero_le) _ _ _) _
      _ = b.exposure + cost := by rw [BudgetState.exposure, add_comm cost, add_assoc]
      _ ≤ b.spendLimit := hcap
  | @commit cost now token _ htoken =>
    calc b.spent + cost + Table.sum (fun _ c => c) (b.reserved.erase token)
        = b.exposure := by rw [add_assoc, sum_erase (fun _ c => c) htoken]; rfl
      _ ≤ b.spendLimit := hb
  | release htoken =>
    exact (add_le_add_right (sum_erase_le (fun _ _ => zero_le) _ _) _).trans hb
  | limits hfits _ => exact hfits

/-- In every run, spend and reservations stay under the spend limit of the moment. -/
theorem exposure_le_spendLimit {s₀ s : Book} (h : system.Reachable s₀ s)
    (h₀ : (s₀.budgets.view agentId).exposure ≤ (s₀.budgets.view agentId).spendLimit) :
    (s.budgets.view agentId).exposure ≤ (s.budgets.view agentId).spendLimit :=
  h.invariant (I := fun s => (s.budgets.view agentId).exposure ≤
    (s.budgets.view agentId).spendLimit) h₀
    fun _ _ _ hs hst => (change_of_exec agentId hst).exposure_le hs

/-! ### The rate cap -/

/-- The invariant behind the rate cap, for a record `b` with the history `hist` of its commits.
A free slot was checked at some time `l` when something was last reserved, and the record
still holds every commit later than the window that was last pruned. -/
structure RateInv (win : Time) (rate bound : ℕ) (b : BudgetState) (hist : List Time)
    (clock : Time) : Prop where
  rate_eq : b.rateLimit = rate
  window_eq : (b.windowSeconds : Time) = win
  slot : ∃ l ≤ clock, hist.countP (fun x => l - win < x) + Table.size b.reserved ≤ bound
  kept : ∃ p ≤ clock, ∀ x, p - win ≤ x →
    b.calls.countP (fun t => x < t) = hist.countP (fun t => x < t)
  windowed : Windowed win bound hist

variable {win : Time} {rate bound : ℕ} {b : BudgetState} {hist : List Time}
  {clock clock' now : Time}

theorem RateInv.mono (h : RateInv win rate bound b hist clock) (hle : clock ≤ clock') :
    RateInv win rate bound b hist clock' := by
  obtain ⟨l, hl, hslot⟩ := h.slot
  obtain ⟨p, hp, hkept⟩ := h.kept
  exact ⟨h.rate_eq, h.window_eq, ⟨l, hl.trans hle, hslot⟩, ⟨p, hp.trans hle, hkept⟩, h.windowed⟩

/-- Pruning loses no commit that a later check counts. -/
theorem RateInv.countP_prune (h : RateInv win rate bound b hist clock) (hle : clock ≤ now)
    {x : Time} (hx : now - win ≤ x) :
    (b.prune now).calls.countP (fun t => x < t) = hist.countP (fun t => x < t) := by
  obtain ⟨p, hp, hkept⟩ := h.kept
  rw [← hkept x (by linarith), BudgetState.prune, List.countP_filter, h.window_eq]
  refine countP_congr fun t _ => ?_
  simp only [Bool.and_eq_true, decide_eq_true_eq]
  exact ⟨fun ht => ht.1, fun ht => ⟨ht, by linarith⟩⟩

theorem RateInv.prune (h : RateInv win rate bound b hist clock) (hle : clock ≤ now) :
    RateInv win rate bound (b.prune now) hist now := by
  obtain ⟨l, hl, hslot⟩ := h.slot
  exact ⟨h.rate_eq, h.window_eq, ⟨l, hl.trans hle, hslot⟩,
    ⟨now, le_rfl, fun x hx => h.countP_prune hle hx⟩, h.windowed⟩

/-- A reservation that passes the rate check leaves a free slot for every pending token. -/
theorem RateInv.reserve (h : RateInv win rate bound b hist clock) (hle : clock ≤ now)
    (hbound : rate ≤ bound) {cost : Cost} {token : String}
    (hfits : (b.prune now).refusal cost = none) :
    RateInv win rate bound { b.prune now with reserved := b.reserved.insert token cost } hist
      now := by
  have hrate := (BudgetState.refusal_eq_none.mp hfits).2
  have hall : (b.prune now).calls.countP (fun t => now - win < t) =
      (b.prune now).calls.length := by
    rw [countP_eq_length]
    intro t ht
    have := (mem_filter.mp ht).2
    rwa [h.window_eq] at this
  have hcount := h.countP_prune hle (le_refl (now - win))
  have hsize := size_insert_le b.reserved token cost
  have hrate' : (b.prune now).calls.length + Table.size b.reserved < rate := h.rate_eq ▸ hrate
  refine ⟨h.rate_eq, h.window_eq, ⟨now, le_rfl, ?_⟩,
    ⟨now, le_rfl, fun x hx => h.countP_prune hle hx⟩, h.windowed⟩
  show hist.countP (fun x => now - win < x) + Table.size (b.reserved.insert token cost) ≤ bound
  omega

/-- A commit takes the slot its reservation held. -/
theorem RateInv.commit (h : RateInv win rate bound b hist clock) (hle : clock ≤ now)
    {cost : Cost} {token : String} (htoken : b.reserved.lookup token = some cost) :
    RateInv win rate bound
      { b with reserved := b.reserved.erase token, spent := b.spent + cost,
               calls := b.calls ++ [now] } (hist ++ [now]) now := by
  obtain ⟨l, hl, hslot⟩ := h.slot
  obtain ⟨p, hp, hkept⟩ := h.kept
  have hsize := size_erase htoken
  have hone : [now].countP (fun x => l - win < x) ≤ 1 := countP_le_length
  refine ⟨h.rate_eq, h.window_eq, ⟨l, hl.trans hle, ?_⟩, ⟨p, hp.trans hle, fun x hx => ?_⟩,
    h.windowed.append (hl.trans hle) (by omega)⟩
  · rw [countP_append]
    show _ + Table.size (b.reserved.erase token) ≤ bound
    omega
  · rw [countP_append, countP_append, hkept x hx]

theorem RateInv.release (h : RateInv win rate bound b hist clock) (token : String) :
    RateInv win rate bound { b with reserved := b.reserved.erase token } hist clock := by
  obtain ⟨l, hl, hslot⟩ := h.slot
  have hsize := size_erase_le b.reserved token
  refine ⟨h.rate_eq, h.window_eq, ⟨l, hl, ?_⟩, h.kept, h.windowed⟩
  show _ + Table.size (b.reserved.erase token) ≤ bound
  omega

/-- **The rate invariant survives every operation** that does not turn the clock back. -/
theorem Change.rateInv {b' : BudgetState} {base h h' : List Time} (hc : Change agentId a b h b' h')
    (hbound : rate ≤ bound) (hkeeps : a.keepsRate agentId b = true)
    (hle : ∀ now, a.time = some now → clock ≤ now) (hb : RateInv win rate bound b
    (base ++ h) clock) : RateInv win rate bound b' (base ++ h') (a.time.getD clock) := by
  have hclock : clock ≤ a.time.getD clock := by
    cases ht : a.time with
    | none => exact le_rfl
    | some now => exact hle now ht
  cases hc with
  | idle => exact hb.mono hclock
  | prune ht =>
    rw [ht]
    exact hb.prune (hle _ ht)
  | reserve ht hfits =>
    rw [ht]
    exact hb.reserve (hle _ ht) hbound hfits
  | commit ht htoken =>
    rw [ht, ← append_assoc]
    exact hb.commit (hle _ ht) htoken
  | release _ => exact (hb.release _).mono hclock
  | limits _ hsame =>
    obtain ⟨rfl, rfl⟩ := hsame hkeeps
    have hb' := hb.mono hclock
    exact ⟨hb'.rate_eq, hb'.window_eq, hb'.slot, hb'.kept, hb'.windowed⟩

theorem execSteady_eq_ok {w w' : Steady} (h : execSteady agentId w a = .ok w') :
    (∀ now, a.time = some now → w.clock ≤ now) ∧
      a.keepsRate agentId (w.book.budgets.view agentId) = true ∧
      exec w.book a = .ok w'.book ∧ w'.clock = a.time.getD w.clock := by
  simp only [execSteady, bind_eq_ok, require_eq_ok, pure_eq_ok] at h
  obtain ⟨-, hclock, -, hkeeps, book, hbook, rfl⟩ := h
  refine ⟨fun now hnow => ?_, hkeeps, hbook, rfl⟩
  simpa [hnow] using hclock

/-- While the limits do not change, a window never holds more commits than the rate limit, or
than had been recorded and were pending at the start. -/
theorem commits_windowed (t : Budgets) (clock : Time) (agentId : String) {w : Steady}
    (h : (steadySystem agentId).Reachable ⟨⟨t, []⟩, clock⟩ w) :
    Windowed ((t.view agentId).windowSeconds : Time)
      (max (t.view agentId).rateLimit
        ((t.view agentId).calls.length + Table.size (t.view agentId).reserved))
      ((t.view agentId).calls ++ w.book.commitsOf agentId) := by
  refine (h.invariant (I := fun w => RateInv _ (t.view agentId).rateLimit _
    (w.book.budgets.view agentId) ((t.view agentId).calls ++ w.book.commitsOf agentId)
    w.clock) ?_ ?_).windowed
  · have hle : ∀ p : Time → Bool, (t.view agentId).calls.countP p ≤ (t.view agentId).calls.length :=
      fun _ => countP_le_length
    refine ⟨rfl, rfl, ⟨clock, le_rfl, ?_⟩, ⟨clock, le_rfl, fun x _ => ?_⟩, .of_length_le ?_⟩
    · simp only [Book.commitsOf, filter_nil, map_nil, append_nil]
      exact (Nat.add_le_add_right (hle _) _).trans (le_max_right _ _)
    · simp [Book.commitsOf]
    · simp only [Book.commitsOf, filter_nil, map_nil, append_nil]
      exact (Nat.le_add_right _ _).trans (le_max_right _ _)
  · intro w a w' hw hst
    obtain ⟨hle, hkeeps, hexec, hclock⟩ := execSteady_eq_ok hst
    rw [hclock]
    exact (change_of_exec agentId hexec).rateInv (le_max_left _ _) hkeeps hle hw

/-! ### Both caps -/

/-- **Budget caps hold under concurrency.** From a state under the spend limit, spend and
reservations never exceed the spend limit of the moment. And while the rate limit and the window are
unchanged and the clock does not go back, every half-open window holds at most `rate_limit` recorded
commits, or as many as were recorded or pending at the start of that time, if those are more. -/
theorem budget_caps (t : Budgets) (agentId : String)
    (h₀ : (t.view agentId).exposure ≤ (t.view agentId).spendLimit) {s : Book}
    (h : system.Reachable ⟨t, []⟩ s) :
    (s.budgets.view agentId).exposure ≤ (s.budgets.view agentId).spendLimit ∧
    ∀ (clock : Time) (w : Steady), (steadySystem agentId).Reachable ⟨⟨s.budgets, []⟩, clock⟩ w →
      Windowed ((s.budgets.view agentId).windowSeconds : Time)
        (max (s.budgets.view agentId).rateLimit
          ((s.budgets.view agentId).calls.length + Table.size (s.budgets.view agentId).reserved))
        ((s.budgets.view agentId).calls ++ w.book.commitsOf agentId) :=
  ⟨exposure_le_spendLimit h h₀, fun clock _ hw => commits_windowed s.budgets clock agentId hw⟩

/-- One agent with room for a single commit in each minute. -/
def sampleBudgets : Budgets :=
  AList.singleton "bot" { BudgetState.initial with spendLimit := 5, rateLimit := 1,
                                                   windowSeconds := 60 }

/-- A call that is committed, and a second one that the rate limit refuses. -/
def sampleActions : List Action :=
  [.reserve "bot" 1 10 "k1", .commit "bot" "k1" 12, .reserve "bot" 1 30 "k2"]

/-- The caps after a call that is committed, and in a time in which a second one has to wait. -/
theorem sample_budget_caps :
    let s := LTS.drive exec ⟨sampleBudgets, []⟩ sampleActions
    (s.budgets.view "bot").exposure ≤ (s.budgets.view "bot").spendLimit ∧
    Windowed 60 1 ((s.budgets.view "bot").calls ++ (LTS.drive (execSteady "bot")
      ⟨⟨s.budgets, []⟩, 30⟩ [.reserve "bot" 1 80 "k3", .commit "bot" "k3" 81]).book.commitsOf
        "bot") := by
  intro s
  have hcaps := budget_caps sampleBudgets "bot" (by decide +kernel)
    (LTS.reachable_drive exec _ sampleActions)
  have hlimits : ((s.budgets.view "bot").windowSeconds : Time) = 60 ∧
      max (s.budgets.view "bot").rateLimit ((s.budgets.view "bot").calls.length +
        Table.size (s.budgets.view "bot").reserved) = 1 := by decide +kernel
  have hwindow := hcaps.2 30 _ (LTS.reachable_drive (execSteady "bot") _
    [.reserve "bot" 1 80 "k3", .commit "bot" "k3" 81])
  rw [hlimits.1, hlimits.2] at hwindow
  exact ⟨hcaps.1, hwindow⟩

/-- Two calls are pending when the rate limit is set to one. -/
def loweredRate : List Action :=
  [.setBudget "bot" 5 2 60, .reserve "bot" 1 10 "k1", .reserve "bot" 1 10 "k2",
    .setBudget "bot" 5 1 60]

/-- **A lowered rate limit is exceeded**: both pending calls are committed within a second, though
the limit is one from then on. -/
theorem lowered_rate_exceeded :
    let s := LTS.drive exec ⟨sampleBudgets, []⟩ loweredRate
    let w := LTS.drive (execSteady "bot") ⟨⟨s.budgets, []⟩, 10⟩
      [.commit "bot" "k1" 10, .commit "bot" "k2" 11]
    system.Reachable ⟨sampleBudgets, []⟩ s ∧
    (steadySystem "bot").Reachable ⟨⟨s.budgets, []⟩, 10⟩ w ∧
    (s.budgets.view "bot").rateLimit = 1 ∧ (s.budgets.view "bot").windowSeconds = 60 ∧
    w.book.commitsOf "bot" = [10, 11] ∧ ¬ Windowed 60 1 (w.book.commitsOf "bot") := by
  intro s w
  have hcommits : w.book.commitsOf "bot" = [10, 11] := by decide +kernel
  refine ⟨LTS.reachable_drive _ _ _, LTS.reachable_drive _ _ _, by decide +kernel,
    by decide +kernel, hcommits, fun hwindow => ?_⟩
  have hcount := hwindow.closedOpen 10
  rw [hcommits] at hcount
  revert hcount
  decide +kernel

end Budgets

end AgentBridge
