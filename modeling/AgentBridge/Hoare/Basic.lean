import AgentBridge.Table.Basic

/-!
# Programs with a state and exceptions

A program that raises keeps what it has done to the state. `Prog.Triple P x Q E` says that `x`, from
a state with `P`, ends with `Q` if it returns and with `E` if it raises. The rules follow the
constructs of a program; `E` is mostly an invariant that every statement keeps.

* `Prog` : programs.
* `Prog.check` : a computation that may raise and has no state.
* `Prog.step` : a statement that changes the state or raises.
* `Prog.Triple` : pre- and postconditions, with the rules `pure`, `bind`, `check`, `step`.
-/

universe u

/-- A program with state `σ` and exceptions `ε`. -/
abbrev Prog (σ ε α : Type u) : Type u := ExceptT ε (StateM σ) α

namespace Prog

variable {σ ε α β : Type u}

/-- Run a program. -/
def exec (x : Prog σ ε α) (s : σ) : Except ε α × σ := StateT.run (ExceptT.run x) s

/-- A computation without a state. -/
def check (x : Except ε α) : Prog σ ε α := ExceptT.mk (pure x)

/-- A statement that changes the state or raises. -/
def step (f : σ → Except ε (α × σ)) : Prog σ ε α := ExceptT.mk fun s =>
  match f s with
  | .ok (a, s') => (.ok a, s')
  | .error e => (.error e, s)

theorem exec_check (x : Except ε α) (s : σ) : exec (check x) s = (x, s) := rfl

theorem exec_bind (x : Prog σ ε α) (f : α → Prog σ ε β) (s : σ) :
    exec (x >>= f) s = match exec x s with
      | (.ok a, s') => exec (f a) s'
      | (.error e, s') => (.error e, s') := by
  show StateT.run (ExceptT.run x >>= ExceptT.bindCont f) s = _
  unfold exec
  cases h : StateT.run (ExceptT.run x) s with
  | mk r s' =>
    rw [StateT.run_bind, h]
    cases r with
    | ok a => rfl
    | error e => rfl

/-- From `P`, the program returns with `Q` or raises with `E`. -/
def Triple (P : σ → Prop) (x : Prog σ ε α) (Q : α → σ → Prop) (E : σ → Prop) : Prop :=
  ∀ s, P s → match exec x s with
    | (.ok a, s') => Q a s'
    | (.error _, s') => E s'

namespace Triple

variable {P : σ → Prop} {Q : α → σ → Prop} {R : β → σ → Prop} {E : σ → Prop}

variable {x : Prog σ ε α}

theorem bind {f : α → Prog σ ε β} (hx : Triple P x Q E) (hf : ∀ a, Triple (Q a) (f a) R E) :
    Triple P (x >>= f) R E := by
  intro s hs
  rw [exec_bind]
  have h := hx s hs
  cases heq : exec x s with
  | mk r s' =>
    rw [heq] at h
    cases r with
    | ok a => exact hf a s' h
    | error e => exact h

theorem pure {a : α} (h : ∀ s, P s → Q a s) : Triple P (Pure.pure a : Prog σ ε α) Q E := h

/-- A check knows what has been computed if it passes. -/
theorem check {x : Except ε α} (hok : ∀ a s, P s → x = .ok a → Q a s) (herror : ∀ s, P s → E s) :
    Triple P (Prog.check x) Q E := by
  intro s hs
  rw [exec_check]
  cases x with
  | ok a => exact hok a s hs rfl
  | error e => exact herror s hs

theorem step {f : σ → Except ε (α × σ)} (hok : ∀ s a s', P s → f s = .ok (a, s') → Q a s')
    (herror : ∀ s e, P s → f s = .error e → E s) : Triple P (Prog.step f) Q E := by
  intro s hs
  show match (match f s with
    | .ok (a, s') => ((.ok a, s') : Except ε α × σ)
    | .error e => (.error e, s)) with
    | (.ok a, s') => Q a s'
    | (.error _, s') => E s'
  cases h : f s with
  | ok r => exact hok s r.1 r.2 hs h
  | error e => exact herror s e hs h

/-- A weaker postcondition. -/
theorem mono {Q' : α → σ → Prop} (h : Triple P x Q E) (hQ : ∀ a s, Q a s → Q' a s) :
    Triple P x Q' E := by
  intro s hs
  have hx := h s hs
  cases heq : exec x s with
  | mk r s' =>
    rw [heq] at hx
    cases r with
    | ok a => exact hQ a s' hx
    | error e => exact hx

/-- A precondition with a witness. -/
theorem exists_pre {ι : Sort*} {P : ι → σ → Prop} (h : ∀ i, Triple (P i) x Q E) :
    Triple (fun s => ∃ i, P i s) x Q E := by
  rintro s ⟨i, hi⟩
  exact h i s hi

/-- A loop keeps its invariant. -/
theorem forM {ι : Type u} {f : ι → Prog σ ε PUnit} (h : ∀ i, Triple P (f i) (fun _ => P) E)
    (l : List ι) : Triple P (l.forM f) (fun _ => P) E := by
  induction l with
  | nil => exact pure fun s hs => hs
  | cons i l ih => exact (h i).bind fun _ => ih

theorem end_state {I : σ → Prop} (h : Triple P x (fun _ => I) I) {s : σ} (hs : P s) :
    I (exec x s).2 := by
  have hx := h s hs
  cases heq : exec x s with
  | mk r s' =>
    rw [heq] at hx
    cases r with
    | ok a => exact hx
    | error e => exact hx

end Triple

end Prog
