import Mathlib.Logic.Relation

/-!
# Labelled transition systems with refusals

A component is given a semantics as a transition system whose step is a *partial*
function: performing an action either succeeds with a new state or is refused with an
error, and a refused action leaves the state as it was. This is what a serialized
database transaction looks like from outside.

* `LTS.Reachable.invariant` : the invariant rule.
* `LTS.Reachable.relate` : the same rule for a relation between the two ends of a run.
* `LTS.reachable_drive`, `LTS.reachable_drive_guarded` : a driven state is reachable.
* `LTS.transcript_eq` : a simulation that keeps the answers keeps the transcript.
-/

/-- A labelled transition system with states `S` and labels (actions) `L`. -/
structure LTS (S : Type*) (L : Type*) where
  /-- `step s l s'` : the system can move from `s` to `s'` performing `l`. -/
  step : S → L → S → Prop

namespace LTS

variable {S L E : Type*} (A : LTS S L)

/-- Unlabelled one-step relation. -/
def Step (s s' : S) : Prop := ∃ l, A.step s l s'

/-- `s` is reachable from `s₀` in zero or more steps. -/
def Reachable (s₀ s : S) : Prop := Relation.ReflTransGen A.Step s₀ s

variable {A}

namespace Reachable

@[refl] theorem refl (s : S) : A.Reachable s s := Relation.ReflTransGen.refl

theorem trans {s₁ s₂ s₃ : S} (h₁ : A.Reachable s₁ s₂) (h₂ : A.Reachable s₂ s₃) :
    A.Reachable s₁ s₃ :=
  Relation.ReflTransGen.trans h₁ h₂

theorem of_step {s s' : S} {l : L} (h : A.step s l s') : A.Reachable s s' :=
  Relation.ReflTransGen.single ⟨l, h⟩

/-- Reachable states satisfy every predicate that holds initially and is preserved by
every step (an *inductive invariant*). -/
theorem invariant {I : S → Prop} {s₀ s : S} (h : A.Reachable s₀ s) (h₀ : I s₀)
    (hstep : ∀ s l s', I s → A.step s l s' → I s') : I s := by
  induction h with
  | refl => exact h₀
  | tail _ hst ih =>
    obtain ⟨l, hl⟩ := hst
    exact hstep _ _ _ ih hl

/-- The two ends of a run are related by every reflexive and transitive relation that
each step respects. -/
theorem relate {r : S → S → Prop} (hrefl : ∀ s, r s s)
    (htrans : ∀ s₁ s₂ s₃, r s₁ s₂ → r s₂ s₃ → r s₁ s₃)
    (hstep : ∀ s l s', A.step s l s' → r s s') {s₀ s : S} (h : A.Reachable s₀ s) :
    r s₀ s :=
  h.invariant (I := r s₀) (hrefl s₀) fun s l s' hs hst => htrans _ _ _ hs (hstep s l s' hst)

end Reachable

/-- The steps that satisfy a condition on the state before and the label. -/
def restrict (A : LTS S L) (ok : S → L → Prop) : LTS S L where
  step s l s' := ok s l ∧ A.step s l s'

variable {s : S} {exec : S → L → Except E S}

/-! ### Executable systems -/

/-- The system whose steps are the successful calls of `exec`. -/
def ofExec (exec : S → L → Except E S) : LTS S L where
  step s l s' := exec s l = .ok s'

/-- Perform one action; a refused one leaves the state as it was. -/
def attempt (exec : S → L → Except E S) (s : S) (l : L) : S :=
  match exec s l with
  | .ok s' => s'
  | .error _ => s

/-- Perform the actions in order, skipping those that are refused. -/
def drive (exec : S → L → Except E S) (s : S) (ls : List L) : S :=
  ls.foldl (attempt exec) s

theorem attempt_eq {s' : S} {l : L} (h : exec s l = .ok s') : attempt exec s l = s' := by
  simp only [attempt, h]

theorem step_attempt {l : L} (h : (exec s l).isOk = true) :
    (ofExec exec).step s l (attempt exec s l) := by
  unfold ofExec attempt
  cases hx : exec s l with
  | ok s' => exact hx
  | error e => simp [hx, Except.isOk, Except.toBool] at h

theorem reachable_attempt (exec : S → L → Except E S) (s : S) (l : L) :
    (ofExec exec).Reachable s (attempt exec s l) := by
  unfold attempt
  split
  case h_1 s' h => exact Reachable.of_step h
  case h_2 => exact Reachable.refl s

theorem reachable_drive (exec : S → L → Except E S) (s : S) (ls : List L) :
    (ofExec exec).Reachable s (drive exec s ls) := by
  induction ls generalizing s with
  | nil => exact Reachable.refl s
  | cons l ls ih => exact (reachable_attempt exec s l).trans (ih _)

/-- Actions that do not satisfy the condition are refused. -/
def guarded (ok : S → L → Bool) (e : E) (exec : S → L → Except E S) (s : S) (l : L) : Except E S :=
  if ok s l then exec s l else .error e

theorem reachable_drive_guarded (ok : S → L → Bool) (e : E) (exec : S → L → Except E S) (s : S)
    (ls : List L) : ((ofExec exec).restrict fun s l => ok s l = true).Reachable s
      (drive (guarded ok e exec) s ls) := by
  refine (reachable_drive (guarded ok e exec) s ls).relate (.refl ·) (fun _ _ _ => .trans) ?_
  intro s l s' hst
  refine .of_step (l := l) ?_
  change guarded ok e exec s l = .ok s' at hst
  unfold guarded at hst
  split at hst
  case isTrue hok => exact ⟨hok, hst⟩
  case isFalse => cases hst

/-- An invariant of the actions in the list holds after the run. -/
theorem drive_invariant {I : S → Prop} {ls : List L} (h : I s)
    (hstep : ∀ s l s', l ∈ ls → I s → exec s l = .ok s' → I s') : I (drive exec s ls) := by
  induction ls generalizing s with
  | nil => exact h
  | cons l ls ih =>
    refine ih (s := attempt exec s l) ?_ fun s l' s' hl' => hstep s l' s' (List.mem_cons_of_mem _ hl')
    unfold attempt
    split
    · exact hstep s l _ List.mem_cons_self h ‹_›
    · exact h

section Transcript

variable {S' R O : Type*}

/-- The answers of a machine, each with what the machine shows afterwards. -/
def transcript (step : S → L → R × S) (obs : S → O) : S → List L → List (R × O)
  | _, [] => []
  | s, l :: ls => ((step s l).1, obs (step s l).2) :: transcript step obs (step s l).2 ls

/-- **Simulation.** The relation may look at the actions that are still to come. -/
theorem transcript_eq {step : S → L → R × S} {step' : S' → L → R × S'} {obs : S → O}
    {obs' : S' → O} {r : List L → S → S' → Prop}
    (hstep : ∀ l ls s s', r (l :: ls) s s' →
      (step s l).1 = (step' s' l).1 ∧ r ls (step s l).2 (step' s' l).2)
    (hobs : ∀ ls s s', r ls s s' → obs s = obs' s') {ls : List L} {s : S} {s' : S'}
    (h : r ls s s') : transcript step obs s ls = transcript step' obs' s' ls := by
  induction ls generalizing s s' with
  | nil => rfl
  | cons l ls ih =>
    obtain ⟨hanswer, hnext⟩ := hstep l ls s s' h
    rw [transcript, transcript, hanswer, hobs ls _ _ hnext, ih hnext]

end Transcript

end LTS
