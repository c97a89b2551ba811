import Mathlib.Algebra.BigOperators.Group.List.Basic
import Mathlib.Algebra.Group.Basic

/-!
# Counters kept by triggers

An aggregate of some data (a number of rows, a sum over them) is kept in a counter beside the data.
A trigger adds to the counter what each change does to the aggregate, and creates a missing counter
from the data it sees. What it sees depends on when it runs:

* an *immediate* trigger runs right after its change and sees that change only (`immediate`);
* a *deferred* trigger runs after all the changes, and sees them all each time (`deferred`).

An immediate trigger keeps the counter exact (`Exact.immediate`). A deferred one does so when the
counter exists before the changes (`exact_deferred_some`). When it creates the counter it has
already seen the changes whose triggers are still to come, and these are counted twice: the counter
is exact only if they add up to zero (`exact_deferred_none`).
-/

namespace Aggregate

/-- How a trigger keeps a counter: what each event adds, and which events create it. -/
structure Rule (E G : Type*) where
  delta : E → G
  creates : E → Bool

variable {E G : Type*} [AddCommGroup G] (A : Rule E G)

/-- A trigger that runs right after its change; `total` is the aggregate it sees. -/
def Rule.immediate (total : G) (c : Option G) (e : E) : Option G :=
  match c with
  | some c => some (c + A.delta e)
  | none => if A.creates e then some (total - A.delta e + A.delta e) else none

/-- A trigger that runs after all changes; `total` is the aggregate it sees. -/
def Rule.deferred (total : G) (c : Option G) (e : E) : Option G :=
  match c with
  | some c => some (c + A.delta e)
  | none => if A.creates e then some total else none

/-- The events that a deferred trigger handles after it has created the counter. -/
def Rule.late (es : List E) : List E := (es.dropWhile fun e => !A.creates e).tail

/-- The counter is missing, or it is the aggregate. -/
def Exact (c : Option G) (total : G) : Prop := ∀ x ∈ c, x = total

variable {A} {c : Option G} {x total total' : G} {e : E} {es : List E}

omit [AddCommGroup G] in
@[simp] theorem exact_none : Exact (none : Option G) total := fun x hx => by cases hx

omit [AddCommGroup G] in
@[simp] theorem exact_some : Exact (some x) total ↔ x = total := by
  simp [Exact]

theorem Exact.immediate (h : Exact c total) (htotal : total' = total + A.delta e) :
    Exact (A.immediate total' c e) total' := by
  cases c with
  | some x =>
    rw [exact_some] at h
    rw [Rule.immediate, exact_some, h, htotal]
  | none =>
    unfold Rule.immediate
    by_cases hc : A.creates e = true
    · simp [hc]
    · simp [hc]

/-! ### Deferred triggers -/

omit [AddCommGroup G] in
theorem late_of_creates_false (h : ∀ e ∈ es, A.creates e = false) : A.late es = [] := by
  unfold Rule.late
  induction es with
  | nil => rfl
  | cons e es ih =>
    have he : A.creates e = false := h e List.mem_cons_self
    rw [List.dropWhile_cons_of_pos (by simp [he])]
    exact ih fun e' he' => h e' (List.mem_cons_of_mem _ he')

omit [AddCommGroup G] in
theorem late_of_length_le_one (h : es.length ≤ 1) : A.late es = [] := by
  match es, h with
  | [], _ => rfl
  | [e], _ =>
    by_cases hc : A.creates e = true <;> simp [Rule.late, hc]

theorem foldl_deferred_some (es : List E) (x : G) :
    es.foldl (A.deferred total) (some x) = some (x + (es.map A.delta).sum) := by
  induction es generalizing x with
  | nil => simp
  | cons e es ih => simp [Rule.deferred, ih, add_assoc]

/-- What a created counter holds at the end: the aggregate, and the late events once more. -/
theorem foldl_deferred_none (es : List E) :
    es.foldl (A.deferred total) none =
      if es.any A.creates then some (total + ((A.late es).map A.delta).sum) else none := by
  induction es with
  | nil => rfl
  | cons e es ih =>
    by_cases hc : A.creates e = true
    · simp [Rule.deferred, Rule.late, hc, foldl_deferred_some]
    · simpa [Rule.deferred, Rule.late, hc] using ih

theorem exact_deferred_some (htotal : total' = total + (es.map A.delta).sum) :
    Exact (es.foldl (A.deferred total') (some total)) total' := by
  rw [foldl_deferred_some, exact_some, htotal]

theorem exact_deferred_none :
    Exact (es.foldl (A.deferred total) none) total ↔ ((A.late es).map A.delta).sum = 0 := by
  rw [foldl_deferred_none]
  by_cases hc : es.any A.creates = true
  · simp [hc]
  · -- Nothing creates the counter, so no event is late.
    have hlate : A.late es = [] := by
      refine late_of_creates_false fun e he => ?_
      by_contra hcreates
      exact hc (List.any_eq_true.mpr ⟨e, he, by simpa using hcreates⟩)
    simp [hc, hlate]

theorem isSome_foldl_deferred (h : c.isSome = true) :
    (es.foldl (A.deferred total) c).isSome = true := by
  cases c with
  | some x => rw [foldl_deferred_some, Option.isSome_some]
  | none => cases h

end Aggregate
