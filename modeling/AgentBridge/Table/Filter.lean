import AgentBridge.Table.Sum
import Mathlib.Algebra.Order.Group.Nat

/-!
# A table and a part of it

`Table.filter p t` keeps the rows whose key satisfies `p`. A computation on the whole table is
compared with the same computation on the part by `Except.RelUnless`: the whole may be refused for
a reason of its own, such as a shared limit, and otherwise both agree.

* `lookup_filter`, `filter_insert` : rows of the part are read and written in the same way.
* `sum_filter_le` : an aggregate over the part is smaller.
* `Except.RelUnless.bind` : the comparison goes through a sequence of steps.
* `Except.mapM_filter` : leaving out what cannot fail does not change whether a scan fails.
-/

namespace Except

open List

universe u v

variable {ε : Type u} {α α' β β' : Type v}

/-- `x` fails with a fault in `S`, or it agrees with `y` in its error and up to `R` in its
result. -/
def RelUnless (S : ε → Prop) (R : α → α' → Prop) (x : Except ε α) (y : Except ε α') : Prop :=
  (∃ e, S e ∧ x = .error e) ∨ Rel True R x y

namespace RelUnless

variable {S : ε → Prop} {R : α → α' → Prop} {x : Except ε α} {y : Except ε α'}

theorem of_eq {x y : Except ε α} (h : x = y) : RelUnless S Eq x y := .inr (Rel.of_eq h)

theorem of_ok {a : α} {b : α'} (h : R a b) : RelUnless S R (.ok a) (.ok b) := .inr h

theorem bind {T : β → β' → Prop} {f : α → Except ε β} {g : α' → Except ε β'}
    (h : RelUnless S R x y)
    (hfg : ∀ a b, x = .ok a → y = .ok b → R a b → RelUnless S T (f a) (g b)) :
    RelUnless S T (x >>= f) (y >>= g) := by
  rcases h with ⟨e, he, rfl⟩ | h
  · exact .inl ⟨e, he, rfl⟩
  · cases x with
    | error e =>
      cases y with
      | error e' => exact .inr h
      | ok b => exact h.elim
    | ok a =>
      cases y with
      | error e' => exact h.elim
      | ok b => exact hfg a b rfl rfl h

/-- A step that is the same on both sides. -/
theorem bind_eq {x y : Except ε α} {T : β → β' → Prop} {f : α → Except ε β}
    {g : α → Except ε β'} (h : x = y) (hfg : ∀ a, y = .ok a → RelUnless S T (f a) (g a)) :
    RelUnless S T (x >>= f) (y >>= g) := by
  subst h
  refine (of_eq rfl : RelUnless S Eq x x).bind fun a b ha _ hab => ?_
  subst hab
  exact hfg a ha

/-- A check that only the whole can fail, and then for a reason in `S`. -/
theorem of_require {b b' : Bool} {e : ε} (he : S e) (h : b = true → b' = true) :
    RelUnless S (fun _ _ => True) (require b e) (require b' e) := by
  cases b with
  | false => exact .inl ⟨e, he, rfl⟩
  | true =>
    rw [h rfl]
    exact of_ok trivial

end RelUnless

/-- Leaving out what cannot fail does not change whether a scan fails, nor how. -/
theorem mapM_filter {ι : Type*} {f : ι → Except ε α} {p : ι → Bool} (l : List ι)
    (h : ∀ i ∈ l, p i = false → ∃ a, f i = .ok a) :
    Rel True (fun as bs => List.Sublist bs as) (l.mapM f) ((l.filter p).mapM f) := by
  induction l with
  | nil => exact List.Sublist.refl _
  | cons i l ih =>
    have ih := ih fun j hj => h j (mem_cons_of_mem _ hj)
    rw [mapM_cons]
    cases hp : p i with
    | true =>
      rw [List.filter_cons_of_pos hp, mapM_cons]
      refine Rel.bind_eq rfl fun a _ => ?_
      refine ih.bind fun as bs _ _ hsub => ?_
      exact hsub.cons_cons a
    | false =>
      rw [List.filter_cons_of_neg (by simp [hp])]
      obtain ⟨a, ha⟩ := h i mem_cons_self hp
      rw [ha]
      show Rel True _ (l.mapM f >>= fun as => pure (a :: as)) _
      cases hl : l.mapM f with
      | error e =>
        rw [hl] at ih
        exact ih
      | ok as =>
        rw [hl] at ih
        cases hr : (l.filter p).mapM f with
        | error e =>
          rw [hr] at ih
          exact ih.elim
        | ok bs =>
          rw [hr] at ih
          exact List.Sublist.cons a ih

end Except

namespace Table

variable {K V : Type*}

/-- The rows whose key satisfies `p`. -/
def filter (p : K → Bool) (t : Table K V) : Table K V :=
  ⟨t.entries.filter fun e => p e.1, t.nodupKeys.sublist List.filter_sublist⟩

theorem entries_filter (p : K → Bool) (t : Table K V) :
    (filter p t).entries = t.entries.filter fun e => p e.1 := rfl

theorem sum_filter_le (p : K → Bool) (f : K → V → ℕ) (t : Table K V) :
    sum f (filter p t) ≤ sum f t :=
  (List.filter_sublist.map _).sum_le_sum fun _ _ => Nat.zero_le _

theorem countP_filter (p : K → Bool) (t : Table K V) {q : (Sigma fun _ : K => V) → Bool}
    (h : ∀ e, q e = true → p e.1 = true) : (filter p t).entries.countP q = t.entries.countP q := by
  rw [entries_filter, List.countP_filter]
  refine List.countP_congr fun e _ => ?_
  rw [Bool.and_eq_true]
  exact ⟨fun hq => hq.1, fun hq => ⟨hq, h e hq⟩⟩

theorem filter_entries_filter (p : K → Bool) (t : Table K V)
    {q : (Sigma fun _ : K => V) → Bool} (h : ∀ e, q e = true → p e.1 = true) :
    (filter p t).entries.filter q = t.entries.filter q := by
  rw [entries_filter, List.filter_filter]
  refine List.filter_congr fun e _ => ?_
  cases hq : q e with
  | false => rfl
  | true => rw [h e hq, Bool.and_self]

/-- The rows that satisfy `p`. -/
def keep (p : V → Bool) (t : Table K V) : Table K V :=
  ⟨t.entries.filter fun e => p e.2, t.nodupKeys.sublist List.filter_sublist⟩

variable [DecidableEq K]

theorem lookup_keep (p : V → Bool) (t : Table K V) (k : K) :
    (keep p t).lookup k = (t.lookup k).filter p := by
  refine Option.ext fun v => ?_
  show v ∈ (keep p t).lookup k ↔ v ∈ (t.lookup k).filter p
  rw [AList.mem_lookup_iff, Option.mem_filter_iff, AList.mem_lookup_iff]
  exact List.mem_filter

theorem lookup_filter (p : K → Bool) (t : Table K V) (k : K) :
    (filter p t).lookup k = if p k then t.lookup k else none := by
  refine Option.ext fun v => ?_
  show v ∈ (filter p t).lookup k ↔ v ∈ if p k then t.lookup k else none
  rw [AList.mem_lookup_iff, entries_filter, List.mem_filter]
  by_cases hp : p k = true
  · rw [if_pos hp]
    exact ⟨fun h => AList.mem_lookup_iff.mpr h.1, fun h => ⟨AList.mem_lookup_iff.mp h, hp⟩⟩
  · rw [if_neg hp]
    exact ⟨fun h => absurd h.2 hp, fun h => by cases h⟩

theorem kerase_filter {p : K → Bool} {k : K} (hp : p k = true)
    (l : List (Sigma fun _ : K => V)) :
    (l.kerase k).filter (fun e => p e.1) = (l.filter fun e => p e.1).kerase k := by
  have hpos : ∀ (e : Sigma fun _ : K => V) l, p e.1 = true →
      (e :: l).filter (fun e => p e.1) = e :: l.filter fun e => p e.1 := by
    intro e l he
    exact List.filter_cons_of_pos he
  have hneg : ∀ (e : Sigma fun _ : K => V) l, ¬p e.1 = true →
      (e :: l).filter (fun e => p e.1) = l.filter fun e => p e.1 := by
    intro e l he
    exact List.filter_cons_of_neg he
  induction l with
  | nil => rfl
  | cons e l ih =>
    by_cases hk : k = e.1
    · have he : p e.1 = true := hk ▸ hp
      rw [List.kerase_cons_eq hk, hpos e l he, List.kerase_cons_eq hk]
    · rw [List.kerase_cons_ne hk]
      by_cases he : p e.1 = true
      · rw [hpos _ _ he, hpos _ _ he, List.kerase_cons_ne hk, ih]
      · rw [hneg _ _ he, hneg _ _ he, ih]

/-- A row of the part is written in the same way. -/
theorem filter_insert {p : K → Bool} {k : K} (hp : p k = true) (t : Table K V) (v : V) :
    filter p (t.insert k v) = (filter p t).insert k v := by
  apply AList.ext
  rw [entries_filter, AList.entries_insert, AList.entries_insert, entries_filter,
    ← kerase_filter hp]
  exact List.filter_cons_of_pos hp

end Table
