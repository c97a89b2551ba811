import Mathlib.Data.List.AList

/-!
# Keyed tables and checked statements

A database table is a finite map from its primary key to its row. Mathlib's `AList`
carries the primary-key constraint as a field, so that a table with two rows for one key
cannot be built; this file adds what a development over such tables needs.

* `require b e` : the checked statement *if not `b`, raise `e`*.
* `Except.Rel` : two computations that succeed or fail together.
* `Table.insertNew` : an `INSERT` that fails when the key is taken.
* `Table.Evolves r` : every row of the first table is still present in the second one, and
  the two versions of the row are related by `r`.
* `Table.Revised rev` : the version relation of a row that is rewritten only under a higher
  revision number.
* `Table.Pinned rev t k n P` : the row at `k` has reached revision `n`, and satisfies `P` as
  long as it is still at that revision. A pin survives every evolution of the table.
-/

/-- Raise `e` unless `b` holds. -/
def require {ε : Type*} (b : Bool) (e : ε) : Except ε Unit :=
  if b then .ok () else .error e

@[simp] theorem require_eq_ok {ε : Type*} {b : Bool} {e : ε} {u : Unit} :
    require b e = .ok u ↔ b = true := by
  unfold require
  split <;> simp_all

theorem require_eq_error {ε : Type*} {b : Bool} {e e' : ε} :
    require b e = .error e' ↔ b = false ∧ e = e' := by
  cases b <;> simp [require]

namespace Except

universe u v

variable {ε : Type u} {α β : Type v}

variable {x : Except ε α} {e : ε} {a : α} {ι : Type*} {l : List ι}

@[simp] theorem bind_eq_ok {f : α → Except ε β} {b : β} :
    (x >>= f) = .ok b ↔ ∃ a, x = .ok a ∧ f a = .ok b := by
  cases x with
  | error e | ok a => simp [bind, Except.bind]

theorem ok_bind (a : α) (f : α → Except ε β) : (.ok a >>= f) = f a := rfl

theorem bind_eq_error {f : α → Except ε β} :
    (x >>= f) = .error e ↔ x = .error e ∨ ∃ a, x = .ok a ∧ f a = .error e := by
  cases x with
  | error e | ok a => simp [bind, Except.bind]

@[simp] theorem pure_eq_ok {b : α} : (pure a : Except ε α) = .ok b ↔ a = b := by
  simp [pure, Except.pure]

@[simp] theorem throw_eq_ok {b : α} : (throw e : Except ε α) = .ok b ↔ False := by
  simp [throw, throwThe, MonadExceptOf.throw]

@[simp] theorem mapError_eq_ok {ε' : Type u} {f : ε → ε'} : x.mapError f = .ok a ↔ x = .ok a := by
  cases x <;> simp [Except.mapError]

theorem toOption_eq_some : x.toOption = some a ↔ x = .ok a := by
  cases x <;> simp [Except.toOption]

/-- The error of a computation that failed. -/
def error? : Except ε α → Option ε
  | .ok _ => none
  | .error e => some e

theorem error?_eq_some : x.error? = some e ↔ x = .error e := by
  cases x <;> simp [error?]

/-- Collecting results that can only be the values of `g` gives the values of `g`. -/
theorem mapM_eq_ok {f : ι → Except ε α} {g : ι → α} (hfg : ∀ i a, f i = .ok a → a = g i)
    {as : List α} (h : l.mapM f = .ok as) : as = l.map g := by
  induction l generalizing as with
  | nil =>
    rw [List.mapM_nil] at h
    cases h
    rfl
  | cons i l ih =>
    rw [List.mapM_cons] at h
    obtain ⟨a, ha, h⟩ := bind_eq_ok.mp h
    obtain ⟨rest, hrest, h⟩ := bind_eq_ok.mp h
    cases h
    rw [hfg i a ha, ih hrest, List.map_cons]

theorem mapM_of_ok {f : ι → Except ε α} {g : ι → α} (h : ∀ i ∈ l, f i = .ok (g i)) :
    l.mapM f = .ok (l.map g) := by
  induction l with
  | nil => rfl
  | cons i l ih =>
    rw [List.mapM_cons, h i List.mem_cons_self, ih fun j hj => h j (List.mem_cons_of_mem _ hj)]
    rfl

theorem forM_eq_ok {f : ι → Except ε PUnit} {u : PUnit} :
    l.forM f = .ok u ↔ ∀ i ∈ l, f i = .ok ⟨⟩ := by
  induction l with
  | nil => exact ⟨fun _ => nofun, fun _ => rfl⟩
  | cons i l ih =>
    rw [show (i :: l).forM f = (f i >>= fun _ => l.forM f) from rfl, bind_eq_ok,
      List.forall_mem_cons, ← ih]
    exact ⟨fun ⟨_, hi, hl⟩ => ⟨hi, hl⟩, fun ⟨hi, hl⟩ => ⟨⟨⟩, hi, hl⟩⟩

/-- What every successful step of a loop preserves holds after the loop. -/
theorem foldlM_invariant {f : α → ι → Except ε α} {I : α → Prop} {a' : α}
    (h : l.foldlM f a = .ok a') (h₀ : I a) (hstep : ∀ i ∈ l, ∀ a a', I a → f a i = .ok a' → I a') :
    I a' := by
  induction l generalizing a with
  | nil =>
    cases h
    exact h₀
  | cons i l ih =>
    rw [List.foldlM_cons] at h
    obtain ⟨a₁, ha₁, h⟩ := bind_eq_ok.mp h
    exact ih h (hstep i List.mem_cons_self a a₁ h₀ ha₁) fun j hj =>
      hstep j (List.mem_cons_of_mem _ hj)

/-- Two computations succeed with related values or fail together; under `Q`, with the same
error. -/
def Rel {α' : Type v} (Q : Prop) (R : α → α' → Prop) : Except ε α → Except ε α' → Prop
  | .ok a, .ok b => R a b
  | .error e, .error e' => Q → e = e'
  | _, _ => False

namespace Rel

variable {α' β' : Type v} {Q : Prop} {R : α → α' → Prop} {x : Except ε α} {y : Except ε α'}

theorem of_eq {x y : Except ε α} (h : x = y) : Rel Q Eq x y := by
  subst h
  cases x <;> simp [Rel]

theorem of_errors {e e' : ε} (hx : x = .error e) (hy : y = .error e') (h : Q → e = e') :
    Rel Q R x y := by
  subst hx hy
  exact h

variable {S : β → β' → Prop}

theorem bind {f : α → Except ε β} {g : α' → Except ε β'} (h : Rel Q R x y)
    (hfg : ∀ a b, x = .ok a → y = .ok b → R a b → Rel Q S (f a) (g b)) :
    Rel Q S (x >>= f) (y >>= g) := by
  cases x with
  | error e =>
    cases y with
    | error e' => exact h
    | ok b => exact h.elim
  | ok a =>
    cases y with
    | error e' => exact h.elim
    | ok b => exact hfg a b rfl rfl h

/-- The same first step on both sides. -/
theorem bind_eq {x y : Except ε α} {f : α → Except ε β} {g : α → Except ε β'} (h : x = y)
    (hfg : ∀ a, y = .ok a → Rel Q S (f a) (g a)) : Rel Q S (x >>= f) (y >>= g) := by
  subst h
  refine (of_eq rfl : Rel Q Eq x x).bind fun a b ha _ hab => ?_
  subst hab
  exact hfg a ha

theorem map {f : α → β} {g : α' → β'} (h : Rel Q R x y)
    (hfg : ∀ a b, x = .ok a → y = .ok b → R a b → S (f a) (g b)) : Rel Q S (x.map f) (y.map g) := by
  cases x with
  | error e =>
    cases y with
    | error e' => exact h
    | ok b => exact h.elim
  | ok a =>
    cases y with
    | error e' => exact h.elim
    | ok b => exact hfg a b rfl rfl h

/-- Where the errors agree too, the two computations are equal. -/
theorem eq {x y : Except ε α} (h : Rel Q Eq x y) (hQ : Q) : x = y := by
  cases x with
  | error e =>
    cases y with
    | error e' => rw [h hQ]
    | ok b => exact h.elim
  | ok a =>
    cases y with
    | error e' => exact h.elim
    | ok b => exact congrArg Except.ok h

end Rel

end Except

/-- A table with primary key `K` and rows `V`. -/
abbrev Table (K V : Type*) := AList fun _ : K => V

namespace Table

variable {K V : Type*} [DecidableEq K]

theorem lookup_insert' (t : Table K V) (k k' : K) (v : V) :
    (AList.insert k v t).lookup k' = if k' = k then some v else t.lookup k' := by
  split
  case isTrue h =>
    subst h
    exact AList.lookup_insert t
  case isFalse h => exact AList.lookup_insert_ne h

theorem lookup_erase' (t : Table K V) (k k' : K) :
    (AList.erase k t).lookup k' = if k' = k then none else t.lookup k' := by
  split
  case isTrue h =>
    subst h
    exact AList.lookup_erase k' t
  case isFalse h => exact AList.lookup_erase_ne h

/-- A row after an insertion is the new one or was there. -/
theorem of_lookup_insert {t : Table K V} {k k' : K} {v v' : V}
    (h : (AList.insert k v t).lookup k' = some v') :
    k = k' ∧ v = v' ∨ k' ≠ k ∧ t.lookup k' = some v' := by
  rw [lookup_insert'] at h
  split at h
  case isTrue hk => exact .inl ⟨hk.symm, Option.some.inj h⟩
  case isFalse hk => exact .inr ⟨hk, h⟩

theorem of_lookup_erase {t : Table K V} {k k' : K} {v : V}
    (h : (AList.erase k t).lookup k' = some v) : k' ≠ k ∧ t.lookup k' = some v := by
  rw [lookup_erase'] at h
  split at h
  case isTrue => cases h
  case isFalse hk => exact ⟨hk, h⟩

/-- Deleting a list of keys. -/
theorem lookup_foldl_erase (ks : List K) (t : Table K V) (k : K) :
    (ks.foldl (fun t k => AList.erase k t) t).lookup k =
      if k ∈ ks then none else t.lookup k := by
  induction ks generalizing t with
  | nil => simp
  | cons k' ks ih =>
    rw [List.foldl_cons, ih, lookup_erase']
    by_cases hk : k = k' <;> simp [hk]

/-- `INSERT` under the primary-key constraint. -/
def insertNew {ε : Type*} (t : Table K V) (k : K) (v : V) (e : ε) : Except ε (Table K V) :=
  match t.lookup k with
  | none => .ok (AList.insert k v t)
  | some _ => .error e

@[simp] theorem insertNew_eq_ok {ε : Type*} {t t' : Table K V} {k : K} {v : V} {e : ε} :
    t.insertNew k v e = .ok t' ↔ t.lookup k = none ∧ AList.insert k v t = t' := by
  unfold insertNew
  split <;> simp_all

/-! ### Tables whose rows are revised but never deleted -/

/-- Every row of `t` is still present in `t'`, in a version related to it by `r`. -/
def Evolves (r : V → V → Prop) (t t' : Table K V) : Prop :=
  ∀ k v, t.lookup k = some v → ∃ v', t'.lookup k = some v' ∧ r v v'

namespace Evolves

variable {r : V → V → Prop} {t t' t'' : Table K V}

theorem refl (hr : ∀ v, r v v) (t : Table K V) : Evolves r t t :=
  fun _ v h => ⟨v, h, hr v⟩

theorem trans (hr : ∀ a b c, r a b → r b c → r a c) (h : Evolves r t t')
    (h' : Evolves r t' t'') : Evolves r t t'' := by
  intro k v hv
  obtain ⟨v', hv', hvv'⟩ := h k v hv
  obtain ⟨v'', hv'', hvv''⟩ := h' k v' hv'
  exact ⟨v'', hv'', hr _ _ _ hvv' hvv''⟩

/-- Writing one row evolves the table when the new version is related to the old one. -/
theorem insert (hr : ∀ v, r v v) {k : K} {v : V}
    (h : ∀ old, t.lookup k = some old → r old v) : Evolves r t (AList.insert k v t) := by
  intro k' old hold
  rw [lookup_insert']
  by_cases hk : k' = k
  · subst hk
    exact ⟨v, by simp, h old hold⟩
  · exact ⟨old, by simp [hk, hold], hr old⟩

end Evolves

/-- The row is the same, or was rewritten under a higher revision. -/
def Revised (rev : V → ℕ) (v v' : V) : Prop := v' = v ∨ rev v < rev v'

namespace Revised

variable {rev : V → ℕ}

theorem refl (v : V) : Revised rev v v := Or.inl rfl

theorem trans (a b c : V) (h : Revised rev a b) (h' : Revised rev b c) : Revised rev a c := by
  rcases h with rfl | h
  · exact h'
  · rcases h' with rfl | h'
    · exact Or.inr h
    · exact Or.inr (Nat.lt_trans h h')

theorem le {v v' : V} (h : Revised rev v v') : rev v ≤ rev v' := by
  rcases h with rfl | h
  · exact Nat.le_refl _
  · exact Nat.le_of_lt h

end Revised

/-- The row at `k` has reached revision `n`, and satisfies `P` while it stays there. -/
def Pinned (rev : V → ℕ) (t : Table K V) (k : K) (n : ℕ) (P : V → Prop) : Prop :=
  ∃ v, t.lookup k = some v ∧ n ≤ rev v ∧ (rev v = n → P v)

/-- **A pin survives every evolution**: a rewritten row has left the pinned revision. -/
theorem Pinned.evolves {rev : V → ℕ} {t t' : Table K V} {k : K} {n : ℕ} {P : V → Prop}
    (h : Pinned rev t k n P) (he : Evolves (Revised rev) t t') : Pinned rev t' k n P := by
  obtain ⟨v, hv, hn, hP⟩ := h
  obtain ⟨v', hv', hvv'⟩ := he k v hv
  refine ⟨v', hv', Nat.le_trans hn hvv'.le, fun heq => ?_⟩
  rcases hvv' with rfl | hlt
  · exact hP heq
  · omega

end Table
