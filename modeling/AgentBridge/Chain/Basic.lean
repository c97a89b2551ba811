import Mathlib.Data.Int.Init
import Mathlib.Data.List.Basic
import Mathlib.Data.List.Induction

/-!
# Hash chains

A log whose entries each name the hash of the entry before them. The first entry names a fixed
value, the *genesis*; a log from which the oldest entries were dropped is a chain that begins at
the hash of the last dropped entry.

* `Format` : where an entry keeps the two hashes.
* `Format.head`, `Format.Linked`, `Numbered` : the hash that the next entry has to name, and what
  makes a log a chain with consecutive numbers.
* `Format.linked_append` : a log is a chain when its two parts are.
* `Format.agree` : **chains with the same head agree on every entry**, when a hash determines the
  hash named before it.
-/

namespace HashChain

open List

variable {E H : Type*}

/-- How an entry names its predecessor and itself. -/
structure Format (E H : Type*) where
  prev : E → H
  hash : E → H
  genesis : H

namespace Format

/-- The format of what comes after an entry with hash `h`. -/
def after (F : Format E H) (h : H) : Format E H := { F with genesis := h }

@[simp] theorem after_prev (F : Format E H) (h : H) : (F.after h).prev = F.prev := rfl

@[simp] theorem after_hash (F : Format E H) (h : H) : (F.after h).hash = F.hash := rfl

@[simp] theorem after_genesis (F : Format E H) (h : H) : (F.after h).genesis = h := rfl

@[simp] theorem after_after (F : Format E H) (h h' : H) : (F.after h).after h' = F.after h' := rfl

/-- The hash that the next entry has to name. -/
def head (F : Format E H) : List E → H
  | [] => F.genesis
  | e :: log => (F.after (F.hash e)).head log

/-- Every entry names the hash of the one before it. -/
def Linked (F : Format E H) : List E → Prop
  | [] => True
  | e :: log => F.prev e = F.genesis ∧ (F.after (F.hash e)).Linked log

@[simp] theorem head_nil (F : Format E H) : F.head [] = F.genesis := rfl

@[simp] theorem head_cons (F : Format E H) (e : E) (log : List E) :
    F.head (e :: log) = (F.after (F.hash e)).head log := rfl

@[simp] theorem linked_nil (F : Format E H) : F.Linked [] := trivial

@[simp] theorem linked_cons (F : Format E H) (e : E) (log : List E) :
    F.Linked (e :: log) ↔ F.prev e = F.genesis ∧ (F.after (F.hash e)).Linked log := Iff.rfl

theorem head_append (F : Format E H) (l l' : List E) :
    F.head (l ++ l') = (F.after (F.head l)).head l' := by
  induction l generalizing F with
  | nil => rfl
  | cons e l ih => exact ih (F.after (F.hash e))

theorem head_concat (F : Format E H) (l : List E) (e : E) : F.head (l ++ [e]) = F.hash e := by
  rw [head_append]
  rfl

theorem head_eq (F : Format E H) (l : List E) : F.head l = l.getLast?.elim F.genesis F.hash := by
  induction l using List.reverseRecOn with
  | nil => rfl
  | append_singleton l e => rw [head_concat, getLast?_concat, Option.elim_some]

/-- A log is a chain when its two parts are, the second one after the head of the first. -/
theorem linked_append (F : Format E H) (l l' : List E) :
    F.Linked (l ++ l') ↔ F.Linked l ∧ (F.after (F.head l)).Linked l' := by
  induction l generalizing F with
  | nil => exact (and_iff_right trivial).symm
  | cons e l ih =>
    rw [cons_append, linked_cons, linked_cons, ih, and_assoc]
    rfl

theorem linked_concat (F : Format E H) (l : List E) (e : E) :
    F.Linked (l ++ [e]) ↔ F.Linked l ∧ F.prev e = F.head l := by
  rw [linked_append, linked_cons]
  exact and_congr_right' (and_iff_left trivial)

variable {F : Format E H} {l l' : List E}

/-- What the hash determines agrees where the hashes agree. -/
theorem map_eq_of_map_hash {G : Type*} {g : E → G} (h : l.map F.hash = l'.map F.hash)
    (hinj : ∀ e ∈ l, ∀ e' ∈ l', F.hash e = F.hash e' → g e = g e') : l.map g = l'.map g := by
  induction l generalizing l' with
  | nil => rw [map_eq_nil_iff.mp h.symm]
  | cons e l ih =>
    cases l' with
    | nil => cases h
    | cons e' l' =>
      obtain ⟨hhash, hrest⟩ := List.cons.inj h
      rw [map_cons, map_cons, hinj e mem_cons_self e' mem_cons_self hhash]
      rw [ih hrest fun a ha a' ha' =>
        hinj a (mem_cons_of_mem _ ha) a' (mem_cons_of_mem _ ha')]

theorem Linked.take (h : F.Linked l) (k : ℕ) : F.Linked (l.take k) := by
  rw [← take_append_drop k l] at h
  exact ((F.linked_append _ _).mp h).1

/-- What remains when the oldest entries are dropped. -/
theorem Linked.drop (h : F.Linked l) (k : ℕ) :
    (F.after (F.head (l.take k))).Linked (l.drop k) := by
  rw [← take_append_drop k l] at h
  exact ((F.linked_append _ _).mp h).2

/-- A map that keeps both hashes keeps a chain. -/
theorem Linked.map {f : E → E} (h : F.Linked l)
    (hf : ∀ e ∈ l, F.prev (f e) = F.prev e ∧ F.hash (f e) = F.hash e) : F.Linked (l.map f) := by
  induction l generalizing F with
  | nil => exact trivial
  | cons e l ih =>
    obtain ⟨hprev, hrest⟩ := h
    obtain ⟨hprev', hhash'⟩ := hf e mem_cons_self
    refine ⟨hprev'.trans hprev, ?_⟩
    rw [hhash']
    exact ih hrest fun e' he' => hf e' (mem_cons_of_mem _ he')

theorem head_map {f : E → E} (hf : ∀ e ∈ l, F.hash (f e) = F.hash e) :
    F.head (l.map f) = F.head l := by
  induction l generalizing F with
  | nil => rfl
  | cons e l ih =>
    rw [map_cons, head_cons, head_cons, hf e mem_cons_self]
    exact ih fun e' he' => hf e' (mem_cons_of_mem _ he')

/-- What holds of the genesis and of every hash holds of every hash that an entry names. -/
theorem Linked.forall_prev {P : H → Prop} (h : F.Linked l) (hgenesis : P F.genesis)
    (hhash : ∀ e ∈ l, P (F.hash e)) : ∀ e ∈ l, P (F.prev e) := by
  induction l generalizing F with
  | nil =>
    intro e he
    cases he
  | cons a l ih =>
    refine forall_mem_cons.mpr ⟨by rwa [h.1], ?_⟩
    exact ih (F := F.after (F.hash a)) h.2 (hhash a mem_cons_self)
      fun e he => hhash e (mem_cons_of_mem _ he)

/-- The neighbours of a chain. -/
theorem Linked.prev_eq (h : F.Linked l) {i : ℕ} {e e' : E} (he : l[i]? = some e)
    (he' : l[i + 1]? = some e') : F.prev e' = F.hash e := by
  induction l generalizing F i with
  | nil => cases he
  | cons a l ih =>
    cases i with
    | zero =>
      cases he
      cases l with
      | nil => cases he'
      | cons b l =>
        cases he'
        exact h.2.1
    | succ i => exact ih (F := F.after (F.hash a)) h.2 he he'

/-- **Chains with the same head agree on every entry**, when a hash determines the hash named
before it. The induction is from the end: equal heads give equal heads one entry earlier. -/
theorem agree (hl : F.Linked l) (hl' : F.Linked l') (hlen : l.length = l'.length)
    (hhead : F.head l = F.head l')
    (hinj : ∀ e ∈ l, ∀ e' ∈ l', F.hash e = F.hash e' → F.prev e = F.prev e') :
    l.map F.hash = l'.map F.hash := by
  induction l using List.reverseRecOn generalizing l' with
  | nil => rw [length_eq_zero_iff.mp hlen.symm]
  | append_singleton l e ih =>
    rcases eq_nil_or_concat' l' with rfl | ⟨l', e', rfl⟩
    · simp at hlen
    rw [linked_concat] at hl hl'
    rw [head_concat, head_concat] at hhead
    have hprev : F.prev e = F.prev e' := hinj e (by simp) e' (by simp) hhead
    have hmap : l.map F.hash = l'.map F.hash := by
      refine ih hl.1 hl'.1 (by simpa using hlen) (by rw [← hl.2, ← hl'.2, hprev]) ?_
      intro a ha a' ha'
      exact hinj a (mem_append_left _ ha) a' (mem_append_left _ ha')
    rw [map_append, map_append, hmap, map_singleton, map_singleton, hhead]

end Format

/-! ### Numbers -/

/-- The entries have the numbers `n`, `n + 1` and so on. -/
def Numbered (seq : E → ℤ) (n : ℤ) : List E → Prop
  | [] => True
  | e :: log => seq e = n ∧ Numbered seq (n + 1) log

variable {seq : E → ℤ}

@[simp] theorem numbered_nil (n : ℤ) : Numbered seq n [] := trivial

@[simp] theorem numbered_cons (n : ℤ) (e : E) (log : List E) :
    Numbered seq n (e :: log) ↔ seq e = n ∧ Numbered seq (n + 1) log := Iff.rfl

theorem numbered_append (n : ℤ) (l l' : List E) :
    Numbered seq n (l ++ l') ↔ Numbered seq n l ∧ Numbered seq (n + l.length) l' := by
  induction l generalizing n with
  | nil => simp
  | cons e l ih =>
    have hlen : n + 1 + (l.length : ℤ) = n + ((e :: l).length : ℤ) := by
      rw [length_cons]
      omega
    rw [cons_append, numbered_cons, numbered_cons, ih, and_assoc, hlen]

variable {n : ℤ} {l : List E}

theorem Numbered.getElem? (h : Numbered seq n l) {i : ℕ} {e : E} (he : l[i]? = some e) :
    seq e = n + i := by
  induction l generalizing n i with
  | nil => cases he
  | cons a l ih =>
    cases i with
    | zero =>
      cases he
      rw [h.1]
      omega
    | succ i =>
      rw [ih h.2 he]
      omega

theorem Numbered.drop (h : Numbered seq n l) {k : ℕ} (hk : k ≤ l.length) :
    Numbered seq (n + k) (l.drop k) := by
  rw [← take_append_drop k l, numbered_append, length_take, Nat.min_eq_left hk] at h
  exact h.2

theorem Numbered.take (h : Numbered seq n l) (k : ℕ) : Numbered seq n (l.take k) := by
  rw [← take_append_drop k l, numbered_append] at h
  exact h.1

theorem Numbered.map (h : Numbered seq n l) {f : E → E} (hf : ∀ e, seq (f e) = seq e) :
    Numbered seq n (l.map f) := by
  induction l generalizing n with
  | nil => exact trivial
  | cons e l ih => exact ⟨(hf e).trans h.1, ih h.2⟩

/-- Consecutive numbers ascend. -/
theorem Numbered.le_of_mem (h : Numbered seq n l) {e : E} (he : e ∈ l) : n ≤ seq e := by
  obtain ⟨i, hi⟩ := mem_iff_getElem?.mp he
  rw [h.getElem? hi]
  omega

theorem Numbered.pairwise (h : Numbered seq n l) : l.Pairwise fun a b => seq a < seq b := by
  induction l generalizing n with
  | nil => exact .nil
  | cons e l ih =>
    refine .cons (fun e' he' => ?_) (ih h.2)
    have hle := h.2.le_of_mem he'
    rw [h.1]
    omega

end HashChain
