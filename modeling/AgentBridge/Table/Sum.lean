import AgentBridge.Table.Basic
import Mathlib.Algebra.BigOperators.Group.List.Basic
import Mathlib.Algebra.Order.BigOperators.Group.List

/-!
# Aggregates over a table

`Table.sum f t` is the aggregate `SELECT SUM(f) FROM t`. It changes in a known way when one
row is written or deleted, and it is monotone in the summand.

* `sum_insert`, `sum_erase` : what one write or one deletion does to an aggregate.
* `sum_le_sum` : monotonicity in the summand.
* `size` : the number of rows, as an aggregate.
-/

namespace Table

open AList

variable {K V M : Type*} [DecidableEq K] [AddCommMonoid M]

/-- Aggregate a column over all rows. -/
def sum (f : K → V → M) (t : Table K V) : M := (t.entries.map fun e => f e.1 e.2).sum

/-- The number of rows. -/
def size (t : Table K V) : ℕ := t.entries.length

omit [DecidableEq K] in
@[simp] theorem sum_empty (f : K → V → M) : sum f (∅ : Table K V) = 0 := rfl

omit [DecidableEq K] in
theorem size_eq_sum (t : Table K V) : size t = sum (fun _ _ => 1) t := by
  simp [size, sum]

variable {f g : K → V → M} {t : Table K V} {k : K} {v : V}

omit [DecidableEq K] in
theorem sum_congr (h : ∀ e ∈ t.entries, f e.1 e.2 = g e.1 e.2) : sum f t = sum g t :=
  congrArg List.sum (List.map_congr_left h)

theorem entries_erase (t : Table K V) (k : K) : (t.erase k).entries = t.entries.kerase k := rfl

/-- Deleting a row takes its summand out of the aggregate. -/
theorem sum_erase (f : K → V → M) (h : t.lookup k = some v) :
    f k v + sum f (t.erase k) = sum f t := by
  obtain ⟨entries, hnodup⟩ := t
  have hmem : (⟨k, v⟩ : Sigma fun _ : K => V) ∈ entries := mem_lookup_iff.mp h
  obtain ⟨w, l₁, l₂, hk, rfl, herase⟩ := List.exists_of_kerase (List.mem_keys_of_mem hmem)
  have hv : (⟨k, w⟩ : Sigma fun _ : K => V) ∈ l₁ ++ ⟨k, w⟩ :: l₂ := by simp
  obtain rfl : w = v := hnodup.eq_of_mk_mem hv hmem
  simp only [sum, entries_erase, herase, List.map_append, List.map_cons, List.sum_append,
    List.sum_cons]
  exact add_left_comm _ _ _

theorem erase_of_lookup_none (h : t.lookup k = none) : t.erase k = t := by
  apply AList.ext
  exact List.kerase_of_notMem_keys (lookup_eq_none.mp h)

theorem entries_insert_new (v : V) (h : t.lookup k = none) :
    (t.insert k v).entries = ⟨k, v⟩ :: t.entries := by
  rw [entries_insert, List.kerase_of_notMem_keys (lookup_eq_none.mp h)]

/-- Writing a row puts its summand in the place of the old one. -/
theorem sum_insert_erase (f : K → V → M) (t : Table K V) (k : K) (v : V) :
    sum f (t.insert k v) = f k v + sum f (t.erase k) := by
  simp [sum, entries_insert, entries_erase]

theorem sum_insert (f : K → V → M) (h : t.lookup k = none) :
    sum f (t.insert k v) = f k v + sum f t := by
  rw [sum_insert_erase, erase_of_lookup_none h]

/-- Rewriting a row exchanges its summand. -/
theorem sum_insert_some (f : K → V → M) {old : V} (v : V) (h : t.lookup k = some old) :
    f k old + sum f (t.insert k v) = f k v + sum f t := by
  rw [sum_insert_erase, ← sum_erase f h, add_left_comm]

/-- A new row leaves the summands of the other rows alone. -/
theorem sum_insert_congr (v : V) (h : t.lookup k = none)
    (hfg : ∀ k' v', k' ≠ k → f k' v' = g k' v') : sum f (t.insert k v) = f k v + sum g t := by
  rw [sum_insert f h]
  congr 1
  refine sum_congr fun e he => hfg e.1 e.2 ?_
  intro hk
  have hmem : t.lookup e.1 = some e.2 := mem_lookup_iff.mpr he
  rw [hk, h] at hmem
  cases hmem

omit [DecidableEq K] in
theorem sum_add (f g : K → V → M) (t : Table K V) :
    sum (fun k v => f k v + g k v) t = sum f t + sum g t :=
  List.sum_map_add

/-- Two summands that differ in one row only. -/
theorem sum_eq_of_ne (h : t.lookup k = some v) (hfg : ∀ k' v', k' ≠ k → f k' v' = g k' v')
    (hg : g k v = 0) : sum f t = f k v + sum g t := by
  rw [← sum_erase f h, ← sum_erase g h, hg, zero_add]
  congr 1
  refine sum_congr fun e he => hfg e.1 e.2 ?_
  intro hk
  have hmem : (t.erase k).lookup e.1 = some e.2 := mem_lookup_iff.mpr he
  rw [hk, lookup_erase] at hmem
  cases hmem

/-- The joined rows of two tables, aggregated from either side. -/
theorem sum_join {W : Type*} (f : K → V → W → M) (t : Table K V) (u : Table K W) :
    sum (fun k v => (u.lookup k).elim 0 (f k v)) t =
      sum (fun k w => (t.lookup k).elim 0 fun v => f k v w) u := by
  induction t using AList.insertRec with
  | H0 => simp [sum]
  | IH k v t hk ih =>
    have hnone : t.lookup k = none := lookup_eq_none.mpr hk
    have hother : ∀ k' w, k' ≠ k →
        (((t.insert k v).lookup k').elim 0 fun v => f k' v w) =
          (t.lookup k').elim 0 fun v => f k' v w := by
      intro k' w hk'
      rw [lookup_insert', if_neg hk']
    rw [sum_insert _ hnone, ih]
    cases hu : u.lookup k with
    | none =>
      rw [Option.elim_none, zero_add]
      refine sum_congr fun e he => (hother e.1 e.2 fun heq => ?_).symm
      have hmem : u.lookup e.1 = some e.2 := mem_lookup_iff.mpr he
      rw [heq, hu] at hmem
      cases hmem
    | some w =>
      rw [sum_eq_of_ne hu hother (by simp [hnone])]
      simp

omit [DecidableEq K] in
/-- Counting rows is an aggregate. -/
theorem countP_entries (p : (Sigma fun _ : K => V) → Bool) (t : Table K V) :
    t.entries.countP p = sum (fun k v => if p ⟨k, v⟩ then 1 else 0) t := by
  unfold sum
  induction t.entries with
  | nil => rfl
  | cons e l ih =>
    rw [List.countP_cons, List.map_cons, List.sum_cons, ih, add_comm]

theorem size_erase (h : t.lookup k = some v) : 1 + size (t.erase k) = size t := by
  simpa only [size_eq_sum] using sum_erase (fun _ _ => 1) h

/-- A deletion never adds a row. -/
theorem size_erase_le (t : Table K V) (k : K) : size (t.erase k) ≤ size t :=
  (List.kerase_sublist k t.entries).length_le

theorem size_insert_le (t : Table K V) (k : K) (v : V) : size (t.insert k v) ≤ 1 + size t := by
  rw [size_eq_sum, sum_insert_erase, ← size_eq_sum]
  exact Nat.add_le_add_left (size_erase_le t k) 1

section Order

variable [PartialOrder M] [IsOrderedAddMonoid M]

variable {f : K → V → M}

omit [DecidableEq K] in
/-- An aggregate is monotone in its summand. -/
theorem sum_le_sum {g : K → V → M} {t : Table K V} (h : ∀ e ∈ t.entries, f e.1 e.2 ≤ g e.1 e.2) :
    sum f t ≤ sum g t :=
  List.sum_le_sum h

/-- Deleting a row does not increase an aggregate of nonnegative summands. -/
theorem sum_erase_le (hf : ∀ k v, 0 ≤ f k v) (t : Table K V) (k : K) :
    sum f (t.erase k) ≤ sum f t := by
  cases h : t.lookup k with
  | none => rw [erase_of_lookup_none h]
  | some v =>
    rw [← sum_erase f h]
    exact le_add_of_nonneg_left (hf k v)

/-- Writing a row increases such an aggregate by at most its summand. -/
theorem sum_insert_le (hf : ∀ k v, 0 ≤ f k v) (t : Table K V) (k : K) (v : V) :
    sum f (t.insert k v) ≤ f k v + sum f t := by
  rw [sum_insert_erase]
  exact add_le_add_right (sum_erase_le hf t k) (f k v)

end Order

end Table
