import Mathlib.Algebra.Order.Group.Defs
import Mathlib.Data.List.Count

/-!
# Sliding windows

A rate limiter lets an event happen at time `t` when few enough events lie in the last `w`
time units. This bounds *every* window of length `w`, not only those that end at an event.

* `Windowed w n h` : at most `n` times of the history `h` lie in any half-open window of length
  `w`, open on either side.
* `Windowed.append` : an event at `t` keeps the bound when fewer than `n` times lie after
  `l - w` for some `l ≤ t`. The slack between `l` and `t` is what lets the check be made
  when a slot is reserved and the event be recorded later.
* `dropWhile_eq_filter` : on an ascending history, dropping from the front is filtering.
-/

variable {α : Type*} [AddCommGroup α] [LinearOrder α] [IsOrderedAddMonoid α]

/-- At most `n` times of the history lie in any half-open window of length `w`. -/
structure Windowed (w : α) (n : ℕ) (h : List α) : Prop where
  closedOpen : ∀ a, h.countP (fun t => a ≤ t ∧ t < a + w) ≤ n
  openClosed : ∀ a, h.countP (fun t => a < t ∧ t ≤ a + w) ≤ n

namespace Windowed

variable {w : α} {n : ℕ} {h : List α}

omit [IsOrderedAddMonoid α] in
theorem of_length_le (hn : h.length ≤ n) : Windowed w n h :=
  ⟨fun _ => (List.countP_le_length).trans hn, fun _ => (List.countP_le_length).trans hn⟩

omit [IsOrderedAddMonoid α] in
/-- The order of a history does not matter. -/
theorem perm {h' : List α} (hp : h.Perm h') (hw : Windowed w n h) : Windowed w n h' :=
  ⟨fun a => hp.countP_eq _ ▸ hw.closedOpen a, fun a => hp.countP_eq _ ▸ hw.openClosed a⟩

/-- **An event that finds a free slot keeps every window bounded.** -/
theorem append {l t : α} (hw : Windowed w n h) (hl : l ≤ t)
    (hcount : h.countP (fun x => l - w < x) < n) : Windowed w n (h ++ [t]) := by
  constructor
  · intro a
    rw [List.countP_append, List.countP_singleton]
    split
    case isFalse => exact hw.closedOpen a
    case isTrue ht =>
      have ht : a ≤ t ∧ t < a + w := by simpa using ht
      -- the window holds `t`, so it starts after `l - w`
      have ha : l - w < a := sub_lt_iff_lt_add.mpr (hl.trans_lt ht.2)
      have hle : h.countP (fun x => a ≤ x ∧ x < a + w) ≤ h.countP (fun x => l - w < x) :=
        List.countP_mono_left fun x _ hx => by
          have hx : a ≤ x ∧ x < a + w := by simpa using hx
          simpa using ha.trans_le hx.1
      omega
  · intro a
    rw [List.countP_append, List.countP_singleton]
    split
    case isFalse => exact hw.openClosed a
    case isTrue ht =>
      have ht : a < t ∧ t ≤ a + w := by simpa using ht
      have ha : l - w ≤ a := sub_le_iff_le_add.mpr (hl.trans ht.2)
      have hle : h.countP (fun x => a < x ∧ x ≤ a + w) ≤ h.countP (fun x => l - w < x) :=
        List.countP_mono_left fun x _ hx => by
          have hx : a < x ∧ x ≤ a + w := by simpa using hx
          simpa using ha.trans_lt hx.1
      omega

end Windowed

/-- In an ascending history the expired times are the first ones: dropping them from the front drops
all of them. -/
theorem dropWhile_eq_filter {α : Type*} {expired : α → Bool} {h : List α}
    (hfront : h.Pairwise fun x y => expired y = true → expired x = true) :
    h.dropWhile expired = h.filter fun x => !expired x := by
  induction h with
  | nil => rfl
  | cons t h ih =>
    obtain ⟨ht, hfront⟩ := List.pairwise_cons.mp hfront
    cases hexpired : expired t with
    | true =>
      rw [List.dropWhile_cons_of_pos hexpired, ih hfront, List.filter_cons_of_neg (by simp [hexpired])]
    | false =>
      have hall : ∀ x ∈ t :: h, (!expired x) = true := by
        intro x hx
        cases hx with
        | head => rw [hexpired, Bool.not_false]
        | tail _ hx =>
          cases hx' : expired x with
          | false => rfl
          | true => rw [ht x hx hx'] at hexpired; cases hexpired
      rw [List.dropWhile_cons_of_neg (by simp [hexpired]), List.filter_eq_self.mpr hall]
