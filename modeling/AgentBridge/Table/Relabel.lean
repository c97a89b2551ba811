import AgentBridge.Table.Sum
import Mathlib.Logic.Embedding.Basic

/-!
# Relabelled tables

Two implementations that draw their own keys keep the same table under different labels.
`Table.relabel f g t` gives every row of `t` the key `f k`, for an injective `f`, and the value
`g v`; lookups, writes, deletions and aggregates all commute with it.
-/

namespace Table

open List

variable {I K V W M : Type*}

/-- The row under its new label. -/
def relabelEntry (f : I ↪ K) (g : V → W) (e : Sigma fun _ : I => V) : Sigma fun _ : K => W :=
  ⟨f e.1, g e.2⟩

theorem keys_map_relabelEntry (f : I ↪ K) (g : V → W) (l : List (Sigma fun _ : I => V)) :
    (l.map (relabelEntry f g)).keys = l.keys.map f := by
  rw [List.keys, List.keys, map_map, map_map]
  rfl

/-- Every row under its new label. -/
def relabel (f : I ↪ K) (g : V → W) (t : Table I V) : Table K W where
  entries := t.entries.map (relabelEntry f g)
  nodupKeys := by
    have hkeys : (t.entries.keys.map f).Nodup := t.nodupKeys.map f.injective
    rwa [← keys_map_relabelEntry f g] at hkeys

theorem entries_relabel (f : I ↪ K) (g : V → W) (t : Table I V) :
    (relabel f g t).entries = t.entries.map (relabelEntry f g) := rfl

@[simp] theorem size_relabel (f : I ↪ K) (g : V → W) (t : Table I V) :
    size (relabel f g t) = size t :=
  length_map _

theorem sum_relabel [AddCommMonoid M] (f : I ↪ K) (g : V → W) (h : K → W → M) (t : Table I V) :
    sum h (relabel f g t) = sum (fun i v => h (f i) (g v)) t := by
  unfold sum
  rw [entries_relabel, map_map]
  rfl

variable [DecidableEq I] [DecidableEq K]

@[simp] theorem lookup_relabel (f : I ↪ K) (g : V → W) (t : Table I V) (i : I) :
    (relabel f g t).lookup (f i) = (t.lookup i).map g := by
  unfold AList.lookup
  rw [entries_relabel]
  induction t.entries with
  | nil => rfl
  | cons e l ih =>
    obtain ⟨j, v⟩ := e
    by_cases hj : j = i
    · subst hj
      rw [map_cons, relabelEntry, dlookup_cons_eq, dlookup_cons_eq]
      rfl
    · have hne : f i ≠ f j := fun h => hj (f.injective h).symm
      rw [map_cons, relabelEntry, dlookup_cons_ne _ _ hne,
        dlookup_cons_ne _ _ (Ne.symm hj), ih]

theorem kerase_map_relabelEntry (f : I ↪ K) (g : V → W) (i : I)
    (l : List (Sigma fun _ : I => V)) :
    (l.map (relabelEntry f g)).kerase (f i) = (l.kerase i).map (relabelEntry f g) := by
  induction l with
  | nil => rfl
  | cons e l ih =>
    by_cases hi : i = e.1
    · have hf : f i = (relabelEntry f g e).1 := congrArg f hi
      rw [map_cons, kerase_cons_eq hf, kerase_cons_eq hi]
    · have hf : f i ≠ (relabelEntry f g e).1 := fun h => hi (f.injective h)
      rw [map_cons, kerase_cons_ne hf, kerase_cons_ne hi, map_cons, ih]

theorem relabel_erase (f : I ↪ K) (g : V → W) (t : Table I V) (i : I) :
    relabel f g (t.erase i) = (relabel f g t).erase (f i) := by
  apply AList.ext
  rw [entries_relabel, entries_erase, entries_erase, entries_relabel, kerase_map_relabelEntry]

theorem relabel_insert (f : I ↪ K) (g : V → W) (t : Table I V) (i : I) (v : V) :
    relabel f g (t.insert i v) = (relabel f g t).insert (f i) (g v) := by
  apply AList.ext
  rw [entries_relabel, AList.entries_insert, AList.entries_insert, entries_relabel,
    kerase_map_relabelEntry]
  rfl

end Table
