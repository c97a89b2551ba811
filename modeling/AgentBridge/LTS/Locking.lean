import AgentBridge.Table.Basic
import Mathlib.Data.List.Chain

/-!
# Transactions under locks

Workers run transactions with savepoints on shared data. A transaction keeps its writes to itself
until it commits; a lock that it takes is held until it ends, or until it goes back to a savepoint
set before the lock was taken. Two transactions never hold conflicting locks. This is strict
two-phase locking, as a database does it under the isolation level *read committed*: a statement
reads the committed data with the writes of its own transaction.

That every write is made under its lock is not enforced here; it is an obligation on who writes.

* `Discipline` : which locks conflict, and which lock a write needs.
* `Store`, `step` : committed data, open transactions and one step of one worker.
* `Ordered` : the invariant of the lock table.
* `Ordered.step` : every step keeps it, when writes are made under their locks.
-/

namespace Locking

open List AList

variable {D K W : Type*}

/-- Which locks conflict, what a write does and which lock it needs. -/
structure Discipline (D K W : Type*) where
  conflict : K → K → Bool
  symm : ∀ k k', conflict k k' = conflict k' k
  apply : D → W → D
  guard : W → K

/-- The locks taken and the writes made so far. -/
structure Frame (K W : Type*) where
  locks : List K := []
  writes : List W := []

/-- An open transaction: where it is now, and its savepoints, innermost first. -/
structure Txn (K W : Type*) where
  top : Frame K W := {}
  saved : List (Frame K W) := []

/-- Committed data and the open transactions of the workers. -/
structure Store (D K W : Type*) where
  data : D
  txns : Table ℕ (Txn K W) := ∅

/-- One step of a transaction. -/
inductive Op (K W : Type*)
  /-- Begin a transaction that holds these locks from the start. -/
  | start (ks : List K)
  | acquire (k : K)
  | write (wr : W)
  | savepoint
  /-- Go back to the innermost savepoint. -/
  | rollback
  /-- Forget the innermost savepoint. -/
  | release
  | commit
  | abort

namespace Txn

/-- The current place and the savepoints. -/
def frames (x : Txn K W) : List (Frame K W) := x.top :: x.saved

/-- A savepoint has no more locks and writes than what came after it. -/
def Nested (x : Txn K W) : Prop :=
  x.frames.IsChain fun a b => b.locks ⊆ a.locks ∧ b.writes <+: a.writes

/-- One step of an open transaction that stays open. -/
def next (x : Txn K W) : Op K W → Option (Txn K W)
  | .acquire k => some { x with top := { x.top with locks := k :: x.top.locks } }
  | .write wr => some { x with top := { x.top with writes := x.top.writes ++ [wr] } }
  | .savepoint => some { x with saved := x.top :: x.saved }
  | .rollback =>
    match x.saved with
    | [] => none
    | f :: rest => some ⟨f, rest⟩
  | .release =>
    match x.saved with
    | [] => none
    | _ :: rest => some ⟨x.top, rest⟩
  | .start _ | .commit | .abort => none

variable {x x' : Txn K W} {op : Op K W}

theorem Nested.locks_subset (h : x.Nested) {f : Frame K W} (hf : f ∈ x.frames) :
    f.locks ⊆ x.top.locks := by
  have htrans : IsTrans (Frame K W) fun a b => b.locks ⊆ a.locks ∧ b.writes <+: a.writes :=
    ⟨fun _ _ _ hab hbc => ⟨List.Subset.trans hbc.1 hab.1, hbc.2.trans hab.2⟩⟩
  rcases mem_cons.mp hf with rfl | hf
  · exact List.Subset.refl _
  · exact ((pairwise_cons.mp (isChain_iff_pairwise.mp h)).1 f hf).1

/-- What holds of every place holds of every place after a step, if it holds of the new one. -/
theorem next_frames {P : Frame K W → Prop} (h : x.next op = some x') (hP : ∀ f ∈ x.frames, P f)
    (hlock : ∀ k, op = .acquire k → P { x.top with locks := k :: x.top.locks })
    (hwrite : ∀ wr, op = .write wr → P { x.top with writes := x.top.writes ++ [wr] }) :
    ∀ f ∈ x'.frames, P f := by
  obtain ⟨top, saved⟩ := x
  obtain ⟨htop, hsaved⟩ := forall_mem_cons.mp hP
  cases op with
  | start | commit | abort => cases h
  | acquire k =>
    cases h
    exact forall_mem_cons.mpr ⟨hlock k rfl, hsaved⟩
  | write wr =>
    cases h
    exact forall_mem_cons.mpr ⟨hwrite wr rfl, hsaved⟩
  | savepoint =>
    cases h
    exact forall_mem_cons.mpr ⟨htop, hP⟩
  | rollback =>
    cases saved with
    | nil => cases h
    | cons f rest =>
      cases h
      exact hsaved
  | release =>
    cases saved with
    | nil => cases h
    | cons f rest =>
      cases h
      exact forall_mem_cons.mpr ⟨htop, (forall_mem_cons.mp hsaved).2⟩

/-- A step inside a transaction adds at most the lock that it takes. -/
theorem next_locks (h : x.next op = some x') (hn : x.Nested) :
    ∀ k ∈ x'.top.locks, k ∈ x.top.locks ∨ op = .acquire k := by
  intro k hk
  obtain ⟨top, saved⟩ := x
  cases op with
  | start | commit | abort => cases h
  | acquire k₀ =>
    cases h
    rcases mem_cons.mp hk with rfl | hk
    · exact .inr rfl
    · exact .inl hk
  | write wr | savepoint =>
    cases h
    exact .inl hk
  | rollback =>
    cases saved with
    | nil => cases h
    | cons f rest =>
      cases h
      exact .inl ((isChain_cons_cons.mp hn).1.1 hk)
  | release =>
    cases saved with
    | nil => cases h
    | cons f rest =>
      cases h
      exact .inl hk

theorem next_nested (h : x.next op = some x') (hn : x.Nested) : x'.Nested := by
  obtain ⟨top, saved⟩ := x
  cases op with
  | start | commit | abort => cases h
  | acquire k =>
    cases h
    cases saved with
    | nil => exact isChain_singleton _
    | cons f rest =>
      obtain ⟨⟨hlocks, hwrites⟩, hrest⟩ := isChain_cons_cons.mp hn
      exact isChain_cons_cons.mpr ⟨⟨subset_cons_of_subset _ hlocks, hwrites⟩, hrest⟩
  | write wr =>
    cases h
    cases saved with
    | nil => exact isChain_singleton _
    | cons f rest =>
      obtain ⟨⟨hlocks, hwrites⟩, hrest⟩ := isChain_cons_cons.mp hn
      exact isChain_cons_cons.mpr
        ⟨⟨hlocks, hwrites.trans (prefix_append _ _)⟩, hrest⟩
  | savepoint =>
    cases h
    exact isChain_cons_cons.mpr ⟨⟨List.Subset.refl _, prefix_refl _⟩, hn⟩
  | rollback =>
    cases saved with
    | nil => cases h
    | cons f rest =>
      cases h
      exact (isChain_cons_cons.mp hn).2
  | release =>
    cases saved with
    | nil => cases h
    | cons f rest =>
      cases h
      obtain ⟨⟨hlocks, hwrites⟩, hrest⟩ := isChain_cons_cons.mp hn
      cases rest with
      | nil => exact isChain_singleton _
      | cons g rest =>
        obtain ⟨⟨hlocks', hwrites'⟩, hrest'⟩ := isChain_cons_cons.mp hrest
        exact isChain_cons_cons.mpr
          ⟨⟨List.Subset.trans hlocks' hlocks, hwrites'.trans hwrites⟩, hrest'⟩

end Txn

section Steps

variable (L : Discipline D K W)

/-- No other worker holds a lock that conflicts with `k`. -/
def Store.free (s : Store D K W) (w : ℕ) (k : K) : Bool :=
  s.txns.entries.all fun e => e.1 = w || e.2.top.locks.all fun k' => !L.conflict k k'

/-- May the transaction of `w` take this step now? -/
def Store.allows (s : Store D K W) (w : ℕ) : Op K W → Bool
  | .acquire k => s.free L w k
  | _ => true

/-- What a transaction sees: the committed data with its own writes. -/
def Store.view (s : Store D K W) (w : ℕ) : D :=
  match s.txns.lookup w with
  | none => s.data
  | some x => x.top.writes.foldl L.apply s.data

/-- One step of worker `w`; a step that is not possible, or has to wait, is none. -/
def step (s : Store D K W) (w : ℕ) (op : Op K W) : Option (Store D K W) :=
  match s.txns.lookup w, op with
  | none, .start ks =>
    if ks.all (s.free L w) then some { s with txns := s.txns.insert w ⟨⟨ks, []⟩, []⟩ } else none
  | none, _ => none
  | some x, .commit => some ⟨x.top.writes.foldl L.apply s.data, s.txns.erase w⟩
  | some _, .abort => some { s with txns := s.txns.erase w }
  | some x, op =>
    if s.allows L w op then (x.next op).map fun x' => { s with txns := s.txns.insert w x' }
    else none

/-- The invariant of the lock table. -/
structure Ordered (s : Store D K W) : Prop where
  exclusive : ∀ w w' x x', s.txns.lookup w = some x → s.txns.lookup w' = some x' → w ≠ w' →
    ∀ k ∈ x.top.locks, ∀ k' ∈ x'.top.locks, L.conflict k k' = false
  guarded : ∀ w x, s.txns.lookup w = some x → ∀ f ∈ x.frames, ∀ wr ∈ f.writes, L.guard wr ∈ f.locks
  nested : ∀ w x, s.txns.lookup w = some x → x.Nested

end Steps

section Theorems

variable {L : Discipline D K W} {s s' : Store D K W} {w w' : ℕ} {op : Op K W}

/-- What a step does: a new transaction, the end of one, or a step inside one. -/
theorem step_cases (h : step L s w op = some s') :
    (∃ ks, op = .start ks ∧ s.txns.lookup w = none ∧ ks.all (s.free L w) = true ∧
      s' = { s with txns := s.txns.insert w ⟨⟨ks, []⟩, []⟩ }) ∨
    (∃ x, s.txns.lookup w = some x ∧ op = .commit ∧
      s' = ⟨x.top.writes.foldl L.apply s.data, s.txns.erase w⟩) ∨
    (∃ x, s.txns.lookup w = some x ∧ op = .abort ∧ s' = { s with txns := s.txns.erase w }) ∨
    ∃ x x', s.txns.lookup w = some x ∧ x.next op = some x' ∧ s.allows L w op = true ∧
      s' = { s with txns := s.txns.insert w x' } := by
  unfold step at h
  split at h
  · split at h
    · cases h
      exact .inl ⟨_, rfl, ‹_›, ‹_›, rfl⟩
    · cases h
  · cases h
  · cases h
    exact .inr (.inl ⟨_, ‹_›, rfl, rfl⟩)
  · cases h
    exact .inr (.inr (.inl ⟨_, ‹_›, rfl, rfl⟩))
  · split at h
    · obtain ⟨x', hx', rfl⟩ := Option.map_eq_some_iff.mp h
      exact .inr (.inr (.inr ⟨_, x', ‹_›, hx', ‹_›, rfl⟩))
    · cases h

/-- The transactions of other workers stay as they are. -/
theorem step_lookup_ne (h : step L s w op = some s') (hne : w' ≠ w) :
    s'.txns.lookup w' = s.txns.lookup w' := by
  rcases step_cases h with ⟨ks, -, -, -, rfl⟩ | ⟨x, -, -, rfl⟩ | ⟨x, -, -, rfl⟩ |
    ⟨x, x', -, -, -, rfl⟩
  · exact lookup_insert_ne hne
  · exact lookup_erase_ne hne
  · exact lookup_erase_ne hne
  · exact lookup_insert_ne hne

theorem free_iff {k : K} : s.free L w k = true ↔
    ∀ w' x, s.txns.lookup w' = some x → w' ≠ w → ∀ k' ∈ x.top.locks, L.conflict k k' = false := by
  simp only [Store.free, all_eq_true, Bool.or_eq_true, decide_eq_true_eq, Bool.not_eq_true']
  constructor
  · intro h w' x hx hne k' hk'
    rcases h ⟨w', x⟩ (mem_lookup_iff.mp hx) with heq | hall
    · exact absurd heq hne
    · exact hall k' hk'
  · rintro h ⟨w', x⟩ hmem
    by_cases heq : w' = w
    · exact .inl heq
    · exact .inr fun k' hk' => h w' x (mem_lookup_iff.mpr hmem) heq k' hk'

theorem Ordered.initial (d : D) : Ordered L (⟨d, ∅⟩ : Store D K W) where
  exclusive _ _ _ _ h := by cases h
  guarded _ _ h := by cases h
  nested _ _ h := by cases h

theorem lookup_erase_some {α : Type*} {t : Table ℕ α} {x : α}
    (h : (t.erase w).lookup w' = some x) : w' ≠ w ∧ t.lookup w' = some x := by
  exact Table.of_lookup_erase h

/-- The end of a transaction keeps the lock table in order, whatever the data are. -/
theorem Ordered.erase (ho : Ordered L s) (d : D) (w : ℕ) :
    Ordered L (⟨d, s.txns.erase w⟩ : Store D K W) where
  exclusive v v' y y' hy hy' :=
    ho.exclusive v v' y y' (lookup_erase_some hy).2 (lookup_erase_some hy').2
  guarded v y hy := ho.guarded v y (lookup_erase_some hy).2
  nested v y hy := ho.nested v y (lookup_erase_some hy).2

/-- A transaction whose locks the others allow keeps the lock table in order. -/
theorem Ordered.insert (ho : Ordered L s) {x : Txn K W}
    (hlocks : ∀ v y, s.txns.lookup v = some y → v ≠ w → ∀ k ∈ x.top.locks, ∀ k' ∈ y.top.locks,
      L.conflict k k' = false)
    (hguarded : ∀ f ∈ x.frames, ∀ wr ∈ f.writes, L.guard wr ∈ f.locks) (hnested : x.Nested) :
    Ordered L { s with txns := s.txns.insert w x } := by
  refine ⟨fun v v' y y' hy hy' hne k hk k' hk' => ?_, fun v y hy => ?_, fun v y hy => ?_⟩
  · rw [Table.lookup_insert'] at hy hy'
    split at hy
    case isTrue heq =>
      subst heq
      cases hy
      rw [if_neg (Ne.symm hne)] at hy'
      exact hlocks v' y' hy' (Ne.symm hne) k hk k' hk'
    case isFalse hv =>
      split at hy'
      case isTrue heq =>
        subst heq
        cases hy'
        rw [L.symm]
        exact hlocks v y hy hv k' hk' k hk
      case isFalse => exact ho.exclusive v v' y y' hy hy' hne k hk k' hk'
  · rcases Table.of_lookup_insert hy with ⟨rfl, rfl⟩ | ⟨-, hy⟩
    · exact hguarded
    · exact ho.guarded v y hy
  · rcases Table.of_lookup_insert hy with ⟨rfl, rfl⟩ | ⟨-, hy⟩
    · exact hnested
    · exact ho.nested v y hy

/-- Every step keeps the lock table in order, when writes are made under their locks. -/
theorem Ordered.step (ho : Ordered L s) (h : step L s w op = some s')
    (hw : ∀ x wr, s.txns.lookup w = some x → op = .write wr → L.guard wr ∈ x.top.locks) :
    Ordered L s' := by
  rcases step_cases h with ⟨ks, -, -, hfree, rfl⟩ | ⟨x, -, -, rfl⟩ | ⟨x, -, -, rfl⟩ |
    ⟨x, x', hx, hnext, hallows, rfl⟩
  · refine ho.insert (fun v y hy hne k hk => ?_) ?_ (isChain_singleton _)
    · exact free_iff.mp (all_eq_true.mp hfree k hk) v y hy hne
    · exact forall_mem_singleton.mpr fun _ hwr => by cases hwr
  · exact ho.erase _ w
  · exact ho.erase _ w
  · refine ho.insert (fun v y hy hne k hk => ?_) ?_ (Txn.next_nested hnext (ho.nested w x hx))
    · -- the locks of the worker are old ones, or free
      rcases Txn.next_locks hnext (ho.nested w x hx) k hk with hold | rfl
      · exact ho.exclusive w v x y hx hy hne.symm k hold
      · exact free_iff.mp hallows v y hy hne
    · have hg := ho.guarded w x hx
      refine Txn.next_frames hnext hg (fun k _ wr hwr => ?_) fun wr hop wr' hwr' => ?_
      · exact mem_cons_of_mem _ (hg x.top mem_cons_self wr hwr)
      · rcases mem_append.mp hwr' with hold | hnew
        · exact hg x.top mem_cons_self wr' hold
        · rw [mem_singleton.mp hnew]
          exact hw x wr hx hop

/-- What one worker has written does not conflict with the locks that another one holds. -/
theorem Ordered.compatible (ho : Ordered L s) (hne : w ≠ w') {x x' : Txn K W}
    (hx : s.txns.lookup w = some x) (hx' : s.txns.lookup w' = some x') {f : Frame K W}
    (hf : f ∈ x'.frames) {k : K} (hk : k ∈ f.locks) {wr : W} (hwr : wr ∈ x.top.writes) :
    L.conflict k (L.guard wr) = false := by
  have htop : k ∈ x'.top.locks := (ho.nested w' x' hx').locks_subset hf hk
  have hguard := ho.guarded w x hx x.top mem_cons_self wr hwr
  exact ho.exclusive w' w x' x hx' hx hne.symm k htop _ hguard

end Theorems

end Locking
