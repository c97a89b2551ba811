import AgentBridge.LTS.Basic
import AgentBridge.LTS.Locking

/-!
# Scripts inside transactions

A worker calls procedures inside its transactions. A procedure is a script of locks and statements;
other workers may run between any two of its steps, and it may be abandoned at any of them. A
statement reads what its transaction sees and an input (a clock, say), updates the registers of the
call, and makes at most one write.

The committed writes, in the order of the commits, are the *history* of the system. A `Spec` says
what each write of the history has to satisfy, given the data before it, and under which locks that
stays true. `Safe` is the verification condition of a script: at every write the script holds the
locks and the write satisfies the specification, whatever other workers do to data that the script
has not locked.

* `Program`, `World`, `exec` : scripts, and one step of one worker.
* `Spec`, `Spec.Serial` : what makes a history right.
* `Safe` : the verification condition of a script.
* `Carried` : what all registers and writes have in common.
* `serial` : **if every script is safe, every reachable history is right**, and the data are what
  the history makes of the initial data.
-/

namespace Locking

open List Except AList


/-- A step of a script. -/
inductive Instr (K S : Type)
  | lock (k : K)
  | stmt (t : S)

/-- The scripts of a system, and what their statements do. -/
structure Program (D K W S I R C E : Type) where
  rules : Discipline D K W
  /-- The locks that every transaction holds. -/
  base : List K
  /-- The registers at the start of a call. -/
  init : C → R
  script : C → List (Instr K S)
  run : S → I → D → R → Except E (R × Option W)

/-- The store, the calls that are running, and the committed writes. -/
structure World (D K W S R : Type) where
  store : Store D K W
  calls : Table ℕ (R × List (Instr K S)) := ∅
  history : List W := []

/-- What a worker does next. -/
inductive Action (I C : Type)
  | start (w : ℕ)
  | savepoint (w : ℕ)
  | rollback (w : ℕ)
  | release (w : ℕ)
  | commit (w : ℕ)
  | abort (w : ℕ)
  | call (w : ℕ) (c : C)
  /-- The next step of the running call. -/
  | step (w : ℕ) (i : I)
  /-- The running call is abandoned. -/
  | fail (w : ℕ)

/-- Why a step is not taken. -/
inductive Fault (E : Type)
  | blocked
  | refused (e : E)
  deriving DecidableEq

variable {D K W S I R C E : Type}

/-- A step that is not possible is blocked. -/
def lift {α : Type} : Option α → Except (Fault E) α
  | none => .error .blocked
  | some a => .ok a

@[simp] theorem lift_eq_ok {α : Type} {o : Option α} {a : α} :
    (lift o : Except (Fault E) α) = .ok a ↔ o = some a := by
  cases o <;> simp [lift]

section Exec

variable [DecidableEq K] (P : Program D K W S I R C E)

/-- A step of the transaction, which ends the call that runs in it. -/
def transact (s : World D K W S R) (w : ℕ) (op : Op K W) :
    Except (Fault E) (World D K W S R) := do
  let store ← lift (step P.rules s.store w op)
  return { s with store, calls := s.calls.erase w }

/-- Take a lock; one that the transaction already holds is granted again. -/
def take (s : Store D K W) (w : ℕ) (k : K) : Option (Store D K W) := do
  let x ← s.txns.lookup w
  if x.top.locks.contains k then some s else step P.rules s w (.acquire k)

/-- The write of a statement, if it makes one. -/
def change (s : Store D K W) (w : ℕ) : Option W → Option (Store D K W)
  | none => some s
  | some wr => step P.rules s w (.write wr)

/-- The next step of a call. -/
def advance (s : World D K W S R) (w : ℕ) (i : I) (r : R) :
    List (Instr K S) → Except (Fault E) (World D K W S R)
  | [] => .error .blocked
  | .lock k :: rest => do
    let store ← lift (take P s.store w k)
    return { s with store, calls := s.calls.insert w (r, rest) }
  | .stmt t :: rest => do
    let out ← (P.run t i (s.store.view P.rules w) r).mapError .refused
    let store ← lift (change P s.store w out.2)
    return { s with store, calls := s.calls.insert w (out.1, rest) }

/-- One step of one worker. -/
def exec (s : World D K W S R) : Action I C → Except (Fault E) (World D K W S R)
  | .start w => transact P s w (.start P.base)
  | .savepoint w => transact P s w .savepoint
  | .rollback w => transact P s w .rollback
  | .release w => transact P s w .release
  | .abort w => transact P s w .abort
  | .commit w => do
    let x ← lift (s.store.txns.lookup w)
    let s ← transact P s w .commit
    return { s with history := s.history ++ x.top.writes }
  | .call w c => do
    let _ ← lift (s.store.txns.lookup w)
    return { s with calls := s.calls.insert w (P.init c, P.script c) }
  | .step w i => do
    let (r, rest) ← lift (s.calls.lookup w)
    advance P s w i r rest
  | .fail w => return { s with calls := s.calls.erase w }

/-- No transaction is open and nothing is committed yet. -/
def World.initial (d : D) : World D K W S R := { store := ⟨d, ∅⟩ }

/-- The system of all interleavings. -/
def system : LTS (World D K W S R) (Action I C) := .ofExec (exec P)

end Exec

section History

variable [DecidableEq K] {P : Program D K W S I R C E} {s s' : World D K W S R}

omit [DecidableEq K] in
theorem transact_history {w : ℕ} {op : Op K W} (h : transact P s w op = .ok s') :
    s'.history = s.history := by
  obtain ⟨st, -, h⟩ := bind_eq_ok.mp h
  cases h
  rfl

theorem advance_history {w : ℕ} {i : I} {r : R} {rest : List (Instr K S)}
    (h : advance P s w i r rest = .ok s') : s'.history = s.history := by
  cases rest with
  | nil => cases h
  | cons instr rest =>
    cases instr with
    | lock k =>
      obtain ⟨st, -, h⟩ := bind_eq_ok.mp h
      cases h
      rfl
    | stmt t =>
      obtain ⟨out, -, h⟩ := bind_eq_ok.mp h
      obtain ⟨st, -, h⟩ := bind_eq_ok.mp h
      cases h
      rfl

/-- Committed writes stay committed. -/
theorem exec_history {a : Action I C} (h : exec P s a = .ok s') : s.history <+: s'.history := by
  cases a with
  | start w | savepoint w | rollback w | release w | abort w =>
    exact (transact_history h).symm ▸ prefix_refl _
  | commit w =>
    obtain ⟨x, -, h⟩ := bind_eq_ok.mp h
    obtain ⟨s₁, h₁, h⟩ := bind_eq_ok.mp h
    cases h
    rw [← transact_history h₁]
    exact prefix_append _ _
  | call w c =>
    obtain ⟨x, -, h⟩ := bind_eq_ok.mp h
    cases h
    exact prefix_refl _
  | step w i =>
    obtain ⟨⟨r, rest⟩, -, h⟩ := bind_eq_ok.mp h
    exact (advance_history h).symm ▸ prefix_refl _
  | fail w =>
    cases h
    exact prefix_refl _

theorem history_prefix (h : (system P).Reachable s s') : s.history <+: s'.history :=
  h.relate (r := fun s s' => s.history <+: s'.history) (fun _ => prefix_refl _)
    (fun _ _ _ => List.IsPrefix.trans) fun _ _ _ => exec_history

end History

/-! ### Specifications -/

/-- What a committed write has to satisfy, and the locks under which that stays true. -/
structure Spec (L : Discipline D K W) where
  /-- The two data agree on what the lock protects. -/
  agree : K → D → D → Prop
  agree_refl : ∀ k d, agree k d d
  agree_trans : ∀ {k d₁ d₂ d₃}, agree k d₁ d₂ → agree k d₂ d₃ → agree k d₁ d₃
  /-- A write under a compatible lock does not touch what the lock protects. -/
  untouched : ∀ {k wr} d, L.conflict k (L.guard wr) = false → agree k d (L.apply d wr)
  agree_apply : ∀ {k d d'} wr, agree k d d' → agree k (L.apply d wr) (L.apply d' wr)
  fits : D → W → Prop
  needs : W → List K
  fits_agree : ∀ {d d' wr}, (∀ k ∈ needs wr, agree k d d') → fits d wr → fits d' wr

namespace Spec

variable {L : Discipline D K W} (V : Spec L)

/-- The two data agree on what the locks protect. -/
def AgreeOn (ks : List K) (d d' : D) : Prop := ∀ k ∈ ks, V.agree k d d'

/-- Every write fits the data that the writes before it leave. -/
def Serial : D → List W → Prop
  | _, [] => True
  | d, wr :: ws => V.fits d wr ∧ Serial (L.apply d wr) ws

variable {V} {ks ks' : List K} {d d' d'' : D} {ws ws' : List W}

theorem AgreeOn.refl (ks : List K) (d : D) : V.AgreeOn ks d d := fun k _ => V.agree_refl k d

theorem AgreeOn.trans (h : V.AgreeOn ks d d') (h' : V.AgreeOn ks d' d'') : V.AgreeOn ks d d'' :=
  fun k hk => V.agree_trans (h k hk) (h' k hk)

theorem AgreeOn.mono (h : V.AgreeOn ks' d d') (hks : ks ⊆ ks') : V.AgreeOn ks d d' :=
  fun k hk => h k (hks hk)

theorem AgreeOn.foldl (h : V.AgreeOn ks d d') (ws : List W) :
    V.AgreeOn ks (ws.foldl L.apply d) (ws.foldl L.apply d') := by
  induction ws generalizing d d' with
  | nil => exact h
  | cons wr ws ih => exact ih fun k hk => V.agree_apply wr (h k hk)

/-- Writes under compatible locks do not touch what the locks protect. -/
theorem agreeOn_foldl (h : ∀ k ∈ ks, ∀ wr ∈ ws, L.conflict k (L.guard wr) = false) (d : D) :
    V.AgreeOn ks d (ws.foldl L.apply d) := by
  induction ws generalizing d with
  | nil => exact .refl ks d
  | cons wr ws ih =>
    have hfirst : V.AgreeOn ks d (L.apply d wr) := fun k hk =>
      V.untouched d (h k hk wr mem_cons_self)
    exact hfirst.trans (ih (fun k hk wr' hwr' => h k hk wr' (mem_cons_of_mem _ hwr')) _)

theorem serial_append : V.Serial d (ws ++ ws') ↔
    V.Serial d ws ∧ V.Serial (ws.foldl L.apply d) ws' := by
  induction ws generalizing d with
  | nil => exact (and_iff_right trivial).symm
  | cons wr ws ih =>
    rw [cons_append, Serial, Serial, ih, and_assoc, foldl_cons]

/-- Writes that fit still fit data that agree on their locks. -/
theorem Serial.agree (h : V.Serial d ws) (hks : ∀ wr ∈ ws, V.needs wr ⊆ ks)
    (hagree : V.AgreeOn ks d d') : V.Serial d' ws := by
  induction ws generalizing d d' with
  | nil => exact trivial
  | cons wr ws ih =>
    refine ⟨V.fits_agree (hagree.mono (hks wr mem_cons_self)) h.1, ?_⟩
    exact ih h.2 (fun wr' hwr' => hks wr' (mem_cons_of_mem _ hwr'))
      fun k hk => V.agree_apply wr (hagree k hk)

end Spec

/-! ### Verification conditions -/

section Safe

variable (P : Program D K W S I R C E) (V : Spec P.rules)

/-- The rest of a script is safe for a call that holds the locks `ks` and sees `v`: other workers
may change `v` before every step, but not what the locks protect. -/
def Safe : List (Instr K S) → List K → D → R → Prop
  | [], _, _, _ => True
  | .lock k :: rest, ks, v, r => ∀ v', V.AgreeOn ks v v' → Safe rest (k :: ks) v' r
  | .stmt t :: rest, ks, v, r => ∀ v', V.AgreeOn ks v v' → ∀ i r' wr?,
    P.run t i v' r = .ok (r', wr?) →
      match wr? with
      | none => Safe rest ks v' r'
      | some wr => P.rules.guard wr ∈ ks ∧ V.needs wr ⊆ ks ∧ V.fits v' wr ∧
        Safe rest ks (P.rules.apply v' wr) r'

/-- Every call is safe from its start. -/
def Verified : Prop := ∀ c ks v, P.base ⊆ ks → Safe P V (P.script c) ks v (P.init c)

variable {P V} {ks ks' : List K} {v v' : D} {r : R} {rest : List (Instr K S)}

theorem Safe.agree (h : Safe P V rest ks v r) (hagree : V.AgreeOn ks v v') :
    Safe P V rest ks v' r := by
  cases rest with
  | nil => exact trivial
  | cons instr rest =>
    cases instr with
    | lock k | stmt t => exact fun v'' hv'' => h v'' (hagree.trans hv'')

/-- More locks leave less to other workers. -/
theorem Safe.mono (h : Safe P V rest ks v r) (hks : ks ⊆ ks') : Safe P V rest ks' v r := by
  induction rest generalizing ks ks' v r with
  | nil => exact trivial
  | cons instr rest ih =>
    cases instr with
    | lock k =>
      intro v' hv'
      exact ih (h v' (hv'.mono hks)) (cons_subset_cons k hks)
    | stmt t =>
      intro v' hv' i r' wr? hrun
      have hnext := h v' (hv'.mono hks) i r' wr? hrun
      cases wr? with
      | none => exact ih hnext hks
      | some wr =>
        obtain ⟨hguard, hneeds, hfits, hrest⟩ := hnext
        exact ⟨hks hguard, List.Subset.trans hneeds hks, hfits, ih hrest hks⟩

/-- The rule for a statement that only reads. -/
theorem Safe.read {t : S} (hread : ∀ i v r' wr?, P.run t i v r = .ok (r', wr?) → wr? = none)
    (h : ∀ v' i r', V.AgreeOn ks v v' → P.run t i v' r = .ok (r', none) →
      Safe P V rest ks v' r') : Safe P V (.stmt t :: rest) ks v r := by
  intro v' hv' i r' wr? hrun
  cases hread i v' r' wr? hrun
  exact h v' i r' hv' hrun

end Safe

/-! ### The invariant -/

section Invariant

variable (P : Program D K W S I R C E) (V : Spec P.rules) (d₀ : D)

/-- A place of a transaction on the committed data `d`. -/
structure Good (d : D) (f : Frame K W) : Prop where
  base : P.base ⊆ f.locks
  serial : V.Serial d f.writes
  needs : ∀ wr ∈ f.writes, V.needs wr ⊆ f.locks

/-- The invariant: the lock table is in order, open transactions and running calls are safe, and the
history is right so far. -/
structure Inv (s : World D K W S R) : Prop where
  ordered : Ordered P.rules s.store
  good : ∀ w x, s.store.txns.lookup w = some x → ∀ f ∈ x.frames, Good P V s.store.data f
  safe : ∀ w r rest, s.calls.lookup w = some (r, rest) → ∃ x, s.store.txns.lookup w = some x ∧
    Safe P V rest x.top.locks (s.store.view P.rules w) r
  data : s.store.data = s.history.foldl P.rules.apply d₀
  serial : V.Serial d₀ s.history

variable {P V d₀} {s s' : World D K W S R} {w : ℕ}

variable {st : Store D K W} {x : Txn K W}

theorem view_eq (hx : st.txns.lookup w = some x) :
    st.view P.rules w = x.top.writes.foldl P.rules.apply st.data := by
  rw [Store.view, hx]

theorem Inv.initial : Inv P V d₀ (World.initial d₀) where
  ordered := .initial d₀
  good _ _ h := by cases h
  safe _ _ _ h := by cases h
  data := rfl
  serial := trivial

/-- A step inside the transaction of `w`: the other workers see what they saw, so only `w` itself
has to be looked at. -/
theorem Inv.inside (hi : Inv P V d₀ s) {calls : Table ℕ (R × List (Instr K S))}
    (ho : Ordered P.rules { s.store with txns := s.store.txns.insert w x })
    (hgood : ∀ f ∈ x.frames, Good P V s.store.data f)
    (hcalls : ∀ w', w' ≠ w → calls.lookup w' = s.calls.lookup w')
    (hsafe : ∀ r rest, calls.lookup w = some (r, rest) →
      Safe P V rest x.top.locks (x.top.writes.foldl P.rules.apply s.store.data) r) :
    Inv P V d₀ { s with store := { s.store with txns := s.store.txns.insert w x }, calls } := by
  refine ⟨ho, fun w' y hy => ?_, fun w' r rest hc => ?_, hi.data, hi.serial⟩
  · rw [Table.lookup_insert'] at hy
    split at hy
    · cases hy
      exact hgood
    · exact hi.good w' y hy
  · by_cases hw : w' = w
    · subst hw
      refine ⟨x, lookup_insert _, ?_⟩
      rw [view_eq (lookup_insert _)]
      exact hsafe r rest hc
    · rw [hcalls w' hw] at hc
      obtain ⟨y, hy, hsafe'⟩ := hi.safe w' r rest hc
      have hy' : (s.store.txns.insert w x).lookup w' = some y := (lookup_insert_ne hw).trans hy
      refine ⟨y, hy', ?_⟩
      rw [view_eq hy']
      rw [view_eq hy] at hsafe'
      exact hsafe'

/-- The end of the transaction of `w`. Its writes are under locks, so what the others have locked
is as it was. -/
theorem Inv.ended (hi : Inv P V d₀ s) (hx : s.store.txns.lookup w = some x) {ws : List W}
    (hws : ws = [] ∨ ws = x.top.writes) :
    Inv P V d₀ ⟨⟨ws.foldl P.rules.apply s.store.data, s.store.txns.erase w⟩, s.calls.erase w,
      s.history ++ ws⟩ := by
  have hagree : ∀ w' y, w' ≠ w → s.store.txns.lookup w' = some y → ∀ f ∈ y.frames,
      V.AgreeOn f.locks s.store.data (ws.foldl P.rules.apply s.store.data) := by
    intro w' y hne hy f hf
    refine Spec.agreeOn_foldl (fun k hk wr hwr => ?_) _
    rcases hws with rfl | rfl
    · cases hwr
    · exact hi.ordered.compatible hne.symm hx hy hf hk hwr
  refine ⟨hi.ordered.erase _ w, fun w' y hy f hf => ?_, fun w' r rest hc => ?_, ?_, ?_⟩
  · obtain ⟨hne, hy⟩ := lookup_erase_some hy
    obtain ⟨hbase, hserial, hneeds⟩ := hi.good w' y hy f hf
    exact ⟨hbase, hserial.agree hneeds (hagree w' y hne hy f hf), hneeds⟩
  · obtain ⟨hne, hc⟩ := lookup_erase_some hc
    obtain ⟨y, hy, hsafe⟩ := hi.safe w' r rest hc
    have hy' : (s.store.txns.erase w).lookup w' = some y := (lookup_erase_ne hne).trans hy
    refine ⟨y, hy', ?_⟩
    rw [view_eq hy']
    rw [view_eq hy] at hsafe
    exact hsafe.agree ((hagree w' y hne hy y.top mem_cons_self).foldl _)
  · rw [foldl_append, hi.data]
  · refine Spec.serial_append.mpr ⟨hi.serial, ?_⟩
    rw [← hi.data]
    rcases hws with rfl | rfl
    · exact trivial
    · exact (hi.good w x hx x.top mem_cons_self).serial

theorem Inv.transact [DecidableEq K] (hi : Inv P V d₀ s) {op : Op K W} (h : transact P s w op = .ok s')
    (hstart : ∀ ks, op = .start ks → ks = P.base) (hwrite : ∀ wr, op ≠ .write wr)
    (hcommit : op ≠ .commit) : Inv P V d₀ s' := by
  obtain ⟨st, hst, h⟩ := bind_eq_ok.mp h
  cases h
  rw [lift_eq_ok] at hst
  have ho := hi.ordered.step hst fun x wr _ hop => absurd hop (hwrite wr)
  have hnone : ∀ r rest, (s.calls.erase w).lookup w ≠ some (r, rest) := by
    intro r rest hc
    exact (lookup_erase_some hc).1 rfl
  rcases step_cases hst with ⟨ks, rfl, -, -, rfl⟩ | ⟨x, -, hop, -⟩ | ⟨x, hx, -, rfl⟩ |
    ⟨x, x', hx, hnext, -, rfl⟩
  · cases hstart ks rfl
    refine hi.inside ho ?_ (fun w' hne => lookup_erase_ne hne) fun r rest hc =>
      absurd hc (hnone r rest)
    refine forall_mem_singleton.mpr ⟨List.Subset.refl _, trivial, fun wr hwr => ?_⟩
    cases hwr
  · exact absurd hop hcommit
  · have hended := hi.ended hx (.inl rfl)
    rwa [append_nil] at hended
  · refine hi.inside ho ?_ (fun w' hne => lookup_erase_ne hne) fun r rest hc =>
      absurd hc (hnone r rest)
    have hgood := hi.good w x hx
    refine Txn.next_frames hnext hgood (fun k _ => ?_) fun wr hop => absurd hop (hwrite wr)
    obtain ⟨hbase, hserial, hneeds⟩ := hgood x.top mem_cons_self
    exact ⟨subset_cons_of_subset _ hbase, hserial,
      fun wr hwr => subset_cons_of_subset _ (hneeds wr hwr)⟩

variable {r : R} {rest : List (Instr K S)}

theorem Inv.setCall (hi : Inv P V d₀ s) (hx : s.store.txns.lookup w = some x)
    (hsafe : Safe P V rest x.top.locks (s.store.view P.rules w) r) :
    Inv P V d₀ { s with calls := s.calls.insert w (r, rest) } := by
  refine ⟨hi.ordered, hi.good, fun w' r' rest' hc => ?_, hi.data, hi.serial⟩
  rw [Table.lookup_insert'] at hc
  split at hc
  case isTrue heq =>
    subst heq
    cases hc
    exact ⟨x, hx, hsafe⟩
  case isFalse => exact hi.safe w' r' rest' hc

theorem Inv.take [DecidableEq K] (hi : Inv P V d₀ s) {k : K} (h : take P s.store w k = some st)
    (hsafe : ∀ x, s.store.txns.lookup w = some x → Safe P V rest (k :: x.top.locks) (s.store.view
      P.rules w) r) : Inv P V d₀ { s with store := st, calls := s.calls.insert w (r, rest) } := by
  obtain ⟨x, hx, h⟩ := Option.bind_eq_some_iff.mp h
  have hnext := hsafe x hx
  split at h
  case isTrue hk =>
    -- the lock is held already
    cases h
    refine hi.setCall hx (hnext.mono fun k' hk' => ?_)
    rcases mem_cons.mp hk' with rfl | hk'
    · exact contains_iff_mem.mp hk
    · exact hk'
  case isFalse hk =>
    have ho := hi.ordered.step h fun _ _ _ hop => by cases hop
    rcases step_cases h with ⟨ks, hop, -⟩ | ⟨y, -, hop, -⟩ | ⟨y, -, hop, -⟩ |
      ⟨y, y', hy, hnexty, -, rfl⟩
    · cases hop
    · cases hop
    · cases hop
    rw [hx] at hy
    cases hy
    have hgood := hi.good w x hx
    obtain ⟨hbase, hserial, hneeds⟩ := hgood x.top mem_cons_self
    refine hi.inside ho ?_ (fun w' hne => lookup_insert_ne hne) fun r' rest' hc' => ?_
    · refine Txn.next_frames hnexty hgood (fun k' hop => ?_) fun wr hop => by cases hop
      cases hop
      exact ⟨subset_cons_of_subset _ hbase, hserial,
        fun wr hwr => subset_cons_of_subset _ (hneeds wr hwr)⟩
    · rw [lookup_insert] at hc'
      cases hc'
      cases hnexty
      rwa [view_eq hx] at hnext

theorem Inv.write (hi : Inv P V d₀ s) (hx : s.store.txns.lookup w = some x) {wr : W}
    (h : step P.rules s.store w (.write wr) = some st) (hguard : P.rules.guard wr ∈ x.top.locks)
    (hwr : V.needs wr ⊆ x.top.locks) (hfits : V.fits (s.store.view P.rules w) wr)
    (hsafe : Safe P V rest x.top.locks (P.rules.apply (s.store.view P.rules w) wr) r) :
    Inv P V d₀ { s with store := st, calls := s.calls.insert w (r, rest) } := by
  rw [view_eq hx] at hfits hsafe
  have ho := hi.ordered.step h fun y wr' hy hop => by
    rw [hx] at hy
    cases hy
    cases hop
    exact hguard
  rcases step_cases h with ⟨ks, hop, -⟩ | ⟨y, -, hop, -⟩ | ⟨y, -, hop, -⟩ |
    ⟨y, y', hy, hnexty, -, rfl⟩
  · cases hop
  · cases hop
  · cases hop
  rw [hx] at hy
  cases hy
  have hgood := hi.good w x hx
  obtain ⟨hbase, hserial, hneeds⟩ := hgood x.top mem_cons_self
  refine hi.inside ho ?_ (fun w' hne => lookup_insert_ne hne) fun r' rest' hc' => ?_
  · refine Txn.next_frames hnexty hgood (fun k hop => by cases hop) fun wr' hop => ?_
    cases hop
    refine ⟨hbase, Spec.serial_append.mpr ⟨hserial, hfits, trivial⟩, fun wr' hwr' => ?_⟩
    rcases mem_append.mp hwr' with hold | hnew
    · exact hneeds wr' hold
    · rw [mem_singleton.mp hnew]
      exact hwr
  · rw [lookup_insert] at hc'
    cases hc'
    cases hnexty
    rw [foldl_append]
    exact hsafe

/-- The next step of a call. -/
theorem Inv.advance [DecidableEq K] (hi : Inv P V d₀ s) {i : I}
    (hc : s.calls.lookup w = some (r, rest)) (h : advance P s w i r rest = .ok s') :
    Inv P V d₀ s' := by
  obtain ⟨x, hx, hsafe⟩ := hi.safe w r rest hc
  cases rest with
  | nil => cases h
  | cons instr rest =>
    cases instr with
    | lock k =>
      obtain ⟨st, hst, h⟩ := bind_eq_ok.mp h
      cases h
      rw [lift_eq_ok] at hst
      refine hi.take hst fun y hy => ?_
      rw [hx] at hy
      cases hy
      exact hsafe _ (.refl _ _)
    | stmt t =>
      obtain ⟨⟨r', wr?⟩, hrun, h⟩ := bind_eq_ok.mp h
      obtain ⟨st, hst, h⟩ := bind_eq_ok.mp h
      cases h
      rw [mapError_eq_ok] at hrun
      rw [lift_eq_ok] at hst
      have hnext := hsafe _ (.refl _ _) i r' wr? hrun
      cases wr? with
      | none =>
        cases hst
        exact hi.setCall hx hnext
      | some wr =>
        obtain ⟨hguard, hwr, hfits, hrest⟩ := hnext
        exact hi.write hx hst hguard hwr hfits hrest

/-- Every step keeps the invariant. -/
theorem Inv.exec [DecidableEq K] (hv : Verified P V) (hi : Inv P V d₀ s) {a : Action I C}
    (h : exec P s a = .ok s') : Inv P V d₀ s' := by
  cases a with
  | start w =>
    exact hi.transact h (fun ks hop => (Op.start.inj hop).symm) (fun _ hop => by cases hop) nofun
  | savepoint w | rollback w | release w | abort w =>
    exact hi.transact h (fun _ hop => by cases hop) (fun _ hop => by cases hop) nofun
  | commit w =>
    obtain ⟨x, hx, h⟩ := bind_eq_ok.mp h
    obtain ⟨s₁, h₁, h⟩ := bind_eq_ok.mp h
    obtain ⟨st, hst, h₁⟩ := bind_eq_ok.mp h₁
    cases h₁
    cases h
    rw [lift_eq_ok] at hx hst
    rcases step_cases hst with ⟨ks, hop, -⟩ | ⟨y, hy, -, rfl⟩ | ⟨y, -, hop, -⟩ | ⟨y, y', -, hop, -⟩
    · cases hop
    · rw [hx] at hy
      cases hy
      exact hi.ended hx (.inr rfl)
    · cases hop
    · cases hop
  | call w c =>
    obtain ⟨x, hx, h⟩ := bind_eq_ok.mp h
    cases h
    rw [lift_eq_ok] at hx
    exact hi.setCall hx (hv c _ _ (hi.good w x hx x.top mem_cons_self).base)
  | step w i =>
    obtain ⟨⟨r, rest⟩, hc, h⟩ := bind_eq_ok.mp h
    rw [lift_eq_ok] at hc
    exact hi.advance hc h
  | fail w =>
    cases h
    refine ⟨hi.ordered, hi.good, fun w' r rest hc => ?_, hi.data, hi.serial⟩
    exact hi.safe w' r rest (lookup_erase_some hc).2

/-- **If every script is safe, every reachable history is right**, and the committed data are what
the history makes of the initial data. -/
theorem serial [DecidableEq K] (hv : Verified P V) (h : (system P).Reachable (World.initial d₀) s) :
    V.Serial d₀ s.history ∧ s.store.data = s.history.foldl P.rules.apply d₀ := by
  have hi : Inv P V d₀ s := h.invariant (I := Inv P V d₀) .initial fun _ _ _ hi hst =>
    hi.exec hv hst
  exact ⟨hi.serial, hi.data⟩

end Invariant

/-! ### What registers and writes carry -/

section Carried

variable [DecidableEq K] {P : Program D K W S I R C E} {s s' : World D K W S R} {w : ℕ}

/-- Every register satisfies `Q`, and every write, committed or not, satisfies `Z`. -/
structure Carried (Q : R → Prop) (Z : W → Prop) (s : World D K W S R) : Prop where
  calls : ∀ w r rest, s.calls.lookup w = some (r, rest) → Q r
  writes : ∀ w x, s.store.txns.lookup w = some x → ∀ f ∈ x.frames, ∀ wr ∈ f.writes, Z wr
  history : ∀ wr ∈ s.history, Z wr

variable {Q Q' : R → Prop} {Z Z' : W → Prop}

omit [DecidableEq K] in
theorem Carried.initial (d : D) : Carried Q Z (World.initial d : World D K W S R) where
  calls _ _ _ h := by cases h
  writes _ _ h := by cases h
  history _ h := by cases h

omit [DecidableEq K] in
theorem Carried.imp (h : Carried Q Z s) (hQ : ∀ r, Q r → Q' r) (hZ : ∀ wr, Z wr → Z' wr) :
    Carried Q' Z' s where
  calls w r rest hc := hQ r (h.calls w r rest hc)
  writes w x hx f hf wr hwr := hZ wr (h.writes w x hx f hf wr hwr)
  history wr hwr := hZ wr (h.history wr hwr)

omit [DecidableEq K] in
theorem Carried.step (h : Carried Q Z s) {op : Op K W} {st : Store D K W}
    (hst : step P.rules s.store w op = some st) (hwr : ∀ wr, op = .write wr → Z wr) :
    ∀ w' x, st.txns.lookup w' = some x → ∀ f ∈ x.frames, ∀ wr ∈ f.writes, Z wr := by
  intro w' y hy
  by_cases hne : w' = w
  · subst hne
    rcases step_cases hst with ⟨ks, -, -, -, rfl⟩ | ⟨x, -, -, rfl⟩ | ⟨x, -, -, rfl⟩ |
      ⟨x, x', hx, hnext, -, rfl⟩
    · rw [lookup_insert] at hy
      cases hy
      exact forall_mem_singleton.mpr fun _ hnil => by cases hnil
    · exact absurd rfl (lookup_erase_some hy).1
    · exact absurd rfl (lookup_erase_some hy).1
    · rw [lookup_insert] at hy
      cases hy
      have hold := h.writes w' x hx
      refine Txn.next_frames hnext hold (fun k _ => hold x.top mem_cons_self)
        fun wr hop wr' hwr' => ?_
      rcases mem_append.mp hwr' with hmem | hmem
      · exact hold x.top mem_cons_self wr' hmem
      · rw [mem_singleton.mp hmem]
        exact hwr wr hop
  · rw [step_lookup_ne hst hne] at hy
    exact h.writes w' y hy

omit [DecidableEq K] in
theorem Carried.transact (h : Carried Q Z s) {op : Op K W} (hs : transact P s w op = .ok s')
    (hwr : ∀ wr, op ≠ .write wr) : Carried Q Z s' := by
  obtain ⟨st, hst, hs⟩ := bind_eq_ok.mp hs
  cases hs
  rw [lift_eq_ok] at hst
  exact ⟨fun w' r rest hc => h.calls w' r rest (lookup_erase_some hc).2,
    h.step hst fun wr hop => absurd hop (hwr wr), h.history⟩

/-- Registers and writes satisfy what the statements give them. -/
theorem Carried.exec (h : Carried Q Z s) {a : Action I C} (hs : exec P s a = .ok s')
    (hinit : ∀ c, Q (P.init c))
    (hrun : ∀ w i, a = .step w i → ∀ t v r r' wr?, Q r → P.run t i v r = .ok (r', wr?) →
      Q r' ∧ ∀ wr ∈ wr?, Z wr) : Carried Q Z s' := by
  have hset : ∀ {st : Store D K W} {w : ℕ} {r : R} {rest : List (Instr K S)}, Q r →
      (∀ w' x, st.txns.lookup w' = some x → ∀ f ∈ x.frames, ∀ wr ∈ f.writes, Z wr) →
      Carried Q Z { s with store := st, calls := s.calls.insert w (r, rest) } := by
    intro st w r rest hr hst
    refine ⟨fun w' r' rest' hc => ?_, hst, h.history⟩
    rw [Table.lookup_insert'] at hc
    split at hc
    · cases hc
      exact hr
    · exact h.calls w' r' rest' hc
  cases a with
  | start w | savepoint w | rollback w | release w | abort w =>
    exact h.transact hs fun _ hop => by cases hop
  | commit w =>
    obtain ⟨x, hx, hs⟩ := bind_eq_ok.mp hs
    obtain ⟨s₁, h₁, hs⟩ := bind_eq_ok.mp hs
    cases hs
    rw [lift_eq_ok] at hx
    have hc := h.transact h₁ fun _ hop => by cases hop
    refine ⟨hc.calls, hc.writes, fun wr hwr => ?_⟩
    rcases mem_append.mp hwr with hold | hnew
    · exact hc.history wr hold
    · exact h.writes w x hx x.top mem_cons_self wr hnew
  | call w c =>
    obtain ⟨x, -, hs⟩ := bind_eq_ok.mp hs
    cases hs
    exact hset (hinit c) h.writes
  | fail w =>
    cases hs
    exact ⟨fun w' r rest hc => h.calls w' r rest (lookup_erase_some hc).2, h.writes, h.history⟩
  | step w i =>
    obtain ⟨⟨r, rest⟩, hc, hs⟩ := bind_eq_ok.mp hs
    rw [lift_eq_ok] at hc
    have hr : Q r := h.calls w r rest hc
    cases rest with
    | nil => cases hs
    | cons instr rest =>
      cases instr with
      | lock k =>
        obtain ⟨st, hst, hs⟩ := bind_eq_ok.mp hs
        cases hs
        rw [lift_eq_ok] at hst
        refine hset hr ?_
        obtain ⟨x, -, hst⟩ := Option.bind_eq_some_iff.mp hst
        split at hst
        · cases hst
          exact h.writes
        · exact h.step hst fun _ hop => by cases hop
      | stmt t =>
        obtain ⟨⟨r', wr?⟩, hout, hs⟩ := bind_eq_ok.mp hs
        obtain ⟨st, hst, hs⟩ := bind_eq_ok.mp hs
        cases hs
        rw [mapError_eq_ok] at hout
        rw [lift_eq_ok] at hst
        obtain ⟨hr', hwr⟩ := hrun w i rfl t _ r r' wr? hr hout
        refine hset hr' ?_
        cases wr? with
        | none =>
          cases hst
          exact h.writes
        | some wr =>
          refine h.step hst fun wr' hop => ?_
          cases hop
          exact hwr wr rfl

end Carried

end Locking
