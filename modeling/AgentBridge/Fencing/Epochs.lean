import AgentBridge.Chain.Basic
import AgentBridge.Fencing.Destination
import Mathlib.Algebra.Order.Ring.Rat

/-!
# Epochs exclude stale leaders

Every committed grant takes the next epoch, and every committed effect is under the epoch that is
current at its place in the committed history. This holds for all interleavings, because a call
locks the row of its fence before it decides; what it decides then stays true until it commits. The
clock plays no part in it. If the clock does not go back, a lease is also not taken over while it
lasts.

* `stale_leaders_excluded` : **epochs are consecutive, an effect is committed under the current epoch
  only, and at most once**.
-/

namespace AgentBridge.Fencing

open HashChain Locking List

/-! ### The specification -/

/-- The two data agree on what the lock protects. -/
def agree : Lock → Tables → Tables → Prop
  | .database, _, _ => True
  | .fence scope, d, d' => d.fences.lookup scope = d'.fences.lookup scope
  | .effect key, d, d' => d.effects.lookup key = d'.effects.lookup key

def fits (d : Tables) : Change → Prop
  | .grant scope fence checked => fence.epoch = nextEpoch (d.fences.lookup scope) ∧
    ∀ old, d.fences.lookup scope = some old → old.expires ≤ checked
  | .renew .. => True
  | .effect scope owner epoch key _ =>
    (∃ fence, d.fences.lookup scope = some fence ∧ fence.owner = owner ∧ fence.epoch = epoch) ∧
    d.effects.lookup key = none

def needs : Change → List Lock
  | .grant scope .. => [.fence scope]
  | .renew .. => []
  | .effect scope _ _ key _ => [.fence scope, .effect key]

theorem lookup_fences_apply (d : Tables) (ch : Change) (scope : PyString) :
    (d.apply ch).fences.lookup scope = match ch with
      | .grant scope' fence _ => if scope = scope' then some fence else d.fences.lookup scope
      | .renew scope' expires =>
        if scope = scope' then (d.fences.lookup scope).map fun fence => { fence with expires }
        else d.fences.lookup scope
      | .effect .. => d.fences.lookup scope := by
  cases ch with
  | grant scope' fence checked => exact Table.lookup_insert' ..
  | effect => rfl
  | renew scope' expires =>
    by_cases hscope : scope = scope'
    · subst hscope
      simp only [Tables.apply, if_true]
      cases hrow : d.fences.lookup scope with
      | none => simp [hrow]
      | some fence => simp
    · simp only [Tables.apply, if_neg hscope]
      cases hrow : d.fences.lookup scope' with
      | none => rfl
      | some fence => exact AList.lookup_insert_ne hscope

theorem lookup_effects_apply (d : Tables) (ch : Change) (key : EffectKey) :
    (d.apply ch).effects.lookup key = match ch with
      | .effect _ _ _ key' effect => if key = key' then some effect else d.effects.lookup key
      | _ => d.effects.lookup key := by
  cases ch with
  | grant => rfl
  | effect => exact Table.lookup_insert' ..
  | renew scope expires =>
    simp only [Tables.apply]
    split
    · rfl
    · rfl

theorem agree_untouched {k : Lock} {ch : Change} (d : Tables)
    (h : k.conflict ch.lock = false) : agree k d (d.apply ch) := by
  cases k with
  | database => trivial
  | fence scope =>
    rw [agree, lookup_fences_apply]
    cases ch with
    | effect => rfl
    | grant scope' fence checked | renew scope' expires =>
      have hne : scope ≠ scope' := of_decide_eq_false h
      exact (if_neg hne).symm
  | effect key =>
    rw [agree, lookup_effects_apply]
    cases ch with
    | grant => rfl
    | renew => rfl
    | effect scope owner epoch key' effect =>
      have hne : key ≠ key' := of_decide_eq_false h
      exact (if_neg hne).symm

theorem agree_apply {k : Lock} {d d' : Tables} (ch : Change) (h : agree k d d') :
    agree k (d.apply ch) (d'.apply ch) := by
  cases k with
  | database => trivial
  | fence scope =>
    have hd : d.fences.lookup scope = d'.fences.lookup scope := h
    rw [agree, lookup_fences_apply, lookup_fences_apply, hd]
  | effect key =>
    have hd : d.effects.lookup key = d'.effects.lookup key := h
    rw [agree, lookup_effects_apply, lookup_effects_apply, hd]

theorem fits_agree {d d' : Tables} {ch : Change} (h : ∀ k ∈ needs ch, agree k d d')
    (hfits : fits d ch) : fits d' ch := by
  cases ch with
  | renew => trivial
  | grant scope fence checked =>
    have hfence : d.fences.lookup scope = d'.fences.lookup scope :=
      h (.fence scope) mem_cons_self
    rwa [fits, ← hfence]
  | effect scope owner epoch key effect =>
    have hfence : d.fences.lookup scope = d'.fences.lookup scope :=
      h (.fence scope) mem_cons_self
    have heffect : d.effects.lookup key = d'.effects.lookup key :=
      h (.effect key) (mem_cons_of_mem _ mem_cons_self)
    rwa [fits, ← hfence, ← heffect]

def spec : Spec rules where
  agree := agree
  agree_refl k d := by
    cases k with
    | database => trivial
    | fence scope => rfl
    | effect key => rfl
  agree_trans := by
    intro k d₁ d₂ d₃ h h'
    cases k with
    | database => trivial
    | fence scope | effect key => exact Eq.trans h h'
  untouched := agree_untouched
  agree_apply := agree_apply
  fits := fits
  needs := needs
  fits_agree := fits_agree

/-! ### The scripts are safe -/

section Safe

variable {kind : Kind} {plus : ℚ → ℚ → ℚ} {rest : List (Instr Lock Statement)} {ks : List Lock}
  {d : Tables} {r r' : Registers} {i : Input} {wr? : Option Change} {denied : Denied}

theorem run_require {ok : Bool} (h : (program kind plus).run (.require ok denied) i d r = .ok (r', wr?)) :
    r' = r ∧ wr? = none := by
  simp only [program, run] at h
  split at h
  · cases h
    exact ⟨rfl, rfl⟩
  · cases h

theorem run_sign (h : (program kind plus).run (.sign denied) i d r = .ok (r', wr?)) :
    r'.row = r.row ∧ r'.stamp = r.stamp ∧ wr? = none := by
  simp only [program, run] at h
  split at h
  · cases h
  · cases h
    exact ⟨rfl, rfl, rfl⟩

variable {scope : PyString}

theorem run_selectFence
    (h : (program kind plus).run (.selectFence scope denied) i d r = .ok (r', wr?)) :
    r' = { r with row := d.fences.lookup scope } ∧ wr? = none ∧
    ∀ fence now, d.fences.lookup scope = some fence → r.stamp = some now → fence.expires ≤ now := by
  simp only [program, run] at h
  split at h
  case isTrue => cases h
  case isFalse hlive =>
    cases h
    refine ⟨rfl, rfl, fun fence now hfence hnow => ?_⟩
    rw [hfence, hnow] at hlive
    simpa using hlive

theorem run_existsFence
    (h : (program kind plus).run (.existsFence scope denied) i d r = .ok (r', wr?)) :
    r' = r ∧ wr? = none := by
  simp only [program, run] at h
  split at h
  · cases h
    exact ⟨rfl, rfl⟩
  · cases h

theorem run_checkFence {owner : PyString} {epoch : ℤ}
    (h : (program kind plus).run (.checkFence scope owner epoch denied) i d r = .ok (r', wr?)) :
    r' = r ∧ wr? = none ∧
    ∃ fence, d.fences.lookup scope = some fence ∧ fence.owner = owner ∧ fence.epoch = epoch := by
  simp only [program, run] at h
  split at h
  case h_1 => cases h
  case h_2 fence hfence =>
    split at h
    case isTrue hmine =>
      cases h
      exact ⟨rfl, rfl, fence, hfence, hmine.1, hmine.2.1⟩
    case isFalse => cases h

theorem run_checkEffect {key : EffectKey}
    (h : (program kind plus).run (.checkEffect key denied) i d r = .ok (r', wr?)) : r' = r ∧ wr? = none := by
  simp only [program, run] at h
  split at h
  · cases h
  · cases h
    exact ⟨rfl, rfl⟩

/-- A check of the arguments leaves everything as it was. -/
theorem safe_require {ok : Bool} (h : ∀ d, Safe (program kind plus) spec rest ks d r) :
    Safe (program kind plus) spec (.stmt (.require ok denied) :: rest) ks d r := by
  refine Safe.read (fun i d r' wr? hrun => (run_require hrun).2) fun d' i r' _ hrun => ?_
  rw [(run_require hrun).1]
  exact h d'

/-- What the last statement of `commit` finds under the locks on fence and effect. -/
theorem safe_insertEffect {owner fingerprint reference : PyString} {epoch : ℤ} {key : EffectKey}
    (hscope : Lock.fence scope ∈ ks) (hkey : Lock.effect key ∈ ks)
    (hfence : ∃ fence, d.fences.lookup scope = some fence ∧ fence.owner = owner ∧ fence.epoch =
      epoch) :
    Safe (program kind plus) spec
      [.stmt (.insertEffect scope owner epoch key fingerprint reference denied)] ks d r := by
  intro d' hd' i r' wr? hrun
  have hsame : d.fences.lookup scope = d'.fences.lookup scope := hd' (.fence scope) hscope
  simp only [program, run] at hrun
  split at hrun
  case isTrue => cases hrun
  case isFalse hnew =>
    cases hrun
    refine ⟨hkey, ?_, ⟨hsame ▸ hfence, by simpa using hnew⟩, trivial⟩
    exact cons_subset.mpr ⟨hscope, cons_subset.mpr ⟨hkey, nil_subset _⟩⟩

theorem safe_sqlite (queued : Bool) (c : Call) :
    Safe (program kind plus) spec (sqliteScript queued c) ks d {} := by
  cases c with
  | renew => trivial
  | acquire scope owner ttl =>
    refine safe_require fun d₁ => safe_require fun d₂ d₃ _ => ?_
    refine Safe.read (fun _ _ _ _ hrun => by cases hrun; rfl) fun d₄ i₄ r₄ _ h₄ => ?_
    cases h₄
    refine Safe.read (fun _ _ _ _ hrun => (run_selectFence hrun).2.1) fun d₅ i₅ r₅ _ h₅ => ?_
    obtain ⟨rfl, -, hexpired⟩ := run_selectFence h₅
    intro d₆ hd₆ i₆ r₆ wr? hrun
    cases hrun
    have hsame : d₅.fences.lookup scope = d₆.fences.lookup scope :=
      hd₆ (.fence scope) mem_cons_self
    refine ⟨mem_cons_self, cons_subset.mpr ⟨mem_cons_self, nil_subset _⟩, ?_,
      trivial⟩
    rw [hsame] at hexpired
    exact ⟨by rw [← hsame], fun old hold => hexpired old i₄.now hold rfl⟩
  | commit scope owner epoch agent operation fingerprint =>
    refine safe_require fun d₁ => safe_require fun d₂ => safe_require fun d₃ d₄ _ => ?_
    refine Safe.read (fun _ _ _ _ hrun => (run_checkFence hrun).2.1) fun d₅ i₅ r₅ _ h₅ => ?_
    obtain ⟨-, -, hfence⟩ := run_checkFence h₅
    intro d₆ hd₆
    have h₆ : d₅.fences.lookup scope = d₆.fences.lookup scope :=
      hd₆ (.fence scope) mem_cons_self
    refine Safe.read (fun _ _ _ _ hrun => (run_checkEffect hrun).2) fun d₇ i₇ r₇ hd₇ _ => ?_
    have h₇ : d₆.fences.lookup scope = d₇.fences.lookup scope :=
      hd₇ (.fence scope) (mem_cons_of_mem _ mem_cons_self)
    refine Safe.read (fun _ _ _ _ hrun => (run_sign hrun).2.2) fun d₈ i₈ r₈ hd₈ _ => ?_
    have h₈ : d₇.fences.lookup scope = d₈.fences.lookup scope :=
      hd₈ (.fence scope) (mem_cons_of_mem _ mem_cons_self)
    refine safe_insertEffect (mem_cons_of_mem _ mem_cons_self) mem_cons_self ?_
    rwa [← h₈, ← h₇, ← h₆]

theorem safe_postgres (c : Call) :
    Safe (program kind plus) spec (postgresScript c) ks d {} := by
  cases c with
  | acquire scope owner ttl =>
    refine safe_require fun d₁ => safe_require fun d₂ => ?_
    refine Safe.read (fun _ _ _ _ hrun => by cases hrun; rfl) fun d₃ i₃ r₃ _ h₃ => ?_
    cases h₃
    intro d₄ _ d₅ _ i₅ r₅ wr? hrun
    have hlocks : needs (.grant scope ⟨owner, 1, 0⟩ 0) ⊆ Lock.fence scope :: ks :=
      cons_subset.mpr ⟨mem_cons_self, nil_subset _⟩
    simp only [program, run] at hrun
    split at hrun
    case h_1 hrow =>
      cases hrun
      refine ⟨mem_cons_self, hlocks, ⟨?_, fun old hold => ?_⟩, trivial⟩
      · rw [hrow]
        rfl
      · rw [hrow] at hold
        cases hold
    case h_2 fence hrow =>
      split at hrun
      case isTrue hexpired =>
        cases hrun
        refine ⟨mem_cons_self, hlocks, ⟨?_, fun old hold => ?_⟩, trivial⟩
        · rw [hrow]
          rfl
        · rw [hrow] at hold
          cases hold
          exact hexpired
      case isFalse => cases hrun
  | renew scope owner epoch ttl =>
    refine safe_require fun d₁ => safe_require fun d₂ d₃ _ => ?_
    refine Safe.read (fun _ _ _ _ hrun => (run_existsFence hrun).2) fun d₄ i₄ r₄ _ _ => ?_
    intro d₅ _ i₅ r₅ wr? hrun
    simp only [program, run] at hrun
    split at hrun
    case h_1 => cases hrun
    case h_2 fence hrow =>
      split at hrun
      case isTrue =>
        cases hrun
        exact ⟨mem_cons_self, nil_subset _, trivial, trivial⟩
      case isFalse => cases hrun
  | commit scope owner epoch agent operation fingerprint =>
    refine safe_require fun d₁ => safe_require fun d₂ => ?_
    refine Safe.read (fun _ _ _ _ hrun => (run_sign hrun).2.2) fun d₃ i₃ r₃ _ _ => ?_
    intro d₄ _
    refine Safe.read (fun _ _ _ _ hrun => (run_existsFence hrun).2) fun d₅ i₅ r₅ _ _ => ?_
    refine Safe.read (fun _ _ _ _ hrun => (run_checkFence hrun).2.1) fun d₆ i₆ r₆ _ h₆ => ?_
    obtain ⟨-, -, hfence⟩ := run_checkFence h₆
    intro d₇ hd₇
    have h₇ : d₆.fences.lookup scope = d₇.fences.lookup scope :=
      hd₇ (.fence scope) mem_cons_self
    refine safe_insertEffect (mem_cons_of_mem _ mem_cons_self) mem_cons_self ?_
    rwa [← h₇]

end Safe

theorem verified (kind : Kind) (plus : ℚ → ℚ → ℚ) : Verified (program kind plus) spec := by
  intro c ks d _
  cases kind with
  | sqlite queued => exact safe_sqlite queued c
  | postgres => exact safe_postgres c

/-! ### Serial histories -/

/-- The fences that the history grants for a scope, in order. -/
def grants (scope : PyString) (history : List Change) : List Fence :=
  history.filterMap fun
    | .grant scope' fence _ => if scope' = scope then some fence else none
    | _ => none

/-- The effects of the history, in order. -/
def effectKeys (history : List Change) : List EffectKey :=
  history.filterMap fun
    | .effect _ _ _ key _ => some key
    | _ => none

/-- The tables are what the history makes of empty ones. -/
structure Tracks (d : Tables) (history : List Change) : Prop where
  numbered : ∀ scope, Numbered Fence.epoch 1 (grants scope history)
  /-- The current fence is the last one granted, but for its expiry. -/
  current : ∀ scope, (d.fences.lookup scope).map (fun f => (f.owner, f.epoch)) =
    (grants scope history).getLast?.map fun f => (f.owner, f.epoch)
  nodup : (effectKeys history).Nodup
  effects : ∀ key, d.effects.lookup key = none ↔ key ∉ effectKeys history

theorem grants_concat (scope : PyString) (history : List Change) (ch : Change) :
    grants scope (history ++ [ch]) = grants scope history ++ grants scope [ch] :=
  filterMap_append

theorem effectKeys_concat (history : List Change) (ch : Change) :
    effectKeys (history ++ [ch]) = effectKeys history ++ effectKeys [ch] :=
  filterMap_append

namespace Tracks

variable {d : Tables} {history : List Change}

theorem initial : Tracks {} [] :=
  ⟨fun _ => trivial, fun _ => rfl, nodup_nil, fun _ => ⟨fun _ => not_mem_nil, fun _ => rfl⟩⟩

theorem nextEpoch_eq (h : Tracks d history) (scope : PyString) :
    nextEpoch (d.fences.lookup scope) = 1 + (grants scope history).length := by
  have hcurrent := h.current scope
  cases hlast : (grants scope history).getLast? with
  | none =>
    rw [hlast, Option.map_none, Option.map_eq_none_iff] at hcurrent
    rw [hcurrent, getLast?_eq_none_iff.mp hlast]
    rfl
  | some last =>
    rw [hlast, Option.map_some, Option.map_eq_some_iff] at hcurrent
    obtain ⟨fence, hfence, heq⟩ := hcurrent
    obtain ⟨init, hinit⟩ := getLast?_eq_some_iff.mp hlast
    have hget : (grants scope history)[init.length]? = some last := by simp [hinit]
    have hepoch : fence.epoch = 1 + init.length := by
      have hsame : fence.epoch = last.epoch := (Prod.ext_iff.mp heq).2
      rw [hsame]
      exact (h.numbered scope).getElem? hget
    rw [hfence, hinit, length_append, length_singleton]
    show fence.epoch + 1 = _
    push_cast
    omega

theorem apply (h : Tracks d history) {ch : Change} (hfits : fits d ch) :
    Tracks (d.apply ch) (history ++ [ch]) := by
  cases ch with
  | grant scope₀ fence checked =>
    have hgrants : ∀ scope, grants scope [.grant scope₀ fence checked] =
        if scope = scope₀ then [fence] else [] := by
      intro scope
      by_cases hscope : scope = scope₀
      · simp [grants, hscope]
      · simp [grants, hscope, Ne.symm hscope]
    refine ⟨fun scope => ?_, fun scope => ?_, ?_, fun key => ?_⟩
    · rw [grants_concat, hgrants, numbered_append]
      refine ⟨h.numbered scope, ?_⟩
      by_cases hscope : scope = scope₀
      · subst hscope
        rw [if_pos rfl, ← h.nextEpoch_eq]
        exact ⟨hfits.1, trivial⟩
      · rw [if_neg hscope]
        trivial
    · rw [grants_concat, hgrants, lookup_fences_apply]
      by_cases hscope : scope = scope₀
      · simp [hscope]
      · simp [hscope, h.current scope]
    · rw [effectKeys_concat]
      exact (append_nil (effectKeys history)).symm ▸ h.nodup
    · rw [effectKeys_concat, lookup_effects_apply]
      exact (append_nil (effectKeys history)).symm ▸ h.effects key
  | renew scope₀ expires =>
    have hgrants : ∀ scope, grants scope (history ++ [.renew scope₀ expires]) =
        grants scope history := fun scope => by
      rw [grants_concat]
      exact append_nil _
    have hkeys : effectKeys (history ++ [.renew scope₀ expires]) = effectKeys history := by
      rw [effectKeys_concat]
      exact append_nil _
    refine ⟨fun scope => hgrants scope ▸ h.numbered scope, fun scope => ?_, hkeys ▸ h.nodup,
      fun key => ?_⟩
    · rw [hgrants, ← h.current scope, lookup_fences_apply]
      by_cases hscope : scope = scope₀
      · simp [hscope, Option.map_map, Function.comp_def]
      · simp [hscope]
    · rw [hkeys, lookup_effects_apply]
      exact h.effects key
  | effect scope₀ owner epoch key₀ effect =>
    have hgrants : ∀ scope, grants scope (history ++ [.effect scope₀ owner epoch key₀ effect]) =
        grants scope history := fun scope => by
      rw [grants_concat]
      exact append_nil _
    have hkeys : effectKeys (history ++ [.effect scope₀ owner epoch key₀ effect]) =
        effectKeys history ++ [key₀] := effectKeys_concat _ _
    have hnew : key₀ ∉ effectKeys history := (h.effects key₀).mp hfits.2
    refine ⟨fun scope => hgrants scope ▸ h.numbered scope, fun scope => hgrants scope ▸ h.current scope,
      ?_, fun key => ?_⟩
    · rw [hkeys]
      exact nodup_append.mpr ⟨h.nodup, nodup_singleton _, by
        intro a ha b hb
        rw [mem_singleton.mp hb]
        rintro rfl
        exact hnew ha⟩
    · rw [hkeys, lookup_effects_apply]
      by_cases hkey : key = key₀
      · simp [hkey]
      · simp [hkey, h.effects key]

/-- A serial history: the induction is on the history, one change at a time. -/
theorem foldl {more : List Change} (hserial : spec.Serial d more) (h : Tracks d history) :
    Tracks (more.foldl Tables.apply d) (history ++ more) := by
  induction more generalizing d history with
  | nil => rwa [append_nil]
  | cons ch more ih =>
    have hnext := ih hserial.2 (h.apply hserial.1)
    rwa [append_assoc, singleton_append] at hnext

theorem of_serial (hserial : spec.Serial {} history) :
    Tracks (history.foldl Tables.apply {}) history := by
  have h := foldl hserial initial
  rwa [nil_append] at h

end Tracks

theorem effect_under_current {before after : List Change} {scope owner : PyString} {epoch : ℤ}
    {key : EffectKey} {effect : Effect}
    (hserial : spec.Serial {} (before ++ .effect scope owner epoch key effect :: after)) :
    (∃ fence ∈ grants scope before, fence.owner = owner ∧ fence.epoch = epoch) ∧
    (∀ fence ∈ grants scope before, fence.epoch ≤ epoch) ∧
    ∀ fence ∈ grants scope after, epoch < fence.epoch := by
  obtain ⟨hbefore, ⟨⟨fence, hrow, howner, hepoch⟩, -⟩, -⟩ := Spec.serial_append.mp hserial
  have hfence : (before.foldl Tables.apply {}).fences.lookup scope = some fence := hrow
  have ht := Tracks.of_serial hbefore
  have hall := Tracks.of_serial hserial
  -- the current fence is the last of the grants before
  have hcurrent := ht.current scope
  rw [hfence, Option.map_some, eq_comm, Option.map_eq_some_iff] at hcurrent
  obtain ⟨last, hlast, heq⟩ := hcurrent
  obtain ⟨howner', hepoch'⟩ := Prod.mk.inj heq
  have hcount : epoch = (grants scope before).length := by
    have hnext := ht.nextEpoch_eq scope
    rw [hfence] at hnext
    have : fence.epoch + 1 = 1 + ((grants scope before).length : ℤ) := hnext
    omega
  have hsplit : grants scope (before ++ .effect scope owner epoch key effect :: after) =
      grants scope before ++ grants scope after := filterMap_append
  have hnumbered := hall.numbered scope
  rw [hsplit, numbered_append] at hnumbered
  refine ⟨⟨last, mem_of_getLast? hlast, howner'.trans howner, hepoch'.trans hepoch⟩,
    fun f hf => ?_, fun f hf => ?_⟩
  · obtain ⟨i, hi⟩ := mem_iff_getElem?.mp hf
    have hlt : i < (grants scope before).length := (List.getElem?_eq_some_iff.mp hi).1
    rw [(ht.numbered scope).getElem? hi]
    omega
  · have hle := hnumbered.2.le_of_mem hf
    omega

/-! ### A clock that does not go back -/

/-- The readings of a step are made while it runs, from `t` to `t'`. -/
def isReadBetween (t t' : ℚ) : Action Input Call → Bool
  | .step _ i => t ≤ i.now && i.now ≤ i.later && i.later ≤ t'
  | _ => true

/-- A step with the time when it ends. -/
def timedExec (kind : Kind) (plus : ℚ → ℚ → ℚ) (s : Destination × ℚ)
    (a : Action Input Call × ℚ) : Except (Locking.Fault Denied) (Destination × ℚ) :=
  if s.2 ≤ a.2 ∧ isReadBetween s.2 a.2 a.1 = true then
    (exec (program kind plus) s.1 a.1).map fun s' => (s', a.2)
  else .error .blocked

/-- The system with its clock. -/
def timed (kind : Kind) (plus : ℚ → ℚ → ℚ) : LTS (Destination × ℚ) (Action Input Call × ℚ) :=
  .ofExec (timedExec kind plus)

/-- A reading of the clock that a call keeps is not in the future. -/
def Registers.Past (t : ℚ) (r : Registers) : Prop := ∀ now, r.stamp = some now → now ≤ t

/-- A lease was found expired in the past. -/
def Change.Past (t : ℚ) : Change → Prop
  | .grant _ _ checked => checked ≤ t
  | _ => True

section Timed

variable {kind : Kind} {plus : ℚ → ℚ → ℚ} {t₀ t : ℚ} {p p' : Destination × ℚ}

theorem timed_step {a : Action Input Call × ℚ}
    (h : (timed kind plus).step p a p') :
    exec (program kind plus) p.1 a.1 = .ok p'.1 ∧ p.2 ≤ p'.2 ∧
    ∀ w i, a.1 = .step w i → i.now ≤ p'.2 := by
  change timedExec kind plus p a = .ok p' at h
  unfold timedExec at h
  split at h
  case isFalse => cases h
  case isTrue htime =>
    cases hexec : exec (program kind plus) p.1 a.1 with
    | error e => simp [hexec, Except.map] at h
    | ok s' =>
      rw [hexec] at h
      cases h
      refine ⟨rfl, htime.1, fun w i ha => ?_⟩
      have hread := htime.2
      rw [ha] at hread
      simp only [isReadBetween, Bool.and_eq_true, decide_eq_true_eq] at hread
      exact hread.1.2.trans hread.2

theorem run_past {stmt : Statement} {i : Input} {d : Tables} {r r' : Registers}
    {wr? : Option Change} (hnow : i.now ≤ t) (hr : r.Past t)
    (h : (program kind plus).run stmt i d r = .ok (r', wr?)) :
    r'.Past t ∧ ∀ ch ∈ wr?, ch.Past t := by
  cases stmt with
  | require ok denied =>
    obtain ⟨rfl, rfl⟩ := run_require h
    exact ⟨hr, nofun⟩
  | stamp =>
    cases h
    refine ⟨fun now hnow' => ?_, nofun⟩
    cases hnow'
    exact hnow
  | sign denied =>
    obtain ⟨-, hstamp, rfl⟩ := run_sign h
    exact ⟨fun now hnow' => hr now (hstamp ▸ hnow'), nofun⟩
  | selectFence scope denied =>
    obtain ⟨rfl, rfl, -⟩ := run_selectFence h
    exact ⟨hr, nofun⟩
  | upsertFence scope owner ttl =>
    cases h
    refine ⟨hr, fun ch hch => ?_⟩
    obtain ⟨now, hstamp, rfl⟩ := Option.map_eq_some_iff.mp hch
    exact hr now hstamp
  | grantFence scope owner ttl denied =>
    simp only [program, run] at h
    split at h
    · cases h
      refine ⟨hr, fun ch hch => ?_⟩
      obtain ⟨now, hstamp, rfl⟩ := Option.map_eq_some_iff.mp hch
      exact hr now hstamp
    · split at h
      · cases h
        refine ⟨hr, fun ch hch => ?_⟩
        cases hch
        exact hnow
      · cases h
  | existsFence scope denied =>
    obtain ⟨rfl, rfl⟩ := run_existsFence h
    exact ⟨hr, nofun⟩
  | extendFence scope owner epoch ttl denied =>
    simp only [program, run] at h
    split at h
    · cases h
    · split at h
      · cases h
        refine ⟨hr, fun ch hch => ?_⟩
        cases hch
        trivial
      · cases h
  | checkFence scope owner epoch denied =>
    obtain ⟨rfl, rfl, -⟩ := run_checkFence h
    exact ⟨hr, nofun⟩
  | checkEffect key denied =>
    obtain ⟨rfl, rfl⟩ := run_checkEffect h
    exact ⟨hr, nofun⟩
  | insertEffect scope owner epoch key fingerprint reference denied =>
    simp only [program, run] at h
    split at h
    · cases h
    · cases h
      refine ⟨hr, fun ch hch => ?_⟩
      cases hch
      trivial

/-- All that calls have read and written is in the past. -/
theorem carried_of_timed (h : (timed kind plus).Reachable (World.initial {}, t₀) p) :
    Carried (Registers.Past p.2) (Change.Past p.2) p.1 := by
  refine LTS.Reachable.invariant (A := timed kind plus)
    (I := fun p => Carried (Registers.Past p.2) (Change.Past p.2) p.1) h (.initial _) ?_
  intro p a p' hc hstep
  obtain ⟨hexec, hle, hread⟩ := timed_step hstep
  have hc' : Carried (Registers.Past p'.2) (Change.Past p'.2) p.1 := by
    refine hc.imp (fun r hr now hnow => (hr now hnow).trans hle) fun ch hch => ?_
    cases ch with
    | grant scope fence checked => exact le_trans hch hle
    | renew => trivial
    | effect => trivial
  refine hc'.exec hexec (fun c now hnow => by cases hnow) ?_
  intro w i ha stmt d r r' wr? hr hrun
  exact run_past (hread w i ha) hr hrun

theorem reachable_of_timed (h : (timed kind plus).Reachable (World.initial {}, t₀) p) :
    (system kind plus).Reachable (World.initial {}) p.1 := by
  refine LTS.Reachable.invariant (A := timed kind plus)
    (I := fun p => (system kind plus).Reachable (World.initial {}) p.1) h (.refl _) ?_
  intro p a p' hs hstep
  exact hs.trans (.of_step (timed_step hstep).1)

/-- When a grant is committed, the lease that it takes over has expired. -/
theorem expired_of_commit (h : (timed kind plus).Reachable (World.initial {}, t₀) p) {w : ℕ}
    (hstep : (timed kind plus).step p (.commit w, t) p') {before after : List Change}
    {scope : PyString} {fence : Fence} {checked : ℚ}
    (hhistory : p'.1.history = before ++ .grant scope fence checked :: after) {old : Fence}
    (hold : (before.foldl Tables.apply {}).fences.lookup scope = some old) :
    old.expires ≤ p.2 := by
  have hreach : (system kind plus).Reachable (World.initial {}) p'.1 :=
    (reachable_of_timed h).trans (.of_step (timed_step hstep).1)
  obtain ⟨hserial, -⟩ := serial (verified kind plus) hreach
  rw [hhistory] at hserial
  have hfits := (Spec.serial_append.mp hserial).2.1
  have hcarried := (carried_of_timed h).exec (timed_step hstep).1 (fun c now hnow => by cases hnow)
    fun w' i ha => by cases ha
  have hpast : Change.Past p.2 (.grant scope fence checked) := by
    refine hcarried.history _ ?_
    rw [hhistory]
    exact mem_append_right _ mem_cons_self
  exact (hfits.2 old hold).trans hpast

end Timed

/-! ### All interleavings -/

/-- **Epochs exclude stale leaders.** In every interleaving, with any readings of the clock, the
epochs that are granted for a scope are `1, 2, 3, …` in the order of the commits; an effect is
committed under the owner and epoch that were granted last for its scope; and no operation has two
effects. If the clock does not go back, the lease that a committed grant takes over has expired. -/
theorem stale_leaders_excluded (kind : Kind) (plus : ℚ → ℚ → ℚ) (s : Destination)
    (h : (system kind plus).Reachable (World.initial {}) s) :
    (∀ scope (i : ℕ) fence, (grants scope s.history)[i]? = some fence → fence.epoch = 1 + i) ∧
    (∀ before after scope owner epoch key effect,
      s.history = before ++ .effect scope owner epoch key effect :: after →
      (∃ fence ∈ grants scope before, fence.owner = owner ∧ fence.epoch = epoch) ∧
      (∀ fence ∈ grants scope before, fence.epoch ≤ epoch) ∧
      ∀ fence ∈ grants scope after, epoch < fence.epoch) ∧
    (effectKeys s.history).Nodup ∧
    (∀ t₀ p p' w t, (timed kind plus).Reachable (World.initial {}, t₀) p →
      (timed kind plus).step p (.commit w, t) p' → ∀ before after scope fence checked,
      p'.1.history = before ++ .grant scope fence checked :: after →
      ∀ old, (before.foldl Tables.apply {}).fences.lookup scope = some old → old.expires ≤ p.2) := by
  obtain ⟨hserial, -⟩ := serial (verified kind plus) h
  have htracks := Tracks.of_serial hserial
  refine ⟨fun scope i fence hi => (htracks.numbered scope).getElem? hi, ?_, htracks.nodup, ?_⟩
  · intro before after scope owner epoch key effect hhistory
    rw [hhistory] at hserial
    exact effect_under_current hserial
  · intro t₀ p p' w t hreach hstep before after scope fence checked hhistory old hold
    exact expired_of_commit hreach hstep hhistory hold

/-! ### A run -/

def sampleScope : PyString := .ofString "payments"

/-- The first `n` steps of a call at time `t`. -/
def sampleCall (w n : ℕ) (t : ℚ) (c : Call) : List (Action Input Call × ℚ) :=
  (.start w, t) :: (.call w c, t) ::
    List.replicate n (.step w ⟨t, t, some (.ofString "signature")⟩, t)

/-- The first worker acquires the fence, the second commits an effect under it. The third has to
wait with its takeover until that effect is committed. -/
def sampleBefore : Destination × ℚ :=
  LTS.drive (timedExec .postgres (· + ·)) (World.initial {}, 0)
    [sampleCall 1 5 0 (.acquire sampleScope (.ofString "a") (.int 1)), [(.commit 1, 0)],
      sampleCall 2 8 0 (.commit sampleScope (.ofString "a") 1 (.ofString "agent") (.ofString "op")
        (.ofString "fingerprint")),
      sampleCall 3 4 1 (.acquire sampleScope (.ofString "b") (.int 1)), [(.commit 2, 1)],
      List.replicate 2 (.step 3 ⟨1, 1, none⟩, 1)].flatten

/-- The takeover is committed. -/
def sampleAfter : Destination × ℚ :=
  LTS.attempt (timedExec .postgres (· + ·)) sampleBefore (.commit 3, 1)

theorem sampleBefore_reachable :
    (timed .postgres (· + ·)).Reachable (World.initial {}, 0) sampleBefore :=
  LTS.reachable_drive _ _ _

theorem sampleAfter_step :
    (timed .postgres (· + ·)).step sampleBefore (.commit 3, 1) sampleAfter :=
  LTS.step_attempt (by decide +kernel)

theorem sample_stale_leaders_excluded :
    (grants sampleScope sampleAfter.1.history).map (·.epoch) = [1, 2] ∧
    (effectKeys sampleAfter.1.history).Nodup ∧
    ∃ old : Fence, old.epoch = 1 ∧ old.expires ≤ sampleBefore.2 := by
  have hreach : (system .postgres (· + ·)).Reachable (World.initial {}) sampleAfter.1 :=
    (reachable_of_timed sampleBefore_reachable).trans (.of_step (timed_step sampleAfter_step).1)
  have hall := stale_leaders_excluded .postgres (· + ·) sampleAfter.1 hreach
  have hhistory : sampleAfter.1.history = sampleAfter.1.history.take 2 ++
      [.grant sampleScope ⟨.ofString "b", 2, 2⟩ 1] := by decide +kernel
  have hold : ((sampleAfter.1.history.take 2).foldl Tables.apply {}).fences.lookup sampleScope =
      some ⟨.ofString "a", 1, 1⟩ := by decide +kernel
  refine ⟨by decide +kernel, hall.2.2.1, ⟨.ofString "a", 1, 1⟩, rfl, ?_⟩
  exact hall.2.2.2 0 sampleBefore sampleAfter 3 1 sampleBefore_reachable sampleAfter_step
    (sampleAfter.1.history.take 2) [] sampleScope ⟨.ofString "b", 2, 2⟩ 1 hhistory _ hold

end AgentBridge.Fencing
