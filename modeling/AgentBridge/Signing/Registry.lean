import AgentBridge.Protocols.Value
import Mathlib.Data.List.Chain
import Mathlib.Data.List.Nodup
import Mathlib.Data.List.Sort

/-!
# Registries of signing keys

A registry names the public keys of one domain. A key is staged, active or revoked; only an active
key verifies new evidence. A registry is replaced as a whole, and `validate_rotation` says which
registry may follow which: no key disappears, changes or goes back, and a new key is staged first.

* `Descends.of_isChain` : **a key stays what it is through any number of rotations**.
* `staged_of_isChain` : **a key that was not there at first was staged**.
* `rotations_move_forward` : **trust only moves forward, and is never lost**.
-/

namespace AgentBridge.Signing

open Protocols List Except

/-! ### Keys -/

/-- The state of a key, in the order in which a key passes through them. -/
inductive KeyState
  | staged
  | active
  | revoked
  deriving DecidableEq, Repr

namespace KeyState

def text : KeyState → String
  | staged => "staged"
  | active => "active"
  | revoked => "revoked"

/-- `entry.state in ("staged","active","revoked")`. -/
def ofValue? (v : Value) : Option KeyState :=
  [staged, active, revoked].find? fun s => v.isText s.text

/-- The table of `validate_rotation`. -/
def allowed : KeyState → List KeyState
  | staged => [staged, active, revoked]
  | active => [active, revoked]
  | revoked => [revoked]

theorem mem_allowed_refl (s : KeyState) : s ∈ s.allowed := by cases s <;> decide

theorem mem_allowed_trans {s t u : KeyState} (hst : t ∈ s.allowed) (htu : u ∈ t.allowed) :
    u ∈ s.allowed := by
  revert hst htu
  cases s <;> cases t <;> cases u <;> decide

end KeyState

/-- Lower case, for text that is hexadecimal. -/
def lower (s : PyString) : PyString where
  codes := s.codes.map fun c => if 65 ≤ c ∧ c ≤ 90 then c + 32 else c
  valid c hc := by
    obtain ⟨d, hd, rfl⟩ := mem_map.mp hc
    have := s.valid d hd
    split <;> omega

/-- Hexadecimal digits in either case, so many of them. -/
def isHexDigits (s : PyString) (length : ℕ) : Bool :=
  s.codes.length = length &&
    s.codes.all fun c => 48 ≤ c && c ≤ 57 || 97 ≤ c && c ≤ 102 || 65 ≤ c && c ≤ 70

/-- `ObserverKey`. -/
structure ObserverKey where
  keyId : PyString
  publicKeyHex : PyString
  state : KeyState
  deriving DecidableEq

/-- The public key itself, whatever the case of its text. -/
def ObserverKey.material (k : ObserverKey) : PyString := lower k.publicKeyHex

/-! ### Registries -/

/-- `ObserverTrustRegistry`: no identity and no public key occurs twice. -/
structure Registry where
  keys : List ObserverKey
  ids_nodup : (keys.map ObserverKey.keyId).Nodup
  materials_nodup : (keys.map ObserverKey.material).Nodup
  deriving DecidableEq

namespace Registry

/-- Another key, with an identity and a public key that are new. -/
def push (r : Registry) (k : ObserverKey) (hid : ∀ k' ∈ r.keys, k'.keyId ≠ k.keyId)
    (hmaterial : ∀ k' ∈ r.keys, k'.material ≠ k.material) : Registry where
  keys := r.keys ++ [k]
  ids_nodup := by
    rw [map_append, map_singleton, nodup_append_comm]
    exact nodup_cons.mpr ⟨by simpa [eq_comm] using hid, r.ids_nodup⟩
  materials_nodup := by
    rw [map_append, map_singleton, nodup_append_comm]
    exact nodup_cons.mpr ⟨by simpa [eq_comm] using hmaterial, r.materials_nodup⟩

/-- A row of the key list, of the right shape but unchecked. -/
structure Entry where
  keyId : Value
  publicKeyHex : Value
  state : Value

/-- One turn of the loop of `ObserverTrustRegistry`; `isPublicKey` is
`Ed25519PublicKey.from_public_bytes`. -/
def add (isPublicKey : PyString → Bool) (r : Registry) (entry : Entry) : Except String Registry :=
  match entry.keyId, KeyState.ofValue? entry.state with
  | .str keyId, some state => do
    require (1 ≤ keyId.codes.length && keyId.codes.length ≤ 128)
      "invalid or duplicate observer key identity"
    if hid : ∀ k ∈ r.keys, k.keyId ≠ keyId then
      match entry.publicKeyHex with
      | .str publicKeyHex => do
        require (isHexDigits publicKeyHex 64 && isPublicKey (lower publicKeyHex))
          "invalid observer public key"
        if hmaterial : ∀ k ∈ r.keys, k.material ≠ lower publicKeyHex then
          return r.push ⟨keyId, publicKeyHex, state⟩ hid hmaterial
        else throw "public key reused under another observer identity"
      | _ => throw "invalid observer public key"
    else throw "invalid or duplicate observer key identity"
  | _, _ => throw "invalid or duplicate observer key identity"

/-- `ObserverTrustRegistry(entries)`. -/
def ofEntries (isPublicKey : PyString → Bool) (entries : List Entry) : Except String Registry := do
  require (!entries.isEmpty) "explicit trusted observer keys required"
  entries.foldlM (add isPublicKey) ⟨[], .nil, .nil⟩

/-- `self._keys.get(key_id)`. -/
def get? (r : Registry) (keyId : PyString) : Option ObserverKey :=
  r.keys.find? fun k => k.keyId = keyId

/-- `resolve_active`. -/
def resolveActive (r : Registry) (keyId : PyString) : Except String PyString :=
  match (r.get? keyId).filter fun k => k.state = .active with
  | some k => .ok k.publicKeyHex
  | none => .error "observer key not active or has been revoked"

/-- `sorted(k for k, v in new.items() if v.state == state)`. -/
def inState (r : Registry) (state : KeyState) : List PyString :=
  ((r.keys.filter (·.state = state)).map (·.keyId)).insertionSort (·.codes ≤ ·.codes)

variable {r : Registry} {k k' : ObserverKey} {keyId : PyString}

theorem eq_of_keyId_eq (hk : k ∈ r.keys) (hk' : k' ∈ r.keys) (h : k.keyId = k'.keyId) : k = k' :=
  inj_on_of_nodup_map r.ids_nodup hk hk' h

theorem of_get?_eq_some (h : r.get? keyId = some k) : k ∈ r.keys ∧ k.keyId = keyId :=
  ⟨mem_of_find?_eq_some h, by simpa using find?_some h⟩

theorem of_resolveActive_eq_ok {hex : PyString} (h : r.resolveActive keyId = .ok hex) :
    ∃ k ∈ r.keys, k.keyId = keyId ∧ k.state = .active ∧ k.publicKeyHex = hex := by
  unfold resolveActive at h
  split at h
  case h_1 k hk =>
    obtain ⟨hget, hactive⟩ := Option.filter_eq_some_iff.mp hk
    obtain ⟨hmem, hid⟩ := of_get?_eq_some hget
    exact ⟨k, hmem, hid, of_decide_eq_true hactive, Except.ok.inj h⟩
  case h_2 => cases h

theorem resolveActive_of_active (hk : k ∈ r.keys) (hactive : k.state = .active) :
    r.resolveActive k.keyId = .ok k.publicKeyHex := by
  have hget : r.get? k.keyId = some k := by
    cases hget : r.get? k.keyId with
    | none => exact absurd (find?_eq_none.mp hget k hk) (by simp)
    | some k' =>
      obtain ⟨hk', hid⟩ := of_get?_eq_some hget
      rw [eq_of_keyId_eq hk' hk hid]
  rw [resolveActive, hget, Option.filter_some, if_pos (decide_eq_true hactive)]

end Registry

/-! ### Rotations -/

/-- `validate_rotation` on one key of the previous registry. -/
def checkReplacement (proposed : Registry) (entry : ObserverKey) : Except String Unit :=
  match proposed.get? entry.keyId with
  | none => .error "observer key cannot disappear from trust history"
  | some replacement => do
    require (entry.material = replacement.material) "observer key material cannot be reassigned"
    require (entry.state.allowed.contains replacement.state)
      "observer key lifecycle regression or resurrection"

/-- The identities of the proposed registry, by state. -/
structure Summary where
  staged : List PyString
  active : List PyString
  revoked : List PyString
  deriving DecidableEq

/-- `validate_rotation`. -/
def validateRotation (previous proposed : Registry) : Except String Summary := do
  previous.keys.forM (checkReplacement proposed)
  require (proposed.keys.all fun k => (previous.get? k.keyId).isSome || k.state = .staged)
    "new keys require staging before activation"
  require (!(previous.keys.any fun k => k.state = .active) ||
      proposed.keys.any fun k => k.state = .active)
    "rotation cannot leave an active trust domain empty"
  return ⟨proposed.inState .staged, proposed.inState .active, proposed.inState .revoked⟩

/-- A registry that is accepted after another one. -/
def Rotates (previous proposed : Registry) : Prop :=
  ∃ summary, validateRotation previous proposed = .ok summary

/-- Every key is kept, and its state only moves forward. -/
def Descends (previous proposed : Registry) : Prop :=
  ∀ k ∈ previous.keys, ∃ k' ∈ proposed.keys,
    k'.keyId = k.keyId ∧ k'.material = k.material ∧ k'.state ∈ k.state.allowed

variable {r r' : Registry} {k k' : ObserverKey}

theorem Rotates.descends (h : Rotates r r') : Descends r r' := by
  simp only [Rotates, validateRotation, bind_eq_ok, require_eq_ok] at h
  obtain ⟨_, _, hkept, -⟩ := h
  intro k hk
  have hcheck := forM_eq_ok.mp hkept k hk
  unfold checkReplacement at hcheck
  split at hcheck
  case h_1 => cases hcheck
  case h_2 k' hget =>
    simp only [bind_eq_ok, require_eq_ok, decide_eq_true_eq, contains_iff_mem] at hcheck
    obtain ⟨-, hmaterial, hstate⟩ := hcheck
    obtain ⟨hk', hid⟩ := Registry.of_get?_eq_some hget
    exact ⟨k', hk', hid, hmaterial.symm, hstate⟩

theorem Rotates.staged (h : Rotates r r') (hk : k ∈ r'.keys) :
    (∃ k' ∈ r.keys, k'.keyId = k.keyId) ∨ k.state = .staged := by
  simp only [Rotates, validateRotation, bind_eq_ok, require_eq_ok, all_eq_true] at h
  obtain ⟨_, -, -, -, hnew, -⟩ := h
  have hcase := hnew k hk
  rw [Bool.or_eq_true, decide_eq_true_eq, Option.isSome_iff_exists] at hcase
  exact hcase.imp_left (Exists.imp fun _ => Registry.of_get?_eq_some)

theorem Rotates.active (h : Rotates r r') (hk : k ∈ r.keys) (hactive : k.state = .active) :
    ∃ k' ∈ r'.keys, k'.state = .active := by
  simp only [Rotates, validateRotation, bind_eq_ok, require_eq_ok, Bool.or_eq_true,
    Bool.not_eq_true', any_eq_false, any_eq_true, decide_eq_true_eq] at h
  obtain ⟨_, -, -, -, -, -, hnone | hsome, -⟩ := h
  · exact absurd hactive (hnone k hk)
  · exact hsome

namespace Descends

theorem refl (r : Registry) : Descends r r := fun k hk =>
  ⟨k, hk, rfl, rfl, k.state.mem_allowed_refl⟩

theorem trans {r'' : Registry} (h : Descends r r') (h' : Descends r' r'') : Descends r r'' := by
  intro k hk
  obtain ⟨k₁, hk₁, hid₁, hmaterial₁, hstate₁⟩ := h k hk
  obtain ⟨k₂, hk₂, hid₂, hmaterial₂, hstate₂⟩ := h' k₁ hk₁
  exact ⟨k₂, hk₂, hid₂.trans hid₁, hmaterial₂.trans hmaterial₁,
    KeyState.mem_allowed_trans hstate₁ hstate₂⟩

instance : Trans Descends Descends Descends := ⟨trans⟩

/-- **A key stays what it is**: the last registry has it, not in an earlier state. -/
theorem of_isChain {l : List Registry} {last : Registry} (h : l.IsChain Rotates) (hr : r ∈ l)
    (hlast : l.getLast? = some last) : Descends r last := by
  have hpairwise : l.Pairwise Descends := (h.imp fun _ _ => Rotates.descends).pairwise
  obtain ⟨init, rfl⟩ := getLast?_eq_some_iff.mp hlast
  rcases mem_append.mp hr with hr | hr
  · exact (pairwise_append.mp hpairwise).2.2 r hr last (mem_singleton.mpr rfl)
  · exact mem_singleton.mp hr ▸ refl _

theorem not_active (h : Descends r r') (hk : k ∈ r.keys) (hrevoked : k.state = .revoked)
    (hk' : k' ∈ r'.keys) (hmaterial : k'.material = k.material) : k'.state ≠ .active := by
  obtain ⟨k₁, hk₁, -, hmaterial₁, hstate₁⟩ := h k hk
  cases inj_on_of_nodup_map r'.materials_nodup hk₁ hk' (hmaterial₁.trans hmaterial.symm)
  rw [hrevoked] at hstate₁
  rw [mem_singleton.mp hstate₁]
  decide

/-- An identity keeps its public key. -/
theorem material_eq (h : Descends r r') (hk : k ∈ r.keys) (hk' : k' ∈ r'.keys)
    (hid : k'.keyId = k.keyId) : k'.material = k.material := by
  obtain ⟨k₁, hk₁, hid₁, hmaterial₁, -⟩ := h k hk
  cases Registry.eq_of_keyId_eq hk₁ hk' (hid₁.trans hid.symm)
  exact hmaterial₁

end Descends

/-- **A key that was not there at first was staged.** -/
theorem staged_of_isChain {l : List Registry} {first : Registry} {keyId : PyString}
    (h : (first :: l).IsChain Rotates) (hfirst : ∀ k ∈ first.keys, k.keyId ≠ keyId)
    (hr : r ∈ first :: l) (hk : k ∈ r.keys) (hid : k.keyId = keyId) :
    ∃ r' ∈ first :: l, ∃ k' ∈ r'.keys, k'.keyId = keyId ∧ k'.state = .staged := by
  induction l generalizing first with
  | nil =>
    cases mem_singleton.mp hr
    exact absurd hid (hfirst k hk)
  | cons second l ih =>
    obtain ⟨hstep, hrest⟩ := isChain_cons_cons.mp h
    by_cases hsecond : ∃ k' ∈ second.keys, k'.keyId = keyId
    · -- the identity appears in this rotation
      obtain ⟨k', hk', hid'⟩ := hsecond
      rcases hstep.staged hk' with ⟨k₀, hk₀, hid₀⟩ | hstaged
      · exact absurd (hid₀.trans hid') (hfirst k₀ hk₀)
      · exact ⟨second, mem_cons_of_mem _ mem_cons_self, k', hk', hid', hstaged⟩
    · have hr' : r ∈ second :: l := by
        rcases mem_cons.mp hr with rfl | hr
        · exact absurd hid (hfirst k hk)
        · exact hr
      obtain ⟨r', hr'', hstaged⟩ := ih hrest (fun k' hk' hid' => hsecond ⟨k', hk', hid'⟩) hr'
      exact ⟨r', mem_cons_of_mem _ hr'', hstaged⟩

theorem active_of_isChain {l : List Registry} (h : (r :: l).IsChain Rotates)
    (hr' : r' ∈ r :: l) (hk : k ∈ r.keys) (hactive : k.state = .active) :
    ∃ k' ∈ r'.keys, k'.state = .active := by
  induction l generalizing r k with
  | nil => exact mem_singleton.mp hr' ▸ ⟨k, hk, hactive⟩
  | cons second l ih =>
    obtain ⟨hstep, hrest⟩ := isChain_cons_cons.mp h
    rcases mem_cons.mp hr' with rfl | hr'
    · exact ⟨k, hk, hactive⟩
    · obtain ⟨k₁, hk₁, hactive₁⟩ := hstep.active hk hactive
      exact ih hrest hr' hk₁ hactive₁

/-- **Trust only moves forward, and is never lost.** Between any two registries of an accepted
history: what the later one resolves is no key that the earlier one has revoked, under whatever
identity, and is the key that the earlier one has for the identity; an identity that the earlier one
does not have was staged in between; and if the earlier one resolves some key, so does the later
one. -/
theorem rotations_move_forward {first last : Registry} {l : List Registry}
    (h : (first :: l).IsChain Rotates) (hlast : (first :: l).getLast? = some last) :
    (∀ keyId hex, last.resolveActive keyId = .ok hex →
      (∀ k ∈ first.keys, (k.state = .revoked → k.material ≠ lower hex) ∧
        (k.keyId = keyId → k.material = lower hex)) ∧
      ((∀ k ∈ first.keys, k.keyId ≠ keyId) →
        ∃ r ∈ first :: l, ∃ k ∈ r.keys, k.keyId = keyId ∧ k.state = .staged)) ∧
    ((∃ keyId hex, first.resolveActive keyId = .ok hex) →
      ∃ keyId hex, last.resolveActive keyId = .ok hex) := by
  have hmem : last ∈ first :: l := mem_of_getLast? hlast
  have hdescends : Descends first last := .of_isChain h mem_cons_self hlast
  refine ⟨fun keyId hex hresolve => ?_, fun ⟨keyId, hex, hresolve⟩ => ?_⟩
  · obtain ⟨k', hk', hid, hactive, rfl⟩ := Registry.of_resolveActive_eq_ok hresolve
    refine ⟨fun k hk => ⟨fun hrevoked heq => ?_, fun hkeyId => ?_⟩, fun hnew => ?_⟩
    · exact hdescends.not_active hk hrevoked hk' heq.symm hactive
    · exact (hdescends.material_eq hk hk' (hid.trans hkeyId.symm)).symm
    · exact staged_of_isChain h hnew hmem hk' hid
  · obtain ⟨k, hk, -, hactive, -⟩ := Registry.of_resolveActive_eq_ok hresolve
    obtain ⟨k', hk', hactive'⟩ := active_of_isChain h hmem hk hactive
    exact ⟨_, _, Registry.resolveActive_of_active hk' hactive'⟩

/-- A registry of two keys, one with digits `a` and one with digits `b`. -/
def sampleRegistry (a b : KeyState) : Registry where
  keys := [⟨.ofString "a", .ofString (String.ofList (replicate 64 'a')), a⟩,
    ⟨.ofString "b", .ofString (String.ofList (replicate 64 'b')), b⟩]
  ids_nodup := by simp only [map_cons, map_nil]; decide
  materials_nodup := by simp only [map_cons, map_nil, ObserverKey.material]; decide

/-- The second key takes over from the first one. -/
theorem rotations_move_forward_sample :
    ∃ keyId hex, (sampleRegistry .revoked .active).resolveActive keyId = .ok hex := by
  have hactivated : Rotates (sampleRegistry .active .staged) (sampleRegistry .active .active) :=
    ⟨_, rfl⟩
  have hrevoked : Rotates (sampleRegistry .active .active) (sampleRegistry .revoked .active) :=
    ⟨_, rfl⟩
  exact (rotations_move_forward (.cons_cons hactivated (.cons_cons hrevoked (.singleton _))) rfl).2
    ⟨.ofString "a", _, rfl⟩

end AgentBridge.Signing
