import AgentBridge.Audit.Entry
import AgentBridge.Protocols.Value
import Mathlib.Data.Finset.Dedup
import Mathlib.Data.List.Sort
import Mathlib.Data.String.Basic

/-!
# Resource owners

A resource belongs to the exact scope of the authority that created it. `binding_owner` names that
scope by a digest: tenant, kind, issuer, subject, agent, and the sorted capabilities and targets of
an authority binding, written as JSON. Grants, revisions and lifetimes are no part of it.

A binding is a JSON value: it is stored as text, and the fields of a principal come from text
columns and JSON columns of the directory. So its strings are in normal form (`IsLoaded`); a half
of a surrogate pair may stand in them, two halves of one pair in a row may not. `binding_owner`
does not check this, and gives the two halves the owner of the character.

* `owner_eq_iff` : **owners are equal exactly if the scopes are**, where the digest has no
  collision.
-/

namespace JsonText

open AgentBridge List

/-! ### Arrays of strings -/

/-- The members of an array of strings after the first one, with the closing bracket. -/
def strings : List PyString → List Char
  | [] => [']']
  | s :: rest => ',' :: (quoted s ++ strings rest)

/-- The text of an array of strings. -/
def array : List PyString → List Char
  | [] => ['[', ']']
  | s :: rest => '[' :: (quoted s ++ strings rest)

/-- The members of an array are read up to its closing bracket. -/
theorem strings_append_inj {l l' : List PyString} {r r' : List Char}
    (h : strings l ++ r = strings l' ++ r') :
    l.map PyString.norm = l'.map PyString.norm ∧ r = r' := by
  induction l generalizing l' with
  | nil =>
    cases l' with
    | nil => exact ⟨rfl, (List.cons.inj h).2⟩
    | cons t rest => exact absurd (List.cons.inj h).1 (by decide)
  | cons s rest ih =>
    cases l' with
    | nil => exact absurd (List.cons.inj h).1 (by decide)
    | cons t rest' =>
      simp only [strings, cons_append, append_assoc, List.cons.injEq, true_and] at h
      obtain ⟨hs, hrest⟩ := quoted_append_inj h
      obtain ⟨hnorm, hr⟩ := ih hrest
      exact ⟨congrArg₂ List.cons hs hnorm, hr⟩

theorem array_append_inj {l l' : List PyString} {r r' : List Char}
    (h : array l ++ r = array l' ++ r') : l.map PyString.norm = l'.map PyString.norm ∧ r = r' := by
  cases l with
  | nil =>
    cases l' with
    | nil => exact ⟨rfl, (List.cons.inj (List.cons.inj h).2).2⟩
    | cons t rest => simp [array, quoted] at h
  | cons s rest =>
    cases l' with
    | nil => simp [array, quoted] at h
    | cons t rest' =>
      simp only [array, cons_append, append_assoc, List.cons.injEq, true_and] at h
      obtain ⟨hs, hrest⟩ := quoted_append_inj h
      obtain ⟨hnorm, hr⟩ := strings_append_inj hrest
      exact ⟨congrArg₂ List.cons hs hnorm, hr⟩

end JsonText

namespace AgentBridge.Ownership

open JsonText Protocols

/-! ### Loaded values -/

/-- A value that `json.loads` returns: all its strings are in normal form. -/
inductive IsLoaded : Value → Prop
  | null : IsLoaded .null
  | bool (b : Bool) : IsLoaded (.bool b)
  | int (n : ℤ) : IsLoaded (.int n)
  | float (bits : BitVec 64) : IsLoaded (.float bits)
  | str {s : PyString} (h : s.norm = s) : IsLoaded (.str s)
  | list {items : List Value} (h : ∀ v ∈ items, IsLoaded v) : IsLoaded (.list items)
  | dict {items : List (PyString × Value)} (hkeys : ∀ e ∈ items, e.1.norm = e.1)
      (h : ∀ e ∈ items, IsLoaded e.2) : IsLoaded (.dict items)

theorem IsLoaded.find {b v : Value} {key : String} (h : IsLoaded b) (hv : b.find key = some v) :
    IsLoaded v := by
  cases h with
  | dict _ hitems =>
    obtain ⟨l₁, l₂, rfl, -⟩ := List.lookup_eq_some_iff.mp hv
    exact hitems _ (List.mem_append_right _ List.mem_cons_self)
  | _ => cases hv

/-! ### The checks of the members -/

/-- `[A-Za-z0-9]`. -/
def isAlphanumCode (c : ℕ) : Bool :=
  48 ≤ c && c ≤ 57 || 65 ≤ c && c ≤ 90 || 97 ≤ c && c ≤ 122

/-- `re.fullmatch(r"[A-Za-z0-9][A-Za-z0-9_.:-]{0,127}", value)`. -/
def isIdentifier (s : PyString) : Bool :=
  match s.codes with
  | [] => false
  | c :: cs =>
    isAlphanumCode c && cs.length ≤ 127 &&
      cs.all fun c => isAlphanumCode c || c == 95 || c == 46 || c == 58 || c == 45

/-- `value.strip() == value`. -/
def isStripped (s : PyString) : Bool :=
  s.codes.head?.all (fun c => !PyString.isSpaceCode c) &&
    s.codes.getLast?.all fun c => !PyString.isSpaceCode c

/-- `any(ord(c) < 32 for c in value)`. -/
def hasControl (s : PyString) : Bool := s.codes.any fun c => c < 32

/-- `_subject`. -/
def isSubject (s : PyString) : Bool :=
  1 ≤ s.codes.length && s.codes.length ≤ 256 && isStripped s && !hasControl s

/-- The check of the issuer. -/
def isIssuer (s : PyString) : Bool :=
  1 ≤ s.codes.length && s.codes.length ≤ 2048 && !hasControl s

/-- `kind in ("machine", "delegated_human")`. -/
def isAgentKind (s : PyString) : Bool := s = .ofString "machine" || s = .ofString "delegated_human"

/-- One scope name is bounded, stripped, printable and free of wildcards. -/
def isScope (s : PyString) : Bool :=
  1 ≤ s.codes.length && s.codes.length ≤ 128 && isStripped s && !s.codes.contains 42 &&
    !hasControl s

/-- A string that passes a check. -/
def checked (check : PyString → Bool) : Value → Option PyString
  | .str s => if check s then some s else none
  | _ => none

/-- A member of a binding that must be a string of some form. -/
def member (b : Value) (key : String) (check : PyString → Bool) : Option PyString :=
  (b.find key).bind (checked check)

/-- `_scopes`, before the names are sorted. -/
def names : Value → Option (List PyString)
  | .list items => if items.length ≤ 128 then items.mapM (checked isScope) else none
  | _ => none

section Checks

variable {b v : Value} {key : String} {check : PyString → Bool} {s : PyString}

theorem checked_eq_some : checked check v = some s ↔ v = .str s ∧ check s = true := by
  cases v with
  | str t =>
    simp only [checked, Option.ite_none_right_eq_some, Option.some.injEq, Value.str.injEq]
    constructor
    · rintro ⟨ht, rfl⟩
      exact ⟨rfl, ht⟩
    · rintro ⟨rfl, ht⟩
      exact ⟨ht, rfl⟩
  | _ => simp [checked]

theorem norm_of_checked (h : IsLoaded v) (hs : checked check v = some s) : s.norm = s := by
  obtain ⟨rfl, -⟩ := checked_eq_some.mp hs
  cases h with
  | str hnorm => exact hnorm

theorem norm_of_member (h : IsLoaded b) (hs : member b key check = some s) : s.norm = s := by
  obtain ⟨v, hv, hcheck⟩ := Option.bind_eq_some_iff.mp hs
  exact norm_of_checked (h.find hv) hcheck

/-- Every item of a result comes from an item of the list. -/
theorem exists_of_mem_mapM {α β : Type} {f : α → Option β} {l : List α} {l' : List β} {y : β}
    (h : l.mapM f = some l') (hy : y ∈ l') : ∃ x ∈ l, f x = some y := by
  induction l generalizing l' with
  | nil =>
    obtain rfl : [] = l' := by simpa using h
    cases hy
  | cons x l ih =>
    simp only [List.mapM_cons, Option.bind_eq_bind, Option.bind_eq_some_iff, Option.pure_def,
      Option.some.injEq] at h
    obtain ⟨z, hz, rest, hrest, rfl⟩ := h
    rcases List.mem_cons.mp hy with rfl | hy
    · exact ⟨x, List.mem_cons_self, hz⟩
    · obtain ⟨x', hx', hf⟩ := ih hrest hy
      exact ⟨x', List.mem_cons_of_mem _ hx', hf⟩

theorem norm_of_names {l : List PyString} (h : IsLoaded v) (hl : names v = some l) :
    ∀ s ∈ l, s.norm = s := by
  cases h with
  | @list items hitems =>
    simp only [names, Option.ite_none_right_eq_some] at hl
    intro s hs
    obtain ⟨w, hw, hcheck⟩ := exists_of_mem_mapM hl.2 hs
    exact norm_of_checked (hitems w hw) hcheck
  | _ => cases hl

end Checks

/-! ### Sorted sets -/

/-- `sorted(set(values))`. -/
def sortedSet (values : List PyString) : List PyString :=
  values.dedup.insertionSort fun s t => s.codes ≤ t.codes

variable {l : List PyString}

@[simp] theorem mem_sortedSet {s : PyString} : s ∈ sortedSet l ↔ s ∈ l := by
  rw [sortedSet, List.mem_insertionSort, List.mem_dedup]

section

variable (l : List PyString)

theorem nodup_sortedSet : (sortedSet l).Nodup :=
  (List.perm_insertionSort _ _).nodup_iff.mpr l.nodup_dedup

theorem pairwise_sortedSet : (sortedSet l).Pairwise fun s t => s.codes ≤ t.codes := by
  have : IsTrans PyString fun s t => s.codes ≤ t.codes := ⟨fun _ _ _ h h' => le_trans h h'⟩
  have : Std.Total fun s t : PyString => s.codes ≤ t.codes := ⟨fun _ _ => le_total _ _⟩
  exact List.pairwise_insertionSort _ _

end

/-- A sorted list without repetition is determined by its elements. -/
theorem sortedSet_eq {l' : List PyString} (hnodup : l'.Nodup)
    (hsorted : l'.Pairwise fun s t => s.codes ≤ t.codes) (hmem : ∀ s, s ∈ l ↔ s ∈ l') :
    sortedSet l = l' := by
  have hperm : (sortedSet l).Perm l' := by
    refine (List.perm_ext_iff_of_nodup (nodup_sortedSet l) hnodup).mpr fun s => ?_
    rw [mem_sortedSet, hmem]
  exact hperm.eq_of_pairwise (fun s t _ _ hst hts => PyString.ext (le_antisymm hst hts))
    (pairwise_sortedSet l) hsorted

theorem sortedSet_eq_iff {l' : List PyString} :
    sortedSet l = sortedSet l' ↔ l.toFinset = l'.toFinset := by
  constructor
  · intro h
    ext s
    rw [List.mem_toFinset, List.mem_toFinset, ← mem_sortedSet, h, mem_sortedSet]
  · intro h
    refine sortedSet_eq (nodup_sortedSet l') (pairwise_sortedSet l') fun s => ?_
    rw [mem_sortedSet, ← List.mem_toFinset, h, List.mem_toFinset]

/-! ### Scope and owner -/

/-- The exact scope of an authority. -/
structure Scope where
  tenantId : PyString
  kind : PyString
  issuer : PyString
  subject : PyString
  agentId : PyString
  capabilities : Finset PyString
  targets : Finset PyString
  deriving DecidableEq

/-- The members that `binding_owner` reads, as a binding has them. -/
structure Material where
  tenantId : PyString
  kind : PyString
  issuer : PyString
  subject : PyString
  agentId : PyString
  capabilities : List PyString
  targets : List PyString

/-- The scope of the members: the order and the repetitions of the names do not matter. -/
def Material.scope (m : Material) : Scope where
  tenantId := m.tenantId
  kind := m.kind
  issuer := m.issuer
  subject := m.subject
  agentId := m.agentId
  capabilities := m.capabilities.toFinset
  targets := m.targets.toFinset

/-- The text that is hashed, `json.dumps(material, sort_keys=True, separators=(",", ":"))`. -/
def Material.text (m : Material) : List Char :=
  object []
    [("agent_id", quoted m.agentId), ("capabilities", array (sortedSet m.capabilities)),
      ("domain", quoted (.ofString "agentbridge.resource-owner.v2")), ("issuer", quoted m.issuer),
      ("kind", quoted m.kind), ("subject", quoted m.subject),
      ("targets", array (sortedSet m.targets)), ("tenant_id", quoted m.tenantId)]

/-- The members of a binding, if all of them are there and pass their checks. -/
def material (b : Value) : Option Material := do
  let kind ← member b "kind" isAgentKind
  let issuer ← member b "issuer" isIssuer
  let tenantId ← member b "tenant_id" isIdentifier
  let subject ← member b "subject" isSubject
  let agentId ← member b "agent_id" isIdentifier
  let capabilities ← (b.find "capabilities").bind names
  let targets ← (b.find "targets").bind names
  return { tenantId, kind, issuer, subject, agentId, capabilities, targets }

/-- The scope of a binding. -/
def scopeOf (b : Value) : Option Scope := (material b).map Material.scope

/-- `binding_owner`. -/
def bindingOwner (H : Sha256) (b : Value) : Except Fault PyString :=
  match material b with
  | some m => .ok (H.digest m.text)
  | none => .error (.authorityDenied "resource ownership is incomplete or unavailable")

/-- All strings of the members are in normal form. -/
structure Material.IsNormal (m : Material) : Prop where
  tenantId : m.tenantId.norm = m.tenantId
  kind : m.kind.norm = m.kind
  issuer : m.issuer.norm = m.issuer
  subject : m.subject.norm = m.subject
  agentId : m.agentId.norm = m.agentId
  capabilities : ∀ s ∈ m.capabilities, s.norm = s
  targets : ∀ s ∈ m.targets, s.norm = s

section

variable {b b' : Value} {m m' : Material} {H : Sha256} {o o' : PyString}

theorem isNormal_of_material (h : IsLoaded b) (hm : material b = some m) : m.IsNormal := by
  simp only [material, Option.bind_eq_bind, Option.bind_eq_some_iff, Option.pure_def,
    Option.some.injEq] at hm
  obtain ⟨_, hkind, _, hissuer, _, htenant, _, hsubject, _, hagent, _, ⟨c, hc, hcaps⟩, _,
    ⟨t, ht, htargets⟩, rfl⟩ := hm
  exact ⟨norm_of_member h htenant, norm_of_member h hkind, norm_of_member h hissuer,
    norm_of_member h hsubject, norm_of_member h hagent, norm_of_names (h.find hc) hcaps,
    norm_of_names (h.find ht) htargets⟩

theorem map_norm_sortedSet {l : List PyString} (h : ∀ s ∈ l, s.norm = s) :
    (sortedSet l).map PyString.norm = sortedSet l := by
  conv_rhs => rw [← List.map_id (sortedSet l)]
  exact List.map_congr_left fun s hs => h s (mem_sortedSet.mp hs)

/-- The hashed text determines the members, up to normal form. -/
theorem Material.text_injective (h : m.text = m'.text) :
    m.agentId.norm = m'.agentId.norm ∧
      (sortedSet m.capabilities).map PyString.norm = (sortedSet m'.capabilities).map PyString.norm ∧
      m.issuer.norm = m'.issuer.norm ∧ m.kind.norm = m'.kind.norm ∧
      m.subject.norm = m'.subject.norm ∧
      (sortedSet m.targets).map PyString.norm = (sortedSet m'.targets).map PyString.norm ∧
      m.tenantId.norm = m'.tenantId.norm := by
  simp only [text, object, members, List.cons.injEq, true_and, List.append_cancel_left_eq,
    List.nil_append] at h
  obtain ⟨hagent, h⟩ := quoted_append_inj h
  obtain ⟨hcaps, h⟩ := array_append_inj (List.append_cancel_left (List.cons.inj h).2)
  -- the domain is the same on both sides
  obtain ⟨-, h⟩ := quoted_append_inj (List.append_cancel_left (List.cons.inj h).2)
  obtain ⟨hissuer, h⟩ := quoted_append_inj (List.append_cancel_left (List.cons.inj h).2)
  obtain ⟨hkind, h⟩ := quoted_append_inj (List.append_cancel_left (List.cons.inj h).2)
  obtain ⟨hsubject, h⟩ := quoted_append_inj (List.append_cancel_left (List.cons.inj h).2)
  obtain ⟨htargets, h⟩ := array_append_inj (List.append_cancel_left (List.cons.inj h).2)
  obtain ⟨htenant, -⟩ := quoted_append_inj (List.append_cancel_left (List.cons.inj h).2)
  exact ⟨hagent, hcaps, hissuer, hkind, hsubject, htargets, htenant⟩

theorem Material.text_congr (h : m.scope = m'.scope) : m.text = m'.text := by
  simp only [scope, Scope.mk.injEq] at h
  obtain ⟨htenant, hkind, hissuer, hsubject, hagent, hcaps, htargets⟩ := h
  rw [text, text, htenant, hkind, hissuer, hsubject, hagent, sortedSet_eq_iff.mpr hcaps,
    sortedSet_eq_iff.mpr htargets]

/-- The text of normal members says exactly what their scope is. -/
theorem Material.text_eq_iff (h : m.IsNormal) (h' : m'.IsNormal) :
    m.text = m'.text ↔ m.scope = m'.scope := by
  constructor
  · intro htext
    obtain ⟨hagent, hcaps, hissuer, hkind, hsubject, htargets, htenant⟩ := text_injective htext
    rw [h.agentId, h'.agentId] at hagent
    rw [h.issuer, h'.issuer] at hissuer
    rw [h.kind, h'.kind] at hkind
    rw [h.subject, h'.subject] at hsubject
    rw [h.tenantId, h'.tenantId] at htenant
    rw [map_norm_sortedSet h.capabilities, map_norm_sortedSet h'.capabilities,
      sortedSet_eq_iff] at hcaps
    rw [map_norm_sortedSet h.targets, map_norm_sortedSet h'.targets, sortedSet_eq_iff] at htargets
    simp only [scope, hagent, hissuer, hkind, hsubject, htenant, hcaps, htargets]
  · exact text_congr

theorem bindingOwner_eq_ok :
    bindingOwner H b = .ok o ↔ ∃ m, material b = some m ∧ o = H.digest m.text := by
  unfold bindingOwner
  cases material b with
  | none => simp
  | some m =>
    simp only [Except.ok.injEq, Option.some.injEq, exists_eq_left']
    exact eq_comm

/-- A renewal within the same scope keeps the owner. -/
theorem bindingOwner_congr (h : scopeOf b = scopeOf b') : bindingOwner H b = bindingOwner H b' := by
  simp only [scopeOf] at h
  unfold bindingOwner
  cases hm : material b with
  | none =>
    rw [hm, Option.map_none, eq_comm, Option.map_eq_none_iff] at h
    rw [h]
  | some m =>
    rw [hm, Option.map_some, eq_comm, Option.map_eq_some_iff] at h
    obtain ⟨m', hm', hscope⟩ := h
    rw [hm']
    exact congrArg (fun t => Except.ok (H.digest t)) (Material.text_congr hscope.symm)

/-- The digest does not confuse the scopes of two bindings. -/
def CollisionFree (H : Sha256) (b b' : Value) : Prop :=
  ∀ m m', material b = some m → material b' = some m' →
    H.digest m.text = H.digest m'.text → m.text = m'.text

/-- **Owners are equal exactly if the scopes are.** -/
theorem owner_eq_iff (h : IsLoaded b) (h' : IsLoaded b') (hfree : CollisionFree H b b')
    (ho : bindingOwner H b = .ok o) (ho' : bindingOwner H b' = .ok o') :
    o = o' ↔ scopeOf b = scopeOf b' := by
  obtain ⟨m, hm, rfl⟩ := bindingOwner_eq_ok.mp ho
  obtain ⟨m', hm', rfl⟩ := bindingOwner_eq_ok.mp ho'
  have htext := Material.text_eq_iff (isNormal_of_material h hm) (isNormal_of_material h' hm')
  rw [scopeOf, scopeOf, hm, hm', Option.map_some, Option.map_some, Option.some.injEq, ← htext]
  exact ⟨hfree m m' hm hm', fun heq => congrArg H.digest heq⟩

end

def machineBinding (capability : PyString) : Value :=
  .object [("tenant_id", .text "acme"), ("kind", .text "machine"),
    ("issuer", .text "https://idp.example"), ("subject", .text "bot"), ("agent_id", .text "bot"),
    ("capabilities", .list [.str capability]), ("targets", .list [])]

/-- **Two halves collide with the character they stand for**: both names are accepted and written
alike, so that the owners are equal, whatever the digest, and the scopes are not. -/
theorem halves_own_alike :
    scopeOf (machineBinding ⟨[0xd83d, 0xde00], by decide⟩) ≠
      scopeOf (machineBinding ⟨[0x1f600], by decide⟩) ∧
    ∀ H : Sha256, ∃ o, bindingOwner H (machineBinding ⟨[0xd83d, 0xde00], by decide⟩) = .ok o ∧
      bindingOwner H (machineBinding ⟨[0x1f600], by decide⟩) = .ok o := by
  have htext : (material (machineBinding ⟨[0xd83d, 0xde00], by decide⟩)).map Material.text =
      (material (machineBinding ⟨[0x1f600], by decide⟩)).map Material.text := by
    decide +kernel
  have hsome : (material (machineBinding ⟨[0x1f600], by decide⟩)).isSome = true := by
    decide +kernel
  obtain ⟨m, hm⟩ := Option.isSome_iff_exists.mp hsome
  rw [hm, Option.map_some, Option.map_eq_some_iff] at htext
  obtain ⟨m', hm', heq⟩ := htext
  exact ⟨by decide +kernel, fun H => ⟨H.digest m.text,
    bindingOwner_eq_ok.mpr ⟨m', hm', by rw [heq]⟩, bindingOwner_eq_ok.mpr ⟨m, hm, rfl⟩⟩⟩

end AgentBridge.Ownership
