import AgentBridge.Ownership.Owner
import AgentBridge.Queued.Tenant

/-!
# The owner of a principal

A principal's binding is stored as JSON, and its owner is computed from that. On the directory's
own typed rows this is the owner that the queued tasks are filed under, provided their digest is
the SHA-256 of the text.

* `bindingOwner_toValue` : **the typed owner is the owner of the JSON binding**, errors included.
-/

namespace AgentBridge.Ownership

open Authority Protocols Queued List

/-! ### Strings of the directory -/

section Strings

variable (s t : String)

theorem codes_ofString : (PyString.ofString s).codes = s.toList.map Char.toNat := rfl

theorem length_codes_ofString : (PyString.ofString s).codes.length = s.length := by
  rw [codes_ofString, length_map, String.length_toList]

theorem isAlphanumCode_toNat (c : Char) : isAlphanumCode c.toNat = c.isAlphanum := by
  rw [Bool.eq_iff_iff]
  delta Char.isAlphanum Char.isAlpha Char.isUpper Char.isLower Char.isDigit
  simp only [isAlphanumCode, Bool.or_eq_true, Bool.and_eq_true, decide_eq_true_eq,
    UInt32.le_iff_toNat_le, ge_iff_le]
  change _ ↔ ((65 ≤ c.toNat ∧ c.toNat ≤ 90) ∨ (97 ≤ c.toNat ∧ c.toNat ≤ 122)) ∨
    (48 ≤ c.toNat ∧ c.toNat ≤ 57)
  omega

theorem isSpaceCode_toNat (c : Char) : PyString.isSpaceCode c.toNat = isSpace c := by
  rw [PyString.isSpaceCode, Char.ofNat_toNat]

theorem toNat_beq (c d : Char) : (c.toNat == d.toNat) = (c == d) := by
  rw [Bool.eq_iff_iff, beq_iff_eq, beq_iff_eq]
  exact ⟨fun h => Char.ext (UInt32.toNat.inj h), fun h => congrArg Char.toNat h⟩

theorem isStripped_ofString : isStripped (.ofString s) = AgentBridge.isStripped s := by
  simp only [isStripped, AgentBridge.isStripped, codes_ofString, head?_map, getLast?_map,
    Option.all_map, isSpaceCode_toNat]

theorem hasControl_ofString : hasControl (.ofString s) = AgentBridge.hasControl s := by
  simp only [hasControl, AgentBridge.hasControl, codes_ofString, any_map, Function.comp_def]

theorem isIdentifier_ofString : isIdentifier (.ofString s) = AgentBridge.isIdentifier s := by
  unfold isIdentifier AgentBridge.isIdentifier
  rw [codes_ofString]
  cases s.toList with
  | nil => rfl
  | cons c cs =>
    have hchar : ∀ d : Char, (isAlphanumCode d.toNat || d.toNat == 95 || d.toNat == 46 ||
        d.toNat == 58 || d.toNat == 45) =
        (d.isAlphanum || d == '_' || d == '.' || d == ':' || d == '-') := by
      intro d
      rw [isAlphanumCode_toNat, ← toNat_beq d '_', ← toNat_beq d '.', ← toNat_beq d ':',
        ← toNat_beq d '-']
      rfl
    simp only [map_cons, length_map, all_map, Function.comp_def, hchar]
    rw [isAlphanumCode_toNat]

theorem isScope_ofString : isScope (.ofString s) = AgentBridge.isScope s := by
  have hstar : (PyString.ofString s).codes.contains 42 = s.toList.contains '*' := by
    rw [codes_ofString, contains_eq_any_beq, contains_eq_any_beq, any_map]
    congr 1
    funext c
    rw [Function.comp_apply, ← toNat_beq '*' c]
    rfl
  simp only [isScope, AgentBridge.isScope, length_codes_ofString, isStripped_ofString,
    hasControl_ofString, hstar]

theorem isSubject_ofString : isSubject (.ofString s) =
    (1 ≤ s.length && s.length ≤ 256 && AgentBridge.isStripped s && !AgentBridge.hasControl s) := by
  simp only [isSubject, length_codes_ofString, isStripped_ofString, hasControl_ofString]

theorem isIssuer_ofString : isIssuer (.ofString s) =
    (1 ≤ s.length && s.length ≤ 2048 && !AgentBridge.hasControl s) := by
  simp only [isIssuer, length_codes_ofString, hasControl_ofString]

end Strings

/-! ### Bindings as JSON -/

def kindText : Kind → String
  | .platformAdmin => "platform_admin"
  | .member .tenantAdmin => "tenant_admin"
  | .member .tenantOperator => "tenant_operator"
  | .member .tenantViewer => "tenant_viewer"
  | .machine => "machine"
  | .delegatedHuman => "delegated_human"

/-- A field that may be absent. -/
def optional : Option String → Value
  | none => .null
  | some s => .text s

/-- A field with several names. -/
def textList (l : List String) : Value := .list (l.map .text)

/-- A binding as JSON. -/
def toValue (b : Binding) : Value :=
  .object
    [("tenant_id", optional b.tenantId), ("subject", .text b.subject), ("issuer", .text b.issuer),
      ("kind", .text (kindText b.kind)), ("revision", .int b.revision),
      ("tenant_revision", .int b.tenantRevision), ("agent_id", optional b.agentId),
      ("agent_revision", .int b.agentRevision), ("delegation_id", optional b.delegationId),
      ("delegation_revision", .int b.delegationRevision), ("user_revision", .int b.userRevision),
      ("grantor_revision", .int b.grantorRevision), ("capabilities", textList b.capabilities),
      ("targets", textList b.targets)]

theorem isLoaded_text (s : String) : IsLoaded (.text s) :=
  .str (PyString.norm_of_isEncodable (PyString.isEncodable_ofString s))

theorem isLoaded_optional (s : Option String) : IsLoaded (optional s) := by
  cases s with
  | none => exact .null
  | some s => exact isLoaded_text s

theorem isLoaded_textList (l : List String) : IsLoaded (textList l) := by
  refine .list fun v hv => ?_
  obtain ⟨s, -, rfl⟩ := mem_map.mp hv
  exact isLoaded_text s

theorem isLoaded_object {items : List (String × Value)} (h : ∀ e ∈ items, IsLoaded e.2) :
    IsLoaded (.object items) := by
  refine .dict (fun e he => ?_) fun e he => ?_
  · obtain ⟨e, -, rfl⟩ := mem_map.mp he
    exact PyString.norm_of_isEncodable (PyString.isEncodable_ofString e.1)
  · obtain ⟨e', he', rfl⟩ := mem_map.mp he
    exact h e' he'

theorem isLoaded_toValue (b : Binding) : IsLoaded (toValue b) := by
  refine isLoaded_object fun e he => ?_
  simp only [mem_cons, not_mem_nil, or_false] at he
  rcases he with rfl | rfl | rfl | rfl | rfl | rfl | rfl | rfl | rfl | rfl | rfl | rfl | rfl | rfl
  all_goals first
    | exact isLoaded_text _
    | exact isLoaded_optional _
    | exact isLoaded_textList _
    | exact .int _

/-! ### The owner of a typed binding -/

/-- The binding passes every check of `binding_owner`. -/
def isComplete (b : Binding) : Bool :=
  (b.kind == .machine || b.kind == .delegatedHuman) &&
    (1 ≤ b.issuer.length && b.issuer.length ≤ 2048 && !AgentBridge.hasControl b.issuer) &&
    b.tenantId.any AgentBridge.isIdentifier &&
    (1 ≤ b.subject.length && b.subject.length ≤ 256 && AgentBridge.isStripped b.subject &&
      !AgentBridge.hasControl b.subject) &&
    b.agentId.any AgentBridge.isIdentifier &&
    (b.capabilities.length ≤ 128 && b.capabilities.all AgentBridge.isScope) &&
    (b.targets.length ≤ 128 && b.targets.all AgentBridge.isScope)

/-- What `binding_owner` raises, whatever is wrong. -/
def unavailable : Fault :=
  .authorityDenied "resource ownership is incomplete or unavailable"

/-- The members of a typed binding. -/
def materialOf (b : Binding) : Material where
  tenantId := .ofString (b.tenantId.getD "")
  kind := .ofString (kindText b.kind)
  issuer := .ofString b.issuer
  subject := .ofString b.subject
  agentId := .ofString (b.agentId.getD "")
  capabilities := b.capabilities.map .ofString
  targets := b.targets.map .ofString

section

variable {b : Binding}

theorem checked_optional (check : PyString → Bool) (o : Option String) :
    checked check (optional o) =
      if o.any fun s => check (.ofString s) then some (.ofString (o.getD "")) else none := by
  cases o with
  | none => rfl
  | some s => rfl

theorem isAgentKind_kindText (k : Kind) :
    isAgentKind (.ofString (kindText k)) = (k == .machine || k == .delegatedHuman) := by
  cases k with
  | member role => cases role <;> decide +kernel
  | _ => decide +kernel

theorem mapM_checked (l : List String) :
    (l.map Value.text).mapM (checked isScope) =
      if l.all AgentBridge.isScope then some (l.map .ofString) else none := by
  induction l with
  | nil => rfl
  | cons s l ih =>
    have hs : checked isScope (.text s) =
        if AgentBridge.isScope s then some (.ofString s) else none := by
      rw [← isScope_ofString]
      rfl
    rw [map_cons, mapM_cons, ih, hs, all_cons]
    by_cases h : AgentBridge.isScope s = true
    · by_cases hl : l.all AgentBridge.isScope = true
      · simp [h, hl]
      · simp [h, hl]
    · simp [h]

theorem names_textList (l : List String) :
    names (textList l) =
      if l.length ≤ 128 && l.all AgentBridge.isScope then some (l.map .ofString) else none := by
  rw [textList, names, length_map, mapM_checked]
  by_cases h : l.length ≤ 128
  · simp [h]
  · simp [h]

theorem member_eq {v w : Value} {key : String} {check : PyString → Bool}
    (h : v.find key = some w) : member v key check = checked check w := by
  rw [member, h, Option.bind_some]

theorem ite_none_bind {α β : Type} (c : Bool) (x : α) (f : α → Option β) :
    ((if c then some x else none) >>= f) = if c then f x else none := by
  cases c <;> rfl

theorem ite_ite {α : Type} (c d : Bool) (x y : α) :
    (if c then if d then x else y else y) = if c && d then x else y := by
  cases c <;> cases d <;> rfl

theorem material_toValue (b : Binding) :
    material (toValue b) = if isComplete b then some (materialOf b) else none := by
  have hkind : member (toValue b) "kind" isAgentKind =
      if b.kind == .machine || b.kind == .delegatedHuman then some (.ofString (kindText b.kind))
      else none := by
    rw [← isAgentKind_kindText]
    exact member_eq (w := .text (kindText b.kind)) (by simp [toValue, Value.find_object_cons])
  have hissuer : member (toValue b) "issuer" isIssuer =
      if isIssuer (.ofString b.issuer) then some (.ofString b.issuer) else none :=
    member_eq (w := .text b.issuer) (by simp [toValue, Value.find_object_cons])
  have hsubject : member (toValue b) "subject" isSubject =
      if isSubject (.ofString b.subject) then some (.ofString b.subject) else none :=
    member_eq (w := .text b.subject) (by simp [toValue, Value.find_object_cons])
  have htenant : member (toValue b) "tenant_id" isIdentifier =
      if b.tenantId.any fun s => isIdentifier (.ofString s) then
        some (.ofString (b.tenantId.getD "")) else none := by
    rw [← checked_optional]
    exact member_eq (by simp [toValue, Value.find_object_cons])
  have hagent : member (toValue b) "agent_id" isIdentifier =
      if b.agentId.any fun s => isIdentifier (.ofString s) then
        some (.ofString (b.agentId.getD "")) else none := by
    rw [← checked_optional]
    exact member_eq (by simp [toValue, Value.find_object_cons])
  have hcapabilities : (toValue b).find "capabilities" = some (textList b.capabilities) := by
    simp [toValue, Value.find_object_cons]
  have htargets : (toValue b).find "targets" = some (textList b.targets) := by
    simp [toValue, Value.find_object_cons]
  simp only [material, hkind, hissuer, htenant, hsubject, hagent, hcapabilities, htargets,
    Option.bind_some, names_textList, ite_none_bind, ite_ite, isIssuer_ofString,
    isSubject_ofString, isIdentifier_ofString, isComplete, Bool.and_assoc]
  rfl

/-- The digest of a configuration is the hash of the text. -/
def Hashes (H : Sha256) (cfg : Queued.Config) : Prop :=
  ∀ b : Binding, PyString.ofString (cfg.ownerSha256
    { tenantId := b.tenantId, kind := b.kind, issuer := b.issuer, subject := b.subject
      agentId := b.agentId, capabilities := b.capabilities, targets := b.targets }) =
    H.digest (materialOf b).text

theorem ite_error_bind {α β : Type} (c : Bool) (x : α) (e : Fault) (f : α → Except Fault β) :
    ((if c then .ok x else .error e) >>= f) = if c then f x else .error e := by
  cases c <;> rfl

theorem scopes_eq_ite (l : List String) :
    (scopes l).mapError (fun _ => unavailable) =
      if l.length ≤ 128 && l.all AgentBridge.isScope then .ok (l.dedup.insertionSort (· ≤ ·))
      else .error unavailable := by
  simp only [scopes, require]
  by_cases h : l.length ≤ 128
  · by_cases h' : l.all AgentBridge.isScope = true
    · simp [h, h', Except.mapError, bind, Except.bind, pure, Except.pure]
    · simp [h, h', Except.mapError, bind, Except.bind]
  · simp [h, Except.mapError, bind, Except.bind]

theorem subject_eq_ite (s : String) :
    (subject s).mapError (fun _ => unavailable) =
      if 1 ≤ s.length && s.length ≤ 256 && AgentBridge.isStripped s && !AgentBridge.hasControl s
      then .ok () else .error unavailable := by
  rw [subject, require]
  split_ifs with h
  · rfl
  · rfl

/-- `binding_owner` on a typed binding: the first check that fails does not matter. -/
theorem bindingOwner_eq_ite (cfg : Queued.Config) (b : Binding) :
    cfg.bindingOwner b =
      if isComplete b then .ok (cfg.ownerSha256
        { tenantId := b.tenantId, kind := b.kind, issuer := b.issuer, subject := b.subject
          agentId := b.agentId, capabilities := b.capabilities.dedup.insertionSort (· ≤ ·)
          targets := b.targets.dedup.insertionSort (· ≤ ·) })
      else .error unavailable := by
  have hscopes := fun l => scopes_eq_ite l
  have hsubject := fun s => subject_eq_ite s
  simp only [unavailable] at hscopes hsubject
  simp only [Config.bindingOwner, hscopes, hsubject, require, isComplete, unavailable]
  simp only [ite_error_bind, ite_ite, pure, Except.pure, Bool.and_assoc, Bool.and_comm,
    Bool.and_left_comm]

/-- Sorting the names of the members first does not change the text. -/
theorem text_sorted (b : Binding) :
    (materialOf { b with
      capabilities := b.capabilities.dedup.insertionSort (· ≤ ·)
      targets := b.targets.dedup.insertionSort (· ≤ ·) }).text = (materialOf b).text := by
  have hsorted : ∀ l : List String,
      sortedSet ((l.dedup.insertionSort (· ≤ ·)).map .ofString) = sortedSet (l.map .ofString) := by
    intro l
    refine sortedSet_eq_iff.mpr ?_
    ext s
    simp only [mem_toFinset, mem_map, mem_insertionSort, mem_dedup]
  simp only [Material.text, materialOf, hsorted]

/-- **The typed owner is the owner of the JSON binding**, errors included. -/
theorem bindingOwner_toValue {H : Sha256} {cfg : Queued.Config} (h : Hashes H cfg) (b : Binding) :
    bindingOwner H (toValue b) = (cfg.bindingOwner b).map .ofString := by
  rw [bindingOwner, material_toValue, bindingOwner_eq_ite]
  by_cases hb : isComplete b = true
  · rw [if_pos hb, if_pos hb]
    refine congrArg Except.ok ?_
    rw [← text_sorted, ← h]
  · rw [if_neg hb, if_neg hb]
    rfl

end

end AgentBridge.Ownership
