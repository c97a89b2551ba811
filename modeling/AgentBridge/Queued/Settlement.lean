import AgentBridge.Lifecycle.Codec
import AgentBridge.Ownership.Principal
import AgentBridge.Queued.Readback

/-!
# The record of a settlement

`_finish_verified` stores one JSON record for a settled attempt: the authorization, the three
documents of the evidence, the signing trust that was current, and, when an operator settles by
hand, the signed review and the operator's whole authority binding. A guard of the table refuses a
record longer than the result allowance of the intent, which a dispatch has only compared with 65536
bytes.

The evidence, the trust and the names fit 51637 bytes, whatever they are. A binding may hold 128
capabilities and 128 targets of 128 characters each, and nothing bounds the name of a reviewer: an
operator with many long scopes cannot settle, though review and evidence are verified.

* `settlement_fits` : **a verified settlement is recorded exactly if that sum is within the
  allowance**, and it always is when review and binding take at most 13899 bytes.
* `finishVerified_of_record` : a recorded settlement is the transaction's.
-/

namespace AgentBridge.Queued

open Authority Ownership JsonText List Except

/-! ### The parts of a record -/

/-- A field that may be absent. -/
def optionalText : Option String → List Char
  | none => "null".toList
  | some s => text s

/-- The keys `settlement_keys` returns. -/
structure TrustKeys where
  destinationKeyHex : String
  destinationKeyId : String
  destinationRegistrySha256 : String
  destinationRevision : ℕ
  observerKeyId : String
  readbackKeyHex : String
  readbackRegistrySha256 : String
  readbackRevision : ℕ
  deriving DecidableEq, Repr

/-- The text of a trust context; without a journal it is empty. -/
def trustText : Option TrustKeys → List Char
  | none => "\x7b\x7d".toList
  | some t =>
    object [] [("destination_key_hex", text t.destinationKeyHex),
      ("destination_key_id", text t.destinationKeyId),
      ("destination_registry_sha256", text t.destinationRegistrySha256),
      ("destination_revision", natText t.destinationRevision),
      ("observer_key_id", text t.observerKeyId), ("readback_key_hex", text t.readbackKeyHex),
      ("readback_registry_sha256", text t.readbackRegistrySha256),
      ("readback_revision", natText t.readbackRevision)]

/-- `settlement_trust` returns these keys: they are the descriptor's, under digests and revisions
of the journal. -/
structure TrustKeys.Returned (t : TrustKeys) (d : Descriptor) : Prop where
  keys : t.destinationKeyHex = d.destinationPublicKeyHex ∧
    t.readbackKeyHex = d.observerPublicKeyHex
  ids : t.destinationKeyId = d.destinationKeyId ∧ t.observerKeyId = d.observerKeyId
  registries : isLowerHex 64 t.destinationRegistrySha256 = true ∧
    isLowerHex 64 t.readbackRegistrySha256 = true
  revisions : t.destinationRevision ≤ 2147483647 ∧ t.readbackRevision ≤ 2147483647

/-- An operator's signed review. -/
structure Review where
  reviewer : String
  signatureHex : String
  deriving DecidableEq, Repr

def reviewText (r : Review) : List Char :=
  object [] [("reviewer", text r.reviewer), ("signature_hex", text r.signatureHex)]

/-- The text of an authority binding. -/
def bindingText (b : Binding) : List Char :=
  object [] [("agent_id", optionalText b.agentId), ("agent_revision", natText b.agentRevision),
    ("capabilities", array (b.capabilities.map .ofString)),
    ("delegation_id", optionalText b.delegationId),
    ("delegation_revision", natText b.delegationRevision),
    ("grantor_revision", natText b.grantorRevision), ("issuer", text b.issuer),
    ("kind", text (kindText b.kind)), ("revision", natText b.revision),
    ("subject", text b.subject), ("targets", array (b.targets.map .ofString)),
    ("tenant_id", optionalText b.tenantId), ("tenant_revision", natText b.tenantRevision),
    ("user_revision", natText b.userRevision)]

structure Admitted where
  tenantId : String
  storeId : String
  ownerId : String
  agentId : String
  taskId : String
  operationId : String
  intentSha256 : String
  linkSha256 : String
  fingerprint : String
  attemptId : String
  decisionSha256 : String
  /-- The state of the task, if it is terminal already. -/
  previous : Option TaskState

/-- The verified evidence is about this task. -/
def Admitted.agrees (m : Admitted) (a : Authorization) : Bool :=
  a.tenantId == m.tenantId && a.storeId == m.storeId && a.ownerId == m.ownerId &&
    a.agentId == m.agentId && a.taskId == m.taskId && a.operationId == m.operationId &&
    a.intentSha256 == m.intentSha256 && a.admissionLinkSha256 == m.linkSha256 &&
    a.fingerprint == m.fingerprint && a.attemptId == m.attemptId

/-- The record of a settlement. -/
def recordText (C : Codec) (m : Admitted) (a : Authorization) (e : Evidence)
    (trust : Option TrustKeys) (manual : Option (Review × Principal)) : List Char :=
  object [] [("admission_link_sha256", text m.linkSha256), ("agent_id", text m.agentId),
    ("authorization", C.authorizationText a), ("decision_sha256", text m.decisionSha256),
    ("destination_receipt", C.receiptText e.destinationReceipt),
    ("domain", text "agentbridge.task-execution-result.v1"), ("operation_id", text m.operationId),
    ("operator_authority", manual.elim "null".toList fun x => bindingText x.2.binding),
    ("outcome", text "succeeded"), ("owner_id", text m.ownerId),
    ("previous_terminal_state", optionalText (m.previous.map Durable.stateText)),
    ("readback_attestation", C.readbackText e.readbackAttestation),
    ("result", Codec.resultText e.result),
    ("review", manual.elim "null".toList fun x => reviewText x.1), ("task_id", text m.taskId),
    ("trust_context", trustText trust)]

/-! ### The judgements -/

/-- `canonical_review_payload`. -/
def reviewPayload (r : Review) (a : Authorization)
    (effectId receiptSha256 readbackSha256 : String) : List Char :=
  "agentbridge-operator-review-v1:".toList ++
    object [] [("agent_id", text a.agentId), ("destination_receipt_sha256", text receiptSha256),
      ("external_reference", text effectId), ("fingerprint", text a.fingerprint),
      ("operation_id", text a.operationId), ("outcome", text "succeeded"),
      ("readback_sha256", text readbackSha256), ("reviewer", text r.reviewer)]

/-- `verify_operator_review`, with the operators' registry. -/
def verifyOperatorReview (C : Codec) (registry : Table String String) (r : Review)
    (payload : List Char) : Except Fault Unit := do
  require (decide (registry.entries ≠ [])) (.valueError "operator registry empty or invalid")
  let missing : Fault := .valueError "reviewer not enrolled or signature missing"
  let key ← (registry.lookup r.reviewer).elim (throw missing) pure
  require (key.length == 64 && r.signatureHex.length == 128) missing
  require (isHex 64 key && isHex 128 r.signatureHex && C.verifies key payload r.signatureHex)
    (.valueError "reviewer signature invalid")

/-- The session may write budgets of this tenant. -/
def canSettle (p : Principal) (tenantId : String) : Bool :=
  match p.kind with
  | .platformAdmin => true
  | .member .tenantAdmin | .member .tenantOperator => p.tenantId == some tenantId
  | _ => false

/-- The operator's part of `_finish_verified`. -/
def verifyManual (C : Codec) (registry : Table String String) (m : Admitted) (a : Authorization)
    (e : Evidence) (digests : String × String) : Option (Review × Principal) → Except Fault Unit
  | none => return ()
  | some (review, operator) => do
    require (canSettle operator m.tenantId) (.authorityDenied "operator authority required")
    verifyOperatorReview C registry review
      (reviewPayload review a e.result.effectId digests.1 digests.2)

/-- `_finish_verified`, from the evidence to the inserted record; `limit` is the result allowance
of the intent. -/
def finishVerified (C : Codec) (registry : Table String String) (limit : ℕ) (m : Admitted)
    (a : Authorization) (action : String) (d : Descriptor) (e : Evidence) (now : ℤ)
    (trust : Option TrustKeys) (manual : Option (Review × Principal)) :
    Except Fault (List Char) := do
  let digests ← C.verifyQueuedActionEvidence a action d e now
  require (m.agrees a) (.authorityDenied "verified result does not match the admitted task")
  verifyManual C registry m a e digests manual
  let record := recordText C m a e trust manual
  require (record.length ≤ limit)
    (.integrityError "invalid or unbounded task execution history")
  return record

/-! ### The size of a record -/

theorem length_optionalText_le {s : Option String} {n : ℕ} (h : ∀ t ∈ s, (text t).length ≤ n)
    (hn : 4 ≤ n) : (optionalText s).length ≤ n := by
  cases s with
  | none => exact hn
  | some t => exact h t rfl

/-- The states have short names. -/
theorem length_stateText_le (s : TaskState) : (text (Durable.stateText s)).length ≤ 16 := by
  cases s <;> decide +kernel

variable {C : Codec} {d : Descriptor} {trust : Option TrustKeys} {a : Authorization}
  {action : String} {e : Evidence} {now : ℤ} {digests : String × String}

/-- The trust context of a normal descriptor has a bounded size. -/
theorem length_trustText_le (hd : C.IsNormal d) (h : ∀ t ∈ trust, t.Returned d) :
    (trustText trust).length ≤ 3549 := by
  cases trust with
  | none => decide
  | some t =>
    obtain ⟨⟨hkey₁, hkey₂⟩, ⟨hid₁, hid₂⟩, ⟨hsha₁, hsha₂⟩, hrev₁, hrev₂⟩ := h t rfl
    obtain ⟨⟨hdestination, hobserver⟩, hhex₁, hhex₂⟩ := keys_of_isNormal hd
    have hframe : frame ["destination_key_hex", "destination_key_id",
        "destination_registry_sha256", "destination_revision", "observer_key_id",
        "readback_key_hex", "readback_registry_sha256", "readback_revision"] = 189 := by
      decide +kernel
    have hid₁ := length_text_of_isQueuedIdentifier (hid₁ ▸ hdestination)
    have hid₂ := length_text_of_isQueuedIdentifier (hid₂ ▸ hobserver)
    have hkey₁ := length_text_of_isLowerHex (hkey₁ ▸ hhex₁)
    have hkey₂ := length_text_of_isLowerHex (hkey₂ ▸ hhex₂)
    have hsha₁ := length_text_of_isLowerHex hsha₁
    have hsha₂ := length_text_of_isLowerHex hsha₂
    have hrev₁ : (natText t.destinationRevision).length ≤ 10 :=
      Codec.length_natText_le (by omega) (by omega)
    have hrev₂ : (natText t.readbackRevision).length ≤ 10 :=
      Codec.length_natText_le (by omega) (by omega)
    rw [trustText, length_object (by simp)]
    simp only [map_cons, map_nil, hframe, valueSize_cons, valueSize_nil]
    omega

/-- The bytes of the operator's part: review and binding. -/
def operatorSize : Option (Review × Principal) → ℕ
  | none => 8
  | some (review, operator) => (reviewText review).length + (bindingText operator.binding).length

/-- The bytes of a record: those of the documents and names in it, and 316 of its own. -/
def recordSize (C : Codec) (m : Admitted) (a : Authorization) (e : Evidence)
    (trust : Option TrustKeys) (manual : Option (Review × Principal)) : ℕ :=
  (C.authorizationText a).length + (C.receiptText e.destinationReceipt).length +
    (C.readbackText e.readbackAttestation).length + (Codec.resultText e.result).length +
    (text m.linkSha256).length + (text m.decisionSha256).length + (text m.ownerId).length +
    (text m.agentId).length + (text m.taskId).length + (text m.operationId).length +
    (optionalText (m.previous.map Durable.stateText)).length + (trustText trust).length +
    operatorSize manual + 316

theorem length_recordText (C : Codec) (m : Admitted) (a : Authorization) (e : Evidence)
    (trust : Option TrustKeys) (manual : Option (Review × Principal)) :
    (recordText C m a e trust manual).length = recordSize C m a e trust manual := by
  have hoperator : (manual.elim "null".toList fun x => bindingText x.2.binding).length +
      (manual.elim "null".toList fun x => reviewText x.1).length = operatorSize manual := by
    cases manual with
    | none => rfl
    | some x => exact Nat.add_comm _ _
  have hdomain : (text "agentbridge.task-execution-result.v1").length = 38 := by decide +kernel
  have houtcome : (text "succeeded").length = 11 := by decide +kernel
  have hframe : frame ["admission_link_sha256", "agent_id", "authorization", "decision_sha256",
      "destination_receipt", "domain", "operation_id", "operator_authority", "outcome", "owner_id",
      "previous_terminal_state", "readback_attestation", "result", "review", "task_id",
      "trust_context"] = 267 := by
    decide +kernel
  rw [recordText, length_object (by simp), recordSize, ← hoperator]
  simp only [map_cons, map_nil, hframe, valueSize_cons, valueSize_nil, hdomain, houtcome]
  ring

/-- What is verified about the evidence of an attempt. -/
theorem verified_of_evidence (hd : C.IsNormal d)
    (h : C.verifyQueuedActionEvidence a action d e now = .ok digests) :
    C.Acceptable a d action ∧ (C.receiptText e.destinationReceipt).length ≤ 16384 ∧
      (C.readbackText e.readbackAttestation).length ≤ 16384 ∧
      (Codec.resultText e.result).length ≤ 512 := by
  simp only [Codec.verifyQueuedActionEvidence, bind_eq_ok] at h
  obtain ⟨_, -, _, hreadback, -⟩ := h
  obtain ⟨⟨hok, hr⟩, hsize, -⟩ := (Codec.verifyQueuedReadbackAttestation_eq_ok hd).mp hreadback
  obtain ⟨-, -, -, hresult⟩ := hr.effect
  exact ⟨hok, hr.size, hsize, hresult⟩

/-- **All but the operator's part takes at most 51637 bytes.** -/
theorem recordSize_le (hd : C.IsNormal d)
    (hverified : C.verifyQueuedActionEvidence a action d e now = .ok digests) {m : Admitted}
    (hagrees : m.agrees a = true) (hdecision : isLowerHex 64 m.decisionSha256 = true)
    (htrust : ∀ t ∈ trust, t.Returned d) (manual : Option (Review × Principal)) :
    recordSize C m a e trust manual ≤ 51637 + operatorSize manual := by
  obtain ⟨hok, hreceipt, hreadback, hresult⟩ := verified_of_evidence hd hverified
  have hauthorization := hok.size
  simp only [Admitted.agrees, Bool.and_eq_true, beq_iff_eq] at hagrees
  obtain ⟨⟨⟨⟨⟨⟨⟨⟨-, howner⟩, hagent⟩, htask⟩, hoperation⟩, -⟩, hlink⟩, -⟩, -⟩ := hagrees
  have hids := hok.identifiers
  have hdigests := hok.digests
  simp only [Authorization.identifiers, Authorization.digests, all_cons, all_nil,
    Bool.and_true, Bool.and_eq_true] at hids hdigests
  rw [howner, hagent, htask, hoperation] at hids
  rw [hlink] at hdigests
  obtain ⟨-, -, hid₁, hid₂, hid₃, -, -, -, hid₄, -⟩ := hids
  have hid₁ := length_text_of_isQueuedIdentifier hid₁
  have hid₂ := length_text_of_isQueuedIdentifier hid₂
  have hid₃ := length_text_of_isQueuedIdentifier hid₃
  have hid₄ := length_text_of_isQueuedIdentifier hid₄
  have hlink := length_text_of_isLowerHex hdigests.2.2.1
  have hdecision := length_text_of_isLowerHex hdecision
  have htrust := length_trustText_le hd htrust
  have hprevious : (optionalText (m.previous.map Durable.stateText)).length ≤ 16 := by
    refine length_optionalText_le (fun t ht => ?_) (by decide)
    obtain ⟨s, -, rfl⟩ := Option.map_eq_some_iff.mp ht
    exact length_stateText_le s
  rw [recordSize]
  omega

/-- **Verified evidence fits its reserved space** in every run, for every attempt, trust context and
operator, exactly if the parts of the record do; so it does whenever review and binding take at most
13899 bytes, and in an automatic settlement, which has neither. -/
theorem settlement_fits {cfg : Config} {C : Codec} {w₀ w : World} {key : TaskKey}
    {row : DecisionRow} {i : String} {a : Authorization} {d : Descriptor} {action : String}
    {e : Evidence} {now : ℤ} {digests : String × String} {registry : Table String String}
    {m : Admitted} {trust : Option TrustKeys} {manual : Option (Review × Principal)}
    (h₀ : w₀.Fresh cfg) (hrun : (system cfg).Reachable w₀ w)
    (hrow : w.tables.decisions.lookup key = some row) (hbody : row.body = .attempt i a d)
    (hd : Registered C cfg a.targetId d)
    (hverified : C.verifyQueuedActionEvidence a action d e now = .ok digests)
    (hagrees : m.agrees a = true) (hdecision : isLowerHex 64 m.decisionSha256 = true)
    (htrust : ∀ t ∈ trust, t.Returned d)
    (hmanual : verifyManual C registry m a e digests manual = .ok ()) :
    ∃ intent, w.tables.intents.lookup key = some intent ∧
      (finishVerified C registry intent.resultLimitBytes m a action d e now trust manual =
          .ok (recordText C m a e trust manual) ↔
        recordSize C m a e trust manual ≤ intent.resultLimitBytes) ∧
      (operatorSize manual ≤ 13899 →
        recordSize C m a e trust manual ≤ intent.resultLimitBytes) := by
  obtain ⟨intent, action', hintent, hmade⟩ :=
    ((Filed.of_fresh h₀).reachable hrun).attempts key row i a d hrow hbody
  have hlimit : 65536 ≤ intent.resultLimitBytes := hmade.limit ▸ hmade.allowance.1
  have hsize := recordSize_le hd.normal hverified hagrees hdecision htrust manual
  refine ⟨intent, hintent, ?_, fun hsmall => by omega⟩
  simp only [finishVerified, bind_eq_ok, require_eq_ok, decide_eq_true_eq,
    pure_eq_ok, length_recordText]
  constructor
  · rintro ⟨-, -, -, -, -, -, -, hfits, -⟩
    exact hfits
  · intro hfits
    exact ⟨digests, hverified, (), hagrees, (), hmanual, (), hfits, trivial⟩

/-! ### The transaction that stores the record -/

/-- The task of a linked history, as its record names it. -/
def Admitted.ofHistory (cfg : Config) (h : Tenant.History) (attemptId decisionSha256 : String) :
    Admitted where
  tenantId := cfg.tenantId
  storeId := cfg.storeId
  ownerId := h.intent.ownerId
  agentId := h.intent.agentId
  taskId := h.intent.taskId
  operationId := h.intent.operationId
  intentSha256 := h.intent.intentSha256
  linkSha256 := h.link.linkSha256
  fingerprint := h.operation.fingerprint
  attemptId := attemptId
  decisionSha256 := decisionSha256
  previous := if h.current.isTerminal then some h.current.state else none

/-- **A recorded settlement is the transaction's**: what `Tenant.finishVerified` checks holds
whenever the record is made, and it has only its inserts and updates left. -/
theorem finishVerified_of_record {cfg : Config} {k : Signers} {t : Tenant}
    {completion : Tenant.Readback} {base : Base} {i : String} {h : Tenant.History}
    {unknown : Operation} {registry : Table String String}
    {manual : Option (Review × Principal)} {record : List Char}
    (hcfg : cfg.contract = C.contract k) (hd : C.IsNormal d) (hk : k.Only C d)
    (hrow : t.decisions.lookup completion.refs.key =
      some ⟨base, .attempt i a d, completion.decisionSha256⟩)
    (hlinked : t.linkedHistory cfg completion.refs = .ok h)
    (hnew : t.results.lookup completion.refs.key = none)
    (hunknown : t.store.accounts.lockUnknown h.intent.opKey = .ok unknown)
    (haction : cfg.demoAction h.intent.record.submission.wire = some action)
    (hcopy : completion.evidence.readbackAttestation.receipt =
      completion.evidence.destinationReceipt)
    (hrecord : finishVerified C registry h.intent.resultLimitBytes
      (.ofHistory cfg h i completion.decisionSha256) a action d completion.evidence now trust
      manual = .ok record) (review : Option OperatorReview) :
    t.finishVerified cfg completion review true now =
      (t.insertResult (Tenant.resultFor h a completion.decisionSha256 completion.evidence
          .succeeded review) >>=
        fun t => t.settleTask h.intent h.link .succeeded now >>=
          fun t => t.endTask completion.refs.key .completed) := by
  simp only [finishVerified, bind_eq_ok, require_eq_ok] at hrecord
  obtain ⟨digests, hverified, -, hagrees, -⟩ := hrecord
  have hevidence := verifyEvidence_of_exact hd hk hcopy hverified
  have hcertifies : Tenant.certifies cfg a h i = true := hagrees
  simp only [Tenant.finishVerified, hrow, hlinked, hnew, hunknown, haction, hcfg, hevidence,
    hcertifies, ok_bind, beq_self_eq_true, Bool.or_true]
  rfl

/-! ### An operator with long scopes -/

/-- An acceptable authorization has evidence, if destination and observer sign. -/
theorem exists_evidence {destination : List Char → String} {o : Observer} (hd : C.IsNormal d)
    (hok : C.Acceptable a d action) (hlimit : resultEnvelopeLimitBytes ≤ a.resultLimitBytes)
    (hdestination : C.Signs d.destinationPublicKeyHex destination)
    (hobserver : C.Signs d.observerPublicKeyHex o.sign) :
    ∃ e now digests, C.verifyQueuedActionEvidence a action d e now = .ok digests := by
  obtain ⟨value, hvalue⟩ := Option.isSome_iff_exists.mp hok.canonical
  have hwindow := hok.window
  simp only [Codec.hasWindow, Bool.and_eq_true, decide_eq_true_eq] at hwindow
  obtain ⟨⟨⟨hissued, -⟩, hpending⟩, -⟩ := hwindow
  have hr := receipted_of_acceptable hd hok hvalue ⟨hissued, le_rfl, hpending⟩ hdestination
  simp only [isSeconds, Bool.and_eq_true, decide_eq_true_eq] at hissued
  have hrange : 1 ≤ max a.issuedAt 1 ∧ max a.issuedAt 1 < 253402300801 :=
    ⟨le_max_right _ _, max_lt (hissued.2.trans_lt (by norm_num)) (by norm_num)⟩
  exact ⟨_, _, _, verifyEvidence_of_signedFor hd hok hr hlimit hobserver hrange (le_max_left _ _)
    (by omega) (by omega : ⌊max a.issuedAt 1⌋ ≤ _)⟩

/-- A record that exceeds the allowance is refused, whatever was verified. -/
theorem finishVerified_of_oversized {registry : Table String String} {limit : ℕ} {m : Admitted}
    {manual : Option (Review × Principal)}
    (hverified : C.verifyQueuedActionEvidence a action d e now = .ok digests)
    (hagrees : m.agrees a = true) (hmanual : verifyManual C registry m a e digests manual = .ok ())
    (hsize : limit < (recordText C m a e trust manual).length) :
    finishVerified C registry limit m a action d e now trust manual =
      .error (.integrityError "invalid or unbounded task execution history") := by
  have hfalse : decide ((recordText C m a e trust manual).length ≤ limit) = false :=
    decide_eq_false (Nat.not_le.mpr hsize)
  unfold finishVerified
  rw [hverified]
  show (do require (m.agrees a) _; _) = _
  rw [hagrees]
  show (do verifyManual C registry m a e digests manual; _) = _
  rw [hmanual]
  show (do require (decide ((recordText C m a e trust manual).length ≤ limit)) _; _) = _
  rw [hfalse]
  rfl

/-- The text of an array of strings is at least as long as its members. -/
theorem length_array_ge (l : List String) :
    (l.map fun s => (text s).length).sum ≤ (array (l.map .ofString)).length := by
  have hrest : ∀ l : List String,
      (l.map fun s => (text s).length).sum ≤ (strings (l.map .ofString)).length := by
    intro l
    induction l with
    | nil => simp
    | cons s l ih =>
      simp only [map_cons, sum_cons, strings, length_cons, length_append]
      change (text s).length + _ ≤ (text s).length + _ + 1
      omega
  cases l with
  | nil => simp
  | cons s l =>
    have := hrest l
    simp only [map_cons, sum_cons, array, length_cons, length_append]
    change (text s).length + _ ≤ (text s).length + _ + 1
    omega

/-- The scopes of an operator are part of the record. -/
theorem length_recordText_ge (C : Codec) (m : Admitted) (a : Authorization) (e : Evidence)
    (trust : Option TrustKeys) (review : Review) (operator : Principal) :
    (operator.capabilities.map fun s => (text s).length).sum ≤
      (recordText C m a e trust (some (review, operator))).length := by
  have harray := length_array_ge operator.capabilities
  have hbinding : (array (operator.capabilities.map .ofString)).length ≤
      (bindingText operator.binding).length := by
    rw [bindingText, length_object (by simp)]
    simp only [valueSize_cons, Principal.binding]
    omega
  rw [length_recordText, recordSize, operatorSize]
  omega

/-- Sixty-four scopes of up to 128 characters beyond the basic plane. -/
def wideScopes : List String :=
  (List.range 64).map fun i => String.ofList (List.replicate (128 - i) '😀')

theorem mem_wideScopes {s : String} (h : s ∈ wideScopes) :
    (65 ≤ s.length ∧ s.length ≤ 128) ∧ ∀ c ∈ s.toList, c = '😀' := by
  obtain ⟨i, hi, rfl⟩ := mem_map.mp h
  have hi := mem_range.mp hi
  rw [← String.length_toList, String.toList_ofList, length_replicate]
  exact ⟨by omega, fun c hc => eq_of_mem_replicate hc⟩

theorem wideScopes_nodup : wideScopes.Nodup := by
  refine nodup_range.map_on fun i hi j hj h => ?_
  have hlength := congrArg String.length h
  rw [← String.length_toList, ← String.length_toList, String.toList_ofList, String.toList_ofList,
    length_replicate, length_replicate] at hlength
  rw [mem_range] at hi hj
  omega

/-- The directory accepts them. -/
theorem scopes_wideScopes : ∃ names, scopes wideScopes = .ok names ∧ names.Perm wideScopes := by
  have hscope : wideScopes.all isScope = true := by
    refine all_eq_true.mpr fun s hs => ?_
    obtain ⟨⟨hlow, hhigh⟩, hchars⟩ := mem_wideScopes hs
    have hspace : isSpace '😀' = false := by decide
    simp only [isScope, isStripped, hasControl, Bool.and_eq_true, decide_eq_true_eq,
      Bool.not_eq_true', contains_eq_mem, decide_eq_false_iff_not, any_eq_false,
      Option.all_eq_true]
    refine ⟨⟨⟨⟨by omega, hhigh⟩, fun c hc => ?_, fun c hc => ?_⟩, fun hc => ?_⟩, fun c hc => ?_⟩
    · rw [hchars c (mem_of_mem_head? hc)]; exact hspace
    · rw [hchars c (mem_of_mem_getLast? hc)]; exact hspace
    · exact absurd (hchars _ hc) (by decide)
    · rw [hchars c hc]; decide
  have hlength : wideScopes.length ≤ 128 := by
    rw [wideScopes, length_map, length_range]
    omega
  refine ⟨wideScopes.dedup.insertionSort (· ≤ ·), ?_, ?_⟩
  · simp only [scopes, bind_eq_ok, require_eq_ok, decide_eq_true_eq, pure_eq_ok]
    exact ⟨(), hlength, (), hscope, trivial⟩
  · exact (perm_insertionSort _ _).trans (by rw [wideScopes_nodup.dedup])

theorem sum_wideScopes : 65536 < (wideScopes.map fun s => (text s).length).sum := by
  have hvalues : (wideScopes.map fun s => (text s).length) =
      (List.range 64).map fun i => 12 * (128 - i) + 2 := by
    rw [wideScopes, map_map]
    refine map_congr_left fun i hi => ?_
    have hmem : String.ofList (List.replicate (128 - i) '😀') ∈ wideScopes :=
      mem_map.mpr ⟨i, hi, rfl⟩
    have hwide : ∀ c ∈ (String.ofList (List.replicate (128 - i) '😀')).toList,
        0x10000 ≤ c.toNat := by
      intro c hc
      rw [(mem_wideScopes hmem).2 c hc]
      decide
    show (text (String.ofList (List.replicate (128 - i) '😀'))).length = _
    rw [length_text_of_supplementary hwide, ← String.length_toList, String.toList_ofList,
      length_replicate]
  rw [hvalues]
  decide +kernel

def admittedOf (a : Authorization) : Admitted where
  tenantId := a.tenantId
  storeId := a.storeId
  ownerId := a.ownerId
  agentId := a.agentId
  taskId := a.taskId
  operationId := a.operationId
  intentSha256 := a.intentSha256
  linkSha256 := a.admissionLinkSha256
  fingerprint := a.fingerprint
  attemptId := a.attemptId
  decisionSha256 := sampleHex
  previous := none

theorem admittedOf_agrees (a : Authorization) : (admittedOf a).agrees a = true := by
  simp only [Admitted.agrees, admittedOf, beq_self_eq_true, Bool.and_self]

/-- A review by the sample operator. -/
def sampleReview : Review := ⟨"alice", String.ofList (List.replicate 128 'a')⟩

/-- The reviewer's key. -/
def sampleRegistry : Table String String := (∅ : Table String String).insert "alice" sampleHex

theorem sampleReview_verified (payload : List Char) :
    verifyOperatorReview writerCodec sampleRegistry sampleReview payload = .ok () := by
  have hlookup : sampleRegistry.lookup sampleReview.reviewer = some sampleHex :=
    AList.lookup_insert _
  simp only [verifyOperatorReview, bind_eq_ok, require_eq_ok, elim_eq_ok, Bool.and_eq_true]
  exact ⟨(), by decide, sampleHex, hlookup, (), by decide +kernel, ⟨by decide +kernel,
    by decide +kernel⟩, rfl⟩

theorem sampleManual_verified (htenant : a.tenantId = "acme") (e : Evidence)
    (digests : String × String) {operator : Principal}
    (hkind : operator.kind = .member .tenantOperator) (hscope : operator.tenantId = some "acme") :
    verifyManual writerCodec sampleRegistry (admittedOf a) a e digests
      (some (sampleReview, operator)) = .ok () := by
  simp only [verifyManual, bind_eq_ok, require_eq_ok]
  refine ⟨(), ?_, sampleReview_verified _⟩
  unfold canSettle
  rw [hkind, hscope]
  show (some "acme" == some a.tenantId) = true
  rw [htenant]
  rfl

theorem writerWorld_evidence : ∃ a action e now digests row i intent,
    (writerWorld sampleTask sampleTarget).tables.decisions.lookup (sampleHex, "task-1") = some row ∧
    row.body = .attempt i a sampleTarget ∧
    (writerWorld sampleTask sampleTarget).tables.intents.lookup (sampleHex, "task-1") =
      some intent ∧
    intent.resultLimitBytes = 65536 ∧ a.targetId = "t1" ∧ a.tenantId = "acme" ∧
    writerCodec.verifyQueuedActionEvidence a action sampleTarget e now = .ok digests := by
  obtain ⟨a, intent, ha, hintent, htarget, hdrawn, hlimit, -, hdeliverable⟩ := writerWorld_attempted
  obtain ⟨row, i, hrow, hbody⟩ := attempted_eq_some ha
  obtain ⟨stored, action, hstored, hmade⟩ := ((Filed.of_fresh writerWorld_fresh).reachable
    (LTS.reachable_drive _ _ _)).attempts _ _ _ _ _ hrow hbody
  obtain rfl := Option.some.inj (hintent.symm.trans hstored)
  have hd : Registered writerCodec writerConfig a.targetId sampleTarget :=
    htarget ▸ sampleTarget_registered
  have hok := (hmade.acceptable_iff writerConfig_exact hd hdrawn writerSigners_signs).mpr
    hdeliverable
  have hsigns : ∀ key, writerCodec.Signs key writerSigners.destination :=
    fun _ => ⟨writerSigners_signs.encoding, fun _ => rfl⟩
  obtain ⟨e, now, digests, hverified⟩ := exists_evidence (o := sampleObserver) hd.normal hok
    hmade.allowance.1 (hsigns _) (hsigns _)
  exact ⟨a, action, e, now, digests, row, i, intent, hrow, hbody, hintent, hlimit, htarget,
    hmade.store.1, hverified⟩

/-- The sample operator settles the sample attempt. -/
theorem settlement_fits_sample : ∃ a action e now intent record,
    (writerWorld sampleTask sampleTarget).tables.intents.lookup (sampleHex, "task-1") =
      some intent ∧
    finishVerified writerCodec sampleRegistry intent.resultLimitBytes (admittedOf a) a action
      sampleTarget e now none (some (sampleReview, sampleAlice)) = .ok record := by
  obtain ⟨a, action, e, now, digests, row, i, intent, hrow, hbody, hintent, -, htarget, htenant,
    hverified⟩ := writerWorld_evidence
  have hmanual : verifyManual writerCodec sampleRegistry (admittedOf a) a e digests
      (some (sampleReview, sampleAlice)) = .ok () :=
    sampleManual_verified htenant e digests rfl rfl
  have hsmall : operatorSize (some (sampleReview, sampleAlice)) ≤ 13899 := by decide +kernel
  have htrust : ∀ t ∈ (none : Option TrustKeys), t.Returned sampleTarget := by simp
  obtain ⟨intent, hintent, hiff, hfits⟩ := settlement_fits writerWorld_fresh
    (LTS.reachable_drive _ _ _) hrow hbody (htarget ▸ sampleTarget_registered) hverified
    (admittedOf_agrees a) isLowerHex_sampleHex htrust hmanual
  exact ⟨a, action, e, now, intent, _, hintent, hiff.mpr (hfits hsmall)⟩

/-- **An operator with long scopes cannot settle**: the directory accepts the scopes, evidence and
review are verified, and the record is refused for its size. -/
theorem oversized_settlement : ∃ a action e now digests row i intent, ∃ operator : Principal,
    (writerWorld sampleTask sampleTarget).tables.decisions.lookup (sampleHex, "task-1") = some row ∧
    row.body = .attempt i a sampleTarget ∧
    (writerWorld sampleTask sampleTarget).tables.intents.lookup (sampleHex, "task-1") =
      some intent ∧
    writerCodec.verifyQueuedActionEvidence a action sampleTarget e now = .ok digests ∧
    operator.kind = .member .tenantOperator ∧
    scopes wideScopes = .ok operator.capabilities ∧ scopes [] = .ok operator.targets ∧
    verifyManual writerCodec sampleRegistry (admittedOf a) a e digests
      (some (sampleReview, operator)) = .ok () ∧
    finishVerified writerCodec sampleRegistry intent.resultLimitBytes (admittedOf a) a action
      sampleTarget e now none (some (sampleReview, operator)) =
        .error (.integrityError "invalid or unbounded task execution history") := by
  obtain ⟨a, action, e, now, digests, row, i, intent, hrow, hbody, hintent, hlimit, -, htenant,
    hverified⟩ := writerWorld_evidence
  obtain ⟨names, hnames, hperm⟩ := scopes_wideScopes
  let operator : Principal := { sampleAlice with capabilities := names, targets := [] }
  have hmanual : verifyManual writerCodec sampleRegistry (admittedOf a) a e digests
      (some (sampleReview, operator)) = .ok () :=
    sampleManual_verified htenant e digests rfl rfl
  have hsize : intent.resultLimitBytes <
      (recordText writerCodec (admittedOf a) a e none (some (sampleReview, operator))).length := by
    have hsum : (operator.capabilities.map fun s => (text s).length).sum =
        (wideScopes.map fun s => (text s).length).sum := (hperm.map _).sum_eq
    have hwide := sum_wideScopes
    have hrecord := length_recordText_ge writerCodec (admittedOf a) a e none sampleReview operator
    rw [hlimit]
    omega
  exact ⟨a, action, e, now, digests, row, i, intent, operator, hrow, hbody, hintent, hverified, rfl,
    hnames, rfl, hmanual,
    finishVerified_of_oversized hverified (admittedOf_agrees a) hmanual hsize⟩

end AgentBridge.Queued
