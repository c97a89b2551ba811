import AgentBridge.Queued.Destination
import AgentBridge.Text.Object

/-!
# The documents of a queued action

What the three parties of a queued action exchange are flat JSON objects, written by
`canonical_queued_json`: the names in order, no blanks, and only ASCII characters. Digests and
signatures are taken over that text, and its length is what the byte limits are about: one
character of an identifier can take twelve bytes.

* `demoValue_demoText` : **a canonical action is read back**.
-/

namespace AgentBridge

open JsonText List

/-! ### Strings -/

/-- `queued_hex`. -/
def isLowerHex (n : ℕ) (value : String) : Bool :=
  value.toList.length == n && value.toList.all fun c => c.isDigit || ('a' ≤ c && c ≤ 'f')

/-- `"\x00" in value`. -/
def hasNul (value : String) : Bool := value.toList.contains '\x00'

/-- `queued_identifier`. -/
def isQueuedIdentifier (value : String) : Bool :=
  1 ≤ value.length && value.length ≤ 128 && !hasNul value && isStripped value &&
    value.utf8ByteSize ≤ 512

/-- A string literal. -/
def text (s : String) : List Char := quoted (.ofString s)

theorem utf8ByteSize_le (s : String) : s.utf8ByteSize ≤ 4 * s.length := by
  have hlist : ∀ cs : List Char, (String.ofList cs).utf8ByteSize ≤ 4 * cs.length := by
    intro cs
    induction cs with
    | nil => decide
    | cons c cs ih =>
      have := Char.utf8Size_le_four c
      rw [String.ofList_cons, String.utf8ByteSize_append, String.utf8ByteSize_singleton,
        length_cons]
      omega
  have := hlist s.toList
  rwa [String.ofList_toList, String.length_toList] at this

variable {s : String}

theorem utf8ByteSize_of_ascii (h : ∀ c ∈ s.toList, c.toNat < 128) : s.utf8ByteSize = s.length := by
  have hlist : ∀ cs : List Char, (∀ c ∈ cs, c.toNat < 128) →
      (String.ofList cs).utf8ByteSize = cs.length := by
    intro cs hcs
    induction cs with
    | nil => decide
    | cons c cs ih =>
      have hc : c.utf8Size = 1 := Char.utf8Size_eq_one_iff.mpr
        (UInt32.le_iff_toNat_le.mpr (Nat.le_of_lt_succ (hcs c mem_cons_self)))
      rw [String.ofList_cons, String.utf8ByteSize_append, String.utf8ByteSize_singleton,
        length_cons, hc, ih fun d hd => hcs d (mem_cons_of_mem _ hd)]
      omega
  have := hlist s.toList h
  rwa [String.ofList_toList, String.length_toList] at this

/-- **Without NUL, the destination accepts what a task may be named.** -/
theorem isQueuedIdentifier_iff (s : String) :
    isQueuedIdentifier s = true ↔ Task.isIdentifier s = true ∧ hasNul s = false := by
  simp only [isQueuedIdentifier, Task.isIdentifier, Bool.and_eq_true, decide_eq_true_eq,
    Bool.not_eq_true']
  constructor
  · rintro ⟨⟨⟨⟨hpos, hle⟩, hnul⟩, hstripped⟩, -⟩
    exact ⟨⟨⟨hpos, hle⟩, hstripped⟩, hnul⟩
  · rintro ⟨⟨⟨hpos, hle⟩, hstripped⟩, hnul⟩
    have := utf8ByteSize_le s
    exact ⟨⟨⟨⟨hpos, hle⟩, hnul⟩, hstripped⟩, by omega⟩

theorem length_codes (s : String) : (PyString.ofString s).codes.length = s.length := by
  show (s.toList.map Char.toNat).length = _
  rw [length_map, String.length_toList]

theorem length_text_le (s : String) : (text s).length ≤ 12 * s.length + 2 := by
  rw [← length_codes]
  exact length_quoted_le _

/-- A character beyond the basic plane takes two escapes. -/
theorem length_text_of_supplementary (h : ∀ c ∈ s.toList, 0x10000 ≤ c.toNat) :
    (text s).length = 12 * s.length + 2 := by
  rw [← length_codes, text, length_quoted, length_escape_of_supplementary]
  intro n hn
  obtain ⟨c, hc, rfl⟩ := mem_map.mp hn
  refine ⟨h c hc, ?_⟩
  rcases c.valid with hlow | ⟨-, hhigh⟩
  · exact hlow.trans (by decide)
  · exact hhigh

/-- A character that stands for itself in a literal. -/
def isPlain (c : Char) : Bool := 0x20 ≤ c.toNat && c.toNat ≤ 0x7e && c != '"' && c != '\\'

theorem length_text_of_plain (h : ∀ c ∈ s.toList, isPlain c = true) :
    (text s).length = s.length + 2 := by
  have hcodes : ∀ n ∈ (PyString.ofString s).codes, 0x20 ≤ n ∧ n ≤ 0x7e ∧ n ≠ 0x22 ∧ n ≠ 0x5c := by
    intro n hn
    obtain ⟨c, hc, rfl⟩ := mem_map.mp hn
    have hplain := h c hc
    simp only [isPlain, Bool.and_eq_true, decide_eq_true_eq, bne_iff_ne] at hplain
    obtain ⟨⟨⟨hlow, hhigh⟩, hquote⟩, hslash⟩ := hplain
    exact ⟨hlow, hhigh, fun heq => hquote (Char.ext (UInt32.toNat.inj heq)),
      fun heq => hslash (Char.ext (UInt32.toNat.inj heq))⟩
  rw [text, length_quoted_of_plain hcodes, length_codes]

/-- A string of characters that stand for themselves, without blanks. -/
def IsWord (s : String) : Prop :=
  ∀ c ∈ s.toList, isPlain c = true ∧ isSpace c = false ∧ c ≠ '\x00'

/-- From the minus sign to the small letters only the backslash is escaped. -/
theorem word_of_range {c : Char} (hlow : 45 ≤ c.toNat) (hhigh : c.toNat ≤ 122) (h : c ≠ '\\') :
    isPlain c = true ∧ isSpace c = false ∧ c ≠ '\x00' := by
  have hne : ∀ d : Char, d.toNat < 45 → c ≠ d := by
    rintro d hd rfl
    omega
  refine ⟨?_, ?_, hne _ (by decide)⟩
  · simp only [isPlain, Bool.and_eq_true, decide_eq_true_eq, bne_iff_ne]
    exact ⟨⟨⟨by omega, by omega⟩, hne _ (by decide)⟩, h⟩
  · simp only [isSpace, Bool.or_eq_false_iff, Bool.and_eq_false_iff, decide_eq_false_iff_not,
      beq_eq_false_iff_ne]
    omega

section Word

variable {s : String} (h : IsWord s)

include h

theorem length_text_of_isWord : (text s).length = s.length + 2 :=
  length_text_of_plain fun c hc => (h c hc).1

theorem isQueuedIdentifier_of_isWord (hpos : 1 ≤ s.length) (hle : s.length ≤ 128) :
    isQueuedIdentifier s = true := by
  have hspace : ∀ c ∈ s.toList, isSpace c = false := fun c hc => (h c hc).2.1
  rw [isQueuedIdentifier_iff]
  refine ⟨?_, ?_⟩
  · simp only [Task.isIdentifier, isStripped, Bool.and_eq_true, decide_eq_true_eq,
      Option.all_eq_true, Bool.not_eq_true']
    exact ⟨⟨hpos, hle⟩, fun c hc => hspace c (mem_of_mem_head? hc),
      fun c hc => hspace c (mem_of_mem_getLast? hc)⟩
  · simp only [hasNul, contains_eq_mem, decide_eq_false_iff_not]
    exact fun hmem => (h _ hmem).2.2 rfl

end Word

theorem isWord_of_isIdentifier (h : isIdentifier s = true) :
    IsWord s ∧ 1 ≤ s.length ∧ s.length ≤ 128 := by
  have hword : ∀ c : Char, (c.isAlphanum || c == '_' || c == '.' || c == ':' || c == '-') = true →
      isPlain c = true ∧ isSpace c = false ∧ c ≠ '\x00' := by
    intro c hc
    delta Char.isAlphanum Char.isAlpha Char.isUpper Char.isLower Char.isDigit at hc
    simp only [Bool.or_eq_true, Bool.and_eq_true, decide_eq_true_eq, beq_iff_eq] at hc
    rcases hc with (((((⟨h₁, h₂⟩ | ⟨h₁, h₂⟩) | ⟨h₁, h₂⟩) | rfl) | rfl) | rfl) | rfl
    · have h₁ : 65 ≤ c.toNat := h₁
      have h₂ : c.toNat ≤ 90 := h₂
      exact word_of_range (by omega) (by omega) (by rintro rfl; revert h₂; decide)
    · have h₁ : 97 ≤ c.toNat := h₁
      have h₂ : c.toNat ≤ 122 := h₂
      exact word_of_range (by omega) (by omega) (by rintro rfl; revert h₁; decide)
    · have h₁ : 48 ≤ c.toNat := h₁
      have h₂ : c.toNat ≤ 57 := h₂
      exact word_of_range (by omega) (by omega) (by rintro rfl; revert h₂; decide)
    all_goals exact word_of_range (by decide) (by decide) (by decide)
  unfold isIdentifier at h
  split at h
  case h_1 => cases h
  case h_2 c cs hs =>
    simp only [Bool.and_eq_true, decide_eq_true_eq, all_eq_true] at h
    obtain ⟨⟨hfirst, hlength⟩, hrest⟩ := h
    have hall : IsWord s := by
      intro x hx
      rw [hs] at hx
      rcases mem_cons.mp hx with rfl | hx
      · exact hword x (by simp [hfirst])
      · exact hword x (hrest x hx)
    rw [← String.length_toList, hs, length_cons]
    exact ⟨hall, by omega, by omega⟩

section Hex

variable {n : ℕ} {s : String} (h : isLowerHex n s = true)

include h

theorem length_of_isLowerHex : s.length = n := by
  simp only [isLowerHex, Bool.and_eq_true, beq_iff_eq] at h
  rw [← String.length_toList]
  exact h.1

theorem isWord_of_isLowerHex : IsWord s := by
  simp only [isLowerHex, Bool.and_eq_true] at h
  intro c hc
  have hhex : (c.isDigit || ('a' ≤ c && c ≤ 'f')) = true := all_eq_true.mp h.2 c hc
  delta Char.isDigit at hhex
  simp only [Bool.or_eq_true, Bool.and_eq_true, decide_eq_true_eq] at hhex
  have hrange : (48 ≤ c.toNat ∧ c.toNat ≤ 57) ∨ (97 ≤ c.toNat ∧ c.toNat ≤ 102) :=
    hhex.imp (fun hd => ⟨hd.1, hd.2⟩) fun hd => ⟨hd.1, hd.2⟩
  refine word_of_range (by omega) (by omega) ?_
  rintro rfl
  revert hrange
  decide

theorem length_text_of_isLowerHex : (text s).length = n + 2 := by
  rw [length_text_of_isWord (isWord_of_isLowerHex h), length_of_isLowerHex h]

/-- A digest may stand where an identifier is expected. -/
theorem isQueuedIdentifier_of_isLowerHex (hpos : 1 ≤ n) (hle : n ≤ 128) :
    isQueuedIdentifier s = true := by
  have hlength := length_of_isLowerHex h
  exact isQueuedIdentifier_of_isWord (isWord_of_isLowerHex h) (by omega) (by omega)

theorem isHex_of_isLowerHex : isHex n s = true := by
  simp only [isLowerHex, Bool.and_eq_true] at h
  simp only [isHex, Bool.and_eq_true]
  refine ⟨h.1, all_eq_true.mpr fun c hc => ?_⟩
  rw [all_eq_true.mp h.2 c hc]
  rfl

end Hex

namespace Queued

/-! ### The documents -/

/-- How documents are written, hashed and signed. -/
structure Codec where
  /-- A number, as `json.dumps` writes it. -/
  number : Time → List Char
  /-- The SHA-256 of a text in UTF-8, in hexadecimal. -/
  sha256 : List Char → String
  /-- The signature, in hexadecimal, of a text verifies under a public key. -/
  verifies : String → List Char → String → Bool
  /-- `Path.resolve`. -/
  resolve : String → String
  /-- A float has at most 17 digits, and an exponent. -/
  number_length : ∀ t, isSeconds t = true → (number t).length ≤ 24
  sha256_hex : ∀ cs, isLowerHex 64 (sha256 cs) = true

/-- A natural number. -/
def natText (n : ℕ) : List Char := intText n

/-- The members of a signed document, in order: the signature stands between the others. -/
structure Members where
  before : List (String × List Char)
  signature : List Char
  after : List (String × List Char)

/-- The text of a signed document. -/
def Members.text (m : Members) : List Char :=
  object [] (m.before ++ ("signature_hex", m.signature) :: m.after)

/-- The text a signature is taken over. -/
def Members.payload (m : Members) : List Char := object [] (m.before ++ m.after)

/-- The characters that do not depend on the values. -/
def Members.frame (m : Members) : ℕ :=
  JsonText.frame (m.before.map Prod.fst ++ "signature_hex" :: m.after.map Prod.fst)

theorem Members.length_text (m : Members) :
    m.text.length = valueSize m.before + m.signature.length + valueSize m.after + m.frame := by
  have happend : ∀ kvs kvs' : List (String × List Char),
      valueSize (kvs ++ kvs') = valueSize kvs + valueSize kvs' := by
    intro kvs kvs'
    simp only [valueSize, map_append, sum_append]
  rw [text, length_object (by simp), happend, frame, map_append]
  simp only [map_cons, valueSize_cons]
  omega

namespace Codec

variable (C : Codec)

/-- The canonical text of a descriptor. -/
def descriptorText (d : Descriptor) : List Char :=
  object [] [("action_schema", text d.actionSchema), ("authorizer_key_id", text d.authorizerKeyId),
    ("authorizer_public_key_hex", text d.authorizerPublicKeyHex),
    ("call_timeout_seconds", C.number d.callTimeoutSeconds),
    ("destination_id", text d.destinationId), ("destination_key_id", text d.destinationKeyId),
    ("destination_public_key_hex", text d.destinationPublicKeyHex), ("kind", text d.kind),
    ("max_action_bytes", natText d.maxActionBytes), ("observer_key_id", text d.observerKeyId),
    ("observer_public_key_hex", text d.observerPublicKeyHex), ("path", text d.path),
    ("protocol", text d.protocol), ("target_id", text d.targetId),
    ("tenant_id", text d.tenantId)]

/-- `queued_descriptor_sha256` of a normalized descriptor. -/
def descriptorSha256 (d : Descriptor) : String := C.sha256 (C.descriptorText d)

def authorizationMembers (a : Authorization) : Members where
  before := [("action_sha256", text a.actionSha256),
    ("admission_link_sha256", text a.admissionLinkSha256),
    ("agent_id", text a.agentId), ("attempt_id", text a.attemptId),
    ("authority_sha256", text a.authoritySha256), ("authorizer_key_id", text a.authorizerKeyId),
    ("context_id", text a.contextId), ("destination_id", text a.destinationId),
    ("domain", text "agentbridge.queued-authorization.v2"), ("expires_at", C.number a.expiresAt),
    ("fence_epoch", natText a.fenceEpoch), ("fence_owner", text a.fenceOwner),
    ("fence_scope", text a.fenceScope), ("fingerprint", text a.fingerprint),
    ("intent_sha256", text a.intentSha256), ("issued_at", C.number a.issuedAt),
    ("operation_id", text a.operationId), ("original_action_sha256", text a.originalActionSha256),
    ("owner_id", text a.ownerId), ("result_limit_bytes", natText a.resultLimitBytes)]
  signature := text a.signatureHex
  after := [("store_id", text a.storeId),
    ("target_configuration_sha256", text a.targetConfigurationSha256),
    ("target_id", text a.targetId), ("task_id", text a.taskId), ("tenant_id", text a.tenantId)]

def authorizationText (a : Authorization) : List Char := (C.authorizationMembers a).text

/-- `canonical_queued_authorization_payload`. -/
def authorizationPayload (a : Authorization) : List Char := (C.authorizationMembers a).payload

/-- `queued_authorization_sha256`. -/
def authorizationSha256 (a : Authorization) : String := C.sha256 (C.authorizationText a)

def resultText (r : DemoResult) : List Char :=
  object [] [("domain", text "agentbridge.demo-result.v1"), ("effect_id", text r.effectId),
    ("stored_bytes", natText r.storedBytes), ("stored_sha256", text r.storedSha256)]

def outcomeText : Outcome → List Char
  | .succeeded => text "succeeded"
  | .failed => text "failed"

def receiptMembers (r : Receipt) : Members where
  before := [("action_sha256", text r.actionSha256), ("agent_id", text r.agentId),
    ("attempt_id", text r.attemptId), ("authorization_sha256", text r.authorizationSha256),
    ("committed_at", C.number r.committedAt), ("destination_id", text r.destinationId),
    ("destination_key_id", text r.destinationKeyId),
    ("domain", text "agentbridge.queued-receipt.v2"),
    ("external_reference", text r.externalReference), ("fence_epoch", natText r.fenceEpoch),
    ("fingerprint", text r.fingerprint), ("operation_id", text r.operationId),
    ("outcome", outcomeText r.outcome), ("result_sha256", text r.resultSha256)]
  signature := text r.signatureHex
  after := [("target_id", text r.targetId), ("tenant_id", text r.tenantId)]

def receiptText (r : Receipt) : List Char := (C.receiptMembers r).text

/-- `canonical_queued_receipt_payload`. -/
def receiptPayload (r : Receipt) : List Char := (C.receiptMembers r).payload

/-- The members of a readback; the destination's key and signature are not copied. -/
def readbackMembers (p : Attestation) : Members where
  before := [("action_sha256", text p.receipt.actionSha256), ("agent_id", text p.receipt.agentId),
    ("attempt_id", text p.receipt.attemptId),
    ("authorization_sha256", text p.receipt.authorizationSha256),
    ("committed_at", C.number p.receipt.committedAt),
    ("destination_id", text p.receipt.destinationId),
    ("destination_receipt_sha256", text p.destinationReceiptSha256),
    ("domain", text "agentbridge.queued-readback.v2"),
    ("external_reference", text p.receipt.externalReference),
    ("fence_epoch", natText p.receipt.fenceEpoch), ("fingerprint", text p.receipt.fingerprint),
    ("observed_at", C.number p.observedAt), ("observer_key_id", text p.observerKeyId),
    ("operation_id", text p.receipt.operationId), ("outcome", outcomeText p.receipt.outcome),
    ("result_sha256", text p.receipt.resultSha256)]
  signature := text p.signatureHex
  after := [("source", text "queued-sqlite:read-only-authoritative-sql-v2"),
    ("source_evidence_sha256", text p.sourceEvidenceSha256),
    ("target_id", text p.receipt.targetId), ("tenant_id", text p.receipt.tenantId)]

def readbackText (p : Attestation) : List Char := (C.readbackMembers p).text

/-- `canonical_queued_readback_payload`. -/
def readbackPayload (p : Attestation) : List Char := (C.readbackMembers p).payload

/-- `queued_result_envelope_bytes`. -/
def envelopeText (a : Authorization) (e : Evidence) : List Char :=
  object [] [("authorization", C.authorizationText a),
    ("destination_receipt", C.receiptText e.destinationReceipt),
    ("readback_attestation", C.readbackText e.readbackAttestation),
    ("result", resultText e.result)]

/-- The hexadecimal digits of the bytes of an ASCII text. -/
def hexText (cs : List Char) : List Char :=
  '"' :: (cs.flatMap fun c => [hexDigit (c.toNat / 16), hexDigit (c.toNat % 16)]) ++ ['"']

/-- `queued_source_evidence_sha256`. -/
def sourceEvidenceSha256 (a : Authorization) (action : String) (result : DemoResult)
    (receipt : Receipt) : String :=
  C.sha256 (object [] [("action_hex", hexText action.toList),
    ("authorization", C.authorizationText a), ("destination_receipt", C.receiptText receipt),
    ("result", resultText result)])

end Codec

/-! ### The demonstration action -/

/-- What stands before the value. -/
def demoHead : List Char :=
  "\x7b\"method\":\"tools/call\",\"params\":\x7b\"arguments\":\x7b\"value\":\"".toList

/-- What stands after it. -/
def demoTail : List Char := "\"\x7d,\"name\":\"write\"\x7d\x7d".toList

/-- The canonical text of the action that writes a value. -/
def demoText (value : String) : List Char :=
  demoHead ++ (escape (PyString.ofString value).codes ++ demoTail)

/-- The bounds of `canonical_demo_action`. -/
def isDemoValue (value : String) : Bool :=
  value.utf8ByteSize ≤ 1024 && (demoText value).length ≤ 4096

/-- `parse_demo_action`: the value of an action that is its own canonical text. -/
def demoValue (action : String) : Option String := do
  let rest ← expect demoHead action.toList
  let (codes, _) ← PyString.readString rest
  let value := String.ofList (codes.codes.map Char.ofNat)
  if isDemoValue value && demoText value == action.toList then some value else none

theorem ofList_codes (s : String) :
    String.ofList ((PyString.ofString s).codes.map Char.ofNat) = s := by
  have hcodes : (PyString.ofString s).codes.map Char.ofNat = s.toList := by
    show (s.toList.map Char.toNat).map Char.ofNat = _
    rw [map_map]
    conv_rhs => rw [← map_id s.toList]
    congr 1
    funext c
    exact Char.ofNat_toNat c
  rw [hcodes, String.ofList_toList]

variable {value : String}

/-- **A canonical action is read back.** -/
theorem demoValue_demoText (h : isDemoValue value = true) :
    demoValue (String.ofList (demoText value)) = some value := by
  have htail : demoTail = '"' :: demoTail.drop 1 := by decide
  have hread : PyString.readString (escape (PyString.ofString value).codes ++ demoTail) =
      some (.ofString value, demoTail.drop 1) := by
    rw [htail, PyString.readString_escape,
      PyString.norm_of_isEncodable (PyString.isEncodable_ofString value)]
    rfl
  unfold demoValue
  rw [String.toList_ofList, demoText, expect_append]
  simp only [Option.bind_eq_bind, Option.bind_some, hread, ofList_codes]
  rw [if_pos]
  rw [h]
  exact beq_self_eq_true _

theorem isDemoValue_of_demoValue {action : String} (h : demoValue action = some value) :
    isDemoValue value = true ∧ action.toList = demoText value := by
  simp only [demoValue, Option.bind_eq_bind, Option.bind_eq_some_iff] at h
  obtain ⟨rest, -, ⟨codes, tail⟩, -, h⟩ := h
  split at h
  case isTrue hvalid =>
    simp only [Bool.and_eq_true, beq_iff_eq] at hvalid
    rw [← Option.some.inj h]
    exact ⟨hvalid.1, hvalid.2.symm⟩
  case isFalse => cases h

theorem utf8ByteSize_of_demoValue {action : String} (h : demoValue action = some value) :
    1 ≤ action.utf8ByteSize ∧ action.utf8ByteSize ≤ 4096 := by
  obtain ⟨hvalue, htext⟩ := isDemoValue_of_demoValue h
  have hhead : ∀ c ∈ demoHead, c.toNat < 128 := forall_mem_of_all (by decide)
  have htail : ∀ c ∈ demoTail, c.toNat < 128 := forall_mem_of_all (by decide)
  have hascii : ∀ c ∈ action.toList, c.toNat < 128 := by
    rw [htext, demoText]
    intro c hc
    rcases mem_append.mp hc with hc | hc
    · exact hhead c hc
    · rcases mem_append.mp hc with hc | hc
      · exact escape_ascii _ c hc
      · exact htail c hc
  have hlength : demoHead.length ≤ (demoText value).length := by
    rw [demoText, length_append]
    omega
  have hpos : 1 ≤ demoHead.length := by decide
  simp only [isDemoValue, Bool.and_eq_true, decide_eq_true_eq] at hvalue
  rw [utf8ByteSize_of_ascii hascii, ← String.length_toList, htext]
  omega

/-! ### Lengths -/

namespace Codec

variable (C : Codec)

theorem length_number {t : Time} (h : isSeconds t = true) : (C.number t).length ≤ 24 :=
  C.number_length t h

theorem length_natText_le {n k : ℕ} (h : n < 10 ^ k) (hk : 0 < k) : (natText n).length ≤ k :=
  (Nat.length_toDigits_le_iff (by omega) hk).mpr h

theorem length_sha256 (cs : List Char) : (text (C.sha256 cs)).length = 66 :=
  length_text_of_isLowerHex (C.sha256_hex cs)

/-- The names of the documents have fixed lengths. -/
theorem frame_authorizationMembers (a : Authorization) :
    (C.authorizationMembers a).frame = 429 := by
  simp only [Members.frame, authorizationMembers, map_cons, map_nil, cons_append,
    nil_append]
  decide +kernel

theorem frame_receiptMembers (r : Receipt) : (C.receiptMembers r).frame = 273 := by
  simp only [Members.frame, receiptMembers, map_cons, map_nil, cons_append,
    nil_append]
  decide +kernel

theorem frame_readbackMembers (p : Attestation) : (C.readbackMembers p).frame = 351 := by
  simp only [Members.frame, readbackMembers, map_cons, map_nil, cons_append,
    nil_append]
  decide +kernel

theorem length_resultText (r : DemoResult) : (resultText r).length =
    (text r.effectId).length + (natText r.storedBytes).length + (text r.storedSha256).length +
      85 := by
  have hframe : frame ["domain", "effect_id", "stored_bytes", "stored_sha256"] = 57 := by
    decide +kernel
  have hdomain : (text "agentbridge.demo-result.v1").length = 28 := by decide +kernel
  rw [resultText, length_object (by simp)]
  simp only [map_cons, map_nil, hframe, valueSize_cons, valueSize_nil, hdomain]
  omega

theorem length_envelopeText (a : Authorization) (e : Evidence) : (C.envelopeText a e).length =
    (C.authorizationText a).length + (C.receiptText e.destinationReceipt).length +
      (C.readbackText e.readbackAttestation).length + (resultText e.result).length + 75 := by
  have hframe : frame ["authorization", "destination_receipt", "readback_attestation", "result"] =
      75 := by
    decide +kernel
  rw [envelopeText, length_object (by simp)]
  simp only [map_cons, map_nil, hframe, valueSize_cons, valueSize_nil]
  omega

end Codec

end Queued

end AgentBridge
