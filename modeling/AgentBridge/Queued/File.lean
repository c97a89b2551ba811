import AgentBridge.Queued.Attempts

/-!
# The destination's file

The destination's file holds each effect as the texts of its documents, with the columns that
make it searchable. Any number of targets may work on the file: each is opened with the descriptor
the file is bound to, takes fences, and commits effects.

* `DestinationFile.Grows.of_reachable` : **bindings and rows are never changed**.
* `commitQueued_of_acceptable` : **an acceptable authorization commits under its fence**; no byte
  limit and no constraint of the table can refuse it.
* `DestinationFile.Refines.commitQueued` : the file commits what the destinations commit.
-/

namespace AgentBridge.Queued

open JsonText List

/-! ### The file -/

/-- A row of `ab_queued_effects_v2`. -/
structure EffectRow where
  tenantId : String
  agentId : String
  operationId : String
  authorizationSha256 : String
  fingerprint : String
  attemptId : String
  actionSha256 : String
  actionBytes : String
  authorizationJson : List Char
  resultJson : List Char
  resultSha256 : String
  receiptJson : List Char
  receiptSha256 : String
  effectId : String
  committedAt : Time
  fenceScope : String
  fenceOwner : String
  fenceEpoch : ℕ
  deriving DecidableEq, Repr

namespace EffectRow

/-- The primary key. -/
def key (row : EffectRow) : String × String × String := (row.tenantId, row.agentId, row.operationId)

/-- The columns other than the four texts. -/
def columns (row : EffectRow) : EffectRow :=
  { row with actionBytes := "", authorizationJson := [], resultJson := [], receiptJson := [] }

/-- The texts are within the limits of the observer, which are those of the table. -/
def isBounded (row : EffectRow) : Bool :=
  let lengths := [(row.actionBytes.utf8ByteSize, 4096), (row.authorizationJson.length, 8192),
    (row.resultJson.length, 512), (row.receiptJson.length, 16384)]
  lengths.all fun (size, limit) => decide (1 ≤ size) && decide (size ≤ limit)

/-- The `CHECK` constraints of the table. -/
def isChecked (row : EffectRow) : Bool :=
  [row.tenantId, row.agentId, row.operationId, row.attemptId, row.fenceScope,
      row.fenceOwner].all (fun s => decide (1 ≤ s.length) && decide (s.length ≤ 128)) &&
    [row.authorizationSha256, row.fingerprint, row.actionSha256, row.resultSha256,
      row.receiptSha256].all (fun s => s.length == 64) &&
    row.effectId.length == 88 && isSeconds row.committedAt && decide (1 ≤ row.fenceEpoch) &&
    row.isBounded

end EffectRow

/-- A destination's SQLite file. -/
structure DestinationFile where
  path : String
  /-- `descriptor_json` and `descriptor_sha256` of the binding; without it the file is empty. -/
  binding : Option (List Char × String) := none
  fences : Table String Fence := ∅
  effects : List EffectRow := []

/-- The receipt of an action, signed. -/
def Codec.signedReceipt (C : Codec) (sign : List Char → String) (a : Authorization)
    (d : Descriptor) (result : DemoResult) (committedAt : Time) : Receipt :=
  let unsigned := C.receiptFor a d result committedAt
  { unsigned with signatureHex := sign (C.receiptPayload unsigned) }

namespace DestinationFile

variable (C : Codec) (f : DestinationFile)

/-- `_qualify_queued_destination`. -/
def qualify (d : Descriptor) : Except Fault Unit :=
  match f.binding with
  | none => throw (.valueError "partial, unqualified or unexpected queued destination schema")
  | some binding =>
    require (binding == (C.descriptorText d, C.descriptorSha256 d))
      (.valueError "queued destination binding is missing, changed or unsupported")

/-- A target is opened on the file: an empty one is bound to its descriptor. -/
def initializeQueued (d : Descriptor) : Except Fault DestinationFile := do
  let d ← C.normalizeQueuedDescriptor d
  require (C.resolve f.path == C.resolve d.path)
    (.valueError "queued descriptor does not bind this exact destination file")
  let f := { f with binding := f.binding.or (some (C.descriptorText d, C.descriptorSha256 d)) }
  f.qualify C d
  return f

/-- `acquire`. -/
def acquire (scope owner : String) (ttlSeconds : ℕ) (now : Time) :
    Except Fault (ℕ × DestinationFile) := do
  require ([scope, owner].all fun s => decide (1 ≤ s.length) && decide (s.length ≤ 128))
    (.valueError "bounded scope and owner required")
  require (decide (1 ≤ ttlSeconds) && decide (ttlSeconds ≤ 3600))
    (.valueError "bounded integer TTL required")
  require f.binding.isSome (.runtimeError "no such table: ab_destination_fences")
  let row := f.fences.lookup scope
  require (row.all fun fence => decide (fence.expiresSeconds ≤ now))
    (.runtimeError "an authoritative destination owner is already live")
  let epoch := Destinations.nextEpoch row
  require (decide (epoch < 2 ^ 63))
    (.runtimeError "Python int too large to convert to SQLite INTEGER")
  return (epoch, { f with fences := f.fences.insert scope ⟨owner, epoch, now + ttlSeconds⟩ })

/-- The fence is the one the authorization was issued for. -/
def holdsFence (fence : Fence) (a : Authorization) (now : Time) : Bool :=
  fence.owner == a.fenceOwner && fence.epoch == a.fenceEpoch &&
    decide (now < fence.expiresSeconds) && decide (a.expiresAt ≤ fence.expiresSeconds)

def isDuplicate (a : Authorization) : Bool :=
  f.effects.any fun row => row.tenantId == a.tenantId &&
    ((row.agentId == a.agentId && row.operationId == a.operationId) ||
      row.attemptId == a.attemptId)

def rowFor (a : Authorization) (action : String) (result : DemoResult) (r : Receipt) :
    EffectRow where
  tenantId := a.tenantId
  agentId := a.agentId
  operationId := a.operationId
  authorizationSha256 := C.authorizationSha256 a
  fingerprint := a.fingerprint
  attemptId := a.attemptId
  actionSha256 := a.actionSha256
  actionBytes := action
  authorizationJson := C.authorizationText a
  resultJson := Codec.resultText result
  resultSha256 := r.resultSha256
  receiptJson := C.receiptText r
  receiptSha256 := C.sha256 (C.receiptText r)
  effectId := result.effectId
  committedAt := r.committedAt
  fenceScope := a.fenceScope
  fenceOwner := a.fenceOwner
  fenceEpoch := a.fenceEpoch

/-- `commit_queued` of a target with the descriptor `d`; the clock is read before and after the
receipt is signed. -/
def commitQueued (sign : List Char → String) (d : Descriptor) (a : Authorization)
    (action : String) (first second : Time) :
    Except Fault ((DemoResult × Receipt) × DestinationFile) := do
  let _ ← C.verifyQueuedAuthorization a d action none
  f.qualify C d
  let missing : Fault := .runtimeError "missing authoritative queued destination fence"
  let fence ← (f.fences.lookup a.fenceScope).elim (throw missing) pure
  let digest ← C.verifyQueuedAuthorization a d action (some first)
  require (holdsFence fence a first)
    (.runtimeError "stale, expired or unauthorized queued destination fence")
  require (decide (resultEnvelopeLimitBytes ≤ a.resultLimitBytes))
    (.valueError "immutable result allowance cannot hold bounded queued evidence")
  require (!f.isDuplicate a)
    (.runtimeError "queued operation or attempt already executed; no replay")
  let malformed : Fault := .valueError "bounded canonical action bytes required"
  let value ← (demoValue action).elim (throw malformed) pure
  let result := C.demoResult value digest
  let receipt := C.signedReceipt sign a d result first
  require (isLowerHex 128 receipt.signatureHex) (.valueError "destination signature invalid")
  let _ ← C.verifyQueuedDestinationReceipt receipt a action d result
  -- the target holds the write lock, so the fence is still the one that was read
  require (holdsFence fence a second)
    (.runtimeError "queued destination fence expired or changed while signing")
  let _ ← C.verifyQueuedAuthorization a d action (some second)
  let row := rowFor C a action result receipt
  require row.isChecked (.integrityError "CHECK constraint failed")
  return ((result, receipt), { f with effects := f.effects ++ [row] })

/-- What a target does on the file. -/
inductive Action
  | provision (d : Descriptor)
  | acquire (scope owner : String) (ttlSeconds : ℕ) (now : Time)
  | commit (sign : List Char → String) (d : Descriptor) (a : Authorization) (action : String)
      (first second : Time)

/-- One call; a refused one is rolled back. -/
def exec (f : DestinationFile) : Action → Except Fault DestinationFile
  | .provision d => f.initializeQueued C d
  | .acquire scope owner ttl now => do
    let (_, f) ← f.acquire scope owner ttl now
    return f
  | .commit sign d a action first second => do
    let (_, f) ← f.commitQueued C sign d a action first second
    return f

/-- Any targets on one file. -/
def system : LTS DestinationFile Action := LTS.ofExec (exec C)

def find (a : Authorization) : Option EffectRow :=
  f.effects.find? fun row => row.key == (a.tenantId, a.agentId, a.operationId)

end DestinationFile

/-! ### What a commit leaves -/

theorem elim_eq_ok {α : Type} {o : Option α} {e : Fault} {x : α} :
    (o.elim (throw e) pure : Except Fault α) = .ok x ↔ o = some x := by
  cases o with
  | none => simp [throw, throwThe, MonadExceptOf.throw]
  | some y => simp [pure, Except.pure]

namespace DestinationFile

variable {C : Codec} {f f' : DestinationFile} {d : Descriptor} {a : Authorization}
  {action : String} {result : DemoResult} {r : Receipt}

theorem qualify_eq_ok : f.qualify C d = .ok () ↔
    f.binding = some (C.descriptorText d, C.descriptorSha256 d) := by
  unfold qualify
  cases f.binding with
  | none => simp [throw, throwThe, MonadExceptOf.throw]
  | some binding => simp only [require_eq_ok, beq_iff_eq, Option.some.injEq]

/-- What a commit found and did. -/
structure Commit (C : Codec) (f : DestinationFile) (d : Descriptor) (a : Authorization)
    (action : String) (result : DemoResult) (r : Receipt) (f' : DestinationFile) : Prop where
  bound : f.binding = some (C.descriptorText d, C.descriptorSha256 d)
  limit : resultEnvelopeLimitBytes ≤ a.resultLimitBytes
  fresh : f.isDuplicate a = false
  acceptable : C.Acceptable a d action
  receipted : Codec.Receipted C r a action d result
  checked : (rowFor C a action result r).isChecked = true
  appended : f' = { f with effects := f.effects ++ [rowFor C a action result r] }

theorem Commit.of_commitQueued (hd : C.IsNormal d) {sign : List Char → String}
    {first second : Time}
    (h : f.commitQueued C sign d a action first second = .ok ((result, r), f')) :
    Commit C f d a action result r f' := by
  simp only [commitQueued, Except.bind_eq_ok, require_eq_ok, Except.pure_eq_ok, elim_eq_ok,
    Prod.mk.injEq, decide_eq_true_eq, Bool.not_eq_true'] at h
  obtain ⟨-, -, _, hbound, fence, -, digest, hverify, -, -, -, hlimit, -, hfresh, value, hvalue,
    -, hsign, _, hreceipt, -, -, -, -, -, hchecked, ⟨rfl, rfl⟩, rfl⟩ := h
  obtain ⟨hok, hreceipted, -⟩ := (Codec.verifyQueuedDestinationReceipt_eq_ok hd).mp hreceipt
  exact ⟨qualify_eq_ok.mp hbound, hlimit, hfresh, hok, hreceipted, hchecked, rfl⟩

theorem Commit.find (h : Commit C f d a action result r f') :
    f'.find a = some (rowFor C a action result r) := by
  have hnone : f.find a = none := by
    have hfresh := h.fresh
    simp only [isDuplicate, any_eq_false, Bool.and_eq_true, Bool.or_eq_true, beq_iff_eq,
      not_and, not_or] at hfresh
    simp only [DestinationFile.find, find?_eq_none, beq_iff_eq, EffectRow.key, Prod.mk.injEq,
      not_and]
    intro row hrow htenant hagent
    exact (hfresh row hrow htenant).1 hagent
  have hkey : ((rowFor C a action result r).key == (a.tenantId, a.agentId, a.operationId)) = true :=
    beq_self_eq_true _
  rw [h.appended, DestinationFile.find, find?_append]
  rw [DestinationFile.find] at hnone
  rw [hnone, find?_cons, hkey]
  rfl

/-- A file keeps its binding and its rows. -/
def Grows (f f' : DestinationFile) : Prop :=
  (∀ b, f.binding = some b → f'.binding = some b) ∧ ∃ rows, f'.effects = f.effects ++ rows

theorem Grows.refl (f : DestinationFile) : Grows f f := ⟨fun _ h => h, [], by simp⟩

theorem Grows.trans {f₁ f₂ f₃ : DestinationFile} (h : Grows f₁ f₂) (h' : Grows f₂ f₃) :
    Grows f₁ f₃ := by
  obtain ⟨hb, rows, hrows⟩ := h
  obtain ⟨hb', rows', hrows'⟩ := h'
  exact ⟨fun b h => hb' b (hb b h), rows ++ rows', by rw [hrows', hrows, append_assoc]⟩

/-- **No call changes a binding or a row.** -/
theorem Grows.of_step {l : Action} (h : (system C).step f l f') : Grows f f' := by
  change exec C f l = .ok f' at h
  cases l with
  | provision d =>
    simp only [exec, initializeQueued, Except.bind_eq_ok, Except.pure_eq_ok] at h
    obtain ⟨d, -, -, -, -, -, rfl⟩ := h
    refine ⟨fun b hb => ?_, [], by simp⟩
    show f.binding.or _ = some b
    rw [hb]
    rfl
  | acquire scope owner ttl now =>
    simp only [exec, acquire, Except.bind_eq_ok, Except.pure_eq_ok] at h
    obtain ⟨_, ⟨-, -, -, -, -, -, -, -, -, -, rfl⟩, rfl⟩ := h
    exact ⟨fun _ h => h, [], by simp⟩
  | commit sign d a action first second =>
    simp only [exec, commitQueued, Except.bind_eq_ok, Except.pure_eq_ok] at h
    obtain ⟨_, ⟨-, -, -, -, fence, -, digest, -, -, -, -, -, -, -, value, -, -, -, -, -, -, -, -, -,
      -, -, rfl⟩, rfl⟩ := h
    exact ⟨fun _ h => h, _, rfl⟩

theorem Grows.of_reachable (h : (system C).Reachable f f') : Grows f f' :=
  h.relate Grows.refl (fun _ _ _ h₁ h₂ => h₁.trans h₂) fun _ _ _ hstep => Grows.of_step hstep

/-- A row once found is found. -/
theorem Grows.find {row : EffectRow} (h : Grows f f') (hrow : f.find a = some row) :
    f'.find a = some row := by
  obtain ⟨-, rows, hrows⟩ := h
  rw [DestinationFile.find] at hrow
  rw [DestinationFile.find, hrows, find?_append, hrow]
  rfl

end DestinationFile

/-! ### Nothing else refuses -/

section Commit

variable {C : Codec} {d : Descriptor} {a : Authorization} {action : String} {result : DemoResult}
  {r : Receipt}

theorem Codec.Receipted.eq (h : Codec.Receipted C r a action d result) :
    r = { C.receiptFor a d result r.committedAt with signatureHex := r.signatureHex } :=
  congrArg (fun x : Receipt => { x with signatureHex := r.signatureHex }) h.receipt

/-- An identifier has at most 128 characters, which are escaped to at most twelve each. -/
theorem length_text_of_isQueuedIdentifier {s : String} (h : isQueuedIdentifier s = true) :
    (text s).length ≤ 1538 := by
  have hle := length_text_le s
  simp only [isQueuedIdentifier, Bool.and_eq_true, decide_eq_true_eq] at h
  omega

/-- The two keys of a destination. -/
theorem keys_of_isNormal (hd : C.IsNormal d) :
    (isQueuedIdentifier d.destinationKeyId = true ∧ isQueuedIdentifier d.observerKeyId = true) ∧
      isLowerHex 64 d.destinationPublicKeyHex = true ∧
      isLowerHex 64 d.observerPublicKeyHex = true := by
  simp only [Codec.IsNormal, Codec.normalizeQueuedDescriptor, Except.bind_eq_ok, require_eq_ok,
    all_cons, all_nil, Bool.and_eq_true] at hd
  obtain ⟨-, -, -, ⟨-, -, -, -, hname₁, hname₂, -⟩, -, ⟨-, hhex₁, hhex₂, -⟩, -⟩ := hd
  exact ⟨⟨hname₁, hname₂⟩, hhex₁, hhex₂⟩

theorem effectId_isWord {digest : String} (h : isLowerHex 64 digest = true) :
    IsWord ("sqlite-queued-effect-v2:" ++ digest) ∧
      ("sqlite-queued-effect-v2:" ++ digest).length = 88 := by
  have hhead : ∀ c ∈ "sqlite-queued-effect-v2:".toList,
      isPlain c = true ∧ isSpace c = false ∧ c ≠ '\x00' :=
    forall_mem_of_all (by decide)
  have hlength : "sqlite-queued-effect-v2:".length = 24 := by decide
  refine ⟨fun c hc => ?_, ?_⟩
  · rw [String.toList_append] at hc
    rcases mem_append.mp hc with hc | hc
    · exact hhead c hc
    · exact isWord_of_isLowerHex h c hc
  · rw [String.length_append, length_of_isLowerHex h, hlength]

/-- The lengths of what a receipt and a readback copy from an authorization. -/
structure Short (C : Codec) (a : Authorization) (d : Descriptor) : Prop where
  names : [a.tenantId, a.agentId, a.targetId, a.destinationId, a.operationId, a.attemptId,
    d.destinationKeyId, d.observerKeyId].Forall fun name => (text name).length ≤ 1538
  fingerprint : (text a.fingerprint).length = 66
  actionSha256 : (text a.actionSha256).length = 66
  fenceEpoch : (natText a.fenceEpoch).length ≤ 19
  effectId : (text ("sqlite-queued-effect-v2:" ++ C.authorizationSha256 a)).length = 90

theorem Short.of_acceptable (hd : C.IsNormal d) (hok : C.Acceptable a d action) :
    Short C a d := by
  have hids := hok.identifiers
  simp only [Authorization.identifiers, all_cons, all_nil, Bool.and_true,
    Bool.and_eq_true] at hids
  obtain ⟨htenant, -, -, hagent, -, -, htarget, hdestination, hoperation, hattempt, -⟩ := hids
  have hdigests := hok.digests
  simp only [Authorization.digests, all_cons, all_nil, Bool.and_true,
    Bool.and_eq_true] at hdigests
  obtain ⟨-, -, -, hfingerprint, -, -, haction⟩ := hdigests
  obtain ⟨⟨hdestinationKey, hobserverKey⟩, -⟩ := keys_of_isNormal hd
  constructor
  case names =>
    refine Forall.imp (fun _ => length_text_of_isQueuedIdentifier) ?_
    exact ⟨htenant, hagent, htarget, hdestination, hoperation, hattempt, hdestinationKey,
      hobserverKey⟩
  case fingerprint => exact length_text_of_isLowerHex hfingerprint
  case actionSha256 => exact length_text_of_isLowerHex haction
  case fenceEpoch =>
    exact Codec.length_natText_le (by have := hok.epoch.2; omega) (by omega)
  case effectId =>
    obtain ⟨hword, hlength⟩ := effectId_isWord (C.sha256_hex (C.authorizationText a))
    exact (length_text_of_isWord hword).trans (congrArg (· + 2) hlength)

/-- A receipt is within its limit: its six names and its key take at most 1538 bytes each. -/
theorem length_receiptText_le (hd : C.IsNormal d) (hok : C.Acceptable a d action)
    (heffect : result.effectId = "sqlite-queued-effect-v2:" ++ C.authorizationSha256 a)
    {committedAt : Time} (hseconds : isSeconds committedAt = true) {signatureHex : String}
    (hsign : isLowerHex 128 signatureHex = true) :
    (C.receiptText { C.receiptFor a d result committedAt with signatureHex }).length ≤ 16384 := by
  obtain ⟨⟨htenant, hagent, htarget, hdestination, hoperation, hattempt, hkey, -⟩, hfingerprint,
    haction, hepoch, heffectId⟩ := Short.of_acceptable hd hok
  have hsignature := length_text_of_isLowerHex hsign
  have hcommitted := C.length_number hseconds
  have hdomain : (text "agentbridge.queued-receipt.v2").length = 31 := by decide +kernel
  have houtcome : (Codec.outcomeText .succeeded).length = 11 := by decide +kernel
  have hauthorization : (text (C.authorizationSha256 a)).length = 66 := C.length_sha256 _
  have hresult := C.length_sha256 (Codec.resultText result)
  rw [← heffect] at heffectId
  rw [Codec.receiptText, Members.length_text, C.frame_receiptMembers]
  simp only [Codec.receiptMembers, Codec.receiptFor, valueSize_cons, valueSize_nil]
  omega

/-- A result takes few bytes. -/
theorem length_resultText_le {value : String} (hvalue : demoValue action = some value) :
    (Codec.resultText (C.demoResult value (C.authorizationSha256 a))).length ≤ 512 := by
  have hbytes : value.utf8ByteSize ≤ 1024 := by
    have hbounded := (isDemoValue_of_demoValue hvalue).1
    simp only [isDemoValue, Bool.and_eq_true, decide_eq_true_eq] at hbounded
    exact hbounded.1
  have hstored : (natText value.utf8ByteSize).length ≤ 4 :=
    Codec.length_natText_le (by omega) (by omega)
  have hsha := C.length_sha256 value.toList
  obtain ⟨hword, hlength⟩ := effectId_isWord (C.sha256_hex (C.authorizationText a))
  have heffect : (text ("sqlite-queued-effect-v2:" ++ C.authorizationSha256 a)).length = 90 :=
    (length_text_of_isWord hword).trans (congrArg (· + 2) hlength)
  rw [Codec.length_resultText]
  simp only [Codec.demoResult]
  omega

/-- The row of a verified receipt meets the constraints of the table. -/
theorem rowFor_isChecked (hok : C.Acceptable a d action)
    (hr : Codec.Receipted C r a action d result) :
    (DestinationFile.rowFor C a action result r).isChecked = true := by
  obtain ⟨value, hvalue, hresult, hsize⟩ := hr.effect
  have hids := hok.identifiers
  have hdigests := hok.digests
  simp only [Authorization.identifiers, Authorization.digests, all_cons, all_nil,
    Bool.and_true, Bool.and_eq_true] at hids hdigests
  obtain ⟨htenant, -, -, hagent, -, -, -, -, hoperation, hattempt, hscope, howner, -⟩ := hids
  obtain ⟨-, -, -, hfingerprint, -, -, haction⟩ := hdigests
  have hlength : ∀ {s}, isQueuedIdentifier s = true → 1 ≤ s.length ∧ s.length ≤ 128 := by
    intro s hs
    simp only [isQueuedIdentifier, Bool.and_eq_true, decide_eq_true_eq] at hs
    exact hs.1.1.1
  have hresultSha : r.resultSha256 = C.sha256 (Codec.resultText result) :=
    congrArg Receipt.resultSha256 hr.receipt
  have hauthorizationText : 1 ≤ (C.authorizationText a).length := by
    rw [Codec.authorizationText, Members.length_text, C.frame_authorizationMembers]
    omega
  have hreceiptText : 1 ≤ (C.receiptText r).length := by
    rw [Codec.receiptText, Members.length_text, C.frame_receiptMembers]
    omega
  have hresultText : 1 ≤ (Codec.resultText result).length := by
    rw [Codec.length_resultText]
    omega
  have hreceiptSize := hr.size
  have haction' := utf8ByteSize_of_demoValue hvalue
  simp only [EffectRow.isChecked, EffectRow.isBounded, DestinationFile.rowFor, all_cons,
    all_nil, Bool.and_true, Bool.and_eq_true, decide_eq_true_eq, beq_iff_eq]
  refine ⟨⟨⟨⟨⟨⟨hlength htenant, hlength hagent, hlength hoperation, hlength hattempt,
    hlength hscope, hlength howner⟩, ?_, ?_, ?_, ?_, ?_⟩, ?_⟩, hr.committed.1⟩,
    decide_eq_true hok.epoch.1⟩,
    haction', ⟨hauthorizationText, hok.size⟩, ⟨hresultText, hsize⟩, hreceiptText, hr.size⟩
  · exact length_of_isLowerHex (C.sha256_hex _)
  · exact length_of_isLowerHex hfingerprint
  · exact length_of_isLowerHex haction
  · rw [hresultSha]
    exact length_of_isLowerHex (C.sha256_hex _)
  · exact length_of_isLowerHex (C.sha256_hex _)
  · rw [hresult]
    exact (effectId_isWord (C.sha256_hex _)).2

/-- A receipt that is signed in the window of an acceptable authorization is verified. -/
theorem receipted_of_acceptable (hd : C.IsNormal d) (hok : C.Acceptable a d action)
    {value : String} (hvalue : demoValue action = some value) {committedAt : Time}
    (hcommitted : isSeconds committedAt = true ∧ a.issuedAt ≤ committedAt ∧
      committedAt < a.expiresAt)
    {sign : List Char → String} (hsign : C.Signs d.destinationPublicKeyHex sign) :
    Codec.Receipted C
      (C.signedReceipt sign a d (C.demoResult value (C.authorizationSha256 a)) committedAt) a action
      d (C.demoResult value (C.authorizationSha256 a)) :=
  ⟨length_receiptText_le hd hok rfl hcommitted.1 (hsign.encoding _),
    ⟨value, hvalue, rfl, length_resultText_le hvalue⟩, rfl, hcommitted, hsign.encoding _,
    hsign.verifies _⟩

/-- **An acceptable authorization commits under its fence**: at the two times the destination reads
its clock nothing but the window and the fence can refuse it. -/
theorem commitQueued_of_acceptable (hd : C.IsNormal d) (hok : C.Acceptable a d action)
    {f : DestinationFile} {sign : List Char → String} {first second : Time} {fence : Fence}
    (hbound : f.binding = some (C.descriptorText d, C.descriptorSha256 d))
    (hfence : f.fences.lookup a.fenceScope = some fence)
    (hheld : ∀ t ∈ [first, second], isSeconds t = true ∧ a.issuedAt ≤ t ∧ t < a.expiresAt ∧
      DestinationFile.holdsFence fence a t = true)
    (hlimit : resultEnvelopeLimitBytes ≤ a.resultLimitBytes) (hfresh : f.isDuplicate a = false)
    (hsign : C.Signs d.destinationPublicKeyHex sign) :
    ∃ result r f', f.commitQueued C sign d a action first second = .ok ((result, r), f') ∧
      r.committedAt = first := by
  obtain ⟨value, hvalue⟩ := Option.isSome_iff_exists.mp hok.canonical
  obtain ⟨hseconds, hissued, hexpires, hheld₁⟩ := hheld first (by simp)
  obtain ⟨hseconds₂, hissued₂, hexpires₂, hheld₂⟩ := hheld second (by simp)
  let result := C.demoResult value (C.authorizationSha256 a)
  let r := C.signedReceipt sign a d result first
  have hr : Codec.Receipted C r a action d result :=
    receipted_of_acceptable hd hok hvalue ⟨hseconds, hissued, hexpires⟩ hsign
  have hverify : ∀ {now : Option Time},
      (∀ t ∈ now, isSeconds t = true ∧ a.issuedAt ≤ t ∧ t < a.expiresAt) →
      C.verifyQueuedAuthorization a d action now = .ok (C.authorizationSha256 a) :=
    fun hnow => (Codec.verifyQueuedAuthorization_eq_ok hd).mpr ⟨hok, hnow, rfl⟩
  have hreceipt := (Codec.verifyQueuedDestinationReceipt_eq_ok hd).mpr ⟨hok, hr, rfl⟩
  refine ⟨result, r,
    { f with effects := f.effects ++ [DestinationFile.rowFor C a action result r] }, ?_, rfl⟩
  simp only [DestinationFile.commitQueued, Except.bind_eq_ok, require_eq_ok, Except.pure_eq_ok,
    elim_eq_ok, Prod.mk.injEq, decide_eq_true_eq, Bool.not_eq_true']
  exact ⟨_, hverify (by simp), (), DestinationFile.qualify_eq_ok.mpr hbound, fence, hfence, _,
    hverify (by rintro _ ⟨rfl⟩; exact ⟨hseconds, hissued, hexpires⟩), (), hheld₁, (), hlimit, (),
    hfresh, value, hvalue, (), hsign.encoding _, _, hreceipt, (), hheld₂, _,
    hverify (by rintro _ ⟨rfl⟩; exact ⟨hseconds₂, hissued₂, hexpires₂⟩), (),
    rowFor_isChecked hok hr, ⟨rfl, rfl⟩, rfl⟩

end Commit

/-! ### One file of the destinations -/

/-- The file at the path of `d` is this part of the destinations. -/
structure DestinationFile.Refines (C : Codec) (d : Descriptor) (f : DestinationFile)
    (ds : Destinations) : Prop where
  binding : f.binding.isSome → ds.isBound d = true
  fences : ∀ scope, f.fences.lookup scope = ds.fences.lookup (d.path, scope)
  effects : f.effects = (ds.effects.filter (·.path == d.path)).map fun e =>
    rowFor C e.authorization e.actionBytes e.result e.receipt

namespace DestinationFile.Refines

variable {C : Codec} {k : Signers} {d : Descriptor} {f f' : DestinationFile} {ds : Destinations}
  {a : Authorization} {action : String} {result : DemoResult} {r : Receipt} {first second : Time}

theorem isDuplicate_eq (h : Refines C d f ds) (a : Authorization) :
    f.isDuplicate a = ds.isDuplicate d a := by
  simp only [isDuplicate, Destinations.isDuplicate, h.effects, any_map, any_filter,
    Function.comp_def, rowFor, Bool.and_assoc]

theorem holdsFence_eq (h : Refines C d f ds) (a : Authorization) (now : Time) :
    ds.holdsFence d a now =
      (f.fences.lookup a.fenceScope).any fun fence => holdsFence fence a now := by
  rw [h.fences]
  rfl

/-- **The file commits what the destinations commit.** -/
theorem commitQueued (h : Refines C d f ds) (hd : C.IsNormal d) (hk : k.Only C d)
    (hcommit : f.commitQueued C k.destination d a action first second = .ok ((result, r), f')) :
    ∃ ds', ds.commitQueued (C.contract k) d a action first second = .ok ds' ∧
      Refines C d f' ds' := by
  simp only [DestinationFile.commitQueued, Except.bind_eq_ok, require_eq_ok, Except.pure_eq_ok,
    elim_eq_ok, Prod.mk.injEq, decide_eq_true_eq, Bool.not_eq_true'] at hcommit
  obtain ⟨_, hany, _, hbound, fence, hfence, digest, hfirst, -, hheld₁, -, hlimit, -, hfresh,
    value, hvalue, -, -, _, hreceipt, -, hheld₂, _, hsecond, -, -, ⟨rfl, rfl⟩, rfl⟩ := hcommit
  have hopen : ds.initializeQueued d = .ok ds := by
    have hisBound := h.binding (by rw [qualify_eq_ok.mp hbound]; rfl)
    have hlookup : ds.bindings.lookup d.path = some d := beq_iff_eq.mp hisBound
    simp only [Destinations.initializeQueued, isNormal_of_isNormal hd, hlookup, hisBound]
    rfl
  refine ⟨{ ds with effects := ds.effects ++ [⟨d.path, a, action, C.demoResult value digest,
    C.signedReceipt k.destination a d (C.demoResult value digest) first⟩] }, ?_,
    h.binding, h.fences, ?_⟩
  · simp only [Destinations.commitQueued, Except.bind_eq_ok, require_eq_ok, Except.pure_eq_ok,
      hopen, Except.ok_bind, h.holdsFence_eq, ← h.isDuplicate_eq, hfence, Option.any_some,
      C.contract_demoResult k hvalue, decide_eq_true_eq, Bool.not_eq_true']
    exact ⟨_, verifyAuthorization_of_exact hd hk none hany, _,
      verifyAuthorization_of_exact hd hk _ hfirst, (), hheld₁, (), hlimit, (), hfresh, _,
      verifyReceipt_of_exact hd hk hreceipt, (), hheld₂, _,
      verifyAuthorization_of_exact hd hk _ hsecond, rfl⟩
  · simp only [h.effects, filter_append, map_append]
    simp

end DestinationFile.Refines

/-! ### A destination -/

/-- The sample destination, bound and with one fence. -/
def sampleFile : DestinationFile where
  path := sampleTarget.path
  binding := some (writerCodec.descriptorText sampleTarget, sampleHex)
  fences := (∅ : Table String Fence).insert sampleHex
    ⟨String.ofList (List.replicate 32 'a'), 1, 106⟩

def sampleAuthorization : Authorization where
  tenantId := "acme"
  storeId := "store-1"
  ownerId := "owner"
  taskId := "task-1"
  agentId := "bot"
  operationId := "operation-000001"
  admissionLinkSha256 := sampleHex
  authoritySha256 := sampleHex
  contextId := "context-1"
  intentSha256 := sampleHex
  fingerprint := sampleHex
  originalActionSha256 := sampleHex
  targetId := "t1"
  targetConfigurationSha256 := sampleHex
  destinationId := "dest-1"
  actionSha256 := sampleHex
  resultLimitBytes := 65536
  attemptId := String.ofList (List.replicate 32 'a')
  fenceScope := sampleHex
  fenceOwner := String.ofList (List.replicate 32 'a')
  fenceEpoch := 1
  issuedAt := 100
  expiresAt := 105
  authorizerKeyId := "key-a"
  signatureHex := String.ofList (List.replicate 128 'a')

theorem sampleAuthorization_digests :
    sampleAuthorization.digests.all (isLowerHex 64) = true := by
  simp only [Authorization.digests, sampleAuthorization, all_cons, all_nil,
    isLowerHex_sampleHex, Bool.and_true]

theorem sampleAuthorization_size :
    (writerCodec.authorizationText sampleAuthorization).length ≤ 8192 := by decide +kernel

theorem sampleAuthorization_acceptable :
    writerCodec.Acceptable sampleAuthorization sampleTarget (String.ofList (demoText "x")) where
  canonical := by
    rw [demoValue_demoText (by decide +kernel)]
    rfl
  size := sampleAuthorization_size
  identifiers := by decide +kernel
  digests := sampleAuthorization_digests
  agrees := by
    simp only [Codec.agrees, Bool.and_eq_true, beq_iff_eq]
    exact ⟨⟨⟨⟨⟨rfl, rfl⟩, rfl⟩, rfl⟩, rfl⟩, rfl⟩
  epoch := by decide
  allowance := by decide
  window := by decide +kernel
  encoding := writerSigners_signs.encoding []
  signature := rfl

theorem sampleFile_commit : ∃ result r f₁,
    sampleFile.commitQueued writerCodec writerSigners.destination sampleTarget sampleAuthorization
      (String.ofList (demoText "x")) 101 101 = .ok ((result, r), f₁) ∧ r.committedAt = 101 := by
  have hfence : sampleFile.fences.lookup sampleAuthorization.fenceScope =
      some ⟨String.ofList (List.replicate 32 'a'), 1, 106⟩ :=
    AList.lookup_insert _
  refine commitQueued_of_acceptable sampleTarget_registered.normal sampleAuthorization_acceptable
    rfl hfence ?_ (by decide) rfl ⟨writerSigners_signs.encoding, fun _ => rfl⟩
  intro t ht
  have ht : t = 101 := by
    simpa using ht
  subst ht
  exact ⟨by decide +kernel, by decide +kernel, by decide +kernel, by decide +kernel⟩

end AgentBridge.Queued
