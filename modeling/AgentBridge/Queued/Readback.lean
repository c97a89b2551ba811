import AgentBridge.Queued.File

/-!
# Reading back a committed effect

An observer reads the row of an effect through a connection of its own, loads the texts, judges
them again, and signs what it saw.

The observer reads its clock twice: the first reading is what it signs, the second is what its own
check of the readback uses. A signature that takes more than 300 seconds is therefore lost, though
it is correct.

* `committed_effect_provable` : **every committed effect can be read back, and what was read
  convinces a verifier from 30 seconds before to 300 seconds after the observation**.
-/

namespace AgentBridge.Queued

open JsonText Except

/-! ### The observer -/

/-- `json.loads` on the two documents of a row. -/
structure Decoder where
  receipt : List Char → Option Receipt
  result : List Char → Option DemoResult

/-- A `SandboxReadOnlyObserver`: what it was constructed with. -/
structure Observer where
  path : String
  destinationPublicKeyHex : String
  sign : List Char → String

namespace Observer

variable (C : Codec) (L : Decoder) (o : Observer)

/-- What the observer signs. -/
def proofFor (a : Authorization) (action : String) (d : Descriptor) (result : DemoResult)
    (r : Receipt) (observedAt : Time) : Attestation where
  receipt := r
  destinationReceiptSha256 := C.sha256 (C.receiptText r)
  observedAt := observedAt
  observerKeyId := d.observerKeyId
  sourceEvidenceSha256 := C.sourceEvidenceSha256 a action result r
  signatureHex := ""

def signedFor (a : Authorization) (action : String) (d : Descriptor) (result : DemoResult)
    (r : Receipt) (observedAt : Time) : Attestation :=
  let unsigned := proofFor C a action d result r observedAt
  { unsigned with signatureHex := o.sign (C.readbackPayload unsigned) }

/-- The part of `observe_queued` inside the transaction: the verified row. -/
def readQueued (f : DestinationFile) (a : Authorization) (action : String) (d : Descriptor)
    (digest : String) : Except Fault (DemoResult × Receipt) := do
  let untrusted : Fault := .runtimeError "authoritative queued state is unavailable or untrusted"
  let unknown : Fault := .runtimeError "no authoritative queued record; outcome unknown"
  (f.qualify C d).mapError fun _ => untrusted
  let row ← (f.find a).elim (throw unknown) pure
  require row.isBounded (.runtimeError "authoritative queued record exceeds bounds")
  let receipt ← (L.receipt row.receiptJson).elim (throw untrusted) pure
  let result ← (L.result row.resultJson).elim (throw untrusted) pure
  require (row.authorizationJson == C.authorizationText a && row.actionBytes == action &&
      row.authorizationSha256 == digest && row.receiptJson == C.receiptText receipt &&
      row.resultJson == Codec.resultText result)
    (.runtimeError "persisted queued authorization, action or encoding disagrees")
  let _ ← (C.verifyQueuedDestinationReceipt receipt a action d result).mapError fun _ => untrusted
  require (row.columns == (DestinationFile.rowFor C a action result receipt).columns)
    (.runtimeError "queued committed record and signed receipt disagree")
  return (result, receipt)

/-- `observe_queued`; `first` is the clock when the readback is made, `second` when it is
verified. Every error is an `ObservationUnavailable`. -/
def observeQueued (f : DestinationFile) (a : Authorization) (action : String) (d : Descriptor)
    (first second : Time) : Except Fault Evidence := do
  let untrusted : Fault := .runtimeError "authoritative queued state is unavailable or untrusted"
  let d ← (C.normalizeQueuedDescriptor d).mapError fun _ => untrusted
  require (C.resolve o.path == C.resolve d.path &&
      d.destinationPublicKeyHex == o.destinationPublicKeyHex)
    (.runtimeError "observer does not bind the configured queued destination")
  let digest ← (C.verifyQueuedAuthorization a d action none).mapError fun _ => untrusted
  let (result, receipt) ← readQueued C L f a action d digest
  let proof := o.signedFor C a action d result receipt ⌊first⌋
  require (isLowerHex 128 proof.signatureHex)
    (.runtimeError "queued observer signer did not issue a valid signature")
  let _ ← (C.verifyQueuedReadbackAttestation proof a action d result receipt ⌊second⌋).mapError
    fun _ => untrusted
  return ⟨result, receipt, proof⟩

end Observer

/-! ### The readback -/

section Readback

variable {C : Codec} {d : Descriptor} {a : Authorization} {action : String} {result : DemoResult}
  {r : Receipt}

variable {o : Observer} {t : Time}

/-- **A readback is within its limit**, for the same reason. -/
theorem length_readbackText_le (hd : C.IsNormal d) (hok : C.Acceptable a d action)
    (hr : Codec.Receipted C r a action d result) {observedAt : Time}
    (hseconds : isSeconds observedAt = true)
    (hsign : isLowerHex 128 (o.signedFor C a action d result r observedAt).signatureHex = true) :
    (C.readbackText (o.signedFor C a action d result r observedAt)).length ≤ 16384 := by
  obtain ⟨⟨htenant, hagent, htarget, hdestination, hoperation, hattempt, -, hkey⟩, hfingerprint,
    haction, hepoch, heffectId⟩ := Short.of_acceptable hd hok
  have hkey : (text d.observerKeyId).length ≤ 1538 := hkey
  have hsignature := length_text_of_isLowerHex hsign
  have hobserved := C.length_number hseconds
  have hcommitted := C.length_number hr.committed.1
  have hdomain : (text "agentbridge.queued-readback.v2").length = 32 := by decide +kernel
  have hsource : (text "queued-sqlite:read-only-authoritative-sql-v2").length = 46 := by
    decide +kernel
  have houtcome : (Codec.outcomeText .succeeded).length = 11 := by decide +kernel
  have hauthorization : (text (C.authorizationSha256 a)).length = 66 := C.length_sha256 _
  have hreceipt := C.length_sha256 (C.receiptText r)
  have hresultSha := C.length_sha256 (Codec.resultText result)
  have hevidence : (text (C.sourceEvidenceSha256 a action result r)).length = 66 :=
    C.length_sha256 _
  obtain ⟨value, -, hresult, -⟩ := hr.effect
  have heffect : result.effectId = "sqlite-queued-effect-v2:" ++ C.authorizationSha256 a := by
    rw [hresult]
    rfl
  rw [← heffect] at heffectId
  rw [Codec.readbackText, Members.length_text, C.frame_readbackMembers]
  rw [hr.eq] at hreceipt hevidence hcommitted hsignature ⊢
  simp only [Codec.readbackMembers, Observer.signedFor, Observer.proofFor, Codec.receiptFor,
    valueSize_cons, valueSize_nil] at hreceipt hevidence hcommitted hsignature ⊢
  omega

theorem isSeconds_floor (hrange : 1 ≤ t ∧ t < 253402300801) : isSeconds (⌊t⌋ : Time) = true := by
  have hlow : 1 ≤ ⌊t⌋ := Int.le_floor.mpr (by exact_mod_cast hrange.1)
  have hhigh : ⌊t⌋ < 253402300801 := Int.floor_lt.mpr (by exact_mod_cast hrange.2)
  simp only [isSeconds, Bool.and_eq_true, decide_eq_true_eq]
  exact ⟨by exact_mod_cast hlow, by exact_mod_cast (by omega : ⌊t⌋ ≤ 253402300800)⟩

/-- The observation is fresh from 30 seconds before to 300 seconds after it. -/
theorem isTimely_of_floor (hrange : 1 ≤ t ∧ t < 253402300801) {p : Attestation}
    (hobserved : p.observedAt = ⌊t⌋) (hcommitted : p.receipt.committedAt ≤ t) {now : ℤ}
    (hfrom : ⌊t⌋ - 30 ≤ now) (hto : now ≤ ⌊t⌋ + 300) : Codec.isTimely p now = true := by
  have hfloor := Int.lt_floor_add_one t
  simp only [Codec.isTimely, Bool.and_eq_true, decide_eq_true_eq, hobserved]
  refine ⟨⟨⟨isSeconds_floor hrange, ?_⟩, ?_⟩, ?_⟩
  · exact_mod_cast (by omega : now - 300 ≤ ⌊t⌋)
  · exact_mod_cast (by omega : ⌊t⌋ ≤ now + 30)
  · push_cast
    linarith

/-- The observer finds the committed row, and in it what was committed. -/
theorem readQueued_of_commit {L : Decoder} {f f₁ f₂ : DestinationFile} (hd : C.IsNormal d)
    (hc : DestinationFile.Commit C f d a action result r f₁)
    (hgrows : DestinationFile.Grows f₁ f₂)
    (hreceipt : L.receipt (C.receiptText r) = some r)
    (hresult : L.result (Codec.resultText result) = some result) :
    Observer.readQueued C L f₂ a action d (C.authorizationSha256 a) = .ok (result, r) := by
  have hbinding : f₁.binding = some (C.descriptorText d, C.descriptorSha256 d) := by
    rw [hc.appended]
    exact hc.bound
  have hqualified := DestinationFile.qualify_eq_ok.mpr (hgrows.1 _ hbinding)
  have hbounded : (DestinationFile.rowFor C a action result r).isBounded = true := by
    have hchecked := hc.checked
    simp only [EffectRow.isChecked, Bool.and_eq_true] at hchecked
    exact hchecked.2
  have hverify := (Codec.verifyQueuedDestinationReceipt_eq_ok hd).mpr
    ⟨hc.acceptable, hc.receipted, rfl⟩
  simp only [Observer.readQueued, bind_eq_ok, mapError_eq_ok, elim_eq_ok,
    require_eq_ok, Bool.and_eq_true, beq_iff_eq, pure_eq_ok]
  exact ⟨(), hqualified, _, hgrows.find hc.find, (), hbounded, r, hreceipt, result, hresult, (),
    ⟨⟨⟨⟨rfl, rfl⟩, rfl⟩, rfl⟩, rfl⟩, _, hverify, (), rfl, rfl⟩

/-- A signed readback is verified while it is fresh. -/
theorem verifyReadback_of_signedFor (hd : C.IsNormal d) (hok : C.Acceptable a d action)
    (hr : Codec.Receipted C r a action d result) (hsign : C.Signs d.observerPublicKeyHex o.sign)
    (hrange : 1 ≤ t ∧ t < 253402300801) (hclock : r.committedAt ≤ t) {now : ℤ}
    (hfrom : ⌊t⌋ - 30 ≤ now) (hto : now ≤ ⌊t⌋ + 300) :
    C.verifyQueuedReadbackAttestation (o.signedFor C a action d result r ⌊t⌋) a action d result r
      now = .ok (C.sha256 (C.readbackText (o.signedFor C a action d result r ⌊t⌋))) := by
  have htimely : Codec.isTimely (o.signedFor C a action d result r ⌊t⌋) now = true :=
    isTimely_of_floor hrange rfl hclock hfrom hto
  have hseconds := isSeconds_floor hrange
  have hmatches : C.matchesReceipt (o.signedFor C a action d result r ⌊t⌋) a action d result r =
      true := by
    simp only [Codec.matchesReceipt, Bool.and_eq_true, beq_iff_eq]
    exact ⟨⟨⟨rfl, rfl⟩, rfl⟩, rfl⟩
  exact (Codec.verifyQueuedReadbackAttestation_eq_ok hd).mpr ⟨⟨hok, hr⟩,
    length_readbackText_le hd hok hr hseconds (hsign.encoding _), hmatches, htimely,
    hsign.encoding _, hsign.verifies _, rfl⟩

section Evidence

variable (hd : C.IsNormal d) (hok : C.Acceptable a d action)
  (hr : Codec.Receipted C r a action d result)
  (hlimit : resultEnvelopeLimitBytes ≤ a.resultLimitBytes) {o : Observer}
  (hsign : C.Signs d.observerPublicKeyHex o.sign) {t : Time}
  (hrange : 1 ≤ t ∧ t < 253402300801)

include hd hok hr hlimit hsign hrange

/-- The four documents fit the envelope. -/
theorem length_envelopeText_le :
    (C.envelopeText a ⟨result, r, o.signedFor C a action d result r ⌊t⌋⟩).length ≤
      min a.resultLimitBytes resultEnvelopeLimitBytes := by
  have hreadback := length_readbackText_le hd hok hr (isSeconds_floor hrange) (hsign.encoding _)
  obtain ⟨-, -, -, hresultSize⟩ := hr.effect
  have hsize := hok.size
  have hreceiptSize := hr.size
  rw [min_eq_right hlimit, C.length_envelopeText, resultEnvelopeLimitBytes]
  dsimp only
  omega

/-- A verified receipt with a fresh readback convinces a verifier. -/
theorem verifyEvidence_of_signedFor (hclock : r.committedAt ≤ t) {now : ℤ}
    (hfrom : ⌊t⌋ - 30 ≤ now) (hto : now ≤ ⌊t⌋ + 300) :
    C.verifyQueuedActionEvidence a action d
      ⟨result, r, o.signedFor C a action d result r ⌊t⌋⟩ now =
        .ok (C.sha256 (C.receiptText r),
          C.sha256 (C.readbackText (o.signedFor C a action d result r ⌊t⌋))) := by
  have hreceipt := (Codec.verifyQueuedDestinationReceipt_eq_ok hd).mpr ⟨hok, hr, rfl⟩
  have hreadback := verifyReadback_of_signedFor hd hok hr hsign hrange hclock hfrom hto
  simp only [Codec.verifyQueuedActionEvidence, bind_eq_ok, require_eq_ok,
    decide_eq_true_eq, pure_eq_ok]
  exact ⟨_, hreceipt, _, hreadback, (), length_envelopeText_le hd hok hr hlimit hsign hrange, rfl⟩

end Evidence

/-- **Every committed effect can be proved and charged.** After any further calls on the file, an
observer whose clock is not behind the commit, and whose signature takes at most 300 seconds,
returns the result, the receipt and a readback; a verifier accepts them from 30 seconds before to
300 seconds after the observation, and they fit the envelope. -/
theorem committed_effect_provable {L : Decoder} {o : Observer} {f f₁ f₂ : DestinationFile}
    {sign : List Char → String} {first second t₁ t₂ : Time} (hd : C.IsNormal d)
    (hcommit : f.commitQueued C sign d a action first second = .ok ((result, r), f₁))
    (hrun : (DestinationFile.system C).Reachable f₁ f₂)
    (hreceipt : L.receipt (C.receiptText r) = some r)
    (hresult : L.result (Codec.resultText result) = some result)
    (hpath : C.resolve o.path = C.resolve d.path)
    (hkey : d.destinationPublicKeyHex = o.destinationPublicKeyHex)
    (hsign : C.Signs d.observerPublicKeyHex o.sign) (hclock : r.committedAt ≤ t₁)
    (hrange : 1 ≤ t₁ ∧ t₁ < 253402300801) (hprompt : ⌊t₁⌋ - 30 ≤ ⌊t₂⌋ ∧ ⌊t₂⌋ ≤ ⌊t₁⌋ + 300) :
    ∃ p, o.observeQueued C L f₂ a action d t₁ t₂ = .ok ⟨result, r, p⟩ ∧
      (C.envelopeText a ⟨result, r, p⟩).length ≤ min a.resultLimitBytes resultEnvelopeLimitBytes ∧
      ∀ t, t₁ - 30 ≤ t → t ≤ t₁ + 300 →
        ∃ digests, C.verifyQueuedActionEvidence a action d ⟨result, r, p⟩ ⌊t⌋ = .ok digests := by
  have hc := DestinationFile.Commit.of_commitQueued hd hcommit
  have hgrows := DestinationFile.Grows.of_reachable hrun
  have hread := readQueued_of_commit hd hc hgrows hreceipt hresult
  have hauthorization : C.verifyQueuedAuthorization a d action none =
      .ok (C.authorizationSha256 a) :=
    (Codec.verifyQueuedAuthorization_eq_ok hd).mpr ⟨hc.acceptable, by simp, rfl⟩
  have hreadback := verifyReadback_of_signedFor hd hc.acceptable hc.receipted hsign hrange hclock
    hprompt.1 hprompt.2
  have hnormal : C.normalizeQueuedDescriptor d = .ok d := hd
  refine ⟨o.signedFor C a action d result r ⌊t₁⌋, ?_,
    length_envelopeText_le hd hc.acceptable hc.receipted hc.limit hsign hrange,
    fun t hfrom hto => ?_⟩
  · simp only [Observer.observeQueued, bind_eq_ok, mapError_eq_ok, require_eq_ok,
      Bool.and_eq_true, beq_iff_eq, pure_eq_ok]
    exact ⟨d, hnormal, (), ⟨hpath, hkey⟩, _, hauthorization, _, hread, (), hsign.encoding _, _,
      hreadback, rfl⟩
  · have hlow : ⌊t₁⌋ - 30 ≤ ⌊t⌋ := by
      rw [← Int.floor_sub_ofNat]
      exact Int.floor_le_floor hfrom
    have hhigh : ⌊t⌋ ≤ ⌊t₁⌋ + 300 := by
      rw [← Int.floor_add_ofNat]
      exact Int.floor_le_floor hto
    exact ⟨_, verifyEvidence_of_signedFor hd hc.acceptable hc.receipted hc.limit hsign hrange hclock
      hlow hhigh⟩

/-- **A signature that takes longer than a readback is fresh is lost**: the observer's own check
refuses it. -/
theorem observeQueued_of_late {L : Decoder} {f f₁ : DestinationFile} {t₁ t₂ : Time}
    (hd : C.IsNormal d) (hc : DestinationFile.Commit C f d a action result r f₁)
    (hreceipt : L.receipt (C.receiptText r) = some r)
    (hresult : L.result (Codec.resultText result) = some result)
    (hpath : C.resolve o.path = C.resolve d.path)
    (hkey : d.destinationPublicKeyHex = o.destinationPublicKeyHex)
    (hsign : C.Signs d.observerPublicKeyHex o.sign) (hlate : ⌊t₁⌋ + 300 < ⌊t₂⌋) :
    o.observeQueued C L f₁ a action d t₁ t₂ =
      .error (.runtimeError "authoritative queued state is unavailable or untrusted") := by
  have hnormal : C.normalizeQueuedDescriptor d = .ok d := hd
  have hauthorization : C.verifyQueuedAuthorization a d action none =
      .ok (C.authorizationSha256 a) :=
    (Codec.verifyQueuedAuthorization_eq_ok hd).mpr ⟨hc.acceptable, by simp, rfl⟩
  have hread := readQueued_of_commit hd hc (DestinationFile.Grows.refl f₁) hreceipt hresult
  have hbinds : (C.resolve o.path == C.resolve d.path &&
      d.destinationPublicKeyHex == o.destinationPublicKeyHex) = true := by
    simp only [hpath, hkey, beq_self_eq_true, Bool.and_self]
  have hencoding : isLowerHex 128 (o.signedFor C a action d result r ⌊t₁⌋).signatureHex = true :=
    hsign.encoding _
  unfold Observer.observeQueued
  rw [hnormal]
  show (do require _ _; _) = _
  rw [hbinds]
  show (do let digest ← Except.mapError _ _; _) = _
  rw [hauthorization]
  show (do let x ← Observer.readQueued C L f₁ a action d (C.authorizationSha256 a); _) = _
  rw [hread]
  show (do require (isLowerHex 128 (o.signedFor C a action d result r ⌊t₁⌋).signatureHex) _; _) = _
  rw [hencoding]
  show (do let _ ← (C.verifyQueuedReadbackAttestation (o.signedFor C a action d result r ⌊t₁⌋) a
    action d result r ⌊t₂⌋).mapError _; _) = _
  cases hverify : C.verifyQueuedReadbackAttestation (o.signedFor C a action d result r ⌊t₁⌋) a
    action d result r ⌊t₂⌋ with
  | error e => rfl
  | ok digest =>
    obtain ⟨-, -, -, htimely, -⟩ := (Codec.verifyQueuedReadbackAttestation_eq_ok hd).mp hverify
    simp only [Codec.isTimely, Bool.and_eq_true, decide_eq_true_eq] at htimely
    have hfresh : (⌊t₂⌋ : Time) - ((300 : ℕ) : ℚ) ≤ (⌊t₁⌋ : Time) := htimely.1.1.2
    have hfresh : ⌊t₂⌋ - 300 ≤ ⌊t₁⌋ := by exact_mod_cast hfresh
    omega

end Readback

/-! ### The sample destination -/

def sampleObserver : Observer :=
  ⟨sampleTarget.path, sampleTarget.destinationPublicKeyHex, writerSigners.observer⟩

/-- The sample effect is read back and charged. -/
theorem committed_effect_provable_sample : ∃ L result r f₁ p,
    sampleFile.commitQueued writerCodec writerSigners.destination sampleTarget sampleAuthorization
      (String.ofList (demoText "x")) 101 101 = .ok ((result, r), f₁) ∧
    sampleObserver.observeQueued writerCodec L f₁ sampleAuthorization (String.ofList (demoText "x"))
      sampleTarget 102 103 = .ok ⟨result, r, p⟩ ∧
    ∃ digests, writerCodec.verifyQueuedActionEvidence sampleAuthorization
      (String.ofList (demoText "x")) sampleTarget ⟨result, r, p⟩ 402 = .ok digests := by
  obtain ⟨result, r, f₁, hcommit, hcommitted⟩ := sampleFile_commit
  let decoder : Decoder := ⟨fun _ => some r, fun _ => some result⟩
  have hclock : r.committedAt ≤ (102 : Time) := by
    rw [hcommitted]
    norm_num
  have hprompt : ⌊(102 : Time)⌋ - 30 ≤ ⌊(103 : Time)⌋ ∧ ⌊(103 : Time)⌋ ≤ ⌊(102 : Time)⌋ + 300 := by
    norm_num
  obtain ⟨p, hobserve, -, hverify⟩ := committed_effect_provable (L := decoder)
    (o := sampleObserver) sampleTarget_registered.normal hcommit (LTS.Reachable.refl _) rfl rfl rfl
    rfl ⟨writerSigners_signs.encoding, fun _ => rfl⟩ hclock (by norm_num) hprompt
  obtain ⟨digests, hdigests⟩ := hverify 402 (by norm_num) (by norm_num)
  rw [Int.floor_ofNat] at hdigests
  exact ⟨_, result, r, f₁, p, hcommit, hobserve, digests, hdigests⟩

/-- The observer signs at second 102 and gets its signature at second 403, after the commit at
second 101: it reports that the state is unavailable. -/
theorem slow_observer : ∃ L result r f₁,
    sampleFile.commitQueued writerCodec writerSigners.destination sampleTarget sampleAuthorization
      (String.ofList (demoText "x")) 101 101 = .ok ((result, r), f₁) ∧ r.committedAt ≤ 102 ∧
    L.receipt (writerCodec.receiptText r) = some r ∧
    L.result (Codec.resultText result) = some result ∧
    writerCodec.Signs sampleTarget.observerPublicKeyHex sampleObserver.sign ∧
    sampleObserver.observeQueued writerCodec L f₁ sampleAuthorization (String.ofList (demoText "x"))
      sampleTarget 102 403 =
        .error (.runtimeError "authoritative queued state is unavailable or untrusted") := by
  obtain ⟨result, r, f₁, hcommit, hcommitted⟩ := sampleFile_commit
  have hsigns : writerCodec.Signs sampleTarget.observerPublicKeyHex sampleObserver.sign :=
    ⟨writerSigners_signs.encoding, fun _ => rfl⟩
  exact ⟨⟨fun _ => some r, fun _ => some result⟩, result, r, f₁, hcommit,
    by rw [hcommitted]; norm_num, rfl, rfl, hsigns,
    observeQueued_of_late sampleTarget_registered.normal
      (DestinationFile.Commit.of_commitQueued sampleTarget_registered.normal hcommit) rfl rfl rfl
      rfl hsigns (by norm_num)⟩

end AgentBridge.Queued
