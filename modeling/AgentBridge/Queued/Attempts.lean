import AgentBridge.Queued.Change
import AgentBridge.Queued.Verifier

/-!
# What a committed attempt can still fail on

`dispatch_once` signs an authorization and commits the attempt without asking the destination's
verifier. Two validators therefore have to agree: the one a submission, an admission and a plan
went through, and `verify_queued_authorization`. They agree on digests, fences, allowances and
windows. They do not agree on NUL, which a task, context or operation id may contain, and not on
size: the identifiers of a task, of a destination and of a key may each take 1536 bytes, and
together with the rest exceed the 8192 bytes of an authorization. An attempt with such an
authorization is durable, and can only ever be refused.

* `Filed.change` : **every step keeps the invariant**.
* `attempt_accepted_iff` : **when an attempt is accepted during its whole window, exactly**.
-/

namespace AgentBridge.Queued

open Authority Tenant JsonText Except List

/-! ### How an authorization is made -/

/-- The authorization of an attempt, in terms of the accepted intent and the destination. -/
structure Made (cfg : Config) (intent : Intent) (action : String) (a : Authorization)
    (d : Descriptor) : Prop where
  named : Named intent.record.submission
  wire : cfg.demoAction intent.record.submission.wire = some action
  store : a.tenantId = cfg.tenantId ∧ a.storeId = cfg.storeId
  taskId : a.taskId = intent.record.submission.taskId
  contextId : a.contextId = intent.record.submission.contextId
  operationId : a.operationId = intent.record.submission.operationId
  targetId : a.targetId = intent.record.submission.targetId
  owner : cfg.bindingOwner intent.record.provenance.authority = .ok a.ownerId
  agent : intent.record.provenance.authority.agentId = some a.agentId
  authority : a.authoritySha256 = cfg.authoritySha256 intent.record.provenance.authority
  intentSha256 : a.intentSha256 = cfg.intentSha256 intent.record
  link : ∃ link, a.admissionLinkSha256 = cfg.linkSha256 link
  fingerprint : ∃ key sha original, a.fingerprint = cfg.queuedActionSha256 key sha original
  original : ∃ m, a.originalActionSha256 = cfg.actionSha256 m
  destination : a.destinationId = d.destinationId ∧ a.authorizerKeyId = d.authorizerKeyId
  configuration : a.targetConfigurationSha256 = cfg.contract.descriptorSha256 d
  action : a.actionSha256 = cfg.contract.actionSha256 action
  scope : a.fenceScope = cfg.fenceScope cfg.tenantId cfg.storeId a.agentId a.operationId
  fenceOwner : a.fenceOwner = a.attemptId
  epoch : 1 ≤ a.fenceEpoch ∧ a.fenceEpoch < 2 ^ 63
  allowance : resultEnvelopeLimitBytes ≤ a.resultLimitBytes ∧ a.resultLimitBytes ≤ 1048576
  limit : a.resultLimitBytes = intent.resultLimitBytes
  window : a.issuedAt < a.expiresAt ∧ a.expiresAt ≤ a.issuedAt + d.callTimeoutSeconds
  signature : a.signatureHex = cfg.contract.authorizerSign { a with signatureHex := "" }

theorem Made.of_issued {cfg : Config} {t : Tenant} {refs : Refs} {context : QueuedAuthority}
    {h : History} {p : Plan} {lease : Lease} {action : String} {stamp : Time}
    {a : Authorization} {row : Intent} (hhistory : t.HistoryOk cfg refs h)
    (hintent : h.intent = context.intent)
    (hrow : h.intent = { row with ownerId := refs.ownerId, taskId := refs.taskId })
    (hnamed : Named row.record.submission)
    (hlink : h.link.linkSha256 = cfg.linkSha256 h.link.toLink)
    (hfence : (Phase.fenced context p lease).HasFence cfg)
    (hwire : cfg.demoAction p.submission.wire = some action)
    (hissued : Issued cfg context h p lease action stamp a) :
    Made cfg row action a p.target := by
  obtain ⟨hscope, hepoch, hallowance⟩ := hfence
  rw [← hintent] at hscope hallowance
  have hrecord : h.intent.record = row.record := by rw [hrow]
  have hsubmission : p.submission = row.record.submission := by rw [hissued.submission, hrecord]
  have hdeadline : attemptDeadline context p lease stamp ≤ stamp + p.target.callTimeoutSeconds :=
    (min_le_right _ _).trans (min_le_right _ _)
  have hownerId : h.intent.ownerId = refs.ownerId := by rw [hrow]
  have howner := hhistory.owner
  have hagent := hhistory.agent
  have hdigest := hhistory.digest
  obtain ⟨htask, hoperation⟩ := hhistory.named
  rw [hrecord] at howner hagent hdigest htask hoperation
  rw [← hownerId] at howner
  rw [hissued.authorization]
  constructor
  case named => exact hnamed
  case wire => exact hsubmission ▸ hwire
  case store => exact ⟨rfl, rfl⟩
  case taskId => exact htask.symm
  case contextId => exact congrArg Submission.contextId hsubmission
  case operationId => exact hoperation.symm
  case targetId => exact congrArg Submission.targetId hsubmission
  case owner => exact howner
  case agent => exact hagent
  case authority => exact congrArg (fun r => cfg.authoritySha256 r.provenance.authority) hrecord
  case intentSha256 => exact hdigest
  case link => exact ⟨_, hlink⟩
  case fingerprint => exact ⟨_, _, _, hhistory.scope⟩
  case original => exact ⟨_, hhistory.original⟩
  case destination => exact ⟨rfl, rfl⟩
  case configuration => exact hissued.configuration
  case action => rfl
  case scope => exact hscope
  case fenceOwner => rfl
  case epoch => exact hepoch
  case allowance => exact ⟨hallowance, hhistory.allowance⟩
  case limit => exact congrArg (fun intent => intent.resultLimitBytes) hrow
  case window => exact ⟨hissued.pending, hdeadline⟩
  case signature => rfl

/-! ### The invariant -/

/-- Intents, links, fences and attempts are as their transactions wrote them. -/
structure Filed (cfg : Config) (w : World) : Prop where
  intents : ∀ k intent, w.tables.intents.lookup k = some intent → Named intent.record.submission
  links : ∀ k link, w.tables.links.lookup k = some link →
    link.linkSha256 = cfg.linkSha256 link.toLink
  fences : ∀ id x, w.workers.lookup id = some x → x.phase.HasFence cfg
  attempts : ∀ k row i a d, w.tables.decisions.lookup k = some row → row.body = .attempt i a d →
    ∃ intent action, w.tables.intents.lookup k = some intent ∧ Made cfg intent action a d

namespace Filed

variable {cfg : Config} {w w' : World}

theorem quiet {ws ws' : Table ℕ Worker}
    (h : ∀ id x, ws.lookup id = some x → x.phase.HasFence cfg) (hq : Quiet cfg ws ws') :
    ∀ id x, ws'.lookup id = some x → x.phase.HasFence cfg := by
  intro id x hx
  rcases hq id x hx with hx | ⟨-, hfence⟩
  · exact h id x hx
  · exact hfence

theorem insert {ws : Table ℕ Worker} {id : ℕ} {x : Worker}
    (h : ∀ id x, ws.lookup id = some x → x.phase.HasFence cfg) (hx : x.phase.HasFence cfg) :
    ∀ id' y, (ws.insert id x).lookup id' = some y → y.phase.HasFence cfg := by
  intro id' y hy
  rcases Table.of_lookup_insert hy with ⟨rfl, rfl⟩ | ⟨-, hy⟩
  · exact hx
  · exact h id' y hy

/-- A fence is held only after it was taken. -/
theorem fences_change (h : Filed cfg w) (hc : Change cfg w w') :
    ∀ id x, w'.workers.lookup id = some x → x.phase.HasFence cfg := by
  cases hc with
  | gateway => exact h.fences
  | authority _ hquiet | plain hquiet | admission _ _ hquiet | close _ hquiet =>
    exact quiet h.fences hquiet
  | accept => exact h.fences
  | attempt _ _ hphase =>
    refine insert h.fences ?_
    rcases hphase with ⟨action, rfl⟩ | rfl <;> trivial
  | enter | send | observing | observed => exact insert h.fences trivial
  | finish _ _ _ hquiet => exact quiet h.fences hquiet

/-- Intents are accepted with the identifiers of a task. -/
theorem intents_change (h : Filed cfg w) (hc : Change cfg w w') :
    ∀ k intent, w'.tables.intents.lookup k = some intent → Named intent.record.submission := by
  cases hc with
  | accept hok =>
    rw [hok.result]
    intro k intent hintent
    rcases Table.of_lookup_insert hintent with ⟨rfl, rfl⟩ | ⟨-, hintent⟩
    · exact hok.named
    · exact h.intents k intent hintent
  | admission _ hok | close hok | attempt _ hok | finish _ _ hok => rw [hok.result]; exact h.intents
  | _ => exact h.intents

theorem links_change (h : Filed cfg w) (hc : Change cfg w w') :
    ∀ k link, w'.tables.links.lookup k = some link →
      link.linkSha256 = cfg.linkSha256 link.toLink := by
  cases hc with
  | accept hok | close hok | attempt _ hok | finish _ _ hok => rw [hok.result]; exact h.links
  | admission _ hok =>
    rw [hok.result]
    intro k link hlink
    rcases Table.of_lookup_insert hlink with ⟨rfl, rfl⟩ | ⟨-, hlink⟩
    · exact hok.digest
    · exact h.links k link hlink
  | _ => exact h.links

/-- **Every step keeps the invariant.** -/
theorem change (h : Filed cfg w) (hc : Change cfg w w') : Filed cfg w' where
  intents := h.intents_change hc
  links := h.links_change hc
  fences := h.fences_change hc
  attempts k row i a d hrow hbody := by
    rcases hc.attempted hrow hbody with hrow | ⟨id, x, context, hist, t, rfl, hx, hissues, hok⟩
    · obtain ⟨intent, action, hintent, hmade⟩ := h.attempts k row i a d hrow hbody
      exact ⟨intent, action, hc.intents hintent, hmade⟩
    · obtain ⟨p, lease, action, stamp, hphase, rfl, hwire, hissued⟩ := hissues
      obtain ⟨stored, hstored, hintent⟩ := hok.history.intent
      have hfence := h.fences id x hx
      rw [hphase] at hfence
      exact ⟨stored, action, hc.intents hstored,
        .of_issued hok.history hok.intent hintent (h.intents _ _ hstored)
          (h.links _ _ hok.history.link) hfence hwire hissued⟩

theorem of_fresh (h : w.Fresh cfg) : Filed cfg w where
  intents k intent hintent := by simp [h.intents] at hintent
  links k link hlink := by simp [h.links] at hlink
  fences id x hx := by simp [h.workers] at hx
  attempts k row i a d hrow := by simp [h.decisions] at hrow

theorem reachable (h : Filed cfg w) (hrun : (system cfg).Reachable w w') : Filed cfg w' :=
  hrun.invariant (I := Filed cfg) h fun _ _ _ hv hstep => hv.change (change_of_exec hstep)

end Filed

/-! ### Against the destination's verifier -/

/-- The digests of a deployment are SHA-256 digests, the ones of the documents are those of their
texts, and names it makes itself are hexadecimal. -/
structure Config.Exact (cfg : Config) (C : Codec) (k : Signers) : Prop where
  contract : cfg.contract = C.contract k
  tenantId : isIdentifier cfg.tenantId = true
  storeId : isLowerHex 32 cfg.storeId = true
  ownerSha256 : ∀ m, isLowerHex 64 (cfg.ownerSha256 m) = true
  intentSha256 : ∀ record, isLowerHex 64 (cfg.intentSha256 record) = true
  actionSha256 : ∀ m, isLowerHex 64 (cfg.actionSha256 m) = true
  queuedActionSha256 : ∀ key sha original,
    isLowerHex 64 (cfg.queuedActionSha256 key sha original) = true
  linkSha256 : ∀ link, isLowerHex 64 (cfg.linkSha256 link) = true
  authoritySha256 : ∀ b, isLowerHex 64 (cfg.authoritySha256 b) = true
  fenceScope : ∀ tenant store agent operation,
    isLowerHex 64 (cfg.fenceScope tenant store agent operation) = true
  demoAction : ∀ wire action, cfg.demoAction wire = some action →
    ∃ value, isDemoValue value = true ∧ action = String.ofList (demoText value)

/-- `resolve_queued_target` returns this descriptor for the target. -/
structure Registered (C : Codec) (cfg : Config) (targetId : String) (d : Descriptor) : Prop where
  normal : C.IsNormal d
  tenant : d.tenantId = cfg.tenantId
  target : d.targetId = targetId

/-- What `dispatch_once` makes an authorization of, next to digests and names of fixed length: the
client's and the operator's names, the epoch of the fence, the clock and the deadline. -/
structure Inputs where
  tenantId : String
  agentId : String
  submission : Submission
  target : Descriptor
  resultLimitBytes : ℕ
  epoch : ℕ
  stamp : Time
  deadline : Time

/-- The bytes of the authorization; the rest of it takes 1292. -/
def Inputs.size (C : Codec) (x : Inputs) : ℕ :=
  (text x.tenantId).length + (text x.agentId).length + (text x.submission.taskId).length +
    (text x.submission.contextId).length + (text x.submission.operationId).length +
    (text x.submission.targetId).length + (text x.target.destinationId).length +
    (text x.target.authorizerKeyId).length + (C.number x.stamp).length +
    (C.number x.deadline).length + (natText x.epoch).length +
    (natText x.resultLimitBytes).length + 1292

/-- What neither a submission nor an admission nor a plan has checked. -/
structure Deliverable (C : Codec) (x : Inputs) : Prop where
  taskId : hasNul x.submission.taskId = false
  contextId : hasNul x.submission.contextId = false
  operationId : hasNul x.submission.operationId = false
  size : x.size C ≤ 8192
  clock : isSeconds x.stamp = true ∧ isSeconds x.deadline = true

instance (C : Codec) (x : Inputs) : Decidable (Deliverable C x) :=
  decidable_of_iff (hasNul x.submission.taskId = false ∧ hasNul x.submission.contextId = false ∧
      hasNul x.submission.operationId = false ∧ x.size C ≤ 8192 ∧
      isSeconds x.stamp = true ∧ isSeconds x.deadline = true)
    ⟨fun h => ⟨h.1, h.2.1, h.2.2.1, h.2.2.2.1, h.2.2.2.2⟩,
      fun h => ⟨h.taskId, h.contextId, h.operationId, h.size, h.clock⟩⟩

/-- The inputs of a stored attempt. -/
def Authorization.inputs (a : Authorization) (cfg : Config) (intent : Intent) (d : Descriptor) :
    Inputs :=
  ⟨cfg.tenantId, a.agentId, intent.record.submission, d, intent.resultLimitBytes, a.fenceEpoch,
    a.issuedAt, a.expiresAt⟩

section

variable {cfg : Config} {C : Codec} {k : Signers} {intent : Intent} {action : String}
  {a : Authorization} {d : Descriptor}

theorem isLowerHex_of_bindingOwner (hexact : cfg.Exact C k) {b : Binding} {ownerId : String}
    (h : cfg.bindingOwner b = .ok ownerId) : isLowerHex 64 ownerId = true := by
  simp only [Config.bindingOwner, bind_eq_ok, pure_eq_ok] at h
  obtain ⟨-, -, -, -, capabilities, -, targets, -, rfl⟩ := h
  exact hexact.ownerSha256 _

theorem isIdentifier_of_bindingOwner {b : Binding} {ownerId agentId : String}
    (h : cfg.bindingOwner b = .ok ownerId) (hagent : b.agentId = some agentId) :
    isIdentifier agentId = true := by
  simp only [Config.bindingOwner, bind_eq_ok, require_eq_ok, Bool.and_eq_true, hagent,
    Option.any_some] at h
  obtain ⟨-, ⟨-, hid⟩, -⟩ := h
  exact hid

theorem Made.digests (h : Made cfg intent action a d) (hexact : cfg.Exact C k) :
    a.digests.all (isLowerHex 64) = true := by
  obtain ⟨link, hlink⟩ := h.link
  obtain ⟨key, sha, original, hfingerprint⟩ := h.fingerprint
  obtain ⟨m, horiginal⟩ := h.original
  have hconfiguration := h.configuration
  have haction := h.action
  rw [hexact.contract] at hconfiguration haction
  simp only [Authorization.digests, all_cons, all_nil, Bool.and_true, Bool.and_eq_true]
  exact ⟨h.authority ▸ hexact.authoritySha256 _, h.intentSha256 ▸ hexact.intentSha256 _,
    hlink ▸ hexact.linkSha256 _, hfingerprint ▸ hexact.queuedActionSha256 _ _ _,
    horiginal ▸ hexact.actionSha256 _, hconfiguration ▸ C.sha256_hex _, haction ▸ C.sha256_hex _⟩

theorem Registered.identifiers {targetId : String} (hd : Registered C cfg targetId d) :
    isQueuedIdentifier d.targetId = true ∧ isQueuedIdentifier d.destinationId = true ∧
      isQueuedIdentifier d.authorizerKeyId = true := by
  have hnormal := hd.normal
  simp only [Codec.IsNormal, Codec.normalizeQueuedDescriptor, bind_eq_ok, require_eq_ok,
    all_cons, all_nil, Bool.and_eq_true] at hnormal
  obtain ⟨-, -, -, ⟨-, htarget, hdestination, hkey, -⟩, -⟩ := hnormal
  exact ⟨htarget, hdestination, hkey⟩

/-- Only NUL in the names of the task can make an identifier invalid. -/
theorem Made.identifiers_iff (h : Made cfg intent action a d) (hexact : cfg.Exact C k)
    (hd : Registered C cfg a.targetId d) (hdrawn : isLowerHex 32 a.attemptId = true) :
    a.identifiers.all isQueuedIdentifier = true ↔
      hasNul a.taskId = false ∧ hasNul a.contextId = false ∧ hasNul a.operationId = false := by
  have hword : ∀ {s}, isIdentifier s = true → isQueuedIdentifier s = true := by
    intro s hs
    obtain ⟨hs, hpos, hle⟩ := isWord_of_isIdentifier hs
    exact isQueuedIdentifier_of_isWord hs hpos hle
  have htenant : isQueuedIdentifier a.tenantId = true := h.store.1 ▸ hword hexact.tenantId
  have hstore : isQueuedIdentifier a.storeId = true :=
    h.store.2 ▸ isQueuedIdentifier_of_isLowerHex hexact.storeId (by omega) (by omega)
  have howner : isQueuedIdentifier a.ownerId = true :=
    isQueuedIdentifier_of_isLowerHex (isLowerHex_of_bindingOwner hexact h.owner) (by omega)
      (by omega)
  have hagent : isQueuedIdentifier a.agentId = true :=
    hword (isIdentifier_of_bindingOwner h.owner h.agent)
  obtain ⟨htarget, hdestination, hkey⟩ := hd.identifiers
  have hattempt : isQueuedIdentifier a.attemptId = true :=
    isQueuedIdentifier_of_isLowerHex hdrawn (by omega) (by omega)
  have hscope : isQueuedIdentifier a.fenceScope = true :=
    isQueuedIdentifier_of_isLowerHex (h.scope ▸ hexact.fenceScope _ _ _ _) (by omega) (by omega)
  have htask : isQueuedIdentifier a.taskId = true ↔ hasNul a.taskId = false := by
    rw [isQueuedIdentifier_iff, h.taskId]
    exact and_iff_right h.named.taskId
  have hcontext : isQueuedIdentifier a.contextId = true ↔ hasNul a.contextId = false := by
    rw [isQueuedIdentifier_iff, h.contextId]
    exact and_iff_right h.named.contextId
  have hoperation : isQueuedIdentifier a.operationId = true ↔ hasNul a.operationId = false := by
    rw [isQueuedIdentifier_iff, h.operationId]
    exact and_iff_right h.named.operationId
  rw [hd.target] at htarget
  rw [← h.destination.1] at hdestination
  rw [← h.destination.2] at hkey
  have hfenceOwner : isQueuedIdentifier a.fenceOwner = true := h.fenceOwner ▸ hattempt
  simp only [Authorization.identifiers, all_cons, all_nil, Bool.and_true,
    Bool.and_eq_true, htenant, hstore, howner, hagent, htarget, hdestination, hattempt, hscope,
    hfenceOwner, hkey, htask, hcontext, hoperation, true_and]

theorem length_authorizationText (h : a.digests.all (isLowerHex 64) = true) :
    (C.authorizationText a).length = (a.identifiers.map fun s => (text s).length).sum +
      (C.number a.issuedAt).length + (C.number a.expiresAt).length +
      (natText a.fenceEpoch).length + (natText a.resultLimitBytes).length +
      (text a.signatureHex).length + 928 := by
  have hdigests : ∀ s ∈ a.digests, (text s).length = 66 :=
    fun s hs => length_text_of_isLowerHex (all_eq_true.mp h s hs)
  simp only [Authorization.digests, forall_mem_cons] at hdigests
  obtain ⟨h₁, h₂, h₃, h₄, h₅, h₆, h₇, -⟩ := hdigests
  have hdomain : (text "agentbridge.queued-authorization.v2").length = 37 := by decide +kernel
  rw [Codec.authorizationText, Members.length_text, C.frame_authorizationMembers]
  simp only [Codec.authorizationMembers, valueSize_cons, valueSize_nil, Authorization.identifiers,
    map_cons, map_nil, sum_cons, sum_nil]
  omega

/-- **The size of an authorization is known before it is signed.** -/
theorem Made.size_eq (h : Made cfg intent action a d) (hexact : cfg.Exact C k)
    (hdrawn : isLowerHex 32 a.attemptId = true)
    (hsign : C.Signs d.authorizerPublicKeyHex k.authorizer) :
    (C.authorizationText a).length = (a.inputs cfg intent d).size C := by
  have hstore : (text a.storeId).length = 34 :=
    h.store.2 ▸ length_text_of_isLowerHex hexact.storeId
  have howner := length_text_of_isLowerHex (isLowerHex_of_bindingOwner hexact h.owner)
  have hattempt := length_text_of_isLowerHex hdrawn
  have hfenceOwner : (text a.fenceOwner).length = 34 := h.fenceOwner ▸ hattempt
  have hscope : (text a.fenceScope).length = 66 :=
    length_text_of_isLowerHex (h.scope ▸ hexact.fenceScope _ _ _ _)
  have hsignature : (text a.signatureHex).length = 130 := by
    rw [h.signature, hexact.contract]
    exact length_text_of_isLowerHex (hsign.encoding _)
  rw [length_authorizationText (h.digests hexact)]
  simp only [Authorization.identifiers, map_cons, map_nil, sum_cons, sum_nil,
    Inputs.size, Authorization.inputs, h.store.1, h.taskId, h.contextId, h.operationId, h.targetId,
    h.destination.1, h.destination.2, h.limit]
  omega

/-- **What is left for the destination to refuse.** -/
theorem Made.acceptable_iff (h : Made cfg intent action a d) (hexact : cfg.Exact C k)
    (hd : Registered C cfg a.targetId d) (hdrawn : isLowerHex 32 a.attemptId = true)
    (hsign : C.Signs d.authorizerPublicKeyHex k.authorizer) :
    C.Acceptable a d action ↔ Deliverable C (a.inputs cfg intent d) := by
  have hids := h.identifiers_iff hexact hd hdrawn
  rw [h.taskId, h.contextId, h.operationId] at hids
  have hsize := h.size_eq hexact hdrawn hsign
  have hconfiguration := h.configuration
  have haction := h.action
  have hsignature := h.signature
  rw [hexact.contract] at hconfiguration haction hsignature
  constructor
  · intro hok
    obtain ⟨htask, hcontext, hoperation⟩ := hids.mp hok.identifiers
    have hwindow := hok.window
    simp only [Codec.hasWindow, Bool.and_eq_true] at hwindow
    exact ⟨htask, hcontext, hoperation, hsize ▸ hok.size, hwindow.1.1⟩
  · intro hok
    constructor
    case canonical =>
      obtain ⟨value, hvalue, rfl⟩ := hexact.demoAction _ _ h.wire
      rw [demoValue_demoText hvalue]
      rfl
    case size => exact hsize ▸ hok.size
    case identifiers => exact hids.mpr ⟨hok.taskId, hok.contextId, hok.operationId⟩
    case digests => exact h.digests hexact
    case agrees =>
      simp only [Codec.agrees, Bool.and_eq_true, beq_iff_eq]
      exact ⟨⟨⟨⟨⟨h.store.1.trans hd.tenant.symm, hd.target.symm⟩, h.destination.1⟩,
        h.destination.2⟩, hconfiguration⟩, haction⟩
    case epoch => exact ⟨h.epoch.1, by have := h.epoch.2; omega⟩
    case allowance =>
      have := h.allowance
      simp only [resultEnvelopeLimitBytes] at this
      exact ⟨by omega, this.2⟩
    case window =>
      simp only [Codec.hasWindow, Bool.and_eq_true, decide_eq_true_eq]
      exact ⟨⟨hok.clock, h.window.1⟩, h.window.2⟩
    case encoding =>
      rw [hsignature]
      exact hsign.encoding _
    case signature =>
      rw [hsignature]
      exact hsign.verifies _

/-- **An attempt is accepted during its whole window exactly if its inputs are deliverable**: apart
from NUL, size and the range of the clock, every check of the destination was made before. -/
theorem attempt_accepted_iff {w₀ w : World} {key : TaskKey} {row : DecisionRow} {i : String}
    (hexact : cfg.Exact C k) (h₀ : w₀.Fresh cfg) (hrun : (system cfg).Reachable w₀ w)
    (hrow : w.tables.decisions.lookup key = some row) (hbody : row.body = .attempt i a d)
    (hd : Registered C cfg a.targetId d) (hdrawn : isLowerHex 32 a.attemptId = true)
    (hsign : C.Signs d.authorizerPublicKeyHex k.authorizer) :
    ∃ intent action agentId, w.tables.intents.lookup key = some intent ∧
      intent.record.provenance.authority.agentId = some agentId ∧
      cfg.demoAction intent.record.submission.wire = some action ∧
      ((∀ now, a.issuedAt ≤ now → now < a.expiresAt →
          C.verifyQueuedAuthorization a d action (some now) = .ok (C.authorizationSha256 a)) ↔
        Deliverable C
          { tenantId := cfg.tenantId
            agentId := agentId
            submission := intent.record.submission
            target := d
            resultLimitBytes := intent.resultLimitBytes
            epoch := a.fenceEpoch
            stamp := a.issuedAt
            deadline := a.expiresAt }) := by
  obtain ⟨intent, action, hintent, hmade⟩ :=
    ((Filed.of_fresh h₀).reachable hrun).attempts key row i a d hrow hbody
  have hiff := hmade.acceptable_iff hexact hd hdrawn hsign
  refine ⟨intent, action, a.agentId, hintent, hmade.agent, hmade.wire, fun hall => ?_,
    fun hok now hfrom hto => ?_⟩
  · have haccepted := hall a.issuedAt le_rfl hmade.window.1
    exact hiff.mp ((Codec.verifyQueuedAuthorization_eq_ok hd.normal).mp haccepted).1
  · refine (Codec.verifyQueuedAuthorization_eq_ok hd.normal).mpr ⟨hiff.mpr hok, ?_, rfl⟩
    rintro _ ⟨rfl⟩
    obtain ⟨hissued, hexpires⟩ := hok.clock
    simp only [isSeconds, Bool.and_eq_true, decide_eq_true_eq] at hissued hexpires ⊢
    exact ⟨⟨hissued.1.trans_le hfrom, hto.le.trans hexpires.2⟩, hfrom, hto⟩

end

/-! ### A deployment that writes -/

/-- Every digest is the same, and every signature verifies. -/
def writerCodec : Codec where
  number _ := ['1']
  sha256 _ := sampleHex
  verifies _ _ _ := true
  resolve path := path
  number_length _ _ := by decide
  sha256_hex _ := by decide

/-- Each callback returns the same signature. -/
def writerSigners : Signers where
  authorizer _ := String.ofList (List.replicate 128 'a')
  destination _ := String.ofList (List.replicate 128 'a')
  observer _ := String.ofList (List.replicate 128 'a')

/-- The sample tenant, with digests of the documents' texts. -/
def writerConfig : Config :=
  { sampleConfig with
    contract := writerCodec.contract writerSigners
    storeId := String.ofList (List.replicate 32 'a')
    ownerSha256 := fun _ => sampleHex
    fenceScope := fun _ _ _ _ => sampleHex
    demoAction := fun wire =>
      if wire = "append" then some (String.ofList (demoText "x")) else none }

theorem isLowerHex_sampleHex : isLowerHex 64 sampleHex = true := by decide

theorem writerConfig_exact : writerConfig.Exact writerCodec writerSigners where
  contract := rfl
  tenantId := by decide
  storeId := by decide
  ownerSha256 _ := isLowerHex_sampleHex
  intentSha256 _ := isLowerHex_sampleHex
  actionSha256 _ := isLowerHex_sampleHex
  queuedActionSha256 _ _ _ := isLowerHex_sampleHex
  linkSha256 _ := isLowerHex_sampleHex
  authoritySha256 _ := isLowerHex_sampleHex
  fenceScope _ _ _ _ := isLowerHex_sampleHex
  demoAction wire action h := by
    change (if wire = "append" then some (String.ofList (demoText "x")) else none) = _ at h
    split at h
    · exact ⟨"x", by decide +kernel, (Option.some.inj h).symm⟩
    · cases h

/-- The consenting user, who may write. -/
def writerAlice : Principal := { sampleAlice with capabilities := ["write"] }

/-- The enrollments of the sample directory, for writing. -/
def writerEvents : List Event :=
  [ .bootstrapPlatformAdmin "https://idp.example" "root",
    .beginOperator "https://idp.example" "root-token" none,
    .commit 0 "",
    .setTenant sampleRoot "acme" true,
    .enrollMember sampleRoot "acme" "https://idp.example" "alice" .tenantOperator ["write"] ["t1"],
    .enrollAgent sampleRoot "acme" "bot" (String.ofList (List.replicate 64 'a')) ["write"] ["t1"],
    .beginOperator "https://idp.example" "alice-token" (some "acme"),
    .commit 0 "",
    .beginDelegation ⟨sampleRoot, writerAlice, "bot", ["write"], ["t1"], 1000, none⟩,
    .commit 0 "grant-1",
    .beginAgent sampleRequest,
    .commit 0 "" ].map fun action => ⟨action, ⟨100, 100⟩⟩

/-- The clock of the run. -/
def writerTime : Time := ((100 : ℕ) : ℚ)

/-- One task at one destination, from its submission to the durable attempt. -/
def writerRun (task : TaskRequest) (target : Descriptor) : List Action :=
  let setup := { sampleSetup with capability := some "write", target := some target }
  let refs : Refs := ⟨sampleHex, task.submission.taskId, sampleHex, sampleHex⟩
  let now := writerTime
  writerEvents.map .authority ++
  [ .setIdentity "bot" { publicKeyHex := sampleHex },
    .gateway (.setBudget "bot" ((10 : ℕ) : Cost) 60 60),
    .submit { samplePrincipal with capabilities := ["write"] } task setup ⟨now, now⟩ ⟨now, now⟩ now,
    .guardIntent 0 refs.key sampleHex now (sampleReads now).derive,
    .admission 0 setup
      { plan := ⟨now, now⟩, claimedAt := now, reservedAt := now, token := "token-1"
        quotaNow := now, firstAuthorize := ⟨now, now⟩, secondAuthorize := ⟨now, now⟩
        prepared := sampleReads now, admittedAt := now, lifetime := sampleReads now },
    .dispatch 1 refs, .look 1, .guard 1 now (sampleReads now).derive,
    .prepare 1 setup ⟨sampleReads now, ⟨now, now⟩⟩,
    .acquire 1 (String.ofList (List.replicate 32 'a')) now true,
    .attempt 1 ⟨setup, ⟨sampleReads now, ⟨now, now⟩⟩, now, sampleReads now⟩ true ]

/-- The deployment after the run. -/
def writerWorld (task : TaskRequest) (target : Descriptor) : World :=
  LTS.drive (exec writerConfig) sampleWorld (writerRun task target)

theorem writerWorld_fresh : sampleWorld.Fresh writerConfig :=
  ⟨rfl, ⟨rfl, rfl, fun _ _ => rfl, rfl⟩, rfl, rfl, rfl, rfl, rfl, rfl, rfl, rfl⟩

/-- The stored attempt of a task. -/
def World.attempted (w : World) (taskId : String) : Option (Authorization × Descriptor) :=
  (w.tables.decisions.lookup (sampleHex, taskId)).bind fun row =>
    match row.body with
    | .attempt _ a d => some (a, d)
    | _ => none

/-- The sample task, in a context whose name has a NUL. -/
def nulTask : TaskRequest :=
  { sampleTask with submission := { sampleTask.submission with contextId := "a\x00b" } }

theorem sampleTarget_registered : Registered writerCodec writerConfig "t1" sampleTarget :=
  ⟨by unfold Codec.IsNormal; decide +kernel, rfl, rfl⟩

theorem writerSigners_signs :
    writerCodec.Signs sampleTarget.authorizerPublicKeyHex writerSigners.authorizer :=
  have hhex : isLowerHex 128 (String.ofList (List.replicate 128 'a')) = true := by decide +kernel
  ⟨fun _ => hhex, fun _ => rfl⟩

/-- The authorizations of the sample runs are of the right form. -/
def isDrawn (p : Authorization × Descriptor) : Bool :=
  p.2 == sampleTarget && p.1.targetId == "t1" && isLowerHex 32 p.1.attemptId

theorem attempted_eq_some {w : World} {taskId : String} {p : Authorization × Descriptor}
    (h : w.attempted taskId = some p) : ∃ row i,
      w.tables.decisions.lookup (sampleHex, taskId) = some row ∧ row.body = .attempt i p.1 p.2 := by
  obtain ⟨row, hrow, hbody⟩ := Option.bind_eq_some_iff.mp h
  refine ⟨row, ?_⟩
  cases hcase : row.body with
  | attempt i a d =>
    rw [hcase] at hbody
    obtain rfl := Option.some.inj hbody
    exact ⟨i, hrow, rfl⟩
  | closed => rw [hcase] at hbody; cases hbody

/-- **An attempt is burned**: the descriptor is registered, the attempt is durable, and at every
time the destination refuses the authorization. -/
theorem burned_attempt :
    Registered writerCodec writerConfig "t1" sampleTarget ∧
    ∃ a, (writerWorld nulTask sampleTarget).attempted "task-1" = some (a, sampleTarget) ∧
      ∀ now,
        writerCodec.verifyQueuedAuthorization a sampleTarget (String.ofList (demoText "x")) now =
          .error (.valueError "invalid queued authorization identifier") := by
  have haction : (demoValue (String.ofList (demoText "x"))).isSome = true := by decide +kernel
  have hrun : ((writerWorld nulTask sampleTarget).attempted "task-1").any (fun p =>
      isDrawn p && (writerCodec.authorizationText p.1).length ≤ 8192 &&
        !p.1.identifiers.all isQueuedIdentifier) = true := by
    decide +kernel
  simp only [Option.any_eq_true, isDrawn, Bool.and_eq_true, beq_iff_eq, Bool.not_eq_true',
    decide_eq_true_eq] at hrun
  obtain ⟨⟨a, _⟩, ha, ⟨⟨⟨rfl, -⟩, -⟩, hsize⟩, hids⟩ := hrun
  exact ⟨sampleTarget_registered, a, ha, fun now =>
    Codec.verifyQueuedAuthorization_of_identifiers sampleTarget_registered.normal haction hsize
      hids⟩

/-- The run of the sample task ends with an attempt whose inputs are deliverable. -/
theorem writerWorld_attempted : ∃ a intent,
    (writerWorld sampleTask sampleTarget).attempted "task-1" = some (a, sampleTarget) ∧
    (writerWorld sampleTask sampleTarget).tables.intents.lookup (sampleHex, "task-1") =
      some intent ∧
    a.targetId = "t1" ∧ isLowerHex 32 a.attemptId = true ∧ intent.resultLimitBytes = 65536 ∧
    intent.record.provenance.authority.agentId = some a.agentId ∧
    Deliverable writerCodec (a.inputs writerConfig intent sampleTarget) := by
  have hrun : ((writerWorld sampleTask sampleTarget).attempted "task-1").any (fun p => isDrawn p &&
      ((writerWorld sampleTask sampleTarget).tables.intents.lookup (sampleHex, "task-1")).any
        fun intent => intent.resultLimitBytes == 65536 &&
          intent.record.provenance.authority.agentId == some p.1.agentId &&
          decide (Deliverable writerCodec (p.1.inputs writerConfig intent p.2))) = true := by
    decide +kernel
  simp only [Option.any_eq_true, isDrawn, Bool.and_eq_true, beq_iff_eq, decide_eq_true_eq] at hrun
  obtain ⟨⟨a, _⟩, ha, ⟨⟨rfl, htarget⟩, hdrawn⟩, intent, hintent, ⟨hlimit, hagent⟩, hok⟩ :=
    hrun
  exact ⟨a, intent, ha, hintent, htarget, hdrawn, hlimit, hagent, hok⟩

/-- The same task in an ordinary context is accepted until its authorization expires. -/
theorem attempt_accepted_iff_sample :
    ∃ a action, (writerWorld sampleTask sampleTarget).attempted "task-1" = some (a, sampleTarget) ∧
      ∀ now, a.issuedAt ≤ now → now < a.expiresAt →
        writerCodec.verifyQueuedAuthorization a sampleTarget action (some now) =
          .ok (writerCodec.authorizationSha256 a) := by
  obtain ⟨a, intent, ha, hintent, htarget, hdrawn, -, hagent, hok⟩ := writerWorld_attempted
  obtain ⟨row, i, hrow, hbody⟩ := attempted_eq_some ha
  obtain ⟨stored, action, agentId, hstored, hstoredAgent, -, hiff⟩ := attempt_accepted_iff
    writerConfig_exact writerWorld_fresh (LTS.reachable_drive _ _ _) hrow hbody
    (htarget ▸ sampleTarget_registered) hdrawn writerSigners_signs
  obtain rfl := Option.some.inj (hintent.symm.trans hstored)
  obtain rfl := Option.some.inj (hagent.symm.trans hstoredAgent)
  exact ⟨a, action, ha, hiff.mpr hok⟩

end AgentBridge.Queued
