import AgentBridge.Bytes.Basic
import AgentBridge.Ownership.Principal
import AgentBridge.Protocols.Chain
import AgentBridge.Protocols.Equality

/-!
# What a signature binds

A caller hands the gateway a request that was signed as bytes, and the action as values in memory.
In tenant mode and in production the gateway decodes the bytes and compares the members of the
object with the values by `==`. The request fingerprint, which approvals and operations are filed
under, and the translated request are made from the values, not from the bytes.

The comparison does not tell `True` from `1` and from `1.0`; the fingerprint does. Two calls with
one signed body can therefore have different fingerprints, one of which nobody has signed.

* `signed_body_determines_scope` : **the signed bytes determine the action**, for exact calls.
-/

namespace AgentBridge.Signed

open Authority Protocols Value Except List

/-- What the gateway takes from the language. Each object that `json.loads` returns is a
dictionary. -/
structure Library where
  runtime : Runtime
  /-- `repr` of a float. -/
  floatText : BitVec 64 → List Char
  /-- `json.loads` of bytes, which has no value where it raises. -/
  loadBody : Bytes → Option Value
  loadBody_unique : ∀ bytes body, loadBody bytes = some body → body.Unique
  /-- `hashlib.sha256(...).hexdigest()`. -/
  sha256 : Bytes → String
  /-- `_checked_cost`: a finite float that is not negative. -/
  checkedCost : Value → Option (BitVec 64)

inductive Mode
  /-- There is an authority, for this tenant. -/
  | tenant (tenantId : String)
  /-- There is none, and `AGENTBRIDGE_ENV` is that of production. -/
  | production
  | development
  deriving DecidableEq

/-- What is refused where. -/
inductive Refusal
  | configError (message : String)
  | valueError (message : String)
  | authorityDenied (message : String)
  /-- An unknown protocol. -/
  | keyError (name : PyString)
  | malformed (e : Raised)
  | governanceError (reason : String)
  | operationConflict (message : String)
  deriving DecidableEq

/-- The arguments of `_admit_guarded`, and the identifiers that are generated during the call. -/
structure Invocation where
  agentId : String
  srcProto : PyString
  dstProto : PyString
  srcWire : Value
  cost : Value
  targetId : Value := .null
  operationId : Value := .null
  signedData : Option Bytes := none
  signature : Option Bytes := none
  signedBody : Option Bytes := none
  signedNonce : Option String := none
  principal : Option Principal := none
  fresh : Fresh

/-- The parts of the gateway that admission consults: the directory, the identities, the operation
ledger, the policy and the admission transaction. -/
structure Gateway where
  mode : Mode
  /-- `authority_mode() == "legacy_single_tenant"`. -/
  isLegacy : Bool
  /-- `assert_current`, with what it raises. -/
  assertCurrent : Principal → Except String Unit
  verifySignature : String → Bytes → Bytes → Bool
  /-- Fingerprint and state of an operation. -/
  ledger : String → PyString → Option (String × String)
  /-- `policy.authorize`, for a capability and a request scope. -/
  policy : Invocation → PyString → BitVec 64 → String → Decision
  /-- `_admit_transaction`: a budget token, or a reason. -/
  transaction : Invocation → PyString → BitVec 64 → String → Except String String

/-- What is admitted. -/
structure Admission where
  capability : PyString
  cost : BitVec 64
  requestScope : String
  wire : Value
  token : String

/-- `registry.get`. -/
def registryGet (name : PyString) : Except Refusal Protocol :=
  let known : List Protocol := [.mcp, .a2a, .acp, .openai, .gemini, .agntcy]
  (known.find? fun p => PyString.ofString p.name = name).elim
    (throw (.keyError name)) pure

/-- The members of the signed body that name the operation, with the values of the call. -/
def Invocation.members (c : Invocation) : List (String × Value) :=
  [("src", .str c.srcProto), ("dst", .str c.dstProto), ("wire", c.srcWire),
    ("target_id", c.targetId), ("operation_id", c.operationId)]

/-- `body.get(key)`. -/
def member (body : Value) (key : String) : Value := (body.find key).getD .null

/-- The comparison of the signed body with the call. -/
def Invocation.matches (c : Invocation) (body : Value) : Bool :=
  body.isDict && c.members.all fun m => (member body m.1).eq m.2

section Checks

variable (L : Library) (g : Gateway) (c : Invocation)

/-- `require_legacy_authority`, without an authority. -/
def Gateway.checkMode : Except Refusal Unit :=
  match g.mode with
  | .tenant _ => pure ()
  | .production | .development =>
    require g.isLegacy (.configError ("legacy entry point cannot serve multi_tenant authority; " ++
      "use the enrolled tenant facade"))

/-- The principal, and `assert_request`. -/
def Gateway.checkPrincipal : Except Refusal Unit :=
  match g.mode with
  | .tenant tenantId => do
    let p ← c.principal.elim
      (throw (.authorityDenied "principal does not own this tenant gateway")) pure
    require (p.tenantId = some tenantId && p.agentId = some c.agentId)
      (.authorityDenied "principal does not own this tenant gateway")
    (g.assertCurrent p).mapError .authorityDenied
    require ((p.kind = .machine || p.kind = .delegatedHuman) &&
        c.signedBody.any (fun body => p.requestBodySha256 = L.sha256 body) &&
        c.signedNonce = some p.requestNonce)
      (.authorityDenied "principal proof is bound to a different request")
  | .production | .development => pure ()

/-- `authority.authorize`, and the comparison with the signed body. -/
def Gateway.checkAuthority (capability : PyString) : Except Refusal Unit :=
  match g.mode with
  | .tenant _ => do
    let p ← c.principal.elim (throw (.authorityDenied "unsupported principal kind")) pure
    (g.assertCurrent p).mapError .authorityDenied
    require ((p.kind = .machine || p.kind = .delegatedHuman) &&
        p.capabilities.any (fun name => .ofString name = capability) &&
        (c.targetId.isNone || p.targets.any fun name => c.targetId.isText name))
      (.authorityDenied "action outside authenticated principal scope")
    require ((c.signedBody.bind L.loadBody).any c.matches)
      (.authorityDenied "signed principal proof does not bind this operation")
  | .production | .development => pure ()

/-- `isinstance(operation_id, str) and 16 <= len(operation_id) <= 128`. -/
def isOperationId : Value → Bool
  | .str s => 16 ≤ s.codes.length && s.codes.length ≤ 128
  | _ => false

/-- `canonical_payload`. -/
def canonicalPayload (agentId nonce : String) (body : Bytes) : Bytes :=
  (agentId ++ "\n" ++ nonce ++ "\n" ++ L.sha256 body).toUTF8.toList

/-- Without an authority, the signature is over the payload of this very body. -/
def Gateway.hasProof : Bool :=
  (c.signedBody.bind L.loadBody).any c.matches &&
    c.signedNonce.any fun nonce => c.signedBody.any fun body => c.signedData.any fun data =>
      data = canonicalPayload L c.agentId nonce body &&
        c.signature.any fun signature => g.verifySignature c.agentId data signature

/-- What tenant mode and production ask for. -/
def Gateway.checkProof : Except Refusal Unit := do
  require (g.mode = .development || isOperationId c.operationId)
    (.governanceError "durable operation_id required in production")
  require (g.mode ≠ .production || g.hasProof L c)
    (.governanceError "request-bound signed agent proof required")

/-- The known operations. -/
def Gateway.checkLedger (requestScope : String) : Except Refusal Unit :=
  match c.operationId with
  | .str operationId =>
    match g.ledger c.agentId operationId with
    | none => pure ()
    | some (fingerprint, state) =>
      throw (.operationConflict (if fingerprint ≠ requestScope then
        "idempotency key reused for different request"
        else "existing operation is " ++ state ++ "; no automatic replay"))
  | _ => pure ()

/-- `principal.binding()`, with an authority. -/
def Gateway.authorityOf : Option Value :=
  match g.mode with
  | .tenant _ => c.principal.map fun p => Ownership.toValue p.binding
  | .production | .development => none

/-- What the fingerprint is made from. -/
def material (cost : BitVec 64) (authority : Option Value) : Value :=
  .object (("agent_id", .text c.agentId) :: ("cost", .float cost) :: c.members ++
    authority.toList.map fun binding => ("authority", binding))

/-- The request fingerprint. -/
def requestScope (cost : BitVec 64) (authority : Option Value) : String :=
  L.sha256 (((material c cost authority).dumps L.floatText).map fun ch => ch.toNat.toUInt8)

/-- `_admit_guarded`. -/
def Gateway.admitGuarded : Except Refusal Admission := do
  g.checkMode
  let cost ← (L.checkedCost c.cost).elim
    (throw (.valueError "cost must be a finite, nonnegative number")) pure
  g.checkPrincipal L c
  let src ← registryGet c.srcProto
  let dst ← registryGet c.dstProto
  let canonical ← (src.toCanonicalCall L.runtime c.fresh c.srcWire).mapError .malformed
  g.checkAuthority L c canonical.capability
  require (material c cost (g.authorityOf c)).isFinite
    (.valueError "Out of range float values are not JSON compliant")
  let scope := requestScope L c cost (g.authorityOf c)
  g.checkProof L c
  g.checkLedger c scope
  let decision := g.policy c canonical.capability cost scope
  require decision.allowed (.governanceError decision.reason)
  let wire ← (translateCall L.runtime c.fresh c.srcWire src dst).mapError .malformed
  let token ← (g.transaction c canonical.capability cost scope).mapError .governanceError
  return ⟨canonical.capability, cost, scope, wire, token⟩

end Checks

/-! ### What was compared -/

/-- Equal numbers at the same place of body and call are of one kind. -/
def Invocation.Exact (c : Invocation) (body : Value) : Prop :=
  ∀ m ∈ c.members, (member body m.1).alike m.2 = true

section Compared

variable {L : Library} {g : Gateway} {c : Invocation} {a : Admission} {body : Value}

/-- An admitted call has the scope of its values. -/
theorem requestScope_eq (h : g.admitGuarded L c = .ok a) :
    a.requestScope = requestScope L c a.cost (g.authorityOf c) := by
  simp only [Gateway.admitGuarded, bind_eq_ok, pure_eq_ok] at h
  obtain ⟨-, -, cost, -, -, -, src, -, dst, -, call, -, -, -, -, -, -, -, -, -, -, -, wire, -,
    token, -, rfl⟩ := h
  rfl

/-- The checks that an admitted call has passed after its fingerprint was made. -/
theorem checks_of_admitGuarded (h : g.admitGuarded L c = .ok a) :
    g.checkAuthority L c a.capability = .ok () ∧ g.checkProof L c = .ok () := by
  simp only [Gateway.admitGuarded, bind_eq_ok, pure_eq_ok] at h
  obtain ⟨_, _, cost, _, _, _, src, _, dst, _, call, _, _, hauthority, _, _, _, hproof, _, _, _, _,
    wire, _, token, _, rfl⟩ := h
  exact ⟨hauthority, hproof⟩

/-- In tenant mode and in production, the signed body was compared with the call. -/
theorem matches_of_admitGuarded (hmode : g.mode ≠ .development)
    (h : g.admitGuarded L c = .ok a) :
    ∃ bytes body, c.signedBody = some bytes ∧ L.loadBody bytes = some body ∧
      c.matches body = true := by
  obtain ⟨hauthority, hproof⟩ := checks_of_admitGuarded h
  have hmatches : (c.signedBody.bind L.loadBody).any c.matches = true := by
    cases hg : g.mode with
    | tenant tenantId =>
      rw [Gateway.checkAuthority, hg] at hauthority
      simp only [bind_eq_ok, require_eq_ok] at hauthority
      obtain ⟨-, -, -, -, -, -, hbody⟩ := hauthority
      exact hbody
    | production =>
      simp only [Gateway.checkProof, bind_eq_ok, require_eq_ok] at hproof
      obtain ⟨-, -, hproof⟩ := hproof
      have hhas : g.hasProof L c = true := by simpa [hg] using hproof
      rw [Gateway.hasProof, Bool.and_eq_true] at hhas
      exact hhas.1
    | development => exact absurd hg hmode
  obtain ⟨body, hbody, hmatch⟩ := (Option.any_eq_true _ _).mp hmatches
  obtain ⟨bytes, hbytes, hload⟩ := Option.bind_eq_some_iff.mp hbody
  exact ⟨bytes, body, hbytes, hload, hmatch⟩

theorem unique_member (h : body.Unique) (key : String) : (member body key).Unique := by
  rw [member]
  cases hfind : body.find key with
  | none => exact .null
  | some v =>
    cases h with
    | dict _ hitems => exact hitems _ (mem_of_lookup hfind)
    | _ => cases hfind

theorem eq_member (hmatches : c.matches body = true) {m : String × Value} (hm : m ∈ c.members) :
    (member body m.1).eq m.2 = true := by
  rw [Invocation.matches, Bool.and_eq_true, all_eq_true] at hmatches
  exact hmatches.2 m hm

/-- The members of the body have the texts of the values that they were compared with. -/
theorem dumps_member (hunique : body.Unique) (hmatches : c.matches body = true)
    (hexact : c.Exact body) {m : String × Value} (hm : m ∈ c.members) :
    (member body m.1).dumps L.floatText = m.2.dumps L.floatText :=
  dumps_eq_of_eq (unique_member hunique m.1) m.2 (eq_member hmatches hm) (hexact m hm)

/-- The fingerprint depends on the texts of the members only. -/
theorem requestScope_congr {c c' : Invocation} (cost : BitVec 64) (authority : Option Value)
    (hagent : c.agentId = c'.agentId)
    (hmembers : c.members.map (fun m => m.2.dumps L.floatText) =
      c'.members.map fun m => m.2.dumps L.floatText) :
    requestScope L c cost authority = requestScope L c' cost authority := by
  have hmaterial : (material c cost authority).dumps L.floatText =
      (material c' cost authority).dumps L.floatText := by
    simp only [Invocation.members, map_cons, List.cons.injEq] at hmembers
    obtain ⟨hsrc, hdst, hwire, htarget, hoperation, -⟩ := hmembers
    simp only [dumps] at hsrc hdst
    simp only [material, Value.object, dumps, dumpsItems_eq_map, Invocation.members, hagent,
      map_append, map_cons, cons_append, hsrc, hdst, hwire, htarget, hoperation]
  rw [requestScope, requestScope, hmaterial]

end Compared

/-- **The signed bytes determine the action** of exact calls, and of no others: in tenant mode and in
production, every admitted call has a signed body, and the members of the body that name the
operation have the texts of the values that are authorized, fingerprinted and translated exactly if
the call is exact. Two admitted exact calls of one agent with the same body, cost and authority have
the same fingerprint, whatever else has changed in between. -/
theorem signed_body_determines_scope (L : Library) (hrepr : IsRepr L.floatText) (g g' : Gateway)
    (c c' : Invocation) (a a' : Admission) (hmode : g.mode ≠ .development)
    (hmode' : g'.mode ≠ .development) (h : g.admitGuarded L c = .ok a)
    (h' : g'.admitGuarded L c' = .ok a') :
    ∃ bytes body, c.signedBody = some bytes ∧ L.loadBody bytes = some body ∧
      ((∀ m ∈ c.members, m.2.dumps L.floatText = (member body m.1).dumps L.floatText) ↔
        c.Exact body) ∧
      (c'.agentId = c.agentId → c'.signedBody = c.signedBody → a'.cost = a.cost →
        g'.authorityOf c' = g.authorityOf c → c.Exact body → c'.Exact body →
          a'.requestScope = a.requestScope) := by
  obtain ⟨bytes, body, hbytes, hload, hmatches⟩ := matches_of_admitGuarded hmode h
  have hunique := L.loadBody_unique bytes body hload
  refine ⟨bytes, body, hbytes, hload, ?_, ?_⟩
  · refine ⟨fun htexts m hm => ?_, fun hexact m hm => (dumps_member hunique hmatches hexact hm).symm⟩
    exact alike_of_dumps_eq hrepr (unique_member hunique m.1) (eq_member hmatches hm)
      (htexts m hm).symm
  intro hagent hsigned hcost hauthority hexact hexact'
  -- both calls were compared with the same body
  obtain ⟨bytes', body', hbytes', hload', hmatches'⟩ := matches_of_admitGuarded hmode' h'
  obtain rfl : bytes' = bytes := by
    rw [hsigned, hbytes] at hbytes'
    exact (Option.some.inj hbytes').symm
  obtain rfl : body' = body := by
    rw [hload] at hload'
    exact (Option.some.inj hload').symm
  have htexts : ∀ m ∈ c.members, (member body' m.1).dumps L.floatText = m.2.dumps L.floatText :=
    fun m hm => dumps_member hunique hmatches hexact hm
  have htexts' : ∀ m ∈ c'.members, (member body' m.1).dumps L.floatText = m.2.dumps L.floatText :=
    fun m hm => dumps_member hunique hmatches' hexact' hm
  rw [requestScope_eq h, requestScope_eq h', hcost, hauthority]
  refine requestScope_congr _ _ hagent ?_
  rw [← map_congr_left htexts, ← map_congr_left htexts']
  rfl

/-! ### One body, two actions -/

/-- An MCP request with one argument. -/
def flagWire (flag : Value) : Value :=
  .object [("params", .object [("name", .text "add"), ("arguments", .object [("flag", flag)])])]

/-- The operation identifier. -/
def sampleOperation : Value := .text "operation-000001"

/-- The body that was signed. -/
def flagBody : Value :=
  .object [("src", .text "mcp"), ("dst", .text "mcp"), ("wire", flagWire (.bool true)),
    ("target_id", .null), ("operation_id", sampleOperation)]

theorem unique_object {items : List (String × Value)} (hkeys : (items.map Prod.fst).Nodup)
    (h : ∀ item ∈ items, item.2.Unique) : (Value.object items).Unique := by
  refine .dict ?_ fun item hmem => ?_
  · rw [map_map]
    have hinj : Function.Injective PyString.ofString := fun _ _ h => PyString.ofString_inj.mp h
    have hmap : (items.map Prod.fst).map PyString.ofString =
        items.map (Prod.fst ∘ fun item : String × Value => (PyString.ofString item.1, item.2)) := by
      rw [map_map]
      rfl
    rw [← hmap]
    exact hkeys.map hinj
  · obtain ⟨item', hmem', rfl⟩ := mem_map.mp hmem
    exact h item' hmem'

theorem unique_flagBody : flagBody.Unique := by
  refine unique_object (by decide) ?_
  have hflag : (flagWire (.bool true)).Unique := by
    refine unique_object (by decide) ?_
    rw [forall_mem_singleton]
    refine unique_object (by decide) ?_
    rw [forall_mem_cons, forall_mem_singleton]
    refine ⟨.str _, unique_object (by decide) ?_⟩
    rw [forall_mem_singleton]
    exact .bool true
  simp only [forall_mem_cons, not_mem_nil, false_implies, implies_true, and_true]
  exact ⟨.str _, .str _, hflag, .null, .str _⟩

/-- The signed bytes. -/
def flagBytes : Bytes := (flagBody.dumps sampleFloat).map fun ch => ch.toNat.toUInt8

/-- `json.loads` of the signed bytes only; a digest is the length of what it is taken of. -/
def sampleLibrary : Library where
  runtime := sampleRuntime
  floatText := sampleFloat
  loadBody bytes := if bytes = flagBytes then some flagBody else none
  loadBody_unique := by
    intro bytes body h
    split at h
    case isTrue =>
      cases h
      exact unique_flagBody
    case isFalse => cases h
  sha256 bytes := String.ofList (Nat.toDigits 10 bytes.length)
  checkedCost cost := if cost.eq (.int 0) then some 0 else none

/-- A gateway in production that knows no operation and whose policy allows everything. -/
def sampleGateway : Gateway where
  mode := .production
  isLegacy := true
  assertCurrent _ := .ok ()
  verifySignature _ _ _ := true
  ledger _ _ := none
  policy _ _ _ _ := ⟨true, "allowed", false⟩
  transaction _ _ _ _ := .ok "token"

/-- The call with the argument that the caller has in memory. -/
def flagCall (flag : Value) : Invocation where
  agentId := "agent"
  srcProto := .ofString "mcp"
  dstProto := .ofString "mcp"
  srcWire := flagWire flag
  cost := .int 0
  operationId := sampleOperation
  signedData := some (canonicalPayload sampleLibrary "agent" "nonce" flagBytes)
  signature := some []
  signedBody := some flagBytes
  signedNonce := some "nonce"
  fresh := sampleFresh

/-- Cost and fingerprint of the call, if it is admitted. -/
def flagScope (flag : Value) : Option (BitVec 64 × String) :=
  (sampleGateway.admitGuarded sampleLibrary (flagCall flag)).toOption.map fun a =>
    (a.cost, a.requestScope)

theorem admitted_of_flagScope {flag : Value} {scope : BitVec 64 × String}
    (h : flagScope flag = some scope) :
    ∃ a, sampleGateway.admitGuarded sampleLibrary (flagCall flag) = .ok a ∧
      a.cost = scope.1 ∧ a.requestScope = scope.2 := by
  unfold flagScope at h
  cases hcall : sampleGateway.admitGuarded sampleLibrary (flagCall flag) with
  | error e =>
    rw [hcall] at h
    cases h
  | ok a =>
    rw [hcall] at h
    cases h
    exact ⟨a, rfl, rfl, rfl⟩

/-- The call with the signed argument. -/
theorem signed_body_determines_scope_sample :
    ∃ a bytes body, sampleGateway.admitGuarded sampleLibrary (flagCall (.bool true)) = .ok a ∧
      (flagCall (.bool true)).signedBody = some bytes ∧ sampleLibrary.loadBody bytes = some body ∧
      ∀ m ∈ (flagCall (.bool true)).members, m.2.dumps sampleLibrary.floatText =
        (member body m.1).dumps sampleLibrary.floatText := by
  have hscope : flagScope (.bool true) = some (0, "165") := by decide +kernel
  obtain ⟨a, hadmitted, -⟩ := admitted_of_flagScope hscope
  obtain ⟨bytes, body, hbytes, hload, htexts, -⟩ := signed_body_determines_scope sampleLibrary
    isRepr_sampleFloat sampleGateway sampleGateway _ _ a a nofun nofun hadmitted hadmitted
  refine ⟨a, bytes, body, hadmitted, hbytes, hload, htexts.mpr ?_⟩
  cases hbytes
  have hflag : sampleLibrary.loadBody flagBytes = some flagBody := by simp [sampleLibrary]
  obtain rfl : flagBody = body := Option.some.inj (hflag.symm.trans hload)
  have hall : (flagCall (.bool true)).members.all
      (fun m => (member flagBody m.1).alike m.2) = true := by decide +kernel
  exact all_eq_true.mp hall

/-- `True` was signed. The call with `1` is admitted with the same body, and its fingerprint is
another one. -/
theorem signed_true_admits_one :
    ∃ a a', sampleGateway.admitGuarded sampleLibrary (flagCall (.bool true)) = .ok a ∧
      sampleGateway.admitGuarded sampleLibrary (flagCall (.int 1)) = .ok a' ∧
      (flagCall (.int 1)).signedBody = (flagCall (.bool true)).signedBody ∧ a'.cost = a.cost ∧
      a'.requestScope ≠ a.requestScope := by
  obtain ⟨a, hadmitted, hcost, hscope⟩ := admitted_of_flagScope
    (show flagScope (.bool true) = some (0, "165") by decide +kernel)
  obtain ⟨a', hadmitted', hcost', hscope'⟩ := admitted_of_flagScope
    (show flagScope (.int 1) = some (0, "162") by decide +kernel)
  refine ⟨a, a', hadmitted, hadmitted', rfl, hcost'.trans hcost.symm, ?_⟩
  rw [hscope, hscope']
  decide

end AgentBridge.Signed
