import AgentBridge.Authority.Basic
import AgentBridge.LTS.Basic

/-!
# Directory operations as a transition system

Each mutation of `AuthorityDirectory` runs in one serialized transaction, so it is one step
on the tables. Three entry points check their input *before* the transaction starts:
`authenticate_operator`, `authenticate_agent` and `grant_delegation`. For them the state
keeps the calls that have passed the check and have not yet committed, so that every other
operation may come in between.
-/

namespace AgentBridge

namespace Authority

/-- The claims of a verified operator token that the directory reads. -/
structure Claims where
  sub : Option String
  iss : Option String
  exp : Option Time
  /-- The tenant claim: absent, or present with a value that may be null. -/
  tenantId : Option (Option String)

/-- The document an agent signs (`canonical_tenant_payload`). -/
structure Payload where
  tenantId : String
  agentId : String
  delegationId : Option String
  nonce : String
  bodySha256 : String
  deriving DecidableEq, Repr

/-- Configured issuers, and the primitives the directory calls. -/
structure Config where
  /-- The keys of `verifiers`. -/
  issuers : List String
  /-- `OidcVerifier.verify` of an issuer; `none` when it raises. -/
  verify : String → String → Option Claims
  sha256 : List UInt8 → String
  /-- `Ed25519PublicKey.from_public_bytes` accepts the key. -/
  ed25519Key : String → Bool
  ed25519Verify : String → String → Payload → Bool
  /-- `float`, when it returns a finite value. -/
  parseFloat : String → Option Time

/-! ### Mutations -/

/-- The revision written by an upsert: `1` for a new row, the old one plus `1` otherwise. -/
def nextRevision {R : Type} (revision : R → ℕ) : Option R → ℕ
  | none => 1
  | some row => revision row + 1

section Mutations

variable (cfg : Config) (d : Directory) (minted : List Principal) (r : Reads)

/-- `bootstrap_platform_admin`. -/
def bootstrapPlatformAdmin (issuer subj : String) : Except Fault Directory := do
  require (cfg.issuers.contains issuer) (.valueError "trusted issuer required")
  subject subj
  require d.platformAdmins.entries.isEmpty
    (.authorityDenied "platform bootstrap is permanently closed")
  return { d with platformAdmins := d.platformAdmins.insert (issuer, subj) ⟨1, true⟩ }

/-- `set_tenant`. -/
def setTenant (actor : Principal) (tenantId : String) (active : Bool) :
    Except Fault Directory := do
  identifier tenantId "tenant_id"
  admin d minted r actor none
  let revision := nextRevision Enrollment.revision (d.tenants.lookup tenantId)
  return { d with tenants := d.tenants.insert tenantId ⟨revision, active⟩ }

/-- `enroll_platform_admin`. -/
def enrollPlatformAdmin (actor : Principal) (issuer subj : String) :
    Except Fault Directory := do
  require (cfg.issuers.contains issuer) (.valueError "trusted issuer required")
  subject subj
  admin d minted r actor none
  let revision := nextRevision Enrollment.revision (d.platformAdmins.lookup (issuer, subj))
  return { d with platformAdmins := d.platformAdmins.insert (issuer, subj) ⟨revision, true⟩ }

/-- `revoke_platform_admin`. -/
def revokePlatformAdmin (actor : Principal) (issuer subj : String) :
    Except Fault Directory := do
  admin d minted r actor none
  let row ← d.platform issuer subj
  require (decide (1 < (d.platformAdmins.entries.filter fun e => e.2.active).length))
    (.authorityDenied "cannot revoke the last active platform administrator")
  return { d with
    platformAdmins := d.platformAdmins.insert (issuer, subj) ⟨row.revision + 1, false⟩ }

/-- `enroll_member`. -/
def enrollMember (actor : Principal) (tenantId issuer subj : String) (role : Role)
    (capabilities targets : List String) : Except Fault Directory := do
  identifier tenantId "tenant_id"
  subject subj
  require (cfg.issuers.contains issuer)
    (.valueError "enrolled tenant role and configured issuer required")
  let capabilities ← scopes capabilities
  let targets ← scopes targets
  admin d minted r actor (some tenantId)
  let _ ← d.tenant (some tenantId)
  let revision := nextRevision (fun m : MemberRow => m.revision)
    (d.members.lookup (tenantId, issuer, subj))
  return { d with
    members := d.members.insert (tenantId, issuer, subj)
      { revision, active := true, role, capabilities, targets } }

/-- `enroll_agent`. -/
def enrollAgent (actor : Principal) (tenantId agentId publicKeyHex : String)
    (capabilities targets : List String) : Except Fault Directory := do
  identifier tenantId "tenant_id"
  identifier agentId "agent_id"
  require (isHex 64 publicKeyHex && cfg.ed25519Key publicKeyHex)
    (.valueError "32-byte Ed25519 enrollment key required")
  let capabilities ← scopes capabilities
  let targets ← scopes targets
  admin d minted r actor (some tenantId)
  let _ ← d.tenant (some tenantId)
  let revision :=
    nextRevision (fun a : AgentRow => a.revision) (d.agents.lookup (tenantId, agentId))
  return { d with
    agents := d.agents.insert (tenantId, agentId)
      { revision, active := true, publicKeyHex := publicKeyHex.toLower, capabilities, targets } }

/-- `revoke_agent`. -/
def revokeAgent (actor : Principal) (tenantId agentId : String) : Except Fault Directory := do
  admin d minted r actor (some tenantId)
  let row ← d.agent (some tenantId) (some agentId)
  return { d with
    agents := d.agents.insert (tenantId, agentId)
      { row with revision := row.revision + 1, active := false } }

/-- `revoke_member`. -/
def revokeMember (actor : Principal) (tenantId issuer subj : String) :
    Except Fault Directory := do
  admin d minted r actor (some tenantId)
  let row ← d.member (some tenantId) issuer subj
  return { d with
    members := d.members.insert (tenantId, issuer, subj)
      { row with revision := row.revision + 1, active := false } }

/-- `revoke_delegation`. -/
def revokeDelegation (actor : Principal) (tenantId grantId : String) :
    Except Fault Directory := do
  admin d minted r actor (some tenantId)
  match d.delegations.lookup (tenantId, grantId) with
  | none => throw (.authorityDenied "delegation unavailable")
  | some row =>
    return { d with
      delegations := d.delegations.insert (tenantId, grantId)
        { row with revision := row.revision + 1, active := false } }

/-- The claims `prune_replays` deletes: the oldest ones made over 600 seconds ago. -/
def staleReplays (now : Time) (limit : ℕ) : List (String × String × String) :=
  (((d.replays.entries.filter fun e => decide (e.2 < now - 600)).insertionSort
    fun e e' => e.2 ≤ e'.2).take limit).map Sigma.fst

/-- `prune_replays`. -/
def pruneReplays (actor : Principal) (limit : ℕ) : Except Fault Directory := do
  require (1 ≤ limit && limit ≤ 10000) (.valueError "bounded replay retention batch required")
  admin d minted r actor none
  return { d with
    replays := (staleReplays d r.second limit).foldl (fun t k => t.erase k) d.replays }

end Mutations

/-! ### Calls that check before their transaction -/

/-- A verified operator token waiting for its enrollment lookup. -/
structure OperatorCall where
  issuer : String
  subject : String
  tenantId : Option String
  expires : Time
  deriving DecidableEq, Repr

/-- The arguments of `authenticate_agent`. -/
structure SignedRequest where
  tenantId : String
  agentId : String
  nonce : String
  body : List UInt8
  signatureHex : String
  delegationId : Option String
  deriving DecidableEq, Repr

/-- A signed request that has passed the freshness check. -/
structure AgentCall where
  request : SignedRequest
  payload : Payload
  stamp : Time
  deriving DecidableEq, Repr

/-- The arguments of `grant_delegation`. -/
structure DelegationRequest where
  actor : Principal
  user : Principal
  agentId : String
  capabilities : List String
  targets : List String
  expiresAt : Time
  notBefore : Option Time
  deriving DecidableEq, Repr

/-- A delegation request that has passed the consent check. -/
structure DelegationCall where
  actor : Principal
  user : Principal
  tenantId : String
  agentId : String
  capabilities : List String
  targets : List String
  notBefore : Time
  expiresAt : Time
  madeAt : Time
  deriving DecidableEq, Repr

/-- A call in flight. -/
inductive Call
  | operator (call : OperatorCall)
  | agent (call : AgentCall)
  | delegation (call : DelegationCall)
  deriving DecidableEq, Repr

/-- The token checks of `authenticate_operator`, before its transaction. -/
def beginOperator (cfg : Config) (now : Time) (issuer token : String)
    (tenantId : Option String) : Except Fault OperatorCall := do
  require (cfg.issuers.contains issuer && 1 ≤ token.length && token.length ≤ 16384)
    (.authorityDenied "trusted issuer and bounded signed token required")
  let invalid : Fault := .authorityDenied "operator token is not valid for enrolled authority"
  match cfg.verify issuer token with
  | some ⟨some sub, iss, some expires, tenantClaim⟩ =>
    (subject sub).mapError fun _ => invalid
    require (now < expires && iss == some issuer && tenantClaim.all (· == tenantId) &&
      tenantId.all isIdentifier) invalid
    return ⟨issuer, sub, tenantId, expires⟩
  | _ => throw invalid

/-- The enrollment lookup of `authenticate_operator`. -/
def mintOperator (d : Directory) (c : OperatorCall) : Except Fault Principal := do
  match c.tenantId with
  | none =>
    let row ← d.platform c.issuer c.subject
    return { tenantId := none, subject := c.subject, issuer := c.issuer, kind := .platformAdmin,
             revision := row.revision, validUntil := c.expires }
  | some tenantId =>
    let tenant ← d.tenant (some tenantId)
    let row ← d.member (some tenantId) c.issuer c.subject
    return { tenantId := some tenantId, subject := c.subject, issuer := c.issuer,
             kind := .member row.role, revision := row.revision,
             tenantRevision := tenant.revision, validUntil := c.expires,
             capabilities := row.capabilities, targets := row.targets }

/-- `canonical_tenant_payload`. -/
def canonicalTenantPayload (cfg : Config) (q : SignedRequest) : Except Fault Payload := do
  identifier q.tenantId "tenant_id"
  identifier q.agentId "agent_id"
  if let some grantId := q.delegationId then
    identifier grantId "delegation_id"
  return ⟨q.tenantId, q.agentId, q.delegationId, q.nonce, cfg.sha256 q.body⟩

/-- The timestamp and the random part of a nonce, split at its first colon. -/
def splitNonce (cfg : Config) (nonce : String) : Option (Time × List Char) :=
  match nonce.toList.span (· != ':') with
  | (stamp, ':' :: random) => (cfg.parseFloat (String.ofList stamp)).map fun t => (t, random)
  | _ => none

/-- The freshness check of `authenticate_agent`, before its transaction. -/
def beginAgent (cfg : Config) (now : Time) (q : SignedRequest) : Except Fault AgentCall := do
  let invalid : Fault := .authorityDenied "invalid signed tenant request"
  require (q.body.length ≤ 1048576 && q.nonce.length ≤ 256 && isHex 128 q.signatureHex) invalid
  let payload ← (canonicalTenantPayload cfg q).mapError fun _ => invalid
  match splitNonce cfg q.nonce with
  | none => throw invalid
  | some (stamp, random) =>
    require (|now - stamp| ≤ 300 && 16 ≤ random.length) invalid
    return ⟨q, payload, stamp⟩

/-- `_agent_principal`: the context derived from validated rows. -/
def agentPrincipal (tenantId : String) (tenant : Enrollment) (agentId : String)
    (agent : AgentRow) (grant : Option (String × DelegationRow)) (validUntil : Time)
    (requestBodySha256 requestNonce : String) : Principal :=
  match grant with
  | some (grantId, g) =>
    { tenantId := some tenantId, tenantRevision := tenant.revision,
      agentId := some agentId, agentRevision := agent.revision, revision := agent.revision,
      requestBodySha256, requestNonce,
      subject := g.userSubject, issuer := g.userIssuer, kind := .delegatedHuman,
      delegationId := some grantId, delegationRevision := g.revision,
      userRevision := g.userRevision, grantorRevision := g.grantorRevision,
      validUntil := min g.expiresAt validUntil,
      capabilities := g.capabilities, targets := g.targets }
  | none =>
    { tenantId := some tenantId, tenantRevision := tenant.revision,
      agentId := some agentId, agentRevision := agent.revision, revision := agent.revision,
      requestBodySha256, requestNonce,
      subject := agentId, issuer := "urn:agentbridge:enrollment", kind := .machine,
      validUntil, capabilities := agent.capabilities, targets := agent.targets }

/-- The optional delegation of an agent request. -/
def optionalGrant (d : Directory) (now : Time) (tenantId : String) (grantId : Option String)
    (agentId : String) (agent : AgentRow) : Except Fault (Option (String × DelegationRow)) := do
  match grantId with
  | none => return none
  | some g =>
    let row ← d.grant now (some tenantId) (some g) (some agentId) agent
    return some (g, row)

/-- The transaction of `authenticate_agent`: check the enrollment and the signature, claim
the nonce, derive the principal. -/
def authenticateAgent (cfg : Config) (d : Directory) (r : Reads) (c : AgentCall) :
    Except Fault (Directory × Principal) := do
  let q := c.request
  let tenant ← d.tenant (some q.tenantId)
  let agent ← d.agent (some q.tenantId) (some q.agentId)
  require (cfg.ed25519Verify agent.publicKeyHex q.signatureHex c.payload)
    (.authorityDenied "enrolled request signature required")
  let grant ← optionalGrant d r.first q.tenantId q.delegationId q.agentId agent
  let replays ← d.replays.insertNew (q.tenantId, q.agentId, q.nonce) r.second
    (.authorityDenied "signed request replay denied")
  return ({ d with replays },
    agentPrincipal q.tenantId tenant q.agentId agent grant (c.stamp + 300)
      (cfg.sha256 q.body) q.nonce)

/-- The minting part of `_derive`: a queued context from the rows of a retained intent. -/
def derivePrincipal (d : Directory) (now : Time) (tenantId agentId : String)
    (grantId : Option String) (validUntil : Time) : Except Fault Principal := do
  let tenant ← d.tenant (some tenantId)
  let agent ← d.agent (some tenantId) (some agentId)
  let grant ← optionalGrant d now tenantId grantId agentId agent
  return agentPrincipal tenantId tenant agentId agent grant validUntil "" ""

/-- The consent checks of `grant_delegation`, before its transaction. -/
def beginDelegation (minted : List Principal) (r : Reads) (q : DelegationRequest) :
    Except Fault DelegationCall := do
  verifySeal minted r.first q.user
  match q.user.kind, q.user.tenantId with
  | .member _, some tenantId =>
    let capabilities ← scopes q.capabilities
    let targets ← scopes q.targets
    let now := r.second
    let notBefore := q.notBefore.getD now
    require (now ≤ notBefore && notBefore < q.expiresAt &&
        q.expiresAt ≤ min q.user.validUntil (now + 3600))
      (.valueError "bounded delegation inside authenticated consent lifetime required")
    return { actor := q.actor, user := q.user, tenantId, agentId := q.agentId, capabilities,
             targets, notBefore, expiresAt := q.expiresAt, madeAt := now }
  | _, _ => throw (.authorityDenied "authenticated tenant user consent context required")

/-- The transaction of `grant_delegation`, with the fresh grant id. -/
def grantDelegation (d : Directory) (minted : List Principal) (r : Reads) (c : DelegationCall)
    (grantId : String) : Except Fault Directory := do
  admin d minted r c.actor (some c.tenantId)
  current d minted ⟨r.second, r.second⟩ c.user
  identifier c.agentId "agent_id"
  let agent ← d.agent (some c.tenantId) (some c.agentId)
  require (!c.capabilities.isEmpty &&
      c.capabilities.all (fun x =>
        c.user.capabilities.contains x && agent.capabilities.contains x) &&
      c.targets.all (fun x => c.user.targets.contains x && agent.targets.contains x))
    (.authorityDenied "delegation exceeds enrolled user or agent scopes")
  let delegations ← d.delegations.insertNew (c.tenantId, grantId)
    { revision := 1, active := true, agentId := c.agentId, agentRevision := agent.revision,
      userIssuer := c.user.issuer, userSubject := c.user.subject,
      userRevision := c.user.revision, grantorIssuer := c.actor.issuer,
      grantorSubject := c.actor.subject, grantorKind := c.actor.kind,
      grantorRevision := c.actor.revision, capabilities := c.capabilities, targets := c.targets,
      notBefore := c.notBefore, expiresAt := c.expiresAt,
      tenantRevision := c.user.tenantRevision }
    (.integrityError "authority_delegations")
  return { d with delegations }

/-! ### The transition system -/

/-- How a grant came about: when the call was made and under which consent. -/
structure Origin where
  madeAt : Time
  consent : Principal
  deriving DecidableEq, Repr

/-- The directory with its sealed contexts and its calls in flight. -/
structure State where
  dir : Directory := {}
  /-- The contexts sealed under the directory's key. -/
  minted : List Principal := []
  calls : List Call := []
  /-- History: the contexts minted for signed requests, in order. -/
  requests : List Principal := []
  /-- History: the origin of each grant. -/
  origins : Table (String × String) Origin := ∅

/-- The operations of the directory. -/
inductive Action
  | bootstrapPlatformAdmin (issuer subject : String)
  | setTenant (actor : Principal) (tenantId : String) (active : Bool)
  | enrollPlatformAdmin (actor : Principal) (issuer subject : String)
  | revokePlatformAdmin (actor : Principal) (issuer subject : String)
  | enrollMember (actor : Principal) (tenantId issuer subject : String) (role : Role)
      (capabilities targets : List String)
  | enrollAgent (actor : Principal) (tenantId agentId publicKeyHex : String)
      (capabilities targets : List String)
  | revokeAgent (actor : Principal) (tenantId agentId : String)
  | revokeMember (actor : Principal) (tenantId issuer subject : String)
  | revokeDelegation (actor : Principal) (tenantId grantId : String)
  | pruneReplays (actor : Principal) (limit : ℕ)
  /-- The private minting of a queued context. -/
  | derive (tenantId agentId : String) (grantId : Option String) (validUntil : Time)
  | beginOperator (issuer token : String) (tenantId : Option String)
  | beginAgent (request : SignedRequest)
  | beginDelegation (request : DelegationRequest)
  /-- The transaction of the call at this position; a delegation draws a grant id. -/
  | commit (position : ℕ) (grantId : String)

/-- An operation with the clock readings it makes. -/
structure Event where
  action : Action
  reads : Reads

/-- Seal a new context. -/
def State.mint (s : State) (p : Principal) : State := { s with minted := s.minted ++ [p] }

/-- The transaction of a call in flight. -/
def commitCall (cfg : Config) (s : State) (r : Reads) (grantId : String) :
    Call → Except Fault State
  | .operator c => do
    let p ← mintOperator s.dir c
    return s.mint p
  | .agent c => do
    let (dir, p) ← authenticateAgent cfg s.dir r c
    return { s.mint p with dir, requests := s.requests ++ [p] }
  | .delegation c => do
    let dir ← grantDelegation s.dir s.minted r c grantId
    return { s with dir, origins := s.origins.insert (c.tenantId, grantId) ⟨c.madeAt, c.user⟩ }

/-- Perform one operation. -/
def exec (cfg : Config) (s : State) (e : Event) : Except Fault State := do
  let r := e.reads
  match e.action with
  | .bootstrapPlatformAdmin issuer subj =>
    return { s with dir := ← bootstrapPlatformAdmin cfg s.dir issuer subj }
  | .setTenant actor tenantId active =>
    return { s with dir := ← setTenant s.dir s.minted r actor tenantId active }
  | .enrollPlatformAdmin actor issuer subj =>
    return { s with dir := ← enrollPlatformAdmin cfg s.dir s.minted r actor issuer subj }
  | .revokePlatformAdmin actor issuer subj =>
    return { s with dir := ← revokePlatformAdmin s.dir s.minted r actor issuer subj }
  | .enrollMember actor tenantId issuer subj role capabilities targets =>
    return { s with dir := ← enrollMember cfg s.dir s.minted r actor tenantId issuer subj role
                              capabilities targets }
  | .enrollAgent actor tenantId agentId publicKeyHex capabilities targets =>
    return { s with dir := ← enrollAgent cfg s.dir s.minted r actor tenantId agentId publicKeyHex
                              capabilities targets }
  | .revokeAgent actor tenantId agentId =>
    return { s with dir := ← revokeAgent s.dir s.minted r actor tenantId agentId }
  | .revokeMember actor tenantId issuer subj =>
    return { s with dir := ← revokeMember s.dir s.minted r actor tenantId issuer subj }
  | .revokeDelegation actor tenantId grantId =>
    return { s with dir := ← revokeDelegation s.dir s.minted r actor tenantId grantId }
  | .pruneReplays actor limit =>
    return { s with dir := ← pruneReplays s.dir s.minted r actor limit }
  | .derive tenantId agentId grantId validUntil =>
    return s.mint (← derivePrincipal s.dir r.second tenantId agentId grantId validUntil)
  | .beginOperator issuer token tenantId =>
    return { s with calls := s.calls ++ [.operator (← beginOperator cfg r.first issuer token
                                                        tenantId)] }
  | .beginAgent request =>
    return { s with calls := s.calls ++ [.agent (← beginAgent cfg r.first request)] }
  | .beginDelegation request =>
    return { s with calls := s.calls ++ [.delegation (← beginDelegation s.minted r request)] }
  | .commit position grantId =>
    match s.calls[position]? with
    | none => throw (.runtimeError "no such call")
    | some call =>
      let s' ← commitCall cfg s r grantId call
      return { s' with calls := s.calls.eraseIdx position }

/-- The directory as a transition system. -/
def system (cfg : Config) : LTS State Event := LTS.ofExec (exec cfg)

/-! ### A small deployment

One tenant, one agent and one delegation; the results below are evaluated on it. -/

/-- One issuer with two operators; keys and signatures are accepted. -/
def sampleConfig : Config where
  issuers := ["https://idp.example"]
  verify _ token :=
    if token = "root-token" then
      some ⟨some "root", some "https://idp.example", some 9000, none⟩
    else if token = "alice-token" then
      some ⟨some "alice", some "https://idp.example", some 5000, some (some "acme")⟩
    else none
  sha256 _ := "body"
  ed25519Key _ := true
  ed25519Verify _ _ _ := true
  parseFloat stamp := if stamp = "100" then some 100 else none

/-- The platform administrator's context. -/
def sampleRoot : Principal :=
  { tenantId := none, subject := "root", issuer := "https://idp.example", kind := .platformAdmin,
    revision := 1, validUntil := 9000 }

/-- The consenting user's context. -/
def sampleAlice : Principal :=
  { tenantId := some "acme", subject := "alice", issuer := "https://idp.example",
    kind := .member .tenantOperator, revision := 1, tenantRevision := 1, validUntil := 5000,
    capabilities := ["echo"], targets := ["t1"] }

/-- The agent's signed request, under the user's delegation. -/
def sampleRequest : SignedRequest :=
  { tenantId := "acme", agentId := "bot", nonce := "100:0123456789abcdef", body := [],
    signatureHex := String.ofList (List.replicate 128 'a'), delegationId := some "grant-1" }

/-- Bootstrap, enrollment, delegation and one signed request. -/
def sampleEvents : List Event :=
  [ .bootstrapPlatformAdmin "https://idp.example" "root",
    .beginOperator "https://idp.example" "root-token" none,
    .commit 0 "",
    .setTenant sampleRoot "acme" true,
    .enrollMember sampleRoot "acme" "https://idp.example" "alice" .tenantOperator ["echo"] ["t1"],
    .enrollAgent sampleRoot "acme" "bot" (String.ofList (List.replicate 64 'a')) ["echo"] ["t1"],
    .beginOperator "https://idp.example" "alice-token" (some "acme"),
    .commit 0 "",
    .beginDelegation ⟨sampleRoot, sampleAlice, "bot", ["echo"], ["t1"], 1000, none⟩,
    .commit 0 "grant-1",
    .beginAgent sampleRequest,
    .commit 0 "" ].map fun action => ⟨action, ⟨100, 100⟩⟩

/-- The deployment after these operations. -/
def sampleState : State := LTS.drive (exec sampleConfig) {} sampleEvents

/-- The context minted for the request. -/
def samplePrincipal : Principal :=
  { tenantId := some "acme", subject := "alice", issuer := "https://idp.example",
    kind := .delegatedHuman, revision := 1, tenantRevision := 1, agentId := some "bot",
    agentRevision := 1, delegationId := some "grant-1", delegationRevision := 1,
    userRevision := 1, grantorRevision := 1, validUntil := 400, capabilities := ["echo"],
    targets := ["t1"], requestBodySha256 := "body", requestNonce := "100:0123456789abcdef" }

end Authority

end AgentBridge
