import AgentBridge.Audit.Retention
import AgentBridge.Ownership.Principal
import AgentBridge.Queued.Change

/-!
# What an agent session can read

A session of the tenant facade reads tasks, task events and intents under the owner of its own
principal, and operations under any agent id and operation id that the caller names. Tasks are
created by acceptances only, under the owner of the binding that the intent records; the binding of
an operation is stored by the claim that creates it. Neither row is ever rewritten.

A session method holds a transaction of the directory, not of the tenant store: the three reads of
`operation` see three states of the store.

* `views_scope_owned` : **owners are exact scopes, and agent sessions read only what an authority of
  the same owner created**.
-/

namespace AgentBridge

open Authority List Table
open Except (bind_eq_ok pure_eq_ok)

/-! ### Bindings of operations -/

/-- A binding is stored only together with the operation it belongs to, and stays. -/
def Store.RecordsAuthority (s s' : Store) : Prop :=
  ∀ k, s'.authority.lookup k = s.authority.lookup k ∨
    s.authority.lookup k = none ∧ s.accounts.operations.lookup k = none ∧
      (s'.accounts.operations.lookup k).isSome = true ∧
      ∃ p : Principal, s'.authority.lookup k = some p.binding

namespace Store

variable {s s' : Store}

theorem RecordsAuthority.of_eq (h : s'.authority = s.authority) : s.RecordsAuthority s' := by
  intro k
  rw [h]
  exact .inl rfl

theorem RecordsAuthority.of_admitOk {digest : OwnerMaterial → String} {r : AdmissionRequest}
    {i : AdmissionInput} {op : String} (h : s.AdmitOk digest r i op s') :
    s.RecordsAuthority s' := by
  have hbound := h.bound
  cases hp : r.principal with
  | none =>
    rw [hp] at hbound
    exact .of_eq (Except.ok.inj hbound).symm
  | some p =>
    rw [hp] at hbound
    obtain ⟨hnone, heq⟩ := insertNew_eq_ok.mp hbound
    intro k
    rw [← heq, lookup_insert']
    by_cases hk : k = (r.agentId, op)
    · subst hk
      refine .inr ⟨hnone, h.new, ?_, p, if_pos rfl⟩
      simp [h.accounts]
    · exact .inl (if_neg hk)

theorem RecordsAuthority.of_admitTransaction {digest : OwnerMaterial → String}
    {r : AdmissionRequest} {i : AdmissionInput} (h : s.admitTransaction digest r i = .ok s') :
    s.RecordsAuthority s' := by
  cases hop : r.operationId with
  | some op => exact .of_admitOk (.of_admitTransaction hop h)
  | none =>
    -- without an operation id nothing is claimed
    simp only [admitTransaction, claimOperation, attachOperation, hop, bind_eq_ok,
      require_eq_ok, pure_eq_ok] at h
    obtain ⟨s₁, hs₁, d, -, s₂, hreserve, -, -, s₃, hs₃, s₄, hconsume, -, -, rfl⟩ := h
    obtain ⟨-, rfl⟩ := reserveBudget_eq_ok hreserve
    obtain rfl := Except.ok.inj hs₁
    obtain rfl := Except.ok.inj hs₃
    rw [consumeRequired_frame hconsume]
    exact .of_eq rfl

theorem authority_abortAdmission {agentId token : String} {operationId : Option String}
    {now : Time} (h : s.abortAdmission agentId operationId token now = .ok s') :
    s'.authority = s.authority := by
  cases operationId with
  | none => cases h; rfl
  | some op =>
    obtain ⟨row, -, -, rfl⟩ := abortAdmission_eq_ok h
    rfl

theorem authority_settle {agentId token : String} {operationId : Option String} {cost : Cost}
    {now : Time} (h : s.settle agentId operationId token cost now = .ok s') :
    s'.authority = s.authority := by
  cases operationId with
  | none =>
    simp only [settle, bind_eq_ok, pure_eq_ok] at h
    obtain ⟨-, -, rfl⟩ := h
    rfl
  | some op =>
    obtain ⟨-, -, accounts, -, -, -, -, rfl⟩ := settleOwned_eq_ok h
    rfl

end Store

namespace Gateway

variable {digest : OwnerMaterial → String} {isLinked : OpKey → Bool} {w w' : World}

theorem recordsAuthority_of_shared {act : Action}
    (h : execShared ⟨.shared, digest, isLinked⟩ w act = .ok w') :
    w.store.RecordsAuthority w'.store := by
  cases Shared.of_execShared h with
  | admission acked hx hphase hadmission =>
    have hrecords := Store.RecordsAuthority.of_admitTransaction hadmission
    cases acked with
    | true => exact hrecords
    | false => exact hrecords
  | abort hx hphase habort => exact .of_eq (Store.authority_abortAdmission habort)
  | settle acked hx hphase hsettle => exact .of_eq (Store.authority_settle hsettle)

/-- A step of the gateway stores a binding only with the operation it creates. -/
theorem recordsAuthority_of_exec {act : Action}
    (h : exec ⟨.shared, digest, isLinked⟩ w act = .ok w') :
    w.store.RecordsAuthority w'.store := by
  have hresume : ∀ id act', execResume w id act' = .ok w' → w.store.RecordsAuthority w'.store := by
    intro id act' hresume
    obtain ⟨x, phase, -, -, rfl⟩ := execResume_eq_ok.mp hresume
    exact .of_eq rfl
  unfold exec at h
  split at h
  case h_1 | h_7 =>
    simp only [bind_eq_ok, pure_eq_ok] at h
    obtain ⟨_, -, rfl⟩ := h
    exact .of_eq rfl
  case h_2 | h_3 =>
    obtain ⟨x, hx, h⟩ := World.bind_worker_eq_ok.mp h
    split at h
    · cases h
      exact .of_eq rfl
    · simp at h
  case h_4 =>
    obtain ⟨x, hx, h⟩ := World.bind_worker_eq_ok.mp h
    split at h
    · cases h
      exact .of_eq rfl
    · cases h
      exact .of_eq rfl
    · simp at h
  case h_5 | h_8 =>
    cases h
    exact .of_eq rfl
  case h_6 =>
    simp only [bind_eq_ok, pure_eq_ok] at h
    obtain ⟨store, hrecord, rfl⟩ := h
    obtain ⟨_, _, _, -, -, -, rfl⟩ := (Store.RecordOk.of_record hrecord).settled
    exact .of_eq rfl
  case h_14 => exact recordsAuthority_of_shared h
  all_goals exact hresume _ _ h

end Gateway

namespace Ownership

open Protocols Queued

/-! ### The views of a session -/

/-- `TenantSession`. -/
structure Session where
  principal : Principal
  tenantId : String

/-- The clock readings of the guard of a method, and of the resolution of its store. -/
structure GuardReads where
  guard : Reads
  resolve : Reads

/-- The tenant that `resolve` selects. -/
def Session.select (ses : Session) (s : Authority.State) : Except Fault Unit :=
  if ses.principal.kind = .platformAdmin then do
    identifier ses.tenantId "explicit platform target tenant"
    let _ ← s.dir.tenant (some ses.tenantId)
    return ()
  else
    require (ses.principal.tenantId == some ses.tenantId)
      (.authorityDenied "authenticated tenant conflicts with requested resource scope")

/-- `_guarded` and `_runtime`: the principal is current, and the store is the one of its tenant. -/
def Session.runtime (cfg : Queued.Config) (ses : Session) (s : Authority.State) (r : GuardReads) :
    Except Fault Unit := do
  current s.dir s.minted r.guard ses.principal
  current s.dir s.minted r.resolve ses.principal
  ses.select s
  require (ses.tenantId == cfg.tenantId)
    (.authorityDenied "tenant storage is not explicitly configured")

/-- `_scope` of the lifecycle and of the intents. -/
def taskScope (key : TaskKey) : Except Fault Unit := do
  require (Task.isIdentifier key.1)
    (.valueError "authenticated owner_id must be a bounded nonempty identifier")
  require (Task.isIdentifier key.2) (.valueError "task_id must be a bounded nonempty identifier")

/-- `task`. -/
def Session.task (cfg : Queued.Config) (ses : Session) (r : GuardReads) (w : Queued.World)
    (taskId : String) : Except Fault Task := do
  ses.runtime cfg w.authority r
  let owner ← cfg.bindingOwner ses.principal.binding
  taskScope (owner, taskId)
  w.tables.lifecycle.get (owner, taskId)

/-- `task_events`: one page of the history, in order. -/
def Session.taskEvents (cfg : Queued.Config) (ses : Session) (r : GuardReads) (w : Queued.World)
    (taskId : String) (afterSequence : ℤ) (limit : ℕ) : Except Fault (List Task) := do
  ses.runtime cfg w.authority r
  let owner ← cfg.bindingOwner ses.principal.binding
  let key : TaskKey := (owner, taskId)
  taskScope key
  require (decide (-1 ≤ afterSequence ∧ afterSequence < 2 ^ 63))
    (.valueError "invalid recovery cursor")
  require (1 ≤ limit && limit ≤ 100) (.valueError "event page limit must be in [1,100]")
  let current ← w.tables.lifecycle.get key
  require (decide (afterSequence ≤ current.sequence))
    (.valueError "recovery cursor is ahead of durable history")
  let rows := w.tables.lifecycle.events.entries.filter fun e =>
    e.1.1 = key && decide (afterSequence < e.1.2)
  let ordered := rows.insertionSort fun e e' => e.1.2 ≤ e'.1.2
  return (ordered.take limit).map fun e => e.2

/-- `task_intent`. -/
def Session.taskIntent (cfg : Queued.Config) (ses : Session) (r : GuardReads) (w : Queued.World)
    (taskId : String) : Except Fault Intent := do
  ses.runtime cfg w.authority r
  let owner ← cfg.bindingOwner ses.principal.binding
  taskScope (owner, taskId)
  match w.tables.intents.lookup (owner, taskId) with
  | none => .error (.authorityDenied "task intent unavailable for authenticated owner")
  | some intent => .ok intent

/-- An operation as it is shown. -/
structure OperationView where
  row : Operation
  authority : Option Binding

/-- Who may look at an operation: an agent whose owner created it, or an operator, who has
`audit:read` in every role. -/
def Session.mayRead (cfg : Queued.Config) (ses : Session) (binding : Option Binding) :
    Except Fault Unit :=
  if ses.principal.kind = .machine ∨ ses.principal.kind = .delegatedHuman then
    match binding with
    | none => .error (.authorityDenied "operation unavailable for authenticated principal")
    | some b => do
      let recorded ← cfg.bindingOwner b
      let owner ← cfg.bindingOwner ses.principal.binding
      require (recorded == owner)
        (.authorityDenied "operation unavailable for authenticated principal")
  else .ok ()

/-- `operation`, with the states of the store at its three reads. -/
def Session.operation (cfg : Queued.Config) (ses : Session) (r : GuardReads)
    (first second third : Queued.World) (k : OpKey) : Except Fault OperationView := do
  ses.runtime cfg first.authority r
  ses.mayRead cfg (first.gateway.world.store.authority.lookup k)
  match second.gateway.world.store.accounts.operations.lookup k with
  | none => .error (.authorityDenied "operation unavailable")
  | some row => .ok ⟨row, third.gateway.world.store.authority.lookup k⟩

/-! ### What is recorded -/

/-- Every task has an intent, and every intent records an authority of its owner. -/
structure Owned (cfg : Queued.Config) (w : Queued.World) : Prop where
  intents : ∀ key intent, w.tables.intents.lookup key = some intent →
    cfg.bindingOwner intent.record.provenance.authority = .ok key.1
  tasks : ∀ key task, w.tables.lifecycle.snapshots.lookup key = some task →
    ∃ intent, w.tables.intents.lookup key = some intent

section

variable {cfg : Queued.Config} {w w' : Queued.World}

/-- A change that keeps the intents, and adds no task. -/
theorem Owned.of_intents (h : Owned cfg w) (hintents : w'.tables.intents = w.tables.intents)
    (htasks : ∀ key task, w'.tables.lifecycle.snapshots.lookup key = some task →
      ∃ intent, w.tables.intents.lookup key = some intent) : Owned cfg w' := by
  refine ⟨?_, ?_⟩
  · rw [hintents]
    exact h.intents
  · rw [hintents]
    exact htasks

theorem Owned.of_ended (h : Owned cfg w) {key : TaskKey} {l : Lifecycle}
    (hintent : ∃ intent, w.tables.intents.lookup key = some intent)
    (hended : Tenant.Ended w.tables.lifecycle key l) {key' : TaskKey} {task : Task}
    (htask : l.snapshots.lookup key' = some task) :
    ∃ intent, w.tables.intents.lookup key' = some intent := by
  by_cases hk : key' = key
  · rw [hk]
    exact hintent
  · rw [hended.others key' hk] at htask
    exact h.tasks key' task htask

theorem Owned.change (h : Owned cfg w) (hc : Change cfg w w') : Owned cfg w' := by
  cases hc with
  | @accept p key intent task lifecycle t hok =>
    rw [hok.result]
    refine ⟨fun k i hi => ?_, fun k task' htask => ?_⟩
    · -- the new intent is filed under the owner of the binding it records
      change (w.tables.intents.insert key intent).lookup k = some i at hi
      rw [lookup_insert'] at hi
      split at hi
      case isTrue hk =>
        rw [← Option.some.inj hi, hok.binding, hk]
        exact hok.owner
      case isFalse => exact h.intents k i hi
    · change lifecycle.snapshots.lookup k = some task' at htask
      change ∃ i, (w.tables.intents.insert key intent).lookup k = some i
      rw [hok.created.snapshots, lookup_insert'] at htask
      rw [lookup_insert']
      split
      case isTrue => exact ⟨intent, rfl⟩
      case isFalse hk =>
        rw [if_neg hk] at htask
        exact h.tasks k task' htask
  | @admission r i op store task lifecycle row t workers _ hok _ =>
    rw [hok.result]
    refine h.of_intents rfl fun k task' htask => ?_
    change lifecycle.snapshots.lookup k = some task' at htask
    rw [hok.working.snapshots, lookup_insert'] at htask
    split at htask
    case isTrue hk =>
      obtain ⟨intent, hintent, -⟩ := hok.intent
      rw [hk]
      exact ⟨intent, hintent⟩
    case isFalse => exact h.tasks k task' htask
  | close hok | finish _ _ hok =>
    obtain ⟨intent, hintent, -⟩ := hok.history.intent
    rw [hok.result]
    exact h.of_intents rfl fun k task' htask => h.of_ended ⟨intent, hintent⟩ hok.ended htask
  | attempt _ hok =>
    rw [hok.result]
    exact h.of_intents rfl h.tasks
  | _ => exact ⟨h.intents, h.tasks⟩

/-- A step stores a binding only with the operation it creates. -/
theorem recordsAuthority_of_change (hc : Change cfg w w') :
    w.gateway.world.store.RecordsAuthority w'.gateway.world.store := by
  cases hc with
  | @gateway act g hexec =>
    simp only [Gateway.execLinked, bind_eq_ok, pure_eq_ok] at hexec
    obtain ⟨-, -, world, hexec, rfl⟩ := hexec
    exact Gateway.recordsAuthority_of_exec hexec
  | accept hok | close hok | attempt _ hok | finish _ _ hok =>
    rw [hok.result]
    exact .of_eq rfl
  | admission _ hok _ =>
    have hrecords := Store.RecordsAuthority.of_admitOk hok.admission
    rw [hok.result]
    exact hrecords
  | _ => exact .of_eq rfl

/-- A stored binding stays. -/
theorem authority_kept (hrun : (system cfg).Reachable w w') {k : OpKey} {b : Binding}
    (hb : w.gateway.world.store.authority.lookup k = some b) :
    w'.gateway.world.store.authority.lookup k = some b := by
  refine hrun.invariant (I := fun w => w.gateway.world.store.authority.lookup k = some b) hb ?_
  intro v act v' hv hstep
  rcases recordsAuthority_of_change (change_of_exec hstep) k with heq | ⟨hnone, -⟩
  · rw [heq]
    exact hv
  · rw [hv] at hnone
    cases hnone

/-- In every reachable state, tasks and intents belong to the authority that is recorded. -/
theorem owned_of_reachable {w₀ : Queued.World} (hintents : w₀.tables.intents = ∅)
    (htasks : w₀.tables.lifecycle.snapshots = ∅) (hrun : (system cfg).Reachable w₀ w) :
    Owned cfg w := by
  refine hrun.invariant (I := Owned cfg) ⟨?_, ?_⟩ fun _ _ _ hi hstep =>
    hi.change (change_of_exec hstep)
  · intro key intent hintent
    rw [hintents] at hintent
    cases hintent
  · intro key task htask
    rw [htasks] at htask
    cases htask

/-- The recorded binding has the owner of the principal. -/
def SameOwner (H : Sha256) (p : Principal) (recorded : Binding) : Prop :=
  ∃ owner, bindingOwner H (toValue p.binding) = .ok owner ∧
    bindingOwner H (toValue recorded) = .ok owner

theorem SameOwner.of_config {H : Sha256} (hsha : Hashes H cfg) {p : Principal} {recorded : Binding}
    {owner : String} (hp : cfg.bindingOwner p.binding = .ok owner)
    (hrecorded : cfg.bindingOwner recorded = .ok owner) : SameOwner H p recorded := by
  refine ⟨.ofString owner, ?_, ?_⟩
  · rw [bindingOwner_toValue hsha, hp]
    rfl
  · rw [bindingOwner_toValue hsha, hrecorded]
    rfl

/-- What a successful read of a task goes through. -/
theorem exists_owner_of_get {ses : Session} {owner taskId : String} {t : Task} (h : Owned cfg w)
    (hget : w.tables.lifecycle.get (owner, taskId) = .ok t)
    (howner : cfg.bindingOwner ses.principal.binding = .ok owner) {H : Sha256}
    (hsha : Hashes H cfg) :
    w.tables.lifecycle.snapshots.lookup (owner, taskId) = some t ∧
      ∃ intent, w.tables.intents.lookup (owner, taskId) = some intent ∧
        SameOwner H ses.principal intent.record.provenance.authority := by
  have htask := Lifecycle.get_eq_ok.mp hget
  obtain ⟨intent, hintent⟩ := h.tasks _ _ htask
  exact ⟨htask, intent, hintent, .of_config hsha howner (h.intents _ _ hintent)⟩

theorem mayRead_eq_ok {ses : Session} {binding : Option Binding} {u : Unit}
    (hkind : ses.principal.kind = .machine ∨ ses.principal.kind = .delegatedHuman)
    (h : ses.mayRead cfg binding = .ok u) :
    ∃ b owner, binding = some b ∧ cfg.bindingOwner b = .ok owner ∧
      cfg.bindingOwner ses.principal.binding = .ok owner := by
  unfold Session.mayRead at h
  rw [if_pos hkind] at h
  cases binding with
  | none => cases h
  | some b =>
    simp only [bind_eq_ok, require_eq_ok, beq_iff_eq] at h
    obtain ⟨recorded, hrecorded, owner, howner, heq⟩ := h
    exact ⟨b, owner, rfl, heq ▸ hrecorded, howner⟩

/-- **Resource views are exactly scope-owned.** Two bindings that `binding_owner` accepts have the
same owner exactly if they have the same scope, and a change of grants, revisions or lifetimes keeps
the owner. In every reachable state, whatever ids the caller names, an agent session reads tasks,
events, intents and operations only if the recorded authority that created them has the owner of
the session; and the recorded authority is stored with the resource, and stays. -/
theorem views_scope_owned (H : Sha256) (cfg : Queued.Config) (hsha : Hashes H cfg)
    (w₀ : Queued.World) (hintents : w₀.tables.intents = ∅)
    (htasks : w₀.tables.lifecycle.snapshots = ∅) :
    (∀ b b' : Value, IsLoaded b → IsLoaded b' → CollisionFree H b b' → ∀ o o',
      bindingOwner H b = .ok o → bindingOwner H b' = .ok o' →
        (o = o' ↔ scopeOf b = scopeOf b')) ∧
    (∀ p p' : Principal, scopeOf (toValue p.binding) = scopeOf (toValue p'.binding) →
      bindingOwner H (toValue p.binding) = bindingOwner H (toValue p'.binding)) ∧
    ∀ w, (system cfg).Reachable w₀ w →
      (∀ ses r taskId t, Session.task cfg ses r w taskId = .ok t →
        ∃ owner, cfg.bindingOwner ses.principal.binding = .ok owner ∧
          w.tables.lifecycle.snapshots.lookup (owner, taskId) = some t ∧
          ∃ intent, w.tables.intents.lookup (owner, taskId) = some intent ∧
            SameOwner H ses.principal intent.record.provenance.authority) ∧
      (∀ ses r taskId afterSequence limit page,
        Session.taskEvents cfg ses r w taskId afterSequence limit = .ok page →
        ∃ owner, cfg.bindingOwner ses.principal.binding = .ok owner ∧
          (∀ e ∈ page, ∃ n, w.tables.lifecycle.events.lookup ((owner, taskId), n) = some e) ∧
          ∃ intent, w.tables.intents.lookup (owner, taskId) = some intent ∧
            SameOwner H ses.principal intent.record.provenance.authority) ∧
      (∀ ses r taskId intent, Session.taskIntent cfg ses r w taskId = .ok intent →
        ∃ owner, cfg.bindingOwner ses.principal.binding = .ok owner ∧
          w.tables.intents.lookup (owner, taskId) = some intent ∧
          SameOwner H ses.principal intent.record.provenance.authority) ∧
      (∀ w₂ w₃, (system cfg).Reachable w w₂ → (system cfg).Reachable w₂ w₃ → ∀ ses r k view,
        ses.principal.kind = .machine ∨ ses.principal.kind = .delegatedHuman →
        Session.operation cfg ses r w w₂ w₃ k = .ok view →
        ∃ recorded, view.authority = some recorded ∧
          w.gateway.world.store.authority.lookup k = some recorded ∧
          w₂.gateway.world.store.accounts.operations.lookup k = some view.row ∧
          SameOwner H ses.principal recorded) ∧
      ∀ act w', (system cfg).step w act w' →
        w.gateway.world.store.RecordsAuthority w'.gateway.world.store ∧
        ∀ key intent, w.tables.intents.lookup key = some intent →
          w'.tables.intents.lookup key = some intent := by
  refine ⟨fun b b' h h' hfree o o' ho ho' => owner_eq_iff h h' hfree ho ho',
    fun p p' h => bindingOwner_congr h, fun w hrun => ?_⟩
  have howned := owned_of_reachable hintents htasks hrun
  refine ⟨?_, ?_, ?_, ?_, ?_⟩
  · intro ses r taskId t h
    simp only [Session.task, bind_eq_ok] at h
    obtain ⟨-, -, owner, howner, -, -, hget⟩ := h
    exact ⟨owner, howner, exists_owner_of_get howned hget howner hsha⟩
  · intro ses r taskId afterSequence limit page h
    simp only [Session.taskEvents, bind_eq_ok, pure_eq_ok] at h
    obtain ⟨-, -, owner, howner, -, -, -, -, -, -, t, hget, -, -, rfl⟩ := h
    obtain ⟨-, hintent⟩ := exists_owner_of_get howned hget howner hsha
    refine ⟨owner, howner, fun e he => ?_, hintent⟩
    obtain ⟨row, hrow, rfl⟩ := mem_map.mp he
    have hmem := (mem_insertionSort _).mp (mem_of_mem_take hrow)
    obtain ⟨hentry, hkey⟩ := mem_filter.mp hmem
    simp only [Bool.and_eq_true, decide_eq_true_eq] at hkey
    refine ⟨row.1.2, AList.mem_lookup_iff.mpr ?_⟩
    rw [← hkey.1]
    exact hentry
  · intro ses r taskId intent h
    simp only [Session.taskIntent, bind_eq_ok] at h
    obtain ⟨-, -, owner, howner, -, -, h⟩ := h
    cases hlookup : w.tables.intents.lookup (owner, taskId) with
    | none =>
      rw [hlookup] at h
      cases h
    | some intent' =>
      rw [hlookup] at h
      obtain rfl := Except.ok.inj h
      exact ⟨owner, howner, hlookup, .of_config hsha howner (howned.intents _ _ hlookup)⟩
  · intro w₂ w₃ hrun₂ hrun₃ ses r k view hkind h
    simp only [Session.operation, bind_eq_ok] at h
    obtain ⟨-, -, _, hread, h⟩ := h
    obtain ⟨recorded, owner, hrecorded, hb, hp⟩ := mayRead_eq_ok hkind hread
    have hkept := authority_kept hrun₃ (authority_kept hrun₂ hrecorded)
    cases hrow : w₂.gateway.world.store.accounts.operations.lookup k with
    | none =>
      rw [hrow] at h
      cases h
    | some row =>
      rw [hrow, hkept] at h
      obtain rfl := Except.ok.inj h
      exact ⟨recorded, rfl, hrecorded, rfl, .of_config hsha hp hb⟩
  · intro act w' hstep
    have hc := change_of_exec hstep
    exact ⟨recordsAuthority_of_change hc, fun key intent hintent => hc.intents hintent⟩

end

/-! ### A sample deployment -/

/-- A digest as a string of the directory. -/
def hexText (H : Sha256) (text : List Char) : String :=
  String.ofList ((H.digest text).codes.map Char.ofNat)

theorem ofString_hexText (H : Sha256) (text : List Char) :
    PyString.ofString (hexText H text) = H.digest text := by
  apply PyString.ext
  rw [codes_ofString, hexText, String.toList_ofList, map_map]
  conv_rhs => rw [← map_id (H.digest text).codes]
  refine map_congr_left fun c hc => ?_
  obtain ⟨-, hall⟩ := Bool.and_eq_true_iff.mp (H.isHex_digest text)
  have hdigit := all_eq_true.mp hall c hc
  simp only [Bool.or_eq_true, Bool.and_eq_true, decide_eq_true_eq] at hdigit
  have hvalid : c.isValidChar := .inl (by omega)
  rw [Function.comp_apply, Char.ofNat, dif_pos hvalid]
  rfl

/-- The sample deployment of queued tasks, with owners hashed from their text. -/
def sampleOwners : Queued.Config :=
  { Queued.sampleConfig with
    ownerSha256 := fun r => hexText Audit.sampleSha (materialOf
      { tenantId := r.tenantId, subject := r.subject, issuer := r.issuer, kind := r.kind
        revision := 0, agentId := r.agentId, capabilities := r.capabilities
        targets := r.targets }).text }

theorem sampleOwners_hashes : Hashes Audit.sampleSha sampleOwners :=
  fun b => ofString_hexText Audit.sampleSha (materialOf b).text

def sampleNow : Time := ((100 : ℕ) : ℚ)

/-- A task is submitted, and a call of the same principal is admitted. -/
def sampleOwned : Queued.World :=
  LTS.drive (exec sampleOwners) sampleWorld
    (Authority.sampleEvents.map .authority ++
      [ .setIdentity "bot" { publicKeyHex := sampleHex },
        .gateway (.setBudget "bot" ((10 : ℕ) : Cost) 60 60),
        .submit samplePrincipal sampleTask sampleSetup ⟨sampleNow, sampleNow⟩
          ⟨sampleNow, sampleNow⟩ sampleNow,
        .gateway (.start 0
          { agentId := "bot", operationId := some "operation-000009", capability := "echo"
            requestScope := sampleHex, cost := 1, principal := some samplePrincipal
            decision := { allowed := true, reason := "allowed" } }),
        .gateway (.admission 0
          { claimedAt := sampleNow, reservedAt := sampleNow, token := "token-9"
            quotaNow := sampleNow } true) ])

def sampleSession : Session := ⟨samplePrincipal, "acme"⟩

def sampleGuard : GuardReads := ⟨⟨sampleNow, sampleNow⟩, ⟨sampleNow, sampleNow⟩⟩

/-- The same delegation with a wider scope. -/
def sampleWider : Principal := { samplePrincipal with capabilities := ["echo", "exec"] }

theorem sampleWider_collisionFree :
    CollisionFree Audit.sampleSha (toValue samplePrincipal.binding)
      (toValue sampleWider.binding) := by
  intro m m' hm hm' hdigest
  have hcomplete : isComplete samplePrincipal.binding = true ∧
      isComplete sampleWider.binding = true := by decide +kernel
  rw [material_toValue, if_pos hcomplete.1] at hm
  rw [material_toValue, if_pos hcomplete.2] at hm'
  obtain rfl := Option.some.inj hm
  obtain rfl := Option.some.inj hm'
  revert hdigest
  decide +kernel

theorem sample_views_scope_owned :
    (∃ o o', bindingOwner Audit.sampleSha (toValue samplePrincipal.binding) = .ok o ∧
      bindingOwner Audit.sampleSha (toValue sampleWider.binding) = .ok o' ∧
      (o = o' ↔ scopeOf (toValue samplePrincipal.binding) =
        scopeOf (toValue sampleWider.binding))) ∧
    (∃ t owner, sampleSession.task sampleOwners sampleGuard sampleOwned "task-1" = .ok t ∧
      sampleOwned.tables.lifecycle.snapshots.lookup (owner, "task-1") = some t) ∧
    ∃ view recorded, sampleSession.operation sampleOwners sampleGuard sampleOwned sampleOwned
        sampleOwned ("bot", "operation-000009") = .ok view ∧
      view.authority = some recorded ∧ SameOwner Audit.sampleSha samplePrincipal recorded := by
  have hruns : (bindingOwner Audit.sampleSha (toValue samplePrincipal.binding)).isOk = true ∧
      (bindingOwner Audit.sampleSha (toValue sampleWider.binding)).isOk = true ∧
      (sampleSession.task sampleOwners sampleGuard sampleOwned "task-1").isOk = true ∧
      (sampleSession.operation sampleOwners sampleGuard sampleOwned sampleOwned sampleOwned
        ("bot", "operation-000009")).isOk = true := by
    decide +kernel
  have hok : ∀ {ε α : Type} {x : Except ε α}, x.isOk = true → ∃ a, x = .ok a := by
    rintro ε α (e | a) h
    · cases h
    · exact ⟨a, rfl⟩
  obtain ⟨o, ho⟩ := hok hruns.1
  obtain ⟨o', ho'⟩ := hok hruns.2.1
  obtain ⟨t, ht⟩ := hok hruns.2.2.1
  obtain ⟨view, hview⟩ := hok hruns.2.2.2
  have hrun : (system sampleOwners).Reachable sampleWorld sampleOwned := LTS.reachable_drive _ _ _
  obtain ⟨howners, -, hviews⟩ := views_scope_owned Audit.sampleSha sampleOwners
    sampleOwners_hashes sampleWorld rfl rfl
  obtain ⟨htask, -, -, hoperation, -⟩ := hviews sampleOwned hrun
  obtain ⟨owner, -, hsnapshot, -⟩ := htask sampleSession sampleGuard "task-1" t ht
  obtain ⟨recorded, hauthority, -, -, hsame⟩ := hoperation sampleOwned sampleOwned (.refl _)
    (.refl _)
    sampleSession sampleGuard _ view (.inr rfl) hview
  exact ⟨⟨o, o', ho, ho', howners _ _ (isLoaded_toValue _) (isLoaded_toValue _)
    sampleWider_collisionFree o o' ho ho'⟩, ⟨t, owner, ht, hsnapshot⟩,
    view, recorded, hview, hauthority, hsame⟩

end Ownership

end AgentBridge
