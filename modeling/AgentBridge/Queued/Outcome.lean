import AgentBridge.Queued.Transactions

/-!
# What the transactions of a queued task do

For each transaction, what it found and what it wrote. Everything later about queued tasks is
derived from these records; no later proof unfolds a transaction again.
-/

namespace AgentBridge.Queued

open Authority Bool

namespace Tenant

open Except (bind_eq_ok pure_eq_ok)

variable {cfg : Config} {s : Authority.State} {t t' : Tenant}

variable {refs : Refs}

theorem HistoryOk.key {h : History} (hh : HistoryOk t cfg refs h) : h.intent.key = refs.key := by
  obtain ⟨row, -, hrow⟩ := hh.intent
  rw [hrow]
  rfl

/-! ### Acceptance -/

/-- The identifiers of a submission are those of a task. -/
structure Named (q : Submission) : Prop where
  taskId : Task.isIdentifier q.taskId = true
  contextId : Task.isIdentifier q.contextId = true
  operationId : Task.isIdentifier q.operationId = true

/-- What an acceptance found and did. -/
structure AcceptOk (cfg : Config) (s : Authority.State) (t : Tenant) (p : Principal)
    (key : TaskKey) (intent : Intent) (task : Task) (lifecycle : Lifecycle) (t' : Tenant) :
    Prop where
  sealed : p ∈ s.minted
  unused : t.intents.lookup key = none
  binding : intent.record.provenance.authority = p.binding
  owner : cfg.bindingOwner p.binding = .ok key.1
  named : Named intent.record.submission
  created : t.lifecycle.CreateOk key task lifecycle
  result : t' = { t with lifecycle, intents := t.intents.insert key intent }

theorem sealed_of_current {d : Directory} {minted : List Principal} {r : Reads} {p : Principal}
    {u : Unit} (h : current d minted r p = .ok u) : p ∈ minted := by
  simp only [current, verifySeal, bind_eq_ok, require_eq_ok, and_eq_true,
    decide_eq_true_eq] at h
  exact h.choose_spec.1.1

theorem accept_eq_ok {ownerId agentId : String} {record : IntentRecord}
    (h : t.accept cfg ownerId agentId record = .ok t') :
    ∃ taskId intent task lifecycle, t.intents.lookup (ownerId, taskId) = none ∧
      intent.record = record ∧ (Task.isIdentifier record.submission.taskId = true ∧
        Task.isIdentifier record.submission.contextId = true) ∧
      t.lifecycle.CreateOk (ownerId, taskId) task lifecycle ∧
      t' = { t with lifecycle, intents := t.intents.insert (ownerId, taskId) intent } := by
  simp only [accept, isTaken, bind_eq_ok, require_eq_ok, not_eq_true',
    or_eq_false_iff, Option.isSome_eq_false_iff, Option.isNone_iff_eq_none,
    pure_eq_ok] at h
  obtain ⟨-, ⟨⟨⟨hunused, -⟩, -⟩, -⟩, -, -, task, htask, lifecycle, hcreate, rfl⟩ := h
  simp only [Task.submit, bind_eq_ok, require_eq_ok, pure_eq_ok] at htask
  obtain ⟨-, htaskId, -, hcontextId, -, -, rfl⟩ := htask
  exact ⟨_, _, _, lifecycle, hunused, rfl, ⟨htaskId, hcontextId⟩, .of_create hcreate, rfl⟩

theorem AcceptOk.of_submitTask {p : Principal} {q : TaskRequest} {setup : Setup}
    {first second : Reads} {acceptedAt : Time}
    (h : t.submitTask cfg s p q setup first second acceptedAt = .ok t') :
    ∃ key intent task lifecycle, AcceptOk cfg s t p key intent task lifecycle t' := by
  simp only [submitTask, bind_eq_ok, require_eq_ok] at h
  obtain ⟨⟨⟩, hrequest, -, hvalid, h⟩ := h
  have hop : Task.isIdentifier q.submission.operationId = true := by
    simp only [TaskRequest.isValid, List.all_cons, List.all_nil, and_eq_true] at hvalid
    exact hvalid.1.1.1.2.2.2.1
  split at h
  case h_1 =>
    simp only [bind_eq_ok, pure_eq_ok] at h
    obtain ⟨-, -, agent, -, -, -, -, -, ownerId, howner, t₁, haccept, -, -, rfl⟩ := h
    obtain ⟨taskId, intent, task, lifecycle, hunused, hrecord, ⟨htask, hcontext⟩, hcreated, rfl⟩ :=
      accept_eq_ok haccept
    simp only [assertRequest, bind_eq_ok] at hrequest
    obtain ⟨⟨⟩, hcurrent, -⟩ := hrequest
    exact ⟨(ownerId, taskId), intent, task, lifecycle, sealed_of_current hcurrent, hunused,
      by rw [hrecord]; rfl, howner, by rw [hrecord]; exact ⟨htask, hcontext, hop⟩, hcreated, rfl⟩
  case h_2 => simp at h

/-! ### Admission -/

/-- What an admission found and did. -/
structure LinkedOk (cfg : Config) (t : Tenant) (r : AdmissionRequest) (i : AdmissionInput)
    (op : String) (store : Store) (task : Task) (lifecycle : Lifecycle) (row : LinkRow)
    (t' : Tenant) : Prop where
  operationId : r.operationId = some op
  admission : t.store.AdmitOk cfg.quotaDigest r i op store
  working : t.lifecycle.TransitionOk (row.ownerId, row.taskId) .working task lifecycle
  first : task.sequence = 1
  unlinked : t.links.lookup (row.ownerId, row.taskId) = none
  unique : ∀ k l, t.links.lookup k = some l → l.opKey ≠ row.opKey
  opKey : row.opKey = (r.agentId, op)
  fingerprint : row.actionSha256 = r.requestScope
  token : row.reservationToken = i.token
  cost : row.reservedCost = r.cost
  digest : row.linkSha256 = cfg.linkSha256 row.toLink
  intent : ∃ intent, t.intents.lookup (row.ownerId, row.taskId) = some intent ∧
    (intent.agentId, intent.operationId) = row.opKey
  result : t' = { t with
    store, lifecycle, links := t.links.insert (row.ownerId, row.taskId) row }

theorem insertLink_eq_ok {link : Link} {snapshot : Task} {row : LinkRow}
    (h : t.insertLink cfg link snapshot = .ok (row, t')) :
    row = { link with snapshot, linkSha256 := cfg.linkSha256 link } ∧
      t.links.lookup (link.ownerId, link.taskId) = none ∧
      (∀ k l, t.links.lookup k = some l → l.opKey ≠ link.opKey) ∧
      (∃ intent, t.intents.lookup (link.ownerId, link.taskId) = some intent ∧
        (intent.agentId, intent.operationId) = link.opKey) ∧
      t' = { t with links := t.links.insert (link.ownerId, link.taskId) row } := by
  simp only [insertLink, linkGuard, bind_eq_ok, require_eq_ok, Table.insertNew_eq_ok,
    pure_eq_ok, not_eq_true', List.any_eq_false, and_eq_true, beq_iff_eq,
    Option.any_eq_true, Prod.mk.injEq] at h
  obtain ⟨-, ⟨⟨⟨⟨⟨⟨⟨intent, hintent, ⟨hagent, hop⟩, -⟩, -⟩, -⟩, -⟩, -⟩, -⟩, -⟩, -, hunique,
    _, ⟨hnone, rfl⟩, rfl, rfl⟩ := h
  refine ⟨rfl, hnone, fun k l hl => hunique ⟨k, l⟩ (AList.mem_lookup_iff.mp hl),
    ⟨intent, hintent, Prod.ext hagent hop⟩, rfl⟩

variable {context : QueuedAuthority} {now : Time}

theorem LinkedOk.of_admitPrepared {setup : Setup} {i : QueuedInput} {row : LinkRow}
    (h : t.admitPrepared cfg s context setup i = .ok (row, t')) :
    ∃ r input op store task lifecycle, input.token = i.token ∧
      LinkedOk cfg t r input op store task lifecycle row t' := by
  simp only [admitPrepared, link, bind_eq_ok, pure_eq_ok, Prod.exists,
    Prod.mk.injEq] at h
  obtain ⟨p, -, store, hadmission, -, -, task, lifecycle, htransition, row, t₁, hinsert, -, -, rfl,
    rfl⟩ := h
  obtain ⟨rfl, hunlinked, hunique, hintent, rfl⟩ := insertLink_eq_ok hinsert
  obtain ⟨hworking, hfirst⟩ := Lifecycle.TransitionOk.of_transition htransition
  exact ⟨_, _, p.submission.operationId, store, task, lifecycle, rfl,
    { operationId := rfl, admission := .of_admitTransaction rfl hadmission, working := hworking
      first := hfirst, unlinked := hunlinked, unique := hunique, opKey := rfl
      fingerprint := rfl, token := rfl, cost := rfl, digest := rfl, intent := hintent
      result := rfl }⟩

/-! ### Decisions -/

theorem insertDecision_eq_ok {base : Base} {body : DecisionBody}
    (h : t.insertDecision cfg base body = .ok t') :
    t.decisions.lookup base.key = none ∧
      (∀ k d, t.decisions.lookup k = some d →
        (d.base.agentId, d.base.operationId) ≠ (base.agentId, base.operationId)) ∧
      t' = { t with
        decisions := t.decisions.insert base.key ⟨base, body, cfg.decisionSha256 base body⟩ } := by
  simp only [insertDecision, bind_eq_ok, pure_eq_ok] at h
  obtain ⟨_, hput, rfl⟩ := h
  obtain ⟨-, hnone, rfl, hunique⟩ := put_eq_ok hput
  exact ⟨hnone, hunique, rfl⟩

theorem settleTask_eq_ok {intent : StoredIntent} {link : LinkRow} {outcome : Outcome}
    (h : t.settleTask intent link outcome now = .ok t') :
    ∃ accounts, t.store.accounts.SettleOk intent.opKey link.reservationToken outcome now
      link.reservedCost accounts ∧ t' = { t with store := { t.store with accounts } } := by
  simp only [settleTask, bind_eq_ok, pure_eq_ok] at h
  obtain ⟨⟨amount, accounts⟩, hsettle, rfl⟩ := h
  obtain ⟨hok, hcost⟩ := Accounts.SettleOk.of_settle hsettle
  obtain rfl := hcost _ rfl
  exact ⟨accounts, hok, rfl⟩

/-- One task became terminal, or was so already. -/
structure Ended (l : Lifecycle) (key : TaskKey) (l' : Lifecycle) : Prop where
  terminal : ∃ task, l'.snapshots.lookup key = some task ∧ task.isTerminal = true
  others : ∀ k, k ≠ key → l'.snapshots.lookup k = l.snapshots.lookup k

theorem endTask_eq_ok {key : TaskKey} {state : TaskState} (hterminal : state.isTerminal = true)
    (h : t.endTask key state = .ok t') :
    ∃ lifecycle, Ended t.lifecycle key lifecycle ∧ t' = { t with lifecycle } := by
  simp only [endTask, bind_eq_ok, Lifecycle.get_eq_ok] at h
  obtain ⟨task, htask, h⟩ := h
  split at h
  case isTrue hend =>
    cases h
    exact ⟨t.lifecycle, ⟨⟨task, htask, hend⟩, fun _ _ => rfl⟩, rfl⟩
  case isFalse =>
    simp only [bind_eq_ok, pure_eq_ok, Prod.exists] at h
    obtain ⟨task', lifecycle, htransition, rfl⟩ := h
    obtain ⟨hok, -⟩ := Lifecycle.TransitionOk.of_transition htransition
    obtain ⟨_, -, -, hnew⟩ := hok.current
    refine ⟨lifecycle, ⟨⟨task', by simp [hok.snapshots], ?_⟩, fun k hk => ?_⟩, rfl⟩
    · rw [hnew]
      exact hterminal
    · rw [hok.snapshots, Table.lookup_insert', if_neg hk]

/-- What a closing transaction found and did. -/
structure CloseOk (cfg : Config) (t : Tenant) (refs : Refs) (h : History) (row : DecisionRow)
    (now : Time) (accounts : Accounts) (lifecycle : Lifecycle) (t' : Tenant) : Prop where
  history : t.HistoryOk cfg refs h
  unknown : h.operation.state = .unknown
  undecided : t.decisions.lookup refs.key = none
  unique : ∀ k d, t.decisions.lookup k = some d →
    (d.base.agentId, d.base.operationId) ≠ h.intent.opKey
  row_base : row.base = h.intent.base h.link
  row_body : row.body.isAttempt = false
  settled : t.store.accounts.SettleOk h.intent.opKey h.link.reservationToken .failed now
    h.link.reservedCost accounts
  ended : Ended t.lifecycle refs.key lifecycle
  result : t' = { t with
    lifecycle, decisions := t.decisions.insert refs.key row
    store := { t.store with accounts } }

theorem CloseOk.of_close {hist : History} {reason : String} {terminal : TaskState}
    (hterminal : terminal.isTerminal = true) (hhistory : t.HistoryOk cfg refs hist)
    (hunknown : hist.operation.state = .unknown)
    (h : t.close cfg hist reason terminal now = .ok t') :
    ∃ row accounts lifecycle, CloseOk cfg t refs hist row now accounts lifecycle t' := by
  have hkey := hhistory.key
  simp only [close, bind_eq_ok] at h
  obtain ⟨-, -, t₁, hinsert, t₂, hsettle, hend⟩ := h
  obtain ⟨hundecided, hunique, rfl⟩ := insertDecision_eq_ok hinsert
  obtain ⟨accounts, hsettled, rfl⟩ := settleTask_eq_ok hsettle
  obtain ⟨lifecycle, hended, rfl⟩ := endTask_eq_ok hterminal hend
  have hbase : (hist.intent.base hist.link).key = refs.key := hkey
  rw [hbase] at hundecided
  exact ⟨⟨hist.intent.base hist.link, .closed reason, cfg.decisionSha256 _ _⟩, accounts, lifecycle,
    { history := hhistory, unknown := hunknown, undecided := hundecided, unique := hunique
      row_base := rfl, row_body := rfl, settled := hsettled, ended := hkey ▸ hended
      result := by rw [hbase] }⟩

theorem CloseOk.of_closeInsufficient {i : DispatchInput}
    (h : t.closeInsufficient cfg s context refs i = .ok t') :
    ∃ hist row accounts lifecycle, CloseOk cfg t refs hist row i.stamp accounts lifecycle t' := by
  simp only [closeInsufficient, bind_eq_ok, pure_eq_ok, Prod.exists] at h
  obtain ⟨-, -, hist, p, hcheck, t₁, hclose, -, -, rfl⟩ := h
  have hok := DispatchOk.of_currentDispatch hcheck
  exact ⟨hist, CloseOk.of_close rfl hok.history hok.unknown hclose⟩

/-- What an attempt transaction found and did. -/
structure AttemptOk (cfg : Config) (s : Authority.State) (t : Tenant) (context : QueuedAuthority)
    (refs : Refs) (h : History) (row : DecisionRow) (a : Authorization) (d : Descriptor)
    (t' : Tenant) : Prop where
  history : t.HistoryOk cfg refs h
  unknown : h.operation.state = .unknown
  intent : h.intent = context.intent
  undecided : t.decisions.lookup refs.key = none
  unique : ∀ k d, t.decisions.lookup k = some d →
    (d.base.agentId, d.base.operationId) ≠ h.intent.opKey
  row_base : row.base = h.intent.base h.link
  row_body : row.body = .attempt a.attemptId a d
  authorization : a.tenantId = cfg.tenantId ∧ (a.ownerId, a.taskId) = refs.key ∧
    (a.agentId, a.operationId) = h.intent.opKey
  derived : ∃ r, DeriveOk cfg s context.intent r context.principal context.originalDeadline
  deadline : a.expiresAt ≤ context.originalDeadline
  result : t' = { t with decisions := t.decisions.insert refs.key row }

/-- How the authorization of an attempt is made: from the admitted task, the plan, the fence and
one reading of the clock. -/
structure Issued (cfg : Config) (context : QueuedAuthority) (h : History) (p : Plan)
    (lease : Lease) (action : String) (stamp : Time) (a : Authorization) : Prop where
  submission : p.submission = h.intent.record.submission
  configuration : p.targetConfigurationSha256 = cfg.contract.descriptorSha256 p.target
  pending : stamp < attemptDeadline context p lease stamp
  authorization : a = signed cfg
    (unsigned cfg h p lease action stamp (attemptDeadline context p lease stamp))

theorem AttemptOk.of_attempt {p : Plan} {lease : Lease} {action : String} {i : DispatchInput}
    {a : Authorization} (h : t.attempt cfg s context refs p lease action i = .ok (a, t')) :
    ∃ hist row, AttemptOk cfg s t context refs hist row a p.target t' ∧
      Issued cfg context hist p lease action i.stamp a := by
  simp only [attempt, bind_eq_ok, require_eq_ok, and_eq_true, beq_iff_eq,
    decide_eq_true_eq, pure_eq_ok, Prod.exists, Prod.mk.injEq] at h
  obtain ⟨-, -, hist, locked, hcheck, -, ⟨rfl, -⟩, -, hpending, t₁, hinsert, -, -, rfl, rfl⟩ := h
  have hok := DispatchOk.of_currentDispatch hcheck
  obtain ⟨hundecided, hunique, rfl⟩ := insertDecision_eq_ok hinsert
  have hbase : (hist.intent.base hist.link).key = refs.key := hok.history.key
  rw [hbase] at hundecided
  have hsubmission : locked.submission = hist.intent.record.submission := by
    rw [hok.intent]
    exact hok.submission
  exact ⟨hist, ⟨hist.intent.base hist.link, .attempt lease.attemptId _ locked.target,
      cfg.decisionSha256 _ _⟩,
    { history := hok.history, unknown := hok.unknown, intent := hok.intent
      undecided := hundecided, unique := hunique, row_base := rfl, row_body := rfl
      authorization := ⟨rfl, hok.history.key, rfl⟩, derived := hok.derived
      deadline := (min_le_left _ _).trans (min_le_left _ _)
      result := by rw [hbase] },
    { submission := hsubmission, configuration := hok.configuration, pending := hpending
      authorization := rfl }⟩

/-- What a cancellation did: nothing, a decision, or a note. -/
theorem cancel_cases {reason : String} (h : t.cancel cfg refs reason now = .ok t') :
    t' = t ∨ (∃ hist row accounts lifecycle,
      CloseOk cfg t refs hist row now accounts lifecycle t') ∨
      ∃ controls, t' = { t with controls } := by
  simp only [cancel, bind_eq_ok] at h
  obtain ⟨-, -, hist, hlinked, h⟩ := h
  have hhistory := HistoryOk.of_linkedHistory hlinked
  split at h
  case isTrue => exact .inl (pure_eq_ok.mp h).symm
  case isFalse =>
    simp only [bind_eq_ok, Accounts.lockUnknown_eq_ok] at h
    obtain ⟨row, ⟨hrow, hunknown⟩, h⟩ := h
    have hoperation : hist.operation.state = .unknown := by
      rw [Option.some.inj (hhistory.operation.symm.trans hrow)]
      exact hunknown
    split at h
    case isTrue => exact .inr (.inl ⟨hist, CloseOk.of_close rfl hhistory hoperation h⟩)
    case isFalse =>
      split at h
      case isTrue =>
        simp only [insertCancellation, bind_eq_ok, pure_eq_ok] at h
        obtain ⟨controls, -, rfl⟩ := h
        exact .inr (.inr ⟨controls, rfl⟩)
      case isFalse => exact .inl (pure_eq_ok.mp h).symm

/-! ### Settlement -/

/-- What the settlement of an attempt found and did. -/
structure FinishOk (cfg : Config) (t : Tenant) (completion : Readback) (h : History)
    (decision : DecisionRow) (a : Authorization) (row : ResultRow) (now : Time)
    (accounts : Accounts) (lifecycle : Lifecycle) (t' : Tenant) : Prop where
  decided : t.decisions.lookup completion.refs.key = some decision
  attempted : ∃ attemptId d, decision.body = .attempt attemptId a d
  history : t.HistoryOk cfg completion.refs h
  unknown : h.operation.state = .unknown
  unsettled : t.results.lookup completion.refs.key = none
  outcome : row.outcome = .succeeded
  authorization : row.authorization = a
  settled : t.store.accounts.SettleOk h.intent.opKey h.link.reservationToken row.outcome now
    h.link.reservedCost accounts
  ended : Ended t.lifecycle completion.refs.key lifecycle
  result : t' = { t with
    lifecycle, results := t.results.insert completion.refs.key row
    store := { t.store with accounts } }

theorem insertResult_eq_ok {row : ResultRow} (h : t.insertResult row = .ok t') :
    t.results.lookup row.base.key = none ∧
      t' = { t with results := t.results.insert row.base.key row } := by
  simp only [insertResult, bind_eq_ok, pure_eq_ok] at h
  obtain ⟨_, hput, rfl⟩ := h
  obtain ⟨-, hnone, rfl, -⟩ := put_eq_ok hput
  exact ⟨hnone, rfl⟩

/-- A settlement finds the result already there, or writes it. -/
theorem finishVerified_cases {completion : Readback} {review : Option OperatorReview}
    {isReviewed : Bool} (h : t.finishVerified cfg completion review isReviewed now = .ok t') :
    t' = t ∨ ∃ hist decision a row accounts lifecycle,
      FinishOk cfg t completion hist decision a row now accounts lifecycle t' := by
  simp only [finishVerified] at h
  split at h
  case h_1 base attemptId a d sha hdecision =>
    simp only [bind_eq_ok] at h
    obtain ⟨-, -, hist, hlinked, h⟩ := h
    have hhistory := HistoryOk.of_linkedHistory hlinked
    split at h
    case isTrue => exact .inl (pure_eq_ok.mp h).symm
    case isFalse hnone =>
      simp only [bind_eq_ok, Accounts.lockUnknown_eq_ok] at h
      obtain ⟨op, ⟨hop, hunknown⟩, h⟩ := h
      have hoperation : hist.operation.state = .unknown := by
        rw [Option.some.inj (hhistory.operation.symm.trans hop)]
        exact hunknown
      split at h
      case h_1 => simp at h
      case h_2 action haction =>
        simp only [bind_eq_ok] at h
        obtain ⟨outcome, hverify, -, -, -, -, t₁, hinsert, t₂, hsettle, hend⟩ := h
        obtain rfl := Contract.verifyEvidence_eq_ok hverify
        obtain ⟨hunsettled, rfl⟩ := insertResult_eq_ok hinsert
        obtain ⟨accounts, hsettled, rfl⟩ := settleTask_eq_ok hsettle
        obtain ⟨lifecycle, hended, rfl⟩ := endTask_eq_ok rfl hend
        have hbase : (resultFor hist a sha completion.evidence .succeeded review).base.key =
            completion.refs.key := hhistory.key
        rw [hbase] at hunsettled
        exact .inr ⟨hist, _, a, resultFor hist a sha completion.evidence .succeeded review,
          accounts, lifecycle,
          { decided := hdecision, attempted := ⟨attemptId, d, rfl⟩, history := hhistory
            unknown := hoperation, unsettled := hunsettled, outcome := rfl, authorization := rfl
            settled := hsettled, ended := hended, result := by rw [hbase] }⟩
  case h_2 => simp at h

end Tenant

end AgentBridge.Queued
