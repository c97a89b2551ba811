import AgentBridge.Gateway.Frame
import AgentBridge.Queued.Change

/-!
# The joint state of a queued operation

Six tables speak about an admitted task: its link, its decision, its result, the ledger row of
its operation, the reservation with the agent's budget, and its lifecycle. They are written by
six entry points, next to a synchronous gateway on the same ledger and budgets. At every moment
they are in one of four joint stages.

* `queued_joint_state` : **every admitted task is in exactly one stage**.
-/

namespace AgentBridge.Queued

open Authority Tenant Table AList

/-- Decision, result, operation state and task agree. -/
inductive Staged : Option DecisionRow → Option ResultRow → OpState → Task → Prop
  | undecided {task : Task} (hstate : task.state = .working) (hfirst : task.sequence = 1) :
      Staged none none .unknown task
  | closed {row : DecisionRow} {task : Task} (hrow : row.body.isAttempt = false)
      (hend : task.isTerminal = true) : Staged (some row) none .failed task
  | attempted {row : DecisionRow} {task : Task} (hrow : row.body.isAttempt = true)
      (hend : task.isTerminal = false) : Staged (some row) none .unknown task
  | settled {row : DecisionRow} {result : ResultRow} {task : Task}
      (hrow : row.body.isAttempt = true) (houtcome : result.outcome = .succeeded)
      (hend : task.isTerminal = true) : Staged (some row) (some result) .succeeded task

theorem Staged.of_undecided {result : Option ResultRow} {state : OpState} {task : Task}
    (h : Staged none result state task) :
    result = none ∧ state = .unknown ∧ task.state = .working := by
  cases h with
  | undecided hstate _ => exact ⟨rfl, rfl, hstate⟩

structure Tied (w : World) (key : TaskKey) (link : LinkRow) (op : Operation) (task : Task) :
    Prop where
  row : w.gateway.world.store.accounts.operations.lookup link.opKey = some op
  fingerprint : op.fingerprint = link.actionSha256
  token : w.gateway.world.store.accounts.reservations.lookup link.opKey =
    some link.reservationToken
  cost : w.gateway.admitted.lookup link.opKey = some link.reservedCost
  idle : w.gateway.world.Idle link.opKey
  snapshot : w.tables.lifecycle.snapshots.lookup key = some task
  staged : Staged (w.tables.decisions.lookup key) (w.tables.results.lookup key) op.state task

/-- What is read of the six tables for one task is the same. -/
theorem Tied.congr {w w' : World} {key : TaskKey} {link : LinkRow} {op : Operation} {task : Task}
    (h : Tied w key link op task)
    (hrow : w'.gateway.world.store.accounts.operations.lookup link.opKey =
      w.gateway.world.store.accounts.operations.lookup link.opKey)
    (htoken : w'.gateway.world.store.accounts.reservations.lookup link.opKey =
      w.gateway.world.store.accounts.reservations.lookup link.opKey)
    (hcost : w'.gateway.admitted.lookup link.opKey = w.gateway.admitted.lookup link.opKey)
    (hidle : w'.gateway.world.Idle link.opKey)
    (hsnapshot : w'.tables.lifecycle.snapshots.lookup key =
      w.tables.lifecycle.snapshots.lookup key)
    (hdecision : w'.tables.decisions.lookup key = w.tables.decisions.lookup key)
    (hresult : w'.tables.results.lookup key = w.tables.results.lookup key) :
    Tied w' key link op task where
  row := hrow.trans h.row
  fingerprint := h.fingerprint
  token := htoken.trans h.token
  cost := hcost.trans h.cost
  idle := hidle
  snapshot := hsnapshot.trans h.snapshot
  staged := by rw [hdecision, hresult]; exact h.staged

/-- The invariant of the six tables. -/
structure Joint (cfg : Config) (initial : String → Cost) (w : World) : Prop where
  bound : w.gateway.world.store.tenantId = some cfg.tenantId
  linked : Gateway.Linked initial w.gateway
  unique : ∀ k k' l l', w.tables.links.lookup k = some l → w.tables.links.lookup k' = some l' →
    l.opKey = l'.opKey → k = k'
  /-- Without an admission link there is no execution history. -/
  unlinked : ∀ k, w.tables.links.lookup k = none →
    w.tables.decisions.lookup k = none ∧ w.tables.results.lookup k = none
  tied : ∀ k l, w.tables.links.lookup k = some l → ∃ op task, Tied w k l op task

namespace Joint

variable {cfg : Config} {initial : String → Cost} {w w' : World}

/-- Nothing of the six tables changes. -/
theorem frame (h : Joint cfg initial w) (hg : w'.gateway = w.gateway)
    (hlifecycle : w'.tables.lifecycle = w.tables.lifecycle)
    (hlinks : w'.tables.links = w.tables.links)
    (hdecisions : w'.tables.decisions = w.tables.decisions)
    (hresults : w'.tables.results = w.tables.results) : Joint cfg initial w' where
  bound := hg ▸ h.bound
  linked := hg ▸ h.linked
  unique := hlinks ▸ h.unique
  unlinked := by rw [hlinks, hdecisions, hresults]; exact h.unlinked
  tied := by
    intro k l hl
    rw [hlinks] at hl
    obtain ⟨op, task, ht⟩ := h.tied k l hl
    exact ⟨op, task, ht.congr (by rw [hg]) (by rw [hg]) (by rw [hg]) (hg ▸ ht.idle)
      (by rw [hlifecycle]) (by rw [hdecisions]) (by rw [hresults])⟩

/-- The synchronous gateway leaves linked operations alone. -/
theorem gateway {act : Gateway.Action} {g : Gateway.Ledgered} (h : Joint cfg initial w)
    (hexec : Gateway.execLinked (w.gatewayConfig cfg) w.gateway act = .ok g) :
    Joint cfg initial { w with gateway := g } := by
  refine { h with bound := ?_, linked := Gateway.exec_linked h.linked hexec, tied := ?_ }
  · have hmoves := Gateway.moves_of_exec h.linked.inFlight hexec
    exact (Gateway.refines h.linked hmoves).bound.trans h.bound
  · intro k l hl
    obtain ⟨op, task, ht⟩ := h.tied k l hl
    have hlinked : (w.gatewayConfig cfg).isLinked l.opKey = true :=
      List.any_eq_true.mpr ⟨⟨k, l⟩, mem_lookup_iff.mp hl, beq_self_eq_true _⟩
    have halone := Gateway.leavesAlone_of_exec h.linked (by rw [ht.row]; simp) ht.idle hlinked
      (by rw [h.bound]; rfl) hexec
    exact ⟨op, task, ht.congr halone.operation halone.reservation halone.admitted halone.idle rfl
      rfl rfl⟩

variable {task : Task} {lifecycle : Lifecycle} {t : Tenant}

/-- A new task takes no key of an admitted one. -/
theorem accept {s : Authority.State} {p : Principal} {key : TaskKey} {intent : Intent}
    (h : Joint cfg initial w) (hok : AcceptOk cfg s w.tenant p key intent task lifecycle t) :
    Joint cfg initial (w.withTenant t) := by
  rw [hok.result]
  refine { h with tied := ?_ }
  intro k l hl
  obtain ⟨op, task', ht⟩ := h.tied k l hl
  refine ⟨op, task', ht.congr rfl rfl rfl ht.idle ?_ rfl rfl⟩
  have hunused : w.tables.lifecycle.snapshots.lookup key = none := hok.created.unused
  have hk : k ≠ key := by
    rintro rfl
    rw [ht.snapshot] at hunused
    cases hunused
  change lifecycle.snapshots.lookup k = _
  rw [hok.created.snapshots, lookup_insert', if_neg hk]
  rfl

/-- The rows of a task that has just been admitted. -/
theorem tied_of_admission {r : AdmissionRequest} {i : AdmissionInput} {op : String} {store : Store}
    {row : LinkRow} (h : Joint cfg initial w)
    (hok : LinkedOk cfg w.tenant r i op store task lifecycle row t) :
    Tied ((w.withTenant t).recordAdmission row) (row.ownerId, row.taskId) row
      { fingerprint := r.requestScope, state := .unknown, updated := i.claimedAt } task := by
  have hadmission : w.gateway.world.store.AdmitOk cfg.quotaDigest r i op store := hok.admission
  obtain ⟨hundecided, hunsettled⟩ := h.unlinked _ hok.unlinked
  obtain ⟨old, -, -, htask⟩ := hok.working.current
  rw [hok.result]
  constructor
  case row =>
    change store.accounts.operations.lookup row.opKey = _
    rw [hadmission.accounts, hok.opKey]
    exact lookup_insert _
  case fingerprint => exact hok.fingerprint.symm
  case token =>
    change store.accounts.reservations.lookup row.opKey = _
    rw [hadmission.accounts, hok.opKey, hok.token]
    exact lookup_insert _
  case cost => exact lookup_insert _
  case idle =>
    have hidle : w.gateway.world.Idle row.opKey :=
      .of_new h.linked (by rw [hok.opKey]; exact hadmission.new)
    exact hidle
  case snapshot =>
    change lifecycle.snapshots.lookup _ = _
    rw [hok.working.snapshots]
    exact lookup_insert _
  case staged =>
    change Staged (w.tables.decisions.lookup _) (w.tables.results.lookup _) _ _
    rw [hundecided, hunsettled]
    exact .undecided (by rw [htask]) hok.first

/-- An admission links a new operation to a task without history. -/
theorem admission {r : AdmissionRequest} {i : AdmissionInput} {op : String} {store : Store}
    {row : LinkRow} (h : Joint cfg initial w)
    (hfresh : w.gateway.world.store.accounts.FreshToken i.token)
    (hok : LinkedOk cfg w.tenant r i op store task lifecycle row t) :
    Joint cfg initial ((w.withTenant t).recordAdmission row) := by
  have hadmission : w.gateway.world.store.AdmitOk cfg.quotaDigest r i op store := hok.admission
  have htied := h.tied_of_admission hok
  rw [hok.result] at htied ⊢
  constructor
  case bound => exact hadmission.frame.1.trans h.bound
  case linked =>
    have hlinked := h.linked.admission hadmission hfresh
    rw [← hok.opKey, ← hok.cost] at hlinked
    exact hlinked
  case unique =>
    intro k k' l l' hl hl' heq
    change (w.tables.links.insert _ row).lookup k = some l at hl
    change (w.tables.links.insert _ row).lookup k' = some l' at hl'
    rw [lookup_insert'] at hl hl'
    split at hl <;> split at hl'
    case isTrue.isTrue hk hk' => rw [hk, hk']
    case isTrue.isFalse =>
      rw [← Option.some.inj hl] at heq
      exact absurd heq.symm (hok.unique k' l' hl')
    case isFalse.isTrue =>
      rw [← Option.some.inj hl'] at heq
      exact absurd heq (hok.unique k l hl)
    case isFalse.isFalse => exact h.unique k k' l l' hl hl' heq
  case unlinked =>
    intro k hk
    change (w.tables.links.insert _ row).lookup k = none at hk
    rw [lookup_insert'] at hk
    split at hk
    · cases hk
    · exact h.unlinked k hk
  case tied =>
    intro k l hl
    change (w.tables.links.insert _ row).lookup k = some l at hl
    rw [lookup_insert'] at hl
    split at hl
    case isTrue hk =>
      obtain rfl := Option.some.inj hl
      subst hk
      exact ⟨_, task, htied⟩
    case isFalse hk =>
      obtain ⟨op', task', ht⟩ := h.tied k l hl
      have hne : l.opKey ≠ row.opKey := hok.unique k l hl
      refine ⟨op', task', ht.congr ?_ ?_ ?_ ht.idle ?_ rfl rfl⟩
      · change store.accounts.operations.lookup l.opKey = _
        rw [hadmission.accounts, ← hok.opKey, lookup_insert', if_neg hne]
      · change store.accounts.reservations.lookup l.opKey = _
        rw [hadmission.accounts, ← hok.opKey, lookup_insert', if_neg hne]
      · exact (lookup_insert' _ _ _ _).trans (if_neg hne)
      · change lifecycle.snapshots.lookup k = _
        rw [hok.working.snapshots, lookup_insert', if_neg hk]
        rfl

variable {now : Time} {accounts : Accounts} {refs : Refs} {hist : History}

theorem settle {key : TaskKey} {link : LinkRow} {op : Operation} {outcome : Outcome}
    {tables : Tables} (h : Joint cfg initial w) (hlink : w.tables.links.lookup key = some link)
    (hop : w.gateway.world.store.accounts.operations.lookup link.opKey = some op)
    (hunknown : op.state = .unknown)
    (hsettled : w.gateway.world.store.accounts.SettleOk link.opKey link.reservationToken outcome
      now link.reservedCost accounts) (hended : Ended w.tables.lifecycle key tables.lifecycle)
    (hlinks : tables.links = w.tables.links)
    (hdecisions : ∀ k, k ≠ key → tables.decisions.lookup k = w.tables.decisions.lookup k)
    (hresults : ∀ k, k ≠ key → tables.results.lookup k = w.tables.results.lookup k)
    (hstaged : ∀ task : Task, task.isTerminal = true → Staged (tables.decisions.lookup key)
      (tables.results.lookup key) outcome.state task) :
    Joint cfg initial
      (w.withTenant { tables with store := { w.gateway.world.store with accounts } }) := by
  have hlinked := h.linked.settle hop hunknown hsettled
  obtain ⟨op', hop', rfl⟩ := hsettled.result
  obtain rfl := Option.some.inj (hop.symm.trans hop')
  refine { bound := h.bound, linked := hlinked, unique := ?_, unlinked := ?_, tied := ?_ }
  · change ∀ k k' l l', tables.links.lookup k = some l → tables.links.lookup k' = some l' → _
    rw [hlinks]
    exact h.unique
  · intro k hk
    change tables.links.lookup k = none at hk
    have hne : k ≠ key := by
      rintro rfl
      rw [hlinks, hlink] at hk
      cases hk
    obtain ⟨hundecided, hunsettled⟩ := h.unlinked k (hlinks ▸ hk)
    exact ⟨(hdecisions k hne).trans hundecided, (hresults k hne).trans hunsettled⟩
  · intro k l hl
    change tables.links.lookup k = some l at hl
    rw [hlinks] at hl
    obtain ⟨op', task, ht⟩ := h.tied k l hl
    by_cases hk : k = key
    · subst hk
      obtain rfl := Option.some.inj (hlink.symm.trans hl)
      obtain rfl := Option.some.inj (hop.symm.trans ht.row)
      obtain ⟨ended, hsnapshot, hterminal⟩ := hended.terminal
      exact ⟨{ op with state := outcome.state, updated := now }, ended,
        { ht with
          row := lookup_insert _, snapshot := hsnapshot, staged := hstaged ended hterminal }⟩
    · have hne : l.opKey ≠ link.opKey := fun heq => hk (h.unique k key l link hl hlink heq)
      refine ⟨op', task, ht.congr ?_ rfl rfl ht.idle (hended.others k hk) (hdecisions k hk)
        (hresults k hk)⟩
      exact (lookup_insert' _ _ _ _).trans (if_neg hne)

/-- What a linked history says about the stage of its task. -/
theorem tied_of_history (h : Joint cfg initial w) (hh : w.tenant.HistoryOk cfg refs hist) :
    ∃ task, Tied w refs.key hist.link hist.operation task := by
  obtain ⟨op, task, ht⟩ := h.tied refs.key hist.link hh.link
  have hop : w.gateway.world.store.accounts.operations.lookup hist.link.opKey =
      some hist.operation := by
    rw [hh.opKey]
    exact hh.operation
  obtain rfl := Option.some.inj (hop.symm.trans ht.row)
  exact ⟨task, ht⟩

theorem close {row : DecisionRow} (h : Joint cfg initial w)
    (hok : CloseOk cfg w.tenant refs hist row now accounts lifecycle t) :
    Joint cfg initial (w.withTenant t) := by
  obtain ⟨task, ht⟩ := h.tied_of_history hok.history
  have hundecided : w.tables.decisions.lookup refs.key = none := hok.undecided
  have hunsettled : w.tables.results.lookup refs.key = none := by
    have hstaged := ht.staged
    rw [hundecided] at hstaged
    exact hstaged.of_undecided.1
  rw [hok.result]
  refine h.settle hok.history.link ht.row hok.unknown (hok.history.opKey ▸ hok.settled) hok.ended
    rfl ?_ (fun _ _ => rfl) ?_
  · intro k hk
    exact (lookup_insert' _ _ _ _).trans (if_neg hk)
  · intro ended hterminal
    change Staged ((w.tables.decisions.insert refs.key row).lookup refs.key)
      (w.tables.results.lookup refs.key) _ _
    rw [lookup_insert, hunsettled]
    exact .closed hok.row_body hterminal

theorem finish {completion : Readback} {decision : DecisionRow} {a : Authorization}
    {row : ResultRow} (h : Joint cfg initial w)
    (hok : FinishOk cfg w.tenant completion hist decision a row now accounts lifecycle t) :
    Joint cfg initial (w.withTenant t) := by
  obtain ⟨task, ht⟩ := h.tied_of_history hok.history
  have hdecided : w.tables.decisions.lookup completion.refs.key = some decision := hok.decided
  obtain ⟨i, d, hbody⟩ := hok.attempted
  rw [hok.result]
  refine h.settle hok.history.link ht.row hok.unknown (hok.history.opKey ▸ hok.settled) hok.ended
    rfl (fun _ _ => rfl) ?_ ?_
  · intro k hk
    exact (lookup_insert' _ _ _ _).trans (if_neg hk)
  · intro ended hterminal
    change Staged (w.tables.decisions.lookup completion.refs.key)
      ((w.tables.results.insert completion.refs.key row).lookup completion.refs.key) _ _
    rw [lookup_insert, hdecided, hok.outcome]
    exact .settled (by rw [hbody]; rfl) hok.outcome hterminal

theorem attempt {s : Authority.State} {context : QueuedAuthority} {row : DecisionRow}
    {a : Authorization} {d : Descriptor} (h : Joint cfg initial w)
    (hok : AttemptOk cfg s w.tenant context refs hist row a d t) :
    Joint cfg initial (w.withTenant t) := by
  have hundecided : w.tables.decisions.lookup refs.key = none := hok.undecided
  have hlink : w.tables.links.lookup refs.key = some hist.link := hok.history.link
  rw [hok.result]
  refine { h with unlinked := ?_, tied := ?_ }
  · intro k hk
    change w.tables.links.lookup k = none at hk
    have hne : k ≠ refs.key := by
      rintro rfl
      rw [hlink] at hk
      cases hk
    refine ⟨?_, (h.unlinked k hk).2⟩
    exact (lookup_insert' _ _ _ _).trans ((if_neg hne).trans (h.unlinked k hk).1)
  · intro k l hl
    obtain ⟨op, task, ht⟩ := h.tied k l hl
    refine ⟨op, task, ?_⟩
    by_cases hk : k = refs.key
    · subst hk
      refine { ht with staged := ?_ }
      have hstaged := ht.staged
      rw [hundecided] at hstaged
      obtain ⟨hunsettled, hstate, hworking⟩ := hstaged.of_undecided
      change Staged ((w.tables.decisions.insert refs.key row).lookup refs.key)
        (w.tables.results.lookup refs.key) _ _
      rw [lookup_insert, hunsettled, hstate]
      refine .attempted (by rw [hok.row_body]; rfl) ?_
      unfold Task.isTerminal
      rw [hworking]
      rfl
    · exact ht.congr rfl rfl rfl ht.idle rfl ((lookup_insert' _ _ _ _).trans (if_neg hk)) rfl

/-! ### Steps and runs -/

/-- **Every change keeps the joint state.** -/
theorem change (h : Joint cfg initial w) (hc : Change cfg w w') : Joint cfg initial w' := by
  cases hc with
  | gateway hexec => exact h.gateway hexec
  | accept hok => exact h.accept hok
  | admission hfresh hok => exact (h.admission hfresh hok).frame rfl rfl rfl rfl rfl
  | close hok => exact (h.close hok).frame rfl rfl rfl rfl rfl
  | attempt _ hok => exact (h.attempt hok).frame rfl rfl rfl rfl rfl
  | finish _ _ hok => exact (h.finish hok).frame rfl rfl rfl rfl rfl
  | _ => exact h.frame rfl rfl rfl rfl rfl

theorem of_fresh (h : w.Fresh cfg) :
    Joint cfg (fun agentId => (w.gateway.world.store.accounts.budgets.view agentId).spent) w where
  bound := h.bound
  linked := by
    have hgateway : w.gateway = ⟨w.gateway.world, ∅⟩ := by rw [← h.admitted]
    rw [hgateway]
    exact h.unused.linked
  unique k k' l l' hl := by simp [h.links] at hl
  unlinked k _ := by simp [h.decisions, h.results]
  tied k l hl := by simp [h.links] at hl

theorem reachable {w₀ : World} (h₀ : Joint cfg initial w₀) (hrun : (system cfg).Reachable w₀ w) :
    Joint cfg initial w :=
  hrun.invariant (I := Joint cfg initial) h₀ fun _ _ _ hs hstep =>
    hs.change (change_of_exec hstep)

end Joint

/-! ### The four stages -/

/-- The amount under which the link's token is reserved in the agent's budget. -/
def World.reserved (w : World) (link : LinkRow) : Option Cost :=
  (w.gateway.world.store.accounts.budgets.view link.agentId).reserved.lookup
    link.reservationToken

/-- What the agent has spent, is its initial spend, the link's cost once, and the cost of its
other succeeded operations. -/
def World.ChargedOnce (initial : String → Cost) (w : World) (link : LinkRow) : Prop :=
  (w.gateway.world.store.accounts.budgets.view link.agentId).spent = initial link.agentId +
    (link.reservedCost + Table.sum (succeededCost w.gateway.admitted link.agentId)
      (w.gateway.world.store.accounts.operations.erase link.opKey))

/-- The stages of an admitted task. -/
inductive Stage
  | undecided
  | closed
  | attempted
  | settled
  deriving DecidableEq, Repr

def Stage.Holds (initial : String → Cost) (w : World) (key : TaskKey) (link : LinkRow)
    (op : Operation) (task : Task) : Stage → Prop
  | .undecided =>
    w.tables.decisions.lookup key = none ∧ op.state = .unknown ∧
      w.reserved link = some link.reservedCost ∧ task.state = .working ∧ task.sequence = 1
  | .closed =>
    (∃ row, w.tables.decisions.lookup key = some row ∧ row.body.isAttempt = false) ∧
      op.state = .failed ∧ w.reserved link = none ∧ task.isTerminal = true ∧
      w.tables.results.lookup key = none
  | .attempted =>
    (∃ row, w.tables.decisions.lookup key = some row ∧ row.body.isAttempt = true) ∧
      w.tables.results.lookup key = none ∧ op.state = .unknown ∧
      w.reserved link = some link.reservedCost ∧ task.isTerminal = false
  | .settled =>
    (∃ row, w.tables.decisions.lookup key = some row ∧ row.body.isAttempt = true) ∧
      (∃ result, w.tables.results.lookup key = some result ∧
        op.state = result.outcome.state) ∧
      w.reserved link = none ∧ w.ChargedOnce initial link ∧ task.isTerminal = true

/-- The stage that decision and result tell. -/
def Stage.told : Option DecisionRow → Option ResultRow → Stage
  | none, _ => .undecided
  | some row, none => if row.body.isAttempt then .attempted else .closed
  | some _, some _ => .settled

section

variable {cfg : Config} {initial : String → Cost} {w : World} {key : TaskKey} {link : LinkRow}
  {op : Operation} {task : Task}

theorem Stage.Holds.told {stage : Stage} (h : stage.Holds initial w key link op task) :
    stage = Stage.told (w.tables.decisions.lookup key) (w.tables.results.lookup key) := by
  cases stage with
  | undecided => rw [h.1]; rfl
  | closed =>
    obtain ⟨⟨row, hrow, hbody⟩, -, -, -, hresult⟩ := h
    rw [hrow, hresult]
    simp [Stage.told, hbody]
  | attempted =>
    obtain ⟨⟨row, hrow, hbody⟩, hresult, -⟩ := h
    rw [hrow, hresult]
    simp [Stage.told, hbody]
  | settled =>
    obtain ⟨⟨row, hrow, -⟩, ⟨result, hresult, -⟩, -⟩ := h
    rw [hrow, hresult]
    rfl

theorem Tied.reserved_of_unknown (ht : Tied w key link op task) (h : Joint cfg initial w)
    (hstate : op.state = .unknown) : w.reserved link = some link.reservedCost := by
  obtain ⟨cost, hreserved, hcosted⟩ :=
    h.linked.law.unknown_pending link.opKey op link.reservationToken ht.row hstate ht.token
  obtain rfl := Option.some.inj (ht.cost.symm.trans hcosted)
  exact hreserved

theorem Tied.reserved_of_settled (ht : Tied w key link op task) (h : Joint cfg initial w)
    (hstate : op.state ≠ .unknown) : w.reserved link = none :=
  h.linked.law.settled_released link.opKey op link.reservationToken ht.row hstate ht.token

/-- The cost of a succeeded operation is one summand of the spend. -/
theorem Tied.chargedOnce (ht : Tied w key link op task) (h : Joint cfg initial w)
    (hstate : op.state = .succeeded) : w.ChargedOnce initial link := by
  have hsum := sum_erase (succeededCost w.gateway.admitted link.agentId) ht.row
  have hown : succeededCost w.gateway.admitted link.agentId link.opKey op =
      link.reservedCost := by
    unfold succeededCost
    rw [if_pos ⟨rfl, hstate⟩, ht.cost]
    rfl
  unfold World.ChargedOnce
  rw [← hown, hsum]
  exact h.linked.law.spent_eq link.agentId

theorem Tied.stage (ht : Tied w key link op task) (h : Joint cfg initial w) :
    ∃ stage : Stage, stage.Holds initial w key link op task := by
  have hstaged := ht.staged
  generalize hdecision : w.tables.decisions.lookup key = decision at hstaged
  generalize hresult : w.tables.results.lookup key = result at hstaged
  generalize hstate : op.state = state at hstaged
  cases hstaged with
  | undecided hworking hfirst =>
    exact ⟨.undecided, hdecision, hstate, ht.reserved_of_unknown h hstate, hworking, hfirst⟩
  | closed hrow hend =>
    exact ⟨.closed, ⟨_, hdecision, hrow⟩, hstate, ht.reserved_of_settled h (by simp [hstate]),
      hend, hresult⟩
  | attempted hrow hend =>
    exact ⟨.attempted, ⟨_, hdecision, hrow⟩, hresult, hstate, ht.reserved_of_unknown h hstate,
      hend⟩
  | settled hrow houtcome hend =>
    exact ⟨.settled, ⟨_, hdecision, hrow⟩, ⟨_, hresult, by rw [hstate, houtcome]; rfl⟩,
      ht.reserved_of_settled h (by simp [hstate]), ht.chargedOnce h hstate, hend⟩

end

/-- **The joint state of a queued operation.** Over every interleaving of submission, queued
admission, dispatch, recovery, cancellation, generic and manual reconciliation, synchronous calls
and budget changes: the operation of an admitted task has the link's fingerprint, and exactly one
of the four stages holds. -/
theorem queued_joint_state {cfg : Config} {w₀ w : World} {key : TaskKey} {link : LinkRow}
    (hrun : (system cfg).Reachable w₀ w) (h₀ : w₀.Fresh cfg)
    (hlink : w.tables.links.lookup key = some link) :
    ∃ op task, w.gateway.world.store.accounts.operations.lookup link.opKey = some op ∧
      op.fingerprint = link.actionSha256 ∧
      w.tables.lifecycle.snapshots.lookup key = some task ∧
      ∃! stage : Stage, stage.Holds
        (fun agentId => (w₀.gateway.world.store.accounts.budgets.view agentId).spent)
        w key link op task := by
  have h := (Joint.of_fresh h₀).reachable hrun
  obtain ⟨op, task, ht⟩ := h.tied key link hlink
  obtain ⟨stage, hstage⟩ := ht.stage h
  exact ⟨op, task, ht.row, ht.fingerprint, ht.snapshot, stage, hstage,
    fun other hother => hother.told.trans hstage.told.symm⟩

/-- The sample task is settled: its result is there, and its cost is spent. -/
theorem sample_joint_state : ∃ link, sampleFinal.tables.links.lookup sampleRefs.key = some link ∧
    Stage.told (sampleFinal.tables.decisions.lookup sampleRefs.key)
      (sampleFinal.tables.results.lookup sampleRefs.key) = .settled ∧
    ∃ op task, op.fingerprint = link.actionSha256 ∧ ∃! stage : Stage, stage.Holds (fun _ => 0)
      sampleFinal sampleRefs.key link op task := by
  obtain ⟨-, hlinked, hdecided, hsettled⟩ := sampleFinal_rows
  obtain ⟨link, hlink⟩ := Option.isSome_iff_exists.mp hlinked
  obtain ⟨decision, hdecision⟩ := Option.isSome_iff_exists.mp hdecided
  obtain ⟨result, hresult⟩ := Option.isSome_iff_exists.mp hsettled
  obtain ⟨op, task, -, hfingerprint, -, hstage⟩ :=
    queued_joint_state sampleFinal_reachable sampleWorld_fresh hlink
  exact ⟨link, hlink, by rw [hdecision, hresult]; rfl, op, task, hfingerprint, hstage⟩

end AgentBridge.Queued
