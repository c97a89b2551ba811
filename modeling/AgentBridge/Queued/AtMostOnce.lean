import AgentBridge.Queued.Change

/-!
# Queued dispatch is at most once

The tenant store and the destinations are two databases without a common transaction. What
keeps them together is one row: a decision is inserted once per task and never changed, only the
worker that inserted an attempt may call, and it calls at most once.

* `queued_dispatch_at_most_once` : **the promise holds over every interleaving**.
-/

namespace AgentBridge.Queued

open Authority Tenant List Table

/-- The committed decision of a task is the attempt with exactly this authorization. -/
def World.Attempted (w : World) (key : TaskKey) (a : Authorization) : Prop :=
  ∃ row d, w.tables.decisions.lookup key = some row ∧ row.body = .attempt a.attemptId a d

theorem World.Attempted.congr {w w' : World} {key : TaskKey} {a : Authorization}
    (h : w.Attempted key a)
    (hd : ∀ k row, w.tables.decisions.lookup k = some row →
      w'.tables.decisions.lookup k = some row) : w'.Attempted key a := by
  obtain ⟨row, d, hrow, hbody⟩ := h
  exact ⟨row, d, hd _ _ hrow, hbody⟩

/-- What an attempt authorizes is the task and the operation of its decision. -/
structure DecisionRow.Binds (row : DecisionRow) (cfg : Config) (key : TaskKey)
    (attemptId : String) (a : Authorization) : Prop where
  tenant : a.tenantId = cfg.tenantId
  task : (a.ownerId, a.taskId) = key
  operation : (a.agentId, a.operationId) = (row.base.agentId, row.base.operationId)
  named : a.attemptId = attemptId

/-- The invariant of the decisions, the effects, the results and the workers. -/
structure Sound (cfg : Config) (w : World) : Prop where
  binds : ∀ k row i a d, w.tables.decisions.lookup k = some row → row.body = .attempt i a d →
    row.Binds cfg k i a
  unique : ∀ k k' row row', w.tables.decisions.lookup k = some row →
    w.tables.decisions.lookup k' = some row' →
    (row.base.agentId, row.base.operationId) = (row'.base.agentId, row'.base.operationId) →
    k = k'
  /-- Who may call has committed the attempt, -/
  armed : ∀ id x a, w.workers.lookup id = some x → x.phase.call = some a →
    w.Attempted x.refs.key a
  /-- is the only one for its task, -/
  exclusive : ∀ id id' x x' a a', w.workers.lookup id = some x →
    w.workers.lookup id' = some x' → x.phase.call = some a → x'.phase.call = some a' →
    x.refs.key = x'.refs.key → id = id'
  /-- and has not called yet. -/
  unsent : ∀ id x a, w.workers.lookup id = some x → x.phase.call = some a →
    ∀ e ∈ w.destinations.effects, e.taskKey ≠ x.refs.key
  attempted : ∀ e ∈ w.destinations.effects, w.Attempted e.taskKey e.authorization
  once : (w.destinations.effects.map Effect.taskKey).Nodup
  observing : ∀ id x d, w.workers.lookup id = some x → x.phase = .observing d →
    w.tables.decisions.lookup x.refs.key = some d
  observed : ∀ id x c, w.workers.lookup id = some x → x.phase = .observed c →
    ∃ e ∈ w.destinations.effects, w.Attempted c.refs.key e.authorization
  settled : ∀ k r, w.tables.results.lookup k = some r → w.Attempted k r.authorization ∧
    ∃ e ∈ w.destinations.effects, e.authorization = r.authorization

namespace Sound

variable {cfg : Config} {w w' : World} {id : ℕ} {x : Worker}

variable {key : TaskKey} {a : Authorization} {row : DecisionRow}

theorem attempted_unique {a' : Authorization} (h : w.Attempted key a) (h' : w.Attempted key a') :
    a = a' := by
  obtain ⟨row, d, hrow, hbody⟩ := h
  obtain ⟨row', d', hrow', hbody'⟩ := h'
  obtain rfl := Option.some.inj (hrow.symm.trans hrow')
  rw [hbody] at hbody'
  injection hbody'

theorem task_of_attempted (h : Sound cfg w) (ha : w.Attempted key a) :
    (a.ownerId, a.taskId) = key := by
  obtain ⟨row, d, hrow, hbody⟩ := ha
  exact (h.binds key row _ a d hrow hbody).task

/-! ### The parts of a step -/

/-- Nothing is decided, done or settled, and no worker gains a right. -/
theorem frame (h : Sound cfg w) (hd : w'.tables.decisions = w.tables.decisions)
    (hr : w'.tables.results = w.tables.results)
    (he : w'.destinations.effects = w.destinations.effects)
    (hq : Quiet cfg w.workers w'.workers) : Sound cfg w' := by
  have hkeep : ∀ {key a}, w.Attempted key a → w'.Attempted key a :=
    fun ha => ha.congr fun _ _ hrow => hd ▸ hrow
  constructor
  case binds => rw [hd]; exact h.binds
  case unique => rw [hd]; exact h.unique
  case armed => exact fun id x a hx ha => hkeep (h.armed id x a (hq.call hx ha) ha)
  case exclusive =>
    intro id id' x x' a a' hx hx' ha ha'
    exact h.exclusive id id' x x' a a' (hq.call hx ha) (hq.call hx' ha') ha ha'
  case unsent =>
    rw [he]
    exact fun id x a hx ha => h.unsent id x a (hq.call hx ha) ha
  case attempted =>
    rw [he]
    exact fun e hmem => hkeep (h.attempted e hmem)
  case once => rw [he]; exact h.once
  case observing =>
    rw [hd]
    intro id x d hx hphase
    rcases hq id x hx with hx | ⟨hplain, -⟩
    · exact h.observing id x d hx hphase
    · rw [hphase] at hplain
      cases hplain
  case observed =>
    rw [he]
    intro id x c hx hphase
    rcases hq id x hx with hx | ⟨hplain, -⟩
    · obtain ⟨e, hmem, ha⟩ := h.observed id x c hx hphase
      exact ⟨e, hmem, hkeep ha⟩
    · rw [hphase] at hplain
      cases hplain
  case settled =>
    rw [he, hr]
    intro k r hresult
    obtain ⟨ha, heffect⟩ := h.settled k r hresult
    exact ⟨hkeep ha, heffect⟩

/-- A task without a decision gets one. -/
theorem decide (h : Sound cfg w) (hnone : w.tables.decisions.lookup key = none)
    (hunique : ∀ k d, w.tables.decisions.lookup k = some d → (d.base.agentId, d.base.operationId) ≠
      (row.base.agentId, row.base.operationId))
    (hbinds : ∀ i a d, row.body = .attempt i a d → row.Binds cfg key i a) :
    Sound cfg { w with
      tables := { w.tables with decisions := w.tables.decisions.insert key row } } := by
  have hgrow : ∀ k r, w.tables.decisions.lookup k = some r →
      (w.tables.decisions.insert key row).lookup k = some r := by
    intro k r hr
    rw [lookup_insert', if_neg]
    · exact hr
    · rintro rfl
      rw [hnone] at hr
      cases hr
  refine { binds := ?_, unique := ?_, exclusive := h.exclusive, unsent := h.unsent
           once := h.once, armed := ?_, attempted := ?_, observing := ?_, observed := ?_
           settled := ?_ }
  · intro k r i a d hr hbody
    simp only [lookup_insert'] at hr
    split at hr
    case isTrue hk =>
      rw [← Option.some.inj hr] at hbody ⊢
      exact hk ▸ hbinds i a d hbody
    case isFalse => exact h.binds k r i a d hr hbody
  · intro k k' r r' hr hr' heq
    simp only [lookup_insert'] at hr hr'
    split at hr <;> split at hr'
    case isTrue.isTrue hk hk' => rw [hk, hk']
    case isTrue.isFalse =>
      rw [← Option.some.inj hr] at heq
      exact absurd heq.symm (hunique k' r' hr')
    case isFalse.isTrue =>
      rw [← Option.some.inj hr'] at heq
      exact absurd heq (hunique k r hr)
    case isFalse.isFalse => exact h.unique k k' r r' hr hr' heq
  · exact fun id x a hx ha => (h.armed id x a hx ha).congr hgrow
  · exact fun e hmem => (h.attempted e hmem).congr hgrow
  · exact fun id x d hx hphase => hgrow _ _ (h.observing id x d hx hphase)
  · intro id x c hx hphase
    obtain ⟨e, hmem, ha⟩ := h.observed id x c hx hphase
    exact ⟨e, hmem, ha.congr hgrow⟩
  · intro k r hresult
    obtain ⟨ha, heffect⟩ := h.settled k r hresult
    exact ⟨ha.congr hgrow, heffect⟩

/-- A worker that is alone with its attempt, and whose task has no effect, may call. -/
theorem arm {context : QueuedAuthority} {d : Descriptor} {action : String} {checked : Bool}
    (h : Sound cfg w) (ha : w.Attempted x.refs.key a)
    (halone : ∀ id' y b, w.workers.lookup id' = some y → y.phase.call = some b → y.refs.key =
      x.refs.key → id' = id) (hunsent : ∀ e ∈ w.destinations.effects, e.taskKey ≠ x.refs.key) :
    Sound cfg (w.move id x (.sending context a d action checked)) := by
  refine { h with armed := ?_, exclusive := ?_, unsent := ?_, observing := ?_, observed := ?_ }
  · intro id' y b hy hb
    rcases of_lookup_insert hy with ⟨rfl, rfl⟩ | ⟨-, hy⟩
    · rw [← Option.some.inj hb]
      exact ha
    · exact h.armed id' y b hy hb
  · intro i j y z b c hy hz hb hc heq
    rw [World.move, lookup_insert'] at hy hz
    split at hy <;> split at hz
    case isTrue.isTrue hi hj => rw [hi, hj]
    case isTrue.isFalse hi _ =>
      rw [← Option.some.inj hy] at heq
      rw [hi, halone j z c hz hc heq.symm]
    case isFalse.isTrue hj =>
      rw [← Option.some.inj hz] at heq
      rw [hj, halone i y b hy hb heq]
    case isFalse.isFalse => exact h.exclusive i j y z b c hy hz hb hc heq
  · intro id' y b hy hb
    rcases of_lookup_insert hy with ⟨rfl, rfl⟩ | ⟨-, hy⟩
    · exact hunsent
    · exact h.unsent id' y b hy hb
  · intro id' y d' hy hphase
    rcases of_lookup_insert hy with ⟨rfl, rfl⟩ | ⟨-, hy⟩
    · cases hphase
    · exact h.observing id' y d' hy hphase
  · intro id' y c hy hphase
    rcases of_lookup_insert hy with ⟨rfl, rfl⟩ | ⟨-, hy⟩
    · cases hphase
    · exact h.observed id' y c hy hphase

theorem observe {phase : Phase} (h : Sound cfg w) (hcall : phase.call = none)
    (hobserving : ∀ d, phase = .observing d → w.tables.decisions.lookup x.refs.key = some d)
    (hobserved : ∀ c, phase = .observed c →
      ∃ e ∈ w.destinations.effects, w.Attempted c.refs.key e.authorization) :
    Sound cfg (w.move id x phase) := by
  have hold : ∀ {id' y b}, (w.move id x phase).workers.lookup id' = some y →
      y.phase.call = some b → w.workers.lookup id' = some y := by
    intro id' y b hy hb
    rcases of_lookup_insert hy with ⟨rfl, rfl⟩ | ⟨-, hy⟩
    · rw [hcall] at hb
      cases hb
    · exact hy
  refine { h with armed := ?_, exclusive := ?_, unsent := ?_, observing := ?_, observed := ?_ }
  · exact fun id' y b hy hb => h.armed id' y b (hold hy hb) hb
  · intro i j y z b c hy hz hb hc
    exact h.exclusive i j y z b c (hold hy hb) (hold hz hc) hb hc
  · exact fun id' y b hy hb => h.unsent id' y b (hold hy hb) hb
  · intro id' y d hy hphase
    rcases of_lookup_insert hy with ⟨rfl, rfl⟩ | ⟨-, hy⟩
    · exact hobserving d hphase
    · exact h.observing id' y d hy hphase
  · intro id' y c hy hphase
    rcases of_lookup_insert hy with ⟨rfl, rfl⟩ | ⟨-, hy⟩
    · exact hobserved c hphase
    · exact h.observed id' y c hy hphase

variable {e : Effect}

theorem send {ds : Destinations} (h : Sound cfg w) (hx : w.workers.lookup id = some x)
    (ha : x.phase.call = some a) (he : e.authorization = a)
    (hds : ds.effects = w.destinations.effects ++ [e]) :
    Sound cfg { w.move id x .sent with destinations := ds } := by
  have hattempted := h.armed id x a hx ha
  have hkey : e.taskKey = x.refs.key := by
    unfold Effect.taskKey
    rw [he]
    exact h.task_of_attempted hattempted
  have hmem : ∀ {e'}, e' ∈ w.destinations.effects → e' ∈ ds.effects :=
    fun h' => hds ▸ mem_append_left _ h'
  have hold : ∀ {id' y b}, (w.move id x .sent).workers.lookup id' = some y →
      y.phase.call = some b → id' ≠ id ∧ w.workers.lookup id' = some y := by
    intro id' y b hy hb
    rcases of_lookup_insert hy with ⟨rfl, rfl⟩ | ⟨hne, hy⟩
    · cases hb
    · exact ⟨hne, hy⟩
  refine { h with armed := ?_, exclusive := ?_, unsent := ?_, attempted := ?_, once := ?_
                  observing := ?_, observed := ?_, settled := ?_ }
  · exact fun id' y b hy hb => h.armed id' y b (hold hy hb).2 hb
  · intro i j y z b c hy hz hb hc
    exact h.exclusive i j y z b c (hold hy hb).2 (hold hz hc).2 hb hc
  · intro id' y b hy hb e' he'
    obtain ⟨hne, hy⟩ := hold hy hb
    simp only [hds, mem_append, mem_singleton] at he'
    rcases he' with he' | rfl
    · exact h.unsent id' y b hy hb e' he'
    · rw [hkey]
      exact fun heq => hne (h.exclusive id' id y x b a hy hx hb ha heq.symm)
  · intro e' he'
    simp only [hds, mem_append, mem_singleton] at he'
    rcases he' with he' | rfl
    · exact h.attempted e' he'
    · rw [hkey, he]
      exact hattempted
  · simp only [hds, map_append, map_cons, map_nil]
    refine nodup_append.mpr ⟨h.once, nodup_singleton _, ?_⟩
    rintro k hk k' hk' rfl
    obtain ⟨e', he', rfl⟩ := mem_map.mp hk
    rw [mem_singleton] at hk'
    exact h.unsent id x a hx ha e' he' (hk'.trans hkey)
  · intro id' y d hy hphase
    rcases of_lookup_insert hy with ⟨rfl, rfl⟩ | ⟨-, hy⟩
    · cases hphase
    · exact h.observing id' y d hy hphase
  · intro id' y c hy hphase
    rcases of_lookup_insert hy with ⟨rfl, rfl⟩ | ⟨-, hy⟩
    · cases hphase
    · obtain ⟨e', he', hc⟩ := h.observed id' y c hy hphase
      exact ⟨e', hmem he', hc⟩
  · intro k r hresult
    obtain ⟨hk, e', he', hauthorization⟩ := h.settled k r hresult
    exact ⟨hk, e', hmem he', hauthorization⟩

theorem settle {row : ResultRow} (h : Sound cfg w) (he : e ∈ w.destinations.effects)
    (hrow : e.authorization = row.authorization) (ha : w.Attempted key row.authorization) :
    Sound cfg { w with
      tables := { w.tables with results := w.tables.results.insert key row } } := by
  refine { h with settled := ?_ }
  intro k r hresult
  simp only [lookup_insert'] at hresult
  split at hresult
  case isTrue hk =>
    rw [hk, ← Option.some.inj hresult]
    exact ⟨ha, e, he, hrow⟩
  case isFalse => exact h.settled k r hresult

/-! ### Steps and runs -/

theorem binds_of_attempt {s : Authority.State} {t t' : Tenant} {context : QueuedAuthority}
    {refs : Refs} {hist : History} {a' : Authorization} {d d' : Descriptor} {i : String}
    (hok : AttemptOk cfg s t context refs hist row a d t') (hbody : row.body = .attempt i a' d') :
    row.Binds cfg refs.key i a' := by
  rw [hok.row_body] at hbody
  injection hbody with hi ha
  obtain ⟨htenant, htask, hoperation⟩ := hok.authorization
  subst ha
  exact ⟨htenant, htask, by rw [hok.row_base]; exact hoperation, hi⟩

theorem not_attempted (h : w.tables.decisions.lookup key = none) : ¬ w.Attempted key a := by
  rintro ⟨row, d, hrow, -⟩
  rw [h] at hrow
  cases hrow

/-- **Every change keeps the invariant.** -/
theorem change (h : Sound cfg w) (hc : Change cfg w w') : Sound cfg w' := by
  cases hc with
  | gateway => exact h.frame rfl rfl rfl (.refl _)
  | authority _ hquiet => exact h.frame rfl rfl rfl hquiet
  | plain hquiet heffects => exact h.frame rfl rfl heffects hquiet
  | accept hok =>
    rw [hok.result]
    exact h.frame rfl rfl rfl (.refl _)
  | admission _ hok hquiet =>
    rw [hok.result]
    exact h.frame rfl rfl rfl hquiet
  | close hok hquiet =>
    rw [hok.result]
    refine (h.decide hok.undecided (hok.row_base ▸ hok.unique) ?_).frame rfl rfl rfl hquiet
    intro i a d hbody
    have hclosed := hok.row_body
    rw [hbody] at hclosed
    cases hclosed
  | attempt hx hok hphase =>
    rw [hok.result]
    have hdecided := h.decide hok.undecided (hok.row_base ▸ hok.unique) fun _ _ _ =>
      binds_of_attempt hok
    rcases hphase with ⟨action, rfl⟩ | rfl
    · refine (hdecided.arm ?_ ?_ ?_).frame rfl rfl rfl (.refl _)
      · exact ⟨_, _, AList.lookup_insert _, hok.row_body⟩
      · intro id' y b hy hb heq
        exact absurd (heq ▸ h.armed id' y b hy hb) (not_attempted hok.undecided)
      · intro e he heq
        exact absurd (heq ▸ h.attempted e he) (not_attempted hok.undecided)
    · exact hdecided.frame rfl rfl rfl (.insert rfl trivial)
  | enter hx hphase =>
    have hcall : _ = some _ := congrArg Phase.call hphase
    exact h.arm (h.armed _ _ _ hx hcall)
      (fun id' y b hy hb heq => h.exclusive id' _ y _ b _ hy hx hb hcall heq)
      (h.unsent _ _ _ hx hcall)
  | send hx hphase hok =>
    obtain ⟨e, heffects, -, he, -⟩ := hok.appended
    exact h.send hx (congrArg Phase.call hphase) he heffects
  | observing hx hdecision =>
    refine h.observe rfl (fun d hd => ?_) (fun c hc => by cases hc)
    injection hd with hd
    rw [hdecision, hd]
  | observed hx hphase hbody heffect hrefs =>
    refine h.observe rfl (fun d hd => by cases hd) (fun c hc => ?_)
    injection hc with hc
    obtain ⟨e, he, rfl⟩ := heffect
    have hdecision := h.observing _ _ _ hx hphase
    have hnamed := (h.binds _ _ _ _ _ hdecision hbody).named
    refine ⟨e, he, _, _, ?_, hnamed ▸ hbody⟩
    rw [← hc, hrefs]
    exact hdecision
  | finish hx hphase hok hquiet =>
    rw [hok.result]
    obtain ⟨e, he, ha⟩ := h.observed _ _ _ hx hphase
    obtain ⟨i, d, hbody⟩ := hok.attempted
    have hdecided : w.tables.decisions.lookup _ = some _ := hok.decided
    have hattempted : w.Attempted _ _ :=
      ⟨_, d, hdecided, (h.binds _ _ _ _ _ hdecided hbody).named ▸ hbody⟩
    have hauthorization := attempted_unique ha hattempted
    refine (h.settle he ?_ ?_).frame rfl rfl rfl hquiet
    · rw [hok.authorization, hauthorization]
    · rw [hok.authorization]
      exact hattempted

theorem of_fresh (h : w.Fresh cfg) : Sound cfg w where
  binds k row i a d hrow := by simp [h.decisions] at hrow
  unique k k' row row' hrow := by simp [h.decisions] at hrow
  armed id x a hx := by simp [h.workers] at hx
  exclusive id id' x x' a a' hx := by simp [h.workers] at hx
  unsent id x a hx := by simp [h.workers] at hx
  attempted e he := by simp [h.effects] at he
  once := by simp [h.effects]
  observing id x d hx := by simp [h.workers] at hx
  observed id x c hx := by simp [h.workers] at hx
  settled k r hr := by simp [h.results] at hr

theorem reachable {w₀ : World} (h₀ : Sound cfg w₀) (hrun : (system cfg).Reachable w₀ w) :
    Sound cfg w :=
  hrun.invariant (I := Sound cfg) h₀ fun _ _ _ hs hstep => hs.change (change_of_exec hstep)

theorem operation_of_effect (h : Sound cfg w) (he : e ∈ w.destinations.effects) :
    ∃ row d, w.tables.decisions.lookup e.taskKey = some row ∧
      row.body = .attempt e.authorization.attemptId e.authorization d ∧
      e.key = (cfg.tenantId, row.base.agentId, row.base.operationId) := by
  obtain ⟨row, d, hrow, hbody⟩ := h.attempted e he
  have hbinds := h.binds _ _ _ _ _ hrow hbody
  refine ⟨row, d, hrow, hbody, ?_⟩
  unfold Effect.key
  rw [hbinds.tenant, hbinds.operation]

theorem taskKey_of_key (h : Sound cfg w) (he : e ∈ w.destinations.effects)
    (hrow : w.tables.decisions.lookup key = some row)
    (hkey : e.key = (cfg.tenantId, row.base.agentId, row.base.operationId)) : e.taskKey = key := by
  obtain ⟨row', d, hrow', -, hkey'⟩ := h.operation_of_effect he
  rw [hkey'] at hkey
  exact h.unique _ _ _ _ hrow' hrow (Prod.ext_iff.mp hkey).2

end Sound

/-- Elements that agree under a function without repetition are one. -/
theorem length_le_one {α β : Type} {f : α → β} {l : List α} (hl : (l.map f).Nodup)
    (h : ∀ x ∈ l, ∀ y ∈ l, f x = f y) : l.length ≤ 1 := by
  match l with
  | [] | [_] => simp
  | x :: y :: _ =>
    have heq : f x = f y := h x (by simp) y (by simp)
    simp [heq] at hl

/-- What is promised of queued dispatch in a state. -/
structure DispatchedOnce (cfg : Config) (w : World) : Prop where
  /-- All destination files together hold at most one effect per tenant, agent and operation. -/
  once : ∀ k, (w.destinations.effects.filter fun e => e.key = k).length ≤ 1
  /-- An effect has the attempt with exactly its attempt id and authorization, -/
  attempted : ∀ e ∈ w.destinations.effects, w.Attempted e.taskKey e.authorization
  /-- and that attempt was committed before the effect. -/
  preceded : ∀ act w', (system cfg).step w act w' → ∀ e ∈ w'.destinations.effects,
    e ∉ w.destinations.effects → w.Attempted e.taskKey e.authorization
  /-- A task that is closed has no effect, neither now nor later. -/
  closed : ∀ key row, w.tables.decisions.lookup key = some row → row.body.isAttempt = false →
    ∀ w', (system cfg).Reachable w w' → ∀ e ∈ w'.destinations.effects, e.taskKey ≠ key ∧
      e.key ≠ (cfg.tenantId, row.base.agentId, row.base.operationId)
  /-- A task that succeeded has the effect of that same attempt. -/
  succeeded : ∀ key row, w.tables.results.lookup key = some row → row.outcome = .succeeded →
    ∃ e ∈ w.destinations.effects, e.taskKey = key ∧ e.authorization = row.authorization ∧
      w.Attempted key e.authorization

theorem Sound.dispatchedOnce {cfg : Config} {w : World} (h : Sound cfg w) :
    DispatchedOnce cfg w where
  once k := by
    refine length_le_one (f := Effect.taskKey)
      (h.once.sublist (filter_sublist.map Effect.taskKey)) ?_
    intro e he e' he'
    simp only [mem_filter, decide_eq_true_eq] at he he'
    obtain ⟨row, d, hrow, -, hkey⟩ := h.operation_of_effect he'.1
    exact h.taskKey_of_key he.1 hrow (he.2.trans (he'.2.symm.trans hkey))
  attempted := h.attempted
  preceded act w' hstep e he hnew := by
    rcases (change_of_exec hstep).effects with heq | ⟨id, x, e', hx, hcall, -, happend⟩
    · exact absurd (heq ▸ he) hnew
    · rw [happend, mem_append, mem_singleton] at he
      obtain rfl := he.resolve_left hnew
      have harmed := h.armed id x _ hx hcall
      have htask : e.taskKey = x.refs.key := h.task_of_attempted harmed
      rw [htask]
      exact harmed
  closed key row hrow hclosed w' hrun e he := by
    have h' := h.reachable hrun
    have hrow' : w'.tables.decisions.lookup key = some row :=
      hrun.invariant (I := fun v => v.tables.decisions.lookup key = some row) hrow
        fun _ _ _ hv hstep => (change_of_exec hstep).decisions hv
    have htask : e.taskKey ≠ key := by
      rintro rfl
      obtain ⟨row', d, hrow'', hbody⟩ := h'.attempted e he
      obtain rfl := Option.some.inj (hrow'.symm.trans hrow'')
      rw [hbody] at hclosed
      cases hclosed
    exact ⟨htask, fun hkey => htask (h'.taskKey_of_key he hrow' hkey)⟩
  succeeded key row hrow _ := by
    obtain ⟨ha, e, he, heq⟩ := h.settled key row hrow
    refine ⟨e, he, ?_, heq, heq ▸ ha⟩
    unfold Effect.taskKey
    rw [heq]
    exact h.task_of_attempted ha

/-- **Queued dispatch is at most once, and never acts without, or after giving up, a durable
decision.** Over every interleaving of any number of workers that dispatch, recover, cancel and
reconcile, on the same and on different tasks, with crashes after every step and commits whose
acknowledgement is lost. -/
theorem queued_dispatch_at_most_once {cfg : Config} {w₀ w : World}
    (hrun : (system cfg).Reachable w₀ w) (h₀ : w₀.Fresh cfg) : DispatchedOnce cfg w :=
  ((Sound.of_fresh h₀).reachable hrun).dispatchedOnce

/-- The sample task has one effect. -/
theorem sample_dispatched_once :
    sampleFinal.destinations.effects.map Effect.key = [("acme", "bot", "operation-000001")] ∧
      DispatchedOnce sampleConfig sampleFinal :=
  ⟨sampleFinal_rows.1, queued_dispatch_at_most_once sampleFinal_reachable sampleWorld_fresh⟩

end AgentBridge.Queued
