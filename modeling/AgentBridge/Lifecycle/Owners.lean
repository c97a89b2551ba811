import AgentBridge.Table.Filter
import AgentBridge.Lifecycle.History

/-!
# One owner's tasks and another owner's calls

Every write sums up the reservations of all tasks of all owners. On PostgreSQL the sum reads each
unfinished snapshot through `snapshot::jsonb`, and that cast raises an error for the escape of NUL
and for the escape of half a surrogate pair. `_identifier` accepts both in a context id, so one
stored task can make every later write of every owner fail.

Where the context ids of an owner can be cast, the calls of another owner do not see that owner's
tasks, apart from the two limits all owners share.

* `owners_independent` : **an owner whose context ids PostgreSQL can hold does not change what
  another owner's call does.**
-/

namespace AgentBridge.Durable

open JsonText Except Table

/-- The store without the rows of one owner. -/
def Tables.without (t : Tables) (a : PyString) : Tables :=
  { t with snapshots := t.snapshots.filter fun k => k.1 ≠ a
           events := t.events.filter fun k => k.1.1 ≠ a }

/-- A call of one owner on a task of its own. -/
inductive Call
  | create (task : TaskLifecycle)
  | transition (taskId : PyString) (newState : TaskState) (expectedSequence : ℤ)
  | cancel (taskId : PyString) (expectedSequence : ℤ)
  | get (taskId : PyString)
  | events (taskId : PyString) (afterSequence : ℤ) (limit : ℕ)

/-- What a call returns. -/
inductive Reply
  | task (s : Snapshot)
  | page (events : List Snapshot)
  deriving DecidableEq

def Tables.perform (t : Tables) (cfg : Config) (owner : PyString) :
    Call → Except LifecycleFault (Reply × Tables)
  | .create task => do
    let t' ← t.create cfg owner task
    return (.task task.1, t')
  | .transition taskId newState expectedSequence => do
    let (updated, t') ← t.transition cfg (owner, taskId) newState expectedSequence
    return (.task updated, t')
  | .cancel taskId expectedSequence => do
    let (updated, t') ← t.cancel cfg (owner, taskId) expectedSequence
    return (.task updated, t')
  | .get taskId => do
    let s ← t.get cfg (owner, taskId)
    return (.task s, t)
  | .events taskId afterSequence limit => do
    let page ← t.eventPage cfg (owner, taskId) afterSequence limit
    return (.page page, t)

/-- A refusal by a limit that all owners share. -/
def SharedLimit (e : LifecycleFault) : Prop :=
  e = .capacity "historical-task capacity reached; reviewed capacity increase required" ∨
  e = .capacity "event-byte capacity reached; recovery and terminal capacity are reserved"

/-- PostgreSQL can read the reservation of every task of the owner. -/
def Castable (t : Tables) (a : PyString) : Prop :=
  ∀ key row, t.snapshots.lookup key = some row → key.1 = a →
    ∃ n, reserveSql .postgres row = .ok n

/-! ### One call -/

section OneCall

variable {cfg : Config} {t : Tables} {a b : PyString} {key : Key}

theorem without_lookup (hkey : key.1 ≠ a) :
    (t.without a).snapshots.lookup key = t.snapshots.lookup key := by
  have h := lookup_filter (fun k : Key => k.1 ≠ a) t.snapshots key
  rw [if_pos (decide_eq_true hkey)] at h
  exact h

theorem without_event (hkey : key.1 ≠ a) (n : ℕ) :
    (t.without a).events.lookup (key, n) = t.events.lookup (key, n) := by
  have h := lookup_filter (fun k : Key × ℕ => k.1.1 ≠ a) t.events (key, n)
  rw [if_pos (decide_eq_true hkey)] at h
  exact h

theorem without_eventCount (hkey : key.1 ≠ a) : (t.without a).eventCount key = t.eventCount key := by
  refine countP_filter _ _ fun e he => ?_
  rw [decide_eq_true_eq] at he ⊢
  rw [he]
  exact hkey

theorem without_active (hne : b ≠ a) : (t.without a).active b = t.active b := by
  refine countP_filter _ _ fun e he => ?_
  rw [Bool.and_eq_true, decide_eq_true_eq] at he
  rw [decide_eq_true_eq, he.1]
  exact hne

theorem without_insert (hkey : key.1 ≠ a) (row : Row) :
    { t with snapshots := t.snapshots.insert key row }.without a =
      { t.without a with snapshots := (t.without a).snapshots.insert key row } := by
  have h := filter_insert (p := fun k : Key => k.1 ≠ a) (decide_eq_true hkey) t.snapshots row
  simp only [Tables.without, h]

theorem without_insert_event (hkey : key.1 ≠ a) (n : ℕ) (raw : List Char) :
    { t with events := t.events.insert (key, n) raw }.without a =
      { t.without a with events := (t.without a).events.insert (key, n) raw } := by
  have h := filter_insert (p := fun k : Key × ℕ => k.1.1 ≠ a) (k := (key, n))
    (decide_eq_true hkey) t.events raw
  simp only [Tables.without, h]

theorem without_current (hkey : key.1 ≠ a) : (t.without a).current key = t.current key := by
  unfold Tables.current
  rw [without_lookup hkey]

/-- The scan of the reservations fails on both stores or on none. -/
theorem usage_without (hcast : Castable t a) :
    Except.Rel True (fun x y => y.1 ≤ x.1 ∧ y.2 ≤ x.2) (t.usage .postgres)
      ((t.without a).usage .postgres) := by
  have hscan := mapM_filter (p := fun e : Sigma fun _ : Key => Row => decide (e.1.1 ≠ a))
    (f := fun e => reserveSql .postgres e.2) t.snapshots.entries fun e he hp => by
      refine hcast e.1 e.2 (AList.mem_lookup_iff.mpr he) ?_
      simpa using hp
  have hused : (t.without a).used ≤ t.used :=
    sum_filter_le _ (fun _ raw => byteLength raw) t.events
  refine Except.Rel.bind ?_ fun r r₀ _ _ hle => ⟨hused, hle⟩
  refine hscan.bind fun l l₀ _ _ hsub => ?_
  exact hsub.sum_le_sum fun _ _ => Nat.zero_le _

theorem checkEventAppend_without (hcast : Castable t a) (raw : List Char) (d : ℤ) :
    Except.RelUnless SharedLimit (fun _ _ => True) (t.checkEventAppend .postgres raw d)
      ((t.without a).checkEventAppend .postgres raw d) := by
  refine Except.RelUnless.bind_eq rfl fun _ _ => ?_
  refine Except.RelUnless.bind (.inr (usage_without hcast)) fun x y _ _ hle => ?_
  refine Except.RelUnless.bind_eq rfl fun cap _ => ?_
  refine Except.RelUnless.of_require (.inr rfl) fun hfits => ?_
  rw [decide_eq_true_eq] at hfits ⊢
  obtain ⟨hused, hreserved⟩ := hle
  omega

/-- The row written with and without the other owner's rows. -/
theorem insertSnapshot_without (ht : cfg.tenant = false) (hkey : key.1 ≠ a) (row : Row) :
    Except.Rel True (fun x y => x.without a = y) (t.insertSnapshot cfg key row)
      ((t.without a).insertSnapshot cfg key row) := by
  have hbytes : ∀ u : Tables, u.byteTrigger cfg row.raw
      (Tables.snapshotAdjustment cfg.backend row) = .ok () := fun u => by
    rw [Tables.byteTrigger, ht]; rfl
  have hhistory : ∀ u : Tables, u.historyTrigger cfg = .ok () := fun u => by
    rw [Tables.historyTrigger, ht]; rfl
  unfold Tables.insertSnapshot Table.insertNew
  rw [hbytes, hbytes, hhistory, hhistory, without_lookup hkey]
  cases t.snapshots.lookup key with
  | none => exact without_insert hkey row
  | some old => exact fun _ => rfl

@[inherit_doc insertSnapshot_without]
theorem insertEvent_without (ht : cfg.tenant = false) (hkey : key.1 ≠ a) (n : ℕ)
    (raw : List Char) :
    Except.Rel True (fun x y => x.without a = y) (t.insertEvent cfg key n raw)
      ((t.without a).insertEvent cfg key n raw) := by
  have hbytes : ∀ u : Tables, u.byteTrigger cfg raw
      (u.eventAdjustment cfg.backend key raw) = .ok () := fun u => by
    rw [Tables.byteTrigger, ht]; rfl
  unfold Tables.insertEvent Table.insertNew
  rw [hbytes, hbytes, without_event hkey]
  cases t.events.lookup (key, n) with
  | none => exact without_insert_event hkey n raw
  | some old => exact fun _ => rfl

theorem create_without (hb : cfg.backend = .postgres) (ht : cfg.tenant = false) (hne : b ≠ a)
    (hcast : Castable t a) (task : TaskLifecycle) :
    Except.RelUnless SharedLimit (fun x y => x.without a = y) (t.create cfg b task)
      ((t.without a).create cfg b task) := by
  refine Except.RelUnless.bind_eq rfl fun _ _ => ?_
  refine Except.RelUnless.bind_eq rfl fun _ _ => ?_
  refine Except.RelUnless.bind_eq rfl fun _ _ => ?_
  refine Except.RelUnless.bind_eq (by rw [without_lookup hne]) fun _ _ => ?_
  refine Except.RelUnless.bind_eq rfl fun cap _ => ?_
  refine Except.RelUnless.bind (R := fun _ _ => True) ?_ fun _ _ _ _ _ => ?_
  · refine Except.RelUnless.of_require (.inl rfl) fun hroom => ?_
    rw [decide_eq_true_eq] at hroom ⊢
    exact (List.length_filter_le _ _).trans_lt hroom
  refine Except.RelUnless.bind_eq (by rw [without_active hne]) fun _ _ => ?_
  refine Except.RelUnless.bind (R := fun _ _ => True) ?_ fun _ _ _ _ _ => ?_
  · rw [hb]
    exact checkEventAppend_without hcast _ _
  refine Except.RelUnless.bind (.inr (insertSnapshot_without ht hne _)) fun x y _ _ hxy => ?_
  subst hxy
  exact .inr (insertEvent_without ht hne _ _)

theorem transition_without (hb : cfg.backend = .postgres) (ht : cfg.tenant = false)
    (hkey : key.1 ≠ a) (hcast : Castable t a) (newState : TaskState) (e : ℤ) :
    Except.RelUnless SharedLimit (fun x y => x.1 = y.1 ∧ x.2.without a = y.2)
      (t.transition cfg key newState e) ((t.without a).transition cfg key newState e) := by
  refine Except.RelUnless.bind_eq rfl fun _ _ => ?_
  refine Except.RelUnless.bind_eq rfl fun _ _ => ?_
  refine Except.RelUnless.bind_eq rfl fun _ _ => ?_
  refine Except.RelUnless.bind_eq (without_current hkey).symm fun cur _ => ?_
  refine Except.RelUnless.bind_eq rfl fun _ _ => ?_
  refine Except.RelUnless.bind_eq rfl fun updated _ => ?_
  refine Except.RelUnless.bind_eq (by simp only [Tables.hasRoom, without_eventCount hkey])
    fun _ _ => ?_
  refine Except.RelUnless.bind (R := fun _ _ => True) ?_ fun _ _ _ _ _ => ?_
  · rw [hb]
    exact checkEventAppend_without hcast _ _
  refine Except.RelUnless.bind (.inr (insertEvent_without ht hkey _ _)) fun x y _ _ hxy => ?_
  subst hxy
  exact .inr ⟨rfl, without_insert hkey _⟩

theorem get_without (hkey : key.1 ≠ a) : t.get cfg key = (t.without a).get cfg key := by
  unfold Tables.get
  rw [without_current hkey]

theorem eventPage_without (hkey : key.1 ≠ a) (after : ℤ) (limit : ℕ) :
    t.eventPage cfg key after limit = (t.without a).eventPage cfg key after limit := by
  have hrows : ((t.without a).events.entries.filter fun e =>
        e.1.1 = key && decide (after < e.1.2)) =
      t.events.entries.filter fun e => e.1.1 = key && decide (after < e.1.2) := by
    refine filter_entries_filter _ _ fun e he => ?_
    rw [Bool.and_eq_true, decide_eq_true_eq] at he
    rw [decide_eq_true_eq, he.1]
    exact hkey
  unfold Tables.eventPage
  rw [without_current hkey, hrows]

/-- One call, with and without the rows of another owner. -/
theorem perform_without (hb : cfg.backend = .postgres) (ht : cfg.tenant = false) (hne : b ≠ a)
    (hcast : Castable t a) (call : Call) :
    Except.RelUnless SharedLimit (fun x y => x.1 = y.1 ∧ x.2.without a = y.2)
      (t.perform cfg b call) ((t.without a).perform cfg b call) := by
  cases call with
  | create task =>
    refine (create_without hb ht hne hcast task).bind fun x y _ _ hxy => ?_
    exact .inr ⟨rfl, hxy⟩
  | transition taskId newState e =>
    refine (transition_without hb ht hne hcast newState e).bind fun x y _ _ hxy => ?_
    exact .inr ⟨congrArg Reply.task hxy.1, hxy.2⟩
  | cancel taskId e =>
    refine (transition_without hb ht hne hcast .canceled e).bind fun x y _ _ hxy => ?_
    exact .inr ⟨congrArg Reply.task hxy.1, hxy.2⟩
  | get taskId =>
    refine Except.RelUnless.bind_eq (get_without hne) fun s _ => ?_
    exact .inr ⟨rfl, rfl⟩
  | events taskId after limit =>
    refine Except.RelUnless.bind_eq (eventPage_without hne after limit) fun page _ => ?_
    exact .inr ⟨rfl, rfl⟩

end OneCall

/-! ### Which tasks can be cast -/

theorem isPgText_stateText (state : TaskState) :
    (PyString.ofString (stateText state)).isPgText = true := by
  cases state <;> decide +kernel

theorem isPgText_sourceProtocol {s : Snapshot} (h : s.check = .ok ()) :
    s.sourceProtocol.norm.isPgText = true := by
  simp only [Snapshot.check, bind_eq_ok, require_eq_ok] at h
  obtain ⟨-, -, -, -, -, -, hprotocol⟩ := h
  simp only [Bool.or_eq_true, decide_eq_true_eq] at hprotocol
  rcases hprotocol with heq | heq <;> rw [heq] <;> decide +kernel

/-- The cast succeeds if the two ids can be held. -/
theorem jsonb_encode {s : Snapshot} (h : s.check = .ok ())
    (hcontext : s.contextId.norm.isPgText = true) (htask : s.taskId.norm.isPgText = true) :
    jsonb (encode s) = some s.fields := by
  simp only [jsonb, parse_encode, Option.bind_eq_bind, Option.bind_some, Snapshot.fields, hcontext,
    htask, isPgText_sourceProtocol h, isPgText_stateText, Bool.and_self, if_true]
  rfl

theorem isPgText_of_bindText {s : PyString} (h : bindText .postgres s = .ok ()) :
    s.norm.isPgText = true := by
  simp only [bindText, bind_eq_ok, require_eq_ok] at h
  obtain ⟨-, hencodable, hnul⟩ := h
  rw [PyString.norm_of_isEncodable hencodable, PyString.isPgText, hencodable, Bool.true_and]
  exact hnul

/-- The calls of owner `a` create tasks with context ids that PostgreSQL can hold. -/
def Action.storable (a : PyString) : Action → Prop
  | .create owner task => owner = a → task.1.contextId.norm.isPgText = true
  | _ => True

/-- The tasks of owner `a` have ids that PostgreSQL can hold. -/
def Held (t : Tables) (a : PyString) : Prop :=
  ∀ key row, t.snapshots.lookup key = some row → key.1 = a → ∀ s, decode row.raw = .ok s →
    s.contextId.norm.isPgText = true ∧ s.taskId.norm.isPgText = true

theorem Held.castable {cfg : Config} {w : World} {a : PyString} (hi : Inv cfg w)
    (h : Held w.tables a) : Castable w.tables a := by
  intro key row hrow hkey
  obtain ⟨hist, hs, -⟩ := hi.stored key row hrow
  have hraw : row.raw = encode hist.last := by rw [hs.row]
  obtain ⟨hcontext, htask⟩ := h key row hrow hkey hist.last (by rw [hraw, hist.decode_last])
  have hcast := jsonb_encode (hist.stored _ hist.last_mem).1 hcontext htask
  unfold reserveSql
  split
  · exact ⟨0, rfl⟩
  · rw [storedState, hraw, hcast]
    exact ⟨_, rfl⟩

theorem Held.exec {cfg : Config} (hb : cfg.backend = .postgres) {w w' : World} {a : PyString}
    {x : Action} (hx : x.storable a) (hi : Inv cfg w) (hh : Held w.tables a)
    (h : exec cfg w x = .ok w') : Held w'.tables a := by
  intro key row hrow hkey s hdecode
  rcases step_cases h with ⟨owner, task, rfl, hc, -⟩ | ⟨key', newState, e, updated, -, hm, -⟩ |
    ⟨n, -, -, -, -, rfl⟩ | ⟨n, -, -, -, -, rfl⟩
  · rw [hc.result, Tables.append_lookup] at hrow
    split at hrow
    case isTrue heq =>
      -- the new task is read back in its normal form
      subst heq
      cases hrow
      rw [decode_encode task.2] at hdecode
      cases hdecode
      have hbound := hc.bound
      rw [hb] at hbound
      obtain ⟨_, -, htask⟩ := bind_eq_ok.mp hbound
      show task.1.contextId.norm.norm.isPgText = true ∧ task.1.taskId.norm.norm.isPgText = true
      rw [PyString.norm_norm, PyString.norm_norm]
      exact ⟨hx hkey, isPgText_of_bindText htask⟩
    case isFalse => exact hh key row hrow hkey s hdecode
  · obtain ⟨old, hist, hold, hs, -, -, hfollows, -, ⟨hcheck, hnorm⟩, -, -⟩ := hi.moved hm
    rw [hm.result, Tables.append_lookup] at hrow
    split at hrow
    case isTrue heq =>
      subst heq
      cases hrow
      rw [decode_encode hcheck, hnorm] at hdecode
      cases hdecode
      rw [hfollows.contextId, hfollows.taskId]
      refine hh key old hold hkey hist.last ?_
      rw [hs.row]
      exact hist.decode_last
    case isFalse => exact hh key row hrow hkey s hdecode
  · exact hh key row hrow hkey s hdecode
  · exact hh key row hrow hkey s hdecode

/-- **An owner whose context ids PostgreSQL can hold does not change what another owner's call
does.** After any calls of any owners, a call of `b` is refused by a shared limit, or it has the
same reply or error, and the same effect, as on the store without the tasks of `a`. -/
theorem owners_independent (cfg : Config) (hb : cfg.backend = .postgres) (ht : cfg.tenant = false)
    (maxBytes : ℕ) (a b : PyString) (hne : b ≠ a) (calls : List Action)
    (hcalls : ∀ x ∈ calls, x.storable a) (call : Call) (t : Tables)
    (hrun : t = (LTS.drive (exec cfg) (World.initial maxBytes) calls).tables) :
    (∃ e, SharedLimit e ∧ t.perform cfg b call = .error e) ∨
    (∃ e, t.perform cfg b call = .error e ∧ (t.without a).perform cfg b call = .error e) ∨
    ∃ reply t', t.perform cfg b call = .ok (reply, t') ∧
      (t.without a).perform cfg b call = .ok (reply, t'.without a) := by
  have hboth : ∀ w, w = LTS.drive (exec cfg) (World.initial maxBytes) calls →
      Inv cfg w ∧ Held w.tables a := by
    rintro w rfl
    refine LTS.drive_invariant (I := fun w => Inv cfg w ∧ Held w.tables a)
      ⟨Inv.initial cfg maxBytes, fun _ _ h => by cases h⟩ ?_
    rintro w x w' hx ⟨hi, hh⟩ h
    exact ⟨hi.exec h, hh.exec hb (hcalls x hx) hi h⟩
  obtain ⟨hi, hh⟩ := hboth _ rfl
  have hcast := hh.castable hi
  rw [← hrun] at hcast
  rcases perform_without hb ht hne hcast call with hlimit | hrel
  · exact .inl hlimit
  · right
    cases hx : t.perform cfg b call with
    | error e =>
      rw [hx] at hrel
      cases hy : (t.without a).perform cfg b call with
      | error e' =>
        rw [hy] at hrel
        exact .inl ⟨e, rfl, by rw [hrel trivial]⟩
      | ok y =>
        rw [hy] at hrel
        exact hrel.elim
    | ok x =>
      rw [hx] at hrel
      cases hy : (t.without a).perform cfg b call with
      | error e' =>
        rw [hy] at hrel
        exact hrel.elim
      | ok y =>
        rw [hy] at hrel
        obtain ⟨hreply, htables⟩ := hrel
        exact .inr ⟨x.1, x.2, rfl, by rw [hreply, htables]⟩

/-- A standalone PostgreSQL store. -/
def postgresConfig : Config where
  backend := .postgres
  tenant := false
  maxActive := 2
  maxEvents := 8
  maxActive_bounds := by decide
  maxEvents_bounds := by decide

/-- Another owner. -/
def bob : PyString := .ofString "bob"

/-- Both owners create a task that PostgreSQL can read. -/
theorem sample_owners_independent :
    let t := (LTS.drive (exec postgresConfig) (World.initial 67108864)
      [.create bob sampleTask, .create sampleKey.1 sampleTask]).tables
    t.historyCount = 2 ∧
    ((∃ e, SharedLimit e ∧
        t.perform postgresConfig bob (.cancel sampleKey.2 0) = .error e) ∨
      (∃ e, t.perform postgresConfig bob (.cancel sampleKey.2 0) = .error e ∧
        (t.without sampleKey.1).perform postgresConfig bob (.cancel sampleKey.2 0) = .error e) ∨
      ∃ reply t', t.perform postgresConfig bob (.cancel sampleKey.2 0) = .ok (reply, t') ∧
        (t.without sampleKey.1).perform postgresConfig bob (.cancel sampleKey.2 0) =
          .ok (reply, t'.without sampleKey.1)) := by
  have hcontext : sampleTask.1.contextId.norm.isPgText = true := by decide +kernel
  refine ⟨by decide +kernel, owners_independent postgresConfig rfl rfl 67108864 sampleKey.1 bob
    (by decide +kernel) _ ?_ _ _ rfl⟩
  intro x hx
  rcases List.mem_pair.mp hx with rfl | rfl
  · exact fun _ => hcontext
  · exact fun _ => hcontext

/-- A context id with NUL inside, as `TaskLifecycle` accepts it. -/
def poisonTask : TaskLifecycle :=
  ⟨{ taskId := .ofString "task-1", contextId := ⟨[99, 0, 99], by decide⟩
     sourceProtocol := .ofString "a2a" }, by decide +kernel⟩

/-- **A context id with NUL stops another owner's writes.** Bob can neither cancel a task nor
create one, with an error of the database, and both would succeed without Alice's task. -/
theorem one_owner_disables_another :
    let t := (LTS.drive (exec postgresConfig) (World.initial 67108864)
      [.create bob sampleTask, .create sampleKey.1 poisonTask]).tables
    let other : TaskLifecycle :=
      ⟨{ sampleTask.1 with taskId := .ofString "task-2" }, by decide +kernel⟩
    bob ≠ sampleKey.1 ∧ (t.snapshots.lookup sampleKey).isSome = true ∧
    t.perform postgresConfig bob (.cancel sampleKey.2 0) =
      .error (.database "unsupported Unicode escape sequence") ∧
    ((t.without sampleKey.1).perform postgresConfig bob (.cancel sampleKey.2 0)).isOk = true ∧
    t.perform postgresConfig bob (.create other) =
      .error (.database "unsupported Unicode escape sequence") ∧
    ((t.without sampleKey.1).perform postgresConfig bob (.create other)).isOk = true := by
  refine ⟨by decide +kernel, by decide +kernel, error?_eq_some.mp ?_, by decide +kernel,
    error?_eq_some.mp ?_, by decide +kernel⟩
  · decide +kernel
  · decide +kernel

end AgentBridge.Durable
