import AgentBridge.Approvals.Queue

/-!
# Approvals are one-shot and request-exact

A grant is found by a listing that may be stale and is then updated on a condition. Since the
update is made under the write lock and only from `approved`, a grant is used up at most once, and
since its text is compared with that of the call, only for a call with the same text. A request
fingerprint has 64 characters, so the text determines the capability and the fingerprint, whatever
characters the capability contains.

* `approvals_one_shot` : **the number of admissions, the finality of decisions, rollback, and the
  exactness of grants**, on both backends.
-/

namespace AgentBridge.Approvals

open List Table AList

open Except (bind_eq_ok pure_eq_ok)

/-! ### What a row may become -/

/-- The statuses that a status leads to. -/
def follows : ApprovalStatus → ApprovalStatus → Prop
  | .pending, _ => True
  | .approved, s => s = .approved ∨ s = .consumed
  | .denied, s => s = .denied
  | .consumed, s => s = .consumed

theorem follows.refl (s : ApprovalStatus) : follows s s := by
  cases s <;> simp [follows]

theorem follows.trans {s s' s'' : ApprovalStatus} (h : follows s s') (h' : follows s' s'') :
    follows s s'' := by
  cases s with
  | pending => trivial
  | approved => rcases h with rfl | rfl <;> simp_all [follows]
  | denied | consumed => obtain rfl := h; exact h'

/-- A row keeps its agent and its text, and its status moves on. -/
structure Row.Later (row row' : Row) : Prop where
  agentId : row'.agentId = row.agentId
  capability : row'.capability = row.capability
  status : follows row.status row'.status

theorem Row.Later.refl (row : Row) : row.Later row := ⟨rfl, rfl, .refl _⟩

theorem Row.Later.trans (a b c : Row) (h : a.Later b) (h' : b.Later c) : a.Later c :=
  ⟨h'.agentId.trans h.agentId, h'.capability.trans h.capability, h.status.trans h'.status⟩

theorem Row.Later.isFor {row row' : Row} (h : row.Later row') (c : Call) :
    row'.isFor c = row.isFor c := by
  simp only [Row.isFor, h.agentId, h.capability]

/-- The text determines the triple. -/
theorem eq_of_scopedCapability {c c' : Call} (h : c.isTriple = true) (h' : c'.isTriple = true)
    (hagent : c.agentId = c'.agentId) (htext : c.scopedCapability = c'.scopedCapability) :
    c = c' := by
  obtain ⟨agent, capability, scope⟩ := c
  obtain ⟨agent', capability', scope'⟩ := c'
  obtain ⟨s, rfl, hs⟩ := (Option.any_eq_true _ _).mp h
  obtain ⟨s', rfl, hs'⟩ := (Option.any_eq_true _ _).mp h'
  have hlen : s.toList.length = s'.toList.length := by
    simp only [isHex, Bool.and_eq_true, beq_iff_eq] at hs hs'
    rw [hs.1, hs'.1]
  have hlist : capability.toList ++ ("|".toList ++ s.toList) =
      capability'.toList ++ ("|".toList ++ s'.toList) := by
    have := congrArg String.toList htext
    simpa [Call.scopedCapability] using this
  have htail : ("|".toList ++ s.toList).length = ("|".toList ++ s'.toList).length := by
    simp [hlen]
  obtain ⟨hcapability, hscope⟩ := append_inj' hlist htail
  obtain rfl : capability = capability' := String.toList_inj.mp hcapability
  obtain rfl : s = s' := String.toList_inj.mp (append_cancel_left hscope)
  cases hagent
  rfl

/-! ### What a step can do -/

/-- The effect of a step. -/
inductive Outcome (w : World) : World → Prop
  /-- A request whose id is taken. -/
  | same : Outcome w w
  | request {id : String} {call : Call} {row : Row} (hnew : w.rows.lookup id = none)
      (hrow : row.isFor call = true) (hpending : row.status = .pending) :
      Outcome w { w with rows := w.rows.insert id row, requests := w.requests.insert id call }
  | start {n : ℕ} {task : Task} {lock : Option ℕ} (hnew : w.workers.lookup n = none)
      (hlock : lock = w.lock ∨ w.lock.all (· == n) = true) :
      Outcome w { w with workers := w.workers.insert n ⟨task, .ready⟩, lock }
  | pass {n : ℕ} {x : Worker} (hx : w.workers.lookup n = some x) : Outcome w (w.move n x .passed)
  | scan {n : ℕ} {x : Worker} {c : Call} (hx : w.workers.lookup n = some x)
      (hcall : x.task.call? = some c) :
      Outcome w (w.move n x (.looping (listApproved w.rows c)))
  /-- The update found the expected status. -/
  | write {n : ℕ} {x : Worker} {id : String} (hx : w.workers.lookup n = some x)
      (hlock : w.lock.all (· == n) = true) (hstatus : w.hasStatus id x.task.expected = true)
      (hfrom : (∃ granted, x.task = .decide id granted) ∨ ∃ ids, x.phase = .looping (id :: ids)) :
      Outcome w { w.move n x (.written id) with lock := some n }
  /-- The update found another status, and the loop goes on. -/
  | skip {n : ℕ} {x : Worker} {id : String} {ids : List String} {lock : Option ℕ}
      (hx : w.workers.lookup n = some x) (hphase : x.phase = .looping (id :: ids))
      (hlock : w.lock.all (· == n) = true) (hnext : lock = w.lock ∨ lock = some n) :
      Outcome w { w.move n x (.looping ids) with lock }
  | leave {n : ℕ} {x : Worker} (hx : w.workers.lookup n = some x) : Outcome w (w.leave n)
  | commit {n : ℕ} {x : Worker} {id : String} (hx : w.workers.lookup n = some x)
      (hphase : x.phase = .written id) : Outcome w (commitWritten w n x id)
  | complete {n : ℕ} {x : Worker} {id : String} {c : Call} (hx : w.workers.lookup n = some x)
      (hphase : x.phase = .granted id) (htask : x.task = .consume c) :
      Outcome w { w.leave n with admissions := w.admissions ++ [⟨id, c⟩] }

section Inversion

variable {b : Backend} {w w' : World} {n : ℕ} {x : Worker}

theorem worker_eq_ok : w.worker n = .ok x ↔ w.workers.lookup n = some x := by
  unfold World.worker
  split <;> simp_all

theorem bind_worker_eq_ok {f : Worker → Except Fault World} :
    (w.worker n >>= f) = .ok w' ↔ ∃ x, w.workers.lookup n = some x ∧ f x = .ok w' := by
  simp only [bind_eq_ok, worker_eq_ok]

theorem acquire_eq_ok {u : Unit} : w.acquire n = .ok u ↔ w.lock.all (· == n) = true := by
  simp [World.acquire]

/-- The conditional update writes, or leaves the other world. -/
theorem outcome_of_tryWrite {id : String} {otherwise : World}
    (hx : w.workers.lookup n = some x) (hlock : w.lock.all (· == n) = true)
    (hfrom : (∃ granted, x.task = .decide id granted) ∨ ∃ ids, x.phase = .looping (id :: ids))
    (hother : Outcome w otherwise) : Outcome w (w.tryWrite n x id otherwise) := by
  unfold World.tryWrite
  by_cases hstatus : w.hasStatus id x.task.expected = true
  · rw [if_pos hstatus]
    exact .write hx hlock hstatus hfrom
  · rw [if_neg hstatus]
    exact hother

/-- **Every step is one of the outcomes.** -/
theorem outcome_of_exec {act : Action} (h : exec b w act = .ok w') : Outcome w w' := by
  cases act with
  | request id call cost createdAt =>
    simp only [exec, bind_eq_ok, require_eq_ok] at h
    obtain ⟨-, -, h⟩ := h
    split at h
    case h_1 =>
      cases h
      exact .same
    case h_2 hnew =>
      cases h
      exact .request hnew (by simp [Row.isFor]) rfl
  | start n task =>
    simp only [exec, bind_eq_ok, insertNew_eq_ok] at h
    obtain ⟨workers, ⟨hnew, rfl⟩, h⟩ := h
    split at h
    case h_1 =>
      simp only [bind_eq_ok, acquire_eq_ok, pure_eq_ok] at h
      obtain ⟨-, hlock, rfl⟩ := h
      exact .start hnew (.inr hlock)
    case h_2 =>
      cases h
      exact .start hnew (.inl rfl)
  | scan n =>
    obtain ⟨x, hx, h⟩ := bind_worker_eq_ok.mp h
    split at h
    case h_1 =>
      cases h
      exact .pass hx
    case h_2 =>
      split at h
      case h_1 c hcall =>
        cases h
        exact .scan hx hcall
      case h_2 => simp [World.notEnabled] at h
    case h_3 => simp [World.notEnabled] at h
  | next n =>
    obtain ⟨x, hx, h⟩ := bind_worker_eq_ok.mp h
    split at h
    case h_1 id granted htask hphase =>
      simp only [bind_eq_ok, acquire_eq_ok, pure_eq_ok] at h
      obtain ⟨-, hlock, rfl⟩ := h
      exact outcome_of_tryWrite hx hlock (.inl ⟨granted, htask⟩) (.leave hx)
    case h_2 c id ids htask hphase =>
      simp only [bind_eq_ok, acquire_eq_ok, pure_eq_ok] at h
      obtain ⟨-, hlock, rfl⟩ := h
      exact outcome_of_tryWrite hx hlock (.inr ⟨ids, hphase⟩)
        (.skip hx hphase hlock (.inl rfl))
    case h_3 c required id ids htask hphase =>
      simp only [bind_eq_ok, acquire_eq_ok, pure_eq_ok] at h
      obtain ⟨-, hlock, rfl⟩ := h
      exact outcome_of_tryWrite hx hlock (.inr ⟨ids, hphase⟩)
        (.skip hx hphase hlock (.inr rfl))
    case h_4 =>
      cases h
      exact .leave hx
    case h_5 => simp [World.notEnabled] at h
  | commit n =>
    obtain ⟨x, hx, h⟩ := bind_worker_eq_ok.mp h
    split at h
    case h_1 id hphase =>
      cases h
      exact .commit hx hphase
    case h_2 =>
      cases h
      exact .leave hx
    case h_3 => simp [World.notEnabled] at h
  | complete n =>
    obtain ⟨x, hx, h⟩ := bind_worker_eq_ok.mp h
    split at h
    case h_1 id c hphase htask =>
      cases h
      exact .complete hx hphase htask
    case h_2 => simp [World.notEnabled] at h
  | rollback n =>
    obtain ⟨x, hx, h⟩ := bind_worker_eq_ok.mp h
    cases h
    exact .leave hx

end Inversion

/-! ### The rows along a run -/

section Rows

variable {w w' : World} {id : String}

theorem hasStatus_iff {status : ApprovalStatus} : w.hasStatus id status = true ↔
    ∃ row, w.rows.lookup id = some row ∧ row.status = status := by
  simp [World.hasStatus, Option.any_eq_true]

theorem isFor_of_mem_listApproved {rows : Table String Row} {c : Call}
    (h : id ∈ listApproved rows c) :
    ∃ row, rows.lookup id = some row ∧ row.status = .approved ∧ row.isFor c = true := by
  simp only [listApproved, mem_map, mem_filter] at h
  obtain ⟨⟨id', row⟩, ⟨hmem, hfor⟩, rfl⟩ := h
  have hmem' := (perm_insertionSort _ _).mem_iff.mp hmem
  obtain ⟨hentry, hstatus⟩ := mem_filter.mp hmem'
  exact ⟨row, mem_lookup_iff.mpr hentry, by simpa using hstatus, hfor⟩

theorem mem_listApproved {rows : Table String Row} {c : Call} {row : Row}
    (h : rows.lookup id = some row) (hstatus : row.status = .approved)
    (hfor : row.isFor c = true) : id ∈ listApproved rows c := by
  simp only [listApproved, mem_map, mem_filter]
  refine ⟨⟨id, row⟩, ⟨(perm_insertionSort _ _).mem_iff.mpr ?_, hfor⟩, rfl⟩
  exact mem_filter.mpr ⟨mem_lookup_iff.mp h, by simpa using hstatus⟩

theorem setStatus_eq {row : Row} {status : ApprovalStatus} (h : w.rows.lookup id = some row) :
    w.setStatus id status = w.rows.insert id { row with status } := by
  simp [World.setStatus, h]

@[simp] theorem rows_commitWritten {n : ℕ} {x : Worker} :
    (commitWritten w n x id).rows = w.setStatus id x.task.written := by
  unfold commitWritten
  split <;> rfl

theorem written_follows (task : Task) : follows task.expected task.written := by
  cases task with
  | decide id granted => trivial
  | consume c => exact .inr rfl
  | admission c required => exact .inr rfl

end Rows

/-! ### The invariants -/

/-- What the rows say about the history. -/
structure Recorded (w : World) : Prop where
  requested : ∀ id row, w.rows.lookup id = some row →
    ∃ c, w.requests.lookup id = some c ∧ row.isFor c = true
  approved_nodup : w.approved.Nodup
  approved_iff : ∀ id, id ∈ w.approved ↔
    ∃ row, w.rows.lookup id = some row ∧ (row.status = .approved ∨ row.status = .consumed)
  uses_nodup : (w.uses.map Use.id).Nodup
  used : ∀ u ∈ w.uses, ∃ row, w.rows.lookup u.id = some row ∧ row.status = .consumed ∧
    row.isFor u.call = true
  admissions_nodup : (w.admissions.map Use.id).Nodup
  admitted : ∀ u ∈ w.admissions, u ∈ w.uses

/-- What a worker relies on is still there. -/
structure Holds (w : World) (n : ℕ) (x : Worker) : Prop where
  /-- A worker that has updated a row holds the lock, and nobody sees the update yet. -/
  written : ∀ id, x.phase = .written id →
    w.lock = some n ∧ ∃ row, w.rows.lookup id = some row ∧ row.status = x.task.expected ∧
      ((∃ granted, x.task = .decide id granted) ∨
        ∃ c, x.task.call? = some c ∧ row.isFor c = true)
  looping : ∀ ids, x.phase = .looping ids → ∃ c, x.task.call? = some c ∧
    ∀ id ∈ ids, ∃ row, w.rows.lookup id = some row ∧ row.isFor c = true
  granted : ∀ id, x.phase = .granted id →
    ∃ c, x.task = .consume c ∧ ⟨id, c⟩ ∈ w.uses ∧ id ∉ w.admissions.map Use.id

/-- The invariant of the workers. -/
structure InFlight (w : World) : Prop where
  holds : ∀ n x, w.workers.lookup n = some x → Holds w n x
  granted_inj : ∀ n m x y id, w.workers.lookup n = some x → w.workers.lookup m = some y →
    x.phase = .granted id → y.phase = .granted id → n = m

/-- The invariant of the queue. -/
structure Inv (w : World) : Prop where
  recorded : Recorded w
  inFlight : InFlight w

theorem Inv.init : Inv {} := by
  refine ⟨⟨?_, ?_, ?_, ?_, ?_, ?_, ?_⟩, ⟨?_, ?_⟩⟩ <;> simp

section Preservation

variable {w w' : World} {n : ℕ} {x : Worker} {id : String}

/-- The rows of a step evolve. -/
theorem Outcome.evolves (h : Outcome w w') (hi : InFlight w) :
    Table.Evolves Row.Later w.rows w'.rows := by
  cases h with
  | request hnew _ _ =>
    refine .insert Row.Later.refl fun old hold => ?_
    rw [hnew] at hold
    cases hold
  | commit hx hphase =>
    obtain ⟨-, row, hrow, hstatus, -⟩ := (hi.holds _ _ hx).written _ hphase
    rw [rows_commitWritten, setStatus_eq hrow]
    refine .insert Row.Later.refl fun old hold => ?_
    rw [hrow] at hold
    cases hold
    exact ⟨rfl, rfl, by rw [hstatus]; exact written_follows _⟩
  | _ => exact .refl Row.Later.refl _

/-- What another worker does not disturb: it keeps the lock of its holder, and the rows as long as
the lock is held. -/
structure Undisturbed (w w' : World) (m : ℕ) : Prop where
  rows : Table.Evolves Row.Later w.rows w'.rows
  held : w.lock = some m → w'.lock = some m ∧
    ∀ id row, w.rows.lookup id = some row → w'.rows.lookup id = some row
  uses : ∀ u ∈ w.uses, u ∈ w'.uses
  admissions : ∀ y id, w.workers.lookup m = some y → y.phase = .granted id →
    id ∉ w.admissions.map Use.id → id ∉ w'.admissions.map Use.id

variable {m : ℕ}

theorem Holds.mono {y : Worker} (h : Holds w m y) (hy : w.workers.lookup m = some y)
    (hu : Undisturbed w w' m) : Holds w' m y where
  written id hphase := by
    obtain ⟨hlock, row, hrow, hstatus, htask⟩ := h.written id hphase
    obtain ⟨hlock', hrows⟩ := hu.held hlock
    exact ⟨hlock', row, hrows id row hrow, hstatus, htask⟩
  looping ids hphase := by
    obtain ⟨c, hcall, hids⟩ := h.looping ids hphase
    refine ⟨c, hcall, fun id hid => ?_⟩
    obtain ⟨row, hrow, hfor⟩ := hids id hid
    obtain ⟨row', hrow', hlater⟩ := hu.rows id row hrow
    exact ⟨row', hrow', by rw [hlater.isFor, hfor]⟩
  granted id hphase := by
    obtain ⟨c, htask, huse, hnot⟩ := h.granted id hphase
    exact ⟨c, htask, hu.uses _ huse, hu.admissions y id hy hphase hnot⟩

/-- A step of worker `n` keeps the invariant of the workers. -/
theorem InFlight.update (h : InFlight w)
    (hothers : ∀ m, m ≠ n → w'.workers.lookup m = w.workers.lookup m)
    (hu : ∀ m, m ≠ n → Undisturbed w w' m)
    (hself : ∀ y, w'.workers.lookup n = some y → Holds w' n y)
    (hfresh : ∀ y id, w'.workers.lookup n = some y → y.phase = .granted id →
      ∀ m z, m ≠ n → w.workers.lookup m = some z → z.phase ≠ .granted id) : InFlight w' where
  holds m y hy := by
    by_cases hm : m = n
    · subst hm
      exact hself y hy
    · rw [hothers m hm] at hy
      exact (h.holds m y hy).mono hy (hu m hm)
  granted_inj m k y z id hy hz hyphase hzphase := by
    by_cases hm : m = n
    · subst hm
      by_contra hk
      have hz' := hz
      rw [hothers k fun heq => hk heq.symm] at hz'
      exact hfresh y id hy hyphase k z (fun heq => hk heq.symm) hz' hzphase
    · by_cases hk : k = n
      · subst hk
        rw [hothers m hm] at hy
        exact absurd hyphase (hfresh z id hz hzphase m y hm hy)
      · rw [hothers m hm] at hy
        rw [hothers k hk] at hz
        exact h.granted_inj m k y z id hy hz hyphase hzphase

theorem InFlight.ended (h : InFlight w) (hworkers : w'.workers = w.workers.erase n)
    (hu : ∀ m, m ≠ n → Undisturbed w w' m) : InFlight w' := by
  have hgone : ∀ y, w'.workers.lookup n ≠ some y := by simp [hworkers]
  refine h.update (fun m hm => ?_) hu (fun y hy => absurd hy (hgone y))
    fun y _ hy => absurd hy (hgone y)
  rw [hworkers, lookup_erase', if_neg hm]

/-- A step that writes no row and no history: the lock was free, or the worker's own. -/
theorem Undisturbed.of_lock (hm : m ≠ n) (hrows : w'.rows = w.rows)
    (hlock : w'.lock = w.lock ∨ w.lock.all (· == n) = true) (huses : w'.uses = w.uses)
    (hadmissions : w'.admissions = w.admissions) : Undisturbed w w' m where
  rows := by rw [hrows]; exact .refl Row.Later.refl _
  held hheld := by
    refine ⟨?_, fun id row hrow => by rw [hrows]; exact hrow⟩
    rcases hlock with heq | hall
    · rw [heq, hheld]
    · rw [hheld] at hall
      exact absurd (by simpa using hall) hm
  uses u hu := by rw [huses]; exact hu
  admissions y id _ _ hnot := by rw [hadmissions]; exact hnot

/-- A commit: nobody else holds the lock. -/
theorem Undisturbed.of_holder (hm : m ≠ n) (hlock : w.lock = some n)
    (hrows : Table.Evolves Row.Later w.rows w'.rows) (huses : ∀ u ∈ w.uses, u ∈ w'.uses)
    (hadmissions : ∀ y id, w.workers.lookup m = some y → y.phase = .granted id → id ∉
      w.admissions.map Use.id → id ∉ w'.admissions.map Use.id) : Undisturbed w w' m where
  rows := hrows
  held hheld := by
    rw [hlock] at hheld
    exact absurd (Option.some.inj hheld).symm hm
  uses := huses
  admissions := hadmissions

theorem Recorded.congr (h : Recorded w) (hrows : w'.rows = w.rows)
    (hrequests : w'.requests = w.requests) (happroved : w'.approved = w.approved)
    (huses : w'.uses = w.uses) (hadmissions : w'.admissions = w.admissions) : Recorded w' where
  requested := by rw [hrows, hrequests]; exact h.requested
  approved_nodup := by rw [happroved]; exact h.approved_nodup
  approved_iff := by rw [hrows, happroved]; exact h.approved_iff
  uses_nodup := by rw [huses]; exact h.uses_nodup
  used := by rw [hrows, huses]; exact h.used
  admissions_nodup := by rw [hadmissions]; exact h.admissions_nodup
  admitted := by rw [huses, hadmissions]; exact h.admitted

variable {row : Row}

theorem Recorded.id_notMem_uses (h : Recorded w) (hrow : w.rows.lookup id = some row)
    (hstatus : row.status ≠ .consumed) : id ∉ w.uses.map Use.id := by
  intro hmem
  obtain ⟨u, hu, rfl⟩ := mem_map.mp hmem
  obtain ⟨row', hrow', hconsumed, -⟩ := h.used u hu
  rw [hrow] at hrow'
  cases hrow'
  exact hstatus hconsumed

theorem Recorded.id_notMem_admissions (h : Recorded w) (hrow : w.rows.lookup id = some row)
    (hstatus : row.status ≠ .consumed) : id ∉ w.admissions.map Use.id := by
  intro hmem
  obtain ⟨u, hu, rfl⟩ := mem_map.mp hmem
  exact h.id_notMem_uses hrow hstatus (mem_map_of_mem (h.admitted u hu))

theorem Recorded.request (h : Recorded w) {call : Call} (hnew : w.rows.lookup id = none)
    (hrow : row.isFor call = true) (hpending : row.status = .pending) :
    Recorded { w with rows := w.rows.insert id row, requests := w.requests.insert id call } where
  requested id' row' hrow' := by
    rcases of_lookup_insert hrow' with ⟨rfl, rfl⟩ | ⟨hne, hold⟩
    · exact ⟨call, lookup_insert _, hrow⟩
    · rw [lookup_insert', if_neg hne]
      exact h.requested id' row' hold
  approved_nodup := h.approved_nodup
  approved_iff id' := by
    rw [h.approved_iff, lookup_insert']
    by_cases hid : id' = id
    · subst hid
      simp [hnew, hpending]
    · rw [if_neg hid]
  uses_nodup := h.uses_nodup
  used u hu := by
    obtain ⟨row', hrow', hused⟩ := h.used u hu
    refine ⟨row', ?_, hused⟩
    rw [lookup_insert', if_neg]
    · exact hrow'
    · rintro heq
      rw [heq, hnew] at hrow'
      cases hrow'
  admissions_nodup := h.admissions_nodup
  admitted := h.admitted

/-- A new status for one row: what stays true of the requests and of the grants used before. -/
theorem Recorded.requested_setStatus (h : Recorded w) {status : ApprovalStatus}
    (hrow : w.rows.lookup id = some row) (id' : String) (row' : Row)
    (hrow' : (w.rows.insert id { row with status }).lookup id' = some row') :
    ∃ c, w.requests.lookup id' = some c ∧ row'.isFor c = true := by
  rcases of_lookup_insert hrow' with ⟨rfl, rfl⟩ | ⟨-, hold⟩
  · exact h.requested id row hrow
  · exact h.requested id' row' hold

theorem Recorded.used_setStatus (h : Recorded w) {status : ApprovalStatus}
    (hrow : w.rows.lookup id = some row) (hstatus : row.status ≠ .consumed) (u : Use)
    (hu : u ∈ w.uses) : ∃ row', (w.rows.insert id { row with status }).lookup u.id = some row' ∧
      row'.status = .consumed ∧ row'.isFor u.call = true := by
  obtain ⟨row', hrow', hused⟩ := h.used u hu
  refine ⟨row', ?_, hused⟩
  rw [lookup_insert', if_neg]
  · exact hrow'
  · intro heq
    exact h.id_notMem_uses hrow hstatus (heq ▸ mem_map_of_mem hu)

/-- An operator's decision on a pending request. -/
theorem Recorded.decide (h : Recorded w) (hrow : w.rows.lookup id = some row)
    (hpending : row.status = .pending) (granted : Bool) :
    Recorded { w with
      rows := w.rows.insert id { row with status := if granted then .approved else .denied }
      approved := if granted then w.approved ++ [id] else w.approved } := by
  have hnot : id ∉ w.approved := by
    rw [h.approved_iff]
    rintro ⟨row', hrow', hstatus⟩
    rw [hrow] at hrow'
    cases hrow'
    simp [hpending] at hstatus
  refine ⟨h.requested_setStatus hrow, ?_, fun id' => ?_, h.uses_nodup,
    h.used_setStatus hrow (by simp [hpending]), h.admissions_nodup, h.admitted⟩
  · cases granted with
    | true => exact h.approved_nodup.append (by simp) (by simpa using hnot)
    | false => exact h.approved_nodup
  · by_cases hid : id' = id
    · subst hid
      cases granted <;> simp [hnot]
    · have hmem : id' ∈ (if granted then w.approved ++ [id] else w.approved) ↔ id' ∈ w.approved := by
        cases granted <;> simp [hid]
      rw [hmem, h.approved_iff, lookup_insert', if_neg hid]

variable {c : Call}

/-- A grant is used up. -/
theorem Recorded.use (h : Recorded w) (hrow : w.rows.lookup id = some row)
    (hstatus : row.status = .approved) (hfor : row.isFor c = true) :
    Recorded { w with rows := w.rows.insert id { row with status := .consumed }
                      uses := w.uses ++ [⟨id, c⟩] } := by
  have hnew := h.id_notMem_uses hrow (by simp [hstatus])
  refine ⟨h.requested_setStatus hrow, h.approved_nodup, fun id' => ?_, ?_, fun u hu => ?_,
    h.admissions_nodup, fun u hu => mem_append_left _ (h.admitted u hu)⟩
  · rw [h.approved_iff, lookup_insert']
    by_cases hid : id' = id
    · subst hid
      simp [hrow, hstatus]
    · rw [if_neg hid]
  · rw [map_append]
    exact h.uses_nodup.append (by simp) (by simpa using hnew)
  · rcases mem_append.mp hu with hold | hlast
    · exact h.used_setStatus hrow (by simp [hstatus]) u hold
    · rw [mem_singleton.mp hlast]
      exact ⟨_, lookup_insert _, rfl, hfor⟩

/-- A used grant admits once. -/
theorem Recorded.admission (h : Recorded w) {u : Use} (hu : u ∈ w.uses)
    (hnew : u.id ∉ w.admissions.map Use.id) :
    Recorded { w with admissions := w.admissions ++ [u] } := by
  refine ⟨h.requested, h.approved_nodup, h.approved_iff, h.uses_nodup, h.used, ?_, fun v hv => ?_⟩
  · rw [map_append]
    exact h.admissions_nodup.append (by simp) (by simpa using hnew)
  · rcases mem_append.mp hv with hold | hlast
    · exact h.admitted v hold
    · rw [mem_singleton.mp hlast]
      exact hu

/-- A worker starts or goes on: nothing but its own entry and the lock changes. -/
theorem Inv.move {y : Worker} {lock : Option ℕ} (h : Inv w)
    (hlock : lock = w.lock ∨ w.lock.all (· == n) = true)
    (hself : Holds { w with workers := w.workers.insert n y, lock } n y)
    (hgranted : ∀ id, y.phase ≠ .granted id) :
    Inv { w with workers := w.workers.insert n y, lock } := by
  have hlookup : ∀ m, m ≠ n → (w.workers.insert n y).lookup m = w.workers.lookup m :=
    fun m hm => by rw [lookup_insert', if_neg hm]
  refine ⟨h.recorded.congr rfl rfl rfl rfl rfl, h.inFlight.update (n := n) hlookup ?_ ?_ ?_⟩
  · exact fun m hm => .of_lock hm rfl hlock rfl rfl
  · intro z hz
    have hzy : z = y := by simpa using hz.symm
    rw [hzy]
    exact hself
  · intro z id hz hphase
    have hzy : z = y := by simpa using hz.symm
    exact absurd (hzy ▸ hphase) (hgranted id)

/-- A worker that ends frees the lock, if it has it. -/
theorem Inv.leave (h : Inv w) (n : ℕ) : Inv (w.leave n) := by
  refine ⟨h.recorded.congr rfl rfl rfl rfl rfl, h.inFlight.ended (n := n) rfl fun m hm => ?_⟩
  refine .of_lock hm rfl ?_ rfl rfl
  by_cases hown : w.lock = some n
  · exact .inr (by simp [hown])
  · exact .inl (by simp [World.leave, hown])

theorem Holds.consuming (h : Holds w n x) (hphase : x.phase = .written id)
    (htask : x.task = .consume c ∨ ∃ required, x.task = .admission c required) :
    w.lock = some n ∧ ∃ row, w.rows.lookup id = some row ∧ row.status = .approved ∧
      row.isFor c = true := by
  obtain ⟨hlock, row, hrow, hstatus, hown⟩ := h.written id hphase
  refine ⟨hlock, row, hrow, ?_, ?_⟩
  · rcases htask with htask | ⟨required, htask⟩ <;> rw [hstatus, htask] <;> rfl
  · rcases hown with ⟨granted, hdecide⟩ | ⟨c', hcall, hfor⟩
    · rcases htask with htask | ⟨required, htask⟩ <;> rw [htask] at hdecide <;> cases hdecide
    · have hc : c' = c := by
        rcases htask with htask | ⟨required, htask⟩
        · simpa [htask, Task.call?] using hcall.symm
        · cases required <;> simp [htask, Task.call?] at hcall
          exact hcall.symm
      rw [← hc]
      exact hfor

/-- **Every transaction keeps the invariant when it commits.** -/
theorem Inv.commit (h : Inv w) (hx : w.workers.lookup n = some x)
    (hphase : x.phase = .written id) : Inv (commitWritten w n x id) := by
  have hholds := h.inFlight.holds n x hx
  have hevolves := (Outcome.commit hx hphase).evolves h.inFlight
  rw [rows_commitWritten] at hevolves
  -- a grant that another worker holds has been consumed, so it is not the one consumed now
  have hother : ∀ {row : Row}, w.rows.lookup id = some row → row.status = .approved →
      ∀ m y id', w.workers.lookup m = some y → y.phase = .granted id' → id' ≠ id := by
    rintro row hrow hstatus m y id' hy hgranted rfl
    obtain ⟨c', -, huse, -⟩ := (h.inFlight.holds m y hy).granted id' hgranted
    exact h.recorded.id_notMem_uses hrow (by simp [hstatus]) (mem_map_of_mem huse)
  unfold commitWritten
  cases htask : x.task with
  | decide id' granted =>
    obtain ⟨hlock, row, hrow, hstatus, -⟩ := hholds.written id hphase
    rw [htask] at hstatus
    rw [htask] at hevolves
    have hrows : w.setStatus id (Task.decide id' granted).written =
        w.rows.insert id { row with status := if granted then .approved else .denied } := by
      rw [setStatus_eq hrow]
      cases granted <;> rfl
    refine ⟨(h.recorded.decide hrow hstatus granted).congr hrows rfl rfl rfl rfl,
      h.inFlight.ended (n := n) rfl fun m hm => ?_⟩
    exact .of_holder hm hlock hevolves (fun u hu => hu) fun _ _ _ _ hnot => hnot
  | consume c =>
    obtain ⟨hlock, row, hrow, hstatus, hfor⟩ := hholds.consuming hphase (.inl htask)
    rw [htask] at hevolves
    have hrows : w.setStatus id (Task.consume c).written =
        w.rows.insert id { row with status := .consumed } := setStatus_eq hrow
    have hrecorded := h.recorded.use hrow hstatus hfor
    refine ⟨hrecorded.congr hrows rfl rfl rfl rfl, ?_⟩
    have hnotadmitted := h.recorded.id_notMem_admissions hrow (by simp [hstatus])
    refine h.inFlight.update (n := n) (fun m hm => ?_) (fun m hm => ?_) ?_ ?_
    · exact (lookup_insert' _ _ _ _).trans (if_neg hm)
    · exact .of_holder hm hlock hevolves (fun u hu => mem_append_left _ hu)
        fun _ _ _ _ hnot => hnot
    · intro y hy
      have hy' : y = ⟨x.task, .granted id⟩ := by simpa [World.move] using hy.symm
      subst hy'
      refine ⟨nofun, nofun, fun id' hp => ?_⟩
      cases hp
      exact ⟨c, htask, mem_append_right _ (mem_singleton.mpr rfl), hnotadmitted⟩
    · intro y id' hy hp m z hm hz hzphase
      have hy' : y = ⟨x.task, .granted id⟩ := by simpa [World.move] using hy.symm
      subst hy'
      cases hp
      exact hother hrow hstatus m z id hz hzphase rfl
  | admission c required =>
    obtain ⟨hlock, row, hrow, hstatus, hfor⟩ := hholds.consuming hphase (.inr ⟨required, htask⟩)
    rw [htask] at hevolves
    have hrows : w.setStatus id (Task.admission c required).written =
        w.rows.insert id { row with status := .consumed } := setStatus_eq hrow
    have hnotadmitted := h.recorded.id_notMem_admissions hrow (by simp [hstatus])
    have hrecorded := (h.recorded.use hrow hstatus hfor).admission
      (u := ⟨id, c⟩) (mem_append_right _ (mem_singleton.mpr rfl)) hnotadmitted
    refine ⟨hrecorded.congr hrows rfl rfl rfl rfl, ?_⟩
    refine h.inFlight.ended (n := n) rfl fun m hm => ?_
    refine .of_holder hm hlock hevolves (fun u hu => mem_append_left _ hu) ?_
    intro y id' hy hgranted hnot
    show id' ∉ (w.admissions ++ [(⟨id, c⟩ : Use)]).map Use.id
    have hne := hother hrow hstatus m y id' hy hgranted
    simpa [hne] using hnot

/-- The separate participants finish an admission with the grant their `consume` returned. -/
theorem Inv.complete (h : Inv w) (hx : w.workers.lookup n = some x) (hphase : x.phase = .granted id)
    (htask : x.task = .consume c) :
    Inv { w.leave n with admissions := w.admissions ++ [⟨id, c⟩] } := by
  obtain ⟨c', htask', huse, hnot⟩ := (h.inFlight.holds n x hx).granted id hphase
  rw [htask] at htask'
  cases htask'
  have hleft := h.leave n
  refine ⟨(hleft.recorded.admission huse hnot).congr rfl rfl rfl rfl rfl, ?_⟩
  have hgone : ∀ y, (w.leave n).workers.lookup n ≠ some y := by simp [World.leave]
  refine hleft.inFlight.update (n := n) (fun m hm => rfl) (fun m hm => ?_)
    (fun y hy => absurd hy (hgone y)) fun y _ hy => absurd hy (hgone y)
  refine ⟨.refl Row.Later.refl _, fun hheld => ⟨hheld, fun _ _ hrow => hrow⟩, fun u hu => hu, ?_⟩
  intro y id' hy hgranted hnot'
  have hy' : w.workers.lookup m = some y := by
    rw [World.leave, lookup_erase', if_neg hm] at hy
    exact hy
  have hne : id' ≠ id := by
    rintro rfl
    exact hm (h.inFlight.granted_inj m n y x id' hy' hx hgranted hphase)
  show id' ∉ (w.admissions ++ [(⟨id, c⟩ : Use)]).map Use.id
  have hold : id' ∉ w.admissions.map Use.id := hnot'
  simpa [hne] using hold

/-- **Every step keeps the invariant.** -/
theorem Outcome.inv (h : Outcome w w') (hw : Inv w) : Inv w' := by
  cases h with
  | same => exact hw
  | request hnew hrow hpending =>
    refine ⟨hw.recorded.request hnew hrow hpending, ?_⟩
    have hevolves := (Outcome.request hnew hrow hpending).evolves hw.inFlight
    refine ⟨fun n x hx => (hw.inFlight.holds n x hx).mono hx ⟨hevolves, ?_, fun u hu => hu, ?_⟩,
      hw.inFlight.granted_inj⟩
    · refine fun hheld => ⟨hheld, fun id row hlookup => ?_⟩
      rw [lookup_insert', if_neg]
      · exact hlookup
      · rintro rfl
        rw [hnew] at hlookup
        cases hlookup
    · exact fun _ _ _ _ hnot => hnot
  | start hnew hlock =>
    exact hw.move hlock ⟨nofun, nofun, nofun⟩ nofun
  | pass hx =>
    exact hw.move (.inl rfl) ⟨nofun, nofun, nofun⟩ nofun
  | @scan n x c hx hcall =>
    refine hw.move (.inl rfl) ⟨nofun, fun ids hp => ?_, nofun⟩ nofun
    cases hp
    refine ⟨c, hcall, fun id hid => ?_⟩
    obtain ⟨row, hrow, -, hfor⟩ := isFor_of_mem_listApproved hid
    exact ⟨row, hrow, hfor⟩
  | @write n x id hx hlock hstatus hfrom =>
    refine hw.move (.inr hlock) ⟨fun id' hp => ?_, nofun, nofun⟩ nofun
    cases hp
    obtain ⟨row, hrow, hstatus⟩ := hasStatus_iff.mp hstatus
    refine ⟨rfl, row, hrow, hstatus, ?_⟩
    rcases hfrom with hdecide | ⟨ids, hphase⟩
    · exact .inl hdecide
    · obtain ⟨c, hcall, hids⟩ := (hw.inFlight.holds n x hx).looping _ hphase
      obtain ⟨row', hrow', hfor⟩ := hids id mem_cons_self
      rw [hrow] at hrow'
      cases hrow'
      exact .inr ⟨c, hcall, hfor⟩
  | @skip n x id ids lock hx hphase hlock hnext =>
    refine hw.move (.inr hlock) ⟨nofun, fun ids' hp => ?_, nofun⟩ nofun
    cases hp
    obtain ⟨c, hcall, hids⟩ := (hw.inFlight.holds n x hx).looping _ hphase
    exact ⟨c, hcall, fun id' hid' => hids id' (mem_cons_of_mem _ hid')⟩
  | leave hx => exact hw.leave _
  | commit hx hphase => exact hw.commit hx hphase
  | complete hx hphase htask => exact hw.complete hx hphase htask

end Preservation

/-! ### The queue over whole runs -/

/-- The committed admissions for a call. -/
def World.admissionsFor (w : World) (c : Call) : List Use := w.admissions.filter (·.call = c)

/-- The approved requests made for exactly this call. -/
def World.approvedFor (w : World) (c : Call) : List String :=
  w.approved.filter fun id => w.requests.lookup id = some c

/-- The approved requests that were made without a fingerprint, but under the text of the call. -/
def World.approvedLoose (w : World) (c : Call) : List String :=
  w.approved.filter fun id => (w.requests.lookup id).any fun r =>
    !r.isTriple && r.agentId == c.agentId && r.scopedCapability == c.scopedCapability

theorem inv_of_reachable {b : Backend} {w : World} (h : (system b).Reachable {} w) : Inv w :=
  h.invariant Inv.init fun _ _ _ hI hst => (outcome_of_exec hst).inv hI

theorem evolves_of_reachable {b : Backend} {w w' : World} (hw : Inv w)
    (h : (system b).Reachable w w') : Table.Evolves Row.Later w.rows w'.rows := by
  induction h with
  | refl => exact .refl Row.Later.refl _
  | tail hrun hst ih =>
    obtain ⟨act, hexec⟩ := hst
    have hinv : Inv _ := LTS.Reachable.invariant hrun hw fun _ _ _ hI hst =>
      (outcome_of_exec hst).inv hI
    exact ih.trans Row.Later.trans ((outcome_of_exec hexec).evolves hinv.inFlight)

theorem hasStatus_of_reachable {b : Backend} {w w' : World} (hw : Inv w)
    (h : (system b).Reachable w w') {status : ApprovalStatus} {id : String}
    (hlast : ∀ s, follows status s → s = status) (hold : w.hasStatus id status = true) :
    w'.hasStatus id status = true := by
  obtain ⟨row, hrow, rfl⟩ := hasStatus_iff.mp hold
  obtain ⟨row', hrow', hlater⟩ := evolves_of_reachable hw h id row hrow
  exact hasStatus_iff.mpr ⟨row', hrow', hlast _ hlater.status⟩

section Runs

variable {w : World} {c : Call}

theorem Recorded.isFor_request (h : Recorded w) {u : Use} {r : Call} (hu : u ∈ w.uses)
    (hr : w.requests.lookup u.id = some r) :
    r.agentId = u.call.agentId ∧ r.scopedCapability = u.call.scopedCapability := by
  obtain ⟨row, hrow, -, hfor⟩ := h.used u hu
  obtain ⟨r', hr', hfor'⟩ := h.requested u.id row hrow
  rw [hr] at hr'
  cases hr'
  simp only [Row.isFor, Bool.and_eq_true, beq_iff_eq] at hfor hfor'
  exact ⟨hfor'.1.symm.trans hfor.1, hfor'.2.symm.trans hfor.2⟩

/-- The grant of an admission was approved, for the call or under its text. -/
theorem Recorded.approved_of_admission (h : Recorded w) (hc : c.isTriple = true) {u : Use}
    (hu : u ∈ w.admissionsFor c) : u.id ∈ w.approvedFor c ++ w.approvedLoose c := by
  obtain ⟨hmem, hcall⟩ := mem_filter.mp hu
  have hcall : u.call = c := by simpa using hcall
  have huse := h.admitted u hmem
  obtain ⟨row, hrow, hconsumed, -⟩ := h.used u huse
  have happroved : u.id ∈ w.approved := (h.approved_iff u.id).mpr ⟨row, hrow, .inr hconsumed⟩
  obtain ⟨r, hr, -⟩ := h.requested u.id row hrow
  obtain ⟨hagent, htext⟩ := h.isFor_request huse hr
  rw [hcall] at hagent htext
  by_cases htriple : r.isTriple = true
  · have hrc : r = c := eq_of_scopedCapability htriple hc hagent htext
    exact mem_append_left _ (mem_filter.mpr ⟨happroved, by simp [hr, hrc]⟩)
  · refine mem_append_right _ (mem_filter.mpr ⟨happroved, ?_⟩)
    simp [hr, htriple, hagent, htext]

/-- **At most one admission for each approved request.** -/
theorem Recorded.length_admissionsFor_le (h : Recorded w) (hc : c.isTriple = true) :
    (w.admissionsFor c).length ≤ (w.approvedFor c).length + (w.approvedLoose c).length := by
  have hnodup : ((w.admissionsFor c).map Use.id).Nodup :=
    h.admissions_nodup.sublist (filter_sublist.map _)
  have hsub : (w.admissionsFor c).map Use.id ⊆ w.approvedFor c ++ w.approvedLoose c := by
    intro id hid
    obtain ⟨u, hu, rfl⟩ := mem_map.mp hid
    exact h.approved_of_admission hc hu
  have hle := (subperm_of_subset hnodup hsub).length_le
  rwa [length_map, length_append] at hle

/-- Without requests that lack a fingerprint, nothing is approved under the text alone. -/
theorem approvedLoose_eq_nil (h : ∀ id r, w.requests.lookup id = some r → r.isTriple = true) :
    w.approvedLoose c = [] := by
  refine filter_eq_nil_iff.mpr fun id _ => ?_
  cases hr : w.requests.lookup id with
  | none => simp
  | some r => simp [h id r hr]

section Alone

variable {b : Backend} {v : World} {m : ℕ} {task : Task} {id : String} {ids : List String}

theorem exec_start (hlock : v.lock = none) (hnew : v.workers.lookup m = none) :
    ∃ lock : Option ℕ, lock.all (· == m) = true ∧ exec b v (.start m task) =
      .ok { v with workers := v.workers.insert m ⟨task, .ready⟩, lock } := by
  simp only [exec, Table.insertNew, hnew, World.acquire, hlock]
  split
  · exact ⟨some m, by simp, rfl⟩
  · exact ⟨none, rfl, by rw [← hlock]; rfl⟩

theorem exec_scan (hx : v.workers.lookup m = some ⟨task, .ready⟩) (hcall : task.call? = some c) :
    exec b v (.scan m) =
      .ok (v.move m ⟨task, .ready⟩ (.looping (listApproved v.rows c))) := by
  cases task with
  | decide id granted => cases hcall
  | consume c' =>
    cases hcall
    simp only [exec, World.worker, hx]
    rfl
  | admission c' required =>
    cases required with
    | false => cases hcall
    | true =>
      cases hcall
      simp only [exec, World.worker, hx]
      rfl

theorem exec_next (hx : v.workers.lookup m = some ⟨task, .looping (id :: ids)⟩)
    (hcall : task.call? = some c) (hlock : v.lock.all (· == m) = true)
    (hstatus : v.hasStatus id .approved = true) :
    exec b v (.next m) =
      .ok { v.move m ⟨task, .looping (id :: ids)⟩ (.written id) with lock := some m } := by
  have hacquire : v.acquire m = .ok () := acquire_eq_ok.mpr hlock
  cases task with
  | decide id granted => cases hcall
  | consume c' | admission c' required =>
    simp only [exec, World.worker, hx]
    show (v.acquire m >>= fun _ => _) = _
    rw [hacquire]
    simp [World.tryWrite, Task.expected, hstatus, bind, Except.bind, pure, Except.pure]

theorem uses_commitWritten {x : Worker} (hcall : x.task.call? = some c) :
    (commitWritten v m x id).uses = v.uses ++ [⟨id, c⟩] := by
  unfold commitWritten
  cases htask : x.task with
  | decide id' granted => rw [htask] at hcall; cases hcall
  | consume c' => rw [htask] at hcall; cases hcall; rfl
  | admission c' required =>
    rw [htask] at hcall
    cases required with
    | false => cases hcall
    | true => cases hcall; rfl

/-- A call that finds a grant and is not disturbed gets it. -/
theorem uses_of_drive (hlock : v.lock = none) (hnew : v.workers.lookup m = none)
    (hcall : task.call? = some c) (hlist : listApproved v.rows c = id :: ids) :
    (LTS.drive (exec b) v [.start m task, .scan m, .next m, .commit m]).uses =
      v.uses ++ [⟨id, c⟩] := by
  obtain ⟨row, hrow, hstatus, -⟩ : ∃ row, v.rows.lookup id = some row ∧
      row.status = .approved ∧ row.isFor c = true :=
    isFor_of_mem_listApproved (by rw [hlist]; exact mem_cons_self)
  obtain ⟨lock, hfree, hstart⟩ : ∃ lock : Option ℕ, lock.all (· == m) = true ∧
      exec b v (.start m task) =
        .ok { v with workers := v.workers.insert m ⟨task, .ready⟩, lock } := exec_start hlock hnew
  let v₁ : World := { v with workers := v.workers.insert m ⟨task, .ready⟩, lock }
  let v₂ : World := v₁.move m ⟨task, .ready⟩ (.looping (id :: ids))
  let v₃ : World := { v₂.move m ⟨task, .looping (id :: ids)⟩ (.written id) with lock := some m }
  have hscan : exec b v₁ (.scan m) = .ok v₂ := by
    rw [exec_scan (lookup_insert _) hcall, show listApproved v₁.rows c = id :: ids from hlist]
  have hnext : exec b v₂ (.next m) = .ok v₃ := by
    have hstill : v₂.hasStatus id .approved = true := hasStatus_iff.mpr ⟨row, hrow, hstatus⟩
    exact exec_next (lookup_insert _) hcall hfree hstill
  have hcommit : exec b v₃ (.commit m) = .ok (commitWritten v₃ m ⟨task, .written id⟩ id) := by
    have hx : v₃.workers.lookup m = some ⟨task, .written id⟩ := lookup_insert _
    simp only [exec, World.worker, hx]
    rfl
  calc (LTS.drive (exec b) v [.start m task, .scan m, .next m, .commit m]).uses
      = (LTS.attempt (exec b) (LTS.attempt (exec b) (LTS.attempt (exec b)
          (LTS.attempt (exec b) v (.start m task)) (.scan m)) (.next m)) (.commit m)).uses := rfl
    _ = (commitWritten v₃ m ⟨task, .written id⟩ id).uses := by
        rw [LTS.attempt_eq hstart, LTS.attempt_eq hscan, LTS.attempt_eq hnext,
          LTS.attempt_eq hcommit]
    _ = v.uses ++ [⟨id, c⟩] := uses_commitWritten hcall

end Alone

end Runs

/-- **Approvals are one-shot and request-exact**, in every reachable state on either backend.

* The committed admissions of an agent, capability and fingerprint are at most as many as the
  requests that were approved for them, or that were made without a fingerprint under the very
  text of theirs. Where every request carries a fingerprint, as those of the gateway do, they are
  at most as many as the requests approved for exactly this triple.
* A denied request stays denied, and a consumed one consumed.
* A rollback leaves the rows as they were; the grant that its admission had updated is approved,
  and the next call for the triple gets a grant.
* A grant that was requested for one triple is not used for another one. -/
theorem approvals_one_shot (b : Backend) {w : World} (h : (system b).Reachable {} w) :
    (∀ c, c.isTriple = true →
      (w.admissionsFor c).length ≤ (w.approvedFor c).length + (w.approvedLoose c).length ∧
      ((∀ id r, w.requests.lookup id = some r → r.isTriple = true) →
        (w.admissionsFor c).length ≤ (w.approvedFor c).length)) ∧
    (∀ w', (system b).Reachable w w' → ∀ id,
      (w.hasStatus id .denied = true → w'.hasStatus id .denied = true) ∧
      (w.hasStatus id .consumed = true → w'.hasStatus id .consumed = true)) ∧
    (∀ n x, w.workers.lookup n = some x → ∃ w', exec b w (.rollback n) = .ok w' ∧
      w'.rows = w.rows ∧ w'.uses = w.uses ∧ w'.admissions = w.admissions ∧
      ∀ id c, x.phase = .written id → x.task = .admission c true →
        w'.hasStatus id .approved = true ∧
        ∀ m task, w'.workers.lookup m = none → task.call? = some c → ∃ id',
          (LTS.drive (exec b) w' [.start m task, .scan m, .next m, .commit m]).uses =
            w'.uses ++ [⟨id', c⟩]) ∧
    ∀ u ∈ w.uses, ∀ r, w.requests.lookup u.id = some r → r.isTriple = true →
      u.call.isTriple = true → r = u.call := by
  have hinv := inv_of_reachable h
  refine ⟨fun c hc => ⟨hinv.recorded.length_admissionsFor_le hc, fun hall => ?_⟩,
    fun w' hrun id => ⟨fun hold => ?_, fun hold => ?_⟩, fun n x hx => ?_, fun u hu r hr hrt hut => ?_⟩
  · have hle := hinv.recorded.length_admissionsFor_le hc
    rw [approvedLoose_eq_nil hall] at hle
    exact hle
  · exact hasStatus_of_reachable hinv hrun (fun _ hs => hs) hold
  · exact hasStatus_of_reachable hinv hrun (fun _ hs => hs) hold
  · refine ⟨w.leave n, ?_, rfl, rfl, rfl, fun id c hphase htask => ?_⟩
    · simp only [exec, World.worker, hx]
      rfl
    · obtain ⟨hlock, row, hrow, hstatus, hfor⟩ :=
        (hinv.inFlight.holds n x hx).consuming hphase (.inr ⟨true, htask⟩)
      refine ⟨hasStatus_iff.mpr ⟨row, hrow, hstatus⟩, fun m task hm hcall => ?_⟩
      have hmem : id ∈ listApproved (w.leave n).rows c := mem_listApproved hrow hstatus hfor
      obtain ⟨id', ids, hlist⟩ := exists_cons_of_ne_nil (ne_nil_of_mem hmem)
      exact ⟨id', uses_of_drive (by simp [World.leave, hlock]) hm hcall hlist⟩
  · obtain ⟨hagent, htext⟩ := hinv.recorded.isFor_request hu hr
    exact eq_of_scopedCapability hrt hut hagent htext

/-! ### Two admissions race for one grant -/

/-- A capability with a bar in it, and a request fingerprint. -/
def sampleCall : Call := ⟨"bot", "a|b", some (String.ofList (List.replicate 64 'f'))⟩

/-- One request is approved; two admissions list it, the first one commits. -/
def sampleRace : List Action :=
  [.request "r1" sampleCall 1 "t0", .start 0 (.decide "r1" true), .next 0, .commit 0,
    .start 1 (.admission sampleCall true), .start 2 (.admission sampleCall true),
    .scan 1, .scan 2, .next 1, .next 2, .commit 1, .next 2, .next 2]

/-- The race has one winner, and its grant was approved for its call. -/
theorem sample_approval_used_once :
    let w := LTS.drive (exec .postgres) {} sampleRace
    (w.admissionsFor sampleCall).length = 1 ∧ w.uses = [⟨"r1", sampleCall⟩] ∧
    (w.admissionsFor sampleCall).length ≤ (w.approvedFor sampleCall).length := by
  intro w
  have hfacts : (w.admissionsFor sampleCall).length = 1 ∧ w.uses = [⟨"r1", sampleCall⟩] ∧
      w.requests.entries = [⟨"r1", sampleCall⟩] ∧ sampleCall.isTriple = true := by decide +kernel
  obtain ⟨hone, huses, hrequests, htriple⟩ := hfacts
  refine ⟨hone, huses, ((approvals_one_shot .postgres (LTS.reachable_drive _ _ sampleRace)).1
    sampleCall htriple).2 fun id r hr => ?_⟩
  have hmem := mem_lookup_iff.mp hr
  rw [hrequests] at hmem
  cases mem_singleton.mp hmem
  exact htriple

/-- A request without a fingerprint is approved, and an admission with one has the same text. -/
def sampleLoose : List Action :=
  [.request "r1" ⟨"bot", sampleCall.scopedCapability, none⟩ 1 "t0", .start 0 (.decide "r1" true),
    .next 0, .commit 0, .start 1 (.admission sampleCall true), .scan 1, .next 1, .commit 1]

/-- **A request without a fingerprint grants a triple that nobody approved**, on either backend. -/
theorem loose_request_admits : sampleCall.isTriple = true ∧ ∀ b,
    (system b).Reachable {} (LTS.drive (exec b) {} sampleLoose) ∧
    ((LTS.drive (exec b) {} sampleLoose).admissionsFor sampleCall).length = 1 ∧
    (LTS.drive (exec b) {} sampleLoose).approvedFor sampleCall = [] := by
  refine ⟨by decide +kernel, fun b => ⟨LTS.reachable_drive _ _ _, ?_⟩⟩
  cases b <;> decide +kernel

end AgentBridge.Approvals
