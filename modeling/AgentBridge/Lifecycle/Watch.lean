import AgentBridge.Lifecycle.Log

/-!
# Readers of a task

A reader follows the log of a task from a cursor: it reads a page, yields its events one by one, and
reads the next page. There are three of them. `watch` and `TenantTaskStream` also read the current
snapshot after an empty page, in a transaction of its own, and may stop there; the A2A stream does
not. Any calls of other workers may come between two steps of a reader.

`watch` stops if the snapshot is terminal. If the last transition falls between the empty page and
the snapshot, it stops without the terminal event. `TenantTaskStream` stops only if the snapshot is
the event at its cursor.

* `Reader.Follows.step` : **what a reader has yielded is a piece of the log**.
-/

namespace AgentBridge.Durable

open List Except

/-! ### Readers -/

/-- The three readers. -/
inductive Kind
  /-- `DurableTaskLifecycle.watch`. -/
  | watch
  /-- The A2A status stream. -/
  | a2a
  /-- `TenantTaskStream`. -/
  | tenant
  deriving DecidableEq

/-- `_finished`: terminal, or waiting for input or authorization. -/
def Snapshot.isFinished (s : Snapshot) : Bool :=
  s.isTerminal || s.state = .inputRequired || s.state = .authRequired

/-- The reader stops after it has yielded such an event. -/
def Kind.stopsAt : Kind → Snapshot → Bool
  | .watch, s => s.isTerminal
  | .a2a, s | .tenant, s => s.isFinished

/-- The reader stops if it finds such a snapshot after an empty page. -/
def Kind.stopsOn (kind : Kind) (cursor : ℤ) (current : Snapshot) : Bool :=
  match kind with
  | .watch => current.isTerminal
  | .a2a => false
  | .tenant => decide (current.sequence = cursor) && current.isFinished

/-- What a reader does next. -/
inductive Phase
  | read
  /-- Yield the events of a page. -/
  | yield (page : List Snapshot)
  /-- Read the snapshot after an empty page. -/
  | check
  | stopped
  deriving DecidableEq

/-- A reader with its cursor. `start` is the cursor at its start, and `yielded` what it has yielded
since. -/
structure Reader where
  start : ℤ
  cursor : ℤ
  phase : Phase := .read
  yielded : List Snapshot := []

namespace Reader

def init (start : ℤ) : Reader := { start, cursor := start }

/-- One step of a reader: a transaction, or an event. Heartbeats and pauses are no steps; a step that
raises ends the reader from outside. -/
def step (kind : Kind) (cfg : Config) (key : Key) (limit : ℕ) (t : Tables) (r : Reader) :
    Except LifecycleFault Reader :=
  match r.phase with
  | .read => do
    let page ← t.eventPage cfg key r.cursor limit
    let phase := if page ≠ [] then .yield page else if kind = .a2a then .read else .check
    return { r with phase }
  | .yield [] => .ok { r with phase := .read }
  | .yield (task :: rest) =>
    let phase := if kind.stopsAt task then .stopped else .yield rest
    .ok { r with cursor := task.sequence, phase, yielded := r.yielded ++ [task] }
  | .check => do
    let current ← t.get cfg key
    return { r with phase := if kind.stopsOn r.cursor current then .stopped else .read }
  | .stopped => .ok r

theorem step_start {kind : Kind} {cfg : Config} {key : Key} {limit : ℕ} {t : Tables}
    {r r' : Reader} (h : r.step kind cfg key limit t = .ok r') : r'.start = r.start := by
  unfold step at h
  split at h
  case h_1 | h_4 =>
    obtain ⟨_, -, h⟩ := bind_eq_ok.mp h
    cases h
    rfl
  all_goals
    cases h
    rfl

structure Follows (log : List Snapshot) (r : Reader) : Prop where
  cursor : r.cursor = r.start + r.yielded.length
  /-- The first page is read at a cursor that `events` accepts. -/
  valid : r.yielded ≠ [] ∨ r.phase ≠ .read → -1 ≤ r.start
  yielded : r.yielded <+: log.drop (r.start + 1).toNat
  page : ∀ page, r.phase = .yield page → r.yielded ++ page <+: log.drop (r.start + 1).toNat

theorem follows_init (log : List Snapshot) (start : ℤ) : Follows log (init start) where
  cursor := (add_zero start).symm
  valid h := by
    rcases h with hyielded | hphase
    · exact absurd rfl hyielded
    · exact absurd rfl hphase
  yielded := nil_prefix
  page _ h := by cases h

namespace Follows

variable {kind : Kind} {cfg : Config} {w : World} {key : Key} {limit : ℕ} {log log' : List Snapshot}
  {r r' : Reader}

theorem mono (h : Follows log r) (hlog : log <+: log') : Follows log' r where
  cursor := h.cursor
  valid := h.valid
  yielded := h.yielded.trans (hlog.drop _)
  page page hp := (h.page page hp).trans (hlog.drop _)

theorem append_drop (h : Follows log r) (hstart : -1 ≤ r.start) :
    r.yielded ++ log.drop (r.cursor + 1).toNat = log.drop (r.start + 1).toNat := by
  obtain ⟨rest, hrest⟩ := h.yielded
  have hcursor : (r.cursor + 1).toNat = (r.start + 1).toNat + r.yielded.length := by
    have := h.cursor
    omega
  rw [hcursor, ← drop_drop, ← hrest, drop_left]

variable {task : Snapshot} {rest : List Snapshot}

theorem getElem?_next (h : Follows log r) (hphase : r.phase = .yield (task :: rest)) :
    log[(r.cursor + 1).toNat]? = some task := by
  have hpage := h.page _ hphase
  rw [← h.append_drop (h.valid (.inr (by simp [hphase]))), prefix_append_right_inj] at hpage
  obtain ⟨more, hmore⟩ := hpage
  rw [cons_append] at hmore
  have hhead := congrArg List.head? hmore
  rw [head?_cons, head?_drop] at hhead
  exact hhead.symm

theorem sequence_next (h : Follows log r) (hlog : Logged log)
    (hphase : r.phase = .yield (task :: rest)) : (task.sequence : ℤ) = r.cursor + 1 := by
  have hstart := h.valid (.inr (by simp [hphase]))
  have hseq := hlog.numbered _ task (h.getElem?_next hphase)
  have hcursor := h.cursor
  omega

/-- A reader without new events. -/
theorem setPhase (h : Follows log r) (hstart : -1 ≤ r.start) {phase : Phase}
    (hpage : ∀ page, phase = .yield page → page <+: log.drop (r.cursor + 1).toNat) :
    Follows log { r with phase } where
  cursor := h.cursor
  valid _ := hstart
  yielded := h.yielded
  page page hp := by
    rw [← h.append_drop hstart]
    exact (prefix_append_right_inj _).mpr (hpage page hp)

/-- A page is read at a cursor that `events` accepts. -/
theorem start_of_eventPage (hi : Inv cfg w) (h : Follows log r) {page : List Snapshot}
    (hpage : w.tables.eventPage cfg key r.cursor limit = .ok page) : -1 ≤ r.start := by
  by_cases hyielded : r.yielded = []
  · have hcursor := h.cursor
    rw [hyielded, length_nil] at hcursor
    have hvalid := (hi.eventPage_eq hpage).2.1
    omega
  · exact h.valid (.inl hyielded)

theorem yield (h : Follows log r) (hlog : Logged log) (hphase : r.phase = .yield (task :: rest))
    {phase : Phase} (hnext : ∀ page, phase = .yield page → page = rest) :
    Follows log { r with cursor := task.sequence, phase, yielded := r.yielded ++ [task] } where
  cursor := by
    have hseq := h.sequence_next hlog hphase
    have hcursor := h.cursor
    show (task.sequence : ℤ) = r.start + ((r.yielded ++ [task]).length : ℤ)
    rw [length_append, length_singleton]
    omega
  valid _ := h.valid (.inr (by simp [hphase]))
  yielded := by
    have hpage := h.page _ hphase
    rw [append_cons] at hpage
    exact (prefix_append _ _).trans hpage
  page page hp := by
    cases hnext page hp
    rw [append_assoc]
    exact h.page _ hphase

/-- **A reader follows the log.** -/
theorem step (hi : Inv cfg w) (h : Follows (w.tables.taskLog key) r)
    (hstep : r.step kind cfg key limit w.tables = .ok r') :
    Follows (w.tables.taskLog key) r' := by
  unfold Reader.step at hstep
  split at hstep
  case h_1 hphase =>
    obtain ⟨page, hpage, hstep⟩ := bind_eq_ok.mp hstep
    cases hstep
    refine h.setPhase (h.start_of_eventPage hi hpage) fun page' hp => ?_
    split at hp
    case isTrue =>
      cases hp
      rw [(hi.eventPage_eq hpage).1]
      exact take_prefix _ _
    case isFalse =>
      split at hp
      · cases hp
      · cases hp
  case h_2 hphase =>
    cases hstep
    refine h.setPhase (h.valid (.inr (by simp [hphase]))) fun page hp => ?_
    cases hp
  case h_3 task rest hphase =>
    cases hstep
    refine h.yield (hi.logged key) hphase fun page hp => ?_
    split at hp
    · cases hp
    · cases hp
      rfl
  case h_4 hphase =>
    obtain ⟨current, -, hstep⟩ := bind_eq_ok.mp hstep
    cases hstep
    refine h.setPhase (h.valid (.inr (by simp [hphase]))) fun page hp => ?_
    split at hp
    · cases hp
    · cases hp
  case h_5 =>
    cases hstep
    exact h

end Follows

end Reader

/-! ### `watch` -/

/-- A lifecycle with a `watch` iteration. -/
structure Watching where
  world : World
  reader : Reader

inductive WatchAction
  /-- A call of any worker. -/
  | call (a : Action)
  /-- The next step of the iteration. -/
  | next

/-- The start of an iteration. -/
def watch (w : World) (after : ℤ) (pollSeconds : ℚ) : Except LifecycleFault Watching := do
  require (((1 : ℕ) : ℚ) ≤ pollSeconds * ((100 : ℕ) : ℚ) && pollSeconds ≤ ((10 : ℕ) : ℚ))
    (.rejected "poll interval must be finite and in [0.01,10]")
  return ⟨w, .init after⟩

def watchExec (cfg : Config) (key : Key) (pageSize : ℕ) (s : Watching) :
    WatchAction → Except LifecycleFault Watching
  | .call a => do
    let world ← exec cfg s.world a
    return { s with world }
  | .next => do
    let reader ← s.reader.step .watch cfg key pageSize s.world.tables
    return { s with reader }

/-- Any calls of any workers between the steps of an iteration. -/
def watchSystem (cfg : Config) (key : Key) (pageSize : ℕ) : LTS Watching WatchAction :=
  .ofExec (watchExec cfg key pageSize)

/-- No call about the task comes between an empty page and the snapshot. -/
def undisturbed (key : Key) (s : Watching) : WatchAction → Bool
  | .call a => s.reader.phase ≠ .check || !a.touches key
  | .next => true

/-- What holds of an undisturbed iteration. -/
structure Complete (log : List Snapshot) (r : Reader) : Prop where
  follows : r.Follows log
  check : r.phase = .check → r.yielded = log.drop (r.start + 1).toNat
  stopped : r.phase = .stopped → r.yielded = log.drop (r.start + 1).toNat ∧
    ∃ e, log.getLast? = some e ∧ e.isTerminal = true

namespace Complete

variable {cfg : Config} {w w' : World} {key : Key} {limit : ℕ} {r r' : Reader}

theorem call (hi : Inv cfg w) (h : Complete (w.tables.taskLog key) r) {a : Action}
    (hexec : exec cfg w a = .ok w') (hcheck : r.phase = .check → a.touches key = false) :
    Complete (w'.tables.taskLog key) r := by
  refine ⟨h.follows.mono (hi.taskLog_prefix hexec key), fun hphase => ?_, fun hphase => ?_⟩
  · rw [hi.taskLog_eq_of_not_touches hexec (hcheck hphase)]
    exact h.check hphase
  · -- a terminal event is the end of the log before and after
    obtain ⟨hyielded, e, hlast, hterminal⟩ := h.stopped hphase
    rcases hi.taskLog_step hexec key with heq | ⟨-, s, heq⟩
    · rw [heq]
      exact ⟨hyielded, e, hlast, hterminal⟩
    · obtain ⟨init, hinit⟩ := getLast?_eq_some_iff.mp hlast
      have hget : (w'.tables.taskLog key)[init.length]? = some e := by
        rw [heq, hinit, append_assoc, getElem?_append_right le_rfl, Nat.sub_self]
        rfl
      have hlength := ((hi.exec hexec).logged key).terminal _ e hget hterminal
      rw [heq, hinit, length_append, length_append, length_singleton,
        length_singleton] at hlength
      omega

theorem next (hi : Inv cfg w) (h : Complete (w.tables.taskLog key) r)
    (hstep : r.step .watch cfg key limit w.tables = .ok r') :
    Complete (w.tables.taskLog key) r' := by
  have hfollows := h.follows.step hi hstep
  unfold Reader.step at hstep
  split at hstep
  case h_1 hphase =>
    obtain ⟨page, hpage, hstep⟩ := bind_eq_ok.mp hstep
    cases hstep
    obtain ⟨hpage', -, -, hlimit⟩ := hi.eventPage_eq hpage
    refine ⟨hfollows, fun hcheck => ?_, fun hstopped => ?_⟩
    · have hempty : page = [] := by
        by_contra hne
        simp [hne] at hcheck
      -- the page is empty, so the cursor is at the end of the log
      have hrest : (w.tables.taskLog key).drop (r.cursor + 1).toNat = [] := by
        rw [hempty, eq_comm, take_eq_nil_iff] at hpage'
        rcases hpage' with hzero | hrest
        · omega
        · exact hrest
      have happend := h.follows.append_drop (h.follows.start_of_eventPage hi hpage)
      rwa [hrest, append_nil] at happend
    · dsimp only at hstopped
      split at hstopped
      · cases hstopped
      · split at hstopped
        · cases hstopped
        · cases hstopped
  case h_2 hphase =>
    cases hstep
    exact ⟨hfollows, nofun, nofun⟩
  case h_3 task rest hphase =>
    cases hstep
    refine ⟨hfollows, fun hcheck => ?_, fun hstopped => ?_⟩
    · dsimp only at hcheck
      split at hcheck
      · cases hcheck
      · cases hcheck
    · dsimp only at hstopped
      split at hstopped
      case isFalse => cases hstopped
      case isTrue hterminal =>
        have hget := h.follows.getElem?_next hphase
        have hlength := (hi.logged key).terminal _ task hget hterminal
        have happend := hfollows.append_drop (hfollows.valid (.inr (by simp [hterminal])))
        have hseq := h.follows.sequence_next (hi.logged key) hphase
        have hnil : (w.tables.taskLog key).drop ((task.sequence : ℤ) + 1).toNat = [] := by
          refine drop_eq_nil_iff.mpr ?_
          omega
        dsimp only at happend
        rw [hnil, append_nil] at happend
        refine ⟨happend, task, ?_, hterminal⟩
        rw [getLast?_eq_getElem?, ← hget]
        congr 1
        omega
  case h_4 hphase =>
    obtain ⟨current, hget, hstep⟩ := bind_eq_ok.mp hstep
    cases hstep
    refine ⟨hfollows, fun hcheck => ?_, fun hstopped => ?_⟩
    · dsimp only at hcheck
      split at hcheck
      · cases hcheck
      · cases hcheck
    · dsimp only at hstopped
      split at hstopped
      case isTrue hterminal => exact ⟨h.check hphase, current, hi.get_eq hget, hterminal⟩
      case isFalse => cases hstopped
  case h_5 =>
    cases hstep
    exact h

end Complete

/-- **An undisturbed `watch` that ends has yielded everything**: for every cursor, page size and
interleaving in which no call about the task comes between an empty page and the snapshot, an
iteration that has ended by itself has yielded the events above its cursor, in order and once each,
and the log ends with a terminal event. -/
theorem watch_complete (cfg : Config) (maxBytes : ℕ) (w : World)
    (hw : (system cfg).Reachable (World.initial maxBytes) w) (key : Key) (after : ℤ) (pageSize : ℕ)
    (pollSeconds : ℚ) (s₀ s : Watching) (hs₀ : watch w after pollSeconds = .ok s₀)
    (h : ((watchSystem cfg key pageSize).restrict fun s a => undisturbed key s a = true).Reachable
      s₀ s) (hended : s.reader.phase = .stopped) :
    s.reader.yielded = (s.world.tables.taskLog key).filter (fun e => decide (after < e.sequence)) ∧
    ∃ e, (s.world.tables.taskLog key).getLast? = some e ∧ e.isTerminal = true := by
  obtain ⟨-, -, hs₀⟩ := bind_eq_ok.mp hs₀
  cases hs₀
  have hi : Inv cfg s.world ∧ Complete (s.world.tables.taskLog key) s.reader ∧
      s.reader.start = after := by
    refine h.invariant (I := fun s => Inv cfg s.world ∧
      Complete (s.world.tables.taskLog key) s.reader ∧ s.reader.start = after) ?_ ?_
    · exact ⟨.reachable hw, ⟨Reader.follows_init _ _, nofun, nofun⟩, rfl⟩
    · rintro s a s' ⟨hi, hc, hstart⟩ ⟨hok, hstep⟩
      cases a with
      | call a =>
        obtain ⟨world, hexec, hstep⟩ := bind_eq_ok.mp hstep
        cases hstep
        refine ⟨hi.exec hexec, hc.call hi hexec fun hphase => ?_, hstart⟩
        have hphase' : s.reader.phase = .check := hphase
        simpa [undisturbed, hphase'] using hok
      | next =>
        obtain ⟨reader, hread, hstep⟩ := bind_eq_ok.mp hstep
        cases hstep
        exact ⟨hi, hc.next hi hread, (Reader.step_start hread).trans hstart⟩
  obtain ⟨hi, hc, rfl⟩ := hi
  obtain ⟨hyielded, hlast⟩ := hc.stopped hended
  refine ⟨?_, hlast⟩
  rw [hyielded]
  exact (hi.logged key).drop_eq_filter (hc.follows.valid (.inr (by simp [hended])))

/-! ### Sample runs -/

def sampleSubmitted : World :=
  LTS.drive (exec sampleConfig) (World.initial 20480) [.create sampleKey.1 sampleTask]

def sampleWatching : Watching := ⟨sampleSubmitted, .init (-1)⟩

/-- The iteration yields the first event, and the task is cancelled before the next page. -/
def sampleWatched : Watching :=
  LTS.drive (LTS.guarded (undisturbed sampleKey) (.rejected "")
      (watchExec sampleConfig sampleKey 16)) sampleWatching
    [.next, .next, .next, .call (.cancel sampleKey 0), .next, .next]

theorem sample_watch_complete :
    sampleWatched.reader.yielded.map (·.sequence) = [0, 1] ∧
    sampleWatched.reader.yielded = (sampleWatched.world.tables.taskLog sampleKey).filter
      (fun e => decide (-1 < (e.sequence : ℤ))) := by
  have hstart : watch sampleSubmitted (-1) 1 = .ok sampleWatching := by
    refine bind_eq_ok.mpr ⟨(), ?_, rfl⟩
    rw [require_eq_ok]
    decide +kernel
  refine ⟨by decide +kernel, ?_⟩
  exact (watch_complete sampleConfig 20480 sampleSubmitted (LTS.reachable_drive _ _ _) sampleKey (-1)
    16 1 sampleWatching sampleWatched hstart (LTS.reachable_drive_guarded _ _ _ _ _)
    (by decide +kernel)).1

/-- The task is cancelled between an empty page and the snapshot. -/
def sampleMissed : Watching :=
  LTS.drive (watchExec sampleConfig sampleKey 16) sampleWatching
    [.next, .next, .next, .next, .call (.cancel sampleKey 0), .next]

/-- The iteration ends by itself, and it has not yielded the terminal event. -/
theorem watch_misses_terminal_event :
    (watchSystem sampleConfig sampleKey 16).Reachable sampleWatching sampleMissed ∧
    sampleMissed.reader.phase = .stopped ∧
    sampleMissed.reader.yielded.map (·.state) = [.submitted] ∧
    (sampleMissed.world.tables.taskLog sampleKey).map (·.state) = [.submitted, .canceled] :=
  ⟨LTS.reachable_drive _ _ _, by decide +kernel, by decide +kernel, by decide +kernel⟩

end AgentBridge.Durable
