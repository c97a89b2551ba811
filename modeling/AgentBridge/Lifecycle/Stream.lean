import AgentBridge.Audit.Entry
import AgentBridge.Lifecycle.Watch

/-!
# Resumed status streams

A client follows a task over any number of connections. Each connection resumes from the last event
that the client has consumed; it may be cut at any point, and what is on the wire then is lost. The
A2A status stream names an event by a cursor that is bound to owner and task; `TenantTaskStream`
names it by its sequence number.

* `parseCursor_cursorText`, `key_eq_of_parseCursor` : **a cursor is read back, and for its own task
  only**.
* `streams_lose_nothing` : **a client consumes the log of the task from its starting cursor**, without
  a gap or a repetition.
-/

namespace AgentBridge.Durable

open JsonText List Except

/-! ### Cursors -/

/-- `json.dumps([owner, task_id], separators=(",", ":"))`. -/
def scopeText (key : Key) : List Char :=
  '[' :: (quoted key.1 ++ ',' :: (quoted key.2 ++ [']']))

section Cursor

variable (H : Sha256)

/-- `_cursor_scope`. -/
def cursorScope (key : Key) : PyString := H.digest (scopeText key)

/-- `_cursor`. -/
def cursorText (key : Key) (sequence : ℕ) : PyString :=
  ((PyString.ofString "ab:").append (cursorScope H key)).append
    (.ofString (":" ++ String.ofList (Nat.toDigits 10 sequence)))

/-- Why a stream does not start. -/
inductive StreamFault
  /-- The lifecycle raises. -/
  | lifecycle (fault : LifecycleFault)
  /-- The request is answered with an error. -/
  | refused (message : String)
  /-- The client has a connection already, or none, or nothing to consume. -/
  | disabled
  deriving DecidableEq

/-- The A2A answer to a cursor that `_parse_cursor` rejects or that is ahead of the task. -/
def invalidCursor : StreamFault := .refused "Invalid task replay cursor"

/-- The A2A answer to a cursor at a finished event. -/
def noSubsequentEvents : StreamFault := .refused "This interaction has no subsequent events"

/-- `_parse_cursor`. -/
def parseCursor (raw : Option PyString) (key : Key) : Except StreamFault ℤ :=
  match raw with
  | none => .ok (-1)
  | some raw => do
    require (raw.codes.length ≤ 90) invalidCursor
    match raw.codes.splitOn 58 with
    | [start, scope, sequence] =>
      require (start = [97, 98] && scope = (cursorScope H key).codes && sequence ≠ [] &&
        sequence.all (fun c => 48 ≤ c && c ≤ 57) && sequence.length ≤ 19) invalidCursor
      let value := Nat.ofDigitChars 10 (sequence.map Char.ofNat) 0
      require (value < 2 ^ 63) invalidCursor
      return value
    | _ => .error invalidCursor

variable {H} {key key' : Key} {n : ℕ}

/-- The digits of a number, as code points. -/
def digitCodes (n : ℕ) : List ℕ := (Nat.toDigits 10 n).map Char.toNat

theorem digitCodes_bounds {c : ℕ} (h : c ∈ digitCodes n) : 48 ≤ c ∧ c ≤ 57 := by
  obtain ⟨d, hd, rfl⟩ := mem_map.mp h
  have hdigit := isDigit_of_mem_toDigits hd
  simp only [Char.isDigit, Bool.and_eq_true, decide_eq_true_eq] at hdigit
  exact ⟨hdigit.1, hdigit.2⟩

theorem isHex_bounds {s : PyString} {length : ℕ} (h : s.isHex length = true) {c : ℕ}
    (hc : c ∈ s.codes) : 48 ≤ c ∧ c ≤ 57 ∨ 97 ≤ c ∧ c ≤ 102 := by
  have hall := all_eq_true.mp (Bool.and_eq_true_iff.mp h).2 c hc
  simpa using hall

theorem splitOn_cursorText (key : Key) (n : ℕ) : (cursorText H key n).codes.splitOn 58 =
    [[97, 98], (cursorScope H key).codes, digitCodes n] := by
  have hcodes : (cursorText H key n).codes =
      [58].intercalate [[97, 98], (cursorScope H key).codes, digitCodes n] := by
    simp [cursorText, PyString.append, PyString.ofString, digitCodes, List.intercalate]
  rw [hcodes]
  refine splitOn_intercalate 58 (fun l hl hmem => ?_) (by simp)
  simp only [mem_cons, not_mem_nil, or_false] at hl
  rcases hl with rfl | rfl | rfl
  · simp at hmem
  · have := isHex_bounds (H.isHex_digest (scopeText key)) hmem
    omega
  · have := digitCodes_bounds hmem
    omega

theorem ofDigitChars_digitCodes (n : ℕ) :
    Nat.ofDigitChars 10 ((digitCodes n).map Char.ofNat) 0 = n := by
  have hchars : (digitCodes n).map Char.ofNat = Nat.toDigits 10 n := by
    rw [digitCodes, map_map]
    exact (map_congr_left fun c _ => Char.ofNat_toNat c).trans (map_id _)
  rw [hchars, Nat.ofDigitChars_toDigits (by omega) (by omega)]

theorem length_cursorText (key : Key) (n : ℕ) :
    (cursorText H key n).codes.length = 68 + (digitCodes n).length := by
  have hscope : (cursorScope H key).codes.length = 64 :=
    of_decide_eq_true (Bool.and_eq_true_iff.mp (H.isHex_digest (scopeText key))).1
  simp only [cursorText, PyString.append, length_append, hscope]
  simp [PyString.ofString, digitCodes]
  omega

/-- A cursor is read back. -/
theorem parseCursor_cursorText (hn : n < 2 ^ 63) :
    parseCursor H (some (cursorText H key n)) key = .ok n := by
  have hlength : (digitCodes n).length ≤ 19 := by
    rw [digitCodes, length_map]
    exact (Nat.length_toDigits_le_iff (by omega) (by omega)).mpr (by omega)
  have hne : digitCodes n ≠ [] := by
    simp [digitCodes]
  have hdigits : (digitCodes n).all (fun c => 48 ≤ c && c ≤ 57) = true := by
    refine all_eq_true.mpr fun c hc => ?_
    simpa using digitCodes_bounds hc
  simp only [parseCursor, splitOn_cursorText, length_cursorText, ofDigitChars_digitCodes]
  refine bind_eq_ok.mpr ⟨(), by rw [require_eq_ok]; simpa using by omega, ?_⟩
  refine bind_eq_ok.mpr ⟨(), by rw [require_eq_ok]; simp [hne, hdigits, hlength], ?_⟩
  refine bind_eq_ok.mpr ⟨(), by rw [require_eq_ok]; simpa using hn, rfl⟩

theorem scopeText_injective (h : scopeText key = scopeText key') :
    key.1.norm = key'.1.norm ∧ key.2.norm = key'.2.norm := by
  have hrest := (List.cons.inj h).2
  obtain ⟨howner, hrest⟩ := quoted_append_inj hrest
  exact ⟨howner, (quoted_append_inj (List.cons.inj hrest).2).1⟩

/-- What is known of a cursor that is accepted. -/
theorem parseCursor_ok {c : ℤ} (h : parseCursor H (some (cursorText H key n)) key' = .ok c) :
    c = n ∧ cursorScope H key = cursorScope H key' := by
  simp only [parseCursor, splitOn_cursorText, ofDigitChars_digitCodes] at h
  obtain ⟨-, -, h⟩ := bind_eq_ok.mp h
  obtain ⟨_, hcheck, h⟩ := bind_eq_ok.mp h
  obtain ⟨-, -, h⟩ := bind_eq_ok.mp h
  cases h
  rw [require_eq_ok] at hcheck
  simp only [Bool.and_eq_true, decide_eq_true_eq] at hcheck
  exact ⟨rfl, PyString.ext hcheck.1.1.1.2⟩

/-- A cursor is accepted for its own task only. -/
theorem key_eq_of_parseCursor {c : ℤ}
    (hfree : H.digest (scopeText key) = H.digest (scopeText key') → scopeText key = scopeText key')
    (hkey : key.1.isEncodable = true ∧ key.2.isEncodable = true)
    (hkey' : key'.1.isEncodable = true ∧ key'.2.isEncodable = true)
    (h : parseCursor H (some (cursorText H key n)) key' = .ok c) : key' = key := by
  obtain ⟨howner, htask⟩ := scopeText_injective (hfree (parseCursor_ok h).2)
  rw [PyString.norm_of_isEncodable hkey.1, PyString.norm_of_isEncodable hkey'.1] at howner
  rw [PyString.norm_of_isEncodable hkey.2, PyString.norm_of_isEncodable hkey'.2] at htask
  exact Prod.ext howner.symm htask.symm

end Cursor

/-! ### Clients and connections -/

inductive StreamKind
  | a2a
  | tenant
  deriving DecidableEq

def StreamKind.reader : StreamKind → Kind
  | .a2a => .a2a
  | .tenant => .tenant

/-- A stream on the server, and the events that are on their way to the client. -/
structure Connection where
  reader : Reader
  limit : ℕ
  wire : List Snapshot := []

/-- A lifecycle with a client of a task. `base` is the event that the client starts after, if
any. -/
structure Streaming where
  world : World
  base : Option ℕ
  consumed : List Snapshot := []
  connection : Option Connection := none

/-- The cursor after an event, or at the start. -/
def cursorAfter (sequence : Option ℕ) : ℤ := sequence.elim (-1) (↑)

/-- The event that the client resumes after. -/
def Streaming.resume (s : Streaming) : Option ℕ :=
  (s.consumed.getLast?.map (·.sequence)).or s.base

inductive StreamAction
  /-- A call of any worker. -/
  | call (a : Action)
  | connect (limit : ℕ)
  /-- The next step of the server. -/
  | serve
  /-- The client gets an event. -/
  | consume
  /-- The connection ends, for whatever reason. -/
  | cut

section Exec

variable (H : Sha256) (kind : StreamKind) (cfg : Config) (key : Key)

/-- The checks before a stream starts, with the cursor that the client sends. -/
def connect (t : Tables) (after : Option ℕ) : Except StreamFault Reader := do
  let current ← (t.get cfg key).mapError .lifecycle
  match kind with
  | .a2a =>
    let cursor ← parseCursor H (after.map (cursorText H key)) key
    require (cursor ≤ current.sequence) invalidCursor
    require (!(cursor = current.sequence && current.isFinished)) noSubsequentEvents
    return .init cursor
  | .tenant =>
    require (cursorAfter after ≤ current.sequence) (.refused "future task cursor")
    return .init (cursorAfter after)

def streamExec (s : Streaming) : StreamAction → Except StreamFault Streaming
  | .call a => do
    let world ← (exec cfg s.world a).mapError .lifecycle
    return { s with world }
  | .connect limit => do
    require s.connection.isNone .disabled
    let reader ← connect H kind cfg key s.world.tables s.resume
    return { s with connection := some { reader, limit } }
  | .serve => do
    let c ← s.connection.elim (.error .disabled) .ok
    let reader ← (c.reader.step kind.reader cfg key c.limit s.world.tables).mapError .lifecycle
    let wire := c.wire ++ reader.yielded.drop c.reader.yielded.length
    return { s with connection := some { c with reader, wire } }
  | .consume => do
    let c ← s.connection.elim (.error .disabled) .ok
    match c.wire with
    | [] => .error .disabled
    | e :: wire =>
      return { s with consumed := s.consumed ++ [e], connection := some { c with wire } }
  | .cut => return { s with connection := none }

/-- Any calls of any workers, and any connections of the client, one after the other. -/
def streamSystem : LTS Streaming StreamAction := .ofExec (streamExec H kind cfg key)

end Exec

/-! ### The invariant -/

/-- The cursor is at an event that is terminal or waits for input or authorization. -/
def AtFinished (log : List Snapshot) (cursor : ℤ) : Prop :=
  0 ≤ cursor ∧ ∃ e, log[cursor.toNat]? = some e ∧ e.isFinished = true

/-- A server that has ended by itself has stopped at such an event. -/
def Reader.StoppedAt (log : List Snapshot) (r : Reader) : Prop :=
  r.phase = .stopped → AtFinished log r.cursor

/-- What is known of a connection. `before` is what the client had consumed before it. -/
structure Connected (log : List Snapshot) (base : ℤ) (consumed : List Snapshot) (c : Connection) :
    Prop where
  follows : c.reader.Follows log
  stopped : c.reader.StoppedAt log
  before : ∃ before, consumed ++ c.wire = before ++ c.reader.yielded ∧
    c.reader.start = base + before.length ∧ before <+: log.drop (base + 1).toNat

/-- The invariant. -/
structure StreamInv (cfg : Config) (key : Key) (base : Option ℕ) (s : Streaming) : Prop where
  inv : Inv cfg s.world
  base_eq : s.base = base
  consumed : s.consumed <+: (s.world.tables.taskLog key).drop (cursorAfter base + 1).toNat
  connected : ∀ c, s.connection = some c →
    Connected (s.world.tables.taskLog key) (cursorAfter base) s.consumed c

theorem cursorAfter_ge (sequence : Option ℕ) : -1 ≤ cursorAfter sequence := by
  cases sequence with
  | none => exact le_rfl
  | some n =>
    show -1 ≤ (n : ℤ)
    omega

theorem getElem?_extend {α : Type*} {l l' : List α} (h : l <+: l') {i : ℕ} {a : α}
    (ha : l[i]? = some a) : l'[i]? = some a := by
  obtain ⟨rest, rfl⟩ := h
  have hi := (List.getElem?_eq_some_iff.mp ha).1
  rwa [List.getElem?_append_left hi]

variable {log l : List Snapshot} {base : ℤ} {r : Reader}

theorem Logged.getElem?_piece (hlog : Logged log) (hbase : -1 ≤ base)
    (h : l <+: log.drop (base + 1).toNat) {i : ℕ} {e : Snapshot} (he : l[i]? = some e) :
    (e.sequence : ℤ) = base + 1 + i ∧ log[e.sequence]? = some e := by
  have hget := getElem?_extend h he
  rw [getElem?_drop] at hget
  have hseq := hlog.numbered _ e hget
  rw [← hseq] at hget
  exact ⟨by omega, hget⟩

theorem Logged.getLast?_piece (hlog : Logged log) (hbase : -1 ≤ base)
    (h : l <+: log.drop (base + 1).toNat) {e : Snapshot} (he : l.getLast? = some e) :
    (e.sequence : ℤ) = base + l.length ∧ log[e.sequence]? = some e := by
  rw [List.getLast?_eq_getElem?] at he
  have hlt := (List.getElem?_eq_some_iff.mp he).1
  obtain ⟨hseq, hget⟩ := hlog.getElem?_piece hbase h he
  exact ⟨by omega, hget⟩

theorem append_piece {l' : List Snapshot} (hbase : -1 ≤ base) (h : l <+: log.drop (base + 1).toNat)
    (h' : l' <+: log.drop (base + l.length + 1).toNat) : l ++ l' <+: log.drop (base + 1).toNat := by
  obtain ⟨rest, hrest⟩ := h
  have hindex : (base + l.length + 1).toNat = (base + 1).toNat + l.length := by omega
  rw [hindex, ← drop_drop, ← hrest, drop_left] at h'
  rw [← hrest]
  exact (prefix_append_right_inj l).mpr h'

theorem Reader.StoppedAt.mono {log' : List Snapshot} (h : r.StoppedAt log) (hlog : log <+: log') :
    r.StoppedAt log' := by
  intro hphase
  obtain ⟨hcursor, e, he, hfinished⟩ := h hphase
  exact ⟨hcursor, e, getElem?_extend hlog he, hfinished⟩

theorem Reader.StoppedAt.step {kind : StreamKind} {cfg : Config} {w : World} {key : Key} {limit : ℕ}
    {r' : Reader} (hi : Inv cfg w) (hf : r.Follows (w.tables.taskLog key))
    (h : r.StoppedAt (w.tables.taskLog key))
    (hstep : r.step kind.reader cfg key limit w.tables = .ok r') :
    r'.StoppedAt (w.tables.taskLog key) := by
  intro hstopped
  unfold Reader.step at hstep
  split at hstep
  case h_1 =>
    obtain ⟨page, -, hstep⟩ := bind_eq_ok.mp hstep
    cases hstep
    dsimp only at hstopped
    split at hstopped
    · cases hstopped
    · split at hstopped
      · cases hstopped
      · cases hstopped
  case h_2 =>
    cases hstep
    cases hstopped
  case h_3 task rest hphase =>
    cases hstep
    dsimp only at hstopped ⊢
    split at hstopped
    case isFalse => cases hstopped
    case isTrue hstops =>
      have hget := hf.getElem?_next hphase
      have hseq := hf.sequence_next (hi.logged key) hphase
      refine ⟨Int.natCast_nonneg _, task, ?_, ?_⟩
      · rw [← hget]
        congr 1
        omega
      · cases kind with
        | a2a => exact hstops
        | tenant => exact hstops
  case h_4 hphase =>
    obtain ⟨current, hget, hstep⟩ := bind_eq_ok.mp hstep
    cases hstep
    dsimp only at hstopped ⊢
    split at hstopped
    case isFalse => cases hstopped
    case isTrue hstops =>
      cases kind with
      | a2a => cases hstops
      | tenant =>
        obtain ⟨hcursor, hfinished⟩ := Bool.and_eq_true_iff.mp hstops
        rw [decide_eq_true_eq] at hcursor
        have hlast := hi.get_eq hget
        rw [List.getLast?_eq_getElem?] at hlast
        have hseq := (hi.logged key).numbered _ current hlast
        refine ⟨by omega, current, ?_, hfinished⟩
        rw [← hlast]
        congr 1
        omega
  case h_5 =>
    cases hstep
    exact h hstopped

theorem Reader.step_yielded {kind : Kind} {cfg : Config} {key : Key} {limit : ℕ} {t : Tables}
    {r' : Reader} (h : r.step kind cfg key limit t = .ok r') : r.yielded <+: r'.yielded := by
  unfold Reader.step at h
  split at h
  case h_1 | h_4 =>
    obtain ⟨_, -, h⟩ := bind_eq_ok.mp h
    cases h
    exact prefix_refl _
  case h_3 =>
    cases h
    exact prefix_append _ _
  all_goals
    cases h
    exact prefix_refl _

namespace StreamInv

variable {H : Sha256} {kind : StreamKind} {cfg : Config} {key : Key} {base : Option ℕ}
  {s s' : Streaming}

theorem call (h : StreamInv cfg key base s) {a : Action} {world : World}
    (hexec : exec cfg s.world a = .ok world) : StreamInv cfg key base { s with world } := by
  have hlog := h.inv.taskLog_prefix hexec key
  refine ⟨h.inv.exec hexec, h.base_eq, h.consumed.trans (hlog.drop _), fun c hc => ?_⟩
  obtain ⟨hfollows, hstopped, before, heq, hstart, hbefore⟩ := h.connected c hc
  exact ⟨hfollows.mono hlog, hstopped.mono hlog, before, heq, hstart,
    hbefore.trans (hlog.drop _)⟩

/-- The client resumes where it has stopped. -/
theorem cursorAfter_resume (h : StreamInv cfg key base s) :
    cursorAfter s.resume = cursorAfter base + s.consumed.length := by
  cases hlast : s.consumed.getLast? with
  | none =>
    rw [Streaming.resume, hlast, getLast?_eq_none_iff.mp hlast, h.base_eq]
    simp
  | some e =>
    rw [Streaming.resume, hlast]
    exact ((h.inv.logged key).getLast?_piece (cursorAfter_ge base) h.consumed hlast).1

variable {reader : Reader} {c : Connection}

theorem connect_ok {t : Tables} {after : Option ℕ}
    (h : connect H kind cfg key t after = .ok reader) : reader = .init (cursorAfter after) := by
  obtain ⟨current, -, h⟩ := bind_eq_ok.mp h
  cases kind with
  | a2a =>
    obtain ⟨cursor, hcursor, h⟩ := bind_eq_ok.mp h
    obtain ⟨-, -, h⟩ := bind_eq_ok.mp h
    obtain ⟨-, -, h⟩ := bind_eq_ok.mp h
    cases h
    cases after with
    | none =>
      cases hcursor
      rfl
    | some n =>
      rw [(parseCursor_ok hcursor).1]
      rfl
  | tenant =>
    obtain ⟨-, -, h⟩ := bind_eq_ok.mp h
    cases h
    rfl

theorem connect (h : StreamInv cfg key base s) {limit : ℕ}
    (hconnect : Durable.connect H kind cfg key s.world.tables s.resume = .ok reader) :
    StreamInv cfg key base { s with connection := some { reader, limit } } := by
  refine ⟨h.inv, h.base_eq, h.consumed, fun c hc => ?_⟩
  cases hc
  cases connect_ok hconnect
  refine ⟨Reader.follows_init _ _, nofun, s.consumed, rfl, h.cursorAfter_resume, h.consumed⟩

theorem serve (h : StreamInv cfg key base s) (hc : s.connection = some c)
    (hstep : c.reader.step kind.reader cfg key c.limit s.world.tables = .ok reader) :
    StreamInv cfg key base { s with
      connection := some { c with
        reader, wire := c.wire ++ reader.yielded.drop c.reader.yielded.length } } := by
  obtain ⟨hfollows, hstopped, before, heq, hstart, hbefore⟩ := h.connected c hc
  refine ⟨h.inv, h.base_eq, h.consumed, fun c' hc' => ?_⟩
  cases hc'
  refine ⟨hfollows.step h.inv hstep, hstopped.step h.inv hfollows hstep, before, ?_,
    (Reader.step_start hstep).trans hstart, hbefore⟩
  obtain ⟨more, hmore⟩ := Reader.step_yielded hstep
  dsimp only
  rw [← hmore, drop_left, ← append_assoc, heq, append_assoc]

theorem consumed_append_wire (h : StreamInv cfg key base s) (hc : s.connection = some c) :
    s.consumed ++ c.wire <+:
      (s.world.tables.taskLog key).drop (cursorAfter base + 1).toNat := by
  obtain ⟨hfollows, -, before, heq, hstart, hbefore⟩ := h.connected c hc
  rw [heq]
  refine append_piece (cursorAfter_ge base) hbefore ?_
  rw [← hstart]
  exact hfollows.yielded

theorem consume (h : StreamInv cfg key base s) (hc : s.connection = some c) {e : Snapshot}
    {wire : List Snapshot} (hwire : c.wire = e :: wire) :
    StreamInv cfg key base { s with
      consumed := s.consumed ++ [e], connection := some { c with wire } } := by
  have hprefix := h.consumed_append_wire hc
  rw [hwire, append_cons] at hprefix
  obtain ⟨hfollows, hstopped, before, heq, hstart, hbefore⟩ := h.connected c hc
  refine ⟨h.inv, h.base_eq, (prefix_append _ _).trans hprefix, fun c' hc' => ?_⟩
  cases hc'
  refine ⟨hfollows, hstopped, before, ?_, hstart, hbefore⟩
  rw [← heq, hwire]
  exact (append_cons _ _ _).symm

/-- One step keeps the invariant. -/
theorem exec (h : StreamInv cfg key base s) {a : StreamAction}
    (hexec : streamExec H kind cfg key s a = .ok s') : StreamInv cfg key base s' := by
  cases a with
  | call a =>
    obtain ⟨world, hworld, hexec⟩ := bind_eq_ok.mp hexec
    cases hexec
    rw [mapError_eq_ok] at hworld
    exact h.call hworld
  | connect limit =>
    obtain ⟨-, -, hexec⟩ := bind_eq_ok.mp hexec
    obtain ⟨reader, hreader, hexec⟩ := bind_eq_ok.mp hexec
    cases hexec
    exact h.connect hreader
  | serve =>
    obtain ⟨c, hc, hexec⟩ := bind_eq_ok.mp hexec
    obtain ⟨reader, hreader, hexec⟩ := bind_eq_ok.mp hexec
    cases hexec
    rw [mapError_eq_ok] at hreader
    exact h.serve (connection_eq_some hc) hreader
  | consume =>
    obtain ⟨c, hc, hexec⟩ := bind_eq_ok.mp hexec
    split at hexec
    case h_1 => cases hexec
    case h_2 e wire hwire =>
      cases hexec
      exact h.consume (connection_eq_some hc) hwire
  | cut =>
    cases hexec
    exact ⟨h.inv, h.base_eq, h.consumed, nofun⟩
where
  connection_eq_some {o : Option Connection} {c : Connection}
      (h : o.elim (.error .disabled) .ok = (.ok c : Except StreamFault Connection)) :
      o = some c := by
    cases o with
    | none => cases h
    | some c' => exact congrArg some (Except.ok.inj h)

end StreamInv

/-! ### The streams of a task -/

namespace Inv

variable {cfg : Config} {w : World} {key : Key}

/-- Only strings that the database accepts name a task. -/
theorem isEncodable_of_mem_taskLog (hi : Inv cfg w) {e : Snapshot}
    (he : e ∈ w.tables.taskLog key) : key.1.isEncodable = true ∧ key.2.isEncodable = true := by
  cases hrow : w.tables.snapshots.lookup key with
  | none =>
    rw [hi.taskLog_eq_nil hrow] at he
    cases he
  | some row =>
    have hbound := (hi.keys key row hrow).2
    refine ⟨?_, isEncodable_of_bindKey hbound⟩
    simp only [Tables.bindKey, bindText, bind_eq_ok, require_eq_ok] at hbound
    obtain ⟨_, ⟨_, howner, -⟩, -⟩ := hbound
    exact howner

theorem length_taskLog_le (hi : Inv cfg w) (key : Key) :
    (w.tables.taskLog key).length ≤ cfg.maxEvents := by
  cases hrow : w.tables.snapshots.lookup key with
  | none =>
    rw [hi.taskLog_eq_nil hrow]
    exact Nat.zero_le _
  | some row =>
    obtain ⟨h, hs, hlength, -⟩ := hi.stored key row hrow
    rwa [hs.taskLog_eq]

theorem sequence_lt (hi : Inv cfg w) {i : ℕ} {e : Snapshot}
    (he : (w.tables.taskLog key)[i]? = some e) : e.sequence < 2 ^ 63 := by
  have hlength := hi.length_taskLog_le key
  have hmax := cfg.maxEvents_bounds
  have hi' := (List.getElem?_eq_some_iff.mp he).1
  have hseq := (hi.logged key).numbered i e he
  omega

end Inv

namespace StreamInv

variable {H : Sha256} {kind : StreamKind} {cfg : Config} {key : Key} {base : Option ℕ}
  {s : Streaming}

/-- The invariant holds at all times. -/
theorem reachable {maxBytes : ℕ} {w : World}
    (hw : (system cfg).Reachable (World.initial maxBytes) w)
    (h : (streamSystem H kind cfg key).Reachable { world := w, base } s) :
    StreamInv cfg key base s := by
  refine h.invariant (I := StreamInv cfg key base) ?_ fun s a s' hi hstep => hi.exec hstep
  exact ⟨.reachable hw, rfl, nil_prefix, nofun⟩

/-- A server that has ended by itself has delivered the event that it stopped at, or had nothing to
deliver. -/
theorem stopped (h : StreamInv cfg key base s) {c : Connection} (hc : s.connection = some c)
    (hphase : c.reader.phase = .stopped) :
    (∃ e, c.reader.yielded.getLast? = some e ∧ (s.consumed ++ c.wire).getLast? = some e ∧
      e.isFinished = true) ∨
    c.reader.yielded = [] ∧ AtFinished (s.world.tables.taskLog key) c.reader.start := by
  obtain ⟨hfollows, hstopped, before, heq, -⟩ := h.connected c hc
  obtain ⟨hcursor, e, he, hfinished⟩ := hstopped hphase
  cases hlast : c.reader.yielded.getLast? with
  | none =>
    have hnil := getLast?_eq_none_iff.mp hlast
    have hstart := hfollows.cursor
    rw [hnil, length_nil, Nat.cast_zero, add_zero] at hstart
    rw [hstart] at hcursor he
    exact .inr ⟨hnil, hcursor, e, he, hfinished⟩
  | some last =>
    have hvalid : -1 ≤ c.reader.start := hfollows.valid (.inr (by simp [hphase]))
    obtain ⟨hseq, hget⟩ := (h.inv.logged key).getLast?_piece hvalid hfollows.yielded hlast
    -- the event at the cursor is the last one that was yielded
    have hindex : c.reader.cursor.toNat = last.sequence := by
      have := hfollows.cursor
      omega
    rw [hindex, hget] at he
    cases he
    refine .inl ⟨e, rfl, ?_, hfinished⟩
    rw [heq, getLast?_append, hlast]
    rfl

/-- The event that the client has consumed last, or the start, is within the log. -/
theorem resume_mem (h : StreamInv cfg key base s) (hstart : s.consumed ≠ [] ∨ base = none) :
    s.resume = none ∨
      ∃ e : Snapshot, s.resume = some e.sequence ∧
        (s.world.tables.taskLog key)[e.sequence]? = some e := by
  cases hlast : s.consumed.getLast? with
  | none =>
    have hnil := getLast?_eq_none_iff.mp hlast
    rcases hstart with hne | hnone
    · exact absurd hnil hne
    · left
      rw [Streaming.resume, hlast, h.base_eq, hnone]
      rfl
  | some e =>
    right
    refine ⟨e, by rw [Streaming.resume, hlast]; rfl, ?_⟩
    exact ((h.inv.logged key).getLast?_piece (cursorAfter_ge base) h.consumed hlast).2

/-- A client that resumes is refused only where there is nothing to come. -/
theorem refused (h : StreamInv cfg key base s) (hstart : s.consumed ≠ [] ∨ base = none)
    {f : StreamFault} (hf : Durable.connect H kind cfg key s.world.tables s.resume = .error f) :
    (∃ fault, f = .lifecycle fault) ∨
      f = noSubsequentEvents ∧ AtFinished (s.world.tables.taskLog key) (cursorAfter s.resume) := by
  have hmem := h.resume_mem hstart
  unfold Durable.connect at hf
  cases hget : s.world.tables.get cfg key with
  | error fault =>
    rw [hget] at hf
    cases hf
    exact .inl ⟨fault, rfl⟩
  | ok current =>
    have hlast := h.inv.get_eq hget
    rw [List.getLast?_eq_getElem?] at hlast
    have hcurrent := (h.inv.logged key).numbered _ current hlast
    have hbound : cursorAfter s.resume ≤ current.sequence := by
      rcases hmem with hnone | ⟨e, hsome, he⟩
      · rw [hnone]
        exact le_trans (by decide) (Int.natCast_nonneg _)
      · have hlt := (List.getElem?_eq_some_iff.mp he).1
        rw [hsome]
        show (e.sequence : ℤ) ≤ current.sequence
        omega
    have hparse : parseCursor H (s.resume.map (cursorText H key)) key =
        .ok (cursorAfter s.resume) := by
      rcases hmem with hnone | ⟨e, hsome, he⟩
      · rw [hnone]
        rfl
      · rw [hsome]
        exact parseCursor_cursorText (h.inv.sequence_lt he)
    rw [hget] at hf
    cases kind with
    | a2a =>
      rcases bind_eq_error.mp hf with hf | ⟨_, heq, hf⟩
      · cases hf
      cases heq
      rcases bind_eq_error.mp hf with hf | ⟨cursor, heq, hf⟩
      · rw [hparse] at hf
        cases hf
      rw [hparse] at heq
      cases heq
      rcases bind_eq_error.mp hf with hf | ⟨_, -, hf⟩
      · rw [require_eq_error] at hf
        exact absurd hbound (of_decide_eq_false hf.1)
      rcases bind_eq_error.mp hf with hf | ⟨_, -, hf⟩
      · -- the cursor is at the end of the log
        rw [require_eq_error, Bool.not_eq_false', Bool.and_eq_true, decide_eq_true_eq] at hf
        obtain ⟨⟨hcursor, hfinished⟩, rfl⟩ := hf
        refine .inr ⟨rfl, by omega, current, ?_, hfinished⟩
        rw [← hlast]
        congr 1
        omega
      · cases hf
    | tenant =>
      rcases bind_eq_error.mp hf with hf | ⟨_, heq, hf⟩
      · cases hf
      cases heq
      rcases bind_eq_error.mp hf with hf | ⟨_, -, hf⟩
      · rw [require_eq_error] at hf
        exact absurd hbound (of_decide_eq_false hf.1)
      · cases hf

end StreamInv

/-- **Resumed streams lose and repeat nothing.** For every interleaving of lifecycle calls with the
connections of a client, which resumes after the last event that it has consumed and may be cut at
any point:

* the client consumes the events of the log, numbered from its starting cursor on;
* a connection that the server ends by itself has delivered the event it stopped at, which is
  terminal or waits for input or authorization, or its cursor was at such an event;
* a client that resumes is refused for its cursor only there;
* an A2A cursor parses back to the event it was issued for, and is not accepted for another owner or
  task, if the digest does not collide on the two. -/
theorem streams_lose_nothing (H : Sha256) (kind : StreamKind) (cfg : Config) (maxBytes : ℕ)
    (w : World) (hw : (system cfg).Reachable (World.initial maxBytes) w) (key : Key)
    (base : Option ℕ) (s : Streaming)
    (h : (streamSystem H kind cfg key).Reachable { world := w, base } s) :
    (∀ (i : ℕ) (e : Snapshot), s.consumed[i]? = some e →
      (e.sequence : ℤ) = cursorAfter base + 1 + i ∧
      (s.world.tables.taskLog key)[e.sequence]? = some e) ∧
    (∀ c, s.connection = some c → c.reader.phase = .stopped →
      (∃ e, c.reader.yielded.getLast? = some e ∧ (s.consumed ++ c.wire).getLast? = some e ∧
        e.isFinished = true) ∨
      c.reader.yielded = [] ∧ AtFinished (s.world.tables.taskLog key) c.reader.start) ∧
    (∀ f, s.consumed ≠ [] ∨ base = none →
      connect H kind cfg key s.world.tables s.resume = .error f →
      (∃ fault, f = .lifecycle fault) ∨
        f = noSubsequentEvents ∧
          AtFinished (s.world.tables.taskLog key) (cursorAfter s.resume)) ∧
    ∀ key' e, e ∈ s.world.tables.taskLog key' →
      parseCursor H (some (cursorText H key' e.sequence)) key' = .ok e.sequence ∧
      ∀ key'' current c,
        (H.digest (scopeText key') = H.digest (scopeText key'') →
          scopeText key' = scopeText key'') →
        s.world.tables.get cfg key'' = .ok current →
        parseCursor H (some (cursorText H key' e.sequence)) key'' = .ok c → key'' = key' := by
  have hi := StreamInv.reachable hw h
  refine ⟨fun i e he => ?_, fun c hc hphase => hi.stopped hc hphase,
    fun f hstart hf => hi.refused hstart hf, fun key' e he => ⟨?_, ?_⟩⟩
  · exact (hi.inv.logged key).getElem?_piece (cursorAfter_ge base) hi.consumed he
  · obtain ⟨i, hget⟩ := getElem?_of_mem he
    exact parseCursor_cursorText (hi.inv.sequence_lt hget)
  · intro key'' current c hfree hget hparse
    have hmem := mem_of_getLast? (hi.inv.get_eq hget)
    exact key_eq_of_parseCursor hfree (hi.inv.isEncodable_of_mem_taskLog he)
      (hi.inv.isEncodable_of_mem_taskLog hmem) hparse

/-! ### A sample run -/

/-- A digest of one text. -/
def sampleDigest : Sha256 where
  digest _ := .ofString (String.ofList (List.replicate 64 'a'))
  isHex_digest _ := by decide +kernel

/-- The first connection is cut with an event on the wire; the second one delivers it, and the event
that ends the task. -/
def sampleStreaming : Streaming :=
  LTS.drive (streamExec sampleDigest .a2a sampleConfig sampleKey)
    { world := sampleSubmitted, base := none }
    [.connect 16, .serve, .serve, .consume, .call (.transition sampleKey .working 0), .serve, .serve,
      .serve, .cut, .call (.cancel sampleKey 1), .connect 16, .serve, .serve, .serve, .consume,
      .consume]

theorem sample_streams_lose_nothing :
    sampleStreaming.consumed.map (·.sequence) = [0, 1, 2] ∧
    ∀ (i : ℕ) (e : Snapshot), sampleStreaming.consumed[i]? = some e →
      (e.sequence : ℤ) = -1 + 1 + i ∧
      (sampleStreaming.world.tables.taskLog sampleKey)[e.sequence]? = some e :=
  ⟨by decide +kernel, (streams_lose_nothing sampleDigest .a2a sampleConfig 20480 sampleSubmitted
    (LTS.reachable_drive _ _ _) sampleKey none sampleStreaming (LTS.reachable_drive _ _ _)).1⟩

end AgentBridge.Durable
