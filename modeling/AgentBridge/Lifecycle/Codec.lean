import AgentBridge.Lifecycle.Basic
import AgentBridge.Text.Object

/-!
# Task snapshots as text

`DurableTaskLifecycle` stores every snapshot of a task as the text of a JSON object, and reads
states back from that text, in Python and in SQL.

Reading a snapshot back gives its normal form: adjacent halves of a pair have become one code point.
The normal form is written in the same way and passes the same checks, so a stored task keeps its
identity.

* `decode_encode` : **a stored snapshot is read back in its normal form**.
* `byteLength_encode_le` : **every event fits the reserved 4096 bytes**.
* `snapshot_codec` : **which tasks are read back as they were**.
-/

namespace AgentBridge.Durable

open JsonText PyString

/-- The exceptions of the lifecycle, and errors of the database or its driver. -/
inductive LifecycleFault
  | rejected (message : String)
  | capacity (message : String)
  | database (message : String)
  deriving DecidableEq, Repr

/-! ### Snapshots -/

/-- The value of a state. -/
def stateText : TaskState → String
  | .submitted => "submitted"
  | .working => "working"
  | .inputRequired => "input-required"
  | .authRequired => "auth-required"
  | .completed => "completed"
  | .failed => "failed"
  | .canceled => "canceled"
  | .rejected => "rejected"

/-- `TaskState(value)`. -/
def stateOf? (text : PyString) : Option TaskState :=
  [.submitted, .working, .inputRequired, .authRequired, .completed, .failed, .canceled,
    .rejected].find? fun s => text = .ofString (stateText s)

/-- The fields of `TaskLifecycle`. -/
structure Snapshot where
  taskId : PyString
  contextId : PyString
  sourceProtocol : PyString
  state : TaskState := .submitted
  sequence : ℕ := 0
  deriving DecidableEq

namespace Snapshot

/-- `__post_init__`. -/
def check (s : Snapshot) : Except LifecycleFault Unit := do
  require s.taskId.isIdentifier (.rejected "task_id must be a bounded nonempty identifier")
  require s.contextId.isIdentifier (.rejected "context_id must be a bounded nonempty identifier")
  require s.sourceProtocol.isIdentifier
    (.rejected "source_protocol must be a bounded nonempty identifier")
  require (s.sourceProtocol = .ofString "a2a" || s.sourceProtocol = .ofString "agentbridge")
    (.rejected "only reviewed A2A and native task provenance is supported")

/-- `terminal`. -/
def isTerminal (s : Snapshot) : Bool := s.state.isTerminal

/-- `TaskLifecycle.transition`. -/
def transition (s : Snapshot) (newState : TaskState) (sequence : ℕ) :
    Except LifecycleFault Snapshot := do
  require (decide (s.sequence < sequence)) (.rejected "stale or replayed lifecycle event sequence")
  require (s.state.successors.contains newState)
    (.rejected "illegal or terminal task lifecycle transition")
  return { s with state := newState, sequence }

/-- The snapshot that `_decode` makes of the stored text. -/
def norm (s : Snapshot) : Snapshot :=
  { s with taskId := s.taskId.norm, contextId := s.contextId.norm
           sourceProtocol := s.sourceProtocol.norm }

end Snapshot

/-- A task that passed its checks. -/
abbrev TaskLifecycle := { s : Snapshot // s.check = .ok () }

/-! ### The stored text -/

/-- The text before a value. -/
def keyContextId : List Char := "\x7b\"context_id\":\"".toList

@[inherit_doc keyContextId]
def keySequence : List Char := ",\"sequence\":".toList

@[inherit_doc keyContextId]
def keySourceProtocol : List Char := ",\"source_protocol\":\"".toList

@[inherit_doc keyContextId]
def keyState : List Char := ",\"state\":\"".toList

@[inherit_doc keyContextId]
def keyTaskId : List Char := ",\"task_id\":\"".toList

/-- `_encode`: `json.dumps` with sorted keys. -/
def encode (s : Snapshot) : List Char :=
  keyContextId ++ (escape s.contextId.codes ++ '"' ::
  (keySequence ++ (Nat.toDigits 10 s.sequence ++
  (keySourceProtocol ++ (escape s.sourceProtocol.codes ++ '"' ::
  (keyState ++ (escape (PyString.ofString (stateText s.state)).codes ++ '"' ::
  (keyTaskId ++ (escape s.taskId.codes ++ '"' :: ['\x7d'])))))))))

/-- The fields of the parsed object. -/
structure Fields where
  contextId : PyString
  sequence : ℕ
  sourceProtocol : PyString
  state : PyString
  taskId : PyString
  deriving DecidableEq

/-- `json.loads` on the stored object. -/
def parse (raw : List Char) : Option Fields := do
  let raw ← expect keyContextId raw
  let (contextId, raw) ← readString raw
  let raw ← expect keySequence raw
  let (sequence, raw) ← readNat raw
  let raw ← expect keySourceProtocol raw
  let (sourceProtocol, raw) ← readString raw
  let raw ← expect keyState raw
  let (state, raw) ← readString raw
  let raw ← expect keyTaskId raw
  let (taskId, raw) ← readString raw
  if raw = ['\x7d'] then return ⟨contextId, sequence, sourceProtocol, state, taskId⟩ else none

/-- `_decode`. -/
def decode (raw : List Char) : Except LifecycleFault Snapshot :=
  match parse raw with
  | none => .error (.database "stored snapshot is not a task")
  | some f =>
    match stateOf? f.state with
    | none => .error (.database "stored state is not a task state")
    | some state => do
      let s : Snapshot :=
        { taskId := f.taskId, contextId := f.contextId, sourceProtocol := f.sourceProtocol
          state, sequence := f.sequence }
      s.check
      return s

/-- `snapshot::jsonb`: the cast fails on an escape that PostgreSQL cannot hold. -/
def jsonb (raw : List Char) : Option Fields := do
  let f ← parse raw
  if f.contextId.isPgText && f.sourceProtocol.isPgText && f.state.isPgText && f.taskId.isPgText
  then return f else none

/-! ### Round trip -/

theorem stateOf?_stateText (state : TaskState) :
    stateOf? (.ofString (stateText state)) = some state := by
  cases state <;> decide

/-- The parsed object of a stored snapshot. -/
def Snapshot.fields (s : Snapshot) : Fields where
  contextId := s.contextId.norm
  sequence := s.sequence
  sourceProtocol := s.sourceProtocol.norm
  state := .ofString (stateText s.state)
  taskId := s.taskId.norm

theorem parse_encode (s : Snapshot) : parse (encode s) = some s.fields := by
  have hstate : (PyString.ofString (stateText s.state)).norm = .ofString (stateText s.state) :=
    PyString.norm_of_isEncodable (PyString.isEncodable_ofString _)
  have hseq : ∀ cs : List Char,
      readNat (Nat.toDigits 10 s.sequence ++ (keySourceProtocol ++ cs)) =
        some (s.sequence, keySourceProtocol ++ cs) := by
    intro cs
    have hhead : (keySourceProtocol ++ cs).head? = some ',' := by
      rw [List.head?_append, show keySourceProtocol.head? = some ',' by decide +kernel]
      rfl
    refine readNat_toDigits _ fun c hc => ?_
    rw [hhead] at hc
    cases hc
    decide
  simp only [parse, encode, expect_append, readString_escape, hseq, hstate, Option.bind_eq_bind,
    Option.bind_some, if_true]
  rfl

/-- The checks do not depend on how pairs are written. -/
theorem Snapshot.check_norm {s : Snapshot} (h : s.check = .ok ()) : s.norm.check = .ok () := by
  simp only [check, Except.bind_eq_ok, require_eq_ok] at h ⊢
  obtain ⟨-, htask, -, hcontext, -, hsource, hprotocol⟩ := h
  have hsame : s.sourceProtocol.norm = s.sourceProtocol := by
    simp only [Bool.or_eq_true, decide_eq_true_eq] at hprotocol
    rcases hprotocol with heq | heq <;> rw [heq] <;>
      exact PyString.norm_of_isEncodable (PyString.isEncodable_ofString _)
  refine ⟨(), PyString.isIdentifier_norm htask, (), PyString.isIdentifier_norm hcontext, (), ?_, ?_⟩
  · exact PyString.isIdentifier_norm hsource
  · show (s.sourceProtocol.norm = _ || s.sourceProtocol.norm = _ : Bool) = true
    rw [hsame]
    exact hprotocol

/-- **A stored snapshot is read back in its normal form.** -/
theorem decode_encode {s : Snapshot} (h : s.check = .ok ()) : decode (encode s) = .ok s.norm := by
  have hcheck : s.norm.check = .ok () := s.check_norm h
  simp only [decode, parse_encode, Snapshot.fields, stateOf?_stateText]
  show (s.norm.check >>= fun _ => pure s.norm) = _
  rw [hcheck]
  rfl

theorem encode_norm (s : Snapshot) : encode s.norm = encode s := by
  simp only [encode, Snapshot.norm, PyString.escape_norm]

theorem Snapshot.norm_norm (s : Snapshot) : s.norm.norm = s.norm := by
  simp only [norm, PyString.norm_norm]

/-! ### Size -/

theorem encode_ascii (s : Snapshot) : ∀ c ∈ encode s, c.toNat < 128 := by
  have hascii : ([keyContextId, keySequence, keySourceProtocol, keyState, keyTaskId].all fun key =>
      key.all fun c => c.toNat < 128) = true := by decide +kernel
  have hkeys : ∀ key ∈ [keyContextId, keySequence, keySourceProtocol, keyState, keyTaskId],
      ∀ c ∈ key, c.toNat < 128 := by
    intro key hkey c hc
    have hall := List.all_eq_true.mp (List.all_eq_true.mp hascii key hkey) c hc
    exact of_decide_eq_true hall
  have hdigits : ∀ c ∈ Nat.toDigits 10 s.sequence, c.toNat < 128 :=
    JsonText.intText_ascii s.sequence
  have hquote : '"'.toNat < 128 := by decide
  simp only [encode, List.forall_mem_append, List.forall_mem_cons]
  exact ⟨hkeys _ (by simp), escape_ascii _, hquote, hkeys _ (by simp), hdigits, hkeys _ (by simp),
    escape_ascii _, hquote, hkeys _ (by simp), escape_ascii _, hquote, hkeys _ (by simp),
    escape_ascii _, hquote, by decide, nofun⟩

theorem length_stateText_le (state : TaskState) :
    (PyString.ofString (stateText state)).codes.length ≤ 14 := by
  cases state <;> decide +kernel

/-- **Every event fits the reserved 4096 bytes.** -/
theorem byteLength_encode_le {s : Snapshot} (h : s.check = .ok ()) (hseq : s.sequence < 10 ^ 19) :
    byteLength (encode s) ≤ 4096 := by
  rw [byteLength_of_ascii (encode_ascii s)]
  simp only [Snapshot.check, PyString.isIdentifier, Except.bind_eq_ok, require_eq_ok,
    Bool.and_eq_true, decide_eq_true_eq] at h
  obtain ⟨-, htask, -, hcontext, -, -, hprotocol⟩ := h
  have hsource : s.sourceProtocol.codes.length ≤ 11 := by
    simp only [Bool.or_eq_true, decide_eq_true_eq] at hprotocol
    rcases hprotocol with heq | heq <;> rw [heq] <;> decide +kernel
  have hkeys : keyContextId.length = 15 ∧ keySequence.length = 12 ∧ keySourceProtocol.length = 20 ∧
      keyState.length = 10 ∧ keyTaskId.length = 12 := by decide +kernel
  have hdigits : (Nat.toDigits 10 s.sequence).length ≤ 19 :=
    Nat.toDigits_length 10 s.sequence 19 (by omega) hseq
  have hcontextLen := length_escape_le s.contextId.codes
  have htaskLen := length_escape_le s.taskId.codes
  have hsourceLen := length_escape_le s.sourceProtocol.codes
  have hstateLen := length_escape_le (PyString.ofString (stateText s.state)).codes
  have hstate := length_stateText_le s.state
  simp only [encode, List.length_append, List.length_cons, List.length_nil]
  omega

/-- **Every task fits 4096 bytes, and is read back as it was exactly when no identifier has two
adjacent halves of a surrogate pair.** A lone half, a control character or a code point outside
the basic plane is no obstacle. -/
theorem snapshot_codec (task : TaskLifecycle) (hseq : task.1.sequence < 2 ^ 63) :
    byteLength (encode task.1) ≤ 4096 ∧
    (decode (encode task.1) = .ok task.1 ↔
      task.1.taskId.hasPair = false ∧ task.1.contextId.hasPair = false) := by
  refine ⟨byteLength_encode_le task.2 (hseq.trans (by decide)), ?_⟩
  -- the source protocol is one of two plain words
  have hsource : task.1.sourceProtocol.norm = task.1.sourceProtocol := by
    have hcheck := task.2
    simp only [Snapshot.check, Except.bind_eq_ok, require_eq_ok, Bool.or_eq_true,
      decide_eq_true_eq] at hcheck
    obtain ⟨-, -, -, -, -, -, hprotocol⟩ := hcheck
    rcases hprotocol with heq | heq <;> rw [heq] <;>
      exact PyString.norm_of_isEncodable (PyString.isEncodable_ofString _)
  rw [decode_encode task.2, Except.ok.injEq, ← PyString.norm_eq_self_iff,
    ← PyString.norm_eq_self_iff]
  constructor
  · intro hnorm
    exact ⟨congrArg Snapshot.taskId hnorm, congrArg Snapshot.contextId hnorm⟩
  · rintro ⟨htask, hcontext⟩
    simp only [Snapshot.norm, htask, hcontext, hsource]

/-- A task with the given identifier. -/
def sampleSnapshot (codes : List ℕ) (valid : ∀ c ∈ codes, c < 0x110000) : Snapshot where
  taskId := ⟨codes, valid⟩
  contextId := .ofString "context-1"
  sourceProtocol := .ofString "a2a"

/-- Lone halves in the wrong order, a control character and a code point outside the basic plane. -/
theorem snapshot_codec_sample :
    decode (encode (sampleSnapshot [0xde00, 0xd83d, 1, 0x1f600] (by decide))) =
      .ok (sampleSnapshot [0xde00, 0xd83d, 1, 0x1f600] (by decide)) :=
  (snapshot_codec ⟨sampleSnapshot [0xde00, 0xd83d, 1, 0x1f600] (by decide), by decide +kernel⟩
    (by decide)).2.mpr ⟨by decide, by decide +kernel⟩

/-- The two halves of a pair come back as one code point. -/
theorem joined_halves :
    (sampleSnapshot [0xd83d, 0xde00] (by decide)).check = .ok () ∧
    decode (encode (sampleSnapshot [0xd83d, 0xde00] (by decide))) =
      .ok (sampleSnapshot [0x1f600] (by decide)) ∧
    sampleSnapshot [0xd83d, 0xde00] (by decide) ≠ sampleSnapshot [0x1f600] (by decide) :=
  ⟨by decide +kernel, Except.toOption_eq_some.mp (by decide +kernel), by decide⟩

end AgentBridge.Durable
