import AgentBridge.Lifecycle.Effects
import AgentBridge.Ownership.Owner
import AgentBridge.Queued.Transactions
import AgentBridge.Text.Flat
import Mathlib.Algebra.Group.Action.Defs
import Mathlib.Data.List.TakeWhile

/-!
# The size of an admission record

When a queued task is admitted, `_link` writes one row that ties the task to its operation. A
trigger refuses the row unless its record, its snapshot and its identifiers keep fixed bounds.

The bounds on bytes always hold: four identifiers of 128 characters take at most twelve characters
each in the record, and everything else is short. The trigger also asks for a nonempty identifier,
and in SQLite `length` counts the characters before the first NUL.

* `length_json_le`, `byteLength_snapshot_le` : **the record and the snapshot fit**.
* `link_eq_ok_iff` : **which intents are admitted**.
* `row_holds_link` : the row is the link of the tenant's tables.
-/

namespace AgentBridge.Admission

open Durable JsonText List Except

/-! ### Submissions -/

/-- The fields of `TaskSubmission`, without the wire message. -/
structure TaskSubmission where
  requestScope : PyString
  taskId : PyString
  contextId : PyString
  src : PyString
  dst : PyString
  operationId : PyString
  targetId : PyString
  deriving DecidableEq

/-- `str` with `Field(min_length, max_length)`; a string with half of a pair is no `str`. -/
def isField (minLength maxLength : ℕ) (s : PyString) : Bool :=
  minLength ≤ s.codes.length && s.codes.length ≤ maxLength && s.isEncodable

/-- `TaskSubmission.model_validate`. -/
def TaskSubmission.modelValidate (value : TaskSubmission) : Bool :=
  value.requestScope = .ofString "task.submit" && isField 1 128 value.taskId &&
    isField 1 128 value.contextId && isField 1 32 value.src && isField 1 32 value.dst &&
    isField 16 128 value.operationId && isField 1 128 value.targetId

/-- `parse_submission`, after the body has been parsed as JSON. -/
def parseSubmission (value : TaskSubmission) : Except String TaskSubmission := do
  require value.modelValidate "invalid task submission"
  require ([value.src, value.dst, value.targetId, value.operationId].all PyString.isIdentifier)
    "invalid task submission"
  -- `TaskLifecycle(...)` checks the identifiers of the task
  match Snapshot.check
      { taskId := value.taskId, contextId := value.contextId
        sourceProtocol := .ofString "agentbridge" } with
  | .ok () => return value
  | .error _ => throw "invalid task submission"

/-! ### The record -/

/-- Hexadecimal digits, so many of them. -/
abbrev Hex (length : ℕ) := { s : PyString // s.isHex length = true }

/-- How floats are written: in at most 25 characters. -/
structure ShortFloats (F : Type) extends FloatText F where
  length_write_le : ∀ x, (write x).length ≤ 25

/-- The least integer that is too large for a float. -/
def overflow : ℕ := 2 ^ 1024 - 2 ^ 970

/-- `math.isfinite`, which fails for an integer that is too large. -/
def isFinite {F : Type} : Number F → Bool
  | .int n => n.natAbs < overflow
  | .float _ => true

/-- What a prepared intent binds: the accepted submission, who submitted it, and the plan. -/
structure Prepared (F : Type) where
  tenantId : PyString
  agentId : PyString
  tenantId_ok : Ownership.isIdentifier tenantId = true
  agentId_ok : Ownership.isIdentifier agentId = true
  submission : TaskSubmission
  accepted : parseSubmission submission = .ok submission
  ownerId : Hex 64
  intentSha256 : Hex 64
  targetConfigurationSha256 : Hex 64
  cost : F
  originalDeadline : Number F
  deadline_finite : isFinite originalDeadline = true
  resultLimitBytes : ℕ
  resultLimitBytes_le : resultLimitBytes ≤ 1048576

/-- What the gateway hands to `_link`. -/
structure Call (F : Type) where
  requestScope : Hex 64
  original : Hex 64
  token : Hex 32
  approvalRequired : Bool
  now : F

/-- The fields of the record that are not constants. -/
structure Metadata (F : Type) where
  tenantId : PyString
  ownerId : PyString
  taskId : PyString
  contextId : PyString
  agentId : PyString
  operationId : PyString
  intentSha256 : PyString
  actionSha256 : PyString
  originalActionSha256 : PyString
  reservationToken : PyString
  eventSequence : ℕ
  taskState : String
  targetId : PyString
  targetConfigurationSha256 : PyString
  reservedCost : F
  approvalRequired : Bool
  resultLimitBytes : ℕ
  originalAuthorizationExpiresAt : Number F
  admittedAt : F

def boolText (b : Bool) : List Char := if b then "true".toList else "false".toList

section Record

variable {F : Type} (T : ShortFloats F)

/-- The members of the record, in the order of `sort_keys`. -/
def Metadata.members (m : Metadata F) : List (String × List Char) :=
  [("action_sha256", quoted m.actionSha256),
    ("admitted_at", T.write m.admittedAt),
    ("agent_id", quoted m.agentId),
    ("approval_required", boolText m.approvalRequired),
    ("context_id", quoted m.contextId),
    ("domain", quoted (.ofString "agentbridge.task-admission.v1")),
    ("event_sequence", intText m.eventSequence),
    ("execution_admitted", boolText true),
    ("intent_sha256", quoted m.intentSha256),
    ("operation_id", quoted m.operationId),
    ("operation_state_at_admission", quoted (.ofString "unknown")),
    ("original_action_sha256", quoted m.originalActionSha256),
    ("original_authorization_expires_at",
      writeNumber T.toFloatText m.originalAuthorizationExpiresAt),
    ("owner_id", quoted m.ownerId),
    ("phase", quoted (.ofString "admitted")),
    ("reservation_token", quoted m.reservationToken),
    ("reserved_cost", T.write m.reservedCost),
    ("result_limit_bytes", intText m.resultLimitBytes),
    ("target_configuration_sha256", quoted m.targetConfigurationSha256),
    ("target_id", quoted m.targetId),
    ("task_id", quoted m.taskId),
    ("task_state", quoted (.ofString m.taskState)),
    ("tenant_id", quoted m.tenantId)]

/-- `_json(metadata)`. -/
def Metadata.json (m : Metadata F) : List Char := object [] (m.members T)

/-- A row of `task_operation_links_v1`. -/
structure LinkRow where
  ownerId : PyString
  taskId : PyString
  agentId : PyString
  operationId : PyString
  intentSha256 : PyString
  actionSha256 : PyString
  reservationToken : PyString
  eventSequence : ℕ
  snapshot : List Char
  record : List Char
  recordSha256 : PyString
  deriving DecidableEq

/-! ### The bounds of the trigger -/

/-- The bytes of a code point in UTF-8. -/
def utf8Size (c : ℕ) : ℕ :=
  if c < 0x80 then 1 else if c < 0x800 then 2 else if c < 0x10000 then 3 else 4

/-- `length(CAST(value AS BLOB))` and `octet_length(value)`. -/
def octetLength (s : PyString) : ℕ := (s.codes.map utf8Size).sum

/-- `length(value)`: SQLite counts the characters before the first NUL. A `TEXT` of PostgreSQL holds
no NUL, so that a value with one is refused before its trigger, which alone is modelled. -/
def sqlLength : Backend → PyString → ℕ
  | .sqlite, s => (s.codes.takeWhile (· != 0)).length
  | .postgres, s => s.codes.length

/-- `length(value) BETWEEN 1 AND 128 AND encoded(value)<=512`. -/
def isBounded (backend : Backend) (s : PyString) : Bool :=
  1 ≤ sqlLength backend s && sqlLength backend s ≤ 128 && octetLength s ≤ 512

def LinkRow.identifiers (row : LinkRow) : List PyString :=
  [row.ownerId, row.taskId, row.agentId, row.operationId, row.reservationToken]

def LinkRow.digests (row : LinkRow) : List PyString :=
  [row.intentSha256, row.actionSha256, row.recordSha256]

/-- The bounds of `_guards`. -/
def bounds (backend : Backend) (row : LinkRow) : Bool :=
  byteLength row.record ≤ 8192 && byteLength row.snapshot ≤ 4096 &&
    row.identifiers.all (isBounded backend) && row.digests.all fun d => sqlLength backend d = 64

variable (H : Sha256)

/-- The row that `_insert` writes. -/
def Metadata.row (m : Metadata F) (snapshot : List Char) : LinkRow where
  ownerId := m.ownerId
  taskId := m.taskId
  agentId := m.agentId
  operationId := m.operationId
  intentSha256 := m.intentSha256
  actionSha256 := m.actionSha256
  reservationToken := m.reservationToken
  eventSequence := m.eventSequence
  snapshot
  record := m.json T
  recordSha256 := H.digest (m.json T)

/-- `_insert`; `relation` is the rest of the trigger's condition, the join with the intent, its
operation, its reservation and the event of the task. -/
def insert (backend : Backend) (relation : Bool) (m : Metadata F) (snapshot : List Char) :
    Except LifecycleFault LinkRow := do
  require (bounds backend (m.row T H snapshot) && relation)
    (.database "invalid or unbounded task admission link")
  return m.row T H snapshot

/-- The metadata of `_link`. -/
def Prepared.metadata (p : Prepared F) (call : Call F) (task : Snapshot) : Metadata F where
  tenantId := p.tenantId
  ownerId := p.ownerId
  taskId := p.submission.taskId
  contextId := p.submission.contextId
  agentId := p.agentId
  operationId := p.submission.operationId
  intentSha256 := p.intentSha256
  actionSha256 := call.requestScope
  originalActionSha256 := call.original
  reservationToken := call.token
  eventSequence := task.sequence
  taskState := stateText task.state
  targetId := p.submission.targetId
  targetConfigurationSha256 := p.targetConfigurationSha256
  reservedCost := p.cost
  approvalRequired := call.approvalRequired
  resultLimitBytes := p.resultLimitBytes
  originalAuthorizationExpiresAt := p.originalDeadline
  admittedAt := call.now

/-- The task as it was created with the intent. -/
def TaskSubmission.task (s : TaskSubmission) : Snapshot where
  taskId := s.taskId
  contextId := s.contextId
  sourceProtocol := .ofString "agentbridge"

/-- `_link`: the task moves to `WORKING`, and the row is written. -/
def link (backend : Backend) (relation : Bool) (p : Prepared F) (call : Call F) :
    Except LifecycleFault LinkRow := do
  let task ← p.submission.task.transition .working 1
  insert T H backend relation (p.metadata call task) (encode task)

/-! ### What is accepted -/

/-- The task after its first step. -/
def TaskSubmission.working (s : TaskSubmission) : Snapshot :=
  { s.task with state := .working, sequence := 1 }

/-- The row of an intent. -/
def Prepared.row (p : Prepared F) (call : Call F) : LinkRow :=
  (p.metadata call p.submission.working).row T H (encode p.submission.working)

variable {backend : Backend} {p : Prepared F} {call : Call F} {s : PyString}

/-- A row is written exactly if it keeps the bounds. -/
theorem link_eq_ok {relation : Bool} {row : LinkRow} : link T H backend relation p call = .ok row ↔
      bounds backend (p.row T H call) = true ∧ relation = true ∧ p.row T H call = row := by
  have htask : p.submission.task.transition .working 1 = .ok p.submission.working := rfl
  simp only [link, htask, ok_bind, insert, bind_eq_ok, require_eq_ok,
    Bool.and_eq_true, pure_eq_ok, Prepared.row]
  constructor
  · rintro ⟨-, ⟨hbounds, hrelation⟩, hrow⟩
    exact ⟨hbounds, hrelation, hrow⟩
  · rintro ⟨hbounds, hrelation, hrow⟩
    exact ⟨(), ⟨hbounds, hrelation⟩, hrow⟩

theorem link_eq_error {relation : Bool} (h : bounds backend (p.row T H call) = false) :
    link T H backend relation p call =
      .error (.database "invalid or unbounded task admission link") := by
  have htask : p.submission.task.transition .working 1 = .ok p.submission.working := rfl
  rw [Prepared.row] at h
  rw [link, htask, ok_bind, insert, h]
  rfl

theorem isField_length {minLength maxLength : ℕ} (h : isField minLength maxLength s = true) :
    minLength ≤ s.codes.length ∧ s.codes.length ≤ maxLength := by
  simp only [isField, Bool.and_eq_true, decide_eq_true_eq] at h
  exact h.1

/-- What is known of an accepted submission. -/
structure Accepted (s : TaskSubmission) : Prop where
  task : s.task.check = .ok ()
  taskId : 1 ≤ s.taskId.codes.length ∧ s.taskId.codes.length ≤ 128
  contextId : 1 ≤ s.contextId.codes.length ∧ s.contextId.codes.length ≤ 128
  operationId : 16 ≤ s.operationId.codes.length ∧ s.operationId.codes.length ≤ 128
  targetId : 1 ≤ s.targetId.codes.length ∧ s.targetId.codes.length ≤ 128

theorem Accepted.of_parseSubmission {s : TaskSubmission} (h : parseSubmission s = .ok s) :
    Accepted s := by
  simp only [parseSubmission, bind_eq_ok, require_eq_ok] at h
  obtain ⟨-, hvalid, -, -, hcheck⟩ := h
  simp only [TaskSubmission.modelValidate, Bool.and_eq_true] at hvalid
  obtain ⟨⟨⟨⟨⟨⟨-, htask⟩, hcontext⟩, -⟩, -⟩, hoperation⟩, htarget⟩ := hvalid
  refine ⟨?_, isField_length htask, isField_length hcontext, isField_length hoperation,
    isField_length htarget⟩
  split at hcheck
  next hok => exact hok
  next => cases hcheck

/-! ### The record fits -/

theorem toNat_lt_of_isAlphanum {c : Char} (h : c.isAlphanum = true) : c.toNat < 128 := by
  delta Char.isAlphanum Char.isAlpha Char.isUpper Char.isLower Char.isDigit at h
  simp only [Bool.or_eq_true, Bool.and_eq_true, decide_eq_true_eq] at h
  rcases h with (⟨-, hle⟩ | ⟨-, hle⟩) | ⟨-, hle⟩
  · exact (show c.toNat ≤ 90 from hle).trans_lt (by decide)
  · exact (show c.toNat ≤ 122 from hle).trans_lt (by decide)
  · exact (show c.toNat ≤ 57 from hle).trans_lt (by decide)

theorem isTokenChar_ascii {c : Char} (h : isTokenChar c = true) : c.toNat < 128 := by
  simp only [isTokenChar, Bool.or_eq_true, decide_eq_true_eq] at h
  rcases h with ((halnum | rfl) | rfl) | rfl
  · exact toNat_lt_of_isAlphanum halnum
  · decide
  · decide
  · decide

theorem write_ascii (x : F) : ∀ c ∈ T.write x, c.toNat < 128 := fun c hc =>
  isTokenChar_ascii (all_eq_true.mp (T.isToken x) c hc)

theorem writeNumber_ascii (n : Number F) : ∀ c ∈ writeNumber T.toFloatText n, c.toNat < 128 := by
  cases n with
  | int n => exact intText_ascii n
  | float x => exact write_ascii T x

theorem boolText_ascii (b : Bool) : ∀ c ∈ boolText b, c.toNat < 128 := by
  have hall : ((boolText b).all fun c => c.toNat < 128) = true := by cases b <;> decide
  exact fun c hc => of_decide_eq_true (all_eq_true.mp hall c hc)

theorem length_boolText_le (b : Bool) : (boolText b).length ≤ 5 := by cases b <;> decide

theorem length_intText_le {n : ℤ} {k : ℕ} (h : n.natAbs < 10 ^ k) :
    (intText n).length ≤ k + 1 := by
  cases n with
  | ofNat n =>
    cases k with
    | zero =>
      have hzero : n = 0 := by simpa using h
      rw [hzero]
      decide
    | succ k => exact (Nat.toDigits_length 10 n (k + 1) (by omega) h).trans (by omega)
  | negSucc n =>
    cases k with
    | zero => simp at h
    | succ k =>
      exact Nat.succ_le_succ (Nat.toDigits_length 10 (n + 1) (k + 1) (by omega) h)

variable {n : ℕ}

theorem two_pow_le_ten_pow {m k : ℕ} (hm : m = 93 * k + 1) (hn : n = 28 * k + 1) :
    2 ^ m ≤ 10 ^ n := by
  have hpow : 2 ^ 93 ≤ 10 ^ 28 := by decide
  rw [hm, hn, pow_succ, pow_succ, pow_mul, pow_mul]
  exact Nat.mul_le_mul (Nat.pow_le_pow_left hpow k) (by decide)

/-- No finite integer has more than 309 digits. -/
theorem overflow_le : overflow ≤ 10 ^ 309 :=
  (Nat.sub_le _ _).trans (two_pow_le_ten_pow (k := 11) (by decide) (by decide))

theorem length_writeNumber_le {n : Number F} (h : isFinite n = true) :
    (writeNumber T.toFloatText n).length ≤ 310 := by
  cases n with
  | int n =>
    simp only [isFinite, decide_eq_true_eq] at h
    exact length_intText_le (h.trans_le overflow_le)
  | float x => exact (T.length_write_le x).trans (by omega)

/-- The codes of a digest stand for themselves. -/
theorem plain_of_isHex (h : s.isHex n = true) :
    ∀ c ∈ s.codes, 0x20 ≤ c ∧ c ≤ 0x7e ∧ c ≠ 0x22 ∧ c ≠ 0x5c := by
  simp only [PyString.isHex, Bool.and_eq_true, all_eq_true, Bool.or_eq_true,
    decide_eq_true_eq] at h
  intro c hc
  have := h.2 c hc
  omega

theorem length_of_isHex (h : s.isHex n = true) : s.codes.length = n :=
  of_decide_eq_true (Bool.and_eq_true_iff.mp h).1

theorem length_quoted_hex (s : Hex n) : (quoted s.1).length = n + 2 := by
  rw [length_quoted_of_plain (plain_of_isHex s.2), length_of_isHex s.2]

/-- The names of the directory are plain. -/
theorem plain_of_isIdentifier (h : Ownership.isIdentifier s = true) :
    ∀ c ∈ s.codes, 0x20 ≤ c ∧ c ≤ 0x7e ∧ c ≠ 0x22 ∧ c ≠ 0x5c := by
  unfold Ownership.isIdentifier at h
  split at h
  · cases h
  next first rest hcodes =>
    simp only [Ownership.isAlphanumCode, Bool.and_eq_true, all_eq_true, Bool.or_eq_true,
      decide_eq_true_eq, beq_iff_eq] at h
    obtain ⟨⟨hfirst, -⟩, hrest⟩ := h
    rw [hcodes]
    intro c hc
    rcases mem_cons.mp hc with rfl | hc
    · omega
    · have := hrest c hc
      omega

theorem length_of_isIdentifier (h : Ownership.isIdentifier s = true) :
    1 ≤ s.codes.length ∧ s.codes.length ≤ 128 := by
  unfold Ownership.isIdentifier at h
  split at h
  · cases h
  next first rest hcodes =>
    simp only [Bool.and_eq_true, decide_eq_true_eq] at h
    rw [hcodes, length_cons]
    omega

theorem length_quoted_identifier_le (h : Ownership.isIdentifier s = true) :
    (quoted s).length ≤ 130 := by
  rw [length_quoted_of_plain (plain_of_isIdentifier h)]
  have := length_of_isIdentifier h
  omega

theorem json_ascii (m : Metadata F) : ∀ c ∈ m.json T, c.toNat < 128 := by
  refine object_ascii fun kv hkv => ⟨?_, ?_⟩
  · have hnames : (((m.members T).map Prod.fst).all fun name =>
        name.toList.all fun c => c.toNat < 128) = true := by
      simp only [Metadata.members, map_cons, map_nil]
      decide +kernel
    have hname := all_eq_true.mp hnames kv.1 (mem_map_of_mem hkv)
    exact fun c hc => of_decide_eq_true (all_eq_true.mp hname c hc)
  · revert kv
    simp only [Metadata.members, forall_mem_cons]
    exact ⟨quoted_ascii _, write_ascii T _, quoted_ascii _, boolText_ascii _, quoted_ascii _,
      quoted_ascii _, intText_ascii _, boolText_ascii _, quoted_ascii _, quoted_ascii _,
      quoted_ascii _, quoted_ascii _, writeNumber_ascii T _, quoted_ascii _, quoted_ascii _,
      quoted_ascii _, write_ascii T _, intText_ascii _, quoted_ascii _, quoted_ascii _,
      quoted_ascii _, quoted_ascii _, quoted_ascii _, nofun⟩

theorem frame_members (m : Metadata F) : frame ((m.members T).map Prod.fst) = 421 := by
  simp only [Metadata.members, map_cons, map_nil]
  decide +kernel

/-- Each character of an identifier may take twelve in the record. -/
theorem length_quoted_le_of_length (h : s.codes.length ≤ 128) : (quoted s).length ≤ 1538 := by
  have := length_quoted_le s
  omega

/-- Bounds of the members, in the order of the record. -/
def memberBounds : List ℕ :=
  [66, 25, 130, 5, 1538, 31, 1, 4, 66, 1538, 9, 66, 310, 66, 10, 34, 25, 8, 66, 1538, 1538, 9, 130]

theorem members_le (p : Prepared F) (call : Call F) :
    List.Forall₂ (fun kv n => kv.2.length ≤ n)
      ((p.metadata call p.submission.working).members T) memberBounds := by
  have haccepted := Accepted.of_parseSubmission p.accepted
  have hlimit : (p.resultLimitBytes : ℤ).natAbs < 10 ^ 7 := by
    have hle := p.resultLimitBytes_le
    rw [Int.natAbs_natCast]
    omega
  refine .cons (length_quoted_hex _).le <| .cons (T.length_write_le _) <|
    .cons (length_quoted_identifier_le p.agentId_ok) <| .cons (length_boolText_le _) <|
    .cons (length_quoted_le_of_length haccepted.contextId.2) <| .cons ?domain <| .cons ?sequence <|
    .cons ?executionAdmitted <| .cons (length_quoted_hex _).le <|
    .cons (length_quoted_le_of_length haccepted.operationId.2) <| .cons ?operationState <|
    .cons (length_quoted_hex _).le <| .cons (length_writeNumber_le T p.deadline_finite) <|
    .cons (length_quoted_hex _).le <| .cons ?phase <| .cons (length_quoted_hex _).le <|
    .cons (T.length_write_le _) <| .cons (length_intText_le hlimit) <|
    .cons (length_quoted_hex _).le <|
    .cons (length_quoted_le_of_length haccepted.targetId.2) <|
    .cons (length_quoted_le_of_length haccepted.taskId.2) <| .cons ?taskState <|
    .cons (length_quoted_identifier_le p.tenantId_ok) .nil
  case sequence =>
    have hsequence : (p.metadata call p.submission.working).eventSequence = 1 := rfl
    rw [hsequence]
    decide +kernel
  case taskState =>
    exact (show (quoted (.ofString (stateText .working))).length ≤ 9 by decide +kernel)
  all_goals decide +kernel

/-- **The record of an admitted intent fits.** -/
theorem length_json_le (p : Prepared F) (call : Call F) :
    ((p.metadata call p.submission.working).json T).length ≤ 8192 := by
  have hvalues := valueSize_le (members_le T p call)
  have hsum : memberBounds.sum = 7213 := by decide
  have hlength := length_object
    (show (p.metadata call p.submission.working).members T ≠ [] from cons_ne_nil _ _)
  rw [frame_members] at hlength
  rw [Metadata.json]
  omega

/-- **The snapshot of an admitted task fits.** -/
theorem byteLength_snapshot_le (p : Prepared F) :
    byteLength (encode p.submission.working) ≤ 4096 :=
  byteLength_encode_le (Accepted.of_parseSubmission p.accepted).task
    (show 1 < 10 ^ 19 by decide)

theorem octetLength_le (s : PyString) : octetLength s ≤ 4 * s.codes.length := by
  have hsize : ∀ c, utf8Size c ≤ 4 := by
    intro c
    unfold utf8Size
    split_ifs <;> omega
  have hsum := sum_le_card_nsmul (s.codes.map utf8Size) 4 fun n hn => by
    obtain ⟨c, -, rfl⟩ := mem_map.mp hn
    exact hsize c
  rw [length_map, smul_eq_mul] at hsum
  rw [octetLength]
  omega

/-! ### The identifiers -/

/-- The text starts with U+0000. -/
def startsWithNul (s : PyString) : Bool := s.codes.head? = some 0

@[simp] theorem sqlLength_sqlite (s : PyString) :
    sqlLength .sqlite s = (s.codes.takeWhile (· != 0)).length := rfl

@[simp] theorem sqlLength_postgres (s : PyString) : sqlLength .postgres s = s.codes.length := rfl

theorem sqlLength_le (backend : Backend) (s : PyString) :
    sqlLength backend s ≤ s.codes.length := by
  cases backend with
  | sqlite => exact (takeWhile_sublist _).length_le
  | postgres => exact le_rfl

/-- Without a NUL all characters are counted. -/
theorem sqlLength_of_plain (h : ∀ c ∈ s.codes, 0x20 ≤ c ∧ c ≤ 0x7e ∧ c ≠ 0x22 ∧ c ≠ 0x5c) :
    sqlLength backend s = s.codes.length := by
  cases backend with
  | sqlite =>
    have hall : s.codes.takeWhile (· != 0) = s.codes :=
      takeWhile_eq_self_iff.mpr fun c hc => by
        have := h c hc
        exact bne_iff_ne.mpr (by omega)
    rw [sqlLength_sqlite, hall]
  | postgres => rfl

/-- SQLite counts nothing of a text that starts with NUL. -/
theorem one_le_sqlLength_sqlite (h : 1 ≤ s.codes.length) :
    1 ≤ sqlLength .sqlite s ↔ startsWithNul s = false := by
  rw [sqlLength_sqlite, startsWithNul]
  cases hcodes : s.codes with
  | nil =>
    rw [hcodes] at h
    exact absurd h (by decide)
  | cons c cs =>
    rw [takeWhile_cons]
    split
    next hc => simpa using hc
    next hc => simpa using hc

theorem isBounded_of_plain (h : ∀ c ∈ s.codes, 0x20 ≤ c ∧ c ≤ 0x7e ∧ c ≠ 0x22 ∧ c ≠ 0x5c)
    (hlength : 1 ≤ s.codes.length ∧ s.codes.length ≤ 128) : isBounded backend s = true := by
  have hbytes := octetLength_le s
  simp only [isBounded, sqlLength_of_plain h, Bool.and_eq_true, decide_eq_true_eq]
  omega

/-- An identifier of the submission keeps its bounds, unless SQLite counts nothing of it. -/
theorem isBounded_iff (hlength : 1 ≤ s.codes.length ∧ s.codes.length ≤ 128) :
    isBounded backend s = true ↔ backend = .sqlite → startsWithNul s = false := by
  have hbytes := octetLength_le s
  have hle := sqlLength_le backend s
  have hsize : isBounded backend s = true ↔ 1 ≤ sqlLength backend s := by
    simp only [isBounded, Bool.and_eq_true, decide_eq_true_eq]
    omega
  rw [hsize]
  cases backend with
  | sqlite =>
    rw [one_le_sqlLength_sqlite hlength.1]
    exact ⟨fun h _ => h, fun h => h rfl⟩
  | postgres => exact ⟨nofun, fun _ => hlength.1⟩

theorem digests_complete (backend : Backend) (p : Prepared F) (call : Call F) :
    ((p.row T H call).digests.all fun d => sqlLength backend d = 64) = true := by
  have hhex : ∀ {s : PyString}, s.isHex 64 = true → sqlLength backend s = 64 := fun h =>
    (sqlLength_of_plain (plain_of_isHex h)).trans (length_of_isHex h)
  simp only [LinkRow.digests, all_cons, all_nil, Bool.and_eq_true, decide_eq_true_eq]
  exact ⟨hhex p.intentSha256.2, hhex call.requestScope.2, hhex (H.isHex_digest _), trivial⟩

/-- The bounds of the trigger are those on the two identifiers that the client chose. -/
theorem bounds_row :
    bounds backend (p.row T H call) = true ↔ backend = .sqlite →
      startsWithNul p.submission.taskId = false ∧
        startsWithNul p.submission.operationId = false := by
  have haccepted := Accepted.of_parseSubmission p.accepted
  have hrecord : byteLength (p.row T H call).record ≤ 8192 :=
    (byteLength_of_ascii (json_ascii T _)).trans_le (length_json_le T p call)
  have hhex : ∀ {n : ℕ} (s : Hex n), 1 ≤ n → n ≤ 128 → isBounded backend s.1 = true :=
    fun s hlow hhigh => isBounded_of_plain (plain_of_isHex s.2) (by
      rw [length_of_isHex s.2]
      exact ⟨hlow, hhigh⟩)
  have hagent : isBounded backend p.agentId = true :=
    isBounded_of_plain (plain_of_isIdentifier p.agentId_ok) (length_of_isIdentifier p.agentId_ok)
  have htask : isBounded backend p.submission.taskId = true ↔
      (backend = .sqlite → startsWithNul p.submission.taskId = false) :=
    isBounded_iff haccepted.taskId
  have hoperation : isBounded backend p.submission.operationId = true ↔
      (backend = .sqlite → startsWithNul p.submission.operationId = false) :=
    isBounded_iff ⟨haccepted.operationId.1.trans' (by decide), haccepted.operationId.2⟩
  have hids : (p.row T H call).identifiers.all (isBounded backend) = true ↔
      isBounded backend p.submission.taskId = true ∧
        isBounded backend p.submission.operationId = true := by
    simp only [LinkRow.identifiers, Prepared.row, Metadata.row, Prepared.metadata, all_cons,
      all_nil, Bool.and_true, hhex p.ownerId (by decide) (by decide),
      hhex call.token (by decide) (by decide), hagent, Bool.true_and, Bool.and_eq_true]
  rw [bounds, digests_complete, Bool.and_true, decide_eq_true hrecord,
    decide_eq_true (show byteLength (p.row T H call).snapshot ≤ 4096 from
      byteLength_snapshot_le p), Bool.true_and, Bool.true_and, hids, htask, hoperation, imp_and]

/-- **Which intents are admitted**, as far as the bounds go. -/
theorem link_eq_ok_iff :
    link T H backend true p call = .ok (p.row T H call) ↔ backend = .sqlite →
      startsWithNul p.submission.taskId = false ∧
        startsWithNul p.submission.operationId = false := by
  rw [link_eq_ok, bounds_row]
  exact ⟨fun h => h.1, fun h => ⟨h, rfl, rfl⟩⟩

theorem identifiers_length_le (p : Prepared F) (call : Call F) :
    ∀ s ∈ (p.row T H call).identifiers, s.codes.length ≤ 128 := by
  have haccepted := Accepted.of_parseSubmission p.accepted
  have hhex : ∀ {n : ℕ} (s : Hex n), n ≤ 128 → s.1.codes.length ≤ 128 := fun s hn =>
    (length_of_isHex s.2).trans_le hn
  simp only [LinkRow.identifiers, forall_mem_cons]
  exact ⟨hhex p.ownerId (by decide), haccepted.taskId.2, (length_of_isIdentifier p.agentId_ok).2,
    haccepted.operationId.2, hhex call.token (by decide), nofun⟩

/-- **Every row keeps the bounds on bytes, and SQLite refuses exactly the rows in which the task
or the operation has an identifier that starts with NUL.** -/
theorem admission_bounds (p : Prepared F) (call : Call F) :
    byteLength (p.row T H call).record ≤ 8192 ∧
    byteLength (p.row T H call).snapshot ≤ 4096 ∧
    (∀ s ∈ (p.row T H call).identifiers, octetLength s ≤ 512) ∧
    ∀ backend, (link T H backend true p call = .ok (p.row T H call) ↔ (backend = .sqlite →
      startsWithNul p.submission.taskId = false ∧
        startsWithNul p.submission.operationId = false)) := by
  refine ⟨?_, byteLength_snapshot_le p, fun s hs => ?_, fun backend => link_eq_ok_iff T H⟩
  · exact (byteLength_of_ascii (json_ascii T _)).trans_le (length_json_le T p call)
  · have hlength := identifiers_length_le T H p call s hs
    have hbytes := octetLength_le s
    omega

/-! ### The link of the tenant -/

/-- The row is a link as the tenant's tables keep it. -/
def LinkRow.Holds (row : LinkRow) (l : Queued.LinkRow) : Prop :=
  (row.ownerId, row.taskId) = keyOf (l.ownerId, l.taskId) ∧
    (row.agentId, row.operationId) = keyOf (l.agentId, l.operationId) ∧
    (row.intentSha256, row.actionSha256) = keyOf (l.intentSha256, l.actionSha256) ∧
    row.reservationToken = .ofString l.reservationToken ∧ row.eventSequence = l.eventSequence ∧
    row.snapshot = encode (.ofTask l.snapshot)

/-- **The row of an intent is the tenant's link**, if intent and call agree with the plan. -/
theorem row_holds_link {cfg : Queued.Config} {s : Authority.State} {t t' : Queued.Tenant}
    {context : Queued.QueuedAuthority} {plan : Queued.Plan} {required : Bool}
    {i : Queued.Tenant.QueuedInput} {receipt : Queued.LinkRow}
    (hlink : t.link cfg s context plan required i = .ok (receipt, t'))
    (htask : (t.lifecycle.snapshots.lookup (plan.ownerId, plan.submission.taskId)).map .ofTask =
      some p.submission.task)
    (hkey : (p.ownerId.1, p.submission.taskId) = keyOf (plan.ownerId, plan.submission.taskId))
    (hop : (p.agentId, p.submission.operationId) =
      keyOf (context.intent.agentId, plan.submission.operationId))
    (hdigests : (p.intentSha256.1, call.requestScope.1) =
      keyOf (plan.intentSha256, (Queued.Tenant.preparedScope cfg context plan).1))
    (htoken : call.token.1 = .ofString i.token) : (p.row T H call).Holds receipt := by
  simp only [Queued.Tenant.link, Queued.Tenant.insertLink, bind_eq_ok, pure_eq_ok] at hlink
  obtain ⟨_, _, ⟨task, lifecycle⟩, hmove, _, ⟨-, -, -, -, _, -, rfl⟩, -, -, hreceipt⟩ := hlink
  obtain ⟨⟨⟨created, hcreated, -, rfl⟩, -, -⟩, hone⟩ := Lifecycle.TransitionOk.of_transition hmove
  obtain ⟨rfl, -⟩ := Prod.mk.inj hreceipt
  rw [hcreated] at htask
  refine ⟨hkey, hop, hdigests, htoken, hone.symm, ?_⟩
  show encode p.submission.working = _
  rw [TaskSubmission.working, ← Option.some.inj htask]
  exact congrArg (fun n => encode { Snapshot.ofTask created with state := .working, sequence := n })
    hone.symm

end Record

/-! ### Two intents -/

def sampleFloats : ShortFloats Unit where
  write _ := "1.5".toList
  read cs := if cs = "1.5".toList then some () else none
  read_write _ := if_pos rfl
  ne_nil _ := by decide
  isToken _ := by decide
  not_int _ := by decide
  length_write_le _ := by decide

/-- Many copies of one character. -/
def copies (n c : ℕ) (h : c < 0x110000) : PyString where
  codes := List.replicate n c
  valid d hd := by
    rw [eq_of_mem_replicate hd]
    exact h

def sampleHex : Hex 64 := ⟨copies 64 97 (by decide), by decide⟩

def sampleHash : Sha256 where
  digest _ := sampleHex
  isHex_digest _ := sampleHex.2

/-- A submission with the given task. -/
def sampleSubmission (taskId : PyString) : TaskSubmission where
  requestScope := .ofString "task.submit"
  taskId
  contextId := copies 128 0x1f600 (by decide)
  src := .ofString "mcp"
  dst := .ofString "a2a"
  operationId := copies 128 0x1f600 (by decide)
  targetId := copies 128 0x1f600 (by decide)

def samplePrepared (taskId : PyString)
    (accepted : parseSubmission (sampleSubmission taskId) = .ok (sampleSubmission taskId)) :
    Prepared Unit where
  tenantId := .ofString "tenant-1"
  agentId := .ofString "agent-1"
  tenantId_ok := by decide
  agentId_ok := by decide
  submission := sampleSubmission taskId
  accepted
  ownerId := sampleHex
  intentSha256 := sampleHex
  targetConfigurationSha256 := sampleHex
  cost := ()
  originalDeadline := .float ()
  deadline_finite := rfl
  resultLimitBytes := 65536
  resultLimitBytes_le := by decide

def sampleCall : Call Unit where
  requestScope := sampleHex
  original := sampleHex
  token := ⟨copies 32 97 (by decide), by decide⟩
  approvalRequired := false
  now := ()

theorem sample_accepted :
    parseSubmission (sampleSubmission (copies 128 0x1f600 (by decide))) =
      .ok (sampleSubmission (copies 128 0x1f600 (by decide))) :=
  toOption_eq_some.mp (by decide +kernel)

/-- All identifiers as long as they can be. -/
theorem admission_bounds_sample :
    link sampleFloats sampleHash .sqlite true (samplePrepared _ sample_accepted) sampleCall =
      .ok ((samplePrepared _ sample_accepted).row sampleFloats sampleHash sampleCall) :=
  ((admission_bounds sampleFloats sampleHash (samplePrepared _ sample_accepted)
    sampleCall).2.2.2 .sqlite).mpr fun _ => ⟨by decide, by decide⟩

/-- A task of one NUL and a letter. -/
def nulTask : PyString := ⟨[0, 97], by decide⟩

theorem nulTask_accepted :
    parseSubmission (sampleSubmission nulTask) = .ok (sampleSubmission nulTask) :=
  toOption_eq_some.mp (by decide +kernel)

/-- The submission is accepted, its row is small, and SQLite refuses it as unbounded. -/
theorem nul_task_refused :
    parseSubmission (sampleSubmission nulTask) = .ok (sampleSubmission nulTask) ∧
    link sampleFloats sampleHash .sqlite true (samplePrepared nulTask nulTask_accepted)
      sampleCall = .error (.database "invalid or unbounded task admission link") := by
  refine ⟨nulTask_accepted, link_eq_error _ _ ?_⟩
  rw [Bool.eq_false_iff, Ne, bounds_row]
  intro h
  exact absurd (h rfl).1 (by decide)

end AgentBridge.Admission
