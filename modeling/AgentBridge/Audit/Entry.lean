import AgentBridge.Chain.Basic
import AgentBridge.Text.Object
import Mathlib.Data.List.Sort

/-!
# Audit entries

An audit entry names the hash of the entry before it, and its own hash is the SHA-256 of its other
fields as JSON with sorted keys. An entry is stored as JSON and read back in normal form (adjacent
halves of a surrogate pair joined). That changes neither the text that is hashed nor the hashes.

* `payload_injective` : **the hashed text determines the fields**, up to normal form.
* `Intact.map_norm_eq` : **complete chains with the same head are the same**, up to normal form.
* `Intact.verifyChain_drop` : **what remains of a complete chain is accepted**, and as complete only
  if nothing was dropped.
-/

namespace AgentBridge

open JsonText

/-- `_hex`: lower-case hexadecimal digits, so many of them. -/
def PyString.isHex (s : PyString) (length : ℕ) : Bool :=
  s.codes.length = length && s.codes.all fun c => 48 ≤ c && c ≤ 57 || 97 ≤ c && c ≤ 102

theorem PyString.isEncodable_of_isHex {s : PyString} {length : ℕ} (h : s.isHex length = true) :
    s.isEncodable = true := by
  obtain ⟨-, hall⟩ := Bool.and_eq_true_iff.mp h
  refine List.all_eq_true.mpr fun c hc => ?_
  have hdigit := List.all_eq_true.mp hall c hc
  simp only [Bool.or_eq_true, Bool.and_eq_true, decide_eq_true_eq] at hdigit
  simp only [isSurrogate, Bool.not_eq_true', Bool.and_eq_false_iff, decide_eq_false_iff_not]
  omega

theorem PyString.norm_of_isHex {s : PyString} {length : ℕ} (h : s.isHex length = true) :
    s.norm = s :=
  norm_of_isEncodable (isEncodable_of_isHex h)

/-- The hexadecimal digest of an ASCII text. -/
structure Sha256 where
  digest : List Char → PyString
  isHex_digest : ∀ text, (digest text).isHex 64 = true

namespace Audit

open HashChain

/-! ### Entries -/

/-- A cost, as the text that `json.dumps` writes for the number. -/
structure Cost where
  text : List Char
  valid : (text.all fun c => !isEnd c && c != '"') = true
  deriving DecidableEq

/-- `0.0`. -/
def Cost.zero : Cost := ⟨['0', '.', '0'], rfl⟩

theorem Cost.token (cost : Cost) : Token cost.text := by
  refine .number fun c hc => ?_
  simpa using List.all_eq_true.mp cost.valid c hc

/-- `AuditEntry`. -/
structure AuditEntry where
  seq : ℤ
  timestamp : PyString
  actor : PyString
  action : PyString
  sourceProtocol : PyString
  targetProtocol : PyString
  capability : PyString
  decision : PyString
  reason : PyString
  cost : Cost
  prevHash : PyString
  entryHash : PyString := .ofString ""
  deriving DecidableEq

/-- `AuditLog.GENESIS`. -/
def genesis : PyString where
  codes := List.replicate 64 48
  valid _ hc := by
    rw [(List.mem_replicate.mp hc).2]
    decide

namespace AuditEntry

/-- `_payload`: every field but the hash, by key. -/
def fields (e : AuditEntry) : List (String × List Char) :=
  [("action", quoted e.action), ("actor", quoted e.actor), ("capability", quoted e.capability),
    ("cost", e.cost.text), ("decision", quoted e.decision), ("prev_hash", quoted e.prevHash),
    ("reason", quoted e.reason), ("seq", intText e.seq),
    ("source_protocol", quoted e.sourceProtocol), ("target_protocol", quoted e.targetProtocol),
    ("timestamp", quoted e.timestamp)]

/-- `json.dumps(self._payload(), sort_keys=True)`. -/
def payload (e : AuditEntry) : List Char := object [' '] e.fields

/-- The entry that `json.loads` makes of the stored text. -/
def norm (e : AuditEntry) : AuditEntry where
  seq := e.seq
  timestamp := e.timestamp.norm
  actor := e.actor.norm
  action := e.action.norm
  sourceProtocol := e.sourceProtocol.norm
  targetProtocol := e.targetProtocol.norm
  capability := e.capability.norm
  decision := e.decision.norm
  reason := e.reason.norm
  cost := e.cost
  prevHash := e.prevHash.norm
  entryHash := e.entryHash.norm

theorem payload_norm (e : AuditEntry) : e.norm.payload = e.payload := by
  simp only [payload, fields, norm, quoted_norm]

theorem token_fields (e : AuditEntry) : ∀ kv ∈ e.fields, Token kv.2 := by
  simp only [fields, List.forall_mem_cons, List.not_mem_nil, false_implies, implies_true, and_true]
  exact ⟨.text _, .text _, .text _, e.cost.token, .text _, .text _, .text _, .intText _,
    .text _, .text _, .text _⟩

/-- **The hashed text determines the fields**, up to normal form. -/
theorem payload_injective {e e' : AuditEntry} (h : e.payload = e'.payload) :
    { e.norm with entryHash := genesis } = { e'.norm with entryHash := genesis } := by
  have hfields := object_injective (by rfl) e.token_fields e'.token_fields h
  simp only [fields, List.cons.injEq, Prod.mk.injEq, true_and, and_true] at hfields
  obtain ⟨haction, hactor, hcapability, hcost, hdecision, hprev, hreason, hseq, hsource, htarget,
    htime⟩ := hfields
  have hcost' : e.cost = e'.cost := by
    cases he : e.cost
    cases he' : e'.cost
    simpa [he, he'] using hcost
  simp only [norm, norm_eq_of_quoted_eq haction, norm_eq_of_quoted_eq hactor,
    norm_eq_of_quoted_eq hcapability, hcost', norm_eq_of_quoted_eq hdecision,
    norm_eq_of_quoted_eq hprev, norm_eq_of_quoted_eq hreason, intText_injective hseq,
    norm_eq_of_quoted_eq hsource, norm_eq_of_quoted_eq htarget, norm_eq_of_quoted_eq htime]

/-- Where an entry keeps its hashes. -/
def format : Format AuditEntry PyString := ⟨prevHash, entryHash, genesis⟩

end AuditEntry

open AuditEntry

variable (H : Sha256)

/-- `compute_hash`. -/
def computeHash (e : AuditEntry) : PyString := H.digest e.payload

theorem computeHash_norm (e : AuditEntry) : computeHash H e.norm = computeHash H e := by
  rw [computeHash, payload_norm, computeHash]

/-! ### `verify_chain` -/

/-- The loop of `verify_chain`. -/
def walk (prevSeq : ℤ) (prevHash : PyString) : List AuditEntry → Bool
  | [] => true
  | rec :: rest =>
    if rec.seq ≠ prevSeq + 1 ∨ rec.prevHash ≠ prevHash then false
    else if computeHash H rec ≠ rec.entryHash then false
    else walk rec.seq rec.entryHash rest

/-- `sorted(records, key=…)`, by the numbers of the records. -/
abbrev byNumber (records : List AuditEntry) : List AuditEntry := records.insertionSort (·.seq ≤ ·.seq)

theorem byNumber_eq {records : List AuditEntry} (h : records.Pairwise (·.seq ≤ ·.seq)) :
    byNumber records = records := h.insertionSort_eq

/-- `verify_chain`. -/
def verifyChain (records : List AuditEntry) (requireGenesis : Bool) : Bool :=
  match byNumber records with
  | [] => true
  | first :: rest =>
    if requireGenesis && (first.seq ≠ 0 || first.prevHash ≠ genesis) then false
    else walk H (first.seq - 1) first.prevHash (first :: rest)

/-- `_starts_at_genesis`. -/
def startsAtGenesis (records : List AuditEntry) : Bool :=
  records.isEmpty || (records.map (·.seq)).min? = some 0

/-- The loop accepts the chains that go on from where it is. -/
theorem walk_iff (prevSeq : ℤ) (prevHash : PyString) (log : List AuditEntry) :
    walk H prevSeq prevHash log = true ↔ (format.after prevHash).Linked log ∧
      Numbered (·.seq) (prevSeq + 1) log ∧ ∀ e ∈ log, e.entryHash = computeHash H e := by
  induction log generalizing prevSeq prevHash with
  | nil => simp [walk]
  | cons e log ih =>
    rw [walk, List.forall_mem_cons, Format.linked_cons, numbered_cons]
    simp only [Format.after_prev, Format.after_genesis, Format.after_hash, Format.after_after]
    by_cases hseq : e.seq = prevSeq + 1
    · by_cases hprev : e.prevHash = prevHash
      · by_cases hhash : computeHash H e = e.entryHash
        · rw [if_neg (by simp [hseq, hprev]), if_neg (by simp [hhash]), ih, hseq]
          simp [format, hprev, hhash]
        · simp [hseq, hprev, hhash, Ne.symm hhash]
      · simp [hprev, format]
    · simp [hseq]

/-- `verify_chain` on records in ascending order: the loop starts before the first record. -/
theorem verifyChain_iff {records : List AuditEntry}
    (hsorted : records.Pairwise (·.seq ≤ ·.seq)) (g : Bool) :
    verifyChain H records g = true ↔ ∀ first ∈ records.head?,
      (g = true → first.seq = 0 ∧ first.prevHash = genesis) ∧
      (format.after first.prevHash).Linked records ∧ Numbered (·.seq) first.seq records ∧
      ∀ e ∈ records, e.entryHash = computeHash H e := by
  rw [verifyChain, byNumber_eq hsorted]
  cases records with
  | nil => simp
  | cons first rest =>
    have hwalk := walk_iff H (first.seq - 1) first.prevHash (first :: rest)
    rw [sub_add_cancel] at hwalk
    simp only [List.head?_cons, Option.mem_some_iff, forall_eq', ← hwalk]
    have hcond : (g && (first.seq ≠ 0 || first.prevHash ≠ genesis)) = true ↔
        ¬(g = true → first.seq = 0 ∧ first.prevHash = genesis) := by
      rw [Bool.and_eq_true, Bool.or_eq_true, decide_eq_true_eq, decide_eq_true_eq, Classical.not_imp,
        not_and_or]
    by_cases hg : g = true → first.seq = 0 ∧ first.prevHash = genesis
    · rw [if_neg (hcond.not.mpr (not_not_intro hg)), and_iff_right hg]
    · rw [if_pos (hcond.mpr hg)]
      simp [hg]

/-! ### Complete chains -/

/-- A complete chain from the genesis. -/
structure Intact (log : List AuditEntry) : Prop where
  linked : format.Linked log
  numbered : Numbered (·.seq) 0 log
  hashed : ∀ e ∈ log, e.entryHash = computeHash H e

namespace Intact

variable {H} {log : List AuditEntry}

theorem nil : Intact H [] := ⟨trivial, trivial, fun _ he => by cases he⟩

variable {e : AuditEntry}

/-- The entry with the next number, linked to the head, continues the chain. -/
theorem concat (h : Intact H log) (hseq : e.seq = log.length) (hprev : e.prevHash = format.head log)
    (hhash : e.entryHash = computeHash H e) :
    Intact H (log ++ [e]) where
  linked := (Format.linked_concat _ _ _).mpr ⟨h.linked, hprev⟩
  numbered := by
    rw [numbered_append, numbered_cons]
    exact ⟨h.numbered, by rw [hseq, zero_add], trivial⟩
  hashed := by
    intro e' he'
    rcases List.mem_append.mp he' with hold | hnew
    · exact h.hashed e' hold
    · rw [List.mem_singleton.mp hnew]
      exact hhash

theorem isHex_entryHash (h : Intact H log) (he : e ∈ log) : e.entryHash.isHex 64 = true := by
  rw [h.hashed e he]
  exact H.isHex_digest _

theorem isHex_prevHash (h : Intact H log) (he : e ∈ log) : e.prevHash.isHex 64 = true :=
  h.linked.forall_prev (P := fun s => s.isHex 64 = true) (by decide)
    (fun _ he' => h.isHex_entryHash he') e he

/-- Reading a chain back from its text keeps it a chain. -/
theorem map_norm (h : Intact H log) : Intact H (log.map norm) where
  linked := h.linked.map fun _ he =>
    ⟨PyString.norm_of_isHex (h.isHex_prevHash he), PyString.norm_of_isHex (h.isHex_entryHash he)⟩
  numbered := h.numbered.map fun _ => rfl
  hashed := by
    intro e he
    obtain ⟨e₀, he₀, rfl⟩ := List.mem_map.mp he
    rw [computeHash_norm, ← h.hashed e₀ he₀]
    exact PyString.norm_of_isHex (h.isHex_entryHash he₀)

theorem take (h : Intact H log) (k : ℕ) : Intact H (log.take k) :=
  ⟨h.linked.take k, h.numbered.take k, fun e he => h.hashed e (List.mem_of_mem_take he)⟩

/-- The entries of a complete chain have distinct numbers, so the sort of `verify_chain` does
nothing to it. -/
theorem verifyChain_eq (h : Intact H log) (g : Bool) : verifyChain H log g = true := by
  rw [verifyChain_iff H (h.numbered.pairwise.imp le_of_lt)]
  cases log with
  | nil => simp
  | cons first rest =>
    have hseq : first.seq = 0 := h.numbered.1
    have hprev : first.prevHash = genesis := h.linked.1
    simp only [List.head?_cons, Option.mem_some_iff, forall_eq', hseq, hprev]
    exact ⟨fun _ => ⟨trivial, trivial⟩, h.linked, h.numbered, h.hashed⟩

theorem of_verifyChain (hsorted : log.Pairwise (·.seq ≤ ·.seq))
    (h : verifyChain H log true = true) : Intact H log := by
  rw [verifyChain_iff H hsorted] at h
  cases log with
  | nil => exact .nil
  | cons first rest =>
    obtain ⟨hfirst, hlinked, hnumbered, hhashed⟩ := h first rfl
    obtain ⟨hseq, hprev⟩ := hfirst rfl
    rw [hprev] at hlinked
    rw [hseq] at hnumbered
    exact ⟨hlinked, hnumbered, hhashed⟩

/-- A hash determines the entry, up to normal form, where the digest has no collision. -/
theorem norm_eq {log' : List AuditEntry} (h : Intact H log) (h' : Intact H log') {e' : AuditEntry}
    (he : e ∈ log) (he' : e' ∈ log')
    (hinj : H.digest e.payload = H.digest e'.payload → e.payload = e'.payload)
    (hhash : e.entryHash = e'.entryHash) : e.norm = e'.norm := by
  have hdigest : H.digest e.payload = H.digest e'.payload :=
    (h.hashed e he).symm.trans (hhash.trans (h'.hashed e' he'))
  have hfields := payload_injective (hinj hdigest)
  have hnorm : e.norm.entryHash = e'.norm.entryHash := congrArg PyString.norm hhash
  calc e.norm = { ({ e.norm with entryHash := genesis } : AuditEntry) with
        entryHash := e.norm.entryHash } := rfl
    _ = { ({ e'.norm with entryHash := genesis } : AuditEntry) with
        entryHash := e'.norm.entryHash } := by rw [hfields, hnorm]
    _ = e'.norm := rfl

/-- **Complete chains with the same head are the same**, up to normal form. -/
theorem map_norm_eq {log' : List AuditEntry} (h : Intact H log) (h' : Intact H log')
    (hlen : log.length = log'.length) (hhead : format.head log = format.head log')
    (hinj : ∀ e ∈ log, ∀ e' ∈ log', H.digest e.payload = H.digest e'.payload →
      e.payload = e'.payload) : log.map norm = log'.map norm := by
  have hnorm : ∀ e ∈ log, ∀ e' ∈ log', format.hash e = format.hash e' → e.norm = e'.norm :=
    fun e he e' he' => h.norm_eq h' he he' (hinj e he e' he')
  refine Format.map_eq_of_map_hash (F := format) ?_ hnorm
  refine Format.agree h.linked h'.linked hlen hhead fun e he e' he' hhash => ?_
  have hprev : e.prevHash.norm = e'.prevHash.norm :=
    congrArg AuditEntry.prevHash (hnorm e he e' he' hhash)
  rwa [PyString.norm_of_isHex (h.isHex_prevHash he),
    PyString.norm_of_isHex (h'.isHex_prevHash he')] at hprev

theorem head_map_norm (h : Intact H log) : format.head (log.map norm) = format.head log :=
  Format.head_map fun _ he => PyString.norm_of_isHex (h.isHex_entryHash he)

/-- **What remains of a complete chain is accepted**, and as complete only if nothing was
dropped. -/
theorem verifyChain_drop (h : Intact H log) {k : ℕ} (hk : k < log.length) (g : Bool) :
    verifyChain H (log.drop k) g = true ↔ (g = true → k = 0) := by
  have hnum : Numbered (·.seq) (k : ℤ) (log.drop k) := by
    have := h.numbered.drop hk.le
    rwa [zero_add] at this
  have hlink := h.linked.drop k
  rw [verifyChain_iff H (hnum.pairwise.imp le_of_lt)]
  cases hrows : log.drop k with
  | nil =>
    rw [List.drop_eq_nil_iff] at hrows
    omega
  | cons first rest =>
    rw [hrows] at hnum hlink
    have hfirst : first.seq = k := hnum.1
    have hprev : first.prevHash = format.head (log.take k) := hlink.1
    have hhash : ∀ e ∈ first :: rest, e.entryHash = computeHash H e := fun e he =>
      h.hashed e (List.mem_of_mem_drop (hrows ▸ he))
    simp only [List.head?_cons, Option.mem_some_iff, forall_eq']
    rw [hprev, hfirst, and_iff_left ⟨hlink, hnum, hhash⟩]
    refine imp_congr_right fun _ => ⟨fun hzero => by omega, ?_⟩
    rintro rfl
    exact ⟨rfl, rfl⟩

end Intact

/-! ### A sample chain -/

/-- A digest of the sum of the codes. -/
def sampleSha : Sha256 where
  digest text :=
    let sum := (text.map Char.toNat).sum
    { codes := List.replicate 62 48 ++ [48 + sum / 10 % 10, 48 + sum % 10]
      valid := by
        intro c hc
        rcases List.mem_append.mp hc with hzero | hdigit
        · rw [(List.mem_replicate.mp hzero).2]
          decide
        · simp only [List.mem_cons, List.not_mem_nil, or_false] at hdigit
          omega }
  isHex_digest text := by
    have htens : 48 + (text.map Char.toNat).sum / 10 % 10 ≤ 57 := by omega
    have hones : 48 + (text.map Char.toNat).sum % 10 ≤ 57 := by omega
    simp [PyString.isHex, htens, hones]

def sampleEntry : AuditEntry :=
  let e : AuditEntry :=
    { seq := 0, timestamp := .ofString "2026-01-01", actor := .ofString "agent",
      action := .ofString "invoke", sourceProtocol := .ofString "mcp",
      targetProtocol := .ofString "a2a", capability := .ofString "search",
      decision := .ofString "allow", reason := .ofString "", cost := .zero, prevHash := genesis }
  { e with entryHash := computeHash sampleSha e }

/-- A second entry. -/
def nextEntry : AuditEntry :=
  let e : AuditEntry := { sampleEntry with seq := 1, prevHash := sampleEntry.entryHash }
  { e with entryHash := computeHash sampleSha e }

end Audit

end AgentBridge
