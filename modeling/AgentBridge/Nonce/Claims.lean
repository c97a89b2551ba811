import AgentBridge.LTS.Basic
import AgentBridge.Table.Filter
import AgentBridge.Text.PyString

/-!
# Claims of nonces

A signed request carries a nonce `<time>:<random>`, and `claim_nonce` has to return `True` at most
once for it. A call reads the clock and checks that the nonce is fresh. Then, in a transaction, it
deletes the claims of all agents that are older than twice the lifetime, and inserts its own.

The clock is read before the transaction. A call that has to wait in between judges the freshness
of its nonce by a time that has passed, and another call may have deleted the first claim by then.

The actions of any number of workers are interleaved. On PostgreSQL a `DELETE` locks row by row, and
it misses rows that are committed while it runs; an `INSERT` waits for a transaction that has
inserted or deleted the same row. On SQLite there is one write transaction at a time, and its
`DELETE` leaves no old row.

* `nonce_claimed_once` : **with `inTime`, no nonce is claimed twice**.
-/

namespace AgentBridge.Nonce

open List Bool
open Except (bind_eq_ok)

/-! ### Nonces -/

/-- An agent and its nonce. -/
abbrev Key := PyString × PyString

/-- `float` of a string: no value if it raises, and no inner value for an infinity or a NaN. -/
abbrev Parser := PyString → Option (Option ℚ)

/-- The first half of `nonce.split(":", 1)`, if there are two. -/
def splitColon : List ℕ → Option (List ℕ × List ℕ)
  | [] => none
  | c :: rest => if c = 58 then some ([], rest) else (splitColon rest).map fun p => (c :: p.1, p.2)

/-- The finite time that a nonce of the right form names. -/
def timestamp? (float : Parser) (nonce : PyString) : Option ℚ := do
  let (time, random) ← if nonce.codes.length ≤ 256 then splitColon nonce.codes else none
  let time ← PyString.ofCodes? time
  if 16 ≤ random.length then (float time).join else none

/-- The nonce is fresh at a time: `abs(now - timestamp) <= ttl_seconds`. -/
def isFresh (float : Parser) (nonce : PyString) (ttl now : ℚ) : Bool :=
  (timestamp? float nonce).any fun timestamp => |now - timestamp| ≤ ttl

/-! ### Calls and their interleavings -/

/-- A call that has read the clock. -/
structure Claim where
  key : Key
  ttl : ℚ
  now : ℚ
  /-- The transaction has begun. -/
  began : Bool := false
  /-- The rows that the transaction has deleted. -/
  deleted : List Key := []
  /-- What the `INSERT` has done, once it is done: `cur.rowcount == 1`. -/
  inserted : Option Bool := none

namespace Claim

def cutoff (c : Claim) : ℚ := c.now - (c.ttl + c.ttl)

/-- The transaction has inserted the row. -/
def hasInserted (c : Claim) (key : Key) : Bool := c.inserted = some true && c.key = key

/-- The transaction has a lock on the row: it has deleted or inserted it. -/
def hasLocked (c : Claim) (key : Key) : Bool := c.deleted.contains key || c.hasInserted key

end Claim

/-- The clock, the committed rows with their times, the running calls, and the nonces for which a call
has returned `True`. -/
structure World where
  clock : ℚ
  rows : Table Key ℚ := ∅
  calls : Table ℕ Claim := ∅
  claimed : List Key := []

inductive Action
  /-- Time passes. -/
  | tick (elapsed : ℚ)
  /-- A worker starts a call and reads the clock. -/
  | read (w : ℕ) (key : Key) (ttl : ℚ)
  | begin (w : ℕ)
  /-- The `DELETE` reaches a row. -/
  | delete (w : ℕ) (key : Key)
  | insert (w : ℕ)
  /-- The call commits and returns. -/
  | commit (w : ℕ)
  /-- The call fails and is rolled back. -/
  | fail (w : ℕ)

section Exec

variable (b : Backend) (float : Parser)

/-- No other transaction has a lock on the row. -/
def World.isFree (s : World) (w : ℕ) (key : Key) : Bool :=
  s.calls.entries.all fun e => e.1 = w || !e.2.hasLocked key

/-- A write transaction can begin: on SQLite, only if there is no other. -/
def World.canBegin (s : World) : Bool :=
  match b with
  | .sqlite => s.calls.entries.all fun e => !e.2.began
  | .postgres => true

/-- The `DELETE` is complete: on SQLite, only if no old row is left. -/
def World.isPruned (s : World) (c : Claim) : Bool :=
  match b with
  | .sqlite => s.rows.entries.all fun e => c.cutoff ≤ e.2 || c.deleted.contains e.1
  | .postgres => true

/-- The row as the transaction sees it. -/
def World.sees (s : World) (c : Claim) (key : Key) : Option ℚ :=
  if c.deleted.contains key then none else s.rows.lookup key

/-- The rows after a commit. -/
def World.apply (s : World) (c : Claim) : Table Key ℚ :=
  let kept := c.deleted.foldl (fun rows key => rows.erase key) s.rows
  if c.inserted = some true then kept.insert c.key c.now else kept

/-- One step; none if it is not possible. -/
def exec (s : World) : Action → Except Unit World
  | .tick elapsed => do
    require (0 ≤ elapsed) ()
    return { s with clock := s.clock + elapsed }
  | .read w key ttl => do
    require (s.calls.lookup w).isNone ()
    require (isFresh float key.2 ttl s.clock) ()
    return { s with calls := s.calls.insert w { key, ttl, now := s.clock } }
  | .begin w => do
    let c ← call s w
    require (!c.began && s.canBegin b) ()
    return { s with calls := s.calls.insert w { c with began := true } }
  | .delete w key => do
    let c ← call s w
    require (c.began && c.inserted.isNone && s.isFree w key) ()
    require ((s.sees c key).any (· < c.cutoff)) ()
    return { s with calls := s.calls.insert w { c with deleted := key :: c.deleted } }
  | .insert w => do
    let c ← call s w
    require (c.began && c.inserted.isNone && s.isPruned b c && s.isFree w c.key) ()
    let inserted := some (s.sees c c.key).isNone
    return { s with calls := s.calls.insert w { c with inserted } }
  | .commit w => do
    let c ← call s w
    let result ← c.inserted.elim (.error ()) .ok
    return { s with
      rows := s.apply c
      calls := s.calls.erase w
      claimed := if result then c.key :: s.claimed else s.claimed }
  | .fail w => return { s with calls := s.calls.erase w }
where
  /-- The call that a worker is in. -/
  call (s : World) (w : ℕ) : Except Unit Claim := (s.calls.lookup w).elim (.error ()) .ok

/-- Any number of workers, in any interleaving, with a clock that does not go back. -/
def system : LTS World Action := .ofExec (exec b float)

/-- Every call has the lifetime `ttl`, and inserts its claim while the nonce is fresh. -/
def inTime (ttl : ℚ) (s : World) : Action → Bool
  | .read _ _ ttl' => ttl' = ttl
  | .insert w => (s.calls.lookup w).all fun c =>
    (timestamp? float c.key.2).all fun timestamp => s.clock ≤ timestamp + ttl
  | _ => true

end Exec

/-! ### The invariant -/

variable {b : Backend} {float : Parser} {ttl : ℚ}

/-- A claim was made while the nonce was fresh, and the row is there unless it has become old. -/
structure Kept (float : Parser) (ttl : ℚ) (s : World) (key : Key) : Prop where
  timestamp : ∃ timestamp, timestamp? float key.2 = some timestamp ∧
    (timestamp + ttl < s.clock ∨ ∃ at_, s.rows.lookup key = some at_ ∧ timestamp - ttl ≤ at_)

/-- What holds of a running call. -/
structure Running (float : Parser) (ttl : ℚ) (s : World) (w : ℕ) (c : Claim) : Prop where
  ttl_eq : c.ttl = ttl
  past : c.now ≤ s.clock
  fresh : isFresh float c.key.2 ttl c.now = true
  /-- What it has deleted was old. -/
  old : ∀ key ∈ c.deleted, ∃ at_, s.rows.lookup key = some at_ ∧ at_ < c.cutoff
  /-- A nonce that it has inserted is not claimed yet. -/
  new : c.inserted = some true → c.key ∉ s.claimed
  /-- Its locks exclude others. -/
  alone : ∀ w' c', w' ≠ w → s.calls.lookup w' = some c' → ∀ key,
    c.hasLocked key = true → c'.hasLocked key = false

/-- The invariant. -/
structure Inv (float : Parser) (ttl : ℚ) (s : World) : Prop where
  kept : ∀ key ∈ s.claimed, Kept float ttl s key
  running : ∀ w c, s.calls.lookup w = some c → Running float ttl s w c
  nodup : s.claimed.Nodup

theorem isFresh_iff {nonce : PyString} {ttl now : ℚ} : isFresh float nonce ttl now = true ↔
    ∃ timestamp, timestamp? float nonce = some timestamp ∧
      timestamp - ttl ≤ now ∧ now ≤ timestamp + ttl := by
  rw [isFresh, Option.any_eq_true]
  refine exists_congr fun timestamp => and_congr_right fun _ => ?_
  rw [decide_eq_true_eq, abs_le]
  constructor
  · rintro ⟨h, h'⟩
    constructor <;> linarith
  · rintro ⟨h, h'⟩
    constructor <;> linarith

theorem call_eq_ok {s : World} {w : ℕ} {c : Claim} :
    exec.call s w = .ok c ↔ s.calls.lookup w = some c := by
  rw [exec.call]
  cases s.calls.lookup w <;> simp

theorem isFree_iff {s : World} {w : ℕ} {key : Key} : s.isFree w key = true ↔
    ∀ w' c', w' ≠ w → s.calls.lookup w' = some c' → c'.hasLocked key = false := by
  rw [World.isFree, all_eq_true]
  constructor
  · intro h w' c' hne hc'
    have hmem : (⟨w', c'⟩ : Sigma fun _ : ℕ => Claim) ∈ s.calls.entries :=
      AList.mem_lookup_iff.mp hc'
    simpa [hne] using h _ hmem
  · rintro h ⟨w', c'⟩ hmem
    by_cases hne : w' = w
    · simp [hne]
    · simp [h w' c' hne (AList.mem_lookup_iff.mpr hmem)]

namespace Inv

variable {s s' : World} {w : ℕ} {c : Claim}

theorem initial (t : ℚ) : Inv float ttl ⟨t, ∅, ∅, []⟩ where
  kept _ h := by cases h
  running _ _ h := by cases h
  nodup := nodup_nil

/-- A step of `w` that leaves clock, rows and results as they are: only `w` has to be looked at. -/
theorem setCall (hi : Inv float ttl s) (hc : Running float ttl s w c)
    (hfree : ∀ key, c.hasLocked key = true → s.isFree w key = true) :
    Inv float ttl { s with calls := s.calls.insert w c } := by
  refine ⟨fun key hkey => ⟨(hi.kept key hkey).timestamp⟩, fun w' c' hc' => ?_, hi.nodup⟩
  rw [Table.lookup_insert'] at hc'
  split at hc'
  case isTrue heq =>
    subst heq
    cases hc'
    refine ⟨hc.ttl_eq, hc.past, hc.fresh, hc.old, hc.new, fun w'' c'' hne hc'' key hlock => ?_⟩
    rw [Table.lookup_insert', if_neg hne] at hc''
    exact isFree_iff.mp (hfree key hlock) w'' c'' hne hc''
  case isFalse hne =>
    have hr := hi.running w' c' hc'
    refine ⟨hr.ttl_eq, hr.past, hr.fresh, hr.old, hr.new, fun w'' c'' hne' hc'' key hlock => ?_⟩
    rw [Table.lookup_insert'] at hc''
    split at hc''
    case isTrue heq =>
      cases hc''
      -- a lock of `w` would have been free of `w'`
      by_contra hlocked
      rw [not_eq_false] at hlocked
      have hnone := isFree_iff.mp (hfree key hlocked) w' c' hne hc'
      rw [hlock] at hnone
      cases hnone
    case isFalse => exact hr.alone w'' c'' hne' hc'' key hlock

variable {key : Key}

theorem isFree_of_locked (hi : Inv float ttl s) (hc : s.calls.lookup w = some c)
    (hlock : c.hasLocked key = true) : s.isFree w key = true :=
  isFree_iff.mpr fun w' c' hne hc' => (hi.running w c hc).alone w' c' hne hc' key hlock

theorem tick (hi : Inv float ttl s) {elapsed : ℚ} (h : 0 ≤ elapsed) :
    Inv float ttl { s with clock := s.clock + elapsed } := by
  refine ⟨fun key hkey => ?_, fun w c hc => ?_, hi.nodup⟩
  · obtain ⟨timestamp, htime, hor⟩ := (hi.kept key hkey).timestamp
    refine ⟨timestamp, htime, hor.imp (fun hlt => ?_) id⟩
    show timestamp + ttl < s.clock + elapsed
    linarith
  · have hr := hi.running w c hc
    refine ⟨hr.ttl_eq, ?_, hr.fresh, hr.old, hr.new, hr.alone⟩
    show c.now ≤ s.clock + elapsed
    linarith [hr.past]

theorem read (hi : Inv float ttl s) (hfresh : isFresh float key.2 ttl s.clock = true) :
    Inv float ttl { s with calls := s.calls.insert w { key, ttl, now := s.clock } } := by
  have hnone : ∀ k, ({ key, ttl, now := s.clock } : Claim).hasLocked k = false := by
    intro k
    simp [Claim.hasLocked, Claim.hasInserted]
  refine hi.setCall ⟨rfl, le_rfl, hfresh, nofun, nofun, fun _ _ _ _ k hk => ?_⟩ fun k hk => ?_
  · rw [hnone k] at hk
    cases hk
  · rw [hnone k] at hk
    cases hk

theorem begin (hi : Inv float ttl s) (hc : s.calls.lookup w = some c) :
    Inv float ttl { s with calls := s.calls.insert w { c with began := true } } := by
  have hr := hi.running w c hc
  exact hi.setCall ⟨hr.ttl_eq, hr.past, hr.fresh, hr.old, hr.new, hr.alone⟩
    fun key hlock => hi.isFree_of_locked hc hlock

theorem delete (hi : Inv float ttl s) (hc : s.calls.lookup w = some c)
    (hfree : s.isFree w key = true) (hold : (s.sees c key).any (· < c.cutoff) = true) :
    Inv float ttl { s with calls := s.calls.insert w { c with deleted := key :: c.deleted } } := by
  have hr := hi.running w c hc
  have hlocks : ∀ k, ({ c with deleted := key :: c.deleted } : Claim).hasLocked k = true →
      s.isFree w k = true := by
    intro k hk
    by_cases heq : k = key
    · rw [heq]
      exact hfree
    · refine hi.isFree_of_locked hc ?_
      simpa [Claim.hasLocked, Claim.hasInserted, heq] using hk
  refine hi.setCall ⟨hr.ttl_eq, hr.past, hr.fresh, fun k hk => ?_, hr.new,
    fun w' c' hne hc' k hk => isFree_iff.mp (hlocks k hk) w' c' hne hc'⟩ hlocks
  rcases mem_cons.mp hk with rfl | hk
  · rw [Option.any_eq_true] at hold
    obtain ⟨at_, hat, hlt⟩ := hold
    rw [World.sees] at hat
    split at hat
    · cases hat
    · exact ⟨at_, hat, of_decide_eq_true hlt⟩
  · exact hr.old k hk

/-- A nonce that is still fresh has not lost its row, so it is not claimed if the `INSERT` finds
none. -/
theorem not_claimed (hi : Inv float ttl s) (hc : s.calls.lookup w = some c)
    (htime : ∀ timestamp, timestamp? float c.key.2 = some timestamp → s.clock ≤ timestamp + ttl)
    (hnone : (s.sees c c.key).isNone = true) : c.key ∉ s.claimed := by
  intro hclaimed
  have hr := hi.running w c hc
  obtain ⟨timestamp, hstamp, hor⟩ := (hi.kept c.key hclaimed).timestamp
  have hclock := htime timestamp hstamp
  rcases hor with hlate | ⟨at_, hat, hfresh⟩
  · linarith
  rw [World.sees] at hnone
  split at hnone
  case isTrue hdeleted =>
    -- the call would have deleted the row by a reading that is too late
    obtain ⟨at', hat', hold⟩ := hr.old c.key (contains_iff_mem.mp hdeleted)
    rw [hat] at hat'
    cases hat'
    have hpast := hr.past
    rw [Claim.cutoff, hr.ttl_eq] at hold
    linarith
  case isFalse =>
    rw [hat] at hnone
    cases hnone

theorem insert (hi : Inv float ttl s) (hc : s.calls.lookup w = some c)
    (hfree : s.isFree w c.key = true)
    (htime : ∀ timestamp, timestamp? float c.key.2 = some timestamp → s.clock ≤ timestamp + ttl) :
    Inv float ttl { s with
      calls := s.calls.insert w { c with inserted := some (s.sees c c.key).isNone } } := by
  have hr := hi.running w c hc
  have hlocks : ∀ k, ({ c with inserted := some (s.sees c c.key).isNone } : Claim).hasLocked k =
      true → s.isFree w k = true := by
    intro k hk
    by_cases heq : k = c.key
    · rw [heq]
      exact hfree
    · refine hi.isFree_of_locked hc ?_
      simpa [Claim.hasLocked, Claim.hasInserted, Ne.symm heq] using hk
  refine hi.setCall ⟨hr.ttl_eq, hr.past, hr.fresh, hr.old, fun hsome => ?_,
    fun w' c' hne hc' k hk => isFree_iff.mp (hlocks k hk) w' c' hne hc'⟩ hlocks
  have hnew : c.key ∉ s.claimed := hi.not_claimed hc htime (Option.some.inj hsome)
  exact hnew

/-- The call of `w` is over, and nothing else has changed. -/
theorem fail (hi : Inv float ttl s) : Inv float ttl { s with calls := s.calls.erase w } := by
  have hsub : ∀ w' c', (s.calls.erase w).lookup w' = some c' → s.calls.lookup w' = some c' := by
    intro w' c' hc'
    exact (Table.of_lookup_erase hc').2
  refine ⟨fun key hkey => ⟨(hi.kept key hkey).timestamp⟩, fun w' c' hc' => ?_, hi.nodup⟩
  have hr := hi.running w' c' (hsub w' c' hc')
  exact ⟨hr.ttl_eq, hr.past, hr.fresh, hr.old, hr.new,
    fun w'' c'' hne hc'' => hr.alone w'' c'' hne (hsub w'' c'' hc'')⟩

theorem lookup_apply (key : Key) : (s.apply c).lookup key =
    if c.hasInserted key then some c.now else s.sees c key := by
  have hkept : (c.deleted.foldl (fun rows k => rows.erase k) s.rows).lookup key = s.sees c key := by
    rw [Table.lookup_foldl_erase, World.sees]
    simp
  rw [World.apply, Claim.hasInserted]
  by_cases hinserted : c.inserted = some true
  · simp only [hinserted, if_true, Table.lookup_insert', hkept, eq_comm (a := key)]
    simp
  · simp [hinserted, hkept]

/-- Rows that another transaction has locked are as they were. -/
theorem lookup_apply_of_locked (hi : Inv float ttl s) (hc : s.calls.lookup w = some c) {w' : ℕ}
    {c' : Claim} (hne : w' ≠ w) (hc' : s.calls.lookup w' = some c')
    (hlock : c'.hasLocked key = true) : (s.apply c).lookup key = s.rows.lookup key := by
  have hfree := (hi.running w' c' hc').alone w c hne.symm hc key hlock
  rw [Claim.hasLocked, or_eq_false_iff] at hfree
  have hnot : key ∉ c.deleted := by
    intro hmem
    rw [contains_iff_mem.mpr hmem] at hfree
    cases hfree.1
  rw [lookup_apply, hfree.2, World.sees]
  simp [hnot]

theorem commit (hi : Inv float ttl s) (hc : s.calls.lookup w = some c) {result : Bool}
    (hresult : c.inserted = some result) :
    Inv float ttl { s with
      rows := s.apply c
      calls := s.calls.erase w
      claimed := if result then c.key :: s.claimed else s.claimed } := by
  have hr := hi.running w c hc
  -- a claim of before: its row is there, or it was deleted because it was old
  have hkept : ∀ key ∈ s.claimed, ∃ timestamp, timestamp? float key.2 = some timestamp ∧
      (timestamp + ttl < s.clock ∨
        ∃ at_, (s.apply c).lookup key = some at_ ∧ timestamp - ttl ≤ at_) := by
    intro key hkey
    obtain ⟨timestamp, hstamp, hor⟩ := (hi.kept key hkey).timestamp
    refine ⟨timestamp, hstamp, ?_⟩
    rcases hor with hlate | ⟨at_, hat, hfresh⟩
    · exact .inl hlate
    by_cases hdeleted : key ∈ c.deleted
    · obtain ⟨at', hat', hold⟩ := hr.old key hdeleted
      rw [hat] at hat'
      cases hat'
      rw [Claim.cutoff, hr.ttl_eq] at hold
      left
      linarith [hr.past]
    · right
      have hnew : c.hasInserted key = false := by
        by_contra hins
        rw [not_eq_false, Claim.hasInserted, and_eq_true, decide_eq_true_eq,
          decide_eq_true_eq] at hins
        exact hr.new hins.1 (hins.2 ▸ hkey)
      refine ⟨at_, ?_, hfresh⟩
      rw [lookup_apply, hnew, World.sees]
      simp [hdeleted, hat]
  have hsub : ∀ w' c', (s.calls.erase w).lookup w' = some c' →
      w' ≠ w ∧ s.calls.lookup w' = some c' := by
    intro w' c' hc'
    exact Table.of_lookup_erase hc'
  refine ⟨fun key hkey => ⟨?_⟩, fun w' c' hc' => ?_, ?_⟩
  · cases result with
    | false => exact hkept key hkey
    | true =>
      rcases mem_cons.mp hkey with rfl | hold
      · obtain ⟨timestamp, hstamp, hlow, -⟩ := isFresh_iff.mp hr.fresh
        refine ⟨timestamp, hstamp, .inr ⟨c.now, ?_, hlow⟩⟩
        show (s.apply c).lookup c.key = _
        rw [lookup_apply, Claim.hasInserted, hresult]
        simp
      · exact hkept key hold
  · obtain ⟨hne, hc''⟩ := hsub w' c' hc'
    have hr' := hi.running w' c' hc''
    refine ⟨hr'.ttl_eq, hr'.past, hr'.fresh, fun key hkey => ?_, fun hsome => ?_,
      fun w'' c'' hne' hc'' => hr'.alone w'' c'' hne' (hsub w'' c'' hc'').2⟩
    · show ∃ at_, (s.apply c).lookup key = some at_ ∧ _
      rw [hi.lookup_apply_of_locked hc hne hc'' (by simp [Claim.hasLocked, hkey])]
      exact hr'.old key hkey
    · have hnew := hr'.new hsome
      cases result with
      | false => exact hnew
      | true =>
        refine mt mem_cons.mp (not_or.mpr ⟨fun heq => ?_, hnew⟩)
        have hother := hr'.alone w c hne.symm hc c'.key
          (by simp [Claim.hasLocked, Claim.hasInserted, hsome])
        simp [Claim.hasLocked, Claim.hasInserted, hresult, heq] at hother
  · cases result with
    | false => exact hi.nodup
    | true => exact nodup_cons.mpr ⟨hr.new hresult, hi.nodup⟩

/-- One step keeps the invariant. -/
theorem exec (hi : Inv float ttl s) {a : Action} (htime : inTime float ttl s a = true)
    (h : Nonce.exec b float s a = .ok s') : Inv float ttl s' := by
  cases a with
  | tick elapsed =>
    obtain ⟨_, hle, h⟩ := bind_eq_ok.mp h
    cases h
    rw [require_eq_ok, decide_eq_true_eq] at hle
    exact hi.tick hle
  | read w key ttl' =>
    obtain ⟨-, -, h⟩ := bind_eq_ok.mp h
    obtain ⟨_, hfresh, h⟩ := bind_eq_ok.mp h
    cases h
    rw [require_eq_ok] at hfresh
    cases of_decide_eq_true htime
    exact hi.read hfresh
  | begin w =>
    obtain ⟨c, hc, h⟩ := bind_eq_ok.mp h
    obtain ⟨-, -, h⟩ := bind_eq_ok.mp h
    cases h
    exact hi.begin (call_eq_ok.mp hc)
  | delete w key =>
    obtain ⟨c, hc, h⟩ := bind_eq_ok.mp h
    obtain ⟨_, hfree, h⟩ := bind_eq_ok.mp h
    obtain ⟨_, hold, h⟩ := bind_eq_ok.mp h
    cases h
    rw [require_eq_ok] at hfree hold
    exact hi.delete (call_eq_ok.mp hc) (and_eq_true_iff.mp hfree).2 hold
  | insert w =>
    obtain ⟨c, hc, h⟩ := bind_eq_ok.mp h
    obtain ⟨_, hfree, h⟩ := bind_eq_ok.mp h
    cases h
    rw [require_eq_ok] at hfree
    rw [call_eq_ok] at hc
    refine hi.insert hc (and_eq_true_iff.mp hfree).2 fun timestamp hstamp => ?_
    rw [inTime, hc, Option.all_some, hstamp, Option.all_some] at htime
    exact of_decide_eq_true htime
  | commit w =>
    obtain ⟨c, hc, h⟩ := bind_eq_ok.mp h
    obtain ⟨result, hresult, h⟩ := bind_eq_ok.mp h
    cases h
    cases hinserted : c.inserted with
    | none => simp [hinserted] at hresult
    | some result' =>
      rw [hinserted] at hresult
      cases hresult
      exact hi.commit (call_eq_ok.mp hc) hinserted
  | fail w =>
    cases h
    exact hi.fail

end Inv

/-! ### Runs -/

/-- **No nonce is claimed twice** in a run, by any number of workers, in which all calls have the same
lifetime and every call inserts its claim while the nonce is fresh. -/
theorem nonce_claimed_once (b : Backend) (float : Parser) (ttl t : ℚ) (s : World)
    (h : ((system b float).restrict fun s a => inTime float ttl s a = true).Reachable ⟨t, ∅, ∅, []⟩ s) :
    s.claimed.Nodup := by
  have hi : Inv float ttl s := by
    refine h.invariant (I := Inv float ttl) (.initial t) ?_
    rintro s a s' hi ⟨htime, hstep⟩
    exact hi.exec htime hstep
  exact hi.nodup

/-! ### Sample runs -/

/-- Decimal digits only. -/
def sampleFloat : Parser := fun s =>
  if s.codes.all (fun c => 48 ≤ c && c ≤ 57) then
    some (some ((s.codes.foldl (fun n c => 10 * n + (c - 48)) 0 : ℕ) : ℚ))
  else none

def sampleKey : Key := (.ofString "agent", .ofString "1000:0123456789abcdef")

/-- A call that runs without a pause. -/
def sampleClaim (w : ℕ) (key : Key) (ttl : ℚ) : List Action :=
  [.read w key ttl, .begin w, .insert w, .commit w]

/-- Two calls for one nonce, the second one at the end of its lifetime. -/
def sampleInTime : List Action :=
  [sampleClaim 1 sampleKey 300, [.tick 300], sampleClaim 2 sampleKey 300].flatten

/-- The first call claims the nonce at the start of its lifetime. The second reads the clock at the
end, and waits. A later call for another nonce deletes the claim, and then the second goes on. -/
def samplePaused : List Action :=
  [sampleClaim 1 sampleKey 300, [.tick 600, .read 2 sampleKey 300, .tick 1],
    [.read 3 (.ofString "other", .ofString "1500:0123456789abcdef") 300, .begin 3,
      .delete 3 sampleKey, .insert 3, .commit 3],
    [.begin 2, .insert 2, .commit 2]].flatten

theorem sample_nonce_claimed_once :
    (LTS.drive (LTS.guarded (inTime sampleFloat 300) () (exec .postgres sampleFloat))
      ⟨700, ∅, ∅, []⟩ sampleInTime).claimed = [sampleKey] ∧
    (LTS.drive (LTS.guarded (inTime sampleFloat 300) () (exec .postgres sampleFloat))
      ⟨700, ∅, ∅, []⟩ sampleInTime).claimed.Nodup := by
  refine ⟨by decide +kernel, nonce_claimed_once .postgres sampleFloat 300 700 _ ?_⟩
  exact LTS.reachable_drive_guarded _ _ _ _ _

/-- Without the condition a nonce can be claimed twice, on both backends and with one lifetime. -/
theorem nonce_claimed_twice :
    (∃ s, (system .sqlite sampleFloat).Reachable ⟨700, ∅, ∅, []⟩ s ∧
      s.claimed.count sampleKey = 2) ∧
    ∃ s, (system .postgres sampleFloat).Reachable ⟨700, ∅, ∅, []⟩ s ∧
      s.claimed.count sampleKey = 2 := by
  refine ⟨⟨LTS.drive (exec .sqlite sampleFloat) ⟨700, ∅, ∅, []⟩ samplePaused, ?_, ?_⟩,
    ⟨LTS.drive (exec .postgres sampleFloat) ⟨700, ∅, ∅, []⟩ samplePaused, ?_, ?_⟩⟩
  · exact LTS.reachable_drive _ _ _
  · decide +kernel
  · exact LTS.reachable_drive _ _ _
  · decide +kernel

/-! ### The cache of one process -/

/-- `NonceCache`: the time of the last call, the nonces seen, and every accepted call. -/
structure Cache where
  clock : ℚ
  seen : Table PyString ℚ
  accepted : List (PyString × ℚ)

namespace Cache

/-- `check_and_store`, at a time. -/
def checkAndStore (ttl : ℚ) (s : Cache) (nonce : PyString) (now : ℚ) : Bool × Cache :=
  let seen := s.seen.keep fun t => now - t ≤ ttl
  if (seen.lookup nonce).isSome then (false, ⟨now, seen, s.accepted⟩)
  else (true, ⟨now, seen.insert nonce now, (nonce, now) :: s.accepted⟩)

/-- Calls at times that do not go back. -/
def system (ttl : ℚ) : LTS Cache (PyString × ℚ) where
  step s l s' := s.clock ≤ l.2 ∧ (s.checkAndStore ttl l.1 l.2).2 = s'

/-- What is seen was accepted, and in the window conversely. -/
structure Inv (ttl : ℚ) (s : Cache) : Prop where
  sound : ∀ n t, s.seen.lookup n = some t → (n, t) ∈ s.accepted
  complete : ∀ n t, (n, t) ∈ s.accepted →
    t ≤ s.clock ∧ (s.clock - t ≤ ttl → s.seen.lookup n = some t)

variable {ttl now : ℚ} {s : Cache}

theorem Inv.lookup_keep (h : s.Inv ttl) (hnow : s.clock ≤ now) (n : PyString) (t : ℚ) :
    (s.seen.keep fun t => now - t ≤ ttl).lookup n = some t ↔
      (n, t) ∈ s.accepted ∧ now - t ≤ ttl := by
  simp only [Table.lookup_keep, Option.filter_eq_some_iff, decide_eq_true_iff]
  constructor
  · exact And.imp_left (h.sound n t)
  · rintro ⟨hmem, ht⟩
    exact ⟨(h.complete n t hmem).2 (by linarith), ht⟩

theorem Inv.checkAndStore (h : s.Inv ttl) (hnow : s.clock ≤ now) (nonce : PyString) :
    (s.checkAndStore ttl nonce now).2.Inv ttl := by
  have hkeep := h.lookup_keep hnow
  have hold := h.complete
  simp only [Cache.checkAndStore]
  split
  case isTrue =>
    exact ⟨fun n t ht => ((hkeep n t).1 ht).1, fun n t ht =>
      ⟨(hold n t ht).1.trans hnow, fun hw => (hkeep n t).2 ⟨ht, hw⟩⟩⟩
  case isFalse hnew =>
    -- an older acceptance within the window would have been found
    constructor <;> grind [Table.lookup_insert']

end Cache

/-- **A nonce is accepted exactly when it was not accepted within the last `ttl` seconds**, if the
clock does not go back. -/
theorem nonce_window_exact (ttl start now : ℚ) (s : Cache) (nonce : PyString)
    (hs : (Cache.system ttl).Reachable ⟨start, ∅, []⟩ s) (hnow : s.clock ≤ now) :
    (s.checkAndStore ttl nonce now).1 = true ↔
      ∀ t, (nonce, t) ∈ s.accepted → ttl < now - t := by
  have hinv : s.Inv ttl := by
    refine hs.invariant (I := Cache.Inv ttl) ⟨by simp, by simp⟩ ?_
    rintro s l _ h ⟨hl, rfl⟩
    exact h.checkAndStore hl l.1
  have hkeep := hinv.lookup_keep hnow nonce
  simp only [Cache.checkAndStore]
  split <;> grind [Option.isSome_iff_exists]

theorem nonce_window_exact_sample :
    ((Cache.checkAndStore 5 ⟨0, ∅, []⟩ sampleKey.2 0).2.checkAndStore 5 sampleKey.2 6).1 := by
  refine (nonce_window_exact 5 0 6 _ _ (.of_step (l := (_, 0)) ⟨le_rfl, rfl⟩) ?_).2 ?_
  · decide +kernel
  · norm_num [Cache.checkAndStore, Table.lookup_keep]

end AgentBridge.Nonce
