import AgentBridge.Quota.Basic
import AgentBridge.Table.Filter

/-!
# Fleet stream leases

All replicas of a fleet share a table of stream leases. A replica acquires a lease before it opens a
stream, and renews it while the stream is open. A lease lasts until it expires, and no longer than
its deadline. Leases that are over stay in the table until the next `acquire` deletes them.

Every call runs under one lock (the write lock of SQLite, or an advisory lock of PostgreSQL that is
held until the commit) and reads the clock of the database under it. So a call is one step. The
directory may refuse a caller first; what it says is part of the call.

* `stream_leases_capped` : **the caps hold at every time**, and leases do not affect each other.
* `stream_capacity_returns` : **only live leases take room**, and none lives on by itself.
-/

namespace AgentBridge.Streams

open Authority List
open Except (bind_eq_ok)

/-! ### The policy -/

/-- `FleetStreamLimits`, with its defaults. Bounds on times are in units of 50 ms. -/
structure FleetStreamLimits where
  maxStreams : ℕ := 64
  maxPerTenant : ℕ := 16
  maxPerOwner : ℕ := 4
  leaseSeconds : ℚ := ((5 : ℕ) : ℚ)
  maxSeconds : ℚ := ((60 : ℕ) : ℚ)
  deriving DecidableEq

/-- `__post_init__`. -/
def FleetStreamLimits.check (l : FleetStreamLimits) : Except Fault Unit := do
  require ([l.maxStreams, l.maxPerTenant, l.maxPerOwner].all fun n => 1 ≤ n && n ≤ 10000)
    (.valueError "bounded fleet stream capacity required")
  require ([(l.leaseSeconds, 30), (l.maxSeconds, 3600)].all fun (value, maximum) =>
      ((1 : ℕ) : ℚ) ≤ value * ((20 : ℕ) : ℚ) && value ≤ ((maximum : ℕ) : ℚ))
    (.valueError "bounded fleet stream timing required")
  require (l.leaseSeconds ≤ l.maxSeconds) (.valueError "lease must fit stream lifetime")

/-! ### Leases -/

/-- `StreamLease`. -/
structure StreamLease where
  identity : String
  tenant : Option String
  owner : String
  scope : String
  deriving DecidableEq

/-- A row of `stream_leases_v1`, but for its key. -/
structure Row where
  tenant : Option String
  owner : String
  scope : String
  expires : ℚ
  deadline : ℚ
  deriving DecidableEq

/-- The lease is neither expired nor past its deadline. -/
def Row.isLive (now : ℚ) (row : Row) : Bool := now < row.expires && now < row.deadline

def Row.isOf (lease : StreamLease) (row : Row) : Bool :=
  row.tenant = lease.tenant && row.owner = lease.owner && row.scope = lease.scope

/-- The clock of the database, the policy and the leases. `acquired` says when each lease was
acquired. -/
structure World where
  clock : ℚ
  policy : FleetStreamLimits
  rows : Table String Row := ∅
  acquired : Table String ℚ := ∅

namespace World

/-- The number of rows that satisfy `q`. -/
def count (s : World) (q : Row → Bool) : ℕ := s.rows.entries.countP fun e => q e.2

/-- The number of leases that are live, among those that satisfy `q`. -/
def live (s : World) (q : Row → Bool) : ℕ := s.count fun row => row.isLive s.clock && q row

/-- The lease is in the table and live. -/
def isLive (s : World) (identity : String) : Bool := (s.rows.lookup identity).any (·.isLive s.clock)

end World

/-! ### Calls -/

section Calls

variable (digest : OwnerMaterial → String) (principalOwner : Principal → Except Fault String)

/-- `_check`. -/
def checkPolicy (s : World) (limits : FleetStreamLimits) : Except Fault Unit :=
  require (s.policy = limits) (.valueError "stream policy missing, changed or unsupported")

/-- `DurableStreamLeases.acquire` of a replica with these limits. `identity` is the token that the
generator returns. -/
def acquire (s : World) (limits : FleetStreamLimits) (p : Principal) (identity : String) :
    Except Fault (World × StreamLease) := do
  let owner ← quotaOwner digest p
  let scope ← principalOwner p
  checkPolicy s limits
  let now := s.clock
  let s := { s with rows := s.rows.keep (·.isLive now) }
  require (!(limits.maxStreams ≤ s.count (fun _ => true) ||
      limits.maxPerTenant ≤ s.count (·.tenant = p.tenantId) ||
      limits.maxPerOwner ≤ s.count (·.owner = owner)))
    (.valueError "shared stream capacity reached")
  let row : Row := ⟨p.tenantId, owner, scope, now + limits.leaseSeconds, now + limits.maxSeconds⟩
  let rows ← s.rows.insertNew identity row
    (.integrityError "UNIQUE constraint failed: stream_leases_v1.identity")
  return ({ s with rows, acquired := s.acquired.insert identity now },
    ⟨identity, p.tenantId, owner, scope⟩)

/-- `DurableStreamLeases.renew`. -/
def renew (s : World) (limits : FleetStreamLimits) (p : Principal) (lease : StreamLease) :
    Except Fault World := do
  checkPolicy s limits
  require (lease.tenant = p.tenantId) (.authorityDenied "stream allocation scope unavailable")
  let owner ← quotaOwner digest p
  require (lease.owner = owner) (.authorityDenied "stream allocation scope unavailable")
  let scope ← principalOwner p
  require (lease.scope = scope) (.authorityDenied "stream allocation scope unavailable")
  let now := s.clock
  match (s.rows.lookup lease.identity).filter fun row => row.isOf lease && row.isLive now with
  | none => .error (.valueError "stream allocation expired or released")
  | some row =>
    let expires := min (now + limits.leaseSeconds) row.deadline
    return { s with rows := s.rows.insert lease.identity { row with expires } }

/-- `DurableStreamLeases.release`. -/
def release (s : World) (lease : StreamLease) : World :=
  if (s.rows.lookup lease.identity).any (·.isOf lease) then
    { s with rows := s.rows.erase lease.identity }
  else s

/-- What happens next. A call of a principal carries what `directory.guard` says. -/
inductive Action
  | tick (elapsed : ℚ)
  | acquire (guard : Except Fault Unit) (limits : FleetStreamLimits) (p : Principal)
      (identity : String)
  | renew (guard : Except Fault Unit) (limits : FleetStreamLimits) (p : Principal)
      (lease : StreamLease)
  | release (lease : StreamLease)

/-- One step. The generator of tokens does not repeat itself. -/
def exec (s : World) : Action → Except Fault World
  | .tick elapsed => do
    require (0 ≤ elapsed) (.valueError "the clock does not go back")
    return { s with clock := s.clock + elapsed }
  | .acquire guard limits p identity => do
    guard
    require (s.acquired.lookup identity).isNone (.valueError "a token is not repeated")
    let (s, _) ← acquire digest principalOwner s limits p identity
    return s
  | .renew guard limits p lease => do
    guard
    renew digest principalOwner s limits p lease
  | .release lease => return release s lease

/-- Any number of replicas and principals. -/
def system : LTS World Action := .ofExec (exec digest principalOwner)

end Calls

variable {digest : OwnerMaterial → String} {principalOwner : Principal → Except Fault String}
  {s s' : World} {limits : FleetStreamLimits} {p : Principal} {lease : StreamLease}
  {identity : String}

/-! ### What a call does -/

theorem acquire_ok (h : acquire digest principalOwner s limits p identity = .ok (s', lease)) :
    ∃ owner scope, quotaOwner digest p = .ok owner ∧ s.policy = limits ∧
      let kept := s.rows.keep (·.isLive s.clock)
      kept.entries.countP (fun _ => true) < limits.maxStreams ∧
      kept.entries.countP (fun e => decide (e.2.tenant = p.tenantId)) < limits.maxPerTenant ∧
      kept.entries.countP (fun e => decide (e.2.owner = owner)) < limits.maxPerOwner ∧
      kept.lookup identity = none ∧
      s' = { s with
        rows := kept.insert identity ⟨p.tenantId, owner, scope, s.clock + limits.leaseSeconds,
          s.clock + limits.maxSeconds⟩
        acquired := s.acquired.insert identity s.clock } := by
  obtain ⟨owner, howner, h⟩ := bind_eq_ok.mp h
  obtain ⟨scope, -, h⟩ := bind_eq_ok.mp h
  obtain ⟨_, hpolicy, h⟩ := bind_eq_ok.mp h
  obtain ⟨_, hcaps, h⟩ := bind_eq_ok.mp h
  obtain ⟨rows, hrows, h⟩ := bind_eq_ok.mp h
  cases h
  rw [checkPolicy, require_eq_ok, decide_eq_true_eq] at hpolicy
  rw [require_eq_ok, Bool.not_eq_true', Bool.or_eq_false_iff, Bool.or_eq_false_iff] at hcaps
  rw [Table.insertNew_eq_ok] at hrows
  obtain ⟨⟨htotal, htenant⟩, howned⟩ := hcaps
  refine ⟨owner, scope, howner, hpolicy, ?_, ?_, ?_, hrows.1, ?_⟩
  · exact not_le.mp (of_decide_eq_false htotal)
  · exact not_le.mp (of_decide_eq_false htenant)
  · exact not_le.mp (of_decide_eq_false howned)
  · rw [← hrows.2]

theorem renew_ok (h : renew digest principalOwner s limits p lease = .ok s') :
    ∃ row, s.rows.lookup lease.identity = some row ∧ row.isLive s.clock = true ∧
      s.policy = limits ∧
      s' = { s with
        rows := s.rows.insert lease.identity
          { row with expires := min (s.clock + limits.leaseSeconds) row.deadline } } := by
  obtain ⟨_, hpolicy, h⟩ := bind_eq_ok.mp h
  obtain ⟨-, -, h⟩ := bind_eq_ok.mp h
  obtain ⟨owner, -, h⟩ := bind_eq_ok.mp h
  obtain ⟨-, -, h⟩ := bind_eq_ok.mp h
  obtain ⟨scope, -, h⟩ := bind_eq_ok.mp h
  obtain ⟨-, -, h⟩ := bind_eq_ok.mp h
  rw [checkPolicy, require_eq_ok, decide_eq_true_eq] at hpolicy
  dsimp only at h
  split at h
  case h_1 => cases h
  case h_2 row hrow =>
    cases h
    rw [Option.filter_eq_some_iff] at hrow
    exact ⟨row, hrow.1, (Bool.and_eq_true_iff.mp hrow.2).2, hpolicy, rfl⟩

/-- Releasing a lease changes no other lease. -/
theorem release_lookup_ne (hne : identity ≠ lease.identity) :
    (release s lease).rows.lookup identity = s.rows.lookup identity := by
  unfold release
  split
  · exact AList.lookup_erase_ne hne
  · rfl

/-! ### The caps -/

/-- The rows that satisfy `q` are at most `cap`. -/
def Capped (rows : Table String Row) (q : Row → Bool) (cap : ℕ) : Prop :=
  rows.entries.countP (fun e => q e.2) ≤ cap

namespace Capped

variable {rows : Table String Row} {q : Row → Bool} {cap : ℕ}

theorem keep (h : Capped rows q cap) (now : ℚ) : Capped (rows.keep (·.isLive now)) q cap :=
  List.filter_sublist.countP_le.trans h

theorem erase (h : Capped rows q cap) : Capped (rows.erase identity) q cap :=
  (kerase_sublist identity rows.entries).countP_le.trans h

theorem insert (h : Capped rows q cap) {row : Row} (hnew : rows.lookup identity = none)
    (hroom : q row = true → rows.entries.countP (fun e => q e.2) < cap) :
    Capped (rows.insert identity row) q cap := by
  unfold Capped
  rw [Table.entries_insert_new row hnew, countP_cons]
  by_cases hq : q row = true
  · rw [if_pos hq]
    exact hroom hq
  · rw [if_neg hq]
    exact h

theorem update (h : Capped rows q cap) {old row : Row} (hold : rows.lookup identity = some old)
    (hq : q row = q old) : Capped (rows.insert identity row) q cap := by
  unfold Capped at h ⊢
  rw [Table.countP_entries] at h ⊢
  dsimp only at h ⊢
  have hsum := Table.sum_insert_some (fun _ (v : Row) => if q v then 1 else 0) row hold
  rw [hq] at hsum
  omega

end Capped

/-- The invariant: even with the leases that are over, the rows respect the caps, and every row has
the deadline of its acquisition. -/
structure Inv (policy : FleetStreamLimits) (s : World) : Prop where
  policy_eq : s.policy = policy
  total : Capped s.rows (fun _ => true) policy.maxStreams
  tenant : ∀ tenant, Capped s.rows (fun row => decide (row.tenant = tenant)) policy.maxPerTenant
  owner : ∀ owner, Capped s.rows (fun row => decide (row.owner = owner)) policy.maxPerOwner
  deadline : ∀ identity row, s.rows.lookup identity = some row →
    ∃ t, s.acquired.lookup identity = some t ∧ row.deadline = t + policy.maxSeconds

namespace Inv

variable {policy : FleetStreamLimits}

theorem initial (t : ℚ) : Inv policy ⟨t, policy, ∅, ∅⟩ where
  policy_eq := rfl
  total := Nat.zero_le _
  tenant _ := Nat.zero_le _
  owner _ := Nat.zero_le _
  deadline _ _ h := by cases h

theorem acquire (hi : Inv policy s)
    (h : Streams.acquire digest principalOwner s limits p identity = .ok (s', lease)) :
    Inv policy s' := by
  obtain ⟨owner, scope, -, hlimits, htotal, htenant, howner, hnew, rfl⟩ := acquire_ok h
  cases hlimits.symm.trans hi.policy_eq
  refine ⟨hi.policy_eq, ?_, fun tenant => ?_, fun owner' => ?_, fun identity' row hrow => ?_⟩
  · exact (hi.total.keep _).insert hnew fun _ => htotal
  · refine ((hi.tenant tenant).keep _).insert hnew fun heq => ?_
    cases of_decide_eq_true heq
    exact htenant
  · refine ((hi.owner owner').keep _).insert hnew fun heq => ?_
    cases of_decide_eq_true heq
    exact howner
  · simp only [Table.lookup_insert'] at hrow ⊢
    by_cases hid : identity' = identity
    · rw [if_pos hid] at hrow ⊢
      cases hrow
      exact ⟨s.clock, rfl, rfl⟩
    · rw [if_neg hid, Table.lookup_keep, Option.filter_eq_some_iff] at hrow
      rw [if_neg hid]
      exact hi.deadline identity' row hrow.1

theorem renew (hi : Inv policy s)
    (h : Streams.renew digest principalOwner s limits p lease = .ok s') : Inv policy s' := by
  obtain ⟨row, hrow, -, -, rfl⟩ := renew_ok h
  refine ⟨hi.policy_eq, hi.total.update hrow rfl, fun tenant => (hi.tenant tenant).update hrow rfl,
    fun owner => (hi.owner owner).update hrow rfl, fun identity row' hrow' => ?_⟩
  simp only [Table.lookup_insert'] at hrow'
  split at hrow'
  case isTrue heq =>
    subst heq
    cases hrow'
    exact hi.deadline lease.identity row hrow
  case isFalse => exact hi.deadline identity row' hrow'

theorem release (hi : Inv policy s) : Inv policy (Streams.release s lease) := by
  unfold Streams.release
  split
  case isFalse => exact hi
  case isTrue =>
    refine ⟨hi.policy_eq, hi.total.erase, fun tenant => (hi.tenant tenant).erase,
      fun owner => (hi.owner owner).erase, fun identity row hrow => ?_⟩
    exact hi.deadline identity row (Table.of_lookup_erase hrow).2

/-- One step keeps the caps. -/
theorem exec (hi : Inv policy s) {a : Action}
    (h : Streams.exec digest principalOwner s a = .ok s') : Inv policy s' := by
  cases a with
  | tick elapsed =>
    obtain ⟨-, -, h⟩ := bind_eq_ok.mp h
    cases h
    exact ⟨hi.policy_eq, hi.total, hi.tenant, hi.owner, hi.deadline⟩
  | acquire guard limits p identity =>
    obtain ⟨-, -, h⟩ := bind_eq_ok.mp h
    obtain ⟨-, -, h⟩ := bind_eq_ok.mp h
    obtain ⟨⟨s₁, lease⟩, hacquire, h⟩ := bind_eq_ok.mp h
    cases h
    exact hi.acquire hacquire
  | renew guard limits p lease =>
    obtain ⟨-, -, h⟩ := bind_eq_ok.mp h
    exact hi.renew h
  | release lease =>
    cases h
    exact hi.release

end Inv

/-! ### A lease that is over -/

/-- The lease was acquired, and it is not live. -/
structure Dead (identity : String) (s : World) : Prop where
  acquired : (s.acquired.lookup identity).isSome = true
  dead : ∀ row, s.rows.lookup identity = some row → row.expires ≤ s.clock ∨ row.deadline ≤ s.clock

theorem Row.not_isLive_iff {now : ℚ} {row : Row} :
    ¬row.isLive now = true ↔ row.expires ≤ now ∨ row.deadline ≤ now := by
  simp only [isLive, Bool.and_eq_true, decide_eq_true_eq, not_and_or, not_lt]

theorem dead_iff : Dead identity s ↔
    (s.acquired.lookup identity).isSome = true ∧ s.isLive identity = false := by
  have hlive : s.isLive identity = false ↔ ∀ row, s.rows.lookup identity = some row →
      row.expires ≤ s.clock ∨ row.deadline ≤ s.clock := by
    rw [World.isLive]
    cases hrow : s.rows.lookup identity with
    | none => simp
    | some row => simp [← Row.not_isLive_iff]
  exact ⟨fun h => ⟨h.acquired, hlive.mpr h.dead⟩, fun h => ⟨h.1, hlive.mp h.2⟩⟩

/-- A step does not revive a lease: only live ones are renewed, and tokens are not repeated. -/
theorem Dead.exec (hd : Dead identity s) {a : Action}
    (h : Streams.exec digest principalOwner s a = .ok s') : Dead identity s' := by
  cases a with
  | tick elapsed =>
    obtain ⟨_, helapsed, h⟩ := bind_eq_ok.mp h
    cases h
    rw [require_eq_ok, decide_eq_true_eq] at helapsed
    refine ⟨hd.acquired, fun row hrow => ?_⟩
    have hle : s.clock ≤ s.clock + elapsed := le_add_of_nonneg_right helapsed
    exact (hd.dead row hrow).imp (·.trans hle) (·.trans hle)
  | acquire guard limits p identity' =>
    obtain ⟨-, -, h⟩ := bind_eq_ok.mp h
    obtain ⟨_, hnew, h⟩ := bind_eq_ok.mp h
    obtain ⟨⟨s₁, lease⟩, hacquire, h⟩ := bind_eq_ok.mp h
    cases h
    obtain ⟨owner, scope, -, -, -, -, -, -, rfl⟩ := acquire_ok hacquire
    rw [require_eq_ok] at hnew
    have hne : identity ≠ identity' := by
      rintro rfl
      have hsome := hd.acquired
      rw [Option.isNone_iff_eq_none.mp hnew] at hsome
      cases hsome
    refine ⟨?_, fun row hrow => ?_⟩
    · simp only [Table.lookup_insert', if_neg hne]
      exact hd.acquired
    · simp only [Table.lookup_insert', if_neg hne, Table.lookup_keep,
        Option.filter_eq_some_iff] at hrow
      exact hd.dead row hrow.1
  | renew guard limits p lease =>
    obtain ⟨-, -, h⟩ := bind_eq_ok.mp h
    obtain ⟨row, hrow, hlive, -, rfl⟩ := renew_ok h
    refine ⟨hd.acquired, fun row' hrow' => ?_⟩
    by_cases hid : identity = lease.identity
    · subst hid
      exact absurd hlive (Row.not_isLive_iff.mpr (hd.dead row hrow))
    · simp only [Table.lookup_insert', if_neg hid] at hrow'
      exact hd.dead row' hrow'
  | release lease =>
    cases h
    unfold release
    split
    case isFalse => exact hd
    case isTrue =>
      refine ⟨hd.acquired, fun row hrow => ?_⟩
      exact hd.dead row (Table.of_lookup_erase hrow).2

/-- A lease that is over is over for good. -/
theorem dead_stays_dead (hd : Dead identity s)
    (h : (system digest principalOwner).Reachable s s') : Dead identity s' :=
  h.invariant (I := Dead identity) hd fun _ _ _ hd hstep => hd.exec hstep

/-! ### All runs -/

theorem Capped.live_le {q : Row → Bool} {cap : ℕ}
    (h : Capped s.rows q cap) : s.live q ≤ cap := by
  refine (countP_mono_left fun e _ hlive => ?_).trans h
  exact (Bool.and_eq_true_iff.mp hlive).2

/-- **The caps hold at every time.** For every interleaving of the calls of any replicas and
principals, with a clock that does not go back: the live leases are at most `maxStreams`, for each
tenant at most `maxPerTenant` and for each owner at most `maxPerOwner`; a lease that is over, or was
released, is never live again; none lives longer than `maxSeconds`; and renewing or releasing a lease
changes no other. -/
theorem stream_leases_capped (digest : OwnerMaterial → String)
    (principalOwner : Principal → Except Fault String) (policy : FleetStreamLimits) (t : ℚ)
    (s : World) (h : (system digest principalOwner).Reachable ⟨t, policy, ∅, ∅⟩ s) :
    s.live (fun _ => true) ≤ policy.maxStreams ∧
    (∀ tenant, s.live (fun row => decide (row.tenant = tenant)) ≤ policy.maxPerTenant) ∧
    (∀ owner, s.live (fun row => decide (row.owner = owner)) ≤ policy.maxPerOwner) ∧
    (∀ identity acquired, s.acquired.lookup identity = some acquired →
      (s.isLive identity = true → s.clock < acquired + policy.maxSeconds) ∧
      (s.isLive identity = false → ∀ s', (system digest principalOwner).Reachable s s' →
        s'.isLive identity = false)) ∧
    (∀ limits p lease s', renew digest principalOwner s limits p lease = .ok s' →
      ∀ identity, identity ≠ lease.identity →
        s'.rows.lookup identity = s.rows.lookup identity) ∧
    ∀ lease,
      ((s.rows.lookup lease.identity).any (·.isOf lease) = true →
        (release s lease).isLive lease.identity = false) ∧
      ∀ identity, identity ≠ lease.identity →
        (release s lease).rows.lookup identity = s.rows.lookup identity := by
  have hi : Inv policy s := h.invariant (I := Inv policy) (.initial t) fun _ _ _ hi hstep =>
    hi.exec hstep
  refine ⟨hi.total.live_le, fun tenant => (hi.tenant tenant).live_le,
    fun owner => (hi.owner owner).live_le, fun identity acquired hacquired => ⟨?_, ?_⟩, ?_, ?_⟩
  · intro hlive
    rw [World.isLive, Option.any_eq_true] at hlive
    obtain ⟨row, hrow, hlive⟩ := hlive
    obtain ⟨t', ht', hdeadline⟩ := hi.deadline identity row hrow
    rw [hacquired] at ht'
    cases ht'
    rw [← hdeadline]
    exact of_decide_eq_true (Bool.and_eq_true_iff.mp hlive).2
  · intro hdead s' hreach
    have hd : Dead identity s := dead_iff.mpr ⟨by rw [hacquired]; rfl, hdead⟩
    exact (dead_iff.mp (dead_stays_dead hd hreach)).2
  · intro limits p lease s' hrenew identity hne
    obtain ⟨row, -, -, -, rfl⟩ := renew_ok hrenew
    exact AList.lookup_insert_ne hne
  · intro lease
    refine ⟨fun hof => ?_, fun identity hne => release_lookup_ne hne⟩
    rw [release, if_pos hof, World.isLive]
    simp

/-! ### Capacity comes back -/

section Available

variable {policy : FleetStreamLimits} {t : ℚ}

/-- No row expires later than one lease from now: the induction is on the run. -/
theorem expires_le (h : (system digest principalOwner).Reachable ⟨t, policy, ∅, ∅⟩ s) :
    Inv policy s ∧ ∀ identity row, s.rows.lookup identity = some row →
      row.expires ≤ s.clock + policy.leaseSeconds := by
  refine h.invariant (I := fun s => Inv policy s ∧ ∀ identity row,
    s.rows.lookup identity = some row → row.expires ≤ s.clock + policy.leaseSeconds)
    ⟨.initial t, nofun⟩ fun s a s' ⟨hi, hle⟩ hstep => ⟨hi.exec hstep, ?_⟩
  intro identity' row hrow
  cases a with
  | tick elapsed =>
    obtain ⟨_, helapsed, hstep⟩ := bind_eq_ok.mp hstep
    cases hstep
    rw [require_eq_ok, decide_eq_true_eq] at helapsed
    exact (hle identity' row hrow).trans
      (add_le_add_left (le_add_of_nonneg_right helapsed) _)
  | acquire guard limits p identity =>
    obtain ⟨-, -, hstep⟩ := bind_eq_ok.mp hstep
    obtain ⟨-, -, hstep⟩ := bind_eq_ok.mp hstep
    obtain ⟨⟨s₁, lease⟩, hacquire, hstep⟩ := bind_eq_ok.mp hstep
    cases hstep
    obtain ⟨owner, scope, -, rfl, -, -, -, -, rfl⟩ := acquire_ok hacquire
    simp only [Table.lookup_insert', Table.lookup_keep] at hrow
    split at hrow
    · cases hrow
      rw [hi.policy_eq]
    · exact hle identity' row (Option.filter_eq_some_iff.mp hrow).1
  | renew guard limits p lease =>
    obtain ⟨-, -, hstep⟩ := bind_eq_ok.mp hstep
    obtain ⟨row₀, -, -, rfl, rfl⟩ := renew_ok hstep
    rcases Table.of_lookup_insert hrow with ⟨rfl, rfl⟩ | ⟨-, hrow⟩
    · rw [← hi.policy_eq]
      exact min_le_left _ _
    · exact hle identity' row hrow
  | release lease =>
    cases hstep
    revert hrow
    unfold release
    split
    · simp only [Table.lookup_erase']
      split
      · exact nofun
      · exact hle identity' row
    · exact hle identity' row

theorem countP_keep_eq_live (q : Row → Bool) :
    (s.rows.keep (·.isLive s.clock)).entries.countP (fun e => q e.2) = s.live q := by
  rw [World.live, World.count, Table.keep, countP_filter]
  simp only [Bool.and_comm]

/-- **Capacity comes back.** In every reachable state a caller whom the directory accepts gets a
lease exactly if the leases that are live leave room under each of the three caps; and once one
lease time has passed without a renewal, no lease is live any more, whatever became of the
replicas. -/
theorem stream_capacity_returns
    (h : (system digest principalOwner).Reachable ⟨t, policy, ∅, ∅⟩ s) :
    (∀ p owner scope identity, quotaOwner digest p = .ok owner → principalOwner p = .ok scope →
      s.acquired.lookup identity = none →
      ((acquire digest principalOwner s policy p identity).isOk = true ↔
        s.live (fun _ => true) < policy.maxStreams ∧
        s.live (fun row => decide (row.tenant = p.tenantId)) < policy.maxPerTenant ∧
        s.live (fun row => decide (row.owner = owner)) < policy.maxPerOwner)) ∧
    ∀ elapsed, policy.leaseSeconds ≤ elapsed → ∀ q,
      { s with clock := s.clock + elapsed }.live q = 0 := by
  obtain ⟨hi, hexpires⟩ := expires_le h
  refine ⟨fun p owner scope identity howner hscope hnew => ?_, fun elapsed helapsed q => ?_⟩
  · have hfree : (s.rows.keep (·.isLive s.clock)).lookup identity = none := by
      rw [Table.lookup_keep, Option.filter_eq_none_iff]
      intro row hrow
      obtain ⟨_, hacquired, -⟩ := hi.deadline identity row hrow
      rw [hnew] at hacquired
      cases hacquired
    constructor
    · intro hok
      cases hresult : acquire digest principalOwner s policy p identity with
      | error e =>
        rw [hresult] at hok
        cases hok
      | ok r =>
        obtain ⟨_, _, howner', -, htotal, htenant, howned, -⟩ := acquire_ok hresult
        cases howner.symm.trans howner'
        exact ⟨(countP_keep_eq_live _).symm.trans_lt htotal,
          (countP_keep_eq_live _).symm.trans_lt htenant,
          (countP_keep_eq_live _).symm.trans_lt howned⟩
    · rintro ⟨htotal, htenant, howned⟩
      rw [← countP_keep_eq_live] at htotal htenant howned
      obtain ⟨r, hresult⟩ : ∃ r, acquire digest principalOwner s policy p identity = .ok r := by
        simp only [acquire, bind_eq_ok, checkPolicy, require_eq_ok, Table.insertNew_eq_ok]
        refine ⟨_, owner, howner, scope, hscope, (), decide_eq_true hi.policy_eq, (), ?_, _,
          ⟨hfree, rfl⟩, rfl⟩
        rw [Bool.not_eq_true', Bool.or_eq_false_iff, Bool.or_eq_false_iff]
        exact ⟨⟨decide_eq_false (not_le.mpr htotal), decide_eq_false (not_le.mpr htenant)⟩,
          decide_eq_false (not_le.mpr howned)⟩
      rw [hresult]
      rfl
  · refine countP_eq_zero.mpr fun e he hlive => ?_
    have hrow : s.rows.lookup e.1 = some e.2 := AList.mem_lookup_iff.mpr he
    have hlt : s.clock + elapsed < e.2.expires :=
      of_decide_eq_true (Bool.and_eq_true_iff.mp (Bool.and_eq_true_iff.mp hlive).1).1
    exact absurd (hlt.trans_le (hexpires e.1 e.2 hrow))
      (not_lt.mpr (add_le_add_right helapsed s.clock))

end Available

/-! ### A run -/

def sampleDigest (m : OwnerMaterial) : String := m.subject

def samplePrincipalOwner (p : Principal) : Except Fault String := .ok p.subject

def samplePrincipal : Principal where
  tenantId := some "acme"
  subject := "machine-1"
  issuer := "operator"
  kind := .machine
  revision := 1

/-- A fleet with room for one stream. -/
def samplePolicy : FleetStreamLimits := { maxStreams := 1 }

/-- The second lease has to wait until the first one, which is renewed once, is over. -/
def sampleActions : List Action :=
  [.acquire (.ok ()) samplePolicy samplePrincipal "a", .tick 4,
    .acquire (.ok ()) samplePolicy samplePrincipal "b",
    .renew (.ok ()) samplePolicy samplePrincipal ⟨"a", some "acme", "machine-1", "machine-1"⟩,
    .tick 5, .acquire (.ok ()) samplePolicy samplePrincipal "c"]

def sampleRun : World :=
  LTS.drive (exec sampleDigest samplePrincipalOwner) ⟨0, samplePolicy, ∅, ∅⟩ sampleActions

theorem sample_stream_leases_capped :
    samplePolicy.check.isOk = true ∧ sampleRun.isLive "a" = false ∧ sampleRun.isLive "c" = true ∧
    sampleRun.live (fun _ => true) ≤ 1 ∧ sampleRun.clock < 9 + samplePolicy.maxSeconds := by
  have hcapped := stream_leases_capped sampleDigest samplePrincipalOwner samplePolicy 0 sampleRun
    (LTS.reachable_drive _ _ _)
  have hlive : sampleRun.isLive "c" = true := by decide +kernel
  exact ⟨by decide +kernel, by decide +kernel, hlive, hcapped.1,
    (hcapped.2.2.2.1 "c" 9 (by decide +kernel)).1 hlive⟩

/-- At the end of the run one lease is live; when it is not renewed, it ends. -/
theorem stream_capacity_returns_sample : sampleRun.live (fun _ => true) = 1 ∧
    { sampleRun with clock := sampleRun.clock + 5 }.live (fun _ => true) = 0 :=
  ⟨by decide +kernel,
    (stream_capacity_returns (t := 0) (LTS.reachable_drive _ _ sampleActions)).2 5 le_rfl _⟩

end AgentBridge.Streams
