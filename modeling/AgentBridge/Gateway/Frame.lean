import AgentBridge.Gateway.Linked

/-!
# What the gateway leaves alone

The operation of a queued task lives in the same tables as the operations of the synchronous
calls. A call can settle only the operation whose token it holds, a claimed operation is never
claimed again, and the generic reconciliation refuses a linked one. So every step of the gateway
leaves such an operation as it is.

* `leavesAlone_of_exec` : **a linked operation without a call in flight is left alone**.
-/

namespace AgentBridge.Gateway

open Except (bind_eq_ok pure_eq_ok)

/-- No call in flight holds the token of the operation. -/
def World.Idle (w : World) (k : OpKey) : Prop :=
  ∀ id x token, w.workers.lookup id = some x → x.phase.token = some token →
    x.callId ≠ (k.1, some k.2)

theorem World.Idle.of_new {initial : String → Cost} {s : Ledgered} {k : OpKey}
    (h : Linked initial s) (hnew : s.world.store.accounts.operations.lookup k = none) :
    s.world.Idle k := by
  intro id x token hx ht hcall
  obtain ⟨hagent, hop⟩ := Prod.mk.inj hcall
  have hheld := h.inFlight.held id x k.2 token hx hop ht
  rw [hagent] at hheld
  obtain ⟨row, hrow⟩ := h.law.claimed k token hheld
  have hnone : s.audited.accounts.operations.lookup k = none := hnew
  rw [hnone] at hrow
  cases hrow

section Moves

variable {w w' : World} {k : OpKey} {id : ℕ} {x : Worker}

theorem World.Idle.insert {y : Worker} (h : w.Idle k)
    (hworkers : w'.workers = w.workers.insert id y)
    (hy : ∀ token, y.phase.token = some token → y.callId ≠ (k.1, some k.2)) : w'.Idle k := by
  intro id' z token hz ht
  rw [hworkers] at hz
  rcases Table.of_lookup_insert hz with ⟨rfl, rfl⟩ | ⟨-, hz⟩
  · exact hy token ht
  · exact h id' z token hz ht

/-- A call moves on without a new token. -/
theorem World.Idle.move (phase : Phase) (h : w.Idle k) (hx : w.workers.lookup id = some x)
    (hworkers : w'.workers = w.workers.insert id { x with phase })
    (htoken : ∀ token, phase.token = some token → x.phase.token = some token) : w'.Idle k :=
  h.insert hworkers fun token ht => h id x token hx (htoken token ht)

theorem World.Idle.erase (h : w.Idle k) (hworkers : w'.workers = w.workers.erase id) :
    w'.Idle k := by
  intro id' z token hz
  rw [hworkers] at hz
  exact h id' z token (Table.of_lookup_erase hz).2

end Moves

/-- A step that does not touch the operation. -/
structure LeavesAlone (k : OpKey) (s s' : Ledgered) : Prop where
  operation : s'.world.store.accounts.operations.lookup k =
    s.world.store.accounts.operations.lookup k
  reservation : s'.world.store.accounts.reservations.lookup k =
    s.world.store.accounts.reservations.lookup k
  admitted : s'.admitted.lookup k = s.admitted.lookup k
  idle : s'.world.Idle k

section Steps

variable {initial : String → Cost} {digest : OwnerMaterial → String} {isLinked : OpKey → Bool}
  {s : Ledgered} {w' : World} {k : OpKey} {id : ℕ} {x : Worker}

/-- A settlement of another operation. -/
theorem leavesAlone_of_settle {k' : OpKey} {token : String} {outcome : Outcome} {now : Time}
    {amount : Cost} {accounts : Accounts} (hk : k ≠ k')
    (hok : s.world.store.accounts.SettleOk k' token outcome now amount accounts)
    (hstore : w'.store.accounts = accounts) (hidle : w'.Idle k) :
    LeavesAlone k s ⟨w', s.admitted⟩ := by
  obtain ⟨row, -, rfl⟩ := hok.result
  refine ⟨?_, ?_, rfl, hidle⟩
  · rw [hstore, Table.lookup_insert', if_neg hk]
  · rw [hstore]

/-- The generic reconciliation refuses the operation of a queued task. -/
theorem leavesAlone_of_record {review : Store.Review} {now : Time} {store : Store}
    (hlaw : AccountsLaw initial s.audited) (hlinked : isLinked k = true)
    (hbound : s.world.store.tenantId.isSome = true) (hidle : s.world.Idle k)
    (h : s.world.store.record isLinked review now = .ok store) :
    LeavesAlone k s ⟨{ s.world with store }, s.admitted⟩ := by
  have hok := Store.RecordOk.of_record h
  have hk : k ≠ (review.agentId, review.operationId) := by
    rintro rfl
    have hunlinked := hok.unlinked
    rw [hbound, hlinked] at hunlinked
    cases hunlinked
  obtain ⟨row, accounts, _, hrow, -, hsettled, rfl⟩ := hok.settled
  rcases Store.settleRecorded_eq_ok hsettled with ⟨hnone, -⟩ | ⟨token, amount, -, hsettle⟩
  · obtain ⟨token, htoken⟩ := hlaw.attached _ row hrow
    simp only [Ledgered.audited] at htoken
    rw [hnone] at htoken
    cases htoken
  · exact leavesAlone_of_settle hk hsettle rfl hidle

/-- **A linked operation without a call in flight is left alone.** -/
theorem leavesAlone_of_exec {act : Action} {s' : Ledgered} (h : Linked initial s)
    (hrow : s.world.store.accounts.operations.lookup k ≠ none) (hidle : s.world.Idle k)
    (hlinked : isLinked k = true) (hbound : s.world.store.tenantId.isSome = true)
    (hexec : execLinked ⟨.shared, digest, isLinked⟩ s act = .ok s') : LeavesAlone k s s' := by
  -- A call that holds a token is not the operation's, and the ledger row was not new.
  have hother : ∀ {id x op token}, s.world.workers.lookup id = some x →
      x.request.operationId = some op → x.phase.token = some token →
      k ≠ (x.request.agentId, op) := by
    rintro id x op token hx hop ht rfl
    exact hidle id x token hx ht (by simp [Worker.callId, hop])
  cases moves_of_exec h.inFlight hexec with
  | start => exact ⟨rfl, rfl, rfl, hidle.insert rfl fun _ ht => by cases ht⟩
  | crash => exact ⟨rfl, rfl, rfl, hidle.erase rfl⟩
  | touch _ hoperations hreservations =>
    exact ⟨congrArg (·.lookup k) hoperations, congrArg (·.lookup k) hreservations, rfl, hidle⟩
  | record hrecord => exact leavesAlone_of_record h.law hlinked hbound hidle hrecord
  | go hx htoken => exact ⟨rfl, rfl, rfl, hidle.move _ hx rfl htoken⟩
  | @admission id x op i store phase admissions hx hop hfresh hok =>
    have hk : k ≠ (x.request.agentId, op) := by
      rintro rfl
      exact hrow hok.new
    refine ⟨?_, ?_, ?_, hidle.insert rfl fun _ _ heq => ?_⟩
    · simp [World.move, hok.accounts, hk]
    · simp [World.move, hok.accounts, hk]
    · simp [hk]
    · simp only [Worker.callId, hop, Prod.mk.injEq, Option.some.injEq] at heq
      exact hk (Prod.ext heq.1.symm heq.2.symm)
  | abort hx hop hphase habort =>
    obtain ⟨row, -, -, rfl⟩ := Store.abortAdmission_eq_ok habort
    refine ⟨?_, rfl, rfl, hidle.move .done hx rfl fun _ ht => by cases ht⟩
    exact (Table.lookup_insert' _ _ _ _).trans (if_neg (hother hx hop hphase))
  | settle hx hop hphase htoken _ _ hok =>
    exact leavesAlone_of_settle (hother hx hop hphase) hok rfl (hidle.move _ hx rfl htoken)

/-! ### Other transactions on the store

The transactions of a queued task are accounting steps too, and move no call. -/

theorem Linked.admission {r : AdmissionRequest} {i : AdmissionInput} {op : String} {store : Store}
    (h : Linked initial s) (hok : s.world.store.AdmitOk digest r i op store)
    (hfresh : s.world.store.accounts.FreshToken i.token) :
    Linked initial ⟨{ s.world with store }, s.admitted.insert (r.agentId, op) r.cost⟩ := by
  refine ⟨?_, h.inFlight.mono rfl fun k t ht => h.reservations_admission hok ht⟩
  simp only [Ledgered.audited, hok.accounts]
  exact h.law.admission hok.new rfl hfresh hok.fits

theorem Linked.settle {token : String} {outcome : Outcome} {now : Time} {amount : Cost}
    {row : Operation} {accounts : Accounts} (h : Linked initial s)
    (hrow : s.world.store.accounts.operations.lookup k = some row) (hunknown : row.state = .unknown)
    (hok : s.world.store.accounts.SettleOk k token outcome now amount accounts) :
    Linked initial
      ⟨{ s.world with store := { s.world.store with accounts } }, s.admitted⟩ := by
  refine ⟨h.law.settle hrow hunknown hok, h.inFlight.mono rfl fun k t ht => ?_⟩
  obtain ⟨_, -, rfl⟩ := hok.result
  exact ht

end Steps

end AgentBridge.Gateway
