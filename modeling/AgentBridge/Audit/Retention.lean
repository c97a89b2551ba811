import AgentBridge.Audit.Store

/-!
# Deletions of audit entries

A deletion reads holds, operations, links, tasks and budgets, and deletes audit entries later. In
between other workers may run. The deletion holds locks on all that it has read, so its checks are
still true when it commits.

* `deletion_is_serial` : **every committed deletion has a place in the committed history where
  nothing protects the audit entries**, and it keeps the highest entry.
-/

namespace AgentBridge.Audit

open HashChain Locking List

/-! ### The specification -/

/-- No evidence protects the audit entries. -/
structure Eligible (d : Tables) : Prop where
  holds : ∀ name, d.holds.lookup name ≠ some true
  operations : d.operations = []
  links : d.links = []
  tasks : ∀ id terminal, d.tasks.lookup id = some terminal → terminal = true
  budgets : ∀ agent reserved, d.budgets.lookup agent = some reserved → reserved.getD [] = []

/-- The entry follows the last row, as it is read back. -/
structure Continues (H : Sha256) (rows : List AuditEntry) (e : AuditEntry) : Prop where
  seq : e.seq = rows.getLast?.elim 0 (·.seq + 1)
  prevHash : e.prevHash = rows.getLast?.elim genesis (·.entryHash.norm)
  entryHash : e.entryHash = computeHash H e

/-- The two data agree on what the lock protects. -/
def agree : Lock → Tables → Tables → Prop
  | .audit, d, d' => d.audit = d'.audit
  | .holds, d, d' => d.holds = d'.holds
  | .share .operations, d, d' => d.operations = d'.operations
  | .share .links, d, d' => d.links = d'.links
  | .share .budgets, d, d' => d.budgets = d'.budgets
  | .share .tasks, d, d' => d.tasks = d'.tasks
  | .rowExclusive _, _, _ => True

def fits (H : Sha256) (d : Tables) : Change → Prop
  | .insertAudit e => Continues H d.audit e
  | .deleteAudit n => Eligible d ∧ ∀ last ∈ d.audit.getLast?, n ≤ last.seq
  | .put _ => True

def needs : Change → List Lock
  | .insertAudit _ => [.audit]
  | .deleteAudit _ =>
    [.audit, .holds, .share .operations, .share .links, .share .budgets, .share .tasks]
  | .put _ => []

variable {k : Lock} {d d' : Tables}

theorem agree_trans {d₁ d₂ d₃ : Tables} (h : agree k d₁ d₂) (h' : agree k d₂ d₃) :
    agree k d₁ d₃ := by
  cases k with
  | audit | holds => exact h.trans h'
  | share t => cases t <;> exact h.trans h'
  | rowExclusive t => trivial

/-- A change under a compatible lock leaves alone what the lock protects. -/
theorem agree_untouched {ch : Change} (d : Tables) (h : k.conflict ch.lock = false) :
    agree k d (d.apply ch) := by
  cases k with
  | audit =>
    cases ch with
    | insertAudit e => cases h
    | deleteAudit n => cases h
    | put row => cases row <;> rfl
  | holds =>
    cases ch with
    | insertAudit e => rfl
    | deleteAudit n => rfl
    | put row =>
      cases row with
      | hold name enabled => cases h
      | operation | link | task | budget => rfl
  | share t =>
    cases ch with
    | insertAudit e => cases t <;> rfl
    | deleteAudit n => cases t <;> rfl
    | put row => cases row <;> cases t <;> first | rfl | cases h
  | rowExclusive t => trivial

/-- What a change makes of a table depends on that table only. -/
theorem agree_apply (ch : Change) (h : agree k d d') : agree k (d.apply ch) (d'.apply ch) := by
  cases k with
  | audit =>
    have hd : d.audit = d'.audit := h
    cases ch with
    | put row => cases row <;> exact hd
    | insertAudit e | deleteAudit n => simp only [agree, Tables.apply, hd]
  | holds =>
    have hd : d.holds = d'.holds := h
    cases ch with
    | put row => cases row <;> simp only [agree, Tables.apply, Tables.put, hd]
    | insertAudit e => exact hd
    | deleteAudit n => exact hd
  | share t =>
    cases ch with
    | put row =>
      cases t <;> cases row <;> simp only [agree] at h <;>
        simp only [agree, Tables.apply, Tables.put, h]
    | insertAudit e | deleteAudit n => cases t <;> exact h
  | rowExclusive t => trivial

theorem fits_agree {H : Sha256} {ch : Change} (h : ∀ k ∈ needs ch, agree k d d')
    (hfits : fits H d ch) : fits H d' ch := by
  cases ch with
  | insertAudit e =>
    have haudit : d.audit = d'.audit := h .audit (by simp [needs])
    rwa [fits, ← haudit]
  | deleteAudit n =>
    have haudit : d.audit = d'.audit := h .audit (by simp [needs])
    have hholds : d.holds = d'.holds := h .holds (by simp [needs])
    have hoperations : d.operations = d'.operations := h (.share .operations) (by simp [needs])
    have hlinks : d.links = d'.links := h (.share .links) (by simp [needs])
    have hbudgets : d.budgets = d'.budgets := h (.share .budgets) (by simp [needs])
    have htasks : d.tasks = d'.tasks := h (.share .tasks) (by simp [needs])
    obtain ⟨helig, hlast⟩ := hfits
    refine ⟨⟨?_, ?_, ?_, ?_, ?_⟩, haudit ▸ hlast⟩
    · exact hholds ▸ helig.holds
    · exact hoperations ▸ helig.operations
    · exact hlinks ▸ helig.links
    · exact htasks ▸ helig.tasks
    · exact hbudgets ▸ helig.budgets
  | put row => trivial

def spec (H : Sha256) : Spec rules where
  agree := agree
  agree_refl k d := by
    cases k with
    | audit | holds => rfl
    | share t => cases t <;> rfl
    | rowExclusive t => trivial
  agree_trans := agree_trans
  untouched := agree_untouched
  agree_apply := agree_apply
  fits := fits H
  needs := needs
  fits_agree := fits_agree

/-! ### Checks -/

/-- The lock under which a check stays true. -/
def Check.lock : Check → Lock
  | .holds => .holds
  | .operations => .share .operations
  | .links => .share .links
  | .tasks => .share .tasks
  | .budgets => .share .budgets

theorem Check.passes_agree {c : Check} (h : agree c.lock d d') : c.passes d = c.passes d' := by
  cases c <;> simp only [lock, agree] at h <;> simp only [passes, h]

theorem all_entries_iff {α β : Type} [DecidableEq α] {t : Table α β} {p : β → Bool} :
    (t.entries.all fun e => p e.2) = true ↔ ∀ a b, t.lookup a = some b → p b = true := by
  rw [all_eq_true]
  constructor
  · intro h a b hab
    exact h ⟨a, b⟩ (AList.mem_lookup_iff.mp hab)
  · rintro h ⟨a, b⟩ hmem
    exact h a b (AList.mem_lookup_iff.mpr hmem)

/-- All checks together say that nothing protects the audit entries. -/
theorem eligible_of_passes (h : ∀ c : Check, c.passes d = true) : Eligible d where
  holds name hname := by
    have := all_entries_iff.mp (h .holds) name true hname
    cases this
  operations := isEmpty_iff.mp (h .operations)
  links := isEmpty_iff.mp (h .links)
  tasks := all_entries_iff.mp (h .tasks)
  budgets agent reserved hr := isEmpty_iff.mp
    (all_entries_iff (p := fun r : Option (List PyString) => (r.getD []).isEmpty).mp (h .budgets)
      agent reserved hr)

/-! ### The scripts are safe -/

section Safe

variable {b : Backend} {H : Sha256} {production : Bool} {rest : List (Instr Lock Statement)}
  {ks : List Lock} {d : Tables} {head : Option AuditEntry} {cs : List Check}

/-- Checks that passed, under locks that are still held. -/
structure Passed (cs : List Check) (ks : List Lock) (d : Tables) : Prop where
  passes : ∀ c ∈ cs, c.passes d = true
  locked : ∀ c ∈ cs, c.lock ∈ ks

theorem Passed.agree (h : Passed cs ks d) {d' : Tables} (hd : (spec H).AgreeOn ks d d') :
    Passed cs ks d' where
  passes c hc := by
    rw [← Check.passes_agree (hd c.lock (h.locked c hc))]
    exact h.passes c hc
  locked := h.locked

theorem Passed.mono (h : Passed cs ks d) {ks' : List Lock} (hks : ks ⊆ ks') : Passed cs ks' d :=
  ⟨h.passes, fun c hc => hks (h.locked c hc)⟩

/-- Taking locks keeps what has been checked. -/
theorem safe_locks (locks : List Lock) (hpassed : Passed cs ks d)
    (h : ∀ ks' d', ks ⊆ ks' → locks ⊆ ks' → Passed cs ks' d' →
      Safe (program b H production) (spec H) rest ks' d' head) :
    Safe (program b H production) (spec H) (locks.map .lock ++ rest) ks d head := by
  induction locks generalizing ks d with
  | nil => exact h ks d (List.Subset.refl _) (nil_subset _) hpassed
  | cons k locks ih =>
    intro d' hd'
    refine ih ((hpassed.agree hd').mono (subset_cons_self k ks)) fun ks' d'' hks hlocks => ?_
    have hsub := cons_subset.mp hks
    exact h ks' d'' hsub.2 (cons_subset.mpr ⟨hsub.1, hlocks⟩)

theorem safe_check {c : Check} (hc : c.lock ∈ ks) (hpassed : Passed cs ks d)
    (h : ∀ d', Passed (c :: cs) ks d' → Safe (program b H production) (spec H) rest ks d' head) :
    Safe (program b H production) (spec H) (.stmt (.check c) :: rest) ks d head := by
  intro d' hd' i head' wr? hrun
  simp only [program, run] at hrun
  split at hrun
  case isTrue hpass =>
    cases hrun
    have hpassed' := hpassed.agree hd'
    exact h d' ⟨forall_mem_cons.mpr ⟨hpass, hpassed'.passes⟩,
      forall_mem_cons.mpr ⟨hc, hpassed'.locked⟩⟩
  case isFalse => cases hrun

theorem safe_checks (checks : List Check) (hlocks : ∀ c ∈ checks, c.lock ∈ ks)
    (hpassed : Passed cs ks d)
    (h : ∀ d', Passed (checks.reverse ++ cs) ks d' →
      Safe (program b H production) (spec H) rest ks d' head) :
    Safe (program b H production) (spec H) (checks.map (.stmt <| .check ·) ++ rest) ks d head := by
  induction checks generalizing cs d with
  | nil => exact h d hpassed
  | cons c checks ih =>
    refine safe_check (hlocks c mem_cons_self) hpassed fun d' hd' => ?_
    refine ih (fun c' hc' => hlocks c' (mem_cons_of_mem _ hc')) hd' fun d'' hd'' => ?_
    refine h d'' ?_
    rwa [reverse_cons, append_assoc]

/-- The head that a call has read is still the head when it deletes. -/
theorem safe_delete (seq : ℤ) (hlocks : needs (.deleteAudit seq) ⊆ ks)
    (hpassed : Passed cs ks d) (hall : ∀ c : Check, c ∈ cs) :
    Safe (program b H production) (spec H) [.stmt .readHead, .stmt (.delete seq)] ks d head := by
  have haudit : Lock.audit ∈ ks := hlocks mem_cons_self
  intro d₁ hd₁ i head' wr? hrun
  cases hrun
  intro d₂ hd₂ i' head'' wr? hrun
  have hrows : d₁.audit = d₂.audit := hd₂ .audit haudit
  have hpassed₂ : Passed cs ks d₂ := (hpassed.agree hd₁).agree hd₂
  simp only [program, run] at hrun
  split at hrun
  case isTrue => cases hrun
  case isFalse hhead =>
    cases hrun
    refine ⟨haudit, hlocks, ⟨eligible_of_passes fun c => hpassed₂.passes c (hall c), ?_⟩, trivial⟩
    intro last hlast
    rw [hrows, Option.mem_def.mp hlast] at hhead
    simpa [AuditEntry.norm] using hhead

/-- `truncate_audit_before`: whatever it deletes under, it has checked under locks. -/
theorem safe_truncate (seq : ℤ) :
    Safe (program b H production) (spec H) (script (.truncate seq)) ks d head := by
  intro d₁ _ i head' wr? hrun
  simp only [program, run] at hrun
  split at hrun
  case isTrue => cases hrun
  case isFalse =>
  cases hrun
  by_cases hseq : seq ≤ 0
  · rw [if_pos hseq]
    trivial
  rw [if_neg hseq, guardScript, append_assoc]
  have hnone : Passed [] ks d₁ := ⟨fun _ hc => (not_mem_nil hc).elim,
    fun _ hc => (not_mem_nil hc).elim⟩
  refine safe_locks [.holds] hnone fun ks₁ d₂ _ hholds hpassed₁ => ?_
  refine safe_check (hholds mem_cons_self) hpassed₁ fun d₃ hpassed₂ => ?_
  refine safe_locks ([Relation.operations, .links, .budgets, .tasks].map .share) hpassed₂
    fun ks₂ d₄ hks₂ hshare hpassed₃ => ?_
  refine safe_checks [Check.operations, .links, .tasks, .budgets] ?_ hpassed₃ fun d₅ hpassed₄ => ?_
  · simp only [forall_mem_cons, Check.lock]
    exact ⟨hshare (by simp), hshare (by simp), hshare (by simp), hshare (by simp), nofun⟩
  refine safe_locks [.audit] hpassed₄ fun ks₃ d₆ hks₃ haudit hpassed₅ => ?_
  refine safe_delete seq ?_ hpassed₅ fun c => by cases c <;> simp
  simp only [needs, cons_subset, nil_subset, and_true]
  exact ⟨haudit mem_cons_self, hks₃ (hks₂ (hholds mem_cons_self)),
    hks₃ (hshare (by simp)), hks₃ (hshare (by simp)), hks₃ (hshare (by simp)),
    hks₃ (hshare (by simp))⟩

theorem safe_append (draft : Draft) :
    Safe (program b H production) (spec H) (appendScript draft) ks d head := by
  intro d₁ _ d₂ _ i head' wr? hrun
  cases hrun
  intro d₃ hd₃ i' head'' wr? hrun
  have haudit : d₂.audit = d₃.audit := hd₃ .audit mem_cons_self
  simp only [program, run] at hrun
  split at hrun
  case isTrue => cases hrun
  case isFalse =>
    cases hrun
    refine ⟨mem_cons_self, cons_subset.mpr ⟨mem_cons_self, nil_subset _⟩, ?_,
      trivial⟩
    rw [haudit]
    cases hlast : d₃.audit.getLast? with
    | none => exact ⟨by simp [Draft.build, hlast], by simp [Draft.build, hlast], rfl⟩
    | some last =>
      exact ⟨by simp [Draft.build, hlast, AuditEntry.norm],
        by simp [Draft.build, hlast, AuditEntry.norm], rfl⟩

theorem safe_put (row : Row) :
    Safe (program b H production) (spec H) (script (.put row)) ks d head := by
  intro d₁ _ d₂ _ i head' wr? hrun
  have hwr : wr? = some (.put row) := by
    cases row with
    | hold name enabled =>
      simp only [program, run] at hrun
      split at hrun
      · cases hrun
      · cases hrun
        rfl
    | operation | link | task | budget =>
      cases hrun
      rfl
  subst hwr
  exact ⟨mem_cons_self, nil_subset _, trivial, trivial⟩

end Safe

theorem verified (b : Backend) (H : Sha256) (production : Bool) :
    Verified (program b H production) (spec H) := by
  intro c ks d _
  cases c with
  | record draft => exact safe_append draft
  | settle timestamp reviewer result reason => exact safe_append _
  | truncate seq => exact safe_truncate seq
  | put row => exact safe_put row

/-! ### Deletions -/

/-- A deletion that stays below the last row keeps the highest one. -/
theorem highest_kept {n : ℤ} (h : ∀ last ∈ d.audit.getLast?, n ≤ last.seq) {e : AuditEntry}
    (he : e ∈ d.audit) (hmax : ∀ e' ∈ d.audit, e'.seq ≤ e.seq) :
    e ∈ (d.apply (.deleteAudit n)).audit := by
  refine mem_filter.mpr ⟨he, decide_eq_true ?_⟩
  cases hlast : d.audit.getLast? with
  | none =>
    rw [getLast?_eq_none_iff.mp hlast] at he
    cases he
  | some last => exact (h last hlast).trans (hmax last (mem_of_getLast? hlast))

/-- **Every committed deletion has a place in the committed history where nothing protects the audit
entries**: no hold is enabled, there are no operations and no links, every task is terminal and no
budget has a reservation. The deletion keeps the highest entry. -/
theorem deletion_is_serial (b : Backend) (H : Sha256) (production : Bool) (d₀ : Tables) (s : Store)
    (h : (system b H production).Reachable (World.initial d₀) s) :
    s.store.data = s.history.foldl Tables.apply d₀ ∧
    ∀ before n after, s.history = before ++ .deleteAudit n :: after →
      let d := before.foldl Tables.apply d₀
      Eligible d ∧ ∀ e ∈ d.audit, (∀ e' ∈ d.audit, e'.seq ≤ e.seq) →
        e ∈ (d.apply (.deleteAudit n)).audit := by
  obtain ⟨hserial, hdata⟩ := serial (verified b H production) h
  refine ⟨hdata, fun before n after hhistory => ?_⟩
  rw [hhistory] at hserial
  obtain ⟨-, ⟨helig, hlast⟩, -⟩ := Spec.serial_append.mp hserial
  exact ⟨helig, fun e he hmax => highest_kept hlast he hmax⟩

/-! ### A run -/

def sampleDraft : Draft where
  timestamp := .ofString "2026-01-01T00:00:00+00:00"
  actor := .ofString "agent-1"
  action := .ofString "route_call"
  sourceProtocol := .ofString "a2a"
  targetProtocol := .ofString "mcp"
  capability := .ofString "search"
  decision := .ofString "allow"
  reason := .ofString ""
  cost := .zero

def sampleCall (w n : ℕ) (c : Call) : List (Action Unit Call) :=
  .start w :: .call w c :: List.replicate n (.step w ())

/-- Two appends and a deletion. A fourth worker tries to set a hold while the deletion is between
its checks and its commit, and has to wait. -/
def sampleActions : List (Action Unit Call) :=
  [sampleCall 1 3 (.record sampleDraft), [.commit 1],
    sampleCall 2 3 (.settle (.ofString "t") (.ofString "reviewer") (.ofString "settled")
      (.ofString "")), [.commit 2],
    sampleCall 4 0 (.put (.hold (.ofString "case-7") true)),
    sampleCall 3 11 (.truncate 1), [.step 4 (), .step 3 (), .step 3 (), .step 3 (), .commit 3],
    [.step 4 (), .step 4 (), .commit 4]].flatten

def sampleRun : Store :=
  LTS.drive (exec (program .postgres sampleSha false)) (World.initial {}) sampleActions

theorem sampleRun_reachable :
    (system .postgres sampleSha false).Reachable (World.initial {}) sampleRun :=
  LTS.reachable_drive _ _ _

theorem sample_deletion_is_serial :
    sampleRun.history =
      sampleRun.history.take 2 ++ .deleteAudit 1 :: [.put (.hold (.ofString "case-7") true)] ∧
    Eligible ((sampleRun.history.take 2).foldl Tables.apply {}) := by
  have hhistory : sampleRun.history =
      sampleRun.history.take 2 ++ .deleteAudit 1 :: [.put (.hold (.ofString "case-7") true)] := by
    decide +kernel
  have hserial := deletion_is_serial .postgres sampleSha false {} sampleRun sampleRun_reachable
  exact ⟨hhistory, (hserial.2 (sampleRun.history.take 2) 1 _ hhistory).1⟩

end AgentBridge.Audit
