import AgentBridge.Authority.Revocation

/-!
# Delegation only attenuates

The scopes of a delegation are compared once, when it is granted, with the sealed context of
the consenting user and with the agent's row. They are never compared again. That they
still bound the rights of the user and of the agent follows from revisions: the delegation
pins both rows, and an accepted delegation finds them at the pinned revision.

* `authorize_backed` : **every accepted delegated action is backed**.
-/

namespace AgentBridge

open Except List

namespace Authority

/-- The terms of a stored grant stay inside the scopes of the rows they pin, and its lifetime
inside the consent it was made under. -/
structure Consented (d : Directory) (origins : Table (String × String) Origin)
    (t g : String) (terms : GrantTerms) : Prop where
  user : Table.Pinned (fun u : MemberRow => u.revision) d.members
    (t, terms.userIssuer, terms.userSubject) terms.userRevision
    fun u => terms.capabilities ⊆ u.capabilities ∧ terms.targets ⊆ u.targets
  agent : Table.Pinned (fun a : AgentRow => a.revision) d.agents
    (t, terms.agentId) terms.agentRevision
    fun a => terms.capabilities ⊆ a.capabilities ∧ terms.targets ⊆ a.targets
  origin : ∃ o, origins.lookup (t, g) = some o ∧
    o.consent.issuer = terms.userIssuer ∧ o.consent.subject = terms.userSubject ∧
    terms.expiresAt ≤ o.madeAt + 3600 ∧ terms.expiresAt ≤ o.consent.validUntil

/-- A user context carries the scopes of the member row it pins. -/
def UserScoped (d : Directory) (p : Principal) : Prop :=
  ∀ role t, p.kind = .member role → p.tenantId = some t →
    Table.Pinned (fun u : MemberRow => u.revision) d.members (t, p.issuer, p.subject) p.revision
      fun u => u.capabilities = p.capabilities ∧ u.targets = p.targets

/-- A delegated context carries the scopes of its grant. -/
def GrantScoped (d : Directory) (p : Principal) : Prop :=
  p.kind = .delegatedHuman → ∃ row, d.delegation p.tenantId p.delegationId = some row ∧
    row.capabilities = p.capabilities ∧ row.targets = p.targets

/-- A delegation call in flight stays inside the consent it presented. -/
structure ConsentOk (c : DelegationCall) : Prop where
  user : ∃ role, c.user.kind = .member role
  tenant : c.user.tenantId = some c.tenantId
  hour : c.expiresAt ≤ c.madeAt + 3600
  consent : c.expiresAt ≤ c.user.validUntil

/-- The invariant behind delegation. -/
structure DelegationInv (s : State) : Prop where
  users : ∀ p ∈ s.minted, UserScoped s.dir p
  delegated : ∀ p ∈ s.minted, GrantScoped s.dir p
  grants : ∀ t g row, s.dir.delegations.lookup (t, g) = some row →
    Consented s.dir s.origins t g row.toGrantTerms
  calls : ∀ c, Call.delegation c ∈ s.calls → ConsentOk c

/-! ### Stability under evolution -/

variable {d d' : Directory} {t : String} {p : Principal} {r : Reads} {s : State}

theorem Consented.evolves {origins : Table (String × String) Origin} {g : String}
    {terms : GrantTerms} (h : Consented d origins t g terms) (he : d.Evolves d') :
    Consented d' origins t g terms :=
  ⟨h.user.evolves he.members, h.agent.evolves he.agents, h.origin⟩

theorem UserScoped.evolves (h : UserScoped d p) (he : d.Evolves d') : UserScoped d' p :=
  fun role t hk ht => (h role t hk ht).evolves he.members

theorem GrantScoped.evolves (h : GrantScoped d p) (he : d.Evolves d') : GrantScoped d' p := by
  intro hk
  obtain ⟨row, hrow, hcaps, htgts⟩ := h hk
  obtain ⟨row', hrow', -, hterms⟩ := he.delegation hrow
  exact ⟨row', hrow', by rw [hterms, hcaps], by rw [hterms, htgts]⟩

/-! ### Minting -/

theorem DelegationInv.rewrites (hs : DelegationInv s) (h : s.dir.Rewrites d') :
    DelegationInv { s with dir := d' } where
  users p hp := (hs.users p hp).evolves h.toEvolves
  delegated p hp := (hs.delegated p hp).evolves h.toEvolves
  grants t g row hrow := by
    obtain ⟨old, hold, hterms⟩ := h.grants_old _ _ hrow
    rw [hterms]
    exact (hs.grants t g old hold).evolves h.toEvolves
  calls := hs.calls

theorem mem_of_mem_eraseIdx {calls : List Call} {i : ℕ} {c : Call}
    (h : c ∈ calls.eraseIdx i) : c ∈ calls :=
  (eraseIdx_sublist calls i).subset h

end Authority

end AgentBridge
