import VcWorkspace.Store.Footprint

/-! # What is given out stays authorized

Every transaction either ends in the common step of an access change or takes
no access away. So every active connection and every active lease has a right
to its desktop, and whoever loses access has the revocation of the own Guest
account requested.
-/

namespace VcWorkspace.Store.Authorization

open Transition Footprint Bool

variable {s s' : AccessState} {op : AccessOp}

/-- Every connection in use and every active lease has a right to its desktop. -/
structure Authorized (s : AccessState) : Prop where
  active : ∀ c ∈ s.grants.connections, c.state = .active →
    s.access c.userId c.desktopVmid = true
  revoking : ∀ c ∈ s.grants.connections, c.state = .revoking →
    s.access c.userId c.desktopVmid = false → c.terminationRequired = true
  leases : ∀ l ∈ s.grants.leases, l.2.state = .active →
    s.tables.agentAccess l.2.agentId l.1 = true

theorem authorized_of_commit (h : s.commitAccessChange = .ok s') : Authorized s' := by
  obtain ⟨ht, g, -, hg⟩ := commit_ok h
  have hacc : ∀ u d, s'.access u d = s.access u d := fun u d => by
    rw [AccessState.access, ht, AccessState.access]
  constructor
  · intro c hc hst
    rw [hg] at hc
    rw [hacc]
    obtain ⟨c₀, hc₀, ⟨-, rfl⟩ | ⟨hp, rfl⟩⟩ := mem_updateWhere.mp hc
    · cases hst
    · simpa [DesktopConnectionSession.isOpen, hst] using hp
  · intro c hc hst hno
    rw [hg] at hc
    rw [hacc] at hno
    obtain ⟨c₀, hc₀, ⟨-, rfl⟩ | ⟨hp, rfl⟩⟩ := mem_updateWhere.mp hc
    · rfl
    · simp [DesktopConnectionSession.isOpen, hst, hno] at hp
  · intro l hl hst
    rw [hg] at hl
    rw [ht]
    simpa using (mem_of_closeLeases (by decide) hl hst).2

variable {sha256 : Sha256}

theorem Authorized.keeps (h : Authorized s) (hk : Footprint.Keeps s s') : Authorized s' := by
  constructor
  · intro c' hc' hst
    rcases hk.connections c' hc' with ⟨c, hc, hm⟩ | hacc
    · rw [hm.user, hm.desktop]
      exact hk.access _ _ (h.active c hc (hm.active hst))
    · exact hacc
  · intro c' hc' hst hno
    rcases hk.connections c' hc' with ⟨c, hc, hm⟩ | hacc
    · rw [hm.user, hm.desktop] at hno
      have hno₀ : s.access c.userId c.desktopVmid = false := by
        by_contra hacc
        rw [hk.access _ _ (by simpa using hacc)] at hno
        cases hno
      -- an active connection would have had access
      rcases hm.revoking hst with hact | hrev
      · rw [h.active c hc hact] at hno₀
        cases hno₀
      · exact hm.required (h.revoking c hc hrev hno₀)
    · rw [hacc] at hno
      cases hno
  · intro l hl hst
    rcases hk.leases l hl hst with ⟨hmem, hacc⟩ | hacc
    · exact hacc (h.leases l hmem hst)
    · exact hacc

theorem Authorized.step (h : Authorized s) (he : Effect op s s') : Authorized s' := by
  cases he with
  | commit t hc => exact authorized_of_commit hc
  | keep hk => exact h.keeps hk

theorem authorized_of_reachable (hs : (accessStore sha256).Reachable s) : Authorized s := by
  refine hs.invariant (P := Authorized) ?_ ?_
  · rintro s rfl
    constructor <;> simp
  · intro s op s' _ h hstep
    exact h.step (applies_of_apply sha256 (toOption_eq_some.mp hstep)).effect

theorem pending_of_lost (he : Effect op s s') {b : GuestIdentityBinding}
    (hb : b ∈ s.grants.bindings)
    (hst : b.state ≠ .disabled ∨ s.grants.accountRevocationPending b = true)
    (hacc : s.access b.userId b.desktopVmid = true)
    (hno : s'.access b.userId b.desktopVmid = false) :
    s'.grants.accountRevocationPending b = true := by
  cases he with
  | commit t hc hop hs =>
    apply pending_of_commit hc hno
    rcases hs.binds _ (hop _) b hb rfl with hmem | ⟨-, hpend⟩
    · exact hst.imp (⟨hmem, ·⟩) hs.requests.pending
    · exact .inr hpend
  | keep hk =>
    rw [hk.access _ _ hacc] at hno
    cases hno

/-- Authorization over every access change: what is active has access, and who loses access has a
pending revocation, unless the binding was disabled and settled before. -/
theorem access_authorization (hs : (accessStore sha256).Reachable s) :
    (∀ c ∈ s.grants.connections, c.state = .active → s.access c.userId c.desktopVmid = true) ∧
    (∀ c ∈ s.grants.connections, c.state = .revoking →
      s.access c.userId c.desktopVmid = false → c.terminationRequired = true) ∧
    (∀ l ∈ s.grants.leases, l.2.state = .active → s.tables.agentEnabled l.2.agentId = true ∧
      (l.2.agentId, l.1) ∈ s.tables.agentAssignments ∧ s.tables.desktopUsable l.1 = true) ∧
    (∀ op s', (accessStore sha256).step s op = some s' → ∀ b ∈ s.grants.bindings,
      b.state ≠ .disabled ∨ s.grants.accountRevocationPending b = true →
      s.access b.userId b.desktopVmid = true → s'.access b.userId b.desktopVmid = false →
      s'.grants.accountRevocationPending b = true) := by
  have h := authorized_of_reachable hs
  refine ⟨h.active, h.revoking, fun l hl hst => ?_, fun op s' hstep b hb hst hacc hno => ?_⟩
  · have hacc := h.leases l hl hst
    simp only [AccessTables.agentAccess, and_eq_true, List.contains_iff_mem] at hacc
    exact ⟨hacc.1.1.2, hacc.1.1.1, hacc.1.2⟩
  · have heffect := (applies_of_apply sha256 (toOption_eq_some.mp hstep)).effect
    exact pending_of_lost heffect hb hst hacc hno

section Sample

/-- The assignment goes, the Guest account is disabled, and the assignment comes back. -/
def sampleReturn : List AccessOp :=
  [.deleteDesktopAssignment .user "user" 100,
    .completeGuestIdentityRevocation 100 "user" "vcw000000000000" 1 0,
    .putDesktopAssignment .user "user" 100]

/-- The user loses access with the assignment, and the revocation is requested. -/
theorem access_authorization_unassigned :
    ∃ s s', (accessStore sampleDigest).Reachable s ∧ s.access "user" 100 = true ∧
      (accessStore sampleDigest).step s (.deleteDesktopAssignment .user "user" 100) = some s' ∧
      s'.access "user" 100 = false ∧
      s'.grants.accountRevocationPending (sampleBinding .ready) = true := by
  obtain ⟨s, hs, hb, hacc, hstep⟩ : ∃ s, (accessStore sampleDigest).Reachable s ∧
      sampleBinding .ready ∈ s.grants.bindings ∧ s.access "user" 100 = true ∧
      ((accessStore sampleDigest).step s (.deleteDesktopAssignment .user "user" 100)).any
        (fun s' => !s'.access "user" 100) = true :=
    Machine.exists_reachable_of_run _ sampleBound rfl (by decide)
  obtain ⟨s', hs', hno⟩ := (Option.any_eq_true _ _).mp hstep
  have hno : s'.access "user" 100 = false := by simpa using hno
  exact ⟨s, s', hs, hacc, hs', hno,
    (access_authorization hs).2.2.2 _ s' hs' _ hb (.inl (by decide)) hacc hno⟩

/-- After a completed revocation the binding is disabled, and losing access again requests
nothing. -/
theorem disabled_binding_not_requested :
    ∃ s s' b, (accessStore sampleDigest).Reachable s ∧ b ∈ s.grants.bindings ∧
      (accessStore sampleDigest).step s (.deleteDesktopAssignment .user "user" 100) = some s' ∧
      s.access b.userId b.desktopVmid = true ∧ s'.access b.userId b.desktopVmid = false ∧
      s'.grants.accountRevocationPending b = false := by
  obtain ⟨s, hs, hb, hacc, hstep⟩ : ∃ s, (accessStore sampleDigest).Reachable s ∧
      sampleBinding .disabled ∈ s.grants.bindings ∧ s.access "user" 100 = true ∧
      ((accessStore sampleDigest).step s (.deleteDesktopAssignment .user "user" 100)).any
        (fun s' => !s'.access "user" 100 &&
          !s'.grants.accountRevocationPending (sampleBinding .disabled)) = true :=
    Machine.exists_reachable_of_run _ (sampleBound ++ sampleReturn) rfl (by decide)
  obtain ⟨s', hs', hno⟩ := (Option.any_eq_true _ _).mp hstep
  simp only [and_eq_true, not_eq_true'] at hno
  exact ⟨s, s', _, hs, hb, hs', hacc, hno.1, hno.2⟩

end Sample

end VcWorkspace.Store.Authorization
