import VcWorkspace.Protocol.AgentCredential
import VcWorkspace.Transition.Replica

/-! # Agreement of the session row and the Guest fence

Every fence stems from a version of the row, so it never comes after the current
one, and it never falls behind a receipt. Hence each pending cleanup is accepted
and a completed one stays in force.
-/

namespace VcWorkspace.Protocol.AgentCredential

open Transition Guest Guest.Agent Store Option Bool

variable {sha256 : Sha256} {s t u : State} {row r : AgentGuestSession}
  {previous : Option Fence} {f g : Fence} {m : Request} {p : Plan} {now : ℕ} {login : Bool}
  {env : SessionEnv}

section Plans

/-- What an applied request stores: two fences of the request that follow the stored one. -/
structure Applied (previous : Option Fence) (m : Request) (p : Plan) : Prop where
  valid : m.validate = .ok ()
  shape : ∃ ph ph', p.pending = m.fence ph ∧ p.completed = m.fence ph' ∧
    (ph = .revoked ↔ m.operation = .revoke) ∧ (ph' = .revoked ↔ m.operation = .revoke)
  follows : ∀ f, previous = some f → Precedes f p.pending
  observed : p.observeOnly = true → previous = some p.completed

theorem applied_of_plan (h : plan previous m now = .ok p) : Applied previous m p where
  valid := (plan_eq_ok_iff.mp h).1
  shape := plan_shape h
  follows _ hf := precedes_of_plan (hf ▸ h)
  observed := observeOnly_of_plan h

theorem applied_of_apply (h : apply previous m login now = .ok p) : Applied previous m p := by
  rw [apply, seq_eq_ok, ensure_eq_ok] at h
  obtain ⟨hlogin, h⟩ := h
  obtain ⟨p', hp', h⟩ := bind_eq_ok.mp h
  cases h
  have ha := applied_of_plan hp'
  split
  next hl =>
    have hopen : m.operation = .open := by simpa [hl] using hlogin
    obtain ⟨ph, ph', h₁, h₂, hr, -⟩ := ha.shape
    refine ⟨ha.valid, ⟨ph, .sealed, h₁, by simp [h₂, Request.fence], hr, by simp [hopen]⟩,
      ha.follows, fun ho => ?_⟩
    -- an opening always does its work, so it is never a mere observation
    have hans := (plan_eq_ok_iff.mp hp').2.2.2
    rw [Answers, hopen] at hans
    obtain ⟨-, rfl⟩ := hans
    simp at ho
  · exact ha

theorem Applied.validate (h : Applied previous m p) :
    p.pending.validate = .ok () ∧ p.completed.validate = .ok () := by
  obtain ⟨ph, ph', h₁, h₂, hr, hr'⟩ := h.shape
  rw [h₁, h₂]
  exact ⟨validate_fence h.valid hr, validate_fence h.valid hr'⟩

theorem Applied.precedes (h : Applied previous m p) : Precedes p.pending p.completed := by
  obtain ⟨ph, ph', h₁, h₂, hr, hr'⟩ := h.shape
  rw [h₁, h₂]
  exact .inr ⟨rfl, le_rfl, rfl, fun hph => ⟨fun hp => hph (hr'.mpr (hr.mp hp)), rfl⟩⟩

/-- No opening of an epoch is accepted once the fence is revoked at it or past it. -/
theorem open_refused (hg : m.controlEpoch < g.controlEpoch ∨
    g.controlEpoch = m.controlEpoch ∧ g.phase = .revoked) (ho : m.operation = .open) :
    plan (some g) m now ≠ .ok p := by
  intro h
  obtain ⟨-, hle, -⟩ := follows_of_plan h
  rcases hg with hlt | ⟨heq, hrev⟩
  · omega
  · obtain ⟨hlive, -⟩ := live_of_plan h heq.symm (by simp [ho])
    simp [hrev] at hlive

end Plans

section Rows

/-- A message stems from an earlier epoch of the row, or from its current lease. -/
structure SentFor (row : AgentGuestSession) (m : Request) : Prop where
  pinned : row.pinned = true
  identity : m.identity = row.identity
  version : m.controlEpoch < row.controlEpoch ∨
    m.controlEpoch = row.controlEpoch ∧ m.leaseId = row.leaseId ∧
      (m.operation = .revoke → row.live = false ∧ m.loginGeneration = max 1 row.loginGeneration) ∧
      (m.operation ≠ .revoke → m.loginGeneration ≤ row.loginGeneration)

/-- A fence stems from an earlier epoch of the row, or from its current lease; beyond the row's
logins there is only the tombstone of a closed session. -/
structure FencedBy (row : AgentGuestSession) (f : Fence) : Prop where
  valid : f.validate = .ok ()
  pinned : row.pinned = true
  identity : f.identity = row.identity
  version : f.controlEpoch < row.controlEpoch ∨
    f.controlEpoch = row.controlEpoch ∧ f.leaseId = row.leaseId ∧
      f.loginGeneration ≤ max 1 row.loginGeneration ∧
      (row.loginGeneration < f.loginGeneration → f.phase = .revoked ∧ row.live = false)

theorem SentFor.fencedBy (hm : SentFor row m) (h : Applied previous m p) :
    FencedBy row p.pending ∧ FencedBy row p.completed := by
  have key : ∀ ph, (ph = .revoked ↔ m.operation = .revoke) → (m.fence ph).validate = .ok () →
      FencedBy row (m.fence ph) := by
    intro ph hr hv
    refine ⟨hv, hm.pinned, hm.identity, hm.version.imp_right ?_⟩
    rintro ⟨he, hl, hrev, hother⟩
    refine ⟨he, hl, ?_, fun hlt => ?_⟩
    · by_cases ho : m.operation = .revoke
      · exact (hrev ho).2.le
      · exact (hother ho).trans (le_max_right _ _)
    · by_cases ho : m.operation = .revoke
      · exact ⟨hr.mpr ho, (hrev ho).1⟩
      · exact absurd hlt (hother ho).not_gt
  obtain ⟨hv₁, hv₂⟩ := h.validate
  obtain ⟨ph, ph', h₁, h₂, hr, hr'⟩ := h.shape
  rw [h₁] at hv₁ ⊢
  rw [h₂] at hv₂ ⊢
  exact ⟨key ph hr hv₁, key ph' hr' hv₂⟩

theorem FencedBy.revoked (hf : FencedBy row f) : FencedBy row f.revoked := by
  refine ⟨?_, hf.pinned, hf.identity, hf.version.imp_right ?_⟩
  · obtain ⟨hi, hs, hl, hg, -⟩ := Fence.validate_iff.mp hf.valid
    exact Fence.validate_iff.mpr ⟨hi, hs, hl, hg, by simp [Fence.revoked]⟩
  · rintro ⟨he, hl, hg, hlt⟩
    exact ⟨he, hl, hg, fun h => ⟨rfl, (hlt h).2⟩⟩

theorem pinned_of_advances (ha : Advances row r) (hp : row.pinned = true) :
    r.pinned = true ∧ r.identity = row.identity := by
  obtain ⟨hu, hs⟩ := ha.pin hp
  refine ⟨?_, by simp [AgentGuestSession.identity, ha.username, hu, hs]⟩
  rwa [AgentGuestSession.pinned, hu, hs]

theorem SentFor.advance (hm : SentFor row m) (ha : Advances row r) : SentFor r m := by
  obtain ⟨hp, hi⟩ := pinned_of_advances ha hm.pinned
  refine ⟨hp, hm.identity.trans hi.symm, ?_⟩
  rcases hm.version with hlt | ⟨he, hl, hrev, hother⟩
  · rcases ha.version with ⟨-, he, -, -⟩ | ⟨-, he, -, -, -⟩ | ⟨-, he, -⟩ <;> omega
  · rcases ha.version with ⟨hl', he', hg, hlive⟩ | ⟨hl', he', hg, hlive, -⟩ | ⟨-, he', -⟩
    · refine .inr ⟨by omega, hl.trans hl'.symm, fun ho => ?_, fun ho => by rw [hg]; exact hother ho⟩
      rw [hg]
      refine ⟨eq_false_iff.mpr fun h => ?_, (hrev ho).2⟩
      simp [hlive h] at hrev
      exact hrev ho
    · refine .inr ⟨by omega, hl.trans hl'.symm, fun ho => ?_, fun ho => ?_⟩
      · simp [hlive] at hrev
        exact absurd ho hrev
      · have := hother ho
        omega
    · exact .inl (by omega)

theorem FencedBy.advance (hf : FencedBy row f) (ha : Advances row r) : FencedBy r f := by
  obtain ⟨hp, hi⟩ := pinned_of_advances ha hf.pinned
  refine ⟨hf.valid, hp, hf.identity.trans hi.symm, ?_⟩
  rcases hf.version with hlt | ⟨he, hl, hg, hover⟩
  · rcases ha.version with ⟨-, he, -, -⟩ | ⟨-, he, -, -, -⟩ | ⟨-, he, -⟩ <;> omega
  · rcases ha.version with ⟨hl', he', hg', hlive⟩ | ⟨hl', he', hg', hlive, -⟩ | ⟨-, he', -⟩
    · refine .inr ⟨by omega, hl.trans hl'.symm, by omega, fun hlt => ?_⟩
      obtain ⟨hph, hdead⟩ := hover (by omega)
      exact ⟨hph, eq_false_iff.mpr fun h => by simp [hlive h] at hdead⟩
    · have hle : f.loginGeneration ≤ row.loginGeneration := by
        by_contra hlt
        have := (hover (by omega)).2
        simp [hlive] at this
      exact .inr ⟨by omega, hl.trans hl'.symm, by omega, fun hlt => by omega⟩
    · exact .inl (by omega)

end Rows

/-- A row the store has written: constraints hold, the lease is one of the store's, a pinned
identity is valid, and a login has a pinned account. -/
structure RowOk (row : AgentGuestSession) : Prop where
  checks : row.checks = true
  account : row.pinned = true → validAccount row.osFamily row.guestUid row.guestSid = true
  lease : leaseIdentifier row.leaseId = true
  login : 0 < row.loginGeneration → row.pinned = true

/-- Messages, fences and receipts of the protocol, as a row and its remote fence. -/
def relation : Relation AgentGuestSession Request Fence Plan where
  Sent := SentFor
  Fenced := FencedBy
  Precedes := Precedes
  refl := .refl
  trans := .trans
  pending := Plan.pending
  completed := Plan.completed

def State.replica (s : State) : Replica AgentGuestSession Request Fence Plan :=
  ⟨s.row, s.sent, s.receipts, s.guest⟩

structure Inv (s : State) : Prop where
  row : ∀ row, s.row = some row → RowOk row
  coherent : relation.Coherent s.replica

theorem inv_init (hs : (protocol sha256).Init s) : Inv s := by
  obtain ⟨hrow, hsent, hrec, hguest⟩ := hs
  exact ⟨by simp [hrow], .empty hsent hrec hguest⟩

theorem Inv.advance (hi : Inv s) (hrow : s.row = some row) (ha : Advances row r) (hr : RowOk r) :
    Inv { s with row := some r } := by
  refine ⟨?_, hi.coherent.advance hrow (fun _ hm => hm.advance ha) fun _ hf => hf.advance ha⟩
  rintro _ ⟨⟩
  exact hr

theorem Inv.insert (hi : Inv s) (hrow : s.row = none) (hr : RowOk r) :
    Inv { s with row := some r } := by
  refine ⟨?_, hi.coherent.insert hrow⟩
  rintro _ ⟨⟩
  exact hr

theorem Inv.deliver (hi : Inv s) (hm : m ∈ s.sent) (ha : Applied s.guest.stored m p) :
    Inv (if p.observeOnly then { s with receipts := p.completed :: s.receipts }
      else { s with guest := ⟨some p.pending, some p⟩ }) := by
  split
  next ho => exact ⟨hi.row, hi.coherent.inspect (ha.observed ho)⟩
  · obtain ⟨row, hrow, hm⟩ := hi.coherent.sent m hm
    obtain ⟨hf₁, hf₂⟩ := SentFor.fencedBy hm ha
    exact ⟨hi.row, hi.coherent.accept (p := p) hrow hf₁ hf₂ ha.follows ha.precedes⟩

theorem sentFor_of_message {op : Operation} {password : Option Password} {observed : Option Fence}
    (h : message row op password observed = some m) (hr : RowOk row)
    (hv : validFor row.osFamily m now = true) : SentFor row m := by
  by_cases ho : op = .revoke
  · subst ho
    simp only [message] at h
    split at h
    next hst =>
      unfold revokeIntent at h
      split at h
      · cases h
      · cases h
        refine ⟨hst.2, rfl, .inr ⟨rfl, rfl, fun _ => ⟨?_, rfl⟩, fun hop => absurd rfl hop⟩⟩
        simp [AgentGuestSession.live, hst.1]
    · cases h
  · have h : (if row.live then some (agentAccountLease row op password) else none) = some m := by
      rcases op with _ | _ | _
      · exact h
      · exact h
      · exact absurd rfl ho
    split at h
    · cases h
      refine ⟨hr.login ?_, rfl, .inr ⟨rfl, rfl, fun hop => absurd hop ho, fun _ => le_rfl⟩⟩
      simp only [validFor, and_eq_true, decide_eq_true_eq] at hv
      exact hv.1.1.1.1.1.1.1.1
    · cases h

theorem inv_rowStep {a : RowAction} (hi : Inv s) (h : rowStep sha256 env s a = some r) :
    Inv { s with row := some r } := by
  cases a with
  | begin vmid lease =>
    simp only [rowStep] at h
    split at h
    case isFalse => cases h
    obtain ⟨-, hrow | hb⟩ := begin_ok (toOption_eq_some.mp h)
    · exact hi.advance hrow (.refl r) (hi.row r hrow)
    have hok (haccount : r.pinned = true → validAccount r.osFamily r.guestUid r.guestSid = true) :
        RowOk r :=
      ⟨(writeSession_ok hb.write).2.1, haccount, by rw [hb.leaseId]; exact lease.wellFormed,
        by simp [hb.login]⟩
    cases hrow : s.row with
    | none =>
      obtain ⟨huid, hsid⟩ := Prod.mk.inj (hrow ▸ hb.identity)
      refine hi.insert hrow (hok fun hp => ?_)
      simp [AgentGuestSession.pinned, huid, hsid] at hp
    | some row =>
      rw [hrow] at hb
      obtain ⟨huid, hsid⟩ := Prod.mk.inj hb.identity
      refine hi.advance hrow hb.advances (hok fun hp => ?_)
      rw [hb.advances.platform, huid, hsid]
      refine (hi.row row hrow).account ?_
      rwa [AgentGuestSession.pinned, huid, hsid] at hp
  | bind item revoking =>
    obtain ⟨row, hrow, h⟩ := bind_eq_some_iff.mp h
    obtain ⟨heq, hc, ha, hacc, -⟩ := bind_ok (toOption_eq_some.mp h)
    have hr := hi.row row hrow
    refine hi.advance hrow ha ⟨hc, fun _ => hacc, by rw [heq]; exact hr.lease, fun hg => ?_⟩
    rw [heq] at hg
    exact (pinned_of_advances ha (hr.login hg)).1
  | login item =>
    obtain ⟨row, hrow, h⟩ := bind_eq_some_iff.mp h
    obtain ⟨heq, hc, ha, -, hacc, hp, -⟩ := login_ok (toOption_eq_some.mp h)
    exact hi.advance hrow ha ⟨hc, fun _ => hacc, by rw [heq]; exact (hi.row row hrow).lease,
      fun _ => hp⟩
  | ready item =>
    obtain ⟨row, hrow, h⟩ := bind_eq_some_iff.mp h
    obtain ⟨rfl, hc, ha, -⟩ := ready_ok (toOption_eq_some.mp h)
    have hr := hi.row row hrow
    exact hi.advance hrow ha ⟨hc, hr.account, hr.lease, hr.login⟩
  | close leaseId =>
    obtain ⟨row, hrow, rfl⟩ := map_eq_some_iff.mp h
    have hr := hi.row row hrow
    refine hi.advance hrow (revokeAgentGuestSession_advances leaseId row) ?_
    unfold revokeAgentGuestSession
    split
    · refine ⟨?_, hr.account, hr.lease, hr.login⟩
      have hc := hr.checks
      simp only [AgentGuestSession.checks, and_eq_true] at hc ⊢
      exact ⟨hc.1, rfl⟩
    · exact hr
  | complete item unbound =>
    obtain ⟨row, hrow, h⟩ := bind_eq_some_iff.mp h
    split at h
    case isFalse => cases h
    obtain ⟨rfl, hc, ha, -⟩ := completeRevocation_ok (toOption_eq_some.mp h)
    have hr := hi.row row hrow
    exact hi.advance hrow ha ⟨hc, hr.account, hr.lease, hr.login⟩

theorem inv_step {a : Action} (hi : Inv s) (h : step sha256 s a = some t) : Inv t := by
  cases a with
  | store env a =>
    obtain ⟨r, hr, rfl⟩ := map_eq_some_iff.mp h
    exact inv_rowStep hi hr
  | send op password observed =>
    obtain ⟨row, hrow, h⟩ := bind_eq_some_iff.mp h
    obtain ⟨m, hm, h⟩ := bind_eq_some_iff.mp h
    split at h
    case isFalse => cases h
    case isTrue hv =>
      cases h
      exact ⟨hi.row, hi.coherent.send hrow (sentFor_of_message hm (hi.row row hrow) hv)⟩
  | deliver m login =>
    simp only [step] at h
    split at h
    case isFalse => cases h
    case isTrue hm =>
      obtain ⟨p, hp, rfl⟩ := map_eq_some_iff.mp h
      exact hi.deliver hm (applied_of_apply (toOption_eq_some.mp hp))
  | finish =>
    obtain ⟨p, hp, rfl⟩ := map_eq_some_iff.mp h
    exact ⟨hi.row, hi.coherent.finish hp⟩
  | downgrade =>
    obtain ⟨f, hf, rfl⟩ := map_eq_some_iff.mp h
    exact ⟨hi.row, hi.coherent.downgrade hf (precedes_revoked f) fun _ hf => hf.revoked⟩
  | inspect =>
    obtain ⟨f, hf, rfl⟩ := map_eq_some_iff.mp h
    exact ⟨hi.row, hi.coherent.inspect hf⟩
  | tick d =>
    cases h
    exact ⟨hi.row, hi.coherent⟩

theorem inv_of_reachable (hs : (protocol sha256).Reachable s) : Inv s :=
  hs.invariant (fun _ => inv_init) fun _ _ _ _ hi h => inv_step hi h

theorem receipts_step {a : Action} (h : step sha256 s a = some t) (hf : f ∈ s.receipts) :
    f ∈ t.receipts := by
  cases a with
  | store env a =>
    obtain ⟨r, -, rfl⟩ := map_eq_some_iff.mp h
    exact hf
  | send op password observed =>
    obtain ⟨row, -, h⟩ := bind_eq_some_iff.mp h
    obtain ⟨m, -, h⟩ := bind_eq_some_iff.mp h
    split at h
    · cases h
      exact hf
    · cases h
  | deliver m login =>
    simp only [step] at h
    split at h
    · obtain ⟨p, -, rfl⟩ := map_eq_some_iff.mp h
      split
      · exact List.mem_cons_of_mem _ hf
      · exact hf
    · cases h
  | finish =>
    obtain ⟨p, -, rfl⟩ := map_eq_some_iff.mp h
    exact List.mem_cons_of_mem _ hf
  | downgrade =>
    obtain ⟨f, -, rfl⟩ := map_eq_some_iff.mp h
    exact hf
  | inspect =>
    obtain ⟨f, -, rfl⟩ := map_eq_some_iff.mp h
    exact List.mem_cons_of_mem _ hf
  | tick d =>
    cases h
    exact hf

theorem precedes_of_receipt (hs : (protocol sha256).Reachable s)
    (h : (protocol sha256).Leads s t) (hf : f ∈ s.receipts) :
    ∃ g, t.guest.stored = some g ∧ Precedes f g := by
  have ht : f ∈ t.receipts := h.preserves (fun _ _ _ hf h => receipts_step h hf) hf
  exact (inv_of_reachable (hs.leads h)).coherent.receipts f ht

theorem validLease_of_rowOk (hr : RowOk row) : validLease row.leaseId row.controlEpoch = true := by
  have hc := hr.checks
  have hl := hr.lease
  simp only [AgentGuestSession.checks, and_eq_true] at hc
  simp only [leaseIdentifier, and_eq_true] at hl
  simp only [validLease, and_eq_true]
  obtain ⟨⟨⟨⟨⟨⟨⟨⟨-, hpos⟩, hmax⟩, -⟩, -⟩, -⟩, -⟩, -⟩, -⟩ := hc
  obtain ⟨⟨⟨hstart, hlo⟩, hhi⟩, hall⟩ := hl
  exact ⟨⟨⟨⟨⟨hpos, hmax⟩, hlo⟩, hhi⟩, hstart⟩, hall⟩

theorem validate_revokeRequest (hr : RowOk row) (hp : row.pinned = true) :
    (revokeRequest row).validate = .ok () := by
  have hc := hr.checks
  simp only [AgentGuestSession.checks, and_eq_true, decide_eq_true_eq] at hc
  obtain ⟨⟨⟨⟨⟨⟨⟨⟨hname, -⟩, -⟩, -⟩, -⟩, hlogin⟩, -⟩, -⟩, -⟩ := hc
  have hgen : validGeneration (max 1 row.loginGeneration) = true := by
    simp only [maxInt64] at hlogin
    simp only [validGeneration, and_eq_true, decide_eq_true_eq]
    omega
  rw [Request.validate, seq_eq_ok, ensure_eq_ok]
  refine ⟨validateFor_of_account hname (hr.account hp), ?_⟩
  simp [revokeRequest, agentAccountLease, validLease_of_rowOk hr, hgen]

theorem validFor_revokeRequest (hr : RowOk row) (hp : row.pinned = true) :
    validFor row.osFamily (revokeRequest row) now = true := by
  have hc := hr.checks
  have hl := hr.lease
  simp only [AgentGuestSession.checks, and_eq_true, decide_eq_true_eq] at hc
  simp only [leaseIdentifier, and_eq_true, decide_eq_true_eq] at hl
  have hname : (revokeRequest row).identity.validName "vca" = true := hc.1.1.1.1.1.1.1.1
  have hacc : validAccount row.osFamily (revokeRequest row).identity.uid
    (revokeRequest row).identity.sid = true := hr.account hp
  have hepoch : 1 ≤ row.controlEpoch := hc.1.1.1.1.1.1.1.2
  simp only [validFor, hname, hacc, and_eq_true, decide_eq_true_eq]
  exact ⟨⟨⟨⟨⟨⟨⟨⟨le_max_left _ _, trivial⟩, trivial⟩, hl.1.1.1⟩, hepoch⟩, hl.1.1.2⟩, rfl⟩, rfl⟩, rfl⟩

/-- The stored fence never keeps a worker from building the cleanup of a row. -/
theorem revokeIntent_eq_some (hf : ∀ f, previous = some f → FencedBy row f) :
    revokeIntent row previous = some (revokeRequest row) := by
  refine if_neg ?_
  rintro ⟨hzero, hobs⟩
  obtain ⟨f, rfl, hf'⟩ := (any_eq_true _ _).mp hobs
  simp only [and_eq_true, decide_eq_true_eq] at hf'
  have hfence := hf f rfl
  rcases hfence.version with hlt | ⟨he, hl, hg, hover⟩
  · omega
  · obtain ⟨-, hver, -, hgen, hexp⟩ := Fence.validate_iff.mp hfence.valid
    simp only [validGeneration, and_eq_true, decide_eq_true_eq] at hgen
    have hone : f.loginGeneration = max 1 row.loginGeneration := by omega
    have hid := hfence.identity
    cases f
    simp_all [revokedFence, revokeRequest, agentAccountLease, Request.fence]

/-- The Guest accepts the cleanup of every pinned row, whatever fence of the row it has. -/
theorem revoke_accepted (hr : RowOk row) (hp : row.pinned = true)
    (hf : ∀ f, previous = some f → FencedBy row f) :
    ∃ p, plan previous (revokeRequest row) now = .ok p := by
  refine ⟨_, plan_eq_ok_iff.mpr ⟨validate_revokeRequest hr hp, .inl rfl, fun f hf' => ?_, rfl⟩⟩
  have hfence := hf f hf'
  refine ⟨hfence.valid, follows_iff.mpr ⟨hfence.identity, ?_⟩⟩
  rcases hfence.version with hlt | ⟨he, hl, hg, -⟩
  · exact ⟨hlt.le, fun heq => absurd heq hlt.ne'⟩
  · exact ⟨he.le, fun _ => ⟨hl.symm, hg⟩⟩

/-- Agreement of the database and the Guest on an agent account: the fence never comes after the
row, and the cleanup of a pinned row is always accepted and final. -/
theorem agent_account_agreement (hs : (protocol sha256).Reachable s) :
    (∀ f, s.guest.stored = some f → ∃ row, s.row = some row ∧
      (f.controlEpoch < row.controlEpoch ∨ f.controlEpoch = row.controlEpoch ∧
        f.loginGeneration ≤ max 1 row.loginGeneration)) ∧
    (∀ row now, s.row = some row → row.state = .revoking → row.pinned = true →
      revokeIntent row s.guest.stored = some (revokeRequest row) ∧
      validFor row.osFamily (revokeRequest row) now = true ∧
      ∃ p, plan s.guest.stored (revokeRequest row) now = .ok p) ∧
    (∀ env item unbound row t u, s.row = some row →
      (protocol sha256).step s (.store env (.complete item unbound)) = some t →
      0 < row.loginGeneration →
      (protocol sha256).Leads t u →
      (∃ g, u.guest.stored = some g ∧ (row.controlEpoch < g.controlEpoch ∨
        g.controlEpoch = row.controlEpoch ∧ g.phase = .revoked)) ∧
      ∀ m now p, m.operation = .open → m.controlEpoch = row.controlEpoch →
        plan u.guest.stored m now ≠ .ok p) := by
  have hi := inv_of_reachable hs
  refine ⟨fun f hf => ?_, fun row now hrow _ hp => ?_, ?_⟩
  · obtain ⟨row, hrow, hfence⟩ := hi.coherent.stored f hf
    exact ⟨row, hrow, hfence.version.imp_right fun h => ⟨h.1, h.2.2.1⟩⟩
  · have hr := hi.row row hrow
    have hf : ∀ f, s.guest.stored = some f → FencedBy row f := by
      intro f hf
      obtain ⟨row', hrow', hfence⟩ := hi.coherent.stored f hf
      cases hrow.symm.trans hrow'
      exact hfence
    exact ⟨revokeIntent_eq_some hf, validFor_revokeRequest hr hp, revoke_accepted hr hp hf⟩
  · intro env item unbound row t u hrow h hpos hlead
    have hrec : revokedFence item ∈ s.receipts ∧ row.controlEpoch = item.controlEpoch := by
      obtain ⟨r, hr, -⟩ := map_eq_some_iff.mp h
      obtain ⟨row', hrow', hr⟩ := bind_eq_some_iff.mp hr
      cases hrow.symm.trans hrow'
      split at hr
      case isFalse => cases hr
      case isTrue hcase =>
        obtain ⟨-, -, -, hsame, -⟩ := completeRevocation_ok (toOption_eq_some.mp hr)
        simp only [AgentGuestSession.sameVersion, and_eq_true, beq_iff_eq] at hsame
        refine ⟨hcase.resolve_left ?_, hsame.2⟩
        omega
    obtain ⟨g, hg, hpre⟩ :=
      precedes_of_receipt hs ((Machine.Leads.of_step h).trans hlead) hrec.1
    have hclosed : row.controlEpoch < g.controlEpoch ∨
        g.controlEpoch = row.controlEpoch ∧ g.phase = .revoked := by
      rw [hrec.2]
      rcases hpre with hlt | ⟨heq, -, -, hph⟩
      · exact .inl hlt
      · refine .inr ⟨heq.symm, ?_⟩
        by_contra hne
        exact (hph hne).1 rfl
    refine ⟨⟨g, hg, hclosed⟩, fun m now p ho he => ?_⟩
    rw [hg]
    exact open_refused (he ▸ hclosed) ho

section Sample

/-- An environment in which every store operation on the row is admitted. -/
def sampleEnv : SessionEnv := ⟨true, .linux, false, false, false, false⟩

def sampleLease : DesktopLease := ⟨"lease_example", "agent", .active, 1, 200000000, Eq.refl true⟩

def sampleSession (login uid : ℕ) (state : AgentSessionState) : AgentGuestSession :=
  ⟨100, "agent", "vca000000000000", .linux, "lease_example", 1, 1, login, state, uid, "", "", "",
    200000000⟩

/-- An account is bound, logged in and revoked again, up to the receipt of the revocation. -/
def sampleRun : List Action :=
  let password : Option Password := some ⟨"Vcw1!long-disposable-password"⟩
  [.store sampleEnv (.begin 100 sampleLease),
    .store sampleEnv (.bind (sampleSession 0 1001 .provisioning) false),
    .store sampleEnv (.login (sampleSession 0 1001 .provisioning)),
    .send .open password none,
    .deliver (agentAccountLease (sampleSession 1 1001 .provisioning) .open password) true, .finish,
    .store sampleEnv (.close "lease_example"), .send .revoke none none,
    .deliver (revokeRequest (sampleSession 1 1001 .revoking)) false, .finish]

/-- After the sample run the completed cleanup keeps the epoch closed. -/
theorem agent_account_agreement_disabled : ∃ s t, (protocol sampleDigest).Reachable s ∧
      (protocol sampleDigest).step s
        (.store sampleEnv (.complete (sampleSession 1 1001 .revoking) false)) = some t ∧
      t.row = some (sampleSession 1 1001 .disabled) ∧
      ∃ g, t.guest.stored = some g ∧ (1 < g.controlEpoch ∨
        g.controlEpoch = 1 ∧ g.phase = .revoked) := by
  obtain ⟨s, hs, hrow, hstep⟩ : ∃ s, (protocol sampleDigest).Reachable s ∧
      s.row = some (sampleSession 1 1001 .revoking) ∧
      ((protocol sampleDigest).step s
        (.store sampleEnv (.complete (sampleSession 1 1001 .revoking) false))).any
          (fun t => t.row = some (sampleSession 1 1001 .disabled)) = true :=
    Machine.exists_reachable_of_run ⟨0, none, [], [], ⟨none, none⟩⟩ sampleRun
      ⟨rfl, rfl, rfl, rfl⟩ (by decide)
  obtain ⟨t, ht, hdis⟩ := (any_eq_true _ _).mp hstep
  exact ⟨s, t, hs, ht, of_decide_eq_true hdis,
    ((agent_account_agreement hs).2.2 _ _ _ _ t t hrow ht (by decide) (.refl t)).1⟩

end Sample

end VcWorkspace.Protocol.AgentCredential
