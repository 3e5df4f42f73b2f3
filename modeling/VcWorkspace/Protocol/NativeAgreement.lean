import VcWorkspace.Protocol.NativeCredential
import VcWorkspace.Transition.Replica

/-! # Agreement of the row and the Guest fence

The fence always stems from an intent the row held before or holds now, and it
never falls behind a receipt. From these two facts the settled revocation, the
acceptance of every pending revocation and the refusal of old messages follow.
-/

namespace VcWorkspace.Protocol.NativeCredential

open Transition Guest Guest.Native Store Option Bool

variable {sha256 : Sha256} {s t : State} {row r : NativeGuestRow} {f g h : Fence}
  {m : Request} {p : Plan} {now : ℕ} {op : NativeOperation}

section Fences

/-- How a stored fence may change: a later revision, or the same one with retirement and
revocation kept. -/
def Supersedes (f g : Fence) : Prop :=
  f.revision < g.revision ∨ f.revision = g.revision ∧
    (f.phase = .retired → g.phase = .retired ∨ g.phase = .revoked) ∧
    (f.phase = .revoked → g.phase = .revoked)

theorem Supersedes.refl (f : Fence) : Supersedes f f := .inr ⟨rfl, .inl, id⟩

theorem Supersedes.trans (h₁ : Supersedes f g) (h₂ : Supersedes g h) : Supersedes f h := by
  rcases h₁ with h₁ | ⟨he, hr, hv⟩ <;> rcases h₂ with h₂ | ⟨he', hr', hv'⟩
  · exact .inl (h₁.trans h₂)
  · exact .inl (h₁.trans_eq he')
  · exact .inl (he.trans_lt h₂)
  · refine .inr ⟨he.trans he', fun hf => ?_, fun hf => hv' (hv hf)⟩
    rcases hr hf with hg | hg
    · exact hr' hg
    · exact .inr (hv' hg)

theorem Supersedes.revision_le (h : Supersedes f g) : f.revision ≤ g.revision := by
  rcases h with h | h
  · exact h.le
  · exact h.1.le

/-- An accepted plan that is not a mere observation supersedes the stored fence. -/
theorem supersedes_of_plan (hp : plan (some f) m now = .ok p) (ho : p.observeOnly = false) :
    Supersedes f p.pending := by
  have hle := revision_le_of_plan hp
  obtain ⟨hrev, -⟩ := revision_of_plan hp
  rcases hle.lt_or_eq with hlt | heq
  · exact .inl hlt
  refine .inr ⟨heq, ?_⟩
  cases hop : m.operation
  case issue =>
    have := (issue_of_plan hp hop).1
    omega
  case retire =>
    obtain ⟨old, hold, -, -, hph, rfl⟩ := retire_of_plan hp hop
    cases hold
    rcases hph with ⟨-, hnext⟩ | ⟨hret, -⟩
    · omega
    · simp [hret] at ho
  case revoke =>
    obtain ⟨ph, -, h₁, -, hr, -⟩ := plan_shape hp
    have hph : p.pending.phase = .revoked := by rw [h₁]; exact hr.mpr hop
    exact ⟨fun _ => .inr hph, fun _ => hph⟩

theorem phases_of_plan {previous : Option Fence} (hp : plan previous m now = .ok p) :
    p.pending = m.fence p.pending.phase ∧ p.completed = m.fence p.completed.phase ∧
      (m.operation = .issue ∧ p.pending.phase = .issuing ∧ p.completed.phase = .issued ∨
        m.operation = .retire ∧ p.pending.phase = .retiring ∧ p.completed.phase = .retired ∨
        m.operation = .revoke ∧ p.pending.phase = .revoked ∧ p.completed.phase = .revoked) := by
  have ha := (plan_eq_ok_iff.mp hp).2.2.2
  cases hop : m.operation <;> rw [Answers, hop] at ha
  · obtain ⟨-, rfl⟩ := ha
    exact ⟨rfl, rfl, .inl ⟨rfl, rfl, rfl⟩⟩
  · obtain ⟨_, -, -, rfl⟩ := ha
    exact ⟨rfl, rfl, .inr (.inl ⟨rfl, rfl, rfl⟩)⟩
  · obtain ⟨-, rfl⟩ := ha
    exact ⟨rfl, rfl, .inr (.inr ⟨rfl, rfl, rfl⟩)⟩

theorem supersedes_completed {previous : Option Fence} (hp : plan previous m now = .ok p) :
    Supersedes p.pending p.completed := by
  obtain ⟨hpen, hcom, hph⟩ := phases_of_plan hp
  obtain ⟨h₁, h₂⟩ := revision_of_plan hp
  refine .inr ⟨h₁.trans h₂.symm, ?_⟩
  rcases hph with ⟨-, hf, hg⟩ | ⟨-, hf, hg⟩ | ⟨-, hf, hg⟩ <;> simp [hf, hg]

theorem supersedes_revoked (f : Fence) : Supersedes f f.revoked :=
  .inr ⟨rfl, fun _ => .inr rfl, fun _ => rfl⟩

end Fences

section Rows

/-- A message stems from an earlier intent of the row, or carries the one it holds. -/
def SentFor (row : NativeGuestRow) (m : Request) : Prop :=
  m.identity = row.identity ∧ (m.revision < row.revision ∨
    ∃ op pw, column op = row.operation ∧
      m = credentialRequest row.toNativeGuestAccount op pw)

/-- A fence stems from an earlier intent of the row, or pursues the one it holds. -/
structure FencedBy (row : NativeGuestRow) (f : Fence) : Prop where
  valid : f.validate = .ok ()
  identity : f.identity = row.identity
  revision : f.revision ≤ row.revision
  current : f.revision = row.revision → f.connectionId = row.connectionId ∧
    (f.phase = .revoked ∨ f.expiresUnixSeconds = expiresUnixSeconds row.toNativeGuestAccount ∧
      (row.operation = .issue ∧ (f.phase = .issuing ∨ f.phase = .issued) ∨
        row.operation = .retire ∧ (f.phase = .retiring ∨ f.phase = .retired)))

theorem SentFor.revision_le (hm : SentFor row m) : m.revision ≤ row.revision := by
  rcases hm.2 with hlt | ⟨op, pw, -, rfl⟩
  · exact hlt.le
  · exact le_rfl

theorem SentFor.fencedBy {previous : Option Fence} (hm : SentFor row m)
    (hp : plan previous m now = .ok p) : FencedBy row p.pending ∧ FencedBy row p.completed := by
  obtain ⟨hv₁, hv₂⟩ := validate_of_plan hp
  obtain ⟨hpen, hcom, hph⟩ := phases_of_plan hp
  have key : ∀ f : Fence, f.validate = .ok () → f = m.fence f.phase →
      (m.operation = .issue ∧ (f.phase = .issuing ∨ f.phase = .issued) ∨
        m.operation = .retire ∧ (f.phase = .retiring ∨ f.phase = .retired) ∨
        f.phase = .revoked) → FencedBy row f := by
    intro f hv hf hcase
    refine ⟨hv, by rw [hf]; exact hm.1, by rw [hf]; exact hm.revision_le, fun hrev => ?_⟩
    have hrev' : m.revision = row.revision := by rw [hf] at hrev; exact hrev
    rcases hm.2 with hlt | ⟨op, pw, hop, rfl⟩
    · omega
    refine ⟨by rw [hf]; rfl, ?_⟩
    have hexp : f.expiresUnixSeconds = expiresUnixSeconds row.toNativeGuestAccount := by
      rw [hf]; rfl
    rcases hcase with ⟨ho, hcase⟩ | ⟨ho, hcase⟩ | hcase
    · obtain rfl : op = .issue := ho
      exact .inr ⟨hexp, .inl ⟨hop.symm, hcase⟩⟩
    · obtain rfl : op = .retire := ho
      exact .inr ⟨hexp, .inr ⟨hop.symm, hcase⟩⟩
    · exact .inl hcase
  refine ⟨key _ hv₁ hpen ?_, key _ hv₂ hcom ?_⟩ <;>
    rcases hph with ⟨ho, h₁, h₂⟩ | ⟨ho, h₁, h₂⟩ | ⟨ho, h₁, h₂⟩ <;> simp [ho, h₁, h₂]

theorem FencedBy.revoked (hf : FencedBy row f) : FencedBy row f.revoked := by
  refine ⟨?_, hf.identity, hf.revision, fun hrev => ⟨(hf.current hrev).1, .inl rfl⟩⟩
  obtain ⟨hi, hs, hc, hg, -⟩ := Fence.validate_iff.mp hf.valid
  exact Fence.validate_iff.mpr ⟨hi, hs, hc, hg, by simp [Fence.revoked]⟩

theorem identity_eq_of_samePin {a b : NativeGuestAccount} (h : a.samePin b = true) :
    a.identity = b.identity := by
  obtain ⟨-, -, h₁, -, h₂, h₃⟩ := NativeGuestAccount.samePin_iff.mp h
  simp [NativeGuestAccount.identity, h₁, h₂, h₃]

structure Advances (row r : NativeGuestRow) : Prop where
  pin : r.toNativeGuestAccount.samePin row.toNativeGuestAccount = true
  revision : r.revision = row.revision + 1
  state : r.state = .pending

theorem SentFor.advance (ha : Advances row r) (hm : SentFor row m) : SentFor r m := by
  refine ⟨hm.1.trans (identity_eq_of_samePin ha.pin).symm, .inl ?_⟩
  have := hm.revision_le
  have := ha.revision
  omega

theorem FencedBy.advance (ha : Advances row r) (hf : FencedBy row f) : FencedBy r f := by
  have hlt : f.revision < r.revision := by
    have := hf.revision
    have := ha.revision
    omega
  exact ⟨hf.valid, hf.identity.trans (identity_eq_of_samePin ha.pin).symm, hlt.le,
    fun heq => absurd heq hlt.ne⟩

end Rows

/-- A row the store has written: its constraints hold and its deadline is in whole seconds. -/
structure RowOk (sha256 : Sha256) (row : NativeGuestRow) : Prop where
  checks : row.checks = true
  identity : row.validIdentity sha256 = true
  bound : row.revision ≤ maxInt64
  seconds : ∀ e, row.expiresAt = some e → e % 1000000 = 0

/-- Messages, fences and receipts of the protocol, as a row and its remote fence. -/
def relation : Relation NativeGuestRow Request Fence Plan where
  Sent := SentFor
  Fenced := FencedBy
  Precedes := Supersedes
  refl := .refl
  trans := .trans
  pending := Plan.pending
  completed := Plan.completed

def State.replica (s : State) : Replica NativeGuestRow Request Fence Plan :=
  ⟨s.row, s.sent, s.receipts, s.guest⟩

structure Inv (sha256 : Sha256) (s : State) : Prop where
  row : ∀ row, s.row = some row → RowOk sha256 row
  coherent : relation.Coherent s.replica
  applied : ∀ row, s.row = some row → row.state = .applied → ∃ g, s.guest.stored = some g ∧
    g.revision = row.revision ∧
    (row.operation = .retire → g.phase = .retired ∨ g.phase = .revoked)

theorem inv_init (hs : (protocol sha256).Init s) : Inv sha256 s := by
  obtain ⟨hrow, hsent, hrec, hguest⟩ := hs
  exact ⟨by simp [hrow], .empty hsent hrec hguest, by simp [hrow]⟩

theorem Inv.fencedBy (hi : Inv sha256 s) (hrow : s.row = some row) (hf : s.guest.stored = some f) :
    FencedBy row f := by
  obtain ⟨row', hrow', hfr⟩ := hi.coherent.stored f hf
  cases hrow.symm.trans hrow'
  exact hfr

theorem Inv.advance (hi : Inv sha256 s) (hrow : s.row = some row) (ha : Advances row r)
    (hr : RowOk sha256 r) : Inv sha256 { s with row := some r } where
  row := by rintro _ ⟨⟩; exact hr
  coherent := hi.coherent.advance hrow (fun _ hm => hm.advance ha) fun _ hf => hf.advance ha
  applied := by
    rintro _ ⟨⟩ hst
    simp [ha.state] at hst

theorem Inv.guest (hi : Inv sha256 s) {guest : Journal Fence Plan} {receipts : List Fence}
    (hcoh : relation.Coherent { s.replica with guest := guest, receipts := receipts })
    (hsup : ∀ f, s.guest.stored = some f → ∃ g, guest.stored = some g ∧ Supersedes f g) :
    Inv sha256 { s with guest := guest, receipts := receipts } where
  row := hi.row
  coherent := hcoh
  applied row hrow hst := by
    obtain ⟨f, hf, hrev, hph⟩ := hi.applied row hrow hst
    obtain ⟨g, hg, hfg⟩ := hsup f hf
    obtain ⟨row', hrow', hfr⟩ := hcoh.stored g hg
    cases hrow.symm.trans hrow'
    refine ⟨g, hg, ?_⟩
    have hle : g.revision ≤ row.revision := FencedBy.revision hfr
    rcases hfg with hlt | ⟨heq, hret, hrevoked⟩
    · omega
    · refine ⟨heq.symm.trans hrev, fun hop => ?_⟩
      rcases hph hop with hph | hph
      · exact hret hph
      · exact .inr (hrevoked hph)

theorem Inv.bind_insert (hi : Inv sha256 s) (hrow : s.row = none)
    (hr : RowOk sha256 r) (hst : r.state = .idle) : Inv sha256 { s with row := some r } := by
  refine ⟨?_, hi.coherent.insert hrow, ?_⟩
  · rintro _ ⟨⟩
    exact hr
  · rintro _ ⟨⟩ happ
    simp [hst] at happ

theorem Inv.intent {env : NativeEnv} (hi : Inv sha256 s) (hrow : s.row = some row)
    (hr : Intent sha256 env now row r) (hsec : ∀ e, r.expiresAt = some e → e % 1000000 = 0) :
    Inv sha256 { s with row := some r } := by
  refine hi.advance hrow ⟨hr.pin, hr.revision, hr.state⟩
    ⟨hr.checks, NativeGuestAccount.samePin.validIdentity hr.pin hr.identity, ?_, hsec⟩
  have := (hi.row row hrow).bound
  have := hr.bound
  have := hr.revision
  omega

theorem Inv.cleaningUp {env : NativeEnv} (hi : Inv sha256 s) (hrow : s.row = some row)
    (hr : CleaningUp sha256 env now row op r) : Inv sha256 { s with row := some r } := by
  refine hi.intent hrow hr.toIntent fun e he => ?_
  rw [hr.expires] at he
  split at he
  · cases he
  · exact (hi.row row hrow).seconds e he

theorem Inv.complete (hi : Inv sha256 s) (hrow : s.row = some row)
    (hc : ({ row with state := .applied, nativeSessionDigest := none } : NativeGuestRow).checks =
      true)
    (hg : ∃ g, s.guest.stored = some g ∧ row.revision ≤ g.revision ∧
      (g.revision = row.revision → row.operation = .retire →
        g.phase = .retired ∨ g.phase = .revoked)) :
    Inv sha256 { s with
      row := some { row with state := .applied, nativeSessionDigest := none } } where
  row := by
    rintro _ ⟨⟩
    have hr := hi.row row hrow
    exact ⟨hc, hr.identity, hr.bound, hr.seconds⟩
  coherent := hi.coherent.advance hrow (fun _ hm => hm)
    fun _ hf => ⟨hf.valid, hf.identity, hf.revision, hf.current⟩
  applied := by
    rintro _ ⟨⟩ -
    obtain ⟨g, hst, hge, hph⟩ := hg
    have heq : g.revision = row.revision := le_antisymm (hi.fencedBy hrow hst).revision hge
    exact ⟨g, hst, heq, hph heq⟩

theorem Inv.deliver (hi : Inv sha256 s) (hm : m ∈ s.sent) (hp : plan s.guest.stored m now = .ok p) :
    Inv sha256 (if p.observeOnly then { s with receipts := p.completed :: s.receipts }
      else { s with guest := ⟨some p.pending, some p⟩ }) := by
  split
  case isTrue ho =>
    exact hi.guest (hi.coherent.inspect (observeOnly_of_plan hp ho)) fun f hf => ⟨f, hf, .refl f⟩
  case isFalse ho =>
    obtain ⟨row, hrow, hm⟩ := hi.coherent.sent m hm
    obtain ⟨hf₁, hf₂⟩ := SentFor.fencedBy hm hp
    have hsup : ∀ f, s.guest.stored = some f → Supersedes f p.pending := fun f hf =>
      supersedes_of_plan (hf ▸ hp) (by simpa using ho)
    exact hi.guest (hi.coherent.accept (p := p) hrow hf₁ hf₂ hsup (supersedes_completed hp))
      fun f hf => ⟨_, rfl, hsup f hf⟩

theorem Inv.finish (hi : Inv sha256 s) (hp : s.guest.inFlight = some p) :
    Inv sha256
      { s with guest := ⟨some p.completed, none⟩, receipts := p.completed :: s.receipts } := by
  obtain ⟨hst, hsup, -⟩ := hi.coherent.inFlight p hp
  refine hi.guest (hi.coherent.finish hp) fun f hf => ⟨_, rfl, ?_⟩
  cases hst.symm.trans hf
  exact hsup

theorem Inv.downgrade (hi : Inv sha256 s) (hf : s.guest.stored = some f) :
    Inv sha256 { s with guest := ⟨some f.revoked, none⟩ } := by
  refine hi.guest (hi.coherent.downgrade hf (supersedes_revoked f) fun _ hf => hf.revoked)
    fun f' hf' => ⟨_, rfl, ?_⟩
  cases hf.symm.trans hf'
  exact supersedes_revoked f

theorem sentFor_of_send {op : Operation} {pw : Option Password} (hs : sendable row op = true)
    (hm : changeNativeCredential row.toNativeGuestAccount op pw now = some m) : SentFor row m := by
  obtain ⟨-, rfl⟩ := changeNativeCredential_eq_some.mp hm
  simp only [sendable, and_eq_true, beq_iff_eq] at hs
  exact ⟨rfl, .inr ⟨op, pw, hs.1.symm, rfl⟩⟩

theorem inv_rowStep {env : NativeEnv} {a : RowAction} (hi : Inv sha256 s)
    (h : rowStep sha256 env s a = some r) : Inv sha256 { s with row := some r } := by
  cases a with
  | bind a digest =>
    simp only [rowStep] at h
    split at h
    case isFalse => cases h
    rw [toOption_eq_some] at h
    cases hrow : s.row with
    | none =>
      rw [hrow] at h
      obtain ⟨hc, hv, hrev, hst, hexp, -⟩ := bind_insert_spec h
      exact hi.bind_insert hrow ⟨hc, hv, hrev ▸ Nat.zero_le _, by simp [hexp]⟩ hst
    | some row =>
      rw [hrow] at h
      rw [bind_update_spec h, ← hrow]
      exact hi
  | issue a connectionId expiresAt digest =>
    obtain ⟨row, hrow, h⟩ := bind_eq_some_iff.mp h
    have hs := begin_spec (toOption_eq_some.mp h)
    refine hi.intent hrow hs.toIntent fun e he => ?_
    cases hs.expires.symm.trans he
    exact hs.deadline.2.2
  | retire a =>
    obtain ⟨row, hrow, h⟩ := bind_eq_some_iff.mp h
    exact hi.cleaningUp hrow (retire_spec (toOption_eq_some.mp h)).1
  | revoke a =>
    obtain ⟨row, hrow, h⟩ := bind_eq_some_iff.mp h
    exact hi.cleaningUp hrow (revoke_spec (toOption_eq_some.mp h)).1
  | complete a op =>
    obtain ⟨row, hrow, h⟩ := bind_eq_some_iff.mp h
    split at h
    case isFalse => cases h
    case isTrue hrec =>
      obtain ⟨hop, hrec⟩ := hrec
      obtain ⟨rfl, hc, -, -, hrev, hop', -, -⟩ := complete_spec (toOption_eq_some.mp h)
      refine hi.complete hrow hc ?_
      obtain ⟨g, hg, hsup⟩ := hi.coherent.receipts _ hrec
      have hle : a.revision ≤ g.revision := hsup.revision_le
      refine ⟨g, hg, hrev ▸ hle, fun heq hret => ?_⟩
      rcases hsup with hlt | ⟨-, hretired, -⟩
      · have hlt' : a.revision < g.revision := hlt
        omega
      · refine hretired ?_
        have hcol : column op = .retire := hop.symm.trans (hop'.symm.trans hret)
        cases op <;> simp [column] at hcol
        rfl

theorem inv_step {a : Action} (hi : Inv sha256 s) (h : step sha256 s a = some t) :
    Inv sha256 t := by
  cases a with
  | store env a =>
    obtain ⟨r, hr, rfl⟩ := map_eq_some_iff.mp h
    exact inv_rowStep hi hr
  | send op pw =>
    obtain ⟨row, hrow, h⟩ := bind_eq_some_iff.mp h
    split at h
    case isFalse => cases h
    case isTrue hs =>
      obtain ⟨m, hm, rfl⟩ := map_eq_some_iff.mp h
      exact ⟨hi.row, hi.coherent.send hrow (sentFor_of_send hs hm), hi.applied⟩
  | deliver m =>
    simp only [step] at h
    split at h
    case isFalse => cases h
    case isTrue hm =>
      obtain ⟨p, hp, rfl⟩ := map_eq_some_iff.mp h
      exact hi.deliver hm (toOption_eq_some.mp hp)
  | finish =>
    obtain ⟨p, hp, rfl⟩ := map_eq_some_iff.mp h
    exact hi.finish hp
  | downgrade =>
    obtain ⟨f, hf, rfl⟩ := map_eq_some_iff.mp h
    exact hi.downgrade hf
  | inspect =>
    obtain ⟨f, hf, rfl⟩ := map_eq_some_iff.mp h
    exact hi.guest (hi.coherent.inspect hf) fun f hf => ⟨f, hf, .refl f⟩
  | tick d =>
    cases h
    exact ⟨hi.row, hi.coherent, hi.applied⟩

theorem inv_of_reachable (hs : (protocol sha256).Reachable s) : Inv sha256 s :=
  hs.invariant (fun _ => inv_init) fun _ _ _ _ hi h => inv_step hi h

section Results

variable {a : Action} {op : Operation} {pw : Option Password}

theorem supersedes_step (hi : Inv sha256 s) (h : step sha256 s a = some t) (f : Fence)
    (hf : s.guest.stored = some f) : ∃ g, t.guest.stored = some g ∧ Supersedes f g := by
  have hsame : t.guest.stored = s.guest.stored → ∃ g, t.guest.stored = some g ∧ Supersedes f g :=
    fun heq => ⟨f, heq.trans hf, .refl f⟩
  cases a with
  | store env a =>
    obtain ⟨r, -, rfl⟩ := map_eq_some_iff.mp h
    exact hsame rfl
  | send op pw =>
    obtain ⟨row, -, h⟩ := bind_eq_some_iff.mp h
    split at h
    · obtain ⟨m, -, rfl⟩ := map_eq_some_iff.mp h
      exact hsame rfl
    · cases h
  | deliver m =>
    simp only [step] at h
    split at h
    case isFalse => cases h
    obtain ⟨p, hp, rfl⟩ := map_eq_some_iff.mp h
    split
    case isTrue => exact ⟨f, hf, .refl f⟩
    case isFalse ho =>
      rw [toOption_eq_some, hf] at hp
      exact ⟨p.pending, rfl, supersedes_of_plan hp (by simpa using ho)⟩
  | finish =>
    obtain ⟨p, hp, rfl⟩ := map_eq_some_iff.mp h
    obtain ⟨hst, hsup, -⟩ := hi.coherent.inFlight p hp
    cases hf.symm.trans hst
    exact ⟨p.completed, rfl, hsup⟩
  | downgrade =>
    obtain ⟨f', hf', rfl⟩ := map_eq_some_iff.mp h
    cases hf.symm.trans hf'
    exact ⟨f.revoked, rfl, supersedes_revoked f⟩
  | inspect =>
    obtain ⟨f', -, rfl⟩ := map_eq_some_iff.mp h
    exact hsame rfl
  | tick d =>
    cases h
    exact hsame rfl

theorem supersedes_of_leads (hs : (protocol sha256).Reachable s)
    (h : (protocol sha256).Leads s t) (hf : s.guest.stored = some f) :
    ∃ g, t.guest.stored = some g ∧ Supersedes f g := by
  refine h.relates (P := Inv sha256)
    (R := fun s t => ∀ f, s.guest.stored = some f → ∃ g, t.guest.stored = some g ∧ Supersedes f g)
    (fun _ f hf => ⟨f, hf, .refl f⟩) (fun _ _ _ h₁ h₂ f hf => ?_)
    (fun _ _ _ hi h => inv_step hi h) (fun _ _ _ hi h => supersedes_step hi h)
    (inv_of_reachable hs) f hf
  obtain ⟨g, hg, hfg⟩ := h₁ f hf
  obtain ⟨h, hh, hgh⟩ := h₂ g hg
  exact ⟨h, hh, hfg.trans hgh⟩

theorem refused_after_revoked (hsup : Supersedes f g) (hf : f.phase = .revoked)
    (hop : m.operation ≠ .revoke) (hle : m.revision ≤ f.revision) :
    plan (some g) m now ≠ .ok p := by
  intro hp
  have hfg := hsup.revision_le
  cases ho : m.operation
  case issue =>
    have := (issue_of_plan hp ho).1
    omega
  case retire =>
    obtain ⟨old, hold, -, -, hph, -⟩ := retire_of_plan hp ho
    cases hold
    rcases hsup with hlt | ⟨-, -, hrev⟩
    · omega
    · simp [hrev hf] at hph
  case revoke => exact hop ho

/-- An applied revocation of the row has its fence revoked at the same revision. -/
theorem revoked_of_applied (hi : Inv sha256 s) (hrow : s.row = some row)
    (hop : row.operation = .revoke) (hst : row.state = .applied) :
    ∃ f, s.guest.stored = some f ∧ f.phase = .revoked ∧ f.revision = row.revision := by
  obtain ⟨g, hg, hrev, -⟩ := hi.applied row hrow hst
  have hf := hi.fencedBy hrow hg
  refine ⟨g, hg, ?_, hrev⟩
  rcases (hf.current hrev).2 with hph | ⟨-, ⟨hop', -⟩ | ⟨hop', -⟩⟩
  · exact hph
  · simp [hop] at hop'
  · simp [hop] at hop'

theorem NativeGuestRow.shape (hc : row.checks = true) :
    (row.revision = 0 ∧ row.state = .idle ∧ row.operation = .none) ∨
      (0 < row.revision ∧ row.state ≠ .idle ∧ nativeConnectionId row.connectionId = true ∧
        (row.operation = .revoke → row.expiresAt = none)) := by
  simp only [NativeGuestRow.checks, and_eq_true, or_eq_true, beq_iff_eq, bne_iff_ne,
    decide_eq_true_eq, isNone_iff_eq_none] at hc
  rcases hc.1.2 with h | h
  · exact .inl ⟨h.1.1.1.1, h.1.1.2, h.1.1.1.2⟩
  · refine .inr ⟨h.1.1.1.1, h.1.1.2, h.1.2, fun hop => ?_⟩
    rcases h.2 with h' | h'
    · simp [hop] at h'
    · exact h'.2

theorem validate_credentialRequest (hi : Inv sha256 s) (hrow : s.row = some row)
    (hne : row.state ≠ .idle) (hop : match op with
      | .issue => pw.any Password.valid = true ∧
          validExpiry (expiresUnixSeconds row.toNativeGuestAccount) = true
      | .retire => pw = none ∧ validExpiry (expiresUnixSeconds row.toNativeGuestAccount) = true
      | .revoke => pw = none ∧ expiresUnixSeconds row.toNativeGuestAccount = 0) :
    (credentialRequest row.toNativeGuestAccount op pw).validate = .ok () := by
  obtain ⟨hc, hv, hb, -⟩ := hi.row row hrow
  have hid := validateIdentity_of_row hc hv
  rcases NativeGuestRow.shape hc with ⟨-, hidle, -⟩ | ⟨hpos, -, hconn, -⟩
  · exact absurd hidle hne
  have hconn := validConnection_of_nativeConnectionId hconn
  have hgen : validGeneration row.revision = true := by
    simp only [validGeneration, and_eq_true, decide_eq_true_eq]
    exact ⟨hpos, hb⟩
  unfold Request.validate
  cases op <;> simp_all [credentialRequest]

theorem compatible_of_inv (hi : Inv sha256 s) (hrow : s.row = some row) :
    Compatible s.guest.stored (credentialRequest row.toNativeGuestAccount op pw) := by
  intro f hf
  have hfr := hi.fencedBy hrow hf
  exact ⟨hfr.valid, hfr.identity, hfr.revision⟩

theorem revoke_accepted (hi : Inv sha256 s) (hrow : s.row = some row)
    (hop : row.operation = .revoke) (now : ℕ) :
    ∃ p, plan s.guest.stored (credentialRequest row.toNativeGuestAccount .revoke none) now =
      .ok p := by
  have hshape := NativeGuestRow.shape (hi.row row hrow).checks
  have hne : row.state ≠ .idle := by
    rcases hshape with ⟨-, -, ho⟩ | ⟨-, hne, -⟩
    · simp [hop] at ho
    · exact hne
  have hexp : row.expiresAt = none := by
    rcases hshape with ⟨-, -, ho⟩ | ⟨-, -, -, hexp⟩
    · simp [hop] at ho
    · exact hexp hop
  refine ⟨_, plan_eq_ok_iff.mpr ⟨validate_credentialRequest hi hrow hne
    ⟨rfl, by simp [expiresUnixSeconds, hexp]⟩, .inl rfl, compatible_of_inv hi hrow, ?_, rfl⟩⟩
  simp only [revocable, all_eq_true, or_eq_true, bne_iff_ne, and_eq_true,
    beq_iff_eq]
  intro f hf
  have hfr := hi.fencedBy hrow hf
  by_cases hrev : f.revision = row.revision
  · obtain ⟨hconn, hph⟩ := hfr.current hrev
    refine .inr ⟨hconn.symm, ?_⟩
    rcases hph with hph | ⟨-, ⟨ho, -⟩ | ⟨ho, -⟩⟩
    · exact hph
    · simp [hop] at ho
    · simp [hop] at ho
  · exact .inl fun heq => hrev heq.symm

theorem issuable_of_issued {env : NativeEnv} {a : NativeGuestAccount} {connectionId : String}
    {expiresAt : ℕ} (hi : Inv sha256 s) (hrow : s.row = some row)
    (hr : Issued sha256 env s.clock row a connectionId expiresAt r) :
    issuable s.guest.stored (credentialRequest r.toNativeGuestAccount .issue pw)
      (s.clock / 1000000) = true := by
  have hshape := NativeGuestRow.shape (hi.row row hrow).checks
  have hrev : (credentialRequest r.toNativeGuestAccount .issue pw).revision = row.revision + 1 :=
    hr.revision
  have hconn : (credentialRequest r.toNativeGuestAccount .issue pw).connectionId ≠
      row.connectionId := by
    change r.connectionId ≠ row.connectionId
    rw [hr.connection]
    exact hr.fresh
  rcases hr.settled with hidle | ⟨happ, hop⟩
  · have hzero : row.revision = 0 := by
      rcases hshape with ⟨hz, -⟩ | ⟨-, hne, -⟩
      · exact hz
      · exact absurd hidle hne
    cases hf : s.guest.stored with
    | none => simp [issuable, hrev, hzero]
    | some f =>
      have hfr := hi.fencedBy hrow hf
      have hgen := (Fence.validate_iff.mp hfr.valid).2.2.2.1
      simp only [validGeneration, and_eq_true, decide_eq_true_eq] at hgen
      have := hfr.revision
      omega
  · obtain ⟨g, hg, hgrev, hgret⟩ := hi.applied row hrow happ
    have hfr := hi.fencedBy hrow hg
    obtain ⟨hgconn, hgph⟩ := hfr.current hgrev
    simp only [issuable, hg, and_eq_true, beq_iff_eq, bne_iff_ne, or_eq_true]
    refine ⟨⟨by omega, by rw [hgconn]; exact hconn⟩, ?_⟩
    rcases hgph with hph | ⟨hexp, ⟨ho, -⟩ | ⟨ho, -⟩⟩
    · exact .inl hph
    · rcases hop with hop | hop <;> simp [ho] at hop
    · rcases hgret ho with hph | hph
      · refine .inr ⟨hph, ?_⟩
        obtain ⟨e, he, hlt⟩ := (any_eq_true _ _).mp (hr.retained ho)
        have hgexp : g.expiresUnixSeconds = e / 1000000 := by
          rw [hexp]
          simp [expiresUnixSeconds, he]
        have hsec := (hi.row row hrow).seconds e he
        simp only [decide_eq_true_eq] at hlt
        simp only [Fence.retained, hph, and_eq_true, decide_eq_true_eq]
        exact ⟨rfl, by omega⟩
      · exact .inl hph

theorem issue_accepted {env : NativeEnv} {a : NativeGuestAccount} {connectionId : String}
    {expiresAt : ℕ} {digest : List UInt8} (hi : Inv sha256 s)
    (h : step sha256 s (.store env (.issue a connectionId expiresAt digest)) = some t)
    (hr : t.row = some r)
    (hm : changeNativeCredential r.toNativeGuestAccount .issue pw t.clock = some m) :
    ∃ p, plan t.guest.stored m (t.clock / 1000000) = .ok p := by
  have hi' := inv_step hi h
  obtain ⟨r', hstep, rfl⟩ := map_eq_some_iff.mp h
  obtain rfl : r' = r := Option.some.inj hr
  obtain ⟨row, hrow, hbegin⟩ := bind_eq_some_iff.mp hstep
  have hs := begin_spec (toOption_eq_some.mp hbegin)
  obtain ⟨hv, rfl⟩ := changeNativeCredential_eq_some.mp hm
  simp only [validCredential, and_eq_true, decide_eq_true_eq, reduceCtorEq, if_false,
    if_true] at hv
  obtain ⟨⟨⟨-, hpos, hrange⟩, hwin⟩, hpw⟩ := hv
  have hwin : s.clock / 1000000 < expiresUnixSeconds r'.toNativeGuestAccount ∧
      expiresUnixSeconds r'.toNativeGuestAccount ≤ s.clock / 1000000 + 28800 := by
    simpa using hwin
  have hissue : issuable s.guest.stored (credentialRequest r'.toNativeGuestAccount .issue pw)
      (s.clock / 1000000) = true := issuable_of_issued hi hrow hs
  refine ⟨_, plan_eq_ok_iff.mpr ⟨validate_credentialRequest hi' rfl (by simp [hs.state])
    ⟨hpw, ?_⟩, .inr hwin, compatible_of_inv hi' rfl, hissue, rfl⟩⟩
  simp only [validExpiry, and_eq_true, decide_eq_true_eq]
  exact ⟨hpos, hrange⟩

/-- Agreement of the native credential protocol: the fence is not ahead of the row, a settled
revocation is final, and pending revocations and fresh issues are accepted. -/
theorem native_credential_agreement (hs : (protocol sha256).Reachable s) :
    (∀ f, s.guest.stored = some f → ∃ row, s.row = some row ∧ f.revision ≤ row.revision) ∧
    (∀ row, s.row = some row → row.operation = .revoke → row.state = .applied →
      (∃ f, s.guest.stored = some f ∧ f.phase = .revoked ∧ f.revision = row.revision) ∧
      ∀ t m now p, (protocol sha256).Leads s t → m.operation = .issue ∨ m.operation = .retire →
        m.revision ≤ row.revision → plan t.guest.stored m now ≠ .ok p) ∧
    (∀ row now, s.row = some row → row.operation = .revoke → row.state = .pending →
      ∃ p, plan s.guest.stored (credentialRequest row.toNativeGuestAccount .revoke none) now =
        .ok p) ∧
    (∀ env a connectionId expiresAt digest t row pw m,
      step sha256 s (.store env (.issue a connectionId expiresAt digest)) = some t →
      t.row = some row →
      changeNativeCredential row.toNativeGuestAccount .issue pw t.clock = some m →
      ∃ p, plan t.guest.stored m (t.clock / 1000000) = .ok p) := by
  have hi := inv_of_reachable hs
  refine ⟨fun f hf => ?_, fun row hrow hop hst => ?_, fun row now hrow hop _ => ?_, ?_⟩
  · obtain ⟨row, hrow, hfr⟩ := hi.coherent.stored f hf
    exact ⟨row, hrow, FencedBy.revision hfr⟩
  · obtain ⟨f, hf, hph, hrev⟩ := revoked_of_applied hi hrow hop hst
    refine ⟨⟨f, hf, hph, hrev⟩, fun t m now p ht hm hle => ?_⟩
    obtain ⟨g, hg, hsup⟩ := supersedes_of_leads hs ht hf
    rw [hg]
    refine refused_after_revoked hsup hph ?_ (hrev ▸ hle)
    rcases hm with hm | hm <;> simp [hm]
  · exact revoke_accepted hi hrow hop now
  · intro env a connectionId expiresAt digest t row pw m h hr hm
    exact issue_accepted hi h hr hm

end Results

section Sample

def sampleRun : List Action :=
  let password : Option Password := some ⟨"Vcw1!long-disposable-password"⟩
  let issue := sampleAccount 1 .issue .pending "conn_example_one" (some 200000000)
  let revoke := sampleAccount 2 .revoke .pending "conn_example_one" none
  [.store sampleEnv (.bind (sampleAccount 0 .none .idle "" none) [1]),
    .store sampleEnv
      (.issue (sampleAccount 0 .none .idle "" none) "conn_example_one" 200000000 [1]),
    .send .issue password, .deliver (credentialRequest issue .issue password), .finish,
    .store sampleEnv (.complete issue .issue),
    .store sampleEnv (.revoke { issue with state := .applied }),
    .send .revoke none, .deliver (credentialRequest revoke .revoke none), .finish,
    .store sampleEnv (.complete revoke .revoke)]

/-- After the sample run the Guest has fenced the revocation of revision two. -/
theorem native_credential_agreement_revoked :
    ∃ s row, (protocol sampleDigest).Reachable s ∧ s.row = some row ∧ row.operation = .revoke ∧
      row.state = .applied ∧ row.revision = 2 ∧
      ∃ f, s.guest.stored = some f ∧ f.phase = .revoked ∧ f.revision = 2 := by
  let row : NativeGuestRow := ⟨sampleAccount 2 .revoke .applied "conn_example_one" none, none⟩
  obtain ⟨s, hs, hrow⟩ : ∃ s, (protocol sampleDigest).Reachable s ∧ s.row = some row :=
    Machine.exists_reachable_of_run ⟨0, none, [], [], ⟨none, none⟩⟩ sampleRun
      ⟨rfl, rfl, rfl, rfl⟩ (by decide)
  exact ⟨s, row, hs, hrow, rfl, rfl, rfl, ((native_credential_agreement hs).2.1 row hrow rfl rfl).1⟩

end Sample

end VcWorkspace.Protocol.NativeCredential
