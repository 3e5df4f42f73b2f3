import VcWorkspace.Guest.Identity
import VcWorkspace.Transition.Journal

/-! # The agent account planner

A request to open, seal or revoke the Guest account of an agent lease is planned
against the stored fence. Two nested counters order the requests: the control
epoch of the lease, and the login generation inside it.
-/

namespace VcWorkspace.Guest.Agent

open Transition

inductive Operation
  | open | seal | revoke
  deriving DecidableEq, Repr

structure Request where
  schemaVersion : ℕ
  identity : AccountIdentity
  leaseId : String
  controlEpoch : ℕ
  loginGeneration : ℕ
  expiresUnixSeconds : ℕ
  operation : Operation
  password : Option Password
  deriving DecidableEq, Repr

def Request.validate (r : Request) : Except IoError Unit := do
  r.identity.validate
  ensure denied (r.schemaVersion == 1 && validLease r.leaseId r.controlEpoch &&
    validGeneration r.loginGeneration &&
    match r.operation with
    | .open => r.password.any Password.valid && validExpiry r.expiresUnixSeconds
    | .seal => r.password.isNone && validExpiry r.expiresUnixSeconds
    | .revoke => r.password.isNone && r.expiresUnixSeconds == 0)

inductive Phase
  | opening | open | sealing | sealed | revoked
  deriving DecidableEq, Repr

structure Fence where
  schemaVersion : ℕ
  identity : AccountIdentity
  leaseId : String
  controlEpoch : ℕ
  loginGeneration : ℕ
  expiresUnixSeconds : ℕ
  phase : Phase
  deriving DecidableEq, Repr

namespace Fence

def validate (f : Fence) : Except IoError Unit := do
  f.identity.validate
  ensure denied (f.schemaVersion == 1 && validLease f.leaseId f.controlEpoch &&
    validGeneration f.loginGeneration &&
    if f.phase = .revoked then f.expiresUnixSeconds == 0 else validExpiry f.expiresUnixSeconds)

/-- A login of this lease can be used: open or sealed, and not yet expired. -/
def loginLive (f : Fence) (now : ℕ) : Bool :=
  (f.phase == .open || f.phase == .sealed) && now < f.expiresUnixSeconds

def revoked (f : Fence) : Fence := { f with phase := .revoked, expiresUnixSeconds := 0 }

end Fence

structure Plan where
  pending : Fence
  completed : Fence
  observeOnly : Bool
  deriving DecidableEq, Repr

def Request.fence (r : Request) (phase : Phase) : Fence :=
  ⟨1, r.identity, r.leaseId, r.controlEpoch, r.loginGeneration, r.expiresUnixSeconds, phase⟩

/-- The stored fence does not come after the request in epoch and generation. -/
def follows (old : Fence) (r : Request) : Bool :=
  old.identity == r.identity && old.controlEpoch ≤ r.controlEpoch &&
    (r.controlEpoch != old.controlEpoch ||
      (r.leaseId == old.leaseId && old.loginGeneration ≤ r.loginGeneration))

/-- Inside one epoch an opening needs a later generation, a live login and the same deadline. -/
def openable (previous : Option Fence) (r : Request) (now : ℕ) : Bool :=
  previous.all fun old => r.controlEpoch != old.controlEpoch ||
    (old.loginGeneration < r.loginGeneration && old.loginLive now &&
      r.expiresUnixSeconds == old.expiresUnixSeconds)

/-- A sealing names the exact login that is open or already sealed. -/
def sealable (old : Fence) (r : Request) : Bool :=
  r.controlEpoch == old.controlEpoch && r.loginGeneration == old.loginGeneration &&
    r.expiresUnixSeconds == old.expiresUnixSeconds && (old.phase == .open || old.phase == .sealed)

def plan (previous : Option Fence) (r : Request) (now : ℕ) : Except IoError Plan := do
  r.validate
  ensure denied (r.operation == .revoke || withinWindow r.expiresUnixSeconds now)
  match previous with
  | none => pure ()
  | some old =>
    old.validate
    ensure denied (follows old r)
  match r.operation with
  | .open =>
    ensure denied (openable previous r now)
    pure ⟨r.fence .opening, r.fence .open, false⟩
  | .seal =>
    match previous with
    | none => .error denied
    | some old =>
      ensure denied (sealable old r)
      pure ⟨r.fence .sealing, r.fence .sealed, old.phase == .sealed⟩
  | .revoke => pure ⟨r.fence .revoked, r.fence .revoked, false⟩

/-- A well-formed request for one fixed account and epoch-named lease, expiring at second 200. -/
def sampleRequest (operation : Operation) (epoch generation : ℕ) : Request where
  schemaVersion := 1
  identity := ⟨"vca123456abcdef", 1001, ""⟩
  leaseId := "lease_sample"
  controlEpoch := epoch
  loginGeneration := generation
  expiresUnixSeconds := if operation = .revoke then 0 else 200
  operation := operation
  password := if operation = .open then some ⟨"Vca1!long-disposable-password"⟩ else none

section Spec

variable {previous : Option Fence} {f old : Fence} {r : Request} {p : Plan} {now : ℕ}

/-- Every stored fence is valid and does not come after the request. -/
def Compatible (previous : Option Fence) (r : Request) : Prop :=
  ∀ old, previous = some old → old.validate = .ok () ∧ follows old r = true

def Answers (previous : Option Fence) (r : Request) (now : ℕ) (p : Plan) : Prop :=
  match r.operation with
  | .open => openable previous r now = true ∧ ⟨r.fence .opening, r.fence .open, false⟩ = p
  | .seal => ∃ old, previous = some old ∧ sealable old r = true ∧
      ⟨r.fence .sealing, r.fence .sealed, old.phase == .sealed⟩ = p
  | .revoke => ⟨r.fence .revoked, r.fence .revoked, false⟩ = p

/-- A request other than a revocation expires in the next 28800 seconds. -/
def InWindow (r : Request) (now : ℕ) : Prop :=
  r.operation = .revoke ∨ now < r.expiresUnixSeconds ∧ r.expiresUnixSeconds ≤ now + 28800

theorem plan_eq_ok_iff : plan previous r now = .ok p ↔
    r.validate = .ok () ∧ InWindow r now ∧ Compatible previous r ∧ Answers previous r now p := by
  have hw : (r.operation == .revoke || withinWindow r.expiresUnixSeconds now) = true ↔
      InWindow r now := by
    rw [Bool.or_eq_true, beq_iff_eq, withinWindow_iff, InWindow]
  unfold plan
  rw [seq_eq_ok, seq_eq_ok, ensure_eq_ok, hw]
  cases previous with
  | none =>
    cases ho : r.operation <;> simp [Compatible, Answers, ho, pure, Except.pure]
  | some old =>
    cases ho : r.operation <;> simp [Compatible, Answers, ho, pure, Except.pure, and_assoc]

theorem Fence.validate_iff : f.validate = .ok () ↔
    f.identity.validate = .ok () ∧ f.schemaVersion = 1 ∧
      validLease f.leaseId f.controlEpoch = true ∧ validGeneration f.loginGeneration = true ∧
      if f.phase = .revoked then f.expiresUnixSeconds = 0
      else validExpiry f.expiresUnixSeconds = true := by
  unfold Fence.validate
  split <;> simp [and_assoc]

theorem validate_fence (h : r.validate = .ok ()) {phase : Phase}
    (hp : phase = .revoked ↔ r.operation = .revoke) : (r.fence phase).validate = .ok () := by
  unfold Request.validate at h
  rw [Fence.validate_iff]
  cases ho : r.operation <;> simp_all [Request.fence]

theorem follows_iff : follows old r = true ↔ old.identity = r.identity ∧
    old.controlEpoch ≤ r.controlEpoch ∧ (r.controlEpoch = old.controlEpoch →
      r.leaseId = old.leaseId ∧ old.loginGeneration ≤ r.loginGeneration) := by
  simp only [follows, Bool.and_eq_true, beq_iff_eq, decide_eq_true_eq, Bool.or_eq_true,
    bne_iff_ne, and_assoc]
  tauto

end Spec

/-! ## Accepted plans by cases -/

def Fence.Live (f : Fence) : Prop := f.phase = .open ∨ f.phase = .sealed

def revocation (r : Request) : Fence := (r.fence .revoked).revoked

section Plans

variable {stored : Option Fence} {r : Request} {p : Plan}

/-- What an accepted plan is, with the stored fence that a sealing replaces or repeats. -/
inductive Planned (stored : Option Fence) (r : Request) : Plan → Prop
  | opens (ho : r.operation = .open) : Planned stored r ⟨r.fence .opening, r.fence .open, false⟩
  | seals (ho : r.operation = .seal) (hs : stored = some (r.fence .open)) :
      Planned stored r ⟨r.fence .sealing, r.fence .sealed, false⟩
  | observes (ho : r.operation = .seal) (hs : stored = some (r.fence .sealed)) :
      Planned stored r ⟨r.fence .sealing, r.fence .sealed, true⟩
  | revokes (ho : r.operation = .revoke) (hr : r.fence .revoked = revocation r) :
      Planned stored r ⟨r.fence .revoked, r.fence .revoked, false⟩

theorem planned_of_plan {now : ℕ} (h : plan stored r now = .ok p) : Planned stored r p := by
  obtain ⟨hv, -, hc, ha⟩ := plan_eq_ok_iff.mp h
  unfold Answers at ha
  split at ha
  case h_1 ho =>
    obtain ⟨-, rfl⟩ := ha
    exact .opens ho
  case h_2 ho =>
    obtain ⟨old, rfl, hs, rfl⟩ := ha
    obtain ⟨hvo, hfol⟩ := hc old rfl
    have hold : old = r.fence old.phase := by
      have hver := (Fence.validate_iff.mp hvo).2.1
      obtain ⟨hid, -, hsame⟩ := follows_iff.mp hfol
      simp only [sealable] at hs
      cases old
      simp_all [Request.fence]
    simp only [sealable, Bool.and_eq_true, Bool.or_eq_true, beq_iff_eq] at hs
    rcases hs.2 with hp | hp <;> rw [hp] at hold ⊢
    · exact .seals ho (congrArg some hold)
    · exact .observes ho (congrArg some hold)
  case h_3 ho =>
    subst ha
    refine .revokes ho ?_
    have hexp : r.expiresUnixSeconds = 0 := by
      unfold Request.validate at hv
      rw [seq_eq_ok, ensure_eq_ok] at hv
      have hfields := hv.2
      simp only [ho, Bool.and_eq_true, beq_iff_eq] at hfields
      exact hfields.2.2
    simp [revocation, Fence.revoked, Request.fence, hexp]

theorem validate_revocation (h : r.validate = .ok ()) : (revocation r).validate = .ok () := by
  unfold Request.validate at h
  rw [seq_eq_ok, ensure_eq_ok] at h
  rw [Fence.validate_iff]
  simp only [Bool.and_eq_true] at h
  exact ⟨h.1, rfl, h.2.1.1.2, h.2.1.2, rfl⟩

theorem not_live_pending (hp : Planned stored r p) : ¬ p.pending.Live := by
  cases hp <;> rintro (h | h) <;> cases h

theorem not_live_revoked (f : Fence) : ¬ f.revoked.Live := by
  rintro (h | h) <;> cases h

theorem revoked_pending (hp : Planned stored r p) : p.pending.revoked = revocation r := by
  cases hp <;> rfl

theorem revokes_of_eq (hp : Planned stored r p)
    (h : p.pending = revocation r ∨ p.completed = revocation r) :
    p.pending = revocation r ∧ p.completed = revocation r := by
  cases hp with
  | revokes ho hr => exact ⟨hr, hr⟩
  | _ => rcases h with h | h <;> cases congrArg Fence.phase h

end Plans

end VcWorkspace.Guest.Agent
