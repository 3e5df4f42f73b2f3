import VcWorkspace.Guest.Identity
import VcWorkspace.Transition.Journal

/-! # The native credential planner

A request to issue, retire or revoke a human user's Guest credential is planned
against the stored fence. Retirement keeps the user's desktop; revocation is
the only operation that closes a fence for good.
-/

namespace VcWorkspace.Guest.Native

open Transition

def validateIdentity (a : AccountIdentity) : Except IoError Unit := a.validateFor "vcw"

def validConnection (value : String) : Bool :=
  13 ≤ (bytes value).length && (bytes value).length ≤ 133 && startsWith value "conn_" &&
    (bytes value).all isTokenByte

inductive Operation
  | issue | retire | revoke
  deriving DecidableEq, Repr

structure Request where
  schemaVersion : ℕ
  identity : AccountIdentity
  connectionId : String
  revision : ℕ
  expiresUnixSeconds : ℕ
  operation : Operation
  password : Option Password
  deriving DecidableEq, Repr

def Request.validate (r : Request) : Except IoError Unit := do
  validateIdentity r.identity
  ensure denied (r.schemaVersion == 1 && validConnection r.connectionId &&
    validGeneration r.revision &&
    match r.operation with
    | .issue => r.password.any Password.valid && validExpiry r.expiresUnixSeconds
    | .retire => r.password.isNone && validExpiry r.expiresUnixSeconds
    | .revoke => r.password.isNone && r.expiresUnixSeconds == 0)

inductive Phase
  | issuing | issued | retiring | retired | revoked
  deriving DecidableEq, Repr

structure Fence where
  schemaVersion : ℕ
  identity : AccountIdentity
  connectionId : String
  revision : ℕ
  expiresUnixSeconds : ℕ
  phase : Phase
  deriving DecidableEq, Repr

namespace Fence

def validate (f : Fence) : Except IoError Unit := do
  validateIdentity f.identity
  ensure denied (f.schemaVersion == 1 && validConnection f.connectionId &&
    validGeneration f.revision &&
    if f.phase = .revoked then f.expiresUnixSeconds == 0 else validExpiry f.expiresUnixSeconds)

/-- The desktop of this credential is kept: issued or retired, and not yet expired. -/
def retained (f : Fence) (now : ℕ) : Bool :=
  (f.phase == .issued || f.phase == .retired) && now < f.expiresUnixSeconds

def revoked (f : Fence) : Fence := { f with phase := .revoked, expiresUnixSeconds := 0 }

end Fence

structure Plan where
  pending : Fence
  completed : Fence
  observeOnly : Bool
  preserveDesktop : Bool
  deriving DecidableEq, Repr

def Request.fence (r : Request) (phase : Phase) : Fence :=
  ⟨1, r.identity, r.connectionId, r.revision, r.expiresUnixSeconds, phase⟩

/-- An issue starts at revision one, or follows a revoked or retained retired fence under a new
connection. -/
def issuable (previous : Option Fence) (r : Request) (now : ℕ) : Bool :=
  match previous with
  | none => r.revision == 1
  | some old => r.revision == old.revision + 1 && r.connectionId != old.connectionId &&
      (old.phase == .revoked || (old.phase == .retired && old.retained now))

/-- A retirement follows the retained issue of its connection, or repeats itself. -/
def retirable (old : Fence) (r : Request) (now : ℕ) : Bool :=
  r.connectionId == old.connectionId && r.expiresUnixSeconds == old.expiresUnixSeconds &&
    old.retained now &&
    ((old.phase == .issued && r.revision == old.revision + 1) ||
      (old.phase == .retired && r.revision == old.revision))

/-- A revocation at the stored revision only repeats the stored revocation. -/
def revocable (previous : Option Fence) (r : Request) : Bool :=
  previous.all fun old => r.revision != old.revision ||
    (r.connectionId == old.connectionId && old.phase == .revoked)

def plan (previous : Option Fence) (r : Request) (now : ℕ) : Except IoError Plan := do
  r.validate
  ensure denied (r.operation == .revoke || withinWindow r.expiresUnixSeconds now)
  match previous with
  | none => pure ()
  | some old =>
    old.validate
    ensure denied (old.identity == r.identity && old.revision ≤ r.revision)
  match r.operation with
  | .issue =>
    ensure denied (issuable previous r now)
    pure ⟨r.fence .issuing, r.fence .issued, false, previous.any (·.phase == .retired)⟩
  | .retire =>
    match previous with
    | none => .error denied
    | some old =>
      ensure denied (retirable old r now)
      pure ⟨r.fence .retiring, r.fence .retired, old.phase == .retired, true⟩
  | .revoke =>
    ensure denied (revocable previous r)
    pure ⟨r.fence .revoked, r.fence .revoked, false, false⟩

/-- A well-formed request for one fixed account, expiring at second 200. -/
def sampleRequest (operation : Operation) (revision : ℕ) (connection : String) : Request where
  schemaVersion := 1
  identity := ⟨"vcw123456abcdef", 1001, ""⟩
  connectionId := connection
  revision := revision
  expiresUnixSeconds := if operation = .revoke then 0 else 200
  operation := operation
  password := if operation = .issue then some ⟨"Vcw1!long-disposable-password"⟩ else none

section Spec

variable {previous : Option Fence} {f old : Fence} {r : Request} {p : Plan} {now : ℕ}

/-- Every stored fence is valid, has the request's identity and is not newer than the request. -/
def Compatible (previous : Option Fence) (r : Request) : Prop :=
  ∀ old, previous = some old →
    old.validate = .ok () ∧ old.identity = r.identity ∧ old.revision ≤ r.revision

def Answers (previous : Option Fence) (r : Request) (now : ℕ) (p : Plan) : Prop :=
  match r.operation with
  | .issue => issuable previous r now = true ∧
      ⟨r.fence .issuing, r.fence .issued, false, previous.any (·.phase == .retired)⟩ = p
  | .retire => ∃ old, previous = some old ∧ retirable old r now = true ∧
      ⟨r.fence .retiring, r.fence .retired, old.phase == .retired, true⟩ = p
  | .revoke => revocable previous r = true ∧ ⟨r.fence .revoked, r.fence .revoked, false, false⟩ = p

/-- A request other than a revocation expires in the next 28800 seconds. -/
def InWindow (r : Request) (now : ℕ) : Prop :=
  r.operation = .revoke ∨ now < r.expiresUnixSeconds ∧ r.expiresUnixSeconds ≤ now + 28800

theorem plan_eq_ok_iff : plan previous r now = .ok p ↔
    r.validate = .ok () ∧ InWindow r now ∧ Compatible previous r ∧ Answers previous r now p := by
  have hw : (r.operation == .revoke || withinWindow r.expiresUnixSeconds now) = true ↔
      InWindow r now := by
    rw [Bool.or_eq_true, beq_iff_eq, withinWindow_iff, InWindow]
  unfold plan
  rw [seq_eq_ok, seq_eq_ok, ensure_eq_ok, hw]
  cases previous with
  | none =>
    cases ho : r.operation <;> simp [Compatible, Answers, ho, pure, Except.pure]
  | some old =>
    cases ho : r.operation <;> simp [Compatible, Answers, ho, pure, Except.pure, and_assoc]

theorem Fence.validate_iff : f.validate = .ok () ↔
    validateIdentity f.identity = .ok () ∧ f.schemaVersion = 1 ∧
      validConnection f.connectionId = true ∧ validGeneration f.revision = true ∧
      if f.phase = .revoked then f.expiresUnixSeconds = 0
      else validExpiry f.expiresUnixSeconds = true := by
  unfold Fence.validate
  split <;> simp [and_assoc]

theorem validate_fence (h : r.validate = .ok ()) {phase : Phase}
    (hp : phase = .revoked ↔ r.operation = .revoke) : (r.fence phase).validate = .ok () := by
  unfold Request.validate at h
  rw [Fence.validate_iff]
  cases ho : r.operation <;> simp_all [Request.fence]

end Spec

/-! ## Accepted plans by cases -/

def Fence.Live (f : Fence) : Prop := f.phase = .issued ∨ f.phase = .retired

def revocation (r : Request) : Fence := (r.fence .revoked).revoked

section Plans

variable {stored : Option Fence} {r : Request} {p : Plan}

/-- What an accepted plan is, with the stored fence that it replaces. -/
inductive Planned (stored : Option Fence) (r : Request) : Plan → Prop
  | issues (ho : r.operation = .issue) (hs : ∀ old, stored = some old → old.phase = .revoked) :
      Planned stored r ⟨r.fence .issuing, r.fence .issued, false, false⟩
  | reissues {old : Fence} (ho : r.operation = .issue) (hs : stored = some old)
      (hp : old.phase = .retired) (hr : r.revision = old.revision + 1) :
      Planned stored r ⟨r.fence .issuing, r.fence .issued, false, true⟩
  | retires {old : Fence} (ho : r.operation = .retire) (hs : stored = some old)
      (hp : old.phase = .issued) (hr : r.revision = old.revision + 1)
      (he : r.expiresUnixSeconds = old.expiresUnixSeconds) :
      Planned stored r ⟨r.fence .retiring, r.fence .retired, false, true⟩
  | observes (ho : r.operation = .retire) (hs : stored = some (r.fence .retired)) :
      Planned stored r ⟨r.fence .retiring, r.fence .retired, true, true⟩
  | revokes (ho : r.operation = .revoke) (hr : r.fence .revoked = revocation r) :
      Planned stored r ⟨r.fence .revoked, r.fence .revoked, false, false⟩

theorem planned_of_plan {now : ℕ} (h : plan stored r now = .ok p) : Planned stored r p := by
  obtain ⟨hv, -, hc, ha⟩ := plan_eq_ok_iff.mp h
  unfold Answers at ha
  split at ha
  case h_1 ho =>
    obtain ⟨hi, rfl⟩ := ha
    cases stored with
    | none => exact .issues ho (by simp)
    | some old =>
      simp only [issuable, Bool.and_eq_true, Bool.or_eq_true, beq_iff_eq] at hi
      rcases hi.2 with hp | ⟨hp, -⟩
      · simp only [Option.any_some, hp]
        exact .issues ho (by simp [hp])
      · simp only [Option.any_some, hp]
        exact .reissues ho rfl hp hi.1.1
  case h_2 ho =>
    obtain ⟨old, rfl, hr, rfl⟩ := ha
    simp only [retirable, Bool.and_eq_true, Bool.or_eq_true, beq_iff_eq] at hr
    rcases hr.2 with ⟨hp, hrev⟩ | ⟨hp, hrev⟩ <;> rw [hp]
    · exact .retires ho rfl hp hrev hr.1.1.2
    · obtain ⟨hvo, hid, -⟩ := hc old rfl
      have hver := (Fence.validate_iff.mp hvo).2.1
      refine .observes ho ?_
      cases old
      simp_all [Request.fence]
  case h_3 ho =>
    obtain ⟨-, rfl⟩ := ha
    refine .revokes ho ?_
    have hexp : r.expiresUnixSeconds = 0 := by
      unfold Request.validate at hv
      rw [seq_eq_ok, ensure_eq_ok] at hv
      have hfields := hv.2
      simp only [ho, Bool.and_eq_true, beq_iff_eq] at hfields
      exact hfields.2.2
    simp [revocation, Fence.revoked, Request.fence, hexp]

theorem validate_revocation (h : r.validate = .ok ()) : (revocation r).validate = .ok () := by
  unfold Request.validate at h
  rw [seq_eq_ok, ensure_eq_ok] at h
  rw [Fence.validate_iff]
  simp only [Bool.and_eq_true] at h
  exact ⟨h.1, rfl, h.2.1.1.2, h.2.1.2, rfl⟩

theorem not_live_pending (hp : Planned stored r p) : ¬ p.pending.Live := by
  cases hp <;> rintro (h | h) <;> cases h

theorem not_live_revoked (f : Fence) : ¬ f.revoked.Live := by
  rintro (h | h) <;> cases h

theorem revoked_pending (hp : Planned stored r p) : p.pending.revoked = revocation r := by
  cases hp <;> rfl

theorem retires_of_observes (hp : Planned stored r p) (h : p.observeOnly = true) :
    r.operation = .retire := by
  cases hp with
  | observes ho => exact ho
  | _ => cases h

theorem revokes_of_eq (hp : Planned stored r p)
    (h : p.pending = revocation r ∨ p.completed = revocation r) :
    p.pending = revocation r ∧ p.completed = revocation r := by
  cases hp with
  | revokes ho hr => exact ⟨hr, hr⟩
  | _ => rcases h with h | h <;> cases congrArg Fence.phase h

end Plans

end VcWorkspace.Guest.Native
