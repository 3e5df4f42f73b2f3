import VcWorkspace.Store.Account

/-! # Desktop connections

A row of `desktop_connection_sessions` is open while it is active or being
revoked, and a desktop has one open connection at most. Every statement on an
existing row keeps its subject and only moves it towards its end.
-/

namespace VcWorkspace.Store

open Transition

inductive ConnectionState
  | active | revoking | revoked | expired
  deriving DecidableEq, Repr

/-- A connection of a user to a desktop; times are in microseconds. -/
structure DesktopConnectionSession where
  id : String
  userId : String
  desktopVmid : ℕ
  guestUsername : String
  state : ConnectionState
  expiresAt : ℕ
  terminationRequired : Bool
  /-- The native session that opened the connection. -/
  nativeSessionDigest : Option (List UInt8)
  deriving DecidableEq, Repr

namespace DesktopConnectionSession

variable (c : DesktopConnectionSession)

/-- The connection is active or revoking, as in the partial unique index. -/
def isOpen : Bool := c.state == .active || c.state == .revoking

def beginRevoke : DesktopConnectionSession := { c with state := .revoking }

def terminate : DesktopConnectionSession :=
  { c with state := .revoking, terminationRequired := true }

def markClosed (state : ConnectionState) : DesktopConnectionSession := { c with state := state }

def close (required : Bool) (now : ℕ) : DesktopConnectionSession :=
  { c with
    state := if c.expiresAt ≤ now then .expired else .revoked
    terminationRequired := c.terminationRequired || required }

end DesktopConnectionSession

structure ConnectionEnv where
  /-- The user has a row of `effective_user_desktop_access` for the desktop. -/
  accessible : Bool
  /-- The native session exists, belongs to the user and has not expired. -/
  sessionLive : Bool
  revocationPending : Bool
  /-- The user has an account on the desktop, or another account of it is reserved. -/
  accountReserved : Bool
  /-- The identifier is taken, or the desktop has an open connection. -/
  indexTaken : Bool
  deriving DecidableEq, Repr

def insertDesktopConnectionSession (env : ConnectionEnv) (session : DesktopConnectionSession)
    (nativeDigest : Option (List UInt8)) (boundNative : Bool) :
    Except StoreError DesktopConnectionSession := do
  ensure .notFound (env.accessible && (nativeDigest.isNone || env.sessionLive) &&
    !env.revocationPending && (boundNative || !env.accountReserved))
  ensure .conflict (!env.indexTaken)
  pure
    { session with
      state := .active, terminationRequired := false, nativeSessionDigest := nativeDigest }

section Spec

variable {c : DesktopConnectionSession} {env : ConnectionEnv} {session r : DesktopConnectionSession}

theorem isOpen_close (required : Bool) (now : ℕ) : (c.close required now).isOpen = false := by
  simp only [DesktopConnectionSession.close]
  split <;> rfl

theorem insertDesktopConnectionSession_ok {digest : Option (List UInt8)} {bound : Bool}
    (h : insertDesktopConnectionSession env session digest bound = .ok r) :
    env.accessible = true ∧ env.revocationPending = false ∧ env.indexTaken = false ∧
      r = { session with
        state := .active, terminationRequired := false, nativeSessionDigest := digest } := by
  unfold insertDesktopConnectionSession at h
  simp only [seq_eq_ok, ensure_eq_ok, Bool.and_eq_true, Bool.not_eq_true'] at h
  obtain ⟨⟨⟨⟨hacc, -⟩, hrev⟩, -⟩, hidx, h⟩ := h
  exact ⟨hacc, hrev, hidx, (Except.ok.inj h).symm⟩

theorem sessionLive_of_insert {digest : List UInt8} {bound : Bool}
    (h : insertDesktopConnectionSession env session (some digest) bound = .ok r) :
    env.sessionLive = true := by
  unfold insertDesktopConnectionSession at h
  simp only [seq_eq_ok, ensure_eq_ok, Bool.and_eq_true, Option.isNone_some,
    Bool.false_or] at h
  exact h.1.1.1.2

end Spec

end VcWorkspace.Store
