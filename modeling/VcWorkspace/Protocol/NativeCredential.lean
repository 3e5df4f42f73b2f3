import VcWorkspace.Guest.NativeHistory
import VcWorkspace.Store.NativeAccount

/-! # The native credential protocol

The controller advances one account row and sends each intent to the Guest,
which plans it against its own fence. Messages may be lost, delayed or repeated,
the Guest may stop at any point or revoke locally, and an intent is completed
only on the Guest's exact receipt.
-/

namespace VcWorkspace.Protocol.NativeCredential

open Transition Guest Guest.Native Store

def expiresUnixSeconds (a : NativeGuestAccount) : ℕ := a.expiresAt.elim 0 (· / 1000000)

/-- The credential the row stands for, as the Guest reports it in the given phase. -/
def nativeCredential (a : NativeGuestAccount) (phase : Phase) : Fence :=
  ⟨1, a.identity, a.connectionId, a.revision, expiresUnixSeconds a, phase⟩

def credentialRequest (a : NativeGuestAccount) (op : Operation) (password : Option Password) :
    Request :=
  ⟨1, a.identity, a.connectionId, a.revision, expiresUnixSeconds a, op, password⟩

def completedPhase : Operation → Phase
  | .issue => .issued
  | .retire => .retired
  | .revoke => .revoked

def column : Operation → NativeOperation
  | .issue => .issue
  | .retire => .retire
  | .revoke => .revoke

/-- The checks of the controller before it sends; native accounts are served on Linux only. -/
def validCredential (a : NativeGuestAccount) (op : Operation) (password : Option Password)
    (now : ℕ) : Bool :=
  let expires := expiresUnixSeconds a
  a.osFamily == .linux && 1 ≤ a.revision && nativeConnectionId a.connectionId &&
    a.identity.validName "vcw" && validAccount .linux a.guestUid a.guestSid &&
    (if op = .revoke then expires == 0 else 0 < expires && expires < 0xffffffff) &&
    (op == .revoke || (now / 1000000 < expires && expires ≤ now / 1000000 + 28800)) &&
    if op = .issue then password.any Password.valid else password.isNone

/-- The message the controller sends for an intent, when its own checks pass. -/
def changeNativeCredential (a : NativeGuestAccount) (op : Operation) (password : Option Password)
    (now : ℕ) : Option Request :=
  if validCredential a op password now then some (credentialRequest a op password) else none

theorem changeNativeCredential_eq_some {a : NativeGuestAccount} {op : Operation}
    {password : Option Password} {now : ℕ} {m : Request} :
    changeNativeCredential a op password now = some m ↔
      validCredential a op password now = true ∧ credentialRequest a op password = m := by
  simp [changeNativeCredential]

/-- One account row, its Guest, and everything that was ever sent between them. -/
structure State where
  clock : ℕ
  row : Option NativeGuestRow
  sent : List Request
  receipts : List Fence
  guest : Journal Fence Plan
  deriving DecidableEq, Repr

inductive RowAction
  | bind (a : NativeGuestAccount) (digest : List UInt8)
  | issue (a : NativeGuestAccount) (connectionId : String) (expiresAt : ℕ) (digest : List UInt8)
  | retire (a : NativeGuestAccount)
  | revoke (a : NativeGuestAccount)
  | complete (a : NativeGuestAccount) (op : Operation)

/-- What can happen: a store operation in some environment, a message, a Guest event, or time. -/
inductive Action
  | store (env : NativeEnv) (a : RowAction)
  | send (op : Operation) (password : Option Password)
  | deliver (m : Request)
  | finish
  | downgrade
  | inspect
  | tick (d : ℕ)

/-- A pending intent is sent, and an applied revocation may be sent again. -/
def sendable (row : NativeGuestRow) (op : Operation) : Bool :=
  row.operation == column op && (row.state == .pending || op == .revoke)

section Machine

variable (sha256 : Sha256)

/-- The row that a store operation leaves; a completion needs the Guest's exact receipt. -/
def rowStep (env : NativeEnv) (s : State) : RowAction → Option NativeGuestRow
  | .bind a digest =>
    if s.row.all fun row => row.desktopVmid == a.desktopVmid && row.userId == a.userId then
      (bindNativeGuestAccount sha256 env s.clock s.row a digest).toOption
    else none
  | .issue a connectionId expiresAt digest => s.row.bind fun row =>
      (beginNativeGuestCredential sha256 env s.clock row a connectionId expiresAt digest).toOption
  | .retire a => s.row.bind fun row =>
      (retireNativeGuestCredential sha256 env s.clock row a).toOption
  | .revoke a => s.row.bind fun row =>
      (revokeNativeGuestAccount sha256 env s.clock row a).toOption
  | .complete a op => s.row.bind fun row =>
      if a.operation = column op ∧ nativeCredential a (completedPhase op) ∈ s.receipts then
        (completeNativeGuestAccountOperation sha256 env s.clock row a).toOption
      else none

def step (s : State) : Action → Option State
  | .store env a => (rowStep sha256 env s a).map fun r => { s with row := some r }
  | .send op password => s.row.bind fun row =>
      if sendable row op then
        (changeNativeCredential row.toNativeGuestAccount op password s.clock).map
          fun m => { s with sent := m :: s.sent }
      else none
  | .deliver m =>
    if m ∈ s.sent then
      (plan s.guest.stored m (s.clock / 1000000)).toOption.map fun p =>
        if p.observeOnly then { s with receipts := p.completed :: s.receipts }
        else { s with guest := ⟨some p.pending, some p⟩ }
    else none
  | .finish => s.guest.inFlight.map fun p =>
      { s with guest := ⟨some p.completed, none⟩, receipts := p.completed :: s.receipts }
  | .downgrade => s.guest.stored.map fun f => { s with guest := ⟨some f.revoked, none⟩ }
  | .inspect => s.guest.stored.map fun f => { s with receipts := f :: s.receipts }
  | .tick d => some { s with clock := s.clock + d }

/-- The protocol starts without a row, without messages and without a Guest fence. -/
def protocol : Machine State Action where
  Init s := s.row = none ∧ s.sent = [] ∧ s.receipts = [] ∧ s.guest = ⟨none, none⟩
  step := step sha256

end Machine

end VcWorkspace.Protocol.NativeCredential
