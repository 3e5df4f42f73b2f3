import VcWorkspace.Guest.AgentHistory
import VcWorkspace.Store.AgentSession

/-! # The agent credential protocol

The controller advances one session row and sends each login and each cleanup to
the Guest, which plans it against its own fence. Messages may be lost, delayed
or repeated, the Guest may stop at any point or revoke locally, and a cleanup is
completed only on the Guest's exact receipt.
-/

namespace VcWorkspace.Protocol.AgentCredential

open Transition Guest Guest.Agent Store

def expiresUnixSeconds (r : AgentGuestSession) : ℕ := r.expiresAt / 1000000

def agentAccountLease (r : AgentGuestSession) (op : Operation) (password : Option Password) :
    Request :=
  ⟨1, r.identity, r.leaseId, r.controlEpoch, r.loginGeneration, expiresUnixSeconds r, op, password⟩

/-- The revocation of a row; an account that never opened gets a tombstone of generation one. -/
def revokeRequest (r : AgentGuestSession) : Request :=
  { agentAccountLease r .revoke none with
    loginGeneration := max 1 r.loginGeneration, expiresUnixSeconds := 0 }

def revokedFence (r : AgentGuestSession) : Fence := (revokeRequest r).fence .revoked

def validFor (platform : OsFamily) (m : Request) (now : ℕ) : Bool :=
  1 ≤ m.loginGeneration && m.identity.validName "vca" &&
    validAccount platform m.identity.uid m.identity.sid && startsWith m.leaseId "lease_" &&
    1 ≤ m.controlEpoch && 7 ≤ (bytes m.leaseId).length &&
    (if m.operation = .revoke then m.expiresUnixSeconds == 0
      else 0 < m.expiresUnixSeconds && m.expiresUnixSeconds < 0xffffffff) &&
    (m.operation == .revoke ||
      (now / 1000000 < m.expiresUnixSeconds && m.expiresUnixSeconds ≤ now / 1000000 + 28800)) &&
    if m.operation = .open then m.password.any Password.valid else m.password.isNone

/-- The cleanup that a worker sends for a row, given the fence it has observed: a tombstone is
not sent over another fence of its epoch. -/
def revokeIntent (r : AgentGuestSession) (observed : Option Fence) : Option Request :=
  if r.loginGeneration = 0 ∧ observed.any (fun f => r.controlEpoch ≤ f.controlEpoch &&
      f != revokedFence r) = true then none
  else some (revokeRequest r)

/-- One session row, its Guest, and everything that was ever sent between them. -/
structure State where
  clock : ℕ
  row : Option AgentGuestSession
  sent : List Request
  receipts : List Fence
  guest : Journal Fence Plan
  deriving DecidableEq, Repr

inductive RowAction
  | begin (vmid : ℕ) (lease : DesktopLease)
  | bind (item : AgentGuestSession) (revoking : Bool)
  | login (item : AgentGuestSession)
  | ready (item : AgentGuestSession)
  | close (leaseId : String)
  | complete (item : AgentGuestSession) (unbound : Bool)

/-- What can happen: a store operation in some environment, a message, a Guest event, or time. -/
inductive Action
  | store (env : SessionEnv) (a : RowAction)
  | send (op : Operation) (password : Option Password) (observed : Option Fence)
  | deliver (m : Request) (login : Bool)
  | finish
  | downgrade
  | inspect
  | tick (d : ℕ)

def message (r : AgentGuestSession) (op : Operation) (password : Option Password)
    (observed : Option Fence) : Option Request :=
  match op with
  | .revoke => if r.state = .revoking ∧ r.pinned = true then revokeIntent r observed else none
  | op => if r.live then some (agentAccountLease r op password) else none

/-- The plan of a request; an opening that performs the login itself ends sealed. -/
def apply (previous : Option Fence) (m : Request) (login : Bool) (now : ℕ) :
    Except IoError Plan := do
  ensure denied (!login || m.operation == .open)
  let p ← plan previous m now
  pure (if login then { p with completed := { p.completed with phase := .sealed } } else p)

section Machine

variable (sha256 : Sha256)

/-- The row that a store operation leaves. A completion needs the Guest's exact receipt, unless no
account was ever bound. -/
def rowStep (env : SessionEnv) (s : State) : RowAction → Option AgentGuestSession
  | .begin vmid lease =>
    if s.row.all fun row => row.desktopVmid == vmid && row.agentId == lease.agentId then
      (beginAgentGuestSession sha256 env s.clock vmid s.row lease).toOption
    else none
  | .bind item revoking => s.row.bind fun row =>
      (bindAgentGuestAccount sha256 env row item revoking).toOption
  | .login item => s.row.bind fun row => (beginAgentGuestLogin sha256 env row item).toOption
  | .ready item => s.row.bind fun row =>
      (markAgentGuestSessionReady sha256 env row item).toOption
  | .close leaseId => s.row.map (revokeAgentGuestSession leaseId)
  | .complete item unbound => s.row.bind fun row =>
      if (unbound = true ∧ item.loginGeneration = 0 ∧ item.pinned = false) ∨
          revokedFence item ∈ s.receipts then
        (completeAgentGuestSessionRevocation env row item).toOption
      else none

def step (s : State) : Action → Option State
  | .store env a => (rowStep sha256 env s a).map fun r => { s with row := some r }
  | .send op password observed => s.row.bind fun row =>
      (message row op password observed).bind fun m =>
        if validFor row.osFamily m s.clock then some { s with sent := m :: s.sent } else none
  | .deliver m login =>
    if m ∈ s.sent then
      (apply s.guest.stored m login (s.clock / 1000000)).toOption.map fun p =>
        if p.observeOnly then { s with receipts := p.completed :: s.receipts }
        else { s with guest := ⟨some p.pending, some p⟩ }
    else none
  | .finish => s.guest.inFlight.map fun p =>
      { s with guest := ⟨some p.completed, none⟩, receipts := p.completed :: s.receipts }
  | .downgrade => s.guest.stored.map fun f => { s with guest := ⟨some f.revoked, none⟩ }
  | .inspect => s.guest.stored.map fun f => { s with receipts := f :: s.receipts }
  | .tick d => some { s with clock := s.clock + d }

/-- The protocol starts without a row, without messages and without a Guest fence. -/
def protocol : Machine State Action where
  Init s := s.row = none ∧ s.sent = [] ∧ s.receipts = [] ∧ s.guest = ⟨none, none⟩
  step := step sha256

end Machine

end VcWorkspace.Protocol.AgentCredential
