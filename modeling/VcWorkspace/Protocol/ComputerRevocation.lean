import VcWorkspace.Session.LinuxAuthority
import VcWorkspace.Store.ComputerLedger

/-! # The computer revocation protocol

Closing a lease queues the revocation of its epoch. Workers read the queue,
publish a tombstone to the Guest and acknowledge the number they read, while
leases come and go, agents activate their sessions, and messages to the Guest
are delayed, repeated or lost.
-/

namespace VcWorkspace.Protocol.ComputerRevocation

open Transition Session Session.Linux Store

/-- How the controller writes a bound authority, and that the Guest reads it back. -/
structure Wire {ν : Type} (codec : Codec ν) where
  encode : Option SessionKey → Authority → Option (List UInt8)
  decodes : ∀ target a raw, encode target a = some raw → ∃ b, decode codec raw = some (b, a) ∧
    b.schemaVersion = version ∧ b.target = target ∧ b.loginGeneration = none

def Wire.ofCodec {ν : Type} (codec : Codec ν) : Wire codec where
  encode target a := codec.toVec ⟨version, target, codec.toValue a, none⟩
  decodes target a raw h := by
    obtain ⟨b, hb, hversion, htarget, hlogin, ha⟩ := codec.read_built _ _ _ _ h
    exact ⟨b, by simp [decode, hb, ha], hversion, htarget, hlogin⟩

structure Message where
  target : Option SessionKey
  authority : Authority
  deriving DecidableEq, Repr

section Messages

def validAuthority (a : Authority) : Bool :=
  a.schemaVersion == Session.schemaVersion && Guest.startsWith a.leaseId "lease_" &&
    1 ≤ a.controlEpoch && (a.state == "active" || a.state == "revoked")

def tombstone (epoch : ℕ) : Message :=
  ⟨none, ⟨Session.schemaVersion, "lease_revoked_session_tombstone", epoch, "revoked", 0⟩⟩

def sessionTarget (row : AgentGuestSession) : SessionKey :=
  ⟨row.guestUsername, row.guestUid, row.guestSid, row.sessionId, row.instanceId⟩

def activation (row : AgentGuestSession) : Message :=
  ⟨some (sessionTarget row), ⟨Session.schemaVersion, row.leaseId, row.controlEpoch, "active",
    ((row.expiresAt / 1000 : ℕ) : ℤ)⟩⟩

/-- The activation that the controller sends, after its own checks. -/
def activateSessionAuthority (row : AgentGuestSession) (now : ℕ) : Option Message :=
  if validSession .linux row.identity row.sessionId row.instanceId = true ∧ row.guestSid = "" ∧
      validAuthority (activation row).authority = true ∧ now / 1000 < row.expiresAt / 1000 then
    some (activation row)
  else none

def revokeSessionAuthority (epoch : ℕ) : Option Message :=
  if validAuthority (tombstone epoch).authority then some (tombstone epoch) else none

end Messages

/-- A lease that was closed: the epoch it was active at, the one it was closed at, and whether the
desktop had sessions then. -/
structure Closing where
  leaseId : String
  epoch : ℕ
  closing : ℕ
  hadSessions : Bool
  deriving DecidableEq, Repr

/-- A worker that has read the queue, the sessions, the epoch to revoke and the Guest's answer. One
that was forced to run holds no number. -/
inductive Worker
  | queued (item : Option ℕ)
  | listed (item : Option ℕ)
  | fencing (item : Option ℕ) (epoch : ℕ)
  | fenced (item : Option ℕ)
  deriving DecidableEq, Repr

/-- One desktop with its workers, its Guest, and everything that was ever sent or closed. -/
structure State where
  ledger : Ledger
  workers : List Worker
  sent : List Message
  receipts : List Message
  snapshot : Option (List UInt8)
  closings : List Closing
  deriving DecidableEq

inductive LeaseAction
  | create (env : LeaseEnv) (now : ℕ) (lease : DesktopLease)
  | release (id : String)
  | revoke
  | revokeAgent (agentId : String)
  | expire (now : ℕ)
  | abandon (item : AgentGuestSession)

inductive SessionAction
  | begin (vmid : ℕ) (leaseId agentId : String) (epoch : ℕ)
  | bind (item : AgentGuestSession) (revoking : Bool)
  | login (item : AgentGuestSession)
  | ready (item : AgentGuestSession)
  | complete (item : AgentGuestSession)

/-- What can happen: a transaction, a worker's next step, or the execution of a message, which may
fail before the rename or lose its answer. -/
inductive Action
  | lease (a : LeaseAction)
  | session (env : SessionEnv) (now : ℕ) (a : SessionAction)
  | controlEpoch
  | start (force : Bool)
  | list (i : ℕ)
  | fence (i : ℕ)
  | confirm (i : ℕ)
  | complete (i : ℕ)
  | deliver (m : Message) (env : PublishEnv) (renamed answered : Bool)

section Machine

variable {ν : Type} {codec : Codec ν} (sha256 : Sha256) (wire : Wire codec)

def leaseStep (r : Ledger) : LeaseAction → Except StoreError (Ledger × Option ClosedLease)
  | .create env now lease => createDesktopLease env now lease r
  | .release id => releaseDesktopLease id r
  | .revoke => revokeDesktopLeases r
  | .revokeAgent agentId => revokeAgentLeases agentId r
  | .expire now => queueExpiredComputerLeases now r
  | .abandon item => queueAgentGuestSessionRevocation item r

/-- A transaction on a session, with the activation that follows when it is ready. -/
def sessionStep (env : SessionEnv) (now : ℕ) (r : Ledger) :
    SessionAction → Except StoreError (Ledger × Option Message)
  | .begin vmid leaseId agentId epoch =>
    (r.beginSession sha256 env now vmid leaseId agentId epoch).map (·, none)
  | .bind item revoking =>
    (r.updateSession env now item fun env row =>
      bindAgentGuestAccount sha256 env row item revoking).map fun p => (p.1, none)
  | .login item =>
    (r.updateSession env now item fun env row =>
      beginAgentGuestLogin sha256 env row item).map fun p => (p.1, none)
  | .ready item =>
    (r.updateSession env now item fun env row =>
      markAgentGuestSessionReady sha256 env row item).map fun p =>
        (p.1, activateSessionAuthority p.2 now)
  | .complete item =>
    (r.updateSession env now item fun env row =>
      completeAgentGuestSessionRevocation env row item).map fun p => (p.1, none)

def closingOf (r : Ledger) (c : ClosedLease) : Closing :=
  ⟨c.1.id, c.1.controlEpoch, c.2.controlEpoch, !r.sessions.isEmpty⟩

/-- The next step of a worker, which may send a message or change the ledger. -/
def workerStep (s : State) (w : Worker) : Action → Option (State × Worker)
  | .list _ =>
    match w with
    | .queued item => some (s, if s.ledger.sessions.isEmpty then .fenced item else .listed item)
    | _ => none
  | .fence _ =>
    match w with
    | .listed item => (computerRevocationEpoch s.ledger).toOption.bind fun epoch =>
        (revokeSessionAuthority epoch).map fun m =>
          ({ s with sent := m :: s.sent }, .fencing item epoch)
    | _ => none
  | .confirm _ =>
    match w with
    | .fencing item epoch => if tombstone epoch ∈ s.receipts then some (s, .fenced item) else none
    | _ => none
  | .complete _ =>
    match w with
    | .fenced (some v) => (completeComputerRevocation v s.ledger).toOption.map fun r =>
        ({ s with ledger := r }, .fenced none)
    | _ => none
  | _ => none

def Action.worker : Action → Option ℕ
  | .list i | .fence i | .confirm i | .complete i => some i
  | _ => none

def step (s : State) : Action → Option State
  | .lease a => (leaseStep s.ledger a).toOption.map fun p =>
      { s with
        ledger := p.1, closings := (p.2.map (closingOf s.ledger)).toList ++ s.closings }
  | .session env now a => (sessionStep sha256 env now s.ledger a).toOption.map fun p =>
      { s with ledger := p.1, sent := p.2.toList ++ s.sent }
  | .controlEpoch => (computerControlEpoch s.ledger).toOption.map fun p =>
      { s with ledger := p.1 }
  | .start force =>
    let item := pendingComputerRevocations s.ledger
    if item.isNone && !force then none else some { s with workers := s.workers ++ [.queued item] }
  | .deliver m env renamed answered =>
    if m ∈ s.sent then
      (wire.encode m.target m.authority).bind fun stdin =>
        (publish codec env s.snapshot stdin).toOption.map fun raw =>
          if renamed then
            { s with
              snapshot := some raw
              receipts := if answered then m :: s.receipts else s.receipts }
          else s
    else none
  | a => a.worker.bind fun i => s.workers[i]?.bind fun w =>
      (workerStep s w a).map fun p => { p.1 with workers := s.workers.set i p.2 }

def protocol : Machine State Action where
  Init s := s.ledger.active = none ∧ s.ledger.closed = [] ∧ s.ledger.revocation = none ∧
    s.ledger.sessions = [] ∧ s.workers = [] ∧ s.sent = [] ∧ s.receipts = [] ∧ s.snapshot = none ∧
    s.closings = []
  step := step sha256 wire

end Machine

end VcWorkspace.Protocol.ComputerRevocation
