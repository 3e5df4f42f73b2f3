import VcWorkspace.Store.ComputerLedger
import VcWorkspace.Store.Connection
import VcWorkspace.Store.NativeAccount
import VcWorkspace.Transition.ReadCommitted

/-! # Who reserves a desktop

The leases of agents, the native accounts of users and the connections of users
are three tables that share the desktops. Every store operation on them is a
transaction program: it takes the authorization lock itself or through a
trigger, or it only moves open connections towards their end.
-/

namespace VcWorkspace.Store.Reservation

open Transition ReadCommitted

/-- A row of one of the three tables. The control epoch of a lease, which a trigger assigns, is not
read here. -/
inductive Row
  | lease (desktop : ℕ) (lease : DesktopLease)
  | account (account : NativeGuestRow)
  /-- A connection, and whether the completion of a native credential inserted it. -/
  | connection (session : DesktopConnectionSession) (boundNative : Bool)
  deriving DecidableEq

inductive RowKey
  | lease (id : String)
  | account (desktop : ℕ) (userId : String)
  | connection (id : String)
  deriving DecidableEq

namespace Row

def key : Row → RowKey
  | lease _ l => .lease l.id
  | account a => .account a.desktopVmid a.userId
  | connection c _ => .connection c.id

def Below : Row → Row → Prop
  | lease d' l', lease d l => d' = d ∧ l'.id = l.id ∧ l'.expiresAt = l.expiresAt ∧
      (l'.state = .active → l.state = .active)
  | account a', account a => a' = a
  | connection c' b', connection c b => b' = b ∧ c'.id = c.id ∧ c'.desktopVmid = c.desktopVmid ∧
      (c'.isOpen = true → c.isOpen = true)
  | _, _ => False

theorem below_trans {r₁ r₂ r₃ : Row} (h : r₁.Below r₂) (h' : r₂.Below r₃) : r₁.Below r₃ := by
  cases r₁ <;> cases r₂ <;> try exact h.elim
  all_goals cases r₃ <;> try exact h'.elim
  case lease.lease.lease =>
    obtain ⟨hd, hi, he, ha⟩ := h
    obtain ⟨hd', hi', he', ha'⟩ := h'
    exact ⟨hd.trans hd', hi.trans hi', he.trans he', ha' ∘ ha⟩
  case account.account.account => exact h.trans h'
  case connection.connection.connection =>
    obtain ⟨hb, hi, hd, ho⟩ := h
    obtain ⟨hb', hi', hd', ho'⟩ := h'
    exact ⟨hb.trans hb', hi.trans hi', hd.trans hd', ho' ∘ ho⟩

theorem key_of_below {r' r : Row} (h : r'.Below r) : r'.key = r.key := by
  cases r' <;> cases r <;> try exact h.elim
  case lease.lease => exact congrArg RowKey.lease h.2.1
  case account.account => exact congrArg key (congrArg account h)
  case connection.connection => exact congrArg RowKey.connection h.2.1

end Row

def schema : Schema RowKey Row where
  key := Row.key
  Below := Row.Below
  refl r := by cases r <;> simp [Row.Below]
  trans := Row.below_trans
  key_eq := Row.key_of_below

def reserves (a : NativeGuestAccount) : Bool :=
  a.state == .pending || (a.operation == .issue && a.state == .applied)

section Reads

variable (V : List Row)

def leaseUnexpired (now desktop : ℕ) : Bool :=
  V.any fun
    | .lease d l => d == desktop && l.state == .active && now < l.expiresAt
    | _ => false

def leaseActive (desktop : ℕ) : Bool :=
  V.any fun
    | .lease d l => d == desktop && l.state == .active
    | _ => false

def accountOn (desktop : ℕ) (p : NativeGuestAccount → Bool) : Bool :=
  V.any fun
    | .account a => a.desktopVmid == desktop && p a.toNativeGuestAccount
    | _ => false

def connectionOpen (desktop : ℕ) : Bool :=
  V.any fun
    | .connection c _ => c.desktopVmid == desktop && c.isOpen
    | _ => false

def connectionIdUsed (id : String) : Bool :=
  V.any fun
    | .connection c _ => c.id == id
    | _ => false

end Reads

section Statements

def closeLeases (p : ℕ → ℕ → DesktopLease → Bool) (state : LeaseState) (bump : Bool) :
    Stmt RowKey Row :=
  .lower (fun now _ r => match r with
      | .lease d l => l.state == .active && p now d l
      | _ => false)
    (fun _ r => match r with
      | .lease d l => .lease d (l.close state bump)
      | r => r)

def updateConnections (p : DesktopConnectionSession → Bool)
    (f : ℕ → DesktopConnectionSession → DesktopConnectionSession) : Stmt RowKey Row :=
  .lower (fun _ _ r => match r with
      | .connection c _ => c.isOpen && p c
      | _ => false)
    (fun now r => match r with
      | .connection c b => .connection (f now c) b
      | r => r)

def updateAccount (a : NativeGuestAccount)
    (f : ℕ → List Row → List Row → NativeGuestRow → Except StoreError NativeGuestRow) :
    Stmt RowKey Row :=
  .write (.account a.desktopVmid a.userId) fun now V fresh r => match r with
    | .account row => (f now V fresh row).toOption.map .account
    | _ => none

/-- The environment of an account: the triggers read the other rows as they are, the statement as
they were at its start. -/
def accountEnv (env : NativeEnv) (now desktop : ℕ) (userId connectionId : String)
    (V fresh : List Row) : NativeEnv :=
  { env with
    connectionTaken := connectionIdUsed V connectionId || connectionOpen V desktop
    leaseActive := leaseUnexpired fresh now desktop
    otherReserved := accountOn fresh desktop fun b => b.userId != userId && reserves b }

def insertConnection (env : ConnectionEnv) (session : DesktopConnectionSession)
    (nativeDigest : Option (List UInt8)) (boundNative : Bool) : Stmt RowKey Row :=
  .insert fun _ V fresh =>
    (insertDesktopConnectionSession
      { env with
        accountReserved := accountOn V session.desktopVmid fun b =>
          b.userId == session.userId || reserves b
        indexTaken := connectionIdUsed fresh session.id ||
          connectionOpen fresh session.desktopVmid }
      session nativeDigest boundNative).toOption.map (.connection · boundNative)

/-- What a change of access decides by: the access view and the assignments of agents. -/
structure AccessRights where
  access : String → ℕ → Bool
  assigned : String → ℕ → Bool

/-- The common end of an access change: connections and leases without a right to them go. -/
def commitAccessChange (rights : AccessRights) : List (Stmt RowKey Row) :=
  [updateConnections (fun c => !rights.access c.userId c.desktopVmid) (fun _ c => c.terminate),
    closeLeases (fun _ d l => !rights.assigned l.agentId d) .revoked true]

end Statements

section Programs

/-- The store operations on the three tables. What they read from other tables is part of the
operation. -/
inductive StoreOp
  | createDesktopLease (allowed : Bool) (desktop : ℕ) (lease : DesktopLease)
  | releaseDesktopLease (id : String)
  | revokeDesktopLeases (desktop : ℕ)
  | queueExpiredComputerLeases (desktop : ℕ)
  | queueAgentGuestSessionRevocation (leaseId : String) (sessionLive : Bool)
  | setAgentEnabled (agentId : String) (enabled : Bool)
  | bindNativeGuestAccount (env : NativeEnv) (a : NativeGuestAccount) (digest : List UInt8)
      (pinned : Bool)
  | beginNativeGuestCredential (env : NativeEnv) (a : NativeGuestAccount) (connectionId : String)
      (expiresAt : ℕ) (digest : List UInt8)
  | retireNativeGuestCredential (env : NativeEnv) (a : NativeGuestAccount)
  | revokeNativeGuestAccount (env : NativeEnv) (a : NativeGuestAccount)
  | completeNativeGuestAccountOperation (env : NativeEnv) (a : NativeGuestAccount)
      (connection : ConnectionEnv) (initiatingDigest : List UInt8)
  | commitNativeGuestRecovery (env : NativeEnv) (expected : NativeGuestAccount) (revision : ℕ)
      (connectionId : String) (receipt : RecoveryReceipt) (safe : Bool)
  | createDesktopConnectionSession (env : ConnectionEnv) (session : DesktopConnectionSession)
      (nativeDigest : Option (List UInt8))
  | beginRevokeDesktopConnections (desktop : ℕ)
  | beginRevokeUserDesktopConnections (userId : String)
  | beginRevokeDesktopConnection (id userId : String)
  | desktopConnectionsDueForRevocation (due : DesktopConnectionSession → Bool)
  | markDesktopConnectionClosed (id : String) (state : ConnectionState)
  | completeGuestIdentityRevocation (desktop : ℕ) (userId guestUsername : String)
  | revokeNativeSession (userId : String)
  | setUserDisabled (userId : String) (disabled : Bool) (rights : AccessRights)
  | setUserPassword (userId : String) (rights : AccessRights)
  | deleteAgentAssignment (agentId : String) (desktop : ℕ) (rights : AccessRights)
  /-- Any other change of assignments, groups, desktops or clone jobs. -/
  | changeAccess (rights : AccessRights)

/-- Lock first, then check that no human uses the desktop, then expire old leases and insert. -/
def createDesktopLease (allowed : Bool) (desktop : ℕ) (lease : DesktopLease) :
    List (Stmt RowKey Row) :=
  [.lock, .guard fun _ V => allowed && !connectionOpen V desktop,
    closeLeases (fun now _ l => l.expiresAt ≤ now) .expired false,
    .insert fun _ _ fresh =>
      if accountOn fresh desktop reserves || leaseActive fresh desktop then none
      else some (.lease desktop { lease with state := .active })]

variable (sha256 : Sha256)

/-- Insert the pinned account, or touch the row that has the same pin. -/
def bindNativeGuestAccount (env : NativeEnv) (a : NativeGuestAccount) (digest : List UInt8)
    (pinned : Bool) : List (Stmt RowKey Row) :=
  if pinned then
    [.lock, updateAccount a fun now _ _ row =>
      Store.bindNativeGuestAccount sha256 env now (some row) a digest]
  else
    [.lock, .insert fun now _ _ =>
      (Store.bindNativeGuestAccount sha256 env now none a digest).toOption.map .account]

def beginNativeGuestCredential (env : NativeEnv) (a : NativeGuestAccount) (connectionId : String)
    (expiresAt : ℕ) (digest : List UInt8) : List (Stmt RowKey Row) :=
  [.lock, updateAccount a fun now V fresh row =>
    Store.beginNativeGuestCredential sha256
      (accountEnv env now a.desktopVmid a.userId connectionId V fresh) now row a connectionId
      expiresAt digest]

def initiatedBy (a : NativeGuestAccount) (digest : List UInt8) (V : List Row) : Bool :=
  V.any fun
    | .account row => row.desktopVmid == a.desktopVmid && row.userId == a.userId &&
        row.nativeSessionDigest == some digest
    | _ => false

/-- An issued credential opens its connection, a retired or revoked one closes it. -/
def completeNativeGuestAccountOperation (env : NativeEnv) (a : NativeGuestAccount)
    (connection : ConnectionEnv) (initiatingDigest : List UInt8) : List (Stmt RowKey Row) :=
  let apply := updateAccount a fun now _ _ row =>
    Store.completeNativeGuestAccountOperation sha256 env now row a
  if a.operation = .issue then
    [.lock, .guard fun _ V => initiatedBy a initiatingDigest V, apply,
      .guard fun _ _ => a.expiresAt.isSome,
      insertConnection connection
        { id := a.connectionId, userId := a.userId, desktopVmid := a.desktopVmid
          guestUsername := a.guestUsername, state := .active, expiresAt := a.expiresAt.getD 0
          terminationRequired := false, nativeSessionDigest := none }
        (some initiatingDigest) true]
  else
    [.lock, apply, updateConnections
        (fun c => c.id == a.connectionId && c.desktopVmid == a.desktopVmid &&
          c.userId == a.userId && c.guestUsername == a.guestUsername)
        (fun now c => c.close (a.operation == .revoke) now)]

/-- The recovery of an account waits until nothing else works on the desktop. -/
def commitNativeGuestRecovery (env : NativeEnv) (expected : NativeGuestAccount) (revision : ℕ)
    (connectionId : String) (receipt : RecoveryReceipt) (safe : Bool) : List (Stmt RowKey Row) :=
  [.lock, .guard fun _ V => safe && !connectionOpen V expected.desktopVmid &&
      !(accountOn V expected.desktopVmid fun b =>
        b.state == .pending || b.operation == .issue || b.operation == .retire) &&
      !leaseActive V expected.desktopVmid,
    updateAccount expected fun now _ _ row =>
      Store.commitNativeGuestRecovery sha256 env now row expected revision connectionId receipt]

def program : StoreOp → List (Stmt RowKey Row)
  | .createDesktopLease allowed d lease => createDesktopLease allowed d lease
  | .releaseDesktopLease id => [.lock, closeLeases (fun _ _ l => l.id == id) .released true]
  | .revokeDesktopLeases d => [.lock, closeLeases (fun _ d' _ => d' == d) .revoked true]
  | .queueExpiredComputerLeases d =>
    [.lock, closeLeases (fun now d' l => l.expiresAt ≤ now && (d == 0 || d' == d)) .expired true]
  | .queueAgentGuestSessionRevocation id live =>
    [.lock, closeLeases (fun _ _ l => l.id == id && live) .revoked false]
  | .setAgentEnabled agentId enabled =>
    [.lock, closeLeases (fun _ _ l => !enabled && l.agentId == agentId) .revoked true]
  | .bindNativeGuestAccount env a digest pinned => bindNativeGuestAccount sha256 env a digest pinned
  | .beginNativeGuestCredential env a connectionId expiresAt digest =>
    beginNativeGuestCredential sha256 env a connectionId expiresAt digest
  | .retireNativeGuestCredential env a =>
    [.lock, updateAccount a fun now _ _ row =>
      Store.retireNativeGuestCredential sha256 env now row a]
  | .revokeNativeGuestAccount env a =>
    [.lock, updateAccount a fun now _ _ row => Store.revokeNativeGuestAccount sha256 env now row a]
  | .completeNativeGuestAccountOperation env a connection initiatingDigest =>
    completeNativeGuestAccountOperation sha256 env a connection initiatingDigest
  | .commitNativeGuestRecovery env expected revision connectionId receipt safe =>
    commitNativeGuestRecovery sha256 env expected revision connectionId receipt safe
  | .createDesktopConnectionSession env session nativeDigest =>
    [.lock, insertConnection env session nativeDigest false]
  | .beginRevokeDesktopConnections d =>
    [updateConnections (fun c => c.desktopVmid == d) fun _ c => c.beginRevoke]
  | .beginRevokeUserDesktopConnections userId =>
    [updateConnections (fun c => c.userId == userId) fun _ c => c.beginRevoke]
  | .beginRevokeDesktopConnection id userId =>
    [updateConnections (fun c => c.id == id && c.userId == userId) fun _ c => c.beginRevoke]
  | .desktopConnectionsDueForRevocation due =>
    [.lock, updateConnections (fun c => c.state == .revoking || due c) fun _ c => c.beginRevoke]
  | .markDesktopConnectionClosed id state =>
    [updateConnections
      (fun c => c.id == id && c.state == .revoking && (state == .revoked || state == .expired))
      fun _ c => c.markClosed state]
  | .completeGuestIdentityRevocation d userId guestUsername =>
    [.lock, updateConnections
      (fun c => c.desktopVmid == d && c.userId == userId && c.guestUsername == guestUsername)
      fun now c => c.close true now]
  | .revokeNativeSession userId =>
    [.lock, updateConnections (fun c => c.userId == userId) fun _ c => c.terminate]
  | .setUserDisabled userId disabled rights =>
    .lock :: updateConnections (fun c => disabled && c.userId == userId && c.state == .active)
      (fun _ c => c.terminate) :: commitAccessChange rights
  | .setUserPassword userId rights =>
    .lock :: updateConnections (fun c => c.userId == userId) (fun _ c => c.terminate) ::
      commitAccessChange rights
  | .deleteAgentAssignment agentId d rights =>
    .lock :: closeLeases (fun _ d' l => l.agentId == agentId && d' == d) .revoked true ::
      commitAccessChange rights
  | .changeAccess rights => .lock :: commitAccessChange rights

def store : Machine (System RowKey Row) (Event StoreOp Row) := machine schema (program sha256)

end Programs

end VcWorkspace.Store.Reservation
