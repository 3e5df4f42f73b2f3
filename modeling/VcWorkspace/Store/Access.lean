import VcWorkspace.Store.AccessTables
import VcWorkspace.Store.ComputerLedger
import VcWorkspace.Store.Connection
import VcWorkspace.Store.NativeAccount

/-! # Changes of access

The store operations that change who may use a desktop, and those that use a
right to one: connections, leases, guest identity bindings and native accounts.
A change of access ends in one common step that takes away what is no longer
allowed.
-/

namespace VcWorkspace.Store

open Transition

inductive BindingState
  | provisioning | ready | failed | disabled
  deriving DecidableEq, Repr

structure GuestIdentityBinding where
  desktopVmid : ℕ
  userId : String
  profileId : Option String
  guestUsername : String
  state : BindingState
  lastError : String
  sessionExpiresAt : Option ℕ
  deriving DecidableEq, Repr

inductive RevocationReason
  | accessRemoved | credentialRevoked | expired
  deriving DecidableEq, Repr

structure GuestIdentityRevocation where
  desktopVmid : ℕ
  userId : String
  guestUsername : String
  queue : Queue
  reason : RevocationReason
  deriving DecidableEq, Repr

def GuestIdentityRevocation.concerns (r : GuestIdentityRevocation) (b : GuestIdentityBinding) :
    Bool :=
  r.desktopVmid == b.desktopVmid && r.userId == b.userId && r.guestUsername == b.guestUsername

structure NativeSession where
  tokenDigest : List UInt8
  userId : String
  expiresAt : ℕ
  deriving DecidableEq, Repr

structure Grants where
  connections : List DesktopConnectionSession
  /-- The leases with their desktops. -/
  leases : List (ℕ × DesktopLease)
  bindings : List GuestIdentityBinding
  revocations : List GuestIdentityRevocation
  accounts : List NativeGuestRow
  nativeSessions : List NativeSession
  deriving DecidableEq

namespace Grants

section Statements

variable (g : Grants)

def updateConnections (p : DesktopConnectionSession → Bool)
    (f : DesktopConnectionSession → DesktopConnectionSession) : Grants :=
  { g with connections := updateWhere p f g.connections }

def deleteSessions (p : NativeSession → Bool) : Grants :=
  { g with nativeSessions := g.nativeSessions.filter fun n => !p n }

def closeLeases (p : ℕ → DesktopLease → Bool) (state : LeaseState) (bump : Bool) : Grants :=
  { g with
    leases := updateWhere (fun l => l.2.state == .active && p l.1 l.2)
      (fun l => (l.1, l.2.close state bump)) g.leases }

/-- Disable the bindings that meet a condition, and request the revocation of their accounts. -/
def queueGuestIdentityRevocations (p : GuestIdentityBinding → Bool) (reason : RevocationReason) :
    Except StoreError Grants := do
  let affected := g.bindings.filter p
  ensure (.sql "22003" "bigint out of range") (g.revocations.all fun r =>
    !affected.any r.concerns || r.queue.requested < maxInt64)
  pure
    { g with
      bindings := updateWhere p (fun b => { b with state := .disabled }) g.bindings
      revocations :=
        updateWhere (fun r => affected.any r.concerns)
            (fun r => { r with queue := r.queue.request, reason := reason }) g.revocations ++
          (affected.filter fun b => !g.revocations.any (·.concerns b)).map fun b =>
            ⟨b.desktopVmid, b.userId, b.guestUsername, .first, reason⟩ }

def revocationPending (desktop : ℕ) : Bool :=
  g.revocations.any fun r => r.desktopVmid == desktop && r.queue.pending

def accountRevocationPending (b : GuestIdentityBinding) : Bool :=
  g.revocations.any fun r => r.concerns b && r.queue.pending

def connection (id : String) : Option DesktopConnectionSession :=
  g.connections.find? (·.id == id)

def connectionOpen (desktop : ℕ) : Bool :=
  g.connections.any fun c => c.desktopVmid == desktop && c.isOpen

/-- An account of the desktop that is pending or holds a credential and meets a condition. -/
def reserved (desktop : ℕ) (p : NativeGuestAccount → Bool) : Bool :=
  g.accounts.any fun a => a.desktopVmid == desktop && p a.toNativeGuestAccount &&
    (a.state == .pending || (a.operation == .issue && a.state == .applied))

def sessionLive (userId : String) (now : ℕ) (digest : List UInt8) : Bool :=
  g.nativeSessions.any fun n => n.tokenDigest == digest && n.userId == userId && now < n.expiresAt

end Statements

end Grants

structure AccessState where
  tables : AccessTables
  grants : Grants
  deriving DecidableEq

namespace AccessState

def access (s : AccessState) (userId : String) (vmid : ℕ) : Bool :=
  s.tables.effectiveUserDesktopAccess userId vmid

def updateGrants (s : AccessState) (f : Grants → Grants) : AccessState :=
  { s with grants := f s.grants }

/-- The end of an access change: bindings, connections and leases without a right to them go. -/
def commitAccessChange (s : AccessState) : Except StoreError AccessState := do
  let g ← s.grants.queueGuestIdentityRevocations
    (fun b => b.state != .disabled && !s.access b.userId b.desktopVmid) .accessRemoved
  let g := g.updateConnections (fun c => c.isOpen && !s.access c.userId c.desktopVmid) (·.terminate)
  let g := g.closeLeases (fun d l => !s.tables.agentAccess l.agentId d) .revoked true
  pure ⟨s.tables, g⟩

def changeAccess (s : AccessState) (t : Except StoreError AccessTables) :
    Except StoreError AccessState := do
  let t ← t
  commitAccessChange ⟨t, s.grants⟩

def extendAccess (s : AccessState) (t : Except StoreError AccessTables) :
    Except StoreError AccessState := do
  let t ← t
  pure ⟨t, s.grants⟩

section Users

variable (s : AccessState)

/-- Disabling a user ends the user's sessions and active connections first. -/
def setUserDisabled (id : String) (disabled : Bool) : Except StoreError AccessState := do
  let t ← s.tables.setDisabled id disabled
  let g := if disabled then
      (s.grants.deleteSessions (·.userId == id)).updateConnections
        (fun c => c.userId == id && c.state == .active) (·.terminate)
    else s.grants
  commitAccessChange ⟨t, g⟩

def setUserPassword (id passwordHash : String) : Except StoreError AccessState := do
  ensure (.invalid "user password update is invalid")
    (trimSpace id != "" && trimSpace passwordHash != "")
  let t ← s.tables.setPassword id passwordHash
  let g := (s.grants.deleteSessions (·.userId == id)).updateConnections
    (fun c => c.userId == id && c.isOpen) (·.terminate)
  let g ← g.queueGuestIdentityRevocations (·.userId == id) .credentialRevoked
  commitAccessChange ⟨t, g⟩

/-- A disabled agent loses its leases; nothing else depends on agents. -/
def setAgentEnabled (id : String) (enabled : Bool) : Except StoreError AccessState := do
  let t ← s.tables.setAgent id enabled
  pure ⟨t, s.grants.closeLeases (fun _ l => !enabled && l.agentId == id) .revoked true⟩

def deleteDesktopAssignment (subjectType : SubjectType) (subjectId : String) (vmid : ℕ) :
    Except StoreError AccessState := do
  let t ← s.tables.deleteDesktopAssignment subjectType subjectId vmid
  let deleted := subjectType == .agent && s.tables.agentAssignments.contains (subjectId, vmid)
  commitAccessChange
    ⟨t, s.grants.closeLeases (fun d l => deleted && l.agentId == subjectId && d == vmid) .revoked
      true⟩

/-- A login whose password check still stands opens a native session. -/
def createVerifiedLoginSession (digest : List UInt8) (userId : String)
    (passwordHash : Option String) (expiresAt now : ℕ) : Except StoreError AccessState := do
  ensure .notFound (now < expiresAt && s.tables.users.any fun u => u.id == userId && !u.disabled &&
    u.passwordHash.getD "" == passwordHash.getD "")
  ensure (.sql "23505" "native_sessions_pkey")
    (!s.grants.nativeSessions.any (·.tokenDigest == digest))
  pure (s.updateGrants fun g =>
    { g with nativeSessions := g.nativeSessions ++ [⟨digest, userId, expiresAt⟩] })

/-- Logging out ends the session and revokes the user's connections and accounts. -/
def revokeNativeSession (digest : List UInt8) : Except StoreError AccessState :=
  match s.grants.nativeSessions.find? (·.tokenDigest == digest) with
  | none => pure s
  | some session => do
    let g := (s.grants.deleteSessions (·.tokenDigest == digest)).updateConnections
      (fun c => c.userId == session.userId && c.isOpen) (·.terminate)
    let g ← g.queueGuestIdentityRevocations (·.userId == session.userId) .credentialRevoked
    pure ⟨s.tables, g⟩

end Users

section Bindings

variable (s : AccessState)

/-- Revoke the accounts whose session has expired, on one desktop or on all. -/
def queueExpiredGuestIdentities (vmid now : ℕ) : Except StoreError AccessState := do
  let g ← s.grants.queueGuestIdentityRevocations
    (fun b => b.state != .disabled && b.sessionExpiresAt.any (· ≤ now) &&
      (vmid == 0 || b.desktopVmid == vmid)) .expired
  pure ⟨s.tables, g⟩

/-- Bind a user to a Guest account. The subject of a binding with a native account is fixed. -/
def putGuestIdentityBinding (binding : GuestIdentityBinding) (profileExists : Bool) :
    Except StoreError AccessState := do
  let same := fun b : GuestIdentityBinding =>
    b.desktopVmid == binding.desktopVmid && b.userId == binding.userId
  ensure (.sql "23503" "foreign key") ((s.tables.desktop binding.desktopVmid).isSome &&
    s.tables.hasUser binding.userId && (binding.profileId.isNone || profileExists))
  ensure (.sql "23514" "Pinned Native Guest binding cannot be reassigned")
    (!(s.grants.bindings.any (fun b => same b && (b.guestUsername != binding.guestUsername ||
        b.profileId != binding.profileId)) &&
      s.grants.accounts.any fun a => a.desktopVmid == binding.desktopVmid &&
        a.userId == binding.userId))
  ensure (.sql "23505" "guest_identity_bindings_desktop_vmid_guest_username_key")
    (!s.grants.bindings.any fun b => !same b && b.desktopVmid == binding.desktopVmid &&
      b.guestUsername == binding.guestUsername)
  pure (s.updateGrants fun g =>
    { g with
      bindings := upsert same (fun b =>
          { b with
            profileId := binding.profileId, guestUsername := binding.guestUsername
            state := binding.state, lastError := binding.lastError })
        { binding with sessionExpiresAt := none } g.bindings })

/-- Acknowledge the revocation that the Guest has carried out, unless a newer one was requested. -/
def completeGuestIdentityRevocation (vmid : ℕ) (userId guestUsername : String) (revision now : ℕ) :
    Except StoreError AccessState := do
  let mine := fun r : GuestIdentityRevocation =>
    r.desktopVmid == vmid && r.userId == userId && r.guestUsername == guestUsername &&
      (r.queue.complete revision).isSome
  ensure .conflict (s.grants.revocations.any mine)
  let g :=
    { s.grants with
      revocations := updateWhere mine
        (fun r => { r with queue := (r.queue.complete revision).getD r.queue }) s.grants.revocations
      bindings := updateWhere
        (fun b => b.desktopVmid == vmid && b.userId == userId && b.guestUsername == guestUsername)
        (fun b => { b with sessionExpiresAt := none, state := .disabled }) s.grants.bindings }
  pure ⟨s.tables, g.updateConnections
    (fun c => c.desktopVmid == vmid && c.userId == userId && c.guestUsername == guestUsername &&
      c.isOpen) (·.close true now)⟩

end Bindings

section Connections

variable (s : AccessState)

def connectionEnv (session : DesktopConnectionSession) (nativeDigest : Option (List UInt8))
    (now : ℕ) : ConnectionEnv where
  accessible := s.access session.userId session.desktopVmid
  sessionLive := nativeDigest.any (s.grants.sessionLive session.userId now)
  revocationPending := s.grants.revocationPending session.desktopVmid
  accountReserved := s.grants.reserved session.desktopVmid (fun _ => true) ||
    s.grants.accounts.any fun a => a.desktopVmid == session.desktopVmid &&
      a.userId == session.userId
  indexTaken := s.grants.connections.any (·.id == session.id) ||
    s.grants.connectionOpen session.desktopVmid

def insertConnection (session : DesktopConnectionSession) (nativeDigest : Option (List UInt8))
    (boundNative : Bool) (now : ℕ) : Except StoreError AccessState := do
  let c ← insertDesktopConnectionSession (s.connectionEnv session nativeDigest now) session
    nativeDigest boundNative
  pure (s.updateGrants fun g =>
    { g with
      connections := g.connections ++ [c]
      bindings := updateWhere (fun b => b.desktopVmid == c.desktopVmid && b.userId == c.userId)
        (fun b => { b with sessionExpiresAt := some c.expiresAt }) g.bindings })

def createDesktopConnectionSession (session : DesktopConnectionSession)
    (nativeDigest : Option (List UInt8)) (now : ℕ) : Except StoreError AccessState :=
  s.insertConnection session nativeDigest false now

def createNativeDesktopConnectionSession (session : DesktopConnectionSession)
    (nativeDigest : List UInt8) (now : ℕ) : Except StoreError AccessState := do
  ensure .notFound (!nativeDigest.isEmpty && now < session.expiresAt)
  s.createDesktopConnectionSession session (some nativeDigest) now

def beginRevokeDesktopConnections (p : DesktopConnectionSession → Bool) : AccessState :=
  s.updateGrants (·.updateConnections (fun c => c.isOpen && p c) (·.beginRevoke))

/-- Some of the connections that are being revoked, have expired or lost their ticket. -/
def desktopConnectionsDueForRevocation (due : DesktopConnectionSession → Bool) : AccessState :=
  s.beginRevokeDesktopConnections due

def markDesktopConnectionClosed (id : String) (state : ConnectionState) :
    Except StoreError AccessState := do
  ensure (.invalid "desktop connection terminal state is invalid")
    (state == .revoked || state == .expired)
  pure (s.updateGrants (·.updateConnections (fun c => c.id == id && c.state == .revoking)
    (·.markClosed state)))

end Connections

section Leases

variable (s : AccessState)

/-- Create a lease for an agent with access to a desktop that no human uses. -/
def createDesktopLease (vmid : ℕ) (lease : DesktopLease) (now : ℕ) :
    Except StoreError AccessState := do
  ensure .notFound (s.tables.agentAccess lease.agentId vmid)
  ensure .alreadyLeased (!s.grants.connectionOpen vmid)
  let g := s.grants.closeLeases (fun _ l => l.expiresAt ≤ now) .expired false
  ensure .alreadyLeased (!g.reserved vmid fun _ => true)
  ensure .alreadyLeased (!g.leases.any fun l => l.2.id == lease.id ||
    (l.1 == vmid && l.2.state == .active))
  pure ⟨s.tables, { g with leases := g.leases ++ [(vmid, { lease with state := .active })] }⟩

def releaseDesktopLease (id : String) : Except StoreError AccessState := do
  ensure .notFound (s.grants.leases.any fun l => l.2.id == id && l.2.state == .active)
  pure (s.updateGrants (·.closeLeases (fun _ l => l.id == id) .released true))

def revokeDesktopLeases (vmid : ℕ) : Except StoreError AccessState := do
  ensure (.invalid "desktop identifier is invalid") (0 < vmid)
  pure (s.updateGrants (·.closeLeases (fun d _ => d == vmid) .revoked true))

def queueExpiredComputerLeases (vmid now : ℕ) : AccessState :=
  s.updateGrants (·.closeLeases (fun d l => l.expiresAt ≤ now && (vmid == 0 || d == vmid)) .expired
    true)

/-- A failed bootstrap closes the lease of its session, if the session is still live. -/
def queueAgentGuestSessionRevocation (leaseId : String) (sessionLive : Bool) : AccessState :=
  s.updateGrants (·.closeLeases (fun _ l => l.id == leaseId && sessionLive) .revoked false)

end Leases

section Accounts

variable (sha256 : Sha256) (s : AccessState)

/-- The subject of an account may use the desktop, with a live native session. -/
def subjectAdmitted (a : NativeGuestAccount) (nativeDigest : Option (List UInt8)) (now : ℕ) :
    Bool :=
  s.access a.userId a.desktopVmid &&
    s.tables.desktops.any (fun d => d.vmid == a.desktopVmid && d.osFamily == some a.osFamily &&
      d.enabled && d.present) &&
    s.grants.bindings.any (fun b => b.desktopVmid == a.desktopVmid && b.userId == a.userId &&
      b.guestUsername == a.guestUsername && (b.state == .provisioning || b.state == .ready)) &&
    nativeDigest.any (s.grants.sessionLive a.userId now) &&
    !s.grants.revocationPending a.desktopVmid

/-- What the statements on an account read here; `env` stands for the tables that are not. -/
def accountEnv (env : NativeEnv) (a : NativeGuestAccount) (connectionId : String)
    (nativeDigest : Option (List UInt8)) (now : ℕ) : NativeEnv :=
  { env with
    authorized := env.authorized && s.subjectAdmitted a nativeDigest now
    issueCompletable := env.issueCompletable && s.subjectAdmitted a nativeDigest now
    bindingExists := s.grants.bindings.any fun b => b.desktopVmid == a.desktopVmid &&
      b.userId == a.userId && b.guestUsername == a.guestUsername
    connectionTaken := s.grants.connections.any (·.id == connectionId) ||
      s.grants.connectionOpen a.desktopVmid
    leaseActive := s.grants.leases.any fun l => l.1 == a.desktopVmid && l.2.state == .active &&
      now < l.2.expiresAt
    otherReserved := s.grants.reserved a.desktopVmid fun b => b.userId != a.userId }

def account (a : NativeGuestAccount) : Option NativeGuestRow :=
  s.grants.accounts.find? fun row => row.desktopVmid == a.desktopVmid && row.userId == a.userId

def putAccount (row : NativeGuestRow) : AccessState :=
  s.updateGrants fun g =>
    { g with
      accounts := updateWhere
        (fun r => r.desktopVmid == row.desktopVmid && r.userId == row.userId) (fun _ => row)
        g.accounts }

def updateAccount (a : NativeGuestAccount)
    (f : NativeGuestRow → Except StoreError NativeGuestRow) : Except StoreError AccessState :=
  match s.account a with
  | none => .error .conflict
  | some row => do
    let row ← f row
    pure (s.putAccount row)

def bindNativeGuestAccount (env : NativeEnv) (a : NativeGuestAccount) (digest : List UInt8)
    (now : ℕ) : Except StoreError AccessState := do
  let row ← Store.bindNativeGuestAccount sha256 (s.accountEnv env a "" (some digest) now) now
    (s.account a) a digest
  pure (if (s.account a).isSome then s.putAccount row
    else s.updateGrants fun g => { g with accounts := g.accounts ++ [row] })

def beginNativeGuestCredential (env : NativeEnv) (a : NativeGuestAccount) (connectionId : String)
    (expiresAt : ℕ) (digest : List UInt8) (now : ℕ) : Except StoreError AccessState :=
  s.updateAccount a fun row => Store.beginNativeGuestCredential sha256
    (s.accountEnv env a connectionId (some digest) now) now row a connectionId expiresAt digest

def retireNativeGuestCredential (env : NativeEnv) (a : NativeGuestAccount) (now : ℕ) :
    Except StoreError AccessState :=
  s.updateAccount a fun row => Store.retireNativeGuestCredential sha256
    (s.accountEnv env a a.connectionId none now) now row a

def revokeNativeGuestAccount (env : NativeEnv) (a : NativeGuestAccount) (now : ℕ) :
    Except StoreError AccessState :=
  s.updateAccount a fun row => Store.revokeNativeGuestAccount sha256
    (s.accountEnv env a a.connectionId none now) now row a

def nativeConnection (a : NativeGuestAccount) (expiresAt : ℕ) : DesktopConnectionSession where
  id := a.connectionId
  userId := a.userId
  desktopVmid := a.desktopVmid
  guestUsername := a.guestUsername
  state := .active
  expiresAt := expiresAt
  terminationRequired := false
  nativeSessionDigest := none

def openNativeConnection (a : NativeGuestAccount) (initiatingDigest : Option (List UInt8))
    (now : ℕ) : Except StoreError AccessState :=
  match a.expiresAt with
  | none => .error .conflict
  | some expiresAt => s.insertConnection (nativeConnection a expiresAt) initiatingDigest true now

def closeNativeConnection (a : NativeGuestAccount) (now : ℕ) : AccessState :=
  (s.updateGrants (·.updateConnections
    (fun c => c.id == a.connectionId && c.desktopVmid == a.desktopVmid && c.userId == a.userId &&
      c.guestUsername == a.guestUsername && c.isOpen)
    (·.close (a.operation == .revoke) now))).updateGrants fun g =>
      { g with
        bindings := updateWhere
          (fun b => a.operation == .revoke && b.desktopVmid == a.desktopVmid &&
            b.userId == a.userId && b.guestUsername == a.guestUsername)
          (fun b => { b with sessionExpiresAt := none }) g.bindings }

def completeNativeGuestAccountOperation (env : NativeEnv) (a : NativeGuestAccount) (now : ℕ) :
    Except StoreError AccessState :=
  match s.account a with
  | none => .error .conflict
  | some row => do
    let row' ← Store.completeNativeGuestAccountOperation sha256
      (s.accountEnv env a a.connectionId row.nativeSessionDigest now) now row a
    if a.operation = .issue then
      (s.putAccount row').openNativeConnection a row.nativeSessionDigest now
    else pure ((s.putAccount row').closeNativeConnection a now)

/-- Nothing works on the desktop; `quiet` stands for the tables that are not here. -/
def recoverySafe (vmid : ℕ) (actorId : String) (quiet : Bool) : Bool :=
  quiet && s.tables.users.any (fun u => u.id == actorId && u.role == .platformAdmin &&
      !u.disabled) &&
    !s.grants.connectionOpen vmid &&
    !s.grants.accounts.any (fun a => a.desktopVmid == vmid &&
      (a.state == .pending || a.operation == .issue || a.operation == .retire)) &&
    !s.grants.leases.any (fun l => l.1 == vmid && l.2.state == .active) &&
    !s.grants.revocationPending vmid

def commitNativeGuestRecovery (env : NativeEnv) (expected : NativeGuestAccount) (revision : ℕ)
    (connectionId : String) (receipt : RecoveryReceipt) (quiet : Bool) (now : ℕ) :
    Except StoreError AccessState := do
  ensure .conflict (s.recoverySafe expected.desktopVmid receipt.actorId quiet)
  s.updateAccount expected fun row => Store.commitNativeGuestRecovery sha256
    (s.accountEnv env expected connectionId none now) now row expected revision connectionId receipt

end Accounts

section Admission

variable {sha256 : Sha256} {s s' : AccessState} {env : NativeEnv}
  {a : NativeGuestAccount} {digest : List UInt8} {now : ℕ}

theorem updateAccount_ok {f : NativeGuestRow → Except StoreError NativeGuestRow}
    (h : s.updateAccount a f = .ok s') :
    ∃ row row', s.account a = some row ∧ f row = .ok row' ∧ s' = s.putAccount row' := by
  unfold updateAccount at h
  split at h
  · cases h
  next row hrow =>
    obtain ⟨row', hf, h⟩ := bind_eq_ok.mp h
    exact ⟨row, row', hrow, hf, (Except.ok.inj h).symm⟩

theorem completeNativeGuestAccountOperation_ok
    (h : s.completeNativeGuestAccountOperation sha256 env a now = .ok s') :
    ∃ row row', s.account a = some row ∧
      Store.completeNativeGuestAccountOperation sha256
        (s.accountEnv env a a.connectionId row.nativeSessionDigest now) now row a = .ok row' ∧
      ((∃ expiresAt, (s.putAccount row').insertConnection (nativeConnection a expiresAt)
          row.nativeSessionDigest true now = .ok s') ∨
        s' = (s.putAccount row').closeNativeConnection a now) := by
  unfold completeNativeGuestAccountOperation at h
  split at h
  · cases h
  next row hrow =>
    obtain ⟨row', hcomplete, h⟩ := bind_eq_ok.mp h
    refine ⟨row, row', hrow, hcomplete, ?_⟩
    split at h
    · unfold openNativeConnection at h
      split at h
      · cases h
      next expiresAt _ => exact .inl ⟨expiresAt, h⟩
    · exact .inr (Except.ok.inj h).symm

theorem mem_of_sessionLive {g : Grants} {userId : String}
    (h : g.sessionLive userId now digest = true) :
    ∃ n ∈ g.nativeSessions, n.tokenDigest = digest ∧ n.userId = userId ∧ now < n.expiresAt := by
  simpa [Grants.sessionLive, and_assoc] using h

theorem subjectAdmitted_ok {initiating : Option (List UInt8)}
    (h : s.subjectAdmitted a initiating now = true) :
    (∃ d, initiating = some d ∧ s.grants.sessionLive a.userId now d = true) ∧
      s.grants.revocationPending a.desktopVmid = false := by
  simp only [subjectAdmitted, Bool.and_eq_true, Bool.not_eq_true', Option.any_eq_true] at h
  exact ⟨h.1.2, h.2⟩

theorem admitted_of_bind (h : s.bindNativeGuestAccount sha256 env a digest now = .ok s') :
    s.subjectAdmitted a (some digest) now = true := by
  obtain ⟨row, hbind, -⟩ := bind_eq_ok.mp h
  simp only [Store.bindNativeGuestAccount, seq_eq_ok, ensure_eq_ok, accountEnv,
    Bool.and_eq_true] at hbind
  exact hbind.2.1.2

theorem admitted_of_begin {connectionId : String} {expiresAt : ℕ}
    (h : s.beginNativeGuestCredential sha256 env a connectionId expiresAt digest now = .ok s') :
    s.subjectAdmitted a (some digest) now = true := by
  obtain ⟨row, row', -, hbegin, -⟩ := updateAccount_ok h
  have hauth := (begin_spec hbegin).authorized
  simp only [accountEnv, Bool.and_eq_true] at hauth
  exact hauth.2

theorem admitted_of_complete (hop : a.operation = .issue)
    (h : s.completeNativeGuestAccountOperation sha256 env a now = .ok s') :
    ∃ row, s.account a = some row ∧ row.expiresAt.any (now < ·) = true ∧
      s.subjectAdmitted a row.nativeSessionDigest now = true := by
  obtain ⟨row, row', hrow, hcomplete, -⟩ := completeNativeGuestAccountOperation_ok h
  have hcompleted := complete_spec hcomplete
  obtain ⟨hexpires, hlive⟩ := hcompleted.live (hcompleted.operation.trans hop)
  simp only [accountEnv, Bool.and_eq_true] at hlive
  exact ⟨row, hrow, hexpires, hlive.2⟩

theorem live_of_createNative {session : DesktopConnectionSession}
    (h : s.createNativeDesktopConnectionSession session digest now = .ok s') :
    now < session.expiresAt ∧ s.grants.sessionLive session.userId now digest = true ∧
      s.grants.revocationPending session.desktopVmid = false := by
  simp only [createNativeDesktopConnectionSession, createDesktopConnectionSession,
    insertConnection, seq_eq_ok, ensure_eq_ok, Bool.and_eq_true, decide_eq_true_eq] at h
  obtain ⟨⟨-, hlt⟩, h⟩ := h
  obtain ⟨c, hinsert, -⟩ := bind_eq_ok.mp h
  have hlive := sessionLive_of_insert hinsert
  exact ⟨hlt, hlive, (insertDesktopConnectionSession_ok hinsert).2.1⟩

end Admission

end AccessState

section Operations

inductive AccessOp
  | createUser (user : User)
  | setUserDisabled (id : String) (disabled : Bool)
  | setUserPassword (id passwordHash : String)
  | createAgentPrincipal (id : String)
  | setAgentEnabled (id : String) (enabled : Bool)
  | upsertManagedDesktop (report : DesktopReport)
  | reconcileManagedDesktops (reports : List DesktopReport)
  | quarantineClonedDesktop (report : DesktopReport)
  | updateManagedDesktopIdentity (vmid : ℕ) (accessMode : AccessMode) (ownerUserId : String)
      (profileId : Option String) (profileExists : Bool)
  | putDesktopAssignment (subjectType : SubjectType) (subjectId : String) (vmid : ℕ)
  | deleteDesktopAssignment (subjectType : SubjectType) (subjectId : String) (vmid : ℕ)
  | putIdentityGroup (group : IdentityGroup)
  | setIdentityGroupEnabled (id : String) (enabled : Bool)
  | putIdentityGroupMembership (groupId userId : String) (source : IdentitySource)
  | deleteIdentityGroupMembership (groupId userId : String)
  | syncOidcGroupMemberships (providerId userId : String) (providerExists : Bool)
      (groups : List OidcGroup)
  | reserveDesktopCloneJob (job : Job) (occupied : List ℕ) (choose : Bool)
  | recordCloneTaskHandle (expected : Job) (upid : String)
  | commitCloneRecovery (expected : Job) (upid actorId reason : String) (requestValid : Bool)
  | completeJobTask (id : String) (state : JobState) (upid : Option String)
  | createVerifiedLoginSession (digest : List UInt8) (userId : String)
      (passwordHash : Option String) (expiresAt now : ℕ)
  | revokeNativeSession (digest : List UInt8)
  | queueExpiredGuestIdentities (vmid now : ℕ)
  | putGuestIdentityBinding (binding : GuestIdentityBinding) (profileExists : Bool)
  | completeGuestIdentityRevocation (vmid : ℕ) (userId guestUsername : String) (revision now : ℕ)
  | createDesktopConnectionSession (session : DesktopConnectionSession) (now : ℕ)
  | createNativeDesktopConnectionSession (session : DesktopConnectionSession)
      (nativeDigest : List UInt8) (now : ℕ)
  | beginRevokeDesktopConnections (vmid : ℕ)
  | beginRevokeUserDesktopConnections (userId : String)
  | beginRevokeDesktopConnection (id userId : String)
  | desktopConnectionsDueForRevocation (due : DesktopConnectionSession → Bool)
  | markDesktopConnectionClosed (id : String) (state : ConnectionState)
  | createDesktopLease (vmid : ℕ) (lease : DesktopLease) (now : ℕ)
  | releaseDesktopLease (id : String)
  | revokeDesktopLeases (vmid : ℕ)
  | queueExpiredComputerLeases (vmid now : ℕ)
  | queueAgentGuestSessionRevocation (leaseId : String) (sessionLive : Bool)
  | bindNativeGuestAccount (env : NativeEnv) (a : NativeGuestAccount) (digest : List UInt8)
      (now : ℕ)
  | beginNativeGuestCredential (env : NativeEnv) (a : NativeGuestAccount) (connectionId : String)
      (expiresAt : ℕ) (digest : List UInt8) (now : ℕ)
  | retireNativeGuestCredential (env : NativeEnv) (a : NativeGuestAccount) (now : ℕ)
  | revokeNativeGuestAccount (env : NativeEnv) (a : NativeGuestAccount) (now : ℕ)
  | completeNativeGuestAccountOperation (env : NativeEnv) (a : NativeGuestAccount) (now : ℕ)
  | commitNativeGuestRecovery (env : NativeEnv) (expected : NativeGuestAccount) (revision : ℕ)
      (connectionId : String) (receipt : RecoveryReceipt) (quiet : Bool) (now : ℕ)

def AccessOp.login : AccessOp → Option NativeSession
  | .createVerifiedLoginSession digest userId _ expiresAt _ => some ⟨digest, userId, expiresAt⟩
  | _ => none

variable (sha256 : Sha256)

def AccessOp.apply (s : AccessState) : AccessOp → Except StoreError AccessState
  | .createUser user => s.extendAccess (s.tables.insertUser user)
  | .setUserDisabled id disabled => s.setUserDisabled id disabled
  | .setUserPassword id passwordHash => s.setUserPassword id passwordHash
  | .createAgentPrincipal id => s.extendAccess (s.tables.insertAgent id)
  | .setAgentEnabled id enabled => s.setAgentEnabled id enabled
  | .upsertManagedDesktop report => s.extendAccess (s.tables.upsertManagedDesktop report)
  | .reconcileManagedDesktops reports => s.changeAccess (s.tables.reconcileManagedDesktops reports)
  | .quarantineClonedDesktop report => s.changeAccess (s.tables.quarantineClonedDesktop report)
  | .updateManagedDesktopIdentity vmid mode owner profile profileExists =>
    s.changeAccess (s.tables.updateManagedDesktopIdentity vmid mode owner profile profileExists)
  | .putDesktopAssignment type subject vmid =>
    s.changeAccess (s.tables.putDesktopAssignment type subject vmid)
  | .deleteDesktopAssignment type subject vmid => s.deleteDesktopAssignment type subject vmid
  | .putIdentityGroup group => s.extendAccess (s.tables.putIdentityGroup group)
  | .setIdentityGroupEnabled id enabled =>
    s.changeAccess (s.tables.setIdentityGroupEnabled id enabled)
  | .putIdentityGroupMembership group user source =>
    s.extendAccess (s.tables.putIdentityGroupMembership group user source)
  | .deleteIdentityGroupMembership group user =>
    s.changeAccess (.ok (s.tables.deleteIdentityGroupMembership group user))
  | .syncOidcGroupMemberships provider user providerExists groups =>
    s.changeAccess (s.tables.syncOidcGroupMemberships provider user providerExists groups)
  | .reserveDesktopCloneJob job occupied choose =>
    s.extendAccess (s.tables.reserveDesktopCloneJob job occupied choose)
  | .recordCloneTaskHandle expected upid =>
    s.extendAccess (s.tables.recordCloneTaskHandle expected upid)
  | .commitCloneRecovery expected upid actor reason valid =>
    s.extendAccess (s.tables.commitCloneRecovery expected upid actor reason valid)
  | .completeJobTask id state upid =>
    s.extendAccess (.ok (s.tables.completeJobTask id state upid))
  | .createVerifiedLoginSession digest user hash expiresAt now =>
    s.createVerifiedLoginSession digest user hash expiresAt now
  | .revokeNativeSession digest => s.revokeNativeSession digest
  | .queueExpiredGuestIdentities vmid now => s.queueExpiredGuestIdentities vmid now
  | .putGuestIdentityBinding binding profileExists =>
    s.putGuestIdentityBinding binding profileExists
  | .completeGuestIdentityRevocation vmid user guest revision now =>
    s.completeGuestIdentityRevocation vmid user guest revision now
  | .createDesktopConnectionSession session now =>
    s.createDesktopConnectionSession session none now
  | .createNativeDesktopConnectionSession session digest now =>
    s.createNativeDesktopConnectionSession session digest now
  | .beginRevokeDesktopConnections vmid =>
    pure (s.beginRevokeDesktopConnections fun c => c.desktopVmid == vmid)
  | .beginRevokeUserDesktopConnections user =>
    pure (s.beginRevokeDesktopConnections fun c => c.userId == user)
  | .beginRevokeDesktopConnection id user =>
    pure (s.beginRevokeDesktopConnections fun c => c.id == id && c.userId == user)
  | .desktopConnectionsDueForRevocation due => pure (s.desktopConnectionsDueForRevocation due)
  | .markDesktopConnectionClosed id state => s.markDesktopConnectionClosed id state
  | .createDesktopLease vmid lease now => s.createDesktopLease vmid lease now
  | .releaseDesktopLease id => s.releaseDesktopLease id
  | .revokeDesktopLeases vmid => s.revokeDesktopLeases vmid
  | .queueExpiredComputerLeases vmid now => pure (s.queueExpiredComputerLeases vmid now)
  | .queueAgentGuestSessionRevocation lease live =>
    pure (s.queueAgentGuestSessionRevocation lease live)
  | .bindNativeGuestAccount env a digest now => s.bindNativeGuestAccount sha256 env a digest now
  | .beginNativeGuestCredential env a connection expiresAt digest now =>
    s.beginNativeGuestCredential sha256 env a connection expiresAt digest now
  | .retireNativeGuestCredential env a now => s.retireNativeGuestCredential sha256 env a now
  | .revokeNativeGuestAccount env a now => s.revokeNativeGuestAccount sha256 env a now
  | .completeNativeGuestAccountOperation env a now =>
    s.completeNativeGuestAccountOperation sha256 env a now
  | .commitNativeGuestRecovery env expected revision connection receipt quiet now =>
    s.commitNativeGuestRecovery sha256 env expected revision connection receipt quiet now

/-- The store, one committed transaction after the other; a failed one leaves no trace. -/
def accessStore : Machine AccessState AccessOp where
  Init s := s = ⟨⟨[], [], [], [], [], [], [], [], []⟩, ⟨[], [], [], [], [], []⟩⟩
  step s op := (op.apply sha256 s).toOption

end Operations

section Sample

def sampleBinding (state : BindingState) : GuestIdentityBinding :=
  ⟨100, "user", none, "vcw000000000000", state, "", none⟩

/-- A shared desktop is assigned to a user. -/
def sampleAssignment (os : OsFamily) : List AccessOp :=
  [.createUser ⟨"user", "user", none, .user, false⟩,
    .upsertManagedDesktop ⟨100, "Desktop", "node", some os⟩,
    .updateManagedDesktopIdentity 100 .shared "" none false,
    .putDesktopAssignment .user "user" 100]

/-- The user of the desktop has a Guest account. -/
def sampleBound : List AccessOp :=
  sampleAssignment .linux ++ [.putGuestIdentityBinding (sampleBinding .ready) false]

def sampleSession : NativeSession := ⟨List.replicate 32 1, "user", 90000000⟩

def sampleLogin : AccessOp :=
  .createVerifiedLoginSession sampleSession.tokenDigest "user" none sampleSession.expiresAt 0

end Sample

end VcWorkspace.Store
