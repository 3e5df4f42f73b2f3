import VcWorkspace.Store.Access

/-! # Gateway tickets

A ticket authorizes one tunnel of a gateway to the desktop of a connection. The
query of the access is evaluated when the ticket is made, when the gateway
redeems it and at every renewal; a grant is a lease of at most five seconds.
All times are in microseconds.
-/

namespace VcWorkspace.Store

open Transition Guest

def gatewayAuthorizationWindow : ℕ := 5000000

inductive Addr
  | v4 (a b c d : UInt8)
  | v6 (bytes : Vector UInt8 16)
  deriving DecidableEq, Repr

namespace Addr

def is4 : Addr → Bool
  | .v4 .. => true
  | .v6 _ => false

def isPrivate : Addr → Bool
  | .v4 a b _ _ => a == 10 || (a == 172 && b &&& 0xf0 == 16) || (a == 192 && b == 168)
  | .v6 bytes => bytes[0] &&& 0xfe == 0xfc

end Addr

/-- The pattern `^gw_[a-z0-9_-]{8,64}$`. -/
def gatewayIdPattern (id : String) : Bool :=
  let rest := (bytes id).drop 3
  startsWith id "gw_" && 8 ≤ rest.length && rest.length ≤ 64 &&
    rest.all fun b => isTokenByte b && !(65 ≤ b && b ≤ 90)

/-- The pattern `^tun_[A-Za-z0-9_-]{24,128}$`. -/
def tunnelIdPattern (id : String) : Bool :=
  let rest := (bytes id).drop 4
  startsWith id "tun_" && 24 ≤ rest.length && rest.length ≤ 128 && rest.all isTokenByte

def base64Value (b : UInt8) : Option ℕ :=
  if 65 ≤ b && b ≤ 90 then some (b.toNat - 65)
  else if 97 ≤ b && b ≤ 122 then some (b.toNat - 71)
  else if isAsciiDigit b then some (b.toNat + 4)
  else if b == 45 then some 62
  else if b == 95 then some 63
  else none

/-- `gwt_` and the strict encoding of 32 bytes: 43 digits, and two unused bits that are zero. -/
def validTicket (token : String) : Bool :=
  let rest := (bytes token).drop 4
  startsWith token "gwt_" && (bytes token).length == 47 &&
    rest.all (fun b => (base64Value b).isSome) &&
    (rest.getLast?.bind base64Value).any fun n => n % 4 == 0

def gatewayTokenDigest (sha256 : Sha256) (token : String) :
    Except StoreError (Vector UInt8 32) := do
  ensure .notFound (validTicket token)
  pure (sha256 token)

section Rows

structure IdentityProfile where
  id : String
  platform : OsFamily
  enabled : Bool
  deriving DecidableEq, Repr

inductive PrivilegeMode
  | standard | localAdmin
  deriving DecidableEq, Repr

structure SessionControls where
  privilegeMode : PrivilegeMode
  clipboardRedirection : Bool
  driveRedirection : Bool
  managedBackground : Bool
  deriving DecidableEq, Repr

inductive PolicyState
  | pending | applied | failed
  deriving DecidableEq, Repr

structure DesktopAccessPolicy where
  vmid : ℕ
  controls : SessionControls
  desiredRevision : ℕ
  appliedRevision : ℕ
  state : PolicyState
  osFamily : Option OsFamily
  deriving DecidableEq, Repr

structure Tunnel where
  tunnelId : String
  consumedAt : ℕ
  leaseUntil : ℕ
  closedAt : Option ℕ
  deriving DecidableEq, Repr

structure GatewayTicket where
  tokenDigest : Vector UInt8 32
  connectionId : String
  gatewayId : String
  target : Addr
  certificateSha256 : List UInt8
  policyRevision : ℕ
  expiresAt : ℕ
  sessionDeadline : ℕ
  tunnel : Option Tunnel
  deriving DecidableEq, Repr

def GatewayTicket.close (g : GatewayTicket) (now : ℕ) : GatewayTicket :=
  { g with tunnel := g.tunnel.map fun t => { t with closedAt := some now } }

structure NativeGatewayTicketRequest where
  connectionId : String
  nativeDigest : List UInt8
  gatewayId : String
  target : Addr
  certificateSha256 : List UInt8
  policyRevision : ℕ
  deriving DecidableEq, Repr

structure NativeGatewayGrant where
  connectionId : String
  gatewayId : String
  tunnelId : String
  target : Addr
  certificateSha256 : List UInt8
  policyRevision : ℕ
  validFor : ℕ
  deriving DecidableEq, Repr

structure GatewayAccess where
  id : String
  nativeSessionDigest : List UInt8
  policyRevision : ℕ
  deadline : ℕ
  deriving DecidableEq, Repr

end Rows

structure GatewayStore where
  access : AccessState
  profiles : List IdentityProfile
  policies : List DesktopAccessPolicy
  tickets : List GatewayTicket
  deriving DecidableEq

def OsFamily.text : OsFamily → String
  | .linux => "linux"
  | .windows => "windows"

def managedLocalProfile (os : OsFamily) : String := "managed-local-" ++ os.text

namespace GatewayStore

section Query

variable (s : GatewayStore)

/-- The desktop has a native account that is changing, or the user's is not the connection's. -/
def accountBlocks (c : DesktopConnectionSession) : Bool :=
  s.access.grants.accounts.any fun a => a.desktopVmid == c.desktopVmid &&
    (a.state == .pending || (a.userId == c.userId &&
      (a.connectionId != c.id || a.operation != .issue || a.state != .applied)))

def connectionAccess (now : ℕ) (c : DesktopConnectionSession) : Option GatewayAccess := do
  let digest ← c.nativeSessionDigest
  let n ← s.access.grants.nativeSessions.find? fun n =>
    n.tokenDigest == digest && n.userId == c.userId
  let d ← s.access.tables.desktop c.desktopVmid
  let os ← d.osFamily
  let b ← s.access.grants.bindings.find? fun b => b.desktopVmid == c.desktopVmid &&
    b.userId == c.userId && b.guestUsername == c.guestUsername
  let p ← s.profiles.find? (·.id == b.profileId.getD (managedLocalProfile os))
  let policy ← s.policies.find? (·.vmid == c.desktopVmid)
  guard (c.state == .active && !c.terminationRequired && now < c.expiresAt && now < n.expiresAt)
  guard (s.access.access c.userId c.desktopVmid && (b.state == .ready || b.state == .provisioning))
  guard (p.enabled && p.platform == os && p.id == d.identityProfileId.getD (managedLocalProfile os))
  guard (policy.state == .applied && policy.desiredRevision == policy.appliedRevision &&
    policy.osFamily == some os)
  guard (!s.access.grants.revocationPending c.desktopVmid && !s.accountBlocks c)
  pure ⟨c.id, digest, policy.desiredRevision, min c.expiresAt n.expiresAt⟩

def gatewayAccess (now : ℕ) (connectionId : String) : Option GatewayAccess :=
  (s.access.grants.connection connectionId).bind (s.connectionAccess now)

/-- The access that still stands behind a ticket: of its connection, under its policy. -/
def ticketAccess (now : ℕ) (g : GatewayTicket) : Option GatewayAccess :=
  (s.gatewayAccess now g.connectionId).filter (·.policyRevision == g.policyRevision)

/-- The ticket that meets a condition and has access, as an update joins them. -/
def selectTicket (now : ℕ) (p : GatewayTicket → Bool) : Option (GatewayTicket × GatewayAccess) :=
  s.tickets.findSome? fun g => if p g then (s.ticketAccess now g).map (g, ·) else none

end Query

section Tickets

variable (sha256 : Sha256) (s : GatewayStore)

def createNativeGatewayTicket (request : NativeGatewayTicketRequest) (secret : String) (now : ℕ) :
    Except StoreError GatewayStore := do
  ensure .notFound (request.nativeDigest.length == 32 && gatewayIdPattern request.gatewayId &&
    request.target.is4 && request.target.isPrivate && request.certificateSha256.length == 32 &&
    (bytes request.connectionId).length ≤ 140 && request.connectionId != "" &&
    0 < request.policyRevision)
  let digest := sha256 ("gwt_" ++ secret)
  match s.gatewayAccess now request.connectionId with
  | none => .error .notFound
  | some a =>
    ensure .notFound (a.nativeSessionDigest == request.nativeDigest &&
      a.policyRevision == request.policyRevision)
    ensure .conflict (!s.tickets.any fun g => g.tokenDigest == digest || g.connectionId == a.id)
    pure
      { s with
        tickets := s.tickets ++ [{
          tokenDigest := digest, connectionId := a.id, gatewayId := request.gatewayId
          target := request.target, certificateSha256 := request.certificateSha256
          policyRevision := a.policyRevision, expiresAt := min a.deadline (now + 30000000)
          sessionDeadline := a.deadline, tunnel := none }] }

def putTunnel (g : GatewayTicket) (t : Tunnel) : GatewayStore :=
  { s with
    tickets := updateWhere (·.tokenDigest == g.tokenDigest) (fun h => { h with tunnel := some t })
      s.tickets }

/-- The end of a lease: the session's, the access's or that of the window. -/
def leaseUntil (now : ℕ) (g : GatewayTicket) (a : GatewayAccess) : ℕ :=
  min (min g.sessionDeadline a.deadline) (now + gatewayAuthorizationWindow)

def scanGatewayGrant (now : ℕ) (g : GatewayTicket) (t : Tunnel) :
    Except StoreError NativeGatewayGrant := do
  let validFor := t.leaseUntil - now
  ensure .notFound (g.target.is4 && g.target.isPrivate && g.certificateSha256.length == 32 &&
    0 < validFor && validFor ≤ gatewayAuthorizationWindow)
  pure ⟨g.connectionId, g.gatewayId, t.tunnelId, g.target, g.certificateSha256, g.policyRevision,
    validFor⟩

def redeemNativeGatewayTicket (gatewayId token random : String) (now : ℕ) :
    Except StoreError (GatewayStore × Tunnel × NativeGatewayGrant) := do
  let digest ← gatewayTokenDigest sha256 token
  ensure .notFound (gatewayIdPattern gatewayId)
  match s.selectTicket now fun g => g.tokenDigest == digest && g.gatewayId == gatewayId &&
      g.tunnel.isNone && now < g.expiresAt && now < g.sessionDeadline with
  | none => .error .notFound
  | some (g, a) =>
    let t : Tunnel := ⟨"tun_" ++ random, now, leaseUntil now g a, none⟩
    ensure (.sql "23514" "gateway_session_tickets_tunnel_id_check") (tunnelIdPattern t.tunnelId)
    ensure .conflict (!s.tickets.any fun h => h.tunnel.any (·.tunnelId == t.tunnelId))
    let grant ← scanGatewayGrant now g t
    pure (s.putTunnel g t, t, grant)

def renewNativeGatewayGrant (gatewayId tunnelId : String) (now : ℕ) :
    Except StoreError (GatewayStore × Tunnel × NativeGatewayGrant) := do
  ensure .notFound (gatewayIdPattern gatewayId && tunnelIdPattern tunnelId)
  match s.selectTicket now fun g => g.gatewayId == gatewayId && g.tunnel.any (fun t =>
      t.tunnelId == tunnelId && t.closedAt.isNone && now < t.leaseUntil) &&
      now < g.sessionDeadline with
  | none => .error .notFound
  | some (g, a) =>
    match g.tunnel with
    | none => .error .notFound
    | some t =>
      let t := { t with leaseUntil := leaseUntil now g a }
      let grant ← scanGatewayGrant now g t
      pure (s.putTunnel g t, t, grant)

def closeNativeGatewayGrant (gatewayId tunnelId : String) (now : ℕ) :
    Except StoreError GatewayStore := do
  ensure .notFound (gatewayIdPattern gatewayId && tunnelIdPattern tunnelId)
  pure
    { s with
      tickets := updateWhere (fun g => g.gatewayId == gatewayId && g.tunnel.any (fun t =>
          t.tunnelId == tunnelId && t.closedAt.isNone))
        (·.close now) s.tickets }

end Tickets

section Policies

variable (s : GatewayStore)

def putIdentityProfile (profile : IdentityProfile) : GatewayStore :=
  { s with profiles := upsert (·.id == profile.id) (fun _ => profile) profile s.profiles }

def defaultControls : SessionControls := ⟨.standard, true, false, true⟩

def ensureDesktopAccessPolicy (vmid : ℕ) : Except StoreError GatewayStore := do
  ensure (.invalid "desktop access policy VMID is invalid") (0 < vmid)
  pure
    { s with
      policies := upsert (·.vmid == vmid) id ⟨vmid, defaultControls, 1, 0, .pending, none⟩
        s.policies }

/-- Set the policy of a desktop; a change of the controls is a new revision. -/
def putDesktopAccessPolicy (vmid : ℕ) (controls : SessionControls) :
    Except StoreError GatewayStore := do
  ensure (.invalid "desktop access policy is invalid") (0 < vmid)
  ensure (.sql "22003" "bigint out of range") (s.policies.all fun p => p.vmid != vmid ||
    p.controls == controls || p.desiredRevision < maxInt64)
  pure
    { s with
      policies := upsert (·.vmid == vmid) (fun p =>
          { p with
            controls := controls, state := .pending
            desiredRevision := if p.controls = controls then p.desiredRevision
              else p.desiredRevision + 1 })
        ⟨vmid, controls, 1, 0, .pending, none⟩ s.policies }

def markDesktopAccessPolicy (vmid revision : ℕ)
    (update : DesktopAccessPolicy → DesktopAccessPolicy) :
    Except StoreError GatewayStore := do
  let current := fun p : DesktopAccessPolicy => p.vmid == vmid && p.desiredRevision == revision
  ensure .notFound (s.policies.any current)
  pure { s with policies := updateWhere current update s.policies }

def markDesktopAccessPolicyApplied (vmid revision : ℕ) (os : Option OsFamily) :
    Except StoreError GatewayStore :=
  s.markDesktopAccessPolicy vmid revision fun p =>
    { p with appliedRevision := revision, state := .applied, osFamily := os }

def markDesktopAccessPolicyFailed (vmid revision : ℕ) (os : Option OsFamily) :
    Except StoreError GatewayStore :=
  s.markDesktopAccessPolicy vmid revision fun p => { p with state := .failed, osFamily := os }

end Policies

end GatewayStore

section Operations

/-- The transactions that the access query and the tickets depend on. -/
inductive GatewayOp
  | access (op : AccessOp)
  | putIdentityProfile (profile : IdentityProfile)
  | ensureDesktopAccessPolicy (vmid : ℕ)
  | putDesktopAccessPolicy (vmid : ℕ) (controls : SessionControls)
  | markDesktopAccessPolicyApplied (vmid revision : ℕ) (os : Option OsFamily)
  | markDesktopAccessPolicyFailed (vmid revision : ℕ) (os : Option OsFamily)
  | createNativeGatewayTicket (request : NativeGatewayTicketRequest) (secret : String)
  | redeemNativeGatewayTicket (gatewayId token random : String)
  | renewNativeGatewayGrant (gatewayId tunnelId : String)
  | closeNativeGatewayGrant (gatewayId tunnelId : String)

variable (sha256 : Sha256) (now : ℕ)

def GatewayOp.apply (s : GatewayStore) : GatewayOp → Except StoreError GatewayStore
  | .access op => do
    let access ← op.apply sha256 s.access
    pure { s with access := access }
  | .putIdentityProfile profile => pure (s.putIdentityProfile profile)
  | .ensureDesktopAccessPolicy vmid => s.ensureDesktopAccessPolicy vmid
  | .putDesktopAccessPolicy vmid controls => s.putDesktopAccessPolicy vmid controls
  | .markDesktopAccessPolicyApplied vmid revision os =>
    s.markDesktopAccessPolicyApplied vmid revision os
  | .markDesktopAccessPolicyFailed vmid revision os =>
    s.markDesktopAccessPolicyFailed vmid revision os
  | .createNativeGatewayTicket request secret =>
    s.createNativeGatewayTicket sha256 request secret now
  | .redeemNativeGatewayTicket gatewayId token random => do
    let r ← s.redeemNativeGatewayTicket sha256 gatewayId token random now
    pure r.1
  | .renewNativeGatewayGrant gatewayId tunnelId => do
    let r ← s.renewNativeGatewayGrant gatewayId tunnelId now
    pure r.1
  | .closeNativeGatewayGrant gatewayId tunnelId => s.closeNativeGatewayGrant gatewayId tunnelId now

def GatewayOp.login : GatewayOp → Option NativeSession
  | .access op => op.login
  | _ => none

end Operations

section Sample

def sampleConnection : DesktopConnectionSession :=
  ⟨"conn_1", "user", 100, "vcw000000000000", .active, 80000000, false,
    some sampleSession.tokenDigest⟩

def sampleSecret : String := "AAAAAAAAAAAAAAAAAAAAAAAAAAAAAAAAAAAAAAAAAAA"

def sampleTunnelSecret : String := "AAAAAAAAAAAAAAAAAAAAAAAA"

/-- A user of an assigned desktop logs in, connects and gets a ticket. -/
def sampleTicketed : List GatewayOp :=
  sampleBound.map .access ++
    [.ensureDesktopAccessPolicy 100, .markDesktopAccessPolicyApplied 100 1 (some .linux),
      .access sampleLogin,
      .access (.createNativeDesktopConnectionSession sampleConnection sampleSession.tokenDigest 0),
      .createNativeGatewayTicket ⟨"conn_1", sampleSession.tokenDigest, "gw_00000000", .v4 10 0 0 5,
        List.replicate 32 2, 1⟩ sampleSecret]

end Sample

end VcWorkspace.Store
