import VcWorkspace.Store.GatewayTicket

/-! # The gateway relay

A relay redeems a ticket through the control service, dials the desktop and
copies bytes both ways for as long as its lease lasts. The control service tells
the remaining time in whole milliseconds, and the relay counts it from the start
of its own request. All times are in microseconds.
-/

namespace VcWorkspace.Gateway

open Transition Store Guest

def controlTimeout : ℕ := 2000000

/-- A network of version 4 addresses that a relay may dial. -/
structure Subnet where
  a : UInt8
  b : UInt8
  c : UInt8
  d : UInt8
  bits : ℕ
  deriving DecidableEq, Repr

def addrValue (a b c d : UInt8) : ℕ :=
  ((a.toNat * 256 + b.toNat) * 256 + c.toNat) * 256 + d.toNat

def Subnet.contains (n : Subnet) : Addr → Bool
  | .v4 a b c d =>
    addrValue a b c d / 2 ^ (32 - n.bits) == addrValue n.a n.b n.c n.d / 2 ^ (32 - n.bits)
  | .v6 _ => false

/-- A relay: its identity, the identity that the control service sees, the networks it may dial
and whether its caller waits for the tunnel to be ready. -/
structure Config where
  id : String
  peer : String
  allowed : List Subnet
  ready : Bool
  deriving DecidableEq, Repr

section Control

structure WireGrant where
  connectionId : String
  gatewayId : String
  tunnelId : String
  target : Addr
  certificateSha256 : List UInt8
  policyRevision : ℕ
  validForMs : ℕ
  deriving DecidableEq, Repr

def controlReply (peer : String) (g : NativeGatewayGrant) : Option WireGrant :=
  if g.gatewayId == peer && 1 ≤ g.validFor / 1000 && g.validFor ≤ gatewayAuthorizationWindow then
    some ⟨g.connectionId, g.gatewayId, g.tunnelId, g.target, g.certificateSha256, g.policyRevision,
      g.validFor / 1000⟩
  else none

def clientGrant (id : String) (w : WireGrant) : Option NativeGatewayGrant :=
  if w.target.is4 && w.target.isPrivate && w.certificateSha256.length == 32 &&
      w.gatewayId == id && tunnelIdPattern w.tunnelId && w.connectionId != "" &&
      (bytes w.connectionId).length ≤ 140 && 0 < w.policyRevision && 0 < w.validForMs &&
      w.validForMs ≤ gatewayAuthorizationWindow / 1000 then
    some ⟨w.connectionId, w.gatewayId, w.tunnelId, w.target, w.certificateSha256, w.policyRevision,
      w.validForMs * 1000⟩
  else none

/-- A grant as the relay gets it, with what the database wrote for it and when. -/
structure Issued where
  grant : NativeGatewayGrant
  statementAt : ℕ
  leaseUntil : ℕ
  deriving DecidableEq, Repr

inductive Call
  | redeem (ticket : String)
  | renew (tunnelId : String)
  deriving DecidableEq, Repr

def answer (config : Config) (now : ℕ) (t : Tunnel) (g : NativeGatewayGrant) : Option Issued :=
  ((controlReply config.peer g).bind (clientGrant config.id)).map fun g => ⟨g, now, t.leaseUntil⟩

/-- The transaction of a call, with the answer that is sent back; `random` is the random part of
a new tunnel's identifier. -/
def execute (sha256 : Sha256) (config : Config) (s : GatewayStore) (random : String)
    (now : ℕ) : Call → Option (GatewayStore × Option Issued)
  | .redeem ticket =>
    if validTicket ticket then
      (s.redeemNativeGatewayTicket sha256 config.peer ticket random now).toOption.map
        fun r => (r.1, answer config now r.2.1 r.2.2)
    else none
  | .renew tunnelId =>
    if tunnelIdPattern tunnelId then
      (s.renewNativeGatewayGrant config.peer tunnelId now).toOption.map
        fun r => (r.1, answer config now r.2.1 r.2.2)
    else none

end Control

section Serve

/-- Where `serve` is. -/
inductive Phase
  | idle
  | redeeming
  | dialing
  | armClient
  | armGuest
  | ready
  | serving
  | rearmClient
  | rearmGuest
  | closing
  | closed
  deriving DecidableEq, Repr

/-- A call under way: its start and deadline, the answer on its way, and whether its transaction has
run and it has returned. -/
structure Rpc where
  call : Call
  started : ℕ
  deadline : ℕ
  result : Option Issued
  executed : Bool
  returned : Bool
  deriving DecidableEq, Repr

/-- The state of `serve`. The copy workers move bytes until the sockets, with the deadlines set
last, are closed. -/
structure Relay where
  ticket : String
  phase : Phase
  /-- The grant of the redemption. -/
  first : Option Issued
  /-- The grant that was accepted last. -/
  latest : Option Issued
  deadline : ℕ
  client : Option ℕ
  guest : Option ℕ
  rpc : Option Rpc
  renewAt : Option ℕ
  copying : Bool
  deriving DecidableEq, Repr

def Relay.new (ticket : String) : Relay :=
  ⟨ticket, .idle, none, none, 0, none, none, none, none, false⟩

def validGrant (config : Config) (g : NativeGatewayGrant) : Bool :=
  g.gatewayId == config.id && tunnelIdPattern g.tunnelId && g.connectionId != "" &&
    (bytes g.connectionId).length ≤ 140 && g.target.is4 && g.target.isPrivate &&
    g.certificateSha256.length == 32 && 0 < g.policyRevision && 0 < g.validFor &&
    g.validFor ≤ gatewayAuthorizationWindow && config.allowed.any (·.contains g.target)

def sameTunnel (first next : NativeGatewayGrant) : Bool :=
  next.tunnelId == first.tunnelId && next.connectionId == first.connectionId &&
    next.target == first.target && next.policyRevision == first.policyRevision &&
    next.certificateSha256 == first.certificateSha256

namespace Relay

variable (config : Config) (clock : ℕ) (r : Relay)

/-- `serve` returns; its sockets are closed by the deferred calls. -/
def stop : Relay := { r with phase := .closing, rpc := none, renewAt := none }

def redeem : Option Relay :=
  if r.phase = .idle then
    some
      { r with
        phase := .redeeming
        rpc := some ⟨.redeem r.ticket, clock, clock + controlTimeout, none, false, false⟩ }
  else none

/-- A call returns, with its answer if that has arrived before the deadline of the context. -/
def respond (delivered : Bool) : Option Relay :=
  match r.rpc with
  | none => none
  | some c =>
    if c.returned then none
    else
      some
        { r with
          rpc := some
            { c with
              returned := true
              result := if delivered && clock < c.deadline then c.result else none } }

def redeemed : Option Relay :=
  match r.phase, r.rpc with
  | .redeeming, some c =>
    if c.returned then
      some <| match c.result with
        | none => r.stop
        | some i =>
          if validGrant config i.grant && clock < c.started + i.grant.validFor then
            { r with
              phase := .dialing, rpc := none, first := some i, latest := some i
              deadline := c.started + i.grant.validFor }
          else r.stop
    else none
  | _, _ => none

def dialed : Option Relay :=
  if r.phase = .dialing && clock < r.deadline then some { r with phase := .armClient } else none

def setClientDeadline : Option Relay :=
  match r.phase with
  | .armClient => some { r with phase := .armGuest, client := some r.deadline }
  | .rearmClient => some { r with phase := .rearmGuest, client := some r.deadline }
  | _ => none

def renewTime : ℕ := clock + (r.deadline - clock) / 2

def setGuestDeadline : Option Relay :=
  match r.phase with
  | .armGuest => some { r with phase := .ready, guest := some r.deadline }
  | .rearmGuest =>
    some { r with phase := .serving, guest := some r.deadline, renewAt := some (r.renewTime clock) }
  | _ => none

def serving : Option Relay :=
  if r.phase = .ready && (!config.ready || clock < r.deadline) then
    some { r with phase := .serving, copying := true, renewAt := some (r.renewTime clock) }
  else none

def renew : Option Relay :=
  match r.phase, r.first with
  | .serving, some first =>
    if r.renewAt.any (· ≤ clock) then
      some
        { r with
          renewAt := none
          rpc := some ⟨.renew first.grant.tunnelId, clock, min r.deadline (clock + controlTimeout),
            none, false, false⟩ }
    else none
  | _, _ => none

def renewed : Option Relay :=
  match r.phase, r.rpc, r.first with
  | .serving, some c, some first =>
    if c.returned then
      some <| match c.result with
        | none => r.stop
        | some i =>
          let next := c.started + i.grant.validFor
          if validGrant config i.grant && sameTunnel first.grant i.grant &&
              clock < r.deadline && clock < next then
            { r with phase := .rearmClient, rpc := none, latest := some i, deadline := next }
          else r.stop
    else none
  | _, _, _ => none

def expire : Option Relay :=
  if r.phase = .serving && r.deadline ≤ clock then some r.stop else none

/-- Something else ends `serve`: its context, a failed call, a socket. -/
def fail : Option Relay :=
  if r.phase = .idle || r.phase = .closed then none else some r.stop

def close : Option Relay :=
  if r.phase = .closing then some { r with phase := .closed, copying := false } else none

/-- A copy worker can write to a socket until the deadline of the socket. -/
def canForward (toGuest : Bool) : Bool :=
  r.copying && (if toGuest then r.guest else r.client).all (clock ≤ ·)

end Relay

end Serve

section World

/-- One relay, the database, and the token digests of all native sessions ever opened. The clock is
the relay's. -/
structure World where
  clock : ℕ
  store : GatewayStore
  issued : List (List UInt8)
  relay : Relay
  deriving DecidableEq

inductive Event
  | tick (duration : ℕ)
  | database (op : GatewayOp)
  | redeem
  | execute (random : String)
  | respond (delivered : Bool)
  | redeemed
  | dialed
  | setClientDeadline
  | setGuestDeadline
  | serving
  | renew
  | renewed
  | expire
  | fail
  | close
  | forward (toGuest : Bool)

namespace World

variable (sha256 : Sha256) (config : Config) (offset : ℕ) (w : World)

/-- The time of the database. Its clock is ahead of the relay's by a constant. -/
def databaseNow : ℕ := w.clock + offset

def update (r : Option Relay) : Option World := r.map fun r => { w with relay := r }

/-- Another transaction commits. A login gets a token that was never used before. -/
def database (op : GatewayOp) : Option World :=
  if op.login.any fun n => w.issued.contains n.tokenDigest then none
  else
    (op.apply sha256 (w.databaseNow offset) w.store).toOption.map fun s =>
      { w with store := s, issued := (op.login.map (·.tokenDigest)).toList ++ w.issued }

def executeCall (random : String) : Option World :=
  match w.relay.rpc with
  | none => none
  | some c =>
    if c.executed || c.returned then none
    else
      (execute sha256 config w.store random (w.databaseNow offset) c.call).map fun r =>
        { w with
          store := r.1
          relay := { w.relay with rpc := some { c with executed := true, result := r.2 } } }

def step : Event → Option World
  | .tick duration => some { w with clock := w.clock + duration }
  | .database op => w.database sha256 offset op
  | .execute random => w.executeCall sha256 config offset random
  | .redeem => w.update (w.relay.redeem w.clock)
  | .respond delivered => w.update (w.relay.respond w.clock delivered)
  | .redeemed => w.update (w.relay.redeemed config w.clock)
  | .dialed => w.update (w.relay.dialed w.clock)
  | .setClientDeadline => w.update w.relay.setClientDeadline
  | .setGuestDeadline => w.update (w.relay.setGuestDeadline w.clock)
  | .serving => w.update (w.relay.serving config w.clock)
  | .renew => w.update (w.relay.renew w.clock)
  | .renewed => w.update (w.relay.renewed config w.clock)
  | .expire => w.update (w.relay.expire w.clock)
  | .fail => w.update w.relay.fail
  | .close => w.update w.relay.close
  | .forward toGuest => if w.relay.canForward w.clock toGuest then some w else none

end World

def initialStore : GatewayStore where
  access := ⟨⟨[], [], [], [], [], [], [], [], []⟩, ⟨[], [], [], [], [], []⟩⟩
  profiles := [⟨"managed-local-linux", .linux, true⟩, ⟨"managed-local-windows", .windows, true⟩]
  policies := []
  tickets := []

/-- A relay that serves one ticket, beside everything else that happens in the database. -/
def gateway (sha256 : Sha256) (config : Config) (offset : ℕ) :
    Machine World Event where
  Init w := w.store = initialStore ∧ w.issued = [] ∧ ∃ ticket, w.relay = Relay.new ticket
  step w e := w.step sha256 config offset e

end World

end VcWorkspace.Gateway
