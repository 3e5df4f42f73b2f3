import VcWorkspace.Gateway.Relay

/-! # Targets of gateways

The networks of a gateway are checked when a relay or a route of the broker is
built. A target is then checked by the broker, by the table of tickets and by the
relay, each in its own way.
-/

namespace VcWorkspace.Gateway.Targets

open Store Guest

section Prefixes

/-- A `netip.Prefix`; an invalid one has no bits. -/
inductive Network
  | invalid
  | v4 (net : Subnet) (fits : net.bits ≤ 32)
  | v6 (bytes : Vector UInt8 16) (bits : ℕ) (fits : bits ≤ 128)
  deriving DecidableEq

namespace Network

def isValid : Network → Bool
  | .invalid => false
  | _ => true

def bits : Network → ℤ
  | .invalid => -1
  | .v4 net _ => net.bits
  | .v6 _ bits _ => bits

def maskByte (keep : ℕ) (b : UInt8) : UInt8 :=
  UInt8.ofNat (b.toNat / 2 ^ (8 - keep) * 2 ^ (8 - keep))

def masked : Network → Network
  | .invalid => .invalid
  | .v4 net fits =>
    .v4 ⟨maskByte net.bits net.a, maskByte (net.bits - 8) net.b, maskByte (net.bits - 16) net.c,
      maskByte (net.bits - 24) net.d, net.bits⟩ fits
  | .v6 bytes bits fits =>
    .v6 (Vector.ofFn fun i => maskByte (bits - 8 * i.val) bytes[i]) bits fits

def contains : Network → Addr → Bool
  | .v4 net _, target => net.contains target
  | .v6 bytes bits _, .v6 target => (List.finRange 16).all fun i =>
      maskByte (bits - 8 * i.val) bytes[i] == maskByte (bits - 8 * i.val) target[i]
  | _, _ => false

/-- The address and whether it has version 4. -/
def addr : Network → Option Addr
  | .invalid => none
  | .v4 net _ => some (.v4 net.a net.b net.c net.d)
  | .v6 bytes _ _ => some (.v6 bytes)

def subnet : Network → Option Subnet
  | .v4 net _ => some net
  | _ => none

end Network

def scopes : List Network :=
  [.v4 ⟨10, 0, 0, 0, 8⟩ (by decide), .v4 ⟨172, 16, 0, 0, 12⟩ (by decide),
    .v4 ⟨192, 168, 0, 0, 16⟩ (by decide)]

def validTargetPrefixes (networks : List Network) : Bool :=
  !networks.isEmpty && networks.length ≤ 128 && networks.all fun net => scopes.any fun scope =>
    net.isValid && net.addr.any (·.is4) && net == net.masked && scope.bits ≤ net.bits &&
      net.addr.any scope.contains

end Prefixes

section Routes

structure RouteURL where
  scheme : String
  host : String
  hostname : String
  port : String
  user : Bool
  opaqueText : String
  rawQuery : String
  forceQuery : Bool
  fragment : String
  rawPath : String
  path : String
  deriving DecidableEq

structure BrokerRoute where
  id : String
  url : String
  allowed : List Network
  deriving DecidableEq

variable (parse : String → Option RouteURL) (render : RouteURL → String)

def tunnelPath : String := "/gateway/v1/rdp"

/-- The text of a port is a number that `strconv.Atoi` reads, from 1 to 65535. -/
def validPort (port : String) : Bool :=
  (parseU32 (bytes port)).any fun n => 1 ≤ n && n ≤ 65535

def newBrokerRoute (id publicUrl : String) (allowed : List Network)
    (peers : List (String × String)) : Option BrokerRoute := do
  let u ← parse publicUrl
  if !peers.any (·.2 == id) || !gatewayIdPattern id || !validTargetPrefixes allowed ||
      u.scheme != "https" || u.hostname == "" || u.user || u.opaqueText != "" ||
      u.rawQuery != "" || u.forceQuery || u.fragment != "" || u.rawPath != "" ||
      (u.path != "" && u.path != "/") || (bytes u.host).contains 37 ||
      (bytes u.host).getLast? == some 58 then none
  else if u.port != "" && !validPort u.port then none
  else some ⟨id, render { u with scheme := "wss", path := tunnelPath }, allowed⟩

def BrokerRoute.allows (r : BrokerRoute) (target : Addr) : Bool :=
  target.is4 && target.isPrivate && r.allowed.any (·.contains target)

end Routes

section Database

/-- A value of type `inet`. -/
structure Inet where
  addr : Addr
  masklen : ℕ

def Inet.family (i : Inet) : ℕ := if i.addr.is4 then 4 else 6

/-- The operator `<<=`, for a network of version 4. -/
def Inet.within (i : Inet) (net : Subnet) : Bool :=
  i.addr.is4 && net.bits ≤ i.masklen && net.contains i.addr

/-- The text of an address is read as the address with all its bits. -/
def inetOf : Addr → Inet
  | .v4 a b c d => ⟨.v4 a b c d, 32⟩
  | .v6 bytes => ⟨.v6 bytes, 128⟩

/-- The constraints on `target_host` and `target_port`. -/
def targetCheck (host : Inet) (port : ℤ) : Bool :=
  host.family == 4 && host.masklen == 32 &&
    (host.within ⟨10, 0, 0, 0, 8⟩ || host.within ⟨172, 16, 0, 0, 12⟩ ||
      host.within ⟨192, 168, 0, 0, 16⟩) && port == 3389

end Database

section Containment

def Rfc1918 : Addr → Prop
  | .v4 a b c d =>
    let value := addrValue a b c d
    (addrValue 10 0 0 0 ≤ value ∧ value ≤ addrValue 10 255 255 255) ∨
      (addrValue 172 16 0 0 ≤ value ∧ value ≤ addrValue 172 31 255 255) ∨
      (addrValue 192 168 0 0 ≤ value ∧ value ≤ addrValue 192 168 255 255)
  | .v6 _ => False

def privateNets : List Subnet :=
  [⟨10, 0, 0, 0, 8⟩, ⟨172, 16, 0, 0, 12⟩, ⟨192, 168, 0, 0, 16⟩]

variable {networks : List Network} {net : Network} {target : Addr} {s : Subnet}

theorem isValid_of_mem (h : validTargetPrefixes networks = true) (hn : net ∈ networks) :
    ∃ s fits, net = .v4 s fits ∧ ∃ scope ∈ privateNets, scope.bits ≤ s.bits ∧
      scope.contains (.v4 s.a s.b s.c s.d) = true := by
  simp only [validTargetPrefixes, Bool.and_eq_true, List.all_eq_true] at h
  have hscope := h.2 net hn
  cases net with
  | invalid => simp [Network.isValid] at hscope
  | v6 bytes bits fits => simp [Network.addr, Addr.is4] at hscope
  | v4 s fits =>
    simp only [scopes, List.any_cons, List.any_nil, Bool.or_eq_true, Bool.and_eq_true,
      Bool.false_eq_true, or_false] at hscope
    refine ⟨s, fits, rfl, ?_⟩
    rcases hscope with ⟨⟨-, hbits⟩, hc⟩ | ⟨⟨-, hbits⟩, hc⟩ | ⟨⟨-, hbits⟩, hc⟩
    · exact ⟨_, by simp [privateNets], Int.ofNat_le.mp (of_decide_eq_true hbits), hc⟩
    · exact ⟨_, by simp [privateNets], Int.ofNat_le.mp (of_decide_eq_true hbits), hc⟩
    · exact ⟨_, by simp [privateNets], Int.ofNat_le.mp (of_decide_eq_true hbits), hc⟩

theorem contains_trans {outer : Subnet} (hbits : outer.bits ≤ s.bits) (fits : s.bits ≤ 32)
    (houter : outer.contains (.v4 s.a s.b s.c s.d) = true) (h : s.contains target = true) :
    outer.contains target = true := by
  cases target with
  | v6 bytes => cases h
  | v4 a b c d =>
    simp only [Subnet.contains, beq_iff_eq] at houter h ⊢
    have hpow : 2 ^ (32 - outer.bits) = 2 ^ (32 - s.bits) * 2 ^ (s.bits - outer.bits) := by
      rw [← Nat.pow_add]
      congr 1
      omega
    rw [← houter, hpow, ← Nat.div_div_eq_div_mul, h, Nat.div_div_eq_div_mul]

theorem rfc1918_of_contains {scope : Subnet} (hscope : scope ∈ privateNets)
    (h : scope.contains target = true) : Rfc1918 target := by
  cases target with
  | v6 bytes => cases h
  | v4 a b c d =>
    simp only [privateNets, List.mem_cons, List.not_mem_nil, or_false] at hscope
    rcases hscope with rfl | rfl | rfl <;>
      simp only [Subnet.contains, addrValue, beq_iff_eq, UInt8.reduceToNat] at h <;>
      simp only [Rfc1918, addrValue, UInt8.reduceToNat] <;> omega

theorem within_inetOf (hs : s.bits ≤ 32) : (inetOf target).within s = s.contains target := by
  cases target with
  | v4 a b c d => simp [Inet.within, inetOf, Addr.is4, hs]
  | v6 bytes => rfl

theorem targetCheck_iff {port : ℤ} : targetCheck (inetOf target) port = true ↔
    (∃ scope ∈ privateNets, scope.contains target = true) ∧ port = 3389 := by
  cases target with
  | v6 bytes => simp [targetCheck, inetOf, Subnet.contains]
  | v4 a b c d =>
    have hfamily : (inetOf (.v4 a b c d)).family = 4 ∧ (inetOf (.v4 a b c d)).masklen = 32 :=
      ⟨rfl, rfl⟩
    simp only [targetCheck, hfamily, within_inetOf (s := ⟨10, 0, 0, 0, 8⟩) (by decide),
      within_inetOf (s := ⟨172, 16, 0, 0, 12⟩) (by decide),
      within_inetOf (s := ⟨192, 168, 0, 0, 16⟩) (by decide), Bool.and_eq_true, Bool.or_eq_true,
      beq_iff_eq, true_and, privateNets, List.mem_cons, List.not_mem_nil, or_false,
      exists_eq_or_imp, exists_eq_left, or_assoc]

theorem scope_of_contains (h : validTargetPrefixes networks = true) (hn : net ∈ networks)
    (hc : net.contains target = true) : ∃ scope ∈ privateNets, scope.contains target = true := by
  obtain ⟨s, fits, rfl, scope, hscope, hbits, houter⟩ := isValid_of_mem h hn
  exact ⟨scope, hscope, contains_trans hbits fits houter hc⟩

theorem contains_subnet (h : validTargetPrefixes networks = true) (hs : s ∈ networks.filterMap
    Network.subnet) (hc : s.contains target = true) :
    ∃ net ∈ networks, net.contains target = true := by
  obtain ⟨net, hnet, hsub⟩ := List.mem_filterMap.mp hs
  obtain ⟨s', fits, rfl, -⟩ := isValid_of_mem h hnet
  cases hsub
  exact ⟨_, hnet, hc⟩

/-- Accepted networks are private, the table of tickets takes what a route allows and nothing else,
and none of the checks takes an address of version 6. -/
theorem gateway_target_containment :
    (∀ networks net target, validTargetPrefixes networks = true → net ∈ networks →
      net.contains target = true → Rfc1918 target) ∧
    (∀ parse render id url networks peers route target,
      newBrokerRoute parse render id url networks peers = some route →
      route.allows target = true → ∀ port, targetCheck (inetOf target) port = true ↔ port = 3389) ∧
    (∀ networks config grant, validTargetPrefixes networks = true →
      config.allowed = networks.filterMap Network.subnet → validGrant config grant = true →
        Rfc1918 grant.target ∧ ∃ net ∈ networks, net.contains grant.target = true) ∧
    ∀ bytes, (∀ route : BrokerRoute, route.allows (.v6 bytes) = false) ∧
      (∀ port masklen, targetCheck ⟨.v6 bytes, masklen⟩ port = false) ∧
      ∀ config grant, grant.target = .v6 bytes → validGrant config grant = false := by
  refine ⟨?_, ?_, ?_, fun bytes => ⟨fun _ => rfl, fun _ _ => rfl, ?_⟩⟩
  · intro networks net target h hnet hc
    obtain ⟨scope, hscope, hc⟩ := scope_of_contains h hnet hc
    exact rfc1918_of_contains hscope hc
  · intro parse render id url networks peers route target hroute hallows port
    obtain ⟨u, -, hroute⟩ := Option.bind_eq_some_iff.mp hroute
    obtain ⟨hchecks, hroute⟩ := Option.ite_none_left_eq_some.mp hroute
    obtain ⟨-, hroute⟩ := Option.ite_none_left_eq_some.mp hroute
    simp only [Bool.or_eq_true, not_or, Bool.not_eq_true', Bool.not_eq_false] at hchecks
    cases hroute
    have hvalid := hchecks.1.1.1.1.1.1.1.1.1.1.1.2
    rw [BrokerRoute.allows, Bool.and_eq_true, List.any_eq_true] at hallows
    obtain ⟨-, net, hnet, hc⟩ := hallows
    rw [targetCheck_iff]
    exact and_iff_right (scope_of_contains hvalid hnet hc)
  · intro networks config grant h hallowed hgrant
    rw [validGrant, Bool.and_eq_true, hallowed, List.any_eq_true] at hgrant
    obtain ⟨-, s, hs, hc⟩ := hgrant
    obtain ⟨net, hnet, hc⟩ := contains_subnet h hs hc
    obtain ⟨scope, hscope, hc'⟩ := scope_of_contains h hnet hc
    exact ⟨rfc1918_of_contains hscope hc', net, hnet, hc⟩
  · intro config grant htarget
    simp [validGrant, htarget, Addr.is4]

def sampleNetworks : List Network := [.v4 ⟨10, 1, 0, 0, 16⟩ (by decide)]

def sampleParse (text : String) : Option RouteURL :=
  if text = "https://gateway" then
    some ⟨"https", "gateway", "gateway", "", false, "", "", false, "", "", ""⟩
  else none

def sampleRender (u : RouteURL) : String := u.scheme ++ "://" ++ u.host ++ u.path

def sampleRoute : Option BrokerRoute :=
  newBrokerRoute sampleParse sampleRender "gw_example1" "https://gateway" sampleNetworks
    [("pin", "gw_example1")]

theorem sampleRoute_eq : sampleRoute =
    some ⟨"gw_example1", "wss://gateway/gateway/v1/rdp", sampleNetworks⟩ := by
  decide

theorem gateway_target_containment_sample : ∃ route, sampleRoute = some route ∧
    Rfc1918 (.v4 10 1 2 3) ∧ targetCheck (inetOf (.v4 10 1 2 3)) 3389 = true := by
  obtain ⟨hprivate, hroute, -⟩ := gateway_target_containment
  refine ⟨_, sampleRoute_eq, ?_, ?_⟩
  · exact hprivate sampleNetworks _ _ (by decide) List.mem_cons_self (by decide)
  · exact (hroute _ _ _ _ _ _ _ _ sampleRoute_eq (by decide) 3389).mpr rfl

/-- A route takes an address whatever the port is; the table takes one port. -/
theorem route_takes_any_port : ∃ route, sampleRoute = some route ∧
    route.allows (.v4 10 1 2 3) = true ∧
      targetCheck (inetOf (.v4 10 1 2 3)) 3390 = false :=
  ⟨_, sampleRoute_eq, by decide, by decide⟩

end Containment

end VcWorkspace.Gateway.Targets
