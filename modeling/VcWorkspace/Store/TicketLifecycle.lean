import Mathlib.Data.List.Sort
import VcWorkspace.Store.Footprint
import VcWorkspace.Store.GatewayLedger

/-! # The life of a gateway ticket

Whoever reads or writes tickets holds the authorization lock until the commit,
so a transaction counts from its statement, whose time is that of the database
clock. The scan for connections to revoke runs under the same lock and reads
what redemptions, renewals and closures have written.
-/

namespace VcWorkspace.Store

open Transition Footprint GatewayLedger Option

def Tunnel.ended (t : Tunnel) (now : ℕ) : Bool := t.closedAt.isSome || t.leaseUntil ≤ now

def GatewayTicket.lapsed (g : GatewayTicket) (now : ℕ) : Bool :=
  match g.tunnel with
  | none => g.expiresAt ≤ now
  | some t => t.ended now

def GatewayTicket.authority (g : GatewayTicket) : GatewayTicket := { g with tunnel := none }

namespace GatewayStore

variable (s : GatewayStore)

/-- The connection is being revoked, has expired or lost its ticket. -/
def due (now : ℕ) (c : DesktopConnectionSession) : Bool :=
  c.state == .revoking || (c.state == .active && (c.expiresAt ≤ now ||
    s.tickets.any fun g => g.connectionId == c.id && g.lapsed now))

/-- The due connections that no other transaction has locked, up to a limit. -/
def connectionsDue (limit : ℤ) (locked : List String) (now : ℕ) : List DesktopConnectionSession :=
  let rows := s.access.grants.connections.filter fun c => s.due now c && !locked.contains c.id
  (rows.insertionSort fun c d =>
      c.expiresAt < d.expiresAt ∨ (c.expiresAt = d.expiresAt ∧ c.id ≤ d.id)).take
    (if limit ≤ 0 ∨ 1000 < limit then 100 else limit.toNat)

end GatewayStore

namespace TicketLifecycle

section Model

structure World where
  store : GatewayStore
  clock : ℕ

inductive Event
  | tick (d : ℕ)
  | transaction (op : GatewayOp)
  /-- The completion of an issue, with the ticket of its connection. -/
  | completeNativeGuestGatewayConnection (env : NativeEnv) (a : NativeGuestAccount)
      (request : NativeGatewayTicketRequest) (secret : String) (started : ℕ)
  | desktopConnectionsDueForRevocation (limit : ℤ) (locked : List String)

/-- An operation of its own: the scan for due connections reads the tickets. -/
def single : GatewayOp → Bool
  | .access (.desktopConnectionsDueForRevocation _) => false
  | _ => true

def World.statements (w : World) : Event → Except StoreError (List GatewayOp)
  | .tick _ => pure []
  | .transaction op => do
    ensure .conflict (single op)
    pure [op]
  | .completeNativeGuestGatewayConnection env a request secret started => do
    ensure .conflict (a.operation == .issue && request.connectionId == a.connectionId)
    pure [.access (.completeNativeGuestAccountOperation env a started),
      .createNativeGatewayTicket request secret]
  | .desktopConnectionsDueForRevocation limit locked =>
    let ids := (w.store.connectionsDue limit locked w.clock).map (·.id)
    pure [.access (.desktopConnectionsDueForRevocation fun c => ids.contains c.id)]

variable (sha256 : Sha256)

/-- Execute statements one after the other; a failed one fails the transaction. -/
def execute (now : ℕ) : GatewayStore → List GatewayOp → Except StoreError GatewayStore
  | s, [] => pure s
  | s, op :: ops => do
    let s ← op.apply sha256 now s
    execute now s ops

def World.step (w : World) (e : Event) : Option World :=
  match e with
  | .tick d => some { w with clock := w.clock + d }
  | e => ((w.statements e).bind (execute sha256 w.clock w.store)).toOption.map fun s =>
      { w with store := s }

def ticketStore : Machine World Event where
  Init w := w.store.access = ⟨⟨[], [], [], [], [], [], [], [], []⟩, ⟨[], [], [], [], [], []⟩⟩ ∧
    w.store.tickets = []
  step := World.step sha256

end Model

variable {sha256 : Sha256} {s s' : GatewayStore} {now : ℕ}

section Statements

variable {g g' g'' : GatewayTicket} {tickets : List GatewayTicket} {t : Tunnel}

/-- The statement writes no lease beyond the session or the window. -/
def Bounded (now : ℕ) (g : GatewayTicket) (t : Tunnel) : Prop :=
  t.leaseUntil ≤ g.sessionDeadline ∧ t.leaseUntil ≤ now + gatewayAuthorizationWindow

structure Evolves (now : ℕ) (g g' : GatewayTicket) : Prop where
  authority : g'.authority = g.authority
  tunnel : ∀ t, g.tunnel = some t →
    ∃ t', g'.tunnel = some t' ∧ t'.tunnelId = t.tunnelId ∧ t'.consumedAt = t.consumedAt ∧
      (t.ended now = true → t'.ended now = true)
  lease : ∀ t', g'.tunnel = some t' →
    (∃ t, g.tunnel = some t ∧ t'.leaseUntil = t.leaseUntil) ∨ Bounded now g' t'

theorem Evolves.refl (now : ℕ) (g : GatewayTicket) : Evolves now g g :=
  ⟨rfl, fun t ht => ⟨t, ht, rfl, rfl, id⟩, fun t ht => .inl ⟨t, ht, rfl⟩⟩

theorem Evolves.digest (h : Evolves now g g') : g'.tokenDigest = g.tokenDigest :=
  (GatewayTicket.mk.inj h.authority).1

theorem Evolves.deadline (h : Evolves now g g') : g'.sessionDeadline = g.sessionDeadline := by
  have := GatewayTicket.mk.inj h.authority
  exact this.2.2.2.2.2.2.2.1

theorem Evolves.trans (h : Evolves now g g') (h' : Evolves now g' g'') : Evolves now g g'' where
  authority := h'.authority.trans h.authority
  tunnel t ht := by
    obtain ⟨t₁, ht₁, hid₁, hat₁, hend₁⟩ := h.tunnel t ht
    obtain ⟨t₂, ht₂, hid₂, hat₂, hend₂⟩ := h'.tunnel t₁ ht₁
    exact ⟨t₂, ht₂, hid₂.trans hid₁, hat₂.trans hat₁, hend₂ ∘ hend₁⟩
  lease t₂ ht₂ := by
    rcases h'.lease t₂ ht₂ with ⟨t₁, ht₁, heq⟩ | hb
    · rcases h.lease t₁ ht₁ with ⟨t, ht, heq'⟩ | hb
      · exact .inl ⟨t, ht, heq.trans heq'⟩
      · refine .inr ⟨?_, heq ▸ hb.2⟩
        rw [heq, h'.deadline]
        exact hb.1
    · exact .inr hb

structure Advances (now : ℕ) (tickets tickets' : List GatewayTicket) : Prop where
  kept : ∀ g ∈ tickets, ∃ g' ∈ tickets', Evolves now g g'
  origin : ∀ g' ∈ tickets', (∃ g ∈ tickets, Evolves now g g') ∨
    ∀ t, g'.tunnel = some t → Bounded now g' t

theorem Advances.refl (now : ℕ) (tickets : List GatewayTicket) : Advances now tickets tickets :=
  ⟨fun g hg => ⟨g, hg, .refl now g⟩, fun g hg => .inl ⟨g, hg, .refl now g⟩⟩

theorem Advances.trans {tickets' tickets'' : List GatewayTicket} (h : Advances now tickets tickets')
    (h' : Advances now tickets' tickets'') : Advances now tickets tickets'' := by
  constructor
  · intro g hg
    obtain ⟨g₁, hg₁, he₁⟩ := h.kept g hg
    obtain ⟨g₂, hg₂, he₂⟩ := h'.kept g₁ hg₁
    exact ⟨g₂, hg₂, he₁.trans he₂⟩
  · intro g₂ hg₂
    rcases h'.origin g₂ hg₂ with ⟨g₁, hg₁, he₂⟩ | hb
    · rcases h.origin g₁ hg₁ with ⟨g, hg, he₁⟩ | hb
      · exact .inl ⟨g, hg, he₁.trans he₂⟩
      · refine .inr fun t ht => ?_
        rcases he₂.lease t ht with ⟨t₁, ht₁, heq⟩ | hb'
        · obtain ⟨hd, hw⟩ := hb t₁ ht₁
          refine ⟨?_, heq ▸ hw⟩
          rw [heq, he₂.deadline]
          exact hd
        · exact hb'
    · exact .inr hb

theorem Advances.of_map {F : GatewayTicket → GatewayTicket}
    (hF : ∀ g ∈ tickets, Evolves now g (F g)) : Advances now tickets (tickets.map F) := by
  refine ⟨fun g hg => ⟨F g, List.mem_map_of_mem hg, hF g hg⟩, fun g' hg' => ?_⟩
  obtain ⟨g, hg, rfl⟩ := List.mem_map.mp hg'
  exact .inl ⟨g, hg, hF g hg⟩

theorem bounded_leaseUntil {a : GatewayAccess} (ht : t.leaseUntil = GatewayStore.leaseUntil now g a)
    : Bounded now g t := by
  rw [Bounded, ht, GatewayStore.leaseUntil]
  omega

theorem advances_putTunnel (hd : Distinct s.tickets) (hg : g ∈ s.tickets)
    (h : Evolves now g { g with tunnel := some t }) :
    Advances now s.tickets (s.putTunnel g t).tickets := by
  refine .of_map fun k hk => ?_
  split
  next heq =>
    obtain rfl := hd.digests k hk g hg (eq_of_beq heq)
    exact h
  · exact .refl now k

theorem evolves_renew {l : ℕ} (ht : g.tunnel = some t) (hopen : t.closedAt = none)
    (hlive : now < t.leaseUntil) (hb : Bounded now g { t with leaseUntil := l }) :
    Evolves now g { g with tunnel := some { t with leaseUntil := l } } := by
  refine ⟨rfl, fun t₀ ht₀ => ?_, fun t' ht' => ?_⟩
  · cases ht.symm.trans ht₀
    refine ⟨_, rfl, rfl, rfl, fun hend => ?_⟩
    simp only [Tunnel.ended, hopen, isSome_none, Bool.false_or, decide_eq_true_eq] at hend
    omega
  · cases ht'
    exact .inr hb

theorem evolves_close {p : Bool} (now : ℕ) (g : GatewayTicket) :
    Evolves now g (if p then g.close now else g) := by
  split
  · refine ⟨rfl, fun t ht => ?_, fun t' ht' => ?_⟩
    · refine ⟨{ t with closedAt := some now }, ?_, rfl, rfl, fun _ => rfl⟩
      rw [GatewayTicket.close, ht]
      rfl
    · obtain ⟨t, ht, rfl⟩ := map_eq_some_iff.mp ht'
      exact .inl ⟨t, ht, rfl⟩
  · exact .refl now g

theorem advances_of_apply {op : GatewayOp} (hd : Distinct s.tickets)
    (h : op.apply sha256 now s = .ok s') : Advances now s.tickets s'.tickets := by
  cases writes_of_apply h with
  | access _ ht | frame _ _ ht => exact ht ▸ .refl now _
  | create hg hx =>
    subst hx
    refine ⟨fun g hg => ⟨g, List.mem_append_left _ hg, .refl now g⟩, fun g' hg' => ?_⟩
    rcases List.mem_append.mp hg' with hold | hnew
    · exact .inl ⟨g', hold, .refl now g'⟩
    · obtain rfl := List.mem_singleton.mp hnew
      refine .inr fun t ht => ?_
      rw [hg.tunnel] at ht
      cases ht
  | redeem hx =>
    obtain ⟨g, hl, -, hnone, a, -, rfl⟩ := redeem_ok hx
    rw [hl.store]
    refine advances_putTunnel hd hl.puts.mem ⟨rfl, fun t ht => ?_, fun t' ht' => ?_⟩
    · cases hnone.symm.trans ht
    · cases ht'
      exact .inr (bounded_leaseUntil (g := g) (a := a) rfl)
  | renew hx =>
    obtain ⟨g, hl, -, -, a, t₀, -, ht₀, hopen, hlive, rfl⟩ := renew_ok hx
    rw [hl.store]
    refine advances_putTunnel hd hl.puts.mem (evolves_renew ht₀ hopen hlive ?_)
    exact bounded_leaseUntil rfl
  | close hx =>
    subst hx
    exact .of_map fun g _ => evolves_close now g

end Statements

variable {w w' : World}

section Runs

variable {v : World} {e : Event} {op : GatewayOp} {digest : Vector UInt8 32} {id gateway : String}
  {ended : Bool}

structure WorldOk (s : GatewayStore) : Prop where
  distinct : Distinct s.tickets
  tokens : UniqueTokens s.access.grants
  keyed : Keyed s.access.grants
  deadline : ∀ g ∈ s.tickets, ∀ t, g.tunnel = some t → t.leaseUntil ≤ g.sessionDeadline

theorem WorldOk.apply (hs : WorldOk s) (h : op.apply sha256 now s = .ok s') :
    WorldOk s' ∧ Advances now s.tickets s'.tickets := by
  have hadv := advances_of_apply hs.distinct h
  have hgrants : UniqueTokens s'.access.grants ∧ Keyed s'.access.grants := by
    rcases access_of_apply h with hsame | ⟨o, -, ho⟩
    · exact hsame ▸ ⟨hs.tokens, hs.keyed⟩
    · have hchange := (applies_of_apply sha256 ho).change
      exact ⟨hs.tokens.change hchange, hchange.spares.keyed hs.keyed⟩
  refine ⟨⟨distinct_of_apply hs.distinct h, hgrants.1, hgrants.2, fun g' hg' t' ht' => ?_⟩, hadv⟩
  rcases hadv.origin g' hg' with ⟨g, hg, he⟩ | hb
  · rcases he.lease t' ht' with ⟨t, ht, heq⟩ | hb
    · rw [heq, he.deadline]
      exact hs.deadline g hg t ht
    · exact hb.1
  · exact (hb t' ht').1

theorem WorldOk.execute {ops : List GatewayOp} (hs : WorldOk s)
    (h : execute sha256 now s ops = .ok s') : WorldOk s' ∧ Advances now s.tickets s'.tickets := by
  induction ops generalizing s with
  | nil =>
    cases h
    exact ⟨hs, .refl now _⟩
  | cons op ops ih =>
    obtain ⟨u, hu, h⟩ := bind_eq_ok.mp h
    obtain ⟨hok, hadv⟩ := hs.apply hu
    obtain ⟨hok', hadv'⟩ := ih hok h
    exact ⟨hok', hadv.trans hadv'⟩

theorem step_ok (h : (ticketStore sha256).step w e = some w') :
    (∃ d, e = .tick d ∧ w' = { w with clock := w.clock + d }) ∨
      ∃ ops, w.statements e = .ok ops ∧ execute sha256 w.clock w.store ops = .ok w'.store ∧
        w'.clock = w.clock := by
  cases e with
  | tick d => exact .inl ⟨d, rfl, (some.inj h).symm⟩
  | transaction | completeNativeGuestGatewayConnection | desktopConnectionsDueForRevocation =>
    simp only [ticketStore, World.step, map_eq_some_iff, toOption_eq_some] at h
    obtain ⟨s, hs, rfl⟩ := h
    obtain ⟨ops, hops, hs⟩ := bind_eq_ok.mp hs
    exact .inr ⟨ops, hops, hs, rfl⟩

theorem WorldOk.step (hs : WorldOk w.store) (h : (ticketStore sha256).step w e = some w') :
    WorldOk w'.store ∧ Advances w.clock w.store.tickets w'.store.tickets ∧ w.clock ≤ w'.clock := by
  rcases step_ok h with ⟨d, -, rfl⟩ | ⟨ops, -, hx, hclock⟩
  · exact ⟨hs, .refl _ _, Nat.le_add_right _ _⟩
  · obtain ⟨hok, hadv⟩ := hs.execute hx
    exact ⟨hok, hadv, hclock.ge⟩

theorem worldOk_of_reachable (hw : (ticketStore sha256).Reachable w) : WorldOk w.store := by
  refine hw.invariant (P := fun w => WorldOk w.store) ?_ fun w e w' _ hs h => (hs.step h).1
  rintro w ⟨haccess, htickets⟩
  constructor
  · rw [htickets]
    exact distinct_nil
  · simp [UniqueTokens, haccess]
  · rw [haccess]
    exact ⟨List.nodup_nil, List.nodup_nil, List.nodup_nil⟩
  · simp [htickets]

def Redeemed (digest : Vector UInt8 32) (id : String) (ended : Bool) (w : World) : Prop :=
  ∃ g ∈ w.store.tickets, g.tokenDigest = digest ∧ ∃ t, g.tunnel = some t ∧ t.tunnelId = id ∧
    (ended = true → t.ended w.clock = true)

theorem Tunnel.ended_mono {t : Tunnel} {now' : ℕ} (h : t.ended now = true) (hle : now ≤ now') :
    t.ended now' = true := by
  simp only [Tunnel.ended, Bool.or_eq_true, decide_eq_true_eq] at h ⊢
  exact h.imp_right hle.trans'

theorem Redeemed.step (h : Redeemed digest id ended w) (hs : WorldOk w.store)
    (hstep : (ticketStore sha256).step w e = some w') : Redeemed digest id ended w' := by
  obtain ⟨g, hg, hdigest, t, ht, hid, hend⟩ := h
  obtain ⟨-, hadv, hclock⟩ := hs.step hstep
  obtain ⟨g', hg', he⟩ := hadv.kept g hg
  obtain ⟨t', ht', hid', -, hend'⟩ := he.tunnel t ht
  exact ⟨g', hg', he.digest.trans hdigest, t', ht', hid'.trans hid, fun hended =>
    Tunnel.ended_mono (hend' (hend hended)) hclock⟩

theorem Redeemed.leads (h : Redeemed digest id ended w) (hs : WorldOk w.store)
    (hl : (ticketStore sha256).Leads w v) : Redeemed digest id ended v ∧ WorldOk v.store :=
  hl.preserves (P := fun u => Redeemed digest id ended u ∧ WorldOk u.store)
    (fun _ _ _ hu hstep => ⟨hu.1.step hu.2 hstep, (hu.2.step hstep).1⟩) ⟨h, hs⟩

theorem apply_of_step (h : (ticketStore sha256).step w (.transaction op) = some w') :
    op.apply sha256 w.clock w.store = .ok w'.store := by
  rcases step_ok h with ⟨d, hd, -⟩ | ⟨ops, hops, hx, -⟩
  · cases hd
  · simp only [World.statements, seq_eq_ok] at hops
    cases hops.2
    obtain ⟨s, hs, hx⟩ := bind_eq_ok.mp hx
    exact Except.ok.inj hx ▸ hs

theorem redeem_of_step {token random : String} (h : (ticketStore sha256).step w
      (.transaction (.redeemNativeGatewayTicket gateway token random)) = some w') :
    ∃ t grant, w.store.redeemNativeGatewayTicket sha256 gateway token random w.clock =
      .ok (w'.store, t, grant) := by
  obtain ⟨⟨s, t, grant⟩, hx, h⟩ := bind_eq_ok.mp (apply_of_step h)
  exact ⟨t, grant, Except.ok.inj h ▸ hx⟩

theorem renew_of_step {tunnel : String} (h : (ticketStore sha256).step w
      (.transaction (.renewNativeGatewayGrant gateway tunnel)) = some w') :
    ∃ t grant, w.store.renewNativeGatewayGrant gateway tunnel w.clock =
      .ok (w'.store, t, grant) := by
  obtain ⟨⟨s, t, grant⟩, hx, h⟩ := bind_eq_ok.mp (apply_of_step h)
  exact ⟨t, grant, Except.ok.inj h ▸ hx⟩

theorem Redeemed.not_redeem {token random : String} (h : Redeemed (sha256 token) id ended w)
    (hs : WorldOk w.store) : (ticketStore sha256).step w
      (.transaction (.redeemNativeGatewayTicket gateway token random)) = none := by
  by_contra hne
  obtain ⟨w', hw'⟩ := ne_none_iff_exists'.mp hne
  obtain ⟨g, hg, hdigest, t, ht, -⟩ := h
  obtain ⟨t', grant, hx⟩ := redeem_of_step hw'
  obtain ⟨k, hl, hk, hnone, -⟩ := redeem_ok hx
  obtain rfl := hs.distinct.digests k hl.puts.mem g hg (hk.trans hdigest.symm)
  rw [hnone] at ht
  cases ht

theorem Redeemed.not_renew (h : Redeemed digest id true w) (hs : WorldOk w.store) :
    (ticketStore sha256).step w (.transaction (.renewNativeGatewayGrant gateway id)) = none := by
  by_contra hne
  obtain ⟨w', hw'⟩ := ne_none_iff_exists'.mp hne
  obtain ⟨g, hg, -, t, ht, hid, hend⟩ := h
  obtain ⟨t', grant, hx⟩ := renew_of_step hw'
  obtain ⟨k, hl, hk, -, a, t₀, -, ht₀, hopen, hlive, -⟩ := renew_ok hx
  have hidg : tunnelId g = some id := by rw [tunnelId, ht, map_some, hid]
  have hdigest := hs.distinct.tunnels k hl.puts.mem g hg id hk hidg
  obtain rfl := hs.distinct.digests k hl.puts.mem g hg hdigest
  cases ht₀.symm.trans ht
  have hended := hend rfl
  simp only [Tunnel.ended, hopen, isSome_none, Bool.false_or, decide_eq_true_eq] at hended
  omega

theorem authority_of_leads (hs : WorldOk w.store) (hl : (ticketStore sha256).Leads w v)
    {g : GatewayTicket} (hg : g ∈ w.store.tickets) :
    ∃ g' ∈ v.store.tickets, g'.authority = g.authority := by
  refine (hl.preserves (P := fun u => WorldOk u.store ∧
    ∃ g' ∈ u.store.tickets, g'.authority = g.authority) ?_ ⟨hs, g, hg, rfl⟩).2
  rintro u e u' ⟨hu, g₁, hg₁, heq⟩ hstep
  obtain ⟨hu', hadv, -⟩ := hu.step hstep
  obtain ⟨g₂, hg₂, he⟩ := hadv.kept g₁ hg₁
  exact ⟨hu', g₂, hg₂, he.authority.trans heq⟩

end Runs

section Scan

variable {c : DesktopConnectionSession}

theorem mem_of_not_due {limit : ℤ} {locked : List String} (hs : WorldOk w.store)
    (h : (ticketStore sha256).step w (.desktopConnectionsDueForRevocation limit locked) = some w')
    (hc : c ∈ w.store.access.grants.connections) (hdue : w.store.due w.clock c = false) :
    c ∈ w'.store.access.grants.connections := by
  rcases step_ok h with ⟨d, hd, -⟩ | ⟨ops, hops, hx, -⟩
  · cases hd
  cases hops
  obtain ⟨s, hs', hx⟩ := bind_eq_ok.mp hx
  cases hx
  obtain ⟨x, hx, hs'⟩ := bind_eq_ok.mp hs'
  cases hx
  rw [← Except.ok.inj hs']
  refine mem_updateWhere.mpr ⟨c, hc, .inr ⟨?_, rfl⟩⟩
  -- no other connection has its identifier
  have hnot : c.id ∉ (w.store.connectionsDue limit locked w.clock).map (·.id) := by
    intro hid
    obtain ⟨d, hd, heq⟩ := List.mem_map.mp hid
    obtain ⟨hmem, hdue'⟩ := List.mem_filter.mp <|
      (List.mem_insertionSort _).mp (List.mem_of_mem_take hd)
    obtain rfl := List.inj_on_of_nodup_map hs.keyed.connections hmem hc heq
    simp [hdue] at hdue'
  simp only [Bool.and_eq_false_iff, List.contains_eq_mem, decide_eq_false_iff_not]
  exact .inr hnot

theorem not_due_of_live (hs : Distinct s.tickets) {now : ℕ} {g : GatewayTicket} {t : Tunnel}
    (hact : c.state = .active) (hexp : now < c.expiresAt) (hg : g ∈ s.tickets)
    (hconn : g.connectionId = c.id) (ht : g.tunnel = some t) (hlive : t.ended now = false) :
    s.due now c = false := by
  have hlapsed : ∀ k ∈ s.tickets, k.connectionId = c.id → k.lapsed now = false := by
    intro k hk hid
    obtain rfl := List.inj_on_of_nodup_map hs.connections hk hg (hid.trans hconn.symm)
    simp [GatewayTicket.lapsed, ht, hlive]
  simpa [GatewayStore.due, hact, Nat.not_le.mpr hexp] using hlapsed

end Scan

section Results

/-- The life of a ticket: a connection has one, it is redeemed once and authorizes the same for
ever, its leases end with the session and the window, a closed tunnel is never renewed, every grant
finds its access, and the scan leaves open tunnels alone. -/
theorem gateway_ticket_lifecycle (hw : (ticketStore sha256).Reachable w) :
    (w.store.tickets.map (·.connectionId)).Nodup ∧
    (∀ gateway token random w', (ticketStore sha256).step w
        (.transaction (.redeemNativeGatewayTicket gateway token random)) = some w' →
      ∀ v, (ticketStore sha256).Leads w' v → ∀ gateway' token' random',
        sha256 token' = sha256 token → (ticketStore sha256).step v
          (.transaction (.redeemNativeGatewayTicket gateway' token' random')) = none) ∧
    (∀ v, (ticketStore sha256).Leads w v → ∀ g ∈ w.store.tickets,
      ∃ g' ∈ v.store.tickets, g'.authority = g.authority) ∧
    (∀ g ∈ w.store.tickets, ∀ t, g.tunnel = some t → t.leaseUntil ≤ g.sessionDeadline) ∧
    (∀ e w', (ticketStore sha256).step w e = some w' → ∀ g' ∈ w'.store.tickets, ∀ t',
      g'.tunnel = some t' →
      (∃ g ∈ w.store.tickets, g.authority = g'.authority ∧
        ∃ t, g.tunnel = some t ∧ t'.leaseUntil = t.leaseUntil) ∨
      t'.leaseUntil ≤ w.clock + gatewayAuthorizationWindow) ∧
    (∀ g ∈ w.store.tickets, ∀ t, g.tunnel = some t → t.ended w.clock = true →
      ∀ v, (ticketStore sha256).Leads w v → ∀ gateway, (ticketStore sha256).step v
        (.transaction (.renewNativeGatewayGrant gateway t.tunnelId)) = none) ∧
    (∀ gateway token random w', (ticketStore sha256).step w
        (.transaction (.redeemNativeGatewayTicket gateway token random)) = some w' →
      ∃ g ∈ w.store.tickets, g.tokenDigest = sha256 token ∧
        (w.store.gatewayAccess w.clock g.connectionId).any
          (·.policyRevision == g.policyRevision) = true) ∧
    (∀ gateway tunnel w', (ticketStore sha256).step w
        (.transaction (.renewNativeGatewayGrant gateway tunnel)) = some w' →
      ∃ g ∈ w.store.tickets, tunnelId g = some tunnel ∧
        (w.store.gatewayAccess w.clock g.connectionId).any
          (·.policyRevision == g.policyRevision) = true) ∧
    (∀ limit locked w', (ticketStore sha256).step w
        (.desktopConnectionsDueForRevocation limit locked) = some w' →
      ∀ c ∈ w.store.access.grants.connections, c.state = .active → w.clock < c.expiresAt →
      ∀ g ∈ w.store.tickets, g.connectionId = c.id → ∀ t, g.tunnel = some t →
        t.closedAt = none → w.clock < t.leaseUntil → c ∈ w'.store.access.grants.connections) := by
  have hs := worldOk_of_reachable hw
  have haccess : ∀ {g a}, w.store.ticketAccess w.clock g = some a →
      (w.store.gatewayAccess w.clock g.connectionId).any
        (·.policyRevision == g.policyRevision) = true := by
    intro g a ha
    obtain ⟨hacc, hrev⟩ := ticketAccess_ok ha
    rw [hacc, any_some, hrev, beq_self_eq_true]
  refine ⟨hs.distinct.connections, ?_, fun v hv g hg => authority_of_leads hs hv hg, hs.deadline,
    ?_, ?_, ?_, ?_, ?_⟩
  · intro gateway token random w' hstep v hv gateway' token' random' heq
    obtain ⟨t, grant, hx⟩ := redeem_of_step hstep
    obtain ⟨g, hl, hdigest, -, -⟩ := redeem_ok hx
    have hred : Redeemed (sha256 token) t.tunnelId false w' :=
      ⟨{ g with tunnel := some t }, hl.store ▸ mem_putTunnel hl.puts.mem, hdigest, t, rfl, rfl,
        nofun⟩
    obtain ⟨hv', hok⟩ := hred.leads (hs.step hstep).1 hv
    rw [← heq] at hv'
    exact hv'.not_redeem hok
  · intro e w' hstep g' hg' t' ht'
    obtain ⟨-, hadv, -⟩ := hs.step hstep
    rcases hadv.origin g' hg' with ⟨g, hg, he⟩ | hb
    · exact (he.lease t' ht').imp (fun ht => ⟨g, hg, he.authority.symm, ht⟩) (·.2)
    · exact .inr (hb t' ht').2
  · intro g hg t ht hend v hv gateway
    have hred : Redeemed g.tokenDigest t.tunnelId true w := ⟨g, hg, rfl, t, ht, rfl, fun _ => hend⟩
    obtain ⟨hv', hok⟩ := hred.leads hs hv
    exact hv'.not_renew hok
  · intro gateway token random w' hstep
    obtain ⟨t, grant, hx⟩ := redeem_of_step hstep
    obtain ⟨g, hl, hdigest, -, a, ha, -⟩ := redeem_ok hx
    exact ⟨g, hl.puts.mem, hdigest, haccess ha⟩
  · intro gateway tunnel w' hstep
    obtain ⟨t, grant, hx⟩ := renew_of_step hstep
    obtain ⟨g, hl, hid, -, a, t₀, ha, -⟩ := renew_ok hx
    exact ⟨g, hl.puts.mem, hid, haccess ha⟩
  · intro limit locked w' hstep c hc hact hexp g hg hconn t ht hopen hlive
    refine mem_of_not_due hs hstep hc (not_due_of_live hs.distinct hact hexp hg hconn ht ?_)
    simp [Tunnel.ended, hopen, Nat.not_le.mpr hlive]

end Results

section Sample

def sampleWorld : World :=
  ⟨⟨⟨⟨[], [], [], [], [], [], [], [], []⟩, ⟨[], [], [], [], [], []⟩⟩,
    [⟨managedLocalProfile .linux, .linux, true⟩], [], []⟩, 0⟩

def sampleTunnel : Tunnel := ⟨"tun_AAAAAAAAAAAAAAAAAAAAAAAA", 0, 5000000, none⟩

def sampleRun : List Event :=
  sampleTicketed.map .transaction ++
    [.transaction (.redeemNativeGatewayTicket "gw_00000000" ("gwt_" ++ sampleSecret)
      sampleTunnelSecret), .tick 1000000]

def sampleTicket (tunnel : Tunnel) : GatewayTicket :=
  ⟨Vector.replicate 32 0, "conn_1", "gw_00000000", .v4 10 0 0 5, List.replicate 32 2, 1, 30000000,
    80000000, some tunnel⟩

/-- The scan leaves the connection of a live tunnel alone. -/
theorem gateway_ticket_lifecycle_live :
    ∃ w w', (ticketStore sampleDigest).Reachable w ∧ sampleTicket sampleTunnel ∈ w.store.tickets ∧
      (ticketStore sampleDigest).step w (.desktopConnectionsDueForRevocation 100 []) = some w' ∧
      sampleConnection ∈ w'.store.access.grants.connections := by
  obtain ⟨w, hw, hclock, hg, hc, hstep⟩ : ∃ w, (ticketStore sampleDigest).Reachable w ∧
      w.clock = 1000000 ∧ sampleTicket sampleTunnel ∈ w.store.tickets ∧
      sampleConnection ∈ w.store.access.grants.connections ∧
      ((ticketStore sampleDigest).step w
        (.desktopConnectionsDueForRevocation 100 [])).isSome = true :=
    Machine.exists_reachable_of_run sampleWorld sampleRun ⟨rfl, rfl⟩ (by decide +kernel)
  obtain ⟨w', hw'⟩ := isSome_iff_exists.mp hstep
  refine ⟨w, w', hw, hg, hw', ?_⟩
  exact (gateway_ticket_lifecycle hw).2.2.2.2.2.2.2.2 100 [] w' hw' _ hc rfl
    (by rw [hclock]; decide) _ hg rfl _ rfl rfl (by rw [hclock]; decide)

/-- The scan revokes the connection of a closed tunnel, although the lease is not over. -/
theorem closed_tunnel_revoked : ∃ w w' c g t, (ticketStore sampleDigest).Reachable w ∧
      (ticketStore sampleDigest).step w (.desktopConnectionsDueForRevocation 100 []) = some w' ∧
      c ∈ w.store.access.grants.connections ∧ c.state = .active ∧ w.clock < c.expiresAt ∧
      g ∈ w.store.tickets ∧ g.connectionId = c.id ∧ g.tunnel = some t ∧ w.clock < t.leaseUntil ∧
      w'.store.access.grants.connections = [c.beginRevoke] := by
  obtain ⟨w, hw, hclock, hg, hc, hstep⟩ : ∃ w, (ticketStore sampleDigest).Reachable w ∧
      w.clock = 1000000 ∧
      sampleTicket { sampleTunnel with closedAt := some 1000000 } ∈ w.store.tickets ∧
      sampleConnection ∈ w.store.access.grants.connections ∧
      ((ticketStore sampleDigest).step w (.desktopConnectionsDueForRevocation 100 [])).any
        (fun w' => decide (w'.store.access.grants.connections = [sampleConnection.beginRevoke])) =
        true :=
    Machine.exists_reachable_of_run sampleWorld (sampleRun ++
      [.transaction (.closeNativeGatewayGrant "gw_00000000" sampleTunnel.tunnelId)]) ⟨rfl, rfl⟩
      (by decide +kernel)
  obtain ⟨w', hw', hrev⟩ := (any_eq_true _ _).mp hstep
  exact ⟨w, w', sampleConnection, _, _, hw, hw', hc, rfl, by rw [hclock]; decide, hg, rfl, rfl,
    by rw [hclock]; decide, of_decide_eq_true hrev⟩

end Sample

end TicketLifecycle

end VcWorkspace.Store
