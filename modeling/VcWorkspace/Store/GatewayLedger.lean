import Mathlib.Data.List.Nodup
import VcWorkspace.Store.Footprint
import VcWorkspace.Store.GatewayTicket
import VcWorkspace.Transition.Lease

/-! # The ledger of gateway tickets

What a ticket authorizes never changes, and the deadline of its session stays
that of its connection and its native session as long as they exist. So all
leases of a tunnel have one limit, and a renewal never shortens a lease.
-/

namespace VcWorkspace.Store.GatewayLedger

open Transition GatewayStore Footprint Option

def tunnelId (g : GatewayTicket) : Option String := g.tunnel.map (·.tunnelId)

structure Follows (g g' : GatewayTicket) : Prop where
  digest : g'.tokenDigest = g.tokenDigest
  connection : g'.connectionId = g.connectionId
  deadline : g'.sessionDeadline = g.sessionDeadline
  tunnel : ∀ t, tunnelId g = some t → tunnelId g' = some t

structure Distinct (tickets : List GatewayTicket) : Prop where
  connections : (tickets.map (·.connectionId)).Nodup
  digests : ∀ g ∈ tickets, ∀ h ∈ tickets, g.tokenDigest = h.tokenDigest → g = h
  tunnels : ∀ g ∈ tickets, ∀ h ∈ tickets, ∀ t, tunnelId g = some t → tunnelId h = some t →
    g.tokenDigest = h.tokenDigest

/-- The keys of the tickets and of the sessions that were ever issued, and the limit of every
ticket. -/
structure Sound (issued : List (List UInt8)) (s : GatewayStore) : Prop extends
    Distinct s.tickets where
  sessions : ∀ n ∈ s.access.grants.nativeSessions, n.tokenDigest ∈ issued
  sessionKeys : ∀ n ∈ s.access.grants.nativeSessions, ∀ m ∈ s.access.grants.nativeSessions,
    n.tokenDigest = m.tokenDigest → n = m
  limits : ∀ g ∈ s.tickets, ∃ c d, s.access.grants.connection g.connectionId = some c ∧
    c.nativeSessionDigest = some d ∧ d ∈ issued ∧
    ∀ n ∈ s.access.grants.nativeSessions, n.tokenDigest = d →
      min c.expiresAt n.expiresAt = g.sessionDeadline

variable {issued : List (List UInt8)} {s s' : GatewayStore} {g : GatewayTicket} {t : Tunnel}

section Tickets

variable {tickets : List GatewayTicket}

theorem Follows.refl (g : GatewayTicket) : Follows g g := ⟨rfl, rfl, rfl, fun _ => id⟩

@[simp] theorem distinct_nil : Distinct [] := by
  constructor <;> simp

theorem Distinct.map (h : Distinct tickets) {F : GatewayTicket → GatewayTicket}
    (hF : ∀ g ∈ tickets, Follows g (F g))
    (hnew : ∀ g ∈ tickets, ∀ t, tunnelId (F g) = some t → tunnelId g = some t ∨
      ∀ k ∈ tickets, tunnelId k ≠ some t ∧
        (tunnelId (F k) = some t → k.tokenDigest = g.tokenDigest)) :
    Distinct (tickets.map F) := by
  refine ⟨?_, ?_, ?_⟩
  · have hsame : tickets.map ((·.connectionId) ∘ F) = tickets.map (·.connectionId) :=
      List.map_congr_left fun g hg => (hF g hg).connection
    rw [List.map_map, hsame]
    exact h.connections
  · intro r hr r' hr' heq
    obtain ⟨g, hg, rfl⟩ := List.mem_map.mp hr
    obtain ⟨k, hk, rfl⟩ := List.mem_map.mp hr'
    rw [(hF g hg).digest, (hF k hk).digest] at heq
    rw [h.digests g hg k hk heq]
  · intro r hr r' hr' t ht ht'
    obtain ⟨g, hg, rfl⟩ := List.mem_map.mp hr
    obtain ⟨k, hk, rfl⟩ := List.mem_map.mp hr'
    rw [(hF g hg).digest, (hF k hk).digest]
    rcases hnew g hg t ht with hold | hfresh
    · rcases hnew k hk t ht' with hold' | hfresh'
      · exact h.tunnels g hg k hk t hold hold'
      · exact absurd hold (hfresh' g hg).1
    · exact ((hfresh k hk).2 ht').symm

theorem Distinct.append (h : Distinct tickets)
    (hnew : ∀ k ∈ tickets, k.tokenDigest ≠ g.tokenDigest ∧ k.connectionId ≠ g.connectionId)
    (htunnel : g.tunnel = none) : Distinct (tickets ++ [g]) := by
  refine ⟨?_, fun k hk j hj heq => ?_, fun k hk j hj t ht ht' => ?_⟩
  · rw [List.map_append, List.nodup_append]
    refine ⟨h.connections, by simp, fun id hid id' hid' => ?_⟩
    obtain ⟨k, hk, rfl⟩ := List.mem_map.mp hid
    obtain rfl : id' = g.connectionId := by simpa using hid'
    exact (hnew k hk).2
  · rcases List.mem_append.mp hk with hk | hk <;> rcases List.mem_append.mp hj with hj | hj
    · exact h.digests k hk j hj heq
    · exact absurd (heq.trans (List.mem_singleton.mp hj ▸ rfl)) (hnew k hk).1
    · exact absurd (heq.symm.trans (List.mem_singleton.mp hk ▸ rfl)) (hnew j hj).1
    · rw [List.mem_singleton.mp hk, List.mem_singleton.mp hj]
  · have hold : ∀ k ∈ tickets ++ [g], tunnelId k = some t → k ∈ tickets := by
      intro k hk ht
      rcases List.mem_append.mp hk with hk | hk
      · exact hk
      · rw [List.mem_singleton.mp hk, tunnelId, htunnel] at ht
        cases ht
    exact h.tunnels k (hold k hk ht) j (hold j hj ht') t ht ht'

/-- The tunnel of a ticket is replaced by one with its identifier, or with a new one. -/
structure Puts (s : GatewayStore) (g : GatewayTicket) (t : Tunnel) : Prop where
  mem : g ∈ s.tickets
  tunnel : tunnelId g = some t.tunnelId ∨
    (tunnelId g = none ∧ ∀ k ∈ s.tickets, tunnelId k ≠ some t.tunnelId)

theorem Puts.follows (h : Distinct s.tickets) (hp : Puts s g t) : ∀ k ∈ s.tickets,
      Follows k (if k.tokenDigest == g.tokenDigest then { k with tunnel := some t } else k) := by
  intro k hk
  split
  next heq =>
    obtain rfl := h.digests k hk g hp.mem (eq_of_beq heq)
    refine ⟨rfl, rfl, rfl, fun t' ht' => ?_⟩
    rcases hp.tunnel with hid | ⟨hid, -⟩
    · exact (hid.symm.trans ht').symm ▸ rfl
    · rw [hid] at ht'
      cases ht'
  · exact .refl k

theorem Distinct.putTunnel (h : Distinct s.tickets) (hp : Puts s g t) :
    Distinct (s.putTunnel g t).tickets := by
  refine h.map (hp.follows h) fun k hk t' ht' => ?_
  split at ht'
  next heq =>
    obtain rfl := h.digests k hk g hp.mem (eq_of_beq heq)
    cases ht'
    rcases hp.tunnel with hid | ⟨-, hfresh⟩
    · exact .inl hid
    · refine .inr fun j hj => ⟨hfresh j hj, fun htj => ?_⟩
      split at htj
      next heq' => exact eq_of_beq heq'
      · exact absurd htj (hfresh j hj)
  · exact .inl ht'

theorem mem_putTunnel (hg : g ∈ s.tickets) :
    { g with tunnel := some t } ∈ (s.putTunnel g t).tickets :=
  mem_updateWhere.mpr ⟨g, hg, .inl ⟨beq_self_eq_true _, rfl⟩⟩

end Tickets

variable {a : GatewayAccess} {now : ℕ}

section Access

theorem connectionAccess_ok {c : DesktopConnectionSession} (h : s.connectionAccess now c = some a) :
    c.state = .active ∧ a.id = c.id ∧ ∃ n ∈ s.access.grants.nativeSessions,
      c.nativeSessionDigest = some n.tokenDigest ∧ a.deadline = min c.expiresAt n.expiresAt ∧
      now < a.deadline ∧ a.nativeSessionDigest = n.tokenDigest ∧
      s.access.grants.revocationPending c.desktopVmid = false := by
  simp only [connectionAccess, bind_eq_bind, bind_eq_some_iff,
    guard_eq_some', Bool.and_eq_true, Bool.not_eq_true', decide_eq_true_eq,
    beq_iff_eq] at h
  obtain ⟨d, hd, n, hn, _, -, _, -, _, -, _, -, _, -, _, hc, _, -, _, -, _, -, _, hq, ha⟩ := h
  cases ha
  have hkey := List.find?_some hn
  simp only [Bool.and_eq_true, beq_iff_eq] at hkey
  refine ⟨hc.1.1.1, rfl, n, List.mem_of_find?_eq_some hn, by rw [hkey.1, hd], rfl, ?_, hkey.1.symm,
    hq.1⟩
  exact lt_min hc.1.2 hc.2

theorem ticketAccess_ok (h : s.ticketAccess now g = some a) :
    s.gatewayAccess now g.connectionId = some a ∧ a.policyRevision = g.policyRevision := by
  simpa [ticketAccess] using h

/-- The access behind a ticket has the deadline that the ticket was made with. -/
theorem deadline_of_ticketAccess (hs : Sound issued s) (hg : g ∈ s.tickets)
    (h : s.ticketAccess now g = some a) : a.deadline = g.sessionDeadline := by
  obtain ⟨c, d, hc, hd, -, hlimit⟩ := hs.limits g hg
  have hacc := (ticketAccess_ok h).1
  rw [gatewayAccess, hc, bind_some] at hacc
  obtain ⟨-, -, n, hn, hdigest, ha, -⟩ := connectionAccess_ok hacc
  rw [ha]
  exact hlimit n hn (some.inj (hdigest.symm.trans hd))

theorem selectTicket_ok {p : GatewayTicket → Bool} (h : s.selectTicket now p = some (g, a)) :
    g ∈ s.tickets ∧ p g = true ∧ s.ticketAccess now g = some a := by
  obtain ⟨k, hk, h⟩ := List.exists_of_findSome?_eq_some h
  split at h
  next hp =>
    obtain ⟨a', ha', heq⟩ := map_eq_some_iff.mp h
    cases heq
    exact ⟨hk, hp, ha'⟩
  · cases h

end Access

variable {sha256 : Sha256}

section Leases

variable {grant : NativeGatewayGrant}

structure Leases (s : GatewayStore) (now : ℕ) (g : GatewayTicket) (t : Tunnel)
    (grant : NativeGatewayGrant) (s' : GatewayStore) : Prop where
  puts : Puts s g t
  access : (s.ticketAccess now g).isSome
  expiry : ∀ issued, Sound issued s →
    t.leaseUntil = (⟨now, g.sessionDeadline, gatewayAuthorizationWindow⟩ : Lease).expiry
  live : now ≤ t.leaseUntil
  tunnel : grant.tunnelId = t.tunnelId
  validFor : grant.validFor = t.leaseUntil - now
  store : s' = s.putTunnel g t

theorem scanGatewayGrant_ok (h : scanGatewayGrant now g t = .ok grant) :
    grant.tunnelId = t.tunnelId ∧ grant.validFor = t.leaseUntil - now ∧ now ≤ t.leaseUntil := by
  simp only [scanGatewayGrant, seq_eq_ok, ensure_eq_ok, Bool.and_eq_true,
    decide_eq_true_eq] at h
  obtain ⟨⟨⟨-, hpos⟩, -⟩, h⟩ := h
  cases h
  exact ⟨rfl, rfl, by omega⟩

theorem leases_of_scan (hp : Puts s g t) (ha : s.ticketAccess now g = some a)
    (ht : t.leaseUntil = leaseUntil now g a) (h : scanGatewayGrant now g t = .ok grant) :
    Leases s now g t grant (s.putTunnel g t) := by
  obtain ⟨htunnel, hvalid, hlive⟩ := scanGatewayGrant_ok h
  refine ⟨hp, by rw [ha]; rfl, fun issued hs => ?_, hlive, htunnel, hvalid, rfl⟩
  rw [ht, leaseUntil, deadline_of_ticketAccess hs hp.mem ha, Nat.min_self]
  rfl

theorem redeem_ok {gateway token random : String}
    (h : s.redeemNativeGatewayTicket sha256 gateway token random now = .ok (s', t, grant)) :
    ∃ g, Leases s now g t grant s' ∧ g.tokenDigest = sha256 token ∧ g.tunnel = none ∧
      ∃ a, s.ticketAccess now g = some a ∧
        t = ⟨"tun_" ++ random, now, leaseUntil now g a, none⟩ := by
  obtain ⟨digest, hdigest, h⟩ := bind_eq_ok.mp h
  simp only [gatewayTokenDigest, seq_eq_ok] at hdigest
  cases hdigest.2
  simp only [seq_eq_ok] at h
  replace h := h.2
  split at h
  · cases h
  next g a hsel =>
    obtain ⟨hmem, hp, ha⟩ := selectTicket_ok hsel
    simp only [Bool.and_eq_true, beq_iff_eq, isNone_iff_eq_none] at hp
    simp only [seq_eq_ok, ensure_eq_ok, Bool.not_eq_true', List.any_eq_false] at h
    obtain ⟨-, hfresh, h⟩ := h
    obtain ⟨grant', hscan, h⟩ := bind_eq_ok.mp h
    obtain ⟨rfl, rfl, rfl⟩ : s.putTunnel g _ = s' ∧ _ = t ∧ grant' = grant := by
      simpa using Except.ok.inj h
    refine ⟨g, leases_of_scan ⟨hmem, .inr ⟨?_, fun k hk hid => ?_⟩⟩ ha rfl hscan, hp.1.1.1.1,
      hp.1.1.2, a, ha, rfl⟩
    · rw [tunnelId, hp.1.1.2]
      rfl
    · obtain ⟨t', ht', hid⟩ := map_eq_some_iff.mp hid
      exact hfresh k hk (by simp [ht', hid])

theorem renew_ok {gateway tunnel : String}
    (h : s.renewNativeGatewayGrant gateway tunnel now = .ok (s', t, grant)) :
    ∃ g, Leases s now g t grant s' ∧ tunnelId g = some tunnel ∧ t.tunnelId = tunnel ∧
      ∃ a t₀, s.ticketAccess now g = some a ∧ g.tunnel = some t₀ ∧ t₀.closedAt = none ∧
        now < t₀.leaseUntil ∧ t = { t₀ with leaseUntil := leaseUntil now g a } := by
  simp only [renewNativeGatewayGrant, seq_eq_ok] at h
  replace h := h.2
  split at h
  · cases h
  next g a hsel =>
    obtain ⟨hmem, hp, ha⟩ := selectTicket_ok hsel
    split at h
    · cases h
    next t₀ ht₀ =>
      simp only [Bool.and_eq_true, beq_iff_eq, ht₀, any_some, isNone_iff_eq_none,
        decide_eq_true_eq] at hp
      obtain ⟨grant', hscan, h⟩ := bind_eq_ok.mp h
      obtain ⟨rfl, rfl, rfl⟩ : s.putTunnel g _ = s' ∧ _ = t ∧ grant' = grant := by
        simpa using Except.ok.inj h
      have hid : tunnelId g = some t₀.tunnelId := by rw [tunnelId, ht₀]; rfl
      refine ⟨g, leases_of_scan ⟨hmem, .inl hid⟩ ha rfl hscan, ?_, hp.1.2.1.1, a, t₀, ha, ht₀,
        hp.1.2.1.2, hp.1.2.2, rfl⟩
      rw [hid, hp.1.2.1.1]

end Leases

section Operations

variable {op : GatewayOp} {F : GatewayTicket → GatewayTicket}

theorem Sound.follows {login : Option NativeSession} (h : Sound issued s)
    (hf : Footprint.Follows login s.access.grants s'.access.grants)
    (ht : s'.tickets = s.tickets) (hfresh : ∀ n, login = some n → n.tokenDigest ∉ issued) :
    Sound ((login.map (·.tokenDigest)).toList ++ issued) s' := by
  have hlogin : ∀ n, login = some n →
      n.tokenDigest ∈ (login.map (·.tokenDigest)).toList ++ issued := by
    rintro n rfl
    exact List.mem_append_left _ (List.mem_singleton.mpr rfl)
  refine ⟨ht ▸ h.toDistinct, fun n hn => ?_, fun n hn m hm heq => ?_, fun g hg => ?_⟩
  · rcases hf.sessions n hn with hold | hnew
    · exact List.mem_append_right _ (h.sessions n hold)
    · exact hlogin n hnew
  · rcases hf.sessions n hn with hold | hnew
    · rcases hf.sessions m hm with hold' | hnew'
      · exact h.sessionKeys n hold m hold' heq
      · exact absurd (heq ▸ h.sessions n hold) (hfresh m hnew')
    · rcases hf.sessions m hm with hold' | hnew'
      · exact absurd (heq ▸ h.sessions m hold') (hfresh n hnew)
      · exact some.inj (hnew.symm.trans hnew')
  · rw [ht] at hg
    obtain ⟨c, d, hc, hd, hmem, hlimit⟩ := h.limits g hg
    obtain ⟨c', hc', hm⟩ := hf.connection _ c hc
    refine ⟨c', d, hc', hm.digest.trans hd, List.mem_append_right _ hmem, fun n hn heq => ?_⟩
    rcases hf.sessions n hn with hold | hnew
    · rw [hm.expires]
      exact hlimit n hold heq
    · exact absurd (heq ▸ hmem) (hfresh n hnew)

/-- A new ticket is for a connection with access, and has its deadline. -/
structure Creates (s : GatewayStore) (now : ℕ) (g : GatewayTicket) : Prop where
  access : ∃ id a, s.gatewayAccess now id = some a ∧ g.connectionId = a.id ∧
    g.sessionDeadline = a.deadline ∧ g.policyRevision = a.policyRevision
  tunnel : g.tunnel = none
  fresh : ∀ k ∈ s.tickets, k.tokenDigest ≠ g.tokenDigest ∧ k.connectionId ≠ g.connectionId

inductive Writes (sha256 : Sha256) (now : ℕ) (s s' : GatewayStore) :
    GatewayOp → Prop
  | access {op : AccessOp} (h : op.apply sha256 s.access = .ok s'.access)
      (ht : s'.tickets = s.tickets) : Writes sha256 now s s' (.access op)
  | frame {op : GatewayOp} (hlogin : op.login = none) (ha : s'.access = s.access)
      (ht : s'.tickets = s.tickets) : Writes sha256 now s s' op
  | create {request : NativeGatewayTicketRequest} {secret : String} {g : GatewayTicket}
      (hg : Creates s now g) (h : s' = { s with tickets := s.tickets ++ [g] }) :
    Writes sha256 now s s' (.createNativeGatewayTicket request secret)
  | redeem {gateway token random : String} {t : Tunnel} {grant : NativeGatewayGrant}
      (h : s.redeemNativeGatewayTicket sha256 gateway token random now = .ok (s', t, grant)) :
    Writes sha256 now s s' (.redeemNativeGatewayTicket gateway token random)
  | renew {gateway tunnel : String} {t : Tunnel} {grant : NativeGatewayGrant}
      (h : s.renewNativeGatewayGrant gateway tunnel now = .ok (s', t, grant)) :
    Writes sha256 now s s' (.renewNativeGatewayGrant gateway tunnel)
  | close {gateway tunnel : String} (h : s' =
      { s with
        tickets := updateWhere (fun g => g.gatewayId == gateway && g.tunnel.any (fun t =>
          t.tunnelId == tunnel && t.closedAt.isNone)) (·.close now) s.tickets }) :
    Writes sha256 now s s' (.closeNativeGatewayGrant gateway tunnel)

theorem creates_of_create {request : NativeGatewayTicketRequest} {secret : String}
    (h : s.createNativeGatewayTicket sha256 request secret now = .ok s') :
    ∃ g, Creates s now g ∧ s' = { s with tickets := s.tickets ++ [g] } := by
  simp only [createNativeGatewayTicket, seq_eq_ok] at h
  replace h := h.2
  split at h
  · cases h
  next a ha =>
    simp only [seq_eq_ok, ensure_eq_ok, Bool.not_eq_true', List.any_eq_false,
      Bool.or_eq_true, beq_iff_eq, not_or] at h
    obtain ⟨-, hnew, h⟩ := h
    exact ⟨_, ⟨⟨_, a, ha, rfl, rfl, rfl⟩, rfl, hnew⟩, (Except.ok.inj h).symm⟩

theorem writes_of_apply (h : op.apply sha256 now s = .ok s') : Writes sha256 now s s' op := by
  cases op with
  | access op =>
    obtain ⟨x, hx, h⟩ := bind_eq_ok.mp h
    cases h
    exact .access hx rfl
  | putIdentityProfile profile =>
    cases h
    exact .frame rfl rfl rfl
  | ensureDesktopAccessPolicy vmid =>
    simp only [GatewayOp.apply, ensureDesktopAccessPolicy, seq_eq_ok] at h
    cases h.2
    exact .frame rfl rfl rfl
  | putDesktopAccessPolicy vmid controls =>
    simp only [GatewayOp.apply, putDesktopAccessPolicy, seq_eq_ok] at h
    cases h.2.2
    exact .frame rfl rfl rfl
  | markDesktopAccessPolicyApplied vmid revision os =>
    simp only [GatewayOp.apply, markDesktopAccessPolicyApplied, markDesktopAccessPolicy,
      seq_eq_ok] at h
    cases h.2
    exact .frame rfl rfl rfl
  | markDesktopAccessPolicyFailed vmid revision os =>
    simp only [GatewayOp.apply, markDesktopAccessPolicyFailed, markDesktopAccessPolicy,
      seq_eq_ok] at h
    cases h.2
    exact .frame rfl rfl rfl
  | createNativeGatewayTicket request secret =>
    obtain ⟨g, hg, rfl⟩ := creates_of_create h
    exact .create hg rfl
  | redeemNativeGatewayTicket gateway token random =>
    obtain ⟨⟨x, t, grant⟩, hx, h⟩ := bind_eq_ok.mp h
    cases h
    exact .redeem hx
  | renewNativeGatewayGrant gateway tunnel =>
    obtain ⟨⟨x, t, grant⟩, hx, h⟩ := bind_eq_ok.mp h
    cases h
    exact .renew hx
  | closeNativeGatewayGrant gateway tunnel =>
    simp only [GatewayOp.apply, closeNativeGatewayGrant, seq_eq_ok] at h
    exact .close (Except.ok.inj h.2).symm

theorem access_of_apply (h : op.apply sha256 now s = .ok s') :
    s'.access = s.access ∨ ∃ o, op = .access o ∧ o.apply sha256 s.access = .ok s'.access := by
  cases writes_of_apply h with
  | access hx => exact .inr ⟨_, rfl, hx⟩
  | frame _ ha => exact .inl ha
  | create _ hx | close hx => exact .inl (hx ▸ rfl)
  | redeem hx =>
    obtain ⟨g, hl, -⟩ := redeem_ok hx
    exact .inl (hl.store ▸ rfl)
  | renew hx =>
    obtain ⟨g, hl, -⟩ := renew_ok hx
    exact .inl (hl.store ▸ rfl)

theorem Sound.of_tickets (h : Sound issued s) (ha : s'.access = s.access) (hd : Distinct s'.tickets)
    (ht : ∀ g' ∈ s'.tickets, ∃ g ∈ s.tickets, g'.connectionId = g.connectionId ∧
      g'.sessionDeadline = g.sessionDeadline) : Sound issued s' := by
  refine ⟨hd, ha ▸ h.sessions, ha ▸ h.sessionKeys, fun g' hg' => ?_⟩
  obtain ⟨g, hg, hconn, hdeadline⟩ := ht g' hg'
  rw [hconn, hdeadline, ha]
  exact h.limits g hg

theorem Sound.map (h : Sound issued s) (ha : s'.access = s.access)
    (ht : s'.tickets = s.tickets.map F) (hd : Distinct s'.tickets)
    (hF : ∀ g ∈ s.tickets, Follows g (F g)) : Sound issued s' := by
  refine h.of_tickets ha hd fun g' hg' => ?_
  rw [ht] at hg'
  obtain ⟨g, hg, rfl⟩ := List.mem_map.mp hg'
  exact ⟨g, hg, (hF g hg).connection, (hF g hg).deadline⟩

theorem Sound.create (h : Sound issued s) (hg : Creates s now g) :
    Sound issued { s with tickets := s.tickets ++ [g] } := by
  refine ⟨h.toDistinct.append hg.fresh hg.tunnel, h.sessions, h.sessionKeys, fun k hk => ?_⟩
  rcases List.mem_append.mp hk with hk | hk
  · exact h.limits k hk
  · obtain rfl := List.mem_singleton.mp hk
    obtain ⟨id, a, ha, hid, hdeadline, -⟩ := hg.access
    obtain ⟨c, hc, hacc⟩ := bind_eq_some_iff.mp ha
    obtain ⟨-, haid, n, hn, hdigest, had, -⟩ := connectionAccess_ok hacc
    have hkey := List.find?_some (p := fun c : DesktopConnectionSession => c.id == id) hc
    refine ⟨c, n.tokenDigest, ?_, hdigest, h.sessions n hn, fun m hm heq => ?_⟩
    · rw [hid, haid, eq_of_beq hkey]
      exact hc
    · rw [h.sessionKeys m hm n hn heq, hdeadline, had]

structure Carries (s s' : GatewayStore) : Prop where
  tickets : ∀ g ∈ s.tickets, ∃ g' ∈ s'.tickets, Follows g g'
  connection : ∀ id c, s.access.grants.connection id = some c →
    ∃ c', s'.access.grants.connection id = some c' ∧ Moves c c'

theorem Carries.of_tickets (ha : s'.access = s.access)
    (h : ∀ g ∈ s.tickets, ∃ g' ∈ s'.tickets, Follows g g') : Carries s s' :=
  ⟨h, fun _ c hc => ⟨c, by rw [ha]; exact hc, Moves.refl c⟩⟩

theorem Carries.of_map (ha : s'.access = s.access) (h : s'.tickets = s.tickets.map F)
    (hF : ∀ g ∈ s.tickets, Follows g (F g)) : Carries s s' :=
  .of_tickets ha fun g hg => ⟨F g, h ▸ List.mem_map_of_mem hg, hF g hg⟩

theorem tunnelId_close (now : ℕ) (g : GatewayTicket) : tunnelId (g.close now) = tunnelId g := by
  rw [tunnelId, GatewayTicket.close, map_map]
  rfl

theorem follows_close {p : Bool} (g : GatewayTicket) :
    Follows g (if p then g.close now else g) := by
  split
  · exact ⟨rfl, rfl, rfl, fun t ht => (tunnelId_close now g).trans ht⟩
  · exact .refl g

theorem Distinct.close {tickets : List GatewayTicket} (h : Distinct tickets)
    (p : GatewayTicket → Bool) : Distinct (updateWhere p (·.close now) tickets) := by
  refine h.map (fun g _ => follows_close g) fun g _ t ht => .inl ?_
  split at ht
  · exact tunnelId_close now g ▸ ht
  · exact ht

theorem distinct_of_apply (hd : Distinct s.tickets) (h : op.apply sha256 now s = .ok s') :
    Distinct s'.tickets := by
  cases writes_of_apply h with
  | access _ ht | frame _ _ ht => exact ht ▸ hd
  | create hg hx =>
    subst hx
    exact hd.append hg.fresh hg.tunnel
  | redeem hx =>
    obtain ⟨g, hl, -⟩ := redeem_ok hx
    exact hl.store ▸ hd.putTunnel hl.puts
  | renew hx =>
    obtain ⟨g, hl, -⟩ := renew_ok hx
    exact hl.store ▸ hd.putTunnel hl.puts
  | close hx =>
    subst hx
    exact hd.close _

theorem Leases.sound {t : Tunnel} {grant : NativeGatewayGrant} (h : Leases s now g t grant s')
    (hs : Sound issued s) : Sound issued s' ∧ Carries s s' := by
  obtain rfl := h.store
  have hfollows := h.puts.follows hs.toDistinct
  exact ⟨hs.map rfl rfl (hs.putTunnel h.puts) hfollows, .of_map rfl rfl hfollows⟩

theorem sound_of_apply (hs : Sound issued s)
    (hfresh : ∀ n, op.login = some n → n.tokenDigest ∉ issued) (h : op.apply sha256 now s = .ok s')
    : Sound ((op.login.map (·.tokenDigest)).toList ++ issued) s' ∧ Carries s s' := by
  cases writes_of_apply h with
  | access hx ht =>
    have hf := (applies_of_apply sha256 hx).change.follows
    exact ⟨hs.follows hf ht hfresh, fun g hg => ⟨g, ht ▸ hg, .refl g⟩, hf.connection⟩
  | frame hlogin ha ht =>
    refine ⟨hs.follows ?_ ht hfresh, .of_tickets ha fun g hg => ⟨g, ht ▸ hg, .refl g⟩⟩
    rw [ha]
    exact ⟨fun _ c hc => ⟨c, hc, .refl c⟩, fun _ => .inl⟩
  | create hg hx =>
    subst hx
    exact ⟨hs.create hg, .of_tickets rfl fun g hg => ⟨g, List.mem_append_left _ hg, .refl g⟩⟩
  | redeem hx =>
    obtain ⟨g, hl, -⟩ := redeem_ok hx
    exact hl.sound hs
  | renew hx =>
    obtain ⟨g, hl, -⟩ := renew_ok hx
    exact hl.sound hs
  | close hx =>
    subst hx
    exact ⟨hs.map rfl rfl (hs.close _) fun g _ => follows_close g,
      .of_map rfl rfl fun g _ => follows_close g⟩

end Operations

end VcWorkspace.Store.GatewayLedger
