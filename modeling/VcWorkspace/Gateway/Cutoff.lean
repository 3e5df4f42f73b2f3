import VcWorkspace.Gateway.Relay
import VcWorkspace.Store.GatewayLedger

/-! # The cut-off of a tunnel

A relay forwards no byte after the end that the database has written for the
lease it accepted last. So a tunnel whose ticket has no access any more is
silent within the authorization window.
-/

namespace VcWorkspace.Gateway

open Transition Store GatewayLedger Option

variable {ticket : String} {clock offset : ℕ} {config : Config} {r r' : Relay}

section Relay

/-- The phases in which `serve` holds a grant. -/
def Phase.granted : Phase → Bool
  | .idle | .redeeming | .closing | .closed => false
  | _ => true

/-- What is known of a call under way; `held` are the grants that the database has given out for
the relay's ticket. -/
structure RpcOk (held : Issued → Prop) (clock offset : ℕ) (ticket : String)
    (first latest : Option Issued) (c : Rpc) : Prop where
  started : c.started ≤ clock
  after : ∀ l, latest = some l → l.statementAt ≤ c.started + offset
  result : ∀ i, c.result = some i →
    held i ∧ c.started + offset ≤ i.statementAt ∧ i.statementAt ≤ clock + offset
  call : c.call = .redeem ticket ∨ ∃ f, first = some f ∧ c.call = .renew f.grant.tunnelId

/-- The sockets and the deadline of a relay end with the lease that was accepted last. -/
structure RelayOk (held : Issued → Prop) (ticket : String) (clock offset : ℕ) (r : Relay) :
    Prop where
  same : r.ticket = ticket
  waiting : r.phase = .idle ∨ r.phase = .redeeming → r.latest = none
  granted : r.phase.granted = true → r.latest.isSome
  latest : ∀ l, r.latest = some l → held l ∧ l.statementAt ≤ clock + offset ∧
    r.deadline + offset ≤ l.leaseUntil ∧ ∃ f, r.first = some f ∧ sameTunnel f.grant l.grant = true
  first : r.first.isSome → r.latest.isSome
  rpc : ∀ c, r.rpc = some c → RpcOk held clock offset r.ticket r.first r.latest c
  client : ∀ d, r.client = some d → ∃ l, r.latest = some l ∧ d + offset ≤ l.leaseUntil
  guest : ∀ d, r.guest = some d → ∃ l, r.latest = some l ∧ d + offset ≤ l.leaseUntil
  armed : r.phase = .armGuest ∨ r.phase = .ready ∨ r.copying = true → r.client.isSome
  ready : r.phase = .ready ∨ r.copying = true → r.guest.isSome

variable {held held' : Issued → Prop} {clock' : ℕ}

theorem RelayOk.new : RelayOk held ticket clock offset (.new ticket) := by
  constructor <;> simp [Relay.new, Phase.granted]

theorem RelayOk.mono (h : RelayOk held ticket clock offset r) (hheld : ∀ i, held i → held' i)
    (hclock : clock ≤ clock') : RelayOk held' ticket clock' offset r := by
  refine { h with latest := fun l hl => ?_, rpc := fun c hc => ?_ }
  · obtain ⟨hh, hat, hd, hf⟩ := h.latest l hl
    exact ⟨hheld l hh, by omega, hd, hf⟩
  · have hrpc := h.rpc c hc
    refine { hrpc with started := hrpc.started.trans hclock, result := fun i hi => ?_ }
    obtain ⟨hh, hlo, hhi⟩ := hrpc.result i hi
    exact ⟨hheld i hh, hlo, by omega⟩

theorem RelayOk.stop (h : RelayOk held ticket clock offset r) :
    RelayOk held ticket clock offset r.stop := by
  refine
    { h with
      waiting := fun hp => ?_, granted := fun hp => ?_, rpc := fun c hc => ?_
      armed := fun hp => ?_, ready := fun hp => ?_ }
  · simp [Relay.stop] at hp
  · simp [Relay.stop, Phase.granted] at hp
  · cases hc
  · exact h.armed (.inr (.inr (by simpa [Relay.stop] using hp)))
  · exact h.ready (.inr (by simpa [Relay.stop] using hp))

theorem RelayOk.call (h : RelayOk held ticket clock offset r) {call : Call} {deadline : ℕ}
    (hcall : call = .redeem r.ticket ∨ ∃ f, r.first = some f ∧ call = .renew f.grant.tunnelId) :
    RpcOk held clock offset r.ticket r.first r.latest ⟨call, clock, deadline, none, false, false⟩ :=
  ⟨le_rfl, fun l hl => (h.latest l hl).2.1, fun _ hi => (by cases hi), hcall⟩

section Steps

variable (h : RelayOk held ticket clock offset r)

include h

/-- `serve` goes on to a phase whose demands are met. -/
theorem RelayOk.go {phase : Phase} {renewAt : Option ℕ} {copying : Bool}
    (hw : phase ≠ .idle ∧ phase ≠ .redeeming) (hg : phase.granted = true → r.latest.isSome)
    (ha : phase = .armGuest ∨ phase = .ready ∨ copying = true → r.client.isSome)
    (hr : phase = .ready ∨ copying = true → r.guest.isSome) :
    RelayOk held ticket clock offset
      { r with phase := phase, renewAt := renewAt, copying := copying } :=
  { h with
    waiting := fun hp => (hp.elim hw.1 hw.2).elim
    granted := hg, armed := ha, ready := hr }

theorem RelayOk.redeem (hr : r.redeem clock = some r') : RelayOk held ticket clock offset r' := by
  unfold Relay.redeem at hr
  split at hr
  next hp =>
    cases hr
    refine
      { h with
        waiting := fun _ => h.waiting (.inl hp), granted := fun hg => ?_, rpc := fun c hc => ?_
        armed := fun ha => h.armed (.inr (.inr (by simpa using ha)))
        ready := fun ha => h.ready (.inr (by simpa using ha)) }
    · cases hg
    · cases hc
      exact h.call (.inl rfl)
  · cases hr

theorem RelayOk.respond {delivered : Bool} (hr : r.respond clock delivered = some r') :
    RelayOk held ticket clock offset r' := by
  unfold Relay.respond at hr
  split at hr
  · cases hr
  next c hc =>
    split at hr
    · cases hr
    · cases hr
      refine { h with rpc := fun c' hc' => ?_ }
      cases hc'
      have hrpc := h.rpc c hc
      refine { hrpc with result := fun i hi => ?_ }
      split at hi
      · exact hrpc.result i hi
      · cases hi

theorem RelayOk.dialed (hr : r.dialed clock = some r') : RelayOk held ticket clock offset r' := by
  unfold Relay.dialed at hr
  split at hr
  next hp =>
    simp only [Bool.and_eq_true, decide_eq_true_eq] at hp
    cases hr
    refine h.go (by decide) (fun _ => h.granted (by rw [hp.1]; rfl)) (fun ha => ?_) fun ha => ?_
    · exact h.armed (.inr (.inr (by simpa using ha)))
    · exact h.ready (.inr (by simpa using ha))
  · cases hr

theorem RelayOk.serving (hr : r.serving config clock = some r') :
    RelayOk held ticket clock offset r' := by
  unfold Relay.serving at hr
  split at hr
  next hp =>
    simp only [Bool.and_eq_true, decide_eq_true_eq] at hp
    cases hr
    refine h.go (by decide) (fun _ => h.granted (by rw [hp.1]; rfl)) (fun _ => ?_) fun _ => ?_
    · exact h.armed (.inr (.inl hp.1))
    · exact h.ready (.inl hp.1)
  · cases hr

theorem RelayOk.close (hr : r.close = some r') : RelayOk held ticket clock offset r' := by
  unfold Relay.close at hr
  split at hr
  · cases hr
    refine h.go (by decide) (fun hg => ?_) (fun ha => ?_) fun ha => ?_
    · cases hg
    · simp at ha
    · simp at ha
  · cases hr

theorem RelayOk.expire (hr : r.expire clock = some r') : RelayOk held ticket clock offset r' := by
  unfold Relay.expire at hr
  split at hr
  · cases hr
    exact h.stop
  · cases hr

theorem RelayOk.fail (hr : r.fail = some r') : RelayOk held ticket clock offset r' := by
  unfold Relay.fail at hr
  split at hr
  · cases hr
  · cases hr
    exact h.stop

theorem RelayOk.deadline_le (hg : r.phase.granted = true) :
    ∃ l, r.latest = some l ∧ r.deadline + offset ≤ l.leaseUntil := by
  obtain ⟨l, hl⟩ := isSome_iff_exists.mp (h.granted hg)
  exact ⟨l, hl, (h.latest l hl).2.2.1⟩

theorem RelayOk.arm {phase : Phase} {client guest renewAt : Option ℕ}
    (hg : r.phase.granted = true) (hw : phase ≠ .idle ∧ phase ≠ .redeeming)
    (hclient : ∀ d, client = some d → r.client = some d ∨ d = r.deadline)
    (hguest : ∀ d, guest = some d → r.guest = some d ∨ d = r.deadline)
    (ha : phase = .armGuest ∨ phase = .ready ∨ r.copying = true → client.isSome)
    (hr : phase = .ready ∨ r.copying = true → guest.isSome) : RelayOk held ticket clock offset
      { r with phase := phase, client := client, guest := guest, renewAt := renewAt } := by
  refine
    { h with
      waiting := fun hp => (hp.elim hw.1 hw.2).elim, granted := fun _ => h.granted hg
      client := fun d hd => ?_, guest := fun d hd => ?_, armed := ha, ready := hr }
  · rcases hclient d hd with hold | rfl
    · exact h.client d hold
    · exact h.deadline_le hg
  · rcases hguest d hd with hold | rfl
    · exact h.guest d hold
    · exact h.deadline_le hg

theorem RelayOk.setClientDeadline (hr : r.setClientDeadline = some r') :
    RelayOk held ticket clock offset r' := by
  have hset : ∀ phase, r.phase.granted = true → phase ≠ .idle ∧ phase ≠ .redeeming →
      phase ≠ .ready →
      RelayOk held ticket clock offset { r with phase := phase, client := some r.deadline } := by
    intro phase hg hw hne
    refine h.arm hg hw (fun d hd => .inr (Option.some.inj hd).symm) (fun _ => .inl)
      (fun _ => rfl) ?_
    exact fun ha => h.ready (.inr (ha.resolve_left hne))
  unfold Relay.setClientDeadline at hr
  split at hr
  next hp =>
    cases hr
    exact hset _ (by rw [hp]; rfl) (by decide) (by decide)
  next hp =>
    cases hr
    exact hset _ (by rw [hp]; rfl) (by decide) (by decide)
  · cases hr

theorem RelayOk.setGuestDeadline (hr : r.setGuestDeadline clock = some r') :
    RelayOk held ticket clock offset r' := by
  unfold Relay.setGuestDeadline at hr
  split at hr
  next hp =>
    cases hr
    refine h.arm (by rw [hp]; rfl) (by decide) (fun _ => .inl)
      (fun d hd => .inr (Option.some.inj hd).symm) (fun _ => ?_) fun _ => rfl
    exact h.armed (.inl hp)
  next hp =>
    cases hr
    refine h.arm (by rw [hp]; rfl) (by decide) (fun _ => .inl)
      (fun d hd => .inr (Option.some.inj hd).symm) (fun ha => ?_) fun _ => rfl
    exact h.armed (.inr (.inr (by simpa using ha)))
  · cases hr

theorem RelayOk.renew (hr : r.renew clock = some r') : RelayOk held ticket clock offset r' := by
  unfold Relay.renew at hr
  split at hr
  next f hp hf =>
    split at hr
    · cases hr
      refine { h with rpc := fun c hc => ?_ }
      cases hc
      exact h.call (.inr ⟨f, hf, rfl⟩)
    · cases hr
  · cases hr

variable (hend : ∀ i started, held i → started + offset ≤ i.statementAt →
    started + i.grant.validFor + offset ≤ i.leaseUntil)
  (hmono : ∀ i j, held i → held j → i.statementAt ≤ j.statementAt → i.leaseUntil ≤ j.leaseUntil)

include hend in
theorem RelayOk.redeemed (hr : r.redeemed config clock = some r') :
    RelayOk held ticket clock offset r' := by
  unfold Relay.redeemed at hr
  split at hr
  next c hp hc =>
    split at hr
    · cases hr
      split
      · exact h.stop
      next i hi =>
        split
        · have hnone := h.waiting (.inr hp)
          obtain ⟨hheld, hlo, hhi⟩ := (h.rpc c hc).result i hi
          refine
            { same := h.same, waiting := fun hw => ?_, granted := fun _ => rfl
              latest := fun l hl => ?_
              first := fun _ => rfl, rpc := fun c' hc' => ?_, client := fun d hd => ?_
              guest := fun d hd => ?_
              armed := fun ha => h.armed (.inr (.inr (by simpa using ha)))
              ready := fun ha => h.ready (.inr (by simpa using ha)) }
          · simp at hw
          · cases hl
            exact ⟨hheld, hhi, hend i c.started hheld hlo, i, rfl, by simp [sameTunnel]⟩
          · cases hc'
          · obtain ⟨l, hl, -⟩ := h.client d hd
            rw [hnone] at hl
            cases hl
          · obtain ⟨l, hl, -⟩ := h.guest d hd
            rw [hnone] at hl
            cases hl
        · exact h.stop
    · cases hr
  · cases hr

include hend hmono in
theorem RelayOk.renewed (hr : r.renewed config clock = some r') :
    RelayOk held ticket clock offset r' := by
  unfold Relay.renewed at hr
  split at hr
  next c f hp hc hf =>
    split at hr
    · cases hr
      split
      · exact h.stop
      next i hi =>
        dsimp only
        split
        next hok =>
          simp only [Bool.and_eq_true] at hok
          have hrpc := h.rpc c hc
          obtain ⟨hheld, hlo, hhi⟩ := hrpc.result i hi
          have hold : ∀ d, (∃ l, r.latest = some l ∧ d + offset ≤ l.leaseUntil) →
              d + offset ≤ i.leaseUntil := by
            rintro d ⟨l, hl, hd⟩
            have hle := hmono l i (h.latest l hl).1 hheld ((hrpc.after l hl).trans hlo)
            exact hd.trans hle
          refine
            { same := h.same, waiting := fun hw => ?_, granted := fun _ => rfl
              latest := fun l hl => ?_
              first := fun _ => rfl, rpc := fun c' hc' => ?_
              client := fun d hd => ⟨i, rfl, hold d (h.client d hd)⟩
              guest := fun d hd => ⟨i, rfl, hold d (h.guest d hd)⟩
              armed := fun ha => h.armed (.inr (.inr (by simpa using ha)))
              ready := fun ha => h.ready (.inr (by simpa using ha)) }
          · simp at hw
          · cases hl
            exact ⟨hheld, hhi, hend i c.started hheld hlo, f, hf, hok.1.1.2⟩
          · cases hc'
        · exact h.stop
    · cases hr
  · cases hr

end Steps

end Relay

variable {sha256 : Sha256} {i : Issued}

section Grants

variable {s s' : GatewayStore} {issued : List (List UInt8)} {random : String} {now : ℕ}

/-- The grant is a lease that the database wrote for the ticket, in whole milliseconds. -/
def Held (sha256 : Sha256) (s : GatewayStore) (ticket : String) (i : Issued) :
    Prop :=
  ∃ g ∈ s.tickets, g.tokenDigest = sha256 ticket ∧ tunnelId g = some i.grant.tunnelId ∧
    ∃ l : Lease, l = ⟨i.statementAt, g.sessionDeadline, gatewayAuthorizationWindow⟩ ∧
      i.leaseUntil = l.expiry ∧ i.statementAt ≤ l.expiry ∧ i.grant.validFor = l.validFor 1000

theorem Held.carries (h : Held sha256 s ticket i) (hc : Carries s s') :
    Held sha256 s' ticket i := by
  obtain ⟨g, hg, hdigest, htunnel, l, hl⟩ := h
  obtain ⟨g', hg', hf⟩ := hc.tickets g hg
  exact ⟨g', hg', hf.digest.trans hdigest, hf.tunnel _ htunnel, l, by rw [hf.deadline]; exact hl⟩

theorem Held.end_le {started offset : ℕ} (h : Held sha256 s ticket i)
    (hstart : started + offset ≤ i.statementAt) :
    started + i.grant.validFor + offset ≤ i.leaseUntil := by
  obtain ⟨g, -, -, -, l, rfl, hend, hlive, hvalid⟩ := h
  rw [hend, hvalid]
  exact Lease.deadline_le hstart hlive

theorem Held.mono {j : Issued} (hs : Sound issued s) (hi : Held sha256 s ticket i)
    (hj : Held sha256 s ticket j) (hat : i.statementAt ≤ j.statementAt) :
    i.leaseUntil ≤ j.leaseUntil := by
  obtain ⟨g, hg, hdigest, -, l, rfl, hend, -⟩ := hi
  obtain ⟨k, hk, hdigest', -, l', rfl, hend', -⟩ := hj
  obtain rfl := hs.digests g hg k hk (hdigest.trans hdigest'.symm)
  rw [hend, hend']
  exact Lease.expiry_mono hat rfl rfl

theorem Held.window (h : Held sha256 s ticket i) :
    i.leaseUntil ≤ i.statementAt + gatewayAuthorizationWindow := by
  obtain ⟨g, -, -, -, l, rfl, hend, -⟩ := h
  rw [hend]
  exact Nat.min_le_right ..

theorem answer_ok {t : Tunnel} {g : NativeGatewayGrant} (h : answer config now t g = some i) :
    i.grant.tunnelId = g.tunnelId ∧ i.grant.validFor = g.validFor / 1000 * 1000 ∧
      i.statementAt = now ∧ i.leaseUntil = t.leaseUntil := by
  obtain ⟨g', hg', rfl⟩ := map_eq_some_iff.mp h
  obtain ⟨w, hw, hg'⟩ := bind_eq_some_iff.mp hg'
  unfold controlReply at hw
  unfold clientGrant at hg'
  split at hw
  · cases hw
    split at hg'
    · cases hg'
      exact ⟨rfl, rfl, rfl, rfl⟩
    · cases hg'
  · cases hw

theorem Leases.held {g : GatewayTicket} {t : Tunnel} {grant : NativeGatewayGrant}
    (h : Leases s now g t grant s') (hs : Sound issued s) (hdigest : g.tokenDigest = sha256 ticket)
    (hi : answer config now t grant = some i) : Held sha256 s' ticket i := by
  obtain ⟨htunnel, hvalid, hat, hend⟩ := answer_ok hi
  have hexpiry := h.expiry issued hs
  obtain rfl := h.store
  refine ⟨_, mem_putTunnel h.puts.mem, hdigest, ?_, _, rfl, ?_, ?_, ?_⟩
  · rw [htunnel, h.tunnel]
    rfl
  · rw [hend, hexpiry, hat]
  · rw [hat, ← hexpiry]
    exact h.live
  · rw [hvalid, h.validFor, hexpiry, hat]
    rfl

/-- A call that runs leases a ticket with access, and answers with the lease. -/
theorem execute_ok {call : Call} {result : Option Issued}
    (h : execute sha256 config s random now call = some (s', result)) :
    ∃ g t grant, Leases s now g t grant s' ∧ result = answer config now t grant ∧
      (∀ ticket, call = .redeem ticket → g.tokenDigest = sha256 ticket) ∧
      ∀ tunnel, call = .renew tunnel → tunnelId g = some tunnel := by
  cases call with
  | redeem ticket =>
    simp only [execute] at h
    split at h
    · obtain ⟨⟨x, t, grant⟩, hx, heq⟩ := map_eq_some_iff.mp h
      cases heq
      obtain ⟨g, hl, hdigest, -⟩ := redeem_ok (toOption_eq_some.mp hx)
      refine ⟨g, t, grant, hl, rfl, fun _ hc => ?_, fun _ hc => ?_⟩
      · cases hc
        exact hdigest
      · cases hc
    · cases h
  | renew tunnel =>
    simp only [execute] at h
    split at h
    · obtain ⟨⟨x, t, grant⟩, hx, heq⟩ := map_eq_some_iff.mp h
      cases heq
      obtain ⟨g, hl, htunnel, -⟩ := renew_ok (toOption_eq_some.mp hx)
      refine ⟨g, t, grant, hl, rfl, fun _ hc => ?_, fun _ hc => ?_⟩
      · cases hc
      · cases hc
        exact htunnel
    · cases h

end Grants

variable {w w' : World}

section World

/-- The tickets are sound, and the relay holds grants of its own ticket. -/
structure WorldOk (sha256 : Sha256) (offset : ℕ) (ticket : String) (w : World) :
    Prop where
  store : Sound w.issued w.store
  relay : RelayOk (Held sha256 w.store ticket) ticket w.clock offset w.relay

theorem WorldOk.init (hstore : w.store = initialStore) (hrelay : w.relay = .new ticket) :
    WorldOk sha256 offset ticket w := by
  constructor
  · rw [hstore]
    constructor <;> simp [initialStore]
  · rw [hrelay]
    exact .new

theorem WorldOk.database {op : GatewayOp} (h : WorldOk sha256 offset ticket w)
    (hstep : w.database sha256 offset op = some w') : WorldOk sha256 offset ticket w' := by
  unfold World.database at hstep
  split at hstep
  · cases hstep
  next hfresh =>
    obtain ⟨s, hs, rfl⟩ := map_eq_some_iff.mp hstep
    have hnew : ∀ n, op.login = some n → n.tokenDigest ∉ w.issued := by
      intro n hn hmem
      simp [hn, hmem] at hfresh
    obtain ⟨hsound, hcarries⟩ := sound_of_apply h.store hnew (toOption_eq_some.mp hs)
    exact ⟨hsound, h.relay.mono (fun i hi => hi.carries hcarries) le_rfl⟩

theorem WorldOk.digest (h : WorldOk sha256 offset ticket w) {c : Rpc} (hc : w.relay.rpc = some c)
    {g : GatewayTicket} (hg : g ∈ w.store.tickets)
    (hredeem : ∀ ticket, c.call = .redeem ticket → g.tokenDigest = sha256 ticket)
    (hrenew : ∀ tunnel, c.call = .renew tunnel → tunnelId g = some tunnel) :
    g.tokenDigest = sha256 ticket := by
  rcases (h.relay.rpc c hc).call with hcall | ⟨f, hf, hcall⟩
  · rw [h.relay.same] at hcall
    exact hredeem _ hcall
  · -- the tunnel of the first grant is that of every later one
    obtain ⟨l, hl⟩ := isSome_iff_exists.mp (h.relay.first (by rw [hf]; rfl))
    obtain ⟨⟨k, hk, hdigest, htunnel, -⟩, -, -, f', hf', hsame⟩ := h.relay.latest l hl
    cases hf.symm.trans hf'
    simp only [sameTunnel, Bool.and_eq_true, beq_iff_eq] at hsame
    rw [hsame.1.1.1.1] at htunnel
    exact (h.store.tunnels g hg k hk _ (hrenew _ hcall) htunnel).trans hdigest

theorem WorldOk.executeCall {random : String} (h : WorldOk sha256 offset ticket w)
    (hstep : w.executeCall sha256 config offset random = some w') :
    WorldOk sha256 offset ticket w' := by
  unfold World.executeCall at hstep
  split at hstep
  · cases hstep
  next c hc =>
    split at hstep
    · cases hstep
    · obtain ⟨⟨s, result⟩, hx, rfl⟩ := map_eq_some_iff.mp hstep
      obtain ⟨g, t, grant, hl, rfl, hredeem, hrenew⟩ := execute_ok hx
      have hdigest := h.digest hc hl.puts.mem hredeem hrenew
      obtain ⟨hsound, hcarries⟩ := hl.sound h.store
      have hrelay := h.relay.mono (fun i hi => hi.carries hcarries) le_rfl
      refine ⟨hsound, { hrelay with rpc := fun c' hc' => ?_ }⟩
      cases hc'
      have hrpc := hrelay.rpc c hc
      refine { hrpc with result := fun i hi => ?_ }
      have hat := (answer_ok hi).2.2.1
      refine ⟨Leases.held hl h.store hdigest hi, ?_, ?_⟩
      · rw [hat]
        exact Nat.add_le_add_right hrpc.started offset
      · rw [hat]
        rfl

theorem WorldOk.update {r : Option Relay} (h : WorldOk sha256 offset ticket w)
    (hr : ∀ r', r = some r' → RelayOk (Held sha256 w.store ticket) ticket w.clock offset r')
    (hstep : w.update r = some w') : WorldOk sha256 offset ticket w' := by
  obtain ⟨r', hr', rfl⟩ := map_eq_some_iff.mp hstep
  exact ⟨h.store, hr r' hr'⟩

theorem WorldOk.step {e : Event} (h : WorldOk sha256 offset ticket w)
    (hstep : w.step sha256 config offset e = some w') : WorldOk sha256 offset ticket w' := by
  cases e with
  | tick duration =>
    cases hstep
    exact ⟨h.store, h.relay.mono (fun _ => id) (Nat.le_add_right _ _)⟩
  | database op => exact h.database hstep
  | execute random => exact h.executeCall hstep
  | redeem => exact h.update (fun _ => h.relay.redeem) hstep
  | respond delivered => exact h.update (fun _ => h.relay.respond) hstep
  | redeemed => exact h.update (fun _ => h.relay.redeemed fun i started hi => hi.end_le) hstep
  | dialed => exact h.update (fun _ => h.relay.dialed) hstep
  | setClientDeadline => exact h.update (fun _ => h.relay.setClientDeadline) hstep
  | setGuestDeadline => exact h.update (fun _ => h.relay.setGuestDeadline) hstep
  | serving => exact h.update (fun _ => h.relay.serving) hstep
  | renew => exact h.update (fun _ => h.relay.renew) hstep
  | renewed =>
    refine h.update (fun _ => h.relay.renewed (fun i started hi => hi.end_le) ?_) hstep
    exact fun i j hi hj => Held.mono h.store hi hj
  | expire => exact h.update (fun _ => h.relay.expire) hstep
  | fail => exact h.update (fun _ => h.relay.fail) hstep
  | close => exact h.update (fun _ => h.relay.close) hstep
  | forward toGuest =>
    simp only [World.step] at hstep
    split at hstep
    · cases hstep
      exact h
    · cases hstep

theorem worldOk_of_reachable (hw : (gateway sha256 config offset).Reachable w) :
    WorldOk sha256 offset w.relay.ticket w := by
  have hok : ∃ ticket, WorldOk sha256 offset ticket w := by
    refine hw.invariant (P := fun w => ∃ ticket, WorldOk sha256 offset ticket w) ?_ ?_
    · rintro w ⟨hstore, -, ticket, hrelay⟩
      exact ⟨ticket, .init hstore hrelay⟩
    · rintro w e w' - ⟨ticket, h⟩ hstep
      exact ⟨ticket, h.step hstep⟩
  obtain ⟨ticket, h⟩ := hok
  rw [h.relay.same]
  exact h

theorem WorldOk.forward {toGuest : Bool} (h : WorldOk sha256 offset ticket w)
    (hf : w.relay.canForward w.clock toGuest = true) :
    ∃ l, w.relay.latest = some l ∧ w.databaseNow offset ≤ l.leaseUntil := by
  simp only [Relay.canForward, Bool.and_eq_true] at hf
  obtain ⟨hcopy, hf⟩ := hf
  -- both sockets have a deadline as soon as the workers run
  have hsocket : ∀ socket : Option ℕ, socket.isSome → socket.all (w.clock ≤ ·) = true →
      (∀ d, socket = some d → ∃ l, w.relay.latest = some l ∧ d + offset ≤ l.leaseUntil) →
      ∃ l, w.relay.latest = some l ∧ w.databaseNow offset ≤ l.leaseUntil := by
    intro socket hsome hle hlease
    obtain ⟨d, rfl⟩ := isSome_iff_exists.mp hsome
    obtain ⟨l, hl, hd⟩ := hlease d rfl
    simp only [all_some, decide_eq_true_eq] at hle
    exact ⟨l, hl, (Nat.add_le_add_right hle offset).trans hd⟩
  cases toGuest with
  | true => exact hsocket _ (h.relay.ready (.inr hcopy)) hf h.relay.guest
  | false => exact hsocket _ (h.relay.armed (.inr (.inr hcopy))) hf h.relay.client

end World

section Denial

def Relay.Knows (r : Relay) (i : Issued) : Prop :=
  r.latest = some i ∨ ∃ c, r.rpc = some c ∧ c.result = some i

def Denied (sha256 : Sha256) (offset : ℕ) (ticket : String) (w : World) : Prop :=
  ∀ g ∈ w.store.tickets, g.tokenDigest = sha256 ticket →
    w.store.ticketAccess (w.databaseNow offset) g = none

def Relay.Quiet (r r' : Relay) : Prop :=
  r'.latest = r.latest ∧ ∀ c, r'.rpc = some c → r.rpc = some c ∨ c.result = none

theorem Relay.Quiet.knows (hq : r.Quiet r') (h : r'.Knows i) : r.Knows i := by
  rcases h with h | ⟨c, hc, hi⟩
  · exact .inl (hq.1 ▸ h)
  · rcases hq.2 c hc with hold | hnone
    · exact .inr ⟨c, hold, hi⟩
    · rw [hnone] at hi
      cases hi

theorem quiet_stop (r : Relay) : r.Quiet r.stop := ⟨rfl, fun _ hc => by cases hc⟩

theorem quiet_redeem (hr : r.redeem clock = some r') : r.Quiet r' := by
  unfold Relay.redeem at hr
  split at hr
  · cases hr
    exact ⟨rfl, fun c hc => .inr (Option.some.inj hc ▸ rfl)⟩
  · cases hr

theorem quiet_renew (hr : r.renew clock = some r') : r.Quiet r' := by
  unfold Relay.renew at hr
  split at hr
  · split at hr
    · cases hr
      exact ⟨rfl, fun c hc => .inr (Option.some.inj hc ▸ rfl)⟩
    · cases hr
  · cases hr

theorem quiet_expire (hr : r.expire clock = some r') : r.Quiet r' := by
  unfold Relay.expire at hr
  split at hr
  · cases hr
    exact quiet_stop r
  · cases hr

theorem quiet_fail (hr : r.fail = some r') : r.Quiet r' := by
  unfold Relay.fail at hr
  split at hr
  · cases hr
  · cases hr
    exact quiet_stop r

theorem quiet_dialed (hr : r.dialed clock = some r') : r.Quiet r' := by
  unfold Relay.dialed at hr
  split at hr
  all_goals cases hr
  all_goals exact ⟨rfl, fun _ => .inl⟩

theorem quiet_setClientDeadline (hr : r.setClientDeadline = some r') : r.Quiet r' := by
  unfold Relay.setClientDeadline at hr
  split at hr
  all_goals cases hr
  all_goals exact ⟨rfl, fun _ => .inl⟩

theorem quiet_setGuestDeadline (hr : r.setGuestDeadline clock = some r') : r.Quiet r' := by
  unfold Relay.setGuestDeadline at hr
  split at hr
  all_goals cases hr
  all_goals exact ⟨rfl, fun _ => .inl⟩

theorem quiet_serving (hr : r.serving config clock = some r') : r.Quiet r' := by
  unfold Relay.serving at hr
  split at hr
  all_goals cases hr
  all_goals exact ⟨rfl, fun _ => .inl⟩

theorem quiet_close (hr : r.close = some r') : r.Quiet r' := by
  unfold Relay.close at hr
  split at hr
  all_goals cases hr
  all_goals exact ⟨rfl, fun _ => .inl⟩

theorem knows_respond {delivered : Bool} (hr : r.respond clock delivered = some r')
    (h : r'.Knows i) : r.Knows i := by
  unfold Relay.respond at hr
  split at hr
  · cases hr
  next c hc =>
    split at hr
    · cases hr
    · cases hr
      rcases h with h | ⟨c', hc', hi⟩
      · exact .inl h
      · cases hc'
        split at hi
        · exact .inr ⟨c, hc, hi⟩
        · cases hi

theorem knows_redeemed (hr : r.redeemed config clock = some r') (h : r'.Knows i) : r.Knows i := by
  unfold Relay.redeemed at hr
  split at hr
  next c hp hc =>
    split at hr
    · cases hr
      split at h
      · exact (quiet_stop r).knows h
      next j hj =>
        split at h
        · rcases h with h | ⟨c', hc', -⟩
          · cases h
            exact .inr ⟨c, hc, hj⟩
          · cases hc'
        · exact (quiet_stop r).knows h
    · cases hr
  · cases hr

theorem knows_renewed (hr : r.renewed config clock = some r') (h : r'.Knows i) : r.Knows i := by
  unfold Relay.renewed at hr
  split at hr
  next c f hp hc hf =>
    split at hr
    · cases hr
      split at h
      · exact (quiet_stop r).knows h
      next j hj =>
        dsimp only at h
        split at h
        · rcases h with h | ⟨c', hc', -⟩
          · cases h
            exact .inr ⟨c, hc, hj⟩
          · cases hc'
        · exact (quiet_stop r).knows h
    · cases hr
  · cases hr

theorem knows_of_step {e : Event} (he : ∀ random, e ≠ .execute random)
    (hstep : w.step sha256 config offset e = some w') (h : w'.relay.Knows i) : w.relay.Knows i := by
  have hupdate : ∀ r, w.update r = some w' → (∀ r', r = some r' → r'.Knows i → w.relay.Knows i) →
      w.relay.Knows i := by
    intro r hr hknow
    obtain ⟨r', hr', rfl⟩ := map_eq_some_iff.mp hr
    exact hknow r' hr' h
  cases e with
  | tick duration =>
    cases hstep
    exact h
  | database op =>
    simp only [World.step, World.database] at hstep
    split at hstep
    · cases hstep
    · obtain ⟨s, -, rfl⟩ := map_eq_some_iff.mp hstep
      exact h
  | execute random => exact absurd rfl (he random)
  | redeem => exact hupdate _ hstep fun _ hr => (quiet_redeem hr).knows
  | respond delivered => exact hupdate _ hstep fun _ => knows_respond
  | redeemed => exact hupdate _ hstep fun _ => knows_redeemed
  | dialed => exact hupdate _ hstep fun _ hr => (quiet_dialed hr).knows
  | setClientDeadline => exact hupdate _ hstep fun _ hr => (quiet_setClientDeadline hr).knows
  | setGuestDeadline => exact hupdate _ hstep fun _ hr => (quiet_setGuestDeadline hr).knows
  | serving => exact hupdate _ hstep fun _ hr => (quiet_serving hr).knows
  | renew => exact hupdate _ hstep fun _ hr => (quiet_renew hr).knows
  | renewed => exact hupdate _ hstep fun _ => knows_renewed
  | expire => exact hupdate _ hstep fun _ hr => (quiet_expire hr).knows
  | fail => exact hupdate _ hstep fun _ hr => (quiet_fail hr).knows
  | close => exact hupdate _ hstep fun _ hr => (quiet_close hr).knows
  | forward toGuest =>
    simp only [World.step] at hstep
    split at hstep
    · cases hstep
      exact h
    · cases hstep

theorem not_execute_of_denied {random : String} (h : WorldOk sha256 offset ticket w)
    (hd : Denied sha256 offset ticket w) :
    w.step sha256 config offset (.execute random) = none := by
  by_contra hne
  obtain ⟨w', hw'⟩ := ne_none_iff_exists'.mp hne
  simp only [World.step, World.executeCall] at hw'
  split at hw'
  · cases hw'
  next c hc =>
    split at hw'
    · cases hw'
    · obtain ⟨⟨s, result⟩, hx, -⟩ := map_eq_some_iff.mp hw'
      obtain ⟨g, t, grant, hl, -, hredeem, hrenew⟩ := execute_ok hx
      have hdigest := h.digest hc hl.puts.mem hredeem hrenew
      have haccess := hl.access
      rw [hd g hl.puts.mem hdigest] at haccess
      cases haccess

theorem forward_le_of_denied {run : List Event} {toGuest : Bool}
    (hw : (gateway sha256 config offset).Reachable w)
    (hdenied : (gateway sha256 config offset).Along (Denied sha256 offset w.relay.ticket) w run)
    (hrun : (gateway sha256 config offset).run w run = some w')
    (hf : w'.relay.canForward w'.clock toGuest = true) :
    w'.databaseNow offset ≤ w.databaseNow offset + gatewayAuthorizationWindow := by
  have hok := worldOk_of_reachable hw
  obtain ⟨hok', hknown⟩ : WorldOk sha256 offset w.relay.ticket w' ∧
      ∀ i, w'.relay.Knows i → i.statementAt ≤ w.databaseNow offset := by
    refine hdenied.preserves (P := fun u => WorldOk sha256 offset w.relay.ticket u ∧
      ∀ i, u.relay.Knows i → i.statementAt ≤ w.databaseNow offset) ?_ hrun ⟨hok, fun i hi => ?_⟩
    · rintro u e u' hd ⟨hu, hknown⟩ hstep
      refine ⟨hu.step hstep, fun i hi => hknown i (knows_of_step ?_ hstep hi)⟩
      rintro random rfl
      rw [show (gateway sha256 config offset).step u (.execute random) = none from
        not_execute_of_denied hu hd] at hstep
      cases hstep
    · rcases hi with hi | ⟨c, hc, hi⟩
      · exact (hok.relay.latest i hi).2.1
      · exact ((hok.relay.rpc c hc).result i hi).2.2
  obtain ⟨l, hl, hle⟩ := hok'.forward hf
  have hat := hknown l (.inl hl)
  have hwindow := (hok'.relay.latest l hl).1.window
  omega

/-- The gateway cut-off: bytes are forwarded only up to the end of the grant accepted last, and a
ticket without access is silent after the authorization window. -/
theorem gateway_cutoff (hw : (gateway sha256 config offset).Reachable w) :
    (∀ toGuest w', (gateway sha256 config offset).step w (.forward toGuest) = some w' →
      ∃ l, w.relay.latest = some l ∧ w.databaseNow offset ≤ l.leaseUntil) ∧
    (∀ l, w.relay.latest = some l → w.relay.deadline + offset ≤ l.leaseUntil ∧
      ∃ f, w.relay.first = some f ∧ l.grant.tunnelId = f.grant.tunnelId ∧
        l.grant.connectionId = f.grant.connectionId ∧ l.grant.target = f.grant.target ∧
        l.grant.certificateSha256 = f.grant.certificateSha256 ∧
        l.grant.policyRevision = f.grant.policyRevision) ∧
    (∀ run w' toGuest w'',
      (gateway sha256 config offset).Along (Denied sha256 offset w.relay.ticket) w run →
      (gateway sha256 config offset).run w run = some w' →
      (gateway sha256 config offset).step w' (.forward toGuest) = some w'' →
      w'.databaseNow offset ≤ w.databaseNow offset + gatewayAuthorizationWindow) := by
  have hforward : ∀ {v v' : World} {toGuest : Bool},
      (gateway sha256 config offset).step v (.forward toGuest) = some v' →
      v.relay.canForward v.clock toGuest = true := by
    intro v v' toGuest hstep
    by_contra hne
    simp [gateway, World.step, hne] at hstep
  have hok := worldOk_of_reachable hw
  refine ⟨fun toGuest w' hstep => hok.forward (hforward hstep), fun l hl => ?_, ?_⟩
  · obtain ⟨-, -, hdeadline, f, hf, hsame⟩ := hok.relay.latest l hl
    simp only [sameTunnel, Bool.and_eq_true, beq_iff_eq] at hsame
    obtain ⟨⟨⟨⟨htunnel, hconn⟩, htarget⟩, hpolicy⟩, hcert⟩ := hsame
    exact ⟨hdeadline, f, hf, htunnel, hconn, htarget, hcert, hpolicy⟩
  · intro run w' toGuest w'' hdenied hrun hstep
    exact forward_le_of_denied hw hdenied hrun (hforward hstep)

end Denial

section Sample

def sampleConfig : Config := ⟨"gw_00000000", "gw_00000000", [⟨10, 0, 0, 0, 8⟩], true⟩

def sampleTunnel : List Event :=
  [.redeem, .tick 1000, .execute sampleTunnelSecret, .tick 1000, .respond true, .redeemed,
    .dialed, .setClientDeadline, .setGuestDeadline, .serving, .tick 2600000, .renew, .tick 1000,
    .execute "", .respond true, .renewed, .setClientDeadline, .setGuestDeadline, .tick 3000000]

/-- Bytes go through the tunnel after the first lease is over, before the end of the second. -/
theorem gateway_cutoff_renewed :
    ∃ w l, (gateway sampleDigest sampleConfig 7).Reachable w ∧ 5000000 < w.clock ∧
      w.relay.canForward w.clock true = true ∧ w.relay.latest = some l ∧
      w.databaseNow 7 ≤ l.leaseUntil := by
  obtain ⟨w, hw, hclock, hf⟩ : ∃ w, (gateway sampleDigest sampleConfig 7).Reachable w ∧
      5000000 < w.clock ∧ w.relay.canForward w.clock true = true :=
    Machine.exists_reachable_of_run ⟨0, initialStore, [], .new ("gwt_" ++ sampleSecret)⟩
      (sampleTicketed.map .database ++ sampleTunnel) ⟨rfl, rfl, _, rfl⟩ (by decide +kernel)
  have hstep : (gateway sampleDigest sampleConfig 7).step w (.forward true) = some w := by
    simp [gateway, World.step, hf]
  obtain ⟨l, hl, hle⟩ := (gateway_cutoff hw).1 true w hstep
  exact ⟨w, l, hw, hclock, hf, hl, hle⟩

end Sample

end VcWorkspace.Gateway
