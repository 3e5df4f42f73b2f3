import VcWorkspace.Store.Footprint
import VcWorkspace.Store.GatewayLedger

/-! # The end of native sessions

A logout, a new password and a disabled user end native sessions. Whatever asks
for a native session finds it by its token, and a token is never used twice. So
nothing that comes later relies on a session that has ended, and the
connections it opened stay revoked.
-/

namespace VcWorkspace.Store.SessionCutoff

open Transition Footprint GatewayLedger AccessState List Option

section Model

structure World where
  store : GatewayStore
  /-- The tokens of all native sessions so far. -/
  issued : List (List UInt8)

structure Event where
  op : GatewayOp
  now : ℕ

variable (sha256 : Sha256)

/-- A transaction commits. A login gets a token that was never used before. -/
def World.step (w : World) (e : Event) : Option World :=
  if e.op.login.any fun n => w.issued.contains n.tokenDigest then none
  else
    (e.op.apply sha256 e.now w.store).toOption.map fun s =>
      ⟨s, (e.op.login.map (·.tokenDigest)).toList ++ w.issued⟩

def sessionStore : Machine World Event where
  Init w := w.store.access = ⟨⟨[], [], [], [], [], [], [], [], []⟩, ⟨[], [], [], [], [], []⟩⟩ ∧
    w.store.tickets = [] ∧ w.issued = []
  step := World.step sha256

/-- The operation acts on the strength of a native session: its own, the one that began the issue,
or the one that opened the connection of the ticket. -/
inductive Relies (s : GatewayStore) (digest : List UInt8) : GatewayOp → Prop
  | bind {env : NativeEnv} {a : NativeGuestAccount} {now : ℕ} :
    Relies s digest (.access (.bindNativeGuestAccount env a digest now))
  | begin {env : NativeEnv} {a : NativeGuestAccount} {connectionId : String} {expiresAt now : ℕ} :
    Relies s digest (.access (.beginNativeGuestCredential env a connectionId expiresAt digest now))
  | complete {env : NativeEnv} {a : NativeGuestAccount} {row : NativeGuestRow} {now : ℕ}
      (hop : a.operation = .issue) (hrow : s.access.account a = some row)
      (hd : row.nativeSessionDigest = some digest) :
    Relies s digest (.access (.completeNativeGuestAccountOperation env a now))
  | insert {session : DesktopConnectionSession} {now : ℕ} :
    Relies s digest (.access (.createNativeDesktopConnectionSession session digest now))
  | mint {request : NativeGatewayTicketRequest} {secret : String} {c : DesktopConnectionSession}
      (hc : s.access.grants.connection request.connectionId = some c)
      (hd : c.nativeSessionDigest = some digest ∨ request.nativeDigest = digest) :
    Relies s digest (.createNativeGatewayTicket request secret)
  | redeem {gatewayId token random : String} {g : GatewayTicket} {c : DesktopConnectionSession}
      (hg : g ∈ s.tickets) (ht : g.tokenDigest = sha256 token)
      (hc : s.access.grants.connection g.connectionId = some c)
      (hd : c.nativeSessionDigest = some digest) :
    Relies s digest (.redeemNativeGatewayTicket gatewayId token random)
  | renew {gatewayId tunnel : String} {g : GatewayTicket} {c : DesktopConnectionSession}
      (hg : g ∈ s.tickets) (ht : tunnelId g = some tunnel)
      (hc : s.access.grants.connection g.connectionId = some c)
      (hd : c.nativeSessionDigest = some digest) :
    Relies s digest (.renewNativeGatewayGrant gatewayId tunnel)

end Model

variable {sha256 : Sha256} {s s' : GatewayStore} {now : ℕ}

section Reliance

variable {issued : List (List UInt8)} {digest : List UInt8} {c : DesktopConnectionSession}

def Live (s : GatewayStore) (digest : List UInt8) : Prop :=
  ∃ n ∈ s.access.grants.nativeSessions, n.tokenDigest = digest

theorem live_of_admitted {a : NativeGuestAccount}
    (h : s.access.subjectAdmitted a (some digest) now = true) : Live s digest := by
  obtain ⟨⟨d, hd, hlive⟩, -⟩ := subjectAdmitted_ok h
  cases hd
  obtain ⟨n, hn, heq, -⟩ := mem_of_sessionLive hlive
  exact ⟨n, hn, heq⟩

theorem live_of_access {id : String} {a : GatewayAccess}
    (hc : s.access.grants.connection id = some c) (h : s.gatewayAccess now id = some a) :
    Live s a.nativeSessionDigest ∧ c.nativeSessionDigest = some a.nativeSessionDigest := by
  rw [GatewayStore.gatewayAccess, hc, bind_some] at h
  obtain ⟨-, -, n, hn, hdigest, -, -, ha, -⟩ := connectionAccess_ok h
  exact ⟨⟨n, hn, ha.symm⟩, ha ▸ hdigest⟩

theorem live_of_leases {g h : GatewayTicket} {t : Tunnel} {grant : NativeGatewayGrant}
    (hl : Leases s now h t grant s') (heq : h = g)
    (hc : s.access.grants.connection g.connectionId = some c)
    (hd : c.nativeSessionDigest = some digest) : Live s digest := by
  subst heq
  obtain ⟨a, ha⟩ := isSome_iff_exists.mp hl.access
  obtain ⟨hlive, hdigest⟩ := live_of_access hc (ticketAccess_ok ha).1
  exact some.inj (hdigest.symm.trans hd) ▸ hlive

theorem live_of_relies {op : GatewayOp} (hs : Sound issued s)
    (h : op.apply sha256 now s = .ok s') (hr : Relies sha256 s digest op) : Live s digest := by
  cases hr with
  | bind =>
    obtain ⟨x, hx, -⟩ := bind_eq_ok.mp h
    exact live_of_admitted (admitted_of_bind hx)
  | begin =>
    obtain ⟨x, hx, -⟩ := bind_eq_ok.mp h
    exact live_of_admitted (admitted_of_begin hx)
  | complete hop hrow hd =>
    obtain ⟨x, hx, -⟩ := bind_eq_ok.mp h
    obtain ⟨row', hrow', -, hadmitted⟩ := admitted_of_complete hop hx
    cases hrow.symm.trans hrow'
    rw [hd] at hadmitted
    exact live_of_admitted hadmitted
  | insert =>
    obtain ⟨x, hx, -⟩ := bind_eq_ok.mp h
    obtain ⟨n, hn, heq, -⟩ :=
      mem_of_sessionLive (live_of_createNative hx).2.1
    exact ⟨n, hn, heq⟩
  | mint hc hd =>
    simp only [GatewayOp.apply, GatewayStore.createNativeGatewayTicket, seq_eq_ok] at h
    replace h := h.2
    split at h
    · cases h
    next a ha =>
      simp only [seq_eq_ok, ensure_eq_ok, Bool.and_eq_true, beq_iff_eq] at h
      obtain ⟨hlive, hdigest⟩ := live_of_access hc ha
      -- the request presents the session of the connection
      rcases hd with hd | rfl
      · exact some.inj (hdigest.symm.trans hd) ▸ hlive
      · exact h.1.1 ▸ hlive
  | redeem hg ht hc hd =>
    obtain ⟨⟨x, t, grant⟩, hx, -⟩ := bind_eq_ok.mp h
    obtain ⟨k, hl, hk, -⟩ := redeem_ok hx
    exact live_of_leases hl (hs.digests k hl.puts.mem _ hg (hk.trans ht.symm)) hc hd
  | renew hg ht hc hd =>
    obtain ⟨⟨x, t, grant⟩, hx, -⟩ := bind_eq_ok.mp h
    obtain ⟨k, hl, hk, -⟩ := renew_ok hx
    have hdigest := hs.tunnels k hl.puts.mem _ hg _ hk ht
    exact live_of_leases hl (hs.digests k hl.puts.mem _ hg hdigest) hc hd

end Reliance

variable {w w' v : World}

section Runs

variable {e : Event}

def Backed (s : GatewayStore) : Prop :=
  ∀ c ∈ s.access.grants.connections, c.state = .active → ∀ d, c.nativeSessionDigest = some d →
    ∃ n ∈ s.access.grants.nativeSessions, n.tokenDigest = d ∧ n.userId = c.userId

def Gone (digest : List UInt8) (w : World) : Prop :=
  digest ∈ w.issued ∧ ¬ Live w.store digest

theorem step_ok (h : (sessionStore sha256).step w e = some w') :
    e.op.apply sha256 e.now w.store = .ok w'.store ∧
      w'.issued = (e.op.login.map (·.tokenDigest)).toList ++ w.issued ∧
      ∀ n, e.op.login = some n → n.tokenDigest ∉ w.issued := by
  simp only [sessionStore, World.step] at h
  split at h
  · cases h
  next hnew =>
    obtain ⟨s, hs, rfl⟩ := map_eq_some_iff.mp h
    refine ⟨toOption_eq_some.mp hs, rfl, fun n hn hmem => hnew ?_⟩
    rw [hn]
    simpa using hmem

theorem Backed.moves (h : Backed s)
    (hc : ∀ c' ∈ s'.access.grants.connections, ∃ c ∈ s.access.grants.connections, Moves c c')
    (hn : ∀ c' ∈ s'.access.grants.connections, c'.state = .active →
      ∀ n ∈ s.access.grants.nativeSessions, n.userId = c'.userId →
        n ∈ s'.access.grants.nativeSessions) :
    Backed s' := by
  intro c' hc' hact d hd
  obtain ⟨c, hmem, hm⟩ := hc c' hc'
  obtain ⟨n, hn', heq, huser⟩ := h c hmem (hm.active hact) d (hm.digest ▸ hd)
  have huser : n.userId = c'.userId := huser.trans hm.user.symm
  exact ⟨n, hn c' hc' hact n hn' huser, heq, huser⟩

theorem Backed.change {op : AccessOp} (hkeys : UniqueTokens s.access.grants) (h : Backed s)
    (hc : Change s.access s'.access op) : Backed s' := by
  cases hc with
  | frame hf | acknowledges _ hf =>
    exact h.moves hf.connections fun _ _ _ n hn _ => hf.sessions ▸ hn
  | login _ hg =>
    refine h.moves (fun c hc => ⟨c, ?_, .refl c⟩) fun _ _ _ n hn _ => ?_
    · rw [hg] at hc
      exact hc
    · rw [hg]
      exact mem_append_left _ hn
  | cut hcut hcutoff =>
    refine h.moves hcutoff.connections fun c hc hact n hn huser => ?_
    cases hend : ends op n with
    | true =>
      have howner := hcutoff.owner hkeys n hn hend
      exact absurd hact (hcutoff.inactive c hc (huser.symm.trans howner))
    | false =>
      rw [hcutoff.sessions]
      exact mem_filter.mpr ⟨hn, by simp [hend]⟩
  | opens ho =>
    obtain ⟨c, hconn, hlive⟩ := ho.connections
    intro c' hc' hact d hd
    rw [ho.sessions]
    rw [hconn] at hc'
    rcases mem_append.mp hc' with hold | hnew
    · exact h c' hold hact d hd
    · obtain rfl := mem_singleton.mp hnew
      exact hlive d hd

theorem sound_of_reachable (hw : (sessionStore sha256).Reachable w) :
    Sound w.issued w.store ∧ Backed w.store := by
  refine hw.invariant (P := fun w => Sound w.issued w.store ∧ Backed w.store) ?_ ?_
  · rintro w ⟨haccess, htickets, hissued⟩
    refine ⟨?_, ?_⟩
    · constructor <;> simp [haccess, htickets]
    · intro c hc
      rw [haccess] at hc
      cases hc
  · rintro w e w' - ⟨hs, hb⟩ hstep
    obtain ⟨happly, hissued, hfresh⟩ := step_ok hstep
    refine ⟨hissued ▸ (sound_of_apply hs hfresh happly).1, ?_⟩
    rcases access_of_apply happly with hsame | ⟨o, -, ho⟩
    · unfold Backed
      rw [hsame]
      exact hb
    · exact .change hs.sessionKeys hb (applies_of_apply sha256 ho).change

theorem Gone.step {digest : List UInt8} (h : Gone digest w)
    (hstep : (sessionStore sha256).step w e = some w') : Gone digest w' := by
  obtain ⟨happly, hissued, hfresh⟩ := step_ok hstep
  refine ⟨hissued ▸ mem_append_right _ h.1, ?_⟩
  rintro ⟨n, hn, rfl⟩
  rcases access_of_apply happly with hsame | ⟨o, hop, ho⟩
  · exact h.2 ⟨n, hsame ▸ hn, rfl⟩
  · rcases (applies_of_apply sha256 ho).change.follows.sessions n hn with hold | hlogin
    · exact h.2 ⟨n, hold, rfl⟩
    · exact hfresh n (hop ▸ hlogin) h.1

theorem Gone.leads {digest : List UInt8} (h : Gone digest w)
    (hl : (sessionStore sha256).Leads w v) : Gone digest v :=
  hl.preserves (fun _ _ _ hg hstep => hg.step hstep) h

end Runs

section Cut

variable {op : AccessOp} {user : String}

/-- The native-session cut-off: once a logout, a new password or the disabling of a user has
committed, nothing relies on a session that it ended; the user's connections are being terminated
and the accounts revoked, apart from those that are settled already. -/
theorem native_session_cutoff (hw : (sessionStore sha256).Reachable w)
    (hcut : Cuts w.store.access.grants op user)
    (hstep : (sessionStore sha256).step w ⟨.access op, now⟩ = some w') :
    (∀ n ∈ w.store.access.grants.nativeSessions, ends op n = true →
      ∀ v, (sessionStore sha256).Leads w' v →
        (∀ e v', (sessionStore sha256).step v e = some v' →
          ¬ Relies sha256 v.store n.tokenDigest e.op) ∧
        ∀ c ∈ v.store.access.grants.connections, c.nativeSessionDigest = some n.tokenDigest →
          c.state ≠ .active) ∧
    (∀ c ∈ w.store.access.grants.connections, c.userId = user → c.state = .active →
      c.terminate ∈ w'.store.access.grants.connections) ∧
    (∀ b ∈ w.store.access.grants.bindings, b.userId = user →
      (op = .setUserDisabled user true → b.state ≠ .disabled ∨
        w.store.access.grants.accountRevocationPending b = true) →
      w'.store.access.grants.accountRevocationPending b = true) := by
  obtain ⟨hs, -⟩ := sound_of_reachable hw
  obtain ⟨happly, hissued, -⟩ := step_ok hstep
  obtain ⟨x, hx, hstore⟩ := bind_eq_ok.mp happly
  obtain rfl : x = w'.store.access := by rw [← Except.ok.inj hstore]
  have hcutoff := cutoff_of_cuts sha256 hs.sessionKeys hcut hx
  refine ⟨fun n hn hend v hv => ?_, hcutoff.terminated, fun b hb hu hst =>
    pending_of_cuts sha256 hs.sessionKeys hcut hx hb hu hst⟩
  have hended : Gone n.tokenDigest w' := by
    refine ⟨hissued ▸ mem_append_right _ (hs.sessions n hn), ?_⟩
    rintro ⟨m, hm, heq⟩
    obtain ⟨hm, hkept⟩ := mem_filter.mp (hcutoff.sessions ▸ hm)
    rw [hs.sessionKeys m hm n hn heq, hend] at hkept
    cases hkept
  have hgone := hended.leads hv
  obtain ⟨hvs, hbacked⟩ := sound_of_reachable ((hw.step hstep).leads hv)
  refine ⟨fun e v' hstep' hrelies => ?_, fun c hc hd hact => ?_⟩
  · exact hgone.2 (live_of_relies hvs (step_ok hstep').1 hrelies)
  · obtain ⟨m, hm, heq, -⟩ := hbacked c hc hact _ hd
    exact hgone.2 ⟨m, hm, heq⟩

end Cut

section Sample

def sampleEvents (ops : List AccessOp) : List Event := ops.map fun op => ⟨.access op, 0⟩

def sampleWorld : World :=
  ⟨⟨⟨⟨[], [], [], [], [], [], [], [], []⟩, ⟨[], [], [], [], [], []⟩⟩, [], [], []⟩, []⟩

/-- The user connects and logs out: the connection is being terminated and is never active
again. -/
theorem native_session_cutoff_logout : ∃ w w', (sessionStore sampleDigest).Reachable w ∧
      (sessionStore sampleDigest).step w
        ⟨.access (.revokeNativeSession sampleSession.tokenDigest), 0⟩ = some w' ∧
      sampleConnection.terminate ∈ w'.store.access.grants.connections ∧
      ∀ v, (sessionStore sampleDigest).Leads w' v → ∀ c ∈ v.store.access.grants.connections,
        c.nativeSessionDigest = some sampleSession.tokenDigest → c.state ≠ .active := by
  obtain ⟨w, hw, hn, hc, hstep⟩ : ∃ w, (sessionStore sampleDigest).Reachable w ∧
      sampleSession ∈ w.store.access.grants.nativeSessions ∧
      sampleConnection ∈ w.store.access.grants.connections ∧
      ((sessionStore sampleDigest).step w
        ⟨.access (.revokeNativeSession sampleSession.tokenDigest), 0⟩).isSome = true :=
    Machine.exists_reachable_of_run sampleWorld
      (sampleEvents (sampleBound ++ [sampleLogin,
        .createNativeDesktopConnectionSession sampleConnection
        sampleSession.tokenDigest 0])) ⟨rfl, rfl, rfl⟩ (by decide +kernel)
  obtain ⟨w', hw'⟩ := isSome_iff_exists.mp hstep
  obtain ⟨hgone, hterminated, -⟩ := native_session_cutoff hw (.revokeNativeSession hn) hw'
  exact ⟨w, w', hw, hw', hterminated _ hc rfl rfl, fun v hv => (hgone _ hn (by decide) v hv).2⟩

/-- A user who has logged out, and whose Guest account is locked since, is disabled: no revocation
is requested. -/
theorem settled_binding_not_requested : ∃ w w' b, (sessionStore sampleDigest).Reachable w ∧
      (sessionStore sampleDigest).step w ⟨.access (.setUserDisabled "user" true), 0⟩ = some w' ∧
      b ∈ w.store.access.grants.bindings ∧ b.userId = "user" ∧
      w'.store.access.grants.accountRevocationPending b = false := by
  obtain ⟨w, hw, hb, hstep⟩ : ∃ w, (sessionStore sampleDigest).Reachable w ∧
      sampleBinding .disabled ∈ w.store.access.grants.bindings ∧
      ((sessionStore sampleDigest).step w ⟨.access (.setUserDisabled "user" true), 0⟩).any
        (fun w' => !w'.store.access.grants.accountRevocationPending
          (sampleBinding .disabled)) = true :=
    Machine.exists_reachable_of_run sampleWorld
      (sampleEvents (sampleBound ++ [sampleLogin, .revokeNativeSession sampleSession.tokenDigest,
        .completeGuestIdentityRevocation 100 "user" "vcw000000000000" 1 0])) ⟨rfl, rfl, rfl⟩
      (by decide +kernel)
  obtain ⟨w', hw', hno⟩ := (any_eq_true _ _).mp hstep
  exact ⟨w, w', _, hw, hw', hb, rfl, by simpa using hno⟩

end Sample

end VcWorkspace.Store.SessionCutoff
