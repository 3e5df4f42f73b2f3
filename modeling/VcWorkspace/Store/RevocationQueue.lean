import VcWorkspace.Store.SessionCutoff

/-! # The queue of Guest identity revocations

Access changes, logouts and expiry scans request the revocation of Guest
accounts. A worker reads the pending requests of a desktop, cleans the Guest for
one after the other, and acknowledges the revision it has read. Workers are not
assumed to exclude each other, and each of them may fail at any point.
-/

namespace VcWorkspace.Store.RevocationQueue

open Transition Footprint SessionCutoff GatewayLedger AccessState List

section Model

structure Item where
  desktopVmid : ℕ
  userId : String
  guestUsername : String
  revision : ℕ
  reason : RevocationReason
  deriving DecidableEq, Repr

namespace Item

variable (item : Item)

def account : ℕ × String × String := (item.desktopVmid, item.userId, item.guestUsername)

def acknowledgement (now : ℕ) : SessionCutoff.Event :=
  ⟨.access (.completeGuestIdentityRevocation item.desktopVmid item.userId item.guestUsername
    item.revision now), now⟩

end Item

/-- The event `guest_identity.revoked`, which does not name the Guest account. -/
structure AuditEvent where
  vmid : ℕ
  userId : String
  reason : RevocationReason
  revision : ℕ
  deriving DecidableEq, Repr

def Item.audit (item : Item) : AuditEvent :=
  ⟨item.desktopVmid, item.userId, item.reason, item.revision⟩

def pendingGuestIdentityRevocations (g : Grants) (vmid : ℕ) : List Item :=
  (g.revocations.filter fun r => r.queue.pending && (vmid == 0 || r.desktopVmid == vmid)).map
    fun r => ⟨r.desktopVmid, r.userId, r.guestUsername, r.queue.requested, r.reason⟩

/-- Where a worker is in its loop over the revocations of a desktop. -/
inductive Worker
  | idle
  /-- The expired accounts of the desktop are queued. -/
  | scanned (vmid : ℕ)
  /-- The Guest is being cleaned for the first item. -/
  | cleaning (item : Item) (rest : List Item)
  | cleaned (item : Item) (rest : List Item)
  deriving DecidableEq, Repr

def Worker.next : List Item → Worker
  | [] => .idle
  | item :: rest => .cleaning item rest

inductive Entry
  | read (worker : ℕ) (item : Item)
  | cleaned (worker : ℕ) (item : Item)
  | completed (worker : ℕ) (item : Item)
  deriving DecidableEq, Repr

def completions (journal : List Entry) : List Item :=
  journal.filterMap fun
    | .completed _ item => some item
    | _ => none

structure World where
  core : SessionCutoff.World
  audit : List AuditEvent
  workers : ℕ → Worker
  journal : List Entry

inductive Event
  /-- Any transaction that is not an acknowledgement. -/
  | transaction (e : SessionCutoff.Event)
  | scan (worker vmid now : ℕ)
  | read (worker : ℕ) (items : List Item)
  | clean (worker : ℕ)
  | fail (worker : ℕ)
  | complete (worker now : ℕ)

def acknowledges : GatewayOp → Bool
  | .access (.completeGuestIdentityRevocation ..) => true
  | _ => false

namespace World

variable (sha256 : Sha256) (w : World)

def grants : Grants := w.core.store.access.grants

def put (i : ℕ) (worker : Worker) : World :=
  { w with workers := fun j => if j = i then worker else w.workers j }

def transact (e : SessionCutoff.Event) : Option World :=
  (w.core.step sha256 e).map fun core => { w with core := core }

def read (i vmid : ℕ) (items : List Item) : Option World :=
  if items.length ≤ 100 ∧ ∀ item ∈ items, item ∈ pendingGuestIdentityRevocations w.grants vmid then
    some ({ w with journal := items.map (Entry.read i) ++ w.journal }.put i (.next items))
  else none

/-- The completion and its audit event commit together; a worker whose completion is refused
stops. -/
def complete (i now : ℕ) (item : Item) (rest : List Item) : World :=
  match w.core.step sha256 (item.acknowledgement now) with
  | none => w.put i .idle
  | some core =>
    { w with
      core := core
      audit := item.audit :: w.audit
      journal := .completed i item :: w.journal }.put i (.next rest)

def step : Event → Option World
  | .transaction e => if acknowledges e.op then none else w.transact sha256 e
  | .scan i vmid now =>
    if w.workers i = .idle then
      (w.transact sha256 ⟨.access (.queueExpiredGuestIdentities vmid now), now⟩).map
        (·.put i (.scanned vmid))
    else none
  | .read i items =>
    match w.workers i with
    | .scanned vmid => w.read i vmid items
    | _ => none
  | .clean i =>
    match w.workers i with
    | .cleaning item rest =>
      some ({ w with journal := .cleaned i item :: w.journal }.put i (.cleaned item rest))
    | _ => none
  | .fail i => some (w.put i .idle)
  | .complete i now =>
    match w.workers i with
    | .cleaned item rest => some (w.complete sha256 i now item rest)
    | _ => none

end World

def revocationQueue (sha256 : Sha256) : Machine World Event where
  Init w := (sessionStore sha256).Init w.core ∧ w.audit = [] ∧ w.workers = (fun _ => .idle) ∧
    w.journal = []
  step := World.step sha256

/-- The operation gives access to the desktop by an account, an issue, a ticket, a grant or a native
connection. -/
inductive Gives (sha256 : Sha256) (s : GatewayStore) : GatewayOp → ℕ → Prop
  | bind {env : NativeEnv} {a : NativeGuestAccount} {digest : List UInt8} {now : ℕ} :
    Gives sha256 s (.access (.bindNativeGuestAccount env a digest now)) a.desktopVmid
  | begin {env : NativeEnv} {a : NativeGuestAccount} {connectionId : String} {expiresAt now : ℕ}
      {digest : List UInt8} :
    Gives sha256 s (.access (.beginNativeGuestCredential env a connectionId expiresAt digest now))
      a.desktopVmid
  | complete {env : NativeEnv} {a : NativeGuestAccount} {now : ℕ} (hop : a.operation = .issue) :
    Gives sha256 s (.access (.completeNativeGuestAccountOperation env a now)) a.desktopVmid
  | redeem {gatewayId token random : String} {g : GatewayTicket} {c : DesktopConnectionSession}
      (hg : g ∈ s.tickets) (ht : g.tokenDigest = sha256 token)
      (hc : s.access.grants.connection g.connectionId = some c) :
    Gives sha256 s (.redeemNativeGatewayTicket gatewayId token random) c.desktopVmid
  | renew {gatewayId tunnel : String} {g : GatewayTicket} {c : DesktopConnectionSession}
      (hg : g ∈ s.tickets) (ht : tunnelId g = some tunnel)
      (hc : s.access.grants.connection g.connectionId = some c) :
    Gives sha256 s (.renewNativeGatewayGrant gatewayId tunnel) c.desktopVmid
  | insert {session : DesktopConnectionSession} {digest : List UInt8} {now : ℕ} :
    Gives sha256 s (.access (.createNativeDesktopConnectionSession session digest now))
      session.desktopVmid

end Model

variable {sha256 : Sha256}

section Giving

variable {s s' : GatewayStore} {issued : List (List UInt8)} {now : ℕ}

theorem settled_of_leases {g h : GatewayTicket} {t : Tunnel} {grant : NativeGatewayGrant}
    {c : DesktopConnectionSession} (hl : Leases s now h t grant s') (heq : h = g)
    (hc : s.access.grants.connection g.connectionId = some c) :
    s.access.grants.revocationPending c.desktopVmid = false := by
  subst heq
  obtain ⟨a, ha⟩ := Option.isSome_iff_exists.mp hl.access
  have haccess := (ticketAccess_ok ha).1
  rw [GatewayStore.gatewayAccess, hc, Option.bind_some] at haccess
  obtain ⟨-, -, n, -, -, -, -, -, hsettled⟩ := connectionAccess_ok haccess
  exact hsettled

theorem settled_of_gives {op : GatewayOp} {vmid : ℕ} (hs : Sound issued s)
    (h : op.apply sha256 now s = .ok s') (hg : Gives sha256 s op vmid) :
    s.access.grants.revocationPending vmid = false := by
  cases hg with
  | bind =>
    obtain ⟨x, hx, -⟩ := bind_eq_ok.mp h
    exact (subjectAdmitted_ok (admitted_of_bind hx)).2
  | begin =>
    obtain ⟨x, hx, -⟩ := bind_eq_ok.mp h
    exact (subjectAdmitted_ok (admitted_of_begin hx)).2
  | complete hop =>
    obtain ⟨x, hx, -⟩ := bind_eq_ok.mp h
    obtain ⟨row, -, -, hadmitted⟩ := admitted_of_complete hop hx
    exact (subjectAdmitted_ok hadmitted).2
  | redeem hg ht hc =>
    obtain ⟨⟨x, t, grant⟩, hx, -⟩ := bind_eq_ok.mp h
    obtain ⟨k, hl, hk, -⟩ := redeem_ok hx
    exact settled_of_leases hl (hs.digests k hl.puts.mem _ hg (hk.trans ht.symm)) hc
  | renew hg ht hc =>
    obtain ⟨⟨x, t, grant⟩, hx, -⟩ := bind_eq_ok.mp h
    obtain ⟨k, hl, hk, -⟩ := renew_ok hx
    have hdigest := hs.tunnels k hl.puts.mem _ hg _ hk ht
    exact settled_of_leases hl (hs.digests k hl.puts.mem _ hg hdigest) hc
  | insert =>
    obtain ⟨x, hx, -⟩ := bind_eq_ok.mp h
    exact (live_of_createNative hx).2.2

end Giving

section Store

variable {v v' : SessionCutoff.World} {e : SessionCutoff.Event}

theorem requests_of_step (h : (sessionStore sha256).step v e = some v') :
    (Keyed v.store.access.grants → Keyed v'.store.access.grants) ∧
      (Requests v.store.access.grants.revocations v'.store.access.grants.revocations ∨
        ∃ vmid user guest revision now,
          e.op = .access (.completeGuestIdentityRevocation vmid user guest revision now) ∧
          Acknowledges (vmid, user, guest) revision v.store.access.grants
            v'.store.access.grants) := by
  obtain ⟨happly, -, -⟩ := step_ok h
  rcases access_of_apply happly with hsame | ⟨o, hop, ho⟩
  · rw [hsame]
    exact ⟨id, .inl (.refl _)⟩
  · have hchange := (applies_of_apply sha256 ho).change
    refine ⟨hchange.spares.keyed, ?_⟩
    cases hchange with
    | frame hf | cut _ hf | opens hf => exact .inl hf.requests
    | login _ hg => exact .inl (hg ▸ .refl _)
    | acknowledges _ ha => exact .inr ⟨_, _, _, _, _, hop, ha⟩

theorem keyed_of_reachable (hv : (sessionStore sha256).Reachable v) :
    Keyed v.store.access.grants := by
  refine hv.invariant (P := fun v => Keyed v.store.access.grants) ?_ ?_
  · rintro v ⟨haccess, -, -⟩
    rw [haccess]
    exact ⟨nodup_nil, nodup_nil, nodup_nil⟩
  · exact fun v e v' _ hk h => (requests_of_step h).1 hk

end Store

variable {w w' : World} {e : Event}

section Workers

variable {journal : List Entry} {i : ℕ}

/-- The worker has read the item, and cleaned the Guest after that. -/
def Done (journal : List Entry) (i : ℕ) (item : Item) : Prop :=
  [.cleaned i item, .read i item].Sublist journal

def Tracks (journal : List Entry) (i : ℕ) : Worker → Prop
  | .idle | .scanned _ => True
  | .cleaning item rest => ∀ it ∈ item :: rest, .read i it ∈ journal
  | .cleaned item rest => Done journal i item ∧ ∀ it ∈ rest, .read i it ∈ journal

theorem Tracks.mono {worker : Worker} {journal' : List Entry} (h : Tracks journal i worker)
    (hj : journal.Sublist journal') : Tracks journal' i worker := by
  cases worker with
  | idle | scanned => trivial
  | cleaning item rest => exact fun it hit => hj.subset (h it hit)
  | cleaned item rest => exact ⟨h.1.trans hj, fun it hit => hj.subset (h.2 it hit)⟩

theorem tracks_next {items : List Item} (h : ∀ it ∈ items, .read i it ∈ journal) :
    Tracks journal i (.next items) := by
  cases items with
  | nil => trivial
  | cons item rest => exact h

theorem tracks_put {worker : Worker} {v : World} (h : ∀ j, Tracks w.journal j (w.workers j))
    (hv : v.workers = w.workers) (hj : w.journal.Sublist v.journal)
    (hi : Tracks v.journal i worker) :
    ∀ j, Tracks (v.put i worker).journal j ((v.put i worker).workers j) := by
  intro j
  by_cases hji : j = i
  · subst hji
    simpa [World.put] using hi
  · simpa [World.put, hji, hv] using (h j).mono hj

theorem completions_read (items : List Item) :
    completions (items.map (Entry.read i) ++ journal) = completions journal := by
  induction items with
  | nil => rfl
  | cons item items ih => exact ih

inductive Does (sha256 : Sha256) (w : World) : Event → World → Prop
  | transaction {e : SessionCutoff.Event} {core : SessionCutoff.World}
      (hop : acknowledges e.op = false) (hcore : (sessionStore sha256).step w.core e = some core) :
    Does sha256 w (.transaction e) { w with core := core }
  | scan {i vmid now : ℕ} {core : SessionCutoff.World} (hcore : (sessionStore sha256).step w.core
        ⟨.access (.queueExpiredGuestIdentities vmid now), now⟩ = some core) :
    Does sha256 w (.scan i vmid now) ({ w with core := core }.put i (.scanned vmid))
  | read {i vmid : ℕ} {items : List Item}
      (hitems : ∀ item ∈ items, item ∈ pendingGuestIdentityRevocations w.grants vmid) :
    Does sha256 w (.read i items)
      ({ w with journal := items.map (Entry.read i) ++ w.journal }.put i (.next items))
  | clean {i : ℕ} {item : Item} {rest : List Item} (hworker : w.workers i = .cleaning item rest) :
    Does sha256 w (.clean i)
      ({ w with journal := .cleaned i item :: w.journal }.put i (.cleaned item rest))
  | fail {i : ℕ} : Does sha256 w (.fail i) (w.put i .idle)
  | refused {i now : ℕ} {item : Item} {rest : List Item}
      (hworker : w.workers i = .cleaned item rest)
      (hcore : (sessionStore sha256).step w.core (item.acknowledgement now) = none) :
    Does sha256 w (.complete i now) (w.put i .idle)
  | complete {i now : ℕ} {item : Item} {rest : List Item} {core : SessionCutoff.World}
      (hworker : w.workers i = .cleaned item rest)
      (hcore : (sessionStore sha256).step w.core (item.acknowledgement now) = some core) :
    Does sha256 w (.complete i now) ({ w with
        core := core
        audit := item.audit :: w.audit
        journal := .completed i item :: w.journal }.put i (.next rest))

theorem does_of_step (h : (revocationQueue sha256).step w e = some w') : Does sha256 w e w' := by
  cases e with
  | transaction e =>
    simp only [revocationQueue, World.step] at h
    split at h
    · cases h
    next hop =>
      obtain ⟨core, hcore, rfl⟩ := Option.map_eq_some_iff.mp h
      exact .transaction (by simpa using hop) hcore
  | scan i vmid now =>
    simp only [revocationQueue, World.step] at h
    split at h
    · obtain ⟨v, hv, rfl⟩ := Option.map_eq_some_iff.mp h
      obtain ⟨core, hcore, rfl⟩ := Option.map_eq_some_iff.mp hv
      exact .scan hcore
    · cases h
  | read i items =>
    simp only [revocationQueue, World.step] at h
    split at h
    next vmid _ =>
      unfold World.read at h
      split at h
      next hitems =>
        cases h
        exact .read hitems.2
      · cases h
    · cases h
  | clean i =>
    simp only [revocationQueue, World.step] at h
    split at h
    next item rest hworker =>
      cases h
      exact .clean hworker
    · cases h
  | fail i =>
    cases h
    exact .fail
  | complete i now =>
    simp only [revocationQueue, World.step] at h
    split at h
    next item rest hworker =>
      cases h
      unfold World.complete
      split
      next hcore => exact .refused hworker hcore
      next core hcore => exact .complete hworker hcore
    · cases h

theorem Does.tracks (h : Does sha256 w e w') (ht : ∀ j, Tracks w.journal j (w.workers j)) :
    ∀ j, Tracks w'.journal j (w'.workers j) := by
  cases h with
  | transaction => exact ht
  | scan | fail | refused => exact tracks_put ht rfl (.refl _) trivial
  | read =>
    refine tracks_put ht rfl (sublist_append_right _ _) (tracks_next fun it hit => ?_)
    exact mem_append_left _ (mem_map_of_mem hit)
  | @clean i item rest hworker =>
    have hread := ht i
    rw [hworker] at hread
    refine tracks_put ht rfl (sublist_cons_self _ _) ⟨?_, fun it hit => ?_⟩
    · exact (singleton_sublist.mpr (hread _ mem_cons_self)).cons_cons _
    · exact mem_cons_of_mem _ (hread it (mem_cons_of_mem _ hit))
  | @complete i _ _ _ _ hworker =>
    have hread := ht i
    rw [hworker] at hread
    exact tracks_put ht rfl (sublist_cons_self _ _)
      (tracks_next fun it hit => mem_cons_of_mem _ (hread.2 it hit))

end Workers

variable {r : GuestIdentityRevocation}

section Ledger

variable {rows rows' : List GuestIdentityRevocation} {audit : List AuditEvent}

theorem eq_of_account {g : Grants} (hk : Keyed g) {r' : GuestIdentityRevocation}
    (hr : r ∈ g.revocations) (hr' : r' ∈ g.revocations) (h : r.account = r'.account) : r = r' :=
  inj_on_of_nodup_map hk.revocations hr hr' h

/-- Every acknowledged item has one audit event, and its revision was acknowledged once; the
revision of a row is that of an acknowledged item. -/
structure Ledger (rows : List GuestIdentityRevocation) (audit : List AuditEvent)
    (done : List Item) : Prop where
  audit : audit = done.map Item.audit
  once : (done.map fun it => (it.account, it.revision)).Nodup
  covered : ∀ it ∈ done, ∃ r ∈ rows, r.account = it.account ∧ it.revision ≤ r.queue.completed
  recorded : ∀ r ∈ rows, r.queue.completed = 0 ∨
    ∃ it ∈ done, it.account = r.account ∧ it.revision = r.queue.completed

theorem Ledger.requests {done : List Item} (h : Ledger rows audit done) (hr : Requests rows rows') :
    Ledger rows' audit done where
  audit := h.audit
  once := h.once
  covered it hit := by
    obtain ⟨r, hmem, hacc, hle⟩ := h.covered it hit
    obtain ⟨r', hr', ha⟩ := hr.kept r hmem
    exact ⟨r', hr', ha.account.trans hacc, ha.completed ▸ hle⟩
  recorded r' hr' := by
    rcases hr.origin r' hr' with ⟨r, hmem, ha⟩ | ⟨-, hzero⟩
    · rw [ha.completed, ha.account]
      exact h.recorded r hmem
    · exact .inl hzero

/-- The row that an acknowledgement finds, and what it makes of the rows. -/
structure Advanced (rows rows' : List GuestIdentityRevocation) (item : Item)
    (r : GuestIdentityRevocation) : Prop where
  mem : r ∈ rows
  account : r.account = item.account
  requested : r.queue.requested = item.revision
  behind : r.queue.completed < item.revision
  others : ∀ r₀ ∈ rows, r₀.account ≠ item.account → r₀ ∈ rows'
  row : ∃ r' ∈ rows', r'.account = item.account ∧ r'.queue.requested = item.revision ∧
    r'.queue.completed = item.revision
  origin : ∀ r' ∈ rows', (r' ∈ rows ∧ r'.account ≠ item.account) ∨
    (r'.account = item.account ∧ r'.queue.completed = item.revision)

theorem advanced_of_acknowledges {g g' : Grants} {item : Item} (hk : Keyed g)
    (h : Acknowledges item.account item.revision g g') :
    ∃ r, Advanced g.revocations g'.revocations item r := by
  obtain ⟨r, hr, hacc, hreq, hlt⟩ := h.found
  have hcomplete : r.queue.complete item.revision = some ⟨item.revision, item.revision, le_rfl⟩ :=
    if_pos ⟨hreq, hlt⟩
  refine ⟨r, hr, hacc, hreq, hlt, fun r₀ hr₀ hne => ?_,
    ⟨{ r with queue := ⟨item.revision, item.revision, le_rfl⟩ }, ?_, hacc, rfl, rfl⟩,
    fun r' hr' => ?_⟩
  · rw [h.revocations]
    exact mem_updateWhere.mpr ⟨r₀, hr₀, .inr ⟨by simp [hne], rfl⟩⟩
  · rw [h.revocations]
    exact mem_updateWhere.mpr ⟨r, hr, .inl ⟨by simp [hacc, hcomplete], by simp [hcomplete]⟩⟩
  · rw [h.revocations] at hr'
    obtain ⟨r₀, hr₀, ⟨hp, rfl⟩ | ⟨hp, rfl⟩⟩ := mem_updateWhere.mp hr'
    · -- the only row of the account is the one that was found
      simp only [Bool.and_eq_true, beq_iff_eq] at hp
      obtain rfl := eq_of_account hk hr₀ hr (hp.1.trans hacc.symm)
      exact .inr ⟨hacc, by simp [hcomplete]⟩
    · refine .inl ⟨hr₀, fun heq => ?_⟩
      obtain rfl := eq_of_account hk hr₀ hr (heq.trans hacc.symm)
      simp [hacc, hcomplete] at hp

theorem Ledger.advanced {done : List Item} {item : Item} (h : Ledger rows audit done)
    (hkey : ∀ r₁ ∈ rows, ∀ r₂ ∈ rows, r₁.account = r₂.account → r₁ = r₂)
    (ha : Advanced rows rows' item r) : Ledger rows' (item.audit :: audit) (item :: done) where
  audit := by rw [h.audit, map_cons]
  once := by
    rw [map_cons, nodup_cons]
    refine ⟨fun hmem => ?_, h.once⟩
    -- the revision of an item that was acknowledged before would not be ahead of the row
    obtain ⟨it, hit, heq⟩ := mem_map.mp hmem
    obtain ⟨hacc, hrev⟩ := Prod.mk.inj heq
    obtain ⟨r₀, hr₀, hacc₀, hle⟩ := h.covered it hit
    obtain rfl := hkey r₀ hr₀ r ha.mem (hacc₀.trans (hacc.trans ha.account.symm))
    have := ha.behind
    omega
  covered it hit := by
    obtain ⟨r', hr', hacc', -, hcompleted⟩ := ha.row
    rcases mem_cons.mp hit with rfl | hit
    · exact ⟨r', hr', hacc', hcompleted.ge⟩
    · obtain ⟨r₀, hr₀, hacc₀, hle⟩ := h.covered it hit
      by_cases hsame : r₀.account = item.account
      · obtain rfl := hkey r₀ hr₀ r ha.mem (hsame.trans ha.account.symm)
        refine ⟨r', hr', hacc'.trans (hsame.symm.trans hacc₀), ?_⟩
        have := ha.behind
        omega
      · exact ⟨r₀, ha.others r₀ hr₀ hsame, hacc₀, hle⟩
  recorded r' hr' := by
    rcases ha.origin r' hr' with ⟨hmem, -⟩ | ⟨hacc, hcompleted⟩
    · refine (h.recorded r' hmem).imp_right fun ⟨it, hit, heq⟩ => ?_
      exact ⟨it, mem_cons_of_mem _ hit, heq⟩
    · exact .inr ⟨item, mem_cons_self, hacc.symm, hcompleted.symm⟩

end Ledger

section Results

theorem core_of_reachable (hw : (revocationQueue sha256).Reachable w) :
    (sessionStore sha256).Reachable w.core := by
  refine hw.invariant (P := fun w => (sessionStore sha256).Reachable w.core)
    (fun _ hi => .init hi.1)
    fun w e w' _ hr hs => ?_
  cases does_of_step hs with
  | transaction _ hcore | scan hcore | complete _ hcore => exact hr.step hcore
  | read | clean | fail | refused => exact hr

/-- What a step does to the rows, the audit log and the acknowledged items. -/
inductive Effect (w w' : World) (e : Event) : Prop
  | requests (hrows : Requests w.grants.revocations w'.grants.revocations)
      (haudit : w'.audit = w.audit) (hdone : completions w'.journal = completions w.journal)
  | advances (i now : ℕ) (item : Item) (rest : List Item) (r : GuestIdentityRevocation)
      (he : e = .complete i now) (hworker : w.workers i = .cleaned item rest)
      (hrows : Advanced w.grants.revocations w'.grants.revocations item r)
      (haudit : w'.audit = item.audit :: w.audit)
      (hdone : completions w'.journal = item :: completions w.journal)

theorem effect_of_step (hw : (revocationQueue sha256).Reachable w)
    (h : (revocationQueue sha256).step w e = some w') : Effect w w' e := by
  have hcore := core_of_reachable hw
  -- a transaction that is not an acknowledgement only requests revocations
  have hrequests : ∀ {e : SessionCutoff.Event} {core : SessionCutoff.World},
      acknowledges e.op = false → (sessionStore sha256).step w.core e = some core →
      Requests w.grants.revocations core.store.access.grants.revocations := by
    intro e core hop hstep
    rcases (requests_of_step hstep).2 with hr | ⟨vmid, user, guest, revision, now, heq, -⟩
    · exact hr
    · rw [heq] at hop
      cases hop
  cases does_of_step h with
  | transaction hop hstep => exact .requests (hrequests hop hstep) rfl rfl
  | scan hstep => exact .requests (hrequests rfl hstep) rfl rfl
  | read => exact .requests (.refl _) rfl (completions_read _)
  | clean | fail | refused => exact .requests (.refl _) rfl rfl
  | @complete i now item rest core hworker hstep =>
    obtain ⟨happly, -, -⟩ := step_ok hstep
    obtain ⟨x, hx, hstore⟩ := bind_eq_ok.mp happly
    obtain rfl : x = core.store.access := by rw [← Except.ok.inj hstore]
    have hack : Acknowledges item.account item.revision w.grants core.store.access.grants :=
      (acknowledges_complete hx).2.1
    obtain ⟨r, hr⟩ := advanced_of_acknowledges (keyed_of_reachable hcore) hack
    exact .advances i now item rest r rfl hworker hr rfl rfl

theorem ledger_of_reachable (hw : (revocationQueue sha256).Reachable w) :
    Ledger w.grants.revocations w.audit (completions w.journal) := by
  refine hw.invariant
    (P := fun w => Ledger w.grants.revocations w.audit (completions w.journal)) ?_ ?_
  · rintro w ⟨⟨haccess, -, -⟩, haudit, -, hjournal⟩
    have hnone : w.grants.revocations = [] := by rw [World.grants, haccess]
    rw [haudit, hjournal, hnone]
    constructor <;> simp [completions]
  · intro w e w' hw hl hs
    cases effect_of_step hw hs with
    | requests hrows haudit hdone =>
      rw [haudit, hdone]
      exact hl.requests hrows
    | advances i now item rest r he hworker hrows haudit hdone =>
      rw [haudit, hdone]
      exact hl.advanced (fun r₁ h₁ r₂ h₂ =>
        eq_of_account (keyed_of_reachable (core_of_reachable hw)) h₁ h₂) hrows

theorem tracks_of_reachable (hw : (revocationQueue sha256).Reachable w) :
    ∀ i, Tracks w.journal i (w.workers i) := by
  refine hw.invariant (P := fun w => ∀ i, Tracks w.journal i (w.workers i)) ?_ ?_
  · rintro w ⟨-, -, hworkers, -⟩ i
    rw [hworkers]
    trivial
  · exact fun w e w' _ ht hs => (does_of_step hs).tracks ht

theorem acknowledged_by (hw : (revocationQueue sha256).Reachable w)
    (hs : (revocationQueue sha256).step w e = some w') {r' : GuestIdentityRevocation}
    (hr : r ∈ w.grants.revocations) (hr' : r' ∈ w'.grants.revocations)
    (hacc : r'.account = r.account) (hne : r'.queue.completed ≠ r.queue.completed) :
    ∃ i now item rest, e = .complete i now ∧ w.workers i = .cleaned item rest ∧
      Done w.journal i item ∧ item.account = r.account ∧ r.queue.requested = item.revision ∧
      r'.queue.completed = item.revision ∧ w'.audit = item.audit :: w.audit := by
  have hkeyed := keyed_of_reachable (core_of_reachable hw)
  cases effect_of_step hw hs with
  | requests hrows =>
    rcases hrows.origin r' hr' with ⟨r₀, hr₀, ha⟩ | ⟨hnew, -⟩
    · obtain rfl := eq_of_account hkeyed hr₀ hr (ha.account.symm.trans hacc)
      exact absurd ha.completed hne
    · exact absurd hacc.symm (hnew r hr)
  | advances i now item rest r₀ he hworker hrows haudit =>
    rcases hrows.origin r' hr' with ⟨hmem, -⟩ | ⟨hitem, hcompleted⟩
    · -- another row is as it was
      exact absurd (by rw [eq_of_account hkeyed hmem hr hacc]) hne
    · obtain rfl := eq_of_account hkeyed hrows.mem hr (hrows.account.trans (hitem.symm.trans hacc))
      have htracks := tracks_of_reachable hw i
      rw [hworker] at htracks
      exact ⟨i, now, item, rest, he, hworker, htracks.1, hrows.account.symm, hrows.requested,
        hcompleted, haudit⟩

theorem request_survives (hw : (revocationQueue sha256).Reachable w) {i now : ℕ} {item : Item}
    {rest : List Item} (hworker : w.workers i = .cleaned item rest)
    (hs : (revocationQueue sha256).step w (.complete i now) = some w')
    (hr : r ∈ w.grants.revocations) (hacc : r.account = item.account)
    (hnewer : item.revision < r.queue.requested) : r ∈ w'.grants.revocations := by
  cases does_of_step hs with
  | refused => exact hr
  | complete hworker' hcore =>
    cases hworker.symm.trans hworker'
    obtain ⟨x, hx, -⟩ := bind_eq_ok.mp (step_ok hcore).1
    obtain ⟨r₀, hr₀, hacc₀, hreq, -⟩ := (acknowledges_complete hx).2.1.found
    obtain rfl := eq_of_account (keyed_of_reachable (core_of_reachable hw)) hr₀ hr
      (hacc₀.trans hacc.symm)
    omega

/-- The queue of Guest identity revocations: a revision is completed once, by a worker that read it
before it cleaned the Guest while it is still requested, and nothing is given on a desktop with a
pending revocation. -/
theorem guest_identity_revocation_queue (hw : (revocationQueue sha256).Reachable w) :
    (∀ r ∈ w.grants.revocations, r.queue.completed ≤ r.queue.requested) ∧
    (∀ i items w', (revocationQueue sha256).step w (.read i items) = some w' →
      w'.journal = items.map (Entry.read i) ++ w.journal ∧ ∀ item ∈ items,
        ∃ r ∈ w.grants.revocations, r.account = item.account ∧
          r.queue.requested = item.revision) ∧
    (∀ e w', (revocationQueue sha256).step w e = some w' →
      ∀ r ∈ w.grants.revocations, ∀ r' ∈ w'.grants.revocations, r'.account = r.account →
        r'.queue.completed ≠ r.queue.completed →
        ∃ i now item rest, e = .complete i now ∧ w.workers i = .cleaned item rest ∧
          Done w.journal i item ∧ item.account = r.account ∧ r.queue.requested = item.revision ∧
          r'.queue.completed = item.revision ∧ w'.audit = item.audit :: w.audit) ∧
    (∀ i now item rest w', w.workers i = .cleaned item rest →
      (revocationQueue sha256).step w (.complete i now) = some w' →
      ∀ r ∈ w.grants.revocations, r.account = item.account →
        item.revision < r.queue.requested → r ∈ w'.grants.revocations) ∧
    (w.audit = (completions w.journal).map Item.audit ∧
      ((completions w.journal).map fun item => (item.account, item.revision)).Nodup ∧
      (∀ r ∈ w.grants.revocations, r.queue.completed = 0 ∨
        ∃ item ∈ completions w.journal, item.account = r.account ∧
          item.revision = r.queue.completed) ∧
      ∀ item ∈ completions w.journal, ∃ r ∈ w.grants.revocations, r.account = item.account ∧
        item.revision ≤ r.queue.completed) ∧
    (∀ e w' vmid, (revocationQueue sha256).step w (.transaction e) = some w' →
      Gives sha256 w.core.store e.op vmid → w.grants.revocationPending vmid = false) := by
  have hl := ledger_of_reachable hw
  refine ⟨fun r _ => r.queue.ordered, fun i items w' hs => ?_,
    fun e w' hs r hr r' hr' => acknowledged_by hw hs hr hr',
    fun i now item rest w' hworker hs r hr => request_survives hw hworker hs hr,
    ⟨hl.audit, hl.once, hl.recorded, hl.covered⟩, fun e w' vmid hs hg => ?_⟩
  · cases does_of_step hs with
    | read hitems =>
      refine ⟨rfl, fun item hitem => ?_⟩
      obtain ⟨r, hr, rfl⟩ := mem_map.mp (hitems item hitem)
      exact ⟨r, (mem_filter.mp hr).1, rfl, rfl⟩
  · cases does_of_step hs with
    | transaction _ hcore =>
      exact settled_of_gives (sound_of_reachable (core_of_reachable hw)).1 (step_ok hcore).1 hg

end Results

section Sample

def sampleItem : Item := ⟨100, "user", "vcw000000000000", 1, .credentialRevoked⟩

def sampleTransactions (ops : List AccessOp) : List Event :=
  (sampleEvents ops).map .transaction

/-- The user logs out and a worker cleans the Guest; then the user logs in and out again. -/
def sampleRun : List Event :=
  sampleTransactions
    (sampleBound ++ [sampleLogin, .revokeNativeSession sampleSession.tokenDigest]) ++
    [.scan 0 100 0, .read 0 [sampleItem], .clean 0, .complete 0 0] ++
    sampleTransactions [.createVerifiedLoginSession [2] "user" none 90000000 0,
      .revokeNativeSession [2]]

/-- One revision is completed with its audit event, and the next one keeps the user out. -/
theorem guest_identity_revocation_queue_sample :
    ∃ w, (revocationQueue sampleDigest).Reachable w ∧ w.audit = [sampleItem.audit] ∧
      w.audit = (completions w.journal).map Item.audit ∧
      w.grants.revocationPending 100 = true ∧
      ∀ session digest now w', (revocationQueue sampleDigest).step w (.transaction
        ⟨.access (.createNativeDesktopConnectionSession session digest now), now⟩) = some w' →
        session.desktopVmid ≠ 100 := by
  obtain ⟨w, hw, haudit, hpending⟩ : ∃ w, (revocationQueue sampleDigest).Reachable w ∧
      w.audit = [sampleItem.audit] ∧ w.grants.revocationPending 100 = true :=
    Machine.exists_reachable_of_run ⟨sampleWorld, [], fun _ => .idle, []⟩ sampleRun
      ⟨⟨rfl, rfl, rfl⟩, rfl, rfl, rfl⟩ (by decide +kernel)
  obtain ⟨-, -, -, -, ⟨hevents, -⟩, hgives⟩ := guest_identity_revocation_queue hw
  refine ⟨w, hw, haudit, hevents, hpending, fun session digest now w' hs hvmid => ?_⟩
  have hsettled := hgives _ w' _ hs .insert
  rw [hvmid, hpending] at hsettled
  cases hsettled

end Sample

end VcWorkspace.Store.RevocationQueue
