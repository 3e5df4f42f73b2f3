import VcWorkspace.Store.Authorization
import VcWorkspace.Store.RevocationQueue

/-! # The preparation of a Windows connection

Under the lock of a desktop, `createNativeDesktopConnection` settles what came
before, binds the user to a Guest account, gives the account a new password,
enables it, and only then inserts the connection. Each of these is a transaction
or a Guest command of its own: other transactions run in between, and the
preparation may end after any of them.
-/

namespace VcWorkspace.Server.WindowsConnection

open Transition Store Authorization Footprint GatewayLedger SessionCutoff RevocationQueue Option
  Bool List

section Model

inductive Phase
  | session | access | desktop | recover | scan | read
  /-- The Guest is being cleaned for the first item. -/
  | clean (item : Item) (rest : List Item)
  | complete (item : Item) (rest : List Item)
  | beginRevoke
  /-- The credentials of these connections are being revoked. -/
  | disconnect (ids : List String)
  | close (id : String) (expiresAt : ℕ) (rest : List String)
  | identity
  | bind (os : OsFamily) (profileId : String)
  | provision (os : OsFamily) (profileId : String)
  | ready (profileId : String)
  | account | policy | leases | takeover | password | enable | insert
  | opened | failed
  deriving DecidableEq, Repr

def Phase.before : Phase → Bool
  | .session | .access | .desktop | .recover | .scan | .read | .clean .. | .complete ..
  | .beginRevoke | .disconnect _ | .close .. | .identity | .bind .. => true
  | _ => false

def Phase.native : Phase → Bool
  | .recover | .clean .. | .disconnect _ => true
  | _ => false

def Phase.cleanNext : List Item → Phase
  | [] => .beginRevoke
  | item :: rest => .clean item rest

structure Preparation where
  vmid : ℕ
  user : String
  digest : List UInt8
  phase : Phase
  /-- The binding is written. -/
  bound : Bool
  /-- The Guest account is enabled with the new password. -/
  enabled : Bool
  /-- The connection that was inserted. -/
  connection : Option String
  /-- The binding had a `session_expires_at` when it was written. -/
  deadline : Bool
  /-- A revocation of the user was pending when the binding was written, or after a transaction
  since. -/
  pending : Bool
  /-- Sessions of the user ended, or the access was lost, after the binding was written. -/
  cut : Bool
  deriving DecidableEq, Repr

structure Input where
  now : ℕ
  items : List Item
  profileExists : Bool
  random : String

structure World where
  core : SessionCutoff.World
  /-- The preparation that holds the lock of its desktop. -/
  preparation : Option Preparation

def World.store (w : World) : AccessState := w.core.store.access

namespace Preparation

variable (sha256 : Sha256) (p : Preparation)

def binding (profileId : String) (state : BindingState) (lastError : String) :
    GuestIdentityBinding :=
  ⟨p.vmid, p.user, some profileId, nativeGuestUsername sha256 p.user, state, lastError, none⟩

def lifetime : ℕ := 8 * 3600 * 1000000

def session (i : Input) : DesktopConnectionSession :=
  ⟨"conn_" ++ i.random, p.user, p.vmid, nativeGuestUsername sha256 p.user, .active,
    i.now + lifetime, false, none⟩

def revoked (g : Grants) : Bool :=
  g.revocations.any fun r => r.desktopVmid == p.vmid && r.userId == p.user && r.queue.pending

def watch (g : Grants) : Preparation := { p with pending := p.pending || p.bound && p.revoked g }

def transaction (i : Input) : Option AccessOp :=
  match p.phase with
  | .scan => some (.queueExpiredGuestIdentities p.vmid i.now)
  | .complete item _ => some (.completeGuestIdentityRevocation item.desktopVmid item.userId
      item.guestUsername item.revision i.now)
  | .beginRevoke => some (.beginRevokeDesktopConnections p.vmid)
  | .close id expiresAt _ => some (.markDesktopConnectionClosed id
      (if expiresAt ≤ i.now then .expired else .revoked))
  | .bind _ profileId =>
    some (.putGuestIdentityBinding (p.binding sha256 profileId .provisioning "") i.profileExists)
  | .ready profileId =>
    some (.putGuestIdentityBinding (p.binding sha256 profileId .ready "") i.profileExists)
  | .leases => some (.revokeDesktopLeases p.vmid)
  | .takeover => some (.queueExpiredComputerLeases p.vmid i.now)
  | .insert => some (.createNativeDesktopConnectionSession (p.session sha256 i) p.digest i.now)
  | _ => none

def record (i : Input) (s : AccessState) (next : Phase) : Preparation :=
  match p.phase with
  | .bind .. =>
    { p with
      phase := next
      bound := true
      cut := false
      pending := p.revoked s.grants
      deadline := s.grants.bindings.any fun b => b.desktopVmid == p.vmid && b.userId == p.user &&
        b.sessionExpiresAt.isSome }
  | .enable => { p.watch s.grants with phase := next, enabled := true }
  | .insert => { p with phase := next, connection := some (p.session sha256 i).id }
  | _ => { p.watch s.grants with phase := next }

end Preparation

namespace World

variable (sha256 : Sha256) (w : World) (p : Preparation)

def desktop : Option ManagedDesktop := w.store.tables.desktops.find? (·.vmid == p.vmid)

/-- The native account of a user on the desktop of the preparation. -/
def native (user : String) : Option NativeGuestRow :=
  w.store.grants.accounts.find? fun a => a.desktopVmid == p.vmid && a.userId == user

def next (i : Input) : Option Phase :=
  match p.phase with
  | .session =>
    if w.store.grants.nativeSessions.any fun n => n.tokenDigest == p.digest &&
      i.now < n.expiresAt && w.store.tables.users.any fun u => u.id == n.userId && !u.disabled
    then some .access else none
  | .access => if w.store.access p.user p.vmid then some .desktop else none
  | .desktop => if (w.desktop p).any (·.osFamily == some .windows) then some .recover else none
  | .recover => some .scan
  | .scan => some .read
  | .read =>
    if i.items.length ≤ 100 ∧
      ∀ item ∈ i.items, item ∈ pendingGuestIdentityRevocations w.store.grants p.vmid
    then some (.cleanNext i.items) else none
  | .clean item rest =>
    -- a pinned account is revoked through its own operations
    if (w.native p item.userId).all fun a => a.guestUsername == item.guestUsername &&
      a.operation == .revoke && a.state == .applied
    then some (.complete item rest) else none
  | .complete _ rest => some (.cleanNext rest)
  | .beginRevoke =>
    some (.disconnect ((w.store.grants.connections.filter fun c =>
      c.desktopVmid == p.vmid && c.isOpen).map (·.id)))
  | .disconnect [] => some .identity
  | .disconnect (id :: rest) =>
    match w.store.grants.connection id with
    | none => some (.disconnect rest)
    | some c =>
      if c.state ≠ .revoking then some (.disconnect rest)
      -- the connection of a pinned account is closed through the operations on the account
      else if (w.native p c.userId).isSome then none
      else some (.close id c.expiresAt rest)
  | .close _ _ rest => some (.disconnect rest)
  | .identity => do
    let desktop ← w.desktop p
    let os ← desktop.osFamily
    some (.bind os (desktop.identityProfileId.getD ("managed-local-" ++
      match os with | .linux => "linux" | .windows => "windows")))
  | .bind os profileId => some (.provision os profileId)
  | .provision _ profileId => some (.ready profileId)
  | .ready _ => some .account
  | .account => if (w.native p p.user).isNone then some .policy else none
  | .policy => some .leases
  | .leases => some .takeover
  | .takeover => some .password
  | .password => some .enable
  | .enable => if ((w.desktop p).bind (·.osFamily)).isSome then some .insert else none
  | .insert => some .opened
  | .opened | .failed => none

def commit (now : ℕ) : Option AccessOp → Option SessionCutoff.World
  | none => some w.core
  | some op => w.core.step sha256 ⟨.access op, now⟩

def advance (i : Input) : Option World := do
  let next ← w.next p i
  let core ← w.commit sha256 i.now (p.transaction sha256 i)
  some ⟨core, some (p.record sha256 i core.store.access next)⟩

def fail : World :=
  { w with preparation := w.preparation.map fun p => { p with phase := .failed } }

end World

def cuts (g : Grants) (user : String) : AccessOp → Bool
  | .revokeNativeSession digest =>
    g.nativeSessions.any fun n => n.tokenDigest == digest && n.userId == user
  | .setUserPassword id _ | .setUserDisabled id true => id == user
  | _ => false

def cutsOff (g : Grants) (user : String) : GatewayOp → Bool
  | .access op => cuts g user op
  | _ => false

/-- The holder of the lock is the preparation: of the guarded operations there are only those on
native accounts, while it works on these. -/
def admits (p : Preparation) : GatewayOp → Bool
  | .access (.completeNativeGuestAccountOperation _ a _) =>
    a.desktopVmid != p.vmid || p.phase.native
  | .access op => !op.guarded p.vmid
  | _ => true

/-- Another transaction commits, and the preparation may lose its ground. -/
def Preparation.observe (p : Preparation) (op : GatewayOp) (s s' : AccessState) : Preparation :=
  { p.watch s'.grants with
    cut := p.cut || p.bound && (cutsOff s.grants p.user op ||
      s.access p.user p.vmid && !s'.access p.user p.vmid) }

inductive Event
  | transaction (e : SessionCutoff.Event)
  /-- A user with a session and access asks for a connection and gets the lock. -/
  | start (vmid : ℕ) (user : String) (digest : List UInt8) (now : ℕ)
  | advance (i : Input)
  /-- The step is made, and the preparation does not learn of it. -/
  | lose (i : Input)
  /-- The Guest does not provision the account. -/
  | reject (lastError : String) (i : Input)
  /-- The request is cancelled, or a step fails. -/
  | fail
  | release

variable (sha256 : Sha256)

namespace World

variable (w : World)

def step (e : Event) : Option World :=
  match e, w.preparation with
  | .transaction e, none => (w.core.step sha256 e).map fun core => ⟨core, none⟩
  | .transaction e, some p =>
    if admits p e.op then
      (w.core.step sha256 e).map fun core =>
        ⟨core, some (p.observe e.op w.store core.store.access)⟩
    else none
  | .start vmid user digest now, none =>
    if w.store.grants.sessionLive user now digest && w.store.access user vmid then
      some ⟨w.core, some ⟨vmid, user, digest, .session, false, false, none, false, false, false⟩⟩
    else none
  | .advance i, some p => w.advance sha256 p i
  | .lose i, some p => (w.advance sha256 p i).map (·.fail)
  | .reject lastError i, some p =>
    match p.phase with
    | .provision .windows profileId =>
      let op := .putGuestIdentityBinding (p.binding sha256 profileId .failed lastError)
        i.profileExists
      some { w with core := (w.commit sha256 i.now (some op)).getD w.core }.fail
    | _ => none
  | .fail, some p => if p.phase = .opened then none else some w.fail
  | .release, some p =>
    if p.phase = .opened ∨ p.phase = .failed then some { w with preparation := none } else none
  | _, _ => none

end World

def preparations : Machine World Event where
  Init w := (sessionStore sha256).Init w.core ∧ w.preparation = none
  step := World.step sha256

/-- The credential of the preparation is on record: by its connection, a pending revocation, or the
expiry scan. -/
def covered (p : Preparation) (g : Grants) : Bool :=
  p.connection.any (fun id => (g.connection id).isSome) || p.revoked g ||
    g.bindings.any fun b => b.desktopVmid == p.vmid && b.userId == p.user &&
      b.state != .disabled && b.sessionExpiresAt.isSome

end Model

variable {sha256 : Sha256} {p : Preparation} {s s' : AccessState} {g g' : Grants}
  {op : AccessOp}

section Held

structure Holds (sha256 : Sha256) (p : Preparation) (g : Grants)
    (b : GuestIdentityBinding) : Prop where
  desktop : b.desktopVmid = p.vmid
  user : b.userId = p.user
  guest : b.guestUsername = nativeGuestUsername sha256 p.user
  settled : b.state ≠ .disabled ∨ g.accountRevocationPending b = true
  deadline : p.deadline = b.sessionExpiresAt.isSome
  cut : p.cut = true → g.accountRevocationPending b = true

structure Held (sha256 : Sha256) (p : Preparation) (g : Grants) : Prop where
  pending : p.revoked g = p.pending
  binding : ∃ b ∈ g.bindings, Holds sha256 p g b

theorem revoked_iff : p.revoked g = true ↔
    ∃ b, b.desktopVmid = p.vmid ∧ b.userId = p.user ∧ g.accountRevocationPending b = true := by
  simp only [Preparation.revoked, List.any_eq_true, and_eq_true, beq_iff_eq]
  constructor
  · rintro ⟨r, hr, ⟨hv, hu⟩, hpend⟩
    exact ⟨⟨r.desktopVmid, r.userId, none, r.guestUsername, .ready, "", none⟩, hv, hu,
      accountRevocationPending_iff.mpr ⟨r, hr, by simp [GuestIdentityRevocation.concerns], hpend⟩⟩
  · rintro ⟨b, hv, hu, hpend⟩
    obtain ⟨r, hr, hconcerns, hpend⟩ := accountRevocationPending_iff.mp hpend
    simp only [GuestIdentityRevocation.concerns, and_eq_true, beq_iff_eq] at hconcerns
    exact ⟨r, hr, ⟨hconcerns.1.1.trans hv, hconcerns.1.2.trans hu⟩, hpend⟩

theorem pending_watch (hbound : p.bound = true) (h : p.revoked g = p.pending)
    (hkeep : p.revoked g = true → p.revoked g' = true) : p.revoked g' = (p.watch g').pending := by
  cases hr : p.revoked g' with
  | true => simp [Preparation.watch, hbound, hr]
  | false =>
    have hnot : p.pending = false := by
      rw [← h]
      exact eq_false_of_not_eq_true fun hpend => by simp [hkeep hpend] at hr
    simp [Preparation.watch, hr, hnot]

theorem cuts_iff (h : cuts g p.user op = true) : Cuts g op p.user := by
  unfold cuts at h
  split at h
  next digest =>
    simp only [List.any_eq_true, and_eq_true, beq_iff_eq] at h
    obtain ⟨n, hn, rfl, huser⟩ := h
    exact huser ▸ .revokeNativeSession hn
  · exact beq_iff_eq.mp h ▸ .setUserPassword
  · exact beq_iff_eq.mp h ▸ .setUserDisabled
  · cases h

theorem pending_of_cut (hkeys : UniqueTokens s.grants) (hb : b ∈ s.grants.bindings)
    (hh : Holds sha256 p s.grants b) (h : op.apply sha256 s = .ok s')
    (hcut : cuts s.grants p.user op = true ∨
      s.access p.user p.vmid = true ∧ s'.access p.user p.vmid = false) :
    s'.grants.accountRevocationPending b = true := by
  rcases hcut with hcut | ⟨hacc, hno⟩
  · exact pending_of_cuts sha256 hkeys (cuts_iff hcut) h hb hh.user fun _ => hh.settled
  · rw [← hh.user, ← hh.desktop] at hacc hno
    exact pending_of_lost (applies_of_apply sha256 h).effect hb hh.settled hacc hno

theorem held_of_binds (hb : b ∈ g.bindings) (hh : Holds sha256 p g b) (hbinds : Binds p.vmid g g')
    (hkeep : g.accountRevocationPending b = true → g'.accountRevocationPending b = true)
    (hv : p'.vmid = p.vmid) (hu : p'.user = p.user) (hd : p'.deadline = p.deadline)
    (hcut : p'.cut = true → g'.accountRevocationPending b = true) :
    ∃ b ∈ g'.bindings, Holds sha256 p' g' b := by
  rcases hbinds b hb hh.desktop with hb' | ⟨hb', hpend⟩
  · exact ⟨b, hb', hh.desktop.trans hv.symm, hh.user.trans hu.symm, hu ▸ hh.guest,
      hh.settled.imp_right hkeep, hd.trans hh.deadline, hcut⟩
  · exact ⟨_, hb', hh.desktop.trans hv.symm, hh.user.trans hu.symm, hu ▸ hh.guest,
      .inr hpend, hd.trans hh.deadline, fun _ => hpend⟩

theorem Held.change (hkeys : UniqueTokens s.grants) (hbound : p.bound = true)
    (hh : Held sha256 p s.grants) (hg : op.guarded p.vmid = false)
    (h : op.apply sha256 s = .ok s') :
    Held sha256 (p.observe (.access op) s s') s'.grants ∧
      Held sha256 (p.watch s'.grants) s'.grants := by
  obtain ⟨hp, b, hb, hh⟩ := hh
  have hc := (applies_of_apply sha256 h).change
  have hbinds := hc.spares.binds p.vmid hg
  have hkeep : ∀ b : GuestIdentityBinding, b.desktopVmid = p.vmid →
      s.grants.accountRevocationPending b = true → s'.grants.accountRevocationPending b = true :=
    fun b => hc.pending hg
  have hpending := pending_watch hbound hp fun hr => by
    obtain ⟨b, hv, hu, hpend⟩ := revoked_iff.mp hr
    exact revoked_iff.mpr ⟨b, hv, hu, hkeep b hv hpend⟩
  refine ⟨⟨hpending, held_of_binds hb hh hbinds (hkeep b hh.desktop) rfl rfl rfl fun hcut => ?_⟩,
    hpending, held_of_binds hb hh hbinds (hkeep b hh.desktop) rfl rfl rfl
      fun hcut => hkeep b hh.desktop (hh.cut hcut)⟩
  simp only [Preparation.observe, cutsOff, or_eq_true, and_eq_true,
    not_eq_true'] at hcut
  rcases hcut with hcut | ⟨-, hcut⟩
  · exact hkeep b hh.desktop (hh.cut hcut)
  · exact pending_of_cut hkeys hb hh h hcut

theorem Held.of_eq (hh : Held sha256 p g) (hv : p'.vmid = p.vmid) (hu : p'.user = p.user)
    (hd : p'.deadline = p.deadline) (hp : p'.pending = p.pending) (hc : p'.cut = p.cut) :
    Held sha256 p' g := by
  obtain ⟨hpending, b, hb, hh⟩ := hh
  refine ⟨?_, b, hb, hh.desktop.trans hv.symm, hh.user.trans hu.symm, hu ▸ hh.guest, hh.settled,
    hd.trans hh.deadline, hc ▸ hh.cut⟩
  rw [hp, ← hpending, Preparation.revoked, hv, hu, Preparation.revoked]

theorem Held.watch (hh : Held sha256 p g) : Held sha256 (p.watch g) g := by
  refine hh.of_eq rfl rfl rfl ?_ rfl
  cases hpend : p.pending with
  | true => simp [Preparation.watch, hpend]
  | false => simp [Preparation.watch, hpend, hh.pending.trans hpend]

variable {profileId lastError : String} {state : BindingState} {profileExists : Bool}
  {b b' : GuestIdentityBinding} {p' : Preparation}

theorem eq_of_key (hkeyed : Keyed g) (hb : b ∈ g.bindings) (hb' : b' ∈ g.bindings)
    (hd : b.desktopVmid = b'.desktopVmid) (hu : b.userId = b'.userId) : b = b' :=
  inj_on_of_nodup_map hkeyed.bindings hb hb' (Prod.ext hd hu)

theorem held_of_put (hkeyed : Keyed s'.grants) (hst : state ≠ .disabled)
    (h : s.putGuestIdentityBinding (p.binding sha256 profileId state lastError) profileExists =
      .ok s')
    (hd : p.deadline = s'.grants.bindings.any fun b => b.desktopVmid == p.vmid &&
      b.userId == p.user && b.sessionExpiresAt.isSome)
    (hp : p.revoked s'.grants = p.pending) (hc : p.cut = false) : Held sha256 p s'.grants := by
  obtain ⟨b, hb, hkey, hg, hs⟩ := exists_of_put h
  obtain ⟨hv, hu⟩ := Prod.mk.inj hkey
  refine ⟨hp, b, hb, hv, hu, hg, .inl (hs ▸ hst), ?_, fun hcut => ?_⟩
  · -- the user has one binding to the desktop
    rw [hd, Bool.eq_iff_iff, List.any_eq_true]
    refine ⟨?_, fun hdead => ⟨b, hb, by simp [hv, hu, hdead, Preparation.binding]⟩⟩
    rintro ⟨b', hb', hp⟩
    simp only [and_eq_true, beq_iff_eq] at hp
    exact eq_of_key hkeyed hb' hb (hp.1.1.trans hv.symm) (hp.1.2.trans hu.symm) ▸ hp.2
  · rw [hc] at hcut
    cases hcut

theorem Held.put (hh : Held sha256 p s.grants) (hst : state ≠ .disabled)
    (h : s.putGuestIdentityBinding (p.binding sha256 profileId state lastError) profileExists =
      .ok s') : Held sha256 p s'.grants := by
  obtain ⟨hp, b, hb, hh⟩ := hh
  obtain ⟨hmem, hrevocations⟩ := mem_of_put h hb (Prod.ext hh.desktop hh.user)
  refine ⟨?_, _, hmem, rfl, rfl, rfl, .inl hst, hh.deadline, fun hcut => ?_⟩
  · rw [Preparation.revoked, hrevocations]
    exact hp
  · have hpend := hh.cut hcut
    simp only [Grants.accountRevocationPending, GuestIdentityRevocation.concerns, hh.desktop,
      hh.user, hh.guest] at hpend
    rw [Grants.accountRevocationPending, hrevocations]
    exact hpend

theorem Held.pending_of_cut (hh : Held sha256 p g) (hcut : p.cut = true) : p.pending = true := by
  obtain ⟨hp, b, hb, hh⟩ := hh
  exact hp ▸ revoked_iff.mpr ⟨b, hh.desktop, hh.user, hh.cut hcut⟩

theorem Held.covered_iff (hh : Held sha256 p g) (hkeyed : Keyed g) (hnone : p.connection = none) :
    covered p g = true ↔ p.deadline = true ∨ p.pending = true := by
  obtain ⟨hp, b, hb, hh⟩ := hh
  have hcovered : covered p g = true ↔ p.pending = true ∨ ∃ b ∈ g.bindings,
      ((b.desktopVmid = p.vmid ∧ b.userId = p.user) ∧ b.state ≠ .disabled) ∧
        b.sessionExpiresAt.isSome = true := by
    simp [covered, hnone, hp]
  rw [hcovered, hh.deadline, Or.comm]
  constructor
  · refine Or.imp_left ?_
    rintro ⟨b', hb', ⟨⟨hv, hu⟩, -⟩, hdead⟩
    exact eq_of_key hkeyed hb' hb (hv.trans hh.desktop.symm) (hu.trans hh.user.symm) ▸ hdead
  · rintro (hdead | hpend)
    · by_cases hst : b.state = .disabled
      · refine .inr (hp ▸ revoked_iff.mpr ⟨b, hh.desktop, hh.user, ?_⟩)
        exact hh.settled.resolve_left fun hne => hne hst
      · exact .inl ⟨b, hb, ⟨⟨hh.desktop, hh.user⟩, hst⟩, hdead⟩
    · exact .inr hpend

end Held

variable {w w' : World} {i : Input} {q : Phase} {core : SessionCutoff.World}

section Steps

variable {e : Event}

inductive Does (sha256 : Sha256) (w : World) : World → Prop
  | alone {e : SessionCutoff.Event} {core : SessionCutoff.World}
      (hcore : (sessionStore sha256).step w.core e = some core) : Does sha256 w ⟨core, none⟩
  | other {p : Preparation} {e : SessionCutoff.Event} {core : SessionCutoff.World}
      (hp : w.preparation = some p) (hop : admits p e.op = true)
      (hcore : (sessionStore sha256).step w.core e = some core) :
    Does sha256 w ⟨core, some (p.observe e.op w.store core.store.access)⟩
  | start {vmid : ℕ} {user : String} {digest : List UInt8} :
    Does sha256 w
      ⟨w.core, some ⟨vmid, user, digest, .session, false, false, none, false, false, false⟩⟩
  | advance {p : Preparation} {i : Input} {next q : Phase} {core : SessionCutoff.World}
      (hp : w.preparation = some p) (hnext : w.next p i = some next)
      (hq : q = next ∨ q = .failed)
      (hcore : w.commit sha256 i.now (p.transaction sha256 i) = some core) :
    Does sha256 w ⟨core, some (p.record sha256 i core.store.access q)⟩
  | reject {p : Preparation} {now : ℕ} {profileId lastError : String} {profileExists : Bool}
      {core : SessionCutoff.World} (hp : w.preparation = some p)
      (hcore : core = w.core ∨ w.commit sha256 now (some (.putGuestIdentityBinding
        (p.binding sha256 profileId .failed lastError) profileExists)) = some core)
      (hphase : p.phase = .provision .windows profileId) :
    Does sha256 w ⟨core, some { p with phase := .failed }⟩
  | fail {p : Preparation} (hp : w.preparation = some p) :
    Does sha256 w ⟨w.core, some { p with phase := .failed }⟩
  | release : Does sha256 w ⟨w.core, none⟩

theorem advance_ok (h : w.advance sha256 p i = some w') : ∃ next core,
    w.next p i = some next ∧ w.commit sha256 i.now (p.transaction sha256 i) = some core ∧
      w' = ⟨core, some (p.record sha256 i core.store.access next)⟩ := by
  obtain ⟨next, hnext, h⟩ := bind_eq_some_iff.mp h
  obtain ⟨core, hcore, h⟩ := bind_eq_some_iff.mp h
  exact ⟨next, core, hnext, hcore, (some.inj h).symm⟩

theorem record_failed {s : AccessState} :
    { p.record sha256 i s q with phase := .failed } = p.record sha256 i s .failed := by
  unfold Preparation.record
  split <;> rfl

theorem does_of_step (h : (preparations sha256).step w e = some w') : Does sha256 w w' := by
  simp only [preparations, World.step] at h
  split at h
  · obtain ⟨core, hcore, rfl⟩ := map_eq_some_iff.mp h
    exact .alone hcore
  next p hp =>
    split at h
    next hop =>
      obtain ⟨core, hcore, rfl⟩ := map_eq_some_iff.mp h
      exact .other hp hop hcore
    · cases h
  · split at h
    · cases h
      exact .start
    · cases h
  next p hp =>
    obtain ⟨next, core, hnext, hcore, rfl⟩ := advance_ok h
    exact .advance hp hnext (.inl rfl) hcore
  next p hp =>
    obtain ⟨v, hv, rfl⟩ := map_eq_some_iff.mp h
    obtain ⟨next, core, hnext, hcore, rfl⟩ := advance_ok hv
    simp only [World.fail, map_some, record_failed]
    exact .advance hp hnext (.inr rfl) hcore
  next p hp =>
    split at h
    next profileId hphase =>
      cases h
      simp only [hp]
      refine .reject hp ((getD_eq_iff.mp rfl).symm.imp (fun h => h.2.symm) id) hphase
    · cases h
  next p hp =>
    split at h
    · cases h
    · cases h
      simp only [World.fail, hp]
      exact .fail hp
  next p hp =>
    split at h
    · cases h
      exact .release
    · cases h
  · cases h

theorem Does.reachable_core (h : Does sha256 w w') (hw : (sessionStore sha256).Reachable w.core) :
    (sessionStore sha256).Reachable w'.core := by
  have hcommit : ∀ {now op core}, w.commit sha256 now op = some core →
      (sessionStore sha256).Reachable core := by
    intro now op core hcore
    cases op with
    | none => exact some.inj hcore ▸ hw
    | some op => exact hw.step hcore
  cases h with
  | alone hcore | other _ _ hcore => exact hw.step hcore
  | start | fail | release => exact hw
  | advance _ _ _ hcore => exact hcommit hcore
  | reject _ hcore =>
    rcases hcore with rfl | hcore
    · exact hw
    · exact hcommit hcore

theorem core_of_reachable (hw : (preparations sha256).Reachable w) :
    (sessionStore sha256).Reachable w.core := by
  refine hw.invariant (P := fun w => (sessionStore sha256).Reachable w.core) ?_ ?_
  · exact fun w hinit => .init hinit.1
  · exact fun w e w' _ hcore hstep => (does_of_step hstep).reachable_core hcore

def Phase.binds : Phase → Bool
  | .bind .. => true
  | _ => false

theorem before_cleanNext (items : List Item) : (Phase.cleanNext items).before = true := by
  cases items <;> rfl

theorem before_next (h : w.next p i = some q) : q.before = (p.phase.before && !p.phase.binds) := by
  cases hphase : p.phase with
  | session | access | desktop | clean | account | enable =>
    simp only [World.next, hphase, ite_none_right_eq_some, some.injEq] at h
    obtain ⟨-, rfl⟩ := h
    rfl
  | read =>
    simp only [World.next, hphase, ite_none_right_eq_some, some.injEq] at h
    exact h.2 ▸ before_cleanNext _
  | complete =>
    simp only [World.next, hphase, some.injEq] at h
    exact h ▸ before_cleanNext _
  | disconnect ids =>
    cases ids with
    | nil =>
      simp only [World.next, hphase, some.injEq] at h
      exact h ▸ rfl
    | cons id rest =>
      simp only [World.next, hphase] at h
      split at h
      · exact some.inj h ▸ rfl
      · split_ifs at h
        all_goals exact some.inj h ▸ rfl
  | identity =>
    simp only [World.next, hphase] at h
    obtain ⟨d, -, h⟩ := bind_eq_some_iff.mp h
    obtain ⟨os, -, h⟩ := bind_eq_some_iff.mp h
    exact some.inj h ▸ rfl
  | opened | failed => simp [World.next, hphase] at h
  | _ =>
    simp only [World.next, hphase, some.injEq] at h
    exact h ▸ rfl

end Steps

section Invariant

variable {e : SessionCutoff.Event} {now : ℕ}

structure Tracked (sha256 : Sha256) (p : Preparation) (g : Grants) : Prop where
  tied : p.phase ≠ .failed → p.bound = !p.phase.before
  enabled : p.enabled = true → p.bound = true
  held : p.bound = true → p.connection = none → Held sha256 p g
  inserted : ∀ id, p.connection = some id → (g.connection id).isSome = true

theorem connection_of_step {v v' : SessionCutoff.World} {id : String}
    (h : (sessionStore sha256).step v e = some v')
    (hc : (v.store.access.grants.connection id).isSome = true) :
    (v'.store.access.grants.connection id).isSome = true := by
  rcases access_of_apply (step_ok h).1 with hsame | ⟨o, -, ho⟩
  · rwa [hsame]
  · obtain ⟨c, hc⟩ := isSome_iff_exists.mp hc
    obtain ⟨c', hc', -⟩ := (applies_of_apply sha256 ho).change.follows.connection id c hc
    exact isSome_iff_exists.mpr ⟨c', hc'⟩

theorem connection_of_commit {op : Option AccessOp} {id : String}
    (h : w.commit sha256 now op = some core) (hc : (w.store.grants.connection id).isSome = true) :
    (core.store.access.grants.connection id).isSome = true := by
  cases op with
  | none => exact some.inj h ▸ hc
  | some op => exact connection_of_step h hc

theorem apply_of_step (h : (sessionStore sha256).step w.core ⟨.access op, now⟩ = some core) :
    op.apply sha256 w.store = .ok core.store.access := by
  obtain ⟨x, hx, hs⟩ := bind_eq_ok.mp (step_ok h).1
  rw [← Except.ok.inj hs]
  exact hx

theorem apply_of_commit (h : w.commit sha256 now (some op) = some core) :
    op.apply sha256 w.store = .ok core.store.access :=
  apply_of_step h

theorem connection_of_create {session : DesktopConnectionSession} {digest : List UInt8}
    (h : s.createNativeDesktopConnectionSession session digest now = .ok s') :
    (s'.grants.connection session.id).isSome = true := by
  simp only [AccessState.createNativeDesktopConnectionSession,
    AccessState.createDesktopConnectionSession, seq_eq_ok] at h
  obtain ⟨c, hinsert, h⟩ := bind_eq_ok.mp h.2
  cases h
  obtain ⟨-, -, -, rfl⟩ := insertDesktopConnectionSession_ok hinsert
  rw [Grants.connection, find?_isSome]
  exact ⟨_, mem_append_right _ (mem_singleton_self _), beq_self_eq_true _⟩

/-- After the binding is written, the preparation's own transactions keep it. -/
theorem held_of_commit (hkeys : UniqueTokens w.store.grants) (hbound : p.bound = true)
    (hh : Held sha256 p w.store.grants) (hbefore : p.phase.before = false)
    (hinsert : p.phase ≠ .insert)
    (h : w.commit sha256 i.now (p.transaction sha256 i) = some core) :
    Held sha256 (p.watch core.store.access.grants) core.store.access.grants := by
  unfold Preparation.transaction at h
  cases hphase : p.phase with
  | ready profileId =>
    rw [hphase] at h
    exact (hh.put (by decide) (apply_of_commit h)).watch
  | leases | takeover =>
    rw [hphase] at h
    exact (hh.change hkeys hbound rfl (apply_of_commit h)).2
  | insert => exact absurd hphase hinsert
  | provision | account | policy | password | enable | opened | failed =>
    rw [hphase] at h
    exact some.inj h ▸ hh.watch
  | _ =>
    rw [hphase] at hbefore
    cases hbefore

theorem cut_observe {op : GatewayOp} (hop : ∀ o, op ≠ .access o) :
    (p.observe op s s).cut = p.cut := by
  have hno : cutsOff s.grants p.user op = false := by
    unfold cutsOff
    split
    next o => exact absurd rfl (hop o)
    · rfl
  simp [Preparation.observe, hno]

theorem guarded_of_admits (hop : admits p (.access op) = true) (hnative : p.phase.native = false) :
    op.guarded p.vmid = false := by
  unfold admits at hop
  split at hop
  next env a now heq =>
    cases heq
    rw [hnative, Bool.or_false, bne_iff_ne] at hop
    exact beq_eq_false_iff_ne.mpr hop
  next op' _ heq =>
    cases heq
    simpa using hop
  next heq => exact absurd rfl (heq op)

theorem Tracked.native (ht : Tracked sha256 p g) (hbound : p.bound = true) :
    p.phase.native = false := by
  by_contra hnative
  have hbefore : p.phase ≠ .failed ∧ p.phase.before = true := by
    cases hphase : p.phase with
    | recover | clean | disconnect => exact ⟨nofun, rfl⟩
    | _ => simp [hphase, Phase.native] at hnative
  have htied := ht.tied hbefore.1
  rw [hbound, hbefore.2] at htied
  cases htied

theorem Tracked.other (ht : Tracked sha256 p w.store.grants)
    (hw : (sessionStore sha256).Reachable w.core) (hop : admits p e.op = true)
    (h : (sessionStore sha256).step w.core e = some core) :
    Tracked sha256 (p.observe e.op w.store core.store.access) core.store.access.grants where
  tied := ht.tied
  enabled := ht.enabled
  inserted id hid := connection_of_step h (ht.inserted id hid)
  held hbound hnone := by
    have hbound : p.bound = true := hbound
    have hh := ht.held hbound hnone
    obtain ⟨op, now⟩ := e
    by_cases haccess : ∃ o, op = .access o
    · obtain ⟨o, rfl⟩ := haccess
      have hguarded := guarded_of_admits hop (ht.native hbound)
      exact (Held.change (p := p) (sound_of_reachable hw).1.sessionKeys hbound hh hguarded
        (apply_of_step h)).1
    · have hsame := (access_of_apply (step_ok h).1).resolve_right fun ⟨o, ho, _⟩ => haccess ⟨o, ho⟩
      rw [hsame]
      exact hh.watch.of_eq rfl rfl rfl rfl (cut_observe fun o ho => haccess ⟨o, ho⟩)

theorem Tracked.fail (ht : Tracked sha256 p g) (hh : p.bound = true → p.connection = none →
      Held sha256 p g')
    (hc : ∀ id, (g.connection id).isSome = true → (g'.connection id).isSome = true) :
    Tracked sha256 { p with phase := .failed } g' where
  tied h := absurd rfl h
  enabled := ht.enabled
  held hb hn := (hh hb hn).of_eq rfl rfl rfl rfl rfl
  inserted id hid := hc id (ht.inserted id hid)

theorem Tracked.advance {next : Phase} (ht : Tracked sha256 p w.store.grants)
    (hw : (sessionStore sha256).Reachable w.core) (hcore : (sessionStore sha256).Reachable core)
    (hnext : w.next p i = some next) (hq : q = next ∨ q = .failed)
    (h : w.commit sha256 i.now (p.transaction sha256 i) = some core) :
    Tracked sha256 (p.record sha256 i core.store.access q) core.store.access.grants := by
  have hfailed : p.phase ≠ .failed := by
    intro hphase
    simp [World.next, hphase] at hnext
  have htied := ht.tied hfailed
  have hnext' : p.phase.binds = false → q ≠ .failed → p.bound = !q.before := by
    intro hbinds hne
    rw [hq.resolve_right hne, before_next hnext, hbinds, htied]
    simp
  have hheld : p.phase.binds = false → p.phase ≠ .insert → p.bound = true → p.connection = none →
      Held sha256 (p.watch core.store.access.grants) core.store.access.grants := by
    intro hbinds hinsert hbound hnone
    refine held_of_commit (sound_of_reachable hw).1.sessionKeys hbound (ht.held hbound hnone) ?_
      hinsert h
    simpa [hbound] using htied
  have hinserted : ∀ id, p.connection = some id →
      (core.store.access.grants.connection id).isSome = true :=
    fun id hid => connection_of_commit h (ht.inserted id hid)
  cases hphase : p.phase with
  | bind os profileId =>
    have hbefore := before_next hnext
    rw [hphase] at hbefore
    simp only [Preparation.record, hphase]
    refine ⟨fun hne => ?_, fun _ => rfl, fun _ _ => ?_, hinserted⟩
    · rw [hq.resolve_right hne, hbefore]
      rfl
    · simp only [Preparation.transaction, hphase] at h
      exact held_of_put (keyed_of_reachable hcore) (by decide) (apply_of_commit h) rfl rfl rfl
  | insert =>
    simp only [Preparation.transaction, hphase] at h
    simp only [Preparation.record, hphase]
    refine ⟨hnext' (hphase ▸ rfl), ht.enabled, fun _ => nofun, ?_⟩
    rintro id ⟨⟩
    exact connection_of_create (apply_of_commit h)
  | enable =>
    simp only [Preparation.record, hphase]
    exact ⟨hnext' (hphase ▸ rfl), fun _ => htied.trans (hphase ▸ rfl),
      fun hb hn => (hheld (hphase ▸ rfl) (hphase ▸ nofun) hb hn).of_eq rfl rfl rfl rfl rfl,
        hinserted⟩
  | _ =>
    simp only [Preparation.record, hphase]
    exact ⟨hnext' (hphase ▸ rfl), ht.enabled,
      fun hb hn => (hheld (hphase ▸ rfl) (hphase ▸ nofun) hb hn).of_eq rfl rfl rfl rfl rfl,
        hinserted⟩

theorem tracked_of_does (h : Does sha256 w w') (hw : (sessionStore sha256).Reachable w.core)
    (ht : ∀ p, w.preparation = some p → Tracked sha256 p w.store.grants) :
    ∀ p, w'.preparation = some p → Tracked sha256 p w'.store.grants := by
  have hw' := h.reachable_core hw
  cases h with
  | alone | release => rintro p ⟨⟩
  | other hp hop hcore =>
    rintro p ⟨⟩
    exact (ht _ hp).other hw hop hcore
  | start =>
    rintro p ⟨⟩
    exact ⟨fun _ => rfl, nofun, nofun, nofun⟩
  | advance hp hnext hq hcore =>
    rintro p ⟨⟩
    exact (ht _ hp).advance hw hw' hnext hq hcore
  | @reject p _ _ _ _ _ hp hcore hphase =>
    rintro p ⟨⟩
    rcases hcore with rfl | hcore
    · exact (ht _ hp).fail (ht _ hp).held fun _ => id
    · refine (ht _ hp).fail (fun hb hn => ?_) fun _ => connection_of_commit hcore
      exact ((ht _ hp).held hb hn).put (by decide) (apply_of_commit hcore)
  | fail hp =>
    rintro p ⟨⟩
    exact (ht _ hp).fail (ht _ hp).held fun _ => id

theorem tracked_of_reachable (hw : (preparations sha256).Reachable w)
    (hp : w.preparation = some p) : Tracked sha256 p w.store.grants := by
  refine hw.invariant
    (P := fun w => ∀ p, w.preparation = some p → Tracked sha256 p w.store.grants) ?_ ?_ p hp
  · rintro w ⟨-, hnone⟩ p hp
    rw [hnone] at hp
    cases hp
  · exact fun w e w' hw ht hstep => tracked_of_does (does_of_step hstep) (core_of_reachable hw) ht

/-- The credential of a preparation is on record exactly if its connection is inserted, its binding
had a deadline, or a revocation was pending with the binding or is since; the end of a session or of
the access after the binding was written puts it there. -/
theorem enabled_account_covered (hw : (preparations sha256).Reachable w)
    (hp : w.preparation = some p) (henabled : p.enabled = true) :
    (covered p w.store.grants = true ↔
        p.connection.isSome = true ∨ p.deadline = true ∨ p.pending = true) ∧
      (p.cut = true → covered p w.store.grants = true) := by
  have ht := tracked_of_reachable hw hp
  cases hconn : p.connection with
  | some id =>
    have hcovered : covered p w.store.grants = true := by
      simp [covered, hconn, ht.inserted id hconn]
    simp [hcovered]
  | none =>
    have hheld := ht.held (ht.enabled henabled) hconn
    have hiff := hheld.covered_iff (keyed_of_reachable (core_of_reachable hw)) hconn
    refine ⟨by simpa using hiff, fun hcut => hiff.mpr (.inr (hheld.pending_of_cut hcut))⟩

end Invariant

section Sample

def sampleInput : Input := ⟨0, [], true, "connection"⟩

def sampleTransaction (op : AccessOp) : Event := .transaction ⟨.access op, 0⟩

def sampleStart : List Event :=
  (sampleAssignment .windows ++ [sampleLogin]).map sampleTransaction ++
    [.start 100 "user" sampleSession.tokenDigest 0]

/-- The preparation with a logout after some of the steps up to the enabled account. -/
def sampleRun (before after : ℕ) : List Event :=
  sampleStart ++ replicate before (.advance sampleInput) ++
    [sampleTransaction (.revokeNativeSession sampleSession.tokenDigest)] ++
    replicate after (.advance sampleInput) ++ [.fail]

def sampleWorld : World :=
  ⟨⟨⟨⟨⟨[], [], [], [], [], [], [], [], []⟩, ⟨[], [], [], [], [], []⟩⟩, [], [], []⟩, []⟩, none⟩

/-- The user logs out while the account is being provisioned: its revocation is pending. -/
theorem enabled_account_covered_logout :
    ∃ w p, (preparations sampleDigest).Reachable w ∧ w.preparation = some p ∧
      p.enabled = true ∧ p.phase = .failed ∧ p.cut = true ∧ covered p w.store.grants = true := by
  obtain ⟨w, hw, hp⟩ : ∃ w, (preparations sampleDigest).Reachable w ∧
      w.preparation.any (fun p => p.enabled && p.phase == .failed && p.cut) = true :=
    Machine.exists_reachable_of_run sampleWorld (sampleRun 10 8) ⟨⟨rfl, rfl, rfl⟩, rfl⟩
      (by decide +kernel)
  obtain ⟨p, hp, h⟩ := (any_eq_true _ _).mp hp
  simp only [and_eq_true, beq_iff_eq] at h
  exact ⟨w, p, hw, hp, h.1.1, h.1.2, h.2, (enabled_account_covered hw hp h.1.1).2 h.2⟩

/-- The request is cancelled after the account of a new binding was enabled. -/
theorem enabled_account_orphaned :
    ∃ w p, (preparations sampleDigest).Reachable w ∧ w.preparation = some p ∧
      p.enabled = true ∧ p.phase = .failed ∧ covered p w.store.grants = false := by
  obtain ⟨w, hw, hp⟩ : ∃ w, (preparations sampleDigest).Reachable w ∧
      w.preparation.any (fun p => p.enabled && p.phase == .failed &&
        !covered p w.store.grants) = true :=
    Machine.exists_reachable_of_run sampleWorld
      (sampleStart ++ replicate 18 (.advance sampleInput) ++ [.fail]) ⟨⟨rfl, rfl, rfl⟩, rfl⟩
      (by decide +kernel)
  obtain ⟨p, hp, h⟩ := (any_eq_true _ _).mp hp
  simp only [and_eq_true, beq_iff_eq, not_eq_true'] at h
  exact ⟨w, p, hw, hp, h.1.1, h.1.2, h.2⟩

end Sample

end VcWorkspace.Server.WindowsConnection
