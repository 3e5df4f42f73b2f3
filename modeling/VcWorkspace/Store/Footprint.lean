import Mathlib.Data.List.Nodup
import VcWorkspace.Store.Access

/-! # What a transaction touches

Native sessions are added by logins and end with a logout, a new password or a
disabled user. Revocations are acknowledged by one operation, and connections
are added by three. Every other transaction leaves the sessions and the
acknowledgements alone and only moves connections towards their end.

Whoever holds the lock of a desktop writes the Guest identity bindings of the
desktop and acknowledges their revocations. Every other transaction leaves a
binding as it is, or disables it and requests its revocation.
-/

namespace VcWorkspace.Store

open Transition AccessTables AccessState List

def GuestIdentityRevocation.account (r : GuestIdentityRevocation) : ℕ × String × String :=
  (r.desktopVmid, r.userId, r.guestUsername)

def GuestIdentityBinding.key (b : GuestIdentityBinding) : ℕ × String := (b.desktopVmid, b.userId)

/-- The operations on the accounts of a desktop that only the holder of its lock runs. -/
def AccessOp.guarded (vmid : ℕ) : AccessOp → Bool
  | .putGuestIdentityBinding binding _ => binding.desktopVmid == vmid
  | .completeGuestIdentityRevocation desktop .. => desktop == vmid
  | .createDesktopConnectionSession session _
  | .createNativeDesktopConnectionSession session .. => session.desktopVmid == vmid
  | .completeNativeGuestAccountOperation _ a _ => a.desktopVmid == vmid
  | _ => false

def AccessOp.lends : AccessOp → Bool
  | .createDesktopLease .. => true
  | _ => false

def AccessOp.native : AccessOp → Bool
  | .bindNativeGuestAccount .. | .beginNativeGuestCredential .. | .retireNativeGuestCredential ..
  | .revokeNativeGuestAccount .. | .completeNativeGuestAccountOperation ..
  | .commitNativeGuestRecovery .. => true
  | _ => false

namespace Footprint

section Effects

/-- A later version of a connection: it goes on, or towards its end. -/
structure Moves (c c' : DesktopConnectionSession) : Prop where
  key : c'.id = c.id
  user : c'.userId = c.userId
  desktop : c'.desktopVmid = c.desktopVmid
  expires : c'.expiresAt = c.expiresAt
  digest : c'.nativeSessionDigest = c.nativeSessionDigest
  active : c'.state = .active → c.state = .active
  revoking : c'.state = .revoking → c.state = .active ∨ c.state = .revoking
  required : c.terminationRequired = true → c'.terminationRequired = true

/-- A user has one binding to a desktop, an account one row in the queue, and a connection one
identifier. -/
structure Keyed (g : Grants) : Prop where
  bindings : (g.bindings.map (·.key)).Nodup
  revocations : (g.revocations.map (·.account)).Nodup
  connections : (g.connections.map (·.id)).Nodup

/-- A later version of a revocation, with at most further requests. -/
structure Advances (r r' : GuestIdentityRevocation) : Prop where
  account : r'.account = r.account
  requested : r.queue.requested ≤ r'.queue.requested
  completed : r'.queue.completed = r.queue.completed

structure Requests (rows rows' : List GuestIdentityRevocation) : Prop where
  kept : ∀ r ∈ rows, ∃ r' ∈ rows', Advances r r'
  origin : ∀ r' ∈ rows', (∃ r ∈ rows, Advances r r') ∨
    ((∀ r ∈ rows, r.account ≠ r'.account) ∧ r'.queue.completed = 0)

/-- The bindings of a desktop stay, or are disabled with their revocation requested. -/
def Binds (vmid : ℕ) (g g' : Grants) : Prop :=
  ∀ b ∈ g.bindings, b.desktopVmid = vmid → b ∈ g'.bindings ∨
    ({ b with state := .disabled } ∈ g'.bindings ∧ g'.accountRevocationPending b = true)

/-- What every operation keeps, and what it leaves to those on the accounts and the leases of a
desktop. -/
structure Spares (op : AccessOp) (g g' : Grants) : Prop where
  keyed : Keyed g → Keyed g'
  binds : ∀ vmid, op.guarded vmid = false → Binds vmid g g'
  accounts : op.native = false → g'.accounts = g.accounts
  leases : op.lends = false → ∀ l ∈ g'.leases, l.2.state = .active → l ∈ g.leases

/-- The connections move in their places. -/
structure Shifts (g g' : Grants) : Prop where
  ids : g'.connections.map (·.id) = g.connections.map (·.id)
  connections : ∀ c' ∈ g'.connections, ∃ c ∈ g.connections, Moves c c'
  connection : ∀ id c, g.connection id = some c → ∃ c', g'.connection id = some c' ∧ Moves c c'

structure Settles (op : AccessOp) (g g' : Grants) : Prop extends Spares op g g', Shifts g g' where
  requests : Requests g.revocations g'.revocations

/-- The sessions and the acknowledgements stay, and connections only move. -/
structure Frame (op : AccessOp) (g g' : Grants) : Prop extends Settles op g g' where
  sessions : g'.nativeSessions = g.nativeSessions

def ends : AccessOp → NativeSession → Bool
  | .revokeNativeSession digest, n => n.tokenDigest == digest
  | .setUserPassword user _, n | .setUserDisabled user true, n => n.userId == user
  | _, _ => false

inductive Cuts (g : Grants) : AccessOp → String → Prop
  | revokeNativeSession {n : NativeSession} (hn : n ∈ g.nativeSessions) :
    Cuts g (.revokeNativeSession n.tokenDigest) n.userId
  | setUserPassword {user hash : String} : Cuts g (.setUserPassword user hash) user
  | setUserDisabled {user : String} : Cuts g (.setUserDisabled user true) user

def UniqueTokens (g : Grants) : Prop :=
  ∀ n ∈ g.nativeSessions, ∀ m ∈ g.nativeSessions, n.tokenDigest = m.tokenDigest → n = m

/-- The end of native sessions of a user, with all the user's active connections. -/
structure Cutoff (op : AccessOp) (user : String) (g g' : Grants) : Prop
    extends Settles op g g' where
  sessions : g'.nativeSessions = g.nativeSessions.filter fun n => !ends op n
  owner : UniqueTokens g → ∀ n ∈ g.nativeSessions, ends op n = true → n.userId = user
  terminated : ∀ c ∈ g.connections, c.userId = user → c.state = .active →
    c.terminate ∈ g'.connections
  inactive : ∀ c' ∈ g'.connections, c'.userId = user → c'.state ≠ .active

structure Opens (op : AccessOp) (g g' : Grants) : Prop extends Spares op g g' where
  sessions : g'.nativeSessions = g.nativeSessions
  connections : ∃ c, g'.connections = g.connections ++ [c] ∧
    ∀ d, c.nativeSessionDigest = some d →
      ∃ n ∈ g.nativeSessions, n.tokenDigest = d ∧ n.userId = c.userId
  requests : Requests g.revocations g'.revocations

/-- The revocation of an account is acknowledged up to the revision that is still requested. -/
structure Acknowledges (account : ℕ × String × String) (revision : ℕ) (g g' : Grants) : Prop
    extends Shifts g g' where
  sessions : g'.nativeSessions = g.nativeSessions
  found : ∃ r ∈ g.revocations, r.account = account ∧ r.queue.requested = revision ∧
    r.queue.completed < revision
  revocations : g'.revocations = updateWhere
    (fun r => r.account == account && (r.queue.complete revision).isSome)
    (fun r => { r with queue := (r.queue.complete revision).getD r.queue }) g.revocations

/-- What a transaction does to sessions, connections and revocations. -/
inductive Change (s s' : AccessState) : AccessOp → Prop
  | frame {op : AccessOp} (h : Frame op s.grants s'.grants) : Change s s' op
  | login {digest : List UInt8} {user : String} {hash : Option String} {expiresAt now : ℕ}
      (hnew : ∀ n ∈ s.grants.nativeSessions, n.tokenDigest ≠ digest)
      (h : s'.grants =
        { s.grants with
          nativeSessions := s.grants.nativeSessions ++ [⟨digest, user, expiresAt⟩] }) :
    Change s s' (.createVerifiedLoginSession digest user hash expiresAt now)
  | cut {op : AccessOp} {user : String} (hc : Cuts s.grants op user)
      (h : Cutoff op user s.grants s'.grants) : Change s s' op
  | opens {op : AccessOp} (h : Opens op s.grants s'.grants) : Change s s' op
  | acknowledges {vmid : ℕ} {user guest : String} {revision now : ℕ}
      (hs : Spares (.completeGuestIdentityRevocation vmid user guest revision now)
        s.grants s'.grants)
      (h : Acknowledges (vmid, user, guest) revision s.grants s'.grants) :
    Change s s' (.completeGuestIdentityRevocation vmid user guest revision now)

/-- A connection is never forgotten, and only a login adds a session. -/
structure Follows (login : Option NativeSession) (g g' : Grants) : Prop where
  connection : ∀ id c, g.connection id = some c → ∃ c', g'.connection id = some c' ∧ Moves c c'
  sessions : ∀ n ∈ g'.nativeSessions, n ∈ g.nativeSessions ∨ login = some n

/-- A transaction that takes no access away and gives nothing out without a right to it. -/
structure Keeps (s s' : AccessState) : Prop where
  access : ∀ u d, s.access u d = true → s'.access u d = true
  connections : ∀ c' ∈ s'.grants.connections, (∃ c ∈ s.grants.connections, Moves c c') ∨
    s'.access c'.userId c'.desktopVmid = true
  leases : ∀ l' ∈ s'.grants.leases, l'.2.state = .active →
    (l' ∈ s.grants.leases ∧ (s.tables.agentAccess l'.2.agentId l'.1 = true →
      s'.tables.agentAccess l'.2.agentId l'.1 = true)) ∨
    s'.tables.agentAccess l'.2.agentId l'.1 = true

/-- What a transaction does to the rights behind what is given out. -/
inductive Effect (op : AccessOp) (s s' : AccessState) : Prop
  | commit (t : AccessState) (hc : t.commitAccessChange = .ok s')
      (hop : ∀ vmid, op.guarded vmid = false) (hs : Settles op s.grants t.grants)
  | keep (h : Keeps s s')

/-- What a transaction does to the grants, and to the rights behind them. -/
structure Applies (op : AccessOp) (s s' : AccessState) : Prop where
  change : Change s s' op
  effect : Effect op s s'

end Effects

section Connections

variable {c : DesktopConnectionSession}

theorem Moves.refl (c : DesktopConnectionSession) : Moves c c where
  key := rfl
  user := rfl
  desktop := rfl
  expires := rfl
  digest := rfl
  active := id
  revoking := .inr
  required := id

theorem Moves.trans {c' c'' : DesktopConnectionSession} (h : Moves c c') (h' : Moves c' c'') :
    Moves c c'' where
  key := h'.key.trans h.key
  user := h'.user.trans h.user
  desktop := h'.desktop.trans h.desktop
  expires := h'.expires.trans h.expires
  digest := h'.digest.trans h.digest
  active := h.active ∘ h'.active
  revoking hst := (h'.revoking hst).elim (.inl ∘ h.active) h.revoking
  required := h'.required ∘ h.required

theorem isOpen_iff : c.isOpen = true ↔ c.state = .active ∨ c.state = .revoking := by
  simp [DesktopConnectionSession.isOpen]

theorem moves_terminate (h : c.isOpen = true) : Moves c c.terminate where
  key := rfl
  user := rfl
  desktop := rfl
  expires := rfl
  digest := rfl
  active hst := nomatch hst
  revoking _ := isOpen_iff.mp h
  required _ := rfl

theorem moves_beginRevoke (h : c.isOpen = true) : Moves c c.beginRevoke where
  key := rfl
  user := rfl
  desktop := rfl
  expires := rfl
  digest := rfl
  active hst := nomatch hst
  revoking _ := isOpen_iff.mp h
  required := id

theorem moves_close (required : Bool) (now : ℕ) : Moves c (c.close required now) where
  key := rfl
  user := rfl
  desktop := rfl
  expires := rfl
  digest := rfl
  active hst := by
    have hclosed := isOpen_close (c := c) required now
    simp [DesktopConnectionSession.isOpen, hst] at hclosed
  revoking hst := by
    have hclosed := isOpen_close (c := c) required now
    simp [DesktopConnectionSession.isOpen, hst] at hclosed
  required hr := by simp [DesktopConnectionSession.close, hr]

theorem moves_markClosed {state : ConnectionState} (h : state = .revoked ∨ state = .expired) :
    Moves c (c.markClosed state) where
  key := rfl
  user := rfl
  desktop := rfl
  expires := rfl
  digest := rfl
  active hst := by
    change state = .active at hst
    simp [hst] at h
  revoking hst := by
    change state = .revoking at hst
    simp [hst] at h
  required := id

end Connections

variable {s s' : AccessState} {g g' g'' : Grants} {op : AccessOp} {vmid : ℕ}
  {b : GuestIdentityBinding}

section Requests

variable {rows rows' rows'' : List GuestIdentityRevocation} {r r' r'' : GuestIdentityRevocation}

theorem Advances.refl (r : GuestIdentityRevocation) : Advances r r := ⟨rfl, le_rfl, rfl⟩

theorem Advances.trans (h : Advances r r') (h' : Advances r' r'') : Advances r r'' :=
  ⟨h'.account.trans h.account, h.requested.trans h'.requested, h'.completed.trans h.completed⟩

theorem Requests.refl (rows : List GuestIdentityRevocation) : Requests rows rows :=
  ⟨fun r hr => ⟨r, hr, .refl r⟩, fun r hr => .inl ⟨r, hr, .refl r⟩⟩

theorem Requests.trans (h : Requests rows rows') (h' : Requests rows' rows'') :
    Requests rows rows'' := by
  constructor
  · intro r hr
    obtain ⟨r₁, hr₁, ha₁⟩ := h.kept r hr
    obtain ⟨r₂, hr₂, ha₂⟩ := h'.kept r₁ hr₁
    exact ⟨r₂, hr₂, ha₁.trans ha₂⟩
  · intro r₂ hr₂
    rcases h'.origin r₂ hr₂ with ⟨r₁, hr₁, ha₂⟩ | ⟨hnew, hzero⟩
    · rcases h.origin r₁ hr₁ with ⟨r, hr, ha₁⟩ | ⟨hnew, hzero⟩
      · exact .inl ⟨r, hr, ha₁.trans ha₂⟩
      · exact .inr ⟨fun r hr => ha₂.account ▸ hnew r hr, ha₂.completed.trans hzero⟩
    · -- a row of the same account would have been kept
      refine .inr ⟨fun r hr heq => ?_, hzero⟩
      obtain ⟨r₁, hr₁, ha₁⟩ := h.kept r hr
      exact hnew r₁ hr₁ (ha₁.account.trans heq)

theorem concerns_iff : r.concerns b = true ↔
    r.account = (b.desktopVmid, b.userId, b.guestUsername) := by
  simp [GuestIdentityRevocation.concerns, GuestIdentityRevocation.account, and_assoc]

theorem pending_request (q : Queue) : q.request.pending = true :=
  decide_eq_true (Nat.lt_succ_of_le q.ordered)

theorem accountRevocationPending_iff : g.accountRevocationPending b = true ↔
    ∃ r ∈ g.revocations, r.concerns b = true ∧ r.queue.pending = true := by
  simp [Grants.accountRevocationPending]

theorem Requests.pending (hreq : Requests g.revocations g'.revocations)
    (h : g.accountRevocationPending b = true) : g'.accountRevocationPending b = true := by
  obtain ⟨r, hr, hconcerns, hpend⟩ := accountRevocationPending_iff.mp h
  obtain ⟨r', hr', ha⟩ := hreq.kept r hr
  refine accountRevocationPending_iff.mpr ⟨r', hr', concerns_iff.mpr ?_, ?_⟩
  · rw [ha.account, concerns_iff.mp hconcerns]
  · simp only [Queue.pending, decide_eq_true_eq] at hpend ⊢
    exact ha.completed ▸ hpend.trans_le ha.requested

end Requests

variable {reason : RevocationReason}

section Frame

variable {p : DesktopConnectionSession → Bool}
  {f : DesktopConnectionSession → DesktopConnectionSession} {state : LeaseState} {bump : Bool}

theorem Binds.of_eq (h : g'.bindings = g.bindings) : Binds vmid g g' :=
  fun _ hb _ => .inl (h ▸ hb)

theorem mem_updateWhere_of_vmid {p : GuestIdentityBinding → Bool}
    {f : GuestIdentityBinding → GuestIdentityBinding} {rows : List GuestIdentityBinding}
    (hp : ∀ b, p b = true → b.desktopVmid ≠ vmid) (hb : b ∈ rows) (hd : b.desktopVmid = vmid) :
    b ∈ updateWhere p f rows := by
  refine mem_updateWhere.mpr ⟨b, hb, .inr ⟨?_, rfl⟩⟩
  by_contra hsel
  exact hp b (by simpa using hsel) hd

theorem Keyed.of_eq (hb : g'.bindings.map (·.key) = g.bindings.map (·.key))
    (hr : g'.revocations.map (·.account) = g.revocations.map (·.account))
    (hc : g'.connections.map (·.id) = g.connections.map (·.id)) (h : Keyed g) : Keyed g' :=
  ⟨hb ▸ h.bindings, hr ▸ h.revocations, hc ▸ h.connections⟩

theorem moves_of_mem_updateWhere {rows : List DesktopConnectionSession}
    (hf : ∀ c, p c = true → Moves c (f c)) :
    ∀ c' ∈ updateWhere p f rows, ∃ c ∈ rows, Moves c c' := by
  intro c' hc'
  obtain ⟨c, hc, ⟨hp, rfl⟩ | ⟨-, rfl⟩⟩ := mem_updateWhere.mp hc'
  · exact ⟨c, hc, hf c hp⟩
  · exact ⟨_, hc, .refl _⟩

theorem Shifts.of_eq (h : g'.connections = g.connections) : Shifts g g' where
  ids := h ▸ rfl
  connections c' hc := ⟨c', h ▸ hc, .refl c'⟩
  connection id c hc := ⟨c, by rw [Grants.connection, h]; exact hc, .refl c⟩

theorem Shifts.of_update (hc : g'.connections = updateWhere p f g.connections)
    (hf : ∀ c, p c = true → Moves c (f c)) : Shifts g g' where
  ids := hc ▸ map_updateWhere fun c hp => (hf c hp).key
  connections := hc ▸ moves_of_mem_updateWhere hf
  connection id c h := by
    refine ⟨if p c then f c else c, ?_, ?_⟩
    · rw [Grants.connection, hc, find_updateWhere fun c hp => by rw [(hf c hp).key],
        show g.connections.find? _ = some c from h, Option.map_some]
    · split
      next hp => exact hf c hp
      · exact .refl c

theorem Shifts.trans (h : Shifts g g') (h' : Shifts g' g'') : Shifts g g'' where
  ids := h'.ids.trans h.ids
  connections c hc := by
    obtain ⟨c₁, hc₁, hm₁⟩ := h'.connections c hc
    obtain ⟨c₀, hc₀, hm₀⟩ := h.connections c₁ hc₁
    exact ⟨c₀, hc₀, hm₀.trans hm₁⟩
  connection id c hc := by
    obtain ⟨c₁, hc₁, hm₁⟩ := h.connection id c hc
    obtain ⟨c₂, hc₂, hm₂⟩ := h'.connection id c₁ hc₁
    exact ⟨c₂, hc₂, hm₁.trans hm₂⟩

theorem Settles.of_shifts (hs : Shifts g g') (hr : g'.revocations = g.revocations)
    (hb : g'.bindings = g.bindings) (ha : op.native = false → g'.accounts = g.accounts)
    (hl : op.lends = false → ∀ l ∈ g'.leases, l.2.state = .active → l ∈ g.leases) :
    Settles op g g' :=
  ⟨⟨.of_eq (hb ▸ rfl) (hr ▸ rfl) hs.ids, fun _ _ => .of_eq hb, ha, hl⟩, hs, hr ▸ .refl _⟩

theorem Settles.trans (h : Settles op g g') (h' : Settles op g' g'') : Settles op g g'' where
  keyed := h'.keyed ∘ h.keyed
  binds vmid hg b hb hd := by
    rcases h.binds vmid hg b hb hd with hb | ⟨hb, hpend⟩
    · exact h'.binds vmid hg b hb hd
    · -- a disabled binding is disabled again at most
      exact .inr ⟨(h'.binds vmid hg _ hb hd).elim id (·.1), h'.requests.pending hpend⟩
  accounts hn := (h'.accounts hn).trans (h.accounts hn)
  leases hop l hl ha := h.leases hop l (h'.leases hop l hl ha) ha
  toShifts := h.toShifts.trans h'.toShifts
  requests := h.requests.trans h'.requests

theorem Frame.trans (h : Frame op g g') (h' : Frame op g' g'') : Frame op g g'' :=
  ⟨h.toSettles.trans h'.toSettles, h'.sessions.trans h.sessions⟩

theorem Frame.refl (g : Grants) : Frame op g g :=
  ⟨.of_shifts (.of_eq rfl) rfl rfl (fun _ => rfl) fun _ _ h _ => h, rfl⟩

theorem Frame.of_update (hf : ∀ c, p c = true → Moves c (f c)) :
    Frame op g (g.updateConnections p f) :=
  ⟨.of_shifts (.of_update rfl hf) rfl rfl (fun _ => rfl) fun _ _ h _ => h, rfl⟩

theorem mem_of_closeLeases {p : ℕ → DesktopLease → Bool}
    (hs : state ≠ .active) {l : ℕ × DesktopLease} (h : l ∈ (g.closeLeases p state bump).leases)
    (ha : l.2.state = .active) : l ∈ g.leases ∧ p l.1 l.2 = false := by
  obtain ⟨l₀, hl, ⟨hp, rfl⟩ | ⟨hp, rfl⟩⟩ := mem_updateWhere.mp h
  · exact absurd ha hs
  · simp only [ha] at hp
    exact ⟨hl, hp⟩

theorem frame_closeLeases {p : ℕ → DesktopLease → Bool} (hs : state ≠ .active) :
    Frame op g (g.closeLeases p state bump) :=
  ⟨.of_shifts (.of_eq rfl) rfl rfl (fun _ => rfl) fun _ _ h ha => (mem_of_closeLeases hs h ha).1,
    rfl⟩

theorem pending_of_selected {p : GuestIdentityBinding → Bool}
    (h : g.queueGuestIdentityRevocations p reason = .ok g')
    (hb : b ∈ g.bindings) (hp : p b = true) : g'.accountRevocationPending b = true := by
  simp only [Grants.queueGuestIdentityRevocations, seq_eq_ok] at h
  cases h.2
  have hmem : b ∈ g.bindings.filter p := mem_filter.mpr ⟨hb, hp⟩
  apply accountRevocationPending_iff.mpr
  cases hk : g.revocations.any (·.concerns b) with
  | true =>
    -- the account has a queue, which gets a new request
    obtain ⟨r, hr, hc⟩ := any_eq_true.mp hk
    have hsel : (g.bindings.filter p).any r.concerns = true := any_eq_true.mpr ⟨b, hmem, hc⟩
    exact ⟨_, mem_append_left _ (mem_updateWhere.mpr ⟨r, hr, .inl ⟨hsel, rfl⟩⟩), hc,
      pending_request _⟩
  | false =>
    refine ⟨_, mem_append_right _ (mem_map.mpr ⟨b, ?_, rfl⟩), ?_, rfl⟩
    · exact mem_filter.mpr ⟨hmem, by simp [hk]⟩
    · simp [GuestIdentityRevocation.concerns]

theorem keyed_queue {p : GuestIdentityBinding → Bool}
    (h : g.queueGuestIdentityRevocations p reason = .ok g') (hk : Keyed g) : Keyed g' := by
  simp only [Grants.queueGuestIdentityRevocations, seq_eq_ok] at h
  cases h.2
  refine ⟨nodup_updateWhere (fun _ _ => rfl) hk.bindings, ?_, hk.connections⟩
  rw [map_append, map_map]
  refine nodup_append.mpr ⟨nodup_updateWhere (fun _ _ => rfl) hk.revocations, ?_, ?_⟩
  · -- the key of a binding is part of its account
    apply Nodup.of_map fun a => (a.1, a.2.1)
    rw [map_map]
    exact hk.bindings.sublist ((filter_sublist.trans filter_sublist).map _)
  · intro a ha a' ha' heq
    obtain ⟨r, hr, rfl⟩ := mem_map.mp ha
    obtain ⟨b, hb, rfl⟩ := mem_map.mp ha'
    have hnone := (mem_filter.mp hb).2
    simp only [Bool.not_eq_true', any_eq_false, concerns_iff] at hnone
    obtain ⟨r₀, hr₀, ⟨-, rfl⟩ | ⟨-, rfl⟩⟩ := mem_updateWhere.mp hr
    · exact hnone r₀ hr₀ heq
    · exact hnone _ hr₀ heq

theorem frame_queue {p : GuestIdentityBinding → Bool}
    (h : g.queueGuestIdentityRevocations p reason = .ok g') : Frame op g g' := by
  have hkeyed := keyed_queue h
  have hpend := fun b hb hp => pending_of_selected (b := b) h hb hp
  simp only [Grants.queueGuestIdentityRevocations, seq_eq_ok] at h
  cases h.2
  refine ⟨⟨⟨hkeyed, fun _ _ b hb _ => ?_, fun _ => rfl, fun _ _ h _ => h⟩, .of_eq rfl,
    fun r hr => ?_, fun r' hr' => ?_⟩, rfl⟩
  · cases hp : p b with
    | true => exact .inr ⟨mem_updateWhere.mpr ⟨b, hb, .inl ⟨hp, rfl⟩⟩, hpend b hb hp⟩
    | false => exact .inl (mem_updateWhere.mpr ⟨b, hb, .inr ⟨hp, rfl⟩⟩)
  · obtain ⟨r', hr', rfl | rfl⟩ := exists_updateWhere (p := fun r =>
      (g.bindings.filter p).any r.concerns)
      (f := fun r => { r with queue := r.queue.request, reason := reason }) hr
    · exact ⟨_, mem_append_left _ hr', .refl _⟩
    · exact ⟨_, mem_append_left _ hr', rfl, Nat.le_succ _, rfl⟩
  · rcases mem_append.mp hr' with hold | hnew
    · obtain ⟨r, hr, ⟨-, rfl⟩ | ⟨-, rfl⟩⟩ := mem_updateWhere.mp hold
      · exact .inl ⟨r, hr, rfl, Nat.le_succ _, rfl⟩
      · exact .inl ⟨_, hr, .refl _⟩
    · -- only an account without a row gets a new one
      obtain ⟨b, hb, rfl⟩ := mem_map.mp hnew
      have hnone := (mem_filter.mp hb).2
      simp only [Bool.not_eq_true', any_eq_false, concerns_iff] at hnone
      exact .inr ⟨hnone, rfl⟩

theorem commit_ok (h : s.commitAccessChange = .ok s') : s'.tables = s.tables ∧
    ∃ g, s.grants.queueGuestIdentityRevocations
        (fun b => b.state != .disabled && !s.access b.userId b.desktopVmid) .accessRemoved = .ok g ∧
      s'.grants = (g.updateConnections
        (fun c => c.isOpen && !s.access c.userId c.desktopVmid) (·.terminate)).closeLeases
          (fun d l => !s.tables.agentAccess l.agentId d) .revoked true := by
  obtain ⟨g, hg, h⟩ := bind_eq_ok.mp h
  cases h
  exact ⟨rfl, g, hg, rfl⟩

theorem frame_commit (h : s.commitAccessChange = .ok s') : Frame op s.grants s'.grants := by
  obtain ⟨-, g, hq, hg⟩ := commit_ok h
  rw [hg]
  refine (frame_queue hq).trans (Frame.trans (.of_update fun c hc => ?_)
    (frame_closeLeases (by decide)))
  simp only [Bool.and_eq_true] at hc
  exact moves_terminate hc.1

theorem frame_beginRevoke : Frame op s.grants (s.beginRevokeDesktopConnections p).grants := by
  refine Frame.of_update fun c hc => ?_
  simp only [Bool.and_eq_true] at hc
  exact moves_beginRevoke hc.1

theorem frame_accounts {rows : List NativeGuestRow} (hn : op.native = true) :
    Frame op g { g with accounts := rows } :=
  ⟨.of_shifts (.of_eq rfl) rfl rfl (fun hno => nomatch hn.symm.trans hno) fun _ _ h _ => h, rfl⟩

theorem Settles.effect (hop : op.lends = false) (h : Settles op s.grants g) :
    Effect op s ⟨s.tables, g⟩ :=
  .keep ⟨fun _ _ => id, fun c hc => .inl (h.connections c hc),
    fun l hl ha => .inl ⟨h.leases hop l hl ha, id⟩⟩

theorem Frame.applies (hop : op.lends = false) (h : Frame op s.grants g) :
    Applies op s ⟨s.tables, g⟩ :=
  ⟨.frame h, h.toSettles.effect hop⟩

theorem applies_commit {t : AccessState} (hop : ∀ vmid, op.guarded vmid = false)
    (h : t.commitAccessChange = .ok s') (hf : Frame op s.grants t.grants) : Applies op s s' :=
  ⟨.frame (hf.trans (frame_commit h)), .commit t h hop hf.toSettles⟩

theorem applies_extendAccess {x : Except StoreError AccessTables}
    (hx : ∀ t, x = .ok t → s.tables.Extends t) (h : s.extendAccess x = .ok s') :
    Applies op s s' := by
  obtain ⟨t, ht, h⟩ := bind_eq_ok.mp h
  cases h
  exact ⟨.frame (.refl _), .keep ⟨fun _ _ => (hx t ht).effectiveUserDesktopAccess,
    fun c hc => .inl ⟨c, hc, .refl c⟩, fun _ hl _ => .inl ⟨hl, (hx t ht).agentAccess⟩⟩⟩

theorem applies_putGuestIdentityBinding {binding : GuestIdentityBinding} {profileExists : Bool}
    (h : s.putGuestIdentityBinding binding profileExists = .ok s') :
    Applies (.putGuestIdentityBinding binding profileExists) s s' := by
  simp only [putGuestIdentityBinding, seq_eq_ok] at h
  cases h.2.2.2
  refine Frame.applies rfl ⟨⟨⟨fun hk => ⟨nodup_upsert (fun _ _ => rfl) (fun b _ hb heq => ?_)
    hk.bindings, hk.revocations, hk.connections⟩,
    fun vmid hg b hb hd => .inl (mem_upsert hb ?_), fun _ => rfl, fun _ _ h _ => h⟩,
    .of_eq rfl, .refl _⟩, rfl⟩
  · obtain ⟨hd, hu⟩ := Prod.mk.inj heq
    simp [hd, hu] at hb
  · simp only [AccessOp.guarded, beq_eq_false_iff_ne] at hg
    simp [hd, hg.symm]

theorem applies_updateAccount {a : NativeGuestAccount}
    {f : NativeGuestRow → Except StoreError NativeGuestRow} (hn : op.native = true)
    (hop : op.lends = false) (h : s.updateAccount a f = .ok s') : Applies op s s' := by
  obtain ⟨row, row', -, -, rfl⟩ := updateAccount_ok h
  exact (frame_accounts hn).applies hop

end Frame

variable {user : String}

section Cutoff

variable {p : GuestIdentityBinding → Bool} {n : NativeSession} {digest : List UInt8}

theorem Cutoff.frame (h : Cutoff op user g g') (hf : Frame op g' g'')
    (ht : ∀ c ∈ g'.connections, c.terminate = c → c ∈ g''.connections) :
    Cutoff op user g g'' where
  toSettles := h.toSettles.trans hf.toSettles
  sessions := hf.sessions.trans h.sessions
  owner := h.owner
  terminated c hc hu ha := ht _ (h.terminated c hc hu ha) rfl
  inactive c hc hu ha := by
    obtain ⟨c₁, hc₁, hm⟩ := hf.connections c hc
    exact h.inactive c₁ hc₁ (hm.user ▸ hu) (hm.active ha)

theorem cutoff_delete {q : DesktopConnectionSession → Bool}
    (hp : UniqueTokens g → ∀ n ∈ g.nativeSessions, ends op n = true → n.userId = user)
    (hq : ∀ c, q c = true → c.userId = user ∧ c.isOpen = true)
    (hall : ∀ c, c.userId = user → c.state = .active → q c = true) :
    Cutoff op user g ((g.deleteSessions (ends op)).updateConnections q (·.terminate)) where
  toSettles := .of_shifts (.of_update rfl fun c hc => moves_terminate (hq c hc).2) rfl rfl
    (fun _ => rfl) fun _ _ h _ => h
  sessions := rfl
  owner := hp
  terminated c hc hu ha := mem_updateWhere.mpr ⟨c, hc, .inl ⟨hall c hu ha, rfl⟩⟩
  inactive c' hc' hu ha := by
    obtain ⟨c, -, ⟨-, rfl⟩ | ⟨hqc, rfl⟩⟩ := mem_updateWhere.mp hc'
    · cases ha
    · rw [hall _ hu ha] at hqc
      cases hqc

theorem connections_queue (h : g.queueGuestIdentityRevocations p reason = .ok g') :
    g'.connections = g.connections := by
  simp only [Grants.queueGuestIdentityRevocations, seq_eq_ok] at h
  cases h.2
  rfl

theorem terminated_of_commit (h : s.commitAccessChange = .ok s') {c : DesktopConnectionSession}
    (hc : c ∈ s.grants.connections) (ht : c.terminate = c) : c ∈ s'.grants.connections := by
  obtain ⟨-, g, hq, hg⟩ := commit_ok h
  rw [← connections_queue hq] at hc
  rw [hg]
  obtain ⟨c', hc', rfl | rfl⟩ := exists_updateWhere
    (p := fun c => c.isOpen && !s.access c.userId c.desktopVmid) (f := (·.terminate)) hc
  · exact hc'
  · exact ht ▸ hc'

theorem Cutoff.commit {t : AccessState} (hop : ∀ vmid, op.guarded vmid = false)
    (h : t.commitAccessChange = .ok s') (hcut : Cutoff op user s.grants t.grants) :
    Cutoff op user s.grants s'.grants ∧ Effect op s s' :=
  ⟨hcut.frame (frame_commit h) fun _ hc => terminated_of_commit h hc,
    .commit t h hop hcut.toSettles⟩

theorem cutoff_setUserDisabled (h : s.setUserDisabled user true = .ok s') :
    Cutoff (.setUserDisabled user true) user s.grants s'.grants ∧
      Effect (.setUserDisabled user true) s s' := by
  obtain ⟨t, -, h⟩ := bind_eq_ok.mp h
  refine Cutoff.commit (fun _ => rfl) h (cutoff_delete (q := fun c => c.userId == user &&
    c.state == .active) (fun _ n _ hn => eq_of_beq hn) (fun c hc => ?_) fun _ hu ha => ?_)
  · simp only [Bool.and_eq_true, beq_iff_eq] at hc
    exact ⟨hc.1, isOpen_iff.mpr (.inl hc.2)⟩
  · simp [hu, ha]

theorem cutoff_open (op : AccessOp)
    (hp : UniqueTokens g → ∀ n ∈ g.nativeSessions, ends op n = true → n.userId = user) :
    Cutoff op user g ((g.deleteSessions (ends op)).updateConnections
      (fun c => c.userId == user && c.isOpen) (·.terminate)) := by
  refine cutoff_delete hp (fun c hc => ?_) fun _ hu ha => ?_
  · simpa using hc
  · simp [hu, isOpen_iff.mpr (.inl ha)]

theorem Cutoff.queue (h : Cutoff op user g g')
    (hq : g'.queueGuestIdentityRevocations p reason = .ok g'') : Cutoff op user g g'' :=
  h.frame (frame_queue hq) fun _ hc _ => connections_queue hq ▸ hc

theorem cutoff_setUserPassword {hash : String} (h : s.setUserPassword user hash = .ok s') :
    Cutoff (.setUserPassword user hash) user s.grants s'.grants ∧
      Effect (.setUserPassword user hash) s s' := by
  simp only [setUserPassword, seq_eq_ok] at h
  obtain ⟨t, -, h⟩ := bind_eq_ok.mp h.2
  obtain ⟨g, hq, h⟩ := bind_eq_ok.mp h
  exact Cutoff.commit (fun _ => rfl) h ((cutoff_open (.setUserPassword user hash)
    fun _ n _ hn => eq_of_beq hn).queue hq)

theorem UniqueTokens.of_subset (h : UniqueTokens g)
    (hn : ∀ n ∈ g'.nativeSessions, n ∈ g.nativeSessions) : UniqueTokens g' :=
  fun n hmem m hmem' heq => h n (hn n hmem) m (hn m hmem') heq

theorem UniqueTokens.find (h : UniqueTokens g) (hn : n ∈ g.nativeSessions) :
    g.nativeSessions.find? (·.tokenDigest == n.tokenDigest) = some n := by
  cases hfind : g.nativeSessions.find? (·.tokenDigest == n.tokenDigest) with
  | none => simpa using find?_eq_none.mp hfind n hn
  | some m =>
    have hdigest := find?_some hfind
    rw [h m (mem_of_find?_eq_some hfind) n hn (eq_of_beq hdigest)]

theorem cutoff_revokeNativeSession
    (hfind : s.grants.nativeSessions.find? (·.tokenDigest == digest) = some n)
    (h : s.revokeNativeSession digest = .ok s') :
    Cutoff (.revokeNativeSession digest) n.userId s.grants s'.grants ∧
      Effect (.revokeNativeSession digest) s s' := by
  simp only [revokeNativeSession, hfind] at h
  obtain ⟨g, hq, h⟩ := bind_eq_ok.mp h
  cases h
  have hcut : Cutoff (.revokeNativeSession digest) n.userId s.grants g := by
    refine (cutoff_open (.revokeNativeSession digest) fun hkeys m hm heq => ?_).queue hq
    have hdigest := find?_some hfind
    rw [hkeys m hm n (mem_of_find?_eq_some hfind) ((eq_of_beq heq).trans (eq_of_beq hdigest).symm)]
  exact ⟨hcut, hcut.toSettles.effect rfl⟩

theorem applies_revokeNativeSession (h : s.revokeNativeSession digest = .ok s') :
    Applies (.revokeNativeSession digest) s s' := by
  cases hfind : s.grants.nativeSessions.find? (·.tokenDigest == digest) with
  | none =>
    simp only [revokeNativeSession, hfind] at h
    cases h
    exact (Frame.refl _).applies rfl
  | some n =>
    obtain ⟨hcut, heffect⟩ := cutoff_revokeNativeSession hfind h
    have hdigest := find?_some hfind
    obtain rfl : n.tokenDigest = digest := eq_of_beq hdigest
    exact ⟨.cut (.revokeNativeSession (mem_of_find?_eq_some hfind)) hcut, heffect⟩

end Cutoff

section Operations

theorem applies_insertConnection {session : DesktopConnectionSession}
    {digest : Option (List UInt8)} {bound : Bool} {rows : List NativeGuestRow}
    (ha : op.native = false → rows = s.grants.accounts)
    (hd : ∀ vmid, op.guarded vmid = false → session.desktopVmid ≠ vmid)
    (h : (s.updateGrants fun g => { g with accounts := rows }).insertConnection session digest
      bound now = .ok s') : Applies op s s' := by
  obtain ⟨c, hinsert, h⟩ := bind_eq_ok.mp h
  cases h
  obtain ⟨hacc, -, hindex, rfl⟩ := insertDesktopConnectionSession_ok hinsert
  refine ⟨.opens ⟨⟨fun hk => ?_, fun vmid hg b hmem hv => .inl ?_, ha, fun _ _ h _ => h⟩, rfl,
    ⟨_, rfl, fun d hd => ?_⟩, .refl _⟩,
    .keep ⟨fun _ _ => id, fun c' hc' => ?_, fun l hl _ => .inl ⟨hl, id⟩⟩⟩
  · refine ⟨nodup_updateWhere (fun _ _ => rfl) hk.bindings, hk.revocations, ?_⟩
    simp only [connectionEnv, Bool.or_eq_false_iff, any_eq_false,
      beq_iff_eq] at hindex
    simp only [updateGrants, map_append, nodup_append, map_cons,
      map_nil, nodup_cons, mem_singleton, mem_map]
    refine ⟨hk.connections, by simp, ?_⟩
    rintro _ ⟨c, hmem, rfl⟩ _ rfl
    exact hindex.1 c hmem
  · refine mem_updateWhere_of_vmid (fun b hp => ?_) hmem hv
    simp only [Bool.and_eq_true, beq_iff_eq] at hp
    exact hp.1 ▸ hd vmid hg
  · obtain rfl : digest = some d := hd
    have hlive : s.grants.sessionLive session.userId now d = true := sessionLive_of_insert hinsert
    obtain ⟨n, hmem, hdigest, huser, -⟩ := mem_of_sessionLive hlive
    exact ⟨n, hmem, hdigest, huser⟩
  · rcases mem_append.mp hc' with hc' | hc'
    · exact .inl ⟨c', hc', .refl c'⟩
    · obtain rfl := mem_singleton.mp hc'
      exact .inr hacc

theorem acknowledges_complete {guest : String} {revision : ℕ}
    (h : s.completeGuestIdentityRevocation vmid user guest revision now = .ok s') :
    Spares (.completeGuestIdentityRevocation vmid user guest revision now) s.grants s'.grants ∧
      Acknowledges (vmid, user, guest) revision s.grants s'.grants ∧
      Effect (.completeGuestIdentityRevocation vmid user guest revision now) s s' := by
  simp only [completeGuestIdentityRevocation, seq_eq_ok, ensure_eq_ok] at h
  obtain ⟨hfound, h⟩ := h
  cases h
  obtain ⟨r, hr, hmine⟩ := any_eq_true.mp hfound
  simp only [Bool.and_eq_true, beq_iff_eq] at hmine
  obtain ⟨⟨⟨hd, hu⟩, hg⟩, hcomplete⟩ := hmine
  have hmoves := fun c => moves_close (c := c) true now
  refine ⟨⟨fun hk => ⟨nodup_updateWhere (fun _ _ => rfl) hk.bindings,
      nodup_updateWhere (fun _ _ => rfl) hk.revocations,
      nodup_updateWhere (fun _ _ => rfl) hk.connections⟩,
    fun _ hg b hb hd => .inl (mem_updateWhere_of_vmid (fun b hp => ?_) hb hd), fun _ => rfl,
    fun _ _ h _ => h⟩, ⟨.of_update rfl fun c _ => hmoves c, rfl, ⟨r, hr, ?_, ?_⟩, ?_⟩,
    .keep ⟨fun _ _ => id, fun c hc => .inl (moves_of_mem_updateWhere (fun c _ => hmoves c) c hc),
      fun l hl _ => .inl ⟨hl, id⟩⟩⟩
  · simp only [AccessOp.guarded, beq_eq_false_iff_ne] at hg
    simp only [Bool.and_eq_true, beq_iff_eq] at hp
    exact hp.1.1 ▸ hg
  · rw [GuestIdentityRevocation.account, hd, hu, hg]
  · by_contra hne
    rw [Queue.complete, if_neg hne] at hcomplete
    cases hcomplete
  · have hkey : ∀ r : GuestIdentityRevocation, (r.account == (vmid, user, guest)) =
        (r.desktopVmid == vmid && r.userId == user && r.guestUsername == guest) := fun r => by
      rw [Bool.and_assoc]
      rfl
    simp only [hkey]
    rfl

variable (sha256 : Sha256) {now : ℕ}

theorem applies_completeNativeGuestAccountOperation {env : NativeEnv} {a : NativeGuestAccount}
    (h : s.completeNativeGuestAccountOperation sha256 env a now = .ok s') :
    Applies (.completeNativeGuestAccountOperation env a now) s s' := by
  obtain ⟨row, row', -, -, ⟨expiresAt, hinsert⟩ | rfl⟩ :=
    completeNativeGuestAccountOperation_ok h
  · exact applies_insertConnection nofun (fun _ => ne_of_beq_false) hinsert
  · refine Frame.applies rfl ⟨⟨⟨fun hk => ⟨nodup_updateWhere (fun _ _ => rfl) hk.bindings,
        hk.revocations, nodup_updateWhere (fun _ _ => rfl) hk.connections⟩,
      fun vmid hg b hb hv => .inl (mem_updateWhere_of_vmid (fun b hp => ?_) hb hv), nofun,
      fun _ _ h _ => h⟩, .of_update rfl fun c _ => moves_close _ now, .refl _⟩, rfl⟩
    simp only [Bool.and_eq_true, beq_iff_eq] at hp
    exact hp.1.1.2 ▸ ne_of_beq_false hg

theorem applies_setAgentEnabled {id : String} {enabled : Bool}
    (h : s.setAgentEnabled id enabled = .ok s') :
    Applies (.setAgentEnabled id enabled) s s' := by
  obtain ⟨t, ht, h⟩ := bind_eq_ok.mp h
  cases h
  simp only [setAgent, seq_eq_ok] at ht
  cases ht.2
  refine ⟨.frame ?_, .keep ⟨fun _ _ ha => ha, fun c hc => .inl ⟨c, hc, .refl c⟩,
    fun l hl hst => .inl ?_⟩⟩
  · dsimp only
    exact frame_closeLeases (by decide)
  obtain ⟨hmem, hp⟩ := mem_of_closeLeases (by decide) hl hst
  refine ⟨hmem, fun ha => ?_⟩
  simp only [agentAccess, Bool.and_eq_true] at ha ⊢
  refine ⟨⟨⟨ha.1.1.1, ?_⟩, ha.1.2⟩, ha.2⟩
  -- either the lease is of another agent or the agent is being enabled
  obtain ⟨a, hmem, hid⟩ := any_eq_true.mp ha.1.1.2
  simp only [Bool.and_eq_true, beq_iff_eq] at hid
  apply any_eq_true.mpr
  by_cases hsel : a.id = id
  · have hen : enabled = true := by
      simpa [← hid.1, hsel] using hp
    exact ⟨_, mem_updateWhere.mpr ⟨a, hmem, .inl ⟨by simp [hsel], rfl⟩⟩, by simp [hid.1, hen]⟩
  · exact ⟨a, mem_updateWhere.mpr ⟨a, hmem, .inr ⟨by simp [hsel], rfl⟩⟩, by simp [hid]⟩

theorem applies_createDesktopLease {lease : DesktopLease}
    (h : s.createDesktopLease vmid lease now = .ok s') :
    Applies (.createDesktopLease vmid lease now) s s' := by
  simp only [AccessState.createDesktopLease, seq_eq_ok, ensure_eq_ok] at h
  obtain ⟨hacc, -, -, -, h⟩ := h
  cases h
  refine ⟨.frame ⟨.of_shifts (.of_eq rfl) rfl rfl (fun _ => rfl) (by rintro ⟨⟩), rfl⟩,
    .keep ⟨fun _ _ => id, fun c hc => .inl ⟨c, hc, .refl c⟩, fun l hl hst => ?_⟩⟩
  rcases mem_append.mp hl with hl | hl
  · exact .inl ⟨(mem_of_closeLeases (by decide) hl hst).1, id⟩
  · obtain rfl := mem_singleton.mp hl
    exact .inr hacc

theorem applies_of_apply (h : op.apply sha256 s = .ok s') : Applies op s s' := by
  cases op with
  | createUser => exact applies_extendAccess (fun _ => extends_insertUser) h
  | createAgentPrincipal => exact applies_extendAccess (fun _ => extends_insertAgent) h
  | upsertManagedDesktop =>
    exact applies_extendAccess (fun _ => extends_upsertManagedDesktop) h
  | putIdentityGroup => exact applies_extendAccess (fun _ => extends_putIdentityGroup) h
  | putIdentityGroupMembership =>
    exact applies_extendAccess (fun _ => extends_putIdentityGroupMembership) h
  | reserveDesktopCloneJob =>
    exact applies_extendAccess (fun _ => extends_reserveDesktopCloneJob) h
  | recordCloneTaskHandle =>
    exact applies_extendAccess (fun _ => extends_recordCloneTaskHandle) h
  | commitCloneRecovery => exact applies_extendAccess (fun _ => extends_commitCloneRecovery) h
  | completeJobTask id state upid =>
    refine applies_extendAccess (fun t ht => ?_) h
    cases ht
    exact extends_completeJobTask id state upid
  | reconcileManagedDesktops | quarantineClonedDesktop | updateManagedDesktopIdentity
  | putDesktopAssignment | setIdentityGroupEnabled | deleteIdentityGroupMembership
  | syncOidcGroupMemberships =>
    obtain ⟨_, -, h⟩ := bind_eq_ok.mp h
    exact applies_commit (fun _ => rfl) h (.refl _)
  | setUserDisabled user disabled =>
    cases disabled with
    | true =>
      obtain ⟨hcut, heffect⟩ := cutoff_setUserDisabled h
      exact ⟨.cut .setUserDisabled hcut, heffect⟩
    | false =>
      obtain ⟨t, -, h⟩ := bind_eq_ok.mp h
      exact applies_commit (fun _ => rfl) h (.refl _)
  | setUserPassword =>
    obtain ⟨hcut, heffect⟩ := cutoff_setUserPassword h
    exact ⟨.cut .setUserPassword hcut, heffect⟩
  | setAgentEnabled => exact applies_setAgentEnabled h
  | deleteDesktopAssignment =>
    obtain ⟨t, -, h⟩ := bind_eq_ok.mp h
    refine applies_commit (fun _ => rfl) h ?_
    dsimp only
    exact frame_closeLeases (by decide)
  | createVerifiedLoginSession =>
    simp only [AccessOp.apply, createVerifiedLoginSession, seq_eq_ok,
      ensure_eq_ok, Bool.not_eq_true', any_eq_false, beq_iff_eq] at h
    cases h.2.2
    exact ⟨.login h.2.1 rfl, .keep ⟨fun _ _ => id, fun c hc => .inl ⟨c, hc, .refl c⟩,
      fun l hl _ => .inl ⟨hl, id⟩⟩⟩
  | revokeNativeSession => exact applies_revokeNativeSession h
  | queueExpiredGuestIdentities =>
    obtain ⟨g, hq, h⟩ := bind_eq_ok.mp h
    cases h
    exact (frame_queue hq).applies rfl
  | putGuestIdentityBinding => exact applies_putGuestIdentityBinding h
  | completeGuestIdentityRevocation =>
    obtain ⟨hs, ha, heffect⟩ := acknowledges_complete h
    exact ⟨.acknowledges hs ha, heffect⟩
  | createDesktopConnectionSession =>
    exact applies_insertConnection (fun _ => rfl) (fun _ => ne_of_beq_false) h
  | createNativeDesktopConnectionSession =>
    simp only [AccessOp.apply, createNativeDesktopConnectionSession,
      seq_eq_ok] at h
    exact applies_insertConnection (fun _ => rfl) (fun _ => ne_of_beq_false) h.2
  | beginRevokeDesktopConnections | beginRevokeUserDesktopConnections
  | beginRevokeDesktopConnection | desktopConnectionsDueForRevocation =>
    cases h
    exact frame_beginRevoke.applies rfl
  | markDesktopConnectionClosed =>
    simp only [AccessOp.apply, markDesktopConnectionClosed, seq_eq_ok,
      ensure_eq_ok, Bool.or_eq_true, beq_iff_eq] at h
    obtain ⟨hst, h⟩ := h
    cases h
    exact (Frame.of_update fun c _ => moves_markClosed hst).applies rfl
  | createDesktopLease => exact applies_createDesktopLease h
  | releaseDesktopLease =>
    simp only [AccessOp.apply, AccessState.releaseDesktopLease, seq_eq_ok] at h
    cases h.2
    exact (frame_closeLeases (by decide)).applies rfl
  | revokeDesktopLeases =>
    simp only [AccessOp.apply, AccessState.revokeDesktopLeases, seq_eq_ok] at h
    cases h.2
    exact (frame_closeLeases (by decide)).applies rfl
  | queueExpiredComputerLeases | queueAgentGuestSessionRevocation =>
    cases h
    exact (frame_closeLeases (by decide)).applies rfl
  | bindNativeGuestAccount =>
    obtain ⟨row, -, h⟩ := bind_eq_ok.mp h
    cases h
    split <;> exact (frame_accounts rfl).applies rfl
  | beginNativeGuestCredential | retireNativeGuestCredential | revokeNativeGuestAccount =>
    exact applies_updateAccount rfl rfl h
  | completeNativeGuestAccountOperation =>
    exact applies_completeNativeGuestAccountOperation sha256 h
  | commitNativeGuestRecovery =>
    simp only [AccessOp.apply, AccessState.commitNativeGuestRecovery, seq_eq_ok] at h
    exact applies_updateAccount rfl rfl h.2

theorem UniqueTokens.change (h : UniqueTokens s.grants) (hc : Change s s' op) :
    UniqueTokens s'.grants := by
  cases hc with
  | frame hf | opens hf | acknowledges _ hf => exact h.of_subset fun _ hn => hf.sessions ▸ hn
  | login hnew hg =>
    intro n hn m hm heq
    rw [hg] at hn hm
    rcases mem_append.mp hn with hn | hn <;> rcases mem_append.mp hm with hm | hm
    · exact h n hn m hm heq
    · exact absurd (heq.trans (mem_singleton.mp hm ▸ rfl)) (hnew n hn)
    · exact absurd (heq.symm.trans (mem_singleton.mp hn ▸ rfl)) (hnew m hm)
    · rw [mem_singleton.mp hn, mem_singleton.mp hm]
  | cut _ hcut => exact h.of_subset fun _ hn => (mem_filter.mp (hcut.sessions ▸ hn)).1

theorem Change.spares (hc : Change s s' op) : Spares op s.grants s'.grants := by
  cases hc with
  | frame hf | cut _ hf | opens hf => exact hf.toSpares
  | acknowledges hs => exact hs
  | login _ hg =>
    exact hg ▸ ⟨.of_eq rfl rfl rfl, fun _ _ => .of_eq rfl, fun _ => rfl, fun _ _ h _ => h⟩

theorem Change.follows (hc : Change s s' op) : Follows op.login s.grants s'.grants := by
  cases hc with
  | frame hf | acknowledges _ hf => exact ⟨hf.connection, fun n hn => .inl (hf.sessions ▸ hn)⟩
  | cut _ hf => exact ⟨hf.connection, fun n hn => .inl (mem_filter.mp (hf.sessions ▸ hn)).1⟩
  | login _ hg =>
    rw [hg]
    refine ⟨fun _ c hc => ⟨c, hc, .refl c⟩, fun n hn => (mem_append.mp hn).imp_right fun hn => ?_⟩
    rw [mem_singleton.mp hn]
    rfl
  | opens ho =>
    obtain ⟨c', hconn, -⟩ := ho.connections
    refine ⟨fun id c hc => ⟨c, ?_, .refl c⟩, fun n hn => .inl (ho.sessions ▸ hn)⟩
    -- a new row comes after the existing ones
    rw [Grants.connection, hconn, find?_append, show s.grants.connections.find? _ = some c from hc]
    rfl

/-- Only an acknowledgement of the desktop takes a pending revocation of it away. -/
theorem Change.pending (hc : Change s s' op) (hg : op.guarded vmid = false)
    (hd : b.desktopVmid = vmid) (h : s.grants.accountRevocationPending b = true) :
    s'.grants.accountRevocationPending b = true := by
  cases hc with
  | frame hf | cut _ hf | opens hf => exact hf.requests.pending h
  | login _ hgrants => exact hgrants ▸ h
  | @acknowledges desktop user guest revision now _ ha =>
    -- the revocation is of another desktop
    obtain ⟨r, hr, hconcerns, hpend⟩ := accountRevocationPending_iff.mp h
    refine accountRevocationPending_iff.mpr ⟨r, ?_, hconcerns, hpend⟩
    rw [ha.revocations]
    refine mem_updateWhere.mpr ⟨r, hr, .inr ⟨?_, rfl⟩⟩
    simp only [AccessOp.guarded, beq_eq_false_iff_ne] at hg
    have hne : (r.account == (desktop, user, guest)) = false := by
      rw [concerns_iff.mp hconcerns, beq_eq_false_iff_ne]
      intro heq
      exact hg ((Prod.mk.inj heq).1.symm.trans hd)
    rw [hne, Bool.false_and]

theorem pending_commit (h : s.commitAccessChange = .ok s')
    (hb : s.grants.accountRevocationPending b = true) :
    s'.grants.accountRevocationPending b = true := by
  have hf : Frame (.revokeNativeSession []) s.grants s'.grants := frame_commit h
  exact hf.requests.pending hb

theorem pending_of_commit (h : s.commitAccessChange = .ok s')
    (hno : s'.access b.userId b.desktopVmid = false)
    (hb : (b ∈ s.grants.bindings ∧ b.state ≠ .disabled) ∨
      s.grants.accountRevocationPending b = true) :
    s'.grants.accountRevocationPending b = true := by
  rcases hb with ⟨hmem, hst⟩ | hpend
  · obtain ⟨ht, g, hq, hg⟩ := commit_ok h
    rw [hg]
    apply pending_of_selected hq hmem
    rw [access, ht] at hno
    simp [hst, access, hno]
  · exact pending_commit h hpend

theorem cutoff_of_cuts (hkeys : UniqueTokens s.grants) (hc : Cuts s.grants op user)
    (h : op.apply sha256 s = .ok s') : Cutoff op user s.grants s'.grants := by
  cases hc with
  | revokeNativeSession hn => exact (cutoff_revokeNativeSession (hkeys.find hn) h).1
  | setUserPassword => exact (cutoff_setUserPassword h).1
  | setUserDisabled => exact (cutoff_setUserDisabled h).1

theorem pending_of_cuts (hkeys : UniqueTokens s.grants)
    (hc : Cuts s.grants op user) (h : op.apply sha256 s = .ok s') (hb : b ∈ s.grants.bindings)
    (hu : b.userId = user) (hst : op = .setUserDisabled user true → b.state ≠ .disabled ∨
      s.grants.accountRevocationPending b = true) :
    s'.grants.accountRevocationPending b = true := by
  cases hc with
  | revokeNativeSession hn =>
    simp only [AccessOp.apply, revokeNativeSession, hkeys.find hn] at h
    obtain ⟨g, hq, h⟩ := bind_eq_ok.mp h
    cases h
    exact pending_of_selected hq hb (beq_iff_eq.mpr hu)
  | setUserPassword =>
    simp only [AccessOp.apply, setUserPassword, seq_eq_ok] at h
    obtain ⟨t, -, h⟩ := bind_eq_ok.mp h.2
    obtain ⟨g, hq, h⟩ := bind_eq_ok.mp h
    exact pending_commit h (pending_of_selected hq hb (beq_iff_eq.mpr hu))
  | setUserDisabled =>
    obtain ⟨t, ht, h⟩ := bind_eq_ok.mp h
    have hno : s'.access b.userId b.desktopVmid = false := by
      rw [access, (commit_ok h).1, hu]
      exact access_setDisabled ht _
    exact pending_of_commit h hno ((hst rfl).imp_left fun hst => ⟨hb, hst⟩)

end Operations

section Put

variable {binding : GuestIdentityBinding} {profileExists : Bool}

theorem exists_of_put (h : s.putGuestIdentityBinding binding profileExists = .ok s') :
    ∃ b ∈ s'.grants.bindings, b.key = binding.key ∧ b.guestUsername = binding.guestUsername ∧
      b.state = binding.state := by
  simp only [putGuestIdentityBinding, seq_eq_ok] at h
  cases h.2.2.2
  refine Exists.imp (fun b hb => ⟨hb.1, ?_⟩) (exists_mem_upsert _ _ _ _)
  rcases hb.2 with rfl | ⟨r, hr, rfl⟩
  · exact ⟨rfl, rfl, rfl⟩
  · simp only [Bool.and_eq_true, beq_iff_eq] at hr
    exact ⟨Prod.ext hr.1 hr.2, rfl, rfl⟩

theorem mem_of_put (h : s.putGuestIdentityBinding binding profileExists = .ok s')
    (hb : b ∈ s.grants.bindings) (hkey : b.key = binding.key) :
    { binding with sessionExpiresAt := b.sessionExpiresAt } ∈ s'.grants.bindings ∧
      s'.grants.revocations = s.grants.revocations := by
  obtain ⟨hv, hu⟩ := Prod.mk.inj hkey
  simp only [putGuestIdentityBinding, seq_eq_ok] at h
  cases h.2.2.2
  have hb' : (⟨binding.desktopVmid, binding.userId, b.profileId, b.guestUsername, b.state,
      b.lastError, b.sessionExpiresAt⟩ : GuestIdentityBinding) ∈ s.grants.bindings := hv ▸ hu ▸ hb
  exact ⟨mem_upsert_of_conflict hb' (by simp), rfl⟩

end Put

end Footprint

end VcWorkspace.Store
