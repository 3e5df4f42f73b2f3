import VcWorkspace.Store.AgentSession
import VcWorkspace.Transition.Queue

/-! # The control ledger of a desktop

The leases of one desktop, its epoch counter, its queue of computer revocations
and the sessions of its agents. Every lease that opens or closes takes the next
epoch of the desktop, and a closing lease queues the revocation of its own epoch
in the same transaction.
-/

namespace VcWorkspace.Store

open Transition Session

/-- A row of `desktop_computer_revocations`: the queue and the last closing epoch. -/
structure ComputerRevocation where
  queue : Queue
  controlEpoch : ℕ
  deriving DecidableEq, Repr

/-- The rows about one desktop. A partial unique index allows one active lease, which stands apart
from the closed ones. -/
structure LedgerRows where
  epoch : Option ℕ
  active : Option DesktopLease
  closed : List DesktopLease
  revocation : Option ComputerRevocation
  sessions : List AgentGuestSession
  deriving DecidableEq

structure LedgerRows.Valid (r : LedgerRows) : Prop where
  active : r.active.all (·.state == .active) = true
  closed : r.closed.all (·.state != .active) = true
  leases : ((r.active.toList ++ r.closed).map (·.id)).Nodup
  sessions : (r.sessions.map (·.agentId)).Nodup

instance (r : LedgerRows) : Decidable r.Valid :=
  decidable_of_iff (r.active.all (·.state == .active) = true ∧
      r.closed.all (·.state != .active) = true ∧
      ((r.active.toList ++ r.closed).map (·.id)).Nodup ∧ (r.sessions.map (·.agentId)).Nodup)
    ⟨fun ⟨h₁, h₂, h₃, h₄⟩ => ⟨h₁, h₂, h₃, h₄⟩, fun h => ⟨h.1, h.2, h.3, h.4⟩⟩

theorem LedgerRows.valid_empty : LedgerRows.Valid ⟨none, none, [], none, []⟩ := by decide

structure Ledger extends LedgerRows where
  valid : toLedgerRows.Valid
  deriving DecidableEq

def commit (rows : LedgerRows) : Except StoreError Ledger :=
  if h : rows.Valid then .ok ⟨rows, h⟩ else .error (.sql "23505" "duplicate key")

namespace Ledger

def counter (r : Ledger) : ℕ := r.epoch.getD 0

end Ledger

section Triggers

def bigint (n : ℕ) : Except StoreError ℕ := do
  ensure (.sql "22003" "bigint out of range") (n ≤ maxInt64)
  pure n

def nextComputerEpoch (epoch : Option ℕ) (new : DesktopLease) :
    Except StoreError (DesktopLease × Option ℕ) := do
  let n ← bigint (epoch.getD 0 + 1)
  pure ({ new with controlEpoch := n }, some n)

/-- The epoch trigger: a new lease and every change of state or epoch take the next epoch. -/
def assignDesktopComputerEpoch (epoch : Option ℕ) (old : Option DesktopLease)
    (new : DesktopLease) : Except StoreError (DesktopLease × Option ℕ) :=
  match old with
  | none => nextComputerEpoch epoch new
  | some old => do
    ensure (.sql "P0001" "lease subject and desktop are immutable") (new.agentId == old.agentId)
    if new.state = old.state ∧ new.controlEpoch = old.controlEpoch then pure (new, epoch)
    else do
      ensure (.sql "P0001" "closed lease cannot reactivate")
        (old.state == .active || new.state != .active)
      nextComputerEpoch epoch new

def endsGrant (old new : DesktopLease) : Bool :=
  old.state == .active && (new.state != .active || new.controlEpoch != old.controlEpoch)

/-- The queue trigger: a closing lease requests the revocation of its closing epoch. -/
def queueDesktopComputerRevocation (rev : Option ComputerRevocation) (old new : DesktopLease) :
    Except StoreError (Option ComputerRevocation) :=
  if endsGrant old new then
    match rev with
    | none => pure (some ⟨.first, new.controlEpoch⟩)
    | some rev => do
      let _ ← bigint (rev.queue.requested + 1)
      pure (some ⟨rev.queue.request, max rev.controlEpoch new.controlEpoch⟩)
  else pure rev

/-- The session trigger: a closing lease takes its live sessions with it. -/
def revokeLeaseSessions (old new : DesktopLease) (sessions : List AgentGuestSession) :
    List AgentGuestSession :=
  if endsGrant old new then sessions.map (revokeAgentGuestSession old.id) else sessions

def updateLease (r : Ledger) (old new : DesktopLease) :
    Except StoreError (Ledger × DesktopLease) := do
  let (new, epoch) ← assignDesktopComputerEpoch r.epoch (some old) new
  let revocation ← queueDesktopComputerRevocation r.revocation old new
  let r' ← commit
    { epoch := epoch, revocation := revocation
      active := if new.state = .active then some new else none
      closed := if new.state = .active then r.closed else new :: r.closed
      sessions := revokeLeaseSessions old new r.sessions }
  pure (r', new)

end Triggers

section Leases

abbrev ClosedLease := DesktopLease × DesktopLease

/-- The statements that close a lease set a state, and most of them also step the epoch, which the
trigger replaces. -/
def DesktopLease.close (l : DesktopLease) (state : LeaseState) (bump : Bool) : DesktopLease :=
  { l with state := state, controlEpoch := if bump then l.controlEpoch + 1 else l.controlEpoch }

def closeLease (p : DesktopLease → Bool) (state : LeaseState) (bump : Bool) (r : Ledger) :
    Except StoreError (Ledger × Option ClosedLease) :=
  match r.active with
  | none => pure (r, none)
  | some old =>
    if p old then do
      let (r', new) ← updateLease r old (old.close state bump)
      pure (r', some (old, new))
    else pure (r, none)

def releaseDesktopLease (id : String) (r : Ledger) :
    Except StoreError (Ledger × Option ClosedLease) := do
  ensure .notFound (r.active.any (·.id == id))
  closeLease (·.id == id) .released true r

def revokeDesktopLeases (r : Ledger) : Except StoreError (Ledger × Option ClosedLease) :=
  closeLease (fun _ => true) .revoked true r

def revokeAgentLeases (agentId : String) (r : Ledger) :
    Except StoreError (Ledger × Option ClosedLease) :=
  closeLease (·.agentId == agentId) .revoked true r

def queueExpiredComputerLeases (now : ℕ) (r : Ledger) :
    Except StoreError (Ledger × Option ClosedLease) :=
  closeLease (·.expiresAt ≤ now) .expired true r

def queueAgentGuestSessionRevocation (item : AgentGuestSession) (r : Ledger) :
    Except StoreError (Ledger × Option ClosedLease) :=
  closeLease (fun l => l.id == item.leaseId && r.sessions.any fun g =>
    g.leaseId == l.id && g.sameVersion item && g.live) .revoked false r

structure LeaseEnv where
  /-- The agent is enabled and assigned, and the desktop is enabled, present and cloned. -/
  allowed : Bool
  humanControlled : Bool
  nativeReserved : Bool
  deriving DecidableEq, Repr

def insertLease (env : LeaseEnv) (lease : DesktopLease) (r : Ledger) :
    Except StoreError Ledger := do
  ensure (.sql "23505" "Desktop has a Native credential reservation") (!env.nativeReserved)
  let (lease, epoch) ← assignDesktopComputerEpoch r.epoch none { lease with state := .active }
  ensure (.sql "23505" "desktop_leases_active_desktop_idx") r.active.isNone
  commit { r.toLedgerRows with epoch := epoch, active := some lease }

def leaseError : StoreError → StoreError
  | .sql code message => if code = "23505" then .alreadyLeased else .sql code message
  | e => e

def createDesktopLease (env : LeaseEnv) (now : ℕ) (lease : DesktopLease) (r : Ledger) :
    Except StoreError (Ledger × Option ClosedLease) := do
  ensure .notFound env.allowed
  ensure .alreadyLeased (!env.humanControlled)
  let (r, closed) ← closeLease (·.expiresAt ≤ now) .expired false r
  let r ← (insertLease env lease r).mapError leaseError
  pure (r, closed)

end Leases

section Revocations

def computerControlEpoch (r : Ledger) : Except StoreError (Ledger × ℕ) := do
  let n := r.epoch.getD 1
  let r ← commit { r.toLedgerRows with epoch := some n }
  pure (r, n)

def computerRevocationEpoch (r : Ledger) : Except StoreError ℕ :=
  match r.revocation with
  | none => .error .notFound
  | some rev => .ok rev.controlEpoch

def pendingComputerRevocations (r : Ledger) : Option ℕ :=
  r.revocation.bind fun rev => if rev.queue.pending then some rev.queue.requested else none

def completeComputerRevocation (revision : ℕ) (r : Ledger) : Except StoreError Ledger :=
  match r.revocation with
  | none => .error .conflict
  | some rev =>
    match rev.queue.complete revision with
    | none => .error .conflict
    | some queue => commit { r.toLedgerRows with revocation := some { rev with queue := queue } }

end Revocations

section Sessions

variable (sha256 : Sha256) (env : SessionEnv) (now : ℕ)

namespace Ledger

def session (r : Ledger) (agentId : String) : Option AgentGuestSession :=
  r.sessions.find? (·.agentId == agentId)

def leaseActive (r : Ledger) (leaseId : String) (epoch : ℕ) : Bool :=
  r.active.any fun l => l.id == leaseId && l.controlEpoch == epoch && now < l.expiresAt

/-- What the statements on an agent's session read from the rows of the desktop, and from the
other tables through `env`. -/
def sessionEnv (r : Ledger) (agentId leaseId : String) (epoch : ℕ) : SessionEnv :=
  { env with
    leaseLive := env.leaseLive && r.leaseActive now leaseId epoch
    revocationPending := r.revocation.any (·.queue.pending)
    otherSession := r.sessions.any fun g => g.agentId != agentId &&
      (g.state == .revoking || (g.live && g.leaseId != leaseId)) }

def putSession (r : Ledger) (row : AgentGuestSession) : LedgerRows :=
  { r.toLedgerRows with
    sessions := r.sessions.map fun g => if g.agentId = row.agentId then row else g }

def beginSession (vmid : ℕ) (leaseId agentId : String) (epoch : ℕ) (r : Ledger) :
    Except StoreError Ledger :=
  match r.active with
  | none => .error .conflict
  | some lease => do
    ensure .conflict (lease.id == leaseId && lease.agentId == agentId &&
      lease.controlEpoch == epoch)
    let row ← beginAgentGuestSession sha256 (r.sessionEnv env now agentId leaseId epoch) now vmid
      (r.session agentId) lease
    commit (if (r.session agentId).isNone then
        { r.toLedgerRows with sessions := r.sessions ++ [row] }
      else r.putSession row)

/-- Update the row of a session, in the environment that its lease gives it. -/
def updateSession (item : AgentGuestSession)
    (f : SessionEnv → AgentGuestSession → Except StoreError AgentGuestSession) (r : Ledger) :
    Except StoreError (Ledger × AgentGuestSession) :=
  match r.session item.agentId with
  | none => .error .conflict
  | some row => do
    let row ← f (r.sessionEnv env now row.agentId row.leaseId row.controlEpoch) row
    let r ← commit (r.putSession row)
    pure (r, row)

end Ledger

end Sessions

section Spec

variable {r r' : Ledger} {old new lease : DesktopLease} {rows : LedgerRows} {n m : ℕ}

theorem commit_eq_ok (h : commit rows = .ok r) : r.toLedgerRows = rows := by
  unfold commit at h
  split at h
  · rw [← Except.ok.inj h]
  · cases h

/-- A lease closes: it takes the next epoch, and its revocation is requested at that epoch. -/
structure Closes (r : Ledger) (old new : DesktopLease) (r' : Ledger) : Prop where
  before : r.active = some old
  after : r'.active = none
  id : new.id = old.id
  closed : r'.closed = new :: r.closed
  next : new.controlEpoch = r.counter + 1
  counter : r'.counter = new.controlEpoch
  revocation : ∃ rev', r'.revocation = some rev' ∧ new.controlEpoch ≤ rev'.controlEpoch ∧
    (rev'.controlEpoch = new.controlEpoch ∨
      ∃ rev, r.revocation = some rev ∧ rev'.controlEpoch = rev.controlEpoch) ∧
    (∀ rev, r.revocation = some rev →
      rev.controlEpoch ≤ rev'.controlEpoch ∧ rev'.queue = rev.queue.request) ∧
    (r.revocation = none → rev'.queue = .first)
  sessions : r'.sessions = r.sessions.map (revokeAgentGuestSession old.id)

structure Opens (r : Ledger) (lease : DesktopLease) (r' : Ledger) : Prop where
  before : r.active = none
  after : r'.active = some lease
  closed : r'.closed = r.closed
  next : lease.controlEpoch = r.counter + 1
  counter : r'.counter = lease.controlEpoch
  revocation : r'.revocation = r.revocation
  sessions : r'.sessions = r.sessions

structure Keeps (r r' : Ledger) : Prop where
  active : r'.active = r.active
  closed : r'.closed = r.closed
  counter : r.counter ≤ r'.counter
  revocation : r'.revocation = r.revocation
  sessions : r.sessions ≠ [] → r'.sessions ≠ []

theorem nextComputerEpoch_ok {epoch epoch' : Option ℕ}
    (h : nextComputerEpoch epoch new = .ok (lease, epoch')) :
    lease = { new with controlEpoch := epoch.getD 0 + 1 } ∧ epoch' = some (epoch.getD 0 + 1) := by
  obtain ⟨n, hn, h⟩ := bind_eq_ok.mp h
  rw [bigint, seq_eq_ok] at hn
  cases hn.2
  have h := Prod.mk.inj (Except.ok.inj h)
  exact ⟨h.1.symm, h.2.symm⟩

theorem queue_ok {rev rev' : Option ComputerRevocation} (he : endsGrant old new = true)
    (h : queueDesktopComputerRevocation rev old new = .ok rev') :
    rev' = some (rev.elim ⟨.first, new.controlEpoch⟩ fun rev =>
      ⟨rev.queue.request, max rev.controlEpoch new.controlEpoch⟩) := by
  simp only [queueDesktopComputerRevocation, he] at h
  cases rev with
  | none => exact (Except.ok.inj h).symm
  | some rev =>
    obtain ⟨_, -, h⟩ := bind_eq_ok.mp h
    exact (Except.ok.inj h).symm

theorem updateLease_ok {set : DesktopLease} (h : updateLease r old set = .ok (r', new))
    (hact : r.active = some old) (hset : set.state ≠ .active) (hid : set.id = old.id) :
    Closes r old new r' := by
  have hold : old.state = .active := by
    have hv := r.valid.active
    rw [hact] at hv
    simpa using hv
  obtain ⟨⟨new', epoch⟩, hassign, h⟩ := bind_eq_ok.mp h
  have hne : set.state ≠ old.state := hold ▸ hset
  simp only [assignDesktopComputerEpoch, seq_eq_ok, hne, false_and, if_false] at hassign
  obtain ⟨rfl, rfl⟩ := nextComputerEpoch_ok hassign.2.2
  obtain ⟨rev', hqueue, h⟩ := bind_eq_ok.mp h
  obtain ⟨r₁, hcommit, h⟩ := bind_eq_ok.mp h
  cases h
  have hends : endsGrant old { set with controlEpoch := r.epoch.getD 0 + 1 } = true := by
    simp [endsGrant, hold, hset]
  obtain rfl := queue_ok hends hqueue
  have hrows := commit_eq_ok hcommit
  simp only [hset, if_false, revokeLeaseSessions, hends, if_true] at hrows
  refine ⟨hact, by rw [hrows], hid, by rw [hrows], rfl, by rw [Ledger.counter, hrows]; rfl, ?_,
    by rw [hrows]⟩
  cases hrev : r.revocation with
  | none => exact ⟨_, by rw [hrows, hrev], le_rfl, .inl rfl, by simp, fun _ => rfl⟩
  | some rev =>
    refine ⟨_, by rw [hrows, hrev], le_max_right _ _, ?_, ?_, by simp⟩
    · rcases le_total rev.controlEpoch (r.epoch.getD 0 + 1) with hm | hm
      · exact .inl (max_eq_right hm)
      · exact .inr ⟨rev, rfl, max_eq_left hm⟩
    · rintro _ ⟨⟩
      exact ⟨le_max_left _ _, rfl⟩

theorem closeLease_ok {p : DesktopLease → Bool} {state : LeaseState} {bump : Bool}
    (hne : state ≠ .active) (h : closeLease p state bump r = .ok (r', c)) :
    (c = none ∧ r' = r) ∨ ∃ old new, c = some (old, new) ∧ Closes r old new r' := by
  unfold closeLease at h
  split at h
  case h_1 =>
    cases h
    exact .inl ⟨rfl, rfl⟩
  case h_2 old hact =>
    split at h
    · obtain ⟨⟨r₁, new⟩, hupd, h⟩ := bind_eq_ok.mp h
      cases h
      exact .inr ⟨old, new, rfl, updateLease_ok hupd hact hne rfl⟩
    · cases h
      exact .inl ⟨rfl, rfl⟩

theorem insertLease_ok {env : LeaseEnv} (h : insertLease env lease r = .ok r') :
    ∃ l, Opens r l r' ∧ l.id = lease.id := by
  simp only [insertLease, seq_eq_ok] at h
  obtain ⟨⟨l, epoch⟩, hassign, h⟩ := bind_eq_ok.mp h.2
  obtain ⟨rfl, rfl⟩ := nextComputerEpoch_ok hassign
  simp only [seq_eq_ok, ensure_eq_ok, Option.isNone_iff_eq_none] at h
  have hrows := commit_eq_ok h.2
  exact ⟨{ lease with state := .active, controlEpoch := r.counter + 1 },
    ⟨h.1, by rw [hrows]; rfl, by rw [hrows], rfl, by rw [Ledger.counter, hrows]; rfl,
      by rw [hrows], by rw [hrows]⟩, rfl⟩

theorem createDesktopLease_ok {env : LeaseEnv} {now : ℕ}
    (h : createDesktopLease env now lease r = .ok (r', c)) : ∃ r₁ l,
      ((c = none ∧ r₁ = r) ∨ ∃ old new, c = some (old, new) ∧ Closes r old new r₁) ∧
        Opens r₁ l r' ∧ l.id = lease.id := by
  simp only [createDesktopLease, seq_eq_ok] at h
  obtain ⟨⟨r₁, c₁⟩, hclose, h⟩ := bind_eq_ok.mp h.2.2
  obtain ⟨r₂, hins, h⟩ := bind_eq_ok.mp h
  cases h
  obtain ⟨l, hl⟩ := insertLease_ok (mapError_eq_ok.mp hins)
  exact ⟨r₁, l, closeLease_ok (by decide) hclose, hl⟩

theorem computerControlEpoch_ok (h : computerControlEpoch r = .ok (r', n)) : Keeps r r' := by
  obtain ⟨r₁, hcommit, h⟩ := bind_eq_ok.mp h
  cases h
  have hrows := commit_eq_ok hcommit
  refine ⟨by rw [hrows], by rw [hrows], ?_, by rw [hrows], by rw [hrows]; exact id⟩
  rw [Ledger.counter, Ledger.counter, hrows]
  cases r.epoch <;> simp

theorem completeComputerRevocation_ok (h : completeComputerRevocation n r = .ok r') :
    ∃ rev queue, r.revocation = some rev ∧ rev.queue.complete n = some queue ∧
      r'.toLedgerRows = { r.toLedgerRows with revocation := some { rev with queue := queue } } := by
  unfold completeComputerRevocation at h
  split at h
  case h_1 => cases h
  case h_2 rev hrev =>
    split at h
    case h_1 => cases h
    case h_2 queue hqueue => exact ⟨rev, queue, hrev, hqueue, commit_eq_ok h⟩

theorem keeps_of_sessions {sessions : List AgentGuestSession}
    (h : commit { r.toLedgerRows with sessions := sessions } = .ok r')
    (hne : r.sessions ≠ [] → sessions ≠ []) : Keeps r r' := by
  have hrows := commit_eq_ok h
  refine ⟨by rw [hrows], by rw [hrows], ?_, by rw [hrows], by rw [hrows]; exact hne⟩
  rw [Ledger.counter, Ledger.counter, hrows]

variable {sha256 : Sha256} {env : SessionEnv} {now vmid epoch : ℕ}
  {leaseId agentId : String} {item row : AgentGuestSession} {c : Option ClosedLease}
  {f : SessionEnv → AgentGuestSession → Except StoreError AgentGuestSession}

theorem beginSession_rows (h : r.beginSession sha256 env now vmid leaseId agentId epoch = .ok r') :
    ∃ lease row, r.active = some lease ∧ lease.agentId = agentId ∧
      beginAgentGuestSession sha256 (r.sessionEnv env now agentId lease.id epoch) now vmid
        (r.session agentId) lease = .ok row ∧
      commit (if (r.session agentId).isNone then
          { r.toLedgerRows with sessions := r.sessions ++ [row] }
        else r.putSession row) = .ok r' := by
  unfold Ledger.beginSession at h
  split at h
  case h_1 => cases h
  case h_2 lease hact =>
    simp only [seq_eq_ok, ensure_eq_ok, Bool.and_eq_true, beq_iff_eq] at h
    obtain ⟨⟨⟨rfl, hagent⟩, -⟩, h⟩ := h
    obtain ⟨row, hrow, h⟩ := bind_eq_ok.mp h
    exact ⟨lease, row, hact, hagent, hrow, h⟩

theorem beginSession_ok
    (h : r.beginSession sha256 env now vmid leaseId agentId epoch = .ok r') : Keeps r r' := by
  obtain ⟨lease, row, -, -, -, h⟩ := beginSession_rows h
  split at h
  · exact keeps_of_sessions h (by simp)
  · exact keeps_of_sessions h (by simp)

theorem updateSession_rows (h : r.updateSession env now item f = .ok (r', row)) :
    ∃ row₀, r.session item.agentId = some row₀ ∧
      f (r.sessionEnv env now row₀.agentId row₀.leaseId row₀.controlEpoch) row₀ = .ok row ∧
      commit (r.putSession row) = .ok r' := by
  unfold Ledger.updateSession at h
  split at h
  case h_1 => cases h
  case h_2 row₀ hfind =>
    obtain ⟨row', hf, h⟩ := bind_eq_ok.mp h
    obtain ⟨r₁, hcommit, h⟩ := bind_eq_ok.mp h
    cases h
    exact ⟨row₀, hfind, hf, hcommit⟩

theorem updateSession_ok (h : r.updateSession env now item f = .ok (r', row)) :
    Keeps r r' ∧ r'.sessions ≠ [] ∧ ∃ row₀, r.session item.agentId = some row₀ ∧
      f (r.sessionEnv env now row₀.agentId row₀.leaseId row₀.controlEpoch) row₀ = .ok row := by
  obtain ⟨row₀, hfind, hf, hcommit⟩ := updateSession_rows h
  have hne : r.sessions ≠ [] := List.ne_nil_of_mem (List.mem_of_find?_eq_some hfind)
  have hkeep := keeps_of_sessions hcommit (by simp)
  exact ⟨hkeep, hkeep.sessions hne, row₀, hfind, hf⟩

/-- A session that is marked ready belongs to the active lease, at its epoch. -/
theorem ready_lease (h : r.updateSession env now item
      (fun env row => markAgentGuestSessionReady sha256 env row item) = .ok (r', row)) :
    Keeps r r' ∧ r'.sessions ≠ [] ∧ ∃ l, r.active = some l ∧ row.leaseId = l.id ∧
      row.controlEpoch = l.controlEpoch := by
  obtain ⟨hkeep, hne, row₀, -, hf⟩ := updateSession_ok h
  refine ⟨hkeep, hne, ?_⟩
  obtain ⟨rfl, -⟩ := ready_ok hf
  simp only [markAgentGuestSessionReady, seq_eq_ok, ensure_eq_ok, Bool.and_eq_true] at hf
  have hlive : (r.sessionEnv env now row₀.agentId row₀.leaseId row₀.controlEpoch).leaseLive
      = true := hf.2.1.2
  simp only [Ledger.sessionEnv, Bool.and_eq_true] at hlive
  obtain ⟨l, hl, hmatch⟩ := (Option.any_eq_true _ _).mp hlive.2
  simp only [Bool.and_eq_true, beq_iff_eq] at hmatch
  exact ⟨l, hl, hmatch.1.1.symm, hmatch.1.2.symm⟩

end Spec

end VcWorkspace.Store
