import VcWorkspace.Session.Record
import VcWorkspace.Store.Account

/-! # Agent guest session rows

One row of `agent_guest_sessions` follows the Guest account of an agent on one
desktop through its leases. Triggers keep the subject and the pinned identity,
and let the login generation grow by one inside a lease and start again only
under a later control epoch.
-/

namespace VcWorkspace.Store

open Transition Guest Session Bool

section Leases

/-- A lease identifier: `lease_` and an opaque token. -/
def leaseIdentifier (id : String) : Bool :=
  startsWith id "lease_" && 7 ≤ (bytes id).length && (bytes id).length ≤ 128 &&
    (bytes id).all isTokenByte

inductive LeaseState
  | active | released | revoked | expired
  deriving DecidableEq, Repr

/-- A row of `desktop_leases` on one desktop; times are in microseconds. -/
structure DesktopLease where
  id : String
  agentId : String
  state : LeaseState
  controlEpoch : ℕ
  expiresAt : ℕ
  wellFormed : leaseIdentifier id = true
  deriving DecidableEq

end Leases

inductive AgentSessionState
  | provisioning | ready | revoking | disabled
  deriving DecidableEq, Repr

structure AgentGuestSession where
  desktopVmid : ℕ
  agentId : String
  guestUsername : String
  osFamily : OsFamily
  leaseId : String
  controlEpoch : ℕ
  generation : ℕ
  loginGeneration : ℕ
  state : AgentSessionState
  guestUid : ℕ
  guestSid : String
  sessionId : String
  instanceId : String
  expiresAt : ℕ
  deriving DecidableEq, Repr

def agentGuestUsername (sha256 : Sha256) (agentId : String) : String :=
  digestUsername sha256 "vca" agentId

namespace AgentGuestSession

def identity (r : AgentGuestSession) : AccountIdentity := ⟨r.guestUsername, r.guestUid, r.guestSid⟩

def live (r : AgentGuestSession) : Bool := r.state == .provisioning || r.state == .ready

def pinned (r : AgentGuestSession) : Bool := r.guestUid != 0 || r.guestSid != ""

end AgentGuestSession

section Sessions

def validInstance (id : String) : Bool :=
  (bytes id).length == 64 && (bytes id).all isLowerHex

def validWindowsLogonBinding (sessionId : String) : Bool :=
  match stripStart (bytes sessionId) (bytes "windows:") with
  | none => false
  | some rest =>
    let parts := rest.splitOn 58
    (bytes sessionId).length ≤ 128 && parts.length == 2 &&
      ((parts[0]?).any fun p => (parseUint32 p).any fun id => 0 < id && bytes (toString id) == p) &&
      ((parts[1]?).any fun p =>
        p.length == 16 && p.all isLowerHex && p != bytes "0000000000000000")

def validSession (platform : OsFamily) (identity : AccountIdentity)
    (sessionId instanceId : String) : Bool :=
  managedName identity.username && validInstance instanceId &&
    validAccount platform identity.uid identity.sid && (bytes sessionId).length ≤ 128 &&
    match platform with
    | .windows => validWindowsLogonBinding sessionId
    | .linux =>
      ((stripStart (bytes sessionId) (bytes s!"linux:{identity.uid}:")).bind
        (splitOnce · 58)).any fun parts =>
          ((parseUint32 parts.1).any fun id => 0 < id && bytes (toString id) == parts.1) &&
            localDisplay parts.2

/-- A session identifier as the ready constraint of the table reads it. -/
def readySession (r : AgentGuestSession) : Bool :=
  r.sessionId != "" && validInstance r.instanceId && match r.osFamily with
    | .linux => 1000 ≤ r.guestUid &&
        (stripStart (bytes r.sessionId) (bytes s!"linux:{r.guestUid}:")).isSome
    | .windows => vcwValidWindowsAccountSid r.guestSid &&
        ((stripStart (bytes r.sessionId) (bytes "windows:")).bind (splitOnce · 58)).any fun parts =>
          parts.1.head?.any (fun b => 49 ≤ b && b ≤ 57) && parts.1.all isAsciiDigit &&
            parts.2.length == 16 && parts.2.all isLowerHex

end Sessions

namespace AgentGuestSession

/-- The check constraints of the table, with the range of its integer columns. -/
def checks (r : AgentGuestSession) : Bool :=
  r.identity.validName "vca" && 0 < r.controlEpoch && r.controlEpoch ≤ maxInt64 &&
    0 < r.generation && r.generation ≤ maxInt64 && r.loginGeneration ≤ maxInt64 &&
    (r.guestUid == 0 || (1000 ≤ r.guestUid && r.guestUid ≤ 4294967295)) &&
    (match r.osFamily with
      | .linux => r.guestSid == ""
      | .windows =>
        r.guestUid == 0 && (r.guestSid == "" || vcwValidWindowsAccountSid r.guestSid)) &&
    (r.state != .ready || (readySession r && 0 < r.loginGeneration))

end AgentGuestSession

/-- The binding trigger: subject, platform and a pinned identity never change. -/
def protectAgentGuestAccountBinding (old new : AgentGuestSession) : Except StoreError Unit := do
  ensure (.sql "23514" "Agent account subject and platform are immutable")
    (new.desktopVmid == old.desktopVmid && new.agentId == old.agentId &&
      new.guestUsername == old.guestUsername && new.osFamily == old.osFamily)
  ensure (.sql "23514" "Agent account identity cannot be replaced or cleared")
    (!old.pinned || (new.guestUid == old.guestUid && new.guestSid == old.guestSid))

def protectAgentLoginGeneration (old new : AgentGuestSession) : Except StoreError Unit :=
  if new.leaseId = old.leaseId then do
    ensure (.sql "23514" "Agent login version cannot regress or skip")
      (new.controlEpoch == old.controlEpoch && new.generation == old.generation &&
        old.loginGeneration ≤ new.loginGeneration &&
        new.loginGeneration - old.loginGeneration ≤ 1)
    ensure (.sql "23514" "Agent login requires a pre-bound account")
      (new.loginGeneration ≤ old.loginGeneration ||
        (old.live && new.state == .provisioning && new.sessionId == "" && new.instanceId == "" &&
          new.pinned))
  else
    ensure (.sql "23514" "Agent lease replacement requires completed cleanup")
      (old.state == .disabled && new.state == .provisioning && new.loginGeneration == 0 &&
        old.controlEpoch < new.controlEpoch && new.generation == old.generation + 1)

/-- What the statements on one row read from the other tables at their time. -/
structure SessionEnv where
  /-- The lease is active at its epoch, its agent enabled and assigned, and its desktop usable. -/
  leaseLive : Bool
  platform : OsFamily
  connectionOpen : Bool
  revocationPending : Bool
  /-- Another agent's session of the desktop is revoking or live. -/
  otherSession : Bool
  identityTaken : Bool
  deriving DecidableEq, Repr

/-- Write a row through its triggers, unique indexes and check constraints. -/
def writeSession (env : SessionEnv) (old : Option AgentGuestSession) (new : AgentGuestSession) :
    Except StoreError AgentGuestSession := do
  match old with
  | none => pure ()
  | some old => do
    protectAgentGuestAccountBinding old new
    protectAgentLoginGeneration old new
  ensure (.sql "23505" "agent_guest_account_unique") (!env.identityTaken)
  ensure (.sql "23514" "agent_guest_sessions_check") new.checks
  pure new

section Operations

variable (sha256 : Sha256) (env : SessionEnv) (now : ℕ)

def beginAgentGuestSession (vmid : ℕ) (row : Option AgentGuestSession) (lease : DesktopLease) :
    Except StoreError AgentGuestSession := do
  ensure .conflict (env.leaseLive && now < lease.expiresAt && !env.connectionOpen &&
    !env.revocationPending && !env.otherSession &&
    row.all fun row => row.state != .revoking && (!row.live || row.leaseId == lease.id))
  match row with
  | none =>
    writeSession env none
      { desktopVmid := vmid, agentId := lease.agentId
        guestUsername := agentGuestUsername sha256 lease.agentId, osFamily := env.platform
        leaseId := lease.id, controlEpoch := lease.controlEpoch, generation := 1
        loginGeneration := 0, state := .provisioning, guestUid := 0, guestSid := ""
        sessionId := "", instanceId := "", expiresAt := lease.expiresAt }
  | some row => do
    ensure .conflict (row.osFamily == env.platform)
    if row.leaseId = lease.id ∧ row.controlEpoch = lease.controlEpoch ∧ row.live = true then
      pure row
    else do
      ensure .notFound (row.state == .disabled)
      writeSession env (some row)
        { row with
          leaseId := lease.id, controlEpoch := lease.controlEpoch
          generation := row.generation + 1, loginGeneration := 0, state := .provisioning
          sessionId := "", instanceId := "", expiresAt := lease.expiresAt }

def AgentGuestSession.sameVersion (row item : AgentGuestSession) : Bool :=
  row.desktopVmid == item.desktopVmid && row.agentId == item.agentId &&
    row.leaseId == item.leaseId && row.generation == item.generation &&
    row.loginGeneration == item.loginGeneration && row.controlEpoch == item.controlEpoch

/-- Pin the account of a session: of a live one under its lease, or of one being revoked. -/
def bindAgentGuestAccount (row item : AgentGuestSession) (revoking : Bool) :
    Except StoreError AgentGuestSession := do
  ensure .conflict (item.guestUsername == agentGuestUsername sha256 item.agentId &&
    validAccount item.osFamily item.guestUid item.guestSid)
  ensure .conflict (row.sameVersion item && row.osFamily == item.osFamily &&
    row.guestUsername == item.guestUsername &&
    (!row.pinned || (row.guestUid == item.guestUid && row.guestSid == item.guestSid)) &&
    if revoking then row.state == .revoking else row.live && env.leaseLive)
  writeSession env (some row) { row with guestUid := item.guestUid, guestSid := item.guestSid }

def beginAgentGuestLogin (row item : AgentGuestSession) : Except StoreError AgentGuestSession := do
  ensure .conflict (item.loginGeneration != maxInt64 &&
    item.guestUsername == agentGuestUsername sha256 item.agentId &&
    validAccount item.osFamily item.guestUid item.guestSid)
  ensure .conflict (row.sameVersion item && row.guestUid == item.guestUid &&
    row.guestSid == item.guestSid && row.osFamily == item.osFamily &&
    row.guestUsername == item.guestUsername && row.live && env.leaseLive)
  writeSession env (some row)
    { row with
      loginGeneration := row.loginGeneration + 1, state := .provisioning, sessionId := ""
      instanceId := "" }

def markAgentGuestSessionReady (row item : AgentGuestSession) :
    Except StoreError AgentGuestSession := do
  ensure .conflict (0 < item.loginGeneration &&
    item.guestUsername == agentGuestUsername sha256 item.agentId &&
    validSession item.osFamily item.identity item.sessionId item.instanceId)
  ensure .conflict (row.sameVersion item && row.live && row.osFamily == item.osFamily &&
    row.guestUsername == item.guestUsername && row.guestUid == item.guestUid &&
    row.guestSid == item.guestSid && env.leaseLive)
  writeSession env (some row)
    { row with state := .ready, sessionId := item.sessionId, instanceId := item.instanceId }

def completeAgentGuestSessionRevocation (row item : AgentGuestSession) :
    Except StoreError AgentGuestSession := do
  ensure .conflict (row.sameVersion item && row.guestUid == item.guestUid &&
    row.guestSid == item.guestSid && row.state == .revoking)
  writeSession env (some row) { row with state := .disabled, sessionId := "", instanceId := "" }

/-- The lease trigger: a closed lease takes its live session with it. -/
def revokeAgentGuestSession (leaseId : String) (row : AgentGuestSession) : AgentGuestSession :=
  if row.leaseId = leaseId ∧ row.live = true then { row with state := .revoking } else row

end Operations

section Spec

variable {sha256 : Sha256} {env : SessionEnv} {now vmid : ℕ}
  {row new item r : AgentGuestSession} {lease : DesktopLease} {old : Option AgentGuestSession}

/-- The next version of a session: the same lease with the same or the next login, or a later
lease after completed cleanup. -/
inductive Successor (row r : AgentGuestSession) : Prop
  | same (lease : r.leaseId = row.leaseId) (epoch : r.controlEpoch = row.controlEpoch)
      (login : r.loginGeneration = row.loginGeneration) (live : r.live = true → row.live = true)
  | login (lease : r.leaseId = row.leaseId) (epoch : r.controlEpoch = row.controlEpoch)
      (login : r.loginGeneration = row.loginGeneration + 1) (live : row.live = true)
      (pin : r.pinned = true)
  | lease (done : row.state = .disabled) (epoch : row.controlEpoch < r.controlEpoch)
      (login : r.loginGeneration = 0)

/-- What every statement keeps: subject, platform, a pinned identity and the version order. -/
structure Advances (row r : AgentGuestSession) : Prop where
  username : r.guestUsername = row.guestUsername
  platform : r.osFamily = row.osFamily
  pin : row.pinned = true → r.guestUid = row.guestUid ∧ r.guestSid = row.guestSid
  version : Successor row r

theorem Advances.refl (row : AgentGuestSession) : Advances row row :=
  ⟨rfl, rfl, fun _ => ⟨rfl, rfl⟩, .same rfl rfl rfl id⟩

theorem writeSession_ok (h : writeSession env old new = .ok r) :
    r = new ∧ new.checks = true ∧ ∀ row, old = some row →
      protectAgentGuestAccountBinding row new = .ok () ∧
        protectAgentLoginGeneration row new = .ok () := by
  cases old with
  | none =>
    simp only [writeSession, seq_eq_ok, ensure_eq_ok] at h
    exact ⟨(Except.ok.inj h.2.2).symm, h.2.1, by simp⟩
  | some old =>
    simp only [writeSession, seq_eq_ok, ensure_eq_ok] at h
    obtain ⟨hb, hg, -, hc, h⟩ := h
    refine ⟨(Except.ok.inj h).symm, hc, ?_⟩
    rintro row ⟨⟩
    exact ⟨hb, hg⟩

theorem protectAgentGuestAccountBinding_ok (h : protectAgentGuestAccountBinding row new = .ok ()) :
    new.guestUsername = row.guestUsername ∧ new.osFamily = row.osFamily ∧
      (row.pinned = true → new.guestUid = row.guestUid ∧ new.guestSid = row.guestSid) := by
  simp only [protectAgentGuestAccountBinding, seq_eq_ok, ensure_eq_ok, and_eq_true,
    beq_iff_eq, or_eq_true, not_eq_true'] at h
  obtain ⟨⟨⟨⟨-, -⟩, hu⟩, hp⟩, hpin⟩ := h
  refine ⟨hu, hp, fun hrow => hpin.resolve_left ?_⟩
  simp [hrow]

theorem advances_of_write (h : writeSession env (some row) new = .ok r)
    (hl : new.leaseId = row.leaseId) (hg : new.loginGeneration = row.loginGeneration)
    (hlive : new.live = true → row.live = true) : r = new ∧ new.checks = true ∧ Advances row r := by
  obtain ⟨rfl, hc, hp⟩ := writeSession_ok h
  obtain ⟨hb, hv⟩ := hp row rfl
  obtain ⟨hu, hos, hpin⟩ := protectAgentGuestAccountBinding_ok hb
  simp only [protectAgentLoginGeneration, hl, if_true, seq_eq_ok, ensure_eq_ok,
    and_eq_true, beq_iff_eq] at hv
  exact ⟨rfl, hc, hu, hos, hpin, .same hl hv.1.1.1.1 hg hlive⟩

/-- A new version of a row, written for a lease. -/
structure Begun (env : SessionEnv) (lease : DesktopLease) (old : Option AgentGuestSession)
    (r : AgentGuestSession) : Prop where
  agent : r.agentId = old.elim lease.agentId (·.agentId)
  leaseId : r.leaseId = lease.id
  epoch : r.controlEpoch = lease.controlEpoch
  login : r.loginGeneration = 0
  live : r.live = true
  identity : (r.guestUid, r.guestSid) = old.elim (0, "") fun row => (row.guestUid, row.guestSid)
  before : ∀ row, old = some row → row.state = .disabled ∧ r.generation = row.generation + 1
  write : writeSession env old r = .ok r

theorem begin_ok (h : beginAgentGuestSession sha256 env now vmid old lease = .ok r) :
    env.otherSession = false ∧ (old = some r ∨ Begun env lease old r) := by
  simp only [beginAgentGuestSession, seq_eq_ok, ensure_eq_ok, and_eq_true, not_eq_true'] at h
  obtain ⟨⟨⟨-, hother⟩, -⟩, h⟩ := h
  refine ⟨hother, ?_⟩
  cases old with
  | none =>
    obtain ⟨rfl, -⟩ := writeSession_ok h
    exact .inr ⟨rfl, rfl, rfl, rfl, rfl, rfl, by rintro _ ⟨⟩, h⟩
  | some row =>
    simp only [seq_eq_ok] at h
    replace h := h.2
    split at h
    · exact .inl (congrArg some (Except.ok.inj h))
    · simp only [seq_eq_ok, ensure_eq_ok, beq_iff_eq] at h
      obtain ⟨hdis, h⟩ := h
      obtain ⟨rfl, -⟩ := writeSession_ok h
      refine .inr ⟨rfl, rfl, rfl, rfl, rfl, rfl, ?_, h⟩
      rintro _ ⟨⟩
      exact ⟨hdis, rfl⟩

theorem Begun.advances (h : Begun env lease (some row) r) : Advances row r := by
  obtain ⟨hdis, hgen⟩ := h.before row rfl
  obtain ⟨hb, hv⟩ := (writeSession_ok h.write).2.2 row rfl
  obtain ⟨hu, hos, hpin⟩ := protectAgentGuestAccountBinding_ok hb
  have hlease : r.leaseId ≠ row.leaseId := by
    intro heq
    simp [protectAgentLoginGeneration, heq, hgen] at hv
  simp only [protectAgentLoginGeneration, hlease, if_false, ensure_eq_ok, and_eq_true,
    beq_iff_eq, decide_eq_true_eq] at hv
  exact ⟨hu, hos, hpin, .lease hdis hv.1.2 h.login⟩

theorem bind_ok {revoking : Bool} (h : bindAgentGuestAccount sha256 env row item revoking = .ok r) :
    r = { row with guestUid := item.guestUid, guestSid := item.guestSid } ∧ r.checks = true ∧
      Advances row r ∧ validAccount r.osFamily r.guestUid r.guestSid = true ∧
      writeSession env (some row) r = .ok r := by
  simp only [bindAgentGuestAccount, seq_eq_ok, ensure_eq_ok, and_eq_true,
    beq_iff_eq] at h
  obtain ⟨⟨-, hacc⟩, ⟨⟨⟨⟨-, hos⟩, -⟩, -⟩, -⟩, h⟩ := h
  obtain ⟨rfl, hc, hadv⟩ := advances_of_write h rfl rfl id
  exact ⟨rfl, hc, hadv, by rw [hos]; exact hacc, h⟩

theorem login_ok (h : beginAgentGuestLogin sha256 env row item = .ok r) : r = { row with
      loginGeneration := row.loginGeneration + 1, state := .provisioning, sessionId := ""
      instanceId := "" } ∧ r.checks = true ∧ Advances row r ∧ row.live = true ∧
      validAccount r.osFamily r.guestUid r.guestSid = true ∧ r.pinned = true ∧
      writeSession env (some row) r = .ok r := by
  simp only [beginAgentGuestLogin, seq_eq_ok, ensure_eq_ok, and_eq_true, beq_iff_eq] at h
  obtain ⟨⟨-, hacc⟩, ⟨⟨⟨⟨⟨⟨-, huid⟩, hsid⟩, hos⟩, -⟩, hlive⟩, -⟩, h⟩ := h
  obtain ⟨rfl, hc, hp⟩ := writeSession_ok h
  obtain ⟨hb, hv⟩ := hp row rfl
  obtain ⟨hu, hos', hpin⟩ := protectAgentGuestAccountBinding_ok hb
  have hpinned : ({ row with
      instanceId := "" } : AgentGuestSession).pinned = true := by
    simp only [protectAgentLoginGeneration, if_true, seq_eq_ok, ensure_eq_ok,
      and_eq_true, or_eq_true, decide_eq_true_eq] at hv
    exact (hv.2.resolve_left (by simp)).2
  exact ⟨rfl, hc, ⟨hu, hos', hpin, .login rfl rfl rfl hlive hpinned⟩, hlive,
    by rw [hos, huid, hsid]; exact hacc, hpinned, h⟩

theorem ready_ok (h : markAgentGuestSessionReady sha256 env row item = .ok r) :
    r = { row with state := .ready, sessionId := item.sessionId, instanceId := item.instanceId } ∧
      r.checks = true ∧ Advances row r ∧ row.live = true ∧
      writeSession env (some row) r = .ok r := by
  simp only [markAgentGuestSessionReady, seq_eq_ok, ensure_eq_ok, and_eq_true] at h
  obtain ⟨-, ⟨⟨⟨⟨⟨⟨-, hlive⟩, -⟩, -⟩, -⟩, -⟩, -⟩, h⟩ := h
  obtain ⟨rfl, hc, hadv⟩ := advances_of_write h rfl rfl fun _ => hlive
  exact ⟨rfl, hc, hadv, hlive, h⟩

theorem completeRevocation_ok (h : completeAgentGuestSessionRevocation env row item = .ok r) :
    r = { row with state := .disabled, sessionId := "", instanceId := "" } ∧ r.checks = true ∧
      Advances row r ∧ row.sameVersion item = true ∧ row.guestUid = item.guestUid ∧
      row.guestSid = item.guestSid ∧ row.state = .revoking := by
  simp only [completeAgentGuestSessionRevocation, seq_eq_ok, ensure_eq_ok,
    and_eq_true, beq_iff_eq] at h
  obtain ⟨⟨⟨⟨hsame, huid⟩, hsid⟩, hst⟩, h⟩ := h
  obtain ⟨rfl, hc, hadv⟩ := advances_of_write h rfl rfl (by simp [AgentGuestSession.live])
  exact ⟨rfl, hc, hadv, hsame, huid, hsid, hst⟩

theorem writeSession_pin (h : writeSession env old new = .ok r) :
    env.identityTaken = false ∧ (r.guestUid = 0 ∨ 1000 ≤ r.guestUid) ∧ ∀ row, old = some row →
      r.desktopVmid = row.desktopVmid ∧ r.agentId = row.agentId ∧
        r.guestUsername = row.guestUsername ∧ r.osFamily = row.osFamily ∧
        (row.pinned = true → r.guestUid = row.guestUid ∧ r.guestSid = row.guestSid) := by
  obtain ⟨rfl, hc, hp⟩ := writeSession_ok h
  refine ⟨?_, ?_, fun row hrow => ?_⟩
  · cases old with
    | none =>
      simp only [writeSession, seq_eq_ok, ensure_eq_ok, not_eq_true'] at h
      exact h.1
    | some old =>
      simp only [writeSession, seq_eq_ok, ensure_eq_ok, not_eq_true'] at h
      exact h.2.2.1
  · simp only [AgentGuestSession.checks, and_eq_true, or_eq_true, beq_iff_eq,
      decide_eq_true_eq] at hc
    exact hc.1.1.2.imp id (·.1)
  · have hb := (hp row hrow).1
    obtain ⟨hu, hos, hpin⟩ := protectAgentGuestAccountBinding_ok hb
    simp only [protectAgentGuestAccountBinding, seq_eq_ok, ensure_eq_ok, and_eq_true,
      beq_iff_eq] at hb
    exact ⟨hb.1.1.1.1, hb.1.1.1.2, hu, hos, hpin⟩

theorem revokeAgentGuestSession_advances (leaseId : String) (row : AgentGuestSession) :
    Advances row (revokeAgentGuestSession leaseId row) := by
  unfold revokeAgentGuestSession
  split
  next h => exact ⟨rfl, rfl, fun _ => ⟨rfl, rfl⟩, .same rfl rfl rfl fun _ => h.2⟩
  · exact .refl row

end Spec

end VcWorkspace.Store
