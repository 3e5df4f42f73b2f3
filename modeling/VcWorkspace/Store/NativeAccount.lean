import VcWorkspace.Guest.Native
import VcWorkspace.Store.Account

/-! # Native guest account rows

One row of `native_guest_accounts` records the latest intent for a user's Guest
credential. Every write is a compare-and-swap statement guarded by the version
trigger and by the table's check constraints; what the statements read from
other tables is an environment of the row.
-/

namespace VcWorkspace.Store

open Transition Guest
open Bool (and_eq_true or_eq_true)

inductive NativeOperation
  | none | issue | retire | revoke
  deriving DecidableEq, Repr

inductive NativeState
  | idle | pending | applied
  deriving DecidableEq, Repr

structure NativeGuestAccount where
  desktopVmid : ℕ
  userId : String
  guestUsername : String
  osFamily : OsFamily
  guestUid : ℕ
  guestSid : String
  revision : ℕ
  operation : NativeOperation
  state : NativeState
  connectionId : String
  expiresAt : Option ℕ
  deriving DecidableEq, Repr

structure NativeGuestRow extends NativeGuestAccount where
  nativeSessionDigest : Option (List UInt8)
  deriving DecidableEq, Repr

/-- The account name of a user: `vcw` and the first six bytes of the user's digest. -/
def nativeGuestUsername (sha256 : Sha256) (userId : String) : String :=
  digestUsername sha256 "vcw" userId

/-- A connection identifier: `conn_` and 8 to 128 token bytes. -/
def nativeConnectionId (id : String) : Bool :=
  startsWith id "conn_" && 8 ≤ ((bytes id).drop 5).length && ((bytes id).drop 5).length ≤ 128 &&
    ((bytes id).drop 5).all isTokenByte

namespace NativeGuestAccount

def identity (a : NativeGuestAccount) : AccountIdentity := ⟨a.guestUsername, a.guestUid, a.guestSid⟩

def validIdentity (sha256 : Sha256) (a : NativeGuestAccount) : Bool :=
  0 < a.desktopVmid && a.userId != "" && a.guestUsername == nativeGuestUsername sha256 a.userId &&
    validAccount a.osFamily a.guestUid a.guestSid

def samePin (a b : NativeGuestAccount) : Bool :=
  a.desktopVmid == b.desktopVmid && a.userId == b.userId && a.guestUsername == b.guestUsername &&
    a.osFamily == b.osFamily && a.guestUid == b.guestUid && a.guestSid == b.guestSid

end NativeGuestAccount

def NativeGuestRow.checks (r : NativeGuestRow) : Bool :=
  r.identity.validName "vcw" && r.guestUid ≤ 4294967295 && (match r.osFamily with
      | .linux => 1000 ≤ r.guestUid && r.guestSid == ""
      | .windows => r.guestUid == 0 && vcwValidWindowsAccountSid r.guestSid) &&
    ((r.revision == 0 && r.operation == .none && r.state == .idle && r.connectionId == "" &&
        r.expiresAt.isNone) ||
      (0 < r.revision && r.operation != .none && r.state != .idle &&
        nativeConnectionId r.connectionId &&
        (((r.operation == .issue || r.operation == .retire) && r.expiresAt.isSome) ||
          (r.operation == .revoke && r.expiresAt.isNone)))) &&
    if r.operation = .issue ∧ r.state = .pending then r.nativeSessionDigest.any (!·.isEmpty)
    else r.nativeSessionDigest.isNone

/-- What the statements on one row read from the other tables at their time. -/
structure NativeEnv where
  /-- The pinned subject may use the desktop, with a live native session and no revocation
  queued. -/
  authorized : Bool
  /-- A binding with the row's desktop, user and account name exists. -/
  bindingExists : Bool
  /-- The connection identifier is taken, or the desktop has an active or revoking connection. -/
  connectionTaken : Bool
  computerRevocationPending : Bool
  agentSessionOpen : Bool
  /-- The desktop has an active lease that has not expired. -/
  leaseActive : Bool
  /-- Another account of the desktop is pending or holds an applied issue. -/
  otherReserved : Bool
  /-- The identifier is in `native_guest_credential_ids` or in a unique index. -/
  identifierUsed : Bool
  osIdentityTaken : Bool
  /-- A recovery receipt of this transaction names exactly this transition. -/
  recoveryReceipt : Bool
  /-- The digest's native session, the access, the profile and the binding admit a completion. -/
  issueCompletable : Bool
  deriving DecidableEq, Repr

/-- The version trigger: an insertion pins a subject without credentials. -/
def protectInsert (env : NativeEnv) (new : NativeGuestRow) : Except StoreError Unit :=
  ensure (.sql "23514" "Native accounts must first pin an existing subject without credentials")
    (new.revision == 0 && new.state == .idle && new.operation == .none && env.bindingExists)

/-- The part of the version trigger that admits a new pending intent. -/
def protectIntent (env : NativeEnv) (now : ℕ) (old new : NativeGuestRow) :
    Except StoreError Unit :=
  match new.operation with
  | .issue => do
    ensure (.sql "23514" "New Native credentials require settled prior work")
      ((old.state == .idle ||
          (old.state == .applied && (old.operation == .retire || old.operation == .revoke))) &&
        new.connectionId != old.connectionId &&
        !(old.operation == .retire && old.expiresAt.any (· ≤ now)))
    ensure (.sql "23505" "Desktop already has a control reservation")
      (!env.leaseActive && !env.otherReserved)
    ensure (.sql "23505" "native_guest_credential_ids") (!env.identifierUsed)
  | .retire =>
    ensure (.sql "23514" "Credential retirement must preserve the current OS session deadline")
      (old.operation == .issue && old.state == .applied && !old.expiresAt.any (· ≤ now) &&
        new.connectionId == old.connectionId && new.expiresAt == old.expiresAt)
  | .revoke =>
    ensure (.sql "23514" "Account revocation must target the current intent once")
      (old.state != .idle && new.connectionId == old.connectionId && old.operation != .revoke)
  | .none => .error (.sql "23514" "Invalid Native operation")

def protectUpdate (env : NativeEnv) (now : ℕ) (old new : NativeGuestRow) :
    Except StoreError Unit := do
  ensure (.sql "23514" "Native Guest account identity is immutable")
    (new.samePin old.toNativeGuestAccount)
  if old.revision < new.revision && old.operation == .revoke && old.state == .applied &&
      new.operation == .revoke && new.state == .applied && new.expiresAt.isNone &&
      new.nativeSessionDigest.isNone && env.recoveryReceipt then
    ensure (.sql "23505" "native_guest_credential_ids") (!env.identifierUsed)
  else if new.revision = old.revision then
    ensure (.sql "23514" "Native operation completion cannot change its intent")
      (new.operation == old.operation && new.connectionId == old.connectionId &&
        new.expiresAt == old.expiresAt &&
        (new.state == old.state || (old.state == .pending && new.state == .applied)) &&
        (new.nativeSessionDigest == old.nativeSessionDigest ||
          (old.state == .pending && new.state == .applied && new.nativeSessionDigest.isNone)))
  else if new.revision = old.revision + 1 ∧ new.state = .pending then
    protectIntent env now old new
  else
    .error (.sql "23514" "Native account version cannot regress or skip")

def protectNativeGuestAccountVersion (env : NativeEnv) (now : ℕ) (old : Option NativeGuestRow)
    (new : NativeGuestRow) : Except StoreError Unit :=
  match old with
  | none => protectInsert env new
  | some old => protectUpdate env now old new

/-- Write a row through its triggers, check constraints and unique indexes. -/
def writeNativeRow (env : NativeEnv) (now : ℕ) (old : Option NativeGuestRow)
    (new : NativeGuestRow) : Except StoreError NativeGuestRow := do
  protectNativeGuestAccountVersion env now old new
  ensure (.sql "23505" "OS identity belongs to an Agent") (!env.osIdentityTaken)
  ensure (.sql "23514" "native_guest_accounts_check") new.checks
  pure new

def uniqueAsConflict : StoreError → StoreError
  | .sql "23505" _ => .conflict
  | e => e

section Operations

variable (sha256 : Sha256) (env : NativeEnv) (now : ℕ)

def bindNativeGuestAccount (row : Option NativeGuestRow) (a : NativeGuestAccount)
    (nativeDigest : List UInt8) : Except StoreError NativeGuestRow := do
  ensure .conflict (a.validIdentity sha256 && !nativeDigest.isEmpty)
  ensure .conflict env.authorized
  match row with
  | none =>
    writeNativeRow env now none
      { desktopVmid := a.desktopVmid, userId := a.userId, guestUsername := a.guestUsername
        osFamily := a.osFamily, guestUid := a.guestUid, guestSid := a.guestSid, revision := 0
        operation := .none, state := .idle, connectionId := "", expiresAt := none
        nativeSessionDigest := none }
  | some row =>
    ensure .conflict (row.guestUsername == a.guestUsername && row.osFamily == a.osFamily &&
      row.guestUid == a.guestUid && row.guestSid == a.guestSid)
    writeNativeRow env now (some row) row

def beginNativeGuestCredential (row : NativeGuestRow) (a : NativeGuestAccount)
    (connectionId : String) (expiresAt : ℕ) (nativeDigest : List UInt8) :
    Except StoreError NativeGuestRow := do
  ensure .conflict (a.validIdentity sha256 && a.revision != maxInt64 &&
    nativeConnectionId connectionId && connectionId != a.connectionId && !nativeDigest.isEmpty &&
    now < expiresAt && expiresAt ≤ now + 8 * 3600 * 1000000 && expiresAt % 1000000 == 0)
  ensure .conflict (row.samePin a && row.revision == a.revision && row.operation == a.operation &&
    row.state == a.state &&
    (row.state == .idle ||
      (row.state == .applied && (row.operation == .retire || row.operation == .revoke))) &&
    (row.operation != .retire || row.expiresAt.any (now < ·)) && env.authorized &&
    !env.connectionTaken && !env.computerRevocationPending && !env.agentSessionOpen)
  (writeNativeRow env now (some row)
    { row with
      revision := row.revision + 1, operation := .issue, state := .pending
      connectionId := connectionId, expiresAt := some expiresAt
      nativeSessionDigest := some nativeDigest }).mapError uniqueAsConflict

/-- Advance the row to the pending intent of a retirement or revocation. -/
def beginNativeGuestCleanup (row : NativeGuestRow) (a : NativeGuestAccount)
    (op : NativeOperation) : Except StoreError NativeGuestRow := do
  ensure .conflict (a.validIdentity sha256 && 0 < a.revision && a.revision != maxInt64)
  ensure .conflict (row.samePin a && row.revision == a.revision && row.operation == a.operation &&
    row.state == a.state && row.connectionId == a.connectionId && row.expiresAt == a.expiresAt &&
    (op != .retire || row.expiresAt.any (now < ·)))
  writeNativeRow env now (some row)
    { row with
      revision := row.revision + 1, operation := op, state := .pending
      expiresAt := if op = .revoke then none else row.expiresAt
      nativeSessionDigest := none }

def retireNativeGuestCredential (row : NativeGuestRow) (a : NativeGuestAccount) :
    Except StoreError NativeGuestRow := do
  ensure .conflict (a.operation == .issue && a.state == .applied)
  beginNativeGuestCleanup sha256 env now row a .retire

def revokeNativeGuestAccount (row : NativeGuestRow) (a : NativeGuestAccount) :
    Except StoreError NativeGuestRow := do
  ensure .conflict (a.state != .idle && a.operation != .revoke)
  beginNativeGuestCleanup sha256 env now row a .revoke

/-- Acknowledge the pending intent the caller holds the receipt of. -/
def completeNativeGuestAccountOperation (row : NativeGuestRow) (a : NativeGuestAccount) :
    Except StoreError NativeGuestRow := do
  ensure .conflict (a.validIdentity sha256 && 0 < a.revision && a.state == .pending)
  ensure .conflict (row.samePin a && row.revision == a.revision && row.operation == a.operation &&
    row.state == .pending && row.connectionId == a.connectionId && row.expiresAt == a.expiresAt &&
    (row.operation != .issue || (row.expiresAt.any (now < ·) && env.issueCompletable)))
  writeNativeRow env now (some row) { row with state := .applied, nativeSessionDigest := none }

structure RecoveryReceipt where
  actorId : String
  receiptId : String
  reason : String
  deriving DecidableEq, Repr

def RecoveryReceipt.valid (r : RecoveryReceipt) : Bool :=
  let reason := trimSpace r.reason
  r.actorId != "" && r.receiptId != "" && (bytes r.receiptId).length ≤ 128 && reason != "" &&
    reason.length ≤ 500

/-- A violated constraint of the receipt or the account is reported as a conflict. -/
def nativeRecoveryError : StoreError → StoreError
  | .notFound => .conflict
  | .sql code message =>
    if code = "23505" ∨ code = "23514" ∨ code = "23503" then .conflict else .sql code message
  | e => e

/-- Move a settled revocation past the version that the Guest reports. -/
def commitNativeGuestRecovery (row : NativeGuestRow) (expected : NativeGuestAccount)
    (revision : ℕ) (connectionId : String) (receipt : RecoveryReceipt) :
    Except StoreError NativeGuestRow := do
  ensure .conflict (expected.validIdentity sha256 && expected.osFamily == .linux &&
    expected.operation == .revoke && expected.state == .applied && 1 ≤ expected.revision &&
    expected.revision < revision && revision < maxInt64 && nativeConnectionId connectionId &&
    connectionId != expected.connectionId && receipt.valid)
  ensure .conflict (row.samePin expected && row.revision == expected.revision &&
    row.connectionId == expected.connectionId && row.operation == .revoke &&
    row.state == expected.state)
  (writeNativeRow env now (some row)
    { row with revision := revision, connectionId := connectionId }).mapError nativeRecoveryError

end Operations

section Spec

variable {sha256 : Sha256} {env : NativeEnv} {now : ℕ}
  {row new r : NativeGuestRow} {a b : NativeGuestAccount} {old : Option NativeGuestRow}
  {digest : List UInt8} {connectionId : String} {expiresAt : ℕ} {receipt : RecoveryReceipt}

theorem NativeGuestAccount.samePin_iff : a.samePin b = true ↔ a.desktopVmid = b.desktopVmid ∧
    a.userId = b.userId ∧ a.guestUsername = b.guestUsername ∧ a.osFamily = b.osFamily ∧
    a.guestUid = b.guestUid ∧ a.guestSid = b.guestSid := by
  simp [samePin, and_assoc]

theorem NativeGuestAccount.samePin.validIdentity (h : a.samePin b = true)
    (hb : b.validIdentity sha256 = true) : a.validIdentity sha256 = true := by
  obtain ⟨h₁, h₂, h₃, h₄, h₅, h₆⟩ := samePin_iff.mp h
  unfold NativeGuestAccount.validIdentity at hb ⊢
  rwa [h₁, h₂, h₃, h₄, h₅, h₆]

theorem writeNativeRow_ok (h : writeNativeRow env now old new = .ok r) :
    r = new ∧ new.checks = true ∧ protectNativeGuestAccountVersion env now old new = .ok () := by
  unfold writeNativeRow at h
  simp only [seq_eq_ok, ensure_eq_ok] at h
  exact ⟨(Except.ok.inj h.2.2.2).symm, h.2.2.1, h.1⟩

def NativeGuestAccount.Settled (a : NativeGuestAccount) : Prop :=
  a.state = .idle ∨ a.state = .applied ∧ (a.operation = .retire ∨ a.operation = .revoke)

theorem bind_insert_spec (h : bindNativeGuestAccount sha256 env now none a digest = .ok r) :
    r.checks = true ∧ r.validIdentity sha256 = true ∧ r.revision = 0 ∧ r.state = .idle ∧
      r.expiresAt = none ∧ r.operation = .none := by
  unfold bindNativeGuestAccount at h
  simp only [seq_eq_ok, ensure_eq_ok, and_eq_true] at h
  obtain ⟨⟨ha, -⟩, -, h⟩ := h
  obtain ⟨rfl, hc, -⟩ := writeNativeRow_ok h
  exact ⟨hc, ha, rfl, rfl, rfl, rfl⟩

theorem bind_update_spec (h : bindNativeGuestAccount sha256 env now (some row) a digest = .ok r) :
    r = row := by
  unfold bindNativeGuestAccount at h
  simp only [seq_eq_ok] at h
  exact (writeNativeRow_ok h.2.2.2).1

/-- A pending intent: what it found and what it wrote. -/
structure Intent (sha256 : Sha256) (env : NativeEnv) (now : ℕ) (row r : NativeGuestRow) : Prop where
  pin : r.toNativeGuestAccount.samePin row.toNativeGuestAccount = true
  identity : row.validIdentity sha256 = true
  bound : row.revision ≠ maxInt64
  checks : r.checks = true
  revision : r.revision = row.revision + 1
  state : r.state = .pending
  write : writeNativeRow env now (some row) r = .ok r

structure Issued (sha256 : Sha256) (env : NativeEnv) (now : ℕ) (row : NativeGuestRow)
    (a : NativeGuestAccount) (connectionId : String) (expiresAt : ℕ) (r : NativeGuestRow) : Prop
    extends Intent sha256 env now row r where
  subject : r.desktopVmid = a.desktopVmid ∧ r.userId = a.userId
  expected : row.revision = a.revision
  settled : row.Settled
  retained : row.operation = .retire → row.expiresAt.any (now < ·) = true
  authorized : env.authorized = true
  unreserved : env.leaseActive = false ∧ env.otherReserved = false
  unused : env.identifierUsed = false
  fresh : connectionId ≠ row.connectionId
  deadline : now < expiresAt ∧ expiresAt ≤ now + 28800 * 1000000 ∧ expiresAt % 1000000 = 0
  operation : r.operation = .issue
  connection : r.connectionId = connectionId
  expires : r.expiresAt = some expiresAt

theorem begin_spec
    (h : beginNativeGuestCredential sha256 env now row a connectionId expiresAt digest = .ok r) :
    Issued sha256 env now row a connectionId expiresAt r := by
  unfold beginNativeGuestCredential at h
  simp only [seq_eq_ok, ensure_eq_ok, and_eq_true, or_eq_true, beq_iff_eq,
    bne_iff_ne, decide_eq_true_eq, mapError_eq_ok, and_assoc] at h
  obtain ⟨ha, hmax, -, -, -, hlt, hle, hsec, hpin, hrev, -, -, hset, hret, hauth, -, -, -, h⟩ := h
  obtain ⟨rfl, hc, hp⟩ := writeNativeRow_ok h
  obtain ⟨hd, hu, -⟩ := NativeGuestAccount.samePin_iff.mp hpin
  simp [protectNativeGuestAccountVersion, protectUpdate, protectIntent] at hp
  exact
    { pin := by simp [NativeGuestAccount.samePin]
      identity := NativeGuestAccount.samePin.validIdentity hpin ha
      bound := by rw [hrev]; exact hmax
      checks := hc
      write := h
      subject := ⟨hd, hu⟩
      expected := hrev
      settled := hset
      retained := fun hr => hret.resolve_left (fun hn => hn hr)
      authorized := hauth
      unreserved := hp.2.2.1
      unused := hp.2.2.2
      fresh := hp.2.1.1.2
      deadline := ⟨hlt, hle, hsec⟩
      revision := rfl, operation := rfl, state := rfl, connection := rfl, expires := rfl }

structure CleaningUp (sha256 : Sha256) (env : NativeEnv) (now : ℕ) (row : NativeGuestRow)
    (op : NativeOperation) (r : NativeGuestRow) : Prop extends Intent sha256 env now row r where
  positive : 0 < row.revision
  operation : r.operation = op
  connection : r.connectionId = row.connectionId
  expires : r.expiresAt = if op = .revoke then none else row.expiresAt

theorem cleanup_spec {op : NativeOperation}
    (h : beginNativeGuestCleanup sha256 env now row a op = .ok r) :
    CleaningUp sha256 env now row op r ∧ row.operation = a.operation ∧ row.state = a.state := by
  unfold beginNativeGuestCleanup at h
  simp only [seq_eq_ok, ensure_eq_ok, and_eq_true, or_eq_true, beq_iff_eq,
    bne_iff_ne, decide_eq_true_eq, and_assoc] at h
  obtain ⟨ha, hpos, hmax, hpin, hrev, hop, hst, -, -, -, h⟩ := h
  obtain ⟨rfl, hc, -⟩ := writeNativeRow_ok h
  refine ⟨?_, hop, hst⟩
  exact
    { pin := by simp [NativeGuestAccount.samePin]
      identity := NativeGuestAccount.samePin.validIdentity hpin ha
      bound := by rw [hrev]; exact hmax
      checks := hc
      write := h
      positive := hrev ▸ hpos
      revision := rfl, operation := rfl, state := rfl, connection := rfl, expires := rfl }

theorem retire_spec (h : retireNativeGuestCredential sha256 env now row a = .ok r) :
    CleaningUp sha256 env now row .retire r ∧ row.operation = .issue ∧ row.state = .applied := by
  unfold retireNativeGuestCredential at h
  simp only [seq_eq_ok, ensure_eq_ok, and_eq_true, beq_iff_eq] at h
  obtain ⟨⟨ho, hs⟩, h⟩ := h
  obtain ⟨hc, hop, hst⟩ := cleanup_spec h
  exact ⟨hc, hop.trans ho, hst.trans hs⟩

theorem revoke_spec (h : revokeNativeGuestAccount sha256 env now row a = .ok r) :
    CleaningUp sha256 env now row .revoke r ∧ row.state ≠ .idle ∧ row.operation ≠ .revoke := by
  unfold revokeNativeGuestAccount at h
  simp only [seq_eq_ok, ensure_eq_ok, and_eq_true, bne_iff_ne] at h
  obtain ⟨⟨hs, ho⟩, h⟩ := h
  obtain ⟨hc, hop, hst⟩ := cleanup_spec h
  exact ⟨hc, hst ▸ hs, hop ▸ ho⟩

structure Completed (env : NativeEnv) (now : ℕ) (row : NativeGuestRow) (a : NativeGuestAccount)
    (r : NativeGuestRow) : Prop where
  eq : r = { row with state := .applied, nativeSessionDigest := none }
  checks : r.checks = true
  pending : row.state = .pending
  pin : row.samePin a = true
  revision : row.revision = a.revision
  operation : row.operation = a.operation
  live : row.operation = .issue → row.expiresAt.any (now < ·) = true ∧ env.issueCompletable = true
  write : writeNativeRow env now (some row) r = .ok r

theorem complete_spec (h : completeNativeGuestAccountOperation sha256 env now row a = .ok r) :
    Completed env now row a r := by
  unfold completeNativeGuestAccountOperation at h
  simp only [seq_eq_ok, ensure_eq_ok, and_eq_true, or_eq_true, bne_iff_ne, beq_iff_eq,
    and_assoc] at h
  obtain ⟨-, -, -, hpin, hrev, hop, hst, -, -, hlive, h⟩ := h
  obtain ⟨rfl, hc, -⟩ := writeNativeRow_ok h
  exact ⟨rfl, hc, hst, hpin, hrev, hop, fun ho => hlive.resolve_left fun hne => hne ho, h⟩

structure Recovered (env : NativeEnv) (now : ℕ) (row : NativeGuestRow) (a : NativeGuestAccount)
    (revision : ℕ) (connectionId : String) (r : NativeGuestRow) : Prop where
  eq : r = { row with revision := revision, connectionId := connectionId }
  operation : row.operation = .revoke
  applied : row.state = .applied
  expected : row.revision = a.revision ∧ row.connectionId = a.connectionId
  raised : row.revision < revision
  unused : env.identifierUsed = false
  write : writeNativeRow env now (some row) r = .ok r

theorem recovery_spec {revision : ℕ}
    (h : commitNativeGuestRecovery sha256 env now row a revision connectionId receipt = .ok r) :
    Recovered env now row a revision connectionId r := by
  unfold commitNativeGuestRecovery at h
  simp only [seq_eq_ok, ensure_eq_ok, and_eq_true, beq_iff_eq, decide_eq_true_eq,
    mapError_eq_ok, and_assoc] at h
  obtain ⟨-, -, -, hst, -, hlt, -, -, -, -, -, hrev, hconn, hop, hstate, h⟩ := h
  have happlied : row.state = .applied := hstate.trans hst
  rw [← hrev] at hlt
  obtain ⟨rfl, -, hp⟩ := writeNativeRow_ok h
  refine ⟨rfl, hop, happlied, ⟨hrev, hconn⟩, hlt, ?_, h⟩
  -- without the receipt the trigger finds neither a completion nor a pending intent
  simp only [protectNativeGuestAccountVersion, protectUpdate, seq_eq_ok] at hp
  have hp := hp.2
  split at hp
  · simpa using hp
  · rw [if_neg (by omega), if_neg (by simp [happlied])] at hp
    cases hp

theorem writeNativeRow_pin (h : writeNativeRow env now old new = .ok r) :
    env.osIdentityTaken = false ∧ (r.guestUid = 0 ∨ 1000 ≤ r.guestUid) ∧
      ∀ row, old = some row →
        r.toNativeGuestAccount.samePin row.toNativeGuestAccount = true := by
  obtain ⟨rfl, hc, hp⟩ := writeNativeRow_ok h
  unfold writeNativeRow at h
  simp only [seq_eq_ok, ensure_eq_ok, Bool.not_eq_true'] at h
  refine ⟨h.2.1, ?_, ?_⟩
  · simp only [NativeGuestRow.checks, and_eq_true] at hc
    have hos := hc.1.1.2
    split at hos
    · simp only [and_eq_true, decide_eq_true_eq] at hos
      exact .inr hos.1
    · simp only [and_eq_true, beq_iff_eq] at hos
      exact .inl hos.1
  · rintro row rfl
    simp only [protectNativeGuestAccountVersion, protectUpdate, seq_eq_ok, ensure_eq_ok] at hp
    exact hp.1

section Writes

variable {old : Option NativeGuestRow}

theorem write_of_write (h : writeNativeRow env now old new = .ok r) :
    writeNativeRow env now old r = .ok r :=
  (writeNativeRow_ok h).1 ▸ h

theorem write_of_bind {digest : List UInt8}
    (h : bindNativeGuestAccount sha256 env now old a digest = .ok r) :
    writeNativeRow env now old r = .ok r := by
  cases old with
  | none =>
    simp only [bindNativeGuestAccount, seq_eq_ok] at h
    exact write_of_write h.2.2
  | some row =>
    simp only [bindNativeGuestAccount, seq_eq_ok] at h
    exact write_of_write h.2.2.2

end Writes

theorem validateIdentity_of_row (hc : row.checks = true) (hv : row.validIdentity sha256 = true) :
    Native.validateIdentity row.identity = .ok () := by
  have hname : row.identity.validName "vcw" = true := by
    simp only [NativeGuestRow.checks, and_eq_true] at hc
    exact hc.1.1.1.1
  have hacc : validAccount row.osFamily row.guestUid row.guestSid = true := by
    simp only [NativeGuestAccount.validIdentity, and_eq_true] at hv
    exact hv.2
  exact validateFor_of_account hname hacc

theorem validConnection_of_nativeConnectionId {id : String} (h : nativeConnectionId id = true) :
    Native.validConnection id = true := by
  simp only [nativeConnectionId, and_eq_true, decide_eq_true_eq] at h
  obtain ⟨⟨⟨hs, hlo⟩, hhi⟩, hall⟩ := h
  obtain ⟨rest, hrest⟩ := List.isPrefixOf_iff_prefix.mp hs
  have hdrop : (bytes id).drop 5 = rest := by
    rw [← hrest]
    exact List.drop_left' (by decide)
  have hconn : (bytes "conn_").all isTokenByte = true := by decide
  have hlen : (bytes id).length = 5 + rest.length := by
    rw [← hrest, List.length_append]
    rfl
  rw [hdrop] at hlo hhi hall
  simp only [Native.validConnection, and_eq_true, decide_eq_true_eq]
  refine ⟨⟨⟨by omega, by omega⟩, hs⟩, ?_⟩
  rw [← hrest, List.all_append, hconn, hall]
  rfl

end Spec

section Sample

/-- An environment in which every store operation on the row is admitted. -/
def sampleEnv : NativeEnv :=
  ⟨true, true, false, false, false, false, false, false, false, false, true⟩

def sampleAccount (revision : ℕ) (operation : NativeOperation) (state : NativeState)
    (connectionId : String) (expiresAt : Option ℕ) : NativeGuestAccount :=
  ⟨100, "user", "vcw000000000000", .linux, 1001, "", revision, operation, state, connectionId,
    expiresAt⟩

end Sample

end VcWorkspace.Store
