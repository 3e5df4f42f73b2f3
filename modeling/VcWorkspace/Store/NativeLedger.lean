import VcWorkspace.Store.Footprint

/-! # The history of native accounts

The version trigger records every identifier of a credential, and a recovery
commits with an append-only receipt. The history of an account is what these
tables and its row say together: revisions rise one by one, except across a
recovery, and no identifier is used twice.
-/

namespace VcWorkspace.Store

open Transition Option Bool AccessState List

def AccessOp.intent : AccessOp → Option (ℕ × String)
  | .beginNativeGuestCredential _ a .. | .retireNativeGuestCredential _ a _
  | .revokeNativeGuestAccount _ a _ => some (a.desktopVmid, a.userId)
  | _ => none

def AccessOp.recovered : AccessOp → Option (ℕ × String)
  | .commitNativeGuestRecovery _ expected .. => some (expected.desktopVmid, expected.userId)
  | _ => none

def AccessState.row (s : AccessState) (vmid : ℕ) (userId : String) : Option NativeGuestRow :=
  s.grants.accounts.find? fun row => row.desktopVmid == vmid && row.userId == userId

namespace NativeLedger

/-- A row of `native_guest_credential_ids`. -/
structure CredentialId where
  connectionId : String
  desktopVmid : ℕ
  userId : String
  revision : ℕ
  deriving DecidableEq, Repr

/-- A row of `native_guest_recoveries`. -/
structure Recovery where
  id : String
  desktopVmid : ℕ
  userId : String
  actorUserId : String
  reason : String
  previousRevision : ℕ
  previousConnectionId : String
  recoveredRevision : ℕ
  recoveredConnectionId : String
  transactionId : ℕ
  deriving DecidableEq, Repr

def Recovery.checks (r : Recovery) : Bool :=
  1 ≤ r.reason.length && r.reason.length ≤ 500 && 0 < r.previousRevision &&
    r.previousRevision < r.recoveredRevision && nativeConnectionId r.recoveredConnectionId

/-- The store with the tables of the version trigger, the computer queues and the running
transaction. -/
structure World where
  access : AccessState
  credentialIds : List CredentialId
  recoveries : List Recovery
  computerRevocations : List (ℕ × Queue)
  txid : ℕ

inductive Event
  | access (op : AccessOp)
  /-- Other transactions leave any queues in the computer ledger. -/
  | computer (rows : List (ℕ × Queue))

def issued : AccessOp → Option CredentialId
  | .beginNativeGuestCredential _ a connectionId .. =>
    some ⟨connectionId, a.desktopVmid, a.userId, a.revision + 1⟩
  | .commitNativeGuestRecovery _ expected revision connectionId .. =>
    some ⟨connectionId, expected.desktopVmid, expected.userId, revision⟩
  | _ => none

def Event.issued : Event → Option CredentialId
  | .access op => NativeLedger.issued op
  | .computer _ => none

namespace World

variable (w : World)

def computerRevocationPending (vmid : ℕ) : Bool :=
  w.computerRevocations.any fun r => r.1 == vmid && r.2.pending

/-- What the trigger reads here when the account gets the revision and the identifier. -/
def nativeEnv (env : NativeEnv) (a : NativeGuestAccount) (revision : ℕ) (connectionId : String) :
    NativeEnv :=
  { env with
    computerRevocationPending := w.computerRevocationPending a.desktopVmid
    identifierUsed :=
      w.credentialIds.any (fun c => c.connectionId == connectionId ||
        (c.desktopVmid == a.desktopVmid && c.userId == a.userId && c.revision == revision)) ||
      w.access.grants.accounts.any (fun row => row.connectionId == connectionId &&
        !(row.desktopVmid == a.desktopVmid && row.userId == a.userId))
    recoveryReceipt := w.recoveries.any fun r =>
      r.desktopVmid == a.desktopVmid && r.userId == a.userId && r.previousRevision == a.revision &&
        r.previousConnectionId == a.connectionId && r.recoveredRevision == revision &&
        r.recoveredConnectionId == connectionId && r.transactionId == w.txid }

/-- The operation with what its statements read in the tables of this world. -/
def reading : AccessOp → AccessOp
  | .bindNativeGuestAccount env a digest now =>
    .bindNativeGuestAccount (w.nativeEnv env a 0 "") a digest now
  | .beginNativeGuestCredential env a connectionId expiresAt digest now =>
    .beginNativeGuestCredential (w.nativeEnv env a (a.revision + 1) connectionId) a connectionId
      expiresAt digest now
  | .retireNativeGuestCredential env a now =>
    .retireNativeGuestCredential (w.nativeEnv env a (a.revision + 1) a.connectionId) a now
  | .revokeNativeGuestAccount env a now =>
    .revokeNativeGuestAccount (w.nativeEnv env a (a.revision + 1) a.connectionId) a now
  | .completeNativeGuestAccountOperation env a now =>
    .completeNativeGuestAccountOperation (w.nativeEnv env a a.revision a.connectionId) a now
  | .commitNativeGuestRecovery env expected revision connectionId receipt quiet now =>
    .commitNativeGuestRecovery (w.nativeEnv env expected revision connectionId) expected revision
      connectionId receipt (quiet && !w.computerRevocationPending expected.desktopVmid) now
  | op => op

def insertRecovery (r : Recovery) : Except StoreError World := do
  ensure (.sql "23514" "native_guest_recoveries_check") r.checks
  ensure (.sql "23505" "native_guest_recoveries_pkey") (!w.recoveries.any (·.id == r.id))
  ensure (.sql "23505" "native_guest_recoveries_desktop_vmid_user_id_recovered_revision_key")
    (!w.recoveries.any fun q => q.desktopVmid == r.desktopVmid && q.userId == r.userId &&
      q.recoveredRevision == r.recoveredRevision)
  ensure (.sql "23503" "native_guest_recoveries_actor_user_id_fkey")
    (w.access.tables.users.any (·.id == r.actorUserId))
  ensure (.sql "23503" "native_guest_recoveries_desktop_vmid_user_id_fkey")
    (w.access.row r.desktopVmid r.userId).isSome
  pure { w with recoveries := w.recoveries ++ [r] }

def recovery (expected : NativeGuestAccount) (revision : ℕ) (connectionId : String)
    (receipt : RecoveryReceipt) : Recovery where
  id := receipt.receiptId
  desktopVmid := expected.desktopVmid
  userId := expected.userId
  actorUserId := receipt.actorId
  reason := trimSpace receipt.reason
  previousRevision := expected.revision
  previousConnectionId := expected.connectionId
  recoveredRevision := revision
  recoveredConnectionId := connectionId
  transactionId := w.txid

def record : AccessOp → Except StoreError World
  | .commitNativeGuestRecovery _ expected revision connectionId receipt _ _ =>
    (w.insertRecovery (w.recovery expected revision connectionId receipt)).mapError
      nativeRecoveryError
  | _ => pure w

variable (sha256 : Sha256)

def apply : Event → Except StoreError World
  | .access op => do
    let w₁ ← w.record op
    let access ← (w₁.reading op).apply sha256 w₁.access
    pure { w₁ with
      access := access
      credentialIds := w₁.credentialIds ++ (issued op).toList
      txid := w₁.txid + 1 }
  | .computer rows => pure { w with computerRevocations := rows, txid := w.txid + 1 }

end World

/-- The store, one committed transaction after the other; a failed one leaves no trace. -/
def ledger (sha256 : Sha256) : Machine World Event where
  Init w := (accessStore sha256).Init w.access ∧ w.credentialIds = [] ∧ w.recoveries = []
  step w e := (w.apply sha256 e).toOption

variable {sha256 : Sha256} {op : AccessOp} {vmid : ℕ} {user : String}
  {row : NativeGuestRow}

section Rows

variable {s s' : AccessState} {row₀ row₁ : NativeGuestRow} {a : NativeGuestAccount}

theorem row_of_put (ha : s.account a = some row₀)
    (hpin : row₁.toNativeGuestAccount.samePin row₀.toNativeGuestAccount = true)
    (hs' : s'.grants.accounts = (s.putAccount row₁).grants.accounts) : s'.row vmid user =
      if (a.desktopVmid, a.userId) = (vmid, user) then some row₁ else s.row vmid user := by
  obtain ⟨hv, hu, -⟩ := NativeGuestAccount.samePin_iff.mp hpin
  have hkey := find?_some ha
  simp only [and_eq_true, beq_iff_eq] at hkey
  have hfind : s'.row vmid user = (s.row vmid user).map fun r =>
      if r.desktopVmid == row₁.desktopVmid && r.userId == row₁.userId then row₁ else r := by
    rw [AccessState.row, hs']
    refine find_updateWhere fun r hr => ?_
    simp only [and_eq_true, beq_iff_eq] at hr
    rw [hr.1, hr.2]
  rw [hfind]
  split
  next heq =>
    cases heq
    rw [show s.row a.desktopVmid a.userId = some row₀ from ha]
    simp [hv, hu]
  next hne =>
    cases hr : s.row vmid user with
    | none => rfl
    | some r =>
      have hother := find?_some hr
      simp only [and_eq_true, beq_iff_eq] at hother
      rw [map_some, if_neg]
      simp only [and_eq_true, beq_iff_eq, hv, hu, hkey, hother]
      rintro ⟨rfl, rfl⟩
      exact hne rfl

structure Advances (op : AccessOp) (vmid : ℕ) (user : String) (row row' : NativeGuestRow) :
    Prop where
  pin : row'.toNativeGuestAccount.samePin row.toNativeGuestAccount = true
  revision : op.recovered ≠ some (vmid, user) →
    row'.revision = row.revision + if op.intent = some (vmid, user) then 1 else 0
  connection : issued op = none → row'.connectionId = row.connectionId

theorem samePin_refl (a : NativeGuestAccount) : a.samePin a = true := by
  simp [NativeGuestAccount.samePin]

theorem Advances.rests (hop : op.intent ≠ some (vmid, user)) : Advances op vmid user row row :=
  ⟨samePin_refl _, fun _ => by rw [if_neg hop, Nat.add_zero], fun _ => rfl⟩

theorem advances_of_put (ha : s.account a = some row₀)
    (hs' : s'.grants.accounts = (s.putAccount row₁).grants.accounts)
    (hr : s.row vmid user = some row) (hself : Advances op a.desktopVmid a.userId row₀ row₁)
    (hop : op.intent = none ∨ op.intent = some (a.desktopVmid, a.userId)) :
    ∃ row', s'.row vmid user = some row' ∧ Advances op vmid user row row' := by
  rw [row_of_put ha hself.pin hs']
  split
  next heq =>
    cases heq
    cases ha.symm.trans hr
    exact ⟨row₁, rfl, hself⟩
  next hne =>
    refine ⟨row, hr, .rests fun heq => ?_⟩
    rcases hop with hop | hop
    · rw [hop] at heq
      cases heq
    · exact hne (Option.some.inj (hop.symm.trans heq))

theorem advances_of_cleanup {env : NativeEnv} {now : ℕ} {kind : NativeOperation}
    (h : CleaningUp sha256 env now row₀ kind row₁) (hop : op.intent = some (vmid, user)) :
    Advances op vmid user row₀ row₁ :=
  ⟨h.pin, fun _ => by rw [if_pos hop, h.revision], fun _ => h.connection⟩

theorem accounts_of_complete {env : NativeEnv} {now : ℕ}
    (h : s.completeNativeGuestAccountOperation sha256 env a now = .ok s') :
    ∃ row₀ row₁, s.account a = some row₀ ∧ row₀.state = .pending ∧
      row₁ = { row₀ with state := .applied, nativeSessionDigest := none } ∧
      s'.grants.accounts = (s.putAccount row₁).grants.accounts := by
  obtain ⟨row₀, row₁, ha, hrow, hs'⟩ := completeNativeGuestAccountOperation_ok h
  obtain ⟨heq, -, hst, -⟩ := complete_spec hrow
  refine ⟨row₀, row₁, ha, hst, heq, ?_⟩
  obtain ⟨expiresAt, hinsert⟩ | rfl := hs'
  · obtain ⟨c, -, hinsert⟩ := bind_eq_ok.mp hinsert
    cases hinsert
    rfl
  · rfl

theorem advances_of_apply (h : op.apply sha256 s = .ok s') (hr : s.row vmid user = some row) :
    ∃ row', s'.row vmid user = some row' ∧ Advances op vmid user row row' := by
  cases hn : op.native with
  | false =>
    refine ⟨row, ?_, .rests ?_⟩
    · rw [AccessState.row, (Footprint.applies_of_apply sha256 h).change.spares.accounts hn]
      exact hr
    · rw [show op.intent = none by cases op <;> first | rfl | cases hn]
      exact (Option.some_ne_none _).symm
  | true =>
    cases op with
    | bindNativeGuestAccount env a digest now =>
      obtain ⟨row₁, hrow, h⟩ := bind_eq_ok.mp h
      cases h
      cases ha : s.account a with
      | none =>
        refine ⟨row, ?_, .rests (Option.some_ne_none _).symm⟩
        rw [AccessState.row] at hr ⊢
        change (s.grants.accounts ++ [row₁]).find? _ = _
        rw [find?_append, hr, some_or]
      | some row₀ =>
        rw [ha] at hrow
        obtain rfl := bind_update_spec hrow
        exact advances_of_put ha rfl hr (.rests (Option.some_ne_none _).symm) (.inl rfl)
    | beginNativeGuestCredential env a connectionId expiresAt digest now =>
      obtain ⟨row₀, row₁, ha, hrow, rfl⟩ := updateAccount_ok h
      have hissued := begin_spec hrow
      refine advances_of_put ha rfl hr
        ⟨hissued.pin, fun _ => ?_, fun hn => (Option.some_ne_none _ hn).elim⟩ (.inr rfl)
      rw [AccessOp.intent, if_pos rfl, hissued.revision]
    | retireNativeGuestCredential env a now =>
      obtain ⟨row₀, row₁, ha, hrow, rfl⟩ := updateAccount_ok h
      exact advances_of_put ha rfl hr (advances_of_cleanup (retire_spec hrow).1 rfl) (.inr rfl)
    | revokeNativeGuestAccount env a now =>
      obtain ⟨row₀, row₁, ha, hrow, rfl⟩ := updateAccount_ok h
      exact advances_of_put ha rfl hr (advances_of_cleanup (revoke_spec hrow).1 rfl) (.inr rfl)
    | completeNativeGuestAccountOperation env a now =>
      obtain ⟨row₀, row₁, ha, -, rfl, hs'⟩ := accounts_of_complete h
      exact advances_of_put ha hs' hr ⟨samePin_refl _, fun _ => rfl, fun _ => rfl⟩ (.inl rfl)
    | commitNativeGuestRecovery env expected revision connectionId receipt quiet now =>
      simp only [AccessOp.apply, AccessState.commitNativeGuestRecovery, seq_eq_ok] at h
      obtain ⟨row₀, row₁, ha, hrow, rfl⟩ := updateAccount_ok h.2
      obtain ⟨rfl, -⟩ := recovery_spec hrow
      exact advances_of_put ha rfl hr ⟨samePin_refl _, fun hne => (hne rfl).elim,
        fun hn => (Option.some_ne_none _ hn).elim⟩ (.inl rfl)
    | _ => cases hn

end Rows

variable {w w' : World} {e : Event}

section Steps

variable {w₁ : World} {row' : NativeGuestRow}

@[simp] theorem intent_reading : (w.reading op).intent = op.intent := by cases op <;> rfl

@[simp] theorem recovered_reading : (w.reading op).recovered = op.recovered := by cases op <;> rfl

@[simp] theorem issued_reading : issued (w.reading op) = issued op := by cases op <;> rfl

inductive Records (w w₁ : World) : AccessOp → Prop
  | nothing {op : AccessOp} (hop : op.recovered = none) (hw : w₁ = w) : Records w w₁ op
  | receipt {env : NativeEnv} {expected : NativeGuestAccount} {revision : ℕ}
      {connectionId : String} {receipt : RecoveryReceipt} {quiet : Bool} {now : ℕ}
      (hw : w₁ = { w with
        recoveries := w.recoveries ++ [w.recovery expected revision connectionId receipt] }) :
      Records w w₁ (.commitNativeGuestRecovery env expected revision connectionId receipt quiet now)

theorem records_of_record (h : w.record op = .ok w₁) : Records w w₁ op := by
  cases op with
  | commitNativeGuestRecovery =>
    simp only [World.record, World.insertRecovery, mapError_eq_ok, seq_eq_ok] at h
    exact .receipt (Except.ok.inj h.2.2.2.2.2).symm
  | _ => exact .nothing rfl (Except.ok.inj h).symm

/-- A committed transaction: its receipt, its statements and the identifier it used. -/
structure Commits (sha256 : Sha256) (op : AccessOp) (w w₁ w' : World) :
    Prop where
  records : Records w w₁ op
  apply : (w₁.reading op).apply sha256 w₁.access = .ok w'.access
  credentialIds : w'.credentialIds = w.credentialIds ++ (issued op).toList
  recoveries : w'.recoveries = w₁.recoveries
  access : w₁.access = w.access
  identifiers : w₁.credentialIds = w.credentialIds
  txid : w'.txid = w.txid + 1

theorem commits_of_step (h : (ledger sha256).step w (.access op) = some w') :
    ∃ w₁, Commits sha256 op w w₁ w' := by
  obtain ⟨w₁, hrecord, h⟩ := bind_eq_ok.mp (toOption_eq_some.mp h)
  obtain ⟨access, happly, h⟩ := bind_eq_ok.mp h
  cases h
  have hrecords := records_of_record hrecord
  have hw : w₁.access = w.access ∧ w₁.credentialIds = w.credentialIds ∧ w₁.txid = w.txid := by
    cases hrecords with
    | nothing _ hw | receipt hw => exact hw ▸ ⟨rfl, rfl, rfl⟩
  exact ⟨w₁, hrecords, happly, by rw [hw.2.1], rfl, hw.1, hw.2.1, by rw [hw.2.2]⟩

theorem ne_of_unused (env : NativeEnv) {a : NativeGuestAccount} {revision : ℕ}
    {connectionId : String} (h : (w.nativeEnv env a revision connectionId).identifierUsed = false) :
    ∀ c ∈ w.credentialIds, c.connectionId ≠ connectionId := by
  intro c hc heq
  simp only [World.nativeEnv, or_eq_false_iff, List.any_eq_false, not_eq_true] at h
  simpa [heq] using (h.1 c hc).1

theorem Commits.issues {c : CredentialId} (h : Commits sha256 op w w₁ w')
    (hc : issued op = some c) : (∀ d ∈ w.credentialIds, d.connectionId ≠ c.connectionId) ∧
      ∃ row', w'.access.row c.desktopVmid c.userId = some row' ∧
        row'.connectionId = c.connectionId ∧ row'.revision = c.revision := by
  have happly := h.apply
  rw [← h.identifiers]
  cases op with
  | beginNativeGuestCredential env a =>
    obtain ⟨row₀, row₁, ha, hrow, hput⟩ := updateAccount_ok happly
    cases hc
    have hissued := begin_spec hrow
    refine ⟨ne_of_unused env hissued.unused, row₁, ?_, hissued.connection, ?_⟩
    · rw [row_of_put ha hissued.pin (congrArg (·.grants.accounts) hput), if_pos rfl]
    · rw [hissued.revision, hissued.expected]
  | commitNativeGuestRecovery env =>
    simp only [World.reading, AccessOp.apply, AccessState.commitNativeGuestRecovery,
      seq_eq_ok] at happly
    obtain ⟨row₀, row₁, ha, hrow, hput⟩ := updateAccount_ok happly.2
    cases hc
    have hspec := recovery_spec hrow
    refine ⟨ne_of_unused env hspec.unused, row₁, ?_, by rw [hspec.eq], by rw [hspec.eq]⟩
    rw [row_of_put ha (hspec.eq ▸ samePin_refl _) (congrArg (·.grants.accounts) hput), if_pos rfl]
  | _ => cases hc

/-- A recovery of an account with the one receipt it commits with. -/
structure Recovers (w : World) (row : NativeGuestRow) (w' : World) (row' : NativeGuestRow)
    (r : Recovery) : Prop where
  revoked : row.operation = .revoke ∧ row.state = .applied
  closed : w.access.grants.connectionOpen row.desktopVmid = false
  settled : w.access.grants.revocationPending row.desktopVmid = false ∧
    w.computerRevocationPending row.desktopVmid = false
  subject : r.desktopVmid = row.desktopVmid ∧ r.userId = row.userId
  previous : r.previousRevision = row.revision ∧ r.previousConnectionId = row.connectionId
  recovered : r.recoveredRevision = row'.revision ∧ r.recoveredConnectionId = row'.connectionId
  raised : row.revision < row'.revision
  receipt : w'.recoveries = w.recoveries ++ [r]
  transaction : r.transactionId = w.txid

theorem Commits.recovers (h : Commits sha256 op w w₁ w') (hop : op.recovered = some (vmid, user))
    (hr : w.access.row vmid user = some row) (hr' : w'.access.row vmid user = some row') :
    ∃ r, Recovers w row w' row' r := by
  cases h.records with
  | nothing hnone => rw [hnone] at hop; cases hop
  | @receipt env expected revision connectionId receipt quiet now hw =>
    have happly := h.apply
    simp only [World.reading, AccessOp.apply, AccessState.commitNativeGuestRecovery,
      seq_eq_ok, ensure_eq_ok, AccessState.recoverySafe, and_eq_true,
      not_eq_true'] at happly
    obtain ⟨⟨⟨⟨⟨⟨⟨-, hcomputer⟩, -⟩, hopen⟩, -⟩, -⟩, hpending⟩, hupdate⟩ := happly
    obtain ⟨row₀, row₁, ha, hrow, hput⟩ := updateAccount_ok hupdate
    obtain ⟨hrow₁, hrevoke, happlied, ⟨hrev, hconn⟩, hlt, -⟩ := recovery_spec hrow
    cases hop
    -- the account that the statement updates is the one of the subject
    cases ha.symm.trans (h.access ▸ hr)
    have hkey := find?_some hr
    simp only [and_eq_true, beq_iff_eq] at hkey
    have hput' : w'.access.row expected.desktopVmid expected.userId = _ :=
      row_of_put ha (hrow₁ ▸ samePin_refl _) (congrArg (·.grants.accounts) hput)
    rw [if_pos rfl, hr'] at hput'
    cases hput'
    subst hrow₁ hw
    refine ⟨w.recovery expected revision connectionId receipt, ?_⟩
    exact
      { revoked := ⟨hrevoke, happlied⟩
        closed := hkey.1 ▸ hopen
        settled := ⟨hkey.1 ▸ hpending, hkey.1 ▸ hcomputer⟩
        subject := ⟨hkey.1.symm, hkey.2.symm⟩
        previous := ⟨hrev.symm, hconn.symm⟩
        recovered := ⟨rfl, rfl⟩
        raised := hlt
        receipt := h.recoveries
        transaction := rfl }

end Steps

variable {es : List Event}

section Runs

/-- The identifiers are unique, and every receipt is of an earlier transaction. -/
structure Sound (w : World) : Prop where
  unique : (w.credentialIds.map (·.connectionId)).Nodup
  past : ∀ r ∈ w.recoveries, r.transactionId < w.txid

theorem Sound.step (hs : Sound w) (h : (ledger sha256).step w e = some w') : Sound w' := by
  cases e with
  | computer rows =>
    cases h
    exact ⟨hs.unique, fun r hr => (hs.past r hr).trans (Nat.lt_succ_self _)⟩
  | access op =>
    obtain ⟨w₁, hc⟩ := commits_of_step h
    constructor
    · rw [hc.credentialIds]
      cases hi : issued op with
      | none => simpa using hs.unique
      | some c =>
        have hfresh := (hc.issues hi).1
        rw [toList_some, map_append, nodup_append]
        refine ⟨hs.unique, by simp, fun i hi j hj => ?_⟩
        obtain ⟨d, hd, rfl⟩ := mem_map.mp hi
        obtain rfl : j = c.connectionId := by simpa using hj
        exact hfresh d hd
    · rw [hc.recoveries, hc.txid]
      intro r hr
      cases hc.records with
      | nothing _ hw => exact (hs.past r (hw ▸ hr)).trans (Nat.lt_succ_self _)
      | receipt hw =>
        rw [hw] at hr
        rcases mem_append.mp hr with hr | hr
        · exact (hs.past r hr).trans (Nat.lt_succ_self _)
        · rw [mem_singleton.mp hr]
          exact Nat.lt_succ_self _

theorem sound_of_reachable (hw : (ledger sha256).Reachable w) : Sound w := by
  refine hw.invariant ?_ fun w e w' _ hs h => hs.step h
  rintro w ⟨-, hids, hrecs⟩
  exact ⟨by simp [hids], by simp [hrecs]⟩

theorem credentialIds_of_run (h : (ledger sha256).run w es = some w') :
    w'.credentialIds = w.credentialIds ++ es.filterMap Event.issued := by
  induction es generalizing w with
  | nil => simp [Machine.run_nil.mp h]
  | cons e es ih =>
    obtain ⟨u, hu, h⟩ := Machine.run_cons.mp h
    have hstep : u.credentialIds = w.credentialIds ++ e.issued.toList := by
      cases e with
      | computer rows =>
        cases hu
        simp [Event.issued]
      | access op =>
        obtain ⟨w₁, hc⟩ := commits_of_step hu
        exact hc.credentialIds
    rw [ih h, hstep, append_assoc]
    cases hi : e.issued <;> simp [hi]

/-- Across a step the receipts only grow, and a row keeps its identity and does not fall back. -/
structure Follows (w w' : World) : Prop where
  receipts : w.recoveries <+: w'.recoveries
  rows : ∀ vmid user row, w.access.row vmid user = some row →
    ∃ row', w'.access.row vmid user = some row' ∧
      row'.toNativeGuestAccount.samePin row.toNativeGuestAccount = true ∧
      row.revision ≤ row'.revision

theorem Follows.refl (w : World) : Follows w w :=
  ⟨prefix_refl _, fun _ _ row hr => ⟨row, hr, samePin_refl _, le_rfl⟩⟩

theorem Follows.trans {w'' : World} (h : Follows w w') (h' : Follows w' w'') : Follows w w'' := by
  refine ⟨h.receipts.trans h'.receipts, fun vmid user row hr => ?_⟩
  obtain ⟨row₁, hr₁, hpin, hle⟩ := h.rows vmid user row hr
  obtain ⟨row₂, hr₂, hpin', hle'⟩ := h'.rows vmid user row₁ hr₁
  refine ⟨row₂, hr₂, ?_, hle.trans hle'⟩
  rw [NativeGuestAccount.samePin_iff] at hpin hpin' ⊢
  obtain ⟨h₁, h₂, h₃, h₄, h₅, h₆⟩ := hpin
  rwa [← h₁, ← h₂, ← h₃, ← h₄, ← h₅, ← h₆]

theorem Commits.advances {op : AccessOp} {w₁ : World} {vmid : ℕ} {user : String}
    {row : NativeGuestRow} (h : Commits sha256 op w w₁ w')
    (hr : w.access.row vmid user = some row) :
    ∃ row', w'.access.row vmid user = some row' ∧ Advances op vmid user row row' := by
  obtain ⟨row', hr', hadv⟩ := advances_of_apply h.apply (h.access.symm ▸ hr)
  exact ⟨row', hr', hadv.pin, by simpa using hadv.revision, by simpa using hadv.connection⟩

theorem Commits.receipts_of_not_recovery {op : AccessOp} {w₁ : World}
    (h : Commits sha256 op w w₁ w') (hop : op.recovered = none) : w'.recoveries = w.recoveries := by
  cases h.records with
  | nothing _ hw => rw [h.recoveries, hw]
  | receipt => cases hop

theorem follows_of_step (h : (ledger sha256).step w e = some w') : Follows w w' := by
  cases e with
  | computer rows =>
    cases h
    exact ⟨prefix_refl _, (Follows.refl w).rows⟩
  | access op =>
    obtain ⟨w₁, hc⟩ := commits_of_step h
    refine ⟨?_, fun vmid user row hr => ?_⟩
    · rw [hc.recoveries]
      cases hc.records with
      | nothing _ hw => exact hw ▸ prefix_refl _
      | receipt hw => exact hw ▸ prefix_append _ _
    · obtain ⟨row', hr', hadv⟩ := hc.advances hr
      refine ⟨row', hr', hadv.pin, ?_⟩
      by_cases hop : op.recovered = some (vmid, user)
      · obtain ⟨r, hrec⟩ := hc.recovers hop hr hr'
        exact hrec.raised.le
      · exact (hadv.revision hop).symm ▸ Nat.le_add_right _ _

theorem follows_of_leads (h : (ledger sha256).Leads w w') : Follows w w' :=
  h.relates (P := fun _ => True) Follows.refl (fun _ _ _ => Follows.trans)
    (fun _ _ _ _ _ => trivial)
    (fun _ _ _ _ => follows_of_step) trivial

end Runs

section Results

variable {w₀ : World}

/-- The history of native accounts: no identifier is issued or recovered twice, a transaction
raises only the revision it begins an intent for, by one, and a recovery raises it to the recovered
one, with a receipt of its own and from a safe state. Receipts and identities stay. -/
theorem native_revision_history (hinit : (ledger sha256).Init w₀)
    (hrun : (ledger sha256).run w₀ es = some w) :
    ((es.filterMap Event.issued).map (·.connectionId)).Nodup ∧
    (∀ op w', (ledger sha256).step w (.access op) = some w' →
      (∀ c, issued op = some c → ∃ row', w'.access.row c.desktopVmid c.userId = some row' ∧
        row'.connectionId = c.connectionId ∧ row'.revision = c.revision) ∧
      (op.recovered = none → w'.recoveries = w.recoveries) ∧
      ∀ vmid user row, w.access.row vmid user = some row →
        ∃ row', w'.access.row vmid user = some row' ∧
          (issued op = none → row'.connectionId = row.connectionId) ∧
          if op.recovered = some (vmid, user) then
            (∃ r, Recovers w row w' row' r) ∧ ∀ r ∈ w.recoveries, r.transactionId < w.txid
          else row'.revision = row.revision + if op.intent = some (vmid, user) then 1 else 0) ∧
    ∀ w', (ledger sha256).Leads w w' → Follows w w' := by
  have hw : (ledger sha256).Reachable w := ⟨w₀, hinit, es, hrun⟩
  have hs := sound_of_reachable hw
  refine ⟨?_, fun op w' hstep => ?_, fun w' => follows_of_leads⟩
  · have hids := credentialIds_of_run hrun
    rw [hinit.2.1, nil_append] at hids
    exact hids ▸ hs.unique
  · obtain ⟨w₁, hc⟩ := commits_of_step hstep
    refine ⟨fun c hi => (hc.issues hi).2, hc.receipts_of_not_recovery, fun vmid user row hr => ?_⟩
    obtain ⟨row', hr', hadv⟩ := hc.advances hr
    refine ⟨row', hr', hadv.connection, ?_⟩
    split
    next hop => exact ⟨hc.recovers hop hr hr', hs.past⟩
    next hop => exact hadv.revision hop

end Results

section Sample

/-- A user of an assigned desktop logs in and reserves a credential. -/
def sampleIssue : List AccessOp :=
  .createUser ⟨"admin", "admin", none, .platformAdmin, false⟩ :: sampleBound ++
    [sampleLogin, .bindNativeGuestAccount sampleEnv (sampleAccount 0 .none .idle "" none)
        sampleSession.tokenDigest 0,
      .beginNativeGuestCredential sampleEnv (sampleAccount 0 .none .idle "" none)
        "conn_example_one" 80000000 sampleSession.tokenDigest 0]

def sampleComplete : AccessOp :=
  .completeNativeGuestAccountOperation sampleEnv
    (sampleAccount 1 .issue .pending "conn_example_one" (some 80000000)) 0

/-- The account is revoked, although the Guest reports a later revision. -/
def sampleRevoke : List AccessOp :=
  [sampleComplete, .revokeNativeGuestAccount sampleEnv
      (sampleAccount 1 .issue .applied "conn_example_one" (some 80000000)) 0,
    .completeNativeGuestAccountOperation sampleEnv
      (sampleAccount 2 .revoke .pending "conn_example_one" none) 0]

def sampleRecovery : AccessOp :=
  .commitNativeGuestRecovery sampleEnv (sampleAccount 2 .revoke .applied "conn_example_one" none) 9
    "conn_example_two" ⟨"admin", "receipt", "restored snapshot"⟩ true 0

def sampleWorld : World :=
  ⟨⟨⟨[], [], [], [], [], [], [], [], []⟩, ⟨[], [], [], [], [], []⟩⟩, [], [], [], 0⟩

/-- The recovery of a revoked account commits with its receipt. -/
theorem native_revision_history_recovered : ∃ w w' row row' r, (ledger sampleDigest).Reachable w ∧
      (ledger sampleDigest).step w (.access sampleRecovery) = some w' ∧
      w.access.row 100 "user" = some row ∧ w'.access.row 100 "user" = some row' ∧
      Recovers w row w' row' r := by
  obtain ⟨w, hw, hrow, hstep⟩ : ∃ w, (ledger sampleDigest).Reachable w ∧
      (w.access.row 100 "user").isSome = true ∧
      ((ledger sampleDigest).step w (.access sampleRecovery)).isSome = true :=
    Machine.exists_reachable_of_run sampleWorld ((sampleIssue ++ sampleRevoke).map .access)
      ⟨rfl, rfl, rfl⟩ (by decide +kernel)
  obtain ⟨row, hr⟩ := isSome_iff_exists.mp hrow
  obtain ⟨w', hw'⟩ := isSome_iff_exists.mp hstep
  obtain ⟨w₀, hinit, es, hrun⟩ := hw
  obtain ⟨row', hr', -, hrec⟩ :=
    ((native_revision_history hinit hrun).2.1 _ w' hw').2.2 100 "user" row hr
  obtain ⟨⟨r, hrec⟩, -⟩ := hrec
  exact ⟨w, w', row, row', r, ⟨w₀, hinit, es, hrun⟩, hw', hr, hr', hrec⟩

/-- The completion of an issue is a transaction on the account that leaves its revision. -/
theorem completion_keeps_revision : ∃ w w' row row', (ledger sampleDigest).Reachable w ∧
      (ledger sampleDigest).step w (.access sampleComplete) = some w' ∧
      sampleComplete.recovered = none ∧ w.access.row 100 "user" = some row ∧
      w'.access.row 100 "user" = some row' ∧ row.state = .pending ∧ row'.state = .applied ∧
      row'.revision = row.revision := by
  obtain ⟨w, hw, hrow, hstep⟩ : ∃ w, (ledger sampleDigest).Reachable w ∧
      (w.access.row 100 "user").any (fun row => row.state == .pending && row.revision == 1) = true ∧
      ((ledger sampleDigest).step w (.access sampleComplete)).any (fun w' =>
        (w'.access.row 100 "user").any fun row => row.state == .applied && row.revision == 1) =
        true :=
    Machine.exists_reachable_of_run sampleWorld (sampleIssue.map .access) ⟨rfl, rfl, rfl⟩
      (by decide +kernel)
  obtain ⟨row, hr, hrow⟩ := (any_eq_true _ _).mp hrow
  obtain ⟨w', hw', hstep⟩ := (any_eq_true _ _).mp hstep
  obtain ⟨row', hr', hrow'⟩ := (any_eq_true _ _).mp hstep
  simp only [and_eq_true, beq_iff_eq] at hrow hrow'
  exact ⟨w, w', row, row', hw, hw', rfl, hr, hr', hrow.1, hrow'.1, hrow'.2.trans hrow.2.symm⟩

end Sample

end NativeLedger

end VcWorkspace.Store
