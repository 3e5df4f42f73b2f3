import VcWorkspace.Store.AgentSession
import VcWorkspace.Store.NativeAccount
import VcWorkspace.Transition.RowHistory

/-! # Operating-system accounts of a desktop

The native accounts of users and the sessions of agents are two tables that
share the operating-system accounts of the desktops. Each table has its own
unique indexes; across the two a trigger reads the other table. The operations
that name an account run under the authorization lock.
-/

namespace VcWorkspace.Store.Pinning

open Transition ReadCommitted Guest

inductive Row
  | native (row : NativeGuestRow)
  | agent (row : AgentGuestSession)
  deriving DecidableEq

/-- A user or an agent on a desktop, which is the primary key of its table. -/
inductive Subject
  | user (desktop : ℕ) (userId : String)
  | agent (desktop : ℕ) (agentId : String)
  deriving DecidableEq

def Subject.desktop : Subject → ℕ
  | user desktop _ | agent desktop _ => desktop

namespace Row

def subject : Row → Subject
  | native row => .user row.desktopVmid row.userId
  | agent row => .agent row.desktopVmid row.agentId

def identity : Row → AccountIdentity
  | native row => row.identity
  | agent row => row.identity

def osFamily : Row → OsFamily
  | native row => row.osFamily
  | agent row => row.osFamily

def pinned (r : Row) : Bool := r.identity.uid != 0 || r.identity.sid != ""

def Below (r' r : Row) : Prop :=
  r'.subject = r.subject ∧ r'.identity = r.identity ∧ r'.osFamily = r.osFamily

def Pins (r r' : Row) : Prop :=
  r.subject = r'.subject ∧
    (r.pinned = true → r'.identity = r.identity ∧ r'.osFamily = r.osFamily)

end Row

def schema : Schema Subject Row where
  key := Row.subject
  Below := Row.Below
  refl _ := ⟨rfl, rfl, rfl⟩
  trans h h' := ⟨h.1.trans h'.1, h.2.1.trans h'.2.1, h.2.2.trans h'.2.2⟩
  key_eq h := h.1

section Statements

/-- Another subject of the desktop has the identifier, in either table. -/
def taken (fresh : List Row) (subject : Subject) (uid : ℕ) (sid : String) : Bool :=
  fresh.any fun b => b.subject.desktop == subject.desktop && b.subject != subject &&
    ((1000 ≤ uid && b.identity.uid == uid) || (sid != "" && b.identity.sid == sid))

def updateNative (env : NativeEnv) (a : NativeGuestAccount)
    (f : NativeEnv → ℕ → NativeGuestRow → Except StoreError NativeGuestRow) : Stmt Subject Row :=
  .write (.user a.desktopVmid a.userId) fun now _ fresh r => match r with
    | .native row =>
      (f { env with
        osIdentityTaken := taken fresh (.user row.desktopVmid row.userId) row.guestUid
          row.guestSid } now row).toOption.map .native
    | .agent _ => none

/-- Update the session of an agent, whose new version has the given identifiers. -/
def updateAgent (env : SessionEnv) (desktop : ℕ) (agentId : String)
    (pin : AgentGuestSession → ℕ × String)
    (f : SessionEnv → ℕ → AgentGuestSession → Except StoreError AgentGuestSession) :
    Stmt Subject Row :=
  .write (.agent desktop agentId) fun now _ fresh r => match r with
    | .agent row =>
      (f { env with
        identityTaken := taken fresh (.agent row.desktopVmid row.agentId) (pin row).1
          (pin row).2 } now row).toOption.map .agent
    | .native _ => none

def keep (row : AgentGuestSession) : ℕ × String := (row.guestUid, row.guestSid)

end Statements

section Programs

/-- The operations on the two tables. What they read from other tables is part of the operation,
and so is whether an upsert finds its row. -/
inductive Operation
  | bindNativeGuestAccount (env : NativeEnv) (a : NativeGuestAccount) (digest : List UInt8)
      (found : Bool)
  | beginNativeGuestCredential (env : NativeEnv) (a : NativeGuestAccount) (connectionId : String)
      (expiresAt : ℕ) (digest : List UInt8)
  | retireNativeGuestCredential (env : NativeEnv) (a : NativeGuestAccount)
  | revokeNativeGuestAccount (env : NativeEnv) (a : NativeGuestAccount)
  | completeNativeGuestAccountOperation (env : NativeEnv) (a : NativeGuestAccount)
  | commitNativeGuestRecovery (env : NativeEnv) (expected : NativeGuestAccount) (revision : ℕ)
      (connectionId : String) (receipt : RecoveryReceipt)
  | beginAgentGuestSession (env : SessionEnv) (desktop : ℕ) (lease : DesktopLease) (found : Bool)
  | bindAgentGuestAccount (env : SessionEnv) (item : AgentGuestSession) (revoking : Bool)
  | beginAgentGuestLogin (env : SessionEnv) (item : AgentGuestSession)
  | markAgentGuestSessionReady (env : SessionEnv) (item : AgentGuestSession)
  | completeAgentGuestSessionRevocation (env : SessionEnv) (item : AgentGuestSession)
  /-- A lease is closed, and a trigger revokes its session. -/
  | closeLease (leaseId : String)

variable (sha256 : Sha256)

def bindNativeGuestAccount (env : NativeEnv) (a : NativeGuestAccount) (digest : List UInt8)
    (found : Bool) : Stmt Subject Row :=
  if found then
    updateNative env a fun env now row =>
      Store.bindNativeGuestAccount sha256 env now (some row) a digest
  else
    .insert fun now _ fresh =>
      (Store.bindNativeGuestAccount sha256
        { env with
          osIdentityTaken := taken fresh (.user a.desktopVmid a.userId) a.guestUid a.guestSid }
        now none a digest).toOption.map .native

def beginAgentGuestSession (env : SessionEnv) (desktop : ℕ) (lease : DesktopLease)
    (found : Bool) : Stmt Subject Row :=
  if found then
    updateAgent env desktop lease.agentId keep fun env now row =>
      Store.beginAgentGuestSession sha256 env now desktop (some row) lease
  else
    .insert fun now _ fresh =>
      (Store.beginAgentGuestSession sha256
        { env with identityTaken := taken fresh (.agent desktop lease.agentId) 0 "" } now desktop
        none lease).toOption.map .agent

/-- An acknowledged revocation is a single statement without the lock. -/
def completeAgentGuestSessionRevocation (env : SessionEnv) (item : AgentGuestSession) :
    Stmt Subject Row :=
  .lower (fun _ V r => match r with
      | .agent row =>
        (Store.completeAgentGuestSessionRevocation
          { env with
            identityTaken := taken V (.agent row.desktopVmid row.agentId) row.guestUid
              row.guestSid } row item).isOk
      | .native _ => false)
    (fun _ r => match r with
      | .agent row => .agent { row with state := .disabled, sessionId := "", instanceId := "" }
      | .native row => .native row)

def closeLease (leaseId : String) : Stmt Subject Row :=
  .lower (fun _ _ r => match r with
      | .agent row => row.leaseId == leaseId && row.live
      | .native _ => false)
    (fun _ r => match r with
      | .agent row => .agent (revokeAgentGuestSession leaseId row)
      | .native row => .native row)

def program : Operation → List (Stmt Subject Row)
  | .bindNativeGuestAccount env a digest found =>
    [.lock, bindNativeGuestAccount sha256 env a digest found]
  | .beginNativeGuestCredential env a connectionId expiresAt digest =>
    [.lock, updateNative env a fun env now row =>
      Store.beginNativeGuestCredential sha256 env now row a connectionId expiresAt digest]
  | .retireNativeGuestCredential env a =>
    [.lock, updateNative env a fun env now row =>
      Store.retireNativeGuestCredential sha256 env now row a]
  | .revokeNativeGuestAccount env a =>
    [.lock, updateNative env a fun env now row =>
      Store.revokeNativeGuestAccount sha256 env now row a]
  | .completeNativeGuestAccountOperation env a =>
    [.lock, updateNative env a fun env now row =>
      Store.completeNativeGuestAccountOperation sha256 env now row a]
  | .commitNativeGuestRecovery env expected revision connectionId receipt =>
    [.lock, updateNative env expected fun env now row =>
      Store.commitNativeGuestRecovery sha256 env now row expected revision connectionId receipt]
  | .beginAgentGuestSession env desktop lease found =>
    [.lock, beginAgentGuestSession sha256 env desktop lease found]
  | .bindAgentGuestAccount env item revoking =>
    [.lock, updateAgent env item.desktopVmid item.agentId (fun _ => (item.guestUid, item.guestSid))
      fun env _ row => Store.bindAgentGuestAccount sha256 env row item revoking]
  | .beginAgentGuestLogin env item =>
    [.lock, updateAgent env item.desktopVmid item.agentId keep
      fun env _ row => Store.beginAgentGuestLogin sha256 env row item]
  | .markAgentGuestSessionReady env item =>
    [.lock, updateAgent env item.desktopVmid item.agentId keep
      fun env _ row => Store.markAgentGuestSessionReady sha256 env row item]
  | .completeAgentGuestSessionRevocation env item => [completeAgentGuestSessionRevocation env item]
  | .closeLease leaseId => [closeLease leaseId]

def accounts : Machine (System Subject Row) (Event Operation Row) := machine schema (program sha256)

end Programs

section Rows

variable {a b r r' : Row} {V : List Row} {t : ℕ}

def Clear (a b : Row) : Prop :=
  (a.identity.uid ≠ 0 → a.identity.uid ≠ b.identity.uid) ∧
    (a.identity.sid ≠ "" → a.identity.sid ≠ b.identity.sid)

/-- User identifiers are out of the system's range, and different subjects of a desktop have
different identifiers. -/
structure Distinct (_ : ℕ) (V : List Row) : Prop where
  uid : ∀ r ∈ V, r.identity.uid = 0 ∨ 1000 ≤ r.identity.uid
  clear : ∀ a ∈ V, ∀ b ∈ V, a.subject ≠ b.subject → a.subject.desktop = b.subject.desktop →
    Clear a b

theorem stable : Stable schema Distinct where
  later h _ := ⟨h.uid, h.clear⟩
  under h hu := by
    constructor
    · intro r' hr'
      obtain ⟨r, hr, -, hi, -⟩ := hu r' hr'
      exact hi ▸ h.uid r hr
    · intro a' ha' b' hb' hne hd
      obtain ⟨a, ha, hsa, hia, -⟩ := hu a' ha'
      obtain ⟨b, hb, hsb, hib, -⟩ := hu b' hb'
      rw [Clear, hia, hib]
      exact h.clear a ha b hb (hsa ▸ hsb ▸ hne) (hsa ▸ hsb ▸ hd)

structure Admitted (V : List Row) (r : Row) : Prop where
  uid : r.identity.uid = 0 ∨ 1000 ≤ r.identity.uid
  free : taken V r.subject r.identity.uid r.identity.sid = false

theorem Admitted.clear (h : Admitted V r) (hb : b ∈ V) (hne : b.subject ≠ r.subject)
    (hd : b.subject.desktop = r.subject.desktop) : Clear r b ∧ Clear b r := by
  have hno := List.any_eq_false.mp h.free b hb
  simp only [hd, beq_self_eq_true, bne_iff_ne.mpr hne, Bool.true_and, Bool.not_eq_true,
    Bool.or_eq_false_iff, Bool.and_eq_false_iff, decide_eq_false_iff_not, beq_eq_false_iff_ne,
    bne_eq_false_iff_eq] at hno
  obtain ⟨huid, hsid⟩ := hno
  have huid' : r.identity.uid ≠ 0 → b.identity.uid ≠ r.identity.uid := fun h0 =>
    huid.resolve_left fun hlt => hlt (h.uid.resolve_left h0)
  have hsid' : r.identity.sid ≠ "" → b.identity.sid ≠ r.identity.sid := fun h0 =>
    hsid.resolve_left h0
  refine ⟨⟨fun h0 => (huid' h0).symm, fun h0 => (hsid' h0).symm⟩, fun h0 heq => ?_,
    fun h0 heq => ?_⟩
  · exact huid' (heq ▸ h0) heq
  · exact hsid' (heq ▸ h0) heq

theorem Distinct.put (h : Distinct t V) (hr : Admitted V r) : Distinct t (schema.put r V) := by
  constructor
  · intro a ha
    rcases Schema.mem_put.mp ha with ⟨ha, -⟩ | rfl
    · exact h.uid a ha
    · exact hr.uid
  · intro a ha b hb hne hd
    rcases Schema.mem_put.mp ha with ⟨haV, -⟩ | rfl
    · rcases Schema.mem_put.mp hb with ⟨hbV, -⟩ | rfl
      · exact h.clear a haV b hbV hne hd
      · exact (hr.clear haV hne hd).2
    · rcases Schema.mem_put.mp hb with ⟨hbV, -⟩ | rfl
      · exact (hr.clear hbV hne.symm hd.symm).1
      · exact absurd rfl hne

theorem history : schema.History Row.Pins where
  refl _ := ⟨rfl, fun _ => ⟨rfl, rfl⟩⟩
  key_eq h := h.1
  trans := by
    intro a b c hab hbc
    refine ⟨hab.1.trans hbc.1, fun ha => ?_⟩
    obtain ⟨hi, ho⟩ := hab.2 ha
    have hb : b.pinned = true := by rwa [Row.pinned, hi]
    exact ⟨(hbc.2 hb).1.trans hi, (hbc.2 hb).2.trans ho⟩

theorem Row.Below.pins (h : r'.Below r) : r.Pins r' := ⟨h.1.symm, fun _ => h.2⟩

end Rows

section Statements

variable {V fresh : List Row} {now n : ℕ} {r r' : Row}

/-- A new version of a row that the others admit; it may be the row itself. -/
def Renews (fresh : List Row) (r r' : Row) : Prop := r.Pins r' ∧ (r' = r ∨ Admitted fresh r')

inductive Sound : Stmt Subject Row → Prop
  | write {k : Subject} {f : ℕ → List Row → List Row → Row → Option Row}
      (hf : ∀ now V fresh r r', f now V fresh r = some r' → Renews fresh r r') : Sound (.write k f)
  | insert {f : ℕ → List Row → List Row → Option Row}
      (hf : ∀ now V fresh r', f now V fresh = some r' → Admitted fresh r') : Sound (.insert f)

theorem Sound.free (h : Sound st) : Free schema Distinct n [.lock, st] := by
  intro t V _ _
  cases h with
  | write hf =>
    intro t₀ V₀ _ _ t₁ V₁ _ _ hI r hr _ r' hr'
    refine ⟨?_, trivial⟩
    rcases (hf _ _ _ _ _ hr').2 with rfl | hadm
    · exact stable.under hI (.put ⟨r', hr, schema.refl r'⟩)
    · exact hI.put hadm
  | insert hf =>
    intro t₀ V₀ _ _ t₁ V₁ _ _ hI r' hr' _
    exact ⟨hI.put (hf _ _ _ _ hr'), trivial⟩

theorem Sound.tracks (h : Sound st) : st.Tracks Row.Pins := by
  cases h with
  | write hf => exact fun _ _ _ _ _ hr' => (hf _ _ _ _ _ hr').1
  | insert => trivial

theorem sound_updateNative {env : NativeEnv} {a : NativeGuestAccount}
    {f : NativeEnv → ℕ → NativeGuestRow → Except StoreError NativeGuestRow}
    (hf : ∀ env now row r, f env now row = .ok r → writeNativeRow env now (some row) r = .ok r) :
    Sound (updateNative env a f) := by
  refine .write fun now V fresh r r' h => ?_
  cases r with
  | agent row => cases h
  | native row =>
    obtain ⟨new, hnew, rfl⟩ := Option.map_eq_some_iff.mp h
    obtain ⟨hfree, huid, hpin⟩ := writeNativeRow_pin (hf _ _ _ _ (toOption_eq_some.mp hnew))
    obtain ⟨hd, hu, hname, hos, hid, hsid⟩ := NativeGuestAccount.samePin_iff.mp (hpin row rfl)
    have hsubject : (Row.native new).subject = (Row.native row).subject := by
      simp only [Row.subject, hd, hu]
    have hidentity : (Row.native new).identity = (Row.native row).identity := by
      simp only [Row.identity, NativeGuestAccount.identity, hname, hid, hsid]
    refine ⟨⟨hsubject.symm, fun _ => ⟨hidentity, hos⟩⟩, .inr ⟨huid, ?_⟩⟩
    rw [hsubject, hidentity]
    exact hfree

theorem sound_updateAgent {env : SessionEnv} {desktop : ℕ} {agentId : String}
    {pin : AgentGuestSession → ℕ × String}
    {f : SessionEnv → ℕ → AgentGuestSession → Except StoreError AgentGuestSession}
    (hf : ∀ env now row r, f env now row = .ok r →
      r = row ∨ (writeSession env (some row) r = .ok r ∧ (r.guestUid, r.guestSid) = pin row)) :
    Sound (updateAgent env desktop agentId pin f) := by
  refine .write fun now V fresh r r' h => ?_
  cases r with
  | native row => cases h
  | agent row =>
    obtain ⟨new, hnew, rfl⟩ := Option.map_eq_some_iff.mp h
    rcases hf _ _ _ _ (toOption_eq_some.mp hnew) with rfl | ⟨hwrite, hids⟩
    · exact ⟨history.refl _, .inl rfl⟩
    obtain ⟨hfree, huid, hpin⟩ := writeSession_pin hwrite
    obtain ⟨hd, ha, hname, hos, hid⟩ := hpin row rfl
    have hsubject : (Row.agent new).subject = (Row.agent row).subject := by
      simp only [Row.subject, hd, ha]
    refine ⟨⟨hsubject.symm, fun hp => ⟨?_, hos⟩⟩, .inr ⟨huid, ?_⟩⟩
    · simp only [Row.identity, AgentGuestSession.identity, hname, hid hp]
    · rw [← hids] at hfree
      rw [hsubject]
      exact hfree

variable (sha256 : Sha256) {st : Stmt Subject Row}

theorem sound_bindNativeGuestAccount (env : NativeEnv) (a : NativeGuestAccount)
    (digest : List UInt8) (found : Bool) :
    Sound (bindNativeGuestAccount sha256 env a digest found) := by
  cases found with
  | true => exact sound_updateNative fun _ _ _ _ h => write_of_bind h
  | false =>
    refine .insert fun now V fresh r' h => ?_
    obtain ⟨new, hnew, rfl⟩ := Option.map_eq_some_iff.mp h
    have hbind := toOption_eq_some.mp hnew
    obtain ⟨hfree, huid, -⟩ := writeNativeRow_pin (write_of_bind hbind)
    -- the new row has the identifiers of the request
    simp only [Store.bindNativeGuestAccount, seq_eq_ok] at hbind
    obtain ⟨rfl, -, -⟩ := writeNativeRow_ok hbind.2.2
    exact ⟨huid, hfree⟩

theorem sound_beginAgentGuestSession (env : SessionEnv) (desktop : ℕ) (lease : DesktopLease)
    (found : Bool) : Sound (beginAgentGuestSession sha256 env desktop lease found) := by
  cases found with
  | true =>
    rw [beginAgentGuestSession, if_pos rfl]
    refine sound_updateAgent fun env now row r h => ?_
    exact (begin_ok h).2.imp (fun heq => (Option.some.inj heq).symm) fun hb =>
      ⟨hb.write, hb.identity⟩
  | false =>
    refine .insert fun now V fresh r' h => ?_
    obtain ⟨new, hnew, rfl⟩ := Option.map_eq_some_iff.mp h
    have hbegin := toOption_eq_some.mp hnew
    simp only [Store.beginAgentGuestSession, seq_eq_ok] at hbegin
    obtain ⟨rfl, -, -⟩ := writeSession_ok hbegin.2
    exact ⟨.inl rfl, (writeSession_pin hbegin.2).1⟩

theorem lowers_closeLease (leaseId : String) : (closeLease leaseId).Quiet schema := by
  intro n V r _
  cases r with
  | native row => exact ⟨rfl, rfl, rfl⟩
  | agent row =>
    simp only [revokeAgentGuestSession]
    split <;> exact ⟨rfl, rfl, rfl⟩

theorem program_sound (op : Operation) : (∃ st, Sound st ∧ program sha256 op = [.lock, st]) ∨
      ∃ p f, schema.Lowers p f ∧ program sha256 op = [.lower p f] := by
  cases op with
  | bindNativeGuestAccount env a digest found =>
    exact .inl ⟨_, sound_bindNativeGuestAccount sha256 env a digest found, rfl⟩
  | beginNativeGuestCredential =>
    exact .inl ⟨_, sound_updateNative fun _ _ _ _ h => (begin_spec h).write, rfl⟩
  | retireNativeGuestCredential =>
    exact .inl ⟨_, sound_updateNative fun _ _ _ _ h => (retire_spec h).1.write, rfl⟩
  | revokeNativeGuestAccount =>
    exact .inl ⟨_, sound_updateNative fun _ _ _ _ h => (revoke_spec h).1.write, rfl⟩
  | completeNativeGuestAccountOperation =>
    exact .inl ⟨_, sound_updateNative fun _ _ _ _ h => (complete_spec h).write, rfl⟩
  | commitNativeGuestRecovery =>
    exact .inl ⟨_, sound_updateNative fun _ _ _ _ h => (recovery_spec h).write, rfl⟩
  | beginAgentGuestSession env desktop lease found =>
    exact .inl ⟨_, sound_beginAgentGuestSession sha256 env desktop lease found, rfl⟩
  | bindAgentGuestAccount env item revoking =>
    refine .inl ⟨_, sound_updateAgent fun _ _ _ _ h => .inr ?_, rfl⟩
    obtain ⟨rfl, -, -, -, hwrite⟩ := bind_ok h
    exact ⟨hwrite, rfl⟩
  | beginAgentGuestLogin env item =>
    refine .inl ⟨_, sound_updateAgent fun _ _ _ _ h => .inr ?_, rfl⟩
    obtain ⟨rfl, -, -, -, -, -, hwrite⟩ := login_ok h
    exact ⟨hwrite, rfl⟩
  | markAgentGuestSessionReady env item =>
    refine .inl ⟨_, sound_updateAgent fun _ _ _ _ h => .inr ?_, rfl⟩
    obtain ⟨rfl, -, -, -, hwrite⟩ := ready_ok h
    exact ⟨hwrite, rfl⟩
  | completeAgentGuestSessionRevocation env item =>
    exact .inr ⟨_, _, fun _ _ r _ => by cases r <;> exact ⟨rfl, rfl, rfl⟩, rfl⟩
  | closeLease leaseId => exact .inr ⟨_, _, lowers_closeLease leaseId, rfl⟩

theorem program_free (op : Operation) (n : ℕ) : Free schema Distinct n (program sha256 op) := by
  rcases program_sound sha256 op with ⟨st, hst, hop⟩ | ⟨p, f, hlow, hop⟩
  · exact hop ▸ hst.free
  · exact hop ▸ ⟨hlow, trivial⟩

theorem program_tracks (op : Operation) : ∀ st ∈ program sha256 op, st.Tracks Row.Pins := by
  rcases program_sound sha256 op with ⟨st, hst, hop⟩ | ⟨p, f, hlow, hop⟩
  · rw [hop, List.forall_mem_cons]
    exact ⟨trivial, fun st' hst' => List.mem_singleton.mp hst' ▸ hst.tracks⟩
  · rw [hop]
    intro st' hst'
    rw [List.mem_singleton.mp hst']
    exact fun n V r hr => Row.Below.pins (hlow n V r hr)

end Statements

section Results

variable {sha256 : Sha256} {s : System Subject Row}

theorem distinct_nil (n : ℕ) : Distinct n [] := ⟨nofun, nofun⟩

/-- The accounts of a desktop: each subject has one row, an identity that is pinned stays, and no
two subjects have the same. -/
theorem os_identity_pinning (hs : (accounts sha256).Reachable s) : (s.db.map Row.subject).Nodup ∧
    (∀ s', (accounts sha256).Leads s s' → ∀ r ∈ s.db, r.pinned = true →
      ∃ r' ∈ s'.db, r'.subject = r.subject ∧ r'.identity = r.identity ∧
        r'.osFamily = r.osFamily) ∧
    ∀ a ∈ s.db, ∀ b ∈ s.db, a.subject ≠ b.subject → a.subject.desktop = b.subject.desktop →
      (a.identity.uid ≠ 0 → a.identity.uid ≠ b.identity.uid) ∧
        (a.identity.sid ≠ "" → a.identity.sid ≠ b.identity.sid) := by
  obtain ⟨hI, hkeys⟩ := committed_invariant stable distinct_nil (program_free sha256) hs
  refine ⟨hkeys, fun s' hl r hr hp => ?_, hI.clear⟩
  obtain ⟨r', hr', hsubject, hpin⟩ := row_history history (program_tracks sha256) stable
    distinct_nil (program_free sha256) hs hl r hr
  exact ⟨r', hr', hsubject.symm, hpin hp⟩

end Results

section Sample

def sampleNative : NativeGuestAccount :=
  ⟨100, "user", "vcw000000000000", .linux, 1001, "", 0, .none, .idle, "", none⟩

def sampleLease : DesktopLease := ⟨"lease_example", "agent", .active, 1, 5, Eq.refl true⟩

def sampleAgent : AgentGuestSession :=
  ⟨100, "agent", "vca000000000000", .linux, "lease_example", 1, 1, 0, .provisioning, 1002, "", "",
    "", 5⟩

/-- A user and an agent of one desktop get their accounts while both transactions are open. -/
def sampleRun : List (Event Operation Row) :=
  [.start (.beginAgentGuestSession ⟨true, .linux, false, false, false, false⟩ 100 sampleLease
      false), .lock 0, .snapshot 0, .insert 0, .commit 0,
    .start (.bindNativeGuestAccount
      ⟨true, true, false, false, false, false, false, false, false, false, true⟩ sampleNative [1]
      false),
    .start (.bindAgentGuestAccount ⟨true, .linux, false, false, false, false⟩ sampleAgent false),
    .lock 1, .snapshot 1, .snapshot 2, .insert 1, .commit 1, .lock 2, .snapshot 2, .write 2,
    .commit 2]

theorem os_identity_pinning_both :
    ∃ s a b, (accounts sampleDigest).Reachable s ∧ a ∈ s.db ∧ b ∈ s.db ∧
      a.subject = .user 100 "user" ∧ b.subject = .agent 100 "agent" ∧
      a.identity.uid ≠ b.identity.uid ∧
      ∀ s', (accounts sampleDigest).Leads s s' → ∃ b' ∈ s'.db, b'.identity = b.identity := by
  obtain ⟨s, hs, ha, hb⟩ : ∃ s, (accounts sampleDigest).Reachable s ∧
      s.db.any (fun r => r.subject == .user 100 "user" && r.identity.uid != 0) = true ∧
      s.db.any (fun r => r.subject == .agent 100 "agent" && r.pinned) = true :=
    Machine.exists_reachable_of_run ⟨[], 0, none, []⟩ sampleRun ⟨rfl, rfl, rfl⟩ (by decide +kernel)
  obtain ⟨a, ha, hua⟩ := List.any_eq_true.mp ha
  obtain ⟨b, hb, hub⟩ := List.any_eq_true.mp hb
  simp only [Bool.and_eq_true, beq_iff_eq, bne_iff_ne] at hua hub
  obtain ⟨-, hpin, hclear⟩ := os_identity_pinning hs
  refine ⟨s, a, b, hs, ha, hb, hua.1, hub.1, ?_, fun s' hl => ?_⟩
  · exact (hclear a ha b hb (by rw [hua.1, hub.1]; exact nofun) (by rw [hua.1, hub.1]; rfl)).1 hua.2
  · obtain ⟨b', hb', -, hi, -⟩ := hpin s' hl b hb hub.2
    exact ⟨b', hb', hi⟩

end Sample

end VcWorkspace.Store.Pinning
