import Mathlib.Data.List.Nodup
import VcWorkspace.Store.Access

/-! # Logins with a stale user record

A login reads the record of a user, checks the password or asks the identity
provider outside of any transaction, and opens a session if the record still
looks the same. Between the two the user's password may be replaced, and the
user may be disabled and enabled again.
-/

namespace VcWorkspace.Store.StaleLogin

open Transition

section Model

structure WebSession where
  tokenDigest : List UInt8
  userId : String
  csrfToken : String
  expiresAt : ℕ
  deriving DecidableEq, Repr

/-- The record of a user as a login reads it; a user without a password has an empty hash. -/
structure UserRecord where
  id : String
  passwordHash : String
  disabled : Bool
  deriving DecidableEq, Repr

def record (u : User) : UserRecord := ⟨u.id, u.passwordHash.getD "", u.disabled⟩

structure LoginStore where
  access : AccessState
  webSessions : List WebSession
  deriving DecidableEq

namespace LoginStore

variable (s : LoginStore)

def users : List User := s.access.tables.users

def Keyed : Prop := (s.users.map (·.id)).Nodup

instance : Decidable s.Keyed := inferInstanceAs (Decidable (List.Nodup _))

def setUserDisabled (id : String) (disabled : Bool) : Except StoreError LoginStore := do
  let access ← s.access.setUserDisabled id disabled
  pure ⟨access, s.webSessions.filter fun w => !(disabled && w.userId == id)⟩

/-- A new password ends the web sessions of the user, except for one that is retained. -/
def setUserPassword (id passwordHash : String) (retained : List UInt8) :
    Except StoreError LoginStore := do
  let access ← s.access.setUserPassword id passwordHash
  pure ⟨access, s.webSessions.filter fun w =>
    !(w.userId == id && (retained.isEmpty || w.tokenDigest != retained))⟩

def current (user : UserRecord) : Bool :=
  s.users.any fun u => u.id == user.id && !u.disabled && u.passwordHash.getD "" == user.passwordHash

/-- Open a web session or a native one, if the record is still current. -/
def createVerifiedLoginSession (digest : List UInt8) (user : UserRecord) (csrf : String)
    (expiresAt now : ℕ) (native : Bool) : Except StoreError LoginStore :=
  if native then do
    let access ← s.access.createVerifiedLoginSession digest user.id (some user.passwordHash)
      expiresAt now
    pure { s with access := access }
  else do
    ensure .notFound (s.current user && now < expiresAt)
    ensure (.sql "23505" "web_sessions_pkey") (!s.webSessions.any (·.tokenDigest == digest))
    pure { s with webSessions := s.webSessions ++ [⟨digest, user.id, csrf, expiresAt⟩] }

def taken (digest : List UInt8) (native : Bool) : Bool :=
  if native then s.access.grants.nativeSessions.any (·.tokenDigest == digest)
  else s.webSessions.any (·.tokenDigest == digest)

end LoginStore

inductive Event
  | setUserDisabled (id : String) (disabled : Bool)
  | setUserPassword (id passwordHash : String) (retained : List UInt8)
  | createVerifiedLoginSession (digest : List UInt8) (user : UserRecord) (csrf : String)
      (expiresAt now : ℕ) (native : Bool)
  /-- Other transactions commit. They add users and leave the existing ones as they are. -/
  | others (s : LoginStore)

def Event.apply (s : LoginStore) : Event → Except StoreError LoginStore
  | .setUserDisabled id disabled => s.setUserDisabled id disabled
  | .setUserPassword id passwordHash retained => s.setUserPassword id passwordHash retained
  | .createVerifiedLoginSession digest user csrf expiresAt now native =>
    s.createVerifiedLoginSession digest user csrf expiresAt now native
  | .others s' => do
    ensure .conflict (s'.Keyed ∧ ∀ u ∈ s.users, u ∈ s'.users)
    pure s'

def logins : Machine LoginStore Event where
  Init s := s.Keyed
  step s e := (e.apply s).toOption

/-- What a transaction writes into the user's column `disabled`. -/
def disabledBy (id : String) : Event → Option Bool
  | .setUserDisabled i disabled => if i = id then some disabled else none
  | _ => none

/-- What a transaction writes into the user's column `password_hash`. -/
def passwordBy (id : String) : Event → Option String
  | .setUserPassword i passwordHash _ => if i = id then some passwordHash else none
  | _ => none

def last {α : Type} (f : Event → Option α) : List Event → Option α
  | [] => none
  | e :: es => (last f es).or (f e)

/-- The user was disabled after the record was read and not enabled since, or has got a password
with another hash. -/
def Refused (user : UserRecord) (es : List Event) : Prop :=
  last (disabledBy user.id) es = some true ∨
    ∃ hash, last (passwordBy user.id) es = some hash ∧ hash ≠ user.passwordHash

end Model

variable {s s' : LoginStore} {es : List Event} {u : User}

section Rows

variable {e : Event}

def after (e : Event) (u : User) : User :=
  { u with
    disabled := (disabledBy u.id e).getD u.disabled
    passwordHash := (passwordBy u.id e).or u.passwordHash }

def afterAll (es : List Event) (u : User) : User :=
  { u with
    disabled := (last (disabledBy u.id) es).getD u.disabled
    passwordHash := (last (passwordBy u.id) es).or u.passwordHash }

theorem afterAll_cons : afterAll (e :: es) u = afterAll es (after e u) := by
  simp only [afterAll, after, last, Option.or_assoc]
  cases last (disabledBy u.id) es <;> rfl

theorem users_of_commit {t t' : AccessState} (h : t.commitAccessChange = .ok t') :
    t'.tables = t.tables := by
  obtain ⟨g, -, h⟩ := bind_eq_ok.mp h
  rw [← Except.ok.inj h]

theorem users_setUserDisabled {id : String} {disabled : Bool}
    (h : s.setUserDisabled id disabled = .ok s') :
    s'.users = updateWhere (·.id == id) (fun u => { u with disabled := disabled }) s.users := by
  obtain ⟨access, haccess, h⟩ := bind_eq_ok.mp h
  cases h
  obtain ⟨t, ht, hcommit⟩ := bind_eq_ok.mp haccess
  simp only [AccessTables.setDisabled, seq_eq_ok] at ht
  cases ht.2
  exact congrArg AccessTables.users (users_of_commit hcommit)

theorem users_setUserPassword {id hash : String} {retained : List UInt8}
    (h : s.setUserPassword id hash retained = .ok s') :
    (∃ u ∈ s.users, u.id = id ∧ u.passwordHash.isSome = true) ∧
      s'.users = updateWhere (fun u => u.id == id && u.passwordHash.isSome)
        (fun u => { u with passwordHash := some hash }) s.users := by
  obtain ⟨access, haccess, h⟩ := bind_eq_ok.mp h
  cases h
  simp only [AccessState.setUserPassword, seq_eq_ok] at haccess
  obtain ⟨t, ht, haccess⟩ := bind_eq_ok.mp haccess.2
  obtain ⟨g, -, hcommit⟩ := bind_eq_ok.mp haccess
  simp only [AccessTables.setPassword, seq_eq_ok, ensure_eq_ok, List.any_eq_true,
    Bool.and_eq_true, beq_iff_eq] at ht
  obtain ⟨-, hlocal, ht⟩ := ht
  cases ht
  exact ⟨hlocal, congrArg AccessTables.users (users_of_commit hcommit)⟩

theorem users_createVerifiedLoginSession {digest : List UInt8} {user : UserRecord} {csrf : String}
    {expiresAt now : ℕ} {native : Bool}
    (h : s.createVerifiedLoginSession digest user csrf expiresAt now native = .ok s') :
    s'.users = s.users := by
  unfold LoginStore.createVerifiedLoginSession at h
  split at h
  · obtain ⟨access, haccess, h⟩ := bind_eq_ok.mp h
    cases h
    simp only [AccessState.createVerifiedLoginSession, seq_eq_ok] at haccess
    cases haccess.2.2
    rfl
  · simp only [seq_eq_ok] at h
    cases h.2.2
    rfl

theorem Keyed.eq {v : User} (h : s.Keyed) (hu : u ∈ s.users) (hv : v ∈ s.users)
    (hid : u.id = v.id) : u = v :=
  List.inj_on_of_nodup_map h hu hv hid

theorem keyed_of_update {p : User → Bool} {f : User → User}
    (h : s'.users = updateWhere p f s.users) (hf : ∀ u, (f u).id = u.id) (hk : s.Keyed) :
    s'.Keyed := by
  unfold LoginStore.Keyed
  rw [h, map_updateWhere fun u _ => hf u]
  exact hk

theorem step_ok (hk : s.Keyed) (h : logins.step s e = some s') :
    s'.Keyed ∧ ∀ u ∈ s.users, after e u ∈ s'.users := by
  replace h := toOption_eq_some.mp h
  cases e with
  | setUserDisabled id disabled =>
    have husers := users_setUserDisabled h
    refine ⟨keyed_of_update husers (fun _ => rfl) hk, fun u hu => ?_⟩
    rw [husers]
    refine mem_updateWhere.mpr ⟨u, hu, ?_⟩
    by_cases hid : u.id = id
    · exact .inl ⟨by simp [hid], by simp [after, disabledBy, passwordBy, hid]⟩
    · exact .inr ⟨by simp [hid], by simp [after, disabledBy, passwordBy, Ne.symm hid]⟩
  | setUserPassword id hash retained =>
    obtain ⟨⟨v, hv, hvid, hsome⟩, husers⟩ := users_setUserPassword h
    refine ⟨keyed_of_update husers (fun _ => rfl) hk, fun u hu => ?_⟩
    rw [husers]
    refine mem_updateWhere.mpr ⟨u, hu, ?_⟩
    by_cases hid : u.id = id
    · -- the row with a password is the user's only row
      obtain rfl := Keyed.eq hk hu hv (hid.trans hvid.symm)
      exact .inl ⟨by simp [hid, hsome], by simp [after, disabledBy, passwordBy, hid]⟩
    · exact .inr ⟨by simp [hid], by simp [after, disabledBy, passwordBy, Ne.symm hid]⟩
  | createVerifiedLoginSession digest user csrf expiresAt now native =>
    have husers := users_createVerifiedLoginSession h
    exact ⟨by rw [LoginStore.Keyed, husers]; exact hk, fun u hu => husers ▸ hu⟩
  | others t =>
    simp only [Event.apply, seq_eq_ok, ensure_eq_ok, decide_eq_true_eq] at h
    obtain ⟨⟨hkeyed, hkept⟩, h⟩ := h
    cases h
    exact ⟨hkeyed, hkept⟩

theorem run_ok (hk : s.Keyed) (hu : u ∈ s.users) (h : logins.run s es = some s') :
    s'.Keyed ∧ afterAll es u ∈ s'.users := by
  induction es generalizing s u with
  | nil =>
    obtain rfl := Machine.run_nil.mp h
    exact ⟨hk, hu⟩
  | cons e es ih =>
    obtain ⟨t, ht, h⟩ := Machine.run_cons.mp h
    obtain ⟨hkt, hrow⟩ := step_ok hk ht
    rw [afterAll_cons]
    exact ih hkt (hrow u hu) h

end Rows

section Refusal

theorem opens_iff {digest : List UInt8} {user : UserRecord} {csrf : String} {expiresAt now : ℕ}
    {native : Bool} :
    (∃ s', s.createVerifiedLoginSession digest user csrf expiresAt now native = .ok s') ↔
      s.current user = true ∧ now < expiresAt ∧ s.taken digest native = false := by
  cases native with
  | true =>
    simp only [LoginStore.createVerifiedLoginSession, if_true, exists_bind_pure,
      AccessState.createVerifiedLoginSession, LoginStore.taken, seq_eq_ok, ensure_eq_ok,
      Bool.and_eq_true, decide_eq_true_eq, Bool.not_eq_true', exists_and_left, exists_pure,
      and_true,
      Option.getD_some, and_assoc]
    exact and_left_comm
  | false =>
    simp only [LoginStore.createVerifiedLoginSession, LoginStore.taken, Bool.false_eq_true,
      if_false, seq_eq_ok, ensure_eq_ok, Bool.and_eq_true, decide_eq_true_eq,
      Bool.not_eq_true', exists_and_left, exists_pure, and_true, and_assoc]

theorem current_iff {v : User} {user : UserRecord} (hk : s.Keyed) (hv : v ∈ s.users)
    (hid : v.id = user.id) :
    s.current user = true ↔ v.disabled = false ∧ v.passwordHash.getD "" = user.passwordHash := by
  simp only [LoginStore.current, List.any_eq_true, Bool.and_eq_true, beq_iff_eq,
    Bool.not_eq_true', and_assoc]
  constructor
  · rintro ⟨w, hw, hwid, hrow⟩
    rwa [Keyed.eq hk hv hw (hid.trans hwid.symm)]
  · exact fun hrow => ⟨v, hv, hid, hrow⟩

theorem current_after (hk : s.Keyed) (hu : u ∈ s.users) (henabled : u.disabled = false)
    (h : logins.run s es = some s') : s'.current (record u) = false ↔ Refused (record u) es := by
  obtain ⟨hk', hrow⟩ := run_ok hk hu h
  rw [← Bool.not_eq_true, current_iff hk' hrow rfl, not_and_or]
  simp only [afterAll, record]
  apply or_congr
  · cases last (disabledBy u.id) es <;> simp [henabled]
  · cases last (passwordBy u.id) es <;> simp

/-- A login that read the record of an enabled user opens no session exactly if the user has been
disabled or has another password since, the session would be over, or its token is taken. -/
theorem stale_login (hk : s.Keyed) (hu : u ∈ s.users) (henabled : u.disabled = false)
    (hrun : logins.run s es = some s') (digest : List UInt8) (csrf : String) (expiresAt now : ℕ)
    (native : Bool) :
    (∀ s'', s'.createVerifiedLoginSession digest (record u) csrf expiresAt now native ≠ .ok s'') ↔
      Refused (record u) es ∨ expiresAt ≤ now ∨ s'.taken digest native = true := by
  rw [← not_exists, opens_iff, ← current_after hk hu henabled hrun]
  simp only [not_and_or, Bool.not_eq_true, Bool.not_eq_false, Nat.not_lt]

end Refusal

section Sample

def sampleUser : User :=
  ⟨"user", "user", some "$argon2id$v=19$m=65536,t=3,p=2$c2FsdA$aGFzaA", .user,
  false⟩

def sampleStore : LoginStore :=
  ⟨⟨⟨[sampleUser], [], [], [], [], [], [], [], []⟩, ⟨[], [], [], [], [], []⟩⟩, []⟩

/-- A login of a user who was disabled on the way is refused. -/
theorem stale_login_disabled : ∃ s, logins.run sampleStore [.setUserDisabled "user" true] = some s ∧
      ∀ native s', s.createVerifiedLoginSession [1] (record sampleUser) "csrf" 10 0 native ≠
        .ok s' := by
  obtain ⟨s, hs⟩ : ∃ s, logins.run sampleStore [.setUserDisabled "user" true] = some s :=
    Option.isSome_iff_exists.mp (by decide)
  exact ⟨s, hs, fun native =>
    (stale_login (by decide) (List.mem_singleton.mpr rfl) rfl hs [1] "csrf"
    10 0 native).mpr (.inl (.inl (by decide)))⟩

/-- A login of a user who was disabled and enabled again on the way opens a session of either
kind. -/
theorem reenabled_user_login :
    ∃ s, logins.run sampleStore [.setUserDisabled "user" true, .setUserDisabled "user" false] =
        some s ∧
      ∀ native, ∃ s', s.createVerifiedLoginSession [1] (record sampleUser) "csrf" 10 0 native =
        .ok s' := by
  refine ⟨_, rfl, fun native => opens_iff.mpr ⟨by decide, by decide, ?_⟩⟩
  cases native <;> decide

end Sample

end VcWorkspace.Store.StaleLogin
