import VcWorkspace.Session.Record
import VcWorkspace.Transition.Fence

/-! # Local accounts on Windows

The account helpers that the agent and the native adapter share: every registry
access, every read of the local account database and every write of one of its
fields is an effect, and each can fail, a write with or without having been
carried out. Between two effects time passes, and an administrator may change
the account, delete it or put another one in its place; a deleted identity
never comes back, and nobody else enables an account of the platform.
-/

namespace VcWorkspace.Session.WindowsAccount

open Transition Guest Handler Option Bool

def ufAccountDisable : BitVec 32 := 0x2

def ufPasswdNotreqd : BitVec 32 := 0x20

def ufPasswordExpired : BitVec 32 := 0x800000

/-- The ownership record of an account; without an identity its creation was interrupted. -/
structure Record where
  nonce : String
  sid : Option String
  deriving DecidableEq, Repr

structure LocalAccount where
  sid : String
  comment : String
  flags : BitVec 32
  expiresUnixSeconds : BitVec 32
  deriving DecidableEq, Repr

def LocalAccount.disabled (a : LocalAccount) : Bool := a.flags &&& ufAccountDisable != 0

structure Logon where
  sid : String
  sessionId : ℕ
  authenticationId : ℕ
  deriving DecidableEq, Repr

inductive SamWrite
  | password (secret : String)
  | expiry (seconds : BitVec 32)
  | flags (value : BitVec 32)
  deriving DecidableEq, Repr

namespace SamWrite

def account : SamWrite → LocalAccount → LocalAccount
  | password _, a => a
  | expiry seconds, a => { a with expiresUnixSeconds := seconds }
  | flags value, a => { a with flags := value }

def disables : SamWrite → Bool
  | flags value => value &&& ufAccountDisable != 0
  | _ => false

@[simp] theorem account_sid (x : SamWrite) (a : LocalAccount) : (x.account a).sid = a.sid := by
  cases x <;> rfl

theorem disabled_account {x : SamWrite} (h : x.disables = true) (a : LocalAccount) :
    (x.account a).disabled = true := by
  cases x with
  | flags value => exact h
  | password | expiry => cases h

theorem disables_or (flags : BitVec 32) :
    (SamWrite.flags (flags ||| ufAccountDisable)).disables = true := by
  have habsorb : (flags ||| ufAccountDisable) &&& ufAccountDisable = ufAccountDisable := by
    ext i
    simp +contextual
  simp only [disables, habsorb]
  decide

theorem disables_and_not (flags : BitVec 32) :
    (SamWrite.flags (flags &&& ~~~ufAccountDisable)).disables = false := by
  have hclear : flags &&& ~~~ufAccountDisable &&& ufAccountDisable = 0 := by
    ext i
    simp
  simp [disables, hclear]

end SamWrite

/-- The effects of the adapters, over the records `F` of one of them. -/
inductive Effect (F : Type)
  | gate
  | key
  | record
  | account
  | readFence
  | rejectLegacy
  | now
  | hasProfile
  | sessions (sid : String)
  | logoff (logon : Logon)
  | deadline
  | entropy
  | writeRecord (r : Record)
  | persist (f : F)
  | write (x : SamWrite)

namespace Effect

variable {F : Type}

@[reducible] def Answer : Effect F → Type
  | record => Option Record
  | account => Option LocalAccount
  | readFence => Option F
  | now => ℕ
  | hasProfile | logoff _ | deadline => Bool
  | sessions _ => List Logon
  | entropy => List UInt8
  | _ => Unit

def fallible : Effect F → Bool
  | deadline => false
  | _ => true

def Passive : Effect F → Prop
  | writeRecord _ | persist _ | write _ => False
  | _ => True

end Effect

abbrev Windows (F : Type) := Program (Effect F) Effect.Answer IoError

variable {F : Type}

section Programs

def ask (e : Effect F) : Windows F e.Answer := .perform e

def validate (name family : String) : Windows F Unit := do
  check "managed account name required" (managedName name)
  check "account namespace mismatch" (startsWith name family)

def bound : Windows F LocalAccount := do
  let record ← ask .record
  let record ← demand "account is not platform owned" record
  let actual ← ask .account
  let actual ← demand "bound account was deleted" actual
  check "managed account SID changed or is not yet bound" (record.sid == some actual.sid)
  pure actual

def setPassword (secret : String) : Windows F Unit := ask (.write (.password secret))

def retiredPassword (nonce : List UInt8) : String :=
  let digit (n : ℕ) := if n < 10 then Char.ofNat (48 + n) else Char.ofNat (87 + n)
  "Vcw1!" ++ String.ofList (nonce.flatMap fun b => [digit (b.toNat / 16), digit (b.toNat % 16)])

def enableLocked (expires : BitVec 32) : Windows F LocalAccount := do
  let actual ← bound
  let now ← ask .now
  check "bounded login expiry and non-expired password required"
    (now < expires.toNat && expires.toNat ≤ now + 28800 &&
      actual.flags &&& (ufPasswdNotreqd ||| ufPasswordExpired) == 0)
  ask (.write (.expiry expires))
  let _ ← bound
  ask (.write (.flags (actual.flags &&& ~~~ufAccountDisable)))
  bound

def disableLoginLocked : Windows F LocalAccount := do
  let actual ← bound
  ask (.write (.flags (actual.flags ||| ufAccountDisable)))
  let disabled ← bound
  check "account disable did not converge" disabled.disabled
  pure disabled

/-- Send every logon that was not yet asked to end one request to do so. -/
def dispatchLogoffsOnce : List Logon → List Logon → Windows F (List Logon)
  | [], requested => pure requested
  | s :: rest, requested =>
    if requested.contains s then dispatchLogoffsOnce rest requested
    else do
      check "owned logoff incarnation limit exceeded" (requested.length < 1024)
      let sent ← ask (.logoff s)
      dispatchLogoffsOnce rest (if sent then requested ++ [s] else requested)

/-- End the logons of an identity, looking for them at most `n` times. -/
def logoffSid (sid : String) : ℕ → List Logon → Windows F Unit
  | 0, _ => .lift (.error (otherError "owned WTS logoff has not converged"))
  | n + 1, requested => do
    let sessions ← ask (.sessions sid)
    if sessions.isEmpty then pure ()
    else do
      let late ← ask .deadline
      if late then .lift (.error (otherError "owned WTS logoff has not converged"))
      else do
        let requested ← dispatchLogoffsOnce sessions requested
        logoffSid sid n requested

/-- Thirty seconds are at most 301 looks with a tenth of a second between two of them. -/
def logoffs : ℕ := 301

/-- An account whose creation was interrupted is bound only while it is still disabled. -/
def adopt (marker : String) (pending : Record) (actual : LocalAccount) : Windows F Unit :=
  if pending.sid.isNone then do
    check "interrupted account creation ownership mismatch"
      (actual.disabled && actual.comment == marker ++ pending.nonce)
    ask (.writeRecord { pending with sid := some actual.sid })
  else pure ()

/-- A deleted account can still have a logon of the recorded identity. -/
def logoffDeleted : Option String → Windows F Unit
  | none => pure ()
  | some sid => logoffSid sid logoffs []

def disableActual (marker : String) (record : Option Record) :
    Option LocalAccount → Windows F (Option LocalAccount)
  | none => do
    logoffDeleted (record.bind Record.sid)
    pure none
  | some actual => do
    let pending ← demand "existing account is not platform owned" record
    adopt marker pending actual
    let disabled ← disableLoginLocked
    logoffSid disabled.sid logoffs []
    pure (some disabled)

/-- Without a record there is nothing to disable, and an account of that name is not touched. -/
def disableUnowned : Windows F (Option LocalAccount) := do
  let actual ← ask .account
  check "existing account is not platform owned" actual.isNone
  pure none

def disableLocked (marker : String) : Windows F (Option LocalAccount) := do
  let opened ← (ask .key).attempt
  match opened with
  | .error e => if e.kind = .notFound then disableUnowned else .lift (.error e)
  | .ok _ => do
    let record ← ask .record
    let actual ← ask .account
    disableActual marker record actual

def install (missing : String) (password : Option Password) (expires : ℕ) : Windows F Unit := do
  let _ ← bound
  let password ← demand missing password
  setPassword password.expose
  let _ ← enableLocked (BitVec.ofNat 32 expires)
  pure ()

def retire : Windows F Unit := do
  let nonce ← ask .entropy
  let _ ← bound
  setPassword (retiredPassword nonce)

def persist (validate : F → Except IoError Unit) (f : F) : Windows F Unit := do
  .lift (validate f)
  ask (.persist f)

def identity (name sid : String) : AccountIdentity := ⟨name, 0, sid⟩

def readFence (parse : F → Except IoError F) : Windows F (Option F) := do
  let stored ← ask .readFence
  match stored with
  | none => pure none
  | some f => .lift (some <$> parse f)

def shut : Windows F Unit := do
  let _ ← disableLoginLocked
  pure ()

/-- Close the login after a failure; ending its logons is left to the next sweep. -/
def closeLogin (validate : F → Except IoError Unit) (revoked : F) : Windows F Unit :=
  closeWith (persist validate) revoked shut

end Programs

abbrev Ran := SamWrite × Bool

structure World (F : Type) where
  record : Option Record
  sam : Option LocalAccount
  fence : Option F
  clock : ℕ
  sessions : List Logon
  /-- The writes of the account and of the fence in this call. -/
  ran : List Ran
  persisted : List (F × Bool)
  /-- The fences written so far, newest first. -/
  history : List (Written F Ran)
  deriving DecidableEq, Repr

/-- What the host does before an effect, and how the effect turns out. -/
structure Choice where
  clock : ℕ
  sam : Option LocalAccount
  sessions : List Logon
  error : Option IoError
  /-- A failed effect was carried out. -/
  applied : Bool
  answer : Bool
  nonce : List UInt8

namespace World

variable {F : Type}

def sid (w : World F) : Option String := w.record.bind Record.sid

def present (w : World F) : Bool := w.sam.any fun a => w.sid == some a.sid

def enabled (w : World F) : Bool := w.sam.any fun a => w.sid == some a.sid && !a.disabled

def allows (w : World F) : Option LocalAccount → Bool
  | none => true
  | some a => w.sid != some a.sid ||
      w.sam.any fun b => b.sid == a.sid && (!b.disabled || a.disabled)

def drift (c : Choice) (w : World F) : World F :=
  { w with
    clock := c.clock
    sessions := c.sessions
    sam := if w.allows c.sam then c.sam else w.sam }

/-- Carry out an effect, if it is `applied`, and note what it answered. -/
def after (applied ok : Bool) (w : World F) : Effect F → World F
  | .persist f =>
    { w with
      fence := if applied then some f else w.fence
      history := if applied then ⟨f, w.ran⟩ :: w.history else w.history
      persisted := w.persisted ++ [(f, ok)] }
  | .write x =>
    { w with
      sam := if applied then w.sam.map x.account else w.sam
      ran := w.ran ++ [(x, ok && w.sam.isSome)] }
  | .writeRecord r => { w with record := if applied then some r else w.record }
  | _ => w

def answer (c : Choice) (w : World F) : (e : Effect F) → Except IoError e.Answer
  | .gate | .key | .rejectLegacy | .writeRecord _ | .persist _ => .ok ()
  | .record => .ok w.record
  | .account => .ok w.sam
  | .readFence => .ok w.fence
  | .now => .ok w.clock
  | .hasProfile | .logoff _ | .deadline => .ok c.answer
  | .sessions sid => .ok (w.sessions.filter (·.sid == sid))
  | .entropy => .ok c.nonce
  | .write _ => ensure ⟨.notFound, "user not found"⟩ w.sam.isSome

def begin (w : World F) : World F := { w with ran := [], persisted := [] }

def ledger (w : World F) : Ledger F Ran := ⟨w.fence, w.history, w.ran, w.persisted⟩

end World

def windows (F : Type) : Host (Effect F) Effect.Answer IoError (World F) Choice where
  drift := World.drift
  after _ := World.after
  answer := World.answer
  fallible := Effect.fallible
  error := Choice.error
  applied := Choice.applied

abbrev host (F : Type) : Handler (Effect F) Effect.Answer IoError (World F) Choice :=
  (windows F).handler

variable {w w' : World F}

section Frames

variable {c : Choice} {e : Effect F}

structure Frame (w w' : World F) : Prop where
  fence : w'.fence = w.fence
  history : w'.history = w.history
  persisted : w'.persisted = w.persisted

structure Reads (w w' : World F) : Prop extends Frame w w' where
  record : w'.record = w.record
  ran : w'.ran = w.ran
  present : w'.present = true → w.present = true
  closed : w.enabled = false → w'.enabled = false

/-- A write of the fence that may have failed, with or without being carried out. -/
structure Persists (f : F) (w w' : World F) : Prop where
  closed : w.enabled = false → w'.enabled = false
  stores : w.ledger.Stores f w'.ledger

theorem sid_eq (h : w'.record = w.record) : w'.sid = w.sid := by rw [World.sid, h, World.sid]

theorem Reads.sid (h : Reads w w') : w'.sid = w.sid := sid_eq h.record

instance : IsPreorder (World F) Frame where
  refl _ := ⟨rfl, rfl, rfl⟩
  trans _ _ _ h h' := ⟨h'.1.trans h.1, h'.2.trans h.2, h'.3.trans h.3⟩

instance : IsPreorder (World F) Reads where
  refl w := ⟨refl w, rfl, rfl, fun h => h, fun h => h⟩
  trans _ _ _ h h' := ⟨IsTrans.trans _ _ _ h.1 h'.1, h'.2.trans h.2, h'.3.trans h.3,
    fun hp => h.present (h'.present hp), fun hc => h'.closed (h.closed hc)⟩

theorem present_iff : w.present = true ↔ ∃ a, w.sam = some a ∧ w.sid = some a.sid := by
  simp [World.present, any_eq_true]

theorem enabled_iff :
    w.enabled = true ↔ ∃ a, w.sam = some a ∧ w.sid = some a.sid ∧ a.disabled = false := by
  simp [World.enabled, any_eq_true]

theorem enabled_eq_false (h : w.present = false) : w.enabled = false := by
  refine eq_false_iff.mpr fun he => ?_
  obtain ⟨a, hsam, hsid, -⟩ := enabled_iff.mp he
  simp [present_iff.mpr ⟨a, hsam, hsid⟩] at h

theorem reads_drift : Reads w (w.drift c) := by
  -- An owned account that is there afterwards was there before, and not more disabled.
  have hback : ∀ a, (w.drift c).sam = some a → w.sid = some a.sid →
      ∃ b, w.sam = some b ∧ w.sid = some b.sid ∧ (a.disabled = false → b.disabled = false) := by
    intro a hsam hsid
    simp only [World.drift] at hsam
    split at hsam
    · rename_i hallow
      rw [hsam] at hallow
      simp only [World.allows, hsid, bne_self_eq_false, Bool.false_or, any_eq_true,
        and_eq_true, beq_iff_eq, or_eq_true, not_eq_true'] at hallow
      obtain ⟨b, hb, hsame, hdis⟩ := hallow
      refine ⟨b, hb, by rw [hsame, hsid], fun ha => ?_⟩
      simpa [ha] using hdis
    · exact ⟨a, hsam, hsid, fun h => h⟩
  refine ⟨⟨rfl, rfl, rfl⟩, rfl, rfl, fun hp => ?_, fun hc => eq_false_iff.mpr fun he => ?_⟩
  · obtain ⟨a, hsam, hsid⟩ := present_iff.mp hp
    obtain ⟨b, hb, hbsid, -⟩ := hback a hsam hsid
    exact present_iff.mpr ⟨b, hb, hbsid⟩
  · obtain ⟨a, hsam, hsid, hdis⟩ := enabled_iff.mp he
    obtain ⟨b, hb, hbsid, hbdis⟩ := hback a hsam hsid
    simp [enabled_iff.mpr ⟨b, hb, hbsid, hbdis hdis⟩] at hc

theorem reads_after {applied ok : Bool} (he : e.Passive) : Reads w (w.after applied ok e) := by
  cases e <;> first | exact he.elim | exact refl w

end Frames

section Specs

/-- A part that only reads, inside a program that writes the account. -/
theorem framed {α : Type} {p : Windows F α} {Q : α → World F → Prop}
    (h : (host F).Within Reads p Q w) :
    (host F).Within Frame p (fun x w' => Reads w w' ∧ Q x w') w :=
  h.widen fun _ h => h.toFrame

theorem ask_spec (e : Effect F) (he : e.Passive) :
    (host F).Within Reads (ask e) (fun x w' => ∃ c, w'.answer c e = .ok x) w := by
  refine Host.within_perform (fun c applied ok hap => ?_) fun c x hx => ⟨c, ?_⟩
  · exact IsTrans.trans _ _ _ reads_drift (reads_after he)
  · cases e <;> first | exact he.elim | exact hx

theorem record_spec : (host F).Within Reads (ask .record) (fun x w' => w'.record = x) w :=
  (ask_spec .record trivial).post fun _ _ _ ⟨_, hx⟩ => Except.ok.inj hx

theorem account_spec : (host F).Within Reads (ask .account) (fun x w' => w'.sam = x) w :=
  (ask_spec .account trivial).post fun _ _ _ ⟨_, hx⟩ => Except.ok.inj hx

theorem now_spec : (host F).Within Reads (ask .now) (fun x w' => w'.clock = x) w :=
  (ask_spec .now trivial).post fun _ _ _ ⟨_, hx⟩ => Except.ok.inj hx

theorem validate_spec {name family : String} :
    (host F).Within Reads (validate name family) (fun _ _ => True) w :=
  within_check_bind fun _ => within_check fun _ => trivial

theorem bound_spec : (host F).Within Reads bound
    (fun a w' => w'.sam = some a ∧ w'.sid = some a.sid) w := by
  refine record_spec.bind fun record w₁ _ hrecord => within_demand_bind ?_
  rintro pending rfl
  refine account_spec.bind fun actual w₂ h₂ hsam => within_demand_bind ?_
  rintro a rfl
  refine within_check_bind fun hsid => within_pure ⟨hsam, ?_⟩
  rw [h₂.sid, World.sid, hrecord, bind_some, beq_iff_eq.mp hsid]

structure Wrote (x : SamWrite) (w w' : World F) : Prop where
  record : w'.record = w.record
  ran : w'.ran = w.ran ++ [(x, true)]
  closed : x.disables = true → w'.enabled = false

theorem enabled_write {x : SamWrite} (h : x.disables = true) (ok : Bool) :
    (w.after true ok (.write x)).enabled = false := by
  refine eq_false_iff.mpr fun he => ?_
  obtain ⟨a, hsam, -, ha⟩ := enabled_iff.mp he
  obtain ⟨b, -, rfl⟩ := map_eq_some_iff.mp hsam
  simp [x.disabled_account h b] at ha

theorem write_spec (x : SamWrite) :
    (host F).Within Frame (ask (.write x)) (fun _ w' => Wrote x w w') w := by
  refine Host.within_perform (fun c applied ok _ => ⟨rfl, rfl, rfl⟩)
    fun c _ h => ⟨rfl, ?_, fun hx => ?_⟩
  · have hsome : (w.drift c).sam.isSome = true := ensure_eq_ok.mp h
    change w.ran ++ [(x, true && (w.drift c).sam.isSome)] = _
    rw [hsome, Bool.and_true]
  · exact enabled_write hx true

instance (f : F) : Std.Refl (Persists f) := ⟨fun _ => ⟨id, refl _⟩⟩

theorem persist_spec (validate : F → Except IoError Unit) (f : F) :
    (host F).Within (Persists f) (persist validate f)
      (fun _ w' => w'.fence = some f ∧ w'.history = ⟨f, w.ran⟩ :: w.history ∧
        w'.persisted = w.persisted ++ [(f, true)]) w := by
  refine within_lift_bind fun _ _ => ?_
  refine Host.within_perform (fun c applied ok hap => ⟨?_, Ledger.stores_put hap⟩)
    fun c _ _ => ⟨rfl, rfl, rfl⟩
  have hd : Reads w (w.drift c) := reads_drift
  exact hd.closed

theorem persist_tries (validate : F → Except IoError Unit) (f : F) :
    (host F).Ensures (persist validate f) w fun w' o => ∀ x, o = some x →
      (¬ validate f = .ok () ∧ w' = w) ∨ w'.persisted = w.persisted ++ [(f, x.isOk)] := by
  refine ensures_lift_bind (fun e he x _ => .inl ⟨by simp [he], rfl⟩) fun _ _ => ?_
  refine Host.ensures_perform nofun (fun _ c error x hx => .inr ?_) fun c x hx => .inr ?_
  · cases hx
    rfl
  · cases hx
    rfl

theorem persist_succeeds {validate : F → Except IoError Unit} {f : F} (hv : validate f = .ok ())
    (w : World F) : ((host F).only fun c => c.error = none).Ensures (persist validate f) w
      fun _ o => ∀ e, o ≠ some (.error e) := by
  refine ensures_lift_bind (fun e he => by simp [hv] at he) fun _ _ => ?_
  exact Host.ensures_perform_only (fun _ hc => hc) nofun fun c _ e => nofun

theorem readFence_spec {validate : F → Except IoError Unit} {owner : F → AccountIdentity}
    {a : AccountIdentity} : (host F).Within Reads (readFence (parseFence validate owner a))
      (fun stored _ => stored = w.fence) w := by
  refine (ask_spec .readFence trivial).bind fun stored w₁ h₁ hx => ?_
  obtain ⟨c, hx⟩ := hx
  have hx : stored = w.fence := (Except.ok.inj hx).symm.trans h₁.fence
  cases stored with
  | none => exact within_pure hx
  | some f => exact within_lift fun r hr => (eq_of_parseFence hr).trans hx

/-! ## Closing and opening a login -/

structure Disabled (w w' : World F) : Prop where
  closed : w'.enabled = false
  ran : ∃ v, (SamWrite.flags v).disables = true ∧ w'.ran = w.ran ++ [(.flags v, true)]

theorem disableLoginLocked_spec : (host F).Within Frame disableLoginLocked
    (fun _ w' => Disabled w w') w := by
  refine (framed bound_spec).bind fun a w₁ _ h₁ => ?_
  refine (write_spec _).bind fun _ w₂ _ h₂ => ?_
  refine (framed bound_spec).bind fun b w₃ _ h₃ => ?_
  refine within_check_bind fun _ => within_pure ⟨?_, _,
    SamWrite.disables_or a.flags, ?_⟩
  · exact h₃.1.closed (h₂.closed (SamWrite.disables_or _))
  · rw [h₃.1.ran, h₂.ran, h₁.1.ran]

theorem dispatchLogoffsOnce_asks (sessions requested : List Logon) :
    (dispatchLogoffsOnce sessions requested : Windows F (List Logon)).Asks Effect.Passive := by
  induction sessions generalizing requested with
  | nil => trivial
  | cons s rest ih =>
    rw [dispatchLogoffsOnce]
    split
    · exact ih requested
    · exact Program.Asks.bind trivial fun _ =>
        Program.Asks.bind (Program.asks_perform.mpr trivial) fun _ => ih _

theorem logoffSid_asks (sid : String) (n : ℕ) (requested : List Logon) :
    (logoffSid sid n requested : Windows F Unit).Asks Effect.Passive := by
  induction n generalizing requested with
  | zero => trivial
  | succ n ih =>
    refine Program.Asks.bind (Program.asks_perform.mpr trivial) fun sessions => ?_
    split
    · trivial
    · refine Program.Asks.bind (Program.asks_perform.mpr trivial) fun late => ?_
      split
      · trivial
      · exact (dispatchLogoffsOnce_asks _ _).bind fun _ => ih _

theorem logoffSid_spec (sid : String) (n : ℕ) (requested : List Logon) :
    (host F).Within Reads (logoffSid sid n requested) (fun _ _ => True) w := by
  exact Host.within_of_asks (fun _ _ => reads_drift) (fun _ _ _ _ _ he _ => reads_after he)
    (logoffSid_asks sid n requested) w

theorem logoffDeleted_spec (sid : Option String) :
    (host F).Within Reads (logoffDeleted sid) (fun _ _ => True) w := by
  cases sid with
  | none => exact within_pure trivial
  | some sid => exact logoffSid_spec sid logoffs []

theorem adopt_spec {marker : String} {pending : Record} {actual : LocalAccount} :
    (host F).Within Frame (adopt marker pending actual) (fun _ w' => w'.ran = w.ran) w := by
  unfold adopt
  split
  · refine within_check_bind fun _ => ?_
    exact Host.within_perform (fun c applied ok _ => ⟨rfl, rfl, rfl⟩) fun c _ _ => rfl
  · exact within_pure rfl

theorem Reads.absent {w' : World F} (h : Reads w w') (hp : w.present = false) :
    w'.present = false :=
  eq_false_iff.mpr fun hp' => by simp [h.present hp'] at hp

/-- The owned account is disabled, by one write if it is still there. -/
structure Closed (w w' : World F) : Prop where
  closed : w'.enabled = false
  ran : w'.present = true →
    ∃ v, (SamWrite.flags v).disables = true ∧ w'.ran = w.ran ++ [(.flags v, true)]

theorem closed_of_absent {w' : World F} (h : w'.present = false) : Closed w w' :=
  ⟨enabled_eq_false h, fun hp => by simp [h] at hp⟩

theorem present_of_none (h : w.sam = none) : w.present = false := by simp [World.present, h]

theorem disableActual_spec {marker : String} {record : Option Record}
    {actual : Option LocalAccount} (hsam : w.sam = actual) :
    (host F).Within Frame (disableActual marker record actual) (fun _ w' => Closed w w') w := by
  cases actual with
  | none =>
    refine (framed (logoffDeleted_spec _)).bind fun _ w₁ _ h₁ => ?_
    exact within_pure (closed_of_absent (h₁.1.absent (present_of_none hsam)))
  | some a =>
    refine within_demand_bind fun pending _ => adopt_spec.bind fun _ w₁ _ h₁ => ?_
    refine disableLoginLocked_spec.bind fun b w₂ _ h₂ => ?_
    refine (framed (logoffSid_spec _ _ _)).bind fun _ w₃ _ h₃ => ?_
    refine within_pure ⟨h₃.1.closed h₂.closed, fun _ => ?_⟩
    obtain ⟨v, hv, hran⟩ := h₂.ran
    exact ⟨v, hv, by rw [h₃.1.ran, hran, h₁]⟩

theorem disableLocked_spec (marker : String) :
    (host F).Within Frame (disableLocked marker) (fun _ w' => Closed w w') w := by
  refine (framed (ask_spec .key trivial).attempt).bind fun opened w₁ _ h₁ => ?_
  cases opened with
  | error e =>
    simp only
    split
    · refine (framed account_spec).bind fun actual w₂ _ h₂ => ?_
      refine within_check_bind fun hnone => ?_
      refine within_pure (closed_of_absent (present_of_none ?_))
      rw [h₂.2, isNone_iff_eq_none.mp hnone]
    · exact within_lift (by simp)
  | ok u =>
    refine (framed record_spec).bind fun record w₂ _ h₂ => ?_
    refine (framed account_spec).bind fun actual w₃ _ h₃ => ?_
    refine (disableActual_spec h₃.2).post fun _ w₄ _ h₄ => ?_
    have hr := IsTrans.trans _ _ _ h₁.1 (IsTrans.trans _ _ _ h₂.1 h₃.1)
    exact ⟨h₄.closed, fun hp => hr.ran ▸ h₄.ran hp⟩

theorem enableLocked_spec (expires : BitVec 32) : (host F).Within Frame (enableLocked expires)
      (fun _ w' => ∃ v, (SamWrite.flags v).disables = false ∧
        w'.ran = w.ran ++ [(.expiry expires, true), (.flags v, true)]) w := by
  refine (framed bound_spec).bind fun a w₁ _ h₁ => ?_
  refine (framed now_spec).bind fun now w₂ _ h₂ => ?_
  refine within_check_bind fun _ => (write_spec _).bind fun _ w₃ _ h₃ => ?_
  refine (framed bound_spec).bind fun _ w₄ _ h₄ => ?_
  refine (write_spec _).bind fun _ w₅ _ h₅ => ?_
  refine (framed bound_spec).post fun _ w₆ _ h₆ => ?_
  refine ⟨_, SamWrite.disables_and_not a.flags, ?_⟩
  rw [h₆.1.ran, h₅.ran, h₄.1.ran, h₃.ran, h₂.1.ran, h₁.1.ran]
  simp

/-- The writes that open a login up to a deadline: it is disabled first, and enabled last. -/
def Opens (expires : BitVec 32) (ran : List Ran) : Prop :=
  ∃ v v' secret, (SamWrite.flags v).disables = true ∧ (SamWrite.flags v').disables = false ∧
    ran = [(.flags v, true), (.password secret, true), (.expiry expires, true), (.flags v', true)]

def Retires (ran : List Ran) : Prop := ∃ secret, ran = [(.password secret, true)]

theorem install_spec {missing : String} {password : Option Password} {expires : ℕ} {α : Type}
    {close : Windows F α} (hclose : (host F).Within Frame close (fun _ w' => Closed w w') w) :
    (host F).Within Frame (close >>= fun _ => install missing password expires)
      (fun _ w' => ∃ new, Opens (BitVec.ofNat 32 expires) new ∧ w'.ran = w.ran ++ new) w := by
  refine hclose.bind fun _ w₁ _ h₁ => ?_
  refine (framed bound_spec).bind fun _ w₂ _ h₂ => ?_
  obtain ⟨v, hv, hran⟩ := h₁.ran (h₂.1.present (present_iff.mpr ⟨_, h₂.2⟩))
  refine within_demand_bind fun password _ => (write_spec _).bind fun _ w₃ _ h₃ => ?_
  refine (enableLocked_spec _).bind fun _ w₄ _ h₄ => within_pure ?_
  obtain ⟨v', hv', h₄⟩ := h₄
  refine ⟨_, ⟨v, v', password.expose, hv, hv', rfl⟩, ?_⟩
  rw [h₄, h₃.ran, h₂.1.ran, hran]
  simp

theorem retire_spec : (host F).Within Frame retire
    (fun _ w' => ∃ new, Retires new ∧ w'.ran = w.ran ++ new) w := by
  refine (framed (ask_spec .entropy trivial)).bind fun nonce w₁ _ h₁ => ?_
  refine (framed bound_spec).bind fun _ w₂ _ h₂ => ?_
  refine (write_spec _).post fun _ w₃ _ h₃ => ?_
  refine ⟨[(.password (retiredPassword nonce), true)], ⟨_, rfl⟩, ?_⟩
  rw [h₃.ran, h₂.1.ran, h₁.1.ran]

end Specs

/-! ## What the fence says about the account -/

def platform {F : Type} (validate : F → Except IoError Unit) :
    Platform (Effect F) Effect.Answer IoError (World F) Choice F Ran where
  host := host F
  ledger := World.ledger
  store := persist validate
  Valid f := validate f = .ok ()
  Frame := Frame
  Write := Persists
  frame_keeps _ _ h := ⟨h.fence, h.history, h.persisted⟩
  write_stores _ _ _ h := h.stores
  store_spec f _ := (persist_spec validate f).post fun _ _ _ h => ⟨h.1, h.2.1, h.2.2⟩
  store_tries f _ := persist_tries validate f

section Calls

variable {D : Discipline F Ran} {validate : F → Except IoError Unit} {f revoked : F}

def Consistent (D : Discipline F Ran) (w : World F) : Prop :=
  ∀ f, w.fence = some f → D.Live f → D.Backed f w.history

theorem Consistent.frame (h : Consistent D w) (hr : Frame w w') : Consistent D w' :=
  Platform.Consistent.keeps (M := platform fun _ => .ok ()) h ⟨hr.fence, hr.history, hr.persisted⟩

theorem Consistent.begin (h : Consistent D w) : Consistent D w.begin := h

theorem Consistent.reads (h : Consistent D w) (hr : Reads w w') : Consistent D w' :=
  h.frame hr.toFrame

theorem Consistent.persists (h : Consistent D w) (hf : ¬ D.Live f) (hr : Persists f w w') :
    Consistent D w' :=
  Platform.Consistent.stores (M := platform fun _ => .ok ()) h hf hr.stores

theorem shut_spec (w : World F) : (host F).Within Frame shut (fun _ _ => True) w :=
  disableLoginLocked_spec.bind fun _ _ _ _ => within_pure trivial

theorem closeLogin_spec (hrev : ¬ D.Live revoked) (w : World F) :
    (host F).Within (Keeping ((platform validate).Safe D revoked)) (closeLogin validate revoked)
      (fun _ _ => True) w :=
  Platform.closeWith_spec (M := platform validate) hrev shut_spec w

/-! ## What a clean-up does -/

section CleanUp

/-- Nothing was written to the account, or one write that disables it if it is successful. -/
def Shuts (w w' : World F) : Prop :=
  w'.ran = w.ran ∨ ∃ v ok, (SamWrite.flags v).disables = true ∧
    w'.ran = w.ran ++ [(.flags v, ok)] ∧ (ok = true → w'.enabled = false)

theorem Shuts.reads {w'' : World F} (h : Shuts w w') (hr : Reads w' w'') : Shuts w w'' := by
  rcases h with h | ⟨v, ok, hv, hran, hclosed⟩
  · exact .inl (hr.ran.trans h)
  · exact .inr ⟨v, ok, hv, hr.ran.trans hran, fun hok => hr.closed (hclosed hok)⟩

theorem write_shuts {v : BitVec 32} (hv : (SamWrite.flags v).disables = true)
    (hw : w'.ran = w.ran) :
    (host F).Ends (ask (.write (.flags v))) w' (Shuts w) := by
  refine Host.ensures_perform (fun h => absurd rfl h) (fun _ c _ _ => .inr ?_) fun c _ => .inr ?_
  · exact ⟨v, false, hv, congrArg (· ++ _) hw, nofun⟩
  · exact ⟨v, (w'.drift c).sam.isSome, hv, congrArg (· ++ _) hw, fun _ => enabled_write hv true⟩

/-- The account is read again after it was disabled. -/
theorem confirm_spec (w : World F) : (host F).Within Reads (do
    let disabled ← bound
    check "account disable did not converge" disabled.disabled
    pure disabled) (fun _ _ => True) w :=
  bound_spec.bind fun _ _ _ _ => within_check_bind fun _ => within_pure trivial

theorem shut_shuts (w : World F) : (host F).Ends shut w (Shuts w) := by
  have hdisable : (host F).Ends disableLoginLocked w (Shuts w) := by
    refine bound_spec.ensures_bind (fun w' hr => ⟨fun _ => .inl hr.ran, fun _ _ => .inl hr.ran⟩)
      fun a w₁ hr₁ _ => ?_
    refine (write_shuts (SamWrite.disables_or a.flags) hr₁.ran).bind fun _ w₂ h₂ => ?_
    exact Ensures.mono (confirm_spec w₂) fun w' _ h _ => h₂.reads h.1
  exact hdisable.bind fun _ _ h => ensures_done.mpr fun _ => h

/-- Without failures the owned account is found unless it is not enabled. -/
theorem bound_quiet : ((host F).only fun c => c.error = none).Ensures bound w
    fun w' o => ∀ e, o = some (.error e) → w'.enabled = false := by
  refine Host.ensures_perform_only_bind (fun _ hc => hc) nofun (fun _ _ _ => nofun)
    fun c o _ ho => ?_
  have hrecord : (w.drift c).record = o := Except.ok.inj ho
  refine ensures_demand_bind (fun hnone e _ => ?_) fun record hsome => ?_
  · simp [World.enabled, World.sid, windows, World.after, hrecord, hnone]
  refine Host.ensures_perform_only_bind (fun _ hc => hc) nofun (fun _ _ _ => nofun)
    fun c' o' _ ho' => ?_
  have hsam : ((w.drift c).drift c').sam = o' := Except.ok.inj ho'
  refine ensures_demand_bind (fun hnone e _ => ?_) fun a ha => ?_
  · exact enabled_eq_false (present_of_none (hsam.trans hnone))
  refine ensures_check_bind (fun hsid e _ => ?_) fun _ => ensures_done.mpr nofun
  have hother : ((w.drift c).drift c').sid ≠ some a.sid := by
    change (w.drift c).record.bind Record.sid ≠ some a.sid
    simpa [hrecord.trans hsome] using hsid
  refine enabled_eq_false (eq_false_iff.mpr fun hp => ?_)
  obtain ⟨b, hb, hbsid⟩ := present_iff.mp hp
  cases (hsam.trans ha).symm.trans hb
  exact hother hbsid

theorem shut_quiet (w : World F) : ((host F).only fun c => c.error = none).Ends shut w
    fun w' => w'.enabled = false := by
  have hdisable : ((host F).only fun c => c.error = none).Ends disableLoginLocked w
      fun w' => w'.enabled = false := by
    refine ensures_bind (bound_quiet.mono fun w₁ o h => ?_)
    match o with
    | none => exact fun hnone => absurd rfl hnone
    | some (.error e) => exact fun _ => h e rfl
    | some (.ok a) =>
      have hwrite : ((host F).only fun c => c.error = none).Ends
          (ask (.write (.flags (a.flags ||| ufAccountDisable)))) w₁ fun w' => w'.enabled = false :=
        Host.ensures_perform_only (fun _ hc => hc) (fun hnone => absurd rfl hnone)
          fun _ _ _ => enabled_write (SamWrite.disables_or _) true
      exact hwrite.bind fun _ w₂ h₂ cs _ => (Ensures.only (confirm_spec w₂) cs).1.closed h₂
  exact hdisable.bind fun _ _ h => ensures_done.mpr fun _ => h

/-- A clean-up tries to store the revoked fence and to disable the account. Without failures it does
both: an owned account that cannot be found is not enabled. -/
structure Cleaned (revoked : F) (cs : List Choice) (w w' : World F) : Prop where
  tried : ∃ ok, w'.persisted = w.persisted ++ [(revoked, ok)] ∧
    (ok = true → w'.fence = some revoked)
  shuts : w'.ran = w.ran ∨ ∃ v ok, (SamWrite.flags v).disables = true ∧
    w'.ran = w.ran ++ [(.flags v, ok)] ∧ (ok = true → w'.enabled = false)
  closed : (∀ c ∈ cs, c.error = none) → w'.fence = some revoked ∧ w'.enabled = false

theorem closeLogin_cleans (hv : validate revoked = .ok ()) {cs : List Choice}
    {x : Except IoError Unit}
    (h : (host F).run (closeLogin validate revoked) w cs = (w', some x)) :
    Cleaned revoked cs w w' := by
  refine ⟨?_, ?_, fun hcs => ?_⟩
  · exact (Platform.closeWith_tries (M := platform validate) hv shut_spec w).of_run h
  · have hshuts : (host F).Ends (closeLogin validate revoked) w (Shuts w) := by
      refine Platform.closeWith_ends (S := fun w₁ => w₁.ran = w.ran)
        (fun cs _ => (persist_spec validate revoked cs).1.stores.ran) fun w₁ hran cs hend => ?_
      have hshut := shut_shuts w₁ cs hend
      rwa [Shuts, hran] at hshut
    exact hshuts.of_run h
  · exact (Platform.closeWith_stores (M := platform validate) (persist_succeeds hv) shut_spec
      shut_quiet w).of_only hcs h

theorem carry_cleans {observeOnly : Bool} {pending completed g : F}
    {mutate converged : Windows F Unit} {cs : List Choice} {e : IoError}
    (hv : validate revoked = .ok ()) (hnone : w.persisted = [])
    (hrun : (host F).run (carry (persist validate) observeOnly pending completed mutate converged
      (closeLogin validate revoked)) w cs = (w', some (.error e)))
    (hstored : (g, true) ∈ w'.persisted) : ∃ w₁ cs₁ x, cs₁ <:+ cs ∧
      (host F).run (closeLogin validate revoked) w₁ cs₁ = (w', some x) ∧
        Cleaned revoked cs₁ w₁ w' := by
  obtain ⟨w₁, cs₁, x, hcs, hclose⟩ :=
    Platform.carry_error (M := platform validate) hnone hrun hstored
  exact ⟨w₁, cs₁, x, hcs, hclose, closeLogin_cleans hv hclose⟩

end CleanUp

theorem kept {α : Type} {p : Windows F α} {Q : α → World F → Prop}
    (h : (host F).Within Reads p Q w) : (host F).Within (Keeping (Consistent D)) p
      (fun x w' => Reads w w' ∧ Q x w') w :=
  h.widen fun _ hr hc => hc.reads hr

/-- A request that `revokes` leaves no enabled account. -/
theorem carry_answers {revokes : Prop} {observeOnly : Bool} {pending completed : F}
    {mutate converged : Windows F Unit} {P : World F → World F → Prop} {Q : World F → Prop}
    (hc : Consistent D w) (hran : w.ran = []) (hnone : w.persisted = [])
    (hd : observeOnly = false → (platform validate).Duty D w.history pending completed revoked
      mutate converged (closeLogin validate revoked) Reads P Q)
    (hobs : revokes → observeOnly = false)
    (hclosed : revokes → ∀ w w', P w w' → w'.enabled = false) :
    (host F).Within (Keeping (Consistent D)) (carry (persist validate) observeOnly pending completed
      mutate converged (closeLogin validate revoked)) (fun _ w' => revokes → w'.enabled = false)
      w := by
  have hcarry := Platform.carry_ensures (M := platform validate) hc hran hnone hd
  refine Ensures.mono hcarry fun w' o h => ⟨fun _ => h.consistent, fun f hf hrev => ?_⟩
  rcases h.done f hf with hobserve | ⟨w₁, w₂, w₃, -, hmut, hread, -, hwrite⟩
  · simp [hobs hrev] at hobserve
  · exact Persists.closed hwrite (hread.closed (hclosed hrev w₁ w₂ hmut))

/-! A sweep leaves only `Kept` accounts enabled. -/

variable {Kept : World F → Prop}

theorem disable_sweeps (marker : String) (r : Except IoError Bool) :
    (host F).Within (Keeping (Consistent D)) (disableLocked marker >>= fun _ => .lift r)
      (fun _ w' => w'.enabled = true → Kept w') w := by
  refine ((disableLocked_spec marker).widen fun _ hr hc => hc.frame hr).bind fun _ _ _ h => ?_
  exact within_lift fun _ _ he => by simp [h.2.closed] at he

theorem revoke_sweeps (marker : String) (hrev : ¬ D.Live revoked) :
    (host F).Within (Keeping (Consistent D)) (do
      persist validate revoked
      let _ ← disableLocked marker
      pure true) (fun _ w' => w'.enabled = true → Kept w') w :=
  ((persist_spec validate revoked).widen fun _ hr hc => hc.persists hrev hr).bind
    fun _ _ _ _ => disable_sweeps marker (.ok true)

end Calls

end VcWorkspace.Session.WindowsAccount
