import VcWorkspace.Session.Record
import VcWorkspace.Transition.Fence

/-! # Operating-system accounts on Linux

The account helpers that the agent and the native adapter share: every read of
the account database, every account command and every write of the durable
record is one effect. Commands can fail with or without having been carried
out; between two effects other processes of the host run, time passes, and the
account may be deleted, but nobody creates it again.
-/

namespace VcWorkspace.Session.LinuxAccount

open Transition Guest Handler Program

structure Account where
  username : String
  uid : ℕ
  deriving DecidableEq, Repr

def identity (a : Account) : AccountIdentity := ⟨a.username, a.uid, ""⟩

/-- What the identity check reads of a line of the local account database. -/
structure Passwd where
  username : String
  uid : ℕ
  home : String
  deriving DecidableEq, Repr

structure Shadow where
  password : List Char
  expiryDay : Option ℕ
  deriving DecidableEq, Repr

namespace Shadow

def closed (s : Shadow) : Bool :=
  s.password.isEmpty || s.password.head? == some '!' || s.password.head? == some '*'

def disabled (s : Shadow) (now : ℕ) : Bool :=
  s.closed || s.expiryDay.any fun day => day ≤ now / 86400

def provisioned : Shadow := ⟨['!'], some 1⟩

end Shadow

/-- The commands that change the account, its processes or its login writers. -/
inductive Command
  | lock
  | unlock (day : ℕ)
  | password (secret : String)
  | drain
  | kill
  | cleanup
  | login
  deriving DecidableEq, Repr

namespace Command

def terminates : Command → Bool
  | drain | kill | cleanup => true
  | _ => false

def shadow (hash : List Char) : Command → Shadow → Shadow
  | lock, s => ⟨if s.password.head? = some '!' then s.password else '!' :: s.password, some 1⟩
  | unlock day, s => ⟨if s.password.head? = some '!' then s.password.tail else s.password, some day⟩
  | password _, s => { s with password := hash }
  | _, s => s

theorem closed_lock (hash : List Char) (s : Shadow) : (lock.shadow hash s).closed = true := by
  simp only [shadow, Shadow.closed]
  split <;> simp_all

end Command

/-- The effects of the adapters, over the records `F` of one of them. -/
inductive Effect (F : Type)
  | requireRoot
  | gate
  | rejectLegacy
  | account
  | snapshot
  | birthLock
  | birthRelease
  | birthHeld
  | configured
  | passwd
  | shadow
  | now
  | processes
  | writers
  | deadline
  | oneLive
  | entropy
  | readFence
  | persist (f : F)
  | run (c : Command)

namespace Effect

variable {F : Type}

@[reducible] def Answer : Effect F → Type
  | account => Option Account
  | snapshot | birthHeld | configured | processes | writers | deadline => Bool
  | passwd => List Passwd
  | shadow => Shadow
  | now => ℕ
  | entropy => List UInt8
  | readFence => Option F
  | _ => Unit

def fallible : Effect F → Bool
  | birthRelease | birthHeld | configured | now | deadline => false
  | _ => true

/-- The effect leaves the account, its history and the checks of its processes as they are. -/
def Passive : Effect F → Prop
  | persist _ | run _ | processes | writers => False
  | _ => True

end Effect

abbrev Linux (F : Type) := Program (Effect F) Effect.Answer IoError

variable {F : Type}

section Programs

def ask (e : Effect F) : Linux F e.Answer := .perform e

def run (c : Command) : Linux F Unit := ask (.run c)

/-- Compare the local account database with the ownership record, line by line. -/
def identify (a : Account) : List Passwd → Bool → Except IoError Bool
  | [], found => .ok found
  | e :: rest, found =>
    if e.username = a.username then
      if found || e.uid != a.uid || e.home != "/home/" ++ a.username then
        .error (deny "bound local identity changed")
      else identify a rest true
    else if e.uid = a.uid then .error (deny "bound UID was reassigned or shared")
    else identify a rest found

/-- A deleted account is not an error, but a changed or shared identity is. -/
def verifyIdentity (a : Account) : Linux F Bool := do
  let entries ← ask .passwd
  .lift (identify a entries false)

structure LoginState where
  found : Bool
  disabled : Bool
  expiryDay : Option ℕ
  deriving DecidableEq, Repr

def loginState (a : Account) : Linux F LoginState := do
  let found ← verifyIdentity a
  if found then do
    let entry ← ask .shadow
    let now ← ask .now
    pure ⟨true, entry.disabled now, entry.expiryDay⟩
  else pure ⟨false, true, none⟩

def shadowDay (expires : ℕ) : ℕ := (expires + 86399) / 86400

/-- The account is open up to the day of a deadline, and the fence of the deadline is live. -/
def windowState (message : String) (a : Account) (expires : ℕ) (live : ℕ → Bool) :
    Linux F Unit := do
  let state ← loginState a
  let now ← ask .now
  check message (state.found && !state.disabled && state.expiryDay == some (shadowDay expires) &&
    live now)

def runIf (b : Bool) (c : Command) : Linux F Unit := if b then run c else pure ()

def disableLogin (a : Account) : Linux F Unit := do
  let found ← verifyIdentity a
  runIf found .lock
  let state ← loginState a
  check "account login did not close" state.disabled

def processesAbsent (a : Account) : Linux F Bool := do
  let _ ← verifyIdentity a
  ask .processes

def writersAbsent (absent : Bool) : Linux F Bool := if absent then ask .writers else pure false

/-- Poll until the account has neither processes nor login writers, at most `n` times. -/
def awaitAbsence (a : Account) : ℕ → Linux F Unit
  | 0 => check
      "account process domain or user-manager jobs remain; revocation is not acknowledged" false
  | n + 1 => do
    let absent ← processesAbsent a
    let absent ← writersAbsent absent
    if absent then run .cleanup
    else do
      let late ← ask .deadline
      if late then awaitAbsence a 0 else awaitAbsence a n

/-- Close the login and end what runs under it. Fifteen seconds are at most 151 polls with a tenth
of a second between two of them. -/
def disable (a : Account) : Linux F Unit := do
  disableLogin a
  run .drain
  let _ ← verifyIdentity a
  run .kill
  awaitAbsence a 151

def setPassword (a : Account) (secret : String) : Linux F Unit := do
  let found ← verifyIdentity a
  check "bound account was deleted" found
  run (.password secret)

def retiredSecret (nonce : List UInt8) : String :=
  let digit (n : ℕ) := if n < 10 then Char.ofNat (48 + n) else Char.ofNat (87 + n)
  "Vcw1!" ++ String.ofList (nonce.flatMap fun b => [digit (b.toNat / 16), digit (b.toNat % 16)])

def retire (a : Account) : Linux F Unit := do
  let nonce ← ask .entropy
  setPassword a (retiredSecret nonce)

def readAccount (username : String) : Linux F (Option Account) := do
  let record ← ask .account
  check "invalid account ownership identity"
    (record.all fun a => a.username == username && 1000 ≤ a.uid)
  pure record

/-- Take the gate of an account of one family and read its ownership record. -/
def bound (username family refusal missing : String) : Linux F Account := do
  ask .requireRoot
  check refusal (managedName username && startsWith username family)
  ask .gate
  let record ← readAccount username
  match record with
  | none => .lift (.error (deny missing))
  | some a => do
    let _ ← verifyIdentity a
    pure a

def persist (validate : F → Except IoError Unit) (f : F) : Linux F Unit := do
  .lift (validate f)
  ask (.persist f)

def parseRecord (validate : F → Except IoError Unit) (owner : F → AccountIdentity) (a : Account)
    (f : F) : Except IoError F :=
  parseFence validate owner (identity a) f

def readFence (parse : F → Except IoError F) : Linux F (Option F) := do
  let stored ← ask .readFence
  match stored with
  | none => pure none
  | some f => .lift (some <$> parse f)

end Programs

/-- A command that ran: its success, and whether the login was disabled and the last check had found
no process. -/
structure Ran where
  command : Command
  ok : Bool
  idle : Bool
  deriving DecidableEq, Repr

structure World (F : Type) where
  account : Option Account
  fence : Option F
  passwd : List Passwd
  shadow : Shadow
  clock : ℕ
  processes : List ℕ
  writers : List ℕ
  /-- The dispatcher holds the gate of new logins. -/
  birth : Bool
  /-- The commands, the writes of the record and the last checks of this call. -/
  ran : List Ran
  persisted : List (F × Bool)
  processesAbsent : Option Bool
  writersAbsent : Option Bool
  /-- The records written so far, newest first. -/
  history : List (Written F Ran)
  deriving DecidableEq, Repr

/-- What the host does before an effect, and how the effect turns out. -/
structure Choice where
  clock : ℕ
  passwd : List Passwd
  processes : List ℕ
  writers : List ℕ
  error : Option IoError
  /-- A failed effect was carried out. -/
  applied : Bool
  answer : Bool
  nonce : List UInt8
  hash : List Char

def listed (username : String) (entries : List Passwd) : Bool :=
  entries.any fun e => e.username == username

namespace World

variable {F : Type} (username : String)

def present (w : World F) : Bool := listed username w.passwd

def loginDisabled (w : World F) : Bool := !w.present username || w.shadow.disabled w.clock

def Closed (w : World F) : Prop := w.present username = false ∨ w.shadow.closed = true

def drift (c : Choice) (w : World F) : World F :=
  { w with
    clock := c.clock
    processes := c.processes
    writers := c.writers
    passwd := if listed username w.passwd || !listed username c.passwd then c.passwd else w.passwd }

def idle (w : World F) : Bool := w.loginDisabled username && w.processesAbsent == some true

/-- Carry out an effect, if it is `applied`, and note what it answered. -/
def after (c : Choice) (applied ok : Bool) (w : World F) : Effect F → World F
  | .persist f =>
    { w with
      fence := if applied then some f else w.fence
      history := if applied then ⟨f, w.ran⟩ :: w.history else w.history
      persisted := w.persisted ++ [(f, ok)] }
  | .run command =>
    { w with
      shadow := if applied then command.shadow c.hash w.shadow else w.shadow
      processes := if applied && command == .kill then [] else w.processes
      writers := if applied && command == .drain then [] else w.writers
      ran := w.ran ++ [⟨command, ok, w.idle username⟩] }
  | .processes =>
    { w with processesAbsent := if ok then some w.processes.isEmpty else w.processesAbsent }
  | .writers =>
    { w with writersAbsent := if ok then some w.writers.isEmpty else w.writersAbsent }
  | .birthLock => { w with birth := ok || w.birth }
  | .birthRelease => { w with birth := false }
  | _ => w

def answer (c : Choice) (w : World F) : (e : Effect F) → Except IoError e.Answer
  | .requireRoot | .gate | .rejectLegacy | .birthLock | .birthRelease | .oneLive | .persist _
  | .run _ => .ok ()
  | .account => .ok w.account
  | .snapshot => .ok w.fence.isSome
  | .birthHeld => .ok w.birth
  | .configured => .ok c.answer
  | .deadline => .ok c.answer
  | .passwd => .ok w.passwd
  | .shadow =>
    if w.present username then .ok w.shadow else .error (deny "local shadow lookup failed")
  | .now => .ok w.clock
  | .processes => .ok w.processes.isEmpty
  | .writers => .ok w.writers.isEmpty
  | .entropy => .ok c.nonce
  | .readFence => .ok w.fence

def begin (w : World F) : World F :=
  { w with birth := false, ran := [], persisted := [], processesAbsent := none,
           writersAbsent := none }

def ledger (w : World F) : Ledger F Ran := ⟨w.fence, w.history, w.ran, w.persisted⟩

end World

def linux (F : Type) (username : String) :
    Host (Effect F) Effect.Answer IoError (World F) Choice where
  drift := World.drift username
  after := World.after username
  answer := World.answer username
  fallible := Effect.fallible
  error := Choice.error
  applied := Choice.applied

abbrev host (F : Type) (username : String) :
    Handler (Effect F) Effect.Answer IoError (World F) Choice :=
  (linux F username).handler

/-- A provisioned account, at second 100. -/
def sampleWorld (F : Type) (username : String) : World F where
  account := some ⟨username, 1001⟩
  fence := none
  passwd := [⟨username, 1001, "/home/" ++ username⟩]
  shadow := .provisioned
  clock := 100
  processes := []
  writers := []
  birth := false
  ran := []
  persisted := []
  processesAbsent := none
  writersAbsent := none
  history := []

/-- An effect on the account that succeeds or fails at second 100, with some processes running. -/
def sampleChoice (username : String) (processes : List ℕ) (error : Option IoError) : Choice where
  clock := 100
  passwd := [⟨username, 1001, "/home/" ++ username⟩]
  processes := processes
  writers := []
  error := error
  applied := false
  answer := true
  nonce := [7]
  hash := ['x']

variable {username : String} {w : World F} {e : Effect F}

section Frames

variable {w' : World F} {c : Choice}

/-- The durable record is unchanged, and a deleted account stays deleted. -/
structure Frame (username : String) (w w' : World F) : Prop where
  fence : w'.fence = w.fence
  history : w'.history = w.history
  persisted : w'.persisted = w.persisted
  present : w'.present username = true → w.present username = true

structure Observes (username : String) (w w' : World F) : Prop extends Frame username w w' where
  shadow : w'.shadow = w.shadow
  ran : w'.ran = w.ran

structure Same (username : String) (w w' : World F) : Prop where
  present : w'.present username = true → w.present username = true
  shadow : w'.shadow = w.shadow
  ran : w'.ran = w.ran
  processesAbsent : w'.processesAbsent = w.processesAbsent
  writersAbsent : w'.writersAbsent = w.writersAbsent

structure Reads (username : String) (w w' : World F) : Prop
    extends Observes username w w', Same username w w'

/-- A write of the fence that may have failed, with or without being carried out. -/
structure Persists (username : String) (f : F) (w w' : World F) : Prop
    extends Same username w w' where
  stores : w.ledger.Stores f w'.ledger

instance : IsPreorder (World F) (Frame username) where
  refl _ := ⟨rfl, rfl, rfl, id⟩
  trans _ _ _ h h' := ⟨h'.1.trans h.1, h'.2.trans h.2, h'.3.trans h.3, fun hp => h.4 (h'.4 hp)⟩

instance : IsPreorder (World F) (Observes username) where
  refl w := ⟨refl w, rfl, rfl⟩
  trans _ _ _ h h' := ⟨IsTrans.trans _ _ _ h.toFrame h'.toFrame, h'.2.trans h.2, h'.3.trans h.3⟩

instance : IsPreorder (World F) (Reads username) where
  refl w := ⟨refl w, rfl, rfl⟩
  trans _ _ _ h h' :=
    ⟨IsTrans.trans _ _ _ h.toObserves h'.toObserves, h'.2.trans h.2, h'.3.trans h.3⟩

theorem World.Closed.mono (hw : w.Closed username)
    (hp : w'.present username = true → w.present username = true) (hs : w'.shadow = w.shadow) :
    w'.Closed username := by
  rcases hw with hn | hc
  · refine .inl (Bool.eq_false_iff.mpr fun hp' => ?_)
    simp [hp hp'] at hn
  · exact .inr (hs ▸ hc)

theorem World.Closed.loginDisabled (h : w.Closed username) : w.loginDisabled username = true := by
  rcases h with h | h <;> simp [World.loginDisabled, Shadow.disabled, h]

theorem reads_drift : Reads username w (w.drift username c) := by
  refine ⟨⟨⟨rfl, rfl, rfl, fun hp => ?_⟩, rfl, rfl⟩, rfl, rfl⟩
  by_contra hn
  simp only [World.drift, World.present] at hp hn
  split at hp <;> simp_all

theorem reads_after {applied ok : Bool} (he : e.Passive) :
    Reads username w (w.after username c applied ok e) := by
  cases e <;> first | exact he.elim | exact ⟨⟨⟨rfl, rfl, rfl, id⟩, rfl, rfl⟩, rfl, rfl⟩

end Frames

section Specs

variable {a : Account} {R : World F → World F → Prop} {validate : F → Except IoError Unit}
  {owner : F → AccountIdentity}

/-- A part that only reads, inside a program that runs commands. -/
theorem framed {α : Type} {p : Linux F α} {Q : α → World F → Prop}
    (h : (host F username).Within (Reads username) p Q w) :
    (host F username).Within (Frame username) p (fun x w' => Reads username w w' ∧ Q x w') w :=
  h.widen fun _ h => h.toFrame

theorem ask_spec (e : Effect F) (he : e.Passive) : (host F username).Within (Reads username) (ask e)
      (fun x w' => ∃ c, w'.answer username c e = .ok x) w := by
  refine Host.within_perform (fun c applied ok hap => ?_) fun c x hx => ⟨c, ?_⟩
  · exact IsTrans.trans _ _ _ reads_drift (reads_after he)
  · cases e <;> first | exact he.elim | exact hx

theorem identify_eq_ok {entries : List Passwd} {found b : Bool}
    (h : identify a entries found = .ok b) : b = (found || listed a.username entries) := by
  induction entries generalizing found with
  | nil => simpa [identify, listed] using h.symm
  | cons e rest ih =>
    by_cases hname : e.username = a.username
    · rw [identify, if_pos hname] at h
      split at h
      · cases h
      · simpa [listed, hname] using ih h
    · rw [identify, if_neg hname] at h
      split at h
      · cases h
      · simpa [listed, beq_eq_false_iff_ne.mpr hname] using ih h

theorem verifyIdentity_spec (ha : a.username = username) :
    (host F username).Within (Reads username) (verifyIdentity a)
      (fun found w' => found = w'.present username) w := by
  refine (ask_spec .passwd trivial).bind fun entries w' _ hx => within_lift ?_
  intro found hfound
  obtain ⟨c, hx⟩ := hx
  cases hx
  simpa [World.present, ha] using identify_eq_ok hfound

theorem loginState_spec (ha : a.username = username) :
    (host F username).Within (Reads username) (loginState a) (fun s w' => s.found = true →
        s.expiryDay = w'.shadow.expiryDay ∧ (s.disabled = false → w'.shadow.closed = false)) w := by
  refine (verifyIdentity_spec ha).bind fun found w₁ _ _ => ?_
  cases found with
  | false => exact within_pure (by simp)
  | true =>
    refine (ask_spec .shadow trivial).bind fun entry w₂ _ hx => ?_
    refine (ask_spec .now trivial).bind fun now w₃ h₃ _ => within_pure ?_
    obtain ⟨c, hx⟩ := hx
    have hentry : entry = w₃.shadow := by
      rw [h₃.shadow]
      simp only [World.answer] at hx
      split at hx
      · exact (Except.ok.inj hx).symm
      · cases hx
    simp_all [Shadow.disabled]

/-- A live fence, and an account that is open up to the day of its deadline. -/
structure Window (expires : ℕ) (live : ℕ → Bool) (w : World F) : Prop where
  live : live w.clock = true
  enabled : w.shadow.disabled w.clock = false
  day : w.shadow.expiryDay = some (shadowDay expires)

theorem windowState_spec (ha : a.username = username) {message : String} {expires : ℕ}
    {live : ℕ → Bool} (hlive : ∀ now, live now = true → now < expires) :
    (host F username).Within (Reads username) (windowState message a expires live)
      (fun _ w' => Window expires live w') w := by
  refine (loginState_spec ha).bind fun s w₁ _ h₁ => ?_
  refine (ask_spec .now trivial).bind fun now w₂ h₂ hx => within_check fun h => ?_
  obtain ⟨c, hx⟩ := hx
  cases hx
  simp only [Bool.and_eq_true, Bool.not_eq_true', beq_iff_eq] at h
  obtain ⟨⟨⟨hfound, hdisabled⟩, hday⟩, hnow⟩ := h
  obtain ⟨hexpiry, hclosed⟩ := h₁ hfound
  have hexp : w₂.shadow.expiryDay = some (shadowDay expires) := by
    rw [h₂.shadow, ← hexpiry, hday]
  have hlater : w₂.clock / 86400 < shadowDay expires := by
    have := hlive _ hnow
    unfold shadowDay
    omega
  refine ⟨hnow, ?_, hexp⟩
  rw [Shadow.disabled, hexp, h₂.shadow, hclosed hdisabled]
  simpa using hlater

def World.outcomes (w : World F) : List (Command × Bool) := w.ran.map fun r => (r.command, r.ok)

def succeeded (cmds : List Command) : List (Command × Bool) := cmds.map fun c => (c, true)

theorem Observes.outcomes {w' : World F} (h : Observes username w w') :
    w'.outcomes = w.outcomes := by
  rw [World.outcomes, h.ran, World.outcomes]

structure Runs (username : String) (cmd : Command) (w w' : World F) : Prop where
  shadow : ∃ hash, w'.shadow = cmd.shadow hash w.shadow
  ran : ∃ idle, w'.ran = w.ran ++ [⟨cmd, true, idle⟩]
  processesAbsent : w'.processesAbsent = w.processesAbsent
  writersAbsent : w'.writersAbsent = w.writersAbsent

theorem Runs.outcomes {cmd : Command} {w' : World F} (h : Runs username cmd w w') :
    w'.outcomes = w.outcomes ++ [(cmd, true)] := by
  obtain ⟨idle, hran⟩ := h.ran
  simp [World.outcomes, hran]

theorem run_spec (cmd : Command) :
    (host F username).Within (Frame username) (run cmd) (fun _ w' => Runs username cmd w w') w := by
  refine Host.within_perform (fun c applied ok hap => ?_) fun c _ _ => ?_
  · exact IsTrans.trans _ _ _ reads_drift.toFrame ⟨rfl, rfl, rfl, id⟩
  · exact ⟨⟨c.hash, rfl⟩, ⟨_, rfl⟩, rfl, rfl⟩

theorem processes_spec : (host F username).Within (Observes username) (ask .processes)
    (fun b w' => w'.processesAbsent = some b) w := by
  refine Host.within_perform (fun c applied ok hap => ?_) fun c x hx => ?_
  · exact IsTrans.trans _ _ _ reads_drift.toObserves ⟨⟨rfl, rfl, rfl, id⟩, rfl, rfl⟩
  · exact congrArg some (Except.ok.inj hx)

theorem writers_spec : (host F username).Within (Observes username) (ask .writers)
    (fun b w' => w'.writersAbsent = some b ∧ w'.processesAbsent = w.processesAbsent) w := by
  refine Host.within_perform (fun c applied ok hap => ?_) fun c x hx => ?_
  · exact IsTrans.trans _ _ _ reads_drift.toObserves ⟨⟨rfl, rfl, rfl, id⟩, rfl, rfl⟩
  · exact ⟨congrArg some (Except.ok.inj hx), rfl⟩

theorem disableLogin_spec (ha : a.username = username) :
    (host F username).Within (Frame username) (disableLogin a)
      (fun _ w' => w'.Closed username ∧ (w'.present username = true →
        w'.outcomes = w.outcomes ++ [(.lock, true)])) w := by
  refine (framed (verifyIdentity_spec ha)).bind fun found w₁ _ h₁ => ?_
  obtain ⟨h₁, hfound⟩ := h₁
  have hlock : (host F username).Within (Frame username) (runIf found .lock)
      (fun _ w' => w'.Closed username ∧ (w'.present username = true →
        w'.outcomes = w.outcomes ++ [(.lock, true)])) w₁ := by
    cases found with
    | false =>
      exact within_pure ⟨.inl hfound.symm, fun hp => by simp [hp] at hfound⟩
    | true =>
      refine (run_spec .lock).post fun _ w₂ _ h₂ => ⟨.inr ?_, fun _ => ?_⟩
      · obtain ⟨hash, hs⟩ := h₂.shadow
        rw [hs, Command.closed_lock]
      · rw [h₂.outcomes, h₁.outcomes]
  refine hlock.bind fun _ w₂ _ h₂ => ?_
  refine (framed (loginState_spec ha)).bind fun s w₃ hf h₃ => ?_
  refine within_check fun _ => ⟨h₂.1.mono hf.present h₃.1.shadow, fun hp => ?_⟩
  rw [h₃.1.outcomes, h₂.2 (hf.present hp)]

/-- The account is closed, and nothing of it was left at the last check. -/
structure Ended (username : String) (w w' : World F) : Prop where
  closed : w'.Closed username
  processesAbsent : w'.processesAbsent = some true
  writersAbsent : w'.writersAbsent = some true
  outcomes : w'.present username = true → w'.outcomes =
    w.outcomes ++ [(.lock, true), (.drain, true), (.kill, true), (.cleanup, true)]

theorem processesAbsent_spec (ha : a.username = username) :
    (host F username).Within (Observes username) (processesAbsent a)
      (fun b w' => w'.processesAbsent = some b) w :=
  ((verifyIdentity_spec ha).mono (fun _ h => h.toObserves) fun _ _ _ h => h).bind
    fun _ _ _ _ => processes_spec

theorem writersAbsent_spec {absent : Bool} (h : w.processesAbsent = some absent) :
    (host F username).Within (Observes username) (writersAbsent absent)
      (fun b w' => b = true → w'.processesAbsent = some true ∧ w'.writersAbsent = some true) w := by
  cases absent with
  | false => exact within_pure (by simp)
  | true => exact writers_spec.post fun b _ _ hw hb => ⟨hw.2.trans h, hb ▸ hw.1⟩

theorem awaitAbsence_spec (ha : a.username = username) (n : ℕ) :
    (host F username).Within (Frame username) (awaitAbsence a n)
      (fun _ w' => w'.shadow = w.shadow ∧ w'.processesAbsent = some true ∧
        w'.writersAbsent = some true ∧ w'.outcomes = w.outcomes ++ [(.cleanup, true)]) w := by
  induction n generalizing w with
  | zero =>
    rw [awaitAbsence]
    exact within_check nofun
  | succ n ih =>
    rw [awaitAbsence]
    refine ((processesAbsent_spec ha).widen fun _ h => h.toFrame).bind fun absent w₁ _ h₁ => ?_
    refine ((writersAbsent_spec h₁.2).widen fun _ h => h.toFrame).bind fun absent w₂ _ h₂ => ?_
    have hobs : Observes username w w₂ := IsTrans.trans _ _ _ h₁.1 h₂.1
    cases absent with
    | true =>
      refine (run_spec .cleanup).post fun _ w₃ _ h₃ => ?_
      obtain ⟨hash, hs⟩ := h₃.shadow
      obtain ⟨hp, hq⟩ := h₂.2 rfl
      refine ⟨hs.trans hobs.shadow, h₃.processesAbsent.trans hp, h₃.writersAbsent.trans hq, ?_⟩
      rw [h₃.outcomes, hobs.outcomes]
    | false =>
      refine (framed (ask_spec .deadline trivial)).bind fun late w₃ _ h₃ => ?_
      have hobs : Observes username w w₃ := IsTrans.trans _ _ _ hobs h₃.1.toObserves
      cases late with
      | true =>
        rw [if_pos rfl, awaitAbsence]
        exact within_check nofun
      | false =>
        refine ih.post fun _ w₄ _ h₄ => ⟨h₄.1.trans hobs.shadow, h₄.2.1, h₄.2.2.1, ?_⟩
        rw [h₄.2.2.2, hobs.outcomes]

theorem disable_spec (ha : a.username = username) :
    (host F username).Within (Frame username) (disable a) (fun _ w' => Ended username w w') w := by
  refine (disableLogin_spec ha).bind fun _ w₁ hf₁ h₁ => ?_
  refine (run_spec .drain).bind fun _ w₂ hf₂ h₂ => ?_
  refine (framed (verifyIdentity_spec ha)).bind fun _ w₃ hf₃ h₃ => ?_
  refine (run_spec .kill).bind fun _ w₄ hf₄ h₄ => ?_
  refine (awaitAbsence_spec ha 151).post fun _ w₅ hf₅ h₅ => ?_
  obtain ⟨hs₅, hp, hq, ho⟩ := h₅
  obtain ⟨_, hs₂⟩ := h₂.shadow
  obtain ⟨_, hs₄⟩ := h₄.shadow
  have hf : Frame username w₁ w₅ := IsTrans.trans _ _ _ hf₂
    (IsTrans.trans _ _ _ hf₃ (IsTrans.trans _ _ _ hf₄ hf₅))
  refine ⟨h₁.1.mono hf.present ?_, hp, hq, fun hpresent => ?_⟩
  · calc w₅.shadow = w₄.shadow := hs₅
      _ = w₃.shadow := hs₄
      _ = w₂.shadow := h₃.1.shadow
      _ = w₁.shadow := hs₂
  · rw [ho, h₄.outcomes, h₃.1.outcomes, h₂.outcomes, h₁.2 (hf.present hpresent)]
    simp

def Effect.Closes : Effect F → Prop
  | .persist _ | .run (.unlock _) | .run (.password _) | .run .login => False
  | _ => True

theorem closes_of_passive (e : Effect F) (he : e.Passive) : e.Closes := by
  cases e <;> first | exact he.elim | trivial

section Asks

variable {P : Effect F → Prop}

theorem verifyIdentity_asks (h : ∀ e, e.Passive → P e) : (verifyIdentity a : Linux F Bool).Asks P :=
  Program.Asks.bind (asks_perform.mpr (h _ trivial)) fun _ => trivial

theorem loginState_asks (h : ∀ e, e.Passive → P e) :
    (loginState a : Linux F LoginState).Asks P := by
  refine (verifyIdentity_asks h).bind fun found => ?_
  cases found with
  | false => trivial
  | true => exact Program.Asks.bind (asks_perform.mpr (h _ trivial)) fun _ =>
      Program.Asks.bind (asks_perform.mpr (h _ trivial)) fun _ => trivial

theorem disableLogin_asks (h : ∀ e, e.Passive → P e) (hlock : P (.run .lock)) :
    (disableLogin a : Linux F Unit).Asks P := by
  refine (verifyIdentity_asks h).bind fun found => ?_
  refine Program.Asks.bind ?_ fun _ => (loginState_asks h).bind fun _ => trivial
  cases found with
  | false => trivial
  | true => exact asks_perform.mpr hlock

theorem setPassword_asks (h : ∀ e, e.Passive → P e) {secret : String}
    (hp : P (.run (.password secret))) : (setPassword a secret : Linux F Unit).Asks P :=
  (verifyIdentity_asks h).bind fun _ => Program.Asks.bind trivial fun _ => asks_perform.mpr hp

theorem awaitAbsence_asks (n : ℕ) : (awaitAbsence a n : Linux F Unit).Asks Effect.Closes := by
  have hzero : (awaitAbsence a 0 : Linux F Unit).Asks Effect.Closes := by
    rw [awaitAbsence]
    trivial
  induction n with
  | zero => exact hzero
  | succ n ih =>
    rw [awaitAbsence]
    refine Program.Asks.bind ((verifyIdentity_asks closes_of_passive).bind fun _ => ?_)
      fun absent => ?_
    · exact asks_perform.mpr trivial
    refine Program.Asks.bind ?_ fun absent => ?_
    · cases absent <;> simp [writersAbsent, ask, Effect.Closes]
    · cases absent with
      | true => exact asks_perform.mpr trivial
      | false =>
        refine Program.Asks.bind (asks_perform.mpr trivial) fun late => ?_
        cases late with
        | true => exact hzero
        | false => exact ih

theorem drain_asks : (do
    run .drain
    let _ ← verifyIdentity a
    run .kill
    awaitAbsence a 151 : Linux F Unit).Asks Effect.Closes :=
  Program.Asks.bind (asks_perform.mpr trivial) fun _ =>
    (verifyIdentity_asks closes_of_passive).bind fun _ =>
      Program.Asks.bind (asks_perform.mpr trivial) fun _ => awaitAbsence_asks 151

theorem disable_asks : (disable a : Linux F Unit).Asks Effect.Closes :=
  (disableLogin_asks closes_of_passive trivial).bind fun _ => drain_asks

end Asks

theorem closed_after {c : Choice} {applied ok : Bool} (he : e.Closes) (h : w.Closed username) :
    (w.after username c applied ok e).Closed username := by
  rcases h with h | h
  · refine .inl ?_
    cases e <;> exact h
  · refine .inr ?_
    cases e with
    | run cmd =>
      cases applied with
      | false => exact h
      | true => cases cmd <;> first | exact he.elim | exact h | exact Command.closed_lock c.hash _
    | _ => exact h

theorem closes_keeps {α : Type} {q : Linux F α} (hq : q.Asks Effect.Closes) (w : World F) :
    (host F username).Within (Keeping (World.Closed username)) q (fun _ _ => True) w :=
  Host.within_of_asks (fun _ _ hw => hw.mono reads_drift.present rfl)
    (fun _ _ _ _ _ he _ hw => closed_after he hw) hq w

/-- Nothing fails, and the lines of the account database still agree with the ownership record. -/
def Undisturbed (a : Account) (c : Choice) : Prop :=
  c.error = none ∧ ∃ b, identify a c.passwd false = .ok b

theorem verifyIdentity_undisturbed : ((host F a.username).only (Undisturbed a)).Ensures
    (verifyIdentity a) w fun w' o => ∀ e, o = some (.error e) → w'.present a.username = false := by
  refine ensures_bind (Host.ensures_perform_only (fun c hc => hc.1) nofun fun c hc cs e he => ?_)
  obtain ⟨b, hb⟩ := hc.2
  change some (identify a (w.drift a.username c).passwd false) = _ at he
  change listed a.username (w.drift a.username c).passwd = false
  simp only [World.drift] at he ⊢
  split at he
  · simp [hb] at he
  next hgone =>
    simp only [Bool.or_eq_true, not_or, Bool.not_eq_true] at hgone
    rw [if_neg (by simpa using hgone)]
    exact hgone.1

theorem ends_closed {α : Type} {q : Linux F α} {Φ : Choice → Prop} (hq : q.Asks Effect.Closes)
    (hw : w.Closed username) : ((host F username).only Φ).Ends q w (World.Closed username) :=
  fun cs _ => (Ensures.only (closes_keeps hq w) cs).1 hw

theorem disableLogin_undisturbed : ((host F a.username).only (Undisturbed a)).Ends (disableLogin a)
    w (World.Closed a.username) := by
  refine ensures_bind ((verifyIdentity_undisturbed.and
    (Ensures.only (verifyIdentity_spec rfl))).mono fun w₁ o h => ?_)
  match o with
  | none => exact fun hnone => absurd rfl hnone
  | some (.error e) => exact fun _ => .inl (h.1 e rfl)
  | some (.ok found) =>
    have hfound : found = w₁.present a.username := h.2.2 found rfl
    have hlock : ((host F a.username).only (Undisturbed a)).Ends (runIf found .lock) w₁
        (World.Closed a.username) := by
      cases found with
      | false => exact ensures_done.mpr fun _ => .inl hfound.symm
      | true =>
        exact Host.ensures_perform_only (fun c hc => hc.1) (fun h => absurd rfl h)
          fun c _ _ => .inr (Command.closed_lock c.hash _)
    exact hlock.bind fun _ w₂ h₂ =>
      ends_closed ((loginState_asks closes_of_passive).bind fun _ => trivial) h₂

theorem disable_undisturbed (w : World F) : ((host F a.username).only (Undisturbed a)).Ends
    (disable a) w (World.Closed a.username) :=
  disableLogin_undisturbed.bind fun _ _ h => ends_closed drain_asks h

theorem setPassword_spec (ha : a.username = username) (secret : String) :
    (host F username).Within (Frame username) (setPassword a secret)
      (fun _ w' => w.present username = true ∧
        w'.outcomes = w.outcomes ++ [(.password secret, true)]) w := by
  refine (framed (verifyIdentity_spec ha)).bind fun found w₁ hf₁ h₁ => ?_
  refine within_check_bind fun hfound => (run_spec (.password secret)).post fun _ w₂ _ h₂ => ?_
  refine ⟨hf₁.present (h₁.2.symm.trans hfound), ?_⟩
  rw [h₂.outcomes, h₁.1.outcomes]

theorem retire_spec (ha : a.username = username) :
    (host F username).Within (Frame username) (retire a)
      (fun _ w' => ∃ nonce, w'.outcomes = w.outcomes ++ [(.password (retiredSecret nonce), true)])
      w := by
  refine (framed (ask_spec .entropy trivial)).bind fun nonce w₁ _ h₁ => ?_
  refine (setPassword_spec ha _).post fun _ w₂ _ h₂ => ⟨nonce, ?_⟩
  rw [h₂.2, h₁.1.outcomes]

theorem readAccount_spec : (host F username).Within (Reads username) (readAccount username)
    (fun record _ => ∀ a, record = some a → a.username = username) w := by
  refine (ask_spec .account trivial).bind fun record w₁ _ _ => ?_
  refine within_check_bind fun h => within_pure ?_
  rintro a rfl
  simp at h
  exact h.1

theorem bound_spec {family refusal missing : String} :
    (host F username).Within (Reads username) (bound username family refusal missing)
      (fun a _ => a.username = username) w := by
  refine (ask_spec .requireRoot trivial).bind fun _ w₁ _ _ => within_check_bind fun _ => ?_
  refine (ask_spec .gate trivial).bind fun _ w₃ _ _ => readAccount_spec.bind fun record w₄ _ h => ?_
  cases record with
  | none => exact within_lift (by simp)
  | some a =>
    refine (verifyIdentity_spec (h a rfl)).bind fun _ w₅ _ _ => ?_
    exact within_pure (h a rfl)

theorem readFence_spec :
    (host F username).Within (Reads username) (readFence (parseRecord validate owner a))
      (fun stored _ => stored = w.fence) w := by
  refine (ask_spec .readFence trivial).bind fun stored w₁ h₁ hx => ?_
  obtain ⟨c, hx⟩ := hx
  have hx : stored = w.fence := (Except.ok.inj hx).symm.trans h₁.fence
  cases stored with
  | none => exact within_pure hx
  | some f => exact within_lift fun r hr => (eq_of_parseFence hr).trans hx

instance (f : F) : Std.Refl (Persists username f) :=
  ⟨fun _ => ⟨⟨id, rfl, rfl, rfl, rfl⟩, refl _⟩⟩

theorem persist_spec (validate : F → Except IoError Unit) (f : F) :
    (host F username).Within (Persists username f) (persist validate f)
      (fun _ w' => w'.fence = some f ∧ w'.history = ⟨f, w.ran⟩ :: w.history ∧
        w'.persisted = w.persisted ++ [(f, true)]) w := by
  refine within_lift_bind fun _ _ => ?_
  refine Host.within_perform (fun c applied ok hap => ⟨?_, Ledger.stores_put hap⟩)
    fun c _ _ => ⟨rfl, rfl, rfl⟩
  have hd : Reads username w (w.drift username c) := reads_drift
  exact ⟨hd.present, rfl, rfl, rfl, rfl⟩

theorem persist_tries (validate : F → Except IoError Unit) (f : F) :
    (host F username).Ensures (persist validate f) w fun w' o => ∀ x, o = some x →
      (¬ validate f = .ok () ∧ w' = w) ∨ w'.persisted = w.persisted ++ [(f, x.isOk)] := by
  refine ensures_lift_bind (fun e he x _ => .inl ⟨by simp [he], rfl⟩) fun _ _ => ?_
  refine Host.ensures_perform nofun (fun _ c error x hx => .inr ?_) fun c x hx => .inr ?_
  · cases hx
    rfl
  · cases hx
    rfl

theorem persist_succeeds {Φ : Choice → Prop} {f : F} (hΦ : ∀ c, Φ c → c.error = none)
    (hv : validate f = .ok ()) (w : World F) : ((host F username).only Φ).Ensures
      (persist validate f) w fun _ o => ∀ e, o ≠ some (.error e) := by
  refine ensures_lift_bind (fun e he => by simp [hv] at he) fun _ _ => ?_
  exact Host.ensures_perform_only hΦ nofun fun c _ e => nofun

end Specs

end VcWorkspace.Session.LinuxAccount
