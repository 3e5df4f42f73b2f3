import Mathlib.Data.UInt
import VcWorkspace.Guest.AgentHistory
import VcWorkspace.Session.LinuxJournal

/-! # Agent accounts on Linux

An opening ends whatever runs under the account before it sets the credential
of the request; a login starts the session itself and retires the credential
at once, and a sealing retires it later. The record never shows a live login
whose commands were not all successful, wherever a call fails or crashes.
-/

namespace VcWorkspace.Session.LinuxLease

open Transition Guest Guest.Agent LinuxAccount Handler

def parse : Account → Fence → Except IoError Fence := parseRecord Fence.validate Fence.identity

def liveState (a : Account) (f : Fence) : Linux Fence Unit :=
  windowState "account login window did not converge" a f.expiresUnixSeconds f.loginLive

def startXorg (a : Account) (r : Request) : Linux Fence Unit := do
  let found ← verifyIdentity a
  check "bound account was deleted" found
  match r.password with
  | none => .lift (.error (deny "missing login credential"))
  | some _ => run .login

section Apply

variable (a : Account) (r : Request) (login : Bool)

def admissible (previous : Option Fence) : Linux Fence Unit :=
  match r.operation with
  | .open => do
    let found ← verifyIdentity a
    check "bound account was deleted" found
  | .seal =>
    match previous with
    | none => .lift (.error (deny "missing login intent"))
    | some old => liveState a old
  | .revoke => pure ()

def requireConfigured : Linux Fence Unit :=
  if login then do
    let installed ← ask .configured
    check "PAM login birth protection must be installed before login" installed
  else pure ()

def sealLogin (p : Plan) : Plan :=
  { p with completed := if login then { p.completed with phase := .sealed } else p.completed }

/-- The checks of a request, up to the plan that it is accepted with. -/
def accept (username : String) : Linux Fence (Account × Plan) := do
  check "login requires a fresh open intent" (!login || r.operation == .open)
  let a ← bound username "vca" "Agent account required" "pre-bound account required"
  ask .birthLock
  requireConfigured login
  check "account request identity mismatch" (r.identity == identity a)
  let previous ← readFence (parse a)
  let now ← ask .now
  let next ← .lift (plan previous r now)
  admissible a r previous
  pure (a, sealLogin login next)

/-- Start the session while new logins may register, then retire the credential. -/
def logIn (completed : Fence) : Linux Fence Unit := do
  liveState a completed
  ask .birthRelease
  startXorg a r
  ask .birthLock
  ask .oneLive
  retire a

def openLogin (completed : Fence) : Linux Fence Unit := do
  disable a
  match r.password with
  | none => .lift (.error (deny "missing login credential"))
  | some password => do
    setPassword a password.expose
    let found ← verifyIdentity a
    check "bound account was deleted" found
    run (.unlock (shadowDay completed.expiresUnixSeconds))
    if login then logIn a r completed else pure ()

def mutate (completed : Fence) : Linux Fence Unit :=
  match r.operation with
  | .open => openLogin a r login completed
  | .seal => retire a
  | .revoke => disable a

def converged (completed : Fence) : Linux Fence Unit :=
  if r.operation = .revoke then pure () else liveState a completed

def relock (held : Bool) : Linux Fence Unit := if held then pure () else ask .birthLock

/-- The gate of new logins may have been released, and closing needs it. -/
def closeFailed (pending : Fence) : Linux Fence Unit := do
  let held ← ask .birthHeld
  let _ ← (relock held).attempt
  let held ← ask .birthHeld
  if held then closeAccount Fence.validate a pending.revoked else pure ()

end Apply

def apply (username : String) (r : Request) (login : Bool) : Linux Fence Fence := do
  let (a, next) ← accept r login username
  carry (persist Fence.validate) next.observeOnly next.pending next.completed
    (mutate a r login next.completed) (converged a r next.completed) (closeFailed a next.pending)

def reconcile (username : String) : Linux Fence Unit := do
  let a ← bound username "vca" "Agent account required" "pre-bound account required"
  ask .birthLock
  let stored ← (readFence (parse a)).attempt
  reconcileFence Fence.validate a (liveState a) Fence.revoked (.lift (.ok ())) stored

def reconcileExpired (username : String) : Linux Fence Unit := do
  let found ← ask .snapshot
  if found then reconcile username else pure ()

/-! ## What the programs do -/

variable {username : String} {w : World Fence} {a : Account} {r : Request} {login : Bool}

section Specs

variable {f pending completed : Fence}

theorem liveState_spec (ha : a.username = username) :
    (host Fence username).Within (Reads username) (liveState a f)
      (fun _ w' => Window f.expiresUnixSeconds f.loginLive w') w := by
  refine windowState_spec ha fun now h => ?_
  simp only [Fence.loginLive, Bool.and_eq_true, decide_eq_true_eq] at h
  exact h.2

theorem admissible_spec (ha : a.username = username) {previous : Option Fence} :
    (host Fence username).Within (Reads username) (admissible a r previous)
      (fun _ _ => True) w := by
  unfold admissible
  split
  · refine (verifyIdentity_spec ha).bind fun _ w₁ _ _ => within_check fun _ => trivial
  · split
    · exact within_lift fun _ _ => trivial
    · exact (liveState_spec ha).post fun _ _ _ _ => trivial
  · exact within_pure trivial

theorem requireConfigured_spec :
    (host Fence username).Within (Reads username) (requireConfigured login)
      (fun _ _ => True) w := by
  cases login with
  | false => exact within_pure trivial
  | true =>
    exact (ask_spec .configured trivial).bind fun _ w₁ _ _ => within_check fun _ => trivial

/-- An accepted plan answers the request against the stored fence. -/
structure Admits (username : String) (r : Request) (login : Bool) (stored : Option Fence)
    (a : Account) (next : Plan) : Prop where
  username : a.username = username
  opens : login = true → r.operation = .open
  plan : ∃ now p, plan stored r now = .ok p ∧ next = sealLogin login p

theorem accept_spec : (host Fence username).Within (Reads username) (accept r login username)
    (fun x _ => Admits username r login w.fence x.1 x.2) w := by
  refine within_check_bind fun hopen => ?_
  refine bound_spec.bind fun a w₁ h₁ ha => ?_
  refine (ask_spec .birthLock trivial).bind fun _ w₂ h₂ _ => ?_
  refine requireConfigured_spec.bind fun _ w₃ h₃ _ => within_check_bind fun _ => ?_
  refine readFence_spec.bind fun stored w₄ _ hstored => ?_
  refine (ask_spec .now trivial).bind fun now w₅ _ _ => within_lift_bind fun p hp => ?_
  refine (admissible_spec ha).bind fun _ w₆ _ _ => within_pure ?_
  refine ⟨ha, fun hl => by simpa [hl] using hopen, now, p, ?_, rfl⟩
  rw [← hp, hstored, h₃.fence, h₂.fence, h₁.fence]

def openCommands (secret : String) (f : Fence) : List Command :=
  [.lock, .drain, .kill, .cleanup, .password secret, .unlock (shadowDay f.expiresUnixSeconds)]

def loginCommands (secret : String) (nonce : List UInt8) (f : Fence) : List Command :=
  openCommands secret f ++ [.login, .password (retiredSecret nonce)]

def sealCommands (nonce : List UInt8) : List Command := [.password (retiredSecret nonce)]

theorem startXorg_spec (ha : a.username = username) :
    (host Fence username).Within (Frame username) (startXorg a r)
      (fun _ w' => w'.outcomes = w.outcomes ++ [(.login, true)]) w := by
  refine (framed (verifyIdentity_spec ha)).bind fun _ w₁ _ h₁ => ?_
  refine within_check_bind fun _ => ?_
  split
  · exact within_lift (by simp)
  · refine (run_spec .login).post fun _ w₂ _ h₂ => ?_
    rw [h₂.outcomes, h₁.1.outcomes]

theorem logIn_spec (ha : a.username = username) :
    (host Fence username).Within (Frame username) (logIn a r completed)
      (fun _ w' => ∃ nonce, w'.outcomes =
        w.outcomes ++ [(.login, true), (.password (retiredSecret nonce), true)]) w := by
  refine (framed (liveState_spec ha)).bind fun _ w₁ _ h₁ => ?_
  refine (framed (ask_spec .birthRelease trivial)).bind fun _ w₂ _ h₂ => ?_
  refine (startXorg_spec ha).bind fun _ w₃ _ h₃ => ?_
  refine (framed (ask_spec .birthLock trivial)).bind fun _ w₄ _ h₄ => ?_
  refine (framed (ask_spec .oneLive trivial)).bind fun _ w₅ _ h₅ => ?_
  refine (retire_spec ha).post fun _ w₆ _ h₆ => ?_
  obtain ⟨nonce, h₆⟩ := h₆
  refine ⟨nonce, ?_⟩
  rw [h₆, h₅.1.outcomes, h₄.1.outcomes, h₃, h₂.1.outcomes, h₁.1.outcomes]
  simp

def Prescribed (login : Bool) (f : Fence) : Operation → List Command → Prop
  | .open, cmds => ∃ secret, if login then ∃ nonce, cmds = loginCommands secret nonce f
      else cmds = openCommands secret f
  | .seal, cmds => ∃ nonce, cmds = sealCommands nonce
  | .revoke, _ => True

/-- The commands of a request, between the worlds before and after them. -/
def Mutates (username : String) (r : Request) (login : Bool) (completed : Fence)
    (w w' : World Fence) : Prop :=
  (r.operation ≠ .revoke → ∃ cmds, Prescribed login completed r.operation cmds ∧
    w'.outcomes = w.outcomes ++ succeeded cmds) ∧
  (r.operation = .revoke → Ended username w w')

theorem openLogin_spec (ha : a.username = username) :
    (host Fence username).Within (Frame username) (openLogin a r login completed)
      (fun _ w' => ∃ cmds, Prescribed login completed .open cmds ∧
        w'.outcomes = w.outcomes ++ succeeded cmds) w := by
  refine (disable_spec ha).bind fun _ w₁ _ h₁ => ?_
  split
  · exact within_lift (by simp)
  case h_2 password _ =>
  refine (setPassword_spec ha _).bind fun _ w₂ _ h₂ => ?_
  refine (framed (verifyIdentity_spec ha)).bind fun _ w₃ _ h₃ => ?_
  refine within_check_bind fun _ => (run_spec _).bind fun _ w₄ _ h₄ => ?_
  have hout : w₄.outcomes = w.outcomes ++ succeeded (openCommands password.expose completed) := by
    rw [h₄.outcomes, h₃.1.outcomes, h₂.2, h₁.outcomes h₂.1]
    simp [succeeded, openCommands]
  cases login with
  | false => exact within_pure ⟨_, ⟨password.expose, rfl⟩, hout⟩
  | true =>
    refine (logIn_spec ha).post fun _ w₅ _ h₅ => ?_
    obtain ⟨nonce, h₅⟩ := h₅
    refine ⟨_, ⟨password.expose, nonce, rfl⟩, ?_⟩
    rw [h₅, hout]
    simp [succeeded, loginCommands]

theorem mutate_spec (ha : a.username = username) :
    (host Fence username).Within (Frame username) (mutate a r login completed)
      (fun _ w' => Mutates username r login completed w w') w := by
  unfold mutate
  split
  case h_1 ho => exact (openLogin_spec ha).post fun _ _ _ h => ⟨fun _ => ho ▸ h, by simp [ho]⟩
  case h_2 ho =>
    refine (retire_spec ha).post fun _ _ _ h => ⟨fun _ => ?_, by simp [ho]⟩
    obtain ⟨nonce, h⟩ := h
    exact ⟨sealCommands nonce, ho ▸ ⟨nonce, rfl⟩, h⟩
  case h_3 ho => exact (disable_spec ha).post fun _ _ _ h => ⟨fun hne => absurd ho hne, fun _ => h⟩

theorem converged_spec (ha : a.username = username) :
    (host Fence username).Within (Reads username) (converged a r completed)
      (fun _ _ => True) w := by
  unfold converged
  split
  · exact within_pure trivial
  · exact (liveState_spec ha).post fun _ _ _ _ => trivial

end Specs

/-! ## What the record says about the account -/

/-- The commands behind a fence in a live phase: since the pending fence of its version every
command of the operation was successful. -/
inductive Backed : Fence → List (Written Fence Ran) → Prop
  | opened {f : Fence} {ran : List Ran} {older : List (Written Fence Ran)} {secret : String}
      (hp : f.phase = .open)
      (hran : ran.map (fun r => (r.command, r.ok)) = succeeded (openCommands secret f)) :
      Backed f (⟨f, ran⟩ :: ⟨{ f with phase := .opening }, []⟩ :: older)
  | loggedIn {f : Fence} {ran : List Ran} {older : List (Written Fence Ran)} {secret : String}
      {nonce : List UInt8} (hp : f.phase = .sealed)
      (hran : ran.map (fun r => (r.command, r.ok)) = succeeded (loginCommands secret nonce f)) :
      Backed f (⟨f, ran⟩ :: ⟨{ f with phase := .opening }, []⟩ :: older)
  | sealed {f : Fence} {ran : List Ran} {older : List (Written Fence Ran)} {nonce : List UInt8}
      (hp : f.phase = .sealed)
      (hran : ran.map (fun r => (r.command, r.ok)) = succeeded (sealCommands nonce))
      (hopen : Backed { f with phase := .open } older) :
      Backed f (⟨f, ran⟩ :: ⟨{ f with phase := .sealing }, []⟩ :: older)

def discipline : Discipline Fence Ran where
  Live := Fence.Live
  Backed := Backed

variable {stored : Option Fence} {p : Plan}

section Plans

theorem login_eq_false (hlogin : login = true → r.operation = .open) (h : r.operation ≠ .open) :
    login = false :=
  Bool.eq_false_iff.mpr fun hl => h (hlogin hl)

theorem ne_revoke_of_live (hp : Planned stored r p) (hlogin : login = true → r.operation = .open)
    (hl : discipline.Live (sealLogin login p).completed) : r.operation ≠ .revoke := by
  cases hp with
  | opens ho | seals ho | observes ho => simp [ho]
  | revokes ho =>
    obtain rfl := login_eq_false hlogin (by simp [ho])
    rcases hl with h | h <;> cases h

/-- The completed fence of a plan is backed once its commands were successful. -/
theorem backed_of_prescribed {older : List (Written Fence Ran)} {ran : List Ran}
    {cmds : List Command} (hp : Planned stored r p)
    (hnew : p.observeOnly = false) (hop : r.operation ≠ .revoke)
    (hlogin : login = true → r.operation = .open)
    (hold : ∀ f, stored = some f → discipline.Live f → Backed f older)
    (hcmds : Prescribed login (sealLogin login p).completed r.operation cmds)
    (hran : ran.map (fun r => (r.command, r.ok)) = succeeded cmds) :
    Backed (sealLogin login p).completed
      (⟨(sealLogin login p).completed, ran⟩ :: ⟨p.pending, []⟩ :: older) := by
  cases hp with
  | opens ho =>
    rw [ho] at hcmds
    obtain ⟨secret, hcmds⟩ := hcmds
    cases login with
    | false =>
      exact .opened rfl (hran.trans (congrArg succeeded hcmds))
    | true =>
      obtain ⟨nonce, hcmds⟩ := hcmds
      exact .loggedIn (f := { r.fence .open with phase := .sealed }) rfl
        (hran.trans (congrArg succeeded hcmds))
  | seals ho hs =>
    rw [ho] at hcmds
    obtain ⟨nonce, hcmds⟩ := hcmds
    obtain rfl := login_eq_false hlogin (by simp [ho])
    exact .sealed (f := r.fence .sealed) rfl (hran.trans (congrArg succeeded hcmds))
      (hold _ hs (.inl rfl))
  | observes => cases hnew
  | revokes ho => exact absurd ho hop

theorem revokes_of_eq (hp : Planned stored r p) (hlogin : login = true → r.operation = .open)
    (h : p.pending = revocation r ∨ (sealLogin login p).completed = revocation r) :
    p.pending = revocation r ∧ (sealLogin login p).completed = revocation r := by
  cases hp with
  | opens | seals | observes =>
    cases login <;> rcases h with h | h <;> cases congrArg Fence.phase h
  | revokes ho hr =>
    obtain rfl := login_eq_false hlogin (by simp [ho])
    exact ⟨hr, hr⟩

end Plans

/-! ## Calls -/

section Calls

variable {older : List (Written Fence Ran)}

theorem relock_spec {held : Bool} : (host Fence username).Within (Reads username) (relock held)
    (fun _ _ => True) w := by
  cases held with
  | true => exact within_pure trivial
  | false => exact (ask_spec .birthLock trivial).post fun _ _ _ _ => trivial

theorem closeFailed_spec (ha : a.username = username) (hp : Planned stored r p) (w : World Fence) :
    (host Fence username).Within
      (Keeping ((platform username Fence.validate).Safe discipline (revocation r)))
      (closeFailed a p.pending) (fun _ _ => True) w := by
  have hkeep : ∀ w w', Reads username w w' →
      Keeping ((platform username Fence.validate).Safe discipline (revocation r)) w w' :=
    fun _ _ hr hs => hs.keeps ⟨hr.fence, hr.history, hr.persisted⟩
  refine ((ask_spec .birthHeld trivial).widen (hkeep w)).bind fun held w₁ _ _ => ?_
  refine (relock_spec.widen (hkeep w₁)).attempt.bind fun _ w₂ _ _ => ?_
  refine ((ask_spec .birthHeld trivial).widen (hkeep w₂)).bind fun held w₃ _ _ => ?_
  cases held with
  | false => exact within_pure trivial
  | true => exact revoked_pending hp ▸ closeAccount_spec ha (not_live_revoked _) w₃

section CleanUp

variable {w' : World Fence} {pending : Fence} {cs : List Choice}

/-- Whether the gate is held is read without failing. -/
theorem ends_birthHeld_bind {Φ : Choice → Prop} {f : Bool → Linux Fence Unit}
    {Q : World Fence → Prop} (hf : ∀ w', Reads username w w' → w'.birth = w.birth →
      ((host Fence username).only Φ).Ends (f w'.birth) w' Q) :
    ((host Fence username).only Φ).Ends (ask .birthHeld >>= f) w Q := by
  refine ensures_bind
    (Ensures.only (Host.ensures_perform (fun h => absurd rfl h) nofun fun c => ?_))
  exact hf (w.drift username c) reads_drift rfl

theorem relock_holds : ((host Fence username).only fun c => c.error = none).Ends (relock w.birth) w
    fun w' => w'.birth = true := by
  cases hw : w.birth with
  | true => exact ensures_done.mpr fun _ => hw
  | false =>
    exact Host.ensures_perform_only (fun _ hc => hc) (fun h => absurd rfl h) fun _ _ _ => rfl

/-- A clean-up that ends with the gate of new logins held has tried to store the revoked fence. -/
theorem closeFailed_tries (hv : pending.revoked.validate = .ok ()) (w : World Fence) :
    ((host Fence a.username).only fun _ => True).Ends (closeFailed a pending) w fun w' =>
      w'.birth = true →
        (platform a.username Fence.validate).Tried pending.revoked w w' := by
  refine ends_birthHeld_bind fun w₁ h₁ _ => ?_
  have hrelock : ((host Fence a.username).only fun _ => True).Ends (relock w₁.birth) w₁
      fun w₂ => w₂.persisted = w.persisted := fun cs _ =>
    (Ensures.only relock_spec cs).1.persisted.trans h₁.persisted
  refine hrelock.attempt_bind fun _ w₂ h₂ => ends_birthHeld_bind fun w₃ h₃ _ => ?_
  cases hheld : w₃.birth with
  | false => exact ensures_done.mpr fun _ hbirth => by simp [hheld] at hbirth
  | true =>
    intro cs hend _
    have htried := Ensures.only (closeAccount_tries hv w₃) cs hend
    simpa [Platform.Tried, platform, World.ledger, h₃.persisted, h₂] using htried

/-- A clean-up without failures stores the revoked fence, since it takes the gate again. -/
theorem closeFailed_stores (hv : pending.revoked.validate = .ok ()) (w : World Fence) :
    ((host Fence a.username).only fun c => c.error = none).Ends (closeFailed a pending) w
      fun w' => w'.fence = some pending.revoked := by
  refine ends_birthHeld_bind fun w₁ _ _ => ?_
  refine relock_holds.attempt_bind fun _ w₂ h₂ => ends_birthHeld_bind fun w₃ _ hbirth => ?_
  rw [hbirth, h₂]
  exact closeAccount_stores hv w₃

/-- A request that fails with a fence stored ends with its clean-up, under its last choices. -/
theorem closeFailed_of_error {e : IoError} {g : Fence} (hnone : w.persisted = [])
    (hrun : (host Fence username).run (apply username r login) w cs = (w', some (.error e)))
    (hstored : (g, true) ∈ w'.persisted) :
    ∃ a pending w₁ cs₁ x, a.username = username ∧ pending.revoked = revocation r ∧
      (revocation r).validate = .ok () ∧ cs₁ <:+ cs ∧
      (host Fence username).run (closeFailed a pending) w₁ cs₁ = (w', some x) := by
  obtain ⟨_, -, hfail⟩ | ⟨⟨a, next⟩, w₀, cs₀, hcs₀, haccept, hcarry⟩ := run_bind hrun
  · simp [(Ensures.of_run accept_spec hfail).1.persisted, hnone] at hstored
  obtain ⟨hreads, hadmits⟩ := Ensures.of_run accept_spec haccept
  obtain ⟨ha, -, now, p, hplan, rfl⟩ := hadmits _ rfl
  obtain ⟨w₁, cs₁, x, hcs₁, hclose⟩ := Platform.carry_error (M := platform username Fence.validate)
    (hreads.persisted.trans hnone) hcarry hstored
  exact ⟨a, p.pending, w₁, cs₁, x, ha, revoked_pending (planned_of_plan hplan),
    validate_revocation (plan_eq_ok_iff.mp hplan).1, hcs₁.trans hcs₀, hclose⟩

end CleanUp

theorem duty (ha : a.username = username) (hp : Planned stored r p)
    (hnew : p.observeOnly = false) (hlogin : login = true → r.operation = .open)
    (hold : ∀ f, stored = some f → discipline.Live f → Backed f older) :
    (platform username Fence.validate).Duty discipline older p.pending
      (sealLogin login p).completed (revocation r)
      (mutate a r login (sealLogin login p).completed)
      (converged a r (sealLogin login p).completed) (closeFailed a p.pending)
      (Reads username) (Mutates username r login (sealLogin login p).completed)
      (fun _ => True) where
  dormant := not_live_pending hp
  reserved := revokes_of_eq hp hlogin
  mutates _ := mutate_spec ha
  converges _ := converged_spec ha
  closes := closeFailed_spec ha hp
  reads _ _ hr := ⟨hr.toFrame, hr.ran⟩
  backed w w' _ hran hmut _ hl := by
    have hop := ne_revoke_of_live hp hlogin hl
    obtain ⟨cmds, hcmds, hout⟩ := hmut.1 hop
    refine backed_of_prescribed hp hnew hop hlogin hold hcmds ?_
    change w.ran = [] at hran
    change w'.outcomes = _
    simpa [World.outcomes, hran] using hout

/-- The login is disabled, and the last checks found neither a process nor a login writer. -/
structure Quiet (username : String) (w : World Fence) : Prop where
  closed : w.Closed username
  processesAbsent : w.processesAbsent = some true
  writersAbsent : w.writersAbsent = some true

structure Answered (username : String) (r : Request) (w : World Fence)
    (o : Option (Except IoError Fence)) : Prop where
  consistent : Consistent discipline username w
  final : (revocation r, true) ∈ w.persisted → w.fence = some (revocation r)
  quiet : ∀ f, o = some (.ok f) → r.operation = .revoke → Quiet username w

theorem apply_ensures (r : Request) (login : Bool) (hc : Consistent discipline username w)
    (hran : w.ran = []) (hnone : w.persisted = []) :
    (host Fence username).Ensures (apply username r login) w (Answered username r) := by
  have hstop : ∀ w', Reads username w w' → (revocation r, true) ∈ w'.persisted →
      w'.fence = some (revocation r) := fun w' hr hm => by simp [hr.persisted, hnone] at hm
  refine accept_spec.ensures_bind (fun w' hr => ⟨⟨hc.reads hr, hstop w' hr, by simp⟩,
    fun _ => ⟨hc.reads hr, hstop w' hr, by simp⟩⟩) fun x w' hr hadm => ?_
  obtain ⟨a, next⟩ := x
  obtain ⟨ha, hlogin, now, p, hplan, rfl⟩ := hadm
  have hp := planned_of_plan hplan
  have hc' := hc.reads hr
  have hcarry := Platform.carry_ensures (M := platform username Fence.validate) hc'.backed
    (hr.ran.trans hran) (hr.persisted.trans hnone)
    fun hnew => duty ha hp hnew hlogin fun f hf => hc'.backed f (hr.fence.trans hf)
  refine Handler.Ensures.mono hcarry fun w'' o h => ⟨hc'.leaves h, h.final, fun f hf ho => ?_⟩
  rcases h.done f hf with hobs | ⟨w₁, w₂, w₃, -, hmut, hread, -, hwrite⟩
  · cases hp <;> simp_all [sealLogin]
  · have hend := hmut.2 ho
    have hsame := hread.toSame.trans (Persists.toSame hwrite)
    exact ⟨hend.closed.mono hsame.present hsame.shadow,
      hsame.processesAbsent.trans hend.processesAbsent,
      hsame.writersAbsent.trans hend.writersAbsent⟩

theorem reconcile_spec (hc : Consistent discipline username w) :
    (host Fence username).Within (Keeping (Consistent discipline username)) (reconcile username)
      (fun _ => Covered username fun f => Window f.expiresUnixSeconds f.loginLive) w := by
  refine (kept bound_spec).bind fun a w₁ hk h₁ => ?_
  exact reconcileLocked_spec h₁.2 (hk hc) (fun _ _ => liveState_spec h₁.2) not_live_revoked

theorem reconcileExpired_spec (hc : Consistent discipline username w) :
    (host Fence username).Within (Keeping (Consistent discipline username))
      (reconcileExpired username)
      (fun _ => Covered username fun f => Window f.expiresUnixSeconds f.loginLive) w :=
  sweep_spec hc reconcile_spec

end Calls

/-! ## Runs -/

inductive Call
  | apply (r : Request) (login : Bool)
  | reconcile
  | reconcileExpired

/-- The world after a call, which has crashed if it ran out of choices. -/
def Call.exec (username : String) (w : World Fence) (cs : List Choice) : Call → World Fence
  | .apply r login => ((host Fence username).run (LinuxLease.apply username r login) w.begin cs).1
  | .reconcile => ((host Fence username).run (LinuxLease.reconcile username) w.begin cs).1
  | .reconcileExpired =>
    ((host Fence username).run (LinuxLease.reconcileExpired username) w.begin cs).1

/-- Calls on one account, one after another under its gate, from its provisioning on. -/
def adapter (username : String) : Machine (World Fence) (Call × List Choice) where
  Init w := w.fence = none ∧ w.history = [] ∧ w.shadow = .provisioned
  step w e := some (e.1.exec username w e.2)

theorem consistent_of_reachable {username : String} {w : World Fence}
    (h : (adapter username).Reachable w) : Consistent discipline username w := by
  refine h.invariant (P := Consistent discipline username) ?_ ?_
  · rintro w ⟨hn, -, hs⟩
    exact ⟨fun f hf => by simp [hn] at hf, fun _ => .inr (by rw [hs]; rfl)⟩
  · rintro w ⟨call, cs⟩ w' - hc hstep
    cases hstep
    cases call with
    | apply r login => exact (apply_ensures r login hc.begin rfl rfl cs).consistent
    | reconcile => exact (reconcile_spec hc.begin cs).1 hc.begin
    | reconcileExpired => exact (reconcileExpired_spec hc.begin cs).1 hc.begin

/-- Whatever calls came before, completed or crashed at any effect: live fences rest on successful
commands; a request that fails behind its pending fence ends with its clean-up, which tries to store
the revoked fence if it gets the gate of new logins and has stored it if nothing in it fails; and a
revocation and a reconciliation leave the login disabled unless a live fence covers it. -/
theorem agent_account_crash_consistency {username : String} {w : World Fence}
    (h : (adapter username).Reachable w) :
    (∀ f, w.fence = some f → f.phase = .open ∨ f.phase = .sealed → Backed f w.history) ∧
      (∀ r login cs w' o, (host Fence username).run (apply username r login) w.begin cs = (w', o) →
          (∀ f, o = some (.ok f) → r.operation = .revoke → w'.loginDisabled username = true ∧
            w'.processesAbsent = some true ∧ w'.writersAbsent = some true) ∧
          (∀ e g, o = some (.error e) → (g, true) ∈ w'.persisted →
            ∃ a pending w₁ cs₁ x, cs₁ <:+ cs ∧
              (host Fence username).run (closeFailed a pending) w₁ cs₁ = (w', some x) ∧
              (w'.birth = true → ∃ ok, w'.persisted = w₁.persisted ++ [(revocation r, ok)]) ∧
              ((∀ c ∈ cs₁, c.error = none) ∨ (revocation r, true) ∈ w'.persisted →
                ∃ f, w'.fence = some f ∧ f.phase = .revoked ∧ f.controlEpoch = r.controlEpoch ∧
                  f.loginGeneration = r.loginGeneration))) ∧
      (∀ cs w', (host Fence username).run (reconcile username) w.begin cs = (w', some (.ok ())) ∨
          (host Fence username).run (reconcileExpired username) w.begin cs = (w', some (.ok ())) →
        w'.loginDisabled username = true ∨ ∃ f, w'.fence = some f ∧ f.loginLive w'.clock = true ∧
          w'.shadow.disabled w'.clock = false ∧
          w'.shadow.expiryDay = some (shadowDay f.expiresUnixSeconds)) := by
  have hc := consistent_of_reachable h
  refine ⟨hc.backed, fun r login cs w' o hrun => ?_, fun cs w' hrun => ?_⟩
  · have hans := (apply_ensures r login hc.begin rfl rfl).of_run hrun
    refine ⟨fun f hf ho => ?_, fun e g he hg => ?_⟩
    · have hq := hans.quiet f hf ho
      exact ⟨hq.closed.loginDisabled, hq.processesAbsent, hq.writersAbsent⟩
    · subst he
      obtain ⟨a, pending, w₁, cs₁, x, rfl, hrev, hv, hcs, hclose⟩ :=
        closeFailed_of_error rfl hrun hg
      rw [← hrev] at hv
      refine ⟨a, pending, w₁, cs₁, x, hcs, hclose, fun hbirth => ?_, fun hdone => ?_⟩
      · obtain ⟨ok, htried, -⟩ :=
          (closeFailed_tries hv w₁).of_only (fun _ _ => trivial) hclose hbirth
        exact ⟨ok, hrev ▸ htried⟩
      · have hfence : w'.fence = some (revocation r) := by
          rcases hdone with hquiet | hm
          · exact hrev ▸ (closeFailed_stores hv w₁).of_only hquiet hclose
          · exact hans.final hm
        exact ⟨_, hfence, rfl, rfl, rfl⟩
  · have hcovered : Covered username (fun f => Window f.expiresUnixSeconds f.loginLive) w' := by
      rcases hrun with hrun | hrun
      · exact (Ensures.of_run (reconcile_spec hc.begin) hrun).2 () rfl
      · exact (Ensures.of_run (reconcileExpired_spec hc.begin) hrun).2 () rfl
    rcases hcovered with hclosed | ⟨f, hf, hm⟩
    · exact .inl hclosed.loginDisabled
    · exact .inr ⟨f, hf, hm.live, hm.enabled, hm.day⟩

/-- An opening can succeed; its fence is then backed by its six commands. -/
theorem agent_account_crash_consistency_opened :
    ∃ w f, (adapter "vca123456abcdef").Reachable w ∧ w.fence = some f ∧ f.phase = .open ∧
      Backed f w.history := by
  obtain ⟨w, hw, hf⟩ := Machine.exists_reachable_of_run (M := adapter "vca123456abcdef")
    (P := fun w => w.fence = some ((sampleRequest .open 1 1).fence .open))
    (sampleWorld Fence "vca123456abcdef")
    [(.apply (sampleRequest .open 1 1) false,
      List.replicate 60 (sampleChoice "vca123456abcdef" [] none))]
    ⟨rfl, rfl, rfl⟩ (by decide +kernel)
  exact ⟨w, _, hw, hf, rfl, (agent_account_crash_consistency hw).1 _ hf (.inl rfl)⟩

/-! ## The day of a deadline -/

section Deadlines

/-- `u64::div_ceil`. -/
def divCeil (a b : UInt64) : UInt64 := if 0 < a % b then a / b + 1 else a / b

/-- The day of a deadline in the words of the Guest, and in those of the controller. -/
def guestDay (expires : UInt64) : UInt64 := divCeil expires 86400

def controllerDay (expires : Int64) : UInt64 := ((expires + 86399) / 86400).toUInt64

theorem toNat_guestDay (e : UInt64) : (guestDay e).toNat = shadowDay e.toNat := by
  have hlt := e.toNat_lt
  unfold guestDay divCeil shadowDay
  split
  next h =>
    rw [UInt64.lt_iff_toNat_lt, UInt64.toNat_mod] at h
    simp only [UInt64.toNat_add, UInt64.toNat_div, UInt64.reduceToNat] at h ⊢
    omega
  next h =>
    rw [UInt64.lt_iff_toNat_lt, UInt64.toNat_mod] at h
    simp only [UInt64.toNat_div, UInt64.reduceToNat] at h ⊢
    omega

theorem toNat_controllerDay {e : UInt64} (h : e < 2 ^ 32) :
    (controllerDay e.toInt64).toNat = shadowDay e.toNat := by
  have hlt : e.toNat < 2 ^ 32 := UInt64.lt_iff_toNat_lt.mp h
  have hword : e.toInt64.toInt = e.toNat := by
    rw [Int64.toInt, UInt64.toBitVec_toInt64, BitVec.toInt_eq_toNat_of_lt]
    · rfl
    · change 2 * e.toNat < 2 ^ 64
      omega
  have hsum : (e.toInt64 + 86399).toInt = e.toNat + 86399 := by
    have hterm : Int64.toInt 86399 = 86399 := by decide
    rw [Int64.toInt_add, hword, hterm, Int.bmod_eq_of_le]
    · omega
    · omega
  have hday : ((e.toInt64 + 86399) / 86400).toInt = (shadowDay e.toNat : ℤ) := by
    have hterm : Int64.toInt 86400 = 86400 := by decide
    rw [Int64.toInt_div, hsum, hterm, Int.tdiv_eq_ediv_of_nonneg (by omega), shadowDay,
      Int.bmod_eq_of_le]
    · omega
    · omega
    · omega
  rw [controllerDay, Int64.toNat_toUInt64_of_le, Int64.toNatClampNeg, hday]
  · omega
  · rw [Int64.le_iff_toInt_le, hday]
    exact Int.natCast_nonneg _

/-- The day that is written never ends the login of a live fence, ends it less than a day after the
fence is over, and is the one that the controller expects. -/
theorem shadow_expiry_day : (∀ now expires, now < expires → now / 86400 < shadowDay expires) ∧
    (∀ (f : Fence) (entry : Shadow) now, f.loginLive now = true →
      entry.expiryDay = some (shadowDay f.expiresUnixSeconds) →
        entry.disabled now = entry.closed) ∧
    (∀ (entry : Shadow) expires, entry.closed = false →
      entry.expiryDay = some (shadowDay expires) →
        ∃ moment, expires ≤ moment ∧ moment < expires + 86400 ∧
          ∀ now, entry.disabled now = true ↔ moment ≤ now) ∧
    (∀ e : UInt64, (guestDay e).toNat = shadowDay e.toNat) ∧
    ∀ e : UInt64, e < 2 ^ 32 → controllerDay e.toInt64 = guestDay e := by
  have hlater (now expires : ℕ) (h : now < expires) : now / 86400 < shadowDay expires := by
    unfold shadowDay
    omega
  refine ⟨hlater, fun f entry now hlive hday => ?_, fun entry expires hopen hday => ?_,
    toNat_guestDay, fun e he => ?_⟩
  · simp only [Fence.loginLive, Bool.and_eq_true, decide_eq_true_eq] at hlive
    have hnot := Nat.not_le.mpr (hlater _ _ hlive.2)
    simp [Shadow.disabled, hday, hnot]
  · refine ⟨shadowDay expires * 86400, ?_, ?_, fun now => ?_⟩
    · unfold shadowDay
      omega
    · unfold shadowDay
      omega
    · simp [Shadow.disabled, hopen, hday, Nat.le_div_iff_mul_le]
  · rw [← UInt64.toNat_inj, toNat_controllerDay he, toNat_guestDay]

end Deadlines

end VcWorkspace.Session.LinuxLease
