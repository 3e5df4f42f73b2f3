import VcWorkspace.Guest.NativeHistory
import VcWorkspace.Session.LinuxJournal

/-! # Native accounts on Linux

Retiring the credential of a user keeps the desktop, so an issue that follows
a retired fence only closes the login before it sets the new credential; every
other issue first ends whatever runs under the account. After a failure the
account is closed in any case, desktop included.
-/

namespace VcWorkspace.Session.LinuxNative

open Transition Guest Guest.Native LinuxAccount List Handler

def parse : Account → Fence → Except IoError Fence := parseRecord Fence.validate Fence.identity

def liveState (a : Account) (f : Fence) : Linux Fence Unit :=
  windowState "Native account window did not converge" a f.expiresUnixSeconds f.retained

/-- The gate of a native account, which must not have an agent lifecycle. -/
def bound (username : String) : Linux Fence Account := do
  let a ← LinuxAccount.bound username "vcw" "Native account required"
    "pre-bound Native account required"
  ask .rejectLegacy
  pure a

section Apply

variable (a : Account) (r : Request)

def requireConfigured (enforceBirth : Bool) : Linux Fence Unit :=
  if enforceBirth && r.operation != .revoke then do
    let installed ← ask .configured
    check "Native PAM login protection must be installed before credentials" installed
  else pure ()

def admissible (previous : Option Fence) (preserve : Bool) : Linux Fence Unit :=
  if preserve then
    match previous with
    | none => .lift (.error (deny "missing retained desktop window"))
    | some old => liveState a old
  else pure ()

/-- The checks of a request, up to the plan that it is accepted with. -/
def accept (username : String) (enforceBirth : Bool) : Linux Fence (Account × Plan) := do
  let a ← bound username
  ask .birthLock
  check "Native identity mismatch" (r.identity == identity a)
  requireConfigured r enforceBirth
  let previous ← readFence (parse a)
  let now ← ask .now
  let next ← .lift (plan previous r now)
  admissible a previous next.preserveDesktop
  pure (a, next)

def close (preserve : Bool) : Linux Fence Unit := if preserve then disableLogin a else disable a

def issue (preserve : Bool) (completed : Fence) : Linux Fence Unit := do
  close a preserve
  match r.password with
  | none => .lift (.error (deny "missing credential"))
  | some password => do
    setPassword a password.expose
    run (.unlock (shadowDay completed.expiresUnixSeconds))

def mutate (preserve : Bool) (completed : Fence) : Linux Fence Unit :=
  match r.operation with
  | .issue => issue a r preserve completed
  | .retire => retire a
  | .revoke => disable a

def converged (completed : Fence) : Linux Fence Unit :=
  if r.operation = .revoke then pure () else liveState a completed

end Apply

def apply (username : String) (r : Request) (enforceBirth : Bool) : Linux Fence Fence := do
  let (a, next) ← accept r username enforceBirth
  carry (persist Fence.validate) next.observeOnly next.pending next.completed
    (mutate a r next.preserveDesktop next.completed) (converged a r next.completed)
    (closeAccount Fence.validate a next.pending.revoked)

def reconcileBound (username : String) : Linux Fence Unit := do
  let a ← bound username
  ask .birthLock
  let stored ← (readFence (parse a)).attempt
  reconcileFence Fence.validate a (liveState a) Fence.revoked
    (.lift (.error (deny "Native fence disappeared"))) stored

def reconcile (username : String) : Linux Fence Unit := do
  let found ← ask .snapshot
  if found then reconcileBound username else pure ()

/-! ## What the programs do -/

variable {username : String} {w : World Fence} {a : Account} {r : Request}

section Specs

variable {preserve : Bool} {f completed : Fence}

theorem liveState_spec (ha : a.username = username) :
    (host Fence username).Within (Reads username) (liveState a f)
      (fun _ w' => Window f.expiresUnixSeconds f.retained w') w := by
  refine windowState_spec ha fun now h => ?_
  simp only [Fence.retained, Bool.and_eq_true, decide_eq_true_eq] at h
  exact h.2

theorem bound_spec : (host Fence username).Within (Reads username) (bound username)
    (fun a _ => a.username = username) w := by
  refine LinuxAccount.bound_spec.bind fun a w₁ _ ha => ?_
  refine (ask_spec .rejectLegacy trivial).bind fun _ w₂ _ _ => ?_
  exact within_pure ha

theorem requireConfigured_spec {enforceBirth : Bool} : (host Fence username).Within (Reads username)
    (requireConfigured r enforceBirth) (fun _ _ => True) w := by
  unfold requireConfigured
  split
  · exact (ask_spec .configured trivial).bind fun _ w₁ _ _ => within_check fun _ => trivial
  · exact within_pure trivial

theorem admissible_spec (ha : a.username = username) {previous : Option Fence} :
    (host Fence username).Within (Reads username) (admissible a previous preserve) (fun _ _ => True)
      w := by
  unfold admissible
  split
  · split
    · exact within_lift fun _ _ => trivial
    · exact (liveState_spec ha).post fun _ _ _ _ => trivial
  · exact within_pure trivial

/-- An accepted plan answers the request against the stored fence. -/
structure Admits (username : String) (r : Request) (stored : Option Fence) (a : Account)
    (next : Plan) : Prop where
  username : a.username = username
  plan : ∃ now, plan stored r now = .ok next

theorem accept_spec {enforceBirth : Bool} :
    (host Fence username).Within (Reads username) (accept r username enforceBirth)
      (fun x _ => Admits username r w.fence x.1 x.2) w := by
  refine bound_spec.bind fun a w₁ h₁ ha => ?_
  refine (ask_spec .birthLock trivial).bind fun _ w₂ h₂ _ => ?_
  refine within_check_bind fun _ => requireConfigured_spec.bind fun _ w₃ h₃ _ => ?_
  refine readFence_spec.bind fun stored w₄ _ hstored => ?_
  refine (ask_spec .now trivial).bind fun now w₅ _ _ => within_lift_bind fun p hp => ?_
  refine (admissible_spec ha).bind fun _ w₆ _ _ => within_pure ⟨ha, now, ?_⟩
  rw [← hp, hstored, h₃.fence, h₂.fence, h₁.fence]

/-- The commands of an issue, with or without a desktop to keep, and of a retirement. -/
def issueCommands (preserve : Bool) (secret : String) (f : Fence) : List Command :=
  (if preserve then [.lock] else [.lock, .drain, .kill, .cleanup]) ++
    [.password secret, .unlock (shadowDay f.expiresUnixSeconds)]

def retireCommands (nonce : List UInt8) : List Command := [.password (retiredSecret nonce)]

theorem close_spec (ha : a.username = username) :
    (host Fence username).Within (Frame username) (close a preserve)
      (fun _ w' => w'.Closed username ∧ (preserve = false → w'.processesAbsent = some true) ∧
        (w'.present username = true → w'.outcomes = w.outcomes ++
          succeeded (if preserve then [.lock] else [.lock, .drain, .kill, .cleanup]))) w := by
  cases preserve with
  | true => exact (disableLogin_spec ha).post fun _ _ _ h => ⟨h.1, by simp, h.2⟩
  | false =>
    exact (disable_spec ha).post fun _ _ _ h => ⟨h.closed, fun _ => h.processesAbsent, h.outcomes⟩

/-- The commands of a request, between the worlds before and after them. -/
def Mutates (username : String) (r : Request) (preserve : Bool) (completed : Fence)
    (w w' : World Fence) : Prop :=
  match r.operation with
  | .issue => ∃ secret,
    w'.outcomes = w.outcomes ++ succeeded (issueCommands preserve secret completed)
  | .retire => ∃ nonce, w'.outcomes = w.outcomes ++ succeeded (retireCommands nonce)
  | .revoke => Ended username w w'

theorem issue_spec (ha : a.username = username) :
    (host Fence username).Within (Frame username) (issue a r preserve completed)
      (fun _ w' => ∃ secret, w'.outcomes =
        w.outcomes ++ succeeded (issueCommands preserve secret completed)) w := by
  refine (close_spec ha).bind fun _ w₁ _ h₁ => ?_
  split
  · exact within_lift (by simp)
  case h_2 password _ =>
  refine (setPassword_spec ha _).bind fun _ w₂ _ h₂ => ?_
  refine (run_spec _).post fun _ w₃ _ h₃ => ⟨password.expose, ?_⟩
  rw [h₃.outcomes, h₂.2, h₁.2.2 h₂.1]
  simp [succeeded, issueCommands]

theorem mutate_spec (ha : a.username = username) :
    (host Fence username).Within (Frame username) (mutate a r preserve completed)
      (fun _ w' => Mutates username r preserve completed w w') w := by
  unfold mutate Mutates
  split
  · exact issue_spec ha
  · exact retire_spec ha
  · exact disable_spec ha

theorem converged_spec (ha : a.username = username) :
    (host Fence username).Within (Reads username) (converged a r completed)
      (fun _ _ => True) w := by
  unfold converged
  split
  · exact within_pure trivial
  · exact (liveState_spec ha).post fun _ _ _ _ => trivial

end Specs

/-! ## What the record says about the account -/

/-- The commands behind an issued or retired fence: since the pending fence of its revision every
command of the operation was successful. -/
inductive Backed : Fence → List (Written Fence Ran) → Prop
  | issued {f : Fence} {ran : List Ran} {older : List (Written Fence Ran)} {secret : String}
      (hp : f.phase = .issued)
      (hran : ran.map (fun r => (r.command, r.ok)) = succeeded (issueCommands false secret f)) :
      Backed f (⟨f, ran⟩ :: ⟨{ f with phase := .issuing }, []⟩ :: older)
  | reissued {f g : Fence} {ran : List Ran} {older : List (Written Fence Ran)} {secret : String}
      (hp : f.phase = .issued)
      (hran : ran.map (fun r => (r.command, r.ok)) = succeeded (issueCommands true secret f))
      (hg : g.phase = .retired) (hrev : f.revision = g.revision + 1) (hold : Backed g older) :
      Backed f (⟨f, ran⟩ :: ⟨{ f with phase := .issuing }, []⟩ :: older)
  | retired {f g : Fence} {ran : List Ran} {older : List (Written Fence Ran)} {nonce : List UInt8}
      (hp : f.phase = .retired)
      (hran : ran.map (fun r => (r.command, r.ok)) = succeeded (retireCommands nonce))
      (hg : g.phase = .issued) (hrev : f.revision = g.revision + 1) (hold : Backed g older) :
      Backed f (⟨f, ran⟩ :: ⟨{ f with phase := .retiring }, []⟩ :: older)

def discipline : Discipline Fence Ran where
  Live := Fence.Live
  Backed := Backed

variable {stored : Option Fence} {p : Plan}

section Plans

/-- The completed fence of a plan is backed once its commands were successful. -/
theorem backed_of_mutates {username : String} {older : List (Written Fence Ran)}
    {w w' : World Fence}
    (hp : Planned stored r p) (hnew : p.observeOnly = false)
    (hold : ∀ f, stored = some f → discipline.Live f → Backed f older) (hran : w.ran = [])
    (h : Mutates username r p.preserveDesktop p.completed w w') (hl : discipline.Live p.completed) :
    Backed p.completed (⟨p.completed, w'.ran⟩ :: ⟨p.pending, []⟩ :: older) := by
  have hout : ∀ cmds, w'.outcomes = w.outcomes ++ succeeded cmds →
      w'.ran.map (fun r => (r.command, r.ok)) = succeeded cmds := fun cmds h => by
    simpa [World.outcomes, hran] using h
  unfold Mutates at h
  cases hp with
  | issues ho =>
    simp only [ho] at h
    obtain ⟨secret, h⟩ := h
    exact .issued (f := r.fence .issued) rfl (hout _ h)
  | reissues ho hs hold' hr =>
    simp only [ho] at h
    obtain ⟨secret, h⟩ := h
    exact .reissued (f := r.fence .issued) rfl (hout _ h) hold' hr (hold _ hs (.inr hold'))
  | retires ho hs hold' hr _ =>
    simp only [ho] at h
    obtain ⟨nonce, h⟩ := h
    exact .retired (f := r.fence .retired) rfl (hout _ h) hold' hr (hold _ hs (.inl hold'))
  | observes => cases hnew
  | revokes => rcases hl with h | h <;> cases h

end Plans

/-! ## Calls -/

section Calls

variable {w' : World Fence} {older : List (Written Fence Ran)}

theorem duty (ha : a.username = username) (hp : Planned stored r p) (hnew : p.observeOnly = false)
    (hold : ∀ f, stored = some f → discipline.Live f → Backed f older) :
    (platform username Fence.validate).Duty discipline older p.pending p.completed (revocation r)
      (mutate a r p.preserveDesktop p.completed) (converged a r p.completed)
      (closeAccount Fence.validate a p.pending.revoked) (Reads username)
      (Mutates username r p.preserveDesktop p.completed) (fun _ => True) where
  dormant := not_live_pending hp
  reserved := revokes_of_eq hp
  mutates _ := mutate_spec ha
  converges _ := converged_spec ha
  closes := revoked_pending hp ▸ closeAccount_spec ha (not_live_revoked _)
  reads _ _ hr := ⟨hr.toFrame, hr.ran⟩
  backed _ _ _ hran h _ hl := backed_of_mutates hp hnew hold hran h hl

structure Answered (username : String) (r : Request) (stored : Option Fence) (w : World Fence)
    (o : Option (Except IoError Fence)) : Prop where
  consistent : Consistent discipline username w
  done : ∀ f, o = some (.ok f) → r.operation = .retire ∨ ∃ p w₁ w₂, Planned stored r p ∧
    w₁.ran = [] ∧ Mutates username r p.preserveDesktop p.completed w₁ w₂ ∧ Same username w₂ w

theorem apply_ensures (r : Request) (enforceBirth : Bool) (hc : Consistent discipline username w)
    (hran : w.ran = []) (hnone : w.persisted = []) :
    (host Fence username).Ensures (apply username r enforceBirth) w
      (Answered username r w.fence) := by
  refine accept_spec.ensures_bind (fun w' hr => ⟨⟨hc.reads hr, by simp⟩,
    fun _ => ⟨hc.reads hr, by simp⟩⟩) fun x w' hr hadm => ?_
  obtain ⟨a, p⟩ := x
  obtain ⟨ha, now, hplan⟩ := hadm
  have hp := planned_of_plan hplan
  have hc' := hc.reads hr
  have hcarry := Platform.carry_ensures (M := platform username Fence.validate) hc'.backed
    (hr.ran.trans hran) (hr.persisted.trans hnone)
    fun hnew => duty ha hp hnew fun f hf => hc'.backed f (hr.fence.trans hf)
  refine Handler.Ensures.mono hcarry fun w'' o h => ⟨hc'.leaves h, fun f hf => ?_⟩
  rcases h.done f hf with hobs | ⟨w₁, w₂, w₃, hran, hmut, hread, -, hwrite⟩
  · exact .inl (retires_of_observes hp hobs)
  · exact .inr ⟨p, w₁, w₂, hp, hran, hmut, hread.toSame.trans (Persists.toSame hwrite)⟩

/-- Every password was set while the login was disabled and no process had been found. -/
def FreshStart (w : World Fence) : Prop :=
  ∀ x ∈ w.ran, ∀ secret, x.command = .password secret → x.idle = true

theorem freshStart_after {e : Effect Fence} {c : Choice} {applied ok : Bool}
    (he : ∀ secret, e = .run (.password secret) → w.idle username = true) (hw : FreshStart w) :
    FreshStart (w.after username c applied ok e) := by
  cases e with
  | run cmd =>
    intro x hx secret hsecret
    rcases mem_append.mp hx with hx | hx
    · exact hw x hx secret hsecret
    · obtain rfl := mem_singleton.mp hx
      exact he secret (congrArg _ hsecret)
  | _ => exact hw

def NoPassword (e : Effect Fence) : Prop := ∀ secret, e ≠ .run (.password secret)

theorem freshStart_of_asks {α : Type} {q : Linux Fence α} (hq : q.Asks NoPassword)
    (w : World Fence) :
    (host Fence username).Within (Keeping FreshStart) q (fun _ _ => True) w := by
  refine Host.within_of_asks (fun _ _ hw => hw) (fun c applied ok w e he _ => ?_) hq w
  exact freshStart_after fun secret hs => absurd hs (he secret)

theorem noPassword_of_closes (e : Effect Fence) (he : e.Closes) : NoPassword e := by
  rintro secret rfl
  exact he

theorem FreshStart.of_ran (hw : FreshStart w) (h : w'.ran = w.ran) : FreshStart w' := by
  unfold FreshStart
  rwa [h]

theorem setPassword_fresh (ha : a.username = username) {secret : String} (hc : w.Closed username)
    (hproc : w.processesAbsent = some true) :
    (host Fence username).Within (Keeping FreshStart) (setPassword a secret)
      (fun _ _ => True) w := by
  refine ((verifyIdentity_spec ha).widen fun _ hr hw => hw.of_ran hr.ran).bind fun _ w₁ _ h₁ => ?_
  refine within_check_bind fun _ => ?_
  refine Host.within_perform (fun c applied ok _ hw => ?_) fun _ _ _ => trivial
  have hclosed : (w₁.drift username c).Closed username :=
    (hc.mono h₁.1.present h₁.1.shadow).mono reads_drift.present rfl
  have hidle : (w₁.drift username c).idle username = true := by
    rw [World.idle, hclosed.loginDisabled, reads_drift.processesAbsent, h₁.1.processesAbsent, hproc]
    rfl
  exact freshStart_after (fun _ _ => hidle) (hw.of_ran reads_drift.ran)

theorem issue_fresh (ha : a.username = username) {completed : Fence} (w : World Fence) :
    (host Fence username).Within (Keeping FreshStart) (issue a r false completed) (fun _ _ => True)
      w := by
  have hclose : (host Fence username).Within (Keeping FreshStart) (close a false)
      (fun _ w' => w'.Closed username ∧ w'.processesAbsent = some true) w :=
    ((freshStart_of_asks (disable_asks.mono noPassword_of_closes) w).and (disable_spec ha)).mono
      (fun _ h => h.1) fun _ _ _ h => ⟨h.2.closed, h.2.processesAbsent⟩
  refine hclose.bind fun _ w₁ _ h₁ => ?_
  split
  · exact within_lift fun _ _ => trivial
  · refine (setPassword_fresh ha h₁.1 h₁.2).bind fun _ w₂ _ _ => ?_
    exact freshStart_of_asks (Program.asks_perform.mpr fun _ h => by cases h) w₂

theorem closeAccount_fresh {revoked : Fence} (w : World Fence) :
    (host Fence username).Within (Keeping FreshStart) (closeAccount Fence.validate a revoked)
      (fun _ _ => True) w := by
  refine freshStart_of_asks ?_ w
  have hpersist : (persist Fence.validate revoked).Asks NoPassword :=
    Program.Asks.bind trivial fun _ => Program.asks_perform.mpr fun _ => nofun
  exact hpersist.attempt.bind fun _ =>
    (disable_asks.mono noPassword_of_closes).attempt.bind fun _ => trivial

theorem apply_keeps {I : World Fence → Prop} (enforceBirth : Bool) (hw : I w)
    (hreads : ∀ w w', Reads username w w' → I w → I w')
    (hwrites : ∀ f w w', Persists username f w w' → I w → I w')
    (hcarry : ∀ a p now, a.username = username → plan w.fence r now = .ok p → ∀ w,
      (host Fence username).Within (Keeping I) (mutate a r p.preserveDesktop p.completed)
        (fun _ _ => True) w ∧
      (host Fence username).Within (Keeping I) (closeAccount Fence.validate a p.pending.revoked)
        (fun _ _ => True) w) :
    (host Fence username).Ensures (apply username r enforceBirth) w fun w' _ => I w' := by
  refine accept_spec.ensures_bind (fun w' hr => ⟨hreads w w' hr hw, fun _ => hreads w w' hr hw⟩)
    fun x w' hr hadm => ?_
  obtain ⟨a, p⟩ := x
  obtain ⟨ha, now, hplan⟩ := hadm
  have hcarry := hcarry a p now ha hplan
  exact Handler.Ensures.mono
    (Platform.carry_keeps (M := platform username Fence.validate) hreads hwrites
      (fun w => (hcarry w).1) (fun _ => converged_spec ha) fun w => (hcarry w).2)
    fun w'' _ h => h.1 (hreads w w' hr hw)

theorem issue_starts_fresh (hran : w.ran = []) (ho : r.operation = .issue) (enforceBirth : Bool)
    (hs : ∀ old, w.fence = some old → old.phase ≠ .retired) :
    (host Fence username).Ensures (apply username r enforceBirth) w fun w' _ => FreshStart w' := by
  refine apply_keeps enforceBirth (fun x hx => by simp [hran] at hx)
    (fun _ _ h hw => hw.of_ran h.ran)
    (fun _ _ _ h hw => hw.of_ran (Persists.toSame h).ran) fun a p now ha hplan w =>
      ⟨?_, closeAccount_fresh w⟩
  have hpreserve : p.preserveDesktop = false := by
    cases planned_of_plan hplan <;> simp_all
  simp only [mutate, ho, hpreserve]
  exact issue_fresh ha w

theorem issue_gentle {completed : Fence} : (issue a r true completed).Asks Effect.Gentle := by
  refine (disableLogin_asks gentle_of_passive rfl).bind fun _ => ?_
  split
  · trivial
  · exact (setPassword_asks gentle_of_passive rfl).bind fun _ => Program.asks_perform.mpr rfl

theorem reissue_announces (hran : w.ran = []) (ho : r.operation = .issue) (enforceBirth : Bool)
    {old : Fence} (hs : w.fence = some old) (hold : old.phase = .retired) :
    (host Fence username).Ensures (apply username r enforceBirth) w
      fun w' _ => Announced (revocation r) w' := by
  refine apply_keeps enforceBirth (.inl fun x hx => by simp [hran] at hx)
    (fun _ _ => announced_of_reads) (fun _ _ _ => announced_of_persists)
    fun a p now ha hplan w => ⟨?_, ?_⟩
  · have hpreserve : p.preserveDesktop = true := by
      cases planned_of_plan hplan <;> simp_all
    simp only [mutate, ho, hpreserve]
    exact announced_of_gentle issue_gentle w
  · rw [revoked_pending (planned_of_plan hplan)]
    exact closeAccount_announces ha (validate_revocation (plan_eq_ok_iff.mp hplan).1) w

theorem Answered.gentle {o : Option (Except IoError Fence)} {f old : Fence}
    (h : Answered username r (some old) w o) (hf : o = some (.ok f)) (ho : r.operation = .issue)
    (hold : old.phase = .retired) {x : Ran} (hx : x ∈ w.ran) : x.command.terminates = false := by
  rcases h.done f hf with hr | ⟨p, w₁, w₂, hp, hran, hmut, hsame⟩
  · simp [ho] at hr
  have hpreserve : p.preserveDesktop = true := by
    cases hp <;> simp_all
  simp only [Mutates, ho, hpreserve] at hmut
  obtain ⟨secret, hout⟩ := hmut
  have hmem : (x.command, x.ok) ∈ w₂.outcomes := by
    rw [World.outcomes, ← hsame.ran]
    exact mem_map_of_mem hx
  rw [hout, World.outcomes, hran] at hmem
  simp only [map_nil, nil_append, succeeded, issueCommands, mem_map,
    Prod.mk.injEq] at hmem
  obtain ⟨c, hc, hcx, -⟩ := hmem
  rw [← hcx]
  simp only [if_true, cons_append, nil_append, mem_cons, not_mem_nil,
    or_false] at hc
  rcases hc with rfl | rfl | rfl <;> rfl

/-- A request that fails with a fence stored ends with its clean-up, under its last choices. -/
theorem cleaned_of_error {enforceBirth : Bool} {cs : List Choice} {e : IoError} {g : Fence}
    (hnone : w.persisted = [])
    (hrun : (host Fence username).run (apply username r enforceBirth) w cs =
      (w', some (.error e))) (hstored : (g, true) ∈ w'.persisted) :
    ∃ a w₁ cs₁ x, a.username = username ∧ cs₁ <:+ cs ∧
      (host Fence username).run (closeAccount Fence.validate a (revocation r)) w₁ cs₁ =
        (w', some x) ∧ Cleaned a (revocation r) cs₁ w₁ w' := by
  obtain ⟨_, -, hfail⟩ | ⟨⟨a, p⟩, w₀, cs₀, hcs₀, haccept, hcarry⟩ := run_bind hrun
  · simp [(Ensures.of_run accept_spec hfail).1.persisted, hnone] at hstored
  obtain ⟨hreads, hadmits⟩ := Ensures.of_run accept_spec haccept
  obtain ⟨rfl, now, hplan⟩ := hadmits _ rfl
  obtain ⟨w₁, cs₁, x, hcs₁, hclose⟩ :=
    Platform.carry_error (M := platform a.username Fence.validate)
      (hreads.persisted.trans hnone) hcarry hstored
  rw [revoked_pending (planned_of_plan hplan)] at hclose
  have hvalid := validate_revocation (plan_eq_ok_iff.mp hplan).1
  exact ⟨a, w₁, cs₁, x, rfl, hcs₁.trans hcs₀, hclose, closeAccount_cleans hvalid hclose⟩

theorem reconcile_spec (hc : Consistent discipline username w) :
    (host Fence username).Within (Keeping (Consistent discipline username)) (reconcile username)
      (fun _ => Covered username fun f => Window f.expiresUnixSeconds f.retained) w := by
  refine sweep_spec hc fun hc => (kept bound_spec).bind fun a w₁ hk h₁ => ?_
  exact reconcileLocked_spec h₁.2 (hk hc) (fun _ _ => liveState_spec h₁.2) not_live_revoked

end Calls

/-! ## Runs -/

inductive Call
  | apply (r : Request) (enforceBirth : Bool)
  | reconcile

/-- The world after a call, which has crashed if it ran out of choices. -/
def Call.exec (username : String) (w : World Fence) (cs : List Choice) : Call → World Fence
  | .apply r enforceBirth =>
    ((host Fence username).run (LinuxNative.apply username r enforceBirth) w.begin cs).1
  | .reconcile => ((host Fence username).run (LinuxNative.reconcile username) w.begin cs).1

/-- Calls on one account, one after another under its gate, from its provisioning on. -/
def adapter (username : String) : Machine (World Fence) (Call × List Choice) where
  Init w := w.fence = none ∧ w.history = [] ∧ w.shadow = .provisioned
  step w e := some (e.1.exec username w e.2)

theorem consistent_of_reachable {username : String} {w : World Fence}
    (h : (adapter username).Reachable w) : Consistent discipline username w := by
  refine h.invariant (P := Consistent discipline username) ?_ ?_
  · rintro w ⟨hn, -, hs⟩
    exact ⟨fun f hf => by simp [hn] at hf, fun _ => .inr (by rw [hs]; rfl)⟩
  · rintro w ⟨call, cs⟩ w' - hc hstep
    cases hstep
    cases call with
    | apply r enforceBirth => exact (apply_ensures r enforceBirth hc.begin rfl rfl cs).consistent
    | reconcile => exact (reconcile_spec hc.begin cs).1 hc.begin

/-- Whatever calls came before, completed or crashed at any effect: live fences rest on successful
commands, an issue never ends a kept desktop silently nor sets a password in front of a process, a
request that fails behind its pending fence ends with its clean-up, and a revocation and a
reconciliation leave the login disabled unless a live fence covers it. -/
theorem native_account_crash_consistency {username : String} {w : World Fence}
    (h : (adapter username).Reachable w) :
    (∀ f, w.fence = some f → f.phase = .issued ∨ f.phase = .retired → Backed f w.history) ∧
      (∀ r enforceBirth cs w' o,
        (host Fence username).run (apply username r enforceBirth) w.begin cs = (w', o) →
          (∀ old, r.operation = .issue → w.fence = some old → old.phase = .retired →
            ∀ x ∈ w'.ran, x.command.terminates = true →
              (∃ ok, (revocation r, ok) ∈ w'.persisted) ∧ ∀ f, o ≠ some (.ok f)) ∧
          (r.operation = .issue → (∀ old, w.fence = some old → old.phase ≠ .retired) →
            ∀ x ∈ w'.ran, ∀ secret, x.command = .password secret → x.idle = true) ∧
          (∀ e g, o = some (.error e) → (g, true) ∈ w'.persisted →
            ∃ a w₁ cs₁ x, a.username = username ∧ cs₁ <:+ cs ∧
              (host Fence username).run (closeAccount Fence.validate a (revocation r)) w₁ cs₁ =
                (w', some x) ∧ Cleaned a (revocation r) cs₁ w₁ w') ∧
          (∀ f, o = some (.ok f) → r.operation = .revoke →
            w'.loginDisabled username = true ∧ w'.processesAbsent = some true)) ∧
      (∀ cs w', (host Fence username).run (reconcile username) w.begin cs = (w', some (.ok ())) →
        w'.loginDisabled username = true ∨ ∃ f, w'.fence = some f ∧ f.retained w'.clock = true ∧
          w'.shadow.disabled w'.clock = false ∧
          w'.shadow.expiryDay = some (shadowDay f.expiresUnixSeconds)) := by
  have hc := consistent_of_reachable h
  refine ⟨hc.backed, fun r enforceBirth cs w' o hrun => ?_, fun cs w' hrun => ?_⟩
  · have hans := (apply_ensures r enforceBirth hc.begin rfl rfl).of_run hrun
    refine ⟨fun old ho hs hold x hx hend => ⟨?_, fun f hf => ?_⟩, fun ho hs => ?_,
      fun e g he hg => ?_, fun f hf ho => ?_⟩
    · have hann : (host Fence username).Ensures (apply username r enforceBirth) w.begin _ :=
        reissue_announces rfl ho enforceBirth hs hold
      exact (hann.of_run hrun).resolve_left fun hn => by simp [hn x hx] at hend
    · have hgentle := Answered.gentle (hs ▸ hans) hf ho hold hx
      simp [hgentle] at hend
    · have hfresh : (host Fence username).Ensures (apply username r enforceBirth) w.begin _ :=
        issue_starts_fresh rfl ho enforceBirth hs
      exact hfresh.of_run hrun
    · subst he
      exact cleaned_of_error rfl hrun hg
    · rcases hans.done f hf with hr | ⟨p, w₁, w₂, -, -, hmut, hsame⟩
      · simp [ho] at hr
      simp only [Mutates, ho] at hmut
      exact ⟨(hmut.closed.mono hsame.present hsame.shadow).loginDisabled,
        hsame.processesAbsent.trans hmut.processesAbsent⟩
  · rcases (Ensures.of_run (reconcile_spec hc.begin) hrun).2 () rfl with hclosed | ⟨f, hf, hm⟩
    · exact .inl hclosed.loginDisabled
    · exact .inr ⟨f, hf, hm.live, hm.enabled, hm.day⟩

def retiredRun : List (Call × List Choice) :=
  [(.apply (sampleRequest .issue 1 "conn_aaaaaaaa") true,
      List.replicate 60 (sampleChoice "vcw123456abcdef" [] none)),
    (.apply (sampleRequest .retire 2 "conn_aaaaaaaa") true,
      List.replicate 60 (sampleChoice "vcw123456abcdef" [42] none))]

/-- A credential can be issued and retired; the retired fence is then backed by both. -/
theorem native_account_crash_consistency_retired :
    ∃ w f, (adapter "vcw123456abcdef").Reachable w ∧ w.fence = some f ∧ f.phase = .retired ∧
      Backed f w.history := by
  obtain ⟨w, hw, hf⟩ := Machine.exists_reachable_of_run (M := adapter "vcw123456abcdef")
    (P := fun w => w.fence = some ((sampleRequest .retire 2 "conn_aaaaaaaa").fence .retired))
    (sampleWorld Fence "vcw123456abcdef") retiredRun ⟨rfl, rfl, rfl⟩ (by decide +kernel)
  exact ⟨w, _, hw, hf, rfl, (native_account_crash_consistency hw).1 _ hf (.inr rfl)⟩

/-- The desktop of a retired fence is there, with a process, and the next issue fails to set its
password. -/
def failedIssue : List Choice :=
  List.replicate 20 (sampleChoice "vcw123456abcdef" [42] none) ++
    sampleChoice "vcw123456abcdef" [42] (some (deny "account credential mutation failed")) ::
    List.replicate 30 (sampleChoice "vcw123456abcdef" [42] none)

/-- An issue that follows a retained retired fence and fails kills the processes of the desktop. -/
theorem failed_issue_ends_desktop : ∃ w old r w' e, (adapter "vcw123456abcdef").Reachable w ∧
    w.fence = some old ∧ old.phase = .retired ∧ old.retained w.clock = true ∧ r.operation = .issue ∧
    (host Fence "vcw123456abcdef").run (apply "vcw123456abcdef" r true) w.begin failedIssue =
      (w', some (.error e)) ∧
    ∃ x ∈ w'.ran, x.command = .kill ∧ x.ok = true := by
  obtain ⟨w, hw, ⟨hf, hr⟩, hend, hkill⟩ :=
    Machine.exists_reachable_of_run (M := adapter "vcw123456abcdef")
    (P := fun w => (w.fence = some ((sampleRequest .retire 2 "conn_aaaaaaaa").fence .retired) ∧
        w.clock = 100) ∧
      ((host Fence "vcw123456abcdef").run
        (apply "vcw123456abcdef" (sampleRequest .issue 3 "conn_bbbbbbbb") true) w.begin
        failedIssue).2 = some (.error (deny "account credential mutation failed")) ∧
      ((host Fence "vcw123456abcdef").run
        (apply "vcw123456abcdef" (sampleRequest .issue 3 "conn_bbbbbbbb") true) w.begin
        failedIssue).1.ran.any (fun x => x.command == .kill && x.ok) = true)
    (sampleWorld Fence "vcw123456abcdef") retiredRun ⟨rfl, rfl, rfl⟩ (by decide +kernel)
  obtain ⟨x, hx, hcmd⟩ := any_eq_true.mp hkill
  simp only [Bool.and_eq_true, beq_iff_eq] at hcmd
  exact ⟨w, _, _, _, _, hw, hf, rfl, by rw [hr]; decide, rfl, Prod.ext rfl hend, x, hx, hcmd⟩

end VcWorkspace.Session.LinuxNative
