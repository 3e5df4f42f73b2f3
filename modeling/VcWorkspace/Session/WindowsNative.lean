import VcWorkspace.Guest.Native
import VcWorkspace.Session.WindowsLease

/-! # Native accounts on Windows

The adapter of native accounts keeps its own registry root and fences. An issue
after a retired fence leaves the logons of the user alone; every other issue
ends them first. Both adapters store their fences around the same account
writes, so what a fence says about its account is the same for both.
-/

namespace VcWorkspace.Session.WindowsNative

open Transition Guest Guest.Native WindowsAccount Handler

def marker : String := "VCWorkspace-Native-"

def parse (name sid : String) : Fence → Except IoError Fence :=
  parseFence Fence.validate Fence.identity (identity name sid)

/-- A fence of the other adapter under this root is an error, not a missing fence. -/
def readFence (name sid : String) : Windows Fence (Option Fence) := do
  ask .rejectLegacy
  WindowsAccount.readFence (parse name sid)

def ownedSid : Windows Fence String := do
  let record ← ask .record
  let sid ← demand "Native lifecycle requires a pre-bound SID" (record.bind Record.sid)
  let actual ← ask .account
  check "Native SAM identity differs from owned SID" (actual.all (·.sid == sid))
  pure sid

def retained (f : Fence) : Windows Fence Unit := do
  let actual ← bound
  check "Native retained login window changed" (!actual.disabled)
  let now ← ask .now
  check "Native retained login window changed"
    (f.retained now && f.expiresUnixSeconds == actual.expiresUnixSeconds.toNat &&
      actual.expiresUnixSeconds.toNat != 2 ^ 32 - 1)

section Apply

variable (r : Request)

def requireNoProfile : Windows Fence Unit :=
  if r.operation = .revoke then pure ()
  else do
    let found ← ask .hasProfile
    check "Native profile requires DPAPI-safe credential lifecycle" (!found)

def admissible (previous : Option Fence) (preserve : Bool) : Windows Fence Unit :=
  if preserve then do
    let old ← demand "retained intent missing" previous
    retained old
  else pure ()

/-- The checks of a request, up to the plan that it is accepted with. -/
def accept (name : String) : Windows Fence (String × Plan) := do
  validate name "vcw"
  ask .gate
  ask .key
  let sid ← ownedSid
  check "Native credential identity or expiry mismatch" (r.identity == identity name sid &&
      (r.operation == .revoke || r.expiresUnixSeconds < 2 ^ 32 - 1))
  let previous ← readFence name sid
  let now ← ask .now
  let next ← .lift (plan previous r now)
  requireNoProfile r
  admissible previous next.preserveDesktop
  pure (sid, next)

def close (preserve : Bool) : Windows Fence Unit :=
  if preserve then do
    let _ ← disableLoginLocked
    pure ()
  else do
    let _ ← disableLocked marker
    pure ()

def mutate (preserve : Bool) : Windows Fence Unit :=
  match r.operation with
  | .issue => do
    close preserve
    install "missing Native password" r.password r.expiresUnixSeconds
  | .retire => retire
  | .revoke => do
    let _ ← disableLocked marker
    pure ()

def converged (sid : String) (completed : Fence) : Windows Fence Unit :=
  if r.operation = .revoke then do
    let _ ← ownedSid
    let actual ← ask .account
    check "Native SAM/WTS revocation did not converge" (actual.all (·.disabled))
    let sessions ← ask (.sessions sid)
    check "Native SAM/WTS revocation did not converge" sessions.isEmpty
  else retained completed

end Apply

def apply (name : String) (r : Request) : Windows Fence Fence := do
  let (sid, next) ← accept r name
  carry (persist Fence.validate) next.observeOnly next.pending next.completed
    (mutate r next.preserveDesktop) (converged r sid next.completed)
    (closeLogin Fence.validate next.pending.revoked)

/-- A fence that no longer matches its account is revoked together with it. -/
def expireFence (f : Fence) : Except IoError Unit → Windows Fence Bool
  | .ok _ => pure false
  | .error _ => do
    persist Fence.validate f.revoked
    let _ ← disableLocked marker
    pure true

def expire (name : String) : Windows Fence Bool := do
  validate name "vcw"
  ask .gate
  ask .key
  let sid ← ownedSid
  let stored ← (readFence name sid).attempt
  match stored with
  | .ok (some f) => do
    let live ← (retained f).attempt
    expireFence f live
  | .ok none => do
    let _ ← disableLocked marker
    pure true
  | .error e => do
    let _ ← disableLocked marker
    .lift (.error e)

/-! ## What the fence says about the account -/

/-- The writes behind an issued or retired fence: since the pending fence of its revision the
account was disabled, and its credential, expiry and flags were written. -/
inductive Backed : Fence → List (Written Fence Ran) → Prop
  | issued {f : Fence} {ran : List Ran} {older : List (Written Fence Ran)} {expires : BitVec 32}
      (hp : f.phase = .issued) (he : expires.toNat = f.expiresUnixSeconds)
      (hran : Opens expires ran) :
      Backed f (⟨f, ran⟩ :: ⟨{ f with phase := .issuing }, []⟩ :: older)
  | retired {f g : Fence} {ran : List Ran} {older : List (Written Fence Ran)}
      (hp : f.phase = .retired) (hran : Retires ran) (hg : g.phase = .issued)
      (hrev : f.revision = g.revision + 1) (he : f.expiresUnixSeconds = g.expiresUnixSeconds)
      (hold : Backed g older) :
      Backed f (⟨f, ran⟩ :: ⟨{ f with phase := .retiring }, []⟩ :: older)

def discipline : Discipline Fence Ran where
  Live := Fence.Live
  Backed := Backed

section Calls

variable {name : String} {w w' : World Fence} {r : Request} {stored : Option Fence} {p : Plan}
  {older : List (Written Fence Ran)} {preserve : Bool}

theorem readFence_spec {sid : String} : (host Fence).Within Reads (readFence name sid)
    (fun stored _ => stored = w.fence) w :=
  (ask_spec .rejectLegacy trivial).bind fun _ _ h₁ _ =>
    WindowsAccount.readFence_spec.post fun _ _ _ h => h.trans h₁.fence

theorem ownedSid_spec : (host Fence).Within Reads ownedSid (fun sid w' => w'.sid = some sid) w := by
  refine record_spec.bind fun record w₁ _ hrec => ?_
  refine within_demand_bind fun sid hsid => ?_
  refine account_spec.bind fun actual w₂ h₂ _ => within_check_bind fun _ => ?_
  refine within_pure ?_
  rw [h₂.sid, World.sid, hrec, hsid]

def Kept (w : World Fence) : Prop := ∃ f, w.fence = some f ∧ f.retained w.clock = true

theorem retained_spec {f : Fence} : (host Fence).Within Reads (retained f)
    (fun _ w' => f.retained w'.clock = true) w := by
  refine bound_spec.bind fun actual w₁ _ _ => within_check_bind fun _ => ?_
  refine now_spec.bind fun now w₂ _ hnow => within_check fun h => ?_
  simp only [Bool.and_eq_true] at h
  exact hnow ▸ h.1.1

theorem requireNoProfile_spec :
    (host Fence).Within Reads (requireNoProfile r) (fun _ _ => True) w := by
  unfold requireNoProfile
  split
  · exact within_pure trivial
  · exact (ask_spec .hasProfile trivial).bind fun _ w₁ _ _ => within_check fun _ => trivial

theorem admissible_spec {previous : Option Fence} :
    (host Fence).Within Reads (admissible previous preserve) (fun _ _ => True) w := by
  unfold admissible
  split
  · exact within_demand_bind fun old _ => retained_spec.post fun _ _ _ _ => trivial
  · exact within_pure trivial

/-- The deadline of a request other than a revocation is not truncated. -/
def Fits (r : Request) : Prop := r.operation ≠ .revoke → r.expiresUnixSeconds < 2 ^ 32

theorem accept_spec : (host Fence).Within Reads (accept r name)
    (fun x _ => Fits r ∧ ∃ now, plan w.fence r now = .ok x.2) w := by
  refine validate_spec.bind fun _ w₁ h₁ _ => (ask_spec .gate trivial).bind fun _ w₂ h₂ _ =>
    (ask_spec .key trivial).bind fun _ w₃ h₃ _ => ownedSid_spec.bind fun sid w₄ h₄ _ => ?_
  refine within_check_bind fun hexpiry => ?_
  refine readFence_spec.bind fun previous w₅ _ hprev => ?_
  refine now_spec.bind fun now w₆ _ _ => within_lift_bind fun p hp => ?_
  refine requireNoProfile_spec.bind fun _ w₇ _ _ => admissible_spec.bind fun _ w₈ _ _ => ?_
  refine within_pure ⟨fun hne => ?_, now, ?_⟩
  · simp only [Bool.and_eq_true, Bool.or_eq_true, beq_iff_eq, decide_eq_true_eq] at hexpiry
    have := hexpiry.2.resolve_left hne
    omega
  · rw [← hp, hprev, h₄.fence, h₃.fence, h₂.fence, h₁.fence]

theorem close_spec : (host Fence).Within Frame (close preserve) (fun _ w' => Closed w w') w := by
  unfold close
  split
  · exact disableLoginLocked_spec.bind fun _ w₁ _ h₁ =>
      within_pure ⟨h₁.closed, fun _ => h₁.ran⟩
  · exact (disableLocked_spec marker).bind fun _ w₁ _ h₁ => within_pure h₁

/-- The writes of a request, between the worlds before and after them. -/
def Mutates (r : Request) (w w' : World Fence) : Prop :=
  match r.operation with
  | .issue => ∃ new, Opens (BitVec.ofNat 32 r.expiresUnixSeconds) new ∧ w'.ran = w.ran ++ new
  | .retire => ∃ new, Retires new ∧ w'.ran = w.ran ++ new
  | .revoke => w'.enabled = false

theorem mutate_spec (w : World Fence) :
    (host Fence).Within Frame (mutate r preserve) (fun _ w' => Mutates r w w') w := by
  unfold mutate Mutates
  split
  · exact install_spec close_spec
  · exact retire_spec
  · exact (disableLocked_spec marker).bind fun _ w₁ _ h₁ => within_pure h₁.closed

theorem converged_spec {sid : String} {completed : Fence} (w : World Fence) :
    (host Fence).Within Reads (converged r sid completed) (fun _ _ => True) w := by
  unfold converged
  split
  · refine ownedSid_spec.bind fun _ w₁ _ _ => account_spec.bind fun actual w₂ _ _ => ?_
    refine within_check_bind fun _ => ?_
    exact (ask_spec (.sessions sid) trivial).bind fun _ w₃ _ _ =>
      within_check fun _ => trivial
  · exact retained_spec.post fun _ _ _ _ => trivial

theorem backed_of_mutates (hp : Planned stored r p) (hnew : p.observeOnly = false)
    (hold : ∀ f, stored = some f → f.Live → Backed f older) (hran : w.ran = [])
    (hm : Mutates r w w') (hfits : Fits r) (hl : p.completed.Live) :
    Backed p.completed (⟨p.completed, w'.ran⟩ :: ⟨p.pending, []⟩ :: older) := by
  have hissued : r.operation = .issue →
      Backed (r.fence .issued) (⟨r.fence .issued, w'.ran⟩ :: ⟨r.fence .issuing, []⟩ :: older) := by
    intro ho
    simp only [Mutates, ho] at hm
    obtain ⟨new, hnew, hran'⟩ := hm
    rw [hran', hran, List.nil_append]
    refine .issued (f := r.fence .issued) rfl ?_ hnew
    exact Nat.mod_eq_of_lt (hfits (by simp [ho]))
  cases hp with
  | issues ho | reissues ho => exact hissued ho
  | retires ho hs hp hrev he =>
    simp only [Mutates, ho] at hm
    obtain ⟨new, hnew, hran'⟩ := hm
    rw [hran', hran, List.nil_append]
    exact .retired (f := r.fence .retired) rfl hnew hp hrev he (hold _ hs (.inl hp))
  | observes => cases hnew
  | revokes => rcases hl with h | h <;> cases h

theorem duty (sid : String) (hp : Planned stored r p) (hfits : Fits r)
    (hnew : p.observeOnly = false) (hold : ∀ f, stored = some f → f.Live → Backed f older) :
    (platform Fence.validate).Duty discipline older p.pending p.completed (revocation r)
      (mutate r p.preserveDesktop) (converged r sid p.completed)
      (closeLogin Fence.validate (revocation r)) Reads (Mutates r) (fun _ => True) where
  dormant := not_live_pending hp
  reserved := revokes_of_eq hp
  mutates := mutate_spec
  converges := converged_spec
  closes := closeLogin_spec (not_live_revoked _)
  reads _ _ hr := ⟨hr.toFrame, hr.ran⟩
  backed _ _ _ hran hm _ hl := backed_of_mutates hp hnew hold hran hm hfits hl

theorem apply_spec (name : String) (r : Request) (hc : Consistent discipline w) (hran : w.ran = [])
    (hnone : w.persisted = []) :
    (host Fence).Within (Keeping (Consistent discipline)) (apply name r)
      (fun _ w' => r.operation = .revoke → w'.enabled = false) w := by
  refine (kept accept_spec).bind fun x w' hk h => ?_
  obtain ⟨sid, p⟩ := x
  obtain ⟨hr, hfits, now, hplan⟩ := h
  have hp := planned_of_plan hplan
  have hc' := hk hc
  simp only [revoked_pending hp]
  refine carry_answers hc' (hr.ran.trans hran) (hr.persisted.trans hnone)
    (fun hnew => duty sid hp hfits hnew fun f hf => hc' f (hr.fence.trans hf)) (fun ho => ?_)
    fun ho _ _ hm => ?_
  · refine Bool.eq_false_iff.mpr fun hobs => ?_
    simp [retires_of_observes hp hobs] at ho
  · simpa only [Mutates, ho] using hm

theorem cleaned_of_error {cs : List Choice} {e : IoError} {g : Fence} (hnone : w.persisted = [])
    (hrun : (host Fence).run (apply name r) w cs = (w', some (.error e)))
    (hstored : (g, true) ∈ w'.persisted) : ∃ w₁ cs₁ x, cs₁ <:+ cs ∧
      (host Fence).run (closeLogin Fence.validate (revocation r)) w₁ cs₁ = (w', some x) ∧
        Cleaned (revocation r) cs₁ w₁ w' := by
  obtain ⟨_, -, hfail⟩ | ⟨⟨sid, p⟩, w₀, cs₀, hcs₀, haccept, hcarry⟩ := run_bind hrun
  · simp [(Ensures.of_run accept_spec hfail).1.persisted, hnone] at hstored
  obtain ⟨hreads, hadmits⟩ := Ensures.of_run accept_spec haccept
  obtain ⟨-, now, hplan⟩ := hadmits _ rfl
  simp only [revoked_pending (planned_of_plan hplan)] at hcarry
  obtain ⟨w₁, cs₁, x, hcs₁, hclean⟩ :=
    carry_cleans (validate_revocation (plan_eq_ok_iff.mp hplan).1)
      (hreads.persisted.trans hnone) hcarry hstored
  exact ⟨w₁, cs₁, x, hcs₁.trans hcs₀, hclean⟩

theorem expire_spec (name : String) : (host Fence).Within (Keeping (Consistent discipline))
    (expire name) (fun _ w' => w'.enabled = true → Kept w') w := by
  refine (kept validate_spec).bind fun _ w₁ _ _ => ?_
  refine (kept (ask_spec .gate trivial)).bind fun _ w₂ _ _ => ?_
  refine (kept (ask_spec .key trivial)).bind fun _ w₃ _ _ => ?_
  refine (kept ownedSid_spec).bind fun sid w₄ _ _ => ?_
  refine (kept readFence_spec.attempt).bind fun stored w₅ _ h₅ => ?_
  match stored with
  | .ok none => exact disable_sweeps marker (.ok true)
  | .error e => exact disable_sweeps marker (.error e)
  | .ok (some f) =>
    refine (kept retained_spec.attempt).bind fun live w₆ _ h₆ => ?_
    cases live with
    | error e => exact revoke_sweeps marker (not_live_revoked f)
    | ok u =>
      refine within_pure fun _ => ⟨f, ?_, h₆.2 u rfl⟩
      rw [h₆.1.fence, h₅.1.fence, ← h₅.2 _ rfl]

end Calls

inductive Call
  | apply (r : Request)
  | expire

/-- The world after a call, which has crashed if it ran out of choices. -/
def Call.exec (name : String) (w : World Fence) (cs : List Choice) : Call → World Fence
  | .apply r => ((host Fence).run (WindowsNative.apply name r) w.begin cs).1
  | .expire => ((host Fence).run (WindowsNative.expire name) w.begin cs).1

theorem consistent_exec {name : String} {w : World Fence} (hc : Consistent discipline w)
    (call : Call) (cs : List Choice) : Consistent discipline (call.exec name w cs) := by
  cases call with
  | apply r => exact (apply_spec name r hc.begin rfl rfl cs).1 hc.begin
  | expire => exact (expire_spec name cs).1 hc.begin

/-! ## Runs of both adapters -/

structure Accounts where
  agent : World Agent.Fence
  native : World Fence

inductive Event
  | agent (call : WindowsLease.Call)
  | native (call : Call)

/-- Calls and sweeps of both adapters, one after another under the gates of their accounts. -/
def adapters (agentName nativeName : String) : Machine Accounts (Event × List Choice) where
  Init s := s.agent.fence = none ∧ s.native.fence = none
  step s e := some <| match e.1 with
    | .agent call => { s with agent := call.exec agentName s.agent e.2 }
    | .native call => { s with native := call.exec nativeName s.native e.2 }

theorem consistent_of_reachable {agentName nativeName : String} {s : Accounts}
    (h : (adapters agentName nativeName).Reachable s) :
    Consistent WindowsLease.discipline s.agent ∧ Consistent discipline s.native := by
  refine h.invariant
    (P := fun s => Consistent WindowsLease.discipline s.agent ∧ Consistent discipline s.native)
    ?_ ?_
  · rintro s ⟨ha, hn⟩
    exact ⟨fun f hf => by simp [ha] at hf, fun f hf => by simp [hn] at hf⟩
  · rintro s ⟨event, cs⟩ s' - ⟨ha, hn⟩ hstep
    cases hstep
    cases event with
    | agent call => exact ⟨WindowsLease.consistent_exec ha call cs, hn⟩
    | native call => exact ⟨ha, consistent_exec hn call cs⟩

/-- Whatever calls and sweeps of the two adapters came before, completed or crashed at any effect:
live fences rest on successful writes; a request that fails behind its pending fence ends with its
clean-up, which revokes the fence of that version and disables the account unless it fails itself;
and a revocation and a sweep leave no account enabled without a live fence. -/
theorem windows_account_crash_consistency {agentName nativeName : String} {s : Accounts}
    (h : (adapters agentName nativeName).Reachable s) :
    (∀ f now, s.agent.fence = some f → f.loginLive now = true →
      WindowsLease.Backed f s.agent.history) ∧
    (∀ f now, s.native.fence = some f → f.retained now = true → Backed f s.native.history) ∧
    (∀ r cs w o, (host _).run (WindowsLease.apply agentName r) s.agent.begin cs = (w, o) →
      (∀ f, o = some (.ok f) → r.operation = .revoke → w.enabled = false) ∧
      (∀ e g, o = some (.error e) → (g, true) ∈ w.persisted → ∃ f w₁ cs₁ x, f.phase = .revoked ∧
        f.controlEpoch = r.controlEpoch ∧ f.loginGeneration = r.loginGeneration ∧ cs₁ <:+ cs ∧
        (host _).run (closeLogin Agent.Fence.validate f) w₁ cs₁ = (w, some x) ∧
          Cleaned f cs₁ w₁ w)) ∧
    (∀ r cs w o, (host _).run (apply nativeName r) s.native.begin cs = (w, o) →
      (∀ f, o = some (.ok f) → r.operation = .revoke → w.enabled = false) ∧
      (∀ e g, o = some (.error e) → (g, true) ∈ w.persisted → ∃ f w₁ cs₁ x, f.phase = .revoked ∧
        f.revision = r.revision ∧ cs₁ <:+ cs ∧
        (host _).run (closeLogin Fence.validate f) w₁ cs₁ = (w, some x) ∧ Cleaned f cs₁ w₁ w)) ∧
    (∀ cs w b, (host _).run (WindowsLease.expire agentName) s.agent.begin cs = (w, some (.ok b)) →
      w.enabled = true → ∀ f, w.fence = some f → f.loginLive w.clock = true) ∧
    (∀ cs w b, (host _).run (expire nativeName) s.native.begin cs = (w, some (.ok b)) →
      w.enabled = true → ∃ f, w.fence = some f ∧ f.retained w.clock = true) := by
  obtain ⟨ha, hn⟩ := consistent_of_reachable h
  refine ⟨fun f now hf hl => ha f hf ?_, fun f now hf hl => hn f hf ?_, fun r cs w o hrun => ?_,
    fun r cs w o hrun => ?_, fun cs w b hrun => ?_, fun cs w b hrun => ?_⟩
  · simp only [Agent.Fence.loginLive, Bool.and_eq_true, Bool.or_eq_true, beq_iff_eq] at hl
    exact hl.1
  · simp only [Fence.retained, Bool.and_eq_true, Bool.or_eq_true, beq_iff_eq] at hl
    exact hl.1
  · have hans := Ensures.of_run (WindowsLease.apply_spec agentName r ha.begin rfl rfl) hrun
    refine ⟨hans.2, fun e g he hg => ?_⟩
    subst he
    obtain ⟨w₁, cs₁, x, hclean⟩ := WindowsLease.cleaned_of_error rfl hrun hg
    exact ⟨Agent.revocation r, w₁, cs₁, x, rfl, rfl, rfl, hclean⟩
  · have hans := Ensures.of_run (apply_spec nativeName r hn.begin rfl rfl) hrun
    refine ⟨hans.2, fun e g he hg => ?_⟩
    subst he
    obtain ⟨w₁, cs₁, x, hclean⟩ := cleaned_of_error rfl hrun hg
    exact ⟨revocation r, w₁, cs₁, x, rfl, rfl, hclean⟩
  · exact (Ensures.of_run (WindowsLease.expire_spec agentName) hrun).2 b rfl
  · exact (Ensures.of_run (expire_spec nativeName) hrun).2 b rfl

/-- The owned account of the samples, as an opening up to second 200 leaves it. -/
def sampleAccount : LocalAccount := ⟨"S-1-5-21-1-2-3-1001", "", 0x200, 200⟩

def sampleWorld (F : Type) : World F where
  record := some ⟨"", some "S-1-5-21-1-2-3-1001"⟩
  sam := some { sampleAccount with flags := 0x202, expiresUnixSeconds := 0 }
  fence := none
  clock := 100
  sessions := []
  ran := []
  persisted := []
  history := []

/-- An effect that succeeds at second 100. -/
def sampleChoice : Choice := ⟨100, some sampleAccount, [], none, false, false, [7]⟩

def sampleOpening : Agent.Request :=
  { Agent.sampleRequest .open 1 1 with
    identity := ⟨"vca123456abcdef", 0, "S-1-5-21-1-2-3-1001"⟩ }

/-- An opening can succeed; its fence is then backed by its four writes. -/
theorem windows_account_crash_consistency_opened :
    ∃ s f, (adapters "vca123456abcdef" "vcw123456abcdef").Reachable s ∧ s.agent.fence = some f ∧
      f.loginLive 100 = true ∧ WindowsLease.Backed f s.agent.history := by
  obtain ⟨s, hs, hf⟩ := Machine.exists_reachable_of_run
    (M := adapters "vca123456abcdef" "vcw123456abcdef")
    (P := fun s => s.agent.fence = some (sampleOpening.fence .open))
    ⟨sampleWorld _, sampleWorld _⟩
    [(.agent (.apply sampleOpening), List.replicate 60 sampleChoice)]
    ⟨rfl, rfl⟩ (by decide +kernel)
  exact ⟨s, _, hs, hf, by decide, (windows_account_crash_consistency hs).1 _ 100 hf (by decide)⟩

end VcWorkspace.Session.WindowsNative
