import VcWorkspace.Guest.Agent
import VcWorkspace.Session.WindowsAccount

/-! # Agent accounts on Windows

An opening disables the account and ends its logons before it sets the
credential, the expiry and the flags of the request; a sealing replaces the
credential. After a failure the login is closed, and a sweep closes every
account whose fence does not allow it.
-/

namespace VcWorkspace.Session.WindowsLease

open Transition Guest Guest.Agent WindowsAccount Handler

def marker : String := "VCWorkspace-Agent-"

def parse (name sid : String) : Fence → Except IoError Fence :=
  parseFence Fence.validate Fence.identity (identity name sid)

section Apply

variable (r : Request)

def admissible : Windows Fence Unit :=
  match r.operation with
  | .open => do
    let _ ← bound
    pure ()
  | .seal => do
    let actual ← bound
    check "login window changed before credential retirement"
      (!actual.disabled && actual.expiresUnixSeconds.toNat == r.expiresUnixSeconds)
  | .revoke => pure ()

/-- The checks of a request, up to the plan that it is accepted with. -/
def accept (name : String) : Windows Fence Plan := do
  validate name "vca"
  ask .gate
  ask .key
  let record ← ask .record
  let sid ← demand "account lifecycle requires a pre-bound SID" (record.bind Record.sid)
  check "account lifecycle identity mismatch" (r.identity == identity name sid)
  let actual ← ask .account
  check "account lifecycle SAM identity changed" (actual.all (·.sid == sid))
  let previous ← readFence (parse name sid)
  let now ← ask .now
  let next ← .lift (plan previous r now)
  admissible r
  pure next

def mutate : Windows Fence Unit :=
  match r.operation with
  | .open => do
    let _ ← disableLocked marker
    install "missing login credential" r.password r.expiresUnixSeconds
  | .seal => retire
  | .revoke => do
    let _ ← disableLocked marker
    pure ()

def converged (completed : Fence) : Windows Fence Unit :=
  if r.operation = .revoke then pure ()
  else do
    let actual ← bound
    check "account login window failed to converge"
      (!actual.disabled && actual.expiresUnixSeconds.toNat == r.expiresUnixSeconds)
    let now ← ask .now
    check "account login window failed to converge" (completed.loginLive now)

end Apply

def apply (name : String) (r : Request) : Windows Fence Fence := do
  let next ← accept r name
  carry (persist Fence.validate) next.observeOnly next.pending next.completed
    (mutate r) (converged r next.completed) (closeLogin Fence.validate next.pending.revoked)

/-- The account may stay open: it is in its window, and so is its fence, if it has one. -/
def inWindow (lifecycle : Option Fence) (now : ℕ) (actual : LocalAccount) : Bool :=
  !actual.disabled && (actual.expiresUnixSeconds.toNat != 2 ^ 32 - 1 &&
    now < actual.expiresUnixSeconds.toNat) &&
    lifecycle.all fun f => f.loginLive now &&
      f.expiresUnixSeconds == actual.expiresUnixSeconds.toNat

/-- The fence of a bound account. A malformed one closes the account and stays as it is. -/
def lifecycleOf (name : String) : Option String → Windows Fence (Option Fence)
  | none => pure none
  | some sid => do
    let stored ← (readFence (parse name sid)).attempt
    match stored with
    | .ok f => pure f
    | .error e => do
      let _ ← disableLocked marker
      .lift (.error e)

def revokeRecord : Option Fence → Windows Fence Unit
  | none => pure ()
  | some f => persist Fence.validate f.revoked

/-- The record of an account and the account, which has to be the recorded one. -/
def recorded (name : String) : Windows Fence (Record × Option LocalAccount) := do
  validate name "vca"
  ask .gate
  ask .key
  let record ← ask .record
  let record ← demand "missing account journal" record
  let actual ← ask .account
  check "expiry account SID is not bound" (actual.all fun a => record.sid == some a.sid)
  pure (record, actual)

def expire (name : String) : Windows Fence Bool := do
  let (record, actual) ← recorded name
  let lifecycle ← lifecycleOf name record.sid
  let now ← ask .now
  if actual.any (inWindow lifecycle now) then pure false
  else do
    revokeRecord lifecycle
    let _ ← disableLocked marker
    pure true

/-! ## What the fence says about the account -/

/-- The writes behind a fence in a live phase: since the pending fence of its version the account
was disabled, and its credential, expiry and flags were written. -/
inductive Backed : Fence → List (Written Fence Ran) → Prop
  | opened {f : Fence} {ran : List Ran} {older : List (Written Fence Ran)} {expires : BitVec 32}
      (hp : f.phase = .open) (he : expires.toNat = f.expiresUnixSeconds)
      (hran : Opens expires ran) :
      Backed f (⟨f, ran⟩ :: ⟨{ f with phase := .opening }, []⟩ :: older)
  | sealed {f : Fence} {ran : List Ran} {older : List (Written Fence Ran)}
      (hp : f.phase = .sealed) (hran : Retires ran)
      (hopen : Backed { f with phase := .open } older) :
      Backed f (⟨f, ran⟩ :: ⟨{ f with phase := .sealing }, []⟩ :: older)

def discipline : Discipline Fence Ran where
  Live := Fence.Live
  Backed := Backed

section Calls

variable {name : String} {w w' : World Fence} {r : Request} {stored : Option Fence} {p : Plan}
  {older : List (Written Fence Ran)}

theorem admissible_spec : (host Fence).Within Reads (admissible r) (fun _ _ => True) w := by
  unfold admissible
  split
  · exact bound_spec.bind fun _ w₁ _ _ => within_pure trivial
  · exact bound_spec.bind fun _ w₁ _ _ => within_check fun _ => trivial
  · exact within_pure trivial

theorem accept_spec : (host Fence).Within Reads (accept r name)
    (fun p _ => ∃ now, plan w.fence r now = .ok p) w := by
  refine validate_spec.bind fun _ w₁ h₁ _ => (ask_spec .gate trivial).bind fun _ w₂ h₂ _ =>
    (ask_spec .key trivial).bind fun _ w₃ h₃ _ => record_spec.bind fun record w₄ h₄ _ => ?_
  refine within_demand_bind fun sid _ => within_check_bind fun _ => ?_
  refine account_spec.bind fun actual w₅ h₅ _ => within_check_bind fun _ => ?_
  refine readFence_spec.bind fun previous w₆ _ hprev => ?_
  refine now_spec.bind fun now w₇ _ _ => within_lift_bind fun p hp => ?_
  refine admissible_spec.bind fun _ w₈ _ _ => within_pure ⟨now, ?_⟩
  rw [← hp, hprev, h₅.fence, h₄.fence, h₃.fence, h₂.fence, h₁.fence]

/-- The writes of a request, between the worlds before and after them. -/
def Mutates (r : Request) (w w' : World Fence) : Prop :=
  match r.operation with
  | .open => ∃ new, Opens (BitVec.ofNat 32 r.expiresUnixSeconds) new ∧ w'.ran = w.ran ++ new
  | .seal => ∃ new, Retires new ∧ w'.ran = w.ran ++ new
  | .revoke => w'.enabled = false

theorem mutate_spec (w : World Fence) :
    (host Fence).Within Frame (mutate r) (fun _ w' => Mutates r w w') w := by
  unfold mutate Mutates
  split
  · exact install_spec (disableLocked_spec marker)
  · exact retire_spec
  · exact (disableLocked_spec marker).bind fun _ w₁ _ h₁ => within_pure h₁.closed

/-- A deadline that the account database has shown is not truncated. -/
def Fits (r : Request) : Prop := r.operation ≠ .revoke → r.expiresUnixSeconds < 2 ^ 32

theorem converged_spec {completed : Fence} (w : World Fence) :
    (host Fence).Within Reads (converged r completed) (fun _ _ => Fits r) w := by
  unfold converged
  split
  · rename_i ho
    exact within_pure fun hne => absurd ho hne
  · refine bound_spec.bind fun actual w₁ _ _ => ?_
    refine within_check_bind fun h => ?_
    simp only [Bool.and_eq_true, beq_iff_eq] at h
    have hfits : r.expiresUnixSeconds < 2 ^ 32 := h.2 ▸ actual.expiresUnixSeconds.isLt
    exact now_spec.bind fun now w₂ _ _ => within_check fun _ _ => hfits

theorem backed_of_mutates (hp : Planned stored r p) (hnew : p.observeOnly = false)
    (hold : ∀ f, stored = some f → f.Live → Backed f older) (hran : w.ran = [])
    (hm : Mutates r w w') (hfits : Fits r) (hl : p.completed.Live) :
    Backed p.completed (⟨p.completed, w'.ran⟩ :: ⟨p.pending, []⟩ :: older) := by
  unfold Mutates at hm
  cases hp with
  | opens ho =>
    simp only [ho] at hm
    obtain ⟨new, hnew, hran'⟩ := hm
    rw [hran', hran, List.nil_append]
    refine .opened (f := r.fence .open) rfl ?_ hnew
    exact Nat.mod_eq_of_lt (hfits (by simp [ho]))
  | seals ho hs =>
    simp only [ho] at hm
    obtain ⟨new, hnew, hran'⟩ := hm
    rw [hran', hran, List.nil_append]
    exact .sealed (f := r.fence .sealed) rfl hnew (hold _ hs (.inl rfl))
  | observes => cases hnew
  | revokes => rcases hl with h | h <;> cases h

theorem duty (hp : Planned stored r p) (hnew : p.observeOnly = false)
    (hold : ∀ f, stored = some f → f.Live → Backed f older) :
    (platform Fence.validate).Duty discipline older p.pending p.completed (revocation r)
      (mutate r) (converged r p.completed) (closeLogin Fence.validate (revocation r))
      Reads (Mutates r) (fun _ => Fits r) where
  dormant := not_live_pending hp
  reserved := revokes_of_eq hp
  mutates := mutate_spec
  converges := converged_spec
  closes := closeLogin_spec (not_live_revoked _)
  reads _ _ hr := ⟨hr.toFrame, hr.ran⟩
  backed _ _ _ hran hm hfits hl := backed_of_mutates hp hnew hold hran hm hfits hl

theorem apply_spec (name : String) (r : Request) (hc : Consistent discipline w) (hran : w.ran = [])
    (hnone : w.persisted = []) :
    (host Fence).Within (Keeping (Consistent discipline)) (apply name r)
      (fun _ w' => r.operation = .revoke → w'.enabled = false) w := by
  refine (kept accept_spec).bind fun p w' hk h => ?_
  obtain ⟨hr, now, hplan⟩ := h
  have hp := planned_of_plan hplan
  have hc' := hk hc
  rw [revoked_pending hp]
  refine carry_answers hc' (hr.ran.trans hran) (hr.persisted.trans hnone)
    (fun hnew => duty hp hnew fun f hf => hc' f (hr.fence.trans hf)) (fun ho => ?_)
    fun ho _ _ hm => ?_
  · cases hp <;> simp_all
  · simpa only [Mutates, ho] using hm

theorem cleaned_of_error {cs : List Choice} {e : IoError} {g : Fence} (hnone : w.persisted = [])
    (hrun : (host Fence).run (apply name r) w cs = (w', some (.error e)))
    (hstored : (g, true) ∈ w'.persisted) : ∃ w₁ cs₁ x, cs₁ <:+ cs ∧
      (host Fence).run (closeLogin Fence.validate (revocation r)) w₁ cs₁ = (w', some x) ∧
        Cleaned (revocation r) cs₁ w₁ w' := by
  obtain ⟨_, -, hfail⟩ | ⟨p, w₀, cs₀, hcs₀, haccept, hcarry⟩ := run_bind hrun
  · simp [(Ensures.of_run accept_spec hfail).1.persisted, hnone] at hstored
  obtain ⟨hreads, hadmits⟩ := Ensures.of_run accept_spec haccept
  obtain ⟨now, hplan⟩ := hadmits _ rfl
  rw [revoked_pending (planned_of_plan hplan)] at hcarry
  obtain ⟨w₁, cs₁, x, hcs₁, hclean⟩ :=
    carry_cleans (validate_revocation (plan_eq_ok_iff.mp hplan).1)
      (hreads.persisted.trans hnone) hcarry hstored
  exact ⟨w₁, cs₁, x, hcs₁.trans hcs₀, hclean⟩

def Kept (w : World Fence) : Prop := ∀ f, w.fence = some f → f.loginLive w.clock = true

theorem lifecycleOf_spec {sid : Option String} : (host Fence).Within Frame (lifecycleOf name sid)
      (fun f w' => Reads w w' ∧ (sid ≠ none → f = w'.fence)) w := by
  cases sid with
  | none => exact within_pure ⟨refl w, by simp⟩
  | some sid =>
    refine (framed readFence_spec.attempt).bind fun stored w₁ _ h₁ => ?_
    cases stored with
    | ok f => exact within_pure ⟨h₁.1, fun _ => (h₁.2 f rfl).trans h₁.1.fence.symm⟩
    | error e =>
      exact (disableLocked_spec marker).bind fun _ w₂ _ _ => within_lift (by simp)

theorem kept_of_inWindow {lifecycle : Option Fence} {a : LocalAccount}
    (h : inWindow lifecycle w.clock a = true) (hl : w.sid ≠ none → lifecycle = w.fence) :
    w.enabled = true → Kept w := by
  intro he f hf
  obtain ⟨b, -, hsid, -⟩ := enabled_iff.mp he
  simp only [inWindow, Bool.and_eq_true, hl (by simp [hsid]), hf, Option.all_some] at h
  exact h.2.1

theorem recorded_spec :
    (host Fence).Within Reads (recorded name) (fun x w' => w'.sid = x.1.sid) w := by
  refine validate_spec.bind fun _ w₁ _ _ => (ask_spec .gate trivial).bind fun _ w₂ _ _ =>
    (ask_spec .key trivial).bind fun _ w₃ _ _ => record_spec.bind fun record w₄ _ hrec => ?_
  refine within_demand_bind ?_
  rintro pending rfl
  refine account_spec.bind fun actual w₅ h₅ _ => within_check_bind fun _ => ?_
  refine within_pure ?_
  rw [h₅.sid, World.sid, hrec, Option.bind_some]

theorem expire_spec (name : String) : (host Fence).Within (Keeping (Consistent discipline))
    (expire name) (fun _ w' => w'.enabled = true → Kept w') w := by
  refine (kept recorded_spec).bind fun x w₁ _ h₁ => ?_
  refine (lifecycleOf_spec.widen fun _ hr hc => hc.frame hr).bind fun lifecycle w₂ _ h₂ => ?_
  obtain ⟨-, hr₂, hl⟩ := h₂
  refine (kept now_spec).bind fun now w₃ _ h₃ => ?_
  obtain ⟨hr₃, hnow⟩ := h₃
  split
  · rename_i hwindow
    obtain ⟨a, -, ha⟩ := (Option.any_eq_true _ _).mp hwindow
    refine within_pure (kept_of_inWindow (hnow ▸ ha) fun hne => ?_)
    rw [hl (by rwa [← h₁.2, ← hr₂.sid, ← hr₃.sid]), hr₃.fence]
  · cases lifecycle with
    | none => exact disable_sweeps marker (.ok true)
    | some f => exact revoke_sweeps marker (not_live_revoked f)

end Calls

/-! ## Runs -/

inductive Call
  | apply (r : Request)
  | expire

/-- The world after a call, which has crashed if it ran out of choices. -/
def Call.exec (name : String) (w : World Fence) (cs : List Choice) : Call → World Fence
  | .apply r => ((host Fence).run (WindowsLease.apply name r) w.begin cs).1
  | .expire => ((host Fence).run (WindowsLease.expire name) w.begin cs).1

theorem consistent_exec {name : String} {w : World Fence} (hc : Consistent discipline w)
    (call : Call) (cs : List Choice) : Consistent discipline (call.exec name w cs) := by
  cases call with
  | apply r => exact (apply_spec name r hc.begin rfl rfl cs).1 hc.begin
  | expire => exact (expire_spec name cs).1 hc.begin

end VcWorkspace.Session.WindowsLease
