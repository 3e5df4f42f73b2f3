import VcWorkspace.Session.LinuxAccount

/-! # The fence of an account on Linux

The record of an account as a durable fence. A sweep revokes every fence that
is not live together with its account, and closes the account; an account that
never had a fence is closed anyway.
-/

namespace VcWorkspace.Session.LinuxAccount

open Transition Guest Handler

variable {F : Type}

section Programs

variable (validate : F → Except IoError Unit)

def closeAccount (a : Account) (revoked : F) : Linux F Unit :=
  closeWith (persist validate) revoked (disable a)

def expire (a : Account) (revoked : F) : Except IoError Unit → Linux F Unit
  | .ok () => pure ()
  | .error _ => do
    persist validate revoked
    disable a

def reconcileFence (a : Account) (liveState : F → Linux F Unit) (revoked : F → F)
    (missing : Linux F Unit) : Except IoError (Option F) → Linux F Unit
  | .ok none => missing
  | .ok (some f) => do
    let live ← (liveState f).attempt
    expire validate a (revoked f) live
  | .error e => do
    let _ ← (disable a).attempt
    .lift (.error e)

end Programs

/-! ## What the record says about the account -/

def platform (username : String) (validate : F → Except IoError Unit) :
    Platform (Effect F) Effect.Answer IoError (World F) Choice F Ran where
  host := host F username
  ledger := World.ledger
  store := persist validate
  Valid f := validate f = .ok ()
  Frame := Frame username
  Write := Persists username
  frame_keeps _ _ h := ⟨h.fence, h.history, h.persisted⟩
  write_stores _ _ _ h := h.stores
  store_spec f _ := (persist_spec validate f).post fun _ _ _ h => ⟨h.1, h.2.1, h.2.2⟩
  store_tries f _ := persist_tries validate f

variable {D : Discipline F Ran} {username : String} {validate : F → Except IoError Unit}
  {w w' : World F} {a : Account} {f revoked : F}

/-- What holds of the record and the account after any sequence of calls and crashes. -/
structure Consistent (D : Discipline F Ran) (username : String) (w : World F) : Prop where
  backed : ∀ f, w.fence = some f → D.Live f → D.Backed f w.history
  closed : w.fence = none → w.Closed username

theorem Same.trans {w'' : World F} (h : Same username w w') (h' : Same username w' w'') :
    Same username w w'' :=
  ⟨fun hp => h.1 (h'.1 hp), h'.2.trans h.2, h'.3.trans h.3, h'.4.trans h.4, h'.5.trans h.5⟩

theorem Consistent.begin (h : Consistent D username w) : Consistent D username w.begin :=
  ⟨h.backed, h.closed⟩

theorem Consistent.reads (h : Consistent D username w) (hr : Reads username w w') :
    Consistent D username w' :=
  ⟨fun f hf hl => by rw [hr.history]; exact h.backed f (by rw [← hr.fence, hf]) hl,
    fun hn => (h.closed (by rw [← hr.fence, hn])).mono hr.present hr.shadow⟩

theorem Consistent.frame (h : Consistent D username w) (hs : w.fence ≠ none)
    (hr : Frame username w w') : Consistent D username w' :=
  ⟨fun f hf hl => by rw [hr.history]; exact h.backed f (by rw [← hr.fence, hf]) hl,
    fun hn => absurd (by rw [← hr.fence, hn]) hs⟩

theorem Persists.closed (h : Persists username f w w') (hw : w.fence = none → w.Closed username)
    (hn : w'.fence = none) : w'.Closed username := by
  rcases h.stores.stored with ⟨hfence, -⟩ | ⟨hfence, -⟩
  · exact (hw (hfence.symm.trans hn)).mono h.present h.shadow
  · cases hfence.symm.trans hn

theorem Consistent.persists (h : Consistent D username w) (hf : ¬ D.Live f)
    (hr : Persists username f w w') : Consistent D username w' :=
  ⟨Platform.Consistent.stores (M := platform username fun _ => .ok ()) h.backed hf hr.stores,
    hr.closed h.closed⟩

theorem Consistent.leaves (h : Consistent D username w) {pending completed : F} {observeOnly : Bool}
    {R P : World F → World F → Prop} {Q : World F → Prop} {o : Option (Except IoError F)}
    (hl : (platform username validate).Leaves D pending completed revoked observeOnly R P Q w w'
      o) :
    Consistent D username w' := by
  refine ⟨hl.consistent, fun hn => ?_⟩
  rcases hl.early hn with rfl | hr
  · exact h.closed hn
  · exact Persists.closed hr h.closed hn

/-! ## What the programs do -/

section Calls

theorem disable_frame (ha : a.username = username) (w : World F) :
    (host F username).Within (Frame username) (disable a) (fun _ _ => True) w :=
  (disable_spec ha).post fun _ _ _ _ => trivial

theorem closeAccount_spec (ha : a.username = username) (hrev : ¬ D.Live revoked) (w : World F) :
    (host F username).Within (Keeping ((platform username validate).Safe D revoked))
      (closeAccount validate a revoked) (fun _ _ => True) w :=
  Platform.closeWith_spec (M := platform username validate) hrev (disable_frame ha) w

theorem closeAccount_tries (hv : validate revoked = .ok ()) (w : World F) :
    (host F a.username).Ends (closeAccount validate a revoked) w
      ((platform a.username validate).Tried revoked w) :=
  Platform.closeWith_tries (M := platform a.username validate) hv (disable_frame rfl) w

theorem closeAccount_stores (hv : validate revoked = .ok ()) (w : World F) :
    ((host F a.username).only fun c => c.error = none).Ends (closeAccount validate a revoked) w
      fun w' => w'.fence = some revoked := by
  have hclose := Platform.closeWith_stores (M := platform a.username validate)
    (Q := fun _ => True) (persist_succeeds (fun _ hc => hc) hv) (disable_frame rfl)
    (fun _ _ _ => trivial) w
  exact fun cs hend => (hclose cs hend).1

/-- A clean-up tries to store the revoked fence. If nothing fails it stores it, and it closes the
login if also the identity of the account is as recorded. -/
structure Cleaned (a : Account) (revoked : F) (cs : List Choice) (w w' : World F) : Prop where
  tried : ∃ ok, w'.persisted = w.persisted ++ [(revoked, ok)] ∧
    (ok = true → w'.fence = some revoked)
  stored : (∀ c ∈ cs, c.error = none) → w'.fence = some revoked
  closed : (∀ c ∈ cs, Undisturbed a c) → w'.loginDisabled a.username = true

theorem closeAccount_cleans (hv : validate revoked = .ok ()) {cs : List Choice}
    {x : Except IoError Unit}
    (h : (host F a.username).run (closeAccount validate a revoked) w cs = (w', some x)) :
    Cleaned a revoked cs w w' := by
  refine ⟨(closeAccount_tries hv w).of_run h, fun hcs => (closeAccount_stores hv w).of_only hcs h,
    fun hcs => ?_⟩
  have hclose := Platform.closeWith_stores (M := platform a.username validate)
    (persist_succeeds (fun _ hc => hc.1) hv) (disable_frame rfl) disable_undisturbed w
  exact (hclose.of_only hcs h).2.loginDisabled

/-- Every command that ended processes came after an attempt to store the revoked fence. -/
def Announced (revoked : F) (w : World F) : Prop :=
  (∀ x ∈ w.ran, x.command.terminates = false) ∨ ∃ ok, (revoked, ok) ∈ w.persisted

theorem announced_of_reads (h : Reads username w w') (hw : Announced revoked w) :
    Announced revoked w' :=
  hw.imp (fun hn => by rw [h.ran]; exact hn) fun hm => by rw [h.persisted]; exact hm

theorem announced_of_persists (h : Persists username f w w') (hw : Announced revoked w) :
    Announced revoked w' :=
  hw.imp (fun hn => by rw [h.ran]; exact hn) fun ⟨ok, hm⟩ => ⟨ok, h.stores.mem hm⟩

def Effect.Gentle : Effect F → Prop
  | .persist _ => False
  | .run c => c.terminates = false
  | _ => True

theorem gentle_of_passive (e : Effect F) (he : e.Passive) : e.Gentle := by
  cases e <;> first | exact he.elim | trivial

theorem announced_of_gentle {α : Type} {q : Linux F α} (hq : q.Asks Effect.Gentle) (w : World F) :
    (host F username).Within (Keeping (Announced revoked)) q (fun _ _ => True) w := by
  refine Host.within_of_asks (fun _ _ hw => hw) (fun c applied ok w e he _ hw => ?_) hq w
  cases e with
  | persist f => exact he.elim
  | run cmd =>
    refine hw.imp_left fun hn x hx => ?_
    rcases List.mem_append.mp hx with hx | hx
    · exact hn x hx
    · rw [List.mem_singleton.mp hx]
      exact he
  | _ => exact hw

theorem closeAccount_announces (ha : a.username = username) (hv : validate revoked = .ok ())
    (w : World F) : (host F username).Within (Keeping (Announced revoked))
      (closeAccount validate a revoked) (fun _ _ => True) w := by
  refine ensures_bind (ensures_attempt ((Ensures.and (persist_spec validate revoked)
    (persist_tries validate revoked)).mono fun w₁ o h => ?_))
  cases o with
  | none => exact ⟨announced_of_persists h.1.1, by simp⟩
  | some x =>
    have hmem := (h.2 x rfl).resolve_left fun hn => hn.1 hv
    have hkeep : ∀ w', Frame username w₁ w' → Keeping (Announced revoked) w w' :=
      fun w' hf _ => .inr ⟨x.isOk, by simp [hf.persisted, hmem]⟩
    have hshut : (host F username).Ensures ((disable a).attempt >>= fun _ => pure ()) w₁
        fun w' o => Keeping (Announced revoked) w w' ∧ ∀ u, o = some (.ok u) → True := by
      refine (disable_spec ha).attempt.ensures_bind
        (fun w' hf => ⟨⟨hkeep w' hf, by simp⟩, fun _ => ⟨hkeep w' hf, by simp⟩⟩) fun _ w' hf _ => ?_
      exact ensures_done.mpr ⟨hkeep w' hf, fun _ _ => trivial⟩
    exact hshut

/-- The login is closed, or a fence that matches the account covers it. -/
def Covered (username : String) (Matches : F → World F → Prop) (w : World F) : Prop :=
  w.Closed username ∨ ∃ f, w.fence = some f ∧ Matches f w

theorem kept {α : Type} {p : Linux F α} {Q : α → World F → Prop}
    (h : (host F username).Within (Reads username) p Q w) :
    (host F username).Within (Keeping (Consistent D username)) p
      (fun x w' => Reads username w w' ∧ Q x w') w :=
  h.widen fun _ hr hc => hc.reads hr

variable {Matches : F → World F → Prop} {liveState : F → Linux F Unit}
  {missing : Except IoError Unit}

theorem expire_spec (ha : a.username = username) (hf : w.fence = some f) (hrev : ¬ D.Live revoked)
    {live : Except IoError Unit} (hlive : ∀ u, live = .ok u → Matches f w) :
    (host F username).Within (Keeping (Consistent D username)) (expire validate a revoked live)
      (fun _ => Covered username Matches) w := by
  cases live with
  | ok u => exact within_pure (.inr ⟨f, hf, hlive u rfl⟩)
  | error e =>
    refine ((persist_spec _ _).widen fun _ hr hc => hc.persists hrev hr).bind fun _ w₁ _ h₁ => ?_
    exact (disable_spec ha).mono (fun _ hr hc => hc.frame (by simp [h₁.2.1]) hr)
      fun _ _ _ h₂ => .inl h₂.closed

theorem reconcileFence_spec (ha : a.username = username) (hc : Consistent D username w)
    {revoke : F → F} (hlive : ∀ f w, (host F username).Within (Reads username) (liveState f)
      (fun _ w' => Matches f w') w)
    (hrev : ∀ f, ¬ D.Live (revoke f)) {stored : Except IoError (Option F)}
    (hs : ∀ f, stored = .ok f → f = w.fence) :
    (host F username).Within (Keeping (Consistent D username))
      (reconcileFence validate a liveState revoke (.lift missing) stored)
      (fun _ => Covered username Matches) w := by
  match stored with
  | .ok none => exact within_lift fun _ _ => .inl (hc.closed (hs none rfl).symm)
  | .ok (some f) =>
    refine (kept (hlive f w).attempt).bind fun live w₁ _ h₁ => ?_
    exact expire_spec ha (h₁.1.fence.trans (hs _ rfl).symm) (hrev f) h₁.2
  | .error e =>
    refine (((disable_spec ha).and (closes_keeps disable_asks w)).mono (fun w' h hc => ?_)
      fun _ _ _ h => h).attempt.bind fun _ _ _ _ => within_lift nofun
    -- Without a readable fence there may be none, so closing must not open the account.
    by_cases hn : w.fence = none
    · exact ⟨fun f hf => by simp [h.1.fence, hn] at hf, fun _ => h.2 (hc.closed hn)⟩
    · exact hc.frame hn h.1

/-- A reconciliation of a known account, from taking the gate of new logins on. -/
theorem reconcileLocked_spec (ha : a.username = username) (hc : Consistent D username w)
    {owner : F → AccountIdentity} {revoke : F → F}
    (hlive : ∀ f w, (host F username).Within (Reads username) (liveState f)
      (fun _ w' => Matches f w') w)
    (hrev : ∀ f, ¬ D.Live (revoke f)) :
    (host F username).Within (Keeping (Consistent D username)) (do
      ask .birthLock
      let stored ← (readFence (parseRecord validate owner a)).attempt
      reconcileFence validate a liveState revoke (.lift missing) stored)
      (fun _ => Covered username Matches) w := by
  refine (kept (ask_spec .birthLock trivial)).bind fun _ w₁ hk₁ _ => ?_
  refine (kept readFence_spec.attempt).bind fun stored w₂ hk₂ h₂ => ?_
  exact reconcileFence_spec ha (hk₂ (hk₁ hc)) hlive hrev
    fun f hf => (h₂.2 f hf).trans h₂.1.fence.symm

theorem sweep_spec {reconcile : Linux F Unit} (hc : Consistent D username w)
    (hr : ∀ {w}, Consistent D username w → (host F username).Within
      (Keeping (Consistent D username)) reconcile (fun _ => Covered username Matches) w) :
    (host F username).Within (Keeping (Consistent D username)) (do
      let found ← ask .snapshot
      if found then reconcile else pure ()) (fun _ => Covered username Matches) w := by
  refine (kept (ask_spec .snapshot trivial)).bind fun found w₁ hk h₁ => ?_
  obtain ⟨-, c, hx⟩ := h₁
  have hx : w₁.fence.isSome = found := Except.ok.inj hx
  cases found with
  | true => exact hr (hk hc)
  | false => exact within_pure (.inl ((hk hc).closed (by simpa using hx)))

end Calls

end VcWorkspace.Session.LinuxAccount
