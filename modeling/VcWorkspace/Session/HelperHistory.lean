import VcWorkspace.Session.Helper

/-! # An action is carried out at most once

A reservation is kept until its deadline, and an action passes no check after
its deadline; so the worker of an action is never started again, as long as the
clock does not go back and every Helper draws a new instance.
-/

namespace VcWorkspace.Session.Helper

open Transition Guest Handler List Option

variable {ν ρ V : Type} {wire : Wire ν ρ V} {os : Os} {w w' : World ρ V} {key : SessionKey}
  {a : BoundAction ρ} {request : Request}

/-! ## What every message keeps -/

/-- A worker and an earlier one of the same session and identifier: the deadline of the earlier
action had passed, and it was another action. -/
def Follows (newer older : Worker ρ) : Prop :=
  older.action.target = newer.action.target → older.request.requestId = newer.request.requestId →
    older.request.expiresUnixMs ≤ newer.time ∧ older.action ≠ newer.action

structure Inv (wire : Wire ν ρ V) (w : World ρ V) : Prop where
  bounded : w.replies.Bounded
  running : ∀ key, w.key = some key → key.instanceId ∈ w.instances
  known : ∀ x ∈ w.workers, x.action.target.instanceId ∈ w.instances
  carried : ∀ x ∈ w.workers, wire.fromValue x.action.request = some x.request
  reserved : ∀ x ∈ w.workers, w.key = some x.action.target → x.request.expiresUnixMs ≤ w.clock ∨
    w.replies.Holds x.request.requestId x.request.expiresUnixMs
  follows : w.workers.Pairwise Follows

structure Quiet (w w' : World ρ V) : Prop where
  key : w'.key = w.key
  instances : w'.instances = w.instances
  sent : w'.sent = w.sent
  clock : w.clock ≤ w'.clock
  checks : w.checks ⊆ w'.checks
  replies : w'.replies = w.replies
  workers : w'.workers = w.workers

structure Keeps (wire : Wire ν ρ V) (w w' : World ρ V) : Prop where
  key : w'.key = w.key
  instances : w'.instances = w.instances
  sent : w'.sent = w.sent
  clock : w.clock ≤ w'.clock
  checks : w.checks ⊆ w'.checks
  inv : Inv wire w → Inv wire w'

instance : IsPreorder (World ρ V) Quiet where
  refl _ := ⟨rfl, rfl, rfl, le_rfl, fun _ h => h, rfl, rfl⟩
  trans _ _ _ h h' := ⟨h'.key.trans h.key, h'.instances.trans h.instances, h'.sent.trans h.sent,
    h.clock.trans h'.clock, fun _ hc => h'.checks (h.checks hc), h'.replies.trans h.replies,
    h'.workers.trans h.workers⟩

instance : IsPreorder (World ρ V) (Keeps wire) where
  refl _ := ⟨rfl, rfl, rfl, le_rfl, fun _ h => h, fun h => h⟩
  trans _ _ _ h h' := ⟨h'.key.trans h.key, h'.instances.trans h.instances, h'.sent.trans h.sent,
    h.clock.trans h'.clock, fun _ hc => h'.checks (h.checks hc), fun hi => h'.inv (h.inv hi)⟩

theorem Quiet.keeps (h : Quiet w w') : Keeps wire w w' where
  key := h.key
  instances := h.instances
  sent := h.sent
  clock := h.clock
  checks := h.checks
  inv hi := by
    refine ⟨?_, ?_, ?_, ?_, ?_, ?_⟩
    · exact h.replies ▸ hi.bounded
    · rw [h.key, h.instances]
      exact hi.running
    · rw [h.workers, h.instances]
      exact hi.known
    · rw [h.workers]
      exact hi.carried
    · rw [h.workers, h.key, h.replies]
      exact fun x hx hk => (hi.reserved x hx hk).imp_left fun hd => hd.trans h.clock
    · rw [h.workers]
      exact hi.follows

/-- The identifier of a request is reserved, and whatever used it before is over. -/
structure Fresh (w : World ρ V) (key : SessionKey) (request : Request) : Prop where
  holds : w.replies.Holds request.requestId request.expiresUnixMs
  past : ∀ x ∈ w.workers, x.action.target = key → x.request.requestId = request.requestId →
    x.request.expiresUnixMs ≤ w.clock ∧ x.request.expiresUnixMs < request.expiresUnixMs

theorem Fresh.quiet (h : Fresh w key request) (hq : Quiet w w') : Fresh w' key request := by
  refine ⟨hq.replies ▸ h.holds, fun x hx ht hid => ?_⟩
  obtain ⟨hc, he⟩ := h.past x (hq.workers ▸ hx) ht hid
  exact ⟨hc.trans hq.clock, he⟩

/-! ## The effects -/

theorem authorize_deadline {x : Reading} (h : authorize wire.codec os key request x = .ok ()) :
    x.now₂ < request.expiresUnixMs := by
  cases os with
  | linux =>
    obtain ⟨raw, -, hcheck⟩ := bind_eq_ok.mp (mapError_eq_ok.mp h)
    split at hcheck
    · cases hcheck
    · simp only [seq_eq_ok, ensure_eq_ok, Bool.and_eq_true, decide_eq_true_eq] at hcheck
      exact hcheck.1.2
  | windows =>
    simp only [authorize] at h
    split at h
    · cases h
    · obtain ⟨h, -⟩ := seq_eq_ok.mp h
      obtain ⟨r, -, h⟩ := bind_eq_ok.mp h
      simp only [ensure_eq_ok, Bool.and_eq_true, decide_eq_true_eq] at h
      exact h.2

theorem now_spec : (host wire os).Within Quiet (ask .now)
    (fun t w' => w.clock ≤ t ∧ t = w'.clock) w := by
  refine within_perform (fun c => ?_) fun c t ht => ?_
  · exact ⟨rfl, rfl, rfl, by simp [host], fun _ h => h, rfl, rfl⟩
  · cases ht
    exact ⟨by simp, rfl⟩

def Passed (wire : Wire ν ρ V) (os : Os) (key : SessionKey) (request : Request) (since : ℤ)
    (checks : List Check) : Prop :=
  ∃ c ∈ checks, c.key = key ∧ c.request = request ∧ since ≤ c.reading.now₁ ∧
    c.reading.now₂ < request.expiresUnixMs ∧
    authorize wire.codec os key request c.reading = .ok ()

theorem authorize_spec : (host wire os).Within Quiet (ask (.authorize key request))
    (fun _ w' => Passed wire os key request w.clock w'.checks) w := by
  refine within_perform (fun c => ?_) fun c t ht => ?_
  · simp only [host]
    split
    · exact ⟨rfl, rfl, rfl, by simp only [World.read]; omega, fun _ h => mem_cons_of_mem _ h,
        rfl, rfl⟩
    · exact ⟨rfl, rfl, rfl, by simp only [World.read]; omega, fun _ h => h, rfl, rfl⟩
  · simp only [host] at ht ⊢
    split at ht
    · rename_i hok
      refine ⟨_, mem_cons_self, rfl, rfl, ?_, authorize_deadline hok, hok⟩
      simp only [World.read]
      omega
    · cases ht

theorem collect_spec : (host wire os).Within Quiet (ask .collect) (fun _ _ => True) w := by
  refine within_perform (fun c => ?_) fun _ _ _ => trivial
  simp only [host]
  split <;> exact ⟨rfl, rfl, rfl, by simp, fun _ h => h, rfl, rfl⟩

theorem complete_spec {id : String} {v : V} :
    (host wire os).Within (Keeps wire) (ask (.complete id v)) (fun _ _ => True) w := by
  refine within_perform (fun c => ?_) fun _ _ _ => trivial
  refine ⟨rfl, rfl, rfl, by simp [host], fun _ h => h, fun hi => ?_⟩
  refine ⟨hi.bounded.complete, hi.running, hi.known, hi.carried, fun x hx hk => ?_, hi.follows⟩
  rcases hi.reserved x hx hk with hd | hd
  · exact .inl (hd.trans (by simp [host]))
  · exact .inr hd.complete

/-- What is begun was not held, and everything that used its identifier is over. -/
theorem begin_spec {fingerprint : List UInt8} {now : ℤ} (hi : Inv wire w) (hk : w.key = some key)
    (hnow : now = w.clock) : (host wire os).Within (Keeps wire)
      (ask (.begin request.requestId fingerprint request.expiresUnixMs now))
      (fun r w' => r = .ok none → Fresh w' key request) w := by
  refine within_perform (fun c => ?_) fun c r hr hnone => ?_
  · refine ⟨rfl, rfl, rfl, by simp [host], fun _ h => h, fun hi => ?_⟩
    refine ⟨hi.bounded.begin rfl, hi.running, hi.known, hi.carried, fun x hx hk => ?_, hi.follows⟩
    rcases hi.reserved x hx hk with hd | hd
    · exact .inl (hd.trans (by simp [host]))
    · rcases le_or_gt x.request.expiresUnixMs now with hle | hlt
      · exact .inl (hle.trans (by simp [host, hnow]))
      · exact .inr (hd.begin hlt rfl)
  · subst hnone
    have hbegin : w.replies.begin request.requestId fingerprint request.expiresUnixMs now =
        ((w.replies.begin request.requestId fingerprint request.expiresUnixMs now).1, .ok none) :=
      Prod.ext rfl (Except.ok.inj hr)
    obtain ⟨-, hne, -⟩ | ⟨hlive, hnew, -, hc, -⟩ := ReplayCache.begin_cases hbegin
    · exact absurd rfl hne
    refine ⟨⟨⟨fingerprint, request.expiresUnixMs, none, 0⟩, ?_, rfl⟩, fun x hx ht hid => ?_⟩
    · simp only [host, hc]
      exact mem_cons_self
    · have hpast : x.request.expiresUnixMs ≤ now := by
        rcases hi.reserved x hx (ht ▸ hk) with hd | hd
        · exact hnow ▸ hd
        · exact not_lt.mp fun hlt => hnew _ (hid ▸ hd.retain hlt)
      exact ⟨hpast.trans (by simp [host, hnow]), hpast.trans_lt hlive⟩

theorem spawn_spec (hk : w.key = some key) (ht : a.target = key)
    (hp : wire.fromValue a.request = some request) (hf : Fresh w key request) :
    (host wire os).Within (Keeps wire) (ask (.spawn a request)) (fun _ _ => True) w := by
  have hstart : ∀ n : ℕ, Keeps wire w ({ w with clock := w.clock + n }.start a request) := by
    intro n
    refine ⟨rfl, rfl, rfl, by simp [World.start], fun _ h => h, fun hi => ?_⟩
    refine ⟨hi.bounded, hi.running, ?_, ?_, ?_, ?_⟩
    · rintro x (_ | ⟨_, hx⟩)
      · exact hi.running _ (ht ▸ hk)
      · exact hi.known x hx
    · rintro x (_ | ⟨_, hx⟩)
      · exact hp
      · exact hi.carried x hx
    · rintro x (_ | ⟨_, hx⟩) hxk
      · exact .inr hf.holds
      · exact (hi.reserved x hx hxk).imp_left fun hd => hd.trans (by simp [World.start])
    · refine pairwise_cons.mpr ⟨fun x hx hxt hid => ?_, hi.follows⟩
      obtain ⟨hpast, hlt⟩ := hf.past x hx (hxt.trans ht) hid
      refine ⟨hpast.trans (by simp), ?_⟩
      rintro rfl
      have hsame := (hi.carried x hx).symm.trans hp
      exact absurd hlt (by simp [Option.some.inj hsame])
  have hwait : ∀ n : ℕ, Quiet w { w with clock := w.clock + n } := fun n =>
    ⟨rfl, rfl, rfl, by simp, fun _ h => h, rfl, rfl⟩
  refine within_perform (fun c => ?_) fun _ _ _ => trivial
  simp only [host]
  split
  · exact hstart c.wait
  · split
    · exact hstart c.wait
    · exact (hwait c.wait).keeps

/-! ## The two Helpers -/

theorem validateBinding_spec : (host wire os).Within Quiet (validateBinding wire os key a)
    (fun r _ => a.target = key ∧ wire.fromValue a.request = some r) w := by
  refine now_spec.bind fun now₁ w₁ _ _ => now_spec.bind fun now₂ w₂ _ _ => ?_
  refine within_lift fun r hr => ?_
  cases os with
  | linux => exact linuxBinding_ok hr
  | windows => exact windowsBinding_ok hr

namespace Linux

theorem isolatedAction_spec (hk : w.key = some key) (hp : wire.fromValue a.request = some request)
    (hf : Fresh w key request) :
    (host wire .linux).Within (Keeps wire) (isolatedAction wire key a) (fun _ _ => True) w := by
  refine (validateBinding_spec.widen fun _ h => h.keeps).bind fun r w₁ _ h₁ => ?_
  obtain ⟨hq₁, ht, hr⟩ := h₁
  cases hp.symm.trans hr
  refine (authorize_spec.widen fun _ h => h.keeps).bind fun _ w₂ _ h₂ => ?_
  have hq : Quiet w w₂ := IsTrans.trans _ _ _ hq₁ h₂.1
  refine (spawn_spec (hq.key.trans hk) ht hp (hf.quiet hq)).bind fun _ w₃ _ _ => ?_
  refine (collect_spec.widen fun _ h => h.keeps).bind fun result w₄ _ _ => ?_
  refine (authorize_spec.widen fun _ h => h.keeps).bind fun _ w₅ _ _ => ?_
  exact within_pure trivial

end Linux

namespace Windows

theorem isolatedAction_spec (hk : w.key = some key) (ht : a.target = key)
    (hp : wire.fromValue a.request = some request) (hf : Fresh w key request) :
    (host wire .windows).Within (Keeps wire) (isolatedAction a request) (fun _ _ => True) w := by
  refine (now_spec.widen fun _ h => h.keeps).bind fun now w₁ _ h₁ => ?_
  refine (within_lift (Q := fun _ w' => w' = w₁) fun _ _ => rfl).bind
    fun _ w₂ _ h₂ => ?_
  subst h₂
  refine (spawn_spec (h₁.1.key.trans hk) ht hp (hf.quiet h₁.1)).bind fun _ w₃ _ _ => ?_
  exact collect_spec.mono (fun _ h => h.keeps) fun _ _ _ _ => trivial

end Windows

def Checked (wire : Wire ν ρ V) (os : Os) (a : BoundAction ρ) (since : ℤ) (reply : Reply V)
    (checks : List Check) : Prop :=
  ∀ v, reply = .cached v → ∃ request, wire.fromValue a.request = some request ∧
    Passed wire os a.target request since checks

theorem Passed.mono {since since' : ℤ} {checks checks' : List Check}
    (h : Passed wire os key request since' checks) (hs : since ≤ since') (hc : checks ⊆ checks') :
    Passed wire os key request since checks' := by
  obtain ⟨c, hmem, hkey, hreq, hsince, hrest⟩ := h
  exact ⟨c, hc hmem, hkey, hreq, hs.trans hsince, hrest⟩

theorem linux_spec (hi : Inv wire w) (hk : w.key = some key) :
    (host wire .linux).Within (Keeps wire) (Linux.helper wire key a)
      (fun reply w' => Checked wire .linux a w.clock reply w'.checks) w := by
  refine (validateBinding_spec.widen fun _ h => h.keeps).bind fun request w₁ hw₁ h₁ => ?_
  obtain ⟨hq₁, ht, hp⟩ := h₁
  refine ((authorize_spec.attempt).widen fun _ h => h.keeps).bind fun authorized w₂ hw₂ h₂ => ?_
  split
  · exact within_pure nofun
  have hpassed := (h₂.2 _ rfl).mono hq₁.clock fun _ h => h
  refine (now_spec.widen fun _ h => h.keeps).bind fun now w₃ hw₃ h₃ => ?_
  have hw : Keeps wire w w₃ := IsTrans.trans _ _ _ hw₁ (IsTrans.trans _ _ _ hw₂ hw₃)
  refine (begin_spec (hw.inv hi) (hw.key.trans hk) h₃.2.2).bind fun begun w₄ hw₄ h₄ => ?_
  split
  · refine within_pure fun v _ => ⟨request, hp, ?_⟩
    rw [ht]
    exact hpassed.mono le_rfl fun _ hc => hw₄.checks (hw₃.checks hc)
  · refine (Linux.isolatedAction_spec (hw₄.key.trans (hw.key.trans hk)) hp (h₄ rfl)).attempt.bind
      fun outcome w₅ _ _ => complete_spec.bind fun _ w₆ _ _ => ?_
    exact within_pure nofun
  · exact within_pure nofun

theorem respond_spec (hk : w.key = some key) (ht : a.target = key)
    (hp : wire.fromValue a.request = some request) {begun : Option V}
    (hf : begun = none → Fresh w key request) :
    (host wire .windows).Within (Keeps wire) (Windows.respond wire a request begun)
      (fun _ _ => True) w := by
  cases begun with
  | some v => exact within_pure trivial
  | none =>
    refine (Windows.isolatedAction_spec hk ht hp (hf rfl)).attempt.bind fun _ w₁ _ _ => ?_
    exact within_pure trivial

theorem windows_spec (hi : Inv wire w) (hk : w.key = some key) :
    (host wire .windows).Within (Keeps wire) (Windows.handleAction wire key a)
      (fun reply w' => Checked wire .windows a w.clock reply w'.checks) w := by
  refine (validateBinding_spec.widen fun _ h => h.keeps).bind fun request w₁ hw₁ h₁ => ?_
  obtain ⟨hq₁, ht, hp⟩ := h₁
  refine (authorize_spec.widen fun _ h => h.keeps).bind fun _ w₂ hw₂ h₂ => ?_
  have hpassed := h₂.2.mono hq₁.clock fun _ h => h
  refine (now_spec.widen fun _ h => h.keeps).bind fun now w₃ hw₃ h₃ => ?_
  have hw : Keeps wire w w₃ := IsTrans.trans _ _ _ hw₁ (IsTrans.trans _ _ _ hw₂ hw₃)
  refine (begin_spec (hw.inv hi) (hw.key.trans hk) h₃.2.2).bind fun r w₄ hw₄ h₄ => ?_
  refine (within_lift (Q := fun x w' => w' = w₄ ∧ r = .ok x)
    fun _ h => ⟨rfl, mapError_eq_ok.mp h⟩).bind fun begun w₅ hw₅ h₅ => ?_
  obtain ⟨rfl, rfl⟩ := h₅
  refine (respond_spec (hw₄.key.trans (hw.key.trans hk)) ht hp fun h => h₄ (h ▸ rfl)).bind
    fun reply w₆ hw₆ _ => ?_
  refine (authorize_spec.widen fun _ h => h.keeps).bind fun _ w₇ hw₇ _ => ?_
  refine complete_spec.bind fun _ w₈ hw₈ _ => within_pure fun v _ => ?_
  refine ⟨request, hp, ht ▸ hpassed.mono le_rfl fun _ hc => ?_⟩
  exact hw₈.checks (hw₇.checks (hw₆.checks (hw₄.checks (hw₃.checks hc))))

theorem handle_spec (os : Os) (a : BoundAction ρ) (hi : Inv wire w) (hk : w.key = some key) :
    (host wire os).Within (Keeps wire) (handle wire os key a)
      (fun reply w' => Checked wire os a w.clock reply w'.checks) w := by
  cases os with
  | linux => exact linux_spec hi hk
  | windows => exact windows_spec hi hk

/-! ## Whole histories -/

section History

structure Sound (wire : Wire ν ρ V) (os : Os) (w : World ρ V) : Prop where
  inv : Inv wire w
  sent : ∀ x ∈ w.sent, Checked wire os x.action x.received x.reply x.checks

theorem Inv.stop (h : Inv wire w) : Inv wire w.stop where
  bounded := .nil
  running := by simp [World.stop]
  known := h.known
  carried := h.carried
  reserved := by simp [World.stop]
  follows := h.follows

theorem Inv.start (h : Inv wire w) (hnew : key.instanceId ∉ w.instances) : Inv wire { w with
      key := some key, instances := key.instanceId :: w.instances, replies := [] } where
  bounded := .nil
  running := by
    rintro k ⟨⟩
    exact mem_cons_self
  known x hx := mem_cons_of_mem _ (h.known x hx)
  carried := h.carried
  reserved := by
    rintro x hx hk
    cases hk
    exact absurd (h.known x hx) hnew
  follows := h.follows

theorem publish_ok [DecidableEq ρ] {username id : String}
    (h : publish wire w username id a = .ok w') : ∃ inbox, w' = { w with inbox := inbox } := by
  simp only [publish, bind_eq_ok] at h
  obtain ⟨-, -, -, -, r, -, h⟩ := h
  split at h
  · obtain ⟨-, -, h⟩ := bind_eq_ok.mp h
    exact ⟨w.inbox, (Except.ok.inj h).symm⟩
  · exact ⟨_, (Except.ok.inj h).symm⟩

theorem dispatch_ok {username id : String} (h : dispatch wire w username id = .ok w') :
    ∃ flight, w' = { w with flight := flight } := by
  simp only [dispatch, bind_eq_ok] at h
  obtain ⟨-, -, h⟩ := h
  split at h
  · cases h
  · obtain ⟨-, -, h⟩ := bind_eq_ok.mp h
    exact ⟨_, (Except.ok.inj h).symm⟩

theorem Sound.route (h : Sound wire os w) (inbox : List (String × BoundAction ρ))
    (flight : List (BoundAction ρ)) : Sound wire os { w with inbox := inbox, flight := flight } :=
  ⟨⟨h.inv.bounded, h.inv.running, h.inv.known, h.inv.carried, h.inv.reserved, h.inv.follows⟩,
    h.sent⟩

theorem Sound.deliver {choices : List (Choice V)} (h : Sound wire os w) (hk : w.key = some key) :
    let r := (host wire os).run (handle wire os key a) { w with checks := [] } choices
    Sound wire os (r.1.finish a w.clock r.2) := by
  have hi : Inv wire { w with checks := [] } :=
    ⟨h.inv.bounded, h.inv.running, h.inv.known, h.inv.carried, h.inv.reserved, h.inv.follows⟩
  obtain ⟨hkeeps, hreply⟩ := handle_spec os a hi hk choices
  intro r
  have hsent : ∀ x ∈ r.1.sent, Checked wire os x.action x.received x.reply x.checks := by
    rw [hkeeps.sent]
    exact h.sent
  have hr : Inv wire r.1 := hkeeps.inv hi
  unfold World.finish
  split
  · exact ⟨hr.stop, hsent⟩
  · exact ⟨hr, hsent⟩
  · rename_i reply ho
    refine ⟨⟨hr.bounded, hr.running, hr.known, hr.carried, hr.reserved, hr.follows⟩, ?_⟩
    rintro x (_ | ⟨_, hx⟩)
    · exact hreply reply ho
    · exact hsent x hx

theorem nodup_actions (h : Inv wire w) : (w.workers.map (·.action)).Nodup := by
  refine pairwise_map.mpr (h.follows.imp_of_mem ?_)
  intro newer older hn ho hfollows heq
  have hsame := (h.carried older ho).symm.trans (heq ▸ h.carried newer hn)
  have hid := congrArg Request.requestId (Option.some.inj hsame)
  exact (hfollows (heq ▸ rfl) hid).2 heq.symm

variable [DecidableEq ρ] {e : Event ρ V}

theorem sound_step (h : Sound wire os w) (hstep : step wire os w e = some w') :
    Sound wire os w' := by
  cases e with
  | wait n =>
    cases hstep
    have hq : Quiet w { w with clock := w.clock + n } :=
      ⟨rfl, rfl, rfl, by simp, fun _ h => h, rfl, rfl⟩
    exact ⟨hq.keeps.inv h.inv, h.sent⟩
  | start key =>
    obtain ⟨hnew, hstep⟩ := ite_none_left_eq_some.mp hstep
    cases hstep
    exact ⟨h.inv.start hnew, h.sent⟩
  | stop =>
    cases hstep
    exact ⟨h.inv.stop, h.sent⟩
  | publish username id a =>
    obtain ⟨-, hstep⟩ := ite_none_right_eq_some.mp hstep
    obtain ⟨inbox, rfl⟩ := publish_ok (toOption_eq_some.mp hstep)
    exact h.route inbox w.flight
  | cleanup id =>
    obtain ⟨-, hstep⟩ := ite_none_right_eq_some.mp hstep
    cases hstep
    exact h.route _ w.flight
  | dispatch username id =>
    obtain ⟨-, hstep⟩ := ite_none_right_eq_some.mp hstep
    obtain ⟨flight, rfl⟩ := dispatch_ok (toOption_eq_some.mp hstep)
    exact h.route w.inbox flight
  | send a =>
    obtain ⟨-, hstep⟩ := ite_none_right_eq_some.mp hstep
    cases hstep
    exact h.route w.inbox _
  | deliver a choices =>
    simp only [step] at hstep
    split at hstep
    · cases hstep
    · rename_i key hk
      obtain ⟨-, hstep⟩ := ite_none_right_eq_some.mp hstep
      cases hstep
      exact h.deliver hk

theorem sound_of_reachable (h : (machine wire os).Reachable w) : Sound wire os w := by
  refine h.invariant (P := Sound wire os) ?_ fun _ _ _ _ hs hstep => sound_step hs hstep
  rintro w ⟨hk, -, hr, hw, hs, -⟩
  refine ⟨⟨hr ▸ .nil, by simp [hk], by simp [hw], by simp [hw], by simp [hw], by simp [hw]⟩, ?_⟩
  simp [hs]

/-- No action is carried out twice, the cache stays within its bounds, and a cached result is sent
only after a check of its authority and deadline. -/
theorem at_most_once_input (h : (machine wire os).Reachable w) : (w.workers.map (·.action)).Nodup ∧
    (w.workers.Pairwise fun newer older => older.action.target = newer.action.target →
      older.request.requestId = newer.request.requestId →
        older.request.expiresUnixMs ≤ newer.time) ∧
    (∀ key a choices, w.key = some key →
      let w' := ((host wire os).run (handle wire os key a) { w with checks := [] } choices).1
      w'.replies.length ≤ 128 ∧ w'.replies.used ≤ 32 * 1024 * 1024) ∧
    ∀ x ∈ w.sent, ∀ v, x.reply = .cached v → ∃ request, wire.fromValue x.action.request =
      some request ∧ ∃ c ∈ x.checks, x.received ≤ c.reading.now₁ ∧
        c.reading.now₂ < request.expiresUnixMs ∧
        authorize wire.codec os x.action.target request c.reading = .ok () := by
  have hs := sound_of_reachable h
  refine ⟨nodup_actions hs.inv, hs.inv.follows.imp fun hf ht hid => (hf ht hid).1, ?_, ?_⟩
  · intro key a choices hk
    have hi : Inv wire { w with checks := [] } := ⟨hs.inv.bounded, hs.inv.running, hs.inv.known,
      hs.inv.carried, hs.inv.reserved, hs.inv.follows⟩
    have hb := ((handle_spec os a hi hk choices).1.inv hi).bounded
    exact ⟨hb.length, hb.used⟩
  · intro x hx v hv
    obtain ⟨request, hp, c, hc, -, -, hsince, hdeadline, hok⟩ := hs.sent x hx v hv
    exact ⟨request, hp, c, hc, hsince, hdeadline, hok⟩

end History

section Sample

def sampleWire : Wire Authority Request String where
  codec := tableCodec Linux.sampleTable
  fromValue := some
  fingerprint a := bytes (a.request.text.getD "")
  size v := some (bytes v).length
  failure _ message := message

def sampleAction (text : String) (expires : ℤ) : BoundAction Request :=
  ⟨2, Linux.sampleKey, 250, ⟨1, "action_aaaaaaaaaaaaaaaaaaaa", "lease_a", 1, expires, "type_text",
    none, none, none, none, some text⟩⟩

def sampleWorld : World Request String := ⟨100, none, [], [], [], [], [], [], []⟩

def sampleChoice : Choice String :=
  ⟨0, 0, some (Linux.sampleActive "lease_a" 1 none).encode, false, true, .ok (), none, false,
    "done"⟩

def samplePublish (a : BoundAction Request) : List (Event Request String) :=
  [.publish "vca0123456789ab" "action_aaaaaaaaaaaaaaaaaaaa" a,
    .dispatch "vca0123456789ab" "action_aaaaaaaaaaaaaaaaaaaa",
    .deliver a (List.replicate 12 sampleChoice), .deliver a (List.replicate 12 sampleChoice)]

/-- An action that arrives twice is carried out once, and its second reply was checked. -/
theorem at_most_once_input_replayed : ∃ w x v, (machine sampleWire .linux).Reachable w ∧
    w.workers.length = 1 ∧ x ∈ w.sent ∧ x.reply = .cached v ∧ ∃ c ∈ x.checks,
      authorize sampleWire.codec .linux x.action.target x.action.request c.reading = .ok () := by
  obtain ⟨w, hw, hlen, hcached⟩ := Machine.exists_reachable_of_run (M := machine sampleWire .linux)
    (P := fun w => w.workers.length = 1 ∧ w.sent.any (fun x => x.reply == .cached "done") = true)
    sampleWorld (.start Linux.sampleKey :: samplePublish (sampleAction "a" 200))
    ⟨rfl, rfl, rfl, rfl, rfl, rfl, rfl⟩ (by decide +kernel)
  obtain ⟨x, hx, hreply⟩ := any_eq_true.mp hcached
  obtain ⟨request, hp, c, hc, -, -, hok⟩ := (at_most_once_input hw).2.2.2 x hx "done"
    (beq_iff_eq.mp hreply)
  cases hp
  exact ⟨w, x, "done", hw, hlen, hx, beq_iff_eq.mp hreply, c, hc, hok⟩

/-- After its deadline an identifier is used again, for another action of the same session. -/
theorem reused_identifier_executes : ∃ w x y, (machine sampleWire .linux).Reachable w ∧
    x ∈ w.workers ∧ y ∈ w.workers ∧ x.action.target = y.action.target ∧
    x.request.requestId = y.request.requestId ∧ x.action ≠ y.action := by
  obtain ⟨w, hw, hworkers⟩ := Machine.exists_reachable_of_run (M := machine sampleWire .linux)
    (P := fun w => w.workers.map (·.action) = [sampleAction "b" 400, sampleAction "a" 200])
    sampleWorld (.start Linux.sampleKey :: samplePublish (sampleAction "a" 200) ++
      [.cleanup "action_aaaaaaaaaaaaaaaaaaaa", .wait 200] ++ samplePublish (sampleAction "b" 400))
    ⟨rfl, rfl, rfl, rfl, rfl, rfl, rfl⟩ (by decide +kernel)
  have hcarried := (sound_of_reachable hw).inv.carried
  obtain ⟨x, hx, hxa⟩ := mem_map.mp (hworkers ▸ mem_cons_self :
    sampleAction "b" 400 ∈ w.workers.map (·.action))
  obtain ⟨y, hy, hya⟩ := mem_map.mp (hworkers ▸ mem_cons_of_mem _ mem_cons_self :
    sampleAction "a" 200 ∈ w.workers.map (·.action))
  have hxr := Option.some.inj (hcarried x hx)
  have hyr := Option.some.inj (hcarried y hy)
  refine ⟨w, x, y, hw, hx, hy, by rw [hxa, hya]; rfl, ?_, by rw [hxa, hya]; decide⟩
  rw [← hxr, ← hyr, hxa, hya]
  rfl

end Sample

end VcWorkspace.Session.Helper
