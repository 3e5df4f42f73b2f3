import VcWorkspace.Guest.Agent

/-! # Histories of the agent account planner

The journal of one agent account. Epoch and generation never go back, one epoch
belongs to one lease and one deadline, and an epoch whose fence is revoked or
interrupted does not come alive again.
-/

namespace VcWorkspace.Guest.Agent

open Transition

def planner : Planner Fence Request Plan where
  plan previous r now := (plan previous r now).toOption
  pending := Plan.pending
  completed := Plan.completed
  downgrade := Fence.revoked

variable {previous : Option Fence} {f g : Fence} {r r' : Request} {p p' : Plan} {now now' : ℕ}
  {j j' k : Journal Fence Plan} {e : Entry Request} {epoch : ℕ}

theorem plan_of_planner : planner.plan previous r now = some p ↔ plan previous r now = .ok p :=
  toOption_eq_some

theorem plan_shape (h : plan previous r now = .ok p) :
    ∃ ph ph', p.pending = r.fence ph ∧ p.completed = r.fence ph' ∧
      (ph = .revoked ↔ r.operation = .revoke) ∧ (ph' = .revoked ↔ r.operation = .revoke) := by
  cases planned_of_plan h with
  | opens ho | seals ho | observes ho | revokes ho =>
    exact ⟨_, _, rfl, rfl, by simp [ho], by simp [ho]⟩

theorem validate_of_plan (h : plan previous r now = .ok p) :
    p.pending.validate = .ok () ∧ p.completed.validate = .ok () := by
  obtain ⟨ph, ph', h₁, h₂, hr₁, hr₂⟩ := plan_shape h
  have hv := (plan_eq_ok_iff.mp h).1
  rw [h₁, h₂]
  exact ⟨validate_fence hv hr₁, validate_fence hv hr₂⟩

theorem follows_of_plan (h : plan (some f) r now = .ok p) :
    f.identity = r.identity ∧ f.controlEpoch ≤ r.controlEpoch ∧
      (r.controlEpoch = f.controlEpoch →
        r.leaseId = f.leaseId ∧ f.loginGeneration ≤ r.loginGeneration) :=
  follows_iff.mp ((plan_eq_ok_iff.mp h).2.2.1 f rfl).2

theorem live_of_plan (h : plan (some f) r now = .ok p) (he : r.controlEpoch = f.controlEpoch)
    (ho : r.operation ≠ .revoke) :
    (f.phase = .open ∨ f.phase = .sealed) ∧ r.expiresUnixSeconds = f.expiresUnixSeconds := by
  have ha := (plan_eq_ok_iff.mp h).2.2.2
  rcases hop : r.operation with _ | _ | _
  · rw [Answers, hop] at ha
    have hopen : openable (some f) r now = true := ha.1
    simp [openable, he, Fence.loginLive] at hopen
    exact ⟨hopen.1.2.1, hopen.2⟩
  · rw [Answers, hop] at ha
    obtain ⟨old, hold, hs, -⟩ := ha
    cases hold
    simp [sealable] at hs
    exact ⟨hs.2, hs.1.2⟩
  · exact absurd hop ho

theorem open_of_plan (h : plan (some f) r now = .ok p) (ho : r.operation = .open)
    (he : r.controlEpoch = f.controlEpoch) : f.loginGeneration < r.loginGeneration := by
  have ha := (plan_eq_ok_iff.mp h).2.2.2
  rw [Answers, ho] at ha
  have hopen : openable (some f) r now = true := ha.1
  simp [openable, he] at hopen
  exact hopen.1.1

theorem observeOnly_of_plan (h : plan previous r now = .ok p) (ho : p.observeOnly = true) :
    previous = some p.completed := by
  cases planned_of_plan h with
  | observes _ hs => exact hs
  | _ => cases ho

/-- The order of stored fences: a later epoch, or the same lease with a later generation and, unless
the later fence is revoked, the same deadline. -/
def Precedes (f g : Fence) : Prop :=
  f.controlEpoch < g.controlEpoch ∨
    f.controlEpoch = g.controlEpoch ∧ f.loginGeneration ≤ g.loginGeneration ∧
      f.leaseId = g.leaseId ∧ (g.phase ≠ .revoked →
        f.phase ≠ .revoked ∧ f.expiresUnixSeconds = g.expiresUnixSeconds)

theorem Precedes.refl (f : Fence) : Precedes f f := .inr ⟨rfl, le_rfl, rfl, fun h => ⟨h, rfl⟩⟩

theorem Precedes.trans {f g h : Fence} (h₁ : Precedes f g) (h₂ : Precedes g h) : Precedes f h := by
  rcases h₁ with h₁ | ⟨he, hg, hl, hd⟩ <;> rcases h₂ with h₂ | ⟨he', hg', hl', hd'⟩
  · exact .inl (h₁.trans h₂)
  · exact .inl (h₁.trans_eq he')
  · exact .inl (he.trans_lt h₂)
  · refine .inr ⟨he.trans he', hg.trans hg', hl.trans hl', fun hph => ?_⟩
    obtain ⟨hp, hx⟩ := hd' hph
    obtain ⟨hp', hx'⟩ := hd hp
    exact ⟨hp', hx'.trans hx⟩

theorem precedes_of_plan (h : plan (some f) r now = .ok p) : Precedes f p.pending := by
  obtain ⟨ph, -, h₁, -, hr, -⟩ := plan_shape h
  obtain ⟨-, hle, hsame⟩ := follows_of_plan h
  rw [h₁]
  rcases hle.lt_or_eq with hlt | heq
  · exact .inl hlt
  · obtain ⟨hl, hg⟩ := hsame heq.symm
    refine .inr ⟨heq, hg, hl.symm, fun hph => ?_⟩
    obtain ⟨hlive, hexp⟩ := live_of_plan h heq.symm fun ho => hph (hr.mpr ho)
    refine ⟨?_, hexp.symm⟩
    rcases hlive with hlive | hlive <;> simp [hlive]

theorem precedes_completed (h : plan previous r now = .ok p) : Precedes p.pending p.completed := by
  obtain ⟨ph, ph', h₁, h₂, hr₁, hr₂⟩ := plan_shape h
  rw [h₁, h₂]
  exact .inr ⟨rfl, le_rfl, rfl, fun hph => ⟨fun hp => hph (hr₂.mpr (hr₁.mp hp)), rfl⟩⟩

theorem precedes_revoked (f : Fence) : Precedes f f.revoked :=
  .inr ⟨rfl, le_rfl, rfl, fun h => absurd rfl h⟩

theorem stored_precedes (hj : planner.machine.Reachable j) (h : planner.machine.Leads j k)
    (hf : j.stored = some f) : ∃ g, k.stored = some g ∧ Precedes f g :=
  Planner.stored_relates Precedes.refl (fun _ _ _ => Precedes.trans)
    (fun _ _ _ _ hp => precedes_of_plan (plan_of_planner.mp hp))
    (fun _ _ _ _ hp => precedes_completed (plan_of_planner.mp hp)) precedes_revoked hj h hf

theorem open_after_accepted (hj : planner.machine.Reachable j) (he : e.Accepts r now)
    (h : planner.step j e = some j') (hk : planner.machine.Leads j' k)
    (h' : plan k.stored r' now' = .ok p') (ho' : r'.operation = .open) :
    r.controlEpoch < r'.controlEpoch ∨
      r.controlEpoch = r'.controlEpoch ∧ r.loginGeneration < r'.loginGeneration := by
  obtain ⟨p, hp, hst⟩ := Planner.accepted h he
  obtain ⟨ph, ph', h₁, h₂, -, -⟩ := plan_shape (plan_of_planner.mp hp)
  obtain ⟨f, hf, hfe, hfg⟩ : ∃ f, j'.stored = some f ∧ f.controlEpoch = r.controlEpoch ∧
      f.loginGeneration = r.loginGeneration := by
    rcases hst with hst | hst
    · exact ⟨p.pending, hst, by rw [h₁]; exact ⟨rfl, rfl⟩⟩
    · exact ⟨p.completed, hst, by rw [h₂]; exact ⟨rfl, rfl⟩⟩
  obtain ⟨g, hg, hpre⟩ := stored_precedes (hj.step h) hk hf
  rw [hg] at h'
  have hle := (follows_of_plan h').2.1
  have hopen := open_of_plan h' ho'
  unfold Precedes at hpre
  omega

/-- The fence is past the epoch, or holds it without a login in use. -/
def Dead (epoch : ℕ) (f : Fence) : Prop :=
  epoch < f.controlEpoch ∨ f.controlEpoch = epoch ∧ f.phase ≠ .open ∧ f.phase ≠ .sealed

/-- Neither the stored fence nor the plan under way can give the epoch a live login. -/
def EpochClosed (epoch : ℕ) (j : Journal Fence Plan) : Prop :=
  (∃ f, j.stored = some f ∧ Dead epoch f) ∧ ∀ p, j.inFlight = some p → Dead epoch p.completed

theorem Dead.not_live (h : Dead epoch f) (he : f.controlEpoch = epoch) :
    f.loginLive now = false := by
  rcases h with h | ⟨-, h₁, h₂⟩
  · omega
  · simp [Fence.loginLive, h₁, h₂]

theorem dead_of_plan (hd : Dead epoch f) (h : plan (some f) r now = .ok p) :
    Dead epoch p.pending ∧ Dead epoch p.completed := by
  obtain ⟨ph, ph', h₁, h₂, hr₁, hr₂⟩ := plan_shape h
  obtain ⟨-, hle, -⟩ := follows_of_plan h
  rw [h₁, h₂]
  rcases hd with hd | ⟨rfl, hopen, hsealed⟩
  · exact ⟨.inl (hd.trans_le hle), .inl (hd.trans_le hle)⟩
  · rcases hle.lt_or_eq with hlt | heq
    · exact ⟨.inl hlt, .inl hlt⟩
    · have ho : r.operation = .revoke := by
        by_contra ho
        rcases (live_of_plan h heq.symm ho).1 with hl | hl
        · exact hopen hl
        · exact hsealed hl
      obtain rfl := hr₁.mpr ho
      obtain rfl := hr₂.mpr ho
      exact ⟨.inr ⟨heq.symm, by simp [Request.fence], by simp [Request.fence]⟩,
        .inr ⟨heq.symm, by simp [Request.fence], by simp [Request.fence]⟩⟩

theorem dead_revoked (hd : Dead epoch f) : Dead epoch f.revoked := by
  rcases hd with hd | ⟨hd, -, -⟩
  · exact .inl hd
  · exact .inr ⟨hd, by simp [Fence.revoked], by simp [Fence.revoked]⟩

/-- Any step but the completion of an interrupted plan closes the epoch of a dead fence. -/
theorem epochClosed_of_dead (hf : j.stored = some f) (hd : Dead epoch f)
    (h : planner.step j e = some k) (he : e ≠ .finish) : EpochClosed epoch k := by
  rcases Planner.step_cases h with ⟨r, now, p, rfl, hpl, rfl⟩ | ⟨r, now, p, rfl, hpl, rfl⟩ |
    ⟨p, rfl, -, -⟩ | ⟨f', rfl, hf', rfl⟩
  · obtain ⟨h₁, h₂⟩ := dead_of_plan hd (plan_of_planner.mp (hf ▸ hpl))
    exact ⟨⟨_, rfl, h₁⟩, fun q hq => Option.some.inj hq ▸ h₂⟩
  · obtain ⟨-, h₂⟩ := dead_of_plan hd (plan_of_planner.mp (hf ▸ hpl))
    exact ⟨⟨_, rfl, h₂⟩, by simp⟩
  · exact absurd rfl he
  · cases hf.symm.trans hf'
    exact ⟨⟨_, rfl, dead_revoked hd⟩, by simp⟩

theorem epochClosed_step (hc : EpochClosed epoch j) (h : planner.step j e = some k) :
    EpochClosed epoch k := by
  obtain ⟨⟨f, hf, hd⟩, hp⟩ := hc
  by_cases he : e = .finish
  · subst he
    obtain ⟨p, hpl, rfl⟩ := Option.map_eq_some_iff.mp h
    exact ⟨⟨_, rfl, hp p hpl⟩, by simp⟩
  · exact epochClosed_of_dead hf hd h he

theorem not_live_of_epochClosed (hc : EpochClosed epoch j) (h : planner.machine.Leads j k)
    (hg : k.stored = some g) (he : g.controlEpoch = epoch) : g.loginLive now = false := by
  obtain ⟨⟨g', hg', hd⟩, -⟩ :=
    h.preserves (P := EpochClosed epoch) (fun _ _ _ hs ha => epochClosed_step hs ha) hc
  cases hg.symm.trans hg'
  exact hd.not_live he

theorem epochClosed_of_revoked (hc : planner.Coherent j) (hf : j.stored = some f)
    (hp : f.phase = .revoked) : EpochClosed f.controlEpoch j := by
  refine ⟨⟨f, hf, .inr ⟨rfl, by simp [hp], by simp [hp]⟩⟩, fun p hin => ?_⟩
  obtain ⟨hst, f₀, r, now, hpl⟩ := hc p hin
  obtain ⟨ph, ph', h₁, h₂, hr₁, hr₂⟩ := plan_shape (plan_of_planner.mp hpl)
  have hf' : f = r.fence ph := (Option.some.inj (hf.symm.trans hst)).trans h₁
  rw [hf'] at hp ⊢
  obtain rfl : ph' = .revoked := hr₂.mpr (hr₁.mp hp)
  rw [h₂]
  exact .inr ⟨rfl, by simp [Request.fence], by simp [Request.fence]⟩

/-- Safety of the agent account planner over every history: epochs and generations never go back,
openings happen once, and a revoked epoch stays closed. -/
theorem agent_planner_safety (hj : planner.machine.Reachable j) :
    (∀ r now p, plan j.stored r now = .ok p →
      p.pending.validate = .ok () ∧ p.completed.validate = .ok () ∧
      (p.observeOnly = true → j.stored = some p.completed)) ∧
    (∀ k f, planner.machine.Leads j k → j.stored = some f → ∃ g, k.stored = some g ∧
      (f.controlEpoch < g.controlEpoch ∨
        f.controlEpoch = g.controlEpoch ∧ f.loginGeneration ≤ g.loginGeneration) ∧
      (f.controlEpoch = g.controlEpoch → f.leaseId = g.leaseId ∧
        (f.phase ≠ .revoked → g.phase ≠ .revoked →
          f.expiresUnixSeconds = g.expiresUnixSeconds))) ∧
    (∀ e r now j' k r' now' p', e.Accepts r now → r.operation = .open →
      planner.step j e = some j' → planner.machine.Leads j' k →
      plan k.stored r' now' = .ok p' → r'.operation = .open →
      (r'.controlEpoch, r'.loginGeneration) ≠ (r.controlEpoch, r.loginGeneration)) ∧
    (∀ f es k g now, j.stored = some f → planner.machine.run j es = some k →
      k.stored = some g → g.controlEpoch = f.controlEpoch → g.loginLive now = true →
      f.phase ≠ .revoked ∧
      (f.phase = .opening ∨ f.phase = .sealing →
        ∃ p es', j.inFlight = some p ∧ p.pending = f ∧ es = .finish :: es')) := by
  refine ⟨fun r now p h => ?_, fun k f hk hf => ?_, ?_, ?_⟩
  · obtain ⟨h₁, h₂⟩ := validate_of_plan h
    exact ⟨h₁, h₂, observeOnly_of_plan h⟩
  · obtain ⟨g, hg, hpre⟩ := stored_precedes hj hk hf
    refine ⟨g, hg, ?_⟩
    rcases hpre with hlt | ⟨heq, hgen, hl, hd⟩
    · exact ⟨.inl hlt, fun heq => absurd heq hlt.ne⟩
    · exact ⟨.inr ⟨heq, hgen⟩, fun _ => ⟨hl, fun _ hph => (hd hph).2⟩⟩
  · intro e r now j' k r' now' p' he _ h hk h' ho' heq
    have hlt := open_after_accepted hj he h hk h' ho'
    rw [Prod.mk.injEq] at heq
    omega
  · intro f es k g now hf hrun hg heq hlive
    constructor
    · intro hp
      have hclosed := epochClosed_of_revoked (Planner.coherent_of_reachable hj) hf hp
      simp [not_live_of_epochClosed hclosed ⟨es, hrun⟩ hg heq] at hlive
    · intro hp
      have hd : Dead f.controlEpoch f := .inr ⟨rfl, by rcases hp with hp | hp <;> simp [hp]⟩
      cases es with
      | nil =>
        obtain rfl := Machine.run_nil.mp hrun
        cases hf.symm.trans hg
        simp [hd.not_live rfl] at hlive
      | cons e es =>
        obtain ⟨u, hu, hrun⟩ := Machine.run_cons.mp hrun
        by_cases hfin : e = .finish
        · subst hfin
          obtain ⟨p, hpl, rfl⟩ := Option.map_eq_some_iff.mp hu
          obtain ⟨hst, -⟩ := Planner.coherent_of_reachable hj p hpl
          exact ⟨p, es, hpl, Option.some.inj (hst.symm.trans hf), rfl⟩
        · have hclosed := epochClosed_of_dead hf hd hu hfin
          simp [not_live_of_epochClosed hclosed ⟨es, hrun⟩ hg heq] at hlive

/-- An interrupted opening: its epoch is live again only after its own completion. -/
theorem agent_planner_safety_interrupted :
    ∃ j es f, planner.machine.Reachable j ∧ j.stored = some f ∧ f.phase = .opening ∧
      ∃ p es', j.inFlight = some p ∧ p.pending = f ∧ es = Entry.finish (R := Request) :: es' := by
  have hj : planner.machine.Reachable
      ⟨some ((sampleRequest .open 1 1).fence .opening),
        some ⟨(sampleRequest .open 1 1).fence .opening,
        (sampleRequest .open 1 1).fence .open, false⟩⟩ :=
    ⟨⟨none, none⟩, rfl, [.intend (sampleRequest .open 1 1) 100], by decide⟩
  exact ⟨_, [.finish, .settle (sampleRequest .seal 1 1) 110], _, hj, rfl, rfl,
    ((agent_planner_safety hj).2.2.2 _ _
      ⟨some ((sampleRequest .seal 1 1).fence .sealed), none⟩ _ 120 rfl (by decide) rfl rfl
      (by decide)).2 (.inl rfl)⟩

/-- No history blocks an account: a revocation that does not come before the stored fence is
accepted whatever is stored, and after it the opening of a later epoch, which is live until its
deadline. -/
theorem agent_account_reopens (hj : planner.machine.Leads ⟨none, none⟩ j)
    (hr : r.validate = .ok ()) (ho : r.operation = .revoke)
    (hlater : ∀ f, j.stored = some f → follows f r = true)
    (hr' : r'.validate = .ok ()) (ho' : r'.operation = .open) (hid : r'.identity = r.identity)
    (hnext : r.controlEpoch < r'.controlEpoch) (hw : InWindow r' now') :
    ∃ k, planner.machine.run j [.intend r now, .finish, .intend r' now', .finish] = some k ∧
      k.stored = some (r'.fence .open) ∧
      ∀ t < r'.expiresUnixSeconds, (r'.fence .open).loginLive t = true := by
  have hvalid : ∀ f, j.stored = some f → f.validate = .ok () := by
    have hplan (f q m p) (hp : planner.plan f q m = some p) :=
      validate_of_plan (plan_of_planner.mp hp)
    refine Planner.stored_ensures hplan (fun f hf => ?_) hj
    rw [Fence.validate_iff] at hf ⊢
    exact ⟨hf.1, hf.2.1, hf.2.2.1, hf.2.2.2.1, by simp [planner, Fence.revoked]⟩
  have hrevoke : plan j.stored r now = .ok ⟨r.fence .revoked, r.fence .revoked, false⟩ := by
    refine plan_eq_ok_iff.mpr ⟨hr, .inl ho, fun f hf => ⟨hvalid f hf, hlater f hf⟩, ?_⟩
    rw [Answers, ho]
  have hopen : plan (some (r.fence .revoked)) r' now' =
      .ok ⟨r'.fence .opening, r'.fence .open, false⟩ := by
    refine plan_eq_ok_iff.mpr ⟨hr', hw, ?_, ?_⟩
    · rintro _ ⟨⟩
      refine ⟨validate_fence hr (by simp [ho]), follows_iff.mpr ⟨hid.symm, hnext.le, fun he => ?_⟩⟩
      exact absurd he hnext.ne'
    · rw [Answers, ho']
      simp [openable, Request.fence, hnext.ne']
  refine ⟨⟨some (r'.fence .open), none⟩, ?_, rfl, fun t ht => ?_⟩
  · simp [Machine.run, Planner.machine, Planner.step, planner, hrevoke, hopen, Except.toOption]
  · simp [Fence.loginLive, Request.fence, ht]

/-- An opening that was interrupted is revoked, and the next epoch is opened. -/
theorem agent_account_reopens_interrupted :
    ∃ j k, planner.machine.Leads ⟨none, none⟩ j ∧
      j.stored = some ((sampleRequest .open 1 1).fence .opening) ∧ planner.machine.Leads j k ∧
      k.stored = some ((sampleRequest .open 2 1).fence .open) := by
  have hj : planner.machine.Leads ⟨none, none⟩ _ :=
    ⟨[.intend (sampleRequest .open 1 1) 100], rfl⟩
  obtain ⟨k, hrun, hk, -⟩ := @agent_account_reopens (sampleRequest .revoke 1 1)
    (sampleRequest .open 2 1) 110 120 _ hj (by decide) rfl (by rintro _ ⟨⟩; decide) (by decide) rfl
    rfl (by decide) (.inr (by decide))
  exact ⟨_, k, hj, rfl, ⟨_, hrun⟩, hk⟩

end VcWorkspace.Guest.Agent
