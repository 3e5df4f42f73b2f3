import VcWorkspace.Guest.Native

/-! # Histories of the native planner

The journal of one Guest account: every accepted plan persists its pending or
its completed fence, and a local failure revokes the stored fence. Revisions
never go back, and only an issue leaves a revoked fence.
-/

namespace VcWorkspace.Guest.Native

open Transition

def planner : Planner Fence Request Plan where
  plan previous r now := (plan previous r now).toOption
  pending := Plan.pending
  completed := Plan.completed
  downgrade := Fence.revoked

variable {previous : Option Fence} {f g : Fence} {r r' : Request} {p p' : Plan} {now now' : ℕ}
  {j j' k : Journal Fence Plan} {e : Entry Request}

theorem plan_shape (h : plan previous r now = .ok p) :
    ∃ ph ph', p.pending = r.fence ph ∧ p.completed = r.fence ph' ∧
      (ph = .revoked ↔ r.operation = .revoke) ∧ (ph' = .revoked ↔ r.operation = .revoke) := by
  cases planned_of_plan h with
  | issues ho | reissues ho | retires ho | observes ho | revokes ho =>
    exact ⟨_, _, rfl, rfl, by simp [ho], by simp [ho]⟩

theorem validate_of_plan (h : plan previous r now = .ok p) :
    p.pending.validate = .ok () ∧ p.completed.validate = .ok () := by
  obtain ⟨ph, ph', h₁, h₂, hr₁, hr₂⟩ := plan_shape h
  have hv := (plan_eq_ok_iff.mp h).1
  rw [h₁, h₂]
  exact ⟨validate_fence hv hr₁, validate_fence hv hr₂⟩

theorem revision_of_plan (h : plan previous r now = .ok p) :
    p.pending.revision = r.revision ∧ p.completed.revision = r.revision := by
  obtain ⟨ph, ph', h₁, h₂, -, -⟩ := plan_shape h
  rw [h₁, h₂]
  exact ⟨rfl, rfl⟩

theorem deadline_of_plan (h : plan previous r now = .ok p) :
    p.pending.expiresUnixSeconds ≤ now + 28800 ∧ p.completed.expiresUnixSeconds ≤ now + 28800 := by
  obtain ⟨ph, ph', h₁, h₂, hr, -⟩ := plan_shape h
  obtain ⟨hv, hw, -, -⟩ := plan_eq_ok_iff.mp h
  have he : r.expiresUnixSeconds ≤ now + 28800 := by
    rcases hw with ho | hw
    · have hf := Fence.validate_iff.mp (@validate_fence r hv .revoked (by simp [ho]))
      have h0 : r.expiresUnixSeconds = 0 := by simpa [Request.fence] using hf.2.2.2.2
      omega
    · exact hw.2
  rw [h₁, h₂]
  exact ⟨he, he⟩

theorem revision_le_of_plan (h : plan (some f) r now = .ok p) :
    f.revision ≤ p.pending.revision := by
  rw [(revision_of_plan h).1]
  exact ((plan_eq_ok_iff.mp h).2.2.1 f rfl).2.2

theorem issue_of_plan (h : plan (some f) r now = .ok p) (ho : r.operation = .issue) :
    r.revision = f.revision + 1 ∧ r.connectionId ≠ f.connectionId := by
  have ha := (plan_eq_ok_iff.mp h).2.2.2
  rw [Answers, ho] at ha
  have hi : issuable (some f) r now = true := ha.1
  simp only [issuable, Bool.and_eq_true, beq_iff_eq, bne_iff_ne] at hi
  exact hi.1

theorem retire_of_plan (h : plan previous r now = .ok p) (ho : r.operation = .retire) :
    ∃ old, previous = some old ∧ r.connectionId = old.connectionId ∧
      r.expiresUnixSeconds = old.expiresUnixSeconds ∧
      ((old.phase = .issued ∧ r.revision = old.revision + 1) ∨
        (old.phase = .retired ∧ r.revision = old.revision)) ∧
      p = ⟨r.fence .retiring, r.fence .retired, old.phase == .retired, true⟩ := by
  have ha := (plan_eq_ok_iff.mp h).2.2.2
  rw [Answers, ho] at ha
  obtain ⟨old, rfl, hr, rfl⟩ := ha
  simp only [retirable, Bool.and_eq_true, beq_iff_eq, Bool.or_eq_true] at hr
  exact ⟨old, rfl, hr.1.1.1, hr.1.1.2, hr.2, rfl⟩

theorem observeOnly_of_plan (h : plan previous r now = .ok p) (ho : p.observeOnly = true) :
    previous = some p.completed := by
  cases planned_of_plan h with
  | observes _ hs => exact hs
  | _ => cases ho

theorem plan_of_planner : planner.plan previous r now = some p ↔ plan previous r now = .ok p :=
  toOption_eq_some

theorem revision_mono (hj : planner.machine.Reachable j) (h : planner.machine.Leads j k)
    (hf : j.stored = some f) : ∃ g, k.stored = some g ∧ f.revision ≤ g.revision := by
  refine Planner.stored_relates (S := fun f g => f.revision ≤ g.revision) (fun _ => le_rfl)
    (fun _ _ _ => le_trans) ?_ ?_ (fun _ => le_rfl) hj h hf
  · intro f r now p hp
    exact revision_le_of_plan (plan_of_planner.mp hp)
  · intro f r now p hp
    obtain ⟨h₁, h₂⟩ := revision_of_plan (plan_of_planner.mp hp)
    exact h₁.trans_le h₂.ge

theorem issue_after_accepted (hj : planner.machine.Reachable j) (he : e.Accepts r now)
    (h : planner.step j e = some j') (hk : planner.machine.Leads j' k)
    (h' : plan k.stored r' now' = .ok p') (ho' : r'.operation = .issue) :
    r.revision < r'.revision := by
  obtain ⟨p, hp, hst⟩ := Planner.accepted h he
  have hrev := revision_of_plan (plan_of_planner.mp hp)
  obtain ⟨f, hf, hfr⟩ : ∃ f, j'.stored = some f ∧ f.revision = r.revision := by
    rcases hst with hst | hst
    · exact ⟨_, hst, hrev.1⟩
    · exact ⟨_, hst, hrev.2⟩
  obtain ⟨g, hg, hle⟩ := revision_mono (hj.step h) hk hf
  have hnext := (issue_of_plan (hg ▸ h') ho').1
  omega

/-- A step that leaves a revoked fence accepts the issue of the next revision. -/
theorem issue_of_revoked_step (hc : planner.Coherent j) (hf : j.stored = some f)
    (hp : f.phase = .revoked) (h : planner.step j e = some k)
    (hn : ¬ ∃ g, k.stored = some g ∧ g.phase = .revoked) :
    ∃ r now p, e.Accepts r now ∧ r.operation = .issue ∧ r.revision = f.revision + 1 ∧
      plan j.stored r now = .ok p := by
  have key : ∀ r now p, e.Accepts r now → planner.plan j.stored r now = some p →
      ¬ (p.pending.phase = .revoked ∧ p.completed.phase = .revoked) →
      ∃ r now p, e.Accepts r now ∧ r.operation = .issue ∧ r.revision = f.revision + 1 ∧
        plan j.stored r now = .ok p := by
    intro r now p he hpl hph
    have hpl' := plan_of_planner.mp hpl
    obtain ⟨ph, ph', h₁, h₂, hr₁, hr₂⟩ := plan_shape hpl'
    cases ho : r.operation
    case issue => exact ⟨r, now, p, he, ho, (issue_of_plan (hf ▸ hpl') ho).1, hpl'⟩
    case retire =>
      obtain ⟨old, hold, -, -, hold', -⟩ := retire_of_plan hpl' ho
      cases hf.symm.trans hold
      simp [hp] at hold'
    case revoke =>
      refine absurd ⟨?_, ?_⟩ hph
      · rw [h₁]; exact hr₁.mpr ho
      · rw [h₂]; exact hr₂.mpr ho
  rcases Planner.step_cases h with ⟨r, now, p, rfl, hpl, rfl⟩ | ⟨r, now, p, rfl, hpl, rfl⟩ |
    ⟨p, rfl, hpl, rfl⟩ | ⟨f', rfl, hf', rfl⟩
  · exact key r now p (.inl rfl) hpl fun hph => hn ⟨_, rfl, hph.1⟩
  · exact key r now p (.inr rfl) hpl fun hph => hn ⟨_, rfl, hph.2⟩
  · obtain ⟨hst, f₀, r, now, hpl⟩ := hc p hpl
    obtain ⟨ph, ph', h₁, h₂, hr₁, hr₂⟩ := plan_shape (plan_of_planner.mp hpl)
    refine absurd ⟨_, rfl, ?_⟩ hn
    have hpend : f = r.fence ph := (Option.some.inj (hf.symm.trans hst)).trans h₁
    change p.completed.phase = .revoked
    rw [h₂]
    rw [hpend] at hp
    exact hr₂.mpr (hr₁.mp hp)
  · exact absurd ⟨_, rfl, rfl⟩ hn

structure PlanSafe (previous : Option Fence) (r : Request) (now : ℕ) (p : Plan) : Prop where
  pending_valid : p.pending.validate = .ok ()
  completed_valid : p.completed.validate = .ok ()
  pending_deadline : p.pending.expiresUnixSeconds ≤ now + 28800
  completed_deadline : p.completed.expiresUnixSeconds ≤ now + 28800
  observe : p.observeOnly = true → previous = some p.completed
  issue_connection : r.operation = .issue → ∀ old, previous = some old →
    p.pending.connectionId ≠ old.connectionId ∧ p.completed.connectionId ≠ old.connectionId
  retire_keeps : r.operation = .retire → ∃ old, previous = some old ∧
    p.pending.connectionId = old.connectionId ∧ p.completed.connectionId = old.connectionId ∧
    p.pending.expiresUnixSeconds = old.expiresUnixSeconds ∧
    p.completed.expiresUnixSeconds = old.expiresUnixSeconds

theorem planSafe (h : plan previous r now = .ok p) : PlanSafe previous r now p where
  pending_valid := (validate_of_plan h).1
  completed_valid := (validate_of_plan h).2
  pending_deadline := (deadline_of_plan h).1
  completed_deadline := (deadline_of_plan h).2
  observe := observeOnly_of_plan h
  issue_connection ho old hold := by
    obtain ⟨ph, ph', h₁, h₂, -, -⟩ := plan_shape h
    have hne := (issue_of_plan (hold ▸ h) ho).2
    rw [h₁, h₂]
    exact ⟨hne, hne⟩
  retire_keeps ho := by
    obtain ⟨old, hold, hconn, hexp, -, rfl⟩ := retire_of_plan h ho
    exact ⟨old, hold, hconn, hconn, hexp, hexp⟩

/-- Safety of the native planner over every history: revisions never go back, issues happen once,
and only the next issue revives a revoked fence. -/
theorem native_planner_safety (hj : planner.machine.Reachable j) :
    (∀ r now p, plan j.stored r now = .ok p → PlanSafe j.stored r now p) ∧
    (∀ k f, planner.machine.Leads j k → j.stored = some f →
      ∃ g, k.stored = some g ∧ f.revision ≤ g.revision) ∧
    (∀ e r now j' k r' now' p', e.Accepts r now → r.operation = .issue →
      planner.step j e = some j' → planner.machine.Leads j' k →
      plan k.stored r' now' = .ok p' → r'.operation = .issue → r'.revision ≠ r.revision) ∧
    (∀ f es k g now, j.stored = some f → f.phase = .revoked → planner.machine.run j es = some k →
      k.stored = some g → g.retained now = true →
      ∃ es₁ e es₂ m f' r now' p, es = es₁ ++ e :: es₂ ∧ planner.machine.run j es₁ = some m ∧
        m.stored = some f' ∧ f'.phase = .revoked ∧ e.Accepts r now' ∧ r.operation = .issue ∧
        r.revision = f'.revision + 1 ∧ plan m.stored r now' = .ok p) ∧
    (∀ f : Fence, ∀ now, f.phase = .issuing ∨ f.phase = .retiring ∨ f.phase = .revoked →
      f.retained now = false) := by
  refine ⟨fun r now p => planSafe, fun k f hk hf => revision_mono hj hk hf, ?_, ?_, ?_⟩
  · intro e r now j' k r' now' p' he _ h hk h' ho'
    have hlt := issue_after_accepted hj he h hk h' ho'
    omega
  · intro f es k g now hf hp hrun hg hret
    have hexit : ¬ ∃ g, k.stored = some g ∧ g.phase = .revoked := by
      rintro ⟨g', hg', hph⟩
      cases hg.symm.trans hg'
      simp [Fence.retained, hph] at hret
    obtain ⟨es₁, e, es₂, m, m', rfl, hm, ⟨f', hf', hp'⟩, hstep, hn⟩ :=
      Machine.exit_of_run (P := fun k => ∃ g, k.stored = some g ∧ g.phase = .revoked)
        ⟨f, hf, hp⟩ hexit hrun
    have hcoh := Planner.coherent_of_reachable (hj.leads ⟨es₁, hm⟩)
    obtain ⟨r, now', p, he, ho, hrev, hpl⟩ := issue_of_revoked_step hcoh hf' hp' hstep hn
    exact ⟨es₁, e, es₂, m, f', r, now', p, rfl, hm, hf', hp', he, ho, hrev, hpl⟩
  · rintro f now (h | h | h) <;> simp [Fence.retained, h]

/-- A revoked fence that was issued before, and the history that issues the next revision. -/
theorem native_planner_safety_reissue :
    ∃ j es f, planner.machine.Reachable j ∧ j.stored = some f ∧ f.phase = .revoked ∧
      ∃ es₁ e es₂ m f' r now' p, es = es₁ ++ e :: es₂ ∧ planner.machine.run j es₁ = some m ∧
        m.stored = some f' ∧ f'.phase = .revoked ∧ e.Accepts r now' ∧ r.operation = .issue ∧
        r.revision = f'.revision + 1 ∧ plan m.stored r now' = .ok p := by
  have hj : planner.machine.Reachable
      ⟨some ((sampleRequest .issue 1 "conn_example_one").fence .issued).revoked, none⟩ :=
    ⟨⟨none, none⟩, rfl, [.intend (sampleRequest .issue 1 "conn_example_one") 100, .finish,
      .downgrade], by decide⟩
  exact ⟨_, [.settle (sampleRequest .issue 2 "conn_example_two") 120], _, hj, rfl, rfl,
    (native_planner_safety hj).2.2.2.1 _ _
      ⟨some ((sampleRequest .issue 2 "conn_example_two").fence .issued), none⟩ _ 120 rfl rfl
      (by decide) rfl (by decide)⟩

/-- No history blocks an account: a later revocation is accepted whatever is stored, and after it
the next issue with a new connection, which keeps the desktop until its deadline. -/
theorem native_account_reopens (hj : planner.machine.Leads ⟨none, none⟩ j)
    (hr : r.validate = .ok ()) (ho : r.operation = .revoke)
    (hlater : ∀ f, j.stored = some f → f.identity = r.identity ∧ f.revision < r.revision)
    (hr' : r'.validate = .ok ()) (ho' : r'.operation = .issue) (hid : r'.identity = r.identity)
    (hnext : r'.revision = r.revision + 1) (hconn : r'.connectionId ≠ r.connectionId)
    (hw : InWindow r' now') :
    ∃ k, planner.machine.run j [.intend r now, .finish, .intend r' now', .finish] = some k ∧
      k.stored = some (r'.fence .issued) ∧
      ∀ t < r'.expiresUnixSeconds, (r'.fence .issued).retained t = true := by
  have hvalid : ∀ f, j.stored = some f → f.validate = .ok () := by
    have hplan (f q m p) (hp : planner.plan f q m = some p) :=
      validate_of_plan (plan_of_planner.mp hp)
    refine Planner.stored_ensures hplan (fun f hf => ?_) hj
    rw [Fence.validate_iff] at hf ⊢
    exact ⟨hf.1, hf.2.1, hf.2.2.1, hf.2.2.2.1, by simp [planner, Fence.revoked]⟩
  have hrevoke : plan j.stored r now = .ok ⟨r.fence .revoked, r.fence .revoked, false, false⟩ := by
    refine plan_eq_ok_iff.mpr ⟨hr, .inl ho, fun f hf => ?_, ?_⟩
    · exact ⟨hvalid f hf, (hlater f hf).1, (hlater f hf).2.le⟩
    · rw [Answers, ho]
      refine ⟨?_, rfl⟩
      cases hs : j.stored with
      | none => rfl
      | some f => simp [revocable, (hlater f hs).2.ne']
  have hissue : plan (some (r.fence .revoked)) r' now' =
      .ok ⟨r'.fence .issuing, r'.fence .issued, false, false⟩ := by
    refine plan_eq_ok_iff.mpr ⟨hr', hw, ?_, ?_⟩
    · rintro _ ⟨⟩
      exact ⟨validate_fence hr (by simp [ho]), hid.symm, by simp [Request.fence, hnext]⟩
    · rw [Answers, ho']
      simp [issuable, Request.fence, hnext, hconn]
  refine ⟨⟨some (r'.fence .issued), none⟩, ?_, rfl, fun t ht => ?_⟩
  · simp [Machine.run, Planner.machine, Planner.step, planner, hrevoke, hissue, Except.toOption]
  · simp [Fence.retained, Request.fence, ht]

/-- An issue that was interrupted is revoked, and the next one is carried out. -/
theorem native_account_reopens_interrupted :
    ∃ j k, planner.machine.Leads ⟨none, none⟩ j ∧
      j.stored = some ((sampleRequest .issue 1 "conn_example_one").fence .issuing) ∧
      planner.machine.Leads j k ∧
      k.stored = some ((sampleRequest .issue 3 "conn_example_two").fence .issued) := by
  have hj : planner.machine.Leads ⟨none, none⟩ _ :=
    ⟨[.intend (sampleRequest .issue 1 "conn_example_one") 100], rfl⟩
  obtain ⟨k, hrun, hk, -⟩ := @native_account_reopens
    (sampleRequest .revoke 2 "conn_example_one") (sampleRequest .issue 3 "conn_example_two") 110 120
    _ hj (by decide) rfl (by rintro _ ⟨⟩; decide) (by decide) rfl rfl rfl (by decide)
    (.inr (by decide))
  exact ⟨_, k, hj, rfl, ⟨_, hrun⟩, hk⟩

end VcWorkspace.Guest.Native
