import VcWorkspace.Clone.Finalization

/-! # The outcome of a clone job

The writers of a job are guarded by its state, all but one: a request handler
whose submission was not answered resets the job, whatever it has become. Apart
from that write a job keeps its task and its outcome, and no step of a handler or
a run takes access to a desktop away.
-/

namespace VcWorkspace.Clone

open Transition Store Option Bool AccessTables Machine

section Model

/-- A handler whose submission was not answered finds the job as it was reserved. -/
def World.undisturbed (w : World) : Event → Bool
  | .call i .done =>
    match w.threads[i]? with
    | some (.unknown job) =>
      w.tables.jobs.all fun j => j.id != job.id || (j.state == .accepted && !hasTask j)
    | _ => true
  | _ => true

def Thread.live : Thread → Option Job
  | .inventory _ _ (.recovery _) | .inspect _ _ (.recovery _) => none
  | .status job | .inventory job _ _ | .inspect job _ _ | .network job _ | .sendNetwork job _ _
  | .awaitNetwork job _ _ | .observeNetwork job _ | .gpu job _ | .sendGpu job _ _
  | .awaitGpu job _ _ | .osType job _ _ | .registry job _ _ _ | .complete job _ => some job
  | _ => none

def LiveOk (w : World) : Prop :=
  ∀ (i : ℕ) (t : Thread) (job : Job), w.threads[i]? = some t → t.live = some job →
    isClone job = true → job ∈ w.tables.jobs ∧ job.state = .running ∧ hasTask job = true

end Model

variable {decode : String → Option CloneRequest} {digest : VMConfiguration → String} {w w' : World}
  {e : Event} {i : ℕ} {t : Thread} {o : Outcome} {job : Job}

section Live

theorem live_afterGpu (job : Job) (r : CloneRequest) (state : JobState) :
    (afterGpu job r state).live = some job := by
  unfold afterGpu
  split <;> rfl

theorem live_afterNetwork (job : Job) (r : CloneRequest) :
    (afterNetwork job r).live = some job := by
  unfold afterNetwork
  split
  · rfl
  · exact live_afterGpu job r .succeeded

theorem live_afterStart (job : Job) (r : CloneRequest) : (afterStart job r).live = some job := by
  unfold afterStart
  split
  · rfl
  · exact live_afterNetwork job r

theorem live_of_atEdge (h : t.atEdge = true) : t.live = none := by
  cases t with
  | submit | load | reload | recoverLock | recoverTask | ended => rfl
  | _ => cases h

theorem held_of_live (ht : t.Ok decode w i) (hl : t.live = some job) (hc : isClone job = true) :
    Held w i job := by
  cases t with
  | inventory job' r purpose | inspect job' r purpose =>
    cases purpose with
    | recovery => cases hl
    | _ =>
      cases hl
      exact ht.1.toHeld
  | status =>
    cases hl
    exact ht.2 hc
  | complete =>
    cases hl
    exact (ht.2 hc).1
  | network | awaitNetwork | observeNetwork | gpu =>
    cases hl
    exact ht.toHeld
  | sendNetwork | sendGpu | awaitGpu | osType | registry =>
    cases hl
    exact ht.1.toHeld
  | _ => cases hl

theorem live_of_calls (h : Calls decode digest w t o) (hl : o.thread.live = some job) :
    o.tables.jobs = w.tables.jobs ∧
      (t.live = some job ∨ ∃ jobId, refreshable w jobId = some job) := by
  cases h with
  | moves h =>
    refine ⟨rfl, ?_⟩
    cases h with
    | inspect job' r purpose =>
      cases purpose with
      | recovery => cases hl
      | _ => exact .inl hl
    | loadOther h | reload h =>
      cases hl
      exact .inr ⟨_, h⟩
    | network | networkSet => exact .inl ((live_afterNetwork _ _).symm.trans hl)
    | gpuInvalid | gpuSet | gpuFailed => exact .inl ((live_afterGpu _ _ _).symm.trans hl)
    | unreadable | start | other | sendNetwork | observeNetwork | sendGpu | osType => exact .inl hl
    | _ => cases hl
  | start => exact ⟨rfl, .inl ((live_afterStart _ _).symm.trans hl)⟩
  | observed => exact ⟨rfl, .inl ((live_afterGpu _ _ _).symm.trans hl)⟩
  | quarantine h =>
    simp only [AccessTables.quarantineClonedDesktop, seq_eq_ok] at h
    cases h.2
    exact ⟨rfl, .inl hl⟩
  | register hs h =>
    simp only [AccessTables.upsertManagedDesktop, seq_eq_ok] at h
    cases h.2
    exact ⟨rfl, .inl hl⟩
  | taskFailed | finish | sendNetwork | sendGpu => exact ⟨rfl, .inl hl⟩
  | _ => cases hl

end Live

variable {a : Answer}

section Rows

variable {j j' : Job}

variable (w w' j) in
/-- What a step does to a clone while no reservation is disturbed. -/
inductive Advances : Job → Prop
  | same : Advances j
  | attached {upid : String} (hstate : j.state = .accepted) (htask : hasTask j = false) :
    Advances { j with state := .running, upid := some upid }
  | reset (hstate : j.state = .accepted) (htask : hasTask j = false) :
    Advances { j with state := .accepted, upid := none }
  | completed {i : ℕ} {state : JobState} (ht : w.threads[i]? = some (.complete j state))
      (hover : w'.threads[i]? = some .ended) (hrun : j.state = .running) :
    Advances { j with state := state }

theorem unknown_cases (h : (Thread.unknown job).call decode digest w a = some o) :
    o = w.goOn .ended ∨
      (a = .done ∧ o = ⟨.ended, w.tables.updateJobTask job.id .accepted "", none, none⟩) := by
  cases a with
  | done => exact .inr ⟨rfl, (Option.some.inj h).symm⟩
  | failed => exact .inl (Option.some.inj h).symm
  | _ => cases h

theorem complete_over {state : JobState}
    (h : (Thread.complete job state).call decode digest w a = some o) : o.thread = .ended := by
  cases a with
  | done | failed =>
    cases h
    rfl
  | _ => cases h

theorem accepted_of_undisturbed (hg : w.undisturbed (.call i .done) = true)
    (ht : w.threads[i]? = some (.unknown job)) (hj : j ∈ w.tables.jobs) (hid : j.id = job.id) :
    j.state = .accepted ∧ hasTask j = false := by
  simp only [World.undisturbed, ht, List.all_eq_true, or_eq_true, bne_iff_ne, and_eq_true,
    beq_iff_eq, not_eq_true'] at hg
  exact (hg j hj).resolve_left fun hne => hne hid

theorem advances_of_changes (hw : WorldOk decode digest w) (hlive : LiveOk w)
    (hg : w.undisturbed e = true) (h : Changes decode digest w w' e) (hj : j ∈ w.tables.jobs)
    (hc : isClone j = true) (hj' : j' ∈ w'.tables.jobs) (hid : j'.id = j.id) :
    Advances w w' j j' := by
  rcases h.row hw hj hc hj' hid with rfl | ⟨i, a, t, o, rfl, ht, hcall, rfl, hrow⟩
  · exact .same
  cases hrow with
  | same => exact .same
  | attached hne h =>
    rcases h with ⟨hstate, hnone⟩ | ⟨hstate, hsome⟩
    · exact .attached hstate (by simp [hasTask, hnone])
    · rw [← hstate, ← hsome]
      exact .same
  | @unknown job ht' hidj =>
    subst ht'
    rcases unknown_cases hcall with rfl | ⟨rfl, -⟩
    · rw [hw.eq_of_id hj' hj hid]
      exact .same
    · obtain ⟨hstate, htask⟩ := accepted_of_undisturbed hg ht hj hidj
      exact .reset hstate htask
  | @completed job state ht' hidj hrun =>
    subst ht'
    obtain ⟨⟨j₀, hj₀, hsame⟩, -⟩ := hw.threads i _ ht
    obtain rfl := hw.eq_of_id hj₀ hj ((sameJob_iff.mp hsame).1.trans hidj.symm)
    rw [isClone_of_sameJob hsame] at hc
    obtain ⟨hjob, -⟩ := hlive i _ job ht rfl hc
    obtain rfl := hw.eq_of_id hjob hj hidj.symm
    refine .completed ht ?_ hrun
    obtain ⟨hlt, -⟩ := List.getElem?_eq_some_iff.mp ht
    simp only [World.resume]
    rw [List.getElem?_set_self hlt, complete_over hcall]

theorem LiveOk.step (hlive : LiveOk w) (hw : WorldOk decode digest w)
    (hg : w.undisturbed e = true) (h : Changes decode digest w w' e) : LiveOk w' := by
  intro i t job ht hl hc
  rcases h.thread ht with hold | hedge | ⟨t₀, o, ht₀, hcalls, rfl, rfl⟩
  · obtain ⟨hjob, hrun, htask⟩ := hlive i t job hold hl hc
    obtain ⟨j', hj', hsame⟩ := h.stored ⟨job, hjob, sameJob_refl job⟩
    cases advances_of_changes hw hlive hg h hjob hc hj' (sameJob_iff.mp hsame).1 with
    | same => exact ⟨hj', hrun, htask⟩
    | attached hstate | reset hstate => exact absurd (hrun.symm.trans hstate) (by decide)
    | @completed i' state ht' hover =>
      -- the lock of the clone has one holder, and that run is over
      have hheld := held_of_live (hw.threads i t hold) hl hc
      have hheld' := held_of_live (hw.threads i' _ ht') rfl hc
      obtain rfl := hw.unique hheld hheld' rfl
      cases ht.symm.trans hover
      cases hl
  · rw [live_of_atEdge hedge] at hl
    cases hl
  · obtain ⟨hjobs, hlive' | ⟨jobId, hload⟩⟩ := live_of_calls hcalls hl
    · obtain ⟨hjob, hrest⟩ := hlive i t₀ job ht₀ hlive' hc
      refine ⟨?_, hrest⟩
      simp only [World.resume]
      rw [hjobs]
      exact hjob
    · obtain ⟨hjob, -, hrest⟩ := mem_of_refreshable hload
      refine ⟨?_, hrest⟩
      simp only [World.resume]
      rw [hjobs]
      exact hjob

end Rows

section Access

structure KeepsAccess (t t' : AccessTables) : Prop where
  users : ∀ userId vmid, t.effectiveUserDesktopAccess userId vmid = true →
    t'.effectiveUserDesktopAccess userId vmid = true
  agents : ∀ agentId vmid, t.agentAccess agentId vmid = true → t'.agentAccess agentId vmid = true

theorem KeepsAccess.of_extends {t t' : AccessTables} (h : AccessTables.Extends t t') :
    KeepsAccess t t' :=
  ⟨fun _ _ => h.effectiveUserDesktopAccess, fun _ _ => h.agentAccess⟩

theorem KeepsAccess.refl (t : AccessTables) : KeepsAccess t t := ⟨fun _ _ => id, fun _ _ => id⟩

theorem KeepsAccess.call (hw : WorldOk decode digest w) (hlive : LiveOk w)
    (hg : w.undisturbed (.call i a) = true) (ht : w.threads[i]? = some t)
    (hcall : t.call decode digest w a = some o) : KeepsAccess w.tables o.tables := by
  cases calls_of_call hcall with
  | record h => exact .of_extends (extends_recordCloneTaskHandle h)
  | unknown job =>
    rcases unknown_cases hcall with heq | ⟨rfl, -⟩
    · rw [heq]
      exact .refl _
    · refine .of_extends (extends_updateJobs (fun j hj hid => ?_) fun _ => ⟨rfl, rfl⟩)
      rw [(accepted_of_undisturbed hg ht hj (beq_iff_eq.mp hid)).1]
      decide
  | recover h => exact .of_extends (extends_commitCloneRecovery h)
  | @quarantine job r os tables h =>
    -- the clone still runs, so its desktop gives access to nobody
    obtain ⟨hb, -⟩ := hw.threads i _ ht
    obtain ⟨hjob, hrun, -⟩ := hlive i _ job ht rfl hb.clone
    have hready : w.tables.desktopCloneReady job.targetVmid = false := by
      simp only [AccessTables.desktopCloneReady, not_eq_false', List.any_eq_true,
        and_eq_true, beq_iff_eq, bne_iff_ne]
      exact ⟨job, hjob, ⟨rfl, beq_iff_eq.mp hb.clone⟩, by rw [hrun]; decide⟩
    obtain ⟨husers, hagents⟩ := access_quarantineClonedDesktop h hready
    exact ⟨husers, hagents⟩
  | register hs h => exact .of_extends (extends_upsertManagedDesktop h)
  | complete job state => exact .of_extends (extends_completeJobTask ..)
  | _ => exact .refl _

theorem extends_create {job : Job} {occupied : List ℕ}
    (h : w.create decode job occupied = some w') : AccessTables.Extends w.tables w'.tables := by
  unfold World.create at h
  split at h
  · split at h
    · cases h
    next t ht =>
      split at h
      · cases h
        exact .refl _
      · obtain ⟨stored, -, rfl⟩ := map_eq_some_iff.mp h
        exact extends_reserveDesktopCloneJob ht
  · cases h

theorem KeepsAccess.step (hw : WorldOk decode digest w) (hlive : LiveOk w)
    (hg : w.undisturbed e = true) (he : ∀ t, e ≠ .database t)
    (h : w.step decode digest e = some w') : KeepsAccess w.tables w'.tables := by
  cases e with
  | database t => exact absurd rfl (he t)
  | external | refresh =>
    cases h
    exact .refl _
  | serve k stored =>
    obtain ⟨q, -, rfl | ⟨c, -, -, -, rfl⟩⟩ := serve_cases h
    · exact .refl _
    · exact .refl _
  | reject k =>
    obtain ⟨q, -, h⟩ := bind_eq_some_iff.mp h
    split at h
    · cases h
      exact .refl _
    · cases h
  | create job occupied => exact .of_extends (extends_create h)
  | recover jobId claim =>
    obtain ⟨job, -, h⟩ := bind_eq_some_iff.mp h
    obtain ⟨r, -, h⟩ := bind_eq_some_iff.mp h
    split at h
    · cases h
      exact .refl _
    · cases h
  | acquire i =>
    obtain ⟨p, -, h⟩ := bind_eq_some_iff.mp h
    split at h
    · cases h
      exact .refl _
    · cases h
  | call i a =>
    obtain ⟨t, ht, h⟩ := bind_eq_some_iff.mp h
    obtain ⟨o, ho, rfl⟩ := map_eq_some_iff.mp h
    exact .call hw hlive hg ht ho
  | crash i =>
    obtain ⟨t, -, rfl⟩ := map_eq_some_iff.mp h
    exact .refl _

end Access

section Lifecycle

variable (decode : String → Option CloneRequest) (digest : VMConfiguration → String)

def undisturbedClones : Machine World Event := (clones decode digest).restrict World.undisturbed

variable {decode digest} {w w' : World}

theorem liveOk_of_reachable (hw : (undisturbedClones decode digest).Reachable w) : LiveOk w := by
  refine hw.invariant (fun s hs i t job ht => ?_) (fun s e s' hs hlive hstep => ?_)
  · rw [hs.threads] at ht
    cases ht
  · obtain ⟨hg, hstep⟩ := step_restrict.mp hstep
    exact hlive.step (worldOk_of_reachable hs.of_restrict) hg (changes_of_step hstep)

structure Kept (j j' : Job) : Prop where
  same : sameJob j j' = true
  task : hasTask j = true → j'.upid = j.upid
  outcome : j.state = .succeeded ∨ j.state = .failed → j'.state = j.state

theorem Kept.refl (j : Job) : Kept j j := ⟨sameJob_refl j, fun _ => rfl, fun _ => rfl⟩

theorem Kept.trans {a b c : Job} (h : Kept a b) (h' : Kept b c) : Kept a c where
  same := sameJob_trans h.same h'.same
  task ht := by
    have hb := h.task ht
    rw [← hb]
    exact h'.task (by rw [hasTask, hb]; exact ht)
  outcome ho := by
    have hb := h.outcome ho
    rw [← hb]
    exact h'.outcome (hb ▸ ho)

theorem Advances.kept {j j' : Job} (h : Advances w w' j j') : Kept j j' := by
  have hopen : ∀ {s : JobState}, j.state = s → s ≠ .succeeded → s ≠ .failed →
      ¬ (j.state = .succeeded ∨ j.state = .failed) := by
    rintro s rfl hs hf ho
    exact ho.elim hs hf
  cases h with
  | same => exact .refl j
  | attached hstate htask | reset hstate htask =>
    exact ⟨sameJob_refl j, fun ht => absurd (ht.symm.trans htask) (by decide),
      fun ho => absurd ho (hopen hstate (by decide) (by decide))⟩
  | completed _ _ hrun =>
    exact ⟨sameJob_refl j, fun _ => rfl, fun ho => absurd ho (hopen hrun (by decide) (by decide))⟩

theorem kept_of_leads (hw : (undisturbedClones decode digest).Reachable w)
    (h : (undisturbedClones decode digest).Leads w w') :
    ∀ j ∈ w.tables.jobs, isClone j = true → ∃ j' ∈ w'.tables.jobs, Kept j j' := by
  refine h.relates (P := (undisturbedClones decode digest).Reachable)
    (R := fun w w' => ∀ j ∈ w.tables.jobs, isClone j = true → ∃ j' ∈ w'.tables.jobs, Kept j j')
    ?_ ?_ ?_ ?_ hw
  · exact fun s j hj _ => ⟨j, hj, .refl j⟩
  · intro s t u hst htu j hj hc
    obtain ⟨j', hj', hk⟩ := hst j hj hc
    obtain ⟨j'', hj'', hk'⟩ := htu j' hj' ((isClone_of_sameJob hk.same).trans hc)
    exact ⟨j'', hj'', hk.trans hk'⟩
  · exact fun _ _ _ hs hstep => hs.step hstep
  · intro s e s' hs hstep j hj hc
    obtain ⟨hg, hstep⟩ := step_restrict.mp hstep
    have hok := worldOk_of_reachable hs.of_restrict
    have hchanges := changes_of_step hstep
    obtain ⟨j', hj', hsame⟩ := hchanges.stored ⟨j, hj, sameJob_refl j⟩
    exact ⟨j', hj', (advances_of_changes hok (liveOk_of_reachable hs) hg hchanges hj hc hj'
      (sameJob_iff.mp hsame).1).kept⟩

/-- Where every handler with an unanswered submission finds its job as reserved, a clone keeps its
task and its outcome, and only others take access to a desktop away. -/
theorem clone_job_lifecycle (hw : (undisturbedClones decode digest).Reachable w) :
    (∀ w', (undisturbedClones decode digest).Leads w w' → ∀ j ∈ w.tables.jobs,
      isClone j = true → (∃ j' ∈ w'.tables.jobs, j'.id = j.id) ∧
      ∀ j' ∈ w'.tables.jobs, j'.id = j.id → (hasTask j = true → j'.upid = j.upid) ∧
        (j.state = .succeeded ∨ j.state = .failed → j'.state = j.state)) ∧
    ∀ e w', (undisturbedClones decode digest).step w e = some w' → (∀ t, e ≠ .database t) →
      (∀ userId vmid, w.tables.effectiveUserDesktopAccess userId vmid = true →
        w'.tables.effectiveUserDesktopAccess userId vmid = true) ∧
      ∀ agentId vmid, w.tables.agentAccess agentId vmid = true →
        w'.tables.agentAccess agentId vmid = true := by
  refine ⟨fun w' hleads j hj hc => ?_, fun e w' hstep he => ?_⟩
  · have hw' := worldOk_of_reachable (hw.leads hleads).of_restrict
    obtain ⟨j', hj', hk⟩ := kept_of_leads hw hleads j hj hc
    have hid := (sameJob_iff.mp hk.same).1
    refine ⟨⟨j', hj', hid⟩, fun j'' hj'' hid'' => ?_⟩
    obtain rfl := hw'.eq_of_id hj'' hj' (hid''.trans hid.symm)
    exact ⟨hk.task, hk.outcome⟩
  · obtain ⟨hg, hstep⟩ := step_restrict.mp hstep
    obtain ⟨husers, hagents⟩ := KeepsAccess.step (worldOk_of_reachable hw.of_restrict)
      (liveOk_of_reachable hw) hg he hstep
    exact ⟨husers, hagents⟩

/-! A submission without an answer, a recovery and a run that finishes the clone. -/

def sampleReservation : Job := { sampleJob with state := .accepted, upid := none }

def sampleUsers : List User :=
  [⟨"admin", "admin", none, .platformAdmin, false⟩, ⟨"user", "user", none, .user, false⟩]

def sampleStart : World :=
  { sampleWorld with tables := ⟨sampleUsers, [], [], [], [], [], [], [], []⟩ }

theorem idle_sampleStart : Idle sampleDecode sampleStart where
  jobs := by decide
  admitted := by
    intro j hj
    cases hj
  requests := rfl
  holder _ := rfl
  threads := rfl
  log := rfl

def recoveryRun : List Event :=
  [.create sampleReservation [], .call 0 .failed, .recover "job" ⟨"UPID:1", "admin", "lost"⟩,
    .acquire 1, .call 1 .done, .call 1 (.machines [⟨101, "qemu", "node", false⟩]), .call 1 .done,
    .call 1 .done]

def sampleOwned : AccessTables :=
  ⟨sampleUsers, [⟨101, "desktop", "node", some .windows, true, true, .personal, some "user", none⟩],
    [], [], [], [], [], [], [{ sampleJob with state := .succeeded }]⟩

/-- A recovered clone keeps its task until it has succeeded. -/
theorem clone_job_lifecycle_recovered :
    ∃ w w' j j', (undisturbedClones sampleDecode sampleDigest).Leads w w' ∧ j ∈ w.tables.jobs ∧
      hasTask j = true ∧ j' ∈ w'.tables.jobs ∧ j'.state = .succeeded ∧ j'.upid = j.upid := by
  obtain ⟨w, hw, hj, h⟩ := exists_reachable_of_run
    (M := undisturbedClones sampleDecode sampleDigest)
    (P := fun w => sampleJob ∈ w.tables.jobs ∧
      (((undisturbedClones sampleDecode sampleDigest).run w (finishRun 2 ++ [.call 2 .done])).any
        fun w' => w'.tables.jobs.any fun j' => j'.id == "job" && j'.state == .succeeded) = true)
    sampleStart recoveryRun idle_sampleStart (by decide +kernel)
  obtain ⟨w', hrun, h⟩ := (any_eq_true _ _).mp h
  obtain ⟨j', hj', h⟩ := List.any_eq_true.mp h
  simp only [and_eq_true, beq_iff_eq] at h
  obtain ⟨-, hrows⟩ := (clone_job_lifecycle hw).1 w' ⟨_, hrun⟩ sampleJob hj rfl
  exact ⟨w, w', sampleJob, j', ⟨_, hrun⟩, hj, rfl, hj', h.2, (hrows j' hj' h.1).1 rfl⟩

/-- The late reset takes the task and the outcome from a clone that has succeeded, and its desktop
from the owner. -/
theorem clone_job_lifecycle_reopened : ∃ w w' j j', (clones sampleDecode sampleDigest).Reachable w ∧
      w.step sampleDecode sampleDigest (.call 0 .done) = some w' ∧ j ∈ w.tables.jobs ∧
      isClone j = true ∧ j.state = .succeeded ∧ j.upid = some "UPID:1" ∧ j' ∈ w'.tables.jobs ∧
      j'.id = j.id ∧ j'.state = .accepted ∧ j'.upid = none ∧
      w.tables.effectiveUserDesktopAccess "user" 101 = true ∧
      w'.tables.effectiveUserDesktopAccess "user" 101 = false := by
  obtain ⟨w, hw, hj, haccess, h⟩ := exists_reachable_of_run
    (M := clones sampleDecode sampleDigest)
    (P := fun w => { sampleJob with state := .succeeded } ∈ w.tables.jobs ∧
      w.tables.effectiveUserDesktopAccess "user" 101 = true ∧
      ((w.step sampleDecode sampleDigest (.call 0 .done)).any fun w' =>
        w'.tables.jobs.contains sampleReservation &&
          !w'.tables.effectiveUserDesktopAccess "user" 101) = true)
    sampleStart (recoveryRun ++ finishRun 2 ++ [.call 2 .done, .database sampleOwned])
    idle_sampleStart (by decide +kernel)
  obtain ⟨w', hstep, h⟩ := (any_eq_true _ _).mp h
  simp only [and_eq_true, List.contains_iff_mem, not_eq_true'] at h
  exact ⟨w, w', _, _, hw, hstep, hj, rfl, rfl, rfl, h.1, rfl, rfl, rfl, haccess, h.2⟩

end Lifecycle

end VcWorkspace.Clone
