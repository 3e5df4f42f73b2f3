import VcWorkspace.Clone.Lifecycle

/-! # The steps of a thread

What the answer to a call can lead to, read off the calls once and for all, and
what the steps of a thread do to the rows of the jobs.
-/

namespace VcWorkspace.Clone

open Transition Store

section Calls

variable (decode : String → Option CloneRequest) (digest : VMConfiguration → String) (w : World)

inductive Moves : Thread → Thread → Prop
  | ended (t : Thread) : Moves t .ended
  | record (job : Job) (upid : String) : Moves (.submit job) (.record job upid)
  | unknown (job : Job) : Moves (.submit job) (.unknown job)
  | recover (job : Job) (r : CloneRequest) (claim : Recovery) :
    Moves (.recoverTask job r claim) (.inventory job r (.recovery claim))
  | inspect (job : Job) (r : CloneRequest) (purpose : Purpose) :
    Moves (.inventory job r purpose) (.inspect job r purpose)
  | recovered (job : Job) (r : CloneRequest) (claim : Recovery) :
    Moves (.inspect job r (.recovery claim)) (.recoverCommit job claim)
  | load {jobId : String} {job : Job} (h : refreshable w jobId = some job)
      (hc : isClone job = true) :
    Moves (.load jobId) (.lock job)
  | loadOther {jobId : String} {job : Job} (h : refreshable w jobId = some job)
    (hc : isClone job = false) : Moves (.load jobId) (.status job)
  | reload {job job' : Job} (h : refreshable w job.id = some job') :
    Moves (.reload job) (.status job')
  | unreadable {job : Job} (hc : isClone job = true) (h : decode job.request = none) :
    Moves (.status job) (.complete job .failed)
  | start {job : Job} {r : CloneRequest} (hc : isClone job = true)
    (h : decode job.request = some r) : Moves (.status job) (.inventory job r .start)
  | other {job : Job} (hc : isClone job = false) : Moves (.status job) (.complete job .succeeded)
  | network (job : Job) (r : CloneRequest) : Moves (.network job r) (afterNetwork job r)
  | sendNetwork {job : Job} {r : CloneRequest} {c : VMConfiguration}
    (hv : verified job r c = true) : Moves (.network job r) (.sendNetwork job r c)
  | observeNetwork (job : Job) (r : CloneRequest) (k : ℕ) :
    Moves (.awaitNetwork job r k) (.observeNetwork job r)
  | networkSet (job : Job) (r : CloneRequest) : Moves (.observeNetwork job r) (afterNetwork job r)
  | sendGpu {job : Job} {r : CloneRequest} {c : VMConfiguration} (hc : w.target job = some c)
    (hv : verified job r c = true) (hm : r.mapped c = false) : Moves (.gpu job r) (.sendGpu job r c)
  | gpuInvalid (job : Job) (r : CloneRequest) (c : VMConfiguration) :
    Moves (.sendGpu job r c) (afterGpu job r .failed)
  | gpuSet {job : Job} {r : CloneRequest} {k : ℕ} (h : w.progress k = some .accepted) :
    Moves (.awaitGpu job r k) (afterGpu job r .succeeded)
  | gpuFailed (job : Job) (r : CloneRequest) (k : ℕ) :
    Moves (.awaitGpu job r k) (afterGpu job r .failed)
  | osType (job : Job) (r : CloneRequest) (state : JobState) (os : Option OsFamily) :
    Moves (.osType job r state) (.inventory job r (.finish state os))

inductive Calls : Thread → Outcome → Prop
  | moves {t t' : Thread} (h : Moves decode w t t') : Calls t (w.goOn t')
  | record {job : Job} {upid : String} {t : AccessTables}
    (h : w.tables.recordCloneTaskHandle job upid = .ok t) :
    Calls (.record job upid) ⟨.ended, t, none, none⟩
  | unknown (job : Job) :
    Calls (.unknown job) ⟨.ended, w.tables.updateJobTask job.id .accepted "", none, none⟩
  | recover {job : Job} {claim : Recovery} {t : AccessTables}
    (h : w.tables.commitCloneRecovery job claim.upid claim.actorId claim.reason true = .ok t) :
    Calls (.recoverCommit job claim) ⟨.ended, t, none, none⟩
  | taskFailed (job : Job) :
    Calls (.status job) { w.goOn (.complete job .failed) with entry := some (.taskFailed job.id) }
  | start (job : Job) (r : CloneRequest) :
    Calls (.inspect job r .start) { w.goOn (afterStart job r) with entry := some (.checked job.id) }
  | finish (job : Job) (r : CloneRequest) (state : JobState) (os : Option OsFamily) :
    Calls (.inspect job r (.finish state os))
      { w.goOn (.registry job r state os) with entry := some (.checked job.id) }
  | sendNetwork {job : Job} {r : CloneRequest} {c : VMConfiguration} {update : ConfigUpdate}
    (h : configureVMPrimaryDHCP (node job) job.targetVmid (digest c) = .ok update) :
    Calls (.sendNetwork job r c) (send w job r update (.awaitNetwork job r w.requests.length))
  | observed (job : Job) (r : CloneRequest) :
    Calls (.gpu job r) { w.goOn (afterGpu job r .succeeded) with entry := some (.observed job.id) }
  | sendGpu {job : Job} {r : CloneRequest} {c : VMConfiguration} {update : ConfigUpdate}
    (h : configureMapping job r (digest c) = .ok update) :
    Calls (.sendGpu job r c) (send w job r update (.awaitGpu job r w.requests.length))
  | quarantine {job : Job} {r : CloneRequest} {os : Option OsFamily} {t : AccessTables}
    (h : w.tables.quarantineClonedDesktop ⟨job.targetVmid, r.name, node job, os⟩ = .ok t) :
    Calls (.registry job r .failed os) ⟨.complete job .failed, t, none, some (.quarantined job.id)⟩
  | register {job : Job} {r : CloneRequest} {state : JobState} {os : Option OsFamily}
    {t : AccessTables} (hs : state ≠ .failed)
    (h : w.tables.upsertManagedDesktop ⟨job.targetVmid, r.name, node job, os⟩ = .ok t) :
    Calls (.registry job r state os) ⟨.complete job state, t, none, some (.registered job.id)⟩
  | complete (job : Job) (state : JobState) :
    Calls (.complete job state) ⟨.ended, w.tables.completeJobTask job.id state job.upid, none, none⟩

variable {decode digest w}

theorem calls_lastCall {t : Thread} {x : Except StoreError AccessTables}
    (h : ∀ tables, x = .ok tables → Calls decode digest w t ⟨.ended, tables, none, none⟩) :
    Calls decode digest w t (lastCall w x) := by
  cases x with
  | error e => exact .moves (.ended t)
  | ok tables => exact h tables rfl

theorem calls_loadCall (jobId : String) :
    Calls decode digest w (.load jobId) (loadCall w jobId) := by
  unfold loadCall
  split
  · exact .moves (.ended _)
  next job h =>
    cases hc : isClone job with
    | true => exact .moves (.load h hc)
    | false => exact .moves (.loadOther h hc)

theorem calls_reloadCall (job : Job) : Calls decode digest w (.reload job) (reloadCall w job) := by
  unfold reloadCall
  split
  · exact .moves (.ended _)
  next job' h => exact .moves (.reload h)

theorem calls_statusCall (job : Job) (status exitStatus : String) :
    Calls decode digest w (.status job) (statusCall decode w job status exitStatus) := by
  unfold statusCall
  split
  · exact .moves (.ended _)
  split
  · exact .taskFailed job
  split
  next hc =>
    split
    next h => exact .moves (.unreadable hc h)
    next r h => exact .moves (.start hc h)
  next hc => exact .moves (.other (Bool.eq_false_iff.mpr hc))

theorem calls_inventoryCall (job : Job) (r : CloneRequest) (purpose : Purpose) (vms : List VM) :
    Calls decode digest w (.inventory job r purpose) (inventoryCall w job r purpose vms) := by
  unfold inventoryCall
  split
  · split
    · exact .moves (.inspect job r purpose)
    · exact .moves (.ended _)
  · exact .moves (.ended _)

theorem calls_inspectCall (job : Job) (r : CloneRequest) (purpose : Purpose) :
    Calls decode digest w (.inspect job r purpose) (inspectCall w job r purpose) := by
  unfold inspectCall
  split
  · exact .moves (.ended _)
  · split
    · cases purpose with
      | recovery claim => exact .moves (.recovered job r claim)
      | start => exact .start job r
      | finish state os => exact .finish job r state os
    · exact .moves (.ended _)

theorem calls_networkCall (job : Job) (r : CloneRequest) :
    Calls decode digest w (.network job r) (networkCall digest w job r) := by
  unfold networkCall
  split
  · exact .moves (.ended _)
  next c _ =>
    split
    · exact .moves (.ended _)
    next hv =>
      split
      · exact .moves (.network job r)
      split
      · exact .moves (.ended _)
      · exact .moves (.sendNetwork (by simpa using hv))

theorem calls_gpuCall (job : Job) (r : CloneRequest) :
    Calls decode digest w (.gpu job r) (gpuCall digest w job r) := by
  unfold gpuCall
  split
  · exact .moves (.ended _)
  next c hc =>
    split
    · exact .moves (.ended _)
    next hv =>
      simp only [Bool.or_eq_true, Bool.not_eq_true', not_or, Bool.not_eq_false] at hv
      split
      · exact .observed job r
      next hm => exact .moves (.sendGpu hc hv.1 (Bool.eq_false_iff.mpr hm))

theorem calls_sendNetworkCall (job : Job) (r : CloneRequest) (c : VMConfiguration) :
    Calls decode digest w (.sendNetwork job r c) (sendNetworkCall digest w job r c) := by
  unfold sendNetworkCall
  split
  · exact .moves (.ended _)
  next h => exact .sendNetwork h

theorem calls_observeNetworkCall (job : Job) (r : CloneRequest) :
    Calls decode digest w (.observeNetwork job r) (observeNetworkCall w job r) := by
  unfold observeNetworkCall
  split
  · exact .moves (.ended _)
  · split
    · exact .moves (.networkSet job r)
    · exact .moves (.ended _)

theorem calls_sendGpuCall (job : Job) (r : CloneRequest) (c : VMConfiguration) :
    Calls decode digest w (.sendGpu job r c) (sendGpuCall digest w job r c) := by
  unfold sendGpuCall
  split
  · exact .moves (.gpuInvalid job r c)
  next h => exact .sendGpu h

theorem calls_registryCall (job : Job) (r : CloneRequest) (state : JobState)
    (os : Option OsFamily) :
    Calls decode digest w (.registry job r state os) (registryCall w job r state os) := by
  unfold registryCall
  dsimp only
  split
  next hs =>
    subst hs
    split
    · exact .moves (.ended _)
    next h => exact .quarantine h
  next hs =>
    split
    · exact .moves (.ended _)
    next h => exact .register hs h

theorem calls_of_call {t : Thread} {a : Answer} {o : Outcome}
    (h : t.call decode digest w a = some o) : Calls decode digest w t o := by
  unfold Thread.call at h
  split at h
  next job upid =>
    split at h
    · cases h
    · cases h
      exact .moves (.record job upid)
  next job =>
    cases h
    exact .moves (.unknown job)
  next job upid =>
    cases h
    exact calls_lastCall fun _ hok => .record hok
  next job =>
    cases h
    exact .unknown job
  next job r claim =>
    cases h
    exact .moves (.recover job r claim)
  next job claim =>
    cases h
    exact calls_lastCall fun _ hok => .recover hok
  next job r purpose vms =>
    cases h
    exact calls_inventoryCall job r purpose vms
  next job r purpose =>
    cases h
    exact calls_inspectCall job r purpose
  next jobId =>
    cases h
    exact calls_loadCall jobId
  next job =>
    cases h
    exact calls_reloadCall job
  next job st exitStatus =>
    cases h
    exact calls_statusCall job st exitStatus
  next job r =>
    cases h
    exact calls_networkCall job r
  next job r c =>
    cases h
    exact calls_sendNetworkCall job r c
  next job r k =>
    split at h
    · cases h
      exact .moves (.observeNetwork job r k)
    · cases h
      exact .moves (.ended _)
    · cases h
  next job r =>
    cases h
    exact calls_observeNetworkCall job r
  next job r =>
    cases h
    exact calls_gpuCall job r
  next job r c =>
    cases h
    exact calls_sendGpuCall job r c
  next job r k =>
    split at h
    next hk =>
      cases h
      exact .moves (.gpuSet hk)
    · cases h
      exact .moves (.gpuFailed job r k)
    · cases h
  next job r k =>
    cases h
    exact .moves (.gpuFailed job r k)
  next job r state =>
    cases h
    exact .moves (.osType job r state _)
  next job r state =>
    cases h
    exact .moves (.osType job r state none)
  next job r state os =>
    cases h
    exact calls_registryCall job r state os
  next job state =>
    cases h
    exact .complete job state
  · cases h
  · cases h
    exact .moves (.ended _)
  · cases h

end Calls

section Rows

variable {decode : String → Option CloneRequest} {digest : VMConfiguration → String} {w : World}
  {t : Thread} {o : Outcome} {j j' : Job} {p : Job → Bool} {a a' : AccessTables} {upid : String}
  {jobs jobs' : List Job}

theorem sameJob_iff : sameJob j j' = true ↔ j'.id = j.id ∧
    j'.operation = j.operation ∧ j'.sourceVmid = j.sourceVmid ∧ j'.targetVmid = j.targetVmid ∧
    j'.targetNode = j.targetNode ∧ j'.taskNode = j.taskNode ∧ j'.request = j.request := by
  simp only [sameJob, Bool.and_eq_true, beq_iff_eq]
  tauto

theorem sameJob_refl (j : Job) : sameJob j j = true := by simp [sameJob]

theorem sameJob_trans {a b c : Job} (h : sameJob a b = true) (h' : sameJob b c = true) :
    sameJob a c = true := by
  rw [sameJob_iff] at h h' ⊢
  obtain ⟨h₁, h₂, h₃, h₄, h₅, h₆, h₇⟩ := h
  exact ⟨h'.1.trans h₁, h'.2.1.trans h₂, h'.2.2.1.trans h₃, h'.2.2.2.1.trans h₄,
    h'.2.2.2.2.1.trans h₅, h'.2.2.2.2.2.1.trans h₆, h'.2.2.2.2.2.2.trans h₇⟩

theorem isClone_of_sameJob (h : sameJob j j' = true) : isClone j' = isClone j := by
  rw [isClone, isClone, (sameJob_iff.mp h).2.1]

inductive Rewritten (t : Thread) (j : Job) : Job → Prop
  | same : Rewritten t j j
  | attached {upid : String} (hne : upid ≠ "") (h : (j.state = .accepted ∧ j.upid = none) ∨
      (j.state = .running ∧ j.upid = some upid)) :
    Rewritten t j { j with state := .running, upid := some upid }
  | unknown {job : Job} (ht : t = .unknown job) (hid : j.id = job.id) :
    Rewritten t j { j with state := .accepted, upid := none }
  | completed {job : Job} {state : JobState} (ht : t = .complete job state) (hid : j.id = job.id)
      (hrun : j.state = .running) : Rewritten t j { j with state := state, upid := job.upid }

theorem Rewritten.sameJob (h : Rewritten t j j') : sameJob j j' = true := by
  cases h <;> exact sameJob_refl j

def Rewrites (t : Thread) (jobs jobs' : List Job) : Prop :=
  ∃ f : Job → Job, jobs' = jobs.map f ∧ ∀ j, Rewritten t j (f j)

theorem Rewrites.refl (jobs : List Job) : Rewrites t jobs jobs :=
  ⟨id, (List.map_id jobs).symm, fun _ => .same⟩

theorem rewrites_updateWhere {f : Job → Job} (jobs : List Job)
    (hf : ∀ j, p j = true → Rewritten t j (f j)) : Rewrites t jobs (updateWhere p f jobs) := by
  refine ⟨_, rfl, fun j => ?_⟩
  split
  next hp => exact hf j hp
  · exact .same

theorem rewrites_runJobs (hne : upid ≠ "")
    (hp : ∀ j, p j = true → (j.state = .accepted ∧ j.upid = none) ∨
      (j.state = .running ∧ j.upid = some upid))
    (h : a.runJobs p upid = .ok a') : Rewrites t a.jobs a'.jobs := by
  simp only [AccessTables.runJobs, seq_eq_ok] at h
  cases h.2
  exact rewrites_updateWhere _ fun j hj => .attached hne (hp j hj)

theorem rewrites_recordCloneTaskHandle {job : Job} (h : a.recordCloneTaskHandle job upid = .ok a') :
    Rewrites t a.jobs a'.jobs := by
  simp only [AccessTables.recordCloneTaskHandle, seq_eq_ok, ensure_eq_ok, Bool.and_eq_true,
    bne_iff_ne] at h
  refine rewrites_runJobs h.1.1.2 (fun j hj => ?_) h.2
  simpa [Option.isNone_iff_eq_none] using (Bool.and_eq_true_iff.mp hj).2

theorem rewrites_commitCloneRecovery {job : Job} {actorId reason : String} {valid : Bool}
    (h : a.commitCloneRecovery job upid actorId reason valid = .ok a') :
    Rewrites t a.jobs a'.jobs := by
  simp only [AccessTables.commitCloneRecovery, seq_eq_ok, ensure_eq_ok, Bool.and_eq_true] at h
  obtain ⟨hvalid, -, h⟩ := h
  refine rewrites_runJobs ?_ (fun j hj => ?_) h
  · rintro rfl
    have hstart := hvalid.1.1.1.1.1.1.2
    revert hstart
    decide
  · simp only [Bool.and_eq_true, beq_iff_eq, Option.isNone_iff_eq_none] at hj
    exact .inl ⟨hj.1.1.2, hj.1.2⟩

theorem rewrites_of_calls (h : Calls decode digest w t o) :
    Rewrites t w.tables.jobs o.tables.jobs := by
  cases h with
  | record h => exact rewrites_recordCloneTaskHandle h
  | unknown job => exact rewrites_updateWhere _ fun j hj => .unknown rfl (beq_iff_eq.mp hj)
  | recover h => exact rewrites_commitCloneRecovery h
  | quarantine h =>
    simp only [AccessTables.quarantineClonedDesktop, seq_eq_ok] at h
    cases h.2
    exact .refl _
  | register hs h =>
    simp only [AccessTables.upsertManagedDesktop, seq_eq_ok] at h
    cases h.2
    exact .refl _
  | complete job state =>
    refine rewrites_updateWhere _ fun j hj => ?_
    simp only [Bool.and_eq_true, beq_iff_eq] at hj
    exact .completed rfl hj.1 hj.2
  | _ => exact .refl _

theorem Rewrites.ids (h : Rewrites t jobs jobs') : jobs'.map (·.id) = jobs.map (·.id) := by
  obtain ⟨f, rfl, hf⟩ := h
  rw [List.map_map]
  exact List.map_congr_left fun j _ => (sameJob_iff.mp (hf j).sameJob).1

theorem Rewrites.mem (h : Rewrites t jobs jobs') (hj : j ∈ jobs) :
    ∃ j' ∈ jobs', Rewritten t j j' := by
  obtain ⟨f, rfl, hf⟩ := h
  exact ⟨f j, List.mem_map_of_mem hj, hf j⟩

theorem Rewrites.of_mem (h : Rewrites t jobs jobs') (hj' : j' ∈ jobs') :
    ∃ j ∈ jobs, Rewritten t j j' := by
  obtain ⟨f, rfl, hf⟩ := h
  obtain ⟨j, hj, rfl⟩ := List.mem_map.mp hj'
  exact ⟨j, hj, hf j⟩

end Rows

end VcWorkspace.Clone
