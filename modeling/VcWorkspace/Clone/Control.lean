import VcWorkspace.Clone.Calls

/-! # Work under the control lock

A run works on a clone under the control lock of its target. It decides on a
configuration that bears the marker, hands PVE the digest of that configuration,
and checks the marker again before it registers the clone. What a thread knows at
its next call survives the steps of all others.
-/

namespace VcWorkspace.Clone

open Transition Store List Bool
open Option (bind_eq_some_iff map_eq_some_iff mem_toList)

section Invariant

variable (decode : String → Option CloneRequest) (digest : VMConfiguration → String)

def Stored (w : World) (job : Job) : Prop := ∃ j ∈ w.tables.jobs, sameJob job j = true

structure Held (w : World) (i : ℕ) (job : Job) : Prop where
  stored : Stored w job
  clone : isClone job = true
  lock : w.holder job.targetVmid = some i

structure Bound (w : World) (i : ℕ) (job : Job) (r : CloneRequest) : Prop extends
    Held w i job where
  request : decode job.request = some r

/-- The target bore the marker after the last configuration write of the job. -/
def CheckedSince (log : List Entry) (jobId : String) : Prop :=
  ∃ newer older, log = newer ++ .checked jobId :: older ∧ ∀ k, .sent jobId k ∉ newer

def Setting.isMapping : Setting → Bool
  | .hostpci0 _ => true
  | .ipconfig0 _ => false

def MappingDone (requests : List Request) (log : List Entry) (jobId : String) : Prop :=
  .observed jobId ∈ log ∨ ∃ k c q, .accepted k c ∈ log ∧ requests[k]? = some q ∧
    q.job.id = jobId ∧ q.update.setting.isMapping = true

def Mapped (w : World) (job : Job) (r : CloneRequest) (state : JobState) : Prop :=
  state ≠ .failed → r.pciResourceMapping ≠ "" → MappingDone w.requests w.log job.id

structure Settled (requests : List Request) (log : List Entry) (job : Job) (state : JobState) :
    Prop where
  failed : state = .failed →
    .quarantined job.id ∈ log ∨ .taskFailed job.id ∈ log ∨ decode job.request = none
  finished : state ≠ .failed →
    CheckedSince log job.id ∧ .registered job.id ∈ log ∧ ∃ r, decode job.request = some r ∧
      (r.pciResourceMapping ≠ "" → MappingDone requests log job.id)

def Purpose.Ok (w : World) (job : Job) (r : CloneRequest) : Purpose → Prop
  | .finish state _ => Mapped w job r state
  | _ => True

def Thread.Ok (w : World) (i : ℕ) : Thread → Prop
  | .submit job | .record job _ | .unknown job => Stored w job
  | .recoverLock job r _ => Stored w job ∧ isClone job = true ∧ decode job.request = some r
  | .recoverTask job r _ => Bound decode w i job r
  | .recoverCommit job _ => Held w i job
  | .inventory job r purpose | .inspect job r purpose =>
    Bound decode w i job r ∧ purpose.Ok w job r
  | .load _ => True
  | .lock job => Stored w job ∧ isClone job = true
  | .reload job => Held w i job
  | .status job => Stored w job ∧ (isClone job = true → Held w i job)
  | .network job r | .awaitNetwork job r _ | .observeNetwork job r | .gpu job r =>
    Bound decode w i job r
  | .sendNetwork job r c => Bound decode w i job r ∧ verified job r c = true
  | .sendGpu job r c => Bound decode w i job r ∧ verified job r c = true ∧ r.mapped c = false
  | .awaitGpu job r k => Bound decode w i job r ∧ ∃ q, w.requests[k]? = some q ∧
    q.job.id = job.id ∧ q.update.setting.isMapping = true
  | .osType job r state => Bound decode w i job r ∧ Mapped w job r state
  | .registry job r state _ =>
    Bound decode w i job r ∧ Mapped w job r state ∧ CheckedSince w.log job.id
  | .complete job state => Stored w job ∧
    (isClone job = true → Held w i job ∧ Settled decode w.requests w.log job state)
  | .ended => True

/-- A write was decided on a configuration of its digest that bore the marker, and one of the
mapping on a configuration without it. -/
structure RequestOk (w : World) (q : Request) : Prop where
  stored : Stored w q.job
  clone : isClone q.job = true
  request : decode q.job.request = some q.r
  node : q.update.node = node q.job
  vmid : q.update.vmid = q.job.targetVmid
  decided : ∃ c, q.update.digest = digest c ∧ validConfigurationDigest (digest c) = true ∧
    verified q.job q.r c = true ∧ (q.update.setting.isMapping = true → q.r.mapped c = false ∧
      configureMapping q.job q.r (digest c) = .ok q.update)

structure WorldOk (w : World) : Prop where
  ids : (w.tables.jobs.map (·.id)).Nodup
  admitted : ∀ j ∈ w.tables.jobs, isClone j = true → ∀ r, decode j.request = some r →
    r.admitted = true
  threads : ∀ (i : ℕ) (t : Thread), w.threads[i]? = some t → t.Ok decode w i
  requests : ∀ q ∈ w.requests, RequestOk decode digest w q
  accepted : ∀ k c, .accepted k c ∈ w.log → ∃ q, w.requests[k]? = some q ∧
    digest c = q.update.digest
  progress : ∀ k, w.progress k = some .accepted → ∃ c, .accepted k c ∈ w.log

end Invariant

variable {decode : String → Option CloneRequest} {digest : VMConfiguration → String} {w w' : World}
  {i : ℕ} {job : Job} {r : CloneRequest} {state : JobState}

section Carries

variable {log : List Entry}

structure Carries (w w' : World) : Prop where
  jobs : ∀ j ∈ w.tables.jobs, ∃ j' ∈ w'.tables.jobs, sameJob j j' = true
  requests : ∀ (k : ℕ) (q : Request), w.requests[k]? = some q → ∃ q', w'.requests[k]? = some q' ∧
    q'.job = q.job ∧ q'.r = q.r ∧ q'.update = q.update
  log : ∃ new : Option Entry, w'.log = new.toList ++ w.log

/-- A step leaves a thread its locks, and sends nothing for the job that it works on. -/
structure Leaves (i : ℕ) (w w' : World) : Prop where
  lock : ∀ v, w.holder v = some i → w'.holder v = some i
  quiet : ∀ job, Held w i job → ∀ new : Option Entry, w'.log = new.toList ++ w.log →
    ∀ k, new ≠ some (.sent job.id k)

theorem Carries.mem_log (h : Carries w w') {e : Entry} (he : e ∈ w.log) : e ∈ w'.log := by
  obtain ⟨new, hnew⟩ := h.log
  rw [hnew]
  exact mem_append_right _ he

theorem Carries.stored (h : Carries w w') (hj : Stored w job) : Stored w' job := by
  obtain ⟨j, hj, hsame⟩ := hj
  obtain ⟨j', hj', hsame'⟩ := h.jobs j hj
  exact ⟨j', hj', sameJob_trans hsame hsame'⟩

theorem Carries.held (h : Carries w w') (hl : ∀ v, w.holder v = some i → w'.holder v = some i)
    (hh : Held w i job) : Held w' i job :=
  ⟨h.stored hh.stored, hh.clone, hl _ hh.lock⟩

theorem Carries.bound (h : Carries w w') (hl : ∀ v, w.holder v = some i → w'.holder v = some i)
    (hb : Bound decode w i job r) : Bound decode w' i job r :=
  ⟨h.held hl hb.toHeld, hb.request⟩

theorem Carries.mappingDone (h : Carries w w') {jobId : String}
    (hm : MappingDone w.requests log jobId) : MappingDone w'.requests log jobId := by
  rcases hm with hobs | ⟨k, c, q, hk, hq, hid, hset⟩
  · exact .inl hobs
  · obtain ⟨q', hq', hjob, -, hupdate⟩ := h.requests k q hq
    exact .inr ⟨k, c, q', hk, hq', hjob ▸ hid, hupdate ▸ hset⟩

theorem MappingDone.mono {requests : List Request} {log' : List Entry} {jobId : String}
    (hm : MappingDone requests log jobId) (h : ∀ e ∈ log, e ∈ log') :
    MappingDone requests log' jobId :=
  hm.imp (h _) fun ⟨k, c, q, hk, hq⟩ => ⟨k, c, q, h _ hk, hq⟩

theorem Carries.mapped (h : Carries w w') (hm : Mapped w job r state) : Mapped w' job r state :=
  fun hs hr => (h.mappingDone (hm hs hr)).mono fun _ => h.mem_log

theorem Carries.checkedSince (h : Carries w w') (hl : Leaves i w w') (hh : Held w i job)
    (hc : CheckedSince w.log job.id) : CheckedSince w'.log job.id := by
  obtain ⟨new, hnew⟩ := h.log
  obtain ⟨newer, older, hlog, hsent⟩ := hc
  refine ⟨new.toList ++ newer, older, by rw [hnew, hlog, append_assoc], fun k hk => ?_⟩
  rcases mem_append.mp hk with hk | hk
  · exact hl.quiet job hh new hnew k (mem_toList.mp hk)
  · exact hsent k hk

theorem Carries.settled (h : Carries w w') (hl : Leaves i w w') (hh : Held w i job)
    (hs : Settled decode w.requests w.log job state) :
    Settled decode w'.requests w'.log job state := by
  constructor
  · intro hf
    exact (hs.failed hf).imp h.mem_log (Or.imp_left h.mem_log)
  · intro hne
    obtain ⟨hchecked, hreg, r, hr, hm⟩ := hs.finished hne
    exact ⟨h.checkedSince hl hh hchecked, h.mem_log hreg, r, hr,
      fun hne => (h.mappingDone (hm hne)).mono fun _ => h.mem_log⟩

theorem Carries.thread (h : Carries w w') (hl : Leaves i w w') {t : Thread}
    (ht : t.Ok decode w i) : t.Ok decode w' i := by
  cases t with
  | submit | record | unknown => exact h.stored ht
  | recoverLock | lock => exact ⟨h.stored ht.1, ht.2⟩
  | recoverTask | network | awaitNetwork | observeNetwork | gpu => exact h.bound hl.lock ht
  | recoverCommit | reload => exact h.held hl.lock ht
  | inventory job r purpose | inspect job r purpose =>
    refine ⟨h.bound hl.lock ht.1, ?_⟩
    cases purpose with
    | finish state os => exact h.mapped ht.2
    | recovery | start => trivial
  | load | ended => trivial
  | status job => exact ⟨h.stored ht.1, fun hc => h.held hl.lock (ht.2 hc)⟩
  | sendNetwork | sendGpu => exact ⟨h.bound hl.lock ht.1, ht.2⟩
  | awaitGpu job r k =>
    obtain ⟨hb, q, hq, hid, hset⟩ := ht
    obtain ⟨q', hq', hjob, -, hupdate⟩ := h.requests k q hq
    exact ⟨h.bound hl.lock hb, q', hq', hjob ▸ hid, hupdate ▸ hset⟩
  | osType job r state => exact ⟨h.bound hl.lock ht.1, h.mapped ht.2⟩
  | registry job r state os =>
    exact ⟨h.bound hl.lock ht.1, h.mapped ht.2.1, h.checkedSince hl ht.1.toHeld ht.2.2⟩
  | complete job state =>
    refine ⟨h.stored ht.1, fun hc => ?_⟩
    obtain ⟨hh, hs⟩ := ht.2 hc
    exact ⟨h.held hl.lock hh, h.settled hl hh hs⟩

end Carries

section Jobs

theorem Rewrites.admitted {t : Thread} {jobs jobs' : List Job} (h : Rewrites t jobs jobs')
    (ha : ∀ j ∈ jobs, isClone j = true → ∀ r, decode j.request = some r → r.admitted = true) :
    ∀ j ∈ jobs', isClone j = true → ∀ r, decode j.request = some r → r.admitted = true := by
  intro j' hj' hc r hr
  obtain ⟨j, hj, hsame⟩ := h.of_mem hj'
  rw [isClone_of_sameJob hsame.sameJob] at hc
  rw [(sameJob_iff.mp hsame.sameJob).2.2.2.2.2.2] at hr
  exact ha j hj hc r hr

theorem WorldOk.eq_of_id (hw : WorldOk decode digest w) {j j' : Job} (hj : j ∈ w.tables.jobs)
    (hj' : j' ∈ w.tables.jobs) (h : j.id = j'.id) : j = j' :=
  inj_on_of_nodup_map hw.ids hj hj' h

theorem WorldOk.unique (hw : WorldOk decode digest w) {i i' : ℕ} {job job' : Job}
    (h : Held w i job) (h' : Held w i' job') (hid : job.id = job'.id) : i = i' := by
  obtain ⟨j, hj, hsame⟩ := h.stored
  obtain ⟨j', hj', hsame'⟩ := h'.stored
  rw [sameJob_iff] at hsame hsame'
  obtain rfl := hw.eq_of_id hj hj' (hsame.1.trans (hid.trans hsame'.1.symm))
  have hlock := h.lock
  rw [← hsame.2.2.2.1, hsame'.2.2.2.1, h'.lock] at hlock
  exact (Option.some.inj hlock).symm

theorem mem_of_refreshable {jobId : String} {job : Job} (h : refreshable w jobId = some job) :
    job ∈ w.tables.jobs ∧ job.id = jobId ∧ job.state = .running ∧ hasTask job = true := by
  obtain ⟨hfind, hp⟩ := Option.filter_eq_some_iff.mp h
  simp only [and_eq_true, beq_iff_eq] at hp
  have hid := find?_some (p := fun j : Job => j.id == jobId) hfind
  exact ⟨mem_of_find?_eq_some hfind, beq_iff_eq.mp hid, hp⟩

end Jobs

section Threads

theorem ok_afterGpu (hb : Bound decode w i job r) (hm : Mapped w job r state) :
    (afterGpu job r state).Ok decode w i := by
  unfold afterGpu
  split
  · exact ⟨hb, hm⟩
  · exact ⟨hb, hm⟩

theorem ok_afterNetwork (hb : Bound decode w i job r) : (afterNetwork job r).Ok decode w i := by
  unfold afterNetwork
  split
  · exact hb
  next hne => exact ok_afterGpu hb fun _ hr => absurd hr hne

theorem ok_afterStart (hb : Bound decode w i job r) : (afterStart job r).Ok decode w i := by
  unfold afterStart
  split
  · exact hb
  · exact ok_afterNetwork hb

theorem ok_of_moves (hw : WorldOk decode digest w) {t t' : Thread} (ht : t.Ok decode w i)
    (h : Moves decode w t t') : t'.Ok decode w i := by
  cases h with
  | ended => trivial
  | record | unknown | inspect | observeNetwork | osType => exact ht
  | recover => exact ⟨ht, trivial⟩
  | recovered => exact ht.1.toHeld
  | load h hc => exact ⟨⟨_, (mem_of_refreshable h).1, sameJob_refl _⟩, hc⟩
  | loadOther h hc =>
    refine ⟨⟨_, (mem_of_refreshable h).1, sameJob_refl _⟩, fun hc' => ?_⟩
    rw [hc] at hc'
    cases hc'
  | reload h =>
    obtain ⟨hmem, hid, -⟩ := mem_of_refreshable h
    obtain ⟨j, hj, hsame⟩ := ht.stored
    obtain rfl := hw.eq_of_id hj hmem ((sameJob_iff.mp hsame).1.trans hid.symm)
    have hstored : Stored w j := ⟨j, hj, sameJob_refl j⟩
    refine ⟨hstored, fun _ => ⟨hstored, ?_, ?_⟩⟩
    · rw [isClone_of_sameJob hsame]
      exact ht.clone
    · rw [(sameJob_iff.mp hsame).2.2.2.1]
      exact ht.lock
  | unreadable hc h =>
    exact ⟨ht.1, fun _ => ⟨ht.2 hc, fun _ => .inr (.inr h), fun hne => absurd rfl hne⟩⟩
  | start hc h => exact ⟨⟨ht.2 hc, h⟩, trivial⟩
  | other hc =>
    refine ⟨ht.1, fun hc' => ?_⟩
    rw [hc] at hc'
    cases hc'
  | network | networkSet => exact ok_afterNetwork ht
  | sendNetwork hv => exact ⟨ht, hv⟩
  | sendGpu _ hv hm => exact ⟨ht, hv, hm⟩
  | gpuInvalid | gpuFailed => exact ok_afterGpu ht.1 fun hne => absurd rfl hne
  | gpuSet h =>
    obtain ⟨hb, q, hq, hid, hset⟩ := ht
    obtain ⟨c, hc⟩ := hw.progress _ h
    exact ok_afterGpu hb fun _ _ => .inr ⟨_, c, q, hc, hq, hid, hset⟩

end Threads

variable {t : Thread} {o : Outcome}

section Resume

variable {u : ConfigUpdate}

theorem carries_resume (h : Calls decode digest w t o) : Carries w (w.resume i o) where
  jobs j hj := by
    obtain ⟨j', hj', hsame⟩ := (rewrites_of_calls h).mem hj
    exact ⟨j', hj', hsame.sameJob⟩
  requests k q hq := by
    obtain ⟨hlt, -⟩ := List.getElem?_eq_some_iff.mp hq
    refine ⟨q, ?_, rfl, rfl, rfl⟩
    simp only [World.resume]
    rw [getElem?_append_left hlt, hq]
  log := ⟨o.entry, rfl⟩

theorem holder_resume {i' : ℕ} (h : i' ≠ i ∨ o.thread ≠ .ended) (v : ℕ)
    (hv : w.holder v = some i') : (w.resume i o).holder v = some i' := by
  simp only [World.resume]
  split
  next hover =>
    have hne : i' ≠ i := h.resolve_right fun hn => hn hover
    rw [World.release, if_neg (by rw [hv]; exact fun heq => hne (Option.some.inj heq)), hv]
  · exact hv

theorem held_of_sent (h : Calls decode digest w t o) (ht : t.Ok decode w i) {id : String} {k : ℕ}
    (he : o.entry = some (.sent id k)) : ∃ job, Held w i job ∧ job.id = id := by
  cases h with
  | sendNetwork | sendGpu =>
    cases he
    exact ⟨_, ht.1.toHeld, rfl⟩
  | _ => cases he

theorem new_eq_of_append {log : List Entry} {a b : Option Entry}
    (h : a.toList ++ log = b.toList ++ log) : a = b := by
  cases a <;> cases b <;> simp_all

theorem leaves_resume (hw : WorldOk decode digest w) (h : Calls decode digest w t o)
    (ht : t.Ok decode w i) {i' : ℕ} (hne : i' ≠ i) : Leaves i' w (w.resume i o) where
  lock := holder_resume (.inl hne)
  quiet job hh new hnew _ he := by
    obtain rfl := new_eq_of_append hnew
    obtain ⟨job', hh', hid⟩ := held_of_sent h ht he
    exact hne (hw.unique hh hh' hid.symm)

theorem configureVMPrimaryDHCP_ok {node digest : String} {vmid : ℕ}
    (h : configureVMPrimaryDHCP node vmid digest = .ok u) :
    u.node = node ∧ u.vmid = vmid ∧ u.digest = digest ∧ validConfigurationDigest digest = true ∧
      u.setting.isMapping = false := by
  simp only [configureVMPrimaryDHCP, seq_eq_ok, ensure_eq_ok, and_eq_true] at h
  cases h.2
  exact ⟨rfl, rfl, rfl, h.1.2, rfl⟩

theorem configureMapping_ok {job : Job} {r : CloneRequest} {digest : String}
    (h : configureMapping job r digest = .ok u) :
    u.node = node job ∧ u.vmid = job.targetVmid ∧ u.digest = digest ∧
      validConfigurationDigest digest = true ∧ u.setting.isMapping = true := by
  unfold configureMapping at h
  split at h
  · simp only [configureVMMDevResourceMapping, seq_eq_ok, ensure_eq_ok, and_eq_true] at h
    cases h.2
    exact ⟨rfl, rfl, rfl, h.1.2, rfl⟩
  · simp only [configureVMPCIResourceMapping, seq_eq_ok, ensure_eq_ok, and_eq_true] at h
    cases h.2
    exact ⟨rfl, rfl, rfl, h.1.2, rfl⟩

theorem leaves_own (hover : o.thread ≠ .ended) (hsent : ∀ id k, o.entry ≠ some (.sent id k)) :
    Leaves i w (w.resume i o) where
  lock := holder_resume (.inr hover)
  quiet job _ new hnew k he := by
    obtain rfl := new_eq_of_append hnew
    exact hsent _ k he

theorem mem_resume_log {e : Entry} (h : o.entry = some e) : e ∈ (w.resume i o).log := by
  simp [World.resume, h]

theorem ok_of_calls (hw : WorldOk decode digest w) (ht : t.Ok decode w i)
    (h : Calls decode digest w t o) : o.thread.Ok decode (w.resume i o) i := by
  have hc : Carries w (w.resume i o) := carries_resume h
  by_cases hover : o.thread = .ended
  · rw [hover]
    trivial
  have hlock : ∀ v, w.holder v = some i → (w.resume i o).holder v = some i :=
    holder_resume (.inr hover)
  cases h with
  | moves h =>
    have hl : Leaves i w _ := leaves_own hover (by rintro id k ⟨⟩)
    exact hc.thread hl (ok_of_moves hw ht h)
  | taskFailed job =>
    refine ⟨hc.stored ht.1, fun hclone => ⟨hc.held hlock (ht.2 hclone), fun _ => ?_,
      fun hne => absurd rfl hne⟩⟩
    exact .inr (.inl (mem_resume_log rfl))
  | start job r =>
    have hl : Leaves i w _ := leaves_own hover (by rintro id k ⟨⟩)
    exact hc.thread hl (ok_afterStart ht.1)
  | finish job r state os =>
    exact ⟨hc.bound hlock ht.1, hc.mapped ht.2, [], w.log, rfl, fun _ => not_mem_nil⟩
  | sendNetwork h => exact hc.bound hlock ht.1
  | observed job r =>
    exact ok_afterGpu (hc.bound hlock ht) fun _ _ => .inl (mem_resume_log rfl)
  | sendGpu h =>
    exact ⟨hc.bound hlock ht.1, _, getElem?_concat_length, rfl, (configureMapping_ok h).2.2.2.2⟩
  | quarantine h =>
    refine ⟨hc.stored ht.1.stored, fun _ => ⟨hc.held hlock ht.1.toHeld, fun _ => ?_,
      fun hne => absurd rfl hne⟩⟩
    exact .inl (mem_resume_log rfl)
  | register hs h =>
    have hl : Leaves i w _ := leaves_own hover (by rintro id k ⟨⟩)
    refine ⟨hc.stored ht.1.stored, fun _ => ⟨hc.held hlock ht.1.toHeld, fun hf => absurd hf hs,
      fun _ => ⟨hc.checkedSince hl ht.1.toHeld ht.2.2, mem_resume_log rfl, _, ht.1.request, ?_⟩⟩⟩
    exact hc.mapped ht.2.1 hs
  | record | unknown | recover | complete => exact absurd rfl hover

end Resume

section Step

variable {k : ℕ} {q : Request}

theorem WorldOk.next (hw : WorldOk decode digest w) (new : Option Entry) (hc : Carries w w')
    (hlog : w'.log = new.toList ++ w.log) (hids : (w'.tables.jobs.map (·.id)).Nodup)
    (hadm : ∀ j ∈ w'.tables.jobs, isClone j = true → ∀ r, decode j.request = some r →
      r.admitted = true)
    (hthreads : ∀ (i : ℕ) (t : Thread), w'.threads[i]? = some t →
      (w.threads[i]? = some t ∧ Leaves i w w') ∨ t.Ok decode w' i)
    (hreq : ∀ q' ∈ w'.requests, (∃ q ∈ w.requests, q'.job = q.job ∧ q'.r = q.r ∧
      q'.update = q.update) ∨ RequestOk decode digest w' q')
    (hacc : ∀ k c, new = some (.accepted k c) → ∃ q, w'.requests[k]? = some q ∧
      digest c = q.update.digest)
    (hprog : ∀ k, w'.progress k = some .accepted → w.progress k = some .accepted ∨
      ∃ c, new = some (.accepted k c)) :
    WorldOk decode digest w' where
  ids := hids
  admitted := hadm
  threads i t ht := by
    rcases hthreads i t ht with ⟨hold, hl⟩ | hok
    · exact hc.thread hl (hw.threads i t hold)
    · exact hok
  requests q' hq' := by
    rcases hreq q' hq' with ⟨q, hq, hjob, hr, hupdate⟩ | hok
    · obtain ⟨hst, hcl, hdec, hnode, hvmid, hdecided⟩ := hw.requests q hq
      refine ⟨?_, ?_, ?_, ?_, ?_, ?_⟩
      · rw [hjob]
        exact hc.stored hst
      all_goals
        simp only [hjob, hr, hupdate]
        assumption
    · exact hok
  accepted k c he := by
    rw [hlog] at he
    rcases mem_append.mp he with he | he
    · exact hacc k c (mem_toList.mp he)
    · obtain ⟨q, hq, hdigest⟩ := hw.accepted k c he
      obtain ⟨q', hq', -, -, hupdate⟩ := hc.requests k q hq
      exact ⟨q', hq', hupdate ▸ hdigest⟩
  progress k hk := by
    rcases hprog k hk with hold | ⟨c, hnew⟩
    · obtain ⟨c, hc'⟩ := hw.progress k hold
      exact ⟨c, hc.mem_log hc'⟩
    · exact ⟨c, by simp [hlog, hnew]⟩

theorem carries_of_eq (hj : w'.tables.jobs = w.tables.jobs) (hr : w'.requests = w.requests)
    (hl : w'.log = w.log) : Carries w w' where
  jobs j h := ⟨j, hj ▸ h, sameJob_refl j⟩
  requests _ q h := ⟨q, hr ▸ h, rfl, rfl, rfl⟩
  log := ⟨none, hl⟩

theorem leaves_of_eq (hl : w'.log = w.log) (hlock : ∀ v, w.holder v = some i → w'.holder v = some i)
    : Leaves i w w' where
  lock := hlock
  quiet job _ new hnew _ he := by
    rw [hl] at hnew
    obtain rfl := new_eq_of_append (a := none) hnew
    cases he

theorem WorldOk.quiet (hw : WorldOk decode digest w) (hj : w'.tables.jobs = w.tables.jobs)
    (hr : w'.requests = w.requests) (hl : w'.log = w.log)
    (hthreads : ∀ (i : ℕ) (t : Thread), w'.threads[i]? = some t →
      (w.threads[i]? = some t ∧ ∀ v, w.holder v = some i → w'.holder v = some i) ∨
        t.Ok decode w' i) :
    WorldOk decode digest w' := by
  have hc := carries_of_eq hj hr hl
  refine hw.next none hc hl (hj ▸ hw.ids) (hj ▸ hw.admitted) (fun i t ht => ?_)
    (fun q hq => .inl ⟨q, hr ▸ hq, rfl, rfl, rfl⟩) (by rintro k c ⟨⟩) (fun k hk => .inl ?_)
  · exact (hthreads i t ht).imp_left fun ⟨hold, hlock⟩ => ⟨hold, leaves_of_eq hl hlock⟩
  · rw [World.progress, hr] at hk
    exact hk

theorem WorldOk.database (hw : WorldOk decode digest w) {t : AccessTables}
    (h : w.admitsJobs t.jobs = true) : WorldOk decode digest { w with tables := t } := by
  simp only [World.admitsJobs, and_eq_true, decide_eq_true_eq, all_eq_true,
    any_eq_true, or_eq_true, not_eq_true', contains_iff_mem] at h
  obtain ⟨⟨hids, hkept⟩, hclones⟩ := h
  have hc : Carries w { w with tables := t } := by
    refine ⟨fun j hj => ?_, fun k q hq => ⟨q, hq, rfl, rfl, rfl⟩, none, rfl⟩
    obtain ⟨j', hj', hsame, -⟩ := hkept j hj
    exact ⟨j', hj', hsame⟩
  refine hw.next none hc rfl hids (fun j hj hclone => ?_)
    (fun i u hu => .inl ⟨hu, leaves_of_eq rfl fun _ hv => hv⟩)
    (fun q hq => .inl ⟨q, hq, rfl, rfl, rfl⟩)
    (by rintro k c ⟨⟩) (fun k hk => .inl hk)
  refine hw.admitted j ((hclones j hj).resolve_left fun hno => ?_) hclone
  rw [hclone] at hno
  cases hno

theorem WorldOk.settle (hw : WorldOk decode digest w) {state : RequestState} (new : Option Entry)
    (hq : w.requests[k]? = some q)
    (hrequests : w'.requests = w.requests.set k { q with state := state })
    (htables : w'.tables = w.tables) (hthreads : w'.threads = w.threads)
    (hholder : w'.holder = w.holder) (hlog : w'.log = new.toList ++ w.log)
    (hnew : (new = none ∧ state ≠ .accepted) ∨
      ∃ c, new = some (.accepted k c) ∧ digest c = q.update.digest) :
    WorldOk decode digest w' := by
  obtain ⟨hlt, -⟩ := List.getElem?_eq_some_iff.mp hq
  have hset : w'.requests[k]? = some { q with state := state } := by
    rw [hrequests, getElem?_set_self hlt]
  have hother : ∀ {k' : ℕ}, k' ≠ k → w'.requests[k']? = w.requests[k']? := fun hne => by
    rw [hrequests, getElem?_set_ne hne.symm]
  have hc : Carries w w' := by
    refine ⟨fun j hj => ⟨j, htables ▸ hj, sameJob_refl j⟩, fun k' q' hq' => ?_, new, hlog⟩
    by_cases hk : k' = k
    · subst hk
      cases hq.symm.trans hq'
      exact ⟨_, hset, rfl, rfl, rfl⟩
    · exact ⟨q', (hother hk).trans hq', rfl, rfl, rfl⟩
  have hsent : ∀ id k', new ≠ some (.sent id k') := by
    rintro id k' rfl
    rcases hnew with ⟨hnone, -⟩ | ⟨c, hsome, -⟩
    · cases hnone
    · cases hsome
  refine hw.next new hc hlog (htables ▸ hw.ids) (htables ▸ hw.admitted)
    (fun i t ht => .inl ⟨hthreads ▸ ht, fun v hv => hholder ▸ hv, ?_⟩) (fun q' hq' => ?_)
    (fun k' c he => ?_) (fun k' hk' => ?_)
  · intro job _ new' hnew' k' he
    rw [hlog] at hnew'
    obtain rfl := new_eq_of_append hnew'
    exact hsent _ k' he
  · rw [hrequests] at hq'
    rcases mem_or_eq_of_mem_set hq' with hmem | rfl
    · exact .inl ⟨q', hmem, rfl, rfl, rfl⟩
    · exact .inl ⟨q, mem_of_getElem? hq, rfl, rfl, rfl⟩
  · subst he
    rcases hnew with ⟨hnone, -⟩ | ⟨c', hsome, hdigest⟩
    · cases hnone
    · cases hsome
      exact ⟨_, hset, hdigest⟩
  · by_cases hk : k' = k
    · subst hk
      rw [World.progress, hset] at hk'
      rcases hnew with ⟨-, hne⟩ | ⟨c, hsome, -⟩
      · exact absurd (Option.some.inj hk') hne
      · exact .inr ⟨c, hsome⟩
    · rw [World.progress, hother hk] at hk'
      exact .inl hk'

theorem serve_cases {stored : String} (h : w.serve digest k stored = some w') :
    ∃ q, w.requests[k]? = some q ∧ (w' = w.settle k q .rejected ∨
      ∃ c, w.configs q.update.node q.update.vmid = some c ∧ digest c = q.update.digest ∧
        q.update.setting.keeps stored = true ∧
        w' = { (w.settle k q .accepted).setConfig q.update.node q.update.vmid
            (some (c.apply q.update.setting stored)) with
          log := .accepted k c :: w.log }) := by
  obtain ⟨q, hq, h⟩ := bind_eq_some_iff.mp h
  refine ⟨q, hq, ?_⟩
  split at h
  · cases h
  split at h
  · exact .inl (Option.some.inj h).symm
  next c hc =>
    split at h
    · exact .inl (Option.some.inj h).symm
    next hdigest =>
      split at h
      next hkeeps =>
        exact .inr ⟨c, hc, Decidable.of_not_not hdigest, hkeeps, (Option.some.inj h).symm⟩
      · cases h

theorem WorldOk.serve (hw : WorldOk decode digest w) {stored : String}
    (h : w.serve digest k stored = some w') : WorldOk decode digest w' := by
  obtain ⟨q, hq, rfl | ⟨c, -, hdigest, -, rfl⟩⟩ := serve_cases h
  · exact hw.settle none hq rfl rfl rfl rfl rfl (.inl ⟨rfl, by decide⟩)
  · exact hw.settle (some (.accepted k c)) hq rfl rfl rfl rfl rfl (.inr ⟨c, rfl, hdigest⟩)

theorem WorldOk.spawn (hw : WorldOk decode digest w) (ht : t.Ok decode w w.threads.length) :
    WorldOk decode digest { w with threads := w.threads ++ [t] } := by
  have hc : Carries w { w with threads := w.threads ++ [t] } := carries_of_eq rfl rfl rfl
  refine hw.quiet rfl rfl rfl fun i u hu => ?_
  rcases getElem?_concat_cases hu with hold | ⟨rfl, rfl⟩
  · exact .inl ⟨hold, fun _ hv => hv⟩
  · exact .inr (hc.thread (leaves_of_eq rfl fun _ hv => hv) ht)

theorem create_cases {job : Job} {occupied : List ℕ} (h : w.create decode job occupied = some w') :
    w' = w ∨ ∃ target stored, (∀ r, decode job.request = some r → r.admitted = true) ∧
      (∀ j ∈ w.tables.jobs, j.id ≠ job.id) ∧ w.tables.targetTaken target = false ∧
      stored = { job with targetVmid := target, upid := none } ∧ isClone stored = true ∧
      w' = { w with
        tables := { w.tables with jobs := w.tables.jobs ++ [stored] }
        threads := w.threads ++ [.submit stored] } := by
  unfold World.create at h
  split at h
  next hadm =>
    split at h
    · cases h
    next t ht =>
      split at h
      · exact .inl (Option.some.inj h).symm
      next hkey =>
        rcases AccessTables.reserveDesktopCloneJob_ok ht with
          ⟨hsome, -⟩ | ⟨-, hop, -, target, -, hins⟩
        · exact absurd (find?_isSome.mp hsome) (by simpa using hkey)
        · obtain ⟨htaken, hid, rfl⟩ := AccessTables.insertCloneJob_ok hins
          obtain ⟨stored, hstored, rfl⟩ := map_eq_some_iff.mp h
          have heq : stored = { job with targetVmid := target, upid := none } := by
            rw [AccessTables.jobById, find?_append, find?_eq_none.mpr (by simpa using hid)]
              at hstored
            simpa using hstored.symm
          refine .inr ⟨target, stored, fun r hr => ?_, hid, htaken, heq, ?_, ?_⟩
          · rw [hr] at hadm
            exact hadm
          · rw [heq]
            simp [isClone, hop]
          · rw [← heq]
  · cases h

theorem WorldOk.addJob (hw : WorldOk decode digest w) (job : Job)
    (hadm : ∀ r, decode job.request = some r → r.admitted = true)
    (hid : ∀ j ∈ w.tables.jobs, j.id ≠ job.id) : WorldOk decode digest
      { w with tables := { w.tables with jobs := w.tables.jobs ++ [job] } } := by
  have hc : Carries w { w with tables := { w.tables with jobs := w.tables.jobs ++ [job] } } :=
    ⟨fun j hj => ⟨j, mem_append_left _ hj, sameJob_refl j⟩,
      fun k q hq => ⟨q, hq, rfl, rfl, rfl⟩, none, rfl⟩
  refine hw.next none hc rfl ?_ (fun j hj hclone r hr => ?_)
    (fun i u hu => .inl ⟨hu, leaves_of_eq rfl fun _ hv => hv⟩)
    (fun q hq => .inl ⟨q, hq, rfl, rfl, rfl⟩) (by rintro k c ⟨⟩) (fun k hk => .inl hk)
  · rw [map_append, map_singleton, ← concat_eq_append, nodup_concat]
    refine ⟨fun hmem => ?_, hw.ids⟩
    obtain ⟨j, hj, heq⟩ := mem_map.mp hmem
    exact hid j hj heq
  · rcases mem_append.mp hj with hj | hj
    · exact hw.admitted j hj hclone r hr
    · obtain rfl := mem_singleton.mp hj
      exact hadm r hr

theorem WorldOk.create (hw : WorldOk decode digest w) {job : Job} {occupied : List ℕ}
    (h : w.create decode job occupied = some w') : WorldOk decode digest w' := by
  rcases create_cases h with rfl | ⟨target, stored, hadm, hid, -, hstored, -, rfl⟩
  · exact hw
  · have hw₁ := hw.addJob stored (by rw [hstored]; exact hadm) (by rw [hstored]; exact hid)
    exact hw₁.spawn ⟨stored, mem_append_right _ (mem_singleton_self _), sameJob_refl _⟩

theorem WorldOk.recover (hw : WorldOk decode digest w) {jobId : String} {claim : Recovery}
    (h : w.recover decode jobId claim = some w') : WorldOk decode digest w' := by
  obtain ⟨job, hjob, h⟩ := bind_eq_some_iff.mp h
  obtain ⟨r, hr, h⟩ := bind_eq_some_iff.mp h
  split at h
  next hguard =>
    simp only [and_eq_true] at hguard
    cases h
    exact hw.spawn ⟨⟨job, mem_of_find?_eq_some hjob, sameJob_refl job⟩,
      hguard.1.1.1.1.1.1.1.1, hr⟩
  · cases h

theorem WorldOk.acquire (hw : WorldOk decode digest w) (h : w.acquire i = some w') :
    WorldOk decode digest w' := by
  obtain ⟨⟨job, t'⟩, hp, h⟩ := bind_eq_some_iff.mp h
  obtain ⟨t, ht, hwait⟩ := bind_eq_some_iff.mp hp
  split at h
  next hfree =>
    cases h
    refine hw.quiet rfl rfl rfl fun i' u hu => ?_
    rcases getElem?_set_cases hu with ⟨rfl, rfl⟩ | ⟨-, hu⟩
    · right
      have hok := hw.threads i' t ht
      unfold World.waiting at hwait
      split at hwait
      · cases hwait
        exact ⟨hok.1, hok.2, if_pos rfl⟩
      · cases hwait
        exact ⟨⟨hok.1, hok.2.1, if_pos rfl⟩, hok.2.2⟩
      · cases hwait
    · refine .inl ⟨hu, fun v hv => ?_⟩
      have hne : v ≠ job.targetVmid := by
        rintro rfl
        rw [hfree.2] at hv
        cases hv
      exact (if_neg hne).trans hv
  · cases h

theorem requestOk_of_sent (h : Calls decode digest w t o) (ht : t.Ok decode w i)
    (hq : o.sent = some q) : RequestOk decode digest (w.resume i o) q := by
  have hc : Carries w (w.resume i o) := carries_resume h
  cases h with
  | sendNetwork h =>
    cases hq
    obtain ⟨hnode, hvmid, hdigest, hvalid, hset⟩ := configureVMPrimaryDHCP_ok h
    refine ⟨hc.stored ht.1.stored, ht.1.clone, ht.1.request, hnode, hvmid, _, hdigest, hvalid,
      ht.2, ?_⟩
    intro hmapping
    rw [hset] at hmapping
    cases hmapping
  | sendGpu h =>
    cases hq
    obtain ⟨hnode, hvmid, hdigest, hvalid, -⟩ := configureMapping_ok h
    exact ⟨hc.stored ht.1.stored, ht.1.clone, ht.1.request, hnode, hvmid, _, hdigest, hvalid,
      ht.2.1, fun _ => ⟨ht.2.2, h⟩⟩
  | _ => cases hq

theorem pending_of_sent (h : Calls decode digest w t o) (hq : o.sent = some q) :
    q.state = .pending := by
  cases h with
  | sendNetwork | sendGpu =>
    cases hq
    rfl
  | _ => cases hq

theorem WorldOk.resume (hw : WorldOk decode digest w) (ht : w.threads[i]? = some t)
    (h : Calls decode digest w t o) : WorldOk decode digest (w.resume i o) := by
  have hok := hw.threads i t ht
  have hc : Carries w (w.resume i o) := carries_resume h
  have hrw := rewrites_of_calls h
  refine hw.next o.entry hc rfl (hrw.ids ▸ hw.ids) (hrw.admitted hw.admitted) (fun i' u hu => ?_)
    (fun q hq => ?_) (fun k c he => by cases h <;> cases he) (fun k hk => ?_)
  · rcases getElem?_set_cases hu with ⟨rfl, rfl⟩ | ⟨hi, hu⟩
    · exact .inr (ok_of_calls hw hok h)
    · exact .inl ⟨hu, leaves_resume hw h hok hi⟩
  · rcases mem_append.mp hq with hq | hq
    · exact .inl ⟨q, hq, rfl, rfl, rfl⟩
    · exact .inr (requestOk_of_sent h hok (mem_toList.mp hq))
  · left
    obtain ⟨q, hq, hstate⟩ := map_eq_some_iff.mp hk
    simp only [World.resume] at hq
    cases hsent : o.sent with
    | none =>
      rw [hsent] at hq
      rw [World.progress, ← hstate, ← append_nil w.requests]
      exact congrArg _ hq
    | some q' =>
      rw [hsent] at hq
      rcases getElem?_concat_cases hq with hold | ⟨-, rfl⟩
      · rw [World.progress, hold, Option.map_some, hstate]
      · rw [pending_of_sent h hsent] at hstate
        cases hstate

theorem WorldOk.init (h : Idle decode w) : WorldOk decode digest w where
  ids := h.jobs
  admitted := h.admitted
  threads i t ht := by
    rw [h.threads] at ht
    cases ht
  requests q hq := by
    rw [h.requests] at hq
    cases hq
  accepted k c he := by
    rw [h.log] at he
    cases he
  progress k hk := by
    rw [World.progress, h.requests] at hk
    cases hk

theorem WorldOk.step (hw : WorldOk decode digest w) {e : Event}
    (h : w.step decode digest e = some w') : WorldOk decode digest w' := by
  cases e with
  | database t =>
    simp only [World.step] at h
    split at h
    next hadmits =>
      cases h
      exact hw.database hadmits
    · cases h
  | external node vmid c =>
    cases h
    exact hw.quiet rfl rfl rfl fun i t ht => .inl ⟨ht, fun _ hv => hv⟩
  | serve k stored => exact hw.serve h
  | reject k =>
    obtain ⟨q, hq, h⟩ := bind_eq_some_iff.mp h
    split at h
    · cases h
      exact hw.settle none hq rfl rfl rfl rfl rfl (.inl ⟨rfl, by decide⟩)
    · cases h
  | create job occupied => exact hw.create h
  | recover jobId claim => exact hw.recover h
  | refresh jobId =>
    cases h
    exact hw.spawn trivial
  | acquire i => exact hw.acquire h
  | call i a =>
    obtain ⟨t, ht, h⟩ := bind_eq_some_iff.mp h
    obtain ⟨o, ho, rfl⟩ := map_eq_some_iff.mp h
    exact hw.resume ht (calls_of_call ho)
  | crash i =>
    obtain ⟨t, ht, rfl⟩ := map_eq_some_iff.mp h
    exact hw.resume ht (.moves (.ended t))

theorem worldOk_of_reachable (hw : (clones decode digest).Reachable w) : WorldOk decode digest w :=
  hw.invariant (fun _ h => .init h) fun _ _ _ _ hw h => hw.step h

end Step

section Effects

variable {e : Event}

def Thread.atEdge : Thread → Bool
  | .submit _ | .load _ | .reload _ | .recoverLock .. | .recoverTask .. | .ended => true
  | _ => false

variable (decode digest w w' e) in
/-- What a step does to the jobs, the threads and the number of writes. -/
inductive Changes : Prop
  | quiet (ht : w'.threads = w.threads) (hj : w'.tables.jobs = w.tables.jobs)
      (hq : w'.requests.length = w.requests.length)
  | database (ht : w'.threads = w.threads) (hj : w.admitsJobs w'.tables.jobs = true)
      (hq : w'.requests = w.requests)
  | spawned {t : Thread} (hedge : t.atEdge = true) (ht : w'.threads = w.threads ++ [t])
      (hj : w'.tables.jobs = w.tables.jobs ∨ ∃ job, w'.tables.jobs = w.tables.jobs ++ [job] ∧
        ∀ j ∈ w.tables.jobs, j.id ≠ job.id) (hq : w'.requests = w.requests)
  | moved {i : ℕ} {t : Thread} (hedge : t.atEdge = true) (ht : w'.threads = w.threads.set i t)
      (hj : w'.tables.jobs = w.tables.jobs) (hq : w'.requests = w.requests)
  | resumed {i : ℕ} {a : Answer} {t : Thread} {o : Outcome} (he : e = .call i a)
      (ht : w.threads[i]? = some t) (hcall : t.call decode digest w a = some o)
      (h : w' = w.resume i o)

theorem changes_of_step (h : w.step decode digest e = some w') : Changes decode digest w w' e := by
  cases e with
  | database t =>
    simp only [World.step] at h
    split at h
    next hadmits =>
      cases h
      exact .database rfl hadmits rfl
    · cases h
  | external node vmid c =>
    cases h
    exact .quiet rfl rfl rfl
  | serve k stored =>
    obtain ⟨q, -, rfl | ⟨c, -, -, -, rfl⟩⟩ := serve_cases h
    · exact .quiet rfl rfl length_set
    · exact .quiet rfl rfl length_set
  | reject k =>
    obtain ⟨q, -, h⟩ := bind_eq_some_iff.mp h
    split at h
    · cases h
      exact .quiet rfl rfl length_set
    · cases h
  | create job occupied =>
    rcases create_cases h with rfl | ⟨target, stored, -, hnew, -, rfl, -, rfl⟩
    · exact .quiet rfl rfl rfl
    · exact .spawned rfl rfl (.inr ⟨_, rfl, hnew⟩) rfl
  | recover jobId claim =>
    obtain ⟨job, -, h⟩ := bind_eq_some_iff.mp h
    obtain ⟨r, -, h⟩ := bind_eq_some_iff.mp h
    split at h
    · cases h
      exact .spawned rfl rfl (.inl rfl) rfl
    · cases h
  | refresh jobId =>
    cases h
    exact .spawned rfl rfl (.inl rfl) rfl
  | acquire i =>
    obtain ⟨⟨job, t'⟩, hp, h⟩ := bind_eq_some_iff.mp h
    obtain ⟨t, -, hwait⟩ := bind_eq_some_iff.mp hp
    split at h
    · cases h
      refine .moved ?_ rfl rfl rfl
      unfold World.waiting at hwait
      split at hwait
      · cases hwait
        rfl
      · cases hwait
        rfl
      · cases hwait
    · cases h
  | call i a =>
    obtain ⟨t, ht, h⟩ := bind_eq_some_iff.mp h
    obtain ⟨o, ho, hw'⟩ := map_eq_some_iff.mp h
    exact .resumed rfl ht ho hw'.symm
  | crash i =>
    obtain ⟨t, -, rfl⟩ := map_eq_some_iff.mp h
    refine .moved rfl rfl rfl ?_
    simp [World.resume, World.goOn]

theorem Changes.thread (h : Changes decode digest w w' e) {i : ℕ} {t' : Thread}
    (hi : w'.threads[i]? = some t') : w.threads[i]? = some t' ∨ t'.atEdge = true ∨
      ∃ t o, w.threads[i]? = some t ∧ Calls decode digest w t o ∧ w' = w.resume i o ∧
        t' = o.thread := by
  cases h with
  | quiet ht | database ht => exact .inl (ht ▸ hi)
  | spawned hedge ht =>
    rw [ht] at hi
    rcases getElem?_concat_cases hi with hold | ⟨-, rfl⟩
    · exact .inl hold
    · exact .inr (.inl hedge)
  | @moved i' t hedge ht =>
    rw [ht] at hi
    rcases getElem?_set_cases hi with ⟨-, rfl⟩ | ⟨-, hi⟩
    · exact .inr (.inl hedge)
    · exact .inl hi
  | @resumed i' a t o _ ht hcall h =>
    subst h
    rcases getElem?_set_cases hi with ⟨rfl, rfl⟩ | ⟨-, hi⟩
    · exact .inr (.inr ⟨t, o, ht, calls_of_call hcall, rfl, rfl⟩)
    · exact .inl hi

theorem Changes.row (h : Changes decode digest w w' e) (hw : WorldOk decode digest w)
    {j j' : Job} (hj : j ∈ w.tables.jobs) (hc : isClone j = true) (hj' : j' ∈ w'.tables.jobs)
    (hid : j'.id = j.id) :
    j' = j ∨ ∃ (i : ℕ) (a : Answer) (t : Thread) (o : Outcome), e = .call i a ∧
      w.threads[i]? = some t ∧ t.call decode digest w a = some o ∧ w' = w.resume i o ∧
      Rewritten t j j' := by
  cases h with
  | quiet _ heq | moved _ _ heq =>
    rw [heq] at hj'
    exact .inl (hw.eq_of_id hj' hj hid)
  | database _ hadmits =>
    simp only [World.admitsJobs, and_eq_true, all_eq_true, any_eq_true,
      or_eq_true, not_eq_true', beq_iff_eq] at hadmits
    obtain ⟨j₁, hj₁, -, hsame⟩ := hadmits.1.2 j hj
    obtain rfl : j₁ = j := hsame.resolve_left fun hno => by
      rw [hc] at hno
      cases hno
    exact .inl (inj_on_of_nodup_map (of_decide_eq_true hadmits.1.1) hj' hj₁ hid)
  | spawned _ _ hjobs =>
    rcases hjobs with heq | ⟨job, heq, hnew⟩
    · rw [heq] at hj'
      exact .inl (hw.eq_of_id hj' hj hid)
    · rw [heq] at hj'
      rcases mem_append.mp hj' with hj' | hj'
      · exact .inl (hw.eq_of_id hj' hj hid)
      · obtain rfl := mem_singleton.mp hj'
        exact absurd hid.symm (hnew j hj)
  | @resumed i a t o he ht hcall h =>
    subst h
    obtain ⟨j₀, hj₀, hrow⟩ := (rewrites_of_calls (calls_of_call hcall)).of_mem hj'
    obtain rfl := hw.eq_of_id hj₀ hj ((sameJob_iff.mp hrow.sameJob).1.symm.trans hid)
    exact .inr ⟨i, a, t, o, he, ht, hcall, rfl, hrow⟩

theorem Changes.stored (h : Changes decode digest w w' e) {job : Job} (hs : Stored w job) :
    Stored w' job := by
  obtain ⟨j, hj, hsame⟩ := hs
  cases h with
  | quiet _ heq | moved _ _ heq => exact ⟨j, heq ▸ hj, hsame⟩
  | database _ hadmits =>
    simp only [World.admitsJobs, and_eq_true, all_eq_true, any_eq_true] at hadmits
    obtain ⟨j', hj', hsame', -⟩ := hadmits.1.2 j hj
    exact ⟨j', hj', sameJob_trans hsame hsame'⟩
  | spawned _ _ hjobs =>
    rcases hjobs with heq | ⟨new, heq, -⟩
    · exact ⟨j, heq ▸ hj, hsame⟩
    · exact ⟨j, heq ▸ mem_append_left _ hj, hsame⟩
  | resumed _ _ hcall heq =>
    subst heq
    obtain ⟨j', hj', hrow⟩ := (rewrites_of_calls (calls_of_call hcall)).mem hj
    exact ⟨j', hj', sameJob_trans hsame hrow.sameJob⟩

end Effects

end VcWorkspace.Clone
