import VcWorkspace.Clone.Control

/-! # Finalization touches only its own clone

PVE applies a configuration write only to a configuration of its digest, which
bore the marker of the job when the write was decided. A clone succeeds after its
marker was checked and the registry was written, and a mapping that is in place
is recognised by every run that reads the configuration after it.
-/

namespace VcWorkspace.Clone

open Transition Store

section Statement

def Determines (digest : VMConfiguration → String) : Prop :=
  ∀ c c', validConfigurationDigest (digest c) = true → digest c' = digest c → c' = c

variable (decode : String → Option CloneRequest) (digest : VMConfiguration → String)

def Accepts (w : World) (k : ℕ) (q : Request) (stored : String) (w' : World) : Prop :=
  w.requests[k]? = some q ∧ w.step decode digest (.serve k stored) = some w' ∧
    w'.progress k = some .accepted

def Issues (w : World) (e : Event) (q : Request) (w' : World) : Prop :=
  w.step decode digest e = some w' ∧ w'.requests = w.requests ++ [q]

def Shows (job : Job) (text : String) (w : World) : Prop :=
  ∃ c, w.target job = some c ∧ c.hostpci0 = text

/-- A run has read the configuration and is about to write the mapping of the job. -/
def Writing (jobId : String) (w : World) (i : ℕ) : Prop :=
  ∃ job r c, w.threads[i]? = some (.sendGpu job r c) ∧ job.id = jobId

end Statement

variable {decode : String → Option CloneRequest} {digest : VMConfiguration → String} {w w' : World}
  {job : Job} {r : CloneRequest}

section Accepted

variable {k : ℕ} {q : Request} {stored : String}

theorem Accepts.applied (h : Accepts decode digest w k q stored w') :
    ∃ c, w.configs q.update.node q.update.vmid = some c ∧ digest c = q.update.digest ∧
      q.update.setting.keeps stored = true ∧ w'.tables = w.tables ∧ w'.threads = w.threads ∧
      w'.holder = w.holder := by
  obtain ⟨hq, hstep, hacc⟩ := h
  obtain ⟨q', hq', rfl | ⟨c, hc, hdigest, hkeeps, rfl⟩⟩ := serve_cases hstep
  · obtain ⟨hlt, -⟩ := List.getElem?_eq_some_iff.mp hq'
    rw [World.progress, World.settle, List.getElem?_set_self hlt] at hacc
    cases hacc
  · cases hq.symm.trans hq'
    exact ⟨c, hc, hdigest, hkeeps, rfl, rfl, rfl⟩

theorem Accepts.decided (hdigest : Determines digest) (hw : WorldOk decode digest w)
    (h : Accepts decode digest w k q stored w') :
    RequestOk decode digest w q ∧ ∃ c, w.target q.job = some c ∧ verified q.job q.r c = true ∧
      (q.update.setting.isMapping = true → q.r.mapped c = false) := by
  have hok := hw.requests q (List.mem_of_getElem? h.1)
  obtain ⟨c, hc, hsame, -⟩ := h.applied
  obtain ⟨c₀, hdecided, hvalid, hverified, hmapped⟩ := hok.decided
  obtain rfl := hdigest c₀ c hvalid (hsame.trans hdecided)
  rw [hok.node, hok.vmid] at hc
  exact ⟨hok, c, hc, hverified, fun hset => (hmapped hset).1⟩

theorem WorldOk.admitted_of_stored (hw : WorldOk decode digest w) (hs : Stored w job)
    (hc : isClone job = true) (hr : decode job.request = some r) : r.admitted = true := by
  obtain ⟨j, hj, hsame⟩ := hs
  refine hw.admitted j hj ?_ r ?_
  · rw [isClone_of_sameJob hsame]
    exact hc
  · rw [(sameJob_iff.mp hsame).2.2.2.2.2.2]
    exact hr

/-- What PVE stores of a mapping is recognised as the mapping of the request. -/
theorem RequestOk.matches (hw : WorldOk decode digest w) (hok : RequestOk decode digest w q)
    (hset : q.update.setting.isMapping = true) (hkeeps : q.update.setting.keeps stored = true) :
    matchesGPUResourceMapping stored q.r.pciResourceMapping q.r.mdevType = true := by
  have hadm := hw.admitted_of_stored hok.stored hok.clone hok.request
  simp only [CloneRequest.admitted, Bool.and_eq_true, beq_iff_eq] at hadm
  obtain ⟨c, -, -, -, hmapped⟩ := hok.decided
  have hconf := (hmapped hset).2
  unfold configureMapping at hconf
  split at hconf
  · exact matches_of_configureVMMDevResourceMapping hadm.1 hadm.2 hconf hkeeps
  next hempty =>
    rw [Decidable.of_not_not hempty]
    exact matches_of_configureVMPCIResourceMapping hadm.1 hconf hkeeps

end Accepted

variable {e : Event}

section Completion

theorem settled_of_changes (hw : WorldOk decode digest w) (h : Changes decode digest w w' e)
    {j j' : Job} (hj : j ∈ w.tables.jobs) (hc : isClone j = true) (hj' : j' ∈ w'.tables.jobs)
    (hid : j'.id = j.id) (hne : j'.state ≠ j.state)
    (hout : j'.state = .succeeded ∨ j'.state = .failed) :
    Settled decode w.requests w.log j j'.state := by
  rcases h.row hw hj hc hj' hid with rfl | ⟨i, a, t, o, -, ht, -, -, hrow⟩
  · exact absurd rfl hne
  cases hrow with
  | same => exact absurd rfl hne
  | attached | unknown => simp at hout
  | @completed job state hcomplete hidj _ =>
    subst hcomplete
    obtain ⟨⟨j₀, hj₀, hsame⟩, hok⟩ := hw.threads i _ ht
    obtain rfl := hw.eq_of_id hj₀ hj ((sameJob_iff.mp hsame).1.trans hidj.symm)
    rw [isClone_of_sameJob hsame] at hc
    obtain ⟨-, hs⟩ := hok hc
    have hreq := (sameJob_iff.mp hsame).2.2.2.2.2.2
    refine ⟨fun hf => ?_, fun hn => ?_⟩
    · rw [hidj, hreq]
      exact hs.failed hf
    · rw [hidj, hreq]
      exact hs.finished hn

end Completion

section Mapping

variable {text : String} {i : ℕ} {job' : Job} {r' : CloneRequest} {c : VMConfiguration}

theorem afterGpu_ne_sendGpu {state : JobState} : afterGpu job r state ≠ .sendGpu job' r' c := by
  unfold afterGpu
  split <;> simp

theorem afterNetwork_ne_sendGpu : afterNetwork job r ≠ .sendGpu job' r' c := by
  unfold afterNetwork
  split
  · simp
  · exact afterGpu_ne_sendGpu

theorem afterStart_ne_sendGpu : afterStart job r ≠ .sendGpu job' r' c := by
  unfold afterStart
  split
  · simp
  · exact afterNetwork_ne_sendGpu

theorem unmapped_of_calls {t : Thread} {o : Outcome} (h : Calls decode digest w t o)
    (ho : o.thread = .sendGpu job r c) :
    t = .gpu job r ∧ w.target job = some c ∧ r.mapped c = false := by
  cases h with
  | moves h =>
    cases h with
    | sendGpu hc hv hm =>
      cases ho
      exact ⟨rfl, hc, hm⟩
    | network | networkSet => exact absurd ho afterNetwork_ne_sendGpu
    | gpuInvalid | gpuSet | gpuFailed => exact absurd ho afterGpu_ne_sendGpu
    | _ => cases ho
  | start => exact absurd ho afterStart_ne_sendGpu
  | observed => exact absurd ho afterGpu_ne_sendGpu
  | _ => cases ho

theorem WorldOk.agree (hw : WorldOk decode digest w) (h : Stored w job) (h' : Stored w job')
    (hid : job'.id = job.id) : job'.targetVmid = job.targetVmid ∧
      job'.targetNode = job.targetNode ∧ job'.request = job.request := by
  obtain ⟨j, hj, hsame⟩ := h
  obtain ⟨j', hj', hsame'⟩ := h'
  rw [sameJob_iff] at hsame hsame'
  obtain rfl := hw.eq_of_id hj hj' (hsame.1.trans (hid.symm.trans hsame'.1.symm))
  exact ⟨hsame'.2.2.2.1.symm.trans hsame.2.2.2.1, hsame'.2.2.2.2.1.symm.trans hsame.2.2.2.2.1,
    hsame'.2.2.2.2.2.2.symm.trans hsame.2.2.2.2.2.2⟩

theorem mapped_of_shows (hw : WorldOk decode digest w) (hs : Stored w job)
    (hr : decode job.request = some r)
    (hmatch : matchesGPUResourceMapping text r.pciResourceMapping r.mdevType = true)
    (hshows : Shows job text w) (hs' : Stored w job') (hr' : decode job'.request = some r')
    (hid : job'.id = job.id) (hc : w.target job' = some c) : r'.mapped c = true := by
  obtain ⟨hvmid, hnode, hreq⟩ := hw.agree hs hs' hid
  obtain ⟨c', hc', rfl⟩ := hshows
  rw [World.target, node, hvmid, hnode] at hc
  cases hc.symm.trans hc'
  rw [hreq, hr] at hr'
  cases hr'
  exact hmatch

theorem writing_of_changes (hw : WorldOk decode digest w) (h : Changes decode digest w w' e)
    (hs : Stored w job) (hr : decode job.request = some r)
    (hmatch : matchesGPUResourceMapping text r.pciResourceMapping r.mdevType = true)
    (hshows : Shows job text w) (hi : Writing job.id w' i) : Writing job.id w i := by
  obtain ⟨job', r', c, hthread, hid⟩ := hi
  rcases h.thread hthread with hold | hedge | ⟨t, o, ht, hcalls, -, ho⟩
  · exact ⟨job', r', c, hold, hid⟩
  · cases hedge
  · obtain ⟨rfl, hc, hm⟩ := unmapped_of_calls hcalls ho.symm
    have hb := hw.threads i _ ht
    have hmapped := mapped_of_shows hw hs hr hmatch hshows hb.stored hb.request hid hc
    rw [hm] at hmapped
    cases hmapped

theorem writing_of_issues {q : Request} (h : Issues decode digest w e q w')
    (hset : q.update.setting.isMapping = true) : ∃ i, Writing q.job.id w i := by
  obtain ⟨hstep, hreq⟩ := h
  have hlength : w'.requests.length ≠ w.requests.length := by simp [hreq]
  cases changes_of_step hstep with
  | quiet _ _ hq => exact absurd hq hlength
  | database _ _ hq | spawned _ _ _ hq | moved _ _ _ hq => exact absurd (congrArg _ hq) hlength
  | @resumed i a t o _ ht hcall heq =>
    subst heq
    obtain hsent : o.sent = some q := by
      have hsent := List.append_cancel_left hreq
      cases hs : o.sent with
      | none =>
        rw [hs] at hsent
        cases hsent
      | some q' =>
        rw [hs] at hsent
        rw [List.head_eq_of_cons_eq hsent]
    cases calls_of_call hcall with
    | sendNetwork hconf =>
      cases hsent
      rw [(configureVMPrimaryDHCP_ok hconf).2.2.2.2] at hset
      cases hset
    | sendGpu hconf =>
      cases hsent
      exact ⟨i, _, _, _, ht, rfl⟩
    | _ => cases hsent

theorem not_writing_of_awaiting (hw : WorldOk decode digest w) {k : ℕ} {i' : ℕ}
    (ht : w.threads[i']? = some (.awaitGpu job' r' k)) (hid : job'.id = job.id) :
    ¬ Writing job.id w i := by
  rintro ⟨job₁, r₁, c, ht₁, hid₁⟩
  have hb := hw.threads i' _ ht
  have hb₁ := hw.threads i _ ht₁
  obtain rfl := hw.unique hb.1.toHeld hb₁.1.toHeld (hid.trans hid₁.symm)
  rw [ht] at ht₁
  cases ht₁

theorem writing_of_along {as : List Event} (hw : (clones decode digest).Reachable w)
    (hs : Stored w job) (hr : decode job.request = some r)
    (hmatch : matchesGPUResourceMapping text r.pciResourceMapping r.mdevType = true)
    (halong : (clones decode digest).Along (Shows job text) w as)
    (hrun : (clones decode digest).run w as = some w') :
    Stored w' job ∧ ∀ i, Writing job.id w' i → Writing job.id w i := by
  refine (halong.preserves (P := fun v => (clones decode digest).Reachable v ∧ Stored v job ∧
    ∀ i, Writing job.id v i → Writing job.id w i) ?_ hrun ⟨hw, hs, fun _ hi => hi⟩).2
  rintro v e v' hshows ⟨hv, hsv, hwriting⟩ hstep
  have hchanges := changes_of_step hstep
  refine ⟨hv.step hstep, hchanges.stored hsv, fun i hi => hwriting i ?_⟩
  exact writing_of_changes (worldOk_of_reachable hv) hchanges hsv hr hmatch hshows hi

end Mapping

section Finalization

/-- Every write that PVE applies meets an unlocked machine of the job, a clone gets its outcome
after what `Settled` lists, and a mapping is written again only by a run that read the
configuration before. -/
theorem clone_finalization (hdigest : Determines digest) (hw : (clones decode digest).Reachable w) :
    (∀ k q stored w', Accepts decode digest w k q stored w' → Stored w q.job ∧
      isClone q.job = true ∧ decode q.job.request = some q.r ∧
      ∃ c, w.target q.job = some c ∧ c.template = false ∧ c.lock = "" ∧ c.name = q.r.name ∧
        c.description = marker q.job.id) ∧
    (∀ e w' j j', w.step decode digest e = some w' → j ∈ w.tables.jobs → isClone j = true →
      j' ∈ w'.tables.jobs → j'.id = j.id → j'.state ≠ j.state →
      j'.state = .succeeded ∨ j'.state = .failed →
      Settled decode w.requests w.log j j'.state) ∧
    (∀ k q stored w₁ as w₂, Accepts decode digest w k q stored w₁ →
      q.update.setting.isMapping = true →
      (clones decode digest).Along (Shows q.job stored) w₁ as →
      (clones decode digest).run w₁ as = some w₂ →
      (∀ k' q' stored' w₃, Accepts decode digest w₂ k' q' stored' w₃ → q'.job.id = q.job.id →
        q'.update.setting.isMapping = false) ∧
      (∀ e q' w₃, Issues decode digest w₂ e q' w₃ → q'.job.id = q.job.id →
        q'.update.setting.isMapping = true → (∃ i, Writing q.job.id w₁ i) ∧
          ∀ (i : ℕ) (job : Job) (r : CloneRequest), w.threads[i]? ≠ some (.awaitGpu job r k))) := by
  have hok := worldOk_of_reachable hw
  refine ⟨fun k q stored w' h => ?_, fun e w' j j' hstep hj hc hj' hid hne hout => ?_,
    fun k q stored w₁ as w₂ h hset halong hrun => ?_⟩
  · obtain ⟨hq, c, hc, hverified, -⟩ := h.decided hdigest hok
    simp only [verified, bearsMarker, Bool.and_eq_true, Bool.not_eq_true', beq_iff_eq] at hverified
    obtain ⟨⟨⟨htemplate, hname⟩, hdescription⟩, hlock⟩ := hverified
    exact ⟨hq.stored, hq.clone, hq.request, c, hc, htemplate, hlock, hname, hdescription⟩
  · exact settled_of_changes hok (changes_of_step hstep) hj hc hj' hid hne hout
  · obtain ⟨c, -, -, hkeeps, htables, hthreads, -⟩ := h.applied
    have hq := (h.decided hdigest hok).1
    have hmatch := hq.matches hok hset hkeeps
    have hw₁ : (clones decode digest).Reachable w₁ :=
      hw.step (a := .serve k stored) h.2.1
    have hstored : Stored w₁ q.job := by
      rw [Stored, htables]
      exact hq.stored
    obtain ⟨hs₂, hwriting⟩ := writing_of_along hw₁ hstored hq.request hmatch halong hrun
    refine ⟨fun k' q' stored' w₃ h' hid => ?_, fun e q' w₃ h' hid hset' => ?_⟩
    · have hok₂ := worldOk_of_reachable (hw₁.leads ⟨as, hrun⟩)
      obtain ⟨hq', c, hc, -, hunmapped⟩ := h'.decided hdigest hok₂
      have hmapped := mapped_of_shows hok₂ hs₂ hq.request hmatch (halong.last hrun) hq'.stored
        hq'.request hid hc
      refine Bool.eq_false_iff.mpr fun hset => ?_
      rw [hunmapped hset] at hmapped
      cases hmapped
    · obtain ⟨i, hi⟩ := writing_of_issues h' hset'
      rw [hid] at hi
      refine ⟨⟨i, hwriting i hi⟩, fun i' job r ht => ?_⟩
      obtain ⟨-, q₀, hq₀, hid₀, -⟩ := hok.threads i' _ ht
      cases hq₀.symm.trans h.1
      rw [← hthreads] at ht
      exact not_writing_of_awaiting (worldOk_of_reachable hw₁) ht hid₀.symm (hwriting i hi)

/-! A clone with a mapping, whose task is known. -/

def sampleRequest : CloneRequest := ⟨"desktop", "windows", "gpu", "", "user"⟩

def sampleDecode (request : String) : Option CloneRequest :=
  if request = "clone" then some sampleRequest else none

def sampleJob : Job :=
  ⟨"job", "key", "print", .templateClone, .running, 100, 101, some "node", some "node",
    some "UPID:1", "clone"⟩

def sampleConfiguration : VMConfiguration :=
  ⟨marker "job", "", false, "desktop", "win11", [], [], [], [], []⟩

def sampleText : String := "pcie=1,x-vga=1,mapping=gpu"

def sampleMapped : VMConfiguration :=
  { sampleConfiguration with pciHostDevices := [("hostpci0", sampleText)] }

def sampleDigest (c : VMConfiguration) : String :=
  if c = sampleConfiguration then "0000000000000000000000000000000000000000"
  else if c = sampleMapped then "1111111111111111111111111111111111111111"
  else ""

theorem determines_sampleDigest : Determines sampleDigest := by
  intro c c' hvalid h
  unfold sampleDigest at hvalid h
  split_ifs at hvalid h
  all_goals first
    | (subst_vars; rfl)
    | exact absurd h (by decide)
    | exact absurd hvalid (by decide)

def sampleWorld : World where
  tables := ⟨[], [], [], [], [], [], [], [], [sampleJob]⟩
  configs node vmid := if node = "node" ∧ vmid = 101 then some sampleConfiguration else none
  requests := []
  holder _ := none
  threads := []
  log := []

theorem idle_sampleWorld : Idle sampleDecode sampleWorld where
  jobs := by decide
  admitted := by
    intro j hj _ r hr
    obtain rfl := List.mem_singleton.mp hj
    cases hr
    decide
  requests := rfl
  holder _ := rfl
  threads := rfl
  log := rfl

def refreshRun (i : ℕ) : List Event :=
  [.refresh "job", .call i .done, .acquire i, .call i .done]

def decideRun (i : ℕ) : List Event :=
  refreshRun i ++
    [.call i (.task "stopped" "OK"), .call i (.machines [⟨101, "qemu", "node", false⟩]),
    .call i .done, .call i .done]

def finishRun (i : ℕ) : List Event :=
  decideRun i ++ [.call i .done, .serve 0 sampleText, .call i .done,
    .call i (.machines [⟨101, "qemu", "node", false⟩]), .call i .done, .call i .done]

/-- A write that PVE applies and the completion of its clone. -/
theorem clone_finalization_sample :
    (∃ w w' q c, Accepts sampleDecode sampleDigest w 0 q sampleText w' ∧ w.target q.job = some c ∧
      c.description = marker q.job.id) ∧
    ∃ w, (clones sampleDecode sampleDigest).Reachable w ∧
      Settled sampleDecode w.requests w.log sampleJob .succeeded := by
  constructor
  · obtain ⟨w, hw, hq, h⟩ := Machine.exists_reachable_of_run (M := clones sampleDecode sampleDigest)
      (P := fun w => w.requests[0]?.isSome = true ∧
        ((w.step sampleDecode sampleDigest (.serve 0 sampleText)).any
          fun w' => w'.progress 0 = some .accepted) = true)
      sampleWorld (decideRun 0 ++ [.call 0 .done]) idle_sampleWorld (by decide +kernel)
    obtain ⟨q, hq⟩ := Option.isSome_iff_exists.mp hq
    obtain ⟨w', hstep, hacc⟩ := (Option.any_eq_true _ _).mp h
    have h : Accepts sampleDecode sampleDigest w 0 q sampleText w' :=
      ⟨hq, hstep, of_decide_eq_true hacc⟩
    obtain ⟨-, -, -, c, hc, -, -, -, hdescription⟩ :=
      (clone_finalization determines_sampleDigest hw).1 0 q sampleText w' h
    exact ⟨w, w', q, c, h, hc, hdescription⟩
  · obtain ⟨w, hw, hj, h⟩ := Machine.exists_reachable_of_run (M := clones sampleDecode sampleDigest)
      (P := fun w => sampleJob ∈ w.tables.jobs ∧
        ((w.step sampleDecode sampleDigest (.call 0 .done)).any
          fun w' => { sampleJob with state := .succeeded } ∈ w'.tables.jobs) = true)
      sampleWorld (finishRun 0) idle_sampleWorld (by decide +kernel)
    obtain ⟨w', hstep, hj'⟩ := (Option.any_eq_true _ _).mp h
    exact ⟨w, hw, (clone_finalization determines_sampleDigest hw).2.1 _ w' sampleJob _ hstep hj rfl
      (of_decide_eq_true hj') rfl (by decide) (.inl rfl)⟩

/-- PVE applies the first write, and the second run sends the mapping once more. -/
def resends (w : World) : Bool :=
  w.requests[0]?.any fun q => (w.step sampleDecode sampleDigest (.serve 0 sampleText)).any fun w₁ =>
    decide (w₁.progress 0 = some .accepted) && q.update.setting.isMapping &&
    (w₁.target q.job).any (·.hostpci0 == sampleText) &&
    (w₁.step sampleDecode sampleDigest (.call 1 .done)).any fun w₂ => w₂.requests[1]?.any fun q' =>
      decide (w₂.requests = w₁.requests ++ [q']) &&
        (q'.job.id == q.job.id && q'.update.setting.isMapping)

/-- A clone whose task has failed is completed without the registry, and a run sends the mapping
although the late write of a crashed run is in place. -/
theorem clone_finalization_unregistered : Determines sampleDigest ∧
    (∃ w, (clones sampleDecode sampleDigest).Reachable w ∧
      ∃ j ∈ w.tables.jobs, isClone j = true ∧ j.state = .failed ∧ .registered j.id ∉ w.log ∧
        .quarantined j.id ∉ w.log) ∧
    ∃ w, (clones sampleDecode sampleDigest).Reachable w ∧
      ∃ q w₁ q' w₂, Accepts sampleDecode sampleDigest w 0 q sampleText w₁ ∧
        Shows q.job sampleText w₁ ∧ Issues sampleDecode sampleDigest w₁ (.call 1 .done) q' w₂ ∧
        q'.job.id = q.job.id ∧ q.update.setting.isMapping = true ∧
        q'.update.setting.isMapping = true := by
  refine ⟨determines_sampleDigest, ?_, ?_⟩
  · exact Machine.exists_reachable_of_run sampleWorld
      (refreshRun 0 ++ [.call 0 (.task "stopped" "clone failed"), .call 0 .done]) idle_sampleWorld
      (by decide +kernel)
  · obtain ⟨w, hw, h⟩ := Machine.exists_reachable_of_run (M := clones sampleDecode sampleDigest)
      (P := fun w => resends w = true) sampleWorld
      (decideRun 0 ++ [.call 0 .done, .crash 0] ++ decideRun 1) idle_sampleWorld (by decide +kernel)
    simp only [resends, Option.any_eq_true, Bool.and_eq_true, decide_eq_true_eq, beq_iff_eq] at h
    obtain ⟨q, hq, w₁, hstep, ⟨⟨hacc, hset⟩, c, hc, hshows⟩, w₂, hstep', q', -, hq', hid,
      hset'⟩ := h
    exact ⟨w, hw, q, w₁, q', w₂, ⟨hq, hstep, hacc⟩, ⟨c, hc, hshows⟩, ⟨hstep', hq'⟩, hid, hset,
      hset'⟩

end Finalization

end VcWorkspace.Clone
