import VcWorkspace.Clone.Lifecycle

/-! # Ownership of targets

A reservation of a clone is a transaction of several statements under the access
lock. Image builds add their jobs without the lock and without a look at the
reservations, and a finished clone is registered without the lock. Statements of
other transactions run between those of a reservation.
-/

namespace VcWorkspace.Clone.Ownership

open Transition Store List
open Option (map_eq_some_iff)
open Bool (and_eq_true not_eq_true' or_eq_true)

section Model

/-- A call of `reserveDesktopCloneJob`; its job names the target, or where the search starts. -/
structure Call where
  job : Job
  occupied : List ℕ
  choose : Bool
  deriving DecidableEq, Repr

def Call.valid (c : Call) : Bool :=
  c.job.operation == .templateClone && c.job.state == .accepted && 0 < c.job.targetVmid &&
    0 < c.job.sourceVmid && c.job.targetVmid != c.job.sourceVmid && c.job.id != "" &&
    c.job.idempotencyKey != ""

/-- The next statement of a reservation; `seen` are the tables that the target was chosen in. -/
inductive Phase
  | lookup
  | choose
  | check (target : ℕ) (seen : Option AccessTables)
  | insert (target : ℕ) (seen : Option AccessTables)
  deriving DecidableEq, Repr

structure Reserved where
  call : Call
  target : ℕ
  seen : Option AccessTables
  tables : AccessTables
  deriving DecidableEq, Repr

/-- The committed tables, the reservation that holds the access lock and the history. -/
structure Ledger where
  tables : AccessTables
  holder : Option (Call × Phase)
  reserved : List Reserved
  deriving DecidableEq, Repr

inductive Action
  | start (call : Call)
  /-- The next statement of the reservation; the last one also commits. -/
  | next
  | rollback
  /-- `CreateJob`, for image builds and the power actions. -/
  | createJob (job : Job)
  /-- The builder reports; a build that has ended reports nothing more. -/
  | progress (id : String) (state : JobState)
  /-- The other writers of jobs. -/
  | settle (id : String) (state : JobState) (upid : Option String)
  /-- `UpsertManagedDesktop`, for the target of a clone. -/
  | register (r : DesktopReport)
  | quarantine (r : DesktopReport)
  | reconcile (reports : List DesktopReport)
  deriving DecidableEq, Repr

def isBuilding (j : Job) : Bool :=
  j.operation == .imageBuild && (j.state == .accepted || j.state == .running)

def isCloneTarget (t : AccessTables) (vmid : ℕ) : Bool :=
  t.jobs.any fun j => isClone j && j.targetVmid == vmid

namespace Ledger

variable (l : Ledger)

def setJobs (jobs : List Job) : Ledger := { l with tables := { l.tables with jobs := jobs } }

def newJob (c : Call) (target : ℕ) : Job := { c.job with targetVmid := target, upid := none }

def chosen (c : Call) : Option ℕ → Ledger
  | none => { l with holder := none }
  | some target => { l with holder := some (c, .check target (some l.tables)) }

def next (c : Call) : Phase → Ledger
  | .lookup =>
    -- the job of the same request is returned, or the key is taken
    if l.tables.jobs.any (·.idempotencyKey == c.job.idempotencyKey) then { l with holder := none }
    else { l with holder := some (c, if c.choose then .choose else .check c.job.targetVmid none) }
  | .choose => l.chosen c (l.tables.availableTarget c.job c.occupied)
  | .check target seen =>
    if l.tables.targetTaken target then { l with holder := none }
    else { l with holder := some (c, .insert target seen) }
  | .insert target seen =>
    if l.tables.jobs.any
      (fun j => j.id == c.job.id || j.idempotencyKey == c.job.idempotencyKey) then
      { l with holder := none }
    else
      { l.setJobs (l.tables.jobs ++ [newJob c target]) with
        holder := none
        reserved := ⟨c, target, seen, l.tables⟩ :: l.reserved }

def createJob (job : Job) : Option Ledger :=
  if isClone job || job.state != .accepted then none
  else if l.tables.jobs.any (·.idempotencyKey == job.idempotencyKey) then some l
  else if l.tables.jobs.any (·.id == job.id) then none
  else some (l.setJobs (l.tables.jobs ++ [{ job with upid := none }]))

def step : Action → Option Ledger
  | .start call =>
    if l.holder.isNone && call.valid then some { l with holder := some (call, .lookup) } else none
  | .next => l.holder.map fun p => l.next p.1 p.2
  | .rollback => some { l with holder := none }
  | .createJob job => l.createJob job
  | .progress id state =>
    some (l.setJobs (updateWhere (fun j => j.id == id && isBuilding j)
      (fun j => { j with state := state }) l.tables.jobs))
  | .settle id state upid =>
    some (l.setJobs (updateWhere (fun j => j.id == id && j.operation != .imageBuild)
      (fun j => { j with state := state, upid := upid }) l.tables.jobs))
  | .register r =>
    if isCloneTarget l.tables r.vmid then
      (l.tables.upsertManagedDesktop r).toOption.map fun t => { l with tables := t }
    else none
  | .quarantine r =>
    if l.holder.isNone && isCloneTarget l.tables r.vmid then
      (l.tables.quarantineClonedDesktop r).toOption.map fun t => { l with tables := t }
    else none
  | .reconcile reports =>
    if l.holder.isNone then
      (l.tables.reconcileManagedDesktops reports).toOption.map fun t => { l with tables := t }
    else none

def keepsApart : Action → Bool
  | .createJob job => job.operation != .imageBuild || !isCloneTarget l.tables job.targetVmid
  | .next =>
    match l.holder with
    | some (_, .insert target _) =>
      !l.tables.jobs.any fun j => isBuilding j && j.targetVmid == target
    | _ => true
  | _ => true

end Ledger

structure Fresh (l : Ledger) : Prop where
  jobs : l.tables.jobs = []
  holder : l.holder = none
  reserved : l.reserved = []

def ownership : Machine Ledger Action where
  Init := Fresh
  step := Ledger.step

end Model

variable {t : AccessTables} {c : Call}

section Reservation

def Free (t : AccessTables) (c : Call) (vmid : ℕ) : Prop :=
  vmid ≠ c.job.sourceVmid ∧ vmid ∉ c.occupied ∧ (∀ d ∈ t.desktops, d.vmid ≠ vmid) ∧
    ∀ j ∈ t.jobs, j.operation = .templateClone ∨ j.operation = .imageBuild → j.targetVmid ≠ vmid

structure First (t : AccessTables) (c : Call) (target : ℕ) : Prop where
  lower : c.job.targetVmid ≤ target
  upper : target ≤ c.job.targetVmid + 1023
  free : Free t c target
  least : ∀ vmid, c.job.targetVmid ≤ vmid → Free t c vmid → target ≤ vmid

structure Targeted (c : Call) (target : ℕ) (seen : Option AccessTables) : Prop where
  source : target ≠ c.job.sourceVmid
  first : c.choose = true → ∃ t, seen = some t ∧ First t c target

variable {target vmid : ℕ}

theorem free_iff : Free t c vmid ↔ (vmid != c.job.sourceVmid && !c.occupied.contains vmid &&
    !t.desktops.any (·.vmid == vmid) && !t.jobs.any fun j => j.targetVmid == vmid &&
      (j.operation == .templateClone || j.operation == .imageBuild)) = true := by
  simp only [Free, and_eq_true, bne_iff_ne, not_eq_true', contains_eq_mem,
    decide_eq_false_iff_not, any_eq_false, beq_iff_eq, or_eq_true, and_assoc]
  refine and_congr_right fun _ => and_congr_right fun _ => and_congr_right fun _ => ?_
  exact forall₂_congr fun j _ => by tauto

theorem first_of_availableTarget (h : t.availableTarget c.job c.occupied = some target) :
    First t c target := by
  obtain ⟨hfree, k, hk, hget, hbefore⟩ := List.find?_eq_some_iff_getElem.mp h
  simp only [length_map, length_range] at hk
  simp only [getElem_map, getElem_range] at hget hbefore
  refine ⟨by omega, by omega, free_iff.mpr hfree, fun vmid hle hvmid => ?_⟩
  by_contra hlt
  have hno := hbefore (vmid - c.job.targetVmid) (by omega)
  rw [Nat.add_sub_cancel' hle, free_iff.mp hvmid] at hno
  cases hno

end Reservation

section Clones

variable {jobs : List Job}

def cloneTargets (jobs : List Job) : List ℕ := (jobs.filter isClone).map (·.targetVmid)

theorem mem_cloneTargets {vmid : ℕ} :
    vmid ∈ cloneTargets jobs ↔ ∃ j ∈ jobs, isClone j = true ∧ j.targetVmid = vmid := by
  simp only [cloneTargets, mem_map, mem_filter, and_assoc]

theorem isCloneTarget_iff {t : AccessTables} {vmid : ℕ} :
    isCloneTarget t vmid = true ↔ vmid ∈ cloneTargets t.jobs := by
  simp only [isCloneTarget, any_eq_true, and_eq_true, beq_iff_eq, mem_cloneTargets]

structure SameClones (jobs jobs' : List Job) : Prop where
  targets : cloneTargets jobs' = cloneTargets jobs
  clones : ∀ j' ∈ jobs', isClone j' = true → ∃ j ∈ jobs, isClone j = true ∧ j.id = j'.id ∧
    j.targetVmid = j'.targetVmid ∧ j.sourceVmid = j'.sourceVmid

theorem sameClones_updateWhere {p : Job → Bool} {f : Job → Job}
    (hf : ∀ j, (f j).operation = j.operation ∧ (f j).id = j.id ∧ (f j).targetVmid = j.targetVmid ∧
      (f j).sourceVmid = j.sourceVmid) :
    SameClones jobs (updateWhere p f jobs) := by
  constructor
  · induction jobs with
    | nil => rfl
    | cons j jobs ih =>
      have hhead : isClone (if p j then f j else j) = isClone j ∧
          (if p j then f j else j).targetVmid = j.targetVmid := by
        split
        · exact ⟨by rw [isClone, isClone, (hf j).1], (hf j).2.2.1⟩
        · exact ⟨rfl, rfl⟩
      simp only [cloneTargets, updateWhere, map_cons, filter_cons, hhead.1] at ih ⊢
      split
      · rw [map_cons, map_cons, hhead.2, ih]
      · exact ih
  · intro j' hj' hc
    obtain ⟨j, hj, ⟨-, rfl⟩ | ⟨-, rfl⟩⟩ := mem_updateWhere.mp hj'
    · rw [isClone, (hf j).1] at hc
      exact ⟨j, hj, hc, (hf j).2.1.symm, (hf j).2.2.1.symm, (hf j).2.2.2.symm⟩
    · exact ⟨_, hj, hc, rfl, rfl, rfl⟩

theorem sameClones_append {job : Job} (h : isClone job = false) :
    SameClones jobs (jobs ++ [job]) := by
  constructor
  · simp [cloneTargets, h]
  · intro j' hj' hc
    rcases mem_append.mp hj' with hj' | hj'
    · exact ⟨j', hj', hc, rfl, rfl, rfl⟩
    · obtain rfl := mem_singleton.mp hj'
      rw [h] at hc
      cases hc

end Clones

variable {l l' : Ledger}

section Invariant

def Phase.Ok (t : AccessTables) (c : Call) : Phase → Prop
  | .lookup => True
  | .choose => True
  | .check target seen => Targeted c target seen
  | .insert target seen => Targeted c target seen ∧ target ∉ cloneTargets t.jobs ∧
    ∀ d ∈ t.desktops, d.vmid ≠ target

structure Sound (l : Ledger) : Prop where
  targets : (cloneTargets l.tables.jobs).Nodup
  recorded : ∀ j ∈ l.tables.jobs, isClone j = true → ∃ e ∈ l.reserved, e.call.job.id = j.id ∧
    e.target = j.targetVmid ∧ e.call.job.sourceVmid = j.sourceVmid
  entries : ∀ e ∈ l.reserved, Targeted e.call e.target e.seen ∧
    ∀ d ∈ e.tables.desktops, d.vmid ≠ e.target
  holder : ∀ c phase, l.holder = some (c, phase) → c.valid = true ∧ phase.Ok l.tables c

variable {phase : Phase}

theorem Call.operation (h : c.valid = true) : c.job.operation = .templateClone := by
  simp only [Call.valid, and_eq_true, beq_iff_eq] at h
  exact h.1.1.1.1.1.1

theorem Call.target (h : c.valid = true) : c.job.targetVmid ≠ c.job.sourceVmid := by
  simp only [Call.valid, and_eq_true, bne_iff_ne] at h
  exact h.1.1.2

theorem Sound.release (h : Sound l) : Sound { l with holder := none } :=
  { h with holder := by rintro c phase ⟨⟩ }

theorem Sound.hold (h : Sound l) (hc : c.valid = true) (hp : phase.Ok l.tables c) :
    Sound { l with holder := some (c, phase) } where
  targets := h.targets
  recorded := h.recorded
  entries := h.entries
  holder := by
    rintro c' phase' ⟨⟩
    exact ⟨hc, hp⟩

theorem Sound.setJobs (h : Sound l) {jobs : List Job} (hs : SameClones l.tables.jobs jobs) :
    Sound (l.setJobs jobs) where
  targets := by
    simp only [Ledger.setJobs, hs.targets]
    exact h.targets
  recorded j' hj' hc := by
    obtain ⟨j, hj, hcj, hid, htarget, hsource⟩ := hs.clones j' hj' hc
    obtain ⟨e, he, heid, hetarget, hesource⟩ := h.recorded j hj hcj
    exact ⟨e, he, heid.trans hid, hetarget.trans htarget, hesource.trans hsource⟩
  entries := h.entries
  holder c phase hh := by
    obtain ⟨hc, hp⟩ := h.holder c phase hh
    refine ⟨hc, ?_⟩
    cases phase with
    | lookup | choose => trivial
    | check => exact hp
    | insert target seen =>
      refine ⟨hp.1, ?_, hp.2.2⟩
      simp only [Ledger.setJobs, hs.targets]
      exact hp.2.1

theorem Sound.setDesktops (h : Sound l) (hj : t.jobs = l.tables.jobs)
    (hd : l.holder = none ∨ ∀ d ∈ t.desktops, (∃ d' ∈ l.tables.desktops, d'.vmid = d.vmid) ∨
      d.vmid ∈ cloneTargets l.tables.jobs) :
    Sound { l with tables := t } where
  targets := by
    rw [hj]
    exact h.targets
  recorded j hmem := h.recorded j (hj ▸ hmem)
  entries := h.entries
  holder c phase hh := by
    obtain ⟨hc, hp⟩ := h.holder c phase hh
    refine ⟨hc, ?_⟩
    rcases hd with hfree | hd
    · rw [hfree] at hh
      cases hh
    cases phase with
    | lookup | choose => trivial
    | check => exact hp
    | insert target seen =>
      refine ⟨hp.1, hj ▸ hp.2.1, fun d hmem heq => ?_⟩
      rcases hd d hmem with ⟨d', hd', hvmid⟩ | hclone
      · exact hp.2.2 d' hd' (hvmid.trans heq)
      · exact hp.2.1 (heq ▸ hclone)

theorem targeted_explicit (h : c.valid = true) (hc : c.choose = false) :
    Targeted c c.job.targetVmid none where
  source := Call.target h
  first hchoose := by
    rw [hc] at hchoose
    cases hchoose

theorem Sound.next (h : Sound l) (hh : l.holder = some (c, phase)) : Sound (l.next c phase) := by
  obtain ⟨hc, hp⟩ := h.holder c phase hh
  cases phase with
  | lookup =>
    have hnext : Phase.Ok l.tables c
        (if c.choose then .choose else .check c.job.targetVmid none) := by
      cases hchoose : c.choose with
      | true => exact True.intro
      | false => exact targeted_explicit hc hchoose
    simp only [Ledger.next]
    split
    · exact h.release
    · exact h.hold hc hnext
  | choose =>
    rw [Ledger.next]
    cases htarget : l.tables.availableTarget c.job c.occupied with
    | none => exact h.release
    | some target =>
      have hfirst := first_of_availableTarget htarget
      exact h.hold hc ⟨hfirst.free.1, fun _ => ⟨_, rfl, hfirst⟩⟩
  | check target seen =>
    simp only [Ledger.next]
    split
    · exact h.release
    next hfree =>
      simp only [AccessTables.targetTaken, or_eq_true, not_or, any_eq_true,
        and_eq_true, beq_iff_eq, not_exists, not_and] at hfree
      refine h.hold hc ⟨hp, fun hmem => ?_, hfree.1⟩
      obtain ⟨j, hj, hclone, htarget⟩ := mem_cloneTargets.mp hmem
      exact hfree.2 j hj htarget (beq_iff_eq.mp hclone)
  | insert target seen =>
    obtain ⟨htargeted, hnew, hdesktops⟩ := hp
    simp only [Ledger.next]
    split
    · exact h.release
    · have hclone : isClone (Ledger.newJob c target) = true := beq_iff_eq.mpr (Call.operation hc)
      constructor
      · simp only [Ledger.setJobs, cloneTargets, filter_append, map_append,
          filter_cons, hclone, if_true, filter_nil, map_cons, map_nil]
        exact nodup_append.mpr ⟨h.targets, nodup_singleton _, by
          intro a ha b hb
          obtain rfl := mem_singleton.mp hb
          rintro rfl
          exact hnew ha⟩
      · intro j hj hcj
        rcases mem_append.mp hj with hj | hj
        · obtain ⟨e, he, hrest⟩ := h.recorded j hj hcj
          exact ⟨e, mem_cons_of_mem _ he, hrest⟩
        · obtain rfl := mem_singleton.mp hj
          exact ⟨_, mem_cons_self, rfl, rfl, rfl⟩
      · intro e he
        rcases mem_cons.mp he with rfl | he
        · exact ⟨htargeted, hdesktops⟩
        · exact h.entries e he
      · rintro c' phase' ⟨⟩

theorem createJob_cases {job : Job} (h : l.createJob job = some l') :
    l' = l ∨ (isClone job = false ∧
      l' = l.setJobs (l.tables.jobs ++ [{ job with upid := none }])) := by
  unfold Ledger.createJob at h
  split at h
  · cases h
  next hguard =>
    simp only [or_eq_true, not_or] at hguard
    split at h
    · exact .inl (Option.some.inj h).symm
    · split at h
      · cases h
      · exact .inr ⟨Bool.eq_false_iff.mpr hguard.1, (Option.some.inj h).symm⟩

theorem jobs_reportAll {t' : AccessTables} {reports : List DesktopReport}
    (h : AccessTables.reportAll t reports = .ok t') : t'.jobs = t.jobs := by
  induction reports generalizing t with
  | nil =>
    cases h
    rfl
  | cons r reports ih =>
    obtain ⟨t₁, h₁, h⟩ := bind_eq_ok.mp h
    simp only [AccessTables.upsertManagedDesktop, seq_eq_ok] at h₁
    cases h₁.2
    exact (ih h).trans rfl

theorem Sound.step (h : Sound l) {a : Action} (ha : l.step a = some l') : Sound l' := by
  cases a with
  | start call =>
    simp only [Ledger.step] at ha
    split at ha
    next hguard =>
      cases ha
      exact h.hold (Bool.and_eq_true_iff.mp hguard).2 trivial
    · cases ha
  | next =>
    obtain ⟨⟨c, phase⟩, hh, rfl⟩ := map_eq_some_iff.mp ha
    exact h.next hh
  | rollback =>
    cases ha
    exact h.release
  | createJob job =>
    rcases createJob_cases ha with rfl | ⟨hno, rfl⟩
    · exact h
    · exact h.setJobs (sameClones_append hno)
  | progress | settle =>
    cases ha
    exact h.setJobs (sameClones_updateWhere fun _ => ⟨rfl, rfl, rfl, rfl⟩)
  | register r =>
    simp only [Ledger.step] at ha
    split at ha
    next hclone =>
      obtain ⟨t, ht, rfl⟩ := map_eq_some_iff.mp ha
      have ht := toOption_eq_some.mp ht
      simp only [AccessTables.upsertManagedDesktop, seq_eq_ok] at ht
      cases ht.2
      refine h.setDesktops rfl (.inr fun d hd => ?_)
      rcases of_mem_upsert hd with rfl | ⟨d', hd', rfl | ⟨-, rfl⟩⟩
      · exact .inr (isCloneTarget_iff.mp hclone)
      · exact .inl ⟨_, hd', rfl⟩
      · exact .inl ⟨d', hd', rfl⟩
    · cases ha
  | quarantine r =>
    simp only [Ledger.step] at ha
    split at ha
    next hguard =>
      obtain ⟨t, ht, rfl⟩ := map_eq_some_iff.mp ha
      have ht := toOption_eq_some.mp ht
      simp only [AccessTables.quarantineClonedDesktop, seq_eq_ok] at ht
      cases ht.2
      exact h.setDesktops rfl
        (.inl (Option.isNone_iff_eq_none.mp (Bool.and_eq_true_iff.mp hguard).1))
    · cases ha
  | reconcile reports =>
    simp only [Ledger.step] at ha
    split at ha
    next hfree =>
      obtain ⟨t, ht, rfl⟩ := map_eq_some_iff.mp ha
      have ht := jobs_reportAll (toOption_eq_some.mp ht)
      exact h.setDesktops ht (.inl (Option.isNone_iff_eq_none.mp hfree))
    · cases ha

theorem sound_of_reachable (hl : ownership.Reachable l) : Sound l := by
  refine hl.invariant (fun l h => ?_) fun _ _ _ _ h ha => h.step ha
  constructor
  · simp [cloneTargets, h.jobs]
  · simp [h.jobs]
  · simp [h.reserved]
  · simp [h.holder]

end Invariant

section Apart

def Apart (jobs : List Job) : Prop :=
  ∀ j ∈ jobs, ∀ b ∈ jobs, isClone j = true → isBuilding b = true → j.targetVmid ≠ b.targetVmid

theorem not_building_of_clone {j : Job} (h : isClone j = true) : isBuilding j = false := by
  simp only [isClone, beq_iff_eq] at h
  simp [isBuilding, h]

theorem Apart.updateWhere {p : Job → Bool} {f : Job → Job} {jobs : List Job} (h : Apart jobs)
    (hf : ∀ j, p j = true → isClone (f j) = isClone j ∧ (f j).targetVmid = j.targetVmid ∧
      (isBuilding (f j) = true → isBuilding j = true)) : Apart (updateWhere p f jobs) := by
  have hback : ∀ j' ∈ Transition.updateWhere p f jobs, ∃ j ∈ jobs, isClone j' = isClone j ∧
      j'.targetVmid = j.targetVmid ∧ (isBuilding j' = true → isBuilding j = true) := by
    intro j' hj'
    obtain ⟨j, hj, ⟨hp, rfl⟩ | ⟨-, rfl⟩⟩ := mem_updateWhere.mp hj'
    · exact ⟨j, hj, hf j hp⟩
    · exact ⟨_, hj, rfl, rfl, id⟩
  intro j' hj' b' hb' hc hb
  obtain ⟨j, hj, hclone, htarget, -⟩ := hback j' hj'
  obtain ⟨b, hbm, -, htarget', hbuilding⟩ := hback b' hb'
  rw [htarget, htarget']
  exact h j hj b hbm (hclone ▸ hc) (hbuilding hb)

theorem Apart.append {jobs : List Job} {job : Job} (h : Apart jobs)
    (hclone : isClone job = true → ∀ b ∈ jobs, isBuilding b = true → job.targetVmid ≠ b.targetVmid)
    (hbuild : isBuilding job = true → ∀ j ∈ jobs, isClone j = true →
      j.targetVmid ≠ job.targetVmid) : Apart (jobs ++ [job]) := by
  intro j hj b hb hc hbuilding
  rcases mem_append.mp hj with hold | hnew <;> rcases mem_append.mp hb with hold' | hnew'
  · exact h j hold b hold' hc hbuilding
  · obtain rfl := mem_singleton.mp hnew'
    exact hbuild hbuilding j hold hc
  · obtain rfl := mem_singleton.mp hnew
    exact hclone hc b hold' hbuilding
  · obtain rfl := mem_singleton.mp hnew
    obtain rfl := mem_singleton.mp hnew'
    rw [not_building_of_clone hc] at hbuilding
    cases hbuilding

theorem Apart.next {c : Call} {phase : Phase} (h : Apart l.tables.jobs) (hs : Sound l)
    (hh : l.holder = some (c, phase)) (hk : l.keepsApart .next = true) :
    Apart (l.next c phase).tables.jobs := by
  cases phase with
  | lookup | check =>
    simp only [Ledger.next]
    split
    · exact h
    · exact h
  | choose =>
    rw [Ledger.next]
    cases l.tables.availableTarget c.job c.occupied with
    | none | some => exact h
  | insert target seen =>
    simp only [Ledger.next]
    split
    · exact h
    · simp only [Ledger.keepsApart, hh, not_eq_true', any_eq_false, and_eq_true,
        beq_iff_eq, not_and] at hk
      refine h.append (fun _ b hb hbuilding heq => hk b hb hbuilding heq.symm) fun hbuilding => ?_
      have hclone : isClone (Ledger.newJob c target) = true :=
        beq_iff_eq.mpr (Call.operation (hs.holder c _ hh).1)
      rw [not_building_of_clone hclone] at hbuilding
      cases hbuilding

theorem Apart.step {a : Action} (h : Apart l.tables.jobs) (hs : Sound l)
    (hk : l.keepsApart a = true) (ha : l.step a = some l') : Apart l'.tables.jobs := by
  cases a with
  | start call =>
    simp only [Ledger.step] at ha
    split at ha
    · cases ha
      exact h
    · cases ha
  | next =>
    obtain ⟨⟨c, phase⟩, hh, rfl⟩ := map_eq_some_iff.mp ha
    exact h.next hs hh hk
  | rollback =>
    cases ha
    exact h
  | createJob job =>
    rcases createJob_cases ha with rfl | ⟨hno, rfl⟩
    · exact h
    · refine h.append (fun hc => ?_) fun hbuilding j hj hc heq => ?_
      · rw [isClone] at hc hno
        rw [hno] at hc
        cases hc
      · simp only [isBuilding, and_eq_true, beq_iff_eq] at hbuilding
        simp only [Ledger.keepsApart, hbuilding.1, bne_self_eq_false, Bool.false_or,
          not_eq_true'] at hk
        refine Bool.eq_false_iff.mp hk (isCloneTarget_iff.mpr ?_)
        exact mem_cloneTargets.mpr ⟨j, hj, hc, heq⟩
  | progress id state =>
    cases ha
    exact h.updateWhere fun j hp => ⟨rfl, rfl, fun _ => (Bool.and_eq_true_iff.mp hp).2⟩
  | settle id state upid =>
    cases ha
    refine h.updateWhere fun j hp => ⟨rfl, rfl, fun hb => ?_⟩
    simp only [isBuilding, and_eq_true, beq_iff_eq] at hb
    simp [hb.1] at hp
  | register r =>
    simp only [Ledger.step] at ha
    split at ha
    · obtain ⟨t, ht, rfl⟩ := map_eq_some_iff.mp ha
      have ht := toOption_eq_some.mp ht
      simp only [AccessTables.upsertManagedDesktop, seq_eq_ok] at ht
      cases ht.2
      exact h
    · cases ha
  | quarantine r =>
    simp only [Ledger.step] at ha
    split at ha
    · obtain ⟨t, ht, rfl⟩ := map_eq_some_iff.mp ha
      have ht := toOption_eq_some.mp ht
      simp only [AccessTables.quarantineClonedDesktop, seq_eq_ok] at ht
      cases ht.2
      exact h
    · cases ha
  | reconcile reports =>
    simp only [Ledger.step] at ha
    split at ha
    · obtain ⟨t, ht, rfl⟩ := map_eq_some_iff.mp ha
      have ht := jobs_reportAll (toOption_eq_some.mp ht)
      simp only [ht]
      exact h
    · cases ha

/-- The runs in which image builds and reservations keep off each other's targets. -/
def apartOwnership : Machine Ledger Action := ownership.restrict Ledger.keepsApart

theorem apart_of_reachable (hl : apartOwnership.Reachable l) : Apart l.tables.jobs := by
  refine hl.invariant (P := fun l => Apart l.tables.jobs) (fun l h => ?_) fun s a s' hs h ha => ?_
  · intro j hj
    rw [h.jobs] at hj
    cases hj
  · obtain ⟨hk, ha⟩ := Machine.step_restrict.mp ha
    exact h.step (sound_of_reachable hs.of_restrict) hk ha

end Apart

section Ownership

/-- The targets of clones are distinct, were neither source nor desktop, and those that were chosen
were the first free of the range; where builds and reservations keep off each other's targets, no
image is built on the target of a clone. -/
theorem target_ownership (hl : ownership.Reachable l) :
    (∀ j ∈ l.tables.jobs, ∀ j' ∈ l.tables.jobs, isClone j = true → isClone j' = true →
      j.targetVmid = j'.targetVmid → j.id = j'.id) ∧
    (∀ j ∈ l.tables.jobs, isClone j = true → ∃ e ∈ l.reserved, e.call.job.id = j.id ∧
      e.target = j.targetVmid ∧ e.call.job.sourceVmid = j.sourceVmid ∧
      j.targetVmid ≠ j.sourceVmid ∧ (∀ d ∈ e.tables.desktops, d.vmid ≠ j.targetVmid) ∧
      (e.call.choose = true → ∃ t, e.seen = some t ∧ First t e.call j.targetVmid)) ∧
    (apartOwnership.Reachable l → ∀ j ∈ l.tables.jobs, ∀ b ∈ l.tables.jobs, isClone j = true →
      isBuilding b = true → j.targetVmid ≠ b.targetVmid) := by
  have hs := sound_of_reachable hl
  refine ⟨fun j hj j' hj' hc hc' heq => ?_, fun j hj hc => ?_, apart_of_reachable⟩
  · have hinj := inj_on_of_nodup_map hs.targets (mem_filter.mpr ⟨hj, hc⟩)
      (mem_filter.mpr ⟨hj', hc'⟩) heq
    rw [hinj]
  · obtain ⟨e, he, hid, htarget, hsource⟩ := hs.recorded j hj hc
    obtain ⟨htargeted, hdesktops⟩ := hs.entries e he
    rw [← htarget, ← hsource]
    exact ⟨e, he, hid, rfl, rfl, htargeted.source, hdesktops, htargeted.first⟩

/-! A clone that is reserved and a build of an image. -/

def sampleCall (choose : Bool) : Call :=
  ⟨⟨"clone", "clone", "clone", .templateClone, .accepted, 100, 101, some "node", some "node", none,
    "clone"⟩, [101], choose⟩

def sampleBuild (vmid : ℕ) : Job :=
  ⟨"build", "build", "build", .imageBuild, .accepted, 0, vmid, some "node", some "node", none,
    "build"⟩

def sampleLedger : Ledger := ⟨⟨[], [], [], [], [], [], [], [], []⟩, none, []⟩

theorem fresh_sampleLedger : Fresh sampleLedger := ⟨rfl, rfl, rfl⟩

/-- The search passes the occupied machine and the image that is built. -/
theorem target_ownership_sample : ∃ l, apartOwnership.Reachable l ∧ ∃ j ∈ l.tables.jobs,
    j.targetVmid = 103 ∧ isClone j = true ∧ (∃ e ∈ l.reserved, e.target = j.targetVmid ∧
      (e.call.choose = true → ∃ t, e.seen = some t ∧ First t e.call j.targetVmid)) ∧
    ∀ b ∈ l.tables.jobs, isBuilding b = true → j.targetVmid ≠ b.targetVmid := by
  obtain ⟨l, hl, h⟩ := Machine.exists_reachable_of_run (M := apartOwnership)
    (P := fun l => ∃ j ∈ l.tables.jobs, j.targetVmid = 103 ∧ isClone j = true)
    sampleLedger
      [.createJob (sampleBuild 102), .start (sampleCall true), .next, .next, .next, .next]
    fresh_sampleLedger (by decide +kernel)
  obtain ⟨j, hj, htarget, hc⟩ := h
  obtain ⟨-, hreserved, hapart⟩ := target_ownership hl.of_restrict
  obtain ⟨e, he, -, hetarget, -, -, -, hfirst⟩ := hreserved j hj hc
  exact ⟨l, hl, j, hj, htarget, hc, ⟨e, he, hetarget, hfirst⟩, fun b hb => hapart hl j hj b hb hc⟩

/-- An image is built on the target of a clone, and an explicit reservation takes the target of an
image that is being built. -/
theorem target_ownership_shared :
    (∃ l, ownership.Reachable l ∧ ∃ j ∈ l.tables.jobs, ∃ b ∈ l.tables.jobs, isClone j = true ∧
      isBuilding b = true ∧ j.targetVmid = b.targetVmid) ∧
    ∃ l, ownership.Reachable l ∧ ∃ e ∈ l.reserved, e.call.choose = false ∧
      ∃ b ∈ e.tables.jobs, isBuilding b = true ∧ e.target = b.targetVmid := by
  constructor
  · exact Machine.exists_reachable_of_run sampleLedger
      [.start (sampleCall true), .next, .next, .next, .next, .createJob (sampleBuild 102)]
      fresh_sampleLedger (by decide +kernel)
  · exact Machine.exists_reachable_of_run sampleLedger
      [.createJob (sampleBuild 101), .start (sampleCall false), .next, .next, .next]
      fresh_sampleLedger (by decide +kernel)

end Ownership

end VcWorkspace.Clone.Ownership
