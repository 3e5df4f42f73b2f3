import Mathlib.Data.List.Nodup
import VcWorkspace.Store.Footprint

/-! # Assignments and the mode of a desktop

A personal desktop has an owner, a shared one has assignments of users and
groups. The migration that introduced the modes makes the desktops of several
users shared and gives the desktops of one user an owner; its last statement
means to delete the owner's assignment, but still sees the desktops without
owners.
-/

namespace VcWorkspace.Store.AssignmentMode

open Transition List

section Migration

structure OldDesktop where
  vmid : ℕ
  displayName : String
  node : String
  present : Bool
  enabled : Bool
  deriving DecidableEq

structure OldAssignment where
  userId : String
  desktopVmid : ℕ
  createdAt : ℕ
  deriving DecidableEq

/-- The tables before the migration, with their primary and foreign keys. -/
structure OldTables where
  users : List User
  desktops : List OldDesktop
  userAssignments : List OldAssignment
  agentAssignments : List (String × ℕ)
  agents : List AgentPrincipal
  jobs : List Job
  desktopKeys : (desktops.map (·.vmid)).Nodup
  assignmentKeys : (userAssignments.map fun a => (a.userId, a.desktopVmid)).Nodup
  references : ∀ a ∈ userAssignments,
    a.userId ∈ users.map (·.id) ∧ a.desktopVmid ∈ desktops.map (·.vmid)

namespace OldTables

variable (old : OldTables)

/-- The new columns: every desktop is personal and has neither an owner nor a profile. -/
def addColumns : List ManagedDesktop :=
  old.desktops.map fun d =>
    ⟨d.vmid, d.displayName, d.node, none, d.present, d.enabled, .personal, none, none⟩

def userCount (vmid : ℕ) : ℕ := (old.userAssignments.filter (·.desktopVmid == vmid)).length

def shareDesktops : List ManagedDesktop :=
  updateWhere (fun d => 1 < old.userCount d.vmid) (fun d => { d with accessMode := .shared })
    old.addColumns

/-- The row number of an assignment among those of its desktop, by age and user. -/
def position (a : OldAssignment) : ℕ :=
  1 + (old.userAssignments.filter fun b => b.desktopVmid == a.desktopVmid &&
    (b.createdAt < a.createdAt || (b.createdAt == a.createdAt && b.userId < a.userId))).length

def firstAssignment (vmid : ℕ) : Option OldAssignment :=
  old.userAssignments.find? fun a => a.desktopVmid == vmid && old.position a == 1

/-- The sub-statement `owners`, on the desktops of the snapshot. -/
def setOwners (snapshot : List ManagedDesktop) : List ManagedDesktop :=
  updateWhere (fun d => d.accessMode == .personal && d.ownerUserId.isNone &&
      (old.firstAssignment d.vmid).isSome)
    (fun d => { d with ownerUserId := (old.firstAssignment d.vmid).map (·.userId) }) snapshot

/-- The main statement: delete the assignments of the owners in the snapshot. -/
def deleteOwned (snapshot : List ManagedDesktop) : List OldAssignment :=
  old.userAssignments.filter fun a => !snapshot.any fun d => d.vmid == a.desktopVmid &&
    d.accessMode == .personal && d.ownerUserId == some a.userId

/-- Migration 014. All sub-statements of the last statement see the same snapshot; the tables of
groups are new. -/
def migrate : AccessTables where
  users := old.users
  desktops := old.setOwners old.shareDesktops
  userAssignments := (old.deleteOwned old.shareDesktops).map fun a => (a.userId, a.desktopVmid)
  agentAssignments := old.agentAssignments
  groupAssignments := []
  groups := []
  memberships := []
  agents := old.agents
  jobs := old.jobs

end OldTables

end Migration

section Model

def changesAssignment : AccessOp → Bool
  | .updateManagedDesktopIdentity .. | .putDesktopAssignment ..
  | .deleteDesktopAssignment .. => true
  | _ => false

variable (sha256 : Sha256)

/-- The store after the migration, with whatever was given out before. -/
def assignments (old : OldTables) (grants : Grants) : Machine AccessState AccessOp where
  Init s := s = ⟨old.migrate, grants⟩
  step s op := if changesAssignment op then (op.apply sha256 s).toOption else none

structure SharedOnly (t : AccessTables) : Prop where
  users : ∀ a ∈ t.userAssignments, ∃ d ∈ t.desktops, d.vmid = a.2 ∧ d.accessMode = .shared
  groups : ∀ a ∈ t.groupAssignments, ∃ d ∈ t.desktops, d.vmid = a.2 ∧ d.accessMode = .shared

def assigns (userId : String) (vmid : ℕ) : AccessOp → Bool
  | .putDesktopAssignment .user subject v => subject == userId && v == vmid
  | .putDesktopAssignment .group _ v => v == vmid
  | _ => false

/-- The owner of a personal desktop, once removed, gets no access from a switch to shared unless
the desktop is assigned again. -/
def StaysRemoved (M : Machine AccessState AccessOp) (s : AccessState) : Prop :=
  ∀ userId vmid s₁ ops s₂ owner profile profileExists s₃, (∃ d ∈ s.tables.desktops,
      d.vmid = vmid ∧ d.accessMode = .personal ∧ d.ownerUserId = some userId) →
    M.step s (.deleteDesktopAssignment .user userId vmid) = some s₁ →
    (∀ op ∈ ops, assigns userId vmid op = false) → M.run s₁ ops = some s₂ →
    M.step s₂ (.updateManagedDesktopIdentity vmid .shared owner profile profileExists) = some s₃ →
    s₃.access userId vmid = false

end Model

variable {t t' : AccessTables} {op : AccessOp}

section Steps

variable {v : ℕ} {type : SubjectType}

/-- What an operation does to the desktops and to the assignments of users and groups. -/
inductive Changes (t : AccessTables) : AccessOp → AccessTables → Prop
  | identity {v : ℕ} {mode : AccessMode} {owner : String} {o : Option String}
      {profile : Option String} {exists_ : Bool} :
    Changes t (.updateManagedDesktopIdentity v mode owner profile exists_)
      { t with
        desktops := updateWhere (·.vmid == v)
          (fun d => { d with accessMode := mode, ownerUserId := o, identityProfileId := profile })
          t.desktops
        userAssignments := t.userAssignments.filter fun a => mode == .shared || a.2 != v
        groupAssignments := t.groupAssignments.filter fun a => mode == .shared || a.2 != v }
  | owner {op : AccessOp} (v : ℕ) (o : Option String) : Changes t op (t.setOwner v o)
  | drop {op : AccessOp} {t' : AccessTables} : t'.desktops = t.desktops →
    (∀ a ∈ t'.userAssignments, a ∈ t.userAssignments) →
    (∀ a ∈ t'.groupAssignments, a ∈ t.groupAssignments) → Changes t op t'
  | user {subject : String} {d : ManagedDesktop} : d ∈ t.desktops → d.accessMode = .shared →
    Changes t (.putDesktopAssignment .user subject d.vmid)
      { t with userAssignments := insertOnce (subject, d.vmid) t.userAssignments }
  | group {subject : String} {d : ManagedDesktop} : d ∈ t.desktops → d.accessMode = .shared →
    Changes t (.putDesktopAssignment .group subject d.vmid)
      { t with groupAssignments := insertOnce (subject, d.vmid) t.groupAssignments }

theorem Changes.refl : Changes t op t := .drop rfl (fun _ => id) (fun _ => id)

theorem changes_put {subject : String} (h : t.putDesktopAssignment type subject v = .ok t') :
    Changes t (.putDesktopAssignment type subject v) t' := by
  unfold AccessTables.putDesktopAssignment at h
  split at h
  case h_1 => cases h
  case h_2 d hd =>
    have hmem := mem_of_find?_eq_some hd
    obtain rfl : d.vmid = v := by simpa using find?_some hd
    cases type with
    | user =>
      simp only [AccessTables.putUserAssignment] at h
      split at h <;> rw [seq_eq_ok] at h <;> obtain rfl := Except.ok.inj h.2
      · exact .refl
      · exact .owner _ _
      · exact .user hmem ‹_›
    | agent =>
      rw [seq_eq_ok] at h
      cases h.2
      exact .drop rfl (fun _ => id) fun _ => id
    | group =>
      simp only [seq_eq_ok, ensure_eq_ok, beq_iff_eq] at h
      cases h.2.2
      exact .group hmem h.1

theorem changes_delete {subject : String} (h : t.deleteDesktopAssignment type subject v = .ok t') :
    Changes t (.deleteDesktopAssignment type subject v) t' := by
  cases type with
  | user =>
    simp only [AccessTables.deleteDesktopAssignment] at h
    split at h
    case h_1 => cases h
    case h_2 d hd =>
      cases h
      unfold AccessTables.deleteUserAssignment
      split
      · split
        · exact .owner _ _
        · exact .refl
      · exact .drop rfl (fun a ha => (mem_filter.mp ha).1) fun _ => id
  | agent =>
    cases h
    exact .drop rfl (fun _ => id) fun _ => id
  | group =>
    cases h
    exact .drop rfl (fun _ => id) fun a ha => (mem_filter.mp ha).1

end Steps

variable {userId : String} {vmid : ℕ}

section Invariant

def Shared (t : AccessTables) (vmid : ℕ) : Prop :=
  ∃ d ∈ t.desktops, d.vmid = vmid ∧ d.accessMode = .shared

/-- One row per desktop, and assignments to shared desktops only. -/
structure Sound (t : AccessTables) : Prop where
  keys : (t.desktops.map (·.vmid)).Nodup
  modes : SharedOnly t

theorem Changes.keys (h : Changes t op t') :
    t'.desktops.map (·.vmid) = t.desktops.map (·.vmid) := by
  cases h with
  | identity | owner => exact map_updateWhere fun _ _ => rfl
  | drop hd => rw [hd]
  | user | group => rfl

theorem Shared.setOwner (h : Shared t vmid) (v : ℕ) (o : Option String) :
    Shared (t.setOwner v o) vmid := by
  obtain ⟨d, hd, rfl, hmode⟩ := h
  obtain ⟨d', hd', rfl | rfl⟩ := exists_updateWhere (p := fun d : ManagedDesktop => d.vmid == v)
    (f := fun d => { d with ownerUserId := o }) hd
  · exact ⟨_, hd', rfl, hmode⟩
  · exact ⟨_, hd', rfl, hmode⟩

theorem Shared.identity {v : ℕ} {mode : AccessMode} {o profile : Option String}
    (h : Shared t vmid) (hmode : (mode == .shared || vmid != v) = true) :
    ∃ d ∈ updateWhere (·.vmid == v)
        (fun d => { d with accessMode := mode, ownerUserId := o, identityProfileId := profile })
        t.desktops, d.vmid = vmid ∧ d.accessMode = .shared := by
  obtain ⟨d, hd, rfl, hshared⟩ := h
  simp only [Bool.or_eq_true, beq_iff_eq, bne_iff_ne] at hmode
  by_cases hv : d.vmid = v
  · exact ⟨_, mem_updateWhere.mpr ⟨d, hd, .inl ⟨beq_iff_eq.mpr hv, rfl⟩⟩, rfl,
      hmode.resolve_right fun hne => hne hv⟩
  · exact ⟨d, mem_updateWhere.mpr ⟨d, hd, .inr ⟨beq_eq_false_iff_ne.mpr hv, rfl⟩⟩, rfl, hshared⟩

theorem Changes.sharedOnly (h : Changes t op t') (hs : SharedOnly t) : SharedOnly t' := by
  cases h with
  | identity =>
    constructor <;> intro a ha <;> obtain ⟨ha, hmode⟩ := mem_filter.mp ha
    · exact Shared.identity (hs.users a ha) hmode
    · exact Shared.identity (hs.groups a ha) hmode
  | owner v o =>
    exact ⟨fun a ha => Shared.setOwner (hs.users a ha) v o,
      fun a ha => Shared.setOwner (hs.groups a ha) v o⟩
  | drop hd hu hg =>
    constructor <;> intro a ha <;> rw [hd]
    · exact hs.users a (hu a ha)
    · exact hs.groups a (hg a ha)
  | @user subject d hd hmode =>
    refine ⟨fun a ha => ?_, hs.groups⟩
    rcases of_mem_insertOnce ha with ha | rfl
    · exact hs.users a ha
    · exact ⟨d, hd, rfl, hmode⟩
  | @group subject d hd hmode =>
    refine ⟨hs.users, fun a ha => ?_⟩
    rcases of_mem_insertOnce ha with ha | rfl
    · exact hs.groups a ha
    · exact ⟨d, hd, rfl, hmode⟩

theorem Changes.sound (h : Changes t op t') (hs : Sound t) : Sound t' :=
  ⟨h.keys ▸ hs.keys, h.sharedOnly hs.modes⟩

structure Unassigned (userId : String) (vmid : ℕ) (t : AccessTables) : Prop where
  user : (userId, vmid) ∉ t.userAssignments
  groups : ∀ groupId, (groupId, vmid) ∉ t.groupAssignments

theorem Changes.unassigned (h : Changes t op t') (hop : assigns userId vmid op = false)
    (hu : Unassigned userId vmid t) : Unassigned userId vmid t' := by
  cases h with
  | identity =>
    exact ⟨fun ha => hu.user (mem_filter.mp ha).1,
      fun g ha => hu.groups g (mem_filter.mp ha).1⟩
  | owner => exact ⟨hu.user, hu.groups⟩
  | drop _ husers hgroups =>
    exact ⟨fun ha => hu.user (husers _ ha), fun g ha => hu.groups g (hgroups _ ha)⟩
  | user =>
    refine ⟨fun ha => ?_, hu.groups⟩
    rcases of_mem_insertOnce ha with ha | heq
    · exact hu.user ha
    · cases heq
      simp [assigns] at hop
  | group =>
    refine ⟨hu.user, fun g ha => ?_⟩
    rcases of_mem_insertOnce ha with ha | heq
    · exact hu.groups g ha
    · cases heq
      simp [assigns] at hop

theorem Sound.unassigned (h : Sound t) {d : ManagedDesktop} (hd : d ∈ t.desktops)
    (hmode : d.accessMode = .personal) (userId : String) : Unassigned userId d.vmid t := by
  have hno : ¬ Shared t d.vmid := by
    rintro ⟨d', hd', hv, hshared⟩
    obtain rfl := inj_on_of_nodup_map h.keys hd' hd hv
    rw [hmode] at hshared
    cases hshared
  exact ⟨fun ha => hno (h.modes.users _ ha), fun g ha => hno (h.modes.groups _ ha)⟩

theorem Unassigned.access (h : Unassigned userId vmid t)
    (hmode : ∀ d ∈ t.desktops, d.vmid = vmid → d.accessMode = .shared) :
    t.effectiveUserDesktopAccess userId vmid = false := by
  have hgroup : t.groupAccess userId vmid = false := by
    simp only [AccessTables.groupAccess, any_eq_false, Bool.and_eq_true, beq_iff_eq]
    rintro ⟨g, v⟩ ha ⟨⟨rfl, -⟩, -⟩
    exact h.groups g ha
  simp only [AccessTables.effectiveUserDesktopAccess, Bool.and_eq_false_iff, any_eq_false]
  right
  intro d hd hacc
  simp only [Bool.and_eq_true, beq_iff_eq] at hacc
  obtain ⟨⟨⟨⟨hv, -⟩, -⟩, -⟩, hacc⟩ := hacc
  rw [hmode d hd hv] at hacc
  simp [hgroup, h.user] at hacc

end Invariant

variable {old : OldTables}

section Runs

variable {sha256 : Sha256} {grants : Grants} {s s' : AccessState}

theorem changes_of_step (h : (assignments sha256 old grants).step s op = some s') :
    Changes s.tables op s'.tables := by
  simp only [assignments] at h
  split at h
  next hop =>
    have happly := toOption_eq_some.mp h
    cases op with
    | updateManagedDesktopIdentity =>
      obtain ⟨t, ht, hcommit⟩ := bind_eq_ok.mp happly
      rw [(Footprint.commit_ok hcommit).1]
      simp only [AccessTables.updateManagedDesktopIdentity, seq_eq_ok] at ht
      cases ht.2.2.2
      exact .identity
    | putDesktopAssignment =>
      obtain ⟨t, ht, hcommit⟩ := bind_eq_ok.mp happly
      rw [(Footprint.commit_ok hcommit).1]
      exact changes_put ht
    | deleteDesktopAssignment =>
      obtain ⟨t, ht, hcommit⟩ := bind_eq_ok.mp happly
      rw [(Footprint.commit_ok hcommit).1]
      exact changes_delete ht
    | _ => cases hop
  · cases h

theorem unassigned_of_run {ops : List AccessOp} (hops : ∀ op ∈ ops, assigns userId vmid op = false)
    (h : (assignments sha256 old grants).run s ops = some s')
    (hs : Unassigned userId vmid s.tables) : Unassigned userId vmid s'.tables := by
  induction ops generalizing s with
  | nil => exact Machine.run_nil.mp h ▸ hs
  | cons op ops ih =>
    obtain ⟨u, hu, h⟩ := Machine.run_cons.mp h
    obtain ⟨hop, hops⟩ := forall_mem_cons.mp hops
    exact ih hops h ((changes_of_step hu).unassigned hop hs)

theorem shared_of_switch {owner : String} {profile : Option String} {exists_ : Bool}
    (h : (assignments sha256 old grants).step s
      (.updateManagedDesktopIdentity vmid .shared owner profile exists_) = some s') :
    ∀ d ∈ s'.tables.desktops, d.vmid = vmid → d.accessMode = .shared := by
  obtain ⟨t, ht, hcommit⟩ := bind_eq_ok.mp (toOption_eq_some.mp h)
  rw [(Footprint.commit_ok hcommit).1]
  simp only [AccessTables.updateManagedDesktopIdentity, seq_eq_ok] at ht
  cases ht.2.2.2
  intro d hd hv
  obtain ⟨d₀, -, ⟨-, rfl⟩ | ⟨hne, rfl⟩⟩ := mem_updateWhere.mp hd
  · rfl
  · exact absurd hv (beq_eq_false_iff_ne.mp hne)

theorem Sound.staysRemoved (h : Sound s.tables) :
    StaysRemoved (assignments sha256 old grants) s := by
  rintro userId vmid s₁ ops s₂ owner profile exists_ s₃ ⟨d, hd, rfl, hmode, -⟩ hdelete hops hrun
    hswitch
  -- a personal desktop has no assignments, and none is made before the switch
  have hstart : Unassigned userId d.vmid s₁.tables :=
    (changes_of_step hdelete).unassigned rfl (h.unassigned hd hmode userId)
  have hend := unassigned_of_run hops hrun hstart
  exact ((changes_of_step hswitch).unassigned rfl hend).access (shared_of_switch hswitch)

theorem sound_of_reachable (h : (assignments sha256 old grants).Reachable s)
    (hinit : Sound old.migrate) : Sound s.tables := by
  refine h.invariant (P := fun s => Sound s.tables) ?_ ?_
  · rintro s rfl
    exact hinit
  · intro s op s' _ hs hstep
    exact (changes_of_step hstep).sound hs

end Runs

section Snapshot

variable {d : ManagedDesktop}

theorem mem_shareDesktops (h : d ∈ old.shareDesktops) :
    d.ownerUserId = none ∧ (d.accessMode = .shared ↔ 1 < old.userCount d.vmid) := by
  obtain ⟨d₀, hd₀, hd⟩ := mem_updateWhere.mp h
  obtain ⟨o, -, rfl⟩ := mem_map.mp hd₀
  rcases hd with ⟨hp, rfl⟩ | ⟨hp, rfl⟩
  · exact ⟨rfl, fun _ => of_decide_eq_true hp, fun _ => rfl⟩
  · exact ⟨rfl, nofun, fun hlt => absurd hlt (of_decide_eq_false hp)⟩

theorem deleteOwned_shareDesktops : old.deleteOwned old.shareDesktops = old.userAssignments := by
  rw [OldTables.deleteOwned, filter_eq_self]
  intro a _
  simp only [Bool.not_eq_true', any_eq_false, Bool.and_eq_true, not_and]
  intro d hd _ howner
  rw [(mem_shareDesktops hd).1] at howner
  cases howner

theorem map_vmid_migrate : old.migrate.desktops.map (·.vmid) = old.desktops.map (·.vmid) := by
  have howners : old.migrate.desktops.map (·.vmid) = old.shareDesktops.map (·.vmid) :=
    map_updateWhere fun _ _ => rfl
  have hshare : old.shareDesktops.map (·.vmid) = old.addColumns.map (·.vmid) :=
    map_updateWhere fun _ _ => rfl
  rw [howners, hshare, OldTables.addColumns, map_map]
  rfl

theorem shared_migrate_iff (h : vmid ∈ old.desktops.map (·.vmid)) :
    Shared old.migrate vmid ↔ 1 < old.userCount vmid := by
  constructor
  · rintro ⟨d, hd, rfl, hmode⟩
    obtain ⟨d₀, hd₀, ⟨-, rfl⟩ | ⟨-, rfl⟩⟩ := mem_updateWhere.mp hd
    · exact (mem_shareDesktops hd₀).2.mp hmode
    · exact (mem_shareDesktops hd₀).2.mp hmode
  · intro hlt
    rw [← map_vmid_migrate] at h
    obtain ⟨d, hd, rfl⟩ := mem_map.mp h
    refine ⟨d, hd, rfl, ?_⟩
    obtain ⟨d₀, hd₀, ⟨-, rfl⟩ | ⟨-, rfl⟩⟩ := mem_updateWhere.mp hd
    · exact (mem_shareDesktops hd₀).2.mpr hlt
    · exact (mem_shareDesktops hd₀).2.mpr hlt

theorem sharedOnly_migrate_iff : SharedOnly old.migrate ↔ ∀ vmid, old.userCount vmid ≠ 1 := by
  have hrows : old.migrate.userAssignments =
      old.userAssignments.map fun a => (a.userId, a.desktopVmid) := by
    rw [OldTables.migrate, deleteOwned_shareDesktops]
  constructor
  · intro h vmid hone
    obtain ⟨a, ha⟩ := length_eq_one_iff.mp hone
    have hmem := mem_filter.mp (ha ▸ mem_singleton_self a)
    obtain ⟨hmem, hv⟩ := hmem
    obtain rfl := beq_iff_eq.mp hv
    have hshared : Shared old.migrate a.desktopVmid :=
      h.users (a.userId, a.desktopVmid) (hrows ▸ mem_map_of_mem hmem)
    have hlt := (shared_migrate_iff (old.references a hmem).2).mp hshared
    omega
  · intro h
    refine ⟨fun r hr => ?_, nofun⟩
    rw [hrows] at hr
    obtain ⟨a, ha, rfl⟩ := mem_map.mp hr
    refine (shared_migrate_iff (old.references a ha).2).mpr ?_
    have hpos : 0 < old.userCount a.desktopVmid :=
      length_pos_of_mem (mem_filter.mpr ⟨ha, beq_self_eq_true _⟩)
    have hne := h a.desktopVmid
    omega

end Snapshot

section Results

variable (sha256 : Sha256)

/-- Assignment modes across the migration: a removed owner gets no access back from a switch to
shared, exactly if no desktop had a single user before. -/
theorem assignment_modes (old : OldTables) (grants : Grants) :
    (∀ s, (assignments sha256 old grants).Reachable s →
      SharedOnly s.tables ∧ StaysRemoved (assignments sha256 old grants) s) ↔
    ∀ vmid, old.userCount vmid ≠ 1 := by
  rw [← sharedOnly_migrate_iff]
  constructor
  · intro h
    exact (h ⟨old.migrate, grants⟩ (.init rfl)).1
  · intro h s hs
    have hsound := sound_of_reachable hs ⟨map_vmid_migrate ▸ old.desktopKeys, h⟩
    exact ⟨hsound.modes, hsound.staysRemoved⟩

end Results

section Sample

def sampleOld (assignments : List OldAssignment)
    (hkeys : (assignments.map fun a => (a.userId, a.desktopVmid)).Nodup)
    (hrefs : ∀ a ∈ assignments, a.userId ∈ ["user", "other"] ∧ a.desktopVmid ∈ [100]) :
    OldTables where
  users := [⟨"user", "user", none, .user, false⟩, ⟨"other", "other", none, .user, false⟩]
  desktops := [⟨100, "Desktop", "node", true, true⟩]
  userAssignments := assignments
  agentAssignments := []
  agents := []
  jobs := []
  desktopKeys := by decide
  assignmentKeys := hkeys
  references := hrefs

def noGrants : Grants := ⟨[], [], [], [], [], []⟩

def samplePair : OldTables :=
  sampleOld [⟨"user", 100, 1⟩, ⟨"other", 100, 2⟩] (by decide) (by decide)

/-- A desktop with two users becomes shared and keeps both assignments. -/
theorem assignment_modes_two_users :
    ∃ s, (assignments sampleDigest samplePair noGrants).Reachable s ∧ SharedOnly s.tables ∧
      s.access "user" 100 = true ∧ s.access "other" 100 = true := by
  have hcount : ∀ vmid, samplePair.userCount vmid ≠ 1 := by
    intro vmid
    by_cases hv : 100 = vmid <;> simp [OldTables.userCount, samplePair, sampleOld, hv]
  have hinit : (assignments sampleDigest samplePair noGrants).Reachable
      ⟨samplePair.migrate, noGrants⟩ := .init rfl
  exact ⟨_, hinit, ((assignment_modes sampleDigest _ noGrants).mpr hcount _ hinit).1, by decide,
    by decide⟩

def sampleSingle : OldTables := sampleOld [⟨"user", 100, 1⟩] (by decide) (by decide)

/-- The assignment of a single user survives the migration: once the owner is removed, a switch to
shared gives the access back. -/
theorem assignment_survives_migration :
    ∃ s, (assignments sampleDigest sampleSingle noGrants).Reachable s ∧ ¬ SharedOnly s.tables ∧
      ¬ StaysRemoved (assignments sampleDigest sampleSingle noGrants) s := by
  refine ⟨⟨sampleSingle.migrate, noGrants⟩, .init rfl, fun h => ?_, fun h => ?_⟩
  · obtain ⟨d, hd, -, hmode⟩ := h.users ("user", 100) (by decide)
    revert d
    decide
  · have hrun : (((assignments sampleDigest sampleSingle noGrants).step
        ⟨sampleSingle.migrate, noGrants⟩ (.deleteDesktopAssignment .user "user" 100)).bind fun s₁ =>
        (assignments sampleDigest sampleSingle noGrants).step s₁
          (.updateManagedDesktopIdentity 100 .shared "" none false)).any
        (fun s₃ => s₃.access "user" 100) = true := by decide
    obtain ⟨s₃, hs₃, hacc⟩ := (Option.any_eq_true _ _).mp hrun
    obtain ⟨s₁, hs₁, hs₃⟩ := Option.bind_eq_some_iff.mp hs₃
    have howner : ∃ d ∈ sampleSingle.migrate.desktops, d.vmid = 100 ∧ d.accessMode = .personal ∧
        d.ownerUserId = some "user" := by decide
    have hno := h "user" 100 s₁ [] s₁ "" none false s₃ howner hs₁ (forall_mem_nil _)
      (Machine.run_nil.mpr rfl) hs₃
    rw [hno] at hacc
    cases hacc

end Sample

end VcWorkspace.Store.AssignmentMode
