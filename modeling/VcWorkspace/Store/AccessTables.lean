import VcWorkspace.Store.Account
import VcWorkspace.Transition.Table

/-! # Who may use a desktop

The tables that the view `effective_user_desktop_access` and the rights of
agents are computed from: users, desktops, assignments, groups and clone jobs.
-/

namespace VcWorkspace.Store

open Transition List
open Bool (and_eq_true not_eq_true')

inductive AccessMode
  | personal | shared
  deriving DecidableEq, Repr

inductive IdentitySource
  | local_ | oidc | scim
  deriving DecidableEq, Repr

inductive UserRole
  | platformAdmin | user
  deriving DecidableEq, Repr

structure User where
  id : String
  usernameNormalized : String
  passwordHash : Option String
  role : UserRole
  disabled : Bool
  deriving DecidableEq, Repr

structure ManagedDesktop where
  vmid : ℕ
  displayName : String
  node : String
  osFamily : Option OsFamily
  present : Bool
  enabled : Bool
  accessMode : AccessMode
  ownerUserId : Option String
  identityProfileId : Option String
  deriving DecidableEq, Repr

/-- What the inventory reports about a desktop, with its operating system normalised. -/
structure DesktopReport where
  vmid : ℕ
  displayName : String
  node : String
  osFamily : Option OsFamily
  deriving DecidableEq, Repr

/-- A desktop that the store sees for the first time is personal and has no owner. -/
def DesktopReport.newDesktop (r : DesktopReport) (enabled : Bool) : ManagedDesktop :=
  ⟨r.vmid, trimSpace r.displayName, trimSpace r.node, r.osFamily, true, enabled, .personal, none,
    none⟩

def DesktopReport.check (r : DesktopReport) : Except StoreError Unit :=
  ensure (.invalid "managed desktop is invalid") (0 < r.vmid && trimSpace r.displayName != "")

structure IdentityGroup where
  id : String
  providerId : Option String
  externalId : Option String
  displayName : String
  source : IdentitySource
  enabled : Bool
  deriving DecidableEq, Repr

def IdentityGroup.isExternal (g : IdentityGroup) (providerId externalId : Option String) : Bool :=
  providerId.isSome && externalId.isSome && g.providerId == providerId && g.externalId == externalId

structure IdentityGroupMembership where
  groupId : String
  userId : String
  source : IdentitySource
  deriving DecidableEq, Repr

structure AgentPrincipal where
  id : String
  enabled : Bool
  deriving DecidableEq, Repr

inductive SubjectType
  | user | agent | group
  deriving DecidableEq, Repr

structure OidcGroup where
  id : String
  externalId : String
  displayName : String
  deriving DecidableEq, Repr

inductive JobOperation
  | templateClone | imageBuild | other (name : String)
  deriving DecidableEq, Repr

inductive JobState
  | accepted | running | succeeded | failed
  deriving DecidableEq, Repr

/-- A job; the request is its JSON value in the database's normal form. -/
structure Job where
  id : String
  idempotencyKey : String
  requestFingerprint : String
  operation : JobOperation
  state : JobState
  sourceVmid : ℕ
  targetVmid : ℕ
  targetNode : Option String
  taskNode : Option String
  upid : Option String
  request : String
  deriving DecidableEq, Repr

def Job.isClone (j expected : Job) : Bool :=
  j.id == expected.id && j.operation == .templateClone && j.sourceVmid == expected.sourceVmid &&
    j.targetVmid == expected.targetVmid && j.targetNode.isSome &&
    j.targetNode == expected.targetNode && j.taskNode.isSome && j.taskNode == expected.taskNode

/-- The tables; assignments are pairs of a subject and a desktop. -/
structure AccessTables where
  users : List User
  desktops : List ManagedDesktop
  userAssignments : List (String × ℕ)
  agentAssignments : List (String × ℕ)
  groupAssignments : List (String × ℕ)
  groups : List IdentityGroup
  memberships : List IdentityGroupMembership
  agents : List AgentPrincipal
  jobs : List Job
  deriving DecidableEq, Repr

namespace AccessTables

section Views

variable (t : AccessTables)

def desktopCloneReady (vmid : ℕ) : Bool :=
  !t.jobs.any fun j => j.targetVmid == vmid && j.operation == .templateClone &&
    j.state != .succeeded

/-- A group that is enabled, assigned to the desktop and has the user as a member. -/
def groupAccess (userId : String) (vmid : ℕ) : Bool :=
  t.groupAssignments.any fun a => a.2 == vmid && t.groups.any (fun g => g.id == a.1 && g.enabled) &&
    t.memberships.any fun m => m.groupId == a.1 && m.userId == userId

def effectiveUserDesktopAccess (userId : String) (vmid : ℕ) : Bool :=
  t.users.any (fun u => u.id == userId && !u.disabled) &&
    t.desktops.any fun d => d.vmid == vmid && d.present && d.enabled && t.desktopCloneReady vmid &&
      match d.accessMode with
      | .personal => d.ownerUserId == some userId
      | .shared => t.userAssignments.contains (userId, vmid) || t.groupAccess userId vmid

def desktopUsable (vmid : ℕ) : Bool :=
  t.desktops.any fun d => d.vmid == vmid && d.enabled && d.present

def agentEnabled (agentId : String) : Bool := t.agents.any fun a => a.id == agentId && a.enabled

/-- The agent is enabled and assigned, and the desktop is usable and cloned. -/
def agentAccess (agentId : String) (vmid : ℕ) : Bool :=
  t.agentAssignments.contains (agentId, vmid) && t.agentEnabled agentId && t.desktopUsable vmid &&
    t.desktopCloneReady vmid

def desktop (vmid : ℕ) : Option ManagedDesktop := t.desktops.find? (·.vmid == vmid)

def hasUser (id : String) : Bool := t.users.any (·.id == id)

def hasGroup (id : String) : Bool := t.groups.any (·.id == id)

def hasAgent (id : String) : Bool := t.agents.any (·.id == id)

end Views

section Users

variable (t : AccessTables)

def insertUser (user : User) : Except StoreError AccessTables := do
  ensure .conflict (!t.users.any fun u => u.id == user.id ||
    u.usernameNormalized == user.usernameNormalized)
  pure { t with users := t.users ++ [user] }

def setDisabled (id : String) (disabled : Bool) : Except StoreError AccessTables := do
  ensure .notFound (t.hasUser id)
  pure
    { t with
      users := updateWhere (·.id == id) (fun u => { u with disabled := disabled }) t.users }

def setPassword (id passwordHash : String) : Except StoreError AccessTables := do
  ensure .notFound (t.hasUser id)
  ensure .conflict (t.users.any fun u => u.id == id && u.passwordHash.isSome)
  pure
    { t with
      users := updateWhere (fun u => u.id == id && u.passwordHash.isSome)
        (fun u => { u with passwordHash := some passwordHash }) t.users }

def insertAgent (id : String) : Except StoreError AccessTables := do
  ensure .conflict (!t.hasAgent id)
  pure { t with agents := t.agents ++ [⟨id, true⟩] }

def setAgent (id : String) (enabled : Bool) : Except StoreError AccessTables := do
  ensure .notFound (t.hasAgent id)
  pure
    { t with
      agents := updateWhere (·.id == id) (fun a => { a with enabled := enabled }) t.agents }

end Users

section Desktops

variable (t : AccessTables)

def upsertManagedDesktop (r : DesktopReport) : Except StoreError AccessTables := do
  r.check
  pure
    { t with
      desktops := upsert (·.vmid == r.vmid) (fun d =>
          { d with
            displayName := trimSpace r.displayName, node := trimSpace r.node
            osFamily := if r.osFamily.isNone then d.osFamily else r.osFamily
            present := true })
        (r.newDesktop true) t.desktops }

def reportAll (t : AccessTables) : List DesktopReport → Except StoreError AccessTables
  | [] => pure t
  | r :: reports => do
    let t ← t.upsertManagedDesktop r
    reportAll t reports

def reconcileManagedDesktops (reports : List DesktopReport) : Except StoreError AccessTables :=
  reportAll
    { t with desktops := updateWhere (·.present) (fun d => { d with present := false }) t.desktops }
    reports

def quarantineClonedDesktop (r : DesktopReport) : Except StoreError AccessTables := do
  r.check
  pure
    { t with
      desktops := upsert (·.vmid == r.vmid) (fun d => { d with enabled := false })
        (r.newDesktop false) t.desktops }

/-- Give a desktop its mode, owner and profile; a personal one has no assignments of users. -/
def updateManagedDesktopIdentity (vmid : ℕ) (accessMode : AccessMode) (ownerUserId : String)
    (profileId : Option String) (profileExists : Bool) : Except StoreError AccessTables := do
  ensure (.invalid "personal desktop requires an owner")
    (accessMode == .shared || ownerUserId != "")
  ensure .notFound (t.desktop vmid).isSome
  ensure .notFound ((accessMode == .shared || t.hasUser ownerUserId) &&
    (profileId.isNone || profileExists))
  let owner := if accessMode = .shared then none else some ownerUserId
  pure
    { t with
      desktops := updateWhere (·.vmid == vmid) (fun d =>
          { d with
            accessMode := accessMode, ownerUserId := owner, identityProfileId := profileId })
        t.desktops
      userAssignments := t.userAssignments.filter fun a => accessMode == .shared || a.2 != vmid
      groupAssignments := t.groupAssignments.filter fun a => accessMode == .shared || a.2 != vmid }

end Desktops

section Assignments

variable (t : AccessTables)

def setOwner (vmid : ℕ) (owner : Option String) : AccessTables :=
  { t with
    desktops := updateWhere (·.vmid == vmid) (fun d => { d with ownerUserId := owner }) t.desktops }

def putUserAssignment (userId : String) (d : ManagedDesktop) : Except StoreError AccessTables :=
  match d.accessMode, d.ownerUserId with
  | .personal, some owner => do
    ensure .conflict (owner == userId)
    pure t
  | .personal, none => do
    ensure .notFound (t.hasUser userId)
    pure (t.setOwner d.vmid (some userId))
  | .shared, _ => do
    ensure .notFound (t.hasUser userId)
    pure { t with userAssignments := insertOnce (userId, d.vmid) t.userAssignments }

/-- Assign a desktop to a user, an agent or a group; a personal one has one user, its owner. -/
def putDesktopAssignment (subjectType : SubjectType) (subjectId : String) (vmid : ℕ) :
    Except StoreError AccessTables :=
  match t.desktop vmid with
  | none => .error .notFound
  | some d =>
    match subjectType with
    | .user => t.putUserAssignment subjectId d
    | .agent => do
      ensure .notFound (t.hasAgent subjectId)
      pure { t with agentAssignments := insertOnce (subjectId, vmid) t.agentAssignments }
    | .group => do
      ensure .conflict (d.accessMode == .shared)
      ensure .notFound (t.hasGroup subjectId)
      pure { t with groupAssignments := insertOnce (subjectId, vmid) t.groupAssignments }

def deleteUserAssignment (userId : String) (d : ManagedDesktop) : AccessTables :=
  match d.accessMode with
  | .personal => if d.ownerUserId = some userId then t.setOwner d.vmid none else t
  | .shared => { t with userAssignments := t.userAssignments.filter (· != (userId, d.vmid)) }

def deleteDesktopAssignment (subjectType : SubjectType) (subjectId : String) (vmid : ℕ) :
    Except StoreError AccessTables :=
  match subjectType with
  | .user =>
    match t.desktop vmid with
    | none => .error .notFound
    | some d => .ok (t.deleteUserAssignment subjectId d)
  | .agent =>
    .ok { t with agentAssignments := t.agentAssignments.filter (· != (subjectId, vmid)) }
  | .group =>
    .ok { t with groupAssignments := t.groupAssignments.filter (· != (subjectId, vmid)) }

end Assignments

section Groups

variable (t : AccessTables)

def putIdentityGroup (group : IdentityGroup) : Except StoreError AccessTables := do
  ensure .conflict (!t.groups.any fun g => g.id == group.id ||
    g.isExternal group.providerId group.externalId)
  pure { t with groups := t.groups ++ [group] }

def setIdentityGroupEnabled (id : String) (enabled : Bool) : Except StoreError AccessTables := do
  ensure .notFound (t.hasGroup id)
  pure
    { t with
      groups := updateWhere (·.id == id) (fun g => { g with enabled := enabled }) t.groups }

/-- Make the user a member of the group, or change the source of the membership. -/
def putMembership (groupId userId : String) (source : IdentitySource) : AccessTables :=
  { t with
    memberships := upsert (fun m => m.groupId == groupId && m.userId == userId)
      (fun m => { m with source := source }) ⟨groupId, userId, source⟩ t.memberships }

def putIdentityGroupMembership (groupId userId : String) (source : IdentitySource) :
    Except StoreError AccessTables := do
  ensure .notFound (t.hasGroup groupId)
  ensure .conflict (t.groups.any fun g => g.id == groupId && g.source != .oidc)
  ensure .notFound (t.hasUser userId)
  pure (t.putMembership groupId userId source)

def deleteIdentityGroupMembership (groupId userId : String) : AccessTables :=
  { t with
    memberships := t.memberships.filter fun m =>
      !(m.groupId == groupId && m.userId == userId && m.source != .oidc) }

def putOidcGroup (providerId : String) (group : OidcGroup) : Except StoreError AccessTables := do
  let known := fun g : IdentityGroup =>
    g.isExternal (some providerId) (some group.externalId)
  ensure (.sql "23505" "identity_groups_pkey") (t.groups.any known || !t.hasGroup group.id)
  pure
    { t with
      groups := upsert known (fun g => { g with displayName := group.displayName })
        ⟨group.id, some providerId, some group.externalId, group.displayName, .oidc, true⟩
        t.groups }

/-- Make the user a member of every reported group; returns the groups under their own
identifiers. -/
def joinOidcGroups (providerId userId : String) (t : AccessTables) :
    List OidcGroup → Except StoreError (AccessTables × List String)
  | [] => pure (t, [])
  | group :: groups => do
    ensure (.invalid "OIDC group is invalid")
      (group.id != "" && group.externalId != "" && group.displayName != "")
    let t ← t.putOidcGroup providerId group
    match t.groups.find? (·.isExternal (some providerId) (some group.externalId)) with
    | none => .error .notFound
    | some resolved => do
      let (t, ids) ← joinOidcGroups providerId userId (t.putMembership resolved.id userId .oidc)
        groups
      pure (t, resolved.id :: ids)

/-- The memberships of the provider's groups become the reported ones. -/
def syncOidcGroupMemberships (providerId userId : String) (providerExists : Bool)
    (groups : List OidcGroup) : Except StoreError AccessTables := do
  ensure (.sql "23503" "foreign key") (groups.isEmpty || (providerExists && t.hasUser userId))
  let (t, ids) ← joinOidcGroups providerId userId t groups
  pure
    { t with
      memberships := t.memberships.filter fun m =>
        !(m.userId == userId && m.source == .oidc && !ids.contains m.groupId &&
          t.groups.any fun g => g.id == m.groupId && g.providerId == some providerId) }

end Groups

section Jobs

variable (t : AccessTables)

def targetTaken (vmid : ℕ) : Bool :=
  t.desktops.any (·.vmid == vmid) ||
    t.jobs.any fun j => j.targetVmid == vmid && j.operation == .templateClone

/-- The first free target of a bounded range, apart from the occupied ones. -/
def availableTarget (job : Job) (occupied : List ℕ) : Option ℕ :=
  ((List.range 1024).map (job.targetVmid + ·)).find? fun candidate =>
    candidate != job.sourceVmid && !occupied.contains candidate &&
      !t.desktops.any (·.vmid == candidate) &&
      !t.jobs.any fun j => j.targetVmid == candidate &&
        (j.operation == .templateClone || j.operation == .imageBuild)

def insertCloneJob (job : Job) (target : ℕ) : Except StoreError AccessTables := do
  ensure .conflict (!t.targetTaken target)
  ensure .conflict (!t.jobs.any (·.id == job.id))
  pure { t with jobs := t.jobs ++ [{ job with targetVmid := target, upid := none }] }

/-- Reserve the target of a clone, or find the reservation of the same request. -/
def reserveDesktopCloneJob (job : Job) (occupied : List ℕ) (choose : Bool) :
    Except StoreError AccessTables := do
  ensure .conflict (job.operation == .templateClone && job.state == .accepted &&
    0 < job.targetVmid && 0 < job.sourceVmid && job.targetVmid != job.sourceVmid && job.id != "" &&
    job.idempotencyKey != "")
  match t.jobs.find? (·.idempotencyKey == job.idempotencyKey) with
  | some prior => do
    ensure .conflict (prior.requestFingerprint == job.requestFingerprint)
    pure t
  | none =>
    if choose then
      match t.availableTarget job occupied with
      | none => .error .conflict
      | some target => t.insertCloneJob job target
    else t.insertCloneJob job job.targetVmid

/-- Attach a task to the jobs that meet a condition, one of which must exist. -/
def runJobs (p : Job → Bool) (upid : String) : Except StoreError AccessTables := do
  ensure .conflict (t.jobs.any p)
  pure
    { t with
      jobs := updateWhere p (fun j => { j with state := .running, upid := some upid }) t.jobs }

def recordCloneTaskHandle (expected : Job) (upid : String) : Except StoreError AccessTables := do
  ensure .conflict (expected.operation == .templateClone && expected.id != "" &&
    trimSpace upid == upid && upid != "" && upid.utf8ByteSize ≤ 4096)
  t.runJobs (fun j => j.isClone expected &&
    ((j.state == .accepted && j.upid.isNone) || (j.state == .running && j.upid == some upid))) upid

def commitCloneRecovery (expected : Job) (upid actorId reason : String) (requestValid : Bool) :
    Except StoreError AccessTables := do
  ensure .conflict (expected.operation == .templateClone && expected.id != "" &&
    expected.state == .accepted && expected.upid.isNone && 0 < expected.sourceVmid &&
    0 < expected.targetVmid && expected.sourceVmid != expected.targetVmid &&
    expected.targetNode.isSome && expected.taskNode.isSome && requestValid &&
    Guest.startsWith upid "UPID:" && upid.utf8ByteSize ≤ 1024 &&
    !upid.toList.any (['/', '\\', '?', '#', '\r', '\n', '\x00'].contains ·) &&
    trimSpace upid == upid && actorId != "" && trimSpace reason != "" &&
    (trimSpace reason).length ≤ 500)
  ensure .conflict (t.users.any fun u => u.id == actorId && u.role == .platformAdmin && !u.disabled)
  t.runJobs (fun j => j.isClone expected && j.state == .accepted && j.upid.isNone &&
    j.request == expected.request) upid

def completeJobTask (id : String) (state : JobState) (upid : Option String) : AccessTables :=
  { t with
    jobs := updateWhere (fun j => j.id == id && j.state == .running)
      (fun j => { j with state := state, upid := upid }) t.jobs }

end Jobs

section Extends

variable {t t' : AccessTables} {userId upid : String} {vmid : ℕ} {r : DesktopReport}
  {p : Job → Bool} {job : Job}

structure Extends (t t' : AccessTables) : Prop where
  users : ∀ u ∈ t.users, u.disabled = false → ∃ u' ∈ t'.users, u'.id = u.id ∧ u'.disabled = false
  desktops : ∀ d ∈ t.desktops, ∃ d' ∈ t'.desktops, d'.vmid = d.vmid ∧
    (d.present = true → d'.present = true) ∧ d'.enabled = d.enabled ∧
    d'.accessMode = d.accessMode ∧ d'.ownerUserId = d.ownerUserId
  userAssignments : ∀ a ∈ t.userAssignments, a ∈ t'.userAssignments
  agentAssignments : ∀ a ∈ t.agentAssignments, a ∈ t'.agentAssignments
  groupAssignments : ∀ a ∈ t.groupAssignments, a ∈ t'.groupAssignments
  groups : ∀ g ∈ t.groups, ∃ g' ∈ t'.groups, g'.id = g.id ∧ g'.enabled = g.enabled
  memberships : ∀ m ∈ t.memberships, ∃ m' ∈ t'.memberships,
    m'.groupId = m.groupId ∧ m'.userId = m.userId
  agents : ∀ a ∈ t.agents, a ∈ t'.agents
  clones : ∀ d ∈ t.desktops, t.desktopCloneReady d.vmid = true →
    t'.desktopCloneReady d.vmid = true

theorem Extends.refl (t : AccessTables) : Extends t t where
  users u hu hd := ⟨u, hu, rfl, hd⟩
  desktops d hd := ⟨d, hd, rfl, id, rfl, rfl, rfl⟩
  userAssignments _ := id
  agentAssignments _ := id
  groupAssignments _ := id
  groups g hg := ⟨g, hg, rfl, rfl⟩
  memberships m hm := ⟨m, hm, rfl, rfl⟩
  agents _ := id
  clones _ _ := id

theorem Extends.groupAccess (h : Extends t t') (ha : t.groupAccess userId vmid = true) :
    t'.groupAccess userId vmid = true := by
  simp only [AccessTables.groupAccess, any_eq_true, and_eq_true, beq_iff_eq] at ha ⊢
  obtain ⟨a, ha, ⟨hvmid, g, hg, hgid, hen⟩, m, hm, hmg, hmu⟩ := ha
  obtain ⟨g', hg', hgid', hen'⟩ := h.groups g hg
  obtain ⟨m', hm', hmg', hmu'⟩ := h.memberships m hm
  exact ⟨a, h.groupAssignments a ha, ⟨hvmid, g', hg', hgid'.trans hgid, hen'.trans hen⟩,
    m', hm', hmg'.trans hmg, hmu'.trans hmu⟩

theorem Extends.effectiveUserDesktopAccess (h : Extends t t')
    (ha : t.effectiveUserDesktopAccess userId vmid = true) :
    t'.effectiveUserDesktopAccess userId vmid = true := by
  simp only [AccessTables.effectiveUserDesktopAccess, any_eq_true, and_eq_true,
    beq_iff_eq, not_eq_true'] at ha ⊢
  obtain ⟨⟨u, hu, huid, hud⟩, d, hd, ⟨⟨⟨hvmid, hpres⟩, hen⟩, hclone⟩, hmode⟩ := ha
  obtain ⟨u', hu', huid', hud'⟩ := h.users u hu hud
  obtain ⟨d', hd', hvmid', hpres', hen', hmode', howner'⟩ := h.desktops d hd
  refine ⟨⟨u', hu', huid'.trans huid, hud'⟩, d', hd', ⟨⟨⟨hvmid'.trans hvmid, hpres' hpres⟩,
    hen'.trans hen⟩, hvmid ▸ h.clones d hd (hvmid ▸ hclone)⟩, ?_⟩
  rw [hmode', howner']
  split at hmode
  · exact hmode
  · simp only [Bool.or_eq_true, contains_iff_mem] at hmode ⊢
    exact hmode.imp (h.userAssignments _) h.groupAccess

theorem Extends.agentAccess (h : Extends t t') {agentId : String}
    (ha : t.agentAccess agentId vmid = true) : t'.agentAccess agentId vmid = true := by
  simp only [AccessTables.agentAccess, agentEnabled, desktopUsable, any_eq_true,
    and_eq_true, beq_iff_eq, contains_iff_mem] at ha ⊢
  obtain ⟨⟨⟨hassigned, a, ha, haid, haen⟩, d, hd, ⟨hvmid, hen⟩, hpres⟩, hclone⟩ := ha
  obtain ⟨d', hd', hvmid', hpres', hen', -⟩ := h.desktops d hd
  exact ⟨⟨⟨h.agentAssignments _ hassigned, a, h.agents a ha, haid, haen⟩,
    d', hd', ⟨hvmid'.trans hvmid, hen'.trans hen⟩, hpres' hpres⟩,
    hvmid ▸ h.clones d hd (hvmid ▸ hclone)⟩

theorem access_setDisabled {id : String} (h : t.setDisabled id true = .ok t') (vmid : ℕ) :
    t'.effectiveUserDesktopAccess id vmid = false := by
  simp only [setDisabled, seq_eq_ok] at h
  cases h.2
  have hnone : ∀ u ∈ updateWhere (fun u : User => u.id == id) (fun u => { u with disabled := true })
      t.users, (u.id == id && !u.disabled) = false := by
    intro u hu
    obtain ⟨v, -, ⟨-, rfl⟩ | ⟨hid, rfl⟩⟩ := mem_updateWhere.mp hu
    · simp
    · simp [hid]
  simp only [effectiveUserDesktopAccess, Bool.and_eq_false_iff]
  exact .inl (any_eq_false.mpr fun u hu => by simp [hnone u hu])

theorem extends_insertUser {user : User} (h : t.insertUser user = .ok t') : Extends t t' := by
  simp only [insertUser, seq_eq_ok] at h
  cases h.2
  exact { Extends.refl t with users := fun u hu hd => ⟨u, mem_append_left _ hu, rfl, hd⟩ }

theorem extends_insertAgent {id : String} (h : t.insertAgent id = .ok t') : Extends t t' := by
  simp only [insertAgent, seq_eq_ok] at h
  cases h.2
  exact { Extends.refl t with agents := fun a ha => mem_append_left _ ha }

theorem extends_upsertManagedDesktop (h : t.upsertManagedDesktop r = .ok t') : Extends t t' := by
  simp only [upsertManagedDesktop, seq_eq_ok] at h
  cases h.2
  refine { Extends.refl t with desktops := fun d hd => ?_ }
  obtain ⟨d', hd', rfl | rfl⟩ := exists_upsert hd
  · exact ⟨_, hd', rfl, id, rfl, rfl, rfl⟩
  · exact ⟨_, hd', rfl, fun _ => rfl, rfl, rfl, rfl⟩

theorem extends_putIdentityGroup {group : IdentityGroup} (h : t.putIdentityGroup group = .ok t') :
    Extends t t' := by
  simp only [putIdentityGroup, seq_eq_ok] at h
  cases h.2
  exact { Extends.refl t with groups := fun g hg => ⟨g, mem_append_left _ hg, rfl, rfl⟩ }

theorem extends_putIdentityGroupMembership {groupId : String} {source : IdentitySource}
    (h : t.putIdentityGroupMembership groupId userId source = .ok t') : Extends t t' := by
  simp only [putIdentityGroupMembership, seq_eq_ok] at h
  cases h.2.2.2
  refine { Extends.refl t with memberships := fun m hm => ?_ }
  obtain ⟨m', hm', rfl | rfl⟩ := exists_upsert hm
  · exact ⟨_, hm', rfl, rfl⟩
  · exact ⟨_, hm', rfl, rfl⟩

theorem extends_updateJobs {f : Job → Job} (hp : ∀ j ∈ t.jobs, p j = true → j.state ≠ .succeeded)
    (hf : ∀ j, (f j).targetVmid = j.targetVmid ∧ (f j).operation = j.operation) :
    Extends t { t with jobs := updateWhere p f t.jobs } := by
  refine { Extends.refl t with clones := fun d _ hready => ?_ }
  simp only [desktopCloneReady, not_eq_true', any_eq_false] at hready ⊢
  intro j hj
  obtain ⟨j₀, hj₀, ⟨hp₀, rfl⟩ | ⟨-, rfl⟩⟩ := mem_updateWhere.mp hj
  · have h₀ := hready j₀ hj₀
    simp only [and_eq_true, bne_iff_ne, not_and, not_not] at h₀ ⊢
    intro htarget
    rw [(hf j₀).1, (hf j₀).2] at htarget
    exact absurd (h₀ htarget) (hp j₀ hj₀ hp₀)
  · exact hready _ hj₀

theorem extends_runJobs (hp : ∀ j ∈ t.jobs, p j = true → j.state ≠ .succeeded)
    (h : t.runJobs p upid = .ok t') : Extends t t' := by
  simp only [runJobs, seq_eq_ok] at h
  cases h.2
  exact extends_updateJobs hp fun _ => ⟨rfl, rfl⟩

theorem extends_recordCloneTaskHandle {expected : Job}
    (h : t.recordCloneTaskHandle expected upid = .ok t') : Extends t t' := by
  simp only [recordCloneTaskHandle, seq_eq_ok] at h
  refine extends_runJobs (fun j _ hj => ?_) h.2
  simp only [and_eq_true, Bool.or_eq_true, beq_iff_eq] at hj
  rcases hj.2 with hst | hst <;> simp [hst.1]

theorem extends_commitCloneRecovery {expected : Job} {actorId reason : String} {valid : Bool}
    (h : t.commitCloneRecovery expected upid actorId reason valid = .ok t') : Extends t t' := by
  simp only [commitCloneRecovery, seq_eq_ok] at h
  refine extends_runJobs (fun j _ hj => ?_) h.2.2
  simp only [and_eq_true, beq_iff_eq] at hj
  simp [hj.1.1.2]

theorem extends_completeJobTask (id : String) (state : JobState) (upid : Option String) :
    Extends t (t.completeJobTask id state upid) := by
  refine extends_updateJobs (fun j _ hj => ?_) fun _ => ⟨rfl, rfl⟩
  simp only [and_eq_true, beq_iff_eq] at hj
  simp [hj.2]

theorem insertCloneJob_ok {target : ℕ} (h : t.insertCloneJob job target = .ok t') :
    t.targetTaken target = false ∧ (∀ j ∈ t.jobs, j.id ≠ job.id) ∧
      t' = { t with jobs := t.jobs ++ [{ job with targetVmid := target, upid := none }] } := by
  simp only [insertCloneJob, seq_eq_ok, ensure_eq_ok, not_eq_true', any_eq_false,
    beq_iff_eq] at h
  obtain ⟨hfree, hid, h⟩ := h
  exact ⟨hfree, hid, (Except.ok.inj h).symm⟩

theorem reserveDesktopCloneJob_ok {occupied : List ℕ} {choose : Bool}
    (h : t.reserveDesktopCloneJob job occupied choose = .ok t') :
    ((t.jobs.find? (·.idempotencyKey == job.idempotencyKey)).isSome = true ∧ t' = t) ∨
      (t.jobs.find? (·.idempotencyKey == job.idempotencyKey) = none ∧
        job.operation = .templateClone ∧ job.targetVmid ≠ job.sourceVmid ∧
        ∃ target, (if choose then t.availableTarget job occupied = some target
          else target = job.targetVmid) ∧ t.insertCloneJob job target = .ok t') := by
  simp only [reserveDesktopCloneJob, seq_eq_ok, ensure_eq_ok, and_eq_true, beq_iff_eq,
    bne_iff_ne] at h
  obtain ⟨⟨⟨⟨⟨⟨⟨hop, -⟩, -⟩, -⟩, hne⟩, -⟩, -⟩, h⟩ := h
  split at h
  next prior hprior =>
    simp only [seq_eq_ok] at h
    exact .inl ⟨by rw [hprior]; rfl, (Except.ok.inj h.2).symm⟩
  next hnone =>
    refine .inr ⟨hnone, hop, hne, ?_⟩
    split at h
    next hchoose =>
      split at h
      · cases h
      next target htarget => exact ⟨target, by rw [if_pos hchoose]; exact htarget, h⟩
    next hchoose => exact ⟨_, by rw [if_neg hchoose], h⟩

theorem extends_insertCloneJob {target : ℕ} (h : t.insertCloneJob job target = .ok t') :
    Extends t t' := by
  obtain ⟨htaken, -, rfl⟩ := insertCloneJob_ok h
  obtain ⟨hfree, -⟩ := Bool.or_eq_false_iff.mp htaken
  refine { Extends.refl t with clones := fun d hd hready => ?_ }
  have hne : d.vmid ≠ target := by simpa using any_eq_false.mp hfree d hd
  simp only [desktopCloneReady, not_eq_true', any_append, Bool.or_eq_false_iff]
    at hready ⊢
  exact ⟨hready, by simp [hne.symm]⟩

theorem access_quarantineClonedDesktop (h : t.quarantineClonedDesktop r = .ok t')
    (hready : t.desktopCloneReady r.vmid = false) :
    (∀ userId vmid, t.effectiveUserDesktopAccess userId vmid = true →
      t'.effectiveUserDesktopAccess userId vmid = true) ∧
    ∀ agentId vmid, t.agentAccess agentId vmid = true → t'.agentAccess agentId vmid = true := by
  simp only [quarantineClonedDesktop, seq_eq_ok] at h
  cases h.2
  have hne : ∀ {vmid}, t.desktopCloneReady vmid = true → vmid ≠ r.vmid := by
    rintro vmid hclone rfl
    rw [hready] at hclone
    cases hclone
  have hmem : ∀ {d vmid}, d ∈ t.desktops → d.vmid = vmid → t.desktopCloneReady vmid = true →
      d ∈ upsert (·.vmid == r.vmid) (fun d => { d with enabled := false }) (r.newDesktop false)
        t.desktops :=
    fun hd hvmid hclone => mem_upsert hd (beq_false_of_ne (hvmid ▸ hne hclone))
  constructor
  · intro userId vmid ha
    simp only [effectiveUserDesktopAccess, any_eq_true, and_eq_true, beq_iff_eq] at ha ⊢
    obtain ⟨hu, d, hd, ⟨⟨⟨hvmid, hpres⟩, hen⟩, hclone⟩, hmode⟩ := ha
    exact ⟨hu, d, hmem hd hvmid hclone, ⟨⟨⟨hvmid, hpres⟩, hen⟩, hclone⟩, hmode⟩
  · intro agentId vmid ha
    simp only [agentAccess, desktopUsable, any_eq_true, and_eq_true, beq_iff_eq] at ha ⊢
    obtain ⟨⟨hassigned, d, hd, ⟨hvmid, hen⟩, hpres⟩, hclone⟩ := ha
    exact ⟨⟨hassigned, d, hmem hd hvmid hclone, ⟨hvmid, hen⟩, hpres⟩, hclone⟩

theorem extends_reserveDesktopCloneJob {occupied : List ℕ} {choose : Bool}
    (h : t.reserveDesktopCloneJob job occupied choose = .ok t') : Extends t t' := by
  rcases reserveDesktopCloneJob_ok h with ⟨-, rfl⟩ | ⟨-, -, -, target, -, h⟩
  · exact Extends.refl _
  · exact extends_insertCloneJob h

end Extends

end AccessTables

end VcWorkspace.Store
