import VcWorkspace.Store.Authorization

/-! # Groups of an identity provider

What the groups that a provider reports for a user make of the memberships of
every user.
-/

namespace VcWorkspace.Store.GroupSync

open Transition Authorization Footprint List

variable {provider user : String} {t t' : AccessTables}

def OfProvider (t : AccessTables) (provider id : String) : Prop :=
  ∃ g ∈ t.groups, g.id = id ∧ g.providerId = some provider

def Reported (t : AccessTables) (provider : String) (groups : List OidcGroup)
    (id : String) : Prop :=
  ∃ g ∈ t.groups, g.id = id ∧
    ∃ o ∈ groups, g.isExternal (some provider) (some o.externalId) = true

/-- The constraint UNIQUE (provider_id, external_id) of the groups. -/
def UniqueExternal (t : AccessTables) : Prop :=
  ∀ g ∈ t.groups, ∀ g' ∈ t.groups, ∀ p e : Option String,
    g.isExternal p e = true → g'.isExternal p e = true → g.id = g'.id

theorem ofProvider_of_reported {groups : List OidcGroup} {id : String}
    (h : Reported t provider groups id) : OfProvider t provider id := by
  obtain ⟨g, hg, hid, o, -, ho⟩ := h
  simp only [IdentityGroup.isExternal, Bool.and_eq_true, beq_iff_eq] at ho
  exact ⟨g, hg, hid, ho.1.2⟩

section Groups

/-- The groups of the second table continue those of the first under the same names. -/
def Continues (t t' : AccessTables) : Prop :=
  ∀ g ∈ t.groups, ∃ g' ∈ t'.groups, g'.id = g.id ∧ ∀ p e, g'.isExternal p e = g.isExternal p e

theorem Continues.trans {t'' : AccessTables} (h : Continues t t') (h' : Continues t' t'') :
    Continues t t'' := by
  intro g hg
  obtain ⟨g', hg', hid, hext⟩ := h g hg
  obtain ⟨g'', hg'', hid', hext'⟩ := h' g' hg'
  exact ⟨g'', hg'', hid'.trans hid, fun p e => (hext' p e).trans (hext p e)⟩

theorem Continues.reported {o : OidcGroup} {groups : List OidcGroup} {g : IdentityGroup}
    (h : Continues t t') (hg : g ∈ t.groups) (ho : o ∈ groups)
    (hext : g.isExternal (some provider) (some o.externalId) = true) :
    Reported t' provider groups g.id := by
  obtain ⟨g', hg', hid, hsame⟩ := h g hg
  exact ⟨g', hg', hid, o, ho, (hsame _ _).trans hext⟩

variable {o : OidcGroup}

theorem putOidcGroup_ok (h : t.putOidcGroup provider o = .ok t') :
    t'.memberships = t.memberships ∧ Continues t t' ∧ (UniqueExternal t → UniqueExternal t') := by
  simp only [AccessTables.putOidcGroup, seq_eq_ok] at h
  obtain ⟨-, h⟩ := h
  cases h
  refine ⟨rfl, ?_, ?_⟩
  · intro g hg
    obtain ⟨g', hg', rfl | rfl⟩ := exists_upsert hg
    · exact ⟨g', hg', rfl, fun _ _ => rfl⟩
    · exact ⟨_, hg', rfl, fun _ _ => rfl⟩
  · intro hu
    simp only [upsert]
    split
    next hany =>
      -- the rows keep their names
      intro g hg g' hg' p e hp hp'
      obtain ⟨r, hr, hcase⟩ := mem_updateWhere.mp hg
      obtain ⟨r', hr', hcase'⟩ := mem_updateWhere.mp hg'
      have hsame := hu r hr r' hr' p e
      rcases hcase with ⟨-, rfl⟩ | ⟨-, rfl⟩ <;> rcases hcase' with ⟨-, rfl⟩ | ⟨-, rfl⟩ <;>
        exact hsame hp hp'
    next hnone =>
      -- no row has the names of the new one
      have hfresh : ∀ g ∈ t.groups, ∀ p e, g.isExternal p e = true →
          IdentityGroup.isExternal ⟨o.id, some provider, some o.externalId, o.displayName, .oidc,
            true⟩ p e = true → False := by
        intro g hg p e hgp hnew
        simp only [IdentityGroup.isExternal, Bool.and_eq_true, beq_iff_eq] at hnew
        obtain ⟨⟨-, rfl⟩, rfl⟩ := hnew
        exact hnone (any_eq_true.mpr ⟨g, hg, hgp⟩)
      intro g hg g' hg' p e hp hp'
      rcases mem_append.mp hg with hg | hg <;> rcases mem_append.mp hg' with hg' | hg'
      · exact hu g hg g' hg' p e hp hp'
      · rw [mem_singleton.mp hg'] at hp'
        exact (hfresh g hg p e hp hp').elim
      · rw [mem_singleton.mp hg] at hp
        exact (hfresh g' hg' p e hp' hp).elim
      · rw [mem_singleton.mp hg, mem_singleton.mp hg']

theorem mem_putMembership {id : String} {m : IdentityGroupMembership} :
    m ∈ (t.putMembership id user .oidc).memberships ↔
      m = ⟨id, user, .oidc⟩ ∨ (m ∈ t.memberships ∧ ¬ (m.groupId = id ∧ m.userId = user)) := by
  have hset : ∀ r : IdentityGroupMembership, (r.groupId == id && r.userId == user) = true →
      { r with source := .oidc } = (⟨id, user, .oidc⟩ : IdentityGroupMembership) := by
    intro r hr
    simp only [Bool.and_eq_true, beq_iff_eq] at hr
    rw [hr.1, hr.2]
  simp only [AccessTables.putMembership, upsert]
  split
  next hany =>
    rw [mem_updateWhere]
    constructor
    · rintro ⟨r, hr, ⟨hp, rfl⟩ | ⟨hp, rfl⟩⟩
      · exact .inl (hset r hp)
      · exact .inr ⟨hr, by simpa using hp⟩
    · rintro (rfl | ⟨hm, hkey⟩)
      · obtain ⟨r, hr, hp⟩ := any_eq_true.mp hany
        exact ⟨r, hr, .inl ⟨hp, (hset r hp).symm⟩⟩
      · exact ⟨m, hm, .inr ⟨by simpa using hkey, rfl⟩⟩
  next hnone =>
    have hfree : ∀ r ∈ t.memberships, ¬ (r.groupId = id ∧ r.userId = user) := by
      simpa using hnone
    rw [mem_append, mem_singleton, or_comm]
    exact or_congr_right ⟨fun hm => ⟨hm, hfree m hm⟩, fun hm => hm.1⟩

end Groups

section Join

variable {groups : List OidcGroup} {ids : List String}

/-- What the loop over the reported groups has done when it ends. -/
structure Joined (provider user : String) (groups : List OidcGroup) (t t' : AccessTables)
    (ids : List String) : Prop where
  continues : Continues t t'
  unique : UniqueExternal t'
  resolved : ∀ id, id ∈ ids ↔ Reported t' provider groups id
  members : ∀ m, m ∈ t'.memberships ↔ (m.userId = user ∧ m.source = .oidc ∧ m.groupId ∈ ids) ∨
    (m ∈ t.memberships ∧ ¬ (m.userId = user ∧ m.groupId ∈ ids))

theorem joined_of_joinOidcGroups (hu : UniqueExternal t)
    (h : AccessTables.joinOidcGroups provider user t groups = .ok (t', ids)) :
    Joined provider user groups t t' ids := by
  induction groups generalizing t t' ids with
  | nil =>
    cases h
    exact ⟨fun g hg => ⟨g, hg, rfl, fun _ _ => rfl⟩, hu, by simp [Reported], by simp⟩
  | cons o groups ih =>
    simp only [AccessTables.joinOidcGroups, seq_eq_ok] at h
    obtain ⟨-, h⟩ := h
    obtain ⟨t₁, hput, h⟩ := bind_eq_ok.mp h
    obtain ⟨hmem, hcont, huniq⟩ := putOidcGroup_ok hput
    split at h
    · cases h
    next g hfind =>
      obtain ⟨⟨t₂, ids'⟩, hjoin, h⟩ := bind_eq_ok.mp h
      cases h
      have hg : g ∈ t₁.groups := mem_of_find?_eq_some hfind
      have hext := find?_some hfind
      have hu₁ : UniqueExternal (t₁.putMembership g.id user .oidc) := huniq hu
      have hj := ih hu₁ hjoin
      refine ⟨hcont.trans hj.continues, hj.unique, ?_, ?_⟩
      · intro id
        rw [mem_cons, hj.resolved]
        constructor
        · rintro (rfl | ⟨r, hr, hid, o', ho', hr'⟩)
          · exact hj.continues.reported hg mem_cons_self hext
          · exact ⟨r, hr, hid, o', mem_cons_of_mem o ho', hr'⟩
        · rintro ⟨r, hr, rfl, o', ho', hr'⟩
          rcases mem_cons.mp ho' with rfl | ho'
          · obtain ⟨g', hg', hid, hsame⟩ := hj.continues g hg
            left
            rw [← hid]
            exact hj.unique r hr g' hg' _ _ hr' ((hsame _ _).trans hext)
          · exact .inr ⟨r, hr, rfl, o', ho', hr'⟩
      · intro m
        rw [hj.members, mem_putMembership, hmem, mem_cons]
        obtain ⟨groupId, userId, source⟩ := m
        simp only [IdentityGroupMembership.mk.injEq]
        tauto

end Join

section Sync

variable {groups : List OidcGroup} {providerExists : Bool}

/-- The memberships of a user after the provider's report. A membership that someone
granted in a reported group becomes the provider's. -/
structure Synchronized (provider user : String) (groups : List OidcGroup)
    (t t' : AccessTables) : Prop where
  exactly : ∀ id, (⟨id, user, .oidc⟩ ∈ t'.memberships ∧ OfProvider t' provider id) ↔
    Reported t' provider groups id
  others : ∀ m : IdentityGroupMembership, m.userId ≠ user ∨ ¬ OfProvider t' provider m.groupId ∨
      (m.source ≠ .oidc ∧ ¬ Reported t' provider groups m.groupId) →
    (m ∈ t'.memberships ↔ m ∈ t.memberships)
  adopted : ∀ m : IdentityGroupMembership, m.userId = user → m.source ≠ .oidc →
    Reported t' provider groups m.groupId → m ∉ t'.memberships

theorem synchronized_of_sync (hu : UniqueExternal t)
    (h : t.syncOidcGroupMemberships provider user providerExists groups = .ok t') :
    Synchronized provider user groups t t' := by
  simp only [AccessTables.syncOidcGroupMemberships, seq_eq_ok] at h
  obtain ⟨-, h⟩ := h
  obtain ⟨⟨t₁, ids⟩, hjoin, h⟩ := bind_eq_ok.mp h
  cases h
  have hj := joined_of_joinOidcGroups hu hjoin
  -- a membership stays unless it is the provider's and was not reported
  have hstays : ∀ m : IdentityGroupMembership, m ∈ t₁.memberships.filter (fun m =>
        !(m.userId == user && m.source == .oidc && !ids.contains m.groupId &&
          t₁.groups.any fun g => g.id == m.groupId && g.providerId == some provider)) ↔
      m ∈ t₁.memberships ∧ ¬ (m.userId = user ∧ m.source = .oidc ∧
        ¬ Reported t₁ provider groups m.groupId ∧ OfProvider t₁ provider m.groupId) := by
    intro m
    rw [mem_filter, ← hj.resolved]
    grind [OfProvider]
  have hmem : ∀ m : IdentityGroupMembership, m ∈ t₁.memberships ↔
      (m.userId = user ∧ m.source = .oidc ∧ Reported t₁ provider groups m.groupId) ∨
        (m ∈ t.memberships ∧ ¬ (m.userId = user ∧ Reported t₁ provider groups m.groupId)) := by
    intro m
    rw [hj.members, hj.resolved]
  have hof : ∀ id, Reported t₁ provider groups id → OfProvider t₁ provider id :=
    fun id => ofProvider_of_reported
  constructor
  · intro id
    rw [hstays, hmem]
    constructor
    · rintro ⟨⟨⟨-, -, hrep⟩ | ⟨-, -⟩, hkept⟩, hprov⟩
      · exact hrep
      · by_contra hrep
        exact hkept ⟨rfl, rfl, hrep, hprov⟩
    · intro hrep
      exact ⟨⟨.inl ⟨rfl, rfl, hrep⟩, fun h => h.2.2.1 hrep⟩, hof id hrep⟩
  · intro m hm
    rw [hstays, hmem]
    tauto
  · intro m huser hsource hrep
    rw [hstays, hmem]
    tauto

end Sync

section Store

/-- The store after a transaction; one that fails is rolled back. -/
def afterTransaction (s : AccessState) (result : Except StoreError AccessState) : AccessState :=
  result.toOption.getD s

theorem oidc_group_synchronization (sha256 : Sha256) (s : AccessState)
    (provider user : String) (providerExists : Bool) (groups : List OidcGroup)
    (hu : UniqueExternal s.tables) :
    let result := (AccessOp.syncOidcGroupMemberships provider user providerExists groups).apply
      sha256 s
    (∀ e, result = .error e → afterTransaction s result = s) ∧
    ∀ s', result = .ok s' → afterTransaction s result = s' ∧
      Synchronized provider user groups s.tables s'.tables ∧
      AccessState.commitAccessChange ⟨s'.tables, s.grants⟩ = .ok s' ∧ Authorized s' := by
  refine ⟨fun e he => by rw [he]; rfl, fun s' hs' => ?_⟩
  obtain ⟨t, ht, hcommit⟩ := bind_eq_ok.mp hs'
  have htables : s'.tables = t := (commit_ok hcommit).1
  refine ⟨by rw [hs']; rfl, ?_, ?_, authorized_of_commit hcommit⟩
  · rw [htables]
    exact synchronized_of_sync hu ht
  · rw [htables]
    exact hcommit

/-- A user is made a member of a group that carries a provider's name for it. -/
def sampleRun : List AccessOp :=
  [.createUser ⟨"user", "user", none, .user, false⟩,
    .putIdentityGroup ⟨"group", some "provider", some "staff", "Staff", .local_, true⟩,
    .putIdentityGroupMembership "group" "user" .local_]

def sampleReport : List OidcGroup := [⟨"new", "staff", "Staff"⟩, ⟨"new", "staff", "Staff"⟩]

def sampleSync : AccessOp := .syncOidcGroupMemberships "provider" "user" true sampleReport

theorem oidc_group_synchronization_twice :
    ∃ s s', UniqueExternal s.tables ∧ sampleSync.apply sampleDigest s = .ok s' ∧
      Synchronized "provider" "user" sampleReport s.tables s'.tables ∧ Authorized s' := by
  obtain ⟨s, -, hone, hstep⟩ : ∃ s, (accessStore sampleDigest).Reachable s ∧
      s.tables.groups.length = 1 ∧
      ((accessStore sampleDigest).step s sampleSync).isSome = true :=
    Machine.exists_reachable_of_run _ sampleRun rfl (by decide)
  obtain ⟨g, hg⟩ := length_eq_one_iff.mp hone
  have hu : UniqueExternal s.tables := by
    intro a ha b hb p e _ _
    rw [hg, mem_singleton] at ha hb
    rw [ha, hb]
  obtain ⟨s', hs'⟩ := Option.isSome_iff_exists.mp hstep
  have hok : sampleSync.apply sampleDigest s = .ok s' := toOption_eq_some.mp hs'
  obtain ⟨-, hsync, -, hauth⟩ :=
    (oidc_group_synchronization sampleDigest s "provider" "user" true sampleReport hu).2 s' hok
  exact ⟨s, s', hu, hok, hsync, hauth⟩

/-- A membership that an administrator granted does not stay as it was. -/
theorem granted_membership_is_adopted : ∃ s, (accessStore sampleDigest).Reachable s ∧
      s.tables.memberships = [⟨"group", "user", .local_⟩] ∧
      ((accessStore sampleDigest).step s sampleSync).any
        (fun s' => s'.tables.memberships = [⟨"group", "user", .oidc⟩]) = true :=
  Machine.exists_reachable_of_run _ sampleRun rfl (by decide)

end Store

end VcWorkspace.Store.GroupSync
