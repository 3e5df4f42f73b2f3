import VcWorkspace.Session.WindowsRegistry

/-! # Windows authority publications

The registry across publications, crashes and registrations. Values of the
retired protocol may precede the first fence; from the first publication on the
fence orders all records and only its own record can be active in a user's view.
-/

namespace VcWorkspace.Session.Windows

open Transition Guest List Option

variable {ν : Type} (codec : Codec ν)

structure Update where
  input : List UInt8
  users : List (String × String)

structure State where
  registry : Registry
  update : Option Update

structure CommandEnv where
  system : Bool
  discovered : Except IoError SessionKey
  now : ℤ
  /-- The transaction is still alive when it is committed. -/
  live : Bool

def readInput (stdin : List UInt8) : Except IoError (List UInt8) := do
  let raw := stdin.take (maxRequest + 1)
  ensure (deny "Windows command input exceeds limit") (!raw.isEmpty && raw.length ≤ maxRequest)
  pure raw

/-- The first half of the command: parse the record and reserve the registry. -/
def reserve (reg : Registry) (stdin : List UInt8) (now : ℤ) : Except IoError Update := do
  let raw ← readInput stdin
  let _ ← parseAuthority codec raw now
  let users ← reg.beginUpdate
  pure ⟨raw, users⟩

/-- Compare a record with the fence or, before the first one, with every user's view. -/
def checkPrevious (reg : Registry) (users : List (String × String)) (next : BoundAuthority ν)
    (a : Authority) : Except IoError Unit := do
  match ← optionalBinary reg.fence with
  | some previous => validateAuthorityTransition codec previous next a
  | none => do
    let old ← reg.existingAuthorities users
    validateUnfencedAuthorities codec old next a

def checkTarget (env : CommandEnv) : Option SessionKey → Except IoError Unit
  | none => .ok ()
  | some target => do
    let found ← env.discovered
    ensure (deny "Windows Helper instance changed before authorization") (found == target)

def revokedView (a : Authority) : Authority := ⟨1, a.leaseId, a.controlEpoch, "revoked", 0⟩

def encoded : Option (List UInt8) → Except IoError (List UInt8)
  | some raw => .ok raw
  | none => .error (otherError "encoding")

def otherView (a : Authority) (desired : List UInt8) : Except IoError (List UInt8) :=
  if a.state = "revoked" then .ok desired
  else encoded (codec.toVec ⟨2, none, codec.toValue (revokedView a), none⟩)

/-- The second half: validate under the reservation, stage, check the deadline again, commit. -/
def publish (reg : Registry) (update : Update) (env : CommandEnv) : Except IoError Registry := do
  let (bound, a) ← authorityRecord codec update.input
  checkPrevious codec reg update.users bound a
  checkTarget env bound.target
  let desired ← encoded (codec.toVec bound)
  let revoked ← otherView codec a desired
  let reg ← reg.stage update.users (bound.target.map owner) desired revoked
  let _ ← parseAuthority codec update.input env.now
  ensure (deny "authority transaction has no complete staged update") (env.system && env.live)
  pure reg

inductive Action where
  | register (username sid : String) (crash : Bool)
  | reserve (stdin : List UInt8) (now : ℤ)
  | finish (env : CommandEnv)

/-- A registration may fall between the two halves of a publication, another publication may not. A
failed or interrupted one is rolled back. -/
def step (s : State) : Action → Option State
  | .register username sid crash =>
    some
      { s with
        registry := (s.registry.initializeUser username sid crash).toOption.getD s.registry }
  | .reserve stdin now =>
    match s.update, reserve codec s.registry stdin now with
    | none, .ok update => some { s with update := some update }
    | _, _ => none
  | .finish env =>
    s.update.map fun update =>
      ⟨(publish codec s.registry update env).toOption.getD s.registry, none⟩

/-- Registries start without a fence; user keys may hold any value of the retired protocol. -/
def machine : Machine State Action where
  Init s := s.registry.fence = none ∧ s.update = none
  step := step codec

section Records

variable {codec} {raw raw' previous : List UInt8} {next : BoundAuthority ν} {a : Authority}
  {r : BoundAuthority ν × Authority}

theorem validateAuthorityTransition_eq_ok :
    validateAuthorityTransition codec previous next a = .ok () ↔ ∃ old,
      authorityRecord codec previous = .ok old ∧
        (grantOf owner old).Admits (grantOf owner (next, a)) := by
  unfold validateAuthorityTransition
  rw [bind_eq_ok]
  apply exists_congr
  intro old
  refine and_congr_right fun hold => ?_
  obtain ⟨-, -, -, hv⟩ := boundRecord_eq_ok.mp hold
  rw [grantOf_admits_iff hv]
  simp only [seq_eq_ok, ensure_eq_ok, decide_eq_true_eq]
  refine and_congr_right fun _ => ?_
  split
  next h => simp [h, and_assoc]
  next h =>
    refine ⟨fun _ h₁ h₂ => absurd ⟨h₁, h₂⟩ h, fun _ => rfl⟩

theorem decode_of_record (h : authorityRecord codec raw = .ok r) : decode codec raw = some r :=
  (boundRecord_eq_ok.mp h).2.2.1

theorem record_toVec (h : authorityRecord codec raw = .ok r) (hw : codec.toVec r.1 = some raw')
    (hne : raw' ≠ []) (hlen : raw'.length ≤ maxValue) :
    ∃ b, authorityRecord codec raw' = .ok (b, r.2) ∧ b.target = r.1.target := by
  obtain ⟨-, -, hdec, hv⟩ := boundRecord_eq_ok.mp h
  obtain ⟨b, hb, hver, htar, -⟩ := decode_toVec hdec hw
  refine ⟨b, boundRecord_eq_ok.mpr ⟨hne, hlen, hb, ?_⟩, htar⟩
  unfold validRecord at hv ⊢
  rwa [hver, htar]

theorem record_revokedView (h : authorityRecord codec raw = .ok r)
    (hw : codec.toVec ⟨2, none, codec.toValue (revokedView r.2), none⟩ = some raw')
    (hne : raw' ≠ []) (hlen : raw'.length ≤ maxValue) :
    ∃ b, authorityRecord codec raw' = .ok (b, revokedView r.2) := by
  obtain ⟨-, -, -, hv⟩ := boundRecord_eq_ok.mp h
  obtain ⟨b, hb, hver, htar, -, ha⟩ := codec.read_built _ _ _ _ hw
  refine ⟨b, boundRecord_eq_ok.mpr ⟨hne, hlen, by simp [decode, hb, ha], ?_⟩⟩
  simp only [validRecord, Bool.and_eq_true] at hv
  obtain ⟨⟨⟨⟨⟨⟨⟨⟨-, -⟩, hepoch⟩, hlong⟩, hstart⟩, hall⟩, -⟩, -⟩, -⟩ := hv
  simp only [validRecord, Bool.and_eq_true]
  exact ⟨⟨⟨⟨⟨⟨⟨⟨by rw [hver]; rfl, rfl⟩, hepoch⟩, hlong⟩, hstart⟩, hall⟩, rfl⟩, rfl⟩,
    by rw [htar]; rfl⟩

end Records

section Keys

variable {reg reg' : Registry} {users : List (String × String)} {k k' : UserKey}
  {target : Option (String × String)} {desired revoked : List UInt8}

theorem Registry.key_ext (hk : k ∈ reg.keys) (hk' : k' ∈ reg.keys) (h : k.name = k'.name) :
    k = k' :=
  inj_on_of_nodup_map reg.nodup hk hk' h

theorem Registry.find_key (hk : k ∈ reg.keys) : reg.keys.find? (·.name == k.name) = some k := by
  cases hf : reg.keys.find? (·.name == k.name) with
  | none =>
    have := find?_eq_none.mp hf k hk
    simp at this
  | some k' =>
    have hname : k'.name = k.name := by simpa using find?_some hf
    rw [Registry.key_ext (mem_of_find?_eq_some hf) hk hname]

theorem name_mem_of_beginUpdate (h : reg.beginUpdate = .ok users) (hk : k ∈ reg.keys) :
    k.name ∈ users.map Prod.fst := by
  obtain ⟨users', hu, h⟩ := bind_eq_ok.mp h
  rw [seq_eq_ok] at h
  cases h.2
  obtain ⟨users'', hc, hu⟩ := bind_eq_ok.mp hu
  rw [seq_eq_ok, ensure_eq_ok, decide_eq_true_eq] at hu
  cases hu.2
  rw [take_of_length_le hu.1] at hc
  obtain ⟨user, huser, hentry⟩ := exists_of_collect hc hk
  refine mem_map.mpr ⟨user, huser, ?_⟩
  simp only [UserKey.entry, seq_eq_ok] at hentry
  obtain ⟨-, hentry⟩ := hentry
  split at hentry
  · cases hentry
  · cases hentry
  · simp only [seq_eq_ok] at hentry
    rw [← Except.ok.inj hentry.2.2]

theorem publish_authority (key : UserKey) :
    (key.publish users target desired revoked = key ∧ key.name ∉ users.map Prod.fst) ∨
    (key.publish users target desired revoked).authority = some (.binary revoked) ∨
    ((key.publish users target desired revoked).authority = some (.binary desired) ∧
      target.map Prod.fst = some key.name) := by
  unfold UserKey.publish
  cases hf : users.find? (·.1 == key.name) with
  | none =>
    left
    refine ⟨rfl, fun hmem => ?_⟩
    obtain ⟨user, huser, hname⟩ := mem_map.mp hmem
    have := find?_eq_none.mp hf user huser
    simp [hname] at this
  | some user =>
    right
    have hname : user.1 = key.name := by simpa using find?_some hf
    by_cases ht : target = some user
    · exact .inr ⟨by simp [ht], by simp [ht, hname]⟩
    · exact .inl (by simp [ht])

theorem stage_spec (h : reg.stage users target desired revoked = .ok reg') :
    (desired ≠ [] ∧ desired.length ≤ maxValue) ∧ (revoked ≠ [] ∧ revoked.length ≤ maxValue) ∧
      reg'.fence = some (.binary desired) ∧
      reg'.keys = reg.keys.map (UserKey.publish users target desired revoked) := by
  simp only [Registry.stage, seq_eq_ok, ensure_eq_ok, Bool.and_eq_true, Bool.not_eq_true',
    isEmpty_eq_false_iff, decide_eq_true_eq] at h
  obtain ⟨⟨⟨⟨hd, hr⟩, hdl⟩, hrl⟩, -, h⟩ := h
  cases h
  exact ⟨⟨hd, hdl⟩, ⟨hr, hrl⟩, rfl, rfl⟩

theorem initializeUser_spec {username sid : String} {crash : Bool}
    (h : reg.initializeUser username sid crash = .ok reg') : reg'.fence = reg.fence ∧
      ∀ k' ∈ reg'.keys, k'.authority = none ∨
        ∃ k ∈ reg.keys, k'.name = k.name ∧ k'.authority = k.authority := by
  have hcreate : ∀ {reg₁}, reg.create username sid = .ok reg₁ → reg₁.fence = reg.fence ∧
      ∀ k' ∈ reg₁.keys, k'.authority = none ∨ k' ∈ reg.keys := by
    intro reg₁ h
    unfold Registry.create at h
    split at h
    · split at h
      · cases h
      · rw [seq_eq_ok] at h
        cases h.2
        exact ⟨rfl, fun _ hk => .inr hk⟩
    · cases h
      refine ⟨rfl, fun k' hk' => ?_⟩
      rcases mem_append.mp hk' with hk' | hk'
      · exact .inr hk'
      · rw [mem_singleton.mp hk']
        exact .inl rfl
  simp only [Registry.initializeUser, seq_eq_ok] at h
  obtain ⟨reg₁, hreg₁, h⟩ := bind_eq_ok.mp h.2
  obtain ⟨hfence, hkeys⟩ := hcreate hreg₁
  split at h
  · cases h
    exact ⟨hfence, fun k' hk' => (hkeys k' hk').imp_right fun hk => ⟨k', hk, rfl, rfl⟩⟩
  · rw [seq_eq_ok] at h
    cases h.2
    refine ⟨hfence, fun k' hk' => ?_⟩
    obtain ⟨k, hk, rfl⟩ := mem_map.mp hk'
    have hbind : (k.bind username sid).authority = k.authority := by
      unfold UserKey.bind
      split <;> rfl
    rw [hbind, UserKey.bind_name]
    exact (hkeys k hk).imp_right fun hk => ⟨k, hk, rfl, rfl⟩

end Keys

section Publication

variable {codec} {reg reg' : Registry} {update : Update} {env : CommandEnv}
  {o : Option (List UInt8)} {next : BoundAuthority ν} {a : Authority} {v : RegValue (List UInt8)}

def RevokedValue (codec : Codec ν) (v : RegValue (List UInt8)) : Prop :=
  ∃ raw r, v = .binary raw ∧ authorityRecord codec raw = .ok r ∧ r.2.state = "revoked"

structure Published (codec : Codec ν) (reg : Registry) (update : Update)
    (next : BoundAuthority ν × Authority) (reg' : Registry) : Prop where
  fence : ∃ raw b, reg'.fence = some (.binary raw) ∧ authorityRecord codec raw = .ok (b, next.2) ∧
    b.target = next.1.target
  view : ∀ k' ∈ reg'.keys, (k' ∈ reg.keys ∧ k'.name ∉ update.users.map Prod.fst) ∨
    (∃ v, k'.authority = some v ∧ RevokedValue codec v) ∨
    (k'.authority = reg'.fence ∧ next.1.target.map SessionKey.username = some k'.name)
  previous : ∀ v, reg.fence = some v → ∃ raw, v = .binary raw ∧
    validateAuthorityTransition codec raw next.1 next.2 = .ok ()
  first : reg.fence = none → ∀ k ∈ reg.keys, k.name ∈ update.users.map Prod.fst →
    ∀ v, k.authority = some v → next.2.state = "revoked" ∧
      ∃ raw, v = .binary raw ∧ validateAuthorityTransition codec raw next.1 next.2 = .ok ()

theorem optionalBinary_eq_ok {v : Option (RegValue (List UInt8))} (h : optionalBinary v = .ok o) :
    v = o.map .binary := by
  rcases v with _ | value | _
  · cases h
    rfl
  · simp only [optionalBinary, seq_eq_ok] at h
    cases h.2.2
    rfl
  · cases h

theorem encoded_eq_ok {raw : List UInt8} : encoded o = .ok raw ↔ o = some raw := by
  cases o <;> simp [encoded]

theorem checkPrevious_fenced (h : checkPrevious codec reg update.users next a = .ok ())
    (hf : reg.fence = some v) :
    ∃ raw, v = .binary raw ∧ validateAuthorityTransition codec raw next a = .ok () := by
  obtain ⟨o, ho, h⟩ := bind_eq_ok.mp h
  have hv := optionalBinary_eq_ok ho
  rw [hf] at hv
  cases o with
  | none => cases hv
  | some raw => exact ⟨raw, some.inj hv, h⟩

theorem checkPrevious_unfenced {k : UserKey}
    (h : checkPrevious codec reg update.users next a = .ok ()) (hf : reg.fence = none)
    (hk : k ∈ reg.keys) (hu : k.name ∈ update.users.map Prod.fst) (hv : k.authority = some v) :
    a.state = "revoked" ∧
      ∃ raw, v = .binary raw ∧ validateAuthorityTransition codec raw next a = .ok () := by
  obtain ⟨o, ho, h⟩ := bind_eq_ok.mp h
  rw [hf] at ho
  cases o with
  | some raw => cases ho
  | none =>
    obtain ⟨old, hold, h⟩ := bind_eq_ok.mp h
    obtain ⟨values, hvalues, hold⟩ := bind_eq_ok.mp hold
    cases hold
    obtain ⟨user, huser, hname⟩ := mem_map.mp hu
    obtain ⟨o, hmem, ho⟩ := exists_of_collect hvalues huser
    have ho := optionalBinary_eq_ok ho
    rw [hname, Registry.find_key hk] at ho
    obtain ⟨raw, rfl, rfl⟩ := map_eq_some_iff.mp (ho.symm.trans hv)
    have hraw : raw ∈ values.filterMap id := mem_filterMap.mpr ⟨some raw, hmem, rfl⟩
    simp only [validateUnfencedAuthorities, seq_eq_ok, ensure_eq_ok, Bool.or_eq_true,
      List.isEmpty_iff, beq_iff_eq, forEach_eq_ok] at h
    refine ⟨h.1.resolve_left (List.ne_nil_of_mem hraw), raw, rfl, h.2 raw hraw⟩

theorem publish_spec (h : publish codec reg update env = .ok reg') :
    ∃ next, Published codec reg update next reg' := by
  obtain ⟨next, hrec, h⟩ := bind_eq_ok.mp h
  simp only [seq_eq_ok] at h
  obtain ⟨hprev, -, h⟩ := h
  obtain ⟨desired, hdes, h⟩ := bind_eq_ok.mp h
  obtain ⟨revoked, hrev, h⟩ := bind_eq_ok.mp h
  obtain ⟨staged, hstage, h⟩ := bind_eq_ok.mp h
  obtain ⟨-, -, h⟩ := bind_eq_ok.mp h
  obtain ⟨-, h⟩ := seq_eq_ok.mp h
  cases h
  obtain ⟨⟨hd, hdl⟩, ⟨hr, hrl⟩, hfence, hkeys⟩ := stage_spec hstage
  obtain ⟨b, hb, htar⟩ := record_toVec hrec (encoded_eq_ok.mp hdes) hd hdl
  have hrevoked : RevokedValue codec (.binary revoked) := by
    unfold otherView at hrev
    split at hrev
    next hs =>
      cases hrev
      exact ⟨_, _, rfl, hb, hs⟩
    · obtain ⟨b', hb'⟩ := record_revokedView hrec (encoded_eq_ok.mp hrev) hr hrl
      exact ⟨_, _, rfl, hb', rfl⟩
  refine ⟨next, ⟨desired, b, hfence, hb, htar⟩, ?_, fun v hv => checkPrevious_fenced hprev hv,
    fun hf k hk hu v hv => checkPrevious_unfenced hprev hf hk hu hv⟩
  intro k' hk'
  rw [hkeys] at hk'
  obtain ⟨k, hk, rfl⟩ := mem_map.mp hk'
  rcases @publish_authority update.users (next.1.target.map owner) desired revoked k with
    ⟨heq, hn⟩ | hv | ⟨hv, ht⟩
  · rw [heq]
    exact .inl ⟨hk, hn⟩
  · exact .inr (.inl ⟨_, hv, hrevoked⟩)
  · refine .inr (.inr ⟨hv.trans hfence.symm, ?_⟩)
    rw [UserKey.publish_name, ← ht, Option.map_map]
    rfl

end Publication

section History

variable {codec} {s₀ s t : State} {action : Action} {r : BoundAuthority ν × Authority}
  {v : RegValue (List UInt8)}

def valueRecord (codec : Codec ν) : Option (RegValue (List UInt8)) →
    Option (BoundAuthority ν × Authority)
  | some (.binary raw) => decode codec raw
  | _ => none

def Active (codec : Codec ν) (v : Option (RegValue (List UInt8))) : Prop :=
  ∃ r, valueRecord codec v = some r ∧ r.2.state = "active"

/-- At most one user has an active view, and that view is the fence record. -/
def Single (codec : Codec ν) (reg : Registry) : Prop :=
  ∀ k ∈ reg.keys, Active codec k.authority → k.authority = reg.fence ∧
    ∀ k' ∈ reg.keys, Active codec k'.authority → k' = k

theorem RevokedValue.not_active (h : RevokedValue codec v) : ¬ Active codec (some v) := by
  rintro ⟨r, hr, hact⟩
  obtain ⟨raw, r', rfl, hrec, hrev⟩ := h
  cases (decode_of_record hrec).symm.trans hr
  rw [hact] at hrev
  simp at hrev

/-- A step that commits no publication keeps the fence and every view. -/
structure Quiet (s t : State) : Prop where
  fence : t.registry.fence = s.registry.fence
  view : ∀ k' ∈ t.registry.keys, k'.authority = none ∨
    ∃ k ∈ s.registry.keys, k'.name = k.name ∧ k'.authority = k.authority
  update : t.update = s.update ∨ t.update = none ∨
    ∃ u, t.update = some u ∧ t.registry.beginUpdate = .ok u.users

theorem Quiet.of_registry (h : t.registry = s.registry)
    (hu : t.update = s.update ∨ t.update = none ∨
      ∃ u, t.update = some u ∧ t.registry.beginUpdate = .ok u.users) : Quiet s t :=
  ⟨by rw [h], fun k' hk' => .inr ⟨k', h ▸ hk', rfl, rfl⟩, hu⟩

theorem step_cases (h : (machine codec).step s action = some t) :
    Quiet s t ∨ ∃ u next, s.update = some u ∧ t.update = none ∧
      Published codec s.registry u next t.registry := by
  cases action with
  | register username sid crash =>
    cases h
    left
    cases hi : s.registry.initializeUser username sid crash with
    | error e => exact .of_registry rfl (.inl rfl)
    | ok reg =>
      obtain ⟨hfence, hview⟩ := initializeUser_spec hi
      exact ⟨hfence, hview, .inl rfl⟩
  | reserve stdin now =>
    left
    simp only [machine, step] at h
    split at h
    next u hu hres =>
      cases h
      obtain ⟨raw, -, hres⟩ := bind_eq_ok.mp hres
      obtain ⟨-, -, hres⟩ := bind_eq_ok.mp hres
      obtain ⟨users, hbegin, hres⟩ := bind_eq_ok.mp hres
      cases hres
      exact .of_registry rfl (.inr (.inr ⟨_, rfl, hbegin⟩))
    · cases h
  | finish env =>
    obtain ⟨u, hu, rfl⟩ := map_eq_some_iff.mp h
    cases hp : publish codec s.registry u env with
    | error e => exact .inl (.of_registry rfl (.inr (.inl rfl)))
    | ok reg =>
      obtain ⟨next, hnext⟩ := publish_spec hp
      exact .inr ⟨u, next, hu, rfl, hnext⟩

/-- A transaction in flight has reserved every key that holds an authority, and every view is empty,
revoked, or the fence record. -/
structure Inv (codec : Codec ν) (s : State) : Prop where
  reserved : ∀ u, s.update = some u → ∀ k ∈ s.registry.keys,
    k.name ∈ u.users.map Prod.fst ∨ k.authority = none
  readable : s.registry.fence ≠ none → ∃ r, valueRecord codec s.registry.fence = some r ∧
    ∀ k ∈ s.registry.keys, k.authority = none ∨
      (∃ v, k.authority = some v ∧ RevokedValue codec v) ∨
      (k.authority = s.registry.fence ∧ r.1.target.map SessionKey.username = some k.name)

theorem Inv.quiet (hs : Inv codec s) (h : Quiet s t) : Inv codec t where
  reserved u hu k' hk' := by
    rcases h.update with heq | hnone | ⟨u', hu', hbegin⟩
    · rcases h.view k' hk' with hk' | ⟨k, hk, hname, hauth⟩
      · exact .inr hk'
      · rw [hname, hauth]
        exact hs.reserved u (heq ▸ hu) k hk
    · rw [hnone] at hu
      cases hu
    · cases hu'.symm.trans hu
      exact .inl (name_mem_of_beginUpdate hbegin hk')
  readable hne := by
    rw [h.fence] at hne ⊢
    obtain ⟨r, hr, hviews⟩ := hs.readable hne
    refine ⟨r, hr, fun k' hk' => ?_⟩
    rcases h.view k' hk' with hk' | ⟨k, hk, hname, hauth⟩
    · exact .inl hk'
    · rw [hname, hauth]
      exact hviews k hk

theorem Inv.published {u : Update} {next : BoundAuthority ν × Authority} (hs : Inv codec s)
    (hu : s.update = some u) (hn : t.update = none)
    (h : Published codec s.registry u next t.registry) : Inv codec t where
  reserved u' hu' := by
    rw [hn] at hu'
    cases hu'
  readable _ := by
    obtain ⟨raw, b, hfence, hrec, htar⟩ := h.fence
    refine ⟨(b, next.2), by rw [hfence]; exact decode_of_record hrec, fun k' hk' => ?_⟩
    rcases h.view k' hk' with ⟨hk, hnot⟩ | hrev | ⟨heq, htarget⟩
    · exact .inl ((hs.reserved u hu k' hk).resolve_left hnot)
    · exact .inr (.inl hrev)
    · exact .inr (.inr ⟨heq, by rw [htar]; exact htarget⟩)

theorem inv_of_reachable (hs : (machine codec).Reachable s) : Inv codec s := by
  refine hs.invariant ?_ ?_
  · rintro s ⟨hfence, hupdate⟩
    refine ⟨fun u hu => ?_, fun hne => absurd hfence hne⟩
    rw [hupdate] at hu
    cases hu
  · intro s action t _ hs h
    rcases step_cases h with hq | ⟨u, next, hu, hn, hp⟩
    · exact hs.quiet hq
    · exact hs.published hu hn hp

/-- With a fence only its own record can be active, and only in its target's view. -/
theorem Inv.single (hs : Inv codec s) (hne : s.registry.fence ≠ none) :
    Single codec s.registry := by
  obtain ⟨r, -, hviews⟩ := hs.readable hne
  have hactive : ∀ k ∈ s.registry.keys, Active codec k.authority →
      k.authority = s.registry.fence ∧ r.1.target.map SessionKey.username = some k.name := by
    intro k hk hact
    rcases hviews k hk with hnone | ⟨v, hv, hrev⟩ | h
    · rw [hnone] at hact
      obtain ⟨_, hr, -⟩ := hact
      cases hr
    · rw [hv] at hact
      exact absurd hact hrev.not_active
    · exact h
  intro k hk hact
  obtain ⟨heq, htar⟩ := hactive k hk hact
  refine ⟨heq, fun k' hk' hact' => Registry.key_ext hk' hk ?_⟩
  exact some.inj ((hactive k' hk' hact').2.symm.trans htar)

theorem admits_step (h : (machine codec).step s action = some t)
    (hr : valueRecord codec s.registry.fence = some r) :
    ∃ r', valueRecord codec t.registry.fence = some r' ∧
      (grantOf owner r).Admits (grantOf owner r') := by
  rcases step_cases h with hq | ⟨u, next, -, -, hp⟩
  · exact ⟨r, by rw [hq.fence]; exact hr, .refl _⟩
  · obtain ⟨raw, b, hfence, hrec, htar⟩ := hp.fence
    cases hf : s.registry.fence with
    | none =>
      rw [hf] at hr
      cases hr
    | some v =>
      obtain ⟨previous, rfl, htrans⟩ := hp.previous v hf
      obtain ⟨old, hold, hadm⟩ := validateAuthorityTransition_eq_ok.mp htrans
      rw [hf] at hr
      cases (decode_of_record hold).symm.trans hr
      refine ⟨(b, next.2), by rw [hfence]; exact decode_of_record hrec, ?_⟩
      simpa only [grantOf, htar] using hadm

theorem admits_of_leads (h : (machine codec).Leads s t)
    (hr : valueRecord codec s.registry.fence = some r) :
    ∃ r', valueRecord codec t.registry.fence = some r' ∧
      (grantOf owner r).Admits (grantOf owner r') :=
  h.carries (R := fun r r' => (grantOf owner r).Admits (grantOf owner r'))
    (fun _ => .refl _) (fun _ _ _ => Grant.Admits.trans) (fun _ _ _ _ => admits_step) hr

theorem authority_none_of_unfenced (h₀ : ∀ k ∈ s₀.registry.keys, k.authority = none)
    (hs : (machine codec).Leads s₀ s) (hf : s.registry.fence = none) :
    ∀ k ∈ s.registry.keys, k.authority = none := by
  refine hs.preserves (P := fun s => s.registry.fence = none →
    ∀ k ∈ s.registry.keys, k.authority = none) ?_ (fun _ => h₀) hf
  intro s action t hs h hf k' hk'
  rcases step_cases h with hq | ⟨u, next, -, -, hp⟩
  · rcases hq.view k' hk' with hnone | ⟨k, hk, -, hauth⟩
    · exact hnone
    · rw [hauth]
      exact hs (hq.fence ▸ hf) k hk
  · obtain ⟨raw, b, hfence, -⟩ := hp.fence
    rw [hf] at hfence
    cases hfence

theorem revoked_of_first (hs : (machine codec).Reachable s) (hf : s.registry.fence = none)
    (h : (machine codec).step s action = some t) (hr : valueRecord codec t.registry.fence = some r)
    {k : UserKey} (hk : k ∈ s.registry.keys) (hv : k.authority = some v) : r.2.state = "revoked" ∧
      ∃ old, valueRecord codec (some v) = some old ∧ old.2.controlEpoch ≤ r.2.controlEpoch := by
  rcases step_cases h with hq | ⟨u, next, hu, -, hp⟩
  · rw [hq.fence, hf] at hr
    cases hr
  · obtain ⟨raw, b, hfence, hrec, -⟩ := hp.fence
    rw [hfence] at hr
    cases (decode_of_record hrec).symm.trans hr
    have hmem : k.name ∈ u.users.map Prod.fst := by
      refine ((inv_of_reachable hs).reserved u hu k hk).resolve_right ?_
      rw [hv]
      simp
    obtain ⟨hrev, previous, rfl, htrans⟩ := hp.first hf k hk hmem v hv
    obtain ⟨old, hold, hadm⟩ := validateAuthorityTransition_eq_ok.mp htrans
    exact ⟨hrev, old, decode_of_record hold, hadm.1⟩

/-- The Windows registry over every sequence of publications, crashes and registrations: at most
one view is active and it is the fence record, epochs never go back, and a revoked one is never
active again. -/
theorem windows_authority_registry (h₀ : (machine codec).Init s₀)
    (hs : (machine codec).Leads s₀ s) :
    (s.registry.fence ≠ none ∨ (∀ k ∈ s₀.registry.keys, k.authority = none) →
      Single codec s.registry) ∧
    (s.registry.fence ≠ none → ∃ r, valueRecord codec s.registry.fence = some r) ∧
    (∀ t r, (machine codec).Leads s t → valueRecord codec s.registry.fence = some r →
      ∃ r', valueRecord codec t.registry.fence = some r' ∧
        r.2.controlEpoch ≤ r'.2.controlEpoch ∧
        (r.2.state = "revoked" → r'.2.state = "active" → r.2.controlEpoch < r'.2.controlEpoch) ∧
        (r.2.state = "revoked" → ∀ k ∈ t.registry.keys, ∀ view,
          valueRecord codec k.authority = some view → view.2.state = "active" →
            r.2.controlEpoch < view.2.controlEpoch)) ∧
    (s.registry.fence = none → ∀ action t r, (machine codec).step s action = some t →
      valueRecord codec t.registry.fence = some r → ∀ k ∈ s.registry.keys, ∀ v,
        k.authority = some v → r.2.state = "revoked" ∧ ∃ old,
          valueRecord codec (some v) = some old ∧ old.2.controlEpoch ≤ r.2.controlEpoch) := by
  have hreach : (machine codec).Reachable s := (Machine.Reachable.init h₀).leads hs
  have hinv := inv_of_reachable hreach
  refine ⟨?_, ?_, ?_, ?_⟩
  · rintro (hne | hnone)
    · exact hinv.single hne
    · by_cases hf : s.registry.fence = none
      · rintro k hk ⟨r, hr, -⟩
        rw [authority_none_of_unfenced hnone hs hf k hk] at hr
        cases hr
      · exact hinv.single hf
  · intro hne
    obtain ⟨r, hr, -⟩ := hinv.readable hne
    exact ⟨r, hr⟩
  · intro t r ht hr
    obtain ⟨r', hr', hadm⟩ := admits_of_leads ht hr
    have hlt : r.2.state = "revoked" → r'.2.state = "active" →
        r.2.controlEpoch < r'.2.controlEpoch := by
      intro hrev hact
      exact hadm.epoch_lt (by simp [grantOf, hrev]) (by simp [grantOf, hact])
    refine ⟨r', hr', hadm.1, hlt, fun hrev k hk view hview hact => ?_⟩
    have hne : t.registry.fence ≠ none := by
      intro hnone
      rw [hnone] at hr'
      cases hr'
    obtain ⟨heq, -⟩ := (inv_of_reachable (hreach.leads ht)).single hne k hk ⟨view, hview, hact⟩
    rw [heq] at hview
    cases hr'.symm.trans hview
    exact hlt hrev hact
  · intro hf action t r h hr k hk v hv
    exact revoked_of_first hreach hf h hr hk hv

end History

section Sample

def sampleKey : SessionKey :=
  ⟨"vca0123456789ab", 0, "S-1-5-21-1-2-3-1001", "windows:1:00000000000000ff",
    "aaaaaaaaaaaaaaaaaaaaaaaaaaaaaaaaaaaaaaaaaaaaaaaaaaaaaaaaaaaaaaaa"⟩

def sampleActive (lease : String) (epoch : ℤ) : BoundAuthority Authority :=
  ⟨2, some sampleKey, ⟨1, lease, epoch, "active", 900⟩, none⟩

def sampleRevoked (lease : String) (epoch : ℤ) : BoundAuthority Authority :=
  ⟨2, none, ⟨1, lease, epoch, "revoked", 0⟩, none⟩

/-- An activation at epoch one, its revocation, an activation at epoch two and the view of the
other users. -/
def sampleTable : List (BoundAuthority Authority) :=
  [sampleActive "lease_a" 1, sampleRevoked "lease_a" 1, sampleActive "lease_b" 2,
    sampleRevoked "lease_b" 2]

/-- A registry of the retired protocol, with one active view and no fence. -/
def sampleLegacy : State where
  registry :=
    { fence := none
      keys := [⟨"vca0123456789ab", some "S-1-5-21-1-2-3-1001",
        some (.binary "S-1-5-21-1-2-3-1001"), some (.binary (sampleActive "lease_a" 1).encode)⟩]
      nodup := by simp }
  update := none

def sampleRegister : Action := .register "vcaba9876543210" "S-1-5-21-1-2-3-1002" false

def samplePublish (next : BoundAuthority Authority) : List Action :=
  [.reserve next.encode 100, .finish ⟨true, .ok sampleKey, 100, true⟩]

/-- Before the first publication a view of the retired protocol is active without a fence. -/
theorem legacy_view_unfenced : ∃ s, (machine (tableCodec sampleTable)).Reachable s ∧
    ¬ Single (tableCodec sampleTable) s.registry := by
  obtain ⟨s, hs, hk⟩ : ∃ s, (machine (tableCodec sampleTable)).Reachable s ∧
      ∃ k ∈ s.registry.keys, valueRecord (tableCodec sampleTable) k.authority =
        some (sampleActive "lease_a" 1, ⟨1, "lease_a", 1, "active", 900⟩) ∧
          k.authority ≠ s.registry.fence :=
    Machine.exists_reachable_of_run sampleLegacy [sampleRegister] ⟨rfl, rfl⟩ (by decide +kernel)
  obtain ⟨k, hk, hr, hne⟩ := hk
  exact ⟨s, hs, fun h => hne (h k hk ⟨_, hr, rfl⟩).1⟩

/-- The retired view is revoked, a user is added, and the next epoch is activated. -/
theorem windows_authority_registry_activated : ∃ s, (machine (tableCodec sampleTable)).Leads
    sampleLegacy s ∧ s.registry.fence = some (.binary (sampleActive "lease_b" 2).encode) ∧
    s.registry.keys.length = 2 ∧ Single (tableCodec sampleTable) s.registry := by
  have hrun : ((machine (tableCodec sampleTable)).run sampleLegacy
      (samplePublish (sampleRevoked "lease_a" 1) ++
        sampleRegister :: samplePublish (sampleActive "lease_b" 2))).any (fun s =>
        decide (s.registry.fence = some (.binary (sampleActive "lease_b" 2).encode) ∧
          s.registry.keys.length = 2)) = true := by
    decide +kernel
  obtain ⟨s, hs, hp⟩ := (any_eq_true _ _).mp hrun
  obtain ⟨hfence, hlen⟩ := of_decide_eq_true hp
  have hlead : (machine (tableCodec sampleTable)).Leads sampleLegacy s := ⟨_, hs⟩
  refine ⟨s, hlead, hfence, hlen, (windows_authority_registry ⟨rfl, rfl⟩ hlead).1 (.inl ?_)⟩
  simp [hfence]

end Sample

end VcWorkspace.Session.Windows
