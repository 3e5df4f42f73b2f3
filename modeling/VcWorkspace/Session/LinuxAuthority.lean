import VcWorkspace.Transition.Machine
import VcWorkspace.Session.Record

/-! # The Linux authority fence

A publication replaces the fenced snapshot by an atomic rename, after comparing
the new record with the stored one under an exclusive lock. Expired and revoked
records keep ordering later ones, and files of the retired protocol must be
revoked before the first activation.
-/

namespace VcWorkspace.Session.Linux

open Transition Guest

variable {ν : Type} (codec : Codec ν)

def record (raw : List UInt8) : Except IoError (BoundAuthority ν × Authority) :=
  boundRecord codec (· == "") "invalid Linux bound authority" raw

def fresh (a : Authority) (now : ℤ) : Except IoError Unit :=
  freshAt "invalid Linux authority deadline" a now

def owner (key : SessionKey) : String × ℕ × String := (key.username, key.uid, key.sid)

def sameUser (old next : Option SessionKey) : Bool := sameOwner owner old next

def transition (raw : List UInt8) (next : BoundAuthority ν) (a : Authority) :
    Except IoError Unit := do
  let old ← record codec raw
  ensure (deny "authority epoch cannot move backwards") (old.2.controlEpoch ≤ a.controlEpoch)
  ensure (deny "revoked epoch, changed lease/owner or regressed expiry")
    (!(a.controlEpoch == old.2.controlEpoch && a.state == "active") ||
      (old.2.state != "revoked" && old.2.leaseId == a.leaseId &&
        sameUser old.1.target next.target && old.2.expiresUnixMs ≤ a.expiresUnixMs))

structure PublishEnv where
  /-- Root, the control directory, the lock and the staging area are in order. -/
  hostOk : Bool
  snapshotUnreadable : Bool
  /-- The files of the retired protocol, as reading them turned out. -/
  legacyFenced : Except IoError (List UInt8)
  legacyAuthority : Except IoError (List UInt8)
  /-- The session that the target's Helper announces. -/
  discovered : Except IoError SessionKey
  /-- The login generation of the target's account, if the authority can be bound to it. -/
  account : Except IoError (Option ℕ)
  now₁ : ℤ
  now₂ : ℤ
  now₃ : ℤ

/-- Read a root-owned file: missing, unreadable, over the limit, or its content. -/
def rootFile (file : Option (List UInt8)) (unreadable : Bool) : Except IoError (List UInt8) :=
  match file with
  | none => .error ⟨.notFound, "not found"⟩
  | some raw =>
    if unreadable || maxRequest < raw.length then
      .error (deny "invalid root-owned input file")
    else .ok raw

/-- A file of the retired protocol admits only a revocation that follows it. -/
def checkLegacy (file : Except IoError (List UInt8)) (next : BoundAuthority ν) (a : Authority) :
    Except IoError Unit :=
  match file with
  | .ok previous => do
    ensure (deny "unfenced authority must be revoked before activation") (a.state == "revoked")
    transition codec previous next a
  | .error e => ensure e (e.kind == .notFound)

/-- Compare a record with the stored snapshot or, before the first one, with the old files. -/
def checkPrevious (env : PublishEnv) (snapshot : Option (List UInt8)) (next : BoundAuthority ν)
    (a : Authority) : Except IoError Unit :=
  match rootFile snapshot env.snapshotUnreadable with
  | .ok previous => transition codec previous next a
  | .error e => do
    ensure e (e.kind == .notFound)
    checkLegacy codec env.legacyFenced next a
    checkLegacy codec env.legacyAuthority next a

/-- The login generation a target is bound to, once its Helper is found unchanged. -/
def bindTarget (env : PublishEnv) : Option SessionKey → Except IoError (Option ℕ)
  | none => .ok none
  | some target => do
    let found ← env.discovered
    ensure (deny "Helper changed before authorization") (found == target)
    env.account

/-- The text that a publication is about to rename onto the snapshot. -/
def publish (env : PublishEnv) (snapshot : Option (List UInt8)) (stdin : List UInt8) :
    Except IoError (List UInt8) := do
  let (bound, a) ← record codec (stdin.take (maxRequest + 1))
  ensure (deny "account login version is derived by the Guest") bound.loginGeneration.isNone
  fresh a env.now₁
  ensure (deny "unsafe authority lock") env.hostOk
  checkPrevious codec env snapshot bound a
  let generation ← bindTarget env bound.target
  fresh a env.now₂
  match codec.toVec { bound with loginGeneration := generation } with
  | none => .error (otherError "encoding")
  | some raw => do
    fresh a env.now₃
    pure raw

structure ActionRequest where
  leaseId : String
  controlEpoch : ℤ
  expiresUnixMs : ℤ
  deriving DecidableEq, Repr

/-- The check of an action against the snapshot; `account` is the outcome of the check of its
login. -/
def validateAuthority (account : SessionKey → Authority → Option ℕ → Bool)
    (snapshot : Option (List UInt8)) (unreadable : Bool) (key : SessionKey)
    (request : ActionRequest) (now₁ now₂ : ℤ) : Except String Unit := do
  let raw ← (rootFile snapshot unreadable).mapError fun _ => "root-owned authority unavailable"
  match decode codec raw with
  | none => .error "invalid authority"
  | some (bound, a) => do
    ensure "desktop control authority has changed"
      (bound.schemaVersion == version && bound.target == some key &&
        a.schemaVersion == schemaVersion && a.state == "active" &&
        a.leaseId == request.leaseId && a.controlEpoch == request.controlEpoch &&
        now₁ < a.expiresUnixMs && now₂ < request.expiresUnixMs)
    ensure "Agent account login authority has changed" (account key a bound.loginGeneration)

/-- A call of the publisher: its environment, its input, and whether it got past the rename. -/
structure Call where
  env : PublishEnv
  stdin : List UInt8
  renamed : Bool

/-- The snapshot file across calls; a failed or interrupted call leaves it as it was. -/
def machine : Machine (Option (List UInt8)) Call where
  Init s := s = none
  step s call :=
    match publish codec call.env s call.stdin with
    | .ok raw => some (if call.renamed then some raw else s)
    | .error _ => some s

section Spec

variable {codec} {raw previous : List UInt8} {next : BoundAuthority ν} {a : Authority}
  {old : BoundAuthority ν × Authority} {env : PublishEnv} {snapshot : Option (List UInt8)}

theorem transition_eq_ok : transition codec raw next a = .ok () ↔ ∃ old,
    record codec raw = .ok old ∧ (grantOf owner old).Admits (grantOf owner (next, a)) := by
  unfold transition
  rw [bind_eq_ok]
  apply exists_congr
  intro old
  refine and_congr_right fun hold => ?_
  obtain ⟨-, -, -, hv⟩ := boundRecord_eq_ok.mp hold
  rw [grantOf_admits_iff hv]
  simp only [seq_eq_ok, ensure_eq_ok, decide_eq_true_eq, Bool.or_eq_true,
    Bool.not_eq_true', Bool.and_eq_false_iff, beq_eq_false_iff_ne, Bool.and_eq_true, bne_iff_ne,
    beq_iff_eq, sameUser]
  tauto

/-- What a successful publication has established about the text it stores. -/
structure Published (codec : Codec ν) (env : PublishEnv) (snapshot : Option (List UInt8))
    (next : BoundAuthority ν × Authority) (raw : List UInt8) : Prop where
  decoded : ∃ b, decode codec raw = some (b, next.2) ∧ b.target = next.1.target ∧
    validRecord (· == "") b next.2 = true
  previous : ∀ old, snapshot = some old → transition codec old next.1 next.2 = .ok ()
  first : snapshot = none → ∀ file ∈ [env.legacyFenced, env.legacyAuthority],
    (∃ old, file = .ok old ∧ next.2.state = "revoked" ∧
      transition codec old next.1 next.2 = .ok ()) ∨ ∃ e, file = .error e ∧ e.kind = .notFound

theorem checkLegacy_eq_ok {file : Except IoError (List UInt8)}
    (h : checkLegacy codec file next a = .ok ()) :
    (∃ old, file = .ok old ∧ a.state = "revoked" ∧ transition codec old next a = .ok ()) ∨
      ∃ e, file = .error e ∧ e.kind = .notFound := by
  cases file with
  | ok old =>
    simp only [checkLegacy, seq_eq_ok, ensure_eq_ok, beq_iff_eq] at h
    exact .inl ⟨old, rfl, h⟩
  | error e =>
    simp only [checkLegacy, ensure_eq_ok, beq_iff_eq] at h
    exact .inr ⟨e, rfl, h⟩

theorem rootFile_eq_ok {file : Option (List UInt8)} {unreadable : Bool}
    (h : rootFile file unreadable = .ok raw) : file = some raw := by
  unfold rootFile at h
  split at h
  · cases h
  · split at h
    · cases h
    · rw [Except.ok.inj h]

theorem publish_spec {stdin : List UInt8} (h : publish codec env snapshot stdin = .ok raw) :
    ∃ next, decode codec stdin = some next ∧ Published codec env snapshot next raw := by
  obtain ⟨next, hrec, h⟩ := bind_eq_ok.mp h
  simp only [seq_eq_ok] at h
  obtain ⟨-, -, -, hprev, h⟩ := h
  obtain ⟨g, -, h⟩ := bind_eq_ok.mp h
  rw [seq_eq_ok] at h
  obtain ⟨-, h⟩ := h
  split at h
  case h_1 => cases h
  case h_2 raw' hw =>
    rw [seq_eq_ok] at h
    cases h.2
    obtain ⟨-, hlen, hdec, hv⟩ := boundRecord_eq_ok.mp hrec
    obtain ⟨b, hb, hver, htar, -⟩ := decode_toVec hdec hw
    have htake : stdin.take (maxRequest + 1) = stdin := by
      apply List.take_of_length_le
      rw [List.length_take] at hlen
      omega
    refine ⟨next, htake ▸ hdec, ⟨b, hb, htar, ?_⟩, ?_, ?_⟩
    · unfold validRecord at hv ⊢
      rwa [hver, htar]
    · rintro old rfl
      unfold checkPrevious at hprev
      split at hprev
      case h_1 previous hread =>
        cases rootFile_eq_ok hread
        exact hprev
      case h_2 e hread =>
        simp only [rootFile] at hread
        split at hread
        · cases hread
          simp [deny] at hprev
        · cases hread
    · rintro rfl file hfile
      simp only [checkPrevious, rootFile, seq_eq_ok] at hprev
      obtain ⟨-, h₁, h₂⟩ := hprev
      simp only [List.mem_cons, List.not_mem_nil, or_false] at hfile
      rcases hfile with rfl | rfl
      · exact checkLegacy_eq_ok h₁
      · exact checkLegacy_eq_ok h₂

/-- An action that passes carries the lease and the epoch of an active snapshot. -/
theorem validateAuthority_ok {account : SessionKey → Authority → Option ℕ → Bool}
    {unreadable : Bool} {key : SessionKey} {request : ActionRequest} {now₁ now₂ : ℤ}
    (h : validateAuthority codec account snapshot unreadable key request now₁ now₂ = .ok ()) :
    ∃ r, snapshot.bind (decode codec) = some r ∧ r.2.state = "active" ∧
      r.2.leaseId = request.leaseId ∧ r.2.controlEpoch = request.controlEpoch := by
  obtain ⟨raw, hraw, hcheck⟩ := bind_eq_ok.mp h
  obtain rfl := rootFile_eq_ok (mapError_eq_ok.mp hraw)
  split at hcheck
  case h_1 => cases hcheck
  case h_2 bound a hdec =>
    simp only [seq_eq_ok, ensure_eq_ok, Bool.and_eq_true, beq_iff_eq] at hcheck
    obtain ⟨⟨⟨⟨⟨⟨-, hs⟩, hl⟩, he⟩, -⟩, -⟩, -⟩ := hcheck
    exact ⟨(bound, a), hdec, hs, hl, he⟩

end Spec

section History

variable {codec} {s t : Option (List UInt8)} {r : BoundAuthority ν × Authority} {call : Call}
  {env : PublishEnv} {next : BoundAuthority ν × Authority} {raw : List UInt8}

def stored (codec : Codec ν) (s : Option (List UInt8)) : Option (BoundAuthority ν × Authority) :=
  s.bind (decode codec)

def PublishEnv.LegacyExists (env : PublishEnv) : Prop :=
  ∃ file ∈ [env.legacyFenced, env.legacyAuthority], ∀ e, file = .error e → e.kind ≠ .notFound

theorem step_cases (h : (machine codec).step s call = some t) :
    t = s ∨ ∃ next raw, t = some raw ∧ Published codec call.env s next raw := by
  simp only [machine] at h
  split at h
  case h_1 raw hpub =>
    cases h
    split
    · obtain ⟨next, -, hnext⟩ := publish_spec hpub
      exact .inr ⟨next, raw, rfl, hnext⟩
    · exact .inl rfl
  case h_2 => exact .inl (Option.some.inj h).symm

theorem stored_of_published (h : Published codec env s next raw) :
    ∃ r, stored codec (some raw) = some r ∧ r.2 = next.2 ∧
      grantOf owner r = grantOf owner next := by
  obtain ⟨b, hb, htar, -⟩ := h.decoded
  refine ⟨(b, next.2), hb, rfl, ?_⟩
  simp [grantOf, htar]

theorem stored_isSome (hs : (machine codec).Reachable s) (hne : s ≠ none) :
    ∃ r, stored codec s = some r := by
  refine hs.invariant (P := fun s => s ≠ none → ∃ r, stored codec s = some r) ?_ ?_ hne
  · intro s hs hne
    exact absurd hs hne
  · intro s call t _ hs h hne
    rcases step_cases h with rfl | ⟨next, raw, rfl, hnext⟩
    · exact hs hne
    · obtain ⟨r, hr, -⟩ := stored_of_published hnext
      exact ⟨r, hr⟩

theorem admits_of_published (h : Published codec env s next raw) (hr : stored codec s = some r) :
    (grantOf owner r).Admits (grantOf owner next) := by
  obtain ⟨old, rfl, hold⟩ := Option.bind_eq_some_iff.mp hr
  obtain ⟨old', hrec, hadm⟩ := transition_eq_ok.mp (h.previous old rfl)
  obtain ⟨-, -, hdec, -⟩ := boundRecord_eq_ok.mp hrec
  cases hold.symm.trans hdec
  exact hadm

theorem admits_step (h : (machine codec).step s call = some t) (hr : stored codec s = some r) :
    ∃ r', stored codec t = some r' ∧ (grantOf owner r).Admits (grantOf owner r') := by
  rcases step_cases h with rfl | ⟨next, raw, rfl, hnext⟩
  · exact ⟨r, hr, .refl _⟩
  · obtain ⟨r', hr', -, hgrant⟩ := stored_of_published hnext
    exact ⟨r', hr', by rw [hgrant]; exact admits_of_published hnext hr⟩

theorem admits_of_leads (h : (machine codec).Leads s t) (hr : stored codec s = some r) :
    ∃ r', stored codec t = some r' ∧ (grantOf owner r).Admits (grantOf owner r') :=
  h.carries (R := fun r r' => (grantOf owner r).Admits (grantOf owner r'))
    (fun _ => .refl _) (fun _ _ _ => Grant.Admits.trans) (fun _ _ _ _ => admits_step) hr

/-- The Linux fence over every sequence of publications and crashes: every snapshot is readable,
epochs never go back, and a revoked one is never active again. -/
theorem linux_authority_fence (hs : (machine codec).Reachable s) :
    (s ≠ none → ∃ r, stored codec s = some r) ∧
    (∀ t r, (machine codec).Leads s t → stored codec s = some r → ∃ r', stored codec t = some r' ∧
      r.2.controlEpoch ≤ r'.2.controlEpoch ∧
      (r.2.state = "revoked" → r'.2.state = "active" → r.2.controlEpoch < r'.2.controlEpoch) ∧
      (r.2.state = "active" → r'.2.state = "active" → r'.2.controlEpoch = r.2.controlEpoch →
        r'.2.leaseId = r.2.leaseId ∧ r'.1.target.map owner = r.1.target.map owner ∧
        r.2.expiresUnixMs ≤ r'.2.expiresUnixMs)) ∧
    (s = none → ∀ call t r, call.env.LegacyExists → (machine codec).step s call = some t →
      stored codec t = some r → r.2.state ≠ "active") := by
  refine ⟨stored_isSome hs, fun t r ht hr => ?_, ?_⟩
  · obtain ⟨r', hr', hadm⟩ := admits_of_leads ht hr
    refine ⟨r', hr', hadm.1, fun hrev hact => ?_, fun _ hact heq => ?_⟩
    · exact hadm.epoch_lt (by simp [grantOf, hrev]) (by simp [grantOf, hact])
    · obtain ⟨-, hholder, hle⟩ := hadm.2 heq (by simp [grantOf, hact])
      rw [Prod.mk.injEq] at hholder
      exact ⟨hholder.1.symm, hholder.2.symm, hle⟩
  · rintro rfl call t r ⟨file, hfile, hex⟩ h hr hact
    rcases step_cases h with rfl | ⟨next, raw, rfl, hnext⟩
    · cases hr
    · obtain ⟨r', hr', hauth, -⟩ := stored_of_published hnext
      cases hr'.symm.trans hr
      rcases hnext.first rfl file hfile with ⟨_, _, hrev, _⟩ | ⟨e, he, hkind⟩
      · rw [← hauth, hact] at hrev
        simp at hrev
      · exact hex e he hkind

end History

section Sample

def sampleKey : SessionKey :=
  ⟨"vca0123456789ab", 1001, "", "linux:1001:123::10",
    "aaaaaaaaaaaaaaaaaaaaaaaaaaaaaaaaaaaaaaaaaaaaaaaaaaaaaaaaaaaaaaaa"⟩

def sampleActive (lease : String) (epoch : ℤ) (login : Option ℕ) : BoundAuthority Authority :=
  ⟨2, some sampleKey, ⟨1, lease, epoch, "active", 900⟩, login⟩

def sampleRevoked : BoundAuthority Authority := ⟨2, none, ⟨1, "lease_a", 1, "revoked", 0⟩, none⟩

/-- An activation at epoch one, its revocation, and an activation at epoch two; the activations are
stored with a login. -/
def sampleTable : List (BoundAuthority Authority) :=
  [sampleActive "lease_a" 1 none, sampleActive "lease_a" 1 (some 7), sampleRevoked,
    sampleActive "lease_b" 2 none, sampleActive "lease_b" 2 (some 7)]

def sampleCall (next : BoundAuthority Authority) : Call where
  env :=
    { hostOk := true, snapshotUnreadable := false
      legacyFenced := .error ⟨.notFound, "not found"⟩
      legacyAuthority := .error ⟨.notFound, "not found"⟩
      discovered := .ok sampleKey, account := .ok (some 7), now₁ := 100, now₂ := 100, now₃ := 100 }
  stdin := next.encode
  renamed := true

/-- A revoked snapshot is stored, and the activation of the next epoch replaces it. -/
theorem linux_authority_fence_reactivated :
    ∃ s t r r', (machine (tableCodec sampleTable)).Reachable s ∧
      stored (tableCodec sampleTable) s = some r ∧ r.2.state = "revoked" ∧
      stored (tableCodec sampleTable) t = some r' ∧ r'.2.state = "active" ∧
      r.2.controlEpoch < r'.2.controlEpoch := by
  obtain ⟨s, hs, rfl⟩ : ∃ s, (machine (tableCodec sampleTable)).Reachable s ∧
      s = some sampleRevoked.encode :=
    Machine.exists_reachable_of_run none
      [sampleCall (sampleActive "lease_a" 1 none), sampleCall sampleRevoked] rfl (by decide +kernel)
  have ht : (machine (tableCodec sampleTable)).Leads (some sampleRevoked.encode)
      (some (sampleActive "lease_b" 2 (some 7)).encode) :=
    ⟨[sampleCall (sampleActive "lease_b" 2 none)], by decide +kernel⟩
  obtain ⟨r', hr', -, hlt, -⟩ := (linux_authority_fence hs).2.1 _
    (sampleRevoked, sampleRevoked.authority) ht (by decide +kernel)
  obtain rfl : r' = (sampleActive "lease_b" 2 (some 7), ⟨1, "lease_b", 2, "active", 900⟩) :=
    Option.some.inj (hr'.symm.trans (by decide +kernel))
  exact ⟨_, _, _, _, hs, by decide +kernel, rfl, hr', rfl, hlt rfl rfl⟩

end Sample

end VcWorkspace.Session.Linux
