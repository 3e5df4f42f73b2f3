import VcWorkspace.Store.GatewayLedger

/-! # Updates of access policies

An update reads the policy of a desktop, merges its fields into it and writes
all of them back; then the Guest applies the policy and the outcome is marked at
the revision that was written. The control lock of the desktop is held all the
time, but everybody may mark, read and write policies without it.
-/

namespace VcWorkspace.Server.AccessPolicy

open Transition Store Option Function List

section Model

/-- The body of an update. Only the privilege mode must be there. -/
structure Request where
  privilegeMode : PrivilegeMode
  clipboardRedirection : Option Bool
  driveRedirection : Option Bool
  managedBackground : Option Bool
  deriving DecidableEq, Repr

def Request.merge (r : Request) (current : SessionControls) : SessionControls where
  privilegeMode := r.privilegeMode
  clipboardRedirection := r.clipboardRedirection.getD current.clipboardRedirection
  driveRedirection := r.driveRedirection.getD current.driveRedirection
  managedBackground := r.managedBackground.getD current.managedBackground

inductive Call
  /-- `updateDesktopAccessPolicy`, and whether the desktop was running before the lock. -/
  | update (vmid : ℕ) (request : Request) (running : Bool)
  /-- `reconcileDesktopAccessPolicy`. Its callers hold the lock, but nothing here needs that. -/
  | reconcile (vmid : ℕ)
  deriving DecidableEq, Repr

def Call.vmid : Call → ℕ
  | .update vmid _ _ => vmid
  | .reconcile vmid => vmid

inductive Phase
  | lock
  /-- `EnsureDesktopAccessPolicy`: the insert and the read. -/
  | ensure
  | read
  | put (current : DesktopAccessPolicy)
  /-- `applyDesktopAccessPolicy`: the commands in the Guest, and the mark after them. -/
  | apply (policy : DesktopAccessPolicy)
  | markApplied (policy : DesktopAccessPolicy) (os : Option OsFamily)
  | markFailed (policy : DesktopAccessPolicy)
  | done (result : Option DesktopAccessPolicy)
  deriving DecidableEq, Repr

def Call.first : Call → Phase
  | .update _ _ _ => .lock
  | .reconcile _ => .ensure

inductive Write
  | request (r : Request)
  | direct
  deriving DecidableEq, Repr

/-- The tables, the holder of each control lock, the calls, and the writes of each desktop's
controls, latest first. -/
structure State where
  store : GatewayStore
  holder : ℕ → Option ℕ
  calls : List (Call × Phase)
  writes : ℕ → List Write

inductive Action
  | call (c : Call)
  /-- The next statement of a call. Commands in a Guest fail, or find its operating system. -/
  | next (i : ℕ) (guest : Option (Option OsFamily))
  /-- A call is given up. -/
  | abort (i : ℕ)
  /-- A transaction of anybody, at a time of the database. -/
  | transaction (op : GatewayOp) (now : ℕ)

/-- `DesktopAccessPolicyByVMID`. -/
def policyOf (g : GatewayStore) (vmid : ℕ) : Option DesktopAccessPolicy :=
  g.policies.find? (·.vmid == vmid)

def direct (writes : ℕ → List Write) : GatewayOp → ℕ → List Write
  | .putDesktopAccessPolicy vmid _ => update writes vmid (.direct :: writes vmid)
  | _ => writes

namespace State

variable (s : State)

def policy (vmid : ℕ) : Option DesktopAccessPolicy := policyOf s.store vmid

def set (i : ℕ) (c : Call) (p : Phase) : State := { s with calls := s.calls.set i (c, p) }

def finish (i : ℕ) (c : Call) (result : Option DesktopAccessPolicy) : State :=
  { s.set i c (.done result) with
    holder := if s.holder c.vmid = some i then update s.holder c.vmid none else s.holder }

def next (i : ℕ) (c : Call) (guest : Option (Option OsFamily)) : Phase → Option State
  | .lock =>
    if c.vmid = 0 then some (s.finish i c none)
    else if (s.holder c.vmid).isSome then none
    else some { s.set i c .ensure with holder := update s.holder c.vmid (some i) }
  | .ensure =>
    match s.store.ensureDesktopAccessPolicy c.vmid with
    | .error _ => some (s.finish i c none)
    | .ok g => some { s.set i c .read with store := g }
  | .read =>
    match s.policy c.vmid with
    | none => some (s.finish i c none)
    | some p => some (s.set i c (match c with
        | .update _ _ _ => .put p
        | .reconcile _ => .apply p))
  | .put current =>
    match c with
    | .reconcile _ => none
    | .update vmid r running =>
      match s.store.putDesktopAccessPolicy vmid (r.merge current.controls) with
      | .error _ => some (s.finish i c none)
      | .ok g =>
        let written := { s with
          store := g
          writes := update s.writes vmid (.request r :: s.writes vmid) }
        match written.policy vmid with
        | none => some (written.finish i c none)
        | some p =>
          some (if running then written.set i c (.apply p) else written.finish i c (some p))
  | .apply p =>
    match guest with
    | none => some (s.set i c (.markFailed p))
    | some os => some (s.set i c (.markApplied p os))
  | .markApplied p os =>
    match s.store.markDesktopAccessPolicyApplied c.vmid p.desiredRevision os with
    | .error _ => some (s.set i c (.markFailed p))
    | .ok g => some ({ s with store := g }.finish i c (policyOf g c.vmid))
  | .markFailed p =>
    -- An update answers with what it has; a reconciliation fails.
    let answer := fun p => match c with
      | .update _ _ _ => p
      | .reconcile _ => none
    match s.store.markDesktopAccessPolicyFailed c.vmid p.desiredRevision p.osFamily with
    | .error _ => some (s.finish i c (answer (some p)))
    | .ok g => some ({ s with store := g }.finish i c (answer (policyOf g c.vmid)))
  | .done _ => none

variable (sha256 : Sha256)

def step : Action → Option State
  | .call c => some { s with calls := s.calls ++ [(c, c.first)] }
  | .next i guest => s.calls[i]?.bind fun (c, p) => s.next i c guest p
  | .abort i => s.calls[i]?.map fun (c, _) => s.finish i c none
  | .transaction op now =>
    match op.apply sha256 now s.store with
    | .error _ => some s
    | .ok g => some { s with store := g, writes := direct s.writes op }

def marks : Action → Option (ℕ × ℕ)
  | .transaction (.markDesktopAccessPolicyApplied vmid revision _) _ => some (vmid, revision)
  | .transaction (.markDesktopAccessPolicyFailed vmid revision _) _ => some (vmid, revision)
  | .next i _ =>
    match s.calls[i]? with
    | some (c, .markApplied p _) => some (c.vmid, p.desiredRevision)
    | some (c, .markFailed p) => some (c.vmid, p.desiredRevision)
    | _ => none
  | _ => none

end State

/-- The applied revision is behind the desired one, and is that one in the state `applied`. -/
structure Consistent (p : DesktopAccessPolicy) : Prop where
  le : p.appliedRevision ≤ p.desiredRevision
  eq : p.state = .applied → p.appliedRevision = p.desiredRevision

def handlers (sha256 : Sha256) : Machine State Action where
  Init s := (∀ vmid p, s.policy vmid = some p → Consistent p) ∧ s.holder = (fun _ => none) ∧
    s.calls = [] ∧ s.writes = fun _ => []
  step s a := s.step sha256 a

end Model

section Statements

variable {g g' : GatewayStore} {vmid v : ℕ} {p q : DesktopAccessPolicy}
  {row row' : Option DesktopAccessPolicy} {controls : SessionControls}

/-- What statements other than a put make of the row of a desktop. -/
inductive Turn : Option DesktopAccessPolicy → Option DesktopAccessPolicy → Prop
  | keep (row : Option DesktopAccessPolicy) : Turn row row
  | insert (vmid : ℕ) : Turn none (some ⟨vmid, GatewayStore.defaultControls, 1, 0, .pending, none⟩)
  | applied (p : DesktopAccessPolicy) (os : Option OsFamily) : Turn (some p)
      (some { p with appliedRevision := p.desiredRevision, state := .applied, osFamily := os })
  | failed (p : DesktopAccessPolicy) (os : Option OsFamily) : Turn (some p)
      (some { p with state := .failed, osFamily := os })

def putRow (vmid : ℕ) (controls : SessionControls) :
    Option DesktopAccessPolicy → DesktopAccessPolicy
  | none => ⟨vmid, controls, 1, 0, .pending, none⟩
  | some p =>
    { p with
      controls := controls, state := .pending
      desiredRevision := if p.controls = controls then p.desiredRevision
        else p.desiredRevision + 1 }

/-- A later version of a row: of the same revision only with the same controls. -/
structure Follows (p q : DesktopAccessPolicy) : Prop where
  le : p.desiredRevision ≤ q.desiredRevision
  eq : q.desiredRevision = p.desiredRevision → q.controls = p.controls

theorem Follows.refl (p : DesktopAccessPolicy) : Follows p p := ⟨le_rfl, fun _ => rfl⟩

theorem Follows.trans {r : DesktopAccessPolicy} (h : Follows p q) (h' : Follows q r) :
    Follows p r := by
  refine ⟨h.le.trans h'.le, fun heq => ?_⟩
  have hq : q.desiredRevision = p.desiredRevision := le_antisymm (heq ▸ h'.le) h.le
  exact (h'.eq (heq.trans hq.symm)).trans (h.eq hq)

theorem Turn.consistent (h : Turn row row') (hrow : ∀ p, row = some p → Consistent p)
    (hp : row' = some p) : Consistent p := by
  cases h with
  | keep => exact hrow p hp
  | insert vmid =>
    cases hp
    exact ⟨Nat.zero_le 1, nofun⟩
  | applied r os =>
    cases hp
    exact ⟨le_rfl, fun _ => rfl⟩
  | failed r os =>
    cases hp
    exact ⟨(hrow r rfl).le, nofun⟩

theorem Turn.exists_of_some (h : Turn (some p) row') : ∃ q, row' = some q ∧
    q.desiredRevision = p.desiredRevision ∧ q.controls = p.controls := by
  cases h with
  | keep => exact ⟨p, rfl, rfl, rfl⟩
  | applied _ | failed _ => exact ⟨_, rfl, rfl, rfl⟩

theorem consistent_putRow (hrow : ∀ p, row = some p → Consistent p) :
    Consistent (putRow vmid controls row) := by
  cases row with
  | none => exact ⟨Nat.zero_le 1, nofun⟩
  | some p =>
    refine ⟨(hrow p rfl).le.trans ?_, nofun⟩
    simp only [putRow]
    split
    · exact le_rfl
    · exact Nat.le_succ _

theorem follows_putRow (p : DesktopAccessPolicy) : Follows p (putRow vmid controls (some p)) := by
  simp only [putRow]
  by_cases hc : p.controls = controls
  · refine ⟨?_, fun _ => hc.symm⟩
    simp only [if_pos hc, le_refl]
  · refine ⟨?_, fun heq => ?_⟩
    · simp only [if_neg hc, Nat.le_succ]
    · simp only [if_neg hc, Nat.succ_ne_self] at heq

theorem controls_putRow : (putRow vmid controls row).controls = controls := by
  cases row <;> rfl

theorem policyOf_upsert {new : DesktopAccessPolicy} (hf : ∀ p, (f p).vmid = p.vmid)
    (hnew : new.vmid = vmid) :
    policyOf { g with policies := upsert (·.vmid == vmid) f new g.policies } v =
      if v = vmid then some (((policyOf g vmid).map f).getD new) else policyOf g v := by
  simp only [policyOf, upsert]
  split
  next hany =>
    rw [find_updateWhere fun r _ => by rw [hf]]
    split
    next hv =>
      subst hv
      cases hfind : g.policies.find? (·.vmid == v) with
      | none =>
        obtain ⟨r, hr, hrv⟩ := any_eq_true.mp hany
        exact absurd hrv (find?_eq_none.mp hfind r hr)
      | some r =>
        have hrv : r.vmid = v := by simpa using find?_some hfind
        simp [hrv]
    next hv =>
      cases hfind : g.policies.find? (·.vmid == v) with
      | none => rfl
      | some r =>
        have hrv : r.vmid = v := by simpa using find?_some hfind
        simp [hrv, hv]
  next hany =>
    have hnone : g.policies.find? (·.vmid == vmid) = none := by
      simpa [find?_eq_none] using hany
    split
    next hv => simp [hv, hnone, hnew]
    next hv => simp [hnew, Ne.symm hv]

theorem turn_of_ensure (h : g.ensureDesktopAccessPolicy vmid = .ok g') (v : ℕ) :
    Turn (policyOf g v) (policyOf g' v) := by
  simp only [GatewayStore.ensureDesktopAccessPolicy, seq_eq_ok] at h
  cases h.2
  rw [@policyOf_upsert g vmid v id _ (fun _ => rfl) rfl]
  split
  next hv =>
    subst hv
    cases policyOf g v with
    | none => exact .insert v
    | some p => exact .keep _
  · exact .keep _

theorem policyOf_put (h : g.putDesktopAccessPolicy vmid controls = .ok g') : policyOf g' v =
      if v = vmid then some (putRow vmid controls (policyOf g vmid)) else policyOf g v := by
  simp only [GatewayStore.putDesktopAccessPolicy, seq_eq_ok] at h
  cases h.2.2
  rw [@policyOf_upsert g vmid v _ _ (fun _ => ?_) rfl]
  · cases policyOf g vmid <;> rfl
  · rfl

theorem policyOf_mark (h : g.markDesktopAccessPolicy vmid revision f = .ok g')
    (hf : ∀ p, (f p).vmid = p.vmid) : policyOf g' v = (policyOf g v).map fun p =>
      if p.vmid == vmid && p.desiredRevision == revision then f p else p := by
  simp only [GatewayStore.markDesktopAccessPolicy, seq_eq_ok] at h
  cases h.2
  exact find_updateWhere fun p _ => by rw [hf]

theorem turn_of_markApplied (h : g.markDesktopAccessPolicyApplied vmid revision os = .ok g') (v : ℕ)
    : Turn (policyOf g v) (policyOf g' v) := by
  rw [policyOf_mark h fun _ => rfl]
  cases policyOf g v with
  | none => exact .keep none
  | some p =>
    simp only [map_some]
    split
    next hp =>
      obtain rfl : p.desiredRevision = revision := by simpa using (Bool.and_eq_true_iff.mp hp).2
      exact .applied p os
    · exact .keep _

theorem turn_of_markFailed (h : g.markDesktopAccessPolicyFailed vmid revision os = .ok g') (v : ℕ) :
    Turn (policyOf g v) (policyOf g' v) := by
  rw [policyOf_mark h fun _ => rfl]
  cases policyOf g v with
  | none => exact .keep none
  | some p =>
    simp only [map_some]
    split
    · exact .failed p os
    · exact .keep _

theorem mark_stale (h : ∀ p ∈ g.policies, p.vmid = vmid → p.desiredRevision ≠ revision) :
    g.markDesktopAccessPolicy vmid revision f = .error .notFound := by
  have hnone : g.policies.any (fun p => p.vmid == vmid && p.desiredRevision == revision) =
      false := by
    simpa using h
  simp only [GatewayStore.markDesktopAccessPolicy, hnone]
  rfl

variable {sha256 : Sha256} {now : ℕ} {op : GatewayOp}
  {f : DesktopAccessPolicy → DesktopAccessPolicy} {revision : ℕ} {os : Option OsFamily}

theorem turn_of_apply (h : op.apply sha256 now g = .ok g')
    (hop : ∀ vmid controls, op ≠ .putDesktopAccessPolicy vmid controls) (v : ℕ) :
    Turn (policyOf g v) (policyOf g' v) := by
  have hframe (hp : g'.policies = g.policies) : Turn (policyOf g v) (policyOf g' v) := by
    rw [policyOf, policyOf, hp]
    exact .keep _
  cases op with
  | access op =>
    obtain ⟨x, -, h⟩ := bind_eq_ok.mp h
    cases h
    exact hframe rfl
  | putIdentityProfile profile =>
    cases h
    exact hframe rfl
  | ensureDesktopAccessPolicy vmid => exact turn_of_ensure h v
  | putDesktopAccessPolicy vmid controls => exact absurd rfl (hop vmid controls)
  | markDesktopAccessPolicyApplied vmid revision os => exact turn_of_markApplied h v
  | markDesktopAccessPolicyFailed vmid revision os => exact turn_of_markFailed h v
  | createNativeGatewayTicket request secret =>
    obtain ⟨t, -, rfl⟩ := GatewayLedger.creates_of_create h
    exact hframe rfl
  | redeemNativeGatewayTicket gateway token random =>
    obtain ⟨⟨x, t, grant⟩, hx, h⟩ := bind_eq_ok.mp h
    cases h
    obtain ⟨t, hl, -⟩ := GatewayLedger.redeem_ok hx
    exact hframe (hl.store ▸ rfl)
  | renewNativeGatewayGrant gateway tunnel =>
    obtain ⟨⟨x, t, grant⟩, hx, h⟩ := bind_eq_ok.mp h
    cases h
    obtain ⟨t, hl, -⟩ := GatewayLedger.renew_ok hx
    exact hframe (hl.store ▸ rfl)
  | closeNativeGatewayGrant gateway tunnel =>
    simp only [GatewayOp.apply, GatewayStore.closeNativeGatewayGrant, seq_eq_ok] at h
    cases h.2
    exact hframe rfl

end Statements

variable {s s' t : State} {i j : ℕ} {a : Action}

section Calls

variable {c d : Call} {p q : Phase} {sha256 : Sha256}
  {guest : Option (Option OsFamily)}

def Holds : Call → Phase → Prop
  | .reconcile _, _ => False
  | .update _ _ _, .lock => False
  | .update _ _ _, .done _ => False
  | .update _ _ _, _ => True

inductive Writes (s : State) (c : Call) (p : Phase) : State → Prop
  | nothing : Writes s c p s
  | turn {g : GatewayStore} (h : ∀ v, Turn (s.policy v) (policyOf g v)) :
    Writes s c p { s with store := g }
  | put {vmid : ℕ} {r : Request} {running : Bool} {current : DesktopAccessPolicy} {g : GatewayStore}
      (hc : c = .update vmid r running) (hp : p = .put current)
      (h : s.store.putDesktopAccessPolicy vmid (r.merge current.controls) = .ok g) :
    Writes s c p
      { s with store := g, writes := update s.writes vmid (.request r :: s.writes vmid) }

inductive Moves (s : State) (i : ℕ) (c : Call) (p : Phase) : State → Prop
  | lock (hp : p = .lock) (h : s.holder c.vmid = none) : Moves s i c p
      { s.set i c .ensure with holder := update s.holder c.vmid (some i) }
  | goes {t : State} (h : Writes s c p t) (q : Phase) (hholds : Holds c q → Holds c p)
      (hread : ∀ current, q = .put current → p = .read ∧ s.policy c.vmid = some current) :
    Moves s i c p (t.set i c q)
  | ends {t : State} (h : Writes s c p t) (result : Option DesktopAccessPolicy) :
    Moves s i c p (t.finish i c result)

theorem moves_of_next (h : s.next i c guest p = some s') : Moves s i c p s' := by
  cases p with
  | lock =>
    simp only [State.next] at h
    split at h
    · cases h
      exact .ends .nothing none
    · obtain ⟨hfree, h⟩ := ite_none_left_eq_some.mp h
      cases h
      exact .lock rfl (by simpa using hfree)
  | ensure =>
    simp only [State.next] at h
    split at h
    · cases h
      exact .ends .nothing none
    next g hg =>
      cases h
      exact .goes (.turn (turn_of_ensure hg)) .read (by cases c <;> exact id) nofun
  | read =>
    simp only [State.next] at h
    split at h
    · cases h
      exact .ends .nothing none
    next policy hpolicy =>
      cases h
      cases c with
      | update vmid r running =>
        refine .goes .nothing (.put policy) id ?_
        rintro _ ⟨⟩
        exact ⟨rfl, hpolicy⟩
      | reconcile vmid => exact .goes .nothing (.apply policy) id nofun
  | put current =>
    cases c with
    | reconcile vmid => cases h
    | update vmid r running =>
      simp only [State.next] at h
      split at h
      · cases h
        exact .ends .nothing none
      next g hg =>
        split at h
        · cases h
          exact .ends (.put rfl rfl hg) none
        next policy _ =>
          cases h
          split
          · exact .goes (.put rfl rfl hg) (.apply policy) id nofun
          · exact .ends (.put rfl rfl hg) (some policy)
  | apply policy =>
    simp only [State.next] at h
    split at h
    · cases h
      exact .goes .nothing (.markFailed policy) (by cases c <;> exact id) nofun
    next os =>
      cases h
      exact .goes .nothing (.markApplied policy os) (by cases c <;> exact id) nofun
  | markApplied policy os =>
    simp only [State.next] at h
    split at h
    · cases h
      exact .goes .nothing (.markFailed policy) (by cases c <;> exact id) nofun
    next g hg =>
      cases h
      exact .ends (.turn (turn_of_markApplied hg)) _
  | markFailed policy =>
    simp only [State.next] at h
    split at h
    · cases h
      exact .ends .nothing _
    next g hg =>
      cases h
      exact .ends (.turn (turn_of_markFailed hg)) _
  | done result => cases h

inductive Steps (sha256 : Sha256) (s : State) : Action → State → Prop
  | call (c : Call) : Steps sha256 s (.call c) { s with calls := s.calls ++ [(c, c.first)] }
  | next {i : ℕ} {c : Call} {p : Phase} {guest : Option (Option OsFamily)} {s' : State}
      (hget : s.calls[i]? = some (c, p)) (h : Moves s i c p s') : Steps sha256 s (.next i guest) s'
  | abort {i : ℕ} {c : Call} {p : Phase} (hget : s.calls[i]? = some (c, p)) :
    Steps sha256 s (.abort i) (s.finish i c none)
  | refused (op : GatewayOp) (now : ℕ) : Steps sha256 s (.transaction op now) s
  | commit {op : GatewayOp} {now : ℕ} {g : GatewayStore} (h : op.apply sha256 now s.store = .ok g) :
    Steps sha256 s (.transaction op now) { s with store := g, writes := direct s.writes op }

theorem steps_of_step (h : (handlers sha256).step s a = some s') : Steps sha256 s a s' := by
  cases a with
  | call c =>
    cases h
    exact .call c
  | next i guest =>
    obtain ⟨⟨c, p⟩, hget, h⟩ := bind_eq_some_iff.mp h
    exact .next hget (moves_of_next h)
  | abort i =>
    obtain ⟨⟨c, p⟩, hget, rfl⟩ := map_eq_some_iff.mp h
    exact .abort hget
  | transaction op now =>
    simp only [handlers, State.step] at h
    split at h
    · cases h
      exact .refused op now
    next g hg =>
      cases h
      exact .commit hg

theorem Writes.calls (h : Writes s c p t) : t.calls = s.calls := by
  cases h <;> rfl

theorem Writes.holder (h : Writes s c p t) : t.holder = s.holder := by
  cases h <;> rfl

def Locks (s : State) : Prop :=
  ∀ (j : ℕ) (d : Call) (q : Phase), s.calls[j]? = some (d, q) → Holds d q → s.holder d.vmid = some j

theorem Writes.locks (h : Writes s c p t) (hs : Locks s) : Locks t := by
  intro j d q hj hq
  rw [h.holder]
  exact hs j d q (h.calls ▸ hj) hq

theorem Locks.finish (h : Locks s) (result : Option DesktopAccessPolicy) :
    Locks (s.finish i c result) := by
  intro j d q hj hq
  rcases getElem?_set_cases hj with ⟨-, ⟨⟩⟩ | ⟨hij, hj⟩
  · exact absurd hq (by cases c <;> exact id)
  · have hheld := h j d q hj hq
    simp only [State.finish]
    split
    next hi =>
      rw [update_of_ne, hheld]
      intro heq
      exact hij (some.inj (hheld.symm.trans (heq ▸ hi)))
    · exact hheld

theorem locks_step (h : Locks s) (hs : Steps sha256 s a s') : Locks s' := by
  cases hs with
  | call c =>
    intro j d q hj hq
    rcases getElem?_concat_cases hj with hj | ⟨-, ⟨⟩⟩
    · exact h j d q hj hq
    · cases c <;> exact hq.elim
  | abort hget => exact h.finish none
  | refused | commit => exact h
  | next hget hmoves =>
    cases hmoves with
    | ends hw result => exact (hw.locks h).finish result
    | goes hw q hholds =>
      intro j d q' hj hq
      rcases getElem?_set_cases hj with ⟨rfl, ⟨⟩⟩ | ⟨-, hj⟩
      · exact (hw.locks h) _ _ _ (hw.calls ▸ hget) (hholds hq)
      · exact (hw.locks h) _ _ _ hj hq
    | lock hp hfree =>
      intro j d q hj hq
      rcases getElem?_set_cases hj with ⟨rfl, ⟨⟩⟩ | ⟨-, hj⟩
      · exact update_self ..
      · have hheld := h j d q hj hq
        simp only
        rw [update_of_ne, hheld]
        intro heq
        rw [heq, hfree] at hheld
        cases hheld

end Calls

section Policies

variable {sha256 : Sha256} {v : ℕ} {r : Request} {running : Bool}
  {current : DesktopAccessPolicy}

inductive Alters (s s' : State) : Prop
  | turn (h : ∀ v, Turn (s.policy v) (s'.policy v)) (hw : s'.writes = s.writes)
  | put (vmid : ℕ) (controls : SessionControls) (w : Write)
      (hrow : s'.policy vmid = some (putRow vmid controls (s.policy vmid)))
      (hrest : ∀ v, v ≠ vmid → s'.policy v = s.policy v)
      (hw : s'.writes = update s.writes vmid (w :: s.writes vmid))
      (hrequest : ∀ r, w = .request r → ∃ (i : ℕ) (running : Bool) (current : DesktopAccessPolicy),
        s.calls[i]? = some (.update vmid r running, .put current) ∧
          controls = r.merge current.controls ∧ ∀ d p, s'.calls[i]? ≠ some (d, .put p))

theorem Alters.keep (hs : s'.store = s.store) (hw : s'.writes = s.writes) : Alters s s' := by
  refine .turn (fun v => ?_) hw
  rw [State.policy, State.policy, hs]
  exact .keep _

theorem alters_of_writes {c : Call} {p : Phase} (hget : s.calls[i]? = some (c, p))
    (h : Writes s c p t) (hs : s'.store = t.store) (hw : s'.writes = t.writes)
    (hleft : ∀ x, p = .put x → ∀ d y, s'.calls[i]? ≠ some (d, .put y)) : Alters s s' := by
  cases h with
  | nothing => exact .keep hs hw
  | turn h =>
    refine .turn (fun v => ?_) hw
    rw [show s'.policy v = policyOf s'.store v from rfl, hs]
    exact h v
  | @put vmid r running current g hc hp h =>
    subst hc hp
    refine .put vmid (r.merge current.controls) (.request r) ?_ (fun v hv => ?_) hw ?_
    · rw [State.policy, hs]
      simp only [policyOf_put h, if_true, State.policy]
    · rw [State.policy, hs]
      simp only [policyOf_put h, if_neg hv, State.policy]
    · rintro _ ⟨⟩
      exact ⟨i, running, current, hget, rfl, hleft current rfl⟩

theorem alters_of_steps (h : Steps sha256 s a s') : Alters s s' := by
  cases h with
  | call | abort | refused => exact .keep rfl rfl
  | commit h =>
    rename_i op now g
    by_cases hop : ∃ vmid controls, op = .putDesktopAccessPolicy vmid controls
    · obtain ⟨vmid, controls, rfl⟩ := hop
      refine .put vmid controls .direct ?_ (fun v hv => ?_) rfl nofun
      · exact (policyOf_put h).trans (if_pos rfl)
      · exact (policyOf_put h).trans (if_neg hv)
    · simp only [not_exists] at hop
      refine .turn (turn_of_apply h hop) ?_
      cases op <;> first | rfl | exact absurd rfl (hop _ _)
  | next hget hmoves =>
    cases hmoves with
    | lock => exact .keep rfl rfl
    | goes hw q hholds hread =>
      refine alters_of_writes hget hw rfl rfl ?_
      rintro x rfl d y hy
      rcases getElem?_set_cases hy with ⟨-, hq⟩ | ⟨hne, -⟩
      · cases (hread y (Prod.mk.inj hq).2.symm).1
      · exact hne rfl
    | ends hw result =>
      refine alters_of_writes hget hw rfl rfl ?_
      rintro x rfl d y hy
      rcases getElem?_set_cases hy with ⟨-, hq⟩ | ⟨hne, -⟩
      · cases hq
      · exact hne rfl

theorem consistent_of_reachable (h : (handlers sha256).Reachable s) (v : ℕ)
    (p : DesktopAccessPolicy) (hp : s.policy v = some p) : Consistent p := by
  refine h.invariant (P := fun s => ∀ v p, s.policy v = some p → Consistent p)
    (fun s hs => hs.1) ?_ v p hp
  intro s a s' _ hs hstep v p hp
  cases alters_of_steps (steps_of_step hstep) with
  | turn ht => exact (ht v).consistent (hs v) hp
  | put vmid controls w hrow hrest =>
    rcases eq_or_ne v vmid with rfl | hv
    · cases hrow.symm.trans hp
      exact consistent_putRow (hs v)
    · exact hs v p (hrest v hv ▸ hp)

theorem follows_of_leads (h : (handlers sha256).Leads s t) {p : DesktopAccessPolicy}
    (hp : s.policy v = some p) : ∃ q, t.policy v = some q ∧ Follows p q := by
  refine h.carries (f := fun s => s.policy v) Follows.refl (fun _ _ _ => Follows.trans) ?_ hp
  intro s a s' p hstep hp
  cases alters_of_steps (steps_of_step hstep) with
  | turn ht =>
    obtain ⟨q, hq, hrev, hcontrols⟩ := (hp ▸ ht v : Turn (some p) (s'.policy v)).exists_of_some
    exact ⟨q, hq, hrev.ge, fun _ => hcontrols⟩
  | put vmid controls w hrow hrest =>
    rcases eq_or_ne v vmid with rfl | hv
    · exact ⟨_, hrow, hp ▸ follows_putRow p⟩
    · exact ⟨p, hrest v hv ▸ hp, .refl p⟩

/-- An update that is about to write has read the controls that are there, unless they were written
without the lock. -/
def Fresh (s : State) : Prop :=
  ∀ (j v : ℕ) (r : Request) (running : Bool) (current : DesktopAccessPolicy),
    s.calls[j]? = some (.update v r running, .put current) → (s.writes v).head? ≠ some .direct →
      ∃ p, s.policy v = some p ∧ p.controls = current.controls

theorem put_of_steps (h : Steps sha256 s a s')
    (hj : s'.calls[j]? = some (.update v r running, .put current)) :
    s.calls[j]? = some (.update v r running, .put current) ∨
      ∃ p, s'.policy v = some p ∧ p.controls = current.controls := by
  cases h with
  | call c =>
    rcases getElem?_concat_cases hj with hj | ⟨-, ⟨⟩⟩
    · exact .inl hj
  | abort hget =>
    rcases getElem?_set_cases hj with ⟨-, ⟨⟩⟩ | ⟨-, hj⟩
    exact .inl hj
  | refused | commit => exact .inl hj
  | next hget hmoves =>
    cases hmoves with
    | lock hp hfree =>
      rcases getElem?_set_cases hj with ⟨-, ⟨⟩⟩ | ⟨-, hj⟩
      exact .inl hj
    | ends hw result =>
      rcases getElem?_set_cases hj with ⟨-, ⟨⟩⟩ | ⟨-, hj⟩
      exact .inl (hw.calls ▸ hj)
    | goes hw q hholds hread =>
      rcases getElem?_set_cases hj with ⟨-, ⟨⟩⟩ | ⟨-, hj⟩
      · obtain ⟨rfl, hpolicy⟩ := hread current rfl
        cases hw with
        | nothing => exact .inr ⟨current, hpolicy, rfl⟩
        | turn ht =>
          have hturn := ht v
          rw [show s.policy v = some current from hpolicy] at hturn
          obtain ⟨p, hp, -, hcontrols⟩ := hturn.exists_of_some
          exact .inr ⟨p, hp, hcontrols⟩
        | put _ hp => cases hp
      · exact .inl (hw.calls ▸ hj)

theorem fresh_step (hl : Locks s) (h : Fresh s) (hs : Steps sha256 s a s') : Fresh s' := by
  intro j v r running current hj hdirect
  rcases put_of_steps hs hj with hold | hread
  · cases alters_of_steps hs with
    | turn ht hw =>
      obtain ⟨p, hp, hcontrols⟩ := h j v r running current hold (hw ▸ hdirect)
      obtain ⟨q, hq, -, hsame⟩ := (hp ▸ ht v : Turn (some p) (s'.policy v)).exists_of_some
      exact ⟨q, hq, hsame.trans hcontrols⟩
    | put vmid controls w hrow hrest hw hrequest =>
      rcases eq_or_ne v vmid with rfl | hv
      · cases w with
        | direct =>
          rw [hw, update_self] at hdirect
          exact absurd rfl hdirect
        | request r' =>
          -- Only the holder of the lock writes, and it is past its own write.
          obtain ⟨i, running', current', hi, -, hleft⟩ := hrequest r' rfl
          have hi : s.holder v = some i := hl i _ _ hi trivial
          have hj' : s.holder v = some j := hl j _ _ hold trivial
          cases hi.symm.trans hj'
          exact absurd hj (hleft _ _)
      · rw [hw, update_of_ne hv] at hdirect
        rw [hrest v hv]
        exact h j v r running current hold hdirect
  · exact hread

theorem merge_merge (r : Request) (controls : SessionControls) :
    r.merge (r.merge controls) = r.merge controls := by
  obtain ⟨mode, clipboard, drive, background⟩ := r
  cases clipboard <;> cases drive <;> cases background <;> rfl

structure Request.Compatible (r r' : Request) : Prop where
  privilegeMode : r.privilegeMode = r'.privilegeMode
  clipboardRedirection : ∀ x ∈ r.clipboardRedirection, ∀ y ∈ r'.clipboardRedirection, x = y
  driveRedirection : ∀ x ∈ r.driveRedirection, ∀ y ∈ r'.driveRedirection, x = y
  managedBackground : ∀ x ∈ r.managedBackground, ∀ y ∈ r'.managedBackground, x = y

theorem getD_getD_comm {x y : Option Bool} (h : ∀ a ∈ x, ∀ b ∈ y, a = b) (z : Bool) :
    x.getD (y.getD z) = y.getD (x.getD z) := by
  cases x with
  | none => rfl
  | some a =>
    cases y with
    | none => rfl
    | some b => exact h a rfl b rfl

theorem Request.Compatible.merge_comm {r' : Request} (h : r.Compatible r')
    (controls : SessionControls) : r.merge (r'.merge controls) = r'.merge (r.merge controls) := by
  simp [Request.merge, h.privilegeMode, getD_getD_comm h.clipboardRedirection,
    getD_getD_comm h.driveRedirection, getD_getD_comm h.managedBackground]

/-- The controls of a request that is followed by compatible ones are still there. -/
def Kept (s : State) : Prop :=
  ∀ (v : ℕ) (later : List Write) (r : Request) (older : List Write),
    s.writes v = later ++ .request r :: older →
      (∀ w ∈ later, ∃ r', w = .request r' ∧ r.Compatible r') →
      ∃ p, s.policy v = some p ∧ r.merge p.controls = p.controls

theorem kept_step (hf : Fresh s) (h : Kept s) (hs : Steps sha256 s a s') : Kept s' := by
  intro v later r older hwrites hlater
  cases alters_of_steps hs with
  | turn ht hw =>
    obtain ⟨p, hp, hmerge⟩ := h v later r older (hw ▸ hwrites) hlater
    obtain ⟨q, hq, -, hsame⟩ := (hp ▸ ht v : Turn (some p) (s'.policy v)).exists_of_some
    exact ⟨q, hq, hsame ▸ hmerge⟩
  | put vmid controls w hrow hrest hw hrequest =>
    rcases eq_or_ne v vmid with rfl | hv
    · rw [hw, update_self] at hwrites
      refine ⟨_, hrow, ?_⟩
      rw [controls_putRow]
      cases later with
      | nil =>
        cases hwrites
        obtain ⟨i, running, current, -, rfl, -⟩ := hrequest r rfl
        exact merge_merge r _
      | cons w' later =>
        obtain ⟨rfl, hbefore⟩ := cons.inj hwrites
        obtain ⟨r', rfl, hcompatible⟩ := hlater w (mem_cons_self ..)
        obtain ⟨i, running, current, hi, rfl, -⟩ := hrequest r' rfl
        have hlater' : ∀ w ∈ later, ∃ r', w = .request r' ∧ r.Compatible r' :=
          fun w hmem => hlater w (mem_cons_of_mem _ hmem)
        have hhead : (s.writes v).head? ≠ some .direct := by
          rw [hbefore]
          cases later with
          | nil => simp
          | cons w later =>
            obtain ⟨r'', rfl, -⟩ := hlater' w (mem_cons_self ..)
            simp
        obtain ⟨p, hp, hmerge⟩ := h v later r older hbefore hlater'
        obtain ⟨p', hp', hcontrols⟩ := hf i v r' running current hi hhead
        cases hp.symm.trans hp'
        rw [← hcontrols, hcompatible.merge_comm, hmerge]
    · rw [hw, update_of_ne hv] at hwrites
      rw [hrest v hv]
      exact h v later r older hwrites hlater

theorem kept_of_reachable (h : (handlers sha256).Reachable s) : Kept s := by
  refine (h.invariant (P := fun s => Locks s ∧ Fresh s ∧ Kept s) ?_ ?_).2.2
  · rintro s ⟨-, -, hcalls, hwrites⟩
    refine ⟨fun j d q hj => ?_, fun j v r running current hj => ?_, fun v later r older heq => ?_⟩
    · simp [hcalls] at hj
    · simp [hcalls] at hj
    · simp [hwrites] at heq
  · rintro s a s' - ⟨hl, hf, hk⟩ hstep
    have hs := steps_of_step hstep
    exact ⟨locks_step hl hs, fresh_step hl hf hs, kept_step hf hk hs⟩

theorem store_of_stale_mark {vmid revision : ℕ} (h : (handlers sha256).step s a = some s')
    (hmark : s.marks a = some (vmid, revision))
    (hstale : ∀ p ∈ s.store.policies, p.vmid = vmid → p.desiredRevision ≠ revision) :
    s'.store = s.store := by
  cases a with
  | call | abort => cases hmark
  | transaction op now =>
    cases op with
    | markDesktopAccessPolicyApplied vmid' revision' os =>
      cases hmark
      simp only [handlers, State.step, GatewayOp.apply,
        GatewayStore.markDesktopAccessPolicyApplied, mark_stale hstale] at h
      exact congrArg State.store (some.inj h).symm
    | markDesktopAccessPolicyFailed vmid' revision' os =>
      cases hmark
      simp only [handlers, State.step, GatewayOp.apply,
        GatewayStore.markDesktopAccessPolicyFailed, mark_stale hstale] at h
      exact congrArg State.store (some.inj h).symm
    | _ => cases hmark
  | next i guest =>
    obtain ⟨⟨c, p⟩, hget, h⟩ := bind_eq_some_iff.mp h
    simp only [State.marks, hget] at hmark
    cases p with
    | markApplied policy os =>
      cases hmark
      simp only [State.next, GatewayStore.markDesktopAccessPolicyApplied, mark_stale hstale] at h
      cases h
      rfl
    | markFailed policy =>
      cases hmark
      simp only [State.next, GatewayStore.markDesktopAccessPolicyFailed, mark_stale hstale] at h
      cases h
      rfl
    | _ => cases hmark

/-- Every run keeps the revisions in order and the controls of a revision; stale marks change
nothing, and an update stays until a request changes one of its fields. -/
theorem access_policy_revisions (h : (handlers sha256).Reachable s)
    (hst : (handlers sha256).Leads s t) : (∀ v p, s.policy v = some p → ∃ q, t.policy v = some q ∧
        p.desiredRevision ≤ q.desiredRevision ∧
        (q.desiredRevision = p.desiredRevision → q.controls = p.controls)) ∧
      (∀ v p, t.policy v = some p → p.appliedRevision ≤ p.desiredRevision ∧
        (p.state = .applied → p.appliedRevision = p.desiredRevision)) ∧
      (∀ a u vmid revision, (handlers sha256).step t a = some u →
        t.marks a = some (vmid, revision) →
        (∀ p ∈ t.store.policies, p.vmid = vmid → p.desiredRevision ≠ revision) →
        u.store = t.store) ∧
      ∀ (v : ℕ) (later : List Write) (r : Request) (older : List Write),
        t.writes v = later ++ .request r :: older →
        (∀ w ∈ later, ∃ r', w = .request r' ∧ r.Compatible r') →
        ∃ p, t.policy v = some p ∧ r.merge p.controls = p.controls := by
  refine ⟨fun v p hp => ?_, fun v p hp => ?_, fun a u vmid revision hu hmark hstale => ?_,
    kept_of_reachable (h.leads hst)⟩
  · obtain ⟨q, hq, hfollows⟩ := follows_of_leads hst hp
    exact ⟨q, hq, hfollows.le, hfollows.eq⟩
  · have hconsistent := consistent_of_reachable (h.leads hst) v p hp
    exact ⟨hconsistent.le, hconsistent.eq⟩
  · exact store_of_stale_mark hu hmark hstale

end Policies

section Sample

def sampleState : State :=
  ⟨⟨⟨⟨[], [], [], [], [], [], [], [], []⟩, ⟨[], [], [], [], [], []⟩⟩, [], [], []⟩,
    fun _ => none, [],
    fun _ => []⟩

theorem sampleState_init : (handlers sampleDigest).Init sampleState :=
  ⟨nofun, rfl, rfl, rfl⟩

/-- Two updates of a desktop that is off start before either has the lock. -/
def concurrently (r r' : Request) : List Action :=
  [.call (.update 100 r false), .call (.update 100 r' false)] ++
    replicate 4 (.next 0 none) ++ replicate 4 (.next 1 none)

theorem access_policy_revisions_concurrent : let r : Request := ⟨.standard, some false, none, none⟩
    let r' : Request := ⟨.standard, none, some true, none⟩
    ∃ t p, (handlers sampleDigest).Reachable t ∧ t.writes 100 = [.request r', .request r] ∧
      t.policy 100 = some p ∧ r.merge p.controls = p.controls := by
  intro r r'
  obtain ⟨t, ht, hwrites⟩ := Machine.exists_reachable_of_run (M := handlers sampleDigest)
    (P := fun t => t.writes 100 = [.request r', .request r]) sampleState (concurrently r r')
    sampleState_init (by decide +kernel)
  have hcompatible : r.Compatible r' := ⟨rfl, nofun, nofun, nofun⟩
  obtain ⟨p, hp, hmerge⟩ := (access_policy_revisions ht (.refl t)).2.2.2 100 [.request r'] r []
    hwrites (by simpa using hcompatible)
  exact ⟨t, p, ht, hwrites, hp, hmerge⟩

/-- A change of the privilege mode is lost to a change of the clipboard that states the mode both
have found. -/
theorem privilege_change_is_lost : let found := GatewayStore.defaultControls
    let r : Request := ⟨.localAdmin, none, none, none⟩
    let r' : Request := ⟨.standard, some false, none, none⟩
    r.merge found = { found with privilegeMode := .localAdmin } ∧
      r'.merge found = { found with clipboardRedirection := false } ∧
      ∃ t, (handlers sampleDigest).Reachable t ∧ t.writes 100 = [.request r', .request r] ∧
        (t.policy 100).map (·.controls) = some { found with clipboardRedirection := false } := by
  intro found r r'
  refine ⟨rfl, rfl, ?_⟩
  exact Machine.exists_reachable_of_run (M := handlers sampleDigest)
    (P := fun t => t.writes 100 = [.request r', .request r] ∧
      (t.policy 100).map (·.controls) = some { found with clipboardRedirection := false })
    sampleState (concurrently r r') sampleState_init (by decide +kernel)

end Sample

end VcWorkspace.Server.AccessPolicy
