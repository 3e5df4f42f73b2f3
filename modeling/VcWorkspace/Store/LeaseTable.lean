import Mathlib.Data.Int.Order.Basic
import Mathlib.Data.List.Perm.Basic
import VcWorkspace.Store.Account
import VcWorkspace.Transition.Machine

/-! # The epochs of the lease table

Every insertion and every update of `desktop_leases` runs through the triggers
of the table, whatever the statement writes. A lease takes the next epoch of its
desktop when it is inserted and when its state or epoch changes; a lease that
ends queues the revocation of its closing epoch.
-/

namespace VcWorkspace.Store.LeaseTable

open Transition List

/-- A row of `desktop_leases`; the state is a text without a constraint. -/
structure LeaseRow where
  id : String
  agentId : String
  desktopId : String
  state : String
  controlEpoch : ℤ
  deriving DecidableEq, Repr

/-- A row of `desktop_computer_revocations`. -/
structure RevocationRow where
  requestedRevision : ℕ
  completedRevision : ℕ
  controlEpoch : ℤ
  deriving DecidableEq, Repr

/-- The tables about leases. Desktops are named by the text of their number, as the triggers
compare them. -/
structure Tables where
  managed : List String
  epochs : String → Option ℕ
  /-- The leases in the order of their insertion; an update keeps the place of a lease. -/
  leases : List LeaseRow
  revocations : String → Option RevocationRow
  /-- The epochs that were ever given out, with their desktops. -/
  assigned : List (String × ℤ)

namespace Tables

def counter (t : Tables) (desktop : String) : ℤ := (t.epochs desktop).getD 0

end Tables

section Triggers

def nextEpoch (t : Tables) (new : LeaseRow) : Except StoreError (Tables × LeaseRow) := do
  ensure (.sql "P0002" "query returned no rows") (t.managed.contains new.desktopId)
  let n := (t.epochs new.desktopId).elim 1 (· + 1)
  ensure (.sql "22003" "bigint out of range") (n ≤ maxInt64)
  pure ({ t with
        epochs := Function.update t.epochs new.desktopId (some n)
        assigned := (new.desktopId, (n : ℤ)) :: t.assigned },
      { new with controlEpoch := n })

def assignDesktopComputerEpoch (t : Tables) (old : Option LeaseRow) (new : LeaseRow) :
    Except StoreError (Tables × LeaseRow) :=
  match old with
  | none => nextEpoch t new
  | some old => do
    ensure (.sql "P0001" "lease subject and desktop are immutable")
      (new.desktopId == old.desktopId && new.agentId == old.agentId)
    if new.state = old.state ∧ new.controlEpoch = old.controlEpoch then pure (t, new)
    else do
      ensure (.sql "P0001" "closed lease cannot reactivate")
        (old.state == "active" || new.state != "active")
      nextEpoch t new

def endsGrant (old new : LeaseRow) : Bool :=
  old.state == "active" && (new.state != "active" || new.controlEpoch != old.controlEpoch)

def requestRevocation (rev : Option RevocationRow) (epoch : ℤ) : RevocationRow :=
  match rev with
  | none => ⟨1, 0, epoch⟩
  | some rev => ⟨rev.requestedRevision + 1, rev.completedRevision, max rev.controlEpoch epoch⟩

def queueDesktopComputerRevocation (t : Tables) (old new : LeaseRow) :
    Except StoreError Tables :=
  if endsGrant old new && t.managed.contains old.desktopId then do
    let rev := requestRevocation (t.revocations old.desktopId) new.controlEpoch
    ensure (.sql "22003" "bigint out of range") (rev.requestedRevision ≤ maxInt64)
    ensure (.sql "23514" "desktop_computer_revocations_check")
      (0 < rev.controlEpoch && rev.completedRevision ≤ rev.requestedRevision)
    pure { t with revocations := Function.update t.revocations old.desktopId (some rev) }
  else pure t

end Triggers

section Statements

/-- The primary key and the index on the active lease of a desktop. -/
def uniqueIndexes (others : List LeaseRow) (new : LeaseRow) : Except StoreError Unit := do
  ensure (.sql "23505" "desktop_leases_pkey") (!others.any (·.id == new.id))
  ensure (.sql "23505" "desktop_leases_active_desktop_idx")
    (new.state != "active" || !others.any fun l =>
      l.state == "active" && l.desktopId == new.desktopId)

def insertLease (t : Tables) (row : LeaseRow) : Except StoreError Tables := do
  let (t, new) ← assignDesktopComputerEpoch t none row
  uniqueIndexes t.leases new
  pure { t with leases := t.leases ++ [new] }

def updateLease (t : Tables) (i : ℕ) (row : LeaseRow) : Except StoreError Tables :=
  match t.leases[i]? with
  | none => .error .notFound
  | some old => do
    let (t, new) ← assignDesktopComputerEpoch t (some old) row
    uniqueIndexes (t.leases.eraseIdx i) new
    queueDesktopComputerRevocation { t with leases := t.leases.set i new } old new

def computerControlEpoch (t : Tables) (desktop : String) : Except StoreError Tables := do
  ensure .notFound (t.managed.contains desktop)
  pure { t with epochs := Function.update t.epochs desktop (some ((t.epochs desktop).getD 1)) }

def completeComputerRevocation (t : Tables) (desktop : String) (revision : ℕ) :
    Except StoreError Tables :=
  match t.revocations desktop with
  | none => .error .conflict
  | some rev => do
    ensure .conflict (rev.requestedRevision == revision && rev.completedRevision < revision)
    pure
      { t with
        revocations := Function.update t.revocations desktop
          (some { rev with completedRevision := revision }) }

inductive Statement
  | insert (row : LeaseRow)
  | update (i : ℕ) (row : LeaseRow)
  | manage (desktop : String)
  | computerControlEpoch (desktop : String)
  | completeComputerRevocation (desktop : String) (revision : ℕ)
  deriving DecidableEq, Repr

def Statement.apply (t : Tables) : Statement → Except StoreError Tables
  | .insert row => insertLease t row
  | .update i row => updateLease t i row
  | .manage desktop => pure { t with managed := desktop :: t.managed }
  | .computerControlEpoch desktop => LeaseTable.computerControlEpoch t desktop
  | .completeComputerRevocation desktop revision =>
    LeaseTable.completeComputerRevocation t desktop revision

/-- The statement gives an active lease another epoch without ending it. -/
def Statement.rewrites (t : Tables) : Statement → Bool
  | .update i row => t.leases[i]?.any fun old =>
    old.state == "active" && row.state == "active" && row.controlEpoch != old.controlEpoch
  | _ => false

/-- What the migration leaves: no active lease, and no epoch beyond the counter of its desktop. -/
structure Migrated (t : Tables) : Prop where
  closed : ∀ l ∈ t.leases, l.state ≠ "active"
  assigned : ∀ d e, (d, e) ∈ t.assigned → e ≤ t.counter d
  revocations : ∀ d rev, t.revocations d = some rev →
    rev.controlEpoch ≤ t.counter d ∧ rev.completedRevision ≤ rev.requestedRevision

/-- Any statements, one after the other; a failed one leaves no trace. -/
def leaseTables : Machine Tables Statement where
  Init := Migrated
  step t a := (a.apply t).toOption

/-- The statements of the program, which change the epoch of an active lease only to end it. -/
def programTables : Machine Tables Statement where
  Init := Migrated
  step t a := if a.rewrites t then none else (a.apply t).toOption

end Statements

variable {t t' : Tables} {desktop : String}

section Effects

variable {old new row : LeaseRow} {i : ℕ}

/-- A lease takes the next epoch of its desktop; nothing else changes. -/
structure Gives (t : Tables) (desktop : String) (epoch : ℤ) (t' : Tables) : Prop where
  next : epoch = t.counter desktop + 1
  counter : ∀ d, t'.counter d = if d = desktop then epoch else t.counter d
  assigned : t'.assigned = (desktop, epoch) :: t.assigned

structure Silent (t t' : Tables) : Prop where
  counter : ∀ d, t'.counter d = t.counter d
  assigned : t'.assigned = t.assigned

theorem nextEpoch_ok (h : nextEpoch t row = .ok (t', new)) :
    t.managed.contains row.desktopId = true ∧ new = { row with controlEpoch := new.controlEpoch } ∧
      Gives t row.desktopId new.controlEpoch t' ∧ t'.managed = t.managed ∧
      t'.leases = t.leases ∧ t'.revocations = t.revocations := by
  simp only [nextEpoch, seq_eq_ok, ensure_eq_ok] at h
  obtain ⟨hmanaged, -, h⟩ := h
  cases h
  have hn : (((t.epochs row.desktopId).elim 1 (· + 1) : ℕ) : ℤ) = t.counter row.desktopId + 1 := by
    unfold Tables.counter
    cases t.epochs row.desktopId <;> simp
  refine ⟨hmanaged, rfl, ⟨hn, fun d => ?_, rfl⟩, rfl, rfl, rfl⟩
  by_cases hd : d = row.desktopId
  · subst hd
    simp [Tables.counter]
  · simp [Tables.counter, hd]

structure Inserts (t : Tables) (row new : LeaseRow) (t' : Tables) : Prop where
  written : new = { row with controlEpoch := new.controlEpoch }
  gives : Gives t row.desktopId new.controlEpoch t'
  leases : t'.leases = t.leases ++ [new]
  revocations : t'.revocations = t.revocations
  single : new.state = "active" → ∀ l ∈ t.leases, l.state = "active" → l.desktopId ≠ new.desktopId

structure Updates (t : Tables) (i : ℕ) (old row new : LeaseRow) (t' : Tables) : Prop where
  before : t.leases[i]? = some old
  written : new = { row with controlEpoch := new.controlEpoch }
  leases : t'.leases = t.leases.set i new
  desktop : new.desktopId = old.desktopId
  closed : old.state ≠ "active" → new.state ≠ "active"
  epoch : (new.state = old.state ∧ new.controlEpoch = old.controlEpoch ∧ Silent t t') ∨
    ((row.state ≠ old.state ∨ row.controlEpoch ≠ old.controlEpoch) ∧
      Gives t old.desktopId new.controlEpoch t')
  revocations : t'.revocations = if endsGrant old new then
      Function.update t.revocations old.desktopId
        (some (requestRevocation (t.revocations old.desktopId) new.controlEpoch))
    else t.revocations
  single : new.state = "active" → ∀ l ∈ t.leases.eraseIdx i, l.state = "active" →
    l.desktopId ≠ new.desktopId

theorem uniqueIndexes_ok {others : List LeaseRow} {u : Unit} (h : uniqueIndexes others new = .ok u)
    (hact : new.state = "active") : ∀ l ∈ others, l.state = "active" →
      l.desktopId ≠ new.desktopId := by
  intro l hl hst heq
  simp only [uniqueIndexes, seq_eq_ok, ensure_eq_ok, hact] at h
  have hidx := h.2
  simp only [bne_self_eq_false, Bool.false_or, Bool.not_eq_true', any_eq_false,
    Bool.and_eq_true, beq_iff_eq] at hidx
  exact hidx l hl ⟨hst, heq⟩

theorem insertLease_ok (h : insertLease t row = .ok t') : ∃ new, Inserts t row new t' := by
  obtain ⟨⟨t₁, new⟩, hassign, h⟩ := bind_eq_ok.mp h
  obtain ⟨-, hrow, hgives, -, hleases, hrev⟩ := nextEpoch_ok hassign
  obtain ⟨u, hunique, h⟩ := bind_eq_ok.mp h
  cases h
  refine ⟨new, hrow, ⟨hgives.next, hgives.counter, hgives.assigned⟩, by rw [hleases], hrev, ?_⟩
  intro hact
  rw [← hleases]
  exact uniqueIndexes_ok hunique hact

theorem assign_ok (h : assignDesktopComputerEpoch t (some old) row = .ok (t', new)) :
    row.desktopId = old.desktopId ∧ new = { row with controlEpoch := new.controlEpoch } ∧
      t'.managed = t.managed ∧ t'.leases = t.leases ∧ t'.revocations = t.revocations ∧
      (old.state ≠ "active" → new.state ≠ "active") ∧
      ((t' = t ∧ new.state = old.state ∧ new.controlEpoch = old.controlEpoch) ∨
        ((row.state ≠ old.state ∨ row.controlEpoch ≠ old.controlEpoch) ∧
          t.managed.contains old.desktopId = true ∧
            Gives t old.desktopId new.controlEpoch t')) := by
  simp only [assignDesktopComputerEpoch, seq_eq_ok, ensure_eq_ok, Bool.and_eq_true,
    beq_iff_eq] at h
  obtain ⟨⟨hdesktop, -⟩, h⟩ := h
  split at h
  next hsame =>
    cases h
    exact ⟨hdesktop, rfl, rfl, rfl, rfl, fun hst => hsame.1 ▸ hst, .inl ⟨rfl, hsame⟩⟩
  next hne =>
    simp only [seq_eq_ok, ensure_eq_ok, Bool.or_eq_true, beq_iff_eq, bne_iff_ne] at h
    obtain ⟨hopen, h⟩ := h
    obtain ⟨hmanaged, hrow, hgives, hm, hl, hr⟩ := nextEpoch_ok h
    refine ⟨hdesktop, hrow, hm, hl, hr, fun hst => ?_, .inr ⟨?_, ?_, ?_⟩⟩
    · rw [hrow]
      exact hopen.resolve_left hst
    · exact Decidable.not_and_iff_or_not.mp hne
    · rw [← hdesktop]
      exact hmanaged
    · rw [← hdesktop]
      exact hgives

theorem queue_ok (hm : endsGrant old new = true → t.managed.contains old.desktopId = true)
    (h : queueDesktopComputerRevocation t old new = .ok t') : t' = { t with
      revocations := if endsGrant old new then
          Function.update t.revocations old.desktopId
            (some (requestRevocation (t.revocations old.desktopId) new.controlEpoch))
        else t.revocations } := by
  unfold queueDesktopComputerRevocation at h
  split at h
  next hends =>
    simp only [seq_eq_ok] at h
    cases h.2.2
    rw [if_pos (Bool.and_eq_true_iff.mp hends).1]
  next hne =>
    cases h
    have hends : ¬ endsGrant old new = true := fun hends => hne (by rw [hends, hm hends]; rfl)
    rw [if_neg hends]

theorem updateLease_ok (h : updateLease t i row = .ok t') :
    ∃ old new, Updates t i old row new t' := by
  unfold updateLease at h
  split at h
  · cases h
  next old hold =>
    obtain ⟨⟨t₁, new⟩, hassign, h⟩ := bind_eq_ok.mp h
    obtain ⟨hdesktop, hrow, hm, hl, hr, hclosed, hepoch⟩ := assign_ok hassign
    obtain ⟨u, hunique, h⟩ := bind_eq_ok.mp h
    rw [hl] at hunique
    have hnew : new.desktopId = old.desktopId := by rw [hrow]; exact hdesktop
    -- a lease that ends a grant has passed the trigger on a managed desktop
    have hmanaged : endsGrant old new = true → t₁.managed.contains old.desktopId = true := by
      intro hends
      rcases hepoch with ⟨-, hst, hep⟩ | ⟨-, hmanaged, -⟩
      · simp [endsGrant, hst, hep] at hends
      · rw [hm]
        exact hmanaged
    obtain rfl := queue_ok (t := { t₁ with leases := t₁.leases.set i new }) hmanaged h
    refine ⟨old, new, hold, hrow, by rw [hl], hnew, hclosed, ?_, by rw [hr],
      uniqueIndexes_ok hunique⟩
    rcases hepoch with ⟨rfl, hst, hep⟩ | ⟨hne, -, hgives⟩
    · exact .inl ⟨hst, hep, fun _ => rfl, rfl⟩
    · exact .inr ⟨hne, hgives.next, hgives.counter, hgives.assigned⟩

end Effects

section Invariant

variable {R : ℤ → ℤ → Prop} {a : Statement}

def Apart (l k : LeaseRow) : Prop :=
  l.state = "active" → k.state = "active" → l.desktopId ≠ k.desktopId

theorem Apart.symm {l k : LeaseRow} (h : Apart l k) : Apart k l :=
  fun hk hl heq => h hl hk heq.symm

/-- The ledger: the counter of a desktop covers its epochs, and its revocation stands in a relation
to its one active lease. -/
structure Sound (R : ℤ → ℤ → Prop) (t : Tables) : Prop where
  assigned : ∀ d e, (d, e) ∈ t.assigned → e ≤ t.counter d
  revocations : ∀ d rev, t.revocations d = some rev →
    rev.controlEpoch ≤ t.counter d ∧ rev.completedRevision ≤ rev.requestedRevision
  single : t.leases.Pairwise Apart
  fence : ∀ l ∈ t.leases, l.state = "active" → ∀ rev, t.revocations l.desktopId = some rev →
    R rev.controlEpoch l.controlEpoch

theorem Sound.init (h : Migrated t) : Sound R t := by
  refine ⟨h.assigned, h.revocations, ?_, fun l hl hst => absurd hst (h.closed l hl)⟩
  apply pairwise_of_forall_mem_list
  exact fun l hl _ _ hst => absurd hst (h.closed l hl)

theorem Gives.le {epoch : ℤ} (h : Gives t desktop epoch t') (d : String) :
    t.counter d ≤ t'.counter d := by
  rw [h.counter]
  split
  next heq =>
    subst heq
    have hnext := h.next
    omega
  · exact le_rfl

theorem Gives.assigned_le {epoch : ℤ} (h : Gives t desktop epoch t')
    (ha : ∀ d e, (d, e) ∈ t.assigned → e ≤ t.counter d) :
    ∀ d e, (d, e) ∈ t'.assigned → e ≤ t'.counter d := by
  intro d e he
  rw [h.assigned] at he
  rcases mem_cons.mp he with heq | hold
  · cases heq
    rw [h.counter, if_pos rfl]
  · exact (ha d e hold).trans (h.le d)

theorem Sound.insert {row new : LeaseRow} (h : Sound R t) (hi : Inserts t row new t')
    (hR : ∀ a b, a < b → R a b) : Sound R t' := by
  have hdesktop : new.desktopId = row.desktopId := by rw [hi.written]
  refine ⟨hi.gives.assigned_le h.assigned, fun d rev hrev => ?_, ?_, fun l hl hst rev hrev => ?_⟩
  · rw [hi.revocations] at hrev
    obtain ⟨hle, hord⟩ := h.revocations d rev hrev
    exact ⟨hle.trans (hi.gives.le d), hord⟩
  · rw [hi.leases, pairwise_append]
    refine ⟨h.single, pairwise_singleton _ _, fun l hl k hk => ?_⟩
    obtain rfl := mem_singleton.mp hk
    exact fun hst hnew => hi.single hnew l hl hst
  · rw [hi.revocations] at hrev
    rw [hi.leases] at hl
    rcases mem_append.mp hl with hl | hl
    · exact h.fence l hl hst rev hrev
    · obtain rfl := mem_singleton.mp hl
      apply hR
      have hle := (h.revocations _ rev hrev).1
      have hnext := hi.gives.next
      rw [hdesktop] at hle
      omega

section Update

variable {i : ℕ} {old row new : LeaseRow} (hu : Updates t i old row new t')

include hu

theorem Updates.perm :
    (old :: t.leases.eraseIdx i).Perm t.leases ∧ t'.leases.Perm (new :: t.leases.eraseIdx i) := by
  obtain ⟨hlt, hold⟩ := List.getElem?_eq_some_iff.mp hu.before
  constructor
  · rw [← hold]
    exact getElem_cons_eraseIdx_perm hlt
  · rw [hu.leases]
    exact set_perm_cons_eraseIdx hlt new

theorem Updates.counter_le (d : String) : t.counter d ≤ t'.counter d := by
  rcases hu.epoch with ⟨-, -, hsilent⟩ | ⟨-, hgives⟩
  · exact (hsilent.counter d).ge
  · exact hgives.le d

theorem Updates.gives (hends : endsGrant old new = true) :
    Gives t old.desktopId new.controlEpoch t' := by
  rcases hu.epoch with ⟨hst, hep, -⟩ | ⟨-, hgives⟩
  · simp [endsGrant, hst, hep] at hends
  · exact hgives

theorem Updates.assigned_le (h : Sound R t) : ∀ d e, (d, e) ∈ t'.assigned → e ≤ t'.counter d := by
  rcases hu.epoch with ⟨-, -, hsilent⟩ | ⟨-, hgives⟩
  · intro d e he
    rw [hsilent.assigned] at he
    rw [hsilent.counter]
    exact h.assigned d e he
  · exact hgives.assigned_le h.assigned

theorem Updates.request (h : Sound R t) (hends : endsGrant old new = true) :
    ∃ rev, t'.revocations old.desktopId = some rev ∧ rev.controlEpoch = new.controlEpoch ∧
      rev.completedRevision < rev.requestedRevision := by
  refine ⟨_, by rw [hu.revocations, if_pos hends, Function.update_self], ?_⟩
  have hnext := (hu.gives hends).next
  unfold requestRevocation
  split
  · exact ⟨rfl, Nat.zero_lt_one⟩
  next rev hrev =>
    obtain ⟨hle, hord⟩ := h.revocations _ rev hrev
    exact ⟨max_eq_right (by omega), by dsimp only; omega⟩

theorem Updates.revocation (h : Sound R t) {d : String} {rev : RevocationRow}
    (hrev : t'.revocations d = some rev) : t.revocations d = some rev ∨
      (d = old.desktopId ∧ endsGrant old new = true ∧ rev.controlEpoch = new.controlEpoch ∧
        rev.completedRevision < rev.requestedRevision) := by
  by_cases hends : endsGrant old new = true
  · by_cases hd : d = old.desktopId
    · subst hd
      obtain ⟨rev', hrev', hepoch, hpending⟩ := hu.request h hends
      cases hrev'.symm.trans hrev
      exact .inr ⟨rfl, hends, hepoch, hpending⟩
    · rw [hu.revocations, if_pos hends, Function.update_of_ne hd] at hrev
      exact .inl hrev
  · rw [hu.revocations, if_neg hends] at hrev
    exact .inl hrev

end Update

theorem Sound.update {i : ℕ} {old row new : LeaseRow} (h : Sound R t)
    (hu : Updates t i old row new t') (hR : ∀ a b, a < b → R a b)
    (hrefl : (∀ a, R a a) ∨ ¬ (old.state = "active" ∧ row.state = "active" ∧
      row.controlEpoch ≠ old.controlEpoch)) : Sound R t' := by
  obtain ⟨hbefore, hafter⟩ := hu.perm
  obtain ⟨hold, hrest⟩ := pairwise_cons.mp
    ((hbefore.pairwise_iff fun hk => Apart.symm hk).mpr h.single)
  refine ⟨hu.assigned_le h, fun d rev hrev => ?_, ?_, fun l hl hst rev hrev => ?_⟩
  · rcases hu.revocation h hrev with hsame | ⟨rfl, hends, hepoch, hpending⟩
    · obtain ⟨hle, hord⟩ := h.revocations d rev hsame
      exact ⟨hle.trans (hu.counter_le d), hord⟩
    · rw [hepoch, (hu.gives hends).counter, if_pos rfl]
      exact ⟨le_rfl, hpending.le⟩
  · refine (hafter.pairwise_iff fun hk => Apart.symm hk).mpr (pairwise_cons.mpr ⟨?_, hrest⟩)
    exact fun l hl hnew hst heq => hu.single hnew l hl hst heq.symm
  · rcases mem_cons.mp (hafter.mem_iff.mp hl) with rfl | hl
    · -- the lease that was updated is active, so it was before
      have hact : old.state = "active" := Decidable.of_not_not fun hne => hu.closed hne hst
      rcases hu.revocation h hrev with hsame | ⟨-, hends, hepoch, -⟩
      · rw [hu.desktop] at hsame
        rcases hu.epoch with ⟨-, hep, -⟩ | ⟨-, hgives⟩
        · rw [hep]
          exact h.fence old (hbefore.mem_iff.mp mem_cons_self) hact rev hsame
        · have hle := (h.revocations _ rev hsame).1
          have hnext := hgives.next
          exact hR _ _ (by omega)
      · rw [hepoch]
        refine (hrefl.resolve_right fun hno => hno ?_) _
        have hrow : row.state = "active" := by
          rw [hu.written] at hst
          exact hst
        rcases hu.epoch with ⟨hsame, hep, -⟩ | ⟨hne, -⟩
        · simp [endsGrant, hsame, hep] at hends
        · exact ⟨hact, hrow, hne.resolve_left fun hne => hne (hrow.trans hact.symm)⟩
    · rcases hu.revocation h hrev with hsame | ⟨heq, hends, -⟩
      · exact h.fence l (hbefore.mem_iff.mp (mem_cons_of_mem _ hl)) hst rev hsame
      · have hact : old.state = "active" := by
          simp only [endsGrant, Bool.and_eq_true, beq_iff_eq] at hends
          exact hends.1
        exact absurd heq.symm (hold l hl hact hst)

theorem Sound.computerControlEpoch (h : Sound R t) (hc : computerControlEpoch t desktop = .ok t') :
    Sound R t' := by
  simp only [LeaseTable.computerControlEpoch, seq_eq_ok] at hc
  cases hc.2
  have hle : ∀ d, t.counter d ≤ Tables.counter
      { t with
        epochs := Function.update t.epochs desktop (some ((t.epochs desktop).getD 1)) } d := by
    intro d
    by_cases hd : d = desktop
    · subst hd
      cases he : t.epochs d <;> simp [Tables.counter, he]
    · simp [Tables.counter, hd]
  exact ⟨fun d e he => (h.assigned d e he).trans (hle d),
    fun d rev hrev => ⟨(h.revocations d rev hrev).1.trans (hle d), (h.revocations d rev hrev).2⟩,
    h.single, h.fence⟩

theorem Sound.completeComputerRevocation {revision : ℕ} (h : Sound R t)
    (hc : completeComputerRevocation t desktop revision = .ok t') : Sound R t' := by
  simp only [LeaseTable.completeComputerRevocation] at hc
  split at hc
  · cases hc
  next rev hrev =>
    simp only [seq_eq_ok, ensure_eq_ok, Bool.and_eq_true, beq_iff_eq] at hc
    obtain ⟨⟨hrequested, -⟩, hc⟩ := hc
    cases hc
    have hcases : ∀ {d rev'}, Function.update t.revocations desktop
        (some { rev with completedRevision := revision }) d = some rev' →
          t.revocations d = some rev' ∨ (t.revocations d = some rev ∧
            rev' = { rev with completedRevision := revision }) := by
      intro d rev' hrev'
      by_cases hd : d = desktop
      · subst hd
        rw [Function.update_self] at hrev'
        exact .inr ⟨hrev, (Option.some.inj hrev').symm⟩
      · rw [Function.update_of_ne hd] at hrev'
        exact .inl hrev'
    refine ⟨h.assigned, fun d rev' hrev' => ?_, h.single, fun l hl hst rev' hrev' => ?_⟩
    · rcases hcases hrev' with hsame | ⟨hsame, rfl⟩
      · exact h.revocations d rev' hsame
      · exact ⟨(h.revocations d rev hsame).1, hrequested.ge⟩
    · rcases hcases hrev' with hsame | ⟨hsame, rfl⟩
      · exact h.fence l hl hst rev' hsame
      · exact h.fence l hl hst rev hsame

theorem Sound.step (h : Sound R t) (hR : ∀ a b, a < b → R a b)
    (hrefl : (∀ a, R a a) ∨ a.rewrites t = false) (ha : a.apply t = .ok t') : Sound R t' := by
  cases a with
  | insert row =>
    obtain ⟨new, hi⟩ := insertLease_ok ha
    exact h.insert hi hR
  | update i row =>
    obtain ⟨old, new, hu⟩ := updateLease_ok ha
    refine h.update hu hR (hrefl.imp_right fun hno => ?_)
    simpa [Statement.rewrites, hu.before] using hno
  | manage desktop =>
    cases ha
    exact ⟨h.assigned, h.revocations, h.single, h.fence⟩
  | computerControlEpoch desktop => exact h.computerControlEpoch ha
  | completeComputerRevocation desktop revision => exact h.completeComputerRevocation ha

theorem sound_of_reachable (ht : leaseTables.Reachable t) : Sound (· ≤ ·) t := by
  refine ht.invariant (fun _ h => Sound.init h) ?_
  intro s a s' _ hs ha
  exact hs.step (fun _ _ => le_of_lt) (.inl le_refl) (toOption_eq_some.mp ha)

theorem step_of_programTables {s s' : Tables} (h : programTables.step s a = some s') :
    a.rewrites s = false ∧ a.apply s = .ok s' := by
  simp only [programTables] at h
  split at h
  · cases h
  next hno => exact ⟨Bool.eq_false_iff.mpr hno, toOption_eq_some.mp h⟩

theorem reachable_of_programTables (ht : programTables.Reachable t) : leaseTables.Reachable t :=
  ht.mono (fun _ h => h) fun _ _ _ ha => toOption_eq_some.mpr (step_of_programTables ha).2

theorem sound_of_reachable_programTables (ht : programTables.Reachable t) : Sound (· < ·) t := by
  refine ht.invariant (fun _ h => Sound.init h) ?_
  intro s a s' _ hs ha
  obtain ⟨hno, ha⟩ := step_of_programTables ha
  exact hs.step (fun _ _ h => h) (.inr hno) ha

theorem Sound.fresh {epoch : ℤ} (h : Sound R t) (hg : Gives t desktop epoch t') :
    ∀ e, (desktop, e) ∈ t.assigned → e < epoch := by
  intro e he
  have hle := h.assigned desktop e he
  have hnext := hg.next
  omega

end Invariant

section Closed

variable {l : LeaseRow}

theorem closed_of_apply {a : Statement} {i : ℕ} (ha : a.apply t = .ok t')
    (hl : t.leases[i]? = some l) :
    ∃ l', t'.leases[i]? = some l' ∧ (l.state ≠ "active" → l'.state ≠ "active") := by
  obtain ⟨hlt, -⟩ := List.getElem?_eq_some_iff.mp hl
  cases a with
  | insert row =>
    obtain ⟨new, hi⟩ := insertLease_ok ha
    exact ⟨l, by rw [hi.leases, List.getElem?_append_left hlt, hl], id⟩
  | update j row =>
    obtain ⟨old, new, hu⟩ := updateLease_ok ha
    rw [hu.leases]
    by_cases hj : j = i
    · subst hj
      cases hu.before.symm.trans hl
      exact ⟨new, by simp [hlt], hu.closed⟩
    · exact ⟨l, by rw [List.getElem?_set_ne hj, hl], id⟩
  | manage desktop =>
    cases ha
    exact ⟨l, hl, id⟩
  | computerControlEpoch desktop =>
    simp only [Statement.apply, computerControlEpoch, seq_eq_ok] at ha
    cases ha.2
    exact ⟨l, hl, id⟩
  | completeComputerRevocation desktop revision =>
    simp only [Statement.apply, completeComputerRevocation] at ha
    split at ha
    · cases ha
    · simp only [seq_eq_ok] at ha
      cases ha.2
      exact ⟨l, hl, id⟩

theorem closed_of_leads {i : ℕ} (h : leaseTables.Leads t t') (hl : t.leases[i]? = some l)
    (hst : l.state ≠ "active") : ∃ l', t'.leases[i]? = some l' ∧ l'.state ≠ "active" := by
  obtain ⟨l', hl', himp⟩ := h.carries (f := fun t : Tables => t.leases[i]?)
    (R := fun l l' => l.state ≠ "active" → l'.state ≠ "active") (fun _ => id)
    (fun _ _ _ h h' hst => h' (h hst))
    (fun _ _ _ _ ha hl => closed_of_apply (toOption_eq_some.mp ha) hl) hl
  exact ⟨l', hl', himp hst⟩

end Closed

section Ledger

/-- The ledger of the epochs: a change of a lease takes an epoch beyond all of its desktop, a closed
lease stays closed, and the revocation of a desktop never passes its active lease. -/
theorem epoch_ledger {t : Tables} (ht : leaseTables.Reachable t) :
    (∀ row t', insertLease t row = .ok t' → ∃ new, t'.leases = t.leases ++ [new] ∧
      (∀ e, (row.desktopId, e) ∈ t.assigned → e < new.controlEpoch) ∧
      t'.assigned = (row.desktopId, new.controlEpoch) :: t.assigned) ∧
    (∀ i row t', updateLease t i row = .ok t' → ∃ old new, t.leases[i]? = some old ∧
      t'.leases = t.leases.set i new ∧
      (new.state ≠ old.state ∨ new.controlEpoch ≠ old.controlEpoch →
        (∀ e, (old.desktopId, e) ∈ t.assigned → e < new.controlEpoch) ∧
        t'.assigned = (old.desktopId, new.controlEpoch) :: t.assigned) ∧
      (old.state = "active" → new.state ≠ "active" → ∃ rev,
        t'.revocations old.desktopId = some rev ∧
        rev.completedRevision < rev.requestedRevision ∧ new.controlEpoch ≤ rev.controlEpoch)) ∧
    (∀ (t' : Tables) (i : ℕ) (l : LeaseRow), leaseTables.Leads t t' →
      t.leases[i]? = some l → l.state ≠ "active" →
        ∃ l', t'.leases[i]? = some l' ∧ l'.state ≠ "active") ∧
    (∀ l ∈ t.leases, l.state = "active" → ∀ rev, t.revocations l.desktopId = some rev →
      rev.controlEpoch ≤ l.controlEpoch) ∧
    (programTables.Reachable t → ∀ l ∈ t.leases, l.state = "active" → ∀ rev,
      t.revocations l.desktopId = some rev → rev.controlEpoch < l.controlEpoch) ∧
    ∀ d rev, t.revocations d = some rev → rev.completedRevision ≤ rev.requestedRevision := by
  have hs := sound_of_reachable ht
  refine ⟨?_, ?_, fun t' i l => closed_of_leads, hs.fence,
    fun hp => (sound_of_reachable_programTables hp).fence, fun d rev hrev =>
      (hs.revocations d rev hrev).2⟩
  · intro row t' h
    obtain ⟨new, hi⟩ := insertLease_ok h
    exact ⟨new, hi.leases, hs.fresh hi.gives, hi.gives.assigned⟩
  · intro i row t' h
    obtain ⟨old, new, hu⟩ := updateLease_ok h
    refine ⟨old, new, hu.before, hu.leases, fun hne => ?_, fun hact hclosed => ?_⟩
    · rcases hu.epoch with ⟨hst, hep, -⟩ | ⟨-, hgives⟩
      · exact absurd hne (by simp [hst, hep])
      · exact ⟨hs.fresh hgives, hgives.assigned⟩
    · have hends : endsGrant old new = true := by simp [endsGrant, hact, hclosed]
      obtain ⟨rev, hrev, hepoch, hpending⟩ := hu.request hs hends
      exact ⟨rev, hrev, hpending, hepoch.ge⟩

def noLeases : Tables := ⟨[], fun _ => none, [], fun _ => none, []⟩

theorem migrated_noLeases : Migrated noLeases :=
  ⟨fun _ h => absurd h not_mem_nil, fun _ _ h => absurd h not_mem_nil,
    fun _ _ h => nomatch h⟩

/-- A lease of desktop 100 with an epoch of the statement's choice. -/
def sampleLease (id state : String) (epoch : ℤ) : LeaseRow := ⟨id, "agent", "100", state, epoch⟩

/-- A lease that was released before the next one took its epoch. -/
theorem epoch_ledger_released : ∃ t, leaseTables.Reachable t ∧
    t.leases.map (fun l => (l.state, l.controlEpoch)) = [("released", 2), ("active", 3)] ∧
    ∀ l ∈ t.leases, l.state = "active" → ∀ rev, t.revocations l.desktopId = some rev →
      rev.controlEpoch < l.controlEpoch := by
  obtain ⟨t, ht, hleases⟩ := Machine.exists_reachable_of_run
    (M := programTables) (P := fun t => t.leases.map (fun l => (l.state, l.controlEpoch)) =
      [("released", 2), ("active", 3)]) noLeases
    [.manage "100", .insert (sampleLease "l1" "active" 1),
      .update 0 (sampleLease "l1" "released" 2),
      .insert (sampleLease "l2" "active" 1)] migrated_noLeases (by decide +kernel)
  have hany := reachable_of_programTables ht
  exact ⟨t, hany, hleases, (epoch_ledger hany).2.2.2.2.1 ht⟩

/-- A statement that only counts the epoch of an active lease up: the lease is active at the epoch
of the revocation that it requests. -/
theorem epoch_ledger_rewritten : ∃ t, leaseTables.Reachable t ∧
    ∃ l ∈ t.leases, l.state = "active" ∧ ∃ rev, t.revocations l.desktopId = some rev ∧
      ¬ rev.controlEpoch < l.controlEpoch := by
  obtain ⟨t, ht, hp⟩ := Machine.exists_reachable_of_run
    (M := leaseTables) (P := fun t => t.leases = [sampleLease "l1" "active" 2] ∧
      t.revocations "100" = some ⟨1, 0, 2⟩) noLeases
    [.manage "100", .insert (sampleLease "l1" "active" 1), .update 0 (sampleLease "l1" "active" 2)]
    migrated_noLeases (by decide +kernel)
  obtain ⟨hleases, hrev⟩ := hp
  exact ⟨t, ht, _, by rw [hleases]; exact mem_singleton_self _, rfl, _, hrev, by decide⟩

end Ledger

end VcWorkspace.Store.LeaseTable
