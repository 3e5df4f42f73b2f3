import VcWorkspace.Transition.Machine

/-! # Journalled planners

A planner answers a request against one stored record with a plan: a pending
record, persisted before the work starts, and a completed record, persisted
after it. An interruption leaves the pending record, and a local failure
downgrades whatever record is stored.
-/

namespace VcWorkspace.Transition

/-- Requests `R` are planned against a stored record `F` at a clock value. -/
structure Planner (F R P : Type*) where
  plan : Option F → R → ℕ → Option P
  pending : P → F
  completed : P → F
  downgrade : F → F

/-- The durable record together with the plan whose work is under way. -/
structure Journal (F P : Type*) where
  stored : Option F
  inFlight : Option P
  deriving DecidableEq, Repr

inductive Entry (R : Type*) where
  | intend (r : R) (now : ℕ)
  | settle (r : R) (now : ℕ)
  | finish
  | downgrade

def Entry.Accepts {R : Type*} (e : Entry R) (r : R) (now : ℕ) : Prop :=
  e = .intend r now ∨ e = .settle r now

namespace Planner

variable {F R P : Type*} (Q : Planner F R P)

/-- Persist an accepted plan's pending or completed record, finish the plan under way, or
downgrade the stored record and give the plan up. -/
def step (j : Journal F P) : Entry R → Option (Journal F P)
  | .intend r now => (Q.plan j.stored r now).map fun p => ⟨some (Q.pending p), some p⟩
  | .settle r now => (Q.plan j.stored r now).map fun p => ⟨some (Q.completed p), none⟩
  | .finish => j.inFlight.map fun p => ⟨some (Q.completed p), none⟩
  | .downgrade => j.stored.map fun f => ⟨some (Q.downgrade f), none⟩

/-- The journal machine, started on any stored record with no plan under way. -/
def machine : Machine (Journal F P) (Entry R) where
  Init j := j.inFlight = none
  step := Q.step

variable {Q} {j k : Journal F P} {e : Entry R} {r : R} {now : ℕ}

theorem step_cases (h : Q.step j e = some k) :
    (∃ r now p, e = .intend r now ∧ Q.plan j.stored r now = some p ∧
      k = ⟨some (Q.pending p), some p⟩) ∨
    (∃ r now p, e = .settle r now ∧ Q.plan j.stored r now = some p ∧
      k = ⟨some (Q.completed p), none⟩) ∨
    (∃ p, e = .finish ∧ j.inFlight = some p ∧ k = ⟨some (Q.completed p), none⟩) ∨
    (∃ f, e = .downgrade ∧ j.stored = some f ∧ k = ⟨some (Q.downgrade f), none⟩) := by
  cases e with
  | intend r now =>
    obtain ⟨p, hp, rfl⟩ := Option.map_eq_some_iff.mp h
    exact .inl ⟨r, now, p, rfl, hp, rfl⟩
  | settle r now =>
    obtain ⟨p, hp, rfl⟩ := Option.map_eq_some_iff.mp h
    exact .inr (.inl ⟨r, now, p, rfl, hp, rfl⟩)
  | finish =>
    obtain ⟨p, hp, rfl⟩ := Option.map_eq_some_iff.mp h
    exact .inr (.inr (.inl ⟨p, rfl, hp, rfl⟩))
  | downgrade =>
    obtain ⟨f, hf, rfl⟩ := Option.map_eq_some_iff.mp h
    exact .inr (.inr (.inr ⟨f, rfl, hf, rfl⟩))

theorem accepted (h : Q.step j e = some k) (he : e.Accepts r now) :
    ∃ p, Q.plan j.stored r now = some p ∧
      (k.stored = some (Q.pending p) ∨ k.stored = some (Q.completed p)) := by
  rcases he with rfl | rfl <;> obtain ⟨p, hp, rfl⟩ := Option.map_eq_some_iff.mp h
  · exact ⟨p, hp, .inl rfl⟩
  · exact ⟨p, hp, .inr rfl⟩

/-- A plan under way was accepted by the planner, and its pending record is the stored one. -/
def Coherent (Q : Planner F R P) (j : Journal F P) : Prop :=
  ∀ p, j.inFlight = some p → j.stored = some (Q.pending p) ∧ ∃ f r now, Q.plan f r now = some p

theorem coherent_step (h : Q.step j e = some k) : Q.Coherent k := by
  rcases step_cases h with ⟨r, now, p, _, hp, rfl⟩ | ⟨_, _, _, _, _, rfl⟩ | ⟨_, _, _, rfl⟩ |
    ⟨_, _, _, rfl⟩
  · rintro q hq
    cases hq
    exact ⟨rfl, j.stored, r, now, hp⟩
  all_goals simp [Coherent]

theorem coherent_of_reachable (h : Q.machine.Reachable j) : Q.Coherent j := by
  refine h.invariant (fun j hj p hp => ?_) fun _ _ _ _ _ ha => coherent_step ha
  simp only [machine] at hj
  simp [hj] at hp

/-- A preorder on records that every plan, completion and downgrade respects relates the records
stored along a run. -/
theorem stored_relates {S : F → F → Prop} (hrefl : ∀ f, S f f)
    (htrans : ∀ f g h, S f g → S g h → S f h)
    (hplan : ∀ f r now p, Q.plan (some f) r now = some p → S f (Q.pending p))
    (hdone : ∀ f r now p, Q.plan f r now = some p → S (Q.pending p) (Q.completed p))
    (hdown : ∀ f, S f (Q.downgrade f))
    (hj : Q.machine.Reachable j) (h : Q.machine.Leads j k) {f : F} (hf : j.stored = some f) :
    ∃ g, k.stored = some g ∧ S f g := by
  refine h.relates (R := fun j k => ∀ f, j.stored = some f → ∃ g, k.stored = some g ∧ S f g)
    (P := Q.Coherent) (fun _ f hf => ⟨f, hf, hrefl f⟩) (fun _ _ _ h₁ h₂ f hf => ?_)
    (fun _ _ _ _ ha => coherent_step ha) (fun s a t hs ha f hf => ?_) (coherent_of_reachable hj)
    f hf
  · obtain ⟨g, hg, hfg⟩ := h₁ f hf
    obtain ⟨h, hh, hgh⟩ := h₂ g hg
    exact ⟨h, hh, htrans f g h hfg hgh⟩
  · rcases step_cases ha with ⟨r, now, p, _, hp, rfl⟩ | ⟨r, now, p, _, hp, rfl⟩ |
      ⟨p, _, hp, rfl⟩ | ⟨f', _, hf', rfl⟩
    · exact ⟨_, rfl, hplan f r now p (hf ▸ hp)⟩
    · exact ⟨_, rfl, htrans _ _ _ (hplan f r now p (hf ▸ hp)) (hdone _ r now p hp)⟩
    · obtain ⟨hst, f₀, r, now, hpl⟩ := hs p hp
      cases hf.symm.trans hst
      exact ⟨_, rfl, hdone f₀ r now p hpl⟩
    · cases hf.symm.trans hf'
      exact ⟨_, rfl, hdown f⟩

/-- What plans and downgrades ensure holds of every record that an empty journal comes to. -/
theorem stored_ensures {V : F → Prop}
    (hplan : ∀ f r now p, Q.plan f r now = some p → V (Q.pending p) ∧ V (Q.completed p))
    (hdown : ∀ f, V f → V (Q.downgrade f)) (h : Q.machine.Leads ⟨none, none⟩ j) :
    ∀ f, j.stored = some f → V f := by
  refine (h.preserves (P := fun j => (∀ f, j.stored = some f → V f) ∧
    ∀ p, j.inFlight = some p → V (Q.completed p)) ?_ ⟨nofun, nofun⟩).1
  rintro j e k ⟨hstored, hflight⟩ hstep
  rcases step_cases hstep with ⟨r, now, p, -, hp, rfl⟩ | ⟨r, now, p, -, hp, rfl⟩ |
    ⟨p, -, hp, rfl⟩ | ⟨f, -, hf, rfl⟩
  · simpa using hplan _ _ _ _ hp
  · simpa using (hplan _ _ _ _ hp).2
  · simpa using hflight p hp
  · simpa using hdown f (hstored f hf)

end Planner

end VcWorkspace.Transition
