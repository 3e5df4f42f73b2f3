import Mathlib.Tactic.Common
import Mathlib.Order.Nat

/-! # Numbered requests

Requests for one piece of work are counted, and a worker acknowledges the number
it read before it started. What the worker has established since then survives
as long as no newer request arrived, which is exactly when its acknowledgement
is taken.
-/

namespace VcWorkspace.Transition

/-- The numbers of the last request and of the last acknowledged one. -/
structure Queue where
  requested : ℕ
  completed : ℕ
  ordered : completed ≤ requested
  deriving DecidableEq, Repr

namespace Queue

def first : Queue := ⟨1, 0, Nat.zero_le 1⟩

def request (q : Queue) : Queue := ⟨q.requested + 1, q.completed, Nat.le_succ_of_le q.ordered⟩

def pending (q : Queue) : Bool := q.completed < q.requested

/-- Acknowledge the number `v`, unless a newer request arrived or it was acknowledged before. -/
def complete (q : Queue) (v : ℕ) : Option Queue :=
  if q.requested = v ∧ q.completed < v then some ⟨v, v, le_rfl⟩ else none

/-- A fact established after the number `v` was read, void once a newer request arrives. -/
def Since (q : Queue) (v : ℕ) (P : Prop) : Prop := v ≤ q.requested ∧ (q.requested = v → P)

def Settles (q : Queue) (P : Prop) : Prop := q.requested = q.completed → P

variable {q q' : Queue} {v : ℕ} {P Q : Prop}

theorem Since.mono (h : q.Since v P) (hPQ : P → Q) : q.Since v Q :=
  ⟨h.1, fun hv => hPQ (h.2 hv)⟩

theorem Since.request (h : q.Since v P) : q.request.Since v Q := by
  constructor
  · exact Nat.le_succ_of_le h.1
  · intro hv
    have hle := h.1
    simp only [Queue.request] at hv
    omega

theorem Settles.request : q.request.Settles P := by
  intro h
  have hle := q.ordered
  simp only [Queue.request] at h
  omega

theorem Settles.mono (h : q.Settles P) (hPQ : P → Q) : q.Settles Q := fun hv => hPQ (h hv)

theorem complete_eq_some (h : q.complete v = some q') :
    q.requested = v ∧ q'.requested = v ∧ q'.completed = v := by
  unfold complete at h
  split at h
  next hc =>
    cases h
    exact ⟨hc.1, rfl, rfl⟩
  · cases h

/-- An acknowledgement that is taken makes what its worker has established hold. -/
theorem Since.complete (h : q.Since v P) (hc : q.complete v = some q') : q'.Settles P :=
  fun _ => h.2 (complete_eq_some hc).1

theorem Since.of_complete {w : ℕ} (h : q.Since v P) (hc : q.complete w = some q') :
    q'.Since v P := by
  obtain ⟨hq, hq', -⟩ := complete_eq_some hc
  rw [Since, hq', ← hq]
  exact h

end Queue

end VcWorkspace.Transition
