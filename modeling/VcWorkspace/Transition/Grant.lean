import Mathlib.Order.Lattice

/-! # Grants ordered by epochs

A grant gives one holder control until a deadline, or takes control away, at an
epoch. A successor is admitted only if its epoch does not go back and, inside
one epoch, only if it keeps an active grant's holder and does not shorten it.
Admission is a preorder, so what it says of neighbours holds along a history.
-/

namespace VcWorkspace.Transition

structure Grant (ε ω δ : Type*) where
  epoch : ε
  active : Bool
  holder : ω
  deadline : δ

namespace Grant

variable {ε ω δ : Type*} [LinearOrder ε] [Preorder δ] {g h k : Grant ε ω δ}

def Admits (g h : Grant ε ω δ) : Prop :=
  g.epoch ≤ h.epoch ∧ (h.epoch = g.epoch → h.active = true →
    g.active = true ∧ g.holder = h.holder ∧ g.deadline ≤ h.deadline)

theorem Admits.refl (g : Grant ε ω δ) : Admits g g :=
  ⟨le_rfl, fun _ ha => ⟨ha, rfl, le_rfl⟩⟩

theorem Admits.trans (h₁ : Admits g h) (h₂ : Admits h k) : Admits g k := by
  constructor
  · exact h₁.1.trans h₂.1
  · intro he ha
    have hhk : k.epoch = h.epoch := le_antisymm (he.trans_le h₁.1) h₂.1
    have hgh : h.epoch = g.epoch := hhk.symm.trans he
    obtain ⟨hactive, hholder, hdeadline⟩ := h₂.2 hhk ha
    obtain ⟨hactive', hholder', hdeadline'⟩ := h₁.2 hgh hactive
    exact ⟨hactive', hholder'.trans hholder, hdeadline'.trans hdeadline⟩

theorem Admits.epoch_lt (ha : Admits g h) (hg : g.active = false) (hh : h.active = true) :
    g.epoch < h.epoch := by
  apply lt_of_le_of_ne ha.1
  intro he
  have hactive := (ha.2 he.symm hh).1
  rw [hg] at hactive
  cases hactive

end Grant

end VcWorkspace.Transition
