import Mathlib.Tactic.Common
import Mathlib.Order.Nat

/-! # Guarded transition systems

A machine is an executable step function on states: a step is `none` when its
action is not enabled. Runs replay a list of actions, and every safety result
about runs comes from what a single step preserves.
-/

namespace VcWorkspace.Transition

structure Machine (σ α : Type*) where
  Init : σ → Prop
  step : σ → α → Option σ

namespace Machine

variable {σ α : Type*} (M : Machine σ α)

/-- Replay a list of actions; `none` when one of them is not enabled. -/
def run : σ → List α → Option σ
  | s, [] => some s
  | s, a :: as => (M.step s a).bind fun t => run t as

def Leads (s t : σ) : Prop := ∃ as, M.run s as = some t

def Reachable (s : σ) : Prop := ∃ s₀, M.Init s₀ ∧ M.Leads s₀ s

def restrict (p : σ → α → Bool) : Machine σ α where
  Init := M.Init
  step s a := if p s a then M.step s a else none

def Along (P : σ → Prop) : σ → List α → Prop
  | s, [] => P s
  | s, a :: as => P s ∧ ∀ t, M.step s a = some t → Along P t as

variable {M} {s t u : σ} {a : α} {as bs : List α} {P : σ → Prop} {p : σ → α → Bool}

@[simp] theorem run_nil : M.run s [] = some t ↔ s = t := by simp [run]

@[simp] theorem run_cons :
    M.run s (a :: as) = some t ↔ ∃ u, M.step s a = some u ∧ M.run u as = some t := by
  simp [run, Option.bind_eq_some_iff]

theorem run_append :
    M.run s (as ++ bs) = some t ↔ ∃ u, M.run s as = some u ∧ M.run u bs = some t := by
  induction as generalizing s with
  | nil => simp
  | cons a as ih =>
    simp only [List.cons_append, run_cons, ih]
    constructor
    · rintro ⟨v, hv, w, hw, ht⟩
      exact ⟨w, ⟨v, hv, hw⟩, ht⟩
    · rintro ⟨w, ⟨v, hv, hw⟩, ht⟩
      exact ⟨v, hv, w, hw, ht⟩

theorem Leads.refl (s : σ) : M.Leads s s := ⟨[], by simp⟩

theorem Leads.trans (h : M.Leads s t) (h' : M.Leads t u) : M.Leads s u := by
  obtain ⟨as, has⟩ := h
  obtain ⟨bs, hbs⟩ := h'
  exact ⟨as ++ bs, run_append.mpr ⟨t, has, hbs⟩⟩

theorem Leads.of_step (h : M.step s a = some t) : M.Leads s t := ⟨[a], by simp [h]⟩

theorem Reachable.init (h : M.Init s) : M.Reachable s := ⟨s, h, .refl s⟩

theorem Reachable.leads (h : M.Reachable s) (h' : M.Leads s t) : M.Reachable t := by
  obtain ⟨s₀, h₀, hs⟩ := h
  exact ⟨s₀, h₀, hs.trans h'⟩

theorem Reachable.step (h : M.Reachable s) (h' : M.step s a = some t) : M.Reachable t :=
  h.leads (.of_step h')

/-- A replay from an initial state that passes a test ends in a reachable state that does. -/
theorem exists_reachable_of_run [DecidablePred P] (s : σ) (as : List α) (hi : M.Init s)
    (h : (M.run s as).any (fun t => decide (P t)) = true) : ∃ t, M.Reachable t ∧ P t := by
  obtain ⟨t, ht, hp⟩ := (Option.any_eq_true _ _).mp h
  exact ⟨t, ⟨s, hi, as, ht⟩, of_decide_eq_true hp⟩

theorem Leads.preserves (h : M.Leads s t) (hstep : ∀ s a t, P s → M.step s a = some t → P t)
    (hs : P s) : P t := by
  obtain ⟨as, h⟩ := h
  induction as generalizing s with
  | nil => exact run_nil.mp h ▸ hs
  | cons a as ih =>
    obtain ⟨u, hu, ht⟩ := run_cons.mp h
    exact ih (hstep s a u hs hu) ht

/-- What every step from a state under a condition keeps, a run under the condition keeps. -/
theorem Along.preserves {Q : σ → Prop} (hQ : M.Along Q s as)
    (hstep : ∀ s a t, Q s → P s → M.step s a = some t → P t) (h : M.run s as = some t) (hs : P s) :
    P t := by
  induction as generalizing s with
  | nil => exact run_nil.mp h ▸ hs
  | cons a as ih =>
    obtain ⟨u, hu, ht⟩ := run_cons.mp h
    exact ih (hQ.2 u hu) ht (hstep s a u hQ.1 hs hu)

theorem Along.last (hP : M.Along P s as) (h : M.run s as = some t) : P t := by
  induction as generalizing s with
  | nil => exact run_nil.mp h ▸ hP
  | cons a as ih =>
    obtain ⟨u, hu, ht⟩ := run_cons.mp h
    exact ih (hP.2 u hu) ht

/-- A preorder that holds across every step from a good state holds across every run. -/
theorem Leads.relates {R : σ → σ → Prop} (hr : ∀ s, R s s) (ht : ∀ s t u, R s t → R t u → R s u)
    (hP : ∀ s a t, P s → M.step s a = some t → P t)
    (hR : ∀ s a t, P s → M.step s a = some t → R s t) (h : M.Leads s t) (hs : P s) : R s t := by
  obtain ⟨as, h⟩ := h
  induction as generalizing s with
  | nil => exact run_nil.mp h ▸ hr s
  | cons a as ih =>
    obtain ⟨u, hu, h⟩ := run_cons.mp h
    exact ht s u t (hR s a u hs hu) (ih (hP s a u hs hu) h)

/-- A reading that every step replaces along a preorder is replaced along it by every run. -/
theorem Leads.carries {β : Type*} {f : σ → Option β} {R : β → β → Prop} (hr : ∀ b, R b b)
    (ht : ∀ b c d, R b c → R c d → R b d)
    (hstep : ∀ s a t b, M.step s a = some t → f s = some b → ∃ c, f t = some c ∧ R b c)
    (h : M.Leads s t) {b : β} (hb : f s = some b) : ∃ c, f t = some c ∧ R b c := by
  obtain ⟨as, h⟩ := h
  induction as generalizing s b with
  | nil => exact ⟨b, run_nil.mp h ▸ hb, hr b⟩
  | cons a as ih =>
    obtain ⟨u, hu, h⟩ := run_cons.mp h
    obtain ⟨c, hc, hbc⟩ := hstep s a u b hu hb
    obtain ⟨d, hd, hcd⟩ := ih hc h
    exact ⟨d, hd, ht b c d hbc hcd⟩

theorem exit_of_run (hs : P s) (ht : ¬ P t) (h : M.run s as = some t) :
    ∃ as₁ a as₂ u v, as = as₁ ++ a :: as₂ ∧ M.run s as₁ = some u ∧ P u ∧ M.step u a = some v ∧
      ¬ P v := by
  induction as generalizing s with
  | nil => exact absurd (run_nil.mp h ▸ hs) ht
  | cons a as ih =>
    obtain ⟨u, hu, h⟩ := run_cons.mp h
    by_cases hp : P u
    · obtain ⟨as₁, b, as₂, v, w, rfl, hv, hpv, hw, hn⟩ := ih hp h
      exact ⟨a :: as₁, b, as₂, v, w, rfl, run_cons.mpr ⟨u, hu, hv⟩, hpv, hw, hn⟩
    · exact ⟨[], a, as, s, u, rfl, run_nil.mpr rfl, hs, hu, hp⟩

/-- What holds initially and is kept by every step from a reachable state always holds. -/
theorem Reachable.invariant (h : M.Reachable s) (hi : ∀ s, M.Init s → P s)
    (hstep : ∀ s a t, M.Reachable s → P s → M.step s a = some t → P t) : P s := by
  obtain ⟨s₀, h₀, hs⟩ := h
  refine (hs.preserves (P := fun s => M.Reachable s ∧ P s) ?_ ⟨.init h₀, hi s₀ h₀⟩).2
  rintro s a t ⟨hr, hp⟩ ha
  exact ⟨hr.step ha, hstep s a t hr hp ha⟩

theorem Reachable.mono {N : Machine σ α} (h : M.Reachable s) (hinit : ∀ s, M.Init s → N.Init s)
    (hstep : ∀ s a t, M.step s a = some t → N.step s a = some t) : N.Reachable s := by
  refine h.invariant (fun s hs => .init (hinit s hs)) ?_
  exact fun s a t _ hs ha => hs.step (hstep s a t ha)

@[simp] theorem step_restrict :
    (M.restrict p).step s a = some t ↔ p s a = true ∧ M.step s a = some t := by
  simp [restrict]

theorem Reachable.of_restrict (h : (M.restrict p).Reachable s) : M.Reachable s :=
  h.mono (fun _ hs => hs) fun _ _ _ ha => (step_restrict.mp ha).2

end Machine

end VcWorkspace.Transition
