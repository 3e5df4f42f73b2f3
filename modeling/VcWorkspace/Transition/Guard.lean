import Mathlib.Tactic.Common

/-! # Checked computations

A validation is a sequence of checks, each of which either passes or ends the
computation with an error. The lemmas say what a success establishes.
-/

namespace VcWorkspace.Transition

variable {ε α β : Type} {x : Except ε α} {f : α → Except ε β} {a : α}

/-- Pass when the condition holds and fail with the given error otherwise. -/
def ensure (e : ε) (b : Bool) : Except ε Unit := if b then .ok () else .error e

@[simp] theorem ensure_eq_ok {e : ε} {b : Bool} {u : Unit} : ensure e b = .ok u ↔ b = true := by
  cases b <;> simp [ensure]

theorem bind_eq_ok {b : β} : (x >>= f) = .ok b ↔ ∃ a, x = .ok a ∧ f a = .ok b := by
  cases x <;> simp [bind, Except.bind]

@[simp] theorem seq_eq_ok {x : Except ε Unit} {f : Unit → Except ε β} {y : β} :
    (x >>= f) = .ok y ↔ x = .ok () ∧ f () = .ok y := by
  rw [bind_eq_ok]
  exact ⟨fun ⟨_, hb, hy⟩ => ⟨hb, hy⟩, fun ⟨hb, hy⟩ => ⟨(), hb, hy⟩⟩

@[simp] theorem mapError_eq_ok {ε' : Type} {f : ε → ε'} : x.mapError f = .ok a ↔ x = .ok a := by
  cases x <;> simp [Except.mapError]

@[simp] theorem toOption_eq_some : x.toOption = some a ↔ x = .ok a := by
  cases x <;> simp [Except.toOption]

theorem pure_eq_ok {b : α} : (pure a : Except ε α) = .ok b ↔ b = a :=
  ⟨fun h => (Except.ok.inj h).symm, fun h => h ▸ rfl⟩

theorem exists_pure : ∃ b, (pure a : Except ε α) = .ok b := ⟨a, rfl⟩

theorem exists_bind_pure {f : α → β} :
    (∃ b, (x >>= fun a => pure (f a)) = .ok b) ↔ ∃ a, x = .ok a := by
  cases x <;> simp [bind, Except.bind, pure, Except.pure]

def forEach (f : α → Except ε Unit) : List α → Except ε Unit
  | [] => .ok ()
  | a :: l => do
    f a
    forEach f l

theorem forEach_eq_ok {f : α → Except ε Unit} {l : List α} :
    forEach f l = .ok () ↔ ∀ a ∈ l, f a = .ok () := by
  induction l with
  | nil => simp [forEach]
  | cons a l ih => simp [forEach, ih]

def collect (f : α → Except ε β) : List α → Except ε (List β)
  | [] => .ok []
  | a :: l => do
    let b ← f a
    let bs ← collect f l
    pure (b :: bs)

theorem exists_of_collect {l : List α} {bs : List β} (h : collect f l = .ok bs) (ha : a ∈ l) :
    ∃ b ∈ bs, f a = .ok b := by
  induction l generalizing bs with
  | nil => cases ha
  | cons c l ih =>
    obtain ⟨b, hb, h⟩ := bind_eq_ok.mp h
    obtain ⟨bs', hbs, h⟩ := bind_eq_ok.mp h
    obtain rfl : b :: bs' = bs := Except.ok.inj h
    rcases List.mem_cons.mp ha with rfl | ha
    · exact ⟨b, List.mem_cons_self, hb⟩
    · obtain ⟨b', hb', hf⟩ := ih hbs ha
      exact ⟨b', List.mem_cons_of_mem _ hb', hf⟩

end VcWorkspace.Transition
