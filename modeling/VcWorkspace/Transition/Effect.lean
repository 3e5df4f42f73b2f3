import VcWorkspace.Transition.Guard

/-! # Programs of effects that can fail and crash

A program asks for one effect after another, and what it does next depends on
the answer, which may be an error. A handler performs an effect on a world
under a choice: everything the program does not control, such as what happens
in the meantime, whether the effect fails, and whether a failed effect was
carried out. A run without enough choices has crashed before its next effect,
so the prefixes of a list of choices are the crashes of its run.
-/

namespace VcWorkspace.Transition

/-- Effects `E` with answers in `A` or errors in `ε`, and a result in `α`. -/
inductive Program (E : Type) (A : E → Type) (ε α : Type)
  | done (r : Except ε α)
  | call (e : E) (k : Except ε (A e) → Program E A ε α)

namespace Program

variable {E : Type} {A : E → Type} {ε α β : Type}

def bind : Program E A ε α → (α → Program E A ε β) → Program E A ε β
  | done (.ok a), f => f a
  | done (.error e), _ => done (.error e)
  | call e k, f => call e fun x => (k x).bind f

instance : Monad (Program E A ε) where
  pure a := done (.ok a)
  bind := bind

def lift (x : Except ε α) : Program E A ε α := done x

def perform (e : E) : Program E A ε (A e) := call e done

def check (e : ε) (b : Bool) : Program E A ε Unit := lift (ensure e b)

def demand (e : ε) : Option α → Program E A ε α
  | none => lift (.error e)
  | some a => pure a

def attempt : Program E A ε α → Program E A ε (Except ε α)
  | done r => done (.ok r)
  | call e k => call e fun x => (k x).attempt

def Asks (P : E → Prop) : Program E A ε α → Prop
  | done _ => True
  | call e k => P e ∧ ∀ x, (k x).Asks P

variable {P : E → Prop} {p : Program E A ε α} {f : α → Program E A ε β} {e : E}

@[simp] theorem asks_pure {a : α} : (pure a : Program E A ε α).Asks P ↔ True := Iff.rfl

@[simp] theorem asks_perform : (perform e : Program E A ε (A e)).Asks P ↔ P e := by
  simp [perform, Asks]

theorem Asks.bind (hp : p.Asks P) (hf : ∀ a, (f a).Asks P) : (p >>= f).Asks P := by
  induction p with
  | done r =>
    cases r with
    | ok a => exact hf a
    | error e => trivial
  | call e k ih => exact ⟨hp.1, fun x => ih x (hp.2 x)⟩

theorem Asks.mono {P' : E → Prop} (hp : p.Asks P) (h : ∀ e, P e → P' e) : p.Asks P' := by
  induction p with
  | done r => trivial
  | call e k ih => exact ⟨h e hp.1, fun x => ih x (hp.2 x)⟩

theorem Asks.attempt (hp : p.Asks P) : p.attempt.Asks P := by
  induction p with
  | done r => trivial
  | call e k ih => exact ⟨hp.1, fun x => ih x (hp.2 x)⟩

end Program

/-- A condition on the first of two worlds that carries over to the second. -/
def Keeping {W : Type} (I : W → Prop) (w w' : W) : Prop := I w → I w'

instance {W : Type} (I : W → Prop) : IsPreorder W (Keeping I) where
  refl _ h := h
  trans _ _ _ h h' hw := h' (h hw)

/-- How effects change a world `W` and are answered, under choices `C`. -/
structure Handler (E : Type) (A : E → Type) (ε W C : Type) where
  perform : W → (e : E) → C → W × Except ε (A e)

namespace Handler

variable {E : Type} {A : E → Type} {ε W C α β : Type}

/-- The world and the result after a list of choices; a crash has no result. -/
def run (H : Handler E A ε W C) : Program E A ε α → W → List C → W × Option (Except ε α)
  | .done r, w, _ => (w, some r)
  | .call _ _, w, [] => (w, none)
  | .call e k, w, c :: cs => H.run (k (H.perform w e c).2) (H.perform w e c).1 cs

/-- The world and the result of every run, crashes included, meet a condition. -/
def Ensures (H : Handler E A ε W C) (p : Program E A ε α) (w : W)
    (Q : W → Option (Except ε α) → Prop) : Prop :=
  ∀ cs, Q (H.run p w cs).1 (H.run p w cs).2

/-- The runs whose choices meet a condition. -/
def only (H : Handler E A ε W C) (Φ : C → Prop) : Handler E A ε W {c // Φ c} where
  perform w e c := H.perform w e c.1

variable {H : Handler E A ε W C} {p : Program E A ε α} {f : α → Program E A ε β} {w w' : W} {e : E}
  {k : Except ε (A e) → Program E A ε α} {R : W → W → Prop} {Φ : C → Prop} {cs : List C}

section Runs

/-- A sequence that ends has failed in its first part, or its second part had the other choices. -/
theorem run_bind {r : Except ε β} (h : H.run (p >>= f) w cs = (w', some r)) :
    (∃ e, r = .error e ∧ H.run p w cs = (w', some (.error e))) ∨
      ∃ a w₁ cs₁, cs₁ <:+ cs ∧ H.run p w cs = (w₁, some (.ok a)) ∧
        H.run (f a) w₁ cs₁ = (w', some r) := by
  induction p generalizing w cs with
  | done x =>
    cases x with
    | ok a => exact .inr ⟨a, w, cs, List.suffix_rfl, rfl, h⟩
    | error e =>
      cases h
      exact .inl ⟨e, rfl, rfl⟩
  | call e k ih =>
    cases cs with
    | nil => cases h
    | cons c cs =>
      rcases ih _ h with hfail | ⟨a, w₁, cs₁, hcs, hp, hf⟩
      · exact .inl hfail
      · exact .inr ⟨a, w₁, cs₁, hcs.trans (List.suffix_cons c cs), hp, hf⟩

theorem run_attempt {x : Except ε (Except ε α)} (h : H.run p.attempt w cs = (w', some x)) :
    ∃ r, x = .ok r ∧ H.run p w cs = (w', some r) := by
  induction p generalizing w cs with
  | done r =>
    cases h
    exact ⟨r, rfl, rfl⟩
  | call e k ih =>
    cases cs with
    | nil => cases h
    | cons c cs => exact ih _ h

theorem run_only {cs : List {c // Φ c}} :
    (H.only Φ).run p w cs = H.run p w (cs.map Subtype.val) := by
  induction p generalizing w cs with
  | done r => rfl
  | call e k ih =>
    cases cs with
    | nil => rfl
    | cons c cs => exact ih _

end Runs

section Ensures

variable {Q Q' : W → Option (Except ε α) → Prop} {Q₂ : W → Option (Except ε β) → Prop}

theorem ensures_done {r : Except ε α} : H.Ensures (.done r) w Q ↔ Q w (some r) :=
  ⟨fun h => h [], fun h _ => h⟩

theorem ensures_call : H.Ensures (.call e k) w Q ↔
    Q w none ∧ ∀ c, H.Ensures (k (H.perform w e c).2) (H.perform w e c).1 Q := by
  constructor
  · exact fun h => ⟨h [], fun c cs => h (c :: cs)⟩
  · rintro ⟨hn, hc⟩ (_ | ⟨c, cs⟩)
    · exact hn
    · exact hc c cs

theorem Ensures.mono (h : H.Ensures p w Q) (hQ : ∀ w' o, Q w' o → Q' w' o) : H.Ensures p w Q' :=
  fun cs => hQ _ _ (h cs)

theorem Ensures.of_run {o : Option (Except ε α)} (h : H.Ensures p w Q)
    (hrun : H.run p w cs = (w', o)) : Q w' o := by
  have hend := h cs
  rwa [hrun] at hend

theorem Ensures.only (h : H.Ensures p w Q) : (H.only Φ).Ensures p w Q := by
  intro cs
  rw [run_only]
  exact h _

theorem Ensures.of_only (h : (H.only Φ).Ensures p w Q) (hcs : ∀ c ∈ cs, Φ c) :
    Q (H.run p w cs).1 (H.run p w cs).2 := by
  have hrun := h (cs.attachWith Φ hcs)
  rwa [run_only, List.attachWith_map_subtype_val] at hrun

theorem Ensures.and (h : H.Ensures p w Q) (h' : H.Ensures p w Q') :
    H.Ensures p w fun w' o => Q w' o ∧ Q' w' o :=
  fun cs => ⟨h cs, h' cs⟩

/-- A crash or a failure ends a sequence, and a success goes on with its second part. -/
def AndThen (H : Handler E A ε W C) (f : α → Program E A ε β)
    (Q : W → Option (Except ε β) → Prop) : W → Option (Except ε α) → Prop
  | w, none => Q w none
  | w, some (.error e) => Q w (some (.error e))
  | w, some (.ok a) => H.Ensures (f a) w Q

theorem ensures_bind (h : H.Ensures p w (H.AndThen f Q₂)) : H.Ensures (p >>= f) w Q₂ := by
  induction p generalizing w with
  | done r =>
    have h := ensures_done.mp h
    cases r with
    | ok a => exact h
    | error e => exact ensures_done.mpr h
  | call e k ih =>
    obtain ⟨hn, hc⟩ := ensures_call.mp h
    exact ensures_call.mpr ⟨hn, fun c => ih _ (hc c)⟩

theorem ensures_lift_bind {x : Except ε α} (herror : ∀ e, x = .error e → Q₂ w (some (.error e)))
    (hf : ∀ a, x = .ok a → H.Ensures (f a) w Q₂) : H.Ensures (.lift x >>= f) w Q₂ := by
  cases x with
  | error e => exact ensures_done.mpr (herror e rfl)
  | ok a => exact hf a rfl

theorem ensures_check_bind {f : Unit → Program E A ε β} {error : ε} {b : Bool}
    (herror : b = false → Q₂ w (some (.error error))) (hf : b = true → H.Ensures (f ()) w Q₂) :
    H.Ensures (.check error b >>= f) w Q₂ := by
  cases b with
  | false => exact ensures_done.mpr (herror rfl)
  | true => exact hf rfl

theorem ensures_demand_bind {error : ε} {o : Option α}
    (herror : o = none → Q₂ w (some (.error error)))
    (hf : ∀ a, o = some a → H.Ensures (f a) w Q₂) : H.Ensures (.demand error o >>= f) w Q₂ := by
  cases o with
  | none => exact ensures_done.mpr (herror rfl)
  | some a => exact hf a rfl

theorem ensures_attempt {Q : W → Option (Except ε (Except ε α)) → Prop}
    (h : H.Ensures p w fun w' o => Q w' (o.map .ok)) : H.Ensures p.attempt w Q := by
  induction p generalizing w with
  | done r => exact fun _ => h []
  | call e k ih =>
    obtain ⟨hn, hc⟩ := ensures_call.mp h
    exact ensures_call.mpr ⟨hn, fun c => ih _ (hc c)⟩

/-- The world at every end of a program, after an error too, meets a condition. -/
def Ends (H : Handler E A ε W C) (p : Program E A ε α) (w : W) (Q : W → Prop) : Prop :=
  H.Ensures p w fun w' o => o ≠ none → Q w'

theorem Ends.of_run {Q : W → Prop} {x : Except ε α} (h : H.Ends p w Q)
    (hrun : H.run p w cs = (w', some x)) : Q w' :=
  Ensures.of_run h hrun nofun

theorem Ends.of_only {Q : W → Prop} {x : Except ε α} (h : (H.only Φ).Ends p w Q)
    (hcs : ∀ c ∈ cs, Φ c) (hrun : H.run p w cs = (w', some x)) : Q w' := by
  have hend := Ensures.of_only h hcs
  rw [hrun] at hend
  exact hend nofun

theorem Ends.bind {Q : W → Prop} (h : H.Ends p w Q) (hf : ∀ a w', Q w' → H.Ends (f a) w' Q) :
    H.Ends (p >>= f) w Q := by
  refine ensures_bind (Ensures.mono h fun w' o hw => ?_)
  match o with
  | none => exact fun hnone => absurd rfl hnone
  | some (.error e) => exact fun _ => hw nofun
  | some (.ok a) => exact hf a w' (hw nofun)

theorem Ends.attempt_bind {P Q : W → Prop} {f : Except ε α → Program E A ε β}
    (h : H.Ends p w P) (hf : ∀ r w', P w' → H.Ends (f r) w' Q) : H.Ends (p.attempt >>= f) w Q := by
  refine ensures_bind (ensures_attempt (Ensures.mono h fun w' o hw => ?_))
  match o with
  | none => exact fun hnone => absurd rfl hnone
  | some r => exact hf r w' (hw nofun)

end Ensures

section Within

variable {Q Q' : α → W → Prop} {Q₂ : β → W → Prop} {R' : W → W → Prop} {P : E → Prop}

/-- Wherever the program stops the world is related to the first one, and its results are as
required. -/
def Within (H : Handler E A ε W C) (R : W → W → Prop) (p : Program E A ε α) (Q : α → W → Prop)
    (w : W) : Prop :=
  H.Ensures p w fun w' o => R w w' ∧ ∀ a, o = some (.ok a) → Q a w'

theorem within_pure [Std.Refl R] {a : α} (hQ : Q a w) : H.Within R (pure a) Q w :=
  ensures_done.mpr ⟨refl w, fun _ h => by obtain rfl := Except.ok.inj (Option.some.inj h); exact hQ⟩

theorem within_lift [Std.Refl R] {x : Except ε α} (hQ : ∀ a, x = .ok a → Q a w) :
    H.Within R (.lift x) Q w :=
  ensures_done.mpr ⟨refl w, fun a h => hQ a (Option.some.inj h)⟩

theorem within_perform [Std.Refl R] {Q : A e → W → Prop} (hR : ∀ c, R w (H.perform w e c).1)
    (hQ : ∀ c a, (H.perform w e c).2 = .ok a → Q a (H.perform w e c).1) :
    H.Within R (.perform e) Q w :=
  ensures_call.mpr ⟨⟨refl w, by simp⟩, fun c =>
    ensures_done.mpr ⟨hR c, fun a ha => hQ c a (Option.some.inj ha)⟩⟩

theorem Within.mono (h : H.Within R p Q w) (hR : ∀ w', R w w' → R' w w')
    (hQ : ∀ a w', R w w' → Q a w' → Q' a w') : H.Within R' p Q' w :=
  Ensures.mono h fun w' _ hw => ⟨hR w' hw.1, fun a ha => hQ a w' hw.1 (hw.2 a ha)⟩

theorem Within.post (h : H.Within R p Q w) (hQ : ∀ a w', R w w' → Q a w' → Q' a w') :
    H.Within R p Q' w :=
  h.mono (fun _ h => h) hQ

/-- Inside a program with more freedom, a part still does no more than it does alone. -/
theorem Within.widen (h : H.Within R p Q w) (hR : ∀ w', R w w' → R' w w') :
    H.Within R' p (fun a w' => R w w' ∧ Q a w') w :=
  h.mono hR fun _ _ hw hq => ⟨hw, hq⟩

theorem Within.and (h : H.Within R p Q w) (h' : H.Within R' p Q' w) :
    H.Within (fun w w' => R w w' ∧ R' w w') p (fun a w' => Q a w' ∧ Q' a w') w :=
  (Ensures.and h h').mono fun _ _ hw =>
    ⟨⟨hw.1.1, hw.2.1⟩, fun a ha => ⟨hw.1.2 a ha, hw.2.2 a ha⟩⟩

theorem Within.bind [IsTrans W R] (hp : H.Within R p Q w)
    (hf : ∀ a w', R w w' → Q a w' → H.Within R (f a) Q₂ w') : H.Within R (p >>= f) Q₂ w := by
  refine ensures_bind (Ensures.mono hp fun w' o hw => ?_)
  match o with
  | none | some (.error e) => exact ⟨hw.1, by simp⟩
  | some (.ok a) =>
    intro cs
    obtain ⟨hR, hQ⟩ := hf a w' hw.1 (hw.2 a rfl) cs
    exact ⟨IsTrans.trans _ _ _ hw.1 hR, hQ⟩

theorem within_lift_bind [Std.Refl R] {x : Except ε α}
    (hf : ∀ a, x = .ok a → H.Within R (f a) Q₂ w) : H.Within R (.lift x >>= f) Q₂ w := by
  cases x with
  | error e => exact within_lift nofun
  | ok a => exact hf a rfl

theorem within_check [Std.Refl R] {Q : Unit → W → Prop} {error : ε} {b : Bool}
    (hQ : b = true → Q () w) : H.Within R (.check error b) Q w :=
  within_lift fun _ h => hQ (ensure_eq_ok.mp h)

theorem within_check_bind [Std.Refl R] {f : Unit → Program E A ε β} {error : ε} {b : Bool}
    (hf : b = true → H.Within R (f ()) Q₂ w) : H.Within R (.check error b >>= f) Q₂ w :=
  within_lift_bind fun _ h => hf (ensure_eq_ok.mp h)

theorem within_demand_bind [Std.Refl R] {error : ε} {o : Option α}
    (hf : ∀ a, o = some a → H.Within R (f a) Q₂ w) : H.Within R (.demand error o >>= f) Q₂ w := by
  cases o with
  | none => exact within_lift nofun
  | some a => exact hf a rfl

/-- A failed attempt leaves a related world, and a successful one its result. -/
theorem Within.attempt (h : H.Within R p Q w) :
    H.Within R p.attempt (fun x w' => ∀ a, x = .ok a → Q a w') w := by
  refine ensures_attempt (Ensures.mono h fun w' o hw => ⟨hw.1, fun x hx a ha => ?_⟩)
  obtain rfl := ha
  obtain ⟨y, rfl, hy⟩ := Option.map_eq_some_iff.mp hx
  cases hy
  exact hw.2 a rfl

/-- The first part of a sequence, under a condition on all outcomes of the whole. -/
theorem Within.ensures_bind {Q₃ : W → Option (Except ε β) → Prop} (hp : H.Within R p Q w)
    (hstop : ∀ w', R w w' → Q₃ w' none ∧ ∀ e, Q₃ w' (some (.error e)))
    (hf : ∀ a w', R w w' → Q a w' → H.Ensures (f a) w' Q₃) : H.Ensures (p >>= f) w Q₃ := by
  refine Handler.ensures_bind (Ensures.mono hp fun w' o hw => ?_)
  match o with
  | none => exact (hstop w' hw.1).1
  | some (.error e) => exact (hstop w' hw.1).2 e
  | some (.ok a) => exact hf a w' hw.1 (hw.2 a rfl)

theorem within_of_asks [IsPreorder W R] (hstep : ∀ w e c, P e → R w (H.perform w e c).1)
    (hp : p.Asks P) (w : W) : H.Within R p (fun _ _ => True) w := by
  induction p generalizing w with
  | done r => exact ensures_done.mpr ⟨refl w, fun _ _ => trivial⟩
  | call e k ih =>
    refine ensures_call.mpr ⟨⟨refl w, fun _ _ => trivial⟩, fun c => ?_⟩
    refine Ensures.mono (ih _ (hp.2 _) _) fun w' _ hw => ⟨?_, hw.2⟩
    exact IsTrans.trans _ _ _ (hstep w e c hp.1) hw.1

end Within

end Handler

/-- A world that changes on its own before an effect, which may fail, with or without being carried
out. -/
structure Host (E : Type) (A : E → Type) (ε W C : Type) where
  drift : C → W → W
  /-- The world after an effect that is carried out or not and succeeds or not. -/
  after : C → Bool → Bool → W → E → W
  answer : C → W → (e : E) → Except ε (A e)
  fallible : E → Bool
  error : C → Option ε
  applied : C → Bool

namespace Host

open Handler

variable {E : Type} {A : E → Type} {ε W C α : Type}

def handler (S : Host E A ε W C) : Handler E A ε W C where
  perform w e c :=
    let w := S.drift c w
    match S.error c with
    | some error =>
      if S.fallible e then (S.after c (S.applied c) false w e, .error error)
      else (S.after c true true w e, S.answer c w e)
    | none => (S.after c true true w e, S.answer c w e)

variable {S : Host E A ε W C} {p : Program E A ε α} {w : W} {e : E} {R : W → W → Prop}
  {P : E → Prop}

theorem perform_cases (S : Host E A ε W C) (w : W) (e : E) (c : C) :
    (∃ error, S.error c = some error ∧ S.fallible e = true ∧ S.handler.perform w e c =
        (S.after c (S.applied c) false (S.drift c w) e, .error error)) ∨
      S.handler.perform w e c =
        (S.after c true true (S.drift c w) e, S.answer c (S.drift c w) e) := by
  simp only [handler]
  split
  next error herror =>
    split
    next hfallible => exact .inl ⟨error, herror, hfallible, rfl⟩
    · exact .inr rfl
  · exact .inr rfl

theorem within_perform [Std.Refl R] {Q : A e → W → Prop}
    (hR : ∀ c applied ok, (ok = true → applied = true) → R w (S.after c applied ok (S.drift c w) e))
    (hQ : ∀ c x, S.answer c (S.drift c w) e = .ok x → Q x (S.after c true true (S.drift c w) e)) :
    S.handler.Within R (.perform e) Q w := by
  refine Handler.within_perform (fun c => ?_) fun c x hx => ?_
  · obtain ⟨_, -, -, h⟩ | h := S.perform_cases w e c
    · exact h ▸ hR c _ false nofun
    · exact h ▸ hR c true true fun h => h
  · obtain ⟨_, -, -, h⟩ | h := S.perform_cases w e c
    · rw [h] at hx
      cases hx
    · rw [h] at hx ⊢
      exact hQ c x hx

theorem within_of_asks [IsPreorder W R] (hdrift : ∀ c w, R w (S.drift c w))
    (hafter : ∀ c applied ok w e, P e → (ok = true → applied = true) →
      R w (S.after c applied ok w e))
    (hp : p.Asks P) (w : W) : S.handler.Within R p (fun _ _ => True) w := by
  refine Handler.within_of_asks (fun w e c he => ?_) hp w
  refine IsTrans.trans _ _ _ (hdrift c w) ?_
  obtain ⟨_, -, -, h⟩ | h := S.perform_cases w e c
  · exact h ▸ hafter c _ false _ e he nofun
  · exact h ▸ hafter c true true _ e he fun h => h

theorem ensures_perform {Q : W → Option (Except ε (A e)) → Prop} (hstop : Q w none)
    (hfail : S.fallible e = true → ∀ c error,
      Q (S.after c (S.applied c) false (S.drift c w) e) (some (.error error)))
    (hQ : ∀ c, Q (S.after c true true (S.drift c w) e) (some (S.answer c (S.drift c w) e))) :
    S.handler.Ensures (.perform e) w Q := by
  refine ensures_call.mpr ⟨hstop, fun c => ensures_done.mpr ?_⟩
  obtain ⟨error, -, hfallible, h⟩ | h := S.perform_cases w e c
  · exact h ▸ hfail hfallible c error
  · exact h ▸ hQ c

/-- An effect that does not fail by choice. -/
theorem ensures_perform_only {Φ : C → Prop} {Q : W → Option (Except ε (A e)) → Prop}
    (hΦ : ∀ c, Φ c → S.error c = none) (hstop : Q w none)
    (hQ : ∀ c, Φ c → Q (S.after c true true (S.drift c w) e) (some (S.answer c (S.drift c w) e))) :
    (S.handler.only Φ).Ensures (.perform e) w Q := by
  refine ensures_call.mpr ⟨hstop, fun c => ensures_done.mpr ?_⟩
  change Q (S.handler.perform w e c.1).1 (some (S.handler.perform w e c.1).2)
  obtain ⟨_, herror, -⟩ | h := S.perform_cases w e c.1
  · rw [hΦ c.1 c.2] at herror
    cases herror
  · exact h ▸ hQ c.1 c.2

theorem ensures_perform_only_bind {β : Type} {f : A e → Program E A ε β} {Φ : C → Prop}
    {Q : W → Option (Except ε β) → Prop} (hΦ : ∀ c, Φ c → S.error c = none) (hstop : Q w none)
    (herror : ∀ c error, Φ c → S.answer c (S.drift c w) e = .error error →
      Q (S.after c true true (S.drift c w) e) (some (.error error)))
    (hf : ∀ c a, Φ c → S.answer c (S.drift c w) e = .ok a →
      (S.handler.only Φ).Ensures (f a) (S.after c true true (S.drift c w) e) Q) :
    (S.handler.only Φ).Ensures (.perform e >>= f) w Q := by
  refine ensures_bind (ensures_perform_only hΦ hstop fun c hc => ?_)
  cases ha : S.answer c (S.drift c w) e with
  | error error => exact herror c error hc ha
  | ok a => exact hf c a hc ha

end Host

end VcWorkspace.Transition
