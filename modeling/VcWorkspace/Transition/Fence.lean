import VcWorkspace.Transition.Effect

/-! # Durable fences around effects

A call stores a pending fence, runs its commands, sees them converge and
stores the completed fence; when it fails in between, it stores a revoked fence
and shuts down what it can. The results say what the durable record is worth
wherever the call ends or crashes: a live fence is backed by the commands that
ran before it was stored, and a call that fails behind its pending fence ends with
its clean-up.
-/

namespace VcWorkspace.Transition

open List Handler

structure Written (F X : Type) where
  fence : F
  ran : List X
  deriving DecidableEq, Repr

/-- The durable fence and its history, newest first; the commands and the writes of this call. -/
structure Ledger (F X : Type) where
  fence : Option F
  history : List (Written F X)
  ran : List X
  persisted : List (F × Bool)

namespace Ledger

variable {F X : Type}

structure Keeps (l l' : Ledger F X) : Prop where
  fence : l'.fence = l.fence
  history : l'.history = l.history
  persisted : l'.persisted = l.persisted

/-- A write of the record that may have failed, with or without being carried out. -/
structure Stores (f : F) (l l' : Ledger F X) : Prop where
  ran : l'.ran = l.ran
  stored : l'.fence = l.fence ∧ l'.history = l.history ∨
    l'.fence = some f ∧ l'.history = ⟨f, l.ran⟩ :: l.history
  persisted : l'.persisted = l.persisted ∨ l'.persisted = l.persisted ++ [(f, false)] ∨
    l'.persisted = l.persisted ++ [(f, true)] ∧ l'.fence = some f

structure Stored (f : F) (l l' : Ledger F X) : Prop where
  fence : l'.fence = some f
  history : l'.history = ⟨f, l.ran⟩ :: l.history
  persisted : l'.persisted = l.persisted ++ [(f, true)]

def put (applied ok : Bool) (f : F) (l : Ledger F X) : Ledger F X where
  fence := if applied then some f else l.fence
  history := if applied then ⟨f, l.ran⟩ :: l.history else l.history
  ran := l.ran
  persisted := l.persisted ++ [(f, ok)]

theorem stores_put {applied ok : Bool} {f : F} {l : Ledger F X} (h : ok = true → applied = true) :
    l.Stores f (l.put applied ok f) := by
  refine ⟨rfl, ?_, ?_⟩
  · cases applied <;> simp [put]
  · cases ok with
    | false => exact .inr (.inl rfl)
    | true =>
      obtain rfl := h rfl
      exact .inr (.inr ⟨rfl, rfl⟩)

theorem Stores.mem {f : F} {l l' : Ledger F X} {x : F × Bool} (h : l.Stores f l')
    (hx : x ∈ l.persisted) : x ∈ l'.persisted := by
  rcases h.persisted with hp | hp | ⟨hp, -⟩ <;> rw [hp]
  · exact hx
  · exact mem_append_left _ hx
  · exact mem_append_left _ hx

instance (f : F) : Std.Refl (Stores (X := X) f) := ⟨fun _ => ⟨rfl, .inl ⟨rfl, rfl⟩, .inl rfl⟩⟩

end Ledger

section Programs

variable {E : Type} {A : E → Type} {ε F : Type} (store : F → Program E A ε Unit)

def closeWith (revoked : F) (shut : Program E A ε Unit) : Program E A ε Unit := do
  let _ ← (store revoked).attempt
  let _ ← shut.attempt
  pure ()

/-- Run the commands, see them converge and store the completed fence. -/
def execute (mutate converged : Program E A ε Unit) (completed : F) : Program E A ε F := do
  mutate
  converged
  store completed
  pure completed

def settle (close : Program E A ε Unit) : Except ε F → Program E A ε F
  | .ok f => pure f
  | .error e => do
    close
    .lift (.error e)

def carry (observeOnly : Bool) (pending completed : F)
    (mutate converged close : Program E A ε Unit) : Program E A ε F :=
  if observeOnly then pure completed
  else do
    store pending
    let result ← (execute store mutate converged completed).attempt
    settle close result

end Programs

/-- The fences in a live phase, and what the history of the record owes to each of them. -/
structure Discipline (F X : Type) where
  Live : F → Prop
  Backed : F → List (Written F X) → Prop

/-- How a platform stores fences: `Frame` relates worlds with the same record, `Write` those around
a write of the record. -/
structure Platform (E : Type) (A : E → Type) (ε W C F X : Type) where
  host : Handler E A ε W C
  ledger : W → Ledger F X
  store : F → Program E A ε Unit
  Valid : F → Prop
  Frame : W → W → Prop
  Write : F → W → W → Prop
  frame_keeps : ∀ w w', Frame w w' → (ledger w).Keeps (ledger w')
  write_stores : ∀ f w w', Write f w w' → (ledger w).Stores f (ledger w')
  store_spec : ∀ f w, host.Within (Write f) (store f)
    (fun _ w' => (ledger w).Stored f (ledger w')) w
  /-- Only a malformed fence is refused before the write. -/
  store_tries : ∀ f w, host.Ensures (store f) w fun w' o => ∀ x, o = some x →
    (¬ Valid f ∧ w' = w) ∨ (ledger w').persisted = (ledger w).persisted ++ [(f, x.isOk)]

namespace Platform

variable {E : Type} {A : E → Type} {ε W C F X : Type}

def Consistent (M : Platform E A ε W C F X) (D : Discipline F X) (w : W) : Prop :=
  ∀ f, (M.ledger w).fence = some f → D.Live f → D.Backed f (M.ledger w).history

/-- The record is consistent, there is one, and a successful write of the revoked fence was the
last one of its call. -/
structure Safe (M : Platform E A ε W C F X) (D : Discipline F X) (revoked : F) (w : W) : Prop where
  consistent : M.Consistent D w
  stored : (M.ledger w).fence ≠ none
  final : (revoked, true) ∈ (M.ledger w).persisted → (M.ledger w).fence = some revoked

structure Pend (M : Platform E A ε W C F X) (pending : F) (older : List (Written F X)) (w : W) :
    Prop where
  fence : (M.ledger w).fence = some pending
  history : (M.ledger w).history = ⟨pending, []⟩ :: older
  persisted : (M.ledger w).persisted = [(pending, true)]

variable {M : Platform E A ε W C F X} {D : Discipline F X} {w w' : W}
  {f pending completed revoked : F} {older : List (Written F X)}

section Records

theorem Consistent.keeps (h : M.Consistent D w) (hk : (M.ledger w).Keeps (M.ledger w')) :
    M.Consistent D w' :=
  fun f hf hl => by rw [hk.history]; exact h f (by rw [← hk.fence, hf]) hl

theorem Consistent.stores (h : M.Consistent D w) (hf : ¬ D.Live f)
    (hs : (M.ledger w).Stores f (M.ledger w')) : M.Consistent D w' := by
  intro g hg hl
  rcases hs.stored with ⟨hfence, hhist⟩ | ⟨hfence, hhist⟩
  · rw [hhist]
    exact h g (by rw [← hfence, hg]) hl
  · cases hfence.symm.trans hg
    exact absurd hl hf

theorem Safe.keeps (h : M.Safe D revoked w) (hk : (M.ledger w).Keeps (M.ledger w')) :
    M.Safe D revoked w' :=
  ⟨h.consistent.keeps hk, by rw [hk.fence]; exact h.stored,
    fun hm => by rw [hk.fence]; exact h.final (hk.persisted ▸ hm)⟩

theorem Safe.stores (h : M.Safe D revoked w) (hrev : ¬ D.Live revoked)
    (hs : (M.ledger w).Stores revoked (M.ledger w')) : M.Safe D revoked w' := by
  have hstays : (M.ledger w).fence = some revoked → (M.ledger w').fence = some revoked :=
    fun hf => hs.stored.elim (fun hs => hs.1.trans hf) fun hs => hs.1
  refine ⟨h.consistent.stores hrev hs, ?_, fun hm => ?_⟩
  · rcases hs.stored with hs | hs
    · rw [hs.1]; exact h.stored
    · simp [hs.1]
  · rcases hs.persisted with hp | hp | hp
    · exact hstays (h.final (hp ▸ hm))
    · exact hstays (h.final (by simpa [hp] using hm))
    · exact hp.2

theorem Pend.keeps (h : M.Pend pending older w) (hk : (M.ledger w).Keeps (M.ledger w')) :
    M.Pend pending older w' :=
  ⟨hk.fence.trans h.fence, hk.history.trans h.history, hk.persisted.trans h.persisted⟩

theorem Pend.safe (h : M.Pend pending older w) (hpend : ¬ D.Live pending) : M.Safe D revoked w := by
  refine ⟨fun f hf hl => ?_, by simp [h.fence], fun hm => ?_⟩
  · cases h.fence.symm.trans hf
    exact absurd hl hpend
  · rw [h.persisted, mem_singleton] at hm
    exact h.fence.trans (congrArg some (congrArg Prod.fst hm).symm)

/-- Storing the completed fence, reported as successful or not. Only a revocation stores the revoked
fence itself. -/
theorem Pend.completes (h : M.Pend pending older w) (hpend : ¬ D.Live pending)
    (hrev : pending = revoked ∨ completed = revoked → pending = revoked ∧ completed = revoked)
    (hback : D.Live completed →
      D.Backed completed (⟨completed, (M.ledger w).ran⟩ :: ⟨pending, []⟩ :: older))
    (hs : (M.ledger w).Stores completed (M.ledger w')) : M.Safe D revoked w' := by
  have hfence : (M.ledger w').fence = some pending ∨ (M.ledger w').fence = some completed :=
    hs.stored.imp (fun hs => hs.1.trans h.fence) fun hs => hs.1
  refine ⟨fun f hf hl => ?_, ?_, fun hm => ?_⟩
  · rcases hs.stored with hs | hs
    · cases (hs.1.trans h.fence).symm.trans hf
      exact absurd hl hpend
    · cases hs.1.symm.trans hf
      rw [hs.2, h.history]
      exact hback hl
  · rcases hfence with hf | hf <;> simp [hf]
  · have heq : pending = revoked ∨ completed = revoked := by
      rcases hs.persisted with hs | hs | ⟨hs, -⟩ <;> rw [hs, h.persisted] at hm
      · exact .inl (Prod.mk.inj (mem_singleton.mp hm)).1.symm
      · simp only [cons_append, nil_append, mem_cons, Prod.mk.injEq,
          not_mem_nil, or_false, Bool.true_eq_false, and_false, and_true] at hm
        exact .inl hm.symm
      · simp only [cons_append, nil_append, mem_cons, Prod.mk.injEq,
          not_mem_nil, or_false, and_true] at hm
        exact hm.imp Eq.symm Eq.symm
    obtain ⟨hp, hc⟩ := hrev heq
    rcases hfence with hf | hf
    · rw [hf, hp]
    · rw [hf, hc]

end Records

section Calls

variable {mutate converged close shut : Program E A ε Unit} {R P : W → W → Prop} {Q : W → Prop}
  {observeOnly : Bool}

theorem closeWith_ends {C' : Type} {H : Handler E A ε W C'} {S : W → Prop}
    {store : F → Program E A ε Unit} (hstore : H.Ends (store revoked) w S)
    (hshut : ∀ w', S w' → H.Ends shut w' Q) : H.Ends (closeWith store revoked shut) w Q :=
  hstore.attempt_bind fun _ w₁ h₁ => (hshut w₁ h₁).attempt_bind
    fun _ _ h₂ => ensures_done.mpr fun _ => h₂

theorem closeWith_spec (hrev : ¬ D.Live revoked)
    (hshut : ∀ w, M.host.Within M.Frame shut (fun _ _ => True) w) (w : W) :
    M.host.Within (Keeping (M.Safe D revoked)) (closeWith M.store revoked shut)
      (fun _ _ => True) w := by
  have hstore : M.host.Within (Keeping (M.Safe D revoked)) (M.store revoked) (fun _ _ => True) w :=
    (M.store_spec revoked w).mono (fun w' hr hs => hs.stores hrev (M.write_stores _ _ _ hr))
      fun _ _ _ _ => trivial
  have hclose : ∀ w, M.host.Within (Keeping (M.Safe D revoked)) shut (fun _ _ => True) w :=
    fun w => (hshut w).mono (fun w' hf hs => hs.keeps (M.frame_keeps _ _ hf)) fun _ _ _ h => h
  refine hstore.attempt.bind fun _ w₁ _ _ => (hclose w₁).attempt.bind fun _ w₂ _ _ => ?_
  exact within_pure trivial

/-- The write of a fence was the last one, and it is stored if the write was successful. -/
def Tried (M : Platform E A ε W C F X) (f : F) (w w' : W) : Prop :=
  ∃ ok, (M.ledger w').persisted = (M.ledger w).persisted ++ [(f, ok)] ∧
    (ok = true → (M.ledger w').fence = some f)

theorem closeWith_tries (hvalid : M.Valid revoked)
    (hshut : ∀ w, M.host.Within M.Frame shut (fun _ _ => True) w) (w : W) :
    M.host.Ends (closeWith M.store revoked shut) w (M.Tried revoked w) := by
  have hstore : M.host.Ends (M.store revoked) w (M.Tried revoked w) := by
    intro cs hend
    obtain ⟨x, hx⟩ := Option.ne_none_iff_exists'.mp hend
    rcases M.store_tries revoked w cs x hx with ⟨hinvalid, -⟩ | htried
    · exact absurd hvalid hinvalid
    · refine ⟨x.isOk, htried, fun hok => ?_⟩
      cases x with
      | error e => cases hok
      | ok u => exact ((M.store_spec revoked w cs).2 u hx).fence
  refine closeWith_ends hstore fun w₁ h₁ cs _ => ?_
  have hk := M.frame_keeps _ _ (hshut w₁ cs).1
  obtain ⟨ok, hp, hf⟩ := h₁
  exact ⟨ok, hk.persisted.trans hp, fun hok => hk.fence.trans (hf hok)⟩

/-- A clean-up whose write does not fail stores the revoked fence, and shuts down what it does. -/
theorem closeWith_stores {Φ : C → Prop} (hstore : ∀ w, (M.host.only Φ).Ensures (M.store revoked) w
      fun _ o => ∀ e, o ≠ some (.error e))
    (hframe : ∀ w, M.host.Within M.Frame shut (fun _ _ => True) w)
    (hshut : ∀ w, (M.host.only Φ).Ends shut w Q) (w : W) :
    (M.host.only Φ).Ends (closeWith M.store revoked shut) w
      fun w' => (M.ledger w').fence = some revoked ∧ Q w' := by
  have hstored : (M.host.only Φ).Ends (M.store revoked) w
      fun w' => (M.ledger w').fence = some revoked := by
    intro cs hend
    obtain ⟨x, hx⟩ := Option.ne_none_iff_exists'.mp hend
    cases x with
    | error e => exact absurd hx (hstore w cs e)
    | ok u => exact ((Ensures.only (M.store_spec revoked w) cs).2 u hx).fence
  refine closeWith_ends hstored fun w₁ h₁ cs hend => ?_
  have hk := M.frame_keeps _ _ (Ensures.only (hframe w₁) cs).1
  exact ⟨hk.fence.trans h₁, hshut w₁ cs hend⟩

/-- A call that fails with its pending fence stored ends with its clean-up, under the last of its
choices. -/
theorem carry_error {cs : List C} {e : ε} {g : F} (hnone : (M.ledger w).persisted = [])
    (hrun : M.host.run (carry M.store observeOnly pending completed mutate converged close) w cs =
      (w', some (.error e))) (hstored : (g, true) ∈ (M.ledger w').persisted) :
    ∃ w₁ cs₁ x, cs₁ <:+ cs ∧ M.host.run close w₁ cs₁ = (w', some x) := by
  cases observeOnly with
  | true => cases hrun
  | false =>
  obtain ⟨_, -, hfail⟩ | ⟨_, w₁, cs₁, hcs₁, -, hrest⟩ := run_bind hrun
  · have htried := M.store_tries pending w cs
    rw [hfail] at htried
    rcases htried _ rfl with ⟨-, rfl⟩ | hp
    · simp [hnone] at hstored
    · simp [hp, hnone, Except.isOk, Except.toBool] at hstored
  obtain ⟨_, -, hattempt⟩ | ⟨result, w₂, cs₂, hcs₂, -, hsettle⟩ := run_bind hrest
  · obtain ⟨_, hr, -⟩ := run_attempt hattempt
    cases hr
  cases result with
  | ok f => cases hsettle
  | error e' =>
    obtain ⟨x, -, hclose⟩ | ⟨u, w₃, cs₃, -, hclose, hlift⟩ := run_bind hsettle
    · exact ⟨w₂, cs₂, _, hcs₂.trans hcs₁, hclose⟩
    · cases hlift
      exact ⟨w₂, cs₂, _, hcs₂.trans hcs₁, hclose⟩

/-- What a call owes for its fences: `P` relates the worlds around its commands, `Q` is what it sees
afterwards within `R`, and together they back the completed fence. -/
structure Duty (M : Platform E A ε W C F X) (D : Discipline F X) (older : List (Written F X))
    (pending completed revoked : F) (mutate converged close : Program E A ε Unit)
    (R P : W → W → Prop) (Q : W → Prop) : Prop where
  dormant : ¬ D.Live pending
  reserved : pending = revoked ∨ completed = revoked → pending = revoked ∧ completed = revoked
  mutates : ∀ w, M.host.Within M.Frame mutate (fun _ w' => P w w') w
  converges : ∀ w, M.host.Within R converged (fun _ w' => Q w') w
  closes : ∀ w, M.host.Within (Keeping (M.Safe D revoked)) close (fun _ _ => True) w
  reads : ∀ w w', R w w' → M.Frame w w' ∧ (M.ledger w').ran = (M.ledger w).ran
  backed : ∀ w w' w'', (M.ledger w).ran = [] → P w w' → Q w'' → D.Live completed →
    D.Backed completed (⟨completed, (M.ledger w').ran⟩ :: ⟨pending, []⟩ :: older)

/-- What every end of an accepted request leaves: without a record at most its first write was
tried, and a success has carried out its commands. -/
structure Leaves (M : Platform E A ε W C F X) (D : Discipline F X) (pending completed revoked : F)
    (observeOnly : Bool) (R P : W → W → Prop) (Q : W → Prop) (w₀ w : W)
    (o : Option (Except ε F)) : Prop where
  consistent : M.Consistent D w
  final : (revoked, true) ∈ (M.ledger w).persisted → (M.ledger w).fence = some revoked
  early : (M.ledger w).fence = none → w = w₀ ∨ M.Write pending w₀ w
  done : ∀ f, o = some (.ok f) → observeOnly = true ∨
    ∃ w₁ w₂ w₃, (M.ledger w₁).ran = [] ∧ P w₁ w₂ ∧ R w₂ w₃ ∧ Q w₃ ∧ M.Write completed w₃ w

theorem Safe.stops (h : M.Safe D revoked w) (w₀ : W) :
    M.Leaves D pending completed revoked observeOnly R P Q w₀ w none ∧
      ∀ e, M.Leaves D pending completed revoked observeOnly R P Q w₀ w (some (.error e)) :=
  ⟨⟨h.consistent, h.final, fun hn => absurd hn h.stored, by simp⟩,
    fun _ => ⟨h.consistent, h.final, fun hn => absurd hn h.stored, by simp⟩⟩

theorem execute_ensures (observeOnly : Bool) (w₀ : W)
    (hd : M.Duty D older pending completed revoked mutate converged close R P Q)
    (hw : M.Pend pending older w) (hran : (M.ledger w).ran = []) :
    M.host.Ensures (execute M.store mutate converged completed) w (fun w' o => M.Safe D revoked w' ∧
        M.Leaves D pending completed revoked observeOnly R P Q w₀ w' o) := by
  have hstop : ∀ {w'}, M.Safe D revoked w' → (M.Safe D revoked w' ∧
      M.Leaves D pending completed revoked observeOnly R P Q w₀ w' none) ∧
        ∀ e, M.Safe D revoked w' ∧
          M.Leaves D pending completed revoked observeOnly R P Q w₀ w' (some (.error e)) :=
    fun h => ⟨⟨h, (h.stops w₀).1⟩, fun e => ⟨h, (h.stops w₀).2 e⟩⟩
  refine (hd.mutates w).ensures_bind
    (fun w' hf => hstop ((hw.keeps (M.frame_keeps _ _ hf)).safe hd.dormant)) fun _ w₁ hf₁ h₁ => ?_
  have hw₁ := hw.keeps (M.frame_keeps _ _ hf₁)
  have hread : ∀ {w'}, R w₁ w' → M.Pend pending older w' :=
    fun hr => hw₁.keeps (M.frame_keeps _ _ (hd.reads _ _ hr).1)
  refine (hd.converges w₁).ensures_bind (fun w' hr => hstop ((hread hr).safe hd.dormant))
    fun _ w₂ hr₂ hq₂ => ?_
  have hsafe : ∀ w', M.Write completed w₂ w' → M.Safe D revoked w' := fun w' hr =>
    (hread hr₂).completes hd.dormant hd.reserved
      (by rw [(hd.reads _ _ hr₂).2]; exact hd.backed w w₁ w₂ hran h₁ hq₂) (M.write_stores _ _ _ hr)
  refine (M.store_spec completed w₂).ensures_bind (fun w' hr => hstop (hsafe w' hr))
    fun _ w₃ hr₃ _ => ?_
  have h₃ := hsafe w₃ hr₃
  exact ensures_done.mpr ⟨h₃, h₃.consistent, h₃.final, fun hn => absurd hn h₃.stored,
    fun f _ => .inr ⟨w, w₁, w₂, hran, h₁, hr₂, hq₂, hr₃⟩⟩

theorem carry_ensures (hc : M.Consistent D w) (hran : (M.ledger w).ran = [])
    (hnone : (M.ledger w).persisted = []) (hd : observeOnly = false →
      M.Duty D (M.ledger w).history pending completed revoked mutate converged close R P Q) :
    M.host.Ensures (carry M.store observeOnly pending completed mutate converged close) w
      (M.Leaves D pending completed revoked observeOnly R P Q w) := by
  cases observeOnly with
  | true =>
    exact ensures_done.mpr ⟨hc, by simp [hnone], fun _ => .inl rfl, fun _ _ => .inl rfl⟩
  | false =>
  have hd := hd rfl
  have hfinal : ∀ w', M.Write pending w w' → (revoked, true) ∈ (M.ledger w').persisted →
      (M.ledger w').fence = some revoked := fun w' hr hm => by
    rcases (M.write_stores _ _ _ hr).persisted with hs | hs | ⟨hs, hf⟩ <;> rw [hs, hnone] at hm
    · cases hm
    · simp at hm
    · rw [hf, (Prod.mk.inj (mem_singleton.mp hm)).1]
  have hearly : ∀ w' (o : Option (Except ε F)), (∀ f, o ≠ some (.ok f)) → M.Write pending w w' →
      M.Leaves D pending completed revoked false R P Q w w' o := fun w' o ho hr =>
    ⟨hc.stores hd.dormant (M.write_stores _ _ _ hr), hfinal w' hr, fun _ => .inr hr,
      fun f hf => absurd hf (ho f)⟩
  refine (M.store_spec pending w).ensures_bind (fun w' hr => ⟨hearly w' none (by simp) hr,
    fun e => hearly w' _ (by simp) hr⟩) fun _ w₁ hr₁ h₁ => ?_
  have hw₁ : M.Pend pending (M.ledger w).history w₁ :=
    ⟨h₁.fence, by rw [h₁.history, hran], by rw [h₁.persisted, hnone]; rfl⟩
  have hexec := execute_ensures false w hd hw₁ ((M.write_stores _ _ _ hr₁).ran.trans hran)
  refine ensures_bind (ensures_attempt (hexec.mono fun w' o h => ?_))
  rcases o with _ | e | f
  · exact h.2
  · refine (hd.closes w').ensures_bind (fun w₂ hk => (hk h.1).stops w) fun _ w₂ hk _ => ?_
    exact ensures_done.mpr (((hk h.1).stops w).2 e)
  · exact ensures_done.mpr h.2

theorem carry_keeps {I : W → Prop} (hreads : ∀ w w', R w w' → I w → I w')
    (hwrites : ∀ f w w', M.Write f w w' → I w → I w')
    (hmutate : ∀ w, M.host.Within (Keeping I) mutate (fun _ _ => True) w)
    (hconverged : ∀ w, M.host.Within R converged (fun _ _ => True) w)
    (hclose : ∀ w, M.host.Within (Keeping I) close (fun _ _ => True) w) :
    M.host.Within (Keeping I) (carry M.store observeOnly pending completed mutate converged close)
      (fun _ _ => True) w := by
  have hstore : ∀ f w, M.host.Within (Keeping I) (M.store f) (fun _ _ => True) w :=
    fun f w => (M.store_spec f w).mono (fun _ hr => hwrites f _ _ hr) fun _ _ _ _ => trivial
  unfold carry
  split
  · exact within_pure trivial
  refine (hstore pending w).bind fun _ w₁ _ _ => ?_
  have hexec : M.host.Within (Keeping I) (execute M.store mutate converged completed)
      (fun _ _ => True) w₁ := by
    refine (hmutate w₁).bind fun _ w₂ _ _ => ?_
    refine ((hconverged w₂).mono (fun _ hr => hreads _ _ hr) fun _ _ _ h => h).bind
      fun _ w₃ _ _ => (hstore completed w₃).bind fun _ w₄ _ _ => ?_
    exact within_pure trivial
  refine hexec.attempt.bind fun result w₂ _ _ => ?_
  cases result with
  | ok f => exact within_pure trivial
  | error e =>
    refine (hclose w₂).bind fun _ w₃ _ _ => ?_
    exact within_lift fun _ _ => trivial

end Calls

end Platform

end VcWorkspace.Transition
