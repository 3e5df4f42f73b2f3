import Mathlib.Data.List.Nodup
import VcWorkspace.Transition.Machine

/-! # Transactions under READ COMMITTED

Transactions run their statements one at a time. A statement reads the committed
rows at its start, overlaid with the transaction's own writes, and updates the
current versions of the rows, which it locks until the end. One advisory lock
serialises the transactions that take it. Rows may be lowered without the lock;
everything else happens under it.
-/

namespace VcWorkspace.Transition.ReadCommitted

open List Option

structure Schema (κ ρ : Type) where
  key : ρ → κ
  Below : ρ → ρ → Prop
  refl : ∀ r, Below r r
  trans : ∀ {a b c}, Below a b → Below b c → Below a c
  key_eq : ∀ {a b}, Below a b → key a = key b

/-- A statement. Its functions get the start of the transaction, the rows at its own start, the rows
that a trigger reads, and the updated row. -/
inductive Stmt (κ ρ : Type)
  | lock
  | guard (g : ℕ → List ρ → Bool)
  /-- Lower any number of rows that meet a condition. -/
  | lower (p : ℕ → List ρ → ρ → Bool) (f : ℕ → ρ → ρ)
  /-- Update the one row of a key. -/
  | write (k : κ) (f : ℕ → List ρ → List ρ → ρ → Option ρ)
  | insert (f : ℕ → List ρ → List ρ → Option ρ)

/-- A transaction: what is left to do, when it started, the rows that its statement has read, and
its uncommitted rows. -/
structure Tx (κ ρ : Type) where
  program : List (Stmt κ ρ)
  started : ℕ
  snapshot : Option (List ρ)
  writes : List ρ

structure System (κ ρ : Type) where
  db : List ρ
  clock : ℕ
  /-- The transaction that holds the advisory lock. -/
  holder : Option ℕ
  txs : List (Tx κ ρ)

/-- What can happen: time, the start of an operation, a step of a transaction's current
statement, and its end. -/
inductive Event (o ρ : Type)
  | tick (d : ℕ)
  | start (op : o)
  | snapshot (i : ℕ)
  | lock (i : ℕ)
  | guard (i : ℕ)
  | lower (i : ℕ) (r : ρ)
  | next (i : ℕ)
  | write (i : ℕ)
  | insert (i : ℕ)
  | commit (i : ℕ)
  | abort (i : ℕ)

variable {κ ρ o : Type}

section Model

variable [DecidableEq κ] [DecidableEq ρ] (S : Schema κ ρ)

namespace Schema

def put (r : ρ) (V : List ρ) : List ρ := V.filter (fun r' => S.key r' ≠ S.key r) ++ [r]

def overlay (db writes : List ρ) : List ρ :=
  db.filter (fun r => S.key r ∉ writes.map S.key) ++ writes

def Under (V' V : List ρ) : Prop := ∀ r' ∈ V', ∃ r ∈ V, S.Below r' r

end Schema

def System.taken (s : System κ ρ) (i : ℕ) (k : κ) : Bool :=
  (List.range s.txs.length).any fun j => j != i && (s.txs[j]?).any fun t => k ∈ t.writes.map S.key

def Tx.advance (t : Tx κ ρ) (rest : List (Stmt κ ρ)) : Tx κ ρ :=
  { t with program := rest, snapshot := none }

def Tx.over (t : Tx κ ρ) : Tx κ ρ := ⟨[], t.started, none, []⟩

/-- The row that the current statement of a transaction writes, and what is left of it. -/
def System.effect (s : System κ ρ) (t : Tx κ ρ) : Event o ρ → Option (ρ × Tx κ ρ)
  | .lower _ r =>
    match t.program, t.snapshot with
    | .lower p f :: _, some V =>
      if r ∈ S.overlay s.db t.writes ∧ p t.started V r = true then some (f t.started r, t) else none
    | _, _ => none
  | .write _ =>
    match t.program, t.snapshot with
    | .write k f :: rest, some V =>
      let fresh := S.overlay s.db t.writes
      (fresh.find? fun r => S.key r = k).bind fun r =>
        (f t.started V fresh r).map (·, t.advance rest)
    | _, _ => none
  | .insert _ =>
    match t.program, t.snapshot with
    | .insert f :: rest, some V =>
      let fresh := S.overlay s.db t.writes
      (f t.started V fresh).bind fun r =>
        if S.key r ∈ fresh.map S.key then none else some (r, t.advance rest)
    | _, _ => none
  | _ => none

/-- A step of a transaction that writes a row, unless another one holds it. -/
def System.update (s : System κ ρ) (i : ℕ) (e : Event o ρ) : Option (System κ ρ) :=
  s.txs[i]?.bind fun t => (s.effect S t e).bind fun p =>
    if s.taken S i (S.key p.1) then none
    else some { s with txs := s.txs.set i { p.2 with writes := S.put p.1 t.writes } }

def System.release (s : System κ ρ) (i : ℕ) : Option ℕ :=
  if s.holder = some i then none else s.holder

variable (program : o → List (Stmt κ ρ))

def step (s : System κ ρ) : Event o ρ → Option (System κ ρ)
  | .tick d => some { s with clock := s.clock + d }
  | .start op => some { s with txs := s.txs ++ [⟨program op, s.clock, none, []⟩] }
  | .snapshot i => s.txs[i]?.map fun t =>
      { s with txs := s.txs.set i { t with snapshot := some (S.overlay s.db t.writes) } }
  | .lock i => s.txs[i]?.bind fun t =>
      match t.program with
      | .lock :: rest =>
        if s.holder = none ∨ s.holder = some i then
          some { s with holder := some i, txs := s.txs.set i (t.advance rest) }
        else none
      | _ => none
  | .guard i => s.txs[i]?.bind fun t =>
      match t.program with
      | .guard g :: rest =>
        if g t.started (S.overlay s.db t.writes) then
          some { s with txs := s.txs.set i (t.advance rest) }
        else none
      | _ => none
  | .next i => s.txs[i]?.bind fun t =>
      match t.program with
      | .lower _ _ :: rest => some { s with txs := s.txs.set i (t.advance rest) }
      | _ => none
  | .lower i r => s.update S i (.lower i r : Event o ρ)
  | .write i => s.update S i (.write i : Event o ρ)
  | .insert i => s.update S i (.insert i : Event o ρ)
  | .commit i => s.txs[i]?.bind fun t =>
      if t.program.isEmpty then
        some { s with
          db := S.overlay s.db t.writes, holder := s.release i, txs := s.txs.set i t.over }
      else none
  | .abort i => s.txs[i]?.map fun t =>
      { s with holder := s.release i, txs := s.txs.set i t.over }

def machine : Machine (System κ ρ) (Event o ρ) where
  Init s := s.db = [] ∧ s.holder = none ∧ s.txs = []
  step := step S program

end Model

section Rules

variable [DecidableEq κ] (S : Schema κ ρ) (I : ℕ → List ρ → Prop)

/-- An invariant of the committed rows that time and lowered rows keep. -/
structure Stable : Prop where
  later : ∀ {t t' V}, I t V → t ≤ t' → I t' V
  under : ∀ {t V V'}, I t V → S.Under V' V → I t V'

def Schema.Lowers (p : ℕ → List ρ → ρ → Bool) (f : ℕ → ρ → ρ) : Prop :=
  ∀ n V r, p n V r = true → S.Below (f n r) r

/-- The rest of a transaction that holds the lock keeps the invariant, while others lower rows
between its steps. -/
def Locked (started : ℕ) : List (Stmt κ ρ) → ℕ → List ρ → Prop
  | [], _, _ => True
  | .lock :: rest, t, V => Locked started rest t V
  | .guard g :: rest, t, V => ∀ t' V', t ≤ t' → S.Under V' V → I t' V' → g started V' = true →
      Locked started rest t' V'
  | .lower p f :: rest, t, V => S.Lowers p f ∧ Locked started rest t V
  | .write k f :: rest, t, V => ∀ t₀ V₀, t ≤ t₀ → S.Under V₀ V →
      ∀ t₁ V₁, t₀ ≤ t₁ → S.Under V₁ V₀ → I t₁ V₁ → ∀ r ∈ V₁, S.key r = k →
        ∀ r', f started V₀ V₁ r = some r' →
          I t₁ (S.put r' V₁) ∧ Locked started rest t₁ (S.put r' V₁)
  | .insert f :: rest, t, V => ∀ t₀ V₀, t ≤ t₀ → S.Under V₀ V →
      ∀ t₁ V₁, t₀ ≤ t₁ → S.Under V₁ V₀ → I t₁ V₁ →
        ∀ r', f started V₀ V₁ = some r' → S.key r' ∉ V₁.map S.key →
          I t₁ (S.put r' V₁) ∧ Locked started rest t₁ (S.put r' V₁)

/-- A transaction without the lock only lowers rows until it takes it. -/
def Free (started : ℕ) : List (Stmt κ ρ) → Prop
  | [] => True
  | .lock :: rest => ∀ t V, started ≤ t → I t V → Locked S I started rest t V
  | .guard _ :: rest => Free started rest
  | .lower p f :: rest => S.Lowers p f ∧ Free started rest
  | .write _ _ :: _ | .insert _ :: _ => False

def Stmt.Quiet : Stmt κ ρ → Prop
  | .lock | .guard _ => True
  | .lower p f => S.Lowers p f
  | .write _ _ | .insert _ => False

variable {S I} {started : ℕ} {prog : List (Stmt κ ρ)}

theorem Locked.of_quiet (h : ∀ st ∈ prog, st.Quiet S) (t : ℕ) (V : List ρ) :
    Locked S I started prog t V := by
  induction prog generalizing t V with
  | nil => trivial
  | cons st rest ih =>
    obtain ⟨hst, hrest⟩ := forall_mem_cons.mp h
    cases st with
    | lock => exact ih hrest t V
    | guard g => exact fun t' V' _ _ _ _ => ih hrest t' V'
    | lower p f => exact ⟨hst, ih hrest t V⟩
    | write | insert => exact hst.elim

/-- A transaction of such statements is in order, wherever it takes the lock. -/
theorem Free.of_quiet (h : ∀ st ∈ prog, st.Quiet S) : Free S I started prog := by
  induction prog with
  | nil => trivial
  | cons st rest ih =>
    obtain ⟨hst, hrest⟩ := forall_mem_cons.mp h
    cases st with
    | lock => exact fun t V _ _ => Locked.of_quiet hrest t V
    | guard g => exact ih hrest
    | lower p f => exact ⟨hst, ih hrest⟩
    | write | insert => exact hst.elim

end Rules

variable {S : Schema κ ρ} {V : List ρ} {s : System κ ρ}

section Under

variable {V' W : List ρ}

theorem Schema.Under.rfl : S.Under V V := fun r hr => ⟨r, hr, S.refl r⟩

theorem Schema.Under.of_subset (h : ∀ r ∈ V', r ∈ V) : S.Under V' V :=
  fun r hr => ⟨r, h r hr, S.refl r⟩

theorem Schema.Under.trans (h : S.Under V' V) (h' : S.Under V W) : S.Under V' W := by
  intro r hr
  obtain ⟨r₁, hr₁, hb₁⟩ := h r hr
  obtain ⟨r₂, hr₂, hb₂⟩ := h' r₁ hr₁
  exact ⟨r₂, hr₂, S.trans hb₁ hb₂⟩

theorem release_eq_some {i j : ℕ} (hji : j ≠ i) : s.release i = some j ↔ s.holder = some j := by
  unfold System.release
  split
  next hh =>
    rw [hh]
    simp [Ne.symm hji]
  · rfl

theorem holder_of_release {i j : ℕ} (h : s.release i = some j) : s.holder = some j := by
  unfold System.release at h
  split at h
  · cases h
  · exact h

theorem countP_le_one {p : ρ → Bool} (hn : (V.map S.key).Nodup)
    (h : ∀ a ∈ V, ∀ b ∈ V, p a = true → p b = true → S.key a = S.key b) : V.countP p ≤ 1 := by
  induction V with
  | nil => simp
  | cons r V ih =>
    obtain ⟨hr, hn⟩ := nodup_cons.mp hn
    have hV := ih hn fun a ha b hb => h a (mem_cons_of_mem _ ha) b (mem_cons_of_mem _ hb)
    rw [countP_cons]
    split
    next hp =>
      have hnone : V.countP p = 0 := by
        rw [countP_eq_zero]
        intro b hb hpb
        have hk := h r mem_cons_self b (mem_cons_of_mem _ hb) hp hpb
        exact hr (hk ▸ mem_map_of_mem hb)
      omega
    · omega

end Under

section Rows

variable [DecidableEq κ] {r w : ρ} {db ws : List ρ}

@[simp] theorem Schema.mem_put : r ∈ S.put w V ↔ (r ∈ V ∧ S.key r ≠ S.key w) ∨ r = w := by
  simp [Schema.put]

@[simp] theorem Schema.mem_overlay :
    r ∈ S.overlay db ws ↔ (r ∈ db ∧ S.key r ∉ ws.map S.key) ∨ r ∈ ws := by
  simp [Schema.overlay]

theorem Schema.mem_overlay_put : r ∈ S.overlay db (S.put w ws) ↔ r ∈ S.put w (S.overlay db ws) := by
  simp only [mem_overlay, mem_put, List.mem_map, not_exists, not_and]
  constructor
  · rintro (⟨hdb, hk⟩ | ⟨hws, hk⟩ | rfl)
    · refine .inl ⟨.inl ⟨hdb, fun r' hr' he => ?_⟩, fun he => hk w (.inr rfl) he.symm⟩
      by_cases hw : S.key r' = S.key w
      · exact hk w (.inr rfl) (hw.symm.trans he)
      · exact hk r' (.inl ⟨hr', hw⟩) he
    · exact .inl ⟨.inr hws, hk⟩
    · exact .inr rfl
  · rintro (⟨⟨hdb, hk⟩ | hws, hne⟩ | rfl)
    · refine .inl ⟨hdb, ?_⟩
      rintro r' (⟨hr', -⟩ | rfl) he
      · exact hk r' hr' he
      · exact hne he.symm
    · exact .inr (.inl ⟨hws, hne⟩)
    · exact .inr (.inr rfl)

theorem Schema.Under.put (hb : ∃ r ∈ V, S.Below w r) : S.Under (S.put w V) V := by
  intro r hr
  rcases mem_put.mp hr with ⟨hr, -⟩ | rfl
  · exact ⟨r, hr, S.refl r⟩
  · exact hb

theorem Schema.Under.overlay (hws : S.Under ws db) : S.Under (S.overlay db ws) db := by
  intro r hr
  rcases mem_overlay.mp hr with ⟨hr, -⟩ | hr
  · exact ⟨r, hr, S.refl r⟩
  · exact hws r hr

theorem Schema.nodup_put (h : (V.map S.key).Nodup) : ((S.put w V).map S.key).Nodup := by
  rw [Schema.put, map_append]
  refine nodup_append.mpr ⟨h.sublist (filter_sublist.map _), by simp, ?_⟩
  intro a ha b hb
  obtain ⟨r, hr, rfl⟩ := mem_map.mp ha
  obtain rfl : b = S.key w := by simpa using hb
  simpa using (mem_filter.mp hr).2

theorem Schema.nodup_overlay (h : (db.map S.key).Nodup) (h' : (ws.map S.key).Nodup) :
    ((S.overlay db ws).map S.key).Nodup := by
  rw [Schema.overlay, map_append]
  refine nodup_append.mpr ⟨h.sublist (filter_sublist.map _), h', ?_⟩
  rintro a ha b hb rfl
  obtain ⟨r, hr, rfl⟩ := mem_map.mp ha
  have hn : S.key r ∉ ws.map S.key := by simpa using (mem_filter.mp hr).2
  exact hn hb

end Rows

section Steps

variable [DecidableEq κ] [DecidableEq ρ] {program : o → List (Stmt κ ρ)} {s' : System κ ρ}
  {e : Event o ρ} {t : Tx κ ρ}

/-- What the current statement of a transaction can write, and what is left of the transaction. -/
inductive Writes (S : Schema κ ρ) (s : System κ ρ) (t : Tx κ ρ) : ρ → Tx κ ρ → Prop
  | lower {p f rest V r} (hp : t.program = .lower p f :: rest) (hr : r ∈ S.overlay s.db t.writes)
      (hsel : p t.started V r = true) : Writes S s t (f t.started r) t
  | write {k f rest V r r'} (hp : t.program = .write k f :: rest) (hsnap : t.snapshot = some V)
      (hr : r ∈ S.overlay s.db t.writes) (hk : S.key r = k)
      (hf : f t.started V (S.overlay s.db t.writes) r = some r') : Writes S s t r' (t.advance rest)
  | insert {f rest V r} (hp : t.program = .insert f :: rest) (hsnap : t.snapshot = some V)
      (hf : f t.started V (S.overlay s.db t.writes) = some r)
      (hk : S.key r ∉ (S.overlay s.db t.writes).map S.key) : Writes S s t r (t.advance rest)

theorem writes_of_effect {p : ρ × Tx κ ρ} (h : s.effect S t e = some p) : Writes S s t p.1 p.2 := by
  cases e with
  | lower _ r =>
    simp only [System.effect] at h
    split at h
    next hp _ =>
      split at h <;> cases h
      next hr => exact .lower hp hr.1 hr.2
    · cases h
  | write _ =>
    simp only [System.effect] at h
    split at h
    next hp hsnap =>
      obtain ⟨r, hr, h⟩ := bind_eq_some_iff.mp h
      obtain ⟨r', hf, rfl⟩ := map_eq_some_iff.mp h
      exact .write hp hsnap (mem_of_find?_eq_some hr) (by simpa using List.find?_some hr) hf
    · cases h
  | insert _ =>
    simp only [System.effect] at h
    split at h
    next hp hsnap =>
      obtain ⟨r, hf, h⟩ := bind_eq_some_iff.mp h
      split at h <;> cases h
      next hk => exact .insert hp hsnap hf hk
    · cases h
  | tick | start | snapshot | lock | guard | next | commit | abort => cases h

/-- What a step can do. -/
inductive Steps (S : Schema κ ρ) (program : o → List (Stmt κ ρ)) (s : System κ ρ) :
    Event o ρ → System κ ρ → Prop
  | tick {d} : Steps S program s (.tick d) { s with clock := s.clock + d }
  | start {op} : Steps S program s (.start op)
      { s with txs := s.txs ++ [⟨program op, s.clock, none, []⟩] }
  | snapshot {i t} (ht : s.txs[i]? = some t) : Steps S program s (.snapshot i)
      { s with txs := s.txs.set i { t with snapshot := some (S.overlay s.db t.writes) } }
  | lock {i t rest} (ht : s.txs[i]? = some t) (hp : t.program = .lock :: rest)
      (hfree : s.holder = none ∨ s.holder = some i) : Steps S program s (.lock i)
      { s with holder := some i, txs := s.txs.set i (t.advance rest) }
  | guard {i t g rest} (ht : s.txs[i]? = some t) (hp : t.program = .guard g :: rest)
      (hg : g t.started (S.overlay s.db t.writes) = true) :
      Steps S program s (.guard i) { s with txs := s.txs.set i (t.advance rest) }
  | next {i t p f rest} (ht : s.txs[i]? = some t) (hp : t.program = .lower p f :: rest) :
      Steps S program s (.next i) { s with txs := s.txs.set i (t.advance rest) }
  | update {e i t r t'} (ht : s.txs[i]? = some t) (he : s.effect S t e = some (r, t'))
      (hfree : s.taken S i (S.key r) = false) :
      Steps S program s e { s with txs := s.txs.set i { t' with writes := S.put r t.writes } }
  | commit {i t} (ht : s.txs[i]? = some t) (hend : t.program.isEmpty = true) :
      Steps S program s (.commit i) { s with
        db := S.overlay s.db t.writes, holder := s.release i, txs := s.txs.set i t.over }
  | abort {i t} (ht : s.txs[i]? = some t) : Steps S program s (.abort i)
      { s with holder := s.release i, txs := s.txs.set i t.over }

theorem steps_of_step (hs : step S program s e = some s') : Steps S program s e s' := by
  cases e with
  | tick d =>
    cases hs
    exact .tick
  | start op =>
    cases hs
    exact .start
  | snapshot i =>
    obtain ⟨t, ht, rfl⟩ := map_eq_some_iff.mp hs
    exact .snapshot ht
  | lock i =>
    obtain ⟨t, ht, hs⟩ := bind_eq_some_iff.mp hs
    split at hs
    next hp =>
      split at hs <;> cases hs
      next hfree => exact .lock ht hp hfree
    · cases hs
  | guard i =>
    obtain ⟨t, ht, hs⟩ := bind_eq_some_iff.mp hs
    split at hs
    next hp =>
      split at hs <;> cases hs
      next hg => exact .guard ht hp hg
    · cases hs
  | next i =>
    obtain ⟨t, ht, hs⟩ := bind_eq_some_iff.mp hs
    split at hs <;> cases hs
    next hp => exact .next ht hp
  | lower | write | insert =>
    obtain ⟨t, ht, hs⟩ := bind_eq_some_iff.mp hs
    obtain ⟨p, hp, hs⟩ := bind_eq_some_iff.mp hs
    split at hs <;> cases hs
    next hfree _ => exact .update ht hp (by simpa using hfree)
  | commit i =>
    obtain ⟨t, ht, hs⟩ := bind_eq_some_iff.mp hs
    split at hs <;> cases hs
    next hend => exact .commit ht hend
  | abort i =>
    obtain ⟨t, ht, rfl⟩ := map_eq_some_iff.mp hs
    exact .abort ht

end Steps

section Mono

variable [DecidableEq κ] {I : ℕ → List ρ → Prop}

theorem Locked.mono {started t t' : ℕ} {prog : List (Stmt κ ρ)} {V V' : List ρ}
    (h : Locked S I started prog t V) (ht : t ≤ t') (hV : S.Under V' V) :
    Locked S I started prog t' V' := by
  induction prog with
  | nil => trivial
  | cons stmt rest ih =>
    cases stmt with
    | lock => exact ih h
    | guard | write | insert => exact fun t₁ V₁ h₁ hV₁ => h t₁ V₁ (ht.trans h₁) (hV₁.trans hV)
    | lower p f => exact ⟨h.1, ih h.2⟩

end Mono

end VcWorkspace.Transition.ReadCommitted
