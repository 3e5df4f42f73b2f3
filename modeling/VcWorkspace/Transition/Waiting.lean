import VcWorkspace.Transition.Machine

/-! # Waiting for locks

Parties hold exclusive locks until they end and wait for at most one more. A
party waits for another when the lock that it wants is held there, and a
deadlock is a cycle of this relation. Most parties pass a gate before any other
lock; the others take one lock first. There is no deadlock as long as whoever holds
the gate waits for nobody.
-/

namespace VcWorkspace.Transition.Waiting

open Option

/-- The locks that a party holds, and the one that it has asked for. -/
structure Party (ℓ : Type) where
  held : List ℓ
  wants : Option ℓ
  deriving DecidableEq

section Table

variable {ℓ : Type} [DecidableEq ℓ]

def holds (T : List (Party ℓ)) (i : ℕ) (l : ℓ) : Bool := T[i]?.any fun p => l ∈ p.held

def wants (T : List (Party ℓ)) (i : ℕ) (l : ℓ) : Bool := T[i]?.any fun p => p.wants = some l

def join (T : List (Party ℓ)) : List (Party ℓ) := T ++ [⟨[], none⟩]

def request (T : List (Party ℓ)) (i : ℕ) (l : ℓ) : Option (List (Party ℓ)) :=
  T[i]?.bind fun p =>
    if p.wants = none ∧ l ∉ p.held then some (T.set i { p with wants := some l }) else none

/-- The lock that a party waits for goes to it when nobody else holds it. -/
def grant (T : List (Party ℓ)) (i : ℕ) : Option (List (Party ℓ)) :=
  T[i]?.bind fun p => p.wants.bind fun l =>
    if (List.range T.length).all fun j => j = i || !holds T j l then
      some (T.set i ⟨l :: p.held, none⟩)
    else none

def release (T : List (Party ℓ)) (i : ℕ) : List (Party ℓ) := T.set i ⟨[], none⟩

def WaitsFor (T : List (Party ℓ)) (i j : ℕ) : Prop :=
  i ≠ j ∧ ∃ l, wants T i l = true ∧ holds T j l = true

def CyclicWait (T : List (Party ℓ)) : Prop := ∃ i, Relation.TransGen (WaitsFor T) i i

/-- One party at a time holds the gate, and it waits for nobody. Only early parties get a lock
before the gate, one each. -/
structure Gated (gate : ℓ) (early : ℕ → Prop) (T : List (Party ℓ)) : Prop where
  one : ∀ i j, holds T i gate = true → holds T j gate = true → i = j
  held : ∀ i l, holds T i l = true → early i ∨ holds T i gate = true
  wanted : ∀ i l, l ≠ gate → wants T i l = true → early i ∨ holds T i gate = true
  first : ∀ i l l', l ≠ gate → wants T i l = true → holds T i l' = true → holds T i gate = true
  patient : ∀ i j l, holds T i gate = true → wants T i l = true → holds T j l = true → j = i

variable {T T' : List (Party ℓ)} {i j : ℕ} {l l' gate : ℓ} {p : Party ℓ} {early early' : ℕ → Prop}

theorem Gated.acyclic (h : Gated gate early T) : ¬ CyclicWait T := by
  rintro ⟨i, hi⟩
  obtain ⟨j, ⟨hij, l, hwants, hj⟩, hji⟩ := Relation.TransGen.head'_iff.mp hi
  obtain ⟨-, -, -, l', -, hheld⟩ := Relation.TransGen.tail'_iff.mp hi
  by_cases hl : l = gate
  · -- the next party holds the gate and waits too
    subst hl
    obtain rfl | ⟨k, ⟨hjk, m, hm, hk⟩, -⟩ := Relation.ReflTransGen.cases_head hji
    · exact hij rfl
    · exact hjk (h.patient j k m hj hm hk).symm
  · have hgate := h.first i l l' hl hwants hheld
    exact hij (h.patient i j l hgate hwants hj).symm

theorem holds_eq_true : holds T i l = true ↔ ∃ p, T[i]? = some p ∧ l ∈ p.held := by
  simp [holds, any_eq_true]

theorem wants_eq_true : wants T i l = true ↔ ∃ p, T[i]? = some p ∧ p.wants = some l := by
  simp [wants, any_eq_true]

theorem holds_set (hi : i < T.length) :
    holds (T.set i p) j l = if j = i then decide (l ∈ p.held) else holds T j l := by
  simp only [holds, List.getElem?_set]
  split
  next h => simp [h]
  next h => simp [Ne.symm h]

theorem wants_set (hi : i < T.length) :
    wants (T.set i p) j l = if j = i then decide (p.wants = some l) else wants T j l := by
  simp only [wants, List.getElem?_set]
  split
  next h => simp [h]
  next h => simp [Ne.symm h]

omit [DecidableEq ℓ] in
theorem lt_of_getElem? (h : T[i]? = some p) : i < T.length :=
  (List.getElem?_eq_some_iff.mp h).1

theorem lt_of_holds (h : holds T i l = true) : i < T.length := by
  obtain ⟨p, hp, -⟩ := holds_eq_true.mp h
  exact lt_of_getElem? hp

@[simp] theorem holds_join : holds (join T) i l = holds T i l := by
  simp only [holds, join, List.getElem?_append]
  split
  · rfl
  next h =>
    rw [List.getElem?_eq_none (Nat.le_of_not_lt h)]
    cases i - T.length <;> simp

@[simp] theorem wants_join : wants (join T) i l = wants T i l := by
  simp only [wants, join, List.getElem?_append]
  split
  · rfl
  next h =>
    rw [List.getElem?_eq_none (Nat.le_of_not_lt h)]
    cases i - T.length <;> simp

theorem holds_request (h : request T i l = some T') : holds T' j l' = holds T j l' := by
  obtain ⟨p, hp, h⟩ := bind_eq_some_iff.mp h
  split at h <;> cases h
  rw [holds_set (lt_of_getElem? hp)]
  split
  next hji => simp [holds, hji, hp]
  · rfl

theorem wants_request (h : request T i l = some T') :
    wants T' j l' = if j = i then decide (l = l') else wants T j l' := by
  obtain ⟨p, hp, h⟩ := bind_eq_some_iff.mp h
  split at h <;> cases h
  rw [wants_set (lt_of_getElem? hp)]
  simp

theorem length_request (h : request T i l = some T') : T'.length = T.length := by
  obtain ⟨p, hp, h⟩ := bind_eq_some_iff.mp h
  split at h <;> cases h
  exact List.length_set ..

theorem length_grant (h : grant T i = some T') : T'.length = T.length := by
  obtain ⟨p, hp, h⟩ := bind_eq_some_iff.mp h
  obtain ⟨l, hl, h⟩ := bind_eq_some_iff.mp h
  split at h <;> cases h
  exact List.length_set ..

theorem grant_eq_some (h : grant T i = some T') :
    ∃ l, wants T i l = true ∧ (∀ j, holds T j l = true → j = i) ∧
      (∀ j l', holds T' j l' = (holds T j l' || decide (j = i ∧ l' = l))) ∧
      ∀ j l', wants T' j l' = (decide (j ≠ i) && wants T j l') := by
  obtain ⟨p, hp, h⟩ := bind_eq_some_iff.mp h
  obtain ⟨l, hl, h⟩ := bind_eq_some_iff.mp h
  have hlt := lt_of_getElem? hp
  split at h
  next hall =>
    cases h
    refine ⟨l, wants_eq_true.mpr ⟨p, hp, hl⟩, fun j hj => ?_, fun j l' => ?_, fun j l' => ?_⟩
    · have hfree := List.all_eq_true.mp hall j (List.mem_range.mpr (lt_of_holds hj))
      simpa [hj] using hfree
    · rw [holds_set hlt]
      split
      next hji => simp [holds, hji, hp, Bool.or_comm]
      next hji => simp [hji]
    · rw [wants_set hlt]
      split
      next hji => simp [hji]
      next hji => simp [hji]
  · cases h

omit [DecidableEq ℓ] in
theorem getElem?_release :
    (release T i)[j]? = if j = i then (T[i]?).map fun _ => ⟨[], none⟩ else T[j]? := by
  simp only [release, List.getElem?_set]
  split
  next h =>
    subst h
    by_cases hi : i < T.length <;> simp [hi]
  next h => simp [Ne.symm h]

@[simp] theorem holds_release : holds (release T i) j l = (decide (j ≠ i) && holds T j l) := by
  rw [holds, getElem?_release]
  split
  next h => simp [h, any_map]
  next h => simp [h, holds]

@[simp] theorem wants_release : wants (release T i) j l = (decide (j ≠ i) && wants T j l) := by
  rw [wants, getElem?_release]
  split
  next h => simp [h, any_map]
  next h => simp [h, wants]

theorem wants_unique (h : wants T i l = true) (h' : wants T i l' = true) : l = l' := by
  obtain ⟨p, hp, hl⟩ := wants_eq_true.mp h
  obtain ⟨q, hq, hl'⟩ := wants_eq_true.mp h'
  rw [hp] at hq
  cases hq
  exact some.inj (hl.symm.trans hl')

theorem Gated.join (h : Gated gate early T) (hearly : ∀ i, early i → early' i) :
    Gated gate early' (join T) := by
  constructor <;> simp only [holds_join, wants_join]
  · exact h.one
  · intro i l hi
    exact (h.held i l hi).imp_left (hearly i)
  · intro i l hl hi
    exact (h.wanted i l hl hi).imp_left (hearly i)
  · exact h.first
  · exact h.patient

/-- A party asks for a lock. If it holds the gate, no early party has the lock without it. -/
theorem Gated.request (h : Gated gate early T) (hr : request T i l = some T')
    (hwanted : l ≠ gate → early i ∨ holds T i gate = true)
    (hfirst : l ≠ gate → ∀ l', holds T i l' = true → holds T i gate = true)
    (hcalm : holds T i gate = true → ∀ j, early j → holds T j l = true →
      holds T j gate = true) : Gated gate early T' := by
  constructor <;> simp only [holds_request hr, wants_request hr]
  · exact h.one
  · exact h.held
  · intro j l' hl' hw
    split at hw
    next hji => exact hji ▸ hwanted (of_decide_eq_true hw ▸ hl')
    · exact h.wanted j l' hl' hw
  · intro j l' m hl' hw hm
    split at hw
    next hji =>
      subst hji
      exact hfirst (of_decide_eq_true hw ▸ hl') m hm
    · exact h.first j l' m hl' hw hm
  · intro j k l' hj hw hk
    split at hw
    next hji =>
      obtain rfl : l = l' := of_decide_eq_true hw
      subst hji
      rcases h.held k l hk with hearly | hgate
      · exact h.one k j (hcalm hj k hearly hk) hj
      · exact h.one k j hgate hj
    · exact h.patient j k l' hj hw hk

/-- A party gets its lock. If it is early, the holder of the gate has not asked for the lock. -/
theorem Gated.grant (h : Gated gate early T) (hg : grant T i = some T')
    (hcalm : early i → holds T i gate = false → ∀ j l, wants T i l = true →
      holds T j gate = true → wants T j l = false) : Gated gate early T' := by
  obtain ⟨l, hwant, hfree, hholds, hwants⟩ := grant_eq_some hg
  have hkeep : ∀ j l', holds T j l' = true → holds T' j l' = true := by
    intro j l' hj
    simp [hholds, hj]
  have hbefore : ∀ j l', holds T' j l' = true → holds T j l' = true ∨ j = i ∧ l' = l := by
    intro j l' hj
    simpa [hholds] using hj
  have hother : ∀ j l', wants T' j l' = true → j ≠ i ∧ wants T j l' = true := by
    intro j l' hj
    simpa [hwants] using hj
  constructor
  · intro j k hj hk
    rcases hbefore j _ hj with hj | ⟨rfl, rfl⟩
    · rcases hbefore k _ hk with hk | ⟨rfl, rfl⟩
      · exact h.one j k hj hk
      · exact hfree j hj
    · rcases hbefore k _ hk with hk | ⟨hk, -⟩
      · exact (hfree k hk).symm
      · exact hk.symm
  · intro j l' hj
    rcases hbefore j l' hj with hj | ⟨rfl, rfl⟩
    · exact (h.held j l' hj).imp_right (hkeep j gate)
    · -- the gate itself, or a lock that was wanted behind it or early
      by_cases hgate : l' = gate
      · exact .inr (hgate ▸ hj)
      · exact (h.wanted j l' hgate hwant).imp_right (hkeep j gate)
  · intro j l' hl' hw
    exact (h.wanted j l' hl' (hother j l' hw).2).imp_right (hkeep j gate)
  · intro j l' m hl' hw hm
    obtain ⟨hji, hw⟩ := hother j l' hw
    have hm := (hbefore j m hm).resolve_right fun hm => hji hm.1
    exact hkeep j gate (h.first j l' m hl' hw hm)
  · intro j k l' hj hw hk
    obtain ⟨hji, hw⟩ := hother j l' hw
    have hj := (hbefore j gate hj).resolve_right fun hj => hji hj.1
    rcases hbefore k l' hk with hk | ⟨rfl, rfl⟩
    · exact h.patient j k l' hj hw hk
    · -- the lock that the holder of the gate waits for was given away
      have hnone : holds T k gate = false :=
        Bool.eq_false_iff.mpr fun hk => hji (h.one j k hj hk)
      by_cases hgate : l' = gate
      · exact (hfree j (hgate ▸ hj)).symm
      · rcases h.wanted k l' hgate hwant with hearly | hk
        · rw [hcalm hearly hnone j l' hwant hj] at hw
          cases hw
        · rw [hnone] at hk
          cases hk

theorem Gated.release (h : Gated gate early T) (i : ℕ) : Gated gate early (release T i) := by
  constructor <;> simp only [holds_release, wants_release, Bool.and_eq_true]
  · intro j k hj hk
    exact h.one j k hj.2 hk.2
  · intro j l hj
    exact (h.held j l hj.2).imp_right fun hgate => ⟨hj.1, hgate⟩
  · intro j l hl hj
    exact (h.wanted j l hl hj.2).imp_right fun hgate => ⟨hj.1, hgate⟩
  · intro j l l' hl hw hj
    exact ⟨hj.1, h.first j l l' hl hw.2 hj.2⟩
  · intro j k l hj hw hk
    exact h.patient j k l hj.2 hw.2 hk.2

end Table

end VcWorkspace.Transition.Waiting
