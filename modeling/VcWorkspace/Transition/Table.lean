import Mathlib.Tactic.Common

/-! # Statements on tables

Updates of the rows of a table, and what they leave of a condition that some row
of the table meets.
-/

namespace VcWorkspace.Transition

open List

variable {ρ : Type}

def updateWhere (p : ρ → Bool) (f : ρ → ρ) (rows : List ρ) : List ρ :=
  rows.map fun r => if p r then f r else r

/-- Update the rows in conflict with a new row, or add it if there are none. -/
def upsert (conflict : ρ → Bool) (update : ρ → ρ) (new : ρ) (rows : List ρ) : List ρ :=
  if rows.any conflict then updateWhere conflict update rows else rows ++ [new]

def insertOnce [BEq ρ] (new : ρ) (rows : List ρ) : List ρ :=
  if rows.contains new then rows else rows ++ [new]

variable {p q : ρ → Bool} {f : ρ → ρ} {r r' new : ρ} {rows : List ρ} {κ : Type} {k : ρ → κ}

theorem getElem?_set_cases {i j : ℕ} (h : (rows.set i new)[j]? = some r) :
    (j = i ∧ r = new) ∨ (j ≠ i ∧ rows[j]? = some r) := by
  rcases eq_or_ne j i with rfl | hne
  · obtain ⟨hlt, rfl⟩ := List.getElem?_eq_some_iff.mp h
    exact .inl ⟨rfl, getElem_set_self hlt⟩
  · rw [List.getElem?_set_ne hne.symm] at h
    exact .inr ⟨hne, h⟩

theorem getElem?_concat_cases {i : ℕ} (h : (rows ++ [new])[i]? = some r) :
    rows[i]? = some r ∨ (i = rows.length ∧ r = new) := by
  rcases Nat.lt_trichotomy i rows.length with hlt | rfl | hgt
  · rw [List.getElem?_append_left hlt] at h
    exact .inl h
  · rw [List.getElem?_concat_length] at h
    exact .inr ⟨rfl, (Option.some.inj h).symm⟩
  · rw [List.getElem?_eq_none (by simp; omega)] at h
    cases h

theorem mem_updateWhere : r' ∈ updateWhere p f rows ↔
    ∃ r ∈ rows, (p r = true ∧ r' = f r) ∨ (p r = false ∧ r' = r) := by
  rw [updateWhere, mem_map]
  constructor
  · rintro ⟨r, hr, rfl⟩
    cases hp : p r with
    | true => exact ⟨r, hr, .inl ⟨hp, if_pos rfl⟩⟩
    | false => exact ⟨r, hr, .inr ⟨hp, if_neg (by decide)⟩⟩
  · rintro ⟨r, hr, ⟨hp, rfl⟩ | ⟨hp, hr'⟩⟩
    · exact ⟨r, hr, if_pos hp⟩
    · exact ⟨r, hr, by simp [hp, hr']⟩

theorem exists_updateWhere (hr : r ∈ rows) : ∃ r' ∈ updateWhere p f rows, r' = r ∨ r' = f r := by
  cases hp : p r with
  | true => exact ⟨f r, mem_updateWhere.mpr ⟨r, hr, .inl ⟨hp, rfl⟩⟩, .inr rfl⟩
  | false => exact ⟨r, mem_updateWhere.mpr ⟨r, hr, .inr ⟨hp, rfl⟩⟩, .inl rfl⟩

theorem map_updateWhere (hk : ∀ r, p r = true → k (f r) = k r) :
    (updateWhere p f rows).map k = rows.map k := by
  rw [updateWhere, map_map]
  apply map_congr_left
  intro r _
  simp only [Function.comp_apply]
  split
  next hp => exact hk r hp
  · rfl

theorem nodup_updateWhere (hk : ∀ r, p r = true → k (f r) = k r) (h : (rows.map k).Nodup) :
    ((updateWhere p f rows).map k).Nodup := by
  rwa [map_updateWhere hk]

theorem find_updateWhere (hq : ∀ r, p r = true → q (f r) = q r) :
    (updateWhere p f rows).find? q = (rows.find? q).map fun r => if p r then f r else r := by
  induction rows with
  | nil => rfl
  | cons r rows ih =>
    have hkey : q (if p r then f r else r) = q r := by
      split
      next hp => exact hq r hp
      · rfl
    simp only [updateWhere, map_cons, List.find?_cons, hkey]
    cases q r with
    | true => rfl
    | false => exact ih

theorem exists_upsert (hr : r ∈ rows) : ∃ r' ∈ upsert p f new rows, r' = r ∨ r' = f r := by
  unfold upsert
  split
  · exact exists_updateWhere hr
  · exact ⟨r, mem_append_left _ hr, .inl rfl⟩

theorem mem_upsert (hr : r ∈ rows) (hp : p r = false) : r ∈ upsert p f new rows := by
  unfold upsert
  split
  · exact mem_updateWhere.mpr ⟨r, hr, .inr ⟨hp, rfl⟩⟩
  · exact mem_append_left _ hr

theorem mem_upsert_of_conflict (hr : r ∈ rows) (hp : p r = true) : f r ∈ upsert p f new rows := by
  rw [upsert, if_pos (any_eq_true.mpr ⟨r, hr, hp⟩)]
  exact mem_updateWhere.mpr ⟨r, hr, .inl ⟨hp, rfl⟩⟩

theorem exists_mem_upsert (p : ρ → Bool) (f : ρ → ρ) (new : ρ) (rows : List ρ) :
    ∃ r' ∈ upsert p f new rows, r' = new ∨ ∃ r, p r = true ∧ r' = f r := by
  cases hany : rows.any p with
  | true =>
    obtain ⟨r, hr, hp⟩ := any_eq_true.mp hany
    exact ⟨f r, mem_upsert_of_conflict hr hp, .inr ⟨r, hp, rfl⟩⟩
  | false =>
    refine ⟨new, ?_, .inl rfl⟩
    rw [upsert, if_neg (by simp [hany])]
    exact mem_append_right _ (mem_singleton_self new)

theorem of_mem_upsert (hr : r' ∈ upsert p f new rows) :
    r' = new ∨ ∃ r ∈ rows, r' = r ∨ (p r = true ∧ r' = f r) := by
  unfold upsert at hr
  split at hr
  · obtain ⟨r, hmem, ⟨hp, rfl⟩ | ⟨-, rfl⟩⟩ := mem_updateWhere.mp hr
    · exact .inr ⟨r, hmem, .inr ⟨hp, rfl⟩⟩
    · exact .inr ⟨_, hmem, .inl rfl⟩
  · rcases mem_append.mp hr with hr | hr
    · exact .inr ⟨r', hr, .inl rfl⟩
    · exact .inl (mem_singleton.mp hr)

theorem nodup_upsert (hf : ∀ r, p r = true → k (f r) = k r)
    (hnew : ∀ r ∈ rows, p r = false → k r ≠ k new) (h : (rows.map k).Nodup) :
    ((upsert p f new rows).map k).Nodup := by
  unfold upsert
  split
  · exact nodup_updateWhere hf h
  next hany =>
    rw [map_append, nodup_append]
    refine ⟨h, by simp, fun a ha b hb => ?_⟩
    obtain ⟨r, hr, rfl⟩ := mem_map.mp ha
    obtain rfl : b = k new := by simpa using hb
    refine hnew r hr ?_
    by_contra hp
    exact hany (any_eq_true.mpr ⟨r, hr, by simpa using hp⟩)

theorem of_mem_insertOnce [BEq ρ] (hr : r ∈ insertOnce new rows) : r ∈ rows ∨ r = new := by
  unfold insertOnce at hr
  split at hr
  · exact .inl hr
  · simpa using hr

end VcWorkspace.Transition
