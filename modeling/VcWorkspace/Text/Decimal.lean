import Mathlib.Data.List.Induction
import Mathlib.Data.Nat.Digits.Defs
import Mathlib.Tactic.IntervalCases

/-! # Decimal numbers

A number is written without leading zeros. Texts of digits have a value, and the
canonical ones are those that are written for their value.
-/

namespace VcWorkspace.Text.Decimal

open List Nat

def isDigit (b : UInt8) : Bool := 48 ≤ b && b ≤ 57

def digit (n : ℕ) : UInt8 := UInt8.ofNat (48 + n)

def value (ds : List UInt8) : ℕ := ds.foldl (fun n b => 10 * n + (b.toNat - 48)) 0

def render (n : ℕ) : List UInt8 := (Nat.toDigits 10 n).map fun c => UInt8.ofNat c.toNat

def canonical (ds : List UInt8) : Bool :=
  !ds.isEmpty && ds.all isDigit && (ds.head? != some 48 || ds == [48])

variable {n : ℕ} {b : UInt8} {ds : List UInt8}

theorem isDigit_iff : isDigit b = true ↔ 48 ≤ b.toNat ∧ b.toNat ≤ 57 := by
  simp [isDigit, UInt8.le_iff_toNat_le]

theorem toNat_digit (h : n < 10) : (digit n).toNat = 48 + n :=
  UInt8.toNat_ofNat_of_lt' (by simp only [UInt8.size]; omega)

theorem digit_of_isDigit (h : isDigit b = true) : digit (b.toNat - 48) = b := by
  rw [isDigit_iff] at h
  rw [digit, Nat.add_sub_cancel' h.1, UInt8.ofNat_toNat]

theorem digitChar_toNat (h : n < 10) : UInt8.ofNat n.digitChar.toNat = digit n := by
  interval_cases n <;> rfl

theorem render_of_lt (h : n < 10) : render n = [digit n] := by
  rw [render, toDigits_of_lt_base h, map_singleton, digitChar_toNat h]

theorem render_of_le (h : 10 ≤ n) : render n = render (n / 10) ++ [digit (n % 10)] := by
  rw [render, toDigits_of_base_le (by decide) h, map_append, map_singleton,
    digitChar_toNat (mod_lt _ (by decide))]
  rfl

@[simp] theorem value_append : value (ds ++ [b]) = 10 * value ds + (b.toNat - 48) := by
  simp [value]

theorem value_render (n : ℕ) : value (render n) = n := by
  induction n using Nat.strongRecOn with
  | ind n ih =>
    rcases lt_or_ge n 10 with h | h
    · rw [render_of_lt h, value, foldl_cons, foldl_nil, toNat_digit h]
      omega
    · rw [render_of_le h, value_append, ih (n / 10) (by omega),
        toNat_digit (mod_lt _ (by decide))]
      omega

theorem render_ne_nil (n : ℕ) : render n ≠ [] := by
  rcases lt_or_ge n 10 with h | h
  · rw [render_of_lt h]
    exact cons_ne_nil _ _
  · rw [render_of_le h]
    exact append_ne_nil_of_right_ne_nil _ (cons_ne_nil _ _)

theorem isDigit_of_mem_render (h : b ∈ render n) : isDigit b = true := by
  induction n using Nat.strongRecOn with
  | ind n ih =>
    have hlast (d : ℕ) (hd : d < 10) : isDigit (digit d) = true := by
      rw [isDigit_iff, toNat_digit hd]
      omega
    rcases lt_or_ge n 10 with hn | hn
    · rw [render_of_lt hn, mem_singleton] at h
      exact h ▸ hlast n hn
    · rw [render_of_le hn, mem_append, mem_singleton] at h
      rcases h with h | rfl
      · exact ih (n / 10) (by omega) h
      · exact hlast _ (mod_lt _ (by decide))

theorem notMem_render (h : isDigit b = false) (n : ℕ) : b ∉ render n := by
  intro hb
  cases h.symm.trans (isDigit_of_mem_render hb)

theorem head?_append {es : List UInt8} (h : ds ≠ []) : (ds ++ es).head? = ds.head? := by
  cases ds with
  | nil => exact absurd rfl h
  | cons d ds => rfl

theorem head?_render (h : 0 < n) : (render n).head? ≠ some 48 := by
  induction n using Nat.strongRecOn with
  | ind n ih =>
    rcases lt_or_ge n 10 with hn | hn
    · rw [render_of_lt hn, List.head?_cons]
      intro heq
      have hnat := congrArg UInt8.toNat (Option.some.inj heq)
      rw [toNat_digit hn] at hnat
      have : (48 : UInt8).toNat = 48 := rfl
      omega
    · rw [render_of_le hn, head?_append (render_ne_nil _)]
      exact ih (n / 10) (by omega) (by omega)

theorem canonical_render (n : ℕ) : canonical (render n) = true := by
  simp only [canonical, Bool.and_eq_true, Bool.or_eq_true, Bool.not_eq_true',
    isEmpty_eq_false_iff, all_eq_true, bne_iff_ne, beq_iff_eq]
  refine ⟨⟨render_ne_nil n, fun b hb => isDigit_of_mem_render hb⟩, ?_⟩
  rcases Nat.eq_zero_or_pos n with rfl | hn
  · exact .inr rfl
  · exact .inl (head?_render hn)

theorem render_value (h : canonical ds = true) : render (value ds) = ds := by
  simp only [canonical, Bool.and_eq_true, Bool.or_eq_true, Bool.not_eq_true',
    isEmpty_eq_false_iff, all_eq_true, bne_iff_ne, beq_iff_eq] at h
  obtain ⟨⟨hne, hdigits⟩, hzero⟩ := h
  induction ds using List.reverseRecOn with
  | nil => exact absurd rfl hne
  | append_singleton ds b ih =>
    have hb := hdigits b (by simp)
    have hbound := isDigit_iff.mp hb
    by_cases hds : ds = []
    · subst hds
      rw [nil_append]
      rw [value, foldl_cons, foldl_nil, mul_zero, zero_add,
        render_of_lt (by omega), digit_of_isDigit hb]
    · -- The first digit is that of the shorter text, which is not zero.
      have hhead : ds.head? ≠ some 48 := by
        rcases hzero with hzero | hzero
        · rwa [head?_append hds] at hzero
        · have hlen := congrArg List.length hzero
          have hpos := length_pos_iff.mpr hds
          simp only [length_append, length_singleton] at hlen
          omega
      have hrec := ih (.inl hhead) hds fun c hc => hdigits c (by simp [hc])
      have hpos : 0 < value ds := by
        rcases Nat.eq_zero_or_pos (value ds) with h | h
        · rw [h] at hrec
          rw [← hrec] at hhead
          exact absurd rfl hhead
        · exact h
      rw [value_append, render_of_le (by omega), mul_add_div (by decide),
        div_eq_of_lt (by omega), add_zero, hrec, mul_add_mod,
        mod_eq_of_lt (by omega), digit_of_isDigit hb]

theorem canonical_iff : canonical ds = true ↔ ds = render (value ds) :=
  ⟨fun h => (render_value h).symm, fun h => h ▸ canonical_render _⟩

end VcWorkspace.Text.Decimal
