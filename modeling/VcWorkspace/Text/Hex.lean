import Mathlib.Data.List.Induction
import Mathlib.Tactic.IntervalCases

/-! # Hexadecimal numbers

Digits are read in both cases and written in lower case. Bytes are two digits each;
a number is written with a fixed number of digits.
-/

namespace VcWorkspace.Text.Hex

open List Option

section Digits

def value (b : UInt8) : Option ℕ :=
  if 48 ≤ b && b ≤ 57 then some (b.toNat - 48)
  else if 97 ≤ b && b ≤ 102 then some (b.toNat - 87)
  else if 65 ≤ b && b ≤ 70 then some (b.toNat - 55)
  else none

def digit (n : ℕ) : UInt8 := UInt8.ofNat (if n < 10 then 48 + n else 87 + n)

def lowerCase (b : UInt8) : UInt8 := if 65 ≤ b && b ≤ 90 then b + 32 else b

def isLower (b : UInt8) : Bool := (48 ≤ b && b ≤ 57) || (97 ≤ b && b ≤ 102)

variable {b : UInt8} {n : ℕ}

theorem value_digit (h : n < 16) : value (digit n) = some n := by
  interval_cases n <;> rfl

theorem isLower_digit (h : n < 16) : isLower (digit n) = true := by
  interval_cases n <;> rfl

theorem digit_of_value (h : value b = some n) :
    n < 16 ∧ lowerCase b = digit n ∧ (isLower b = true → digit n = b) := by
  have hall : ∀ k : Fin 256, (value (UInt8.ofNat k)).all (fun n => n < 16 &&
      lowerCase (UInt8.ofNat k) == digit n &&
      (!isLower (UInt8.ofNat k) || digit n == UInt8.ofNat k)) = true := by
    decide +kernel
  have hbyte := hall ⟨b.toNat, b.toNat_lt⟩
  rw [UInt8.ofNat_toNat, h] at hbyte
  simp only [all_some, Bool.and_eq_true, Bool.or_eq_true, Bool.not_eq_true',
    decide_eq_true_eq, beq_iff_eq] at hbyte
  exact ⟨hbyte.1.1, hbyte.1.2, fun hlower => hbyte.2.resolve_left (by simp [hlower])⟩

theorem exists_value_of_isLower (h : isLower b = true) : ∃ n, value b = some n := by
  simp only [isLower, Bool.or_eq_true] at h
  unfold value
  rcases h with h | h
  · exact ⟨_, if_pos h⟩
  · split <;> exact ⟨_, rfl⟩

end Digits

section Bytes

def decode : List UInt8 → Option (List UInt8)
  | [] => some []
  | [_] => none
  | x :: y :: rest => do
    let hi ← value x
    let lo ← value y
    let bytes ← decode rest
    some (UInt8.ofNat (hi * 16 + lo) :: bytes)

def encode (bs : List UInt8) : List UInt8 :=
  bs.flatMap fun b => [digit (b.toNat / 16), digit (b.toNat % 16)]

theorem decode_encode (bs : List UInt8) : decode (encode bs) = some bs := by
  induction bs with
  | nil => rfl
  | cons b bs ih =>
    have hb := b.toNat_lt
    have hjoin : UInt8.ofNat (b.toNat / 16 * 16 + b.toNat % 16) = b := by
      rw [Nat.div_add_mod', UInt8.ofNat_toNat]
    have hstep : encode (b :: bs) = digit (b.toNat / 16) :: digit (b.toNat % 16) :: encode bs := rfl
    rw [hstep, decode, value_digit (by omega), value_digit (by omega), ih]
    simp only [bind_eq_bind, bind_some, hjoin]

theorem lowerCase_of_decode {text bs : List UInt8} (h : decode text = some bs) :
    text.map lowerCase = encode bs := by
  induction text using decode.induct generalizing bs with
  | case1 =>
    cases h
    rfl
  | case2 => cases h
  | case3 x y rest ih =>
    simp only [decode, bind_eq_bind, bind_eq_some_iff, Option.some.injEq] at h
    obtain ⟨hi, hhi, lo, hlo, bytes, hbytes, rfl⟩ := h
    obtain ⟨hhilt, hx, -⟩ := digit_of_value hhi
    obtain ⟨hlolt, hy, -⟩ := digit_of_value hlo
    have hnat : (UInt8.ofNat (hi * 16 + lo)).toNat = hi * 16 + lo :=
      UInt8.toNat_ofNat_of_lt' (by simp only [UInt8.size]; omega)
    have hstep : encode (UInt8.ofNat (hi * 16 + lo) :: bytes) =
        digit hi :: digit lo :: encode bytes := by
      simp only [encode, flatMap_cons, hnat]
      rw [show (hi * 16 + lo) / 16 = hi by omega, show (hi * 16 + lo) % 16 = lo by omega]
      rfl
    rw [map_cons, map_cons, hx, hy, ih hbytes, hstep]

end Bytes

section Numbers

def number (text : List UInt8) : Option ℕ :=
  text.foldlM (fun n b => (value b).map fun d => 16 * n + d) 0

def padded : ℕ → ℕ → List UInt8
  | 0, _ => []
  | w + 1, n => padded w (n / 16) ++ [digit (n % 16)]

variable {text : List UInt8} {b : UInt8} {w n : ℕ}

theorem number_append : number (text ++ [b]) =
    (number text).bind fun n => (value b).map fun d => 16 * n + d := by
  simp only [number, foldlM_append, foldlM_cons, foldlM_nil, bind_eq_bind,
    Option.pure_def]
  congr 1
  funext n
  exact bind_fun_some _

theorem isLower_of_mem_padded (h : b ∈ padded w n) : isLower b = true := by
  induction w generalizing n with
  | zero => cases h
  | succ w ih =>
    rcases mem_append.mp h with h | h
    · exact ih h
    · rw [mem_singleton.mp h]
      exact isLower_digit (Nat.mod_lt _ (by decide))

theorem padded_of_isLower (h : ∀ b ∈ text, isLower b = true) :
    ∃ n, number text = some n ∧ n < 16 ^ text.length ∧ padded text.length n = text := by
  induction text using List.reverseRecOn with
  | nil => exact ⟨0, rfl, Nat.one_pos, rfl⟩
  | append_singleton text b ih =>
    obtain ⟨n, hn, hlt, hpadded⟩ := ih fun c hc => h c (mem_append_left _ hc)
    have hb := h b (by simp)
    obtain ⟨d, hd⟩ := exists_value_of_isLower hb
    obtain ⟨hdlt, -, hdigit⟩ := digit_of_value hd
    refine ⟨16 * n + d, by rw [number_append, hn, hd]; rfl, ?_, ?_⟩
    · rw [length_append, length_singleton, Nat.pow_succ]
      omega
    · rw [length_append, length_singleton, padded,
        show (16 * n + d) / 16 = n by omega, show (16 * n + d) % 16 = d by omega, hpadded,
        hdigit hb]

end Numbers

end VcWorkspace.Text.Hex
