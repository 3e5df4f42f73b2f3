import Mathlib.Algebra.Group.Nat.Defs
import Mathlib.Data.List.Induction

/-! # Big-endian numbers

A number is written into a fixed number of bytes, the most significant first.
-/

namespace VcWorkspace.Text.BigEndian

def encode : ℕ → ℕ → List UInt8
  | 0, _ => []
  | w + 1, n => encode w (n / 256) ++ [UInt8.ofNat n]

def decode (bs : List UInt8) : ℕ := bs.foldl (fun n b => 256 * n + b.toNat) 0

variable {w n : ℕ} {b : UInt8} {bs : List UInt8}

@[simp] theorem length_encode (w n : ℕ) : (encode w n).length = w := by
  induction w generalizing n with
  | zero => rfl
  | succ w ih => rw [encode, List.length_append, ih, List.length_singleton]

theorem decode_append : decode (bs ++ [b]) = 256 * decode bs + b.toNat := by
  simp [decode]

theorem decode_encode (h : n < 256 ^ w) : decode (encode w n) = n := by
  induction w generalizing n with
  | zero =>
    obtain rfl : n = 0 := by simpa using h
    rfl
  | succ w ih =>
    have hdiv : n / 256 < 256 ^ w := Nat.div_lt_of_lt_mul (by rwa [Nat.pow_succ, Nat.mul_comm] at h)
    rw [encode, decode_append, ih hdiv, UInt8.toNat_ofNat']
    exact Nat.div_add_mod n 256

theorem decode_lt (bs : List UInt8) : decode bs < 256 ^ bs.length := by
  induction bs using List.reverseRecOn with
  | nil => exact Nat.one_pos
  | append_singleton bs b ih =>
    have hb := b.toNat_lt
    rw [decode_append, List.length_append, List.length_singleton, Nat.pow_succ]
    omega

theorem encode_decode (h : bs.length = w) : encode w (decode bs) = bs := by
  subst h
  induction bs using List.reverseRecOn with
  | nil => rfl
  | append_singleton bs b ih =>
    have hb := b.toNat_lt
    have hdiv : decode (bs ++ [b]) / 256 = decode bs := by
      rw [decode_append, Nat.mul_add_div (by decide), Nat.div_eq_of_lt hb, Nat.add_zero]
    have hlast : UInt8.ofNat (decode (bs ++ [b])) = b := by
      rw [← UInt8.toNat_inj, UInt8.toNat_ofNat', decode_append, Nat.mul_add_mod,
        Nat.mod_eq_of_lt hb]
    rw [List.length_append, List.length_singleton, encode, hdiv, hlast, ih]

end VcWorkspace.Text.BigEndian
