import Mathlib.Tactic.Common

/-! # Base64

The standard alphabet with padding: three bytes become four characters, and the
last one or two bytes are filled up with equals signs. Without padding, and for
any alphabet, the last bytes become two or three characters whose spare bits are
zero.
-/

namespace VcWorkspace.Text.Base64

open List Option

variable {n : ℕ}

def digit (n : ℕ) : Char :=
  if n < 26 then Char.ofNat (65 + n)
  else if n < 52 then Char.ofNat (71 + n)
  else if n < 62 then Char.ofNat (n - 4)
  else if n = 62 then '+'
  else '/'

def value (c : Char) : Option ℕ :=
  if 'A' ≤ c ∧ c ≤ 'Z' then some (c.toNat - 65)
  else if 'a' ≤ c ∧ c ≤ 'z' then some (c.toNat - 71)
  else if '0' ≤ c ∧ c ≤ '9' then some (c.toNat + 4)
  else if c = '+' then some 62
  else if c = '/' then some 63
  else none

def encode : List UInt8 → List Char
  | [] => []
  | [a] => [digit (a.toNat / 4), digit (a.toNat % 4 * 16), '=', '=']
  | [a, b] =>
    [digit (a.toNat / 4), digit (a.toNat % 4 * 16 + b.toNat / 16), digit (b.toNat % 16 * 4), '=']
  | a :: b :: c :: rest =>
    digit (a.toNat / 4) :: digit (a.toNat % 4 * 16 + b.toNat / 16) ::
      digit (b.toNat % 16 * 4 + c.toNat / 64) :: digit (c.toNat % 64) :: encode rest

def decode : List Char → Option (List UInt8)
  | [] => some []
  | w :: x :: y :: z :: rest => do
    let w ← value w
    let x ← value x
    let first := UInt8.ofNat (w * 4 + x / 16)
    -- Padding ends the text.
    if z = '=' then
      if rest ≠ [] then none
      else if y = '=' then some [first]
      else
        let y ← value y
        some [first, UInt8.ofNat (x % 16 * 16 + y / 4)]
    else
      let y ← value y
      let z ← value z
      let bytes ← decode rest
      some (first :: UInt8.ofNat (x % 16 * 16 + y / 4) :: UInt8.ofNat (y % 4 * 64 + z) :: bytes)
  | _ => none

def alphabet : List Char := (List.range 64).map digit ++ ['=']

theorem value_digit (h : n < 64) : value (digit n) = some n := by
  have hall : ∀ m ∈ List.range 64, value (digit m) = some m := by decide +kernel
  exact hall n (mem_range.mpr h)

theorem digit_ne_pad (h : n < 64) : digit n ≠ '=' := by
  have hall : ∀ m ∈ List.range 64, digit m ≠ '=' := by decide +kernel
  exact hall n (mem_range.mpr h)

theorem mem_alphabet_of_mem_encode {bytes : List UInt8} {x : Char} (h : x ∈ encode bytes) :
    x ∈ alphabet := by
  have hdigit {n : ℕ} (hn : n < 64) : digit n ∈ alphabet :=
    mem_append_left _ (mem_map_of_mem (mem_range.mpr hn))
  have hpad : '=' ∈ alphabet := mem_append_right _ (mem_singleton_self _)
  fun_induction encode bytes with
  | case1 => cases h
  | case2 a =>
    have ha := a.toNat_lt
    simp only [mem_cons, not_mem_nil, or_false] at h
    rcases h with rfl | rfl | rfl | rfl
    · exact hdigit (by omega)
    · exact hdigit (by omega)
    · exact hpad
    · exact hpad
  | case3 a b =>
    have ha := a.toNat_lt
    have hb := b.toNat_lt
    simp only [mem_cons, not_mem_nil, or_false] at h
    rcases h with rfl | rfl | rfl | rfl
    · exact hdigit (by omega)
    · exact hdigit (by omega)
    · exact hdigit (by omega)
    · exact hpad
  | case4 a b c rest ih =>
    have ha := a.toNat_lt
    have hb := b.toNat_lt
    have hc := c.toNat_lt
    simp only [mem_cons] at h
    rcases h with rfl | rfl | rfl | rfl | h
    · exact hdigit (by omega)
    · exact hdigit (by omega)
    · exact hdigit (by omega)
    · exact hdigit (by omega)
    · exact ih h

theorem ofNat_eq {a : UInt8} (h : n = a.toNat) : UInt8.ofNat n = a := by
  rw [h, UInt8.ofNat_toNat]

theorem decode_encode (bytes : List UInt8) : decode (encode bytes) = some bytes := by
  fun_induction encode bytes with
  | case1 => rfl
  | case2 a =>
    have ha := a.toNat_lt
    simp (disch := omega) only [decode, value_digit, bind_eq_bind, bind_some, if_true,
      ne_eq, not_true, if_false]
    rw [ofNat_eq (a := a) (by omega)]
  | case3 a b =>
    have ha := a.toNat_lt
    have hb := b.toNat_lt
    simp (disch := omega) only [decode, value_digit, digit_ne_pad, bind_eq_bind,
      bind_some, if_true, ne_eq, not_true, if_false]
    rw [ofNat_eq (a := a) (by omega), ofNat_eq (a := b) (by omega)]
  | case4 a b c rest ih =>
    have ha := a.toNat_lt
    have hb := b.toNat_lt
    have hc := c.toNat_lt
    simp (disch := omega) only [decode, value_digit, digit_ne_pad, ih, bind_eq_bind,
      bind_some, if_false]
    rw [ofNat_eq (a := a) (by omega), ofNat_eq (a := b) (by omega), ofNat_eq (a := c) (by omega)]

section Raw

/-- An alphabet of 64 characters. -/
structure Alphabet where
  digit : ℕ → UInt8
  value : UInt8 → Option ℕ
  value_eq_some : ∀ c n, value c = some n ↔ n < 64 ∧ digit n = c

def Alphabet.encode (alpha : Alphabet) : List UInt8 → List UInt8
  | [] => []
  | [a] => [alpha.digit (a.toNat / 4), alpha.digit (a.toNat % 4 * 16)]
  | [a, b] =>
    [alpha.digit (a.toNat / 4), alpha.digit (a.toNat % 4 * 16 + b.toNat / 16),
      alpha.digit (b.toNat % 16 * 4)]
  | a :: b :: c :: rest =>
    alpha.digit (a.toNat / 4) :: alpha.digit (a.toNat % 4 * 16 + b.toNat / 16) ::
      alpha.digit (b.toNat % 16 * 4 + c.toNat / 64) :: alpha.digit (c.toNat % 64) ::
      alpha.encode rest

/-- Decode strictly: the spare bits of the last character are zero. -/
def Alphabet.decode (alpha : Alphabet) : List UInt8 → Option (List UInt8)
  | [] => some []
  | [_] => none
  | [w, x] => do
    let w ← alpha.value w
    let x ← alpha.value x
    if x % 16 = 0 then some [UInt8.ofNat (w * 4 + x / 16)] else none
  | [w, x, y] => do
    let w ← alpha.value w
    let x ← alpha.value x
    let y ← alpha.value y
    if y % 4 = 0 then some [UInt8.ofNat (w * 4 + x / 16), UInt8.ofNat (x % 16 * 16 + y / 4)]
    else none
  | w :: x :: y :: z :: rest => do
    let w ← alpha.value w
    let x ← alpha.value x
    let y ← alpha.value y
    let z ← alpha.value z
    let bytes ← alpha.decode rest
    some (UInt8.ofNat (w * 4 + x / 16) :: UInt8.ofNat (x % 16 * 16 + y / 4) ::
      UInt8.ofNat (y % 4 * 64 + z) :: bytes)

variable {alpha : Alphabet} {text bytes : List UInt8} {n : ℕ}

theorem Alphabet.value_digit (h : n < 64) : alpha.value (alpha.digit n) = some n :=
  (alpha.value_eq_some _ n).mpr ⟨h, rfl⟩

theorem toNat_ofNat (h : n < 256) : (UInt8.ofNat n).toNat = n := UInt8.toNat_ofNat_of_lt' h

/-- Strict decoding takes the texts that are written, and no others. -/
theorem Alphabet.decode_eq_some : alpha.decode text = some bytes ↔ alpha.encode bytes = text := by
  constructor
  · intro h
    fun_induction alpha.decode text generalizing bytes with
    | case1 =>
      cases h
      rfl
    | case2 => cases h
    | case3 w x =>
      simp only [bind_eq_bind, bind_eq_some_iff, alpha.value_eq_some,
        ite_none_right_eq_some, Option.some.injEq] at h
      obtain ⟨w, ⟨hw, rfl⟩, x, ⟨hx, rfl⟩, hspare, rfl⟩ := h
      simp (disch := omega) only [encode, toNat_ofNat]
      congr <;> omega
    | case4 w x y =>
      simp only [bind_eq_bind, bind_eq_some_iff, alpha.value_eq_some,
        ite_none_right_eq_some, Option.some.injEq] at h
      obtain ⟨w, ⟨hw, rfl⟩, x, ⟨hx, rfl⟩, y, ⟨hy, rfl⟩, hspare, rfl⟩ := h
      simp (disch := omega) only [encode, toNat_ofNat]
      congr <;> omega
    | case5 w x y z rest ih =>
      simp only [bind_eq_bind, bind_eq_some_iff, alpha.value_eq_some,
        Option.some.injEq] at h
      obtain ⟨w, ⟨hw, rfl⟩, x, ⟨hx, rfl⟩, y, ⟨hy, rfl⟩, z, ⟨hz, rfl⟩, bytes, hbytes, rfl⟩ := h
      simp (disch := omega) only [encode, toNat_ofNat, ih hbytes]
      congr <;> omega
  · rintro rfl
    fun_induction alpha.encode bytes with
    | case1 => rfl
    | case2 a =>
      have ha := a.toNat_lt
      simp (disch := omega) only [decode, value_digit, bind_eq_bind, bind_some]
      rw [if_pos (by omega), ofNat_eq (a := a) (by omega)]
    | case3 a b =>
      have ha := a.toNat_lt
      have hb := b.toNat_lt
      simp (disch := omega) only [decode, value_digit, bind_eq_bind, bind_some]
      rw [if_pos (by omega), ofNat_eq (a := a) (by omega), ofNat_eq (a := b) (by omega)]
    | case4 a b c rest ih =>
      have ha := a.toNat_lt
      have hb := b.toNat_lt
      have hc := c.toNat_lt
      simp (disch := omega) only [decode, value_digit, ih, bind_eq_bind, bind_some]
      rw [ofNat_eq (a := a) (by omega), ofNat_eq (a := b) (by omega), ofNat_eq (a := c) (by omega)]

theorem Alphabet.isSome_value_of_decode {c : UInt8} (h : alpha.decode text = some bytes)
    (hc : c ∈ text) : (alpha.value c).isSome = true := by
  have hsome : ∀ {c : UInt8} {n : ℕ}, alpha.value c = some n → (alpha.value c).isSome = true :=
    fun h => by rw [h, isSome_some]
  fun_induction alpha.decode text generalizing bytes with
  | case1 => cases hc
  | case2 => cases h
  | case3 w x =>
    simp only [bind_eq_bind, bind_eq_some_iff] at h
    obtain ⟨_, hw, _, hx, -⟩ := h
    simp only [mem_cons, not_mem_nil, or_false] at hc
    rcases hc with rfl | rfl
    exacts [hsome hw, hsome hx]
  | case4 w x y =>
    simp only [bind_eq_bind, bind_eq_some_iff] at h
    obtain ⟨_, hw, _, hx, _, hy, -⟩ := h
    simp only [mem_cons, not_mem_nil, or_false] at hc
    rcases hc with rfl | rfl | rfl
    exacts [hsome hw, hsome hx, hsome hy]
  | case5 w x y z rest ih =>
    simp only [bind_eq_bind, bind_eq_some_iff] at h
    obtain ⟨_, hw, _, hx, _, hy, _, hz, _, hrest, -⟩ := h
    simp only [mem_cons] at hc
    rcases hc with rfl | rfl | rfl | rfl | hc
    exacts [hsome hw, hsome hx, hsome hy, hsome hz, ih hrest hc]

theorem Alphabet.length_encode (alpha : Alphabet) (bytes : List UInt8) :
    (alpha.encode bytes).length = (4 * bytes.length + 2) / 3 := by
  fun_induction alpha.encode bytes with
  | case1 | case2 | case3 => simp
  | case4 a b c rest ih =>
    simp only [length_cons]
    omega

/-- What decoding asks of a text whose last group has three characters. -/
theorem Alphabet.exists_decode (alpha : Alphabet) (hlen : text.length % 4 = 3)
    (hall : ∀ c ∈ text, (alpha.value c).isSome = true) :
    (text.getLast?.bind alpha.value).any (fun n => n % 4 == 0) = true ↔
      ∃ bytes, alpha.decode text = some bytes := by
  fun_induction alpha.decode text with
  | case1 | case2 | case3 => simp at hlen
  | case4 w x y =>
    obtain ⟨w', hw⟩ := isSome_iff_exists.mp (hall w (by simp))
    obtain ⟨x', hx⟩ := isSome_iff_exists.mp (hall x (by simp))
    obtain ⟨y', hy⟩ := isSome_iff_exists.mp (hall y (by simp))
    simp [hw, hx, hy]
  | case5 w x y z rest ih =>
    obtain ⟨w', hw⟩ := isSome_iff_exists.mp (hall w (by simp))
    obtain ⟨x', hx⟩ := isSome_iff_exists.mp (hall x (by simp))
    obtain ⟨y', hy⟩ := isSome_iff_exists.mp (hall y (by simp))
    obtain ⟨z', hz⟩ := isSome_iff_exists.mp (hall z (by simp))
    have hrest : rest.length % 4 = 3 := by
      simp only [length_cons] at hlen
      omega
    obtain ⟨c, cs, rfl⟩ : ∃ c cs, rest = c :: cs := exists_cons_of_ne_nil (by
      rintro rfl
      simp at hrest)
    have hlast := ih hrest fun c hc => hall c (by simp [hc])
    simp only [List.getLast?_cons_cons, hlast, hw, hx, hy, hz, bind_eq_bind,
      bind_some, bind_eq_some_iff, Option.some.injEq]
    exact ⟨fun ⟨bytes, hbytes⟩ => ⟨_, bytes, hbytes, rfl⟩, fun ⟨_, bytes, hbytes, _⟩ =>
      ⟨bytes, hbytes⟩⟩

end Raw

end VcWorkspace.Text.Base64
