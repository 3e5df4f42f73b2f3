import Mathlib.Computability.RegularExpressions

/-! # Patterns

Anchored patterns are regular expressions over bytes: texts, classes of bytes, and
classes that are repeated. A lemma for each says which byte strings match, so that a
check written with a pattern can be compared with one written by hand.
-/

namespace VcWorkspace.Text

abbrev Pattern := RegularExpression UInt8

namespace Pattern

open RegularExpression List

section Patterns

def range (lo hi : UInt8) : List UInt8 :=
  (List.range' lo.toNat (hi.toNat + 1 - lo.toNat)).map UInt8.ofNat

def literal : List UInt8 → Pattern
  | [] => 1
  | b :: bs => char b * literal bs

def anyOf : List UInt8 → Pattern
  | [] => 0
  | b :: bs => char b + anyOf bs

def times (p : Pattern) : ℕ → Pattern
  | 0 => 1
  | n + 1 => p * times p n

def upTo (p : Pattern) : ℕ → Pattern
  | 0 => 1
  | n + 1 => 1 + p * upTo p n

/-- At least `lo` and at most `hi` times. -/
def between (p : Pattern) (lo hi : ℕ) : Pattern := times p lo * upTo p (hi - lo)

def many (p : Pattern) : Pattern := p * p.star

end Patterns

variable {lo hi n : ℕ} {b : UInt8} {s x cs : List UInt8} {p q : Pattern}

theorem mem_range {lo hi : UInt8} : b ∈ range lo hi ↔ lo ≤ b ∧ b ≤ hi := by
  simp only [range, mem_map, mem_range'_1, UInt8.le_iff_toNat_le]
  constructor
  · rintro ⟨n, hn, rfl⟩
    have hhi := hi.toNat_lt
    rw [UInt8.toNat_ofNat_of_lt' (by simp only [UInt8.size]; omega)]
    omega
  · intro h
    exact ⟨b.toNat, by omega, UInt8.ofNat_toNat⟩

theorem rmatch_iff : p.rmatch x = true ↔ x ∈ p.matches' := rmatch_iff_matches' p x

theorem mem_mul : x ∈ (p * q).matches' ↔ ∃ y z, y ∈ p.matches' ∧ z ∈ q.matches' ∧ x = y ++ z := by
  constructor
  · rintro ⟨y, hy, z, hz, rfl⟩
    exact ⟨y, z, hy, hz, rfl⟩
  · rintro ⟨y, z, hy, hz, rfl⟩
    exact ⟨y, hy, z, hz, rfl⟩

theorem mem_add : x ∈ (p + q).matches' ↔ x ∈ p.matches' ∨ x ∈ q.matches' := by
  rw [matches'_add, Language.mem_add]

theorem mem_one : x ∈ (1 : Pattern).matches' ↔ x = [] := by
  rw [matches'_epsilon, Language.mem_one]

theorem mem_char : x ∈ (char b : Pattern).matches' ↔ x = [b] := Iff.rfl

theorem mem_literal : x ∈ (literal s).matches' ↔ x = s := by
  induction s generalizing x with
  | nil => exact mem_one
  | cons b s ih =>
    rw [literal, mem_mul]
    constructor
    · rintro ⟨y, z, hy, hz, rfl⟩
      rw [mem_char.mp hy, ih.mp hz]
      rfl
    · rintro rfl
      exact ⟨[b], s, mem_char.mpr rfl, ih.mpr rfl, rfl⟩

theorem mem_literal_mul : x ∈ (literal s * p).matches' ↔ ∃ y ∈ p.matches', x = s ++ y := by
  rw [mem_mul]
  constructor
  · rintro ⟨y, z, hy, hz, rfl⟩
    exact ⟨z, hz, by rw [mem_literal.mp hy]⟩
  · rintro ⟨y, hy, rfl⟩
    exact ⟨s, y, mem_literal.mpr rfl, hy, rfl⟩

theorem mem_anyOf : x ∈ (anyOf cs).matches' ↔ ∃ c ∈ cs, x = [c] := by
  induction cs with
  | nil => simp [anyOf]
  | cons c cs ih => rw [anyOf, mem_add, ih, mem_char, exists_mem_cons_iff]

theorem mem_anyOf_mul : x ∈ (anyOf cs * p).matches' ↔ ∃ c ∈ cs, ∃ y ∈ p.matches', x = c :: y := by
  rw [mem_mul]
  constructor
  · rintro ⟨y, z, hy, hz, rfl⟩
    obtain ⟨c, hc, rfl⟩ := mem_anyOf.mp hy
    exact ⟨c, hc, z, hz, rfl⟩
  · rintro ⟨c, hc, y, hy, rfl⟩
    exact ⟨[c], y, mem_anyOf.mpr ⟨c, hc, rfl⟩, hy, rfl⟩

theorem mem_times : x ∈ (times (anyOf cs) n).matches' ↔ x.length = n ∧ ∀ c ∈ x, c ∈ cs := by
  induction n generalizing x with
  | zero =>
    rw [times, mem_one, length_eq_zero_iff]
    constructor
    · rintro rfl
      exact ⟨rfl, nofun⟩
    · exact And.left
  | succ n ih =>
    rw [times, mem_anyOf_mul]
    constructor
    · rintro ⟨c, hc, y, hy, rfl⟩
      obtain ⟨hlen, hall⟩ := ih.mp hy
      exact ⟨by simp [hlen], forall_mem_cons.mpr ⟨hc, hall⟩⟩
    · rintro ⟨hlen, hall⟩
      cases x with
      | nil => cases hlen
      | cons c y =>
        obtain ⟨hc, hall⟩ := forall_mem_cons.mp hall
        exact ⟨c, hc, y, ih.mpr ⟨by simpa using hlen, hall⟩, rfl⟩

theorem mem_upTo : x ∈ (upTo (anyOf cs) n).matches' ↔ x.length ≤ n ∧ ∀ c ∈ x, c ∈ cs := by
  induction n generalizing x with
  | zero =>
    rw [upTo, mem_one, Nat.le_zero, length_eq_zero_iff]
    constructor
    · rintro rfl
      exact ⟨rfl, nofun⟩
    · exact And.left
  | succ n ih =>
    rw [upTo, mem_add, mem_one, mem_anyOf_mul]
    constructor
    · rintro (rfl | ⟨c, hc, y, hy, rfl⟩)
      · exact ⟨Nat.zero_le _, nofun⟩
      · obtain ⟨hlen, hall⟩ := ih.mp hy
        exact ⟨by simpa using hlen, forall_mem_cons.mpr ⟨hc, hall⟩⟩
    · rintro ⟨hlen, hall⟩
      cases x with
      | nil => exact .inl rfl
      | cons c y =>
        obtain ⟨hc, hall⟩ := forall_mem_cons.mp hall
        exact .inr ⟨c, hc, y, ih.mpr ⟨by simpa using hlen, hall⟩, rfl⟩

theorem mem_between (h : lo ≤ hi) : x ∈ (between (anyOf cs) lo hi).matches' ↔
    lo ≤ x.length ∧ x.length ≤ hi ∧ ∀ c ∈ x, c ∈ cs := by
  rw [between, mem_mul]
  constructor
  · rintro ⟨y, z, hy, hz, rfl⟩
    obtain ⟨hylen, hyall⟩ := mem_times.mp hy
    obtain ⟨hzlen, hzall⟩ := mem_upTo.mp hz
    rw [length_append]
    refine ⟨by omega, by omega, fun c hc => ?_⟩
    exact (mem_append.mp hc).elim (hyall c) (hzall c)
  · rintro ⟨hlo, hhi, hall⟩
    refine ⟨x.take lo, x.drop lo, mem_times.mpr ⟨?_, ?_⟩, mem_upTo.mpr ⟨?_, ?_⟩,
      (take_append_drop lo x).symm⟩
    · rw [length_take, Nat.min_eq_left hlo]
    · exact fun c hc => hall c (mem_of_mem_take hc)
    · rw [length_drop]
      omega
    · exact fun c hc => hall c (mem_of_mem_drop hc)

theorem mem_star : x ∈ (anyOf cs).star.matches' ↔ ∀ c ∈ x, c ∈ cs := by
  constructor
  · rintro ⟨words, rfl, hwords⟩ c hc
    obtain ⟨word, hword, hc⟩ := mem_flatten.mp hc
    obtain ⟨d, hd, rfl⟩ := mem_anyOf.mp (hwords word hword)
    rwa [mem_singleton.mp hc]
  · intro hall
    refine ⟨x.map ([·]), by rw [← flatMap_def, flatMap_singleton'], fun word hword => ?_⟩
    obtain ⟨c, hc, rfl⟩ := mem_map.mp hword
    exact mem_anyOf.mpr ⟨c, hall c hc, rfl⟩

theorem mem_many : x ∈ (many (anyOf cs)).matches' ↔ x ≠ [] ∧ ∀ c ∈ x, c ∈ cs := by
  rw [many, mem_anyOf_mul]
  constructor
  · rintro ⟨c, hc, y, hy, rfl⟩
    exact ⟨cons_ne_nil _ _, forall_mem_cons.mpr ⟨hc, mem_star.mp hy⟩⟩
  · rintro ⟨hne, hall⟩
    cases x with
    | nil => exact absurd rfl hne
    | cons c y =>
      obtain ⟨hc, hall⟩ := forall_mem_cons.mp hall
      exact ⟨c, hc, y, mem_star.mpr hall, rfl⟩

end Pattern

end VcWorkspace.Text
