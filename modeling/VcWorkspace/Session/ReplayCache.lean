import Mathlib.Algebra.Order.BigOperators.Group.List
import Mathlib.Algebra.Order.Group.Nat
import Mathlib.Algebra.GroupWithZero.Nat
import Mathlib.Data.List.Nodup

/-! # The replay cache of a Helper

A Helper reserves the identifier of an action before it starts a worker, and
keeps the reservation until the deadline of the action has passed; the result
is added when there is room for it. The cache is a map by identifier, here the
list of its entries.
-/

namespace VcWorkspace.Session

open List

structure CachedReply (V : Type) where
  fingerprint : List UInt8
  expires : ℤ
  result : Option V
  bytes : ℕ
  deriving DecidableEq, Repr

abbrev ReplayCache (V : Type) := List (String × CachedReply V)

namespace ReplayCache

variable {V : Type}

def maxEntries : ℕ := 128

def maxCachedBytes : ℕ := 32 * 1024 * 1024

def usizeMax : ℕ := 2 ^ 64 - 1

def retain (now : ℤ) (c : ReplayCache V) : ReplayCache V := c.filter fun x => now < x.2.expires

def begin (c : ReplayCache V) (id : String) (fingerprint : List UInt8) (expires now : ℤ) :
    ReplayCache V × Except String (Option V) :=
  let c := c.retain now
  if expires ≤ now then (c, .error "request has expired")
  else match c.find? (·.1 == id) with
    | some (_, entry) =>
      if entry.fingerprint ≠ fingerprint then (c, .error "request identifier was reused")
      else match entry.result with
        | some result => (c, .ok (some result))
        | none => (c, .error "action already attempted; result unavailable")
    | none =>
      if maxEntries ≤ c.length then (c, .error "too many unexpired actions; retry later")
      else ((id, ⟨fingerprint, expires, none, 0⟩) :: c, .ok none)

def used (c : ReplayCache V) : ℕ := (c.map (·.2.bytes)).sum

def setResult (id : String) (result : V) (bytes : ℕ) (x : String × CachedReply V) :
    String × CachedReply V :=
  if x.1 = id then (x.1, { x.2 with result := some result, bytes := bytes }) else x

/-- Add a result; `size` is the length of its encoding, if it has one. -/
def complete (size : V → Option ℕ) (c : ReplayCache V) (id : String) (result : V) :
    ReplayCache V :=
  let bytes := (size result).getD usizeMax
  if bytes ≤ maxCachedBytes - c.used then c.map (setResult id result bytes) else c

def Holds (c : ReplayCache V) (id : String) (expires : ℤ) : Prop :=
  ∃ entry, (id, entry) ∈ c ∧ entry.expires = expires

structure Bounded (c : ReplayCache V) : Prop where
  nodup : (c.map Prod.fst).Nodup
  length : c.length ≤ maxEntries
  used : c.used ≤ maxCachedBytes

variable {c c' : ReplayCache V} {id id' : String} {fingerprint : List UInt8}
  {expires expires' now : ℤ} {r : Except String (Option V)} {size : V → Option ℕ} {v : V}

theorem Bounded.nil : Bounded ([] : ReplayCache V) := ⟨by simp, by simp, by simp [ReplayCache.used]⟩

theorem Bounded.retain (h : c.Bounded) (now : ℤ) : (c.retain now).Bounded where
  nodup := (filter_sublist.map _).nodup h.nodup
  length := (length_filter_le _ _).trans h.length
  used := ((filter_sublist.map _).sum_le_sum fun _ _ => Nat.zero_le _).trans h.used

theorem Holds.retain (h : c.Holds id expires) (hlive : now < expires) :
    (c.retain now).Holds id expires := by
  obtain ⟨entry, hmem, rfl⟩ := h
  exact ⟨entry, by simp [ReplayCache.retain, hmem, hlive], rfl⟩

theorem begin_cases (h : c.begin id fingerprint expires now = (c', r)) :
    (c' = c.retain now ∧ r ≠ .ok none ∧ (∀ v, r = .ok (some v) → now < expires)) ∨
      (now < expires ∧ (∀ d, ¬ (c.retain now).Holds id d) ∧ (c.retain now).length < maxEntries ∧
        c' = (id, ⟨fingerprint, expires, none, 0⟩) :: c.retain now ∧ r = .ok none) := by
  unfold ReplayCache.begin at h
  simp only at h
  split at h
  · cases h
    exact .inl ⟨rfl, by simp, by simp⟩
  rename_i hlive
  split at h
  · split at h
    · cases h
      exact .inl ⟨rfl, by simp, by simp⟩
    · split at h <;> cases h
      · exact .inl ⟨rfl, by simp, fun _ _ => not_le.mp hlive⟩
      · exact .inl ⟨rfl, by simp, by simp⟩
  · rename_i hnone
    split at h <;> cases h
    · exact .inl ⟨rfl, by simp, by simp⟩
    · rename_i hlen
      refine .inr ⟨not_le.mp hlive, ?_, not_le.mp hlen, rfl, rfl⟩
      rintro d ⟨entry, hmem, -⟩
      simpa using List.find?_eq_none.mp hnone _ hmem

theorem Bounded.begin (hc : c.Bounded) (h : c.begin id fingerprint expires now = (c', r)) :
    c'.Bounded := by
  obtain ⟨rfl, -⟩ | ⟨-, hnew, hlen, rfl, -⟩ := begin_cases h
  · exact hc.retain now
  · have hr := hc.retain now
    refine ⟨nodup_cons.mpr ⟨fun hmem => ?_, hr.nodup⟩, hlen, ?_⟩
    · obtain ⟨⟨k, entry⟩, hentry, rfl⟩ := mem_map.mp hmem
      exact hnew entry.expires ⟨entry, hentry, rfl⟩
    · simpa [ReplayCache.used] using hr.used

theorem Holds.begin (hc : c.Holds id' expires') (hlive : now < expires')
    (h : c.begin id fingerprint expires now = (c', r)) : c'.Holds id' expires' := by
  obtain ⟨rfl, -⟩ | ⟨-, -, -, rfl, -⟩ := begin_cases h
  · exact hc.retain hlive
  · obtain ⟨entry, hmem, he⟩ := hc.retain hlive
    exact ⟨entry, mem_cons_of_mem _ hmem, he⟩

theorem map_fst_setResult (n : ℕ) : (c.map (setResult id v n)).map Prod.fst = c.map Prod.fst := by
  rw [map_map]
  refine map_congr_left fun x _ => ?_
  simp only [Function.comp_apply, setResult]
  split <;> rfl

theorem used_setResult (id : String) (v : V) (h : (c.map Prod.fst).Nodup) (n : ℕ) :
    used (c.map (setResult id v n)) ≤ c.used + n := by
  induction c with
  | nil => simp [used]
  | cons x rest ih =>
    obtain ⟨hx, hrest⟩ := nodup_cons.mp h
    by_cases he : x.1 = id
    · -- the entry is the only one of its identifier
      have hsame : rest.map (setResult id v n) = rest := by
        refine (map_congr_left fun y hy => if_neg fun hy' => ?_).trans (map_id' rest)
        exact hx (mem_map.mpr ⟨y, hy, hy'.trans he.symm⟩)
      simp only [used, map_cons, sum_cons, hsame, setResult, if_pos he]
      omega
    · have := ih hrest
      simp only [used, map_cons, sum_cons, setResult, if_neg he] at this ⊢
      omega

theorem Bounded.complete (hc : c.Bounded) : (c.complete size id v).Bounded := by
  unfold ReplayCache.complete
  simp only
  split
  · refine ⟨?_, ?_, ?_⟩
    · rw [map_fst_setResult]
      exact hc.nodup
    · simpa using hc.length
    · have := used_setResult id v hc.nodup ((size v).getD usizeMax)
      have := hc.used
      omega
  · exact hc

theorem Holds.complete (hc : c.Holds id' expires') : (c.complete size id v).Holds id' expires' := by
  unfold ReplayCache.complete
  simp only
  split
  · obtain ⟨entry, hmem, he⟩ := hc
    refine ⟨(setResult id v ((size v).getD usizeMax) (id', entry)).2, ?_, ?_⟩
    · refine mem_map.mpr ⟨_, hmem, ?_⟩
      unfold setResult
      split <;> rfl
    · unfold setResult
      split <;> exact he
  · exact hc

end ReplayCache

end VcWorkspace.Session
