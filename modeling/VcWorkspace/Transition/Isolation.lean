import VcWorkspace.Transition.ReadCommitted
import VcWorkspace.Transition.Table

/-! # Invariants of committed rows

An invariant that survives time and lowered rows holds in every committed state,
if transactions without the advisory lock only lower rows and transactions with
it keep the invariant over what they see. Row locks keep the uncommitted rows of
two transactions apart, so that commits do not disturb each other.
-/

namespace VcWorkspace.Transition.ReadCommitted

open List Schema

variable {κ ρ : Type} {S : Schema κ ρ} {I : ℕ → List ρ → Prop} {s : System κ ρ} {i : ℕ} {t : Tx κ ρ}

section Invariant

variable [DecidableEq κ] {t' u : Tx κ ρ} {db db' V : List ρ} {clock : ℕ} {holder holder' : Option ℕ}
  {rest : List (Stmt κ ρ)} {p : ℕ → List ρ → ρ → Bool} {f : ℕ → ρ → ρ} {r : ρ}

/-- The transaction with the lock: what it sees is in order, and what it has read lies above. -/
structure Holding (S : Schema κ ρ) (I : ℕ → List ρ → Prop) (db : List ρ) (clock : ℕ)
    (t : Tx κ ρ) : Prop where
  view : I clock (S.overlay db t.writes)
  rest : ∃ t₀ V₀, t₀ ≤ clock ∧ S.Under (S.overlay db t.writes) V₀ ∧
    Locked S I t.started t.program t₀ V₀ ∧ ∀ V ∈ t.snapshot, V = V₀

structure Waiting (S : Schema κ ρ) (I : ℕ → List ρ → Prop) (db : List ρ) (t : Tx κ ρ) : Prop where
  rest : Free S I t.started t.program
  writes : S.Under t.writes db

structure TxOk (S : Schema κ ρ) (I : ℕ → List ρ → Prop) (db : List ρ) (clock : ℕ)
    (holder : Option ℕ) (i : ℕ) (t : Tx κ ρ) : Prop where
  started : t.started ≤ clock
  keys : (t.writes.map S.key).Nodup
  holding : holder = some i → Holding S I db clock t
  waiting : holder ≠ some i → Waiting S I db t

structure Inv (S : Schema κ ρ) (I : ℕ → List ρ → Prop) (s : System κ ρ) : Prop where
  db : I s.clock s.db
  keys : (s.db.map S.key).Nodup
  holder : ∀ i, s.holder = some i → i < s.txs.length
  tx : ∀ (i : ℕ) (t : Tx κ ρ), s.txs[i]? = some t → TxOk S I s.db s.clock s.holder i t
  apart : ∀ (i j : ℕ) (t u : Tx κ ρ), i ≠ j → s.txs[i]? = some t → s.txs[j]? = some u →
    ∀ r ∈ t.writes, ∀ r' ∈ u.writes, S.key r ≠ S.key r'

theorem Inv.replace (hi : Inv S I s) (hdb : I s.clock db') (hkeys : (db'.map S.key).Nodup)
    (hholder : ∀ j, holder' = some j → j < s.txs.length)
    (hothers : ∀ j u, j ≠ i → s.txs[j]? = some u → TxOk S I db' s.clock holder' j u)
    (ht : TxOk S I db' s.clock holder' i t') (hapart : ∀ j u, j ≠ i → s.txs[j]? = some u →
      ∀ r ∈ t'.writes, ∀ r' ∈ u.writes, S.key r ≠ S.key r') :
    Inv S I { s with db := db', holder := holder', txs := s.txs.set i t' } where
  db := hdb
  keys := hkeys
  holder j hj := by
    rw [length_set]
    exact hholder j hj
  tx j u hu := by
    rcases getElem?_set_cases hu with ⟨rfl, rfl⟩ | ⟨hij, hu⟩
    · exact ht
    · exact hothers j u hij hu
  apart j k u v hjk hu hv := by
    rcases getElem?_set_cases hu with ⟨rfl, rfl⟩ | ⟨hij, hold⟩
    · rcases getElem?_set_cases hv with ⟨rfl, -⟩ | ⟨hik, hv⟩
      · exact absurd rfl hjk
      · exact hapart k v hik hv
    · rcases getElem?_set_cases hv with ⟨-, rfl⟩ | ⟨-, hv⟩
      · exact fun r hr r' hr' he => hapart j u hij hold r' hr' r hr he.symm
      · exact hi.apart j k u v hjk hold hv

/-- A transaction takes a step of its own, without changing what is committed. -/
theorem Inv.set (hi : Inv S I s) (hget : s.txs[i]? = some t)
    (ht : TxOk S I s.db s.clock s.holder i t') (hw : t'.writes = t.writes) :
    Inv S I { s with txs := s.txs.set i t' } := by
  refine hi.replace hi.db hi.keys hi.holder (fun j u _ hu => hi.tx j u hu) ht ?_
  rw [hw]
  exact fun j u hji hu => hi.apart i j t u (Ne.symm hji) hget hu

theorem not_taken {k : κ} (h : s.taken S i k = false) {j : ℕ} (hji : j ≠ i)
    (hu : s.txs[j]? = some u) : ∀ r ∈ u.writes, S.key r ≠ k := by
  intro r hr he
  have hlt : j < s.txs.length := (List.getElem?_eq_some_iff.mp hu).1
  have htrue : s.taken S i k = true := by
    refine any_eq_true.mpr ⟨j, mem_range.mpr hlt, ?_⟩
    simp only [Bool.and_eq_true, bne_iff_ne, ne_eq, hji, not_false_eq_true, hu, Option.any_some,
      decide_eq_true_eq, true_and]
    exact mem_map.mpr ⟨r, hr, he⟩
  rw [h] at htrue
  cases htrue

theorem TxOk.later (hst : Stable S I) (h : TxOk S I db clock holder i t) (d : ℕ) :
    TxOk S I db (clock + d) holder i t where
  started := h.started.trans (Nat.le_add_right _ _)
  keys := h.keys
  holding hh := by
    obtain ⟨hview, t₀, V₀, ht₀, hrest⟩ := h.holding hh
    exact ⟨hst.later hview (Nat.le_add_right _ _), t₀, V₀, ht₀.trans (Nat.le_add_right _ _), hrest⟩
  waiting := h.waiting

theorem Holding.locked (h : Holding S I db clock t) :
    Locked S I t.started t.program clock (S.overlay db t.writes) := by
  obtain ⟨-, t₀, V₀, ht₀, hV₀, hrest, -⟩ := h
  exact hrest.mono ht₀ hV₀

/-- The transaction with the lock goes on with a program that is safe over what it sees. -/
theorem Holding.advance (hview : I clock (S.overlay db t.writes))
    (hrest : Locked S I t.started rest clock (S.overlay db t.writes)) :
    Holding S I db clock (t.advance rest) :=
  ⟨hview, clock, _, le_rfl, .rfl, hrest, by simp [Tx.advance]⟩

theorem TxOk.snapshot (h : TxOk S I db clock holder i t) :
    TxOk S I db clock holder i { t with snapshot := some (S.overlay db t.writes) } where
  started := h.started
  keys := h.keys
  holding hh := by
    refine ⟨(h.holding hh).view, clock, _, le_rfl, .rfl, (h.holding hh).locked, ?_⟩
    rintro V ⟨⟩
    rfl
  waiting hh := ⟨(h.waiting hh).rest, (h.waiting hh).writes⟩

theorem TxOk.lock (hst : Stable S I) (h : TxOk S I db clock holder i t)
    (hp : t.program = .lock :: rest) (hdb : I clock db) :
    TxOk S I db clock (some i) i (t.advance rest) where
  started := h.started
  keys := h.keys
  holding _ := by
    by_cases hh : holder = some i
    · have hlocked := (h.holding hh).locked
      rw [hp] at hlocked
      exact Holding.advance (h.holding hh).view hlocked
    · have hview : I clock (S.overlay db t.writes) := hst.under hdb (h.waiting hh).writes.overlay
      have hfree := (h.waiting hh).rest
      rw [hp] at hfree
      exact Holding.advance hview (hfree clock _ h.started hview)
  waiting hh := absurd rfl hh

theorem TxOk.guard {g : ℕ → List ρ → Bool} (h : TxOk S I db clock holder i t)
    (hp : t.program = .guard g :: rest) (hg : g t.started (S.overlay db t.writes) = true) :
    TxOk S I db clock holder i (t.advance rest) where
  started := h.started
  keys := h.keys
  holding hh := by
    have hlocked := (h.holding hh).locked
    rw [hp] at hlocked
    have hview := (h.holding hh).view
    exact Holding.advance hview (hlocked clock _ le_rfl .rfl hview hg)
  waiting hh := by
    have hfree := (h.waiting hh).rest
    rw [hp] at hfree
    exact ⟨hfree, (h.waiting hh).writes⟩

theorem TxOk.next (h : TxOk S I db clock holder i t) (hp : t.program = .lower p f :: rest) :
    TxOk S I db clock holder i (t.advance rest) where
  started := h.started
  keys := h.keys
  holding hh := by
    have hlocked := (h.holding hh).locked
    rw [hp] at hlocked
    exact Holding.advance (h.holding hh).view hlocked.2
  waiting hh := by
    have hfree := (h.waiting hh).rest
    rw [hp] at hfree
    exact ⟨hfree.2, (h.waiting hh).writes⟩

theorem TxOk.lower (hst : Stable S I) (h : TxOk S I db clock holder i t)
    (hp : t.program = .lower p f :: rest) (hr : r ∈ S.overlay db t.writes)
    (hsel : p t.started V r = true) :
    TxOk S I db clock holder i { t with writes := S.put (f t.started r) t.writes } where
  started := h.started
  keys := nodup_put h.keys
  holding hh := by
    obtain ⟨hview, t₀, V₀, ht₀, hV₀, hrest, hsnap⟩ := h.holding hh
    have hlow : S.Lowers p f := by
      rw [hp] at hrest
      exact hrest.1
    have hunder : S.Under (S.overlay db (S.put (f t.started r) t.writes)) (S.overlay db t.writes) :=
      (Schema.Under.of_subset fun _ => mem_overlay_put.mp).trans
        (Schema.Under.put ⟨r, hr, hlow _ V r hsel⟩)
    exact ⟨hst.under hview hunder, t₀, V₀, ht₀, hunder.trans hV₀, hrest, hsnap⟩
  waiting hh := by
    have hwait := h.waiting hh
    have hlow : S.Lowers p f := by
      have hfree := hwait.rest
      rw [hp] at hfree
      exact hfree.1
    refine ⟨hwait.rest, fun w hw => ?_⟩
    rcases mem_put.mp hw with ⟨hw, -⟩ | rfl
    · exact hwait.writes w hw
    · obtain ⟨r₀, hr₀, hb⟩ := hwait.writes.overlay r hr
      exact ⟨r₀, hr₀, S.trans (hlow _ V r hsel) hb⟩

/-- The transaction with the lock writes a row after which its view is in order. -/
theorem TxOk.put (hst : Stable S I) (h : TxOk S I db clock holder i t) (hh : holder = some i)
    (hI : I clock (S.put r (S.overlay db t.writes)))
    (hrest : Locked S I t.started rest clock (S.put r (S.overlay db t.writes))) :
    TxOk S I db clock holder i { t.advance rest with writes := S.put r t.writes } where
  started := h.started
  keys := nodup_put h.keys
  holding _ := by
    have hunder : S.Under (S.overlay db (S.put r t.writes)) (S.put r (S.overlay db t.writes)) :=
      .of_subset fun _ => mem_overlay_put.mp
    exact ⟨hst.under hI hunder, clock, _, le_rfl, hunder, hrest, by simp [Tx.advance]⟩
  waiting hn := absurd hh hn

theorem TxOk.write {k : κ} {f : ℕ → List ρ → List ρ → ρ → Option ρ} {r' : ρ} (hst : Stable S I)
    (h : TxOk S I db clock holder i t) (hp : t.program = .write k f :: rest)
    (hsnap : t.snapshot = some V) (hr : r ∈ S.overlay db t.writes) (hk : S.key r = k)
    (hf : f t.started V (S.overlay db t.writes) r = some r') :
    TxOk S I db clock holder i { t.advance rest with writes := S.put r' t.writes } := by
  by_cases hh : holder = some i
  · obtain ⟨hview, t₀, V₀, ht₀, hV₀, hlocked, hsame⟩ := h.holding hh
    obtain rfl : V = V₀ := hsame V hsnap
    rw [hp] at hlocked
    obtain ⟨hI, hrest⟩ := hlocked t₀ V le_rfl .rfl clock _ ht₀ hV₀ hview r hr hk r' hf
    exact h.put hst hh hI hrest
  · have hfree := (h.waiting hh).rest
    rw [hp] at hfree
    exact hfree.elim

theorem TxOk.insert {f : ℕ → List ρ → List ρ → Option ρ} (hst : Stable S I)
    (h : TxOk S I db clock holder i t) (hp : t.program = .insert f :: rest)
    (hsnap : t.snapshot = some V) (hf : f t.started V (S.overlay db t.writes) = some r)
    (hk : S.key r ∉ (S.overlay db t.writes).map S.key) :
    TxOk S I db clock holder i { t.advance rest with writes := S.put r t.writes } := by
  by_cases hh : holder = some i
  · obtain ⟨hview, t₀, V₀, ht₀, hV₀, hlocked, hsame⟩ := h.holding hh
    obtain rfl : V = V₀ := hsame V hsnap
    rw [hp] at hlocked
    obtain ⟨hI, hrest⟩ := hlocked t₀ V le_rfl .rfl clock _ ht₀ hV₀ hview r hf hk
    exact h.put hst hh hI hrest
  · have hfree := (h.waiting hh).rest
    rw [hp] at hfree
    exact hfree.elim

theorem TxOk.over (hdb : I clock db) (hs : t.started ≤ clock) :
    TxOk S I db clock holder i t.over where
  started := hs
  keys := nodup_nil
  holding _ := by
    have hview : S.overlay db ([] : List ρ) = db := by simp [Schema.overlay]
    refine ⟨?_, clock, db, le_rfl, ?_, trivial, by simp [Tx.over]⟩ <;> simp only [Tx.over, hview]
    · exact hdb
    · exact .rfl
  waiting _ := ⟨trivial, by simp [Tx.over, Schema.Under]⟩

/-- The rows that one transaction commits leave what the others rely on in place. -/
theorem Inv.committed (hst : Stable S I) (hi : Inv S I s) (hget : s.txs[i]? = some t) {j : ℕ}
    (hji : j ≠ i) (hu : s.txs[j]? = some u) :
    TxOk S I (S.overlay s.db t.writes) s.clock (s.release i) j u := by
  have hu' := hi.tx j u hu
  have hapart : ∀ r ∈ t.writes, ∀ r' ∈ u.writes, S.key r ≠ S.key r' :=
    hi.apart i j t u (Ne.symm hji) hget hu
  constructor
  · exact hu'.started
  · exact hu'.keys
  · intro hh
    rw [release_eq_some hji] at hh
    have hwait : s.holder ≠ some i := by
      intro he
      exact hji (Option.some.inj (hh.symm.trans he))
    -- the committed rows are lowered versions of the ones that were there
    have hunder : S.Under (S.overlay (S.overlay s.db t.writes) u.writes)
        (S.overlay s.db u.writes) := by
      intro r hr
      rcases mem_overlay.mp hr with ⟨hr, hk⟩ | hr
      · obtain ⟨r₀, hr₀, hb⟩ := ((hi.tx i t hget).waiting hwait).writes.overlay r hr
        exact ⟨r₀, mem_overlay.mpr (.inl ⟨hr₀, S.key_eq hb ▸ hk⟩), hb⟩
      · exact ⟨r, mem_overlay.mpr (.inr hr), S.refl r⟩
    obtain ⟨hview, t₀, V₀, ht₀, hV₀, hrest⟩ := hu'.holding hh
    exact ⟨hst.under hview hunder, t₀, V₀, ht₀, hunder.trans hV₀, hrest⟩
  · intro hh
    rw [ne_eq, release_eq_some hji] at hh
    refine ⟨(hu'.waiting hh).rest, fun w hw => ?_⟩
    obtain ⟨r, hr, hb⟩ := (hu'.waiting hh).writes w hw
    refine ⟨r, mem_overlay.mpr (.inl ⟨hr, fun hmem => ?_⟩), hb⟩
    obtain ⟨r', hr', he⟩ := mem_map.mp hmem
    exact hapart r' hr' w hw (he.trans (S.key_eq hb).symm)

theorem Inv.view (hst : Stable S I) (hi : Inv S I s) (hget : s.txs[i]? = some t) :
    I s.clock (S.overlay s.db t.writes) := by
  by_cases hh : s.holder = some i
  · exact ((hi.tx i t hget).holding hh).view
  · exact hst.under hi.db ((hi.tx i t hget).waiting hh).writes.overlay

theorem Inv.commit (hst : Stable S I) (hi : Inv S I s) (hget : s.txs[i]? = some t) :
    Inv S I { s with
      db := S.overlay s.db t.writes, holder := s.release i, txs := s.txs.set i t.over } := by
  have ht := hi.tx i t hget
  have hview := hi.view hst hget
  exact hi.replace hview (nodup_overlay hi.keys ht.keys)
    (fun j hj => hi.holder j (holder_of_release hj))
    (fun j u hji hu => hi.committed hst hget hji hu) (.over hview ht.started) (by simp [Tx.over])

theorem Inv.abort (hi : Inv S I s) (hget : s.txs[i]? = some t) :
    Inv S I { s with holder := s.release i, txs := s.txs.set i t.over } := by
  refine hi.replace hi.db hi.keys (fun j hj => hi.holder j (holder_of_release hj))
    (fun j u hji hu => ?_) (.over hi.db (hi.tx i t hget).started) (by simp [Tx.over])
  obtain ⟨h₁, h₂, h₃, h₄⟩ := hi.tx j u hu
  refine ⟨h₁, h₂, fun hh => h₃ ((release_eq_some hji).mp hh), fun hh => h₄ ?_⟩
  rwa [ne_eq, release_eq_some hji] at hh

theorem Inv.lock (hst : Stable S I) (hi : Inv S I s) (hget : s.txs[i]? = some t)
    (hp : t.program = .lock :: rest) (hfree : s.holder = none ∨ s.holder = some i) :
    Inv S I { s with holder := some i, txs := s.txs.set i (t.advance rest) } := by
  refine hi.replace hi.db hi.keys ?_ (fun j u hji hu => ?_)
    ((hi.tx i t hget).lock hst hp hi.db) fun j u hji hu => hi.apart i j t u (Ne.symm hji) hget hu
  · rintro j ⟨⟩
    exact (List.getElem?_eq_some_iff.mp hget).1
  obtain ⟨h₁, h₂, -, h₄⟩ := hi.tx j u hu
  refine ⟨h₁, h₂, fun hh => absurd (Option.some.inj hh).symm hji, fun _ => h₄ ?_⟩
  rcases hfree with hh | hh <;> rw [hh]
  · simp
  · simpa using Ne.symm hji

theorem Inv.start (hi : Inv S I s) {prog : List (Stmt κ ρ)} (hprog : Free S I s.clock prog) :
    Inv S I { s with txs := s.txs ++ [⟨prog, s.clock, none, []⟩] } := by
  constructor
  · exact hi.db
  · exact hi.keys
  · intro j hj
    have := hi.holder j hj
    simp only [length_append]
    omega
  · intro j u hu
    rcases getElem?_concat_cases hu with hu | ⟨rfl, rfl⟩
    · exact hi.tx j u hu
    · exact ⟨le_rfl, nodup_nil, fun hh => absurd (hi.holder _ hh) (lt_irrefl _),
        fun _ => ⟨hprog, by simp [Schema.Under]⟩⟩
  · intro j k u v hjk hu hv
    rcases getElem?_concat_cases hu with hu | ⟨-, rfl⟩
    · rcases getElem?_concat_cases hv with hv | ⟨-, rfl⟩
      · exact hi.apart j k u v hjk hu hv
      · simp
    · simp

theorem TxOk.writes_row {w : ρ} {t' : Tx κ ρ} (hst : Stable S I)
    (h : TxOk S I s.db s.clock s.holder i t) (hw : Writes S s t w t') :
    TxOk S I s.db s.clock s.holder i { t' with writes := S.put w t.writes } := by
  cases hw with
  | lower hp hr hsel => exact h.lower hst hp hr hsel
  | write hp hsnap hr hk hf => exact h.write hst hp hsnap hr hk hf
  | insert hp hsnap hf hk => exact h.insert hst hp hsnap hf hk

theorem Inv.update {w : ρ} {t' : Tx κ ρ} (hst : Stable S I) (hi : Inv S I s)
    (hget : s.txs[i]? = some t) (hw : Writes S s t w t') (hfree : s.taken S i (S.key w) = false) :
    Inv S I { s with txs := s.txs.set i { t' with writes := S.put w t.writes } } := by
  refine hi.replace hi.db hi.keys hi.holder (fun j u _ hu => hi.tx j u hu)
    ((hi.tx i t hget).writes_row hst hw) fun j u hji hu r hr r' hr' hkey => ?_
  rcases mem_put.mp hr with ⟨hr, -⟩ | rfl
  · exact hi.apart i j t u (Ne.symm hji) hget hu r hr r' hr' hkey
  · exact not_taken hfree hji hu r' hr' hkey.symm

end Invariant

section Run

variable {o : Type} [DecidableEq κ] [DecidableEq ρ] {program : o → List (Stmt κ ρ)}
  {s' : System κ ρ} {e : Event o ρ}

theorem inv_step (hst : Stable S I) (hprog : ∀ op n, Free S I n (program op)) (hi : Inv S I s)
    (h : (machine S program).step s e = some s') : Inv S I s' := by
  cases steps_of_step h with
  | tick =>
    exact ⟨hst.later hi.db (Nat.le_add_right _ _), hi.keys, hi.holder,
      fun j u hu => (hi.tx j u hu).later hst _, hi.apart⟩
  | start => exact hi.start (hprog _ s.clock)
  | snapshot ht => exact hi.set ht (hi.tx _ _ ht).snapshot rfl
  | lock ht hp hfree => exact hi.lock hst ht hp hfree
  | guard ht hp hg => exact hi.set ht ((hi.tx _ _ ht).guard hp hg) rfl
  | next ht hp => exact hi.set ht ((hi.tx _ _ ht).next hp) rfl
  | update ht he hfree => exact hi.update hst ht (writes_of_effect he) hfree
  | commit ht => exact hi.commit hst ht
  | abort ht => exact hi.abort ht

theorem inv_of_reachable (hst : Stable S I) (hempty : ∀ n, I n [])
    (hprog : ∀ op n, Free S I n (program op)) (hs : (machine S program).Reachable s) :
    Inv S I s := by
  refine hs.invariant (P := Inv S I) ?_ fun _ _ _ _ hi h => inv_step hst hprog hi h
  rintro s ⟨hdb, hholder, htxs⟩
  constructor <;> simp [hdb, hholder, htxs, hempty]

/-- If every operation only lowers rows without the lock and keeps the invariant under it, every
committed state satisfies it. -/
theorem committed_invariant (hst : Stable S I) (hempty : ∀ n, I n [])
    (hprog : ∀ op n, Free S I n (program op)) (hs : (machine S program).Reachable s) :
    I s.clock s.db ∧ (s.db.map S.key).Nodup :=
  have hi := inv_of_reachable hst hempty hprog hs
  ⟨hi.db, hi.keys⟩

end Run

section Held

variable {o : Type} {K : κ → Prop} {holder : Option ℕ} {db : List ρ}

/-- Before the lock a transaction lowers only rows with certain keys. -/
def Confined (S : Schema κ ρ) (K : κ → Prop) : List (Stmt κ ρ) → Prop
  | [] | .lock :: _ => True
  | .guard _ :: rest => Confined S K rest
  | .lower p f :: rest => (∀ n V r, p n V r = true → K (S.key (f n r))) ∧ Confined S K rest
  | .write _ _ :: _ | .insert _ :: _ => False

/-- Who does not hold the lock has written only such rows. -/
def Fenced (S : Schema κ ρ) (K : κ → Prop) (s : System κ ρ) : Prop :=
  ∀ (i : ℕ) (t : Tx κ ρ), s.txs[i]? = some t → s.holder ≠ some i →
    Confined S K t.program ∧ ∀ r ∈ t.writes, K (S.key r)

theorem Fenced.set (h : Fenced S K s) (hothers : ∀ j, j ≠ i → holder ≠ some j → s.holder ≠ some j)
    (ht : holder ≠ some i → Confined S K t.program ∧ ∀ r ∈ t.writes, K (S.key r)) :
    Fenced S K { s with db := db, holder := holder, txs := s.txs.set i t } := by
  intro j u hu hj
  rcases getElem?_set_cases hu with ⟨rfl, rfl⟩ | ⟨hij, hu⟩
  · exact ht hj
  · exact h j u hu (hothers j hij hj)

variable [DecidableEq κ] [DecidableEq ρ] {program : o → List (Stmt κ ρ)} {s' : System κ ρ}
  {e : Event o ρ} {es : List (Event o ρ)}

theorem Fenced.step (hprog : ∀ op, Confined S K (program op)) (h : Fenced S K s)
    (hs : step S program s e = some s') : Fenced S K s' := by
  have hends {i : ℕ} (t : Tx κ ρ) (db : List ρ) :
      Fenced S K { s with db := db, holder := s.release i, txs := s.txs.set i t.over } :=
    h.set (fun j hj hn hh => hn ((release_eq_some hj).mpr hh)) fun _ => ⟨trivial, nofun⟩
  cases steps_of_step hs with
  | tick => exact h
  | @start op =>
    intro i t ht hi
    rcases getElem?_concat_cases ht with ht | ⟨-, rfl⟩
    · exact h i t ht hi
    · exact ⟨hprog op, nofun⟩
  | @snapshot i t ht => exact h.set (fun _ _ hj => hj) (h i t ht)
  | @lock i t rest ht hp hfree =>
    refine h.set (fun j hj _ => ?_) fun hi => absurd rfl hi
    rcases hfree with hfree | hfree <;> simp [hfree, Ne.symm hj]
  | @guard i t g rest ht hp =>
    refine h.set (fun _ _ hj => hj) fun hi => ?_
    obtain ⟨hrest, hw⟩ := h i t ht hi
    rw [hp] at hrest
    exact ⟨hrest, hw⟩
  | @next i t p f rest ht hp =>
    refine h.set (fun _ _ hj => hj) fun hi => ?_
    obtain ⟨hrest, hw⟩ := h i t ht hi
    rw [hp] at hrest
    exact ⟨hrest.2, hw⟩
  | @update e i t r t' ht he =>
    refine h.set (fun _ _ hj => hj) fun hi => ?_
    obtain ⟨hrest, hw⟩ := h i t ht hi
    have hwrites : Writes S s t r t' := writes_of_effect he
    cases hwrites with
    | @lower p f rest V r hp _ hsel =>
      refine ⟨hrest, fun r' hr' => ?_⟩
      rw [hp] at hrest
      rcases mem_put.mp hr' with ⟨hr', -⟩ | rfl
      · exact hw r' hr'
      · exact hrest.1 _ V r hsel
    | write hp | insert hp =>
      rw [hp] at hrest
      exact hrest.elim
  | commit | abort => exact hends _ _

/-- While a transaction holds the lock, the others leave it the lock, and lower rows with certain
keys but change no other. -/
structure Kept (S : Schema κ ρ) (K : κ → Prop) (i : ℕ) (s s' : System κ ρ) : Prop where
  holder : s'.holder = some i
  under : S.Under s'.db s.db
  rows : ∀ r, ¬ K (S.key r) → (r ∈ s'.db ↔ r ∈ s.db)

theorem kept_of_step (hinv : Inv S I s) (h : Fenced S K s) (hi : s.holder = some i)
    (hc : e ≠ .commit i) (ha : e ≠ .abort i) (hs : step S program s e = some s') :
    Kept S K i s s' := by
  have hsame (clock : ℕ) (txs : List (Tx κ ρ)) :
      Kept S K i s { s with clock := clock, txs := txs } := ⟨hi, .rfl, fun _ _ => .rfl⟩
  cases steps_of_step hs with
  | tick | start | snapshot | guard | next | update => exact hsame _ _
  | @lock j t rest ht hp hfree =>
    obtain rfl : i = j := by simpa [hi] using hfree
    exact ⟨rfl, .rfl, fun _ _ => .rfl⟩
  | @commit j t ht =>
    have hij : i ≠ j := fun he => hc (he ▸ rfl)
    have hj : s.holder ≠ some j := by simpa [hi] using hij
    refine ⟨(release_eq_some hij).mpr hi, ((hinv.tx j t ht).waiting hj).writes.overlay, ?_⟩
    intro r hr
    have hkeys : ∀ w ∈ t.writes, S.key w ≠ S.key r := fun w hw he => hr (he ▸ (h j t ht hj).2 w hw)
    simp only [mem_overlay, List.mem_map, not_exists, not_and]
    exact ⟨fun hmem => hmem.elim And.left fun hw => absurd rfl (hkeys r hw),
      fun hmem => .inl ⟨hmem, hkeys⟩⟩
  | @abort j t ht =>
    have hij : i ≠ j := fun he => ha (he ▸ rfl)
    exact ⟨(release_eq_some hij).mpr hi, .rfl, fun _ _ => .rfl⟩

theorem fenced_of_reachable (hprog : ∀ op, Confined S K (program op))
    (hs : (machine S program).Reachable s) : Fenced S K s := by
  refine hs.invariant ?_ fun _ _ _ _ h hstep => h.step hprog hstep
  rintro s ⟨-, -, htxs⟩ i t ht
  simp [htxs] at ht

theorem kept_of_run (hst : Stable S I) (hempty : ∀ n, I n [])
    (hfree : ∀ op n, Free S I n (program op)) (hprog : ∀ op, Confined S K (program op))
    (hs : (machine S program).Reachable s) (hi : s.holder = some i)
    (hrun : (machine S program).run s es = some s') (hc : .commit i ∉ es) (ha : .abort i ∉ es) :
    Kept S K i s s' := by
  induction es generalizing s with
  | nil => exact Machine.run_nil.mp hrun ▸ ⟨hi, .rfl, fun _ _ => .rfl⟩
  | cons e es ih =>
    obtain ⟨u, hu, hrun⟩ := Machine.run_cons.mp hrun
    simp only [mem_cons, not_or] at hc ha
    have hstep : Kept S K i s u := kept_of_step (inv_of_reachable hst hempty hfree hs)
      (fenced_of_reachable hprog hs) hi (Ne.symm hc.1) (Ne.symm ha.1) hu
    have hrest := ih (hs.step hu) hstep.holder hrun hc.2 ha.2
    exact ⟨hrest.holder, hrest.under.trans hstep.under,
      fun r hr => (hrest.rows r hr).trans (hstep.rows r hr)⟩

end Held

end VcWorkspace.Transition.ReadCommitted
