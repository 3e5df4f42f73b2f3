import VcWorkspace.Transition.Isolation

/-! # Histories of rows

Every new version of a row replaces the one that its statement finds, and row
locks keep other transactions from replacing that one in between. A preorder
between each version and the next therefore relates the committed versions of a
row along every run.
-/

namespace VcWorkspace.Transition.ReadCommitted

open List Schema

structure Schema.History {κ ρ : Type} (S : Schema κ ρ) (R : ρ → ρ → Prop) : Prop where
  refl : ∀ r, R r r
  trans : ∀ {a b c}, R a b → R b c → R a c
  key_eq : ∀ {a b}, R a b → S.key a = S.key b

/-- The versions that a statement makes follow those that it replaces. -/
def Stmt.Tracks {κ ρ : Type} (R : ρ → ρ → Prop) : Stmt κ ρ → Prop
  | .lock | .guard _ | .insert _ => True
  | .lower p f => ∀ n V r, p n V r = true → R r (f n r)
  | .write _ f => ∀ n V fresh r r', f n V fresh r = some r' → R r r'

/-- The uncommitted rows of a transaction follow the committed ones that they replace. -/
structure Traced {κ ρ : Type} (S : Schema κ ρ) (R : ρ → ρ → Prop) (db : List ρ) (t : Tx κ ρ) :
    Prop where
  program : ∀ st ∈ t.program, st.Tracks R
  writes : ∀ w ∈ t.writes, ∀ r ∈ db, S.key r = S.key w → R r w

variable {κ ρ o : Type} {S : Schema κ ρ} {R : ρ → ρ → Prop} {t : Tx κ ρ} {s : System κ ρ}
  {e : Event o ρ}

section Transaction

variable {db : List ρ}

theorem traced_over : Traced S R db t.over := ⟨by simp [Tx.over], nofun⟩

theorem Traced.advance {st : Stmt κ ρ} {rest : List (Stmt κ ρ)} (h : Traced S R db t)
    (hp : t.program = st :: rest) : Traced S R db (t.advance rest) :=
  ⟨fun st' hst => h.program st' (hp ▸ mem_cons_of_mem st hst), h.writes⟩

variable [DecidableEq κ]

theorem Traced.view (h : Traced S R db t) (hR : S.History R) (hn : (db.map S.key).Nodup)
    {r r₀ : ρ} (hr : r ∈ S.overlay db t.writes) (hr₀ : r₀ ∈ db) (hk : S.key r₀ = S.key r) :
    R r₀ r := by
  rcases mem_overlay.mp hr with ⟨hr, -⟩ | hr
  · rw [inj_on_of_nodup_map hn hr₀ hr hk]
    exact hR.refl r
  · exact h.writes r hr r₀ hr₀ hk

theorem Traced.put {rest : Tx κ ρ} {w : ρ} (h : Traced S R db t)
    (hprog : ∀ st ∈ rest.program, st ∈ t.program) (hw : ∀ r ∈ db, S.key r = S.key w → R r w) :
    Traced S R db { rest with writes := S.put w t.writes } := by
  refine ⟨fun st hst => h.program st (hprog st hst), fun w' hw' => ?_⟩
  rcases mem_put.mp hw' with ⟨hw', -⟩ | rfl
  · exact h.writes w' hw'
  · exact hw

theorem Traced.writes_row {t' : Tx κ ρ} {w : ρ} (h : Traced S R s.db t) (hR : S.History R)
    (hn : (s.db.map S.key).Nodup) (hw : Writes S s t w t') :
    Traced S R s.db { t' with writes := S.put w t.writes } := by
  have hput {r w : ρ} (hr : r ∈ S.overlay s.db t.writes) (hstep : R r w) :
      ∀ r₀ ∈ s.db, S.key r₀ = S.key w → R r₀ w := fun r₀ hr₀ hk =>
    hR.trans (h.view hR hn hr hr₀ (hk.trans (hR.key_eq hstep).symm)) hstep
  cases hw with
  | lower hp hr hsel =>
    have htracks := h.program
    rw [hp, forall_mem_cons] at htracks
    exact h.put (fun _ => id) (hput hr (htracks.1 _ _ _ hsel))
  | write hp _ hr _ hf =>
    have htracks := h.program
    rw [hp, forall_mem_cons] at htracks
    exact h.put (fun st hst => hp ▸ mem_cons_of_mem _ hst) (hput hr (htracks.1 _ _ _ _ _ hf))
  | insert hp _ _ hnew =>
    refine h.put (fun st hst => hp ▸ mem_cons_of_mem _ hst) fun r₀ hr₀ hk => ?_
    -- no committed row has the key of the new one
    refine absurd (mem_map.mpr ?_) hnew
    by_cases hw : S.key r₀ ∈ t.writes.map S.key
    · obtain ⟨w, hw, hkw⟩ := mem_map.mp hw
      exact ⟨w, mem_overlay.mpr (.inr hw), hkw.trans hk⟩
    · exact ⟨r₀, mem_overlay.mpr (.inl ⟨hr₀, hw⟩), hk⟩

end Transaction

section Run

variable [DecidableEq κ] [DecidableEq ρ] {I : ℕ → List ρ → Prop} {program : o → List (Stmt κ ρ)}
  {s' : System κ ρ} {i : ℕ} {t' : Tx κ ρ}

def AllTraced (S : Schema κ ρ) (R : ρ → ρ → Prop) (s : System κ ρ) : Prop :=
  ∀ (i : ℕ) (t : Tx κ ρ), s.txs[i]? = some t → Traced S R s.db t

omit [DecidableEq κ] [DecidableEq ρ] in
theorem AllTraced.set {holder : Option ℕ} (h : AllTraced S R s) (ht : Traced S R s.db t) :
    AllTraced S R { s with holder := holder, txs := s.txs.set i t } := by
  intro j u hu
  rcases getElem?_set_cases hu with ⟨-, rfl⟩ | ⟨-, hu⟩
  · exact ht
  · exact h j u hu

omit [DecidableEq ρ] in
theorem AllTraced.commit {holder : Option ℕ} (h : AllTraced S R s) (hi : Inv S I s)
    (hget : s.txs[i]? = some t) : AllTraced S R
      { s with db := S.overlay s.db t.writes, holder := holder, txs := s.txs.set i t.over } := by
  intro j u hu
  rcases getElem?_set_cases hu with ⟨-, rfl⟩ | ⟨hij, hu⟩
  · exact traced_over
  · refine ⟨(h j u hu).program, fun w hw r hr hk => ?_⟩
    rcases mem_overlay.mp hr with ⟨hr, -⟩ | hr
    · exact (h j u hu).writes w hw r hr hk
    · exact absurd hk (hi.apart i j t u hij.symm hget hu r hr w hw)

theorem AllTraced.step (h : AllTraced S R s) (hR : S.History R)
    (htracks : ∀ op, ∀ st ∈ program op, st.Tracks R) (hi : Inv S I s)
    (hs : (machine S program).step s e = some s') : AllTraced S R s' := by
  cases steps_of_step hs with
  | tick => exact h
  | start =>
    intro j u hu
    rcases getElem?_concat_cases hu with hu | ⟨-, rfl⟩
    · exact h j u hu
    · exact ⟨htracks _, nofun⟩
  | snapshot ht => exact h.set ⟨(h _ _ ht).program, (h _ _ ht).writes⟩
  | lock ht hp | guard ht hp | next ht hp => exact h.set ((h _ _ ht).advance hp)
  | update ht he => exact h.set ((h _ _ ht).writes_row hR hi.keys (writes_of_effect he))
  | commit ht => exact h.commit hi ht
  | abort => exact h.set traced_over

theorem db_of_step (hs : (machine S program).step s e = some s') :
    s'.db = s.db ∨ ∃ i t, e = .commit i ∧ s.txs[i]? = some t ∧
      s'.db = S.overlay s.db t.writes := by
  cases steps_of_step hs with
  | commit ht => exact .inr ⟨_, _, rfl, ht, rfl⟩
  | _ => exact .inl rfl

theorem AllTraced.follows (h : AllTraced S R s) (hR : S.History R)
    (hs : (machine S program).step s e = some s') : ∀ r ∈ s.db, ∃ r' ∈ s'.db, R r r' := by
  intro r hr
  rcases db_of_step hs with hdb | ⟨i, t, -, hget, hdb⟩
  · exact ⟨r, hdb ▸ hr, hR.refl r⟩
  · rw [hdb]
    by_cases hw : S.key r ∈ t.writes.map S.key
    · obtain ⟨w, hw, hk⟩ := mem_map.mp hw
      exact ⟨w, mem_overlay.mpr (.inr hw), (h i t hget).writes w hw r hr hk.symm⟩
    · exact ⟨r, mem_overlay.mpr (.inl ⟨hr, hw⟩), hR.refl r⟩

/-- If the versions that the statements make follow those that they replace, every committed row
stays in versions that follow it. -/
theorem row_history (hR : S.History R) (htracks : ∀ op, ∀ st ∈ program op, st.Tracks R)
    (hst : Stable S I) (hempty : ∀ n, I n []) (hprog : ∀ op n, Free S I n (program op))
    (hs : (machine S program).Reachable s) (hl : (machine S program).Leads s s') :
    ∀ r ∈ s.db, ∃ r' ∈ s'.db, R r r' := by
  have htraced : AllTraced S R s := by
    refine hs.invariant (P := AllTraced S R) ?_ fun s e s' hr h hstep => ?_
    · rintro s ⟨-, -, htxs⟩ i t ht
      simp [htxs] at ht
    · exact h.step hR htracks (inv_of_reachable hst hempty hprog hr) hstep
  refine hl.relates (P := fun s => AllTraced S R s ∧ Inv S I s)
    (R := fun s s' => ∀ r ∈ s.db, ∃ r' ∈ s'.db, R r r') (fun s r hr => ⟨r, hr, hR.refl r⟩) ?_ ?_ ?_
    ⟨htraced, inv_of_reachable hst hempty hprog hs⟩
  · intro s t u hst htu r hr
    obtain ⟨r₁, hr₁, h₁⟩ := hst r hr
    obtain ⟨r₂, hr₂, h₂⟩ := htu r₁ hr₁
    exact ⟨r₂, hr₂, hR.trans h₁ h₂⟩
  · rintro s e t ⟨htraced, hi⟩ hstep
    exact ⟨htraced.step hR htracks hi hstep, inv_step hst hprog hi hstep⟩
  · rintro s e t ⟨htraced, -⟩ hstep
    exact htraced.follows hR hstep

end Run

end VcWorkspace.Transition.ReadCommitted
