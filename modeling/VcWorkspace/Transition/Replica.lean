import VcWorkspace.Transition.Journal

/-! # A row and its remote fence

A controller keeps one row and sends requests that stem from it; a remote
journal turns them into fences and answers with receipts. If requests and fences
stay related to the row as it advances, and fences only move forward, then every
receipt is behind the stored fence and every fence belongs to the row.
-/

namespace VcWorkspace.Transition

/-- The row, everything ever sent and received, and the remote journal. -/
structure Replica (ρ R F P : Type) where
  row : Option ρ
  sent : List R
  receipts : List F
  guest : Journal F P

/-- How requests and fences relate to a row, and how fences follow each other. -/
structure Relation (ρ R F P : Type) where
  Sent : ρ → R → Prop
  Fenced : ρ → F → Prop
  Precedes : F → F → Prop
  refl : ∀ f, Precedes f f
  trans : ∀ {f g h}, Precedes f g → Precedes g h → Precedes f h
  pending : P → F
  completed : P → F

variable {ρ R F P : Type}

namespace Relation

variable (D : Relation ρ R F P)

/-- Requests and fences belong to the row, and receipts are behind the stored fence. -/
structure Coherent (s : Replica ρ R F P) : Prop where
  sent : ∀ m ∈ s.sent, ∃ row, s.row = some row ∧ D.Sent row m
  stored : ∀ f, s.guest.stored = some f → ∃ row, s.row = some row ∧ D.Fenced row f
  inFlight : ∀ p, s.guest.inFlight = some p → s.guest.stored = some (D.pending p) ∧
    D.Precedes (D.pending p) (D.completed p) ∧
    ∀ row, s.row = some row → D.Fenced row (D.completed p)
  receipts : ∀ f ∈ s.receipts, ∃ g, s.guest.stored = some g ∧ D.Precedes f g

variable {D} {s : Replica ρ R F P} {row r : ρ} {f g : F} {p : P} {m : R}

theorem Coherent.empty (hsent : s.sent = []) (hrec : s.receipts = [])
    (hguest : s.guest = ⟨none, none⟩) : D.Coherent s := by
  constructor <;> simp [hsent, hrec, hguest]

theorem Coherent.advance (hs : D.Coherent s) (hrow : s.row = some row)
    (hsent : ∀ m, D.Sent row m → D.Sent r m) (hfenced : ∀ f, D.Fenced row f → D.Fenced r f) :
    D.Coherent { s with row := some r } where
  sent m hm := by
    obtain ⟨row', hrow', hm⟩ := hs.sent m hm
    cases hrow.symm.trans hrow'
    exact ⟨r, rfl, hsent m hm⟩
  stored f hf := by
    obtain ⟨row', hrow', hf⟩ := hs.stored f hf
    cases hrow.symm.trans hrow'
    exact ⟨r, rfl, hfenced f hf⟩
  inFlight p hp := by
    obtain ⟨hst, hpre, hf⟩ := hs.inFlight p hp
    refine ⟨hst, hpre, ?_⟩
    rintro _ ⟨⟩
    exact hfenced _ (hf row hrow)
  receipts := hs.receipts

theorem Coherent.insert (hs : D.Coherent s) (hrow : s.row = none) :
    D.Coherent { s with row := some r } := by
  have hstored : ∀ f, s.guest.stored ≠ some f := by
    intro f hf
    obtain ⟨row, hrow', -⟩ := hs.stored f hf
    simp [hrow] at hrow'
  refine ⟨fun m hm => ?_, fun f hf => absurd hf (hstored f),
    fun p hp => absurd (hs.inFlight p hp).1 (hstored _), hs.receipts⟩
  obtain ⟨row, hrow', -⟩ := hs.sent m hm
  simp [hrow] at hrow'

theorem Coherent.send (hs : D.Coherent s) (hrow : s.row = some row) (hm : D.Sent row m) :
    D.Coherent { s with sent := m :: s.sent } where
  sent m' hm' := by
    rcases List.mem_cons.mp hm' with rfl | hm'
    · exact ⟨row, hrow, hm⟩
    · exact hs.sent m' hm'
  stored := hs.stored
  inFlight := hs.inFlight
  receipts := hs.receipts

theorem Coherent.store (hs : D.Coherent s) {guest : Journal F P} (hrow : s.row = some row)
    (hg : guest.stored = some g) (hf : D.Fenced row g)
    (hpre : ∀ f, s.guest.stored = some f → D.Precedes f g)
    (hfl : ∀ p, guest.inFlight = some p → guest.stored = some (D.pending p) ∧
      D.Precedes (D.pending p) (D.completed p) ∧ D.Fenced row (D.completed p)) :
    D.Coherent { s with guest := guest } where
  sent := hs.sent
  stored f hf' := by
    cases hg.symm.trans hf'
    exact ⟨row, hrow, hf⟩
  inFlight p hp := by
    obtain ⟨h₁, h₂, h₃⟩ := hfl p hp
    refine ⟨h₁, h₂, fun row' hrow' => ?_⟩
    cases hrow.symm.trans hrow'
    exact h₃
  receipts f hrec := by
    obtain ⟨f', hf', hff'⟩ := hs.receipts f hrec
    exact ⟨g, hg, D.trans hff' (hpre f' hf')⟩

theorem Coherent.receive (hs : D.Coherent s) (hg : ∃ g, s.guest.stored = some g ∧ D.Precedes f g) :
    D.Coherent { s with receipts := f :: s.receipts } where
  sent := hs.sent
  stored := hs.stored
  inFlight := hs.inFlight
  receipts f' hf' := by
    rcases List.mem_cons.mp hf' with rfl | hf'
    · exact hg
    · exact hs.receipts f' hf'

theorem Coherent.accept (hs : D.Coherent s) (hrow : s.row = some row)
    (hpend : D.Fenced row (D.pending p)) (hdone : D.Fenced row (D.completed p))
    (hpre : ∀ f, s.guest.stored = some f → D.Precedes f (D.pending p))
    (hpd : D.Precedes (D.pending p) (D.completed p)) :
    D.Coherent { s with guest := ⟨some (D.pending p), some p⟩ } := by
  refine hs.store hrow rfl hpend hpre ?_
  rintro _ ⟨⟩
  exact ⟨rfl, hpd, hdone⟩

theorem Coherent.finish (hs : D.Coherent s) (hp : s.guest.inFlight = some p) : D.Coherent { s with
      guest := ⟨some (D.completed p), none⟩, receipts := D.completed p :: s.receipts } := by
  obtain ⟨hst, hpre, hf⟩ := hs.inFlight p hp
  obtain ⟨row, hrow, -⟩ := hs.stored _ hst
  have hstore : D.Coherent { s with guest := ⟨some (D.completed p), none⟩ } := by
    refine hs.store hrow rfl (hf row hrow) (fun f hf => ?_) (by simp)
    cases hst.symm.trans hf
    exact hpre
  exact hstore.receive ⟨D.completed p, rfl, D.refl _⟩

theorem Coherent.downgrade (hs : D.Coherent s) (hf : s.guest.stored = some f)
    (hpre : D.Precedes f g) (hg : ∀ row, D.Fenced row f → D.Fenced row g) :
    D.Coherent { s with guest := ⟨some g, none⟩ } := by
  obtain ⟨row, hrow, hfr⟩ := hs.stored f hf
  refine hs.store hrow rfl (hg row hfr) (fun f' hf' => ?_) (by simp)
  cases hf.symm.trans hf'
  exact hpre

theorem Coherent.inspect (hs : D.Coherent s) (hf : s.guest.stored = some f) :
    D.Coherent { s with receipts := f :: s.receipts } :=
  hs.receive ⟨f, hf, D.refl f⟩

end Relation

end VcWorkspace.Transition
