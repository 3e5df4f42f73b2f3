import VcWorkspace.Protocol.ComputerRevocation

/-! # No computer revocation is lost

When every request of the queue is acknowledged, the Guest has fenced each lease
that was closed while the desktop had sessions. A worker's acknowledgement is
void once a newer lease closes, and what it reads belongs to closed leases only,
so a tombstone never reaches the epoch of the active lease.
-/

namespace VcWorkspace.Protocol.ComputerRevocation

open Transition Session Session.Linux Store Option List

variable {ν : Type} {codec : Codec ν} {sha256 : Sha256} {wire : Wire codec}
  {s t : State}

section Invariant

def FencedAt (codec : Codec ν) (snapshot : Option (List UInt8)) (epoch : ℤ) : Prop :=
  ∃ r, stored codec snapshot = some r ∧ epoch ≤ r.2.controlEpoch

def Covered (codec : Codec ν) (s : State) : Prop :=
  ∀ c ∈ s.closings, c.hadSessions = true → FencedAt codec s.snapshot c.closing

def Issued (s : State) (epoch : ℤ) : Prop :=
  (∃ l, s.ledger.active = some l ∧ epoch = l.controlEpoch ∧ s.ledger.sessions ≠ []) ∨
    ∃ c ∈ s.closings, c.hadSessions = true ∧ epoch = c.epoch

/-- A message is the activation of a lease or a tombstone of closed ones. -/
def Sent (s : State) (m : Message) : Prop :=
  (m.authority.state = "active" ∧ Issued s m.authority.controlEpoch) ∨
    (m.authority.state = "revoked" ∧ ∃ rev, s.ledger.revocation = some rev ∧
      m.authority.controlEpoch ≤ rev.controlEpoch)

/-- A fact that a worker established after it read the number `v`. -/
def Since (s : State) (v : ℕ) (P : ComputerRevocation → Prop) : Prop :=
  ∃ rev, s.ledger.revocation = some rev ∧ rev.queue.Since v (P rev)

def Worker.item : Worker → Option ℕ
  | .queued item | .listed item | .fencing item _ | .fenced item => item

def Worker.Knows (codec : Codec ν) (s : State) (rev : ComputerRevocation) : Worker → Prop
  | .queued _ | .listed _ => True
  | .fencing _ epoch => rev.controlEpoch ≤ epoch
  | .fenced _ => Covered codec s

/-- What a worker knows is true, as long as no lease has closed since it read the queue. -/
def Worker.Ok (codec : Codec ν) (s : State) (w : Worker) : Prop :=
  ∀ v ∈ w.item, Since s v fun rev => w.Knows codec s rev

/-- The epochs of a ledger: the counter is their bound, and the active lease is above everything
that was closed. -/
structure LedgerOk (r : Ledger) : Prop where
  active : ∀ l, r.active = some l → l.controlEpoch ≤ r.counter
  revocation : ∀ rev, r.revocation = some rev → rev.controlEpoch ≤ r.counter
  above : ∀ l rev, r.active = some l → r.revocation = some rev →
    rev.controlEpoch < l.controlEpoch

structure HistoryOk (s : State) : Prop where
  rows : s.closings.map (fun c => (c.leaseId, c.closing)) =
    s.ledger.closed.map fun l => (l.id, l.controlEpoch)
  closing : ∀ c ∈ s.closings, c.epoch < c.closing ∧
    (c.hadSessions = true → s.ledger.sessions ≠ []) ∧
    ∃ rev, s.ledger.revocation = some rev ∧ c.closing ≤ rev.controlEpoch
  distinct : ∀ c ∈ s.closings, ∀ c' ∈ s.closings, c.epoch = c'.epoch →
    c.hadSessions = c'.hadSessions

structure Inv (codec : Codec ν) (s : State) : Prop where
  ledger : LedgerOk s.ledger
  history : HistoryOk s
  sent : ∀ m ∈ s.sent, Sent s m
  receipts : ∀ m ∈ s.receipts, FencedAt codec s.snapshot m.authority.controlEpoch
  snapshot : ∀ raw, s.snapshot = some raw → ∃ r, decode codec raw = some r ∧
    ∃ m ∈ s.sent, r.2 = m.authority
  workers : ∀ w ∈ s.workers, w.Ok codec s
  settled : ∀ rev, s.ledger.revocation = some rev → rev.queue.Settles (Covered codec s)

theorem inv_init (hs : (protocol sha256 wire).Init s) : Inv codec s := by
  obtain ⟨hact, hrows, hrev, hses, hwork, hsent, hrec, hsnap, hclose⟩ := hs
  constructor
  · constructor <;> simp [hact, hrev]
  · constructor <;> simp [hclose, hrows]
  all_goals simp [hsent, hrec, hsnap, hwork, hrev]

end Invariant

section Ledger

variable {r r' : Ledger} {old new l : DesktopLease}

theorem LedgerOk.keeps (h : LedgerOk r) (hk : Keeps r r') : LedgerOk r' where
  active l hl := (h.active l (hk.active ▸ hl)).trans hk.counter
  revocation rev hrev := (h.revocation rev (hk.revocation ▸ hrev)).trans hk.counter
  above l rev hl hrev := h.above l rev (hk.active ▸ hl) (hk.revocation ▸ hrev)

theorem LedgerOk.opens (h : LedgerOk r) (ho : Opens r l r') : LedgerOk r' := by
  have hnext := ho.next
  have hcounter := ho.counter
  constructor
  · intro l' hl'
    cases ho.after.symm.trans hl'
    exact hcounter.ge
  · intro rev hrev
    have := h.revocation rev (ho.revocation ▸ hrev)
    omega
  · intro l' rev hl' hrev
    cases ho.after.symm.trans hl'
    have := h.revocation rev (ho.revocation ▸ hrev)
    omega

theorem LedgerOk.closes (h : LedgerOk r) (hc : Closes r old new r') : LedgerOk r' := by
  have hnext := hc.next
  have hcounter := hc.counter
  obtain ⟨rev', hrev', -, hor, -⟩ := hc.revocation
  constructor
  · intro l hl
    rw [hc.after] at hl
    cases hl
  · intro rev₁ hrev₁
    cases hrev'.symm.trans hrev₁
    rcases hor with heq | ⟨rev, hrev, heq⟩
    · omega
    · have := h.revocation rev hrev
      omega
  · intro l rev hl
    rw [hc.after] at hl
    cases hl

end Ledger

section Facts

variable {w : Worker} {rev : ComputerRevocation} {snapshot : Option (List UInt8)}

theorem Worker.Knows.mono {rev' : ComputerRevocation} (h : w.Knows codec s rev)
    (hrev : rev'.controlEpoch = rev.controlEpoch) (hcov : Covered codec s → Covered codec t) :
    w.Knows codec t rev' := by
  cases w with
  | queued | listed => trivial
  | fencing item epoch => exact hrev.trans_le h
  | fenced item => exact hcov h

theorem Worker.Ok.calm (h : w.Ok codec s) (hrev : t.ledger.revocation = s.ledger.revocation)
    (hcov : Covered codec s → Covered codec t) : w.Ok codec t := by
  intro v hv
  obtain ⟨rev, hr, hs⟩ := h v hv
  exact ⟨rev, hrev.trans hr, hs.mono fun hk => hk.mono rfl hcov⟩

theorem FencedAt.mono {e e' : ℤ} (h : FencedAt codec snapshot e) (he : e' ≤ e) :
    FencedAt codec snapshot e' := by
  obtain ⟨r, hr, hle⟩ := h
  exact ⟨r, hr, he.trans hle⟩

theorem FencedAt.published {env : PublishEnv} {e : ℤ} {next : BoundAuthority ν × Authority}
    {raw : List UInt8} (h : FencedAt codec snapshot e) (hp : Published codec env snapshot next raw)
    : FencedAt codec (some raw) e := by
  obtain ⟨r, hr, hle⟩ := h
  obtain ⟨r', hr', hauth, -⟩ := stored_of_published hp
  refine ⟨r', hr', hle.trans ?_⟩
  rw [hauth]
  exact (admits_of_published hp hr).1

theorem HistoryOk.covered_of_fenced (h : HistoryOk s) (hrev : s.ledger.revocation = some rev)
    (hf : FencedAt codec s.snapshot rev.controlEpoch) : Covered codec s := by
  intro c hc _
  obtain ⟨-, -, rev', hrev', hle⟩ := h.closing c hc
  cases hrev.symm.trans hrev'
  exact hf.mono (by exact_mod_cast hle)

end Facts

section Steps

variable {r' : Ledger} {old new : DesktopLease} {m : Message}

theorem Inv.rebase (hi : Inv codec s) (hok : LedgerOk r')
    (hrev : ∀ rev, s.ledger.revocation = some rev →
      ∃ rev', r'.revocation = some rev' ∧ rev'.controlEpoch = rev.controlEpoch)
    (hclosed : r'.closed = s.ledger.closed)
    (hact : ∀ l, s.ledger.active = some l → r'.active = some l)
    (hses : s.ledger.sessions ≠ [] → r'.sessions ≠ [])
    (hwork : ∀ w ∈ s.workers, w.Ok codec { s with ledger := r' })
    (hset : ∀ rev, r'.revocation = some rev → rev.queue.Settles (Covered codec s)) :
    Inv codec { s with ledger := r' } where
  ledger := hok
  history :=
    { rows := by rw [hclosed]; exact hi.history.rows
      closing := fun c hc => by
        obtain ⟨hlt, hs, rev, hr, hle⟩ := hi.history.closing c hc
        obtain ⟨rev', hr', he⟩ := hrev rev hr
        exact ⟨hlt, fun hh => hses (hs hh), rev', hr', he ▸ hle⟩
      distinct := hi.history.distinct }
  sent m hm := by
    rcases hi.sent m hm with ⟨hst, ⟨l, hl, he, hs⟩ | hc⟩ | ⟨hst, rev, hr, hle⟩
    · exact .inl ⟨hst, .inl ⟨l, hact l hl, he, hses hs⟩⟩
    · exact .inl ⟨hst, .inr hc⟩
    · obtain ⟨rev', hr', he⟩ := hrev rev hr
      exact .inr ⟨hst, rev', hr', he ▸ hle⟩
  receipts := hi.receipts
  snapshot := hi.snapshot
  workers := hwork
  settled := hset

theorem Inv.advance (hi : Inv codec s) (hok : LedgerOk r')
    (hrev : r'.revocation = s.ledger.revocation) (hclosed : r'.closed = s.ledger.closed)
    (hact : ∀ l, s.ledger.active = some l → r'.active = some l)
    (hses : s.ledger.sessions ≠ [] → r'.sessions ≠ []) : Inv codec { s with ledger := r' } :=
  hi.rebase hok (fun rev hr => ⟨rev, hrev.trans hr, rfl⟩) hclosed hact hses
    (fun w hw => (hi.workers w hw).calm hrev id) fun rev hr => hi.settled rev (hrev ▸ hr)

theorem Inv.keeps (hi : Inv codec s) (hk : Keeps s.ledger r') : Inv codec { s with ledger := r' } :=
  hi.advance (hi.ledger.keeps hk) hk.revocation hk.closed (fun _ hl => hk.active.trans hl)
    hk.sessions

theorem Inv.opens {l : DesktopLease} (hi : Inv codec s) (ho : Opens s.ledger l r') :
    Inv codec { s with ledger := r' } := by
  refine hi.advance (hi.ledger.opens ho) ho.revocation ho.closed ?_ (by rw [ho.sessions]; exact id)
  intro l hl
  rw [ho.before] at hl
  cases hl

def State.close (s : State) (r' : Ledger) (c : ClosedLease) : State :=
  { s with ledger := r', closings := closingOf s.ledger c :: s.closings }

theorem Since.closes {v : ℕ} {P Q : ComputerRevocation → Prop} (h : Since s v P)
    (hc : Closes s.ledger old new r') : Since (s.close r' (old, new)) v Q := by
  obtain ⟨rev, hrev, hs⟩ := h
  obtain ⟨rev', hrev', -, -, hqueue, -⟩ := hc.revocation
  refine ⟨rev', hrev', ?_⟩
  rw [(hqueue rev hrev).2]
  exact hs.request

theorem HistoryOk.closes (hh : HistoryOk s) (hl : LedgerOk s.ledger)
    (hc : Closes s.ledger old new r') : HistoryOk (s.close r' (old, new)) := by
  obtain ⟨rev', hrev', hle', -, hqueue, -⟩ := hc.revocation
  have hold := hl.active old hc.before
  have hnext := hc.next
  -- the epoch of the active lease is above the epochs of all leases closed before
  have hbelow : ∀ c ∈ s.closings, c.epoch < old.controlEpoch := by
    intro c hcl
    obtain ⟨hlt, -, rev, hrev, hle⟩ := hh.closing c hcl
    have := hl.above old rev hc.before hrev
    omega
  constructor
  · have hrows := hh.rows
    simp [State.close, closingOf, hc.closed, hc.id, hrows]
  · intro c hcl
    rcases mem_cons.mp hcl with rfl | hcl
    · refine ⟨?_, ?_, rev', hrev', hle'⟩
      · simp only [closingOf]
        omega
      · simp [closingOf, State.close, hc.sessions]
    · obtain ⟨hlt, hs, rev, hrev, hle⟩ := hh.closing c hcl
      refine ⟨hlt, ?_, rev', hrev', hle.trans (hqueue rev hrev).1⟩
      simpa [State.close, hc.sessions] using hs
  · intro c hcl c' hcl' heq
    rcases mem_cons.mp hcl with rfl | hcl <;> rcases mem_cons.mp hcl' with rfl | hcl'
    · rfl
    · have := hbelow c' hcl'
      simp only [closingOf] at heq
      omega
    · have := hbelow c hcl
      simp only [closingOf] at heq
      omega
    · exact hh.distinct c hcl c' hcl' heq

theorem Sent.closes (h : Sent s m) (hc : Closes s.ledger old new r') :
    Sent (s.close r' (old, new)) m := by
  obtain ⟨rev', hrev', -, -, hqueue, -⟩ := hc.revocation
  rcases h with ⟨hst, ⟨l, hl, he, hs⟩ | ⟨c, hcl, hf, he⟩⟩ | ⟨hst, rev, hrev, hle⟩
  · cases hc.before.symm.trans hl
    refine .inl ⟨hst, .inr ⟨_, mem_cons_self, ?_, he⟩⟩
    simpa [closingOf] using hs
  · exact .inl ⟨hst, .inr ⟨c, mem_cons_of_mem _ hcl, hf, he⟩⟩
  · have := (hqueue rev hrev).1
    exact .inr ⟨hst, rev', hrev', by omega⟩

theorem Inv.closes (hi : Inv codec s) (hc : Closes s.ledger old new r') :
    Inv codec (s.close r' (old, new)) where
  ledger := hi.ledger.closes hc
  history := hi.history.closes hi.ledger hc
  sent m hm := (hi.sent m hm).closes hc
  receipts := hi.receipts
  snapshot := hi.snapshot
  workers w hw v hv := (hi.workers w hw v hv).closes hc
  settled rev₁ hrev₁ := by
    obtain ⟨rev', hrev', -, -, hqueue, hfirst⟩ := hc.revocation
    cases hrev'.symm.trans hrev₁
    cases hrev : s.ledger.revocation with
    | none =>
      rw [hfirst hrev]
      intro h
      cases h
    | some rev =>
      rw [(hqueue rev hrev).2]
      exact Queue.Settles.request

theorem Inv.send (hi : Inv codec s) (hm : Sent s m) : Inv codec { s with sent := m :: s.sent } where
  ledger := hi.ledger
  history := ⟨hi.history.rows, hi.history.closing, hi.history.distinct⟩
  sent m' hm' := by
    rcases mem_cons.mp hm' with rfl | hm'
    · exact hm
    · exact hi.sent m' hm'
  receipts := hi.receipts
  snapshot raw hraw := by
    obtain ⟨r, hr, m', hm', he⟩ := hi.snapshot raw hraw
    exact ⟨r, hr, m', mem_cons_of_mem _ hm', he⟩
  workers w hw := (hi.workers w hw).calm rfl id
  settled := hi.settled

theorem Inv.store (hi : Inv codec s) (hm : m ∈ s.sent) {env : PublishEnv}
    {stdin raw : List UInt8} (henc : wire.encode m.target m.authority = some stdin)
    (hp : publish codec env s.snapshot stdin = .ok raw) :
    Inv codec { s with snapshot := some raw } ∧
      FencedAt codec (some raw) m.authority.controlEpoch := by
  obtain ⟨next, hnext, hpub⟩ := publish_spec hp
  obtain ⟨b, hb, -⟩ := wire.decodes _ _ _ henc
  cases hb.symm.trans hnext
  obtain ⟨r, hr, hauth, -⟩ := stored_of_published hpub
  have hcov : Covered codec s → Covered codec { s with snapshot := some raw } :=
    fun h c hc hs => (h c hc hs).published hpub
  refine ⟨?_, r, hr, (congrArg Authority.controlEpoch hauth).ge⟩
  constructor
  · exact hi.ledger
  · exact ⟨hi.history.rows, hi.history.closing, hi.history.distinct⟩
  · exact hi.sent
  · exact fun m' hm' => (hi.receipts m' hm').published hpub
  · rintro _ ⟨⟩
    exact ⟨r, hr, m, hm, hauth⟩
  · exact fun w hw => (hi.workers w hw).calm rfl hcov
  · exact fun rev hrev => (hi.settled rev hrev).mono hcov

theorem Inv.receive (hi : Inv codec s) (hm : FencedAt codec s.snapshot m.authority.controlEpoch) :
    Inv codec { s with receipts := m :: s.receipts } where
  ledger := hi.ledger
  history := ⟨hi.history.rows, hi.history.closing, hi.history.distinct⟩
  sent := hi.sent
  receipts m' hm' := by
    rcases mem_cons.mp hm' with rfl | hm'
    · exact hm
    · exact hi.receipts m' hm'
  snapshot := hi.snapshot
  workers w hw := (hi.workers w hw).calm rfl id
  settled := hi.settled

theorem Inv.work (hi : Inv codec s) {ws : List Worker} (hws : ∀ w ∈ ws, w.Ok codec s) :
    Inv codec { s with workers := ws } where
  ledger := hi.ledger
  history := ⟨hi.history.rows, hi.history.closing, hi.history.distinct⟩
  sent := hi.sent
  receipts := hi.receipts
  snapshot := hi.snapshot
  workers w hw := (hws w hw).calm rfl id
  settled := hi.settled

theorem Inv.set (hi : Inv codec s) {i : ℕ} {w : Worker} (hw : w.Ok codec s) :
    Inv codec { s with workers := s.workers.set i w } := by
  apply hi.work
  intro w' hw'
  rcases mem_or_eq_of_mem_set hw' with hw' | rfl
  · exact hi.workers w' hw'
  · exact hw

/-- An acknowledgement is taken: its worker knows that every closing is covered. -/
theorem Inv.complete (hi : Inv codec s) {v : ℕ} (hw : Since s v fun _ => Covered codec s)
    (h : completeComputerRevocation v s.ledger = .ok r') : Inv codec { s with ledger := r' } := by
  obtain ⟨rev, queue, hrev, hqueue, hrows⟩ := completeComputerRevocation_ok h
  have hrev' : r'.revocation = some { rev with queue := queue } := by rw [hrows]
  have hact : r'.active = s.ledger.active := by rw [hrows]
  have hses : r'.sessions = s.ledger.sessions := by rw [hrows]
  have hcounter : r'.counter = s.ledger.counter := by rw [Ledger.counter, Ledger.counter, hrows]
  refine hi.rebase ?_ ?_ (by rw [hrows]) (fun l hl => hact.trans hl) (by rw [hses]; exact id) ?_ ?_
  · constructor
    · intro l hl
      exact hcounter ▸ hi.ledger.active l (hact ▸ hl)
    · intro rev₁ hrev₁
      cases hrev'.symm.trans hrev₁
      exact hcounter ▸ hi.ledger.revocation rev hrev
    · intro l rev₁ hl hrev₁
      cases hrev'.symm.trans hrev₁
      exact hi.ledger.above l rev (hact ▸ hl) hrev
  · intro rev₁ hrev₁
    cases hrev.symm.trans hrev₁
    exact ⟨_, hrev', rfl⟩
  · intro w hw n hn
    obtain ⟨rev₁, hrev₁, hs⟩ := hi.workers w hw n hn
    cases hrev.symm.trans hrev₁
    exact ⟨_, hrev', (hs.of_complete hqueue).mono fun hk => hk.mono rfl id⟩
  · intro rev₁ hrev₁
    cases hrev'.symm.trans hrev₁
    obtain ⟨rev₂, hrev₂, hs⟩ := hw
    cases hrev.symm.trans hrev₂
    exact hs.complete hqueue

end Steps

section Run

variable {r r' : Ledger} {a : Action}

theorem leaseStep_ok {a : LeaseAction} {c : Option ClosedLease}
    (h : leaseStep r a = .ok (r', c)) : ∃ r₁,
      ((c = none ∧ r₁ = r) ∨ ∃ old new, c = some (old, new) ∧ Closes r old new r₁) ∧
        (r' = r₁ ∨ ∃ l, Opens r₁ l r') := by
  cases a with
  | create env now lease =>
    obtain ⟨r₁, l, hclose, hopen, -⟩ := createDesktopLease_ok h
    exact ⟨r₁, hclose, .inr ⟨l, hopen⟩⟩
  | release id =>
    rw [leaseStep, releaseDesktopLease, seq_eq_ok] at h
    exact ⟨r', closeLease_ok (by decide) h.2, .inl rfl⟩
  | revoke | revokeAgent | expire | abandon => exact ⟨r', closeLease_ok (by decide) h, .inl rfl⟩

theorem sessionStep_ok {env : SessionEnv} {now : ℕ} {a : SessionAction} {m : Option Message}
    (h : sessionStep sha256 env now r a = .ok (r', m)) : Keeps r r' ∧ ∀ m' ∈ m,
      m'.authority.state = "active" ∧ r'.sessions ≠ [] ∧
        ∃ l, r.active = some l ∧ m'.authority.controlEpoch = l.controlEpoch := by
  have hmap : ∀ {α : Type} {x : Except StoreError α} {f : α → Ledger × Option Message},
      x.map f = .ok (r', m) → ∃ p, x = .ok p ∧ f p = (r', m) := by
    intro α x f hx
    cases x with
    | error e => cases hx
    | ok p => exact ⟨p, rfl, Except.ok.inj hx⟩
  cases a with
  | begin vmid leaseId agentId epoch =>
    obtain ⟨p, hp, he⟩ := hmap h
    cases he
    exact ⟨beginSession_ok hp, by simp⟩
  | bind | login | complete =>
    obtain ⟨p, hp, he⟩ := hmap h
    cases he
    exact ⟨(updateSession_ok hp).1, by simp⟩
  | ready item =>
    obtain ⟨p, hp, he⟩ := hmap h
    cases he
    obtain ⟨hkeep, hne, l, hl, -, hepoch⟩ := ready_lease hp
    refine ⟨hkeep, fun m' hm' => ?_⟩
    simp only [activateSessionAuthority] at hm'
    split at hm'
    · cases hm'
      exact ⟨rfl, hne, l, hl, by simp [activation, hepoch]⟩
    · cases hm'

theorem inv_lease {a : LeaseAction} (hi : Inv codec s)
    (h : (protocol sha256 wire).step s (.lease a) = some t) : Inv codec t := by
  obtain ⟨⟨r', c⟩, hp, rfl⟩ := map_eq_some_iff.mp h
  obtain ⟨r₁, hclose, hopen⟩ := leaseStep_ok (toOption_eq_some.mp hp)
  -- first the closing that the transaction may start with, then the lease it may open
  have hi₁ : Inv codec { s with
      ledger := r₁, closings := (c.map (closingOf s.ledger)).toList ++ s.closings } := by
    rcases hclose with ⟨rfl, rfl⟩ | ⟨old, new, rfl, hclose⟩
    · exact hi
    · exact hi.closes hclose
  rcases hopen with rfl | ⟨l, hopen⟩
  · exact hi₁
  · exact hi₁.opens hopen

theorem inv_session {env : SessionEnv} {now : ℕ} {a : SessionAction} (hi : Inv codec s)
    (h : (protocol sha256 wire).step s (.session env now a) = some t) : Inv codec t := by
  obtain ⟨⟨r', m⟩, hp, rfl⟩ := map_eq_some_iff.mp h
  obtain ⟨hkeep, hm⟩ := sessionStep_ok (toOption_eq_some.mp hp)
  have hi' := hi.keeps hkeep
  cases m with
  | none => exact hi'
  | some m =>
    obtain ⟨hst, hne, l, hl, he⟩ := hm m rfl
    exact hi'.send (.inl ⟨hst, .inl ⟨l, hkeep.active.trans hl, he, hne⟩⟩)

theorem inv_start {force : Bool} (hi : Inv codec s)
    (h : (protocol sha256 wire).step s (.start force) = some t) : Inv codec t := by
  simp only [protocol, step] at h
  split at h
  · cases h
  · cases h
    apply hi.work
    intro w hw
    rcases mem_append.mp hw with hw | hw
    · exact hi.workers w hw
    · obtain rfl := mem_singleton.mp hw
      intro v hv
      obtain ⟨rev, hrev, hif⟩ := bind_eq_some_iff.mp hv
      split at hif
      · exact ⟨rev, hrev, (some.inj hif).ge, fun _ => trivial⟩
      · cases hif

theorem inv_deliver {m : Message} {env : PublishEnv} {renamed answered : Bool}
    (hi : Inv codec s)
    (h : (protocol sha256 wire).step s (.deliver m env renamed answered) = some t) :
    Inv codec t := by
  simp only [protocol, step] at h
  split at h
  next hm =>
    obtain ⟨stdin, henc, h⟩ := bind_eq_some_iff.mp h
    obtain ⟨raw, hpub, rfl⟩ := map_eq_some_iff.mp h
    obtain ⟨hi', hf⟩ := hi.store hm henc (toOption_eq_some.mp hpub)
    cases renamed with
    | false => exact hi
    | true =>
      cases answered with
      | false => exact hi'
      | true => exact hi'.receive hf
  · cases h

theorem inv_workerStep {w w' : Worker} (hi : Inv codec s) (hw : w.Ok codec s)
    (h : workerStep s w a = some (t, w')) :
    Inv codec t ∧ w'.Ok codec t ∧ t.workers = s.workers := by
  cases a with
  | list i =>
    cases w with
    | queued item =>
      cases h
      refine ⟨hi, ?_, rfl⟩
      split
      next hempty =>
        -- without sessions nothing was closed over sessions
        have hcov : Covered codec s := by
          intro c hc hs
          exact absurd (isEmpty_iff.mp hempty) ((hi.history.closing c hc).2.1 hs)
        intro v hv
        obtain ⟨rev, hrev, hs⟩ := hw v hv
        exact ⟨rev, hrev, hs.mono fun _ => hcov⟩
      · exact hw
    | listed | fencing | fenced => cases h
  | fence i =>
    cases w with
    | listed item =>
      obtain ⟨epoch, hepoch, h⟩ := bind_eq_some_iff.mp h
      obtain ⟨m, hm, he⟩ := map_eq_some_iff.mp h
      cases he
      obtain ⟨rev, hrev, rfl⟩ : ∃ rev, s.ledger.revocation = some rev ∧
          rev.controlEpoch = epoch := by
        rw [toOption_eq_some, computerRevocationEpoch] at hepoch
        split at hepoch
        · cases hepoch
        · next rev hrev => exact ⟨rev, hrev, Except.ok.inj hepoch⟩
      obtain rfl : tombstone rev.controlEpoch = m := by
        simp only [revokeSessionAuthority] at hm
        split at hm
        · exact some.inj hm
        · cases hm
      refine ⟨hi.send (.inr ⟨rfl, rev, hrev, le_rfl⟩), ?_, rfl⟩
      intro v hv
      obtain ⟨rev', hrev', hs⟩ := hw v hv
      cases hrev.symm.trans hrev'
      exact ⟨rev, hrev, hs.mono fun _ => le_rfl⟩
    | queued | fencing | fenced => cases h
  | confirm i =>
    cases w with
    | fencing item epoch =>
      simp only [workerStep] at h
      split at h
      next hrec =>
        cases h
        refine ⟨hi, fun v hv => ?_, rfl⟩
        obtain ⟨rev, hrev, hs⟩ := hw v hv
        refine ⟨rev, hrev, hs.mono fun hle => ?_⟩
        have hle : rev.controlEpoch ≤ epoch := hle
        exact hi.history.covered_of_fenced hrev
          ((hi.receipts _ hrec).mono (by simpa [tombstone] using hle))
      · cases h
    | queued | listed | fenced => cases h
  | complete i =>
    cases w with
    | fenced item =>
      cases item with
      | none => cases h
      | some v =>
        obtain ⟨r', hr', he⟩ := map_eq_some_iff.mp h
        cases he
        exact ⟨hi.complete (hw v rfl) (toOption_eq_some.mp hr'), by simp [Worker.Ok, Worker.item],
          rfl⟩
    | queued | listed | fencing => cases h
  | lease | session | controlEpoch | start | deliver => cases h

theorem inv_step (hi : Inv codec s) (h : (protocol sha256 wire).step s a = some t) :
    Inv codec t := by
  have hwork : ∀ i, (s.workers[i]?.bind fun w =>
      (workerStep s w a).map fun p => { p.1 with workers := s.workers.set i p.2 }) = some t →
      Inv codec t := by
    intro i h
    obtain ⟨w, hget, h⟩ := bind_eq_some_iff.mp h
    obtain ⟨⟨t', w'⟩, hstep, rfl⟩ := map_eq_some_iff.mp h
    have hw := hi.workers w (mem_of_getElem? hget)
    obtain ⟨hi', hw', hsame⟩ := inv_workerStep hi hw hstep
    rw [← hsame]
    exact hi'.set hw'
  cases a with
  | lease a => exact inv_lease hi h
  | session env now a => exact inv_session hi h
  | controlEpoch =>
    obtain ⟨⟨r', n⟩, hp, rfl⟩ := map_eq_some_iff.mp h
    exact hi.keeps (computerControlEpoch_ok (toOption_eq_some.mp hp))
  | start force => exact inv_start hi h
  | deliver m env renamed answered => exact inv_deliver hi h
  | list i | fence i | confirm i | complete i => exact hwork i h

theorem inv_of_reachable (hs : (protocol sha256 wire).Reachable s) : Inv codec s :=
  hs.invariant (fun _ => inv_init) fun _ _ _ _ hi h => inv_step hi h

end Run

section Fence

def Settled (r : Ledger) : Prop :=
  ∀ rev, r.revocation = some rev → rev.queue.requested = rev.queue.completed

theorem Inv.covered (hi : Inv codec s) (hset : Settled s.ledger) : Covered codec s := by
  intro c hc
  obtain ⟨-, -, rev, hrev, -⟩ := hi.history.closing c hc
  exact hi.settled rev hrev (hset rev hrev) c hc

theorem Inv.hadSessions_of_sent (hi : Inv codec s) {m : Message} (hm : m ∈ s.sent)
    (hst : m.authority.state = "active") {c : Closing} (hc : c ∈ s.closings)
    (he : m.authority.controlEpoch = c.epoch) : c.hadSessions = true := by
  obtain ⟨hlt, -, rev, hrev, hle⟩ := hi.history.closing c hc
  rcases hi.sent m hm with ⟨-, ⟨l, hl, hel, -⟩ | ⟨c', hc', hs, hec⟩⟩ | ⟨hrevoked, -⟩
  · -- the active lease is above everything that was closed
    have := hi.ledger.above l rev hl hrev
    omega
  · rw [hi.history.distinct c hc c' hc' (by omega)]
    exact hs
  · rw [hst] at hrevoked
    simp at hrevoked

theorem Inv.above_of_sent (hi : Inv codec s) (hset : Settled s.ledger) {m : Message}
    (hm : m ∈ s.sent) (hst : m.authority.state = "active") {c : Closing} (hc : c ∈ s.closings)
    (he : m.authority.controlEpoch = c.epoch) :
    ∃ r, stored codec s.snapshot = some r ∧ m.authority.controlEpoch < r.2.controlEpoch := by
  obtain ⟨r, hr, hle⟩ := hi.covered hset c hc (hi.hadSessions_of_sent hm hst hc he)
  have hlt := (hi.history.closing c hc).1
  exact ⟨r, hr, by omega⟩

/-- No computer revocation is lost: when every request is acknowledged, each lease that was closed
while the desktop had sessions is fenced, and the active lease is not. -/
theorem computer_revocation_fence (hs : (protocol sha256 wire).Reachable s) :
    s.closings.map (fun c => (c.leaseId, c.closing)) =
      s.ledger.closed.map (fun l => (l.id, l.controlEpoch)) ∧
    (Settled s.ledger →
      (∀ c ∈ s.closings, c.hadSessions = true →
        ∃ r, stored codec s.snapshot = some r ∧ (c.closing : ℤ) ≤ r.2.controlEpoch) ∧
      (∀ c ∈ s.closings, ∀ m ∈ s.sent, m.authority.state = "active" →
        m.authority.controlEpoch = c.epoch → ∃ raw, s.snapshot = some raw ∧
          ∀ next : BoundAuthority ν, transition codec raw next m.authority ≠ .ok ()) ∧
      (∀ c ∈ s.closings, ∀ (account : SessionKey → Authority → Option ℕ → Bool)
        (unreadable : Bool) (key : SessionKey) (request : ActionRequest) (now₁ now₂ : ℤ),
        request.controlEpoch = c.epoch →
        validateAuthority codec account s.snapshot unreadable key request now₁ now₂ ≠ .ok ())) ∧
    (∀ lease, s.ledger.active = some lease → ∀ m ∈ s.sent, m.authority.state = "revoked" →
      ∀ raw old, record codec raw = .ok old → old.2 = m.authority →
        ∀ (next : BoundAuthority ν) (a : Authority), a.controlEpoch = lease.controlEpoch →
          transition codec raw next a = .ok ()) := by
  have hi := inv_of_reachable hs
  refine ⟨hi.history.rows, fun hset => ⟨hi.covered hset, ?_, ?_⟩, ?_⟩
  · intro c hc m hm hst he
    obtain ⟨r, hr, hlt⟩ := hi.above_of_sent hset hm hst hc he
    obtain ⟨raw, hraw, hdec⟩ := bind_eq_some_iff.mp hr
    refine ⟨raw, hraw, fun next hok => ?_⟩
    obtain ⟨old, hrec, hadm⟩ := transition_eq_ok.mp hok
    obtain ⟨-, -, hdec', -⟩ := boundRecord_eq_ok.mp hrec
    cases hdec.symm.trans hdec'
    exact absurd hadm.1 (not_le.mpr hlt)
  · intro c hc account unreadable key request now₁ now₂ he hok
    obtain ⟨r, hr, hst, -, hepoch⟩ := validateAuthority_ok hok
    obtain ⟨raw, hraw, hdec⟩ := bind_eq_some_iff.mp hr
    obtain ⟨r', hr', m, hm, hauth⟩ := hi.snapshot raw hraw
    cases hdec.symm.trans hr'
    rw [hauth] at hst hepoch
    obtain ⟨r', hr', hlt⟩ := hi.above_of_sent hset hm hst hc (hepoch.trans he)
    cases hr.symm.trans hr'
    rw [hauth] at hlt
    exact lt_irrefl _ hlt
  · intro lease hl m hm hst raw old hrec hold next a ha
    refine transition_eq_ok.mpr ⟨old, hrec, ?_⟩
    rcases hi.sent m hm with ⟨hact, -⟩ | ⟨-, rev, hrev, hle⟩
    · rw [hst] at hact
      simp at hact
    · have habove := hi.ledger.above lease rev hl hrev
      have hlt : old.2.controlEpoch < a.controlEpoch := by
        rw [hold]
        omega
      exact ⟨hlt.le, fun heq => absurd heq hlt.ne'⟩

end Fence

section Sample

def sampleEnv : SessionEnv := ⟨true, .linux, false, false, false, false⟩

def sampleLease (id : String) (h : leaseIdentifier id = true) : DesktopLease :=
  ⟨id, "agent", .active, 1, 200000000, h⟩

def sampleCreate (id : String) (h : leaseIdentifier id = true) : Action :=
  .lease (.create ⟨true, false, false⟩ 0 (sampleLease id h))

def sampleSession (login uid : ℕ) (sessionId instanceId : String) : AgentGuestSession :=
  ⟨100, "agent", "vca000000000000", .linux, "lease_a", 1, 1, login, .provisioning, uid, "",
    sessionId, instanceId, 200000000⟩

def sampleReady : AgentGuestSession :=
  sampleSession 1 1001 "linux:1001:123::10"
    "aaaaaaaaaaaaaaaaaaaaaaaaaaaaaaaaaaaaaaaaaaaaaaaaaaaaaaaaaaaaaaaa"

def sampleActive (login : Option ℕ) : BoundAuthority Authority :=
  ⟨2, some (sessionTarget sampleReady), (activation sampleReady).authority, login⟩

def sampleRevoked : BoundAuthority Authority := ⟨2, none, (tombstone 2).authority, none⟩

def sampleCodec : Codec Authority :=
  tableCodec [sampleActive none, sampleActive (some 1), sampleRevoked]

def sampleHost : PublishEnv where
  hostOk := true
  snapshotUnreadable := false
  legacyFenced := .error ⟨.notFound, "not found"⟩
  legacyAuthority := .error ⟨.notFound, "not found"⟩
  discovered := .ok (sessionTarget sampleReady)
  account := .ok (some 1)
  now₁ := 100
  now₂ := 100
  now₃ := 100

def sampleInit : State :=
  ⟨⟨⟨none, none, [], none, []⟩, LedgerRows.valid_empty⟩, [], [], [], none, []⟩

/-- A lease is closed and acknowledged before the desktop has sessions, and the next lease brings
the first. -/
def sampleUnfenced : List Action :=
  [sampleCreate "lease_a" (by decide), .lease (.release "lease_a"), .start false, .list 0,
    .complete 0, sampleCreate "lease_b" (by decide),
    .session sampleEnv 0 (.begin 100 "lease_b" "agent" 3)]

/-- A closing from before the first session stays unfenced, although every request is
acknowledged. -/
theorem closing_without_sessions_unfenced :
    ∃ s, (protocol sampleDigest (Wire.ofCodec sampleCodec)).Reachable s ∧ Settled s.ledger ∧
      s.ledger.sessions ≠ [] ∧ ∃ c ∈ s.closings,
        ¬ ∃ r, stored sampleCodec s.snapshot = some r ∧ (c.closing : ℤ) ≤ r.2.controlEpoch := by
  obtain ⟨s, hs, hrev, hne, hc, hsnap⟩ : ∃ s,
      (protocol sampleDigest (Wire.ofCodec sampleCodec)).Reachable s ∧
        s.ledger.revocation = some ⟨⟨1, 1, le_rfl⟩, 2⟩ ∧ s.ledger.sessions ≠ [] ∧
        s.closings = [⟨"lease_a", 1, 2, false⟩] ∧ s.snapshot = none :=
    Machine.exists_reachable_of_run sampleInit sampleUnfenced
      ⟨rfl, rfl, rfl, rfl, rfl, rfl, rfl, rfl, rfl⟩ (by decide)
  refine ⟨s, hs, ?_, hne, _, hc ▸ mem_cons_self, ?_⟩
  · intro rev h
    cases hrev.symm.trans h
    rfl
  · rintro ⟨r, hr, -⟩
    rw [hsnap] at hr
    cases hr

/-- A session is opened and activated, its lease is closed, and a worker revokes it. -/
def sampleFenced : List Action :=
  [sampleCreate "lease_a" (by decide), .session sampleEnv 0 (.begin 100 "lease_a" "agent" 1),
    .session sampleEnv 0 (.bind (sampleSession 0 1001 "" "") false),
    .session sampleEnv 0 (.login (sampleSession 0 1001 "" "")),
    .session sampleEnv 0 (.ready sampleReady),
    .deliver (activation sampleReady) sampleHost true true, .lease (.release "lease_a"),
    .start false, .list 0, .fence 0, .deliver (tombstone 2) sampleHost true true, .confirm 0,
    .complete 0, sampleCreate "lease_b" (by decide)]

/-- The acknowledged revocation of the sample fences its lease and leaves room for the active
one. -/
theorem computer_revocation_fence_settled :
    ∃ s raw, (protocol sampleDigest (Wire.ofCodec sampleCodec)).Reachable s ∧
      Settled s.ledger ∧ s.snapshot = some raw ∧
      (∀ next, transition sampleCodec raw next (activation sampleReady).authority ≠ .ok ()) ∧
      ∃ lease, s.ledger.active = some lease ∧ ∀ next, transition sampleCodec raw next
        { (activation sampleReady).authority with controlEpoch := lease.controlEpoch } =
          .ok () := by
  obtain ⟨s, hs, hrev, hc, hact, hm, ht, hsnap⟩ : ∃ s,
      (protocol sampleDigest (Wire.ofCodec sampleCodec)).Reachable s ∧
        s.ledger.revocation = some ⟨⟨1, 1, le_rfl⟩, 2⟩ ∧
        s.closings = [⟨"lease_a", 1, 2, true⟩] ∧
        s.ledger.active = some { sampleLease "lease_b" (by decide) with controlEpoch := 3 } ∧
        activation sampleReady ∈ s.sent ∧ tombstone 2 ∈ s.sent ∧
        s.snapshot = some sampleRevoked.encode :=
    Machine.exists_reachable_of_run sampleInit sampleFenced
      ⟨rfl, rfl, rfl, rfl, rfl, rfl, rfl, rfl, rfl⟩ (by decide +kernel)
  have hset : Settled s.ledger := by
    intro rev h
    cases hrev.symm.trans h
    rfl
  obtain ⟨-, hfence, hopen⟩ := computer_revocation_fence hs
  obtain ⟨raw, hraw, hrej⟩ := (hfence hset).2.1 _ (hc ▸ mem_cons_self) _ hm rfl rfl
  cases hraw.symm.trans hsnap
  exact ⟨s, _, hs, hset, hsnap, hrej, _, hact, fun next =>
    hopen _ hact _ ht rfl _ (sampleRevoked, (tombstone 2).authority) (by decide +kernel) rfl next _
      rfl⟩

end Sample

end VcWorkspace.Protocol.ComputerRevocation
