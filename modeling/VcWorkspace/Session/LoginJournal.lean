import VcWorkspace.Session.LoginWriters

/-! # The journal of login writers is read back

What a reader accepts is kept by every registration: a process that runs cannot
have the number of another entry that still lives, as long as no process starts
under the number of the creator of a populated scope.
-/

namespace VcWorkspace.Session.LoginWriters

open Transition Guest LinuxAccount List Handler

/-! ## What a reader accepts -/

variable {a : Account} {j : Journal} {p : ProcessIdentity}

section Reading

variable {owner : AccountIdentity} {xs ys : List Writer}

structure Writer.Valid (a : Account) (owner : AccountIdentity) (x : Writer) : Prop where
  process : x.process.validate = .ok ()
  scope : ∀ s ∈ x.scope, s.validate = .ok ()
  version : x.checkVersion a owner = .ok ()

theorem checkScope_eq_ok {x : Writer} :
    x.checkScope = .ok () ↔ ∀ s ∈ x.scope, s.validate = .ok () := by
  unfold Writer.checkScope
  split <;> simp_all

theorem checkWriters_eq_ok {seen : List ℕ} :
    checkWriters a owner seen xs = .ok () ↔ (∀ x ∈ xs, x.Valid a owner) ∧
      (xs.map (·.process.pid)).Nodup ∧ ∀ x ∈ xs, x.process.pid ∉ seen := by
  induction xs generalizing seen with
  | nil => simp [checkWriters]
  | cons x rest ih =>
    simp only [checkWriters, seq_eq_ok, ensure_eq_ok, checkScope_eq_ok, ih, map_cons,
      nodup_cons, mem_map, mem_cons, not_or, forall_eq_or_imp]
    constructor
    · rintro ⟨hp, hs, hseen, hv, hrest, hnodup, hpids⟩
      refine ⟨⟨⟨hp, hs, hv⟩, hrest⟩, ⟨?_, hnodup⟩, by simpa using hseen, fun y hy => (hpids y hy).2⟩
      rintro ⟨y, hy, he⟩
      exact (hpids y hy).1 he
    · rintro ⟨⟨hx, hrest⟩, ⟨hnew, hnodup⟩, hseen, hpids⟩
      exact ⟨hx.process, hx.scope, by simpa using hseen, hx.version, hrest, hnodup,
        fun y hy => ⟨fun he => hnew ⟨y, hy, he⟩, hpids y hy⟩⟩

structure Journal.Accepted (a : Account) (j : Journal) : Prop where
  schema : j.schemaVersion = 2
  identity : j.identity = LinuxAccount.identity a
  length : j.writers.length ≤ maxWriters
  valid : ∀ x ∈ j.writers, x.Valid a j.identity
  nodup : (j.writers.map (·.process.pid)).Nodup

theorem check_eq_ok : j.check a = .ok () ↔ j.Accepted a := by
  simp only [Journal.check, seq_eq_ok, ensure_eq_ok, checkWriters_eq_ok, Bool.and_eq_true,
    beq_iff_eq, decide_eq_true_eq]
  constructor
  · rintro ⟨⟨⟨hs, hi⟩, hl⟩, hv, hn, -⟩
    exact ⟨hs, hi, hl, hv, hn⟩
  · rintro ⟨hs, hi, hl, hv, hn⟩
    exact ⟨⟨⟨hs, hi⟩, hl⟩, hv, hn, by simp⟩

theorem accepted_of_readStored {stored : Option Journal} (h : readStored a stored = .ok j) :
    j.Accepted a ∧ ∀ x ∈ j.writers, ∃ k, stored = some k ∧ x ∈ k.writers := by
  cases stored with
  | none =>
    cases h
    exact ⟨⟨rfl, rfl, Nat.zero_le _, by simp, by simp⟩, by simp⟩
  | some k =>
    simp only [readStored, seq_eq_ok, check_eq_ok] at h
    obtain ⟨-, hk, h⟩ := h
    obtain rfl := Except.ok.inj h
    exact ⟨hk, fun x hx => ⟨k, rfl, hx⟩⟩

theorem Journal.Accepted.sublist (h : j.Accepted a) {kept : List Writer}
    (hk : kept.Sublist j.writers) : Journal.Accepted a { j with writers := kept } where
  schema := h.schema
  identity := h.identity
  length := hk.length_le.trans h.length
  valid x hx := h.valid x (hk.subset hx)
  nodup := (hk.map _).nodup h.nodup

theorem Journal.Accepted.push (h : j.Accepted a) {x : Writer} (hx : x.Valid a j.identity)
    (hlen : j.writers.length < maxWriters) (hpid : ∀ y ∈ j.writers, y.process.pid ≠ x.process.pid) :
    Journal.Accepted a { j with writers := j.writers ++ [x] } where
  schema := h.schema
  identity := h.identity
  length := by
    rw [length_append]
    exact hlen
  valid y hy := by
    rcases mem_append.mp hy with hy | hy
    · exact h.valid y hy
    · rw [mem_singleton.mp hy]
      exact hx
  nodup := by
    rw [map_append, nodup_append]
    refine ⟨h.nodup, by simp, fun pid hp pid' hp' => ?_⟩
    obtain ⟨y, hy, rfl⟩ := mem_map.mp hp
    rw [mem_singleton.mp hp']
    exact hpid y hy

theorem attach_eq_ok {s : Scope} {y : Writer} (h : attach p s xs = .ok (y, ys)) :
    ys.map (·.process) = xs.map (·.process) ∧ y.process = p ∧ y.scope = some s ∧
      ∀ z ∈ ys, z ∈ xs ∨ z = y ∧ ∃ x ∈ xs, z = { x with scope := some s } := by
  induction xs generalizing ys y with
  | nil => cases h
  | cons x rest ih =>
    rw [attach] at h
    split at h
    · rename_i hx
      rw [seq_eq_ok] at h
      obtain ⟨-, h⟩ := h
      cases h
      refine ⟨rfl, hx, rfl, ?_⟩
      rintro z (_ | ⟨_, hz⟩)
      · exact .inr ⟨rfl, x, by simp, rfl⟩
      · exact .inl (mem_cons_of_mem _ hz)
    · obtain ⟨⟨z, zs⟩, hz, h⟩ := bind_eq_ok.mp h
      cases h
      obtain ⟨hmap, hp, hs, hmem⟩ := ih hz
      refine ⟨by simp [hmap], hp, hs, ?_⟩
      rintro u (_ | ⟨_, hu⟩)
      · exact .inl (by simp)
      · rcases hmem u hu with hu | ⟨rfl, v, hv, hvu⟩
        · exact .inl (mem_cons_of_mem _ hu)
        · exact .inr ⟨rfl, v, mem_cons_of_mem _ hv, hvu⟩

theorem Journal.Accepted.attach (h : j.Accepted a) {s : Scope} {y : Writer}
    (hy : attach p s j.writers = .ok (y, ys)) (hs : s.validate = .ok ()) :
    Journal.Accepted a { j with writers := ys } := by
  obtain ⟨hmap, -, -, hmem⟩ := attach_eq_ok hy
  refine ⟨h.schema, h.identity, ?_, fun z hz => ?_, ?_⟩
  · have hlen := congrArg List.length hmap
    simp only [length_map] at hlen
    exact hlen ▸ h.length
  · rcases hmem z hz with hz | ⟨-, x, hx, rfl⟩
    · exact h.valid z hz
    · have hv := h.valid x hx
      exact ⟨hv.process, by simpa using hs, hv.version⟩
  · have hpids : ys.map (·.process.pid) = j.writers.map (·.process.pid) := by
      have := congrArg (map ProcessIdentity.pid) hmap
      rwa [map_map, map_map] at this
    rw [hpids]
    exact h.nodup

end Reading

/-! ## What the programs do -/

/-- A kernel in whose history no process got the number of the creator of a populated scope. -/
def Sound (k : Kernel) : Prop := k.WellFormed ∧ k.Apart

/-- An accepted journal of processes that have run and scopes that they created. -/
structure Ready (a : Account) (k : Kernel) (j : Journal) : Prop where
  accepted : j.Accepted a
  recorded : ∀ x ∈ j.writers,
    k.Recorded x.process.bootId x.process.process (x.scope.map Scope.inode)

def Good (a : Account) (w : World) : Prop :=
  ∀ j, w.journal = some j → j.fits = true ∧ Ready a w.kernel j

structure Reads (w w' : World) : Prop where
  journal : w'.journal = w.journal
  callers : w'.callers = w.callers
  kernel : Sound w.kernel → Sound w'.kernel ∧ Kernel.Later w.kernel w'.kernel

structure Moves (a : Account) (w w' : World) : Prop where
  callers : w'.callers = w.callers
  kernel : Sound w.kernel → Sound w'.kernel ∧ Kernel.Later w.kernel w'.kernel
  good : Sound w.kernel → Good a w → Good a w'

variable {w w' : World}

section Specs

variable {k k' : Kernel} {message : String}

theorem kernel_trans {k k' k'' : Kernel}
    (h : Sound k → Sound k' ∧ Kernel.Later k k') (h' : Sound k' → Sound k'' ∧ Kernel.Later k' k'')
    (hk : Sound k) : Sound k'' ∧ Kernel.Later k k'' :=
  ⟨(h' (h hk).1).1, IsTrans.trans _ _ _ (h hk).2 (h' (h hk).1).2⟩

instance : IsPreorder World Reads where
  refl w := ⟨rfl, rfl, fun h => ⟨h, refl w.kernel⟩⟩
  trans _ _ _ h h' := ⟨h'.journal.trans h.journal, h'.callers.trans h.callers,
    kernel_trans h.kernel h'.kernel⟩

instance : IsPreorder World (Moves a) where
  refl w := ⟨rfl, fun h => ⟨h, refl w.kernel⟩, fun _ h => h⟩
  trans _ _ _ h h' := ⟨h'.callers.trans h.callers, kernel_trans h.kernel h'.kernel,
    fun hs hg => h'.good (h.kernel hs).1 (h.good hs hg)⟩

theorem Ready.later (h : Ready a k j) (hl : Kernel.Later k k') : Ready a k' j :=
  ⟨h.accepted, fun x hx => (h.recorded x hx).later hl⟩

theorem Reads.moves (h : Reads w w') : Moves a w w' :=
  ⟨h.callers, h.kernel, fun hs hg j hj =>
    let ⟨hfits, hready⟩ := hg j (h.journal ▸ hj)
    ⟨hfits, hready.later (h.kernel hs).2⟩⟩

theorem sound_step (e : KernelEvent) (h : Sound k) :
    Sound (k.step true e) ∧ Kernel.Later k (k.step true e) :=
  ⟨⟨h.1.step e, h.2.step h.1 e⟩, Kernel.later_step h.1 e⟩

theorem reads_drift {c : Choice} : Reads w (w.drift true c) :=
  ⟨rfl, rfl, fun h => ⟨⟨h.1.advance _, h.2.advance h.1 _⟩, Kernel.later_advance h.1 _⟩⟩

def Effect.Reading (e : Effect) : Prop := ∀ j, e ≠ .persist j

def Effect.Passive : Effect → Prop
  | .persist _ | .kill _ | .drainScope _ _ => False
  | _ => True

theorem reads_after {e : Effect} {applied : Bool} (he : e.Reading) :
    Reads w (w.after true applied e) := by
  cases e with
  | persist j => exact absurd rfl (he j)
  | kill | drainScope =>
    refine ⟨rfl, rfl, fun h => ?_⟩
    simp only [World.after]
    split
    · exact sound_step _ h
    · exact ⟨h, refl w.kernel⟩
  | _ => exact refl w

theorem ask_spec (e : Effect) (he : e.Passive) :
    (host true a).Within Reads (ask e) (fun x w' => ∃ c, w'.answer a c e = .ok x) w := by
  have hread : e.Reading := by
    rintro j rfl
    exact he
  refine Host.within_perform (fun c applied ok _ => ?_) fun c x hx => ⟨c, ?_⟩
  · exact IsTrans.trans _ _ _ reads_drift (reads_after hread)
  · cases e <;> first | exact he.elim | exact hx

theorem reads_of_asks {α : Type} {q : Birth α} (hq : q.Asks Effect.Reading) (w : World) :
    (host true a).Within Reads q (fun _ _ => True) w :=
  Host.within_of_asks (fun _ _ => reads_drift) (fun _ _ _ _ _ he _ => reads_after he) hq w

/-- A part that only reads, inside a registration. -/
theorem moved {α : Type} {q : Birth α} {Q : α → World → Prop}
    (h : (host true a).Within Reads q Q w) :
    (host true a).Within (Moves a) q (fun x w' => Reads w w' ∧ Q x w') w :=
  h.widen fun _ h => h.moves

theorem isRunning_iff : w.isRunning p = true ↔ w.kernel.Running p.bootId p.process := by
  simp [World.isRunning, Kernel.Running]

theorem persistJournal_spec (hj : Ready a w.kernel j) :
    (host true a).Within (Moves a) (persistJournal j) (fun _ _ => True) w := by
  refine within_check_bind fun hfits => ?_
  refine Host.within_perform (fun c applied ok _ => ?_) fun _ _ _ => trivial
  have hdrift : Reads w (w.drift true c) := reads_drift
  refine ⟨rfl, hdrift.kernel, fun hs hg i hi => ?_⟩
  cases applied with
  | false => exact (hdrift.moves.good hs hg) i hi
  | true =>
    cases hi
    exact ⟨hfits, hj.later (hdrift.kernel hs).2⟩

/-! ### Live writers -/

def Writer.Live (k : Kernel) (x : Writer) : Prop :=
  k.Running x.process.bootId x.process.process ∨
    ∃ i ∈ x.scope.map Scope.inode, ∃ leader, k.Populated x.process.bootId i leader

theorem populated_of_scopeAnswer {boot : String} {s : Scope}
    (h : w.scopeAnswer boot s = .ok false) : ∃ leader, w.kernel.Populated boot s.inode leader := by
  unfold World.scopeAnswer at h
  split at h
  · rename_i hb
    split at h
    · cases h
    · rename_i σ hσ
      split at h
      · rename_i hmatch
        refine ⟨σ.leader, hb, σ, mem_of_find?_eq_some hσ, hmatch.2, rfl, ?_⟩
        simpa using Except.ok.inj h
      · cases h
  · cases h

theorem openProcess_spec (p : ProcessIdentity) : (host true a).Within Reads (openProcess p)
    (fun b w' => b = w'.isRunning p) w := by
  refine within_lift_bind fun _ _ => ?_
  exact (ask_spec (.running p) trivial).post fun _ _ _ ⟨_, hx⟩ => (Except.ok.inj hx).symm

theorem scopeAbsent_spec (boot : String) (s : Scope) :
    (host true a).Within Reads (scopeAbsent boot s)
      (fun b w' => b = false → ∃ leader, w'.kernel.Populated boot s.inode leader) w := by
  refine within_lift_bind fun _ _ =>
    (ask_spec (.scopeAbsent boot s) trivial).post fun _ _ _ ⟨_, hx⟩ hb => ?_
  exact populated_of_scopeAnswer (hb ▸ hx)

theorem live_spec (x : Writer) : (host true a).Within Reads x.live
    (fun b w' => b = true → ∃ w₁, Reads w w₁ ∧ Reads w₁ w' ∧ x.Live w₁.kernel) w := by
  refine (openProcess_spec x.process).bind fun running w₁ hr₁ hrun => ?_
  split
  · rename_i htrue
    refine within_pure fun _ => ⟨w₁, hr₁, refl w₁, .inl ?_⟩
    exact isRunning_iff.mp (hrun ▸ htrue)
  · split
    · exact within_pure (by simp)
    · rename_i s hscope
      refine (scopeAbsent_spec x.process.bootId s).bind fun absent w₂ hr₂ hpop => ?_
      refine within_pure fun hlive => ?_
      obtain ⟨leader, hpop⟩ := hpop (by simpa using hlive)
      exact ⟨w₂, IsTrans.trans _ _ _ hr₁ hr₂, refl w₂,
        .inr ⟨s.inode, by simp [hscope], leader, hpop⟩⟩

theorem keepLive_spec {w₀ : World} (hs : Sound w₀.kernel) (hrun : w₀.isRunning p = true)
    (xs : List Writer) (hrec : ∀ x ∈ xs,
      w₀.kernel.Recorded x.process.bootId x.process.process (x.scope.map Scope.inode))
    (hr : Reads w₀ w) : (host true a).Within Reads (keepLive xs)
      (fun kept _ => kept.Sublist xs ∧ ∀ x ∈ kept, x.process.pid = p.pid → x.process = p) w := by
  induction xs generalizing w with
  | nil => exact within_pure (by simp)
  | cons x rest ih =>
    refine (live_spec x).bind fun live w₁ hr₁ hlive => ?_
    have hr₀ : Reads w₀ w₁ := IsTrans.trans _ _ _ hr hr₁
    refine (ih (fun y hy => hrec y (by simp [hy])) hr₀).bind fun kept w₂ _ hkept => ?_
    refine within_pure ?_
    cases live with
    | false => exact ⟨hkept.1.cons x, hkept.2⟩
    | true =>
      refine ⟨hkept.1.cons_cons x, fun y hy hpid => ?_⟩
      rcases mem_cons.mp hy with rfl | hy
      · obtain ⟨w₃, hr₃, -, hl⟩ := hlive rfl
        have hlater := ((IsTrans.trans _ _ _ hr hr₃ : Reads w₀ w₃).kernel hs).2
        obtain ⟨hb, hp⟩ := (hrec y (by simp)).eq_of_live hs.1 hs.2 (isRunning_iff.mp hrun) hpid
          hlater hl
        cases hy' : y.process
        simp_all [ProcessIdentity.process]
      · exact hkept.2 y hy hpid

/-! ### Registration -/

theorem stillOpen_spec {expires : ℕ} : (host true a).Within Reads (stillOpen message expires p)
      (fun _ w' => w'.isRunning p = true) w := by
  refine (ask_spec .now trivial).bind fun now w₁ _ _ => within_check_bind fun _ => ?_
  refine (ask_spec (.exited p) trivial).bind fun gone w₂ _ hx => within_check fun h => ?_
  obtain ⟨c, hx⟩ := hx
  cases hx
  simpa using h

theorem boundAccount_spec {username : String} : (host true a).Within Reads (boundAccount username)
      (fun b _ => b = a ∧ a.username = username) w := by
  refine (ask_spec .account trivial).bind fun record w₁ _ hx => ?_
  obtain ⟨c, hx⟩ := hx
  cases hx
  refine within_check_bind fun hname => within_demand_bind fun b hb => ?_
  refine (ask_spec .verifyIdentity trivial).bind fun _ w₂ _ _ => ?_
  refine within_check_bind fun _ => within_pure ⟨(Option.some.inj hb).symm, ?_⟩
  simp only [Option.all_some, Bool.and_eq_true, beq_iff_eq] at hname
  exact hname.1

theorem startsWith_family {username : String} (h : startsWith username "vca" = true) :
    startsWith username "vcw" = false := by
  have ha : bytes "vca" = [118, 99, 97] := by decide +kernel
  have hw : bytes "vcw" = [118, 99, 119] := by decide +kernel
  rw [startsWith, ha, isPrefixOf_iff_prefix] at h
  obtain ⟨rest, hrest⟩ := h
  rw [startsWith, hw, ← hrest]
  simp [isPrefixOf]

theorem parsed {F : Type} {validate : F → Except IoError Unit} {owner : F → AccountIdentity}
    {f g : F} (h : parseRecord validate owner a f = .ok g) :
    validate g = .ok () ∧ owner g = identity a := by
  simp only [parseRecord, parseFence, seq_eq_ok, ensure_eq_ok, beq_iff_eq] at h
  obtain ⟨hv, hi, h⟩ := h
  cases h
  exact ⟨hv, hi⟩

def Checked (a : Account) (v : LoginVersion) : Prop :=
  ∀ p s, (Writer.mk p s v).checkVersion a (identity a) = .ok ()

theorem agentVersion_spec (hfam : startsWith a.username "vca" = true) :
    (host true a).Within Reads (agentVersion a) (fun v _ => Checked a v) w := by
  refine (ask_spec .agentFence trivial).bind fun stored w₁ _ _ => ?_
  refine within_demand_bind fun f _ => within_lift_bind fun g hg => ?_
  obtain ⟨hvalid, howner⟩ := parsed hg
  refine within_check_bind fun hp => within_pure fun q s => ?_
  obtain ⟨hid, hschema, hlease, hgen, hexp⟩ := Agent.Fence.validate_iff.mp hvalid
  rw [Writer.checkVersion, if_neg (by simp [startsWith_family hfam]), Agent.Fence.validate_iff]
  rw [beq_iff_eq.mp hp] at hexp
  exact ⟨howner ▸ hid, rfl, hlease, hgen, hexp⟩

theorem nativeVersion_spec (hfam : startsWith a.username "vcw" = true) :
    (host true a).Within Reads (nativeVersion a) (fun v _ => Checked a v) w := by
  refine (ask_spec .nativeFence trivial).bind fun stored w₁ _ _ => ?_
  refine within_demand_bind fun f _ => within_lift_bind fun g hg => ?_
  obtain ⟨hvalid, howner⟩ := parsed hg
  refine (ask_spec .now trivial).bind fun now w₂ _ _ => ?_
  refine within_check_bind fun hp => within_pure fun q s => ?_
  simp only [Bool.and_eq_true, beq_iff_eq] at hp
  obtain ⟨hid, hschema, hconn, hgen, hexp⟩ := Native.Fence.validate_iff.mp hvalid
  rw [Writer.checkVersion, if_pos hfam, seq_eq_ok, Native.Fence.validate_iff]
  rw [hp.1] at hexp
  exact ⟨rfl, howner ▸ hid, rfl, hconn, hgen, hexp⟩

theorem loginVersion_spec {native : Bool} (hfam : startsWith a.username (family native) = true) :
    (host true a).Within Reads (loginVersion native a) (fun v _ => Checked a v) w := by
  cases native with
  | false => exact agentVersion_spec hfam
  | true => exact nativeVersion_spec hfam

theorem enroll_spec {kind : Kind} {version : LoginVersion} (hs : Sound w.kernel)
    (hj : Ready a w.kernel j) (hp : p.validate = .ok ())
    (hknown : w.kernel.Known p.bootId p.startTicks Kernel.ticks) (hv : Checked a version)
    (hown : ∀ x ∈ j.writers, x.process.pid = p.pid → x.process = p) :
    (host true a).Within (Moves a) (enroll kind version p j)
      (fun j' w' => Sound w'.kernel ∧ Ready a w'.kernel j') w := by
  unfold enroll
  split
  · exact within_check_bind fun _ => within_pure ⟨hs, hj⟩
  · rename_i hnone
    refine within_check_bind fun hlen => ?_
    simp only [Bool.and_eq_true, decide_eq_true_eq] at hlen
    have hnew : Ready a w.kernel { j with writers := j.writers ++ [⟨p, none, version⟩] } := by
      refine ⟨hj.accepted.push ⟨hp, by simp, hj.accepted.identity ▸ hv p none⟩ hlen.2
        fun x hx hpid => ?_, fun x hx => ?_⟩
      · exact find?_eq_none.mp hnone x hx (beq_iff_eq.mpr (hown x hx hpid))
      · rcases mem_append.mp hx with hx | hx
        · exact hj.recorded x hx
        · obtain rfl := mem_singleton.mp hx
          exact ⟨hknown, by simp⟩
    refine (persistJournal_spec hnew).bind fun _ w₂ hm _ => within_pure ?_
    exact ⟨(hm.kernel hs).1, hnew.later (hm.kernel hs).2⟩

/-- The scope of the caller: it exists, and nobody else created it. -/
def Owns (k : Kernel) (p : ProcessIdentity) (s : Scope) : Prop :=
  k.Known p.bootId s.inode Kernel.inodes ∧
    ∀ leader, k.Populated p.bootId s.inode leader → leader = p.process

theorem bind_spec : (host true a).Within Reads (ask (.bind p))
    (fun s w' => Sound w'.kernel → Owns w'.kernel p s) w := by
  refine (ask_spec (.bind p) trivial).post fun s w' _ ⟨c, hx⟩ hs => ?_
  simp only [World.answer, World.bindAnswer] at hx
  split at hx
  · cases hx
  rename_i σ hσ
  split at hx
  · rename_i hbound
    cases hx
    simp only [Bool.and_eq_true, beq_iff_eq] at hbound
    obtain ⟨⟨hpop, hpid⟩, hrun⟩ := hbound
    obtain ⟨hb, hmem⟩ := isRunning_iff.mp hrun
    have hσ := mem_of_find?_eq_some hσ
    refine ⟨.inl ⟨hb, hs.1.inodes σ hσ⟩, ?_⟩
    rintro leader ⟨-, τ, hτ, hi, rfl, -⟩
    rw [hs.1.leaders τ hτ σ hσ hi]
    exact (hs.2 σ hσ hpop p.process hmem hpid.symm).symm
  · cases hx

theorem Ready.attach (hj : Ready a k j) {s : Scope} {y : Writer} {ys : List Writer}
    (h : attach p s j.writers = .ok (y, ys)) (hs : s.validate = .ok ()) (hown : Owns k p s) :
    Ready a k { j with writers := ys } := by
  refine ⟨hj.accepted.attach h hs, fun z hz => ?_⟩
  obtain ⟨-, hp, hscope, hmem⟩ := attach_eq_ok h
  rcases hmem z hz with hz | ⟨rfl, x, hx, hzx⟩
  · exact hj.recorded z hz
  · have hproc : z.process = x.process := by rw [hzx]
    refine ⟨hproc ▸ (hj.recorded x hx).known, fun i hi => ?_⟩
    obtain rfl : i = s.inode := by simpa [hscope] using hi.symm
    exact hp ▸ hown

theorem read_spec : (host true a).Within Reads (read a)
    (fun j _ => readStored a w.journal = .ok j) w := by
  refine (ask_spec .journal trivial).bind fun stored w₁ hr hx => ?_
  obtain ⟨c, hx⟩ := hx
  cases hx
  exact within_lift fun j hj => hr.journal ▸ hj

structure Caller.Admitted (k : Kernel) (c : Caller) : Prop where
  process : c.process.validate = .ok ()
  family : startsWith c.username (LoginWriters.family c.native) = true
  known : k.Known c.process.bootId c.process.startTicks Kernel.ticks

theorem register_spec {c : Caller} (hs : Sound w.kernel) (hg : Good a w)
    (hc : c.Admitted w.kernel) :
    (host true a).Within (Moves a) (register c) (fun _ _ => True) w := by
  refine (moved (ask_spec .lock trivial)).bind fun _ w₁ _ h₁ => ?_
  refine (moved boundAccount_spec).bind fun b w₂ _ h₂ => ?_
  obtain ⟨hr₂, rfl, hname⟩ := h₂
  refine (moved (loginVersion_spec (hname ▸ hc.family))).bind
    fun version w₃ _ h₃ => ?_
  refine (moved stillOpen_spec).bind fun _ w₄ _ h₄ => ?_
  have hr₄ : Reads w w₄ := IsTrans.trans _ _ _ h₁.1 (IsTrans.trans _ _ _ hr₂
    (IsTrans.trans _ _ _ h₃.1 h₄.1))
  obtain ⟨hs₄, hl₄⟩ := hr₄.kernel hs
  -- From here on the caller has run after every other registration was over.
  refine (moved read_spec).bind fun j w₅ _ h₅ => ?_
  obtain ⟨haccepted, hmem⟩ := accepted_of_readStored h₅.2
  have hrec : ∀ x ∈ j.writers,
      w₄.kernel.Recorded x.process.bootId x.process.process (x.scope.map Scope.inode) := by
    intro x hx
    obtain ⟨i, hi, hxi⟩ := hmem x hx
    exact ((hg i (hr₄.journal ▸ hi)).2.recorded x hxi).later hl₄
  refine (moved (keepLive_spec hs₄ h₄.2 j.writers hrec h₅.1)).bind
    fun kept w₆ _ h₆ => ?_
  obtain ⟨hr₆, hsub, hown⟩ := h₆
  obtain ⟨hs₆, hl₆⟩ := (IsTrans.trans _ _ _ h₅.1 hr₆ : Reads w₄ w₆).kernel hs₄
  have hready : Ready b w₆.kernel { j with writers := kept } :=
    ⟨haccepted.sublist hsub, fun x hx => (hrec x (hsub.subset hx)).later hl₆⟩
  refine (enroll_spec hs₆ hready hc.process (hl₆.ticks _ _ (hl₄.ticks _ _ hc.known)) h₃.2
    hown).bind fun j' w₇ _ h₇ => ?_
  refine (moved bind_spec).bind fun s w₈ _ h₈ => ?_
  obtain ⟨hs₈, hl₈⟩ := h₈.1.kernel h₇.1
  refine within_lift_bind fun _ hvalid => within_lift_bind fun x hattach => ?_
  have hready := (h₇.2.later hl₈).attach hattach hvalid (h₈.2 hs₈)
  refine (moved stillOpen_spec).bind fun _ w₉ _ h₉ => ?_
  have hl₉ := (h₉.1.kernel hs₈).2
  refine (persistJournal_spec (hready.later hl₉)).bind fun _ w₁₀ _ _ => ?_
  exact (ask_spec .acknowledge trivial).mono (fun _ h => h.moves) fun _ _ _ _ => trivial

theorem capture_spec (pid : ℕ) (hs : Sound w.kernel) : (host true a).Within Reads (capture pid)
    (fun p w' => p.validate = .ok () ∧ w'.kernel.Known p.bootId p.startTicks Kernel.ticks) w := by
  refine within_check_bind fun hpid => ?_
  refine (ask_spec (.capture pid) trivial).bind fun p w₁ hr₁ hx => ?_
  obtain ⟨c, hx⟩ := hx
  have hs₁ := (hr₁.kernel hs).1
  refine within_check_bind fun hboot => within_pure ?_
  simp only [World.answer, World.captureAnswer] at hx
  split at hx
  · cases hx
  rename_i q hq
  cases hx
  have hticks := hs₁.1.ticks q (mem_of_find?_eq_some hq)
  have hqpid : q.pid = pid := by simpa using find?_some hq
  refine ⟨ensure_eq_ok.mpr ?_, .inl ⟨rfl, hticks.2⟩⟩
  simp only [Bool.and_eq_true, decide_eq_true_eq, bne_iff_ne]
  exact ⟨⟨hqpid ▸ of_decide_eq_true hpid, Nat.ne_of_gt hticks.1⟩, hboot⟩

theorem prepare_spec (native : Bool) (service : Option String) (kind : Kind) (username : String)
    (parent : ℕ) (hs : Sound w.kernel) :
    (host true a).Within Reads (prepare native service kind username parent)
      (fun r w' => ∀ c, r = some c → c.Admitted w'.kernel) w := by
  refine (ask_spec .requireRoot trivial).bind fun _ w₁ h₁ _ => within_check_bind fun _ => ?_
  split
  · exact within_pure (by simp)
  rename_i hfam
  simp only [Bool.or_eq_true, Bool.not_eq_true', not_or, Bool.not_eq_false] at hfam
  refine (ask_spec .configured trivial).bind fun _ w₂ h₂ _ => within_check_bind fun _ => ?_
  have hr₂ : Reads w w₂ := IsTrans.trans _ _ _ h₁ h₂
  refine (capture_spec parent (hr₂.kernel hs).1).bind fun p w₃ h₃ hp => ?_
  refine (ask_spec .armParentDeath trivial).bind fun _ w₄ h₄ _ => ?_
  refine (ask_spec .exchange trivial).bind fun _ w₅ h₅ _ => within_pure ?_
  rintro c hc
  cases hc
  have hs₃ := ((IsTrans.trans _ _ _ hr₂ h₃ : Reads w w₃).kernel hs).1
  have hl := ((IsTrans.trans _ _ _ h₄ h₅ : Reads w₃ w₅).kernel hs₃).2
  exact ⟨hp.1, hfam.1, hl.ticks _ _ hp.2⟩

theorem ask_asks {e : Effect} (he : e.Reading) : (ask e).Asks Effect.Reading :=
  Program.asks_perform.mpr he

theorem openProcess_asks (p : ProcessIdentity) : (openProcess p).Asks Effect.Reading :=
  Program.Asks.bind trivial fun _ => ask_asks fun _ => nofun

theorem scopeAbsent_asks (boot : String) (s : Scope) : (scopeAbsent boot s).Asks Effect.Reading :=
  Program.Asks.bind trivial fun _ => ask_asks fun _ => nofun

theorem live_asks (x : Writer) : x.live.Asks Effect.Reading := by
  refine (openProcess_asks x.process).bind fun running => ?_
  split
  · trivial
  · split
    · trivial
    · exact (scopeAbsent_asks _ _).bind fun _ => trivial

theorem read_asks : (read a).Asks Effect.Reading :=
  Program.Asks.bind (ask_asks fun _ => nofun) fun _ => trivial

theorem absentFrom_asks (boot : String) (current : Bool) (xs : List Writer) :
    (absentFrom boot current xs).Asks Effect.Reading := by
  induction xs generalizing current with
  | nil =>
    cases current with
    | false => trivial
    | true => exact ask_asks fun _ => nofun
  | cons x rest ih =>
    refine (live_asks x).bind fun live => ?_
    split
    · trivial
    · exact ih _

theorem absent_asks : (absent a).Asks Effect.Reading :=
  Program.Asks.bind (ask_asks fun _ => nofun) fun _ => read_asks.bind fun _ => absentFrom_asks _ _ _

theorem openWriters_asks (xs : List Writer) : (openWriters xs).Asks Effect.Reading := by
  induction xs with
  | nil => trivial
  | cons x rest ih =>
    have hscope : x.observeScope.Asks Effect.Reading := by
      unfold Writer.observeScope
      split
      · trivial
      · exact (scopeAbsent_asks _ _).bind fun _ => trivial
    exact hscope.bind fun _ => (openProcess_asks _).bind fun _ => ih.bind fun _ => trivial

theorem terminateAll_asks (ps : List ProcessIdentity) : (terminateAll ps).Asks Effect.Reading := by
  induction ps with
  | nil => trivial
  | cons p rest ih => exact Program.Asks.bind (ask_asks fun _ => nofun) fun _ => ih

theorem closeWriters_asks (xs : List Writer) : (closeWriters xs).Asks Effect.Reading := by
  induction xs with
  | nil => trivial
  | cons x rest ih =>
    have hscope : x.closeScope.Asks Effect.Reading := by
      unfold Writer.closeScope
      split
      · trivial
      · exact Program.Asks.bind trivial fun _ => ask_asks fun _ => nofun
    refine hscope.bind fun _ => (openProcess_asks _).bind fun running => ?_
    split
    · exact Program.Asks.bind (ask_asks fun _ => nofun) fun _ => ih
    · exact ih

theorem drain_asks : (drain a).Asks Effect.Reading :=
  read_asks.bind fun _ => (openWriters_asks _).bind fun _ =>
    (terminateAll_asks _).bind fun _ => closeWriters_asks _

end Specs

/-! ## The journal over whole runs -/

section Runs

structure Inv (a : Account) (w : World) : Prop where
  sound : Sound w.kernel
  good : Good a w
  callers : ∀ c ∈ w.callers, c.Admitted w.kernel

theorem Caller.Admitted.later {k k' : Kernel} {c : Caller} (h : c.Admitted k)
    (hl : Kernel.Later k k') : c.Admitted k' :=
  ⟨h.process, h.family, hl.ticks _ _ h.known⟩

theorem Inv.moves (h : Inv a w) (hm : Moves a w w') : Inv a w' where
  sound := (hm.kernel h.sound).1
  good := hm.good h.sound h.good
  callers c hc := (h.callers c (hm.callers ▸ hc)).later (hm.kernel h.sound).2

theorem Inv.note (h : Inv a w) {r : Option (Except IoError (Option Caller))}
    (hr : ∀ c, r = some (.ok (some c)) → c.Admitted w.kernel) : Inv a (w.note r) := by
  unfold World.note
  split
  · refine ⟨h.sound, h.good, fun d hd => ?_⟩
    rcases mem_cons.mp hd with rfl | hd
    · exact hr d rfl
    · exact h.callers d hd
  · exact h

theorem inv_init (hw : (writers true a).Init w) : Inv a w := by
  obtain ⟨hk, hscopes, hj, hc⟩ := hw
  exact ⟨⟨hk, by simp [Kernel.Apart, hscopes]⟩, by simp [Good, hj], by simp [hc]⟩

theorem inv_step {e : Call × List Choice} (h : Inv a w)
    (hstep : (writers true a).step w e = some w') : Inv a w' := by
  obtain ⟨call, cs⟩ := e
  cases call with
  | prepare native service kind username parent =>
    cases hstep
    obtain ⟨hr, hc⟩ := prepare_spec native service kind username parent h.sound cs
    exact (h.moves hr.moves).note fun c h => hc _ h c rfl
  | register c =>
    simp only [writers] at hstep
    split at hstep
    · rename_i hc
      cases hstep
      exact h.moves (register_spec h.sound h.good (h.callers c hc) cs).1
    · cases hstep
  | absent =>
    cases hstep
    exact h.moves (reads_of_asks absent_asks w cs).1.moves
  | drain =>
    cases hstep
    exact h.moves (reads_of_asks drain_asks w cs).1.moves

/-- Every persisted journal is read back, and no process number stands in it twice. -/
theorem login_writer_journal_closed (h : (writers true a).Reachable w) :
    (∃ j, readStored a w.journal = .ok j) ∧
      ∀ j, w.journal = some j → readStored a (some j) = .ok j ∧
        (j.writers.map (·.process.pid)).Nodup := by
  have hinv : Inv a w :=
    h.invariant (P := Inv a) (fun _ => inv_init) fun _ _ _ _ hi hs => inv_step hi hs
  have hread : ∀ j, w.journal = some j → readStored a (some j) = .ok j := by
    intro j hj
    obtain ⟨hfits, hready⟩ := hinv.good j hj
    simp only [readStored, seq_eq_ok, ensure_eq_ok, check_eq_ok]
    exact ⟨hfits, hready.accepted, rfl⟩
  refine ⟨?_, fun j hj => ⟨hread j hj, (hinv.good j hj).2.accepted.nodup⟩⟩
  cases hj : w.journal with
  | none => exact ⟨_, rfl⟩
  | some j => exact ⟨j, hread j hj⟩

end Runs

def sampleAccount : Account := ⟨"vca123456abcdef", 1001⟩

def sampleWorld : World where
  kernel := ⟨"0b000000-0000-4000-8000-000000000001", [], 0, 0, [], []⟩
  journal := none
  callers := []

theorem sampleWorld_init {guarded : Bool} : (writers guarded sampleAccount).Init sampleWorld :=
  ⟨⟨by simp [sampleWorld], by simp [sampleWorld], by simp [sampleWorld], by simp [sampleWorld],
    by simp [sampleWorld]⟩, rfl, rfl, rfl⟩

def sampleChoice (events : List KernelEvent) (sessionId : String) : Choice where
  events := events
  clock := 100
  agentFence := some ⟨1, identity sampleAccount, "lease_aaaaaaaa", 1, 1, 200, .opening⟩
  nativeFence := none
  sessionId := sessionId
  invocationId := replicate 16 7
  error := none
  applied := false
  answer := true

/-- A login whose process has the number 42 and the given start time, in a session of its own. -/
def sampleLogin (events : List KernelEvent) (sessionId : String) (ticks : ℕ) :
    List (Call × List Choice) :=
  [(.prepare false (some "xrdp-sesman") .auth sampleAccount.username 42,
      sampleChoice (events ++ [.start 42, .createScope 42 sessionId 5]) sessionId ::
        replicate 10 (sampleChoice [] sessionId)),
    (.register ⟨false, .auth, sampleAccount.username, 42, ticks, sampleWorld.kernel.boot⟩,
      replicate 30 (sampleChoice [] sessionId))]

def firstLogin : List (Call × List Choice) := sampleLogin [] "c1" 1

def secondLogin : List (Call × List Choice) := sampleLogin [.exit 42] "c2" 2

/-- A registered login is read back. -/
theorem login_writer_journal_closed_registered : ∃ w j, (writers true sampleAccount).Reachable w ∧
    w.journal = some j ∧ j.writers.length = 1 ∧ readStored sampleAccount (some j) = .ok j := by
  obtain ⟨w, hw, hj⟩ := Machine.exists_reachable_of_run (M := writers true sampleAccount)
    (P := fun w => w.journal.map (·.writers.length) = some 1)
    sampleWorld firstLogin sampleWorld_init (by decide +kernel)
  obtain ⟨j, hj, hlen⟩ := Option.map_eq_some_iff.mp hj
  exact ⟨w, j, hw, hj, hlen, ((login_writer_journal_closed hw).2 j hj).1⟩

/-- The number of a creator that is gone is registered again while its scope is populated. -/
theorem reused_pid_blocks_journal : ∃ w j, (writers false sampleAccount).Reachable w ∧
    w.journal = some j ∧ ¬ (j.writers.map (·.process.pid)).Nodup ∧
    readStored sampleAccount w.journal = .error (deny "duplicate login writer") := by
  obtain ⟨w, hw, hj, hread⟩ := Machine.exists_reachable_of_run (M := writers false sampleAccount)
    (P := fun w => w.journal.map (fun j => j.writers.map (·.process.pid)) = some [42, 42] ∧
      readStored sampleAccount w.journal = .error (deny "duplicate login writer"))
    sampleWorld (firstLogin ++ secondLogin) sampleWorld_init (by decide +kernel)
  obtain ⟨j, hj, hpids⟩ := Option.map_eq_some_iff.mp hj
  exact ⟨w, j, hw, hj, by simp [hpids], hread⟩

end VcWorkspace.Session.LoginWriters
