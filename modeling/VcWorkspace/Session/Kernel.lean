import Mathlib.Data.List.Basic

/-! # Processes and login scopes

What a kernel remembers of the processes and login scopes of a host. A process
number can be used again after its process has exited, and a scope may still be
populated when the process that created it is gone; start times and the inodes
of scopes are never used twice in one boot.
-/

namespace VcWorkspace.Session

open List

structure Process where
  pid : ℕ
  startTicks : ℕ
  deriving DecidableEq, Repr

structure KernelScope where
  sessionId : String
  device : ℕ
  inode : ℕ
  leader : Process
  populated : Bool
  deriving DecidableEq, Repr

structure Kernel where
  boot : String
  /-- The boots before this one. -/
  past : List String
  ticks : ℕ
  inodes : ℕ
  processes : List Process
  scopes : List KernelScope
  deriving DecidableEq, Repr

inductive KernelEvent
  | start (pid : ℕ)
  | exit (pid : ℕ)
  | createScope (pid : ℕ) (sessionId : String) (device : ℕ)
  | emptyScope (sessionId : String)
  | removeScope (sessionId : String)
  | reboot (boot : String)
  deriving DecidableEq, Repr

namespace Kernel

def reserved (k : Kernel) (pid : ℕ) : Bool :=
  k.scopes.any fun σ => σ.populated && σ.leader.pid == pid

/-- One event; with `guarded`, no process starts under a reserved number. -/
def step (guarded : Bool) (k : Kernel) : KernelEvent → Kernel
  | .start pid =>
    if k.processes.any (·.pid == pid) || guarded && k.reserved pid then k
    else { k with ticks := k.ticks + 1, processes := ⟨pid, k.ticks + 1⟩ :: k.processes }
  | .exit pid => { k with processes := k.processes.filter (·.pid != pid) }
  | .createScope pid sessionId device =>
    match k.processes.find? (·.pid == pid) with
    | none => k
    | some p =>
      if k.scopes.any (·.sessionId == sessionId) then k
      else { k with
        inodes := k.inodes + 1
        scopes := ⟨sessionId, device, k.inodes + 1, p, true⟩ :: k.scopes }
  | .emptyScope sessionId =>
    { k with scopes := k.scopes.map fun σ =>
        if σ.sessionId = sessionId then { σ with populated := false } else σ }
  | .removeScope sessionId =>
    { k with scopes := k.scopes.filter fun σ => σ.sessionId != sessionId || σ.populated }
  | .reboot boot =>
    if boot = k.boot ∨ boot ∈ k.past then k else ⟨boot, k.boot :: k.past, 0, 0, [], []⟩

def advance (guarded : Bool) (k : Kernel) (events : List KernelEvent) : Kernel :=
  events.foldl (step guarded) k

def Running (k : Kernel) (boot : String) (p : Process) : Prop := boot = k.boot ∧ p ∈ k.processes

/-- A scope of some boot and inode is populated, and this process created it. -/
def Populated (k : Kernel) (boot : String) (inode : ℕ) (leader : Process) : Prop :=
  boot = k.boot ∧ ∃ σ ∈ k.scopes, σ.inode = inode ∧ σ.leader = leader ∧ σ.populated = true

/-- A boot, and a start time or an inode of it that has already been given. -/
def Known (k : Kernel) (boot : String) (n : ℕ) (given : Kernel → ℕ) : Prop :=
  (boot = k.boot ∧ n ≤ given k) ∨ boot ∈ k.past

/-- What has been given stays given, and nothing that ended begins again. -/
structure Later (k k' : Kernel) : Prop where
  ticks : ∀ boot n, k.Known boot n Kernel.ticks → k'.Known boot n Kernel.ticks
  inodes : ∀ boot n, k.Known boot n Kernel.inodes → k'.Known boot n Kernel.inodes
  running : ∀ boot p, k.Known boot p.startTicks Kernel.ticks → k'.Running boot p → k.Running boot p
  populated : ∀ boot inode leader, k.Known boot inode Kernel.inodes →
    k'.Populated boot inode leader → k.Populated boot inode leader

instance : IsPreorder Kernel Later where
  refl _ := ⟨fun _ _ h => h, fun _ _ h => h, fun _ _ _ h => h, fun _ _ _ _ h => h⟩
  trans _ _ _ h h' := ⟨fun b n hk => h'.ticks b n (h.ticks b n hk),
    fun b n hk => h'.inodes b n (h.inodes b n hk),
    fun b p hk hr => h.running b p hk (h'.running b p (h.ticks _ _ hk) hr),
    fun b i l hk hp => h.populated b i l hk (h'.populated b i l (h.inodes _ _ hk) hp)⟩

structure WellFormed (k : Kernel) : Prop where
  fresh : k.boot ∉ k.past
  unique : ∀ p ∈ k.processes, ∀ q ∈ k.processes, p.pid = q.pid → p = q
  ticks : ∀ p ∈ k.processes, 0 < p.startTicks ∧ p.startTicks ≤ k.ticks
  inodes : ∀ σ ∈ k.scopes, σ.inode ≤ k.inodes
  leaders : ∀ σ ∈ k.scopes, ∀ τ ∈ k.scopes, σ.inode = τ.inode → σ.leader = τ.leader

/-- The processes that have the number of a creator of a populated scope are that creator. -/
def Apart (k : Kernel) : Prop :=
  ∀ σ ∈ k.scopes, σ.populated = true → ∀ p ∈ k.processes, p.pid = σ.leader.pid → p = σ.leader

section Steps

variable {k : Kernel} {guarded : Bool}

theorem WellFormed.step (h : k.WellFormed) (e : KernelEvent) : (k.step guarded e).WellFormed := by
  cases e with
  | start pid =>
    simp only [Kernel.step]
    split
    · exact h
    rename_i hfree
    simp only [Bool.or_eq_true, not_or, any_eq_true, not_exists, not_and, beq_iff_eq] at hfree
    refine ⟨h.fresh, ?_, ?_, h.inodes, h.leaders⟩
    · rintro p (_ | ⟨_, hp⟩) q (_ | ⟨_, hq⟩) hpid
      · rfl
      · exact absurd hpid.symm (hfree.1 q hq)
      · exact absurd hpid (hfree.1 p hp)
      · exact h.unique p hp q hq hpid
    · rintro p (_ | ⟨_, hp⟩)
      · exact ⟨Nat.succ_pos _, Nat.le_refl _⟩
      · exact ⟨(h.ticks p hp).1, Nat.le_succ_of_le (h.ticks p hp).2⟩
  | exit pid =>
    refine ⟨h.fresh, fun p hp q hq => ?_, fun p hp => ?_, h.inodes, h.leaders⟩
    · exact h.unique p (mem_filter.mp hp).1 q (mem_filter.mp hq).1
    · exact h.ticks p (mem_filter.mp hp).1
  | createScope pid sessionId device =>
    simp only [Kernel.step]
    split
    · exact h
    split
    · exact h
    have hnew : ∀ σ ∈ k.scopes, σ.inode ≠ k.inodes + 1 := fun σ hσ he =>
      Nat.not_succ_le_self _ (he ▸ h.inodes σ hσ)
    refine ⟨h.fresh, h.unique, h.ticks, ?_, ?_⟩
    · rintro σ (_ | ⟨_, hσ⟩)
      · exact Nat.le_refl _
      · exact Nat.le_succ_of_le (h.inodes σ hσ)
    · rintro σ (_ | ⟨_, hσ⟩) τ (_ | ⟨_, hτ⟩) he
      · rfl
      · exact absurd he.symm (hnew τ hτ)
      · exact absurd he (hnew σ hσ)
      · exact h.leaders σ hσ τ hτ he
  | emptyScope sessionId =>
    have hold : ∀ σ ∈ (k.step guarded (.emptyScope sessionId)).scopes,
        ∃ τ ∈ k.scopes, τ.inode = σ.inode ∧ τ.leader = σ.leader := fun σ hσ => by
      obtain ⟨τ, hτ, rfl⟩ := mem_map.mp hσ
      refine ⟨τ, hτ, ?_⟩
      split <;> exact ⟨rfl, rfl⟩
    refine ⟨h.fresh, h.unique, h.ticks, fun σ hσ => ?_, fun σ hσ τ hτ he => ?_⟩
    · obtain ⟨σ', hσ', hi, -⟩ := hold σ hσ
      exact hi ▸ h.inodes σ' hσ'
    · obtain ⟨σ', hσ', hi, hl⟩ := hold σ hσ
      obtain ⟨τ', hτ', hi', hl'⟩ := hold τ hτ
      rw [← hl, ← hl']
      exact h.leaders σ' hσ' τ' hτ' (by rw [hi, hi', he])
  | removeScope sessionId =>
    exact ⟨h.fresh, h.unique, h.ticks, fun σ hσ => h.inodes σ (mem_filter.mp hσ).1,
      fun σ hσ τ hτ => h.leaders σ (mem_filter.mp hσ).1 τ (mem_filter.mp hτ).1⟩
  | reboot boot =>
    simp only [Kernel.step]
    split
    · exact h
    · rename_i hnew
      rw [not_or] at hnew
      exact ⟨by simp [hnew.1, hnew.2], by simp, by simp, by simp, by simp⟩

theorem Apart.step (h : k.Apart) (hw : k.WellFormed) (e : KernelEvent) : (k.step true e).Apart := by
  cases e with
  | start pid =>
    simp only [Kernel.step]
    split
    · exact h
    rename_i hfree
    simp only [Bool.or_eq_true, Bool.true_and, not_or, reserved, any_eq_true, not_exists,
      not_and, Bool.and_eq_true, beq_iff_eq] at hfree
    rintro σ hσ hpop p (_ | ⟨_, hp⟩) hpid
    · exact absurd hpid.symm (hfree.2 σ hσ hpop)
    · exact h σ hσ hpop p hp hpid
  | exit pid => exact fun σ hσ hpop p hp => h σ hσ hpop p (mem_filter.mp hp).1
  | createScope pid sessionId device =>
    simp only [Kernel.step]
    split
    · exact h
    rename_i leader hleader
    split
    · exact h
    rintro σ (_ | ⟨_, hσ⟩) hpop p hp hpid
    · exact hw.unique p hp leader (mem_of_find?_eq_some hleader) hpid
    · exact h σ hσ hpop p hp hpid
  | emptyScope sessionId =>
    intro σ hσ hpop p hp hpid
    obtain ⟨τ, hτ, rfl⟩ := mem_map.mp hσ
    split at hpop
    · cases hpop
    · rename_i hne
      simp only [if_neg hne] at hpid ⊢
      exact h τ hτ hpop p hp hpid
  | removeScope sessionId =>
    exact fun σ hσ hpop p hp => h σ (mem_filter.mp hσ).1 hpop p hp
  | reboot boot =>
    simp only [Kernel.step]
    split
    · exact h
    · simp [Apart]

theorem later_step (hw : k.WellFormed) (e : KernelEvent) : Later k (k.step guarded e) := by
  cases e with
  | start pid =>
    simp only [Kernel.step]
    split
    · exact refl k
    refine ⟨fun b n hk => hk.imp_left fun h => ⟨h.1, Nat.le_succ_of_le h.2⟩, fun _ _ hk => hk,
      ?_, fun _ _ _ _ hp => hp⟩
    rintro b p hk ⟨hb, _ | ⟨_, hp⟩⟩
    · rcases hk with ⟨-, hle⟩ | hpast
      · exact absurd hle (Nat.not_succ_le_self _)
      · exact absurd (hb ▸ hpast) hw.fresh
    · exact ⟨hb, hp⟩
  | exit pid =>
    exact ⟨fun _ _ hk => hk, fun _ _ hk => hk,
      fun _ _ _ hr => ⟨hr.1, (mem_filter.mp hr.2).1⟩, fun _ _ _ _ hp => hp⟩
  | createScope pid sessionId device =>
    simp only [Kernel.step]
    split
    · exact refl k
    split
    · exact refl k
    refine ⟨fun _ _ hk => hk, fun b n hk => hk.imp_left fun h => ⟨h.1, Nat.le_succ_of_le h.2⟩,
      fun _ _ _ hr => hr, ?_⟩
    rintro b i l hk ⟨hb, σ, _ | ⟨_, hσ⟩, rfl, hrest⟩
    · rcases hk with ⟨-, hle⟩ | hpast
      · exact absurd hle (Nat.not_succ_le_self _)
      · exact absurd (hb ▸ hpast) hw.fresh
    · exact ⟨hb, σ, hσ, rfl, hrest⟩
  | emptyScope sessionId =>
    refine ⟨fun _ _ hk => hk, fun _ _ hk => hk, fun _ _ _ hr => hr, ?_⟩
    rintro b i l hk ⟨hb, σ, hσ, rfl, rfl, hpop⟩
    obtain ⟨τ, hτ, rfl⟩ := mem_map.mp hσ
    split at hpop
    · cases hpop
    · rename_i hne
      simp only [if_neg hne]
      exact ⟨hb, τ, hτ, rfl, rfl, hpop⟩
  | removeScope sessionId =>
    refine ⟨fun _ _ hk => hk, fun _ _ hk => hk, fun _ _ _ hr => hr, ?_⟩
    rintro b i l hk ⟨hb, σ, hσ, hrest⟩
    exact ⟨hb, σ, (mem_filter.mp hσ).1, hrest⟩
  | reboot boot =>
    simp only [Kernel.step]
    split
    · exact refl k
    have hpast : ∀ b n given, k.Known b n given → b ∈ k.boot :: k.past := fun b n given hk =>
      hk.elim (fun h => by simp [h.1]) fun h => mem_cons_of_mem _ h
    exact ⟨fun b n hk => .inr (hpast b n _ hk), fun b n hk => .inr (hpast b n _ hk),
      fun _ _ _ hr => by simp [Running] at hr, fun _ _ _ _ hp => by simp [Populated] at hp⟩

theorem WellFormed.advance (h : k.WellFormed) (events : List KernelEvent) :
    (k.advance guarded events).WellFormed := by
  induction events generalizing k with
  | nil => exact h
  | cons e rest ih => exact ih (h.step e)

theorem Apart.advance (h : k.Apart) (hw : k.WellFormed) (events : List KernelEvent) :
    (k.advance true events).Apart := by
  induction events generalizing k with
  | nil => exact h
  | cons e rest ih => exact ih (h.step hw e) (hw.step e)

theorem later_advance (hw : k.WellFormed) (events : List KernelEvent) :
    Later k (k.advance guarded events) := by
  induction events generalizing k with
  | nil => exact refl k
  | cons e rest ih => exact IsTrans.trans _ _ _ (later_step hw e) (ih (hw.step e))

end Steps

structure Recorded (k : Kernel) (boot : String) (p : Process) (inode : Option ℕ) : Prop where
  known : k.Known boot p.startTicks Kernel.ticks
  scope : ∀ i ∈ inode, k.Known boot i Kernel.inodes ∧
    ∀ leader, k.Populated boot i leader → leader = p

variable {k k' : Kernel} {boot : String} {p q : Process} {inode : Option ℕ}

theorem Recorded.later (h : k.Recorded boot p inode) (hl : Later k k') :
    k'.Recorded boot p inode := by
  refine ⟨hl.ticks _ _ h.known, fun i hi => ?_⟩
  obtain ⟨hk, hlead⟩ := h.scope i hi
  exact ⟨hl.inodes _ _ hk, fun l hp => hlead l (hl.populated _ _ _ hk hp)⟩

theorem Recorded.eq_of_live (h : k.Recorded boot p inode) (hw : k.WellFormed) (ha : k.Apart)
    {b : String} (hq : k.Running b q) (hpid : p.pid = q.pid) (hl : Later k k')
    (hlive : k'.Running boot p ∨ ∃ i ∈ inode, ∃ leader, k'.Populated boot i leader) :
    boot = b ∧ p = q := by
  rcases hlive with hrun | ⟨i, hi, leader, hpop⟩
  · obtain ⟨hb, hp⟩ := hl.running _ _ h.known hrun
    exact ⟨hb.trans hq.1.symm, hw.unique p hp q hq.2 hpid⟩
  · obtain ⟨hk, hlead⟩ := h.scope i hi
    have hpop := hl.populated _ _ _ hk hpop
    obtain rfl := hlead leader hpop
    obtain ⟨hb, σ, hσ, -, rfl, hpopσ⟩ := hpop
    exact ⟨hb.trans hq.1.symm, (ha σ hσ hpopσ q hq.2 hpid.symm).symm⟩

end Kernel

end VcWorkspace.Session
