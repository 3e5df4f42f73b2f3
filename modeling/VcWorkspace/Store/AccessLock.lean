import VcWorkspace.Store.Reservation
import VcWorkspace.Transition.Table
import VcWorkspace.Transition.Waiting

/-! # The order of the authorization lock

Most transactions take the authorization lock before anything else. The updates
that run on their own lock the tuple of a lease or of an account first, and the
row trigger then waits for the authorization lock. The two orders meet: a holder
of the lock may wait for the tuple while its owner waits for the lock. Nothing else
leads to a deadlock.
-/

namespace VcWorkspace.Store.AccessLock

open Transition ReadCommitted Waiting Reservation Option

section Model

/-- The advisory lock 72914405, or the lock of a tuple. -/
inductive Lock
  | access
  | row (key : RowKey)
  deriving DecidableEq

def guarded : RowKey → Bool
  | .lease _ | .account _ _ => true
  | .connection _ => false

inductive Op
  | store (op : StoreOp)
  /-- The epoch of the lease and what other tables say about it are part of the operation. -/
  | beginAgentGuestSession (leaseId agentId : String) (allowed : Bool)
  /-- Any other transaction that takes the advisory lock. -/
  | accessChange

/-- A single update of leases or accounts, which takes the advisory lock in its trigger only. -/
def autocommit : Op → Bool
  | .store (.releaseDesktopLease _) | .store (.revokeDesktopLeases _)
  | .store (.queueExpiredComputerLeases _) | .store (.queueAgentGuestSessionRevocation _ _)
  | .store (.retireNativeGuestCredential _ _) | .store (.revokeNativeGuestAccount _ _) => true
  | _ => false

variable (sha256 : Sha256)

def statements (op : Op) : List (Stmt RowKey Row) :=
  match op with
  | .store o => if autocommit op then (program sha256 o).tail else program sha256 o
  | .beginAgentGuestSession id agentId allowed =>
    -- FOR UPDATE OF l locks the lease as it is
    [.lock, .lower (fun now _ r => match r with
        | .lease _ l => allowed && l.id == id && l.agentId == agentId && l.state == .active &&
            now < l.expiresAt
        | _ => false)
      (fun _ r => r)]
  | .accessChange => [.lock]

/-- The transactions, their operations and their locks. -/
structure World where
  sys : System RowKey Row
  ops : List Op
  table : List (Party Lock)

def locks (s : System RowKey Row) (t : Tx RowKey Row) (k : RowKey) : Stmt RowKey Row → Bool
  | .lower p _ => (schema.overlay s.db t.writes).any fun r =>
      decide (r.key = k) && p t.started (schema.overlay s.db t.writes) r
  | .write k' _ => decide (k' = k) && (schema.overlay s.db t.writes).any fun r => r.key = k
  | _ => false

/-- What a transaction may ask for next. The trigger of a locked row asks for the advisory lock
before another row is locked. -/
def World.asks (w : World) (t : Tx RowKey Row) (p : Party Lock) : Lock → Bool
  | .access => (t.program.head?.any fun | .lock => true | _ => false) || !p.held.isEmpty
  | .row k => guarded k && (p.held.isEmpty || decide (Lock.access ∈ p.held)) &&
      t.program.head?.any (locks w.sys t k)

def mayRun (t : Tx RowKey Row) (p : Party Lock) : ReadCommitted.Event Op Row → Bool
  | .lock _ | .insert _ => decide (Lock.access ∈ p.held)
  | .lower _ r =>
    !guarded r.key || (decide (Lock.row r.key ∈ p.held) && decide (Lock.access ∈ p.held))
  | .write _ => t.program.head?.any fun
    | .write k _ =>
      !guarded k || (decide (Lock.row k ∈ p.held) && decide (Lock.access ∈ p.held))
    | _ => false
  | _ => true

def World.ready (w : World) (i : ℕ) (e : ReadCommitted.Event Op Row) : Bool :=
  (w.sys.txs[i]?).any fun t => (w.table[i]?).any fun p => p.wants.isNone && mayRun t p e

inductive Event
  | request (i : ℕ) (l : Lock)
  | grant (i : ℕ)
  | run (e : ReadCommitted.Event Op Row)

/-- The table of locks after a step of a transaction. Locks last until its end. -/
def World.after (w : World) (e : ReadCommitted.Event Op Row) : Option (List (Party Lock)) :=
  match e with
  | .tick _ => some w.table
  | .start _ => some (join w.table)
  | .abort i => some (release w.table i)
  | .commit i => if w.ready i e then some (release w.table i) else none
  | .snapshot i | .lock i | .guard i | .next i | .write i | .insert i | .lower i _ =>
    if w.ready i e then some w.table else none

def World.started (w : World) : ReadCommitted.Event Op Row → List Op
  | .start op => w.ops ++ [op]
  | _ => w.ops

def World.step (w : World) : Event → Option World
  | .request i l => (w.sys.txs[i]?).bind fun t => (w.table[i]?).bind fun p =>
      if w.asks t p l then (request w.table i l).map ({ w with table := · }) else none
  | .grant i => (grant w.table i).map ({ w with table := · })
  | .run e => (ReadCommitted.step schema (statements sha256) w.sys e).bind fun sys =>
      (w.after e).map fun table => ⟨sys, w.started e, table⟩

/-- The store with the locks of its transactions, over any committed rows. -/
def accessLock : Machine World Event where
  Init w := w.sys.holder = none ∧ w.sys.txs = [] ∧ w.ops = [] ∧ w.table = []
  step := World.step sha256

/-- No cyclic wait, and no transaction waits for the advisory lock with a row for which its holder
waits. -/
structure World.Unblocked (w : World) : Prop where
  acyclic : ¬ CyclicWait w.table
  rows : ∀ i j k, wants w.table i .access = true → holds w.table i (.row k) = true →
    holds w.table j .access = true → wants w.table j (.row k) = false

def World.single (w : World) (i : ℕ) : Bool := (w.ops[i]?).any autocommit

/-- A single update whose trigger has yet to get the advisory lock. -/
def World.early (w : World) (i : ℕ) : Bool := w.single i && !holds w.table i .access

/-- The holder of the advisory lock asks for no row of an early update, and no early update gets a
row that the holder waits for. -/
def World.calm (w : World) : Event → Bool
  | .request i l => decide (holds w.table i .access = true →
      ∀ j < w.table.length, w.early j = true → holds w.table j l = false)
  | .grant i => decide (w.early i = true → ∀ j < w.table.length, holds w.table j .access = true →
      ∀ l ∈ (w.table[i]?).bind (·.wants), wants w.table j l = false)
  | .run _ => true

def calmStore : Machine World Event := (accessLock sha256).restrict World.calm

/-- Only transactions that take the advisory lock first are started. -/
def lockFirst : Event → Bool
  | .run (.start op) => !autocommit op
  | _ => true

def lockFirstStore : Machine World Event := (accessLock sha256).restrict fun _ e => lockFirst e

end Model

variable {sha256 : Sha256} {w w' : World} {e : Event}

section Order

/-- The program takes the lock at its start, or it never locks a guarded row. -/
def LocksFirst (prog : List (Stmt RowKey Row)) : Prop :=
  prog.head? = some .lock ∨
    ∀ stmt ∈ prog, ∀ s t k, guarded k = true → locks s t k stmt = false

theorem locks_updateConnections (p : DesktopConnectionSession → Bool)
    (f : ℕ → DesktopConnectionSession → DesktopConnectionSession) (s : System RowKey Row)
    (t : Tx RowKey Row) (k : RowKey) (hk : guarded k = true) :
    locks s t k (updateConnections p f) = false := by
  simp only [locks, updateConnections, List.any_eq_false, Bool.and_eq_true, decide_eq_true_eq,
    not_and]
  rintro r - rfl
  cases r with
  | lease | account => simp
  | connection c b => cases hk

theorem locksFirst_statements {op : Op} (h : autocommit op = false) :
    LocksFirst (statements sha256 op) := by
  cases op with
  | beginAgentGuestSession | accessChange => exact .inl rfl
  | store op =>
    simp only [statements, h, Bool.false_eq_true, if_false]
    cases op with
    | beginRevokeDesktopConnections | beginRevokeUserDesktopConnections
    | beginRevokeDesktopConnection | markDesktopConnectionClosed =>
      right
      intro stmt hstmt s t k hk
      obtain rfl := List.mem_singleton.mp hstmt
      exact locks_updateConnections _ _ s t k hk
    | bindNativeGuestAccount env a digest pinned =>
      left
      simp only [program, Reservation.bindNativeGuestAccount]
      split <;> rfl
    | completeNativeGuestAccountOperation env a connection digest =>
      left
      simp only [program, Reservation.completeNativeGuestAccountOperation]
      split <;> rfl
    | _ => exact .inl rfl

/-- The advisory lock is the gate. Who is no single update has passed it or has yet to ask for
it. -/
structure Ordered (w : World) : Prop where
  gated : Gated .access (fun i => w.single i = true) w.table
  rest : ∀ (i : ℕ) (t : Tx RowKey Row), w.sys.txs[i]? = some t →
    w.single i = true ∨ holds w.table i .access = true ∨ LocksFirst t.program
  ops : w.ops.length = w.sys.txs.length
  table : w.table.length = w.sys.txs.length

theorem LocksFirst.asks {t : Tx RowKey Row} (h : LocksFirst t.program) (p : Party Lock)
    (k : RowKey) : w.asks t p (.row k) = false := by
  rw [World.asks, Bool.and_eq_false_imp, Bool.and_eq_true]
  rintro ⟨hk, -⟩
  rcases h with hlock | hnone
  · rw [hlock]
    rfl
  · cases hp : t.program.head? with
    | none => rfl
    | some stmt => exact hnone stmt (List.mem_of_mem_head? hp) w.sys t k hk

theorem LocksFirst.tail {stmt : Stmt RowKey Row} {rest : List (Stmt RowKey Row)}
    (h : LocksFirst (stmt :: rest)) (hne : stmt ≠ .lock) : LocksFirst rest := by
  rcases h with hlock | hnone
  · exact absurd (some.inj hlock) hne
  · exact .inr fun stmt' hmem => hnone stmt' (List.mem_cons_of_mem _ hmem)

theorem ready_lock {i : ℕ} (h : w.ready i (.lock i) = true) : holds w.table i .access = true := by
  simp only [World.ready, any_eq_true, mayRun, Bool.and_eq_true, decide_eq_true_eq] at h
  obtain ⟨-, -, p, hp, -, ha⟩ := h
  exact holds_eq_true.mpr ⟨p, hp, ha⟩

/-- One transaction takes a step. The locks of the others stay, and it has passed the gate or has
yet to ask for it. -/
theorem Ordered.set {x : Tx RowKey Row} {db : List Row} {holder : Option ℕ} {T : List (Party Lock)}
    {i : ℕ} (h : Ordered w) (hT : Gated .access (fun i => w.single i = true) T)
    (hlength : T.length = w.table.length)
    (hothers : ∀ j, j ≠ i → holds w.table j .access = true → holds T j .access = true)
    (hx : w.single i = true ∨ holds T i .access = true ∨ LocksFirst x.program) :
    Ordered ⟨{ w.sys with db := db, holder := holder, txs := w.sys.txs.set i x }, w.ops, T⟩ where
  gated := hT
  rest j u hu := by
    rcases getElem?_set_cases hu with ⟨rfl, rfl⟩ | ⟨hij, hu⟩
    · exact hx
    · exact (h.rest j u hu).imp_right (Or.imp_left (hothers j hij))
  ops := by simpa using h.ops
  table := by simpa using hlength.trans h.table

theorem single_start {op : Op} {sys : System RowKey Row} {T : List (Party Lock)} {i : ℕ}
    (h : w.single i = true) : World.single ⟨sys, w.ops ++ [op], T⟩ i = true := by
  obtain ⟨o, ho, hauto⟩ := (any_eq_true _ _).mp h
  have hlt := (List.getElem?_eq_some_iff.mp ho).1
  simpa [World.single, List.getElem?_append_left hlt] using h

theorem Ordered.start {op : Op} {x : Tx RowKey Row} (h : Ordered w)
    (hx : x.program = statements sha256 op) :
    Ordered ⟨{ w.sys with txs := w.sys.txs ++ [x] }, w.ops ++ [op], join w.table⟩ where
  gated := h.gated.join fun _ => single_start
  rest j u hu := by
    rw [holds_join]
    rcases getElem?_concat_cases hu with hu | ⟨rfl, rfl⟩
    · exact (h.rest j u hu).imp_left single_start
    · cases hauto : autocommit op with
      | true => exact .inl (by simp [World.single, ← h.ops, hauto])
      | false => exact .inr (.inr (hx ▸ locksFirst_statements hauto))
  ops := by simpa using h.ops
  table := by simpa [Waiting.join] using h.table

theorem Ordered.run {sys : System RowKey Row} {e : ReadCommitted.Event Op Row}
    {T : List (Party Lock)} (h : Ordered w)
    (hsys : ReadCommitted.step schema (statements sha256) w.sys e = some sys)
    (hT : w.after e = some T) : Ordered ⟨sys, w.started e, T⟩ := by
  have hkeep {x : Tx RowKey Row} {holder : Option ℕ} {i : ℕ}
      (hx : w.single i = true ∨ holds w.table i .access = true ∨ LocksFirst x.program) :
      Ordered ⟨{ w.sys with holder := holder, txs := w.sys.txs.set i x }, w.ops, w.table⟩ :=
    h.set h.gated rfl (fun _ _ hj => hj) hx
  have htail {t : Tx RowKey Row} {stmt : Stmt RowKey Row} {rest : List (Stmt RowKey Row)} {i : ℕ}
      (ht : w.sys.txs[i]? = some t) (hp : t.program = stmt :: rest) (hne : stmt ≠ .lock) :
      w.single i = true ∨ holds w.table i .access = true ∨ LocksFirst rest :=
    (h.rest i t ht).imp_right (Or.imp_right fun hl => (hp ▸ hl).tail hne)
  have hend (t : Tx RowKey Row) (i : ℕ) (db : List Row) (holder : Option ℕ) :
      Ordered ⟨{ w.sys with db := db, holder := holder, txs := w.sys.txs.set i t.over }, w.ops,
        release w.table i⟩ := by
    refine h.set (h.gated.release i) (List.length_set ..) (fun j hji hj => ?_)
      (.inr (.inr (.inr nofun)))
    rw [holds_release, Bool.and_eq_true]
    exact ⟨decide_eq_true hji, hj⟩
  cases steps_of_step hsys with
  | tick =>
    cases hT
    exact ⟨h.gated, h.rest, h.ops, h.table⟩
  | start =>
    cases hT
    exact h.start rfl
  | abort =>
    cases hT
    exact hend _ _ _ _
  | commit =>
    cases (ite_none_right_eq_some.mp hT).2
    exact hend _ _ _ _
  | lock =>
    obtain ⟨hready, hT⟩ := ite_none_right_eq_some.mp hT
    cases hT
    exact hkeep (.inr (.inl (ready_lock hready)))
  | snapshot ht =>
    cases (ite_none_right_eq_some.mp hT).2
    have hrest := h.rest _ _ ht
    exact hkeep hrest
  | guard ht hp | next ht hp =>
    cases (ite_none_right_eq_some.mp hT).2
    exact hkeep (htail ht hp nofun)
  | @update e i t r t' ht he =>
    obtain ⟨rfl, hops⟩ : T = w.table ∧ w.started e = w.ops := by
      cases e with
      | lower | write | insert =>
        cases (ite_none_right_eq_some.mp hT).2
        exact ⟨rfl, rfl⟩
      | _ => cases he
    rw [hops]
    have hw : Writes schema w.sys t r t' := writes_of_effect he
    have hrest := h.rest _ _ ht
    cases hw with
    | lower => exact hkeep hrest
    | write hp | insert hp => exact hkeep (htail ht hp nofun)

theorem early_eq_true {i : ℕ} :
    w.early i = true ↔ w.single i = true ∧ holds w.table i .access = false := by
  simp [World.early]

theorem calm_request {i : ℕ} {l : Lock} : w.calm (.request i l) = true ↔
    (holds w.table i .access = true → ∀ j, w.early j = true → holds w.table j l = false) := by
  simp only [World.calm, decide_eq_true_eq]
  constructor
  · intro h hi j hearly
    by_contra hj
    rw [Bool.not_eq_false] at hj
    rw [h hi j (lt_of_holds hj) hearly] at hj
    cases hj
  · intro h hi j _
    exact h hi j

theorem calm_grant {i : ℕ} : w.calm (.grant i) = true ↔ (w.early i = true → ∀ j l,
    wants w.table i l = true → holds w.table j .access = true → wants w.table j l = false) := by
  simp only [World.calm, decide_eq_true_eq, mem_def, bind_eq_some_iff, ← wants_eq_true]
  constructor
  · intro h hearly j l hw hj
    exact h hearly j (lt_of_holds hj) hj l hw
  · intro h hearly j _ hj l hw
    exact h hearly j l hw hj

theorem step_request {i : ℕ} {l : Lock} (hs : w.step sha256 (.request i l) = some w') :
    ∃ t p T, w.sys.txs[i]? = some t ∧ w.table[i]? = some p ∧ w.asks t p l = true ∧
      request w.table i l = some T ∧ w' = { w with table := T } := by
  obtain ⟨t, ht, hs⟩ := bind_eq_some_iff.mp hs
  obtain ⟨p, hp, hs⟩ := bind_eq_some_iff.mp hs
  split at hs
  next hasks =>
    obtain ⟨T, hT, rfl⟩ := map_eq_some_iff.mp hs
    exact ⟨t, p, T, ht, hp, hasks, hT, rfl⟩
  · cases hs

theorem Ordered.request {i : ℕ} {l : Lock} (h : Ordered w) (hcalm : w.calm (.request i l) = true)
    (hs : w.step sha256 (.request i l) = some w') : Ordered w' := by
  obtain ⟨t, p, T, ht, hp, hasks, hT, rfl⟩ := step_request hs
  refine ⟨h.gated.request hT (fun hl => ?_) (fun hl l' hl' => ?_) (fun hi j hsingle hj => ?_),
    fun j u hu => ?_, h.ops, (length_request hT).trans h.table⟩
  · rcases h.rest i t ht with hsingle | hheld | hlocks
    · exact .inl hsingle
    · exact .inr hheld
    · cases l with
      | access => exact absurd rfl hl
      | row k => simp [hlocks.asks p k] at hasks
  · cases l with
    | access => exact absurd rfl hl
    | row k =>
      obtain ⟨q, hq, hheld⟩ := holds_eq_true.mp hl'
      rw [hp] at hq
      cases hq
      -- the trigger of the locked row comes first
      simp only [World.asks, Bool.and_eq_true, Bool.or_eq_true, List.isEmpty_iff,
        List.ne_nil_of_mem hheld, false_or, decide_eq_true_eq] at hasks
      exact holds_eq_true.mpr ⟨p, hp, hasks.1.2⟩
  · by_contra haccess
    have hearly := early_eq_true.mpr ⟨hsingle, Bool.eq_false_iff.mpr haccess⟩
    simp [calm_request.mp hcalm hi j hearly] at hj
  · rw [holds_request hT]
    exact h.rest j u hu

theorem Ordered.grant {i : ℕ} (h : Ordered w) (hcalm : w.calm (.grant i) = true)
    (hs : w.step sha256 (.grant i) = some w') : Ordered w' := by
  obtain ⟨T, hT, rfl⟩ := map_eq_some_iff.mp hs
  refine ⟨h.gated.grant hT fun hsingle hi => calm_grant.mp hcalm (early_eq_true.mpr ⟨hsingle, hi⟩),
    fun j u hu => ?_, h.ops, (length_grant hT).trans h.table⟩
  obtain ⟨l, -, -, hholds, -⟩ := grant_eq_some hT
  refine (h.rest j u hu).imp_right (Or.imp_left fun hj => ?_)
  simp [hholds, hj]

theorem ordered_of_reachable (h : (calmStore sha256).Reachable w) : Ordered w := by
  refine h.invariant ?_ ?_
  · rintro w ⟨-, htxs, hops, hT⟩
    refine ⟨?_, by simp [htxs], by simp [htxs, hops], by simp [htxs, hT]⟩
    constructor <;> simp [hT, holds, wants]
  · intro w e w' _ ho hstep
    obtain ⟨hcalm, hs⟩ := Machine.step_restrict.mp hstep
    change w.step sha256 e = some w' at hs
    cases e with
    | request i l => exact ho.request hcalm hs
    | grant i => exact ho.grant hcalm hs
    | run e =>
      obtain ⟨sys, hsys, hs⟩ := bind_eq_some_iff.mp hs
      obtain ⟨T, hT, rfl⟩ := map_eq_some_iff.mp hs
      exact ho.run hsys hT

theorem Ordered.unblocked (h : Ordered w) : w.Unblocked where
  acyclic := h.gated.acyclic
  rows i j k hi hrow hj := by
    -- the holder of the advisory lock is the owner of the row, and it wants one lock only
    by_contra hw
    rw [Bool.not_eq_false] at hw
    obtain rfl := h.gated.patient j i _ hj hw hrow
    cases wants_unique hi hw

end Order

section Results

theorem ops_of_step (hs : w.step sha256 e = some w') :
    w'.ops = w.ops ∨ ∃ op, e = .run (.start op) ∧ w'.ops = w.ops ++ [op] := by
  cases e with
  | request i l =>
    obtain ⟨-, -, T, -, -, -, -, rfl⟩ := step_request hs
    exact .inl rfl
  | grant i =>
    obtain ⟨T, -, rfl⟩ := map_eq_some_iff.mp hs
    exact .inl rfl
  | run e =>
    obtain ⟨sys, -, hs⟩ := bind_eq_some_iff.mp hs
    obtain ⟨T, -, rfl⟩ := map_eq_some_iff.mp hs
    cases e with
    | start op => exact .inr ⟨op, rfl, rfl⟩
    | _ => exact .inl rfl

/-- The condition is about single updates only. -/
theorem calm_of_ops (h : ∀ op ∈ w.ops, autocommit op = false) (e : Event) : w.calm e = true := by
  have hearly : ∀ i, w.early i = false := by
    intro i
    rw [World.early, World.single, Bool.and_eq_false_imp, any_eq_true]
    rintro ⟨op, hop, hauto⟩
    simp [h op (List.mem_of_getElem? hop)] at hauto
  cases e with
  | request i l => simp [calm_request, hearly]
  | grant i => simp [calm_grant, hearly]
  | run e => rfl

theorem unblocked_of_lockFirst (h : (lockFirstStore sha256).Reachable w) : w.Unblocked := by
  have hcalm : (calmStore sha256).Reachable w ∧ ∀ op ∈ w.ops, autocommit op = false := by
    refine h.invariant (P := fun w => (calmStore sha256).Reachable w ∧
      ∀ op ∈ w.ops, autocommit op = false) ?_ ?_
    · intro w hw
      exact ⟨.init hw, by simp [hw.2.2.1]⟩
    · rintro w e w' - ⟨hr, hops⟩ hstep
      obtain ⟨hfirst, hs⟩ := Machine.step_restrict.mp hstep
      refine ⟨hr.step (Machine.step_restrict.mpr ⟨calm_of_ops hops e, hs⟩), fun op hop => ?_⟩
      obtain heq | ⟨new, rfl, heq⟩ := ops_of_step hs
      · exact hops op (heq ▸ hop)
      · rw [heq, List.mem_append, List.mem_singleton] at hop
        rcases hop with hop | rfl
        · exact hops op hop
        · simpa [lockFirst] using hfirst
  exact (ordered_of_reachable hcalm.1).unblocked

/-- A cyclic wait, or one after a further request for the advisory lock. -/
def Doomed (sha256 : Sha256) (w : World) : Prop :=
  CyclicWait w.table ∨
    ∃ i w', (accessLock sha256).step w (.request i .access) = some w' ∧ CyclicWait w'.table

/-- An early update has a row for which the holder of the advisory lock waits. It waits for the
holder too, or does so with its next request. -/
theorem doomed_of_crossed {i j : ℕ} {k : RowKey} (hlength : w.table.length = w.sys.txs.length)
    (hrow : holds w.table i (.row k) = true) (hi : holds w.table i .access = false)
    (honly : ∀ l, wants w.table i l = true → l = .access)
    (hj : holds w.table j .access = true) (hwants : wants w.table j (.row k) = true) :
    Doomed sha256 w := by
  have hne : i ≠ j := by
    rintro rfl
    simp [hi] at hj
  obtain ⟨p, hp, hheld⟩ := holds_eq_true.mp hrow
  cases hw : p.wants with
  | some l =>
    have hwaits := wants_eq_true.mpr ⟨p, hp, hw⟩
    obtain rfl := honly l hwaits
    exact .inl ⟨i, .tail (.single ⟨hne, .access, hwaits, hj⟩) ⟨hne.symm, _, hwants, hrow⟩⟩
  | none =>
    have hlt : i < w.sys.txs.length := hlength ▸ lt_of_holds hrow
    have hasks : w.asks w.sys.txs[i] p .access = true := by
      simp [World.asks, List.ne_nil_of_mem hheld]
    have hnot : Lock.access ∉ p.held := by
      intro ha
      simp [holds_eq_true.mpr ⟨p, hp, ha⟩] at hi
    have hrequest : Waiting.request w.table i .access =
        some (w.table.set i { p with wants := some .access }) := by
      simp [Waiting.request, hp, hw, hnot]
    have hstep : w.step sha256 (.request i .access) =
        some { w with table := w.table.set i { p with wants := some .access } } := by
      simp [World.step, hp, hlt, hasks, hrequest]
    refine .inr ⟨i, _, hstep, i, .tail (.single ⟨hne, .access, ?_, ?_⟩) ⟨hne.symm, .row k, ?_, ?_⟩⟩
    all_goals simp [holds_request hrequest, wants_request hrequest, hne.symm, hj, hwants, hrow]

theorem Ordered.doomed_of_request {i : ℕ} {l : Lock} (h : Ordered w)
    (hs : w.step sha256 (.request i l) = some w') (hcalm : w.calm (.request i l) = false) :
    Doomed sha256 w' := by
  rw [← Bool.not_eq_true, calm_request] at hcalm
  push Not at hcalm
  obtain ⟨hi, j, hearly, hj⟩ := hcalm
  rw [Bool.ne_false_iff] at hj
  obtain ⟨-, hlate⟩ := early_eq_true.mp hearly
  obtain ⟨-, -, T, -, -, -, hT, rfl⟩ := step_request hs
  have hji : j ≠ i := by
    rintro rfl
    simp [hi] at hlate
  cases l with
  | access => simp [hj] at hlate
  | row k =>
    refine doomed_of_crossed (w := { w with table := T }) (i := j) (j := i) (k := k)
      ((length_request hT).trans h.table) ?_ ?_ (fun m hm => ?_) ?_ ?_
    · simp [holds_request hT, hj]
    · simp [holds_request hT, hlate]
    · by_contra hne
      rw [wants_request hT, if_neg hji] at hm
      simp [h.gated.first j m _ hne hm hj] at hlate
    · simp [holds_request hT, hi]
    · simp [wants_request hT]

theorem Ordered.doomed_of_grant {i : ℕ} (h : Ordered w)
    (hs : w.step sha256 (.grant i) = some w') (hcalm : w.calm (.grant i) = false) :
    Doomed sha256 w' := by
  rw [← Bool.not_eq_true, calm_grant] at hcalm
  push Not at hcalm
  obtain ⟨hearly, j, l, hw, hj, hwj⟩ := hcalm
  rw [Bool.ne_false_iff] at hwj
  obtain ⟨-, hlate⟩ := early_eq_true.mp hearly
  obtain ⟨T, hT, rfl⟩ := map_eq_some_iff.mp hs
  obtain ⟨m, hm, hfree, hholds, hwants⟩ := grant_eq_some hT
  obtain rfl := wants_unique hw hm
  have hji : j ≠ i := by
    rintro rfl
    simp [hj] at hlate
  cases l with
  | access => exact absurd (hfree j hj) hji
  | row k =>
    refine doomed_of_crossed (w := { w with table := T }) (i := i) (j := j) (k := k)
      ((length_grant hT).trans h.table) ?_ ?_ ?_ ?_ ?_
    all_goals simp [hholds, hwants, hlate, hj, hwj, hji]

/-- Deadlock freedom of the authorization lock, as long as its holder and the single updates do not
cross on a row. Each step that lets them cross ends in a cyclic wait, at the latest when the
trigger of the update asks for the lock. -/
theorem access_lock_deadlock_free (h : (calmStore sha256).Reachable w) : w.Unblocked ∧
    ∀ e w', (accessLock sha256).step w e = some w' → w.calm e = false → Doomed sha256 w' := by
  have hw := ordered_of_reachable h
  refine ⟨hw.unblocked, fun e w' hs hcalm => ?_⟩
  cases e with
  | request i l => exact hw.doomed_of_request hs hcalm
  | grant i => exact hw.doomed_of_grant hs hcalm
  | run e => cases hcalm

end Results

section Sample

def sampleRow : Lock := .row (.lease "lease_example")

/-- A lease is created; then its release and the disabling of an agent start. -/
def sampleStart (agent : String) : List Event :=
  [.run (.start (.store (.createDesktopLease true 100
      ⟨"lease_example", "agent", .active, 1, 5, Eq.refl true⟩))),
    .request 0 .access, .grant 0, .run (.lock 0), .run (.guard 0), .run (.next 0),
    .run (.snapshot 0), .run (.insert 0), .run (.commit 0),
    .run (.start (.store (.releaseDesktopLease "lease_example"))),
    .run (.start (.store (.setAgentEnabled agent false)))]

/-- The release has the row and waits while the disabling of another agent has the lock. -/
theorem access_lock_deadlock_free_sample :
    ∃ w, (calmStore sampleDigest).Reachable w ∧ holds w.table 1 sampleRow = true ∧
      wants w.table 1 .access = true ∧ holds w.table 2 .access = true ∧ w.Unblocked := by
  obtain ⟨w, hw, hrow, hwants, haccess⟩ : ∃ w, (calmStore sampleDigest).Reachable w ∧
      holds w.table 1 sampleRow = true ∧ wants w.table 1 .access = true ∧
      holds w.table 2 .access = true :=
    Machine.exists_reachable_of_run ⟨⟨[], 0, none, []⟩, [], []⟩
      (sampleStart "other" ++ [.request 1 sampleRow, .grant 1, .request 2 .access, .grant 2,
        .run (.lock 2), .request 1 .access])
      ⟨rfl, rfl, rfl, rfl⟩ (by decide +kernel)
  exact ⟨w, hw, hrow, hwants, haccess, (access_lock_deadlock_free hw).1⟩

/-- The disabling holds the lock and waits for the row; the release holds the row and its trigger
waits for the lock. -/
theorem access_lock_deadlock :
    ∃ w, (accessLock sampleDigest).Reachable w ∧ CyclicWait w.table ∧ ¬ w.Unblocked := by
  obtain ⟨w, hw, hrow, hwaits, haccess, hwants⟩ : ∃ w, (accessLock sampleDigest).Reachable w ∧
      holds w.table 1 sampleRow = true ∧ wants w.table 1 .access = true ∧
      holds w.table 2 .access = true ∧ wants w.table 2 sampleRow = true :=
    Machine.exists_reachable_of_run ⟨⟨[], 0, none, []⟩, [], []⟩
      (sampleStart "agent" ++ [.request 1 sampleRow, .grant 1, .request 2 .access, .grant 2,
        .run (.lock 2), .request 1 .access, .request 2 sampleRow])
      ⟨rfl, rfl, rfl, rfl⟩ (by decide +kernel)
  have hcycle : CyclicWait w.table :=
    ⟨1, .tail (.single ⟨by decide, .access, hwaits, haccess⟩) ⟨by decide, _, hwants, hrow⟩⟩
  exact ⟨w, hw, hcycle, fun h => h.acyclic hcycle⟩

/-- Among transactions that take the lock first, the disabling waits while a lease is created. -/
theorem unblocked_of_lockFirst_sample :
    ∃ w, (lockFirstStore sampleDigest).Reachable w ∧ holds w.table 0 .access = true ∧
      wants w.table 1 .access = true ∧ w.Unblocked := by
  obtain ⟨w, hw, hholds, hwants⟩ : ∃ w, (lockFirstStore sampleDigest).Reachable w ∧
      holds w.table 0 .access = true ∧ wants w.table 1 .access = true :=
    Machine.exists_reachable_of_run ⟨⟨[], 0, none, []⟩, [], []⟩
      ((sampleStart "agent").take 3 ++ [.run (.start (.store (.setAgentEnabled "agent" false))),
        .request 1 .access])
      ⟨rfl, rfl, rfl, rfl⟩ (by decide +kernel)
  exact ⟨w, hw, hholds, hwants, unblocked_of_lockFirst hw⟩

end Sample

end VcWorkspace.Store.AccessLock
