import VcWorkspace.Store.Footprint

/-! # Deadlines and the wait for the authorization lock

A transaction that grants something compares the deadlines it relies on with its
own start, which may lie long before the statement that grants: the transaction
has waited for the authorization lock in between, while the other transactions
went on.
-/

namespace VcWorkspace.Store.Deadlines

open Transition Option AccessState List Bool

section Model

/-- The transactions that grant a credential, a session, a login or a connection. -/
inductive Op
  | beginNativeGuestCredential (env : NativeEnv) (a : NativeGuestAccount) (connectionId : String)
      (expiresAt : ℕ) (digest : List UInt8)
  | completeNativeGuestAccountOperation (env : NativeEnv) (a : NativeGuestAccount)
  | createNativeDesktopConnectionSession (session : DesktopConnectionSession) (digest : List UInt8)
  | beginAgentGuestSession (env : SessionEnv) (vmid : ℕ) (leaseId agentId : String) (epoch : ℕ)
  | beginAgentGuestLogin (env : SessionEnv) (item : AgentGuestSession)
  | markAgentGuestSessionReady (env : SessionEnv) (item : AgentGuestSession)

/-- The rows of users, and the leases and sessions of agents by desktop. -/
structure Tables where
  access : AccessState
  ledger : ℕ → Ledger

namespace Tables

variable (s : Tables)

def Keyed : Prop := (s.access.grants.nativeSessions.map (·.tokenDigest)).Nodup

instance : Decidable s.Keyed := inferInstanceAs (Decidable (Nodup _))

def putLedger (vmid : ℕ) (r : Ledger) : Tables :=
  { s with ledger := fun d => if d = vmid then r else s.ledger d }

def sessionDeadlines (userId : String) (digest : Option (List UInt8)) : List ℕ :=
  (s.access.grants.nativeSessions.filter fun n =>
    some n.tokenDigest == digest && n.userId == userId).map (·.expiresAt)

/-- The deadline of the active lease of a desktop, if it is the lease with this identifier. -/
def leaseDeadlines (vmid : ℕ) (leaseId : String) : List ℕ :=
  ((s.ledger vmid).active.toList.filter (·.id == leaseId)).map (·.expiresAt)

def agentDeadlines (item : AgentGuestSession) : List ℕ :=
  ((s.ledger item.desktopVmid).session item.agentId).toList.flatMap fun row =>
    s.leaseDeadlines item.desktopVmid row.leaseId

end Tables

namespace Op

/-- The deadlines that an operation relies on: of its native session, its lease, its credential and
the OS session that it takes up again. -/
def deadlines (s : Tables) : Op → List ℕ
  | beginNativeGuestCredential _ a _ expiresAt digest =>
    expiresAt :: (s.sessionDeadlines a.userId (some digest) ++
      (s.access.account a).toList.flatMap fun row =>
        if row.operation = .retire then row.expiresAt.toList else [])
  | completeNativeGuestAccountOperation _ a =>
    if a.operation = .issue then
      (s.access.account a).toList.flatMap fun row =>
        row.expiresAt.toList ++ s.sessionDeadlines a.userId row.nativeSessionDigest
    else []
  | createNativeDesktopConnectionSession session digest =>
    session.expiresAt :: s.sessionDeadlines session.userId (some digest)
  | beginAgentGuestSession _ vmid leaseId _ _ => s.leaseDeadlines vmid leaseId
  | beginAgentGuestLogin _ item | markAgentGuestSessionReady _ item => s.agentDeadlines item

variable (sha256 : Sha256)

/-- The transaction of an operation, whose `now()` is its start. -/
def apply (started : ℕ) (s : Tables) : Op → Except StoreError Tables
  | beginNativeGuestCredential env a connectionId expiresAt digest => do
    let access ←
      s.access.beginNativeGuestCredential sha256 env a connectionId expiresAt digest started
    pure { s with access := access }
  | completeNativeGuestAccountOperation env a => do
    let access ← s.access.completeNativeGuestAccountOperation sha256 env a started
    pure { s with access := access }
  | createNativeDesktopConnectionSession session digest => do
    let access ← s.access.createNativeDesktopConnectionSession session digest started
    pure { s with access := access }
  | beginAgentGuestSession env vmid leaseId agentId epoch => do
    let r ← (s.ledger vmid).beginSession sha256 env started vmid leaseId agentId epoch
    pure (s.putLedger vmid r)
  | beginAgentGuestLogin env item => do
    let (r, _) ← (s.ledger item.desktopVmid).updateSession env started item fun env row =>
      Store.beginAgentGuestLogin sha256 env row item
    pure (s.putLedger item.desktopVmid r)
  | markAgentGuestSessionReady env item => do
    let (r, _) ← (s.ledger item.desktopVmid).updateSession env started item fun env row =>
      Store.markAgentGuestSessionReady sha256 env row item
    pure (s.putLedger item.desktopVmid r)

end Op

structure Waiting where
  op : Op
  started : ℕ

/-- A committed grant: when its statement was executed, and the deadlines that it relied on. -/
structure Grant where
  executed : ℕ
  deadlines : List ℕ
  deriving DecidableEq

/-- No deadline had passed when the granting statement was executed. -/
def Grant.timely (g : Grant) : Bool := g.deadlines.all fun d => g.executed < d

structure World where
  tables : Tables
  clock : ℕ
  waiting : List Waiting
  granted : List Grant

inductive Event
  | tick (d : ℕ)
  /-- Other transactions commit. -/
  | others (tables : Tables)
  | start (op : Op)
  | execute (i : ℕ)
  | fail (i : ℕ)

variable (sha256 : Sha256)

def World.execute (w : World) (i : ℕ) (t : Waiting) : Option World :=
  (t.op.apply sha256 t.started w.tables).toOption.map fun tables =>
    { w with
      tables := tables, waiting := w.waiting.eraseIdx i
      granted := ⟨w.clock, t.op.deadlines w.tables⟩ :: w.granted }

def World.step (w : World) : Event → Option World
  | .tick d => some { w with clock := w.clock + d }
  | .others tables => if tables.Keyed then some { w with tables := tables } else none
  | .start op => some { w with waiting := w.waiting ++ [⟨op, w.clock⟩] }
  | .execute i => w.waiting[i]?.bind (w.execute sha256 i)
  | .fail i => some { w with waiting := w.waiting.eraseIdx i }

def grants : Machine World Event where
  Init w := w.tables.Keyed ∧ w.waiting = [] ∧ w.granted = []
  step := World.step sha256

/-- No deadline that the transaction relies on has passed since its start. -/
def prompt (w : World) : Event → Bool
  | .execute i => w.waiting[i]?.all fun t =>
      (t.op.deadlines w.tables).all fun d => d ≤ t.started || w.clock < d
  | _ => true

end Model

variable {sha256 : Sha256} {s s' : Tables} {now : ℕ} {op : Op}

section Checks

variable {d : ℕ} {digest : List UInt8} {env : SessionEnv} {a : NativeGuestAccount}
  {access : AccessState}

theorem lt_of_mem_sessionDeadlines {userId : String} (hk : s.Keyed)
    (h : s.access.grants.sessionLive userId now digest = true)
    (hd : d ∈ s.sessionDeadlines userId (some digest)) : now < d := by
  simp only [Tables.sessionDeadlines, List.mem_map, List.mem_filter, and_eq_true,
    beq_iff_eq, some.injEq] at hd
  obtain ⟨n, ⟨hn, hdig, -⟩, rfl⟩ := hd
  obtain ⟨m, hm, hmd, -, hlt⟩ := mem_of_sessionLive h
  obtain rfl := inj_on_of_nodup_map hk hn hm (hdig.trans hmd.symm)
  exact hlt

theorem lt_of_mem_leaseDeadlines {vmid epoch : ℕ} {leaseId : String}
    (h : (s.ledger vmid).leaseActive now leaseId epoch = true)
    (hd : d ∈ s.leaseDeadlines vmid leaseId) : now < d := by
  simp only [Tables.leaseDeadlines, List.mem_map, List.mem_filter, mem_toList] at hd
  obtain ⟨l, ⟨hl, -⟩, rfl⟩ := hd
  simp only [Ledger.leaseActive, hl, any_some, and_eq_true, decide_eq_true_eq] at h
  exact h.2

theorem leaseActive_of_live {r : Ledger} {agentId leaseId : String} {epoch : ℕ}
    (h : (r.sessionEnv env now agentId leaseId epoch).leaseLive = true) :
    r.leaseActive now leaseId epoch = true := by
  simp only [Ledger.sessionEnv, and_eq_true] at h
  exact h.2

theorem lt_of_mem_agentDeadlines {item row : AgentGuestSession} {r' : Ledger}
    {f : SessionEnv → AgentGuestSession → Except StoreError AgentGuestSession}
    (h : (s.ledger item.desktopVmid).updateSession env now item f = .ok (r', row))
    (hf : ∀ env row₀, f env row₀ = .ok row → env.leaseLive = true) (hd : d ∈ s.agentDeadlines item)
    : now < d := by
  obtain ⟨-, -, row₀, hrow, hok⟩ := updateSession_ok h
  simp only [Tables.agentDeadlines, hrow, toList_some, flatMap_singleton] at hd
  exact lt_of_mem_leaseDeadlines (leaseActive_of_live (hf _ _ hok)) hd

theorem lt_of_begin {env : NativeEnv} {connectionId : String} {expiresAt : ℕ} (hk : s.Keyed)
    (h : s.access.beginNativeGuestCredential sha256 env a connectionId expiresAt digest now
      = .ok access)
    (hd : d ∈ (Op.beginNativeGuestCredential env a connectionId expiresAt digest).deadlines s) :
    now < d := by
  obtain ⟨⟨_, ⟨⟩, hlive⟩, -⟩ := subjectAdmitted_ok (admitted_of_begin h)
  obtain ⟨row, row', hrow, hbegin, -⟩ := updateAccount_ok h
  have hspec := begin_spec hbegin
  simp only [Op.deadlines, hrow, toList_some, flatMap_singleton, mem_cons,
    mem_append] at hd
  rcases hd with rfl | hd | hd
  · exact hspec.deadline.1
  · exact lt_of_mem_sessionDeadlines hk hlive hd
  · split at hd
    next hretire =>
      obtain ⟨t, ht, hlt⟩ := (any_eq_true _ _).mp (hspec.retained hretire)
      rw [ht, toList_some, mem_singleton] at hd
      exact hd ▸ of_decide_eq_true hlt
    · cases hd

theorem lt_of_complete {env : NativeEnv} (hk : s.Keyed)
    (h : s.access.completeNativeGuestAccountOperation sha256 env a now = .ok access)
    (hd : d ∈ (Op.completeNativeGuestAccountOperation env a).deadlines s) : now < d := by
  simp only [Op.deadlines] at hd
  split at hd
  next hissue =>
    obtain ⟨row, hrow, hexpires, hadmitted⟩ := admitted_of_complete hissue h
    obtain ⟨⟨digest, hdigest, hlive⟩, -⟩ := subjectAdmitted_ok hadmitted
    rw [hrow, toList_some, flatMap_singleton, hdigest] at hd
    rcases mem_append.mp hd with hd | hd
    · obtain ⟨t, ht, hlt⟩ := (any_eq_true _ _).mp hexpires
      rw [ht, toList_some, mem_singleton] at hd
      exact hd ▸ of_decide_eq_true hlt
    · exact lt_of_mem_sessionDeadlines hk hlive hd
  · cases hd

theorem lt_of_apply (hk : s.Keyed) (h : op.apply sha256 now s = .ok s')
    (hd : d ∈ op.deadlines s) : now < d := by
  cases op with
  | beginNativeGuestCredential env a connectionId expiresAt digest =>
    obtain ⟨access, h, -⟩ := bind_eq_ok.mp h
    exact lt_of_begin hk h hd
  | completeNativeGuestAccountOperation env a =>
    obtain ⟨access, h, -⟩ := bind_eq_ok.mp h
    exact lt_of_complete hk h hd
  | createNativeDesktopConnectionSession session digest =>
    obtain ⟨access, h, -⟩ := bind_eq_ok.mp h
    obtain ⟨hlt, hlive, -⟩ := live_of_createNative h
    simp only [Op.deadlines, mem_cons] at hd
    rcases hd with rfl | hd
    · exact hlt
    · exact lt_of_mem_sessionDeadlines hk hlive hd
  | beginAgentGuestSession env vmid leaseId agentId epoch =>
    obtain ⟨r, h, -⟩ := bind_eq_ok.mp h
    unfold Ledger.beginSession at h
    split at h
    case h_1 => cases h
    case h_2 lease hlease =>
      rw [seq_eq_ok] at h
      obtain ⟨row, hbegin, -⟩ := bind_eq_ok.mp h.2
      simp only [Store.beginAgentGuestSession, seq_eq_ok, ensure_eq_ok,
        and_eq_true] at hbegin
      exact lt_of_mem_leaseDeadlines (leaseActive_of_live hbegin.1.1.1.1.1.1) hd
  | beginAgentGuestLogin env item =>
    obtain ⟨⟨r, row⟩, h, -⟩ := bind_eq_ok.mp h
    refine lt_of_mem_agentDeadlines h (fun env row₀ hok => ?_) hd
    simp only [Store.beginAgentGuestLogin, seq_eq_ok, ensure_eq_ok, and_eq_true] at hok
    exact hok.2.1.2
  | markAgentGuestSessionReady env item =>
    obtain ⟨⟨r, row⟩, h, -⟩ := bind_eq_ok.mp h
    refine lt_of_mem_agentDeadlines h (fun env row₀ hok => ?_) hd
    simp only [Store.markAgentGuestSessionReady, seq_eq_ok, ensure_eq_ok,
      and_eq_true] at hok
    exact hok.2.1.2

end Checks

section Runs

variable {i : ℕ} {w w' : World} {e : Event}

theorem nativeSessions_apply (h : op.apply sha256 now s = .ok s') :
    s'.access.grants.nativeSessions = s.access.grants.nativeSessions := by
  cases op with
  | beginNativeGuestCredential env a connectionId expiresAt digest =>
    obtain ⟨access, haccess, h⟩ := bind_eq_ok.mp h
    cases h
    obtain ⟨row, row', -, -, rfl⟩ := updateAccount_ok haccess
    rfl
  | completeNativeGuestAccountOperation env a =>
    obtain ⟨access, haccess, h⟩ := bind_eq_ok.mp h
    cases h
    obtain ⟨row, row', -, -, ⟨expiresAt, haccess⟩ | rfl⟩ :=
      completeNativeGuestAccountOperation_ok haccess
    · obtain ⟨c, -, haccess⟩ := bind_eq_ok.mp haccess
      cases haccess
      rfl
    · rfl
  | createNativeDesktopConnectionSession session digest =>
    obtain ⟨access, haccess, h⟩ := bind_eq_ok.mp h
    cases h
    simp only [createNativeDesktopConnectionSession, seq_eq_ok] at haccess
    obtain ⟨c, -, haccess⟩ := bind_eq_ok.mp haccess.2
    cases haccess
    rfl
  | beginAgentGuestSession | beginAgentGuestLogin | markAgentGuestSessionReady =>
    obtain ⟨r, -, h⟩ := bind_eq_ok.mp h
    cases h
    rfl

theorem keyed_of_step (hk : w.tables.Keyed) (h : w.step sha256 e = some w') : w'.tables.Keyed := by
  cases e with
  | others tables =>
    simp only [World.step] at h
    split at h
    next hkeyed =>
      cases h
      exact hkeyed
    · cases h
  | execute i =>
    obtain ⟨t, -, h⟩ := bind_eq_some_iff.mp h
    obtain ⟨tables, happly, rfl⟩ := map_eq_some_iff.mp h
    unfold Tables.Keyed
    rw [nativeSessions_apply (toOption_eq_some.mp happly)]
    exact hk
  | tick | start | fail =>
    cases h
    exact hk

def World.grant (w : World) (i : ℕ) : Option Grant :=
  w.waiting[i]?.map fun t => ⟨w.clock, t.op.deadlines w.tables⟩

theorem timely_iff_prompt (hk : w.tables.Keyed) (h : w.step sha256 (.execute i) = some w') :
    ∃ g, w.grant i = some g ∧ w'.granted = g :: w.granted ∧
      (g.timely = true ↔ prompt w (.execute i) = true) := by
  obtain ⟨t, ht, h⟩ := bind_eq_some_iff.mp h
  obtain ⟨tables, happly, rfl⟩ := map_eq_some_iff.mp h
  refine ⟨_, by rw [World.grant, ht, map_some], rfl, ?_⟩
  -- at the start of the transaction every deadline lay ahead
  have hstart := fun d => lt_of_apply (d := d) hk (toOption_eq_some.mp happly)
  simp only [Grant.timely, prompt, ht, all_some, List.all_eq_true, or_eq_true,
    decide_eq_true_eq]
  constructor
  · exact fun hall d hd => .inr (hall d hd)
  · exact fun hall d hd => (hall d hd).resolve_left (Nat.not_le.mpr (hstart d hd))

theorem keyed_of_reachable (h : (grants sha256).Reachable w) : w.tables.Keyed :=
  h.invariant (fun _ hi => hi.1) fun _ _ _ _ hk hs => keyed_of_step hk hs

/-- A committed grant was in time when its statement was executed exactly if no deadline that it
relied on passed while its transaction waited. -/
theorem deadlines_at_grant :
    (∀ w, (grants sha256).Reachable w → ∀ i w', (grants sha256).step w (.execute i) = some w' →
      ∃ g, w.grant i = some g ∧ w'.granted = g :: w.granted ∧
        (g.timely = true ↔ prompt w (.execute i) = true)) ∧
    ∀ w, ((grants sha256).restrict prompt).Reachable w → ∀ g ∈ w.granted, g.timely = true := by
  refine ⟨fun w hw i w' hs => timely_iff_prompt (keyed_of_reachable hw) hs, fun w hw => ?_⟩
  refine hw.invariant (P := fun w => ∀ g ∈ w.granted, g.timely = true) ?_ ?_
  · rintro w ⟨-, -, hnone⟩ g hg
    rw [hnone] at hg
    cases hg
  · intro w e w' hw hall hs
    obtain ⟨hprompt, hs⟩ := Machine.step_restrict.mp hs
    cases e with
    | execute i =>
      obtain ⟨g, -, hgranted, htimely⟩ := timely_iff_prompt (keyed_of_reachable hw.of_restrict) hs
      rw [hgranted]
      exact forall_mem_cons.mpr ⟨htimely.mpr hprompt, hall⟩
    | others tables =>
      simp only [grants, World.step] at hs
      split at hs <;> cases hs
      exact hall
    | tick | start | fail =>
      cases hs
      exact hall

end Runs

section Sample

def sampleAccount : NativeGuestAccount :=
  ⟨100, "user", "vcw000000000000", .linux, 1001, "", 0, .none, .idle, "", none⟩

/-- A personal desktop, the pinned account of its owner and a native session until 5. -/
def sampleTables : Tables where
  access :=
    ⟨⟨[⟨"user", "user", none, .user, false⟩],
        [⟨100, "Desktop", "node", some .linux, true, true, .personal, some "user", none⟩],
        [], [], [], [], [], [], []⟩,
      ⟨[], [], [⟨100, "user", none, "vcw000000000000", .ready, "", none⟩], [],
        [⟨sampleAccount, none⟩], [⟨[1], "user", 5⟩]⟩⟩
  ledger _ := ⟨⟨none, none, [], none, []⟩, LedgerRows.valid_empty⟩

def sampleOp : Op :=
  .beginNativeGuestCredential ⟨true, true, false, false, false, false, false, false, false, false,
    true⟩ sampleAccount "conn_example_one" 200000000 [1]

/-- The credential is reserved before the native session ends. -/
theorem deadlines_at_grant_sample : ∃ w, ((grants sampleDigest).restrict prompt).Reachable w ∧
      (∀ g ∈ w.granted, g.timely = true) ∧ w.granted = [⟨3, [200000000, 5]⟩] := by
  obtain ⟨w, hw, hgranted⟩ : ∃ w, ((grants sampleDigest).restrict prompt).Reachable w ∧
      w.granted = [⟨3, [200000000, 5]⟩] :=
    Machine.exists_reachable_of_run ⟨sampleTables, 0, [], []⟩ [.start sampleOp, .tick 3, .execute 0]
      ⟨by decide, rfl, rfl⟩ (by decide +kernel)
  exact ⟨w, hw, deadlines_at_grant.2 w hw, hgranted⟩

/-- The native session ends while the transaction waits for the lock, and the credential is
reserved nevertheless. -/
theorem deadline_passed_at_grant :
    ∃ w, (grants sampleDigest).Reachable w ∧ ∃ g ∈ w.granted, g.timely = false := by
  obtain ⟨w, hw, hgranted⟩ : ∃ w, (grants sampleDigest).Reachable w ∧
      w.granted = [⟨10, [200000000, 5]⟩] :=
    Machine.exists_reachable_of_run ⟨sampleTables, 0, [], []⟩
      [.start sampleOp, .tick 10, .execute 0]
      ⟨by decide, rfl, rfl⟩ (by decide +kernel)
  exact ⟨w, hw, _, hgranted ▸ mem_singleton.mpr rfl, by decide⟩

end Sample

end VcWorkspace.Store.Deadlines
