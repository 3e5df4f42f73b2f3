import Mathlib.Data.List.Nodup
import VcWorkspace.Store.AccessTables
import VcWorkspace.Transition.Machine

/-! # Idempotency keys of jobs

A request claims its key with the row of its job. There are two ways to insert
the row: `CreateJob` skips a key that is taken, and a reservation of a clone
looks the key up and inserts under the access lock. Before either, a handler
looks for the job of an earlier request. None of these share a transaction, so
statements of any number of requests run in between.
-/

namespace VcWorkspace.Server.JobRequests

open Transition Store List

structure Stamp where
  id : String
  key : String
  fingerprint : String
  deriving DecidableEq, Repr

def stamp (j : Job) : Stamp := ⟨j.id, j.idempotencyKey, j.requestFingerprint⟩

section Model

inductive Insertion
  | create
  | reserve (occupied : List ℕ) (choose : Bool)
  deriving DecidableEq, Repr

/-- A request: its job with the scoped key, the key as it was sent, and whether
`prepareJobRequest` comes first. -/
structure Request where
  job : Job
  rawKey : String
  prepared : Bool
  insertion : Insertion
  deriving DecidableEq, Repr

structure Outcome where
  result : Except StoreError Job
  created : Bool
  deriving DecidableEq

inductive Phase
  /-- `JobForRequest` in `prepareJobRequest`: the fingerprint, then the job. -/
  | prepare
  | replay
  /-- The job of the key as it was sent. -/
  | legacy
  /-- `CreateJob`: the insert, and `JobForRequest` after it. -/
  | insert
  | confirm (created : Bool)
  | fetch (created : Bool)
  /-- `reserveDesktopCloneJob`. -/
  | lock
  | lookup
  | prior
  | choose
  | check (target : ℕ)
  | reserve (target : ℕ)
  | commit
  | stored
  | done (o : Outcome)
  deriving DecidableEq

/-- The committed tables, the request that holds the access lock, its row that is not committed
yet, and the requests whose row was committed. -/
structure Database where
  tables : AccessTables
  holder : Option ℕ
  pending : Option Job
  inserted : List ℕ
  deriving DecidableEq

structure State where
  database : Database
  requests : List (Request × Phase)
  deriving DecidableEq

def Phase.fail (e : StoreError) : Phase := .done ⟨.error e, false⟩

/-- What follows `prepareJobRequest`. -/
def Insertion.first : Insertion → Phase
  | .create => .insert
  | .reserve _ _ => .lock

def Request.first (r : Request) : Phase := if r.prepared then .prepare else r.insertion.first

def Request.reservable (r : Request) : Bool :=
  r.job.operation == .templateClone && r.job.state == .accepted && 0 < r.job.targetVmid &&
    0 < r.job.sourceVmid && r.job.targetVmid != r.job.sourceVmid && r.job.id != "" &&
    r.job.idempotencyKey != ""

namespace Database

variable (d : Database)

def byKey (key : String) : Option Job := d.tables.jobs.find? (·.idempotencyKey == key)

def byId (id : String) : Option Job := d.tables.jobs.find? (·.id == id)

def release : Database := { d with holder := none, pending := none }

def add (i : ℕ) (j : Job) : Database :=
  { d with
    tables := { d.tables with jobs := d.tables.jobs ++ [j] }
    inserted := i :: d.inserted }

def row (j : Job) : Job := { j with upid := none }

def blocks (j : Job) : Bool :=
  d.pending.any fun p => p.idempotencyKey == j.idempotencyKey || p.id == j.id

/-- `INSERT … ON CONFLICT(idempotency_key) DO NOTHING`. With `building`, the profile of an image
build has an active build already. -/
def insert (i : ℕ) (j : Job) (building : Bool) : Option (Database × Phase) :=
  if d.blocks j then none
  else if (d.byKey j.idempotencyKey).isSome then some (d, .confirm false)
  else if (d.byId j.id).isSome || j.operation == .imageBuild && building then
    some (d, .fail (.sql "23505" "duplicate key"))
  else some (d.add i (row j), .confirm true)

def read (found : Option Job) (created : Bool) : Phase :=
  match found with
  | none => .done ⟨.error .notFound, created⟩
  | some j => .done ⟨.ok j, created⟩

def compare (r : Request) (created : Bool) (absent found : Phase) : Phase :=
  match d.byKey r.job.idempotencyKey with
  | none => absent
  | some j => if j.requestFingerprint = r.job.requestFingerprint then found
    else .done ⟨.error .conflict, created⟩

def next (i : ℕ) (r : Request) (building : Bool) : Phase → Option (Database × Phase)
  | .prepare => some (d, d.compare r false .legacy .replay)
  | .replay => some (d, read (d.byKey r.job.idempotencyKey) false)
  | .legacy =>
    some (d, if (d.byKey r.rawKey).isSome then .fail .conflict else r.insertion.first)
  | .insert => d.insert i r.job building
  | .confirm created => some (d, d.compare r created (.done ⟨.error .notFound, created⟩)
      (.fetch created))
  | .fetch created => some (d, read (d.byKey r.job.idempotencyKey) created)
  | .lock =>
    if !r.reservable then some (d, .fail .conflict)
    else if d.holder.isSome then none
    else some ({ d with holder := some i }, .lookup)
  | .lookup =>
    match d.byKey r.job.idempotencyKey with
    | some j => some (d.release,
        if j.requestFingerprint = r.job.requestFingerprint then .prior else .fail .conflict)
    | none => some (d, match r.insertion with
        | .reserve _ true => .choose
        | _ => .check r.job.targetVmid)
  | .prior => some (d, read (d.byKey r.job.idempotencyKey) false)
  | .choose =>
    match r.insertion with
    | .reserve occupied _ =>
      match d.tables.availableTarget r.job occupied with
      | none => some (d.release, .fail .conflict)
      | some target => some (d, .check target)
    | .create => none
  | .check target =>
    if d.tables.targetTaken target then some (d.release, .fail .conflict)
    else some (d, .reserve target)
  | .reserve target =>
    if (d.byKey r.job.idempotencyKey).isSome || (d.byId r.job.id).isSome then
      some (d.release, .fail .conflict)
    else some ({ d with pending := some (row { r.job with targetVmid := target }) }, .commit)
  | .commit =>
    match d.pending with
    | none => none
    | some j => some ((d.add i j).release, .stored)
  | .stored => some (d, read (d.byId r.job.id) true)
  | .done _ => none

end Database

inductive Action
  | call (r : Request)
  | next (i : ℕ) (building : Bool)
  /-- A request is given up while its transaction is open. -/
  | abort (i : ℕ)
  /-- The writers of the progress of jobs. -/
  | update (id : String) (state : JobState) (upid : Option String)
  /-- The writers of the other tables. -/
  | others (desktops : List ManagedDesktop)

namespace State

variable (s : State)

def put (i : ℕ) (r : Request) (d : Database) (p : Phase) : State :=
  ⟨d, s.requests.set i (r, p)⟩

def step : Action → Option State
  | .call r => some { s with requests := s.requests ++ [(r, r.first)] }
  | .next i building =>
    match s.requests[i]? with
    | none => none
    | some (r, p) => (s.database.next i r building p).map fun x => s.put i r x.1 x.2
  | .abort i =>
    match s.requests[i]? with
    | none => none
    | some (r, _) =>
      if s.database.holder = some i then
        some (s.put i r s.database.release (.fail (.sql "57014" "canceled")))
      else none
  | .update id state upid =>
    some { s with database := { s.database with tables := { s.database.tables with
      jobs := updateWhere (fun j => j.id == id) (fun j => { j with state := state, upid := upid })
        s.database.tables.jobs } } }
  | .others desktops =>
    some { s with database := { s.database with tables :=
      { s.database.tables with desktops := desktops } } }

end State

def Database.stamps (d : Database) : List Stamp := d.tables.jobs.map stamp

structure Unique (stamps : List Stamp) : Prop where
  keys : (stamps.map (·.key)).Nodup
  ids : (stamps.map (·.id)).Nodup

def requests : Machine State Action where
  Init s := Unique s.database.stamps ∧ s.requests = [] ∧ s.database.holder = none ∧
    s.database.pending = none ∧ s.database.inserted = []
  step := State.step

end Model

variable {d d' : Database} {r : Request} {i : ℕ} {p p' : Phase}

section Statements

variable {building created : Bool} {j : Job} {S S' : List Stamp} {x y : Stamp} {won : Prop}

def Free (S : List Stamp) (x : Stamp) : Prop := ∀ y ∈ S, y.key ≠ x.key ∧ y.id ≠ x.id

theorem Unique.eq_of_key (h : Unique S) (hx : x ∈ S) (hy : y ∈ S) (hk : x.key = y.key) : x = y :=
  inj_on_of_nodup_map h.keys hx hy hk

theorem Unique.push (h : Unique S) (hx : Free S x) : Unique (S ++ [x]) := by
  refine ⟨?_, ?_⟩
  · rw [map_append, nodup_append]
    refine ⟨h.keys, by simp, ?_⟩
    simpa using fun y hy => (hx y hy).1
  · rw [map_append, nodup_append]
    refine ⟨h.ids, by simp, ?_⟩
    simpa using fun y hy => (hx y hy).2

theorem mem_of_byKey {key : String} (h : d.byKey key = some j) :
    stamp j ∈ d.stamps ∧ (stamp j).key = key :=
  ⟨mem_map_of_mem (mem_of_find?_eq_some h), by simpa [stamp] using find?_some h⟩

theorem mem_of_byId {id : String} (h : d.byId id = some j) :
    stamp j ∈ d.stamps ∧ (stamp j).id = id :=
  ⟨mem_map_of_mem (mem_of_find?_eq_some h), by simpa [stamp] using find?_some h⟩

theorem byKey_ne_none (hx : x ∈ d.stamps) : d.byKey x.key ≠ none := by
  obtain ⟨j, hj, rfl⟩ := mem_map.mp hx
  intro hnone
  simpa [stamp] using find?_eq_none.mp hnone j hj

theorem byId_ne_none (hx : x ∈ d.stamps) : d.byId x.id ≠ none := by
  obtain ⟨j, hj, rfl⟩ := mem_map.mp hx
  intro hnone
  simpa [stamp] using find?_eq_none.mp hnone j hj

theorem free_of_absent {job : Job} (hk : d.byKey job.idempotencyKey = none)
    (hid : d.byId job.id = none) : Free d.stamps (stamp job) := by
  refine fun y hy => ⟨fun h => byKey_ne_none hy ?_, fun h => byId_ne_none hy ?_⟩
  · exact h ▸ hk
  · exact h ▸ hid

/-- What the phase of a request says of the rows and of its own insert. -/
def Phase.Ok (r : Request) (won : Prop) (S : List Stamp) : Phase → Prop
  | .replay | .prior => ¬ won ∧ ∃ x ∈ S, x.key = (stamp r.job).key ∧
      x.fingerprint = (stamp r.job).fingerprint
  | .confirm created => (created = true ↔ won) ∧ (won → stamp r.job ∈ S) ∧
      ∃ x ∈ S, x.key = (stamp r.job).key
  | .fetch created => (created = true ↔ won) ∧ (won → stamp r.job ∈ S) ∧
      ∃ x ∈ S, x.key = (stamp r.job).key ∧ x.fingerprint = (stamp r.job).fingerprint
  | .stored => won ∧ stamp r.job ∈ S
  | .done o => (o.created = true ↔ won) ∧
      (won → ∃ j, o.result = .ok j ∧ stamp j = stamp r.job) ∧
      ∀ j, o.result = .ok j → stamp j ∈ S ∧ (stamp j).key = (stamp r.job).key ∧
        (stamp j).fingerprint = (stamp r.job).fingerprint
  | _ => ¬ won

theorem Phase.Ok.mono (h : p.Ok r won S) (hS : S ⊆ S') : p.Ok r won S' := by
  cases p with
  | replay | prior =>
    obtain ⟨hw, x, hx, hxr⟩ := h
    exact ⟨hw, x, hS hx, hxr⟩
  | confirm created | fetch created =>
    obtain ⟨hw, hown, x, hx, hxr⟩ := h
    exact ⟨hw, fun h => hS (hown h), x, hS hx, hxr⟩
  | stored => exact ⟨h.1, hS h.2⟩
  | done o => exact ⟨h.1, h.2.1, fun j hj => ⟨hS (h.2.2 j hj).1, (h.2.2 j hj).2⟩⟩
  | _ => exact h

theorem ok_fail {e : StoreError} (h : ¬ won) : (Phase.fail e).Ok r won S :=
  ⟨by simp [h], fun hw => absurd hw h, nofun⟩

theorem ok_first (h : ¬ won) : r.insertion.first.Ok r won S := by
  unfold Insertion.first
  split <;> exact h

theorem ok_read (hu : Unique d.stamps) (hw : created = true ↔ won)
    (hown : won → stamp r.job ∈ d.stamps)
    (hx : ∃ x ∈ d.stamps, x.key = (stamp r.job).key ∧ x.fingerprint = (stamp r.job).fingerprint) :
    (Database.read (d.byKey r.job.idempotencyKey) created).Ok r won d.stamps := by
  obtain ⟨x, hx, hxk, hxf⟩ := hx
  unfold Database.read
  split
  · rename_i hnone
    have hkey : r.job.idempotencyKey = x.key := hxk.symm
    exact absurd (hkey ▸ hnone) (byKey_ne_none hx)
  · rename_i j hj
    obtain ⟨hmem, hjk⟩ := mem_of_byKey hj
    have hjx : stamp j = x := hu.eq_of_key hmem hx (hjk.trans hxk.symm)
    refine ⟨hw, fun hwon => ⟨j, rfl, hu.eq_of_key hmem (hown hwon) hjk⟩, fun j' hj' => ?_⟩
    cases hj'
    exact ⟨hmem, hjk, hjx ▸ hxf⟩

inductive Writes (i : ℕ) (r : Request) (d d' : Database) : Prop
  | none (hs : d'.stamps = d.stamps) (hi : d'.inserted = d.inserted)
  | own (hs : d'.stamps = d.stamps ++ [stamp r.job]) (hi : d'.inserted = i :: d.inserted)
      (hfree : Free d.stamps (stamp r.job))

theorem insert_spec (hok : ¬ i ∈ d.inserted) (h : d.insert i r.job building = some (d', p')) :
    Writes i r d d' ∧ p'.Ok r (i ∈ d'.inserted) d'.stamps := by
  unfold Database.insert at h
  split at h
  · cases h
  split at h
  · rename_i hkey
    cases h
    obtain ⟨j, hj⟩ := Option.isSome_iff_exists.mp hkey
    obtain ⟨hmem, hjk⟩ := mem_of_byKey hj
    exact ⟨.none rfl rfl, by simp [hok], fun hw => absurd hw hok, stamp j, hmem, hjk⟩
  split at h
  · cases h
    exact ⟨.none rfl rfl, ok_fail hok⟩
  · rename_i hkey hid
    cases h
    simp only [Bool.or_eq_true, not_or, Bool.not_eq_true, Option.isSome_eq_false_iff,
      Option.isNone_iff_eq_none] at hkey hid
    have hs : (d.add i (Database.row r.job)).stamps = d.stamps ++ [stamp r.job] := by
      simp [Database.stamps, Database.add, Database.row, stamp]
    refine ⟨.own hs rfl (free_of_absent hkey hid.1), ?_⟩
    exact ⟨by simp [Database.add], fun _ => by simp [hs], stamp r.job, by simp [hs], rfl⟩

/-- The row that a reservation commits is that of its request, and its key is still free. -/
def Database.Owns (d : Database) (r : Request) : Prop :=
  ∀ j, d.pending = some j → stamp j = stamp r.job ∧ Free d.stamps (stamp r.job)

theorem ok_compare {absent found : Phase}
    (habsent : d.byKey r.job.idempotencyKey = none → absent.Ok r won d.stamps)
    (hfound : (∃ x ∈ d.stamps, x.key = (stamp r.job).key ∧
      x.fingerprint = (stamp r.job).fingerprint) → found.Ok r won d.stamps)
    (hconflict : ∀ x ∈ d.stamps, x.key = (stamp r.job).key →
      x.fingerprint ≠ (stamp r.job).fingerprint →
        (Phase.done ⟨.error .conflict, created⟩).Ok r won d.stamps) :
    (d.compare r created absent found).Ok r won d.stamps := by
  unfold Database.compare
  split
  · rename_i hnone
    exact habsent hnone
  · rename_i j hj
    obtain ⟨hmem, hjk⟩ := mem_of_byKey hj
    split
    · rename_i hf
      exact hfound ⟨stamp j, hmem, hjk, hf⟩
    · rename_i hf
      exact hconflict (stamp j) hmem hjk hf

theorem next_spec (hu : Unique d.stamps) (hok : p.Ok r (i ∈ d.inserted) d.stamps)
    (hown : p = .commit → d.Owns r) (h : d.next i r building p = some (d', p')) :
    Writes i r d d' ∧ p'.Ok r (i ∈ d'.inserted) d'.stamps := by
  cases p with
  | prepare =>
    cases h
    refine ⟨.none rfl rfl, ok_compare (fun _ => hok) (fun hx => ⟨hok, hx⟩) fun _ _ _ _ => ?_⟩
    exact ok_fail hok
  | replay | prior =>
    cases h
    exact ⟨.none rfl rfl, ok_read hu (by simp [hok.1]) (fun hw => absurd hw hok.1) hok.2⟩
  | legacy =>
    cases h
    refine ⟨.none rfl rfl, ?_⟩
    split
    · exact ok_fail hok
    · exact ok_first hok
  | insert => exact insert_spec hok h
  | confirm created =>
    cases h
    obtain ⟨hw, hmine, x, hx, hxk⟩ := hok
    refine ⟨.none rfl rfl, ok_compare (fun hnone => ?_) (fun hx => ⟨hw, hmine, hx⟩) ?_⟩
    · have hkey : r.job.idempotencyKey = x.key := hxk.symm
      exact absurd (hkey ▸ hnone) (byKey_ne_none hx)
    · -- the row of another request: this one inserted nothing
      intro y hy hyk hyf
      have hlost : ¬ i ∈ d.inserted := by
        intro hwon
        exact hyf (by rw [hu.eq_of_key hy (hmine hwon) hyk])
      exact ⟨hw, fun hwon => absurd hwon hlost, nofun⟩
  | fetch created =>
    cases h
    exact ⟨.none rfl rfl, ok_read hu hok.1 hok.2.1 hok.2.2⟩
  | lock =>
    simp only [Database.next] at h
    split at h
    · cases h
      exact ⟨.none rfl rfl, ok_fail hok⟩
    split at h
    · cases h
    · cases h
      exact ⟨.none rfl rfl, hok⟩
  | lookup =>
    simp only [Database.next] at h
    split at h <;> cases h
    · rename_i j hj
      obtain ⟨hmem, hjk⟩ := mem_of_byKey hj
      refine ⟨.none rfl rfl, ?_⟩
      split
      · rename_i hf
        exact ⟨hok, stamp j, hmem, hjk, hf⟩
      · exact ok_fail hok
    · refine ⟨.none rfl rfl, ?_⟩
      split <;> exact hok
  | choose =>
    simp only [Database.next] at h
    split at h
    · split at h <;> cases h
      · exact ⟨.none rfl rfl, ok_fail hok⟩
      · exact ⟨.none rfl rfl, hok⟩
    · cases h
  | check | reserve =>
    simp only [Database.next] at h
    split at h <;> cases h
    · exact ⟨.none rfl rfl, ok_fail hok⟩
    · exact ⟨.none rfl rfl, hok⟩
  | commit =>
    simp only [Database.next] at h
    split at h
    · cases h
    · rename_i j hj
      cases h
      obtain ⟨hstamp, hfree⟩ := hown rfl j hj
      have hs : (d.add i j).release.stamps = d.stamps ++ [stamp r.job] := by
        simp [Database.stamps, Database.add, Database.release, hstamp]
      exact ⟨.own hs rfl hfree, mem_cons_self, by simp [hs]⟩
  | stored =>
    cases h
    refine ⟨.none rfl rfl, ?_⟩
    unfold Database.read
    split
    · rename_i hnone
      exact absurd hnone (byId_ne_none hok.2)
    · rename_i j hj
      obtain ⟨hmem, hjid⟩ := mem_of_byId hj
      have hmine : stamp j = stamp r.job := inj_on_of_nodup_map hu.ids hmem hok.2 hjid
      refine ⟨by simp [hok.1], fun _ => ⟨j, rfl, hmine⟩, fun j' hj' => ?_⟩
      cases hj'
      exact ⟨hmem, by rw [hmine], by rw [hmine]⟩
  | done o => cases h

def Phase.holding : Phase → Bool
  | .lookup | .choose | .check _ | .reserve _ | .commit => true
  | _ => false

theorem not_won_of_holding (h : p.Ok r won S) (hp : p.holding = true) : ¬ won := by
  cases p with
  | lookup | choose | check | reserve | commit => exact h
  | _ => cases hp

theorem holding_compare {absent found : Phase} (ha : absent.holding = false)
    (hf : found.holding = false) : (d.compare r created absent found).holding = false := by
  unfold Database.compare
  split
  · exact ha
  · split
    · exact hf
    · rfl

theorem holding_first : r.insertion.first.holding = false := by
  unfold Insertion.first
  split <;> rfl

/-- What a statement does to the lock and to the row that is not committed yet. -/
structure Locks (i : ℕ) (r : Request) (d d' : Database) (p p' : Phase) : Prop where
  own : p'.holding = true ↔ d'.holder = some i
  other : ∀ k, k ≠ i → (d'.holder = some k ↔ d.holder = some k)
  pending : ∀ j, d'.pending = some j →
    (p' = .commit ∧ stamp j = stamp r.job ∧ Free d'.stamps (stamp j)) ∨
      (p.holding = false ∧ d.pending = some j ∧
        (Free d.stamps (stamp j) → Free d'.stamps (stamp j)))

theorem Locks.idle (hp : p.holding = false) (hp' : p'.holding = false)
    (hheld : p.holding = true ↔ d.holder = some i) : Locks i r d d p p' where
  own := by rw [hp', ← hheld, hp]
  other _ _ := Iff.rfl
  pending j hj := .inr ⟨hp, hj, fun h => h⟩

theorem Locks.goOn (hp : p.holding = true) (hp' : p'.holding = true) (hnone : d.pending = none)
    (hheld : p.holding = true ↔ d.holder = some i) : Locks i r d d p p' where
  own := by rw [hp', ← hheld, hp]
  other _ _ := Iff.rfl
  pending j hj := by simp [hnone] at hj

theorem Locks.release (hp : p.holding = true) (hp' : p'.holding = false)
    (hheld : p.holding = true ↔ d.holder = some i) (hd : d'.holder = none)
    (hn : d'.pending = none) : Locks i r d d' p p' where
  own := by simp [hp', hd]
  other k hk := by
    rw [hd, hheld.mp hp]
    simp [hk.symm]
  pending j hj := by simp [hn] at hj

theorem insert_locks (hheld : Phase.insert.holding = true ↔ d.holder = some i)
    (h : d.insert i r.job building = some (d', p')) : Locks i r d d' .insert p' := by
  unfold Database.insert at h
  split at h
  · cases h
  rename_i hblocks
  split at h
  · cases h
    exact .idle rfl rfl hheld
  split at h
  · cases h
    exact .idle rfl rfl hheld
  · cases h
    refine ⟨?_, fun _ _ => Iff.rfl, fun j hj => .inr ⟨rfl, hj, fun hfree y hy => ?_⟩⟩
    · exact ⟨nofun, fun hh => absurd (hheld.mpr hh) nofun⟩
    · -- a pending row of the same key or identifier would have blocked the insert
      simp only [Database.stamps, Database.add, map_append, mem_append] at hy
      rcases hy with hy | hy
      · exact hfree y hy
      · obtain rfl := mem_singleton.mp hy
        simp only [Database.add] at hj
        simp only [Database.blocks, hj, Option.any_some, Bool.or_eq_true, beq_iff_eq,
          not_or] at hblocks
        exact ⟨fun hk => hblocks.1 hk.symm, fun hid => hblocks.2 hid.symm⟩

theorem next_locks (hheld : p.holding = true ↔ d.holder = some i)
    (hnone : p.holding = true → p ≠ .commit → d.pending = none)
    (hfree : d.holder = none → d.pending = none)
    (h : d.next i r building p = some (d', p')) : Locks i r d d' p p' := by
  cases p with
  | prepare | confirm =>
    cases h
    exact .idle rfl (holding_compare rfl rfl) hheld
  | replay | prior | stored | fetch =>
    cases h
    refine .idle rfl ?_ hheld
    unfold Database.read
    split <;> rfl
  | legacy =>
    cases h
    refine .idle rfl ?_ hheld
    split
    · rfl
    · exact holding_first
  | insert => exact insert_locks hheld h
  | lock =>
    simp only [Database.next] at h
    split at h
    · cases h
      exact .idle rfl rfl hheld
    split at h
    · cases h
    · rename_i hholder
      cases h
      have hn : d.holder = none := by simpa using hholder
      refine ⟨by simp [Phase.holding], fun k hk => by simp [hn, hk.symm], fun j hj => ?_⟩
      exact absurd (hfree hn) (by simp [show d.pending = some j from hj])
  | lookup =>
    simp only [Database.next] at h
    split at h <;> cases h
    · refine .release rfl ?_ hheld rfl rfl
      split <;> rfl
    · refine .goOn rfl ?_ (hnone rfl nofun) hheld
      split <;> rfl
  | choose =>
    simp only [Database.next] at h
    split at h
    · split at h <;> cases h
      · exact .release rfl rfl hheld rfl rfl
      · exact .goOn rfl rfl (hnone rfl nofun) hheld
    · cases h
  | check target =>
    simp only [Database.next] at h
    split at h <;> cases h
    · exact .release rfl rfl hheld rfl rfl
    · exact .goOn rfl rfl (hnone rfl nofun) hheld
  | reserve target =>
    simp only [Database.next] at h
    split at h <;> cases h
    · exact .release rfl rfl hheld rfl rfl
    · rename_i habsent
      simp only [Bool.or_eq_true, not_or, Bool.not_eq_true, Option.isSome_eq_false_iff,
        Option.isNone_iff_eq_none] at habsent
      refine ⟨hheld, fun _ _ => Iff.rfl, fun j hj => .inl ?_⟩
      cases hj
      exact ⟨rfl, rfl, free_of_absent habsent.1 habsent.2⟩
  | commit =>
    simp only [Database.next] at h
    split at h
    · cases h
    · cases h
      exact .release rfl rfl hheld rfl rfl
  | done o => cases h

theorem next_conflict {o : Outcome} (hu : Unique d.stamps) (hok : p.Ok r (i ∈ d.inserted) d.stamps)
    (h : d.next i r building p = some (d', .done o)) (hx : x ∈ d.stamps)
    (hk : x.key = (stamp r.job).key) (hf : x.fingerprint ≠ (stamp r.job).fingerprint) :
    o = ⟨.error .conflict, false⟩ := by
  -- no row of the key has the fingerprint of the request
  have hno : ∀ y ∈ d.stamps, y.key = (stamp r.job).key →
      y.fingerprint ≠ (stamp r.job).fingerprint := by
    intro y hy hyk
    rw [hu.eq_of_key hy hx (hyk.trans hk.symm)]
    exact hf
  have hlost : stamp r.job ∉ d.stamps := fun hmem => hno _ hmem rfl rfl
  have hfound : ∃ j, d.byKey r.job.idempotencyKey = some j ∧
      j.requestFingerprint ≠ r.job.requestFingerprint := by
    have hkey : r.job.idempotencyKey = x.key := hk.symm
    obtain ⟨j, hj⟩ := Option.ne_none_iff_exists'.mp (hkey ▸ byKey_ne_none hx)
    obtain ⟨hmem, hjk⟩ := mem_of_byKey hj
    exact ⟨j, hj, hno _ hmem hjk⟩
  obtain ⟨j, hj, hjf⟩ := hfound
  cases p with
  | prepare =>
    simp only [Database.next, Database.compare, hj, if_neg hjf] at h
    cases h
    rfl
  | replay | prior =>
    obtain ⟨-, y, hy, hyk, hyf⟩ := hok
    exact absurd hyf (hno y hy hyk)
  | legacy =>
    have h := (Prod.mk.inj (Option.some.inj h)).2
    split at h
    · exact (Phase.done.inj h).symm
    · unfold Insertion.first at h
      split at h <;> cases h
  | insert =>
    simp only [Database.next, Database.insert, hj] at h
    split at h
    · cases h
    · cases h
  | confirm created =>
    simp only [Database.next, Database.compare, hj, if_neg hjf] at h
    obtain rfl := Phase.done.inj (Prod.mk.inj (Option.some.inj h)).2
    cases created with
    | false => rfl
    | true => exact absurd (hok.2.1 (hok.1.mp rfl)) hlost
  | fetch created =>
    obtain ⟨-, -, y, hy, hyk, hyf⟩ := hok
    exact absurd hyf (hno y hy hyk)
  | lock =>
    simp only [Database.next] at h
    split at h
    · cases h
      rfl
    split at h
    · cases h
    · cases h
  | lookup =>
    simp only [Database.next, hj, if_neg hjf] at h
    cases h
    rfl
  | choose =>
    simp only [Database.next] at h
    split at h
    · split at h
      · cases h
        rfl
      · cases h
    · cases h
  | check target | reserve target =>
    simp only [Database.next] at h
    split at h
    · cases h
      rfl
    · cases h
  | commit =>
    simp only [Database.next] at h
    split at h
    · cases h
    · cases h
  | stored => exact absurd hok.2 hlost
  | done o' => cases h

end Statements

/-! ## Every interleaving -/

section Interleavings

variable {s s' : State} {S₀ : List Stamp} {x : Stamp} {k : ℕ} {r' : Request} {a : Action}

def State.At (s : State) (i : ℕ) (r : Request) (p : Phase) : Prop := s.requests[i]? = some (r, p)

theorem State.At.lt (h : s.At i r p) : i < s.requests.length :=
  (List.getElem?_eq_some_iff.mp h).1

theorem State.At.unique (h : s.At i r p) (h' : s.At i r' p') : r = r' ∧ p = p' :=
  Prod.mk.inj (Option.some.inj (h.symm.trans h'))

/-- The row of a caller's request. -/
def State.claim (s : State) (i : ℕ) : Option Stamp := s.requests[i]?.map fun x => stamp x.1.job

theorem State.At.claim (h : s.At i r p) : s.claim i = some (stamp r.job) := by
  rw [State.claim, h, Option.map_some]

/-- What every statement of every request keeps; `S₀` are the first rows. -/
structure Inv (S₀ : List Stamp) (s : State) : Prop where
  unique : Unique s.database.stamps
  ok : ∀ i r p, s.At i r p → p.Ok r (i ∈ s.database.inserted) s.database.stamps
  held : ∀ i r p, s.At i r p → (p.holding = true ↔ s.database.holder = some i)
  holder : ∀ i, s.database.holder = some i → i < s.requests.length
  pending : ∀ j, s.database.pending = some j → ∃ i r, s.At i r .commit ∧ stamp j = stamp r.job ∧
    Free s.database.stamps (stamp j)
  rows : s.database.stamps.map some = S₀.map some ++ s.database.inserted.reverse.map s.claim

theorem inv_init (h : requests.Init s) : Inv s.database.stamps s := by
  obtain ⟨hu, hr, hh, hp, hi⟩ := h
  exact ⟨hu, by simp [State.At, hr], by simp [State.At, hr], by simp [hh], by simp [hp],
    by simp [hi]⟩

theorem Inv.known (h : Inv S₀ s) (hi : i ∈ s.database.inserted) :
    ∃ r p, s.At i r p ∧ stamp r.job ∈ s.database.stamps := by
  have hmem : s.claim i ∈ s.database.stamps.map some := by
    rw [h.rows]
    exact mem_append_right _ (mem_map_of_mem (mem_reverse.mpr hi))
  obtain ⟨x, hx, hclaim⟩ := mem_map.mp hmem
  obtain ⟨⟨r, p⟩, hat, rfl⟩ := Option.map_eq_some_iff.mp hclaim.symm
  exact ⟨r, p, hat, hx⟩

theorem Inv.traced (h : Inv S₀ s) (hx : x ∈ s.database.stamps) :
    x ∈ S₀ ∨ ∃ i ∈ s.database.inserted, ∃ r p, s.At i r p ∧ stamp r.job = x := by
  have hmem : some x ∈ s.database.stamps.map some := mem_map_of_mem hx
  rw [h.rows, mem_append] at hmem
  refine hmem.imp (fun hx => by simpa using hx) fun hx => ?_
  obtain ⟨i, hi, hclaim⟩ := mem_map.mp hx
  obtain ⟨⟨r, p⟩, hat, hst⟩ := Option.map_eq_some_iff.mp hclaim
  exact ⟨i, mem_reverse.mp hi, r, p, hat, hst⟩

theorem Inv.single (h : Inv S₀ s) (hi : i ∈ s.database.inserted) (hk : k ∈ s.database.inserted)
    (hat : s.At i r p) (hat' : s.At k r' p') (hkey : (stamp r.job).key = (stamp r'.job).key) :
    i = k := by
  have hkeys : ((s.database.stamps.map some).map (Option.map Stamp.key)).Nodup := by
    simpa [Function.comp_def] using h.unique.keys.map fun _ _ => Option.some.inj
  rw [h.rows, map_append, map_map, map_map, map_reverse] at hkeys
  refine inj_on_of_nodup_map (nodup_reverse.mp hkeys.of_append_right) hi hk ?_
  simp [hat.claim, hat'.claim, hkey]

theorem at_call_iff : State.At { s with requests := s.requests ++ [(r', r'.first)] } i r p ↔
    s.At i r p ∨ (i = s.requests.length ∧ r = r' ∧ p = r'.first) := by
  unfold State.At
  rcases Nat.lt_trichotomy i s.requests.length with hi | rfl | hi
  · simp [getElem?_append_left hi, hi.ne]
  · simp [eq_comm]
  · rw [getElem?_eq_none (by simp; omega), getElem?_eq_none hi.le]
    simp [hi.ne']

theorem at_put_iff {q : Phase} (h : s.At i r p) : (s.put i r d' p').At k r' q ↔
    (k = i ∧ r' = r ∧ q = p') ∨ (k ≠ i ∧ s.At k r' q) := by
  unfold State.At State.put
  rcases eq_or_ne k i with rfl | hk
  · simp [h.lt, eq_comm]
  · simp [hk, hk.symm]

theorem Inv.call (h : Inv S₀ s) : Inv S₀ { s with requests := s.requests ++ [(r, r.first)] } := by
  have hfirst : ∀ won, ¬ won → r.first.Ok r won s.database.stamps := by
    intro won hw
    unfold Request.first
    split
    · exact hw
    · exact ok_first hw
  have hidle : r.first.holding = false := by
    unfold Request.first
    split
    · rfl
    · exact holding_first
  refine ⟨h.unique, fun i r' p hat => ?_, fun i r' p hat => ?_, fun i hi => ?_, fun j hj => ?_,
    ?_⟩
  · rcases at_call_iff.mp hat with hat | ⟨rfl, rfl, rfl⟩
    · exact h.ok i r' p hat
    · refine hfirst _ fun hwon => ?_
      obtain ⟨r₀, p₀, hat, -⟩ := h.known hwon
      exact absurd hat.lt (lt_irrefl _)
  · rcases at_call_iff.mp hat with hat | ⟨rfl, rfl, rfl⟩
    · exact h.held i r' p hat
    · exact ⟨fun hh => by simp [hidle] at hh, fun hh => absurd (h.holder _ hh) (lt_irrefl _)⟩
  · exact (h.holder i hi).trans (by simp)
  · obtain ⟨i, r', hat, hrest⟩ := h.pending j hj
    exact ⟨i, r', at_call_iff.mpr (.inl hat), hrest⟩
  · refine h.rows.trans (congrArg (_ ++ ·) (map_congr_left fun i hi => ?_))
    obtain ⟨r', p, hat, -⟩ := h.known (mem_reverse.mp hi)
    rw [hat.claim, (at_call_iff.mpr (.inl hat)).claim]

theorem Writes.subset (h : Writes i r d d') : d.stamps ⊆ d'.stamps := by
  cases h with
  | none hs => exact hs ▸ fun _ h => h
  | own hs => exact hs ▸ fun _ h => mem_append_left _ h

theorem Writes.inserted_iff (h : Writes i r d d') (hk : k ≠ i) :
    k ∈ d'.inserted ↔ k ∈ d.inserted := by
  cases h with
  | none _ hi => rw [hi]
  | own _ hi => simp [hi, hk]

theorem Inv.put (h : Inv S₀ s) (hat : s.At i r p) (hw : Writes i r s.database d')
    (hl : Locks i r s.database d' p p') (hok : p'.Ok r (i ∈ d'.inserted) d'.stamps) :
    Inv S₀ (s.put i r d' p') := by
  have hself : (s.put i r d' p').At i r p' := (at_put_iff hat).mpr (.inl ⟨rfl, rfl, rfl⟩)
  have hother : ∀ k r₁ p₁, k ≠ i → s.At k r₁ p₁ → (s.put i r d' p').At k r₁ p₁ :=
    fun k r₁ p₁ hk hat' => (at_put_iff hat).mpr (.inr ⟨hk, hat'⟩)
  have hclaim : (s.put i r d' p').claim = s.claim := by
    funext k
    rcases eq_or_ne k i with rfl | hk
    · rw [hself.claim, hat.claim]
    · simp [State.claim, State.put, hk.symm]
  refine ⟨?_, fun k r₁ q hk => ?_, fun k r₁ q hk => ?_, fun k hk => ?_, fun j hj => ?_,
    ?_⟩
  · cases hw with
    | none hs => exact hs ▸ h.unique
    | own hs _ hfree => exact hs ▸ h.unique.push hfree
  · rcases (at_put_iff hat).mp hk with ⟨rfl, rfl, rfl⟩ | ⟨hne, hk⟩
    · exact hok
    · have hsame := propext (hw.inserted_iff hne)
      exact hsame ▸ (h.ok k r₁ q hk).mono hw.subset
  · rcases (at_put_iff hat).mp hk with ⟨rfl, rfl, rfl⟩ | ⟨hne, hk⟩
    · exact hl.own
    · exact (h.held k r₁ q hk).trans (hl.other k hne).symm
  · rcases eq_or_ne k i with rfl | hne
    · exact hself.lt
    · simpa [State.put] using h.holder k ((hl.other k hne).mp hk)
  · rcases hl.pending j hj with ⟨rfl, hst, hfree⟩ | ⟨hidle, hold, hfree⟩
    · exact ⟨i, r, hself, hst, hfree⟩
    · obtain ⟨k, r₁, hk, hst, hf⟩ := h.pending j hold
      have hne : k ≠ i := by
        rintro rfl
        obtain ⟨-, rfl⟩ := hat.unique hk
        cases hidle
      exact ⟨k, r₁, hother k r₁ _ hne hk, hst, hfree hf⟩
  · rw [hclaim]
    cases hw with
    | none hs hi => exact hs ▸ hi ▸ h.rows
    | own hs hi =>
      change d'.stamps.map some = _ ++ d'.inserted.reverse.map _
      simp [hs, hi, h.rows, hat.claim]

theorem Inv.same (h : Inv S₀ s) (hr : s'.requests = s.requests)
    (hs : s'.database.stamps = s.database.stamps) (hh : s'.database.holder = s.database.holder)
    (hp : s'.database.pending = s.database.pending)
    (hi : s'.database.inserted = s.database.inserted) : Inv S₀ s' := by
  have hat : ∀ i r p, s'.At i r p ↔ s.At i r p := fun i r p => by rw [State.At, State.At, hr]
  refine ⟨hs ▸ h.unique, ?_, ?_, ?_, ?_, ?_⟩
  · simpa only [hat, hi, hs] using h.ok
  · simpa only [hat, hh] using h.held
  · simpa only [hr, hh] using h.holder
  · simpa only [hat, hp, hs] using h.pending
  · have hclaim : s'.claim = s.claim := by
      funext i
      rw [State.claim, hr, State.claim]
    simpa only [hclaim, hi, hs] using h.rows

theorem Inv.pending_none (h : Inv S₀ s) (hat : s.At i r p) (hp : p.holding = true)
    (hne : p ≠ .commit) : s.database.pending = none := by
  cases hj : s.database.pending with
  | none => rfl
  | some j =>
    obtain ⟨k, r', hk, -⟩ := h.pending j hj
    have hi := (h.held i r p hat).mp hp
    have hk' := (h.held k r' .commit hk).mp rfl
    cases hi.symm.trans hk'
    exact absurd (hat.unique hk).2 hne

theorem Inv.owns (h : Inv S₀ s) (hat : s.At i r .commit) : s.database.Owns r := by
  intro j hj
  obtain ⟨k, r', hk, hst, hfree⟩ := h.pending j hj
  have hi := (h.held i r .commit hat).mp rfl
  have hk' := (h.held k r' .commit hk).mp rfl
  cases hi.symm.trans hk'
  obtain ⟨rfl, -⟩ := hat.unique hk
  exact ⟨hst, hst ▸ hfree⟩

theorem next_cases {building : Bool} (h : requests.step s (.next i building) = some s') :
    ∃ r p d' p', s.At i r p ∧ s.database.next i r building p = some (d', p') ∧
      s' = s.put i r d' p' := by
  simp only [requests, State.step] at h
  split at h
  · cases h
  · rename_i r p hat
    obtain ⟨⟨d', p'⟩, hnext, rfl⟩ := Option.map_eq_some_iff.mp h
    exact ⟨r, p, d', p', hat, hnext, rfl⟩

theorem Inv.step (h : Inv S₀ s) (ha : requests.step s a = some s') :
    Inv S₀ s' ∧ s.database.stamps <+: s'.database.stamps := by
  cases a with
  | call r =>
    cases ha
    exact ⟨h.call, prefix_rfl⟩
  | next i building =>
    obtain ⟨r, p, d', p', hat, hnext, rfl⟩ := next_cases ha
    have hown : p = .commit → s.database.Owns r := by
      rintro rfl
      exact h.owns hat
    obtain ⟨hw, hok⟩ := next_spec h.unique (h.ok i r p hat) hown hnext
    have hfree : s.database.holder = none → s.database.pending = none := by
      intro hn
      cases hj : s.database.pending with
      | none => rfl
      | some j =>
        obtain ⟨k, r', hk, -⟩ := h.pending j hj
        have := (h.held k r' .commit hk).mp rfl
        rw [hn] at this
        cases this
    refine ⟨h.put hat hw (next_locks (h.held i r p hat) (h.pending_none hat) hfree hnext) hok, ?_⟩
    cases hw with
    | none hs => exact ⟨[], by simpa [State.put] using hs.symm⟩
    | own hs => exact ⟨[stamp r.job], hs.symm⟩
  | abort i =>
    simp only [requests, State.step] at ha
    split at ha
    · cases ha
    · rename_i r p hat
      obtain ⟨hheld, ha⟩ := Option.ite_none_right_eq_some.mp ha
      cases ha
      have hp := (h.held i r p hat).mpr hheld
      have hlost := not_won_of_holding (h.ok i r p hat) hp
      refine ⟨h.put hat (.none rfl rfl) (.release hp rfl (h.held i r p hat) rfl rfl)
        (ok_fail hlost), prefix_rfl⟩
  | update id state upid =>
    cases ha
    have hs : Database.stamps { s.database with tables := { s.database.tables with
        jobs := updateWhere (fun j => j.id == id) (fun j => { j with state := state, upid := upid })
          s.database.tables.jobs } } = s.database.stamps := by
      simp only [Database.stamps, updateWhere, map_map]
      refine map_congr_left fun j _ => ?_
      simp only [Function.comp_apply]
      split <;> rfl
    exact ⟨h.same rfl hs rfl rfl rfl, hs ▸ prefix_rfl⟩
  | others desktops =>
    cases ha
    exact ⟨h.same rfl rfl rfl rfl rfl, prefix_rfl⟩

theorem stamps_of_leads (hs : Inv S₀ s) (h : requests.Leads s s') :
    Inv S₀ s' ∧ s.database.stamps <+: s'.database.stamps := by
  refine h.preserves (P := fun t => Inv S₀ t ∧ s.database.stamps <+: t.database.stamps) ?_
    ⟨hs, prefix_rfl⟩
  rintro t a u ⟨ht, hle⟩ ha
  exact ⟨(ht.step ha).1, hle.trans (ht.step ha).2⟩

/-- One row and one creator for every key, the same job for every request of its fingerprint, and
a conflict for the others. -/
theorem job_idempotency {s₀ : State} (h₀ : requests.Init s₀) (h : requests.Leads s₀ s) :
    (s.database.tables.jobs.map (·.idempotencyKey)).Nodup ∧ (∀ t, requests.Leads s t →
      s.database.tables.jobs.map stamp <+: t.database.tables.jobs.map stamp) ∧
    (∀ j ∈ s.database.tables.jobs, j.idempotencyKey ∉ s₀.database.tables.jobs.map
      (·.idempotencyKey) → ∃! i, i ∈ s.database.inserted ∧ ∃ r p, s.At i r p ∧
        r.job.idempotencyKey = j.idempotencyKey) ∧
    (∀ i r o, s.At i r (.done o) → (o.created = true ↔ i ∈ s.database.inserted) ∧
      (o.created = true → ∃ j, o.result = .ok j ∧ stamp j = stamp r.job) ∧
      ∀ j, o.result = .ok j → stamp j ∈ s.database.tables.jobs.map stamp ∧
        j.idempotencyKey = r.job.idempotencyKey ∧
        j.requestFingerprint = r.job.requestFingerprint) ∧
    ∀ i building t r o, requests.step s (.next i building) = some t → t.At i r (.done o) →
      ∀ j ∈ s.database.tables.jobs, j.idempotencyKey = r.job.idempotencyKey →
        j.requestFingerprint ≠ r.job.requestFingerprint → o = ⟨.error .conflict, false⟩ := by
  have hinv := (stamps_of_leads (inv_init h₀) h).1
  refine ⟨?_, fun t ht => (stamps_of_leads hinv ht).2, fun j hj hnew => ?_, fun i r o hat => ?_, ?_⟩
  · simpa [Database.stamps, stamp, Function.comp_def] using hinv.unique.keys
  · have hmem : stamp j ∈ s.database.stamps := mem_map_of_mem hj
    rcases hinv.traced hmem with hold | ⟨i, hi, r, p, hat, hst⟩
    · obtain ⟨j₀, hj₀, hst⟩ := mem_map.mp hold
      exact absurd (mem_map.mpr ⟨j₀, hj₀, congrArg Stamp.key hst⟩) hnew
    · refine ⟨i, ⟨hi, r, p, hat, congrArg Stamp.key hst⟩, ?_⟩
      rintro k ⟨hk, r', p', hat', hkey⟩
      exact hinv.single hk hi hat' hat (hkey.trans (congrArg Stamp.key hst).symm)
  · obtain ⟨hwon, hown, hread⟩ := hinv.ok i r _ hat
    exact ⟨hwon, fun hc => hown (hwon.mp hc), hread⟩
  · intro i building t r o ha hdone j hj hkey hfp
    obtain ⟨r', p, d', p', hat, hnext, rfl⟩ := next_cases ha
    obtain ⟨-, rfl, rfl⟩ | ⟨hne, -⟩ := (at_put_iff hat).mp hdone
    · exact next_conflict hinv.unique (hinv.ok i r p hat) hnext (mem_map_of_mem hj) hkey hfp
    · exact absurd rfl hne

end Interleavings

section Sample

def sampleRequest (id fingerprint : String) : Request where
  job := ⟨id, "sha256:key", fingerprint, .other "pve.vm.start", .accepted, 0, 101, some "pve1",
    some "pve1", none, "null"⟩
  rawKey := "start-101-a"
  prepared := true
  insertion := .create

def sampleState : State where
  database := ⟨⟨[], [], [], [], [], [], [], [], []⟩, none, none, []⟩
  requests := []

/-- Two requests of one fingerprint and one of another look for a job before any inserts it. -/
def sampleRun : List Action :=
  [.call (sampleRequest "job_a" "sha256:x"), .call (sampleRequest "job_b" "sha256:x"),
    .call (sampleRequest "job_c" "sha256:y")] ++
  [0, 0, 1, 1, 2, 2, 0, 1, 2, 0, 0, 1, 1, 2].map (Action.next · false)

/-- The first request creates the job, the second gets it, and the third gets a conflict. -/
theorem job_idempotency_raced : ∃ s r r' j, requests.Reachable s ∧
    s.At 1 r (.done ⟨.ok j, false⟩) ∧ s.At 2 r' (.done ⟨.error .conflict, false⟩) ∧
    (s.database.tables.jobs.map (·.idempotencyKey)).Nodup ∧
    j.requestFingerprint = r.job.requestFingerprint := by
  obtain ⟨s, ⟨s₀, h₀, hs⟩, h₁, h₂⟩ := Machine.exists_reachable_of_run (M := requests)
    (P := fun s => s.requests[1]? = some (sampleRequest "job_b" "sha256:x",
        .done ⟨.ok (sampleRequest "job_a" "sha256:x").job, false⟩) ∧
      s.requests[2]? = some (sampleRequest "job_c" "sha256:y", .done ⟨.error .conflict, false⟩))
    sampleState sampleRun ⟨⟨by simp [sampleState, Database.stamps], by
      simp [sampleState, Database.stamps]⟩, rfl, rfl, rfl, rfl⟩ (by decide +kernel)
  obtain ⟨hkeys, -, -, hdone, -⟩ := job_idempotency h₀ hs
  exact ⟨s, _, _, _, ⟨s₀, h₀, hs⟩, h₁, h₂, hkeys, ((hdone 1 _ _ h₁).2.2 _ rfl).2.2⟩

end Sample

end VcWorkspace.Server.JobRequests
