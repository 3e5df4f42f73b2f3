import Mathlib.Data.List.Infix
import Mathlib.Data.List.Nodup
import VcWorkspace.Guest.Identity

/-! # Audit events

The details of an event are cleaned before they are stored: values under
sensitive keys are replaced, and depth, width and texts are cut. Events are read
in pages, each of which begins below the last event of the page before.
-/

namespace VcWorkspace.Store.Audit

open Guest List Bool

section Details

/-- A decoded JSON value; numbers are the bits of a float, and a text may end inside a
character once it is cut. -/
inductive Value
  | null
  | bool (b : Bool)
  | number (bits : UInt64)
  | text (bytes : List UInt8)
  | array (values : List Value)
  | object (members : List (String × Value))

abbrev Member := String × Value

def fragments : List String :=
  ["password", "secret", "token", "authorization", "cookie", "credential", "product_key",
    "private_key"]

variable (toLower : Char → Char)

def auditKeyIsSensitive (key : String) : Bool :=
  let normalized := (key.toList.map fun c => if c = '-' then '_' else c).map toLower
  fragments.any fun fragment => fragment.toList <:+: normalized

def ellipsis : List UInt8 := bytes "…"

def assign (ms : List Member) (key : String) (value : Value) : List Member :=
  if ms.any (·.1 == key) then ms.map fun m => if m.1 == key then (key, value) else m
  else ms ++ [(key, value)]

/-- Which members of a map the loop has visited when it stops, by the iteration order of the map at
this position. -/
structure Iteration where
  visit : List ℕ → List Member → List Member
  sublist : ∀ position ms, (visit position ms).Sublist ms
  length : ∀ position ms, (visit position ms).length = min ms.length 64

/-- `sanitizeAuditValue` with the number of levels that are left. -/
def sanitize (order : Iteration) : ℕ → List ℕ → Value → Value
  | 0, _, _ => .text (bytes "[TRUNCATED]")
  | n + 1, position, .object ms =>
    let clean := (order.visit position ms).mapIdx fun i m =>
      (m.1, if auditKeyIsSensitive toLower m.1 then .text (bytes "[REDACTED]")
        else sanitize order n (i :: position) m.2)
    .object (if 64 < ms.length then assign clean "truncated" (.bool true) else clean)
  | n + 1, position, .array values =>
    .array ((values.take 64).mapIdx fun i v => sanitize order n (i :: position) v)
  | _ + 1, _, .text s => .text (if 1024 < s.length then s.take 1024 ++ ellipsis else s)
  | _ + 1, _, v => v

def sanitizeAuditValue (order : Iteration) (value : Value) (depth : ℕ) : Value :=
  sanitize toLower order (5 - depth) [] value

end Details

section Redaction

variable (toLower : Char → Char)

mutual

def forget : Value → Value
  | .array vs => .array (forgetValues vs)
  | .object ms => .object (forgetMembers ms)
  | v => v

def forgetValues : List Value → List Value
  | [] => []
  | v :: vs => forget v :: forgetValues vs

def forgetMembers : List Member → List Member
  | [] => []
  | (k, v) :: ms =>
    (k, if auditKeyIsSensitive toLower k then .null else forget v) :: forgetMembers ms

end

mutual

/-- Every object has at most 64 members. -/
def narrow : Value → Bool
  | .array vs => narrowValues vs
  | .object ms => ms.length ≤ 64 && narrowMembers ms
  | _ => true

def narrowValues : List Value → Bool
  | [] => true
  | v :: vs => narrow v && narrowValues vs

def narrowMembers : List Member → Bool
  | [] => true
  | (_, v) :: ms => narrow v && narrowMembers ms

end

/-- The bounds: `n` nested arrays and objects, 65 members, 64 values, and texts of 1024 bytes with
the ellipsis. -/
def fits : ℕ → Value → Bool
  | _, .text s => s.length ≤ 1024 || (s.length == 1024 + ellipsis.length && s.drop 1024 == ellipsis)
  | n + 1, .array vs => vs.length ≤ 64 && vs.all (fits n)
  | n + 1, .object ms => ms.length ≤ 65 && ms.all fun m => fits n m.2
  | 0, .array _ | 0, .object _ => false
  | _, _ => true

variable {toLower} {order order' : Iteration} {n : ℕ}

theorem visit_of_narrow {position : List ℕ} {ms : List Member} (h : ms.length ≤ 64) :
    order.visit position ms = ms :=
  (order.sublist position ms).eq_of_length (by rw [order.length]; omega)

theorem forgetValues_eq (vs : List Value) : forgetValues toLower vs = vs.map (forget toLower) := by
  induction vs with
  | nil => rfl
  | cons v vs ih => rw [forgetValues, ih, map_cons]

theorem forgetMembers_eq (ms : List Member) : forgetMembers toLower ms = ms.map fun m =>
    (m.1, if auditKeyIsSensitive toLower m.1 then .null else forget toLower m.2) := by
  induction ms with
  | nil => rfl
  | cons m ms ih => rw [forgetMembers, ih, map_cons]

theorem narrow_of_mem {vs : List Value} (h : narrowValues vs = true) {v : Value} (hv : v ∈ vs) :
    narrow v = true := by
  induction vs with
  | nil => cases hv
  | cons w vs ih =>
    rw [narrowValues, and_eq_true] at h
    rcases mem_cons.mp hv with rfl | hv
    · exact h.1
    · exact ih h.2 hv

theorem narrow_of_mem_members {ms : List Member} (h : narrowMembers ms = true) {m : Member}
    (hm : m ∈ ms) : narrow m.2 = true := by
  induction ms with
  | nil => cases hm
  | cons x ms ih =>
    rw [narrowMembers, and_eq_true] at h
    rcases mem_cons.mp hm with rfl | hm
    · exact h.1
    · exact ih h.2 hm

theorem mapIdx_eq_of_map_eq {α β γ : Type} {f : α → β} {xs ys : List α} {g g' : ℕ → α → γ}
    (h : xs.map f = ys.map f) (hg : ∀ i, ∀ x ∈ xs, ∀ y ∈ ys, f x = f y → g i x = g' i y) :
    xs.mapIdx g = ys.mapIdx g' := by
  have hlength : xs.length = ys.length := by simpa using congrArg List.length h
  refine ext_getElem (by simpa using hlength) fun i hx hy => ?_
  rw [getElem_mapIdx, getElem_mapIdx]
  rw [length_mapIdx] at hx hy
  refine hg i _ (getElem_mem hx) _ (getElem_mem hy) ?_
  have hi := congrArg (·[i]?) h
  simpa [hx, hy] using hi

theorem sanitize_congr {position : List ℕ} {v w : Value} (hv : narrow v = true)
    (hw : narrow w = true) (h : forget toLower v = forget toLower w) :
    sanitize toLower order n position v = sanitize toLower order' n position w := by
  induction n generalizing position v w with
  | zero => rfl
  | succ n ih =>
    cases v with
    | array vs =>
      cases w with
      | array ws =>
        rw [forget, forget, Value.array.injEq, forgetValues_eq, forgetValues_eq] at h
        refine congrArg Value.array (mapIdx_eq_of_map_eq (f := forget toLower) ?_ ?_)
        · rw [map_take, h, map_take]
        · intro i x hx y hy hxy
          exact ih (narrow_of_mem hv (mem_of_mem_take hx))
            (narrow_of_mem hw (mem_of_mem_take hy)) hxy
      | _ => cases h
    | object ms =>
      cases w with
      | object ns =>
        rw [narrow, and_eq_true, decide_eq_true_eq] at hv hw
        rw [forget, forget, Value.object.injEq, forgetMembers_eq, forgetMembers_eq] at h
        simp only [sanitize, visit_of_narrow hv.1, visit_of_narrow hw.1, Nat.not_lt.mpr hv.1,
          Nat.not_lt.mpr hw.1, if_false]
        refine congrArg Value.object (mapIdx_eq_of_map_eq h ?_)
        intro i x hx y hy hxy
        obtain ⟨hkey, hvalue⟩ := Prod.mk.inj hxy
        rw [hkey] at hvalue ⊢
        cases hs : auditKeyIsSensitive toLower y.1 with
        | true => simp
        | false =>
          simp only [hs] at hvalue ⊢
          exact congrArg _ (ih (narrow_of_mem_members hv.2 hx) (narrow_of_mem_members hw.2 hy)
            hvalue)
      | _ => cases h
    | _ => cases w <;> first | rfl | (cases h; rfl) | cases h

theorem length_assign_le (ms : List Member) (key : String) (value : Value) :
    (assign ms key value).length ≤ ms.length + 1 := by
  unfold assign
  split
  · rw [length_map]
    exact Nat.le_succ _
  · rw [length_append, length_singleton]

theorem mem_assign {ms : List Member} {key : String} {value : Value} {m : Member}
    (h : m ∈ assign ms key value) : m ∈ ms ∨ m = (key, value) := by
  unfold assign at h
  split at h
  · obtain ⟨x, hx, rfl⟩ := mem_map.mp h
    split
    · exact .inr rfl
    · exact .inl hx
  · exact (mem_append.mp h).imp_right mem_singleton.mp

theorem fits_text {s : List UInt8} (h : s.length ≤ 1024) : fits n (.text s) = true := by
  rw [fits, decide_eq_true h, Bool.true_or]

theorem fits_sanitize (n : ℕ) (position : List ℕ) (v : Value) :
    fits n (sanitize toLower order n position v) = true := by
  induction n generalizing position v with
  | zero => exact fits_text (by decide)
  | succ n ih =>
    cases v with
    | text s =>
      simp only [sanitize]
      split
      next hlong =>
        have htake : (s.take 1024).length = 1024 := by
          rw [length_take]
          omega
        rw [fits, or_eq_true, and_eq_true, beq_iff_eq, beq_iff_eq, length_append,
          htake, drop_left' htake]
        exact .inr ⟨rfl, rfl⟩
      next hshort => exact fits_text (Nat.le_of_not_lt hshort)
    | array vs =>
      simp only [sanitize, fits, and_eq_true, decide_eq_true_eq, all_eq_true,
        length_mapIdx, length_take, mem_mapIdx]
      refine ⟨Nat.min_le_left _ _, ?_⟩
      rintro _ ⟨i, hi, rfl⟩
      exact ih _ _
    | object ms =>
      simp only [sanitize]
      generalize hclean : (order.visit position ms).mapIdx _ = clean
      have hlength : clean.length ≤ 64 := by
        rw [← hclean, length_mapIdx, order.length]
        exact Nat.min_le_right _ _
      have hfits : ∀ m ∈ clean, fits n m.2 = true := by
        intro m hm
        rw [← hclean, mem_mapIdx] at hm
        obtain ⟨i, hi, rfl⟩ := hm
        split
        · exact fits_text (by decide)
        · exact ih _ _
      simp only [fits, and_eq_true, decide_eq_true_eq, all_eq_true]
      split
      · refine ⟨(length_assign_le _ _ _).trans (Nat.succ_le_succ hlength), fun m hm => ?_⟩
        rcases mem_assign hm with hm | rfl
        · exact hfits m hm
        · cases n <;> rfl
      · exact ⟨hlength.trans (by decide), hfits⟩
    | null | bool | number => rfl

/-- Details that agree but for sensitive values are stored alike, in whatever order their maps are
visited, and all that is stored is small. -/
theorem audit_redaction (toLower : Char → Char) :
    (∀ order order' v w, narrow v = true → narrow w = true →
      forget toLower v = forget toLower w →
        sanitizeAuditValue toLower order v 0 = sanitizeAuditValue toLower order' w 0) ∧
    ∀ order v, fits 5 (sanitizeAuditValue toLower order v 0) = true :=
  ⟨fun _ _ _ _ hv hw h => sanitize_congr hv hw h, fun _ v => fits_sanitize 5 [] v⟩

def inOrder : Iteration where
  visit _ ms := ms.take 64
  sublist _ ms := List.take_sublist 64 ms
  length _ ms := by rw [List.length_take, Nat.min_comm]

def sampleDetail (password : String) : Value :=
  .object [("user", .text (bytes "ada")),
    ("login", .array [.object [("New-Password", .text (bytes password))]])]

theorem audit_redaction_password : sanitizeAuditValue Char.toLower inOrder (sampleDetail "one") 0 =
      sanitizeAuditValue Char.toLower inOrder (sampleDetail "two") 0 := by
  refine (audit_redaction Char.toLower).1 _ _ _ _ rfl rfl ?_
  have hkeys : auditKeyIsSensitive Char.toLower "New-Password" = true ∧
      auditKeyIsSensitive Char.toLower "login" = false := by decide
  simp [sampleDetail, forget, forgetMembers, forgetValues, hkeys]

end Redaction

section Pages

/-- A row of `audit_events`, as far as it is filtered; the sequence of its numbers starts at one. -/
structure Event where
  id : ℕ
  positive : 0 < id
  actorId : Option String
  eventType : String
  outcome : String
  targetType : Option String
  targetId : Option String
  deriving DecidableEq

/-- The names of users and agents, and the database's function `lower`. -/
structure Names where
  user : String → Option (String × String)
  agent : String → Option String
  lower : String → List Char

structure Query where
  limit : ℤ
  before : ℤ
  outcome : String
  search : String
  deriving DecidableEq

structure Page where
  events : List Event
  nextCursor : Option ℕ

variable (names : Names)

/-- The texts of an event that are searched; those that are `NULL` are left out. -/
def searched (e : Event) : String :=
  let user := e.actorId.bind names.user
  let agent := e.actorId.bind fun id => (names.agent id).map fun name => (id, name)
  " ".intercalate ([some e.eventType, user.map (·.1), user.map (·.2), agent.map (·.1),
    agent.map (·.2), e.targetType, e.targetId].filterMap id)

def selected (q : Query) (e : Event) : Bool :=
  (q.outcome == "" || e.outcome == q.outcome) &&
    (q.search == "" || names.lower q.search <:+: names.lower (searched names e))

def validQuery (q : Query) : Bool :=
  1 ≤ q.limit && q.limit ≤ 100 && 0 ≤ q.before &&
    (q.outcome == "" || q.outcome == "success" || q.outcome == "failure")

/-- The rows of the statement: selected, below the cursor, the newest first. -/
def rows (table : List Event) (q : Query) : List Event :=
  ((table.filter fun e => selected names q e && (q.before == 0 || (e.id : ℤ) < q.before)).mergeSort
    fun a b => b.id ≤ a.id).take (q.limit.toNat + 1)

def auditEvents (table : List Event) (q : Query) : Option Page :=
  if validQuery q then
    let events := rows names table q
    if q.limit.toNat < events.length then
      let events := events.take q.limit.toNat
      some ⟨events, events.getLast?.map (·.id)⟩
    else some ⟨events, none⟩
  else none

/-- Follow the cursors. The table of page `k` is `tables k`; without enough fuel there is no
result. -/
def follow (tables : ℕ → List Event) (q : Query) : ℕ → ℕ → Option (List Event)
  | 0, _ => none
  | fuel + 1, k => do
    let page ← auditEvents names (tables k) q
    match page.nextCursor with
    | none => some page.events
    | some cursor =>
      (follow tables { q with before := cursor } fuel (k + 1)).map (page.events ++ ·)

/-- The table of each page: events are appended, and their numbers are distinct. -/
structure Appends (tables : ℕ → List Event) : Prop where
  distinct : ∀ k, ((tables k).map (·.id)).Nodup
  grows : ∀ k, ∀ e ∈ tables k, e ∈ tables (k + 1)

variable {q : Query} {table : List Event} {tables : ℕ → List Event} {l : List Event}

/-- What a page is: selected events below the cursor in decreasing order, all of them down to the
next cursor. -/
structure PageOk (q : Query) (table : List Event) (page : Page) : Prop where
  decreasing : page.events.Pairwise fun a b => b.id < a.id
  sound : ∀ e ∈ page.events, e ∈ table ∧ selected names q e = true ∧
    (q.before = 0 ∨ (e.id : ℤ) < q.before)
  low : ∀ c, page.nextCursor = some c → 0 < c ∧ (q.before = 0 ∨ (c : ℤ) < q.before) ∧
    ∀ e ∈ page.events, c ≤ e.id
  complete : ∀ e ∈ table, selected names q e = true → (q.before = 0 ∨ (e.id : ℤ) < q.before) →
    (∀ c, page.nextCursor = some c → c ≤ e.id) → e ∈ page.events

theorem le_of_getLast? (h : l.Pairwise fun a b => b.id < a.id) {e last : Event}
    (hlast : l.getLast? = some last) (he : e ∈ l) : last.id ≤ e.id := by
  obtain ⟨init, rfl⟩ := List.getLast?_eq_some_iff.mp hlast
  rcases mem_append.mp he with he | he
  · exact ((pairwise_append.mp h).2.2 e he last (mem_singleton_self last)).le
  · rw [mem_singleton.mp he]

theorem mem_rows_of_sorted (h : l.Pairwise fun a b => b.id < a.id) {n : ℕ} {e last : Event}
    (he : e ∈ l) (hlast : (l.take n).getLast? = some last) (hle : last.id ≤ e.id) :
    e ∈ l.take n := by
  rw [← take_append_drop n l] at he h
  refine (mem_append.mp he).resolve_right fun hdrop => ?_
  have hlt := (pairwise_append.mp h).2.2 last (mem_of_getLast? hlast) e hdrop
  omega

theorem exists_sorted (hdistinct : (table.map (·.id)).Nodup) : ∃ l : List Event,
    rows names table q = l.take (q.limit.toNat + 1) ∧ l.Pairwise (fun a b => b.id < a.id) ∧
      ∀ e, e ∈ l ↔ e ∈ table ∧ selected names q e = true ∧
        (q.before = 0 ∨ (e.id : ℤ) < q.before) := by
  refine ⟨_, rfl, ?_, fun e => ?_⟩
  · generalize hfilter : table.filter _ = l
    have hsorted : (l.mergeSort fun a b => b.id ≤ a.id).Pairwise fun a b => b.id ≤ a.id := by
      have h := @pairwise_mergeSort _ (fun a b : Event => decide (b.id ≤ a.id))
        (fun a b c hab hbc => by simp only [decide_eq_true_eq] at *; omega)
        (fun a b => by simp only [or_eq_true, decide_eq_true_eq]; omega) l
      simpa using h
    have hnodup : ((l.mergeSort fun a b => b.id ≤ a.id).map (·.id)).Nodup := by
      rw [((mergeSort_perm l _).map _).nodup_iff, ← hfilter]
      exact hdistinct.sublist (filter_sublist.map _)
    rw [List.Nodup, pairwise_map] at hnodup
    exact hsorted.imp₂ (fun a b hle hne => lt_of_le_of_ne hle (Ne.symm hne)) hnodup
  · rw [mem_mergeSort, mem_filter]
    simp

theorem auditEvents_ok (hvalid : validQuery q = true) (hdistinct : (table.map (·.id)).Nodup) :
    ∃ page, auditEvents names table q = some page ∧ PageOk names q table page := by
  obtain ⟨l, hrows, hsorted, hmem⟩ := exists_sorted names (q := q) hdistinct
  have hlimit : 1 ≤ q.limit.toNat := by
    simp only [validQuery, and_eq_true, decide_eq_true_eq] at hvalid
    omega
  simp only [auditEvents, hvalid, if_true, hrows, take_take, Nat.min_eq_left (Nat.le_succ _),
    length_take]
  split
  next hmore =>
    have hne : l.take q.limit.toNat ≠ [] := by
      rw [← length_pos_iff, length_take]
      omega
    have hlast := List.getLast?_eq_some_getLast hne
    generalize (l.take q.limit.toNat).getLast hne = last at hlast
    have htake {e : Event} (he : e ∈ l.take q.limit.toNat) := (hmem e).mp (mem_of_mem_take he)
    refine ⟨_, rfl, hsorted.sublist (take_sublist _ _), fun e he => htake he, ?_, ?_⟩
    · rintro c hc
      rw [hlast] at hc
      cases hc
      have hmemLast := mem_of_getLast? hlast
      refine ⟨last.positive, (htake hmemLast).2.2, fun e he => ?_⟩
      exact le_of_getLast? (hsorted.sublist (take_sublist _ _)) hlast he
    · intro e he hsel hbelow hcursor
      refine mem_rows_of_sorted hsorted ((hmem e).mpr ⟨he, hsel, hbelow⟩) hlast (hcursor _ ?_)
      rw [hlast]
      rfl
  next hall =>
    have htake : l.take (q.limit.toNat + 1) = l := take_of_length_le (by omega)
    rw [htake]
    exact ⟨_, rfl, hsorted, fun e he => (hmem e).mp he, nofun,
      fun e he hsel hbelow _ => (hmem e).mpr ⟨he, hsel, hbelow⟩⟩

structure Walk (q : Query) (table events : List Event) : Prop where
  decreasing : events.Pairwise fun a b => b.id < a.id
  below : ∀ e ∈ events, q.before = 0 ∨ (e.id : ℤ) < q.before
  complete : ∀ e ∈ table, selected names q e = true → (q.before = 0 ∨ (e.id : ℤ) < q.before) →
    e ∈ events

theorem follow_next (h : Appends tables) (hvalid : validQuery q = true) {k : ℕ}
    (hrec : ∀ c : ℕ, 0 < c → (q.before = 0 ∨ (c : ℤ) < q.before) → ∃ fuel events,
      follow names tables { q with before := c } fuel (k + 1) = some events ∧
        Walk names { q with before := c } (tables (k + 1)) events) :
    ∃ fuel events, follow names tables q fuel k = some events ∧
      Walk names q (tables k) events := by
  obtain ⟨page, hpage, hok⟩ := auditEvents_ok names hvalid (h.distinct k)
  cases hcursor : page.nextCursor with
  | none =>
    refine ⟨1, page.events, by simp [follow, hpage, hcursor], hok.decreasing,
      fun e he => (hok.sound e he).2.2, fun e he hsel hbelow => ?_⟩
    exact hok.complete e he hsel hbelow (by rw [hcursor]; nofun)
  | some c =>
    obtain ⟨hpos, hbelow, hlow⟩ := hok.low c hcursor
    obtain ⟨fuel, events, hfollow, hwalk⟩ := hrec c hpos hbelow
    have hlt (e : Event) (he : e ∈ events) : e.id < c := by
      have hb := hwalk.below e he
      simp only at hb
      omega
    refine ⟨fuel + 1, page.events ++ events, by simp [follow, hpage, hcursor, hfollow], ?_, ?_, ?_⟩
    · refine pairwise_append.mpr ⟨hok.decreasing, hwalk.decreasing, fun a ha b hb => ?_⟩
      exact (hlt b hb).trans_le (hlow a ha)
    · intro e he
      rcases mem_append.mp he with he | he
      · exact (hok.sound e he).2.2
      · have := hlt e he
        omega
    · intro e he hsel hbelow'
      by_cases hce : c ≤ e.id
      · refine mem_append_left _ (hok.complete e he hsel hbelow' fun c' hc' => ?_)
        rw [hcursor] at hc'
        exact Option.some.inj hc' ▸ hce
      · refine mem_append_right _ (hwalk.complete e (h.grows k e he) hsel (.inr ?_))
        simp only
        omega

theorem follow_from (h : Appends tables) (hvalid : validQuery q = true) (c : ℕ) (hc : 0 < c)
    (k : ℕ) : ∃ fuel events, follow names tables { q with before := c } fuel k = some events ∧
      Walk names { q with before := c } (tables k) events := by
  induction c using Nat.strongRecOn generalizing k with
  | ind c ih =>
    have hvalid' : validQuery { q with before := c } = true := by
      simp only [validQuery, and_eq_true, decide_eq_true_eq] at hvalid ⊢
      exact ⟨⟨hvalid.1.1, Int.natCast_nonneg c⟩, hvalid.2⟩
    refine follow_next names h hvalid' fun c' hpos hbelow => ih c' ?_ hpos (k + 1)
    simp only at hbelow
    omega

/-- Following the cursors from the newest event ends, and every selected event of the first table
comes once, whatever is appended on the way. -/
theorem audit_pagination (names : Names) (tables : ℕ → List Event) (q : Query)
    (h : Appends tables) (hvalid : validQuery q = true) (hbefore : q.before = 0) :
    ∃ fuel events, follow names tables q fuel 0 = some events ∧
      events.Pairwise (fun a b => b.id < a.id) ∧ events.Nodup ∧
      ∀ e ∈ tables 0, selected names q e = true → events.count e = 1 := by
  obtain ⟨fuel, events, hfollow, hwalk⟩ := follow_next names (k := 0) h hvalid
    fun c hpos _ => follow_from names h hvalid c hpos 1
  have hnodup : events.Nodup := hwalk.decreasing.imp fun hlt heq => by
    rw [heq] at hlt
    exact lt_irrefl _ hlt
  refine ⟨fuel, events, hfollow, hwalk.decreasing, hnodup, fun e he hsel => ?_⟩
  exact count_eq_one_of_mem hnodup (hwalk.complete e he hsel (.inl hbefore))

def sampleNames : Names := ⟨fun _ => none, fun _ => none, String.toList⟩

def sampleEvent (id : ℕ) (h : 0 < id) : Event := ⟨id, h, none, "login", "success", none, none⟩

def sampleTables (k : ℕ) : List Event :=
  [sampleEvent 1 (by decide), sampleEvent 3 (by decide)] ++
    if k = 0 then [] else [sampleEvent 2 (by decide)]

theorem audit_pagination_sample : ∃ fuel events,
    follow sampleNames sampleTables ⟨1, 0, "", ""⟩ fuel 0 = some events ∧
      events.count (sampleEvent 1 (by decide)) = 1 := by
  have happends : Appends sampleTables := by
    constructor
    · intro k
      by_cases hk : k = 0 <;> simp [sampleTables, hk, sampleEvent]
    · intro k e he
      rcases mem_append.mp he with he | he
      · exact mem_append_left _ he
      · split at he
        · cases he
        · exact mem_append_right _ he
  obtain ⟨fuel, events, hfollow, -, -, hcount⟩ :=
    audit_pagination sampleNames sampleTables ⟨1, 0, "", ""⟩ happends (by decide) rfl
  exact ⟨fuel, events, hfollow, hcount _ mem_cons_self (by decide)⟩

end Pages

end VcWorkspace.Store.Audit
