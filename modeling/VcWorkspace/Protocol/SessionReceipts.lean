import Mathlib.Data.Int.Notation
import Mathlib.Data.Nat.Notation
import Mathlib.Tactic.ByContra

/-! # Receipts of the session worker

A running worker reports on its standard output, one receipt a line. The session is
ready after its first connection and its first frame; whatever else the worker
prints ends the session with an error.
-/

namespace VcWorkspace.Protocol.SessionReceipts

section Reader

inductive ReadError where
  | eof
  | bufferFull
  | noProgress
  | other
  deriving DecidableEq, Repr

/-- One answer of the pipe, which may come with an error. -/
structure Answer where
  data : List UInt8
  error : Option ReadError

structure Reader where
  buf : List UInt8
  err : Option ReadError
  output : List Answer

/-- The reads of `fill` into `room` free bytes. An answer that does not fit is taken in parts. -/
def readInto (room : ℕ) : ℕ → List Answer → List UInt8 × Option ReadError × List Answer
  | 0, output => ([], some .noProgress, output)
  | _ + 1, [] => ([], some .eof, [])
  | tries + 1, ⟨data, error⟩ :: output =>
    if room < data.length then (data.take room, none, ⟨data.drop room, error⟩ :: output)
    else if error.isSome || !data.isEmpty then (data, error, output)
    else readInto room tries output

def Reader.fill (b : Reader) : Reader :=
  let (data, err, output) := readInto (1024 - b.buf.length) 100 b.output
  ⟨b.buf ++ data, err, output⟩

/-- `ReadSlice('\n')` of a buffer of 1024 bytes. -/
def Reader.readSlice : ℕ → Reader → Option ((List UInt8 × Option ReadError) × Reader)
  | 0, _ => none
  | fuel + 1, b =>
    match b.buf.idxOf? 10 with
    | some i => some ((b.buf.take (i + 1), none), { b with buf := b.buf.drop (i + 1) })
    | none =>
      match b.err with
      | some e => some ((b.buf, some e), { b with buf := [], err := none })
      | none =>
        if 1024 ≤ b.buf.length then some ((b.buf, some .bufferFull), { b with buf := [] })
        else b.fill.readSlice fuel

theorem readInto_progress (room : ℕ) (hr : 0 < room) (tries : ℕ) (output : List Answer) :
    (readInto room tries output).2.1.isSome = true ∨ 0 < (readInto room tries output).1.length := by
  fun_induction readInto room tries output with
  | case1 => exact .inl rfl
  | case2 => exact .inl rfl
  | case3 _ data error output h =>
    simp only [List.length_take]
    omega
  | case4 _ data error output _ h =>
    simpa [List.length_pos_iff] using h
  | case5 _ data error output _ _ ih => exact ih

/-- A line takes at most one read more than the buffer has room for. -/
theorem exists_readSlice (fuel : ℕ) (b : Reader)
    (h : 0 < fuel ∧ b.err.isSome = true ∨ 1025 < fuel + b.buf.length ∧ 0 < fuel) :
    ∃ line, b.readSlice fuel = some line := by
  induction fuel generalizing b with
  | zero => omega
  | succ fuel ih =>
    unfold Reader.readSlice
    split
    · exact ⟨_, rfl⟩
    · split
      · exact ⟨_, rfl⟩
      · rename_i herr
        split
        · exact ⟨_, rfl⟩
        · rw [herr] at h
          apply ih
          obtain hs | hd := readInto_progress (1024 - b.buf.length) (by omega) 100 b.output
          · exact .inl ⟨by simp at h; omega, hs⟩
          · simp only [Reader.fill, List.length_append]
            simp at h
            omega

end Reader

variable {decode : List UInt8 → Option Receipt}

section Receipts

structure Receipt where
  version : ℤ
  event : String
  width : ℤ
  height : ℤ
  reason : String
  code : UInt32

inductive SessionError where
  | protocol
  | closed
  | certificate
  | redirect
  | connect (code : UInt32)
  | unavailable (setup : UInt32)

def Receipt.accepted (r : Receipt) : Bool :=
  r.version == 1 && match r.event with
    | "connected" => r.width == 0 && r.height == 0 && r.reason == "" && r.code == 0
    | "frame" =>
      320 ≤ r.width && 240 ≤ r.height && r.width ≤ 4096 && r.height ≤ 2160 &&
        r.reason == "" && r.code == 0
    | "failed" =>
      r.width == 0 && r.height == 0 && (r.reason == "certificate" || r.reason == "redirect" ||
        r.reason == "connect" || r.reason == "setup") &&
        !(r.reason == "setup" && (r.code < 1 || 4 < r.code))
    | _ => false

/-- The JSON decoder, which takes one object of known fields and nothing after it, is `decode`. -/
def parseReceipt (decode : List UInt8 → Option Receipt) (raw : List UInt8) : Option Receipt :=
  if raw.length = 0 || 1024 < raw.length then none else (decode raw).filter Receipt.accepted

/-- The table of errors, which has none for a reason it does not know. -/
def failure (r : Receipt) : Option SessionError :=
  match r.reason with
  | "certificate" => some .certificate
  | "redirect" => some .redirect
  | "connect" => some (.connect r.code)
  | "setup" => some (.unavailable r.code)
  | _ => none

theorem event_of_parseReceipt {raw : List UInt8} {r : Receipt}
    (h : parseReceipt decode raw = some r) : r.event = "connected" ∨ r.event = "frame" ∨
      r.event = "failed" ∧ ∃ err, failure r = some err := by
  unfold parseReceipt at h
  split at h
  · cases h
  · obtain ⟨-, ha⟩ := Option.filter_eq_some_iff.mp h
    simp only [Receipt.accepted, Bool.and_eq_true] at ha
    replace ha := ha.2
    split at ha
    · exact .inl ‹_›
    · exact .inr (.inl ‹_›)
    · refine .inr (.inr ⟨‹_›, ?_⟩)
      simp only [Bool.and_eq_true, Bool.or_eq_true, beq_iff_eq] at ha
      obtain ⟨⟨-, ((hr | hr) | hr) | hr⟩, -⟩ := ha <;> simp [failure, hr]
    · cases ha

end Receipts

section Loop

inductive Step where
  | parsed (event : String)
  | closeReady
  deriving DecidableEq, Repr

structure Loop where
  reader : Reader
  connected : Bool
  frame : Bool
  /-- Whether the channel `ready` is closed. -/
  ready : Bool
  width : ℤ
  height : ℤ
  steps : List Step

inductive Ending where
  | returned (err : Option SessionError)
  | panicked

/-- One turn of the loop with the line it has read. -/
def Loop.turn (decode : List UInt8 → Option Receipt) (s : Loop) (raw : List UInt8)
    (err : Option ReadError) : (List Step × Ending) ⊕ Loop :=
  if err == some .eof && raw.isEmpty && s.connected && s.frame then
    .inl (s.steps, .returned (some .closed))
  else match err, parseReceipt decode raw with
    | none, some r =>
      let s : Loop := { s with steps := s.steps ++ [.parsed r.event] }
      if r.event == "failed" then .inl (s.steps, .returned (failure r))
      else if r.event == "connected" && s.connected || r.event == "frame" && s.frame then
        .inl (s.steps, .returned (some .protocol))
      else
        let s := if r.event == "connected" then { s with connected := true }
          else { s with frame := true, width := r.width, height := r.height }
        if s.connected && s.frame then
          -- a channel that is closed twice panics
          if s.ready then .inl (s.steps, .panicked)
          else .inr { s with ready := true, steps := s.steps ++ [.closeReady] }
        else .inr s
    | _, _ => .inl (s.steps, .returned (some .protocol))

def readReceipts (decode : List UInt8 → Option Receipt) : ℕ → Loop → Option (List Step × Ending)
  | 0, _ => none
  | fuel + 1, s =>
    match s.reader.readSlice 1026 with
    | none => none
    | some ((raw, err), reader) =>
      match { s with reader := reader }.turn decode raw err with
      | .inl result => some result
      | .inr s => readReceipts decode fuel s

def start (output : List Answer) : Loop := ⟨⟨[], none, output⟩, false, false, false, 0, 0, []⟩

/-- A line with the first connection or the first frame. -/
def Fresh (decode : List UInt8 → Option Receipt) (s : Loop) (raw : List UInt8)
    (err : Option ReadError) : Prop :=
  err = none ∧ ∃ r, parseReceipt decode raw = some r ∧
    (r.event = "connected" ∧ s.connected = false ∨ r.event = "frame" ∧ s.frame = false)

variable {s : Loop} {raw : List UInt8} {err : Option ReadError}

/-- The run returns an error, and closes nothing after `steps`. -/
def Ends (result : Option (List Step × Ending)) (steps : List Step) : Prop :=
  ∃ rest e, .closeReady ∉ rest ∧ result = some (steps ++ rest, .returned (some e))

theorem turn_of_not_fresh (h : ¬Fresh decode s raw err) : ∃ rest e, .closeReady ∉ rest ∧
      s.turn decode raw err = .inl (s.steps ++ rest, .returned (some e)) := by
  unfold Loop.turn
  split
  · exact ⟨[], .closed, by simp⟩
  · split
    · rename_i r hr _
      obtain he | he | ⟨he, e, hf⟩ := event_of_parseReceipt hr
      · have hc : s.connected = true := by
          by_contra hc
          exact h ⟨rfl, r, hr, .inl ⟨he, by simpa using hc⟩⟩
        exact ⟨[.parsed "connected"], .protocol, by simp [he, hc]⟩
      · have hc : s.frame = true := by
          by_contra hc
          exact h ⟨rfl, r, hr, .inr ⟨he, by simpa using hc⟩⟩
        exact ⟨[.parsed "frame"], .protocol, by simp [he, hc]⟩
      · exact ⟨[.parsed "failed"], e, by simp [he, hf]⟩
    · exact ⟨[], .protocol, by simp⟩

/-- The steps of a loop that goes on, by the receipts it has seen. -/
def traces : Bool → Bool → List (List Step)
  | false, false => [[]]
  | true, false => [[.parsed "connected"]]
  | false, true => [[.parsed "frame"]]
  | true, true => [[.parsed "connected", .parsed "frame", .closeReady],
      [.parsed "frame", .parsed "connected", .closeReady]]

def Loop.Ok (s : Loop) : Prop :=
  s.ready = (s.connected && s.frame) ∧ s.steps ∈ traces s.connected s.frame

def Loop.missing (s : Loop) : ℕ := (!s.connected).toNat + (!s.frame).toNat

theorem turn_of_fresh (h : Fresh decode s raw err) (hs : s.Ok) :
    ∃ s', s.turn decode raw err = .inr s' ∧ s'.Ok ∧ s'.missing < s.missing := by
  obtain ⟨reader, connected, frame, ready, width, height, steps⟩ := s
  obtain ⟨rfl, r, hr, ⟨he, rfl⟩ | ⟨he, rfl⟩⟩ := h
  · cases frame <;> simp_all [Loop.turn, Loop.Ok, Loop.missing, traces]
  · cases connected <;> simp_all [Loop.turn, Loop.Ok, Loop.missing, traces]

theorem readReceipts_spec (fuel : ℕ) (s : Loop) (hs : s.Ok) (hf : s.missing < fuel) :
    ∃ connected frame, ∃ steps ∈ traces connected frame,
      Ends (readReceipts decode fuel s) steps := by
  induction fuel generalizing s with
  | zero => omega
  | succ fuel ih =>
    obtain ⟨⟨⟨raw, err⟩, reader⟩, hline⟩ := exists_readSlice 1026 s.reader (by omega)
    simp only [readReceipts, hline]
    by_cases hfresh : Fresh decode { s with reader := reader } raw err
    · obtain ⟨s', hturn, hs', hm⟩ := turn_of_fresh hfresh hs
      change s'.missing < s.missing at hm
      rw [hturn]
      exact ih s' hs' (by omega)
    · obtain ⟨rest, e, hn, hturn⟩ := turn_of_not_fresh hfresh
      exact ⟨_, _, s.steps, hs.2, rest, e, hn, by rw [hturn]⟩

/-- On every output, however it is cut, the loop ends with an error, and it closes `ready` once,
after one connection and one frame; every other line ends the session. -/
theorem session_receipt_stream (decode : List UInt8 → Option Receipt) (output : List Answer) :
    (∃ connected frame, ∃ steps ∈ traces connected frame,
      Ends (readReceipts decode 3 (start output)) steps) ∧
    ∀ s raw err reader, s.reader.readSlice 1026 = some ((raw, err), reader) →
      ¬Fresh decode s raw err → ∀ fuel, Ends (readReceipts decode (fuel + 1) s) s.steps := by
  refine ⟨readReceipts_spec 3 (start output) ⟨rfl, by simp [start, traces]⟩
    (by simp [start, Loop.missing]), ?_⟩
  intro s raw err reader hline hfresh fuel
  change ¬Fresh decode { s with reader := reader } raw err at hfresh
  obtain ⟨rest, e, hn, hturn⟩ := turn_of_not_fresh hfresh
  exact ⟨rest, e, hn, by simp only [readReceipts, hline, hturn]⟩

end Loop

end VcWorkspace.Protocol.SessionReceipts
