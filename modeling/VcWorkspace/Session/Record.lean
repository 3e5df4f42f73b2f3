import Mathlib.Data.Int.ConditionallyCompleteOrder
import Mathlib.Order.ConditionallyCompleteLattice.Basic
import VcWorkspace.Guest.Identity
import VcWorkspace.Transition.Effect
import VcWorkspace.Transition.Grant

/-! # Bound authority records

An authority says which lease controls the desktop, at which epoch and until
when; bound to a target it names the one session that may act. The records are
JSON texts. Their codec is a parameter: it decodes what it encodes, up to the
fields the Guest reads.
-/

namespace VcWorkspace.Session

open Transition Guest

def deny (message : String) : IoError := ⟨.permissionDenied, message⟩

def otherError (message : String) : IoError := ⟨.other, message⟩

section Programs

variable {E : Type} {A : E → Type} {α F : Type}

abbrev check (message : String) (b : Bool) : Program E A IoError Unit := .check (deny message) b

abbrev demand (message : String) (o : Option α) : Program E A IoError α := .demand (deny message) o

def parseFence (validate : F → Except IoError Unit) (owner : F → AccountIdentity)
    (a : AccountIdentity) (f : F) : Except IoError F := do
  validate f
  ensure denied (owner f == a)
  pure f

theorem eq_of_parseFence {validate : F → Except IoError Unit} {owner : F → AccountIdentity}
    {a : AccountIdentity} {f : F} {g : Option F}
    (h : some <$> parseFence validate owner a f = .ok g) : g = some f := by
  cases hp : parseFence validate owner a f with
  | error e => simp [hp] at h
  | ok x =>
    rw [hp] at h
    simp only [parseFence, seq_eq_ok] at hp
    cases hp.2.2
    exact (Except.ok.inj h).symm

end Programs

def version : ℕ := 2

def schemaVersion : ℕ := 1

def maxRequest : ℕ := 64 * 1024

structure SessionKey where
  username : String
  uid : ℕ
  sid : String
  sessionId : String
  instanceId : String
  deriving DecidableEq, Repr

structure Authority where
  schemaVersion : ℕ
  leaseId : String
  controlEpoch : ℤ
  state : String
  expiresUnixMs : ℤ
  deriving DecidableEq, Repr

/-- An authority value, still encoded, with its target and the login it was derived for. -/
structure BoundAuthority (ν : Type) where
  schemaVersion : ℕ
  target : Option SessionKey
  authority : ν
  loginGeneration : Option ℕ
  deriving DecidableEq, Repr

structure Codec (ν : Type) where
  fromSlice : List UInt8 → Option (BoundAuthority ν)
  fromValue : ν → Option Authority
  toVec : BoundAuthority ν → Option (List UInt8)
  /-- The value of an authority's five fields. -/
  toValue : Authority → ν
  /-- Writing a record that was read, under any login generation, and reading it again keeps its
  fields and its decoded authority. -/
  read_write : ∀ raw₀ b g raw, fromSlice raw₀ = some b →
    toVec { b with loginGeneration := g } = some raw → ∃ b', fromSlice raw = some b' ∧
      b'.schemaVersion = b.schemaVersion ∧ b'.target = b.target ∧ b'.loginGeneration = g ∧
      fromValue b'.authority = fromValue b.authority
  /-- A record built from an authority's fields reads back as that authority. -/
  read_built : ∀ v target a raw, toVec ⟨v, target, toValue a, none⟩ = some raw →
    ∃ b', fromSlice raw = some b' ∧ b'.schemaVersion = v ∧ b'.target = target ∧
      b'.loginGeneration = none ∧ fromValue b'.authority = some a

section Keys

def isLowerHex (b : UInt8) : Bool := isAsciiDigit b || (97 ≤ b && b ≤ 102)

def managedName (value : String) : Bool :=
  (bytes value).length == 15 && (startsWith value "vca" || startsWith value "vcw") &&
    ((bytes value).drop 3).all isLowerHex

def stripStart (l p : List UInt8) : Option (List UInt8) :=
  if p.isPrefixOf l then some (l.drop p.length) else none

def splitOnce (l : List UInt8) (b : UInt8) : Option (List UInt8 × List UInt8) :=
  if b ∈ l then some (l.takeWhile (· != b), (l.dropWhile (· != b)).drop 1) else none

/-- A display of the local machine: a colon, a number and an optional screen. -/
def localDisplay (value : List UInt8) : Bool :=
  match stripStart value [58] with
  | none => false
  | some number =>
    let parts := number.splitOn 46
    value.length ≤ 16 && 1 ≤ parts.length && parts.length ≤ 2 &&
      parts.all fun part => !part.isEmpty && part.all isAsciiDigit

def validAccountSid (sid : String) : Bool :=
  sid == "S-1-5-18" || AccountIdentity.validSid ⟨"", 0, sid⟩

/-- The operating-system identity agrees with the session it claims. -/
def validOsIdentity (key : SessionKey) : Bool :=
  match stripStart (bytes key.sessionId) (bytes "windows:") with
  | some rest =>
    let parts := rest.splitOn 58
    key.uid == 0 && key.sid != "S-1-5-18" && validAccountSid key.sid && parts.length == 2 &&
      ((parts[0]?).any fun p => (parseU32 p).any fun id => 0 < id && bytes (toString id) == p) &&
      ((parts[1]?).any fun p =>
        p.length == 16 && p.all isLowerHex && p != bytes "0000000000000000")
  | none =>
    match (stripStart (bytes key.sessionId) (bytes s!"linux:{key.uid}:")).bind (splitOnce · 58) with
    | some (pid, display) =>
      key.sid == "" && 1000 ≤ key.uid && ((parseU32 pid).any fun pid => 0 < pid) &&
        localDisplay display
    | none => false

def validKey (key : SessionKey) : Bool :=
  managedName key.username && validOsIdentity key && key.sessionId != "" &&
    (bytes key.sessionId).length ≤ 128 &&
    (bytes key.sessionId).all (fun b => isAsciiAlphanumeric b || b == 95 || b == 58 || b == 46 ||
      b == 45) &&
    (bytes key.instanceId).length == 64 && (bytes key.instanceId).all isLowerHex

end Keys

section Records

variable {ν : Type} (codec : Codec ν)

/-- The checks on a decoded record; `sid` is the platform's condition on the target. -/
def validRecord (sid : String → Bool) (bound : BoundAuthority ν) (a : Authority) : Bool :=
  bound.schemaVersion == version && a.schemaVersion == schemaVersion && 1 ≤ a.controlEpoch &&
    (bytes a.leaseId).length ≤ 128 && startsWith a.leaseId "lease_" &&
    (bytes a.leaseId).all isTokenByte && (a.state == "active" || a.state == "revoked") &&
    (a.state != "active" || (0 < a.expiresUnixMs &&
      bound.target.any fun key => validKey key && sid key.sid)) &&
    (a.state != "revoked" || bound.target.isNone)

def decode (raw : List UInt8) : Option (BoundAuthority ν × Authority) :=
  (codec.fromSlice raw).bind fun bound => (codec.fromValue bound.authority).map fun a => (bound, a)

def boundRecord (sid : String → Bool) (message : String) (raw : List UInt8) :
    Except IoError (BoundAuthority ν × Authority) := do
  ensure (deny "authority exceeds limit") (!raw.isEmpty && raw.length ≤ maxRequest)
  match decode codec raw with
  | none => .error (otherError "invalid JSON")
  | some r =>
    ensure (deny message) (validRecord sid r.1 r.2)
    pure r

def freshAt (message : String) (a : Authority) (now : ℤ) : Except IoError Unit :=
  ensure (deny message) ((a.state != "active" || now < a.expiresUnixMs) &&
    (a.state != "revoked" || a.expiresUnixMs ≤ now))

variable {codec} {sid : String → Bool} {message : String} {raw : List UInt8}
  {r : BoundAuthority ν × Authority}

theorem boundRecord_eq_ok : boundRecord codec sid message raw = .ok r ↔
    raw ≠ [] ∧ raw.length ≤ maxRequest ∧ decode codec raw = some r ∧
      validRecord sid r.1 r.2 = true := by
  unfold boundRecord
  cases hd : decode codec raw with
  | none => simp
  | some r' =>
    simp only [seq_eq_ok, ensure_eq_ok, Bool.and_eq_true, Bool.not_eq_true',
      List.isEmpty_eq_false_iff, decide_eq_true_eq, Option.some.injEq, and_assoc]
    refine and_congr_right fun _ => and_congr_right fun _ => ?_
    constructor
    · rintro ⟨hv, hr⟩
      cases hr
      exact ⟨rfl, hv⟩
    · rintro ⟨rfl, hv⟩
      exact ⟨hv, rfl⟩

theorem state_of_validRecord (h : validRecord sid r.1 r.2 = true) :
    r.2.state = "active" ∨ r.2.state = "revoked" := by
  simp only [validRecord, Bool.and_eq_true, Bool.or_eq_true, beq_iff_eq] at h
  exact h.1.1.2

theorem target_of_validRecord (h : validRecord sid r.1 r.2 = true) (hs : r.2.state = "active") :
    r.1.target.isSome = true := by
  simp only [validRecord, hs, Bool.and_eq_true, Bool.or_eq_true] at h
  obtain ⟨key, hkey, -⟩ := (Option.any_eq_true _ _).mp (h.1.2.resolve_left (by simp)).2
  simp [hkey]

theorem decode_toVec {g : Option ℕ} {raw' : List UInt8} (h : decode codec raw = some r)
    (hw : codec.toVec { r.1 with loginGeneration := g } = some raw') :
    ∃ b', decode codec raw' = some (b', r.2) ∧ b'.schemaVersion = r.1.schemaVersion ∧
      b'.target = r.1.target ∧ b'.loginGeneration = g := by
  obtain ⟨bound, hb, h⟩ := Option.bind_eq_some_iff.mp h
  obtain ⟨a, ha, rfl⟩ := Option.map_eq_some_iff.mp h
  obtain ⟨b', hb', h₁, h₂, h₃, h₄⟩ := codec.read_write raw bound g raw' hb hw
  refine ⟨b', ?_, h₁, h₂, h₃⟩
  simp [decode, hb', h₄, ha]

def grantOf {ω : Type} (owner : SessionKey → ω) (r : BoundAuthority ν × Authority) :
    Grant ℤ (String × Option ω) ℤ :=
  ⟨r.2.controlEpoch, r.2.state == "active", (r.2.leaseId, r.1.target.map owner), r.2.expiresUnixMs⟩

def sameOwner {ω : Type} [DecidableEq ω] (owner : SessionKey → ω) (old next : Option SessionKey) :
    Bool :=
  match old, next with
  | some old, some next => owner old == owner next
  | _, _ => false

variable {ω : Type} [DecidableEq ω] {owner : SessionKey → ω}

theorem sameOwner_iff {old next : Option SessionKey} : sameOwner owner old next = true ↔
    old.isSome = true ∧ old.map owner = next.map owner := by
  cases old <;> cases next <;> simp [sameOwner]

theorem grantOf_admits_iff {old next : BoundAuthority ν × Authority}
    (hv : validRecord sid old.1 old.2 = true) : (grantOf owner old).Admits (grantOf owner next) ↔
      old.2.controlEpoch ≤ next.2.controlEpoch ∧
      (next.2.controlEpoch = old.2.controlEpoch → next.2.state = "active" →
        old.2.state ≠ "revoked" ∧ old.2.leaseId = next.2.leaseId ∧
          sameOwner owner old.1.target next.1.target = true ∧
          old.2.expiresUnixMs ≤ next.2.expiresUnixMs) := by
  have hstate : old.2.state ≠ "revoked" ↔ old.2.state = "active" := by
    rcases state_of_validRecord hv with hs | hs <;> simp [hs]
  simp only [Grant.Admits, grantOf, hstate, beq_iff_eq, sameOwner_iff, Prod.mk.injEq]
  refine and_congr_right fun _ => forall₂_congr fun _ _ => ?_
  constructor
  · rintro ⟨hs, ⟨hl, hu⟩, he⟩
    exact ⟨hs, hl, ⟨target_of_validRecord hv hs, hu⟩, he⟩
  · rintro ⟨hs, hl, ⟨-, hu⟩, he⟩
    exact ⟨hs, ⟨hl, hu⟩, he⟩

end Records

section Encoding

def quote (s : String) : String := "\"" ++ s ++ "\""

def SessionKey.encode (k : SessionKey) : String :=
  "\x7b\"username\":" ++ quote k.username ++ ",\"uid\":" ++ toString k.uid ++
    (if k.sid = "" then "" else ",\"sid\":" ++ quote k.sid) ++ ",\"session_id\":" ++
    quote k.sessionId ++ ",\"instance_id\":" ++ quote k.instanceId ++ "\x7d"

-- A decoded JSON object is written with its keys in order.
def Authority.encode (a : Authority) : String :=
  "\x7b\"control_epoch\":" ++ toString a.controlEpoch ++ ",\"expires_unix_ms\":" ++
    toString a.expiresUnixMs ++ ",\"lease_id\":" ++ quote a.leaseId ++ ",\"schema_version\":" ++
    toString a.schemaVersion ++ ",\"state\":" ++ quote a.state ++ "\x7d"

def BoundAuthority.encode (b : BoundAuthority Authority) : List UInt8 :=
  bytes ("\x7b\"schema_version\":" ++ toString b.schemaVersion ++ ",\"target\":" ++
    (b.target.map SessionKey.encode).getD "null" ++ ",\"authority\":" ++ b.authority.encode ++
    (b.loginGeneration.map fun g => ",\"login_generation\":" ++ toString g).getD "" ++ "\x7d")

def tableRead (table : List (BoundAuthority Authority)) (raw : List UInt8) :
    Option (BoundAuthority Authority) :=
  table.find? fun b => b.encode == raw

/-- The codec of a table of records, with the texts that are written for them. -/
def tableCodec (table : List (BoundAuthority Authority)) : Codec Authority where
  fromSlice := tableRead table
  fromValue := some
  toVec b := (some b.encode).filter fun raw => tableRead table raw == some b
  toValue := id
  read_write _ _ _ _ _ h :=
    ⟨_, beq_iff_eq.mp (Option.filter_eq_some_iff.mp h).2, rfl, rfl, rfl, rfl⟩
  read_built _ _ _ _ h := ⟨_, beq_iff_eq.mp (Option.filter_eq_some_iff.mp h).2, rfl, rfl, rfl, rfl⟩

end Encoding

end VcWorkspace.Session
