import Mathlib.Algebra.Group.Nat.Defs
import VcWorkspace.Transition.Guard

/-! # Guest account identities

The identity, password and counter checks that the account lifecycle planners
share. Text is checked byte by byte, as the Guest reads it.
-/

namespace VcWorkspace.Guest

open Transition

inductive ErrorKind
  | permissionDenied | notFound | other
  deriving DecidableEq, Repr

structure IoError where
  kind : ErrorKind
  message : String
  deriving DecidableEq, Repr

def denied : IoError := ⟨.permissionDenied, "invalid or stale account lifecycle request"⟩

/-- The UTF-8 bytes of a text. -/
def bytes (s : String) : List UInt8 := s.toUTF8.data.toList

theorem bytes_append (a b : String) : bytes (a ++ b) = bytes a ++ bytes b := by
  simp [bytes]

theorem bytes_ofList (l : List Char) :
    bytes (String.ofList l) = l.flatMap String.utf8EncodeChar := by
  simp [bytes, List.utf8Encode]

def startsWith (s p : String) : Bool := (bytes p).isPrefixOf (bytes s)

def isAsciiDigit (b : UInt8) : Bool := 48 ≤ b && b ≤ 57

def isAsciiAlphanumeric (b : UInt8) : Bool :=
  isAsciiDigit b || (65 ≤ b && b ≤ 90) || (97 ≤ b && b ≤ 122)

/-- The bytes allowed in connection and lease identifiers: alphanumeric, `_` and `-`. -/
def isTokenByte (b : UInt8) : Bool := isAsciiAlphanumeric b || b == 95 || b == 45

/-- Parse an unsigned 32-bit decimal; one leading plus sign is accepted. -/
def parseU32 (p : List UInt8) : Option ℕ :=
  let ds := if p.head? = some 43 then p.tail else p
  if ds.isEmpty || !ds.all isAsciiDigit then none
  else
    let n := ds.foldl (fun n b => 10 * n + (b.toNat - 48)) 0
    if n < 2 ^ 32 then some n else none

structure AccountIdentity where
  username : String
  uid : ℕ
  sid : String
  deriving DecidableEq, Repr

namespace AccountIdentity

/-- Fifteen bytes: the account family followed by twelve lower-case hexadecimal digits. -/
def validName (a : AccountIdentity) (family : String) : Bool :=
  (bytes a.username).length == 15 && startsWith a.username family &&
    ((bytes a.username).drop 3).all fun b => isAsciiDigit b || (97 ≤ b && b ≤ 102)

/-- A local account SID: `S-1-5-21` and four canonical decimals, the last at least 1000. -/
def validSid (a : AccountIdentity) : Bool :=
  let parts := (bytes a.sid).splitOn 45
  parts.length == 8 && parts.take 4 == [bytes "S", bytes "1", bytes "5", bytes "21"] &&
    (parts.drop 4).all (fun p => (parseU32 p).any fun n => bytes (toString n) == p) &&
    ((parts[7]?).bind parseU32).any fun n => 1000 ≤ n

def validateFor (a : AccountIdentity) (family : String) : Except IoError Unit :=
  ensure denied (a.validName family &&
    ((1000 ≤ a.uid && a.sid == "") || (a.uid == 0 && a.validSid)))

def validate (a : AccountIdentity) : Except IoError Unit := a.validateFor "vca"

end AccountIdentity

structure Password where
  expose : String
  deriving DecidableEq, Repr

def Password.valid (p : Password) : Bool :=
  24 ≤ (bytes p.expose).length && (bytes p.expose).length ≤ 256 &&
    (bytes p.expose).all fun b => 33 ≤ b && b ≤ 126

def validLease (lease : String) (epoch : ℕ) : Bool :=
  0 < epoch && epoch ≤ 2 ^ 63 - 1 && 7 ≤ (bytes lease).length && (bytes lease).length ≤ 128 &&
    startsWith lease "lease_" && (bytes lease).all isTokenByte

def validExpiry (expiry : ℕ) : Bool := 0 < expiry && expiry < 2 ^ 32 - 1

def validGeneration (generation : ℕ) : Bool := 0 < generation && generation ≤ 2 ^ 63 - 1

/-- The deadline lies in the future, at most 28800 seconds ahead. -/
def withinWindow (expiry now : ℕ) : Bool := now < expiry && expiry - now ≤ 28800

theorem withinWindow_iff {expiry now : ℕ} :
    withinWindow expiry now = true ↔ now < expiry ∧ expiry ≤ now + 28800 := by
  simp only [withinWindow, Bool.and_eq_true, decide_eq_true_eq]
  omega

end VcWorkspace.Guest
