import VcWorkspace.Guest.Identity

/-! # Accounts in the store

Errors of the store, and the operating-system identities that its rows are
pinned to. An identity the store accepts is one that the Guest accepts.
-/

namespace VcWorkspace.Store

open Transition Guest Option

/-- Failures of a store operation: no such row, a lost compare-and-swap, a desktop in use, a refused
request, or an error of the database. -/
inductive StoreError
  | notFound
  | conflict
  | alreadyLeased
  | invalid (message : String)
  | sql (code message : String)
  deriving DecidableEq, Repr

/-- The hash of a text. -/
abbrev Sha256 := String → Vector UInt8 32

inductive OsFamily
  | linux | windows
  deriving DecidableEq, Repr

def maxInt64 : ℕ := 2 ^ 63 - 1

def isSpace (c : Char) : Bool :=
  (9 ≤ c.val && c.val ≤ 13) || [0x20, 0x85, 0xA0, 0x1680, 0x2028, 0x2029, 0x202F, 0x205F,
    0x3000].contains c.val || (0x2000 ≤ c.val && c.val ≤ 0x200A)

def trimSpace (s : String) : String :=
  String.ofList ((s.toList.dropWhile isSpace).reverse.dropWhile isSpace).reverse

def hexDigit (n : ℕ) : Char := if n < 10 then Char.ofNat (48 + n) else Char.ofNat (87 + n)

def hexByte (b : UInt8) : List Char := [hexDigit (b.toNat / 16), hexDigit (b.toNat % 16)]

/-- An account name: its family and the first six bytes of the subject's digest. -/
def digestUsername (sha256 : Sha256) (family subject : String) : String :=
  family ++ String.ofList ((sha256 subject).toList.take 6 |>.flatMap hexByte)

/-- Parse an unsigned 32-bit decimal without a sign. -/
def parseUint32 (p : List UInt8) : Option ℕ := if p.head? = some 43 then none else parseU32 p

def validWindowsAccountSid (sid : String) : Bool :=
  let parts := (bytes sid).splitOn 45
  (bytes sid).length ≤ 56 && parts.length == 8 &&
    parts.take 4 == [bytes "S", bytes "1", bytes "5", bytes "21"] &&
    (parts.drop 4).all (fun p => (parseUint32 p).any fun n => bytes (toString n) == p) &&
    ((parts[7]?).bind parseUint32).any fun n => 1000 ≤ n

def validAccount (platform : OsFamily) (uid : ℕ) (sid : String) : Bool :=
  match platform with
  | .linux => 1000 ≤ uid && sid == ""
  | .windows => uid == 0 && validWindowsAccountSid sid

/-- One component of a SID as the database accepts it: a canonical decimal below 2³². -/
def sidComponent (p : List UInt8) (zero : Bool) : Bool :=
  (zero && p == [48]) || (p.head?.any (fun b => 49 ≤ b && b ≤ 57) && p.length ≤ 10 &&
    p.all isAsciiDigit && p.foldl (fun n b => 10 * n + (b.toNat - 48)) 0 ≤ 4294967295)

def vcwValidWindowsAccountSid (sid : String) : Bool :=
  match (bytes sid).splitOn 45 with
  | [s, one, five, family, a, b, c, rid] =>
    s == bytes "S" && one == bytes "1" && five == bytes "5" && family == bytes "21" &&
      sidComponent a true && sidComponent b true && sidComponent c true &&
      sidComponent rid false && 1000 ≤ rid.foldl (fun n b => 10 * n + (b.toNat - 48)) 0
  | _ => false

section Spec

variable {i : AccountIdentity}

theorem parseU32_of_parseUint32 {p : List UInt8} {n : ℕ} (h : parseUint32 p = some n) :
    parseU32 p = some n := by
  unfold parseUint32 at h
  split at h
  · cases h
  · exact h

theorem validSid_of_validWindowsAccountSid (h : validWindowsAccountSid i.sid = true) :
    i.validSid = true := by
  have hmono : ∀ (f : ℕ → Bool) p, (parseUint32 p).any f = true → (parseU32 p).any f = true := by
    intro f p hp
    obtain ⟨n, hn, hf⟩ := (any_eq_true _ _).mp hp
    exact (any_eq_true _ _).mpr ⟨n, parseU32_of_parseUint32 hn, hf⟩
  simp only [validWindowsAccountSid, Bool.and_eq_true, List.all_eq_true] at h
  obtain ⟨⟨⟨⟨-, hlen⟩, htake⟩, hdrop⟩, hrid⟩ := h
  simp only [AccountIdentity.validSid, Bool.and_eq_true, List.all_eq_true]
  refine ⟨⟨⟨hlen, htake⟩, fun p hp => hmono _ p (hdrop p hp)⟩, ?_⟩
  obtain ⟨n, hn, hf⟩ := (any_eq_true _ _).mp hrid
  obtain ⟨p, hp, hpn⟩ := bind_eq_some_iff.mp hn
  exact (any_eq_true _ _).mpr
    ⟨n, bind_eq_some_iff.mpr ⟨p, hp, parseU32_of_parseUint32 hpn⟩, hf⟩

/-- An account with a managed name and a valid identity passes the Guest's check. -/
theorem validateFor_of_account {family : String} {platform : OsFamily}
    (hname : i.validName family = true) (hacc : validAccount platform i.uid i.sid = true) :
    i.validateFor family = .ok () := by
  rw [AccountIdentity.validateFor, ensure_eq_ok, hname, Bool.true_and, Bool.or_eq_true]
  unfold validAccount at hacc
  split at hacc
  · exact .inl hacc
  · rw [Bool.and_eq_true] at hacc
    exact .inr (by rw [Bool.and_eq_true]; exact ⟨hacc.1, validSid_of_validWindowsAccountSid hacc.2⟩)

end Spec

/-- A digest for samples. -/
def sampleDigest : Sha256 := fun _ => Vector.replicate 32 0

end VcWorkspace.Store
