import Mathlib.Data.List.Nodup
import VcWorkspace.Transition.Machine
import VcWorkspace.Session.Record

/-! # The Windows authority registry

One root key holds the ordering fence and one key per user the view of that
user. A publication enumerates the users under a write reservation, checks the
new record against the fence, and stages the fence and every view in one
transaction. Initialization adds a key and never writes an authority.
-/

namespace VcWorkspace.Session.Windows

open Transition Guest

section Records

variable {ν : Type} (codec : Codec ν)

def authorityRecord (raw : List UInt8) : Except IoError (BoundAuthority ν × Authority) :=
  boundRecord codec (· != "") "invalid Windows bound authority" raw

def parseAuthority (raw : List UInt8) (now : ℤ) : Except IoError (BoundAuthority ν × Authority) :=
  do
    let r ← authorityRecord codec raw
    freshAt "invalid Windows authority deadline" r.2 now
    pure r

def owner (key : SessionKey) : String × String := (key.username, key.sid)

def validateAuthorityTransition (previous : List UInt8) (next : BoundAuthority ν) (a : Authority) :
    Except IoError Unit := do
  let old ← authorityRecord codec previous
  ensure (deny "Windows authority epoch cannot move backwards")
    (old.2.controlEpoch ≤ a.controlEpoch)
  if a.controlEpoch = old.2.controlEpoch ∧ a.state = "active" then do
    ensure (deny "revoked Windows authority epoch cannot reactivate") (old.2.state != "revoked")
    ensure (deny "Windows authority lease, owner or expiry moved backwards")
      (old.2.leaseId == a.leaseId && sameOwner owner old.1.target next.target &&
        old.2.expiresUnixMs ≤ a.expiresUnixMs)
  else pure ()

def validateUnfencedAuthorities (oldRecords : List (List UInt8)) (next : BoundAuthority ν)
    (a : Authority) : Except IoError Unit := do
  ensure (deny "unfenced Windows authority must be revoked before activation")
    (oldRecords.isEmpty || a.state == "revoked")
  forEach (validateAuthorityTransition codec · next a) oldRecords

end Records

section Registry

def maxValue : ℕ := 65536

inductive RegValue (β : Type) where
  | binary (value : β)
  | other
  deriving DecidableEq, Repr

structure UserKey where
  name : String
  /-- The one reader besides the system, when the access list is the protected one. -/
  reader : Option String
  sid : Option (RegValue String)
  authority : Option (RegValue (List UInt8))
  deriving DecidableEq, Repr

structure Registry where
  fence : Option (RegValue (List UInt8))
  keys : List UserKey
  nodup : (keys.map UserKey.name).Nodup
  deriving DecidableEq

def missing : IoError := ⟨.notFound, "value not found"⟩

def optionalBinary : Option (RegValue (List UInt8)) → Except IoError (Option (List UInt8))
  | none => .ok none
  | some (.binary value) => do
    ensure (deny "authority registry value exceeds limit") (value.length ≤ maxValue)
    ensure (deny "invalid authority snapshot type") (!value.isEmpty)
    pure (some value)
  | some .other => .error (deny "invalid authority snapshot type")

def identity (username sid : String) : Except IoError Unit := do
  ensure (deny "managed account name required") (managedName username)
  ensure (deny "authority requires a managed user SID") (validAccountSid sid && sid != "S-1-5-18")

def UserKey.verifySecurity (key : UserKey) (sid : String) : Except IoError Unit :=
  ensure (deny "authority grants unexpected registry rights") (key.reader == some sid)

def UserKey.verifySid (key : UserKey) (sid : String) : Except IoError Unit :=
  match key.sid with
  | none => .error missing
  | some value => ensure (deny "authority SID binding changed") (value == .binary sid)

/-- One entry of the enumeration: the key's name and the account it is bound to. -/
def UserKey.entry (key : UserKey) : Except IoError (String × String) := do
  ensure (deny "managed account name required") (managedName key.name)
  match key.sid with
  | none => .error missing
  | some .other => .error (deny "invalid SID registry type")
  | some (.binary sid) => do
    identity key.name sid
    key.verifySecurity sid
    pure (key.name, sid)

def Registry.users (reg : Registry) : Except IoError (List (String × String)) := do
  let users ← collect UserKey.entry (reg.keys.take 1024)
  ensure (deny "too many authority records") (reg.keys.length ≤ 1024)
  pure users

/-- Open a registered user's key and check again that it is that user's. -/
def Registry.attach (reg : Registry) (user : String × String) : Except IoError Unit :=
  match reg.keys.find? (·.name == user.1) with
  | none => .error missing
  | some key => do
    key.verifySecurity user.2
    key.verifySid user.2

def Registry.beginUpdate (reg : Registry) : Except IoError (List (String × String)) := do
  let users ← reg.users
  forEach reg.attach users
  pure users

/-- The authorities of a transaction's users, before the first fence. -/
def Registry.existingAuthorities (reg : Registry) (users : List (String × String)) :
    Except IoError (List (List UInt8)) := do
  let values ← collect
    (fun user => optionalBinary ((reg.keys.find? (·.name == user.1)).bind (·.authority))) users
  pure (values.filterMap id)

def Registry.mapKeys (reg : Registry) (f : UserKey → UserKey) (hf : ∀ k, (f k).name = k.name) :
    Registry where
  fence := reg.fence
  keys := reg.keys.map f
  nodup := by
    have h : UserKey.name ∘ f = UserKey.name := funext hf
    rw [List.map_map, h]
    exact reg.nodup

/-- The view a publication writes into one key: the target's user sees the record itself. -/
def UserKey.publish (users : List (String × String)) (target : Option (String × String))
    (desired revoked : List UInt8) (key : UserKey) : UserKey :=
  match users.find? (·.1 == key.name) with
  | none => key
  | some user =>
    { key with authority := some (.binary (if target = some user then desired else revoked)) }

theorem UserKey.publish_name {users : List (String × String)}
    {target : Option (String × String)} {desired revoked : List UInt8} (key : UserKey) :
    (key.publish users target desired revoked).name = key.name := by
  unfold publish
  split <;> rfl

/-- The target of a publication, when it has one, must be a registered user. -/
def registered (users : List (String × String)) : Option (String × String) → Except IoError Unit
  | none => .ok ()
  | some (username, sid) => do
    identity username sid
    ensure (deny "authority target is not registered") (users.contains (username, sid))

def Registry.stage (reg : Registry) (users : List (String × String))
    (target : Option (String × String)) (desired revoked : List UInt8) :
    Except IoError Registry := do
  ensure (deny "invalid or repeated authority transaction stage")
    (!desired.isEmpty && !revoked.isEmpty && desired.length ≤ maxValue && revoked.length ≤ maxValue)
  registered users target
  pure { reg.mapKeys (UserKey.publish users target desired revoked) UserKey.publish_name with
    fence := some (.binary desired) }

def UserKey.bind (username sid : String) (key : UserKey) : UserKey :=
  if key.name = username then { key with sid := some (key.sid.getD (.binary sid)) } else key

theorem UserKey.bind_name {username sid : String} (key : UserKey) :
    (key.bind username sid).name = key.name := by
  unfold bind
  split <;> rfl

/-- Open the key of a user, creating it with its final access list. -/
def Registry.create (reg : Registry) (username sid : String) : Except IoError Registry :=
  if h : username ∈ reg.keys.map UserKey.name then
    match reg.keys.find? (·.name == username) with
    | none => .error missing
    | some key => do
      key.verifySecurity sid
      pure reg
  else .ok
    { fence := reg.fence
      keys := reg.keys ++ [⟨username, some sid, none, none⟩]
      nodup := by
        rw [List.map_append]
        refine List.nodup_append.mpr ⟨reg.nodup, by simp, fun a ha b hb => ?_⟩
        obtain rfl : b = username := by simpa using hb
        rintro rfl
        exact h ha }

/-- Register a user; a crash may leave the new key without its binding. -/
def Registry.initializeUser (reg : Registry) (username sid : String) (crash : Bool) :
    Except IoError Registry := do
  identity username sid
  let reg ← reg.create username sid
  if crash then pure reg
  else do
    -- a missing binding is written, and one that exists must be this one
    let reg := reg.mapKeys (UserKey.bind username sid) UserKey.bind_name
    reg.attach (username, sid)
    pure reg

end Registry

end VcWorkspace.Session.Windows
