import VcWorkspace.Session.LinuxAuthority
import VcWorkspace.Session.WindowsRegistry

/-! # Bound actions

An action names the session it is for and carries a request as a JSON value;
the request names its lease, its epoch and its deadline. Both platforms check
the binding of an action and the authority of its request; the order of their
checks differs.
-/

namespace VcWorkspace.Session.Helper

open Transition Guest

structure Mouse where
  action : String
  x : ℤ
  y : ℤ
  button : String
  deltaX : ℤ
  deltaY : ℤ
  deriving DecidableEq, Repr

structure KeyInput where
  key : String
  modifiers : List String
  deriving DecidableEq, Repr

structure Accessibility where
  maxDepth : ℕ
  maxNodes : ℕ
  deriving DecidableEq, Repr

structure Request where
  schemaVersion : ℕ
  requestId : String
  leaseId : String
  controlEpoch : ℤ
  expiresUnixMs : ℤ
  operation : String
  screenshot : Option ℕ
  accessibility : Option Accessibility
  mouse : Option Mouse
  key : Option KeyInput
  text : Option String
  deriving DecidableEq, Repr

structure BoundAction (ρ : Type) where
  schemaVersion : ℕ
  target : SessionKey
  timeoutMs : ℕ
  request : ρ
  deriving DecidableEq, Repr

section Payloads

def asciiLower (s : String) : List UInt8 :=
  (bytes s).map fun b => if 65 ≤ b && b ≤ 90 then b + 32 else b

def validMouse (m : Mouse) : Bool :=
  let inside (v : ℤ) : Bool := 0 ≤ v && v ≤ 16384
  match m.action with
  | "move" => inside m.x && inside m.y
  | "click" => inside m.x && inside m.y && ["left", "right", "middle"].contains m.button
  | "scroll" => -100 ≤ m.deltaX && m.deltaX ≤ 100 && -100 ≤ m.deltaY && m.deltaY ≤ 100 &&
      (m.deltaX != 0 || m.deltaY != 0)
  | _ => false

def namedKeys : List String :=
  ["enter", "escape", "tab", "backspace", "delete", "space", "up", "down", "left", "right", "home",
    "end", "page_up", "page_down", "f1", "f2", "f3", "f4", "f5", "f6", "f7", "f8", "f9", "f10",
    "f11", "f12"]

def validKeyInput (input : KeyInput) : Bool :=
  let key := asciiLower input.key
  let modifiers := input.modifiers.map asciiLower
  let shortcut := key.length == 1 && key.all isAsciiAlphanumeric && !modifiers.isEmpty
  ((namedKeys.map bytes).contains key || shortcut) && decide modifiers.Nodup &&
    modifiers.all (["control", "alt", "shift", "meta"].map bytes).contains

def validPayload (r : Request) : Bool :=
  match r.operation with
  | "screenshot" => r.screenshot.any fun width => 320 ≤ width && width ≤ 3840
  | "accessibility_snapshot" => r.accessibility.any fun value =>
      1 ≤ value.maxDepth && value.maxDepth ≤ 10 && 1 ≤ value.maxNodes && value.maxNodes ≤ 500
  | "mouse" => r.mouse.any validMouse
  | "key" => r.key.any validKeyInput
  | "type_text" => r.text.any fun value =>
      value != "" && (bytes value).length ≤ 4096 && !(bytes value).contains 0
  | _ => false

def payloads (r : Request) : List Bool :=
  [r.screenshot.isSome, r.accessibility.isSome, r.mouse.isSome, r.key.isSome, r.text.isSome]

end Payloads

def validRequestId (value : String) : Bool :=
  27 ≤ (bytes value).length && (bytes value).length ≤ 87 && startsWith value "action_" &&
    ((bytes value).drop 7).all isTokenByte

def validateRequest (requestId : String) (r : Request) (now : ℤ) : Except IoError Unit := do
  ensure (otherError "request identity or expiry is invalid")
    (r.schemaVersion == schemaVersion && r.requestId == requestId &&
      startsWith r.leaseId "lease_" && 1 ≤ r.controlEpoch && now < r.expiresUnixMs)
  ensure (otherError "request must contain exactly one operation payload")
    ((payloads r).count true == 1)
  ensure (otherError "operation payload is invalid") (validPayload r)

def maxDeadline : ℤ := 20000

section Binding

variable {ρ : Type} (fromValue : ρ → Option Request)

def parseRequest (message : String) (a : BoundAction ρ) : Except IoError Request :=
  match fromValue a.request with
  | none => .error (otherError message)
  | some r => .ok r

/-- The check of an action by the Linux Helper, with the clock at its two readings. -/
def linuxBinding (key : SessionKey) (a : BoundAction ρ) (now₁ now₂ : ℤ) :
    Except IoError Request := do
  ensure (otherError "interactive session binding has changed")
    (a.schemaVersion == version && a.target == key && validKey key &&
      250 ≤ a.timeoutMs && a.timeoutMs ≤ 15000)
  let r ← parseRequest fromValue "invalid action request" a
  validateRequest r.requestId r now₁
  ensure (otherError "action deadline exceeds limit") (r.expiresUnixMs ≤ now₂ + maxDeadline)
  pure r

/-- The check of an action by the Windows Helper; the deadline is limited first. -/
def windowsBinding (key : SessionKey) (a : BoundAction ρ) (now₁ now₂ : ℤ) :
    Except IoError Request := do
  ensure (deny "Windows session binding has changed")
    (a.schemaVersion == version && a.target == key && validKey key && key.sid != "" &&
      250 ≤ a.timeoutMs && a.timeoutMs ≤ 15000)
  let r ← parseRequest fromValue "invalid request" a
  ensure (deny "invalid Windows action identity or deadline")
    (validRequestId r.requestId && r.expiresUnixMs ≤ now₁ + maxDeadline &&
      (bytes r.leaseId).length ≤ 128 && (bytes r.leaseId).all isTokenByte)
  validateRequest r.requestId r now₂
  pure r

variable {fromValue} {key : SessionKey} {a : BoundAction ρ} {now₁ now₂ : ℤ} {r : Request}

theorem parseRequest_eq_ok {message : String} :
    parseRequest fromValue message a = .ok r ↔ fromValue a.request = some r := by
  unfold parseRequest
  split <;> simp_all

theorem linuxBinding_ok (h : linuxBinding fromValue key a now₁ now₂ = .ok r) :
    a.target = key ∧ fromValue a.request = some r := by
  simp only [linuxBinding, bind_eq_ok, ensure_eq_ok, Bool.and_eq_true, beq_iff_eq,
    parseRequest_eq_ok] at h
  obtain ⟨-, ⟨⟨⟨⟨-, ht⟩, -⟩, -⟩, -⟩, s, hs, -, -, -, -, hr⟩ := h
  cases hr
  exact ⟨ht, hs⟩

theorem windowsBinding_ok (h : windowsBinding fromValue key a now₁ now₂ = .ok r) :
    a.target = key ∧ fromValue a.request = some r := by
  simp only [windowsBinding, bind_eq_ok, ensure_eq_ok, Bool.and_eq_true, beq_iff_eq,
    parseRequest_eq_ok] at h
  obtain ⟨-, ⟨⟨⟨⟨⟨-, ht⟩, -⟩, -⟩, -⟩, -⟩, s, hs, -, -, -, -, hr⟩ := h
  cases hr
  exact ⟨ht, hs⟩

end Binding

section Authorization

variable {ν : Type} (codec : Codec ν)

/-- What the authority check of the Linux Helper reads of a request. -/
def Request.action (r : Request) : Linux.ActionRequest :=
  ⟨r.leaseId, r.controlEpoch, r.expiresUnixMs⟩

def authorizeBytes (key : SessionKey) (request : Request) (raw : List UInt8) (now : ℤ) :
    Except IoError Unit := do
  let (bound, a) ← Windows.parseAuthority codec raw now
  ensure (deny "Windows desktop control authority has changed")
    (bound.target == some key && a.state == "active" && a.leaseId == request.leaseId &&
      a.controlEpoch == request.controlEpoch && now < request.expiresUnixMs)

/-- What an authority check sees: the stored record if it can be read, the login of the account, the
input desktop, and the clock at two readings. -/
structure Reading where
  record : Option (List UInt8)
  unreadable : Bool
  account : Bool
  desktop : Except IoError Unit
  now₁ : ℤ
  now₂ : ℤ

inductive Os
  | linux
  | windows
  deriving DecidableEq, Repr

def authorize (os : Os) (key : SessionKey) (request : Request) (x : Reading) :
    Except IoError Unit :=
  match os with
  | .linux => (Linux.validateAuthority codec (fun _ _ _ => x.account) x.record
      x.unreadable key request.action x.now₁ x.now₂).mapError otherError
  | .windows => do
    match x.record with
    | none => .error ⟨.notFound, "no authority of this user"⟩
    | some raw => do
      authorizeBytes codec key request raw x.now₂
      x.desktop

end Authorization

end VcWorkspace.Session.Helper
