import VcWorkspace.Session.Action
import VcWorkspace.Session.ReplayCache

/-! # The Helper of a desktop session

A Helper handles one message after another. It checks the binding and the
authority of an action, reserves its identifier, and only then starts a worker
for it; the result is kept for a retry. A new Helper has an empty cache and an
instance of its own, which the actions for it must name.
-/

namespace VcWorkspace.Session.Helper

open Transition Guest

/-- The JSON reader and writer of actions and results, and the digest of an encoded action. -/
structure Wire (ν ρ V : Type) where
  codec : Codec ν
  fromValue : ρ → Option Request
  fingerprint : BoundAction ρ → List UInt8
  size : V → Option ℕ
  failure : String → String → V

/-- The effects of handling an action; the cache belongs to the Helper. -/
inductive Effect (ρ V : Type)
  | now
  | authorize (key : SessionKey) (request : Request)
  | begin (id : String) (fingerprint : List UInt8) (expires now : ℤ)
  | spawn (a : BoundAction ρ) (request : Request)
  | collect
  | complete (id : String) (result : V)

namespace Effect

variable {ρ V : Type}

@[reducible] def Answer : Effect ρ V → Type
  | now => ℤ
  | begin .. => Except String (Option V)
  | collect => V
  | _ => Unit

end Effect

inductive Reply (V : Type)
  | cached (v : V)
  | executed (v : V)
  | refused (v : V)
  deriving DecidableEq, Repr

abbrev Handling (ρ V : Type) := Program (Effect ρ V) Effect.Answer IoError

section Programs

variable {ν ρ V : Type} (wire : Wire ν ρ V)

def ask (e : Effect ρ V) : Handling ρ V e.Answer := .perform e

def validateBinding (os : Os) (key : SessionKey) (a : BoundAction ρ) : Handling ρ V Request := do
  let now₁ ← ask .now
  let now₂ ← ask .now
  .lift (match os with
    | .linux => linuxBinding wire.fromValue key a now₁ now₂
    | .windows => windowsBinding wire.fromValue key a now₁ now₂)

namespace Linux

def isolatedAction (key : SessionKey) (a : BoundAction ρ) : Handling ρ V V := do
  let request ← validateBinding wire .linux key a
  ask (.authorize key request)
  ask (.spawn a request)
  let result ← ask .collect
  ask (.authorize key request)
  pure result

def execute (key : SessionKey) (a : BoundAction ρ) (request : Request) :
    Handling ρ V (Reply V) := do
  let outcome ← (isolatedAction wire key a).attempt
  let result := outcome.toOption.getD
    (wire.failure request.requestId "session action failed or timed out")
  ask (.complete request.requestId result)
  pure (.executed result)

def reserve (key : SessionKey) (a : BoundAction ρ) (request : Request) :
    Handling ρ V (Reply V) := do
  let now ← ask .now
  let begun ← ask (.begin request.requestId (wire.fingerprint a) request.expiresUnixMs now)
  match begun with
  | .ok (some result) => pure (.cached result)
  | .ok none => execute wire key a request
  | .error e => pure (.refused (wire.failure request.requestId e))

def helper (key : SessionKey) (a : BoundAction ρ) : Handling ρ V (Reply V) := do
  let request ← validateBinding wire .linux key a
  let authorized ← (ask (.authorize key request)).attempt
  match authorized with
  | .error _ =>
    pure (.refused (wire.failure request.requestId "desktop control authority has changed"))
  | .ok () => reserve wire key a request

end Linux

namespace Windows

def isolatedAction (a : BoundAction ρ) (request : Request) : Handling ρ V V := do
  let now ← ask .now
  .lift (ensure (deny "Windows action expired before worker startup") (now < request.expiresUnixMs))
  ask (.spawn a request)
  ask .collect

def respond (a : BoundAction ρ) (request : Request) : Option V → Handling ρ V (Reply V)
  | some result => pure (.cached result)
  | none => do
    let outcome ← (isolatedAction a request).attempt
    pure (.executed (outcome.toOption.getD
      (wire.failure request.requestId "session action failed or timed out")))

def Reply.value : Reply V → V
  | .cached v | .executed v | .refused v => v

def handleAction (key : SessionKey) (a : BoundAction ρ) : Handling ρ V (Reply V) := do
  let request ← validateBinding wire .windows key a
  ask (.authorize key request)
  let now ← ask .now
  let begun ← ask (.begin request.requestId (wire.fingerprint a) request.expiresUnixMs now)
  let begun ← .lift (begun.mapError otherError)
  let response ← respond wire a request begun
  ask (.authorize key request)
  ask (.complete request.requestId (Reply.value response))
  pure response

end Windows

def handle (os : Os) (key : SessionKey) (a : BoundAction ρ) : Handling ρ V (Reply V) :=
  match os with
  | .linux => Linux.helper wire key a
  | .windows => Windows.handleAction wire key a

end Programs

structure Worker (ρ : Type) where
  action : BoundAction ρ
  request : Request
  time : ℤ
  deriving DecidableEq, Repr

structure Check where
  key : SessionKey
  request : Request
  reading : Reading

/-- A reply, with the checks that were passed after its action had arrived. -/
structure Sent (ρ V : Type) where
  action : BoundAction ρ
  received : ℤ
  reply : Reply V
  checks : List Check

structure World (ρ V : Type) where
  clock : ℤ
  /-- The session of the Helper that runs. -/
  key : Option SessionKey
  /-- The instances of all Helpers so far. -/
  instances : List String
  replies : ReplayCache V
  /-- The workers so far, the last one first. -/
  workers : List (Worker ρ)
  /-- The checks that the action at hand has passed. -/
  checks : List Check
  sent : List (Sent ρ V)
  /-- The published requests, by identifier. -/
  inbox : List (String × BoundAction ρ)
  /-- The actions on their way to a Helper. -/
  flight : List (BoundAction ρ)

structure Choice (V : Type) where
  wait : ℕ
  between : ℕ
  record : Option (List UInt8)
  unreadable : Bool
  account : Bool
  desktop : Except IoError Unit
  error : Option IoError
  /-- A failed start of a worker has started one. -/
  applied : Bool
  result : V

section Host

variable {ν ρ V : Type} (wire : Wire ν ρ V) (os : Os)

namespace World

def start (w : World ρ V) (a : BoundAction ρ) (request : Request) : World ρ V :=
  { w with workers := ⟨a, request, w.clock⟩ :: w.workers }

def read (w : World ρ V) (c : Choice V) : Reading :=
  ⟨c.record, c.unreadable, c.account, c.desktop, w.clock, w.clock + c.between⟩

end World

def host : Handler (Effect ρ V) Effect.Answer IoError (World ρ V) (Choice V) where
  perform w e c :=
    let w := { w with clock := w.clock + c.wait }
    match e with
    | .now => (w, .ok w.clock)
    | .authorize key request =>
      let x := w.read c
      let w := { w with clock := x.now₂ }
      match authorize wire.codec os key request x with
      | .ok () => ({ w with checks := ⟨key, request, x⟩ :: w.checks }, .ok ())
      | .error e => (w, .error e)
    | .begin id fingerprint expires now =>
      ({ w with replies := (w.replies.begin id fingerprint expires now).1 },
        .ok (w.replies.begin id fingerprint expires now).2)
    | .spawn a request =>
      match c.error with
      | none => (w.start a request, .ok ())
      | some e => (if c.applied then w.start a request else w, .error e)
    | .collect =>
      match c.error with
      | none => (w, .ok c.result)
      | some e => (w, .error e)
    | .complete id result =>
      ({ w with replies := w.replies.complete wire.size id result }, .ok ())

/-! ## Runs -/

/-- What happens to the inbox, to the Helper and to the actions on their way. -/
inductive Event (ρ V : Type)
  | wait (n : ℕ)
  /-- A Helper starts, with an instance drawn at random. -/
  | start (key : SessionKey)
  | stop
  | publish (username id : String) (a : BoundAction ρ)
  | cleanup (id : String)
  | dispatch (username id : String)
  /-- The Windows dispatcher takes the action from its input. -/
  | send (a : BoundAction ρ)
  | deliver (a : BoundAction ρ) (choices : List (Choice V))

def requestId (a : BoundAction ρ) : Option String := (wire.fromValue a.request).map (·.requestId)

/-- An identifier is published once, and published again with the same action. -/
def publish [DecidableEq ρ] (w : World ρ V) (username id : String) (a : BoundAction ρ) :
    Except IoError (World ρ V) := do
  ensure (deny "invalid request ID") (validRequestId id)
  ensure (deny "publish target mismatch")
    (a.target.username == username && requestId wire a == some id)
  let _ ← linuxBinding wire.fromValue a.target a w.clock w.clock
  match w.inbox.find? (·.1 == id) with
  | some (_, b) => do
    ensure (deny "request identifier was reused") (b == a)
    pure w
  | none => pure { w with inbox := (id, a) :: w.inbox }

def dispatch (w : World ρ V) (username id : String) : Except IoError (World ρ V) := do
  ensure (deny "invalid request ID") (validRequestId id)
  match w.inbox.find? (·.1 == id) with
  | none => .error ⟨.notFound, "not found"⟩
  | some (_, a) => do
    ensure (deny "dispatch target mismatch")
      (a.target.username == username && requestId wire a == some id)
    pure { w with flight := a :: w.flight }

namespace World

def stop (w : World ρ V) : World ρ V := { w with key := none, replies := [] }

def finish (w : World ρ V) (a : BoundAction ρ) (received : ℤ) :
    Option (Except IoError (Reply V)) → World ρ V
  | none => w.stop
  | some (.error _) => w
  | some (.ok reply) => { w with sent := ⟨a, received, reply, w.checks⟩ :: w.sent }

end World

def step [DecidableEq ρ] (w : World ρ V) : Event ρ V → Option (World ρ V)
  | .wait n => some { w with clock := w.clock + n }
  | .start key =>
    if key.instanceId ∈ w.instances then none
    else some { w with key := some key, instances := key.instanceId :: w.instances, replies := [] }
  | .stop => some w.stop
  | .publish username id a =>
    if os = .linux then (publish wire w username id a).toOption else none
  | .cleanup id =>
    if os = .linux then some { w with inbox := w.inbox.filter (·.1 != id) } else none
  | .dispatch username id =>
    if os = .linux then (dispatch wire w username id).toOption else none
  | .send a => if os = .windows then some { w with flight := a :: w.flight } else none
  | .deliver a choices =>
    match w.key with
    | none => none
    | some key =>
      if (w.flight.any fun b => b == a) then
        let r := (host wire os).run (handle wire os key a) { w with checks := [] } choices
        some (r.1.finish a w.clock r.2)
      else none

/-- The Helpers of one account; an action on its way arrives late, again, or never. -/
def machine [DecidableEq ρ] : Machine (World ρ V) (Event ρ V) where
  Init w := w.key = none ∧ w.instances = [] ∧ w.replies = [] ∧ w.workers = [] ∧ w.sent = [] ∧
    w.inbox = [] ∧ w.flight = []
  step := step wire os

end Host

end VcWorkspace.Session.Helper
