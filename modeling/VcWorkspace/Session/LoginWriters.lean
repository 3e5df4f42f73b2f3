import VcWorkspace.Guest.Agent
import VcWorkspace.Guest.Native
import VcWorkspace.Session.Kernel
import VcWorkspace.Session.LinuxAccount

/-! # The journal of login writers

A login registers the process that creates its session before the password is
checked, and the scope of the session before it is acknowledged. Entries stay
in the journal while their process runs or their scope is populated; the reader
refuses a journal with two entries of one process number.
-/

namespace VcWorkspace.Session.LoginWriters

open Transition Guest LinuxAccount

def maxWriters : ℕ := 4

def validBootId (value : String) : Bool :=
  (bytes value).length == 36 && (bytes value).zipIdx.all fun (b, i) =>
    if [8, 13, 18, 23].contains i then b == 45 else isLowerHex b

structure ProcessIdentity where
  pid : ℕ
  startTicks : ℕ
  bootId : String
  deriving DecidableEq, Repr

namespace ProcessIdentity

def process (p : ProcessIdentity) : Process := ⟨p.pid, p.startTicks⟩

def validate (p : ProcessIdentity) : Except IoError Unit :=
  ensure (deny "invalid login writer identity")
    (1 < p.pid && p.startTicks != 0 && validBootId p.bootId)

end ProcessIdentity

structure Scope where
  sessionId : String
  invocationId : List UInt8
  device : ℕ
  inode : ℕ
  deriving DecidableEq, Repr

def validSessionId (value : String) : Bool :=
  value != "" && (bytes value).length ≤ 64 && value != "auto" && value != "self" &&
    (bytes value).all fun b => (97 ≤ b && b ≤ 122) || isAsciiDigit b

def Scope.validate (s : Scope) : Except IoError Unit :=
  ensure (deny "invalid login scope identity")
    (validSessionId s.sessionId && s.invocationId.length == 16 &&
      !s.invocationId.all (· == 0) && s.inode != 0)

structure LoginVersion where
  leaseId : String
  controlEpoch : ℕ
  loginGeneration : ℕ
  expiresUnixSeconds : ℕ
  deriving DecidableEq, Repr

structure Writer where
  process : ProcessIdentity
  scope : Option Scope
  version : LoginVersion
  deriving DecidableEq, Repr

structure Journal where
  schemaVersion : ℕ
  identity : AccountIdentity
  writers : List Writer
  deriving DecidableEq, Repr

section Encoding

def Scope.encode (s : Scope) : String :=
  "\x7b\"session_id\":" ++ quote s.sessionId ++ ",\"invocation_id\":[" ++
    ",".intercalate (s.invocationId.map fun b => toString b.toNat) ++ "],\"device\":" ++
    toString s.device ++ ",\"inode\":" ++ toString s.inode ++ "\x7d"

def Writer.encode (x : Writer) : String :=
  "\x7b\"process\":\x7b\"pid\":" ++ toString x.process.pid ++ ",\"start_ticks\":" ++
    toString x.process.startTicks ++ ",\"boot_id\":" ++ quote x.process.bootId ++
    "\x7d,\"scope\":" ++ (x.scope.map Scope.encode).getD "null" ++ ",\"lease_id\":" ++
    quote x.version.leaseId ++ ",\"control_epoch\":" ++ toString x.version.controlEpoch ++
    ",\"login_generation\":" ++ toString x.version.loginGeneration ++
    ",\"expires_unix_seconds\":" ++ toString x.version.expiresUnixSeconds ++ "\x7d"

def Journal.encode (j : Journal) : String :=
  "\x7b\"schema_version\":" ++ toString j.schemaVersion ++ ",\"identity\":\x7b\"username\":" ++
    quote j.identity.username ++ ",\"uid\":" ++ toString j.identity.uid ++ ",\"sid\":" ++
    quote j.identity.sid ++ "\x7d,\"writers\":[" ++
    ",".intercalate (j.writers.map Writer.encode) ++ "]\x7d"

def Journal.fits (j : Journal) : Bool := (bytes j.encode).length ≤ 4096

end Encoding

section Reading

variable (a : Account)

def Writer.checkVersion (owner : AccountIdentity) (x : Writer) : Except IoError Unit :=
  if startsWith a.username "vcw" then do
    ensure (deny "invalid Native login writer version") (x.version.loginGeneration == 1)
    Native.Fence.validate ⟨1, owner, x.version.leaseId, x.version.controlEpoch,
      x.version.expiresUnixSeconds, .issued⟩
  else Agent.Fence.validate ⟨1, owner, x.version.leaseId, x.version.controlEpoch,
    x.version.loginGeneration, x.version.expiresUnixSeconds, .opening⟩

def Writer.checkScope (x : Writer) : Except IoError Unit :=
  match x.scope with
  | none => .ok ()
  | some s => s.validate

def checkWriters (owner : AccountIdentity) (seen : List ℕ) : List Writer → Except IoError Unit
  | [] => .ok ()
  | x :: rest => do
    x.process.validate
    x.checkScope
    ensure (deny "duplicate login writer") (!seen.contains x.process.pid)
    x.checkVersion a owner
    checkWriters owner (x.process.pid :: seen) rest

def Journal.check (j : Journal) : Except IoError Unit := do
  ensure (deny "login writer journal identity changed")
    (j.schemaVersion == 2 && j.identity == LinuxAccount.identity a && j.writers.length ≤ maxWriters)
  checkWriters a j.identity [] j.writers

def readStored : Option Journal → Except IoError Journal
  | none => .ok ⟨2, identity a, []⟩
  | some j => do
    ensure (deny "unsafe account record") j.fits
    j.check a
    pure j

end Reading

inductive Kind
  | auth
  | openSession
  | closeSession
  | other
  deriving DecidableEq, Repr

/-- The effects of registering, observing and draining login writers. -/
inductive Effect
  | requireRoot
  | configured
  | capture (pid : ℕ)
  | armParentDeath
  | exchange
  | lock
  | account
  | verifyIdentity
  | agentFence
  | nativeFence
  | now
  | exited (p : ProcessIdentity)
  | journal
  | running (p : ProcessIdentity)
  | scopeAbsent (boot : String) (s : Scope)
  | bind (p : ProcessIdentity)
  | persist (j : Journal)
  | acknowledge
  | boot
  | userIdle
  | terminate (p : ProcessIdentity)
  | kill (p : ProcessIdentity)
  | drainScope (boot : String) (s : Scope)

namespace Effect

@[reducible] def Answer : Effect → Type
  | configured | verifyIdentity | exited _ | running _ | scopeAbsent _ _ | userIdle => Bool
  | capture _ => ProcessIdentity
  | account => Option Account
  | agentFence => Option Agent.Fence
  | nativeFence => Option Native.Fence
  | now => ℕ
  | journal => Option Journal
  | bind _ => Scope
  | boot => String
  | _ => Unit

end Effect

abbrev Birth := Program Effect Effect.Answer IoError

def ask (e : Effect) : Birth e.Answer := .perform e

section Programs

def capture (pid : ℕ) : Birth ProcessIdentity := do
  check "invalid login writer PID" (1 < pid)
  let p ← ask (.capture pid)
  check "invalid boot identity" (validBootId p.bootId)
  pure p

def openProcess (p : ProcessIdentity) : Birth Bool := do
  .lift p.validate
  ask (.running p)

def scopeAbsent (boot : String) (s : Scope) : Birth Bool := do
  .lift s.validate
  ask (.scopeAbsent boot s)

/-- A writer lives as long as its process runs or its scope is populated. -/
def Writer.live (x : Writer) : Birth Bool := do
  let running ← openProcess x.process
  if running then pure true
  else
    match x.scope with
    | none => pure false
    | some s => do
      let absent ← scopeAbsent x.process.bootId s
      pure (!absent)

def read (a : Account) : Birth Journal := do
  let stored ← ask .journal
  .lift (readStored a stored)

def persistJournal (j : Journal) : Birth Unit := do
  check "login journal exceeds limit" j.fits
  ask (.persist j)

def absentFrom (boot : String) (current : Bool) : List Writer → Birth Bool
  | [] => if current then ask .userIdle else pure true
  | x :: rest => do
    let live ← x.live
    if live then pure false
    else absentFrom boot (current || x.process.bootId == boot) rest

def absent (a : Account) : Birth Bool := do
  let boot ← ask .boot
  let j ← read a
  absentFrom boot false j.writers

def Writer.observeScope (x : Writer) : Birth Unit :=
  match x.scope with
  | none => pure ()
  | some s => do
    let _ ← scopeAbsent x.process.bootId s
    pure ()

def Writer.closeScope (x : Writer) : Birth Unit :=
  match x.scope with
  | none => pure ()
  | some s => do
    .lift s.validate
    ask (.drainScope x.process.bootId s)

def openWriters : List Writer → Birth (List ProcessIdentity)
  | [] => pure []
  | x :: rest => do
    x.observeScope
    let running ← openProcess x.process
    let handles ← openWriters rest
    pure (if running then x.process :: handles else handles)

def terminateAll : List ProcessIdentity → Birth Unit
  | [] => pure ()
  | p :: rest => do
    ask (.terminate p)
    terminateAll rest

def closeWriters : List Writer → Birth Unit
  | [] => pure ()
  | x :: rest => do
    x.closeScope
    let running ← openProcess x.process
    if running then ask (.kill x.process) else pure ()
    closeWriters rest

def drain (a : Account) : Birth Unit := do
  let j ← read a
  let handles ← openWriters j.writers
  terminateAll handles
  closeWriters j.writers

def family (native : Bool) : String := if native then "vcw" else "vca"

structure Caller where
  native : Bool
  kind : Kind
  username : String
  process : ProcessIdentity
  deriving DecidableEq, Repr

/-- The part of a registration before it takes the gate of new logins. -/
def prepare (native : Bool) (service : Option String) (kind : Kind) (username : String)
    (parent : ℕ) : Birth (Option Caller) := do
  ask .requireRoot
  check "xrdp PAM caller required" (service == some "xrdp-sesman")
  if !startsWith username (family native) || kind == .closeSession then pure none
  else do
    let installed ← ask .configured
    check "unsupported managed PAM login"
      (managedName username && installed && (kind == .auth || kind == .openSession))
    let p ← capture parent
    ask .armParentDeath
    ask .exchange
    pure (some ⟨native, kind, username, p⟩)

def boundAccount (username : String) : Birth Account := do
  let record ← ask .account
  check "invalid account ownership identity"
    (record.all fun a => a.username == username && 1000 ≤ a.uid)
  let a ← demand "unbound PAM account" record
  let found ← ask .verifyIdentity
  check "PAM account was removed" found
  pure a

def agentVersion (a : Account) : Birth LoginVersion := do
  let stored ← ask .agentFence
  let f ← demand "missing login intent" stored
  let f ← .lift (parseRecord Agent.Fence.validate Agent.Fence.identity a f)
  check "Agent login intent is no longer opening" (f.phase == .opening)
  pure ⟨f.leaseId, f.controlEpoch, f.loginGeneration, f.expiresUnixSeconds⟩

def nativeVersion (a : Account) : Birth LoginVersion := do
  let stored ← ask .nativeFence
  let f ← demand "Native credential intent missing" stored
  let f ← .lift (parseRecord Native.Fence.validate Native.Fence.identity a f)
  let now ← ask .now
  check "Native credentials no longer permit login" (f.phase == .issued && f.retained now)
  pure ⟨f.connectionId, f.revision, 1, f.expiresUnixSeconds⟩

def loginVersion (native : Bool) (a : Account) : Birth LoginVersion :=
  if native then nativeVersion a else agentVersion a

def keepLive : List Writer → Birth (List Writer)
  | [] => pure []
  | x :: rest => do
    let live ← x.live
    let kept ← keepLive rest
    pure (if live then x :: kept else kept)

def enroll (kind : Kind) (version : LoginVersion) (p : ProcessIdentity) (j : Journal) :
    Birth Journal :=
  match j.writers.find? (·.process == p) with
  | some x => do
    check "PAM login version changed"
      (x.version == version && kind == .openSession && x.scope.isSome)
    pure j
  | none => do
    check "unregistered PAM session" (kind == .auth && j.writers.length < maxWriters)
    let j := { j with writers := j.writers ++ [⟨p, none, version⟩] }
    persistJournal j
    pure j

def attach (p : ProcessIdentity) (s : Scope) : List Writer → Except IoError (Writer × List Writer)
  | [] => .error (deny "PAM writer disappeared")
  | x :: rest =>
    if x.process = p then do
      ensure (deny "PAM domain changed between login stages") (x.scope.all (· == s))
      pure ({ x with scope := some s }, { x with scope := some s } :: rest)
    else do
      let (y, rest) ← attach p s rest
      pure (y, x :: rest)

def stillOpen (message : String) (expires : ℕ) (p : ProcessIdentity) : Birth Unit := do
  let now ← ask .now
  check message (now < expires)
  let gone ← ask (.exited p)
  check message (!gone)

def register (c : Caller) : Birth Unit := do
  ask .lock
  let a ← boundAccount c.username
  let version ← loginVersion c.native a
  stillOpen "PAM login intent is no longer open" version.expiresUnixSeconds c.process
  let j ← read a
  let kept ← keepLive j.writers
  let j ← enroll c.kind version c.process { j with writers := kept }
  let scope ← ask (.bind c.process)
  .lift scope.validate
  let (x, writers) ← .lift (attach c.process scope j.writers)
  stillOpen "PAM login expired during domain creation" x.version.expiresUnixSeconds c.process
  persistJournal { j with writers := writers }
  ask .acknowledge

end Programs

structure World where
  kernel : Kernel
  journal : Option Journal
  /-- The callers captured so far. -/
  callers : List Caller
  deriving DecidableEq, Repr

/-- What the host does before an effect, and how the effect turns out. -/
structure Choice where
  events : List KernelEvent
  clock : ℕ
  agentFence : Option Agent.Fence
  nativeFence : Option Native.Fence
  sessionId : String
  invocationId : List UInt8
  error : Option IoError
  /-- A failed effect was carried out. -/
  applied : Bool
  answer : Bool

namespace World

def drift (guarded : Bool) (c : Choice) (w : World) : World :=
  { w with kernel := w.kernel.advance guarded c.events }

def isRunning (w : World) (p : ProcessIdentity) : Bool :=
  p.bootId == w.kernel.boot && w.kernel.processes.contains p.process

def scopeOf (w : World) (sessionId : String) : Option KernelScope :=
  w.kernel.scopes.find? (·.sessionId == sessionId)

/-- Carry out an effect, if it is `applied`. -/
def after (guarded applied : Bool) (w : World) : Effect → World
  | .persist j => { w with journal := if applied then some j else w.journal }
  | .kill p =>
    { w with kernel := if applied && w.isRunning p then w.kernel.step guarded (.exit p.pid)
      else w.kernel }
  | .drainScope boot s =>
    { w with kernel := if applied && boot == w.kernel.boot &&
        (w.scopeOf s.sessionId).any (·.inode == s.inode)
      then w.kernel.step guarded (.emptyScope s.sessionId) else w.kernel }
  | _ => w

def captureAnswer (w : World) (pid : ℕ) : Except IoError ProcessIdentity :=
  match w.kernel.processes.find? (·.pid == pid) with
  | none => .error ⟨.notFound, "no such process"⟩
  | some p => .ok ⟨p.pid, p.startTicks, w.kernel.boot⟩

def scopeAnswer (w : World) (boot : String) (s : Scope) : Except IoError Bool :=
  if boot = w.kernel.boot then
    match w.scopeOf s.sessionId with
    | none => .ok true
    | some σ =>
      if σ.device = s.device ∧ σ.inode = s.inode then .ok (!σ.populated)
      else .error (deny "login cgroup incarnation changed")
  else .ok true

/-- The scope of a session whose leader has the number of the caller, while the caller runs. That
the caller is also listed in the control group of the scope is left out, so more is answered. -/
def bindAnswer (c : Choice) (w : World) (p : ProcessIdentity) : Except IoError Scope :=
  match w.scopeOf c.sessionId with
  | none => .error ⟨.notFound, "no such session"⟩
  | some σ =>
    if σ.populated && σ.leader.pid == p.pid && w.isRunning p then
      .ok ⟨c.sessionId, c.invocationId, σ.device, σ.inode⟩
    else .error (deny "logind session is not owned by this PAM login")

def answer (a : Account) (c : Choice) (w : World) : (e : Effect) → Except IoError e.Answer
  | .requireRoot | .armParentDeath | .exchange | .lock | .persist _ | .acknowledge
  | .terminate _ | .kill _ | .drainScope _ _ => .ok ()
  | .configured | .verifyIdentity | .userIdle => .ok c.answer
  | .capture pid => w.captureAnswer pid
  | .account => .ok (some a)
  | .agentFence => .ok c.agentFence
  | .nativeFence => .ok c.nativeFence
  | .now => .ok c.clock
  | .exited p => .ok (!w.isRunning p)
  | .journal => .ok w.journal
  | .running p => .ok (w.isRunning p)
  | .scopeAbsent boot s => w.scopeAnswer boot s
  | .bind p => w.bindAnswer c p
  | .boot => .ok w.kernel.boot

end World

def births (guarded : Bool) (a : Account) : Host Effect Effect.Answer IoError World Choice where
  drift := World.drift guarded
  after _ applied _ := World.after guarded applied
  answer := World.answer a
  fallible _ := true
  error := Choice.error
  applied := Choice.applied

abbrev host (guarded : Bool) (a : Account) : Handler Effect Effect.Answer IoError World Choice :=
  (births guarded a).handler

/-! ## Runs -/

inductive Call
  | prepare (native : Bool) (service : Option String) (kind : Kind) (username : String) (parent : ℕ)
  | register (c : Caller)
  | absent
  | drain
  deriving DecidableEq, Repr

def World.note (w : World) : Option (Except IoError (Option Caller)) → World
  | some (.ok (some c)) => { w with callers := c :: w.callers }
  | _ => w

/-- Calls on one account, one after another under the gate of new logins; a registration captures
its caller before it takes the gate. -/
def writers (guarded : Bool) (a : Account) : Machine World (Call × List Choice) where
  Init w := w.kernel.WellFormed ∧ w.kernel.scopes = [] ∧ w.journal = none ∧ w.callers = []
  step w e := match e.1 with
    | .prepare native service kind username parent =>
      let r := (host guarded a).run (prepare native service kind username parent) w e.2
      some (r.1.note r.2)
    | .register c =>
      if c ∈ w.callers then some ((host guarded a).run (register c) w e.2).1 else none
    | .absent => some ((host guarded a).run (absent a) w e.2).1
    | .drain => some ((host guarded a).run (drain a) w e.2).1

end VcWorkspace.Session.LoginWriters
