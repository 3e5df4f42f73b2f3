import VcWorkspace.Clone.Configuration
import VcWorkspace.Transition.Machine

/-! # The life of a clone job

A request reserves the target of a clone and submits it to PVE, an administrator
may attach a task whose answer was lost, and any number of watchers, replicas and
polls finish the job. Each of them is a sequence of calls to the database and to
PVE, and anything may happen between two calls. A configuration write that was
sent stays with PVE until it is served, also when its sender has given up.
-/

namespace VcWorkspace.Clone

open Transition Store

section Data

structure CloneRequest where
  name : String
  sourceOsFamily : String
  pciResourceMapping : String
  mdevType : String
  pvePrincipal : String
  deriving DecidableEq, Repr

/-- The mapping is taken from a GPU profile, whose texts are stored without surrounding space. -/
def CloneRequest.admitted (r : CloneRequest) : Bool :=
  trimSpace r.pciResourceMapping == r.pciResourceMapping && trimSpace r.mdevType == r.mdevType

structure VM where
  vmid : ℕ
  kind : String
  node : String
  template : Bool
  deriving DecidableEq, Repr

/-- The lower case of a character, as far as it is an ASCII letter. -/
def toLower (c : Char) : Char :=
  if c.val = 0x130 then 'i' else if c.val = 0x212A then 'k' else c.toLower

def desktopOSFamily (osType : String) : Option OsFamily :=
  let osType := (trimSpace osType).toList.map toLower
  if "win".toList.isPrefixOf osType || "w2k".toList.isPrefixOf osType then some .windows
  else if osType == "l26".toList || "linux".toList.isPrefixOf osType then some .linux
  else none

def CloneRequest.osFamily (r : CloneRequest) : Option OsFamily :=
  if r.sourceOsFamily = "linux" then some .linux
  else if r.sourceOsFamily = "windows" then some .windows
  else none

def node (job : Job) : String := job.targetNode.getD ""

def marker (jobId : String) : String := "VC Workspace clone job: " ++ jobId

def bearsMarker (job : Job) (r : CloneRequest) (c : VMConfiguration) : Bool :=
  !c.template && c.name == r.name && c.description == marker job.id

def verified (job : Job) (r : CloneRequest) (c : VMConfiguration) : Bool :=
  bearsMarker job r c && c.lock == ""

def CloneRequest.mapped (r : CloneRequest) (c : VMConfiguration) : Bool :=
  matchesGPUResourceMapping c.hostpci0 r.pciResourceMapping r.mdevType

def sameJob (j j' : Job) : Bool :=
  j'.id == j.id && j'.operation == j.operation && j'.sourceVmid == j.sourceVmid &&
    j'.targetVmid == j.targetVmid && j'.targetNode == j.targetNode && j'.taskNode == j.taskNode &&
    j'.request == j.request

def isClone (j : Job) : Bool := j.operation == .templateClone

def hasTask (j : Job) : Bool := j.upid.any (· != "")

end Data

end VcWorkspace.Clone

namespace VcWorkspace.Store.AccessTables

open Transition

variable (t : AccessTables)

def jobById (id : String) : Option Job := t.jobs.find? (·.id == id)

def updateJobTask (id : String) (state : JobState) (upid : String) : AccessTables :=
  { t with
    jobs := updateWhere (·.id == id)
      (fun j => { j with state := state, upid := if upid = "" then none else some upid }) t.jobs }

end VcWorkspace.Store.AccessTables

namespace VcWorkspace.Clone

open Transition Store

section World

structure Recovery where
  upid : String
  actorId : String
  reason : String
  deriving DecidableEq, Repr

/-- Why the target is inspected: for a recovery, before the first write or before the registration
with an outcome. -/
inductive Purpose
  | recovery (claim : Recovery)
  | start
  | finish (state : JobState) (osFamily : Option OsFamily)
  deriving DecidableEq, Repr

/-- The next call of a request handler or of a run of `refreshPVEJob`. -/
inductive Thread
  -- `createDesktopInstance`
  | submit (job : Job)
  | record (job : Job) (upid : String)
  | unknown (job : Job)
  -- `recoverCloneTask`
  | recoverLock (job : Job) (r : CloneRequest) (claim : Recovery)
  | recoverTask (job : Job) (r : CloneRequest) (claim : Recovery)
  | recoverCommit (job : Job) (claim : Recovery)
  -- `observeCloneTarget`
  | inventory (job : Job) (r : CloneRequest) (purpose : Purpose)
  | inspect (job : Job) (r : CloneRequest) (purpose : Purpose)
  -- `refreshPVEJob`
  | load (jobId : String)
  | lock (job : Job)
  | reload (job : Job)
  | status (job : Job)
  | network (job : Job) (r : CloneRequest)
  | sendNetwork (job : Job) (r : CloneRequest) (c : VMConfiguration)
  | awaitNetwork (job : Job) (r : CloneRequest) (k : ℕ)
  | observeNetwork (job : Job) (r : CloneRequest)
  | gpu (job : Job) (r : CloneRequest)
  | sendGpu (job : Job) (r : CloneRequest) (c : VMConfiguration)
  | awaitGpu (job : Job) (r : CloneRequest) (k : ℕ)
  | osType (job : Job) (r : CloneRequest) (state : JobState)
  | registry (job : Job) (r : CloneRequest) (state : JobState) (osFamily : Option OsFamily)
  | complete (job : Job) (state : JobState)
  | ended
  deriving DecidableEq, Repr

inductive RequestState
  | pending | accepted | rejected
  deriving DecidableEq, Repr

/-- A configuration write on its way, with the job that it was sent for. -/
structure Request where
  job : Job
  r : CloneRequest
  update : ConfigUpdate
  state : RequestState
  deriving DecidableEq, Repr

/-- What has happened to a job, for the statements about the order of things. -/
inductive Entry
  /-- A configuration write was sent. -/
  | sent (jobId : String) (k : ℕ)
  /-- PVE has applied a write to a configuration. -/
  | accepted (k : ℕ) (c : VMConfiguration)
  /-- The requested mapping was there. -/
  | observed (jobId : String)
  /-- The target bore the marker. -/
  | checked (jobId : String)
  /-- The task of the job has not ended well. -/
  | taskFailed (jobId : String)
  | registered (jobId : String)
  | quarantined (jobId : String)
  deriving DecidableEq, Repr

structure World where
  tables : AccessTables
  /-- The configurations by node and number. -/
  configs : String → ℕ → Option VMConfiguration
  requests : List Request
  /-- The threads that hold the control locks of the desktops. -/
  holder : ℕ → Option ℕ
  threads : List Thread
  log : List Entry

/-- The answer to the call of a thread. A call that is done has the result that the other side
then holds. -/
inductive Answer
  | done
  | failed
  | upid (upid : String)
  | task (status exitStatus : String)
  | machines (vms : List VM)
  deriving DecidableEq, Repr

structure Outcome where
  thread : Thread
  tables : AccessTables
  sent : Option Request
  entry : Option Entry

namespace World

variable (w : World)

def goOn (t : Thread) : Outcome := ⟨t, w.tables, none, none⟩

def target (job : Job) : Option VMConfiguration := w.configs (node job) job.targetVmid

def progress (k : ℕ) : Option RequestState := w.requests[k]?.map Request.state

def release (i : ℕ) : ℕ → Option ℕ := fun vmid =>
  if w.holder vmid = some i then none else w.holder vmid

end World

end World

section Calls

def afterGpu (job : Job) (r : CloneRequest) (state : JobState) : Thread :=
  if r.osFamily.isSome then .inventory job r (.finish state r.osFamily) else .osType job r state

def afterNetwork (job : Job) (r : CloneRequest) : Thread :=
  if r.pciResourceMapping ≠ "" then .gpu job r else afterGpu job r .succeeded

def afterStart (job : Job) (r : CloneRequest) : Thread :=
  if r.sourceOsFamily = "linux" then .network job r else afterNetwork job r

variable (decode : String → Option CloneRequest) (digest : VMConfiguration → String) (w : World)

def refreshable (jobId : String) : Option Job :=
  (w.tables.jobById jobId).filter fun j => j.state == .running && hasTask j

def loadCall (jobId : String) : Outcome :=
  match refreshable w jobId with
  | none => w.goOn .ended
  | some job => w.goOn (if isClone job then .lock job else .status job)

def reloadCall (job : Job) : Outcome :=
  match refreshable w job.id with
  | none => w.goOn .ended
  | some job => w.goOn (.status job)

def statusCall (job : Job) (status exitStatus : String) : Outcome :=
  if status ≠ "stopped" then w.goOn .ended
  else if exitStatus ≠ "OK" then
    { w.goOn (.complete job .failed) with entry := some (.taskFailed job.id) }
  else if isClone job then
    match decode job.request with
    | none => w.goOn (.complete job .failed)
    | some r => w.goOn (.inventory job r .start)
  else w.goOn (.complete job .succeeded)

/-- The one machine of the target is a virtual machine on its node. -/
def inventoryCall (job : Job) (r : CloneRequest) (purpose : Purpose) (vms : List VM) : Outcome :=
  match vms.filter (·.vmid == job.targetVmid) with
  | [vm] =>
    if vm.node = node job ∧ vm.kind = "qemu" ∧ vm.template = false then
      w.goOn (.inspect job r purpose)
    else w.goOn .ended
  | _ => w.goOn .ended

def inspectCall (job : Job) (r : CloneRequest) (purpose : Purpose) : Outcome :=
  match w.target job with
  | none => w.goOn .ended
  | some c =>
    if verified job r c then
      match purpose with
      | .recovery claim => w.goOn (.recoverCommit job claim)
      | .start => { w.goOn (afterStart job r) with entry := some (.checked job.id) }
      | .finish state os =>
        { w.goOn (.registry job r state os) with entry := some (.checked job.id) }
    else w.goOn .ended

def send (job : Job) (r : CloneRequest) (update : ConfigUpdate) (t : Thread) : Outcome where
  thread := t
  tables := w.tables
  sent := some ⟨job, r, update, .pending⟩
  entry := some (.sent job.id w.requests.length)

/-- `ensureCloneNetwork`, up to the write. -/
def networkCall (job : Job) (r : CloneRequest) : Outcome :=
  match w.target job with
  | none => w.goOn .ended
  | some c =>
    if !verified job r c then w.goOn .ended
    else if !c.hasCloudInitDisk || value c.ipConfigs "ipconfig0" != "" then
      w.goOn (afterNetwork job r)
    else if value c.networkAdapters "net0" == "" || !validConfigurationDigest (digest c) then
      w.goOn .ended
    else w.goOn (.sendNetwork job r c)

def sendNetworkCall (job : Job) (r : CloneRequest) (c : VMConfiguration) : Outcome :=
  match configureVMPrimaryDHCP (node job) job.targetVmid (digest c) with
  | .error _ => w.goOn .ended
  | .ok update => send w job r update (.awaitNetwork job r w.requests.length)

def observeNetworkCall (job : Job) (r : CloneRequest) : Outcome :=
  match w.target job with
  | none => w.goOn .ended
  | some c =>
    if value c.ipConfigs "ipconfig0" = "ip=dhcp" then w.goOn (afterNetwork job r) else w.goOn .ended

def gpuCall (job : Job) (r : CloneRequest) : Outcome :=
  match w.target job with
  | none => w.goOn .ended
  | some c =>
    if !verified job r c || !validConfigurationDigest (digest c) then w.goOn .ended
    else if r.mapped c then
      { w.goOn (afterGpu job r .succeeded) with entry := some (.observed job.id) }
    else w.goOn (.sendGpu job r c)

def configureMapping (job : Job) (r : CloneRequest) (digest : String) :
    Except String ConfigUpdate :=
  if r.mdevType ≠ "" then
    configureVMMDevResourceMapping (node job) job.targetVmid r.pciResourceMapping r.mdevType digest
  else configureVMPCIResourceMapping (node job) job.targetVmid r.pciResourceMapping digest

def sendGpuCall (job : Job) (r : CloneRequest) (c : VMConfiguration) : Outcome :=
  match configureMapping job r (digest c) with
  | .error _ => w.goOn (afterGpu job r .failed)
  | .ok update => send w job r update (.awaitGpu job r w.requests.length)

def registryCall (job : Job) (r : CloneRequest) (state : JobState) (os : Option OsFamily) :
    Outcome :=
  let report : DesktopReport := ⟨job.targetVmid, r.name, node job, os⟩
  if state = .failed then
    match w.tables.quarantineClonedDesktop report with
    | .error _ => w.goOn .ended
    | .ok t => ⟨.complete job state, t, none, some (.quarantined job.id)⟩
  else
    match w.tables.upsertManagedDesktop report with
    | .error _ => w.goOn .ended
    | .ok t => ⟨.complete job state, t, none, some (.registered job.id)⟩

def lastCall (t : Except StoreError AccessTables) : Outcome :=
  match t with
  | .error _ => w.goOn .ended
  | .ok t => ⟨.ended, t, none, none⟩

/-- What the answer to a call leads to; an error ends the thread unless it is listed. -/
def Thread.call : Thread → Answer → Option Outcome
  | .submit job, .upid upid => if upid = "" then none else some (w.goOn (.record job upid))
  | .submit job, .failed => some (w.goOn (.unknown job))
  | .record job upid, .done => some (lastCall w (w.tables.recordCloneTaskHandle job upid))
  | .unknown job, .done => some (lastCall w (.ok (w.tables.updateJobTask job.id .accepted "")))
  | .recoverTask job r claim, .done => some (w.goOn (.inventory job r (.recovery claim)))
  | .recoverCommit job claim, .done =>
    some (lastCall w (w.tables.commitCloneRecovery job claim.upid claim.actorId claim.reason true))
  | .inventory job r purpose, .machines vms => some (inventoryCall w job r purpose vms)
  | .inspect job r purpose, .done => some (inspectCall w job r purpose)
  | .load jobId, .done => some (loadCall w jobId)
  | .reload job, .done => some (reloadCall w job)
  | .status job, .task st exitStatus => some (statusCall decode w job st exitStatus)
  | .network job r, .done => some (networkCall digest w job r)
  | .sendNetwork job r c, .done => some (sendNetworkCall digest w job r c)
  | .awaitNetwork job r k, .done =>
    match w.progress k with
    | some .accepted => some (w.goOn (.observeNetwork job r))
    | some .rejected => some (w.goOn .ended)
    | _ => none
  | .observeNetwork job r, .done => some (observeNetworkCall w job r)
  | .gpu job r, .done => some (gpuCall digest w job r)
  | .sendGpu job r c, .done => some (sendGpuCall digest w job r c)
  | .awaitGpu job r k, .done =>
    match w.progress k with
    | some .accepted => some (w.goOn (afterGpu job r .succeeded))
    | some .rejected => some (w.goOn (afterGpu job r .failed))
    | _ => none
  | .awaitGpu job r _, .failed => some (w.goOn (afterGpu job r .failed))
  | .osType job r state, .done =>
    some (w.goOn (.inventory job r (.finish state
      ((w.target job).bind fun c => desktopOSFamily c.osType))))
  | .osType job r state, .failed => some (w.goOn (.inventory job r (.finish state none)))
  | .registry job r state os, .done => some (registryCall w job r state os)
  | .complete job state, .done =>
    some (lastCall w (.ok (w.tables.completeJobTask job.id state job.upid)))
  | .ended, _ => none
  | _, .failed => some (w.goOn .ended)
  | _, _ => none

end Calls

section Machine

inductive Event
  /-- Other transactions; they leave the clone jobs as they are. -/
  | database (t : AccessTables)
  /-- Someone else creates, changes or destroys a machine. -/
  | external (node : String) (vmid : ℕ) (c : Option VMConfiguration)
  /-- PVE serves a configuration write and stores a text for its setting. -/
  | serve (k : ℕ) (stored : String)
  | reject (k : ℕ)
  | create (job : Job) (occupied : List ℕ)
  | recover (jobId : String) (claim : Recovery)
  | refresh (jobId : String)
  /-- A thread gets the control lock of the desktop. -/
  | acquire (i : ℕ)
  | call (i : ℕ) (a : Answer)
  /-- A thread ends at any point. -/
  | crash (i : ℕ)
  deriving DecidableEq, Repr

variable (decode : String → Option CloneRequest) (digest : VMConfiguration → String)

namespace World

variable (w : World)

def admitsJobs (jobs : List Job) : Bool :=
  decide (jobs.map (·.id)).Nodup &&
    w.tables.jobs.all (fun j => jobs.any fun j' => sameJob j j' && (!isClone j || j' == j)) &&
    jobs.all fun j => !isClone j || w.tables.jobs.contains j

def settle (k : ℕ) (q : Request) (state : RequestState) : World :=
  { w with requests := w.requests.set k { q with state := state } }

def setConfig (node : String) (vmid : ℕ) (c : Option VMConfiguration) : World :=
  { w with
    configs := fun n v => if n = node ∧ v = vmid then c else w.configs n v }

def serve (k : ℕ) (stored : String) : Option World :=
  w.requests[k]?.bind fun q =>
    if q.state ≠ .pending then none
    else match w.configs q.update.node q.update.vmid with
      | none => some (w.settle k q .rejected)
      | some c =>
        if digest c ≠ q.update.digest then some (w.settle k q .rejected)
        else if q.update.setting.keeps stored then
          some { (w.settle k q .accepted).setConfig q.update.node q.update.vmid
              (some (c.apply q.update.setting stored)) with
            log := .accepted k c :: w.log }
        else none

/-- Admit a clone and reserve its target; the same request again starts nothing. -/
def create (job : Job) (occupied : List ℕ) : Option World :=
  if (decode job.request).any (·.admitted) then
    match w.tables.reserveDesktopCloneJob job occupied true with
    | .error _ => none
    | .ok t =>
      if w.tables.jobs.any (·.idempotencyKey == job.idempotencyKey) then some w
      else (t.jobById job.id).map fun stored =>
        { w with tables := t, threads := w.threads ++ [.submit stored] }
  else none

def recover (jobId : String) (claim : Recovery) : Option World :=
  (w.tables.jobById jobId).bind fun job => (decode job.request).bind fun r =>
    if isClone job && job.state == .accepted && !hasTask job && 0 < job.sourceVmid &&
        0 < job.targetVmid && job.taskNode.isSome && job.targetNode.isSome && r.name != "" &&
        r.pvePrincipal != "" then
      some { w with threads := w.threads ++ [.recoverLock job r claim] }
    else none

def waiting : Thread → Option (Job × Thread)
  | .lock job => some (job, .reload job)
  | .recoverLock job r claim => some (job, .recoverTask job r claim)
  | _ => none

def acquire (i : ℕ) : Option World :=
  (w.threads[i]?.bind waiting).bind fun p =>
    if 0 < p.1.targetVmid ∧ w.holder p.1.targetVmid = none then
      some { w with
        holder := fun v => if v = p.1.targetVmid then some i else w.holder v
        threads := w.threads.set i p.2 }
    else none

def resume (i : ℕ) (o : Outcome) : World :=
  { w with
    tables := o.tables
    requests := w.requests ++ o.sent.toList
    holder := if o.thread = .ended then w.release i else w.holder
    threads := w.threads.set i o.thread
    log := o.entry.toList ++ w.log }

def step : Event → Option World
  | .database t => if w.admitsJobs t.jobs then some { w with tables := t } else none
  | .external node vmid c => some (w.setConfig node vmid c)
  | .serve k stored => w.serve digest k stored
  | .reject k => w.requests[k]?.bind fun q =>
      if q.state = .pending then some (w.settle k q .rejected) else none
  | .create job occupied => w.create decode job occupied
  | .recover jobId claim => w.recover decode jobId claim
  | .refresh jobId => some { w with threads := w.threads ++ [.load jobId] }
  | .acquire i => w.acquire i
  | .call i a => w.threads[i]?.bind fun t => (t.call decode digest w a).map (w.resume i)
  | .crash i => w.threads[i]?.map fun _ => w.resume i (w.goOn .ended)

end World

/-- Before the first request: the jobs are distinct, and the clones among them were admitted. -/
structure Idle (w : World) : Prop where
  jobs : (w.tables.jobs.map (·.id)).Nodup
  admitted : ∀ j ∈ w.tables.jobs, isClone j = true → ∀ r, decode j.request = some r →
    r.admitted = true
  requests : w.requests = []
  holder : ∀ v, w.holder v = none
  threads : w.threads = []
  log : w.log = []

def clones : Machine World Event where
  Init := Idle decode
  step w e := w.step decode digest e

end Machine

end VcWorkspace.Clone
