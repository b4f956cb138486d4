import RoundSync.QuarkDav.Repository
import RoundSync.Transition.Program

/-!
# The QuarkDav supervisor

The tasks of `QuarkDavService`, one at a time on its supervisor thread, as
programs of atomic calls: locked sections of the repository, accesses of the
status files, operations on processes, and accesses of the fields of the
service, which only the supervisor uses.  User interface and kernels act
between any two calls.  Notifications, wake locks and log lines are left out.
-/

namespace RoundSync.QuarkDav

open RoundSync.Data
open RoundSync.Text
open RoundSync.Text.Kotlin
open RoundSync.Transition

/-! ## State -/

/-- A kernel process: the configuration file it has read, and the cookies it has
written since, latest first. -/
structure KernelProcess where
  id : JavaString
  launched : QuarkDavKernelConfig
  refreshed : List JavaString := []
  alive : Bool

/-- The cookies that a kernel was launched with or has written. -/
def KernelProcess.held (p : KernelProcess) : List JavaString :=
  p.launched.cookie.cookie :: p.refreshed

structure RunningProcess where
  config : QuarkDavRemote
  fingerprint : JavaString
  process : Nat
  pid : Int := 0
  stopping : Bool := false
  ready : Bool := false
  url : JavaString := []

/-- The fields of the service.  `holders` lists every holder ever made, and a
holder is known by its place in it. -/
structure Supervisor where
  running : Table JavaString Nat
  holders : List RunningProcess
  restartAttempts : Table JavaString Nat
  scheduled : List JavaString

namespace Supervisor

def fresh : Supervisor :=
  ⟨∅, [], ∅, []⟩

/-- Change a holder in place. -/
def update (s : Supervisor) (holder : Nat) (change : RunningProcess → RunningProcess) :
    Supervisor :=
  { s with holders := s.holders.modify holder change }

def remove (s : Supervisor) (id : JavaString) : Supervisor :=
  { s with running := s.running.erase id }

/-- `running[id]`. -/
def holderOf (s : Supervisor) (id : JavaString) : Option (Nat × RunningProcess) :=
  match s.running.lookup id with
  | some holder => s.holders[holder]?.map fun h => (holder, h)
  | none => none

/-- The holder, unless it is stopping or no longer `running[holder.config.id]`. -/
def current (s : Supervisor) (holder : Nat) : Option RunningProcess :=
  match s.holders[holder]? with
  | some h => if s.running.lookup h.config.id ≠ some holder || h.stopping then none else some h
  | none => none

end Supervisor

structure Service where
  dir : Directory
  supervisor : Supervisor
  processes : List KernelProcess
  binary : Bool
  startable : Bool

/-! ## Calls -/

inductive ServiceCall where
  | list
  | get (id : JavaString)
  | save (remote : QuarkDavRemote)
  | syncRuntimeCookie (id : JavaString)
  | writeRuntimeConfig (remote : QuarkDavRemote)
  | readStatus (id : JavaString)
  | writeStatus (status : QuarkDavRuntimeStatus)
  | deleteStatus (id : JavaString)
  | binaryExists (id : JavaString)
  | terminateStaleKernel (id : JavaString)
  | launch (refreshed : QuarkDavRemote)
  | destroy (process : Nat)
  | isAlive (process : Nat)
  | fields (change : Supervisor → Supervisor)

abbrev ServiceCall.Reply : ServiceCall → Type
  | .list => List QuarkDavRemote
  | .get _ => Option QuarkDavRemote
  | .save _ => Except JavaString QuarkDavRemote
  | .readStatus _ => QuarkDavRuntimeStatus
  | .binaryExists _ => Bool
  | .launch _ => Option Nat
  | .isAlive _ => Bool
  | .fields _ => Supervisor
  | _ => Unit

section Answer

variable (platform : Platform)

/-- Start a process, make its holder and register it. -/
def launch (s : Service) (refreshed : QuarkDavRemote) : Option Nat × Service :=
  if !s.startable then (none, s)
  else
    let file := s.dir.runtime.lookup refreshed.id
    let process : KernelProcess :=
      -- a kernel that finds no configuration file exits at once
      { id := refreshed.id, launched := file.getD (refreshed.kernelConfig platform)
        alive := file.isSome }
    let holder : RunningProcess :=
      { config := refreshed, fingerprint := fingerprint platform refreshed
        process := s.processes.length }
    (some s.supervisor.holders.length,
      { s with
        processes := s.processes ++ [process]
        supervisor :=
          { s.supervisor with
            holders := s.supervisor.holders ++ [holder]
            running := s.supervisor.running.insert refreshed.id s.supervisor.holders.length } })

/-- The reply to a call and the state after it; `fields` replies with the fields
before the change. -/
def answer : (c : ServiceCall) → Service → c.Reply × Service
  | .list, s => (list platform.cases s.dir.remotes, s)
  | .get id, s => (get platform.cases s.dir.remotes id, s)
  | .save remote, s =>
      let (result, remotes) := save platform.cases s.dir.remotes remote
      (result, { s with dir := { s.dir with remotes } })
  | .syncRuntimeCookie id, s =>
      ((), { s with
        dir := { s.dir with remotes := syncRuntimeCookie s.dir.runtime s.dir.remotes id } })
  | .writeRuntimeConfig remote, s =>
      ((), { s with dir := writeRuntimeConfig platform s.dir remote })
  | .readStatus id, s => (s.dir.statuses.read id, s)
  | .writeStatus status, s =>
      ((), { s with dir := { s.dir with statuses := s.dir.statuses.write status } })
  | .deleteStatus id, s =>
      ((), { s with dir := { s.dir with statuses := s.dir.statuses.delete id } })
  | .binaryExists _, s => (s.binary, s)
  | .terminateStaleKernel id, s =>
      ((), { s with
        processes := s.processes.map fun p => if p.id = id then { p with alive := false } else p })
  | .launch refreshed, s => launch platform s refreshed
  | .destroy process, s =>
      ((), { s with processes := s.processes.modify process fun p => { p with alive := false } })
  | .isAlive process, s => (s.processes[process]?.any (·.alive), s)
  | .fields change, s => (s.supervisor, { s with supervisor := change s.supervisor })

end Answer

/-! ## Tasks -/

abbrev Task (α : Type) := Program ServiceCall.Reply α

def ask (c : ServiceCall) : Task c.Reply :=
  Program.request c

/-- Read the fields of the service. -/
def fields : Task Supervisor :=
  ask (.fields id)

def change (f : Supervisor → Supervisor) : Task Unit := do
  let _ ← ask (.fields f)

section Tasks

variable (platform : Platform)

/-- The end of `stopProcess`: what is published of a remote that does not run. -/
def publishStopped (id : JavaString) : Task Unit := do
  match ← ask (.get id) with
  | none => ask (.deleteStatus id)
  | some _ => ask (.writeStatus { id })

def stopProcess (id : JavaString) (syncRuntimeCookie : Bool) : Task Unit := do
  match (← fields).holderOf id with
  | none => publishStopped id
  | some (holder, h) =>
      change (·.update holder fun h => { h with stopping := true })
      change (·.remove id)
      ask (.destroy h.process)
      if syncRuntimeCookie then ask (.syncRuntimeCookie id)
      publishStopped id

def fail (id message : JavaString) : Task Unit :=
  ask (.writeStatus { id, state := .error, message })

/-- `displayWebDavUrl`. -/
def displayWebDavUrl (remote : QuarkDavRemote) : Task JavaString := do
  let status ← ask (.readStatus remote.id)
  if !isBlank status.url then pure status.url
  else
    let n := remote.normalized platform.cases
    let host :=
      if n.listenAddress ∈ [text "0.0.0.0", text "::", text "[::]"] then platform.bestLanAddress
      else n.listenAddress
    let rendered :=
      if ':' ∈ host && !(text "[").isPrefixOf host then text "[" ++ host ++ text "]" else host
    pure (text "http://" ++ rendered ++ text ":" ++ text (toString n.port) ++ n.pathPrefix ++
      text "/")

/-- The end of `startProcess`: configure, start and register a kernel. -/
def launchKernel (remote : QuarkDavRemote) : Task Unit := do
  let refreshed := (← ask (.get remote.id)).getD remote
  ask (.writeRuntimeConfig refreshed)
  match ← ask (.launch refreshed) with
  | none => fail remote.id (text "IOException")
  | some _ =>
      let url ← displayWebDavUrl platform refreshed
      ask (.writeStatus
        { id := refreshed.id, state := .starting, url
          configuredCookieHash := cookieFingerprint platform refreshed.cookie })

def startProcess (remote : QuarkDavRemote) : Task Unit := do
  if !(← ask (.binaryExists remote.id)) then
    fail remote.id (text "The QuarkDav native kernel is missing for this CPU architecture.")
  else
    let priorStatus ← ask (.readStatus remote.id)
    ask (.terminateStaleKernel remote.id)
    if !isBlank priorStatus.configuredCookieHash &&
        priorStatus.configuredCookieHash = cookieFingerprint platform remote.cookie then
      ask (.syncRuntimeCookie remote.id)
    launchKernel platform remote

def syncRunningCookie (holder : Nat) (h : RunningProcess) : Task Unit := do
  let id := h.config.id
  match ← ask (.get id) with
  | none => pure ()
  | some before =>
      if before.cookie ≠ h.config.cookie then pure ()
      else
        ask (.syncRuntimeCookie id)
        match ← ask (.get id) with
        | none => pure ()
        | some refreshed =>
            change (·.update holder fun h =>
              { h with config := refreshed, fingerprint := fingerprint platform refreshed })

/-- The end of a turn of `refreshRunningStatuses`: publish what is now known of a holder. -/
def publishRunning (holder : Nat) : Task Unit := do
  match (← fields).holders[holder]? with
  | none => pure ()
  | some h =>
      let url ← if isBlank h.url then displayWebDavUrl platform h.config else pure h.url
      ask (.writeStatus
        { id := h.config.id, state := .running, url, pid := h.pid
          configuredCookieHash := cookieFingerprint platform h.config.cookie })

/-- `refreshRunningStatuses` for one holder. -/
def refreshRunningStatus (syncCookies : Bool) (holder : Nat) : Task Unit := do
  match (← fields).holders[holder]? with
  | none => pure ()
  | some h =>
      if !h.ready then pure ()
      else if !(← ask (.isAlive h.process)) then pure ()
      else
        if syncCookies then syncRunningCookie platform holder h
        publishRunning platform holder

def refreshRunningStatuses (syncCookies : Bool) : Task Unit := do
  Program.forEach (← fields).running.values (refreshRunningStatus platform syncCookies)

/-- The enabled remotes, or those of them that start at boot. -/
def wanted (bootOnly : Bool) (all : List QuarkDavRemote) : List QuarkDavRemote :=
  all.filter fun remote => remote.enabled && (!bootOnly || remote.startAtBoot)

/-- The first loop of `reconcileInternal`, for one id. -/
def reconcileRunning (enabled : List QuarkDavRemote) (id : JavaString) : Task Unit := do
  match enabled.find? (·.id = id), (← fields).holderOf id with
  | some desired, some (holder, h) =>
      if h.fingerprint ≠ fingerprint platform desired then
        stopProcess id (desired.cookie = h.config.cookie)
      else
        change (·.update holder fun h =>
          { h with config := desired, fingerprint := fingerprint platform desired })
  | _, _ => stopProcess id true

/-- The second loop of `reconcileInternal`, for one remote. -/
def startMissing (remote : QuarkDavRemote) : Task Unit := do
  if ((← fields).running.lookup remote.id).isNone then startProcess platform remote

def reconcileInternal (bootOnly : Bool) : Task Unit := do
  let enabled := wanted bootOnly (← ask .list)
  Program.forEach (← fields).running.keys (reconcileRunning platform enabled)
  let refreshedEnabled := wanted bootOnly (← ask .list)
  Program.forEach refreshedEnabled (startMissing platform)
  refreshRunningStatuses platform false

/-- One turn of the stop-all loop; a refused save is ignored. -/
def stopEnabled (remote : QuarkDavRemote) : Task Unit := do
  if remote.enabled then
    let _ ← ask (.save { remote with enabled := false })

def stopAll : Task Unit := do
  Program.forEach (← ask .list) stopEnabled
  reconcileInternal platform false

/-- A refused save ends the task. -/
def stopRemote (id : JavaString) : Task Unit := do
  match ← ask (.get id) with
  | none => reconcileInternal platform false
  | some current =>
      match ← ask (.save { current with enabled := false }) with
      | .error _ => pure ()
      | .ok _ => reconcileInternal platform false

def heartbeat : Task Unit :=
  refreshRunningStatuses platform true

def pidLine (holder : Nat) (pid : Int) : Task Unit := do
  match (← fields).current holder with
  | none => pure ()
  | some h =>
      change (·.update holder fun h => { h with pid })
      let status ← ask (.readStatus h.config.id)
      if status.state = .starting ∨ status.state = .running then
        ask (.writeStatus { status with pid })

def readyLine (holder : Nat) (url : JavaString) : Task Unit := do
  match (← fields).current holder with
  | none => pure ()
  | some h =>
      change (·.update holder fun h => { h with ready := true, url })
      change fun s => { s with restartAttempts := s.restartAttempts.erase h.config.id }
      ask (.writeStatus
        { id := h.config.id, state := .running, url, pid := h.pid
          configuredCookieHash := cookieFingerprint platform h.config.cookie })

/-- The end of `onProcessExit`, for what is then stored of the remote. -/
def publishExit (id : JavaString) (h : RunningProcess) (exitCode : Int)
    (desired : Option QuarkDavRemote) : Task Unit := do
  if h.stopping || !desired.any (·.enabled) then
    match desired with
    | none => ask (.deleteStatus id)
    | some _ => ask (.writeStatus { id })
    change fun s => { s with restartAttempts := s.restartAttempts.erase id }
  else
    ask (.writeStatus
      { id, state := .error
        message := text "The QuarkDav process exited unexpectedly (code " ++
          text (toString exitCode) ++ text "); it will be restarted automatically." })
    change fun s =>
      { s with
        restartAttempts := s.restartAttempts.insert id
          ((s.restartAttempts.lookup id).getD 0 + 1)
        scheduled := s.scheduled ++ [id] }

def onProcessExit (id : JavaString) (holder : Nat) (exitCode : Int) : Task Unit := do
  match (← fields).holderOf id with
  | none => pure ()
  | some (registered, h) =>
      if registered ≠ holder then pure ()
      else
        change (·.remove id)
        let beforeSync ← ask (.get id)
        if beforeSync.all (·.cookie = h.config.cookie) then ask (.syncRuntimeCookie id)
        publishExit id h exitCode (← ask (.get id))

/-- A scheduled restart, whenever its delay has passed. -/
def scheduledRestart (index : Nat) : Task Unit := do
  let before ← ask (.fields fun s => { s with scheduled := s.scheduled.eraseIdx index })
  match before.scheduled[index]? with
  | none => pure ()
  | some id =>
      match ← ask (.get id) with
      | none => pure ()
      | some latest => if latest.enabled then startMissing platform latest

def onDestroy : Task Unit := do
  Program.forEach (← fields).running.keys fun id => stopProcess id true

inductive ServiceTask where
  | reconcile (bootOnly : Bool)
  | stopAll
  | stopRemote (id : JavaString)
  | heartbeat
  | pidLine (holder : Nat) (pid : Int)
  | readyLine (holder : Nat) (url : JavaString)
  | processExit (id : JavaString) (holder : Nat) (exitCode : Int)
  | scheduledRestart (index : Nat)
  | destroy

def ServiceTask.program : ServiceTask → Task Unit
  | .reconcile bootOnly => reconcileInternal platform bootOnly
  | .stopAll => QuarkDav.stopAll platform
  | .stopRemote id => QuarkDav.stopRemote platform id
  | .heartbeat => QuarkDav.heartbeat platform
  | .pidLine holder pid => QuarkDav.pidLine holder pid
  | .readyLine holder url => QuarkDav.readyLine platform holder url
  | .processExit id holder exitCode => onProcessExit id holder exitCode
  | .scheduledRestart index => QuarkDav.scheduledRestart platform index
  | .destroy => onDestroy

end Tasks

/-! ## Everything else that happens -/

/-- What user interface, kernels and platform do between two calls. -/
inductive OutsideEvent where
  | save (remote : QuarkDavRemote)
  | delete (id : JavaString)
  | sendFailed (id message : JavaString)
  | kernelSave (process : Nat) (cookie : JavaString)
  | kernelExit (process : Nat)
  | platform (binary startable : Bool)

/-- A kernel writes its configuration file with a refreshed cookie. -/
def kernelSave (s : Service) (process : Nat) (cookie : JavaString) : Service :=
  match s.processes[process]? with
  | some p =>
      if p.alive then
        { s with
          processes := s.processes.set process { p with refreshed := cookie :: p.refreshed }
          dir := { s.dir with
            runtime := s.dir.runtime.insert p.id
              { p.launched with cookie := { p.launched.cookie with cookie } } } }
      else s
  | none => s

def outside (platform : Platform) (s : Service) : OutsideEvent → Service
  | .save remote =>
      { s with dir := { s.dir with remotes := (save platform.cases s.dir.remotes remote).2 } }
  | .delete id => { s with dir := delete s.dir id }
  | .sendFailed id message =>
      { s with
        dir := { s.dir with statuses := s.dir.statuses.write { id, state := .error, message } } }
  | .kernelSave process cookie => kernelSave s process cookie
  | .kernelExit process =>
      { s with processes := s.processes.modify process fun p => { p with alive := false } }
  | .platform binary startable => { s with binary, startable }

/-- The service with its supervisor thread.  When the service process is killed
its fields are lost; files and kernels stay. -/
def service (platform : Platform) : Shop Service ServiceCall.Reply OutsideEvent ServiceTask where
  answer := answer platform
  outside := outside platform
  task := ServiceTask.program platform
  restart s := { s with supervisor := { Supervisor.fresh with holders := s.supervisor.holders } }

end RoundSync.QuarkDav
