import RoundSync.Transition.Core

/-!
# Workers and their end notifications

`SyncWorker` and `EphemeralWorker` run rclone for a task.  Three parties share
their fields without a lock: `doWork`, `onStopped` and the connectivity receiver.
Every access of a shared field is one event here.  Both workers end in the same
pair of methods, `finishWork` and `postSync`, which call each other.  Progress
notifications, logs and `silentRun` (never set) are left out.
-/

namespace RoundSync.WorkManager

open Transition

inductive FailureReason where
  | noFailure
  | noUnmetered
  | noConnection
  | rcloneError
  | connectivityChanged
  | cancelled
  | noTask
  deriving DecidableEq, Repr

inductive Connection where
  | notAvailable
  | connected
  | metered
  | disconnected
  deriving DecidableEq, Repr

/-- `arePreconditionsMet` and `preconditionsMet`: the reason they set, if any. -/
def unmetPrecondition (wifiOnly : Bool) (connection : Connection) : Option FailureReason :=
  if wifiOnly && connection = .metered then some .noUnmetered
  else if connection = .disconnected || connection = .notAvailable then some .noConnection
  else none

/-- What a worker needs of a task of the database. -/
structure SyncTask where
  wifiOnly : Bool
  deriving DecidableEq, Repr

inductive EphemeralType where
  | download
  | upload
  | move
  | delete
  deriving DecidableEq, Repr

/-- Only an upload does without a `FileItem`. -/
def EphemeralType.needsFileItem : EphemeralType → Bool
  | .upload => false
  | _ => true

/-- The input of a worker.  For `SyncWorker` the task of the database and the
task given as a text, each if there is one; for `EphemeralWorker` whether there
is a type and which (a text that names no type is `some none`), a remote, and a
file item. -/
inductive WorkerInput where
  | sync (stored decoded : Option SyncTask)
  | ephemeral (type : Option (Option EphemeralType)) (remote fileItem : Bool)
  deriving DecidableEq, Repr

/-- The input, and what the device and rclone will do. -/
structure Setting where
  input : WorkerInput
  wifiOnlyTransfers : Bool
  connection : Connection
  starts : Bool
  exitCode : Option Int
  deriving DecidableEq, Repr

/-- The task that is given as a text replaces that of the database. -/
def ephemeralTask (stored decoded : Option SyncTask) : Option SyncTask :=
  decoded.or stored

/-- The fields that the parties share, what rclone came to, and a record of the
end notifications, latest first, and of the calls of `unregisterReceiver`.
`prepared` says that `mTask` (of `SyncWorker`) or `mNotificationManager` (of
`EphemeralWorker`) is set. -/
structure Fields where
  failureReason : FailureReason
  endNotificationAlreadyPosted : Bool
  sRcloneProcess : Bool
  prepared : Bool
  receiver : Bool
  exitCode : Option Int
  notifications : List FailureReason
  unregisterCalls : Nat
  deriving DecidableEq, Repr

/-- The statements of `finishWork` and `postSync`. -/
inductive FinishPoint where
  | destroy
  | unregister
  | entry
  | choose
  | notify (reason : FailureReason)
  | mark (reason : FailureReason)
  | returned
  | thrown
  deriving DecidableEq, Repr

/-- `showSuccessNotification`, `showCancelledNotification` and
`showFailNotification`.  The last two read `mTask` in `SyncWorker`, which throws
before it is set; `EphemeralWorker` shows nothing without its manager. -/
def showNotification (input : WorkerInput) (f : Fields) (reason : FailureReason) : Option Fields :=
  let shown := { f with notifications := reason :: f.notifications }
  match input with
  | .sync _ _ => if f.prepared || reason = .noFailure then some shown else none
  | .ephemeral _ _ _ => if f.prepared then some shown else some f

/-- One statement of `finishWork` or `postSync`.  A failure that has been posted
calls `finishWork`, which ends in another `postSync`. -/
def finishStep (input : WorkerInput) (f : Fields) : FinishPoint → Fields × FinishPoint
  | .destroy => (f, .unregister)
  | .unregister =>
      ({ f with receiver := false, unregisterCalls := f.unregisterCalls + 1 },
        -- a receiver that is not registered is an IllegalArgumentException
        if f.receiver then .entry else .thrown)
  | .entry => (f, if f.endNotificationAlreadyPosted then .returned else .choose)
  | .choose => (f, .notify f.failureReason)
  | .notify reason =>
      match showNotification input f reason with
      | none => (f, .thrown)
      | some shown => (shown, if reason = .noFailure then .returned else .mark reason)
  | .mark reason =>
      ({ f with endNotificationAlreadyPosted := true },
        if reason = .cancelled then .returned else .destroy)
  | .returned => (f, .returned)
  | .thrown => (f, .thrown)

/-- The statements of `doWork`, `handleTask` and `handleSync`.  `finish` has the
`Result` that follows. -/
inductive WorkPoint where
  | start
  | lookUp
  | preconditions (wifiOnly : Bool)
  | startProcess
  | waiting
  | exited
  | failed
  | finish (success : Bool) (point : FinishPoint)
  | returned (success : Bool)
  | thrown
  deriving DecidableEq, Repr

/-- `work` is the point of `doWork`, `stopping` that of `onStopped` once it has
begun, and `receiving` says that the receiver has found no end notification and
is about to write. -/
structure Worker where
  fields : Fields
  work : WorkPoint
  stopping : Option FinishPoint
  receiving : Bool
  deriving DecidableEq, Repr

namespace Worker

def start : Worker where
  fields :=
    { failureReason := .noFailure
      endNotificationAlreadyPosted := false
      sRcloneProcess := false
      prepared := false
      receiver := false
      exitCode := none
      notifications := []
      unregisterCalls := 0 }
  work := .start
  stopping := none
  receiving := false

/-- What `doWork` finds in its input. -/
def lookUp (setting : Setting) (w : Worker) : Worker :=
  match setting.input with
  | .sync stored decoded =>
      match ephemeralTask stored decoded with
      | none => { w with work := .finish false .entry }
      | some task =>
          { w with
            fields := { w.fields with prepared := true }
            work := .preconditions task.wifiOnly }
  | .ephemeral none _ _ => { w with work := .returned false }
  | .ephemeral (some none) _ _ => { w with work := .thrown }
  | .ephemeral (some (some _)) remote _ =>
      { w with
        fields := { w.fields with prepared := true }
        work := if remote then .preconditions setting.wifiOnlyTransfers else .returned false }

/-- `SyncWorker` returns success when the preconditions are not met. -/
def preconditions (setting : Setting) (w : Worker) (wifiOnly : Bool) : Worker :=
  match unmetPrecondition wifiOnly setting.connection with
  | none => { w with work := .startProcess }
  | some reason =>
      { w with
        fields := { w.fields with failureReason := reason }
        work :=
          match setting.input with
          | .sync _ _ => .finish true .entry
          | .ephemeral _ _ _ => .finish false .entry }

/-- The file item that rclone needs, and throws without. -/
def missesFileItem : WorkerInput → Bool
  | .ephemeral (some (some type)) _ fileItem => type.needsFileItem && !fileItem
  | _ => false

def startProcess (setting : Setting) (w : Worker) : Worker :=
  if missesFileItem setting.input then { w with work := .thrown }
  else
    { w with
      fields := { w.fields with sRcloneProcess := setting.starts }
      work := if setting.starts then .waiting else .finish true .entry }

/-- The next statement of `doWork`. -/
def workStep (setting : Setting) (w : Worker) : Worker :=
  match w.work with
  | .start => { w with fields := { w.fields with receiver := true }, work := .lookUp }
  | .lookUp => w.lookUp setting
  | .preconditions wifiOnly => w.preconditions setting wifiOnly
  | .startProcess => w.startProcess setting
  | .waiting =>
      { w with fields := { w.fields with exitCode := setting.exitCode }, work := .exited }
  | .exited =>
      { w with
        work :=
          if setting.exitCode.any (· ≠ 0) && w.fields.failureReason = .noFailure then .failed
          else .finish true .entry }
  | .failed =>
      { w with
        fields := { w.fields with failureReason := .rcloneError }
        work := .finish true .entry }
  | .finish success point =>
      let (fields, next) := finishStep setting.input w.fields point
      { w with
        fields
        work :=
          match next with
          | .returned => .returned success
          | .thrown => .thrown
          | next => .finish success next }
  | .returned success => { w with work := .returned success }
  | .thrown => { w with work := .thrown }

/-- `onStopped` begins, or goes on in `finishWork`. -/
def stopStep (setting : Setting) (w : Worker) : Worker :=
  match w.stopping with
  | none =>
      { w with
        fields := { w.fields with failureReason := .cancelled }
        stopping := some .destroy }
  | some point =>
      let (fields, next) := finishStep setting.input w.fields point
      { w with fields, stopping := some next }

/-- `onReceive`: the test, then the write. -/
def receiveStep (w : Worker) : Worker :=
  if w.receiving then
    { w with
      fields := { w.fields with failureReason := .connectivityChanged }
      receiving := false }
  else
    { w with receiving := !w.fields.endNotificationAlreadyPosted }

end Worker

inductive WorkerStep where
  | work
  | stop
  | receive
  deriving DecidableEq, Repr

def step (setting : Setting) (w : Worker) : WorkerStep → Worker
  | .work => w.workStep setting
  | .stop => w.stopStep setting
  | .receive => w.receiveStep

end RoundSync.WorkManager
