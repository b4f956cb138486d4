import Mathlib.Data.List.Count
import RoundSync.Data.Table
import RoundSync.Transition.Core

/-!
# The monitor of pending rclone jobs

Callers of the rclone daemon submit asynchronous jobs from their own threads; a
periodic monitor takes the pending jobs off a blocking queue, asks the daemon
for the status of each, and posts the handler of a finished job to the main
thread.  Every statement that touches a field shared between the threads is one
event here, and the daemon's reply to a status query is an event of its own.
-/

namespace RoundSync.Rclone

open Data Transition

namespace Rcd

universe u v

structure JobStatusResponse where
  id : Int
  finished : Bool
  success : Bool
  startTime : Int
  endTime : Int
  error : Option String
  progress : Option String
  deriving DecidableEq, Repr

structure ErrorResponse where
  error : Option String
  operation : Option String
  status : Int
  deriving DecidableEq, Repr

/-- An `IOException` by the simple name of its class and its message. -/
structure IOException where
  simpleName : String
  message : Option String
  deriving DecidableEq, Repr

/-- How `mapper.readValue` ends on a body. -/
inductive Parsed (α : Type u) where
  | malformed
  | broken (exception : IOException)
  | null
  | value (value : α)

/-- The JSON readers of the library, and whether a `JobsUpdateHandler` was given. -/
structure Client (Body : Type v) where
  readError : Body → Parsed ErrorResponse
  readStatus : Body → Parsed JobStatusResponse
  jobsUpdateHandler : Bool

/-- What one HTTP exchange with the daemon comes to. -/
inductive Reply (Body : Type v) where
  | failed (exception : IOException)
  | answered (code : Nat) (body : Body)

/-- `RcdOpException` and its subclass `RcdIOException`. -/
inductive RcdOpException where
  | operation (error : ErrorResponse)
  | io (exception : IOException)
  deriving DecidableEq, Repr

def RcdOpException.getError : RcdOpException → Option String
  | .operation error => error.error
  | .io exception => some (exception.simpleName ++ ": " ++ exception.message.getD "null")

inductive Thrown where
  | rcdOp (exception : RcdOpException)
  | runtime
  deriving DecidableEq, Repr

def isErrorCode (code : Nat) : Bool :=
  400 ≤ code

variable {Body : Type v}

/-- A reply that is `null` comes back as a null response; a null error object
breaks the constructor of the exception. -/
def performRcCall (client : Client Body) : Reply Body → Except Thrown (Option JobStatusResponse)
  | .failed exception => .error (.rcdOp (.io exception))
  | .answered code body =>
      if isErrorCode code then
        match client.readError body with
        | .malformed => .error .runtime
        | .broken exception => .error (.rcdOp (.io exception))
        | .null => .error .runtime
        | .value error => .error (.rcdOp (.operation error))
      else
        match client.readStatus body with
        | .malformed => .error .runtime
        | .broken exception => .error (.rcdOp (.io exception))
        | .null => .ok none
        | .value response => .ok (some response)

/-- The two statements by which a submitted job becomes known to the monitor. -/
inductive Statement where
  | appendHandler
  | addPending
  deriving DecidableEq, Repr

inductive Method where
  | sync
  | copy
  | copyFile
  | move
  | deleteFile
  | purge
  | moveFile
  deriving DecidableEq, Repr

/-- The statements that follow the daemon's reply, in the order of the source. -/
def Method.statements : Method → List Statement
  | .moveFile => [.addPending, .appendHandler]
  | _ => [.appendHandler, .addPending]

/-- A submitting thread after the daemon has accepted its job. -/
structure Submission (Handler : Type u) where
  method : Method
  handler : Handler
  rest : List Statement

/-- A `RunJobStatusHandler`, with the job it was made for. -/
structure Call (Handler : Type u) where
  jobId : Nat
  handler : Handler
  response : JobStatusResponse

/-- A message on the main thread's queue. -/
inductive Post (Handler : Type u) where
  | jobStatus (call : Call Handler)
  | jobsUpdate

/-- Where the monitor is.  `waiting` is both the pause between two rounds and
the blocking `take`; an exception ends the scheduled task for good. -/
inductive Point where
  | waiting
  | taken (jobId : Nat)
  | checking (pending : List Nat)
  | querying (pending : List Nat) (jobId : Nat)
  | finishing (pending : List Nat) (jobId : Nat) (response : JobStatusResponse)
  | returning (pending : List Nat)
  | updating
  | stopped
  deriving DecidableEq

/-- The jobs the monitor has taken off the queue and not yet dealt with. -/
def Point.held : Point → List Nat
  | .waiting => []
  | .taken jobId => [jobId]
  | .checking pending => pending
  | .querying pending jobId => pending ++ [jobId]
  | .finishing pending jobId _ => pending ++ [jobId]
  | .returning pending => pending
  | .updating => []
  | .stopped => []

/-- The shared fields, the threads, and a record of what has happened: the jobs
the daemon has accepted with the handler given for each, those added to the
queue, the handlers run, and the jobs reported as not found. -/
structure State (Handler : Type u) where
  pendingJobs : List Nat
  jobsHandlers : Table Nat Handler
  lastStatus : Table Nat (Option JobStatusResponse)
  point : Point
  mainQueue : List (Post Handler)
  submissions : Table Nat (Submission Handler)
  accepted : Table Nat Handler
  submitted : List Nat
  invoked : List (Call Handler)
  notFound : List Nat

inductive Event (Handler : Type u) (Body : Type v) where
  | accept (method : Method) (jobId : Nat) (handler : Handler)
  | advance (jobId : Nat)
  | monitor
  | reply (reply : Reply Body)
  | main

variable {Handler : Type u}

namespace State

def start : State Handler where
  pendingJobs := []
  jobsHandlers := ∅
  lastStatus := ∅
  point := .waiting
  mainQueue := []
  submissions := ∅
  accepted := ∅
  submitted := []
  invoked := []
  notFound := []

/-- The daemon accepts a job; it numbers its jobs consecutively, so that no
number is given out twice. -/
def accept (state : State Handler) (method : Method) (jobId : Nat) (handler : Handler) :
    State Handler :=
  if (state.accepted.lookup jobId).isSome then
    state
  else
    { state with
      accepted := state.accepted.insert jobId handler
      submissions := state.submissions.insert jobId ⟨method, handler, method.statements⟩ }

def execute (state : State Handler) (jobId : Nat) (handler : Handler) : Statement → State Handler
  | .appendHandler => { state with jobsHandlers := state.jobsHandlers.insert jobId handler }
  | .addPending =>
      { state with
        pendingJobs := state.pendingJobs ++ [jobId]
        submitted := jobId :: state.submitted }

/-- The next statement of the thread that has submitted a job. -/
def advance (state : State Handler) (jobId : Nat) : State Handler :=
  match state.submissions.lookup jobId with
  | none => state
  | some submission =>
      match submission.rest with
      | [] => state
      | statement :: rest =>
          let state := state.execute jobId submission.handler statement
          { state with
            submissions := state.submissions.insert jobId { submission with rest := rest } }

/-- One statement of `PendingRcloneJobs.run`. -/
def monitor (client : Client Body) (state : State Handler) : State Handler :=
  match state.point with
  | .waiting =>
      match state.pendingJobs with
      | [] => state
      | jobId :: pendingJobs => { state with pendingJobs := pendingJobs, point := .taken jobId }
  | .taken jobId =>
      { state with pendingJobs := state.pendingJobs ++ [jobId], point := .checking [] }
  | .checking pending =>
      match state.pendingJobs with
      | [] => { state with point := .returning pending }
      | jobId :: pendingJobs =>
          { state with pendingJobs := pendingJobs, point := .querying pending jobId }
  | .querying _ _ => state
  | .finishing pending jobId response =>
      match state.jobsHandlers.lookup jobId with
      | none => { state with point := .checking pending }
      | some handler =>
          { state with
            mainQueue := state.mainQueue ++ [.jobStatus ⟨jobId, handler, response⟩]
            point := .checking pending }
  | .returning [] => { state with point := .updating }
  | .returning (jobId :: pending) =>
      { state with pendingJobs := state.pendingJobs ++ [jobId], point := .returning pending }
  | .updating =>
      { state with
        mainQueue := if client.jobsUpdateHandler then state.mainQueue ++ [.jobsUpdate]
          else state.mainQueue
        point := .waiting }
  | .stopped => state

/-- `getJobStatus` comes back to the monitor.  After an exception other than
"job not found" the code goes on with a null `response`. -/
def reply (client : Client Body) (state : State Handler) (reply : Reply Body) : State Handler :=
  match state.point with
  | .querying pending jobId =>
      match performRcCall client reply with
      | .ok response =>
          let state := { state with lastStatus := state.lastStatus.insert jobId response }
          match response with
          | none => { state with point := .stopped }
          | some response =>
              if response.finished then
                { state with point := .finishing pending jobId response }
              else
                { state with point := .checking (pending ++ [jobId]) }
      | .error (.rcdOp exception) =>
          if exception.getError = some "job not found" then
            { state with point := .checking pending, notFound := jobId :: state.notFound }
          else
            { state with point := .stopped }
      | .error .runtime => { state with point := .stopped }
  | _ => state

/-- The main thread runs the first message of its queue. -/
def main (state : State Handler) : State Handler :=
  match state.mainQueue with
  | [] => state
  | .jobsUpdate :: mainQueue => { state with mainQueue := mainQueue }
  | .jobStatus call :: mainQueue =>
      { state with mainQueue := mainQueue, invoked := call :: state.invoked }

end State

def step (client : Client Body) (state : State Handler) : Event Handler Body → State Handler
  | .accept method jobId handler => state.accept method jobId handler
  | .advance jobId => state.advance jobId
  | .monitor => state.monitor client
  | .reply reply => state.reply client reply
  | .main => state.main

end Rcd

end RoundSync.Rclone
