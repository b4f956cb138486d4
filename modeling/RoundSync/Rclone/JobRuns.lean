import RoundSync.Rclone.JobMonitor

/-!
# What becomes of submitted jobs

A job that has been added to the queue is at every moment in one place: pending
(on the queue or held by the monitor), with its handler on its way to or through
the main thread, or reported as not found.  The places are counted, one lemma
says what each statement does to the count, and the runs in which no job is ever
lost are characterised exactly.
-/

namespace RoundSync.Rclone.Rcd

open Data Transition

universe u v

variable {Handler : Type u} {Body : Type v}

/-- The call of a handler that a message stands for. -/
def Post.call : Post Handler → Option (Call Handler)
  | .jobStatus call => some call
  | .jobsUpdate => none

@[simp]
theorem filterMap_call_jobsUpdate (posts : List (Post Handler)) :
    (.jobsUpdate :: posts).filterMap Post.call = posts.filterMap Post.call :=
  rfl

@[simp]
theorem filterMap_call_jobStatus (call : Call Handler) (posts : List (Post Handler)) :
    (.jobStatus call :: posts).filterMap Post.call = call :: posts.filterMap Post.call :=
  rfl

namespace State

/-- The pending set: the queue, and the jobs the monitor is about to put back. -/
def pending (state : State Handler) : List Nat :=
  state.pendingJobs ++ state.point.held

/-- The calls of handlers, waiting on the main thread's queue or made. -/
def calls (state : State Handler) : List (Call Handler) :=
  state.mainQueue.filterMap Post.call ++ state.invoked

/-- How often a job occurs among the pending, called and not found ones. -/
def places (state : State Handler) (jobId : Nat) : Nat :=
  state.pending.count jobId + (state.calls.map Call.jobId).count jobId +
    state.notFound.count jobId

/-- Every submitted job is in exactly one place, every call is of the handler
given with its job and for a finished job, and the monitor goes on. -/
structure NoJobLost (state : State Handler) : Prop where
  once : ∀ jobId ∈ state.submitted, state.places jobId = 1
  own : ∀ call ∈ state.calls, call.response.finished = true ∧
    state.accepted.lookup call.jobId = some call.handler
  alive : state.point ≠ .stopped

/-- `moveFile` has added the job to the queue and not yet appended its handler. -/
def BetweenStatements (state : State Handler) (jobId : Nat) : Prop :=
  ∃ submission, state.submissions.lookup jobId = some submission ∧
    submission.method = .moveFile ∧ submission.rest = [.appendHandler]

/-- What an observer can tell about one job. -/
structure JobView (Handler : Type u) where
  pending : Nat
  handler : Option Handler
  lastStatus : Option (Option JobStatusResponse)
  calls : Nat
  notFound : Nat

def view (state : State Handler) (jobId : Nat) : JobView Handler where
  pending := state.pending.count jobId
  handler := state.jobsHandlers.lookup jobId
  lastStatus := state.lastStatus.lookup jobId
  calls := (state.calls.map Call.jobId).count jobId
  notFound := state.notFound.count jobId

end State

/-- The reply is a job status, or the error "job not found". -/
def Reply.Understood (client : Client Body) : Reply Body → Prop
  | .failed _ => False
  | .answered code body =>
      if isErrorCode code then
        ∃ error, client.readError body = .value error ∧ error.error = some "job not found"
      else
        ∃ response, client.readStatus body = .value response

/-- The condition under which no job is lost: every status query is understood,
and no job is found finished while `moveFile` is between its two statements. -/
def Orderly (client : Client Body) (state : State Handler) : Event Handler Body → Prop
  | .reply reply =>
      ∀ pending jobId, state.point = .querying pending jobId → reply.Understood client
  | .monitor =>
      ∀ pending jobId response, state.point = .finishing pending jobId response →
        ¬ state.BetweenStatements jobId
  | _ => True

/-- A status query that does not bring a status leaves the monitor running and
every other job as it was. -/
def FailureIsolated (client : Client Body) (state : State Handler) (event : Event Handler Body) :
    Prop :=
  ∀ pending jobId reply, event = .reply reply → state.point = .querying pending jobId →
    (∀ response, performRcCall client reply ≠ .ok (some response)) →
    (step client state event).point ≠ .stopped ∧
      ∀ other, other ≠ jobId → (step client state event).view other = state.view other

section Replies

variable {client : Client Body} {reply : Reply Body}

/-- The text of an I/O error has a colon. -/
theorem getError_io (exception : IOException) :
    (RcdOpException.io exception).getError ≠ some "job not found" := by
  intro equal
  have characters := congrArg String.toList (Option.some.inj equal)
  have colon : ':' ∈ "job not found".toList := by
    rw [← characters]
    simp
  exact absurd colon (by decide)

theorem performRcCall_understood (understood : reply.Understood client) :
    (∃ response, performRcCall client reply = .ok (some response)) ∨
      ∃ exception, performRcCall client reply = .error (.rcdOp exception) ∧
        exception.getError = some "job not found" := by
  cases reply with
  | failed exception => exact understood.elim
  | answered code body =>
      rw [Reply.Understood] at understood
      split at understood
      next isError =>
        obtain ⟨error, read, text⟩ := understood
        exact .inr ⟨.operation error, by simp [performRcCall, isError, read], text⟩
      next isError =>
        obtain ⟨response, read⟩ := understood
        exact .inl ⟨response, by simp [performRcCall, isError, read]⟩

theorem understood_of_response {response : JobStatusResponse}
    (called : performRcCall client reply = .ok (some response)) : reply.Understood client := by
  cases reply with
  | failed exception => cases called
  | answered code body =>
      rw [performRcCall] at called
      rw [Reply.Understood]
      split at called
      next => split at called <;> cases called
      next isError =>
        rw [if_neg isError]
        split at called
        next => cases called
        next => cases called
        next => cases called
        next response' read => exact ⟨response', read⟩

theorem understood_of_notFound {exception : RcdOpException}
    (called : performRcCall client reply = .error (.rcdOp exception))
    (text : exception.getError = some "job not found") : reply.Understood client := by
  cases reply with
  | failed exception' =>
      cases called
      exact absurd text (getError_io exception')
  | answered code body =>
      rw [performRcCall] at called
      rw [Reply.Understood]
      split at called
      next isError =>
        rw [if_pos isError]
        split at called
        next => cases called
        next exception' _ =>
          cases called
          exact absurd text (getError_io exception')
        next => cases called
        next error read =>
          cases called
          exact ⟨error, read, text⟩
      next =>
        split at called
        next => cases called
        next exception' _ =>
          cases called
          exact absurd text (getError_io exception')
        next => cases called
        next => cases called

end Replies

/-- What the arrival of a reply does, in the three ways it can end. -/
theorem reply_cases {client : Client Body} {state : State Handler} {pending : List Nat}
    {jobId : Nat} (querying : state.point = .querying pending jobId) (reply : Reply Body) :
    (∃ response, performRcCall client reply = .ok (some response) ∧
      state.reply client reply =
        { state with
          lastStatus := state.lastStatus.insert jobId (some response)
          point := if response.finished then .finishing pending jobId response
            else .checking (pending ++ [jobId]) }) ∨
    (reply.Understood client ∧
      (∀ response, performRcCall client reply ≠ .ok (some response)) ∧
      state.reply client reply =
        { state with point := .checking pending, notFound := jobId :: state.notFound }) ∨
    (¬ reply.Understood client ∧ ∃ lastStatus,
      state.reply client reply =
        { state with lastStatus := lastStatus, point := .stopped }) := by
  rw [State.reply, querying]
  cases called : performRcCall client reply with
  | ok response =>
      cases response with
      | some response =>
          refine .inl ⟨response, rfl, ?_⟩
          by_cases finished : response.finished <;> simp [finished]
      | none =>
          refine .inr (.inr ⟨fun understood => ?_, state.lastStatus.insert jobId none, rfl⟩)
          rcases performRcCall_understood understood with ⟨_, called'⟩ | ⟨_, called', _⟩
          · rw [called] at called'
            cases called'
          · rw [called] at called'
            cases called'
  | error thrown =>
      cases thrown with
      | rcdOp exception =>
          by_cases text : exception.getError = some "job not found"
          · refine .inr (.inl ⟨understood_of_notFound called text, fun _ equal => ?_, by simp [text]⟩)
            cases equal
          · refine .inr (.inr ⟨fun understood => ?_, state.lastStatus, by simp [text]⟩)
            rcases performRcCall_understood understood with ⟨_, called'⟩ | ⟨_, called', text'⟩
            · rw [called] at called'
              cases called'
            · rw [called] at called'
              cases called'
              exact text text'
      | runtime =>
          refine .inr (.inr ⟨fun understood => ?_, state.lastStatus, rfl⟩)
          rcases performRcCall_understood understood with ⟨_, called'⟩ | ⟨_, called', _⟩
          · rw [called] at called'
            cases called'
          · rw [called] at called'
            cases called'

/-- The fields that only the submitting threads write. -/
structure SameThreads (state next : State Handler) : Prop where
  accepted : next.accepted = state.accepted
  submissions : next.submissions = state.submissions
  submitted : next.submitted = state.submitted
  jobsHandlers : next.jobsHandlers = state.jobsHandlers

theorem sameThreads_monitor (client : Client Body) (state : State Handler) :
    SameThreads state (state.monitor client) := by
  rw [State.monitor]
  split
  next => split <;> exact ⟨rfl, rfl, rfl, rfl⟩
  next => exact ⟨rfl, rfl, rfl, rfl⟩
  next => split <;> exact ⟨rfl, rfl, rfl, rfl⟩
  next => exact ⟨rfl, rfl, rfl, rfl⟩
  next => split <;> exact ⟨rfl, rfl, rfl, rfl⟩
  next => exact ⟨rfl, rfl, rfl, rfl⟩
  next => exact ⟨rfl, rfl, rfl, rfl⟩
  next => exact ⟨rfl, rfl, rfl, rfl⟩
  next => exact ⟨rfl, rfl, rfl, rfl⟩

theorem reply_of_not_querying {client : Client Body} {state : State Handler}
    (elsewhere : ∀ pending jobId, state.point ≠ .querying pending jobId) (reply : Reply Body) :
    state.reply client reply = state := by
  rw [State.reply]
  split
  next pending jobId querying => exact absurd querying (elsewhere pending jobId)
  next => rfl

theorem sameThreads_reply (client : Client Body) (state : State Handler) (reply : Reply Body) :
    SameThreads state (state.reply client reply) := by
  by_cases querying : ∃ pending jobId, state.point = .querying pending jobId
  · obtain ⟨pending, jobId, querying⟩ := querying
    rcases @reply_cases _ _ client state pending jobId querying reply with
      ⟨response, _, equal⟩ | ⟨_, _, equal⟩ | ⟨_, lastStatus, equal⟩
    · rw [equal]
      exact ⟨rfl, rfl, rfl, rfl⟩
    · rw [equal]
      exact ⟨rfl, rfl, rfl, rfl⟩
    · rw [equal]
      exact ⟨rfl, rfl, rfl, rfl⟩
  · rw [reply_of_not_querying fun pending jobId equal => querying ⟨pending, jobId, equal⟩]
    exact ⟨rfl, rfl, rfl, rfl⟩

theorem sameThreads_main (state : State Handler) : SameThreads state state.main := by
  rw [State.main]
  split <;> exact ⟨rfl, rfl, rfl, rfl⟩

/-- How far each submission has come: what its thread has still to do is what
has not been done yet. -/
structure Registered (state : State Handler) : Prop where
  threads : ∀ jobId submission, state.submissions.lookup jobId = some submission →
    state.accepted.lookup jobId = some submission.handler ∧
      submission.rest <:+ submission.method.statements ∧
      (state.jobsHandlers.lookup jobId = none ↔ .appendHandler ∈ submission.rest) ∧
      (jobId ∉ state.submitted ↔ .addPending ∈ submission.rest)
  unknown : ∀ jobId, state.submissions.lookup jobId = none →
    state.accepted.lookup jobId = none ∧ state.jobsHandlers.lookup jobId = none ∧
      jobId ∉ state.submitted
  handlers : ∀ jobId handler, state.jobsHandlers.lookup jobId = some handler →
    state.accepted.lookup jobId = some handler

theorem Registered.congr {state next : State Handler} (registered : Registered state)
    (same : SameThreads state next) : Registered next := by
  obtain ⟨accepted, submissions, submitted, jobsHandlers⟩ := same
  constructor
  · rw [accepted, submissions, submitted, jobsHandlers]
    exact registered.threads
  · rw [accepted, submissions, submitted, jobsHandlers]
    exact registered.unknown
  · rw [accepted, jobsHandlers]
    exact registered.handlers

theorem registered_start : Registered (State.start : State Handler) where
  threads := by
    intro jobId submission found
    simp [State.start] at found
  unknown := by
    intro jobId _
    simp [State.start]
  handlers := by
    intro jobId handler found
    simp [State.start] at found

theorem Registered.accept {state : State Handler} (registered : Registered state)
    (method : Method) (jobId : Nat) (handler : Handler) :
    Registered (state.accept method jobId handler) := by
  rw [State.accept]
  split
  next => exact registered
  next fresh =>
    have notAccepted : state.accepted.lookup jobId = none := by
      cases found : state.accepted.lookup jobId with
      | none => rfl
      | some _ => exact absurd (by rw [found]; rfl) fresh
    have noSubmission : state.submissions.lookup jobId = none := by
      cases found : state.submissions.lookup jobId with
      | none => rfl
      | some submission =>
          rw [(registered.threads jobId submission found).1] at notAccepted
          cases notAccepted
    obtain ⟨_, noHandler, notSubmitted⟩ := registered.unknown jobId noSubmission
    constructor
    · intro other submission found
      rcases Table.lookup_insert_eq_some_iff.mp found with ⟨rfl, rfl⟩ | ⟨different, found⟩
      · refine ⟨by simp, List.suffix_refl _, ?_, ?_⟩
        · have written : Statement.appendHandler ∈ method.statements := by cases method <;> decide
          exact iff_of_true noHandler written
        · have written : Statement.addPending ∈ method.statements := by cases method <;> decide
          exact iff_of_true notSubmitted written
      · rw [AList.lookup_insert_ne different]
        exact registered.threads other submission found
    · intro other absent
      have different : other ≠ jobId := by
        rintro rfl
        simp at absent
      rw [AList.lookup_insert_ne different] at absent ⊢
      exact registered.unknown other absent
    · intro other handler' found
      have different : other ≠ jobId := by
        rintro rfl
        rw [noHandler] at found
        cases found
      rw [AList.lookup_insert_ne different]
      exact registered.handlers other handler' found

theorem Method.statements_nodup (method : Method) : method.statements.Nodup := by
  cases method <;> decide

/-- Only `moveFile` can have its job on the queue with the handler still to come. -/
theorem Method.eq_moveFile {method : Method} {rest : List Statement}
    (remaining : rest <:+ method.statements) (mustAppend : .appendHandler ∈ rest)
    (added : .addPending ∉ rest) : method = .moveFile ∧ rest = [.appendHandler] := by
  cases method <;>
    simp only [Method.statements, List.suffix_cons_iff, List.suffix_nil] at remaining <;>
    rcases remaining with rfl | rfl | rfl <;> simp at mustAppend added ⊢

theorem Registered.advance {state : State Handler} (registered : Registered state)
    (jobId : Nat) : Registered (state.advance jobId) := by
  rw [State.advance]
  split
  next => exact registered
  next submission found =>
    obtain ⟨acceptedWith, remaining, toAppend, toAdd⟩ := registered.threads jobId submission found
    split
    next => exact registered
    next statement rest restEq =>
      rw [restEq] at remaining toAppend toAdd
      have restRemaining : rest <:+ submission.method.statements :=
        (List.suffix_cons statement rest).trans remaining
      have done : statement ∉ rest :=
        (List.nodup_cons.mp (submission.method.statements_nodup.sublist remaining.sublist)).1
      cases statement with
      | appendHandler =>
          constructor
          · intro other submission' found'
            rcases Table.lookup_insert_eq_some_iff.mp found' with ⟨rfl, rfl⟩ | ⟨different, found'⟩
            · refine ⟨acceptedWith, restRemaining, ?_, ?_⟩
              · simp [State.execute, done]
              · simpa [State.execute] using toAdd
            · have kept := registered.threads other submission' found'
              simpa [State.execute, AList.lookup_insert_ne different] using kept
          · intro other absent
            have different : other ≠ jobId := by
              rintro rfl
              simp at absent
            have kept := registered.unknown other
            simp only [State.execute, AList.lookup_insert_ne different] at absent ⊢
            exact kept absent
          · intro other handler found'
            rcases Table.lookup_insert_eq_some_iff.mp found' with ⟨rfl, rfl⟩ | ⟨_, found'⟩
            · exact acceptedWith
            · exact registered.handlers other handler found'
      | addPending =>
          constructor
          · intro other submission' found'
            rcases Table.lookup_insert_eq_some_iff.mp found' with ⟨rfl, rfl⟩ | ⟨different, found'⟩
            · refine ⟨acceptedWith, restRemaining, ?_, ?_⟩
              · simpa [State.execute] using toAppend
              · simp [State.execute, done]
            · have kept := registered.threads other submission' found'
              simpa [State.execute, different] using kept
          · intro other absent
            have different : other ≠ jobId := by
              rintro rfl
              simp at absent
            have kept := registered.unknown other
            simp only [State.execute, AList.lookup_insert_ne different] at absent
            simpa [State.execute, different] using kept absent
          · exact registered.handlers

theorem Registered.step {state : State Handler} (registered : Registered state)
    (client : Client Body) (event : Event Handler Body) :
    Registered (step client state event) := by
  cases event with
  | accept method jobId handler => exact registered.accept method jobId handler
  | advance jobId => exact registered.advance jobId
  | monitor => exact registered.congr (sameThreads_monitor client state)
  | reply reply => exact registered.congr (sameThreads_reply client state reply)
  | main => exact registered.congr (sameThreads_main state)

/-- A job on the queue whose handler is not registered is one of `moveFile`,
between its two statements: every other method registers the handler first. -/
theorem Registered.betweenStatements_iff {state : State Handler} (registered : Registered state)
    {jobId : Nat} (submitted : jobId ∈ state.submitted) :
    state.BetweenStatements jobId ↔ state.jobsHandlers.lookup jobId = none := by
  constructor
  · rintro ⟨submission, found, _, restEq⟩
    obtain ⟨_, _, toAppend, _⟩ := registered.threads jobId submission found
    rw [toAppend, restEq]
    exact List.mem_singleton.mpr rfl
  · intro absent
    cases found : state.submissions.lookup jobId with
    | none => exact absurd submitted (registered.unknown jobId found).2.2
    | some submission =>
        obtain ⟨_, remaining, toAppend, toAdd⟩ := registered.threads jobId submission found
        have added : .addPending ∉ submission.rest := fun mustAdd => toAdd.mpr mustAdd submitted
        exact ⟨submission, found,
          submission.method.eq_moveFile remaining (toAppend.mp absent) added⟩

/-- The pending set after a job has been moved within the queue or between the
queue and the monitor. -/
theorem count_pending_monitor (client : Client Body) (state : State Handler)
    (elsewhere : ∀ pending jobId response, state.point ≠ .finishing pending jobId response)
    (jobId : Nat) :
    (state.monitor client).pending.count jobId = state.pending.count jobId := by
  rw [State.monitor]
  split
  next waiting =>
    split
    next => rfl
    next head rest queue =>
      simp only [State.pending, Point.held, waiting, queue, List.count_append, List.count_cons,
        List.count_nil]
      omega
  next taken takenEq =>
    simp [State.pending, Point.held, takenEq]
  next pending checking =>
    split
    next queue => simp [State.pending, Point.held, checking, queue]
    next head rest queue =>
      simp only [State.pending, Point.held, checking, queue, List.count_append, List.count_cons,
        List.count_nil]
      omega
  next => rfl
  next pending finished response finishing =>
    exact absurd finishing (elsewhere pending finished response)
  next returning => simp [State.pending, Point.held, returning]
  next head rest returning =>
    simp only [State.pending, Point.held, returning, List.count_append, List.count_cons,
      List.count_nil]
    omega
  next updating => simp [State.pending, Point.held, updating]
  next => rfl

theorem calls_monitor (client : Client Body) (state : State Handler)
    (elsewhere : ∀ pending jobId response, state.point ≠ .finishing pending jobId response) :
    (state.monitor client).calls = state.calls ∧
      (state.monitor client).notFound = state.notFound := by
  rw [State.monitor]
  split
  next => split <;> exact ⟨rfl, rfl⟩
  next => exact ⟨rfl, rfl⟩
  next => split <;> exact ⟨rfl, rfl⟩
  next => exact ⟨rfl, rfl⟩
  next pending finished response finishing =>
    exact absurd finishing (elsewhere pending finished response)
  next => exact ⟨rfl, rfl⟩
  next => exact ⟨rfl, rfl⟩
  next =>
    constructor
    · by_cases update : client.jobsUpdateHandler <;> simp [State.calls, update, Post.call]
    · rfl
  next => exact ⟨rfl, rfl⟩

theorem places_monitor (client : Client Body) (state : State Handler)
    (elsewhere : ∀ pending jobId response, state.point ≠ .finishing pending jobId response)
    (jobId : Nat) : (state.monitor client).places jobId = state.places jobId := by
  obtain ⟨calls, notFound⟩ := calls_monitor client state elsewhere
  rw [State.places, State.places, calls, notFound, count_pending_monitor client state elsewhere]

section Finishing

variable {client : Client Body} {state : State Handler} {pending : List Nat} {jobId : Nat}
  {response : JobStatusResponse}

theorem monitor_finishing_unregistered (finishing : state.point = .finishing pending jobId response)
    (absent : state.jobsHandlers.lookup jobId = none) :
    state.monitor client = { state with point := .checking pending } := by
  rw [State.monitor, finishing]
  simp only [absent]

theorem monitor_finishing_registered (finishing : state.point = .finishing pending jobId response)
    {handler : Handler} (found : state.jobsHandlers.lookup jobId = some handler) :
    state.monitor client =
      { state with
        mainQueue := state.mainQueue ++ [.jobStatus ⟨jobId, handler, response⟩]
        point := .checking pending } := by
  rw [State.monitor, finishing]
  simp only [found]

/-- The handler goes to the main thread: the job changes its place. -/
theorem places_finishing_registered (finishing : state.point = .finishing pending jobId response)
    {handler : Handler} (found : state.jobsHandlers.lookup jobId = some handler) (other : Nat) :
    (state.monitor client).places other = state.places other := by
  rw [monitor_finishing_registered finishing found]
  simp only [State.places, State.pending, State.calls, Point.held, finishing, Post.call,
    List.filterMap_append, List.filterMap_cons, List.filterMap_nil, List.map_append, List.map_cons,
    List.map_nil, List.count_append, List.count_cons, List.count_nil]
  omega

/-- Without a handler the job is dropped: it has one place less. -/
theorem places_finishing_unregistered (finishing : state.point = .finishing pending jobId response)
    (absent : state.jobsHandlers.lookup jobId = none) (other : Nat) :
    state.places other =
      (state.monitor client).places other + if jobId = other then 1 else 0 := by
  rw [monitor_finishing_unregistered finishing absent]
  by_cases same : jobId = other
  · subst other
    simp only [State.places, State.pending, State.calls, Point.held, finishing, List.count_append,
      List.count_cons, List.count_nil, beq_self_eq_true, if_true]
    omega
  · simp [State.places, State.pending, State.calls, Point.held, finishing, same]

end Finishing

section Replying

variable {client : Client Body} {state : State Handler} {pending : List Nat} {jobId : Nat}
  {reply : Reply Body}

theorem places_reply_understood (querying : state.point = .querying pending jobId)
    (understood : reply.Understood client) (other : Nat) :
    (state.reply client reply).places other = state.places other := by
  rcases @reply_cases _ _ client state pending jobId querying reply with
    ⟨response, _, equal⟩ | ⟨_, _, equal⟩ | ⟨refused, _⟩
  · rw [equal]
    by_cases finished : response.finished <;>
      simp [State.places, State.pending, State.calls, Point.held, querying, finished]
  · rw [equal]
    simp only [State.places, State.pending, State.calls, Point.held, querying, List.count_append,
      List.count_cons, List.count_nil]
    omega
  · exact absurd understood refused

theorem reply_refused (querying : state.point = .querying pending jobId)
    (refused : ¬ reply.Understood client) : ∃ lastStatus,
      state.reply client reply = { state with lastStatus := lastStatus, point := .stopped } := by
  rcases @reply_cases _ _ client state pending jobId querying reply with
    ⟨response, called, _⟩ | ⟨understood, _⟩ | ⟨_, stopped⟩
  · exact absurd (understood_of_response called) refused
  · exact absurd understood refused
  · exact stopped

theorem calls_reply (client : Client Body) (state : State Handler) (reply : Reply Body) :
    (state.reply client reply).calls = state.calls := by
  by_cases querying : ∃ pending jobId, state.point = .querying pending jobId
  · obtain ⟨pending, jobId, querying⟩ := querying
    rcases @reply_cases _ _ client state pending jobId querying reply with
      ⟨_, _, equal⟩ | ⟨_, _, equal⟩ | ⟨_, _, equal⟩
    · rw [equal]
      rfl
    · rw [equal]
      rfl
    · rw [equal]
      rfl
  · rw [reply_of_not_querying fun pending jobId equal => querying ⟨pending, jobId, equal⟩]

end Replying

theorem places_accept (state : State Handler) (method : Method) (jobId : Nat) (handler : Handler)
    (other : Nat) : (state.accept method jobId handler).places other = state.places other := by
  rw [State.accept]
  split <;> rfl

theorem mem_calls_main {state : State Handler} {call : Call Handler} :
    call ∈ state.main.calls ↔ call ∈ state.calls := by
  rw [State.main]
  split
  next => rfl
  next rest queue => simp [State.calls, queue]
  next head rest queue =>
    simp only [State.calls, queue, filterMap_call_jobStatus, List.mem_append, List.mem_cons]
    tauto

theorem places_main (state : State Handler) (jobId : Nat) :
    state.main.places jobId = state.places jobId := by
  rw [State.main]
  split
  next => rfl
  next rest queue => simp [State.places, State.pending, State.calls, queue]
  next head rest queue =>
    simp only [State.places, State.pending, State.calls, queue, filterMap_call_jobStatus,
      List.cons_append, List.map_append, List.map_cons, List.count_append, List.count_cons]
    omega

/-- The places of a job are those of a submitted one, and every call is of the
handler given with its job. -/
structure Accounted (state : State Handler) : Prop where
  known : ∀ jobId, jobId ∉ state.submitted → state.places jobId = 0
  finished : ∀ pending jobId response, state.point = .finishing pending jobId response →
    response.finished = true
  own : ∀ call ∈ state.calls, call.response.finished = true ∧
    state.accepted.lookup call.jobId = some call.handler

/-- A thread's statement adds a place exactly for a job that it adds to the queue. -/
theorem places_advance (state : State Handler) (jobId other : Nat) :
    (state.advance jobId).submitted = state.submitted ∧
        (state.advance jobId).places other = state.places other ∨
      (∃ submission, state.submissions.lookup jobId = some submission ∧
          .addPending ∈ submission.rest) ∧
        (state.advance jobId).submitted = jobId :: state.submitted ∧
        (state.advance jobId).places other = state.places other + if jobId = other then 1 else 0 := by
  rw [State.advance]
  split
  next => exact .inl ⟨rfl, rfl⟩
  next submission found =>
    split
    next => exact .inl ⟨rfl, rfl⟩
    next statement rest restEq =>
      cases statement with
      | appendHandler => exact .inl ⟨rfl, rfl⟩
      | addPending =>
          refine .inr ⟨⟨submission, found, by rw [restEq]; exact List.mem_cons_self⟩, rfl, ?_⟩
          simp only [State.execute, State.places, State.pending, State.calls, List.count_append,
            List.count_cons, List.count_nil, beq_iff_eq]
          omega

/-- The points that only a reply leads to. -/
def Point.AfterReply : Point → Prop
  | .finishing _ _ _ => True
  | .stopped => True
  | _ => False

theorem monitor_point (client : Client Body) (state : State Handler) :
    state.point = .stopped ∨ ¬ (state.monitor client).point.AfterReply := by
  rw [State.monitor]
  split
  next waiting =>
    split
    next =>
      rw [waiting]
      exact .inr id
    next => exact .inr id
  next => exact .inr id
  next => split <;> exact .inr id
  next querying =>
    rw [querying]
    exact .inr id
  next => split <;> exact .inr id
  next => exact .inr id
  next => exact .inr id
  next => exact .inr id
  next stopped => exact .inl stopped

theorem monitor_not_finishing (client : Client Body) (state : State Handler) (pending : List Nat)
    (jobId : Nat) (response : JobStatusResponse) :
    (state.monitor client).point ≠ .finishing pending jobId response := by
  intro equal
  rcases monitor_point client state with stopped | other
  · rw [State.monitor, stopped] at equal
    exact nomatch stopped.symm.trans equal
  · rw [equal] at other
    exact other trivial

theorem monitor_not_stopped (client : Client Body) {state : State Handler}
    (alive : state.point ≠ .stopped) : (state.monitor client).point ≠ .stopped := by
  intro equal
  rcases monitor_point client state with stopped | other
  · exact alive stopped
  · rw [equal] at other
    exact other trivial

theorem accounted_start : Accounted (State.start : State Handler) where
  known := by
    intro jobId _
    rfl
  finished := by
    intro pending jobId response finishing
    cases finishing
  own := by
    intro call member
    cases member

theorem Accounted.advance {state : State Handler} (accounted : Accounted state) (jobId : Nat) :
    Accounted (state.advance jobId) := by
  have frame : (state.advance jobId).point = state.point ∧
      (state.advance jobId).calls = state.calls ∧
      (state.advance jobId).accepted = state.accepted := by
    rw [State.advance]
    split
    next => exact ⟨rfl, rfl, rfl⟩
    next submission found =>
      split
      next => exact ⟨rfl, rfl, rfl⟩
      next statement rest restEq => cases statement <;> exact ⟨rfl, rfl, rfl⟩
  obtain ⟨point, calls, accepted⟩ := frame
  constructor
  · intro other notSubmitted
    rcases places_advance state jobId other with ⟨submitted, places⟩ | ⟨_, submitted, places⟩
    · rw [places]
      exact accounted.known other (submitted ▸ notSubmitted)
    · rw [submitted, List.mem_cons, not_or] at notSubmitted
      rw [places, accounted.known other notSubmitted.2, if_neg (Ne.symm notSubmitted.1)]
  · rw [point]
    exact accounted.finished
  · rw [calls, accepted]
    exact accounted.own

theorem Accounted.accept {state : State Handler} (accounted : Accounted state) (method : Method) (jobId : Nat) (handler : Handler) :
    Accounted (state.accept method jobId handler) := by
  rw [State.accept]
  split
  next => exact accounted
  next fresh =>
    constructor
    · exact accounted.known
    · exact accounted.finished
    · intro call member
      obtain ⟨finished, acceptedWith⟩ := accounted.own call member
      have different : call.jobId ≠ jobId := by
        rintro equal
        rw [equal] at acceptedWith
        exact fresh (by rw [acceptedWith]; rfl)
      exact ⟨finished, (AList.lookup_insert_ne different).trans acceptedWith⟩

theorem Accounted.monitor {state : State Handler} (accounted : Accounted state)
    (registered : Registered state) (client : Client Body) :
    Accounted (state.monitor client) := by
  have same := sameThreads_monitor client state
  by_cases finishing : ∃ pending jobId response, state.point = .finishing pending jobId response
  · obtain ⟨pending, jobId, response, finishing⟩ := finishing
    cases found : state.jobsHandlers.lookup jobId with
    | none =>
        constructor
        · intro other notSubmitted
          have before := accounted.known other (same.submitted ▸ notSubmitted)
          have after := @places_finishing_unregistered _ _ client state pending jobId response
            finishing found other
          omega
        · rw [monitor_finishing_unregistered finishing found]
          intro _ _ _ equal
          cases equal
        · rw [monitor_finishing_unregistered finishing found]
          exact accounted.own
    | some handler =>
        constructor
        · intro other notSubmitted
          rw [@places_finishing_registered _ _ client state pending jobId response finishing _ found]
          exact accounted.known other (same.submitted ▸ notSubmitted)
        · rw [monitor_finishing_registered finishing found]
          intro _ _ _ equal
          cases equal
        · rw [monitor_finishing_registered finishing found]
          intro call member
          simp only [State.calls, List.filterMap_append, List.mem_append, filterMap_call_jobStatus,
            List.filterMap_nil, List.mem_singleton] at member
          rcases member with (queued | rfl) | made
          · exact accounted.own call (List.mem_append_left _ queued)
          · exact ⟨accounted.finished pending jobId response finishing,
              registered.handlers jobId handler found⟩
          · exact accounted.own call (List.mem_append_right _ made)
  · have elsewhere : ∀ pending jobId response,
        state.point ≠ .finishing pending jobId response :=
      fun pending jobId response equal => finishing ⟨pending, jobId, response, equal⟩
    constructor
    · intro other notSubmitted
      rw [places_monitor client state elsewhere]
      exact accounted.known other (same.submitted ▸ notSubmitted)
    · intro pending jobId response equal
      exact absurd equal (monitor_not_finishing client state pending jobId response)
    · rw [(calls_monitor client state elsewhere).1, same.accepted]
      exact accounted.own

theorem Accounted.reply {state : State Handler} (accounted : Accounted state)
    (client : Client Body) (reply : Reply Body) : Accounted (state.reply client reply) := by
  have same := sameThreads_reply client state reply
  by_cases querying : ∃ pending jobId, state.point = .querying pending jobId
  · obtain ⟨pending, jobId, querying⟩ := querying
    constructor
    · intro other notSubmitted
      have before := accounted.known other (same.submitted ▸ notSubmitted)
      by_cases understood : reply.Understood client
      · rw [places_reply_understood querying understood]
        exact before
      · obtain ⟨lastStatus, equal⟩ := reply_refused querying understood
        rw [equal]
        simp only [State.places, State.pending, State.calls, Point.held, List.append_nil,
          List.count_append] at before ⊢
        omega
    · intro pending' jobId' response' equal
      rcases @reply_cases _ _ client state pending jobId querying reply with
        ⟨response, _, next⟩ | ⟨_, _, next⟩ | ⟨_, _, next⟩
      · rw [next] at equal
        by_cases finished : response.finished
        · rw [if_pos finished] at equal
          cases equal
          exact finished
        · rw [if_neg finished] at equal
          cases equal
      · rw [next] at equal
        cases equal
      · rw [next] at equal
        cases equal
    · rw [calls_reply, same.accepted]
      exact accounted.own
  · rw [reply_of_not_querying fun pending jobId equal => querying ⟨pending, jobId, equal⟩]
    exact accounted

theorem Accounted.main {state : State Handler} (accounted : Accounted state) :
    Accounted state.main := by
  have same := sameThreads_main state
  constructor
  · intro jobId notSubmitted
    rw [places_main]
    exact accounted.known jobId (same.submitted ▸ notSubmitted)
  · have point : state.main.point = state.point := by
      rw [State.main]
      split <;> rfl
    rw [point]
    exact accounted.finished
  · intro call member
    rw [same.accepted]
    exact accounted.own call (mem_calls_main.mp member)

/-- What holds in every state, whatever the daemon replies. -/
structure Consistent (state : State Handler) : Prop where
  registered : Registered state
  accounted : Accounted state

theorem consistent_start : Consistent (State.start : State Handler) :=
  ⟨registered_start, accounted_start⟩

theorem Consistent.step {state : State Handler} (consistent : Consistent state)
    (client : Client Body) (event : Event Handler Body) :
    Consistent (step client state event) := by
  refine ⟨consistent.registered.step client event, ?_⟩
  cases event with
  | accept method jobId handler => exact consistent.accounted.accept method jobId handler
  | advance jobId => exact consistent.accounted.advance jobId
  | monitor => exact consistent.accounted.monitor consistent.registered client
  | reply reply => exact consistent.accounted.reply client reply
  | main => exact consistent.accounted.main

/-- Where nothing is submitted and no job changes the number of its places, no
job is lost as long as the monitor goes on. -/
theorem State.NoJobLost.of_places {state next : State Handler} (kept : state.NoJobLost)
    (accounted : Accounted next) (submitted : next.submitted = state.submitted)
    (places : ∀ jobId, next.places jobId = state.places jobId) (alive : next.point ≠ .stopped) :
    next.NoJobLost where
  once := by
    intro jobId member
    rw [places]
    exact kept.once jobId (submitted ▸ member)
  own := accounted.own
  alive := alive

theorem noJobLost_advance {state : State Handler} (consistent : Consistent state)
    (kept : state.NoJobLost) (jobId : Nat) : (state.advance jobId).NoJobLost := by
  constructor
  · intro other member
    rcases places_advance state jobId other with
      ⟨submitted, places⟩ | ⟨⟨submission, found, toDo⟩, submitted, places⟩
    · rw [places]
      exact kept.once other (submitted ▸ member)
    · have fresh : jobId ∉ state.submitted :=
        (consistent.registered.threads jobId submission found).2.2.2.mpr toDo
      rw [places]
      by_cases same : jobId = other
      · subst other
        rw [consistent.accounted.known jobId fresh, if_pos rfl]
      · rw [submitted, List.mem_cons] at member
        rw [if_neg same]
        exact kept.once other (member.resolve_left (Ne.symm same))
  · exact (consistent.accounted.advance jobId).own
  · have point : (state.advance jobId).point = state.point := by
      rw [State.advance]
      split
      next => rfl
      next =>
        split
        next => rfl
        next statement _ _ => cases statement <;> rfl
    rw [point]
    exact kept.alive

theorem noJobLost_monitor_iff (client : Client Body) {state : State Handler}
    (consistent : Consistent state) (kept : state.NoJobLost) :
    (state.monitor client).NoJobLost ↔
      ∀ pending jobId response, state.point = .finishing pending jobId response →
        ¬ state.BetweenStatements jobId := by
  have accounted := consistent.accounted.monitor consistent.registered client
  have submitted := (sameThreads_monitor client state).submitted
  have alive := monitor_not_stopped client kept.alive
  by_cases finishing : ∃ pending jobId response, state.point = .finishing pending jobId response
  · obtain ⟨pending, jobId, response, finishing⟩ := finishing
    have occurs : 0 < state.places jobId := by
      simp only [State.places, State.pending, finishing, Point.held, List.count_append,
        List.count_singleton_self]
      omega
    have member : jobId ∈ state.submitted := by
      by_contra unknown
      rw [consistent.accounted.known jobId unknown] at occurs
      exact absurd occurs (lt_irrefl 0)
    cases found : state.jobsHandlers.lookup jobId with
    | none =>
        constructor
        · intro next
          have before := kept.once jobId member
          have after := next.once jobId (submitted ▸ member)
          have dropped := @places_finishing_unregistered _ _ client state pending jobId response
            finishing found jobId
          rw [if_pos rfl] at dropped
          omega
        · intro registered
          exact absurd ((consistent.registered.betweenStatements_iff member).mpr found)
            (registered pending jobId response finishing)
    | some handler =>
        constructor
        · intro _ pending' jobId' response' equal between
          rw [finishing] at equal
          cases equal
          rw [consistent.registered.betweenStatements_iff member, found] at between
          cases between
        · intro _
          exact kept.of_places accounted submitted
            (places_finishing_registered finishing found) alive
  · have elsewhere : ∀ pending jobId response,
        state.point ≠ .finishing pending jobId response :=
      fun pending jobId response equal => finishing ⟨pending, jobId, response, equal⟩
    constructor
    · intro _ pending jobId response equal
      exact absurd equal (elsewhere pending jobId response)
    · intro _
      exact kept.of_places accounted submitted (places_monitor client state elsewhere) alive

theorem noJobLost_reply_iff (client : Client Body) {state : State Handler}
    (consistent : Consistent state) (kept : state.NoJobLost) (reply : Reply Body) :
    (state.reply client reply).NoJobLost ↔
      ∀ pending jobId, state.point = .querying pending jobId → reply.Understood client := by
  by_cases querying : ∃ pending jobId, state.point = .querying pending jobId
  · obtain ⟨pending, jobId, querying⟩ := querying
    constructor
    · intro next _ _ _
      by_contra refused
      obtain ⟨lastStatus, equal⟩ := reply_refused querying refused
      exact next.alive (by rw [equal])
    · intro asked
      have understood := asked pending jobId querying
      have alive : (state.reply client reply).point ≠ .stopped := by
        rcases @reply_cases _ _ client state pending jobId querying reply with
          ⟨response, _, equal⟩ | ⟨_, _, equal⟩ | ⟨refused, _⟩
        · rw [equal]
          by_cases finished : response.finished <;> simp [finished]
        · rw [equal]
          exact fun stopped => nomatch stopped
        · exact absurd understood refused
      exact kept.of_places (consistent.accounted.reply client reply)
        (sameThreads_reply client state reply).submitted
        (places_reply_understood querying understood) alive
  · rw [reply_of_not_querying fun pending jobId equal => querying ⟨pending, jobId, equal⟩]
    constructor
    · intro _ pending jobId equal
      exact absurd ⟨pending, jobId, equal⟩ querying
    · intro _
      exact kept

/-- One event: a state in which no job is lost is followed by another one
exactly if the event is orderly. -/
theorem noJobLost_step_iff {client : Client Body} {state : State Handler}
    (consistent : Consistent state) (kept : state.NoJobLost) (event : Event Handler Body) :
    (step client state event).NoJobLost ↔ Orderly client state event := by
  have accounted := (consistent.step client event).accounted
  cases event with
  | accept method jobId handler =>
      have frame : (state.accept method jobId handler).submitted = state.submitted ∧
          (state.accept method jobId handler).point = state.point := by
        rw [State.accept]
        split <;> exact ⟨rfl, rfl⟩
      exact iff_of_true
        (kept.of_places accounted frame.1 (places_accept state method jobId handler)
          (frame.2 ▸ kept.alive)) trivial
  | advance jobId => exact iff_of_true (noJobLost_advance consistent kept jobId) trivial
  | monitor => exact noJobLost_monitor_iff client consistent kept
  | reply reply => exact noJobLost_reply_iff client consistent kept reply
  | main =>
      have point : state.main.point = state.point := by
        rw [State.main]
        split <;> rfl
      exact iff_of_true
        (kept.of_places accounted (sameThreads_main state).submitted (places_main state)
          (point ▸ kept.alive)) trivial

theorem failureIsolated_of_orderly {client : Client Body} {state : State Handler}
    {event : Event Handler Body} (orderly : Orderly client state event) :
    FailureIsolated client state event := by
  intro pending jobId reply isReply querying unsettled
  subst event
  have understood := orderly pending jobId querying
  rcases @reply_cases _ _ client state pending jobId querying reply with
    ⟨response, called, _⟩ | ⟨_, _, equal⟩ | ⟨refused, _⟩
  · exact absurd called (unsettled response)
  · rw [step, equal]
    constructor
    · exact fun stopped => nomatch stopped
    · intro other different
      simp [State.view, State.pending, State.calls, Point.held, querying, Ne.symm different]
  · exact absurd understood refused

/-- The monitor loses no job, and no failed query touches anything but its own
job, in exactly the runs in which every status query brings a status or the
error "job not found" and no job of `moveFile` is found finished before
`moveFile` has registered its handler. -/
theorem noJobLost_iff (client : Client Body) (events : List (Event Handler Body)) :
    Always (step client) State.NoJobLost State.start events ∧
        Meets (step client) (FailureIsolated client) State.start events ↔
      Meets (step client) (Orderly client) State.start events := by
  have kept : (State.start : State Handler).NoJobLost :=
    ⟨fun _ member => absurd member List.not_mem_nil, accounted_start.own, fun stopped => nomatch stopped⟩
  have exactly : Always (step client) State.NoJobLost State.start events ↔
      Meets (step client) (Orderly client) State.start events :=
    always_iff_meets (fun state event consistent => consistent.step client event)
      (fun state event consistent kept => noJobLost_step_iff consistent kept event)
      consistent_start kept
  constructor
  · rintro ⟨always, _⟩
    exact exactly.mp always
  · intro orderly
    exact ⟨exactly.mpr orderly,
      orderly.mono fun state event => failureIsolated_of_orderly⟩

section FailedQuery

/-- A reader for replies that are already job statuses. -/
def statusClient : Client JobStatusResponse where
  readError := fun _ => .malformed
  readStatus := .value
  jobsUpdateHandler := true

def running (id : Int) : JobStatusResponse :=
  ⟨id, false, false, 0, 0, none, none⟩

/-- Two files are deleted; the second job is found running, and then the
connection is refused while the first is asked for. -/
def refusedConnection : List (Event Unit JobStatusResponse) :=
  [.accept .deleteFile 1 (), .advance 1, .advance 1,
    .accept .deleteFile 2 (), .advance 2, .advance 2,
    .monitor, .monitor, .monitor, .reply (.answered 200 (running 2)),
    .monitor, .reply (.failed ⟨"ConnectException", some "Connection refused"⟩),
    .monitor, .main]

/-- The failed query of one job ends the monitor and drops the other job, which
was still running. -/
theorem refusedConnection_losesJobs :
    ¬ Always (step statusClient) State.NoJobLost State.start refusedConnection ∧
      2 ∈ (run (step statusClient) State.start refusedConnection).submitted ∧
      (run (step statusClient) State.start refusedConnection).places 2 = 0 ∧
      (run (step statusClient) State.start refusedConnection).point = .stopped := by
  have ends : 2 ∈ (run (step statusClient) State.start refusedConnection).submitted ∧
      (run (step statusClient) State.start refusedConnection).places 2 = 0 ∧
      (run (step statusClient) State.start refusedConnection).point = .stopped := by decide
  refine ⟨fun always => always.last.alive ends.2.2, ends⟩

/-- A job of `moveFile` that is found finished between its two statements is dropped. -/
example :
    (run (step statusClient) (State.start : State Unit)
      [.accept .moveFile 1 (), .advance 1, .monitor, .monitor, .monitor,
        .reply (.answered 200 { running 1 with finished := true }), .monitor,
        .advance 1]).places 1 = 0 := by
  decide

end FailedQuery

end RoundSync.Rclone.Rcd
