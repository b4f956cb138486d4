import RoundSync.WorkManager.Workers

/-!
# One truthful end notification

A run of a worker is in one of three phases: nothing is decided yet, `doWork`
has read the reason it will report, or `onStopped` has begun.  Each phase has its
invariant, and the runs in which the steps keep out of each other's way stay in
these phases.
-/

namespace RoundSync.WorkManager

open Transition

/-- rclone was started and has exited with code 0. -/
def Fields.Ran (f : Fields) : Prop :=
  f.sRcloneProcess = true ∧ f.exitCode = some 0

/-- At most one end notification, success only for a run of rclone that was not
cancelled, and at most one call of `unregisterReceiver`. -/
structure Worker.Truthful (w : Worker) : Prop where
  once : w.fields.notifications.length ≤ 1
  success : .noFailure ∈ w.fields.notifications → w.fields.Ran ∧ w.stopping = none
  unregistered : w.fields.unregisterCalls ≤ 1

/-- Between the test of `endNotificationAlreadyPosted` and its assignment. -/
def FinishPoint.Posting : FinishPoint → Prop
  | .choose => True
  | .notify _ => True
  | .mark _ => True
  | _ => False

/-- Where `doWork` is in `finishWork` and `postSync`; before, `postSync` is still to come. -/
def WorkPoint.point : WorkPoint → FinishPoint
  | .finish _ point => point
  | .returned _ => .returned
  | .thrown => .thrown
  | _ => .entry

/-- `onStopped` is at such a point. -/
def Worker.StopPosting (w : Worker) : Prop :=
  ∃ point, w.stopping = some point ∧ point.Posting

/-- No cancellation is waiting to be reported. -/
def Worker.Unclaimed (w : Worker) : Prop :=
  w.stopping = none ∨ w.fields.endNotificationAlreadyPosted = true

/-- What the input and the device must provide at a step of `doWork`: a task for
`SyncWorker`, an rclone that starts, and a process whose exit code is obtained;
and where the step must keep out of the way of `onStopped`. -/
def OrderlyWork (setting : Setting) (w : Worker) : WorkPoint → Prop
  | .lookUp =>
      match setting.input with
      | .sync stored decoded => (ephemeralTask stored decoded).isSome
      | .ephemeral _ _ _ => True
  | .preconditions wifiOnly =>
      (unmetPrecondition wifiOnly setting.connection).isSome → w.Unclaimed
  | .startProcess => setting.starts = true ∨ Worker.missesFileItem setting.input = true
  | .waiting => setting.exitCode.isSome
  | .failed => w.Unclaimed
  | .finish _ .entry => w.fields.endNotificationAlreadyPosted = true ∨ ¬ w.StopPosting
  | _ => True

/-- `onStopped` begins before anything is posted and before `doWork` has read
what it will post, and two parties do not test
`endNotificationAlreadyPosted` before one of them has set it. -/
def OrderlyStop (w : Worker) : Option FinishPoint → Prop
  | none => w.fields.notifications = [] ∧ ∀ success reason, w.work ≠ .finish success (.notify reason)
  | some .entry => w.fields.endNotificationAlreadyPosted = true ∨ ¬ w.work.point.Posting
  | some _ => True

/-- The condition under which the notification is truthful.  Nobody overwrites
the reason while a cancellation waits to be reported. -/
def Orderly (setting : Setting) (w : Worker) : WorkerStep → Prop
  | .work => OrderlyWork setting w w.work
  | .stop => OrderlyStop w w.stopping
  | .receive => w.receiving = true → w.Unclaimed

/-! ## The three phases -/

/-- `doWork` before it has read what to report. -/
def BeforeDecision (setting : Setting) (f : Fields) : WorkPoint → Prop
  | .start => True
  | .lookUp => True
  | .preconditions _ => f.prepared = true
  | .startProcess => f.prepared = true
  | .waiting => f.prepared = true ∧ f.sRcloneProcess = true
  | .exited =>
      f.prepared = true ∧ f.sRcloneProcess = true ∧ f.exitCode = setting.exitCode ∧
        setting.exitCode.isSome
  | .failed => f.prepared = true
  | .finish _ .entry => f.prepared = true ∧ (f.failureReason = .noFailure → f.Ran)
  | .finish _ .choose => f.prepared = true ∧ (f.failureReason = .noFailure → f.Ran)
  | .finish _ _ => False
  | .returned _ => True
  | .thrown => True

/-- `doWork` once it has read a reason other than a cancellation. -/
def AfterDecision (f : Fields) : WorkPoint → Prop
  | .finish _ (.notify reason) =>
      reason ≠ .cancelled ∧ f.notifications = [] ∧ f.unregisterCalls = 0 ∧ f.prepared = true ∧
        (reason = .noFailure → f.Ran)
  | .finish _ (.mark reason) =>
      reason ≠ .noFailure ∧ reason ≠ .cancelled ∧ f.notifications = [reason] ∧
        f.unregisterCalls = 0
  | .finish _ .destroy =>
      (∃ reason, reason ≠ .noFailure ∧ f.notifications = [reason]) ∧ f.unregisterCalls = 0 ∧
        f.endNotificationAlreadyPosted = true
  | .finish _ .unregister =>
      (∃ reason, reason ≠ .noFailure ∧ f.notifications = [reason]) ∧ f.unregisterCalls = 0 ∧
        f.endNotificationAlreadyPosted = true
  | .finish _ .entry =>
      (∃ reason, reason ≠ .noFailure ∧ f.notifications = [reason]) ∧ f.unregisterCalls = 1 ∧
        f.endNotificationAlreadyPosted = true
  | .returned _ =>
      ∃ reason, f.notifications = [reason] ∧ (reason = .noFailure → f.Ran) ∧ f.unregisterCalls ≤ 1
  | .thrown =>
      ∃ reason, f.notifications = [reason] ∧ (reason = .noFailure → f.Ran) ∧ f.unregisterCalls ≤ 1
  | _ => False

/-- The points of a party that reports a cancellation or nothing. -/
def FinishPoint.Cancelling : FinishPoint → Prop
  | .notify reason => reason = .cancelled
  | .mark reason => reason = .cancelled
  | _ => True

/-- Two parties in `postSync` after a cancellation. -/
structure Reporting (f : Fields) (one other : FinishPoint) : Prop where
  reason : f.endNotificationAlreadyPosted = false → f.failureReason = .cancelled
  once : f.notifications.length ≤ 1
  noSuccess : .noFailure ∉ f.notifications
  first : one.Cancelling
  second : other.Cancelling
  apart : one.Posting → ¬ other.Posting
  closed : f.endNotificationAlreadyPosted = true → ¬ one.Posting ∧ ¬ other.Posting
  unposted : f.endNotificationAlreadyPosted = false →
    f.notifications = [] ∨ one = .mark .cancelled ∨ other = .mark .cancelled

/-- `onStopped` has come to `point`, and `doWork` does not call `finishWork`. -/
structure Stopping (f : Fields) (work : WorkPoint) (point : FinishPoint) : Prop where
  reporting : Reporting f work.point point
  unregistered : f.unregisterCalls ≤ 1
  registered : point = .destroy ∨ point = .unregister → f.unregisterCalls = 0
  working : work.point ≠ .destroy ∧ work.point ≠ .unregister

inductive Phase (setting : Setting) (w : Worker) : Prop
  | undecided (idle : w.stopping = none) (unposted : w.fields.notifications = [])
      (registered : w.fields.unregisterCalls = 0)
      (opened : w.fields.endNotificationAlreadyPosted = false)
      (reason : w.fields.failureReason ≠ .cancelled)
      (work : BeforeDecision setting w.fields w.work)
  | decided (idle : w.stopping = none) (work : AfterDecision w.fields w.work)
  | stopped (point : FinishPoint) (began : w.stopping = some point)
      (stopping : Stopping w.fields w.work point)

theorem phase_start (setting : Setting) : Phase setting Worker.start :=
  .undecided rfl rfl rfl rfl (by decide) trivial

theorem AfterDecision.truthful {f : Fields} {work : WorkPoint} (after : AfterDecision f work) :
    f.notifications.length ≤ 1 ∧ (.noFailure ∈ f.notifications → f.Ran) ∧
      f.unregisterCalls ≤ 1 := by
  cases work with
  | finish success point =>
      cases point with
      | notify reason =>
          obtain ⟨_, unposted, registered, _, _⟩ := after
          simp [unposted, registered]
      | mark reason =>
          obtain ⟨failed, _, posted, registered⟩ := after
          simp [posted, registered, Ne.symm failed]
      | destroy =>
          obtain ⟨⟨reason, failed, posted⟩, registered, _⟩ := after
          simp [posted, registered, Ne.symm failed]
      | unregister =>
          obtain ⟨⟨reason, failed, posted⟩, registered, _⟩ := after
          simp [posted, registered, Ne.symm failed]
      | entry =>
          obtain ⟨⟨reason, failed, posted⟩, registered, _⟩ := after
          simp [posted, registered, Ne.symm failed]
      | choose => exact after.elim
      | returned => exact after.elim
      | thrown => exact after.elim
  | returned success =>
      obtain ⟨reason, posted, ran, registered⟩ := after
      refine ⟨by simp [posted], fun member => ran ?_, registered⟩
      rw [posted, List.mem_singleton] at member
      exact member.symm
  | thrown =>
      obtain ⟨reason, posted, ran, registered⟩ := after
      refine ⟨by simp [posted], fun member => ran ?_, registered⟩
      rw [posted, List.mem_singleton] at member
      exact member.symm
  | _ => exact after.elim

theorem Phase.truthful {setting : Setting} {w : Worker} (phase : Phase setting w) :
    w.Truthful := by
  cases phase with
  | undecided idle unposted registered opened reason work =>
      constructor
      · simp [unposted]
      · simp [unposted]
      · simp [registered]
  | decided idle work =>
      obtain ⟨once, ran, registered⟩ := work.truthful
      exact ⟨once, fun member => ⟨ran member, idle⟩, registered⟩
  | stopped point began stopping =>
      exact ⟨stopping.reporting.once, fun member => absurd member stopping.reporting.noSuccess,
        stopping.unregistered⟩

/-! ## After a cancellation -/

theorem Reporting.symm {f : Fields} {one other : FinishPoint} (reporting : Reporting f one other) :
    Reporting f other one where
  reason := reporting.reason
  once := reporting.once
  noSuccess := reporting.noSuccess
  first := reporting.second
  second := reporting.first
  apart := fun posting posting' => reporting.apart posting' posting
  closed := fun posted => (reporting.closed posted).symm
  unposted := fun unposted => (reporting.unposted unposted).imp_right Or.symm

/-- A party that is about to post has the notification to itself. -/
theorem Reporting.unposted_of_posting {f : Fields} {one other : FinishPoint}
    (reporting : Reporting f one other) (posting : one.Posting) (before : one ≠ .mark .cancelled) :
    f.endNotificationAlreadyPosted = false ∧ f.notifications = [] := by
  have opened : f.endNotificationAlreadyPosted = false := by
    cases posted : f.endNotificationAlreadyPosted with
    | false => rfl
    | true => exact absurd posting (reporting.closed posted).1
  refine ⟨opened, ?_⟩
  rcases reporting.unposted opened with unposted | marking | marking
  · exact unposted
  · exact absurd marking before
  · rw [marking] at reporting
    exact absurd trivial (reporting.apart posting)

/-- A party moves to a point at which it does not post, and shows nothing. -/
theorem Reporting.leave {f f' : Fields} {one one' other : FinishPoint}
    (reporting : Reporting f one other) (notifications : f'.notifications = f.notifications)
    (flag : f'.endNotificationAlreadyPosted = f.endNotificationAlreadyPosted)
    (reason : f'.endNotificationAlreadyPosted = false → f'.failureReason = .cancelled)
    (before : one ≠ .mark .cancelled) (cancelling : one'.Cancelling) (quiet : ¬ one'.Posting) :
    Reporting f' one' other where
  reason := reason
  once := by
    rw [notifications]
    exact reporting.once
  noSuccess := by
    rw [notifications]
    exact reporting.noSuccess
  first := cancelling
  second := reporting.second
  apart := fun posting => absurd posting quiet
  closed := fun posted => ⟨quiet, (reporting.closed (flag ▸ posted)).2⟩
  unposted := by
    intro opened
    rw [notifications]
    rcases reporting.unposted (flag ▸ opened) with unposted | marking | marking
    · exact .inl unposted
    · exact absurd marking before
    · exact .inr (.inr marking)

/-- A party goes on within the critical part of `postSync`. -/
theorem Reporting.remain {f : Fields} {one one' other : FinishPoint}
    (reporting : Reporting f one other) (opened : f.endNotificationAlreadyPosted = false)
    (alone : ¬ other.Posting) (before : one ≠ .mark .cancelled) (cancelling : one'.Cancelling) :
    Reporting f one' other where
  reason := reporting.reason
  once := reporting.once
  noSuccess := reporting.noSuccess
  first := cancelling
  second := reporting.second
  apart := fun _ => alone
  closed := by
    intro posted
    rw [opened] at posted
    cases posted
  unposted := by
    intro _
    rcases reporting.unposted opened with unposted | marking | marking
    · exact .inl unposted
    · exact absurd marking before
    · exact .inr (.inr marking)

/-- A statement of `postSync` by one of the two parties. -/
theorem Reporting.step {input : WorkerInput} {f : Fields} {one other : FinishPoint}
    (reporting : Reporting f one other)
    (orderly : one = .entry → f.endNotificationAlreadyPosted = true ∨ ¬ other.Posting) :
    Reporting (finishStep input f one).1 (finishStep input f one).2 other := by
  cases one with
  | destroy => exact reporting.leave rfl rfl reporting.reason (by decide) trivial id
  | unregister =>
      by_cases registered : f.receiver
      · rw [finishStep, if_pos registered]
        exact reporting.leave rfl rfl reporting.reason (by decide) trivial id
      · rw [finishStep, if_neg registered]
        exact reporting.leave rfl rfl reporting.reason (by decide) trivial id
  | entry =>
      cases posted : f.endNotificationAlreadyPosted with
      | true =>
          rw [finishStep, if_pos posted]
          exact reporting.leave rfl rfl reporting.reason (by decide) trivial id
      | false =>
          have alone : ¬ other.Posting := by
            rcases orderly rfl with posted' | alone
            · rw [posted] at posted'
              cases posted'
            · exact alone
          rw [finishStep, if_neg (by rw [posted]; decide)]
          exact reporting.remain posted alone (by decide) trivial
  | choose =>
      obtain ⟨opened, _⟩ := reporting.unposted_of_posting trivial (by decide)
      exact reporting.remain opened (reporting.apart trivial) (by decide) (reporting.reason opened)
  | notify reason =>
      have isCancelled : reason = .cancelled := reporting.first
      subst reason
      have alone : ¬ other.Posting := reporting.apart trivial
      obtain ⟨opened, empty⟩ := reporting.unposted_of_posting trivial nofun
      have shown : Reporting { f with notifications := .cancelled :: f.notifications }
          (.mark .cancelled) other :=
        { reporting with
          once := by simp [empty]
          noSuccess := by simp [empty]
          apart := fun _ => alone
          closed := fun posted => nomatch opened.symm.trans posted
          unposted := fun _ => .inr (.inl rfl) }
      have silent : Reporting f (.mark .cancelled) other :=
        reporting.remain opened alone nofun rfl
      have thrown : Reporting f .thrown other :=
        reporting.leave rfl rfl reporting.reason nofun trivial id
      cases input with
      | sync stored decoded =>
          by_cases prepared : f.prepared
          · simpa [finishStep, showNotification, prepared] using shown
          · simpa [finishStep, showNotification, prepared] using thrown
      | ephemeral type remote fileItem =>
          by_cases prepared : f.prepared
          · simpa [finishStep, showNotification, prepared] using shown
          · simpa [finishStep, showNotification, prepared] using silent
  | mark reason =>
      have isCancelled : reason = .cancelled := reporting.first
      subst reason
      exact
        { reporting with
          reason := fun opened => nomatch opened
          first := trivial
          apart := fun posting => posting.elim
          closed := fun _ => ⟨id, reporting.apart trivial⟩
          unposted := fun opened => nomatch opened }
  | returned => exact reporting
  | thrown => exact reporting

theorem finishStep_unregisterCalls {input : WorkerInput} {f : Fields} {point : FinishPoint}
    (elsewhere : point ≠ .unregister) :
    (finishStep input f point).1.unregisterCalls = f.unregisterCalls := by
  cases point with
  | unregister => exact absurd rfl elsewhere
  | notify reason =>
      cases input with
      | sync stored decoded =>
          rw [finishStep, showNotification]
          split
          next => rfl
          next shown equal =>
            split at equal
            next =>
              cases equal
              rfl
            next => cases equal
      | ephemeral type remote fileItem =>
          rw [finishStep, showNotification]
          split
          next => rfl
          next shown equal =>
            split at equal <;>
            · cases equal
              rfl
  | _ => rfl

/-- Only a failure that has been posted leads from `postSync` to `finishWork`. -/
theorem finishStep_point {input : WorkerInput} {f : Fields} {point : FinishPoint}
    (cancelling : point.Cancelling) (elsewhere : point ≠ .destroy) :
    (finishStep input f point).2 ≠ .destroy ∧ (finishStep input f point).2 ≠ .unregister := by
  cases point with
  | destroy => exact absurd rfl elsewhere
  | unregister =>
      rw [finishStep]
      split <;> exact ⟨nofun, nofun⟩
  | entry =>
      rw [finishStep]
      split <;> exact ⟨nofun, nofun⟩
  | choose => exact ⟨nofun, nofun⟩
  | notify reason =>
      rw [finishStep]
      split
      next => exact ⟨nofun, nofun⟩
      next => split <;> exact ⟨nofun, nofun⟩
  | mark reason =>
      have isCancelled : reason = .cancelled := cancelling
      subst reason
      exact ⟨nofun, nofun⟩
  | returned => exact ⟨nofun, nofun⟩
  | thrown => exact ⟨nofun, nofun⟩

/-- `doWork` before `postSync`, while `onStopped` runs. -/
theorem Stopping.before {f f' : Fields} {work work' : WorkPoint} {point : FinishPoint}
    (stopping : Stopping f work point) (before : work.point = .entry)
    (after : work'.point = .entry ∨ work'.point = .returned ∨ work'.point = .thrown)
    (notifications : f'.notifications = f.notifications)
    (flag : f'.endNotificationAlreadyPosted = f.endNotificationAlreadyPosted)
    (calls : f'.unregisterCalls = f.unregisterCalls)
    (reason : f'.endNotificationAlreadyPosted = false → f'.failureReason = .cancelled) :
    Stopping f' work' point := by
  have quiet : work'.point.Cancelling ∧ ¬ work'.point.Posting ∧
      work'.point ≠ .destroy ∧ work'.point ≠ .unregister := by
    rcases after with equal | equal | equal
    · rw [equal]
      exact ⟨trivial, id, nofun, nofun⟩
    · rw [equal]
      exact ⟨trivial, id, nofun, nofun⟩
    · rw [equal]
      exact ⟨trivial, id, nofun, nofun⟩
  obtain ⟨cancelling, silent, working⟩ := quiet
  constructor
  · exact stopping.reporting.leave notifications flag reason (by rw [before]; nofun) cancelling silent
  · rw [calls]
    exact stopping.unregistered
  · rw [calls]
    exact stopping.registered
  · exact working

theorem Worker.workStep_finish {setting : Setting} {w : Worker} {success : Bool}
    {point : FinishPoint} (at_ : w.work = .finish success point) :
    (w.workStep setting).fields = (finishStep setting.input w.fields point).1 ∧
      (w.workStep setting).work.point = (finishStep setting.input w.fields point).2 ∧
      (w.workStep setting).stopping = w.stopping := by
  rw [workStep, at_]
  refine ⟨rfl, ?_, rfl⟩
  dsimp only
  split
  next equal => exact equal.symm
  next equal => exact equal.symm
  next => rfl

theorem Worker.Unclaimed.posted {w : Worker} {point : FinishPoint} (unclaimed : w.Unclaimed)
    (began : w.stopping = some point) : w.fields.endNotificationAlreadyPosted = true := by
  rcases unclaimed with idle | posted
  · rw [began] at idle
    cases idle
  · exact posted

/-- A step of `doWork` while `onStopped` runs. -/
theorem Stopping.workStep {setting : Setting} {w : Worker} {point : FinishPoint}
    (stopping : Stopping w.fields w.work point) (began : w.stopping = some point)
    (orderly : OrderlyWork setting w w.work) :
    (w.workStep setting).stopping = some point ∧
      Stopping (w.workStep setting).fields (w.workStep setting).work point := by
  have reason := stopping.reporting.reason
  cases at_ : w.work with
  | start =>
      rw [at_] at stopping
      rw [Worker.workStep, at_]
      exact ⟨began, stopping.before rfl (.inl rfl) rfl rfl rfl reason⟩
  | lookUp =>
      rw [at_] at stopping
      rw [Worker.workStep, at_]
      dsimp only [Worker.lookUp]
      split
      next =>
        split
        next => exact ⟨began, stopping.before rfl (.inl rfl) rfl rfl rfl reason⟩
        next => exact ⟨began, stopping.before rfl (.inl rfl) rfl rfl rfl reason⟩
      next => exact ⟨began, stopping.before rfl (.inr (.inl rfl)) rfl rfl rfl reason⟩
      next => exact ⟨began, stopping.before rfl (.inr (.inr rfl)) rfl rfl rfl reason⟩
      next remote _ _ =>
        cases remote with
        | true => exact ⟨began, stopping.before rfl (.inl rfl) rfl rfl rfl reason⟩
        | false => exact ⟨began, stopping.before rfl (.inr (.inl rfl)) rfl rfl rfl reason⟩
  | preconditions wifiOnly =>
      rw [at_] at stopping orderly
      rw [Worker.workStep, at_]
      dsimp only [Worker.preconditions]
      split
      next => exact ⟨began, stopping.before rfl (.inl rfl) rfl rfl rfl reason⟩
      next unmet equal =>
        have posted := (orderly (by rw [equal]; rfl)).posted began
        have kept : w.fields.endNotificationAlreadyPosted = false → unmet = .cancelled :=
          fun opened => nomatch posted.symm.trans opened
        split <;> exact ⟨began, stopping.before rfl (.inl rfl) rfl rfl rfl kept⟩
  | startProcess =>
      rw [at_] at stopping
      rw [Worker.workStep, at_]
      dsimp only [Worker.startProcess]
      split
      next => exact ⟨began, stopping.before rfl (.inr (.inr rfl)) rfl rfl rfl reason⟩
      next =>
        cases setting.starts with
        | true => exact ⟨began, stopping.before rfl (.inl rfl) rfl rfl rfl reason⟩
        | false => exact ⟨began, stopping.before rfl (.inl rfl) rfl rfl rfl reason⟩
  | waiting =>
      rw [at_] at stopping
      rw [Worker.workStep, at_]
      exact ⟨began, stopping.before rfl (.inl rfl) rfl rfl rfl reason⟩
  | exited =>
      rw [at_] at stopping
      rw [Worker.workStep, at_]
      dsimp only
      split
      next => exact ⟨began, stopping.before rfl (.inl rfl) rfl rfl rfl reason⟩
      next => exact ⟨began, stopping.before rfl (.inl rfl) rfl rfl rfl reason⟩
  | failed =>
      rw [at_] at stopping orderly
      rw [Worker.workStep, at_]
      have posted := Worker.Unclaimed.posted orderly began
      exact ⟨began, stopping.before rfl (.inl rfl) rfl rfl rfl
        fun opened => nomatch posted.symm.trans opened⟩
  | finish success current =>
      obtain ⟨fields, next, idle⟩ := @Worker.workStep_finish setting w success current at_
      rw [at_] at stopping orderly
      have stepped : Reporting (finishStep setting.input w.fields current).1
          (finishStep setting.input w.fields current).2 point := by
        apply stopping.reporting.step
        intro entry
        change current = .entry at entry
        subst entry
        refine orderly.imp_right fun alone posting => alone ⟨point, began, posting⟩
      have calls := @finishStep_unregisterCalls setting.input w.fields current stopping.working.2
      refine ⟨idle.trans began, ?_⟩
      constructor
      · rw [fields, next]
        exact stepped
      · rw [fields, calls]
        exact stopping.unregistered
      · rw [fields, calls]
        exact stopping.registered
      · rw [next]
        exact finishStep_point stopping.reporting.first stopping.working.1
  | returned success =>
      rw [at_] at stopping
      rw [Worker.workStep, at_]
      exact ⟨began, stopping⟩
  | thrown =>
      rw [at_] at stopping
      rw [Worker.workStep, at_]
      exact ⟨began, stopping⟩

/-- A step of `onStopped`. -/
theorem Stopping.stopStep {setting : Setting} {w : Worker} {point : FinishPoint}
    (stopping : Stopping w.fields w.work point) (began : w.stopping = some point)
    (orderly : OrderlyStop w w.stopping) :
    ∃ next, (w.stopStep setting).stopping = some next ∧
      Stopping (w.stopStep setting).fields (w.stopStep setting).work next := by
  rw [Worker.stopStep, began]
  rw [began] at orderly
  refine ⟨_, rfl, ?_⟩
  have stepped : Reporting (finishStep setting.input w.fields point).1
      (finishStep setting.input w.fields point).2 w.work.point := by
    apply stopping.reporting.symm.step
    rintro rfl
    exact orderly
  change Stopping (finishStep setting.input w.fields point).1 w.work
    (finishStep setting.input w.fields point).2
  by_cases unregister : point = .unregister
  · subst point
    have notYet : w.fields.unregisterCalls = 0 := stopping.registered (.inr rfl)
    constructor
    · exact stepped.symm
    · simp [finishStep, notYet]
    · dsimp only [finishStep]
      split <;> rintro (equal | equal) <;> cases equal
    · exact stopping.working
  · have calls := @finishStep_unregisterCalls setting.input w.fields point unregister
    constructor
    · exact stepped.symm
    · rw [calls]
      exact stopping.unregistered
    · rw [calls]
      intro next
      by_cases destroy : point = .destroy
      · exact stopping.registered (.inl destroy)
      · obtain ⟨notDestroy, notUnregister⟩ :=
          @finishStep_point setting.input w.fields point stopping.reporting.second destroy
        rcases next with equal | equal
        · exact absurd equal notDestroy
        · exact absurd equal notUnregister
    · exact stopping.working

/-! ## Before a cancellation -/

/-- A step of `doWork` before it has read what to report. -/
theorem phase_workStep_undecided {setting : Setting} {w : Worker} (idle : w.stopping = none)
    (unposted : w.fields.notifications = []) (registered : w.fields.unregisterCalls = 0)
    (opened : w.fields.endNotificationAlreadyPosted = false)
    (reason : w.fields.failureReason ≠ .cancelled)
    (work : BeforeDecision setting w.fields w.work) (orderly : OrderlyWork setting w w.work) :
    Phase setting (w.workStep setting) := by
  cases at_ : w.work with
  | start =>
      rw [Worker.workStep, at_]
      exact .undecided idle unposted registered opened reason trivial
  | lookUp =>
      rw [at_] at orderly
      rw [Worker.workStep, at_]
      dsimp only [Worker.lookUp]
      split
      next stored decoded isSync =>
        rw [OrderlyWork, isSync] at orderly
        split
        next missing => simp [missing] at orderly
        next => exact .undecided idle unposted registered opened reason rfl
      next => exact .undecided idle unposted registered opened reason trivial
      next => exact .undecided idle unposted registered opened reason trivial
      next remote _ _ =>
        cases remote with
        | true => exact .undecided idle unposted registered opened reason rfl
        | false => exact .undecided idle unposted registered opened reason trivial
  | preconditions wifiOnly =>
      rw [at_] at work
      rw [Worker.workStep, at_]
      dsimp only [Worker.preconditions]
      split
      next => exact .undecided idle unposted registered opened reason work
      next unmet equal =>
        have kinds : unmet ≠ .cancelled ∧ unmet ≠ .noFailure := by
          rw [unmetPrecondition] at equal
          split at equal
          · cases equal
            decide
          · split at equal
            · cases equal
              decide
            · cases equal
        have failing : w.fields.prepared = true ∧ (unmet = .noFailure → w.fields.Ran) :=
          ⟨work, fun success => absurd success kinds.2⟩
        split
        next => exact .undecided idle unposted registered opened kinds.1 failing
        next => exact .undecided idle unposted registered opened kinds.1 failing
  | startProcess =>
      rw [at_] at work orderly
      rw [Worker.workStep, at_]
      dsimp only [Worker.startProcess]
      split
      next => exact .undecided idle unposted registered opened reason trivial
      next present =>
        have starts : setting.starts = true := orderly.resolve_right present
        rw [starts]
        exact .undecided idle unposted registered opened reason ⟨work, rfl⟩
  | waiting =>
      rw [at_] at work orderly
      rw [Worker.workStep, at_]
      exact .undecided idle unposted registered opened reason ⟨work.1, work.2, rfl, orderly⟩
  | exited =>
      rw [at_] at work
      rw [Worker.workStep, at_]
      obtain ⟨prepared, started, exitCode, known⟩ := work
      dsimp only
      split
      next => exact .undecided idle unposted registered opened reason prepared
      next fine =>
        refine .undecided idle unposted registered opened reason ⟨prepared, fun noFailure => ?_⟩
        obtain ⟨code, isCode⟩ := Option.isSome_iff_exists.mp known
        refine ⟨started, ?_⟩
        rw [exitCode, isCode]
        by_cases zero : code = 0
        · rw [zero]
        · exact absurd (by simpa [isCode, zero] using noFailure) fine
  | failed =>
      rw [at_] at work
      rw [Worker.workStep, at_]
      exact .undecided idle unposted registered opened nofun ⟨work, nofun⟩
  | finish success point =>
      rw [at_] at work
      rw [Worker.workStep, at_]
      cases point with
      | entry =>
          simp only [finishStep, opened]
          exact .undecided idle unposted registered opened reason work
      | choose =>
          exact .decided idle ⟨reason, unposted, registered, work.1, work.2⟩
      | _ => exact work.elim
  | returned success =>
      rw [Worker.workStep, at_]
      exact .undecided idle unposted registered opened reason trivial
  | thrown =>
      rw [Worker.workStep, at_]
      exact .undecided idle unposted registered opened reason trivial

/-- A step of `doWork` after it has read a reason other than a cancellation. -/
theorem phase_workStep_decided {setting : Setting} {w : Worker} (idle : w.stopping = none)
    (work : AfterDecision w.fields w.work) : Phase setting (w.workStep setting) := by
  cases at_ : w.work with
  | finish success point =>
      rw [at_] at work
      rw [Worker.workStep, at_]
      cases point with
      | notify reason =>
          obtain ⟨notCancelled, unposted, registered, prepared, ran⟩ := work
          have shown : showNotification setting.input w.fields reason =
              some { w.fields with notifications := [reason] } := by
            cases setting.input with
            | sync stored decoded => simp [showNotification, unposted, prepared]
            | ephemeral type remote fileItem => simp [showNotification, unposted, prepared]
          simp only [finishStep, shown]
          by_cases noFailure : reason = .noFailure
          · simp only [noFailure, if_true]
            refine .decided idle ⟨reason, by rw [noFailure], ran, by simp [registered]⟩
          · simp only [noFailure, if_false]
            exact .decided idle ⟨noFailure, notCancelled, rfl, registered⟩
      | mark reason =>
          obtain ⟨failed, notCancelled, posted, registered⟩ := work
          simp only [finishStep, notCancelled, if_false]
          exact .decided idle ⟨⟨reason, failed, posted⟩, registered, rfl⟩
      | destroy => exact .decided idle work
      | unregister =>
          obtain ⟨⟨reason, failed, posted⟩, registered, flag⟩ := work
          by_cases receiver : w.fields.receiver
          · simp only [finishStep, receiver, if_true]
            exact .decided idle ⟨⟨reason, failed, posted⟩, by simp [registered], flag⟩
          · simp only [finishStep, receiver]
            exact .decided idle
              ⟨reason, posted, fun noFailure => absurd noFailure failed, by simp [registered]⟩
      | entry =>
          obtain ⟨⟨reason, failed, posted⟩, registered, flag⟩ := work
          simp only [finishStep, flag, if_true]
          exact .decided idle
            ⟨reason, posted, fun noFailure => absurd noFailure failed, by simp [registered]⟩
      | choose => exact work.elim
      | returned => exact work.elim
      | thrown => exact work.elim
  | returned success =>
      rw [at_] at work
      rw [Worker.workStep, at_]
      exact .decided idle work
  | thrown =>
      rw [at_] at work
      rw [Worker.workStep, at_]
      exact .decided idle work
  | _ =>
      rw [at_] at work
      exact work.elim

/-! ## Runs -/

theorem BeforeDecision.point {setting : Setting} {f : Fields} {work : WorkPoint}
    (before : BeforeDecision setting f work) :
    work.point.Cancelling ∧ work.point ≠ .destroy ∧ work.point ≠ .unregister := by
  cases work with
  | finish success point =>
      cases point with
      | entry => exact ⟨trivial, nofun, nofun⟩
      | choose => exact ⟨trivial, nofun, nofun⟩
      | _ => exact before.elim
  | _ => exact ⟨trivial, nofun, nofun⟩

/-- `onStopped` sets the reason before anything is decided. -/
theorem phase_stop_undecided {setting : Setting} {w : Worker} (idle : w.stopping = none)
    (unposted : w.fields.notifications = []) (registered : w.fields.unregisterCalls = 0)
    (opened : w.fields.endNotificationAlreadyPosted = false)
    (work : BeforeDecision setting w.fields w.work) : Phase setting (w.stopStep setting) := by
  obtain ⟨cancelling, notDestroy, notUnregister⟩ := work.point
  rw [Worker.stopStep, idle]
  apply Phase.stopped .destroy rfl
  constructor
  · constructor
    · exact fun _ => rfl
    · simp [unposted]
    · simp [unposted]
    · exact cancelling
    · trivial
    · exact fun _ => id
    · exact fun posted => nomatch opened.symm.trans posted
    · exact fun _ => .inl unposted
  · simp [registered]
  · exact fun _ => registered
  · exact ⟨notDestroy, notUnregister⟩

/-- Once `doWork` has read what to report, something has been posted or is about to be. -/
theorem AfterDecision.posted {f : Fields} {work : WorkPoint} (after : AfterDecision f work)
    (quiet : ∀ success reason, work ≠ .finish success (.notify reason)) : f.notifications ≠ [] := by
  cases work with
  | finish success point =>
      cases point with
      | notify reason => exact absurd rfl (quiet success reason)
      | mark reason =>
          obtain ⟨_, _, posted, _⟩ := after
          simp [posted]
      | destroy =>
          obtain ⟨⟨reason, _, posted⟩, _⟩ := after
          simp [posted]
      | unregister =>
          obtain ⟨⟨reason, _, posted⟩, _⟩ := after
          simp [posted]
      | entry =>
          obtain ⟨⟨reason, _, posted⟩, _⟩ := after
          simp [posted]
      | choose => exact after.elim
      | returned => exact after.elim
      | thrown => exact after.elim
  | returned success =>
      obtain ⟨reason, posted, _⟩ := after
      simp [posted]
  | thrown =>
      obtain ⟨reason, posted, _⟩ := after
      simp [posted]
  | _ => exact after.elim

theorem BeforeDecision.overwrite {setting : Setting} {f : Fields} {work : WorkPoint}
    (before : BeforeDecision setting f work) {reason : FailureReason} (failed : reason ≠ .noFailure) :
    BeforeDecision setting { f with failureReason := reason } work := by
  cases work with
  | finish success point =>
      cases point with
      | entry => exact ⟨before.1, fun noFailure => absurd noFailure failed⟩
      | choose => exact ⟨before.1, fun noFailure => absurd noFailure failed⟩
      | _ => exact before.elim
  | _ => exact before

theorem AfterDecision.overwrite {f : Fields} {work : WorkPoint} (after : AfterDecision f work)
    (reason : FailureReason) : AfterDecision { f with failureReason := reason } work := by
  cases work with
  | finish success point => cases point <;> exact after
  | _ => exact after

/-- A connectivity broadcast. -/
theorem Phase.receiveStep {setting : Setting} {w : Worker} (phase : Phase setting w)
    (orderly : w.receiving = true → w.Unclaimed) : Phase setting w.receiveStep := by
  by_cases receiving : w.receiving = true
  · rw [Worker.receiveStep, if_pos receiving]
    cases phase with
    | undecided idle unposted registered opened reason work =>
        exact .undecided idle unposted registered opened nofun (work.overwrite nofun)
    | decided idle work => exact .decided idle (work.overwrite .connectivityChanged)
    | stopped point began stopping =>
        have posted := (orderly receiving).posted began
        refine .stopped point began ⟨?_, stopping.unregistered, stopping.registered, stopping.working⟩
        exact { stopping.reporting with reason := fun opened => nomatch posted.symm.trans opened }
  · rw [Worker.receiveStep, if_neg receiving]
    cases phase with
    | undecided idle unposted registered opened reason work =>
        exact .undecided idle unposted registered opened reason work
    | decided idle work => exact .decided idle work
    | stopped point began stopping => exact .stopped point began stopping

/-- One orderly step. -/
theorem Phase.step {setting : Setting} {w : Worker} (phase : Phase setting w)
    (next : WorkerStep) (orderly : Orderly setting w next) : Phase setting (step setting w next) := by
  cases next with
  | work =>
      cases phase with
      | undecided idle unposted registered opened reason work =>
          exact phase_workStep_undecided idle unposted registered opened reason work orderly
      | decided idle work => exact phase_workStep_decided idle work
      | stopped point began stopping =>
          obtain ⟨began', stopping'⟩ := stopping.workStep began orderly
          exact .stopped point began' stopping'
  | stop =>
      cases phase with
      | undecided idle unposted registered opened reason work =>
          exact phase_stop_undecided idle unposted registered opened work
      | decided idle work =>
          rw [Orderly, idle] at orderly
          exact absurd orderly.1 (work.posted orderly.2)
      | stopped point began stopping =>
          obtain ⟨point', began', stopping'⟩ := stopping.stopStep began orderly
          exact .stopped point' began' stopping'
  | receive => exact phase.receiveStep orderly

/-- In every run whose steps are orderly the worker reports once and truthfully. -/
theorem truthful_of_orderly (setting : Setting) (steps : List WorkerStep)
    (orderly : Meets (step setting) (Orderly setting) Worker.start steps) :
    Always (step setting) Worker.Truthful Worker.start steps := by
  have phases : Always (step setting) (Phase setting) Worker.start steps :=
    Always.of_meets (fun _ next phase orderly => phase.step next orderly)
      (phase_start setting) orderly
  exact phases.mono fun _ phase => phase.truthful

section Runs

/-- A task that rclone is started for, and what becomes of it. -/
def syncSetting (exitCode : Int) : Setting where
  input := .sync (some ⟨false⟩) none
  wifiOnlyTransfers := false
  connection := .connected
  starts := true
  exitCode := some exitCode

/-- The run is cancelled while rclone works; `doWork` then finds the end
notification posted. -/
theorem truthful_of_orderly_cancelled :
    Always (step (syncSetting 143)) Worker.Truthful Worker.start
      [.work, .work, .work, .work, .stop, .stop, .stop, .stop, .stop, .stop, .stop,
        .work, .work, .work] :=
  truthful_of_orderly (syncSetting 143) _
    ⟨trivial, rfl, nofun, .inl rfl, ⟨rfl, nofun⟩, trivial, trivial, .inr id, trivial, trivial,
      trivial, rfl, trivial, .inl rfl, trivial⟩

/-- A `SyncWorker` whose task is not in the database. -/
def missingTask : Setting where
  input := .sync none none
  wifiOnlyTransfers := false
  connection := .connected
  starts := true
  exitCode := some 0

/-- A missing task is reported as a success. -/
theorem missingTask_reportsSuccess :
    ¬ Always (step missingTask) Worker.Truthful Worker.start [.work, .work, .work, .work, .work] := by
  intro always
  have posted : .noFailure ∈ (run (step missingTask) Worker.start
      [.work, .work, .work, .work, .work]).fields.notifications := by decide
  have ran := (always.last.success posted).1.1
  exact absurd ran (by decide)

/-- A run that is cancelled after its success has been posted posts a second notification. -/
example :
    (run (step (syncSetting 0)) Worker.start
      [.work, .work, .work, .work, .work, .work, .work, .work, .work, .stop, .stop, .stop, .stop,
        .stop, .stop]).fields.notifications = [.cancelled, .noFailure] := by
  decide

end Runs

end RoundSync.WorkManager
