import RoundSync.Transition.Core
import Mathlib.Data.List.Basic

/-!
# Streams with a watchdog

The output of a process is read through a stream that a second thread watches: when no
data came for too long, the watchdog destroys the process.  Both threads take their
steps in any order.  What the stream of the process returns to a read is up to the
process; it may end early once the process was destroyed.
-/

namespace RoundSync.Rclone.ManagedProcessInputStream

open RoundSync.Transition

/-! ## The threads -/

inductive Thread where
  | reader
  | watchdog
  deriving DecidableEq

/-- What a read of the underlying stream comes to. -/
inductive Underlying where
  | bytes (bytes : List UInt8)
  /-- -1. -/
  | ended
  /-- An `IOException`. -/
  | failed

/-- What a read comes to. -/
inductive Outcome where
  | bytes (bytes : List UInt8)
  | ended
  | failed
  /-- An `InterruptedIOException`. -/
  | timedOut
  deriving DecidableEq

/-- The bytes that a read hands to its caller. -/
def Outcome.received : Outcome → List UInt8
  | .bytes read => read
  | _ => []

/-- Where a thread is in `closeInternal`. -/
inductive Closing where
  | comparesAndSets
  | setsTimedOut
  | notifies
  | interrupts
  | destroys
  | closesInput

/-- Where a thread is in `recordActivity`; the lock is held from the second on. -/
inductive Recording where
  | enters
  | testsClosed
  | testsTimedOut
  | writes

/-- Where the reader is. -/
inductive Reader where
  | idle
  /-- In the read of the underlying stream, which was closed before or not. -/
  | reads (length : Nat) (closedBefore : Bool)
  | catches
  /-- In `throwIfTimedOut`, behind a read that returned bytes or -1. -/
  | checks (value : Option (List UInt8))
  | records (bytes : List UInt8) (at_ : Recording)
  | closes (at_ : Closing)

/-- Where the watchdog is. -/
inductive Watchdog where
  | loops
  | enters
  | testsClosed
  | testsDeadline
  | waits
  | closes (at_ : Closing)
  | returned

/-- The stream, its process and its two threads. -/
structure Stream where
  /-- The output of the process that was not read yet. -/
  remaining : List UInt8
  /-- The calls of `process.destroy`. -/
  destroyCalls : List Thread
  inputClosed : Bool
  lastActivityNanos : Int64
  closed : Bool
  timedOut : Bool
  watchdogLock : Option Thread
  /-- Whether the watchdog was interrupted. -/
  interrupted : Bool
  reader : Reader
  watchdog : Watchdog
  /-- What the reads came to, in their order. -/
  outcomes : List Outcome

/-- The stream as the constructor leaves it. -/
def create (output : List UInt8) (now : Int64) : Stream where
  remaining := output
  destroyCalls := []
  inputClosed := false
  lastActivityNanos := now
  closed := false
  timedOut := false
  watchdogLock := none
  interrupted := false
  reader := .idle
  watchdog := .loops
  outcomes := []

namespace Stream

/-- One step of `closeInternal`, and where the thread is then, unless it returned. -/
def closeInternal (thread : Thread) (dueToTimeout : Bool) (stream : Stream) :
    Closing → Stream × Option Closing
  | .comparesAndSets =>
    if stream.closed then
      (stream, none)
    else
      ({ stream with closed := true }, some (if dueToTimeout then .setsTimedOut else .notifies))
  | .setsTimedOut => ({ stream with timedOut := true }, some .notifies)
  | .notifies =>
    -- the lock is held for `notifyAll` only
    match stream.watchdogLock with
    | some _ => (stream, some .notifies)
    | none => (stream, some .interrupts)
  | .interrupts =>
    match thread with
    | .reader => ({ stream with interrupted := true }, some .destroys)
    | .watchdog => (stream, some .destroys)
  | .destroys =>
    ({ stream with destroyCalls := thread :: stream.destroyCalls }, some .closesInput)
  | .closesInput => ({ stream with inputClosed := true }, none)

/-! ### The reader -/

/-- The read comes to an outcome. -/
def finish (outcome : Outcome) (stream : Stream) : Stream :=
  { stream with
    reader := .idle
    outcomes := stream.outcomes ++ [outcome] }

/-- One step of `recordActivity`; then the read returns. -/
def recordActivity (now : Int64) (bytes : List UInt8) (stream : Stream) : Recording → Stream
  | .enters =>
    match stream.watchdogLock with
    | some _ => stream
    | none =>
      { stream with
        watchdogLock := some .reader
        reader := .records bytes .testsClosed }
  | .testsClosed =>
    if stream.closed then
      { stream with watchdogLock := none }.finish (.bytes bytes)
    else
      { stream with reader := .records bytes .testsTimedOut }
  | .testsTimedOut =>
    if stream.timedOut then
      { stream with watchdogLock := none }.finish (.bytes bytes)
    else
      { stream with reader := .records bytes .writes }
  | .writes =>
    { stream with
      lastActivityNanos := now
      watchdogLock := none }.finish (.bytes bytes)

/-- Behind `throwIfTimedOut`, data is recorded. -/
def accept (stream : Stream) : Option (List UInt8) → Stream
  | none => stream.finish .ended
  | some [] => stream.finish (.bytes [])
  | some bytes => { stream with reader := .records bytes .enters }

/-- A step of the reader that is not in the underlying stream. -/
def readerStep (now : Int64) (stream : Stream) : Stream :=
  match stream.reader with
  | .idle => stream
  | .reads _ _ => stream
  | .catches => stream.finish (if stream.timedOut then .timedOut else .failed)
  | .checks value => if stream.timedOut then stream.finish .timedOut else stream.accept value
  | .records bytes at_ => stream.recordActivity now bytes at_
  | .closes at_ =>
    let (next, rest) := stream.closeInternal .reader false at_
    { next with reader := rest.elim .idle .closes }

/-- The read of the underlying stream is over. -/
def returns (stream : Stream) (result : Underlying) : Stream :=
  match stream.reader, result with
  | .reads _ _, .bytes bytes =>
    { stream with
      remaining := stream.remaining.drop bytes.length
      reader := .checks (some bytes) }
  | .reads _ _, .ended => { stream with reader := .checks none }
  | .reads _ _, .failed => { stream with reader := .catches }
  | _, _ => stream

/-- `read()` asks for one byte, `read(byte[], int, int)` for as many as its length. -/
def read (length : Nat) (stream : Stream) : Stream :=
  match stream.reader with
  | .idle => { stream with reader := .reads length stream.inputClosed }
  | _ => stream

def close (stream : Stream) : Stream :=
  match stream.reader with
  | .idle => { stream with reader := .closes .comparesAndSets }
  | _ => stream

/-! ### The watchdog -/

/-- One step of `watchForIdleTimeout`. -/
def watchForIdleTimeout (idleTimeoutNanos now : Int64) (stream : Stream) : Stream :=
  match stream.watchdog with
  | .loops => { stream with watchdog := if stream.closed then .returned else .enters }
  | .enters =>
    match stream.watchdogLock with
    | some _ => stream
    | none =>
      { stream with
        watchdogLock := some .watchdog
        watchdog := .testsClosed }
  | .testsClosed =>
    if stream.closed then
      { stream with
        watchdogLock := none
        watchdog := .returned }
    else
      { stream with watchdog := .testsDeadline }
  | .testsDeadline =>
    let idleNanos := now - stream.lastActivityNanos
    let remainingNanos := idleTimeoutNanos - idleNanos
    { stream with
      watchdogLock := none
      watchdog := if remainingNanos > 0 then .waits else .closes .comparesAndSets }
  | .waits =>
    -- the wait ends with the lock, which is given back at once
    match stream.watchdogLock with
    | some _ => stream
    | none => { stream with watchdog := if stream.interrupted then .returned else .loops }
  | .closes at_ =>
    let (next, rest) := stream.closeInternal .watchdog true at_
    { next with watchdog := rest.elim .returned .closes }
  | .returned => stream

end Stream

/-! ## Runs -/

inductive Event where
  | read (length : Nat)
  | close
  | returns (result : Underlying)
  | reader (now : Int64)
  | watchdog (now : Int64)

def step (idleTimeoutNanos : Int64) (stream : Stream) : Event → Stream
  | .read length => stream.read length
  | .close => stream.close
  | .returns result => stream.returns result
  | .reader now => stream.readerStep now
  | .watchdog now => stream.watchForIdleTimeout idleTimeoutNanos now

/-- What the stream of the process can return: the next bytes of its output, at least one
unless none were asked for; the end, if there are no more or the process was destroyed;
and nothing but failures if it was closed before. -/
def Possible (stream : Stream) : Event → Prop
  | .returns result =>
    match stream.reader, result with
    | .reads length closedBefore, .bytes bytes =>
      closedBefore = false ∧ bytes <+: stream.remaining ∧ bytes.length ≤ length ∧
        (bytes = [] → length = 0)
    | .reads _ closedBefore, .ended =>
      closedBefore = false ∧ (stream.remaining = [] ∨ stream.destroyCalls ≠ [])
    | _, _ => True
  | _ => True

/-! ## Who destroys the process -/

/-- How often a thread that is in `closeInternal`, if it is, will still destroy the process. -/
def willDestroy : Option Closing → Nat
  | none => 0
  | some .comparesAndSets => 0
  | some .closesInput => 0
  | some _ => 1

/-- Behind the write of `timedOut` of the watchdog. -/
def WroteTimedOut : Option Closing → Prop
  | none => False
  | some .comparesAndSets => False
  | some .setsTimedOut => False
  | some _ => True

def Reader.closing : Reader → Option Closing
  | .closes at_ => some at_
  | _ => none

def Watchdog.closing : Watchdog → Option Closing
  | .closes at_ => some at_
  | _ => none

@[simp]
theorem closing_elim_idle (rest : Option Closing) :
    (rest.elim Reader.idle Reader.closes).closing = rest := by
  cases rest with
  | none => rfl
  | some at_ => rfl

@[simp]
theorem closing_elim_returned (rest : Option Closing) :
    (rest.elim Watchdog.returned Watchdog.closes).closing = rest := by
  cases rest with
  | none => rfl
  | some at_ => rfl

namespace Stream

variable (stream : Stream) (thread : Thread) (dueToTimeout : Bool) (at_ : Closing)

/-- The calls of `destroy` that were made and those that the threads will still make. -/
def destructions (stream : Stream) : Nat :=
  willDestroy stream.reader.closing + willDestroy stream.watchdog.closing +
    stream.destroyCalls.length

/-- Who sets `closed` takes on the one destruction. -/
theorem closeInternal_destructions :
    willDestroy (stream.closeInternal thread dueToTimeout at_).2 +
        (stream.closeInternal thread dueToTimeout at_).1.destroyCalls.length +
        stream.closed.toNat =
      willDestroy (some at_) + stream.destroyCalls.length +
        (stream.closeInternal thread dueToTimeout at_).1.closed.toNat := by
  cases at_ with
  | comparesAndSets =>
    cases closed : stream.closed with
    | true => simp [closeInternal, closed, willDestroy]
    | false => cases dueToTimeout <;> simp [closeInternal, closed, willDestroy, Nat.add_comm]
  | setsTimedOut => rfl
  | notifies =>
    cases lock : stream.watchdogLock with
    | none => simp [closeInternal, lock, willDestroy]
    | some holder => simp [closeInternal, lock, willDestroy]
  | interrupts => cases thread <;> rfl
  | destroys => simp [closeInternal, willDestroy, Nat.add_comm]
  | closesInput => rfl

/-- What `closeInternal` leaves as it is. -/
theorem closeInternal_frame :
    (stream.closeInternal thread dueToTimeout at_).1.remaining = stream.remaining ∧
      (stream.closeInternal thread dueToTimeout at_).1.outcomes = stream.outcomes ∧
      (stream.closeInternal thread dueToTimeout at_).1.reader = stream.reader ∧
      (stream.closeInternal thread dueToTimeout at_).1.watchdog = stream.watchdog := by
  cases at_ with
  | comparesAndSets =>
    rw [closeInternal]
    split
    · exact ⟨rfl, rfl, rfl, rfl⟩
    · exact ⟨rfl, rfl, rfl, rfl⟩
  | setsTimedOut => exact ⟨rfl, rfl, rfl, rfl⟩
  | notifies =>
    rw [closeInternal]
    split
    · exact ⟨rfl, rfl, rfl, rfl⟩
    · exact ⟨rfl, rfl, rfl, rfl⟩
  | interrupts =>
    cases thread with
    | reader => exact ⟨rfl, rfl, rfl, rfl⟩
    | watchdog => exact ⟨rfl, rfl, rfl, rfl⟩
  | destroys => exact ⟨rfl, rfl, rfl, rfl⟩
  | closesInput => exact ⟨rfl, rfl, rfl, rfl⟩

/-- Flags are set and never cleared. -/
theorem closeInternal_mono :
    (stream.timedOut = true →
      (stream.closeInternal thread dueToTimeout at_).1.timedOut = true) ∧
    (stream.inputClosed = true →
      (stream.closeInternal thread dueToTimeout at_).1.inputClosed = true) := by
  cases at_ with
  | comparesAndSets =>
    rw [closeInternal]
    split
    · exact ⟨id, id⟩
    · exact ⟨id, id⟩
  | setsTimedOut => exact ⟨fun _ => rfl, id⟩
  | notifies =>
    rw [closeInternal]
    split
    · exact ⟨id, id⟩
    · exact ⟨id, id⟩
  | interrupts =>
    cases thread with
    | reader => exact ⟨id, id⟩
    | watchdog => exact ⟨id, id⟩
  | destroys => exact ⟨id, id⟩
  | closesInput => exact ⟨id, fun _ => rfl⟩

variable {stream thread dueToTimeout at_}

/-- Only the step behind the interrupt destroys the process. -/
theorem mem_destroyCalls_closeInternal {other : Thread} :
    other ∈ (stream.closeInternal thread dueToTimeout at_).1.destroyCalls ↔
      other ∈ stream.destroyCalls ∨ at_ = .destroys ∧ other = thread := by
  cases at_ with
  | comparesAndSets =>
    rw [closeInternal]
    split
    · simp
    · simp
  | setsTimedOut => simp [closeInternal]
  | notifies =>
    rw [closeInternal]
    split
    · simp
    · simp
  | interrupts => cases thread <;> simp [closeInternal]
  | destroys => simp [closeInternal, or_comm]
  | closesInput => simp [closeInternal]

/-- The watchdog writes `timedOut` before it goes on. -/
theorem closeInternal_timedOut
    (wrote : WroteTimedOut (some at_) → stream.timedOut = true)
    (writes : WroteTimedOut (stream.closeInternal thread true at_).2) :
    (stream.closeInternal thread true at_).1.timedOut = true := by
  cases at_ with
  | comparesAndSets =>
    rw [closeInternal] at writes
    split at writes
    · exact absurd writes id
    · exact absurd writes id
  | setsTimedOut => rfl
  | notifies => exact (closeInternal_mono _ _ _ _).1 (wrote trivial)
  | interrupts => exact (closeInternal_mono _ _ _ _).1 (wrote trivial)
  | destroys => exact (closeInternal_mono _ _ _ _).1 (wrote trivial)
  | closesInput => exact (closeInternal_mono _ _ _ _).1 (wrote trivial)

end Stream

/-- What the flags say of who destroyed the process or will. -/
structure Flags (stream : Stream) : Prop where
  destructions : stream.destructions = stream.closed.toNat
  byWatchdog : .watchdog ∈ stream.destroyCalls ∨ WroteTimedOut stream.watchdog.closing →
    stream.timedOut = true
  byReader : .reader ∈ stream.destroyCalls →
    stream.reader = .closes .closesInput ∨ stream.inputClosed = true
  closedBefore : .reader ∈ stream.destroyCalls → ∀ length closedBefore,
    stream.reader = .reads length closedBefore → closedBefore = true

namespace Flags

variable {stream next : Stream}

/-- Steps that close nothing. -/
theorem of_open (flags : Flags stream) (destroyCalls : next.destroyCalls = stream.destroyCalls)
    (inputClosed : next.inputClosed = stream.inputClosed) (closed : next.closed = stream.closed)
    (timedOut : next.timedOut = stream.timedOut)
    (watchdog : willDestroy next.watchdog.closing = willDestroy stream.watchdog.closing ∧
      (WroteTimedOut next.watchdog.closing → WroteTimedOut stream.watchdog.closing))
    (reader : next.reader = stream.reader ∨
      willDestroy next.reader.closing = 0 ∧ stream.reader ≠ .closes .closesInput ∧
        willDestroy stream.reader.closing = 0 ∧
        ∀ length closedBefore, next.reader = .reads length closedBefore →
          closedBefore = stream.inputClosed) : Flags next := by
  have sameDuty : willDestroy next.reader.closing = willDestroy stream.reader.closing := by
    rcases reader with same | ⟨none, _, before, _⟩
    · rw [same]
    · rw [none, before]
  constructor
  · rw [Stream.destructions, sameDuty, watchdog.1, destroyCalls, closed]
    exact flags.destructions
  · rw [destroyCalls, timedOut]
    exact fun by_ => flags.byWatchdog (by_.imp_right watchdog.2)
  · rw [destroyCalls, inputClosed]
    intro byReader
    rcases flags.byReader byReader with closing | isClosed
    · rcases reader with same | ⟨_, notClosing, _⟩
      · exact Or.inl (same.trans closing)
      · exact absurd closing notClosing
    · exact Or.inr isClosed
  · rw [destroyCalls]
    intro byReader length closedBefore reads
    rcases reader with same | ⟨_, notClosing, _, before⟩
    · exact flags.closedBefore byReader length closedBefore (same.symm.trans reads)
    · rw [before length closedBefore reads]
      exact (flags.byReader byReader).resolve_left notClosing

theorem readerCloses {at_ : Closing} (flags : Flags stream) (closing : stream.reader = .closes at_) :
    Flags { (stream.closeInternal .reader false at_).1 with
      reader := (stream.closeInternal .reader false at_).2.elim .idle .closes } := by
  obtain ⟨_, _, _, watchdog⟩ := Stream.closeInternal_frame stream .reader false at_
  have mono := Stream.closeInternal_mono stream .reader false at_
  have notReading : ∀ length closedBefore,
      (stream.closeInternal .reader false at_).2.elim Reader.idle Reader.closes ≠
        .reads length closedBefore := by
    intro length closedBefore
    cases (stream.closeInternal .reader false at_).2 with
    | none => exact Reader.noConfusion
    | some rest => exact Reader.noConfusion
  constructor
  · have balance := Stream.closeInternal_destructions stream .reader false at_
    have before := flags.destructions
    have here : stream.reader.closing = some at_ := congrArg Reader.closing closing
    rw [Stream.destructions, here] at before
    simp only [Stream.destructions, closing_elim_idle, watchdog]
    omega
  · intro by_
    apply mono.1
    apply flags.byWatchdog
    rw [Stream.mem_destroyCalls_closeInternal, watchdog] at by_
    rcases by_ with (called | ⟨_, wrong⟩) | wrote
    · exact Or.inl called
    · cases wrong
    · exact Or.inr wrote
  · intro byReader
    rw [Stream.mem_destroyCalls_closeInternal] at byReader
    rcases byReader with called | ⟨rfl, _⟩
    · rcases flags.byReader called with closes | isClosed
      · rw [closing] at closes
        cases closes
        exact Or.inr rfl
      · exact Or.inr (mono.2 isClosed)
    · exact Or.inl rfl
  · intro _ length closedBefore reads
    exact absurd reads (notReading length closedBefore)

theorem watchdogCloses {at_ : Closing} (flags : Flags stream)
    (closing : stream.watchdog = .closes at_) :
    Flags { (stream.closeInternal .watchdog true at_).1 with
      watchdog := (stream.closeInternal .watchdog true at_).2.elim .returned .closes } := by
  obtain ⟨_, _, reader, _⟩ := Stream.closeInternal_frame stream .watchdog true at_
  have mono := Stream.closeInternal_mono stream .watchdog true at_
  have onlyReader : .reader ∈ (stream.closeInternal .watchdog true at_).1.destroyCalls →
      .reader ∈ stream.destroyCalls := by
    intro called
    rcases Stream.mem_destroyCalls_closeInternal.mp called with before | ⟨_, wrong⟩
    · exact before
    · cases wrong
  have wrote : WroteTimedOut (some at_) → stream.timedOut = true := by
    intro behind
    apply flags.byWatchdog
    rw [closing]
    exact Or.inr behind
  constructor
  · have balance := Stream.closeInternal_destructions stream .watchdog true at_
    have before := flags.destructions
    have here : stream.watchdog.closing = some at_ := congrArg Watchdog.closing closing
    rw [Stream.destructions, here] at before
    simp only [Stream.destructions, closing_elim_returned, reader]
    omega
  · intro by_
    rw [closing_elim_returned, Stream.mem_destroyCalls_closeInternal] at by_
    rcases by_ with (called | ⟨rfl, _⟩) | writes
    · exact mono.1 (flags.byWatchdog (Or.inl called))
    · exact mono.1 (wrote trivial)
    · exact Stream.closeInternal_timedOut wrote writes
  · intro byReader
    rcases flags.byReader (onlyReader byReader) with closes | isClosed
    · exact Or.inl (reader.trans closes)
    · exact Or.inr (mono.2 isClosed)
  · intro byReader length closedBefore reads
    exact flags.closedBefore (onlyReader byReader) length closedBefore (reader.symm.trans reads)

end Flags

/-! ## What was read -/

/-- The bytes that a read has got from the process and not handed over yet. -/
def Reader.pending : Reader → List UInt8
  | .checks (some bytes) => bytes
  | .records bytes _ => bytes
  | _ => []

/-- The bytes that the reads handed over. -/
def Stream.received (stream : Stream) : List UInt8 :=
  stream.outcomes.flatMap Outcome.received

/-- Without a timeout no byte is lost, and the end comes behind the last byte. -/
structure Whole (output : List UInt8) (stream : Stream) : Prop where
  intact : stream.timedOut = false →
    output = stream.received ++ (stream.reader.pending ++ stream.remaining)
  atEnd : stream.timedOut = false → stream.reader = .checks none → stream.remaining = []
  complete : .ended ∈ stream.outcomes →
    stream.received = output ∧ stream.reader.pending ++ stream.remaining = []

namespace Whole

variable {output : List UInt8} {stream next : Stream}

/-- Steps that neither read nor hand over. -/
theorem of_same (whole : Whole output stream)
    (remaining : next.reader.pending ++ next.remaining =
      stream.reader.pending ++ stream.remaining)
    (outcomes : next.outcomes = stream.outcomes)
    (timedOut : stream.timedOut = true → next.timedOut = true)
    (atEnd : next.reader = .checks none →
      stream.reader = .checks none ∧ next.remaining = stream.remaining) :
    Whole output next := by
  have before : next.timedOut = false → stream.timedOut = false := by
    intro not
    apply Bool.eq_false_iff.mpr
    intro before
    rw [timedOut before] at not
    cases not
  constructor
  · intro not
    rw [Stream.received, outcomes, remaining]
    exact whole.intact (before not)
  · intro not checks
    obtain ⟨checksBefore, same⟩ := atEnd checks
    rw [same]
    exact whole.atEnd (before not) checksBefore
  · rw [Stream.received, outcomes, remaining]
    exact whole.complete

/-- A read hands over its bytes. -/
theorem finish_bytes {bytes : List UInt8} (whole : Whole output stream)
    (pending : stream.reader.pending = bytes) : Whole output (stream.finish (.bytes bytes)) := by
  have received : (stream.finish (.bytes bytes)).received = stream.received ++ bytes := by
    simp only [Stream.received, Stream.finish, List.flatMap_append, List.flatMap_singleton,
      Outcome.received]
  constructor
  · intro not
    rw [received, List.append_assoc, ← pending]
    exact whole.intact not
  · intro _ checks
    cases checks
  · intro ended
    have endedBefore : .ended ∈ stream.outcomes := by
      simpa [Stream.finish] using ended
    obtain ⟨all, none⟩ := whole.complete endedBefore
    obtain ⟨noBytes, noneLeft⟩ := List.append_eq_nil_iff.mp none
    rw [received, ← pending, noBytes, List.append_nil]
    exact ⟨all, noneLeft⟩

/-- A read throws, after a timeout or without having got anything. -/
theorem finish_thrown {outcome : Outcome} (whole : Whole output stream)
    (thrown : outcome = .timedOut ∧ stream.timedOut = true ∨
      outcome = .failed ∧ stream.reader.pending = []) :
    Whole output (stream.finish outcome) := by
  have received : (stream.finish outcome).received = stream.received := by
    rcases thrown with ⟨rfl, _⟩ | ⟨rfl, _⟩
    · simp [Stream.received, Stream.finish, Outcome.received]
    · simp [Stream.received, Stream.finish, Outcome.received]
  constructor
  · intro not
    rcases thrown with ⟨_, timedOut⟩ | ⟨_, pending⟩
    · exact absurd timedOut (by simpa [Stream.finish] using not)
    · have intact := whole.intact not
      rw [pending] at intact
      rw [received]
      exact intact
  · intro _ checks
    cases checks
  · intro ended
    have endedBefore : .ended ∈ stream.outcomes := by
      rcases thrown with ⟨rfl, _⟩ | ⟨rfl, _⟩
      · simpa [Stream.finish] using ended
      · simpa [Stream.finish] using ended
    obtain ⟨all, none⟩ := whole.complete endedBefore
    rw [received]
    exact ⟨all, (List.append_eq_nil_iff.mp none).2⟩

/-- A read that ends the stream, without a timeout. -/
theorem finish_ended (whole : Whole output stream) (checks : stream.reader = .checks none)
    (not : stream.timedOut = false) : Whole output (stream.finish .ended) := by
  have received : (stream.finish .ended).received = stream.received := by
    simp [Stream.received, Stream.finish, Outcome.received]
  have noneLeft := whole.atEnd not checks
  have intact := whole.intact not
  rw [checks, noneLeft] at intact
  have all : stream.received = output := by
    rw [intact]
    exact (List.append_nil _).symm
  constructor
  · intro _
    rw [received, all]
    exact (List.append_nil output).symm.trans (congrArg (output ++ ·) noneLeft.symm)
  · intro _ again
    cases again
  · intro _
    rw [received]
    exact ⟨all, noneLeft⟩

end Whole

/-! ## The invariant -/

/-- What holds in every state. -/
structure Sound (output : List UInt8) (stream : Stream) : Prop where
  flags : Flags stream
  whole : Whole output stream

namespace Sound

variable {output : List UInt8} {stream : Stream} {now : Int64}

theorem create (output : List UInt8) (now : Int64) :
    Sound output (ManagedProcessInputStream.create output now) := by
  constructor
  · constructor
    · rfl
    · rintro (called | wrote)
      · cases called
      · exact absurd wrote id
    · intro called
      cases called
    · intro called
      cases called
  · constructor
    · intro _
      rfl
    · intro _ checks
      cases checks
    · intro ended
      cases ended

/-- A reader that goes on, outside of `closeInternal`. -/
theorem flags_reader {next : Stream} (flags : Flags stream)
    (closing : stream.reader.closing = none) (nextClosing : next.reader.closing = none)
    (notReading : ∀ length closedBefore, next.reader ≠ .reads length closedBefore)
    (destroyCalls : next.destroyCalls = stream.destroyCalls)
    (inputClosed : next.inputClosed = stream.inputClosed) (closed : next.closed = stream.closed)
    (timedOut : next.timedOut = stream.timedOut) (watchdog : next.watchdog = stream.watchdog) :
    Flags next := by
  apply flags.of_open destroyCalls inputClosed closed timedOut
  · rw [watchdog]
    exact ⟨rfl, id⟩
  · refine Or.inr ⟨by rw [nextClosing]; rfl, ?_, by rw [closing]; rfl, ?_⟩
    · intro closes
      rw [closes] at closing
      cases closing
    · intro length closedBefore reads
      exact absurd reads (notReading length closedBefore)

theorem flags_finish {outcome : Outcome} (flags : Flags stream)
    (closing : stream.reader.closing = none) : Flags (stream.finish outcome) :=
  flags_reader flags closing rfl (fun _ _ => Reader.noConfusion) rfl rfl rfl rfl rfl

/-- The lock and the time decide nothing. -/
theorem unlocked (sound : Sound output stream) (watchdogLock : Option Thread)
    (lastActivityNanos : Int64) :
    Sound output { stream with watchdogLock, lastActivityNanos } := by
  obtain ⟨flags, whole⟩ := sound
  constructor
  · exact ⟨flags.destructions, flags.byWatchdog, flags.byReader, flags.closedBefore⟩
  · exact ⟨whole.intact, whole.atEnd, whole.complete⟩

/-- A read returns the bytes that it recorded. -/
theorem recorded {bytes : List UInt8} {at_ : Recording} (sound : Sound output stream)
    (records : stream.reader = .records bytes at_) (watchdogLock : Option Thread)
    (lastActivityNanos : Int64) :
    Sound output ({ stream with watchdogLock, lastActivityNanos }.finish (.bytes bytes)) := by
  obtain ⟨flags, whole⟩ := sound.unlocked watchdogLock lastActivityNanos
  constructor
  · exact flags_finish flags (congrArg Reader.closing records)
  · exact whole.finish_bytes (congrArg Reader.pending records)

/-- The read goes on with the same bytes. -/
theorem records {bytes : List UInt8} {at_ next : Recording} (sound : Sound output stream)
    (records : stream.reader = .records bytes at_) :
    Sound output { stream with reader := .records bytes next } := by
  obtain ⟨flags, whole⟩ := sound
  constructor
  · exact flags_reader flags (congrArg Reader.closing records) rfl
      (fun _ _ => Reader.noConfusion) rfl rfl rfl rfl rfl
  · apply whole.of_same
    · rw [records]
      rfl
    · rfl
    · exact id
    · intro checks
      cases checks

theorem recordActivity {bytes : List UInt8} {at_ : Recording} (sound : Sound output stream)
    (records : stream.reader = .records bytes at_) :
    Sound output (stream.recordActivity now bytes at_) := by
  cases at_ with
  | enters =>
    rw [Stream.recordActivity]
    split
    · exact sound
    · exact (sound.records records).unlocked _ _
  | testsClosed =>
    rw [Stream.recordActivity]
    split
    · exact sound.recorded records _ _
    · exact sound.records records
  | testsTimedOut =>
    rw [Stream.recordActivity]
    split
    · exact sound.recorded records _ _
    · exact sound.records records
  | writes => exact sound.recorded records _ _

/-- The timeout check passed. -/
theorem accept {value : Option (List UInt8)} (sound : Sound output stream)
    (checks : stream.reader = .checks value) (not : stream.timedOut = false) :
    Sound output (stream.accept value) := by
  have closing : stream.reader.closing = none := congrArg Reader.closing checks
  cases value with
  | none => exact ⟨flags_finish sound.flags closing, sound.whole.finish_ended checks not⟩
  | some bytes =>
    have pending : stream.reader.pending = bytes := congrArg Reader.pending checks
    cases bytes with
    | nil => exact ⟨flags_finish sound.flags closing, sound.whole.finish_bytes pending⟩
    | cons byte bytes =>
      constructor
      · exact flags_reader sound.flags closing rfl (fun _ _ => Reader.noConfusion) rfl rfl rfl rfl
          rfl
      · apply sound.whole.of_same
        · rw [pending]
          rfl
        · rfl
        · exact id
        · intro checks
          cases checks

theorem readerStep (sound : Sound output stream) : Sound output (stream.readerStep now) := by
  rw [Stream.readerStep]
  split
  next => exact sound
  next => exact sound
  next catches =>
    have closing : stream.reader.closing = none := congrArg Reader.closing catches
    refine ⟨flags_finish sound.flags closing, ?_⟩
    apply sound.whole.finish_thrown
    split
    · exact Or.inl ⟨rfl, by assumption⟩
    · exact Or.inr ⟨rfl, congrArg Reader.pending catches⟩
  next value checks =>
    split
    next timedOut =>
      exact ⟨flags_finish sound.flags (congrArg Reader.closing checks),
        sound.whole.finish_thrown (Or.inl ⟨rfl, timedOut⟩)⟩
    next not => exact sound.accept checks (Bool.eq_false_iff.mpr not)
  next bytes at_ records => exact sound.recordActivity records
  next at_ closes =>
    obtain ⟨remaining, outcomes, _, _⟩ := Stream.closeInternal_frame stream .reader false at_
    constructor
    · exact sound.flags.readerCloses closes
    · have pending : ∀ rest : Option Closing,
          (rest.elim Reader.idle Reader.closes).pending = [] := by
        intro rest
        cases rest with
        | none => rfl
        | some _ => rfl
      apply sound.whole.of_same
      · show _ ++ (stream.closeInternal .reader false at_).1.remaining = _
        rw [pending, closes, remaining]
        rfl
      · exact outcomes
      · exact (Stream.closeInternal_mono _ _ _ _).1
      · intro checks
        have checks : (stream.closeInternal .reader false at_).2.elim Reader.idle Reader.closes =
            .checks none := checks
        cases rest : (stream.closeInternal .reader false at_).2 with
        | none =>
          rw [rest] at checks
          cases checks
        | some at_ =>
          rw [rest] at checks
          cases checks

/-- The underlying stream returned. -/
theorem flags_returned {length : Nat} {closedBefore : Bool} {reader : Reader}
    {remaining : List UInt8} (flags : Flags stream)
    (reads : stream.reader = .reads length closedBefore) (closing : reader.closing = none)
    (notReading : ∀ length closedBefore, reader ≠ .reads length closedBefore) :
    Flags { stream with reader, remaining } :=
  flags_reader flags (congrArg Reader.closing reads) closing notReading rfl rfl rfl rfl rfl

/-- The end comes early only after the watchdog wrote `timedOut`: a reader that destroyed the
process closed the stream before it read again. -/
theorem noneLeft_of_ended {length : Nat} {closedBefore : Bool} (flags : Flags stream)
    (reads : stream.reader = .reads length closedBefore) (openBefore : closedBefore = false)
    (early : stream.remaining = [] ∨ stream.destroyCalls ≠ []) (not : stream.timedOut = false) :
    stream.remaining = [] := by
  rcases early with noneLeft | destroyed
  · exact noneLeft
  · obtain ⟨thread, called⟩ := List.exists_mem_of_ne_nil _ destroyed
    cases thread with
    | reader =>
      rw [flags.closedBefore called length closedBefore reads] at openBefore
      cases openBefore
    | watchdog =>
      rw [flags.byWatchdog (Or.inl called)] at not
      cases not

theorem returns {result : Underlying} (sound : Sound output stream)
    (possible : Possible stream (.returns result)) : Sound output (stream.returns result) := by
  rw [Stream.returns.eq_def]
  split
  next length closedBefore bytes reads =>
    simp only [Possible, reads] at possible
    obtain ⟨_, ⟨rest, isPrefix⟩, _⟩ := possible
    constructor
    · exact flags_returned sound.flags reads rfl fun _ _ => Reader.noConfusion
    · apply sound.whole.of_same
      · rw [reads]
        show bytes ++ stream.remaining.drop bytes.length = stream.remaining
        rw [← isPrefix, List.drop_left]
      · rfl
      · exact id
      · intro checks
        cases checks
  next length closedBefore reads =>
    simp only [Possible, reads] at possible
    obtain ⟨openBefore, early⟩ := possible
    constructor
    · exact flags_returned sound.flags reads rfl fun _ _ => Reader.noConfusion
    · have pending : stream.reader.pending = [] := congrArg Reader.pending reads
      obtain ⟨intact, _, complete⟩ := sound.whole
      rw [pending] at intact complete
      constructor
      · exact intact
      · intro not _
        exact @noneLeft_of_ended stream _ _ sound.flags reads openBefore early not
      · exact complete
  next length closedBefore reads =>
    constructor
    · exact flags_returned sound.flags reads rfl fun _ _ => Reader.noConfusion
    · apply sound.whole.of_same
      · rw [reads]
        rfl
      · rfl
      · exact id
      · intro checks
        cases checks
  next => exact sound

theorem read {length : Nat} (sound : Sound output stream) : Sound output (stream.read length) := by
  rw [Stream.read]
  split
  next idle =>
    constructor
    · refine sound.flags.of_open rfl rfl rfl rfl ⟨rfl, id⟩ ?_
      rw [idle]
      refine Or.inr ⟨rfl, Reader.noConfusion, rfl, ?_⟩
      intro length closedBefore reads
      cases reads
      rfl
    · apply sound.whole.of_same
      · rw [idle]
        rfl
      · rfl
      · exact id
      · intro checks
        cases checks
  next => exact sound

theorem close (sound : Sound output stream) : Sound output stream.close := by
  rw [Stream.close]
  split
  next idle =>
    constructor
    · refine sound.flags.of_open rfl rfl rfl rfl ⟨rfl, id⟩ ?_
      rw [idle]
      refine Or.inr ⟨rfl, Reader.noConfusion, rfl, ?_⟩
      intro length closedBefore reads
      cases reads
    · apply sound.whole.of_same
      · rw [idle]
        rfl
      · rfl
      · exact id
      · intro checks
        cases checks
  next => exact sound

/-- A watchdog that goes on, outside of `closeInternal` or into it. -/
theorem watches {watchdog : Watchdog} {watchdogLock : Option Thread} (sound : Sound output stream)
    (closing : stream.watchdog.closing = none)
    (nextClosing : watchdog.closing = none ∨ watchdog.closing = some .comparesAndSets) :
    Sound output { stream with watchdog, watchdogLock } := by
  constructor
  · refine sound.flags.of_open rfl rfl rfl rfl ?_ (Or.inl rfl)
    · rw [closing]
      rcases nextClosing with none | some
      · rw [none]
        exact ⟨rfl, id⟩
      · rw [some]
        exact ⟨rfl, id⟩
  · exact ⟨sound.whole.intact, sound.whole.atEnd, sound.whole.complete⟩

theorem watchForIdleTimeout {idleTimeoutNanos : Int64} (sound : Sound output stream) :
    Sound output (stream.watchForIdleTimeout idleTimeoutNanos now) := by
  rw [Stream.watchForIdleTimeout]
  split
  next at_ =>
    apply sound.watches (congrArg Watchdog.closing at_)
    split
    · exact Or.inl rfl
    · exact Or.inl rfl
  next at_ =>
    split
    · exact sound
    · exact sound.watches (congrArg Watchdog.closing at_) (Or.inl rfl)
  next at_ =>
    split
    · exact sound.watches (congrArg Watchdog.closing at_) (Or.inl rfl)
    · exact sound.watches (congrArg Watchdog.closing at_) (Or.inl rfl)
  next at_ =>
    apply sound.watches (congrArg Watchdog.closing at_)
    split
    · exact Or.inl rfl
    · exact Or.inr rfl
  next at_ =>
    split
    · exact sound
    · apply sound.watches (congrArg Watchdog.closing at_)
      split
      · exact Or.inl rfl
      · exact Or.inl rfl
  next at_ closes =>
    obtain ⟨remaining, outcomes, reader, _⟩ := Stream.closeInternal_frame stream .watchdog true at_
    constructor
    · exact sound.flags.watchdogCloses closes
    · apply sound.whole.of_same
      · show (stream.closeInternal .watchdog true at_).1.reader.pending ++
          (stream.closeInternal .watchdog true at_).1.remaining = _
        rw [reader, remaining]
      · exact outcomes
      · exact (Stream.closeInternal_mono _ _ _ _).1
      · intro checks
        exact ⟨reader.symm.trans checks, remaining⟩
  next => exact sound

/-- The step rule. -/
theorem step {idleTimeoutNanos : Int64} {event : Event} (sound : Sound output stream)
    (possible : Possible stream event) :
    Sound output (ManagedProcessInputStream.step idleTimeoutNanos stream event) := by
  cases event with
  | read length => exact sound.read
  | close => exact sound.close
  | returns result => exact sound.returns possible
  | reader now => exact sound.readerStep
  | watchdog now => exact sound.watchForIdleTimeout

end Sound

/-! ## A stream that timed out never looks complete -/

/-- The next step of the reader is the timeout check of a read, or that of a read that
caught an exception. -/
def Reader.testsTimedOut : Reader → Bool
  | .checks _ => true
  | .catches => true
  | _ => false

/-- What the reader and the process may rely on. -/
structure Honest (output : List UInt8) (stream : Stream) : Prop where
  complete : .ended ∈ stream.outcomes → stream.received = output
  interrupts : .watchdog ∈ stream.destroyCalls → stream.reader.testsTimedOut →
    ∀ now, stream.readerStep now = stream.finish .timedOut
  once : stream.destroyCalls.length ≤ 1

theorem Sound.honest {output : List UInt8} {stream : Stream} (sound : Sound output stream) :
    Honest output stream := by
  constructor
  · exact fun ended => (sound.whole.complete ended).1
  · intro called tests now
    have timedOut := sound.flags.byWatchdog (Or.inl called)
    rw [Stream.readerStep]
    cases at_ : stream.reader with
    | catches => simp only [timedOut, if_true]
    | checks value => simp only [timedOut, if_true]
    | idle =>
      rw [at_] at tests
      cases tests
    | reads length closedBefore =>
      rw [at_] at tests
      cases tests
    | records bytes recording =>
      rw [at_] at tests
      cases tests
    | closes closing =>
      rw [at_] at tests
      cases tests
  · have destructions := sound.flags.destructions
    have atMost : stream.closed.toNat ≤ 1 := Bool.toNat_le stream.closed
    rw [Stream.destructions] at destructions
    omega

/-- In every run of the reader and the watchdog, a read ends the stream only behind the
whole output, a read that checks after the watchdog destroyed the process throws, and
the process is destroyed at most once. -/
theorem timedOut_never_complete (output : List UInt8) (idleTimeoutNanos now : Int64)
    (events : List Event)
    (possible : Meets (step idleTimeoutNanos) Possible (create output now) events) :
    Always (step idleTimeoutNanos) (Honest output) (create output now) events := by
  have sound : Always (step idleTimeoutNanos) (Sound output) (create output now) events := by
    apply Always.of_meets _ (Sound.create output now) possible
    intro stream event sound possible
    exact sound.step possible
  exact sound.mono fun _ sound => sound.honest

/-- Two of three bytes are read; the next read waits until the watchdog has destroyed the
process, and gets its early end. -/
def slowRun : List Event :=
  [.read 2, .returns (.bytes [1, 2]), .reader 1, .reader 1, .reader 1, .reader 1, .reader 1,
    .read 2, .watchdog 2000, .watchdog 2000, .watchdog 2000, .watchdog 2000, .watchdog 2001,
    .watchdog 2001, .watchdog 2001, .watchdog 2001, .watchdog 2001, .returns .ended, .reader 2002]

theorem slowRun_throws :
    Always (step 1000) (Honest [1, 2, 3]) (create [1, 2, 3] 0) slowRun ∧
      (run (step 1000) (create [1, 2, 3] 0) slowRun).destroyCalls = [.watchdog] ∧
      (run (step 1000) (create [1, 2, 3] 0) slowRun).outcomes = [.bytes [1, 2], .timedOut] := by
  constructor
  · apply timedOut_never_complete
    refine ⟨trivial, ⟨rfl, ⟨[3], rfl⟩, by decide, by decide⟩, ?_⟩
    refine ⟨trivial, trivial, trivial, trivial, trivial, trivial, trivial, trivial, trivial,
      trivial, trivial, trivial, trivial, trivial, trivial, ?_, trivial, trivial⟩
    exact ⟨rfl, Or.inr (by decide)⟩
  · exact ⟨by decide, by decide⟩

end RoundSync.Rclone.ManagedProcessInputStream
