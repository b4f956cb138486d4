import RoundSync.Transition.Core
import Mathlib.Data.List.Basic
import Mathlib.Algebra.Group.Nat.Defs
import Mathlib.Algebra.Group.Int.Defs

/-!
# The native reader as a file cursor

The demuxer reads a Java source through two callbacks that share a position, a
size and a budget.  The fields are 64-bit integers; that no sum of them leaves
these bounds is part of what is shown here.
-/

namespace RoundSync.Ffmpeg

open RoundSync.Transition

inductive AvError where
  | eio
  | etimedout
  | eof
  | efbig
  | enomem
  | enosys
  | einval
  deriving DecidableEq

def INT64_MAX : Int :=
  2 ^ 63 - 1

def INT64_MIN : Int :=
  -2 ^ 63

/-- `MAX_NATIVE_IO_BYTES`. -/
def maxNativeIoBytes : Int :=
  256 * 1024 * 1024

def SEEK_SET : Int32 := 0
def SEEK_CUR : Int32 := 1
def SEEK_END : Int32 := 2
def AVSEEK_SIZE : Int32 := 0x10000
def AVSEEK_FORCE : Int32 := 0x20000

/-- The fields that the callbacks share; there is no scratch array at first. -/
structure JavaAvioContext where
  scratchCapacity : Option Int := none
  position : Int := 0
  size : Int
  totalRead : Int := 0
  deadlineUs : Int
  failed : Bool := false
  deriving DecidableEq

/-- What `readAt` does: throw, or return a number with the scratch array filled. -/
inductive JavaRead where
  | exception
  | returned (read : Int) (scratch : List UInt8)

/-- What a callback meets outside: the clock, whether the allocation of a scratch
array and the copy out of it succeed, and the answers of the Java source, of
which `getSize` gives nothing where it throws. -/
structure Surroundings where
  now : Int
  allocates : Bool
  copies : Bool
  readAt : Int → Int → JavaRead
  getSize : Option Int

def deadlineExpired (context : JavaAvioContext) (now : Int) : Bool :=
  0 < context.deadlineUs && context.deadlineUs ≤ now

def fail (context : JavaAvioContext) : JavaAvioContext :=
  { context with failed := true }

/-- The context with a scratch array for the request, if there is one. -/
def ensureScratch (context : JavaAvioContext) (allocates : Bool) (requested : Int) :
    Except AvError Unit × JavaAvioContext :=
  if context.scratchCapacity.any (requested ≤ ·) then (.ok (), context)
  else if !allocates then
    (.error .enomem, { context with scratchCapacity := none, failed := true })
  else (.ok (), { context with scratchCapacity := some requested })

/-- The call of `readAt` and the copy into the buffer. -/
def readSource (surroundings : Surroundings) (context : JavaAvioContext) (requested : Int) :
    Except AvError (List UInt8) × JavaAvioContext :=
  match surroundings.readAt context.position requested with
  | .exception => (.error .eio, fail context)
  | .returned read scratch =>
      if read < 0 then (.error .eof, context)
      else if read = 0 ∨ requested < read then (.error .eio, fail context)
      else if !surroundings.copies then (.error .eio, fail context)
      else
        (.ok (scratch.take read.toNat),
          { context with
            position := context.position + read
            totalRead := context.totalRead + read })

/-- The request after the cuts to the rest of the file and of the budget. -/
def request (context : JavaAvioContext) (bufferSize : Int) : Int :=
  let requested := bufferSize
  let requested :=
    if 0 ≤ context.size ∧ context.size - context.position < requested then
      context.size - context.position
    else requested
  let budget := maxNativeIoBytes - context.totalRead
  if budget < requested then budget else requested

def javaReadPacket (surroundings : Surroundings) (context : JavaAvioContext) (bufferSize : Int) :
    Except AvError (List UInt8) × JavaAvioContext :=
  if context.failed then (.error .eio, context)
  else if deadlineExpired context surroundings.now then (.error .etimedout, fail context)
  else if bufferSize ≤ 0 then (.ok [], context)
  else if 0 ≤ context.size ∧ context.size ≤ context.position then (.error .eof, context)
  else if maxNativeIoBytes ≤ context.totalRead then (.error .efbig, fail context)
  else
    let requested := request context bufferSize
    if requested ≤ 0 then (.error .efbig, fail context)
    else
      match ensureScratch context surroundings.allocates requested with
      | (.error error, context) => (.error error, context)
      | (.ok (), context) => readSource surroundings context requested

/-- The sum, if it is a 64-bit integer. -/
def checkedAdd (left right : Int) : Option Int :=
  if (0 < right ∧ INT64_MAX - right < left) ∨ (right < 0 ∧ left < INT64_MIN - right) then none
  else some (left + right)

def seekSize (surroundings : Surroundings) (context : JavaAvioContext) :
    Except AvError Int × JavaAvioContext :=
  if 0 ≤ context.size then (.ok context.size, context)
  else
    match surroundings.getSize with
    | none => (.error .enosys, context)
    | some size =>
        if 0 ≤ size then (.ok size, { context with size }) else (.error .enosys, context)

/-- What an offset is relative to. -/
def seekBase (context : JavaAvioContext) (whence : Int32) : Except AvError Int :=
  if whence = SEEK_SET then .ok 0
  else if whence = SEEK_CUR then .ok context.position
  else if whence = SEEK_END then
    if context.size < 0 then .error .enosys else .ok context.size
  else .error .einval

def javaSeek (surroundings : Surroundings) (context : JavaAvioContext) (offset : Int)
    (whence : Int32) : Except AvError Int × JavaAvioContext :=
  if context.failed then (.error .eio, context)
  else if deadlineExpired context surroundings.now then (.error .etimedout, fail context)
  else if whence = AVSEEK_SIZE then seekSize surroundings context
  else
    match seekBase context (whence &&& ~~~AVSEEK_FORCE) with
    | .error error => (.error error, context)
    | .ok base =>
        match checkedAdd base offset with
        | none => (.error .einval, context)
        | some next =>
            if next < 0 then (.error .einval, context)
            else (.ok next, { context with position := next })

/-! ## Callbacks -/

/-- A callback of the demuxer. -/
inductive Callback where
  | read (bufferSize : Int32)
  | seek (offset : Int64) (whence : Int32)

/-- The bytes of a read, or the value of a seek. -/
inductive Answer where
  | bytes (result : Except AvError (List UInt8))
  | value (result : Except AvError Int)

def call (context : JavaAvioContext) (event : Callback × Surroundings) :
    Answer × JavaAvioContext :=
  match event.1 with
  | .read bufferSize =>
      let (result, context) := javaReadPacket event.2 context bufferSize.toInt
      (.bytes result, context)
  | .seek offset whence =>
      let (result, context) := javaSeek event.2 context offset.toInt whence
      (.value result, context)

def step (context : JavaAvioContext) (event : Callback × Surroundings) : JavaAvioContext :=
  (call context event).2

/-- The context before the first callback. -/
def start (sourceSize deadlineUs : Int) : JavaAvioContext where
  size := if 0 ≤ sourceSize then sourceSize else -1
  deadlineUs := deadlineUs

end RoundSync.Ffmpeg
