import RoundSync.Ffmpeg.JavaAvio
import Mathlib.Tactic.Common
import Mathlib.Algebra.GroupWithZero.Nat
import Mathlib.Algebra.Ring.Int.Defs

/-!
# The callbacks simulate a cursor over the content

A cursor over a list of bytes knows what a read may deliver and where a seek
leads.  Whatever the demuxer calls, the reader answers like the cursor, as long
as it has not failed, and it fails for a late clock, for a failing platform or
when its budget is used up.
-/

namespace RoundSync.Ffmpeg

open RoundSync.Transition

/-- A Java source of the content: `readAt` returns some of the requested bytes,
or a negative number at the end, and `getSize` nothing but the size. -/
structure Honest (content : List UInt8) (surroundings : Surroundings) : Prop where
  readAt : ∀ position requested, 0 ≤ position → 0 < requested → ∃ read scratch,
    surroundings.readAt position requested = .returned read scratch ∧
      (read < 0 ∧ content.length ≤ position ∨
        0 < read ∧ read ≤ requested ∧ position + read ≤ content.length ∧
          scratch.take read.toNat = (content.drop position.toNat).take read.toNat)
  getSize : ∀ size ∈ surroundings.getSize, 0 ≤ size → size = content.length

/-- The position that a cursor takes on a seek; the flag to force it is ignored. -/
def seekTarget (length : Int) (sizeKnown : Bool) (position offset : Int) (whence : Int32) :
    Option Int :=
  let whence := whence &&& ~~~AVSEEK_FORCE
  if whence = SEEK_SET then some offset
  else if whence = SEEK_CUR then some (position + offset)
  else if whence = SEEK_END then if sizeKnown then some (length + offset) else none
  else none

/-- What keeps a context usable: its numbers are 64-bit and its size is right. -/
structure Usable (content : List UInt8) (context : JavaAvioContext) : Prop where
  position : 0 ≤ context.position ∧ context.position ≤ INT64_MAX
  size : context.size = -1 ∨ context.size = content.length
  totalRead : 0 ≤ context.totalRead ∧ context.totalRead ≤ maxNativeIoBytes

/-- Why a callback may leave the reader failed. -/
def MayFail (context : JavaAvioContext) (surroundings : Surroundings) : Prop :=
  context.failed = true ∨ deadlineExpired context surroundings.now = true ∨
    surroundings.allocates = false ∨ surroundings.copies = false ∨
    context.totalRead = maxNativeIoBytes ∧
      ¬(0 ≤ context.size ∧ context.size ≤ context.position)

structure ReadLaw (content : List UInt8) (surroundings : Surroundings)
    (context next : JavaAvioContext) (bufferSize : Int)
    (result : Except AvError (List UInt8)) : Prop where
  delivered : ∀ bytes, result = .ok bytes →
    bytes = (content.drop context.position.toNat).take bytes.length ∧
      next.position = context.position + bytes.length ∧ bytes.length ≤ max 0 bufferSize ∧
      (0 < bufferSize → bytes ≠ [])
  unmoved : ∀ error, result = .error error → next.position = context.position
  endOfFile : result = .error .eof ↔
    0 < bufferSize ∧ content.length ≤ context.position ∧ next.failed = false
  failure : next.failed = true → MayFail context surroundings

structure SeekLaw (content : List UInt8) (surroundings : Surroundings)
    (context next : JavaAvioContext) (offset : Int) (whence : Int32)
    (result : Except AvError Int) : Prop where
  moved : ∀ value, result = .ok value → whence ≠ AVSEEK_SIZE →
    seekTarget content.length (0 ≤ context.size) context.position offset whence = some value ∧
      next.position = value
  size : ∀ value, result = .ok value → whence = AVSEEK_SIZE →
    value = content.length ∧ next.position = context.position
  rejected : ∀ error, result = .error error → next.position = context.position
  accepted : next.failed = false → whence ≠ AVSEEK_SIZE → ∀ value,
    seekTarget content.length (0 ≤ context.size) context.position offset whence = some value →
      0 ≤ value → value ≤ INT64_MAX → result = .ok value
  failure : next.failed = true → MayFail context surroundings

/-- One callback answers as the cursor does. -/
def CursorLaw (content : List UInt8) (context : JavaAvioContext)
    (event : Callback × Surroundings) : Prop :=
  match event.1, (call context event).1 with
  | .read bufferSize, .bytes result =>
      ReadLaw content event.2 context (step context event) bufferSize.toInt result
  | .seek offset whence, .value result =>
      SeekLaw content event.2 context (step context event) offset.toInt whence result
  | _, _ => False

/-! ## Reads -/

/-- The fields that a callback which delivers nothing leaves alone. -/
structure Unmoved (context next : JavaAvioContext) : Prop where
  position : next.position = context.position
  size : next.size = context.size
  totalRead : next.totalRead = context.totalRead

theorem Unmoved.refl (context : JavaAvioContext) : Unmoved context context :=
  ⟨rfl, rfl, rfl⟩

theorem unmoved_fail (context : JavaAvioContext) : Unmoved context (fail context) :=
  ⟨rfl, rfl, rfl⟩

/-- All that a read can do. -/
inductive ReadOutcome (content : List UInt8) (surroundings : Surroundings)
    (context : JavaAvioContext) (bufferSize : Int) :
    Except AvError (List UInt8) → JavaAvioContext → Prop
  | failed {error : AvError} {next : JavaAvioContext} (other : error ≠ .eof)
      (isFailed : next.failed = true) (reason : MayFail context surroundings)
      (unmoved : Unmoved context next) :
      ReadOutcome content surroundings context bufferSize (.error error) next
  | nothing (live : context.failed = false) (empty : bufferSize ≤ 0) :
      ReadOutcome content surroundings context bufferSize (.ok []) context
  | atEnd {next : JavaAvioContext} (live : next.failed = false) (positive : 0 < bufferSize)
      (reached : content.length ≤ context.position) (unmoved : Unmoved context next) :
      ReadOutcome content surroundings context bufferSize (.error .eof) next
  | delivered {bytes : List UInt8} {next : JavaAvioContext} (live : next.failed = false)
      (some : bytes ≠ []) (bytesEq : bytes = (content.drop context.position.toNat).take bytes.length)
      (fits : bytes.length ≤ bufferSize) (inside : context.position + bytes.length ≤ content.length)
      (position : next.position = context.position + bytes.length)
      (size : next.size = context.size)
      (totalRead : next.totalRead = context.totalRead + bytes.length)
      (budget : next.totalRead ≤ maxNativeIoBytes) :
      ReadOutcome content surroundings context bufferSize (.ok bytes) next

section Reads

variable {content : List UInt8} {surroundings : Surroundings} {context : JavaAvioContext}
  {bufferSize : Int}

theorem request_bounds (bufferSize : Int) :
    request context bufferSize ≤ bufferSize ∧
      request context bufferSize ≤ maxNativeIoBytes - context.totalRead := by
  dsimp only [request]
  split_ifs
  · exact ⟨by omega, by omega⟩
  · exact ⟨by omega, by omega⟩
  · exact ⟨by omega, by omega⟩
  · exact ⟨by omega, by omega⟩

theorem request_positive (positive : 0 < bufferSize)
    (inside : ¬(0 ≤ context.size ∧ context.size ≤ context.position))
    (budget : ¬maxNativeIoBytes ≤ context.totalRead) : 0 < request context bufferSize := by
  dsimp only [request]
  split_ifs
  · omega
  · omega
  · omega
  · omega

theorem ensureScratch_cases (context : JavaAvioContext) (allocates : Bool) (requested : Int) :
    (allocates = false ∧ ∃ next, ensureScratch context allocates requested =
      (.error .enomem, next) ∧ next.failed = true ∧ Unmoved context next) ∨
    ∃ next, ensureScratch context allocates requested = (.ok (), next) ∧
      next.failed = context.failed ∧ Unmoved context next := by
  unfold ensureScratch
  split_ifs with fits missing
  · exact Or.inr ⟨context, rfl, rfl, Unmoved.refl context⟩
  · left
    exact ⟨by simpa using missing, _, rfl, rfl, rfl, rfl, rfl⟩
  · exact Or.inr ⟨_, rfl, rfl, rfl, rfl, rfl⟩

/-- What a call of an honest source does, once there is a scratch array. -/
theorem readSource_outcome {prepared : JavaAvioContext} {requested : Int}
    (honest : Honest content surroundings) (usable : Usable content context)
    (unmoved : Unmoved context prepared) (live : prepared.failed = false)
    (positive : 0 < requested) (fits : requested ≤ bufferSize)
    (budget : requested ≤ maxNativeIoBytes - context.totalRead) :
    ReadOutcome content surroundings context bufferSize
      (readSource surroundings prepared requested).1
      (readSource surroundings prepared requested).2 := by
  obtain ⟨position, size, totalRead⟩ := unmoved
  obtain ⟨read, scratch, returned, answer⟩ :=
    honest.readAt prepared.position requested (position ▸ usable.position.1) positive
  rw [position] at answer
  rcases answer with ⟨negative, reached⟩ | ⟨some, within, inside, correct⟩
  · simp only [readSource, returned, if_pos negative]
    exact .atEnd live (by omega) reached ⟨position, size, totalRead⟩
  · have notNegative : ¬read < 0 := by omega
    have accepted : ¬(read = 0 ∨ requested < read) := by omega
    cases copied : surroundings.copies with
    | false =>
        have reason : MayFail context surroundings :=
          Or.inr (Or.inr (Or.inr (Or.inl copied)))
        simp only [readSource, returned, if_neg notNegative, if_neg accepted, copied,
          Bool.not_false, if_true]
        exact .failed (by decide) rfl reason ⟨position, size, totalRead⟩
    | true =>
        have length : (scratch.take read.toNat).length = read.toNat := by
          rw [correct, List.length_take, List.length_drop]
          have bound := usable.position.1
          omega
        have lengthInt : ((scratch.take read.toNat).length : Int) = read := by
          rw [length]
          omega
        simp only [readSource, returned, if_neg notNegative, if_neg accepted, copied,
          Bool.not_true, Bool.false_eq_true, if_false]
        refine .delivered live ?_ ?_ ?_ ?_ ?_ size ?_ ?_
        · intro empty
          rw [empty] at length
          simp only [List.length_nil] at length
          omega
        · rw [length]
          exact correct
        · rw [lengthInt]
          omega
        · rw [lengthInt]
          exact inside
        · rw [lengthInt, ← position]
        · rw [lengthInt, ← totalRead]
        · simp only [totalRead]
          omega

/-- What any read does. -/
theorem javaReadPacket_outcome (honest : Honest content surroundings)
    (usable : Usable content context) :
    ReadOutcome content surroundings context bufferSize
      (javaReadPacket surroundings context bufferSize).1
      (javaReadPacket surroundings context bufferSize).2 := by
  unfold javaReadPacket
  split_ifs with failed late empty reached exhausted
  · exact .failed (by decide) failed (Or.inl failed) (Unmoved.refl context)
  · exact .failed (by decide) rfl (Or.inr (Or.inl late)) (unmoved_fail context)
  · exact .nothing (by simpa using failed) empty
  · refine .atEnd (by simpa using failed) (by omega) ?_ (Unmoved.refl context)
    rcases usable.size with unknown | known
    · omega
    · rw [← known]
      exact reached.2
  · have used : context.totalRead = maxNativeIoBytes := Int.le_antisymm usable.totalRead.2 exhausted
    have reason : MayFail context surroundings :=
      Or.inr (Or.inr (Or.inr (Or.inr ⟨used, reached⟩)))
    exact .failed (by decide) rfl reason (unmoved_fail context)
  · have positive := request_positive (Int.not_le.mp empty) reached exhausted
    have bounds := @request_bounds context bufferSize
    simp only [if_neg (Int.not_le.mpr positive)]
    rcases ensureScratch_cases context surroundings.allocates (request context bufferSize) with
      ⟨missing, next, equal, isFailed, unmoved⟩ | ⟨next, equal, same, unmoved⟩
    · simp only [equal]
      exact .failed (by decide) isFailed (Or.inr (Or.inr (Or.inl missing))) unmoved
    · simp only [equal]
      have live : next.failed = false := by
        rw [same]
        simpa using failed
      exact readSource_outcome honest usable unmoved live positive bounds.1 bounds.2

theorem readLaw_of_outcome {next : JavaAvioContext} {result : Except AvError (List UInt8)}
    (outcome : ReadOutcome content surroundings context bufferSize result next)
    (end_ : content.length ≤ INT64_MAX) (usable : Usable content context) :
    ReadLaw content surroundings context next bufferSize result ∧ Usable content next := by
  cases outcome with
  | failed other isFailed reason unmoved =>
      constructor
      · constructor
        · intro bytes equal
          cases equal
        · intro _ _
          exact unmoved.position
        · constructor
          · intro equal
            exact absurd (Except.error.inj equal) other
          · rintro ⟨_, _, live⟩
            rw [isFailed] at live
            cases live
        · intro _
          exact reason
      · exact ⟨unmoved.position ▸ usable.position, unmoved.size ▸ usable.size,
          unmoved.totalRead ▸ usable.totalRead⟩
  | nothing live empty =>
      refine ⟨⟨?_, ?_, ?_, ?_⟩, usable⟩
      · intro bytes equal
        cases equal
        refine ⟨rfl, by simp, Int.le_max_left _ _, ?_⟩
        intro positive
        omega
      · intro _ equal
        cases equal
      · constructor
        · intro equal
          cases equal
        · rintro ⟨positive, _⟩
          omega
      · intro failed
        rw [live] at failed
        cases failed
  | atEnd live positive reached unmoved =>
      constructor
      · constructor
        · intro bytes equal
          cases equal
        · intro _ _
          exact unmoved.position
        · exact ⟨fun _ => ⟨positive, reached, live⟩, fun _ => rfl⟩
        · intro failed
          rw [live] at failed
          cases failed
      · exact ⟨unmoved.position ▸ usable.position, unmoved.size ▸ usable.size,
          unmoved.totalRead ▸ usable.totalRead⟩
  | @delivered bytes next live some bytesEq fits inside position size totalRead budget =>
      have positive : 0 < bytes.length := List.length_pos_iff.mpr some
      constructor
      · constructor
        · intro other equal
          cases equal
          exact ⟨bytesEq, position, by omega, fun _ => some⟩
        · intro _ equal
          cases equal
        · constructor
          · intro equal
            cases equal
          · rintro ⟨_, reached, _⟩
            omega
        · intro failed
          rw [live] at failed
          cases failed
      · have bounds := usable.position
        have used := usable.totalRead
        exact ⟨by omega, size ▸ usable.size, by omega⟩

end Reads

/-! ## Seeks -/

section Seeks

variable {content : List UInt8} {surroundings : Surroundings} {context : JavaAvioContext}

theorem checkedAdd_eq_some_iff {left right sum : Int} (leftBounds : 0 ≤ left ∧ left ≤ INT64_MAX)
    (rightBounds : INT64_MIN ≤ right ∧ right ≤ INT64_MAX) :
    checkedAdd left right = some sum ↔ sum = left + right ∧ sum ≤ INT64_MAX := by
  unfold checkedAdd INT64_MAX INT64_MIN at *
  split_ifs with beyond
  · simp only [false_iff]
    omega
  · rw [Option.some.injEq]
    omega

/-- The base of a seek is in range, and with the offset it makes the target. -/
theorem seekTarget_eq (usable : Usable content context) (offset : Int) (whence : Int32) :
    seekTarget content.length (0 ≤ context.size) context.position offset whence =
      match seekBase context (whence &&& ~~~AVSEEK_FORCE) with
      | .ok base => some (base + offset)
      | .error _ => none := by
  dsimp only [seekTarget, seekBase]
  generalize whence &&& ~~~AVSEEK_FORCE = masked
  by_cases set : masked = SEEK_SET
  · simp only [if_pos set, Int.zero_add]
  · by_cases cur : masked = SEEK_CUR
    · simp only [if_neg set, if_pos cur]
    · by_cases fromEnd : masked = SEEK_END
      · simp only [if_neg set, if_neg cur, if_pos fromEnd]
        rcases usable.size with unknown | known
        · have negative : context.size < 0 := by omega
          have unknownSize : ¬0 ≤ context.size := by omega
          simp [negative, unknownSize]
        · have notNegative : ¬context.size < 0 := by omega
          have knownSize : 0 ≤ context.size := by omega
          simp only [knownSize, decide_true, if_true, if_neg notNegative]
          rw [known]
      · simp only [if_neg set, if_neg cur, if_neg fromEnd]

theorem seekBase_bounds (usable : Usable content context) (end_ : content.length ≤ INT64_MAX)
    {whence : Int32} {base : Int} (found : seekBase context whence = .ok base) :
    0 ≤ base ∧ base ≤ INT64_MAX := by
  unfold seekBase at found
  split_ifs at found
  · cases found
    exact ⟨Int.le_refl 0, by decide⟩
  · cases found
    exact usable.position
  · cases found
    rcases usable.size with unknown | known
    · omega
    · omega

/-- All that a seek can do. -/
inductive SeekOutcome (content : List UInt8) (surroundings : Surroundings)
    (context : JavaAvioContext) (offset : Int) (whence : Int32) :
    Except AvError Int → JavaAvioContext → Prop
  | failed {error : AvError} {next : JavaAvioContext} (isFailed : next.failed = true)
      (reason : MayFail context surroundings) (unmoved : Unmoved context next) :
      SeekOutcome content surroundings context offset whence (.error error) next
  | size {next : JavaAvioContext} (live : next.failed = false) (asked : whence = AVSEEK_SIZE)
      (position : next.position = context.position) (known : next.size = content.length)
      (totalRead : next.totalRead = context.totalRead) :
      SeekOutcome content surroundings context offset whence (.ok content.length) next
  | noSize {error : AvError} (live : context.failed = false) (asked : whence = AVSEEK_SIZE) :
      SeekOutcome content surroundings context offset whence (.error error) context
  | rejected {error : AvError} (live : context.failed = false) (move : whence ≠ AVSEEK_SIZE)
      (impossible : ∀ value, seekTarget content.length (0 ≤ context.size) context.position offset
        whence = some value → ¬(0 ≤ value ∧ value ≤ INT64_MAX)) :
      SeekOutcome content surroundings context offset whence (.error error) context
  | moved {value : Int} (live : context.failed = false) (move : whence ≠ AVSEEK_SIZE)
      (target : seekTarget content.length (0 ≤ context.size) context.position offset whence =
        some value) (bounds : 0 ≤ value ∧ value ≤ INT64_MAX) :
      SeekOutcome content surroundings context offset whence (.ok value)
        { context with position := value }

theorem seekSize_outcome {offset : Int} {whence : Int32} (honest : Honest content surroundings)
    (usable : Usable content context) (live : context.failed = false)
    (asked : whence = AVSEEK_SIZE) :
    SeekOutcome content surroundings context offset whence (seekSize surroundings context).1
      (seekSize surroundings context).2 := by
  unfold seekSize
  split_ifs with known
  · have sizeEq : context.size = content.length := by
      rcases usable.size with unknown | known
      · omega
      · exact known
    rw [sizeEq]
    exact .size live asked rfl sizeEq rfl
  · cases answer : surroundings.getSize with
    | none => exact .noSize live asked
    | some size =>
        by_cases positive : 0 ≤ size
        · have sizeEq := honest.getSize size answer positive
          simp only [if_pos positive]
          rw [sizeEq]
          exact .size live asked rfl rfl rfl
        · simp only [if_neg positive]
          exact .noSize live asked

/-- What any seek does. -/
theorem javaSeek_outcome (honest : Honest content surroundings) (end_ : content.length ≤ INT64_MAX)
    (usable : Usable content context) (offset : Int64) (whence : Int32) :
    SeekOutcome content surroundings context offset.toInt whence
      (javaSeek surroundings context offset.toInt whence).1
      (javaSeek surroundings context offset.toInt whence).2 := by
  unfold javaSeek
  split_ifs with failed late asked
  · exact .failed failed (Or.inl failed) (Unmoved.refl context)
  · exact .failed rfl (Or.inr (Or.inl late)) (unmoved_fail context)
  · exact seekSize_outcome honest usable (by simpa using failed) asked
  · have live : context.failed = false := by simpa using failed
    have target := seekTarget_eq usable offset.toInt whence
    cases found : seekBase context (whence &&& ~~~AVSEEK_FORCE) with
    | error error =>
        rw [found] at target
        refine .rejected live asked fun value isTarget => ?_
        rw [target] at isTarget
        cases isTarget
    | ok base =>
        rw [found] at target
        have bounds := seekBase_bounds usable end_ found
        have offsetBounds : INT64_MIN ≤ offset.toInt ∧ offset.toInt ≤ INT64_MAX := by
          have lower := offset.le_toInt
          have upper := offset.toInt_lt
          unfold INT64_MIN INT64_MAX
          omega
        cases sum : checkedAdd base offset.toInt with
        | none =>
            simp only [sum]
            refine .rejected live asked fun value isTarget inside => ?_
            rw [target, Option.some.injEq] at isTarget
            have representable := (checkedAdd_eq_some_iff bounds offsetBounds).mpr
              ⟨isTarget.symm, inside.2⟩
            rw [representable] at sum
            cases sum
        | some next =>
            obtain ⟨rfl, upper⟩ := (checkedAdd_eq_some_iff bounds offsetBounds).mp sum
            by_cases negative : base + offset.toInt < 0
            · simp only [sum, if_pos negative]
              refine .rejected live asked fun value isTarget inside => ?_
              rw [target, Option.some.injEq] at isTarget
              omega
            · simp only [sum, if_neg negative]
              exact .moved live asked target ⟨by omega, upper⟩

theorem seekLaw_of_outcome {offset : Int} {whence : Int32} {next : JavaAvioContext}
    {result : Except AvError Int}
    (outcome : SeekOutcome content surroundings context offset whence result next)
    (usable : Usable content context) :
    SeekLaw content surroundings context next offset whence result ∧ Usable content next ∧
      next.totalRead = context.totalRead := by
  cases outcome with
  | failed isFailed reason unmoved =>
      refine ⟨⟨nofun, nofun, fun _ _ => unmoved.position, ?_, fun _ => reason⟩, ?_,
        unmoved.totalRead⟩
      · intro live
        rw [isFailed] at live
        cases live
      · exact ⟨unmoved.position ▸ usable.position, unmoved.size ▸ usable.size,
          unmoved.totalRead ▸ usable.totalRead⟩
  | size live asked position known totalRead =>
      refine ⟨⟨fun _ _ move => absurd asked move, ?_, nofun, fun _ move => absurd asked move, ?_⟩,
        ⟨position ▸ usable.position, Or.inr known, totalRead ▸ usable.totalRead⟩, totalRead⟩
      · intro value equal _
        cases equal
        exact ⟨rfl, position⟩
      · intro failed
        rw [live] at failed
        cases failed
  | noSize live asked =>
      refine ⟨⟨nofun, nofun, fun _ _ => rfl, fun _ move => absurd asked move, ?_⟩, usable, rfl⟩
      intro failed
      rw [live] at failed
      cases failed
  | rejected live move impossible =>
      refine ⟨⟨nofun, nofun, fun _ _ => rfl, ?_, ?_⟩, usable, rfl⟩
      · intro _ _ value target lower upper
        exact absurd ⟨lower, upper⟩ (impossible value target)
      · intro failed
        rw [live] at failed
        cases failed
  | moved live move target bounds =>
      refine ⟨⟨?_, fun _ _ asked => absurd asked move, nofun, ?_, ?_⟩,
        ⟨bounds, usable.size, usable.totalRead⟩, rfl⟩
      · intro value equal _
        cases equal
        exact ⟨target, rfl⟩
      · intro _ _ value otherTarget _ _
        rw [target] at otherTarget
        cases otherTarget
        rfl
      · intro failed
        rw [live] at failed
        cases failed

end Seeks

/-! ## Runs of callbacks -/

/-- The answers of a run. -/
def answers (context : JavaAvioContext) : List (Callback × Surroundings) → List Answer
  | [] => []
  | event :: events => (call context event).1 :: answers (step context event) events

/-- The number of bytes that an answer delivers. -/
def Answer.size : Answer → Nat
  | .bytes (.ok delivered) => delivered.length
  | _ => 0

section Runs

variable {content : List UInt8} {context : JavaAvioContext} {event : Callback × Surroundings}
  {events : List (Callback × Surroundings)}

/-- One callback obeys the cursor, keeps the context usable and counts its bytes. -/
theorem call_law (end_ : content.length ≤ INT64_MAX) (usable : Usable content context)
    (honest : Honest content event.2) :
    CursorLaw content context event ∧ Usable content (step context event) ∧
      (step context event).totalRead = context.totalRead + (call context event).1.size := by
  obtain ⟨callback, surroundings⟩ := event
  cases callback with
  | read bufferSize =>
      have outcome := @javaReadPacket_outcome content surroundings context bufferSize.toInt honest
        usable
      obtain ⟨law, next⟩ := readLaw_of_outcome outcome end_ usable
      refine ⟨law, next, ?_⟩
      have counted : ∀ {result next}, ReadOutcome content surroundings context bufferSize.toInt
          result next → next.totalRead = context.totalRead + (Answer.bytes result).size := by
        intro result next outcome
        cases outcome with
        | failed _ _ _ unmoved => simpa [Answer.size] using unmoved.totalRead
        | nothing _ _ => simp [Answer.size]
        | atEnd _ _ _ unmoved => simpa [Answer.size] using unmoved.totalRead
        | delivered _ _ _ _ _ _ _ totalRead _ => simpa [Answer.size] using totalRead
      exact counted outcome
  | seek offset whence =>
      have outcome := javaSeek_outcome honest end_ usable offset whence
      obtain ⟨law, next, totalRead⟩ := seekLaw_of_outcome outcome usable
      refine ⟨law, next, ?_⟩
      simpa [step, call, Answer.size] using totalRead

/-- A run of callbacks: what one of them does, at each of them. -/
theorem run_law (end_ : content.length ≤ INT64_MAX) (usable : Usable content context)
    (honest : ∀ event ∈ events, Honest content event.2) :
    Meets step (CursorLaw content) context events ∧
      Always step (Usable content) context events ∧
      (run step context events).totalRead =
        context.totalRead + ((answers context events).map Answer.size).sum := by
  induction events generalizing context with
  | nil => exact ⟨trivial, usable, by simp [answers]⟩
  | cons event events ih =>
      obtain ⟨law, next, counted⟩ := call_law end_ usable (honest event List.mem_cons_self)
      obtain ⟨laws, usables, total⟩ :=
        ih next fun other member => honest other (List.mem_cons_of_mem event member)
      refine ⟨⟨law, laws⟩, ⟨usable, usables⟩, ?_⟩
      rw [run_cons, total, counted, answers, List.map_cons, List.sum_cons]
      omega

/-- From the start, with the right size or none, the callbacks simulate a cursor
over the content, whatever the demuxer calls, and deliver no more than the
budget. -/
theorem callbacks_simulate_cursor (end_ : content.length ≤ INT64_MAX) {sourceSize : Int}
    (deadlineUs : Int) (size : sourceSize < 0 ∨ sourceSize = content.length)
    (honest : ∀ event ∈ events, Honest content event.2) :
    Meets step (CursorLaw content) (start sourceSize deadlineUs) events ∧
      Always step (fun context => 0 ≤ context.position ∧ context.position ≤ INT64_MAX)
        (start sourceSize deadlineUs) events ∧
      ((answers (start sourceSize deadlineUs) events).map Answer.size).sum ≤ maxNativeIoBytes := by
  have usable : Usable content (start sourceSize deadlineUs) := by
    have positionBound : (0 : Int) ≤ INT64_MAX := by decide
    have budgetBound : (0 : Int) ≤ maxNativeIoBytes := by decide
    refine ⟨⟨Int.le_refl 0, positionBound⟩, ?_, ⟨Int.le_refl 0, budgetBound⟩⟩
    simp only [start]
    split_ifs
    · exact Or.inr (by omega)
    · exact Or.inl rfl
  obtain ⟨laws, usables, total⟩ := run_law end_ usable honest
  refine ⟨laws, usables.mono fun _ usable => usable.position, ?_⟩
  have bound := usables.last.totalRead.2
  rw [total] at bound
  have none : (start sourceSize deadlineUs).totalRead = 0 := rfl
  omega

end Runs

/-! ## A source that gives all it has -/

/-- A platform without faults and a source that fills every request. -/
def fullSource (content : List UInt8) : Surroundings where
  now := 0
  allocates := true
  copies := true
  readAt position requested :=
    if content.length ≤ position then .returned (-1) []
    else
      let bytes := (content.drop position.toNat).take requested.toNat
      .returned bytes.length bytes
  getSize := none

theorem honest_fullSource (content : List UInt8) : Honest content (fullSource content) := by
  constructor
  · intro position requested notNegative positive
    by_cases reached : content.length ≤ position
    · refine ⟨-1, [], if_pos reached, Or.inl ⟨by decide, reached⟩⟩
    · refine ⟨_, _, if_neg reached, Or.inr ?_⟩
      simp only [List.length_take, List.length_drop]
      refine ⟨by omega, by omega, by omega, ?_⟩
      rw [Int.toNat_natCast, List.take_take, ← List.length_drop, ← List.length_take]
      simp
  · nofun

/-- Two reads and a seek behind the end of three bytes. -/
theorem callbacks_simulate_cursor_threeBytes :
    Meets step (CursorLaw [1, 2, 3]) (start 3 0)
        [(.read 2, fullSource [1, 2, 3]), (.read 2, fullSource [1, 2, 3]),
          (.seek 9 SEEK_CUR, fullSource [1, 2, 3]), (.read 2, fullSource [1, 2, 3])] ∧
      Always step (fun context => 0 ≤ context.position ∧ context.position ≤ INT64_MAX) (start 3 0)
        [(.read 2, fullSource [1, 2, 3]), (.read 2, fullSource [1, 2, 3]),
          (.seek 9 SEEK_CUR, fullSource [1, 2, 3]), (.read 2, fullSource [1, 2, 3])] ∧
      ((answers (start 3 0)
        [(.read 2, fullSource [1, 2, 3]), (.read 2, fullSource [1, 2, 3]),
          (.seek 9 SEEK_CUR, fullSource [1, 2, 3]), (.read 2, fullSource [1, 2, 3])]).map
            Answer.size).sum ≤ maxNativeIoBytes := by
  apply callbacks_simulate_cursor (by decide) 0 (Or.inr rfl)
  intro event member
  have same : event.2 = fullSource [1, 2, 3] := by
    simp only [List.mem_cons, List.not_mem_nil, or_false] at member
    rcases member with rfl | rfl | rfl | rfl
    · rfl
    · rfl
    · rfl
    · rfl
  rw [same]
  exact honest_fullSource [1, 2, 3]

/-- A read into a buffer reports the end of the file exactly when the position
has reached it. -/
def EndLaw (content : List UInt8) (context : JavaAvioContext)
    (event : Callback × Surroundings) : Prop :=
  match event.1, (call context event).1 with
  | .read bufferSize, .bytes result =>
      0 < bufferSize.toInt → (result = .error .eof ↔ content.length ≤ context.position)
  | _, _ => True

/-- After a file of unknown size that is as long as the budget, the end is not
reported. -/
theorem budget_hides_end {content : List UInt8} (length : content.length = maxNativeIoBytes) :
    ¬Meets step (EndLaw content) (start (-1) 0)
      [(.read 268435456, fullSource content), (.read 1, fullSource content)] := by
  have size : (content.length : Int) = 268435456 := length
  have readAt : (fullSource content).readAt 0 268435456 = .returned 268435456 content := by
    have inside : ¬(268435456 : Int) ≤ 0 := by decide
    have whole : (content.drop (0 : Int).toNat).take (268435456 : Int).toNat = content := by
      apply List.take_of_length_le
      simp only [Int.toNat_zero, List.drop_zero]
      omega
    simp only [fullSource, size, if_neg inside, whole]
  have taken : content.take 268435456 = content := by
    apply List.take_of_length_le
    omega
  have now : (fullSource content).now = 0 := rfl
  have allocates : (fullSource content).allocates = true := rfl
  have copies : (fullSource content).copies = true := rfl
  have first : javaReadPacket (fullSource content) (start (-1) 0) 268435456 =
      (.ok content, { start (-1) 0 with
        scratchCapacity := some 268435456
        position := 268435456
        totalRead := 268435456 }) := by
    simp [javaReadPacket, start, deadlineExpired, request, ensureScratch, readSource, readAt, taken,
      maxNativeIoBytes, allocates, copies]
  have second : (step (start (-1) 0) (.read 268435456, fullSource content)) =
      { start (-1) 0 with
        scratchCapacity := some 268435456
        position := 268435456
        totalRead := 268435456 } := by
    have asked : (268435456 : Int32).toInt = 268435456 := by decide
    simp only [step, call, asked, first]
  rintro ⟨_, atEnd, _⟩
  rw [second] at atEnd
  have asked : (1 : Int32).toInt = 1 := by decide
  simp [EndLaw, call, asked, javaReadPacket, start, deadlineExpired, maxNativeIoBytes, size] at atEnd

/-- Zero bytes as many as the budget. -/
theorem budget_hides_end_zeros :
    ¬Meets step (EndLaw (List.replicate 268435456 0)) (start (-1) 0)
      [(.read 268435456, fullSource (List.replicate 268435456 0)),
        (.read 1, fullSource (List.replicate 268435456 0))] := by
  apply budget_hides_end
  rw [List.length_replicate]
  rfl

end RoundSync.Ffmpeg
