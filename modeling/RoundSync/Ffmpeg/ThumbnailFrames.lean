import RoundSync.Ffmpeg.JavaAvio
import Mathlib.Data.List.Basic

/-!
# Selecting the frame of a thumbnail

`decode_thumbnail_frame` reads packets, hands those of the video stream to the
decoder and looks at the frames that come back, until one lies at the target,
a limit is met or the input ends; then it drains the decoder.  The answers of
the demuxer, of the decoder and of the clock are lists that the calls consume in
order, so every behaviour of the three is one of the inputs.
-/

namespace RoundSync.Ffmpeg

universe u

variable {α : Type u}

/-- The error codes of the library are negative numbers. -/
def averror (code : Int) : Int :=
  -code

/-- `FFERRTAG`. -/
def ffErrTag (a b c d : Char) : Int :=
  -(a.toNat + 2 ^ 8 * b.toNat + 2 ^ 16 * c.toNat + 2 ^ 24 * d.toNat : Nat)

def EAGAIN : Int := 11
def ENOMEM : Int := 12
def ETIMEDOUT : Int := 110
def AVERROR_EOF : Int := ffErrTag 'E' 'O' 'F' ' '
def AVERROR_INVALIDDATA : Int := ffErrTag 'I' 'N' 'D' 'A'

def AV_NOPTS_VALUE : Int64 := Int64.minValue
def AV_FRAME_FLAG_CORRUPT : UInt32 := 1

/-- `MAX_VIDEO_PACKETS`. -/
def maxVideoPackets : Nat := 12000

/-- `MAX_DECODED_FRAMES`. -/
def maxDecodedFrames : Nat := 1200

/-- The fields of a decoded frame that the selection reads, and its picture. -/
structure Frame (α : Type u) where
  width : Int
  height : Int
  format : Int
  flags : UInt32
  bestEffortTimestamp : Int64
  picture : α
  deriving DecidableEq

/-- A frame that the decoder returns, with the result that `av_frame_ref` has for
it. -/
structure Delivery (α : Type u) where
  frame : Frame α
  refResult : Int
  deriving DecidableEq

/-- An answer of `avcodec_receive_frame`. -/
inductive Received (α : Type u) where
  | frame (delivery : Delivery α)
  | failure (code : Int)

/-- An answer of `av_read_frame`; a packet comes with the result of
`avcodec_send_packet` for it. -/
inductive ReadResult where
  | failure (code : { code : Int // code < 0 })
  | packet (streamIndex sendResult : Int)

/-- What one turn of the demuxing loop meets. -/
structure Turn where
  interrupted : Bool
  read : ReadResult

/-- All that a call meets outside.  After the last turn the input ends, after the
last answer the decoder has nothing to return. -/
structure Session (α : Type u) where
  allocates : Bool
  turns : List Turn
  receives : List (Received α)
  interruptedAtDrain : Bool
  interruptedAtEnd : Bool

def isUsableFrame (frame : Frame α) : Bool :=
  0 < frame.width && 0 < frame.height && 0 ≤ frame.format &&
    frame.flags &&& AV_FRAME_FLAG_CORRUPT == 0

/-- The candidate, and whether it lies at the target.  `examined` is what the
decoder returned so far; the code keeps no more than its length, and that only
while it demuxes. -/
structure Progress (α : Type u) where
  candidate : Option (Frame α) := none
  selected : Bool := false
  examined : List (Delivery α) := []
  deriving DecidableEq

/-- The candidate is given up before the new frame is referenced. -/
def considerDecodedFrame (target : Int64) (decoded : Delivery α) (progress : Progress α) :
    Int × Progress α :=
  if !isUsableFrame decoded.frame then (0, progress)
  else
    let progress := { progress with candidate := none }
    if decoded.refResult < 0 then (decoded.refResult, progress)
    else
      let timestamp := decoded.frame.bestEffortTimestamp
      let progress := { progress with candidate := some decoded.frame }
      if target = AV_NOPTS_VALUE ∨ timestamp = AV_NOPTS_VALUE ∨ target ≤ timestamp then
        (0, { progress with selected := true })
      else (0, progress)

/-- The decoder has returned a frame, and the code looks at it. -/
def examine (target : Int64) (decoded : Delivery α) (progress : Progress α) :
    Int × Progress α :=
  considerDecodedFrame target decoded
    { progress with examined := progress.examined ++ [decoded] }

/-- The local variables, and the answers of the decoder that are still to come. -/
structure Decoding (α : Type u) where
  progress : Progress α := {}
  videoPackets : Nat := 0
  decodedFrames : Nat := 0
  readResult : Int := 0
  receives : List (Received α)

/-- The receiving loop after a packet.  A negative result ends the function. -/
def receiveLoop (target : Int64) :
    List (Received α) → Decoding α → Int × Decoding α
  | [], state => (0, { state with receives := [] })
  | .failure _ :: receives, state => (0, { state with receives })
  | .frame decoded :: receives, state =>
      let (considerResult, progress) := examine target decoded state.progress
      let state := { state with progress, receives, decodedFrames := state.decodedFrames + 1 }
      if considerResult < 0 then (considerResult, state)
      else if state.progress.selected ∨ maxDecodedFrames ≤ state.decodedFrames then (0, state)
      else receiveLoop target receives state

def Decoding.goesOn (state : Decoding α) : Bool :=
  !state.progress.selected && decide (state.videoPackets < maxVideoPackets) &&
    decide (state.decodedFrames < maxDecodedFrames)

/-- A packet that the decoder does not take; one that it cannot take yet is lost,
but its frames are fetched all the same. -/
def refused (sendResult : Int) : Bool :=
  sendResult < 0 && sendResult != averror EAGAIN

def demuxLoop (target : Int64) (videoStreamIndex : Int) :
    List Turn → Decoding α → Int × Decoding α
  | [], state => (0, if state.goesOn then { state with readResult := AVERROR_EOF } else state)
  | turn :: turns, state =>
      if !state.goesOn || turn.interrupted then (0, state)
      else
        match turn.read with
        | .failure code => (0, { state with readResult := code })
        | .packet streamIndex sendResult =>
            let state := { state with readResult := 0 }
            if streamIndex ≠ videoStreamIndex then demuxLoop target videoStreamIndex turns state
            else
              let state := { state with videoPackets := state.videoPackets + 1 }
              if refused sendResult then demuxLoop target videoStreamIndex turns state
              else
                let (considerResult, state) := receiveLoop target state.receives state
                if considerResult < 0 then (considerResult, state)
                else demuxLoop target videoStreamIndex turns state

/-- The receiving loop after the end of the packets, which counts nothing. -/
def drainLoop (target : Int64) : List (Received α) → Decoding α → Int × Decoding α
  | [], state => (0, { state with receives := [] })
  | .failure _ :: receives, state => (0, { state with receives })
  | .frame decoded :: receives, state =>
      let (considerResult, progress) := examine target decoded state.progress
      let state := { state with progress, receives }
      if considerResult < 0 then (considerResult, state)
      else if state.progress.selected then (0, state)
      else drainLoop target receives state

/-- The result once nothing more is decoded. -/
def finish (session : Session α) (state : Decoding α) : Int :=
  if state.progress.candidate.any fun frame => 0 < frame.width && 0 < frame.height then 0
  else if session.interruptedAtEnd then averror ETIMEDOUT
  else if state.readResult < 0 then state.readResult
  else AVERROR_INVALIDDATA

def drain (target : Int64) (session : Session α) (state : Decoding α) : Int × Decoding α :=
  if !state.progress.selected && !session.interruptedAtDrain then
    drainLoop target state.receives state
  else (0, state)

def decodeThumbnailFrame (session : Session α) (videoStreamIndex : Int) (target : Int64) :
    Int × Decoding α :=
  let state : Decoding α := { receives := session.receives }
  if !session.allocates then (averror ENOMEM, state)
  else
    let (considerResult, state) := demuxLoop target videoStreamIndex session.turns state
    if considerResult < 0 then (considerResult, state)
    else
      let (considerResult, state) := drain target session state
      if considerResult < 0 then (considerResult, state)
      else (finish session state, state)

/-! ## What the decoder hands out -/

/-- The frames of a row of calls up to the first answer without one, and the
answers after it. -/
def burst : List (Received α) → List (Delivery α) × List (Received α)
  | [] => ([], [])
  | .failure _ :: receives => ([], receives)
  | .frame decoded :: receives => (decoded :: (burst receives).1, (burst receives).2)

/-- The same for a caller that stops after `limit` frames. -/
def limitedBurst : Nat → List (Received α) → List (Delivery α) × List (Received α)
  | 0, receives => ([], receives)
  | _ + 1, [] => ([], [])
  | _ + 1, .failure _ :: receives => ([], receives)
  | limit + 1, .frame decoded :: receives =>
      (decoded :: (limitedBurst limit receives).1, (limitedBurst limit receives).2)

/-- Every frame of the video stream, in decoding order: those after each packet
that the decoder takes, then those of the drain. -/
def outputs (videoStreamIndex : Int) : List Turn → List (Received α) → List (Delivery α)
  | [], receives => (burst receives).1
  | turn :: turns, receives =>
      match turn.read with
      | .failure _ => (burst receives).1
      | .packet streamIndex sendResult =>
          if streamIndex ≠ videoStreamIndex ∨ refused sendResult then
            outputs videoStreamIndex turns receives
          else (burst receives).1 ++ outputs videoStreamIndex turns (burst receives).2

/-- The packets of the video stream that are read before the input ends. -/
def packetsOf (videoStreamIndex : Int) : List Turn → Nat
  | [] => 0
  | turn :: turns =>
      match turn.read with
      | .failure _ => 0
      | .packet streamIndex _ =>
          (if streamIndex = videoStreamIndex then 1 else 0) + packetsOf videoStreamIndex turns

/-- The frames handed out while packets are read, to a caller that reads at most
`packets` of them and takes at most `frames` frames, and the answers after them. -/
def demuxed (videoStreamIndex : Int) :
    Nat → Nat → List Turn → List (Received α) → List (Delivery α) × List (Received α)
  | _, _, [], receives => ([], receives)
  | packets, frames, turn :: turns, receives =>
      if packets = 0 ∨ frames = 0 ∨ turn.interrupted then ([], receives)
      else
        match turn.read with
        | .failure _ => ([], receives)
        | .packet streamIndex sendResult =>
            if streamIndex ≠ videoStreamIndex then
              demuxed videoStreamIndex packets frames turns receives
            else if refused sendResult then
              demuxed videoStreamIndex (packets - 1) frames turns receives
            else
              let first := limitedBurst frames receives
              let later := demuxed videoStreamIndex (packets - 1) (frames - first.1.length)
                turns first.2
              (first.1 ++ later.1, later.2)

/-- The frames that a session hands out, in decoding order, whatever they are. -/
def delivered (session : Session α) (videoStreamIndex : Int) : List (Delivery α) :=
  if !session.allocates then []
  else
    let frames := demuxed videoStreamIndex maxVideoPackets maxDecodedFrames session.turns
      session.receives
    if session.interruptedAtDrain then frames.1 else frames.1 ++ (burst frames.2).1

/-- No limit of the extraction cuts the session off. -/
structure WithinLimits (session : Session α) (videoStreamIndex : Int) : Prop where
  allocates : session.allocates = true
  uninterrupted : ∀ turn ∈ session.turns, turn.interrupted = false
  drains : session.interruptedAtDrain = false
  packets : packetsOf videoStreamIndex session.turns ≤ maxVideoPackets
  frames : (outputs videoStreamIndex session.turns session.receives).length ≤ maxDecodedFrames

/-! ## The choice among them -/

/-- The timestamp is missing or at least the target. -/
def reachesTarget (target : Int64) (frame : Frame α) : Bool :=
  frame.bestEffortTimestamp == AV_NOPTS_VALUE || decide (target ≤ frame.bestEffortTimestamp)

/-- The first usable frame at the target, else the last usable one. -/
def selection (target : Int64) (frames : List (Frame α)) : Option (Frame α) :=
  let usable := frames.filter isUsableFrame
  (usable.find? (reachesTarget target)).or usable.getLast?

/-- A usable frame that cannot be referenced. -/
def Delivery.isLost (decoded : Delivery α) : Bool :=
  isUsableFrame decoded.frame && decoded.refResult < 0

/-- A frame after which nothing more is decoded. -/
def Delivery.isDecisive (target : Int64) (decoded : Delivery α) : Bool :=
  isUsableFrame decoded.frame && (decoded.refResult < 0 || reachesTarget target decoded.frame)

/-! ## One frame -/

/-- The progress after frames of which none is decisive. -/
def Progress.passing (progress : Progress α) (frames : List (Delivery α)) : Progress α where
  candidate := (((frames.map Delivery.frame).filter isUsableFrame).getLast?).or progress.candidate
  selected := progress.selected
  examined := progress.examined ++ frames

@[simp]
theorem Progress.passing_nil (progress : Progress α) : progress.passing [] = progress := by
  simp [Progress.passing]

theorem Progress.passing_append (progress : Progress α) (first second : List (Delivery α)) :
    (progress.passing first).passing second = progress.passing (first ++ second) := by
  simp [Progress.passing, Option.or_assoc]

theorem noTimestamp_le (timestamp : Int64) : AV_NOPTS_VALUE ≤ timestamp :=
  Int64.minValue_le timestamp

/-- A missing target is the least timestamp, so its test is one of the other two. -/
theorem reachesTarget_iff (target : Int64) (frame : Frame α) :
    (target = AV_NOPTS_VALUE ∨ frame.bestEffortTimestamp = AV_NOPTS_VALUE ∨
        target ≤ frame.bestEffortTimestamp) ↔
      reachesTarget target frame = true := by
  simp only [reachesTarget, Bool.or_eq_true, beq_iff_eq, decide_eq_true_eq]
  constructor
  · rintro (missing | reaches)
    · rw [missing]
      exact Or.inr (noTimestamp_le _)
    · exact reaches
  · exact Or.inr

theorem examine_of_not_isDecisive {target : Int64} {decoded : Delivery α}
    (passes : decoded.isDecisive target = false) (progress : Progress α) :
    examine target decoded progress = (0, progress.passing [decoded]) := by
  unfold examine considerDecodedFrame
  cases usable : isUsableFrame decoded.frame with
  | false => simp [Progress.passing, usable]
  | true =>
      simp only [Delivery.isDecisive, usable, Bool.true_and, Bool.or_eq_false_iff,
        decide_eq_false_iff_not] at passes
      have before := (reachesTarget_iff target decoded.frame).not.mpr (by simp [passes.2])
      simp [passes.1, before, Progress.passing, usable]

theorem examine_of_isLost {target : Int64} {decoded : Delivery α} (lost : decoded.isLost = true)
    (progress : Progress α) :
    examine target decoded progress =
      (decoded.refResult,
        { progress with candidate := none, examined := progress.examined ++ [decoded] }) := by
  simp only [Delivery.isLost, Bool.and_eq_true, decide_eq_true_eq] at lost
  simp [examine, considerDecodedFrame, lost.1, lost.2]

theorem examine_of_reachesTarget {target : Int64} {decoded : Delivery α}
    (usable : isUsableFrame decoded.frame = true) (kept : 0 ≤ decoded.refResult)
    (reaches : reachesTarget target decoded.frame = true) (progress : Progress α) :
    examine target decoded progress =
      (0, { candidate := some decoded.frame, selected := true,
            examined := progress.examined ++ [decoded] }) := by
  simp [examine, considerDecodedFrame, usable, Int.not_lt.mpr kept,
    (reachesTarget_iff target decoded.frame).mpr reaches]

theorem isDecisive_cases {target : Int64} {decoded : Delivery α}
    (decisive : decoded.isDecisive target = true) :
    decoded.isLost = true ∨
      (isUsableFrame decoded.frame = true ∧ 0 ≤ decoded.refResult ∧
        reachesTarget target decoded.frame = true) := by
  simp only [Delivery.isDecisive, Bool.and_eq_true, Bool.or_eq_true, decide_eq_true_eq]
    at decisive
  rcases decisive with ⟨usable, lost | reaches⟩
  · exact Or.inl (by simp [Delivery.isLost, usable, lost])
  · by_cases lost : decoded.refResult < 0
    · exact Or.inl (by simp [Delivery.isLost, usable, lost])
    · exact Or.inr ⟨usable, Int.not_lt.mp lost, reaches⟩

/-- The loops stop at a decisive frame and at no other. -/
theorem examine_stops_iff {target : Int64} (decoded : Delivery α) {progress : Progress α}
    (searching : progress.selected = false) :
    ((examine target decoded progress).1 < 0 ∨
        (examine target decoded progress).2.selected = true) ↔
      decoded.isDecisive target = true := by
  cases decisive : decoded.isDecisive target with
  | false =>
      rw [examine_of_not_isDecisive decisive]
      simp [Progress.passing, searching]
  | true =>
      rcases isDecisive_cases decisive with lost | ⟨usable, kept, reaches⟩
      · rw [examine_of_isLost lost]
        simp only [Delivery.isLost, Bool.and_eq_true, decide_eq_true_eq] at lost
        simp [lost.2]
      · rw [examine_of_reachesTarget usable kept reaches]
        simp

/-! ## A row of frames -/

/-- Looking at frames until one is decisive. -/
def considerAll (target : Int64) : List (Delivery α) → Progress α → Int × Progress α
  | [], progress => (0, progress)
  | decoded :: frames, progress =>
      if decoded.isDecisive target then examine target decoded progress
      else considerAll target frames (progress.passing [decoded])

theorem considerAll_append {target : Int64} {first : List (Delivery α)}
    (passes : ∀ decoded ∈ first, decoded.isDecisive target = false)
    (second : List (Delivery α)) (progress : Progress α) :
    considerAll target (first ++ second) progress =
      considerAll target second (progress.passing first) := by
  induction first generalizing progress with
  | nil => simp
  | cons decoded frames ih =>
      have undecided := passes decoded List.mem_cons_self
      rw [List.cons_append, considerAll, if_neg (by simp [undecided]),
        ih (fun other mem => passes other (List.mem_cons_of_mem _ mem)),
        Progress.passing_append, List.singleton_append]

theorem considerAll_of_passes {target : Int64} {frames : List (Delivery α)}
    (passes : ∀ decoded ∈ frames, decoded.isDecisive target = false) (progress : Progress α) :
    considerAll target frames progress = (0, progress.passing frames) := by
  have all := considerAll_append passes [] progress
  rw [List.append_nil] at all
  exact all

theorem considerAll_of_decides {target : Int64} {before : List (Delivery α)}
    (passes : ∀ decoded ∈ before, decoded.isDecisive target = false) {decoded : Delivery α}
    (decisive : decoded.isDecisive target = true) (later : List (Delivery α))
    (progress : Progress α) :
    considerAll target (before ++ decoded :: later) progress =
      examine target decoded (progress.passing before) := by
  rw [considerAll_append passes, considerAll, if_pos decisive]

/-- Either no frame of a row is decisive, or one of them is the first. -/
theorem passes_or_decides (target : Int64) (frames : List (Delivery α)) :
    (∀ decoded ∈ frames, decoded.isDecisive target = false) ∨
      ∃ before decoded later, frames = before ++ decoded :: later ∧
        (∀ other ∈ before, other.isDecisive target = false) ∧
        decoded.isDecisive target = true := by
  induction frames with
  | nil => exact Or.inl (by simp)
  | cons decoded frames ih =>
      cases decisive : decoded.isDecisive target with
      | true => exact Or.inr ⟨[], decoded, frames, rfl, by simp, decisive⟩
      | false =>
          rcases ih with passes | ⟨before, first, later, rfl, passes, decides⟩
          · exact Or.inl (by simpa [decisive] using passes)
          · exact Or.inr ⟨decoded :: before, first, later, rfl, by simpa [decisive] using passes,
              decides⟩

/-- A decisive frame makes what follows irrelevant. -/
theorem considerAll_append_of_decides {target : Int64} {first : List (Delivery α)}
    (decides : ∃ decoded ∈ first, decoded.isDecisive target = true)
    (second : List (Delivery α)) (progress : Progress α) :
    considerAll target (first ++ second) progress = considerAll target first progress := by
  rcases passes_or_decides target first with passes | ⟨before, decoded, later, rfl, passes, here⟩
  · rcases decides with ⟨decoded, mem, decisive⟩
    simp [passes decoded mem] at decisive
  · rw [List.append_assoc, List.cons_append, considerAll_of_decides passes here,
      considerAll_of_decides passes here]

end RoundSync.Ffmpeg
