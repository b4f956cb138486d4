import RoundSync.Data.RingBuffer
import Mathlib.Data.List.Infix

/-!
# The interactive runner

The runner reads what a process writes, character by character, keeps the last
256 characters in a ring and sends the input of the first current step whose
trigger they match.  This file models the loop on the array and its index, and
compares it with a matcher that keeps the whole transcript.
-/

namespace RoundSync.Rclone.InteractiveRunner

open RoundSync.Data

/-- A `char` of Java. -/
abbrev JavaChar := UInt16

def nul : JavaChar :=
  0

def newline : JavaChar :=
  10

def CONTAINS : Int :=
  0

def ENDS_WITH : Int :=
  1

/-- The graph of the steps; a step may follow itself. -/
structure Steps (σ : Type) where
  getTrigger : σ → List JavaChar
  getMatchType : σ → Int
  getFollowing : σ → List σ

/-- What the environment does in one turn of the loop: the character that is read,
and what the action of the matched step sends, if it does not throw. -/
structure Turn where
  char : JavaChar
  input : Option (List JavaChar)
  deriving DecidableEq

/-- What can be seen of a turn: the text that the triggers were tested against, and
the step that was matched. -/
structure Observation (σ : Type) where
  bufferContent : List JavaChar
  matchedStep : Option σ
  deriving DecidableEq

section Runner

variable {σ : Type} (steps : Steps σ)

/-! ## The loop -/

/-- The variables of the loop; there are no current steps once it has ended. -/
structure RunnerState (σ : Type) where
  buffer : List JavaChar
  bufPos : Nat
  currentSteps : List σ

def bufferLength : Nat :=
  256

def start (firstStep : σ) : RunnerState σ :=
  ⟨List.replicate bufferLength nul, 0, [firstStep]⟩

/-- The loop over the current steps, with the variable that keeps its value where
the type of a step is neither of the two. -/
def matchFrom (bufferContent : List JavaChar) : Bool → List σ → Option σ
  | _, [] => none
  | isMatch, step :: currentSteps =>
      let isMatch :=
        if steps.getMatchType step = ENDS_WITH then
          decide (steps.getTrigger step <:+ bufferContent)
        else if steps.getMatchType step = CONTAINS then
          decide (steps.getTrigger step <:+: bufferContent)
        else isMatch
      if isMatch then some step else matchFrom bufferContent isMatch currentSteps

def matchToTriggers (bufferContent : List JavaChar) (currentSteps : List σ) : Option σ :=
  matchFrom steps bufferContent false currentSteps

/-- The string that is built of the buffer. -/
def bufferContent (buffer : List JavaChar) (bufPos : Nat) : List JavaChar :=
  if bufPos ≠ buffer.length then buffer.drop bufPos ++ buffer.take bufPos else buffer

/-- One character of the input is copied to the buffer. -/
def copyChar (copied : List JavaChar × Nat) (c : JavaChar) : List JavaChar × Nat :=
  let bufPos := if copied.1.length ≤ copied.2 then 0 else copied.2
  (copied.1.set bufPos c, bufPos + 1)

def wrap (buffer : List JavaChar) (bufPos : Nat) : Nat :=
  if buffer.length ≤ bufPos then 0 else bufPos

/-- One turn of the loop.  A write outside of the array throws, as an action may:
then the loop ends. -/
def turn (state : RunnerState σ) (event : Turn) : RunnerState σ × Option (Observation σ) :=
  if state.buffer.length ≤ state.bufPos then ({ state with currentSteps := [] }, none)
  else
    let buffer := state.buffer.set state.bufPos event.char
    let bufPos := state.bufPos + 1
    let content := bufferContent buffer bufPos
    match matchToTriggers steps content state.currentSteps with
    | none => (⟨buffer, wrap buffer bufPos, state.currentSteps⟩, some ⟨content, none⟩)
    | some matchedStep =>
        match event.input with
        | none => (⟨buffer, bufPos, []⟩, some ⟨content, some matchedStep⟩)
        | some input =>
            let copied := (input ++ [newline]).foldl copyChar (buffer, bufPos)
            (⟨copied.1, wrap copied.1 copied.2, steps.getFollowing matchedStep⟩,
              some ⟨content, some matchedStep⟩)

/-- What is seen of a run; it ends where there are no steps left. -/
def observe (state : RunnerState σ) : List Turn → List (Observation σ)
  | [] => []
  | event :: events =>
      if state.currentSteps = [] then []
      else (turn steps state event).2.toList ++ observe (turn steps state event).1 events

/-! ## The reference -/

/-- The whole transcript, and the current steps. -/
structure ReferenceState (σ : Type) where
  transcript : List JavaChar
  currentSteps : List σ

def referenceStart (firstStep : σ) : ReferenceState σ :=
  ⟨List.replicate bufferLength nul, [firstStep]⟩

/-- The trigger of a step is matched by a text. -/
def Fires (text : List JavaChar) (step : σ) : Prop :=
  steps.getMatchType step = ENDS_WITH ∧ steps.getTrigger step <:+ text ∨
    steps.getMatchType step = CONTAINS ∧ steps.getTrigger step <:+: text

instance (text : List JavaChar) (step : σ) : Decidable (Fires steps text step) :=
  inferInstanceAs (Decidable (_ ∨ _))

def referenceTurn (state : ReferenceState σ) (event : Turn) :
    ReferenceState σ × Observation σ :=
  let transcript := state.transcript ++ [event.char]
  let window := transcript.rtake bufferLength
  let matchedStep := state.currentSteps.find? fun step => decide (Fires steps window step)
  let next : ReferenceState σ :=
    match matchedStep, event.input with
    | none, _ => ⟨transcript, state.currentSteps⟩
    | some _, none => ⟨transcript, []⟩
    | some step, some input => ⟨transcript ++ input ++ [newline], steps.getFollowing step⟩
  (next, ⟨window, matchedStep⟩)

def referenceObserve (state : ReferenceState σ) : List Turn → List (Observation σ)
  | [] => []
  | event :: events =>
      if state.currentSteps = [] then []
      else (referenceTurn steps state event).2 ::
        referenceObserve (referenceTurn steps state event).1 events

/-! ## The array is a ring -/

/-- What is built of the buffer are the contents of the ring. -/
theorem bufferContent_eq (ring : RingBuffer JavaChar) :
    bufferContent ring.cells ring.position = ring.contents := by
  unfold bufferContent
  split
  · rfl
  · rename_i full
    have same : ring.position = ring.cells.length := not_not.mp full
    rw [RingBuffer.contents, same, List.drop_length, List.take_length, List.nil_append]

theorem foldl_copyChar (ring : RingBuffer JavaChar) (input : List JavaChar) :
    input.foldl copyChar (ring.cells, ring.position) =
      ((ring.putAll input).cells, (ring.putAll input).position) := by
  induction input generalizing ring with
  | nil => rfl
  | cons c input ih => exact ih (ring.put c)

/-- The loop over the steps finds the first that is matched. -/
theorem matchToTriggers_eq (text : List JavaChar) (currentSteps : List σ) :
    matchToTriggers steps text currentSteps =
      currentSteps.find? fun step => decide (Fires steps text step) := by
  unfold matchToTriggers
  induction currentSteps with
  | nil => rfl
  | cons step currentSteps ih =>
      have tested : (if steps.getMatchType step = ENDS_WITH then
            decide (steps.getTrigger step <:+ text)
          else if steps.getMatchType step = CONTAINS then
            decide (steps.getTrigger step <:+: text)
          else false) = decide (Fires steps text step) := by
        unfold Fires
        by_cases ends : steps.getMatchType step = ENDS_WITH
        · simp [ends, ENDS_WITH, CONTAINS]
        · by_cases contains : steps.getMatchType step = CONTAINS
          · simp [contains, ENDS_WITH, CONTAINS]
          · simp [ends, contains]
      rw [matchFrom, List.find?_cons, tested]
      cases decide (Fires steps text step) with
      | true => rfl
      | false => exact ih

/-! ## The runner and the reference -/

/-- The array is a ring that shows the end of the transcript. -/
def RingShows (buffer : List JavaChar) (bufPos : Nat) (transcript : List JavaChar) : Prop :=
  ∃ ring : RingBuffer JavaChar, ring.cells = buffer ∧ ring.position = bufPos ∧
    ring.cells.length = bufferLength ∧ ring.Shows transcript

/-- While there are steps left, the array shows the end of the transcript and its
index is within it. -/
structure Follows (state : RunnerState σ) (reference : ReferenceState σ) : Prop where
  currentSteps : state.currentSteps = reference.currentSteps
  running : state.currentSteps ≠ [] →
    RingShows state.buffer state.bufPos reference.transcript ∧
      state.bufPos < state.buffer.length

def startRing : RingBuffer JavaChar where
  cells := List.replicate bufferLength nul
  position := 0
  inBounds := Nat.zero_le _
  nonempty := by
    rw [List.length_replicate]
    decide

theorem follows_start (firstStep : σ) : Follows (start firstStep) (referenceStart firstStep) where
  currentSteps := rfl
  running _ := by
    refine ⟨⟨startRing, rfl, rfl, List.length_replicate, Nat.le_refl _, ?_⟩, startRing.nonempty⟩
    rw [referenceStart, List.rtake, startRing, Nat.sub_self, List.drop_zero]
    exact List.append_nil _

theorem RingShows.wrap {buffer transcript : List JavaChar} {bufPos : Nat}
    (ringShows : RingShows buffer bufPos transcript) :
    RingShows buffer (wrap buffer bufPos) transcript ∧ wrap buffer bufPos < buffer.length := by
  obtain ⟨ring, rfl, rfl, size, holds⟩ := ringShows
  exact ⟨⟨ring.wrapped, rfl, rfl, size, holds.wrapped⟩, ring.next_lt⟩

/-- Reading a character writes one cell, since the index is within the array. -/
theorem RingShows.readChar {buffer transcript : List JavaChar} {bufPos : Nat}
    (ringShows : RingShows buffer bufPos transcript) (inside : bufPos < buffer.length)
    (c : JavaChar) : RingShows (buffer.set bufPos c) (bufPos + 1) (transcript ++ [c]) := by
  obtain ⟨ring, rfl, rfl, size, holds⟩ := ringShows
  have here : ring.next = ring.position := if_neg (Nat.not_le_of_lt inside)
  exact ⟨ring.put c, congrArg (ring.cells.set · c) here, congrArg (· + 1) here,
    (ring.length_cells_put c).trans size, holds.put c⟩

theorem RingShows.copyInput {buffer transcript : List JavaChar} {bufPos : Nat}
    (ringShows : RingShows buffer bufPos transcript) (input : List JavaChar) :
    RingShows (input.foldl copyChar (buffer, bufPos)).1 (input.foldl copyChar (buffer, bufPos)).2
      (transcript ++ input) := by
  obtain ⟨ring, rfl, rfl, size, holds⟩ := ringShows
  rw [foldl_copyChar]
  exact ⟨ring.putAll input, rfl, rfl, (ring.length_cells_putAll input).trans size,
    holds.putAll input⟩

theorem RingShows.bufferContent_eq {buffer transcript : List JavaChar} {bufPos : Nat}
    (ringShows : RingShows buffer bufPos transcript) :
    bufferContent buffer bufPos = transcript.rtake bufferLength := by
  obtain ⟨ring, rfl, rfl, size, holds⟩ := ringShows
  rw [InteractiveRunner.bufferContent_eq, holds.2, size]

/-- One turn shows the same in both, and leaves them alike. -/
theorem Follows.turn {state : RunnerState σ} {reference : ReferenceState σ}
    (follows : Follows state reference) (running : state.currentSteps ≠ []) (event : Turn) :
    (turn steps state event).2 = some (referenceTurn steps reference event).2 ∧
      Follows (turn steps state event).1 (referenceTurn steps reference event).1 := by
  obtain ⟨shown, inside⟩ := follows.running running
  have read := shown.readChar inside event.char
  have content := read.bufferContent_eq
  unfold InteractiveRunner.turn referenceTurn
  rw [if_neg (Nat.not_le_of_lt inside)]
  dsimp only
  rw [content, matchToTriggers_eq, follows.currentSteps]
  cases reference.currentSteps.find? fun step =>
      decide (Fires steps ((reference.transcript ++ [event.char]).rtake bufferLength) step) with
  | none => exact ⟨rfl, rfl, fun _ => read.wrap⟩
  | some step =>
      cases event.input with
      | none => exact ⟨rfl, rfl, fun ended => absurd rfl ended⟩
      | some input =>
          have copied := read.copyInput (input ++ [newline])
          rw [← List.append_assoc] at copied
          exact ⟨rfl, rfl, fun _ => copied.wrap⟩

theorem observe_eq_of_follows {state : RunnerState σ} {reference : ReferenceState σ}
    (follows : Follows state reference) (events : List Turn) :
    observe steps state events = referenceObserve steps reference events := by
  induction events generalizing state reference with
  | nil => rfl
  | cons event events ih =>
      by_cases ended : state.currentSteps = []
      · rw [observe, referenceObserve, if_pos ended, if_pos (follows.currentSteps ▸ ended)]
      · obtain ⟨same, next⟩ := follows.turn steps ended event
        rw [observe, referenceObserve, if_neg ended, if_neg (follows.currentSteps ▸ ended), same,
          ih next]
        rfl

/-- The runner matches the same steps after the same characters as a matcher that
keeps the whole transcript, and tests them against its last 256 characters. -/
theorem observe_eq_reference (firstStep : σ) (events : List Turn) :
    observe steps (start firstStep) events =
      referenceObserve steps (referenceStart firstStep) events :=
  observe_eq_of_follows steps (follows_start firstStep) events

end Runner

end RoundSync.Rclone.InteractiveRunner
