import RoundSync.Quarkcookie.Upload

/-!
# The parts of an upload

An upload is cut at the multiples of its part size.  The loop of a stream has read
exactly the parts that it has uploaded, whatever the portions in which the reader
comes and the client reads, and completes nothing before it is through.
-/

namespace RoundSync.Quarkcookie

open RoundSync.Kernel
open RoundSync.Transition
open RoundSync.Transition.Effect

/-! ## How an upload is cut -/

section

variable {total partSize : Nat}

/-- The number of parts, one at least. -/
def partCount (total partSize : Nat) : Nat :=
  max 1 ((total + partSize - 1) / partSize)

/-- The bytes in the first parts. -/
def reach (total partSize parts : Nat) : Nat :=
  min (parts * partSize) total

/-- The bytes of one part. -/
def piece (content : Bytes) (total partSize i : Nat) : Bytes :=
  (content.drop (i * partSize)).take (min partSize (total - i * partSize))

/-- The first parts with their numbers. -/
def pieces (content : Bytes) (total partSize parts : Nat) : List (Int × Bytes) :=
  (List.range parts).map fun i : Nat => ((i : Int) + 1, piece content total partSize i)

theorem pieces_succ (content : Bytes) (total partSize i : Nat) :
    pieces content total partSize (i + 1) =
      pieces content total partSize i ++ [((i : Int) + 1, piece content total partSize i)] := by
  rw [pieces, List.range_succ, List.map_append]
  rfl

/-- Every part but the last is full. -/
theorem mul_lt_of_lt_partCount (positive : 0 < partSize) {i : Nat} (nonempty : 0 < total)
    (isPart : i < partCount total partSize) : i * partSize < total := by
  unfold partCount at isPart
  have count : 1 ≤ (total + partSize - 1) / partSize := by
    rw [Nat.one_le_div_iff positive]
    omega
  rw [max_eq_right count] at isPart
  have fits : (i + 1) * partSize ≤ total + partSize - 1 :=
    (Nat.le_div_iff_mul_le positive).mp isPart
  rw [Nat.add_mul, Nat.one_mul] at fits
  omega

/-- The parts before one of them are full. -/
theorem reach_eq_mul (positive : 0 < partSize) {i : Nat} (isPart : i < partCount total partSize) :
    reach total partSize i = i * partSize := by
  apply min_eq_left
  rcases Nat.eq_zero_or_pos total with rfl | nonempty
  · have isFirst : i = 0 := by
      unfold partCount at isPart
      rw [Nat.zero_add, Nat.div_eq_of_lt (by omega)] at isPart
      omega
    simp [isFirst]
  · exact (mul_lt_of_lt_partCount positive nonempty isPart).le

theorem reach_succ (positive : 0 < partSize) {i : Nat} (isPart : i < partCount total partSize) :
    reach total partSize (i + 1) = reach total partSize i + min partSize (total - i * partSize) := by
  have before := reach_eq_mul positive isPart
  rw [before]
  unfold reach at before ⊢
  rw [Nat.add_mul, Nat.one_mul]
  omega

theorem partLength_eq (positive : 0 < partSize) {i : Nat} (isPart : i < partCount total partSize)
    (fits : total + partSize - 1 < 2 ^ 63) :
    partLength total partSize i = ((min partSize (total - i * partSize) : Nat) : Int) := by
  have before := reach_eq_mul positive isPart
  unfold reach at before
  have offset : int64 ((i : Int) * partSize) = ((i * partSize : Nat) : Int) := by
    unfold int64
    rw [← Int.natCast_mul]
    exact Int.bmod_eq_of_le (by omega) (by omega)
  unfold partLength
  simp only [offset]
  split_ifs
  · omega
  · omega
  · omega
  · omega

theorem int_eq_iff (platform : Platform) (n : Nat) :
    platform.int n = n ↔ n < 2 ^ (platform.word.bits - 1) := by
  unfold Platform.int
  cases platform.word with
  | bits32 =>
      rw [Int.bmod_def]
      simp only [WordSize.bits]
      omega
  | bits64 =>
      rw [Int.bmod_def]
      simp only [WordSize.bits]
      omega

theorem int_le (platform : Platform) (n : Nat) : platform.int n ≤ n := by
  unfold Platform.int
  cases platform.word with
  | bits32 =>
      rw [Int.bmod_def]
      simp only [WordSize.bits]
      omega
  | bits64 =>
      rw [Int.bmod_def]
      simp only [WordSize.bits]
      omega

end

/-! ## Steps of the uploads -/

section

variable {α : Type} {w : World} {env : Env} {Q : α → World → Prop} {E : DriveError → World → Prop}

theorem ensures_call {answer : Nat → Except DriveError α}
    (value : ∀ a, answer w.calls = .ok a → Q a { w with calls := w.calls + 1 })
    (error : ∀ e, answer w.calls = .error e → E e { w with calls := w.calls + 1 }) :
    Ensures (call answer) w Q E := by
  unfold Ensures call
  cases result : answer w.calls with
  | ok a => exact value a result
  | error e => exact error e result

end

/-! ## The loop of a stream -/

/-- Nothing was completed in between. -/
structure Quiet (base w : World) : Prop where
  hashes : w.hashes = base.hashes
  commits : w.commits = base.commits
  finishes : w.finishes = base.finishes

/-- The first parts of what the reader had at first have been uploaded. -/
structure Streamed (base : World) (total partSize i : Nat) (w : World) : Prop where
  enough : reach total partSize i ≤ base.source.rest.length
  rest : w.source.rest = base.source.rest.drop (reach total partSize i)
  hashed : w.hashed = base.source.rest.take (reach total partSize i)
  parts : w.parts = base.parts ++ pieces base.source.rest total partSize i
  quiet : Quiet base w
  portions : base.source.portions = [] → w.source.portions = []

/-- Some bytes of the next part have been read, and some parts accepted. -/
structure Sending (base : World) (total partSize i : Nat) (done : List (Int × Bytes))
    (sent : Bytes) (w : World) : Prop where
  enough : reach total partSize i ≤ base.source.rest.length
  rest : sent ++ w.source.rest = base.source.rest.drop (reach total partSize i)
  hashed : w.hashed = base.source.rest.take (reach total partSize i) ++ sent
  parts : w.parts = done
  limit : w.limit + sent.length = (min partSize (total - i * partSize) : Nat)
  within : 0 ≤ w.limit
  quiet : Quiet base w
  portions : base.source.portions = [] → w.source.portions = []

section

variable {base w : World} {env : Env} {total partSize i : Nat} {done : List (Int × Bytes)}
  {sent : Bytes}

theorem Stream.read_spec (stream : Stream) (cap : Nat) :
    (stream.read cap).1.1 ++ (stream.read cap).2.rest = stream.rest ∧
      (stream.read cap).1.1.length ≤ cap ∧
      (stream.portions = [] → (stream.read cap).2.portions = []) := by
  obtain ⟨rest, portions⟩ := stream
  cases portions with
  | nil => exact ⟨List.take_append_drop _ _, List.length_take_le _ _, fun _ => rfl⟩
  | cons portion portions =>
      refine ⟨List.take_append_drop _ _, ?_, nofun⟩
      exact (List.length_take_le _ _).trans (min_le_left _ _)

theorem Sending.read (sending : Sending base total partSize i done sent w) (cap : Nat) :
    Sending base total partSize i done (sent ++ (streamHashProgressReader cap w).1.1)
      (streamHashProgressReader cap w).2 := by
  unfold streamHashProgressReader
  split
  · simpa using sending
  · obtain ⟨split, short, portions⟩ := w.source.read_spec (min cap w.limit.toNat)
    constructor
    · exact sending.enough
    · rw [List.append_assoc, split]
      exact sending.rest
    · simp only [sending.hashed, List.append_assoc]
    · exact sending.parts
    · have limit := sending.limit
      simp only [List.length_append]
      omega
    · have within := sending.within
      show 0 ≤ w.limit - _
      omega
    · exact ⟨sending.quiet.hashes, sending.quiet.commits, sending.quiet.finishes⟩
    · exact fun none => portions (sending.portions none)

theorem Sending.transfer (caps : List Nat) (sending : Sending base total partSize i done sent w) :
    Sending base total partSize i done (sent ++ (transfer streamHashProgressReader caps w).1)
      (Quarkcookie.transfer streamHashProgressReader caps w).2 := by
  induction caps generalizing sent w with
  | nil =>
      rw [Quarkcookie.transfer, List.append_nil]
      exact sending
  | cons cap caps ih =>
      have next := sending.read cap
      unfold Quarkcookie.transfer
      split
      · rename_i chunk after isRead
        rw [isRead] at next
        rw [← List.append_assoc]
        exact ih next
      · rename_i chunk error after isRead
        rw [isRead] at next
        exact next

theorem Streamed.sending (positive : 0 < partSize) (isPart : i < partCount total partSize)
    (fits : total + partSize - 1 < 2 ^ 63) (streamed : Streamed base total partSize i w)
    (calls : Nat) :
    Sending base total partSize i (base.parts ++ pieces base.source.rest total partSize i) []
      { w with calls := calls, limit := partLength total partSize i } where
  enough := streamed.enough
  rest := streamed.rest
  hashed := streamed.hashed.trans (List.append_nil _).symm
  parts := streamed.parts
  limit := by
    rw [partLength_eq positive isPart fits]
    rfl
  within := by
    rw [partLength_eq positive isPart fits]
    exact Int.natCast_nonneg _
  quiet := ⟨streamed.quiet.hashes, streamed.quiet.commits, streamed.quiet.finishes⟩
  portions := streamed.portions

/-- A part of which all was read is the next one. -/
theorem Sending.streamed (positive : 0 < partSize) (isPart : i < partCount total partSize)
    (sending : Sending base total partSize i
      (base.parts ++ pieces base.source.rest total partSize i ++ [((i : Int) + 1, sent)]) sent w)
    (whole : w.limit = 0) : Streamed base total partSize (i + 1) w := by
  have length := sending.limit
  rw [whole, Int.zero_add, Int.natCast_inj] at length
  have isPiece : sent = piece base.source.rest total partSize i := by
    have front := congrArg (List.take sent.length) sending.rest
    rw [List.take_left', length, reach_eq_mul positive isPart] at front
    · exact front
    · rfl
  have next := reach_succ positive isPart
  have lengths := congrArg List.length sending.rest
  rw [List.length_append, List.length_drop] at lengths
  have split : base.source.rest.take (reach total partSize (i + 1)) =
      base.source.rest.take (reach total partSize i) ++ sent := by
    rw [next, List.take_add, ← sending.rest, List.take_left' length]
  have enough := sending.enough
  constructor
  · omega
  · have after := congrArg (List.drop sent.length) sending.rest
    rw [List.drop_left' rfl, List.drop_drop, length, ← next] at after
    exact after
  · rw [split]
    exact sending.hashed
  · rw [pieces_succ, ← List.append_assoc, ← isPiece]
    exact sending.parts
  · exact sending.quiet
  · exact sending.portions

end

end RoundSync.Quarkcookie
