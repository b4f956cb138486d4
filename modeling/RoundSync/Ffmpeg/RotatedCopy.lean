import RoundSync.Data.Rasters
import Mathlib.Data.List.Basic
import Mathlib.Algebra.Group.Nat.Defs
import Mathlib.Algebra.Group.Int.Defs

/-!
# Rotating a frame into its bitmap

`frame_to_bitmap` scales a frame, makes a bitmap with the sides exchanged for a
rotation by a right angle, and has `copy_rotated_rgba` copy each pixel to its
place.  The arithmetic is that of C: the result of an `int` or `int64_t`
operation outside the range of its type is undefined, and so is an access outside
a buffer.  A computation that meets one of these has no result here.
-/

namespace RoundSync.Ffmpeg

open RoundSync.Data

variable {α : Type}

/-- A value computed as an `int`. -/
def int (value : Int) : Option Int :=
  if -2 ^ 31 ≤ value ∧ value < 2 ^ 31 then some value else none

/-- A value computed as an `int64_t`. -/
def int64 (value : Int) : Option Int :=
  if -2 ^ 63 ≤ value ∧ value < 2 ^ 63 then some value else none

/-- The turns of a loop that are left, with the counter before the next. -/
def forIntLoop {σ : Type} (body : Int → σ → Option σ) : Nat → Int → σ → Option σ
  | 0, _, state => some state
  | left + 1, counter, state => do
    let state ← body counter state
    let counter ← int (counter + 1)
    forIntLoop body left counter state

/-- `for (int counter = 0; counter < bound; counter++)`. -/
def forInt {σ : Type} (bound : Int) (body : Int → σ → Option σ) : σ → Option σ :=
  forIntLoop body bound.toNat 0

/-- The pixels of the bitmap, and the calls of `memcpy` so far: the offset that
each wrote to and the one it read from. -/
structure Drawing (α : Type) where
  bytes : List α
  copies : List (Int × Int)
  deriving DecidableEq

/-- `memcpy`, with its pointers as offsets into the two buffers. -/
def memcpy (source : List α) (target start : Int) (n : Nat) (drawing : Drawing α) :
    Option (Drawing α) :=
  if 0 ≤ target ∧ 0 ≤ start then do
    let bytes ← Raster.copyBlock source n target.toNat start.toNat drawing.bytes
    some ⟨bytes, drawing.copies ++ [(target, start)]⟩
  else
    none

/-- The `switch` over the rotation. -/
def destinationPosition (rotation sourceWidth sourceHeight x y : Int) : Option (Int × Int) :=
  if rotation = 90 then do
    let last ← int (sourceHeight - 1)
    let destinationX ← int (last - y)
    some (destinationX, x)
  else if rotation = 180 then do
    let lastColumn ← int (sourceWidth - 1)
    let destinationX ← int (lastColumn - x)
    let lastRow ← int (sourceHeight - 1)
    let destinationY ← int (lastRow - y)
    some (destinationX, destinationY)
  else if rotation = 270 then do
    let last ← int (sourceWidth - 1)
    let destinationY ← int (last - x)
    some (y, destinationY)
  else
    some (x, y)

/-- The body of the inner loop. -/
def copyPixel (source : List α) (sourceRow sourceWidth sourceHeight destinationStride
    rotation y x : Int) (drawing : Drawing α) : Option (Drawing α) := do
  let (destinationX, destinationY) ← destinationPosition rotation sourceWidth sourceHeight x y
  let destinationRow ← int64 (destinationY * destinationStride)
  let destinationColumn ← int (destinationX * 4)
  let sourceColumn ← int (x * 4)
  memcpy source (destinationRow + destinationColumn) (sourceRow + sourceColumn) 4 drawing

def copyRotatedRgba (source : List α) (sourceStride sourceWidth sourceHeight : Int)
    (destinationStride rotation : Int) : Drawing α → Option (Drawing α) :=
  forInt sourceHeight fun y drawing => do
    let sourceRow ← int64 (y * sourceStride)
    forInt sourceWidth
      (copyPixel source sourceRow sourceWidth sourceHeight destinationStride rotation y) drawing

/-- The width of the bitmap for a scaled frame. -/
def bitmapWidth (rotation scaledWidth scaledHeight : Int) : Int :=
  if rotation = 90 ∨ rotation = 270 then scaledHeight else scaledWidth

def bitmapHeight (rotation scaledWidth scaledHeight : Int) : Int :=
  if rotation = 90 ∨ rotation = 270 then scaledWidth else scaledHeight

/-- The integer part of `normalized_clockwise_rotation`: `none` when the stream
has no display matrix or its angle is no number, otherwise the rounded clockwise
angle. -/
def normalizedClockwiseRotation : Option Int → Int
  | none => 0
  | some rounded =>
    let remainder := rounded.tmod 360
    let clockwise := if remainder < 0 then remainder + 360 else remainder
    let nearest := ((clockwise + 45).tdiv 90 * 90).tmod 360
    let distance : Int := (clockwise - nearest).natAbs
    let difference := if 180 < distance then 360 - distance else distance
    if difference ≤ 5 then nearest else 0

/-- The rotations that `copy_rotated_rgba` is called with. -/
def supportedRotations : List Int :=
  [0, 90, 180, 270]

/-! ### The loops -/

@[simp]
theorem int_eq_some {value : Int} (low : -2 ^ 31 ≤ value) (high : value < 2 ^ 31) :
    int value = some value :=
  if_pos ⟨low, high⟩

@[simp]
theorem int64_eq_some {value : Int} (low : -2 ^ 63 ≤ value) (high : value < 2 ^ 63) :
    int64 value = some value :=
  if_pos ⟨low, high⟩

theorem forIntLoop_eq_foldlM {σ : Type} {body : Int → σ → Option σ} {step : σ → Nat → Option σ}
    {left start : Nat} (small : start + left < 2 ^ 31)
    (same : ∀ i, start ≤ i → i < start + left → ∀ state, body i state = step state i)
    (state : σ) :
    forIntLoop body left start state = (List.range' start left).foldlM step state := by
  induction left generalizing start state with
  | zero => rfl
  | succ left inductionHypothesis =>
    have counted : int (start + 1) = some ((start + 1 : Nat) : Int) := by
      rw [Int.natCast_succ]
      exact int_eq_some (by omega) (by omega)
    rw [forIntLoop, List.range'_succ, List.foldlM_cons, same start (Nat.le_refl _) (by omega)]
    cases step state start with
    | none => simp only [Option.bind_eq_bind, Option.bind_none]
    | some next =>
      simp only [Option.bind_eq_bind, Option.bind_some, counted]
      exact inductionHypothesis (by omega)
        (fun i low high => same i (by omega) (by omega)) next

/-- A loop whose bound is an `int` folds over the numbers below it. -/
theorem forInt_eq_foldlM {σ : Type} {body : Int → σ → Option σ} {step : σ → Nat → Option σ}
    {bound : Nat} (small : bound < 2 ^ 31)
    (same : ∀ i < bound, ∀ state, body i state = step state i) (state : σ) :
    forInt bound body state = (List.range bound).foldlM step state := by
  rw [forInt, Int.toNat_natCast, List.range_eq_range']
  apply @forIntLoop_eq_foldlM σ body step bound 0
  · omega
  · intro i _ high
    exact same i (by omega)

theorem foldlM_flatMap {β γ σ : Type} (f : β → List γ) (step : σ → γ → Option σ) (values : List β)
    (state : σ) :
    (values.flatMap f).foldlM step state =
      values.foldlM (fun state value => (f value).foldlM step state) state := by
  induction values generalizing state with
  | nil => rfl
  | cons value rest inductionHypothesis =>
    rw [List.flatMap_cons, List.foldlM_append, List.foldlM_cons]
    congr 1
    funext next
    exact inductionHypothesis next

/-- Calls of `memcpy` one after the other, each at the offsets of a position. -/
theorem foldlM_memcpy {β : Type} (source : List α) (n : Nat) (target start : β → Nat)
    (values : List β) (drawing : Drawing α) :
    values.foldlM (fun drawing value => memcpy source (target value) (start value) n drawing)
        drawing =
      (Raster.copyBlocks source n (values.map fun value => (target value, start value))
        drawing.bytes).map fun bytes =>
          ⟨bytes, drawing.copies ++
            values.map fun value => ((target value : Int), (start value : Int))⟩ := by
  induction values generalizing drawing with
  | nil => simp [Raster.copyBlocks]
  | cons value rest inductionHypothesis =>
    simp only [List.map_cons]
    rw [List.foldlM_cons, Raster.copyBlocks, memcpy,
      if_pos ⟨Int.natCast_nonneg _, Int.natCast_nonneg _⟩, Int.toNat_natCast, Int.toNat_natCast]
    cases Raster.copyBlock source n (target value) (start value) drawing.bytes with
    | none => rfl
    | some bytes =>
      simp only [Option.bind_eq_bind, Option.bind_some]
      rw [inductionHypothesis]
      simp only [List.append_assoc, List.singleton_append]

/-! ### The positions -/

/-- The number of quarter turns of a rotation. -/
def quarters (rotation : Int) : Nat :=
  (rotation / 90).toNat

/-- Where a clockwise rotation of a frame puts a pixel. -/
def clockwise (rotation : Int) (size : Nat × Nat) : Nat × Nat → Nat × Nat :=
  Raster.turned (quarters rotation) size

def bitmapSize (rotation : Int) (size : Nat × Nat) : Nat × Nat :=
  ((bitmapWidth rotation size.1 size.2).toNat, (bitmapHeight rotation size.1 size.2).toNat)

/-- The buffer holds the pixels of a raster, whose stride and height are of type
`int`. -/
structure Holds (bytes : List α) (stride : Nat) (size : Nat × Nat) : Prop where
  rows : 4 * size.1 ≤ stride
  strideRange : stride < 2 ^ 31
  heightRange : size.2 < 2 ^ 31
  fits : ∀ position ∈ Raster.grid size, Raster.offset stride 4 position + 4 ≤ bytes.length

theorem turnedSizes_quarters {rotation : Int} (supported : rotation ∈ supportedRotations)
    (size : Nat × Nat) :
    Raster.turnedSizes (quarters rotation) size = bitmapSize rotation size := by
  simp only [supportedRotations, List.mem_cons, List.not_mem_nil, or_false] at supported
  rcases supported with rfl | rfl | rfl | rfl <;> rfl

/-- The sides of the bitmap are right for its rotation. -/
theorem bijOn_clockwise {rotation : Int} (supported : rotation ∈ supportedRotations)
    (size : Nat × Nat) :
    Set.BijOn (clockwise rotation size) (Raster.grid size)
      (Raster.grid (bitmapSize rotation size)) := by
  rw [← turnedSizes_quarters supported]
  exact Raster.bijOn_turned _ _

/-- The `switch` computes where the rotation puts the pixel. -/
theorem destinationPosition_eq {rotation : Int} (supported : rotation ∈ supportedRotations)
    {width height x y : Nat} (inside : (x, y) ∈ Raster.grid (width, height))
    (widthRange : width < 2 ^ 31) (heightRange : height < 2 ^ 31) :
    destinationPosition rotation width height x y =
      some (((clockwise rotation (width, height) (x, y)).1 : Int),
        ((clockwise rotation (width, height) (x, y)).2 : Int)) := by
  have xBound : x < width := inside.1
  have yBound : y < height := inside.2
  have lastRow : int ((height : Int) - 1) = some ((height : Int) - 1) :=
    int_eq_some (by omega) (by omega)
  have lastColumn : int ((width : Int) - 1) = some ((width : Int) - 1) :=
    int_eq_some (by omega) (by omega)
  have fromRight : int ((width : Int) - 1 - x) = some ((width - 1 - x : Nat) : Int) := by
    rw [int_eq_some (by omega) (by omega), Option.some_inj]
    omega
  have fromBelow : int ((height : Int) - 1 - y) = some ((height - 1 - y : Nat) : Int) := by
    rw [int_eq_some (by omega) (by omega), Option.some_inj]
    omega
  simp only [supportedRotations, List.mem_cons, List.not_mem_nil, or_false] at supported
  rcases supported with rfl | rfl | rfl | rfl
  · rfl
  · simp only [destinationPosition, lastRow, Option.bind_eq_bind, Option.bind_some, fromBelow]
    rfl
  · simp only [destinationPosition, lastRow, lastColumn, Option.bind_eq_bind, Option.bind_some,
      fromBelow, fromRight]
    rfl
  · simp only [destinationPosition, lastColumn, Option.bind_eq_bind, Option.bind_some, fromRight]
    have kept : height - 1 - (height - 1 - y) = y := by omega
    show some _ = some (((height - 1 - (height - 1 - y) : Nat) : Int), _)
    rw [kept]
    rfl

section Buffers

variable {source bytes : List α} {sourceStride destinationStride width height : Nat}
  {rotation : Int}

/-- Within two buffers that hold the frame and the bitmap, the body of the inner
loop is a copy between the offsets of a pixel and of its place. -/
theorem copyPixel_eq (supported : rotation ∈ supportedRotations)
    (sourceHolds : Holds source sourceStride (width, height))
    (bitmapHolds : Holds bytes destinationStride (bitmapSize rotation (width, height)))
    {x y : Nat} (inside : (x, y) ∈ Raster.grid (width, height)) (drawing : Drawing α) :
    copyPixel source ((y * sourceStride : Nat) : Int) width height destinationStride rotation y x
        drawing =
      memcpy source
        (Raster.offset destinationStride 4 (clockwise rotation (width, height) (x, y)) : Nat)
        (Raster.offset sourceStride 4 (x, y) : Nat) 4 drawing := by
  have sourceRows : 4 * width ≤ sourceStride := sourceHolds.rows
  have sourceRange := sourceHolds.strideRange
  have heightRange : height < 2 ^ 31 := sourceHolds.heightRange
  have xBound : x < width := inside.1
  have place := (bijOn_clockwise supported (width, height)).mapsTo inside
  rw [copyPixel, destinationPosition_eq supported inside (by omega) heightRange]
  generalize clockwise rotation (width, height) (x, y) = target at place ⊢
  have rows := bitmapHolds.rows
  have strideRange := bitmapHolds.strideRange
  have rowRange : target.2 < 2 ^ 31 := Nat.lt_trans place.2 bitmapHolds.heightRange
  have columnRange : target.1 < (bitmapSize rotation (width, height)).1 := place.1
  have product : target.2 * destinationStride < 2 ^ 31 * 2 ^ 31 :=
    Nat.mul_lt_mul'' rowRange strideRange
  have row : int64 ((target.2 : Int) * destinationStride) =
      some ((target.2 * destinationStride : Nat) : Int) := by
    rw [← Int.natCast_mul]
    exact int64_eq_some (by omega) (by omega)
  have column : int ((target.1 : Int) * 4) = some ((4 * target.1 : Nat) : Int) := by
    rw [int_eq_some (by omega) (by omega), Option.some_inj]
    omega
  have sourceColumn : int ((x : Int) * 4) = some ((4 * x : Nat) : Int) := by
    rw [int_eq_some (by omega) (by omega), Option.some_inj]
    omega
  rw [Option.bind_eq_bind, Option.bind_some]
  simp only [row, Option.bind_eq_bind, Option.bind_some, column, sourceColumn]
  rw [Raster.offset, Raster.offset, Int.natCast_add, Int.natCast_add]

/-- The two loops copy the pixels row by row. -/
theorem copyRotatedRgba_eq_foldlM (supported : rotation ∈ supportedRotations)
    (sourceHolds : Holds source sourceStride (width, height))
    (bitmapHolds : Holds bytes destinationStride (bitmapSize rotation (width, height)))
    (drawing : Drawing α) :
    copyRotatedRgba source sourceStride width height destinationStride rotation drawing =
      (Raster.positions (width, height)).foldlM
        (fun drawing position =>
          memcpy source
            (Raster.offset destinationStride 4 (clockwise rotation (width, height) position) : Nat)
            (Raster.offset sourceStride 4 position : Nat) 4 drawing) drawing := by
  have sourceRows : 4 * width ≤ sourceStride := sourceHolds.rows
  have sourceRange := sourceHolds.strideRange
  have heightRange : height < 2 ^ 31 := sourceHolds.heightRange
  rw [Raster.positions, foldlM_flatMap, copyRotatedRgba]
  apply forInt_eq_foldlM heightRange
  intro y yBound drawing
  have product : y * sourceStride < 2 ^ 31 * 2 ^ 31 :=
    Nat.mul_lt_mul'' (Nat.lt_trans yBound heightRange) sourceRange
  have row : int64 ((y : Int) * sourceStride) = some ((y * sourceStride : Nat) : Int) := by
    rw [← Int.natCast_mul]
    exact int64_eq_some (by omega) (by omega)
  simp only [Option.bind_eq_bind, row, Option.bind_some, List.foldlM_map]
  apply forInt_eq_foldlM (by omega)
  intro x xBound drawing
  exact copyPixel_eq supported sourceHolds bitmapHolds ⟨xBound, yBound⟩ drawing

/-- For every rotation and size the copy is defined: it writes each pixel of the
bitmap once and nothing else, and each with the pixel of the frame that the
rotation puts there. -/
theorem copyRotatedRgba_bijective (supported : rotation ∈ supportedRotations)
    (sourceHolds : Holds source sourceStride (width, height))
    (bitmapHolds : Holds bytes destinationStride (bitmapSize rotation (width, height))) :
    Set.BijOn (clockwise rotation (width, height)) (Raster.grid (width, height))
        (Raster.grid (bitmapSize rotation (width, height))) ∧
      ∃ drawing, copyRotatedRgba source sourceStride width height destinationStride rotation
          ⟨bytes, []⟩ = some drawing ∧
        (drawing.copies.map Prod.fst).Nodup ∧
        (∀ target, target ∈ drawing.copies.map Prod.fst ↔
          ∃ position ∈ Raster.grid (bitmapSize rotation (width, height)),
            target = (Raster.offset destinationStride 4 position : Nat)) ∧
        (∀ position ∈ Raster.grid (width, height),
          Raster.block drawing.bytes
              (Raster.offset destinationStride 4 (clockwise rotation (width, height) position)) 4 =
            Raster.block source (Raster.offset sourceStride 4 position) 4) ∧
        drawing.bytes.length = bytes.length ∧
        ∀ other, (∀ position ∈ Raster.grid (bitmapSize rotation (width, height)),
            Raster.Apart 1 4 other (Raster.offset destinationStride 4 position)) →
          Raster.block drawing.bytes other 1 = Raster.block bytes other 1 := by
  have turns := bijOn_clockwise supported (width, height)
  generalize copiesEq : (Raster.positions (width, height)).map (fun position =>
    (Raster.offset destinationStride 4 (clockwise rotation (width, height) position),
      Raster.offset sourceStride 4 position)) = copies
  have memCopies : ∀ copy, copy ∈ copies ↔ ∃ position ∈ Raster.grid (width, height),
      copy = (Raster.offset destinationStride 4 (clockwise rotation (width, height) position),
        Raster.offset sourceStride 4 position) := by
    intro copy
    rw [← copiesEq, List.mem_map]
    simp only [Raster.mem_positions, eq_comm]
  have apart : copies.Pairwise fun first second => Raster.Apart 4 4 first.1 second.1 := by
    rw [← copiesEq, List.pairwise_map]
    apply (Raster.nodup_positions (width, height)).imp_of_mem
    intro first second firstMember secondMember different
    have firstInside := Raster.mem_positions.mp firstMember
    have secondInside := Raster.mem_positions.mp secondMember
    apply Raster.apart_offset bitmapHolds.rows (turns.mapsTo firstInside)
      (turns.mapsTo secondInside)
    intro same
    exact different (turns.injOn firstInside secondInside same)
  have starts : ∀ copy ∈ copies, copy.2 + 4 ≤ source.length := by
    intro copy member
    rcases (memCopies copy).mp member with ⟨position, inside, rfl⟩
    exact sourceHolds.fits position inside
  have targets : ∀ copy ∈ copies, copy.1 + 4 ≤ bytes.length := by
    intro copy member
    rcases (memCopies copy).mp member with ⟨position, inside, rfl⟩
    exact bitmapHolds.fits _ (turns.mapsTo inside)
  rcases Raster.copyBlocks_spec starts targets apart with ⟨result, ran, length, copied, kept⟩
  have drawn := copyRotatedRgba_eq_foldlM supported sourceHolds bitmapHolds ⟨bytes, []⟩
  rw [foldlM_memcpy, copiesEq, ran] at drawn
  refine ⟨turns, _, drawn, ?_, ?_, ?_, length, ?_⟩
  · simp only [List.nil_append, List.map_map]
    apply List.Nodup.map_on _ (Raster.nodup_positions (width, height))
    intro first firstMember second secondMember same
    have firstInside := Raster.mem_positions.mp firstMember
    have secondInside := Raster.mem_positions.mp secondMember
    apply turns.injOn firstInside secondInside
    exact Raster.injOn_offset (by decide) bitmapHolds.rows (turns.mapsTo firstInside)
      (turns.mapsTo secondInside) (Int.ofNat.inj same)
  · intro target
    simp only [List.nil_append, List.map_map, List.mem_map, Raster.mem_positions]
    constructor
    · rintro ⟨position, inside, rfl⟩
      exact ⟨_, turns.mapsTo inside, rfl⟩
    · rintro ⟨place, placeInside, rfl⟩
      rcases turns.surjOn placeInside with ⟨position, inside, rfl⟩
      exact ⟨position, inside, rfl⟩
  · intro position inside
    exact copied _ ((memCopies _).mpr ⟨position, inside, rfl⟩)
  · intro other otherApart
    apply kept
    intro copy member
    rcases (memCopies copy).mp member with ⟨position, inside, rfl⟩
    exact otherApart _ (turns.mapsTo inside)

/-- A frame of two columns and three rows in a buffer with padded rows, turned
clockwise by a right angle. -/
theorem copyRotatedRgba_portrait :
    ∃ drawing, copyRotatedRgba (List.range 32) 12 2 3 16 90 ⟨List.replicate 32 0, []⟩ =
        some drawing ∧
      drawing.bytes = [24, 25, 26, 27, 12, 13, 14, 15, 0, 1, 2, 3, 0, 0, 0, 0,
        28, 29, 30, 31, 16, 17, 18, 19, 4, 5, 6, 7, 0, 0, 0, 0] := by
  have holds : Holds (List.range 32) 12 (2, 3) := by
    refine ⟨by decide, by decide, by decide, ?_⟩
    rintro ⟨x, y⟩ ⟨xBound, yBound⟩
    simp only [Raster.offset, List.length_range] at xBound yBound ⊢
    omega
  have bitmapHolds : Holds (List.replicate 32 0) 16 (bitmapSize 90 (2, 3)) := by
    refine ⟨by decide, by decide, by decide, ?_⟩
    rintro ⟨x, y⟩ ⟨xBound, yBound⟩
    have xBound : x < 3 := xBound
    have yBound : y < 2 := yBound
    simp only [Raster.offset, List.length_replicate]
    omega
  rcases copyRotatedRgba_bijective (by decide) holds bitmapHolds with ⟨_, drawing, drawn, _⟩
  refine ⟨drawing, drawn, ?_⟩
  have computed : copyRotatedRgba (List.range 32) 12 2 3 16 90 ⟨List.replicate 32 0, []⟩ =
      some ⟨[24, 25, 26, 27, 12, 13, 14, 15, 0, 1, 2, 3, 0, 0, 0, 0,
        28, 29, 30, 31, 16, 17, 18, 19, 4, 5, 6, 7, 0, 0, 0, 0],
        [(8, 0), (24, 4), (4, 12), (20, 16), (0, 24), (16, 28)]⟩ := by
    decide
  rw [show ((12 : Nat) : Int) = 12 from rfl] at drawn
  cases (Option.some.inj (computed.symm.trans drawn))
  rfl

end Buffers

end RoundSync.Ffmpeg
