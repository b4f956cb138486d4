import Mathlib.Data.List.ProdSigma
import Mathlib.Data.List.Nodup
import Mathlib.Data.Set.Function
import Mathlib.Logic.Function.Iterate
import Mathlib.Order.Monotone.Basic

/-!
# Rasters

A raster lies in a buffer row by row, each pixel a block of cells of one length
and each row at a multiple of the stride.  Blocks of different pixels do not
meet, so a series of copies that visits every pixel once leaves in each what was
copied there.  Quarter turns are maps of the positions.
-/

namespace RoundSync.Data.Raster

universe u

variable {α : Type u}

/-! ### Copying blocks -/

/-- The `n` cells from an offset on. -/
def block (cells : List α) (offset n : Nat) : List α :=
  (cells.drop offset).take n

/-- Put values in the place of the cells from an offset on. -/
def overwrite (cells : List α) (offset : Nat) (values : List α) : List α :=
  cells.take offset ++ (values ++ cells.drop (offset + values.length))

/-- Copy `n` cells from one buffer to another.  Both blocks have to lie within
their buffers. -/
def copyBlock (source : List α) (n target start : Nat) (destination : List α) :
    Option (List α) :=
  if start + n ≤ source.length ∧ target + n ≤ destination.length then
    some (overwrite destination target (block source start n))
  else
    none

/-- A series of copies, each the offset of its target and that of its start. -/
def copyBlocks (source : List α) (n : Nat) : List (Nat × Nat) → List α → Option (List α)
  | [], destination => some destination
  | copy :: rest, destination =>
    (copyBlock source n copy.1 copy.2 destination).bind (copyBlocks source n rest)

/-- Two blocks of `n` and `m` cells have no cell in common. -/
def Apart (n m first second : Nat) : Prop :=
  first + n ≤ second ∨ second + m ≤ first

theorem length_block {cells : List α} {offset n : Nat} (within : offset + n ≤ cells.length) :
    (block cells offset n).length = n := by
  rw [block, List.length_take, List.length_drop]
  omega

theorem length_overwrite {cells values : List α} {offset : Nat}
    (within : offset + values.length ≤ cells.length) :
    (overwrite cells offset values).length = cells.length := by
  simp only [overwrite, List.length_append, List.length_take, List.length_drop]
  omega

theorem block_overwrite_self {cells values : List α} {offset : Nat}
    (within : offset + values.length ≤ cells.length) :
    block (overwrite cells offset values) offset values.length = values := by
  have front : (cells.take offset).length = offset := by
    rw [List.length_take]
    omega
  rw [block, overwrite, List.drop_left' front, List.take_left' rfl]

theorem block_overwrite_of_apart {cells values : List α} {offset other n : Nat}
    (within : offset + values.length ≤ cells.length)
    (apart : Apart n values.length other offset) :
    block (overwrite cells offset values) other n = block cells other n := by
  apply List.ext_getElem?
  intro index
  simp only [block, overwrite, List.getElem?_take, List.getElem?_drop, List.getElem?_append,
    List.length_take]
  unfold Apart at apart
  split
  · rename_i inside
    rcases apart with before | after
    · rw [if_pos (by omega), if_pos (by omega)]
    · rw [if_neg (by omega), if_neg (by omega)]
      congr 1
      omega
  · rfl

/-- Copies to blocks that lie apart succeed, each block holds in the end what was
copied to it, and every block apart from all of them is as it was. -/
theorem copyBlocks_spec {source : List α} {n : Nat} {copies : List (Nat × Nat)}
    {destination : List α}
    (starts : ∀ copy ∈ copies, copy.2 + n ≤ source.length)
    (targets : ∀ copy ∈ copies, copy.1 + n ≤ destination.length)
    (apart : copies.Pairwise fun first second => Apart n n first.1 second.1) :
    ∃ result, copyBlocks source n copies destination = some result ∧
      result.length = destination.length ∧
      (∀ copy ∈ copies, block result copy.1 n = block source copy.2 n) ∧
      ∀ other m, (∀ copy ∈ copies, Apart m n other copy.1) →
        block result other m = block destination other m := by
  induction copies generalizing destination with
  | nil =>
    exact ⟨destination, rfl, rfl, by simp, fun _ _ _ => rfl⟩
  | cons copy rest inductionHypothesis =>
    have startFits := starts copy (List.mem_cons_self ..)
    have targetFits := targets copy (List.mem_cons_self ..)
    have valuesLength := length_block startFits
    have within : copy.1 + (block source copy.2 n).length ≤ destination.length := by
      rw [valuesLength]
      exact targetFits
    have sameLength := length_overwrite within
    rcases List.pairwise_cons.mp apart with ⟨headApart, restApart⟩
    rcases @inductionHypothesis (overwrite destination copy.1 (block source copy.2 n))
        (fun other member => starts other (List.mem_cons_of_mem _ member))
        (fun other member => by
          rw [sameLength]
          exact targets other (List.mem_cons_of_mem _ member))
        restApart with ⟨result, ran, length, copied, kept⟩
    refine ⟨result, ?_, length.trans sameLength, ?_, ?_⟩
    · rw [copyBlocks, copyBlock, if_pos ⟨startFits, targetFits⟩]
      exact ran
    · intro other member
      rcases List.mem_cons.mp member with rfl | member
      · rw [kept other.1 n headApart]
        simpa only [valuesLength] using block_overwrite_self within
      · exact copied other member
    · intro other m otherApart
      rw [kept other m fun next member => otherApart next (List.mem_cons_of_mem _ member)]
      apply block_overwrite_of_apart within
      rw [valuesLength]
      exact otherApart copy (List.mem_cons_self ..)

/-! ### Positions -/

/-- The positions of a raster of a size. -/
def grid (size : Nat × Nat) : Set (Nat × Nat) :=
  { position | position.1 < size.1 ∧ position.2 < size.2 }

/-- The positions row by row. -/
def positions (size : Nat × Nat) : List (Nat × Nat) :=
  (List.range size.2).flatMap fun y => (List.range size.1).map fun x => (x, y)

@[simp]
theorem mem_positions {size position : Nat × Nat} :
    position ∈ positions size ↔ position ∈ grid size := by
  simp only [positions, List.mem_flatMap, List.mem_range, List.mem_map, grid, Set.mem_ofPred_eq]
  constructor
  · rintro ⟨y, yBound, x, xBound, rfl⟩
    exact ⟨xBound, yBound⟩
  · rintro ⟨xBound, yBound⟩
    exact ⟨position.2, yBound, position.1, xBound, rfl⟩

theorem nodup_positions (size : Nat × Nat) : (positions size).Nodup := by
  rw [positions, List.nodup_flatMap]
  constructor
  · intro y _
    exact List.nodup_range.map fun _ _ same => (Prod.mk.inj same).1
  · apply List.Pairwise.imp _ (List.nodup_range (n := size.2))
    intro first second different
    apply List.disjoint_left.mpr
    intro position member other
    rcases List.mem_map.mp member with ⟨_, _, rfl⟩
    rcases List.mem_map.mp other with ⟨_, _, same⟩
    exact different (Prod.mk.inj same).2.symm

/-- The offset of a pixel of `n` cells. -/
def offset (stride n : Nat) (position : Nat × Nat) : Nat :=
  position.2 * stride + n * position.1

/-- A pixel ends within its row. -/
theorem offset_add_le {stride n width : Nat} {position : Nat × Nat} (rows : n * width ≤ stride)
    (column : position.1 < width) :
    offset stride n position + n ≤ position.2 * stride + stride := by
  have step : n * position.1 + n ≤ n * width := by
    rw [← Nat.mul_succ]
    exact Nat.mul_le_mul_left n column
  unfold offset
  omega

/-- The pixels of a raster lie apart. -/
theorem apart_offset {stride n : Nat} {size first second : Nat × Nat}
    (rows : n * size.1 ≤ stride) (firstInside : first ∈ grid size)
    (secondInside : second ∈ grid size) (different : first ≠ second) :
    Apart n n (offset stride n first) (offset stride n second) := by
  have inRow : ∀ {lower upper : Nat × Nat}, lower ∈ grid size → lower.2 < upper.2 →
      offset stride n lower + n ≤ offset stride n upper := by
    intro lower upper inside above
    have ends := offset_add_le rows inside.1
    have next : lower.2 * stride + stride ≤ upper.2 * stride := by
      rw [← Nat.succ_mul]
      exact Nat.mul_le_mul_right stride above
    have start : upper.2 * stride ≤ offset stride n upper := Nat.le_add_right _ _
    omega
  have inColumn : ∀ {left right : Nat × Nat}, left.2 = right.2 → left.1 < right.1 →
      offset stride n left + n ≤ offset stride n right := by
    intro left right sameRow before
    have step : n * left.1 + n ≤ n * right.1 := by
      rw [← Nat.mul_succ]
      exact Nat.mul_le_mul_left n before
    unfold offset
    rw [sameRow]
    omega
  rcases Nat.lt_trichotomy first.2 second.2 with above | sameRow | below
  · exact Or.inl (inRow firstInside above)
  · rcases Nat.lt_trichotomy first.1 second.1 with before | sameColumn | after
    · exact Or.inl (inColumn sameRow before)
    · exact absurd (Prod.ext sameColumn sameRow) different
    · exact Or.inr (inColumn sameRow.symm after)
  · exact Or.inr (inRow secondInside below)

theorem injOn_offset {stride n : Nat} {size : Nat × Nat} (nonempty : 0 < n)
    (rows : n * size.1 ≤ stride) : Set.InjOn (offset stride n) (grid size) := by
  intro first firstInside second secondInside same
  by_contra different
  have apart := apart_offset rows firstInside secondInside different
  rw [Apart, same] at apart
  omega

/-! ### Quarter turns -/

/-- The size of a raster turned by a quarter. -/
def turnedSize (size : Nat × Nat) : Nat × Nat :=
  (size.2, size.1)

/-- Where a clockwise quarter turn of a raster puts a position: the left column
becomes the top row, its lowest position first. -/
def turn (size position : Nat × Nat) : Nat × Nat :=
  (size.2 - 1 - position.2, position.1)

/-- The size after a number of quarter turns. -/
def turnedSizes : Nat → Nat × Nat → Nat × Nat
  | 0, size => size
  | turns + 1, size => turnedSizes turns (turnedSize size)

/-- Where a number of clockwise quarter turns puts a position. -/
def turned : Nat → Nat × Nat → Nat × Nat → Nat × Nat
  | 0, _, position => position
  | turns + 1, size, position => turned turns (turnedSize size) (turn size position)

theorem turn_mem {size position : Nat × Nat} (inside : position ∈ grid size) :
    turn size position ∈ grid (turnedSize size) := by
  rcases inside with ⟨xBound, yBound⟩
  constructor
  · show size.2 - 1 - position.2 < size.2
    omega
  · exact xBound

/-- Four quarter turns are none. -/
theorem turned_four {size position : Nat × Nat} (inside : position ∈ grid size) :
    turned 4 size position = position := by
  rcases inside with ⟨xBound, yBound⟩
  apply Prod.ext
  · show size.1 - 1 - (size.1 - 1 - position.1) = position.1
    omega
  · show size.2 - 1 - (size.2 - 1 - position.2) = position.2
    omega

theorem bijOn_turn (size : Nat × Nat) : Set.BijOn (turn size) (grid size) (grid (turnedSize size)) := by
  have back : Set.LeftInvOn (turned 3 (turnedSize size)) (turn size) (grid size) := by
    intro position inside
    exact turned_four inside
  refine ⟨fun _ => turn_mem, back.injOn, ?_⟩
  intro position inside
  refine ⟨turned 3 (turnedSize size) position, ?_, ?_⟩
  · exact turn_mem (turn_mem (turn_mem inside))
  · exact turned_four inside

/-- A number of quarter turns is a bijection between the positions. -/
theorem bijOn_turned (turns : Nat) (size : Nat × Nat) :
    Set.BijOn (turned turns size) (grid size) (grid (turnedSizes turns size)) := by
  induction turns generalizing size with
  | zero => exact Set.bijOn_id _
  | succ turns inductionHypothesis =>
    exact (inductionHypothesis (turnedSize size)).comp (bijOn_turn size)

end RoundSync.Data.Raster
