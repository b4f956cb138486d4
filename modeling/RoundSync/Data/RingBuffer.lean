import Mathlib.Data.List.DropRight

/-!
# Ring buffers

A buffer of a fixed size that is written from its start again when its end is
reached.  What it holds, unrolled from the oldest cell on, is the end of all that
was ever written.
-/

namespace RoundSync.Data

universe u

/-- The cells, and the number of cells that were written since the start. -/
structure RingBuffer (α : Type u) where
  cells : List α
  position : Nat
  inBounds : position ≤ cells.length
  nonempty : 0 < cells.length

namespace RingBuffer

variable {α : Type u}

/-- The contents, the oldest first. -/
def contents (ring : RingBuffer α) : List α :=
  ring.cells.drop ring.position ++ ring.cells.take ring.position

/-- The cell that is written next. -/
def next (ring : RingBuffer α) : Nat :=
  if ring.cells.length ≤ ring.position then 0 else ring.position

theorem next_lt (ring : RingBuffer α) : ring.next < ring.cells.length := by
  unfold next
  split
  · exact ring.nonempty
  · rename_i room
    exact Nat.lt_of_not_le room

/-- Write one cell. -/
def put (ring : RingBuffer α) (value : α) : RingBuffer α where
  cells := ring.cells.set ring.next value
  position := ring.next + 1
  inBounds := by
    rw [List.length_set]
    exact ring.next_lt
  nonempty := by
    rw [List.length_set]
    exact ring.nonempty

@[simp]
theorem length_cells_put (ring : RingBuffer α) (value : α) :
    (ring.put value).cells.length = ring.cells.length :=
  List.length_set

/-- Starting again at the front does not change the contents. -/
theorem contents_eq_next (ring : RingBuffer α) :
    ring.contents = ring.cells.drop ring.next ++ ring.cells.take ring.next := by
  unfold next
  split
  · rename_i full
    have same : ring.position = ring.cells.length := Nat.le_antisymm ring.inBounds full
    rw [contents, same]
    simp
  · rfl

/-- The oldest cell goes, the new one is the latest. -/
theorem contents_put (ring : RingBuffer α) (value : α) :
    (ring.put value).contents = ring.contents.tail ++ [value] := by
  have inside := ring.next_lt
  have split : ring.cells.drop ring.next =
      ring.cells[ring.next] :: ring.cells.drop (ring.next + 1) :=
    List.drop_eq_getElem_cons inside
  have later : (ring.put value).cells.drop (ring.next + 1) = ring.cells.drop (ring.next + 1) :=
    List.drop_set_of_lt (Nat.lt_succ_self ring.next)
  have earlier : (ring.put value).cells.take (ring.next + 1) =
      ring.cells.take ring.next ++ [value] := by
    rw [put, List.take_succ_eq_append_getElem (by rw [List.length_set]; exact inside),
      List.take_set_of_le (Nat.le_refl ring.next), List.getElem_set_self]
  calc (ring.put value).contents
      = (ring.put value).cells.drop (ring.next + 1) ++
          (ring.put value).cells.take (ring.next + 1) := rfl
    _ = ring.cells.drop (ring.next + 1) ++ (ring.cells.take ring.next ++ [value]) := by
        rw [later, earlier]
    _ = ring.contents.tail ++ [value] := by
        rw [ring.contents_eq_next, split, List.cons_append, List.tail_cons, List.append_assoc]

/-- Go to the front when the end is reached. -/
def wrapped (ring : RingBuffer α) : RingBuffer α where
  cells := ring.cells
  position := ring.next
  inBounds := ring.next_lt.le
  nonempty := ring.nonempty

theorem contents_wrapped (ring : RingBuffer α) : ring.wrapped.contents = ring.contents :=
  ring.contents_eq_next.symm

/-- Write one cell after another. -/
def putAll (ring : RingBuffer α) (values : List α) : RingBuffer α :=
  values.foldl put ring

@[simp]
theorem length_cells_putAll (ring : RingBuffer α) (values : List α) :
    (ring.putAll values).cells.length = ring.cells.length := by
  induction values generalizing ring with
  | nil => rfl
  | cons value values ih => exact (ih (ring.put value)).trans (ring.length_cells_put value)

/-! ## The window -/

/-- The ring holds the end of a text. -/
def Shows (ring : RingBuffer α) (text : List α) : Prop :=
  ring.cells.length ≤ text.length ∧ ring.contents = text.rtake ring.cells.length

theorem rtake_concat {size : Nat} {text : List α} (value : α) (enough : size ≤ text.length)
    (positive : 0 < size) :
    (text ++ [value]).rtake size = (text.rtake size).tail ++ [value] := by
  unfold List.rtake
  have later : text.length + 1 - size = text.length - size + 1 := by omega
  rw [List.length_append, List.length_singleton, later, List.drop_append_of_le_length (by omega),
    List.tail_drop]

theorem Shows.put {ring : RingBuffer α} {text : List α} (holds : ring.Shows text) (value : α) :
    (ring.put value).Shows (text ++ [value]) := by
  obtain ⟨enough, same⟩ := holds
  constructor
  · rw [length_cells_put, List.length_append]
    exact enough.trans (Nat.le_add_right _ _)
  · rw [contents_put, same, length_cells_put, rtake_concat value enough ring.nonempty]

theorem Shows.wrapped {ring : RingBuffer α} {text : List α} (holds : ring.Shows text) :
    ring.wrapped.Shows text :=
  ⟨holds.1, ring.contents_wrapped.trans holds.2⟩

theorem Shows.putAll {ring : RingBuffer α} {text : List α} (holds : ring.Shows text)
    (values : List α) : (ring.putAll values).Shows (text ++ values) := by
  induction values generalizing ring text with
  | nil =>
      rw [List.append_nil]
      exact holds
  | cons value values ih =>
      have next := ih (holds.put value)
      rw [List.append_assoc, List.singleton_append] at next
      exact next

end RingBuffer

end RoundSync.Data
