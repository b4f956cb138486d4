import Mathlib.Data.List.Basic

/-!
# Positions in strings

`indexOf`, `lastIndexOf` and `substring` as Java has them: a search that fails
answers -1, a start before the first position counts as the first one, and
`substring` throws outside the string.
-/

namespace RoundSync.Text.Java

universe u

variable {α : Type u}

def substring (word : List α) (first last : Int) : Option (List α) :=
  if 0 ≤ first ∧ first ≤ last ∧ last ≤ word.length then
    some ((word.take last.toNat).drop first.toNat)
  else none

theorem substring_eq (front middle rest : List α) {first last : Int}
    (firstEq : first = front.length) (lastEq : last = front.length + middle.length) :
    substring (front ++ (middle ++ rest)) first last = some middle := by
  have bounds : 0 ≤ first ∧ first ≤ last ∧ last ≤ (front ++ (middle ++ rest)).length := by
    simp only [List.length_append]
    omega
  have taken : (front ++ (middle ++ rest)).take last.toNat = front ++ middle := by
    rw [← List.append_assoc]
    apply List.take_left'
    rw [List.length_append]
    omega
  rw [substring, if_pos bounds, taken, firstEq, Int.toNat_natCast, List.drop_left]

variable [DecidableEq α]

def indexOf (word : List α) (c : α) (start : Int) : Int :=
  match (word.drop start.toNat).findIdx? (· = c) with
  | some index => start.toNat + index
  | none => -1

def lastIndexOf (word : List α) (c : α) (start : Int) : Int :=
  let searched := word.take (start + 1).toNat
  match searched.reverse.findIdx? (· = c) with
  | some index => searched.length - 1 - index
  | none => -1

theorem findIdx?_append_sep {front : List α} {c : α} (free : c ∉ front) (rest : List α) :
    (front ++ c :: rest).findIdx? (· = c) = some front.length := by
  have nowhere : front.findIdx? (· = c) = none :=
    List.findIdx?_eq_none_iff.mpr fun d member => decide_eq_false fun same => free (same ▸ member)
  simp [List.findIdx?_append, nowhere, List.findIdx?_cons]

/-- The first occurrence from a position on. -/
theorem indexOf_eq {front : List α} {c : α} (free : c ∉ front) (skipped rest : List α) :
    indexOf (skipped ++ (front ++ c :: rest)) c skipped.length =
      skipped.length + front.length := by
  rw [indexOf, Int.toNat_natCast, List.drop_left, findIdx?_append_sep free]

/-- An occurrence behind a start without one is found there or earlier. -/
theorem indexOf_bounds {passed : List α} {c : α} (free : c ∉ passed)
    (skipped front rest : List α) :
    skipped.length + passed.length ≤
        indexOf (skipped ++ (passed ++ (front ++ c :: rest))) c skipped.length ∧
      indexOf (skipped ++ (passed ++ (front ++ c :: rest))) c skipped.length ≤
        skipped.length + passed.length + front.length := by
  have nowhere : passed.findIdx? (· = c) = none :=
    List.findIdx?_eq_none_iff.mpr fun d member => decide_eq_false fun same => free (same ▸ member)
  rw [indexOf, Int.toNat_natCast, List.drop_left, List.findIdx?_append, nowhere, Option.none_or,
    List.findIdx?_append]
  cases found : front.findIdx? (· = c) with
  | none =>
      simp only [Option.none_or, List.findIdx?_cons, decide_true, if_true, Option.map_some]
      omega
  | some index =>
      obtain ⟨inBounds, -⟩ := List.findIdx?_eq_some_iff_getElem.mp found
      simp only [Option.some_or, Option.map_some]
      omega

/-- The last occurrence up to a position. -/
theorem lastIndexOf_eq {rest : List α} {c : α} (free : c ∉ rest) (front tail : List α)
    (start : Int) (upTo : start = front.length + rest.length) :
    lastIndexOf (front ++ c :: rest ++ tail) c start = front.length := by
  have searched : (front ++ c :: rest ++ tail).take (start + 1).toNat = front ++ c :: rest := by
    apply List.take_left'
    rw [List.length_append, List.length_cons]
    omega
  have reversed : (front ++ c :: rest).reverse = rest.reverse ++ c :: front.reverse := by simp
  have freeReverse : c ∉ rest.reverse := by simpa using free
  rw [lastIndexOf, searched, reversed, findIdx?_append_sep freeReverse]
  simp only [List.length_append, List.length_cons, List.length_reverse]
  omega

theorem lastIndexOf_of_notMem {word : List α} {c : α} (free : c ∉ word) (start : Int) :
    lastIndexOf word c start = -1 := by
  have nowhere : (word.take (start + 1).toNat).reverse.findIdx? (· = c) = none := by
    rw [List.findIdx?_eq_none_iff]
    intro d member
    exact decide_eq_false fun same =>
      free (same ▸ List.mem_of_mem_take (List.mem_reverse.mp member))
  rw [lastIndexOf, nowhere]

/-- What does not occur behind a front is found within it, if at all. -/
theorem lastIndexOf_lt {rest : List α} {c : α} (free : c ∉ rest) (front tail : List α)
    (start : Int) (upTo : start + 1 = front.length + rest.length) :
    lastIndexOf (front ++ rest ++ tail) c start < front.length := by
  have searched : (front ++ rest ++ tail).take (start + 1).toNat = front ++ rest := by
    apply List.take_left'
    rw [List.length_append]
    omega
  have nowhere : rest.reverse.findIdx? (· = c) = none := by
    rw [List.findIdx?_eq_none_iff]
    intro d member
    exact decide_eq_false fun same => free (same ▸ List.mem_reverse.mp member)
  rw [lastIndexOf, searched, List.reverse_append, List.findIdx?_append, nowhere, Option.none_or]
  cases front.reverse.findIdx? (· = c) with
  | none =>
      simp only [Option.map_none]
      omega
  | some index =>
      simp only [Option.map_some, List.length_append, List.length_reverse]
      omega

end RoundSync.Text.Java
