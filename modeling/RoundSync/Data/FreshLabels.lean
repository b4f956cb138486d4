import Mathlib.Data.Finset.Card
import Mathlib.Data.List.Basic

/-!
# The first free label

A counter runs through labels until it finds one that is not taken.  Distinct
numbers have distinct labels, so a search that takes one step more than there
are taken labels ends at a free one.
-/

namespace RoundSync.Data

universe u

variable {κ : Type u}

/-- The first number from the counter on whose label is free, in so many steps. -/
def firstFree (label : Nat → κ) (taken : κ → Bool) : Nat → Nat → Nat
  | 0, counter => counter
  | fuel + 1, counter =>
      if taken (label counter) then firstFree label taken fuel (counter + 1) else counter

/-- A search that does not end at a free label has only seen taken ones. -/
theorem taken_of_firstFree {label : Nat → κ} {taken : κ → Bool} {fuel counter : Nat}
    (ended : taken (label (firstFree label taken fuel counter)) = true) :
    ∀ i ≤ fuel, taken (label (counter + i)) = true := by
  induction fuel generalizing counter with
  | zero =>
      intro i bound
      obtain rfl := Nat.le_zero.mp bound
      exact ended
  | succ fuel ih =>
      intro i bound
      rw [firstFree] at ended
      split at ended
      · cases i with
        | zero => assumption
        | succ i =>
            have later := ih ended i (Nat.le_of_succ_le_succ bound)
            rwa [Nat.add_right_comm] at later
      · contradiction

/-- With as many steps as there are taken labels the search ends at a free one. -/
theorem firstFree_free {label : Nat → κ} (injective : Function.Injective label)
    {taken : κ → Bool} {keys : List κ} (listed : ∀ key, taken key = true → key ∈ keys)
    (counter : Nat) :
    taken (label (firstFree label taken keys.length counter)) = false := by
  classical
  by_contra ended
  have allTaken := taken_of_firstFree (Bool.eq_true_of_not_eq_false ended)
  have seen : (Finset.range (keys.length + 1)).image (fun i => label (counter + i)) ⊆
      keys.toFinset := by
    intro key member
    obtain ⟨i, bound, rfl⟩ := Finset.mem_image.mp member
    have fits : i ≤ keys.length := Nat.le_of_lt_succ (Finset.mem_range.mp bound)
    exact List.mem_toFinset.mpr (listed _ (allTaken i fits))
  have apart : Function.Injective fun i => label (counter + i) :=
    fun _ _ equal => Nat.add_left_cancel (injective equal)
  have count := Finset.card_le_card seen
  rw [Finset.card_image_of_injective _ apart, Finset.card_range] at count
  exact absurd (count.trans (List.toFinset_card_le keys)) (Nat.not_succ_le_self _)

end RoundSync.Data
