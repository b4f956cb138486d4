import Mathlib.Data.List.Infix

/-!
# Regions of a tree of names

A place in a tree is the list of names that leads to it from the root, so the
prefix order is the ancestor order.  A region is one place or everything at and
below one place.  Two regions meet exactly when one of them holds the root of
the other; this is what makes a check at the roots enough to keep regions
disjoint.
-/

namespace RoundSync.Tree

universe u

/-- A place, alone or with everything below it. -/
structure Region (ν : Type u) where
  root : List ν
  deep : Bool
  deriving DecidableEq

namespace Region

variable {ν : Type u}

/-- The places that belong to a region. -/
def Holds (region : Region ν) (place : List ν) : Prop :=
  if region.deep then region.root <+: place else place = region.root

theorem holds_deep_iff {root place : List ν} :
    (⟨root, true⟩ : Region ν).Holds place ↔ root <+: place := by
  simp [Holds]

theorem holds_point_iff {root place : List ν} :
    (⟨root, false⟩ : Region ν).Holds place ↔ place = root := by
  simp [Holds]

theorem holds_root (region : Region ν) : region.Holds region.root := by
  unfold Holds
  split
  · exact List.prefix_refl _
  · rfl

theorem Holds.root_prefix {region : Region ν} {place : List ν} (holds : region.Holds place) :
    region.root <+: place := by
  unfold Holds at holds
  split at holds
  · exact holds
  · rw [holds]

/-- Two regions share a place exactly when one holds the root of the other. -/
theorem meet_iff {first second : Region ν} :
    (∃ place, first.Holds place ∧ second.Holds place) ↔
      first.Holds second.root ∨ second.Holds first.root := by
  constructor
  · rintro ⟨place, inFirst, inSecond⟩
    have comparable := List.prefix_or_prefix_of_prefix inFirst.root_prefix inSecond.root_prefix
    rcases first with ⟨firstRoot, _ | _⟩
    · rw [holds_point_iff] at inFirst
      subst place
      exact .inr inSecond
    · rcases second with ⟨secondRoot, _ | _⟩
      · rw [holds_point_iff] at inSecond
        subst place
        exact .inl inFirst
      · simpa only [holds_deep_iff] using comparable
  · rintro (inFirst | inSecond)
    · exact ⟨second.root, inFirst, second.holds_root⟩
    · exact ⟨first.root, first.holds_root, inSecond⟩

/-- A region that does not hold a place meets the subtree below it exactly when
the region is rooted strictly below the place. -/
theorem meets_subtree_iff {region : Region ν} {place : List ν} (outside : ¬region.Holds place) :
    (∃ below, place <+: below ∧ region.Holds below) ↔
      place <+: region.root ∧ place ≠ region.root := by
  constructor
  · rintro ⟨below, isBelow, holds⟩
    have shared : ∃ shared, (⟨place, true⟩ : Region ν).Holds shared ∧ region.Holds shared :=
      ⟨below, holds_deep_iff.mpr isBelow, holds⟩
    rcases meet_iff.mp shared with rootBelow | placeHeld
    · refine ⟨holds_deep_iff.mp rootBelow, ?_⟩
      rintro rfl
      exact outside region.holds_root
    · exact absurd placeHeld outside
  · rintro ⟨rootBelow, _⟩
    exact ⟨region.root, rootBelow, region.holds_root⟩

end Region

end RoundSync.Tree
