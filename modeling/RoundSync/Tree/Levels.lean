import RoundSync.Tree.PathTree

/-!
# Levels of a tree

A walk down a tree lists the occupied places at a place and below it, as many
levels down as a limit says; a negative limit is none.  The walk from an inner
place is the place itself and the walks from its children one after another.
-/

namespace RoundSync.Tree

universe u v

/-- So many levels are within the limit. -/
def Within (limit : Int) (levels : Nat) : Prop :=
  0 ≤ limit → (levels : Int) ≤ limit

theorem within_zero (limit : Int) : Within limit 0 :=
  fun nonneg => nonneg

theorem not_within_zero_succ (levels : Nat) : ¬Within 0 (levels + 1) := by
  intro within
  have bound := within (Int.le_refl 0)
  omega

/-- The limit for the children. -/
def deeper (limit : Int) : Int :=
  if limit > 0 then limit - 1 else limit

theorem within_succ_iff {limit : Int} (more : limit ≠ 0) {levels : Nat} :
    Within limit (levels + 1) ↔ Within (deeper limit) levels := by
  unfold Within deeper
  split
  · rename_i positive
    constructor
    · intro within _
      have bound := within (Int.le_of_lt positive)
      omega
    · intro within _
      have bound := within (by omega)
      omega
  · rename_i notPositive
    constructor
    · intro _ nonneg
      omega
    · intro _ nonneg
      omega

namespace PathTree

variable {ν : Type u} {β : Type v} [DecidableEq ν] {inner : β → Prop}
  {tree : PathTree ν β inner} {top : List ν} {limit : Int}

/-- The places are those of the tree from `top` down to the limit, each once. -/
structure Enumerates (tree : PathTree ν β inner) (top : List ν) (limit : Int)
    (places : List (List ν)) : Prop where
  mem_iff : ∀ place, place ∈ places ↔
    (∃ rest, place = top ++ rest ∧ Within limit rest.length) ∧ (tree.lookup place).isSome
  nodup : places.Nodup

/-- The places are those from some children of `top` down to the limit, each
once. -/
structure EnumeratesBelow (tree : PathTree ν β inner) (top : List ν) (limit : Int)
    (names : List ν) (places : List (List ν)) : Prop where
  mem_iff : ∀ place, place ∈ places ↔
    (∃ name ∈ names, ∃ rest, place = top ++ name :: rest ∧ Within limit rest.length) ∧
      (tree.lookup place).isSome
  nodup : places.Nodup

theorem EnumeratesBelow.nil : tree.EnumeratesBelow top limit [] [] := by
  constructor
  · intro place
    constructor
    · intro absent
      exact absurd absent List.not_mem_nil
    · rintro ⟨⟨name, absent, _⟩, _⟩
      exact absurd absent List.not_mem_nil
  · exact List.nodup_nil

/-- A walk from one more child. -/
theorem EnumeratesBelow.cons {name : ν} {names : List ν} {first others : List (List ν)}
    (fresh : name ∉ names) (one : tree.Enumerates (top ++ [name]) limit first)
    (rest : tree.EnumeratesBelow top limit names others) :
    tree.EnumeratesBelow top limit (name :: names) (first ++ others) := by
  constructor
  · intro place
    rw [List.mem_append, one.mem_iff, rest.mem_iff]
    constructor
    · rintro (⟨⟨below, rfl, within⟩, found⟩ | ⟨⟨other, member, below, rfl, within⟩, found⟩)
      · refine ⟨⟨name, List.mem_cons_self, below, ?_, within⟩, found⟩
        rw [List.append_assoc, List.singleton_append]
      · exact ⟨⟨other, List.mem_cons_of_mem name member, below, rfl, within⟩, found⟩
    · rintro ⟨⟨other, member, below, rfl, within⟩, found⟩
      rcases List.mem_cons.mp member with rfl | member
      · refine .inl ⟨⟨below, ?_, within⟩, found⟩
        rw [List.append_assoc, List.singleton_append]
      · exact .inr ⟨⟨other, member, below, rfl, within⟩, found⟩
  · refine one.nodup.append rest.nodup ?_
    intro place inFirst inOthers
    obtain ⟨⟨below, placeEq, _⟩, _⟩ := (one.mem_iff place).mp inFirst
    obtain ⟨⟨other, member, below', placeEq', _⟩, _⟩ := (rest.mem_iff place).mp inOthers
    rw [placeEq, List.append_assoc, List.append_cancel_left_eq, List.singleton_append,
      List.cons.injEq] at placeEq'
    rw [placeEq'.1] at fresh
    exact fresh member

/-- A walk that stops where it begins. -/
theorem Enumerates.alone {b : β} (found : tree.lookup top = some b)
    (stops : limit = 0 ∨ ¬tree.IsInner top) : tree.Enumerates top limit [top] := by
  constructor
  · intro place
    rw [List.mem_singleton]
    constructor
    · rintro rfl
      exact ⟨⟨[], (List.append_nil place).symm, within_zero limit⟩, Option.isSome_of_eq_some found⟩
    · rintro ⟨⟨rest, rfl, within⟩, there⟩
      cases rest with
      | nil => exact List.append_nil top
      | cons name rest =>
          rcases stops with rfl | leaf
          · exact absurd within (not_within_zero_succ rest.length)
          · obtain ⟨other, foundOther⟩ := Option.isSome_iff_exists.mp there
            exact absurd (tree.isInner_of_below (List.cons_ne_nil name rest) foundOther) leaf
  · exact List.nodup_singleton top

/-- A walk that goes on to the children. -/
theorem Enumerates.cons {b : β} (found : tree.lookup top = some b) (more : limit ≠ 0)
    {names : List ν} (children : ∀ name, (tree.lookup (top ++ [name])).isSome → name ∈ names)
    {places : List (List ν)} (below : tree.EnumeratesBelow top (deeper limit) names places) :
    tree.Enumerates top limit (top :: places) := by
  constructor
  · intro place
    rw [List.mem_cons, below.mem_iff]
    constructor
    · rintro (rfl | ⟨⟨name, _, rest, rfl, within⟩, there⟩)
      · exact ⟨⟨[], (List.append_nil place).symm, within_zero limit⟩,
          Option.isSome_of_eq_some found⟩
      · exact ⟨⟨name :: rest, rfl, (within_succ_iff more).mpr within⟩, there⟩
    · rintro ⟨⟨rest, rfl, within⟩, there⟩
      cases rest with
      | nil => exact .inl (List.append_nil top)
      | cons name rest =>
          refine .inr ⟨⟨name, ?_, rest, rfl, (within_succ_iff more).mp within⟩, there⟩
          obtain ⟨other, foundOther⟩ := Option.isSome_iff_exists.mp there
          have split : top ++ name :: rest = top ++ [name] ++ rest := by
            rw [List.append_assoc, List.singleton_append]
          rw [split] at foundOther
          obtain ⟨child, foundChild⟩ := tree.lookup_above (List.prefix_append _ _) foundOther
          exact children name (Option.isSome_of_eq_some foundChild)
  · refine List.nodup_cons.mpr ⟨?_, below.nodup⟩
    intro member
    obtain ⟨⟨name, _, rest, placeEq, _⟩, _⟩ := (below.mem_iff top).mp member
    have long := congrArg List.length placeEq
    rw [List.length_append, List.length_cons] at long
    omega

end PathTree

end RoundSync.Tree
