import RoundSync.Data.Table
import Mathlib.Data.List.Infix

/-!
# Finite trees addressed by paths

A finite tree is a table from places to values that has an inner value above
every place it has.  Three operations keep this shape: planting a value below
an inner one, cutting a subtree, and grafting a subtree to a free place outside
itself.  Each comes with the lookup it leaves.
-/

namespace RoundSync.Tree

open RoundSync.Data

universe u v

section

variable {ν : Type u} {place : List ν}

theorem child_not_above {name : ν} : ¬place ++ [name] <+: place := by
  intro isPrefix
  have bound := isPrefix.length_le
  rw [List.length_append, List.length_singleton] at bound
  omega

theorem sibling_above_iff {one two : ν} : place ++ [one] <+: place ++ [two] ↔ one = two := by
  constructor
  · intro isPrefix
    have same := isPrefix.eq_of_length (by simp)
    exact List.singleton_inj.mp (List.append_cancel_left same)
  · rintro rfl
    exact List.prefix_refl _

end

/-- A tree of values; only the values that are `inner` have something below. -/
structure PathTree (ν : Type u) (β : Type v) [DecidableEq ν] (inner : β → Prop) where
  table : Table (List ν) β
  root : ∃ b, table.lookup [] = some b ∧ inner b
  closed : ∀ place name b, table.lookup (place ++ [name]) = some b →
    ∃ a, table.lookup place = some a ∧ inner a

namespace PathTree

variable {ν : Type u} {β : Type v} [DecidableEq ν] {inner : β → Prop}

def lookup (tree : PathTree ν β inner) (place : List ν) : Option β :=
  tree.table.lookup place

/-- The place is there and can have something below. -/
def IsInner (tree : PathTree ν β inner) (place : List ν) : Prop :=
  ∃ a, tree.lookup place = some a ∧ inner a

instance [DecidablePred inner] (tree : PathTree ν β inner) (place : List ν) :
    Decidable (tree.IsInner place) :=
  match found : tree.lookup place with
  | none => .isFalse (by simp [IsInner, found])
  | some a => decidable_of_iff (inner a) (by simp [IsInner, found])

theorem ext_table {first second : PathTree ν β inner}
    (equal : first.table.entries = second.table.entries) : first = second := by
  cases first
  cases second
  simpa using AList.ext equal

/-- Everything above an occupied place is inner. -/
theorem isInner_of_below (tree : PathTree ν β inner) {place rest : List ν} {b : β}
    (below : rest ≠ []) (found : tree.lookup (place ++ rest) = some b) : tree.IsInner place := by
  induction rest using List.reverseRecOn generalizing b with
  | nil => exact absurd rfl below
  | append_singleton rest name ih =>
      rw [← List.append_assoc] at found
      obtain ⟨a, foundParent, parentInner⟩ := tree.closed _ _ _ found
      by_cases empty : rest = []
      · subst rest
        rw [List.append_nil] at foundParent
        exact ⟨a, foundParent, parentInner⟩
      · exact ih empty foundParent

theorem lookup_above (tree : PathTree ν β inner) {place other : List ν} {b : β}
    (isPrefix : place <+: other) (found : tree.lookup other = some b) :
    ∃ a, tree.lookup place = some a := by
  obtain ⟨rest, rfl⟩ := isPrefix
  by_cases empty : rest = []
  · subst rest
    rw [List.append_nil] at found
    exact ⟨b, found⟩
  · obtain ⟨a, foundPlace, _⟩ := tree.isInner_of_below empty found
    exact ⟨a, foundPlace⟩

theorem lookup_none_below (tree : PathTree ν β inner) {place other : List ν}
    (absent : tree.lookup place = none) (isPrefix : place <+: other) :
    tree.lookup other = none := by
  cases found : tree.lookup other with
  | none => rfl
  | some b =>
      obtain ⟨a, foundPlace⟩ := tree.lookup_above isPrefix found
      rw [absent] at foundPlace
      contradiction

/-- An upper bound on the length of the occupied places. -/
def depth (tree : PathTree ν β inner) : Nat :=
  (tree.table.keys.map List.length).foldr max 0

theorem length_le_depth (tree : PathTree ν β inner) {place : List ν} {b : β}
    (found : tree.lookup place = some b) : place.length ≤ tree.depth := by
  have member : place ∈ tree.table.keys :=
    AList.mem_keys.mp (AList.lookup_isSome.mp (Option.isSome_of_eq_some found))
  rw [depth]
  generalize tree.table.keys = keys at member
  induction keys with
  | nil => contradiction
  | cons key keys ih =>
      rw [List.map_cons, List.foldr_cons]
      rcases List.mem_cons.mp member with rfl | member
      · exact Nat.le_max_left _ _
      · exact (ih member).trans (Nat.le_max_right _ _)

/-! ## Children -/

/-- The name of an entry that stands directly below a place. -/
def childName (place other : List ν) : Option ν :=
  if other.dropLast = place then other.getLast? else none

theorem childName_eq_some_iff {place other : List ν} {name : ν} :
    childName place other = some name ↔ other = place ++ [name] := by
  unfold childName
  constructor
  · intro named
    split at named
    · rename_i parent
      rw [← parent]
      exact (List.dropLast_append_getLast? name named).symm
    · contradiction
  · rintro rfl
    simp

/-- Name and value of everything directly below a place, in table order. -/
def children (tree : PathTree ν β inner) (place : List ν) : List (ν × β) :=
  tree.table.entries.filterMap fun entry => (childName place entry.1).map (·, entry.2)

theorem mem_children_iff {tree : PathTree ν β inner} {place : List ν} {name : ν} {b : β} :
    (name, b) ∈ tree.children place ↔ tree.lookup (place ++ [name]) = some b := by
  rw [lookup, ← Option.mem_def, AList.mem_lookup_iff, children, List.mem_filterMap]
  constructor
  · rintro ⟨⟨other, found⟩, member, equal⟩
    obtain ⟨child, named, pairEq⟩ := Option.map_eq_some_iff.mp equal
    obtain ⟨rfl, rfl⟩ := Prod.mk.inj pairEq
    rwa [← childName_eq_some_iff.mp named]
  · intro member
    refine ⟨_, member, ?_⟩
    rw [childName_eq_some_iff.mpr rfl]
    rfl

theorem children_nodup (tree : PathTree ν β inner) (place : List ν) :
    ((tree.children place).map Prod.fst).Nodup := by
  have byKeys : (tree.children place).map Prod.fst =
      tree.table.keys.filterMap (childName place) := by
    rw [children, List.map_filterMap, AList.keys, List.keys, List.filterMap_map]
    congr 1
    funext entry
    rw [Option.map_map, Function.comp_def, Function.comp_def]
    exact Option.map_id'
  rw [byKeys]
  apply List.Nodup.filterMap _ tree.table.keys_nodup
  intro first second name firstNamed secondNamed
  rw [childName_eq_some_iff.mp firstNamed, childName_eq_some_iff.mp secondNamed]

/-! ## Planting -/

/-- Put a value at a free place below an inner one. -/
def plant (tree : PathTree ν β inner) (place : List ν) (name : ν) (b : β)
    (parent : tree.IsInner place) (free : tree.lookup (place ++ [name]) = none) :
    PathTree ν β inner where
  table := tree.table.insert (place ++ [name]) b
  root := by
    obtain ⟨a, found, isInner⟩ := tree.root
    refine ⟨a, Table.lookup_insert_eq_some_iff.mpr (.inr ⟨?_, found⟩), isInner⟩
    simp
  closed := by
    intro other child c found
    have parentOf : ∃ a, tree.table.lookup other = some a ∧ inner a := by
      rcases Table.lookup_insert_eq_some_iff.mp found with ⟨equal, _⟩ | ⟨_, found⟩
      · rw [(List.append_inj' equal rfl).1]
        exact parent
      · exact tree.closed other child c found
    obtain ⟨a, foundOther, isInner⟩ := parentOf
    refine ⟨a, Table.lookup_insert_eq_some_iff.mpr (.inr ⟨?_, foundOther⟩), isInner⟩
    rintro rfl
    rw [lookup] at free
    rw [free] at foundOther
    contradiction

theorem lookup_plant {tree : PathTree ν β inner} {place : List ν} {name : ν} {b : β}
    {parent : tree.IsInner place} {free : tree.lookup (place ++ [name]) = none}
    (other : List ν) :
    (tree.plant place name b parent free).lookup other =
      if other = place ++ [name] then some b else tree.lookup other := by
  split
  · rename_i same
    subst other
    exact AList.lookup_insert _
  · rename_i different
    exact AList.lookup_insert_ne different

/-! ## Cutting -/

/-- Remove a place and everything below it. -/
def cut (tree : PathTree ν β inner) (place : List ν) (nonroot : place ≠ []) :
    PathTree ν β inner where
  table := tree.table.keepKeys fun other => !decide (place <+: other)
  root := by
    obtain ⟨a, found, isInner⟩ := tree.root
    refine ⟨a, Table.lookup_keepKeys_eq_some_iff.mpr ⟨found, ?_⟩, isInner⟩
    simpa using nonroot
  closed := by
    intro other child b found
    obtain ⟨found, outside⟩ := Table.lookup_keepKeys_eq_some_iff.mp found
    obtain ⟨a, foundOther, isInner⟩ := tree.closed other child b found
    refine ⟨a, Table.lookup_keepKeys_eq_some_iff.mpr ⟨foundOther, ?_⟩, isInner⟩
    simp only [Bool.not_eq_true', decide_eq_false_iff_not] at outside ⊢
    exact fun isPrefix => outside (isPrefix.trans (List.prefix_append _ _))

theorem lookup_cut {tree : PathTree ν β inner} {place : List ν} {nonroot : place ≠ []}
    (other : List ν) :
    (tree.cut place nonroot).lookup other =
      if place <+: other then none else tree.lookup other := by
  ext b
  rw [lookup, cut, Table.lookup_keepKeys_eq_some_iff, ← lookup]
  split
  · rename_i isPrefix
    simp [isPrefix]
  · rename_i outside
    simp [outside]

/-! ## Grafting -/

/-- Where a place goes when the subtree at `source` is moved to `target`. -/
def rebase (source target other : List ν) : List ν :=
  if source <+: other then target ++ other.drop source.length else other

@[simp]
theorem rebase_append (source target rest : List ν) :
    rebase source target (source ++ rest) = target ++ rest := by
  simp [rebase]

theorem rebase_outside {source other : List ν} (outside : ¬source <+: other)
    (target : List ν) : rebase source target other = other :=
  if_neg outside

theorem rebase_rebase {source target other : List ν} (free : ¬target <+: other) :
    rebase target source (rebase source target other) = other := by
  by_cases isPrefix : source <+: other
  · obtain ⟨rest, rfl⟩ := isPrefix
    rw [rebase_append, rebase_append]
  · rw [rebase_outside isPrefix, rebase_outside free]

/-- Nothing of the tree arrives where something already is. -/
theorem rebase_apart (tree : PathTree ν β inner) {source target : List ν}
    (free : tree.lookup target = none) :
    ∀ first ∈ tree.table.keys, ∀ second ∈ tree.table.keys,
      rebase source target first = rebase source target second → first = second := by
  have vacant : ∀ key ∈ tree.table.keys, ¬target <+: key := by
    intro key member isPrefix
    have occupied : (tree.lookup key).isSome :=
      AList.lookup_isSome.mpr (AList.mem_keys.mpr member)
    rw [tree.lookup_none_below free isPrefix] at occupied
    contradiction
  intro first firstMember second secondMember equal
  have restored := congrArg (rebase target source) equal
  rwa [rebase_rebase (vacant first firstMember), rebase_rebase (vacant second secondMember)]
    at restored

variable (tree : PathTree ν β inner) (source place : List ν) (name : ν)

/-- Move the subtree at `source` to a free place outside itself. -/
def graft (nonroot : source ≠ []) (parent : tree.IsInner place) (outside : ¬source <+: place)
    (free : tree.lookup (place ++ [name]) = none) : PathTree ν β inner where
  table := tree.table.mapKeys (rebase source (place ++ [name])) (tree.rebase_apart free)
  root := by
    obtain ⟨a, found, isInner⟩ := tree.root
    refine ⟨a, Table.lookup_mapKeys_eq_some_iff.mpr ⟨[], rebase_outside ?_ _, found⟩, isInner⟩
    simpa using nonroot
  closed := by
    -- an inner place is still inner where it arrives
    have moved : ∀ old other, rebase source (place ++ [name]) old = other → tree.IsInner old →
        ∃ a, (tree.table.mapKeys (rebase source (place ++ [name])) (tree.rebase_apart free)).lookup
          other = some a ∧ inner a := by
      rintro old other arrives ⟨a, found, isInner⟩
      exact ⟨a, Table.lookup_mapKeys_eq_some_iff.mpr ⟨old, arrives, found⟩, isInner⟩
    intro other child b found
    obtain ⟨old, oldEq, foundOld⟩ := Table.lookup_mapKeys_eq_some_iff.mp found
    by_cases isPrefix : source <+: old
    · obtain ⟨rest, rfl⟩ := isPrefix
      rw [rebase_append] at oldEq
      rcases List.eq_nil_or_concat rest with rfl | ⟨front, last, rfl⟩
      · rw [List.append_nil] at oldEq
        apply moved place other _ parent
        rw [rebase_outside outside, (List.append_inj' oldEq rfl).1]
      · rw [List.concat_eq_append, ← List.append_assoc] at oldEq foundOld
        apply moved (source ++ front) other _ (tree.closed _ _ _ foundOld)
        rw [rebase_append, (List.append_inj' oldEq rfl).1]
    · rw [rebase_outside isPrefix] at oldEq
      subst oldEq
      have otherOutside : ¬source <+: other := fun above =>
        isPrefix (above.trans (List.prefix_append _ _))
      exact moved other other (rebase_outside otherOutside _) (tree.closed _ _ _ foundOld)

variable {tree source place name} {nonroot : source ≠ []} {parent : tree.IsInner place}
  {outside : ¬source <+: place} {free : tree.lookup (place ++ [name]) = none}

theorem lookup_graft_eq_some_iff {other : List ν} {b : β} :
    (tree.graft source place name nonroot parent outside free).lookup other = some b ↔
      ∃ old, rebase source (place ++ [name]) old = other ∧ tree.lookup old = some b :=
  @Table.lookup_mapKeys_eq_some_iff _ _ _ _ _ (tree.rebase_apart free) _ _

/-- The moved subtree. -/
theorem lookup_graft_target (rest : List ν) :
    (tree.graft source place name nonroot parent outside free).lookup (place ++ [name] ++ rest) =
      tree.lookup (source ++ rest) := by
  ext b
  rw [lookup_graft_eq_some_iff]
  constructor
  · rintro ⟨old, oldEq, found⟩
    have vacant : ¬place ++ [name] <+: old := by
      intro isPrefix
      rw [tree.lookup_none_below free isPrefix] at found
      contradiction
    have restored := congrArg (rebase (place ++ [name]) source) oldEq
    rw [rebase_rebase vacant, rebase_append] at restored
    rwa [← restored]
  · intro found
    exact ⟨source ++ rest, rebase_append _ _ _, found⟩

/-- The rest of the tree without the subtree that moved. -/
theorem lookup_graft_other {other : List ν} (apart : ¬place ++ [name] <+: other) :
    (tree.graft source place name nonroot parent outside free).lookup other =
      if source <+: other then none else tree.lookup other := by
  ext b
  rw [lookup_graft_eq_some_iff]
  constructor
  · rintro ⟨old, rfl, found⟩
    by_cases isPrefix : source <+: old
    · obtain ⟨rest, rfl⟩ := isPrefix
      rw [rebase_append] at apart
      exact absurd (List.prefix_append _ _) apart
    · rwa [rebase_outside isPrefix, if_neg isPrefix]
  · intro found
    split at found
    · contradiction
    · rename_i notPrefix
      exact ⟨other, rebase_outside notPrefix _, found⟩

/-- What every place holds when the subtree at `source` has moved to a free place,
and nothing else has changed. -/
def movedLookup (tree : PathTree ν β inner) (source target other : List ν) : Option β :=
  if target <+: other then tree.lookup (source ++ other.drop target.length)
  else if source <+: other then none
  else tree.lookup other

theorem lookup_graft (other : List ν) :
    (tree.graft source place name nonroot parent outside free).lookup other =
      tree.movedLookup source (place ++ [name]) other := by
  rw [movedLookup]
  split
  case isTrue isPrefix =>
    obtain ⟨rest, rfl⟩ := isPrefix
    rw [lookup_graft_target, List.drop_left]
  case isFalse apart => exact lookup_graft_other apart

/-- From where a subtree has moved, and to where, can be told from the tree it
leaves. -/
theorem graft_unique {source' target : List ν} (vacant : tree.lookup target = none)
    {b : β} (found : tree.lookup source = some b)
    (moved : ∀ other, (tree.graft source place name nonroot parent outside free).lookup other =
      tree.movedLookup source' target other) :
    source = source' ∧ place ++ [name] = target := by
  have absent : ∀ {occupied : List ν} {c : β}, tree.lookup occupied = some c →
      ¬target <+: occupied := by
    intro occupied c foundHere isPrefix
    rw [tree.lookup_none_below vacant isPrefix] at foundHere
    contradiction
  have both : ∀ other, tree.movedLookup source (place ++ [name]) other =
      tree.movedLookup source' target other := fun other => (lookup_graft other).symm.trans (moved other)
  -- what has arrived is below the one target
  have arrived := both (place ++ [name])
  rw [movedLookup, if_pos List.prefix_rfl, List.drop_length, List.append_nil, found,
    movedLookup] at arrived
  split at arrived
  case isFalse =>
    split at arrived
    · contradiction
    · rw [free] at arrived
      contradiction
  case isTrue below =>
    obtain ⟨a, foundSource⟩ := tree.lookup_above (List.prefix_append source' _) arrived.symm
    -- and what should have arrived is below the other one
    have expected := both target
    rw [movedLookup, movedLookup, if_pos List.prefix_rfl, List.drop_length, List.append_nil,
      foundSource] at expected
    have same : place ++ [name] = target := by
      split at expected
      case isTrue above => exact above.eq_of_length_le below.length_le
      case isFalse =>
        split at expected
        · contradiction
        · rw [vacant] at expected
          contradiction
    refine ⟨?_, same⟩
    have leaves := both source
    have left := both source'
    rw [movedLookup, movedLookup, same, if_neg (absent found), if_neg (absent found),
      if_pos List.prefix_rfl, found] at leaves
    rw [movedLookup, movedLookup, same, if_neg (absent foundSource), if_neg (absent foundSource),
      if_pos List.prefix_rfl, foundSource] at left
    have above : source' <+: source := by
      by_contra apart
      rw [if_neg apart] at leaves
      contradiction
    have beneath : source <+: source' := by
      by_contra apart
      rw [if_neg apart] at left
      contradiction
    exact beneath.eq_of_length_le above.length_le

/-- Moving a subtree back restores the tree with its order. -/
theorem graft_graft {tree : PathTree ν β inner} {front place : List ν} {last name : ν}
    {nonroot : front ++ [last] ≠ []} {parent : tree.IsInner place}
    {outside : ¬front ++ [last] <+: place} {free : tree.lookup (place ++ [name]) = none}
    {nonroot' : place ++ [name] ≠ []}
    {parent' : (tree.graft (front ++ [last]) place name nonroot parent outside free).IsInner front}
    {outside' : ¬place ++ [name] <+: front}
    {free' : (tree.graft (front ++ [last]) place name nonroot parent outside free).lookup
      (front ++ [last]) = none} :
    (tree.graft (front ++ [last]) place name nonroot parent outside free).graft
      (place ++ [name]) front last nonroot' parent' outside' free' = tree := by
  apply ext_table
  simp only [graft, Table.mapKeys, List.map_map]
  conv => rhs; rw [← List.map_id tree.table.entries]
  apply List.map_congr_left
  rintro ⟨key, b⟩ member
  have found : tree.lookup key = some b := AList.mem_lookup_iff.mpr member
  have vacant : ¬place ++ [name] <+: key := by
    intro isPrefix
    rw [tree.lookup_none_below free isPrefix] at found
    contradiction
  simp [rebase_rebase vacant]

end PathTree

end RoundSync.Tree
