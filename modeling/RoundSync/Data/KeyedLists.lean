import RoundSync.Data.Comparators
import Mathlib.Data.List.Perm.Subperm
import Mathlib.Data.List.Nodup

/-!
# Lists of entries with keys

The operations of a list class whose items are equal if their keys are, as in `indexOf`,
`removeAll` and `retainAll`, and an editing of one list towards another: the entries that
the target has in addition are inserted one after the other, each at its index in the
target.  The editing arrives exactly where the entries of both lists stand in the same
order.
-/

namespace RoundSync.Data.KeyedLists

open Std (OrientedCmp)

universe u v

variable {α : Type u} {κ : Type v} [DecidableEq κ] (key : α → κ)

/-- `List.contains`. -/
def Contains (list : List α) (item : α) : Prop :=
  key item ∈ list.map key

instance (list : List α) (item : α) : Decidable (Contains key list item) :=
  inferInstanceAs (Decidable (key item ∈ list.map key))

def indexOf (list : List α) (item : α) : Option Nat :=
  list.findIdx? fun other => key other = key item

/-- `List.remove` of an item: the first equal one. -/
def remove (list : List α) (item : α) : List α :=
  list.eraseP fun other => key other = key item

def removeAll (list other : List α) : List α :=
  list.filter fun item => ¬Contains key other item

def retainAll (list other : List α) : List α :=
  list.filter fun item => Contains key other item

/-- `List.add` at the index in the target; an index behind the end throws. -/
def insertAt (target list : List α) (item : α) : Option (List α) :=
  match indexOf key target item with
  | none => none
  | some index => if index ≤ list.length then some (list.insertIdx index item) else none

def insertAll (target list items : List α) : Option (List α) :=
  items.foldlM (insertAt key target) list

/-- An item as another list has it. -/
def refreshed (list : List α) (item : α) : α :=
  (list.find? fun other => key other = key item).getD item

variable {key}

omit [DecidableEq κ] in
theorem contains_of_mem {list : List α} {item : α} (member : item ∈ list) :
    Contains key list item :=
  List.mem_map_of_mem member

/-! ## Removing -/

theorem eraseIdx_indexOf {list : List α} {item : α} {index : Nat}
    (found : indexOf key list item = some index) :
    list.eraseIdx index = remove key list item := by
  rw [remove, List.eraseP_eq_eraseIdx]
  rw [indexOf] at found
  rw [found]

theorem exists_indexOf {list : List α} {item : α} (contained : Contains key list item) :
    ∃ index, indexOf key list item = some index := by
  obtain ⟨other, member, same⟩ := List.mem_map.mp contained
  exact Option.isSome_iff_exists.mp
    (List.findIdx?_isSome.trans (List.any_eq_true.mpr ⟨other, member, decide_eq_true same⟩))

theorem map_remove (list : List α) (item : α) :
    (remove key list item).map key = (list.map key).erase (key item) := by
  induction list with
  | nil => rfl
  | cons head tail ih =>
      by_cases same : key head = key item
      · rw [remove, List.eraseP_cons_of_pos (by simpa using same), List.map_cons, same,
          List.erase_cons_head]
      · rw [remove, List.eraseP_cons_of_neg (by simpa using same), List.map_cons, List.map_cons,
          List.erase_cons_tail (by simpa using same), ← ih, remove]

theorem remove_sublist (list : List α) (item : α) : (remove key list item).Sublist list :=
  List.eraseP_sublist

theorem remove_of_not_contains {list : List α} {item : α}
    (absent : ¬Contains key list item) : remove key list item = list := by
  apply List.eraseP_of_forall_not
  intro other member same
  exact absurd (List.mem_map.mpr ⟨other, member, of_decide_eq_true same⟩) absent

/-- Removing an item from two lists keeps the one within the other. -/
theorem subperm_remove {list other : List α} (item : α)
    (within : (list.map key).Subperm (other.map key)) :
    ((remove key list item).map key).Subperm ((remove key other item).map key) := by
  rw [map_remove, map_remove]
  exact within.erase (key item)

omit [DecidableEq κ] in
/-- Items with equal keys are equally contained. -/
theorem contains_congr (list : List α) {one other : α} (same : key one = key other) :
    Contains key list one ↔ Contains key list other := by
  simp only [Contains, same]

section

variable {test : α → Bool} {list rest : List α} {item : α}

theorem filter_remove_of_neg (respects : ∀ one other, key one = key other → test one = test other)
    (out : test item = false) : (remove key list item).filter test = list.filter test := by
  induction list with
  | nil => rfl
  | cons head tail ih =>
      by_cases same : key head = key item
      · have headOut : test head = false := (respects head item same).trans out
        rw [remove, List.eraseP_cons_of_pos (by simpa using same),
          List.filter_cons_of_neg (by simpa using headOut)]
      · rw [remove, List.eraseP_cons_of_neg (by simpa using same), List.filter_cons,
          List.filter_cons, ← ih, remove]

/-- Of the items meeting a test, removing the first removes just this one. -/
theorem filter_remove_head (respects : ∀ one other, key one = key other → test one = test other)
    (first : list.filter test = item :: rest) :
    (remove key list item).filter test = rest := by
  induction list with
  | nil => cases first
  | cons head tail ih =>
      cases tested : test head with
      | true =>
          rw [List.filter_cons_of_pos tested] at first
          obtain ⟨rfl, tailEq⟩ := List.cons.inj first
          rwa [remove, List.eraseP_cons_of_pos (by simp)]
      | false =>
          rw [List.filter_cons_of_neg (by simp [tested])] at first
          have itemTested : test item = true :=
            (List.mem_filter.mp (first ▸ List.mem_cons_self)).2
          have apart : key head ≠ key item := by
            intro same
            rw [respects head item same, itemTested] at tested
            cases tested
          rw [remove, List.eraseP_cons_of_neg (by simpa using apart),
            List.filter_cons_of_neg (by simp [tested])]
          exact ih first

end

/-- Removing what another list lacks keeps what it has. -/
theorem retainAll_remove {list other : List α} {item : α} (lacked : ¬Contains key other item) :
    retainAll key (remove key list item) other = retainAll key list other := by
  have out : decide (Contains key other item) = false := decide_eq_false lacked
  apply @filter_remove_of_neg α κ _ key (fun found => decide (Contains key other found)) list item
  · intro one another same
    simp only [contains_congr other same]
  · exact out

theorem removeAll_remove_head {list other rest : List α} {item : α}
    (first : removeAll key list other = item :: rest) :
    removeAll key (remove key list item) other = rest := by
  apply filter_remove_head _ first
  intro one another same
  simp only [contains_congr other same]

theorem retainAll_eq_self {list other : List α} (within : ∀ item ∈ list, Contains key other item) :
    retainAll key list other = list :=
  List.filter_eq_self.mpr fun item member => decide_eq_true (within item member)

theorem retainAll_of_removeAll_eq_nil {list other : List α}
    (none : removeAll key list other = []) : retainAll key list other = list := by
  apply retainAll_eq_self
  intro item member
  have kept := List.filter_eq_nil_iff.mp none item member
  simpa using kept

/-- For the items of another list it does not matter whether those that it lacks are
gone. -/
theorem contains_retainAll {list other : List α} {item : α} (member : item ∈ other) :
    Contains key (retainAll key list other) item ↔ Contains key list item := by
  constructor
  · intro contained
    obtain ⟨found, foundMember, same⟩ := List.mem_map.mp contained
    exact List.mem_map.mpr ⟨found, (List.mem_filter.mp foundMember).1, same⟩
  · intro contained
    obtain ⟨found, foundMember, same⟩ := List.mem_map.mp contained
    have foundContained : Contains key other found :=
      (contains_congr other same).mpr (contains_of_mem member)
    exact List.mem_map.mpr
      ⟨found, List.mem_filter.mpr ⟨foundMember, decide_eq_true foundContained⟩, same⟩

theorem removeAll_retainAll (list other : List α) :
    removeAll key other (retainAll key list other) = removeAll key other list := by
  apply List.filter_congr
  intro item member
  exact decide_eq_decide.mpr (not_congr (contains_retainAll member))

theorem retainAll_retainAll (list other : List α) :
    retainAll key other (retainAll key list other) = retainAll key other list := by
  apply List.filter_congr
  intro item member
  exact decide_eq_decide.mpr (contains_retainAll member)

/-- An item of a list is among those that stay exactly if the other list has it. -/
theorem contains_retained {list other : List α} {item : α} (member : item ∈ list) :
    Contains key (retainAll key list other) item ↔ Contains key other item := by
  constructor
  · intro contained
    obtain ⟨found, foundMember, same⟩ := List.mem_map.mp contained
    exact (contains_congr other same).mp (of_decide_eq_true (List.mem_filter.mp foundMember).2)
  · intro contained
    exact contains_of_mem (List.mem_filter.mpr ⟨member, decide_eq_true contained⟩)

/-! ## Inserting -/

theorem filter_insertIdx_of_neg {test : α → Bool} {item : α} (out : test item = false)
    (list : List α) (index : Nat) :
    (list.insertIdx index item).filter test = list.filter test := by
  induction list generalizing index with
  | nil =>
      cases index with
      | zero => exact List.filter_cons_of_neg (by simp [out])
      | succ index => rfl
  | cons head tail ih =>
      cases index with
      | zero => exact List.filter_cons_of_neg (by simp [out])
      | succ index =>
          rw [List.insertIdx_succ_cons, List.filter_cons, List.filter_cons, ih]

/-- Inserting keeps the order of the items that are there. -/
theorem filter_insertAll {test : α → Bool} {target list items next : List α}
    (out : ∀ item ∈ items, test item = false)
    (inserted : insertAll key target list items = some next) :
    next.filter test = list.filter test := by
  induction items generalizing list with
  | nil =>
      cases inserted
      rfl
  | cons item items ih =>
      obtain ⟨middle, step, rest⟩ := Option.bind_eq_some_iff.mp inserted
      rw [ih (fun item member => out item (List.mem_cons_of_mem _ member)) rest]
      rw [insertAt] at step
      split at step
      next => cases step
      next index _ =>
          split_ifs at step
          cases step
          exact filter_insertIdx_of_neg (out item List.mem_cons_self) list index

/-- The index of an item in a list with distinct keys. -/
theorem indexOf_of_split {before after : List α} {item : α}
    (distinct : ((before ++ item :: after).map key).Nodup) :
    indexOf key (before ++ item :: after) item = some before.length := by
  have absent : before.findIdx? (fun other => key other = key item) = none := by
    apply List.findIdx?_eq_none_iff.mpr
    intro other member
    rw [List.map_append, List.map_cons] at distinct
    have apart := (List.nodup_append.mp distinct).2.2 (key other) (List.mem_map_of_mem member)
      (key item) List.mem_cons_self
    exact decide_eq_false apart
  rw [indexOf, List.findIdx?_append, absent, Option.none_or, List.findIdx?_cons,
    if_pos (decide_eq_true rfl), Option.map_some, Nat.zero_add]

theorem insertIdx_append (front back : List α) (item : α) :
    (front ++ back).insertIdx front.length item = front ++ item :: back := by
  induction front with
  | nil => rfl
  | cons head front ih =>
      rw [List.cons_append, List.length_cons, List.insertIdx_succ_cons, ih, List.cons_append]

/-- The insertions on the part of the target that is still ahead.  In front of it the list
has the keys of the target; behind, those of the target that stay. -/
theorem insertAll_split {stays : α → Bool} {before after front back : List α}
    (distinct : ((before ++ after).map key).Nodup) (frontEq : front.map key = before.map key)
    (backEq : back.map key = (after.filter stays).map key) :
    ∃ next, insertAll key (before ++ after) (front ++ back)
        (after.filter fun item => !stays item) = some next ∧
      next.map key = (before ++ after).map key := by
  induction after generalizing before front back with
  | nil =>
      have backNil : back = [] := List.map_eq_nil_iff.mp backEq
      subst backNil
      exact ⟨front, by rw [List.append_nil front]; rfl, by rw [frontEq, List.append_nil]⟩
  | cons item after ih =>
      have moved : before ++ item :: after = (before ++ [item]) ++ after := by
        rw [List.append_assoc, List.singleton_append]
      cases kept : stays item with
      | true =>
          rw [List.filter_cons_of_pos kept, List.map_cons] at backEq
          obtain ⟨head, back, rfl, headEq, backEq⟩ := List.map_eq_cons_iff.mp backEq
          have frontMoved : front ++ head :: back = (front ++ [head]) ++ back := by
            rw [List.append_assoc, List.singleton_append]
          rw [List.filter_cons_of_neg (by simp [kept]), moved, frontMoved]
          rw [moved] at distinct
          refine ih distinct ?_ backEq
          rw [List.map_append, List.map_append, frontEq, List.map_singleton, List.map_singleton,
            headEq]
      | false =>
          rw [List.filter_cons_of_neg (by simp [kept])] at backEq
          have sameLength : front.length = before.length := by
            simpa using congrArg List.length frontEq
          have inserted : insertAt key (before ++ item :: after) (front ++ back) item =
              some ((front ++ [item]) ++ back) := by
            rw [insertAt, indexOf_of_split distinct, ← sameLength]
            simp only [List.length_append, Nat.le_add_right, if_true, insertIdx_append,
              List.append_assoc, List.singleton_append]
          rw [List.filter_cons_of_pos (by simp [kept]), insertAll, List.foldlM_cons, inserted]
          rw [moved] at distinct ⊢
          refine ih distinct ?_ backEq
          rw [List.map_append, List.map_append, frontEq]

omit [DecidableEq κ] in
theorem map_filter_key {test : κ → Bool} (list : List α) :
    (list.filter fun item => test (key item)).map key = (list.map key).filter test := by
  rw [List.filter_map]
  rfl

/-- Inserting what a list lacks arrives at the target exactly if the items of the list
stand in the order of the target. -/
theorem insertAll_missing_iff {target list : List α} (distinct : (target.map key).Nodup) :
    (∃ next, insertAll key target list (removeAll key target list) = some next ∧
        next.map key = target.map key) ↔
      list.map key = (retainAll key target list).map key := by
  constructor
  · rintro ⟨next, inserted, keysEq⟩
    have out : ∀ item ∈ removeAll key target list,
        decide (Contains key list item) = false := by
      intro item member
      simpa using (List.mem_filter.mp member).2
    have kept := filter_insertAll out inserted
    have all : (list.filter fun item => decide (Contains key list item)) = list :=
      List.filter_eq_self.mpr fun item member => decide_eq_true (contains_of_mem member)
    rw [all] at kept
    have throughKeys : ∀ other : List α,
        (other.filter fun item => decide (Contains key list item)).map key =
          (other.map key).filter fun k => decide (k ∈ list.map key) := by
      intro other
      exact @map_filter_key α κ key (fun k => decide (k ∈ list.map key)) other
    calc list.map key
        = (next.filter fun item => decide (Contains key list item)).map key := by rw [kept]
      _ = (target.map key).filter fun k => decide (k ∈ list.map key) := by
          rw [throughKeys, keysEq]
      _ = (retainAll key target list).map key := (throughKeys target).symm
  · intro inOrder
    have result := @insertAll_split α κ _ key (fun item => decide (Contains key list item))
      [] target [] list distinct rfl inOrder
    simpa only [List.nil_append, removeAll, decide_not] using result

theorem forall₂_insertIdx {related : α → α → Prop} {list other : List α} {item : α}
    (pairs : List.Forall₂ related list other) (reflexive : related item item) (index : Nat) :
    List.Forall₂ related (list.insertIdx index item) (other.insertIdx index item) := by
  induction pairs generalizing index with
  | nil =>
      cases index with
      | zero => exact .cons reflexive .nil
      | succ index => exact .nil
  | cons head tail ih =>
      cases index with
      | zero => exact .cons reflexive (.cons head tail)
      | succ index => exact .cons head (ih index)

/-- Where the items are inserted does not depend on those that are there. -/
theorem insertAll_forall₂ {related : α → α → Prop} {target list other items next : List α}
    (pairs : List.Forall₂ related list other) (reflexive : ∀ item ∈ items, related item item)
    (inserted : insertAll key target other items = some next) :
    ∃ result, insertAll key target list items = some result ∧
      List.Forall₂ related result next := by
  induction items generalizing list other with
  | nil =>
      cases inserted
      exact ⟨list, rfl, pairs⟩
  | cons item items ih =>
      rw [insertAll, List.foldlM_cons] at inserted
      obtain ⟨middle, first, rest⟩ := Option.bind_eq_some_iff.mp inserted
      rw [insertAt] at first
      split at first
      · contradiction
      · rename_i index found
        split_ifs at first with inside
        cases first
        obtain ⟨result, resultEq, resultPairs⟩ :=
          ih (forall₂_insertIdx pairs (reflexive item List.mem_cons_self) index)
            (fun other member => reflexive other (List.mem_cons_of_mem _ member)) rest
        refine ⟨result, ?_, resultPairs⟩
        have step : insertAt key target list item = some (list.insertIdx index item) := by
          rw [insertAt, found]
          exact if_pos (pairs.length_eq ▸ inside)
        rw [insertAll, List.foldlM_cons, step]
        exact resultEq

/-! ## Replacing -/

theorem key_refreshed (list : List α) (item : α) : key (refreshed key list item) = key item := by
  rw [refreshed]
  cases found : list.find? fun other => key other = key item with
  | none => rfl
  | some other => simpa using List.find?_some found

theorem refreshed_of_mem {list : List α} {old item : α} (distinct : (list.map key).Nodup)
    (member : item ∈ list) (same : key old = key item) : refreshed key list old = item := by
  rw [refreshed]
  cases found : list.find? fun other => key other = key old with
  | none =>
      have apart := List.find?_eq_none.mp found item member
      simp [same] at apart
  | some other =>
      have equal : key other = key old := by simpa using List.find?_some found
      exact List.inj_on_of_nodup_map distinct (List.mem_of_find?_eq_some found) member
        (equal.trans same)

theorem map_refreshed {list wanted target : List α} (distinct : (target.map key).Nodup)
    (within : wanted ⊆ target) (keysEq : list.map key = wanted.map key) :
    list.map (refreshed key target) = wanted := by
  induction list generalizing wanted with
  | nil => exact (List.map_eq_nil_iff.mp keysEq.symm).symm
  | cons head tail ih =>
      obtain ⟨item, items, rfl, same, rest⟩ := List.map_eq_cons_iff.mp keysEq.symm
      rw [List.map_cons, refreshed_of_mem distinct (within List.mem_cons_self) same.symm,
        ih (fun _ member => within (List.mem_cons_of_mem _ member)) rest.symm]

/-- A list with the keys of another, each item as that list has it, is that list. -/
theorem map_refreshed_eq_iff {list target : List α} (distinct : (target.map key).Nodup) :
    list.map (refreshed key target) = target ↔ list.map key = target.map key := by
  constructor
  · intro equal
    have keys := congrArg (List.map key) equal
    have same : key ∘ refreshed key target = key := funext (key_refreshed target)
    rwa [List.map_map, same] at keys
  · intro keysEq
    exact map_refreshed distinct (List.Subset.refl target) keysEq

/-! ## Towards a sorted target -/

section Sorted

variable {cmp : α → α → Ordering} [TiedCmp cmp]

theorem pairwise_of_ties {list other : List α} (ties : List.Forall₂ (cmp · · = .eq) list other)
    (sorted : other.Pairwise (cmp · · ≠ .gt)) : list.Pairwise (cmp · · ≠ .gt) := by
  have behind : ∀ {list other : List α}, List.Forall₂ (cmp · · = .eq) list other →
      ∀ {a : α}, (∀ b ∈ other, cmp a b ≠ .gt) → ∀ b ∈ list, cmp a b ≠ .gt := by
    intro list other ties a notBehind b member
    induction ties with
    | nil => exact absurd member List.not_mem_nil
    | cons tie rest ih =>
        rcases List.mem_cons.mp member with rfl | member
        · rw [TiedCmp.congr_second tie]
          exact notBehind _ List.mem_cons_self
        · exact ih (fun b inside => notBehind b (List.mem_cons_of_mem _ inside)) member
  induction ties with
  | nil => exact List.Pairwise.nil
  | cons tie rest ih =>
      obtain ⟨head, tail⟩ := List.pairwise_cons.mp sorted
      refine List.Pairwise.cons ?_ (ih tail)
      intro b member
      rw [TiedCmp.congr tie]
      exact behind rest head b member

/-- The items that stay, as the target has them, are those of the target that the list
has. -/
theorem mem_map_refreshed_iff {list target : List α} (distinct : (target.map key).Nodup)
    {item : α} :
    item ∈ (retainAll key list target).map (refreshed key target) ↔
      item ∈ retainAll key target list := by
  rw [List.mem_map, retainAll, retainAll, List.mem_filter, decide_eq_true_eq]
  constructor
  · rintro ⟨old, stays, rfl⟩
    obtain ⟨listed, contained⟩ := List.mem_filter.mp stays
    obtain ⟨fresh, member, same⟩ := List.mem_map.mp (of_decide_eq_true contained)
    rw [refreshed_of_mem distinct member same.symm]
    refine ⟨member, ?_⟩
    rw [Contains, same]
    exact List.mem_map_of_mem listed
  · rintro ⟨member, contained⟩
    obtain ⟨old, listed, same⟩ := List.mem_map.mp contained
    refine ⟨old, List.mem_filter.mpr ⟨listed, ?_⟩, refreshed_of_mem distinct member same⟩
    rw [decide_eq_true_eq, Contains, same]
    exact List.mem_map_of_mem member

/-- Where the items that stay are in order as the target has them, inserting the others
ends in order. -/
theorem insertAll_sorted {list target : List α} (contract : Contract cmp target)
    (sorted : target.Pairwise (cmp · · ≠ .gt)) (distinct : (target.map key).Nodup)
    (listDistinct : (list.map key).Nodup)
    (staysSorted : ((retainAll key list target).map (refreshed key target)).Pairwise
      (cmp · · ≠ .gt)) :
    ∃ next, insertAll key target (retainAll key list target)
        (removeAll key target (retainAll key list target)) = some next ∧
      (next.map (refreshed key target)).Pairwise (cmp · · ≠ .gt) := by
  have within : retainAll key target list ⊆ target := List.filter_sublist.subset
  have fresh : (retainAll key target list).map (refreshed key target) =
      retainAll key target list := map_refreshed distinct within rfl
  have keysStay : (((retainAll key list target).map (refreshed key target)).map key) =
      (retainAll key list target).map key := by
    rw [List.map_map]
    exact List.map_congr_left fun item _ => key_refreshed target item
  have nodupStays : ((retainAll key list target).map (refreshed key target)).Nodup := by
    apply List.Nodup.of_map key
    rw [keysStay]
    exact listDistinct.sublist (List.filter_sublist.map key)
  have nodupTarget : (retainAll key target list).Nodup :=
    (List.Nodup.of_map key distinct).filter _
  have perm : ((retainAll key list target).map (refreshed key target)).Perm
      (retainAll key target list) :=
    (List.perm_ext_iff_of_nodup nodupStays nodupTarget).mpr fun _ => mem_map_refreshed_iff distinct
  have ties : List.Forall₂ (cmp · · = .eq)
      ((retainAll key list target).map (refreshed key target)) (retainAll key target list) := by
    have contractStays : Contract cmp (retainAll key target list) := by
      constructor
      · intro a aIn b bIn
        exact contract.swap a (within aIn) b (within bIn)
      · intro a aIn b bIn c cIn
        exact contract.trans a (within aIn) b (within bIn) c (within cIn)
      · intro a aIn b bIn c cIn
        exact contract.tie a (within aIn) b (within bIn) c (within cIn)
    exact contractStays.sorted_unique perm (List.Perm.refl _) staysSorted (sorted.filter _)
  have related : List.Forall₂
      (fun one other => cmp (refreshed key target one) (refreshed key target other) = .eq)
      (retainAll key list target) (retainAll key target list) := by
    rw [← fresh, List.forall₂_map_left_iff, List.forall₂_map_right_iff] at ties
    exact ties
  have missing : removeAll key target (retainAll key target list) =
      removeAll key target (retainAll key list target) := by
    rw [removeAll_retainAll]
    apply List.filter_congr
    intro item member
    exact decide_eq_decide.mpr (not_congr (contains_retained member))
  have retained : retainAll key target (retainAll key target list) =
      retainAll key target list := by
    apply List.filter_congr
    intro item member
    exact decide_eq_decide.mpr (contains_retained member)
  have arrives := (@insertAll_missing_iff _ _ _ key target (retainAll key target list)
    distinct).mpr (by rw [retained])
  rw [missing] at arrives
  obtain ⟨wanted, wantedEq, keysEq⟩ := arrives
  obtain ⟨next, nextEq, pairs⟩ := insertAll_forall₂ related
    (fun item _ => Ordering.eq_eq_of_eq_swap OrientedCmp.eq_swap) wantedEq
  have arrived : List.Forall₂ (cmp · · = .eq) (next.map (refreshed key target))
      (wanted.map (refreshed key target)) := by
    rw [List.forall₂_map_left_iff, List.forall₂_map_right_iff]
    exact pairs
  rw [(map_refreshed_eq_iff distinct).mpr keysEq] at arrived
  exact ⟨next, nextEq, pairwise_of_ties arrived sorted⟩

end Sorted

end RoundSync.Data.KeyedLists
