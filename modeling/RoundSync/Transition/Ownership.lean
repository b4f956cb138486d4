import Mathlib.Logic.Function.Basic
import Mathlib.Data.List.Nodup

/-!
# Who owns what

Two accounts of a crew.  In the first, each key that is present has exactly one
owner: an entry of a queue, or a hand.  In the second, each hand has a list of
things, and a common list of all that the hands have.
-/

namespace RoundSync.Transition

universe u v

/-! ## Keys with one owner -/

section

variable {κ : Type u} {ι : Type v}

/-- The keys that are present are those that are queued or that a hand owns, each of
them once. -/
structure Ownership (present : κ → Prop) (queued : List κ) (owned : ι → Option κ) : Prop where
  present_iff : ∀ key, present key ↔ key ∈ queued ∨ ∃ i, owned i = some key
  queuedOnce : queued.Nodup
  notBoth : ∀ key ∈ queued, ∀ i, owned i ≠ some key
  ownedOnce : ∀ i j key, owned i = some key → owned j = some key → i = j

variable {present present' : κ → Prop} {queued : List κ} {owned : ι → Option κ}

theorem Ownership.congr (ownership : Ownership present queued owned)
    (same : ∀ key, present' key ↔ present key) : Ownership present' queued owned :=
  ⟨fun key => (same key).trans (ownership.present_iff key), ownership.queuedOnce,
    ownership.notBoth, ownership.ownedOnce⟩

variable [DecidableEq ι] {i : ι} {key : κ}

theorem update_eq_some_iff {o : Option κ} {j : ι} :
    Function.update owned i o j = some key ↔ j = i ∧ o = some key ∨ j ≠ i ∧ owned j = some key := by
  by_cases same : j = i
  · subst same
    simp
  · simp [same]

/-- No two hands own the same key once a hand owns a key that no other owned. -/
theorem ownedOnce_give (once : ∀ j k other, owned j = some other → owned k = some other → j = k)
    (noOwner : ∀ j, owned j ≠ some key) (j k : ι) (other : κ)
    (one : Function.update owned i (some key) j = some other)
    (two : Function.update owned i (some key) k = some other) : j = k := by
  rcases update_eq_some_iff.mp one with ⟨rfl, same⟩ | ⟨_, before⟩
  · rcases update_eq_some_iff.mp two with ⟨rfl, _⟩ | ⟨_, before⟩
    · rfl
    · exact absurd (Option.some.inj same ▸ before) (noOwner k)
  · rcases update_eq_some_iff.mp two with ⟨rfl, same⟩ | ⟨_, before'⟩
    · exact absurd (Option.some.inj same ▸ before) (noOwner j)
    · exact once j k other before before'

theorem ownedOnce_drop (once : ∀ j k other, owned j = some other → owned k = some other → j = k)
    (j k : ι) (other : κ) (one : Function.update owned i none j = some other)
    (two : Function.update owned i none k = some other) : j = k := by
  rcases update_eq_some_iff.mp one with ⟨_, none⟩ | ⟨_, before⟩
  · cases none
  · rcases update_eq_some_iff.mp two with ⟨_, none⟩ | ⟨_, before'⟩
    · cases none
    · exact once j k other before before'

/-- A hand that owned nothing owns a new key. -/
theorem Ownership.claim (ownership : Ownership present queued owned) (absent : ¬present key)
    (nothing : owned i = none) (grows : ∀ other, present' other ↔ present other ∨ other = key) :
    Ownership present' queued (Function.update owned i (some key)) := by
  have noOwner := (ownership.present_iff key).not.mp absent
  constructor
  · intro other
    rw [grows, ownership.present_iff]
    constructor
    · rintro ((isQueued | ⟨j, isOwned⟩) | rfl)
      · exact Or.inl isQueued
      · refine Or.inr ⟨j, update_eq_some_iff.mpr (Or.inr ⟨?_, isOwned⟩)⟩
        rintro rfl
        rw [nothing] at isOwned
        cases isOwned
      · exact Or.inr ⟨i, update_eq_some_iff.mpr (Or.inl ⟨rfl, rfl⟩)⟩
    · rintro (isQueued | ⟨j, isOwned⟩)
      · exact Or.inl (Or.inl isQueued)
      · rcases update_eq_some_iff.mp isOwned with ⟨_, same⟩ | ⟨_, before⟩
        · exact Or.inr (Option.some.inj same).symm
        · exact Or.inl (Or.inr ⟨j, before⟩)
  · exact ownership.queuedOnce
  · intro other isQueued j isOwned
    rcases update_eq_some_iff.mp isOwned with ⟨_, same⟩ | ⟨_, before⟩
    · rw [Option.some.inj same] at noOwner
      exact noOwner (Or.inl isQueued)
    · exact ownership.notBoth other isQueued j before
  · exact ownedOnce_give ownership.ownedOnce fun j isOwned => noOwner (Or.inr ⟨j, isOwned⟩)

/-- A hand gives its key to the queue. -/
theorem Ownership.enqueue (ownership : Ownership present queued owned)
    (mine : owned i = some key) :
    Ownership present (queued ++ [key]) (Function.update owned i none) := by
  have notQueued : key ∉ queued := fun isQueued => ownership.notBoth key isQueued i mine
  constructor
  · intro other
    rw [ownership.present_iff]
    constructor
    · rintro (isQueued | ⟨j, isOwned⟩)
      · exact Or.inl (List.mem_append_left [key] isQueued)
      · by_cases same : j = i
        · subst same
          obtain rfl := Option.some.inj (mine.symm.trans isOwned)
          exact Or.inl (List.mem_append_right queued List.mem_cons_self)
        · exact Or.inr ⟨j, update_eq_some_iff.mpr (Or.inr ⟨same, isOwned⟩)⟩
    · rintro (isQueued | ⟨j, isOwned⟩)
      · rcases List.mem_append.mp isQueued with before | last
        · exact Or.inl before
        · obtain rfl := List.mem_singleton.mp last
          exact Or.inr ⟨i, mine⟩
      · rcases update_eq_some_iff.mp isOwned with ⟨_, none⟩ | ⟨_, before⟩
        · cases none
        · exact Or.inr ⟨j, before⟩
  · exact List.nodup_append.mpr ⟨ownership.queuedOnce, List.nodup_singleton key, by
      rintro other isQueued _ last rfl
      rw [List.mem_singleton.mp last] at isQueued
      exact notQueued isQueued⟩
  · intro other isQueued j isOwned
    rcases update_eq_some_iff.mp isOwned with ⟨_, none⟩ | ⟨different, before⟩
    · cases none
    · rcases List.mem_append.mp isQueued with before' | last
      · exact ownership.notBoth other before' j before
      · obtain rfl := List.mem_singleton.mp last
        exact different (ownership.ownedOnce j i other before mine)
  · exact ownedOnce_drop ownership.ownedOnce

/-- A hand that owned nothing is given a key of the queue. -/
theorem Ownership.dequeue [DecidableEq κ] (ownership : Ownership present queued owned)
    {index : Nat} (found : queued[index]? = some key) (nothing : owned i = none) :
    Ownership present (queued.eraseIdx index) (Function.update owned i (some key)) := by
  obtain ⟨inRange, isThere⟩ := List.getElem?_eq_some_iff.mp found
  have isQueued : key ∈ queued := List.mem_of_getElem? found
  have others : ∀ other, other ∈ queued.eraseIdx index ↔ other ≠ key ∧ other ∈ queued := by
    intro other
    rw [← ownership.queuedOnce.erase_getElem index inRange, isThere]
    exact ownership.queuedOnce.mem_erase_iff
  constructor
  · intro other
    rw [ownership.present_iff, others]
    constructor
    · rintro (before | ⟨j, isOwned⟩)
      · by_cases same : other = key
        · subst same
          exact Or.inr ⟨i, update_eq_some_iff.mpr (Or.inl ⟨rfl, rfl⟩)⟩
        · exact Or.inl ⟨same, before⟩
      · refine Or.inr ⟨j, update_eq_some_iff.mpr (Or.inr ⟨?_, isOwned⟩)⟩
        rintro rfl
        rw [nothing] at isOwned
        cases isOwned
    · rintro (⟨_, before⟩ | ⟨j, isOwned⟩)
      · exact Or.inl before
      · rcases update_eq_some_iff.mp isOwned with ⟨_, same⟩ | ⟨_, before⟩
        · exact Or.inl (Option.some.inj same ▸ isQueued)
        · exact Or.inr ⟨j, before⟩
  · exact ownership.queuedOnce.eraseIdx index
  · intro other stillQueued j isOwned
    obtain ⟨different, before⟩ := (others other).mp stillQueued
    rcases update_eq_some_iff.mp isOwned with ⟨_, same⟩ | ⟨_, before'⟩
    · exact different (Option.some.inj same).symm
    · exact ownership.notBoth other before j before'
  · exact ownedOnce_give ownership.ownedOnce (ownership.notBoth key isQueued)

/-- The key of a hand goes. -/
theorem Ownership.release (ownership : Ownership present queued owned)
    (mine : owned i = some key) (shrinks : ∀ other, present' other ↔ other ≠ key ∧ present other) :
    Ownership present' queued (Function.update owned i none) := by
  have notQueued : key ∉ queued := fun isQueued => ownership.notBoth key isQueued i mine
  constructor
  · intro other
    rw [shrinks, ownership.present_iff]
    constructor
    · rintro ⟨different, isQueued | ⟨j, isOwned⟩⟩
      · exact Or.inl isQueued
      · refine Or.inr ⟨j, update_eq_some_iff.mpr (Or.inr ⟨?_, isOwned⟩)⟩
        rintro rfl
        exact different (Option.some.inj (isOwned.symm.trans mine))
    · rintro (isQueued | ⟨j, isOwned⟩)
      · exact ⟨fun same => notQueued (same ▸ isQueued), Or.inl isQueued⟩
      · rcases update_eq_some_iff.mp isOwned with ⟨_, none⟩ | ⟨different, before⟩
        · cases none
        · refine ⟨?_, Or.inr ⟨j, before⟩⟩
          rintro rfl
          exact different (ownership.ownedOnce j i _ before mine)
  · exact ownership.queuedOnce
  · intro other isQueued j isOwned
    rcases update_eq_some_iff.mp isOwned with ⟨_, none⟩ | ⟨_, before⟩
    · cases none
    · exact ownership.notBoth other isQueued j before
  · exact ownedOnce_drop ownership.ownedOnce

end

/-! ## Things in the hands -/

section

variable {α : Type u} {ι : Type v}

/-- What is held is what the hands have left, and no two have the same. -/
structure Custody (held : List α) (left : ι → List α) : Prop where
  held_iff : ∀ a, a ∈ held ↔ ∃ i, a ∈ left i
  heldOnce : held.Nodup
  leftOnce : ∀ i, (left i).Nodup
  apart : ∀ i j a, a ∈ left i → a ∈ left j → i = j

variable {held : List α} {left : ι → List α} [DecidableEq ι] {i : ι}

theorem mem_update_iff {own : List α} {j : ι} {a : α} :
    a ∈ Function.update left i own j ↔ j = i ∧ a ∈ own ∨ j ≠ i ∧ a ∈ left j := by
  by_cases same : j = i
  · subst same
    simp
  · simp [same]

/-- A hand with nothing left takes new things. -/
theorem Custody.take (custody : Custody held left) (nothing : left i = []) {own : List α}
    (once : own.Nodup) (fresh : ∀ a ∈ own, a ∉ held) :
    Custody (held ++ own) (Function.update left i own) := by
  have elsewhere : ∀ a ∈ own, ∀ j, a ∉ left j := fun a member j isLeft =>
    fresh a member ((custody.held_iff a).mpr ⟨j, isLeft⟩)
  constructor
  · intro a
    rw [List.mem_append, custody.held_iff]
    constructor
    · rintro (⟨j, isLeft⟩ | member)
      · refine ⟨j, mem_update_iff.mpr (Or.inr ⟨?_, isLeft⟩)⟩
        rintro rfl
        rw [nothing] at isLeft
        cases isLeft
      · exact ⟨i, mem_update_iff.mpr (Or.inl ⟨rfl, member⟩)⟩
    · rintro ⟨j, isLeft⟩
      rcases mem_update_iff.mp isLeft with ⟨_, member⟩ | ⟨_, before⟩
      · exact Or.inr member
      · exact Or.inl ⟨j, before⟩
  · refine List.nodup_append.mpr ⟨custody.heldOnce, once, ?_⟩
    rintro a isHeld _ member rfl
    exact fresh a member isHeld
  · intro j
    by_cases same : j = i
    · subst same
      simpa using once
    · simpa [same] using custody.leftOnce j
  · intro j k a one two
    rcases mem_update_iff.mp one with ⟨rfl, member⟩ | ⟨_, before⟩
    · rcases mem_update_iff.mp two with ⟨rfl, _⟩ | ⟨_, before⟩
      · rfl
      · exact absurd before (elsewhere a member k)
    · rcases mem_update_iff.mp two with ⟨rfl, member⟩ | ⟨_, before'⟩
      · exact absurd before (elsewhere a member j)
      · exact custody.apart j k a before before'

/-- A hand lets the first of its things go. -/
theorem Custody.drop [DecidableEq α] (custody : Custody held left) {a : α} {rest : List α}
    (mine : left i = a :: rest) :
    Custody (held.erase a) (Function.update left i rest) := by
  have isLeft : a ∈ left i := mine ▸ List.mem_cons_self
  have once : a ∉ rest ∧ rest.Nodup := List.nodup_cons.mp (mine ▸ custody.leftOnce i)
  constructor
  · intro b
    rw [custody.heldOnce.mem_erase_iff, custody.held_iff]
    constructor
    · rintro ⟨different, j, before⟩
      by_cases same : j = i
      · subst same
        rw [mine] at before
        exact ⟨j, mem_update_iff.mpr (Or.inl ⟨rfl, List.mem_of_ne_of_mem different before⟩)⟩
      · exact ⟨j, mem_update_iff.mpr (Or.inr ⟨same, before⟩)⟩
    · rintro ⟨j, after⟩
      rcases mem_update_iff.mp after with ⟨_, member⟩ | ⟨different, before⟩
      · refine ⟨?_, i, mine ▸ List.mem_cons_of_mem a member⟩
        rintro rfl
        exact once.1 member
      · refine ⟨?_, j, before⟩
        rintro rfl
        exact different (custody.apart j i b before isLeft)
  · exact custody.heldOnce.erase a
  · intro j
    by_cases same : j = i
    · subst same
      simpa using once.2
    · simpa [same] using custody.leftOnce j
  · intro j k b one two
    have before : ∀ l, b ∈ Function.update left i rest l → b ∈ left l := by
      intro l after
      rcases mem_update_iff.mp after with ⟨rfl, member⟩ | ⟨_, before⟩
      · exact mine ▸ List.mem_cons_of_mem a member
      · exact before
    exact custody.apart j k b (before j one) (before k two)

end

end RoundSync.Transition
