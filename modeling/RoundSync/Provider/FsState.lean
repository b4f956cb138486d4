import RoundSync.Data.LruCache
import RoundSync.Text.JavaString
import RoundSync.Transition.Core

/-!
# The items the provider remembers

The provider keeps what it knows about documents in two maps under one
interface: sticky items stay, all others stand in a cache that drops what was
used least recently.  This file models the interface, states what a map that may
forget items does, and says in which runs the two maps together are one.
-/

namespace RoundSync.Provider

open RoundSync.Data
open RoundSync.Text
open RoundSync.Transition

/-! ## The two maps -/

/-- A node without an item is the answer for a document that is not known. -/
structure FsStateNode (ι : Type) where
  item : Option ι
  flags : BitVec 32
deriving DecidableEq, Repr

namespace FsStateNode

def STICKY : BitVec 32 := 1

def CACHED : BitVec 32 := 1 <<< 1

def SOURCE_ITEM : BitVec 32 := 1 <<< 2

end FsStateNode

namespace FsCache

def maxSize : Nat := 500 * 1024

/-- What one entry counts for, whatever it is. -/
def sizeOf : Nat := 384

/-- The number of entries that fit. -/
def entryLimit : Nat := maxSize / sizeOf

theorem entryLimit_eq : entryLimit = 1333 :=
  rfl

end FsCache

structure FsState (ι : Type) where
  stickyMap : Table JavaString (FsStateNode ι)
  fsCache : Table JavaString ι

namespace FsState

variable {ι : Type}

def empty : FsState ι :=
  ⟨∅, ∅⟩

def isSticky (flags : BitVec 32) : Bool :=
  flags &&& FsStateNode.STICKY == 1

def put (state : FsState ι) (noRootId : JavaString) (item : ι) (flags : BitVec 32) : FsState ι :=
  if isSticky flags then
    { state with stickyMap := state.stickyMap.insert noRootId ⟨some item, flags⟩ }
  else
    { state with
      fsCache := LruCache.put FsCache.entryLimit state.fsCache noRootId item }

/-- The answer, and the maps after it: reading an entry of the cache is using it. -/
def get (state : FsState ι) (noRootId : JavaString) : FsStateNode ι × FsState ι :=
  match state.stickyMap.lookup noRootId with
  | some node => (node, state)
  | none =>
      (⟨state.fsCache.lookup noRootId, FsStateNode.CACHED⟩,
        { state with fsCache := LruCache.touch state.fsCache noRootId })

def remove (state : FsState ι) (noRootId : JavaString) : FsState ι :=
  match state.stickyMap.lookup noRootId with
  | some _ => { state with stickyMap := state.stickyMap.erase noRootId }
  | none => { state with fsCache := state.fsCache.erase noRootId }

def clearCache (state : FsState ι) : FsState ι :=
  { state with fsCache := ∅ }

end FsState

inductive FsEvent (ι : Type) where
  | put (noRootId : JavaString) (item : ι) (flags : BitVec 32)
  | get (noRootId : JavaString)
  | remove (noRootId : JavaString)
  | clearCache
deriving DecidableEq, Repr

namespace FsState

variable {ι : Type}

def step (state : FsState ι) : FsEvent ι → FsState ι
  | .put noRootId item flags => state.put noRootId item flags
  | .get noRootId => (state.get noRootId).2
  | .remove noRootId => state.remove noRootId
  | .clearCache => state.clearCache

/-- The item that a caller would get now. -/
def found (state : FsState ι) (key : JavaString) : Option ι :=
  (state.get key).1.item

theorem found_eq (state : FsState ι) (key : JavaString) :
    state.found key =
      match state.stickyMap.lookup key with
      | some node => node.item
      | none => state.fsCache.lookup key := by
  unfold found get
  cases state.stickyMap.lookup key <;> rfl

theorem found_of_sticky {state : FsState ι} {key : JavaString} {node : FsStateNode ι}
    (sticky : state.stickyMap.lookup key = some node) : state.found key = node.item := by
  rw [found_eq, sticky]

theorem found_of_not_sticky {state : FsState ι} {key : JavaString}
    (notSticky : state.stickyMap.lookup key = none) :
    state.found key = state.fsCache.lookup key := by
  rw [found_eq, notSticky]

end FsState

/-! ## A map that may forget -/

/-- What was last put under a key. -/
structure Newest (ι : Type) where
  item : ι
  sticky : Bool
  /-- The other keys that were put as not sticky, or read, since then. -/
  since : Finset JavaString
deriving DecidableEq

namespace Newest

variable {ι : Type}

/-- The other key is put or read. -/
def use (newest : Newest ι) (other : JavaString) : Newest ι :=
  { newest with since := insert other newest.since }

/-- What the map has under one key after an event. -/
def after (key : JavaString) (newest : Option (Newest ι)) : FsEvent ι → Option (Newest ι)
  | .put noRootId item flags =>
      if noRootId = key then some ⟨item, FsState.isSticky flags, ∅⟩
      else if FsState.isSticky flags then newest
      else newest.map (·.use noRootId)
  | .get noRootId => if noRootId = key then newest else newest.map (·.use noRootId)
  | .remove noRootId => if noRootId = key then none else newest
  | .clearCache => newest.filter (·.sticky)

end Newest

namespace Newest

variable {ι : Type}

/-- The answer of a map that may forget an item that was not put as sticky, once
so many other keys were used as it has room for. -/
def Answers (newest : Option (Newest ι)) (found : Option ι) : Prop :=
  match newest with
  | none => found = none
  | some entry =>
      found = some entry.item ∨
        found = none ∧ entry.sticky = false ∧ FsCache.entryLimit ≤ entry.since.card

/-- Whatever is found was last put there. -/
def Allows (newest : Option (Newest ι)) (found : Option ι) : Prop :=
  ∀ item, found = some item → ∃ entry, newest = some entry ∧ entry.item = item

theorem Answers.allows {newest : Option (Newest ι)} {found : Option ι}
    (answers : Answers newest found) : Allows newest found := by
  rintro item rfl
  cases newest with
  | none => cases answers
  | some entry =>
      rcases answers with same | ⟨missing, _⟩
      · exact ⟨entry, rfl, (Option.some.inj same).symm⟩
      · cases missing

theorem Allows.use {newest : Option (Newest ι)} {found : Option ι}
    (allows : Allows newest found) (other : JavaString) :
    Allows (newest.map (·.use other)) found := by
  intro item isFound
  obtain ⟨entry, rfl, rfl⟩ := allows item isFound
  exact ⟨entry.use other, rfl, rfl⟩

theorem Allows.of_found {newest : Option (Newest ι)} {found later : Option ι}
    (allows : Allows newest found) (fewer : ∀ item, later = some item → found = some item) :
    Allows newest later :=
  fun item isFound => allows item (fewer item isFound)

end Newest

namespace FsState

variable {ι : Type}

/-! ## What one operation does to the two maps -/

section Steps

variable {state : FsState ι} {key noRootId : JavaString} {item : ι} {flags : BitVec 32}

theorem put_stickyMap (state : FsState ι) (noRootId : JavaString) (item : ι) (flags : BitVec 32) :
    (state.put noRootId item flags).stickyMap =
      if isSticky flags then state.stickyMap.insert noRootId ⟨some item, flags⟩
      else state.stickyMap := by
  unfold put
  cases isSticky flags <;> rfl

theorem put_fsCache (state : FsState ι) (noRootId : JavaString) (item : ι) (flags : BitVec 32) :
    (state.put noRootId item flags).fsCache =
      if isSticky flags then state.fsCache
      else LruCache.put FsCache.entryLimit state.fsCache noRootId item := by
  unfold put
  cases isSticky flags <;> rfl

theorem remove_stickyMap (state : FsState ι) (noRootId : JavaString) :
    (state.remove noRootId).stickyMap = state.stickyMap.erase noRootId := by
  unfold remove
  cases known : state.stickyMap.lookup noRootId with
  | none => exact (Table.erase_of_lookup_eq_none known).symm
  | some node => rfl

theorem remove_fsCache (state : FsState ι) (noRootId : JavaString) :
    (state.remove noRootId).fsCache =
      if state.stickyMap.lookup noRootId = none then state.fsCache.erase noRootId
      else state.fsCache := by
  unfold remove
  cases state.stickyMap.lookup noRootId <;> rfl

theorem get_stickyMap (state : FsState ι) (noRootId : JavaString) :
    (state.get noRootId).2.stickyMap = state.stickyMap := by
  unfold get
  cases state.stickyMap.lookup noRootId <;> rfl

/-- A key that is sticky is not looked up in the cache. -/
theorem get_fsCache (state : FsState ι) (noRootId : JavaString) :
    (state.get noRootId).2.fsCache = state.fsCache ∨
      (state.get noRootId).2.fsCache = LruCache.touch state.fsCache noRootId := by
  unfold get
  cases state.stickyMap.lookup noRootId with
  | none => exact Or.inr rfl
  | some node => exact Or.inl rfl

theorem found_congr {state later : FsState ι} {key : JavaString}
    (sticky : later.stickyMap.lookup key = state.stickyMap.lookup key)
    (cached : later.fsCache.lookup key = state.fsCache.lookup key) :
    later.found key = state.found key := by
  rw [found_eq, found_eq, sticky, cached]

theorem found_get (state : FsState ι) (noRootId key : JavaString) :
    (state.get noRootId).2.found key = state.found key := by
  refine found_congr (by rw [get_stickyMap]) ?_
  rcases get_fsCache state noRootId with same | touched
  · rw [same]
  · rw [touched, LruCache.lookup_touch]

theorem found_put_sticky (sticky : isSticky flags = true) :
    (state.put key item flags).found key = some item := by
  have stored : (state.put key item flags).stickyMap.lookup key = some ⟨some item, flags⟩ := by
    rw [put_stickyMap, if_pos sticky, AList.lookup_insert]
  exact found_of_sticky stored

/-- A cached put is found where there is no sticky node. -/
theorem found_put_not_sticky (notSticky : isSticky flags = false) :
    (state.put key item flags).found key =
      match state.stickyMap.lookup key with
      | some node => node.item
      | none => some item := by
  rw [found_eq, put_stickyMap, put_fsCache, notSticky]
  cases known : state.stickyMap.lookup key with
  | some node => rw [if_neg Bool.false_ne_true, known]
  | none =>
      rw [if_neg Bool.false_ne_true, known]
      exact (LruCache.Behind.put_self (by decide) state.fsCache key item).lookup

/-- A put of another key leaves what is found, or drops it. -/
theorem found_put_other (different : key ≠ noRootId) {result : ι}
    (found : (state.put noRootId item flags).found key = some result) :
    state.found key = some result := by
  rw [found_eq, put_stickyMap, put_fsCache] at found
  rw [found_eq]
  cases sticky : isSticky flags with
  | true => rwa [sticky, if_pos rfl, if_pos rfl, AList.lookup_insert_ne different] at found
  | false =>
      rw [sticky, if_neg Bool.false_ne_true, if_neg Bool.false_ne_true] at found
      cases known : state.stickyMap.lookup key with
      | some node => rwa [known] at found
      | none =>
          rw [known] at found
          exact LruCache.lookup_of_put different found

theorem found_remove_other (different : key ≠ noRootId) :
    (state.remove noRootId).found key = state.found key := by
  have sticky : (state.remove noRootId).stickyMap.lookup key = state.stickyMap.lookup key := by
    rw [remove_stickyMap, AList.lookup_erase_ne different]
  refine found_congr sticky ?_
  rw [remove_fsCache]
  split
  · exact AList.lookup_erase_ne different
  · rfl

/-- After a remove, the copy in the cache is found if there was a sticky one. -/
theorem found_remove_self (state : FsState ι) (key : JavaString) :
    (state.remove key).found key =
      if state.stickyMap.lookup key = none then none else state.fsCache.lookup key := by
  have erased : (state.remove key).stickyMap.lookup key = none := by
    rw [remove_stickyMap, AList.lookup_erase]
  rw [found_of_not_sticky erased, remove_fsCache]
  split
  · exact AList.lookup_erase key state.fsCache
  · rfl

end Steps

/-! ## What is always so -/

/-- What was last put under a key is in the map it belongs to; in the cache, at
most the keys that were used since stand before it. -/
structure Sound (key : JavaString) (state : FsState ι) (newest : Option (Newest ι)) : Prop where
  nodes : ∀ node, state.stickyMap.lookup key = some node → ∃ item, node.item = some item
  kept : ∀ entry, newest = some entry → entry.sticky = true →
    ∃ node, state.stickyMap.lookup key = some node ∧ node.item = some entry.item
  cached : ∀ entry, newest = some entry → entry.sticky = false →
    entry.since.card < FsCache.entryLimit →
      LruCache.Behind state.fsCache key entry.item entry.since

namespace Sound

variable {key : JavaString} {state : FsState ι} {newest : Option (Newest ι)}

theorem initial (key : JavaString) : Sound key (empty : FsState ι) none where
  nodes node stored := by cases stored
  kept entry isNewest := by cases isNewest
  cached entry isNewest := by cases isNewest

theorem put_self (sound : Sound key state newest) (item : ι) (flags : BitVec 32) :
    Sound key (state.put key item flags) (some ⟨item, isSticky flags, ∅⟩) where
  nodes node stored := by
    rw [put_stickyMap] at stored
    split at stored
    · rw [AList.lookup_insert] at stored
      obtain rfl := Option.some.inj stored
      exact ⟨item, rfl⟩
    · exact sound.nodes node stored
  kept entry isNewest sticky := by
    obtain rfl := Option.some.inj isNewest
    exact ⟨⟨some item, flags⟩, by rw [put_stickyMap, if_pos sticky, AList.lookup_insert], rfl⟩
  cached entry isNewest notSticky few := by
    obtain rfl := Option.some.inj isNewest
    rw [put_fsCache, if_neg (ne_true_of_eq_false notSticky)]
    exact LruCache.Behind.put_self (by decide) state.fsCache key item

/-- Another key is put into the cache, or read from it. -/
theorem used (sound : Sound key state newest) {later : FsState ι} (other : JavaString)
    (sticky : later.stickyMap = state.stickyMap)
    (behind : ∀ item since, LruCache.Behind state.fsCache key item since →
      (insert other since).card < FsCache.entryLimit →
        LruCache.Behind later.fsCache key item (insert other since)) :
    Sound key later (newest.map (·.use other)) where
  nodes node stored := sound.nodes node (sticky ▸ stored)
  kept entry isNewest isSticky := by
    obtain ⟨entry, rfl, rfl⟩ := Option.map_eq_some_iff.mp isNewest
    rw [sticky]
    exact sound.kept entry rfl isSticky
  cached entry isNewest notSticky few := by
    obtain ⟨entry, rfl, rfl⟩ := Option.map_eq_some_iff.mp isNewest
    have fewer : entry.since.card < FsCache.entryLimit :=
      (Finset.card_le_card (Finset.subset_insert other entry.since)).trans_lt few
    exact behind entry.item entry.since (sound.cached entry rfl notSticky fewer) few

theorem put_other (sound : Sound key state newest) {noRootId : JavaString}
    (different : noRootId ≠ key) (item : ι) (flags : BitVec 32) :
    Sound key (state.put noRootId item flags)
      (if isSticky flags then newest else newest.map (·.use noRootId)) := by
  cases sticky : isSticky flags with
  | true =>
      have same : (state.put noRootId item flags).stickyMap.lookup key =
          state.stickyMap.lookup key := by
        rw [put_stickyMap, if_pos sticky, AList.lookup_insert_ne different.symm]
      have unchanged : (state.put noRootId item flags).fsCache = state.fsCache := by
        rw [put_fsCache, if_pos sticky]
      rw [if_pos rfl]
      constructor
      · rw [same]
        exact sound.nodes
      · rw [same]
        exact sound.kept
      · rw [unchanged]
        exact sound.cached
  | false =>
      rw [if_neg Bool.false_ne_true]
      refine sound.used noRootId (by rw [put_stickyMap, sticky]; rfl) ?_
      intro value since behind few
      rw [put_fsCache, sticky]
      exact behind.put different item few

theorem get_other (sound : Sound key state newest) {noRootId : JavaString}
    (different : noRootId ≠ key) :
    Sound key (state.get noRootId).2 (newest.map (·.use noRootId)) := by
  refine sound.used noRootId (get_stickyMap state noRootId) ?_
  intro value since behind few
  rcases get_fsCache state noRootId with same | touched
  · rw [same]
    exact behind.mono (Finset.subset_insert noRootId since)
  · rw [touched]
    exact behind.touch different

theorem get_self (sound : Sound key state newest) : Sound key (state.get key).2 newest := by
  constructor
  · rw [get_stickyMap]
    exact sound.nodes
  · rw [get_stickyMap]
    exact sound.kept
  · intro entry isNewest notSticky few
    have behind := sound.cached entry isNewest notSticky few
    rcases get_fsCache state key with same | touched
    · rw [same]
      exact behind
    · rw [touched]
      exact behind.touch_self

theorem remove_self (key : JavaString) (state : FsState ι) :
    Sound key (state.remove key) none where
  nodes node stored := by
    rw [remove_stickyMap, AList.lookup_erase] at stored
    cases stored
  kept entry isNewest := by cases isNewest
  cached entry isNewest := by cases isNewest

theorem remove_other (sound : Sound key state newest) {noRootId : JavaString}
    (different : noRootId ≠ key) : Sound key (state.remove noRootId) newest := by
  have same : (state.remove noRootId).stickyMap.lookup key = state.stickyMap.lookup key := by
    rw [remove_stickyMap, AList.lookup_erase_ne different.symm]
  constructor
  · rw [same]
    exact sound.nodes
  · rw [same]
    exact sound.kept
  · intro entry isNewest notSticky few
    have behind := sound.cached entry isNewest notSticky few
    rw [remove_fsCache]
    split
    · exact behind.erase different
    · exact behind

theorem clearCache (sound : Sound key state newest) :
    Sound key state.clearCache (newest.filter (·.sticky)) where
  nodes := sound.nodes
  kept entry isNewest sticky := by
    obtain ⟨isNewest, _⟩ := Option.filter_eq_some_iff.mp isNewest
    exact sound.kept entry isNewest sticky
  cached entry isNewest notSticky := by
    obtain ⟨_, sticky⟩ := Option.filter_eq_some_iff.mp isNewest
    cases sticky.symm.trans notSticky

theorem step (sound : Sound key state newest) (event : FsEvent ι) :
    Sound key (state.step event) (Newest.after key newest event) := by
  cases event with
  | put noRootId item flags =>
      by_cases same : noRootId = key
      · subst noRootId
        rw [Newest.after, if_pos rfl]
        exact sound.put_self item flags
      · rw [Newest.after, if_neg same]
        exact sound.put_other same item flags
  | get noRootId =>
      by_cases same : noRootId = key
      · subst noRootId
        rw [Newest.after, if_pos rfl]
        exact sound.get_self
      · rw [Newest.after, if_neg same]
        exact sound.get_other same
  | remove noRootId =>
      by_cases same : noRootId = key
      · subst noRootId
        rw [Newest.after, if_pos rfl]
        exact remove_self key state
      · rw [Newest.after, if_neg same]
        exact sound.remove_other same
  | clearCache => exact sound.clearCache

/-- Whatever was put last is found, or forgotten: so an answer can only be wrong
by finding something else. -/
theorem answers_iff (sound : Sound key state newest) :
    Newest.Answers newest (state.found key) ↔ Newest.Allows newest (state.found key) := by
  refine ⟨Newest.Answers.allows, fun allows => ?_⟩
  cases found : state.found key with
  | some item =>
      obtain ⟨entry, rfl, rfl⟩ := allows item found
      exact Or.inl rfl
  | none =>
      cases newest with
      | none => rfl
      | some entry =>
          have missing : state.stickyMap.lookup key = none := by
            cases known : state.stickyMap.lookup key with
            | none => rfl
            | some node =>
                obtain ⟨item, isItem⟩ := sound.nodes node known
                cases (found.symm.trans (found_of_sticky known)).trans isItem
          have notSticky : entry.sticky = false := by
            cases sticky : entry.sticky with
            | false => rfl
            | true =>
                obtain ⟨node, known, _⟩ := sound.kept entry rfl sticky
                cases missing.symm.trans known
          refine Or.inr ⟨rfl, notSticky, Nat.le_of_not_lt fun few => ?_⟩
          have cached := (sound.cached entry rfl notSticky few).lookup
          rw [found_of_not_sticky missing, cached] at found
          cases found

end Sound

/-! ## In which runs the two maps are one -/

/-- An operation on a key that leaves no older item of it to be found: no sticky
node hides what is cached, no cached copy is left of what is removed, and what
the clearing of the cache takes away has no sticky node either. -/
def LeavesOne (key : JavaString) (watch : FsState ι × Option (Newest ι)) : FsEvent ι → Prop
  | .put noRootId item flags =>
      noRootId = key → isSticky flags = false →
        ∀ node, watch.1.stickyMap.lookup key = some node → node.item = some item
  | .get _ => True
  | .remove noRootId =>
      noRootId = key → watch.1.stickyMap.lookup key ≠ none → watch.1.fsCache.lookup key = none
  | .clearCache =>
      ∀ entry, watch.2 = some entry → entry.sticky = false →
        watch.1.stickyMap.lookup key = none

/-- The provider's state beside the map that it should be, for one key. -/
def watchStep (key : JavaString) (watch : FsState ι × Option (Newest ι)) (event : FsEvent ι) :
    FsState ι × Option (Newest ι) :=
  (watch.1.step event, Newest.after key watch.2 event)

section Exact

variable {key : JavaString} {state : FsState ι} {newest : Option (Newest ι)}

theorem allows_put_self_iff (sound : Sound key state newest) (item : ι) (flags : BitVec 32) :
    Newest.Allows (some ⟨item, isSticky flags, ∅⟩) ((state.put key item flags).found key) ↔
      LeavesOne key (state, newest) (.put key item flags) := by
  cases sticky : isSticky flags with
  | true =>
      rw [found_put_sticky sticky]
      constructor
      · intro _ _ notSticky
        cases sticky.symm.trans notSticky
      · intro _ value isValue
        exact ⟨_, rfl, Option.some.inj isValue⟩
  | false =>
      rw [found_put_not_sticky sticky]
      constructor
      · intro allows _ _ node known
        obtain ⟨value, isValue⟩ := sound.nodes node known
        have shown := allows value
        simp only [known] at shown
        obtain ⟨entry, isEntry, rfl⟩ := shown isValue
        rw [isValue, ← Option.some.inj isEntry]
      · intro leavesOne value isValue
        refine ⟨_, rfl, ?_⟩
        cases known : state.stickyMap.lookup key with
        | none =>
            rw [known] at isValue
            exact Option.some.inj isValue
        | some node =>
            rw [known] at isValue
            exact Option.some.inj ((leavesOne rfl sticky node known).symm.trans isValue)

theorem allows_remove_self_iff :
    Newest.Allows none ((state.remove key).found key) ↔
      LeavesOne key (state, newest) (.remove key) := by
  rw [found_remove_self]
  constructor
  · intro allows _ known
    rw [if_neg known] at allows
    cases cached : state.fsCache.lookup key with
    | none => rfl
    | some item =>
        obtain ⟨entry, isEntry, _⟩ := allows item cached
        cases isEntry
  · intro leavesOne item found
    split at found
    · cases found
    · rename_i known
      cases (leavesOne rfl known).symm.trans found

theorem found_clearCache (state : FsState ι) (key : JavaString) :
    state.clearCache.found key = (state.stickyMap.lookup key).bind (·.item) := by
  rw [found_eq]
  change (match state.stickyMap.lookup key with
    | some node => node.item
    | none => (∅ : Table JavaString ι).lookup key) = _
  cases state.stickyMap.lookup key with
  | none => exact AList.lookup_empty key
  | some node => rfl

theorem allows_clearCache_iff (sound : Sound key state newest)
    (allows : Newest.Allows newest (state.found key)) :
    Newest.Allows (newest.filter (·.sticky)) (state.clearCache.found key) ↔
      LeavesOne key (state, newest) .clearCache := by
  rw [found_clearCache]
  constructor
  · intro later entry isNewest notSticky
    cases known : state.stickyMap.lookup key with
    | none => rfl
    | some node =>
        obtain ⟨item, isItem⟩ := sound.nodes node known
        obtain ⟨still, isStill, _⟩ := later item (by rw [known]; exact isItem)
        obtain ⟨isNewest', sticky⟩ := Option.filter_eq_some_iff.mp isStill
        obtain rfl := Option.some.inj (isNewest.symm.trans isNewest')
        cases notSticky.symm.trans sticky
  · intro leavesOne item isItem
    obtain ⟨node, known, isItem⟩ := Option.bind_eq_some_iff.mp isItem
    obtain ⟨entry, isNewest, same⟩ := allows item ((found_of_sticky known).trans isItem)
    refine ⟨entry, Option.filter_eq_some_iff.mpr ⟨isNewest, ?_⟩, same⟩
    cases sticky : entry.sticky with
    | true => rfl
    | false => cases known.symm.trans (leavesOne entry isNewest sticky)

theorem allows_step_iff (sound : Sound key state newest)
    (allows : Newest.Allows newest (state.found key)) (event : FsEvent ι) :
    Newest.Allows (Newest.after key newest event) ((state.step event).found key) ↔
      LeavesOne key (state, newest) event := by
  cases event with
  | put noRootId item flags =>
      by_cases same : noRootId = key
      · subst noRootId
        rw [Newest.after, if_pos rfl]
        exact allows_put_self_iff sound item flags
      · refine iff_of_true ?_ fun isSame => absurd isSame same
        have still : Newest.Allows newest ((state.put noRootId item flags).found key) :=
          allows.of_found fun _ => found_put_other (Ne.symm same)
        rw [Newest.after, if_neg same]
        split
        · exact still
        · exact still.use noRootId
  | get noRootId =>
      refine iff_of_true ?_ trivial
      rw [step, found_get, Newest.after]
      split
      · exact allows
      · exact allows.use noRootId
  | remove noRootId =>
      by_cases same : noRootId = key
      · subst noRootId
        rw [Newest.after, if_pos rfl]
        exact allows_remove_self_iff
      · refine iff_of_true ?_ fun isSame => absurd isSame same
        rw [Newest.after, if_neg same, step, found_remove_other (Ne.symm same)]
        exact allows
  | clearCache => exact allows_clearCache_iff sound allows

end Exact

/-- The two maps answer for a key as one map that may forget, after each of any
operations, exactly when each of them leaves no older item to be found. -/
theorem answers_iff_leavesOne (key : JavaString) (events : List (FsEvent ι)) :
    Always (watchStep key) (fun watch => Newest.Answers watch.2 (watch.1.found key))
        ((empty : FsState ι), none) events ↔
      Meets (watchStep key) (LeavesOne key) ((empty : FsState ι), none) events := by
  refine @always_iff_meets _ _ (watchStep key) (LeavesOne key)
    (fun watch => Sound key watch.1 watch.2) _ ?_ ?_ _ events (Sound.initial key) rfl
  · intro watch event sound
    exact sound.step event
  · intro watch event sound answers
    rw [watchStep, (sound.step event).answers_iff]
    exact allows_step_iff sound answers.allows event

end FsState

/-! ## The laws of a map -/

namespace FsEvent

variable {ι : Type}

/-- The other key that an operation makes the cache use. -/
def other (key : JavaString) : FsEvent ι → Option JavaString
  | .put noRootId _ flags =>
      if noRootId = key ∨ FsState.isSticky flags then none else some noRootId
  | .get noRootId => if noRootId = key then none else some noRootId
  | .remove _ => none
  | .clearCache => none

/-- The other keys that were put as not sticky, or read. -/
def others (key : JavaString) (events : List (FsEvent ι)) : Finset JavaString :=
  (events.filterMap (other key)).toFinset

end FsEvent

namespace Newest

variable {ι : Type} {key : JavaString}

def addSince (entry : Newest ι) (used : Option JavaString) : Newest ι :=
  match used with
  | some name => entry.use name
  | none => entry

theorem addSince_sticky (entry : Newest ι) (used : Option JavaString) :
    (entry.addSince used).sticky = entry.sticky := by
  cases used <;> rfl

/-- An operation that neither puts nor removes the key, nor clears the cache of
it, counts as a use of another key at most. -/
theorem after_other {entry : Newest ι} {event : FsEvent ι}
    (notPut : ∀ item flags, event ≠ .put key item flags) (notRemoved : event ≠ .remove key)
    (stays : event = .clearCache → entry.sticky = true) :
    after key (some entry) event = some (entry.addSince (event.other key)) := by
  cases event with
  | put noRootId item flags =>
      have different : noRootId ≠ key := by
        rintro rfl
        exact notPut item flags rfl
      rw [after, if_neg different, FsEvent.other]
      cases FsState.isSticky flags with
      | true => rw [if_pos rfl, if_pos (Or.inr rfl), addSince]
      | false => rw [if_neg Bool.false_ne_true, if_neg (by simp [different]), addSince, Option.map]
  | get noRootId =>
      rw [after, FsEvent.other]
      split <;> rfl
  | remove noRootId =>
      have different : noRootId ≠ key := by
        rintro rfl
        exact notRemoved rfl
      rw [after, if_neg different, FsEvent.other, addSince]
  | clearCache =>
      rw [after, FsEvent.other, addSince]
      exact Option.filter_eq_some_iff.mpr ⟨rfl, stays rfl⟩

theorem after_none {event : FsEvent ι} (notPut : ∀ item flags, event ≠ .put key item flags) :
    after key none event = none := by
  cases event with
  | put noRootId item flags =>
      have different : noRootId ≠ key := by
        rintro rfl
        exact notPut item flags rfl
      rw [after, if_neg different]
      split <;> rfl
  | get noRootId =>
      rw [after]
      split <;> rfl
  | remove noRootId =>
      rw [after]
      split <;> rfl
  | clearCache => rfl

/-- Nothing is there until it is put. -/
theorem run_none {later : List (FsEvent ι)}
    (noPut : ∀ item flags, FsEvent.put key item flags ∉ later) :
    run (after key) none later = none := by
  induction later with
  | nil => rfl
  | cons event later ih =>
      rw [run_cons, after_none fun item flags same =>
        noPut item flags (same ▸ List.mem_cons_self)]
      exact ih fun item flags member => noPut item flags (List.mem_cons_of_mem event member)

/-- What was put stays until it is put again, removed or cleared. -/
theorem run_some {later : List (FsEvent ι)} {entry : Newest ι}
    (noPut : ∀ item flags, FsEvent.put key item flags ∉ later)
    (noRemove : FsEvent.remove key ∉ later)
    (stays : FsEvent.clearCache ∈ later → entry.sticky = true) :
    run (after key) (some entry) later =
      some { entry with since := entry.since ∪ FsEvent.others key later } := by
  induction later generalizing entry with
  | nil => simp [FsEvent.others]
  | cons event later ih =>
      have next : after key (some entry) event = some (entry.addSince (event.other key)) :=
        after_other (fun item flags same => noPut item flags (same ▸ List.mem_cons_self))
          (fun same => noRemove (same ▸ List.mem_cons_self))
          fun same => stays (same ▸ List.mem_cons_self)
      rw [run_cons, next, ih (fun item flags member => noPut item flags
          (List.mem_cons_of_mem event member))
        (fun member => noRemove (List.mem_cons_of_mem event member))
        fun member => (addSince_sticky entry _).trans (stays (List.mem_cons_of_mem event member))]
      cases used : event.other key with
      | none => simp [FsEvent.others, used, addSince]
      | some name => simp [FsEvent.others, used, addSince, use]

/-- What is not sticky does not survive the clearing of the cache. -/
theorem run_clearCache {later : List (FsEvent ι)} {entry : Newest ι}
    (noPut : ∀ item flags, FsEvent.put key item flags ∉ later)
    (noRemove : FsEvent.remove key ∉ later) (notSticky : entry.sticky = false)
    (cleared : FsEvent.clearCache ∈ later) : run (after key) (some entry) later = none := by
  induction later generalizing entry with
  | nil => cases cleared
  | cons event later ih =>
      have noPut' : ∀ item flags, FsEvent.put key item flags ∉ later :=
        fun item flags member => noPut item flags (List.mem_cons_of_mem event member)
      by_cases clears : event = .clearCache
      · have forgotten : after key (some entry) event = none := by
          rw [clears, after, Option.filter_some, notSticky, if_neg Bool.false_ne_true]
        rw [run_cons, forgotten]
        exact run_none noPut'
      · have next : after key (some entry) event = some (entry.addSince (event.other key)) :=
          after_other (fun item flags same => noPut item flags (same ▸ List.mem_cons_self))
            (fun same => noRemove (same ▸ List.mem_cons_self)) fun same => absurd same clears
        rw [run_cons, next]
        refine ih noPut' (fun member => noRemove (List.mem_cons_of_mem event member))
          ((addSince_sticky entry _).trans notSticky) ?_
        exact (List.mem_cons.mp cleared).resolve_left (Ne.symm clears)

end Newest

namespace FsState

variable {ι : Type}

theorem run_watchStep (key : JavaString) (state : FsState ι) (newest : Option (Newest ι))
    (events : List (FsEvent ι)) :
    run (watchStep key) (state, newest) events =
      (run step state events, run (Newest.after key) newest events) := by
  induction events generalizing state newest with
  | nil => rfl
  | cons event events ih => exact ih (state.step event) (Newest.after key newest event)

/-- What is found after operations each of which leaves no older item. -/
theorem answers_of_leavesOne {key : JavaString} {events : List (FsEvent ι)}
    (leavesOne : Meets (watchStep key) (LeavesOne key) ((empty : FsState ι), none) events) :
    Newest.Answers (run (Newest.after key) none events) ((run step empty events).found key) := by
  have answers := ((answers_iff_leavesOne key events).mpr leavesOne).last
  rw [run_watchStep] at answers
  exact answers

/-- Where no operation leaves an older item to be found, a key that was removed
is not found, a key that was put is found with the item put last, a sticky item
survives the clearing of the cache and others do not.  An item that is not sticky
may be forgotten once so many other keys were used as the cache has room for. -/
theorem behaves_as_map (key : JavaString) (before : List (FsEvent ι)) (event : FsEvent ι)
    (later : List (FsEvent ι))
    (leavesOne : Meets (watchStep key) (LeavesOne key) ((empty : FsState ι), none)
      (before ++ event :: later))
    (noPut : ∀ item flags, FsEvent.put key item flags ∉ later) :
    (event = .remove key →
        (run step (empty : FsState ι) (before ++ event :: later)).found key = none) ∧
      ∀ item flags, event = .put key item flags → FsEvent.remove key ∉ later →
        (isSticky flags = true →
          (run step empty (before ++ event :: later)).found key = some item) ∧
        (isSticky flags = false → FsEvent.clearCache ∈ later →
          (run step empty (before ++ event :: later)).found key = none) ∧
        (isSticky flags = false → FsEvent.clearCache ∉ later →
          (run step empty (before ++ event :: later)).found key = some item ∨
            (run step empty (before ++ event :: later)).found key = none ∧
              FsCache.entryLimit ≤ (FsEvent.others key later).card) := by
  have answers := answers_of_leavesOne leavesOne
  rw [run_append, run_cons] at answers
  constructor
  · rintro rfl
    rw [Newest.after, if_pos rfl, Newest.run_none noPut] at answers
    exact answers
  · rintro item flags rfl noRemove
    rw [Newest.after, if_pos rfl] at answers
    refine ⟨fun sticky => ?_, fun notSticky cleared => ?_, fun notSticky notCleared => ?_⟩
    · rw [Newest.run_some noPut noRemove fun _ => sticky] at answers
      exact answers.resolve_right fun forgotten => by
        cases forgotten.2.1.symm.trans sticky
    · rw [Newest.run_clearCache noPut noRemove notSticky cleared] at answers
      exact answers
    · rw [Newest.run_some noPut noRemove fun cleared => absurd cleared notCleared] at answers
      rcases answers with same | ⟨missing, _, many⟩
      · exact Or.inl same
      · exact Or.inr ⟨missing, by simpa using many⟩

/-- A document that is being created stays known when the cache is cleared. -/
theorem created_survives :
    (run step (empty : FsState Nat)
      [.put ("r:/b".toList) 1 FsStateNode.CACHED, .put ("r:/a".toList) 2 FsStateNode.STICKY,
        .clearCache]).found ("r:/a".toList) = some 2 := by
  have leavesOne : Meets (watchStep ("r:/a".toList)) (LeavesOne ("r:/a".toList))
      ((empty : FsState Nat), none)
      [.put ("r:/b".toList) 1 FsStateNode.CACHED, .put ("r:/a".toList) 2 FsStateNode.STICKY,
        .clearCache] := by
    refine ⟨fun same => absurd same (by decide), fun _ notSticky => ?_, ?_, trivial⟩
    · cases notSticky
    · rintro entry isEntry notSticky
      cases isEntry
      cases notSticky
  exact ((behaves_as_map ("r:/a".toList) [.put ("r:/b".toList) 1 FsStateNode.CACHED]
    (.put ("r:/a".toList) 2 FsStateNode.STICKY) [.clearCache] leavesOne
    fun _ _ member => by cases List.mem_singleton.mp member).2 2 FsStateNode.STICKY rfl
    fun member => by cases List.mem_singleton.mp member).1 rfl

/-! ## A folder with more items than the cache has room for -/

/-- The id of one of the documents of a folder. -/
def fileId (number : Nat) : JavaString :=
  "r:/".toList ++ List.replicate number 'a'

theorem fileId_injective {one other : Nat} (same : fileId one = fileId other) : one = other := by
  have lengths := congrArg List.length same
  simpa [fileId] using lengths

/-- A folder is listed, and each of its items put into the cache. -/
def listing (count : Nat) : List (FsEvent Nat) :=
  (List.range count).map fun number => .put (fileId number) number FsStateNode.CACHED

theorem listing_cached (count : Nat) :
    (run step (empty : FsState Nat) (listing count)).stickyMap = ∅ ∧
      (run step (empty : FsState Nat) (listing count)).fsCache.entries =
        ((List.range count).reverse.map fun number => ⟨fileId number, number⟩).take
          FsCache.entryLimit := by
  induction count with
  | zero => exact ⟨rfl, rfl⟩
  | succ count ih =>
      obtain ⟨noSticky, cached⟩ := ih
      have split : listing (count + 1) =
          listing count ++ [.put (fileId count) count FsStateNode.CACHED] := by
        rw [listing, List.range_succ, List.map_append]
        rfl
      rw [split, run_append]
      generalize run step empty (listing count) = state at noSticky cached
      refine ⟨noSticky, ?_⟩
      have fresh : fileId count ∉ state.fsCache.entries.keys := by
        rw [cached]
        intro member
        obtain ⟨entry, inCache, same⟩ := List.mem_map.mp member
        obtain ⟨number, inRange, rfl⟩ := List.mem_map.mp (List.mem_of_mem_take inCache)
        have below := List.mem_range.mp (List.mem_reverse.mp inRange)
        exact absurd (fileId_injective same) (Nat.ne_of_lt below)
      change List.take FsCache.entryLimit
        (⟨fileId count, count⟩ :: List.kerase (fileId count) state.fsCache.entries) = _
      rw [List.kerase_of_notMem_keys fresh, cached, List.range_succ, List.reverse_append,
        FsCache.entryLimit_eq]
      simp [List.take_succ_cons, List.take_take]

theorem listing_succ (count : Nat) :
    listing (count + 1) = .put (fileId 0) 0 FsStateNode.CACHED ::
      (List.range count).map fun number =>
        .put (fileId (number + 1)) (number + 1) FsStateNode.CACHED := by
  rw [listing, List.range_succ_eq_map, List.map_cons, List.map_map]
  rfl

/-- The first of one item too many is forgotten. -/
theorem listing_forgets :
    (run step (empty : FsState Nat) (listing (FsCache.entryLimit + 1))).found (fileId 0) = none := by
  obtain ⟨noSticky, cached⟩ := listing_cached (FsCache.entryLimit + 1)
  generalize run step (empty : FsState Nat) (listing (FsCache.entryLimit + 1)) = state
    at noSticky cached
  rw [found_of_not_sticky (by rw [noSticky]; exact AList.lookup_empty _), AList.lookup_eq_none]
  intro member
  obtain ⟨entry, inCache, isFirst⟩ := List.mem_map.mp member
  have others : (List.range (FsCache.entryLimit + 1)).reverse.take FsCache.entryLimit =
      ((List.range FsCache.entryLimit).map Nat.succ).reverse := by
    rw [List.range_succ_eq_map, List.reverse_cons]
    exact List.take_left' (by rw [List.length_reverse, List.length_map, List.length_range])
  rw [cached, ← List.map_take, others] at inCache
  obtain ⟨number, inRange, rfl⟩ := List.mem_map.mp inCache
  obtain ⟨less, _, rfl⟩ := List.mem_map.mp (List.mem_reverse.mp inRange)
  cases fileId_injective isFirst

/-- A folder with 1334 items is listed, and then its first item is looked up. -/
theorem longListing_not_map :
    ¬∀ (key : JavaString) (before : List (FsEvent Nat)) (item : Nat) (flags : BitVec 32)
        (later : List (FsEvent Nat)),
      (∀ other otherFlags, FsEvent.put key other otherFlags ∉ later) →
        FsEvent.remove key ∉ later → FsEvent.clearCache ∉ later →
          (run step empty (before ++ .put key item flags :: later)).found key = some item := by
  intro finds
  have found := finds (fileId 0) [] 0 FsStateNode.CACHED
    ((List.range FsCache.entryLimit).map fun number =>
      .put (fileId (number + 1)) (number + 1) FsStateNode.CACHED) ?_ ?_ ?_
  · rw [List.nil_append, ← listing_succ, listing_forgets] at found
    cases found
  · intro other otherFlags member
    obtain ⟨number, _, same⟩ := List.mem_map.mp member
    cases fileId_injective (FsEvent.put.inj same).1
  · intro member
    obtain ⟨number, _, same⟩ := List.mem_map.mp member
    cases same
  · intro member
    obtain ⟨number, _, same⟩ := List.mem_map.mp member
    cases same

end FsState

end RoundSync.Provider
