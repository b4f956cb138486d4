import RoundSync.Data.Table
import Mathlib.Data.Finset.Card

/-!
# Caches that drop what was used least recently

A cache is a finite table whose entries stand in the order of their last use,
latest first.  All entries have one size, so that a bound on the total size is a
bound on their number: what exceeds it is dropped from the end.
-/

namespace RoundSync.Data.LruCache

universe u v

variable {κ : Type u} {ν : Type v}

/-- The entries that fit, by their last use. -/
def trimToSize (limit : Nat) (cache : Table κ ν) : Table κ ν :=
  ⟨cache.entries.take limit, ((List.take_sublist limit _).map Sigma.fst).nodup cache.nodupKeys⟩

theorem lookup_of_trimToSize [DecidableEq κ] {limit : Nat} {cache : Table κ ν} {key : κ}
    {value : ν} (found : (trimToSize limit cache).lookup key = some value) :
    cache.lookup key = some value := by
  rw [← Option.mem_def, AList.mem_lookup_iff] at found ⊢
  exact List.mem_of_mem_take found

variable [DecidableEq κ]

def put (limit : Nat) (cache : Table κ ν) (key : κ) (value : ν) : Table κ ν :=
  trimToSize limit (cache.insert key value)

/-- An access moves the entry to the front. -/
def touch (cache : Table κ ν) (key : κ) : Table κ ν :=
  match cache.lookup key with
  | some value => cache.insert key value
  | none => cache

@[simp]
theorem lookup_touch (cache : Table κ ν) (key other : κ) :
    (touch cache key).lookup other = cache.lookup other := by
  unfold touch
  cases found : cache.lookup key with
  | none => rfl
  | some value =>
      by_cases same : other = key
      · subst other
        exact (AList.lookup_insert cache).trans found.symm
      · exact AList.lookup_insert_ne same

/-- What is still there of the other entries after a put is as it was. -/
theorem lookup_of_put {limit : Nat} {cache : Table κ ν} {key other : κ} {value found : ν}
    (different : other ≠ key) (still : (put limit cache key value).lookup other = some found) :
    cache.lookup other = some found := by
  have inserted := lookup_of_trimToSize still
  rwa [AList.lookup_insert_ne different] at inserted

/-! ## Where an entry stands -/

/-- The cache has this entry, and only entries with keys of `used` stand before it. -/
def Behind (cache : Table κ ν) (key : κ) (value : ν) (used : Finset κ) : Prop :=
  ∃ front back, cache.entries = front ++ ⟨key, value⟩ :: back ∧
    ∀ entry ∈ front, entry.1 ∈ used

namespace Behind

variable {limit : Nat} {cache : Table κ ν} {key other : κ} {value : ν} {used : Finset κ}

theorem lookup (behind : Behind cache key value used) : cache.lookup key = some value := by
  obtain ⟨front, back, entries, _⟩ := behind
  rw [← Option.mem_def, AList.mem_lookup_iff, entries]
  exact List.mem_append_right front List.mem_cons_self

/-- An entry stands behind at most as many others as there are keys. -/
theorem length_le {front back : List (Σ _ : κ, ν)}
    (entries : cache.entries = front ++ back) (ahead : ∀ entry ∈ front, entry.1 ∈ used) :
    front.length ≤ used.card := by
  have distinct : (front.map Sigma.fst).Nodup := by
    have all := cache.nodupKeys
    rw [entries] at all
    exact ((List.sublist_append_left front back).map Sigma.fst).nodup all
  calc front.length = (front.map Sigma.fst).toFinset.card := by
        rw [List.toFinset_card_of_nodup distinct, List.length_map]
    _ ≤ used.card := by
        refine Finset.card_le_card fun name member => ?_
        obtain ⟨entry, inFront, rfl⟩ := List.mem_map.mp (List.mem_toFinset.mp member)
        exact ahead entry inFront

theorem trimToSize (behind : Behind cache key value used) (few : used.card < limit) :
    Behind (trimToSize limit cache) key value used := by
  obtain ⟨front, back, entries, ahead⟩ := behind
  have short : front.length < limit := (length_le entries ahead).trans_lt few
  refine ⟨front, back.take (limit - (front.length + 1)), ?_, ahead⟩
  change cache.entries.take limit = _
  obtain ⟨room, equal⟩ := Nat.exists_eq_add_of_lt short
  rw [entries, equal, List.take_append, List.take_of_length_le (by omega)]
  congr 1
  rw [show front.length + room + 1 - front.length = room + 1 by omega, List.take_succ_cons,
    show front.length + room + 1 - (front.length + 1) = room by omega]

theorem erase (behind : Behind cache key value used) (different : other ≠ key) :
    Behind (cache.erase other) key value used := by
  obtain ⟨front, back, entries, ahead⟩ := behind
  have erased : (cache.erase other).entries =
      List.kerase other (front ++ ⟨key, value⟩ :: back) :=
    congrArg (List.kerase other) entries
  by_cases inFront : other ∈ front.keys
  · rw [List.kerase_append_left inFront] at erased
    exact ⟨List.kerase other front, back, erased,
      fun entry member => ahead entry ((List.kerase_sublist other front).subset member)⟩
  · rw [List.kerase_append_right inFront, List.kerase_cons_ne different] at erased
    exact ⟨front, List.kerase other back, erased, ahead⟩

theorem insert_self (cache : Table κ ν) (key : κ) (value : ν) (used : Finset κ) :
    Behind (cache.insert key value) key value used :=
  ⟨[], List.kerase key cache.entries, rfl, fun _ member => absurd member List.not_mem_nil⟩

theorem insert (behind : Behind cache key value used) (different : other ≠ key)
    (newValue : ν) : Behind (cache.insert other newValue) key value (Insert.insert other used) := by
  obtain ⟨front, back, entries, ahead⟩ := behind.erase different
  refine ⟨⟨other, newValue⟩ :: front, back, congrArg (List.cons _) entries, ?_⟩
  intro entry member
  rcases List.mem_cons.mp member with rfl | inFront
  · exact Finset.mem_insert_self other used
  · exact Finset.mem_insert_of_mem (ahead entry inFront)

omit [DecidableEq κ] in
theorem mono {more : Finset κ} (behind : Behind cache key value used) (sub : used ⊆ more) :
    Behind cache key value more := by
  obtain ⟨front, back, entries, ahead⟩ := behind
  exact ⟨front, back, entries, fun entry member => sub (ahead entry member)⟩

/-- What was just put stands first. -/
theorem put_self (room : 0 < limit) (cache : Table κ ν) (key : κ) (value : ν) :
    Behind (put limit cache key value) key value ∅ :=
  (insert_self cache key value ∅).trimToSize room

/-- An entry is dropped only once so many others have been put or read. -/
theorem put (behind : Behind cache key value used) (different : other ≠ key) (newValue : ν)
    (few : (Insert.insert other used).card < limit) :
    Behind (LruCache.put limit cache other newValue) key value (Insert.insert other used) :=
  (behind.insert different newValue).trimToSize few

theorem touch (behind : Behind cache key value used) (different : other ≠ key) :
    Behind (touch cache other) key value (Insert.insert other used) := by
  unfold LruCache.touch
  cases cache.lookup other with
  | none => exact behind.mono (Finset.subset_insert other used)
  | some otherValue => exact behind.insert different otherValue

theorem touch_self (behind : Behind cache key value used) :
    Behind (LruCache.touch cache key) key value used := by
  unfold LruCache.touch
  rw [behind.lookup]
  exact insert_self cache key value used

end Behind

end RoundSync.Data.LruCache
