import Mathlib.Data.List.AList

/-!
# Finite tables

A finite table is an association list with distinct keys (`AList` at a constant
family of types).  This file adds the operations that keep the entries meeting
a test and that rename the keys, and the list of values.
-/

namespace RoundSync.Data

universe u v

/-- A finite map with its entries in insertion order, latest first. -/
abbrev Table (κ : Type u) (ν : Type v) := AList fun _ : κ => ν

namespace Table

variable {κ : Type u} {ν : Type v}

/-- Keep the entries whose value meets the test. -/
def keep (table : Table κ ν) (test : ν → Bool) : Table κ ν :=
  ⟨table.entries.filter fun entry => test entry.2,
    (List.filter_sublist.map Sigma.fst).nodup table.nodupKeys⟩

/-- Keep the entries whose key meets the test. -/
def keepKeys (table : Table κ ν) (test : κ → Bool) : Table κ ν :=
  ⟨table.entries.filter fun entry => test entry.1,
    (List.filter_sublist.map Sigma.fst).nodup table.nodupKeys⟩

/-- Rename the keys by a function that keeps them apart. -/
def mapKeys (table : Table κ ν) (rename : κ → κ)
    (apart : ∀ first ∈ table.keys, ∀ second ∈ table.keys,
      rename first = rename second → first = second) : Table κ ν :=
  ⟨table.entries.map fun entry => ⟨rename entry.1, entry.2⟩, by
    have keysEq : (table.entries.map fun entry => (⟨rename entry.1, entry.2⟩ : Σ _ : κ, ν)).keys =
        table.keys.map rename := by
      simp [AList.keys, List.keys]
    rw [List.NodupKeys, keysEq]
    exact List.Nodup.map_on apart table.keys_nodup⟩

/-- Change one value, or drop its entry. -/
def changeEntry {μ : Type v} (change : ν → Option μ) (entry : Σ _ : κ, ν) : Option (Σ _ : κ, μ) :=
  (change entry.2).map fun value => ⟨entry.1, value⟩

theorem keys_changeEntry_sublist {μ : Type v} (change : ν → Option μ)
    (entries : List (Σ _ : κ, ν)) :
    ((entries.filterMap (changeEntry change)).map Sigma.fst).Sublist
      (entries.map Sigma.fst) := by
  induction entries with
  | nil => exact List.Sublist.refl _
  | cons entry entries ih =>
      rw [List.filterMap_cons, changeEntry]
      cases change entry.2 with
      | none => exact ih.cons entry.1
      | some value => exact ih.cons_cons entry.1

/-- Change the values, and drop the entries without one. -/
def filterMap {μ : Type v} (table : Table κ ν) (change : ν → Option μ) : Table κ μ :=
  ⟨table.entries.filterMap (changeEntry change),
    (keys_changeEntry_sublist change table.entries).nodup table.nodupKeys⟩

/-- The values in entry order. -/
def values (table : Table κ ν) : List ν :=
  table.entries.map Sigma.snd

variable [DecidableEq κ]

theorem lookup_keep_eq_some_iff {table : Table κ ν} {test : ν → Bool} {key : κ} {value : ν} :
    (table.keep test).lookup key = some value ↔
      table.lookup key = some value ∧ test value = true := by
  rw [← Option.mem_def, ← Option.mem_def, AList.mem_lookup_iff, AList.mem_lookup_iff]
  exact List.mem_filter

theorem lookup_keepKeys_eq_some_iff {table : Table κ ν} {test : κ → Bool} {key : κ} {value : ν} :
    (table.keepKeys test).lookup key = some value ↔
      table.lookup key = some value ∧ test key = true := by
  rw [← Option.mem_def, ← Option.mem_def, AList.mem_lookup_iff, AList.mem_lookup_iff]
  exact List.mem_filter

theorem lookup_filterMap {μ : Type v} (table : Table κ ν) (change : ν → Option μ) (key : κ) :
    (table.filterMap change).lookup key = (table.lookup key).bind change := by
  ext value
  simp only [Option.bind_eq_some_iff]
  simp only [← Option.mem_def, AList.mem_lookup_iff]
  constructor
  · intro member
    obtain ⟨⟨other, old⟩, oldMember, changed⟩ := List.mem_filterMap.mp member
    obtain ⟨new, isNew, equal⟩ := Option.map_eq_some_iff.mp changed
    cases equal
    exact ⟨old, oldMember, isNew⟩
  · rintro ⟨old, oldMember, isNew⟩
    exact List.mem_filterMap.mpr
      ⟨⟨key, old⟩, oldMember, Option.map_eq_some_iff.mpr ⟨value, isNew, rfl⟩⟩

theorem lookup_mapKeys_eq_some_iff {table : Table κ ν} {rename : κ → κ}
    {apart : ∀ first ∈ table.keys, ∀ second ∈ table.keys,
      rename first = rename second → first = second} {key : κ} {value : ν} :
    (table.mapKeys rename apart).lookup key = some value ↔
      ∃ old, rename old = key ∧ table.lookup old = some value := by
  simp only [← Option.mem_def, AList.mem_lookup_iff]
  constructor
  · intro member
    obtain ⟨⟨old, found⟩, oldMember, equal⟩ := List.mem_map.mp member
    cases equal
    exact ⟨old, rfl, oldMember⟩
  · rintro ⟨old, rfl, oldMember⟩
    exact List.mem_map.mpr ⟨⟨old, value⟩, oldMember, rfl⟩

theorem mem_values_iff {table : Table κ ν} {value : ν} :
    value ∈ table.values ↔ ∃ key, table.lookup key = some value := by
  simp only [values, List.mem_map]
  constructor
  · rintro ⟨⟨key, _⟩, member, rfl⟩
    exact ⟨key, AList.mem_lookup_iff.mpr member⟩
  · rintro ⟨key, found⟩
    exact ⟨⟨key, value⟩, AList.mem_lookup_iff.mp found, rfl⟩

theorem lookup_insert_eq_some_iff {table : Table κ ν} {key other : κ} {value found : ν} :
    (table.insert key value).lookup other = some found ↔
      other = key ∧ value = found ∨ other ≠ key ∧ table.lookup other = some found := by
  by_cases same : other = key
  · subst other
    simp
  · simp [AList.lookup_insert_ne same, same]

theorem lookup_erase_eq_some_iff {table : Table κ ν} {key other : κ} {found : ν} :
    (table.erase key).lookup other = some found ↔
      other ≠ key ∧ table.lookup other = some found := by
  by_cases same : other = key
  · subst other
    simp
  · simp [AList.lookup_erase_ne same, same]

theorem mem_values_insert {table : Table κ ν} {key : κ} {value found : ν}
    (member : found ∈ Table.values (table.insert key value)) : found = value ∨ found ∈ table.values := by
  obtain ⟨other, isFound⟩ := mem_values_iff.mp member
  rcases lookup_insert_eq_some_iff.mp isFound with ⟨_, same⟩ | ⟨_, before⟩
  · exact Or.inl same.symm
  · exact Or.inr (mem_values_iff.mpr ⟨other, before⟩)

theorem mem_values_erase {table : Table κ ν} {key : κ} {found : ν}
    (member : found ∈ Table.values (table.erase key)) : found ∈ table.values := by
  obtain ⟨other, isFound⟩ := mem_values_iff.mp member
  exact mem_values_iff.mpr ⟨other, (lookup_erase_eq_some_iff.mp isFound).2⟩

theorem mem_values_keepKeys {table : Table κ ν} {test : κ → Bool} {found : ν}
    (member : found ∈ (table.keepKeys test).values) : found ∈ table.values := by
  obtain ⟨other, isFound⟩ := mem_values_iff.mp member
  exact mem_values_iff.mpr ⟨other, (lookup_keepKeys_eq_some_iff.mp isFound).1⟩

theorem erase_of_lookup_eq_none {table : Table κ ν} {key : κ} (absent : table.lookup key = none) :
    table.erase key = table :=
  AList.ext (List.kerase_of_notMem_keys (AList.lookup_eq_none.mp absent))

/-- An entry that is erased is one of the entries before. -/
theorem exists_entries_of_erase {table : Table κ ν} {key : κ} {value : ν}
    (found : table.lookup key = some value) :
    ∃ front back, table.entries = front ++ ⟨key, value⟩ :: back ∧
      (table.erase key).entries = front ++ back := by
  have member : ⟨key, value⟩ ∈ table.entries := AList.mem_lookup_iff.mp found
  obtain ⟨other, front, back, _, entries, erased⟩ :=
    List.exists_of_kerase (List.mem_keys_of_mem member)
  have foundOther : table.lookup key = some other := by
    rw [← Option.mem_def, AList.mem_lookup_iff, entries]
    exact List.mem_append_right front List.mem_cons_self
  obtain rfl : value = other := Option.some.inj (found.symm.trans foundOther)
  exact ⟨front, back, entries, erased⟩

/-- A value and the values that are left without its entry are all the values. -/
theorem values_perm_of_lookup {table : Table κ ν} {key : κ} {value : ν}
    (found : table.lookup key = some value) :
    table.values.Perm (value :: Table.values (table.erase key)) := by
  obtain ⟨front, back, entries, erased⟩ := exists_entries_of_erase found
  simp only [values, entries, erased, List.map_append, List.map_cons]
  exact List.perm_middle

/-- Entries put one after another: those with a key, and before them the table. -/
theorem lookup_foldl_insert {μ : Type v} (change : ν → μ) {entries : List (Σ _ : κ, ν)}
    (distinct : entries.NodupKeys) (table : Table κ μ) (key : κ) :
    (entries.foldl (fun (table : Table κ μ) entry => table.insert entry.1 (change entry.2))
      table).lookup key = ((entries.dlookup key).map change).or (table.lookup key) := by
  induction entries generalizing table with
  | nil => simp
  | cons entry entries ih =>
      obtain ⟨other, value⟩ := entry
      obtain ⟨fresh, rest⟩ := List.nodupKeys_cons.mp distinct
      rw [List.foldl_cons, ih rest]
      by_cases same : key = other
      · subst same
        have absent : entries.dlookup key = none := List.dlookup_eq_none.mpr fresh
        simp [absent]
      · rw [List.dlookup_cons_ne entries ⟨other, value⟩ same, AList.lookup_insert_ne same]

/-- Entries put into an empty table. -/
theorem lookup_rebuilt {μ : Type v} (change : ν → μ) (table : Table κ ν) (key : κ) :
    (table.entries.foldl (fun (rebuilt : Table κ μ) entry =>
      rebuilt.insert entry.1 (change entry.2)) ∅).lookup key = (table.lookup key).map change := by
  rw [lookup_foldl_insert change table.nodupKeys, AList.lookup_empty, Option.or_none]
  rfl

end Table

end RoundSync.Data
