import Mathlib.Data.List.Pairwise
import Mathlib.Order.Basic
import Mathlib.Order.Defs.LinearOrder
import Mathlib.Order.Lattice

/-!
# Tables with a row id

A table whose primary key is its row id: the rows stand in ascending order of
their ids, so equal tables have equal lists of rows.  Inserting a used id
fails.  A row without an id gets the successor of the largest one.
-/

namespace RoundSync.Data

universe u v w

/-- Rows in strictly ascending order of their ids. -/
@[ext]
structure RowTable (κ : Type u) (ρ : Type v) [LT κ] where
  rows : List (κ × ρ)
  ascending : rows.Pairwise fun first second => first.1 < second.1

namespace RowTable

variable {κ : Type u} {ρ : Type v} [LinearOrder κ]

instance [DecidableEq ρ] : DecidableEq (RowTable κ ρ) := fun one other =>
  decidable_of_iff (one.rows = other.rows) RowTable.ext_iff.symm

def empty : RowTable κ ρ :=
  ⟨[], List.Pairwise.nil⟩

def ids (table : RowTable κ ρ) : List κ :=
  table.rows.map Prod.fst

theorem mem_ids_iff {table : RowTable κ ρ} {id : κ} :
    id ∈ table.ids ↔ ∃ row, (id, row) ∈ table.rows := by
  simp [ids]

theorem ids_nodup (table : RowTable κ ρ) : table.ids.Nodup :=
  (List.pairwise_map.mpr table.ascending).imp fun less => ne_of_lt less

/-- The rows meeting a test on their ids. -/
def filterIds (table : RowTable κ ρ) (test : κ → Bool) : RowTable κ ρ :=
  ⟨table.rows.filter fun entry => test entry.1, table.ascending.filter _⟩

def delete (table : RowTable κ ρ) (id : κ) : RowTable κ ρ :=
  table.filterIds (· ≠ id)

/-- Give the row of an id other columns; nothing changes where there is none. -/
def update (table : RowTable κ ρ) (id : κ) (row : ρ) : RowTable κ ρ :=
  ⟨table.rows.map fun entry => if entry.1 = id then (entry.1, row) else entry, by
    apply List.pairwise_map.mpr
    apply table.ascending.imp
    intro first second less
    have keeps : ∀ entry : κ × ρ,
        (if entry.1 = id then (entry.1, row) else entry).1 = entry.1 := by
      intro entry
      split_ifs
      · rfl
      · rfl
    rw [keeps, keeps]
    exact less⟩

/-- Insert a row at an id that is not used. -/
def insert (table : RowTable κ ρ) (id : κ) (row : ρ) : Option (RowTable κ ρ) :=
  if id ∈ table.ids then none
  else
    some ⟨(table.rows.filter fun entry => entry.1 < id) ++
        (id, row) :: table.rows.filter fun entry => id < entry.1, by
      apply List.pairwise_append.mpr
      refine ⟨table.ascending.filter _, List.pairwise_cons.mpr ⟨?_, table.ascending.filter _⟩, ?_⟩
      · intro entry member
        simpa using (List.mem_filter.mp member).2
      · intro first firstMember second secondMember
        have below : first.1 < id := by simpa using (List.mem_filter.mp firstMember).2
        rcases List.mem_cons.mp secondMember with rfl | later
        · exact below
        · have above : id < second.1 := by simpa using (List.mem_filter.mp later).2
          exact below.trans above⟩

/-- The id of the last row. -/
def largest (table : RowTable κ ρ) : Option κ :=
  table.ids.getLast?

@[simp]
theorem ids_empty : (empty : RowTable κ ρ).ids = [] :=
  rfl

theorem largest_eq_none_iff {table : RowTable κ ρ} : table.largest = none ↔ table.ids = [] :=
  List.getLast?_eq_none_iff

theorem largest_spec {table : RowTable κ ρ} {id : κ} (last : table.largest = some id) :
    id ∈ table.ids ∧ ∀ other ∈ table.ids, other ≤ id := by
  obtain ⟨before, idsEq⟩ := List.getLast?_eq_some_iff.mp last
  have ascending : table.ids.Pairwise (· < ·) := List.pairwise_map.mpr table.ascending
  rw [idsEq] at ascending ⊢
  constructor
  · simp
  · intro other member
    rcases List.mem_append.mp member with earlier | same
    · exact ((List.pairwise_append.mp ascending).2.2 other earlier id (by simp)).le
    · rw [List.mem_singleton.mp same]

theorem mem_rows_filterIds {table : RowTable κ ρ} {test : κ → Bool} {entry : κ × ρ} :
    entry ∈ (table.filterIds test).rows ↔ entry ∈ table.rows ∧ test entry.1 = true :=
  List.mem_filter

theorem mem_rows_delete {table : RowTable κ ρ} {id : κ} {entry : κ × ρ} :
    entry ∈ (table.delete id).rows ↔ entry ∈ table.rows ∧ entry.1 ≠ id := by
  rw [delete, mem_rows_filterIds, decide_eq_true_iff]

theorem mem_ids_delete {table : RowTable κ ρ} {id other : κ} :
    other ∈ (table.delete id).ids ↔ other ∈ table.ids ∧ other ≠ id := by
  simp only [mem_ids_iff, mem_rows_delete, exists_and_right]

@[simp]
theorem ids_update (table : RowTable κ ρ) (id : κ) (row : ρ) :
    (table.update id row).ids = table.ids := by
  simp only [ids, update, List.map_map]
  apply List.map_congr_left
  intro entry _
  rw [Function.comp_apply]
  split_ifs
  · rfl
  · rfl

theorem mem_rows_update {table : RowTable κ ρ} {id : κ} {row : ρ} {entry : κ × ρ} :
    entry ∈ (table.update id row).rows ↔
      entry.1 ≠ id ∧ entry ∈ table.rows ∨ entry = (id, row) ∧ id ∈ table.ids := by
  simp only [update, List.mem_map]
  constructor
  · rintro ⟨old, member, equal⟩
    split_ifs at equal with same
    · right
      subst same equal
      exact ⟨rfl, mem_ids_iff.mpr ⟨old.2, member⟩⟩
    · left
      subst equal
      exact ⟨same, member⟩
  · rintro (⟨apart, member⟩ | ⟨rfl, used⟩)
    · exact ⟨entry, member, if_neg apart⟩
    · obtain ⟨old, member⟩ := mem_ids_iff.mp used
      exact ⟨(id, old), member, if_pos rfl⟩

theorem insert_eq_some_iff {table next : RowTable κ ρ} {id : κ} {row : ρ} :
    table.insert id row = some next ↔
      id ∉ table.ids ∧ next.rows = (table.rows.filter fun entry => entry.1 < id) ++
        (id, row) :: table.rows.filter fun entry => id < entry.1 := by
  rw [insert]
  split_ifs with used
  · simp [used]
  · rw [Option.some.injEq, RowTable.ext_iff]
    constructor
    · intro equal
      exact ⟨used, equal.symm⟩
    · rintro ⟨_, equal⟩
      exact equal.symm

theorem mem_rows_insert {table next : RowTable κ ρ} {id : κ} {row : ρ} {entry : κ × ρ}
    (inserted : table.insert id row = some next) :
    entry ∈ next.rows ↔ entry = (id, row) ∨ entry ∈ table.rows := by
  obtain ⟨fresh, rowsEq⟩ := insert_eq_some_iff.mp inserted
  rw [rowsEq, List.mem_append, List.mem_cons, List.mem_filter, List.mem_filter]
  constructor
  · rintro (⟨member, _⟩ | rfl | ⟨member, _⟩)
    · exact Or.inr member
    · exact Or.inl rfl
    · exact Or.inr member
  · rintro (rfl | member)
    · exact Or.inr (Or.inl rfl)
    · rcases lt_trichotomy entry.1 id with below | same | above
      · exact Or.inl ⟨member, decide_eq_true below⟩
      · have used : id ∈ table.ids := mem_ids_iff.mpr ⟨entry.2, same ▸ member⟩
        exact absurd used fresh
      · exact Or.inr (Or.inr ⟨member, decide_eq_true above⟩)

theorem mem_ids_insert {table next : RowTable κ ρ} {id other : κ} {row : ρ}
    (inserted : table.insert id row = some next) :
    other ∈ next.ids ↔ other = id ∨ other ∈ table.ids := by
  simp only [mem_ids_iff, mem_rows_insert inserted, Prod.mk.injEq, exists_or, exists_and_left,
    exists_eq, and_true]

/-- A row whose id is above all others goes to the end. -/
theorem insert_of_above {table : RowTable κ ρ} {id : κ} {row : ρ}
    (above : ∀ entry ∈ table.rows, entry.1 < id) :
    ∃ next, table.insert id row = some next ∧ next.rows = table.rows ++ [(id, row)] := by
  have fresh : id ∉ table.ids := by
    intro used
    obtain ⟨old, member⟩ := mem_ids_iff.mp used
    exact lt_irrefl id (above _ member)
  have below : (table.rows.filter fun entry => entry.1 < id) = table.rows := by
    apply List.filter_eq_self.mpr
    intro entry member
    exact decide_eq_true (above entry member)
  have none : (table.rows.filter fun entry => id < entry.1) = [] := by
    apply List.filter_eq_nil_iff.mpr
    intro entry member
    simpa using (above entry member).le
  rw [insert, if_neg fresh]
  refine ⟨_, rfl, ?_⟩
  simp only [below, none]

/-! ## Filling a table -/

/-- Insert a list of rows, giving up at the first used id. -/
def insertAll (table : RowTable κ ρ) (rows : List (κ × ρ)) : Option (RowTable κ ρ) :=
  rows.foldlM (fun table entry => table.insert entry.1 entry.2) table

/-- Rows in ascending order, all above the table, end up behind it. -/
theorem insertAll_of_ascending {table : RowTable κ ρ} {rows : List (κ × ρ)}
    (ascending : (table.rows ++ rows).Pairwise fun first second => first.1 < second.1) :
    table.insertAll rows = some ⟨table.rows ++ rows, ascending⟩ := by
  induction rows generalizing table with
  | nil =>
      simp only [insertAll, List.foldlM_nil, List.append_nil]
      rfl
  | cons entry rows ih =>
      have above : ∀ old ∈ table.rows, old.1 < entry.1 := by
        intro old member
        exact (List.pairwise_append.mp ascending).2.2 old member entry List.mem_cons_self
      obtain ⟨next, inserted, nextRows⟩ := @insert_of_above κ ρ _ table entry.1 entry.2 above
      have split : table.rows ++ entry :: rows = next.rows ++ rows := by
        rw [nextRows, List.append_assoc, List.singleton_append]
      have step : table.insertAll (entry :: rows) = next.insertAll rows := by
        simp only [insertAll, List.foldlM_cons, inserted, Option.bind_eq_bind, Option.bind_some]
      rw [step, ih (split ▸ ascending)]
      simp only [split]

/-- Filling the empty table with the rows of a table gives that table. -/
theorem insertAll_rows (table : RowTable κ ρ) : empty.insertAll table.rows = some table :=
  insertAll_of_ascending table.ascending

/-- What a filled table holds, and when filling succeeds. -/
theorem insertAll_eq_some {table next : RowTable κ ρ} {rows : List (κ × ρ)}
    (filled : table.insertAll rows = some next) (entry : κ × ρ) :
    entry ∈ next.rows ↔ entry ∈ rows ∨ entry ∈ table.rows := by
  induction rows generalizing table with
  | nil =>
      cases filled
      simp
  | cons head rows ih =>
      obtain ⟨middle, inserted, rest⟩ := Option.bind_eq_some_iff.mp filled
      rw [ih rest, mem_rows_insert inserted, List.mem_cons, or_left_comm, or_assoc]

theorem insertAll_isSome_iff {table : RowTable κ ρ} {rows : List (κ × ρ)} :
    (table.insertAll rows).isSome ↔
      (rows.map Prod.fst).Nodup ∧ ∀ entry ∈ rows, entry.1 ∉ table.ids := by
  induction rows generalizing table with
  | nil => simp [insertAll]
  | cons head rows ih =>
      have step : table.insertAll (head :: rows) =
          (table.insert head.1 head.2).bind fun next => next.insertAll rows := rfl
      rw [step, List.map_cons, List.nodup_cons, List.forall_mem_cons]
      cases inserted : table.insert head.1 head.2 with
      | none =>
          have used : head.1 ∈ table.ids := by
            by_contra fresh
            rw [insert, if_neg fresh] at inserted
            cases inserted
          simp [used]
      | some next =>
          have fresh : head.1 ∉ table.ids := (insert_eq_some_iff.mp inserted).1
          rw [Option.bind_some, ih]
          simp only [mem_ids_insert inserted, not_or, List.mem_map, not_exists, not_and]
          constructor
          · rintro ⟨nodup, apart⟩
            exact ⟨⟨fun entry member => (apart entry member).1, nodup⟩, fresh,
              fun entry member => (apart entry member).2⟩
          · rintro ⟨⟨apart, nodup⟩, _, others⟩
            exact ⟨nodup, fun entry member => ⟨apart entry member, others entry member⟩⟩

end RowTable

end RoundSync.Data
