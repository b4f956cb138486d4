import RoundSync.Database.BackupRuns
import RoundSync.Transition.Core

/-!
# The lists of tasks and triggers

`TasksRecyclerViewAdapter` and `TriggerRecyclerViewAdapter` show the rows of a table.
Their lists hold mutable objects: the state gives each reference its object, and a list
may hold one reference more than once.  The database writes the id of a new row into the
object that it stores and returns that object.
-/

namespace RoundSync.RecyclerViewAdapters

open RoundSync.Data
open RoundSync.Database
open RoundSync.Text
open RoundSync.Transition

/-- What the two adapters know of their items. -/
structure Items (α : Type) where
  id : α → Int64
  /-- the item under its title with a text behind it -/
  retitled : α → JavaString → α
  create : Tables → Int64 → α → α × Tables
  delete : Tables → Int64 → Tables
  /-- the items that are read from the rows -/
  all : Tables → List α
  rowIds : Tables → List Int64
  map_id_all : ∀ db, (all db).map id = rowIds db
  nodup_rowIds : ∀ db, (rowIds db).Nodup
  mem_all_delete : ∀ db removed item,
    item ∈ all (delete db removed) ↔ item ∈ all db ∧ id item ≠ removed

/-- An adapter over the objects that `ι` refers to. -/
structure Adapter (α ι : Type) where
  objects : ι → α
  items : List ι
  db : Tables

/-- An entry of the menu, chosen at a position of the list.  The candidate is the row id
that SQLite draws once the largest possible one is used. -/
inductive Action where
  | copy (candidate : Int64) (position : Nat)
  | delete (position : Nat)

namespace Adapter

variable {α ι : Type} [DecidableEq ι] (kind : Items α) (suffix : JavaString)

/-- The entries as they are shown. -/
def displayed (adapter : Adapter α ι) : List α :=
  adapter.items.map adapter.objects

/-- Retitle an item, store it as a new row, and add what the database returns: the
same object. -/
def copyItem (adapter : Adapter α ι) (candidate : Int64) (item : ι) : Adapter α ι :=
  let retitled := kind.retitled (adapter.objects item) suffix
  let (created, db) := kind.create adapter.db candidate retitled
  { objects := Function.update adapter.objects item created
    items := adapter.items ++ [item]
    db }

/-- `List.indexOf` asks the items' `equals`, which compares nothing but their ids. -/
def removeItem (adapter : Adapter α ι) (item : ι) : Adapter α ι :=
  match adapter.items.findIdx? fun other =>
      kind.id (adapter.objects other) = kind.id (adapter.objects item) with
  | none => adapter
  | some index => { adapter with items := adapter.items.eraseIdx index }

def deleteItem (adapter : Adapter α ι) (item : ι) : Adapter α ι :=
  removeItem kind
    { adapter with db := kind.delete adapter.db (kind.id (adapter.objects item)) } item

/-- The menu of an entry; a position without an entry has none. -/
def onMenuItemClick (copy : Adapter α ι → Int64 → ι → Adapter α ι)
    (delete : Adapter α ι → ι → Adapter α ι) (adapter : Adapter α ι) : Action → Adapter α ι
  | .copy candidate position =>
      match adapter.items[position]? with
      | none => adapter
      | some item => copy adapter candidate item
  | .delete position =>
      match adapter.items[position]? with
      | none => adapter
      | some item => delete adapter item

def step : Adapter α ι → Action → Adapter α ι :=
  onMenuItemClick (copyItem kind suffix) (deleteItem kind)

/-- An adapter with the list that is read from the database. -/
def ofRows (db : Tables) : Adapter α (Fin (kind.all db).length) where
  objects := (kind.all db).get
  items := List.finRange _
  db := db

/-- The list agrees with the rows: each row is shown once, as it is read, and deleting an
entry deletes its row and no other. -/
structure Agrees (adapter : Adapter α ι) : Prop where
  distinct : (adapter.displayed.map kind.id).Nodup
  ids : ∀ id, id ∈ adapter.displayed.map kind.id ↔ id ∈ kind.rowIds adapter.db
  shows : ∀ entry ∈ adapter.displayed, entry ∈ kind.all adapter.db
  deletes : ∀ position entry, adapter.displayed[position]? = some entry →
    ∀ stored, stored ∈ kind.all (adapter.step kind suffix (.delete position)).db ↔
      stored ∈ kind.all adapter.db ∧ stored ≠ entry

/-- No entry is copied. -/
def NoCopy (adapter : Adapter α ι) : Action → Prop
  | .copy _ position => adapter.items.length ≤ position
  | .delete _ => True

/-! ## One action -/

section

variable {kind : Items α} {suffix : JavaString} {adapter : Adapter α ι}

/-- Where keys are distinct, removing the first one is removing all. -/
theorem eraseP_eq_filter {β κ : Type} [DecidableEq κ] {key : β → κ} {removed : κ} {list : List β}
    (distinct : (list.map key).Nodup) :
    (list.eraseP fun other => key other = removed) =
      list.filter fun other => key other ≠ removed := by
  induction list with
  | nil => rfl
  | cons head tail ih =>
      obtain ⟨fresh, rest⟩ := List.nodup_cons.mp distinct
      by_cases same : key head = removed
      · have others : ∀ other ∈ tail, key other ≠ removed := by
          intro other member equal
          exact fresh (List.mem_map.mpr ⟨other, member, equal.trans same.symm⟩)
        rw [List.eraseP_cons_of_pos (by simpa using same),
          List.filter_cons_of_neg (by simpa using same)]
        exact (List.filter_eq_self.mpr fun other member => by simpa using others other member).symm
      · rw [List.eraseP_cons_of_neg (by simpa using same),
          List.filter_cons_of_pos (by simpa using same), ih rest]

omit [DecidableEq ι] in
theorem removeItem_eq {item : ι} :
    adapter.removeItem kind item =
      { adapter with
        items := adapter.items.eraseP fun other =>
          kind.id (adapter.objects other) = kind.id (adapter.objects item) } := by
  rw [removeItem, List.eraseP_eq_eraseIdx]
  split
  next absent => rw [absent]
  next index found => rw [found]

omit [DecidableEq ι] in
@[simp]
theorem db_deleteItem {item : ι} :
    (adapter.deleteItem kind item).db =
      kind.delete adapter.db (kind.id (adapter.objects item)) := by
  rw [deleteItem, removeItem_eq]

omit [DecidableEq ι] in
/-- A list with distinct ids loses the entry that is deleted. -/
theorem displayed_deleteItem {item : ι} (distinct : (adapter.displayed.map kind.id).Nodup) :
    (adapter.deleteItem kind item).displayed =
      adapter.displayed.filter fun entry => kind.id entry ≠ kind.id (adapter.objects item) := by
  have keys : (adapter.items.map (kind.id ∘ adapter.objects)).Nodup := by
    simpa only [displayed, List.map_map] using distinct
  rw [deleteItem, removeItem_eq, displayed, displayed, List.filter_map]
  exact congrArg (List.map adapter.objects) (eraseP_eq_filter keys)

theorem eq_of_id_eq {db : Tables} {one other : α} (member : one ∈ kind.all db)
    (otherMember : other ∈ kind.all db) (same : kind.id one = kind.id other) : one = other := by
  have nodup : ((kind.all db).map kind.id).Nodup := by
    rw [kind.map_id_all]
    exact kind.nodup_rowIds db
  exact List.inj_on_of_nodup_map nodup member otherMember same

/-- Deleting an entry that is shown as it is stored deletes its row and no other. -/
theorem mem_all_step_delete {position : Nat} {entry : α}
    (shows : ∀ entry ∈ adapter.displayed, entry ∈ kind.all adapter.db)
    (chosen : adapter.displayed[position]? = some entry) (stored : α) :
    stored ∈ kind.all (adapter.step kind suffix (.delete position)).db ↔
      stored ∈ kind.all adapter.db ∧ stored ≠ entry := by
  have shown : entry ∈ kind.all adapter.db := shows entry (List.mem_of_getElem? chosen)
  rw [displayed, List.getElem?_map] at chosen
  obtain ⟨item, found, rfl⟩ := Option.map_eq_some_iff.mp chosen
  simp only [step, onMenuItemClick, found, db_deleteItem, kind.mem_all_delete]
  constructor
  · rintro ⟨member, apart⟩
    refine ⟨member, ?_⟩
    rintro rfl
    exact apart rfl
  · rintro ⟨member, apart⟩
    exact ⟨member, fun same => apart (eq_of_id_eq member shown same)⟩

/-- What a deletion does follows from what is shown. -/
theorem agrees_of_shows (distinct : (adapter.displayed.map kind.id).Nodup)
    (ids : ∀ id, id ∈ adapter.displayed.map kind.id ↔ id ∈ kind.rowIds adapter.db)
    (shows : ∀ entry ∈ adapter.displayed, entry ∈ kind.all adapter.db) :
    adapter.Agrees kind suffix where
  distinct := distinct
  ids := ids
  shows := shows
  deletes _ _ chosen := mem_all_step_delete shows chosen

theorem Agrees.deleteItem {item : ι} (agrees : adapter.Agrees kind suffix) :
    (adapter.deleteItem kind item).Agrees kind suffix := by
  have shown := @displayed_deleteItem α ι kind adapter item agrees.distinct
  apply agrees_of_shows
  · rw [shown]
    exact agrees.distinct.sublist (List.filter_sublist.map kind.id)
  · intro id
    rw [shown, ← kind.map_id_all, db_deleteItem]
    constructor
    · intro member
      obtain ⟨entry, kept, rfl⟩ := List.mem_map.mp member
      obtain ⟨old, apart⟩ := List.mem_filter.mp kept
      exact List.mem_map_of_mem
        ((kind.mem_all_delete _ _ _).mpr ⟨agrees.shows entry old, by simpa using apart⟩)
    · intro member
      obtain ⟨stored, kept, rfl⟩ := List.mem_map.mp member
      obtain ⟨old, apart⟩ := (kind.mem_all_delete _ _ _).mp kept
      have used : kind.id stored ∈ kind.rowIds adapter.db := by
        rw [← kind.map_id_all]
        exact List.mem_map_of_mem old
      obtain ⟨entry, entryShown, same⟩ := List.mem_map.mp ((agrees.ids _).mpr used)
      rw [← same] at apart ⊢
      exact List.mem_map_of_mem (List.mem_filter.mpr ⟨entryShown, by simpa using apart⟩)
  · intro entry member
    rw [shown] at member
    obtain ⟨old, apart⟩ := List.mem_filter.mp member
    rw [db_deleteItem]
    exact (kind.mem_all_delete _ _ _).mpr ⟨agrees.shows entry old, by simpa using apart⟩

/-- A copied object stands in the list twice. -/
theorem not_agrees_copyItem {candidate : Int64} {item : ι} (member : item ∈ adapter.items) :
    ¬(adapter.copyItem kind suffix candidate item).Agrees kind suffix := by
  intro agrees
  have distinct := agrees.distinct
  simp only [displayed, copyItem, List.map_append, List.map_cons, List.map_nil] at distinct
  have apart := (List.nodup_append.mp distinct).2.2
  exact apart _ (List.mem_map_of_mem (List.mem_map_of_mem member)) _ (List.mem_singleton_self _) rfl

/-- An action keeps the agreement exactly if it copies nothing. -/
theorem agrees_step_iff (action : Action) (agrees : adapter.Agrees kind suffix) :
    (adapter.step kind suffix action).Agrees kind suffix ↔ adapter.NoCopy action := by
  cases action with
  | copy candidate position =>
      rw [step, onMenuItemClick, NoCopy]
      split
      next absent => exact iff_of_true agrees (List.getElem?_eq_none_iff.mp absent)
      next item found =>
          obtain ⟨bound, _⟩ := List.getElem?_eq_some_iff.mp found
          exact iff_of_false (not_agrees_copyItem (List.mem_of_getElem? found))
            (Nat.not_le.mpr bound)
  | delete position =>
      rw [step, onMenuItemClick, NoCopy]
      split
      next absent => exact iff_of_true agrees trivial
      next item found => exact iff_of_true agrees.deleteItem trivial

end

/-! ## Runs -/

variable {kind suffix}

theorem displayed_ofRows (db : Tables) : (ofRows kind db).displayed = kind.all db :=
  List.map_get_finRange _

theorem agrees_ofRows (db : Tables) : (ofRows kind db).Agrees kind suffix := by
  apply agrees_of_shows
  · rw [displayed_ofRows, kind.map_id_all]
    exact kind.nodup_rowIds db
  · intro id
    rw [displayed_ofRows, kind.map_id_all]
    rfl
  · intro entry member
    rwa [displayed_ofRows] at member

/-- The list that is read from the database agrees with it for as long as nothing is
copied. -/
theorem always_agrees_iff (db : Tables) (actions : List Action) :
    Always (step kind suffix) (Agrees kind suffix) (ofRows kind db) actions ↔
      Meets (step kind suffix) NoCopy (ofRows kind db) actions :=
  always_iff_meets_of_step (fun _ action agrees => agrees_step_iff action agrees)
    (agrees_ofRows db)

end Adapter

/-! ## The two adapters -/

section

variable {ι : Type} [DecidableEq ι] (suffix : JavaString)

def tasks : Items Task where
  id := Task.id
  retitled task suffix := { task with title := task.title ++ suffix }
  create := Tables.createTask
  delete := Tables.deleteTask
  all := Tables.allTasks
  rowIds db := db.tasks.ids
  map_id_all _ := map_id_allTasks
  nodup_rowIds db := db.tasks.ids_nodup
  mem_all_delete db removed task := by
    simp only [Tables.allTasks, Tables.deleteTask, List.mem_map, RowTable.mem_rows_delete]
    constructor
    · rintro ⟨row, ⟨member, apart⟩, rfl⟩
      exact ⟨⟨row, member, rfl⟩, apart⟩
    · rintro ⟨⟨row, member, rfl⟩, apart⟩
      exact ⟨row, ⟨member, apart⟩, rfl⟩

def triggers : Items Trigger where
  id := Trigger.id
  retitled trigger suffix := { trigger with title := trigger.title ++ suffix }
  create := Tables.createTrigger
  delete := Tables.deleteTrigger
  all := Tables.allTrigger
  rowIds db := db.triggers.ids
  map_id_all _ := map_id_allTrigger
  nodup_rowIds db := db.triggers.ids_nodup
  mem_all_delete db removed trigger := by
    simp only [Tables.allTrigger, Tables.deleteTrigger, List.mem_map, RowTable.mem_rows_delete]
    constructor
    · rintro ⟨row, ⟨member, apart⟩, rfl⟩
      exact ⟨⟨row, member, rfl⟩, apart⟩
    · rintro ⟨⟨row, member, rfl⟩, apart⟩
      exact ⟨row, ⟨member, apart⟩, rfl⟩

namespace TasksRecyclerViewAdapter

def copyTask (adapter : Adapter Task ι) (candidate : Int64) (task : ι) : Adapter Task ι :=
  adapter.copyItem tasks suffix candidate task

def removeItem (adapter : Adapter Task ι) (task : ι) : Adapter Task ι :=
  adapter.removeItem tasks task

/-- The menu deletes the row first. -/
def deleteTask (adapter : Adapter Task ι) (task : ι) : Adapter Task ι :=
  removeItem { adapter with db := adapter.db.deleteTask (adapter.objects task).id } task

def onMenuItemClick : Adapter Task ι → Action → Adapter Task ι :=
  Adapter.onMenuItemClick (copyTask suffix) deleteTask

end TasksRecyclerViewAdapter

namespace TriggerRecyclerViewAdapter

def copyTrigger (adapter : Adapter Trigger ι) (candidate : Int64) (trigger : ι) :
    Adapter Trigger ι :=
  adapter.copyItem triggers suffix candidate trigger

def deleteTrigger (adapter : Adapter Trigger ι) (trigger : ι) : Adapter Trigger ι :=
  adapter.deleteItem triggers trigger

def onMenuItemClick : Adapter Trigger ι → Action → Adapter Trigger ι :=
  Adapter.onMenuItemClick (copyTrigger suffix) deleteTrigger

end TriggerRecyclerViewAdapter

end

/-- Both lists agree with the database exactly in the runs in which no entry is copied. -/
theorem lists_agree_iff (suffix : JavaString) (db : Tables) (actions : List Action) :
    (Always (TasksRecyclerViewAdapter.onMenuItemClick suffix) (Adapter.Agrees tasks suffix)
        (Adapter.ofRows tasks db) actions ↔
      Meets (TasksRecyclerViewAdapter.onMenuItemClick suffix) Adapter.NoCopy
        (Adapter.ofRows tasks db) actions) ∧
    (Always (TriggerRecyclerViewAdapter.onMenuItemClick suffix) (Adapter.Agrees triggers suffix)
        (Adapter.ofRows triggers db) actions ↔
      Meets (TriggerRecyclerViewAdapter.onMenuItemClick suffix) Adapter.NoCopy
        (Adapter.ofRows triggers db) actions) := by
  constructor
  · exact Adapter.always_agrees_iff db actions
  · exact Adapter.always_agrees_iff db actions

/-- One stored task. -/
def photosDb : Tables :=
  { Tables.empty with
    tasks := ⟨[(1, Tables.getTaskContentValues { id := 1, title := "photos".toList })],
      List.pairwise_singleton _ _⟩ }

/-- Copying the only task and deleting it once leaves the copy in the list and the
original in the database. -/
theorem copiedTask_not_agrees :
    ¬∀ (suffix : JavaString) (db : Tables) (actions : List Action),
      Always (TasksRecyclerViewAdapter.onMenuItemClick suffix) (Adapter.Agrees tasks suffix)
        (Adapter.ofRows tasks db) actions := by
  intro always
  have agrees := (always "(Copy)".toList photosDb [.copy 1 0, .delete 0]).last
  have shown : (2 : Int64) ∈ photosDb.tasks.ids :=
    (agrees.ids 2).mp (by decide)
  revert shown
  decide

end RoundSync.RecyclerViewAdapters
