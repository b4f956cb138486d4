import RoundSync.Data.RowTable
import RoundSync.Database.Items

/-!
# The task and trigger tables

`DatabaseHandler` over two SQLite tables.  A primary key is the row id, without
`AUTOINCREMENT`, so the id of a deleted last row is given out again.  Nothing
in the schema ties the target of a trigger to a task.
-/

namespace RoundSync.Database

open RoundSync.Data
open RoundSync.Text

instance linearOrder_int64 : LinearOrder Int64 where
  le := (· ≤ ·)
  lt := (· < ·)
  le_refl _ := Int64.le_refl _
  le_trans _ _ _ := Int64.le_trans
  lt_iff_le_not_ge first second := by
    simp only [Int64.le_iff_toInt_le, Int64.lt_iff_toInt_lt]
    omega
  le_antisymm _ _ := Int64.le_antisymm
  le_total _ _ := Int64.le_total _ _
  toDecidableLE := inferInstance
  toDecidableLT := inferInstance
  toDecidableEq := inferInstance
  min_def _ _ := rfl
  max_def _ _ := rfl

instance lawfulBEq_int64 : LawfulBEq Int64 :=
  inferInstance

/-- The columns of `task_table` but the id. -/
structure TaskRow where
  title : JavaString
  localPath : JavaString
  remoteId : JavaString
  remotePath : JavaString
  remoteType : Int64
  direction : Int64
  md5sum : Int64
  wifionly : Int64
  deriving DecidableEq

/-- The columns of `trigger_table` but the id. -/
structure TriggerRow where
  title : JavaString
  enabled : Int64
  time : Int64
  weekday : Int64
  target : Int64
  type : Int64
  deriving DecidableEq

structure Tables where
  tasks : RowTable Int64 TaskRow
  triggers : RowTable Int64 TriggerRow
  deriving DecidableEq

namespace Tables

def empty : Tables :=
  ⟨RowTable.empty, RowTable.empty⟩

/-- A Boolean is bound as an integer. -/
def bindBoolean (value : Bool) : Int64 :=
  if value then 1 else 0

def getBoolean (column : Int64) : Bool :=
  match column.toInt32 with
  | 0 => false
  | 1 => true
  | _ => true

def getTaskContentValues (task : Task) : TaskRow where
  title := task.title
  localPath := task.localPath
  remoteId := task.remoteId
  remotePath := task.remotePath
  remoteType := task.remoteType.toInt64
  direction := task.direction.toInt64
  md5sum := bindBoolean task.md5sum
  wifionly := bindBoolean task.wifionly

def taskFromCursor (row : Int64 × TaskRow) : Task where
  id := row.1
  title := row.2.title
  remoteId := row.2.remoteId
  remoteType := row.2.remoteType.toInt32
  remotePath := row.2.remotePath
  localPath := row.2.localPath
  direction := row.2.direction.toInt32
  md5sum := getBoolean row.2.md5sum
  wifionly := getBoolean row.2.wifionly

def getTriggerContentValues (trigger : Trigger) : TriggerRow where
  title := trigger.title
  enabled := bindBoolean trigger.isEnabled
  time := trigger.time.toInt64
  weekday := trigger.weekdays.toInt32.toInt64
  target := trigger.triggerTarget
  type := trigger.type.toInt64

def triggerFromCursor (row : Int64 × TriggerRow) : Trigger where
  id := row.1
  title := row.2.title
  isEnabled := row.2.enabled.toInt32 = 1
  time := row.2.time.toInt32
  weekdays := row.2.weekday.toInt32.toInt8
  triggerTarget := row.2.target
  type := row.2.type.toInt32

def allTasks (db : Tables) : List Task :=
  db.tasks.rows.map taskFromCursor

def allTrigger (db : Tables) : List Trigger :=
  db.triggers.rows.map triggerFromCursor

/-- The row id of an insertion without one: the successor of the largest, or,
where that is the last possible one, a positive candidate that is not used. -/
def newRowId {ρ : Type} (table : RowTable Int64 ρ) (candidate : Int64) : Option Int64 :=
  match table.largest with
  | none => some 1
  | some id =>
      if id < Int64.maxValue then some (id + 1)
      else if 0 < candidate ∧ candidate ∉ table.ids then some candidate
      else none

/-- `SQLiteDatabase.insert`: the new table and row id, `-1` where it fails. -/
def insertRow {ρ : Type} (table : RowTable Int64 ρ) (candidate : Int64) (row : ρ) :
    Int64 × RowTable Int64 ρ :=
  match newRowId table candidate with
  | none => (-1, table)
  | some id =>
      match table.insert id row with
      | none => (-1, table)
      | some next => (id, next)

def createTask (db : Tables) (candidate : Int64) (taskToStore : Task) : Task × Tables :=
  let (newRowId, tasks) := insertRow db.tasks candidate (getTaskContentValues taskToStore)
  ({ taskToStore with id := newRowId }, { db with tasks })

def updateTask (db : Tables) (taskToUpdate : Task) : Tables :=
  { db with tasks := db.tasks.update taskToUpdate.id (getTaskContentValues taskToUpdate) }

/-- The text of an id holds no wildcard, so `LIKE` compares for equality. -/
def deleteTask (db : Tables) (id : Int64) : Tables :=
  { db with tasks := db.tasks.delete id }

def createTrigger (db : Tables) (candidate : Int64) (triggerToStore : Trigger) :
    Trigger × Tables :=
  let (newRowId, triggers) :=
    insertRow db.triggers candidate (getTriggerContentValues triggerToStore)
  ({ triggerToStore with id := newRowId }, { db with triggers })

def updateTrigger (db : Tables) (triggerToUpdate : Trigger) : Tables :=
  { db with
    triggers := db.triggers.update triggerToUpdate.id (getTriggerContentValues triggerToUpdate) }

def deleteTrigger (db : Tables) (id : Int64) : Tables :=
  { db with triggers := db.triggers.delete id }

/-- One transaction: an id that occurs twice throws and leaves the tables alone.
The texts are SQLite's own, without the code that the platform appends. -/
def replaceAll (db : Tables) (tasks : List Task) (triggers : List Trigger) :
    Except JavaString Unit × Tables :=
  match RowTable.empty.insertAll (tasks.map fun task => (task.id, getTaskContentValues task)) with
  | none => (.error "UNIQUE constraint failed: task_table.task_id".toList, db)
  | some tasks =>
      match RowTable.empty.insertAll
          (triggers.map fun trigger => (trigger.id, getTriggerContentValues trigger)) with
      | none => (.error "UNIQUE constraint failed: trigger_table.trigger_id".toList, db)
      | some triggers => (.ok (), ⟨tasks, triggers⟩)

/-! ## Columns and items -/

theorem getBoolean_bindBoolean (value : Bool) : getBoolean (bindBoolean value) = value := by
  cases value with
  | false => rfl
  | true => rfl

/-- An item is read from its columns as it was stored. -/
theorem taskFromCursor_stored (task : Task) :
    taskFromCursor (task.id, getTaskContentValues task) = task := by
  simp [taskFromCursor, getTaskContentValues, getBoolean_bindBoolean]

theorem triggerFromCursor_stored (trigger : Trigger) :
    triggerFromCursor (trigger.id, getTriggerContentValues trigger) = trigger := by
  have enabled : decide ((bindBoolean trigger.isEnabled).toInt32 = 1) = trigger.isEnabled := by
    cases trigger.isEnabled with
    | false => rfl
    | true => rfl
  simp [triggerFromCursor, getTriggerContentValues, enabled]

end Tables

end RoundSync.Database
