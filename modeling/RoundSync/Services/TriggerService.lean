import RoundSync.Database.BackupRuns
import Mathlib.Logic.Function.Basic

/-!
# Triggers and their alarms

`TriggerService` sets one alarm for each enabled trigger, under a request code that
is its id cast to an `int`; the screens and receivers of the application write the
trigger table and call the service, each with its own test of the trigger's switch.
A call reads the clock once, and the application may set alarms.
-/

namespace RoundSync.Services

open RoundSync.Data
open RoundSync.Database
open RoundSync.Text

/-! ## The clock -/

/-- The platform's calendar for the time zone of the device. -/
structure Zone where
  /-- the wall time of an instant, in milliseconds -/
  toLocal : Int → Int
  /-- the instant that the calendar gives a wall time -/
  toInstant : Int → Int

def dayMillis : Int :=
  24 * 60 * 60 * 1000

namespace Calendar

def minute (wall : Int) : Int :=
  wall / 60000 % 60

def minuteOfDay (wall : Int) : Int :=
  wall / 60000 % 1440

/-- `DAY_OF_WEEK`, 1 for a Sunday; day 0 is a Thursday. -/
def dayOfWeek (wall : Int) : Int :=
  (wall / dayMillis + 4) % 7 + 1

/-- Set the hour and the minute; a lenient calendar carries what is too large. -/
def setTime (wall hour minute : Int) : Int :=
  wall - wall % dayMillis + hour * 3600000 + minute * 60000 + wall % 60000

end Calendar

/-! ## Alarms -/

def TRIGGER_TYPE_SCHEDULE : Int32 := 0

def TRIGGER_ID_DOESNTEXIST : Int64 := -1

/-- A pending alarm; its intent names the trigger. -/
inductive Alarm where
  | exact (triggerId : Int64) (time : Int)
  | inexactRepeating (triggerId : Int64) (time : Int) (interval : Int32)
  deriving DecidableEq

def Alarm.triggerId : Alarm → Int64
  | exact triggerId _ => triggerId
  | inexactRepeating triggerId _ _ => triggerId

/-- The pending alarms by the request code of their intent. -/
abbrev AlarmManager := Int32 → Option Alarm

/-- The request code of `getIntent`. -/
def requestCode (triggerId : Int64) : Int32 :=
  triggerId.toInt32

def timeToTrigger (zone : Zone) (now : Int) (seconds : Int32) : Int :=
  let calendar := zone.toInstant
    (Calendar.setTime (zone.toLocal now) (seconds.toInt.tdiv 60) (seconds.toInt.tmod 60))
  let difference := calendar - now
  let difference := if difference < 0 then dayMillis + difference else difference
  let difference :=
    if Calendar.minute (zone.toLocal now) = seconds.toInt.tmod 60 then dayMillis else difference
  now + difference

def queueSingleScheduleTrigger (zone : Zone) (now : Int) (alarms : AlarmManager)
    (trigger : Trigger) : AlarmManager :=
  if trigger.isEnabled then
    Function.update alarms (requestCode trigger.id)
      (some (.exact trigger.id (timeToTrigger zone now trigger.time)))
  else alarms

def queueSingleIntervalTrigger (now : Int) (alarms : AlarmManager) (trigger : Trigger) :
    AlarmManager :=
  if trigger.isEnabled then
    let intervalMillis := trigger.time * 60 * 1000
    Function.update alarms (requestCode trigger.id)
      (some (.inexactRepeating trigger.id (now + intervalMillis.toInt) intervalMillis))
  else alarms

def queueSingleTrigger (zone : Zone) (now : Int) (alarms : AlarmManager) (trigger : Trigger) :
    AlarmManager :=
  if trigger.type = TRIGGER_TYPE_SCHEDULE then queueSingleScheduleTrigger zone now alarms trigger
  else queueSingleIntervalTrigger now alarms trigger

def queueTrigger (zone : Zone) (now : Int) (db : Tables) (alarms : AlarmManager) : AlarmManager :=
  db.allTrigger.foldl (queueSingleTrigger zone now) alarms

def cancelTrigger (alarms : AlarmManager) (triggerId : Int64) : AlarmManager :=
  Function.update alarms (requestCode triggerId) none

/-! ## Started tasks -/

def isEnabledAtDay (trigger : Trigger) (weekday : Int32) : Bool :=
  (trigger.weekdays.toInt32 >>> weekday) &&& 1 = 1

/-- The task ids that are handed to `SyncManager.queue`. -/
def startTask (zone : Zone) (now : Int) (trigger : Trigger) : List Int64 :=
  let day := Int32.ofInt (Calendar.dayOfWeek (zone.toLocal now) - 2)
  let skipBecauseOfWeekday :=
    if day = -1 then !isEnabledAtDay trigger 6 else !isEnabledAtDay trigger day
  if skipBecauseOfWeekday then [] else [trigger.triggerTarget]

def getTrigger (db : Tables) (id : Int64) : Option Trigger :=
  db.allTrigger.find? fun trigger => trigger.id = id

def getTask (db : Tables) (id : Int64) : Option Task :=
  db.allTasks.find? fun task => task.id = id

/-! ## The application -/

/-- The database and the pending alarms. -/
structure App where
  db : Tables
  alarms : AlarmManager

/-- The tasks that are queued, and the new alarms. -/
def onStartCommand (zone : Zone) (now : Int) (app : App) (id : Int64) : List Int64 × App :=
  match getTrigger app.db id with
  | none => ([], app)
  | some trigger =>
      (startTask zone now trigger,
        { app with alarms := queueSingleTrigger zone now app.alarms trigger })

/-- An alarm that goes off: a single one is not pending any more. -/
def goOff (app : App) (code : Int32) : Alarm → App
  | .exact _ _ => { app with alarms := Function.update app.alarms code none }
  | .inexactRepeating _ _ _ => app

/-- `TriggerReciever.onReceive`, and the service that it starts. -/
def onReceive (zone : Zone) (now : Int) (app : App) (code : Int32) : List Int64 × App :=
  match app.alarms code with
  | none => ([], app)
  | some alarm =>
      if alarm.triggerId = -1 then ([], goOff app code alarm)
      else onStartCommand zone now (goOff app code alarm) alarm.triggerId

/-- `TriggerActivity.saveTrigger` -/
def saveTrigger (zone : Zone) (now : Int) (app : App) (candidate : Int64) (trigger : Trigger) :
    App :=
  if Kotlin.isBlank trigger.title then app
  else if app.db.allTasks.isEmpty then app
  else if trigger.id = TRIGGER_ID_DOESNTEXIST then
    let (trigger, db) := app.db.createTrigger candidate trigger
    ⟨db, queueSingleTrigger zone now app.alarms trigger⟩
  else
    ⟨app.db.updateTrigger trigger, queueSingleTrigger zone now app.alarms trigger⟩

/-- `TriggerRecyclerViewAdapter.setIconListener` -/
def setIconListener (zone : Zone) (now : Int) (app : App) (trigger : Trigger) : App :=
  let trigger := { trigger with isEnabled := !trigger.isEnabled }
  let db := app.db.updateTrigger trigger
  if trigger.isEnabled then ⟨db, queueTrigger zone now db app.alarms⟩
  else ⟨db, cancelTrigger app.alarms trigger.id⟩

/-- `TriggerRecyclerViewAdapter.copyTrigger` -/
def copyTrigger (suffix : JavaString) (app : App) (candidate : Int64) (trigger : Trigger) : App :=
  { app with
    db := (app.db.createTrigger candidate { trigger with title := trigger.title ++ suffix }).2 }

/-- `TriggerRecyclerViewAdapter.deleteTrigger` -/
def deleteTrigger (app : App) (trigger : Trigger) : App :=
  { app with db := app.db.deleteTrigger trigger.id }

/-- `TriggerFragment.updateVisibilities`: without tasks all alarms are cancelled. -/
def updateVisibilities (app : App) : App :=
  if app.db.allTasks.isEmpty then
    { app with
      alarms := app.db.allTrigger.foldl (fun alarms trigger => cancelTrigger alarms trigger.id)
        app.alarms }
  else app

/-- What the user, the alarms and the device do; the candidates are the row ids that
SQLite draws once the largest possible one is used. -/
inductive Event where
  | createTask (candidate : Int64) (task : Task)
  | updateTask (task : Task)
  | deleteTask (id : Int64)
  | saveTrigger (now : Int) (candidate : Int64) (trigger : Trigger)
  | setIconListener (now : Int) (trigger : Trigger)
  | copyTrigger (candidate : Int64) (trigger : Trigger)
  | deleteTrigger (trigger : Trigger)
  | showTriggers
  | openMain (now : Int)
  | fire (now : Int) (code : Int32)
  | boot (now : Int)

section

variable (zone : Zone) (suffix : JavaString)

/-- The tasks that an event queues, and what it leaves behind. -/
def stepApp (app : App) : Event → List Int64 × App
  | .createTask candidate task => ([], { app with db := (app.db.createTask candidate task).2 })
  | .updateTask task => ([], { app with db := app.db.updateTask task })
  | .deleteTask id => ([], { app with db := app.db.deleteTask id })
  | .saveTrigger now candidate trigger => ([], saveTrigger zone now app candidate trigger)
  | .setIconListener now trigger => ([], setIconListener zone now app trigger)
  | .copyTrigger candidate trigger => ([], copyTrigger suffix app candidate trigger)
  | .deleteTrigger trigger => ([], deleteTrigger app trigger)
  | .showTriggers => ([], updateVisibilities app)
  | .openMain now => ([], { app with alarms := queueTrigger zone now app.db app.alarms })
  | .fire now code => onReceive zone now app code
  | .boot now => ([], { app with alarms := queueTrigger zone now app.db fun _ => none })

def nextApp (app : App) (event : Event) : App :=
  (stepApp zone suffix app event).2

end

def freshApp : App :=
  ⟨.empty, fun _ => none⟩

/-! ## What the trigger table lists -/

section

variable {db : Tables} {trigger saved : Trigger}

theorem mem_allTrigger_iff :
    trigger ∈ db.allTrigger ↔ ∃ row ∈ db.triggers.rows, Tables.triggerFromCursor row = trigger :=
  List.mem_map

theorem id_mem_of_mem (member : trigger ∈ db.allTrigger) : trigger.id ∈ db.triggers.ids := by
  rw [← map_id_allTrigger]
  exact List.mem_map_of_mem member

theorem eq_of_id_eq {other : Trigger} (member : trigger ∈ db.allTrigger)
    (otherMember : other ∈ db.allTrigger) (same : trigger.id = other.id) : trigger = other := by
  have nodup : (db.allTrigger.map Trigger.id).Nodup := by
    rw [map_id_allTrigger]
    exact db.triggers.ids_nodup
  exact List.inj_on_of_nodup_map nodup member otherMember same

theorem mem_allTrigger_updateTrigger :
    trigger ∈ (db.updateTrigger saved).allTrigger ↔
      trigger ∈ db.allTrigger ∧ trigger.id ≠ saved.id ∨
        trigger = saved ∧ saved.id ∈ db.triggers.ids := by
  constructor
  · intro member
    obtain ⟨row, rowMember, rfl⟩ := mem_allTrigger_iff.mp member
    rcases RowTable.mem_rows_update.mp rowMember with ⟨apart, old⟩ | ⟨rfl, used⟩
    · exact Or.inl ⟨mem_allTrigger_iff.mpr ⟨row, old, rfl⟩, apart⟩
    · exact Or.inr ⟨Tables.triggerFromCursor_stored saved, used⟩
  · rintro (⟨old, apart⟩ | ⟨rfl, used⟩)
    · obtain ⟨row, rowMember, rfl⟩ := mem_allTrigger_iff.mp old
      exact mem_allTrigger_iff.mpr
        ⟨row, RowTable.mem_rows_update.mpr (Or.inl ⟨apart, rowMember⟩), rfl⟩
    · exact mem_allTrigger_iff.mpr ⟨_, RowTable.mem_rows_update.mpr (Or.inr ⟨rfl, used⟩),
        Tables.triggerFromCursor_stored trigger⟩

theorem mem_allTrigger_deleteTrigger {id : Int64} :
    trigger ∈ (db.deleteTrigger id).allTrigger ↔ trigger ∈ db.allTrigger ∧ trigger.id ≠ id := by
  constructor
  · intro member
    obtain ⟨row, rowMember, rfl⟩ := mem_allTrigger_iff.mp member
    obtain ⟨old, apart⟩ := RowTable.mem_rows_delete.mp rowMember
    exact ⟨mem_allTrigger_iff.mpr ⟨row, old, rfl⟩, apart⟩
  · rintro ⟨old, apart⟩
    obtain ⟨row, rowMember, rfl⟩ := mem_allTrigger_iff.mp old
    exact mem_allTrigger_iff.mpr ⟨row, RowTable.mem_rows_delete.mpr ⟨rowMember, apart⟩, rfl⟩

/-- A trigger is stored under a new id, or nothing is stored. -/
theorem createTrigger_cases (db : Tables) (candidate : Int64) (saved : Trigger) :
    Tables.newRowId db.triggers candidate = none ∧ (db.createTrigger candidate saved).2 = db ∧
        (db.createTrigger candidate saved).1 = { saved with id := -1 } ∨
      ∃ id, Tables.newRowId db.triggers candidate = some id ∧ id ∉ db.triggers.ids ∧
        (db.createTrigger candidate saved).1 = { saved with id } ∧
        ∀ trigger, trigger ∈ (db.createTrigger candidate saved).2.allTrigger ↔
          trigger = { saved with id } ∨ trigger ∈ db.allTrigger := by
  cases drawn : Tables.newRowId db.triggers candidate with
  | none =>
      refine Or.inl ⟨rfl, ?_, ?_⟩
      · simp [Tables.createTrigger, Tables.insertRow, drawn]
      · simp [Tables.createTrigger, Tables.insertRow, drawn]
  | some id =>
      have fresh := (Tables.newRowId_spec drawn).1
      have filled : db.triggers.insert id (Tables.getTriggerContentValues saved) =
          some (Tables.insertRow db.triggers candidate (Tables.getTriggerContentValues saved)).2 := by
        simp only [Tables.insertRow, drawn, RowTable.insert, if_neg fresh]
      refine Or.inr ⟨id, rfl, fresh, ?_, fun trigger => ?_⟩
      · simp only [Tables.createTrigger, Tables.insertRow, drawn, RowTable.insert, if_neg fresh]
      · have stored : Tables.triggerFromCursor (id, Tables.getTriggerContentValues saved) =
            { saved with id } := Tables.triggerFromCursor_stored { saved with id }
        simp only [mem_allTrigger_iff, Tables.createTrigger, RowTable.mem_rows_insert filled]
        constructor
        · rintro ⟨row, rfl | old, rfl⟩
          · exact Or.inl stored
          · exact Or.inr ⟨row, old, rfl⟩
        · rintro (rfl | ⟨row, old, rfl⟩)
          · exact ⟨_, Or.inl rfl, stored⟩
          · exact ⟨row, Or.inr old, rfl⟩

theorem id_createTrigger (db : Tables) (candidate : Int64) (saved : Trigger) :
    (db.createTrigger candidate saved).1.id =
      (Tables.newRowId db.triggers candidate).getD (-1) := by
  rcases createTrigger_cases db candidate saved with ⟨full, _, stored⟩ | ⟨id, drawn, _, stored, _⟩
  · rw [stored, full]
    rfl
  · rw [stored, drawn]
    rfl

/-- With positive ids, what is listed is the new trigger or an older one. -/
theorem listed_createTrigger (positive : ∀ id ∈ db.triggers.ids, 0 < id) (candidate : Int64)
    (saved : Trigger) :
    ∀ trigger ∈ (db.createTrigger candidate saved).2.allTrigger,
      trigger = (db.createTrigger candidate saved).1 ∨
        trigger ∈ db.allTrigger ∧ trigger.id ≠ (db.createTrigger candidate saved).1.id := by
  intro trigger member
  rcases createTrigger_cases db candidate saved with
    ⟨_, same, stored⟩ | ⟨id, _, fresh, stored, listed⟩
  · rw [same] at member
    rw [stored]
    refine Or.inr ⟨member, fun isNone => ?_⟩
    have above := positive trigger.id (id_mem_of_mem member)
    have minusOne : trigger.id = -1 := isNone
    rw [minusOne] at above
    exact absurd above (by decide)
  · rw [stored]
    rcases (listed trigger).mp member with isNew | old
    · exact Or.inl isNew
    · refine Or.inr ⟨old, fun isId => fresh ?_⟩
      have same : trigger.id = id := isId
      rw [← same]
      exact id_mem_of_mem old

/-- What is listed after an update is the written trigger or another one. -/
theorem listed_updateTrigger (db : Tables) (saved : Trigger) :
    ∀ trigger ∈ (db.updateTrigger saved).allTrigger,
      trigger = saved ∨ trigger ∈ db.allTrigger ∧ trigger.id ≠ saved.id := by
  intro trigger member
  rcases mem_allTrigger_updateTrigger.mp member with old | ⟨isSaved, _⟩
  · exact Or.inr old
  · exact Or.inl isSaved

theorem getTrigger_eq_some_iff {id : Int64} :
    getTrigger db id = some trigger ↔ trigger ∈ db.allTrigger ∧ trigger.id = id := by
  constructor
  · intro found
    exact ⟨List.mem_of_find?_eq_some found, by simpa using List.find?_some found⟩
  · rintro ⟨member, rfl⟩
    cases found : getTrigger db trigger.id with
    | none =>
        have absent := List.find?_eq_none.mp found trigger member
        simp at absent
    | some other =>
        have same : other.id = trigger.id := by simpa using List.find?_some found
        rw [eq_of_id_eq (List.mem_of_find?_eq_some found) member same]

/-- Only the target of the trigger is started. -/
theorem eq_target_of_mem_startTask {zone : Zone} {now : Int} {task : Int64}
    (started : task ∈ startTask zone now trigger) : trigger.triggerTarget = task := by
  have few : startTask zone now trigger = [] ∨
      startTask zone now trigger = [trigger.triggerTarget] := by
    dsimp only [startTask]
    split_ifs <;> simp
  rcases few with nothing | target
  · rw [nothing] at started
    cases started
  · rw [target] at started
    exact (List.mem_singleton.mp started).symm

@[simp]
theorem db_goOff (app : App) (code : Int32) (alarm : Alarm) :
    (goOff app code alarm).db = app.db := by
  cases alarm with
  | exact _ _ => rfl
  | inexactRepeating _ _ _ => rfl

/-- What an alarm queues is the target of its trigger. -/
theorem of_mem_onReceive {zone : Zone} {now : Int} {app : App} {code : Int32} {task : Int64}
    (started : task ∈ (onReceive zone now app code).1) :
    ∃ alarm trigger, app.alarms code = some alarm ∧ trigger ∈ app.db.allTrigger ∧
      trigger.id = alarm.triggerId ∧ trigger.triggerTarget = task := by
  unfold onReceive at started
  cases pending : app.alarms code with
  | none =>
      rw [pending] at started
      cases started
  | some alarm =>
      rw [pending] at started
      dsimp only at started
      split_ifs at started
      · cases started
      · unfold onStartCommand at started
        rw [db_goOff] at started
        cases stored : getTrigger app.db alarm.triggerId with
        | none =>
            rw [stored] at started
            cases started
        | some trigger =>
            rw [stored] at started
            obtain ⟨member, isId⟩ := getTrigger_eq_some_iff.mp stored
            exact ⟨alarm, trigger, rfl, member, isId, eq_target_of_mem_startTask started⟩

theorem getTask_eq_none_iff {id : Int64} : getTask db id = none ↔ id ∉ db.tasks.ids := by
  rw [getTask, List.find?_eq_none, ← map_id_allTasks, List.mem_map]
  simp

theorem db_onReceive {zone : Zone} {now : Int} {app : App} {code : Int32} :
    (onReceive zone now app code).2.db = app.db := by
  unfold onReceive
  cases app.alarms code with
  | none => rfl
  | some alarm =>
      have same := db_goOff app code alarm
      dsimp only
      split_ifs
      · exact same
      · unfold onStartCommand
        split
        · exact same
        · exact same

end

end RoundSync.Services
