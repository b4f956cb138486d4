import RoundSync.Database.DatabaseHandler
import RoundSync.Transition.Core

/-!
# Backups of tasks and triggers

`Exporter` writes every row, `Importer` accepts a document only when its ids
are positive and distinct and every positive target of a trigger is one of its
tasks.  The operations of the database keep the first two conditions; this file
finds which of them break the third.
-/

namespace RoundSync.Database

open RoundSync.Data
open RoundSync.Text
open RoundSync.Transition

def text (literal : String) : JavaString :=
  literal.toList

namespace Exporter

def document (tasks : List Task) (triggers : List Trigger) : Fields :=
  [("schemaVersion", .number 1),
    ("tasks", .array (tasks.map fun task => .object task.asJSON)),
    ("trigger", .array (triggers.map fun trigger => .object trigger.asJSON))]

def create (json : JsonLibrary) (db : Tables) : JavaString :=
  json.print (document db.allTasks db.allTrigger)

end Exporter

namespace Importer

structure ParsedBackup where
  triggers : List Trigger
  tasks : List Task
  deriving DecidableEq

variable (json : JsonLibrary)

def checkSchema (reader : Fields) : Except JsonError Unit :=
  match Json.get? reader "schemaVersion" with
  | none => .ok ()
  | some _ => do
      let schemaVersion ← json.getInt reader "schemaVersion"
      if schemaVersion ≠ 1 then
        .error (.jsonException
          (text "Unsupported task backup schema: " ++ text (toString schemaVersion)))
      else .ok ()

def parse (content : JavaString) : Except JsonError ParsedBackup := do
  let reader ← json.parse content
  checkSchema json reader
  let triggerArray ← Json.getJSONArray reader "trigger"
  let triggers ← triggerArray.mapM fun item => do Trigger.fromString json (← item.asObject)
  let taskArray ← Json.getJSONArray reader "tasks"
  let tasks ← taskArray.mapM fun item => do Task.fromString json (← item.asObject)
  .ok ⟨triggers, tasks⟩

/-- The checks of the tasks, given the ids seen before; the result is all ids. -/
def checkTasks : List Int64 → List Task → Except JsonError (List Int64)
  | taskIds, [] => .ok taskIds
  | taskIds, task :: tasks =>
      if task.id ≤ 0 then
        .error (.jsonException (text "Invalid task ID: " ++ text (toString task.id)))
      else if task.id ∈ taskIds then
        .error (.jsonException (text "Duplicate task ID: " ++ text (toString task.id)))
      else checkTasks (task.id :: taskIds) tasks

def checkTriggers (taskIds : List Int64) : List Int64 → List Trigger → Except JsonError Unit
  | _, [] => .ok ()
  | triggerIds, trigger :: triggers =>
      if trigger.id ≤ 0 then
        .error (.jsonException (text "Invalid trigger ID: " ++ text (toString trigger.id)))
      else if trigger.id ∈ triggerIds then
        .error (.jsonException (text "Duplicate trigger ID: " ++ text (toString trigger.id)))
      else if 0 < trigger.triggerTarget ∧ trigger.triggerTarget ∉ taskIds then
        .error (.jsonException
          (text "Trigger references a missing task: " ++ text (toString trigger.triggerTarget)))
      else checkTriggers taskIds (trigger.id :: triggerIds) triggers

def validateJson (content : JavaString) : Except JsonError Unit := do
  let parsed ← parse json content
  let taskIds ← checkTasks [] parsed.tasks
  checkTriggers taskIds [] parsed.triggers

def importJson (content : JavaString) (db : Tables) : Except JsonError Unit × Tables :=
  match parse json content with
  | .error error => (.error error, db)
  | .ok parsed =>
      match validateJson json content with
      | .error error => (.error error, db)
      | .ok () =>
          match db.replaceAll parsed.tasks parsed.triggers with
          | (.error message, db) =>
              (.error (.jsonException (text "Unable to restore task database: " ++ message)), db)
          | (.ok (), db) => (.ok (), db)

/-! ## What the checks accept -/

theorem checkTasks_iff {taskIds : List Int64} {tasks : List Task} {ids : List Int64} :
    checkTasks taskIds tasks = .ok ids ↔
      (∀ task ∈ tasks, 0 < task.id ∧ task.id ∉ taskIds) ∧ (tasks.map Task.id).Nodup ∧
        ids = (tasks.map Task.id).reverse ++ taskIds := by
  induction tasks generalizing taskIds with
  | nil => simp [checkTasks, eq_comm]
  | cons task tasks ih =>
      rw [checkTasks]
      split_ifs with negative seen
      · simp only [List.forall_mem_cons, false_iff]
        rintro ⟨⟨⟨positive, _⟩, _⟩, _⟩
        exact absurd negative (not_le.mpr positive)
      · simp [seen]
      · rw [ih, List.forall_mem_cons, List.map_cons, List.nodup_cons, List.reverse_cons,
          List.append_assoc, List.singleton_append]
        simp only [List.mem_cons, not_or, List.mem_map, not_exists, not_and]
        constructor
        · rintro ⟨each, nodup, idsEq⟩
          exact ⟨⟨⟨not_le.mp negative, seen⟩, fun other member =>
              ⟨(each other member).1, (each other member).2.2⟩⟩,
            ⟨fun other member => (each other member).2.1, nodup⟩, idsEq⟩
        · rintro ⟨⟨_, each⟩, ⟨apart, nodup⟩, idsEq⟩
          exact ⟨fun other member =>
            ⟨(each other member).1, apart other member, (each other member).2⟩, nodup, idsEq⟩

theorem checkTriggers_iff {taskIds triggerIds : List Int64} {triggers : List Trigger} :
    checkTriggers taskIds triggerIds triggers = .ok () ↔
      (∀ trigger ∈ triggers, 0 < trigger.id ∧ trigger.id ∉ triggerIds ∧
        (0 < trigger.triggerTarget → trigger.triggerTarget ∈ taskIds)) ∧
        (triggers.map Trigger.id).Nodup := by
  induction triggers generalizing triggerIds with
  | nil => simp [checkTriggers]
  | cons trigger triggers ih =>
      rw [checkTriggers]
      split_ifs with negative seen missing
      · simp only [List.forall_mem_cons, false_iff]
        rintro ⟨⟨⟨positive, _⟩, _⟩, _⟩
        exact absurd negative (not_le.mpr positive)
      · simp [seen]
      · simp only [List.forall_mem_cons, false_iff]
        rintro ⟨⟨⟨_, _, exists_⟩, _⟩, _⟩
        exact missing.2 (exists_ missing.1)
      · rw [ih, List.forall_mem_cons, List.map_cons, List.nodup_cons]
        simp only [List.mem_cons, not_or, List.mem_map, not_exists, not_and]
        have target : 0 < trigger.triggerTarget → trigger.triggerTarget ∈ taskIds := by
          intro positive
          by_contra absent
          exact missing ⟨positive, absent⟩
        constructor
        · rintro ⟨each, nodup⟩
          exact ⟨⟨⟨not_le.mp negative, seen, target⟩, fun other member =>
              ⟨(each other member).1, (each other member).2.1.2, (each other member).2.2⟩⟩,
            fun other member => (each other member).2.1.1, nodup⟩
        · rintro ⟨⟨_, each⟩, apart, nodup⟩
          exact ⟨fun other member => ⟨(each other member).1,
            ⟨apart other member, (each other member).2.1⟩, (each other member).2.2⟩, nodup⟩

end Importer

end RoundSync.Database
