import RoundSync.Database.TaskBackup

/-!
# Backups along runs of the database

A backup can be restored exactly when every id is positive and every positive
target of a trigger is the id of a task.  Of the operations, deleting a task
that a trigger starts, and writing a trigger or a whole database with a missing
target, lead out of these states.
-/

namespace RoundSync.Database

open RoundSync.Data
open RoundSync.Text
open RoundSync.Transition

/-- The library reads a document from the text that it printed for it. -/
structure Faithful (json : JsonLibrary) (tasks : List Task) (triggers : List Trigger) : Prop where
  parse_print : json.parse (json.print (Exporter.document tasks triggers)) =
    .ok (Exporter.document tasks triggers)
  toInteger_number : ∀ n : Int32, json.toInteger (.number n.toInt) = some n

/-- The exporter's document is accepted and restores what was exported. -/
structure BackupLaw (json : JsonLibrary) (db : Tables) : Prop where
  accepted : Importer.validateJson json (Exporter.create json db) = .ok ()
  restored : ∀ target, ∃ restored,
    Importer.importJson json (Exporter.create json db) target = (.ok (), restored) ∧
      restored.allTasks = db.allTasks ∧ restored.allTrigger = db.allTrigger

namespace Tables

/-- A positive target is the id of a task. -/
def TargetExists (taskIds : List Int64) (target : Int64) : Prop :=
  0 < target → target ∈ taskIds

instance (taskIds : List Int64) (target : Int64) : Decidable (TargetExists taskIds target) :=
  inferInstanceAs (Decidable (_ → _))

structure Sound (db : Tables) : Prop where
  tasks : ∀ id ∈ db.tasks.ids, 0 < id
  triggers : ∀ id ∈ db.triggers.ids, 0 < id
  targets : ∀ row ∈ db.triggers.rows, TargetExists db.tasks.ids row.2.target

end Tables

/-! ## One backup -/

section OneBackup

variable {json : JsonLibrary} {db : Tables}

theorem map_id_allTasks : db.allTasks.map Task.id = db.tasks.ids := by
  simp [Tables.allTasks, RowTable.ids, Tables.taskFromCursor, Function.comp_def]

theorem map_id_allTrigger : db.allTrigger.map Trigger.id = db.triggers.ids := by
  simp [Tables.allTrigger, RowTable.ids, Tables.triggerFromCursor, Function.comp_def]

theorem mapM_objects {α : Type} (read : Fields → Except JsonError α) (write : α → Fields)
    (reads : ∀ item, read (write item) = .ok item) (items : List α) :
    (items.map fun item => Json.object (write item)).mapM
      (fun item => do read (← item.asObject)) = Except.ok items := by
  induction items with
  | nil => rfl
  | cons item items ih =>
      rw [List.map_cons, List.mapM_cons]
      simp only [Json.asObject, bind, Except.bind, reads] at ih ⊢
      rw [ih]
      rfl

/-- The exporter's text is parsed to the exported items. -/
theorem parse_create (faithful : Faithful json db.allTasks db.allTrigger) :
    Importer.parse json (Exporter.create json db) = .ok ⟨db.allTrigger, db.allTasks⟩ := by
  have schema : Importer.checkSchema json (Exporter.document db.allTasks db.allTrigger) =
      .ok () := by
    have one : json.toInteger (.number 1) = some 1 := faithful.toInteger_number 1
    simp [Importer.checkSchema, Exporter.document, Json.get?, JsonLibrary.getInt, one, bind,
      Except.bind]
  have triggers : Json.getJSONArray (Exporter.document db.allTasks db.allTrigger) "trigger" =
      .ok (db.allTrigger.map fun trigger => .object trigger.asJSON) := by
    simp [Exporter.document, Json.getJSONArray, Json.get?]
  have tasks : Json.getJSONArray (Exporter.document db.allTasks db.allTrigger) "tasks" =
      .ok (db.allTasks.map fun task => .object task.asJSON) := by
    simp [Exporter.document, Json.getJSONArray, Json.get?]
  have triggersRead := mapM_objects (Trigger.fromString json) Trigger.asJSON
    (Trigger.fromString_asJSON json) db.allTrigger
  have tasksRead := mapM_objects (Task.fromString json) Task.asJSON
    (Task.fromString_asJSON json) db.allTasks
  simp only [bind] at triggersRead tasksRead
  simp only [Importer.parse, Exporter.create, faithful.parse_print, schema, triggers, tasks, bind,
    Except.bind] at triggersRead tasksRead ⊢
  rw [triggersRead]
  simp only
  rw [tasksRead]

/-- The validator accepts the export of exactly the sound databases. -/
theorem validateJson_create_iff (faithful : Faithful json db.allTasks db.allTrigger) :
    Importer.validateJson json (Exporter.create json db) = .ok () ↔ db.Sound := by
  have accepts : Importer.validateJson json (Exporter.create json db) = .ok () ↔
      ∃ taskIds, Importer.checkTasks [] db.allTasks = .ok taskIds ∧
        Importer.checkTriggers taskIds [] db.allTrigger = .ok () := by
    simp only [Importer.validateJson, parse_create faithful, bind, Except.bind]
    cases Importer.checkTasks [] db.allTasks with
    | error error => simp
    | ok taskIds => simp
  have targets (row : Int64 × TriggerRow) :
      (Tables.triggerFromCursor row).triggerTarget = row.2.target := rfl
  rw [accepts]
  simp only [Importer.checkTasks_iff, Importer.checkTriggers_iff, map_id_allTasks,
    map_id_allTrigger]
  constructor
  · rintro ⟨taskIds, ⟨tasksPositive, _, rfl⟩, eachTrigger, _⟩
    constructor
    · intro id member
      rw [← map_id_allTasks] at member
      obtain ⟨task, taskMember, rfl⟩ := List.mem_map.mp member
      exact (tasksPositive task taskMember).1
    · intro id member
      rw [← map_id_allTrigger] at member
      obtain ⟨trigger, triggerMember, rfl⟩ := List.mem_map.mp member
      exact (eachTrigger trigger triggerMember).1
    · intro row member positive
      have triggerMember := List.mem_map_of_mem (f := Tables.triggerFromCursor) member
      have found := (eachTrigger _ triggerMember).2.2 positive
      simpa [targets] using found
  · intro sound
    refine ⟨_, ⟨?_, db.tasks.ids_nodup, rfl⟩, ?_, db.triggers.ids_nodup⟩
    · intro task member
      have idMember : task.id ∈ db.tasks.ids := by
        rw [← map_id_allTasks]
        exact List.mem_map_of_mem member
      exact ⟨sound.tasks _ idMember, List.not_mem_nil⟩
    · intro trigger member
      have idMember : trigger.id ∈ db.triggers.ids := by
        rw [← map_id_allTrigger]
        exact List.mem_map_of_mem member
      refine ⟨sound.triggers _ idMember, List.not_mem_nil, ?_⟩
      obtain ⟨row, rowMember, rfl⟩ := List.mem_map.mp member
      intro positive
      simpa [targets] using sound.targets row rowMember positive

/-- Filling the tables with what a database lists gives these lists again. -/
theorem replaceAll_all (db target : Tables) :
    ∃ restored, target.replaceAll db.allTasks db.allTrigger = (.ok (), restored) ∧
      restored.allTasks = db.allTasks ∧ restored.allTrigger = db.allTrigger := by
  have tasksAscending : (db.allTasks.map fun task =>
      (task.id, Tables.getTaskContentValues task)).Pairwise fun first second =>
        first.1 < second.1 := by
    apply List.pairwise_map.mpr
    exact List.pairwise_map.mpr db.tasks.ascending
  have triggersAscending : (db.allTrigger.map fun trigger =>
      (trigger.id, Tables.getTriggerContentValues trigger)).Pairwise fun first second =>
        first.1 < second.1 := by
    apply List.pairwise_map.mpr
    exact List.pairwise_map.mpr db.triggers.ascending
  refine ⟨⟨⟨_, tasksAscending⟩, ⟨_, triggersAscending⟩⟩, ?_, ?_, ?_⟩
  · simp only [Tables.replaceAll, RowTable.insertAll_rows ⟨_, tasksAscending⟩,
      RowTable.insertAll_rows ⟨_, triggersAscending⟩]
  · simp only [Tables.allTasks, List.map_map, Function.comp_def,
      Tables.taskFromCursor_stored]
  · simp only [Tables.allTrigger, List.map_map, Function.comp_def,
      Tables.triggerFromCursor_stored]

theorem backupLaw_iff_sound (faithful : Faithful json db.allTasks db.allTrigger) :
    BackupLaw json db ↔ db.Sound := by
  constructor
  · intro law
    exact (validateJson_create_iff faithful).mp law.accepted
  · intro sound
    have accepted := (validateJson_create_iff faithful).mpr sound
    refine ⟨accepted, fun target => ?_⟩
    obtain ⟨restored, replaced, tasksEq, triggersEq⟩ := replaceAll_all db target
    refine ⟨restored, ?_, tasksEq, triggersEq⟩
    simp only [Importer.importJson, parse_create faithful, accepted, replaced]

end OneBackup

/-! ## Operations -/

/-- An operation of the database; the candidates are the row ids that SQLite
draws once the largest possible one is used. -/
inductive Operation where
  | createTask (candidate : Int64) (task : Task)
  | updateTask (task : Task)
  | deleteTask (id : Int64)
  | createTrigger (candidate : Int64) (trigger : Trigger)
  | updateTrigger (trigger : Trigger)
  | deleteTrigger (id : Int64)
  | replaceAll (tasks : List Task) (triggers : List Trigger)

namespace Operation

def apply (db : Tables) : Operation → Tables
  | createTask candidate task => (db.createTask candidate task).2
  | updateTask task => db.updateTask task
  | deleteTask id => db.deleteTask id
  | createTrigger candidate trigger => (db.createTrigger candidate trigger).2
  | updateTrigger trigger => db.updateTrigger trigger
  | deleteTrigger id => db.deleteTrigger id
  | replaceAll tasks triggers => (db.replaceAll tasks triggers).2

/-- Only tasks that no trigger starts are deleted; a trigger that is written, or
a database that is put in place, has its ids positive and its targets present. -/
def Guarded (db : Tables) : Operation → Prop
  | createTask _ _ | updateTask _ | deleteTrigger _ => True
  | deleteTask id => 0 < id → ∀ row ∈ db.triggers.rows, row.2.target ≠ id
  | createTrigger candidate trigger => Tables.newRowId db.triggers candidate ≠ none →
      Tables.TargetExists db.tasks.ids trigger.triggerTarget
  | updateTrigger trigger => trigger.id ∈ db.triggers.ids →
      Tables.TargetExists db.tasks.ids trigger.triggerTarget
  | replaceAll tasks triggers => (tasks.map Task.id).Nodup → (triggers.map Trigger.id).Nodup →
      (∀ task ∈ tasks, 0 < task.id) ∧ ∀ trigger ∈ triggers, 0 < trigger.id ∧
        Tables.TargetExists (tasks.map Task.id) trigger.triggerTarget

instance (db : Tables) (operation : Operation) : Decidable (operation.Guarded db) := by
  cases operation with
  | createTask _ _ => exact .isTrue trivial
  | updateTask _ => exact .isTrue trivial
  | deleteTrigger _ => exact .isTrue trivial
  | deleteTask id => exact inferInstanceAs (Decidable (_ → _))
  | createTrigger candidate trigger => exact inferInstanceAs (Decidable (_ → _))
  | updateTrigger trigger => exact inferInstanceAs (Decidable (_ → _))
  | replaceAll tasks triggers => exact inferInstanceAs (Decidable (_ → _ → _))

end Operation

namespace Tables

theorem toInt_succ {id : Int64} (below : id < Int64.maxValue) :
    (id + 1).toInt = id.toInt + 1 := by
  have bound : id.toInt < 2 ^ 63 - 1 := Int64.lt_iff_toInt_lt.mp below
  have lower := id.le_toInt
  have one : (1 : Int64).toInt = 1 := rfl
  rw [Int64.toInt_add]
  apply Int.bmod_eq_of_le
  · omega
  · omega

/-- A new row id is not used, and where all others are positive it is too. -/
theorem newRowId_spec {ρ : Type} {table : RowTable Int64 ρ} {candidate id : Int64}
    (drawn : newRowId table candidate = some id) :
    id ∉ table.ids ∧ ((∀ other ∈ table.ids, 0 < other) → 0 < id) := by
  cases last : table.largest with
  | none =>
      simp only [newRowId, last, Option.some.injEq] at drawn
      subst drawn
      rw [RowTable.largest_eq_none_iff.mp last]
      exact ⟨List.not_mem_nil, fun _ => by decide⟩
  | some largest =>
      obtain ⟨member, bound⟩ := RowTable.largest_spec last
      simp only [newRowId, last] at drawn
      split_ifs at drawn with below free
      · obtain rfl := Option.some.inj drawn
        have above : largest < largest + 1 := by
          rw [Int64.lt_iff_toInt_lt, toInt_succ below]
          exact Int.lt_succ _
        constructor
        · intro used
          exact absurd above (not_lt.mpr (bound _ used))
        · intro positive
          exact (positive largest member).trans above
      · obtain rfl := Option.some.inj drawn
        exact ⟨free.2, fun _ => free.1⟩

/-- What an insertion leaves behind: the old table, or one more row at a new id. -/
theorem insertRow_spec {ρ : Type} {table : RowTable Int64 ρ} {candidate : Int64} {row : ρ} :
    newRowId table candidate = none ∧ (insertRow table candidate row).2 = table ∨
      ∃ id, newRowId table candidate = some id ∧
        table.insert id row = some (insertRow table candidate row).2 := by
  unfold insertRow
  cases drawn : newRowId table candidate with
  | none => exact Or.inl ⟨rfl, rfl⟩
  | some id =>
      right
      refine ⟨id, rfl, ?_⟩
      have fresh := (newRowId_spec drawn).1
      simp only [RowTable.insert, if_neg fresh]

/-- An insertion keeps positive ids positive. -/
theorem insertRow_positive {ρ : Type} {table : RowTable Int64 ρ} {candidate : Int64} {row : ρ}
    (positive : ∀ id ∈ table.ids, 0 < id) :
    ∀ id ∈ (insertRow table candidate row).2.ids, 0 < id := by
  rcases @insertRow_spec ρ table candidate row with ⟨_, same⟩ | ⟨new, drawn, inserted⟩
  · rw [same]
    exact positive
  · intro id member
    rcases (RowTable.mem_ids_insert inserted).mp member with rfl | old
    · exact (newRowId_spec drawn).2 positive
    · exact positive id old

/-- A successful replacement leaves exactly the given items. -/
theorem replaceAll_spec (db : Tables) (tasks : List Task) (triggers : List Trigger) :
    (¬((tasks.map Task.id).Nodup ∧ (triggers.map Trigger.id).Nodup) ∧
      (db.replaceAll tasks triggers).2 = db) ∨
    ((tasks.map Task.id).Nodup ∧ (triggers.map Trigger.id).Nodup ∧
      (db.replaceAll tasks triggers).1 = .ok () ∧
      (∀ entry, entry ∈ (db.replaceAll tasks triggers).2.tasks.rows ↔
        entry ∈ tasks.map fun task => (task.id, getTaskContentValues task)) ∧
      ∀ entry, entry ∈ (db.replaceAll tasks triggers).2.triggers.rows ↔
        entry ∈ triggers.map fun trigger => (trigger.id, getTriggerContentValues trigger)) := by
  have tasksIff := @RowTable.insertAll_isSome_iff Int64 TaskRow _ RowTable.empty
    (tasks.map fun task => (task.id, getTaskContentValues task))
  have triggersIff := @RowTable.insertAll_isSome_iff Int64 TriggerRow _ RowTable.empty
    (triggers.map fun trigger => (trigger.id, getTriggerContentValues trigger))
  simp only [List.map_map, Function.comp_def, RowTable.ids_empty, List.not_mem_nil,
    not_false_eq_true, implies_true, and_true] at tasksIff triggersIff
  unfold replaceAll
  cases tasksFilled : RowTable.empty.insertAll
      (tasks.map fun task => (task.id, getTaskContentValues task)) with
  | none =>
      rw [tasksFilled] at tasksIff
      left
      refine ⟨fun nodup => ?_, rfl⟩
      simpa using tasksIff.mpr nodup.1
  | some newTasks =>
      rw [tasksFilled] at tasksIff
      cases triggersFilled : RowTable.empty.insertAll
          (triggers.map fun trigger => (trigger.id, getTriggerContentValues trigger)) with
      | none =>
          rw [triggersFilled] at triggersIff
          left
          refine ⟨fun nodup => ?_, rfl⟩
          simpa using triggersIff.mpr nodup.2
      | some newTriggers =>
          rw [triggersFilled] at triggersIff
          right
          refine ⟨tasksIff.mp rfl, triggersIff.mp rfl, rfl, fun entry => ?_, fun entry => ?_⟩
          · rw [RowTable.insertAll_eq_some tasksFilled]
            simp [RowTable.empty]
          · rw [RowTable.insertAll_eq_some triggersFilled]
            simp [RowTable.empty]

end Tables

/-! ## Which operations keep a database sound -/

section Steps

variable {db : Tables}

theorem sound_empty : Tables.empty.Sound := by
  constructor
  · intro id member
    cases member
  · intro id member
    cases member
  · intro row member
    cases member

theorem targetExists_mono {taskIds more : List Int64} {target : Int64} (subset : taskIds ⊆ more)
    (present : Tables.TargetExists taskIds target) : Tables.TargetExists more target :=
  fun positive => subset (present positive)

theorem sound_createTask {candidate : Int64} {task : Task} (sound : db.Sound) :
    (db.createTask candidate task).2.Sound := by
  refine ⟨Tables.insertRow_positive sound.tasks, sound.triggers, fun row member => ?_⟩
  apply targetExists_mono _ (sound.targets row member)
  rcases @Tables.insertRow_spec TaskRow db.tasks candidate
      (Tables.getTaskContentValues task) with ⟨_, same⟩ | ⟨new, _, inserted⟩
  · simp only [Tables.createTask, same]
    exact List.Subset.refl _
  · intro id old
    exact (RowTable.mem_ids_insert inserted).mpr (Or.inr old)

theorem sound_updateTask {task : Task} (sound : db.Sound) : (db.updateTask task).Sound := by
  refine ⟨?_, sound.triggers, ?_⟩
  · simpa [Tables.updateTask] using sound.tasks
  · simpa [Tables.updateTask] using sound.targets

theorem sound_deleteTask_iff {id : Int64} (sound : db.Sound) :
    (db.deleteTask id).Sound ↔ (Operation.deleteTask id).Guarded db := by
  constructor
  · intro next positive row member same
    have target : row.2.target ∈ (db.tasks.delete id).ids :=
      next.targets row member (same ▸ positive)
    exact (RowTable.mem_ids_delete.mp target).2 same
  · intro guarded
    refine ⟨fun other member => ?_, sound.triggers, fun row member positive => ?_⟩
    · exact sound.tasks other (RowTable.mem_ids_delete.mp member).1
    · apply RowTable.mem_ids_delete.mpr
      refine ⟨sound.targets row member positive, fun same => ?_⟩
      exact guarded (same ▸ positive) row member same

theorem sound_createTrigger_iff {candidate : Int64} {trigger : Trigger} (sound : db.Sound) :
    (db.createTrigger candidate trigger).2.Sound ↔
      (Operation.createTrigger candidate trigger).Guarded db := by
  rcases @Tables.insertRow_spec TriggerRow db.triggers candidate
      (Tables.getTriggerContentValues trigger) with ⟨full, same⟩ | ⟨new, drawn, inserted⟩
  · have unchanged : (db.createTrigger candidate trigger).2 = db := by
      simp only [Tables.createTrigger, same]
    rw [unchanged]
    exact ⟨fun _ free => absurd full free, fun _ => sound⟩
  · constructor
    · intro next _
      exact next.targets _ ((RowTable.mem_rows_insert inserted).mpr (Or.inl rfl))
    · intro guarded
      have present := guarded (by rw [drawn]; exact Option.some_ne_none new)
      refine ⟨sound.tasks, Tables.insertRow_positive sound.triggers, fun row member => ?_⟩
      rcases (RowTable.mem_rows_insert inserted).mp member with rfl | old
      · exact present
      · exact sound.targets row old

theorem sound_updateTrigger_iff {trigger : Trigger} (sound : db.Sound) :
    (db.updateTrigger trigger).Sound ↔ (Operation.updateTrigger trigger).Guarded db := by
  constructor
  · intro next used
    exact next.targets _ (RowTable.mem_rows_update.mpr (Or.inr ⟨rfl, used⟩))
  · intro guarded
    refine ⟨sound.tasks, ?_, fun row member => ?_⟩
    · simpa [Tables.updateTrigger] using sound.triggers
    · rcases RowTable.mem_rows_update.mp member with ⟨_, old⟩ | ⟨rfl, used⟩
      · exact sound.targets row old
      · exact guarded used

theorem sound_deleteTrigger {id : Int64} (sound : db.Sound) : (db.deleteTrigger id).Sound := by
  refine ⟨sound.tasks, fun other member => ?_, fun row member => ?_⟩
  · exact sound.triggers other (RowTable.mem_ids_delete.mp member).1
  · exact sound.targets row (RowTable.mem_rows_delete.mp member).1

theorem mem_ids_replaceAll {tasks : List Task} {triggers : List Trigger}
    (taskRows : ∀ entry, entry ∈ (db.replaceAll tasks triggers).2.tasks.rows ↔
      entry ∈ tasks.map fun task => (task.id, Tables.getTaskContentValues task)) (id : Int64) :
    id ∈ (db.replaceAll tasks triggers).2.tasks.ids ↔ id ∈ tasks.map Task.id := by
  simp [RowTable.mem_ids_iff, taskRows]

/-- What has passed the checks fills the tables, and they are sound. -/
theorem sound_replaceAll {tasks : List Task} {triggers : List Trigger}
    (tasksNodup : (tasks.map Task.id).Nodup) (triggersNodup : (triggers.map Trigger.id).Nodup)
    (tasksPositive : ∀ task ∈ tasks, 0 < task.id)
    (eachTrigger : ∀ trigger ∈ triggers, 0 < trigger.id ∧
      Tables.TargetExists (tasks.map Task.id) trigger.triggerTarget) :
    (db.replaceAll tasks triggers).1 = .ok () ∧ (db.replaceAll tasks triggers).2.Sound := by
  rcases db.replaceAll_spec tasks triggers with ⟨clash, _⟩ | ⟨_, _, filled, taskRows, triggerRows⟩
  · exact absurd ⟨tasksNodup, triggersNodup⟩ clash
  · have ids := mem_ids_replaceAll taskRows
    refine ⟨filled, fun id member => ?_, fun id member => ?_, fun row member positive => ?_⟩
    · obtain ⟨task, taskMember, rfl⟩ := List.mem_map.mp ((ids id).mp member)
      exact tasksPositive task taskMember
    · obtain ⟨row, rowMember⟩ := RowTable.mem_ids_iff.mp member
      obtain ⟨trigger, triggerMember, equal⟩ := List.mem_map.mp ((triggerRows _).mp rowMember)
      cases equal
      exact (eachTrigger trigger triggerMember).1
    · obtain ⟨trigger, triggerMember, rfl⟩ := List.mem_map.mp ((triggerRows _).mp member)
      exact (ids _).mpr ((eachTrigger trigger triggerMember).2 positive)

theorem sound_replaceAll_iff {tasks : List Task} {triggers : List Trigger} (sound : db.Sound) :
    (db.replaceAll tasks triggers).2.Sound ↔ (Operation.replaceAll tasks triggers).Guarded db := by
  rcases db.replaceAll_spec tasks triggers with ⟨clash, same⟩ |
    ⟨tasksNodup, triggersNodup, _, taskRows, triggerRows⟩
  · rw [same]
    exact ⟨fun _ one other => absurd ⟨one, other⟩ clash, fun _ => sound⟩
  · have ids := mem_ids_replaceAll taskRows
    constructor
    · intro next _ _
      refine ⟨fun task member => ?_, fun trigger member => ?_⟩
      · exact next.tasks _ ((ids _).mpr (List.mem_map_of_mem member))
      · have row : (trigger.id, Tables.getTriggerContentValues trigger) ∈
            (db.replaceAll tasks triggers).2.triggers.rows :=
          (triggerRows _).mpr (List.mem_map_of_mem member)
        refine ⟨next.triggers _ (RowTable.mem_ids_iff.mpr ⟨_, row⟩), fun positive => ?_⟩
        exact (ids _).mp (next.targets _ row positive)
    · intro guarded
      obtain ⟨tasksPositive, eachTrigger⟩ := guarded tasksNodup triggersNodup
      exact (sound_replaceAll tasksNodup triggersNodup tasksPositive eachTrigger).2

/-! ## What an import does with a document -/

/-- A document that the validator accepts is imported, and the tables are sound then. -/
theorem importJson_of_valid {json : JsonLibrary} {content : JavaString}
    (valid : Importer.validateJson json content = .ok ()) (db : Tables) :
    ∃ imported, Importer.importJson json content db = (.ok (), imported) ∧ imported.Sound := by
  unfold Importer.importJson
  rw [valid]
  unfold Importer.validateJson at valid
  cases parsed : Importer.parse json content with
  | error error =>
      rw [parsed] at valid
      cases valid
  | ok backup =>
      rw [parsed] at valid
      simp only [bind, Except.bind] at valid
      cases checked : Importer.checkTasks [] backup.tasks with
      | error error =>
          rw [checked] at valid
          cases valid
      | ok taskIds =>
          rw [checked] at valid
          obtain ⟨tasksFresh, tasksNodup, rfl⟩ := Importer.checkTasks_iff.mp checked
          obtain ⟨eachTrigger, triggersNodup⟩ := Importer.checkTriggers_iff.mp valid
          obtain ⟨filled, sound⟩ := @sound_replaceAll db backup.tasks backup.triggers tasksNodup
            triggersNodup (fun task member => (tasksFresh task member).1) fun trigger member =>
              ⟨(eachTrigger trigger member).1, fun positive => by
                simpa using (eachTrigger trigger member).2.2 positive⟩
          have replaced : db.replaceAll backup.tasks backup.triggers =
              (.ok (), (db.replaceAll backup.tasks backup.triggers).2) := Prod.ext filled rfl
          refine ⟨_, ?_, sound⟩
          dsimp only
          rw [replaced]

theorem importJson_of_invalid {json : JsonLibrary} {content : JavaString}
    (invalid : Importer.validateJson json content ≠ .ok ()) (db : Tables) :
    ∃ error, Importer.importJson json content db = (.error error, db) := by
  unfold Importer.importJson
  cases parsed : Importer.parse json content with
  | error error => exact ⟨error, rfl⟩
  | ok backup =>
      cases checked : Importer.validateJson json content with
      | error error => exact ⟨error, rfl⟩
      | ok accepted => exact absurd checked invalid

/-- Whether tables are sound can be seen from what they list. -/
theorem sound_of_lists {other : Tables} (tasks : other.allTasks = db.allTasks)
    (triggers : other.allTrigger = db.allTrigger) (sound : db.Sound) : other.Sound := by
  have taskIds : other.tasks.ids = db.tasks.ids := by
    rw [← map_id_allTasks, ← map_id_allTasks, tasks]
  have triggerIds : other.triggers.ids = db.triggers.ids := by
    rw [← map_id_allTrigger, ← map_id_allTrigger, triggers]
  refine ⟨taskIds ▸ sound.tasks, triggerIds ▸ sound.triggers, fun row member => ?_⟩
  have listed : Tables.triggerFromCursor row ∈ db.allTrigger := by
    rw [← triggers]
    exact List.mem_map_of_mem member
  obtain ⟨twin, isTwin, same⟩ := List.mem_map.mp listed
  have target : twin.2.target = row.2.target := congrArg Trigger.triggerTarget same
  rw [taskIds, ← target]
  exact sound.targets twin isTwin

/-- From a sound database, exactly the guarded operations lead to a sound one. -/
theorem sound_apply_iff {operation : Operation} (sound : db.Sound) :
    (operation.apply db).Sound ↔ operation.Guarded db := by
  cases operation with
  | createTask candidate task => exact iff_of_true (sound_createTask sound) trivial
  | updateTask task => exact iff_of_true (sound_updateTask sound) trivial
  | deleteTask id => exact sound_deleteTask_iff sound
  | createTrigger candidate trigger => exact sound_createTrigger_iff sound
  | updateTrigger trigger => exact sound_updateTrigger_iff sound
  | deleteTrigger id => exact iff_of_true (sound_deleteTrigger sound) trivial
  | replaceAll tasks triggers => exact sound_replaceAll_iff sound

end Steps

/-! ## Runs -/

/-- Every database of a run can be backed up and restored exactly when every
operation of the run is guarded. -/
theorem backups_restorable_iff {json : JsonLibrary} {operations : List Operation}
    (faithful : Always Operation.apply (fun db => Faithful json db.allTasks db.allTrigger)
      .empty operations) :
    Always Operation.apply (BackupLaw json) .empty operations ↔
      Meets Operation.apply (fun db operation => operation.Guarded db) .empty operations := by
  have laws : Always Operation.apply (BackupLaw json) .empty operations ↔
      Always Operation.apply Tables.Sound .empty operations := by
    constructor
    · intro always
      apply (faithful.and always).mono
      rintro db ⟨faithful, law⟩
      exact (backupLaw_iff_sound faithful).mp law
    · intro always
      apply (faithful.and always).mono
      rintro db ⟨faithful, sound⟩
      exact (backupLaw_iff_sound faithful).mpr sound
  rw [laws]
  exact always_iff_meets_of_step (fun db operation sound => sound_apply_iff sound) sound_empty

/-! ## A run with one task and one trigger -/

/-- The text of a string that needs no escapes. -/
def quoted (value : JavaString) : JavaString :=
  '"' :: value ++ ['"']

mutual

/-- The text of a value whose strings need no escapes. -/
def render : Json → JavaString
  | .null => text "null"
  | .bool value => text (toString value)
  | .number value => text (toString value)
  | .decimal literal => literal
  | .string value => quoted value
  | .array items => '[' :: renderItems items ++ [']']
  | .object fields => Char.ofNat 123 :: renderFields fields ++ [Char.ofNat 125]

def renderItems : List Json → JavaString
  | [] => []
  | [item] => render item
  | item :: items => render item ++ ',' :: renderItems items

def renderFields : List (String × Json) → JavaString
  | [] => []
  | [(name, value)] => quoted (text name) ++ ':' :: render value
  | (name, value) :: fields =>
      quoted (text name) ++ ':' :: render value ++ ',' :: renderFields fields

end

/-- A library that knows some documents. -/
def plainJson (documents : List Fields) : JsonLibrary where
  print fields := render (.object fields)
  parse content :=
    match documents.find? fun fields => render (.object fields) = content with
    | some fields => .ok fields
    | none => .error .library
  toInteger
    | .number n => some (Int32.ofInt n)
    | _ => none
  quoted _ := none

def nightlyTask : Task where
  id := 1
  title := text "Photos"
  remoteId := text "drive"
  remoteType := 12
  remotePath := text "backup"
  localPath := text "DCIM"
  direction := 1
  wifionly := true

def nightlyTrigger : Trigger where
  id := 1
  title := text "Nightly"
  weekdays := 0b0011111
  time := 7200
  triggerTarget := 1

def nightlyJson : JsonLibrary :=
  plainJson [Exporter.document [] [], Exporter.document [nightlyTask] [],
    Exporter.document [nightlyTask] [nightlyTrigger], Exporter.document [] [nightlyTrigger]]

def nightlyRun : List Operation :=
  [.createTask 0 { nightlyTask with id := -1 }, .createTrigger 0 { nightlyTrigger with id := -1 }]

theorem toInteger_nightlyJson (n : Int32) : nightlyJson.toInteger (.number n.toInt) = some n := by
  simp [nightlyJson, plainJson]

set_option maxRecDepth 4000 in
/-- A task and its trigger survive a backup after each operation that stores them. -/
theorem backups_restorable_iff_nightly :
    Always Operation.apply (BackupLaw nightlyJson) .empty nightlyRun := by
  apply (backups_restorable_iff _).mpr
  · decide
  · exact ⟨⟨rfl, toInteger_nightlyJson⟩, ⟨rfl, toInteger_nightlyJson⟩, rfl, toInteger_nightlyJson⟩

/-- Deleting the task leaves its trigger behind, and the backup taken then is
refused. -/
theorem deletedTask_not_restorable :
    ¬Always Operation.apply (BackupLaw nightlyJson) .empty (nightlyRun ++ [.deleteTask 1]) := by
  intro always
  have accepted := always.last.accepted
  have refused : Importer.validateJson nightlyJson (Exporter.create nightlyJson
      (run Operation.apply .empty (nightlyRun ++ [.deleteTask 1]))) =
        .error (.jsonException (text "Trigger references a missing task: 1")) := by
    rfl
  rw [refused] at accepted
  cases accepted

end RoundSync.Database
