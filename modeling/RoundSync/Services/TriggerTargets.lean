import RoundSync.Services.TriggerService

/-!
# The task of a trigger

A trigger keeps the row id of its task, and nothing else ties the two.  The tasks are
numbered here in the order of their creation; what the user has set a trigger to is such
a number, and so is what the row id leads to when the trigger fires or its work starts.
They differ after the id of a deleted task has been given out again.
-/

namespace RoundSync.Services

open RoundSync.Data
open RoundSync.Database
open RoundSync.Text
open RoundSync.Transition

/-! ## Traced runs -/

/-- The application, with the creations of its tasks. -/
structure Traced where
  app : App
  /-- how many tasks have been created -/
  created : Nat
  /-- the creation from which the task with a row id stems -/
  origin : Int64 → Option Nat
  /-- the task to which the user has set the trigger with a row id -/
  configured : Int64 → Option Nat
  /-- the queued work: a row id, and the task of the trigger that has queued it -/
  works : List (Int64 × Option Nat)

/-- A worker looks its task up when it starts. -/
inductive TracedEvent where
  | app (event : Event)
  | doWork (position : Nat)

namespace Traced

def fresh : Traced where
  app := freshApp
  created := 0
  origin _ := none
  configured _ := none
  works := []

/-- The task of a trigger that the list writes: the list shows it, and does not set it. -/
def shown (traced : Traced) (trigger : Trigger) : Option Nat :=
  match getTrigger traced.app.db trigger.id with
  | some stored =>
      if stored.triggerTarget = trigger.triggerTarget then traced.configured trigger.id
      else traced.origin trigger.triggerTarget
  | none => traced.origin trigger.triggerTarget

/-- The task of the trigger whose alarm is pending under a code. -/
def firing (traced : Traced) (code : Int32) : Option Nat :=
  (traced.app.alarms code).bind fun alarm => traced.configured alarm.triggerId

section

variable (zone : Zone) (suffix : JavaString)

/-- What is remembered of an event besides what the application keeps. -/
def remember (traced : Traced) : Event → Traced
  | .createTask candidate _ =>
      match Tables.newRowId traced.app.db.tasks candidate with
      | none => traced
      | some id =>
          { traced with
            created := traced.created + 1
            origin := Function.update traced.origin id (some traced.created) }
  | .deleteTask id => { traced with origin := Function.update traced.origin id none }
  | .saveTrigger _ candidate trigger =>
      let id := if trigger.id = TRIGGER_ID_DOESNTEXIST
        then (traced.app.db.createTrigger candidate trigger).1.id else trigger.id
      if Kotlin.isBlank trigger.title || traced.app.db.allTasks.isEmpty then traced
      else
        { traced with
          configured :=
            Function.update traced.configured id (traced.origin trigger.triggerTarget) }
  | .setIconListener _ trigger =>
      { traced with
        configured := Function.update traced.configured trigger.id (traced.shown trigger) }
  | .copyTrigger candidate trigger =>
      { traced with
        configured := Function.update traced.configured
          (traced.app.db.createTrigger candidate trigger).1.id (traced.shown trigger) }
  | .fire now code =>
      { traced with
        works := traced.works ++
          (onReceive zone now traced.app code).1.map fun id => (id, traced.firing code) }
  | .updateTask _ | .deleteTrigger _ | .showTriggers | .openMain _ | .boot _ => traced

def next (traced : Traced) : TracedEvent → Traced
  | .app event =>
      { remember zone traced event with app := nextApp zone suffix traced.app event }
  | .doWork position => { traced with works := traced.works.eraseIdx position }

end

/-! ## The right task -/

/-- The row id leads to the task that was chosen; it leads nowhere once that is deleted. -/
def Finds (traced : Traced) (id : Int64) (chosen : Option Nat) : Prop :=
  ∀ task, chosen = some task →
    match getTask traced.app.db id with
    | some _ => traced.origin id = some task
    | none => ∀ other, traced.origin other ≠ some task

/-- Every trigger that may fire, and every work that is queued, finds its task. -/
structure Right (traced : Traced) : Prop where
  triggers : ∀ trigger ∈ traced.app.db.allTrigger,
    traced.Finds trigger.triggerTarget (traced.configured trigger.id)
  works : ∀ work ∈ traced.works, traced.Finds work.1 work.2

/-- What an alarm queues, and what a worker starts, is the task of the trigger. -/
def StartsConfigured (zone : Zone) (traced : Traced) : TracedEvent → Prop
  | .app (.fire now code) => ∀ id ∈ (onReceive zone now traced.app code).1,
      traced.Finds id (traced.firing code)
  | .app _ => True
  | .doWork position => ∀ id chosen, traced.works[position]? = some (id, chosen) →
      traced.Finds id chosen

/-- A new task does not get a row id that a trigger or a queued work keeps for another. -/
def Guarded (traced : Traced) : TracedEvent → Prop
  | .app (.createTask candidate _) => ∀ id,
      Tables.newRowId traced.app.db.tasks candidate = some id →
        (∀ trigger ∈ traced.app.db.allTrigger, trigger.triggerTarget = id →
          traced.configured trigger.id = none) ∧
        ∀ work ∈ traced.works, work.1 = id → work.2 = none
  | _ => True

/-- The row ids of the tasks and the creations correspond. -/
structure Consistent (traced : Traced) : Prop where
  stored : ∀ id, traced.origin id ≠ none ↔ id ∈ traced.app.db.tasks.ids
  distinct : ∀ id other task, traced.origin id = some task → traced.origin other = some task →
    id = other
  created : ∀ id task, traced.origin id = some task → task < traced.created
  configured : ∀ id task, traced.configured id = some task → task < traced.created
  works : ∀ work ∈ traced.works, ∀ task, work.2 = some task → task < traced.created
  positive : ∀ id ∈ traced.app.db.triggers.ids, 0 < id

/-! ## Single steps -/

/-- The link in terms of the creations alone. -/
def Links (origin : Int64 → Option Nat) (id : Int64) (chosen : Option Nat) : Prop :=
  ∀ task, chosen = some task →
    origin id = some task ∨ origin id = none ∧ ∀ other, origin other ≠ some task

section

variable {zone : Zone} {suffix : JavaString} {traced : Traced} {id : Int64} {chosen : Option Nat}

theorem Consistent.finds_iff (consistent : Consistent traced) :
    traced.Finds id chosen ↔ Links traced.origin id chosen := by
  have absent : getTask traced.app.db id = none ↔ traced.origin id = none := by
    rw [getTask_eq_none_iff, ← consistent.stored id, not_not]
  unfold Finds Links
  cases found : getTask traced.app.db id with
  | none =>
      have isNone := absent.mp found
      simp [isNone]
  | some row =>
      have isSome : traced.origin id ≠ none := by
        rw [ne_eq, ← absent, found]
        exact Option.some_ne_none row
      simp [isSome]

theorem links_origin (origin : Int64 → Option Nat) (id : Int64) : Links origin id (origin id) :=
  fun _ => Or.inl

theorem update_eq_some_iff {origin : Int64 → Option Nat} {new other : Int64} {task : Nat} :
    Function.update origin new chosen other = some task ↔
      other = new ∧ chosen = some task ∨ other ≠ new ∧ origin other = some task := by
  by_cases same : other = new
  · simp [same]
  · simp [same]

/-- A creation under a new id leaves the links alone that do not name the id. -/
theorem Links.create {origin : Int64 → Option Nat} {new : Int64} {created : Nat}
    (links : Links origin id chosen) (below : ∀ task, chosen = some task → task < created)
    (apart : id = new → chosen = none) :
    Links (Function.update origin new (some created)) id chosen := by
  intro task isTask
  have isOld := below task isTask
  have notNew : id ≠ new := by
    intro same
    rw [apart same] at isTask
    cases isTask
  rw [Function.update_of_ne notNew]
  rcases links task isTask with found | ⟨isNone, gone⟩
  · exact Or.inl found
  · refine Or.inr ⟨isNone, fun other found => ?_⟩
    rcases update_eq_some_iff.mp found with ⟨_, isNew⟩ | ⟨_, old⟩
    · rw [Option.some.inj isNew] at isOld
      exact Nat.lt_irrefl _ isOld
    · exact gone other old

/-- After a deletion the links of its id lead nowhere. -/
theorem Links.delete {origin : Int64 → Option Nat} {gone : Int64}
    (distinct : ∀ id other task, origin id = some task → origin other = some task → id = other)
    (links : Links origin id chosen) : Links (Function.update origin gone none) id chosen := by
  intro task isTask
  by_cases same : id = gone
  · subst same
    refine Or.inr ⟨Function.update_self _ _ _, fun other found => ?_⟩
    rcases update_eq_some_iff.mp found with ⟨_, isNone⟩ | ⟨apart, old⟩
    · cases isNone
    · rcases links task isTask with isId | ⟨_, absent⟩
      · exact apart (distinct other id task old isId)
      · exact absent other old
  · rw [Function.update_of_ne same]
    refine (links task isTask).imp_right fun ⟨isNone, absent⟩ => ⟨isNone, fun other found => ?_⟩
    rcases update_eq_some_iff.mp found with ⟨_, isNone⟩ | ⟨_, old⟩
    · cases isNone
    · exact absent other old

/-- The link that the list shows for a trigger is the one that is stored. -/
theorem links_shown (consistent : Consistent traced) (right : Right traced) (trigger : Trigger) :
    Links traced.origin trigger.triggerTarget (traced.shown trigger) := by
  unfold shown
  cases found : getTrigger traced.app.db trigger.id with
  | none => exact links_origin _ _
  | some stored =>
      obtain ⟨member, isId⟩ := getTrigger_eq_some_iff.mp found
      dsimp only
      split_ifs with same
      · rw [← same, ← isId]
        exact consistent.finds_iff.mp (right.triggers stored member)
      · exact links_origin _ _

theorem mem_ids_createTask {db : Tables} {candidate : Int64} {task : Task} {other : Int64} :
    other ∈ (db.createTask candidate task).2.tasks.ids ↔
      Tables.newRowId db.tasks candidate = some other ∨ other ∈ db.tasks.ids := by
  rcases @Tables.insertRow_spec TaskRow db.tasks candidate (Tables.getTaskContentValues task) with
    ⟨full, same⟩ | ⟨new, drawn, inserted⟩
  · simp only [Tables.createTask, same, full, reduceCtorEq, false_or]
  · simp only [Tables.createTask, RowTable.mem_ids_insert inserted, drawn, Option.some.injEq]
    rw [eq_comm]

theorem Consistent.shown_lt (consistent : Consistent traced) {trigger : Trigger} {task : Nat}
    (isTask : traced.shown trigger = some task) : task < traced.created := by
  unfold shown at isTask
  split at isTask
  · split_ifs at isTask
    · exact consistent.configured _ _ isTask
    · exact consistent.created _ _ isTask
  · exact consistent.created _ _ isTask

theorem Consistent.firing_lt (consistent : Consistent traced) {code : Int32} {task : Nat}
    (isTask : traced.firing code = some task) : task < traced.created := by
  obtain ⟨alarm, _, found⟩ := Option.bind_eq_some_iff.mp isTask
  exact consistent.configured _ _ found

/-- Writing triggers: the tasks are as before, and one trigger is set to an older task. -/
theorem Consistent.configure (consistent : Consistent traced) {app : App} {trigger : Int64}
    (tasks : app.db.tasks = traced.app.db.tasks) (positive : ∀ id ∈ app.db.triggers.ids, 0 < id)
    (older : ∀ task, chosen = some task → task < traced.created) :
    Consistent { traced with app, configured := Function.update traced.configured trigger chosen } where
  stored := by
    rw [tasks]
    exact consistent.stored
  distinct := consistent.distinct
  created := consistent.created
  configured := by
    intro other task isTask
    rcases update_eq_some_iff.mp isTask with ⟨_, isChosen⟩ | ⟨_, old⟩
    · exact older task isChosen
    · exact consistent.configured other task old
  works := consistent.works
  positive := positive

/-- The tasks are as before, and no trigger is new. -/
theorem Consistent.keep (consistent : Consistent traced) {app : App}
    (tasks : app.db.tasks.ids = traced.app.db.tasks.ids)
    (triggers : ∀ id ∈ app.db.triggers.ids, 0 < id) : Consistent { traced with app } where
  stored := by
    rw [tasks]
    exact consistent.stored
  distinct := consistent.distinct
  created := consistent.created
  configured := consistent.configured
  works := consistent.works
  positive := triggers

theorem Consistent.createTask (consistent : Consistent traced) (candidate : Int64) (task : Task) :
    Consistent (traced.next zone suffix (.app (.createTask candidate task))) := by
  cases drawn : Tables.newRowId traced.app.db.tasks candidate with
  | none =>
      have same : traced.next zone suffix (.app (.createTask candidate task)) =
          { traced with app := nextApp zone suffix traced.app (.createTask candidate task) } := by
        simp only [next, remember, drawn]
      rw [same]
      apply consistent.keep
      · simp only [nextApp, stepApp, Tables.createTask, Tables.insertRow, drawn]
      · exact consistent.positive
  | some id =>
      have fresh := (Tables.newRowId_spec drawn).1
      have unused : traced.origin id = none := by
        by_contra used
        exact fresh ((consistent.stored id).mp used)
      have reached : traced.next zone suffix (.app (.createTask candidate task)) =
          { traced with
            app := nextApp zone suffix traced.app (.createTask candidate task)
            created := traced.created + 1
            origin := Function.update traced.origin id (some traced.created) } := by
        simp only [next, remember, drawn]
      rw [reached]
      constructor
      · intro other
        simp only [nextApp, stepApp, mem_ids_createTask, drawn, Option.some.injEq]
        by_cases same : other = id
        · simp [same]
        · rw [Function.update_of_ne same, consistent.stored]
          simp [Ne.symm same]
      · intro one other task first second
        rcases update_eq_some_iff.mp first with ⟨rfl, isNew⟩ | ⟨_, old⟩
        · rcases update_eq_some_iff.mp second with ⟨rfl, _⟩ | ⟨_, older⟩
          · rfl
          · rw [← Option.some.inj isNew] at older
            exact absurd (consistent.created other _ older) (Nat.lt_irrefl _)
        · rcases update_eq_some_iff.mp second with ⟨rfl, isNew⟩ | ⟨_, older⟩
          · rw [← Option.some.inj isNew] at old
            exact absurd (consistent.created one _ old) (Nat.lt_irrefl _)
          · exact consistent.distinct one other task old older
      · intro other task isTask
        rcases update_eq_some_iff.mp isTask with ⟨_, isNew⟩ | ⟨_, old⟩
        · rw [← Option.some.inj isNew]
          exact Nat.lt_succ_self _
        · exact Nat.lt_succ_of_lt (consistent.created other task old)
      · exact fun other task isTask => Nat.lt_succ_of_lt (consistent.configured other task isTask)
      · exact fun work member task isTask =>
          Nat.lt_succ_of_lt (consistent.works work member task isTask)
      · exact consistent.positive

theorem Consistent.deleteTask (consistent : Consistent traced) (id : Int64) :
    Consistent (traced.next zone suffix (.app (.deleteTask id))) where
  stored := by
    intro other
    simp only [next, remember, nextApp, stepApp, Tables.deleteTask, RowTable.mem_ids_delete,
      ← consistent.stored]
    by_cases same : other = id
    · simp [same]
    · simp [same]
  distinct := by
    intro one other task first second
    rcases update_eq_some_iff.mp first with ⟨_, isNone⟩ | ⟨_, old⟩
    · cases isNone
    · rcases update_eq_some_iff.mp second with ⟨_, isNone⟩ | ⟨_, older⟩
      · cases isNone
      · exact consistent.distinct one other task old older
  created := by
    intro other task isTask
    rcases update_eq_some_iff.mp isTask with ⟨_, isNone⟩ | ⟨_, old⟩
    · cases isNone
    · exact consistent.created other task old
  configured := consistent.configured
  works := consistent.works
  positive := consistent.positive

/-- What the trigger events leave of the tasks. -/
theorem Consistent.next (consistent : Consistent traced) (event : TracedEvent) :
    Consistent (traced.next zone suffix event) := by
  have positive := consistent.positive
  have updated : ∀ trigger : Trigger,
      ∀ id ∈ (traced.app.db.updateTrigger trigger).triggers.ids, 0 < id := by
    intro trigger
    simpa [Tables.updateTrigger] using positive
  cases event with
  | doWork position =>
      exact { consistent with
        works := fun work member =>
          consistent.works work ((List.eraseIdx_sublist _ _).mem member) }
  | app event =>
      cases event with
      | createTask candidate task => exact consistent.createTask candidate task
      | deleteTask id => exact consistent.deleteTask id
      | updateTask task =>
          exact consistent.keep (RowTable.ids_update _ _ _) positive
      | deleteTrigger trigger =>
          exact consistent.keep rfl fun id member =>
            positive id (RowTable.mem_ids_delete.mp member).1
      | openMain now => exact consistent.keep rfl positive
      | boot now => exact consistent.keep rfl positive
      | showTriggers =>
          have same : (updateVisibilities traced.app).db = traced.app.db := by
            unfold updateVisibilities
            split_ifs
            · rfl
            · rfl
          apply consistent.keep
          · exact congrArg (fun db : Tables => db.tasks.ids) same
          · simp only [nextApp, stepApp, same]
            exact positive
      | saveTrigger now candidate trigger =>
          simp only [Traced.next, remember, nextApp, stepApp, saveTrigger]
          cases isBlank : Kotlin.isBlank trigger.title with
          | true => exact consistent
          | false =>
              cases noTasks : traced.app.db.allTasks.isEmpty with
              | true => exact consistent
              | false =>
                  simp only [Bool.false_eq_true, if_false, Bool.or_false]
                  have older : ∀ task, traced.origin trigger.triggerTarget = some task →
                      task < traced.created := fun task => consistent.created _ task
                  split_ifs
                  · exact consistent.configure rfl (Tables.insertRow_positive positive) older
                  · exact consistent.configure rfl (updated trigger) older
      | setIconListener now trigger =>
          have older := fun task => @Consistent.shown_lt traced consistent trigger task
          simp only [Traced.next, remember, nextApp, stepApp, setIconListener]
          split_ifs
          · exact consistent.configure rfl (updated _) older
          · exact consistent.configure rfl (updated _) older
      | copyTrigger candidate trigger =>
          exact consistent.configure rfl (Tables.insertRow_positive positive) fun task =>
            consistent.shown_lt
      | fire now code =>
          have db : (nextApp zone suffix traced.app (.fire now code)).db = traced.app.db :=
            db_onReceive
          have kept : Consistent { traced with
              app := nextApp zone suffix traced.app (.fire now code) } :=
            consistent.keep (by rw [db]) (by rwa [db])
          exact { kept with
            works := fun work member task isTask => by
              rcases List.mem_append.mp member with old | new
              · exact consistent.works work old task isTask
              · obtain ⟨id, _, rfl⟩ := List.mem_map.mp new
                exact consistent.firing_lt isTask }

theorem Consistent.right_iff (consistent : Consistent traced) :
    Right traced ↔
      (∀ trigger ∈ traced.app.db.allTrigger,
        Links traced.origin trigger.triggerTarget (traced.configured trigger.id)) ∧
      ∀ work ∈ traced.works, Links traced.origin work.1 work.2 := by
  constructor
  · rintro ⟨triggers, works⟩
    exact ⟨fun trigger member => consistent.finds_iff.mp (triggers trigger member),
      fun work member => consistent.finds_iff.mp (works work member)⟩
  · rintro ⟨triggers, works⟩
    exact ⟨fun trigger member => consistent.finds_iff.mpr (triggers trigger member),
      fun work member => consistent.finds_iff.mpr (works work member)⟩

/-- A trigger is written with a link of its own; the others are as before. -/
theorem right_configure (consistent : Consistent traced) (right : Right traced) {app : App}
    {saved : Trigger}
    (reached : Consistent { traced with
      app
      configured := Function.update traced.configured saved.id chosen })
    (listed : ∀ trigger ∈ app.db.allTrigger,
      trigger = saved ∨ trigger ∈ traced.app.db.allTrigger ∧ trigger.id ≠ saved.id)
    (links : Links traced.origin saved.triggerTarget chosen) :
    Right { traced with app, configured := Function.update traced.configured saved.id chosen } := by
  obtain ⟨triggers, works⟩ := consistent.right_iff.mp right
  refine reached.right_iff.mpr ⟨fun trigger member => ?_, works⟩
  dsimp only
  rcases listed trigger member with rfl | ⟨old, apart⟩
  · rw [Function.update_self]
    exact links
  · rw [Function.update_of_ne apart]
    exact triggers trigger old

/-- Nothing is written that a link depends on. -/
theorem right_keep (consistent : Consistent traced) (right : Right traced) {app : App}
    (reached : Consistent { traced with app })
    (listed : ∀ trigger ∈ app.db.allTrigger, trigger ∈ traced.app.db.allTrigger) :
    Right { traced with app } := by
  obtain ⟨triggers, works⟩ := consistent.right_iff.mp right
  exact reached.right_iff.mpr ⟨fun trigger member => triggers trigger (listed trigger member), works⟩

/-- A new task takes a link over exactly where its row id is kept for another. -/
theorem right_createTask_iff (consistent : Consistent traced) (right : Right traced)
    (candidate : Int64) (task : Task) :
    Right (traced.next zone suffix (.app (.createTask candidate task))) ↔
      traced.Guarded (.app (.createTask candidate task)) := by
  have reached := @Consistent.createTask zone suffix traced consistent candidate task
  obtain ⟨triggers, works⟩ := consistent.right_iff.mp right
  cases drawn : Tables.newRowId traced.app.db.tasks candidate with
  | none =>
      have same : traced.next zone suffix (.app (.createTask candidate task)) =
          { traced with app := nextApp zone suffix traced.app (.createTask candidate task) } := by
        simp only [next, remember, drawn]
      refine iff_of_true ?_ fun id isId => ?_
      · rw [same] at reached ⊢
        exact right_keep consistent right reached fun _ member => member
      · rw [drawn] at isId
        cases isId
  | some id =>
      have origin : (traced.next zone suffix (.app (.createTask candidate task))).origin =
          Function.update traced.origin id (some traced.created) := by
        simp only [next, remember, drawn]
      have configured : (traced.next zone suffix (.app (.createTask candidate task))).configured =
          traced.configured := by
        simp only [next, remember, drawn]
      have queued : (traced.next zone suffix (.app (.createTask candidate task))).works =
          traced.works := by
        simp only [next, remember, drawn]
      have taken : ∀ chosen, (∀ task, chosen = some task → task < traced.created) →
          Links (Function.update traced.origin id (some traced.created)) id chosen →
            chosen = none := by
        intro chosen older links
        cases isTask : chosen with
        | none => rfl
        | some task =>
            rcases links task isTask with isNew | ⟨isNone, _⟩
            · rw [Function.update_self, Option.some.injEq] at isNew
              exact absurd (older task isTask) (isNew ▸ Nat.lt_irrefl _)
            · rw [Function.update_self] at isNone
              cases isNone
      rw [reached.right_iff, origin, configured, queued]
      constructor
      · rintro ⟨newTriggers, newWorks⟩ other isOther
        obtain rfl := Option.some.inj (drawn.symm.trans isOther)
        refine ⟨fun trigger member isTarget => ?_, fun work member isWork => ?_⟩
        · refine taken _ (consistent.configured trigger.id) ?_
          rw [← isTarget] at newTriggers ⊢
          exact newTriggers trigger member
        · refine taken _ (consistent.works work member) ?_
          rw [← isWork] at newWorks ⊢
          exact newWorks work member
      · intro guarded
        obtain ⟨freeTriggers, freeWorks⟩ := guarded id drawn
        refine ⟨fun trigger member => ?_, fun work member => ?_⟩
        · exact (triggers trigger member).create (consistent.configured trigger.id)
            (freeTriggers trigger member)
        · exact (works work member).create (consistent.works work member) (freeWorks work member)

/-- From a state in which every trigger and work finds its task, exactly the guarded events
lead to another. -/
theorem right_next_iff (consistent : Consistent traced) (right : Right traced)
    (event : TracedEvent) : Right (traced.next zone suffix event) ↔ traced.Guarded event := by
  have reached := @Consistent.next zone suffix traced consistent event
  obtain ⟨triggers, works⟩ := consistent.right_iff.mp right
  cases event with
  | doWork position =>
      refine iff_of_true ⟨right.triggers, fun work member => ?_⟩ trivial
      exact right.works work ((List.eraseIdx_sublist _ _).mem member)
  | app event =>
      cases event with
      | createTask candidate task => exact right_createTask_iff consistent right candidate task
      | deleteTask id =>
          refine iff_of_true (reached.right_iff.mpr ⟨fun trigger member => ?_,
            fun work member => ?_⟩) trivial
          · exact (triggers trigger member).delete consistent.distinct
          · exact (works work member).delete consistent.distinct
      | updateTask task =>
          exact iff_of_true (right_keep consistent right reached fun _ member => member) trivial
      | deleteTrigger trigger =>
          exact iff_of_true (right_keep consistent right reached fun other member =>
            (mem_allTrigger_deleteTrigger.mp member).1) trivial
      | openMain now =>
          exact iff_of_true (right_keep consistent right reached fun _ member => member) trivial
      | boot now =>
          exact iff_of_true (right_keep consistent right reached fun _ member => member) trivial
      | showTriggers =>
          have same : (updateVisibilities traced.app).db = traced.app.db := by
            unfold updateVisibilities
            split_ifs
            · rfl
            · rfl
          refine iff_of_true (right_keep consistent right reached fun trigger member => ?_) trivial
          simpa [nextApp, stepApp, same] using member
      | saveTrigger now candidate trigger =>
          refine iff_of_true ?_ trivial
          simp only [Traced.next, remember, nextApp, stepApp, saveTrigger] at reached ⊢
          cases isBlank : Kotlin.isBlank trigger.title with
          | true => exact right
          | false =>
              cases noTasks : traced.app.db.allTasks.isEmpty with
              | true => exact right
              | false =>
                  simp only [isBlank, noTasks, Bool.false_eq_true, if_false, Bool.or_false]
                    at reached ⊢
                  split_ifs at reached ⊢
                  · exact right_configure consistent right reached
                      (listed_createTrigger consistent.positive candidate trigger)
                      (links_origin _ _)
                  · exact right_configure consistent right reached
                      (listed_updateTrigger _ trigger) (links_origin _ _)
      | setIconListener now trigger =>
          refine iff_of_true ?_ trivial
          have links := links_shown consistent right trigger
          simp only [Traced.next, remember, nextApp, stepApp, setIconListener] at reached ⊢
          split_ifs at reached ⊢
          · exact @right_configure traced (traced.shown trigger) consistent right _
              { trigger with isEnabled := !trigger.isEnabled } reached (listed_updateTrigger _ _) links
          · exact @right_configure traced (traced.shown trigger) consistent right _
              { trigger with isEnabled := !trigger.isEnabled } reached (listed_updateTrigger _ _) links
      | copyTrigger candidate trigger =>
          refine iff_of_true ?_ trivial
          have links := links_shown consistent right trigger
          have sameId : (traced.app.db.createTrigger candidate trigger).1.id =
              (traced.app.db.createTrigger candidate
                { trigger with title := trigger.title ++ suffix }).1.id := by
            rw [id_createTrigger, id_createTrigger]
          simp only [Traced.next, remember, nextApp, stepApp, copyTrigger, sameId] at reached ⊢
          exact right_configure consistent right reached
            (listed_createTrigger consistent.positive candidate _) links
      | fire now code =>
          refine iff_of_true (reached.right_iff.mpr ⟨fun trigger member => ?_,
            fun work member => ?_⟩) trivial
          · simp only [Traced.next, nextApp, stepApp, db_onReceive] at member
            exact triggers trigger member
          · rcases List.mem_append.mp member with old | new
            · exact works work old
            · obtain ⟨id, started, rfl⟩ := List.mem_map.mp new
              obtain ⟨alarm, trigger, pending, stored, isId, rfl⟩ := of_mem_onReceive started
              have firing : traced.firing code = traced.configured trigger.id := by
                simp only [Traced.firing, pending, Option.bind_some, isId]
              rw [firing]
              exact triggers trigger stored

theorem startsConfigured (right : Right traced)
    (event : TracedEvent) : StartsConfigured zone traced event := by
  cases event with
  | doWork position =>
      intro id chosen found
      exact right.works (id, chosen) (List.mem_of_getElem? found)
  | app event =>
      cases event with
      | fire now code =>
          intro id started
          obtain ⟨alarm, trigger, pending, stored, isId, rfl⟩ := of_mem_onReceive started
          have firing : traced.firing code = traced.configured trigger.id := by
            simp only [Traced.firing, pending, Option.bind_some, isId]
          rw [firing]
          exact right.triggers trigger stored
      | _ => trivial

theorem consistent_fresh : Consistent fresh where
  stored _ := iff_of_false (fun absent => absent rfl) List.not_mem_nil
  distinct := nofun
  created := nofun
  configured := nofun
  works := nofun
  positive := nofun

end

end Traced

/-! ## Runs -/

open Traced

/-- In a run, every trigger and queued work finds the task that it was set to, and starts
no other, exactly when no task is created under a row id that a trigger or a queued work
keeps for a deleted one. -/
theorem triggers_start_configured (zone : Zone) (suffix : JavaString)
    (events : List TracedEvent) :
    (Always (Traced.next zone suffix) Right Traced.fresh events ∧
        Meets (Traced.next zone suffix) (StartsConfigured zone) Traced.fresh events) ↔
      Meets (Traced.next zone suffix) Traced.Guarded Traced.fresh events := by
  have right : Right Traced.fresh := ⟨nofun, nofun⟩
  have always : Always (Traced.next zone suffix) Right Traced.fresh events ↔
      Meets (Traced.next zone suffix) Traced.Guarded Traced.fresh events :=
    always_iff_meets (fun _ event consistent => Consistent.next consistent event)
      (fun _ event consistent right => right_next_iff consistent right event)
      consistent_fresh right
  constructor
  · exact fun holds => always.mp holds.1
  · intro guarded
    have holds := always.mpr guarded
    have consistent : Always (Traced.next zone suffix) Consistent Traced.fresh events :=
      Always.of_preserved (fun _ event consistent => consistent.next event) events consistent_fresh
    refine ⟨holds, (consistent.and holds).meets (fun traced event both _ _ => ?_) guarded⟩
    exact startsConfigured both.2 event

/-! ## A row id that is given out again -/

/-- The trigger of the run, every 15 minutes. -/
def photosTrigger : Trigger :=
  { id := TRIGGER_ID_DOESNTEXIST, title := "Photos".toList, time := 15, triggerTarget := 1,
    type := 1 }

/-- A task, a trigger for it, and another task in its place; then the alarm goes off. -/
def replacedTask : List TracedEvent :=
  [.app (.createTask 0 { id := 0, title := "Photos".toList }),
    .app (.saveTrigger 0 0 photosTrigger), .app (.deleteTask 1),
    .app (.createTask 0 { id := 0, title := "Music".toList }), .app (.fire 900000 1)]

/-- The trigger was set to the first task, and starts the second. -/
theorem replacedTask_starts_other :
    ¬(Always (Traced.next ⟨id, id⟩ " (copy)".toList) Right Traced.fresh replacedTask ∧
      Meets (Traced.next ⟨id, id⟩ " (copy)".toList) (StartsConfigured ⟨id, id⟩) Traced.fresh
        replacedTask) := by
  rintro ⟨_, _, _, _, _, starts, _⟩
  have found := starts 1 (by decide) 0 rfl
  change some 1 = some 0 at found
  cases found

end RoundSync.Services
