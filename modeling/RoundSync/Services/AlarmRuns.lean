import RoundSync.Services.TriggerService
import Mathlib.Algebra.Group.Nat.Defs
import Mathlib.Algebra.Group.Int.Defs

/-!
# Alarms along runs of the application

The alarms agree with the trigger table as long as each alarm is set at a minute that
its trigger means, a trigger is switched off in the list and not in the editor, and no
enabled trigger is copied.  A trigger that has been deleted leaves its alarm behind;
this shows only when its id is given out again.
-/

namespace RoundSync.Services

open RoundSync.Data
open RoundSync.Database
open RoundSync.Text
open RoundSync.Transition

/-! ## Agreement -/

/-- An alarm of the trigger's type for its time. -/
def Matches (zone : Zone) (trigger : Trigger) : Alarm → Prop
  | .exact triggerId time => triggerId = trigger.id ∧ trigger.type = TRIGGER_TYPE_SCHEDULE ∧
      Calendar.minuteOfDay (zone.toLocal time) = trigger.time.toInt % 1440
  | .inexactRepeating triggerId _ interval => triggerId = trigger.id ∧
      trigger.type ≠ TRIGGER_TYPE_SCHEDULE ∧ interval.toInt = trigger.time.toInt * 60 * 1000

/-- An alarm of this trigger is pending. -/
def HasAlarm (alarms : AlarmManager) (triggerId : Int64) : Prop :=
  (alarms (requestCode triggerId)).map Alarm.triggerId = some triggerId

instance (alarms : AlarmManager) (triggerId : Int64) : Decidable (HasAlarm alarms triggerId) :=
  inferInstanceAs (Decidable (_ = _))

structure Agrees (zone : Zone) (alarms : AlarmManager) (trigger : Trigger) : Prop where
  enabled : trigger.isEnabled = true →
    ∃ alarm, alarms (requestCode trigger.id) = some alarm ∧ Matches zone trigger alarm
  disabled : trigger.isEnabled = false → ¬HasAlarm alarms trigger.id

def AlarmsAgree (zone : Zone) (app : App) : Prop :=
  ∀ trigger ∈ app.db.allTrigger, Agrees zone app.alarms trigger

/-- A task is started by an alarm of an enabled trigger that has it as its target. -/
def StartsEnabled (zone : Zone) (app : App) : Event → Prop
  | .fire now code => ∀ task ∈ (onReceive zone now app code).1, ∃ trigger ∈ app.db.allTrigger,
      (app.alarms code).map Alarm.triggerId = some trigger.id ∧ trigger.isEnabled = true ∧
        trigger.triggerTarget = task
  | _ => True

/-! ## When the alarms keep agreeing -/

/-- The alarm comes at the time of day that is asked for: the zone keeps its offset until
then, and where the current minute of the hour is the one asked for, the current hour is
too. -/
structure OnTime (zone : Zone) (now : Int) (seconds : Int32) : Prop where
  instant : zone.toInstant
      (Calendar.setTime (zone.toLocal now) (seconds.toInt.tdiv 60) (seconds.toInt.tmod 60)) =
    Calendar.setTime (zone.toLocal now) (seconds.toInt.tdiv 60) (seconds.toInt.tmod 60) -
      (zone.toLocal now - now)
  offset : zone.toLocal (timeToTrigger zone now seconds) - timeToTrigger zone now seconds =
    zone.toLocal now - now
  minute : Calendar.minute (zone.toLocal now) = seconds.toInt.tmod 60 →
    Calendar.minuteOfDay (zone.toLocal now) = seconds.toInt % 1440

instance (zone : Zone) (now : Int) (seconds : Int32) : Decidable (OnTime zone now seconds) :=
  decidable_of_iff (_ ∧ _ ∧ (_ → _)) ⟨fun ⟨instant, offset, minute⟩ => ⟨instant, offset, minute⟩,
    fun ⟨instant, offset, minute⟩ => ⟨instant, offset, minute⟩⟩

/-- The milliseconds of an interval are an `int`. -/
def Fits (minutes : Int32) : Prop :=
  -2 ^ 31 ≤ minutes.toInt * 60 * 1000 ∧ minutes.toInt * 60 * 1000 < 2 ^ 31

instance (minutes : Int32) : Decidable (Fits minutes) :=
  inferInstanceAs (Decidable (_ ∧ _))

def Settable (zone : Zone) (now : Int) (trigger : Trigger) : Prop :=
  if trigger.type = TRIGGER_TYPE_SCHEDULE then OnTime zone now trigger.time else Fits trigger.time

instance (zone : Zone) (now : Int) (trigger : Trigger) : Decidable (Settable zone now trigger) :=
  inferInstanceAs (Decidable
    (if trigger.type = TRIGGER_TYPE_SCHEDULE then OnTime zone now trigger.time
      else Fits trigger.time))

/-- No other enabled trigger has its request code. -/
def Alone (db : Tables) (trigger : Trigger) : Prop :=
  ∀ other ∈ db.allTrigger, other.isEnabled = true →
    requestCode other.id = requestCode trigger.id → other.id = trigger.id

instance (db : Tables) (trigger : Trigger) : Decidable (Alone db trigger) :=
  inferInstanceAs (Decidable (∀ _ ∈ _, _))

/-- All triggers can be queued. -/
def Queueable (zone : Zone) (now : Int) (db : Tables) : Prop :=
  ∀ trigger ∈ db.allTrigger, trigger.isEnabled = true → Settable zone now trigger ∧ Alone db trigger

instance (zone : Zone) (now : Int) (db : Tables) : Decidable (Queueable zone now db) :=
  inferInstanceAs (Decidable (∀ _ ∈ _, _))

/-- The trigger that the editor has stored can be queued; one that it has stored as
disabled has no alarm. -/
structure Saveable (zone : Zone) (now : Int) (alarms : AlarmManager) (db : Tables)
    (trigger : Trigger) : Prop where
  settable : trigger.isEnabled = true → trigger ∈ db.allTrigger → Settable zone now trigger
  alone : trigger.isEnabled = true → Alone db trigger
  silent : trigger.isEnabled = false → trigger ∈ db.allTrigger → ¬HasAlarm alarms trigger.id

instance (zone : Zone) (now : Int) (alarms : AlarmManager) (db : Tables) (trigger : Trigger) :
    Decidable (Saveable zone now alarms db trigger) :=
  decidable_of_iff ((_ → _ → _) ∧ (_ → _) ∧ (_ → _ → _))
    ⟨fun ⟨settable, alone, silent⟩ => ⟨settable, alone, silent⟩,
      fun ⟨settable, alone, silent⟩ => ⟨settable, alone, silent⟩⟩

/-- What is asked of an event for the alarms to keep agreeing. -/
def Guarded (zone : Zone) (app : App) : Event → Prop
  | .createTask _ _ | .updateTask _ | .deleteTask _ | .deleteTrigger _ => True
  | .saveTrigger now candidate trigger =>
      Kotlin.isBlank trigger.title = false → app.db.allTasks.isEmpty = false →
        if trigger.id = TRIGGER_ID_DOESNTEXIST then
          Saveable zone now app.alarms (app.db.createTrigger candidate trigger).2
            (app.db.createTrigger candidate trigger).1
        else Saveable zone now app.alarms (app.db.updateTrigger trigger) trigger
  | .setIconListener now trigger =>
      if trigger.isEnabled then
        Alone (app.db.updateTrigger { trigger with isEnabled := false }) trigger
      else Queueable zone now (app.db.updateTrigger { trigger with isEnabled := true })
  | .copyTrigger candidate trigger =>
      Tables.newRowId app.db.triggers candidate ≠ none →
        trigger.isEnabled = false ∧
          ¬HasAlarm app.alarms (app.db.createTrigger candidate trigger).1.id
  | .showTriggers => app.db.allTasks.isEmpty = true →
      ∀ trigger ∈ app.db.allTrigger, trigger.isEnabled = false
  | .openMain now => Queueable zone now app.db
  | .boot now => Queueable zone now app.db
  | .fire now code => ∀ trigger ∈ app.db.allTrigger,
      (app.alarms code).map Alarm.triggerId = some trigger.id → Settable zone now trigger

instance (zone : Zone) (app : App) (event : Event) : Decidable (Guarded zone app event) := by
  cases event with
  | createTask _ _ => exact .isTrue trivial
  | updateTask _ => exact .isTrue trivial
  | deleteTask _ => exact .isTrue trivial
  | deleteTrigger _ => exact .isTrue trivial
  | saveTrigger _ _ _ =>
      dsimp only [Guarded]
      infer_instance
  | setIconListener _ _ =>
      dsimp only [Guarded]
      infer_instance
  | copyTrigger _ _ => exact inferInstanceAs (Decidable (_ → _))
  | showTriggers => exact inferInstanceAs (Decidable (_ → _))
  | openMain _ => exact inferInstanceAs (Decidable (Queueable _ _ _))
  | boot _ => exact inferInstanceAs (Decidable (Queueable _ _ _))
  | fire _ _ => exact inferInstanceAs (Decidable (∀ _ ∈ _, _))

/-! ## Times -/

theorem setTime_eq (wall seconds : Int) :
    Calendar.setTime wall (seconds.tdiv 60) (seconds.tmod 60) =
      wall - wall % 86400000 + seconds * 60000 + wall % 60000 := by
  have parts := Int.mul_tdiv_add_tmod seconds 60
  unfold Calendar.setTime dayMillis
  omega

theorem minuteOfDay_setTime (wall seconds : Int) :
    Calendar.minuteOfDay (Calendar.setTime wall (seconds.tdiv 60) (seconds.tmod 60)) =
      seconds % 1440 := by
  rw [setTime_eq]
  unfold Calendar.minuteOfDay
  omega

theorem minuteOfDay_add_day (wall : Int) :
    Calendar.minuteOfDay (wall + dayMillis) = Calendar.minuteOfDay wall := by
  unfold Calendar.minuteOfDay dayMillis
  omega

theorem timeToTrigger_sameMinute {zone : Zone} {now : Int} {seconds : Int32}
    (same : Calendar.minute (zone.toLocal now) = seconds.toInt.tmod 60) :
    timeToTrigger zone now seconds = now + dayMillis := by
  simp only [timeToTrigger, if_pos same]

/-- Another minute: the alarm comes at the set time of this day or of the next. -/
theorem timeToTrigger_otherMinute {zone : Zone} {now : Int} {seconds : Int32}
    (other : Calendar.minute (zone.toLocal now) ≠ seconds.toInt.tmod 60) (calendar : Int)
    (isCalendar : zone.toInstant (Calendar.setTime (zone.toLocal now) (seconds.toInt.tdiv 60)
      (seconds.toInt.tmod 60)) = calendar) :
    timeToTrigger zone now seconds = calendar ∨
      timeToTrigger zone now seconds = calendar + dayMillis := by
  simp only [timeToTrigger, if_neg other, isCalendar]
  split
  · right
    omega
  · left
    omega

theorem minuteOfDay_timeToTrigger {zone : Zone} {now : Int} {seconds : Int32}
    (onTime : OnTime zone now seconds) :
    Calendar.minuteOfDay (zone.toLocal (timeToTrigger zone now seconds)) =
      seconds.toInt % 1440 := by
  obtain ⟨instant, offset, minute⟩ := onTime
  by_cases same : Calendar.minute (zone.toLocal now) = seconds.toInt.tmod 60
  · have wall : zone.toLocal (timeToTrigger zone now seconds) = zone.toLocal now + dayMillis := by
      rw [timeToTrigger_sameMinute same] at offset ⊢
      omega
    rw [wall, minuteOfDay_add_day, minute same]
  · rcases timeToTrigger_otherMinute same _ instant with isSet | isSet
    · have wall : zone.toLocal (timeToTrigger zone now seconds) = Calendar.setTime
          (zone.toLocal now) (seconds.toInt.tdiv 60) (seconds.toInt.tmod 60) := by
        rw [isSet] at offset ⊢
        omega
      rw [wall, minuteOfDay_setTime]
    · have wall : zone.toLocal (timeToTrigger zone now seconds) = Calendar.setTime
          (zone.toLocal now) (seconds.toInt.tdiv 60) (seconds.toInt.tmod 60) + dayMillis := by
        rw [isSet] at offset ⊢
        omega
      rw [wall, minuteOfDay_add_day, minuteOfDay_setTime]

theorem toInt_intervalMillis {minutes : Int32} (fits : Fits minutes) :
    (minutes * 60 * 1000).toInt = minutes.toInt * 60 * 1000 := by
  obtain ⟨lower, upper⟩ := fits
  have sixty : (60 : Int32).toInt = 60 := rfl
  have thousand : (1000 : Int32).toInt = 1000 := rfl
  have inner : (minutes * 60).toInt = minutes.toInt * 60 := by
    rw [Int32.toInt_mul, sixty]
    exact Int.bmod_eq_of_le (by omega) (by omega)
  rw [Int32.toInt_mul, inner, thousand]
  exact Int.bmod_eq_of_le (by omega) (by omega)

/-! ## The alarm of a trigger -/

section

variable {zone : Zone} {now : Int} {alarms : AlarmManager} {trigger : Trigger}

/-- The alarm that is set for an enabled trigger. -/
def alarmFor (zone : Zone) (now : Int) (trigger : Trigger) : Alarm :=
  if trigger.type = TRIGGER_TYPE_SCHEDULE then
    .exact trigger.id (timeToTrigger zone now trigger.time)
  else
    .inexactRepeating trigger.id (now + (trigger.time * 60 * 1000).toInt) (trigger.time * 60 * 1000)

theorem queueSingleTrigger_enabled (enabled : trigger.isEnabled = true) :
    queueSingleTrigger zone now alarms trigger =
      Function.update alarms (requestCode trigger.id) (some (alarmFor zone now trigger)) := by
  unfold queueSingleTrigger queueSingleScheduleTrigger queueSingleIntervalTrigger alarmFor
  split_ifs
  · rfl
  · rfl

theorem queueSingleTrigger_disabled (disabled : trigger.isEnabled = false) :
    queueSingleTrigger zone now alarms trigger = alarms := by
  simp [queueSingleTrigger, queueSingleScheduleTrigger, queueSingleIntervalTrigger, disabled]

@[simp]
theorem triggerId_alarmFor : (alarmFor zone now trigger).triggerId = trigger.id := by
  unfold alarmFor
  split_ifs
  · rfl
  · rfl

theorem matches_alarmFor (settable : Settable zone now trigger) :
    Matches zone trigger (alarmFor zone now trigger) := by
  unfold Settable at settable
  unfold alarmFor
  split_ifs at settable ⊢ with schedule
  · exact ⟨rfl, schedule, minuteOfDay_timeToTrigger settable⟩
  · exact ⟨rfl, schedule, toInt_intervalMillis settable⟩

theorem Matches.triggerId {alarm : Alarm} (isMatch : Matches zone trigger alarm) :
    alarm.triggerId = trigger.id := by
  cases alarm with
  | exact _ _ => exact isMatch.1
  | inexactRepeating _ _ _ => exact isMatch.1

/-- What is pending under a code after a list of triggers has been queued. -/
theorem queued_at (zone : Zone) (now : Int) (triggers : List Trigger) (alarms : AlarmManager)
    (code : Int32) :
    (∃ trigger ∈ triggers, trigger.isEnabled = true ∧ requestCode trigger.id = code ∧
      triggers.foldl (queueSingleTrigger zone now) alarms code =
        some (alarmFor zone now trigger)) ∨
    (∀ trigger ∈ triggers, trigger.isEnabled = true → requestCode trigger.id ≠ code) ∧
      triggers.foldl (queueSingleTrigger zone now) alarms code = alarms code := by
  induction triggers generalizing alarms with
  | nil => exact Or.inr ⟨nofun, rfl⟩
  | cons first rest ih =>
      rw [List.foldl_cons]
      rcases ih (queueSingleTrigger zone now alarms first) with
        ⟨trigger, member, enabled, isCode, found⟩ | ⟨others, found⟩
      · exact Or.inl ⟨trigger, List.mem_cons_of_mem _ member, enabled, isCode, found⟩
      · rw [found]
        cases enabled : first.isEnabled with
        | false =>
            rw [queueSingleTrigger_disabled enabled]
            refine Or.inr ⟨fun trigger member isEnabled => ?_, rfl⟩
            rcases List.mem_cons.mp member with rfl | member
            · rw [enabled] at isEnabled
              cases isEnabled
            · exact others trigger member isEnabled
        | true =>
            rw [queueSingleTrigger_enabled enabled]
            by_cases isCode : requestCode first.id = code
            · refine Or.inl ⟨first, List.mem_cons_self, enabled, isCode, ?_⟩
              rw [← isCode, Function.update_self]
            · refine Or.inr ⟨fun trigger member isEnabled => ?_, ?_⟩
              · rcases List.mem_cons.mp member with rfl | member
                · exact isCode
                · exact others trigger member isEnabled
              · exact Function.update_of_ne (Ne.symm isCode) _ _

/-- Every alarm is pending under the code of its trigger. -/
def Filed (alarms : AlarmManager) : Prop :=
  ∀ code alarm, alarms code = some alarm → requestCode alarm.triggerId = code

/-- What holds in every run: ids are positive, and alarms are under their codes. -/
structure Orderly (app : App) : Prop where
  positive : ∀ id ∈ app.db.triggers.ids, 0 < id
  filed : Filed app.alarms

/-! ## Single steps -/

/-- Only what is pending under its own code matters to a trigger. -/
theorem Agrees.congr {others : AlarmManager} (agrees : Agrees zone alarms trigger)
    (same : others (requestCode trigger.id) = alarms (requestCode trigger.id)) :
    Agrees zone others trigger := by
  constructor
  · intro enabled
    rw [same]
    exact agrees.enabled enabled
  · intro disabled
    rw [HasAlarm, same]
    exact agrees.disabled disabled

/-- A trigger that is switched off agrees with no alarm. -/
theorem agrees_of_none (disabled : trigger.isEnabled = false)
    (isNone : alarms (requestCode trigger.id) = none) : Agrees zone alarms trigger := by
  constructor
  · intro enabled
    rw [disabled] at enabled
    cases enabled
  · intro _ hasAlarm
    rw [HasAlarm, isNone] at hasAlarm
    cases hasAlarm

/-- Queueing one trigger does not disturb another that has its alarm, or has none. -/
theorem Agrees.queueSingleTrigger {other : Trigger} (agrees : Agrees zone alarms other)
    (apart : other.id ≠ trigger.id)
    (alone : trigger.isEnabled = true → other.isEnabled = true →
      requestCode other.id = requestCode trigger.id → other.id = trigger.id) :
    Agrees zone (queueSingleTrigger zone now alarms trigger) other := by
  cases enabled : trigger.isEnabled with
  | false =>
      rw [queueSingleTrigger_disabled enabled]
      exact agrees
  | true =>
      rw [queueSingleTrigger_enabled enabled]
      by_cases sameCode : requestCode other.id = requestCode trigger.id
      · constructor
        · intro isEnabled
          exact absurd (alone enabled isEnabled sameCode) apart
        · intro _ found
          rw [HasAlarm, sameCode, Function.update_self] at found
          have same := Option.some.inj found
          rw [triggerId_alarmFor] at same
          exact apart same.symm
      · exact agrees.congr (Function.update_of_ne sameCode _ _)

theorem agrees_queued (settable : trigger.isEnabled = true → Settable zone now trigger)
    (silent : trigger.isEnabled = false → ¬HasAlarm alarms trigger.id) :
    Agrees zone (queueSingleTrigger zone now alarms trigger) trigger := by
  constructor
  · intro enabled
    rw [queueSingleTrigger_enabled enabled, Function.update_self]
    exact ⟨_, rfl, matches_alarmFor (settable enabled)⟩
  · intro disabled
    rw [queueSingleTrigger_disabled disabled]
    exact silent disabled

/-- The editor: the stored trigger is queued, the others are as before. -/
theorem agree_saved {app : App} {db : Tables} (agree : AlarmsAgree zone app)
    (listed : ∀ other ∈ db.allTrigger,
      other = trigger ∨ other ∈ app.db.allTrigger ∧ other.id ≠ trigger.id)
    (saveable : Saveable zone now app.alarms db trigger) :
    AlarmsAgree zone ⟨db, queueSingleTrigger zone now app.alarms trigger⟩ := by
  intro other member
  rcases listed other member with rfl | ⟨old, apart⟩
  · exact agrees_queued (fun enabled => saveable.settable enabled member)
      fun disabled => saveable.silent disabled member
  · exact (agree other old).queueSingleTrigger apart fun enabled =>
      saveable.alone enabled other member

theorem agree_saveTrigger {app : App} {candidate : Int64} (agree : AlarmsAgree zone app)
    (orderly : Orderly app) (guarded : Guarded zone app (.saveTrigger now candidate trigger)) :
    AlarmsAgree zone (saveTrigger zone now app candidate trigger) := by
  unfold saveTrigger
  cases isBlank : Kotlin.isBlank trigger.title with
  | true => exact agree
  | false =>
      cases noTasks : app.db.allTasks.isEmpty with
      | true => exact agree
      | false =>
          have saveable := guarded isBlank noTasks
          simp only [Bool.false_eq_true, if_false]
          by_cases isNew : trigger.id = TRIGGER_ID_DOESNTEXIST
          · rw [if_pos isNew] at saveable ⊢
            exact agree_saved agree
              (listed_createTrigger orderly.positive candidate trigger) saveable
          · rw [if_neg isNew] at saveable ⊢
            exact agree_saved agree (listed_updateTrigger app.db trigger) saveable

/-- All triggers are queued; those that are switched off had no alarm. -/
theorem agree_queueTrigger {db : Tables} (queueable : Queueable zone now db)
    (silent : ∀ trigger ∈ db.allTrigger, trigger.isEnabled = false → ¬HasAlarm alarms trigger.id) :
    AlarmsAgree zone ⟨db, queueTrigger zone now db alarms⟩ := by
  intro trigger member
  change Agrees zone (queueTrigger zone now db alarms) trigger
  rcases queued_at zone now db.allTrigger alarms (requestCode trigger.id) with
    ⟨other, otherMember, otherEnabled, sameCode, found⟩ | ⟨others, found⟩
  · constructor
    · intro enabled
      have same := (queueable trigger member enabled).2 other otherMember otherEnabled sameCode
      obtain rfl := eq_of_id_eq otherMember member same
      exact ⟨_, found, matches_alarmFor (queueable other otherMember otherEnabled).1⟩
    · intro disabled hasAlarm
      rw [HasAlarm, queueTrigger, found] at hasAlarm
      have same : other.id = trigger.id := by simpa using hasAlarm
      obtain rfl := eq_of_id_eq otherMember member same
      rw [otherEnabled] at disabled
      cases disabled
  · constructor
    · intro enabled
      exact absurd rfl (others trigger member enabled)
    · intro disabled
      rw [HasAlarm, queueTrigger, found]
      exact silent trigger member disabled

theorem agree_setIconListener {app : App} (agree : AlarmsAgree zone app)
    (guarded : Guarded zone app (.setIconListener now trigger)) :
    AlarmsAgree zone (setIconListener zone now app trigger) := by
  simp only [Guarded] at guarded
  unfold setIconListener
  cases enabled : trigger.isEnabled with
  | false =>
      rw [enabled] at guarded
      simp only [Bool.not_false, if_true, Bool.false_eq_true, if_false] at guarded ⊢
      apply agree_queueTrigger guarded
      intro other member disabled
      rcases mem_allTrigger_updateTrigger.mp member with ⟨old, _⟩ | ⟨rfl, _⟩
      · exact (agree other old).disabled disabled
      · cases disabled
  | true =>
      rw [enabled] at guarded
      simp only [Bool.not_true, Bool.false_eq_true, if_false, if_true] at guarded ⊢
      intro other member
      by_cases sameCode : requestCode other.id = requestCode trigger.id
      · have isNone : cancelTrigger app.alarms trigger.id (requestCode other.id) = none := by
          rw [sameCode]
          exact Function.update_self _ _ _
        cases isEnabled : other.isEnabled with
        | false => exact agrees_of_none isEnabled isNone
        | true =>
            have same := guarded other member isEnabled sameCode
            rcases mem_allTrigger_updateTrigger.mp member with ⟨_, apart⟩ | ⟨rfl, _⟩
            · exact absurd same apart
            · cases isEnabled
      · rcases mem_allTrigger_updateTrigger.mp member with ⟨old, _⟩ | ⟨rfl, _⟩
        · exact (agree other old).congr (Function.update_of_ne sameCode _ _)
        · exact absurd rfl sameCode

theorem agree_copyTrigger {suffix : JavaString} {app : App} {candidate : Int64}
    (agree : AlarmsAgree zone app) (guarded : Guarded zone app (.copyTrigger candidate trigger)) :
    AlarmsAgree zone (copyTrigger suffix app candidate trigger) := by
  unfold copyTrigger
  rcases createTrigger_cases app.db candidate { trigger with title := trigger.title ++ suffix } with
    ⟨_, same, _⟩ | ⟨id, drawn, _, _, listed⟩
  · rw [same]
    exact agree
  · have free : Tables.newRowId app.db.triggers candidate ≠ none := by
      rw [drawn]
      exact Option.some_ne_none id
    obtain ⟨disabled, silent⟩ := guarded free
    have newId : (app.db.createTrigger candidate trigger).1.id = id := by
      rw [id_createTrigger, drawn]
      rfl
    rw [newId] at silent
    intro other member
    rcases (listed other).mp member with rfl | old
    · refine ⟨fun enabled => ?_, fun _ => silent⟩
      rw [disabled] at enabled
      cases enabled
    · exact agree other old

theorem cancelled_at (triggers : List Trigger) (alarms : AlarmManager) (code : Int32) :
    triggers.foldl (fun alarms trigger => cancelTrigger alarms trigger.id) alarms code = none ∨
      triggers.foldl (fun alarms trigger => cancelTrigger alarms trigger.id) alarms code =
        alarms code := by
  induction triggers generalizing alarms with
  | nil => exact Or.inr rfl
  | cons first rest ih =>
      rw [List.foldl_cons]
      rcases ih (cancelTrigger alarms first.id) with isNone | same
      · exact Or.inl isNone
      · rw [same]
        by_cases isCode : code = requestCode first.id
        · rw [isCode]
          exact Or.inl (Function.update_self _ _ _)
        · exact Or.inr (Function.update_of_ne isCode _ _)

theorem agree_updateVisibilities {app : App} (agree : AlarmsAgree zone app)
    (guarded : Guarded zone app .showTriggers) : AlarmsAgree zone (updateVisibilities app) := by
  unfold updateVisibilities
  split_ifs with noTasks
  · intro trigger member
    rcases cancelled_at app.db.allTrigger app.alarms (requestCode trigger.id) with isNone | same
    · exact agrees_of_none (guarded noTasks trigger member) isNone
    · exact (agree trigger member).congr same
  · exact agree

/-- An alarm that goes off is missed only by the enabled trigger that it is for. -/
theorem Agrees.goOff {app : App} {code : Int32} {alarm : Alarm}
    (agrees : Agrees zone app.alarms trigger) (pending : app.alarms code = some alarm)
    (apart : trigger.isEnabled = true → trigger.id ≠ alarm.triggerId) :
    Agrees zone (goOff app code alarm).alarms trigger := by
  cases alarm with
  | inexactRepeating _ _ _ => exact agrees
  | exact triggerId time =>
      by_cases sameCode : requestCode trigger.id = code
      · cases enabled : trigger.isEnabled with
        | false =>
            apply agrees_of_none enabled
            rw [sameCode]
            exact Function.update_self _ _ _
        | true =>
            obtain ⟨alarm, found, isMatch⟩ := agrees.enabled enabled
            rw [sameCode, pending] at found
            obtain rfl := Option.some.inj found
            exact absurd isMatch.triggerId.symm (apart enabled)
      · exact agrees.congr (Function.update_of_ne sameCode _ _)

theorem Filed.update {code : Int32} {pending : Option Alarm} (filed : Filed alarms)
    (isCode : ∀ alarm, pending = some alarm → requestCode alarm.triggerId = code) :
    Filed (Function.update alarms code pending) := by
  intro other alarm found
  by_cases same : other = code
  · rw [same, Function.update_self] at found
    rw [same]
    exact isCode alarm found
  · rw [Function.update_of_ne same] at found
    exact filed other alarm found

theorem Filed.cancelTrigger {id : Int64} (filed : Filed alarms) :
    Filed (cancelTrigger alarms id) :=
  filed.update nofun

theorem Filed.queueSingleTrigger (filed : Filed alarms) :
    Filed (queueSingleTrigger zone now alarms trigger) := by
  cases enabled : trigger.isEnabled with
  | false =>
      rw [queueSingleTrigger_disabled enabled]
      exact filed
  | true =>
      rw [queueSingleTrigger_enabled enabled]
      apply filed.update
      rintro _ ⟨⟩
      rw [triggerId_alarmFor]

theorem Filed.foldl {change : AlarmManager → Trigger → AlarmManager}
    (keeps : ∀ alarms trigger, Filed alarms → Filed (change alarms trigger))
    (triggers : List Trigger) (filed : Filed alarms) : Filed (triggers.foldl change alarms) := by
  induction triggers generalizing alarms with
  | nil => exact filed
  | cons first rest ih => exact ih (keeps alarms first filed)

theorem Filed.goOff {app : App} {code : Int32} {alarm : Alarm} (filed : Filed app.alarms) :
    Filed (goOff app code alarm).alarms := by
  cases alarm with
  | exact _ _ => exact filed.update nofun
  | inexactRepeating _ _ _ => exact filed

theorem filed_onReceive {app : App} {code : Int32} (filed : Filed app.alarms) :
    Filed (onReceive zone now app code).2.alarms := by
  unfold onReceive
  cases app.alarms code with
  | none => exact filed
  | some alarm =>
      dsimp only
      split_ifs
      · exact filed.goOff
      · unfold onStartCommand
        split
        · exact filed.goOff
        · exact filed.goOff.queueSingleTrigger

theorem Orderly.next {suffix : JavaString} {app : App} (event : Event) (orderly : Orderly app) :
    Orderly (nextApp zone suffix app event) := by
  obtain ⟨positive, filed⟩ := orderly
  have updated : ∀ trigger : Trigger, ∀ id ∈ (app.db.updateTrigger trigger).triggers.ids, 0 < id := by
    intro trigger
    simpa [Tables.updateTrigger] using positive
  have queued : ∀ (now : Int) (db : Tables) (alarms : AlarmManager), Filed alarms →
      Filed (queueTrigger zone now db alarms) := fun now db alarms filed =>
    filed.foldl (fun _ _ filed => filed.queueSingleTrigger) _
  cases event with
  | createTask candidate task => exact ⟨positive, filed⟩
  | updateTask task => exact ⟨positive, filed⟩
  | deleteTask id => exact ⟨positive, filed⟩
  | saveTrigger now candidate trigger =>
      simp only [nextApp, stepApp, saveTrigger]
      split_ifs
      · exact ⟨positive, filed⟩
      · exact ⟨positive, filed⟩
      · exact ⟨Tables.insertRow_positive positive, filed.queueSingleTrigger⟩
      · exact ⟨updated trigger, filed.queueSingleTrigger⟩
  | setIconListener now trigger =>
      simp only [nextApp, stepApp, setIconListener]
      split_ifs
      · exact ⟨updated _, queued now _ _ filed⟩
      · exact ⟨updated _, filed.cancelTrigger⟩
  | copyTrigger candidate trigger => exact ⟨Tables.insertRow_positive positive, filed⟩
  | deleteTrigger trigger =>
      exact ⟨fun id member => positive id (RowTable.mem_ids_delete.mp member).1, filed⟩
  | showTriggers =>
      simp only [nextApp, stepApp, updateVisibilities]
      split_ifs
      · exact ⟨positive, filed.foldl (fun _ _ filed => filed.cancelTrigger) _⟩
      · exact ⟨positive, filed⟩
  | openMain now => exact ⟨positive, queued now _ _ filed⟩
  | fire now code =>
      refine ⟨?_, filed_onReceive filed⟩
      simp only [nextApp, stepApp, db_onReceive]
      exact positive
  | boot now =>
      refine ⟨positive, queued now _ _ ?_⟩
      intro code alarm pending
      cases pending

/-- The trigger of a pending alarm is enabled, if it is stored. -/
theorem enabled_of_pending {app : App} {code : Int32} {alarm : Alarm}
    (agree : AlarmsAgree zone app) (filed : Filed app.alarms)
    (pending : app.alarms code = some alarm) (member : trigger ∈ app.db.allTrigger)
    (isId : trigger.id = alarm.triggerId) : trigger.isEnabled = true := by
  by_contra notEnabled
  have disabled : trigger.isEnabled = false := Bool.eq_false_iff.mpr notEnabled
  apply (agree trigger member).disabled disabled
  rw [HasAlarm, isId, filed code alarm pending, pending]
  rfl

/-- An alarm goes off, and its trigger, if it is stored, is queued again. -/
theorem agree_onReceive {app : App} {code : Int32} (agree : AlarmsAgree zone app)
    (orderly : Orderly app) (guarded : Guarded zone app (.fire now code)) :
    AlarmsAgree zone (onReceive zone now app code).2 := by
  unfold onReceive
  cases pending : app.alarms code with
  | none => exact agree
  | some alarm =>
      have db := db_goOff app code alarm
      dsimp only
      split_ifs with noId
      · intro trigger member
        rw [db] at member
        refine (agree trigger member).goOff pending fun _ isId => ?_
        have above := orderly.positive trigger.id (id_mem_of_mem member)
        rw [isId, noId] at above
        exact absurd above (by decide)
      · unfold onStartCommand
        cases stored : getTrigger (goOff app code alarm).db alarm.triggerId with
        | none =>
            intro trigger member
            rw [db] at member stored
            refine (agree trigger member).goOff pending fun _ isId => ?_
            have found := getTrigger_eq_some_iff.mpr ⟨member, isId⟩
            rw [stored] at found
            cases found
        | some trigger =>
            rw [db] at stored
            obtain ⟨member, isId⟩ := getTrigger_eq_some_iff.mp stored
            have enabled := enabled_of_pending agree orderly.filed pending member isId
            intro other otherMember
            change other ∈ (goOff app code alarm).db.allTrigger at otherMember
            rw [db] at otherMember
            by_cases same : other.id = trigger.id
            · obtain rfl := eq_of_id_eq otherMember member same
              refine agrees_queued (fun _ => guarded other member ?_) fun disabled => ?_
              · rw [pending, isId]
                rfl
              · rw [enabled] at disabled
                cases disabled
            · refine ((agree other otherMember).goOff pending fun _ otherId => ?_).queueSingleTrigger
                same fun _ otherEnabled sameCode => ?_
              · exact same (otherId.trans isId.symm)
              · obtain ⟨found, isFound, isMatch⟩ := (agree other otherMember).enabled otherEnabled
                rw [sameCode, isId, orderly.filed code alarm pending, pending] at isFound
                obtain rfl := Option.some.inj isFound
                exact isMatch.triggerId.symm.trans isId.symm

theorem startsEnabled_onReceive {app : App} {code : Int32} (agree : AlarmsAgree zone app)
    (orderly : Orderly app) : StartsEnabled zone app (.fire now code) := by
  intro task started
  obtain ⟨alarm, trigger, pending, member, isId, isTarget⟩ := of_mem_onReceive started
  refine ⟨trigger, member, ?_, enabled_of_pending agree orderly.filed pending member isId, isTarget⟩
  rw [pending, isId]
  rfl

/-! ## Runs -/

theorem agree_next {suffix : JavaString} {app : App} {event : Event} (agree : AlarmsAgree zone app)
    (orderly : Orderly app) (guarded : Guarded zone app event) :
    AlarmsAgree zone (nextApp zone suffix app event) := by
  cases event with
  | createTask candidate task => exact agree
  | updateTask task => exact agree
  | deleteTask id => exact agree
  | saveTrigger now candidate trigger => exact agree_saveTrigger agree orderly guarded
  | setIconListener now trigger => exact agree_setIconListener agree guarded
  | copyTrigger candidate trigger => exact agree_copyTrigger agree guarded
  | deleteTrigger trigger =>
      exact fun other member => agree other (mem_allTrigger_deleteTrigger.mp member).1
  | showTriggers => exact agree_updateVisibilities agree guarded
  | openMain now =>
      exact agree_queueTrigger guarded fun trigger member => (agree trigger member).disabled
  | fire now code => exact agree_onReceive agree orderly guarded
  | boot now => exact agree_queueTrigger guarded nofun

theorem startsEnabled {app : App} (event : Event) (agree : AlarmsAgree zone app)
    (orderly : Orderly app) : StartsEnabled zone app event := by
  cases event with
  | fire now code => exact startsEnabled_onReceive agree orderly
  | _ => trivial

end

/-- In every run whose events are guarded, the alarms agree with the triggers after each
event, and an alarm starts the task of an enabled trigger only. -/
theorem alarms_agree (zone : Zone) (suffix : JavaString) (events : List Event)
    (guarded : Meets (nextApp zone suffix) (Guarded zone) freshApp events) :
    Always (nextApp zone suffix) (AlarmsAgree zone) freshApp events ∧
      Meets (nextApp zone suffix) (StartsEnabled zone) freshApp events := by
  have initial : AlarmsAgree zone freshApp ∧ Orderly freshApp := ⟨nofun, nofun, nofun⟩
  have preserved : ∀ app event, AlarmsAgree zone app ∧ Orderly app → Guarded zone app event →
      AlarmsAgree zone (nextApp zone suffix app event) ∧ Orderly (nextApp zone suffix app event) :=
    fun app event ⟨agree, orderly⟩ isGuarded =>
      ⟨agree_next agree orderly isGuarded, orderly.next event⟩
  have always := Always.of_meets preserved initial guarded
  constructor
  · exact always.mono fun _ holds => holds.1
  · exact always.meets (fun app event holds _ _ => startsEnabled event holds.1 holds.2) guarded

/-! ## A trigger of a quarter of an hour -/

def utc : Zone :=
  ⟨id, id⟩

def photosTask : Task :=
  { id := 0, title := "Photos".toList, remoteId := "drive".toList }

/-- An interval of 15 minutes, as the editor makes it. -/
def quarterTrigger : Trigger :=
  { id := TRIGGER_ID_DOESNTEXIST, title := "Quarter".toList, time := 15, triggerTarget := 1,
    type := 1 }

/-- The trigger is created, fires, is switched off in the list and survives a boot. -/
theorem alarms_agree_quarter :
    Always (nextApp utc " (copy)".toList) (AlarmsAgree utc) freshApp
        [.createTask 0 photosTask, .saveTrigger 0 0 quarterTrigger, .fire 900000 1,
          .setIconListener 900001 { quarterTrigger with id := 1 }, .boot 1000000] ∧
      Meets (nextApp utc " (copy)".toList) (StartsEnabled utc) freshApp
        [.createTask 0 photosTask, .saveTrigger 0 0 quarterTrigger, .fire 900000 1,
          .setIconListener 900001 { quarterTrigger with id := 1 }, .boot 1000000] :=
  alarms_agree utc _ _ (by decide)

/-- Switched off in the editor, the trigger keeps its alarm, which starts its task. -/
theorem disabledInEditor_fires :
    ¬(Always (nextApp utc " (copy)".toList) (AlarmsAgree utc) freshApp
        [.createTask 0 photosTask, .saveTrigger 0 0 quarterTrigger,
          .saveTrigger 1 0 { quarterTrigger with id := 1, isEnabled := false }, .fire 900000 1] ∧
      Meets (nextApp utc " (copy)".toList) (StartsEnabled utc) freshApp
        [.createTask 0 photosTask, .saveTrigger 0 0 quarterTrigger,
          .saveTrigger 1 0 { quarterTrigger with id := 1, isEnabled := false }, .fire 900000 1]) := by
  rintro ⟨_, _, _, _, starts, _⟩
  have started : (1 : Int64) ∈ (onReceive utc 900000 (run (nextApp utc " (copy)".toList) freshApp
      [.createTask 0 photosTask, .saveTrigger 0 0 quarterTrigger,
        .saveTrigger 1 0 { quarterTrigger with id := 1, isEnabled := false }]) 1).1 := by
    decide
  have disabled : ∀ trigger ∈ (run (nextApp utc " (copy)".toList) freshApp
      [.createTask 0 photosTask, .saveTrigger 0 0 quarterTrigger, .saveTrigger 1 0
        { quarterTrigger with id := 1, isEnabled := false }]).db.allTrigger,
      trigger.isEnabled = false := by
    decide
  obtain ⟨trigger, member, _, enabled, _⟩ := starts 1 started
  exact Bool.false_ne_true ((disabled trigger member).symm.trans enabled)

end RoundSync.Services
