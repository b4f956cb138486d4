import RoundSync.Services.AlarmRuns

/-!
# Scheduled triggers along the days

An alarm for a time of day is to go off in the first minute from now on that has
this time.  `queueSingleScheduleTrigger` sets it there unless the current minute of
the hour is the one that is asked for, in another hour, or the clocks were changed
since the time of today that has passed.  Alarms that go off in their minute are
then set again in a minute of the right hour, so that a run stays on time once it
has begun so.
-/

namespace RoundSync.Services

open RoundSync.Database
open RoundSync.Text
open RoundSync.Transition

/-- The number of a minute of the wall clock. -/
def minuteIndex (zone : Zone) (time : Int) : Int :=
  zone.toLocal time / 60000

/-- A time of day, in minutes. -/
def IsTimeOfDay (seconds : Int32) : Prop :=
  0 ≤ seconds.toInt ∧ seconds.toInt < 1440

instance (seconds : Int32) : Decidable (IsTimeOfDay seconds) :=
  inferInstanceAs (Decidable (_ ∧ _))

/-- The offset is not changed for a day, and the calendar knows the wall times of this day. -/
structure Steady (zone : Zone) (now : Int) : Prop where
  offset : ∀ time, now ≤ time → time ≤ now + dayMillis →
    zone.toLocal time = time + (zone.toLocal now - now)
  calendar : ∀ time, now ≤ time → time ≤ now + dayMillis →
    zone.toInstant (zone.toLocal time) = time

/-- In the first minute after the current one that has the given time of day. -/
structure NextOccurrence (zone : Zone) (now time timeOfDay : Int) : Prop where
  ahead : now < time
  withinDay : time ≤ now + dayMillis
  later : minuteIndex zone now < minuteIndex zone time
  isTime : minuteIndex zone time % 1440 = timeOfDay
  first : ∀ other, now ≤ other → other < time → minuteIndex zone now < minuteIndex zone other →
    minuteIndex zone other % 1440 = timeOfDay → minuteIndex zone other = minuteIndex zone time

/-- The time asked for, on the day of the current wall time. -/
def today (zone : Zone) (now : Int) (seconds : Int32) : Int :=
  Calendar.setTime (zone.toLocal now) (seconds.toInt.tdiv 60) (seconds.toInt.tmod 60)

/-- The instant that the calendar gives to the time of today, at the current offset. -/
def todayNow (zone : Zone) (now : Int) (seconds : Int32) : Int :=
  zone.toInstant (today zone now seconds) + (zone.toLocal now - now)

/-- Where the minute of the hour is the one asked for, the hour is too; and a time of
today that has passed is still read in its minute, or a day later. -/
structure Schedulable (zone : Zone) (now : Int) (seconds : Int32) : Prop where
  hour : Calendar.minute (zone.toLocal now) = seconds.toInt.tmod 60 →
    Calendar.minuteOfDay (zone.toLocal now) = seconds.toInt
  passed : seconds.toInt < Calendar.minuteOfDay (zone.toLocal now) →
    Calendar.minute (zone.toLocal now) ≠ seconds.toInt.tmod 60 →
      todayNow zone now seconds / 60000 = today zone now seconds / 60000 ∨
        todayNow zone now seconds / 60000 = today zone now seconds / 60000 + 1440

/-! ## One alarm -/

section

variable {zone : Zone} {now : Int} {seconds : Int32}

theorem today_eq : today zone now seconds =
    zone.toLocal now - zone.toLocal now % 86400000 + seconds.toInt * 60000 +
      zone.toLocal now % 60000 :=
  setTime_eq (zone.toLocal now) seconds.toInt

/-- A minute within the next day that has the time of day is the first one. -/
theorem NextOccurrence.of_minute (steady : Steady zone now) {time timeOfDay : Int}
    (ahead : now < time) (withinDay : time ≤ now + dayMillis)
    (later : minuteIndex zone now < minuteIndex zone time)
    (isTime : minuteIndex zone time % 1440 = timeOfDay) :
    NextOccurrence zone now time timeOfDay where
  ahead := ahead
  withinDay := withinDay
  later := later
  isTime := isTime
  first other notBefore before otherLater otherIsTime := by
    unfold minuteIndex at *
    rw [steady.offset time ahead.le withinDay] at *
    rw [steady.offset other notBefore (by omega)] at *
    unfold dayMillis at withinDay
    omega

theorem nextOccurrence_sameMinute_iff (steady : Steady zone now) (isTime : IsTimeOfDay seconds)
    (same : Calendar.minute (zone.toLocal now) = seconds.toInt.tmod 60) :
    NextOccurrence zone now (timeToTrigger zone now seconds) seconds.toInt ↔
      Schedulable zone now seconds := by
  obtain ⟨lower, upper⟩ := isTime
  rw [timeToTrigger_sameMinute same]
  have wall := steady.offset (now + dayMillis) (by unfold dayMillis; omega) (by omega)
  have nextDay : zone.toLocal (now + dayMillis) = zone.toLocal now + dayMillis := by
    omega
  constructor
  · intro next
    have atTime := next.isTime
    unfold minuteIndex at atTime
    rw [nextDay] at atTime
    constructor
    · intro _
      unfold Calendar.minuteOfDay
      unfold dayMillis at atTime
      omega
    · intro _ other
      exact absurd same other
  · intro schedulable
    have hour := schedulable.hour same
    unfold Calendar.minuteOfDay at hour
    apply NextOccurrence.of_minute steady
    · unfold dayMillis
      omega
    · omega
    · unfold minuteIndex
      rw [nextDay]
      unfold dayMillis
      omega
    · unfold minuteIndex
      rw [nextDay]
      unfold dayMillis
      omega

/-- A time that is still to come today is always met. -/
theorem nextOccurrence_later (steady : Steady zone now) (isTime : IsTimeOfDay seconds)
    (later : Calendar.minuteOfDay (zone.toLocal now) < seconds.toInt)
    (other : Calendar.minute (zone.toLocal now) ≠ seconds.toInt.tmod 60) :
    NextOccurrence zone now (timeToTrigger zone now seconds) seconds.toInt := by
  obtain ⟨lower, upper⟩ := isTime
  have todayIs := @today_eq zone now seconds
  unfold Calendar.minuteOfDay at later
  have notBefore : now ≤ today zone now seconds - (zone.toLocal now - now) := by
    omega
  have withinDay : today zone now seconds - (zone.toLocal now - now) ≤ now + dayMillis := by
    unfold dayMillis
    omega
  have wall := steady.offset _ notBefore withinDay
  have instant := steady.calendar _ notBefore withinDay
  rw [wall, Int.sub_add_cancel] at instant
  have isSet : timeToTrigger zone now seconds = today zone now seconds - (zone.toLocal now - now) := by
    unfold today at instant
    simp only [timeToTrigger, if_neg other, instant]
    unfold today at notBefore
    split
    · omega
    · unfold today
      omega
  rw [isSet]
  apply NextOccurrence.of_minute steady
  · omega
  · exact withinDay
  · unfold minuteIndex
    omega
  · unfold minuteIndex
    omega

theorem nextOccurrence_passed_iff (steady : Steady zone now) (isTime : IsTimeOfDay seconds)
    (passed : seconds.toInt < Calendar.minuteOfDay (zone.toLocal now))
    (other : Calendar.minute (zone.toLocal now) ≠ seconds.toInt.tmod 60) :
    NextOccurrence zone now (timeToTrigger zone now seconds) seconds.toInt ↔
      todayNow zone now seconds / 60000 = today zone now seconds / 60000 ∨
        todayNow zone now seconds / 60000 = today zone now seconds / 60000 + 1440 := by
  obtain ⟨lower, upper⟩ := isTime
  have todayIs := @today_eq zone now seconds
  unfold Calendar.minuteOfDay at passed
  have isRead : todayNow zone now seconds =
    zone.toInstant (today zone now seconds) + (zone.toLocal now - now) := rfl
  have isSet : timeToTrigger zone now seconds =
      if zone.toInstant (today zone now seconds) < now then
        zone.toInstant (today zone now seconds) + dayMillis
      else zone.toInstant (today zone now seconds) := by
    simp only [timeToTrigger, if_neg other]
    unfold today
    split_ifs
    · omega
    · omega
    · omega
    · omega
  generalize zone.toInstant (today zone now seconds) = instant at isRead isSet
  constructor
  · intro next
    have wall := steady.offset _ next.ahead.le next.withinDay
    have later := next.later
    have withinDay := next.withinDay
    have atTime := next.isTime
    unfold minuteIndex at later atTime
    rw [wall] at later atTime
    rw [isSet] at later atTime withinDay
    unfold dayMillis at later atTime withinDay
    split at atTime
    · left
      omega
    · right
      omega
  · intro isKept
    have ahead : now < timeToTrigger zone now seconds := by
      rw [isSet]
      unfold dayMillis
      split
      · omega
      · omega
    have withinDay : timeToTrigger zone now seconds ≤ now + dayMillis := by
      rw [isSet]
      unfold dayMillis
      split
      · omega
      · omega
    have wall := steady.offset _ ahead.le withinDay
    apply NextOccurrence.of_minute steady ahead withinDay
    · unfold minuteIndex
      rw [wall, isSet]
      unfold dayMillis
      split
      · omega
      · omega
    · unfold minuteIndex
      rw [wall, isSet]
      unfold dayMillis
      split
      · omega
      · omega

theorem nextOccurrence_iff (steady : Steady zone now) (isTime : IsTimeOfDay seconds) :
    NextOccurrence zone now (timeToTrigger zone now seconds) seconds.toInt ↔
      Schedulable zone now seconds := by
  by_cases same : Calendar.minute (zone.toLocal now) = seconds.toInt.tmod 60
  · exact nextOccurrence_sameMinute_iff steady isTime same
  · rcases lt_or_ge seconds.toInt (Calendar.minuteOfDay (zone.toLocal now)) with passed | notPassed
    · rw [nextOccurrence_passed_iff steady isTime passed same]
      constructor
      · intro kept
        exact ⟨fun isSame => absurd isSame same, fun _ _ => kept⟩
      · intro schedulable
        exact schedulable.passed passed same
    · have apart : Calendar.minuteOfDay (zone.toLocal now) ≠ seconds.toInt := by
        intro equal
        apply same
        rw [Int.tmod_eq_emod_of_nonneg isTime.1, ← equal]
        unfold Calendar.minute Calendar.minuteOfDay
        omega
      constructor
      · intro _
        exact ⟨fun isSame => absurd isSame same, fun passed => absurd passed (by omega)⟩
      · intro _
        exact nextOccurrence_later steady isTime (by omega) same

end

/-! ## Runs -/

/-- An enabled trigger for a time of day. -/
structure Scheduled (trigger : Trigger) : Prop where
  enabled : trigger.isEnabled = true
  schedule : trigger.type = TRIGGER_TYPE_SCHEDULE
  isTime : IsTimeOfDay trigger.time

/-- The trigger is stored, and its alarm was set at `now`. -/
structure Queued (zone : Zone) (now : Int) (app : App) (trigger : Trigger) : Prop where
  stored : trigger ∈ app.db.allTrigger
  pending : app.alarms (requestCode trigger.id) =
    some (.exact trigger.id (timeToTrigger zone now trigger.time))

/-- When the alarm of the trigger goes off, if the event is this. -/
def alarmOf (trigger : Trigger) : Event → Option Int
  | .fire now code => if code = requestCode trigger.id then some now else none
  | _ => none

/-- The alarm of the trigger goes off in its minute; other events leave the trigger
and its alarm alone. -/
def Attends (zone : Zone) (suffix : JavaString) (trigger : Trigger) (app : App) (event : Event) :
    Prop :=
  match alarmOf trigger event with
  | some now => Steady zone now ∧ ∃ time,
      app.alarms (requestCode trigger.id) = some (.exact trigger.id time) ∧
        minuteIndex zone now = minuteIndex zone time
  | none => trigger ∈ (nextApp zone suffix app event).db.allTrigger ∧
      (nextApp zone suffix app event).alarms (requestCode trigger.id) =
        app.alarms (requestCode trigger.id)

/-- The instants at which the alarm of the trigger goes off. -/
def firings (trigger : Trigger) (events : List Event) : List Int :=
  events.filterMap (alarmOf trigger)

/-- From a minute on, every minute of the time of day is met once, and no other. -/
structure Punctual (zone : Zone) (timeOfDay start : Int) (firings : List Int) : Prop where
  isTime : ∀ now ∈ firings, minuteIndex zone now % 1440 = timeOfDay
  later : (start :: firings).Pairwise fun now next => minuteIndex zone now < minuteIndex zone next
  noneSkipped : ∀ last ∈ firings, ∀ minute, minuteIndex zone start < minute →
    minute ≤ minuteIndex zone last → minute % 1440 = timeOfDay →
      ∃ now ∈ firings, minuteIndex zone now = minute

theorem Punctual.none {zone : Zone} {timeOfDay start : Int} : Punctual zone timeOfDay start [] where
  isTime := nofun
  later := List.pairwise_singleton _ _
  noneSkipped := nofun

/-- A firing in the next minute of the time of day, before punctual ones. -/
theorem Punctual.cons {zone : Zone} {timeOfDay start now : Int} {later : List Int}
    (punctual : Punctual zone timeOfDay now later)
    (behind : minuteIndex zone start < minuteIndex zone now)
    (isTime : minuteIndex zone now % 1440 = timeOfDay)
    (withinDay : minuteIndex zone now ≤ minuteIndex zone start + 1440) :
    Punctual zone timeOfDay start (now :: later) := by
  have increasing := punctual.later
  rw [List.pairwise_cons] at increasing
  constructor
  · intro other member
    rcases List.mem_cons.mp member with rfl | isLater
    · exact isTime
    · exact punctual.isTime other isLater
  · rw [List.pairwise_cons]
    refine ⟨?_, punctual.later⟩
    intro other member
    rcases List.mem_cons.mp member with rfl | isLater
    · exact behind
    · exact behind.trans (increasing.1 other isLater)
  · intro last member minute afterStart notAfterLast minuteIsTime
    rcases lt_or_ge (minuteIndex zone now) minute with afterNow | notAfterNow
    · rcases List.mem_cons.mp member with rfl | isLater
      · omega
      · obtain ⟨other, otherIn, isMinute⟩ :=
          punctual.noneSkipped last isLater minute afterNow notAfterLast minuteIsTime
        exact ⟨other, List.mem_cons_of_mem now otherIn, isMinute⟩
    · exact ⟨now, List.mem_cons_self, by omega⟩

section

variable {zone : Zone} {suffix : JavaString} {trigger : Trigger}

theorem alarmFor_scheduled (scheduled : Scheduled trigger) (now : Int) :
    alarmFor zone now trigger = .exact trigger.id (timeToTrigger zone now trigger.time) :=
  if_pos scheduled.schedule

/-- In a minute of its time of day a trigger can be set again. -/
theorem schedulable_of_due {now : Int} {seconds : Int32}
    (due : minuteIndex zone now % 1440 = seconds.toInt) : Schedulable zone now seconds where
  hour _ := due
  passed before := by
    unfold minuteIndex at due
    unfold Calendar.minuteOfDay at before
    omega

/-- The alarm of a stored trigger sets the next one. -/
theorem queued_onReceive {app : App} {now time : Int} (scheduled : Scheduled trigger)
    (positive : 0 < trigger.id) (stored : trigger ∈ app.db.allTrigger)
    (pending : app.alarms (requestCode trigger.id) = some (.exact trigger.id time)) :
    Queued zone now (onReceive zone now app (requestCode trigger.id)).2 trigger := by
  have real : trigger.id ≠ -1 := by
    intro isNone
    rw [isNone] at positive
    exact absurd positive (by decide)
  have found : getTrigger app.db trigger.id = some trigger :=
    getTrigger_eq_some_iff.mpr ⟨stored, rfl⟩
  constructor
  · rw [db_onReceive]
    exact stored
  · simp only [onReceive, pending, Alarm.triggerId, if_neg real, onStartCommand, db_goOff, found,
      queueSingleTrigger_enabled scheduled.enabled, Function.update_self,
      alarmFor_scheduled scheduled]

theorem eq_of_alarmOf {event : Event} {now : Int} (isAlarm : alarmOf trigger event = some now) :
    event = .fire now (requestCode trigger.id) := by
  cases event with
  | fire instant code =>
      rw [alarmOf] at isAlarm
      split_ifs at isAlarm with isCode
      cases isAlarm
      rw [isCode]
  | _ => cases isAlarm

theorem punctual_of_attends {app : App} {start : Int} {events : List Event}
    (scheduled : Scheduled trigger) (orderly : Orderly app) (queued : Queued zone start app trigger)
    (steady : Steady zone start) (schedulable : Schedulable zone start trigger.time)
    (attends : Meets (nextApp zone suffix) (Attends zone suffix trigger) app events) :
    Punctual zone trigger.time.toInt start (firings trigger events) := by
  induction events generalizing app start with
  | nil => exact Punctual.none
  | cons event events ih =>
      obtain ⟨attended, attends⟩ := attends
      have nextOrderly := @Orderly.next zone suffix app event orderly
      unfold Attends at attended
      unfold firings at ih ⊢
      cases isAlarm : alarmOf trigger event with
      | none =>
          rw [isAlarm] at attended
          rw [List.filterMap_cons_none isAlarm]
          exact ih nextOrderly ⟨attended.1, attended.2.trans queued.pending⟩ steady schedulable attends
      | some now =>
          rw [isAlarm] at attended
          obtain ⟨steadyNow, time, pending, inMinute⟩ := attended
          rw [List.filterMap_cons_some isAlarm]
          have next := (nextOccurrence_iff steady scheduled.isTime).mpr schedulable
          rw [queued.pending] at pending
          cases pending
          have wall := steady.offset _ next.ahead.le next.withinDay
          have due : minuteIndex zone now % 1440 = trigger.time.toInt := by
            rw [inMinute]
            exact next.isTime
          obtain rfl := eq_of_alarmOf isAlarm
          have positive := orderly.positive _ (id_mem_of_mem queued.stored)
          have requeued := @queued_onReceive zone trigger app now _ scheduled positive
            queued.stored queued.pending
          apply (ih nextOrderly requeued steadyNow (schedulable_of_due due) attends).cons
          · rw [inMinute]
            exact next.later
          · exact due
          · have withinDay := next.withinDay
            rw [inMinute]
            unfold minuteIndex
            rw [wall]
            unfold dayMillis at withinDay
            omega

end

/-- A scheduled trigger is set to its next occurrence exactly if it can be scheduled;
and once it is so, alarms that come in their minute meet its time of every day. -/
theorem schedule_occurs_iff (zone : Zone) (suffix : JavaString) :
    (∀ now alarms trigger, Scheduled trigger → Steady zone now →
      ((∃ time, queueSingleTrigger zone now alarms trigger (requestCode trigger.id) =
          some (.exact trigger.id time) ∧ NextOccurrence zone now time trigger.time.toInt) ↔
        Schedulable zone now trigger.time)) ∧
    ∀ earlier start trigger events, Scheduled trigger → Steady zone start →
      Queued zone start (run (nextApp zone suffix) freshApp earlier) trigger →
      Meets (nextApp zone suffix) (Attends zone suffix trigger)
        (run (nextApp zone suffix) freshApp earlier) events →
      Schedulable zone start trigger.time →
      Punctual zone trigger.time.toInt start (firings trigger events) := by
  constructor
  · intro now alarms trigger scheduled steady
    rw [queueSingleTrigger_enabled scheduled.enabled, Function.update_self,
      alarmFor_scheduled scheduled, ← nextOccurrence_iff steady scheduled.isTime]
    constructor
    · rintro ⟨time, isSet, next⟩
      cases isSet
      exact next
    · intro next
      exact ⟨_, rfl, next⟩
  · intro earlier start trigger events scheduled steady queued attends schedulable
    have initial : Orderly freshApp := ⟨nofun, nofun⟩
    have orderly := (Always.of_preserved (fun _ event orderly =>
      @Orderly.next zone suffix _ event orderly) earlier initial).last
    exact punctual_of_attends scheduled orderly queued steady schedulable attends

/-! ## Half past eight -/

/-- A trigger for 08:30, as the editor makes it. -/
def morningTrigger : Trigger :=
  { id := 1, title := "Morning".toList, time := 510, triggerTarget := 1 }

theorem steady_utc (now : Int) : Steady utc now where
  offset _ _ _ := by
    unfold utc
    simp
  calendar _ _ _ := rfl

theorem scheduled_morning : Scheduled morningTrigger where
  enabled := rfl
  schedule := rfl
  isTime := by decide

/-- Set at midnight, it goes off at 08:30, and on the day after. -/
theorem schedule_occurs_morning :
    (∃ time, queueSingleTrigger utc 0 (fun _ => none) morningTrigger 1 = some (.exact 1 time) ∧
      NextOccurrence utc 0 time 510) ∧
    Punctual utc 510 0 (firings morningTrigger [.fire 30600000 1, .fire 117000005 1]) := by
  have schedulable : Schedulable utc 0 morningTrigger.time :=
    ⟨by decide, fun passed => absurd passed (by decide)⟩
  constructor
  · exact ((schedule_occurs_iff utc []).1 0 (fun _ => none) morningTrigger scheduled_morning
      (steady_utc 0)).mpr schedulable
  · apply (schedule_occurs_iff utc []).2
      [.createTask 0 photosTask, .saveTrigger 0 0 { morningTrigger with id := -1 }] 0 morningTrigger
      _ scheduled_morning (steady_utc 0) _ _ schedulable
    · constructor
      · decide
      · decide
    · refine ⟨⟨steady_utc _, 30600000, ?_, ?_⟩, ⟨steady_utc _, 117000000, ?_, ?_⟩, trivial⟩
      · decide
      · decide
      · decide
      · decide

/-- Set at 15:30, the trigger for 08:30 goes off at 15:30 on the next day. -/
theorem morning_set_to_afternoon :
    ¬∀ now alarms trigger, Scheduled trigger → Steady utc now →
      ∃ time, queueSingleTrigger utc now alarms trigger (requestCode trigger.id) =
        some (.exact trigger.id time) ∧ NextOccurrence utc now time trigger.time.toInt := by
  intro occurs
  obtain ⟨time, isSet, next⟩ :=
    occurs 55800000 (fun _ => none) morningTrigger scheduled_morning (steady_utc _)
  have nextDay : queueSingleTrigger utc 55800000 (fun _ => none) morningTrigger
      (requestCode morningTrigger.id) = some (.exact 1 142200000) := by
    decide
  rw [nextDay] at isSet
  cases isSet
  exact absurd next.isTime (by decide)

end RoundSync.Services
