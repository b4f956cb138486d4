import RoundSync.Notifications.ReportNotifications

/-!
# What the reports lose

A text has the entries added since the last dismissal, newest first, as long as
nothing comes between the two steps of an addition, and nobody dismisses a
report while the other one has entries: both reports carry the same action.
-/

namespace RoundSync.Notifications

open RoundSync.Text
open RoundSync.Transition

/-! ## What a task adds -/

/-- The entries that a call adds. -/
def DeviceCall.entries : DeviceCall → List (Report × JavaString)
  | .addEntry report _ content => [(report, content)]
  | _ => []

/-- A worker notes the entries it adds. -/
def reportRuns : Protocol Device DeviceCall.Reply (List (Report × JavaString)) where
  answer := answer
  blank := []
  note notes _ c := notes ++ c.entries
  allowed _ _ := True

/-- Whatever happens in between, the program adds these entries and no others. -/
def Adds {α : Type} (program : Action α) (entries : List (Report × JavaString)) : Prop :=
  ∀ notes, reportRuns.Obeys program (fun _ after => after = notes ++ entries) notes

section

variable {α β : Type} {first : Action α} {rest : α → Action β}
  {one other : List (Report × JavaString)}

theorem adds_pure (value : α) : Adds (pure value : Action α) [] :=
  fun notes => (List.append_nil notes).symm

theorem adds_ask (c : DeviceCall) : Adds (ask c) c.entries :=
  fun _ => ⟨trivial, fun _ => rfl⟩

theorem Adds.bind (adds : Adds first one) (next : ∀ value, Adds (rest value) other) :
    Adds (first >>= rest) (one ++ other) := by
  intro notes
  apply (adds notes).bind
  rintro value _ rfl
  rw [← List.append_assoc]
  exact next value (notes ++ one)

/-- The rule for a part that adds nothing. -/
theorem Adds.after (adds : Adds first []) (next : ∀ value, Adds (rest value) other) :
    Adds (first >>= rest) other :=
  adds.bind next

end

theorem adds_cachedLines (report : Report) : Adds (cachedLines report) [] :=
  (adds_ask .data).after fun _ => adds_pure _

theorem adds_cancelLast (report : Report) : Adds (cancelLast report) [] :=
  (adds_ask .data).after fun _ => adds_ask _

theorem adds_addToReport (report : Report) (title line : JavaString) :
    Adds (addToReport report title line) [(report, entry title line)] :=
  (adds_ask .data).after fun _ => adds_ask _

theorem adds_lastFailedNotification (id : Int) : Adds (lastFailedNotification id) [] :=
  (adds_ask .data).after fun _ => adds_ask _

theorem adds_showReport (report : Report) (content : JavaString) :
    Adds (showReport report content) [] :=
  (adds_ask _).after fun _ => (adds_ask _).after fun _ => adds_ask _

theorem adds_showSuccessReport (title line : JavaString) :
    Adds (showSuccessReport title line) [(.success, entry title line)] :=
  (adds_ask .data).after fun _ => (adds_ask (.addEntry _ _ _)).bind fun _ => adds_showReport _ _

theorem adds_showFailReport (title line : JavaString) :
    Adds (showFailReport title line) [(.failure, entry title line)] :=
  (adds_addToReport .failure title line).bind fun _ =>
    (adds_ask .data).after fun _ => adds_showReport _ _

/-- The way of a failure and of a cancelled sync. -/
theorem adds_failure (title content : JavaString) (notificationId : Int) :
    Adds
      (do
        if (← getFailures) ≤ 1 then
          ask (.notify notificationId (.single none content))
          lastFailedNotification notificationId
          addToFailureReport title content
        else
          cancelLastFailedNotification
          showFailReport title content)
      [(.failure, entry title content)] := by
  apply (adds_cachedLines .failure).after
  intro lines
  split
  · exact (adds_ask _).after fun _ => (adds_lastFailedNotification _).after fun _ =>
      adds_addToReport _ _ _
  · exact (adds_cancelLast _).after fun _ => adds_showFailReport _ _

theorem adds_success (title content : JavaString) (notificationId : Int) :
    Adds (showSuccessNotificationOrReport true title content notificationId)
      [(.success, entry title content)] := by
  apply (adds_cachedLines .success).after
  intro lines
  split
  · exact (adds_ask _).after fun _ => (adds_ask (.putLast _ _)).after fun _ => adds_addToReport _ _ _
  · exact (adds_cancelLast _).after fun _ => adds_showSuccessReport _ _

theorem adds_onReceive (action : JavaString) (dismissed : Report) :
    Adds (onReceive action dismissed) [] := by
  have failures : Adds
      (if action = REPORT_FAIL_DELETE_INTENT then ask (.emptyCache .failure dismissed)
        else pure ()) [] := by
    split_ifs
    · exact adds_ask (.emptyCache .failure dismissed)
    · exact adds_pure ()
  rw [onReceive]
  by_cases named : action = REPORT_SUCCESS_DELETE_INTENT
  · rw [if_pos named]
    exact (adds_ask (.emptyCache .success dismissed)).after fun _ => failures
  · rw [if_neg named]
    exact failures

theorem adds_program (task : Task) : Adds task.program task.entries := by
  cases task with
  | showFailed useReports title content notificationId =>
      cases useReports with
      | false => exact adds_ask _
      | true => exact adds_failure title content notificationId
  | showCancelled useReports title content notificationId =>
      cases useReports with
      | false => exact adds_ask _
      | true => exact adds_failure title content notificationId
  | showSuccess useReports title content notificationId =>
      cases useReports with
      | false => exact adds_ask _
      | true => exact adds_success title content notificationId
  | dismiss report =>
      apply (adds_ask (.dismiss report)).after
      intro action
      cases action with
      | none => exact adds_pure _
      | some action => exact adds_onReceive action report

theorem obeys_taskAction (task : Task) :
    reportRuns.Obeys (taskAction task) (fun value after => after = value) reportRuns.blank := by
  apply Protocol.Obeys.bind (adds_program task [])
  rintro value _ rfl
  exact List.nil_append _

/-! ## What a call does to the texts -/

/-- Every text has its entries, newest first. -/
def Told (device : Device) : Prop :=
  ∀ report, device.cached report = (device.added report).flatten

/-- An addition edits the text that was read for it; the receiver finds no other
text than that of the dismissed report; and a report whose delete intent is used up
is dismissed only when it is empty. -/
def Undisturbed (device : Device) : DeviceCall → Prop
  | .addEntry report prefMap _ => (prefMap.cache report).getD [] = device.cached report
  | .emptyCache report dismissed => report = dismissed ∨ device.cached report = []
  | .dismiss report => device.Unsendable report → device.cached report = []
  | _ => True

instance (device : Device) : ∀ c : DeviceCall, Decidable (Undisturbed device c)
  | .addEntry _ _ _ => inferInstanceAs (Decidable (_ = _))
  | .emptyCache _ _ => inferInstanceAs (Decidable (_ ∨ _))
  | .dismiss _ => inferInstanceAs (Decidable (_ → _))
  | .data => .isTrue trivial
  | .putLast _ _ => .isTrue trivial
  | .getBroadcast _ => .isTrue trivial
  | .notify _ _ => .isTrue trivial
  | .cancel _ => .isTrue trivial

section

variable {device : Device} {report other : Report} {content : JavaString}

theorem withEntry_eq (current content : JavaString) :
    withEntry current content = content ++ current := by
  unfold withEntry
  split_ifs with empty
  · rw [empty, List.append_nil, List.nil_append]
  · rfl

theorem cached_withCache (device : Device) (report : Report) (content : JavaString) :
    (device.withCache report content).cached report = content := by
  simp [Device.withCache, Device.cached]

theorem cached_withCache_of_ne (different : other ≠ report) :
    (device.withCache report content).cached other = device.cached other := by
  simp [Device.withCache, Device.cached, different]

/-- One text is edited, and its entries change accordingly or not. -/
theorem told_withCache_iff (told : Told device) {entries : List JavaString} :
    Told { device.withCache report content with
      added := Function.update device.added report entries } ↔ content = entries.flatten := by
  constructor
  · intro after
    have here := after report
    change (device.withCache report content).cached report = _ at here
    rw [cached_withCache] at here
    simpa using here
  · intro same other
    change (device.withCache report content).cached other = _
    by_cases isReport : other = report
    · subst isReport
      rw [cached_withCache, same]
      simp
    · rw [cached_withCache_of_ne isReport, told other]
      simp [isReport]

theorem told_getBroadcast (told : Told device) (action : JavaString) :
    Told (getBroadcast action device).2 := by
  rw [getBroadcast]
  cases device.intents action with
  | some made => exact told
  | none => exact told

theorem told_dismiss_iff (told : Told device) :
    Told (dismiss report device).2 ↔ (device.Unsendable report → device.cached report = []) := by
  rw [dismiss, Device.Unsendable]
  cases shown : device.deleteIntent report with
  | none => exact iff_of_true told fun unsendable => absurd rfl unsendable.1
  | some deleteIntent =>
      dsimp only
      split_ifs with sendable
      · exact iff_of_true told fun unsendable => absurd sendable.symm unsendable.2
      · have emptied := @told_withCache_iff device report (device.cached report) told []
        have unsendable : some deleteIntent ≠ none ∧
            some deleteIntent ≠ device.intents report.deleteIntent :=
          ⟨Option.some_ne_none _, Ne.symm sendable⟩
        constructor
        · intro after _
          have here := after report
          change device.cached report = _ at here
          simpa using here
        · intro empty other
          change device.cached other = _
          by_cases isReport : other = report
          · subst isReport
            rw [empty unsendable]
            simp
          · rw [told other]
            simp [isReport]

/-- The step lemma, with the exact condition. -/
theorem told_answer_iff (told : Told device) (c : DeviceCall) :
    Told (answer c device).2 ↔ Undisturbed device c := by
  cases c with
  | addEntry report prefMap content =>
      rw [Undisturbed, answer, told_withCache_iff told, withEntry_eq, List.flatten_cons,
        ← told report]
      exact List.append_right_inj content
  | emptyCache report dismissed =>
      rw [Undisturbed, answer]
      by_cases own : report = dismissed
      · dsimp only
        rw [if_pos own, told_withCache_iff told]
        exact iff_of_true rfl (.inl own)
      · dsimp only
        rw [if_neg own]
        have same : device.added = Function.update device.added report (device.added report) :=
          (Function.update_eq_self _ _).symm
        rw [same, told_withCache_iff told, ← told report]
        constructor
        · exact fun empty => .inr empty.symm
        · rintro (isOwn | empty)
          · exact absurd isOwn own
          · exact empty.symm
  | dismiss report => exact told_dismiss_iff told
  | getBroadcast action => exact iff_of_true (told_getBroadcast told action) trivial
  | data | putLast report id | notify id notification | cancel id => exact iff_of_true told trivial

/-- The report that the user dismisses with this call or has dismissed before it. -/
def DeviceCall.dismissed? : DeviceCall → Option Report
  | .dismiss report => some report
  | .emptyCache _ dismissed => some dismissed
  | _ => none

/-- A dismissal leaves the text of the other report alone. -/
def LeavesOther (device : Device) (c : DeviceCall) : Prop :=
  ∀ report, c.dismissed? = some report → ∀ other, other ≠ report →
    (answer c device).2.cached other = device.cached other

end

/-! ## The runs -/

section

variable {ι : Type} [DecidableEq ι]

abbrev Workers (ι : Type) :=
  Crew Device ι DeviceCall.Reply (List (Report × JavaString)) (List (Report × JavaString))

def workersStep : Workers ι → CrewEvent ι Task → Workers ι :=
  Crew.step reportRuns taskAction

def freshWorkers : Workers ι :=
  Crew.start reportRuns [] freshDevice

/-- No task is on its way. -/
def Quiescent (workers : Workers ι) : Prop :=
  ∀ i, ((workers.hands i).program.value?).isSome = true

/-- Every call is made undisturbed. -/
def UndisturbedRun (events : List (CrewEvent ι Task)) : Prop :=
  Meets workersStep (Crew.AtCall fun device _ _ => Undisturbed device) freshWorkers events

instance (events : List (CrewEvent ι Task)) : Decidable (UndisturbedRun events) :=
  inferInstanceAs (Decidable (Meets _ _ _ _))

/-- A worker that has ended its task has added the entries of the task; whenever
none is at work, each text has the entries added since the last dismissal of its
report, newest first; and no dismissal changes the text of the other report. -/
structure LosesNothing (events : List (CrewEvent ι Task)) : Prop where
  adds : Always workersStep (fun workers => ∀ i entries,
    (workers.hands i).program.value? = some entries → workers.notes i = entries)
    freshWorkers events
  told : Always workersStep (fun workers => Quiescent workers → Told workers.state)
    freshWorkers events
  others : Meets workersStep (Crew.AtCall fun device _ _ => LeavesOther device) freshWorkers events

theorem told_step_iff {workers : Workers ι} (told : Told workers.state) (event : CrewEvent ι Task) :
    Told (workersStep workers event).state ↔
      Crew.AtCall (fun device _ _ => Undisturbed device) workers event := by
  cases event with
  | begin i task =>
      rw [workersStep, Crew.step]
      split
      · exact iff_of_true told trivial
      · exact iff_of_true told trivial
  | advance i =>
      rw [workersStep, Crew.step, Crew.AtCall]
      cases (workers.hands i).program with
      | done entries => exact iff_of_true told trivial
      | call c next => exact told_answer_iff told c

/-- The texts have their entries all the time in exactly the undisturbed runs. -/
theorem always_told_iff (events : List (CrewEvent ι Task)) :
    Always workersStep (fun workers => Told workers.state) freshWorkers events ↔
      UndisturbedRun events :=
  always_iff_meets_of_step (fun _ event told => told_step_iff told event) fun _ => rfl

end

end RoundSync.Notifications
