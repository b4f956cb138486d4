import RoundSync.Text.JavaString
import RoundSync.Transition.Crew

/-!
# Reports of finished syncs

Finished syncs are gathered in two reports, one of the successes and one of the
failures.  The texts of the reports are kept in a preference store, which the
workers read and edit in separate steps.  A report is shown as a notification;
when the user dismisses it, its delete intent is sent once, and a receiver
empties the text that the action of the intent names.
-/

namespace RoundSync.Notifications

open RoundSync.Text
open RoundSync.Transition

inductive Report where
  | success
  | failure
  deriving DecidableEq

/-- A text of the source. -/
def text (s : String) : JavaString :=
  s.toList

def NOTIFICATION_ID_SUCESS_REPORT : Int :=
  90

def NOTIFICATION_ID_FAIL_REPORT : Int :=
  91

def REPORT_SUCCESS_DELETE_INTENT : JavaString :=
  text "REPORT_SUCCESS_DELETE_INTENT"

def REPORT_FAIL_DELETE_INTENT : JavaString :=
  text "REPORT_SUCCESS_DELETE_INTENT"

def Report.notificationId : Report → Int
  | .success => NOTIFICATION_ID_SUCESS_REPORT
  | .failure => NOTIFICATION_ID_FAIL_REPORT

def Report.deleteIntent : Report → JavaString
  | .success => REPORT_SUCCESS_DELETE_INTENT
  | .failure => REPORT_FAIL_DELETE_INTENT

/-! ## The device -/

/-- `NOTIFICATION_CACHE_SUCCESS` and `NOTIFICATION_CACHE_FAIL`, and the ids of the
last single notifications. -/
structure Preferences where
  cache : Report → Option JavaString
  last : Report → Option Int

/-- A notification of one sync, or a report with its text, the number of lines it
announces and its delete intent. -/
inductive Notification where
  | single (title : Option JavaString) (content : JavaString)
  | report (content : JavaString) (lines : Int) (deleteIntent : Nat)
  deriving DecidableEq

/-- Delete intents are numbered as they are made; the one that can still be sent is
kept by its action.  The entries added since the last dismissal of a report are
noted, newest first. -/
structure Device where
  preferences : Preferences
  shown : Int → Option Notification
  intents : JavaString → Option Nat
  made : Nat
  added : Report → List JavaString

/-- The text of a report. -/
def Device.cached (device : Device) (report : Report) : JavaString :=
  (device.preferences.cache report).getD []

def Device.withCache (device : Device) (report : Report) (content : JavaString) : Device :=
  { device with
    preferences :=
      { device.preferences with
        cache := Function.update device.preferences.cache report (some content) } }

/-- The delete intent of the report that is shown. -/
def Device.deleteIntent (device : Device) (report : Report) : Option Nat :=
  match device.shown report.notificationId with
  | some (.report _ _ deleteIntent) => some deleteIntent
  | _ => none

/-- The report is shown, and its delete intent was sent before. -/
def Device.Unsendable (device : Device) (report : Report) : Prop :=
  device.deleteIntent report ≠ none ∧
    device.deleteIntent report ≠ device.intents report.deleteIntent

instance (device : Device) (report : Report) : Decidable (device.Unsendable report) :=
  inferInstanceAs (Decidable (_ ∧ _))

/-- The calls on the platform.  An entry is added to what `prefMap` has; a text is
emptied because the user has dismissed a report. -/
inductive DeviceCall where
  | data
  | addEntry (report : Report) (prefMap : Preferences) (content : JavaString)
  | putLast (report : Report) (id : Int)
  | emptyCache (report : Report) (dismissed : Report)
  | getBroadcast (action : JavaString)
  | notify (id : Int) (notification : Notification)
  | cancel (id : Int)
  | dismiss (report : Report)

def DeviceCall.Reply : DeviceCall → Type
  | .data => Preferences
  | .getBroadcast _ => Nat
  | .dismiss _ => Option JavaString
  | _ => Unit

/-- The edit of `addToSuccessReport` and of its copies. -/
def withEntry (currentCounterValue content : JavaString) : JavaString :=
  if currentCounterValue = [] then currentCounterValue ++ content
  else content ++ currentCounterValue

/-- `PendingIntent.getBroadcast` with `FLAG_ONE_SHOT`: the intent that is still to be
sent with this action, or a new one. -/
def getBroadcast (action : JavaString) (device : Device) : Nat × Device :=
  match device.intents action with
  | some made => (made, device)
  | none =>
      (device.made,
        { device with
          intents := Function.update device.intents action (some device.made)
          made := device.made + 1 })

/-- The user dismisses the notification of a report.  If its delete intent cannot be
sent any more, nothing follows. -/
def dismiss (report : Report) (device : Device) : Option JavaString × Device :=
  match device.deleteIntent report with
  | none => (none, device)
  | some deleteIntent =>
      let hidden :=
        { device with shown := Function.update device.shown report.notificationId none }
      if device.intents report.deleteIntent = some deleteIntent then
        (some report.deleteIntent,
          { hidden with intents := Function.update device.intents report.deleteIntent none })
      else (none, { hidden with added := Function.update device.added report [] })

def answer : (c : DeviceCall) → Device → c.Reply × Device
  | .data, device => (device.preferences, device)
  | .addEntry report prefMap content, device =>
      ((),
        { device.withCache report (withEntry ((prefMap.cache report).getD []) content) with
          added := Function.update device.added report (content :: device.added report) })
  | .putLast report id, device =>
      ((),
        { device with
          preferences :=
            { device.preferences with
              last := Function.update device.preferences.last report (some id) } })
  | .emptyCache report dismissed, device =>
      ((),
        { device.withCache report [] with
          added :=
            if report = dismissed then Function.update device.added report []
            else device.added })
  | .getBroadcast action, device => getBroadcast action device
  | .notify id notification, device =>
      ((), { device with shown := Function.update device.shown id (some notification) })
  | .cancel id, device => ((), { device with shown := Function.update device.shown id none })
  | .dismiss report, device => dismiss report device

abbrev Action :=
  Program DeviceCall.Reply

def ask (c : DeviceCall) : Action c.Reply :=
  .request c

/-! ## `ReportNotifications` -/

/-- `lines().size`. -/
def linesSize : JavaString → Int
  | [] => 1
  | '\r' :: '\n' :: rest => linesSize rest + 1
  | c :: rest => linesSize rest + if c = '\n' ∨ c = '\r' then 1 else 0

/-- `toString()` of a preference, or of `null`. -/
def shownText (value : Option JavaString) : JavaString :=
  value.getD (text "null")

def entry (title line : JavaString) : JavaString :=
  title ++ text ": " ++ line ++ ['\n']

def cachedLines (report : Report) : Action Int := do
  let prefMap ← ask .data
  pure (linesSize (shownText (prefMap.cache report)))

def getFailures : Action Int :=
  cachedLines .failure

def getSucesses : Action Int :=
  cachedLines .success

def lastSuccededNotification (id : Int) : Action Unit :=
  ask (.putLast .success id)

def lastFailedNotification (id : Int) : Action Unit := do
  let _ ← ask .data
  ask (.putLast .failure id)

def cancelLast (report : Report) : Action Unit := do
  let prefMap ← ask .data
  ask (.cancel ((prefMap.last report).getD 0))

def cancelLastSuccededNotification : Action Unit :=
  cancelLast .success

def cancelLastFailedNotification : Action Unit :=
  cancelLast .failure

def addToReport (report : Report) (title line : JavaString) : Action Unit := do
  let prefMap ← ask .data
  ask (.addEntry report prefMap (entry title line))

def addToSuccessReport : JavaString → JavaString → Action Unit :=
  addToReport .success

def addToFailureReport : JavaString → JavaString → Action Unit :=
  addToReport .failure

def createDeleteIntent (action : JavaString) : Action Nat :=
  ask (.getBroadcast action)

/-- The end of `showSuccessReport` and of `showFailReport`. -/
def showReport (report : Report) (notificationContent : JavaString) : Action Unit := do
  let deleteIntent ← createDeleteIntent report.deleteIntent
  ask (.cancel report.notificationId)
  ask (.notify report.notificationId
    (.report notificationContent (linesSize notificationContent - 1) deleteIntent))

/-- The text is not read again after the entry is added. -/
def showSuccessReport (title line : JavaString) : Action Unit := do
  let content := entry title line
  let prefMap ← ask .data
  ask (.addEntry .success prefMap content)
  showReport .success (content ++ shownText (prefMap.cache .success))

def showFailReport (title line : JavaString) : Action Unit := do
  addToFailureReport title line
  let prefMap ← ask .data
  showReport .failure (shownText (prefMap.cache .failure))

/-! ## `SyncServiceNotifications` and the receiver -/

def showFailedNotification (content : JavaString) (notificationId : Int) : Action Unit :=
  ask (.notify notificationId (.single none content))

def showCancelledNotification (content : JavaString) (notificationId : Int) : Action Unit :=
  ask (.notify notificationId (.single none content))

def showSuccessNotification (title content : JavaString) (notificationId : Int) : Action Unit :=
  ask (.notify notificationId (.single (some title) content))

def showFailedNotificationOrReport (useReports : Bool) (title content : JavaString)
    (notificationId : Int) : Action Unit := do
  if !useReports then showFailedNotification content notificationId
  else if (← getFailures) ≤ 1 then
    showFailedNotification content notificationId
    lastFailedNotification notificationId
    addToFailureReport title content
  else
    cancelLastFailedNotification
    showFailReport title content

/-- The title is the one of all cancelled syncs. -/
def showCancelledNotificationOrReport (useReports : Bool) (operation_failed_cancelled content : JavaString)
    (notificationId : Int) : Action Unit := do
  if !useReports then showCancelledNotification content notificationId
  else if (← getFailures) ≤ 1 then
    showCancelledNotification content notificationId
    lastFailedNotification notificationId
    addToFailureReport operation_failed_cancelled content
  else
    cancelLastFailedNotification
    showFailReport operation_failed_cancelled content

def showSuccessNotificationOrReport (useReports : Bool) (title content : JavaString)
    (notificationId : Int) : Action Unit := do
  if !useReports then showSuccessNotification title content notificationId
  else if (← getSucesses) ≤ 1 then
    showSuccessNotification title content notificationId
    lastSuccededNotification notificationId
    addToSuccessReport title content
  else
    cancelLastSuccededNotification
    showSuccessReport title content

/-- `ClearReportBroadcastReciever`, after the user has dismissed a report. -/
def onReceive (action : JavaString) (dismissed : Report) : Action Unit := do
  if action = REPORT_SUCCESS_DELETE_INTENT then ask (.emptyCache .success dismissed)
  if action = REPORT_FAIL_DELETE_INTENT then ask (.emptyCache .failure dismissed)

inductive Task where
  | showFailed (useReports : Bool) (title content : JavaString) (notificationId : Int)
  | showCancelled (useReports : Bool) (title content : JavaString) (notificationId : Int)
  | showSuccess (useReports : Bool) (title content : JavaString) (notificationId : Int)
  | dismiss (report : Report)

/-- What a task has to add to the reports. -/
def Task.entries : Task → List (Report × JavaString)
  | .showFailed true title content _ => [(.failure, entry title content)]
  | .showCancelled true title content _ => [(.failure, entry title content)]
  | .showSuccess true title content _ => [(.success, entry title content)]
  | _ => []

def Task.program : Task → Action Unit
  | .showFailed useReports title content notificationId =>
      showFailedNotificationOrReport useReports title content notificationId
  | .showCancelled useReports title content notificationId =>
      showCancelledNotificationOrReport useReports title content notificationId
  | .showSuccess useReports title content notificationId =>
      showSuccessNotificationOrReport useReports title content notificationId
  | .dismiss report => do
      match ← ask (.dismiss report) with
      | some action => onReceive action report
      | none => pure ()

def taskAction (task : Task) : Action (List (Report × JavaString)) := do
  task.program
  pure task.entries

def freshDevice : Device where
  preferences := ⟨fun _ => none, fun _ => none⟩
  shown := fun _ => none
  intents := fun _ => none
  made := 0
  added := fun _ => []

end RoundSync.Notifications
