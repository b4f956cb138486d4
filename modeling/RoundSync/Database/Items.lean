import RoundSync.Text.Json

/-!
# Tasks and triggers

The two items of the application's database and their JSON form.  The old,
manual parser used other names for some properties; both are still read.
-/

namespace RoundSync.Database

open RoundSync.Text

structure Task where
  id : Int64
  title : JavaString := []
  remoteId : JavaString := []
  remoteType : Int32 := 0
  remotePath : JavaString := []
  localPath : JavaString := []
  direction : Int32 := 0
  md5sum : Bool := false
  wifionly : Bool := false
  deriving DecidableEq

/-- `weekdays` is a set of days, one bit for each. -/
structure Trigger where
  id : Int64
  title : JavaString := []
  isEnabled : Bool := true
  weekdays : Int8 := 0b01111111
  time : Int32 := 0
  triggerTarget : Int64 := 0
  type : Int32 := 0
  deriving DecidableEq

/-- The item whose id is the only argument of its constructor. -/
def decodeItem {α : Type} (setField : α → String × Json → Except JsonError α) (fresh : α)
    (fields : Fields) : Except JsonError α :=
  if (fields.any fun field => field.1 = "id") then readFields setField fresh fields
  else .error .library

namespace Task

def asJSON (task : Task) : Fields :=
  ("id", .number task.id.toInt) ::
    (property "title" [] task.title .string ++
    (property "remoteId" [] task.remoteId .string ++
    (property "remoteType" 0 task.remoteType (fun n => .number n.toInt) ++
    (property "remotePath" [] task.remotePath .string ++
    (property "localPath" [] task.localPath .string ++
    (property "direction" 0 task.direction (fun n => .number n.toInt) ++
    (property "md5sum" false task.md5sum .bool ++
    property "wifionly" false task.wifionly .bool)))))))

def setField (json : JsonLibrary) (task : Task) (field : String × Json) : Except JsonError Task :=
  match field.1 with
  | "id" => (json.decodeLong field.2).map fun id => { task with id }
  | "title" | "name" =>
      (JsonLibrary.decodeString field.2).map fun title => { task with title }
  | "remoteId" =>
      (JsonLibrary.decodeString field.2).map fun remoteId => { task with remoteId }
  | "remoteType" => (json.decodeInt field.2).map fun remoteType => { task with remoteType }
  | "remotePath" =>
      (JsonLibrary.decodeString field.2).map fun remotePath => { task with remotePath }
  | "localPath" =>
      (JsonLibrary.decodeString field.2).map fun localPath => { task with localPath }
  | "direction" | "syncDirection" =>
      (json.decodeInt field.2).map fun direction => { task with direction }
  | "md5sum" => (JsonLibrary.decodeBoolean field.2).map fun md5sum => { task with md5sum }
  | "wifionly" => (JsonLibrary.decodeBoolean field.2).map fun wifionly => { task with wifionly }
  | _ => .error .library

def fromString (json : JsonLibrary) (fields : Fields) : Except JsonError Task :=
  decodeItem (setField json) { id := 0 } fields

/-- Whatever a task's fields are, it is read back as it was written. -/
theorem fromString_asJSON (json : JsonLibrary) (task : Task) :
    fromString json task.asJSON = .ok task := by
  obtain ⟨id, title, remoteId, remoteType, remotePath, localPath, direction, md5sum, wifionly⟩ :=
    task
  have idRead : setField json { id := 0 } ("id", .number id.toInt) =
      .ok (mk id [] [] 0 [] [] 0 false false) := by
    simp [setField, Except.map]
  have titleRead : readFields (setField json) (mk id [] [] 0 [] [] 0 false false)
      (property "title" [] title .string) = .ok (mk id title [] 0 [] [] 0 false false) :=
    readFields_property (mk id · [] 0 [] [] 0 false false)
      (by simp [setField, Except.map]) rfl
  have remoteIdRead : readFields (setField json) (mk id title [] 0 [] [] 0 false false)
      (property "remoteId" [] remoteId .string) =
        .ok (mk id title remoteId 0 [] [] 0 false false) :=
    readFields_property (mk id title · 0 [] [] 0 false false)
      (by simp [setField, Except.map]) rfl
  have remoteTypeRead : readFields (setField json) (mk id title remoteId 0 [] [] 0 false false)
      (property "remoteType" 0 remoteType (fun n => .number n.toInt)) =
        .ok (mk id title remoteId remoteType [] [] 0 false false) :=
    readFields_property (mk id title remoteId · [] [] 0 false false)
      (by simp [setField, Except.map]) rfl
  have remotePathRead : readFields (setField json) (mk id title remoteId remoteType [] [] 0 false
      false)
      (property "remotePath" [] remotePath .string) =
        .ok (mk id title remoteId remoteType remotePath [] 0 false false) :=
    readFields_property (mk id title remoteId remoteType · [] 0 false false)
      (by simp [setField, Except.map]) rfl
  have localPathRead : readFields (setField json) (mk id title remoteId remoteType remotePath [] 0
      false false)
      (property "localPath" [] localPath .string) =
        .ok (mk id title remoteId remoteType remotePath localPath 0 false false) :=
    readFields_property (mk id title remoteId remoteType remotePath · 0 false false)
      (by simp [setField, Except.map]) rfl
  have directionRead : readFields (setField json) (mk id title remoteId remoteType remotePath
      localPath 0 false false)
      (property "direction" 0 direction (fun n => .number n.toInt)) =
        .ok (mk id title remoteId remoteType remotePath localPath direction false false) :=
    readFields_property (mk id title remoteId remoteType remotePath localPath · false false)
      (by simp [setField, Except.map]) rfl
  have md5sumRead : readFields (setField json) (mk id title remoteId remoteType remotePath localPath
      direction false false)
      (property "md5sum" false md5sum .bool) =
        .ok (mk id title remoteId remoteType remotePath localPath direction md5sum false) :=
    readFields_property (mk id title remoteId remoteType remotePath localPath direction · false)
      (by simp [setField, Except.map]) rfl
  have wifionlyRead : readFields (setField json) (mk id title remoteId remoteType remotePath
      localPath direction md5sum false)
      (property "wifionly" false wifionly .bool) =
        .ok (mk id title remoteId remoteType remotePath localPath direction md5sum wifionly) :=
    readFields_property (mk id title remoteId remoteType remotePath localPath direction md5sum ·)
      (by simp [setField, Except.map]) rfl
  rw [fromString, decodeItem, if_pos (by rfl)]
  exact readFields_cons idRead (readFields_append titleRead (readFields_append remoteIdRead
    (readFields_append remoteTypeRead (readFields_append remotePathRead (readFields_append
    localPathRead (readFields_append directionRead (readFields_append md5sumRead wifionlyRead)))))))

end Task

namespace Trigger

def asJSON (trigger : Trigger) : Fields :=
  ("id", .number trigger.id.toInt) ::
    (property "title" [] trigger.title .string ++
    (property "isEnabled" true trigger.isEnabled .bool ++
    (property "weekdays" 0b01111111 trigger.weekdays (fun n => .number n.toInt) ++
    (property "time" 0 trigger.time (fun n => .number n.toInt) ++
    (property "triggerTarget" 0 trigger.triggerTarget (fun n => .number n.toInt) ++
    property "type" 0 trigger.type (fun n => .number n.toInt))))))

def setField (json : JsonLibrary) (trigger : Trigger) (field : String × Json) :
    Except JsonError Trigger :=
  match field.1 with
  | "id" => (json.decodeLong field.2).map fun id => { trigger with id }
  | "title" => (JsonLibrary.decodeString field.2).map fun title => { trigger with title }
  | "isEnabled" | "enabled" =>
      (JsonLibrary.decodeBoolean field.2).map fun isEnabled => { trigger with isEnabled }
  | "weekdays" => (json.decodeByte field.2).map fun weekdays => { trigger with weekdays }
  | "time" => (json.decodeInt field.2).map fun time => { trigger with time }
  | "triggerTarget" | "target" | "whatToTrigger" =>
      (json.decodeLong field.2).map fun triggerTarget => { trigger with triggerTarget }
  | "type" => (json.decodeInt field.2).map fun type => { trigger with type }
  | _ => .error .library

def fromString (json : JsonLibrary) (fields : Fields) : Except JsonError Trigger :=
  decodeItem (setField json) { id := 0 } fields

/-- Whatever a trigger's fields are, it is read back as it was written. -/
theorem fromString_asJSON (json : JsonLibrary) (trigger : Trigger) :
    fromString json trigger.asJSON = .ok trigger := by
  obtain ⟨id, title, isEnabled, weekdays, time, triggerTarget, type⟩ := trigger
  have idRead : setField json { id := 0 } ("id", .number id.toInt) =
      .ok (mk id [] true 127 0 0 0) := by
    simp [setField, Except.map]
  have titleRead : readFields (setField json) (mk id [] true 127 0 0 0)
      (property "title" [] title .string) = .ok (mk id title true 127 0 0 0) :=
    readFields_property (mk id · true 127 0 0 0)
      (by simp [setField, Except.map]) rfl
  have isEnabledRead : readFields (setField json) (mk id title true 127 0 0 0)
      (property "isEnabled" true isEnabled .bool) = .ok (mk id title isEnabled 127 0 0 0) :=
    readFields_property (mk id title · 127 0 0 0)
      (by simp [setField, Except.map]) rfl
  have weekdaysRead : readFields (setField json) (mk id title isEnabled 127 0 0 0)
      (property "weekdays" 127 weekdays (fun n => .number n.toInt)) =
        .ok (mk id title isEnabled weekdays 0 0 0) :=
    readFields_property (mk id title isEnabled · 0 0 0)
      (by simp [setField, Except.map]) rfl
  have timeRead : readFields (setField json) (mk id title isEnabled weekdays 0 0 0)
      (property "time" 0 time (fun n => .number n.toInt)) =
        .ok (mk id title isEnabled weekdays time 0 0) :=
    readFields_property (mk id title isEnabled weekdays · 0 0)
      (by simp [setField, Except.map]) rfl
  have triggerTargetRead : readFields (setField json) (mk id title isEnabled weekdays time 0 0)
      (property "triggerTarget" 0 triggerTarget (fun n => .number n.toInt)) =
        .ok (mk id title isEnabled weekdays time triggerTarget 0) :=
    readFields_property (mk id title isEnabled weekdays time · 0)
      (by simp [setField, Except.map]) rfl
  have typeRead : readFields (setField json) (mk id title isEnabled weekdays time triggerTarget 0)
      (property "type" 0 type (fun n => .number n.toInt)) =
        .ok (mk id title isEnabled weekdays time triggerTarget type) :=
    readFields_property (mk id title isEnabled weekdays time triggerTarget ·)
      (by simp [setField, Except.map]) rfl
  rw [fromString, decodeItem, if_pos (by rfl)]
  exact readFields_cons idRead (readFields_append titleRead (readFields_append isEnabledRead
    (readFields_append weekdaysRead (readFields_append timeRead (readFields_append triggerTargetRead
    typeRead)))))

end Trigger

end RoundSync.Database
