import RoundSync.Database.BackupRuns
import RoundSync.Database.PreferencesBackup
import RoundSync.QuarkDav.RoundTrip
import RoundSync.Transition.Effect

/-!
# Import of a configuration package

`CopyConfigFile`: the parts of a package are read and validated, the task
database, the preferences and the QuarkDav remotes are exported as they are, and
then replaced one after another; `rclone.conf` comes last.  What has been applied
when a step fails is taken back by importing the exports, which go through the same
validation as a package.  So an import is all or nothing only where the state of the
application survives its own export and import.
-/

namespace RoundSync.Activities

open RoundSync.Data
open RoundSync.Text
open RoundSync.Text.Kotlin
open RoundSync.Transition
open RoundSync.Database (Tables Preferences PreferencesLibrary)
open RoundSync.QuarkDav (BackupJson Directory RepositoryCall)

/-- The stores that an import changes. -/
structure AppState (κ : Type) where
  database : Tables
  preferences : Preferences
  quarkDav : Directory
  conf : κ

/-- The libraries that the stores use. -/
structure Libraries where
  cases : CaseTables
  json : PreferencesLibrary
  backupJson : BackupJson

/-! ## Packages -/

/-- The parts of a package; a part that cannot be read is missing, and the QuarkDav
remotes may be absent. -/
structure ConfigPackage where
  databaseJson : Option JavaString
  preferencesJson : Option JavaString
  quarkDavJson : Option (Option JavaString)

inductive ConfCheck where
  | valid
  | invalid
  | thrown
  deriving DecidableEq

inductive ConfCopy (κ : Type) where
  | copied (conf : κ)
  | refused
  | thrown

inductive ApplyStep where
  | database
  | preferences
  | quarkDav
  deriving DecidableEq

/-- What rclone and the file system answer, and the step at which an exception comes. -/
structure Course (κ : Type) where
  check : ConfCheck
  exception : Option ApplyStep
  copy : ConfCopy κ

inductive StatusCode where
  | success
  | unspecified
  | zipNoJson
  | zipInvalidJson
  | zipInvalidConf
  | zipMissingConf
  deriving DecidableEq

inductive ImportException where
  | json (error : JsonError)
  | illegalArgument (message : JavaString)
  | other

structure MetadataTexts where
  databaseJson : JavaString
  preferencesJson : JavaString
  quarkDavJson : Option JavaString

/-- The texts of a package that has passed, and those of the stores as they are. -/
structure Prepared where
  texts : MetadataTexts
  previousDatabaseJson : JavaString
  previousPreferencesJson : JavaString
  previousQuarkDavJson : JavaString

section

variable {κ : Type} (libraries : Libraries)

/-! ## Before anything is changed -/

def readTexts (package : ConfigPackage) : Except StatusCode MetadataTexts :=
  match package.databaseJson, package.preferencesJson, package.quarkDavJson with
  | some databaseJson, some preferencesJson, some quarkDavJson =>
      .ok ⟨databaseJson, preferencesJson, quarkDavJson⟩
  | _, _, _ => .error .zipNoJson

def validateBackup : Option JavaString → Except ImportException Unit
  | none => .ok ()
  | some quarkDavJson =>
      match QuarkDav.parseBackup libraries.cases libraries.backupJson quarkDavJson with
      | .ok _ => .ok ()
      | .error message => .error (.illegalArgument message)

def validateTexts (texts : MetadataTexts) : Except ImportException Unit := do
  (Database.Importer.validateJson libraries.json.toJsonLibrary texts.databaseJson).mapError .json
  (Database.SharedPreferencesBackup.validateJson libraries.json texts.preferencesJson).mapError
    .json
  validateBackup libraries texts.quarkDavJson

def checkConf (course : Course κ) : Except StatusCode Unit :=
  match course.check with
  | .valid => .ok ()
  | .invalid => .error .zipInvalidConf
  | .thrown => .error .zipMissingConf

def exportMetadata (texts : MetadataTexts) (app : AppState κ) : Except StatusCode Prepared :=
  match Database.SharedPreferencesBackup.exportJson libraries.json app.preferences with
  | .error _ => .error .unspecified
  | .ok previousPreferencesJson =>
      .ok {
        texts
        previousDatabaseJson :=
          Database.Exporter.create libraries.json.toJsonLibrary app.database
        previousPreferencesJson
        previousQuarkDavJson :=
          QuarkDav.exportBackup libraries.cases libraries.backupJson app.quarkDav }

def prepare (package : ConfigPackage) (course : Course κ) (app : AppState κ) :
    Except StatusCode Prepared := do
  let texts ← readTexts package
  (validateTexts libraries texts).mapError fun _ => .zipInvalidJson
  checkConf course
  exportMetadata libraries texts app

/-! ## What is applied, and taken back -/

abbrev ImportEffect (κ : Type) := Effect (AppState κ) ImportException

def onDatabase (operation : Tables → Except JsonError Unit × Tables) : ImportEffect κ Unit :=
  fun app => ((operation app.database).1.mapError .json,
    { app with database := (operation app.database).2 })

def onPreferences (operation : Preferences → Except JsonError Unit × Preferences) :
    ImportEffect κ Unit :=
  fun app => ((operation app.preferences).1.mapError .json,
    { app with preferences := (operation app.preferences).2 })

def onQuarkDav (operation : Directory → Except JavaString Unit × Directory) : ImportEffect κ Unit :=
  fun app => ((operation app.quarkDav).1.mapError .illegalArgument,
    { app with quarkDav := (operation app.quarkDav).2 })

/-- An exception at this step, before it changes its store. -/
def interrupt (course : Course κ) (step : ApplyStep) : ImportEffect κ Unit :=
  if course.exception = some step then Effect.fail .other else pure ()

def applyDatabase (texts : MetadataTexts) (course : Course κ) : ImportEffect κ Unit := do
  interrupt course .database
  onDatabase (Database.Importer.importJson libraries.json.toJsonLibrary texts.databaseJson)

def applyPreferences (texts : MetadataTexts) (course : Course κ) : ImportEffect κ Unit := do
  interrupt course .preferences
  onPreferences (Database.SharedPreferencesBackup.importJson libraries.json texts.preferencesJson)

def applyQuarkDav (texts : MetadataTexts) (course : Course κ) : ImportEffect κ Unit :=
  match texts.quarkDavJson with
  | none => pure ()
  | some quarkDavJson => do
      interrupt course .quarkDav
      onQuarkDav fun dir =>
        QuarkDav.replaceFromBackup libraries.cases libraries.backupJson dir quarkDavJson

def applyMetadata (texts : MetadataTexts) (course : Course κ) : ImportEffect κ Unit := do
  applyDatabase libraries texts course
  applyPreferences libraries texts course
  applyQuarkDav libraries texts course

/-- The exports are imported again until one of them is refused. -/
def restoreMetadata (prepared : Prepared) (app : AppState κ) : AppState κ :=
  let restore : ImportEffect κ Unit := do
    onDatabase (Database.Importer.importJson libraries.json.toJsonLibrary
      prepared.previousDatabaseJson)
    onPreferences (Database.SharedPreferencesBackup.importJson libraries.json
      prepared.previousPreferencesJson)
    onQuarkDav fun dir => QuarkDav.replaceFromBackup libraries.cases libraries.backupJson dir
      prepared.previousQuarkDavJson
  (restore app).2

def importPrepared (prepared : Prepared) (course : Course κ) (app : AppState κ) :
    StatusCode × AppState κ :=
  match applyMetadata libraries prepared.texts course app with
  | (.error _, reached) => (.zipInvalidJson, restoreMetadata libraries prepared reached)
  | (.ok (), reached) =>
      match course.copy with
      | .copied conf => (.success, { reached with conf })
      | .refused => (.zipInvalidConf, restoreMetadata libraries prepared reached)
      | .thrown => (.zipMissingConf, restoreMetadata libraries prepared reached)

/-- `doInBackground` for a package; it returns true exactly with the status of success. -/
def doInBackground (package : ConfigPackage) (course : Course κ) (app : AppState κ) :
    StatusCode × AppState κ :=
  match prepare libraries package course app with
  | .error statusCode => (statusCode, app)
  | .ok prepared => importPrepared libraries prepared course app

/-! ## The application -/

inductive AppEvent (κ : Type) where
  | database (operation : Database.Operation)
  | putPreference (key : String) (value : Database.PreferenceValue)
  | removePreference (key : String)
  | quarkDav (call : RepositoryCall)
  | writeConf (conf : κ)
  | importPackage (package : ConfigPackage) (course : Course κ)

def stepApp (app : AppState κ) : AppEvent κ → AppState κ
  | .database operation => { app with database := operation.apply app.database }
  | .putPreference key value => { app with preferences := app.preferences.insert key value }
  | .removePreference key => { app with preferences := app.preferences.erase key }
  | .quarkDav call =>
      { app with
        quarkDav := QuarkDav.callRepository libraries.cases libraries.backupJson app.quarkDav call }
  | .writeConf conf => { app with conf }
  | .importPackage package course => (doInBackground libraries package course app).2

def freshApp (conf : κ) : AppState κ where
  database := .empty
  preferences := ∅
  quarkDav := .empty
  conf := conf

/-- What the user sees of the stores is the same. -/
structure Unchanged (cases : CaseTables) (before after : AppState κ) : Prop where
  tasks : after.database.allTasks = before.database.allTasks
  triggers : after.database.allTrigger = before.database.allTrigger
  preferences : ∀ key, after.preferences.lookup key = before.preferences.lookup key
  quarkDav : QuarkDav.list cases after.quarkDav.remotes =
    QuarkDav.list cases before.quarkDav.remotes
  conf : after.conf = before.conf

/-- An import that does not succeed has changed nothing. -/
def AllOrNothing (package : ConfigPackage) (course : Course κ) (app : AppState κ) : Prop :=
  (doInBackground libraries package course app).1 ≠ .success →
    Unchanged libraries.cases app (doInBackground libraries package course app).2

end

end RoundSync.Activities
