import RoundSync.Activities.ConfigPackage

/-!
# When a failed import changes nothing

An import that fails restores its exports in the order in which it has applied the
parts.  The export of a database with a trigger whose task has been deleted is
refused, and then nothing is restored; where it is accepted, the preferences and the
remotes come back as their own round trips leave them.
-/

namespace RoundSync.Activities

open RoundSync.Data
open RoundSync.Text
open RoundSync.Text.Kotlin
open RoundSync.Transition
open RoundSync.Database (Tables Preferences PreferencesLibrary)
open RoundSync.QuarkDav (BackupJson Directory RepositoryCall)

section

variable {κ : Type} {libraries : Libraries} {texts : MetadataTexts} {course : Course κ}
  {app reached : AppState κ} {prepared : Prepared}

/-! ## What the steps do -/

/-- The preferences of the package can be read to the end. -/
def PreferencesDecode (libraries : Libraries) (texts : MetadataTexts) (preferences : Preferences) :
    Prop :=
  ∃ imported, Database.SharedPreferencesBackup.imported libraries.json texts.preferencesJson
    preferences = .ok imported

/-- The QuarkDav remotes are replaced. -/
structure Replaces (libraries : Libraries) (texts : MetadataTexts) (course : Course κ)
    (preferences : Preferences) : Prop where
  exception : course.exception = none
  decode : PreferencesDecode libraries texts preferences
  isThere : texts.quarkDavJson ≠ none

/-- Every part is applied. -/
structure Applies (libraries : Libraries) (texts : MetadataTexts) (course : Course κ)
    (preferences : Preferences) : Prop where
  database : course.exception ≠ some .database
  uninterrupted : course.exception ≠ some .preferences
  decode : PreferencesDecode libraries texts preferences
  quarkDav : texts.quarkDavJson = none ∨ course.exception ≠ some .quarkDav

theorem interrupt_of_eq {step : ApplyStep} (interrupted : course.exception = some step) :
    interrupt course step app = (.error .other, app) := by
  rw [interrupt, if_pos interrupted]
  rfl

theorem interrupt_of_ne {step : ApplyStep} (uninterrupted : course.exception ≠ some step) :
    interrupt course step app = (.ok (), app) := by
  rw [interrupt, if_neg uninterrupted]
  rfl

theorem applyDatabase_interrupted (interrupted : course.exception = some .database) :
    applyDatabase libraries texts course app = (.error .other, app) :=
  Effect.bind_of_error (interrupt_of_eq interrupted)

theorem applyDatabase_valid (uninterrupted : course.exception ≠ some .database)
    (valid : Database.Importer.validateJson libraries.json.toJsonLibrary texts.databaseJson =
      .ok ()) :
    ∃ imported : Tables, imported.Sound ∧
      applyDatabase libraries texts course app = (.ok (), { app with database := imported }) := by
  obtain ⟨imported, isImported, sound⟩ := Database.importJson_of_valid valid app.database
  refine ⟨imported, sound, (Effect.bind_of_ok (interrupt_of_ne uninterrupted)).trans ?_⟩
  rw [onDatabase, isImported]
  rfl

theorem applyPreferences_refused
    (refused : ¬(course.exception ≠ some .preferences ∧
      PreferencesDecode libraries texts app.preferences)) :
    ∃ error, applyPreferences libraries texts course app = (.error error, app) := by
  by_cases interrupted : course.exception = some .preferences
  · exact ⟨.other, Effect.bind_of_error (interrupt_of_eq interrupted)⟩
  · cases read : Database.SharedPreferencesBackup.imported libraries.json texts.preferencesJson
        app.preferences with
    | ok imported => exact absurd ⟨interrupted, imported, read⟩ refused
    | error error =>
        refine ⟨.json error, (Effect.bind_of_ok (interrupt_of_ne interrupted)).trans ?_⟩
        rw [onPreferences, Database.SharedPreferencesBackup.importJson, read]
        rfl

theorem applyPreferences_decoded (uninterrupted : course.exception ≠ some .preferences)
    (decode : PreferencesDecode libraries texts app.preferences) :
    ∃ imported, applyPreferences libraries texts course app =
      (.ok (), { app with preferences := imported }) := by
  obtain ⟨imported, read⟩ := decode
  refine ⟨imported, (Effect.bind_of_ok (interrupt_of_ne uninterrupted)).trans ?_⟩
  rw [onPreferences, Database.SharedPreferencesBackup.importJson, read]
  rfl

theorem applyQuarkDav_absent (absent : texts.quarkDavJson = none) :
    applyQuarkDav libraries texts course app = (.ok (), app) := by
  rw [applyQuarkDav, absent]
  rfl

theorem applyQuarkDav_interrupted (isThere : texts.quarkDavJson ≠ none)
    (interrupted : course.exception = some .quarkDav) :
    applyQuarkDav libraries texts course app = (.error .other, app) := by
  rw [applyQuarkDav]
  cases isText : texts.quarkDavJson with
  | none => exact absurd isText isThere
  | some quarkDavJson => exact Effect.bind_of_error (interrupt_of_eq interrupted)

/-- The remotes of a package that has passed are accepted, and would be again. -/
theorem applyQuarkDav_valid (isThere : texts.quarkDavJson ≠ none)
    (uninterrupted : course.exception ≠ some .quarkDav)
    (valid : validateBackup libraries texts.quarkDavJson = .ok ()) :
    ∃ imported : Directory,
      QuarkDav.ImportableList libraries.cases (QuarkDav.list libraries.cases imported.remotes) ∧
        applyQuarkDav libraries texts course app = (.ok (), { app with quarkDav := imported }) := by
  rw [applyQuarkDav]
  cases isText : texts.quarkDavJson with
  | none => exact absurd isText isThere
  | some quarkDavJson =>
      rw [isText, validateBackup] at valid
      cases parsed : QuarkDav.parseBackup libraries.cases libraries.backupJson quarkDavJson with
      | error message =>
          rw [parsed] at valid
          cases valid
      | ok imported =>
          refine ⟨⟨QuarkDav.written imported, ∅, ∅⟩, QuarkDav.importableList_imported parsed,
            (Effect.bind_of_ok (interrupt_of_ne uninterrupted)).trans ?_⟩
          rw [onQuarkDav, QuarkDav.replaceFromBackup, parsed]
          rfl

/-- What the steps leave behind, whether or not they come to the end. -/
structure Reached (libraries : Libraries) (texts : MetadataTexts) (course : Course κ)
    (app reached : AppState κ) : Prop where
  conf : reached.conf = app.conf
  sound : reached.database.Sound
  replaced : Replaces libraries texts course app.preferences →
    QuarkDav.ImportableList libraries.cases
      (QuarkDav.list libraries.cases reached.quarkDav.remotes)
  kept : ¬Replaces libraries texts course app.preferences → reached.quarkDav = app.quarkDav

theorem exception_eq_none (database : course.exception ≠ some .database)
    (preferences : course.exception ≠ some .preferences)
    (quarkDav : course.exception ≠ some .quarkDav) : course.exception = none := by
  cases exception : course.exception with
  | none => rfl
  | some step =>
      cases step with
      | database => exact absurd exception database
      | preferences => exact absurd exception preferences
      | quarkDav => exact absurd exception quarkDav

/-- The last step, after the other two have succeeded. -/
theorem applyQuarkDav_reached (database : course.exception ≠ some .database)
    (uninterrupted : course.exception ≠ some .preferences)
    (decode : PreferencesDecode libraries texts app.preferences)
    (valid : validateBackup libraries texts.quarkDavJson = .ok ())
    (middle : AppState κ) (conf : middle.conf = app.conf) (sound : middle.database.Sound)
    (same : middle.quarkDav = app.quarkDav) :
    Reached libraries texts course app (applyQuarkDav libraries texts course middle).2 ∧
      ((applyQuarkDav libraries texts course middle).1 = .ok () ↔
        Applies libraries texts course app.preferences) := by
  by_cases absent : texts.quarkDavJson = none
  · rw [applyQuarkDav_absent absent]
    refine ⟨⟨conf, sound, fun replaces => absurd absent replaces.isThere, fun _ => same⟩, ?_⟩
    exact iff_of_true rfl ⟨database, uninterrupted, decode, Or.inl absent⟩
  · by_cases interrupted : course.exception = some .quarkDav
    · rw [applyQuarkDav_interrupted absent interrupted]
      refine ⟨⟨conf, sound, fun replaces => ?_, fun _ => same⟩, iff_of_false nofun ?_⟩
      · rw [replaces.exception] at interrupted
        cases interrupted
      · rintro ⟨_, _, _, absent' | uninterrupted'⟩
        · exact absent absent'
        · exact uninterrupted' interrupted
    · obtain ⟨imported, importable, applied⟩ :=
        @applyQuarkDav_valid κ libraries texts course middle absent interrupted valid
      rw [applied]
      have exception := exception_eq_none database uninterrupted interrupted
      refine ⟨⟨conf, sound, fun _ => importable, fun kept => ?_⟩, ?_⟩
      · exact absurd ⟨exception, decode, absent⟩ kept
      · exact iff_of_true rfl ⟨database, uninterrupted, decode, Or.inr interrupted⟩

/-- The database is not touched, or it has been replaced by a sound one. -/
theorem applyMetadata_cases
    (database : Database.Importer.validateJson libraries.json.toJsonLibrary texts.databaseJson =
      .ok ())
    (quarkDav : validateBackup libraries texts.quarkDavJson = .ok ()) :
    course.exception = some .database ∧
        applyMetadata libraries texts course app = (.error .other, app) ∨
      course.exception ≠ some .database ∧
        Reached libraries texts course app (applyMetadata libraries texts course app).2 ∧
          ((applyMetadata libraries texts course app).1 = .ok () ↔
            Applies libraries texts course app.preferences) := by
  by_cases interrupted : course.exception = some .database
  · exact Or.inl ⟨interrupted, Effect.bind_of_error (applyDatabase_interrupted interrupted)⟩
  · refine Or.inr ⟨interrupted, ?_⟩
    obtain ⟨imported, sound, applied⟩ :=
      @applyDatabase_valid κ libraries texts course app interrupted database
    have first : applyMetadata libraries texts course app =
        (applyPreferences libraries texts course >>= fun _ =>
          applyQuarkDav libraries texts course) { app with database := imported } :=
      Effect.bind_of_ok applied
    rw [first]
    by_cases decoded : course.exception ≠ some .preferences ∧
        PreferencesDecode libraries texts app.preferences
    · obtain ⟨preferences, decodes⟩ := @applyPreferences_decoded κ libraries texts course
        { app with database := imported } decoded.1 decoded.2
      rw [Effect.bind_of_ok decodes]
      exact applyQuarkDav_reached interrupted decoded.1 decoded.2 quarkDav _ rfl sound rfl
    · obtain ⟨error, refused⟩ := @applyPreferences_refused κ libraries texts course
        { app with database := imported } decoded
      rw [Effect.bind_of_error refused]
      refine ⟨⟨rfl, sound, fun replaces => ?_, fun _ => rfl⟩, iff_of_false nofun ?_⟩
      · refine absurd ⟨?_, replaces.decode⟩ decoded
        rw [replaces.exception]
        exact nofun
      · exact fun applies => decoded ⟨applies.uninterrupted, applies.decode⟩

/-! ## What a restore does -/

/-- The JSON libraries read back what they print for the stores as they are. -/
structure Libraries.Faithful (libraries : Libraries) (app : AppState κ) : Prop where
  database : Database.Faithful libraries.json.toJsonLibrary app.database.allTasks
    app.database.allTrigger
  preferences : Database.SharedPreferencesBackup.Faithful libraries.json app.preferences
  quarkDav : libraries.backupJson.Faithful
    { remotes := QuarkDav.list libraries.cases app.quarkDav.remotes }

/-- The texts that are restored are those of the stores before the import. -/
structure Snapshot (libraries : Libraries) (app : AppState κ) (prepared : Prepared) : Prop where
  database : prepared.previousDatabaseJson =
    Database.Exporter.create libraries.json.toJsonLibrary app.database
  preferences : Database.SharedPreferencesBackup.exportJson libraries.json app.preferences =
    .ok prepared.previousPreferencesJson
  quarkDav : prepared.previousQuarkDavJson =
    QuarkDav.exportBackup libraries.cases libraries.backupJson app.quarkDav

theorem snapshot_of_export (exported : exportMetadata libraries texts app = .ok prepared) :
    Snapshot libraries app prepared ∧ prepared.texts = texts := by
  unfold exportMetadata at exported
  cases preferences : Database.SharedPreferencesBackup.exportJson libraries.json
      app.preferences with
  | error error =>
      rw [preferences] at exported
      cases exported
  | ok previousPreferencesJson =>
      rw [preferences] at exported
      cases exported
      exact ⟨⟨rfl, preferences, rfl⟩, rfl⟩

/-- A package that is prepared has passed the validation. -/
theorem of_prepare {package : ConfigPackage}
    (isPrepared : prepare libraries package course app = .ok prepared) :
    Database.Importer.validateJson libraries.json.toJsonLibrary prepared.texts.databaseJson =
        .ok () ∧
      validateBackup libraries prepared.texts.quarkDavJson = .ok () ∧
        Snapshot libraries app prepared := by
  obtain ⟨texts, _, isPrepared⟩ := exists_of_bind_eq_ok isPrepared
  obtain ⟨_, validated, isPrepared⟩ := exists_of_bind_eq_ok isPrepared
  obtain ⟨_, _, isPrepared⟩ := exists_of_bind_eq_ok isPrepared
  obtain ⟨snapshot, rfl⟩ := snapshot_of_export isPrepared
  obtain ⟨_, database, validated⟩ :=
    exists_of_bind_eq_ok (eq_ok_of_mapError validated)
  obtain ⟨_, _, quarkDav⟩ := exists_of_bind_eq_ok validated
  exact ⟨eq_ok_of_mapError database, quarkDav, snapshot⟩

/-- The export of a database that is not sound is refused, and nothing is restored. -/
theorem restoreMetadata_unsound (snapshot : Snapshot libraries app prepared)
    (faithful : libraries.Faithful app) (unsound : ¬app.database.Sound) :
    restoreMetadata libraries prepared reached = reached := by
  have refused : Database.Importer.validateJson libraries.json.toJsonLibrary
      prepared.previousDatabaseJson ≠ .ok () := by
    rw [snapshot.database]
    exact fun accepted => unsound ((Database.validateJson_create_iff faithful.database).mp accepted)
  obtain ⟨error, same⟩ := Database.importJson_of_invalid refused reached.database
  unfold restoreMetadata
  have first : onDatabase (Database.Importer.importJson libraries.json.toJsonLibrary
      prepared.previousDatabaseJson) reached = (.error (.json error), reached) := by
    rw [onDatabase, same]
    rfl
  dsimp only
  rw [Effect.bind_of_error first]

/-- The export of a sound database is imported, and the other two after it. -/
theorem restoreMetadata_sound (snapshot : Snapshot libraries app prepared)
    (faithful : libraries.Faithful app) (sound : app.database.Sound) :
    ∃ database preferences,
      (database.allTasks = app.database.allTasks ∧
        database.allTrigger = app.database.allTrigger) ∧
      (∀ key, preferences.lookup key =
        (app.preferences.lookup key).map Database.SharedPreferencesBackup.settled) ∧
      restoreMetadata libraries prepared reached = { reached with
        database, preferences,
        quarkDav := (QuarkDav.replaceFromBackup libraries.cases libraries.backupJson
          reached.quarkDav prepared.previousQuarkDavJson).2 } := by
  obtain ⟨database, imported, tasks, triggers⟩ :=
    ((Database.backupLaw_iff_sound faithful.database).mpr sound).restored reached.database
  obtain ⟨preferences, importedToo, lookups⟩ :=
    Database.SharedPreferencesBackup.importJson_exportJson faithful.preferences
      snapshot.preferences reached.preferences
  refine ⟨database, preferences, ⟨tasks, triggers⟩, lookups, ?_⟩
  have first : onDatabase (Database.Importer.importJson libraries.json.toJsonLibrary
      prepared.previousDatabaseJson) reached = (.ok (), { reached with database }) := by
    rw [onDatabase, snapshot.database, imported]
    rfl
  have second : onPreferences (Database.SharedPreferencesBackup.importJson libraries.json
      prepared.previousPreferencesJson) { reached with database } =
        (.ok (), { reached with database, preferences }) := by
    rw [onPreferences, importedToo]
    rfl
  unfold restoreMetadata
  dsimp only
  rw [Effect.bind_of_ok first, Effect.bind_of_ok second]
  rfl

/-- What an import has applied can be taken back: either nothing has been applied and
the restoring is refused, or the export of each store restores it. -/
def Recoverable (libraries : Libraries) (texts : MetadataTexts) (course : Course κ)
    (app : AppState κ) : Prop :=
  course.exception = some .database ∧ ¬app.database.Sound ∨
    app.database.Sound ∧
      (∀ key bits, app.preferences.lookup key = some (.float bits) → bits ≠ 0x80000000) ∧
      (QuarkDav.Restorable libraries.cases app.quarkDav.remotes ∨
        ¬QuarkDav.ImportableList libraries.cases
            (QuarkDav.list libraries.cases app.quarkDav.remotes) ∧
          ¬Replaces libraries texts course app.preferences)

theorem settled_lookups_iff {preferences : Preferences} :
    (∀ key, (preferences.lookup key).map Database.SharedPreferencesBackup.settled =
        preferences.lookup key) ↔
      ∀ key bits, preferences.lookup key = some (.float bits) → bits ≠ 0x80000000 := by
  constructor
  · rintro settled key bits found rfl
    have same := settled key
    rw [found] at same
    exact absurd same (by decide)
  · intro ordinary key
    cases found : preferences.lookup key with
    | none => rfl
    | some value =>
        cases value with
        | float bits =>
            simp [Database.SharedPreferencesBackup.settled, ordinary key bits found]
        | boolean value => rfl
        | int value => rfl
        | long value => rfl
        | string value => rfl
        | stringSet value => rfl

/-- Whether the list of the remotes comes back. -/
theorem list_restored_iff (snapshot : Snapshot libraries app prepared)
    (faithful : libraries.Faithful app) (stored : QuarkDav.Sound app.quarkDav.remotes)
    (replaced : Replaces libraries texts course app.preferences →
      QuarkDav.ImportableList libraries.cases
        (QuarkDav.list libraries.cases reached.quarkDav.remotes))
    (kept : ¬Replaces libraries texts course app.preferences →
      reached.quarkDav = app.quarkDav) :
    QuarkDav.list libraries.cases (QuarkDav.replaceFromBackup libraries.cases
        libraries.backupJson reached.quarkDav prepared.previousQuarkDavJson).2.remotes =
          QuarkDav.list libraries.cases app.quarkDav.remotes ↔
      QuarkDav.Restorable libraries.cases app.quarkDav.remotes ∨
        ¬QuarkDav.ImportableList libraries.cases
            (QuarkDav.list libraries.cases app.quarkDav.remotes) ∧
          ¬Replaces libraries texts course app.preferences := by
  rw [snapshot.quarkDav, ← QuarkDav.restored_iff_restorable stored]
  by_cases importable : QuarkDav.ImportableList libraries.cases
      (QuarkDav.list libraries.cases app.quarkDav.remotes)
  · rw [(QuarkDav.replaceFromBackup_exportBackup faithful.quarkDav reached.quarkDav _).mpr
      ⟨importable, rfl⟩]
    simp [importable]
  · have refused : (QuarkDav.replaceFromBackup libraries.cases libraries.backupJson
        reached.quarkDav (QuarkDav.exportBackup libraries.cases libraries.backupJson
          app.quarkDav)).2 = reached.quarkDav := by
      unfold QuarkDav.replaceFromBackup
      cases parsed : QuarkDav.parseBackup libraries.cases libraries.backupJson
          (QuarkDav.exportBackup libraries.cases libraries.backupJson app.quarkDav) with
      | error message => rfl
      | ok imported =>
          have accepted := (QuarkDav.replaceFromBackup_exportBackup faithful.quarkDav
            reached.quarkDav ⟨QuarkDav.written imported, ∅, ∅⟩).mp (by
              rw [QuarkDav.replaceFromBackup, parsed])
          exact absurd accepted.1 importable
    rw [refused]
    simp only [importable, false_and, not_false_eq_true, true_and, false_or]
    constructor
    · intro same replaces
      exact importable (same ▸ replaced replaces)
    · intro notReplaced
      rw [kept notReplaced]

/-- What is restored from the state in which the steps have stopped. -/
theorem unchanged_restored_iff (snapshot : Snapshot libraries app prepared)
    (faithful : libraries.Faithful app) (stored : QuarkDav.Sound app.quarkDav.remotes)
    (sound : app.database.Sound) (conf : reached.conf = app.conf)
    (replaced : Replaces libraries texts course app.preferences →
      QuarkDav.ImportableList libraries.cases
        (QuarkDav.list libraries.cases reached.quarkDav.remotes))
    (kept : ¬Replaces libraries texts course app.preferences →
      reached.quarkDav = app.quarkDav) :
    Unchanged libraries.cases app (restoreMetadata libraries prepared reached) ↔
      Recoverable libraries texts course app := by
  obtain ⟨database, preferences, ⟨tasks, triggers⟩, lookups, restored⟩ :=
    @restoreMetadata_sound κ libraries app reached prepared snapshot faithful sound
  have remotes := list_restored_iff snapshot faithful stored replaced kept
  rw [restored]
  constructor
  · intro unchanged
    refine Or.inr ⟨sound, settled_lookups_iff.mp fun key => ?_, remotes.mp unchanged.quarkDav⟩
    rw [← lookups key]
    exact unchanged.preferences key
  · rintro (⟨_, unsound⟩ | ⟨_, ordinary, list⟩)
    · exact absurd sound unsound
    · refine ⟨tasks, triggers, fun key => ?_, remotes.mpr list, conf⟩
      exact (lookups key).trans (settled_lookups_iff.mpr ordinary key)

/-- A failed import of a prepared package has changed nothing exactly where it can be
taken back. -/
theorem unchanged_failed_iff {package : ConfigPackage}
    (isPrepared : prepare libraries package course app = .ok prepared)
    (faithful : libraries.Faithful app) (stored : QuarkDav.Sound app.quarkDav.remotes)
    (stopped : course.exception = some .database ∧ reached = app ∨
      course.exception ≠ some .database ∧ Reached libraries prepared.texts course app reached) :
    Unchanged libraries.cases app (restoreMetadata libraries prepared reached) ↔
      Recoverable libraries prepared.texts course app := by
  obtain ⟨_, _, snapshot⟩ := of_prepare isPrepared
  by_cases sound : app.database.Sound
  · rcases stopped with ⟨interrupted, rfl⟩ | ⟨_, reached⟩
    · refine unchanged_restored_iff snapshot faithful stored sound rfl (fun replaces => ?_)
        fun _ => rfl
      rw [replaces.exception] at interrupted
      cases interrupted
    · exact unchanged_restored_iff snapshot faithful stored sound reached.conf reached.replaced
        reached.kept
  · rw [restoreMetadata_unsound snapshot faithful sound]
    rcases stopped with ⟨interrupted, rfl⟩ | ⟨uninterrupted, reached⟩
    · exact iff_of_true ⟨rfl, rfl, fun _ => rfl, rfl, rfl⟩ (Or.inl ⟨interrupted, sound⟩)
    · refine iff_of_false (fun unchanged => sound ?_) ?_
      · exact Database.sound_of_lists unchanged.tasks.symm unchanged.triggers.symm reached.sound
      · rintro (⟨interrupted, _⟩ | ⟨isSound, _⟩)
        · exact uninterrupted interrupted
        · exact sound isSound

/-- The import comes to its end. -/
def Completes (libraries : Libraries) (texts : MetadataTexts) (course : Course κ)
    (preferences : Preferences) : Prop :=
  Applies libraries texts course preferences ∧ ∃ conf, course.copy = .copied conf

theorem importPrepared_atomic_iff {package : ConfigPackage}
    (isPrepared : prepare libraries package course app = .ok prepared)
    (faithful : libraries.Faithful app) (stored : QuarkDav.Sound app.quarkDav.remotes) :
    ((importPrepared libraries prepared course app).1 ≠ .success →
        Unchanged libraries.cases app (importPrepared libraries prepared course app).2) ↔
      Completes libraries prepared.texts course app.preferences ∨
        Recoverable libraries prepared.texts course app := by
  obtain ⟨database, quarkDav, _⟩ := of_prepare isPrepared
  have cases := @applyMetadata_cases κ libraries prepared.texts course app database quarkDav
  have failed := fun reached => @unchanged_failed_iff κ libraries course app reached prepared
    package isPrepared faithful stored
  unfold importPrepared
  rcases applied : applyMetadata libraries prepared.texts course app with ⟨error | _, reached⟩
  · rw [applied] at cases
    have incomplete : ¬Completes libraries prepared.texts course app.preferences := by
      rintro ⟨applies, _⟩
      rcases cases with ⟨interrupted, _⟩ | ⟨_, _, completes⟩
      · exact applies.database interrupted
      · exact nomatch completes.mpr applies
    rw [or_iff_right incomplete]
    simp only [ne_eq, reduceCtorEq, not_false_eq_true, forall_const]
    apply failed
    rcases cases with ⟨interrupted, same⟩ | ⟨uninterrupted, stopped, _⟩
    · exact Or.inl ⟨interrupted, congrArg Prod.snd same⟩
    · exact Or.inr ⟨uninterrupted, stopped⟩
  · rw [applied] at cases
    rcases cases with ⟨_, same⟩ | ⟨uninterrupted, stopped, completes⟩
    · cases congrArg Prod.fst same
    · have applies := completes.mp rfl
      have failed := failed reached (Or.inr ⟨uninterrupted, stopped⟩)
      cases copy : course.copy with
      | copied conf => simp [Completes, copy, applies]
      | refused => simpa [Completes, copy] using failed
      | thrown => simpa [Completes, copy] using failed

/-! ## Runs of the application -/

/-- An effect that leaves remotes which a repository can hold. -/
def KeepsRemotes (effect : ImportEffect κ Unit) : Prop :=
  ∀ app : AppState κ, QuarkDav.Sound app.quarkDav.remotes →
    QuarkDav.Sound (effect app).2.quarkDav.remotes

theorem KeepsRemotes.bind {first : ImportEffect κ Unit} {next : Unit → ImportEffect κ Unit}
    (keeps : KeepsRemotes first) (rest : ∀ value, KeepsRemotes (next value)) :
    KeepsRemotes (first >>= next) := by
  intro app sound
  have reachedSound := keeps app sound
  rcases result : first app with ⟨error | value, reached⟩
  · rw [Effect.bind_of_error result]
    simpa [result] using reachedSound
  · rw [Effect.bind_of_ok result]
    exact rest value reached (by simpa [result] using reachedSound)

theorem keepsRemotes_interrupt {step : ApplyStep} : KeepsRemotes (interrupt course step) := by
  intro app sound
  unfold interrupt
  split
  · exact sound
  · exact sound

theorem keepsRemotes_onQuarkDav {content : JavaString} :
    KeepsRemotes (onQuarkDav fun dir => QuarkDav.replaceFromBackup libraries.cases
      libraries.backupJson dir content : ImportEffect κ Unit) :=
  fun _ sound => QuarkDav.sound_call (.replaceFromBackup content) sound

theorem keepsRemotes_applyMetadata :
    KeepsRemotes (applyMetadata libraries texts course) := by
  refine KeepsRemotes.bind (keepsRemotes_interrupt.bind fun _ _ sound => sound) fun _ =>
    KeepsRemotes.bind (keepsRemotes_interrupt.bind fun _ _ sound => sound) fun _ => ?_
  unfold applyQuarkDav
  split
  · exact fun _ sound => sound
  · exact keepsRemotes_interrupt.bind fun _ => keepsRemotes_onQuarkDav

theorem sound_restoreMetadata (sound : QuarkDav.Sound reached.quarkDav.remotes) :
    QuarkDav.Sound (restoreMetadata libraries prepared reached).quarkDav.remotes :=
  KeepsRemotes.bind (fun _ sound => sound) (fun _ =>
    KeepsRemotes.bind (fun _ sound => sound) fun _ => keepsRemotes_onQuarkDav) reached sound

theorem sound_doInBackground (package : ConfigPackage) (course : Course κ)
    (sound : QuarkDav.Sound app.quarkDav.remotes) :
    QuarkDav.Sound (doInBackground libraries package course app).2.quarkDav.remotes := by
  unfold doInBackground
  cases prepare libraries package course app with
  | error statusCode => exact sound
  | ok prepared =>
      have applied := @keepsRemotes_applyMetadata κ libraries prepared.texts course app sound
      dsimp only
      unfold importPrepared
      rcases result : applyMetadata libraries prepared.texts course app with ⟨error | _, reached⟩
      · rw [result] at applied
        exact sound_restoreMetadata applied
      · rw [result] at applied
        dsimp only
        cases course.copy with
        | copied conf => exact applied
        | refused => exact sound_restoreMetadata applied
        | thrown => exact sound_restoreMetadata applied

theorem sound_stepApp (app : AppState κ) (event : AppEvent κ)
    (sound : QuarkDav.Sound app.quarkDav.remotes) :
    QuarkDav.Sound (stepApp libraries app event).quarkDav.remotes := by
  cases event with
  | database operation => exact sound
  | putPreference key value => exact sound
  | removePreference key => exact sound
  | quarkDav call => exact QuarkDav.sound_call call sound
  | writeConf conf => exact sound
  | importPackage package course => exact sound_doInBackground package course sound

end

/-- In every state that an application can come to, an import is all or nothing exactly
when the package is refused beforehand, the import comes to its end, or what it has
applied can be taken back. -/
theorem import_atomic_iff {κ : Type} (libraries : Libraries) (conf : κ)
    (events : List (AppEvent κ)) (package : ConfigPackage) (course : Course κ)
    (faithful : libraries.Faithful (run (stepApp libraries) (freshApp conf) events)) :
    AllOrNothing libraries package course (run (stepApp libraries) (freshApp conf) events) ↔
      ∀ prepared, prepare libraries package course
          (run (stepApp libraries) (freshApp conf) events) = .ok prepared →
        Completes libraries prepared.texts course
            (run (stepApp libraries) (freshApp conf) events).preferences ∨
          Recoverable libraries prepared.texts course
            (run (stepApp libraries) (freshApp conf) events) := by
  have initial : QuarkDav.Sound (freshApp conf).quarkDav.remotes := QuarkDav.sound_empty
  have stored := (Always.of_preserved (@sound_stepApp κ libraries) events initial).last
  generalize run (stepApp libraries) (freshApp conf) events = app at faithful stored ⊢
  unfold AllOrNothing doInBackground
  cases isPrepared : prepare libraries package course app with
  | error statusCode => exact iff_of_true (fun _ => ⟨rfl, rfl, fun _ => rfl, rfl, rfl⟩) nofun
  | ok prepared =>
      dsimp only
      rw [importPrepared_atomic_iff isPrepared faithful stored]
      constructor
      · rintro atomic _ ⟨⟩
        exact atomic
      · intro atomic
        exact atomic prepared rfl

/-! ## Two imports whose configuration is refused -/

/-- The document of an application without preferences. -/
def noPreferences : Fields :=
  [("schemaVersion", .number 2), ("preferences", .object [])]

/-- Libraries that know the documents of the two imports. -/
def nightlyLibraries : Libraries where
  cases := asciiCase
  json :=
    { Database.plainJson [Database.Exporter.document [] [],
        Database.Exporter.document [Database.nightlyTask] [],
        Database.Exporter.document [Database.nightlyTask] [Database.nightlyTrigger],
        Database.Exporter.document [] [Database.nightlyTrigger], noPreferences] with
      toBoolean
        | .bool value => some value
        | _ => none
      toLong
        | .number n => some (Int64.ofInt n)
        | _ => none
      toText
        | .string value => some value
        | _ => none
      toFloat _ := none
      ofFloat _ := none
      parseInt _ := none
      intValue _ := 0 }
  backupJson := QuarkDav.jsonOf (List.intercalate ['\n'] (List.map Database.text
    ["\x7b", "    \"schemaVersion\": 1,", "    \"remotes\": []", "\x7d"]))
    { remotes := [] }

/-- A package of an application without tasks and preferences, from an export that has
no remotes. -/
def emptyPackage : ConfigPackage where
  databaseJson := some (Database.Exporter.create nightlyLibraries.json.toJsonLibrary .empty)
  preferencesJson := some (nightlyLibraries.json.print noPreferences)
  quarkDavJson := some none

/-- The package is accepted, but its `rclone.conf` is not. -/
def refusedCopy : Course Unit :=
  ⟨.valid, none, .refused⟩

def nightlyEvents : List (AppEvent Unit) :=
  Database.nightlyRun.map .database

theorem faithful_nightlyLibraries {app : AppState Unit}
    (database : Database.Faithful nightlyLibraries.json.toJsonLibrary app.database.allTasks
      app.database.allTrigger)
    (preferences : app.preferences = ∅) (quarkDav : app.quarkDav = .empty) :
    nightlyLibraries.Faithful app := by
  refine ⟨database, ⟨fun root isDocument => ?_, Database.toInteger_nightlyJson, fun n => ?_,
    fun _ => rfl, fun _ => rfl, nofun⟩, ?_⟩
  · rw [preferences] at isDocument
    cases isDocument
    rfl
  · simp [nightlyLibraries]
  · rw [quarkDav]
    exact QuarkDav.faithful_jsonOf _ _ rfl

set_option maxRecDepth 4000 in
/-- With a task and its trigger, what a refused configuration leaves behind is taken
back. -/
theorem import_atomic_iff_nightly :
    AllOrNothing nightlyLibraries emptyPackage refusedCopy
      (run (stepApp nightlyLibraries) (freshApp ()) nightlyEvents) := by
  refine (import_atomic_iff nightlyLibraries () nightlyEvents emptyPackage refusedCopy ?_).mpr ?_
  · exact faithful_nightlyLibraries ⟨rfl, Database.toInteger_nightlyJson⟩ rfl rfl
  · intro prepared _
    have guarded : Meets Database.Operation.apply (fun db operation => operation.Guarded db)
        .empty Database.nightlyRun := by
      decide
    have sound : (run (stepApp nightlyLibraries) (freshApp ()) nightlyEvents).database.Sound :=
      ((always_iff_meets_of_step (fun _ _ => Database.sound_apply_iff)
        Database.sound_empty).mpr guarded).last
    refine Or.inr (Or.inr ⟨sound, fun key bits found => ?_, Or.inl ?_⟩)
    · cases found
    · constructor
      · intro remote found
        cases found
      · intro a b found
        cases found
      · intro remote member
        cases member

set_option maxRecDepth 4000 in
/-- The user deletes the task of the trigger.  The configuration of the package is
refused, then the export of the database is too, and the trigger is gone. -/
theorem deletedTask_import_not_atomic :
    nightlyLibraries.Faithful (run (stepApp nightlyLibraries) (freshApp ())
        (nightlyEvents ++ [.database (.deleteTask 1)])) ∧
      ¬AllOrNothing nightlyLibraries emptyPackage refusedCopy
        (run (stepApp nightlyLibraries) (freshApp ())
          (nightlyEvents ++ [.database (.deleteTask 1)])) := by
  constructor
  · exact faithful_nightlyLibraries ⟨rfl, Database.toInteger_nightlyJson⟩ rfl rfl
  · intro atomic
    have refused : (doInBackground nightlyLibraries emptyPackage refusedCopy
        (run (stepApp nightlyLibraries) (freshApp ())
          (nightlyEvents ++ [.database (.deleteTask 1)]))).1 ≠ .success := by
      decide
    have kept := (atomic refused).triggers
    revert kept
    decide

end RoundSync.Activities
