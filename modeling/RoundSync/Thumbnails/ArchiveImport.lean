import RoundSync.Text.Pattern
import RoundSync.Text.Properties
import RoundSync.Thumbnails.Replacement
import Mathlib.Algebra.GroupWithZero.Nat
import Mathlib.Algebra.Ring.Int.Defs

/-!
# Import of a thumbnail archive

`ThumbnailRepository.importCache`: the entries of an archive are read one after another;
each thumbnail goes to a temporary file and from there into the store.  The counters follow
the replacements that have returned, but an exception drops them: the import then reports
nothing, whatever it has done.
-/

namespace RoundSync.Thumbnails.Archives

open RoundSync.Data
open RoundSync.Text
open RoundSync.Transition

/-! ## Stores -/

inductive CacheType where
  | image
  | video
  deriving DecidableEq

namespace CacheType

def archiveName : CacheType → JavaString
  | .image => "image".toList
  | .video => "video".toList

def cacheVersion : CacheType → JavaString
  | .image => "image-adapt-extract-v1".toList
  | .video => "video-third-dynamic-v1".toList

def archiveThumbnailPrefix : CacheType → JavaString
  | .image => "image-thumbnails/".toList
  | .video => "video-thumbnails/".toList

end CacheType

def archiveManifestEntry : JavaString := "thumbnail-cache.properties".toList

def archiveFormatVersion : JavaString := "1".toList

def propertyFormatVersion : JavaString := "formatVersion".toList

def propertyCacheVersion : JavaString := "cacheVersion".toList

def propertyCacheType : JavaString := "cacheType".toList

def maxImportedThumbnailBytes : Nat := 64 * 1024 * 1024

def maxArchiveManifestBytes : Nat := 64 * 1024

def maxImportedArchiveBytes : Nat := 8 * 1024 * 1024 * 1024

def maxImportedEntryCount : Nat := 1000000

def hexDigit (c : Char) : Bool :=
  ('0' ≤ c && c ≤ '9') || ('a' ≤ c && c ≤ 'f')

def thumbnailExtension : JavaString := ".thumb".toList

/-- `[0-9a-f]{64}\.thumb` -/
def thumbnailFilePattern : Pattern Char :=
  .seq (.times (.one hexDigit) 64) (.word thumbnailExtension)

def isThumbnailName (name : JavaString) : Bool :=
  thumbnailFilePattern.accepts name

/-- The thumbnail of this name in the store. -/
def thumbnail (name : JavaString) : File :=
  ⟨.directory, name⟩

def getArchiveThumbnailFileName (type : CacheType) (entryName : JavaString) : Option JavaString :=
  if type.archiveThumbnailPrefix.isPrefixOf entryName = false then none
  else
    let fileName := entryName.drop type.archiveThumbnailPrefix.length
    if fileName.isEmpty || fileName.contains '/' || fileName.contains '\\' ||
        !isThumbnailName fileName then none
    else some fileName

def longMax : Nat := 2 ^ 63 - 1

def saturatedAdd (left right : Nat) : Nat :=
  if right = 0 then left else if longMax - left < right then longMax else left + right

inductive CacheArchiveError where
  | none
  | ioError
  | invalidArchive
  | incompatibleCacheVersion
  | emptyArchive
  deriving DecidableEq

structure CacheImportResult where
  successful : Bool
  addedCount : Nat
  replacedCount : Nat
  skippedCount : Nat
  totalBytes : Nat
  error : CacheArchiveError
  deriving DecidableEq

/-! ## Archives -/

/-- An entry as the reader of the archive delivers it: `failure` ends its data, and
`closeFailure` its closing. -/
structure ZipEntry where
  name : JavaString
  size : Int
  chunks : List (List UInt8)
  failure : Option ImportException
  closeFailure : Option ImportException

/-- What becomes of the calls for one entry: the part of the temporary file's name that is
made up, what a failing copy leaves in it, and the replacement. -/
structure EntryFates where
  temporary : Option JavaString
  copyFails : Option (List UInt8)
  partialCopy : List UInt8
  replacement : ReplacementFates
  deletesTemporary : Bool

structure Archive where
  openFailure : Option ImportException
  entries : List (ZipEntry × EntryFates)
  ending : Option ImportException
  closeFailure : Option ImportException

def isDirectory (name : JavaString) : Bool :=
  name.getLast? = some '/'

/-- An entry that is too large, or another exception of its data. -/
inductive EntryException where
  | tooLarge
  | other (exception : ImportException)
  deriving DecidableEq

/-- The loop that reads an entry, buffer by buffer. -/
def readBuffers (maximumBytes : Nat) (failure : Option ImportException) :
    List UInt8 → List (List UInt8) → Except EntryException (List UInt8)
  | output, [] =>
      match failure with
      | none => .ok output
      | some exception => .error (.other exception)
  | output, buffer :: rest =>
      if buffer.isEmpty then readBuffers maximumBytes failure output rest
      else if maximumBytes < output.length + buffer.length then .error .tooLarge
      else readBuffers maximumBytes failure (output ++ buffer) rest

def readZipEntryBytes (entry : ZipEntry) (maximumBytes : Nat) : Except EntryException (List UInt8) :=
  readBuffers maximumBytes entry.failure [] entry.chunks

def discardZipEntry (entry : ZipEntry) (maximumBytes : Nat) : Except EntryException Nat :=
  (readBuffers maximumBytes entry.failure [] entry.chunks).map List.length

/-! ## The import -/

/-- The files, and the replacements that have returned, latest first, each with the name of
its thumbnail and whether there was a file. -/
structure ImportState where
  disk : Disk
  completed : List (JavaString × Bool)

/-- A computation on the files alone. -/
def onDisk {ε α : Type} (first : Effect Disk ε α) : Effect ImportState ε α := fun state =>
  ((first state.disk).1, { state with disk := (first state.disk).2 })

/-- Go on, or throw the exception that comes here. -/
def failing (exception : Option ImportException) : Effect ImportState ImportException PUnit :=
  match exception with
  | none => pure .unit
  | some exception => .fail exception

def temporaryFile (made : JavaString) : File :=
  ⟨.workDirectory, "thumbnail_import_".toList ++ made ++ ".tmp".toList⟩

def write (file : File) (bytes : List UInt8) : Effect ImportState ImportException PUnit :=
  .update fun state => { state with disk := Function.update state.disk file (some bytes) }

/-- The number of bytes, or nothing for an entry that is too large. -/
def copyZipEntryToFile (entry : ZipEntry) (fates : EntryFates) (destination : File)
    (maximumBytes : Nat) : Effect ImportState ImportException (Option Nat) := do
  match fates.copyFails with
  | some left =>
      write destination left
      .fail .io
  | none =>
      match readBuffers maximumBytes entry.failure [] entry.chunks with
      | .ok bytes =>
          write destination bytes
          pure (some bytes.length)
      | .error .tooLarge =>
          write destination fates.partialCopy
          pure none
      | .error (.other exception) =>
          write destination fates.partialCopy
          .fail exception

structure Counts where
  addedCount : Nat
  replacedCount : Nat
  skippedCount : Nat
  entryCount : Nat
  importedBytes : Nat
  processedArchiveBytes : Nat

/-- The result of an import that stops at a limit. -/
def Counts.invalidArchive (counts : Counts) : CacheImportResult where
  successful := false
  addedCount := counts.addedCount
  replacedCount := counts.replacedCount
  skippedCount := counts.skippedCount
  totalBytes := counts.importedBytes
  error := .invalidArchive

/-- The loop goes on with its counters, or the method returns. -/
inductive Progress where
  | goesOn (counts : Counts)
  | returns (result : CacheImportResult)

def skipEntry (entry : ZipEntry) (counts : Counts) :
    Effect ImportState ImportException Progress := do
  match discardZipEntry entry maxImportedThumbnailBytes with
  | .error .tooLarge => pure (.returns counts.invalidArchive)
  | .error (.other exception) => .fail exception
  | .ok discardedBytes =>
      let counts := { counts with
        processedArchiveBytes := saturatedAdd counts.processedArchiveBytes discardedBytes }
      if maxImportedArchiveBytes < counts.processedArchiveBytes then
        pure (.returns counts.invalidArchive)
      else do
        let counts := { counts with skippedCount := counts.skippedCount + 1 }
        failing entry.closeFailure
        pure (.goesOn counts)

/-- A temporary file takes its place in the store. -/
def storeThumbnail (decodes : List UInt8 → Bool) (fates : EntryFates) (temporary : File)
    (fileName : JavaString) (copiedBytes : Nat) (counts : Counts) :
    Effect ImportState ImportException Progress := do
  let state ← Effect.read
  let replaced := (state.disk (thumbnail fileName)).isSome
  onDisk (replaceImportedThumbnailLocked decodes fates.replacement temporary (thumbnail fileName))
  Effect.update fun state => { state with completed := (fileName, replaced) :: state.completed }
  let counts := { counts with importedBytes := saturatedAdd counts.importedBytes copiedBytes }
  if replaced = true then
    pure (.goesOn { counts with replacedCount := counts.replacedCount + 1 })
  else
    pure (.goesOn { counts with addedCount := counts.addedCount + 1 })

/-- The `try` block of a thumbnail's entry. -/
def importFile (decodes : List UInt8 → Bool) (entry : ZipEntry) (fates : EntryFates)
    (temporary : File) (fileName : JavaString) (counts : Counts) :
    Effect ImportState ImportException Progress := do
  match ← copyZipEntryToFile entry fates temporary maxImportedThumbnailBytes with
  | none => pure (.returns counts.invalidArchive)
  | some copiedBytes => do
      failing entry.closeFailure
      let counts := { counts with
        processedArchiveBytes := saturatedAdd counts.processedArchiveBytes copiedBytes }
      if maxImportedArchiveBytes < counts.processedArchiveBytes then
        pure (.returns counts.invalidArchive)
      else do
        let state ← Effect.read
        if copiedBytes = 0 ∨ isUsableThumbnail decodes state.disk temporary = false then
          pure (.goesOn { counts with skippedCount := counts.skippedCount + 1 })
        else storeThumbnail decodes fates temporary fileName copiedBytes counts

/-- A thumbnail's entry: whatever becomes of it, its temporary file is deleted. -/
def importThumbnail (decodes : List UInt8 → Bool) (entry : ZipEntry) (fates : EntryFates)
    (fileName : JavaString) (counts : Counts) : Effect ImportState ImportException Progress := do
  match fates.temporary with
  | none => .fail .io
  | some made => do
      write (temporaryFile made) []
      let outcome ← Effect.attempt
        (importFile decodes entry fates (temporaryFile made) fileName counts)
      onDisk (Files.deleteQuietly fates.deletesTemporary (temporaryFile made))
      match outcome with
      | .ok progress => pure progress
      | .error exception => .fail exception

/-- One turn of the loop. -/
def importEntry (decodes : List UInt8 → Bool) (type : CacheType) (entry : ZipEntry)
    (fates : EntryFates) (counts : Counts) : Effect ImportState ImportException Progress := do
  if isDirectory entry.name then do
    failing entry.closeFailure
    pure (.goesOn counts)
  else
    let counts := { counts with entryCount := counts.entryCount + 1 }
    if maxImportedEntryCount < counts.entryCount then pure (.returns counts.invalidArchive)
    else if (maxImportedThumbnailBytes : Int) < entry.size then
      pure (.returns counts.invalidArchive)
    else
      match getArchiveThumbnailFileName type entry.name with
      | none => skipEntry entry counts
      | some fileName => importThumbnail decodes entry fates fileName counts

def importEntries (decodes : List UInt8 → Bool) (type : CacheType)
    (ending : Option ImportException) :
    List (ZipEntry × EntryFates) → Counts → Effect ImportState ImportException Progress
  | [], counts => do
      failing ending
      pure (.goesOn counts)
  | (entry, fates) :: rest, counts => do
      match ← importEntry decodes type entry fates counts with
      | .returns result => pure (.returns result)
      | .goesOn counts => importEntries decodes type ending rest counts

def nextNonDirectoryEntry (ending : Option ImportException) :
    List (ZipEntry × EntryFates) →
      Effect ImportState ImportException (Option (ZipEntry × List (ZipEntry × EntryFates)))
  | [] => do
      failing ending
      pure none
  | (entry, _) :: rest =>
      if isDirectory entry.name then do
        failing entry.closeFailure
        nextNonDirectoryEntry ending rest
      else pure (some (entry, rest))

/-- The result of an import that stops before its first thumbnail. -/
def refused (error : CacheArchiveError) : CacheImportResult where
  successful := false
  addedCount := 0
  replacedCount := 0
  skippedCount := 0
  totalBytes := 0
  error := error

/-- The manifest, or the result of an import that has none. -/
def readManifest (type : CacheType) (entry : ZipEntry) :
    Effect ImportState ImportException (Option CacheImportResult) := do
  match readZipEntryBytes entry maxArchiveManifestBytes with
  | .error .tooLarge => pure (some (refused .invalidArchive))
  | .error (.other exception) => .fail exception
  | .ok manifestData =>
      match Properties.load (Properties.ofLatin1 manifestData) with
      | none => pure (some (refused .invalidArchive))
      | some manifest => do
          failing entry.closeFailure
          if Properties.getProperty manifest propertyFormatVersion ≠ some archiveFormatVersion then
            pure (some (refused .invalidArchive))
          else if Properties.getProperty manifest propertyCacheVersion ≠ some type.cacheVersion ∨
              Properties.getProperty manifest propertyCacheType ≠ some type.archiveName then
            pure (some (refused .incompatibleCacheVersion))
          else pure none

/-- The result at the end of the entries. -/
def Counts.result (counts : Counts) : CacheImportResult :=
  if counts.addedCount + counts.replacedCount = 0 then
    { refused .emptyArchive with
      skippedCount := counts.skippedCount
      totalBytes := counts.importedBytes }
  else ⟨true, counts.addedCount, counts.replacedCount, counts.skippedCount, counts.importedBytes,
    .none⟩

/-- The `try` block over the open archive. -/
def importArchive (decodes : List UInt8 → Bool) (type : CacheType) (archive : Archive) :
    Effect ImportState ImportException CacheImportResult := do
  match ← nextNonDirectoryEntry archive.ending archive.entries with
  | none => pure (refused .invalidArchive)
  | some (entry, rest) =>
      if entry.name ≠ archiveManifestEntry then pure (refused .invalidArchive)
      else do
        match ← readManifest type entry with
        | some result => pure result
        | none =>
            match ← importEntries decodes type archive.ending rest ⟨0, 0, 0, 0, 0, 0⟩ with
            | .returns result => pure result
            | .goesOn counts => pure counts.result

def importCacheInternal (decodes : List UInt8 → Bool) (type : CacheType) (archive : Archive) :
    Effect ImportState ImportException CacheImportResult := do
  failing archive.openFailure
  let result ← importArchive decodes type archive
  failing archive.closeFailure
  pure result

/-- A trim deletes thumbnails only. -/
def trimDiskCache (trims : File → Bool) (disk : Disk) : Disk := fun file =>
  if file.parent = .directory ∧ isThumbnailName file.name = true ∧ trims file = true then none
  else disk file

/-- What is reported for an import that ends in this way. -/
def reportOf : Except ImportException CacheImportResult → CacheImportResult
  | .ok result => result
  | .error .zip => refused .invalidArchive
  | .error .io | .error .runtime => refused .ioError

def importCache (decodes : List UInt8 → Bool) (type : CacheType) (archive : Archive)
    (trims : File → Bool) (disk : Disk) : CacheImportResult × Disk :=
  let run := importCacheInternal decodes type archive ⟨disk, []⟩
  (reportOf run.1, trimDiskCache trims run.2.disk)

/-! ## Names of thumbnails -/

theorem isThumbnailName_iff {name : JavaString} :
    isThumbnailName name = true ↔ ∃ digits, name = digits ++ thumbnailExtension ∧
      digits.length = 64 ∧ ∀ c ∈ digits, hexDigit c = true := by
  rw [isThumbnailName, Pattern.accepts_iff]
  constructor
  · intro described
    cases described with
    | seq left right =>
        rw [Pattern.word_iff.mp right]
        exact ⟨_, rfl, Pattern.times_one_iff.mp left⟩
  · rintro ⟨digits, rfl, long, all⟩
    exact .seq (Pattern.times_one_iff.mpr ⟨long, all⟩) (Pattern.word_iff.mpr rfl)

theorem length_of_isThumbnailName {name : JavaString} (isName : isThumbnailName name = true) :
    name.length = 70 := by
  rcases isThumbnailName_iff.mp isName with ⟨digits, rfl, long, _⟩
  rw [List.length_append, long]
  rfl

def IsThumbnail (file : File) : Prop :=
  file.parent = .directory ∧ isThumbnailName file.name = true

/-- The files that the import makes for its own use. -/
inductive IsWorkingFile : File → Prop
  | temporary (made : JavaString) : IsWorkingFile (temporaryFile made)
  | staging {file : File} (stages : IsThumbnail file) : IsWorkingFile (staging file)
  | backup {file : File} (backs : IsThumbnail file) : IsWorkingFile (backup file)

theorem staging_ne_thumbnail {name other : JavaString} (isName : isThumbnailName name = true)
    (isOther : isThumbnailName other = true) : thumbnail other ≠ staging (thumbnail name) := by
  intro same
  have lengths := congrArg (fun file => file.name.length) same
  simp [thumbnail, staging, length_of_isThumbnailName isName, length_of_isThumbnailName isOther]
    at lengths

theorem backup_ne_thumbnail {name other : JavaString} (isName : isThumbnailName name = true)
    (isOther : isThumbnailName other = true) : thumbnail other ≠ backup (thumbnail name) := by
  intro same
  have lengths := congrArg (fun file => file.name.length) same
  simp [thumbnail, backup, length_of_isThumbnailName isName, length_of_isThumbnailName isOther]
    at lengths

/-! ## What the replacements have done -/

def addedNames (completed : List (JavaString × Bool)) : List JavaString :=
  (completed.filter fun done => !done.2).map Prod.fst

def replacedNames (completed : List (JavaString × Bool)) : List JavaString :=
  (completed.filter fun done => done.2).map Prod.fst

theorem addedNames_cons {fileName : JavaString} {replaced : Bool}
    {completed : List (JavaString × Bool)} :
    addedNames ((fileName, replaced) :: completed) =
      if replaced = true then addedNames completed else fileName :: addedNames completed := by
  cases replaced with
  | false => rfl
  | true => rfl

theorem mem_of_addedNames {name : JavaString} {completed : List (JavaString × Bool)}
    (added : name ∈ addedNames completed) : name ∈ completed.map Prod.fst := by
  rcases List.mem_map.mp added with ⟨entry, member, rfl⟩
  exact List.mem_map.mpr ⟨entry, (List.mem_filter.mp member).1, rfl⟩

/-- The replacements that have returned account for the thumbnails of the store: the others
are untouched, and the added ones are those that were not there, each added once. -/
structure Recorded (before : Disk) (state : ImportState) : Prop where
  named : ∀ name ∈ state.completed.map Prod.fst, isThumbnailName name = true
  untouched : ∀ name, isThumbnailName name = true → name ∉ state.completed.map Prod.fst →
    state.disk (thumbnail name) = before (thumbnail name)
  present : ∀ name ∈ state.completed.map Prod.fst, (state.disk (thumbnail name)).isSome = true
  addedOnce : (addedNames state.completed).Nodup
  added_iff : ∀ name ∈ state.completed.map Prod.fst,
    name ∈ addedNames state.completed ↔ before (thumbnail name) = none

/-- The files that an import does not touch. -/
def Outside (file : File) : Prop :=
  ¬IsThumbnail file ∧ ¬IsWorkingFile file

variable {before : Disk} {state : ImportState}

namespace Recorded

theorem refl (before : Disk) : Recorded before ⟨before, []⟩ where
  named := fun name member => by cases member
  untouched := fun _ _ _ => rfl
  present := fun name member => by cases member
  addedOnce := List.nodup_nil
  added_iff := fun name member => by cases member

/-- Other files play no part. -/
theorem of_same (recorded : Recorded before state) {disk : Disk}
    (same : ∀ name, disk (thumbnail name) = state.disk (thumbnail name)) :
    Recorded before { state with disk } where
  named := recorded.named
  untouched := fun name isName notDone => (same name).trans (recorded.untouched name isName notDone)
  present := fun name done =>
    (congrArg Option.isSome (same name)).trans (recorded.present name done)
  addedOnce := recorded.addedOnce
  added_iff := recorded.added_iff

/-- One more replacement that has returned. -/
theorem step (recorded : Recorded before state) {fileName : JavaString} {disk : Disk}
    (isName : isThumbnailName fileName = true)
    (written : (disk (thumbnail fileName)).isSome = true)
    (same : ∀ name, isThumbnailName name = true → name ≠ fileName →
      disk (thumbnail name) = state.disk (thumbnail name)) :
    Recorded before ⟨disk, (fileName, (state.disk (thumbnail fileName)).isSome) ::
      state.completed⟩ := by
  constructor
  case named =>
    intro name member
    rcases List.mem_cons.mp member with rfl | done
    · exact isName
    · exact recorded.named name done
  case untouched =>
    intro name isOther notDone
    have other := List.ne_of_not_mem_cons notDone
    exact (same name isOther other).trans
      (recorded.untouched name isOther (List.not_mem_of_not_mem_cons notDone))
  case present =>
    intro name member
    by_cases other : name = fileName
    · rw [other]
      exact written
    · rcases List.mem_cons.mp member with equal | done
      · exact absurd equal other
      · exact (congrArg Option.isSome (same name (recorded.named name done) other)).trans
          (recorded.present name done)
  case addedOnce =>
    rw [addedNames_cons]
    split
    · exact recorded.addedOnce
    · rename_i absent
      refine List.nodup_cons.mpr ⟨fun added => ?_, recorded.addedOnce⟩
      exact absent (recorded.present fileName (mem_of_addedNames added))
  case added_iff =>
    intro name member
    rw [addedNames_cons]
    by_cases done : name ∈ state.completed.map Prod.fst
    · have old := recorded.added_iff name done
      split
      · exact old
      · rename_i absent
        rw [List.mem_cons, old]
        refine ⟨fun either => ?_, Or.inr⟩
        rcases either with rfl | isNew
        · exact absurd (recorded.present name done) absent
        · exact isNew
    · have isThis : name = fileName := by
        rcases List.mem_cons.mp member with equal | other
        · exact equal
        · exact absurd other done
      subst name
      rw [← recorded.untouched fileName isName done]
      split
      · rename_i isPresent
        refine iff_of_false (fun added => done (mem_of_addedNames added)) fun absent => ?_
        rw [absent] at isPresent
        cases isPresent
      · rename_i absent
        exact iff_of_true List.mem_cons_self (Option.not_isSome_iff_eq_none.mp absent)

end Recorded

/-! ## One step of the import -/

/-- What holds of the store while no exception has come. -/
structure Sound (before : Disk) (state : ImportState) : Prop where
  recorded : Recorded before state
  elsewhere : Files.SameAt before state.disk Outside

def Counted (addedCount replacedCount : Nat) (state : ImportState) : Prop :=
  addedCount = (addedNames state.completed).length ∧
    replacedCount = (replacedNames state.completed).length

/-- The counters are right where the loop goes on, and the result where it returns. -/
def Progress.Counted (progress : Progress) (state : ImportState) : Prop :=
  match progress with
  | .goesOn counts => Archives.Counted counts.addedCount counts.replacedCount state
  | .returns result => Archives.Counted result.addedCount result.replacedCount state

@[simp]
theorem ensures_onDisk {ε α : Type} {first : Effect Disk ε α} {Q : α → ImportState → Prop}
    {E : ε → ImportState → Prop} :
    (onDisk first).Ensures state Q E ↔
      first.Ensures state.disk (fun value disk => Q value { state with disk })
        fun error disk => E error { state with disk } := by
  simp only [Effect.Ensures, onDisk]
  rcases first state.disk with ⟨error | value, reached⟩
  · rfl
  · rfl

@[simp]
theorem ensures_write {file : File} {bytes : List UInt8} {Q : PUnit → ImportState → Prop}
    {E : ImportException → ImportState → Prop} :
    (write file bytes).Ensures state Q E ↔
      Q .unit { state with disk := Function.update state.disk file (some bytes) } :=
  Iff.rfl

/-- Temporary files are not in the store. -/
theorem temporaryFile_ne {made : JavaString} {file : File} (inStore : file.parent = .directory) :
    temporaryFile made ≠ file := by
  rintro rfl
  cases inStore

theorem not_outside_temporaryFile (made : JavaString) : ¬Outside (temporaryFile made) :=
  fun outside => outside.2 (.temporary made)

/-- A temporary file may change in any way. -/
theorem Sound.of_temporary (sound : Sound before state) {made : JavaString} {disk : Disk}
    (same : ∀ file, file ≠ temporaryFile made → disk file = state.disk file) :
    Sound before { state with disk } where
  recorded := sound.recorded.of_same fun _ => same _ (temporaryFile_ne rfl).symm
  elsewhere := sound.elsewhere.trans fun file outside => same file fun equal =>
    not_outside_temporaryFile made (equal ▸ outside)

/-- The report counts what has been added and replaced, and no file is made or changed that
is not a thumbnail of the store. -/
structure Truthful (decodes : List UInt8 → Bool) (type : CacheType) (archive : Archive)
    (trims : File → Bool) (before : Disk) : Prop where
  added : (importCache decodes type archive trims before).1.addedCount =
    (addedNames (importCacheInternal decodes type archive ⟨before, []⟩).2.completed).length
  replaced : (importCache decodes type archive trims before).1.replacedCount =
    (replacedNames (importCacheInternal decodes type archive ⟨before, []⟩).2.completed).length
  onlyThumbnails : ∀ file bytes, ¬IsThumbnail file →
    (importCache decodes type archive trims before).2 file = some bytes → before file = some bytes

def smoothReplacement : ReplacementFates where
  deletesOldStaging := true
  deletesOldBackup := true
  stages := .works
  backsUp := true
  renamesIn := true
  copiesIn := .works
  deletesBackup := true
  deletesDestination := true
  renamesBack := true
  copiesBack := .works
  deletesCopied := true
  deletesStaging := true
  deletesBackupAtEnd := true

def smoothEntry : EntryFates where
  temporary := some ['1']
  copyFails := none
  partialCopy := []
  replacement := smoothReplacement
  deletesTemporary := true

end RoundSync.Thumbnails.Archives
