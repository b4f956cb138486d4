import RoundSync.Thumbnails.ArchiveImport
import Mathlib.Algebra.Order.BigOperators.Group.List
import Mathlib.Algebra.Order.Group.Nat

/-!
# Export of the thumbnails of a store

`ThumbnailRepository.exportCacheInternal` writes a manifest and one entry for each thumbnail.
The export is read by the import of the same type: every check of the reader lets pass what
the writer writes, so the import brings back the thumbnails of the store.
-/

namespace RoundSync.Thumbnails.Archives

open RoundSync.Data
open RoundSync.Text
open RoundSync.Transition

/-! ## The export -/

def propertyCreatedAt : JavaString := "createdAtEpochMillis".toList

def propertyThumbnailCount : JavaString := "thumbnailCount".toList

def manifestComments : JavaString := "Round Sync thumbnail cache archive".toList

/-- The text of a date: one short line of ASCII. -/
structure DateText where
  text : JavaString
  printable : ∀ c ∈ text, 0x20 ≤ c.toNat ∧ c.toNat ≤ 0x7e
  short : text.length ≤ 100

/-- What `listFiles` answers for the thumbnails of a store. -/
structure Listing (disk : Disk) where
  names : List JavaString
  nodup : names.Nodup
  mem_iff : ∀ name, name ∈ names ↔
    isThumbnailName name = true ∧ (disk (thumbnail name)).isSome = true

/-- The properties of a manifest. -/
def manifestProperties (type : CacheType) (now count : Nat) : List (JavaString × JavaString) :=
  [(propertyFormatVersion, archiveFormatVersion), (propertyCacheVersion, type.cacheVersion),
    (propertyCacheType, type.archiveName), (propertyCreatedAt, Nat.toDigits 10 now),
    (propertyThumbnailCount, Nat.toDigits 10 count)]

/-- What an export finds outside the store: the clock, its date, and the order in which the
property list enumerates its properties. -/
structure ExportSetting where
  now : Nat
  isLong : now ≤ longMax
  date : DateText
  enumerate : List (JavaString × JavaString) → List (JavaString × JavaString)
  perm : ∀ properties, (enumerate properties).Perm properties

/-- An entry that has been put into the archive. -/
structure WrittenEntry where
  name : JavaString
  bytes : List UInt8

structure CacheExportResult where
  successful : Bool
  thumbnailCount : Nat
  totalBytes : Nat
  error : CacheArchiveError
  deriving DecidableEq

def manifestEntry (type : CacheType) (setting : ExportSetting) (count : Nat) : WrittenEntry where
  name := archiveManifestEntry
  bytes := Properties.latin1 (Properties.store manifestComments setting.date.text
    (setting.enumerate (manifestProperties type setting.now count)))

/-- The loop over the files: the entries written, and the two counters. -/
def exportEntries (type : CacheType) (disk : Disk) :
    List JavaString → Nat → Nat → List WrittenEntry × Nat × Nat
  | [], exportedCount, exportedBytes => ([], exportedCount, exportedBytes)
  | fileName :: files, exportedCount, exportedBytes =>
      if isThumbnailName fileName = false then
        exportEntries type disk files exportedCount exportedBytes
      else
        match disk (thumbnail fileName) with
        | none => exportEntries type disk files exportedCount exportedBytes
        | some bytes =>
            if bytes.isEmpty then exportEntries type disk files exportedCount exportedBytes
            else
              let (entries, counters) := exportEntries type disk files (exportedCount + 1)
                (saturatedAdd exportedBytes bytes.length)
              (⟨type.archiveThumbnailPrefix ++ fileName, bytes⟩ :: entries, counters)

def exportCacheInternal (type : CacheType) (setting : ExportSetting) (disk : Disk)
    (listing : Listing disk) : CacheExportResult × List WrittenEntry :=
  let files := Kotlin.sortedBy id listing.names
  let (entries, exportedCount, exportedBytes) := exportEntries type disk files 0 0
  (⟨true, exportedCount, exportedBytes, .none⟩,
    manifestEntry type setting files.length :: entries)

/-! ## Reading what has been written -/

/-- The reader of the archive delivers the entry: its data in any buffers, and its size where
it is known. -/
structure WrittenEntry.DeliveredAs (written : WrittenEntry) (entry : ZipEntry) : Prop where
  name : entry.name = written.name
  size : entry.size ≤ written.bytes.length
  data : entry.chunks.flatten = written.bytes
  complete : entry.failure = none
  closes : entry.closeFailure = none

/-- The calls for an entry all work. -/
structure EntryFates.Work (fates : EntryFates) : Prop where
  creates : ∃ made, fates.temporary = some made
  copies : fates.copyFails = none
  replaces : fates.replacement = smoothReplacement
  deletes : fates.deletesTemporary = true

/-- The archive holds these entries, and all calls of its import work. -/
structure Archive.Holds (archive : Archive) (written : List WrittenEntry) : Prop where
  opens : archive.openFailure = none
  entries : List.Forall₂ (fun entry (item : ZipEntry × EntryFates) =>
    entry.DeliveredAs item.1 ∧ item.2.Work) written archive.entries
  ends : archive.ending = none
  closes : archive.closeFailure = none

/-- A store that is within the limits of the import, and of which every thumbnail is
usable. -/
structure WithinLimits (decodes : List UInt8 → Bool) (disk : Disk) (listing : Listing disk) :
    Prop where
  few : listing.names.length ≤ maxImportedEntryCount
  small : ∀ name ∈ listing.names, ∀ bytes, disk (thumbnail name) = some bytes →
    bytes.length ≤ maxImportedThumbnailBytes
  total : (listing.names.map fun name => ((disk (thumbnail name)).getD []).length).sum ≤
    maxImportedArchiveBytes
  usable : ∀ name ∈ listing.names, isUsableThumbnail decodes disk (thumbnail name) = true

variable {decodes : List UInt8 → Bool} {type : CacheType} {disk : Disk} {state : ImportState}

/-! ## Reading an entry -/

theorem readBuffers_eq_ok {maximumBytes : Nat} {output : List UInt8} (chunks : List (List UInt8))
    (small : output.length + chunks.flatten.length ≤ maximumBytes) :
    readBuffers maximumBytes none output chunks = .ok (output ++ chunks.flatten) := by
  induction chunks generalizing output with
  | nil => simp [readBuffers]
  | cons buffer rest inductionHypothesis =>
      rw [List.flatten_cons, List.length_append] at small
      rw [readBuffers]
      split
      · rename_i isEmpty
        rw [List.isEmpty_iff.mp isEmpty] at small ⊢
        exact inductionHypothesis (by simpa using small)
      · rw [if_neg (by omega), inductionHypothesis (by rw [List.length_append]; omega),
          List.flatten_cons, List.append_assoc]

theorem WrittenEntry.DeliveredAs.readBuffers_eq {written : WrittenEntry} {entry : ZipEntry}
    (delivered : written.DeliveredAs entry) {maximumBytes : Nat}
    (small : written.bytes.length ≤ maximumBytes) :
    readBuffers maximumBytes entry.failure [] entry.chunks = .ok written.bytes := by
  rw [delivered.complete, readBuffers_eq_ok entry.chunks (by simpa [delivered.data] using small),
    delivered.data, List.nil_append]

/-! ## The manifest -/

theorem getProperty_of_mem {properties : List (JavaString × JavaString)} {key value : JavaString}
    (distinct : (properties.map Prod.fst).Nodup) (member : (key, value) ∈ properties) :
    Properties.getProperty properties key = some value := by
  have isMember : (key, value) ∈ properties.reverse := List.mem_reverse.mpr member
  cases found : properties.reverse.find? fun property => property.1 = key with
  | none => exact absurd (List.find?_eq_none.mp found _ isMember) (by simp)
  | some property =>
      have sameKey : property.1 = key := by simpa using List.find?_some found
      have inList := List.mem_reverse.mp (List.mem_of_find?_eq_some found)
      have same := List.inj_on_of_nodup_map distinct inList member sameKey
      rw [Properties.getProperty, found, same]
      rfl

theorem isPlain_of_isDigit {c : Char} (digit : c.isDigit = true) :
    Properties.isPlain c = true := by
  have bounds : 48 ≤ c.toNat ∧ c.toNat ≤ 57 := by
    simpa [Char.isDigit, UInt32.le_iff_toNat_le] using digit
  refine Properties.isPlain_iff.mpr ⟨by omega, ?_, ?_, ?_, ?_, ?_⟩
  all_goals
    rintro rfl
    revert bounds
    decide

theorem plain_toDigits (n : Nat) : ∀ c ∈ Nat.toDigits 10 n, Properties.isPlain c = true :=
  fun _ digit => isPlain_of_isDigit (Nat.isDigit_of_mem_toDigits (by decide) (by decide) digit)

def manifestKeys : List JavaString :=
  [propertyFormatVersion, propertyCacheVersion, propertyCacheType, propertyCreatedAt,
    propertyThumbnailCount]

theorem manifestKeys_plain {key : JavaString} (isKey : key ∈ manifestKeys) :
    key ≠ [] ∧ ∀ c ∈ key, Properties.isPlain c = true := by
  have all : (manifestKeys.all fun key => !key.isEmpty && key.all Properties.isPlain) = true := by
    decide
  have plain := List.all_eq_true.mp all key isKey
  rw [Bool.and_eq_true] at plain
  exact ⟨by simpa using plain.1, fun c member => List.all_eq_true.mp plain.2 c member⟩

theorem keys_manifestProperties (type : CacheType) (now count : Nat) :
    (manifestProperties type now count).map Prod.fst = manifestKeys :=
  rfl

/-- The characters of keys and values are plain. -/
theorem manifestProperties_plain {type : CacheType} {now count : Nat}
    {property : JavaString × JavaString} (member : property ∈ manifestProperties type now count) :
    property.1 ≠ [] ∧ (∀ c ∈ property.1, Properties.isPlain c = true) ∧
      ∀ c ∈ property.2, Properties.isPlain c = true := by
  have known {text : JavaString} (all : text.all Properties.isPlain = true) :
      ∀ c ∈ text, Properties.isPlain c = true :=
    fun c member => List.all_eq_true.mp all c member
  have isKey : property.1 ∈ manifestKeys := by
    rw [← keys_manifestProperties type now count]
    exact List.mem_map_of_mem member
  refine ⟨(manifestKeys_plain isKey).1, (manifestKeys_plain isKey).2, ?_⟩
  simp only [manifestProperties, List.mem_cons, List.not_mem_nil, or_false] at member
  rcases member with rfl | rfl | rfl | rfl | rfl
  · exact known (by decide)
  · cases type with
    | image => exact known (by decide)
    | video => exact known (by decide)
  · cases type with
    | image => exact known (by decide)
    | video => exact known (by decide)
  · exact plain_toDigits now
  · exact plain_toDigits count

theorem manifestKeys_nodup : manifestKeys.Nodup := by
  decide

/-- A written property is as long as its parts. -/
theorem length_saveProperty {property : JavaString × JavaString}
    (plainKey : ∀ c ∈ property.1, Properties.isPlain c = true)
    (plainValue : ∀ c ∈ property.2, Properties.isPlain c = true) :
    (Properties.saveProperty property).length = property.1.length + property.2.length + 2 := by
  rw [Properties.saveProperty, Properties.saveConvert_of_plain plainKey,
    Properties.saveConvert_of_plain plainValue]
  simp only [List.length_append, List.length_cons, List.length_nil]
  omega

theorem length_toDigits_le {n : Nat} (isLong : n ≤ longMax) : (Nat.toDigits 10 n).length ≤ 19 := by
  rw [Nat.length_toDigits_le_iff (by decide) (by decide)]
  exact lt_of_le_of_lt isLong (by decide)

theorem length_value_le {type : CacheType} {now count : Nat} (isLong : now ≤ longMax)
    (few : count ≤ maxImportedEntryCount) {property : JavaString × JavaString}
    (member : property ∈ manifestProperties type now count) : property.2.length ≤ 22 := by
  simp only [manifestProperties, List.mem_cons, List.not_mem_nil, or_false] at member
  rcases member with rfl | rfl | rfl | rfl | rfl
  · decide
  · cases type with
    | image => decide
    | video => decide
  · cases type with
    | image => decide
    | video => decide
  · exact (length_toDigits_le isLong).trans (by decide)
  · exact (length_toDigits_le (few.trans (by decide))).trans (by decide)

theorem length_key_le {key : JavaString} (isKey : key ∈ manifestKeys) : key.length ≤ 20 := by
  have all : (manifestKeys.all fun key => decide (key.length ≤ 20)) = true := by
    decide
  exact of_decide_eq_true (List.all_eq_true.mp all key isKey)

/-- The manifest is far below its limit. -/
theorem length_manifestEntry (type : CacheType) (setting : ExportSetting) {count : Nat}
    (few : count ≤ maxImportedEntryCount) :
    (manifestEntry type setting count).bytes.length ≤ maxArchiveManifestBytes := by
  have each : ∀ size ∈ (manifestProperties type setting.now count).map fun property =>
      (Properties.saveProperty property).length, size ≤ 44 := by
    intro size member
    rcases List.mem_map.mp member with ⟨property, isProperty, rfl⟩
    rcases manifestProperties_plain isProperty with ⟨_, plainKey, plainValue⟩
    have key : property.1.length ≤ 20 :=
      length_key_le (keys_manifestProperties type setting.now count ▸ List.mem_map_of_mem isProperty)
    have value := length_value_le setting.isLong few isProperty
    rw [length_saveProperty plainKey plainValue]
    omega
  have properties : ((setting.enumerate (manifestProperties type setting.now count)).flatMap
      Properties.saveProperty).length ≤ 220 := by
    rw [((setting.perm _).flatMap_right _).length_eq, List.length_flatMap]
    have five : (manifestProperties type setting.now count).length = 5 := rfl
    apply (List.sum_le_card_nsmul _ 44 each).trans
    rw [List.length_map, five]
    decide
  have comments : manifestComments.length = 34 := rfl
  have date := setting.date.short
  simp only [manifestEntry, Properties.latin1, List.length_map, Properties.store,
    List.length_cons, List.length_append, maxArchiveManifestBytes, comments]
  omega

theorem narrow_saveProperty {property : JavaString × JavaString}
    (plainKey : ∀ c ∈ property.1, Properties.isPlain c = true)
    (plainValue : ∀ c ∈ property.2, Properties.isPlain c = true) :
    ∀ c ∈ Properties.saveProperty property, c.toNat < 256 := by
  have narrow {c : Char} (plain : Properties.isPlain c = true) : c.toNat < 256 :=
    (Properties.isPlain_iff.mp plain).1.2.trans_lt (by decide)
  rw [Properties.saveProperty, Properties.saveConvert_of_plain plainKey,
    Properties.saveConvert_of_plain plainValue]
  intro c member
  simp only [List.mem_append, List.mem_cons, List.not_mem_nil, or_false] at member
  rcases member with inKey | rfl | inValue | rfl
  · exact narrow (plainKey c inKey)
  · decide
  · exact narrow (plainValue c inValue)
  · decide

/-- What the import reads from the manifest. -/
theorem load_manifestEntry (type : CacheType) (setting : ExportSetting) (count : Nat) :
    Properties.load (Properties.ofLatin1 (manifestEntry type setting count).bytes) =
      some (setting.enumerate (manifestProperties type setting.now count)) := by
  have plain : ∀ property ∈ setting.enumerate (manifestProperties type setting.now count),
      property.1 ≠ [] ∧ (∀ c ∈ property.1, Properties.isPlain c = true) ∧
        ∀ c ∈ property.2, Properties.isPlain c = true :=
    fun property member => manifestProperties_plain ((setting.perm _).mem_iff.mp member)
  have singleComments : ∀ c ∈ manifestComments, Properties.isLineEnd c = false := by
    have all : (manifestComments.all fun c => !Properties.isLineEnd c) = true := by
      decide
    exact fun c member => by simpa using List.all_eq_true.mp all c member
  have singleDate : ∀ c ∈ setting.date.text, Properties.isLineEnd c = false := by
    intro c member
    have low := (setting.date.printable c member).1
    apply Bool.eq_false_of_not_eq_true
    intro isEnd
    rcases Bool.or_eq_true_iff.mp isEnd with feed | carriage
    · rw [of_decide_eq_true feed] at low
      exact absurd low (by decide)
    · rw [of_decide_eq_true carriage] at low
      exact absurd low (by decide)
  rw [manifestEntry, Properties.ofLatin1_latin1]
  · exact Properties.load_store singleComments singleDate plain
  · have narrowComments : (manifestComments.all fun c => decide (c.toNat < 256)) = true := by
      decide
    intro c member
    simp only [Properties.store, List.mem_cons, List.mem_append, List.mem_flatMap] at member
    rcases member with rfl | inComments | rfl | rfl | inDate | rfl | ⟨property, isProperty, inProperty⟩
    · decide
    · exact of_decide_eq_true (List.all_eq_true.mp narrowComments c inComments)
    · decide
    · decide
    · exact (setting.date.printable c inDate).2.trans_lt (by decide)
    · decide
    · exact narrow_saveProperty (plain property isProperty).2.1 (plain property isProperty).2.2 c
        inProperty

theorem readManifest_works {setting : ExportSetting} {count : Nat} {entry : ZipEntry}
    (delivered : (manifestEntry type setting count).DeliveredAs entry)
    (few : count ≤ maxImportedEntryCount) :
    readManifest type entry state = (.ok none, state) := by
  have keys : ((setting.enumerate (manifestProperties type setting.now count)).map
      Prod.fst).Nodup :=
    ((setting.perm _).map Prod.fst).nodup_iff.mpr manifestKeys_nodup
  have value {key value : JavaString}
      (member : (key, value) ∈ manifestProperties type setting.now count) :
      Properties.getProperty (setting.enumerate (manifestProperties type setting.now count)) key =
        some value :=
    getProperty_of_mem keys ((setting.perm _).mem_iff.mpr member)
  have format := @value propertyFormatVersion archiveFormatVersion (by simp [manifestProperties])
  have version := @value propertyCacheVersion type.cacheVersion (by simp [manifestProperties])
  have name := @value propertyCacheType type.archiveName (by simp [manifestProperties])
  rw [readManifest, readZipEntryBytes,
    delivered.readBuffers_eq (length_manifestEntry type setting few)]
  simp only [load_manifestEntry, delivered.closes, failing, format, version, name, ne_eq,
    not_true_eq_false, or_self, if_false]
  rfl

/-! ## The entries of thumbnails -/

theorem ne_of_mem_thumbnailName {name : JavaString} (isName : isThumbnailName name = true) :
    ∀ c ∈ name, c ≠ '/' ∧ c ≠ '\\' := by
  rcases isThumbnailName_iff.mp isName with ⟨digits, rfl, _, all⟩
  intro c member
  rcases List.mem_append.mp member with inDigits | inExtension
  · have digit := all c inDigits
    constructor
    · rintro rfl
      exact absurd digit (by decide)
    · rintro rfl
      exact absurd digit (by decide)
  · have other : (thumbnailExtension.all fun c => decide (c ≠ '/' ∧ c ≠ '\\')) = true := by
      decide
    exact of_decide_eq_true (List.all_eq_true.mp other c inExtension)

theorem getArchiveThumbnailFileName_eq {name : JavaString} (isName : isThumbnailName name = true) :
    getArchiveThumbnailFileName type (type.archiveThumbnailPrefix ++ name) = some name := by
  have notEmpty : name.isEmpty = false := by
    have long := length_of_isThumbnailName isName
    cases name with
    | nil => cases long
    | cons c rest => rfl
  have noSlash : name.contains '/' = false := by
    simpa using fun member => (ne_of_mem_thumbnailName isName _ member).1 rfl
  have noBackslash : name.contains '\\' = false := by
    simpa using fun member => (ne_of_mem_thumbnailName isName _ member).2 rfl
  rw [getArchiveThumbnailFileName, if_neg (by simp)]
  simp only [List.drop_left, notEmpty, noSlash, noBackslash, isName, Bool.or_self, Bool.not_true,
    Bool.false_eq_true, if_false]

theorem isDirectory_thumbnail {start name : JavaString} (isName : isThumbnailName name = true) :
    isDirectory (start ++ name) = false := by
  rcases isThumbnailName_iff.mp isName with ⟨digits, rfl, _⟩
  have last : thumbnailExtension.getLast? = some 'b' := rfl
  simp [isDirectory, last]

/-- What the loop of the export writes for thumbnails that are there and are not empty. -/
theorem exportEntries_eq (files : List JavaString) {exportedCount exportedBytes : Nat}
    (usable : ∀ name ∈ files, isThumbnailName name = true ∧
      isUsableThumbnail decodes disk (thumbnail name) = true) :
    (exportEntries type disk files exportedCount exportedBytes).1 = files.map fun name =>
      ⟨type.archiveThumbnailPrefix ++ name, (disk (thumbnail name)).getD []⟩ := by
  induction files generalizing exportedCount exportedBytes with
  | nil => rfl
  | cons name rest inductionHypothesis =>
      rcases usable name List.mem_cons_self with ⟨isName, isUsable⟩
      rcases ReplacementFates.exists_of_usable isUsable with ⟨bytes, present, filled, _⟩
      have tail := fun count total => @inductionHypothesis count total
        fun other member => usable other (List.mem_cons_of_mem name member)
      rw [exportEntries, if_neg (by simp [isName])]
      simp only [present, filled, Bool.false_eq_true, if_false, tail, List.map_cons,
        Option.getD_some]

/-! ## A thumbnail that comes in -/

/-- The thumbnail is stored; working files are as before or gone, and nothing else changes. -/
structure Stored (before after : Disk) (name : JavaString) (bytes : List UInt8) : Prop where
  stored : after (thumbnail name) = some bytes
  working : ∀ file, IsWorkingFile file → after file = before file ∨ after file = none
  others : ∀ file, file ≠ thumbnail name → ¬IsWorkingFile file → after file = before file

theorem not_isWorkingFile_thumbnail {name : JavaString} (isName : isThumbnailName name = true) :
    ¬IsWorkingFile (thumbnail name) := by
  intro working
  generalize same : thumbnail name = file at working
  cases working with
  | temporary made => exact temporaryFile_ne rfl same.symm
  | @staging file stages =>
      rcases file with ⟨parent, other⟩
      rcases stages with ⟨rfl, isOther⟩
      exact staging_ne_thumbnail isOther isName same
  | @backup file backs =>
      rcases file with ⟨parent, other⟩
      rcases backs with ⟨rfl, isOther⟩
      exact backup_ne_thumbnail isOther isName same

/-- The calls of a smooth replacement. -/
theorem smooth_replacement {source : File} {name : JavaString} {bytes : List UInt8}
    (isName : isThumbnailName name = true) (notStaging : source ≠ staging (thumbnail name))
    (notBackup : source ≠ backup (thumbnail name)) (imported : disk source = some bytes)
    (usable : isUsableThumbnail decodes disk source = true) :
    (replaceImportedThumbnailLocked decodes smoothReplacement source (thumbnail name)).Ensures disk
      (fun _ after => Stored disk after name bytes) fun _ _ => False := by
  let isOther : File → Prop := fun file => file ≠ thumbnail name ∧
    file ≠ staging (thumbnail name) ∧ file ≠ backup (thumbnail name)
  have spares : Files.Spares isOther (replaceImportedThumbnailLocked decodes smoothReplacement source
      (thumbnail name)) :=
    replaceImportedThumbnailLocked_spares (fun other => other.1 rfl) (fun other => other.2.1 rfl)
      fun other => other.2.2 rfl
  have isPlaced : smoothReplacement.Placed decodes disk source (thumbnail name) :=
    ⟨⟨rfl, usable⟩, fun _ => rfl, Or.inl rfl⟩
  apply ((replaceImportedThumbnailLocked_ensures notStaging notBackup).and (spares disk)).mono
  · rintro _ after ⟨⟨_, inPlace, noBackup, noStaging⟩, same⟩
    have isIn : IsWorkingFile (staging (thumbnail name)) := .staging ⟨rfl, isName⟩
    have isBackup : IsWorkingFile (backup (thumbnail name)) := .backup ⟨rfl, isName⟩
    constructor
    case stored => exact inPlace.trans imported
    case working =>
      intro file isWorking
      have first : file ≠ thumbnail name := by
        rintro rfl
        exact not_isWorkingFile_thumbnail isName isWorking
      by_cases second : file = staging (thumbnail name)
      · rw [second]
        exact Or.inr (noStaging rfl)
      · by_cases third : file = backup (thumbnail name)
        · rw [third]
          exact Or.inr noBackup
        · exact Or.inl (same file ⟨first, second, third⟩)
    case others =>
      intro file first notWorking
      exact same file ⟨first, fun equal => notWorking (equal ▸ isIn),
        fun equal => notWorking (equal ▸ isBackup)⟩
  · rintro _ _ ⟨⟨notPlaced, _⟩, _⟩
    exact absurd isPlaced notPlaced

/-- The temporary file of an import is gone in the end. -/
theorem Stored.of_temporary {before after : Disk} {name made : JavaString} {bytes : List UInt8}
    (stored : Stored before after name bytes)
    (same : ∀ file, file ≠ temporaryFile made → before file = disk file) :
    Stored disk (Files.remove true (temporaryFile made) after) name bytes := by
  constructor
  case stored =>
    rw [Files.remove_of_ne (temporaryFile_ne rfl).symm]
    exact stored.stored
  case working =>
    intro file isWorking
    by_cases isTemporary : file = temporaryFile made
    · rw [isTemporary]
      exact Or.inr Files.remove_self
    · rw [Files.remove_of_ne isTemporary, ← same file isTemporary]
      exact stored.working file isWorking
  case others =>
    intro file other notWorking
    have notTemporary : file ≠ temporaryFile made := by
      rintro rfl
      exact notWorking (.temporary made)
    rw [Files.remove_of_ne notTemporary, ← same file notTemporary]
    exact stored.others file other notWorking

/-- One thumbnail more has been imported. -/
structure Counts.Advance (counts next : Counts) (size : Nat) : Prop where
  entries : next.entryCount = counts.entryCount
  processed : next.processedArchiveBytes = counts.processedArchiveBytes + size
  imported : next.addedCount + next.replacedCount = counts.addedCount + counts.replacedCount + 1

theorem saturatedAdd_eq {left right : Nat} (fits : left + right ≤ longMax) :
    saturatedAdd left right = left + right := by
  unfold saturatedAdd
  split
  · omega
  · rw [if_neg (by omega)]

theorem importFile_works {entry : ZipEntry} {fates : EntryFates} {made name : JavaString}
    {written : WrittenEntry} {counts : Counts} (isName : isThumbnailName name = true)
    (delivered : written.DeliveredAs entry) (works : fates.Work)
    (small : written.bytes.length ≤ maxImportedThumbnailBytes)
    (filled : written.bytes.isEmpty = false) (isUsable : decodes written.bytes = true)
    (fits : counts.processedArchiveBytes + written.bytes.length ≤ maxImportedArchiveBytes) :
    (importFile decodes entry fates (temporaryFile made) name counts).Ensures state
      (fun progress after => (∃ next, progress = .goesOn next ∧
          counts.Advance next written.bytes.length) ∧
        Stored (Function.update state.disk (temporaryFile made) (some written.bytes)) after.disk name
          written.bytes)
      fun _ _ => False := by
  have sum : saturatedAdd counts.processedArchiveBytes written.bytes.length =
      counts.processedArchiveBytes + written.bytes.length :=
    saturatedAdd_eq (fits.trans (by decide))
  have present : Function.update state.disk (temporaryFile made) (some written.bytes)
      (temporaryFile made) = some written.bytes :=
    Function.update_self ..
  have usable : isUsableThumbnail decodes (Function.update state.disk (temporaryFile made)
      (some written.bytes)) (temporaryFile made) = true := by
    simp only [isUsableThumbnail, present, filled, isUsable, Bool.not_false, Bool.and_self]
  have someBytes : written.bytes.length ≠ 0 := by
    intro none
    rw [List.length_eq_zero_iff.mp none] at filled
    cases filled
  simp only [importFile, copyZipEntryToFile, works.copies, delivered.readBuffers_eq small,
    delivered.closes, failing, sum, Effect.ensures_bind, ensures_write, Effect.ensures_pure]
  rw [if_neg (Nat.not_lt.mpr fits), Effect.ensures_bind, Effect.ensures_read,
    if_neg (by simp only [someBytes, usable]; simp)]
  simp only [storeThumbnail, works.replaces, Effect.ensures_bind, Effect.ensures_read,
    ensures_onDisk, Effect.ensures_update]
  apply (smooth_replacement isName (temporaryFile_ne rfl) (temporaryFile_ne rfl) present usable).mono
  · rintro _ disk stored
    apply Effect.Ensures.ite
    · intro _
      exact ⟨⟨_, rfl, ⟨rfl, rfl, by simp only []; omega⟩⟩, stored⟩
    · intro _
      exact ⟨⟨_, rfl, ⟨rfl, rfl, by simp only []; omega⟩⟩, stored⟩
  · exact fun _ _ impossible => impossible

/-- A thumbnail that passes the checks of the import. -/
structure Importable (decodes : List UInt8 → Bool) (name : JavaString) (bytes : List UInt8) :
    Prop where
  isName : isThumbnailName name = true
  filled : bytes.isEmpty = false
  usable : decodes bytes = true
  small : bytes.length ≤ maxImportedThumbnailBytes

/-- One turn of the loop for an importable thumbnail. -/
theorem importEntry_works {entry : ZipEntry} {fates : EntryFates} {name : JavaString}
    {bytes : List UInt8} {counts : Counts} (importable : Importable decodes name bytes)
    (delivered : WrittenEntry.DeliveredAs ⟨type.archiveThumbnailPrefix ++ name, bytes⟩ entry)
    (works : fates.Work) (few : counts.entryCount < maxImportedEntryCount)
    (fits : counts.processedArchiveBytes + bytes.length ≤ maxImportedArchiveBytes) :
    (importEntry decodes type entry fates counts).Ensures state
      (fun progress after => (∃ next, progress = .goesOn next ∧
          Counts.Advance { counts with entryCount := counts.entryCount + 1 } next bytes.length) ∧
        Stored state.disk after.disk name bytes)
      fun _ _ => False := by
  rcases works.creates with ⟨made, creates⟩
  have fitsNext : ({ counts with entryCount := counts.entryCount + 1 } :
      Counts).processedArchiveBytes + bytes.length ≤ maxImportedArchiveBytes := fits
  have size : ¬(maxImportedThumbnailBytes : Int) < entry.size :=
    Int.not_lt.mpr (delivered.size.trans (Int.ofNat_le.mpr importable.small))
  rw [importEntry, delivered.name, isDirectory_thumbnail importable.isName,
    if_neg Bool.false_ne_true]
  simp only [getArchiveThumbnailFileName_eq importable.isName, importThumbnail, creates]
  rw [if_neg (Nat.not_lt.mpr few), if_neg size, Effect.ensures_bind, ensures_write,
    Effect.ensures_bind, Effect.ensures_attempt]
  apply (importFile_works importable.isName delivered works importable.small importable.filled
    importable.usable fitsNext).mono
  · rintro progress after ⟨goesOn, stored⟩
    rw [works.deletes]
    exact ⟨goesOn, stored.of_temporary fun file other =>
      (Function.update_of_ne other _ _).trans (Function.update_of_ne other _ _)⟩
  · exact fun _ _ impossible => impossible.elim

/-! ## All thumbnails -/

/-- The thumbnails are stored; working files are as before or gone, and nothing else changes. -/
structure StoredAll (before after : Disk) (content : List (JavaString × List UInt8)) : Prop where
  stored : ∀ item ∈ content, after (thumbnail item.1) = some item.2
  working : ∀ file, IsWorkingFile file → after file = before file ∨ after file = none
  others : ∀ file, ¬IsWorkingFile file → (∀ item ∈ content, file ≠ thumbnail item.1) →
    after file = before file

theorem StoredAll.refl (before : Disk) : StoredAll before before [] where
  stored := fun item member => by cases member
  working := fun _ _ => Or.inl rfl
  others := fun _ _ _ => rfl

theorem StoredAll.cons {before middle after : Disk} {name : JavaString} {bytes : List UInt8}
    {content : List (JavaString × List UInt8)} (isName : isThumbnailName name = true)
    (first : Stored before middle name bytes) (rest : StoredAll middle after content)
    (new : name ∉ content.map Prod.fst) : StoredAll before after ((name, bytes) :: content) := by
  have apart : ∀ item ∈ content, thumbnail name ≠ thumbnail item.1 := by
    intro item member equal
    have same : name = item.1 := congrArg File.name equal
    exact new (same ▸ List.mem_map_of_mem member)
  constructor
  case stored =>
    intro item member
    rcases List.mem_cons.mp member with rfl | inRest
    · exact (rest.others _ (not_isWorkingFile_thumbnail isName) apart).trans first.stored
    · exact rest.stored item inRest
  case working =>
    intro file isWorking
    rcases rest.working file isWorking with same | gone
    · rw [same]
      exact first.working file isWorking
    · exact Or.inr gone
  case others =>
    intro file notWorking other
    have notFirst := other (name, bytes) List.mem_cons_self
    exact (rest.others file notWorking fun item member =>
      other item (List.mem_cons_of_mem _ member)).trans (first.others file notFirst notWorking)

/-- The whole loop over importable thumbnails, by induction on what has been written. -/
theorem importEntries_works (content : List (JavaString × List UInt8)) :
    ∀ {entries : List (ZipEntry × EntryFates)} {counts : Counts} {state : ImportState},
      List.Forall₂ (fun item (entry : ZipEntry × EntryFates) =>
        WrittenEntry.DeliveredAs ⟨type.archiveThumbnailPrefix ++ item.1, item.2⟩ entry.1 ∧
          entry.2.Work) content entries →
      (∀ item ∈ content, Importable decodes item.1 item.2) → (content.map Prod.fst).Nodup →
      counts.entryCount + content.length ≤ maxImportedEntryCount →
      counts.processedArchiveBytes + (content.map fun item => item.2.length).sum ≤
        maxImportedArchiveBytes →
      (importEntries decodes type none entries counts).Ensures state
        (fun progress after => (∃ next, progress = .goesOn next ∧
            next.addedCount + next.replacedCount =
              counts.addedCount + counts.replacedCount + content.length) ∧
          StoredAll state.disk after.disk content)
        fun _ _ => False := by
  induction content with
  | nil =>
      intro entries counts state delivered _ _ _ _
      cases delivered
      exact ⟨⟨counts, rfl, rfl⟩, .refl state.disk⟩
  | cons item content inductionHypothesis =>
      intro entries counts state delivered importable distinct few fits
      cases delivered with
      | @cons _ entry _ rest first others =>
          rcases List.nodup_cons.mp distinct with ⟨new, distinct⟩
          rw [List.length_cons] at few
          rw [List.map_cons, List.sum_cons] at fits
          have isImportable := importable item List.mem_cons_self
          rw [importEntries, Effect.ensures_bind]
          apply (importEntry_works isImportable first.1 first.2 (by omega) (by omega)).mono
          · rintro progress middle ⟨⟨next, rfl, advance⟩, stored⟩
            have entryCount := advance.entries
            have processed := advance.processed
            have imported := advance.imported
            simp only [] at entryCount processed imported
            apply (inductionHypothesis others
              (fun other member => importable other (List.mem_cons_of_mem item member)) distinct
              (by omega) (by omega)).mono
            · rintro _ after ⟨⟨last, rfl, total⟩, storedRest⟩
              refine ⟨⟨last, rfl, ?_⟩, .cons isImportable.isName stored storedRest new⟩
              rw [List.length_cons]
              omega
            · exact fun _ _ impossible => impossible
          · exact fun _ _ impossible => impossible.elim

/-! ## The round trip -/

variable {setting : ExportSetting} {listing : Listing disk} {archive : Archive}

/-- The names and bytes of the thumbnails, in the order of the export. -/
def Listing.content (listing : Listing disk) : List (JavaString × List UInt8) :=
  (Kotlin.sortedBy id listing.names).map fun name => (name, (disk (thumbnail name)).getD [])

theorem Listing.mem_content_iff {name : JavaString} {bytes : List UInt8} :
    (name, bytes) ∈ listing.content ↔
      isThumbnailName name = true ∧ disk (thumbnail name) = some bytes := by
  simp only [Listing.content, List.mem_map, Kotlin.mem_sortedBy, listing.mem_iff, Prod.mk.injEq]
  constructor
  · rintro ⟨_, ⟨isName, present⟩, rfl, rfl⟩
    rcases Option.isSome_iff_exists.mp present with ⟨found, isFound⟩
    rw [isFound]
    exact ⟨isName, rfl⟩
  · rintro ⟨isName, present⟩
    exact ⟨name, ⟨isName, by rw [present]; rfl⟩, rfl, by rw [present]; rfl⟩

theorem Listing.names_content : listing.content.map Prod.fst = Kotlin.sortedBy id listing.names := by
  simp [Listing.content, Function.comp_def]

theorem WithinLimits.importable (limits : WithinLimits decodes disk listing) :
    ∀ item ∈ listing.content, Importable decodes item.1 item.2 := by
  rintro ⟨name, bytes⟩ member
  rcases Listing.mem_content_iff.mp member with ⟨isName, present⟩
  have listed : name ∈ listing.names :=
    (listing.mem_iff name).mpr ⟨isName, Option.isSome_iff_exists.mpr ⟨bytes, present⟩⟩
  rcases ReplacementFates.exists_of_usable (limits.usable name listed) with
    ⟨found, isFound, filled, usable⟩
  cases present.symm.trans isFound
  exact ⟨isName, filled, usable, limits.small name listed bytes present⟩

/-- What an export of such a store writes. -/
theorem exportCacheInternal_eq (limits : WithinLimits decodes disk listing) :
    (exportCacheInternal type setting disk listing).2 =
      manifestEntry type setting (Kotlin.sortedBy id listing.names).length ::
        listing.content.map fun item => ⟨type.archiveThumbnailPrefix ++ item.1, item.2⟩ := by
  have usable : ∀ name ∈ Kotlin.sortedBy id listing.names, isThumbnailName name = true ∧
      isUsableThumbnail decodes disk (thumbnail name) = true := by
    intro name member
    have listed := Kotlin.mem_sortedBy.mp member
    exact ⟨((listing.mem_iff name).mp listed).1, limits.usable name listed⟩
  have entries := @exportEntries_eq decodes type disk _ 0 0 usable
  simp only [exportCacheInternal, entries, Listing.content, List.map_map, Function.comp_def]

theorem Counts.successful_result_iff {counts : Counts} :
    counts.result.successful = true ↔ counts.addedCount + counts.replacedCount ≠ 0 := by
  unfold Counts.result
  split
  · rename_i nothing
    simp [refused, nothing]
  · rename_i imported
    exact iff_of_true rfl imported

theorem isDirectory_archiveManifestEntry : isDirectory archiveManifestEntry = false := by
  decide

/-- The import of an export stores what has been exported, whatever the store held before. -/
theorem import_export (limits : WithinLimits decodes disk listing)
    (holds : archive.Holds (exportCacheInternal type setting disk listing).2) (before : Disk) :
    (importCacheInternal decodes type archive).Ensures ⟨before, []⟩
      (fun result after => (result.successful = true ↔ listing.names ≠ []) ∧
        StoredAll before after.disk listing.content)
      fun _ _ => False := by
  have filesLength : (Kotlin.sortedBy id listing.names).length = listing.names.length :=
    (Kotlin.sortedBy_perm id listing.names).length_eq
  have contentLength : listing.content.length = listing.names.length := by
    rw [Listing.content, List.length_map, filesLength]
  have distinct : (listing.content.map Prod.fst).Nodup := by
    rw [Listing.names_content]
    exact (Kotlin.sortedBy_perm id listing.names).nodup_iff.mpr listing.nodup
  have total : (listing.content.map fun item => item.2.length).sum ≤ maxImportedArchiveBytes := by
    rw [Listing.content, List.map_map]
    have same := ((Kotlin.sortedBy_perm id listing.names).map fun name =>
      ((disk (thumbnail name)).getD []).length).sum_eq
    exact (le_of_eq same).trans limits.total
  have entries := holds.entries
  rw [exportCacheInternal_eq limits] at entries
  cases entriesEq : archive.entries with
  | nil =>
      rw [entriesEq] at entries
      cases entries
  | cons item rest =>
      rw [entriesEq] at entries
      rcases List.forall₂_cons.mp entries with ⟨manifest, thumbnails⟩
      rw [List.forall₂_map_left_iff] at thumbnails
      have notDirectory : isDirectory item.1.name = false := by
        rw [manifest.1.name]
        exact isDirectory_archiveManifestEntry
      have isManifest : ¬item.1.name ≠ archiveManifestEntry := by
        rw [not_not]
        exact manifest.1.name
      have readsManifest : readManifest type item.1 (⟨before, []⟩ : ImportState) =
          (.ok none, ⟨before, []⟩) :=
        readManifest_works manifest.1 (by rw [filesLength]; exact limits.few)
      have works := @importEntries_works decodes type listing.content rest ⟨0, 0, 0, 0, 0, 0⟩
        ⟨before, []⟩ thumbnails limits.importable distinct
        (by simpa [contentLength] using limits.few) (by simpa using total)
      have imports : (importArchive decodes type archive).Ensures ⟨before, []⟩
          (fun result after => (result.successful = true ↔ listing.names ≠ []) ∧
            StoredAll before after.disk listing.content)
          fun _ _ => False := by
        rw [importArchive, Effect.ensures_bind, entriesEq, nextNonDirectoryEntry, notDirectory,
          if_neg Bool.false_ne_true, Effect.ensures_pure]
        simp only [if_neg isManifest]
        rw [Effect.ensures_bind, Effect.Ensures, readsManifest]
        simp only [Effect.ensures_bind]
        rw [holds.ends]
        apply works.mono
        · rintro _ after ⟨⟨last, rfl, count⟩, stored⟩
          refine ⟨?_, stored⟩
          have counted : last.addedCount + last.replacedCount = listing.names.length := by
            simpa [contentLength] using count
          rw [← List.length_pos_iff, ← counted, Nat.pos_iff_ne_zero]
          exact Counts.successful_result_iff
        · exact fun _ _ impossible => impossible
      rw [importCacheInternal, holds.opens, holds.closes, Effect.ensures_bind]
      apply imports.bind
      · exact fun result after ends => ends
      · exact fun _ _ impossible => impossible

/-- **Export and import.**  The import of an export gives an empty store the thumbnails of the
exported one, with their bytes, and no other file; in the exported store it changes no file
but working files, which it can only delete. -/
theorem exportCache_roundTrip (decodes : List UInt8 → Bool) (type : CacheType)
    (setting : ExportSetting) (disk : Disk) (listing : Listing disk) (archive : Archive)
    (limits : WithinLimits decodes disk listing)
    (holds : archive.Holds (exportCacheInternal type setting disk listing).2) :
    (∀ empty : Disk, (∀ name, empty ⟨.directory, name⟩ = none) →
      ∃ result after, importCacheInternal decodes type archive ⟨empty, []⟩ = (.ok result, after) ∧
        ∀ name, after.disk ⟨.directory, name⟩ =
          if isThumbnailName name = true then disk ⟨.directory, name⟩ else none) ∧
    ∃ result after, importCacheInternal decodes type archive ⟨disk, []⟩ = (.ok result, after) ∧
      ∀ file, after.disk file = disk file ∨ IsWorkingFile file ∧ after.disk file = none := by
  have ends (before : Disk) : ∃ result after,
      importCacheInternal decodes type archive ⟨before, []⟩ = (.ok result, after) ∧
        StoredAll before after.disk listing.content := by
    rcases (import_export limits holds before).exists_ok with ⟨result, after, isRun, _, stored⟩
    exact ⟨result, after, isRun, stored⟩
  constructor
  · intro empty isEmpty
    rcases ends empty with ⟨result, after, isRun, stored⟩
    refine ⟨result, after, isRun, fun name => ?_⟩
    by_cases isWorking : IsWorkingFile ⟨.directory, name⟩
    · have noName : isThumbnailName name ≠ true :=
        fun isName => not_isWorkingFile_thumbnail isName isWorking
      rw [if_neg noName]
      rcases stored.working _ isWorking with same | gone
      · exact same.trans (isEmpty name)
      · exact gone
    · by_cases isStored : ∃ bytes, (name, bytes) ∈ listing.content
      · rcases isStored with ⟨bytes, member⟩
        rcases Listing.mem_content_iff.mp member with ⟨isName, present⟩
        rw [if_pos isName]
        exact (stored.stored _ member).trans present.symm
      · have other : ∀ item ∈ listing.content, (⟨.directory, name⟩ : File) ≠ thumbnail item.1 := by
          rintro ⟨found, bytes⟩ member equal
          cases equal
          exact isStored ⟨bytes, member⟩
        rw [stored.others _ isWorking other, isEmpty]
        split
        · rename_i isName
          cases present : disk ⟨.directory, name⟩ with
          | none => rfl
          | some bytes =>
              exact absurd ⟨bytes, Listing.mem_content_iff.mpr ⟨isName, present⟩⟩ isStored
        · rfl
  · rcases ends disk with ⟨result, after, isRun, stored⟩
    refine ⟨result, after, isRun, fun file => ?_⟩
    by_cases isWorking : IsWorkingFile file
    · rcases stored.working file isWorking with same | gone
      · exact Or.inl same
      · exact Or.inr ⟨isWorking, gone⟩
    · left
      by_cases isStored : ∃ item ∈ listing.content, file = thumbnail item.1
      · rcases isStored with ⟨⟨name, bytes⟩, member, rfl⟩
        exact (stored.stored _ member).trans (Listing.mem_content_iff.mp member).2.symm
      · exact stored.others file isWorking fun item member equal =>
          isStored ⟨item, member, equal⟩

/-! ## A store with one thumbnail -/

/-- A reader that delivers every entry in one buffer. -/
def WrittenEntry.inOneBuffer (written : WrittenEntry) : ZipEntry where
  name := written.name
  size := -1
  chunks := [written.bytes]
  failure := none
  closeFailure := none

def readBack (written : List WrittenEntry) : Archive where
  openFailure := none
  entries := written.map fun entry => (entry.inOneBuffer, smoothEntry)
  ending := none
  closeFailure := none

theorem smoothEntry_works : smoothEntry.Work where
  creates := ⟨['1'], rfl⟩
  copies := rfl
  replaces := rfl
  deletes := rfl

theorem readBack_holds (written : List WrittenEntry) : (readBack written).Holds written where
  opens := rfl
  entries := by
    rw [readBack, List.forall₂_map_right_iff]
    apply List.forall₂_same.mpr
    intro entry _
    constructor
    · exact ⟨rfl, Int.le_trans (by decide : (-1 : Int) ≤ 0) (Int.natCast_nonneg _), by simp [WrittenEntry.inOneBuffer],
        rfl, rfl⟩
    · exact smoothEntry_works
  ends := rfl
  closes := rfl

def oneThumbnail : Disk :=
  Function.update (fun _ => none) someThumbnail (some [1])

theorem isThumbnailName_someThumbnail : isThumbnailName someThumbnail.name = true := by
  decide

def oneListing : Listing oneThumbnail where
  names := [someThumbnail.name]
  nodup := List.nodup_singleton _
  mem_iff := by
    intro name
    rw [List.mem_singleton]
    constructor
    · rintro rfl
      exact ⟨isThumbnailName_someThumbnail, by simp [oneThumbnail, thumbnail, someThumbnail]⟩
    · rintro ⟨_, present⟩
      by_contra other
      have absent : oneThumbnail (thumbnail name) = none :=
        Function.update_of_ne (fun equal => other (congrArg File.name equal)) _ _
      rw [absent] at present
      cases present

def someDate : DateText where
  text := "Thu Jan 01 00:00:00 GMT 1970".toList
  printable := fun c member => of_decide_eq_true (List.all_eq_true.mp
    (show ("Thu Jan 01 00:00:00 GMT 1970".toList.all fun c =>
      decide (0x20 ≤ c.toNat ∧ c.toNat ≤ 0x7e)) = true by decide) c member)
  short := by decide

def someSetting : ExportSetting where
  now := 0
  isLong := Nat.zero_le _
  date := someDate
  enumerate := id
  perm := fun properties => .refl properties

theorem oneThumbnail_withinLimits : WithinLimits (fun _ => true) oneThumbnail oneListing where
  few := by decide
  small := by
    intro name listed bytes present
    cases List.mem_singleton.mp listed
    have same : oneThumbnail (thumbnail someThumbnail.name) = some [1] := Function.update_self ..
    cases present.symm.trans same
    decide
  total := by
    have same : oneThumbnail (thumbnail someThumbnail.name) = some [1] := Function.update_self ..
    simp only [oneListing, List.map_cons, List.map_nil, same]
    decide
  usable := by
    intro name listed
    cases List.mem_singleton.mp listed
    have same : oneThumbnail (thumbnail someThumbnail.name) = some [1] := Function.update_self ..
    simp [isUsableThumbnail, same]

theorem exportCache_roundTrip_oneThumbnail :
    (∀ empty : Disk, (∀ name, empty ⟨.directory, name⟩ = none) →
      ∃ result after, importCacheInternal (fun _ => true) .image
          (readBack (exportCacheInternal .image someSetting oneThumbnail oneListing).2) ⟨empty, []⟩ =
            (.ok result, after) ∧
        ∀ name, after.disk ⟨.directory, name⟩ =
          if isThumbnailName name = true then oneThumbnail ⟨.directory, name⟩ else none) ∧
    ∃ result after, importCacheInternal (fun _ => true) .image
        (readBack (exportCacheInternal .image someSetting oneThumbnail oneListing).2)
          ⟨oneThumbnail, []⟩ = (.ok result, after) ∧
      ∀ file, after.disk file = oneThumbnail file ∨ IsWorkingFile file ∧ after.disk file = none :=
  exportCache_roundTrip (fun _ => true) .image someSetting oneThumbnail oneListing
    (readBack (exportCacheInternal .image someSetting oneThumbnail oneListing).2)
    oneThumbnail_withinLimits (readBack_holds _)

end RoundSync.Thumbnails.Archives
