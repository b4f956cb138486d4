import RoundSync.Data.FailingFiles
import RoundSync.Text.JavaString

/-!
# Replacement of a thumbnail by an imported one

`ThumbnailRepository.replaceImportedThumbnailLocked`: the imported bytes are staged beside
the destination, the old thumbnail is renamed to a backup, and the staged file takes its
place; an exception restores the backup.  The `catch` block takes the backup for restored
even when both calls that restore it have failed, and the `finally` block then deletes the
only copy that is left.
-/

namespace RoundSync.Thumbnails.Archives

open RoundSync.Data
open RoundSync.Text
open RoundSync.Transition

/-- The directories of a store, and every other one. -/
inductive Folder where
  | directory
  | workDirectory
  | elsewhere (path : JavaString)
  deriving DecidableEq

structure File where
  parent : Folder
  name : JavaString
  deriving DecidableEq

/-- The files of the device. -/
abbrev Disk := Files File UInt8

/-- Bounds are decoded from a file that is not empty; `decodes` tells the bytes of which an
image is decoded. -/
def isUsableThumbnail (decodes : List UInt8 → Bool) (disk : Disk) (file : File) : Bool :=
  match disk file with
  | some bytes => !bytes.isEmpty && decodes bytes
  | none => false

/-- What becomes of the calls of a replacement, in the order of its text. -/
structure ReplacementFates where
  deletesOldStaging : Bool
  deletesOldBackup : Bool
  stages : CopyFate UInt8
  backsUp : Bool
  renamesIn : Bool
  copiesIn : CopyFate UInt8
  deletesBackup : Bool
  deletesDestination : Bool
  renamesBack : Bool
  copiesBack : CopyFate UInt8
  deletesCopied : Bool
  deletesStaging : Bool
  deletesBackupAtEnd : Bool

/-- An exception of the import. -/
inductive ImportException where
  | zip
  | io
  | runtime
  deriving DecidableEq

namespace ReplacementFates

variable (decodes : List UInt8 → Bool) (fates : ReplacementFates)
  (source staging backup destination : File)

/-- The end of the `try` block: the destination is checked, and the backup is given up. -/
def confirm (destinationBackedUp : Bool) : Effect Disk Bool PUnit := do
  let written ← Effect.read
  if ((written destination).getD []).isEmpty then .fail destinationBackedUp
  else Files.deleteQuietly fates.deletesBackup backup

/-- The `try` block from the rename of the staged file on. -/
def moveIn (destinationBackedUp : Bool) : Effect Disk Bool PUnit := do
  let renamed ← Files.renameTo fates.renamesIn staging destination
  if renamed = false then Files.copyFile fates.copiesIn destinationBackedUp staging destination
  else pure .unit
  fates.confirm backup destination destinationBackedUp

/-- The `try` block once the imported bytes are staged. -/
def exchange : Effect Disk Bool PUnit := do
  let staged ← Effect.read
  if (staged destination).isSome = true then do
    let renamed ← Files.renameTo fates.backsUp destination backup
    if renamed = false then .fail false
    else fates.moveIn staging backup destination true
  else fates.moveIn staging backup destination false

/-- The `try` block; what it throws carries `destinationBackedUp`. -/
def place : Effect Disk Bool PUnit := do
  Files.copyFile fates.stages false source staging
  let staged ← Effect.read
  if isUsableThumbnail decodes staged staging = false then .fail false
  else fates.exchange staging backup destination

/-- The `catch` block before it throws again; it leaves `destinationBackedUp` unset. -/
def restore (destinationOriginallyExisted destinationBackedUp : Bool) :
    Effect Disk ImportException PUnit := do
  if destinationBackedUp || !destinationOriginallyExisted then
    Files.deleteQuietly fates.deletesDestination destination
  else pure .unit
  if destinationBackedUp then do
    let renamed ← Files.renameTo fates.renamesBack backup destination
    if renamed = false then do
      -- an exception of the restoring copy is only recorded
      let _ ← Effect.attempt (do
        Files.copyFile fates.copiesBack ImportException.io backup destination
        Files.deleteQuietly fates.deletesCopied backup)
      pure .unit
    else pure .unit
  else pure .unit

end ReplacementFates

def staging (destination : File) : File :=
  ⟨.directory, destination.name ++ ".importing".toList⟩

def backup (destination : File) : File :=
  ⟨.directory, destination.name ++ ".backup".toList⟩

def replaceImportedThumbnailLocked (decodes : List UInt8 → Bool) (fates : ReplacementFates)
    (source destination : File) : Effect Disk ImportException PUnit := do
  let disk ← Effect.read
  let destinationOriginallyExisted := (disk destination).isSome
  Files.deleteQuietly fates.deletesOldStaging (staging destination)
  Files.deleteQuietly fates.deletesOldBackup (backup destination)
  let outcome ← Effect.capture
    (fates.place decodes source (staging destination) (backup destination) destination)
  match outcome with
  | .ok _ => pure .unit
  | .error destinationBackedUp =>
      fates.restore (backup destination) destination destinationOriginallyExisted
        destinationBackedUp
  -- both blocks leave `destinationBackedUp` unset
  Files.deleteQuietly fates.deletesStaging (staging destination)
  Files.deleteQuietly fates.deletesBackupAtEnd (backup destination)
  match outcome with
  | .ok _ => pure .unit
  | .error _ => .fail .io

/-! ## The two blocks -/

namespace ReplacementFates

variable {decodes : List UInt8 → Bool} {fates : ReplacementFates}
  {source staging backup destination : File} {disk : Disk}

/-- The imported bytes are staged, and an image is decoded from them. -/
def Staged (decodes : List UInt8 → Bool) (fates : ReplacementFates) (disk : Disk)
    (source : File) : Prop :=
  fates.stages = .works ∧ isUsableThumbnail decodes disk source = true

/-- A staged file gets into the destination. -/
def MovesIn (fates : ReplacementFates) : Prop :=
  fates.renamesIn = true ∨ fates.copiesIn = .works

/-- The staged file takes the destination's place. -/
def Placed (decodes : List UInt8 → Bool) (fates : ReplacementFates) (disk : Disk)
    (source destination : File) : Prop :=
  Staged decodes fates disk source ∧
    ((disk destination).isSome = true → fates.backsUp = true) ∧ fates.MovesIn

/-- The old thumbnail is in the backup when the staged file cannot take its place. -/
def Interrupted (decodes : List UInt8 → Bool) (fates : ReplacementFates) (disk : Disk)
    (source destination : File) : Prop :=
  Staged decodes fates disk source ∧
    ((disk destination).isSome = true ∧ fates.backsUp = true) ∧ ¬fates.MovesIn

theorem exists_of_usable (usable : isUsableThumbnail decodes disk source = true) :
    ∃ bytes, disk source = some bytes ∧ bytes.isEmpty = false ∧ decodes bytes = true := by
  unfold isUsableThumbnail at usable
  split at usable
  · rename_i bytes present
    simp only [Bool.and_eq_true, Bool.not_eq_true'] at usable
    exact ⟨bytes, present, usable⟩
  · cases usable

theorem isUsableThumbnail_congr {disk' : Disk} {file : File} (same : disk' file = disk source) :
    isUsableThumbnail decodes disk' file = isUsableThumbnail decodes disk source := by
  simp only [isUsableThumbnail, same]

theorem confirm_ensures {destinationBackedUp : Bool} {bytes : List UInt8}
    {Q : PUnit → Disk → Prop} {E : Bool → Disk → Prop} (inPlace : disk destination = some bytes)
    (filled : bytes.isEmpty = false) :
    (fates.confirm backup destination destinationBackedUp).Ensures disk Q E ↔
      Q .unit (Files.remove fates.deletesBackup backup disk) := by
  simp only [confirm, Effect.ensures_bind, Effect.ensures_read, inPlace, Option.getD_some, filled,
    Bool.false_eq_true, if_false, Files.ensures_deleteQuietly]

/-- The `try` block goes on with an empty destination. -/
theorem moveIn_ensures {destinationBackedUp : Bool} {bytes : List UInt8}
    (apart : destination ≠ backup) (other : staging ≠ backup)
    (staged : disk staging = some bytes) (filled : bytes.isEmpty = false)
    (free : disk destination = none) :
    (fates.moveIn staging backup destination destinationBackedUp).Ensures disk
      (fun _ after => fates.MovesIn ∧ after destination = some bytes ∧
        after backup = if fates.deletesBackup = true then none else disk backup)
      fun backedUp after => ¬fates.MovesIn ∧ backedUp = destinationBackedUp ∧
        after destination = fates.copiesIn.leaves none ∧ after backup = disk backup := by
  have finish (moves : fates.MovesIn) (written : Disk) (inPlace : written destination = some bytes)
      (kept : written backup = disk backup) :
      (fates.confirm backup destination destinationBackedUp).Ensures written
        (fun _ after => fates.MovesIn ∧ after destination = some bytes ∧
          after backup = if fates.deletesBackup = true then none else disk backup)
        fun backedUp after => ¬fates.MovesIn ∧ backedUp = destinationBackedUp ∧
          after destination = fates.copiesIn.leaves none ∧ after backup = disk backup := by
    rw [confirm_ensures inPlace filled, Files.remove_of_ne apart, Files.remove_self, kept]
    exact ⟨moves, inPlace, rfl⟩
  rw [moveIn, Effect.ensures_bind, Files.ensures_renameTo_of_some staged]
  by_cases renames : fates.renamesIn = true
  · rw [if_pos renames]
    apply finish (Or.inl renames)
    · exact Function.update_self ..
    · rw [Function.update_of_ne apart.symm, Function.update_of_ne other.symm]
  · rw [if_neg renames, if_pos rfl, Effect.ensures_bind, Files.ensures_copyFile_of_some staged]
    cases copies : fates.copiesIn with
    | works =>
        have copied := finish (Or.inr copies) (Function.update disk destination (some bytes))
          (Function.update_self ..) (Function.update_of_ne apart.symm _ _)
        rw [copies] at copied
        exact copied
    | unopened => simp [MovesIn, renames, copies, CopyFate.leaves, free]
    | torn left =>
        simp [MovesIn, renames, copies, CopyFate.leaves, Function.update_of_ne apart.symm]

/-- The `try` block with the imported bytes staged. -/
theorem exchange_ensures {bytes : List UInt8} (first : destination ≠ backup)
    (second : staging ≠ backup) (third : destination ≠ staging)
    (staged : disk staging = some bytes) (filled : bytes.isEmpty = false) :
    (fates.exchange staging backup destination).Ensures disk
      (fun _ after => ((disk destination).isSome = true → fates.backsUp = true) ∧
        fates.MovesIn ∧ after destination = some bytes ∧ after backup =
          if fates.deletesBackup = true then none else (disk destination).or (disk backup))
      fun backedUp after =>
        (((disk destination).isSome = true → fates.backsUp = true) → ¬fates.MovesIn) ∧
        (backedUp = true →
          (((disk destination).isSome = true ∧ fates.backsUp = true) ∧ ¬fates.MovesIn) ∧
          after destination = fates.copiesIn.leaves none ∧ after backup = disk destination) ∧
        (backedUp = false →
          ¬(((disk destination).isSome = true ∧ fates.backsUp = true) ∧ ¬fates.MovesIn) ∧
          ((disk destination).isSome = true → after destination = disk destination)) := by
  rw [exchange, Effect.ensures_bind, Effect.ensures_read]
  cases old : disk destination with
  | none =>
      rw [if_neg (by simp)]
      apply (moveIn_ensures first second staged filled old).mono
      · rintro _ after ⟨moves, inPlace, kept⟩
        exact ⟨fun impossible => by simp at impossible, moves, inPlace, kept⟩
      · rintro _ after ⟨stays, rfl, _, _⟩
        exact ⟨fun _ => stays, fun impossible => by simp at impossible,
          fun _ => ⟨fun other => by simp at other, fun impossible => by simp at impossible⟩⟩
  | some original =>
      rw [if_pos Option.isSome_some, Effect.ensures_bind, Files.ensures_renameTo_of_some old]
      by_cases backsUp : fates.backsUp = true
      · rw [if_pos backsUp, if_neg (by simp)]
        apply (moveIn_ensures first second _ filled _).mono
        · rintro _ after ⟨moves, inPlace, kept⟩
          rw [Function.update_self] at kept
          exact ⟨fun _ => backsUp, moves, inPlace, kept⟩
        · rintro _ after ⟨stays, rfl, left, kept⟩
          rw [Function.update_self] at kept
          exact ⟨fun _ => stays, fun _ => ⟨⟨⟨rfl, backsUp⟩, stays⟩, left, kept⟩,
            fun impossible => by simp at impossible⟩
        · rw [Function.update_of_ne second, Function.update_of_ne third.symm]
          exact staged
        · rw [Function.update_of_ne first]
          exact Function.update_self ..
      · rw [if_neg backsUp, if_pos rfl, Effect.ensures_fail]
        exact ⟨fun allowed => absurd (allowed rfl) backsUp, fun impossible => by simp at impossible,
          fun _ => ⟨fun other => backsUp other.1.2, fun _ => old⟩⟩

/-- What the `try` block does when the files it names are apart. -/
theorem place_ensures (first : destination ≠ backup) (second : staging ≠ backup)
    (third : destination ≠ staging) :
    (fates.place decodes source staging backup destination).Ensures disk
      (fun _ after => Placed decodes fates disk source destination ∧
        after destination = disk source ∧ after backup =
          if fates.deletesBackup = true then none else (disk destination).or (disk backup))
      fun backedUp after => ¬Placed decodes fates disk source destination ∧
        (backedUp = true → Interrupted decodes fates disk source destination ∧
          after destination = fates.copiesIn.leaves none ∧ after backup = disk destination) ∧
        (backedUp = false → ¬Interrupted decodes fates disk source destination ∧
          ((disk destination).isSome = true → after destination = disk destination)) := by
  have refused (not : ¬Staged decodes fates disk source) (after : Disk)
      (same : after destination = disk destination) :
      ¬Placed decodes fates disk source destination ∧
        (false = true → Interrupted decodes fates disk source destination ∧
          after destination = fates.copiesIn.leaves none ∧ after backup = disk destination) ∧
        (false = false → ¬Interrupted decodes fates disk source destination ∧
          ((disk destination).isSome = true → after destination = disk destination)) :=
    ⟨fun placed => not placed.1, fun impossible => Bool.noConfusion impossible,
      fun _ => ⟨fun interrupted => not interrupted.1, fun _ => same⟩⟩
  rw [place, Effect.ensures_bind]
  cases present : disk source with
  | none =>
      rw [Files.ensures_copyFile_of_none present]
      apply refused _ disk rfl
      rintro ⟨_, usable⟩
      rcases exists_of_usable usable with ⟨bytes, found, _⟩
      rw [present] at found
      cases found
  | some bytes =>
      rw [Files.ensures_copyFile_of_some present]
      cases stages : fates.stages with
      | unopened => exact refused (fun staged => by simp [Staged, stages] at staged) disk rfl
      | torn left =>
          exact refused (fun staged => by simp [Staged, stages] at staged) _
            (Function.update_of_ne third _ _)
      | works =>
          have sameUsable : isUsableThumbnail decodes (Function.update disk staging (some bytes))
              staging = isUsableThumbnail decodes disk source :=
            isUsableThumbnail_congr ((Function.update_self ..).trans present.symm)
          have sameDestination :
              Function.update disk staging (some bytes) destination = disk destination :=
            Function.update_of_ne third _ _
          have sameBackup : Function.update disk staging (some bytes) backup = disk backup :=
            Function.update_of_ne second.symm _ _
          simp only [Effect.ensures_bind, Effect.ensures_read, sameUsable]
          by_cases usable : isUsableThumbnail decodes disk source = true
          · have filled : bytes.isEmpty = false := by
              rcases exists_of_usable usable with ⟨found, isFound, filled, _⟩
              cases present.symm.trans isFound
              exact filled
            rw [if_neg (by simp [usable])]
            apply (exchange_ensures first second third (Function.update_self ..) filled).mono
            · rintro _ after ⟨aside, moves, inPlace, kept⟩
              rw [sameDestination] at aside kept
              rw [sameBackup] at kept
              exact ⟨⟨⟨stages, usable⟩, aside, moves⟩, inPlace, kept⟩
            · rintro backedUp after ⟨fails, interrupted, spared⟩
              rw [sameDestination] at fails interrupted spared
              constructor
              · intro placed
                exact fails placed.2.1 placed.2.2
              constructor
              · intro isBackedUp
                exact ⟨⟨⟨stages, usable⟩, (interrupted isBackedUp).1⟩, (interrupted isBackedUp).2⟩
              · intro notBackedUp
                exact ⟨fun other => (spared notBackedUp).1 other.2, (spared notBackedUp).2⟩
          · rw [if_pos (by simpa using usable), Effect.ensures_fail]
            exact refused (fun staged => usable staged.2) _ sameDestination

/-- One of the two calls that restore the backup works. -/
def BringsBack (fates : ReplacementFates) : Prop :=
  fates.renamesBack = true ∨ fates.copiesBack = .works

/-- The `catch` block with the old thumbnail in the backup. -/
theorem restore_ensures {existed : Bool} {original : List UInt8} (apart : destination ≠ backup)
    (kept : disk backup = some original) :
    (fates.restore backup destination existed true).Ensures disk
      (fun _ after => (fates.BringsBack → after destination = some original) ∧
        (¬fates.BringsBack → after backup = some original ∧ after destination =
          fates.copiesBack.leaves
            (if fates.deletesDestination = true then none else disk destination)))
      fun _ _ => False := by
  have stillKept : Files.remove fates.deletesDestination destination disk backup = some original :=
    (Files.remove_of_ne apart.symm).trans kept
  simp only [restore, Bool.true_or, if_true, Effect.ensures_bind, Files.ensures_deleteQuietly]
  rw [Files.ensures_renameTo_of_some stillKept]
  by_cases renames : fates.renamesBack = true
  · rw [if_pos renames, if_neg (by simp), Effect.ensures_pure]
    exact ⟨fun _ => Function.update_self .., fun not => absurd (Or.inl renames) not⟩
  · rw [if_neg renames, if_pos rfl, Effect.ensures_bind, Effect.ensures_attempt,
      Effect.ensures_bind, Files.ensures_copyFile_of_some stillKept]
    cases copies : fates.copiesBack with
    | works =>
        rw [Files.ensures_deleteQuietly, Effect.ensures_pure, Files.remove_of_ne apart]
        exact ⟨fun _ => Function.update_self .., fun not => absurd (Or.inr copies) not⟩
    | unopened =>
        refine ⟨fun back => ?_, fun _ => ⟨stillKept, Files.remove_self⟩⟩
        simp [BringsBack, renames, copies] at back
    | torn left =>
        refine ⟨fun back => ?_, fun _ => ⟨?_, Function.update_self ..⟩⟩
        · simp [BringsBack, renames, copies] at back
        · rw [Function.update_of_ne apart.symm, stillKept]

/-- Without a backup, the `catch` block spares a thumbnail that was there. -/
theorem restore_false {existed : Bool} :
    (fates.restore backup destination existed false).Ensures disk
      (fun _ after => existed = true → after = disk) fun _ _ => False := by
  cases existed with
  | false => simp [restore]
  | true => simp [restore]

end ReplacementFates

theorem staging_ne (destination : File) : destination ≠ staging destination := by
  intro same
  have lengths := congrArg (fun file => file.name.length) same
  simp [staging] at lengths

theorem backup_ne (destination : File) : destination ≠ backup destination := by
  intro same
  have lengths := congrArg (fun file => file.name.length) same
  simp [backup] at lengths

theorem staging_ne_backup (destination : File) : staging destination ≠ backup destination := by
  intro same
  have lengths := congrArg (fun file => file.name.length) same
  simp [staging, backup] at lengths

/-! ## One good copy is kept -/

section Keeps

variable (decodes : List UInt8 → Bool) (fates : ReplacementFates) (disk : Disk)
  (source destination : File)

/-- A replacement that returns has the complete import in the destination and no backup
left; after one that throws, the destination or the backup still holds the old thumbnail. -/
def KeepsGoodCopy : Prop :=
  (replaceImportedThumbnailLocked decodes fates source destination).Ensures disk
    (fun _ after =>
      (∃ imported, disk source = some imported ∧ after destination = some imported) ∧
        after (backup destination) = none)
    fun _ after => ∀ original, disk destination = some original →
      after destination = some original ∨ after (backup destination) = some original

/-- Neither call restores the backup, which is then deleted, and the failed copies do not
happen to have left the old bytes. -/
def LosesOriginal : Prop :=
  fates.Interrupted decodes disk source destination ∧ ¬fates.BringsBack ∧
    fates.deletesBackupAtEnd = true ∧
    fates.copiesBack.leaves
      (if fates.deletesDestination = true then none else fates.copiesIn.leaves none) ≠
        disk destination

/-- There is a backup after the replacement, and neither deletion works. -/
def LeavesBackup : Prop :=
  fates.Placed decodes disk source destination ∧
    ((disk destination).isSome = true ∨
      fates.deletesOldBackup = false ∧ (disk (backup destination)).isSome = true) ∧
    fates.deletesBackup = false ∧ fates.deletesBackupAtEnd = false

end Keeps

variable {decodes : List UInt8 → Bool} {fates : ReplacementFates} {disk disk' : Disk}
  {source destination : File}

theorem placed_congr (sameSource : disk' source = disk source)
    (sameDestination : disk' destination = disk destination) :
    fates.Placed decodes disk' source destination ↔
      fates.Placed decodes disk source destination := by
  simp only [ReplacementFates.Placed, ReplacementFates.Staged, isUsableThumbnail, sameSource,
    sameDestination]

theorem interrupted_congr (sameSource : disk' source = disk source)
    (sameDestination : disk' destination = disk destination) :
    fates.Interrupted decodes disk' source destination ↔
      fates.Interrupted decodes disk source destination := by
  simp only [ReplacementFates.Interrupted, ReplacementFates.Staged, isUsableThumbnail, sameSource,
    sameDestination]

theorem not_placed_of_interrupted
    (interrupted : fates.Interrupted decodes disk source destination) :
    ¬fates.Placed decodes disk source destination :=
  fun placed => interrupted.2.2 placed.2.2

/-- What is in the backup before the last deletion of a replacement that returns. -/
theorem leavesBackup_iff (placed : fates.Placed decodes disk source destination) :
    LeavesBackup decodes fates disk source destination ↔
      ¬(if fates.deletesBackupAtEnd = true then none else
        if fates.deletesBackup = true then none else
          (disk destination).or (if fates.deletesOldBackup = true then none else
            disk (backup destination))) = none := by
  simp only [LeavesBackup, placed, true_and]
  cases fates.deletesBackupAtEnd with
  | true => simp
  | false =>
      cases fates.deletesBackup with
      | true => simp
      | false =>
          cases fates.deletesOldBackup with
          | true => simp [Option.isSome_iff_ne_none]
          | false => simp [Option.isSome_iff_ne_none, ← not_and_or]

/-- How a replacement ends: it returns with the import in the destination, or it throws
with an old thumbnail that was never moved, brought back or given up. -/
theorem replaceImportedThumbnailLocked_ensures (notStaging : source ≠ staging destination)
    (notBackup : source ≠ backup destination) :
    (replaceImportedThumbnailLocked decodes fates source destination).Ensures disk
      (fun _ after => fates.Placed decodes disk source destination ∧
        after destination = disk source ∧ after (backup destination) =
          (if fates.deletesBackupAtEnd = true then none else
            if fates.deletesBackup = true then none else
              (disk destination).or (if fates.deletesOldBackup = true then none else
                disk (backup destination))) ∧
        (fates.deletesStaging = true → after (staging destination) = none))
      fun _ after => ¬fates.Placed decodes disk source destination ∧
        (¬fates.Interrupted decodes disk source destination ∧
          ((disk destination).isSome = true → after destination = disk destination) ∨
        fates.Interrupted decodes disk source destination ∧
          (fates.BringsBack → after destination = disk destination) ∧
          (¬fates.BringsBack → after (backup destination) =
              (if fates.deletesBackupAtEnd = true then none else disk destination) ∧
            after destination = fates.copiesBack.leaves
              (if fates.deletesDestination = true then none else fates.copiesIn.leaves none))) := by
  let cleared := Files.remove fates.deletesOldBackup (backup destination)
    (Files.remove fates.deletesOldStaging (staging destination) disk)
  have sameSource : cleared source = disk source :=
    (Files.remove_of_ne notBackup).trans (Files.remove_of_ne notStaging)
  have sameDestination : cleared destination = disk destination :=
    (Files.remove_of_ne (backup_ne destination)).trans (Files.remove_of_ne (staging_ne destination))
  have oldBackup : cleared (backup destination) =
      if fates.deletesOldBackup = true then none else disk (backup destination) :=
    Files.remove_self.trans
      (by rw [Files.remove_of_ne (staging_ne_backup destination).symm])
  have endDestination (after : Disk) : Files.remove fates.deletesBackupAtEnd (backup destination)
      (Files.remove fates.deletesStaging (staging destination) after) destination =
        after destination :=
    (Files.remove_of_ne (backup_ne destination)).trans (Files.remove_of_ne (staging_ne destination))
  have endBackup (after : Disk) : Files.remove fates.deletesBackupAtEnd (backup destination)
      (Files.remove fates.deletesStaging (staging destination) after) (backup destination) =
        if fates.deletesBackupAtEnd = true then none else after (backup destination) :=
    Files.remove_self.trans
      (by rw [Files.remove_of_ne (staging_ne_backup destination).symm])
  simp only [replaceImportedThumbnailLocked, Effect.ensures_bind, Effect.ensures_read,
    Files.ensures_deleteQuietly, Effect.ensures_capture, Effect.ensures_pure, endDestination,
    endBackup, Effect.ensures_fail]
  change (fates.place decodes source (staging destination) (backup destination)
    destination).Ensures cleared _ _
  apply (ReplacementFates.place_ensures (backup_ne destination) (staging_ne_backup destination)
    (staging_ne destination)).mono
  · rintro _ after ⟨placed, inPlace, kept⟩
    rw [sameDestination, oldBackup] at kept
    rw [kept]
    refine ⟨(placed_congr sameSource sameDestination).mp placed, inPlace.trans sameSource, rfl,
      fun deletes => ?_⟩
    rw [Files.remove_of_ne (staging_ne_backup destination), Files.remove_self, if_pos deletes]
  · rintro destinationBackedUp after ⟨notPlaced, interrupted, spared⟩
    rw [placed_congr sameSource sameDestination] at notPlaced
    rw [interrupted_congr sameSource sameDestination, sameDestination] at interrupted spared
    cases destinationBackedUp with
    | false =>
        rcases spared rfl with ⟨notInterrupted, same⟩
        apply ReplacementFates.restore_false.mono
        · rintro _ reached untouched
          refine ⟨notPlaced, Or.inl ⟨notInterrupted, fun present => ?_⟩⟩
          rw [untouched present, same present]
        · exact fun _ _ impossible => impossible.elim
    | true =>
        rcases interrupted rfl with ⟨isInterrupted, left, kept⟩
        rcases Option.isSome_iff_exists.mp isInterrupted.2.1.1 with ⟨original, isOriginal⟩
        apply (ReplacementFates.restore_ensures (backup_ne destination)
          (kept.trans isOriginal)).mono
        · rintro _ reached ⟨back, lost⟩
          rw [left] at lost
          rw [isOriginal]
          refine ⟨notPlaced, Or.inr ⟨isInterrupted, back, fun gone => ?_⟩⟩
          rcases lost gone with ⟨inBackup, inDestination⟩
          rw [inBackup]
          exact ⟨rfl, inDestination⟩
        · exact fun _ _ impossible => impossible.elim

theorem keepsGoodCopy_iff_of_ne (notStaging : source ≠ staging destination)
    (notBackup : source ≠ backup destination) :
    KeepsGoodCopy decodes fates disk source destination ↔
      ¬LosesOriginal decodes fates disk source destination ∧
        ¬LeavesBackup decodes fates disk source destination := by
  apply Effect.ensures_iff_of
  apply (replaceImportedThumbnailLocked_ensures notStaging notBackup).mono
  · rintro _ after ⟨placed, inPlace, kept, _⟩
    rcases ReplacementFates.exists_of_usable placed.1.2 with ⟨imported, isImported, _⟩
    have notLost : ¬LosesOriginal decodes fates disk source destination :=
      fun loses => not_placed_of_interrupted loses.1 placed
    rw [leavesBackup_iff placed, kept, inPlace, not_not]
    exact ⟨fun keeps => ⟨notLost, keeps.2⟩,
      fun keeps => ⟨⟨imported, isImported, isImported⟩, keeps.2⟩⟩
  · rintro _ after ⟨notPlaced, ⟨notInterrupted, same⟩ | ⟨isInterrupted, back, lost⟩⟩
    · apply iff_of_true _ ⟨fun loses => notInterrupted loses.1, fun leaves => notPlaced leaves.1⟩
      intro original isOriginal
      exact Or.inl ((same (by simp [isOriginal])).trans isOriginal)
    · have noBackup : ¬LeavesBackup decodes fates disk source destination :=
        fun leaves => notPlaced leaves.1
      by_cases bringsBack : fates.BringsBack
      · apply iff_of_true _ ⟨fun loses => loses.2.1 bringsBack, noBackup⟩
        intro original isOriginal
        exact Or.inl ((back bringsBack).trans isOriginal)
      · rcases lost bringsBack with ⟨inBackup, inDestination⟩
        rcases Option.isSome_iff_exists.mp isInterrupted.2.1.1 with ⟨original, isOriginal⟩
        simp only [LosesOriginal, isInterrupted, bringsBack, not_false_eq_true, true_and,
          noBackup, and_true, isOriginal, Option.some.injEq, forall_eq', inBackup, inDestination]
        cases fates.deletesBackupAtEnd with
        | false => simp
        | true => simp

/-- **One good copy.**  A replacement by a file of the work directory keeps one good copy
except where both calls that restore the backup fail and its deletion works, and where both
deletions of the backup fail. -/
theorem keepsGoodCopy_iff (decodes : List UInt8 → Bool) (fates : ReplacementFates) (disk : Disk)
    (temporary name : JavaString) :
    KeepsGoodCopy decodes fates disk ⟨.workDirectory, temporary⟩ ⟨.directory, name⟩ ↔
      ¬LosesOriginal decodes fates disk ⟨.workDirectory, temporary⟩ ⟨.directory, name⟩ ∧
        ¬LeavesBackup decodes fates disk ⟨.workDirectory, temporary⟩ ⟨.directory, name⟩ := by
  apply keepsGoodCopy_iff_of_ne
  · simp [staging]
  · simp [backup]

/-! ## What a replacement leaves alone -/

namespace ReplacementFates

variable {staging backup : File} {inside : File → Prop}

theorem confirm_spares {destinationBackedUp : Bool} (third : ¬inside backup) :
    Files.Spares inside (fates.confirm backup destination destinationBackedUp) :=
  .bind .read fun _ => .ite (.fail _) (.deleteQuietly third)

theorem moveIn_spares {destinationBackedUp : Bool} (first : ¬inside destination)
    (second : ¬inside staging) (third : ¬inside backup) :
    Files.Spares inside (fates.moveIn staging backup destination destinationBackedUp) :=
  .bind (.renameTo second first) fun _ =>
    .ite (.bind (.copyFile first) fun _ => confirm_spares third) (confirm_spares third)

theorem exchange_spares (first : ¬inside destination) (second : ¬inside staging)
    (third : ¬inside backup) : Files.Spares inside (fates.exchange staging backup destination) :=
  .bind .read fun _ =>
    .ite (.bind (.renameTo first third) fun _ => .ite (.fail _) (moveIn_spares first second third))
      (moveIn_spares first second third)

theorem place_spares (first : ¬inside destination) (second : ¬inside staging)
    (third : ¬inside backup) :
    Files.Spares inside (fates.place decodes source staging backup destination) :=
  .bind (.copyFile second) fun _ => .bind .read fun _ =>
    .ite (.fail _) (exchange_spares first second third)

theorem restore_spares {existed destinationBackedUp : Bool} (first : ¬inside destination)
    (third : ¬inside backup) :
    Files.Spares inside (fates.restore backup destination existed destinationBackedUp) := by
  have restoring : Files.Spares inside (do
      let renamed ← Files.renameTo fates.renamesBack backup destination
      if renamed = false then do
        let _ ← Effect.attempt (do
          Files.copyFile fates.copiesBack ImportException.io backup destination
          Files.deleteQuietly fates.deletesCopied backup)
        pure .unit
      else pure .unit : Effect Disk ImportException PUnit) :=
    .bind (.renameTo third first) fun _ =>
      .ite (.bind (.attempt (.bind (.copyFile first) fun _ => .deleteQuietly third))
        fun _ => .pure _) (.pure _)
  exact .ite (.bind (.deleteQuietly first) fun _ => .ite restoring (.pure _))
    (.ite restoring (.pure _))

end ReplacementFates

/-- A replacement touches its destination and the two files beside it. -/
theorem replaceImportedThumbnailLocked_spares {inside : File → Prop}
    (first : ¬inside destination) (second : ¬inside (staging destination))
    (third : ¬inside (backup destination)) :
    Files.Spares inside (replaceImportedThumbnailLocked decodes fates source destination) := by
  have cleanUp (outcome : Except Bool PUnit) : Files.Spares inside (do
      Files.deleteQuietly fates.deletesStaging (staging destination)
      Files.deleteQuietly fates.deletesBackupAtEnd (backup destination)
      match outcome with
      | .ok _ => pure .unit
      | .error _ => .fail .io : Effect Disk ImportException PUnit) := by
    apply Files.Spares.bind (.deleteQuietly second)
    intro _
    apply Files.Spares.bind (.deleteQuietly third)
    intro _
    cases outcome with
    | ok _ => exact .pure _
    | error _ => exact .fail _
  apply Files.Spares.bind .read
  intro disk
  apply Files.Spares.bind (.deleteQuietly second)
  intro _
  apply Files.Spares.bind (.deleteQuietly third)
  intro _
  apply Files.Spares.bind (.capture (ReplacementFates.place_spares first second third))
  intro outcome
  cases outcome with
  | ok value => exact cleanUp (.ok value)
  | error backedUp =>
      exact .bind (ReplacementFates.restore_spares first third) fun _ => cleanUp (.error backedUp)

/-! ## A lost thumbnail -/

/-- The staged file cannot be moved in, the backup cannot be moved back, and its deletion
works. -/
def fullDevice : ReplacementFates where
  deletesOldStaging := true
  deletesOldBackup := true
  stages := .works
  backsUp := true
  renamesIn := false
  copiesIn := .torn []
  deletesBackup := true
  deletesDestination := true
  renamesBack := false
  copiesBack := .torn []
  deletesCopied := true
  deletesStaging := true
  deletesBackupAtEnd := true

def someThumbnail : File :=
  ⟨.directory, List.replicate 64 'a' ++ ".thumb".toList⟩

def someTemporary : File :=
  ⟨.workDirectory, "thumbnail_import_1.tmp".toList⟩

def oldAndNew : Disk :=
  Function.update (Function.update (fun _ => none) someThumbnail (some [1])) someTemporary
    (some [2])

/-- The old thumbnail is neither in the destination nor in the backup. -/
theorem fullDevice_loses :
    ¬KeepsGoodCopy (fun _ => true) fullDevice oldAndNew someTemporary someThumbnail := by
  intro keeps
  have thrown : replaceImportedThumbnailLocked (fun _ => true) fullDevice someTemporary someThumbnail
      oldAndNew = (.error .io, (replaceImportedThumbnailLocked (fun _ => true) fullDevice
        someTemporary someThumbnail oldAndNew).2) :=
    rfl
  have kept := Effect.Ensures.error keeps thrown [1] (by decide)
  revert kept
  decide

end RoundSync.Thumbnails.Archives
