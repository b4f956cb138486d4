import RoundSync.Transition.Program
import Mathlib.Data.List.Basic
import Mathlib.Logic.Function.Basic

/-!
# Import of the rclone configuration

`copyConfigFile` and `copyConfigFileFromZip` write the picked configuration to
a temporary file, have rclone read it and put it in the place of `rclone.conf`
with `replaceFileSafely`.  Each call on a file may fail, and the process may die
between two of them.  This file says in which runs a complete configuration is
left, in `rclone.conf` or in its backup.
-/

namespace RoundSync.Rclone

open RoundSync.Transition
open RoundSync.Transition.Shop

/-! ## Files -/

/-- The bytes of a configuration file. -/
abbrev ConfigText := List UInt8

/-- `rclone.conf`, `rclone.conf.bak`, `rclone.conf.new` and `rclone.conf-tmp`. -/
inductive ConfigFile where
  | target
  | backup
  | replacement
  | temp
  deriving DecidableEq

/-- What happens to the calls to come: a call may be refused, and a file may be
written up to some byte. -/
inductive Fault where
  | none
  | refused
  | cutShort (written : Nat)
  deriving DecidableEq

/-- The files, and every configuration that has been complete: the first one,
and those that rclone has accepted. -/
structure Disk where
  files : ConfigFile → Option ConfigText
  fault : Fault
  complete : List ConfigText

namespace Disk

def put (s : Disk) (file : ConfigFile) (content : Option ConfigText) : Disk :=
  { s with files := Function.update s.files file content }

@[simp]
theorem files_put (s : Disk) (file : ConfigFile) (content : Option ConfigText) :
    (s.put file content).files = Function.update s.files file content :=
  rfl

@[simp]
theorem complete_put (s : Disk) (file : ConfigFile) (content : Option ConfigText) :
    (s.put file content).complete = s.complete :=
  rfl

/-- Create or truncate the file and write the content; `false` is an `IOException`. -/
def write (s : Disk) (content : ConfigText) (file : ConfigFile) : Bool × Disk :=
  match s.fault with
  | .none => (true, s.put file (some content))
  | .refused => (false, s)
  | .cutShort written => (false, s.put file (some (content.take written)))

theorem write_of_true {s : Disk} {content : ConfigText} {file : ConfigFile}
    (written : (s.write content file).1 = true) :
    (s.write content file).2 = s.put file (some content) := by
  unfold write at written ⊢
  cases fault : s.fault with
  | none => rfl
  | refused => simp [fault] at written
  | cutShort count => simp [fault] at written

end Disk

/-! ## Calls -/

inductive FileCall where
  | exists (file : ConfigFile)
  | delete (file : ConfigFile)
  | renameTo (source dest : ConfigFile)
  | write (content : ConfigText) (file : ConfigFile)
  | copyFile (source dest : ConfigFile)
  | isValidConfig (file : ConfigFile)

abbrev FileCall.Reply : FileCall → Type :=
  fun _ => Bool

/-- The reply to a call and the disk after it.  `isValidConfig` asks rclone,
which takes a missing file for an empty configuration. -/
def answer (accepts : ConfigText → Bool) : (c : FileCall) → Disk → c.Reply × Disk
  | .exists file, s => ((s.files file).isSome, s)
  | .delete file, s =>
      if s.fault = .none then ((s.files file).isSome, s.put file none) else (false, s)
  | .renameTo source dest, s =>
      match s.files source with
      | none => (false, s)
      | some content =>
          if s.fault = .none then (true, (s.put dest (some content)).put source none)
          else (false, s)
  | .write content file, s => s.write content file
  | .copyFile source dest, s =>
      match s.files source with
      | none => (false, s)
      | some content => s.write content dest
  | .isValidConfig file, s =>
      match s.files file with
      | none => (true, s)
      | some content =>
          if s.fault = .none && accepts content then
            (true, { s with complete := content :: s.complete })
          else (false, s)

/-! ## Imports -/

abbrev ImportTask (α : Type) := Program FileCall.Reply α

def ask (c : FileCall) : ImportTask Bool :=
  Program.request c

/-- Rename `rclone.conf` to its backup, or the backup back, if there was one to begin with. -/
def renameIf (hadTarget : Bool) (source dest : ConfigFile) : ImportTask Bool :=
  if hadTarget then ask (.renameTo source dest) else pure true

/-- The last part of `replaceFileSafely`, with the old configuration in the backup. -/
def activate (hadTarget : Bool) : ImportTask (Except String Unit) := do
  if !(← ask (.renameTo .replacement .target)) then
    let restored ← renameIf hadTarget .backup .target
    let _ ← ask (.delete .replacement)
    if !restored then
      pure (.error "Unable to activate imported rclone configuration or restore its backup")
    else pure (.error "Unable to activate imported rclone configuration")
  else
    let _ ← ask (.delete .backup)
    pure (.ok ())

/-- The part of `replaceFileSafely` after the copy. -/
def exchange : ImportTask (Except String Unit) := do
  let hadTarget ← ask (.exists .target)
  if !(← renameIf hadTarget .target .backup) then
    let _ ← ask (.delete .replacement)
    pure (.error "Unable to back up active rclone configuration")
  else activate hadTarget

/-- `replaceFileSafely(rclone.conf-tmp, rclone.conf)`. -/
def replaceFileSafely : ImportTask (Except String Unit) := do
  let _ ← ask (.delete .replacement)
  let _ ← ask (.delete .backup)
  if !(← ask (.copyFile .temp .replacement)) then pure (.error "IOException")
  else exchange

/-- Replace `rclone.conf` by the temporary file, if rclone accepts that. -/
def replaceIfValid : ImportTask (Except String Bool) := do
  if !(← ask (.isValidConfig .temp)) then pure (.ok false)
  else
    let replaced ← replaceFileSafely
    pure (replaced.map fun _ => true)

/-- The part that both imports share: write the temporary file, use it and delete it. -/
def importContent (content : ConfigText) : ImportTask (Except String Bool) := do
  if !(← ask (.write content .temp)) then pure (.error "IOException")
  else
    let result ← replaceIfValid
    let _ ← ask (.delete .temp)
    pure result

/-- `copyConfigFile`, for a picked file with this content. -/
def copyConfigFile (content : ConfigText) : ImportTask (Except String Bool) :=
  importContent content

/-- `copyConfigFileFromZip`, for a package with this `rclone.conf` entry. -/
def copyConfigFileFromZip (entry : Option ConfigText) : ImportTask (Except String Bool) := do
  match entry with
  | none =>
      let _ ← ask (.delete .temp)
      pure (.error "Missing rclone.conf in configuration package")
  | some content => importContent content

inductive Import where
  | file (content : ConfigText)
  | package (entry : Option ConfigText)

def Import.program : Import → ImportTask Unit
  | .file content => do let _ ← copyConfigFile content
  | .package entry => do let _ ← copyConfigFileFromZip entry

/-- Imports one after another, on a disk with faults. -/
def imports (accepts : ConfigText → Bool) : Shop Disk FileCall.Reply Fault Import where
  answer := answer accepts
  outside s fault := { s with fault }
  task := Import.program
  restart s := s

/-! ## Complete configurations -/

variable {accepts : ConfigText → Bool} {s : Disk}

/-- The file, if it is there, holds a complete configuration. -/
def Whole (s : Disk) (file : ConfigFile) : Prop :=
  ∀ content, s.files file = some content → content ∈ s.complete

/-- What a call may do: `rclone.conf` and its backup are only renamed, and the
replacement is renamed only when it is complete. -/
def Protocol (s : Disk) : FileCall → Prop
  | .delete file => file ≠ .target
  | .renameTo .replacement .target => Whole s .replacement
  | .renameTo .target .backup | .renameTo .backup .target => True
  | .renameTo _ _ => False
  | .write _ file => file = .temp
  | .copyFile _ dest => dest = .replacement
  | .exists _ | .isValidConfig _ => True

/-- The call puts nothing but complete configurations into the file. -/
def Spares (s : Disk) (file : ConfigFile) : FileCall → Prop
  | .renameTo source dest => dest = file → Whole s source
  | .write _ dest | .copyFile _ dest => dest ≠ file
  | .exists _ | .delete _ | .isValidConfig _ => True

theorem whole_put_none {file other : ConfigFile} (whole : Whole s file) :
    Whole (s.put other none) file := by
  intro content present
  by_cases same : file = other
  · subst same
    simp at present
  · exact whole content (by simpa [same] using present)

theorem whole_put_ne {file other : ConfigFile} {content : Option ConfigText} (apart : other ≠ file)
    (whole : Whole s file) : Whole (s.put other content) file := by
  intro text present
  exact whole text (by simpa [apart.symm] using present)

theorem whole_write {file other : ConfigFile} {content : ConfigText} (apart : other ≠ file)
    (whole : Whole s file) : Whole (s.write content other).2 file := by
  unfold Disk.write
  cases s.fault with
  | none => exact whole_put_ne apart whole
  | refused => exact whole
  | cutShort written => exact whole_put_ne apart whole

theorem whole_answer {c : FileCall} {file : ConfigFile} (spares : Spares s file c)
    (whole : Whole s file) : Whole (answer accepts c s).2 file := by
  cases c with
  | «exists» other => exact whole
  | delete other =>
      dsimp only [answer]
      split
      · exact whole_put_none whole
      · exact whole
  | renameTo source dest =>
      dsimp only [answer]
      split
      · exact whole
      · rename_i content present
        split
        · apply whole_put_none
          by_cases same : dest = file
          · intro text put
            have equal : content = text := by simpa [same] using put
            exact spares same text (equal ▸ present)
          · exact whole_put_ne same whole
        · exact whole
  | write content dest => exact whole_write spares whole
  | copyFile source dest =>
      dsimp only [answer]
      split
      · exact whole
      · exact whole_write spares whole
  | isValidConfig other =>
      dsimp only [answer]
      split
      · exact whole
      · split
        · exact fun content present => List.mem_cons_of_mem _ (whole content present)
        · exact whole

/-- `rclone.conf` and its backup are complete where they are there. -/
def Sound (s : Disk) : Prop :=
  Whole s .target ∧ Whole s .backup

theorem sound_answer {c : FileCall} (protocol : Protocol s c) (sound : Sound s) :
    Sound (answer accepts c s).2 := by
  constructor
  · apply whole_answer ?_ sound.1
    cases c with
    | renameTo source dest => cases source <;> cases dest <;> simp_all [Protocol, Spares, Sound]
    | write content dest => simp_all [Protocol, Spares]
    | copyFile source dest => simp_all [Protocol, Spares]
    | _ => trivial
  · apply whole_answer ?_ sound.2
    cases c with
    | renameTo source dest => cases source <;> cases dest <;> simp_all [Protocol, Spares, Sound]
    | write content dest => simp_all [Protocol, Spares]
    | copyFile source dest => simp_all [Protocol, Spares]
    | _ => trivial

/-- A complete configuration is left. -/
def Kept (s : Disk) : Prop :=
  ∃ content ∈ s.complete, s.files .target = some content ∨ s.files .backup = some content

/-- The backup is not cleared while `rclone.conf` is missing. -/
def ClearsCovered (s : Disk) : FileCall → Prop
  | .delete .backup => s.fault = .none → (s.files .target).isSome
  | _ => True

theorem kept_iff (sound : Sound s) :
    Kept s ↔ (s.files .target).isSome ∨ (s.files .backup).isSome := by
  constructor
  · rintro ⟨content, -, atTarget | atBackup⟩
    · exact .inl (by simp [atTarget])
    · exact .inr (by simp [atBackup])
  · rintro (isThere | isThere)
    · obtain ⟨content, present⟩ := Option.isSome_iff_exists.mp isThere
      exact ⟨content, sound.1 content present, .inl present⟩
    · obtain ⟨content, present⟩ := Option.isSome_iff_exists.mp isThere
      exact ⟨content, sound.2 content present, .inr present⟩

theorem files_write_ne {content : ConfigText} {file other : ConfigFile} (apart : other ≠ file) :
    (s.write content other).2.files file = s.files file := by
  unfold Disk.write
  cases s.fault with
  | none => simp [apart.symm]
  | refused => rfl
  | cutShort written => simp [apart.symm]

theorem kept_renameTo {source dest : ConfigFile}
    (protocol : Protocol s (.renameTo source dest))
    (present : (s.files .target).isSome ∨ (s.files .backup).isSome) :
    ((answer accepts (.renameTo source dest) s).2.files .target).isSome ∨
      ((answer accepts (.renameTo source dest) s).2.files .backup).isSome := by
  dsimp only [answer]
  split
  · exact present
  · split
    · cases source <;> cases dest <;> simp_all [Protocol]
    · exact present

/-- One call keeps a complete configuration unless it clears the backup while
`rclone.conf` is missing. -/
theorem kept_answer_iff {c : FileCall} (protocol : Protocol s c) (sound : Sound s)
    (kept : Kept s) : Kept (answer accepts c s).2 ↔ ClearsCovered s c := by
  have present := (kept_iff sound).mp kept
  rw [kept_iff (sound_answer protocol sound)]
  cases c with
  | «exists» file => exact iff_of_true present trivial
  | delete file =>
      cases file with
      | target => exact absurd rfl protocol
      | backup =>
          by_cases works : s.fault = .none
          · simp [answer, ClearsCovered, works]
          · simp [answer, ClearsCovered, works, present]
      | replacement | temp =>
          refine iff_of_true ?_ trivial
          dsimp only [answer]
          split
          · simpa using present
          · exact present
  | renameTo source dest => exact iff_of_true (kept_renameTo protocol present) trivial
  | write content file =>
      have apart : file = .temp := protocol
      subst apart
      refine iff_of_true ?_ trivial
      change ((s.write content .temp).2.files .target).isSome ∨
        ((s.write content .temp).2.files .backup).isSome
      rwa [files_write_ne (by decide), files_write_ne (by decide)]
  | copyFile source dest =>
      have apart : dest = .replacement := protocol
      subst apart
      refine iff_of_true ?_ trivial
      dsimp only [answer]
      split
      · exact present
      · rwa [files_write_ne (by decide), files_write_ne (by decide)]
  | isValidConfig file =>
      refine iff_of_true ?_ trivial
      dsimp only [answer]
      split
      · exact present
      · split
        · exact present
        · exact present

/-! ## What an import does -/

/-- Faults come and go; the files are the import's own. -/
def importTerms : Terms Disk FileCall where
  rely s t := t.files = s.files ∧ t.complete = s.complete
  assumed _ _ := True
  shown := Protocol

abbrev ImportEnsures (accepts : ConfigText → Bool) {α : Type} (task : ImportTask α)
    (Q : α → Disk → Prop) (s : Disk) : Prop :=
  task.Ensures (answer accepts) importTerms Q s

theorem importTerms_trans (a b c : Disk) (first : importTerms.rely a b)
    (second : importTerms.rely b c) : importTerms.rely a c :=
  ⟨second.1.trans first.1, second.2.trans first.2⟩

theorem Whole.of_rely {t : Disk} {file : ConfigFile} (whole : Whole s file)
    (same : importTerms.rely s t) : Whole t file := by
  intro content present
  rw [same.2]
  exact whole content (same.1 ▸ present)

/-- The rule for a call that leaves a complete file complete. -/
theorem ask_whole (c : FileCall) {file : ConfigFile} (whole : Whole s file)
    (spares : ∀ t, Whole t file → Spares t file c)
    (protocol : ∀ t, Whole t file → Protocol t c) :
    ImportEnsures accepts (ask c) (fun _ t => Whole t file) s := by
  intro reached same _
  have reachedWhole := whole.of_rely same
  exact ⟨protocol reached reachedWhole, whole_answer (spares reached reachedWhole) reachedWhole⟩

/-- A call within the protocol in every state. -/
abbrev Harmless (c : FileCall) : Prop :=
  ∀ s, Protocol s c

theorem ask_harmless (c : FileCall) (harmless : Harmless c) :
    ImportEnsures accepts (ask c) (fun _ _ => True) s :=
  fun reached _ _ => ⟨harmless reached, trivial⟩

theorem renameIf_whole {hadTarget : Bool} (whole : Whole s .replacement) :
    ImportEnsures accepts (renameIf hadTarget .target .backup) (fun _ t => Whole t .replacement)
      s := by
  cases hadTarget with
  | false => exact whole
  | true => exact ask_whole _ whole (fun _ _ => nofun) (fun _ _ => trivial)

theorem activate_ensures {hadTarget : Bool} (whole : Whole s .replacement) :
    ImportEnsures accepts (activate hadTarget) (fun _ _ => True) s := by
  apply (ask_whole (.renameTo .replacement .target) whole (fun _ _ => nofun)
    (fun _ whole => whole)).bind
  intro activated t _
  cases activated with
  | true => exact (ask_harmless (.delete .backup) fun _ => nofun).bind fun _ _ _ => trivial
  | false =>
      have restores : ImportEnsures accepts (renameIf hadTarget .backup .target)
          (fun _ _ => True) t := by
        cases hadTarget with
        | false => trivial
        | true => exact ask_harmless _ fun _ => trivial
      apply restores.bind
      intro restored t _
      apply (ask_harmless (.delete .replacement) fun _ => nofun).bind
      intro _ t _
      cases restored with
      | false => trivial
      | true => trivial

theorem exchange_ensures (whole : Whole s .replacement) :
    ImportEnsures accepts exchange (fun _ _ => True) s := by
  apply (ask_whole (.exists .target) whole (fun _ _ => trivial) (fun _ _ => trivial)).bind
  intro hadTarget t whole
  apply (renameIf_whole whole).bind
  intro saved t whole
  cases saved with
  | false => exact (ask_harmless (.delete .replacement) fun _ => nofun).bind fun _ _ _ => trivial
  | true => exact activate_ensures whole

/-- A copy that succeeds makes the replacement as complete as its source. -/
theorem copyFile_whole (whole : Whole s .temp) :
    ImportEnsures accepts (ask (.copyFile .temp .replacement))
      (fun copied t => copied = true → Whole t .replacement) s := by
  intro reached same _
  refine ⟨rfl, fun copied => ?_⟩
  have reachedWhole := whole.of_rely same
  simp only [answer] at copied ⊢
  cases present : reached.files .temp with
  | none => simp [present] at copied
  | some content =>
      simp only [present] at copied ⊢
      rw [Disk.write_of_true copied]
      intro text put
      have equal : content = text := by simpa using put
      exact equal ▸ reachedWhole content present

theorem replaceFileSafely_ensures (whole : Whole s .temp) :
    ImportEnsures accepts replaceFileSafely (fun _ _ => True) s := by
  apply (ask_whole (.delete .replacement) whole (fun _ _ => trivial) (fun _ _ => nofun)).bind
  intro _ t whole
  apply (ask_whole (.delete .backup) whole (fun _ _ => trivial) (fun _ _ => nofun)).bind
  intro _ t whole
  apply (copyFile_whole whole).bind
  intro copied t whole
  cases copied with
  | false => trivial
  | true => exact exchange_ensures (whole rfl)

/-- What rclone accepts is complete from then on. -/
theorem isValidConfig_whole :
    ImportEnsures accepts (ask (.isValidConfig .temp))
      (fun valid t => valid = true → Whole t .temp) s := by
  intro reached _ _
  refine ⟨trivial, fun valid => ?_⟩
  simp only [answer] at valid ⊢
  cases present : reached.files .temp with
  | none => exact fun content isThere => nomatch present.symm.trans isThere
  | some content =>
      simp only [present] at valid ⊢
      split
      · intro text isThere
        have equal : content = text := Option.some.inj (present.symm.trans isThere)
        exact equal ▸ List.mem_cons_self
      · rename_i rejected
        simp [rejected] at valid

theorem replaceIfValid_ensures : ImportEnsures accepts replaceIfValid (fun _ _ => True) s := by
  apply isValidConfig_whole.bind
  intro valid t whole
  cases valid with
  | false => trivial
  | true => exact (replaceFileSafely_ensures (whole rfl)).bind fun _ _ _ => trivial

theorem importContent_ensures (content : ConfigText) :
    ImportEnsures accepts (importContent content) (fun _ _ => True) s := by
  apply (ask_harmless (.write content .temp) fun _ => rfl).bind
  intro written t _
  cases written with
  | false => trivial
  | true =>
      apply replaceIfValid_ensures.bind
      intro result t _
      exact (ask_harmless (.delete .temp) fun _ => nofun).bind fun _ _ _ => trivial

theorem program_ensures (task : Import) :
    ImportEnsures accepts task.program (fun _ _ => True) s := by
  cases task with
  | file content => exact (importContent_ensures content).bind fun _ _ _ => trivial
  | package entry =>
      cases entry with
      | none => exact (ask_harmless (.delete .temp) fun _ => nofun).bind fun _ _ _ => trivial
      | some content => exact (importContent_ensures content).bind fun _ _ _ => trivial

/-! ## Runs -/

/-- A disk with a configuration, and what earlier imports may have left over. -/
def installed (config : ConfigText) (replacement temp : Option ConfigText) : Disk where
  files := fun
    | .target => some config
    | .backup => none
    | .replacement => replacement
    | .temp => temp
  fault := .none
  complete := [config]

/-- A complete configuration is left in every state of exactly those runs in
which no call clears the backup while `rclone.conf` is missing. -/
theorem always_kept_iff (accepts : ConfigText → Bool) (config : ConfigText)
    (replacement temp : Option ConfigText) (events : List (WorkerEvent Fault Import)) :
    Always (imports accepts).step (fun w => Kept w.state)
        ⟨installed config replacement temp, pure ()⟩ events ↔
      Meets (imports accepts).step (AtCalls ClearsCovered)
        ⟨installed config replacement temp, pure ()⟩ events := by
  have sound : Sound (installed config replacement temp) :=
    ⟨fun _ present => List.mem_singleton.mpr (Option.some.inj present).symm, fun _ => nofun⟩
  have kept : Kept (installed config replacement temp) :=
    ⟨config, List.mem_singleton_self config, .inl rfl⟩
  have idle : ImportEnsures accepts (pure ()) (fun _ _ => True)
      (installed config replacement temp) := trivial
  have same : ∀ s : Disk, importTerms.rely s s := fun _ => ⟨rfl, rfl⟩
  have sounds : ∀ s c, importTerms.shown s c → Sound s → Sound ((imports accepts).answer c s).2 :=
    fun _ _ => sound_answer
  have exactly : ∀ s c, importTerms.shown s c → Sound s → Kept s →
      (Kept ((imports accepts).answer c s).2 ↔ ClearsCovered s c) := fun _ _ => kept_answer_iff
  exact Shop.always_iff_atCalls same importTerms_trans (fun _ _ => ⟨rfl, rfl⟩)
    (fun _ _ => trivial) (fun task _ => program_ensures task) sounds (fun _ _ sound => sound)
    (fun _ sound => sound) exactly (fun _ _ kept => kept) (fun _ kept => kept) idle sound kept

/-- An import that can neither put the new configuration in place nor restore
the old one leaves that in the backup, and the next import clears the backup. -/
def importAfterFailedRestore : List (WorkerEvent Fault Import) :=
  .begin (.file [2]) :: List.replicate 7 .advance ++ .outside .refused ::
    List.replicate 4 .advance ++ .outside .none :: .begin (.file [2]) :: List.replicate 4 .advance

theorem failedRestore_losesConfig :
    ¬Always (imports fun _ => true).step (fun w => Kept w.state)
      ⟨installed [1] none none, pure ()⟩ importAfterFailedRestore := by
  intro always
  obtain ⟨content, -, inTarget | inBackup⟩ := always.last
  · exact absurd inTarget (by decide +revert +kernel)
  · exact absurd inBackup (by decide +revert +kernel)

end RoundSync.Rclone
