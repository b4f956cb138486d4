import RoundSync.Transition.Effect
import Mathlib.Logic.Function.Basic

/-!
# Files whose calls can fail

The regular files of a file system by their path, and the calls that delete, rename and
copy them.  Each call is told its fate: a deletion or a rename that fails changes
nothing, and a copy that throws may have written something else than the source.
-/

namespace RoundSync.Data

open RoundSync.Transition

/-- The regular files by their path, each with its bytes. -/
abbrev Files (π β : Type) := π → Option (List β)

/-- What becomes of a copy: it is completed, it throws before its target is opened, or it
throws with `left` in its target. -/
inductive CopyFate (β : Type) where
  | works
  | unopened
  | torn (left : List β)
  deriving DecidableEq

namespace CopyFate

variable {β : Type}

/-- What a copy that throws leaves in its target. -/
def leaves (fate : CopyFate β) (old : Option (List β)) : Option (List β) :=
  match fate with
  | .torn left => some left
  | .works | .unopened => old

end CopyFate

namespace Files

variable {π β ε : Type} [DecidableEq π]

/-- The files after a deletion. -/
def remove (deletes : Bool) (file : π) (files : Files π β) : Files π β :=
  if deletes = true then Function.update files file none else files

def deleteQuietly (deletes : Bool) (file : π) : Effect (Files π β) ε PUnit :=
  .update (remove deletes file)

/-- A rename replaces its target. -/
def renameTo (renames : Bool) (file target : π) : Effect (Files π β) ε Bool := fun files =>
  match renames, files file with
  | true, some content =>
      (.ok true, Function.update (Function.update files file none) target (some content))
  | _, _ => (.ok false, files)

def copyFile (fate : CopyFate β) (error : ε) (source target : π) :
    Effect (Files π β) ε PUnit := fun files =>
  match fate, files source with
  | .works, some content => (.ok .unit, Function.update files target (some content))
  | .torn left, some _ => (.error error, Function.update files target (some left))
  | _, _ => (.error error, files)

/-- The files at the given paths are as before. -/
def SameAt (files files' : Files π β) (inside : π → Prop) : Prop :=
  ∀ file, inside file → files' file = files file

variable {files files' files'' : Files π β} {file target : π} {inside : π → Prop}

omit [DecidableEq π] in
theorem SameAt.refl (files : Files π β) (inside : π → Prop) : SameAt files files inside :=
  fun _ _ => rfl

omit [DecidableEq π] in
theorem SameAt.trans (first : SameAt files files' inside) (second : SameAt files' files'' inside) :
    SameAt files files'' inside :=
  fun file isInside => (second file isInside).trans (first file isInside)

theorem SameAt.update {content : Option (List β)} (outside : ¬inside file) :
    SameAt files (Function.update files file content) inside := by
  intro other isInside
  apply Function.update_of_ne
  rintro rfl
  exact outside isInside

@[simp]
theorem remove_self {deletes : Bool} :
    remove deletes file files file = if deletes = true then none else files file := by
  unfold remove
  split
  · exact Function.update_self ..
  · rfl

theorem remove_of_ne {deletes : Bool} {other : π} (apart : other ≠ file) :
    remove deletes file files other = files other := by
  unfold remove
  split
  · exact Function.update_of_ne apart _ _
  · rfl

/-! ## What the calls ensure -/

variable {Q : PUnit → Files π β → Prop} {E : ε → Files π β → Prop}

@[simp]
theorem ensures_deleteQuietly {deletes : Bool} :
    (deleteQuietly deletes file).Ensures files Q E ↔
      Q .unit (remove deletes file files) :=
  Iff.rfl

theorem ensures_renameTo_of_some {Q : Bool → Files π β → Prop} {content : List β}
    (present : files file = some content) {renames : Bool} :
    (renameTo renames file target).Ensures files Q E ↔
      if renames = true then
        Q true (Function.update (Function.update files file none) target (some content))
      else Q false files := by
  cases renames with
  | false => simp [Effect.Ensures, renameTo]
  | true => simp [Effect.Ensures, renameTo, present]

theorem ensures_copyFile_of_some {content : List β} (present : files file = some content)
    {fate : CopyFate β} {error : ε} :
    (copyFile fate error file target).Ensures files Q E ↔
      match fate with
      | .works => Q .unit (Function.update files target (some content))
      | .unopened => E error files
      | .torn left => E error (Function.update files target (some left)) := by
  cases fate with
  | works => simp [Effect.Ensures, copyFile, present]
  | unopened => simp [Effect.Ensures, copyFile]
  | torn left => simp [Effect.Ensures, copyFile, present]

theorem ensures_copyFile_of_none (absent : files file = none) {fate : CopyFate β} {error : ε} :
    (copyFile fate error file target).Ensures files Q E ↔ E error files := by
  cases fate with
  | works => simp [Effect.Ensures, copyFile, absent]
  | unopened => simp [Effect.Ensures, copyFile]
  | torn left => simp [Effect.Ensures, copyFile, absent]

/-! ## Computations that spare files -/

/-- However the computation goes, the files at the given paths stay as they are. -/
def Spares {α : Type} (inside : π → Prop) (first : Effect (Files π β) ε α) : Prop :=
  ∀ files, first.Ensures files (fun _ after => SameAt files after inside)
    fun _ after => SameAt files after inside

namespace Spares

variable {α α' : Type} {first : Effect (Files π β) ε α} {next : α → Effect (Files π β) ε α'}

omit [DecidableEq π] in
protected theorem pure (value : α) : Spares inside (pure value : Effect (Files π β) ε α) :=
  fun files => .refl files inside

omit [DecidableEq π] in
protected theorem fail (error : ε) : Spares inside (.fail error : Effect (Files π β) ε α) :=
  fun files => .refl files inside

omit [DecidableEq π] in
protected theorem read : Spares inside (Effect.read : Effect (Files π β) ε (Files π β)) :=
  fun files => .refl files inside

omit [DecidableEq π] in
protected theorem bind (begins : Spares inside first) (goesOn : ∀ value, Spares inside (next value)) :
    Spares inside (first >>= next) := by
  intro files
  apply (begins files).bind
  · intro value after same
    apply (goesOn value after).mono
    · exact fun _ _ later => same.trans later
    · exact fun _ _ later => same.trans later
  · exact fun _ _ same => same

omit [DecidableEq π] in
protected theorem ite {condition : Prop} [Decidable condition] {other : Effect (Files π β) ε α}
    (positive : Spares inside first) (negative : Spares inside other) :
    Spares inside (if condition then first else other) := by
  split
  · exact positive
  · exact negative

omit [DecidableEq π] in
protected theorem attempt (spares : Spares inside first) : Spares inside first.attempt :=
  fun files => Effect.ensures_attempt.mpr (spares files)

omit [DecidableEq π] in
protected theorem capture {ε' : Type} (spares : Spares inside first) :
    Spares inside (first.capture : Effect (Files π β) ε' (Except ε α)) :=
  fun files => Effect.ensures_capture.mpr (spares files)

protected theorem deleteQuietly {deletes : Bool} (outside : ¬inside file) :
    Spares inside (deleteQuietly deletes file : Effect (Files π β) ε PUnit) := by
  intro files other isInside
  apply remove_of_ne
  rintro rfl
  exact outside isInside

protected theorem renameTo {renames : Bool} (outside : ¬inside file) (other : ¬inside target) :
    Spares inside (renameTo renames file target : Effect (Files π β) ε Bool) := by
  intro files
  simp only [Effect.Ensures, renameTo]
  split
  · rename_i result
    split at result
    · cases result
      exact (SameAt.update outside).trans (SameAt.update other)
    · cases result
      exact .refl files inside
  · rename_i result
    split at result
    · cases result
    · cases result

protected theorem copyFile {fate : CopyFate β} {error : ε} {source : π} (outside : ¬inside target) :
    Spares inside (copyFile fate error source target) := by
  intro files
  cases present : files source with
  | none => exact (ensures_copyFile_of_none present).mpr (.refl files inside)
  | some content =>
      rw [ensures_copyFile_of_some present]
      cases fate with
      | works => exact SameAt.update outside
      | unopened => exact .refl files inside
      | torn left => exact SameAt.update outside

end Spares

end Files

end RoundSync.Data
