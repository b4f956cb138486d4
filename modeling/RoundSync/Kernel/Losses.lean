import RoundSync.Kernel.ExactCopies
import RoundSync.Kernel.Outages

/-!
# What moves and copies lose

A move or a copy that overwrites removes its destination first, so a file is
lost when a later step fails.  For moves the criterion names the steps; for
copies it is on the tree and the two paths, once for calls that may fail
anywhere and once for calls that all go through.
-/

namespace RoundSync.Kernel

open RoundSync.Text
open RoundSync.Tree
open RoundSync.Transition
open Effect

variable {env : Env} {w w' : World} {srcPath dstPath : List GoString} {overwrite : Bool}
  {depth : Int} {bound : Nat}

/-- Every file is somewhere. -/
def KeepsFiles (before after : Drive) : Prop :=
  ∀ place node, before.lookup place = some node → node.isDir = false →
    ∃ place', after.lookup place' = some node

/-- Everything that was at the source is at the destination. -/
def Carries (before after : Drive) (srcPath dstPath : List GoString) : Prop :=
  ∀ rest node, before.lookup (srcPath ++ rest) = some node →
    ∃ node', after.lookup (dstPath ++ rest) = some node' ∧ node'.body = node.body

/-- An error leaves every file somewhere, and a complete result has everything
of the source at the destination. -/
structure LosesNothing {α : Type} (run : Fs α) (complete : α → Prop) (w : World)
    (srcPath dstPath : List GoString) : Prop where
  failed : ∀ e w', run w = (.error e, w') → KeepsFiles w.drive w'.drive
  succeeded : ∀ a w', run w = (.ok a, w') → complete a → Carries w.drive w'.drive srcPath dstPath

theorem SameBodies.carries {before after : Drive} (same : SameBodies before after srcPath dstPath) :
    Carries before after srcPath dstPath := by
  intro rest node found
  have bodies := same rest
  rw [found, Option.map_some, Option.map_eq_some_iff] at bodies
  exact bodies

/-! ## Moves -/

/-- What a copy reports when it is complete; one of limited depth is not. -/
def Complete (depth : Int) (r : Option Unit) : Prop :=
  r = some () ∧ depth < 0

theorem CopyOver.carries {before : Drive} {r : Option Unit}
    (copied : CopyOver env before w' srcPath dstPath overwrite depth bound r)
    (complete : Complete depth r)
    (noEntry : overwrite = true → dstPath ≠ [] → srcPath = dstPath → ∀ rest, rest ≠ [] →
      before.lookup (srcPath ++ rest) = none) :
    Carries before w'.drive srcPath dstPath := by
  obtain ⟨finished, unlimited⟩ := complete
  cases copied with
  | cleared _ drive removed notAbove done =>
      obtain ⟨notBelow, same⟩ := done.finished finished unlimited
      intro rest node found
      apply same.carries rest node
      rw [removed.lookup, if_neg]
      · exact found
      · exact not_above_append notAbove notBelow
  | swallowed allowed drive removed above done =>
      obtain ⟨rfl, ⟨dnode, foundRoot, isFolder⟩, emptied⟩ := done.alone (by omega)
      intro rest node found
      by_cases empty : rest = []
      · subst empty
        have remains := emptied []
        rw [if_pos rfl, Option.map_eq_some_iff] at remains
        rw [List.append_nil, show before.lookup srcPath = some dnode from foundRoot] at found
        cases found
        rw [Node.isDir_iff.mp isFolder]
        exact remains
      · rw [noEntry allowed removed.nonroot rfl rest empty] at found
        contradiction
  | uploaded _ _ _ front name data modTime createTime pathEq source replaced =>
      obtain ⟨snode, foundSource, isFile⟩ := source
      obtain ⟨id, _, foundFile⟩ := replaced.file
      intro rest node found
      by_cases empty : rest = []
      · subst empty
        rw [List.append_nil, foundSource] at found
        cases found
        rw [List.append_nil, pathEq]
        exact ⟨_, foundFile, isFile.symm⟩
      · rw [Drive.lookup_below_file foundSource (Node.isDir_eq_false_iff.mpr ⟨data, isFile⟩)
          (List.prefix_append _ _) (by simpa using empty)] at found
        contradiction

end RoundSync.Kernel
