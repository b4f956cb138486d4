import RoundSync.Kernel.Overwrites
import RoundSync.Kernel.Paths

/-!
# When a copy is exact

With every driver call going through, a copy of unlimited depth leaves at its
destination what the source was, and everything else as it was, exactly if
source and destination do not contain each other.  A copy into its own subtree
does not end.
-/

namespace RoundSync.Kernel

open RoundSync.Text
open RoundSync.Tree
open RoundSync.Transition
open Effect

variable {env : Env} {w w' : World} {srcPath dstPath : List GoString} {overwrite : Bool}
  {bound : Nat}

/-- The source is there, and the destination may be written. -/
structure Copyable (d : Drive) (srcPath dstPath : List GoString) (overwrite : Bool) : Prop where
  source : ∃ node, d.lookup srcPath = some node
  nonroot : dstPath ≠ []
  parent : d.IsFolder dstPath.dropLast
  allowed : d.lookup dstPath = none ∨ overwrite = true

/-- A directory without entries. -/
structure IsEmptyFolder (d : Drive) (place : List GoString) : Prop where
  isFolder : d.IsFolder place
  noEntry : ∀ rest, rest ≠ [] → d.lookup (place ++ rest) = none

/-- The copy ends, the destination shows what the source showed, and everything
outside the destination is as it was. -/
def CopiesExactly {α : Type} (view : Body → α) (env : Env) (w : World)
    (srcPath dstPath : List GoString) (overwrite : Bool) : Prop :=
  ∃ bound w', copy env bound srcPath dstPath overwrite (-1) w = (.ok (some ()), w') ∧
    (∀ rest, (w'.drive.lookup (dstPath ++ rest)).map (fun node => view node.body) =
      (w.drive.lookup (srcPath ++ rest)).map fun node => view node.body) ∧
    ∀ other, ¬dstPath <+: other → w'.drive.lookup other = w.drive.lookup other

/-- Some bound suffices for the recursion. -/
def Returns (env : Env) (w : World) (srcPath dstPath : List GoString) (overwrite : Bool) : Prop :=
  ∃ bound, (copy env bound srcPath dstPath overwrite (-1) w).1 ≠ .ok none

/-- What an unlimited copy does when every call goes through. -/
structure ReliableCopy (before after : Drive) (srcPath dstPath : List GoString) (overwrite : Bool)
    (bound : Nat) (r : Option Unit) : Prop where
  copyable : Copyable before srcPath dstPath overwrite
  outside : ∀ other, ¬dstPath <+: other → after.lookup other = before.lookup other
  notAbove : dstPath <+: srcPath → srcPath = dstPath ∧ before.IsFolder srcPath ∧ r = some () ∧
    ∀ rest, (after.lookup (dstPath ++ rest)).map Node.body = if rest = [] then some .dir else none
  finished : r = some () → ¬dstPath <+: srcPath →
    ¬srcPath <+: dstPath ∧ SameBodies before after srcPath dstPath
  exhausted : r = none → ¬srcPath <+: dstPath →
    ∃ rest node, bound ≤ rest.length ∧ before.lookup (srcPath ++ rest) = some node

theorem ReliableCopy.of_free (copied : CopyDone w.drive w' srcPath dstPath (-1) (bound + 1) r)
    (free : w.drive.lookup dstPath = none) :
    ReliableCopy w.drive w'.drive srcPath dstPath overwrite (bound + 1) r := by
  obtain ⟨source, parent⟩ := copied.located (Nat.succ_pos bound)
  obtain ⟨node, found⟩ := source
  have nonroot : dstPath ≠ [] := by
    rintro rfl
    obtain ⟨root, foundRoot, _⟩ := w.drive.rootNode
    rw [show w.drive.tree.lookup [] = none from free] at foundRoot
    contradiction
  constructor
  · exact ⟨⟨node, found⟩, nonroot, parent, .inl free⟩
  · exact fun other => copied.grows.lookup_outside
  · intro above
    rw [w.drive.lookup_none_below free above] at found
    contradiction
  · intro done _
    exact copied.finished done (by decide)
  · intro none notBelow
    exact copied.exhausted none ⟨node, found⟩ notBelow

theorem ReliableCopy.of_taken (reliable : env.Reliable) {node : Node}
    (taken : w.drive.lookup dstPath = some node)
    (copied : CopyOver env w.drive w' srcPath dstPath overwrite (-1) (bound + 1) r) :
    ReliableCopy w.drive w'.drive srcPath dstPath overwrite (bound + 1) r := by
  cases copied with
  | cleared allowed drive removed notAbove done =>
      have kept : ∀ other, ¬dstPath <+: other → drive.lookup other = w.drive.lookup other := by
        intro other outside
        rw [removed.lookup, if_neg outside]
      obtain ⟨⟨snode, found⟩, _⟩ := done.located (Nat.succ_pos bound)
      rw [kept _ notAbove] at found
      constructor
      · exact ⟨⟨snode, found⟩, removed.nonroot, Drive.parent_isFolder taken removed.nonroot,
          .inr allowed⟩
      · intro other outside
        rw [done.grows.lookup_outside outside, kept other outside]
      · exact fun above => absurd above notAbove
      · intro finished _
        obtain ⟨notBelow, same⟩ := done.finished finished (by decide)
        refine ⟨notBelow, ?_⟩
        intro rest
        rw [same rest, kept]
        exact not_above_append notAbove notBelow
      · intro none notBelow
        obtain ⟨rest, below, longer, foundBelow⟩ :=
          done.exhausted none ⟨snode, (kept _ notAbove).trans found⟩ notBelow
        refine ⟨rest, below, longer, ?_⟩
        rw [← kept]
        · exact foundBelow
        · exact not_above_append notAbove notBelow
  | swallowed allowed drive removed above done =>
      obtain ⟨rfl, isFolder, emptied⟩ := done.alone (by decide)
      constructor
      · exact ⟨⟨node, taken⟩, removed.nonroot, Drive.parent_isFolder taken removed.nonroot,
          .inr allowed⟩
      · intro other outside
        rw [done.grows.lookup_outside outside, removed.lookup, if_neg outside]
      · exact fun _ => ⟨rfl, isFolder, done.finished, emptied⟩
      · exact fun _ notAbove => absurd above notAbove
      · intro none
        rw [done.finished] at none
        contradiction
  | uploaded unreliable => exact absurd reliable unreliable

/-- A copy fails only if the request cannot be met or the source goes with the
destination. -/
theorem copy_reliable_ensures (reliable : env.Reliable) (coherent : Coherent w)
    (valid : ValidNames dstPath) :
    Ensures (copy env (bound + 1) srcPath dstPath overwrite (-1)) w
      (fun r w' => ReliableCopy w.drive w'.drive srcPath dstPath overwrite (bound + 1) r)
      fun _ _ => Copyable w.drive srcPath dstPath overwrite →
        dstPath <+: srcPath ∧ (srcPath = dstPath → ¬w.drive.IsFolder srcPath) := by
  cases taken : w.drive.lookup dstPath with
  | none =>
      apply (copy_free_ensures coherent taken overwrite).mono
      · intro r w' copied
        exact ReliableCopy.of_free copied taken
      · intro e w' stop copyable
        exact absurd copyable.parent (stop.cause reliable copyable.source copyable.nonroot valid)
  | some node =>
      apply (copy_taken_ensures coherent taken overwrite).mono
      · intro r w' copied
        exact ReliableCopy.of_taken reliable taken copied
      · intro e w' stop copyable
        have isAllowed : overwrite = true := by
          rcases copyable.allowed with free | allowed
          · rw [taken] at free
            contradiction
          · exact allowed
        cases stop with
        | refused _ _ cause =>
            rw [cause reliable copyable.source copyable.nonroot] at isAllowed
            contradiction
        | cleared _ source drive removed notAbove stop =>
            have kept : ∀ other, ¬dstPath <+: other →
                drive.lookup other = w.drive.lookup other := by
              intro other outside
              rw [removed.lookup, if_neg outside]
            obtain ⟨snode, found⟩ := source
            refine absurd ?_ (stop.cause reliable ⟨snode, (kept _ notAbove).trans found⟩
              copyable.nonroot valid)
            obtain ⟨parent, foundParent, isFolder⟩ := copyable.parent
            refine ⟨parent, (kept _ ?_).trans foundParent, isFolder⟩
            intro above
            have shorter := above.length_le
            rw [List.length_dropLast] at shorter
            have positive := List.length_pos_iff.mpr copyable.nonroot
            omega
        | swallowed _ _ drive removed above stop => exact ⟨above, stop.cause reliable⟩
        | uploading unreliable => exact absurd reliable unreliable

/-! ## The criterion -/

/-- The request can be met, and source and destination do not contain each
other, or are one directory that is empty anyway. -/
structure ExactlyCopyable (d : Drive) (srcPath dstPath : List GoString) (overwrite : Bool) :
    Prop extends Copyable d srcPath dstPath overwrite where
  apart : ¬srcPath <+: dstPath ∧ ¬dstPath <+: srcPath ∨ srcPath = dstPath ∧ IsEmptyFolder d srcPath

/-- The request can be met by no finite copy: the destination is below the
source. -/
structure Endless (d : Drive) (srcPath dstPath : List GoString) (overwrite : Bool) :
    Prop extends Copyable d srcPath dstPath overwrite where
  below : srcPath <+: dstPath
  different : srcPath ≠ dstPath

theorem copiesExactly_iff_copyable {α : Type} (view : Body → α) (reliable : env.Reliable)
    (coherent : Coherent w) (valid : ValidNames dstPath) :
    CopiesExactly view env w srcPath dstPath overwrite ↔
      ExactlyCopyable w.drive srcPath dstPath overwrite := by
  constructor
  · rintro ⟨bound, w', result, same, _⟩
    cases bound with
    | zero =>
        rw [copy] at result
        cases result
    | succ bound =>
        have copied := (copy_reliable_ensures reliable coherent valid).ok result
        refine ⟨copied.copyable, ?_⟩
        by_cases above : dstPath <+: srcPath
        · obtain ⟨rfl, isFolder, _, emptied⟩ := copied.notAbove above
          refine .inr ⟨rfl, isFolder, ?_⟩
          intro rest nonempty
          have gone := emptied rest
          rw [if_neg nonempty, Option.map_eq_none_iff] at gone
          have none := same rest
          rw [gone, Option.map_none] at none
          exact Option.map_eq_none_iff.mp none.symm
        · exact .inl ⟨(copied.finished rfl above).1, above⟩
  · intro copyable
    have spec := @copy_reliable_ensures env w srcPath dstPath overwrite w.drive.tree.depth reliable
      coherent valid
    cases result : copy env (w.drive.tree.depth + 1) srcPath dstPath overwrite (-1) w with
    | mk outcome w' =>
        cases outcome with
        | error e =>
            obtain ⟨above, notFolder⟩ := spec.error result copyable.toCopyable
            rcases copyable.apart with ⟨_, notAbove⟩ | ⟨same, isEmpty⟩
            · exact absurd above notAbove
            · exact absurd isEmpty.isFolder (notFolder same)
        | ok r =>
            have copied := spec.ok result
            have finished : r = some () := by
              cases r with
              | some _ => rfl
              | none =>
                  rcases copyable.apart with ⟨notBelow, _⟩ | ⟨same, _⟩
                  · obtain ⟨rest, node, longer, found⟩ := copied.exhausted rfl notBelow
                    have bounded := w.drive.tree.length_le_depth found
                    rw [List.length_append] at bounded
                    omega
                  · exact (copied.notAbove (same ▸ List.prefix_refl _)).2.2.1
            subst finished
            refine ⟨_, w', result, ?_, copied.outside⟩
            have bodies : ∀ rest, (w'.drive.lookup (dstPath ++ rest)).map Node.body =
                (w.drive.lookup (srcPath ++ rest)).map Node.body := by
              rcases copyable.apart with ⟨_, notAbove⟩ | ⟨rfl, isEmpty⟩
              · exact (copied.finished rfl notAbove).2
              · intro rest
                rw [(copied.notAbove (List.prefix_refl _)).2.2.2]
                split
                · rename_i empty
                  obtain ⟨node, found, isFolder⟩ := isEmpty.isFolder
                  rw [empty, List.append_nil,
                    show w.drive.lookup srcPath = some node from found]
                  exact congrArg some (Node.isDir_iff.mp isFolder).symm
                · rename_i nonempty
                  rw [isEmpty.noEntry rest nonempty]
                  rfl
            intro rest
            have same := congrArg (Option.map view) (bodies rest)
            rwa [Option.map_map, Option.map_map] at same

theorem returns_iff_not_endless (reliable : env.Reliable) (coherent : Coherent w)
    (valid : ValidNames dstPath) :
    Returns env w srcPath dstPath overwrite ↔ ¬Endless w.drive srcPath dstPath overwrite := by
  constructor
  · rintro ⟨bound, ends⟩ endless
    apply ends
    cases bound with
    | zero => rfl
    | succ bound =>
        have spec := @copy_reliable_ensures env w srcPath dstPath overwrite bound reliable coherent
          valid
        have notAbove : ¬dstPath <+: srcPath := by
          intro above
          exact endless.different (endless.below.eq_of_length_le above.length_le)
        cases result : copy env (bound + 1) srcPath dstPath overwrite (-1) w with
        | mk outcome w' =>
            cases outcome with
            | error e => exact absurd (spec.error result endless.toCopyable).1 notAbove
            | ok r =>
                cases r with
                | none => rfl
                | some _ => exact absurd endless.below ((spec.ok result).finished rfl notAbove).1
  · intro finite
    have spec := @copy_reliable_ensures env w srcPath dstPath overwrite w.drive.tree.depth reliable
      coherent valid
    refine ⟨w.drive.tree.depth + 1, ?_⟩
    intro usedUp
    have result : copy env (w.drive.tree.depth + 1) srcPath dstPath overwrite (-1) w =
        (.ok none, (copy env (w.drive.tree.depth + 1) srcPath dstPath overwrite (-1) w).2) := by
      rw [← usedUp]
    have copied := spec.ok result
    by_cases below : srcPath <+: dstPath
    · have same : srcPath = dstPath := by
        by_contra different
        exact finite ⟨copied.copyable, below, different⟩
      have impossible := (copied.notAbove (same ▸ List.prefix_refl _)).2.2.1
      contradiction
    · obtain ⟨rest, node, longer, found⟩ := copied.exhausted rfl below
      have bounded := w.drive.tree.length_le_depth found
      rw [List.length_append] at bounded
      omega

theorem Env.calm_reliable : Env.calm.Reliable :=
  ⟨fun _ => rfl, fun _ _ => rfl, fun _ _ => rfl⟩

/-- When every call goes through, a copy is exact, in whatever can be seen of
files and directories, just in the cases named by `ExactlyCopyable`; and it ends
unless its destination is below its source. -/
theorem copy_exact_iff {α : Type} (view : Body → α) (env : Env) (reliable : env.Reliable)
    (w : Live) (source destination : GoString) (overwrite : Bool) :
    (CopiesExactly view env w.world (split source) (split destination) overwrite ↔
        ExactlyCopyable w.world.drive (split source) (split destination) overwrite) ∧
      (Returns env w.world (split source) (split destination) overwrite ↔
        ¬Endless w.world.drive (split source) (split destination) overwrite) := by
  constructor
  · exact copiesExactly_iff_copyable view reliable w.coherent (split_valid destination)
  · exact returns_iff_not_endless reliable w.coherent (split_valid destination)

theorem copy_exact_file :
    Env.calm.Reliable ∧ ∃ valid, CopiesExactly id Env.calm
      (World.fresh (Drive.single (str "f") [1] valid)) (split (str "/f")) (split (str "/g")) true := by
  refine ⟨Env.calm_reliable, by decide, ?_⟩
  apply (copy_exact_iff id Env.calm Env.calm_reliable
    (Live.fresh (Drive.single (str "f") [1] (by decide))) (str "/f") (str "/g") true).1.mpr
  constructor
  · refine ⟨⟨⟨2, .file [1], 0, 0⟩, ?_⟩, by decide, Drive.root_isFolder _, .inr rfl⟩
    decide
  · left
    decide

/-- Copying a directory to a new place in itself does not end, although the
request is in order and every call goes through. -/
theorem copy_intoItself_endless :
    ∃ w : Live, Env.calm.Reliable ∧
      w.world.drive.lookup (split (str "/d")) = some ⟨2, .dir, 0, 0⟩ ∧
      w.world.drive.lookup (split (str "/d/x")) = none ∧
      ¬Returns Env.calm w.world (split (str "/d")) (split (str "/d/x")) true := by
  have sourceEq : split (str "/d") = [str "d"] := by decide
  have destinationEq : split (str "/d/x") = [str "d", str "x"] := by decide
  have drive : ∃ d : Drive, d.lookup [str "d"] = some ⟨2, .dir, 0, 0⟩ ∧
      d.lookup [str "d", str "x"] = none := by
    refine ⟨(makeDir Env.calm [str "d"] (World.fresh Drive.empty)).2.drive, ?_, ?_⟩
    · decide
    · decide
  obtain ⟨d, found, free⟩ := drive
  refine ⟨Live.fresh d, Env.calm_reliable, ?_, ?_, ?_⟩
  · rw [sourceEq]
    exact found
  · rw [destinationEq]
    exact free
  · rw [returns_iff_not_endless Env.calm_reliable (Live.fresh d).coherent (split_valid _), not_not,
      sourceEq, destinationEq]
    constructor
    · exact ⟨⟨_, found⟩, List.cons_ne_nil _ _, ⟨_, found, rfl⟩, .inl free⟩
    · exact List.prefix_append [str "d"] [str "x"]
    · decide

end RoundSync.Kernel
