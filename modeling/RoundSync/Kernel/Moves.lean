import RoundSync.Kernel.Coherence

/-!
# Moves and removals

`Move` takes an existing destination away before it moves the source, so what
it removes is lost whenever a later step fails.  Its specification names the
steps: what is found, what is removed, and what the last steps need.
-/

namespace RoundSync.Kernel

open RoundSync.Text
open RoundSync.Tree
open RoundSync.Transition
open Effect

variable {env : Env} {w : World}

theorem Shows.id_eq_iff {d : Drive} {p q : List GoString} {first second : Entry}
    {a b : Node} (showsFirst : Shows d p first a) (showsSecond : Shows d q second b) :
    first.id = second.id ↔ p = q := by
  rw [showsFirst.id, showsSecond.id]
  constructor
  · exact d.idsUnique p q a b showsFirst.found showsSecond.found
  · rintro rfl
    have same := showsFirst.found
    rw [showsSecond.found] at same
    rw [Option.some.inj same]

/-! ## Creating and removing -/

/-- Creating a folder and dropping the listing of its parent, as `MakeDir` and
`Copy` do it. -/
theorem createFolder_ensures {front : List GoString} {name : GoString} {parent : Entry}
    {pnode : Node} (coherent : Coherent w) (found : w.drive.lookup front = some pnode)
    (idEq : parent.id = pnode.id) :
    Ensures (changeCall env fun now drive => drive.makeDir parent.id name now) w
      (fun _ w' => w.drive.Accepts front name ∧ ∃ d' now, w' = w.changed d' ∧
        Drive.Added w.drive d' front name .dir now now ∧ Coherent (w'.without [parent.id]))
      fun e w' => w' = w.changed w.drive ∧ e ≠ .unsupported ∧
        (env.changeFails w.changes ≠ none ∨ ¬w.drive.Accepts front name) := by
  apply ensures_changeCall
  · intro message failing
    rw [failing]
    exact ⟨rfl, by simp, .inl (by simp)⟩
  · intro _ e rejected
    rw [idEq, Drive.makeDir_eq found] at rejected
    rcases w.drive.addAt_cases front name .dir (env.stamp w.changes) (env.stamp w.changes) with
      ⟨_, d', equal, _⟩ | ⟨refused, e', equal, supported⟩
    · rw [equal] at rejected
      contradiction
    · rw [equal] at rejected
      cases rejected
      exact ⟨rfl, supported, .inr refused⟩
  · intro _ d' accepted
    rw [idEq, Drive.makeDir_eq found] at accepted
    rcases w.drive.addAt_cases front name .dir (env.stamp w.changes) (env.stamp w.changes) with
      ⟨accepts, d'', equal, added⟩ | ⟨_, e, equal, _⟩
    · rw [equal] at accepted
      cases accepted
      refine ⟨accepts, _, _, rfl, added, ?_⟩
      rw [idEq]
      exact coherent_without (coherentExcept_changed coherent (follows_of_added found added))
        (by simp)
    · rw [equal] at accepted
      contradiction

theorem makeDir_ensures (coherent : Coherent w) (p : List GoString) :
    Ensures (makeDir env p) w
      (fun _ w' => Coherent w' ∧ ∃ front name now, p = front ++ [name] ∧
        Drive.Added w.drive w'.drive front name .dir now now)
      fun _ w' => Coherent w' ∧ w'.drive = w.drive := by
  unfold makeDir
  apply (resolveParent_ensures coherent p).bind
  · rintro ⟨parent, name⟩ w₁ ⟨quiet, front, pnode, pathEq, shows, isFolder⟩
    dsimp only at pathEq shows
    dsimp only
    rw [ensures_bind, ensures_attempt]
    apply (stat_ensures quiet.coherent p).mono
    · rintro e w₂ ⟨quiet₂, _⟩
      exact ⟨quiet₂.coherent, (quiet.trans quiet₂).drive⟩
    · rintro e w₂ ⟨quiet₂, _⟩
      have quiet' := quiet.trans quiet₂
      have foundFront : w₂.drive.lookup front = some pnode := quiet'.drive ▸ shows.found
      dsimp only
      apply (createFolder_ensures quiet'.coherent foundFront shows.id).bind
      · rintro _ _ ⟨_, d', now, rfl, added, coherent'⟩
        rw [ensures_invalidate]
        refine ⟨coherent', front, name, now, pathEq, ?_⟩
        rw [← quiet'.drive]
        exact added
      · rintro e _ ⟨rfl, _⟩
        exact ⟨coherent_changed_self quiet'.coherent, quiet'.drive⟩
  · rintro e w₁ ⟨quiet, _⟩
    exact ⟨quiet.coherent, quiet.drive⟩

/-- Removing a found entry and dropping the two listings, as `Remove`, `Move`
and `Copy` do it. -/
theorem delete_ensures {front : List GoString} {name : GoString} {parent obj : Entry}
    {pnode node : Node} (coherent : Coherent w) (shows : Shows w.drive front parent pnode)
    (shown : Shows w.drive (front ++ [name]) obj node) :
    Ensures (changeCall env fun _ drive => drive.delete obj.id) w
      (fun _ w' => env.changeFails w.changes = none ∧ ∃ d', w' = w.changed d' ∧
        Drive.Removed w.drive d' (front ++ [name]) ∧ Coherent (w'.without [parent.id, obj.id]))
      fun _ w' => env.changeFails w.changes ≠ none ∧ w' = w.changed w.drive := by
  apply ensures_changeCall
  · intro message failing
    rw [failing]
    exact ⟨by simp, rfl⟩
  · intro _ e rejected
    rw [shown.id, Drive.delete_eq shown.found] at rejected
    obtain ⟨d', equal, _⟩ := w.drive.removeAt_concat front name
    rw [equal] at rejected
    contradiction
  · intro passing d' accepted
    rw [shown.id, Drive.delete_eq shown.found] at accepted
    obtain ⟨d'', equal, removed⟩ := w.drive.removeAt_concat front name
    rw [equal] at accepted
    cases accepted
    refine ⟨passing, _, rfl, removed, ?_⟩
    rw [shows.id]
    exact coherent_without (coherentExcept_changed coherent (follows_of_removed shows.found removed))
      (by simp)

theorem remove_ensures (coherent : Coherent w) (p : List GoString) :
    Ensures (remove env p) w
      (fun _ w' => Coherent w' ∧ (∃ node, w.drive.lookup p = some node) ∧
        Drive.Removed w.drive w'.drive p)
      fun _ w' => Coherent w' ∧ w'.drive = w.drive := by
  unfold remove
  apply (stat_ensures coherent p).bind
  · rintro obj w₁ ⟨quiet, node, shown⟩
    apply (resolveParent_ensures quiet.coherent p).bind
    · rintro ⟨parent, name⟩ w₂ ⟨quiet₂, front, pnode, rfl, shows, _⟩
      dsimp only at shows
      have quiet' := quiet.trans quiet₂
      rw [← quiet₂.drive] at shows
      have shown₂ : Shows w₂.drive (front ++ [name]) obj node := quiet'.drive ▸ shown
      dsimp only
      apply (delete_ensures quiet'.coherent shows shown₂).bind
      · rintro _ _ ⟨_, d', rfl, removed, coherent'⟩
        rw [ensures_invalidate]
        refine ⟨coherent', ⟨node, shown.found⟩, ?_⟩
        rw [← quiet'.drive]
        exact removed
      · rintro _ _ ⟨_, rfl⟩
        exact ⟨coherent_changed_self quiet'.coherent, quiet'.drive⟩
    · rintro e w₂ ⟨quiet₂, _⟩
      exact ⟨quiet₂.coherent, (quiet.trans quiet₂).drive⟩
  · rintro e w₁ ⟨quiet, _⟩
    exact ⟨quiet.coherent, quiet.drive⟩

/-! ## The last steps of a move -/

/-- Moving to a folder and renaming there is moving to the new name. -/
theorem relocated_trans {d₀ d₁ d₂ : Drive} {source place : List GoString} {one two : GoString}
    (free : d₀.lookup (place ++ [one]) = none)
    (first : Drive.Relocated d₀ d₁ source place one)
    (second : Drive.Relocated d₁ d₂ (place ++ [one]) place two) :
    Drive.Relocated d₀ d₂ source place two := by
  constructor
  · intro rest
    rw [second.target, first.target]
  · intro other notTarget
    rw [second.other other notTarget]
    split
    · rename_i below
      rw [d₀.lookup_none_below free below, ite_self]
    · rename_i notBelow
      exact first.other other notBelow
  · rw [second.nextId, first.nextId]

variable {sfront dfront : List GoString} {sname dname : GoString}

/-- The calls of the last steps go through, counted from a world, and the drive
accepts them. -/
def Completes (env : Env) (w : World) (sfront : List GoString) (sname : GoString)
    (dfront : List GoString) (dname : GoString) : Prop :=
  if sfront = dfront then
    sname = dname ∨ env.changeFails w.changes = none ∧
      w.drive.Movable (sfront ++ [sname]) dfront dname
  else
    env.changeFails w.changes = none ∧ w.drive.Movable (sfront ++ [sname]) dfront sname ∧
      (sname ≠ dname → env.changeFails (w.changes + 1) = none ∧ w.drive.Accepts dfront dname)

theorem movable_after_move {d₀ d₁ : Drive} (apart : sfront ≠ dfront) (different : sname ≠ dname)
    (movable : d₀.Movable (sfront ++ [sname]) dfront sname)
    (relocated : Drive.Relocated d₀ d₁ (sfront ++ [sname]) dfront sname) :
    d₁.Movable (dfront ++ [sname]) dfront dname ↔ d₀.Accepts dfront dname := by
  have shorter : ¬dfront ++ [sname] <+: dfront :=
    child_not_above
  have parentEq : d₁.lookup dfront = d₀.lookup dfront := by
    rw [relocated.other dfront shorter, if_neg movable.outside]
  have placeEq : d₁.lookup (dfront ++ [dname]) = d₀.lookup (dfront ++ [dname]) := by
    rw [relocated.other, if_neg]
    · intro isPrefix
      rcases List.prefix_concat_iff.mp isPrefix with same | above
      · exact apart (List.append_inj' same rfl).1
      · exact movable.outside above
    · exact mt sibling_above_iff.mp different
  have folderIff : d₁.IsFolder dfront ↔ d₀.IsFolder dfront := by
    rw [Drive.isFolder_iff, Drive.isFolder_iff, parentEq]
  constructor
  · intro renamable
    exact ⟨renamable.valid, folderIff.mp renamable.parent, placeEq.symm.trans renamable.free⟩
  · intro accepts
    exact ⟨⟨accepts.valid, folderIff.mpr accepts.parent, placeEq.trans accepts.free⟩, by simp,
      shorter⟩

theorem moveEntry_ensures {src srcParent dstParent : Entry} {snode spnode dpnode : Node}
    (coherent : Coherent w) (showsSrc : Shows w.drive (sfront ++ [sname]) src snode)
    (showsSrcParent : Shows w.drive sfront srcParent spnode)
    (showsDstParent : Shows w.drive dfront dstParent dpnode) (isFolder : w.drive.IsFolder dfront) :
    Ensures (moveEntry env src srcParent dstParent dname) w
      (fun _ w' => Coherent w' ∧ Completes env w sfront sname dfront dname ∧
        (w'.drive = w.drive ∧ sfront ++ [sname] = dfront ++ [dname] ∨
          sfront ++ [sname] ≠ dfront ++ [dname] ∧
            Drive.Relocated w.drive w'.drive (sfront ++ [sname]) dfront dname))
      fun _ w' => Coherent w' ∧ ¬Completes env w sfront sname dfront dname ∧
        (w'.drive = w.drive ∨ w.drive.lookup (dfront ++ [sname]) = none ∧
          Drive.Relocated w.drive w'.drive (sfront ++ [sname]) dfront sname) := by
  have nameEq : src.name = sname := by simpa using showsSrc.name
  have sameIff := showsSrcParent.id_eq_iff showsDstParent
  have moveEq : w.drive.move src.id dstParent.id =
      w.drive.relocateAt (sfront ++ [sname]) dfront sname := by
    rw [showsSrc.id, showsDstParent.id, Drive.move_eq showsSrc.found showsDstParent.found]
    simp
  have renameEq : w.drive.rename src.id dname =
      w.drive.relocateAt (sfront ++ [sname]) sfront dname := by
    rw [showsSrc.id, Drive.rename_eq showsSrc.found, List.dropLast_concat]
  unfold moveEntry Completes
  rw [nameEq]
  split
  · rename_i differentIds
    have apart : sfront ≠ dfront := mt sameIff.mpr differentIds
    have distinct : sfront ++ [sname] ≠ dfront ++ [dname] := by
      intro same
      exact apart (List.append_inj' same rfl).1
    simp only [if_neg apart]
    rw [ensures_bind]
    apply ensures_changeCall
    · intro message failing
      refine ⟨coherent_changed_self coherent, ?_, .inl rfl⟩
      rintro ⟨passing, _⟩
      rw [failing] at passing
      contradiction
    · intro _ e rejected
      refine ⟨coherent_changed_self coherent, ?_, .inl rfl⟩
      rintro ⟨_, movable, _⟩
      rw [moveEq] at rejected
      rcases w.drive.relocateAt_cases (sfront ++ [sname]) dfront sname with
        ⟨_, d', equal, _⟩ | ⟨immovable, _⟩
      · rw [equal] at rejected
        contradiction
      · exact immovable movable
    · intro passing d' accepted
      rw [moveEq] at accepted
      obtain ⟨movable, relocated⟩ := Drive.relocateAt_ok accepted
      have coherent₁ : Coherent ((w.changed d').without [srcParent.id, dstParent.id]) := by
        rw [showsSrcParent.id, showsDstParent.id]
        exact coherent_without (coherentExcept_changed coherent
          (follows_of_relocated showsSrcParent.found showsDstParent.found relocated)) (by simp)
      rw [ensures_bind, ensures_invalidate]
      split
      · rename_i different
        have foundMoved : d'.lookup (dfront ++ [sname]) = some snode := by
          have target := relocated.target []
          rw [List.append_nil, List.append_nil] at target
          exact target.trans showsSrc.found
        have shorter : ¬dfront ++ [sname] <+: dfront :=
          child_not_above
        have foundParent : d'.lookup dfront = some dpnode := by
          rw [relocated.other dfront shorter, if_neg movable.outside]
          exact showsDstParent.found
        have parentFolder : dpnode.isDir = true := by
          rw [← showsDstParent.isDir, ← showsDstParent.isFolder_iff]
          exact isFolder
        -- whichever entry is renamed, it has the id of the source
        have renames : ∀ (w₂ : World) (moved : Entry), moved.id = snode.id →
            Quiet ((w.changed d').without [srcParent.id, dstParent.id]) w₂ →
            Ensures (do
              changeCall env fun _ drive => drive.rename moved.id dname
              invalidate [dstParent.id]) w₂
              (fun _ w' => Coherent w' ∧ (env.changeFails w.changes = none ∧
                w.drive.Movable (sfront ++ [sname]) dfront sname ∧
                (sname ≠ dname → env.changeFails (w.changes + 1) = none ∧
                  w.drive.Accepts dfront dname)) ∧
                (w'.drive = w.drive ∧ sfront ++ [sname] = dfront ++ [dname] ∨
                  sfront ++ [sname] ≠ dfront ++ [dname] ∧
                    Drive.Relocated w.drive w'.drive (sfront ++ [sname]) dfront dname))
              fun _ w' => Coherent w' ∧ ¬(env.changeFails w.changes = none ∧
                w.drive.Movable (sfront ++ [sname]) dfront sname ∧
                (sname ≠ dname → env.changeFails (w.changes + 1) = none ∧
                  w.drive.Accepts dfront dname)) ∧
                (w'.drive = w.drive ∨ w.drive.lookup (dfront ++ [sname]) = none ∧
                  Drive.Relocated w.drive w'.drive (sfront ++ [sname]) dfront sname) := by
          intro w₂ moved idEq quiet
          have driveEq : w₂.drive = d' := quiet.drive
          have countEq : w₂.changes = w.changes + 1 := quiet.changes
          have renamableIff := movable_after_move apart different movable relocated
          have renameEq₂ : w₂.drive.rename moved.id dname =
              d'.relocateAt (dfront ++ [sname]) dfront dname := by
            rw [driveEq, idEq, Drive.rename_eq foundMoved, List.dropLast_concat]
          rw [ensures_bind]
          apply ensures_changeCall
          · intro message failing
            refine ⟨coherent_changed_self quiet.coherent, ?_,
              .inr ⟨movable.free, driveEq ▸ relocated⟩⟩
            rintro ⟨_, _, completes⟩
            rw [countEq, (completes different).1] at failing
            contradiction
          · intro _ e rejected
            refine ⟨coherent_changed_self quiet.coherent, ?_,
              .inr ⟨movable.free, driveEq ▸ relocated⟩⟩
            rintro ⟨_, _, completes⟩
            rw [renameEq₂] at rejected
            rcases d'.relocateAt_cases (dfront ++ [sname]) dfront dname with
              ⟨_, d'', equal, _⟩ | ⟨immovable, _⟩
            · rw [equal] at rejected
              contradiction
            · exact immovable (renamableIff.mpr (completes different).2)
          · intro passing₂ d'' accepted₂
            rw [renameEq₂] at accepted₂
            obtain ⟨renamable, renamed⟩ := Drive.relocateAt_ok accepted₂
            rw [ensures_invalidate]
            refine ⟨?_, ⟨passing, movable, ?_⟩, ?_⟩
            · have follows : Follows w₂.drive d'' [dpnode.id, dpnode.id] := by
                rw [driveEq]
                exact follows_of_relocated foundParent foundParent renamed
              rw [showsDstParent.id]
              exact coherent_without (coherentExcept_changed quiet.coherent follows) (by simp)
            · intro _
              rw [← countEq]
              exact ⟨passing₂, renamableIff.mp renamable⟩
            · exact .inr ⟨distinct, relocated_trans movable.free relocated renamed⟩
        have finding := @findByName_ensures env _ [] dfront dpnode coherent₁ (List.nil_subset _)
          foundParent parentFolder sname
        rw [← showsDstParent.id] at finding
        rw [ensures_bind, ensures_attempt]
        apply finding.mono
        · rintro fresh w₂ ⟨quiet, _, child, foundChild, rfl⟩
          have childEq : child = snode := Option.some.inj (foundChild.symm.trans foundMoved)
          subst childEq
          apply renames w₂ _ rfl
          exact (Quiet.without coherent₁ _).trans quiet
        · rintro e w₂ ⟨quiet, _⟩
          apply renames w₂ src showsSrc.id
          exact (Quiet.without coherent₁ _).trans quiet
      · rename_i sameName
        rw [ne_eq, not_not] at sameName
        subst sameName
        exact ⟨coherent₁, ⟨passing, movable, fun different => absurd rfl different⟩,
          .inr ⟨distinct, relocated⟩⟩
  · rename_i sameIds
    have same : sfront = dfront := sameIff.mp (not_not.mp sameIds)
    subst same
    simp only [if_true]
    split
    · rename_i different
      rw [ensures_bind]
      apply ensures_changeCall
      · intro message failing
        refine ⟨coherent_changed_self coherent, ?_, .inl rfl⟩
        rintro (equal | ⟨passing, _⟩)
        · exact different equal
        · rw [failing] at passing
          contradiction
      · intro _ e rejected
        refine ⟨coherent_changed_self coherent, ?_, .inl rfl⟩
        rintro (equal | ⟨_, movable⟩)
        · exact different equal
        · rw [renameEq] at rejected
          rcases w.drive.relocateAt_cases (sfront ++ [sname]) sfront dname with
            ⟨_, d', equal, _⟩ | ⟨immovable, _⟩
          · rw [equal] at rejected
            contradiction
          · exact immovable movable
      · intro passing d' accepted
        rw [renameEq] at accepted
        obtain ⟨movable, relocated⟩ := Drive.relocateAt_ok accepted
        rw [ensures_invalidate]
        refine ⟨?_, .inr ⟨passing, movable⟩, .inr ⟨?_, relocated⟩⟩
        · rw [showsSrcParent.id]
          exact coherent_without (coherentExcept_changed coherent
            (follows_of_relocated showsSrcParent.found showsSrcParent.found relocated)) (by simp)
        · intro same
          exact different (List.singleton_inj.mp (List.append_cancel_left same))
    · rename_i sameName
      rw [ne_eq, not_not] at sameName
      subst sameName
      exact ⟨coherent, .inl rfl, .inl ⟨rfl, rfl⟩⟩

theorem Completes.free (completes : Completes env w sfront sname dfront dname)
    (different : sfront ++ [sname] ≠ dfront ++ [dname]) :
    w.drive.lookup (dfront ++ [dname]) = none ∧ ¬sfront ++ [sname] <+: dfront ++ [dname] := by
  have below : ¬sfront ++ [sname] <+: dfront → ¬sfront ++ [sname] <+: dfront ++ [dname] := by
    intro outside isPrefix
    rcases List.prefix_concat_iff.mp isPrefix with same | above
    · exact different same
    · exact outside above
  unfold Completes at completes
  split at completes
  · rename_i sameFolder
    subst sameFolder
    rcases completes with rfl | ⟨_, movable⟩
    · exact absurd rfl different
    · exact ⟨movable.free, below movable.outside⟩
  · obtain ⟨_, movable, renames⟩ := completes
    refine ⟨?_, below movable.outside⟩
    by_cases sameName : sname = dname
    · subst sameName
      exact movable.free
    · exact (renames sameName).2.free

/-- Nothing can be moved that is not there. -/
theorem moveEntry_gone {src srcParent dstParent : Entry} {e : DriveError} (coherent : Coherent w)
    (gone : w.drive.locate src.id = .error e) (apart : srcParent.id ≠ dstParent.id) :
    Ensures (moveEntry env src srcParent dstParent dname) w (fun _ _ => False)
      fun _ w' => Coherent w' ∧ w'.drive = w.drive := by
  unfold moveEntry
  rw [if_pos apart, ensures_bind]
  apply ensures_changeCall
  · intro _ _
    exact ⟨coherent_changed_self coherent, rfl⟩
  · intro _ _ _
    exact ⟨coherent_changed_self coherent, rfl⟩
  · intro _ d' accepted
    rw [Drive.move, gone] at accepted
    contradiction

/-! ## The whole move -/

/-- `Move` finds its source and an existing destination, and removes the
latter. -/
structure MoveRemoves (env : Env) (w : World) (srcPath dstPath : List GoString)
    (overwrite : Bool) : Prop where
  allowed : overwrite = true
  distinct : srcPath ≠ dstPath
  located : ∃ src srcParent dstParent existing w₁ w₂ w₃ w₄, stat env srcPath w = (.ok src, w₁) ∧
    resolveParent env srcPath w₁ = (.ok srcParent, w₂) ∧
    resolveParent env dstPath w₂ = (.ok dstParent, w₃) ∧
    stat env dstPath w₃ = (.ok existing, w₄)
  letThrough : env.changeFails w.changes = none

/-- After the removal nothing stands in the way: the paths do not contain each
other, the calls go through, and the new folder has nothing under the old name
if the source has to pass through it. -/
structure MoveCompletes (env : Env) (w : World) (srcPath dstPath : List GoString) : Prop where
  notAbove : ¬dstPath <+: srcPath
  notBelow : ¬srcPath <+: dstPath
  moved : env.changeFails (w.changes + 1) = none
  free : srcPath.dropLast ≠ dstPath.dropLast → srcPath.getLast? ≠ dstPath.getLast? →
    w.drive.lookup (dstPath.dropLast ++ [srcPath.getLast?.getD []]) = none
  renamed : srcPath.dropLast ≠ dstPath.dropLast → srcPath.getLast? ≠ dstPath.getLast? →
    env.changeFails (w.changes + 2) = none

/-- The subtree at `srcPath` is at `dstPath` in place of what was there. -/
structure MovedTo (before after : Drive) (srcPath dstPath : List GoString) : Prop where
  source : ∃ node, before.lookup srcPath = some node
  apart : srcPath = dstPath ∨ ¬srcPath <+: dstPath ∧ ¬dstPath <+: srcPath
  target : ∀ rest, after.lookup (dstPath ++ rest) = before.lookup (srcPath ++ rest)
  other : ∀ place, ¬dstPath <+: place →
    after.lookup place = if srcPath <+: place then none else before.lookup place

/-- A removal and what follows it keep exactly the nodes outside. -/
theorem removed_keeps_iff {d d₁ d₂ : Drive} {place : List GoString}
    (removed : Drive.Removed d d₁ place) (keeps : KeepsNodes d₁ d₂)
    (onlyOld : ∀ place' node, d₂.lookup place' = some node → ∃ old, d₁.lookup old = some node)
    {old : List GoString} {node : Node} (found : d.lookup old = some node) :
    (∃ place', d₂.lookup place' = some node) ↔ ¬place <+: old := by
  constructor
  · rintro ⟨place', found'⟩ below
    obtain ⟨between, foundBetween⟩ := onlyOld place' node found'
    rw [removed.lookup] at foundBetween
    split at foundBetween
    · contradiction
    · rename_i notBelow
      have same := d.lookup_injective found foundBetween
      subst same
      exact notBelow below
  · intro notBelow
    apply keeps old
    rw [removed.lookup, if_neg notBelow]
    exact found

theorem Drive.Relocated.onlyOld {d d' : Drive} {source place : List GoString} {name : GoString}
    (relocated : Drive.Relocated d d' source place name) {place' : List GoString} {node : Node}
    (found : d'.lookup place' = some node) : ∃ old, d.lookup old = some node := by
  by_cases inTarget : place ++ [name] <+: place'
  · obtain ⟨rest, rfl⟩ := inTarget
    exact ⟨source ++ rest, (relocated.target rest).symm.trans found⟩
  · rw [relocated.other place' inTarget] at found
    split at found
    · contradiction
    · exact ⟨place', found⟩

/-- What the last steps need, in terms of the drive before the removal. -/
theorem completes_iff {u : World} {snode dnode : Node}
    (foundSrc : w.drive.lookup (sfront ++ [sname]) = some snode)
    (foundDst : w.drive.lookup (dfront ++ [dname]) = some dnode)
    (notAbove : ¬dfront ++ [dname] <+: sfront ++ [sname])
    (removed : Drive.Removed w.drive u.drive (dfront ++ [dname]))
    (changes : u.changes = w.changes + 1) :
    Completes env u sfront sname dfront dname ↔
      MoveCompletes env w (sfront ++ [sname]) (dfront ++ [dname]) := by
  have different : sfront ++ [sname] ≠ dfront ++ [dname] := by
    intro same
    exact notAbove (same ▸ List.prefix_refl _)
  have dvalid : ValidName dname := w.drive.namesValid _ _ foundDst dname (by simp)
  have svalid : ValidName sname := w.drive.namesValid _ _ foundSrc sname (by simp)
  have folder : u.drive.IsFolder dfront := by
    obtain ⟨node, found, isFolder⟩ := w.drive.isFolder_of_below (List.cons_ne_nil _ _) foundDst
    refine ⟨node, ?_, isFolder⟩
    rw [show u.drive.tree.lookup dfront = u.drive.lookup dfront from rfl, removed.lookup,
      if_neg child_not_above]
    exact found
  have dfree : u.drive.lookup (dfront ++ [dname]) = none := by
    rw [removed.lookup, if_pos (List.prefix_refl _)]
  have belowIff : sfront ++ [sname] <+: dfront ++ [dname] ↔ sfront ++ [sname] <+: dfront := by
    rw [List.prefix_concat_iff, or_iff_right different]
  have viaFree : u.drive.lookup (dfront ++ [sname]) = none ↔
      (sname ≠ dname → w.drive.lookup (dfront ++ [sname]) = none) := by
    rw [removed.lookup]
    split
    · rename_i isPrefix
      rw [sibling_above_iff] at isPrefix
      simp [isPrefix]
    · rename_i notSibling
      rw [sibling_above_iff] at notSibling
      simp [Ne.symm notSibling]
  unfold Completes
  rw [changes]
  split
  · rename_i sameFolder
    subst sameFolder
    have differentName : sname ≠ dname := by
      rintro rfl
      exact different rfl
    constructor
    · rintro (sameName | ⟨passing, movable⟩)
      · exact absurd sameName differentName
      · refine ⟨notAbove, ?_, passing, ?_, ?_⟩
        · rw [sibling_above_iff]
          exact differentName
        · intro apart
          simp at apart
        · intro apart
          simp at apart
    · intro completes
      exact .inr ⟨completes.moved, ⟨dvalid, folder, dfree⟩, by simp, child_not_above⟩
  · rename_i apart
    constructor
    · rintro ⟨passing, movable, renames⟩
      refine ⟨notAbove, mt belowIff.mp movable.outside, passing, ?_, ?_⟩
      · intro _ differentName
        simp only [List.getLast?_append, List.getLast?_singleton, Option.some_or, ne_eq,
          Option.some.injEq] at differentName
        simpa using viaFree.mp movable.free differentName
      · intro _ differentName
        simp only [List.getLast?_append, List.getLast?_singleton, Option.some_or, ne_eq,
          Option.some.injEq] at differentName
        exact (renames differentName).1
    · intro completes
      have freeOf := completes.free
      have renamedOf := completes.renamed
      simp only [List.dropLast_concat, List.getLast?_append, List.getLast?_singleton,
        Option.some_or, ne_eq, Option.some.injEq, Option.getD_some] at freeOf renamedOf
      refine ⟨completes.moved, ⟨⟨svalid, folder, viaFree.mpr (freeOf apart)⟩, by simp,
        mt belowIff.mpr completes.notBelow⟩, ?_⟩
      intro differentName
      exact ⟨renamedOf apart differentName, dvalid, folder, dfree⟩

theorem movedTo_of_relocated {before between after : Drive} {srcPath : List GoString}
    (source : ∃ node, before.lookup srcPath = some node)
    (same : ∀ place, ¬dfront ++ [dname] <+: place → between.lookup place = before.lookup place)
    (notBelow : ¬srcPath <+: dfront ++ [dname]) (notAbove : ¬dfront ++ [dname] <+: srcPath)
    (relocated : Drive.Relocated between after srcPath dfront dname) :
    MovedTo before after srcPath (dfront ++ [dname]) := by
  refine ⟨source, .inr ⟨notBelow, notAbove⟩, ?_, ?_⟩
  · intro rest
    rw [relocated.target, same]
    intro isPrefix
    rcases List.prefix_or_prefix_of_prefix isPrefix (List.prefix_append srcPath rest) with above | below
    · exact notAbove above
    · exact notBelow below
  · intro place notTarget
    rw [relocated.other place notTarget, same place notTarget]

/-- A failed move: either nothing was removed and every node is somewhere, or
exactly the nodes of the removed destination are gone. -/
structure MoveError (env : Env) (w : World) (srcPath dstPath : List GoString) (overwrite : Bool)
    (w' : World) : Prop where
  coherent : Coherent w'
  outcome : ¬MoveRemoves env w srcPath dstPath overwrite ∧ KeepsNodes w.drive w'.drive ∨
    MoveRemoves env w srcPath dstPath overwrite ∧ ¬MoveCompletes env w srcPath dstPath ∧
      ∀ old node, w.drive.lookup old = some node →
        ((∃ place, w'.drive.lookup place = some node) ↔ ¬dstPath <+: old)

/-- The last steps after the destination was removed. -/
theorem moveEntry_after_removal {u : World} {src srcParent dstParent : Entry}
    {snode spnode dpnode dnode : Node} {overwrite : Bool}
    (removes : MoveRemoves env w (sfront ++ [sname]) (dfront ++ [dname]) overwrite)
    (showsSrc : Shows w.drive (sfront ++ [sname]) src snode)
    (showsSrcParent : Shows w.drive sfront srcParent spnode)
    (showsDstParent : Shows w.drive dfront dstParent dpnode) (isFolder : w.drive.IsFolder dfront)
    (foundDst : w.drive.lookup (dfront ++ [dname]) = some dnode) (coherent : Coherent u)
    (removed : Drive.Removed w.drive u.drive (dfront ++ [dname]))
    (changes : u.changes = w.changes + 1) :
    Ensures (moveEntry env src srcParent dstParent dname) u
      (fun _ w' => Coherent w' ∧
        MovedTo w.drive w'.drive (sfront ++ [sname]) (dfront ++ [dname]) ∧
        (MoveRemoves env w (sfront ++ [sname]) (dfront ++ [dname]) overwrite →
          MoveCompletes env w (sfront ++ [sname]) (dfront ++ [dname])))
      fun _ w' => MoveError env w (sfront ++ [sname]) (dfront ++ [dname]) overwrite w' := by
  have keepsSelf : KeepsNodes u.drive u.drive := KeepsNodes.of_eq rfl
  by_cases above : dfront ++ [dname] <+: sfront ++ [sname]
  · -- the source went with the destination
    have abovePar : dfront ++ [dname] <+: sfront := by
      rcases List.prefix_concat_iff.mp above with same | above
      · exact absurd same.symm removes.distinct
      · exact above
    have apart : srcParent.id ≠ dstParent.id := by
      rw [ne_eq, showsSrcParent.id_eq_iff showsDstParent]
      rintro rfl
      exact child_not_above abovePar
    have gone : ∃ e, u.drive.locate src.id = .error e := by
      cases located : u.drive.locate src.id with
      | error e => exact ⟨e, rfl⟩
      | ok found =>
          obtain ⟨foundU, idEq⟩ := Drive.lookup_of_locate located
          rw [removed.lookup] at foundU
          split at foundU
          · contradiction
          · rename_i notBelow
            rw [showsSrc.id] at idEq
            have same := w.drive.idsUnique _ _ _ _ foundU showsSrc.found idEq
            exact absurd (same ▸ above) notBelow
    obtain ⟨e, gone⟩ := gone
    apply (moveEntry_gone coherent gone apart).mono
    · intro _ _ impossible
      exact impossible.elim
    · rintro _ w' ⟨coherent', driveEq⟩
      refine ⟨coherent', .inr ⟨removes, fun completes => completes.notAbove above, ?_⟩⟩
      intro old node found
      rw [driveEq]
      exact removed_keeps_iff removed keepsSelf (fun place node found => ⟨place, found⟩) found
  · have unchanged : ∀ place, ¬dfront ++ [dname] <+: place →
        u.drive.lookup place = w.drive.lookup place := by
      intro place notBelow
      rw [removed.lookup, if_neg notBelow]
    have showsIn : ∀ {place e node}, Shows w.drive place e node → ¬dfront ++ [dname] <+: place →
        Shows u.drive place e node := by
      intro place e node shows notBelow
      exact ⟨(unchanged place notBelow).trans shows.found, shows.id, shows.isDir, shows.size,
        shows.name⟩
    have showsSrc' := showsIn showsSrc above
    have showsSrcParent' := showsIn showsSrcParent fun isPrefix =>
      above (isPrefix.trans (List.prefix_append _ _))
    have showsDstParent' := showsIn showsDstParent child_not_above
    have isFolder' : u.drive.IsFolder dfront := by
      rw [showsDstParent'.isFolder_iff, ← showsDstParent.isFolder_iff]
      exact isFolder
    have completesIff := @completes_iff env w sfront dfront sname dname u snode dnode
      showsSrc.found foundDst above removed changes
    apply (moveEntry_ensures coherent showsSrc' showsSrcParent' showsDstParent' isFolder').mono
    · rintro _ w' ⟨coherent', completes, result⟩
      refine ⟨coherent', ?_, fun _ => completesIff.mp completes⟩
      rcases result with ⟨_, same⟩ | ⟨_, relocated⟩
      · exact absurd same removes.distinct
      · exact movedTo_of_relocated ⟨snode, showsSrc.found⟩ unchanged
          (completes.free removes.distinct).2 above relocated
    · rintro _ w' ⟨coherent', incomplete, result⟩
      refine ⟨coherent', .inr ⟨removes, mt completesIff.mpr incomplete, ?_⟩⟩
      intro old node found
      rcases result with driveEq | ⟨free, relocated⟩
      · rw [driveEq]
        exact removed_keeps_iff removed keepsSelf (fun place node found => ⟨place, found⟩) found
      · exact removed_keeps_iff removed (relocated.keepsNodes free)
          (fun place node found => relocated.onlyOld found) found

theorem move_ensures (coherent : Coherent w) (srcPath dstPath : List GoString)
    (overwrite : Bool) :
    Ensures (move env srcPath dstPath overwrite) w
      (fun _ w' => Coherent w' ∧ MovedTo w.drive w'.drive srcPath dstPath ∧
        (MoveRemoves env w srcPath dstPath overwrite → MoveCompletes env w srcPath dstPath))
      fun _ w' => MoveError env w srcPath dstPath overwrite w' := by
  have refused : ∀ w', Quiet w w' → ¬MoveRemoves env w srcPath dstPath overwrite →
      MoveError env w srcPath dstPath overwrite w' := by
    intro w' quiet notRemoves
    exact ⟨quiet.coherent, .inl ⟨notRemoves, KeepsNodes.of_eq quiet.drive⟩⟩
  unfold move
  split
  · rename_i isRoot
    subst isRoot
    apply refused w (Quiet.refl coherent)
    rintro ⟨_, _, ⟨_, _, _, _, w₁, _, _, _, _, resolved, _⟩, _⟩
    have failed : resolveParent env [] w₁ = (.error .alreadyExists, w₁) := rfl
    rw [failed] at resolved
    simp at resolved
  · apply (stat_ensures coherent srcPath).result.bind
    · rintro src w₁ ⟨⟨quiet₁, snode, showsSrc⟩, foundSrc⟩
      apply (resolveParent_ensures quiet₁.coherent srcPath).result.bind
      · rintro ⟨srcParent, sname⟩ w₂
          ⟨⟨quiet₂, sfront, spnode, rfl, showsSrcParent, _⟩, resolvedSrc⟩
        dsimp only at showsSrcParent resolvedSrc showsSrc foundSrc refused
        rw [quiet₁.drive] at showsSrcParent
        have quiet₁₂ := quiet₁.trans quiet₂
        dsimp only
        apply (resolveParent_ensures quiet₂.coherent dstPath).result.bind
        · rintro ⟨dstParent, dname⟩ w₃
            ⟨⟨quiet₃, dfront, dpnode, rfl, showsDstParent, isFolder⟩, resolvedDst⟩
          dsimp only at showsDstParent resolvedDst refused
          rw [quiet₁₂.drive] at showsDstParent isFolder
          have quiet₁₃ := quiet₁₂.trans quiet₃
          dsimp only
          rw [ensures_bind, ensures_attempt]
          apply (stat_ensures quiet₃.coherent _).result.mono
          · rintro existing w₄ ⟨⟨quiet₄, dnode, showsDst⟩, foundDst⟩
            rw [quiet₁₃.drive] at showsDst
            have quiet := quiet₁₃.trans quiet₄
            dsimp only
            split
            · rename_i forbidden
              apply refused w₄ quiet
              intro removes
              rw [removes.allowed] at forbidden
              contradiction
            · rename_i allowed
              split
              · rename_i sameId
                apply refused w₄ quiet
                intro removes
                exact removes.distinct ((showsDst.id_eq_iff showsSrc).mp sameId).symm
              · rename_i differentIds
                have showsDst₄ : Shows w₄.drive (dfront ++ [dname]) existing dnode :=
                  quiet.drive ▸ showsDst
                have showsDstParent₄ : Shows w₄.drive dfront dstParent dpnode :=
                  quiet.drive ▸ showsDstParent
                apply (delete_ensures quiet.coherent showsDstParent₄ showsDst₄).bind
                · rintro _ _ ⟨passing, d', rfl, removed, coherent'⟩
                  rw [quiet.changes] at passing
                  rw [quiet.drive] at removed
                  rw [ensures_bind, ensures_invalidate]
                  apply moveEntry_after_removal _ showsSrc showsSrcParent showsDstParent isFolder
                    showsDst.found coherent' removed (congrArg (· + 1) quiet.changes)
                  refine ⟨by simpa using allowed, ?_, ?_, passing⟩
                  · exact fun same => differentIds ((showsDst.id_eq_iff showsSrc).mpr same.symm)
                  · exact ⟨src, (srcParent, sname), (dstParent, dname), existing, w₁, w₂, w₃, w₄,
                      foundSrc, resolvedSrc, resolvedDst, foundDst⟩
                · rintro _ _ ⟨failing, rfl⟩
                  refine ⟨coherent_changed_self quiet.coherent, .inl ⟨?_, ?_⟩⟩
                  · intro removes
                    rw [quiet.changes] at failing
                    exact failing removes.letThrough
                  · exact KeepsNodes.of_eq quiet.drive
          · rintro e w₄ ⟨⟨quiet₄, _⟩, notFound⟩
            have quiet := quiet₁₃.trans quiet₄
            have notRemoves : ¬MoveRemoves env w (sfront ++ [sname]) (dfront ++ [dname])
                overwrite := by
              rintro ⟨_, _, ⟨_, _, _, _, _, _, _, _, one, two, three, four⟩, _⟩
              rw [foundSrc] at one
              cases one
              rw [resolvedSrc] at two
              cases two
              rw [resolvedDst] at three
              cases three
              rw [notFound] at four
              simp at four
            have showsSrc₄ : Shows w₄.drive (sfront ++ [sname]) src snode := quiet.drive ▸ showsSrc
            have showsSrcParent₄ : Shows w₄.drive sfront srcParent spnode :=
              quiet.drive ▸ showsSrcParent
            have showsDstParent₄ : Shows w₄.drive dfront dstParent dpnode :=
              quiet.drive ▸ showsDstParent
            have isFolder₄ : w₄.drive.IsFolder dfront := quiet.drive ▸ isFolder
            dsimp only
            apply (moveEntry_ensures quiet.coherent showsSrc₄ showsSrcParent₄ showsDstParent₄
              isFolder₄).mono
            · rintro _ w' ⟨coherent', completes, result⟩
              refine ⟨coherent', ?_, fun removes => absurd removes notRemoves⟩
              rw [quiet.drive] at result
              rcases result with ⟨driveEq, same⟩ | ⟨different, relocated⟩
              · rw [← same, driveEq]
                refine ⟨⟨snode, showsSrc.found⟩, .inl rfl, fun _ => rfl, ?_⟩
                intro place notBelow
                rw [if_neg notBelow]
              · obtain ⟨free, notBelow⟩ := completes.free different
                rw [quiet.drive] at free
                apply movedTo_of_relocated ⟨snode, showsSrc.found⟩ (fun _ _ => rfl) notBelow _
                  relocated
                intro above
                have absent := w.drive.lookup_none_below free above
                rw [showsSrc.found] at absent
                contradiction
            · rintro _ w' ⟨coherent', _, result⟩
              refine ⟨coherent', .inl ⟨notRemoves, ?_⟩⟩
              rw [quiet.drive] at result
              rcases result with driveEq | ⟨free, relocated⟩
              · exact KeepsNodes.of_eq driveEq
              · exact relocated.keepsNodes free
        · rintro e w₃ ⟨⟨quiet₃, _⟩, failed⟩
          apply refused w₃ (quiet₁₂.trans quiet₃)
          rintro ⟨_, _, ⟨_, _, _, _, _, _, _, _, one, two, three, _⟩, _⟩
          rw [foundSrc] at one
          cases one
          rw [resolvedSrc] at two
          cases two
          rw [failed] at three
          simp at three
      · rintro e w₂ ⟨⟨quiet₂, _⟩, failed⟩
        apply refused w₂ (quiet₁.trans quiet₂)
        rintro ⟨_, _, ⟨_, _, _, _, _, _, _, _, one, two, _⟩, _⟩
        rw [foundSrc] at one
        cases one
        rw [failed] at two
        simp at two
    · rintro e w₁ ⟨⟨quiet₁, _⟩, failed⟩
      apply refused w₁ quiet₁
      rintro ⟨_, _, ⟨_, _, _, _, _, _, _, _, one, _⟩, _⟩
      rw [failed] at one
      simp at one

end RoundSync.Kernel
