import RoundSync.Kernel.Coherence

/-!
# The steps of an upload

`prepareOverwrite` sets an existing file aside, by removing it or giving it a
temporary name; after the upload the old file is dropped or brought back.
-/

namespace RoundSync.Kernel

open RoundSync.Text
open RoundSync.Tree
open RoundSync.Transition
open Effect

theorem validName_temp {name : GoString} (valid : ValidName name) :
    ValidName (name ++ tempSuffix) := by
  have longer : 2 < (name ++ tempSuffix).length := by
    have suffixLength : tempSuffix.length = 19 := by decide
    rw [List.length_append, suffixLength]
    omega
  constructor
  · intro empty
    rw [empty] at longer
    contradiction
  · intro isDot
    rw [isDot] at longer
    contradiction
  · intro isDotdot
    rw [isDotdot] at longer
    contradiction
  · have suffixFree : slash ∉ tempSuffix := by decide
    rw [List.mem_append, not_or]
    exact ⟨valid.slash_notMem, suffixFree⟩

theorem temp_ne (name : GoString) : name ++ tempSuffix ≠ name := by
  intro equal
  have lengths := congrArg List.length equal
  have suffixLength : tempSuffix.length = 19 := by decide
  rw [List.length_append, suffixLength] at lengths
  omega

/-! ## Setting the old file aside -/

variable {env : Env} {w w' : World} {front : List GoString} {name : GoString} {node : Node}

/-- From `w` to `w'` the file `name` of a folder was removed, or renamed if it
has any content. -/
structure SetAside (env : Env) (w w' : World) (front : List GoString) (name : GoString)
    (node : Node) : Prop where
  found : w.drive.lookup (front ++ [name]) = some node
  isFile : node.isDir = false
  letThrough : env.changeFails w.changes = none
  changes : w'.changes = w.changes + 1
  reads : w'.reads = 0
  coherent : Coherent w'
  removed : node.size = 0 → Drive.Removed w.drive w'.drive (front ++ [name])
  renamed : node.size ≠ 0 →
    w.drive.relocateAt (front ++ [name]) front (name ++ tempSuffix) = .ok w'.drive

namespace SetAside

variable (aside : SetAside env w w' front name node)
include aside

theorem nextId : w'.drive.nextId = w.drive.nextId := by
  by_cases empty : node.size = 0
  · exact (aside.removed empty).nextId
  · exact (Drive.relocateAt_ok (aside.renamed empty)).2.nextId

/-- Only the old name and the temporary name are affected. -/
theorem lookup_other {other : List GoString} (notOld : other ≠ front ++ [name])
    (notTemp : other ≠ front ++ [name ++ tempSuffix]) :
    w'.drive.lookup other = w.drive.lookup other := by
  have belowOld : front ++ [name] <+: other → w.drive.lookup other = none := fun below =>
    Drive.lookup_below_file aside.found aside.isFile below notOld.symm
  by_cases empty : node.size = 0
  · rw [(aside.removed empty).lookup]
    split
    · rename_i below
      exact (belowOld below).symm
    · rfl
  · obtain ⟨movable, relocated⟩ := Drive.relocateAt_ok (aside.renamed empty)
    by_cases belowTemp : front ++ [name ++ tempSuffix] <+: other
    · rw [w.drive.lookup_none_below movable.free belowTemp]
      obtain ⟨rest, rfl⟩ := belowTemp
      rw [relocated.target]
      apply Drive.lookup_below_file aside.found aside.isFile (List.prefix_append _ _)
      intro same
      rw [List.self_eq_append_right] at same
      subst rest
      simp at notTemp
    · rw [relocated.other other belowTemp]
      split
      · rename_i below
        exact (belowOld below).symm
      · rfl

theorem lookup_old : w'.drive.lookup (front ++ [name]) = none := by
  by_cases empty : node.size = 0
  · rw [(aside.removed empty).lookup, if_pos (List.prefix_refl _)]
  · obtain ⟨_, relocated⟩ := Drive.relocateAt_ok (aside.renamed empty)
    rw [relocated.other, if_pos (List.prefix_refl _)]
    intro isPrefix
    have same := isPrefix.eq_of_length (by simp)
    exact temp_ne name (List.singleton_inj.mp (List.append_cancel_left same))

theorem lookup_temp (nonempty : node.size ≠ 0) :
    w'.drive.lookup (front ++ [name ++ tempSuffix]) = some node := by
  obtain ⟨_, relocated⟩ := Drive.relocateAt_ok (aside.renamed nonempty)
  have moved := relocated.target []
  rw [List.append_nil, List.append_nil, aside.found] at moved
  exact moved

theorem keepsNodes (nonempty : node.size ≠ 0) : KeepsNodes w.drive w'.drive := by
  obtain ⟨movable, relocated⟩ := Drive.relocateAt_ok (aside.renamed nonempty)
  exact relocated.keepsNodes movable.free

theorem lookup_front : w'.drive.lookup front = w.drive.lookup front := by
  apply aside.lookup_other
  · simp
  · simp

end SetAside

/-- The first step of an upload: nothing is there, or what is there is a file
and is set aside. -/
theorem prepareOverwrite_ensures (coherent : Coherent w) {parent : Entry} {pnode : Node}
    (shows : Shows w.drive front parent pnode) :
    Ensures (prepareOverwrite env (front ++ [name]) parent name) w
      (fun r w' => r.2 = name ++ tempSuffix ∧
        ((r.1 = none ∧ Quiet w w' ∧ ∃ e, stat env (front ++ [name]) w = (.error e, w')) ∨
          ∃ old node w₁, r.1 = some old ∧ stat env (front ++ [name]) w = (.ok old, w₁) ∧
            old.size = node.size ∧ SetAside env w w' front name node))
      fun _ w' => w'.drive = w.drive ∧ Coherent w' ∧
        ∃ old node w₁, stat env (front ++ [name]) w = (.ok old, w₁) ∧
          w.drive.lookup (front ++ [name]) = some node ∧
          (node.isDir = false → env.changeFails w.changes = none →
            node.size ≠ 0 ∧ ¬w.drive.Movable (front ++ [name]) front (name ++ tempSuffix)) := by
  unfold prepareOverwrite
  dsimp only
  rw [ensures_bind, ensures_attempt]
  apply (stat_ensures coherent _).result.mono
  · rintro existing w₁ ⟨⟨quiet, node, shown⟩, result⟩
    have found : w₁.drive.lookup (front ++ [name]) = some node := quiet.drive ▸ shown.found
    dsimp only
    split
    · rename_i isDir
      refine ⟨quiet.drive, quiet.coherent, existing, node, w₁, result, shown.found, ?_⟩
      intro isFile
      rw [← shown.isDir, isDir] at isFile
      contradiction
    · rename_i notDir
      have isFile : node.isDir = false := by
        rw [← shown.isDir]
        simpa using notDir
      have refused : ∀ drive, drive = w₁.drive → ∀ message,
          env.changeFails w₁.changes = some message →
          (w₁.changed drive).drive = w.drive ∧ Coherent (w₁.changed drive) ∧
          ∃ old node w₁, stat env (front ++ [name]) w = (.ok old, w₁) ∧
            w.drive.lookup (front ++ [name]) = some node ∧
            (node.isDir = false → env.changeFails w.changes = none →
              node.size ≠ 0 ∧ ¬w.drive.Movable (front ++ [name]) front (name ++ tempSuffix)) := by
        rintro drive rfl message failing
        refine ⟨quiet.drive, coherent_changed_self quiet.coherent, existing, node, w₁, result,
          shown.found, ?_⟩
        intro _ passing
        rw [← quiet.changes, failing] at passing
        contradiction
      split
      · rename_i empty
        rw [ensures_bind, ensures_attempt]
        apply ensures_changeCall
        · intro message failing
          exact refused _ rfl message failing
        · intro passing e rejected
          rw [shown.id, Drive.delete_eq found] at rejected
          obtain ⟨d', equal, _⟩ := w₁.drive.removeAt_concat front name
          rw [equal] at rejected
          contradiction
        · intro passing d' accepted
          rw [shown.id, Drive.delete_eq found] at accepted
          obtain ⟨d'', equal, removed⟩ := w₁.drive.removeAt_concat front name
          rw [equal] at accepted
          cases accepted
          refine ⟨rfl, .inr ⟨existing, node, w₁, rfl, result, shown.size, ?_⟩⟩
          have sizeEq : node.size = 0 := shown.size.symm.trans empty
          have follows : Follows w₁.drive d' [parent.id] := by
            rw [shows.id]
            exact follows_of_removed (quiet.drive ▸ shows.found) removed
          constructor
          · exact shown.found
          · exact isFile
          · rw [← quiet.changes]
            exact passing
          · exact congrArg (· + 1) quiet.changes
          · rfl
          · exact coherent_without (coherentExcept_changed quiet.coherent follows) (by simp)
          · intro _
            rw [← quiet.drive]
            exact removed
          · intro nonempty
            exact absurd sizeEq nonempty
      · rename_i nonempty
        have sizeNe : node.size ≠ 0 := shown.size ▸ nonempty
        rw [ensures_bind]
        apply ensures_changeCall
        · intro message failing
          exact refused _ rfl message failing
        · intro passing e rejected
          rw [shown.id, Drive.rename_eq found, List.dropLast_concat] at rejected
          refine ⟨quiet.drive, coherent_changed_self quiet.coherent, existing, node, w₁, result,
            shown.found, ?_⟩
          intro _ _
          rcases w₁.drive.relocateAt_cases (front ++ [name]) front (name ++ tempSuffix) with
            ⟨_, d', equal, _⟩ | ⟨immovable, _⟩
          · rw [equal] at rejected
            contradiction
          · rw [← quiet.drive]
            exact ⟨sizeNe, immovable⟩
        · intro passing d' accepted
          rw [shown.id, Drive.rename_eq found, List.dropLast_concat] at accepted
          refine ⟨rfl, .inr ⟨existing, node, w₁, rfl, result, shown.size, ?_⟩⟩
          obtain ⟨_, relocated⟩ := Drive.relocateAt_ok accepted
          have follows : Follows w₁.drive d' [parent.id, parent.id] := by
            rw [shows.id]
            exact follows_of_relocated (quiet.drive ▸ shows.found) (quiet.drive ▸ shows.found)
              relocated
          constructor
          · exact shown.found
          · exact isFile
          · rw [← quiet.changes]
            exact passing
          · exact congrArg (· + 1) quiet.changes
          · rfl
          · exact coherent_without (coherentExcept_changed quiet.coherent follows) (by simp)
          · intro empty
            exact absurd empty sizeNe
          · intro _
            rw [← quiet.drive]
            exact accepted
  · rintro e w₁ ⟨⟨quiet, _⟩, result⟩
    exact ⟨rfl, .inl ⟨rfl, quiet, e, result⟩⟩

/-! ## The upload call -/

/-- A call that uploads `data` under a name, unless its body is too short. -/
structure UploadCall (call : Int → Drive → Except DriveError Drive) (parentID : Nat)
    (name data : GoString) (modTime createTime : Int) (short : Prop) : Prop where
  rejects : short → ∀ now d, ∃ e, call now d = .error e
  puts : ¬short → ∀ now d, call now d = d.put parentID name data modTime createTime

theorem upload_ensures {call : Int → Drive → Except DriveError Drive} {pnode : Node}
    {data : GoString} {modTime createTime : Int} {short : Prop}
    (isUpload : UploadCall call pnode.id name data modTime createTime short)
    (coherent : Coherent w) (found : w.drive.lookup front = some pnode) :
    Ensures (changeCall env call) w
      (fun _ w' => ¬short ∧ env.changeFails w.changes = none ∧
        ∃ d', w' = w.changed d' ∧
          Drive.Added w.drive d' front name (.file data) modTime createTime ∧
          CoherentExcept [pnode.id] w')
      fun _ w' => w' = w.changed w.drive ∧
        (env.changeFails w.changes ≠ none ∨ short ∨ ¬w.drive.Accepts front name) := by
  apply ensures_changeCall
  · intro message failing
    refine ⟨rfl, .inl ?_⟩
    rw [failing]
    simp
  · intro _ e rejected
    refine ⟨rfl, .inr ?_⟩
    by_cases tooShort : short
    · exact .inl tooShort
    · rw [isUpload.puts tooShort, Drive.put_eq found] at rejected
      rcases w.drive.addAt_cases front name (.file data) modTime createTime with
        ⟨_, d', equal, _⟩ | ⟨refused, _⟩
      · rw [equal] at rejected
        contradiction
      · exact .inr refused
  · intro passing d' accepted
    have complete : ¬short := by
      intro tooShort
      obtain ⟨e, rejected⟩ := isUpload.rejects tooShort (env.stamp w.changes) w.drive
      rw [rejected] at accepted
      contradiction
    rw [isUpload.puts complete, Drive.put_eq found] at accepted
    rcases w.drive.addAt_cases front name (.file data) modTime createTime with
      ⟨_, d'', equal, added⟩ | ⟨_, e, equal, _⟩
    · rw [equal] at accepted
      cases accepted
      exact ⟨complete, passing, _, rfl, added,
        coherentExcept_changed coherent (follows_of_added found added)⟩
    · rw [equal] at accepted
      contradiction

/-! ## After the upload -/

/-- The two calls that bring the old file back can be made. -/
structure Restorable (env : Env) (w : World) (node : Node) : Prop where
  nonempty : 0 < node.size
  listed : env.readFails (w.changes + 2) 0 = none
  renamed : env.changeFails (w.changes + 2) = none

theorem SetAside.movableBack (aside : SetAside env w w' front name node) :
    w'.drive.Movable (front ++ [name ++ tempSuffix]) front name := by
  have valid : ValidName name :=
    w.drive.namesValid _ _ aside.found name (by simp)
  have parent : w.drive.IsFolder front :=
    w.drive.isFolder_of_below (List.cons_ne_nil name []) aside.found
  have free := aside.lookup_old
  refine ⟨⟨valid, ?_, free⟩, by simp, ?_⟩
  · obtain ⟨pnode, found, isFolder⟩ := parent
    exact ⟨pnode, aside.lookup_front.trans found, isFolder⟩
  · exact child_not_above

theorem restoreOverwrite_ensures {parent old : Entry} {pnode : Node}
    (aside : SetAside env w w' front name node) (sizeEq : old.size = node.size)
    (shows : Shows w.drive front parent pnode) :
    Ensures (restoreOverwrite env parent (some old) (name ++ tempSuffix) name)
      (w'.changed w'.drive)
      (fun _ z => CoherentExcept [parent.id] z ∧ (Restorable env w node → z.drive = w.drive) ∧
        (¬Restorable env w node → z.drive = w'.drive))
      fun _ _ => False := by
  have coherent : Coherent (w'.changed w'.drive) := coherent_changed_self aside.coherent
  have parentFolder : pnode.isDir = true := by
    rw [← shows.isDir, ← shows.isFolder_iff]
    exact w.drive.isFolder_of_below (List.cons_ne_nil name []) aside.found
  have stays : ∀ z, Quiet ((w'.changed w'.drive).without [parent.id]) z →
      CoherentExcept [parent.id] z ∧ z.drive = w'.drive := by
    intro z quiet
    exact ⟨fun id ce kept _ => quiet.coherent id ce kept (by simp), quiet.drive⟩
  have countEq : (w'.changed w'.drive).changes = w.changes + 2 :=
    congrArg (· + 1) aside.changes
  unfold restoreOverwrite
  dsimp only
  split
  · rename_i positive
    have nonempty : node.size ≠ 0 := by
      rw [← sizeEq]
      exact positive.ne'
    have finding := @findByName_ensures env _ [] front pnode coherent (List.nil_subset _)
      (aside.lookup_front.trans shows.found) parentFolder (name ++ tempSuffix)
    rw [← shows.id] at finding
    rw [ensures_bind, ensures_attempt]
    apply finding.mono
    · rintro e z ⟨quiet, listed, child, foundChild, rfl⟩
      rw [show (w'.changed w'.drive).drive = w'.drive from rfl, aside.lookup_temp nonempty]
        at foundChild
      cases foundChild
      have foundTemp : z.drive.lookup (front ++ [name ++ tempSuffix]) = some node :=
        quiet.drive ▸ aside.lookup_temp nonempty
      have countZ : z.changes = w.changes + 2 := quiet.changes.trans countEq
      rw [countEq] at listed
      dsimp only
      rw [ensures_bind, ensures_attempt]
      apply ensures_changeCall
      · intro message failing
        obtain ⟨coherentZ, driveZ⟩ := stays z quiet
        refine ⟨coherentZ, ?_, fun _ => driveZ⟩
        intro restorable
        rw [countZ, restorable.renamed] at failing
        contradiction
      · intro _ e rejected
        rw [Node.entry, Drive.rename_eq foundTemp, List.dropLast_concat] at rejected
        rcases z.drive.relocateAt_cases (front ++ [name ++ tempSuffix]) front name with
          ⟨_, d', equal, _⟩ | ⟨immovable, _⟩
        · rw [equal] at rejected
          contradiction
        · rw [(stays z quiet).2] at immovable
          exact absurd aside.movableBack immovable
      · intro passing d' accepted
        rw [Node.entry, Drive.rename_eq foundTemp, List.dropLast_concat, (stays z quiet).2]
          at accepted
        obtain ⟨_, relocated⟩ := Drive.relocateAt_ok accepted
        have restored := Drive.relocateAt_back (aside.renamed nonempty) accepted
        have foundFront : w'.drive.lookup front = some pnode :=
          aside.lookup_front.trans shows.found
        have follows : Follows z.drive d' [parent.id, parent.id] := by
          rw [(stays z quiet).2, shows.id]
          exact follows_of_relocated foundFront foundFront relocated
        refine ⟨?_, fun _ => restored, ?_⟩
        · intro id ce kept fresh
          exact coherentExcept_changed quiet.coherent follows id ce kept (by simpa using fresh)
        · intro notRestorable
          rw [countZ] at passing
          exact absurd ⟨sizeEq ▸ positive, listed, passing⟩ notRestorable
    · rintro e z ⟨quiet, failing | absent⟩
      · obtain ⟨coherentZ, driveZ⟩ := stays z quiet
        refine ⟨coherentZ, ?_, fun _ => driveZ⟩
        intro restorable
        rw [countEq] at failing
        exact absurd restorable.listed failing
      · rw [show (w'.changed w'.drive).drive = w'.drive from rfl, aside.lookup_temp nonempty]
          at absent
        contradiction
  · rename_i notPositive
    refine ⟨fun id ce kept _ => coherent id ce kept (by simp), ?_, fun _ => rfl⟩
    intro restorable
    rw [sizeEq] at notPositive
    exact absurd restorable.nonempty notPositive

theorem cleanupOverwrite_ensures {parent old : Entry} {pnode : Node} {tempName : GoString}
    (coherent : CoherentExcept [pnode.id] w) (idEq : parent.id = pnode.id)
    (found : w.drive.lookup front = some pnode) (isFolder : pnode.isDir = true) :
    Ensures (cleanupOverwrite env parent (some old) tempName) w
      (fun _ z => CoherentExcept [pnode.id] z ∧ (z.drive = w.drive ∨
        0 < old.size ∧ Drive.Removed w.drive z.drive (front ++ [tempName])))
      fun _ _ => False := by
  unfold cleanupOverwrite
  dsimp only
  split
  · rename_i positive
    have finding := @findByName_ensures env _ _ front pnode coherent (List.Subset.refl _) found
      isFolder tempName
    rw [idEq, ensures_bind, ensures_attempt]
    apply finding.mono
    · rintro e z ⟨quiet, _, child, foundChild, rfl⟩
      have coherentZ : CoherentExcept [pnode.id] z := fun id ce kept _ =>
        quiet.coherent id ce kept (by simp)
      have foundTemp : z.drive.lookup (front ++ [tempName]) = some child :=
        quiet.drive ▸ foundChild
      dsimp only
      rw [ensures_bind, ensures_attempt]
      apply ensures_changeCall
      · intro _ _
        exact ⟨coherentZ, .inl quiet.drive⟩
      · intro _ _ _
        exact ⟨coherentZ, .inl quiet.drive⟩
      · intro _ d' accepted
        rw [Node.entry, Drive.delete_eq foundTemp] at accepted
        obtain ⟨d'', equal, removed⟩ := z.drive.removeAt_concat front tempName
        rw [equal] at accepted
        cases accepted
        constructor
        · intro id ce kept fresh
          have follows := follows_of_removed (quiet.drive ▸ found) removed
          exact coherentExcept_changed quiet.coherent follows id ce kept (by simpa using fresh)
        · right
          rw [show w.drive = z.drive from quiet.drive.symm]
          exact ⟨positive, removed⟩
    · rintro e z ⟨quiet, _⟩
      exact ⟨fun id ce kept _ => quiet.coherent id ce kept (by simp), .inl quiet.drive⟩
  · exact ⟨coherent, .inl rfl⟩

end RoundSync.Kernel
