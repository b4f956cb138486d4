import RoundSync.Kernel.UploadSteps

/-!
# Uploads

What `Put` leaves behind, after a success and after a failure.  The folder of
the file is left as it was exactly where an old file that has been set aside
can be brought back.
-/

namespace RoundSync.Kernel

open RoundSync.Text
open RoundSync.Tree
open RoundSync.Transition
open Effect

variable {env : Env} {w w' : World} {front : List GoString} {name : GoString} {node : Node}

/-! ## The whole replacement -/

/-- The steps that set an old file aside go through. -/
structure Replaces (env : Env) (w : World) (front : List GoString) (name : GoString)
    (node : Node) : Prop where
  located : ∃ old w₁, stat env (front ++ [name]) w = (.ok old, w₁)
  found : w.drive.lookup (front ++ [name]) = some node
  isFile : node.isDir = false
  letThrough : env.changeFails w.changes = none
  free : node.size ≠ 0 → w.drive.lookup (front ++ [name ++ tempSuffix]) = none

/-- Whenever an old file is set aside and the upload then fails, the old file
can be brought back. -/
def Safe (env : Env) (w : World) (front : List GoString) (name : GoString) (short : Prop) : Prop :=
  ∀ node, Replaces env w front name node →
    env.changeFails (w.changes + 1) ≠ none ∨ short → Restorable env w node

/-- What a successful upload leaves: the new file, and everything else as it
was, except that an old file may be left under its temporary name. -/
structure Replaced (before after : Drive) (front : List GoString) (name data : GoString)
    (modTime createTime : Int) : Prop where
  file : ∃ id, before.nextId ≤ id ∧
    after.lookup (front ++ [name]) = some ⟨id, .file data, modTime, createTime⟩
  others : ∀ other, other ≠ front ++ [name] → after.lookup other = before.lookup other ∨
    other = front ++ [name ++ tempSuffix] ∧ before.lookup other = none ∧
      before.lookup (front ++ [name]) ≠ none
  nextId : before.nextId ≤ after.nextId

theorem replaced_of_added {d d' : Drive} {data : GoString} {modTime createTime : Int}
    (added : Drive.Added d d' front name (.file data) modTime createTime) :
    Replaced d d' front name data modTime createTime := by
  constructor
  · exact ⟨d.nextId, le_refl _, by rw [added.lookup, if_pos rfl]⟩
  · intro other different
    rw [added.lookup, if_neg different]
    exact .inl rfl
  · rw [added.nextId]
    exact Nat.le_succ _

theorem SetAside.replaced (aside : SetAside env w w' front name node) {d₁ d₂ : Drive}
    {data : GoString} {modTime createTime : Int}
    (added : Drive.Added w'.drive d₁ front name (.file data) modTime createTime)
    (cleaned : d₂ = d₁ ∨ 0 < node.size ∧ Drive.Removed d₁ d₂ (front ++ [name ++ tempSuffix])) :
    Replaced w.drive d₂ front name data modTime createTime := by
  have tempNe : front ++ [name ++ tempSuffix] ≠ front ++ [name] := by
    intro same
    exact temp_ne name (List.singleton_inj.mp (List.append_cancel_left same))
  have apart : ¬front ++ [name ++ tempSuffix] <+: front ++ [name] := fun isPrefix =>
    tempNe (isPrefix.eq_of_length (by simp))
  have fileAdded : d₁.lookup (front ++ [name]) =
      some ⟨w'.drive.nextId, .file data, modTime, createTime⟩ := by
    rw [added.lookup, if_pos rfl]
  have othersAdded : ∀ other, other ≠ front ++ [name] →
      other ≠ front ++ [name ++ tempSuffix] → d₁.lookup other = w.drive.lookup other := by
    intro other notOld notTemp
    rw [added.lookup, if_neg notOld, aside.lookup_other notOld notTemp]
  have idLe : w.drive.nextId ≤ w'.drive.nextId := aside.nextId.ge
  have nextLe : w.drive.nextId ≤ d₁.nextId := by
    rw [added.nextId]
    exact idLe.trans (Nat.le_succ _)
  rcases cleaned with rfl | ⟨positive, removed⟩
  · refine ⟨⟨_, idLe, fileAdded⟩, ?_, nextLe⟩
    intro other notOld
    by_cases isTemp : other = front ++ [name ++ tempSuffix]
    · subst other
      by_cases empty : node.size = 0
      · left
        rw [added.lookup, if_neg tempNe, (aside.removed empty).lookup, if_neg]
        exact fun isPrefix => tempNe (isPrefix.eq_of_length (by simp)).symm
      · obtain ⟨movable, _⟩ := Drive.relocateAt_ok (aside.renamed empty)
        refine .inr ⟨rfl, movable.free, ?_⟩
        rw [aside.found]
        simp
    · exact .inl (othersAdded other notOld isTemp)
  · obtain ⟨movable, _⟩ := Drive.relocateAt_ok (aside.renamed positive.ne')
    refine ⟨⟨_, idLe, ?_⟩, ?_, ?_⟩
    · rw [removed.lookup, if_neg apart, fileAdded]
    · intro other notOld
      left
      rw [removed.lookup]
      split
      · rename_i below
        rw [w.drive.lookup_none_below movable.free below]
      · rename_i notBelow
        apply othersAdded other notOld
        rintro rfl
        exact notBelow (List.prefix_refl _)
    · rw [removed.nextId]
      exact nextLe

/-- A failed replacement: the drive is as it was exactly if it is safe, and
otherwise the old file is gone from its place. -/
structure ReplaceError (env : Env) (w : World) (front : List GoString) (name : GoString)
    (short : Prop) (w' : World) : Prop where
  coherent : Coherent w'
  outcome : w'.drive = w.drive ∧ Safe env w front name short ∨
    w'.drive.lookup (front ++ [name]) = none ∧ ¬Safe env w front name short
  keeps : (∀ node, w.drive.lookup (front ++ [name]) = some node → node.size ≠ 0) →
    KeepsNodes w.drive w'.drive
  lost : ¬Safe env w front name short →
    (∀ node, w.drive.lookup (front ++ [name]) = some node → node.size = 0) →
    Drive.Removed w.drive w'.drive (front ++ [name])
  cause : w.drive.lookup (front ++ [name]) = none →
    env.changeFails w.changes ≠ none ∨ short ∨ ¬ValidName name

/-- The last steps cannot fail and do not change the drive. -/
theorem readBack_ensures {pnode : Node} {name : GoString} {Q : World → Prop}
    {E : DriveError → World → Prop} {rest : Except DriveError Entry → Fs Entry}
    (coherent : CoherentExcept [pnode.id] w) (found : w.drive.lookup front = some pnode)
    (isFolder : pnode.isDir = true) (returns : ∀ answer, ∃ fresh, rest answer = pure fresh)
    (holds : ∀ w', Coherent w' → w'.drive = w.drive → Q w') :
    Ensures (do
      invalidate [pnode.id]
      let answer ← attempt (findByName env pnode.id name)
      rest answer) w (fun _ => Q) E := by
  have finding := @findByName_ensures env (w.without [pnode.id]) [] front pnode
    (coherent_without coherent (List.Subset.refl _)) (List.nil_subset _) found isFolder name
  rw [ensures_bind, ensures_invalidate, ensures_bind, ensures_attempt]
  apply finding.mono
  · rintro fresh w' ⟨quiet, _⟩
    obtain ⟨entry, answered⟩ := returns (.ok fresh)
    rw [answered]
    exact holds w' quiet.coherent quiet.drive
  · rintro e w' ⟨quiet, _⟩
    obtain ⟨entry, answered⟩ := returns (.error e)
    rw [answered]
    exact holds w' quiet.coherent quiet.drive

theorem replaceFile_ensures {call : Int → Drive → Except DriveError Drive} {parent : Entry}
    {pnode : Node} {data : GoString} {size modTime createTime : Int} {short : Prop}
    (coherent : Coherent w) (shows : Shows w.drive front parent pnode)
    (isFolder : w.drive.IsFolder front)
    (isUpload : UploadCall call parent.id name data modTime createTime short) :
    Ensures
      (replaceFile env (front ++ [name]) parent name (changeCall env call) size modTime createTime)
      w
      (fun _ w' => Coherent w' ∧ Replaced w.drive w'.drive front name data modTime createTime ∧
        ¬short ∧ ∀ node, Replaces env w front name node → env.changeFails (w.changes + 1) = none)
      fun _ w' => ReplaceError env w front name short w' := by
  have parentFolder : pnode.isDir = true := by
    rw [← shows.isDir, ← shows.isFolder_iff]
    exact isFolder
  rw [shows.id] at isUpload
  have finishes : ∀ (z : World) (Q : World → Prop) (E : DriveError → World → Prop),
      CoherentExcept [pnode.id] z → z.drive.lookup front = some pnode →
      (∀ z', Coherent z' → z'.drive = z.drive → Q z') →
      ∀ rest : Except DriveError Entry → Fs Entry, (∀ answer, ∃ fresh, rest answer = pure fresh) →
        Ensures (do
          invalidate [parent.id]
          let answer ← attempt (findByName env parent.id name)
          rest answer) z (fun _ => Q) E := by
    intro z Q E coherentZ foundZ holds rest returns
    rw [shows.id]
    exact readBack_ensures coherentZ foundZ parentFolder returns holds
  unfold replaceFile
  apply (prepareOverwrite_ensures coherent shows).bind
  · rintro ⟨old, tempName⟩ w₁ ⟨tempEq, ⟨oldEq, quiet, e, failed⟩ |
      ⟨old', node, w₂, oldEq, located, sizeEq, aside⟩⟩
    · -- nothing is set aside
      dsimp only at tempEq oldEq
      subst tempEq oldEq
      have foundFront : w₁.drive.lookup front = some pnode := quiet.drive ▸ shows.found
      have noReplacement : ∀ node, ¬Replaces env w front name node := by
        intro node replaces
        obtain ⟨old, w₂, located⟩ := replaces.located
        rw [failed] at located
        simp at located
      have safe : Safe env w front name short := fun node replaces =>
        absurd replaces (noReplacement node)
      dsimp only
      rw [ensures_bind, ensures_attempt]
      apply (upload_ensures isUpload quiet.coherent foundFront).mono
      · rintro _ w₃ ⟨complete, _, d', rfl, added, coherentAfter⟩
        dsimp only [cleanupOverwrite]
        rw [ensures_bind, ensures_pure]
        apply finishes _ _ _ coherentAfter
        · rw [show (w₁.changed d').drive = d' from rfl, added.lookup, if_neg (by simp)]
          exact foundFront
        · intro z' coherentZ driveEq
          refine ⟨coherentZ, ?_, complete, fun node replaces => absurd replaces (noReplacement node)⟩
          rw [driveEq, ← quiet.drive]
          exact replaced_of_added added
        · intro answer
          cases answer with
          | ok fresh => exact ⟨fresh, rfl⟩
          | error e => exact ⟨_, rfl⟩
      · rintro e w₃ ⟨rfl, cause⟩
        dsimp only [restoreOverwrite]
        rw [ensures_bind, ensures_pure, ensures_bind, ensures_invalidate, ensures_fail]
        constructor
        · exact coherent_without (coherent_changed_self quiet.coherent) (List.nil_subset _)
        · exact .inl ⟨quiet.drive, safe⟩
        · exact fun _ => KeepsNodes.of_eq quiet.drive
        · exact fun notSafe => absurd safe notSafe
        · intro absent
          rcases cause with failing | tooShort | refused
          · rw [quiet.changes] at failing
            exact .inl failing
          · exact .inr (.inl tooShort)
          · refine .inr (.inr fun valid => refused ⟨valid, ?_, ?_⟩)
            · rw [quiet.drive]
              exact isFolder
            · rw [quiet.drive]
              exact absent
    · -- the old file is set aside
      dsimp only at tempEq oldEq
      subst tempEq oldEq
      have foundFront : w₁.drive.lookup front = some pnode :=
        aside.lookup_front.trans shows.found
      have replaces : Replaces env w front name node := by
        refine ⟨⟨old', w₂, located⟩, aside.found, aside.isFile, aside.letThrough, ?_⟩
        intro nonempty
        exact (Drive.relocateAt_ok (aside.renamed nonempty)).1.free
      have unique : ∀ other, Replaces env w front name other → other = node := by
        intro other otherReplaces
        have found := otherReplaces.found
        rw [aside.found] at found
        exact (Option.some.inj found).symm
      dsimp only
      rw [ensures_bind, ensures_attempt]
      apply (upload_ensures isUpload aside.coherent foundFront).mono
      · rintro _ w₃ ⟨complete, passing, d', rfl, added, coherentAfter⟩
        have foundAfter : (w₁.changed d').drive.lookup front = some pnode := by
          rw [show (w₁.changed d').drive = d' from rfl, added.lookup, if_neg (by simp)]
          exact foundFront
        dsimp only
        apply (cleanupOverwrite_ensures coherentAfter shows.id foundAfter parentFolder).bind
        · rintro _ z ⟨coherentZ, cleaned⟩
          have foundZ : z.drive.lookup front = some pnode := by
            rcases cleaned with same | ⟨_, removed⟩
            · rw [same]
              exact foundAfter
            · rw [removed.lookup, if_neg]
              · exact foundAfter
              · exact child_not_above
          apply finishes _ _ _ coherentZ foundZ
          · intro z' coherentZ' driveEq
            refine ⟨coherentZ', ?_, complete, ?_⟩
            · rw [driveEq]
              apply aside.replaced added
              rw [← sizeEq]
              exact cleaned
            · intro other _
              rw [← aside.changes]
              exact passing
          · intro answer
            cases answer with
            | ok fresh => exact ⟨fresh, rfl⟩
            | error e => exact ⟨_, rfl⟩
        · intro _ _ impossible
          exact impossible.elim
      · rintro e w₃ ⟨rfl, cause⟩
        have uploadFails : env.changeFails (w.changes + 1) ≠ none ∨ short := by
          rw [← aside.changes]
          rcases cause with failing | tooShort | refused
          · exact .inl failing
          · exact .inr tooShort
          · refine absurd ⟨?_, ⟨pnode, foundFront, parentFolder⟩, aside.lookup_old⟩ refused
            exact w.drive.namesValid _ _ aside.found name (by simp)
        have safeIff : Safe env w front name short ↔ Restorable env w node := by
          constructor
          · intro safe
            exact safe node replaces uploadFails
          · intro restorable other otherReplaces _
            rw [unique other otherReplaces]
            exact restorable
        dsimp only
        apply (restoreOverwrite_ensures aside sizeEq shows).bind
        · rintro _ z ⟨coherentZ, restored, lost⟩
          rw [ensures_bind, ensures_invalidate, ensures_fail]
          constructor
          · exact coherent_without coherentZ (List.Subset.refl _)
          · by_cases restorable : Restorable env w node
            · exact .inl ⟨restored restorable, safeIff.mpr restorable⟩
            · refine .inr ⟨?_, mt safeIff.mp restorable⟩
              rw [show (z.without [parent.id]).drive = z.drive from rfl, lost restorable]
              exact aside.lookup_old
          · intro nonempty
            by_cases restorable : Restorable env w node
            · exact KeepsNodes.of_eq (restored restorable)
            · rw [show (z.without [parent.id]).drive = z.drive from rfl, lost restorable]
              exact aside.keepsNodes (nonempty node aside.found)
          · intro notSafe empty
            rw [show (z.without [parent.id]).drive = z.drive from rfl,
              lost (mt safeIff.mpr notSafe)]
            exact aside.removed (empty node aside.found)
          · intro absent
            rw [aside.found] at absent
            contradiction
        · intro _ _ impossible
          exact impossible.elim
  · rintro e w₁ ⟨driveEq, coherent₁, old, node, w₂, located, found, blocked⟩
    have safe : Safe env w front name short := by
      intro other replaces _
      have same := replaces.found
      rw [found] at same
      cases same
      obtain ⟨nonempty, immovable⟩ := blocked replaces.isFile replaces.letThrough
      refine absurd ⟨⟨?_, isFolder, replaces.free nonempty⟩, by simp, ?_⟩ immovable
      · exact validName_temp (w.drive.namesValid _ _ found name (by simp))
      · exact child_not_above
    refine ⟨coherent₁, .inl ⟨driveEq, safe⟩, fun _ => KeepsNodes.of_eq driveEq,
      fun notSafe => absurd safe notSafe, ?_⟩
    · intro absent
      rw [found] at absent
      contradiction

/-! ## Put -/

/-- The body ends before the announced size. -/
def TooShort (env : Env) (r : Reader) (size : Int) : Prop :=
  env.streaming = true ∧ r.data.length < size.toNat

/-- The reader and the size get as far as the upload. -/
def Accepted (env : Env) (r : Reader) (size : Int) : Prop :=
  if env.streaming then 0 ≤ size else r.broken = none

/-- The bytes that are uploaded. -/
def payload (env : Env) (r : Reader) (size : Int) : GoString :=
  if env.streaming then r.data.take size.toNat else r.data

/-- `Put` finds a file at its destination and sets it aside. -/
structure PutReplaces (env : Env) (w : World) (p : List GoString) (r : Reader) (size : Int)
    (node : Node) : Prop where
  located : ∃ parent w₁ old w₂, resolveParent env p w = (.ok parent, w₁) ∧
    stat env p w₁ = (.ok old, w₂)
  accepted : Accepted env r size
  found : w.drive.lookup p = some node
  isFile : node.isDir = false
  letThrough : env.changeFails w.changes = none
  free : node.size ≠ 0 →
    w.drive.lookup (p.dropLast ++ [p.getLast?.getD [] ++ tempSuffix]) = none

/-- Whenever `Put` sets a file aside and its upload then fails, the file has
content, and neither the listing nor the renaming that bring it back fails. -/
def PutSafe (env : Env) (w : World) (p : List GoString) (r : Reader) (size : Int) : Prop :=
  ∀ node, PutReplaces env w p r size node →
    env.changeFails (w.changes + 1) ≠ none ∨ TooShort env r size → Restorable env w node

theorem putReplaces_iff {p : List GoString} {r : Reader} {size : Int} {parent : Entry × GoString}
    {w₁ : World} (pathEq : p = front ++ [name])
    (resolved : resolveParent env p w = (.ok parent, w₁)) (quiet : Quiet w w₁)
    (accepted : Accepted env r size) (node : Node) :
    PutReplaces env w p r size node ↔ Replaces env w₁ front name node := by
  subst pathEq
  constructor
  · rintro ⟨⟨_, _, old, w₂, resolved', located⟩, _, found, isFile, letThrough, free⟩
    rw [resolved] at resolved'
    cases resolved'
    refine ⟨⟨old, w₂, located⟩, ?_, isFile, ?_, ?_⟩
    · rw [quiet.drive]
      exact found
    · rw [quiet.changes]
      exact letThrough
    · rw [quiet.drive]
      simpa using free
  · rintro ⟨⟨old, w₂, located⟩, found, isFile, letThrough, free⟩
    rw [quiet.drive] at found free
    rw [quiet.changes] at letThrough
    exact ⟨⟨parent, w₁, old, w₂, resolved, located⟩, accepted, found, isFile, letThrough,
      by simpa using free⟩

/-- A failed `Put`: the drive is as it was exactly if the upload is safe, and
otherwise the old file is gone from its place. -/
structure PutError (env : Env) (w : World) (p : List GoString) (r : Reader) (size : Int)
    (w' : World) : Prop where
  coherent : Coherent w'
  outcome : w'.drive = w.drive ∧ PutSafe env w p r size ∨
    w'.drive.lookup p = none ∧ (∃ node, w.drive.lookup p = some node) ∧ ¬PutSafe env w p r size
  keeps : (∀ node, w.drive.lookup p = some node → node.size ≠ 0) → KeepsNodes w.drive w'.drive
  lost : ¬PutSafe env w p r size → (∀ node, w.drive.lookup p = some node → node.size = 0) →
    Drive.Removed w.drive w'.drive p
  cause : w.drive.lookup p = none → p ≠ [] → ValidNames p → w.drive.IsFolder p.dropLast →
    Accepted env r size → ¬TooShort env r size →
    (∃ reads message, env.readFails w.changes reads = some message) ∨
      env.changeFails w.changes ≠ none

theorem put_ensures (coherent : Coherent w) (p : List GoString) (r : Reader)
    (size modTime createTime : Int) :
    Ensures (put env p r size modTime createTime) w
      (fun _ w' => Coherent w' ∧ (∃ front name, p = front ++ [name] ∧
          Replaced w.drive w'.drive front name (payload env r size) modTime createTime) ∧
        Accepted env r size ∧ ¬TooShort env r size ∧
        ∀ node, PutReplaces env w p r size node → env.changeFails (w.changes + 1) = none)
      fun _ w' => PutError env w p r size w' := by
  have refused : ∀ w', Quiet w w' → (¬∃ node, PutReplaces env w p r size node) →
      (w.drive.lookup p = none → p ≠ [] → ValidNames p → w.drive.IsFolder p.dropLast →
        Accepted env r size → ¬TooShort env r size →
        (∃ reads message, env.readFails w.changes reads = some message) ∨
          env.changeFails w.changes ≠ none) → PutError env w p r size w' := by
    intro w' quiet noReplacement cause
    have safe : PutSafe env w p r size := fun node replaces =>
      absurd ⟨node, replaces⟩ noReplacement
    exact ⟨quiet.coherent, .inl ⟨quiet.drive, safe⟩, fun _ => KeepsNodes.of_eq quiet.drive,
      fun notSafe => absurd safe notSafe, cause⟩
  unfold put
  apply (resolveParent_ensures coherent p).result.bind
  · rintro ⟨parent, name⟩ w₁ ⟨⟨quiet, front, pnode, pathEq, shows, isFolder⟩, resolved⟩
    dsimp only at pathEq shows
    have replacesIff := @putReplaces_iff env w front name p r size _ w₁ pathEq resolved quiet
    have shows₁ : Shows w₁.drive front parent pnode := quiet.drive ▸ shows
    have isFolder₁ : w₁.drive.IsFolder front := quiet.drive ▸ isFolder
    -- what both branches conclude from `replaceFile_ensures`
    have conclude : Accepted env r size → ∀ (call : Int → Drive → Except DriveError Drive) reported,
        UploadCall call parent.id name (payload env r size) modTime createTime
          (TooShort env r size) →
        Ensures (replaceFile env p parent name (changeCall env call) reported modTime createTime)
          w₁
          (fun _ w' => Coherent w' ∧ (∃ front name, p = front ++ [name] ∧
              Replaced w.drive w'.drive front name (payload env r size) modTime createTime) ∧
            Accepted env r size ∧ ¬TooShort env r size ∧
            ∀ node, PutReplaces env w p r size node → env.changeFails (w.changes + 1) = none)
          fun _ w' => PutError env w p r size w' := by
      intro accepted call reported isUpload
      have safeIff : Safe env w₁ front name (TooShort env r size) ↔ PutSafe env w p r size := by
        unfold Safe PutSafe
        simp only [replacesIff accepted, quiet.changes]
        constructor
        · intro safe node replaces fails
          have restorable := safe node replaces fails
          refine ⟨restorable.nonempty, ?_, ?_⟩
          · rw [← quiet.changes]
            exact restorable.listed
          · rw [← quiet.changes]
            exact restorable.renamed
        · intro safe node replaces fails
          have restorable := safe node replaces fails
          refine ⟨restorable.nonempty, ?_, ?_⟩
          · rw [quiet.changes]
            exact restorable.listed
          · rw [quiet.changes]
            exact restorable.renamed
      rw [pathEq]
      apply (replaceFile_ensures quiet.coherent shows₁ isFolder₁ isUpload).mono
      · rintro _ w' ⟨coherent', replaced, complete, passes⟩
        refine ⟨coherent', ⟨front, name, rfl, quiet.drive ▸ replaced⟩, accepted, complete, ?_⟩
        intro node replaces
        rw [← pathEq, replacesIff accepted] at replaces
        rw [← quiet.changes]
        exact passes node replaces
      · rintro e w' ⟨coherent', outcome, keeps, lost, cause⟩
        rw [← pathEq]
        rw [safeIff, ← pathEq, quiet.drive] at outcome
        rw [← pathEq, quiet.drive] at keeps
        rw [safeIff, ← pathEq, quiet.drive] at lost
        rw [← pathEq, quiet.drive, quiet.changes] at cause
        refine ⟨coherent', ?_, keeps, lost, ?_⟩
        · rcases outcome with kept | ⟨gone, notSafe⟩
          · exact .inl kept
          · refine .inr ⟨gone, ?_, notSafe⟩
            by_contra nothing
            apply notSafe
            intro node replaces
            exact absurd ⟨node, replaces.found⟩ nothing
        · intro absent _ valid _ _ complete
          rcases cause absent with failing | tooShort | invalid
          · exact .inr failing
          · exact absurd tooShort complete
          · exact absurd (valid name (by simp [pathEq])) invalid
    dsimp only
    split
    · rename_i streaming
      split
      · rename_i negative
        have notAccepted : ¬Accepted env r size := by
          rw [Accepted, if_pos streaming]
          exact not_le.mpr negative
        apply refused w₁ quiet
        · rintro ⟨node, replaces⟩
          exact notAccepted replaces.accepted
        · intro _ _ _ _ accepted
          exact absurd accepted notAccepted
      · rename_i nonnegative
        apply conclude
        · rw [Accepted, if_pos streaming]
          exact not_lt.mp nonnegative
        · constructor
          · intro tooShort _ d
            exact ⟨_, if_pos tooShort.2⟩
          · intro complete _ d
            rw [payload, if_pos streaming]
            exact if_neg fun short => complete ⟨streaming, short⟩
    · rename_i notStreaming
      unfold hashReaderToTemp
      split
      · rename_i message broken
        have notAccepted : ¬Accepted env r size := by
          rw [Accepted, if_neg notStreaming, broken]
          simp
        apply refused w₁ quiet
        · rintro ⟨node, replaces⟩
          exact notAccepted replaces.accepted
        · intro _ _ _ _ accepted
          exact absurd accepted notAccepted
      · rename_i intact
        apply conclude
        · rw [Accepted, if_neg notStreaming]
          exact intact
        · constructor
          · intro tooShort
            exact absurd tooShort.1 notStreaming
          · intro _ _ d
            rw [payload, if_neg notStreaming]
  · rintro e w₁ ⟨⟨quiet, cause⟩, failed⟩
    apply refused w₁ quiet
    · rintro ⟨node, replaces⟩
      obtain ⟨parent, w₂, _, _, resolved, _⟩ := replaces.located
      rw [failed] at resolved
      simp at resolved
    · intro _ nonroot _ isFolder _ _
      rcases cause with ⟨reads, message, _, failing, _⟩ | noFolder | isRoot
      · exact .inl ⟨reads, message, failing⟩
      · exact absurd isFolder noFolder
      · exact absurd isRoot nonroot

/-- A failed `Put` leaves the listing of the folder as it was, the old entry
included, exactly if the upload is safe. -/
theorem put_keepsFolder_iff (env : Env) (w : Live) (p : List GoString) (r : Reader)
    (size modTime createTime : Int) :
    (∀ e w', put env p r size modTime createTime w.world = (.error e, w') →
        w'.drive.entries p.dropLast = w.world.drive.entries p.dropLast) ↔
      PutSafe env w.world p r size := by
  have spec := @put_ensures env w.world w.coherent p r size modTime createTime
  constructor
  · intro keeps node replaces uploadFails
    cases result : put env p r size modTime createTime w.world with
    | mk outcome w' =>
        cases outcome with
        | ok e =>
            obtain ⟨_, _, _, complete, passes⟩ := spec.ok result
            rcases uploadFails with failing | tooShort
            · exact absurd (passes node replaces) failing
            · exact absurd tooShort complete
        | error e =>
            rcases (spec.error result).outcome with ⟨_, safe⟩ | ⟨gone, _, _⟩
            · exact safe node replaces uploadFails
            · -- the old entry is not listed any more
              have same := keeps e w' result
              obtain ⟨parent, w₁, _, _, resolved, _⟩ := replaces.located
              obtain ⟨_, front, _, rfl, _⟩ := (resolveParent_ensures w.coherent p).ok resolved
              have listed : node.entry parent.2 ∈ w.world.drive.entries front :=
                Drive.mem_entries_iff.mpr ⟨node, replaces.found, rfl⟩
              rw [List.dropLast_concat] at same
              rw [← same, Drive.mem_entries_iff] at listed
              obtain ⟨other, found, _⟩ := listed
              rw [Node.entry, gone] at found
              contradiction
  · intro safe e w' result
    rcases (spec.error result).outcome with ⟨driveEq, _⟩ | ⟨_, _, notSafe⟩
    · rw [driveEq]
    · exact absurd safe notSafe

/-- The context is cancelled while the second version of a file is uploaded:
the file stays under its temporary name. -/
theorem put_cancelled_losesFile :
    ∃ (env : Env) (w : Live) (r : Reader),
      w.world.drive.entries [] = [⟨2, str "f", 1, 0, 0, false⟩] ∧
      (put env [str "f"] r 1 0 0 w.world).1 = .error (.other "context canceled") ∧
      (put env [str "f"] r 1 0 0 w.world).2.drive.entries [] =
        [⟨2, str "f.openlist_to_delete", 1, 0, 0, false⟩] := by
  refine ⟨Env.cancelledAfter 1, Live.fresh (Drive.single (str "f") [1] (by decide)), ⟨[2], none⟩,
    ?_, ?_, ?_⟩
  · decide
  · decide
  · decide

end RoundSync.Kernel
