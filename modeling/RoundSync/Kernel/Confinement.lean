import RoundSync.Kernel.Copies

/-!
# What the operations leave alone

Whatever calls fail, an operation of the file system changes nothing outside the
subtrees of its targets.  New nodes come only there and at the places it leaves
something behind: a file that was set aside, or one that was moved and not yet
renamed.
-/

namespace RoundSync.Kernel

open RoundSync.Text
open RoundSync.Transition
open RoundSync.Tree
open Effect

/-- Nodes outside the targets stay where they are, and there are no new ones
outside the targets and leftovers. -/
structure Confined (before after : Drive) (targets leftovers : List (List GoString)) : Prop where
  keeps : ∀ place node, (∀ target ∈ targets, ¬target <+: place) →
    before.lookup place = some node → after.lookup place = some node
  fresh : ∀ place node, (∀ root ∈ targets ++ leftovers, ¬root <+: place) →
    after.lookup place = some node → before.lookup place = some node

/-! ## Changes of the drive -/

namespace Confined

variable {a b c : Drive} {targets leftovers : List (List GoString)}

theorem of_eq (same : b = a) : Confined a b targets leftovers := by
  subst same
  exact ⟨fun _ _ _ found => found, fun _ _ _ found => found⟩

theorem trans (first : Confined a b targets leftovers) (second : Confined b c targets leftovers) :
    Confined a c targets leftovers := by
  constructor
  · intro place node outside found
    exact second.keeps place node outside (first.keeps place node outside found)
  · intro place node outside found
    exact first.fresh place node outside (second.fresh place node outside found)

/-- More targets and leftovers, or ones further up. -/
theorem mono (confined : Confined a b targets leftovers)
    {targets' leftovers' : List (List GoString)}
    (wider : ∀ target ∈ targets, ∃ target' ∈ targets', target' <+: target)
    (more : ∀ leftover ∈ leftovers, ∃ root ∈ targets' ++ leftovers', root <+: leftover) :
    Confined a b targets' leftovers' := by
  constructor
  · intro place node outside found
    apply confined.keeps place node _ found
    intro target member above
    obtain ⟨target', member', above'⟩ := wider target member
    exact outside target' member' (above'.trans above)
  · intro place node outside found
    apply confined.fresh place node _ found
    intro root member above
    rcases List.mem_append.mp member with isTarget | isLeftover
    · obtain ⟨target', member', above'⟩ := wider root isTarget
      exact outside target' (List.mem_append_left _ member') (above'.trans above)
    · obtain ⟨root', member', above'⟩ := more root isLeftover
      exact outside root' member' (above'.trans above)

theorem mono_subset (confined : Confined a b targets leftovers)
    {targets' leftovers' : List (List GoString)} (wider : targets ⊆ targets')
    (more : leftovers ⊆ leftovers') : Confined a b targets' leftovers' := by
  apply confined.mono
  · intro target member
    exact ⟨target, wider member, List.prefix_refl _⟩
  · intro leftover member
    exact ⟨leftover, List.mem_append_right _ (more member), List.prefix_refl _⟩

theorem of_added {place : List GoString} {name : GoString} {body : Body} {modTime createTime : Int}
    (added : Drive.Added a b place name body modTime createTime) :
    Confined a b [place ++ [name]] [] := by
  have same : ∀ other, (∀ root ∈ [place ++ [name]], ¬root <+: other) →
      b.lookup other = a.lookup other := by
    intro other outside
    rw [added.lookup, if_neg]
    rintro rfl
    exact outside _ List.mem_cons_self (List.prefix_refl _)
  constructor
  · intro other node outside found
    rw [same other outside, found]
  · intro other node outside found
    rw [← same other outside, found]

theorem of_removed {place : List GoString} (removed : Drive.Removed a b place) :
    Confined a b [place] [] := by
  have same : ∀ other, (∀ root ∈ [place], ¬root <+: other) → b.lookup other = a.lookup other := by
    intro other outside
    rw [removed.lookup, if_neg (outside place List.mem_cons_self)]
  constructor
  · intro other node outside found
    rw [same other outside, found]
  · intro other node outside found
    rw [← same other outside, found]

theorem of_relocated {source place : List GoString} {name : GoString}
    (free : a.lookup (place ++ [name]) = none) (relocated : Drive.Relocated a b source place name) :
    Confined a b [source] [place ++ [name]] := by
  constructor
  · intro other node outside found
    rw [relocated.other, if_neg (outside source List.mem_cons_self), found]
    intro above
    rw [a.lookup_none_below free above] at found
    contradiction
  · intro other node outside found
    rw [relocated.other, if_neg (outside source List.mem_cons_self)] at found
    · exact found
    · exact outside (place ++ [name]) (by simp)

end Confined

/-- The kept listings stay right, and nothing is changed outside the targets. -/
structure StaysWithin (w : World) (targets leftovers : List (List GoString)) (w' : World) :
    Prop where
  coherent : Coherent w'
  confined : Confined w.drive w'.drive targets leftovers

namespace StaysWithin

variable {w w₁ w' : World} {targets leftovers : List (List GoString)}

theorem refl (coherent : Coherent w) : StaysWithin w targets leftovers w :=
  ⟨coherent, Confined.of_eq rfl⟩

theorem of_quiet (quiet : Quiet w w') : StaysWithin w targets leftovers w' :=
  ⟨quiet.coherent, Confined.of_eq quiet.drive⟩

theorem trans (first : StaysWithin w targets leftovers w₁)
    (rest : StaysWithin w₁ targets leftovers w') : StaysWithin w targets leftovers w' :=
  ⟨rest.coherent, first.confined.trans rest.confined⟩

theorem after_quiet (quiet : Quiet w w₁) (rest : StaysWithin w₁ targets leftovers w') :
    StaysWithin w targets leftovers w' :=
  (of_quiet quiet).trans rest

end StaysWithin

variable {env : Env} {w : World} {front : List GoString} {name : GoString}

theorem Replaced.confined {before after : Drive} {data : GoString} {modTime createTime : Int}
    (replaced : Replaced before after front name data modTime createTime) :
    Confined before after [front ++ [name]] [front ++ [name ++ tempSuffix]] := by
  have different : ∀ other, (∀ root ∈ [front ++ [name]], ¬root <+: other) →
      other ≠ front ++ [name] := by
    rintro _ outside rfl
    exact outside _ List.mem_cons_self (List.prefix_refl _)
  constructor
  · intro other node outside found
    rcases replaced.others other (different other outside) with same | ⟨_, absent, _⟩
    · rw [same, found]
    · rw [absent] at found
      contradiction
  · intro other node outside found
    rcases replaced.others other (different other fun root member =>
      outside root (List.mem_append_left _ member)) with same | ⟨rfl, _⟩
    · rw [← same, found]
    · exact absurd (List.prefix_refl _) (outside _ (by simp))

theorem SetAside.confined {w' : World} {node : Node} (aside : SetAside env w w' front name node) :
    Confined w.drive w'.drive [front ++ [name]] [front ++ [name ++ tempSuffix]] := by
  by_cases empty : node.size = 0
  · exact (Confined.of_removed (aside.removed empty)).mono (by simp) (by simp)
  · obtain ⟨movable, relocated⟩ := Drive.relocateAt_ok (aside.renamed empty)
    exact Confined.of_relocated movable.free relocated

/-! ## Uploads -/

/-- What a call that uploads a file answers with. -/
def AnswersWith (e : Entry) (d : Drive) (place : List GoString) (name : GoString)
    (size modTime createTime : Int) : Prop :=
  (∃ node, d.lookup (place ++ [name]) = some node ∧ e = node.entry name) ∨
    e = ⟨0, name, size, modTime, createTime, false⟩

/-- A failed replacement affects only the old name and the temporary one. -/
theorem replaceFile_confined {call : Int → Drive → Except DriveError Drive} {parent : Entry}
    {pnode : Node} {data : GoString} {size modTime createTime : Int} {short : Prop}
    (coherent : Coherent w) (shows : Shows w.drive front parent pnode)
    (isFolder : w.drive.IsFolder front)
    (isUpload : UploadCall call parent.id name data modTime createTime short) :
    Ensures
      (replaceFile env (front ++ [name]) parent name (changeCall env call) size modTime createTime)
      w
      (fun e w' => AnswersWith e w'.drive front name size modTime createTime)
      fun _ w' => Confined w.drive w'.drive [front ++ [name]] [front ++ [name ++ tempSuffix]] := by
  have parentFolder : pnode.isDir = true := by
    rw [← shows.isDir, ← shows.isFolder_iff]
    exact isFolder
  rw [shows.id] at isUpload
  -- the answer is what the folder lists afterwards, or else what was sent
  have finding : ∀ z : World, CoherentExcept [pnode.id] z → z.drive.lookup front = some pnode →
      Ensures (findByName env parent.id name) (z.without [parent.id])
        (fun fresh z' => AnswersWith fresh z'.drive front name size modTime createTime)
        fun _ _ => True := by
    intro z coherentZ foundZ
    rw [shows.id]
    apply (@findByName_ensures env (z.without [pnode.id]) [] front pnode
      (coherent_without coherentZ (List.Subset.refl _)) (List.nil_subset _) foundZ parentFolder
      name).mono
    · rintro fresh z' ⟨quiet, _, child, foundChild, rfl⟩
      exact .inl ⟨child, quiet.drive ▸ foundChild, rfl⟩
    · intro _ _ _
      trivial
  unfold replaceFile
  apply (prepareOverwrite_ensures coherent shows).bind
  · rintro ⟨old, tempName⟩ w₁ ⟨tempEq, ⟨oldEq, quiet, _⟩ | ⟨old', node, _, oldEq, _, sizeEq, aside⟩⟩
    · -- nothing is set aside
      dsimp only at tempEq oldEq
      subst tempEq oldEq
      have foundFront : w₁.drive.lookup front = some pnode := quiet.drive ▸ shows.found
      dsimp only
      rw [ensures_bind, ensures_attempt]
      apply (upload_ensures isUpload quiet.coherent foundFront).mono
      · rintro _ w₃ ⟨_, _, d', rfl, added, coherentAfter⟩
        dsimp only [cleanupOverwrite]
        have foundAfter : (w₁.changed d').drive.lookup front = some pnode := by
          rw [show (w₁.changed d').drive = d' from rfl, added.lookup, if_neg (by simp)]
          exact foundFront
        rw [ensures_bind, ensures_pure, ensures_bind, ensures_invalidate, ensures_bind,
          ensures_attempt]
        apply (finding _ coherentAfter foundAfter).mono
        · intro _ _ answer
          exact answer
        · intro _ _ _
          exact .inr rfl
      · rintro e w₃ ⟨rfl, _⟩
        dsimp only [restoreOverwrite]
        rw [ensures_bind, ensures_pure, ensures_bind, ensures_invalidate, ensures_fail]
        exact Confined.of_eq quiet.drive
    · -- the old file is set aside
      dsimp only at tempEq oldEq
      subst tempEq oldEq
      have foundFront : w₁.drive.lookup front = some pnode := aside.lookup_front.trans shows.found
      dsimp only
      rw [ensures_bind, ensures_attempt]
      apply (upload_ensures isUpload aside.coherent foundFront).mono
      · rintro _ w₃ ⟨_, _, d', rfl, added, coherentAfter⟩
        have foundAfter : (w₁.changed d').drive.lookup front = some pnode := by
          rw [show (w₁.changed d').drive = d' from rfl, added.lookup, if_neg (by simp)]
          exact foundFront
        dsimp only
        apply (cleanupOverwrite_ensures coherentAfter shows.id foundAfter parentFolder).bind
        · rintro _ z ⟨coherentZ, cleaned⟩
          have foundZ : z.drive.lookup front = some pnode := by
            rcases cleaned with same | ⟨_, removed⟩
            · rw [same]
              exact foundAfter
            · rw [removed.lookup, if_neg child_not_above]
              exact foundAfter
          rw [ensures_bind, ensures_invalidate, ensures_bind, ensures_attempt]
          apply (finding z coherentZ foundZ).mono
          · intro _ _ answer
            exact answer
          · intro _ _ _
            exact .inr rfl
        · intro _ _ impossible
          exact impossible.elim
      · rintro e w₃ ⟨rfl, _⟩
        dsimp only
        apply (restoreOverwrite_ensures aside sizeEq shows).bind
        · rintro _ z ⟨_, restored, lost⟩
          rw [ensures_bind, ensures_invalidate, ensures_fail,
            show (z.without [parent.id]).drive = z.drive from rfl]
          by_cases restorable : Restorable env w node
          · exact Confined.of_eq (restored restorable)
          · rw [lost restorable]
            exact aside.confined
        · intro _ _ impossible
          exact impossible.elim
  · rintro _ w₁ ⟨driveEq, _⟩
    exact Confined.of_eq driveEq

/-- Where `Put` sets a file aside. -/
def tempPath (p : List GoString) : List GoString :=
  p.dropLast ++ [p.getLast?.getD [] ++ tempSuffix]

/-- The file that `Put` reports is the one it has written. -/
structure Reported (e : Entry) (d : Drive) (p : List GoString) (data : GoString)
    (modTime createTime : Int) : Prop where
  file : ∃ id, d.lookup p = some ⟨id, .file data, modTime, createTime⟩
  size : e.size = data.length
  modTime : e.modTime = modTime

theorem reported_of_answers {e : Entry} {d before : Drive} {data : GoString}
    {size modTime createTime : Int} (sizeEq : size = data.length)
    (replaced : Replaced before d front name data modTime createTime)
    (answers : AnswersWith e d front name size modTime createTime) :
    Reported e d (front ++ [name]) data modTime createTime := by
  obtain ⟨id, _, file⟩ := replaced.file
  rcases answers with ⟨node, found, rfl⟩ | rfl
  · rw [file] at found
    cases found
    exact ⟨⟨id, file⟩, rfl, rfl⟩
  · exact ⟨⟨id, file⟩, sizeEq, rfl⟩

theorem put_confined (coherent : Coherent w) (p : List GoString) (r : Reader)
    (size modTime createTime : Int) :
    Ensures (put env p r size modTime createTime) w
      (fun e w' => StaysWithin w [p] [tempPath p] w' ∧
        Reported e w'.drive p (payload env r size) modTime createTime)
      fun _ => StaysWithin w [p] [tempPath p] := by
  unfold put
  apply (resolveParent_ensures coherent p).bind
  · rintro ⟨parent, name⟩ w₁ ⟨quiet, front, pnode, rfl, shows, isFolder⟩
    dsimp only at shows
    have shows₁ : Shows w₁.drive front parent pnode := quiet.drive ▸ shows
    have isFolder₁ : w₁.drive.IsFolder front := quiet.drive ▸ isFolder
    have tempEq : tempPath (front ++ [name]) = front ++ [name ++ tempSuffix] := by
      simp [tempPath]
    rw [tempEq]
    -- what both branches conclude
    have conclude : ∀ (call : Int → Drive → Except DriveError Drive) (reported : Int),
        (¬TooShort env r size → reported = (payload env r size).length) →
        UploadCall call parent.id name (payload env r size) modTime createTime
          (TooShort env r size) →
        Ensures (replaceFile env (front ++ [name]) parent name (changeCall env call) reported
          modTime createTime) w₁
          (fun e w' => StaysWithin w [front ++ [name]] [front ++ [name ++ tempSuffix]] w' ∧
            Reported e w'.drive (front ++ [name]) (payload env r size) modTime createTime)
          fun _ => StaysWithin w [front ++ [name]] [front ++ [name ++ tempSuffix]] := by
      intro call reported reportedEq isUpload
      apply ((replaceFile_ensures quiet.coherent shows₁ isFolder₁ isUpload).and
        (replaceFile_confined quiet.coherent shows₁ isFolder₁ isUpload)).mono
      · rintro e w' ⟨⟨coherent', replaced, complete, _⟩, answers⟩
        constructor
        · exact .after_quiet quiet ⟨coherent', replaced.confined⟩
        · exact reported_of_answers (reportedEq complete) replaced answers
      · rintro e w' ⟨stop, confined⟩
        exact .after_quiet quiet ⟨stop.coherent, confined⟩
    dsimp only
    split
    · rename_i streaming
      split
      · exact .of_quiet quiet
      · rename_i nonnegative
        apply conclude
        · intro complete
          have enough : size.toNat ≤ r.data.length :=
            not_lt.mp fun short => complete ⟨streaming, short⟩
          rw [payload, if_pos streaming, List.length_take, Nat.min_eq_left enough]
          exact (Int.toNat_of_nonneg (not_lt.mp nonnegative)).symm
        · constructor
          · intro tooShort _ d
            exact ⟨_, if_pos tooShort.2⟩
          · intro complete _ d
            rw [payload, if_pos streaming]
            exact if_neg fun short => complete ⟨streaming, short⟩
    · rename_i notStreaming
      unfold hashReaderToTemp
      split
      · exact .of_quiet quiet
      · apply conclude
        · intro _
          rw [payload, if_neg notStreaming]
        · constructor
          · intro tooShort
            exact absurd tooShort.1 notStreaming
          · intro _ _ d
            rw [payload, if_neg notStreaming]
  · rintro e w₁ ⟨quiet, _⟩
    exact .of_quiet quiet

/-! ## Directories and removals -/

theorem makeDir_confined (coherent : Coherent w) (p : List GoString) :
    Leaves (makeDir env p) w (StaysWithin w [p] []) := by
  apply (makeDir_ensures coherent p).mono
  · rintro _ w' ⟨coherent', front, name, _, rfl, added⟩
    exact ⟨coherent', Confined.of_added added⟩
  · rintro _ w' ⟨coherent', same⟩
    exact ⟨coherent', Confined.of_eq same⟩

theorem remove_confined (coherent : Coherent w) (p : List GoString) :
    Leaves (remove env p) w (StaysWithin w [p] []) := by
  apply (remove_ensures coherent p).mono
  · rintro _ w' ⟨coherent', _, removed⟩
    exact ⟨coherent', Confined.of_removed removed⟩
  · rintro _ w' ⟨coherent', same⟩
    exact ⟨coherent', Confined.of_eq same⟩

/-! ## Moves -/

/-- Where `Move` leaves a file that it cannot rename any more. -/
def passedPath (srcPath dstPath : List GoString) : List GoString :=
  dstPath.dropLast ++ [srcPath.getLast?.getD []]

/-- A node of a removed subtree is not found any more. -/
theorem Drive.Removed.locate_gone {d d' : Drive} {place below : List GoString} {node : Node}
    (removed : Drive.Removed d d' place) (found : d.lookup below = some node)
    (above : place <+: below) : ∃ e, d'.locate node.id = .error e := by
  cases located : d'.locate node.id with
  | error e => exact ⟨e, rfl⟩
  | ok other =>
      obtain ⟨foundOther, idEq⟩ := Drive.lookup_of_locate located
      rw [removed.lookup] at foundOther
      split at foundOther
      · contradiction
      · rename_i notBelow
        have same := d.idsUnique _ _ _ _ foundOther found idEq
        exact absurd (same ▸ above) notBelow

section

variable {sfront dfront : List GoString} {sname dname : GoString}
  {src srcParent dstParent : Entry} {snode spnode dpnode : Node}

theorem moveEntry_confined (coherent : Coherent w)
    (showsSrc : Shows w.drive (sfront ++ [sname]) src snode)
    (showsSrcParent : Shows w.drive sfront srcParent spnode)
    (showsDstParent : Shows w.drive dfront dstParent dpnode) (isFolder : w.drive.IsFolder dfront) :
    Leaves (moveEntry env src srcParent dstParent dname) w
      (StaysWithin w [sfront ++ [sname], dfront ++ [dname]] [dfront ++ [sname]]) := by
  apply (moveEntry_ensures coherent showsSrc showsSrcParent showsDstParent isFolder).mono
  · rintro _ w' ⟨coherent', completes, ⟨same, _⟩ | ⟨different, relocated⟩⟩
    · exact ⟨coherent', Confined.of_eq same⟩
    · have free := (completes.free different).1
      refine ⟨coherent', (Confined.of_relocated free relocated).mono ?_ ?_⟩
      · simp
      · simp
  · rintro _ w' ⟨coherent', _, same | ⟨free, relocated⟩⟩
    · exact ⟨coherent', Confined.of_eq same⟩
    · refine ⟨coherent', (Confined.of_relocated free relocated).mono ?_ ?_⟩
      · simp
      · simp

/-- The last steps when the destination has been removed, the source perhaps
with it. -/
theorem moveEntry_confined_after {u : World} {dnode : Node}
    (showsSrc : Shows w.drive (sfront ++ [sname]) src snode)
    (showsSrcParent : Shows w.drive sfront srcParent spnode)
    (showsDstParent : Shows w.drive dfront dstParent dpnode) (isFolder : w.drive.IsFolder dfront)
    (different : sfront ++ [sname] ≠ dfront ++ [dname])
    (foundDst : w.drive.lookup (dfront ++ [dname]) = some dnode) (coherent : Coherent u)
    (removed : Drive.Removed w.drive u.drive (dfront ++ [dname])) :
    Leaves (moveEntry env src srcParent dstParent dname) u
      (StaysWithin w [sfront ++ [sname], dfront ++ [dname]] [dfront ++ [sname]]) := by
  have cleared : StaysWithin w [sfront ++ [sname], dfront ++ [dname]] [dfront ++ [sname]] u :=
    ⟨coherent, (Confined.of_removed removed).mono (by simp) (by simp)⟩
  have showsIn : ∀ {place e node}, Shows w.drive place e node → ¬dfront ++ [dname] <+: place →
      Shows u.drive place e node := by
    intro place e node shows notBelow
    refine ⟨?_, shows.id, shows.isDir, shows.size, shows.name⟩
    rw [removed.lookup, if_neg notBelow]
    exact shows.found
  have showsDstParent' := showsIn showsDstParent child_not_above
  by_cases above : dfront ++ [dname] <+: sfront ++ [sname]
  · -- the source went with the destination
    have abovePar : dfront ++ [dname] <+: sfront := by
      rcases List.prefix_concat_iff.mp above with same | above
      · exact absurd same.symm different
      · exact above
    have apart : srcParent.id ≠ dstParent.id := by
      rw [ne_eq, showsSrcParent.id_eq_iff showsDstParent]
      rintro rfl
      exact child_not_above abovePar
    obtain ⟨e, gone⟩ := removed.locate_gone showsSrc.found above
    rw [← showsSrc.id] at gone
    apply (moveEntry_gone coherent gone apart).mono
    · intro _ _ impossible
      exact impossible.elim
    · rintro _ w' ⟨coherent', driveEq⟩
      exact ⟨coherent', driveEq ▸ cleared.confined⟩
  · have showsSrcParent' := showsIn showsSrcParent fun isPrefix =>
      above (isPrefix.trans (List.prefix_append _ _))
    have isFolder' : u.drive.IsFolder dfront := by
      rw [showsDstParent'.isFolder_iff, ← showsDstParent.isFolder_iff]
      exact isFolder
    apply (moveEntry_confined coherent (showsIn showsSrc above) showsSrcParent' showsDstParent'
      isFolder').mono
    exact fun _ rest => cleared.trans rest

end

theorem move_confined (coherent : Coherent w) (srcPath dstPath : List GoString)
    (overwrite : Bool) :
    Leaves (move env srcPath dstPath overwrite) w
      (StaysWithin w [srcPath, dstPath] [passedPath srcPath dstPath]) := by
  unfold move
  split
  · exact .refl coherent
  · apply (stat_ensures coherent srcPath).bind
    · rintro src w₁ ⟨quiet₁, snode, showsSrc⟩
      apply (resolveParent_ensures quiet₁.coherent srcPath).bind
      · rintro ⟨srcParent, sname⟩ w₂ ⟨quiet₂, sfront, spnode, rfl, showsSrcParent, _⟩
        dsimp only at showsSrcParent
        rw [quiet₁.drive] at showsSrcParent
        have quiet₁₂ := quiet₁.trans quiet₂
        dsimp only
        apply (resolveParent_ensures quiet₂.coherent dstPath).bind
        · rintro ⟨dstParent, dname⟩ w₃ ⟨quiet₃, dfront, dpnode, rfl, showsDstParent, isFolder⟩
          dsimp only at showsDstParent
          rw [quiet₁₂.drive] at showsDstParent isFolder
          have quiet₁₃ := quiet₁₂.trans quiet₃
          have passedEq : passedPath (sfront ++ [sname]) (dfront ++ [dname]) = dfront ++ [sname] := by
            simp [passedPath]
          rw [passedEq]
          dsimp only
          rw [ensures_bind, ensures_attempt]
          apply (stat_ensures quiet₃.coherent _).mono
          · rintro existing w₄ ⟨quiet₄, dnode, showsDst⟩
            rw [quiet₁₃.drive] at showsDst
            have quiet := quiet₁₃.trans quiet₄
            dsimp only
            split
            · exact .of_quiet quiet
            · split
              · exact .of_quiet quiet
              · rename_i differentIds
                have different : sfront ++ [sname] ≠ dfront ++ [dname] := fun same =>
                  differentIds ((showsDst.id_eq_iff showsSrc).mpr same.symm)
                have showsDst₄ : Shows w₄.drive (dfront ++ [dname]) existing dnode :=
                  quiet.drive ▸ showsDst
                have showsDstParent₄ : Shows w₄.drive dfront dstParent dpnode :=
                  quiet.drive ▸ showsDstParent
                apply (delete_ensures quiet.coherent showsDstParent₄ showsDst₄).bind
                · rintro _ _ ⟨_, d', rfl, removed, coherent'⟩
                  rw [quiet.drive] at removed
                  rw [ensures_bind, ensures_invalidate]
                  exact moveEntry_confined_after showsSrc showsSrcParent showsDstParent isFolder
                    different showsDst.found coherent' removed
                · rintro _ _ ⟨_, rfl⟩
                  exact ⟨coherent_changed_self quiet.coherent, Confined.of_eq quiet.drive⟩
          · rintro e w₄ ⟨quiet₄, _⟩
            have quiet := quiet₁₃.trans quiet₄
            rw [← quiet.drive] at showsSrc showsSrcParent showsDstParent isFolder
            apply (moveEntry_confined quiet.coherent showsSrc showsSrcParent showsDstParent
              isFolder).mono
            exact fun _ rest => .after_quiet quiet rest
        · rintro e w₃ ⟨quiet₃, _⟩
          have quiet := quiet₁₂.trans quiet₃
          exact .of_quiet quiet
      · rintro e w₂ ⟨quiet₂, _⟩
        have quiet := quiet₁.trans quiet₂
        exact .of_quiet quiet
    · rintro e w₁ ⟨quiet₁, _⟩
      exact .of_quiet quiet₁

/-! ## Copies -/

theorem prefix_tempPath_child (dstPath : List GoString) (name : GoString) :
    dstPath <+: tempPath (dstPath ++ [name]) := by
  simp [tempPath]

/-- Whatever a call copies, it stays within its destination. -/
def CopiesWithin (recur : List GoString → List GoString → Fs (Option Unit)) : Prop :=
  ∀ (w : World) (srcPath dstPath : List GoString), Coherent w →
    Leaves (recur srcPath dstPath) w (StaysWithin w [dstPath] [tempPath dstPath])

variable {recur : List GoString → List GoString → Fs (Option Unit)} {srcPath dstPath : List GoString}

theorem copyChildren_confined (copies : CopiesWithin recur) (children : List Entry)
    (coherent : Coherent w) :
    Leaves (copyChildren recur srcPath dstPath children) w (StaysWithin w [dstPath] []) := by
  induction children generalizing w with
  | nil => exact .refl coherent
  | cons child children ih =>
      have within : ∀ {w' : World}, StaysWithin w [dstPath ++ [child.name]]
          [tempPath (dstPath ++ [child.name])] w' → StaysWithin w [dstPath] [] w' := by
        rintro w' ⟨coherent', confined⟩
        refine ⟨coherent', confined.mono ?_ ?_⟩
        · simp
        · simp [prefix_tempPath_child]
      unfold copyChildren
      apply (copies w (srcPath ++ [child.name]) (dstPath ++ [child.name]) coherent).bind
      · rintro (_ | _) w₁ stays
        · exact within stays
        · exact (ih stays.coherent).mono fun _ rest => (within stays).trans rest
      · exact fun _ stays => within stays

theorem copyFile_confined {src : Entry} (coherent : Coherent w) :
    Leaves (do
        let (link, _) ← link env srcPath
        let body ← fetch env link
        let _ ← put env dstPath body src.size src.modTime src.createTime
        pure (some ())) w (StaysWithin w [dstPath] [tempPath dstPath]) := by
  apply (link_ensures coherent srcPath).bind
  · rintro ⟨link, _⟩ w₁ ⟨quiet₁, node, data, found, isFile, idEq⟩
    apply (fetch_ensures quiet₁.coherent (quiet₁.drive ▸ found) isFile idEq).bind
    · rintro r w₂ ⟨quiet₂, _⟩
      have quiet := quiet₁.trans quiet₂
      apply (put_confined quiet.coherent dstPath r src.size src.modTime src.createTime).bind
      · exact fun _ _ done => .after_quiet quiet done.1
      · exact fun _ _ stays => .after_quiet quiet stays
    · rintro _ w₂ ⟨quiet₂, _⟩
      have quiet := quiet₁.trans quiet₂
      exact .of_quiet quiet
  · rintro _ w₁ ⟨quiet₁, _⟩
    exact .of_quiet quiet₁

theorem copyEntry_confined {src dstParent : Entry} {pnode : Node} {depth : Int}
    (copies : CopiesWithin recur) (coherent : Coherent w)
    (found : w.drive.lookup front = some pnode) (idEq : dstParent.id = pnode.id) :
    Leaves (copyEntry env recur src srcPath (front ++ [name]) dstParent name depth) w
      (StaysWithin w [front ++ [name]] [tempPath (front ++ [name])]) := by
  unfold copyEntry
  split
  · have continues : ∀ z : World, Coherent (z.without [dstParent.id]) →
        Confined w.drive z.drive [front ++ [name]] [tempPath (front ++ [name])] →
        Leaves (do
          invalidate [dstParent.id]
          if depth = 0 then pure (some ())
          else
            let children ← listPath env srcPath
            copyChildren recur srcPath (front ++ [name]) children) z
          (StaysWithin w [front ++ [name]] [tempPath (front ++ [name])]) := by
      intro z coherentZ confined
      have stays : StaysWithin w [front ++ [name]] [tempPath (front ++ [name])]
          (z.without [dstParent.id]) := ⟨coherentZ, confined⟩
      unfold Leaves
      rw [ensures_bind, ensures_invalidate]
      split
      · exact stays
      · apply (listPath_ensures coherentZ srcPath).bind
        · rintro children w₁ ⟨quiet, _⟩
          apply (copyChildren_confined copies children quiet.coherent).mono
          rintro w' ⟨coherent', rest⟩
          exact stays.trans (.after_quiet quiet ⟨coherent', rest.mono (by simp) (by simp)⟩)
        · exact fun _ _ failed => stays.trans (.of_quiet failed.1)
    unfold Leaves
    rw [ensures_bind, ensures_attempt]
    apply (createFolder_ensures coherent found idEq).mono
    · rintro _ _ ⟨_, d', _, rfl, added, coherent'⟩
      exact continues _ coherent' ((Confined.of_added added).mono (by simp) (by simp))
    · rintro e _ ⟨rfl, supported, _⟩
      dsimp only
      rw [if_pos supported]
      exact ⟨coherent_changed_self coherent, Confined.of_eq rfl⟩
  · exact copyFile_confined coherent

/-- By induction on the bound of the copy. -/
theorem copy_confined (coherent : Coherent w) (bound : Nat) (srcPath dstPath : List GoString)
    (overwrite : Bool) (depth : Int) :
    Leaves (copy env bound srcPath dstPath overwrite depth) w
      (StaysWithin w [dstPath] [tempPath dstPath]) := by
  induction bound generalizing w srcPath dstPath overwrite depth with
  | zero => exact .refl coherent
  | succ bound ih =>
      have copies : CopiesWithin fun srcPath dstPath => copy env bound srcPath dstPath true
          (depth - 1) := fun w srcPath dstPath coherent => ih coherent srcPath dstPath true _
      unfold copy
      apply (stat_ensures coherent srcPath).bind
      · rintro src w₁ ⟨quiet₁, _⟩
        apply (resolveParent_ensures quiet₁.coherent dstPath).bind
        · rintro ⟨dstParent, name⟩ w₂ ⟨quiet₂, front, pnode, rfl, shows, _⟩
          dsimp only at shows
          have quiet₁₂ := quiet₁.trans quiet₂
          rw [quiet₁.drive] at shows
          dsimp only
          rw [ensures_bind, ensures_attempt]
          apply (stat_ensures quiet₂.coherent _).mono
          · rintro existing w₃ ⟨quiet₃, node, shown⟩
            have quiet := quiet₁₂.trans quiet₃
            rw [quiet₁₂.drive, ← quiet.drive] at shown
            rw [← quiet.drive] at shows
            dsimp only
            split
            · exact .of_quiet quiet
            · apply (delete_ensures quiet.coherent shows shown).bind
              · rintro _ _ ⟨_, d', rfl, removed, coherent'⟩
                have foundFront : d'.lookup front = some pnode := by
                  rw [removed.lookup, if_neg child_not_above]
                  exact shows.found
                have cleared : StaysWithin w₃ [front ++ [name]] [tempPath (front ++ [name])]
                    ((w₃.changed d').without [dstParent.id, existing.id]) :=
                  ⟨coherent', (Confined.of_removed removed).mono (by simp) (by simp)⟩
                rw [ensures_bind, ensures_invalidate]
                apply (copyEntry_confined copies coherent' foundFront shows.id).mono
                exact fun _ rest => .after_quiet quiet (cleared.trans rest)
              · rintro _ _ ⟨_, rfl⟩
                exact ⟨coherent_changed_self quiet.coherent, Confined.of_eq quiet.drive⟩
          · rintro e w₃ ⟨quiet₃, _⟩
            have quiet := quiet₁₂.trans quiet₃
            rw [← quiet.drive] at shows
            apply (copyEntry_confined copies quiet.coherent shows.found shows.id).mono
            exact fun _ rest => .after_quiet quiet rest
        · rintro _ w₂ ⟨quiet₂, _⟩
          have quiet := quiet₁.trans quiet₂
          exact .of_quiet quiet
      · rintro _ w₁ ⟨quiet₁, _⟩
        exact .of_quiet quiet₁

end RoundSync.Kernel
