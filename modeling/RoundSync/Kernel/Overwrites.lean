import RoundSync.Kernel.Copies

/-!
# Copies to a place that is taken

`Copy` removes what is at the destination and then copies to the free place.
If the destination contains the source, the source went with it; if the lookup
of the destination fails, a file is uploaded over what is there.
-/

namespace RoundSync.Kernel

open RoundSync.Text
open RoundSync.Tree
open RoundSync.Transition
open Effect

variable {env : Env} {w w' : World} {srcPath dstPath : List GoString} {depth : Int} {bound : Nat}
  {recur : List GoString → List GoString → Fs (Option Unit)}

theorem Drive.Removed.nonroot {d d' : Drive} {place : List GoString}
    (removed : Drive.Removed d d' place) : place ≠ [] := by
  rintro rfl
  obtain ⟨root, foundRoot, _⟩ := d'.rootNode
  have lookupEq := removed.lookup []
  rw [if_pos (List.prefix_refl _)] at lookupEq
  rw [show d'.tree.lookup [] = none from lookupEq] at foundRoot
  contradiction

/-- The parent of what is there is a folder. -/
theorem Drive.parent_isFolder {d : Drive} {place : List GoString} {node : Node}
    (found : d.lookup place = some node) (nonroot : place ≠ []) : d.IsFolder place.dropLast := by
  rw [← List.dropLast_concat_getLast nonroot] at found
  exact d.isFolder_of_below (List.cons_ne_nil _ _) found

/-- A copy of what went with the destination: it comes to an end only if source
and destination are one directory, and leaves that directory empty. -/
structure Swallowed (before cleared : Drive) (w' : World) (srcPath dstPath : List GoString)
    (depth : Int) (r : Option Unit) : Prop where
  coherent : Coherent w'
  grows : Grows cleared w'.drive dstPath
  finished : r = some ()
  alone : depth ≠ 0 → srcPath = dstPath ∧ before.IsFolder srcPath ∧
    ∀ rest, (w'.drive.lookup (dstPath ++ rest)).map Node.body = if rest = [] then some .dir else none

structure SwallowedStop (env : Env) (before cleared : Drive) (w' : World)
    (srcPath dstPath : List GoString) : Prop where
  coherent : Coherent w'
  grows : Grows cleared w'.drive dstPath
  cause : env.Reliable → srcPath = dstPath → ¬before.IsFolder srcPath

theorem copyEntry_swallowed {before : Drive} {front : List GoString} {name : GoString}
    {src dstParent : Entry} {pnode : Node} (coherent : Coherent w)
    (isFolderIff : before.IsFolder srcPath ↔ src.isDir = true)
    (foundParent : w.drive.lookup front = some pnode) (idEq : dstParent.id = pnode.id)
    (accepts : w.drive.Accepts front name) (above : front ++ [name] <+: srcPath) :
    Ensures (copyEntry env recur src srcPath (front ++ [name]) dstParent name depth) w
      (fun r w' => Swallowed before w.drive w' srcPath (front ++ [name]) depth r)
      fun _ w' => SwallowedStop env before w.drive w' srcPath (front ++ [name]) := by
  have gone : w.drive.lookup srcPath = none := w.drive.lookup_none_below accepts.free above
  cases kind : src.isDir with
  | true =>
      apply copyEntry_folder kind coherent foundParent idEq
      · intro _ w₁ now coherent₁ added
        have grows := added.grows accepts.free
        split
        · rename_i only
          rw [ensures_pure]
          exact ⟨coherent₁, grows, rfl, fun unlimited => absurd only unlimited⟩
        · apply (listPath_ensures coherent₁ srcPath).bind
          · rintro children w₂ ⟨quiet, ⟨node, found, _⟩, lists⟩
            have same : srcPath = front ++ [name] := by
              by_contra different
              have lookupEq := added.lookup srcPath
              rw [if_neg different, gone] at lookupEq
              rw [show w₁.drive.tree.lookup srcPath = none from lookupEq] at found
              contradiction
            have below : ∀ rest, rest ≠ [] → w₁.drive.lookup (front ++ [name] ++ rest) = none := by
              intro rest nonempty
              rw [added.lookup, if_neg (by simpa using nonempty)]
              exact w.drive.lookup_none_below accepts.free (List.prefix_append _ _)
            have noChildren : children = [] := by
              apply List.eq_nil_iff_forall_not_mem.mpr
              intro child member
              obtain ⟨childNode, foundChild, _⟩ := lists.mem.mp member
              rw [same, below _ (List.cons_ne_nil _ _)] at foundChild
              contradiction
            rw [noChildren, copyChildren, ensures_pure]
            refine ⟨quiet.coherent, quiet.drive ▸ grows, rfl, ?_⟩
            intro _
            refine ⟨same, isFolderIff.mpr kind, ?_⟩
            intro rest
            rw [quiet.drive]
            split
            · rename_i empty
              rw [empty, List.append_nil, added.lookup, if_pos rfl]
              rfl
            · rename_i nonempty
              rw [below rest nonempty]
              rfl
          · rintro e w₂ ⟨quiet, injected | noFolder⟩
            · refine ⟨quiet.coherent, quiet.drive ▸ grows, ?_⟩
              intro reliable
              exact absurd injected reliable.not_injected
            · refine ⟨quiet.coherent, quiet.drive ▸ grows, ?_⟩
              rintro _ rfl
              refine absurd ⟨⟨w.drive.nextId, .dir, now, now⟩, ?_, rfl⟩ noFolder
              exact (added.lookup _).trans (if_pos rfl)
      · intro e w' coherent' driveEq refused
        refine ⟨coherent', Grows.of_eq driveEq, ?_⟩
        intro reliable
        exact absurd accepts (refused reliable)
  | false =>
      have notFolder : ¬before.IsFolder srcPath := by
        rw [isFolderIff, kind]
        exact Bool.false_ne_true
      unfold copyEntry
      rw [kind, if_neg Bool.false_ne_true]
      apply (link_ensures coherent srcPath).bind
      · rintro link w₁ ⟨_, node, _, found, _⟩
        rw [gone] at found
        contradiction
      · rintro e w₁ ⟨quiet, _⟩
        exact ⟨quiet.coherent, Grows.of_eq quiet.drive, fun _ _ => notFolder⟩

/-! ## The whole copy -/

/-- A copy over something that ended or used up its bound. -/
inductive CopyOver (env : Env) (before : Drive) (w' : World) (srcPath dstPath : List GoString) (overwrite : Bool)
    (depth : Int) (bound : Nat) (r : Option Unit) : Prop where
  | cleared (allowed : overwrite = true) (drive : Drive)
      (removed : Drive.Removed before drive dstPath) (notAbove : ¬dstPath <+: srcPath)
      (done : CopyDone drive w' srcPath dstPath depth bound r)
  | swallowed (allowed : overwrite = true) (drive : Drive)
      (removed : Drive.Removed before drive dstPath) (above : dstPath <+: srcPath)
      (done : Swallowed before drive w' srcPath dstPath depth r)
  | uploaded (unreliable : ¬env.Reliable) (coherent : Coherent w') (finished : r = some ()) (front : List GoString)
      (name data : GoString) (modTime createTime : Int) (pathEq : dstPath = front ++ [name])
      (source : ∃ node, before.lookup srcPath = some node ∧ node.body = .file data)
      (replaced : Replaced before w'.drive front name data modTime createTime)

/-- A copy over something that failed. -/
inductive CopyOverStop (env : Env) (before : Drive) (w' : World) (srcPath dstPath : List GoString)
    (overwrite : Bool) : Prop where
  | refused (coherent : Coherent w') (driveEq : w'.drive = before)
      (cause : env.Reliable → (∃ node, before.lookup srcPath = some node) → dstPath ≠ [] →
        overwrite = false)
  | cleared (allowed : overwrite = true) (source : ∃ node, before.lookup srcPath = some node)
      (drive : Drive) (removed : Drive.Removed before drive dstPath)
      (notAbove : ¬dstPath <+: srcPath) (stop : CopyStop env drive w' srcPath dstPath)
  | swallowed (allowed : overwrite = true) (source : ∃ node, before.lookup srcPath = some node)
      (drive : Drive) (removed : Drive.Removed before drive dstPath) (above : dstPath <+: srcPath)
      (stop : SwallowedStop env before drive w' srcPath dstPath)
  | uploading (unreliable : ¬env.Reliable)
      (source : ∃ node, before.lookup srcPath = some node ∧ node.isDir = false)
      (stop : FileStop env before w' dstPath)

section

variable {front : List GoString} {name : GoString} {src dstParent : Entry} {snode pnode : Node}

/-- The last steps when the lookup of the destination failed. -/
theorem copyEntry_uploading {dnode : Node} {overwrite : Bool} (unreliable : ¬env.Reliable)
    (coherent : Coherent w) (shows : Shows w.drive srcPath src snode)
    (showsParent : Shows w.drive front dstParent pnode)
    (taken : w.drive.lookup (front ++ [name]) = some dnode) :
    Ensures (copyEntry env recur src srcPath (front ++ [name]) dstParent name depth) w
      (fun r w' => CopyOver env w.drive w' srcPath (front ++ [name]) overwrite depth bound r)
      fun _ w' => CopyOverStop env w.drive w' srcPath (front ++ [name]) overwrite := by
  cases kind : src.isDir with
  | true =>
      apply copyEntry_folder kind coherent showsParent.found showsParent.id
      · intro accepts
        have free := accepts.free
        rw [taken] at free
        contradiction
      · intro e w' coherent' driveEq _
        exact .refused coherent' driveEq fun reliable => absurd reliable unreliable
  | false =>
      have isFile : snode.isDir = false := shows.isDir.symm.trans kind
      obtain ⟨data, bodyEq⟩ := Node.isDir_eq_false_iff.mp isFile
      unfold copyEntry
      rw [kind, if_neg Bool.false_ne_true]
      apply (copyFile_ensures coherent shows.found bodyEq
        (shows.size.trans (Node.size_eq bodyEq))).mono
      · rintro r w' ⟨finished, coherent', front', name', pathEq, replaced⟩
        exact .uploaded unreliable coherent' finished front' name' data _ _ pathEq
          ⟨snode, shows.found, bodyEq⟩ replaced
      · rintro e w' stop
        exact .uploading unreliable ⟨snode, shows.found, isFile⟩ stop

/-- The last steps after the destination was removed. -/
theorem copyEntry_cleared {u : World} {dnode : Node}
    (copies : CopiesTo env recur (depth - 1) bound) (coherent : Coherent u)
    (shows : Shows w.drive srcPath src snode) (showsParent : Shows w.drive front dstParent pnode)
    (taken : w.drive.lookup (front ++ [name]) = some dnode)
    (removed : Drive.Removed w.drive u.drive (front ++ [name])) :
    Ensures (copyEntry env recur src srcPath (front ++ [name]) dstParent name depth) u
      (fun r w' => CopyOver env w.drive w' srcPath (front ++ [name]) true depth (bound + 1) r)
      fun _ w' => CopyOverStop env w.drive w' srcPath (front ++ [name]) true := by
  have source : ∃ node, w.drive.lookup srcPath = some node := ⟨snode, shows.found⟩
  have foundParent : u.drive.lookup front = some pnode := by
    rw [removed.lookup, if_neg child_not_above]
    exact showsParent.found
  have free : u.drive.lookup (front ++ [name]) = none := by
    rw [removed.lookup, if_pos (List.prefix_refl _)]
  have isParent : u.drive.IsFolder front := by
    obtain ⟨node, found, isFolder⟩ := w.drive.isFolder_of_below (List.cons_ne_nil name []) taken
    rw [show w.drive.tree.lookup front = some pnode from showsParent.found] at found
    cases found
    exact ⟨pnode, foundParent, isFolder⟩
  by_cases above : front ++ [name] <+: srcPath
  · have accepts : u.drive.Accepts front name :=
      ⟨w.drive.namesValid _ _ taken name (by simp), isParent, free⟩
    apply (copyEntry_swallowed coherent shows.isFolder_iff foundParent showsParent.id accepts
      above).mono
    · rintro r w' done
      exact .swallowed rfl u.drive removed above done
    · rintro e w' stop
      exact .swallowed rfl source u.drive removed above stop
  · have found : u.drive.lookup srcPath = some snode := by
      rw [removed.lookup, if_neg above]
      exact shows.found
    apply (copyEntry_ensures copies coherent found shows.isDir shows.size foundParent
      showsParent.id isParent free).mono
    · rintro r w' done
      exact .cleared rfl u.drive removed above done
    · rintro e w' stop
      exact .cleared rfl source u.drive removed above stop

end

/-- A copy to a place that is taken. -/
theorem copy_taken_ensures {dnode : Node} (coherent : Coherent w)
    (taken : w.drive.lookup dstPath = some dnode) (overwrite : Bool) :
    Ensures (copy env (bound + 1) srcPath dstPath overwrite depth) w
      (fun r w' => CopyOver env w.drive w' srcPath dstPath overwrite depth (bound + 1) r)
      fun _ w' => CopyOverStop env w.drive w' srcPath dstPath overwrite := by
  have copies : CopiesTo env (fun srcPath dstPath => copy env bound srcPath dstPath true
      (depth - 1)) (depth - 1) bound := by
    intro w srcPath dstPath coherent free
    exact copy_free_ensures coherent free true
  have refused : ∀ w', Quiet w w' → (env.Reliable → (∃ node, w.drive.lookup srcPath = some node) →
      dstPath ≠ [] → overwrite = false) → CopyOverStop env w.drive w' srcPath dstPath overwrite :=
    fun w' quiet cause => .refused quiet.coherent quiet.drive cause
  rw [copy]
  apply (stat_ensures coherent srcPath).bind
  · rintro src w₁ ⟨quiet₁, snode, shows⟩
    apply (resolveParent_ensures quiet₁.coherent dstPath).bind
    · rintro ⟨dstParent, name⟩ w₂ ⟨quiet₂, front, pnode, rfl, showsParent, _⟩
      dsimp only at showsParent taken refused
      rw [quiet₁.drive] at showsParent
      have quiet₁₂ := quiet₁.trans quiet₂
      dsimp only
      rw [ensures_bind, ensures_attempt]
      apply (stat_ensures quiet₂.coherent (front ++ [name])).mono
      · rintro existing w₃ ⟨quiet₃, node, showsDst⟩
        have quiet := quiet₁₂.trans quiet₃
        rw [quiet₁₂.drive, ← quiet.drive] at showsDst
        dsimp only
        split
        · rename_i forbidden
          apply refused w₃ quiet
          intro _ _ _
          simpa using forbidden
        · rename_i allowed
          have isAllowed : overwrite = true := by simpa using allowed
          subst isAllowed
          apply (delete_ensures quiet.coherent (quiet.drive ▸ showsParent) showsDst).bind
          · rintro _ _ ⟨_, d', rfl, removed, coherent'⟩
            rw [quiet.drive] at removed
            rw [ensures_bind, ensures_invalidate]
            exact copyEntry_cleared copies coherent' shows showsParent taken removed
          · rintro _ _ ⟨failing, rfl⟩
            exact .refused (coherent_changed_self quiet.coherent) quiet.drive fun reliable =>
              absurd (reliable.changes _) failing
      · rintro e w₃ ⟨quiet₃, cause⟩
        have quiet := quiet₁₂.trans quiet₃
        have unreliable : ¬env.Reliable := by
          intro reliable
          rcases cause with injected | absent
          · exact reliable.not_injected injected
          · rw [quiet₁₂.drive, taken] at absent
            contradiction
        rw [← quiet.drive] at shows showsParent taken ⊢
        exact copyEntry_uploading unreliable quiet.coherent shows showsParent taken
    · rintro e w₂ ⟨quiet₂, injected | noFolder | isRoot⟩
      · apply refused w₂ (quiet₁.trans quiet₂)
        exact fun reliable => absurd injected reliable.not_injected
      · apply refused w₂ (quiet₁.trans quiet₂)
        rintro _ _ nonroot
        rw [← List.dropLast_concat_getLast nonroot] at taken
        rw [quiet₁.drive] at noFolder
        exact absurd (w.drive.isFolder_of_below (List.cons_ne_nil _ _) taken) noFolder
      · apply refused w₂ (quiet₁.trans quiet₂)
        exact fun _ _ nonroot => absurd isRoot nonroot
  · rintro e w₁ ⟨quiet, injected | absent⟩
    · apply refused w₁ quiet
      exact fun reliable => absurd injected reliable.not_injected
    · apply refused w₁ quiet
      rintro _ ⟨node, found⟩
      rw [absent] at found
      contradiction

end RoundSync.Kernel
