import RoundSync.Kernel.Moves
import RoundSync.Kernel.Uploads

/-!
# Copies

`Copy` at a free destination: the drive only grows, below the destination and
with new ids.  The recursion is bounded; a copy that uses up its bound has gone
down that far in the source, unless the destination is below the source.
-/

namespace RoundSync.Kernel

open RoundSync.Text
open RoundSync.Tree
open RoundSync.Transition
open Effect

theorem not_above_append {ν : Type} {one two rest : List ν} (notAbove : ¬one <+: two)
    (notBelow : ¬two <+: one) : ¬one <+: two ++ rest := by
  intro isPrefix
  rcases List.prefix_or_prefix_of_prefix isPrefix (List.prefix_append two rest) with above | below
  · exact notAbove above
  · exact notBelow below

theorem sibling_above_append_iff {ν : Type} {place rest : List ν} {one two : ν} :
    place ++ [one] <+: place ++ [two] ++ rest ↔ one = two := by
  rw [List.append_assoc, List.prefix_append_right_inj, List.singleton_append, List.cons_prefix_cons]
  simp

theorem above_of_children {ν : Type} {one two : List ν} {name : ν}
    (isPrefix : one ++ [name] <+: two ++ [name]) : one <+: two := by
  rcases List.prefix_concat_iff.mp isPrefix with same | above
  · rw [(List.append_inj' same rfl).1]
  · exact (List.prefix_append _ _).trans above

/-! ## Growing -/

/-- Nothing is lost, and what is new has a new id and stands at a place or
below it. -/
structure Grows (before after : Drive) (place : List GoString) : Prop where
  keeps : ∀ other node, before.lookup other = some node → after.lookup other = some node
  fresh : ∀ other node, after.lookup other = some node →
    before.lookup other = some node ∨ place <+: other ∧ before.nextId ≤ node.id
  nextId : before.nextId ≤ after.nextId

namespace Grows

variable {a b c : Drive} {place : List GoString}

theorem refl (d : Drive) (place : List GoString) : Grows d d place :=
  ⟨fun _ _ found => found, fun _ _ found => .inl found, le_refl _⟩

theorem of_eq (same : b = a) : Grows a b place := by
  rw [same]
  exact refl a place

theorem trans (first : Grows a b place) (second : Grows b c place) : Grows a c place := by
  constructor
  · intro other node found
    exact second.keeps other node (first.keeps other node found)
  · intro other node found
    rcases second.fresh other node found with old | ⟨below, isNew⟩
    · exact first.fresh other node old
    · exact .inr ⟨below, first.nextId.trans isNew⟩
  · exact first.nextId.trans second.nextId

theorem weaken {above : List GoString} (grows : Grows a b place) (isPrefix : above <+: place) :
    Grows a b above := by
  refine ⟨grows.keeps, ?_, grows.nextId⟩
  intro other node found
  rcases grows.fresh other node found with old | ⟨below, isNew⟩
  · exact .inl old
  · exact .inr ⟨isPrefix.trans below, isNew⟩

theorem lookup_outside (grows : Grows a b place) {other : List GoString}
    (outside : ¬place <+: other) : b.lookup other = a.lookup other := by
  cases found : a.lookup other with
  | some node => exact grows.keeps other node found
  | none =>
      cases found' : b.lookup other with
      | none => rfl
      | some node =>
          rcases grows.fresh other node found' with old | ⟨below, _⟩
          · rw [found] at old
            contradiction
          · exact absurd below outside

theorem isFolder (grows : Grows a b place) {other : List GoString} (isFolder : a.IsFolder other) :
    b.IsFolder other := by
  obtain ⟨node, found, nodeFolder⟩ := isFolder
  exact ⟨node, grows.keeps other node found, nodeFolder⟩

end Grows

theorem Drive.Added.grows {d d' : Drive} {place : List GoString} {name : GoString} {body : Body}
    {modTime createTime : Int} (free : d.lookup (place ++ [name]) = none)
    (added : Drive.Added d d' place name body modTime createTime) :
    Grows d d' (place ++ [name]) := by
  constructor
  · intro other node found
    rw [added.lookup, if_neg]
    · exact found
    · rintro rfl
      rw [free] at found
      contradiction
  · intro other node found
    rw [added.lookup] at found
    split at found
    · rename_i same
      cases found
      exact .inr ⟨same ▸ List.prefix_refl _, le_refl _⟩
    · exact .inl found
  · rw [added.nextId]
    exact Nat.le_succ _

theorem Replaced.grows {before after : Drive} {front : List GoString} {name data : GoString}
    {modTime createTime : Int} (free : before.lookup (front ++ [name]) = none)
    (replaced : Replaced before after front name data modTime createTime) :
    Grows before after (front ++ [name]) := by
  obtain ⟨id, isNew, foundFile⟩ := replaced.file
  have unchanged : ∀ other, other ≠ front ++ [name] →
      after.lookup other = before.lookup other := by
    intro other different
    rcases replaced.others other different with same | ⟨_, _, occupied⟩
    · exact same
    · exact absurd free occupied
  constructor
  · intro other node found
    rw [unchanged other]
    · exact found
    · rintro rfl
      rw [free] at found
      contradiction
  · intro other node found
    by_cases same : other = front ++ [name]
    · subst same
      rw [foundFile] at found
      cases found
      exact .inr ⟨List.prefix_refl _, isNew⟩
    · rw [unchanged other same] at found
      exact .inl found
  · exact replaced.nextId

/-! ## Files -/

/-- Surroundings in which every driver call goes through. -/
structure Env.Reliable (env : Env) : Prop where
  changes : ∀ made, env.changeFails made = none
  reads : ∀ made asked, env.readFails made asked = none
  bodies : ∀ made asked, env.bodyBreaks made asked = none

variable {env : Env} {w w' : World}

theorem Env.Reliable.not_injected (reliable : env.Reliable) {e : DriveError} :
    ¬Injected env w e := by
  rintro ⟨reads, message, _, failing, _⟩
  rw [reliable.reads] at failing
  contradiction

theorem Node.isDir_eq_false_iff {node : Node} :
    node.isDir = false ↔ ∃ data, node.body = .file data := by
  unfold Node.isDir
  cases node.body with
  | dir => simp
  | file data => simp

theorem Node.isDir_iff {node : Node} : node.isDir = true ↔ node.body = .dir := by
  unfold Node.isDir
  cases node.body with
  | dir => simp
  | file data => simp

theorem Node.size_eq {node : Node} {data : GoString} (isFile : node.body = .file data) :
    node.size = data.length := by
  rw [Node.size, isFile]

theorem link_ensures (coherent : Coherent w) (p : List GoString) :
    Ensures (link env p) w
      (fun found w' => Quiet w w' ∧ ∃ node data, w.drive.lookup p = some node ∧
        node.body = .file data ∧ found.1.file = node.id)
      fun e w' => Quiet w w' ∧ (Injected env w e ∨ w.drive.lookup p = none ∨ w.drive.IsFolder p) := by
  unfold link
  apply (stat_ensures coherent p).bind
  · rintro e w₁ ⟨quiet, node, shows⟩
    split
    · rename_i isDir
      exact ⟨quiet, .inr (.inr (shows.isFolder_iff.mpr isDir))⟩
    · rename_i notDir
      have isFile : node.isDir = false := by
        rw [← shows.isDir]
        simpa using notDir
      obtain ⟨data, bodyEq⟩ := Node.isDir_eq_false_iff.mp isFile
      have downloads : w₁.drive.download e.id = .ok data := by
        rw [shows.id]
        exact Drive.download_eq (quiet.drive ▸ shows.found) bodyEq
      rw [ensures_bind]
      apply ensures_readCall
      · intro message failing
        refine ⟨quiet.trans (Quiet.of_readings quiet.coherent _ 1),
          .inl ⟨w₁.reads, message, quiet.reads, ?_, rfl⟩⟩
        rw [← quiet.changes]
        exact failing
      · intro _ found answer
        rw [downloads] at answer
        cases answer
        exact ⟨quiet.trans (Quiet.of_readings quiet.coherent _ 1), node, data, shows.found, bodyEq,
          shows.id⟩
      · intro _ e answer
        rw [downloads] at answer
        contradiction
  · rintro e w₁ ⟨quiet, injected | absent⟩
    · exact ⟨quiet, .inl injected⟩
    · exact ⟨quiet, .inr (.inl absent)⟩

/-- What arrives of a file: all of it, or a part and an error. -/
structure Arrives (env : Env) (r : Reader) (data : GoString) : Prop where
  part : r.data <+: data
  whole : r.broken = none → r.data = data
  intact : env.Reliable → r = ⟨data, none⟩

theorem fetch_ensures {p : List GoString} {node : Node} {data : GoString} {found : Link}
    (coherent : Coherent w) (foundNode : w.drive.lookup p = some node)
    (isFile : node.body = .file data) (idEq : found.file = node.id) :
    Ensures (fetch env found) w (fun r w' => Quiet w w' ∧ Arrives env r data)
      fun e w' => Quiet w w' ∧ Injected env w e := by
  have downloads : w.drive.download found.file = .ok data := by
    rw [idEq]
    exact Drive.download_eq foundNode isFile
  apply ensures_readCall
  · intro message failing
    exact ⟨Quiet.of_readings coherent _ 1, w.reads, message, Nat.le_refl _, failing, rfl⟩
  · intro _ r answer
    refine ⟨Quiet.of_readings coherent _ 1, ?_⟩
    rw [downloads] at answer
    cases breaks : env.bodyBreaks w.changes w.reads with
    | none =>
        rw [breaks] at answer
        cases answer
        exact ⟨List.prefix_refl _, fun _ => rfl, fun _ => rfl⟩
    | some early =>
        rw [breaks] at answer
        cases answer
        refine ⟨List.take_prefix _ _, ?_, ?_⟩
        · intro impossible
          contradiction
        · intro reliable
          rw [reliable.bodies] at breaks
          contradiction
  · intro _ e answer
    rw [downloads] at answer
    contradiction

theorem Arrives.payload_eq {r : Reader} {data : GoString} (arrives : Arrives env r data)
    (accepted : Accepted env r data.length) (complete : ¬TooShort env r data.length) :
    payload env r data.length = data := by
  unfold payload
  unfold Accepted at accepted
  split
  · rename_i streaming
    have longEnough : data.length ≤ r.data.length := by
      by_contra short
      exact complete ⟨streaming, by simpa using short⟩
    rw [arrives.part.eq_of_length_le longEnough]
    simp
  · rename_i notStreaming
    rw [if_neg notStreaming] at accepted
    exact arrives.whole accepted

/-- A failed copy of a file: the drive is as it was, or the file at the
destination is gone from its place. -/
structure FileStop (env : Env) (before : Drive) (w' : World) (dstPath : List GoString) : Prop where
  coherent : Coherent w'
  outcome : w'.drive = before ∨ ∃ node, before.lookup dstPath = some node ∧ node.isDir = false
  keeps : (∀ node, before.lookup dstPath = some node → node.size ≠ 0 ∨ node.isDir = true) →
    KeepsNodes before w'.drive
  cause : env.Reliable → before.lookup dstPath = none → dstPath ≠ [] → ValidNames dstPath →
    ¬before.IsFolder dstPath.dropLast

theorem FileStop.of_quiet {dstPath : List GoString} (quiet : Quiet w w')
    (cause : ¬env.Reliable) : FileStop env w.drive w' dstPath :=
  ⟨quiet.coherent, .inl quiet.drive, fun _ => KeepsNodes.of_eq quiet.drive,
    fun reliable => absurd reliable cause⟩

theorem copyFile_ensures {srcPath dstPath : List GoString} {src : Entry} {node : Node}
    {data : GoString} (coherent : Coherent w) (found : w.drive.lookup srcPath = some node)
    (isFile : node.body = .file data) (sizeEq : src.size = data.length) :
    Ensures (do
        let (link, _) ← link env srcPath
        let body ← fetch env link
        let _ ← put env dstPath body src.size src.modTime src.createTime
        pure (some ())) w
      (fun r w' => r = some () ∧ Coherent w' ∧ ∃ front name, dstPath = front ++ [name] ∧
        Replaced w.drive w'.drive front name data src.modTime src.createTime)
      fun _ w' => FileStop env w.drive w' dstPath := by
  have notFolder : ¬w.drive.IsFolder srcPath := by
    rintro ⟨other, foundOther, isFolder⟩
    rw [show w.drive.tree.lookup srcPath = some node from found] at foundOther
    cases foundOther
    rw [Node.isDir_iff.mp isFolder] at isFile
    contradiction
  apply (link_ensures coherent srcPath).bind
  · rintro ⟨link, _⟩ w₁ ⟨quiet₁, other, data', foundOther, isFile', idEq⟩
    rw [found] at foundOther
    cases foundOther
    rw [isFile] at isFile'
    cases isFile'
    apply (fetch_ensures quiet₁.coherent (quiet₁.drive ▸ found) isFile idEq).bind
    · rintro r w₂ ⟨quiet₂, arrives⟩
      have quiet := quiet₁.trans quiet₂
      rw [sizeEq]
      apply (put_ensures quiet.coherent dstPath r data.length src.modTime src.createTime).bind
      · rintro _ w' ⟨coherent', ⟨front, name, pathEq, replaced⟩, accepted, complete, _⟩
        rw [arrives.payload_eq accepted complete, quiet.drive] at replaced
        exact ⟨rfl, coherent', front, name, pathEq, replaced⟩
      · rintro e w' ⟨coherent', outcome, keeps, _, cause⟩
        rw [quiet.drive] at outcome keeps cause
        refine ⟨coherent', ?_, ?_, ?_⟩
        · rcases outcome with ⟨same, _⟩ | ⟨_, _, notSafe⟩
          · exact .inl same
          · right
            by_contra noFile
            apply notSafe
            intro old replaces
            rw [← quiet.drive] at noFile
            exact absurd ⟨old, replaces.found, replaces.isFile⟩ noFile
        · intro nonempty
          rcases outcome with ⟨same, _⟩ | ⟨_, _, notSafe⟩
          · exact KeepsNodes.of_eq same
          · apply keeps
            intro old foundOld
            rcases nonempty old foundOld with nonempty | isFolder
            · exact nonempty
            · exfalso
              apply notSafe
              intro other replaces
              have foundOther := replaces.found
              rw [quiet.drive, foundOld] at foundOther
              cases foundOther
              exact absurd replaces.isFile (by simp [isFolder])
        · intro reliable absent nonroot valid isFolder
          rw [arrives.intact reliable, quiet.changes] at cause
          have acceptedNow : Accepted env ⟨data, none⟩ data.length := by
            unfold Accepted
            split
            · exact Int.natCast_nonneg _
            · rfl
          have longEnough : ¬TooShort env ⟨data, none⟩ data.length := by
            rintro ⟨_, short⟩
            simp at short
          rcases cause absent nonroot valid isFolder acceptedNow longEnough with
            ⟨reads, message, failing⟩ | failing
          · rw [reliable.reads] at failing
            contradiction
          · exact failing (reliable.changes _)
    · rintro e w₂ ⟨quiet₂, injected⟩
      exact FileStop.of_quiet (quiet₁.trans quiet₂) fun reliable => reliable.not_injected injected
  · rintro e w₁ ⟨quiet₁, injected | absent | isFolder⟩
    · exact FileStop.of_quiet quiet₁ fun reliable => reliable.not_injected injected
    · rw [found] at absent
      contradiction
    · exact absurd isFolder notFolder

/-! ## The recursion -/

/-- The two subtrees have the same names and bodies. -/
def SameBodies (before after : Drive) (source target : List GoString) : Prop :=
  ∀ rest, (after.lookup (target ++ rest)).map Node.body =
    (before.lookup (source ++ rest)).map Node.body

/-- A copy to a free place that came to an end, or used up its bound. -/
structure CopyDone (before : Drive) (w' : World) (srcPath dstPath : List GoString) (depth : Int) (bound : Nat)
    (r : Option Unit) : Prop where
  coherent : Coherent w'
  grows : Grows before w'.drive dstPath
  located : 0 < bound →
    (∃ node, before.lookup srcPath = some node) ∧ before.IsFolder dstPath.dropLast
  finished : r = some () → depth < 0 →
    ¬srcPath <+: dstPath ∧ SameBodies before w'.drive srcPath dstPath
  exhausted : r = none → (∃ node, before.lookup srcPath = some node) → ¬srcPath <+: dstPath →
    ∃ rest node, bound ≤ rest.length ∧ before.lookup (srcPath ++ rest) = some node

/-- A copy to a free place that failed. -/
structure CopyStop (env : Env) (before : Drive) (w' : World) (srcPath dstPath : List GoString) : Prop where
  coherent : Coherent w'
  grows : Grows before w'.drive dstPath
  cause : env.Reliable → (∃ node, before.lookup srcPath = some node) → dstPath ≠ [] →
    ValidNames dstPath → ¬before.IsFolder dstPath.dropLast

/-- What the copies of the children have to do. -/
def CopiesTo (env : Env) (recur : List GoString → List GoString → Fs (Option Unit)) (depth : Int)
    (bound : Nat) : Prop :=
  ∀ (w : World) (srcPath dstPath : List GoString), Coherent w → w.drive.lookup dstPath = none →
    Ensures (recur srcPath dstPath) w (fun r w' => CopyDone w.drive w' srcPath dstPath depth bound r)
      fun _ w' => CopyStop env w.drive w' srcPath dstPath

/-- A loop over children whose places are free. -/
structure LoopDone (before : Drive) (w' : World) (srcPath dstPath : List GoString) (children : List Entry)
    (depth : Int) (bound : Nat) (r : Option Unit) : Prop where
  coherent : Coherent w'
  grows : Grows before w'.drive dstPath
  outside : ∀ other, (∀ child ∈ children, ¬dstPath ++ [child.name] <+: other) →
    w'.drive.lookup other = before.lookup other
  finished : r = some () → depth < 0 → ∀ child ∈ children,
    ¬srcPath ++ [child.name] <+: dstPath ++ [child.name] ∧
      SameBodies before w'.drive (srcPath ++ [child.name]) (dstPath ++ [child.name])
  exhausted : r = none → ¬srcPath <+: dstPath →
    ∃ rest node, bound < rest.length ∧ before.lookup (srcPath ++ rest) = some node

structure LoopStop (env : Env) (before : Drive) (w' : World) (dstPath : List GoString) : Prop where
  coherent : Coherent w'
  grows : Grows before w'.drive dstPath
  cause : env.Reliable → ¬ValidNames dstPath

/-- The children are there, and their places at the destination are free. -/
structure Ready (d : Drive) (srcPath dstPath : List GoString) (children : List Entry) : Prop where
  folder : d.IsFolder dstPath
  notAbove : ¬dstPath <+: srcPath
  nodup : (children.map Entry.name).Nodup
  found : ∀ child ∈ children, ∃ node, d.lookup (srcPath ++ [child.name]) = some node
  free : ∀ child ∈ children, d.lookup (dstPath ++ [child.name]) = none

variable {srcPath dstPath : List GoString} {depth : Int} {bound : Nat}
  {recur : List GoString → List GoString → Fs (Option Unit)}

theorem Ready.tail {d d' : Drive} {child : Entry} {children : List Entry}
    (ready : Ready d srcPath dstPath (child :: children))
    (grows : Grows d d' (dstPath ++ [child.name])) : Ready d' srcPath dstPath children := by
  have notNamed : ∀ other ∈ children, child.name ≠ other.name := by
    intro other member same
    have distinct := ready.nodup
    rw [List.map_cons, List.nodup_cons] at distinct
    exact distinct.1 (same ▸ List.mem_map_of_mem member)
  constructor
  · exact grows.isFolder ready.folder
  · exact ready.notAbove
  · exact (List.nodup_cons.mp ready.nodup).2
  · intro other member
    obtain ⟨node, found⟩ := ready.found other (List.mem_cons_of_mem _ member)
    exact ⟨node, grows.keeps _ _ found⟩
  · intro other member
    rw [grows.lookup_outside]
    · exact ready.free other (List.mem_cons_of_mem _ member)
    · rw [sibling_above_iff]
      exact notNamed other member

/-- One more child has been copied. -/
theorem LoopDone.cons {w₁ : World} {child : Entry} {children : List Entry} {r : Option Unit}
    (ready : Ready w.drive srcPath dstPath (child :: children))
    (first : CopyDone w.drive w₁ (srcPath ++ [child.name]) (dstPath ++ [child.name]) depth bound
      (some ()))
    (rest : LoopDone w₁.drive w' srcPath dstPath children depth bound r) :
    LoopDone w.drive w' srcPath dstPath (child :: children) depth bound r := by
  have distinct := ready.nodup
  rw [List.map_cons, List.nodup_cons] at distinct
  constructor
  · exact rest.coherent
  · exact (first.grows.weaken (List.prefix_append _ _)).trans rest.grows
  · intro other outside
    rw [rest.outside other fun later member => outside later (List.mem_cons_of_mem _ member)]
    exact first.grows.lookup_outside (outside child List.mem_cons_self)
  · intro done unlimited later member
    rcases List.mem_cons.mp member with rfl | member
    · -- the rest of the loop stays away from the first child
      obtain ⟨notAbove, same⟩ := first.finished rfl unlimited
      refine ⟨notAbove, ?_⟩
      intro below
      rw [rest.outside]
      · exact same below
      · intro other otherMember
        rw [sibling_above_append_iff]
        intro sameName
        exact distinct.1 (sameName ▸ List.mem_map_of_mem otherMember)
    · -- and the first child stays away from the sources of the rest
      obtain ⟨notAbove, same⟩ := rest.finished done unlimited later member
      refine ⟨notAbove, ?_⟩
      intro below
      rw [same below, first.grows.lookup_outside]
      intro isPrefix
      have above : dstPath <+: srcPath ++ [later.name] ++ below :=
        (List.prefix_append _ _).trans isPrefix
      revert above
      apply not_above_append
      · intro above
        rcases List.prefix_concat_iff.mp above with same | above
        · apply notAbove
          rw [← same]
          exact List.prefix_append _ _
        · exact ready.notAbove above
      · intro below
        exact notAbove (below.trans (List.prefix_append _ _))
  · intro none notBelow
    obtain ⟨below, node, longer, found⟩ := rest.exhausted none notBelow
    refine ⟨below, node, longer, ?_⟩
    rw [← found, first.grows.lookup_outside]
    intro isPrefix
    exact not_above_append ready.notAbove notBelow ((List.prefix_append _ _).trans isPrefix)

theorem copyChildren_ensures (copies : CopiesTo env recur depth bound) (children : List Entry)
    (coherent : Coherent w) (ready : Ready w.drive srcPath dstPath children) :
    Ensures (copyChildren recur srcPath dstPath children) w
      (fun r w' => LoopDone w.drive w' srcPath dstPath children depth bound r)
      fun _ w' => LoopStop env w.drive w' dstPath := by
  induction children generalizing w with
  | nil =>
      rw [copyChildren, ensures_pure]
      refine ⟨coherent, Grows.refl _ _, fun _ _ => rfl, ?_, ?_⟩
      · intro _ _ child member
        contradiction
      · intro impossible
        contradiction
  | cons child children ih =>
      have childFound := ready.found child List.mem_cons_self
      rw [copyChildren]
      apply (copies w _ _ coherent (ready.free child List.mem_cons_self)).bind
      · rintro r w₁ done
        cases r with
        | none =>
            dsimp only
            rw [ensures_pure]
            refine ⟨done.coherent, done.grows.weaken (List.prefix_append _ _), ?_, ?_, ?_⟩
            · intro other outside
              exact done.grows.lookup_outside (outside child List.mem_cons_self)
            · intro impossible
              contradiction
            · intro _ notBelow
              obtain ⟨rest, node, longer, found⟩ :=
                done.exhausted rfl childFound (mt above_of_children notBelow)
              refine ⟨child.name :: rest, node, Nat.succ_le_succ longer, ?_⟩
              rw [← found, List.append_assoc]
              rfl
        | some _ =>
            apply (ih done.coherent (ready.tail done.grows)).mono
            · rintro r w' rest
              exact LoopDone.cons ready done rest
            · rintro e w' stop
              exact ⟨stop.coherent,
                (done.grows.weaken (List.prefix_append _ _)).trans stop.grows, stop.cause⟩
      · rintro e w₁ stop
        refine ⟨stop.coherent, stop.grows.weaken (List.prefix_append _ _), ?_⟩
        intro reliable valid
        obtain ⟨node, found⟩ := childFound
        apply stop.cause reliable ⟨node, found⟩ (by simp)
        · intro name member
          rcases List.mem_append.mp member with member | member
          · exact valid name member
          · apply w.drive.namesValid _ _ found name
            rw [List.mem_singleton.mp member]
            simp
        · rw [List.dropLast_concat]
          exact ready.folder

/-- The loop copies the rest of a folder that has been created. -/
theorem CopyDone.of_loop {w₁ : World} {front : List GoString} {name : GoString} {now : Int}
    {node : Node} {children : List Entry} {r : Option Unit}
    (found : w.drive.lookup srcPath = some node) (isFolder : node.isDir = true)
    (isParent : w.drive.IsFolder front) (free : w.drive.lookup (front ++ [name]) = none)
    (added : Drive.Added w.drive w₁.drive front name .dir now now)
    (lists : Lists w₁.drive srcPath children)
    (loop : LoopDone w₁.drive w' srcPath (front ++ [name]) children (depth - 1) bound r) :
    CopyDone w.drive w' srcPath (front ++ [name]) depth (bound + 1) r := by
  have grows := added.grows free
  have notAbove : ¬front ++ [name] <+: srcPath := by
    intro above
    rw [w.drive.lookup_none_below free above] at found
    contradiction
  have created : w₁.drive.lookup (front ++ [name]) = some ⟨w.drive.nextId, .dir, now, now⟩ := by
    rw [added.lookup, if_pos rfl]
  constructor
  · exact loop.coherent
  · exact grows.trans loop.grows
  · intro _
    rw [List.dropLast_concat]
    exact ⟨⟨node, found⟩, isParent⟩
  · intro done unlimited
    have notBelow : ¬srcPath <+: front ++ [name] := by
      -- otherwise the new folder is below a child, whose copy does not end
      rintro ⟨rest, pathEq⟩
      cases rest with
      | nil =>
          rw [List.append_nil] at pathEq
          exact notAbove (pathEq ▸ List.prefix_refl _)
      | cons first rest =>
          have splitEq : srcPath ++ [first] ++ rest = front ++ [name] := by
            rw [← pathEq, List.append_assoc]
            rfl
          have above : srcPath ++ [first] <+: front ++ [name] := ⟨rest, splitEq⟩
          obtain ⟨child, foundChild⟩ := w₁.drive.tree.lookup_above above created
          have member : child.entry first ∈ children := lists.mem.mpr ⟨child, foundChild, rfl⟩
          apply (loop.finished done (by omega) _ member).1
          rw [← splitEq]
          exact (List.prefix_append _ _).trans (List.prefix_append _ _)
    refine ⟨notBelow, ?_⟩
    intro rest
    cases rest with
    | nil =>
        rw [List.append_nil, List.append_nil, loop.grows.keeps _ _ created, found]
        exact congrArg some (Node.isDir_iff.mp isFolder).symm
    | cons first rest =>
        have shift : ∀ place : List GoString, place ++ first :: rest = place ++ [first] ++ rest := by
          intro place
          rw [List.append_assoc]
          rfl
        have unchanged : w₁.drive.lookup (srcPath ++ [first] ++ rest) =
            w.drive.lookup (srcPath ++ [first] ++ rest) := by
          apply grows.lookup_outside
          rw [List.append_assoc]
          exact not_above_append notAbove notBelow
        rw [shift, shift]
        cases foundChild : w₁.drive.lookup (srcPath ++ [first]) with
        | some child =>
            have member : child.entry first ∈ children := lists.mem.mpr ⟨child, foundChild, rfl⟩
            rw [← unchanged]
            exact (loop.finished done (by omega) _ member).2 rest
        | none =>
            rw [← unchanged, w₁.drive.lookup_none_below foundChild (List.prefix_append _ _),
              loop.outside, added.lookup, if_neg (by simp),
              w.drive.lookup_none_below free
                ((List.prefix_append _ _).trans (List.prefix_append _ _))]
            intro other member
            rw [sibling_above_append_iff]
            intro sameName
            obtain ⟨node, foundOther, _⟩ := lists.mem.mp member
            rw [sameName, foundChild] at foundOther
            contradiction
  · intro none _ notBelow
    obtain ⟨rest, below, longer, foundBelow⟩ := loop.exhausted none notBelow
    refine ⟨rest, below, longer, ?_⟩
    rw [← foundBelow, grows.lookup_outside]
    exact not_above_append notAbove notBelow

/-- The uploaded file is the whole copy. -/
theorem CopyDone.of_file {front : List GoString} {name data : GoString} {node : Node}
    {modTime createTime : Int} (found : w.drive.lookup srcPath = some node)
    (isFile : node.body = .file data) (isParent : w.drive.IsFolder front)
    (free : w.drive.lookup (front ++ [name]) = none) (coherent : Coherent w')
    (replaced : Replaced w.drive w'.drive front name data modTime createTime) :
    CopyDone w.drive w' srcPath (front ++ [name]) depth bound (some ()) := by
  have grows := replaced.grows free
  have notDir : node.isDir = false := Node.isDir_eq_false_iff.mpr ⟨data, isFile⟩
  obtain ⟨id, _, foundFile⟩ := replaced.file
  refine ⟨coherent, grows, ?_, ?_, ?_⟩
  · intro _
    rw [List.dropLast_concat]
    exact ⟨⟨node, found⟩, isParent⟩
  · intro _ _
    constructor
    · intro below
      have occupied := Drive.lookup_below_file (grows.keeps _ _ found) notDir below (by
        rintro rfl
        rw [found] at free
        contradiction)
      rw [foundFile] at occupied
      contradiction
    · intro rest
      cases rest with
      | nil => rw [List.append_nil, List.append_nil, foundFile, found, Option.map_some,
          Option.map_some, isFile]
      | cons first rest =>
          rw [Drive.lookup_below_file foundFile rfl (List.prefix_append _ _) (by simp),
            Drive.lookup_below_file found notDir (List.prefix_append _ _) (by simp)]
  · intro impossible
    contradiction

section

variable {front : List GoString} {name : GoString} {src dstParent : Entry} {pnode : Node}
  {Q : Option Unit → World → Prop} {E : DriveError → World → Prop}

/-- Copying a folder starts with a new folder. -/
theorem copyEntry_folder (isDir : src.isDir = true) (coherent : Coherent w)
    (foundParent : w.drive.lookup front = some pnode) (idEq : dstParent.id = pnode.id)
    (created : w.drive.Accepts front name → ∀ w₁ now, Coherent w₁ →
      Drive.Added w.drive w₁.drive front name .dir now now →
      Ensures (if depth = 0 then pure (some ()) else do
        let children ← listPath env srcPath
        copyChildren recur srcPath dstPath children) w₁ Q E)
    (refused : ∀ e w', Coherent w' → w'.drive = w.drive →
      (env.Reliable → ¬w.drive.Accepts front name) → E e w') :
    Ensures (copyEntry env recur src srcPath dstPath dstParent name depth) w Q E := by
  unfold copyEntry
  rw [if_pos isDir, ensures_bind, ensures_attempt]
  apply (createFolder_ensures coherent foundParent idEq).mono
  · rintro _ _ ⟨accepts, d', now, rfl, added, coherent'⟩
    dsimp only
    rw [ensures_bind, ensures_invalidate]
    exact created accepts _ now coherent' added
  · rintro e _ ⟨rfl, supported, cause⟩
    dsimp only
    rw [if_pos supported, ensures_bind, ensures_fail]
    apply refused _ _ (coherent_changed_self coherent) rfl
    intro reliable
    rcases cause with failing | refused
    · exact absurd (reliable.changes _) failing
    · exact refused

/-- Copying an entry to a free place. -/
theorem copyEntry_ensures {node : Node} (copies : CopiesTo env recur (depth - 1) bound)
    (coherent : Coherent w) (found : w.drive.lookup srcPath = some node)
    (isDirEq : src.isDir = node.isDir) (sizeEq : src.size = node.size)
    (foundParent : w.drive.lookup front = some pnode) (idEq : dstParent.id = pnode.id)
    (isParent : w.drive.IsFolder front) (free : w.drive.lookup (front ++ [name]) = none) :
    Ensures (copyEntry env recur src srcPath (front ++ [name]) dstParent name depth) w
      (fun r w' => CopyDone w.drive w' srcPath (front ++ [name]) depth (bound + 1) r)
      fun _ w' => CopyStop env w.drive w' srcPath (front ++ [name]) := by
  have notAbove : ¬front ++ [name] <+: srcPath := by
    intro above
    rw [w.drive.lookup_none_below free above] at found
    contradiction
  cases kind : src.isDir with
  | true =>
      have isFolder : node.isDir = true := isDirEq.symm.trans kind
      apply copyEntry_folder kind coherent foundParent idEq
      · intro _ w₁ now coherent₁ added
        have grows := added.grows free
        split
        · rename_i only
          rw [ensures_pure]
          refine ⟨coherent₁, grows, ?_, ?_, ?_⟩
          · intro _
            rw [List.dropLast_concat]
            exact ⟨⟨node, found⟩, isParent⟩
          · intro _ unlimited
            rw [only] at unlimited
            contradiction
          · intro impossible
            contradiction
        · apply (listPath_ensures coherent₁ srcPath).bind
          · rintro children w₂ ⟨quiet, _, lists⟩
            have ready : Ready w₂.drive srcPath (front ++ [name]) children := by
              rw [quiet.drive]
              constructor
              · refine ⟨⟨w.drive.nextId, .dir, now, now⟩, ?_, rfl⟩
                exact (added.lookup _).trans (if_pos rfl)
              · exact notAbove
              · exact lists.nodup
              · intro child member
                obtain ⟨childNode, foundChild, _⟩ := lists.mem.mp member
                exact ⟨childNode, foundChild⟩
              · intro child _
                rw [added.lookup, if_neg (by simp)]
                exact w.drive.lookup_none_below free (List.prefix_append _ _)
            rw [← quiet.drive] at lists added
            apply (copyChildren_ensures copies children quiet.coherent ready).mono
            · intro r w' loop
              exact CopyDone.of_loop found isFolder isParent free added lists loop
            · rintro e w' stop
              refine ⟨stop.coherent, (added.grows free).trans stop.grows, ?_⟩
              intro reliable _ _ valid
              exact absurd valid (stop.cause reliable)
          · rintro e w₂ ⟨quiet, injected | noFolder⟩
            · refine ⟨quiet.coherent, quiet.drive ▸ grows, ?_⟩
              intro reliable
              exact absurd injected reliable.not_injected
            · exact absurd ⟨node, grows.keeps _ _ found, isFolder⟩ noFolder
      · intro e w' coherent' driveEq refused
        refine ⟨coherent', Grows.of_eq driveEq, ?_⟩
        intro reliable _ _ valid _
        exact refused reliable ⟨valid name (by simp), isParent, free⟩
  | false =>
      have isFile : node.isDir = false := isDirEq.symm.trans kind
      obtain ⟨data, bodyEq⟩ := Node.isDir_eq_false_iff.mp isFile
      unfold copyEntry
      rw [kind, if_neg Bool.false_ne_true]
      apply (copyFile_ensures coherent found bodyEq (sizeEq.trans (Node.size_eq bodyEq))).mono
      · rintro r w' ⟨rfl, coherent', front', name', pathEq, replaced⟩
        obtain ⟨rfl, sameName⟩ := List.append_inj' pathEq rfl
        cases sameName
        exact CopyDone.of_file found bodyEq isParent free coherent' replaced
      · rintro e w' stop
        have driveEq : w'.drive = w.drive := by
          rcases stop.outcome with same | ⟨other, foundOther, _⟩
          · exact same
          · rw [free] at foundOther
            contradiction
        refine ⟨stop.coherent, Grows.of_eq driveEq, ?_⟩
        intro reliable _ nonroot valid
        exact stop.cause reliable free nonroot valid

end

/-- A copy to a free place, by induction on its bound. -/
theorem copy_free_ensures (coherent : Coherent w) (free : w.drive.lookup dstPath = none)
    (overwrite : Bool) :
    Ensures (copy env bound srcPath dstPath overwrite depth) w
      (fun r w' => CopyDone w.drive w' srcPath dstPath depth bound r)
      fun _ w' => CopyStop env w.drive w' srcPath dstPath := by
  induction bound generalizing w srcPath dstPath overwrite depth with
  | zero =>
      rw [copy, ensures_pure]
      refine ⟨coherent, Grows.refl _ _, ?_, ?_, ?_⟩
      · intro impossible
        contradiction
      · intro impossible
        contradiction
      · rintro _ ⟨node, found⟩ _
        exact ⟨[], node, Nat.zero_le _, by rw [List.append_nil, found]⟩
  | succ bound ih =>
      have copies : CopiesTo env (fun srcPath dstPath => copy env bound srcPath dstPath true
          (depth - 1)) (depth - 1) bound := by
        intro w srcPath dstPath coherent free
        exact ih coherent free true
      have stops : ∀ w', Quiet w w' →
          (env.Reliable → (∃ node, w.drive.lookup srcPath = some node) → dstPath ≠ [] →
            ¬w.drive.IsFolder dstPath.dropLast) → CopyStop env w.drive w' srcPath dstPath := by
        intro w' quiet cause
        refine ⟨quiet.coherent, Grows.of_eq quiet.drive, ?_⟩
        intro reliable source nonroot _
        exact cause reliable source nonroot
      rw [copy]
      apply (stat_ensures coherent srcPath).bind
      · rintro src w₁ ⟨quiet₁, node, shows⟩
        apply (resolveParent_ensures quiet₁.coherent dstPath).bind
        · rintro ⟨dstParent, name⟩ w₂ ⟨quiet₂, front, pnode, rfl, showsParent, isFolder⟩
          dsimp only at showsParent free stops
          have quiet := quiet₁.trans quiet₂
          dsimp only
          rw [ensures_bind, ensures_attempt]
          apply (stat_ensures quiet₂.coherent (front ++ [name])).mono
          · rintro existing w₃ ⟨_, other, showsOther⟩
            have found := showsOther.found
            rw [quiet.drive, free] at found
            contradiction
          · rintro e w₃ ⟨quiet₃, _⟩
            have quiet' := quiet.trans quiet₃
            rw [quiet₁.drive, ← quiet'.drive] at showsParent
            have shows' := shows.found
            rw [← quiet'.drive] at shows' free
            rw [quiet₁.drive, ← quiet'.drive] at isFolder
            dsimp only
            apply (copyEntry_ensures copies quiet'.coherent shows' shows.isDir shows.size
              showsParent.found showsParent.id isFolder free).mono
            · rintro r w' done
              exact quiet'.drive ▸ done
            · rintro e w' stop
              exact quiet'.drive ▸ stop
        · rintro e w₂ ⟨quiet₂, injected | noFolder | isRoot⟩
          · apply stops w₂ (quiet₁.trans quiet₂)
            exact fun reliable => absurd injected reliable.not_injected
          · apply stops w₂ (quiet₁.trans quiet₂)
            rw [quiet₁.drive] at noFolder
            exact fun _ _ _ => noFolder
          · apply stops w₂ (quiet₁.trans quiet₂)
            exact fun _ _ nonroot => absurd isRoot nonroot
      · rintro e w₁ ⟨quiet, injected | absent⟩
        · apply stops w₁ quiet
          exact fun reliable => absurd injected reliable.not_injected
        · apply stops w₁ quiet
          rintro _ ⟨node, found⟩
          rw [absent] at found
          contradiction

end RoundSync.Kernel
