import RoundSync.Kernel.Overwrites
import RoundSync.Transition.Core

/-!
# The cache over whole runs

Requests one after another, each succeeding or failing at some call, keep every
cached listing in agreement with the drive, so that lookups answer as a file
system without a cache does (a TTL of zero), unless one of their calls fails.
-/

namespace RoundSync.Kernel

open RoundSync.Data
open RoundSync.Text
open RoundSync.Transition
open Effect

/-- The operations of `FS`, with the bound on the recursion of a copy. -/
inductive FsOp where
  | list (p : List GoString)
  | stat (p : List GoString)
  | makeDir (p : List GoString)
  | remove (p : List GoString)
  | move (srcPath dstPath : List GoString) (overwrite : Bool)
  | copy (bound : Nat) (srcPath dstPath : List GoString) (overwrite : Bool) (depth : Int)
  | put (dstPath : List GoString) (r : Reader) (size modTime createTime : Int)

/-- The state that an operation leaves, whether it succeeds or not. -/
def FsOp.perform (env : Env) (w : World) : FsOp → World
  | .list p => (listPath env p w).2
  | .stat p => (Kernel.stat env p w).2
  | .makeDir p => (Kernel.makeDir env p w).2
  | .remove p => (Kernel.remove env p w).2
  | .move srcPath dstPath overwrite => (Kernel.move env srcPath dstPath overwrite w).2
  | .copy bound srcPath dstPath overwrite depth =>
      (Kernel.copy env bound srcPath dstPath overwrite depth w).2
  | .put dstPath r size modTime createTime =>
      (Kernel.put env dstPath r size modTime createTime w).2

variable {env : Env} {w : World}

/-- What holds of the state in both outcomes holds of the state left. -/
theorem state_of_ensures {α : Type} {first : Fs α} {P : World → Prop}
    {Q : α → World → Prop} {E : DriveError → World → Prop} (ensures : Ensures first w Q E)
    (value : ∀ a w', Q a w' → P w') (error : ∀ e w', E e w' → P w') : P (first w).2 := by
  rw [Ensures] at ensures
  split at ensures
  next result =>
    rw [result]
    exact value _ _ ensures
  next result =>
    rw [result]
    exact error _ _ ensures

theorem CopyOver.coherent {before : Drive} {srcPath dstPath : List GoString} {overwrite : Bool}
    {depth : Int} {bound : Nat} {r : Option Unit}
    (copied : CopyOver env before w srcPath dstPath overwrite depth bound r) : Coherent w := by
  cases copied with
  | cleared allowed drive removed notAbove done => exact done.coherent
  | swallowed allowed drive removed above done => exact done.coherent
  | uploaded unreliable coherent => exact coherent

theorem CopyOverStop.coherent {before : Drive} {srcPath dstPath : List GoString} {overwrite : Bool}
    (copied : CopyOverStop env before w srcPath dstPath overwrite) : Coherent w := by
  cases copied with
  | refused coherent driveEq cause => exact coherent
  | cleared allowed source drive removed notAbove stop => exact stop.coherent
  | swallowed allowed source drive removed above stop => exact stop.coherent
  | uploading unreliable source stop => exact stop.coherent

theorem copy_coherent (coherent : Coherent w) (bound : Nat) (srcPath dstPath : List GoString)
    (overwrite : Bool) (depth : Int) :
    Coherent (copy env bound srcPath dstPath overwrite depth w).2 := by
  cases bound with
  | zero => exact coherent
  | succ bound =>
      cases taken : w.drive.lookup dstPath with
      | none =>
          have spec := @copy_free_ensures env w srcPath dstPath depth (bound + 1) coherent taken
            overwrite
          exact state_of_ensures spec (fun _ _ done => done.coherent) fun _ _ stop => stop.coherent
      | some dnode =>
          have spec := @copy_taken_ensures env w srcPath dstPath depth bound dnode coherent taken
            overwrite
          exact state_of_ensures spec (fun _ _ copied => copied.coherent) fun _ _ copied => copied.coherent

/-- Every operation, on every path through it, drops the listings it outdates. -/
theorem FsOp.perform_coherent (coherent : Coherent w) (op : FsOp) :
    Coherent (op.perform env w) := by
  cases op with
  | list p =>
      exact state_of_ensures (listPath_ensures coherent p) (fun _ _ done => done.1.coherent)
        fun _ _ stop => stop.1.coherent
  | stat p =>
      exact state_of_ensures (stat_ensures coherent p) (fun _ _ done => done.1.coherent)
        fun _ _ stop => stop.1.coherent
  | makeDir p =>
      exact state_of_ensures (makeDir_ensures coherent p) (fun _ _ done => done.1)
        fun _ _ stop => stop.1
  | remove p =>
      exact state_of_ensures (remove_ensures coherent p) (fun _ _ done => done.1)
        fun _ _ stop => stop.1
  | move srcPath dstPath overwrite =>
      exact state_of_ensures (move_ensures coherent srcPath dstPath overwrite)
        (fun _ _ done => done.1) fun _ _ stop => stop.coherent
  | copy bound srcPath dstPath overwrite depth =>
      exact copy_coherent coherent bound srcPath dstPath overwrite depth
  | put dstPath r size modTime createTime =>
      exact state_of_ensures (put_ensures coherent dstPath r size modTime createTime)
        (fun _ _ done => done.1) fun _ _ stop => stop.coherent

/-! ## Answers -/

/-- The node that a path leads to, looked up along its names innermost first,
or the error of the first name that leads nowhere. -/
def Drive.walk (d : Drive) : List GoString → Except DriveError Node
  | [] =>
      match d.lookup [] with
      | some node => .ok node
      | none => .error .notFound
  | name :: dir =>
      match d.walk dir with
      | .error e => .error e
      | .ok parent =>
          if !parent.isDir then .error .notDir
          else
            match d.lookup (dir.reverse ++ [name]) with
            | some node => .ok node
            | none => .error .notFound

theorem Drive.walk_ok {d : Drive} {names : List GoString} {node : Node}
    (walked : d.walk names = .ok node) : d.lookup names.reverse = some node := by
  cases names with
  | nil =>
      rw [Drive.walk] at walked
      split at walked
      next found =>
        cases walked
        exact found
      next => cases walked
  | cons name dir =>
      rw [Drive.walk] at walked
      split at walked
      next => cases walked
      next =>
        split at walked
        next => cases walked
        next =>
          split at walked
          next found =>
            cases walked
            rw [List.reverse_cons]
            exact found
          next => cases walked

/-- Entries of the same node under the same name; times may differ, since the
root has no times of its own. -/
structure SameEntry (e e' : Entry) : Prop where
  id : e.id = e'.id
  name : e.name = e'.name
  isDir : e.isDir = e'.isDir
  size : e.size = e'.size

/-- `Stat` follows the drive, unless one of its calls fails. -/
theorem statRev_walks (coherent : Coherent w) (names : List GoString) :
    Ensures (statRev env names) w
      (fun e w' => Quiet w w' ∧ ∃ node, w.drive.walk names = .ok node ∧
        SameEntry e (node.entry (names.head?.getD [])))
      fun e w' => Quiet w w' ∧ (Injected env w e ∨ w.drive.walk names = .error e) := by
  induction names with
  | nil =>
      have spec := @statRev_ensures env w coherent []
      apply spec.mono
      · rintro e w' ⟨quiet, node, shows⟩
        have found : w.drive.lookup [] = some node := shows.found
        refine ⟨quiet, node, ?_, shows.id, shows.name, shows.isDir, shows.size⟩
        rw [Drive.walk, found]
      · rintro e w' ⟨quiet, injected | absent⟩
        · exact ⟨quiet, .inl injected⟩
        · obtain ⟨node, found, _⟩ := w.drive.rootNode
          exact nomatch (show w.drive.lookup [] = some node from found).symm.trans absent
  | cons name dir ih =>
      rw [statRev]
      apply ih.bind
      · rintro parent w₁ ⟨quiet, node, walked, same⟩
        have found : w₁.drive.lookup dir.reverse = some node := by
          rw [quiet.drive]
          exact Drive.walk_ok walked
        have parentDir : parent.isDir = node.isDir := same.isDir
        split
        next notDir =>
          refine ⟨quiet, .inr ?_⟩
          rw [parentDir] at notDir
          rw [Drive.walk, walked]
          exact if_pos notDir
        next isDir =>
          rw [parentDir] at isDir
          have isFolder : node.isDir = true := by simpa using isDir
          have walkEq : w.drive.walk (name :: dir) =
              match w.drive.lookup (dir.reverse ++ [name]) with
              | some node => .ok node
              | none => .error .notFound := by
            rw [Drive.walk, walked]
            exact if_neg isDir
          rw [show parent.id = node.id from same.id]
          apply (listByID_ensures quiet.coherent found isFolder).bind
          · rintro items w₂ ⟨listed, lists, _⟩
            rw [quiet.drive] at lists
            split
            next e foundEntry =>
              obtain ⟨child, foundChild, rfl⟩ := lists.find_some foundEntry
              refine ⟨quiet.trans listed, child, ?_, ⟨rfl, rfl, rfl, rfl⟩⟩
              rw [walkEq, foundChild]
            next nothing =>
              refine ⟨quiet.trans listed, .inr ?_⟩
              rw [walkEq, lists.find_none nothing]
          · rintro e w₂ ⟨listed, message, failing, rfl⟩
            refine ⟨quiet.trans listed, .inl ⟨w₁.reads, message, quiet.reads, ?_, rfl⟩⟩
            rw [← quiet.changes, failing]
      · rintro e w₁ ⟨quiet, injected | walked⟩
        · exact ⟨quiet, .inl injected⟩
        · refine ⟨quiet, .inr ?_⟩
          rw [Drive.walk, walked]

theorem Lists.perm {d : Drive} {place : List GoString} {items : List Entry}
    (lists : Lists d place items) : items.Perm (d.entries place) := by
  rw [List.perm_ext_iff_of_nodup lists.nodup.of_map (d.entries_names_nodup place).of_map]
  exact lists.mem_iff

/-- The folder that a path leads to. -/
def Drive.folder (d : Drive) (p : List GoString) : Except DriveError Node :=
  match d.walk p.reverse with
  | .error e => .error e
  | .ok node => if !node.isDir then .error .notDir else .ok node

/-- `ListPath` follows the drive, unless one of its calls fails. -/
theorem listPath_walks (coherent : Coherent w) (p : List GoString) :
    Ensures (listPath env p) w
      (fun items _ => ∃ node, w.drive.folder p = .ok node ∧ items.Perm (w.drive.entries p))
      fun e _ => Injected env w e ∨ w.drive.folder p = .error e := by
  rw [listPath]
  apply (statRev_walks coherent p.reverse).bind
  · rintro e w₁ ⟨quiet, node, walked, same⟩
    have kind : e.isDir = node.isDir := same.isDir
    split
    next notDir =>
      rw [kind] at notDir
      refine .inr ?_
      rw [Drive.folder, walked]
      exact if_pos notDir
    next isDir =>
      rw [kind] at isDir
      have isFolder : node.isDir = true := by simpa using isDir
      have found : w₁.drive.lookup p = some node := by
        rw [quiet.drive, ← List.reverse_reverse p]
        exact Drive.walk_ok walked
      rw [show e.id = node.id from same.id]
      apply (listByID_ensures quiet.coherent found isFolder).mono
      · rintro items w₂ ⟨_, lists, _⟩
        rw [quiet.drive] at lists
        refine ⟨node, ?_, lists.perm⟩
        rw [Drive.folder, walked]
        exact if_neg isDir
      · rintro e' w₂ ⟨_, message, failing, rfl⟩
        refine .inl ⟨w₁.reads, message, quiet.reads, ?_, rfl⟩
        rw [← quiet.changes, failing]
  · rintro e w₁ ⟨_, injected | walked⟩
    · exact .inl injected
    · refine .inr ?_
      rw [Drive.folder, walked]

/-- The file system without a cache, each of whose calls is let through. -/
def Env.uncached (env : Env) : Env :=
  { env with ttl := 0, readFails := fun _ _ => none }

theorem not_injected_uncached {e : DriveError} : ¬Injected env.uncached w e := by
  rintro ⟨reads, message, _, failing, _⟩
  cases failing

/-- An answer against the one without a cache: the same value or the same error,
unless a call has failed. -/
inductive Answers {α : Type} (same : α → α → Prop) (failed : DriveError → Prop) :
    Except DriveError α → Except DriveError α → Prop
  | value {one other : α} (agree : same one other) : Answers same failed (.ok one) (.ok other)
  | error (e : DriveError) : Answers same failed (.error e) (.error e)
  | failed {e : DriveError} (cause : failed e) (other : Except DriveError α) :
      Answers same failed (.error e) other

/-- Two computations that both follow the drive give the same answer. -/
theorem answers_of_truth {α τ : Type} {truth : Except DriveError τ} {shows : α → τ → Prop}
    {same : α → α → Prop} {failed failed' : DriveError → Prop} {first second : Fs α}
    (one : Ensures first w (fun a _ => ∃ t, truth = .ok t ∧ shows a t)
      fun e _ => failed e ∨ truth = .error e)
    (other : Ensures second w (fun a _ => ∃ t, truth = .ok t ∧ shows a t)
      fun e _ => failed' e ∨ truth = .error e)
    (agree : ∀ a b t, shows a t → shows b t → same a b) (sure : ∀ e, ¬failed' e) :
    Answers same failed (first w).1 (second w).1 := by
  cases result : first w with
  | mk answer w₁ =>
      cases result' : second w with
      | mk answer' w₂ =>
          cases answer with
          | error e =>
              rcases one.error result with cause | isError
              · exact .failed cause answer'
              · cases answer' with
                | error e' =>
                    have isError' := (other.error result').resolve_left (sure e')
                    rw [isError] at isError'
                    cases isError'
                    exact .error e
                | ok b =>
                    obtain ⟨t, isOk, _⟩ := other.ok result'
                    exact nomatch isError.symm.trans isOk
          | ok a =>
              obtain ⟨t, isOk, showsA⟩ := one.ok result
              cases answer' with
              | error e' =>
                  have isError' := (other.error result').resolve_left (sure e')
                  exact nomatch isOk.symm.trans isError'
              | ok b =>
                  obtain ⟨t', isOk', showsB⟩ := other.ok result'
                  rw [isOk] at isOk'
                  cases isOk'
                  exact .value (agree a b t showsA showsB)

theorem stat_answers (coherent : Coherent w) (p : List GoString) :
    Answers SameEntry (Injected env w) (stat env p w).1 (stat env.uncached p w).1 := by
  have one := (@statRev_walks env w coherent p.reverse).mono (fun _ _ h => h.2) fun _ _ h => h.2
  have other := (@statRev_walks env.uncached w coherent p.reverse).mono (fun _ _ h => h.2)
    fun _ _ h => h.2
  apply answers_of_truth one other
  · intro a b node showsA showsB
    exact ⟨showsA.id.trans showsB.id.symm, showsA.name.trans showsB.name.symm,
      showsA.isDir.trans showsB.isDir.symm, showsA.size.trans showsB.size.symm⟩
  · exact fun _ => not_injected_uncached

theorem listPath_answers (coherent : Coherent w) (p : List GoString) :
    Answers List.Perm (Injected env w) (listPath env p w).1 (listPath env.uncached p w).1 := by
  apply answers_of_truth (listPath_walks coherent p) (listPath_walks coherent p)
  · intro a b node permA permB
    exact permA.trans permB.symm
  · exact fun _ => not_injected_uncached

theorem Drive.list_ok {d : Drive} {id : Nat} {listed : List Entry} (answer : d.list id = .ok listed) :
    ∃ place node, d.lookup place = some node ∧ node.id = id ∧ listed = d.entries place := by
  cases located : d.locate id with
  | error e =>
      rw [Drive.list, located] at answer
      cases answer
  | ok found =>
      obtain ⟨place, node⟩ := found
      obtain ⟨foundNode, idEq⟩ := Drive.lookup_of_locate located
      refine ⟨place, node, foundNode, idEq, ?_⟩
      cases isDir : node.isDir with
      | true =>
          rw [← idEq, Drive.list_eq foundNode isDir] at answer
          exact (Except.ok.inj answer).symm
      | false =>
          have rejected : d.list node.id = .error .notDir := by
            rw [Drive.list, Drive.locate_eq foundNode]
            exact if_neg (by simp [isDir])
          rw [← idEq, rejected] at answer
          cases answer

/-- In every state that requests one after another reach, every cached listing
of a directory that is still there is the drive's own listing of it, and every
`Stat` and `ListPath` answers as without a cache. -/
theorem cache_invisible (env : Env) (d : Drive) (ops : List FsOp) :
    (∀ id ce listed, (run (FsOp.perform env) (World.fresh d) ops).cache.lookup id = some ce →
        (run (FsOp.perform env) (World.fresh d) ops).drive.list id = .ok listed →
        ce.items.Perm listed) ∧
      (∀ p, Answers SameEntry (Injected env (run (FsOp.perform env) (World.fresh d) ops))
        (stat env p (run (FsOp.perform env) (World.fresh d) ops)).1
        (stat env.uncached p (run (FsOp.perform env) (World.fresh d) ops)).1) ∧
      ∀ p, Answers List.Perm (Injected env (run (FsOp.perform env) (World.fresh d) ops))
        (listPath env p (run (FsOp.perform env) (World.fresh d) ops)).1
        (listPath env.uncached p (run (FsOp.perform env) (World.fresh d) ops)).1 := by
  have coherent : Coherent (run (FsOp.perform env) (World.fresh d) ops) :=
    (Always.of_preserved (fun _ op coherent => op.perform_coherent coherent) ops
      (coherent_fresh d)).last
  refine ⟨?_, stat_answers coherent, listPath_answers coherent⟩
  intro id ce listed kept answer
  obtain ⟨place, node, found, idEq, rfl⟩ := Drive.list_ok answer
  exact ((coherent id ce kept List.not_mem_nil).2 place node found idEq).perm

end RoundSync.Kernel
