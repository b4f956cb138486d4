import RoundSync.Kernel.RemoteFs

/-!
# What lookups answer

Listings are answered from the cache, so lookups are right as long as every
listing that is kept agrees with the drive (`Coherent`).  Lookups keep this,
change nothing on the drive, and tell the truth about it unless a call fails.
-/

namespace RoundSync.Kernel

open RoundSync.Data
open RoundSync.Text
open RoundSync.Transition
open Effect

/-- The listing has the entries of the directory, each once. -/
structure Lists (d : Drive) (place : List GoString) (items : List Entry) : Prop where
  mem_iff : ∀ e, e ∈ items ↔ e ∈ d.entries place
  nodup : (items.map Entry.name).Nodup

/-- Every listing kept agrees with the drive, except those of the ids given. -/
def CoherentExcept (stale : List Nat) (w : World) : Prop :=
  ∀ id ce, w.cache.lookup id = some ce → id ∉ stale → id < w.drive.nextId ∧
    ∀ place node, w.drive.lookup place = some node → node.id = id → Lists w.drive place ce.items

abbrev Coherent (w : World) : Prop :=
  CoherentExcept [] w

theorem coherent_fresh (d : Drive) : Coherent (World.fresh d) := by
  intro id ce kept
  simp [World.fresh] at kept

/-- A world in which every listing kept agrees with the drive. -/
structure Live where
  world : World
  coherent : Coherent world

def Live.fresh (d : Drive) : Live :=
  ⟨World.fresh d, coherent_fresh d⟩

/-- From `w` to `w'` nothing happened to the drive. -/
structure Quiet (w w' : World) : Prop where
  drive : w'.drive = w.drive
  changes : w'.changes = w.changes
  reads : w.reads ≤ w'.reads
  coherent : Coherent w'

theorem Quiet.refl {w : World} (coherent : Coherent w) : Quiet w w :=
  ⟨rfl, rfl, Nat.le_refl _, coherent⟩

theorem Quiet.trans {w w' w'' : World} (first : Quiet w w') (second : Quiet w' w'') :
    Quiet w w'' :=
  ⟨second.drive.trans first.drive, second.changes.trans first.changes,
    first.reads.trans second.reads, second.coherent⟩

/-- Only clock readings and the count of reads differ. -/
theorem Quiet.of_readings {w : World} (coherent : Coherent w) (readings more : Nat) :
    Quiet w { w with readings := readings, reads := w.reads + more } :=
  ⟨rfl, rfl, Nat.le_add_right _ _, coherent⟩

/-! ## Listings -/

theorem sortEntries_lists {lower : GoString → GoString} {d : Drive} {place : List GoString} :
    Lists d place (sortEntries lower (d.entries place)) := by
  have permuted := List.perm_insertionSort (fun a b => entryLess lower b a = false)
    (d.entries place)
  constructor
  · intro e
    exact permuted.mem_iff
  · exact (permuted.map Entry.name).nodup_iff.mpr (d.entries_names_nodup place)

theorem Lists.mem {d : Drive} {place : List GoString} {items : List Entry}
    (lists : Lists d place items) {e : Entry} :
    e ∈ items ↔ ∃ node, d.lookup (place ++ [e.name]) = some node ∧ e = node.entry e.name := by
  rw [lists.mem_iff, Drive.mem_entries_iff]

theorem Lists.find_some {d : Drive} {place : List GoString} {items : List Entry}
    (lists : Lists d place items) {name : GoString} {e : Entry}
    (found : items.find? (·.name = name) = some e) :
    ∃ node, d.lookup (place ++ [name]) = some node ∧ e = node.entry name := by
  have nameEq : e.name = name := by simpa using List.find?_some found
  obtain ⟨node, foundNode, entryEq⟩ := lists.mem.mp (List.mem_of_find?_eq_some found)
  rw [nameEq] at foundNode entryEq
  exact ⟨node, foundNode, entryEq⟩

theorem Lists.find_none {d : Drive} {place : List GoString} {items : List Entry}
    (lists : Lists d place items) {name : GoString}
    (nothing : items.find? (·.name = name) = none) : d.lookup (place ++ [name]) = none := by
  cases found : d.lookup (place ++ [name]) with
  | none => rfl
  | some node =>
      have member : node.entry name ∈ items := lists.mem.mpr ⟨node, found, rfl⟩
      have different := List.find?_eq_none.mp nothing _ member
      simp [Node.entry] at different

variable {env : Env} {w : World}

theorem cachedItems_ensures (id : Nat) :
    Ensures (cachedItems env id) w
      (fun hit w' => (∃ readings, w' = { w with readings := readings }) ∧
        ∀ items, hit = some items → ∃ ce, w.cache.lookup id = some ce ∧ ce.items = items)
      fun _ _ => False := by
  unfold cachedItems
  split
  · rw [ensures_bind, ensures_read]
    split
    · exact ⟨⟨w.readings, rfl⟩, by simp⟩
    · rename_i ce kept
      rw [ensures_bind]
      refine ⟨⟨w.readings + 1, rfl⟩, ?_⟩
      intro items hit
      split at hit
      · exact ⟨ce, kept, Option.some.inj hit⟩
      · contradiction
  · exact ⟨⟨w.readings, rfl⟩, by simp⟩

theorem ensures_readCall {α : Type} {call : Drive → Except DriveError α} {Q : α → World → Prop}
    {E : DriveError → World → Prop}
    (fails : ∀ message, env.readFails w.changes w.reads = some message →
      E (.other message) { w with reads := w.reads + 1 })
    (answers : env.readFails w.changes w.reads = none → ∀ a, call w.drive = .ok a →
      Q a { w with reads := w.reads + 1 })
    (rejects : env.readFails w.changes w.reads = none → ∀ e, call w.drive = .error e →
      E e { w with reads := w.reads + 1 }) :
    Ensures (readCall env call) w Q E := by
  unfold Ensures readCall
  cases failing : env.readFails w.changes w.reads with
  | some message => exact fails message failing
  | none =>
      cases answer : call w.drive with
      | ok a => simpa [answer] using answers failing a answer
      | error e => simpa [answer] using rejects failing e answer

/-- Listing a directory; without a kept listing it takes one call. -/
theorem listByID_ensures (coherent : Coherent w) {place : List GoString} {node : Node}
    (found : w.drive.lookup place = some node) (isFolder : node.isDir = true) :
    Ensures (listByID env node.id) w
      (fun items w' => Quiet w w' ∧ Lists w.drive place items ∧
        (w.cache.lookup node.id = none → env.readFails w.changes w.reads = none))
      fun e w' => Quiet w w' ∧ ∃ message,
        env.readFails w.changes w.reads = some message ∧ e = .other message := by
  unfold listByID
  apply (cachedItems_ensures node.id).bind _ (by simp)
  rintro hit _ ⟨⟨readings, rfl⟩, kept⟩
  cases hit with
  | some items =>
      obtain ⟨ce, keptEntry, rfl⟩ := kept items rfl
      refine ⟨Quiet.of_readings coherent readings 0, (coherent _ _ keptEntry (by simp)).2 _ _ found rfl, ?_⟩
      intro notKept
      rw [notKept] at keptEntry
      contradiction
  | none =>
      dsimp only
      rw [ensures_bind]
      apply ensures_readCall
      · intro message failing
        exact ⟨Quiet.of_readings coherent _ _, message, failing, rfl⟩
      · intro answering listed answer
        have listedEq : listed = w.drive.entries place := by
          dsimp only at answer
          rw [Drive.list_eq found isFolder] at answer
          exact (Except.ok.inj answer).symm
        subst listedEq
        rw [ensures_bind]
        refine ⟨⟨rfl, rfl, Nat.le_succ _, ?_⟩, sortEntries_lists, fun _ => answering⟩
        intro id ce keptEntry _
        rcases Table.lookup_insert_eq_some_iff.mp keptEntry with ⟨rfl, rfl⟩ | ⟨_, keptEntry⟩
        · refine ⟨w.drive.idsBelow _ _ found, ?_⟩
          intro other otherNode foundOther sameId
          rw [w.drive.idsUnique _ _ _ _ foundOther found sameId]
          exact sortEntries_lists
        · exact coherent id ce keptEntry (by simp)
      · intro answering e answer
        dsimp only at answer
        rw [Drive.list_eq found isFolder] at answer
        contradiction

/-! ## Paths -/

/-- The entry describes the node at the place. -/
structure Shows (d : Drive) (place : List GoString) (e : Entry) (node : Node) : Prop where
  found : d.lookup place = some node
  id : e.id = node.id
  isDir : e.isDir = node.isDir
  size : e.size = node.size
  name : e.name = place.getLast?.getD []

theorem Shows.isFolder_iff {d : Drive} {place : List GoString} {e : Entry} {node : Node}
    (shows : Shows d place e node) : d.IsFolder place ↔ e.isDir = true := by
  rw [shows.isDir]
  constructor
  · rintro ⟨other, found, isFolder⟩
    rw [show d.tree.lookup place = some node from shows.found] at found
    rw [Option.some.inj found]
    exact isFolder
  · intro isFolder
    exact ⟨node, shows.found, isFolder⟩

theorem not_isFolder_of_absent {d : Drive} {place : List GoString}
    (absent : d.lookup place = none) : ¬d.IsFolder place := by
  rintro ⟨node, found, _⟩
  rw [show d.tree.lookup place = none from absent] at found
  contradiction

/-- The error comes from a read that fails before the next change. -/
def Injected (env : Env) (w : World) (e : DriveError) : Prop :=
  ∃ reads message, w.reads ≤ reads ∧ env.readFails w.changes reads = some message ∧
    e = .other message

theorem Injected.of_quiet {w' : World} {e : DriveError} (quiet : Quiet w w')
    (injected : Injected env w' e) : Injected env w e := by
  obtain ⟨reads, message, later, failing, rfl⟩ := injected
  rw [quiet.changes] at failing
  exact ⟨reads, message, quiet.reads.trans later, failing, rfl⟩

theorem not_folder_below {d : Drive} {place : List GoString} {name : GoString}
    (noFolder : ¬d.IsFolder place) : d.lookup (place ++ [name]) = none := by
  cases found : d.lookup (place ++ [name]) with
  | none => rfl
  | some node => exact absurd (d.isFolder_of_below (List.cons_ne_nil name []) found) noFolder

/-- Where a walk that ends in an error stands: at a failing call, or before a
place that is not there. -/
def LookupError (env : Env) (w : World) (place : List GoString) (e : DriveError) (w' : World) :
    Prop :=
  Quiet w w' ∧ (Injected env w e ∨ w.drive.lookup place = none)

theorem statRev_ensures (coherent : Coherent w) (names : List GoString) :
    Ensures (statRev env names) w
      (fun e w' => Quiet w w' ∧ ∃ node, Shows w.drive names.reverse e node)
      (LookupError env w names.reverse) := by
  induction names with
  | nil =>
      obtain ⟨node, found, isRoot⟩ := w.drive.rootNode
      obtain ⟨other, foundOther, isFolder⟩ := w.drive.root_isFolder
      rw [show w.drive.tree.lookup [] = some node from found] at foundOther
      cases foundOther
      have noSize : node.size = 0 := by
        unfold Node.size
        unfold Node.isDir at isFolder
        split
        · rfl
        · rename_i isFile
          rw [isFile] at isFolder
          contradiction
      exact ⟨Quiet.of_readings coherent _ 0, node, found, isRoot.symm, isFolder.symm, noSize.symm, rfl⟩
  | cons name dir ih =>
      have pathEq : (name :: dir).reverse = dir.reverse ++ [name] := List.reverse_cons
      unfold statRev
      apply ih.bind
      · rintro parent w₁ ⟨quiet, node, shows⟩
        split
        · rename_i notDir
          refine ⟨quiet, .inr ?_⟩
          rw [pathEq]
          apply not_folder_below
          rw [shows.isFolder_iff]
          simpa using notDir
        · rename_i isDir
          have isFolder : node.isDir = true := by
            rw [← shows.isDir]
            simpa using isDir
          have found : w₁.drive.lookup dir.reverse = some node := quiet.drive ▸ shows.found
          rw [shows.id]
          apply (listByID_ensures quiet.coherent found isFolder).bind
          · rintro items w₂ ⟨listed, lists, _⟩
            rw [quiet.drive] at lists
            split
            · rename_i e foundEntry
              obtain ⟨child, foundChild, rfl⟩ := lists.find_some foundEntry
              refine ⟨quiet.trans listed, child, ?_, rfl, rfl, rfl, ?_⟩
              · rw [pathEq, foundChild]
              · simp [Node.entry]
            · rename_i nothing
              refine ⟨quiet.trans listed, .inr ?_⟩
              rw [pathEq, lists.find_none nothing]
          · rintro e w₂ ⟨listed, message, failing, rfl⟩
            refine ⟨quiet.trans listed, .inl ⟨w₁.reads, message, quiet.reads, ?_, rfl⟩⟩
            rw [← quiet.changes, failing]
      · rintro e w₁ ⟨quiet, injected | absent⟩
        · exact ⟨quiet, .inl injected⟩
        · refine ⟨quiet, .inr ?_⟩
          rw [pathEq]
          exact w.drive.lookup_none_below absent (List.prefix_append _ _)

theorem stat_ensures (coherent : Coherent w) (p : List GoString) :
    Ensures (stat env p) w (fun e w' => Quiet w w' ∧ ∃ node, Shows w.drive p e node)
      (LookupError env w p) := by
  have spec := @statRev_ensures env _ coherent p.reverse
  rwa [List.reverse_reverse] at spec

theorem resolveParent_ensures (coherent : Coherent w) (p : List GoString) :
    Ensures (resolveParent env p) w
      (fun found w' => Quiet w w' ∧ ∃ front node, p = front ++ [found.2] ∧
        Shows w.drive front found.1 node ∧ w.drive.IsFolder front)
      fun e w' => Quiet w w' ∧ (Injected env w e ∨ ¬w.drive.IsFolder p.dropLast ∨ p = []) := by
  unfold resolveParent
  split
  · rename_i empty
    exact ⟨Quiet.refl coherent, .inr (.inr (List.reverse_eq_nil_iff.mp empty))⟩
  · rename_i name dir reversed
    have pathEq : p = dir.reverse ++ [name] := by
      rw [← List.reverse_reverse p, reversed, List.reverse_cons]
    have frontEq : p.dropLast = dir.reverse := by rw [pathEq, List.dropLast_concat]
    apply (statRev_ensures coherent dir).bind
    · rintro parent w₁ ⟨quiet, node, shows⟩
      split
      · rename_i notDir
        refine ⟨quiet, .inr (.inl ?_)⟩
        rw [frontEq, shows.isFolder_iff]
        simpa using notDir
      · rename_i isDir
        exact ⟨quiet, dir.reverse, node, pathEq, shows, shows.isFolder_iff.mpr (by simpa using isDir)⟩
    · rintro e w₁ ⟨quiet, injected | absent⟩
      · exact ⟨quiet, .inl injected⟩
      · refine ⟨quiet, .inr (.inl ?_)⟩
        rw [frontEq]
        exact not_isFolder_of_absent absent

theorem listPath_ensures (coherent : Coherent w) (p : List GoString) :
    Ensures (listPath env p) w
      (fun items w' => Quiet w w' ∧ w.drive.IsFolder p ∧ Lists w.drive p items)
      fun e w' => Quiet w w' ∧ (Injected env w e ∨ ¬w.drive.IsFolder p) := by
  unfold listPath
  apply (stat_ensures coherent p).bind
  · rintro e w₁ ⟨quiet, node, shows⟩
    split
    · rename_i notDir
      refine ⟨quiet, .inr ?_⟩
      rw [shows.isFolder_iff]
      simpa using notDir
    · rename_i isDir
      have isFolder : node.isDir = true := by
        rw [← shows.isDir]
        simpa using isDir
      rw [shows.id]
      apply (listByID_ensures quiet.coherent (quiet.drive ▸ shows.found) isFolder).mono
      · rintro items w₂ ⟨listed, lists, _⟩
        rw [quiet.drive] at lists
        exact ⟨quiet.trans listed, ⟨node, shows.found, isFolder⟩, lists⟩
      · rintro e w₂ ⟨listed, message, failing, rfl⟩
        refine ⟨quiet.trans listed, .inl ⟨w₁.reads, message, quiet.reads, ?_, rfl⟩⟩
        rw [← quiet.changes, failing]
  · rintro e w₁ ⟨quiet, injected | absent⟩
    · exact ⟨quiet, .inl injected⟩
    · exact ⟨quiet, .inr (not_isFolder_of_absent absent)⟩

end RoundSync.Kernel
