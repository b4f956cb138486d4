import RoundSync.Kernel.Lookups

/-!
# Changes and the listings kept

A change of the drive outdates the listings of the directories it changes and
no others (`Follows`); dropping these makes the cache coherent again.
-/

namespace RoundSync.Kernel

open RoundSync.Data
open RoundSync.Text
open RoundSync.Tree
open RoundSync.Transition
open Effect

/-- Directories of `d'` that `d` had have the children they had, except those
whose ids are given. -/
structure Follows (d d' : Drive) (changed : List Nat) : Prop where
  nextId : d.nextId ≤ d'.nextId
  children : ∀ place' node, d'.lookup place' = some node → node.id < d.nextId →
    node.id ∉ changed → ∃ place, d.lookup place = some node ∧
      ∀ name, d'.lookup (place' ++ [name]) = d.lookup (place ++ [name])

theorem Follows.lists {d d' : Drive} {place place' : List GoString} {items : List Entry}
    (lists : Lists d place items)
    (same : ∀ name, d'.lookup (place' ++ [name]) = d.lookup (place ++ [name])) :
    Lists d' place' items := by
  constructor
  · intro e
    rw [lists.mem, Drive.mem_entries_iff, same]
  · exact lists.nodup

theorem follows_of_added {d d' : Drive} {place : List GoString} {name : GoString} {body : Body}
    {modTime createTime : Int} {parent : Node} (found : d.lookup place = some parent)
    (added : Drive.Added d d' place name body modTime createTime) :
    Follows d d' [parent.id] := by
  constructor
  · rw [added.nextId]
    exact Nat.le_succ _
  · intro place' node foundNode isOld notParent
    have lookupEq := added.lookup place'
    rw [foundNode] at lookupEq
    split at lookupEq
    · cases lookupEq
      exact absurd isOld (Nat.lt_irrefl _)
    · refine ⟨place', lookupEq.symm, ?_⟩
      intro child
      rw [added.lookup, if_neg]
      intro same
      obtain ⟨rfl, _⟩ := List.append_inj' same rfl
      rw [found] at lookupEq
      cases lookupEq
      simp at notParent

theorem follows_of_removed {d d' : Drive} {front : List GoString} {name : GoString}
    {parent : Node} (found : d.lookup front = some parent)
    (removed : Drive.Removed d d' (front ++ [name])) : Follows d d' [parent.id] := by
  constructor
  · rw [removed.nextId]
  · intro place' node foundNode _ notParent
    have lookupEq := removed.lookup place'
    rw [foundNode] at lookupEq
    split at lookupEq
    · contradiction
    · rename_i kept
      refine ⟨place', lookupEq.symm, ?_⟩
      intro child
      rw [removed.lookup, if_neg]
      intro isPrefix
      rcases List.prefix_concat_iff.mp isPrefix with same | above
      · obtain ⟨rfl, _⟩ := List.append_inj' same rfl
        rw [found] at lookupEq
        cases lookupEq
        simp at notParent
      · exact kept above

theorem follows_of_relocated {d d' : Drive} {front place : List GoString} {last name : GoString}
    {srcParent dstParent : Node} (foundSrc : d.lookup front = some srcParent)
    (foundDst : d.lookup place = some dstParent)
    (relocated : Drive.Relocated d d' (front ++ [last]) place name) :
    Follows d d' [srcParent.id, dstParent.id] := by
  constructor
  · rw [relocated.nextId]
  · intro place' node foundNode _ notParent
    simp only [List.mem_cons, List.not_mem_nil, or_false, not_or] at notParent
    by_cases inTarget : place ++ [name] <+: place'
    · obtain ⟨rest, rfl⟩ := inTarget
      refine ⟨front ++ [last] ++ rest, (relocated.target rest).symm.trans foundNode, ?_⟩
      intro child
      rw [List.append_assoc _ rest, List.append_assoc _ rest]
      exact relocated.target (rest ++ [child])
    · have lookupEq := relocated.other place' inTarget
      rw [foundNode] at lookupEq
      split at lookupEq
      · contradiction
      · rename_i notSource
        refine ⟨place', lookupEq.symm, ?_⟩
        intro child
        have notTarget : ¬place ++ [name] <+: place' ++ [child] := by
          intro isPrefix
          rcases List.prefix_concat_iff.mp isPrefix with same | above
          · obtain ⟨rfl, _⟩ := List.append_inj' same rfl
            rw [foundDst] at lookupEq
            cases lookupEq
            exact notParent.2 rfl
          · exact inTarget above
        rw [relocated.other _ notTarget, if_neg]
        intro isPrefix
        rcases List.prefix_concat_iff.mp isPrefix with same | above
        · obtain ⟨rfl, _⟩ := List.append_inj' same rfl
          rw [foundSrc] at lookupEq
          cases lookupEq
          exact notParent.1 rfl
        · exact notSource above

/-! ## Changes -/

/-- The world after a call that changes the drive. -/
def World.changed (w : World) (drive : Drive) : World :=
  { w with drive := drive, changes := w.changes + 1, reads := 0 }

variable {env : Env} {w : World}

theorem ensures_changeCall {call : Int → Drive → Except DriveError Drive}
    {Q : Unit → World → Prop} {E : DriveError → World → Prop}
    (fails : ∀ message, env.changeFails w.changes = some message →
      E (.other message) (w.changed w.drive))
    (rejects : env.changeFails w.changes = none → ∀ e,
      call (env.stamp w.changes) w.drive = .error e → E e (w.changed w.drive))
    (accepts : env.changeFails w.changes = none → ∀ d',
      call (env.stamp w.changes) w.drive = .ok d' → Q () (w.changed d')) :
    Ensures (changeCall env call) w Q E := by
  unfold Ensures changeCall
  dsimp only
  cases failing : env.changeFails w.changes with
  | some message => exact fails message failing
  | none =>
      dsimp only
      cases answer : call (env.stamp w.changes) w.drive with
      | ok d' => exact accepts failing d' answer
      | error e => exact rejects failing e answer

theorem coherent_changed_self (coherent : Coherent w) : Coherent (w.changed w.drive) :=
  coherent

theorem coherentExcept_changed {stale changed : List Nat} (coherent : CoherentExcept stale w)
    {d' : Drive} (follows : Follows w.drive d' changed) :
    CoherentExcept (stale ++ changed) (w.changed d') := by
  intro id ce kept fresh
  simp only [List.mem_append, not_or] at fresh
  obtain ⟨below, lists⟩ := coherent id ce kept fresh.1
  refine ⟨below.trans_le follows.nextId, ?_⟩
  rintro place' node found rfl
  obtain ⟨place, foundOld, same⟩ := follows.children place' node found below fresh.2
  exact Follows.lists (lists place node foundOld rfl) same

theorem lookup_foldl_erase {cache : Table Nat CacheEntry} {ids : List Nat} {id : Nat}
    {ce : CacheEntry} :
    (ids.foldl (fun cache id => cache.erase id) cache).lookup id = some ce ↔
      id ∉ ids ∧ cache.lookup id = some ce := by
  induction ids generalizing cache with
  | nil => simp
  | cons first ids ih =>
      rw [List.foldl_cons, ih, Table.lookup_erase_eq_some_iff, List.mem_cons, not_or]
      constructor
      · rintro ⟨notRest, notFirst, kept⟩
        exact ⟨⟨notFirst, notRest⟩, kept⟩
      · rintro ⟨⟨notFirst, notRest⟩, kept⟩
        exact ⟨notRest, notFirst, kept⟩

/-- The world without the listings of these directories. -/
def World.without (w : World) (ids : List Nat) : World :=
  { w with cache := if ids = [] then ∅ else ids.foldl (fun cache id => cache.erase id) w.cache }

theorem ensures_invalidate {ids : List Nat} {Q : PUnit → World → Prop}
    {E : DriveError → World → Prop} :
    Ensures (invalidate ids) w Q E ↔ Q .unit (w.without ids) :=
  Iff.rfl

theorem World.lookup_without {ids : List Nat} {id : Nat} {ce : CacheEntry}
    (kept : (w.without ids).cache.lookup id = some ce) :
    id ∉ ids ∧ w.cache.lookup id = some ce := by
  unfold World.without at kept
  dsimp only at kept
  split at kept
  · simp at kept
  · exact lookup_foldl_erase.mp kept

/-- Dropping the outdated listings restores coherence. -/
theorem coherent_without {stale ids : List Nat} (coherent : CoherentExcept stale w)
    (dropped : stale ⊆ ids) : Coherent (w.without ids) := by
  intro id ce kept _
  obtain ⟨notDropped, kept⟩ := World.lookup_without kept
  exact coherent id ce kept fun isStale => notDropped (dropped isStale)

theorem Quiet.without (coherent : Coherent w) (ids : List Nat) : Quiet w (w.without ids) :=
  ⟨rfl, rfl, Nat.le_refl _, coherent_without coherent (List.nil_subset ids)⟩

/-- Looking a name up in a directory whose listing has just been dropped takes
exactly one call. -/
theorem findByName_ensures {stale : List Nat} {place : List GoString} {node : Node}
    (coherent : CoherentExcept stale w) (dropped : stale ⊆ [node.id])
    (found : w.drive.lookup place = some node) (isFolder : node.isDir = true) (name : GoString) :
    Ensures (findByName env node.id name) w
      (fun e w' => Quiet (w.without [node.id]) w' ∧ env.readFails w.changes w.reads = none ∧
        ∃ child, w.drive.lookup (place ++ [name]) = some child ∧ e = child.entry name)
      fun _ w' => Quiet (w.without [node.id]) w' ∧
        (env.readFails w.changes w.reads ≠ none ∨ w.drive.lookup (place ++ [name]) = none) := by
  have nowCoherent : Coherent (w.without [node.id]) := coherent_without coherent dropped
  have notKept : (w.without [node.id]).cache.lookup node.id = none := by
    cases kept : (w.without [node.id]).cache.lookup node.id with
    | none => rfl
    | some ce =>
        have notDropped := (World.lookup_without kept).1
        simp at notDropped
  have listing := @listByID_ensures env _ nowCoherent _ _ found isFolder
  unfold findByName
  rw [ensures_bind, ensures_invalidate]
  apply listing.bind
  · rintro items w₁ ⟨quiet, lists, answered⟩
    split
    · rename_i e foundEntry
      exact ⟨quiet, answered notKept, lists.find_some foundEntry⟩
    · rename_i nothing
      exact ⟨quiet, .inr (lists.find_none nothing)⟩
  · rintro e w₁ ⟨quiet, message, failing, rfl⟩
    refine ⟨quiet, .inl ?_⟩
    rw [show env.readFails w.changes w.reads = some message from failing]
    simp

end RoundSync.Kernel
