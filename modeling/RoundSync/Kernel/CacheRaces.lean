import RoundSync.Kernel.CacheNotes
import Mathlib.Data.List.Infix

/-!
# The cache under concurrent requests

A request fetches a listing from the drive and keeps it later, and it drops the
listings of the directories in which it has found what it changes.  So a listing
outlives a change of its directory exactly where a change is made and its
directory dropped between the fetch and the store, or where a request changes
something that another one has moved elsewhere.
-/

namespace RoundSync.Kernel.Concurrent

open RoundSync.Data
open RoundSync.Text
open RoundSync.Transition
open Attempt

/-! ## Changes and the directories they change -/

/-- A call on a node finds the node at some place. -/
theorem exists_of_locate {α : Type} {d : Drive} {id : Nat}
    {rest : List GoString × Node → Except DriveError α} {a : α}
    (made : (d.locate id >>= rest) = .ok a) :
    ∃ place node, d.lookup place = some node ∧ node.id = id ∧ rest (place, node) = .ok a := by
  cases located : d.locate id with
  | error e =>
      rw [located] at made
      cases made
  | ok found =>
      obtain ⟨place, node⟩ := found
      obtain ⟨foundNode, idEq⟩ := Drive.lookup_of_locate located
      rw [located] at made
      exact ⟨place, node, foundNode, idEq, made⟩

theorem follows_mono {d d' : Drive} {changed more : List Nat} (follows : Follows d d' changed)
    (grows : changed ⊆ more) : Follows d d' more := by
  constructor
  · exact follows.nextId
  · intro place node found isOld others
    exact follows.children place node found isOld fun member => others (grows member)

theorem follows_of_addAt {d d' : Drive} {place : List GoString} {parent : Node} {name : GoString}
    {body : Body} {modTime createTime : Int} (found : d.lookup place = some parent)
    (made : d.addAt place name body modTime createTime = .ok d') :
    Follows d d' [parent.id] := by
  rcases d.addAt_cases place name body modTime createTime with
    ⟨_, reached, result, added⟩ | ⟨_, e, result, _⟩
  · rw [result] at made
    cases made
    exact follows_of_added found added
  · exact nomatch result.symm.trans made

theorem parentOf_eq {d : Drive} {front : List GoString} {name : GoString} {node parent : Node}
    (found : d.lookup (front ++ [name]) = some node) (above : d.lookup front = some parent) :
    parentOf d node.id = [parent.id] := by
  rw [parentOf, Drive.locate_eq found]
  simp only [List.dropLast_concat]
  rw [above]
  rfl

/-- A node that is not the root is in a directory. -/
theorem exists_parent {d : Drive} {place : List GoString} {node : Node} (nonroot : place ≠ [])
    (found : d.lookup place = some node) :
    ∃ front name parent, place = front ++ [name] ∧ d.lookup front = some parent := by
  obtain ⟨front, name, rfl⟩ := List.eq_nil_or_concat' place |>.resolve_left nonroot
  obtain ⟨parent, above, _⟩ := d.isFolder_of_below (List.cons_ne_nil name []) found
  exact ⟨front, name, parent, rfl, above⟩

theorem follows_of_removeAt {d d' : Drive} {place : List GoString} {node : Node}
    (found : d.lookup place = some node) (made : d.removeAt place = .ok d') :
    Follows d d' (parentOf d node.id) := by
  rcases d.removeAt_cases place with ⟨nonroot, reached, result, removed⟩ | ⟨_, e, result⟩
  · rw [result] at made
    cases made
    obtain ⟨front, name, parent, rfl, above⟩ := exists_parent nonroot found
    rw [parentOf_eq found above]
    exact follows_of_removed above removed
  · exact nomatch result.symm.trans made

theorem follows_of_relocateAt {d d' : Drive} {source place : List GoString} {name : GoString}
    {node dstParent : Node} (found : d.lookup source = some node)
    (foundDst : d.lookup place = some dstParent)
    (made : d.relocateAt source place name = .ok d') :
    Follows d d' (parentOf d node.id ++ [dstParent.id]) := by
  rcases d.relocateAt_cases source place name with
    ⟨movable, reached, result, relocated⟩ | ⟨_, e, result⟩
  · rw [result] at made
    cases made
    obtain ⟨front, last, parent, rfl, above⟩ := exists_parent movable.nonroot found
    rw [parentOf_eq found above]
    exact follows_of_relocated above foundDst relocated
  · exact nomatch result.symm.trans made

/-- A change outdates the listings of its directories and no others. -/
theorem Change.follows {now : Int} {d d' : Drive} {made : Change}
    (applied : made.apply now d = .ok d') : Follows d d' (made.directories d) := by
  have adding : ∀ parentID name body modTime createTime,
      (d.locate parentID >>= fun found => d.addAt found.1 name body modTime createTime) = .ok d' →
        Follows d d' [parentID] := by
    intro parentID name body modTime createTime made
    obtain ⟨place, parent, found, rfl, added⟩ := exists_of_locate made
    exact follows_of_addAt found added
  cases made with
  | makeDir parentID name => exact adding parentID name .dir now now applied
  | delete id =>
      obtain ⟨place, node, found, rfl, removed⟩ := exists_of_locate applied
      exact follows_of_removeAt found removed
  | move id dstParentID =>
      obtain ⟨place, node, found, rfl, rest⟩ := exists_of_locate applied
      obtain ⟨parent, dstParent, foundDst, rfl, relocated⟩ := exists_of_locate rest
      exact follows_of_relocateAt found foundDst relocated
  | rename id name =>
      obtain ⟨place, node, found, rfl, relocated⟩ := exists_of_locate applied
      by_cases nonroot : place = []
      · subst nonroot
        simp [Drive.relocateAt] at relocated
      · obtain ⟨front, last, parent, rfl, above⟩ := exists_parent nonroot found
        dsimp only at relocated
        rw [List.dropLast_concat] at relocated
        apply follows_mono (follows_of_relocateAt found above relocated)
        rw [Change.directories, parentOf_eq found above]
        simp
  | put parentID name data modTime createTime =>
      exact adding parentID name (.file data) modTime createTime applied
  | putStream parentID name size r modTime createTime =>
      rw [Change.apply] at applied
      split at applied
      · cases applied
      · exact adding parentID name (.file (r.data.take size.toNat)) modTime createTime applied

/-! ## Listings that agree with the drive -/

/-- The listing is the one of the directory with this id, wherever it is. -/
def Shows (d : Drive) (id : Nat) (items : List Entry) : Prop :=
  id < d.nextId ∧ ∀ place node, d.lookup place = some node → node.id = id → Lists d place items

theorem Shows.follows {d d' : Drive} {changed : List Nat} (follows : Follows d d' changed)
    {id : Nat} {items : List Entry} (shows : Shows d id items) (others : id ∉ changed) :
    Shows d' id items := by
  refine ⟨shows.1.trans_le follows.nextId, ?_⟩
  rintro place' node found rfl
  obtain ⟨place, foundOld, same⟩ := follows.children place' node found shows.1 others
  exact Follows.lists (shows.2 place node foundOld rfl) same

theorem shows_of_list {d : Drive} {id : Nat} {listed : List Entry}
    (answered : d.list id = .ok listed) : Shows d id listed := by
  obtain ⟨place, node, found, rfl, rfl⟩ := Drive.list_ok answered
  refine ⟨d.idsBelow place node found, ?_⟩
  intro place' node' found' sameId
  obtain rfl := d.idsUnique place' place node' node found' found sameId
  exact ⟨fun _ => Iff.rfl, d.entries_names_nodup place'⟩

theorem Shows.perm {d : Drive} {id : Nat} {items items' : List Entry} (shows : Shows d id items)
    (same : items'.Perm items) : Shows d id items' := by
  refine ⟨shows.1, ?_⟩
  intro place node found idEq
  have lists := shows.2 place node found idEq
  constructor
  · intro e
    exact same.mem_iff.trans (lists.mem_iff e)
  · exact (same.map Entry.name).nodup_iff.mpr lists.nodup

/-- A listing that shows a directory is the drive's own, in some order. -/
theorem Shows.perm_listed {d : Drive} {id : Nat} {items listed : List Entry}
    (shows : Shows d id items) (answered : d.list id = .ok listed) : items.Perm listed := by
  obtain ⟨place, node, found, idEq, rfl⟩ := Drive.list_ok answered
  exact (shows.2 place node found idEq).perm

/-! ## The invariant -/

/-- Some request has changed the directory and has not dropped it since. -/
def Changing (notes : Nat → Notes) (id : Nat) : Prop :=
  ∃ i, id ∈ (notes i).pending

/-- Listings that are kept show their directories, but for those that are
changing; listings that were fetched do until their directory changes. -/
structure Sound (env : Env) (s : Shared) (notes : Nat → Notes) : Prop where
  kept : 0 < env.ttl → ∀ id ce, s.world.cache.lookup id = some ce →
    Changing notes id ∨ Shows s.world.drive id ce.items
  fetched : ∀ i fetched, (notes i).fetched = some fetched →
    fetched.version ≤ s.versions fetched.id ∧
      (fetched.version = s.versions fetched.id →
        Shows s.world.drive fetched.id fetched.items)

/-- A step of the first kind keeps a listing that its directory has outdated; one
of the second kind changes a directory in which the request has not found what
it changes.  No other step lets a listing outlive a change. -/
def Orderly (env : Env) (s : Shared) (notes : Nat → Notes) (i : Nat) : FsCall → Prop
  | .store id _ =>
      env.ttl ≤ 0 ∨ Changing notes id ∨
        ∃ fetched, (notes i).fetched = some fetched ∧ fetched.version = s.versions id
  | .change found made => (FsCall.change found made).touched env s.world ⊆ found
  | _ => True

section

variable {env : Env} {s : Shared} {notes : Nat → Notes} {i : Nat} {new : Notes}

theorem changing_update {id : Nat} (grows : id ∈ (notes i).pending → id ∈ new.pending)
    (changing : Changing notes id) : Changing (Function.update notes i new) id := by
  obtain ⟨j, isPending⟩ := changing
  by_cases same : j = i
  · subst same
    exact ⟨j, by simpa using grows isPending⟩
  · exact ⟨j, by simpa [same] using isPending⟩

theorem changing_of_update {id : Nat} (isPending : id ∈ new.pending) :
    Changing (Function.update notes i new) id :=
  ⟨i, by simpa using isPending⟩

/-- The notes of one request, and the listings it has fetched. -/
theorem fetched_update {P : Fetched → Prop}
    (holds : ∀ j fetched, (notes j).fetched = some fetched → P fetched)
    (fresh : ∀ fetched, new.fetched = some fetched → P fetched) :
    ∀ j fetched, (Function.update notes i new j).fetched = some fetched → P fetched := by
  intro j fetched noted
  by_cases same : j = i
  · subst same
    exact fresh fetched (by simpa using noted)
  · exact holds j fetched (by simpa [same] using noted)

/-- A step that leaves drive and cache alone, and keeps what is noted. -/
theorem Sound.unchanged (sound : Sound env s notes) {s' : Shared}
    (drive : s'.world.drive = s.world.drive) (cache : s'.world.cache = s.world.cache)
    (versions : s'.versions = s.versions) (pending : (notes i).pending ⊆ new.pending)
    (fetched : ∀ f, new.fetched = some f → f.version ≤ s.versions f.id ∧
      (f.version = s.versions f.id → Shows s.world.drive f.id f.items)) :
    Sound env s' (Function.update notes i new) := by
  constructor
  · intro caching id ce kept
    rw [cache] at kept
    rw [drive]
    rcases sound.kept caching id ce kept with changing | shows
    · exact .inl (changing_update (fun member => pending member) changing)
    · exact .inr shows
  · rw [drive, versions]
    exact fetched_update sound.fetched fetched

theorem Sound.of_change (sound : Sound env s notes) {d' : Drive} {directories : List Nat}
    (follows : Follows s.world.drive d' directories) (announced : directories ⊆ new.pending)
    (pending : (notes i).pending ⊆ new.pending) (fetched : new.fetched = (notes i).fetched) :
    Sound env ⟨s.world.changed d', fun id =>
        if id ∈ directories then s.versions id + 1 else s.versions id⟩
      (Function.update notes i new) := by
  have moved : ∀ f : Fetched, f.version ≤ s.versions f.id ∧
      (f.version = s.versions f.id → Shows s.world.drive f.id f.items) →
      f.version ≤ (if f.id ∈ directories then s.versions f.id + 1 else s.versions f.id) ∧
        (f.version = (if f.id ∈ directories then s.versions f.id + 1 else s.versions f.id) →
          Shows d' f.id f.items) := by
    rintro f ⟨below, shows⟩
    split
    · refine ⟨below.trans (Nat.le_succ _), ?_⟩
      intro isNew
      rw [isNew] at below
      exact absurd below (Nat.not_succ_le_self _)
    · rename_i others
      exact ⟨below, fun current => (shows current).follows follows others⟩
  constructor
  · intro caching id ce kept
    by_cases changed : id ∈ directories
    · exact .inl (changing_of_update (announced changed))
    · rcases sound.kept caching id ce kept with changing | shows
      · exact .inl (changing_update (fun member => pending member) changing)
      · exact .inr (shows.follows follows changed)
  · intro j f noted
    apply moved
    refine fetched_update sound.fetched (fun f noted => ?_) j f noted
    rw [fetched] at noted
    exact sound.fetched i f noted

theorem Sound.of_invalidate (sound : Sound env s notes) {s' : Shared} {ids : List Nat}
    (world : s'.world = s.world.without ids) (versions : s'.versions = s.versions)
    (pending : ids ≠ [] → ∀ id ∈ (notes i).pending, id ∉ ids → id ∈ new.pending)
    (fetched : new.fetched = (notes i).fetched) : Sound env s' (Function.update notes i new) := by
  constructor
  · intro caching id ce kept
    rw [world] at kept ⊢
    by_cases all : ids = []
    · subst all
      simp [World.without] at kept
    · obtain ⟨notDropped, kept⟩ := World.lookup_without kept
      rcases sound.kept caching id ce kept with changing | shows
      · exact .inl (changing_update (fun member => pending all id member notDropped) changing)
      · exact .inr shows
  · rw [world, versions]
    refine fetched_update sound.fetched fun f noted => ?_
    rw [fetched] at noted
    exact sound.fetched i f noted

theorem Sound.of_store (sound : Sound env s notes) {s' : Shared} {id : Nat} {ce : CacheEntry}
    (drive : s'.world.drive = s.world.drive)
    (cache : s'.world.cache = s.world.cache.insert id ce) (versions : s'.versions = s.versions)
    (stored : 0 < env.ttl → Changing notes id ∨ Shows s.world.drive id ce.items) :
    Sound env s' notes := by
  constructor
  · intro caching other found kept
    rw [cache, Table.lookup_insert_eq_some_iff] at kept
    rw [drive]
    rcases kept with ⟨rfl, rfl⟩ | ⟨_, kept⟩
    · exact stored caching
    · exact sound.kept caching other found kept
  · rw [drive, versions]
    exact sound.fetched

/-- The replies of a change, and the world that it leaves. -/
theorem changeCall_shape {call : Int → Drive → Except DriveError Drive} {w : World} :
    (∃ d', call (env.stamp w.changes) w.drive = .ok d' ∧
      changeCall env call w = (.ok (), w.changed d')) ∨
    ∃ e, changeCall env call w = (.error e, w.changed w.drive) := by
  rw [changeCall]
  cases env.changeFails w.changes with
  | some message => exact .inr ⟨_, rfl⟩
  | none =>
      cases answered : call (env.stamp w.changes) w.drive with
      | ok d' => exact .inl ⟨d', rfl, rfl⟩
      | error e => exact .inr ⟨e, rfl⟩

theorem answer_cached (id : Nat) (w : World) :
    ∃ readings, (cachedItems env id w).2 = { w with readings := readings } := by
  rw [cachedItems]
  split
  · simp only [bind, Effect.read]
    cases w.cache.lookup id with
    | none => exact ⟨w.readings, rfl⟩
    | some ce => exact ⟨w.readings + 1, rfl⟩
  · exact ⟨w.readings, rfl⟩

/-- The step lemma. -/
theorem Sound.answer (sound : Sound env s notes) {c : FsCall} (allowed : (notes i).Allowed c)
    (orderly : Orderly env s notes i c) :
    Sound env (answer env c s).2 (Function.update notes i ((notes i).after env s c)) := by
  have known := sound.fetched i
  have still : ∀ {s' : Shared}, s'.world.drive = s.world.drive →
      s'.world.cache = s.world.cache → s'.versions = s.versions →
      Sound env s' (Function.update notes i (notes i)) := fun drive cache versions =>
    sound.unchanged drive cache versions (List.Subset.refl _) known
  cases c with
  | now => exact still rfl rfl rfl
  | cached id =>
      obtain ⟨readings, left⟩ := @answer_cached env id s.world
      have world : (Concurrent.answer env (.cached id) s).2.world =
          { s.world with readings := readings } := left
      exact still (by rw [world]) (by rw [world]) rfl
  | list id =>
      refine sound.unchanged rfl rfl rfl (List.Subset.refl _) ?_
      intro f noted
      obtain ⟨items, answered, rfl⟩ := Notes.fetched_after_list noted
      refine ⟨Nat.le_refl _, fun _ => shows_of_list ?_⟩
      rw [readCall] at answered
      split at answered
      · cases answered
      · exact answered
  | store id items =>
      have cache : (Concurrent.answer env (.store id items) s).2.world.cache =
          s.world.cache.insert id ⟨env.now s.world.readings, items⟩ := rfl
      have stored : Sound env (Concurrent.answer env (.store id items) s).2 notes := by
        refine sound.of_store ?_ cache rfl ?_
        · rfl
        intro caching
        rcases orderly with off | changing | ⟨f, noted, current⟩
        · exact absurd caching (Int.not_lt.mpr off)
        · exact .inl changing
        · obtain ⟨f', noted', rfl, same⟩ := allowed
          obtain rfl : f = f' := Option.some.inj (noted.symm.trans noted')
          exact .inr (((known f noted).2 current).perm same)
      have unnoted : Function.update notes i (notes i) = notes := Function.update_eq_self i notes
      change Sound env _ (Function.update notes i (notes i))
      rw [unnoted]
      exact stored
  | invalidate ids =>
      have world : (Concurrent.answer env (.invalidate ids) s).2.world = s.world.without ids := rfl
      refine sound.of_invalidate world rfl ?_ rfl
      intro some id isPending kept
      change id ∈ if ids = [] then [] else (notes i).pending.filter (· ∉ ids)
      rw [if_neg some]
      exact List.mem_filter.mpr ⟨isPending, decide_eq_true kept⟩
  | change found made =>
      rcases @changeCall_shape env (fun now drive => made.apply now drive) s.world with
        ⟨d', applied, result⟩ | ⟨e, result⟩
      · have touched : (FsCall.change found made).touched env s.world =
            made.directories s.world.drive := by
          rw [FsCall.touched, result]
        have reached : (Concurrent.answer env (.change found made) s).2 =
            ⟨s.world.changed d', fun id =>
              if id ∈ made.directories s.world.drive then s.versions id + 1
              else s.versions id⟩ := by
          rw [Concurrent.answer, touched]
          exact congrArg (fun world => (⟨world, _⟩ : Shared)) (congrArg Prod.snd result)
        have announced : made.directories s.world.drive ⊆
            ((notes i).after env s (.change found made)).pending := by
          intro id member
          rw [← touched] at member
          exact List.mem_append_left _
            (List.mem_filter.mpr ⟨member, decide_eq_true (orderly member)⟩)
        rw [reached]
        exact sound.of_change (Change.follows applied) announced
          (List.subset_append_right _ _) rfl
      · have touched : (FsCall.change found made).touched env s.world = [] := by
          rw [FsCall.touched, result]
        have world : (Concurrent.answer env (.change found made) s).2.world =
            s.world.changed s.world.drive := congrArg Prod.snd result
        refine sound.unchanged (by rw [world]; rfl) (by rw [world]; rfl) ?_
          (List.subset_append_right _ _) known
        rw [Concurrent.answer, touched]
        rfl
  | link id => exact still rfl rfl rfl
  | fetch link => exact still rfl rfl rfl

end

/-! ## Directories that do not change -/

/-- The directories with these ids have the entries that they had. -/
structure Steady (ids : List Nat) (d d' : Drive) : Prop where
  nextId : d.nextId ≤ d'.nextId
  children : ∀ place' node, d'.lookup place' = some node → node.id < d.nextId → node.id ∈ ids →
    ∃ place, d.lookup place = some node ∧
      ∀ name, d'.lookup (place' ++ [name]) = d.lookup (place ++ [name])

/-- The ids of all directories down to a place are among these. -/
def Covered (ids : List Nat) (d : Drive) (p : List GoString) : Prop :=
  ∀ q node, q <+: p → d.lookup q = some node → node.id ∈ ids

section

variable {ids : List Nat} {d d' d'' : Drive} {p q : List GoString}

theorem Steady.refl (ids : List Nat) (d : Drive) : Steady ids d d :=
  ⟨Nat.le_refl _, fun place _ found _ _ => ⟨place, found, fun _ => rfl⟩⟩

theorem Steady.trans (first : Steady ids d d') (second : Steady ids d' d'') :
    Steady ids d d'' := by
  constructor
  · exact first.nextId.trans second.nextId
  · intro place'' node found isOld member
    obtain ⟨place', found', same'⟩ :=
      second.children place'' node found (isOld.trans_le first.nextId) member
    obtain ⟨place, foundOld, same⟩ := first.children place' node found' isOld member
    exact ⟨place, foundOld, fun name => (same' name).trans (same name)⟩

theorem Follows.steady {changed : List Nat} (follows : Follows d d' changed)
    (others : ∀ id ∈ ids, id ∉ changed) : Steady ids d d' :=
  ⟨follows.nextId, fun place node found isOld member =>
    follows.children place node found isOld (others node.id member)⟩

theorem Shows.steady {id : Nat} {items : List Entry} (shows : Shows d id items)
    (member : id ∈ ids) (steady : Steady ids d d') : Shows d' id items := by
  refine ⟨shows.1.trans_le steady.nextId, ?_⟩
  rintro place' node found rfl
  obtain ⟨place, foundOld, same⟩ := steady.children place' node found shows.1 member
  exact Follows.lists (shows.2 place node foundOld rfl) same

theorem Covered.of_prefix (covered : Covered ids d p) (above : q <+: p) : Covered ids d q :=
  fun r node isPrefix found => covered r node (isPrefix.trans above) found

/-- What a covered directory holds stays, if the directory itself stays. -/
theorem Steady.child (steady : Steady ids d d') (covered : Covered ids d p) (above : q <+: p)
    (same : d'.lookup q = d.lookup q) (name : GoString) :
    d'.lookup (q ++ [name]) = d.lookup (q ++ [name]) := by
  cases found : d.lookup q with
  | none =>
      rw [d.lookup_none_below found (List.prefix_append q [name]),
        d'.lookup_none_below (same.trans found) (List.prefix_append q [name])]
  | some node =>
      obtain ⟨place, foundOld, children⟩ := steady.children q node (same.trans found)
        (d.idsBelow q node found) (covered q node above found)
      obtain rfl := d.lookup_injective found foundOld
      exact children name

/-- All places down to a covered one lead to where they have led. -/
theorem Steady.lookup (steady : Steady ids d d') (covered : Covered ids d p) (above : q <+: p) :
    d'.lookup q = d.lookup q := by
  induction q using List.reverseRecOn with
  | nil =>
      obtain ⟨node, found, isRoot⟩ := d.rootNode
      obtain ⟨node', found', isRoot'⟩ := d'.rootNode
      have sameId : node'.id = node.id := isRoot'.trans isRoot.symm
      obtain ⟨place, foundOld, _⟩ := steady.children [] node' found'
        (sameId ▸ d.idsBelow [] node found) (sameId ▸ covered [] node above found)
      obtain rfl := d.idsUnique place [] node' node foundOld found sameId
      exact Eq.trans found' foundOld.symm
  | append_singleton q name ih =>
      have higher : q <+: p := (List.prefix_append q [name]).trans above
      exact steady.child covered higher (ih higher) name

theorem Covered.steady (covered : Covered ids d p) (steady : Steady ids d d') :
    Covered ids d' p := by
  intro q node above found
  rw [steady.lookup covered above] at found
  exact covered q node above found

theorem Steady.walk (steady : Steady ids d d') {names : List GoString}
    (covered : Covered ids d names.tail.reverse) : d'.walk names = d.walk names := by
  induction names with
  | nil =>
      rw [Drive.walk, Drive.walk, steady.lookup covered List.nil_prefix]
  | cons name dir ih =>
      have above : dir.reverse <+: (name :: dir).tail.reverse := List.prefix_refl _
      have higher : dir.tail.reverse <+: dir.reverse := by
        cases dir with
        | nil => exact List.prefix_refl _
        | cons first rest =>
            rw [List.reverse_cons]
            exact List.prefix_append _ _
      rw [Drive.walk, Drive.walk, ih (covered.of_prefix higher),
        steady.child covered above (steady.lookup covered above)]

end

/-! ## What lookups answer meanwhile -/

/-- The listing that is kept for the directory, if it can be answered, shows it. -/
def KeptShows (env : Env) (id : Nat) (w : World) : Prop :=
  0 < env.ttl → ∀ ce, w.cache.lookup id = some ce → Shows w.drive id ce.items

/-- The directories with these ids do not change, and their listings show them. -/
def lookupTerms (env : Env) (ids : List Nat) : Terms Shared FsCall where
  rely s s' := Steady ids s.world.drive s'.world.drive
  assumed s _ := ∀ id ∈ ids, KeptShows env id s.world
  shown _ _ := True

/-- A call of the drive that was let through has failed. -/
def Failed (e : DriveError) : Prop :=
  ∃ message, e = .other message

section

variable {env : Env} {ids : List Nat} {s : Shared}

theorem cachedItems_some {id : Nat} {items : List Entry} {w : World}
    (hit : (cachedItems env id w).1 = .ok (some items)) :
    0 < env.ttl ∧ ∃ ce, w.cache.lookup id = some ce ∧ ce.items = items := by
  have spec := @cachedItems_ensures env w id
  rw [Effect.Ensures] at spec
  split at spec
  · rename_i hit' reached result
    rw [result] at hit
    obtain ⟨_, kept⟩ := spec
    refine ⟨?_, kept items (Except.ok.inj hit)⟩
    by_cases caching : env.ttl > 0
    · exact caching
    · rw [cachedItems, if_neg caching] at result
      cases result
      cases hit
  · exact spec.elim

theorem readCall_error {α : Type} {call : Drive → Except DriveError α} {w : World} {e : DriveError}
    (answered : (readCall env call w).1 = .error e) : Failed e ∨ call w.drive = .error e := by
  rw [readCall] at answered
  split at answered
  · cases answered
    exact .inl ⟨_, rfl⟩
  · exact .inr answered

theorem readCall_ok {α : Type} {call : Drive → Except DriveError α} {w : World} {a : α}
    (answered : (readCall env call w).1 = .ok a) : call w.drive = .ok a := by
  rw [readCall] at answered
  split at answered
  · cases answered
  · exact answered

theorem answer_world (c : FsCall) : (answer env c s).2.world = (c.effect env s.world).2 :=
  rfl

theorem answer_list (id : Nat) :
    (answer env (.list id) s).1 = (readCall env (fun drive => drive.list id) s.world).1 :=
  rfl

/-- A directory that does not change is listed as it is, or the drive fails. -/
theorem listByID_reflects {id : Nat} (member : id ∈ ids) :
    Ensures (answer env) (lookupTerms env ids) (listByID env id)
      (fun items s' => Steady ids s.world.drive s'.world.drive ∧ Shows s'.world.drive id items)
      (fun e s' => Steady ids s.world.drive s'.world.drive ∧
        (Failed e ∨ s'.world.drive.list id = .error e)) s := by
  have lookup : Ensures (answer env) (lookupTerms env ids) (callFs (.cached id))
      (fun hit s' => Steady ids s.world.drive s'.world.drive ∧
        ∀ items, hit = some items → Shows s'.world.drive id items)
      (fun _ _ => False) s := by
    apply ensures_call
    · exact fun _ _ _ => trivial
    · intro s' steady kept hit answered
      obtain ⟨readings, left⟩ := @answer_cached env id s'.world
      rw [answer_world, show (FsCall.effect env (.cached id) s'.world).2 = _ from left]
      refine ⟨steady, ?_⟩
      rintro items rfl
      obtain ⟨caching, ce, found, rfl⟩ := cachedItems_some answered
      exact kept id member caching ce found
    · intro s' _ _ e answered
      have spec := @cachedItems_ensures env s'.world id
      rw [Effect.Ensures] at spec
      split at spec
      · rename_i result
        rw [show (answer env (.cached id) s').1 = (cachedItems env id s'.world).1 from rfl,
          result] at answered
        cases answered
      · exact spec
  apply lookup.bind
  · rintro hit s₁ ⟨steady, shows⟩
    cases hit with
    | some items => exact ⟨steady, shows items rfl⟩
    | none =>
        have listing : Ensures (answer env) (lookupTerms env ids) (callFs (.list id))
            (fun listed s' => Steady ids s.world.drive s'.world.drive ∧
              Shows s'.world.drive id listed)
            (fun e s' => Steady ids s.world.drive s'.world.drive ∧
              (Failed e ∨ s'.world.drive.list id = .error e)) s₁ := by
          apply ensures_call
          · exact fun _ _ _ => trivial
          · intro s' onward _ listed answered
            rw [answer_list] at answered
            exact ⟨steady.trans onward, shows_of_list (readCall_ok answered)⟩
          · intro s' onward _ e answered
            rw [answer_list] at answered
            exact ⟨steady.trans onward, readCall_error answered⟩
        apply listing.bind
        · rintro listed s₂ ⟨steady, shows⟩
          have stored : Ensures (answer env) (lookupTerms env ids)
              (callFs (.store id (sortEntries env.lower listed)))
              (fun _ s' => Steady ids s.world.drive s'.world.drive ∧
                Shows s'.world.drive id (sortEntries env.lower listed))
              (fun _ _ => False) s₂ := by
            apply ensures_call
            · exact fun _ _ _ => trivial
            · intro s' onward _ _ _
              refine ⟨steady.trans onward, ?_⟩
              exact (shows.perm (List.perm_insertionSort _ _)).steady member onward
            · intro s' _ _ e answered
              cases answered
          exact stored.bind (fun _ _ reflects => reflects) fun _ _ => False.elim
        · exact fun _ _ stopped => stopped
  · exact fun _ _ => False.elim

theorem root_reflects {p : List GoString} (covered : Covered ids s.world.drive p) :
    Ensures (answer env) (lookupTerms env ids) root
      (fun e s' => Covered ids s'.world.drive p ∧
        ∃ node, s'.world.drive.walk [] = .ok node ∧ SameEntry e (node.entry []))
      (fun _ _ => False) s := by
  have reading : Ensures (answer env) (lookupTerms env ids) (callFs .now)
      (fun _ s' => Covered ids s'.world.drive p) (fun _ _ => False) s := by
    apply ensures_call
    · exact fun _ _ _ => trivial
    · intro s' steady _ _ _
      exact covered.steady steady
    · intro s' _ _ e answered
      cases answered
  apply reading.bind
  · intro now s₁ covered
    obtain ⟨node, found, isRoot⟩ := s₁.world.drive.rootNode
    obtain ⟨folder, found', isDir⟩ := s₁.world.drive.root_isFolder
    rw [found] at found'
    cases found'
    refine ⟨covered, node, ?_, ?_⟩
    · rw [Drive.walk, show s₁.world.drive.lookup [] = some node from found]
    · have kind : node.isDir = true := isDir
      have size : node.size = 0 := by
        rw [Node.isDir] at kind
        rw [Node.size]
        split at kind
        · rfl
        · cases kind
      exact ⟨isRoot.symm, rfl, kind.symm, size.symm⟩
  · exact fun _ _ => False.elim

/-- One more name, below a directory that has been found. -/
theorem walk_cons {d : Drive} {name : GoString} {dir : List GoString} {parent : Node}
    (walked : d.walk dir = .ok parent) (isFolder : parent.isDir = true) :
    d.walk (name :: dir) =
      match d.lookup (dir.reverse ++ [name]) with
      | some node => .ok node
      | none => .error .notFound := by
  rw [Drive.walk, walked]
  exact if_neg (by simp [isFolder])

/-- While no directory on its way changes, a path is looked up as the drive has
it, or the drive fails. -/
theorem statRev_reflects {p names : List GoString} (covered : Covered ids s.world.drive p)
    (above : names.tail.reverse <+: p) :
    Ensures (answer env) (lookupTerms env ids) (statRev env names)
      (fun e s' => Covered ids s'.world.drive p ∧ ∃ node, s'.world.drive.walk names = .ok node ∧
        SameEntry e (node.entry (names.head?.getD [])))
      (fun e s' => Covered ids s'.world.drive p ∧
        (Failed e ∨ s'.world.drive.walk names = .error e)) s := by
  induction names with
  | nil => exact (root_reflects covered).mono (fun _ _ reflects => reflects) fun _ _ => False.elim
  | cons name dir ih =>
      have higher : dir.tail.reverse <+: dir.reverse := by
        cases dir with
        | nil => exact List.prefix_refl _
        | cons first rest =>
            rw [List.reverse_cons]
            exact List.prefix_append _ _
      rw [statRev]
      apply (ih (higher.trans above)).bind
      · rintro parent s₁ ⟨covered, node, walked, same⟩
        have kind : parent.isDir = node.isDir := same.isDir
        have found : s₁.world.drive.lookup dir.reverse = some node := Drive.walk_ok walked
        have member : node.id ∈ ids := covered dir.reverse node above found
        split
        · rename_i notDir
          rw [kind] at notDir
          refine ⟨covered, .inr ?_⟩
          rw [Drive.walk, walked]
          exact if_pos notDir
        · rename_i isDir
          rw [kind] at isDir
          have isFolder : node.isDir = true := by simpa using isDir
          have stays : ∀ s₂ : Shared, Steady ids s₁.world.drive s₂.world.drive →
              Covered ids s₂.world.drive p ∧ s₂.world.drive.lookup dir.reverse = some node ∧
                s₂.world.drive.walk dir = .ok node := by
            intro s₂ steady
            refine ⟨covered.steady steady, (steady.lookup covered above).trans found, ?_⟩
            exact (steady.walk (covered.of_prefix (higher.trans above))).trans walked
          rw [show parent.id = node.id from same.id]
          apply (listByID_reflects member).bind
          · rintro items s₂ ⟨steady, shows⟩
            obtain ⟨covered, found, walked⟩ := stays s₂ steady
            have lists := shows.2 dir.reverse node found rfl
            split
            · rename_i e foundEntry
              obtain ⟨child, foundChild, rfl⟩ := lists.find_some foundEntry
              refine ⟨covered, child, ?_, ⟨rfl, rfl, rfl, rfl⟩⟩
              rw [walk_cons walked isFolder, foundChild]
            · rename_i nothing
              refine ⟨covered, .inr ?_⟩
              rw [walk_cons walked isFolder, lists.find_none nothing]
          · rintro e s₂ ⟨steady, failed | rejected⟩
            · exact ⟨(stays s₂ steady).1, .inl failed⟩
            · rw [Drive.list_eq (stays s₂ steady).2.1 isFolder] at rejected
              cases rejected
      · rintro e s₁ ⟨covered, failed | walked⟩
        · exact ⟨covered, .inl failed⟩
        · refine ⟨covered, .inr ?_⟩
          rw [Drive.walk, walked]

theorem listPath_reflects {p : List GoString} (covered : Covered ids s.world.drive p) :
    Ensures (answer env) (lookupTerms env ids) (listPath env p)
      (fun items s' => Covered ids s'.world.drive p ∧
        ∃ node, s'.world.drive.folder p = .ok node ∧ Lists s'.world.drive p items)
      (fun e s' => Covered ids s'.world.drive p ∧
        (Failed e ∨ s'.world.drive.folder p = .error e)) s := by
  have above : p.reverse.tail.reverse <+: p := by
    rw [List.tail_reverse, List.reverse_reverse]
    exact List.dropLast_prefix p
  rw [listPath]
  apply (statRev_reflects covered above).bind
  · rintro e s₁ ⟨covered, node, walked, same⟩
    have kind : e.isDir = node.isDir := same.isDir
    have found : s₁.world.drive.lookup p = some node := by
      rw [← List.reverse_reverse p]
      exact Drive.walk_ok walked
    have member : node.id ∈ ids := covered p node (List.prefix_refl p) found
    split
    · rename_i notDir
      rw [kind] at notDir
      refine ⟨covered, .inr ?_⟩
      rw [Drive.folder, walked]
      exact if_pos notDir
    · rename_i isDir
      rw [kind] at isDir
      have isFolder : node.isDir = true := by simpa using isDir
      rw [show e.id = node.id from same.id]
      apply (listByID_reflects member).mono
      · rintro items s₂ ⟨steady, shows⟩
        have stays := (steady.lookup covered (List.prefix_refl p)).trans found
        refine ⟨covered.steady steady, node, ?_, shows.2 p node stays rfl⟩
        rw [Drive.folder, steady.walk (covered.of_prefix above), walked]
        exact if_neg isDir
      · rintro e' s₂ ⟨steady, failed | rejected⟩
        · exact ⟨covered.steady steady, .inl failed⟩
        · have stays := (steady.lookup covered (List.prefix_refl p)).trans found
          rw [Drive.list_eq stays isFolder] at rejected
          cases rejected
  · rintro e s₁ ⟨covered, failed | walked⟩
    · exact ⟨covered, .inl failed⟩
    · refine ⟨covered, .inr ?_⟩
      rw [Drive.folder, walked]

end

/-! ## Crews of requests -/

abbrev FsCrew :=
  Crew Shared Nat FsCall.Reply Notes (Except DriveError Outcome)

/-- A request begins, or one that is under way takes its next step. -/
abbrev FsCrew.step (env : Env) : FsCrew → CrewEvent Nat FsTask → FsCrew :=
  Crew.step (protocol env) fun task => (task.program env).run

/-- An `FS` that has answered nothing yet. -/
def FsCrew.start (env : Env) (d : Drive) : FsCrew :=
  Crew.start (protocol env) (.ok .done) ⟨World.fresh d, fun _ => 0⟩

abbrev FsCrew.drive (crew : FsCrew) : Drive :=
  crew.state.world.drive

/-- The ids of the directories down to a place. -/
def idsOn (d : Drive) (p : List GoString) : List Nat :=
  p.inits.filterMap fun q => (d.lookup q).map Node.id

/-- The directories that a lookup looks into. -/
def FsTask.directories (d : Drive) : FsTask → List Nat
  | .listByID id => [id]
  | .op (.list p) => idsOn d p
  | .op (.stat p) => idsOn d p.dropLast
  | _ => []

/-- The answer of a lookup is the one of the drive, or the drive has failed. -/
def FsTask.Reflects (d : Drive) : FsTask → Except DriveError Outcome → Prop
  | .listByID id, answer =>
      match answer with
      | .ok outcome => ∃ items, outcome = .listing items ∧
          ∀ listed, d.list id = .ok listed → items.Perm listed
      | .error _ => True
  | .op (.list p), answer =>
      match answer with
      | .ok outcome => ∃ items node, outcome = .listing items ∧ d.folder p = .ok node ∧
          items.Perm (d.entries p)
      | .error e => Failed e ∨ d.folder p = .error e
  | .op (.stat p), answer =>
      match answer with
      | .ok outcome => ∃ e node, outcome = .entry e ∧ d.walk p.reverse = .ok node ∧
          SameEntry e (node.entry (p.reverse.head?.getD []))
      | .error e => Failed e ∨ d.walk p.reverse = .error e
  | _, _ => True

theorem covered_idsOn (d : Drive) (p : List GoString) : Covered (idsOn d p) d p := by
  intro q node above found
  apply List.mem_filterMap.mpr
  exact ⟨q, List.mem_inits q p |>.mpr above, by rw [found]; rfl⟩

section

variable {env : Env}

/-- A lookup whose directories do not change reflects the drive, then and later. -/
theorem FsTask.program_reflects (task : FsTask) (s : Shared) :
    Program.Ensures (answer env) (lookupTerms env (task.directories s.world.drive))
      (task.program env).run
      (fun result s' => ∀ d, Steady (task.directories s.world.drive) s'.world.drive d →
        task.Reflects d result) s := by
  have anything : ∀ {Q : Except DriveError Outcome → Shared → Prop}, (∀ result s', Q result s') →
      Program.Ensures (answer env) (lookupTerms env (task.directories s.world.drive))
        (task.program env).run Q s :=
    fun holds => Program.ensures_of_forall (fun _ _ => trivial) holds _ s
  cases task with
  | listByID id =>
      have member : id ∈ (FsTask.listByID id).directories s.world.drive := List.mem_singleton_self id
      apply (listByID_reflects member).hand_over
      · rintro items s₁ ⟨_, shows⟩ d steady
        exact ⟨items, rfl, fun listed answered =>
          (shows.steady member steady).perm_listed answered⟩
      · rintro e s₁ _ d _
        exact trivial
  | op op =>
      cases op with
      | list p =>
          have covered := covered_idsOn s.world.drive p
          have above : p.reverse.tail.reverse <+: p := by
            rw [List.tail_reverse, List.reverse_reverse]
            exact List.dropLast_prefix p
          apply (listPath_reflects covered).hand_over
          · rintro items s₁ ⟨covered, node, isFolder, lists⟩ d steady
            refine ⟨items, node, rfl, ?_, ?_⟩
            · rw [Drive.folder, steady.walk (covered.of_prefix above)]
              exact isFolder
            · have here : p <+: p := List.prefix_refl p
              exact (Follows.lists lists
                (steady.child covered here (steady.lookup covered here))).perm
          · rintro e s₁ ⟨covered, stopped⟩ d steady
            rw [FsTask.Reflects]
            rw [Drive.folder, steady.walk (covered.of_prefix above)]
            exact stopped
      | stat p =>
          have covered := covered_idsOn s.world.drive p.dropLast
          have above : p.reverse.tail.reverse <+: p.dropLast := by
            rw [List.tail_reverse, List.reverse_reverse]
          apply (statRev_reflects covered above).hand_over
          · rintro e s₁ ⟨covered, node, walked, same⟩ d steady
            refine ⟨e, node, rfl, ?_, same⟩
            rw [steady.walk (covered.of_prefix above)]
            exact walked
          · rintro e s₁ ⟨covered, stopped⟩ d steady
            rw [FsTask.Reflects]
            rw [steady.walk (covered.of_prefix above)]
            exact stopped
      | makeDir p => exact anything fun _ _ _ _ => trivial
      | remove p => exact anything fun _ _ _ _ => trivial
      | move srcPath dstPath overwrite => exact anything fun _ _ _ _ => trivial
      | copy bound srcPath dstPath overwrite depth => exact anything fun _ _ _ _ => trivial
      | put dstPath r size modTime createTime => exact anything fun _ _ _ _ => trivial

/-- The invariant of every orderly run: caches and notes are sound, and every
request ends with nothing left to drop. -/
abbrev FsCrew.Keeps (env : Env) : FsCrew → Prop :=
  Crew.Keeps (protocol env) (Sound env) fun _ g => g.pending = []

theorem keeps_start (d : Drive) : (FsCrew.start env d).Keeps env := by
  constructor
  · constructor
    · intro caching id ce kept
      simp [FsCrew.start, Crew.start, World.fresh] at kept
    · intro i fetched noted
      cases noted
  · exact fun i => rfl

theorem FsTask.obeys_program (task : FsTask) :
    (protocol env).Obeys (task.program env).run (fun _ g => g.pending = []) (protocol env).blank := by
  apply Protocol.Obeys.mono (@FsTask.owes_program env task _ (List.Subset.refl []))
  intro result g owed
  cases result with
  | ok outcome => exact List.subset_nil.mp owed
  | error e => exact List.subset_nil.mp owed

theorem always_keeps {crew : FsCrew} (keeps : crew.Keeps env)
    {events : List (CrewEvent Nat FsTask)}
    (orderly : Meets (FsCrew.step env) (Crew.AtCall (Orderly env)) crew events) :
    Always (FsCrew.step env) (FsCrew.Keeps env) crew events := by
  refine Crew.always_keeps (fun task => task.obeys_program) ?_ ?_ keeps orderly
  · intro s g i value sound ended
    refine sound.unchanged rfl rfl rfl ?_ nofun
    rw [ended]
    exact List.nil_subset _
  · intro s g i c sound allowed orderly
    exact sound.answer allowed orderly

/-- A call after which none of the directories is changing has left them alone. -/
theorem steady_of_answer {ids : List Nat} {s : Shared} {notes : Nat → Notes} {i : Nat} {c : FsCall}
    (orderly : Orderly env s notes i c)
    (quiet : ∀ id ∈ ids,
      ¬Changing (Function.update notes i ((notes i).after env s c)) id) :
    Steady ids s.world.drive (answer env c s).2.world.drive := by
  rw [answer_world]
  cases c with
  | cached id =>
      obtain ⟨readings, left⟩ := @answer_cached env id s.world
      rw [show (FsCall.effect env (.cached id) s.world).2 = _ from left]
      exact Steady.refl ids s.world.drive
  | change found made =>
      rcases @changeCall_shape env (fun now drive => made.apply now drive) s.world with
        ⟨d', applied, result⟩ | ⟨e, result⟩
      · have touched : (FsCall.change found made).touched env s.world =
            made.directories s.world.drive := by
          rw [FsCall.touched, result]
        rw [show FsCall.effect env (.change found made) s.world = _ from result]
        apply Follows.steady (Change.follows applied)
        intro id member changed
        rw [← touched] at changed
        apply quiet id member
        apply changing_of_update
        exact List.mem_append_left _
          (List.mem_filter.mpr ⟨changed, decide_eq_true (orderly changed)⟩)
      · rw [show FsCall.effect env (.change found made) s.world = _ from result]
        exact Steady.refl ids s.world.drive
  | _ => exact Steady.refl ids s.world.drive

theorem steady_of_step {ids : List Nat} {crew : FsCrew} {event : CrewEvent Nat FsTask}
    (orderly : Crew.AtCall (Orderly env) crew event)
    (quiet : ∀ id ∈ ids, ¬Changing (crew.step env event).notes id) :
    Steady ids crew.drive (crew.step env event).drive := by
  cases event with
  | begin i task =>
      rw [FsCrew.step, Crew.step]
      split
      · exact Steady.refl ids crew.drive
      · exact Steady.refl ids crew.drive
  | advance i =>
      rw [Crew.AtCall] at orderly
      rw [FsCrew.step, Crew.step] at quiet ⊢
      split
      · exact Steady.refl ids crew.drive
      · rename_i c next isCall
        rw [isCall] at orderly quiet
        simp only [Crew.notes_update] at quiet
        exact steady_of_answer orderly quiet

/-- Some request has changed the directory and has not dropped its listing since. -/
abbrev FsCrew.Changing (crew : FsCrew) (id : Nat) : Prop :=
  Concurrent.Changing crew.notes id

/-- A request is about to be given this listing of a directory, from the cache or
by the drive. -/
def FsCrew.Gives (env : Env) (crew : FsCrew) (id : Nat) (items : List Entry) : Prop :=
  (∃ i next, (crew.hands i).program = .call (.cached id) next ∧
      (cachedItems env id crew.state.world).1 = .ok (some items)) ∨
    (∃ i next, (crew.hands i).program = .call (.list id) next ∧
      (readCall env (fun drive => drive.list id) crew.state.world).1 = .ok items)

/-- Every listing that a request is given of a directory of which no change is
under way is the drive's own. -/
def FsCrew.Fresh (env : Env) (crew : FsCrew) : Prop :=
  ∀ id items listed, crew.Gives env id items → ¬crew.Changing id →
    crew.drive.list id = .ok listed → items.Perm listed

theorem FsCrew.Keeps.fresh {crew : FsCrew} (keeps : crew.Keeps env) : crew.Fresh env := by
  rintro id items listed (⟨i, next, _, hit⟩ | ⟨i, next, _, answered⟩) quiet listing
  · obtain ⟨caching, ce, kept, rfl⟩ := cachedItems_some hit
    exact ((keeps.inv.kept caching id ce kept).resolve_left quiet).perm_listed listing
  · exact (shows_of_list (readCall_ok answered)).perm_listed listing

/-- A lookup that begins when no change of its directories is under way, and runs
while none gets under way, answers what the drive holds. -/
def FsCrew.Reflecting (env : Env) (crew : FsCrew) (events : List (CrewEvent Nat FsTask)) : Prop :=
  ∀ before i task during result, events = before ++ .begin i task :: during →
    ((run (FsCrew.step env) crew before).hands i).program.isDone = true →
    (∀ other, .begin i other ∉ during) →
    Always (FsCrew.step env)
      (fun reached => ∀ id ∈ task.directories (run (FsCrew.step env) crew before).drive,
        ¬reached.Changing id)
      (run (FsCrew.step env) crew (before ++ [.begin i task])) during →
    ((run (FsCrew.step env) crew events).hands i).program.value? = some result →
    task.Reflects (run (FsCrew.step env) crew events).drive result

/-- The course of one lookup, from its first step on. -/
theorem FsCrew.Keeps.reflects {crew : FsCrew} (keeps : crew.Keeps env) {i : Nat} {task : FsTask}
    (began : (crew.hands i).program = (task.program env).run)
    {during : List (CrewEvent Nat FsTask)}
    (orderly : Meets (FsCrew.step env) (Crew.AtCall (Orderly env)) crew during)
    (once : ∀ other, .begin i other ∉ during)
    (quiet : Always (FsCrew.step env)
      (fun reached => ∀ id ∈ task.directories crew.drive, ¬reached.Changing id) crew during)
    {result : Except DriveError Outcome}
    (answered : ((run (FsCrew.step env) crew during).hands i).program.value? = some result) :
    task.Reflects (run (FsCrew.step env) crew during).drive result := by
  let terms : Terms Shared FsCall := lookupTerms env (task.directories crew.drive)
  have ensures := @FsTask.program_reflects env task crew.state
  rw [← began] at ensures
  have relied : Meets (FsCrew.step env)
      (fun crew event => terms.rely crew.state (crew.step env event).state) crew during :=
    quiet.meets (fun _ _ _ orderly later => steady_of_step orderly later) orderly
  have assumed : Always (FsCrew.step env) (fun crew => ∀ c, terms.assumed crew.state c)
      crew during := by
    apply ((always_keeps keeps orderly).and quiet).mono
    rintro reached ⟨keeps, quiet⟩ c id member caching ce kept
    exact (keeps.inv.kept caching id ce kept).resolve_left (quiet id member)
  have course := @Crew.course_ensures _ _ _ _ _ _ _ _ (protocol env)
    (fun task : FsTask => (task.program env).run) terms _ (fun _ => Steady.refl _ _)
    (fun _ _ _ => Steady.trans) (fun _ _ _ holds steady d onward => holds d (steady.trans onward))
    i crew during ensures once relied assumed
  have ended := Program.eq_done_of_value answered
  rw [ended] at course
  exact course _ (Steady.refl _ _)

/-- A request that begins leaves the state as it is. -/
theorem begin_idle {crew : FsCrew} {i : Nat} (idle : (crew.hands i).program.isDone = true)
    (task : FsTask) :
    (crew.step env (.begin i task)).state = crew.state ∧
      ((crew.step env (.begin i task)).hands i).program = (task.program env).run := by
  rw [FsCrew.step, Crew.step]
  split
  · exact ⟨rfl, by simp⟩
  · rename_i c next isCall
    rw [isCall] at idle
    cases idle

theorem FsCrew.Keeps.reflecting {crew : FsCrew} (keeps : crew.Keeps env)
    {events : List (CrewEvent Nat FsTask)}
    (orderly : Meets (FsCrew.step env) (Crew.AtCall (Orderly env)) crew events) :
    crew.Reflecting env events := by
  rintro before i task during result rfl idle once quiet answered
  have joined : before ++ .begin i task :: during = (before ++ [.begin i task]) ++ during := by
    rw [List.append_assoc]
    rfl
  rw [joined] at orderly answered ⊢
  obtain ⟨first, second⟩ := meets_append.mp orderly
  rw [run_append] at answered ⊢
  have entered : run (FsCrew.step env) crew (before ++ [.begin i task]) =
      FsCrew.step env (run (FsCrew.step env) crew before) (.begin i task) := by
    rw [run_append]
    rfl
  obtain ⟨sameState, isProgram⟩ := begin_idle idle task
  rw [← entered] at sameState isProgram
  have sameDrive : (run (FsCrew.step env) crew (before ++ [.begin i task])).drive =
      (run (FsCrew.step env) crew before).drive := congrArg (fun s => s.world.drive) sameState
  rw [← sameDrive] at quiet
  exact FsCrew.Keeps.reflects (always_keeps keeps first).last isProgram second once quiet answered

/-- In a run of concurrent requests in which no listing is kept after its
directory has changed and been dropped, and no change reaches a directory in
which its request has not found what it changes, every listing that a request is
given is current, unless a change of the directory is still under way. -/
theorem listings_current (env : Env) (d : Drive) (events : List (CrewEvent Nat FsTask))
    (orderly : Meets (FsCrew.step env) (Crew.AtCall (Orderly env)) (.start env d) events) :
    Always (FsCrew.step env) (FsCrew.Fresh env) (.start env d) events ∧
      (FsCrew.start env d).Reflecting env events := by
  have keeps := @keeps_start env d
  constructor
  · exact (always_keeps keeps orderly).mono fun _ keeps => keeps.fresh
  · exact keeps.reflecting orderly

end

/-! ## Runs of a few requests -/

theorem not_changing_of_few {env : Env} {d : Drive} {events : List (CrewEvent Nat FsTask)} {n : Nat}
    (few : ∀ event ∈ events, event.hand < n)
    (dropped : ∀ j < n, ((run (FsCrew.step env) (.start env d) events).notes j).pending = [])
    (id : Nat) : ¬(run (FsCrew.step env) (.start env d) events).Changing id := by
  rintro ⟨j, isPending⟩
  by_cases one : j < n
  · rw [dropped j one] at isPending
    cases isPending
  · have others : ∀ event ∈ events, event.hand ≠ j := by
      rintro event member rfl
      exact one (few event member)
    rw [Crew.notes, Crew.run_hands_of_others others] at isPending
    cases isPending

/-- A request lists the root, and another one makes a directory between the fetch
of the listing and its store. -/
def slowReader : List (CrewEvent Nat FsTask) :=
  [.begin 0 (.op (.list [])), .advance 0, .advance 0, .advance 0,
    .begin 1 (.op (.makeDir [str "a"])), .advance 1, .advance 1, .advance 1, .advance 1, .advance 1,
    .advance 1, .advance 1, .advance 0]

/-- The listing from before the change is served after it. -/
theorem slowReader_servesStale :
    ¬(FsCrew.start Env.calm Drive.empty).Reflecting Env.calm
      (slowReader ++ [.begin 2 (.op (.list [])), .advance 2, .advance 2]) := by
  intro reflecting
  have quiet : ∀ more : List (CrewEvent Nat FsTask), (∀ event ∈ more, event.hand < 3) →
      (∀ j < 3, ((run (FsCrew.step Env.calm) (.start Env.calm Drive.empty)
        (slowReader ++ more)).notes j).pending = []) → ∀ id,
      ¬(run (FsCrew.step Env.calm) (.start Env.calm Drive.empty)
        (slowReader ++ more)).Changing id := by
    intro more few dropped
    have mentioned : ∀ event ∈ slowReader, event.hand < 3 := by decide
    exact not_changing_of_few (List.forall_mem_append.mpr ⟨mentioned, few⟩) dropped
  have always : Always (FsCrew.step Env.calm)
      (fun reached => ∀ id ∈ (FsTask.op (.list [])).directories
          (run (FsCrew.step Env.calm) (.start Env.calm Drive.empty) slowReader).drive,
        ¬reached.Changing id)
      (run (FsCrew.step Env.calm) (.start Env.calm Drive.empty)
        (slowReader ++ [.begin 2 (.op (.list []))])) [.advance 2, .advance 2] := by
    refine ⟨fun id _ => ?_, fun id _ => ?_, fun id _ => ?_⟩
    · exact quiet [.begin 2 (.op (.list []))] (by decide) (by decide) id
    · exact quiet [.begin 2 (.op (.list [])), .advance 2] (by decide) (by decide) id
    · exact quiet [.begin 2 (.op (.list [])), .advance 2, .advance 2] (by decide) (by decide) id
  have stale := reflecting slowReader 2 (.op (.list [])) [.advance 2, .advance 2] (.ok (.listing []))
    rfl rfl (by simp) always rfl
  obtain ⟨items, node, isListing, folder, same⟩ := stale
  cases isListing
  exact absurd same.length_eq (by decide)

/-- What makes a step orderly whatever the other requests do. -/
def Prompt (env : Env) (s : Shared) (notes : Nat → Notes) (i : Nat) : FsCall → Prop
  | .store id _ => (notes i).fetched.map Fetched.version = some (s.versions id)
  | .change found made => (FsCall.change found made).touched env s.world ⊆ found
  | _ => True

instance (env : Env) (s : Shared) (notes : Nat → Notes) (i : Nat) :
    ∀ c, Decidable (Prompt env s notes i c)
  | .store id _ =>
      inferInstanceAs (Decidable ((notes i).fetched.map Fetched.version = some (s.versions id)))
  | .change found made =>
      inferInstanceAs (Decidable ((FsCall.change found made).touched env s.world ⊆ found))
  | .now | .cached _ | .list _ | .invalidate _ | .link _ | .fetch _ => .isTrue trivial

theorem Prompt.orderly {env : Env} {s : Shared} {notes : Nat → Notes} {i : Nat} {c : FsCall}
    (prompt : Prompt env s notes i c) : Orderly env s notes i c := by
  cases c with
  | store id items =>
      obtain ⟨fetched, noted, version⟩ := Option.map_eq_some_iff.mp prompt
      exact .inr (.inr ⟨fetched, noted, version⟩)
  | change found made => exact prompt
  | _ => trivial

/-- The same requests, but the listing is fetched after the change. -/
def promptReader : List (CrewEvent Nat FsTask) :=
  [.begin 0 (.op (.list [])), .advance 0, .advance 0,
    .begin 1 (.op (.makeDir [str "a"])), .advance 1, .advance 1, .advance 1, .advance 1, .advance 1,
    .advance 1, .advance 1, .advance 0, .advance 0,
    .begin 2 (.op (.list [])), .advance 2, .advance 2]

theorem listings_current_promptReader :
    Always (FsCrew.step Env.calm) (FsCrew.Fresh Env.calm) (.start Env.calm Drive.empty)
        promptReader ∧
      (FsCrew.start Env.calm Drive.empty).Reflecting Env.calm promptReader := by
  apply listings_current
  have prompt : Meets (FsCrew.step Env.calm) (Crew.AtCall (Prompt Env.calm))
      (.start Env.calm Drive.empty) promptReader := by decide
  exact prompt.mono fun crew event prompt =>
    Crew.atCall_mono (fun _ _ _ _ prompt => prompt.orderly) crew event prompt

end RoundSync.Kernel.Concurrent
