import RoundSync.Text.GoPath
import RoundSync.Tree.PathTree

/-!
# The remote drive

The directory tree behind the kernel's driver interface, as the calls of
`drive.Driver` see it.  Nodes carry ids that are never given twice, siblings
have different names, and a call either does all it says or is rejected
without effect: a name that is taken, a parent that is no directory and a move
into the moved subtree are rejected.
-/

namespace RoundSync.Kernel

open RoundSync.Text
open RoundSync.Tree

inductive DriveError where
  | notFound
  | alreadyExists
  | unsupported
  | notDir
  | isDir
  | lengthRequired
  | other (message : String)
  | wrapped (message : String) (cause : DriveError)
  deriving DecidableEq

/-- What a listing says about one node. -/
structure Entry where
  id : Nat
  name : GoString
  size : Int
  modTime : Int
  createTime : Int
  isDir : Bool
  deriving DecidableEq

inductive Body where
  | dir
  | file (data : GoString)
  deriving DecidableEq

structure Node where
  id : Nat
  body : Body
  modTime : Int
  createTime : Int
  deriving DecidableEq

namespace Node

def isDir (node : Node) : Bool :=
  match node.body with
  | .dir => true
  | .file _ => false

def size (node : Node) : Int :=
  match node.body with
  | .dir => 0
  | .file data => data.length

def entry (node : Node) (name : GoString) : Entry where
  id := node.id
  name := name
  size := node.size
  modTime := node.modTime
  createTime := node.createTime
  isDir := node.isDir

theorem size_nonneg (node : Node) : 0 ≤ node.size := by
  unfold Node.size
  split
  · exact Int.le_refl 0
  · exact Int.natCast_nonneg _

end Node

/-- The id of the root directory; zero stands for the empty id. -/
def rootId : Nat :=
  1

structure Drive where
  tree : PathTree GoString Node fun node => node.isDir = true
  nextId : Nat
  rootNode : ∃ node, tree.lookup [] = some node ∧ node.id = rootId
  idsUnique : ∀ p q a b, tree.lookup p = some a → tree.lookup q = some b → a.id = b.id → p = q
  idsBelow : ∀ p a, tree.lookup p = some a → a.id < nextId
  namesValid : ∀ p a, tree.lookup p = some a → ValidNames p

namespace Drive

abbrev lookup (d : Drive) (place : List GoString) : Option Node :=
  d.tree.lookup place

/-- The place is an existing directory. -/
abbrev IsFolder (d : Drive) (place : List GoString) : Prop :=
  d.tree.IsInner place

theorem isFolder_iff {d : Drive} {place : List GoString} :
    d.IsFolder place ↔ ∃ node, d.lookup place = some node ∧ node.isDir = true :=
  Iff.rfl

theorem isFolder_of_below (d : Drive) {place rest : List GoString} {node : Node}
    (below : rest ≠ []) (found : d.lookup (place ++ rest) = some node) : d.IsFolder place :=
  d.tree.isInner_of_below below found

theorem lookup_none_below (d : Drive) {place other : List GoString}
    (absent : d.lookup place = none) (isPrefix : place <+: other) : d.lookup other = none :=
  d.tree.lookup_none_below absent isPrefix

theorem root_isFolder (d : Drive) : d.IsFolder [] :=
  d.tree.root

theorem lookup_injective (d : Drive) {p q : List GoString} {node : Node}
    (first : d.lookup p = some node) (second : d.lookup q = some node) : p = q :=
  d.idsUnique p q node node first second rfl

theorem lookup_below_file {d : Drive} {place : List GoString} {node : Node}
    (found : d.lookup place = some node) (isFile : node.isDir = false) {other : List GoString}
    (below : place <+: other) (different : place ≠ other) : d.lookup other = none := by
  obtain ⟨rest, rfl⟩ := below
  cases foundOther : d.lookup (place ++ rest) with
  | none => rfl
  | some otherNode =>
      have restNe : rest ≠ [] := by
        rintro rfl
        simp at different
      obtain ⟨same, foundSame, isFolder⟩ := d.isFolder_of_below restNe foundOther
      rw [show d.tree.lookup place = some node from found] at foundSame
      rw [← Option.some.inj foundSame, isFile] at isFolder
      contradiction

/-! ## Changes at a place -/

/-- `d'` is `d` with one more node. -/
structure Added (d d' : Drive) (place : List GoString) (name : GoString) (body : Body)
    (modTime createTime : Int) : Prop where
  lookup : ∀ other, d'.lookup other =
    if other = place ++ [name] then some ⟨d.nextId, body, modTime, createTime⟩ else d.lookup other
  nextId : d'.nextId = d.nextId + 1

/-- `d'` is `d` without a subtree. -/
structure Removed (d d' : Drive) (place : List GoString) : Prop where
  lookup : ∀ other, d'.lookup other = if place <+: other then none else d.lookup other
  nextId : d'.nextId = d.nextId

/-- `d'` is `d` with the subtree at `source` moved to `place ++ [name]`. -/
structure Relocated (d d' : Drive) (source place : List GoString) (name : GoString) : Prop where
  target : ∀ rest, d'.lookup (place ++ [name] ++ rest) = d.lookup (source ++ rest)
  other : ∀ other, ¬place ++ [name] <+: other →
    d'.lookup other = if source <+: other then none else d.lookup other
  nextId : d'.nextId = d.nextId

/-- One more node, with the next id. -/
def add (d : Drive) (place : List GoString) (name : GoString) (body : Body)
    (modTime createTime : Int) (valid : ValidName name) (parent : d.IsFolder place)
    (free : d.lookup (place ++ [name]) = none) : Drive where
  tree := d.tree.plant place name ⟨d.nextId, body, modTime, createTime⟩ parent free
  nextId := d.nextId + 1
  rootNode := by
    obtain ⟨node, found, isRoot⟩ := d.rootNode
    exact ⟨node, by simp [PathTree.lookup_plant, found], isRoot⟩
  idsUnique := by
    intro p q a b foundP foundQ sameId
    rw [PathTree.lookup_plant] at foundP foundQ
    split at foundP
    · split at foundQ
      · rename_i pEq qEq
        rw [pEq, qEq]
      · cases foundP
        exact absurd sameId.symm (d.idsBelow _ _ foundQ).ne
    · split at foundQ
      · cases foundQ
        exact absurd sameId (d.idsBelow _ _ foundP).ne
      · exact d.idsUnique p q a b foundP foundQ sameId
  idsBelow := by
    intro p a found
    rw [PathTree.lookup_plant] at found
    split at found
    · cases found
      exact Nat.lt_succ_self _
    · exact (d.idsBelow p a found).trans (Nat.lt_succ_self _)
  namesValid := by
    intro p a found other member
    rw [PathTree.lookup_plant] at found
    split at found
    · rename_i pEq
      obtain ⟨node, foundPlace, _⟩ := parent
      rw [pEq] at member
      rcases List.mem_append.mp member with member | member
      · exact d.namesValid _ _ foundPlace other member
      · rw [List.mem_singleton.mp member]
        exact valid
    · exact d.namesValid p a found other member

/-- A drive that has only its root directory. -/
def empty : Drive where
  tree :=
    { table := AList.singleton [] ⟨rootId, .dir, 0, 0⟩
      root := ⟨⟨rootId, .dir, 0, 0⟩, rfl, rfl⟩
      closed := by
        intro place name b found
        have member := AList.mem_lookup_iff.mp found
        simp at member }
  nextId := rootId + 1
  rootNode := ⟨⟨rootId, .dir, 0, 0⟩, rfl, rfl⟩
  idsUnique := by
    intro p q a b foundP foundQ _
    have memberP := AList.mem_lookup_iff.mp foundP
    have memberQ := AList.mem_lookup_iff.mp foundQ
    simp only [AList.singleton_entries, List.mem_singleton, Sigma.mk.injEq] at memberP memberQ
    rw [memberP.1, memberQ.1]
  idsBelow := by
    intro p a found
    have member := AList.mem_lookup_iff.mp found
    simp only [AList.singleton_entries, List.mem_singleton, Sigma.mk.injEq, heq_eq_eq] at member
    rw [member.2]
    exact Nat.lt_succ_self _
  namesValid := by
    intro p a found
    have member := AList.mem_lookup_iff.mp found
    simp only [AList.singleton_entries, List.mem_singleton, Sigma.mk.injEq] at member
    rw [member.1]
    intro name isName
    contradiction

/-- A drive with one file. -/
def single (name data : GoString) (valid : ValidName name) : Drive :=
  empty.add [] name (.file data) 0 0 valid empty.root_isFolder rfl

/-- The drive without a subtree. -/
def remove (d : Drive) (place : List GoString) (nonroot : place ≠ []) : Drive where
  tree := d.tree.cut place nonroot
  nextId := d.nextId
  rootNode := by
    obtain ⟨node, found, isRoot⟩ := d.rootNode
    exact ⟨node, by simp [PathTree.lookup_cut, found, nonroot], isRoot⟩
  idsUnique := by
    intro p q a b foundP foundQ sameId
    rw [PathTree.lookup_cut] at foundP foundQ
    split at foundP
    · contradiction
    · split at foundQ
      · contradiction
      · exact d.idsUnique p q a b foundP foundQ sameId
  idsBelow := by
    intro p a found
    rw [PathTree.lookup_cut] at found
    split at found
    · contradiction
    · exact d.idsBelow p a found
  namesValid := by
    intro p a found
    rw [PathTree.lookup_cut] at found
    split at found
    · contradiction
    · exact d.namesValid p a found

/-- The drive with a subtree at another place. -/
def relocate (d : Drive) (source place : List GoString) (name : GoString) (nonroot : source ≠ [])
    (valid : ValidName name) (parent : d.IsFolder place) (outside : ¬source <+: place)
    (free : d.lookup (place ++ [name]) = none) : Drive where
  tree := d.tree.graft source place name nonroot parent outside free
  nextId := d.nextId
  rootNode := by
    obtain ⟨node, found, isRoot⟩ := d.rootNode
    refine ⟨node, PathTree.lookup_graft_eq_some_iff.mpr ⟨[], ?_, found⟩, isRoot⟩
    exact PathTree.rebase_outside (by simpa using nonroot) _
  idsUnique := by
    intro p q a b foundP foundQ sameId
    obtain ⟨oldP, rfl, foundOldP⟩ := PathTree.lookup_graft_eq_some_iff.mp foundP
    obtain ⟨oldQ, rfl, foundOldQ⟩ := PathTree.lookup_graft_eq_some_iff.mp foundQ
    rw [d.idsUnique oldP oldQ a b foundOldP foundOldQ sameId]
  idsBelow := by
    intro p a found
    obtain ⟨old, _, found⟩ := PathTree.lookup_graft_eq_some_iff.mp found
    exact d.idsBelow old a found
  namesValid := by
    intro p a found other member
    obtain ⟨old, rfl, foundOld⟩ := PathTree.lookup_graft_eq_some_iff.mp found
    obtain ⟨node, foundPlace, _⟩ := parent
    unfold PathTree.rebase at member
    split at member
    · rcases List.mem_append.mp member with member | member
      · rcases List.mem_append.mp member with member | member
        · exact d.namesValid _ _ foundPlace other member
        · rw [List.mem_singleton.mp member]
          exact valid
      · exact d.namesValid old a foundOld other (List.mem_of_mem_drop member)
    · exact d.namesValid old a foundOld other member

def addAt (d : Drive) (place : List GoString) (name : GoString) (body : Body)
    (modTime createTime : Int) : Except DriveError Drive :=
  if valid : ValidName name then
    if parent : d.IsFolder place then
      if free : d.lookup (place ++ [name]) = none then
        .ok (d.add place name body modTime createTime valid parent free)
      else .error .alreadyExists
    else .error .notDir
  else .error (.other "invalid name")

def removeAt (d : Drive) (place : List GoString) : Except DriveError Drive :=
  if nonroot : place ≠ [] then .ok (d.remove place nonroot)
  else .error (.other "cannot remove root")

def relocateAt (d : Drive) (source place : List GoString) (name : GoString) :
    Except DriveError Drive :=
  if nonroot : source ≠ [] then
    if valid : ValidName name then
      if parent : d.IsFolder place then
        if outside : ¬source <+: place then
          if free : d.lookup (place ++ [name]) = none then
            .ok (d.relocate source place name nonroot valid parent outside free)
          else .error .alreadyExists
        else .error (.other "destination below source")
      else .error .notDir
    else .error (.other "invalid name")
  else .error (.other "cannot move root")

/-- A place where a node can be added. -/
structure Accepts (d : Drive) (place : List GoString) (name : GoString) : Prop where
  valid : ValidName name
  parent : d.IsFolder place
  free : d.lookup (place ++ [name]) = none

theorem addAt_cases (d : Drive) (place : List GoString) (name : GoString) (body : Body)
    (modTime createTime : Int) :
    d.Accepts place name ∧ (∃ d', d.addAt place name body modTime createTime = .ok d' ∧
      Added d d' place name body modTime createTime) ∨
    ¬d.Accepts place name ∧ ∃ e, d.addAt place name body modTime createTime = .error e ∧
      e ≠ .unsupported := by
  unfold addAt
  split
  · rename_i valid
    split
    · rename_i parent
      split
      · rename_i free
        exact .inl ⟨⟨valid, parent, free⟩, _, rfl, ⟨@PathTree.lookup_plant _ _ _ _ _ _ _ _ parent free, rfl⟩⟩
      · rename_i taken
        exact .inr ⟨fun accepts => taken accepts.free, _, rfl, by simp⟩
    · rename_i noParent
      exact .inr ⟨fun accepts => noParent accepts.parent, _, rfl, by simp⟩
  · rename_i invalid
    exact .inr ⟨fun accepts => invalid accepts.valid, _, rfl, by simp⟩

theorem removeAt_cases (d : Drive) (place : List GoString) :
    place ≠ [] ∧ (∃ d', d.removeAt place = .ok d' ∧ Removed d d' place) ∨
    place = [] ∧ ∃ e, d.removeAt place = .error e := by
  unfold removeAt
  split
  · rename_i nonroot
    exact .inl ⟨nonroot, _, rfl, ⟨@PathTree.lookup_cut _ _ _ _ _ _ nonroot, rfl⟩⟩
  · rename_i isRoot
    exact .inr ⟨not_not.mp isRoot, _, rfl⟩

/-- What the drive asks of a subtree and the place it is moved to. -/
structure Movable (d : Drive) (source place : List GoString) (name : GoString) : Prop extends
    d.Accepts place name where
  nonroot : source ≠ []
  outside : ¬source <+: place

theorem relocateAt_cases (d : Drive) (source place : List GoString) (name : GoString) :
    d.Movable source place name ∧ (∃ d', d.relocateAt source place name = .ok d' ∧
      Relocated d d' source place name) ∨
    ¬d.Movable source place name ∧ ∃ e, d.relocateAt source place name = .error e := by
  unfold relocateAt
  split
  · rename_i nonroot
    split
    · rename_i valid
      split
      · rename_i parent
        split
        · rename_i outside
          split
          · rename_i free
            exact .inl ⟨⟨⟨valid, parent, free⟩, nonroot, outside⟩, _, rfl,
              ⟨@PathTree.lookup_graft_target _ _ _ _ _ _ _ _ nonroot parent outside free,
                @PathTree.lookup_graft_other _ _ _ _ _ _ _ _ nonroot parent outside free, rfl⟩⟩
          · rename_i taken
            exact .inr ⟨fun movable => taken movable.free, _, rfl⟩
        · rename_i inside
          exact .inr ⟨fun movable => inside movable.outside, _, rfl⟩
      · rename_i noParent
        exact .inr ⟨fun movable => noParent movable.parent, _, rfl⟩
    · rename_i invalid
      exact .inr ⟨fun movable => invalid movable.valid, _, rfl⟩
  · rename_i isRoot
    exact .inr ⟨fun movable => isRoot movable.nonroot, _, rfl⟩

theorem ext_tree {first second : Drive} (tree : first.tree = second.tree)
    (nextId : first.nextId = second.nextId) : first = second := by
  cases first
  cases second
  simp only at tree nextId
  subst tree nextId
  rfl

theorem relocateAt_eq_ok {d d' : Drive} {source place : List GoString} {name : GoString}
    (result : d.relocateAt source place name = .ok d') :
    ∃ nonroot valid parent outside free,
      d' = d.relocate source place name nonroot valid parent outside free := by
  unfold relocateAt at result
  split at result
  · rename_i nonroot
    split at result
    · rename_i valid
      split at result
      · rename_i parent
        split at result
        · rename_i outside
          split at result
          · rename_i free
            exact ⟨nonroot, valid, parent, outside, free, (Except.ok.inj result).symm⟩
          · contradiction
        · contradiction
      · contradiction
    · contradiction
  · contradiction

/-- Renaming back undoes a renaming. -/
theorem relocateAt_back {d d' d'' : Drive} {front : List GoString} {name other : GoString}
    (away : d.relocateAt (front ++ [name]) front other = .ok d')
    (back : d'.relocateAt (front ++ [other]) front name = .ok d'') : d'' = d := by
  obtain ⟨nonroot, valid, parent, outside, free, rfl⟩ := relocateAt_eq_ok away
  obtain ⟨nonroot', valid', parent', outside', free', rfl⟩ := relocateAt_eq_ok back
  apply ext_tree
  · exact @PathTree.graft_graft _ _ _ _ d.tree front front name other nonroot parent outside free
      nonroot' parent' outside' free'
  · rfl

theorem relocateAt_ok {d d' : Drive} {source place : List GoString} {name : GoString}
    (result : d.relocateAt source place name = .ok d') :
    d.Movable source place name ∧ Relocated d d' source place name := by
  rcases d.relocateAt_cases source place name with ⟨movable, other, equal, relocated⟩ |
    ⟨_, e, equal⟩
  · rw [result] at equal
    cases equal
    exact ⟨movable, relocated⟩
  · rw [result] at equal
    contradiction

theorem removeAt_concat (d : Drive) (front : List GoString) (name : GoString) :
    ∃ d', d.removeAt (front ++ [name]) = .ok d' ∧ Removed d d' (front ++ [name]) := by
  rcases d.removeAt_cases (front ++ [name]) with ⟨_, removed⟩ | ⟨isRoot, _⟩
  · exact removed
  · simp at isRoot

/-! ## The calls of the driver -/

/-- Place and node of an id. -/
def locate (d : Drive) (id : Nat) : Except DriveError (List GoString × Node) :=
  match d.tree.table.entries.find? fun entry => entry.2.id = id with
  | some entry => .ok (entry.1, entry.2)
  | none => .error .notFound

theorem locate_eq {d : Drive} {place : List GoString} {node : Node}
    (found : d.lookup place = some node) : d.locate node.id = .ok (place, node) := by
  have member : (⟨place, node⟩ : Σ _ : List GoString, Node) ∈ d.tree.table.entries :=
    AList.mem_lookup_iff.mp found
  unfold locate
  split
  · rename_i entry foundEntry
    have sameId : entry.2.id = node.id := by simpa using List.find?_some foundEntry
    have foundOther : d.lookup entry.1 = some entry.2 :=
      AList.mem_lookup_iff.mpr (List.mem_of_find?_eq_some foundEntry)
    have samePlace := d.idsUnique _ _ _ _ foundOther found sameId
    rw [samePlace, found] at foundOther
    rw [samePlace, Option.some.inj foundOther]
  · rename_i nothing
    have different := List.find?_eq_none.mp nothing _ member
    simp at different

theorem lookup_of_locate {d : Drive} {id : Nat} {place : List GoString} {node : Node}
    (located : d.locate id = .ok (place, node)) : d.lookup place = some node ∧ node.id = id := by
  unfold locate at located
  split at located
  · rename_i entry foundEntry
    cases located
    have sameId : entry.2.id = id := by simpa using List.find?_some foundEntry
    exact ⟨AList.mem_lookup_iff.mpr (List.mem_of_find?_eq_some foundEntry), sameId⟩
  · contradiction

/-- The entries of a directory, in the order in which the drive lists them. -/
def entries (d : Drive) (place : List GoString) : List Entry :=
  (d.tree.children place).map fun child => child.2.entry child.1

def list (d : Drive) (id : Nat) : Except DriveError (List Entry) := do
  let (place, node) ← d.locate id
  if node.isDir then .ok (d.entries place) else .error .notDir

def makeDir (d : Drive) (parentId : Nat) (name : GoString) (now : Int) :
    Except DriveError Drive := do
  let (place, _) ← d.locate parentId
  d.addAt place name .dir now now

def put (d : Drive) (parentId : Nat) (name data : GoString) (modTime createTime : Int) :
    Except DriveError Drive := do
  let (place, _) ← d.locate parentId
  d.addAt place name (.file data) modTime createTime

def delete (d : Drive) (id : Nat) : Except DriveError Drive := do
  let (place, _) ← d.locate id
  d.removeAt place

def rename (d : Drive) (id : Nat) (newName : GoString) : Except DriveError Drive := do
  let (place, _) ← d.locate id
  d.relocateAt place place.dropLast newName

def move (d : Drive) (id dstParentId : Nat) : Except DriveError Drive := do
  let (place, _) ← d.locate id
  let (parent, _) ← d.locate dstParentId
  d.relocateAt place parent (place.getLast?.getD [])

/-- `Link` and the download it leads to: the bytes of a file. -/
def download (d : Drive) (id : Nat) : Except DriveError GoString := do
  let (_, node) ← d.locate id
  match node.body with
  | .file data => .ok data
  | .dir => .error .isDir

section

variable {d : Drive} {place : List GoString} {node : Node} (found : d.lookup place = some node)
include found

theorem list_eq (isFolder : node.isDir = true) : d.list node.id = .ok (d.entries place) := by
  rw [list, locate_eq found]
  exact if_pos isFolder

theorem makeDir_eq (name : GoString) (now : Int) :
    d.makeDir node.id name now = d.addAt place name .dir now now := by
  rw [makeDir, locate_eq found]
  rfl

theorem put_eq (name data : GoString) (modTime createTime : Int) :
    d.put node.id name data modTime createTime = d.addAt place name (.file data) modTime createTime := by
  rw [put, locate_eq found]
  rfl

theorem delete_eq : d.delete node.id = d.removeAt place := by
  rw [delete, locate_eq found]
  rfl

theorem rename_eq (newName : GoString) :
    d.rename node.id newName = d.relocateAt place place.dropLast newName := by
  rw [rename, locate_eq found]
  rfl

theorem move_eq {parent : List GoString} {parentNode : Node}
    (foundParent : d.lookup parent = some parentNode) :
    d.move node.id parentNode.id = d.relocateAt place parent (place.getLast?.getD []) := by
  rw [move, locate_eq found]
  simp only [bind, Except.bind]
  rw [locate_eq foundParent]

theorem download_eq {data : GoString} (isFile : node.body = .file data) :
    d.download node.id = .ok data := by
  rw [download, locate_eq found]
  simp only [bind, Except.bind, isFile]

end

theorem mem_entries_iff {d : Drive} {place : List GoString} {entry : Entry} :
    entry ∈ d.entries place ↔
      ∃ node, d.lookup (place ++ [entry.name]) = some node ∧ entry = node.entry entry.name := by
  rw [entries, List.mem_map]
  constructor
  · rintro ⟨⟨name, node⟩, member, rfl⟩
    exact ⟨node, PathTree.mem_children_iff.mp member, rfl⟩
  · rintro ⟨node, found, equal⟩
    exact ⟨(entry.name, node), PathTree.mem_children_iff.mpr found, equal.symm⟩

theorem entries_names_nodup (d : Drive) (place : List GoString) :
    ((d.entries place).map Entry.name).Nodup := by
  have names : (d.entries place).map Entry.name = (d.tree.children place).map Prod.fst := by
    rw [entries, List.map_map]
    rfl
  rw [names]
  exact d.tree.children_nodup place

end Drive

/-! ## Nodes that stay -/

/-- Every node is somewhere. -/
def KeepsNodes (before after : Drive) : Prop :=
  ∀ place node, before.lookup place = some node → ∃ place', after.lookup place' = some node

theorem KeepsNodes.of_eq {before after : Drive} (same : after = before) :
    KeepsNodes before after := by
  intro place node found
  exact ⟨place, same ▸ found⟩

theorem Drive.Relocated.keepsNodes {d d' : Drive} {source place : List GoString}
    {name : GoString} (free : d.lookup (place ++ [name]) = none)
    (relocated : Drive.Relocated d d' source place name) : KeepsNodes d d' := by
  intro old node found
  by_cases below : source <+: old
  · obtain ⟨rest, rfl⟩ := below
    exact ⟨place ++ [name] ++ rest, (relocated.target rest).trans found⟩
  · refine ⟨old, ?_⟩
    rw [relocated.other, if_neg below]
    · exact found
    · intro inTarget
      rw [d.lookup_none_below free inTarget] at found
      contradiction

end RoundSync.Kernel
