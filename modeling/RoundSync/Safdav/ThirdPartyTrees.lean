import RoundSync.Safdav.DocumentTrees
import RoundSync.Text.Separated

/-!
# Trees of other providers

The class `DocumentsContractAccess` and the requests of the server on a provider
whose URIs say nothing of the hierarchy: the document of a path is looked for by
listing one directory after the other.  What the provider does when the granted
document itself is deleted, and when an output stream is opened on a tree URI,
is a parameter.
-/

namespace RoundSync.Safdav.ThirdParty

open RoundSync.Text RoundSync.Tree

/-! ## The walk -/

/-- The items of one directory are compared with a name; the last one that has
it is entered. -/
def enter (tree : DocumentTree) (subFolder : List JavaString) (directory : JavaString) :
    List JavaString :=
  (tree.children subFolder).foldl
    (fun entered item => if directory = item.1 then subFolder ++ [item.1] else entered) subFolder

def treeWalkCompat (tree : DocumentTree) (mediaPath : JavaString) :
    Except Failure (List JavaString) :=
  .ok ((mediaPath.splitOn '/').foldl
    (fun subFolder directory =>
      if directory = [] then subFolder else enter tree subFolder directory) [])

/-! ## Operations -/

/-- The document itself is what the query answers. -/
def readMeta (tree : DocumentTree) (mediaPath : JavaString) :
    Except Failure (List JavaString × Document) := do
  let subFolder ← treeWalkCompat tree mediaPath
  match tree.lookup subFolder with
  | some document => .ok (subFolder, document)
  | none => .error .itemNotFound

/-- `DocumentFile.fromTreeUri` has no parent file. -/
def getParent : Except Failure (List JavaString) :=
  .error .nullPointer

def createDirectory (tree : DocumentTree) (mediaPath : JavaString) :
    Except Failure DocumentTree :=
  match readMeta tree mediaPath with
  | .error .itemNotFound => do
      let _ ← getParent
      .ok tree
  | .error failure => .error failure
  | .ok _ => .error .itemExists

def createFile (tree : DocumentTree) : Except Failure DocumentTree := do
  let _ ← getParent
  .ok tree

def moveItem (tree : DocumentTree) (source : JavaString) : Except Failure DocumentTree := do
  let _ ← treeWalkCompat tree source
  let _ ← getParent
  .ok tree

section

variable (deleteRoot : DocumentTree → Except Failure DocumentTree)
  (writeFile : DocumentTree → JavaString → List UInt8 → Except Failure DocumentTree)

def deleteItem (tree : DocumentTree) (mediaPath : JavaString) : Except Failure DocumentTree := do
  let document ← treeWalkCompat tree mediaPath
  if nonroot : document ≠ [] then .ok (tree.cut document nonroot) else deleteRoot tree

/-! ## Requests -/

def onDelete (tree : DocumentTree) (mediaPath : JavaString) :
    Except Failure Response × DocumentTree :=
  match deleteItem deleteRoot tree mediaPath with
  | .ok left => (.ok .noContent, left)
  | .error .fileAccessError => (.ok .internalError, tree)
  | .error .itemNotFound => (.ok .notFound, tree)
  | .error failure => (.error failure, tree)

def onMkCol (tree : DocumentTree) (mediaPath : JavaString) :
    Except Failure Response × DocumentTree :=
  match createDirectory tree mediaPath with
  | .ok left => (.ok .created, left)
  | .error .itemNotFound => (.ok .notFound, tree)
  | .error .itemExists => (.ok .notAllowed, tree)
  | .error failure => (.error failure, tree)

def onPut (tree : DocumentTree) (mediaPath : JavaString) (content : List UInt8) :
    Except Failure Response × DocumentTree :=
  let written :=
    match readMeta tree mediaPath with
    | .ok _ => writeFile tree mediaPath content
    | .error .itemNotFound => createFile tree
    | .error failure => .error failure
  match written with
  | .ok left => (.ok .created, left)
  | .error .nullPointer => (.error .nullPointer, tree)
  | .error _ => (.ok .internalError, tree)

end

def onMove (tree : DocumentTree) (source target : JavaString) (noOverwrite : Bool) :
    Except Failure Response × DocumentTree :=
  match readMeta tree target with
  | .error .itemNotFound =>
      match moveItem tree source with
      | .ok left => (.ok .created, left)
      | .error failure => (.error failure, tree)
  | .error failure => (.error failure, tree)
  | .ok _ =>
      if noOverwrite then (.ok .preconditionFailed, tree)
      else
        match moveItem tree source with
        | .ok left => (.ok .noContent, left)
        | .error failure => (.error failure, tree)

/-! ## What the walk reaches -/

/-- Names are unique in a directory, so that it does not matter which item is
compared last. -/
theorem enter_eq (tree : DocumentTree) (subFolder : List JavaString) (directory : JavaString) :
    enter tree subFolder directory =
      if (tree.lookup (subFolder ++ [directory])).isSome then subFolder ++ [directory]
      else subFolder := by
  have scanned : ∀ (items : List (JavaString × Document)) (entered : List JavaString),
      items.foldl
        (fun entered item => if directory = item.1 then subFolder ++ [item.1] else entered)
          entered =
        if directory ∈ items.map Prod.fst then subFolder ++ [directory] else entered := by
    intro items
    induction items with
    | nil => exact fun entered => rfl
    | cons item items ih =>
        intro entered
        rw [List.foldl_cons, ih, List.map_cons]
        by_cases same : directory = item.1
        · rw [if_pos same, ← same, if_pos List.mem_cons_self, ite_self]
        · rw [if_neg same]
          exact if_congr (by simp [same]) rfl rfl
  have listed : directory ∈ (tree.children subFolder).map Prod.fst ↔
      (tree.lookup (subFolder ++ [directory])).isSome = true := by
    rw [List.mem_map, Option.isSome_iff_exists]
    constructor
    · rintro ⟨⟨name, document⟩, member, rfl⟩
      exact ⟨document, PathTree.mem_children_iff.mp member⟩
    · rintro ⟨document, found⟩
      exact ⟨(directory, document), PathTree.mem_children_iff.mpr found, rfl⟩
  rw [enter, scanned, if_congr listed rfl rfl]

/-- The walk over the names of a path. -/
def walk (tree : DocumentTree) (names : List Name) : List JavaString :=
  names.foldl (fun subFolder name => enter tree subFolder name.val) []

/-- The path below the granted tree. -/
def mediaPath (names : List Name) : JavaString :=
  rooted '/' (names.map Subtype.val)

theorem treeWalkCompat_mediaPath (tree : DocumentTree) (names : List Name) :
    treeWalkCompat tree (mediaPath names) = .ok (walk tree names) := by
  have separates : Separates '/' (names.map Subtype.val) := by
    intro part member
    obtain ⟨name, -, rfl⟩ := List.mem_map.mp member
    exact name.property.2
  have entered : ∀ (names : List Name) (subFolder : List JavaString),
      (names.map Subtype.val).foldl
        (fun subFolder directory =>
          if directory = [] then subFolder else enter tree subFolder directory) subFolder =
        names.foldl (fun subFolder name => enter tree subFolder name.val) subFolder := by
    intro names
    induction names with
    | nil => exact fun subFolder => rfl
    | cons name names ih =>
        intro subFolder
        rw [List.map_cons, List.foldl_cons, List.foldl_cons, if_neg name.property.1, ih]
  rw [treeWalkCompat, mediaPath, splitOn_rooted separates, List.foldl_cons, if_pos rfl, entered]
  rfl

/-- The walk always ends at a document of the tree. -/
theorem exists_lookup_walk (tree : DocumentTree) (names : List Name) :
    ∃ document, tree.lookup (walk tree names) = some document := by
  induction names using List.reverseRecOn with
  | nil =>
      obtain ⟨document, found, -⟩ := tree.root
      exact ⟨document, found⟩
  | append_singleton names name ih =>
      rw [walk, List.foldl_append, List.foldl_cons, List.foldl_nil, enter_eq]
      split
      case isTrue entered => exact Option.isSome_iff_exists.mp entered
      case isFalse => exact ih

/-- A path that exists is walked to its end. -/
theorem walk_of_lookup {tree : DocumentTree} {names : List Name} {document : Document}
    (found : tree.lookup (names.map Subtype.val) = some document) :
    walk tree names = names.map Subtype.val := by
  induction names using List.reverseRecOn generalizing document with
  | nil => rfl
  | append_singleton names name ih =>
      rw [List.map_append, List.map_cons, List.map_nil] at found ⊢
      obtain ⟨parent, foundParent⟩ := tree.lookup_above (List.prefix_append _ _) found
      have reached := ih foundParent
      rw [walk] at reached
      rw [walk, List.foldl_append, List.foldl_cons, List.foldl_nil, reached, enter_eq, found,
        Option.isSome_some, if_pos rfl]

theorem readMeta_mediaPath (tree : DocumentTree) (names : List Name) :
    ∃ document, tree.lookup (walk tree names) = some document ∧
      readMeta tree (mediaPath names) = .ok (walk tree names, document) := by
  obtain ⟨document, found⟩ := exists_lookup_walk tree names
  refine ⟨document, found, ?_⟩
  rw [readMeta, treeWalkCompat_mediaPath]
  simp only [bind, Except.bind, found]

/-- A deletion removes what the walk has reached. -/
theorem onDelete_mediaPath (deleteRoot : DocumentTree → Except Failure DocumentTree)
    (tree : DocumentTree) (names : List Name) (nonroot : walk tree names ≠ []) :
    onDelete deleteRoot tree (mediaPath names) =
      (.ok .noContent, tree.cut (walk tree names) nonroot) := by
  have deleted : deleteItem deleteRoot tree (mediaPath names) =
      .ok (tree.cut (walk tree names) nonroot) := by
    rw [deleteItem, treeWalkCompat_mediaPath]
    simp only [bind, Except.bind, dif_pos nonroot]
  rw [onDelete, deleted]

/-- Nothing can be created: there always is an item. -/
theorem onMkCol_mediaPath (tree : DocumentTree) (names : List Name) :
    onMkCol tree (mediaPath names) = (.ok .notAllowed, tree) := by
  obtain ⟨document, -, read⟩ := readMeta_mediaPath tree names
  have exists_ : createDirectory tree (mediaPath names) = .error .itemExists := by
    rw [createDirectory, read]
  rw [onMkCol, exists_]

/-- Nothing is ever moved. -/
theorem onMove_keeps (tree : DocumentTree) (source target : JavaString) (noOverwrite : Bool) :
    (onMove tree source target noOverwrite).2 = tree := by
  have stopped : moveItem tree source = .error .nullPointer := rfl
  unfold onMove
  rw [stopped]
  split
  · rfl
  · rfl
  · split <;> rfl

/-! ## The addressed item -/

/-- The walk reaches exactly the addressed item, and no request finds or touches
another one in its place. -/
structure FindsAddressed (deleteRoot : DocumentTree → Except Failure DocumentTree)
    (tree : DocumentTree) (names : List Name) : Prop where
  reaches : ∀ document, tree.lookup (names.map Subtype.val) = some document →
    treeWalkCompat tree (mediaPath names) = .ok (names.map Subtype.val)
  missing : tree.lookup (names.map Subtype.val) = none →
    treeWalkCompat tree (mediaPath names) = .error .itemNotFound
  deleteKeeps : tree.lookup (names.map Subtype.val) = none →
    (onDelete deleteRoot tree (mediaPath names)).2 = tree
  moveKeeps : tree.lookup (names.map Subtype.val) = none → ∀ target noOverwrite,
    (onMove tree (mediaPath names) target noOverwrite).2 = tree
  putFindsNothing : tree.lookup (names.map Subtype.val) = none → ∀ item,
    readMeta tree (mediaPath names) ≠ .ok item
  mkColFindsNothing : tree.lookup (names.map Subtype.val) = none →
    (onMkCol tree (mediaPath names)).1 ≠ .ok .notAllowed

/-- For every tree and every path below it: exactly the addressed item is found
when and only when there is one. -/
theorem finds_addressed_iff (deleteRoot : DocumentTree → Except Failure DocumentTree)
    (tree : DocumentTree) (names : List Name) :
    FindsAddressed deleteRoot tree names ↔
      ∃ document, tree.lookup (names.map Subtype.val) = some document := by
  constructor
  · intro finds
    by_contra absent
    have nothing : tree.lookup (names.map Subtype.val) = none :=
      Option.eq_none_iff_forall_ne_some.mpr fun document found => absent ⟨document, found⟩
    have signalled := finds.missing nothing
    rw [treeWalkCompat_mediaPath] at signalled
    contradiction
  · rintro ⟨document, found⟩
    have exists_ : tree.lookup (names.map Subtype.val) ≠ none := by
      rw [found]
      exact Option.some_ne_none document
    constructor
    · intro _ _
      rw [treeWalkCompat_mediaPath, walk_of_lookup found]
    all_goals exact fun nothing => absurd nothing exists_

/-- A granted directory with one directory in it. -/
def oneDirectory : DocumentTree :=
  emptyTree.plant [] (text "a") .directory emptyTree_isInner rfl

/-- Deleting a file that is not there deletes its directory. -/
theorem missingFile_deletes_directory :
    let path : List Name := [⟨text "a", by decide⟩, ⟨text "x", by decide⟩]
    oneDirectory.lookup [text "a"] = some .directory ∧
      (onDelete .ok oneDirectory (mediaPath path)).2.lookup [text "a"] = none ∧
      ¬FindsAddressed .ok oneDirectory path := by
  have reached : walk oneDirectory [⟨text "a", by decide⟩, ⟨text "x", by decide⟩] =
      [text "a"] := by
    decide
  refine ⟨by decide, ?_, fun finds => ?_⟩
  · rw [onDelete_mediaPath _ _ _ (by rw [reached]; simp), PathTree.lookup_cut, if_pos]
    rw [reached]
  · have absent : oneDirectory.lookup [text "a", text "x"] = none := by decide
    have signalled := finds.missing absent
    rw [treeWalkCompat_mediaPath] at signalled
    contradiction

end RoundSync.Safdav.ThirdParty
