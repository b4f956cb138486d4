import RoundSync.Text.JavaString
import RoundSync.Text.Separated

/-!
# Document ids of the content provider

An id of `VirtualContentProvider` is one string: the root, the name of a remote,
a colon and the path of an item.  A client that was granted a tree may open
every document for which `isChildDocument` holds, which compares the two ids as
strings.  This file says for which trees and documents that comparison is the
containment of their paths.
-/

namespace RoundSync.Provider

open RoundSync.Text

/-! ## Ids -/

/-- `ROOT_DOC_PREFIX`. -/
def rootDocPrefix : JavaString :=
  "rclone/remotes/".toList

def getRootedDocumentId (unrootedDocumentId : JavaString) : JavaString :=
  if rootDocPrefix.isPrefixOf unrootedDocumentId then unrootedDocumentId
  else rootDocPrefix ++ unrootedDocumentId

def getRelativeItemPath (path : JavaString) : JavaString :=
  if path.head? ≠ some '/' then '/' :: path else path

def isChildDocument (parentDocumentId documentId : JavaString) : Bool :=
  parentDocumentId.isPrefixOf documentId

/-- A name of a remote; rclone admits neither a colon nor a slash in one. -/
structure RemoteName where
  text : JavaString
  noColon : ':' ∉ text
  noSlash : '/' ∉ text

/-- A path within a remote: names, with or without a final slash. -/
structure ItemPath where
  names : List JavaString
  nonempty : ∀ name ∈ names, name ≠ []
  separates : Separates '/' names
  closed : Bool

/-- The names joined by slashes. -/
def ItemPath.text (path : ItemPath) : JavaString :=
  ['/'].intercalate path.names ++ if path.closed then ['/'] else []

/-- What the provider makes ids of: a remote itself, or an item of it. -/
inductive Document where
  | remote (name : RemoteName)
  | item (name : RemoteName) (path : ItemPath)

namespace Document

def remoteName : Document → RemoteName
  | remote name | item name _ => name

def names : Document → List JavaString
  | remote _ => []
  | item _ path => path.names

def id : Document → JavaString
  | remote name => getRootedDocumentId (name.text ++ [':'])
  | item name path => getRootedDocumentId (name.text ++ ':' :: getRelativeItemPath path.text)

/-- The id ends with a slash. -/
def closed : Document → Bool
  | remote _ => false
  | item _ path => path.closed || path.names.isEmpty

/-! ## The comparison of ids -/

theorem separates (document : Document) : Separates '/' document.names := by
  cases document with
  | remote name => exact fun _ member => absurd member List.not_mem_nil
  | item name path => exact path.separates

theorem nonempty (document : Document) : ∀ name ∈ document.names, name ≠ [] := by
  cases document with
  | remote name => exact fun _ member => absurd member List.not_mem_nil
  | item name path => exact path.nonempty

/-- The names with the empty one that a final slash adds. -/
def parts (document : Document) : List JavaString :=
  if document.closed then document.names ++ [[]] else document.names

theorem parts_separates (document : Document) : Separates '/' document.parts := by
  unfold parts
  split
  · intro part member
    rcases List.mem_append.mp member with member | member
    · exact document.separates part member
    · rw [List.mem_singleton.mp member]
      exact List.not_mem_nil
  · exact document.separates

theorem slash_intercalate {names : List JavaString} (nonempty : names ≠ []) :
    '/' :: ['/'].intercalate names = rooted '/' names := by
  induction names with
  | nil => exact absurd rfl nonempty
  | cons name names ih =>
      cases names with
      | nil => simp [List.intercalate]
      | cons next names =>
          rw [rooted_cons, ← ih (List.cons_ne_nil _ _)]
          simp [List.intercalate]

theorem getRelativeItemPath_text (name : RemoteName) (path : ItemPath) :
    getRelativeItemPath path.text = rooted '/' (item name path).parts := by
  cases named : path.names with
  | nil =>
      cases ends : path.closed with
      | false => simp [ItemPath.text, parts, closed, names, getRelativeItemPath, named, ends]
      | true => simp [ItemPath.text, parts, closed, names, getRelativeItemPath, named, ends]
  | cons first others =>
      have relative : path.text.head? ≠ some '/' := by
        have some_head : first ≠ [] := path.nonempty first (by simp [named])
        have free : '/' ∉ first := path.separates first (by simp [named])
        cases first with
        | nil => exact absurd rfl some_head
        | cons head rest =>
            cases others with
            | nil =>
                simp only [ItemPath.text, named]
                intro isSlash
                simp [List.intercalate] at isSlash
                simp [isSlash] at free
            | cons next others =>
                simp only [ItemPath.text, named]
                intro isSlash
                simp [List.intercalate] at isSlash
                simp [isSlash] at free
      have slashed := slash_intercalate (List.cons_ne_nil first others)
      rw [getRelativeItemPath, if_pos relative, ItemPath.text, named, ← List.cons_append, slashed]
      cases ends : path.closed with
      | false => simp [parts, closed, names, named, ends]
      | true => simp [parts, closed, names, named, ends, rooted_append]

theorem not_isPrefix_unrooted (name : RemoteName) (rest : JavaString) :
    ¬rootDocPrefix <+: name.text ++ ':' :: rest := by
  intro isStart
  have slashed : '/' ∈ rootDocPrefix := by decide
  rcases List.prefix_or_prefix_of_prefix isStart (List.prefix_append name.text _) with
    longer | ⟨more, equal⟩
  · exact name.noSlash (longer.subset slashed)
  · cases more with
    | nil => exact name.noSlash (by simpa [← equal] using slashed)
    | cons first more =>
        rw [← equal, List.prefix_append_right_inj, List.cons_prefix_cons] at isStart
        have colon : ':' ∈ rootDocPrefix := by simp [← equal, isStart.1]
        exact absurd colon (by decide)

theorem id_eq (document : Document) :
    document.id =
      rootDocPrefix ++ (document.remoteName.text ++ ':' :: rooted '/' document.parts) := by
  have unrooted : ∀ (name : RemoteName) rest,
      getRootedDocumentId (name.text ++ ':' :: rest) =
        rootDocPrefix ++ (name.text ++ ':' :: rest) := by
    intro name rest
    rw [getRootedDocumentId, if_neg]
    rw [List.isPrefixOf_iff_prefix]
    exact not_isPrefix_unrooted name rest
  cases document with
  | remote name => exact unrooted name []
  | item name path =>
      rw [← getRelativeItemPath_text name path]
      exact unrooted name _

theorem isChildDocument_iff (tree document : Document) :
    isChildDocument tree.id document.id = true ↔
      tree.remoteName.text = document.remoteName.text ∧
        rooted '/' tree.parts <+: rooted '/' document.parts := by
  rw [isChildDocument, List.isPrefixOf_iff_prefix, id_eq, id_eq, List.prefix_append_right_inj]
  constructor
  · rintro ⟨rest, equal⟩
    rw [List.append_assoc, List.cons_append] at equal
    obtain ⟨sameName, tails⟩ :=
      append_sep_inj tree.remoteName.noColon document.remoteName.noColon equal
    exact ⟨sameName, rest, tails⟩
  · rintro ⟨sameName, rest, tails⟩
    exact ⟨rest, by rw [sameName, List.append_assoc, List.cons_append, tails]⟩

/-! ## Containment -/

/-- The document is the tree's own or lies below it. -/
def Within (document tree : Document) : Prop :=
  document.remoteName.text = tree.remoteName.text ∧ tree.names <+: document.names

/-- The tree is open for exactly the documents within it. -/
def GrantsWithin (tree document : Document) : Prop :=
  isChildDocument tree.id document.id = true ↔ document.Within tree

/-- At the depth of the tree's last name, not closed by a slash, the document
has a longer name that starts with it. -/
def Continues (tree document : Document) : Prop :=
  tree.closed = false ∧
    ∃ front last longer rest, tree.names = front ++ [last] ∧
      document.names = front ++ longer :: rest ∧ last <+: longer ∧ last ≠ longer

/-- The two ids differ in the final slash alone, and the tree has it. -/
def LacksSlash (tree document : Document) : Prop :=
  tree.closed = true ∧ document.closed = false ∧ tree.names = document.names

/-- Without the empty name of a final slash, the parts are the names. -/
theorem parts_of_closed {document : Document} (closed : document.closed = true) :
    document.parts = document.names ++ [[]] :=
  if_pos closed

theorem parts_of_open {document : Document} (isOpen : document.closed = false) :
    document.parts = document.names := by
  simp [parts, isOpen]

theorem closed_prefix_iff {tree document : Document} (closed : tree.closed = true) :
    rooted '/' tree.parts <+: rooted '/' document.parts ↔
      tree.names <+: document.names ∧ ¬LacksSlash tree document := by
  rw [parts_of_closed closed, rooted_append, rooted_cons, rooted_nil, List.append_nil,
    rooted_append_sep_prefix_iff tree.separates document.parts_separates]
  cases ends : document.closed with
  | false => simp [parts_of_open ends, LacksSlash, closed, ends]
  | true =>
      rw [parts_of_closed ends, List.prefix_concat_iff]
      have different : tree.names ≠ document.names ++ [[]] := by
        intro equal
        exact tree.nonempty [] (by simp [equal]) rfl
      simp [different, LacksSlash, ends]

/-- The parts go on with a nonempty name where the names do. -/
theorem parts_eq_append_iff {document : Document} {front : List JavaString}
    {longer : JavaString} (nonempty : longer ≠ []) :
    (∃ rest, document.parts = front ++ longer :: rest) ↔
      ∃ rest, document.names = front ++ longer :: rest := by
  cases ends : document.closed with
  | false => rw [parts_of_open ends]
  | true =>
      rw [parts_of_closed ends]
      constructor
      · rintro ⟨rest, equal⟩
        rcases List.eq_nil_or_concat rest with rfl | ⟨others, last, rfl⟩
        · exact absurd (List.append_inj_right' equal rfl) (by simp [nonempty.symm])
        · rw [List.concat_eq_append, ← List.cons_append, ← List.append_assoc] at equal
          exact ⟨others, List.append_inj_left' equal rfl⟩
      · rintro ⟨rest, equal⟩
        exact ⟨rest ++ [[]], by simp [equal]⟩

theorem open_prefix_iff {tree document : Document} (isOpen : tree.closed = false) :
    rooted '/' tree.parts <+: rooted '/' document.parts ↔
      tree.names <+: document.names ∨ Continues tree document := by
  rw [parts_of_open isOpen, rooted_prefix_iff tree.separates document.parts_separates]
  constructor
  · rintro (isRoot | ⟨front, last, longer, rest, treeNames, documentParts, shorter⟩)
    · exact .inl (isRoot ▸ List.nil_prefix)
    · have lastNonempty : last ≠ [] := tree.nonempty last (by simp [treeNames])
      have longerNonempty : longer ≠ [] := by
        rintro rfl
        exact lastNonempty (List.prefix_nil.mp shorter)
      obtain ⟨rest, documentNames⟩ := (parts_eq_append_iff longerNonempty).mp ⟨rest, documentParts⟩
      by_cases same : last = longer
      · left
        rw [treeNames, documentNames, same]
        exact ⟨rest, by simp⟩
      · exact .inr ⟨isOpen, front, last, longer, rest, treeNames, documentNames, shorter, same⟩
  · rintro (⟨rest, equal⟩ | ⟨-, front, last, longer, rest, treeNames, documentNames, shorter, -⟩)
    · rcases List.eq_nil_or_concat tree.names with isRoot | ⟨front, last, treeNames⟩
      · exact .inl isRoot
      · rw [List.concat_eq_append] at treeNames
        have lastNonempty : last ≠ [] := tree.nonempty last (by simp [treeNames])
        obtain ⟨rest, documentParts⟩ := (parts_eq_append_iff lastNonempty).mpr
          ⟨rest, by rw [← equal, treeNames, List.append_assoc, List.singleton_append]⟩
        exact .inr ⟨front, last, last, rest, treeNames, documentParts, List.prefix_rfl⟩
    · have lastNonempty : last ≠ [] := tree.nonempty last (by simp [treeNames])
      have longerNonempty : longer ≠ [] := by
        rintro rfl
        exact lastNonempty (List.prefix_nil.mp shorter)
      obtain ⟨rest, documentParts⟩ := (parts_eq_append_iff longerNonempty).mpr ⟨rest, documentNames⟩
      exact .inr ⟨front, last, longer, rest, treeNames, documentParts, shorter⟩

/-- Where the names part, none are a start of the others. -/
theorem Continues.not_prefix {tree document : Document} (continues : Continues tree document) :
    ¬tree.names <+: document.names := by
  obtain ⟨-, front, last, longer, rest, treeNames, documentNames, -, different⟩ := continues
  rw [treeNames, documentNames, List.prefix_append_right_inj, List.cons_prefix_cons]
  exact fun both => different both.1

/-- A tree is open for exactly the documents within it, unless the document's
name at the depth of the tree's last one is a longer name, or the tree's id has
a final slash that the id of the same document lacks. -/
theorem grantsWithin_iff (tree document : Document) :
    GrantsWithin tree document ↔
      (tree.remoteName.text = document.remoteName.text →
        ¬Continues tree document ∧ ¬LacksSlash tree document) := by
  rw [GrantsWithin, isChildDocument_iff, Within, eq_comm (a := document.remoteName.text)]
  by_cases same : tree.remoteName.text = document.remoteName.text
  · simp only [same, true_and, forall_const]
    cases ends : tree.closed with
    | false =>
        have noLack : ¬LacksSlash tree document := fun lacks => absurd lacks.1 (by simp [ends])
        rw [open_prefix_iff ends]
        constructor
        · exact fun law => ⟨fun continues => continues.not_prefix (law.mp (.inr continues)), noLack⟩
        · exact fun apart => ⟨fun either => either.resolve_right apart.1, .inl⟩
    | true =>
        have noContinuation : ¬Continues tree document :=
          fun continues => absurd continues.1 (by simp [ends])
        rw [closed_prefix_iff ends]
        constructor
        · intro law
          refine ⟨noContinuation, fun lacks => ?_⟩
          have within : tree.names <+: document.names := lacks.2.2 ▸ List.prefix_rfl
          exact (law.mpr within).2 lacks
        · exact fun apart => ⟨And.left, fun within => ⟨within, apart.2⟩⟩
  · simp [same]

/-- The document of an item with one name, on a remote called r. -/
def single (name : JavaString) (nonempty : name ≠ []) (noSlash : '/' ∉ name) : Document :=
  item ⟨['r'], by decide, by decide⟩
    { names := [name]
      nonempty := fun _ member => List.mem_singleton.mp member ▸ nonempty
      separates := fun _ member => List.mem_singleton.mp member ▸ noSlash
      closed := false }

/-- The tree of the folder `foo` is open for its sibling `foobar`. -/
theorem folder_grantsLongerSibling :
    ¬GrantsWithin (single "foo".toList (by decide) (by decide))
      (single "foobar".toList (by decide) (by decide)) := by
  intro law
  have within : ["foo".toList] <+: ["foobar".toList] := (law.mp (by decide)).2
  exact absurd within (by decide)

end Document

end RoundSync.Provider
