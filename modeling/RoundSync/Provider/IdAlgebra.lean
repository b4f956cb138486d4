import RoundSync.Provider.DocumentIds
import RoundSync.Text.Positions

/-!
# Slicing document ids

The helpers of `VirtualContentProvider` cut names and paths out of an id at its
colon and its slashes.  The ids are those that the helpers document: the name of
a remote, a colon and a path, with or without `remotes/` in front.  A helper
that indexes past the end of its argument throws, which is `none` here.
-/

namespace RoundSync.Provider

open RoundSync.Text
open RoundSync.Text.Java

/-! ## The helpers -/

def getRemoteName (documentId : JavaString) : Option JavaString :=
  let nameEnd := indexOf documentId ':' 0
  let nameStart := lastIndexOf documentId '/' (documentId.length - 1) + 1
  let nameStart := if nameStart > nameEnd then 0 else nameStart
  substring documentId nameStart nameEnd

def getRcloneFullPath (documentId : JavaString) : Option JavaString := do
  let remoteName ← getRemoteName documentId
  let pathStart := indexOf documentId ':' 0 + 1
  if pathStart < documentId.length then
    let pathStart := if documentId[pathStart.toNat]? = some '/' then pathStart + 1 else pathStart
    let path ← substring documentId pathStart documentId.length
    return remoteName ++ ':' :: path
  else return remoteName ++ [':']

/-- What `getChildName` and `getParent` have in common: the cut at the last slash
before the final one, or at the colon. -/
def cutLast (documentId : JavaString) (item closedItem top : Int → Option JavaString) :
    Option JavaString :=
  let lastSlash := lastIndexOf documentId '/' (documentId.length - 1)
  let endsWithSlash : Bool := documentId.length - 1 = lastSlash
  let lastSlash :=
    if endsWithSlash then lastIndexOf documentId '/' (lastSlash - 1) else lastSlash
  let colon := indexOf documentId ':' 0
  let firstSlash := indexOf documentId '/' colon
  if lastSlash > colon then
    if !endsWithSlash then item lastSlash
    else if firstSlash > colon ∧ firstSlash ≤ lastSlash then closedItem lastSlash
    else some documentId
  else if documentId.length - 1 ≤ colon then some documentId
  else top colon

def getChildName (documentId : JavaString) : Option JavaString :=
  cutLast documentId (fun lastSlash => substring documentId (lastSlash + 1) documentId.length)
    (fun lastSlash => substring documentId (lastSlash + 1) (documentId.length - 1))
    (fun colon => substring documentId (colon + 1) documentId.length)

def getParent (documentId : JavaString) : Option JavaString :=
  cutLast documentId (fun lastSlash => substring documentId 0 lastSlash)
    (fun lastSlash => substring documentId 0 lastSlash)
    (fun colon => substring documentId 0 (colon + 1))

def getTargetByChild (parentDocId childName : JavaString) : Option JavaString :=
  match parentDocId.getLast? with
  | none => none
  | some '/' => some (parentDocId ++ childName)
  | some _ => some (parentDocId ++ '/' :: childName)

/-- `getTargetDocumentId`; it throws on ids with the root in front. -/
def getTargetDocumentId (srcDocumentId targetParentDocId : JavaString) : Option JavaString :=
  if rootDocPrefix.isPrefixOf srcDocumentId || rootDocPrefix.isPrefixOf targetParentDocId then none
  else (getChildName srcDocumentId).bind (getTargetByChild targetParentDocId)

def getRclonePath (documentId : JavaString) : Option JavaString :=
  let idx := indexOf documentId ':' 0
  match documentId[(idx + 1).toNat]? with
  | none => none
  | some c =>
      let idx := if c = '/' then idx + 1 else idx
      substring documentId (idx + 1) documentId.length

/-! ## Cuts of a name and a path -/

/-- What `getRclonePath` leaves of a path. -/
def withoutLeading (path : JavaString) : JavaString :=
  if path.head? = some '/' then path.tail else path

/-- The slash that ends a closed path. -/
def closing (closed : Bool) : JavaString :=
  if closed then ['/'] else []

section Cuts

variable {front : JavaString} (noColon : ':' ∉ front)

include noColon

theorem indexOf_colon (path : JavaString) :
    indexOf (front ++ ':' :: path) ':' 0 = front.length := by
  simpa using indexOf_eq noColon [] path

theorem getRclonePath_eq {path : JavaString} (more : path ≠ []) :
    getRclonePath (front ++ ':' :: path) = some (withoutLeading path) := by
  obtain ⟨c, rest, rfl⟩ := List.exists_cons_of_ne_nil more
  have next : (front ++ ':' :: c :: rest)[((front.length : Int) + 1).toNat]? = some c := by
    have position : ((front.length : Int) + 1).toNat = front.length + 1 := by omega
    rw [position, List.getElem?_append_right (by omega)]
    simp
  unfold getRclonePath withoutLeading
  dsimp only
  rw [indexOf_colon noColon, next]
  dsimp only
  by_cases slash : c = '/'
  · rw [if_pos slash, if_pos (by rw [slash]; rfl), List.tail_cons]
    have split : front ++ ':' :: c :: rest = (front ++ [':', c]) ++ (rest ++ []) := by simp
    rw [split]
    apply substring_eq
    · simp
      omega
    · simp
      omega
  · rw [if_neg slash, if_neg (by simpa using slash)]
    have split : front ++ ':' :: c :: rest = (front ++ [':']) ++ (c :: rest ++ []) := by simp
    rw [split]
    apply substring_eq
    · simp
    · simp
      omega

theorem getRclonePath_remote : getRclonePath (front ++ [':']) = none := by
  unfold getRclonePath
  dsimp only
  rw [indexOf_colon noColon]
  have past : (front ++ [':'])[((front.length : Int) + 1).toNat]? = none := by
    rw [List.getElem?_eq_none_iff, List.length_append, List.length_singleton]
    omega
  rw [past]

variable {item closedItem top : Int → Option JavaString}

theorem cutLast_bare {path : JavaString} (noSlash : '/' ∉ path) :
    cutLast (front ++ ':' :: path) item closedItem top =
      if path = [] then some (front ++ [':']) else top front.length := by
  have free : '/' ∉ ':' :: path := by simpa using noSlash
  have length : ((front ++ ':' :: path).length : Int) = front.length + path.length + 1 := by
    simp only [List.length_append, List.length_cons]
    omega
  have before : lastIndexOf (front ++ ':' :: path) '/' ((front ++ ':' :: path).length - 1) <
      front.length := by
    have found := lastIndexOf_lt free front []
      ((front ++ ':' :: path).length - 1) (by simp)
    rwa [List.append_nil] at found
  unfold cutLast
  dsimp only
  rw [indexOf_colon noColon]
  generalize lastIndexOf (front ++ ':' :: path) '/' ((front ++ ':' :: path).length - 1) = last
    at before
  have notAtEnd : ¬((front ++ ':' :: path).length : Int) - 1 = last := by omega
  simp only [notAtEnd, decide_false, Bool.false_eq_true, if_false]
  rw [if_neg (by omega)]
  cases path with
  | nil =>
      rw [List.length_nil] at length
      rw [if_pos (by omega), if_pos rfl]
  | cons c rest =>
      rw [List.length_cons] at length
      rw [if_neg (by omega), if_neg (List.cons_ne_nil c rest)]

/-- A path with a slash in it, and a name after the last one. -/
theorem cutLast_open {above name : JavaString} (noSlash : '/' ∉ name) (nonempty : name ≠ []) :
    cutLast (front ++ ':' :: (above ++ '/' :: name)) item closedItem top =
      item (front.length + 1 + above.length) := by
  have some_length := List.length_pos_iff.mpr nonempty
  have word : front ++ ':' :: (above ++ '/' :: name) =
      (front ++ ':' :: above) ++ '/' :: name ++ [] := by simp
  have length : ((front ++ ':' :: (above ++ '/' :: name)).length : Int) =
      front.length + above.length + name.length + 2 := by
    simp only [List.length_append, List.length_cons]
    omega
  have last : lastIndexOf (front ++ ':' :: (above ++ '/' :: name)) '/'
      ((front ++ ':' :: (above ++ '/' :: name)).length - 1) = front.length + 1 + above.length := by
    conv_lhs => rw [length, word]
    rw [lastIndexOf_eq noSlash (front ++ ':' :: above) [] _]
    · simp only [List.length_append, List.length_cons]
      omega
    · simp only [List.length_append, List.length_cons]
      omega
  unfold cutLast
  dsimp only
  rw [indexOf_colon noColon, last]
  have notAtEnd : ¬((front ++ ':' :: (above ++ '/' :: name)).length : Int) - 1 =
      front.length + 1 + above.length := by
    omega
  simp only [notAtEnd, decide_false, Bool.false_eq_true, if_false]
  rw [if_pos (by omega)]
  rfl

/-- A path of one name and a slash. -/
theorem cutLast_closedTop {name : JavaString} (noSlash : '/' ∉ name) :
    cutLast (front ++ ':' :: (name ++ ['/'])) item closedItem top = top front.length := by
  have length : ((front ++ ':' :: (name ++ ['/'])).length : Int) =
      front.length + name.length + 2 := by
    simp only [List.length_append, List.length_cons, List.length_nil]
    omega
  have last : lastIndexOf (front ++ ':' :: (name ++ ['/'])) '/'
      ((front ++ ':' :: (name ++ ['/'])).length - 1) = front.length + 1 + name.length := by
    have word : front ++ ':' :: (name ++ ['/']) = (front ++ ':' :: name) ++ '/' :: [] ++ [] := by simp
    conv_lhs => rw [length, word]
    rw [lastIndexOf_eq List.not_mem_nil (front ++ ':' :: name) [] _]
    · simp only [List.length_append, List.length_cons]
      omega
    · simp only [List.length_append, List.length_cons, List.length_nil]
      omega
  have before : lastIndexOf (front ++ ':' :: (name ++ ['/'])) '/'
      (front.length + 1 + name.length - 1) < front.length := by
    have free : '/' ∉ ':' :: name := by simpa using noSlash
    have found := lastIndexOf_lt free front ['/'] (front.length + 1 + name.length - 1)
      (by simp only [List.length_cons]; omega)
    simpa using found
  unfold cutLast
  dsimp only
  rw [indexOf_colon noColon, last]
  have atEnd : ((front ++ ':' :: (name ++ ['/'])).length : Int) - 1 =
      front.length + 1 + name.length := by
    omega
  simp only [atEnd, decide_true, if_true]
  rw [if_neg (by omega), if_neg (by omega)]

/-- A path that ends with a slash, and has another one. -/
theorem cutLast_closed {above name : JavaString} (noSlash : '/' ∉ name) :
    cutLast (front ++ ':' :: (above ++ '/' :: (name ++ ['/']))) item closedItem top =
      closedItem (front.length + 1 + above.length) := by
  have length : ((front ++ ':' :: (above ++ '/' :: (name ++ ['/']))).length : Int) =
      front.length + above.length + name.length + 3 := by
    simp only [List.length_append, List.length_cons, List.length_nil]
    omega
  have last : lastIndexOf (front ++ ':' :: (above ++ '/' :: (name ++ ['/']))) '/'
      ((front ++ ':' :: (above ++ '/' :: (name ++ ['/']))).length - 1) =
        front.length + above.length + name.length + 2 := by
    have word : front ++ ':' :: (above ++ '/' :: (name ++ ['/'])) =
        (front ++ ':' :: (above ++ '/' :: name)) ++ '/' :: [] ++ [] := by simp
    conv_lhs => rw [length, word]
    rw [lastIndexOf_eq List.not_mem_nil (front ++ ':' :: (above ++ '/' :: name)) [] _]
    · simp only [List.length_append, List.length_cons]
      omega
    · simp only [List.length_append, List.length_cons, List.length_nil]
      omega
  have inner : lastIndexOf (front ++ ':' :: (above ++ '/' :: (name ++ ['/']))) '/'
      (front.length + above.length + name.length + 2 - 1) = front.length + 1 + above.length := by
    have word : front ++ ':' :: (above ++ '/' :: (name ++ ['/'])) =
        (front ++ ':' :: above) ++ '/' :: name ++ ['/'] := by simp
    rw [word, lastIndexOf_eq noSlash (front ++ ':' :: above) ['/'] _]
    · simp only [List.length_append, List.length_cons]
      omega
    · simp only [List.length_append, List.length_cons]
      omega
  have first : indexOf (front ++ ':' :: (above ++ '/' :: (name ++ ['/']))) '/' front.length >
        front.length ∧
      indexOf (front ++ ':' :: (above ++ '/' :: (name ++ ['/']))) '/' front.length ≤
        front.length + 1 + above.length := by
    have colon : '/' ∉ [':'] := by decide
    have bounds := indexOf_bounds colon front above (name ++ ['/'])
    simp only [List.singleton_append, List.length_singleton] at bounds
    omega
  unfold cutLast
  dsimp only
  rw [indexOf_colon noColon, last]
  have atEnd : ((front ++ ':' :: (above ++ '/' :: (name ++ ['/']))).length : Int) - 1 =
      front.length + above.length + name.length + 2 := by
    omega
  simp only [atEnd, decide_true, if_true, inner]
  rw [if_pos (by omega), if_pos first]
  rfl

/-- `getChildName` and `getParent` on the four forms of a path. -/
theorem cuts_bare {path : JavaString} (noSlash : '/' ∉ path) (nonempty : path ≠ []) :
    getChildName (front ++ ':' :: path) = some path ∧
      getParent (front ++ ':' :: path) = some (front ++ [':']) := by
  unfold getChildName getParent
  rw [cutLast_bare noColon noSlash, cutLast_bare noColon noSlash, if_neg nonempty, if_neg nonempty]
  constructor
  · have split : front ++ ':' :: path = (front ++ [':']) ++ (path ++ []) := by simp
    rw [split]
    apply substring_eq
    · simp
    · simp
      omega
  · have split : front ++ ':' :: path = [] ++ ((front ++ [':']) ++ path) := by simp
    rw [split]
    apply substring_eq
    · simp
    · simp

theorem cuts_open {above name : JavaString} (noSlash : '/' ∉ name) (nonempty : name ≠ []) :
    getChildName (front ++ ':' :: (above ++ '/' :: name)) = some name ∧
      getParent (front ++ ':' :: (above ++ '/' :: name)) = some (front ++ ':' :: above) := by
  unfold getChildName getParent
  rw [cutLast_open noColon noSlash nonempty, cutLast_open noColon noSlash nonempty]
  constructor
  · have split : front ++ ':' :: (above ++ '/' :: name) =
        (front ++ ':' :: (above ++ ['/'])) ++ (name ++ []) := by simp
    rw [split]
    apply substring_eq
    · simp
      omega
    · simp
      omega
  · have split : front ++ ':' :: (above ++ '/' :: name) =
        [] ++ ((front ++ ':' :: above) ++ '/' :: name) := by simp
    rw [split]
    apply substring_eq
    · simp
    · simp
      omega

theorem cuts_closedTop {name : JavaString} (noSlash : '/' ∉ name) :
    getChildName (front ++ ':' :: (name ++ ['/'])) = some (name ++ ['/']) ∧
      getParent (front ++ ':' :: (name ++ ['/'])) = some (front ++ [':']) := by
  unfold getChildName getParent
  rw [cutLast_closedTop noColon noSlash, cutLast_closedTop noColon noSlash]
  constructor
  · have split : front ++ ':' :: (name ++ ['/']) = (front ++ [':']) ++ (name ++ ['/'] ++ []) := by
      simp
    rw [split]
    apply substring_eq
    · simp
    · simp
      omega
  · have split : front ++ ':' :: (name ++ ['/']) = [] ++ ((front ++ [':']) ++ (name ++ ['/'])) := by
      simp
    rw [split]
    apply substring_eq
    · simp
    · simp

theorem cuts_closed {above name : JavaString} (noSlash : '/' ∉ name) :
    getChildName (front ++ ':' :: (above ++ '/' :: (name ++ ['/']))) = some name ∧
      getParent (front ++ ':' :: (above ++ '/' :: (name ++ ['/']))) =
        some (front ++ ':' :: above) := by
  unfold getChildName getParent
  rw [cutLast_closed noColon noSlash, cutLast_closed noColon noSlash]
  constructor
  · have split : front ++ ':' :: (above ++ '/' :: (name ++ ['/'])) =
        (front ++ ':' :: (above ++ ['/'])) ++ (name ++ ['/']) := by simp
    rw [split]
    apply substring_eq
    · simp
      omega
    · simp
      omega
  · have split : front ++ ':' :: (above ++ '/' :: (name ++ ['/'])) =
        [] ++ ((front ++ ':' :: above) ++ '/' :: (name ++ ['/'])) := by simp
    rw [split]
    apply substring_eq
    · simp
    · simp
      omega

/-- The cuts of an item whose name a slash precedes. -/
theorem cuts_item {parent name : JavaString} (noSlash : '/' ∉ name) (nonempty : name ≠ [])
    (closed : Bool) :
    getChildName (front ++ ':' :: (parent ++ '/' :: (name ++ closing closed))) = some name ∧
      getParent (front ++ ':' :: (parent ++ '/' :: (name ++ closing closed))) =
        some (front ++ ':' :: parent) := by
  cases closed with
  | false =>
      rw [closing, if_neg (by decide), List.append_nil]
      exact cuts_open noColon noSlash nonempty
  | true => exact cuts_closed noColon noSlash

theorem getParent_top {name : JavaString} (noSlash : '/' ∉ name) (nonempty : name ≠ [])
    (closed : Bool) :
    getParent (front ++ ':' :: (name ++ closing closed)) = some (front ++ [':']) := by
  cases closed with
  | false =>
      rw [closing, if_neg (by decide), List.append_nil]
      exact (cuts_bare noColon noSlash nonempty).2
  | true => exact (cuts_closedTop noColon noSlash).2

end Cuts

/-! ## Ids -/

/-- A path in an id: it may start with a slash, and only a path with a name in it
ends with one. -/
structure IdPath extends ItemPath where
  leading : Bool
  closedNamed : closed = true → names ≠ []

def IdPath.text (path : IdPath) : JavaString :=
  (if path.leading then ['/'] else []) ++ path.toItemPath.text

/-- An id as the helpers document it, with or without `remotes/` in front. -/
structure DocumentId where
  inRemotes : Bool
  remote : RemoteName
  path : IdPath

def DocumentId.front (id : DocumentId) : JavaString :=
  (if id.inRemotes then "remotes/".toList else []) ++ id.remote.text

def DocumentId.text (id : DocumentId) : JavaString :=
  id.front ++ ':' :: id.path.text

theorem DocumentId.front_noColon (id : DocumentId) : ':' ∉ id.front := by
  have noColon := id.remote.noColon
  unfold DocumentId.front
  cases id.inRemotes with
  | false => simpa using noColon
  | true =>
      have free : ':' ∉ "remotes/".toList := by decide
      simp only [if_true, List.mem_append, not_or]
      exact ⟨free, noColon⟩

/-- The names of a path, joined, do not start with a slash. -/
theorem head?_intercalate (path : ItemPath) {above : List JavaString}
    (listed : ∀ name ∈ above, name ∈ path.names) (nonempty : above ≠ []) (rest : JavaString) :
    (['/'].intercalate above ++ rest).head? ≠ some '/' := by
  obtain ⟨first, others, rfl⟩ := List.exists_cons_of_ne_nil nonempty
  have member := listed first List.mem_cons_self
  have starts : ∃ more, ['/'].intercalate (first :: others) ++ rest = first ++ more := by
    cases others with
    | nil => exact ⟨rest, by simp⟩
    | cons next others =>
        exact ⟨_, by rw [List.intercalate_cons_cons, List.append_assoc, List.append_assoc]⟩
  obtain ⟨more, starts⟩ := starts
  rw [starts, List.head?_append_of_ne_nil _ (path.nonempty first member)]
  intro isSlash
  exact path.separates first member (List.mem_of_head? isSlash)

theorem withoutLeading_eq {word : JavaString} (relative : word.head? ≠ some '/') (leading : Bool) :
    withoutLeading ((if leading then ['/'] else []) ++ word) = word := by
  cases leading with
  | false => simp [withoutLeading, relative]
  | true => simp [withoutLeading]

/-- A path of one name that no slash precedes. -/
theorem IdPath.text_single {path : IdPath} {last : JavaString} (names : path.names = [last])
    (plain : path.leading = false) : path.text = last ++ closing path.closed := by
  simp [IdPath.text, ItemPath.text, closing, names, plain]

/-- The path of an item whose name a slash precedes: its parent, and where that
leads to with another name. -/
theorem IdPath.text_item {path : IdPath} {above : List JavaString} {last : JavaString}
    (names : path.names = above ++ [last]) (preceded : path.leading = true ∨ above ≠ []) :
    ∃ parent, path.text = parent ++ '/' :: (last ++ closing path.closed) ∧
      parent.getLast? ≠ some '/' ∧
      ∀ child, withoutLeading (parent ++ '/' :: child) = ['/'].intercalate (above ++ [child]) := by
  by_cases top : above = []
  · have leading : path.leading = true := preceded.resolve_right fun more => more top
    refine ⟨[], ?_, by simp, ?_⟩
    · simp [IdPath.text, ItemPath.text, closing, names, top, leading]
    · intro child
      simp [withoutLeading, top]
  · refine ⟨(if path.leading then ['/'] else []) ++ ['/'].intercalate above, ?_, ?_, ?_⟩
    · rw [IdPath.text, ItemPath.text, names, intercalate_append '/' top (List.cons_ne_nil _ _)]
      simp [closing]
    · obtain ⟨front, name, rfl⟩ := List.eq_nil_or_concat above |>.resolve_left top
      have member : name ∈ path.names := by simp [names]
      have nonempty := path.nonempty name member
      have free := path.separates name member
      obtain ⟨before, ends⟩ : ∃ before, ['/'].intercalate (front ++ [name]) = before ++ name := by
        cases front with
        | nil => exact ⟨[], by simp⟩
        | cons first front =>
            refine ⟨['/'].intercalate (first :: front) ++ ['/'], ?_⟩
            rw [intercalate_append '/' (List.cons_ne_nil _ _) (List.cons_ne_nil _ _)]
            simp
      rw [List.concat_eq_append, ends, ← List.append_assoc, List.getLast?_append,
        List.getLast?_eq_some_getLast nonempty, Option.some_or]
      intro isSlash
      exact free (Option.some.inj isSlash ▸ List.getLast_mem nonempty)
    · intro child
      have listed : ∀ name ∈ above, name ∈ path.names := by
        intro name member
        rw [names]
        exact List.mem_append_left _ member
      rw [List.append_assoc, withoutLeading_eq (head?_intercalate path.toItemPath listed top _),
        intercalate_append '/' top (List.cons_ne_nil _ _)]
      simp

/-! ## The laws -/

/-- Equal up to a final slash. -/
def SamePath (first second : JavaString) : Prop :=
  first = second ∨ first ++ ['/'] = second ∨ first = second ++ ['/']

/-- The document that the parent and the child name of an id lead to. -/
def rejoined (documentId : JavaString) : Option JavaString := do
  let parent ← getParent documentId
  let child ← getChildName documentId
  getTargetByChild parent child

/-- The laws that the helpers owe to each other. -/
structure Lawful (id : DocumentId) : Prop where
  childName : ∃ child, getChildName id.text = some child ∧ '/' ∉ child ∧
    ∀ last ∈ id.path.names.getLast?, child = last
  target : ∃ target path own, rejoined id.text = some target ∧ getRclonePath target = some path ∧
    getRclonePath id.text = some own ∧ SamePath path own
  remoteName : getRemoteName id.text = some id.remote.text

theorem getRemoteName_iff (id : DocumentId) :
    getRemoteName id.text = some id.remote.text ↔
      (id.inRemotes = true → '/' ∉ id.path.text) := by
  have colon : indexOf id.text ':' 0 = id.front.length := indexOf_colon id.front_noColon _
  have whole : substring id.text 0 id.front.length = some id.front := by
    have split : id.text = [] ++ (id.front ++ ':' :: id.path.text) := rfl
    rw [split]
    apply substring_eq
    · simp
    · simp
  rcases exists_lastPart '/' id.path.text with free | ⟨above, name, split, free⟩
  · refine iff_of_true ?_ fun _ => free
    have freeRest : '/' ∉ id.remote.text ++ ':' :: id.path.text := by
      simpa using ⟨id.remote.noSlash, free⟩
    unfold getRemoteName
    dsimp only
    rw [colon]
    cases rooted : id.inRemotes with
    | false =>
        have front : id.front = id.remote.text := by simp [DocumentId.front, rooted]
        have none : lastIndexOf id.text '/' (id.text.length - 1) = -1 := by
          apply lastIndexOf_of_notMem
          rw [DocumentId.text, front]
          exact freeRest
        rw [none, if_neg (by omega), ← front]
        exact whole
    | true =>
        have text : id.text = "remotes".toList ++ '/' :: (id.remote.text ++ ':' :: id.path.text) := by
          simp [DocumentId.text, DocumentId.front, rooted]
        have length : id.front.length = 8 + id.remote.text.length := by
          simp [DocumentId.front, rooted]
          omega
        have found : lastIndexOf id.text '/' (id.text.length - 1) = 7 := by
          have last := lastIndexOf_eq freeRest "remotes".toList [] (id.text.length - 1)
            (by rw [text, List.length_append, List.length_cons]; omega)
          rw [List.append_nil, ← text] at last
          exact last
        rw [found, if_neg (by omega)]
        have split : id.text = "remotes/".toList ++ (id.remote.text ++ ':' :: id.path.text) := by
          simp [text]
        rw [split]
        apply substring_eq
        · rfl
        · rw [length]
          simp
  · have found : lastIndexOf id.text '/' (id.text.length - 1) =
        id.front.length + 1 + above.length := by
      have text : id.text = (id.front ++ ':' :: above) ++ '/' :: name := by
        simp [DocumentId.text, split]
      have last := lastIndexOf_eq free (id.front ++ ':' :: above) []
        (id.text.length - 1) (by rw [text, List.length_append, List.length_cons]; omega)
      rw [List.append_nil, ← text] at last
      rw [last, List.length_append, List.length_cons]
      omega
    have cut : getRemoteName id.text = some id.front := by
      unfold getRemoteName
      dsimp only
      rw [colon, found, if_pos (by omega), whole]
    rw [cut, split]
    cases rooted : id.inRemotes with
    | false => simp [DocumentId.front, rooted]
    | true =>
        simp only [DocumentId.front, rooted, if_true, forall_const, Option.some.injEq]
        refine iff_of_false ?_ (by simp)
        intro same
        have lengths := congrArg List.length same
        rw [List.length_append] at lengths
        exact absurd lengths (by simp)

theorem samePath_withoutLeading {path : JavaString} (nonempty : path ≠ []) (closed : Bool) :
    SamePath (withoutLeading path) (withoutLeading (path ++ closing closed)) := by
  obtain ⟨c, rest, rfl⟩ := List.exists_cons_of_ne_nil nonempty
  unfold withoutLeading closing
  cases closed with
  | false => exact .inl (by simp)
  | true =>
      right
      left
      by_cases slash : c = '/'
      · simp [slash]
      · simp [slash]

theorem getTargetByChild_open (front parent child : JavaString)
    (isOpen : parent.getLast? ≠ some '/') :
    getTargetByChild (front ++ ':' :: parent) child =
      some (front ++ ':' :: (parent ++ '/' :: child)) := by
  have last : ∃ c, (front ++ ':' :: parent).getLast? = some c ∧ c ≠ '/' := by
    rw [List.getLast?_append, List.getLast?_cons]
    cases ends : parent.getLast? with
    | none => exact ⟨':', by simp, by decide⟩
    | some c =>
        refine ⟨c, by simp, ?_⟩
        rintro rfl
        exact isOpen ends
  obtain ⟨c, found, notSlash⟩ := last
  unfold getTargetByChild
  rw [found]
  split
  · contradiction
  · rename_i isSlash
    exact absurd (Option.some.inj isSlash) notSlash
  · simp

/-- The laws of an item whose name a slash precedes. -/
theorem item_laws {id : DocumentId} {above : List JavaString} {last : JavaString}
    (names : id.path.names = above ++ [last])
    (preceded : id.path.leading = true ∨ above ≠ []) :
    getChildName id.text = some last ∧
      ∃ target path own, rejoined id.text = some target ∧ getRclonePath target = some path ∧
        getRclonePath id.text = some own ∧ SamePath path own := by
  obtain ⟨parent, text, isOpen, _⟩ := id.path.text_item names preceded
  have member : last ∈ id.path.names := by simp [names]
  have nonempty := id.path.nonempty last member
  have free := id.path.separates last member
  have cuts : getChildName id.text = some last ∧
      getParent id.text = some (id.front ++ ':' :: parent) := by
    rw [DocumentId.text, text]
    exact cuts_item id.front_noColon free nonempty id.path.closed
  have more : parent ++ '/' :: last ≠ [] := by simp
  refine ⟨cuts.1, _, _, _, ?_, getRclonePath_eq id.front_noColon more,
    getRclonePath_eq id.front_noColon (by rw [text]; simp), ?_⟩
  · simp only [rejoined, cuts.1, cuts.2, Option.bind_eq_bind, Option.bind_some]
    exact getTargetByChild_open id.front parent last isOpen
  · have same := samePath_withoutLeading more id.path.closed
    rw [List.append_assoc, List.cons_append, ← text] at same
    exact same

/-- The laws of a single name with no slash around it. -/
theorem bare_laws {id : DocumentId} {last : JavaString} (names : id.path.names = [last])
    (plain : id.path.leading = false) (isOpen : id.path.closed = false) :
    getChildName id.text = some last ∧
      ∃ target path own, rejoined id.text = some target ∧ getRclonePath target = some path ∧
        getRclonePath id.text = some own ∧ SamePath path own := by
  have member : last ∈ id.path.names := by simp [names]
  have nonempty := id.path.nonempty last member
  have free := id.path.separates last member
  have text : id.path.text = last := by
    rw [IdPath.text_single names plain, isOpen, closing, if_neg (by decide), List.append_nil]
  have cuts := cuts_bare id.front_noColon free nonempty
  rw [← text, ← DocumentId.text, text] at cuts
  refine ⟨cuts.1, _, _, _, ?_, getRclonePath_eq id.front_noColon (List.cons_ne_nil '/' last),
    getRclonePath_eq id.front_noColon (by rw [text]; exact nonempty), ?_⟩
  · simp only [rejoined, cuts.1, cuts.2, Option.bind_eq_bind, Option.bind_some]
    exact getTargetByChild_open id.front [] last (by simp)
  · left
    have relative : last.head? ≠ some '/' := by
      intro isSlash
      exact free (List.mem_of_head? isSlash)
    rw [text, withoutLeading, withoutLeading, if_pos (by rfl), if_neg relative, List.tail_cons]

/-- The helpers obey their laws on exactly the ids of items, but for a single
name with a slash behind it and none before it; and where the id starts with
`remotes/`, only if the path has no slash. -/
theorem lawful_iff (id : DocumentId) :
    Lawful id ↔
      id.path.names ≠ [] ∧
        (id.path.closed = true → id.path.leading = true ∨ 2 ≤ id.path.names.length) ∧
        (id.inRemotes = true → '/' ∉ id.path.text) := by
  constructor
  · intro lawful
    obtain ⟨child, childEq, childFree, _⟩ := lawful.childName
    obtain ⟨target, path, own, _, _, ownEq, _⟩ := lawful.target
    refine ⟨?_, ?_, (getRemoteName_iff id).mp lawful.remoteName⟩
    · intro isRoot
      have isOpen : id.path.closed = false := by
        by_contra closed
        exact id.path.closedNamed (by simpa using closed) isRoot
      cases leading : id.path.leading with
      | false =>
          have text : id.path.text = [] := by
            simp [IdPath.text, ItemPath.text, isRoot, leading, isOpen]
          rw [DocumentId.text, text, getRclonePath_remote id.front_noColon] at ownEq
          cases ownEq
      | true =>
          have text : id.path.text = [] ++ ['/'] := by
            simp [IdPath.text, ItemPath.text, isRoot, leading, isOpen]
          rw [DocumentId.text, text, (cuts_closedTop id.front_noColon List.not_mem_nil).1] at childEq
          rw [← Option.some.inj childEq] at childFree
          exact childFree (by simp)
    · intro closed
      by_contra apart
      rw [not_or, Bool.not_eq_true] at apart
      have nonempty := id.path.closedNamed closed
      obtain ⟨last, names⟩ := List.length_eq_one_iff.mp
        (show id.path.names.length = 1 by have := List.length_pos_iff.mpr nonempty; omega)
      have free := id.path.separates last (by simp [names])
      have text : id.path.text = last ++ ['/'] := by
        rw [IdPath.text_single names apart.1, closed, closing, if_pos rfl]
      rw [DocumentId.text, text, (cuts_closedTop id.front_noColon free).1] at childEq
      rw [← Option.some.inj childEq] at childFree
      exact childFree (by simp)
  · rintro ⟨nonempty, spaced, named⟩
    obtain ⟨above, last, names⟩ := List.eq_nil_or_concat id.path.names |>.resolve_left nonempty
    rw [List.concat_eq_append] at names
    have laws : getChildName id.text = some last ∧
        ∃ target path own, rejoined id.text = some target ∧ getRclonePath target = some path ∧
          getRclonePath id.text = some own ∧ SamePath path own := by
      by_cases preceded : id.path.leading = true ∨ above ≠ []
      · exact item_laws names preceded
      · rw [not_or, Bool.not_eq_true, not_not] at preceded
        obtain ⟨plain, rfl⟩ := preceded
        have isOpen : id.path.closed = false := by
          by_contra closed
          rcases spaced (by simpa using closed) with leading | two
          · rw [plain] at leading
            cases leading
          · rw [names] at two
            exact absurd two (by simp)
        exact bare_laws names plain isOpen
    refine ⟨⟨last, laws.1, ?_, ?_⟩, laws.2, (getRemoteName_iff id).mpr named⟩
    · exact id.path.separates last (by simp [names])
    · intro other isLast
      rw [names, List.getLast?_concat] at isLast
      exact Option.some.inj isLast

/-- The id of the example in the source, `remotes/dropbox:/sheet.xls`. -/
def sheet : DocumentId where
  inRemotes := true
  remote := ⟨"dropbox".toList, by decide, by decide⟩
  path :=
    { names := ["sheet.xls".toList]
      nonempty := by decide
      separates := by unfold Separates; decide
      closed := false
      leading := true
      closedNamed := by decide }

/-- The remote of the example comes out as `remotes/dropbox`. -/
theorem sheet_not_lawful : ¬∀ id : DocumentId, id.inRemotes = true → Lawful id := by
  intro lawful
  have named := (lawful sheet rfl).remoteName
  revert named
  decide

/-! ## Renaming -/

/-- The arguments of `RcloneRcd.moveFile`. -/
structure MoveFile where
  srcRemote : JavaString
  srcPath : JavaString
  dstRemote : JavaString
  dstPath : JavaString
  deriving DecidableEq

def getNoRootId (rootedDocumentId : JavaString) : Option JavaString :=
  if rootedDocumentId.length < rootDocPrefix.length then none
  else some (rootedDocumentId.drop rootDocPrefix.length)

/-- What `renameDocument` asks rclone for. -/
def renameDocument (documentId displayName : JavaString) : Option MoveFile := do
  let remoteName ← (getNoRootId documentId).bind getRemoteName
  let srcPath ← getRclonePath documentId
  let targetDocId ← (getParent documentId).bind (getTargetByChild · displayName)
  let dstPath ← getRclonePath targetDocId
  return ⟨remoteName, srcPath, remoteName, dstPath⟩

/-- On the ids of the provider itself, which have the whole root in front, a
rename addresses the object of the id and its new name beside it. -/
theorem renameDocument_addresses (remote : RemoteName) (path : IdPath) {above : List JavaString}
    {last : JavaString} (names : path.names = above ++ [last]) (displayName : JavaString) :
    renameDocument (rootDocPrefix ++ (remote.text ++ ':' :: path.text)) displayName =
      some ⟨remote.text, path.toItemPath.text, remote.text,
        ['/'].intercalate (above ++ [displayName])⟩ := by
  let id : DocumentId := ⟨false, remote, path⟩
  have noRoot : getNoRootId (rootDocPrefix ++ (remote.text ++ ':' :: path.text)) =
      some id.text := by
    rw [getNoRootId, if_neg (by simp), List.drop_left]
    rfl
  have named : getRemoteName id.text = some remote.text :=
    (getRemoteName_iff id).mpr nofun
  have noColon : ':' ∉ rootDocPrefix ++ remote.text := by
    rw [List.mem_append, not_or]
    exact ⟨by decide, remote.noColon⟩
  have member : last ∈ path.names := by simp [names]
  have nonempty := path.nonempty last member
  have free := path.separates last member
  have own : withoutLeading path.text = path.toItemPath.text :=
    withoutLeading_eq (head?_intercalate path.toItemPath (fun _ listed => listed)
      (List.ne_nil_of_mem member) _) _
  have moves : ∀ parent : JavaString, path.text ≠ [] → parent.getLast? ≠ some '/' →
      getParent ((rootDocPrefix ++ remote.text) ++ ':' :: path.text) =
        some ((rootDocPrefix ++ remote.text) ++ ':' :: parent) →
      renameDocument ((rootDocPrefix ++ remote.text) ++ ':' :: path.text) displayName =
        some ⟨remote.text, path.toItemPath.text, remote.text,
          withoutLeading (parent ++ '/' :: displayName)⟩ := by
    intro parent more isOpen isParent
    rw [← List.append_assoc] at noRoot
    simp only [renameDocument, noRoot, named, getRclonePath_eq noColon more, own, isParent,
      getTargetByChild_open _ parent displayName isOpen,
      getRclonePath_eq noColon (List.append_ne_nil_of_right_ne_nil _ (List.cons_ne_nil _ _)),
      Option.bind_eq_bind, Option.bind_some, Option.pure_def]
  rw [← List.append_assoc]
  by_cases preceded : path.leading = true ∨ above ≠ []
  · obtain ⟨parent, text, isOpen, leads⟩ := path.text_item names preceded
    rw [moves parent (by simp [text]) isOpen (by rw [text]; exact (cuts_item noColon free nonempty _).2),
      leads]
  · rw [not_or, Bool.not_eq_true, not_not] at preceded
    obtain ⟨plain, rfl⟩ := preceded
    have text := IdPath.text_single names plain
    rw [moves [] (by simp [text, nonempty]) (by simp)
      (by rw [text]; exact getParent_top noColon free nonempty _)]
    simp [withoutLeading]

theorem renameDocument_sheet :
    renameDocument (rootDocPrefix ++ (sheet.remote.text ++ ':' :: sheet.path.text))
        "b.xls".toList =
      some ⟨sheet.remote.text, sheet.path.toItemPath.text, sheet.remote.text, "b.xls".toList⟩ := by
  have names : sheet.path.names = [] ++ ["sheet.xls".toList] := rfl
  exact renameDocument_addresses sheet.remote sheet.path names "b.xls".toList

/-! ## Moving -/

/-- The path of a directory as rclone takes it, for ids with a path. -/
theorem getRcloneFullPath_eq {id : DocumentId} (more : id.path.text ≠ []) :
    getRcloneFullPath id.text =
      (getRemoteName id.text).map (· ++ ':' :: withoutLeading id.path.text) := by
  have colon : indexOf id.text ':' 0 = id.front.length := indexOf_colon id.front_noColon _
  obtain ⟨c, rest, text⟩ := List.exists_cons_of_ne_nil more
  have inside : (id.front.length : Int) + 1 < id.text.length := by
    rw [DocumentId.text, text]
    simp only [List.length_append, List.length_cons]
    omega
  unfold getRcloneFullPath
  cases named : getRemoteName id.text with
  | none => rfl
  | some remoteName =>
      have path := getRclonePath_eq id.front_noColon more
      rw [← DocumentId.text, getRclonePath] at path
      dsimp only at path
      rw [colon] at path
      simp only [Option.bind_eq_bind, Option.bind_some, Option.pure_def, Option.map_some, colon,
        if_pos inside]
      split at path
      · cases path
      · rename_i next found
        have start : (if id.text[((id.front.length : Int) + 1).toNat]? = some '/' then
            (id.front.length : Int) + 1 + 1 else id.front.length + 1) =
              (if next = '/' then (id.front.length : Int) + 1 else id.front.length) + 1 := by
          rw [found]
          by_cases slash : next = '/'
          · rw [if_pos slash, if_pos (congrArg some slash)]
          · rw [if_neg slash, if_neg fun same => slash (Option.some.inj same)]
        rw [start, path]
        rfl

/-- A document keeps its name under the parent that `copyDocument` and
`moveDocument` put it into. -/
theorem getTargetDocumentId_eq {id : DocumentId} {above : List JavaString} {last : JavaString}
    (names : id.path.names = above ++ [last])
    (preceded : id.path.leading = true ∨ above ≠ []) (shortId : id.inRemotes = false)
    (front : JavaString) {parent : JavaString} (isOpen : parent.getLast? ≠ some '/')
    (shortParent : ¬rootDocPrefix <+: front ++ ':' :: parent) :
    getTargetDocumentId id.text (front ++ ':' :: parent) =
      some (front ++ ':' :: (parent ++ '/' :: last)) := by
  have notRooted : rootDocPrefix.isPrefixOf id.text = false := by
    rw [Bool.eq_false_iff, ne_eq, List.isPrefixOf_iff_prefix]
    have front_eq : id.front = id.remote.text := by simp [DocumentId.front, shortId]
    rw [DocumentId.text, front_eq]
    exact Document.not_isPrefix_unrooted id.remote id.path.text
  have parentNotRooted : rootDocPrefix.isPrefixOf (front ++ ':' :: parent) = false := by
    rwa [Bool.eq_false_iff, ne_eq, List.isPrefixOf_iff_prefix]
  rw [getTargetDocumentId, notRooted, parentNotRooted, if_neg (by decide),
    (item_laws names preceded).1]
  exact getTargetByChild_open front parent last isOpen

end RoundSync.Provider
