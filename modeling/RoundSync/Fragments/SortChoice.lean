import RoundSync.Fragments.RemoteFragment

/-!
# The chosen sort order

The sort dialog sorts the shown content and stores the order in a field.  From then on
every listing that goes to the screen is sorted by `sortDirectory`, which reads the
field and writes it again.  The two fragments and the file picker have a copy each.
-/

namespace RoundSync.Fragments

open RoundSync.Data
open RoundSync.Text
open RoundSync.Transition
open RoundSync.RecyclerViewAdapters
open RoundSync.Explorer (CharacterTables Item Sorting DeviceFile NoneCrossed compareDirectoryFirst)

/-! ## One sort -/

/-- The order that the dialog asks for. -/
structure Choice where
  sortBy : SortBy
  ascending : Bool

namespace Choice

variable (choice : Choice)

def sorting : Sorting :=
  (sortSelectedCase choice.sortBy choice.ascending).1

/-- What the dialog leaves in the field. -/
def sortOrder : Int :=
  (sortSelectedCase choice.sortBy choice.ascending).2

end Choice

section Sorts

variable {α : Type} (tables : CharacterTables) (toItem : α → Item) (choice : Choice)

def compareBy (sorting : Sorting) (one other : α) : Ordering :=
  sorting.compareItems tables (toItem one) (toItem other)

/-- Sorted as the dialog asked. -/
def InOrder (items : List α) : Prop :=
  items.Pairwise (compareBy tables toItem choice.sorting · · ≠ .gt)

/-- No two directories and no two files differ in what is sorted by, apart from names. -/
def AllTie (items : List α) : Prop :=
  ∀ one ∈ items, ∀ other ∈ items, (toItem one).isDir = (toItem other).isDir →
    choice.sorting.numberOf (toItem one) = choice.sorting.numberOf (toItem other)

/-- The natural order of the names that are compared is lawful. -/
def NamesLawful (items : List α) : Prop :=
  ∀ dir, NoneCrossed tables (choice.sorting.namesAmong dir (items.map toItem))

variable {tables toItem choice}

theorem contract_of_namesLawful {items : List α} (lawful : NamesLawful tables toItem choice items) :
    Contract (compareBy tables toItem choice.sorting) items := by
  have : TiedCmp (compareBy tables toItem choice.sorting) := TiedCmp.on toItem
  rw [contract_iff]
  intro a aIn b bIn c cIn circle
  have noCircle := (choice.sorting.noCircle_items_iff tables).mpr lawful
  exact noCircle _ (List.mem_map_of_mem aIn) _ (List.mem_map_of_mem bIn) _
    (List.mem_map_of_mem cIn) ⟨circle.one, circle.two, circle.three⟩

/-- The field holds what was chosen or, as `sortDirectory` leaves it, the other
direction. -/
def Follows (choice : Choice) (sortOrder : Int) : Prop :=
  sortOrder = choice.sortOrder ∨ sortOrder = (sortDirectoryCase choice.sortOrder).2

theorem sortDirectoryCase_choice : (sortDirectoryCase choice.sortOrder).1 = choice.sorting := by
  rcases choice with ⟨sortBy, ascending⟩
  cases sortBy with
  | name => cases ascending <;> rfl
  | date => cases ascending <;> rfl
  | size => cases ascending <;> rfl

theorem Follows.sortDirectory {sortOrder : Int} (follows : Follows choice sortOrder) :
    Follows choice (sortDirectoryCase sortOrder).2 := by
  rcases follows with rfl | rfl
  · exact Or.inr rfl
  · apply Or.inl
    rcases choice with ⟨sortBy, ascending⟩
    cases sortBy with
    | name => cases ascending <;> rfl
    | date => cases ascending <;> rfl
    | size => cases ascending <;> rfl

/-- Sorting by name leaves the field as it is. -/
theorem Follows.of_name {sortOrder : Int} (follows : Follows choice sortOrder)
    (byName : choice.sortBy = .name) : sortOrder = choice.sortOrder := by
  rcases choice with ⟨sortBy, ascending⟩
  cases byName
  rcases follows with rfl | rfl
  · rfl
  · cases ascending <;> rfl

/-- The two directions agree on entries that tie. -/
theorem compareBy_opposite {one other : α}
    (tie : (toItem one).isDir = (toItem other).isDir →
      choice.sorting.numberOf (toItem one) = choice.sorting.numberOf (toItem other)) :
    compareBy tables toItem (sortDirectoryCase (sortDirectoryCase choice.sortOrder).2).1 one other =
      compareBy tables toItem choice.sorting one other := by
  generalize oppositeEq : (sortDirectoryCase (sortDirectoryCase choice.sortOrder).2).1 = opposite
  have names : ∀ a b, opposite.compareNames tables (opposite.nameOf a) (opposite.nameOf b) =
      choice.sorting.compareNames tables (choice.sorting.nameOf a) (choice.sorting.nameOf b) := by
    intro a b
    subst oppositeEq
    rcases choice with ⟨sortBy, ascending⟩
    cases sortBy with
    | name => cases ascending <;> rfl
    | date => cases ascending <;> rfl
    | size => cases ascending <;> rfl
  have numbers : ∀ a b, choice.sorting.numberOf a = choice.sorting.numberOf b →
      opposite.numberOf a = opposite.numberOf b := by
    intro a b same
    subst oppositeEq
    rcases choice with ⟨sortBy, ascending⟩
    cases sortBy with
    | name => cases ascending <;> rfl
    | date =>
      cases ascending with
      | false => exact Int.neg_inj.mp same
      | true => exact congrArg Neg.neg same
    | size =>
      cases ascending with
      | false =>
        show (if a.isDir then 0 else a.size) = (if b.isDir then 0 else b.size)
        have same : (if a.isDir then 0 else -a.size) = (if b.isDir then 0 else -b.size) := same
        split_ifs at same ⊢ <;> omega
      | true =>
        show (if a.isDir then 0 else -a.size) = (if b.isDir then 0 else -b.size)
        have same : (if a.isDir then 0 else a.size) = (if b.isDir then 0 else b.size) := same
        split_ifs at same ⊢ <;> omega
  rw [compareBy, compareBy, Sorting.compareItems_eq, Sorting.compareItems_eq]
  simp only [compareLex, compareOn, names]
  cases kinds : compareDirectoryFirst (toItem one).isDir (toItem other).isDir with
  | lt => rfl
  | gt => rfl
  | eq =>
    have same := tie (Sorting.compareDirectoryFirst_eq_iff.mp kinds)
    rw [numbers _ _ same, same]
    simp

/-- What an event needs that sorts a listing: the field still holds the chosen direction,
or both directions agree on the listing; and the comparator is lawful on it. -/
structure Keeps (tables : CharacterTables) (toItem : α → Item) (choice : Choice)
    (sortOrder : Int) (items : List α) : Prop where
  direction : choice.sortBy = .name ∨ sortOrder = choice.sortOrder ∨ AllTie toItem choice items
  lawful : NamesLawful tables toItem choice items

theorem Keeps.sort (sorter : ListSort α) {sortOrder : Int} {items : List α}
    (follows : Follows choice sortOrder) (keeps : Keeps tables toItem choice sortOrder items) :
    ∃ sorted, sorter.sort (compareBy tables toItem (sortDirectoryCase sortOrder).1) items =
        some sorted ∧
      sorted.Perm items ∧ InOrder tables toItem choice sorted := by
  have contract := contract_of_namesLawful keeps.lawful
  by_cases same : sortOrder = choice.sortOrder
  · rw [same, sortDirectoryCase_choice]
    exact sorter.sorts contract
  · have other : sortOrder = (sortDirectoryCase choice.sortOrder).2 :=
      follows.resolve_left same
    have ties : AllTie toItem choice items := by
      rcases keeps.direction with byName | intact | ties
      · exact absurd (follows.of_name byName) same
      · exact absurd intact same
      · exact ties
    have agrees : ∀ one ∈ items, ∀ another ∈ items,
        compareBy tables toItem (sortDirectoryCase sortOrder).1 one another =
          compareBy tables toItem choice.sorting one another := by
      intro one oneIn another anotherIn
      rw [other]
      exact compareBy_opposite (ties one oneIn another anotherIn)
    rcases sorter.sorts (contract.congr agrees) with ⟨sorted, result, perm, ordered⟩
    refine ⟨sorted, result, perm, ?_⟩
    refine ordered.imp_of_mem ?_
    intro one another oneIn anotherIn notBehind
    rwa [← agrees one (perm.mem_iff.mp oneIn) another (perm.mem_iff.mp anotherIn)]

end Sorts

/-! ## The screen -/

section Screens

variable {platform : Platform} {choice : Choice} {fragment next : Fragment} {now : Int}

/-- Entries sorted as the dialog asked. -/
abbrev SortedItems (platform : Platform) (choice : Choice) (items : List FileItem) : Prop :=
  InOrder platform.tables comparedItem choice items

/-- The silent refresh of a list view keeps entries where they stand: no entry may be there
twice, and those that stay have to be in order with what the listing says of them. -/
structure Refreshable (platform : Platform) (choice : Choice) (files listing : List FileItem) :
    Prop where
  distinct : (listing.map FileItem.identity).Nodup
  shownDistinct : (files.map FileItem.identity).Nodup
  staysSorted : SortedItems platform choice
    ((KeyedLists.retainAll FileItem.identity files listing).map
      (KeyedLists.refreshed FileItem.identity listing))

theorem tied_compare (platform : Platform) (choice : Choice) :
    TiedCmp (compareBy platform.tables comparedItem choice.sorting) :=
  TiedCmp.on comparedItem

/-- A listing does not care for the order in which it is looked up. -/
theorem Refreshable.of_perm {files listing sorted : List FileItem}
    (refreshable : Refreshable platform choice files listing) (perm : sorted.Perm listing) :
    Refreshable platform choice files sorted := by
  have sortedDistinct : (sorted.map FileItem.identity).Nodup :=
    (perm.map FileItem.identity).nodup_iff.mpr refreshable.distinct
  have contains : ∀ item, KeyedLists.Contains FileItem.identity sorted item ↔
      KeyedLists.Contains FileItem.identity listing item := by
    intro item
    exact (perm.map FileItem.identity).mem_iff
  have stays : KeyedLists.retainAll FileItem.identity files sorted =
      KeyedLists.retainAll FileItem.identity files listing := by
    apply List.filter_congr
    intro item _
    exact decide_eq_decide.mpr (contains item)
  refine ⟨sortedDistinct, refreshable.shownDistinct, ?_⟩
  have fresh : (KeyedLists.retainAll FileItem.identity files listing).map
        (KeyedLists.refreshed FileItem.identity sorted) =
      (KeyedLists.retainAll FileItem.identity files listing).map
        (KeyedLists.refreshed FileItem.identity listing) := by
    apply List.map_congr_left
    intro item member
    have contained := of_decide_eq_true (List.mem_filter.mp member).2
    obtain ⟨found, foundMember, same⟩ := List.mem_map.mp contained
    rw [KeyedLists.refreshed_of_mem refreshable.distinct foundMember same.symm,
      KeyedLists.refreshed_of_mem sortedDistinct (perm.mem_iff.mpr foundMember) same.symm]
  rw [stays, fresh]
  exact refreshable.staysSorted

/-- A silent refresh with a sorted listing ends sorted. -/
theorem updateData_sorted {explorer : Explorer} {listing sorted : List FileItem}
    (lawful : NamesLawful platform.tables comparedItem choice listing)
    (perm : sorted.Perm listing) (inOrder : SortedItems platform choice sorted)
    (refreshable : explorer.viewMode = .list → Refreshable platform choice explorer.files listing) :
    ∃ next, explorer.updateData sorted = some next ∧ SortedItems platform choice next.files := by
  cases view : explorer.viewMode with
  | grid => exact ⟨_, Explorer.updateData_grid view, inOrder⟩
  | list =>
    have tied := tied_compare platform choice
    have contract := (contract_of_namesLawful lawful).of_perm perm
    have fresh := (refreshable view).of_perm perm
    cases empty : sorted.isEmpty with
    | true =>
      have result : explorer.updateData sorted = some { explorer with files := [] } := by
        rw [Explorer.updateData, view]
        simp only [empty, if_true]
      exact ⟨_, result, List.Pairwise.nil⟩
    | false =>
      obtain ⟨removed, looped, removedFiles⟩ :=
        @Explorer.foldlM_removeItem_files explorer sorted _ rfl
      obtain ⟨files, inserted, filesSorted⟩ := KeyedLists.insertAll_sorted contract inOrder
        fresh.distinct fresh.shownDistinct fresh.staysSorted
      refine ⟨{ removed with
        files := files.map (KeyedLists.refreshed FileItem.identity sorted) }, ?_, filesSorted⟩
      rw [Explorer.updateData, view]
      simp only [empty, Bool.false_eq_true, if_false, looped, Option.bind_eq_bind,
        Option.bind_some, removedFiles, inserted]

/-- The choice is still known, and what is shown and what is held are sorted by it. -/
structure Chosen (platform : Platform) (choice : Choice) (fragment : Fragment) : Prop where
  follows : Follows choice fragment.sortOrder
  shown : SortedItems platform choice fragment.adapter.files
  content : SortedItems platform choice fragment.directoryObject.directoryContent

namespace Fragment

/-- The content of a path in the cache. -/
def cachedContent (fragment : Fragment) (path : JavaString) : Option (List FileItem) :=
  (fragment.directoryObject.directoryCache path).map Cached.content

/-- The listing that an event hands to `sortDirectory`, if any. -/
def toSort (fragment : Fragment) : Event → Option (List FileItem)
  | .directoryClicked fileItem => fragment.cachedContent fileItem.getPath
  | .backPressed =>
    if fragment.adapter.isInSelectMode ∨ fragment.isSearchMode then none
    else fragment.pathStack.head?.bind fragment.cachedContent
  | .crumbClicked index =>
    fragment.crumbs[index]?.bind fun path =>
      if fragment.directoryObject.currentDir = path then none else fragment.cachedContent path
  | .fetchDelivered =>
    match fragment.tasks with
    | ⟨silentFetch, some fileItems⟩ :: _ =>
      if fileItems.isNone ∧ silentFetch then none else some (fileItems.getD [])
    | _ => none
  | _ => none

/-- The listing that an event hands to the silent refresh of a list view, if any. -/
def toRefresh (fragment : Fragment) : Event → Option (List FileItem)
  | .fetchDelivered =>
    match fragment.tasks with
    | ⟨true, some (some listing)⟩ :: _ =>
      if fragment.adapter.viewMode = .list ∧ ¬(fragment.isSearchMode ∧ fragment.searchString.isSome)
      then some listing else none
    | _ => none
  | _ => none

theorem leaveSearch_frame (platform : Platform) (fragment : Fragment) :
    (fragment.leaveSearch platform).directoryObject = fragment.directoryObject ∧
      (fragment.leaveSearch platform).sortOrder = fragment.sortOrder := by
  simp only [leaveSearch, searchClicked, searchDirContent]
  split_ifs
  all_goals exact ⟨rfl, rfl⟩

theorem sortOrder_setCurrentDirectoryPath {path : JavaString} :
    (fragment.setCurrentDirectoryPath platform path).sortOrder = fragment.sortOrder := by
  rw [setCurrentDirectoryPath, loadDisplayMode]
  split
  · rfl
  · rfl

theorem directoryCache_setCurrentDirectoryPath {path : JavaString} :
    (fragment.setCurrentDirectoryPath platform path).directoryObject.directoryCache =
      fragment.directoryObject.directoryCache := by
  rw [setCurrentDirectoryPath, loadDisplayMode]
  split
  · rfl
  · rfl

end Fragment

/-- Fetches, refreshes and navigation, and what changes no listing: everything but a new
choice and the cancelling of a move. -/
def Event.Navigates : Event → Prop
  | .cancelMoveClicked => False
  | .sortChosen _ _ => False
  | _ => True

/-- What an event needs for the choice to be kept. -/
def KeepsChoice (platform : Platform) (choice : Choice) (state : Option Fragment)
    (event : Event × Int) : Prop :=
  ∀ fragment ∈ state, event.1.Navigates ∧
    (∀ listing ∈ fragment.toSort event.1,
      Keeps platform.tables comparedItem choice fragment.sortOrder listing) ∧
    ∀ listing ∈ fragment.toRefresh event.1,
      Refreshable platform choice fragment.adapter.files listing

namespace Chosen

theorem newData {data : List FileItem} (chosen : Chosen platform choice fragment)
    (sorted : SortedItems platform choice data) :
    Chosen platform choice (fragment.newData data) :=
  ⟨chosen.follows, sorted, chosen.content⟩

theorem clearAdapter (chosen : Chosen platform choice fragment) :
    Chosen platform choice fragment.clearAdapter :=
  chosen.newData List.Pairwise.nil

theorem loadDisplayMode {path : JavaString} (chosen : Chosen platform choice fragment) :
    Chosen platform choice (fragment.loadDisplayMode platform path) := by
  rw [Fragment.loadDisplayMode]
  split
  · exact ⟨chosen.follows, chosen.shown, chosen.content⟩
  · exact chosen

theorem setCurrentDirectoryPath {path : JavaString} (chosen : Chosen platform choice fragment) :
    Chosen platform choice (fragment.setCurrentDirectoryPath platform path) := by
  apply loadDisplayMode
  exact ⟨chosen.follows, chosen.shown, List.Pairwise.nil⟩

theorem searchDirContent {search : JavaString} (chosen : Chosen platform choice fragment) :
    Chosen platform choice (fragment.searchDirContent platform search) := by
  simp only [Fragment.searchDirContent]
  split_ifs
  · exact ⟨chosen.follows, chosen.shown, chosen.content⟩
  · exact ⟨chosen.follows, chosen.content, chosen.content⟩
  · exact ⟨chosen.follows, chosen.shown, chosen.content⟩
  · exact ⟨chosen.follows, chosen.content.filter _, chosen.content⟩
  · exact ⟨chosen.follows, chosen.content.filter _, chosen.content⟩

theorem searchClicked (chosen : Chosen platform choice fragment) :
    Chosen platform choice (fragment.searchClicked platform) := by
  rw [Fragment.searchClicked]
  split
  · have searched := @searchDirContent platform choice fragment [] chosen
    exact ⟨searched.follows, searched.shown, searched.content⟩
  · exact ⟨chosen.follows, chosen.shown, chosen.content⟩

theorem leaveSearch (chosen : Chosen platform choice fragment) :
    Chosen platform choice (fragment.leaveSearch platform) := by
  rw [Fragment.leaveSearch]
  split
  · exact chosen.searchClicked
  · exact chosen

theorem startFetch {silentFetch : Bool} (chosen : Chosen platform choice fragment) :
    Chosen platform choice (fragment.startFetch silentFetch) :=
  ⟨chosen.follows, chosen.shown, chosen.content⟩

/-- A listing that is sorted. -/
theorem sortDirectory (follows : Follows choice fragment.sortOrder)
    (keeps : Keeps platform.tables comparedItem choice fragment.sortOrder
      fragment.directoryObject.directoryContent) :
    ∃ sorted, fragment.sortDirectory platform now = some { fragment with
        sortOrder := (sortDirectoryCase fragment.sortOrder).2
        directoryObject := fragment.directoryObject.setContent now sorted } ∧
      sorted.Perm fragment.directoryObject.directoryContent ∧
      SortedItems platform choice sorted := by
  obtain ⟨sorted, result, perm, inOrder⟩ := keeps.sort platform.sorter follows
  refine ⟨sorted, ?_, perm, inOrder⟩
  rw [Fragment.sortDirectory, Fragment.sortContent]
  exact Option.map_eq_some_iff.mpr ⟨sorted, result, rfl⟩

/-- A directory from the cache. -/
theorem showCached {path : JavaString} {cached : Cached}
    (follows : Follows choice fragment.sortOrder)
    (found : fragment.directoryObject.directoryCache path = some cached)
    (keeps : Keeps platform.tables comparedItem choice fragment.sortOrder cached.content) :
    ∃ next, fragment.showCached platform now path = some next ∧ Chosen platform choice next := by
  generalize restoredEq : Fragment.loadDisplayMode platform path { fragment with
    directoryObject := { fragment.directoryObject with
      currentDir := path
      directoryContent := cached.content } } = restored
  have order : restored.sortOrder = fragment.sortOrder := by
    rw [← restoredEq, Fragment.loadDisplayMode]
    split
    · rfl
    · rfl
  have content : restored.directoryObject.directoryContent = cached.content := by
    rw [← restoredEq, Fragment.loadDisplayMode]
    split
    · rfl
    · rfl
  have result : fragment.restoreCurrentDirectoryFromCache platform path = some restored := by
    rw [Fragment.restoreCurrentDirectoryFromCache, DirectoryObject.restoreFromCache, found,
      ← restoredEq]
    rfl
  rw [← order] at follows keeps
  rw [← content] at keeps
  obtain ⟨sorted, sortedEq, _, inOrder⟩ := @sortDirectory platform choice restored now follows keeps
  refine ⟨Fragment.newData sorted { restored with
    sortOrder := (sortDirectoryCase restored.sortOrder).2
    directoryObject := restored.directoryObject.setContent now sorted }, ?_,
    follows.sortDirectory, inOrder, inOrder⟩
  rw [Fragment.showCached, result]
  simp only [Option.bind_eq_bind, Option.bind_some, sortedEq]
  rfl

/-- A directory from the cache or from a fetch. -/
theorem showDirectory {path : JavaString} {otherwise : Fragment → Fragment}
    (chosen : Chosen platform choice fragment)
    (fetched : Chosen platform choice (otherwise fragment))
    (keeps : ∀ listing ∈ fragment.cachedContent path,
      Keeps platform.tables comparedItem choice fragment.sortOrder listing) :
    ∃ next, fragment.showDirectory platform now path otherwise = some next ∧
      Chosen platform choice next := by
  cases found : fragment.directoryObject.directoryCache path with
  | none =>
    have valid : fragment.directoryObject.isContentValid now path = true := by
      rw [DirectoryObject.isContentValid, found]
    have absent : fragment.directoryObject.isPathInCache path = false := by
      rw [DirectoryObject.isPathInCache, found]
      rfl
    refine ⟨(otherwise fragment).startFetch false, ?_, fetched.startFetch⟩
    rw [Fragment.showDirectory, valid, absent]
    rfl
  | some cached =>
    have keepsCached := keeps cached.content (by rw [Fragment.cachedContent, found]; rfl)
    obtain ⟨next, shown, nextChosen⟩ := @showCached platform choice fragment now path cached chosen.follows
      found keepsCached
    have present : fragment.directoryObject.isPathInCache path = true := by
      rw [DirectoryObject.isPathInCache, found]
      rfl
    rw [Fragment.showDirectory, shown, present]
    split
    · exact ⟨_, rfl, nextChosen.startFetch⟩
    · exact ⟨_, rfl, nextChosen⟩

theorem onDirectoryClicked {fileItem : FileItem} (chosen : Chosen platform choice fragment)
    (keeps : ∀ listing ∈ fragment.cachedContent fileItem.getPath,
      Keeps platform.tables comparedItem choice fragment.sortOrder listing) :
    ∃ next, fragment.onDirectoryClicked platform now fileItem = some next ∧
      Chosen platform choice next := by
  simp only [Fragment.onDirectoryClicked]
  generalize pushedEq : ({ fragment with
    crumbs := fragment.crumbs ++ [fileItem.getPath]
    pathStack := fragment.directoryObject.currentDir :: fragment.pathStack } : Fragment) = pushed
  have pushedChosen : Chosen platform choice pushed := by
    rw [← pushedEq]
    exact ⟨chosen.follows, chosen.shown, chosen.content⟩
  obtain ⟨directory, order⟩ := Fragment.leaveSearch_frame platform pushed
  have left := pushedChosen.leaveSearch
  have stopped : Chosen platform choice (pushed.leaveSearch platform).cancelFetch :=
    ⟨left.follows, left.shown, left.content⟩
  apply stopped.showDirectory stopped.setCurrentDirectoryPath.clearAdapter
  intro listing member
  show Keeps platform.tables comparedItem choice (pushed.leaveSearch platform).sortOrder listing
  rw [Fragment.cachedContent, Fragment.cancelFetch, directory, ← pushedEq] at member
  rw [order, ← pushedEq]
  exact keeps listing member

theorem onBackButtonPressed (chosen : Chosen platform choice fragment)
    (keeps : ∀ listing ∈ fragment.toSort .backPressed,
      Keeps platform.tables comparedItem choice fragment.sortOrder listing) :
    ∃ next, fragment.onBackButtonPressed platform now = some next ∧
      Chosen platform choice next := by
  rw [Fragment.onBackButtonPressed]
  rw [Fragment.toSort] at keeps
  split
  next selecting => exact ⟨_, rfl, chosen.follows, chosen.shown, chosen.content⟩
  next notSelecting =>
    split
    next searching => exact ⟨_, rfl, chosen.searchClicked⟩
    next notSearching =>
      rw [if_neg (by simp [notSelecting, notSearching])] at keeps
      cases stack : fragment.pathStack with
      | nil => exact ⟨_, rfl, chosen⟩
      | cons path rest =>
        rw [stack] at keeps
        apply showDirectory
        · exact ⟨chosen.follows, List.Pairwise.nil, chosen.content⟩
        · apply setCurrentDirectoryPath
          exact ⟨chosen.follows, List.Pairwise.nil, chosen.content⟩
        · exact keeps

theorem onBreadCrumbClicked {path : JavaString} (chosen : Chosen platform choice fragment)
    (keeps : fragment.directoryObject.currentDir ≠ path →
      ∀ listing ∈ fragment.cachedContent path,
        Keeps platform.tables comparedItem choice fragment.sortOrder listing) :
    ∃ next, fragment.onBreadCrumbClicked platform now path = some next ∧
      Chosen platform choice next := by
  simp only [Fragment.onBreadCrumbClicked]
  obtain ⟨directory, order⟩ := Fragment.leaveSearch_frame platform fragment
  have leftChosen := chosen.leaveSearch
  generalize fragment.leaveSearch platform = left at directory order leftChosen
  split
  next => exact ⟨left, rfl, leftChosen⟩
  next other =>
    have stopped : Chosen platform choice left.cancelFetch :=
      ⟨leftChosen.follows, leftChosen.shown, leftChosen.content⟩
    have moved := @setCurrentDirectoryPath platform choice left.cancelFetch path stopped
    have cleared : ∀ (pathStack crumbs : List JavaString), Chosen platform choice
        (Fragment.clearAdapter { left.cancelFetch.setCurrentDirectoryPath platform path with
          pathStack
          crumbs }) :=
      fun _ _ => ⟨moved.follows, List.Pairwise.nil, moved.content⟩
    apply (cleared _ _).showDirectory (cleared _ _)
    intro listing member
    have sameOrder : (left.cancelFetch.setCurrentDirectoryPath platform path).sortOrder =
        fragment.sortOrder := Fragment.sortOrder_setCurrentDirectoryPath.trans order
    have sameCache :
        (left.cancelFetch.setCurrentDirectoryPath platform path).directoryObject.directoryCache =
          fragment.directoryObject.directoryCache := by
      rw [Fragment.directoryCache_setCurrentDirectoryPath]
      exact congrArg DirectoryObject.directoryCache directory
    show Keeps platform.tables comparedItem choice
      (left.cancelFetch.setCurrentDirectoryPath platform path).sortOrder listing
    rw [sameOrder]
    apply keeps
    · rwa [← directory]
    · rw [Fragment.cachedContent, ← sameCache]
      exact member

theorem crumbClicked {index : Nat} (chosen : Chosen platform choice fragment)
    (keeps : ∀ listing ∈ fragment.toSort (.crumbClicked index),
      Keeps platform.tables comparedItem choice fragment.sortOrder listing) :
    ∃ next, fragment.crumbClicked platform now index = some next ∧
      Chosen platform choice next := by
  rw [Fragment.crumbClicked]
  rw [Fragment.toSort] at keeps
  cases found : fragment.crumbs[index]? with
  | none => exact ⟨fragment, rfl, chosen⟩
  | some path =>
    have clicked := @onBreadCrumbClicked platform choice fragment now path chosen (by
      intro other listing member
      apply keeps
      rw [found, Option.bind_some, if_neg other]
      exact member)
    rcases clicked with ⟨next, result, nextChosen⟩
    refine ⟨{ next with crumbs := Fragment.removeCrumbsUpTo path next.crumbs }, ?_,
      nextChosen.follows, nextChosen.shown, nextChosen.content⟩
    simp only [result, Option.map_some]

/-- A sorted listing that was fetched goes to the screen. -/
theorem showFetched {silentFetch : Bool} {listing : List FileItem}
    (chosen : Chosen platform choice fragment)
    (lawful : NamesLawful platform.tables comparedItem choice listing)
    (perm : fragment.directoryObject.directoryContent.Perm listing)
    (refreshable : silentFetch = true → fragment.adapter.viewMode = .list →
      ¬(fragment.isSearchMode = true ∧ fragment.searchString.isSome = true) →
        Refreshable platform choice fragment.adapter.files listing) :
    ∃ next, fragment.showFetched platform silentFetch = some next ∧
      Chosen platform choice next := by
  rw [Fragment.showFetched]
  split
  next => exact ⟨_, rfl, chosen.searchDirContent⟩
  next notSearching =>
    cases silentFetch with
    | false => exact ⟨_, rfl, chosen.newData chosen.content⟩
    | true =>
      have refresh := @updateData_sorted platform choice fragment.adapter listing _ lawful perm chosen.content
        (by
          intro view
          apply refreshable rfl view
          rintro ⟨searching, given⟩
          rcases Option.isSome_iff_exists.mp given with ⟨searchString, stringEq⟩
          exact notSearching searchString searching stringEq)
      rcases refresh with ⟨adapter, result, sorted⟩
      refine ⟨{ fragment with adapter }, ?_, chosen.follows, sorted, chosen.content⟩
      simp only [if_true, Fragment.updateData, result, Option.map_some]

theorem onPostExecute {silentFetch : Bool} {fileItems : Option (List FileItem)}
    (chosen : Chosen platform choice fragment)
    (keeps : ¬(fileItems.isNone = true ∧ silentFetch = true) →
      Keeps platform.tables comparedItem choice fragment.sortOrder (fileItems.getD []))
    (refreshable : ∀ listing, fileItems = some listing → silentFetch = true →
      fragment.adapter.viewMode = .list →
        ¬(fragment.isSearchMode = true ∧ fragment.searchString.isSome = true) →
          Refreshable platform choice fragment.adapter.files listing) :
    ∃ next, fragment.onPostExecute platform now silentFetch fileItems = some next ∧
      Chosen platform choice next := by
  rw [Fragment.onPostExecute]
  split
  next => exact ⟨fragment, rfl, chosen⟩
  next delivers =>
    have kept := keeps delivers
    obtain ⟨sorted, result, perm, inOrder⟩ := @sortDirectory platform choice { fragment with
        directoryObject := fragment.directoryObject.setContent now (fileItems.getD []) } now
      chosen.follows kept
    rw [result, Option.bind_some]
    apply @showFetched platform choice _ silentFetch (fileItems.getD []) _ kept.lawful perm
    · intro silent view notSearching
      cases fileItems with
      | none => exact absurd ⟨rfl, silent⟩ delivers
      | some listing => exact refreshable listing rfl silent view notSearching
    · exact ⟨chosen.follows.sortDirectory, chosen.shown, inOrder⟩

theorem fetchDelivered (chosen : Chosen platform choice fragment)
    (keeps : ∀ listing ∈ fragment.toSort .fetchDelivered,
      Keeps platform.tables comparedItem choice fragment.sortOrder listing)
    (refreshable : ∀ listing ∈ fragment.toRefresh .fetchDelivered,
      Refreshable platform choice fragment.adapter.files listing) :
    ∃ next, fragment.fetchDelivered platform now = some next ∧ Chosen platform choice next := by
  rw [Fragment.fetchDelivered]
  simp only [Fragment.toSort, Fragment.toRefresh] at keeps refreshable
  split
  next silentFetch fileItems rest tasks =>
    have left : Chosen platform choice { fragment with tasks := rest } :=
      ⟨chosen.follows, chosen.shown, chosen.content⟩
    apply left.onPostExecute
    · intro delivers
      apply keeps
      rw [tasks]
      simp only [if_neg delivers, Option.mem_def]
    · intro listing same silent view notSearching
      subst same
      cases silent
      apply refreshable
      rw [tasks]
      exact if_pos ⟨view, notSearching⟩
  next => exact ⟨fragment, rfl, chosen⟩

/-- Every event that meets its condition keeps the choice. -/
theorem handle {event : Event} (chosen : Chosen platform choice fragment)
    (keeps : KeepsChoice platform choice (some fragment) (event, now)) :
    ∃ next, fragment.handle platform now event = some next ∧ Chosen platform choice next := by
  obtain ⟨navigates, sorts, refreshes⟩ := keeps fragment rfl
  cases event with
  | directoryClicked fileItem => exact chosen.onDirectoryClicked sorts
  | backPressed => exact chosen.onBackButtonPressed sorts
  | crumbClicked index => exact chosen.crumbClicked sorts
  | fetchDelivered => exact chosen.fetchDelivered sorts refreshes
  | refreshed => exact ⟨_, rfl, chosen.follows, chosen.shown, chosen.content⟩
  | fetchRuns listing =>
    refine ⟨_, rfl, ?_⟩
    rw [Fragment.fetchRuns]
    split
    · exact ⟨chosen.follows, chosen.shown, chosen.content⟩
    · exact chosen
  | searchClicked => exact ⟨_, rfl, chosen.searchClicked⟩
  | searchTextChanged search => exact ⟨_, rfl, chosen.searchDirContent⟩
  | adapterClicked click =>
    refine ⟨_, rfl, chosen.follows, ?_, chosen.content⟩
    show SortedItems platform choice (fragment.adapter.click click).files
    rw [(Explorer.click_keeps fragment.adapter click).2]
    exact chosen.shown
  | moveFiles =>
    refine ⟨_, rfl, ?_⟩
    rw [Fragment.moveFiles]
    split
    · exact chosen
    · exact ⟨chosen.follows, chosen.shown, chosen.content⟩
  | moveLocationSelected => exact ⟨_, rfl, chosen.follows, chosen.shown, chosen.content⟩
  | cancelMoveClicked => exact absurd navigates id
  | sortChosen sortBy ascending => exact absurd navigates id

/-- The choice itself. -/
theorem sortSelected
    (lawful : NamesLawful platform.tables comparedItem choice
      fragment.directoryObject.directoryContent)
    (selected : fragment.sortSelected platform now choice.sortBy choice.ascending = some next) :
    Chosen platform choice next := by
  obtain ⟨sorted, result, perm, inOrder⟩ := platform.sorter.sorts (contract_of_namesLawful lawful)
  have sortedEq : fragment.sortContent platform now
      (sortSelectedCase choice.sortBy choice.ascending) = some { fragment with
        sortOrder := choice.sortOrder
        directoryObject := fragment.directoryObject.setContent now sorted } :=
    Option.map_eq_some_iff.mpr ⟨sorted, result, rfl⟩
  rw [Fragment.sortSelected, sortedEq, Option.map_some] at selected
  cases selected
  split_ifs
  · exact ⟨Or.inl rfl, inOrder.filter _, inOrder⟩
  · exact ⟨Or.inl rfl, inOrder, inOrder⟩

end Chosen

/-- A fragment is there, and what it shows is sorted as the dialog asked. -/
def Displays (platform : Platform) (choice : Choice) (state : Option Fragment) : Prop :=
  ∃ fragment, state = some fragment ∧ SortedItems platform choice fragment.adapter.files

theorem always_displays {chosen : Fragment} (isChosen : Chosen platform choice chosen)
    {events : List (Event × Int)}
    (keeps : Meets (step platform) (KeepsChoice platform choice) (some chosen) events) :
    Always (step platform) (Displays platform choice) (some chosen) events := by
  have always : Always (step platform)
      (fun state => ∃ fragment, state = some fragment ∧ Chosen platform choice fragment)
      (some chosen) events := by
    apply Always.of_meets _ ⟨chosen, rfl, isChosen⟩ keeps
    rintro _ ⟨event, now⟩ ⟨fragment, rfl, isChosen⟩ keepsOne
    exact isChosen.handle keepsOne
  refine always.mono ?_
  rintro _ ⟨fragment, rfl, isChosen⟩
  exact ⟨fragment, rfl, isChosen.shown⟩

end Screens

/-! ## The file picker -/

/-- The paths are lists of names. -/
structure FilePicker where
  sortOrder : Int
  root : List JavaString
  current : List JavaString
  fileList : List DeviceFile
  /-- The list of the adapter. -/
  shown : List DeviceFile
  finished : Bool

namespace FilePicker

variable (tables : CharacterTables) (sorter : ListSort DeviceFile)

def sortFiles (sortCase : Sorting × Int) (picker : FilePicker) : Option FilePicker :=
  (sorter.sort (sortCase.1.compareFiles tables) picker.fileList).map fun sorted =>
    { picker with
      fileList := sorted
      sortOrder := sortCase.2 }

def sortDirectory (picker : FilePicker) : Option FilePicker :=
  picker.sortFiles tables sorter (sortDirectoryCase picker.sortOrder)

/-- `setNewData` and `updateData` of the adapter. -/
def setNewData (picker : FilePicker) : FilePicker :=
  { picker with shown := picker.fileList }

def sortSelected (sortBy : SortBy) (ascending : Bool) (picker : FilePicker) : Option FilePicker :=
  (picker.sortFiles tables sorter (sortSelectedCase sortBy ascending)).map setNewData

/-- The files of the current directory, which are null if it cannot be read. -/
def listFiles (files : Option (List DeviceFile)) (picker : FilePicker) : Option FilePicker :=
  ({ picker with fileList := files.getD [] }.sortDirectory tables sorter).map setNewData

def onBackPressed (files : Option (List DeviceFile)) (picker : FilePicker) : Option FilePicker :=
  if picker.current = picker.root then
    some { picker with finished := true }
  else
    { picker with current := picker.current.dropLast }.listFiles tables sorter files

def onDirectoryClicked (file : List JavaString) (files : Option (List DeviceFile))
    (picker : FilePicker) : Option FilePicker :=
  { picker with current := file }.listFiles tables sorter files

/-- The input dialog for a new folder. -/
def onPositive (created : Bool) (files : Option (List DeviceFile)) (picker : FilePicker) :
    Option FilePicker :=
  if created then picker.listFiles tables sorter files else some picker

def switchStorage (storage : List JavaString) (canRead : Bool) (files : Option (List DeviceFile))
    (picker : FilePicker) : Option FilePicker :=
  if canRead then
    { picker with
      root := storage
      current := storage }.listFiles tables sorter files
  else
    some picker

/-- What happens to the file picker, with the files that are listed. -/
inductive Event where
  | backPressed (files : Option (List DeviceFile))
  | directoryClicked (file : List JavaString) (files : Option (List DeviceFile))
  | positive (created : Bool) (files : Option (List DeviceFile))
  | storageSwitched (storage : List JavaString) (canRead : Bool) (files : Option (List DeviceFile))

def handle (picker : FilePicker) : Event → Option FilePicker
  | .backPressed files => picker.onBackPressed tables sorter files
  | .directoryClicked file files => picker.onDirectoryClicked tables sorter file files
  | .positive created files => picker.onPositive tables sorter created files
  | .storageSwitched storage canRead files => picker.switchStorage tables sorter storage canRead files

/-- An activity that has finished handles nothing any more. -/
def step (state : Option FilePicker) (event : Event) : Option FilePicker :=
  state.bind fun picker => if picker.finished then some picker else picker.handle tables sorter event

/-- The files that an event sorts, if any. -/
def toSort (picker : FilePicker) : Event → Option (List DeviceFile)
  | .backPressed files => if picker.current = picker.root then none else some (files.getD [])
  | .directoryClicked _ files => some (files.getD [])
  | .positive created files => if created then some (files.getD []) else none
  | .storageSwitched _ canRead files => if canRead then some (files.getD []) else none

end FilePicker

section FilePickers

variable {tables : CharacterTables} {sorter : ListSort DeviceFile} {choice : Choice}
  {picker next : FilePicker}

/-- Files sorted as the dialog asked. -/
abbrev SortedFiles (tables : CharacterTables) (choice : Choice) (files : List DeviceFile) : Prop :=
  InOrder tables DeviceFile.item choice files

/-- What an event needs for the choice to be kept. -/
def KeepsFiles (tables : CharacterTables) (choice : Choice) (state : Option FilePicker)
    (event : FilePicker.Event) : Prop :=
  ∀ picker ∈ state, ∀ files ∈ picker.toSort event,
    Keeps tables DeviceFile.item choice picker.sortOrder files

/-- The choice is still known, and what is shown is sorted by it. -/
structure ChosenFiles (tables : CharacterTables) (choice : Choice) (picker : FilePicker) : Prop where
  follows : Follows choice picker.sortOrder
  shown : SortedFiles tables choice picker.shown

theorem compareFiles_eq_compareBy (sorting : Sorting) :
    sorting.compareFiles tables = compareBy tables DeviceFile.item sorting :=
  Sorting.compareFiles_eq tables sorting

namespace ChosenFiles

theorem listFiles {files : Option (List DeviceFile)} (follows : Follows choice picker.sortOrder)
    (keeps : Keeps tables DeviceFile.item choice picker.sortOrder (files.getD [])) :
    ∃ next, picker.listFiles tables sorter files = some next ∧ ChosenFiles tables choice next := by
  obtain ⟨sorted, result, _, inOrder⟩ := keeps.sort sorter follows
  refine ⟨{ picker with
    fileList := sorted
    sortOrder := (sortDirectoryCase picker.sortOrder).2
    shown := sorted }, ?_, follows.sortDirectory, inOrder⟩
  simp only [FilePicker.listFiles, FilePicker.sortDirectory, FilePicker.sortFiles,
    compareFiles_eq_compareBy, result, Option.map_some, FilePicker.setNewData]

/-- Every event that meets its condition keeps the choice. -/
theorem handle {event : FilePicker.Event} (chosen : ChosenFiles tables choice picker)
    (keeps : KeepsFiles tables choice (some picker) event) :
    ∃ next, picker.handle tables sorter event = some next ∧ ChosenFiles tables choice next := by
  have sorts := keeps picker rfl
  cases event with
  | backPressed files =>
    rw [FilePicker.toSort] at sorts
    rw [FilePicker.handle, FilePicker.onBackPressed]
    split
    next => exact ⟨_, rfl, chosen.follows, chosen.shown⟩
    next inside =>
      rw [if_neg inside] at sorts
      apply listFiles
      · exact chosen.follows
      · exact sorts _ rfl
  | directoryClicked file files =>
    rw [FilePicker.handle, FilePicker.onDirectoryClicked]
    apply listFiles
    · exact chosen.follows
    · exact sorts _ rfl
  | positive created files =>
    rw [FilePicker.handle, FilePicker.onPositive]
    cases created with
    | false => exact ⟨picker, rfl, chosen⟩
    | true => exact listFiles chosen.follows (sorts _ rfl)
  | storageSwitched storage canRead files =>
    rw [FilePicker.handle, FilePicker.switchStorage]
    cases canRead with
    | false => exact ⟨picker, rfl, chosen⟩
    | true =>
      apply listFiles
      · exact chosen.follows
      · exact sorts _ rfl

theorem step {event : FilePicker.Event} (chosen : ChosenFiles tables choice picker)
    (keeps : KeepsFiles tables choice (some picker) event) :
    ∃ next, FilePicker.step tables sorter (some picker) event = some next ∧
      ChosenFiles tables choice next := by
  rw [FilePicker.step, Option.bind_some]
  split
  next => exact ⟨picker, rfl, chosen⟩
  next => exact chosen.handle keeps

/-- The choice itself. -/
theorem sortSelected (lawful : NamesLawful tables DeviceFile.item choice picker.fileList)
    (selected : picker.sortSelected tables sorter choice.sortBy choice.ascending = some next) :
    ChosenFiles tables choice next := by
  obtain ⟨sorted, result, _, inOrder⟩ := sorter.sorts (contract_of_namesLawful lawful)
  have sortedEq : picker.sortFiles tables sorter
      (sortSelectedCase choice.sortBy choice.ascending) = some { picker with
        fileList := sorted
        sortOrder := choice.sortOrder } := by
    rw [FilePicker.sortFiles, compareFiles_eq_compareBy]
    exact Option.map_eq_some_iff.mpr ⟨sorted, result, rfl⟩
  rw [FilePicker.sortSelected, sortedEq, Option.map_some] at selected
  cases selected
  exact ⟨Or.inl rfl, inOrder⟩

end ChosenFiles

/-- A file picker is there, and what it shows is sorted as the dialog asked. -/
def DisplaysFiles (tables : CharacterTables) (choice : Choice) (state : Option FilePicker) : Prop :=
  ∃ picker, state = some picker ∧ SortedFiles tables choice picker.shown

theorem always_displaysFiles {chosen : FilePicker} (isChosen : ChosenFiles tables choice chosen)
    {events : List FilePicker.Event}
    (keeps : Meets (FilePicker.step tables sorter) (KeepsFiles tables choice) (some chosen) events) :
    Always (FilePicker.step tables sorter) (DisplaysFiles tables choice) (some chosen) events := by
  have always : Always (FilePicker.step tables sorter)
      (fun state => ∃ picker, state = some picker ∧ ChosenFiles tables choice picker)
      (some chosen) events := by
    apply Always.of_meets _ ⟨chosen, rfl, isChosen⟩ keeps
    rintro _ event ⟨picker, rfl, isChosen⟩ keepsOne
    exact isChosen.step keepsOne
  refine always.mono ?_
  rintro _ ⟨picker, rfl, isChosen⟩
  exact ⟨picker, rfl, isChosen.shown⟩

end FilePickers

/-! ## The choice is kept -/

/-- After a choice in a fragment or in the file picker, every listing that is shown is
sorted as the dialog asked, over every run whose sorts find the field as the dialog left
it or directories and files that tie, and whose silent refreshes of a list view find
the entries that stay in order. -/
theorem choice_kept (choice : Choice) :
    (∀ (platform : Platform) (fragment chosen : Fragment) (now : Int)
        (events : List (Event × Int)),
      NamesLawful platform.tables comparedItem choice
        fragment.directoryObject.directoryContent →
      fragment.sortSelected platform now choice.sortBy choice.ascending = some chosen →
      Meets (step platform) (KeepsChoice platform choice) (some chosen) events →
      Always (step platform) (Displays platform choice) (some chosen) events) ∧
    ∀ (tables : CharacterTables) (sorter : ListSort DeviceFile) (picker chosen : FilePicker)
        (events : List FilePicker.Event),
      NamesLawful tables DeviceFile.item choice picker.fileList →
      picker.sortSelected tables sorter choice.sortBy choice.ascending = some chosen →
      Meets (FilePicker.step tables sorter) (KeepsFiles tables choice) (some chosen) events →
      Always (FilePicker.step tables sorter) (DisplaysFiles tables choice) (some chosen) events := by
  constructor
  · intro platform fragment chosen now events lawful selected keeps
    exact always_displays (Chosen.sortSelected lawful selected) keeps
  · intro tables sorter picker chosen events lawful selected keeps
    exact always_displaysFiles (ChosenFiles.sortSelected lawful selected) keeps

def byDate : Choice := ⟨.date, true⟩

/-- A file that is listed with a date. -/
def datedFile (name : JavaString) (modTime : Int64) : FileItem where
  remote := ⟨['r'], 18, ['s'], false, false, false, false⟩
  path := name
  name := name
  mimeType := []
  size := 0
  modTime := modTime
  isDir := false
  startAtRoot := true

/-- The listing of the remote is fetched. -/
def fetchTwoFiles : List (Event × Int) :=
  [(.fetchRuns (some [datedFile ['b'] 2, datedFile ['a'] 1]), 0), (.fetchDelivered, 0)]

/-- Dates are compared without names. -/
theorem namesLawful_byDate {α : Type} (tables : CharacterTables) (toItem : α → Item)
    (items : List α) : NamesLawful tables toItem byDate items := by
  intro dir name member
  rw [Sorting.namesAmong, List.mem_filterMap] at member
  rcases member with ⟨item, _, named⟩
  cases named

/-- A file picker that shows an empty storage. -/
def emptyPicker : FilePicker :=
  ⟨2, [['s']], [['s']], [], [], false⟩

/-- A directory with two files is opened. -/
def openDirectory : List FilePicker.Event :=
  [.directoryClicked [['s'], ['d']] (some [⟨false, [98], 0, 2⟩, ⟨false, [97], 0, 1⟩])]

theorem firstListing_kept :
    (∃ chosen,
      (Fragment.onCreate ['r'] true 2).sortSelected plainPlatform 0 .date true = some chosen ∧
      Always (step plainPlatform) (Displays plainPlatform byDate) (some chosen) fetchTwoFiles) ∧
    ∃ chosen,
      emptyPicker.sortSelected Explorer.arabicIndic ListSort.byInsertion .date true =
        some chosen ∧
      Always (FilePicker.step Explorer.arabicIndic ListSort.byInsertion)
        (DisplaysFiles Explorer.arabicIndic byDate) (some chosen) openDirectory := by
  constructor
  · refine ⟨_, rfl, ?_⟩
    apply (choice_kept byDate).1 plainPlatform (Fragment.onCreate ['r'] true 2) _ 0
    · exact namesLawful_byDate _ _ _
    · rfl
    · constructor
      · intro fragment member
        cases member
        refine ⟨trivial, ?_, ?_⟩
        · intro listing sorts
          cases sorts
        · intro listing refreshes
          cases refreshes
      constructor
      · intro fragment member
        cases member
        refine ⟨trivial, ?_, ?_⟩
        · intro listing sorts
          exact ⟨Or.inr (Or.inl rfl), namesLawful_byDate _ _ _⟩
        · intro listing refreshes
          cases refreshes
      · trivial
  · refine ⟨_, rfl, ?_⟩
    apply (choice_kept byDate).2 Explorer.arabicIndic ListSort.byInsertion emptyPicker
    · exact namesLawful_byDate _ _ _
    · rfl
    · constructor
      · intro picker member files sorts
        cases member
        exact ⟨Or.inr (Or.inl rfl), namesLawful_byDate _ _ _⟩
      · trivial

/-- Then a folder is opened and left again. -/
def enterAndLeave : List (Event × Int) :=
  [(.directoryClicked { datedFile ['d'] 0 with isDir := true }, 1), (.backPressed, 2)]

/-- The way back shows the files the other way. -/
theorem enterAndLeave_flips :
    ¬∀ (platform : Platform) (choice : Choice) (fragment chosen : Fragment) (now : Int)
        (events : List (Event × Int)),
      fragment.sortSelected platform now choice.sortBy choice.ascending = some chosen →
      (∀ event ∈ events, event.1.Navigates) →
      Always (step platform) (Displays platform choice) (some chosen) events := by
  intro always
  have shown := always plainPlatform byDate (Fragment.onCreate ['r'] true 2) _ 0
    (fetchTwoFiles ++ enterAndLeave) rfl (by
      intro event member
      simp only [fetchTwoFiles, enterAndLeave, List.cons_append, List.nil_append, List.mem_cons,
        List.not_mem_nil, or_false] at member
      rcases member with rfl | rfl | rfl | rfl <;> trivial)
  rcases shown.2.2.2.2 with ⟨fragment, same, inOrder⟩
  have files : fragment.adapter.files = [datedFile ['b'] 2, datedFile ['a'] 1] :=
    congrArg (fun fragment => fragment.adapter.files) (Option.some_inj.mp same).symm
  rw [files] at inOrder
  exact absurd (List.pairwise_cons.mp inOrder |>.1 _ (List.mem_singleton_self _)) (by decide)

end RoundSync.Fragments
