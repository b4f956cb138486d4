import RoundSync.Explorer.NameOrder
import RoundSync.RecyclerViewAdapters.SilentRefresh
import Mathlib.Data.List.Infix

/-!
# The fragments that show a remote

`FileExplorerFragment` and `RemoteFolderPickerFragment` show one directory of a
remote at a time.  A `DirectoryObject` holds its path, its content and a cache, the
path stack what the back button returns to, and an adapter the list on the screen.
Listings are fetched by tasks that run one after another.

A function that throws has no result.  Every reading of the clock within one event
is the same, and what a task or the user delivers is part of the event.
-/

namespace RoundSync.Fragments

open RoundSync.Data
open RoundSync.Text
open RoundSync.RecyclerViewAdapters
open RoundSync.Explorer (CharacterTables Item Sorting)

/-! ## Directories -/

/-- `DIR_VALID_TIME`, in milliseconds. -/
def dirValidTime : Int := 300000

/-- A content in the cache, and when it was put there. -/
structure Cached where
  content : List FileItem
  time : Int

/-- The maps of the contents and of their times are written and removed together. -/
structure DirectoryObject where
  currentDir : JavaString
  directoryContent : List FileItem
  directoryCache : JavaString → Option Cached

namespace DirectoryObject

variable (directory : DirectoryObject)

def setPath (path : JavaString) : DirectoryObject :=
  { directory with
    currentDir := path
    directoryContent := [] }

def setContent (now : Int) (content : List FileItem) : DirectoryObject :=
  { directory with
    directoryContent := content
    directoryCache := Function.update directory.directoryCache directory.currentDir
      (some ⟨content, now⟩) }

/-- Throws when the path is not in the cache. -/
def restoreFromCache (path : JavaString) : Option DirectoryObject :=
  (directory.directoryCache path).map fun cached =>
    { directory with
      currentDir := path
      directoryContent := cached.content }

def clear : DirectoryObject where
  currentDir := []
  directoryContent := []
  directoryCache := fun _ => none

def isContentValid (now : Int) (path : JavaString) : Bool :=
  match directory.directoryCache path with
  | some cached => now - cached.time < dirValidTime
  | none => true

def isPathInCache (path : JavaString) : Bool :=
  (directory.directoryCache path).isSome

def removePathFromCache (path : JavaString) : DirectoryObject :=
  { directory with
    directoryCache := Function.update directory.directoryCache path none }

end DirectoryObject

/-! ## Sort orders -/

namespace SortDialog

def ALPHA_DESCENDING : Int := 1
def ALPHA_ASCENDING : Int := 2
def MOD_TIME_DESCENDING : Int := 3
def MOD_TIME_ASCENDING : Int := 4
def SIZE_DESCENDING : Int := 5
def SIZE_ASCENDING : Int := 6

end SortDialog

/-- The radio buttons of the dialog. -/
inductive SortBy where
  | name
  | date
  | size
  deriving DecidableEq

/-- What `sortSelected` sorts by, and what it stores. -/
def sortSelectedCase : SortBy → Bool → Sorting × Int
  | .name, true => (.alphaAscending, SortDialog.ALPHA_ASCENDING)
  | .name, false => (.alphaDescending, SortDialog.ALPHA_DESCENDING)
  | .date, true => (.modTimeAscending, SortDialog.MOD_TIME_ASCENDING)
  | .date, false => (.modTimeDescending, SortDialog.MOD_TIME_DESCENDING)
  | .size, true => (.sizeAscending, SortDialog.SIZE_ASCENDING)
  | .size, false => (.sizeDescending, SortDialog.SIZE_DESCENDING)

/-- What `sortDirectory` sorts by, and what it stores. -/
def sortDirectoryCase (sortOrder : Int) : Sorting × Int :=
  if sortOrder = SortDialog.MOD_TIME_DESCENDING then
    (.modTimeDescending, SortDialog.MOD_TIME_ASCENDING)
  else if sortOrder = SortDialog.MOD_TIME_ASCENDING then
    (.modTimeAscending, SortDialog.MOD_TIME_DESCENDING)
  else if sortOrder = SortDialog.SIZE_DESCENDING then
    (.sizeDescending, SortDialog.SIZE_ASCENDING)
  else if sortOrder = SortDialog.SIZE_ASCENDING then
    (.sizeAscending, SortDialog.SIZE_DESCENDING)
  else if sortOrder = SortDialog.ALPHA_ASCENDING then
    (.alphaAscending, SortDialog.ALPHA_ASCENDING)
  else
    (.alphaDescending, SortDialog.ALPHA_DESCENDING)

/-- An entry as the comparators see it. -/
def comparedItem (fileItem : FileItem) : Item where
  isDir := fileItem.isDir
  name := (fileItem.name.flatMap Kotlin.utf16).map UInt16.ofNat
  size := fileItem.size.toInt
  modTime := fileItem.modTime.toInt

/-! ## Fragments -/

/-- A `FetchDirectoryContent` that was not cancelled, and what its background part
returned, once it ran; a listing that failed is null. -/
structure FetchDirectoryContent where
  silentFetch : Bool
  fetched : Option (Option (List FileItem))

/-- What the two fragments take from the platform and where they differ: the case and
digit tables, the sort of the library, and the view mode that the settings have for a
path, for the fragment that loads it. -/
structure Platform where
  tables : CharacterTables
  cases : Kotlin.CaseTables
  sorter : ListSort FileItem
  displayModeForPath : JavaString → Option ViewMode

/-- A platform on which nothing was set. -/
def plainPlatform : Platform where
  tables := Explorer.arabicIndic
  cases := Kotlin.asciiCase
  sorter := ListSort.byInsertion
  displayModeForPath := fun _ => some .list

structure Fragment where
  remoteName : JavaString
  startAtRoot : Bool
  sortOrder : Int
  directoryObject : DirectoryObject
  /-- The last pushed path first. -/
  pathStack : List JavaString
  /-- The paths of the breadcrumbs, that of the remote first. -/
  crumbs : List JavaString
  isSearchMode : Bool
  searchString : Option JavaString
  moveStartPath : Option JavaString
  isInMoveMode : Bool
  adapter : Explorer
  /-- The tasks that are not done, in the order of their start; `fetchDirectoryTask` is
  the last one that was started. -/
  tasks : List FetchDirectoryContent

namespace Fragment

variable (platform : Platform)

def compare (sorting : Sorting) (one other : FileItem) : Ordering :=
  sorting.compareItems platform.tables (comparedItem one) (comparedItem other)

/-- The path of the remote itself. -/
def rootPath (remoteName : JavaString) : JavaString :=
  '/' :: '/' :: remoteName

/-- `onCreate` of the explorer without a saved state; `onCreateView` starts the first
fetch. -/
def onCreate (remoteName : JavaString) (startAtRoot : Bool) (sortOrder : Int) : Fragment where
  remoteName := remoteName
  startAtRoot := startAtRoot
  sortOrder := sortOrder
  directoryObject := ⟨rootPath remoteName, [], fun _ => none⟩
  pathStack := []
  crumbs := [rootPath remoteName]
  isSearchMode := false
  searchString := none
  moveStartPath := none
  isInMoveMode := false
  adapter := Explorer.display .list []
  tasks := [⟨false, none⟩]

/-! ### The adapter -/

def newData (data : List FileItem) (fragment : Fragment) : Fragment :=
  { fragment with adapter := Explorer.display fragment.adapter.viewMode data }

def updateSortedData (data : List FileItem) (fragment : Fragment) : Fragment :=
  { fragment with adapter := { fragment.adapter with files := data } }

def updateData (data : List FileItem) (fragment : Fragment) : Option Fragment :=
  (fragment.adapter.updateData data).map fun adapter => { fragment with adapter }

def clearAdapter (fragment : Fragment) : Fragment :=
  fragment.newData []

/-- `loadFileDisplayModeForPath`. -/
def loadDisplayMode (path : JavaString) (fragment : Fragment) : Fragment :=
  match platform.displayModeForPath path with
  | some viewMode => { fragment with adapter := { fragment.adapter with viewMode } }
  | none => fragment

def setCurrentDirectoryPath (path : JavaString) (fragment : Fragment) : Fragment :=
  loadDisplayMode platform path
    { fragment with directoryObject := fragment.directoryObject.setPath path }

def restoreCurrentDirectoryFromCache (path : JavaString) (fragment : Fragment) :
    Option Fragment :=
  (fragment.directoryObject.restoreFromCache path).map fun directoryObject =>
    loadDisplayMode platform path { fragment with directoryObject }

/-! ### Sorting -/

/-- Sort the content of the directory, store it and the new sort order. -/
def sortContent (now : Int) (sortCase : Sorting × Int) (fragment : Fragment) : Option Fragment :=
  (platform.sorter.sort (compare platform sortCase.1)
    fragment.directoryObject.directoryContent).map fun sorted =>
      { fragment with
        sortOrder := sortCase.2
        directoryObject := fragment.directoryObject.setContent now sorted }

def sortDirectory (now : Int) (fragment : Fragment) : Option Fragment :=
  fragment.sortContent platform now (sortDirectoryCase fragment.sortOrder)

def sortSelected (now : Int) (sortBy : SortBy) (ascending : Bool) (fragment : Fragment) :
    Option Fragment :=
  (fragment.sortContent platform now (sortSelectedCase sortBy ascending)).map fun fragment =>
    let directoryContent := fragment.directoryObject.directoryContent
    if fragment.isSearchMode then
      fragment.updateSortedData (directoryContent.filter fun item =>
        KeyedLists.Contains FileItem.identity fragment.adapter.files item)
    else
      fragment.updateSortedData directoryContent

/-- The positive button of the dialog. -/
def onPositiveButtonClick (now : Int) (sortBy : SortBy) (ascending : Bool) (fragment : Fragment) :
    Option Fragment :=
  if fragment.directoryObject.directoryContent.isEmpty then
    some fragment
  else
    fragment.sortSelected platform now sortBy ascending

/-! ### Searching -/

def sameItems (one other : List FileItem) : Bool :=
  one.map FileItem.identity = other.map FileItem.identity

def searchDirContent (search : JavaString) (fragment : Fragment) : Fragment :=
  let content := fragment.directoryObject.directoryContent
  let currentShown := fragment.adapter.files
  let results := content.filter fun item =>
    decide (platform.cases.lowercase search <:+: platform.cases.lowercase item.name)
  let searching := { fragment with searchString := some search }
  if search.isEmpty ∧ sameItems currentShown content then
    searching
  else
    let shown := if search.isEmpty then searching.newData content else searching
    if sameItems currentShown results then shown else shown.newData results

def searchClicked (fragment : Fragment) : Fragment :=
  if fragment.isSearchMode then
    { fragment.searchDirContent platform [] with isSearchMode := false }
  else
    { fragment with isSearchMode := true }

/-- `if (isSearchMode) searchClicked()`. -/
def leaveSearch (fragment : Fragment) : Fragment :=
  if fragment.isSearchMode then fragment.searchClicked platform else fragment

/-! ### Tasks -/

/-- `fetchDirectoryTask.cancel(true)`.  The task that was started last is the last one, unless
all are done. -/
def cancelFetch (fragment : Fragment) : Fragment :=
  { fragment with tasks := fragment.tasks.dropLast }

def startFetch (silentFetch : Bool) (fragment : Fragment) : Fragment :=
  { fragment with tasks := fragment.tasks ++ [⟨silentFetch, none⟩] }

/-- `doInBackground` of the next task, with the listing that rclone returns for the
current path. -/
def fetchRuns (listing : Option (List FileItem)) (fragment : Fragment) : Fragment :=
  match fragment.tasks with
  | ⟨silentFetch, none⟩ :: rest =>
    { fragment with tasks := ⟨silentFetch, some listing⟩ :: rest }
  | _ => fragment

/-- The end of `onPostExecute`: the sorted content goes to the screen. -/
def showFetched (silentFetch : Bool) (fragment : Fragment) : Option Fragment :=
  match fragment.isSearchMode, fragment.searchString with
  | true, some searchString => some (fragment.searchDirContent platform searchString)
  | _, _ =>
    if silentFetch then
      fragment.updateData fragment.directoryObject.directoryContent
    else
      some (fragment.newData fragment.directoryObject.directoryContent)

def onPostExecute (now : Int) (silentFetch : Bool) (fileItems : Option (List FileItem))
    (fragment : Fragment) : Option Fragment :=
  if fileItems.isNone ∧ silentFetch then
    some fragment
  else
    ({ fragment with
      directoryObject := fragment.directoryObject.setContent now (fileItems.getD []) }.sortDirectory
        platform now).bind (showFetched platform silentFetch)

/-- The result of the first task, once it ran, is handed to the fragment. -/
def fetchDelivered (now : Int) (fragment : Fragment) : Option Fragment :=
  match fragment.tasks with
  | ⟨silentFetch, some fileItems⟩ :: rest =>
    { fragment with tasks := rest }.onPostExecute platform now silentFetch fileItems
  | _ => some fragment

/-! ### Navigation -/

/-- What `onDirectoryClicked`, `onBackButtonPressed` and `onBreadCrumbClicked` do with a path
that is in the cache. -/
def showCached (now : Int) (path : JavaString) (fragment : Fragment) : Option Fragment := do
  let restored ← fragment.restoreCurrentDirectoryFromCache platform path
  let sorted ← restored.sortDirectory platform now
  some (sorted.newData sorted.directoryObject.directoryContent)

/-- The content of a path from the cache, or else from a fetch.  An old content is shown
until a silent fetch is done. -/
def showDirectory (now : Int) (path : JavaString) (otherwise : Fragment → Fragment)
    (fragment : Fragment) : Option Fragment :=
  if !fragment.directoryObject.isContentValid now path then
    (fragment.showCached platform now path).map (startFetch true)
  else if fragment.directoryObject.isPathInCache path then
    fragment.showCached platform now path
  else
    some ((otherwise fragment).startFetch false)

def onDirectoryClicked (now : Int) (fileItem : FileItem) (fragment : Fragment) :
    Option Fragment :=
  let path := fileItem.getPath
  let pushed := { fragment with
    crumbs := fragment.crumbs ++ [path]
    pathStack := fragment.directoryObject.currentDir :: fragment.pathStack }
  (pushed.leaveSearch platform).cancelFetch.showDirectory platform now path fun fragment =>
    (fragment.setCurrentDirectoryPath platform path).clearAdapter

def onBackButtonPressed (now : Int) (fragment : Fragment) : Option Fragment :=
  if fragment.adapter.isInSelectMode then
    some { fragment with adapter := fragment.adapter.cancelSelection }
  else if fragment.isSearchMode then
    some (fragment.searchClicked platform)
  else
    match fragment.pathStack with
    | [] => some fragment
    | path :: pathStack =>
      let popped := { fragment.cancelFetch with
        crumbs := fragment.crumbs.dropLast
        pathStack := pathStack }
      popped.clearAdapter.showDirectory platform now path fun fragment =>
        fragment.setCurrentDirectoryPath platform path

/-- The crumbs that `removeCrumbsUpTo` leaves. -/
def removeCrumbsUpTo (path : JavaString) (crumbs : List JavaString) : List JavaString :=
  (crumbs.reverse.dropWhile (· ≠ path)).reverse

/-- `while (!pathStack.empty() && !pathStack.pop().equals(path))`. -/
def popUntil (path : JavaString) (pathStack : List JavaString) : List JavaString :=
  (pathStack.dropWhile (· ≠ path)).tail

def onBreadCrumbClicked (now : Int) (path : JavaString) (fragment : Fragment) : Option Fragment :=
  let left := fragment.leaveSearch platform
  if left.directoryObject.currentDir = path then
    some left
  else
    let moved := left.cancelFetch.setCurrentDirectoryPath platform path
    let popped := { moved with
      pathStack := popUntil path moved.pathStack
      crumbs := removeCrumbsUpTo path moved.crumbs }
    popped.clearAdapter.showDirectory platform now path id

/-- A click on a crumb; the view removes the crumbs behind it once more. -/
def crumbClicked (now : Int) (index : Nat) (fragment : Fragment) : Option Fragment :=
  match fragment.crumbs[index]? with
  | none => some fragment
  | some path =>
    (fragment.onBreadCrumbClicked platform now path).map fun fragment =>
      { fragment with crumbs := removeCrumbsUpTo path fragment.crumbs }

/-- Swipe to refresh. -/
def onRefresh (fragment : Fragment) : Fragment :=
  fragment.cancelFetch.startFetch true

/-! ### Paths -/

/-- `PathParts`. -/
structure PathParts where
  pathPrefix : JavaString
  segments : List JavaString
  deriving DecidableEq

def splitCurrentPath (rootPath currentPath : JavaString) : PathParts :=
  let (pathPrefix, relativePath) :=
    if rootPath <+: currentPath then (rootPath, currentPath.drop rootPath.length)
    else if ['/'] <+: currentPath then (['/'], currentPath)
    else ([], currentPath)
  ⟨pathPrefix, (relativePath.splitOn '/').filter fun segment => !segment.isEmpty⟩

def appendPathSegment (pathPrefix segment : JavaString) : JavaString :=
  if pathPrefix.isEmpty then segment
  else if pathPrefix = ['/'] then pathPrefix ++ segment
  else pathPrefix ++ '/' :: segment

/-- The paths that the segments lead to, one after the other. -/
def accumulatedPaths : JavaString → List JavaString → List JavaString
  | _, [] => []
  | accumulatedPath, segment :: segments =>
    let next := appendPathSegment accumulatedPath segment
    next :: accumulatedPaths next segments

/-- `buildStackFromPath` of the explorer. -/
def buildStackFromPath (remote path : JavaString) : List JavaString :=
  if path.isEmpty ∨ path = rootPath remote then
    []
  else
    let pathParts := splitCurrentPath (rootPath remote) path
    (accumulatedPaths pathParts.pathPrefix pathParts.segments.dropLast).reverse ++
      [rootPath remote]

/-- `rebuildBreadcrumbsForCurrentPath`. -/
def rebuildBreadcrumbs (remote currentPath : JavaString) : List JavaString :=
  if currentPath.isEmpty ∨ currentPath = rootPath remote then
    [rootPath remote]
  else
    let pathParts := splitCurrentPath (rootPath remote) currentPath
    rootPath remote :: accumulatedPaths pathParts.pathPrefix pathParts.segments

/-- The loop of the folder picker: a path for each slash behind the first character, as
far as the search for slashes finds them there.  What is left of the path, with the
characters in front of it. -/
def slashLoop (before : JavaString) : JavaString → List JavaString
  | [] => []
  | c :: rest =>
    if c = '/' then
      if before.isEmpty then [] else before :: slashLoop (before ++ [c]) rest
    else
      slashLoop (before ++ [c]) rest

/-- `buildStackFromPath` of the folder picker, on the stack as it was. -/
def pickerBuildStackFromPath (remote path : JavaString) (pathStack : List JavaString) :
    List JavaString :=
  if path = rootPath remote then
    pathStack
  else
    (slashLoop [] path).reverse ++ [rootPath remote]

/-! ### Moves -/

def moveFiles (fragment : Fragment) : Fragment :=
  if fragment.adapter.selectedItems.isEmpty then
    fragment
  else
    { fragment with
      moveStartPath := some fragment.directoryObject.currentDir
      isInMoveMode := true
      adapter := fragment.adapter.cancelSelection }

def moveLocationSelected (fragment : Fragment) : Fragment :=
  { fragment with
    isInMoveMode := false
    moveStartPath := none }

/-- The directory in which a move was started, from the cache without sorting it, or
else from a fetch. -/
def showMoveStart (path : JavaString) (fragment : Fragment) : Option Fragment :=
  if fragment.directoryObject.isPathInCache path then
    (fragment.restoreCurrentDirectoryFromCache platform path).map fun restored =>
      restored.newData restored.directoryObject.directoryContent
  else
    some ((fragment.setCurrentDirectoryPath platform path).clearAdapter.startFetch true)

def cancelMoveClicked (fragment : Fragment) : Option Fragment :=
  let cancelled := { fragment with isInMoveMode := false }
  match fragment.moveStartPath with
  | none => some cancelled
  | some moveStartPath =>
    if moveStartPath = fragment.directoryObject.currentDir then
      some cancelled
    else
      (cancelled.cancelFetch.showMoveStart platform moveStartPath).map fun shown =>
        { shown with
          pathStack := buildStackFromPath shown.remoteName moveStartPath
          crumbs := rebuildBreadcrumbs shown.remoteName shown.directoryObject.currentDir
          moveStartPath := none }

end Fragment

/-! ## Events -/

/-- What happens to a fragment that shows a remote. -/
inductive Event where
  | directoryClicked (fileItem : FileItem)
  | backPressed
  | crumbClicked (index : Nat)
  | refreshed
  | fetchRuns (listing : Option (List FileItem))
  | fetchDelivered
  | searchClicked
  | searchTextChanged (search : JavaString)
  | adapterClicked (click : Click)
  | moveFiles
  | moveLocationSelected
  | cancelMoveClicked
  | sortChosen (sortBy : SortBy) (ascending : Bool)

/-- What an event at a time does. -/
def Fragment.handle (platform : Platform) (fragment : Fragment) (now : Int) :
    Event → Option Fragment
  | .directoryClicked fileItem => fragment.onDirectoryClicked platform now fileItem
  | .backPressed => fragment.onBackButtonPressed platform now
  | .crumbClicked index => fragment.crumbClicked platform now index
  | .refreshed => some fragment.onRefresh
  | .fetchRuns listing => some (fragment.fetchRuns listing)
  | .fetchDelivered => fragment.fetchDelivered platform now
  | .searchClicked => some (fragment.searchClicked platform)
  | .searchTextChanged search => some (fragment.searchDirContent platform search)
  | .adapterClicked click => some { fragment with adapter := fragment.adapter.click click }
  | .moveFiles => some fragment.moveFiles
  | .moveLocationSelected => some fragment.moveLocationSelected
  | .cancelMoveClicked => fragment.cancelMoveClicked platform
  | .sortChosen sortBy ascending => fragment.onPositiveButtonClick platform now sortBy ascending

/-- A fragment that has thrown does nothing any more. -/
def step (platform : Platform) (state : Option Fragment) (event : Event × Int) :
    Option Fragment :=
  state.bind fun fragment => fragment.handle platform event.2 event.1

end RoundSync.Fragments
