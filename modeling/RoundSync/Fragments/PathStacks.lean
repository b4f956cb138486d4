import RoundSync.Fragments.RemoteFragment
import RoundSync.Text.Separated

/-!
# The path stack

The explorer pushes the path that it leaves and pops the path that it returns to.
However the user moves, the stack holds the ancestors of the current directory, and
the crumbs hold them and the directory itself.  Both fragments rebuild the stack
from the current path when they are restored.
-/

namespace RoundSync.Fragments

open RoundSync.Text
open RoundSync.Transition
open RoundSync.RecyclerViewAdapters

/-! ## Directories of a remote -/

/-- A name of a file or directory. -/
structure IsName (name : JavaString) : Prop where
  nonempty : name ≠ []
  noSlash : '/' ∉ name

/-- The path of the directory that names lead to from the root of a remote, as
`FileItem.getPath` has it. -/
def directoryPath (remote : JavaString) (startAtRoot : Bool) (names : List JavaString) :
    JavaString :=
  if names = [] then Fragment.rootPath remote
  else if startAtRoot then '/' :: ['/'].intercalate names
  else ['/'].intercalate names

/-- The paths of the directories above, from that of the remote on. -/
def ancestors (remote : JavaString) (startAtRoot : Bool) (names : List JavaString) :
    List JavaString :=
  names.inits.dropLast.map (directoryPath remote startAtRoot)

section Paths

variable {remote name : JavaString} {startAtRoot : Bool} {names : List JavaString}

theorem inits_concat {α : Type} (values : List α) (value : α) :
    (values ++ [value]).inits = values.inits ++ [values ++ [value]] := by
  rw [List.inits_append]
  rfl

theorem ancestors_concat (remote : JavaString) (startAtRoot : Bool) (names : List JavaString)
    (name : JavaString) :
    ancestors remote startAtRoot (names ++ [name]) =
      ancestors remote startAtRoot names ++ [directoryPath remote startAtRoot names] := by
  have front : names.inits = names.inits.dropLast ++ [names] := by
    induction names using List.reverseRecOn with
    | nil => rfl
    | append_singleton names last _ =>
      rw [inits_concat, List.dropLast_concat]
  rw [ancestors, inits_concat, List.dropLast_concat, front, List.map_append, ← ancestors]
  rfl

theorem intercalate_concat (nonempty : names ≠ []) (name : JavaString) :
    ['/'].intercalate (names ++ [name]) = ['/'].intercalate names ++ '/' :: name := by
  rw [intercalate_append '/' nonempty (List.cons_ne_nil _ _), List.intercalate_singleton]

/-- The names joined start with the first character of the first name. -/
theorem intercalate_head (valid : ∀ name ∈ names, IsName name) (nonempty : names ≠ []) :
    ∃ c rest, ['/'].intercalate names = c :: rest ∧ c ≠ '/' := by
  cases names with
  | nil => exact absurd rfl nonempty
  | cons name names =>
    have isName := valid name (List.mem_cons_self ..)
    cases name with
    | nil => exact absurd rfl isName.nonempty
    | cons c name =>
      refine ⟨c, ?_⟩
      have other : c ≠ '/' := by
        rintro rfl
        exact isName.noSlash (List.mem_cons_self ..)
      cases names with
      | nil => exact ⟨name, by rw [List.intercalate_singleton], other⟩
      | cons next names =>
        exact ⟨name ++ ('/' :: ['/'].intercalate (next :: names)),
          by simp [List.intercalate_cons_cons], other⟩

theorem splitOn_intercalate (valid : ∀ name ∈ names, IsName name) (nonempty : names ≠ []) :
    (['/'].intercalate names).splitOn '/' = names :=
  List.splitOn_intercalate '/' (fun name member => (valid name member).noSlash) nonempty

variable (remote startAtRoot)

/-- No path below starts with that of the remote. -/
theorem not_rootPath_prefix (valid : ∀ name ∈ names, IsName name) (nonempty : names ≠ []) :
    ¬Fragment.rootPath remote <+: directoryPath remote startAtRoot names := by
  rcases intercalate_head valid nonempty with ⟨c, rest, joined, other⟩
  rw [directoryPath, if_neg nonempty, joined, Fragment.rootPath]
  cases startAtRoot with
  | false =>
    intro start
    exact other (List.cons_prefix_cons.mp start).1.symm
  | true =>
    intro start
    exact other (List.cons_prefix_cons.mp (List.cons_prefix_cons.mp start).2).1.symm

theorem directoryPath_ne_rootPath (valid : ∀ name ∈ names, IsName name) (nonempty : names ≠ []) :
    directoryPath remote startAtRoot names ≠ Fragment.rootPath remote := by
  intro same
  apply not_rootPath_prefix remote startAtRoot valid nonempty
  rw [same]

variable {remote startAtRoot}

theorem directoryPath_injective {others : List JavaString}
    (valid : ∀ name ∈ names, IsName name) (validOthers : ∀ name ∈ others, IsName name)
    (same : directoryPath remote startAtRoot names = directoryPath remote startAtRoot others) :
    names = others := by
  by_cases noNames : names = []
  · by_cases noOthers : others = []
    · rw [noNames, noOthers]
    · apply absurd _ (directoryPath_ne_rootPath remote startAtRoot
        validOthers noOthers)
      rw [← same, directoryPath, if_pos noNames]
  · by_cases noOthers : others = []
    · apply absurd _ (directoryPath_ne_rootPath remote startAtRoot
        valid noNames)
      rw [same, directoryPath, if_pos noOthers]
    · have joined : ['/'].intercalate names = ['/'].intercalate others := by
        simp only [directoryPath, if_neg noNames, if_neg noOthers] at same
        cases startAtRoot with
        | false => exact same
        | true => exact (List.cons.inj same).2
      rw [← splitOn_intercalate valid noNames, joined, splitOn_intercalate validOthers noOthers]

end Paths

/-! ## Rebuilding the stack -/

section Rebuilding

variable {remote : JavaString} {startAtRoot : Bool} {names : List JavaString}

/-- What `splitCurrentPath` takes for the prefix of a path. -/
def pathStart (startAtRoot : Bool) : JavaString :=
  if startAtRoot then ['/'] else []

theorem splitCurrentPath_eq (valid : ∀ name ∈ names, IsName name) (nonempty : names ≠ []) :
    Fragment.splitCurrentPath (Fragment.rootPath remote)
        (directoryPath remote startAtRoot names) =
      ⟨pathStart startAtRoot, names⟩ := by
  have below := not_rootPath_prefix remote startAtRoot valid nonempty
  have whole : (names.filter fun segment => !segment.isEmpty) = names := by
    rw [List.filter_eq_self]
    intro name member
    simpa using (valid name member).nonempty
  rw [Fragment.splitCurrentPath, if_neg below, directoryPath, if_neg nonempty]
  cases startAtRoot with
  | false =>
    rcases intercalate_head valid nonempty with ⟨c, rest, joined, other⟩
    have relative : ¬['/'] <+: ['/'].intercalate names := by
      rw [joined]
      intro start
      exact other (List.cons_prefix_cons.mp start).1.symm
    simp only [Bool.false_eq_true, if_false, if_neg relative, splitOn_intercalate valid nonempty,
      whole, pathStart]
  | true =>
    have rooted : ['/'] <+: '/' :: ['/'].intercalate names :=
      List.cons_prefix_cons.mpr ⟨rfl, List.nil_prefix⟩
    have split : ('/' :: ['/'].intercalate names).splitOn '/' = [] :: names := by
      rw [← List.nil_append ('/' :: ['/'].intercalate names), splitOn_append_sep,
        splitOn_intercalate valid nonempty]
      rfl
    simp only [if_true, if_pos rooted, split, pathStart, List.filter_cons, List.isEmpty_nil,
      Bool.not_true, Bool.false_eq_true, if_false, whole]

/-- A segment leads from a directory to the one below. -/
theorem appendPathSegment_eq (valid : ∀ name ∈ names, IsName name) (name : JavaString) :
    Fragment.appendPathSegment
        (if names = [] then pathStart startAtRoot else directoryPath remote startAtRoot names)
        name =
      directoryPath remote startAtRoot (names ++ [name]) := by
  have below : directoryPath remote startAtRoot (names ++ [name]) =
      if startAtRoot then '/' :: ['/'].intercalate (names ++ [name])
      else ['/'].intercalate (names ++ [name]) :=
    if_neg (by simp)
  rw [below]
  by_cases noNames : names = []
  · subst noNames
    rw [if_pos rfl, List.nil_append, List.intercalate_singleton]
    cases startAtRoot with
    | false => rfl
    | true => rfl
  · rcases intercalate_head valid noNames with ⟨c, rest, joined, other⟩
    rw [if_neg noNames, directoryPath, if_neg noNames, intercalate_concat noNames, joined,
      Fragment.appendPathSegment]
    cases startAtRoot with
    | false => simp [other]
    | true => simp

theorem accumulatedPaths_eq {front back : List JavaString}
    (validFront : ∀ name ∈ front, IsName name) (validBack : ∀ name ∈ back, IsName name) :
    Fragment.accumulatedPaths
        (if front = [] then pathStart startAtRoot else directoryPath remote startAtRoot front)
        back =
      back.inits.tail.map fun names => directoryPath remote startAtRoot (front ++ names) := by
  induction back generalizing front with
  | nil => rfl
  | cons name back inductionHypothesis =>
    have isName := validBack name (List.mem_cons_self ..)
    have next := @inductionHypothesis (front ++ [name])
      (by
        intro other member
        rcases List.mem_append.mp member with member | member
        · exact validFront other member
        · rw [List.mem_singleton.mp member]
          exact isName)
      (fun other member => validBack other (List.mem_cons_of_mem _ member))
    rw [if_neg (by simp)] at next
    simp only [Fragment.accumulatedPaths]
    rw [appendPathSegment_eq validFront, next, List.inits_cons, List.tail_cons, List.map_map]
    cases back with
    | nil => rfl
    | cons other back => simp

theorem ancestors_eq_cons (nonempty : names ≠ []) :
    ancestors remote startAtRoot names =
      Fragment.rootPath remote ::
        names.dropLast.inits.tail.map (directoryPath remote startAtRoot) := by
  rcases List.eq_nil_or_concat' names with rfl | ⟨front, last, rfl⟩
  · exact absurd rfl nonempty
  · rw [ancestors, inits_concat, List.dropLast_concat, List.dropLast_concat]
    cases front with
    | nil => rfl
    | cons name front => rfl

theorem isEmpty_directoryPath (valid : ∀ name ∈ names, IsName name) (nonempty : names ≠ []) :
    (directoryPath remote startAtRoot names).isEmpty = false := by
  rcases intercalate_head valid nonempty with ⟨c, rest, joined, _⟩
  rw [directoryPath, if_neg nonempty, joined]
  cases startAtRoot with
  | false => rfl
  | true => rfl

/-- The explorer rebuilds the ancestors of every directory. -/
theorem buildStackFromPath_eq (valid : ∀ name ∈ names, IsName name) :
    Fragment.buildStackFromPath remote (directoryPath remote startAtRoot names) =
      (ancestors remote startAtRoot names).reverse := by
  by_cases noNames : names = []
  · subst noNames
    simp [Fragment.buildStackFromPath, directoryPath, ancestors]
  · have notRoot := directoryPath_ne_rootPath remote startAtRoot valid noNames
    have notEmpty := @isEmpty_directoryPath remote startAtRoot _ valid noNames
    have accumulated := @accumulatedPaths_eq remote startAtRoot [] names.dropLast (by simp)
      (fun name member => valid name (List.dropLast_subset _ member))
    rw [if_pos rfl] at accumulated
    rw [Fragment.buildStackFromPath, if_neg (by simp [notEmpty, notRoot]),
      splitCurrentPath_eq valid noNames]
    simp only [accumulated, List.nil_append]
    rw [ancestors_eq_cons noNames, List.reverse_cons]

/-- The explorer rebuilds the crumbs of every directory. -/
theorem rebuildBreadcrumbs_eq (valid : ∀ name ∈ names, IsName name) :
    Fragment.rebuildBreadcrumbs remote (directoryPath remote startAtRoot names) =
      ancestors remote startAtRoot names ++ [directoryPath remote startAtRoot names] := by
  rcases List.eq_nil_or_concat' names with rfl | ⟨front, last, rfl⟩
  · simp [Fragment.rebuildBreadcrumbs, directoryPath, ancestors]
  · have nonempty : front ++ [last] ≠ [] := by simp
    have notRoot := directoryPath_ne_rootPath remote startAtRoot valid nonempty
    have notEmpty := @isEmpty_directoryPath remote startAtRoot _ valid nonempty
    have accumulated := @accumulatedPaths_eq remote startAtRoot [] _ (by simp) valid
    rw [if_pos rfl] at accumulated
    rw [Fragment.rebuildBreadcrumbs, if_neg (by simp [notEmpty, notRoot]),
      splitCurrentPath_eq valid nonempty]
    simp only [accumulated, List.nil_append]
    rw [ancestors_eq_cons nonempty, List.dropLast_concat, inits_concat, List.cons_append]
    cases front with
    | nil => rfl
    | cons name front => simp

theorem slashLoop_append {before name rest : JavaString} (free : '/' ∉ name) :
    Fragment.slashLoop before (name ++ rest) = Fragment.slashLoop (before ++ name) rest := by
  induction name generalizing before with
  | nil => rw [List.nil_append, List.append_nil]
  | cons c name inductionHypothesis =>
    have other : c ≠ '/' := by
      rintro rfl
      exact free (List.mem_cons_self ..)
    have tailFree : '/' ∉ name := fun member => free (List.mem_cons_of_mem _ member)
    rw [List.cons_append, Fragment.slashLoop, if_neg other, inductionHypothesis tailFree,
      List.append_assoc, List.singleton_append]

theorem intercalate_cons (name : JavaString) (names : List JavaString) :
    ['/'].intercalate (name :: names) = name ++ rooted '/' names := by
  induction names generalizing name with
  | nil => rw [List.intercalate_singleton, rooted_nil, List.append_nil]
  | cons next names inductionHypothesis =>
    rw [List.intercalate_cons_cons, inductionHypothesis, rooted_cons, List.append_assoc,
      List.singleton_append]

theorem inits_cons_dropLast {α : Type} (value : α) (values : List α) :
    (value :: values).inits.dropLast = [] :: values.inits.dropLast.map (value :: ·) := by
  rw [List.inits_cons, List.dropLast_cons_of_ne_nil, List.map_dropLast]
  intro none
  have length := congrArg List.length none
  simp at length

/-- Behind the joined names of a directory the loop finds those of the directories
below it. -/
theorem slashLoop_rooted {front back : List JavaString}
    (valid : ∀ name ∈ front ++ back, IsName name) (nonempty : front ≠ []) :
    Fragment.slashLoop (['/'].intercalate front) (rooted '/' back) =
      back.inits.dropLast.map fun names => ['/'].intercalate (front ++ names) := by
  induction back generalizing front with
  | nil => rfl
  | cons name back inductionHypothesis =>
    have frontValid : ∀ name ∈ front, IsName name :=
      fun other member => valid other (List.mem_append_left _ member)
    have isName : IsName name := valid name (by simp)
    have joined : (['/'].intercalate front).isEmpty = false := by
      rcases intercalate_head frontValid nonempty with ⟨c, rest, joined, _⟩
      rw [joined]
      rfl
    have next := @inductionHypothesis (front ++ [name])
      (by simpa only [List.append_assoc, List.singleton_append] using valid) (by simp)
    rw [intercalate_concat nonempty] at next
    rw [rooted_cons, Fragment.slashLoop, if_pos rfl, joined, if_neg Bool.false_ne_true,
      slashLoop_append isName.noSlash, List.append_assoc, List.singleton_append, next,
      inits_cons_dropLast, List.map_cons, List.append_nil, List.map_map]
    simp only [List.append_assoc, List.singleton_append, Function.comp_def]

/-- The folder picker rebuilds the ancestors of a directory that is browsed from the
home directory. -/
theorem pickerBuildStackFromPath_relative (valid : ∀ name ∈ names, IsName name) :
    Fragment.pickerBuildStackFromPath remote (directoryPath remote false names) [] =
      (ancestors remote false names).reverse := by
  cases names with
  | nil => simp [Fragment.pickerBuildStackFromPath, directoryPath, ancestors]
  | cons name names =>
    have nonempty : name :: names ≠ [] := List.cons_ne_nil _ _
    have notRoot := directoryPath_ne_rootPath remote false valid nonempty
    have isName := valid name (List.mem_cons_self ..)
    have found := @slashLoop_rooted [name] names valid (List.cons_ne_nil _ _)
    rw [List.intercalate_singleton] at found
    rw [Fragment.pickerBuildStackFromPath, if_neg notRoot, directoryPath, if_neg nonempty,
      if_neg Bool.false_ne_true, intercalate_cons, slashLoop_append isName.noSlash,
      List.nil_append, found, ancestors, inits_cons_dropLast, List.map_cons, List.reverse_cons,
      List.map_map]
    rfl

/-- At a rooted path its loop stops before the first slash. -/
theorem pickerBuildStackFromPath_rooted (valid : ∀ name ∈ names, IsName name)
    (nonempty : names ≠ []) :
    Fragment.pickerBuildStackFromPath remote (directoryPath remote true names) [] =
      [Fragment.rootPath remote] := by
  have notRoot := directoryPath_ne_rootPath remote true valid nonempty
  rw [Fragment.pickerBuildStackFromPath, if_neg notRoot, directoryPath, if_neg nonempty, if_pos rfl]
  rfl

/-- It rebuilds the stack except below the first level of a remote that is browsed
from its root. -/
theorem pickerBuildStackFromPath_eq_iff (valid : ∀ name ∈ names, IsName name) :
    Fragment.pickerBuildStackFromPath remote (directoryPath remote startAtRoot names) [] =
        (ancestors remote startAtRoot names).reverse ↔
      ¬(startAtRoot = true ∧ 2 ≤ names.length) := by
  cases startAtRoot with
  | false => simp [pickerBuildStackFromPath_relative valid]
  | true =>
    by_cases noNames : names = []
    · subst noNames
      simp [Fragment.pickerBuildStackFromPath, directoryPath, ancestors]
    · rw [pickerBuildStackFromPath_rooted valid noNames]
      have count : (ancestors remote true names).length = names.length := by
        rw [ancestors, List.length_map, List.length_dropLast, List.length_inits,
          Nat.add_sub_cancel]
      have positive : 0 < names.length := List.length_pos_iff.mpr noNames
      constructor
      · rintro same ⟨_, deep⟩
        have lengths := congrArg List.length same
        rw [List.length_reverse, count, List.length_singleton] at lengths
        omega
      · intro shallow
        have one : names.length = 1 := by
          by_contra other
          exact shallow ⟨rfl, by omega⟩
        rcases List.length_eq_one_iff.mp one with ⟨name, rfl⟩
        rfl

end Rebuilding

/-! ## Live navigation -/

/-- Where a fragment is: what navigation reads and writes. -/
structure Place where
  remoteName : JavaString
  startAtRoot : Bool
  currentDir : JavaString
  pathStack : List JavaString
  crumbs : List JavaString
  moveStartPath : Option JavaString

def Fragment.place (fragment : Fragment) : Place where
  remoteName := fragment.remoteName
  startAtRoot := fragment.startAtRoot
  currentDir := fragment.directoryObject.currentDir
  pathStack := fragment.pathStack
  crumbs := fragment.crumbs
  moveStartPath := fragment.moveStartPath

namespace Fragment

variable {platform : Platform} {fragment next : Fragment} {now : Int} {path : JavaString}

@[simp]
theorem place_newData (data : List FileItem) : (fragment.newData data).place = fragment.place :=
  rfl

@[simp]
theorem place_clearAdapter : fragment.clearAdapter.place = fragment.place :=
  rfl

@[simp]
theorem place_cancelFetch : fragment.cancelFetch.place = fragment.place :=
  rfl

@[simp]
theorem place_startFetch (silentFetch : Bool) :
    (fragment.startFetch silentFetch).place = fragment.place :=
  rfl

@[simp]
theorem place_loadDisplayMode : (fragment.loadDisplayMode platform path).place = fragment.place := by
  rw [loadDisplayMode]
  split
  · rfl
  · rfl

@[simp]
theorem place_setCurrentDirectoryPath :
    (fragment.setCurrentDirectoryPath platform path).place =
      { fragment.place with currentDir := path } := by
  rw [setCurrentDirectoryPath, place_loadDisplayMode]
  rfl

@[simp]
theorem place_searchDirContent (search : JavaString) :
    (fragment.searchDirContent platform search).place = fragment.place := by
  simp only [searchDirContent]
  split_ifs
  · rfl
  · rfl
  · rfl
  · rfl
  · rfl

@[simp]
theorem place_searchClicked : (fragment.searchClicked platform).place = fragment.place := by
  rw [searchClicked]
  split
  · exact place_searchDirContent []
  · rfl

@[simp]
theorem place_leaveSearch : (fragment.leaveSearch platform).place = fragment.place := by
  rw [leaveSearch]
  split
  · exact place_searchClicked
  · rfl

theorem place_restoreCurrentDirectoryFromCache
    (restored : fragment.restoreCurrentDirectoryFromCache platform path = some next) :
    next.place = { fragment.place with currentDir := path } := by
  rcases Option.map_eq_some_iff.mp restored with ⟨directory, cached, rfl⟩
  rcases Option.map_eq_some_iff.mp cached with ⟨_, _, rfl⟩
  rw [place_loadDisplayMode]
  rfl

theorem place_sortContent {sortCase : Explorer.Sorting × Int}
    (sorted : fragment.sortContent platform now sortCase = some next) :
    next.place = fragment.place := by
  rcases Option.map_eq_some_iff.mp sorted with ⟨_, _, rfl⟩
  rfl

theorem place_showCached (shown : fragment.showCached platform now path = some next) :
    next.place = { fragment.place with currentDir := path } := by
  rcases Option.bind_eq_some_iff.mp shown with ⟨restored, fromCache, shown⟩
  rcases Option.bind_eq_some_iff.mp shown with ⟨sorted, inOrder, shown⟩
  cases shown
  rw [place_newData, place_sortContent inOrder,
    place_restoreCurrentDirectoryFromCache fromCache]

theorem place_showDirectory {otherwise : Fragment → Fragment}
    (moves : (otherwise fragment).place = { fragment.place with currentDir := path })
    (shown : fragment.showDirectory platform now path otherwise = some next) :
    next.place = { fragment.place with currentDir := path } := by
  rw [showDirectory] at shown
  split_ifs at shown
  · rcases Option.map_eq_some_iff.mp shown with ⟨cached, fromCache, rfl⟩
    rw [place_startFetch, place_showCached fromCache]
  · exact place_showCached shown
  · cases shown
    rw [place_startFetch, moves]

theorem place_onDirectoryClicked {fileItem : FileItem}
    (handled : fragment.onDirectoryClicked platform now fileItem = some next) :
    next.place = { fragment.place with
      crumbs := fragment.crumbs ++ [fileItem.getPath]
      pathStack := fragment.directoryObject.currentDir :: fragment.pathStack
      currentDir := fileItem.getPath } := by
  simp only [onDirectoryClicked] at handled
  rw [place_showDirectory _ handled]
  · rw [place_cancelFetch, place_leaveSearch]
    rfl
  · rw [place_clearAdapter, place_setCurrentDirectoryPath]

theorem place_onBackButtonPressed
    (handled : fragment.onBackButtonPressed platform now = some next) :
    next.place = fragment.place ∨ ∃ path rest, fragment.pathStack = path :: rest ∧
      next.place = { fragment.place with
        crumbs := fragment.crumbs.dropLast
        pathStack := rest
        currentDir := path } := by
  rw [onBackButtonPressed] at handled
  split_ifs at handled
  · cases handled
    exact Or.inl rfl
  · cases handled
    exact Or.inl place_searchClicked
  · split at handled
    next => cases handled; exact Or.inl rfl
    next path rest stack =>
      refine Or.inr ⟨path, rest, stack, ?_⟩
      rw [place_showDirectory place_setCurrentDirectoryPath handled]
      rfl

theorem place_onBreadCrumbClicked
    (handled : fragment.onBreadCrumbClicked platform now path = some next) :
    next.place = if fragment.directoryObject.currentDir = path then fragment.place
      else { fragment.place with
        currentDir := path
        pathStack := popUntil path fragment.pathStack
        crumbs := removeCrumbsUpTo path fragment.crumbs } := by
  simp only [onBreadCrumbClicked] at handled
  have same : (fragment.leaveSearch platform).place = fragment.place := place_leaveSearch
  generalize fragment.leaveSearch platform = left at handled same
  have current : left.directoryObject.currentDir = fragment.directoryObject.currentDir :=
    congrArg Place.currentDir same
  rw [← current]
  split_ifs at handled ⊢
  · cases handled
    exact same
  · have moved := @place_setCurrentDirectoryPath platform left.cancelFetch path
    rw [place_cancelFetch, same] at moved
    generalize left.cancelFetch.setCurrentDirectoryPath platform path = set at handled moved
    have stack : set.pathStack = fragment.pathStack := congrArg Place.pathStack moved
    have crumbs : set.crumbs = fragment.crumbs := congrArg Place.crumbs moved
    have arrived : set.directoryObject.currentDir = path := congrArg Place.currentDir moved
    have popped : ({ set with
        pathStack := popUntil path set.pathStack
        crumbs := removeCrumbsUpTo path set.crumbs } : Fragment).place =
      { fragment.place with
        currentDir := path
        pathStack := popUntil path fragment.pathStack
        crumbs := removeCrumbsUpTo path fragment.crumbs } := by
      rw [← stack, ← crumbs]
      show ({ set.place with
        pathStack := popUntil path set.pathStack
        crumbs := removeCrumbsUpTo path set.crumbs } : Place) = _
      rw [moved]
    rw [place_showDirectory _ handled, place_clearAdapter, popped]
    rw [id_eq, place_clearAdapter, popped]

theorem place_sortSelected {sortBy : SortBy} {ascending : Bool}
    (handled : fragment.onPositiveButtonClick platform now sortBy ascending = some next) :
    next.place = fragment.place := by
  rw [onPositiveButtonClick] at handled
  split_ifs at handled
  · cases handled
    rfl
  · rcases Option.map_eq_some_iff.mp handled with ⟨sorted, inOrder, rfl⟩
    rw [← place_sortContent inOrder]
    split_ifs
    · rfl
    · rfl

theorem place_fetchRuns (listing : Option (List FileItem)) :
    (fragment.fetchRuns listing).place = fragment.place := by
  rw [fetchRuns]
  split
  · rfl
  · rfl

theorem place_showFetched {silentFetch : Bool}
    (handled : fragment.showFetched platform silentFetch = some next) :
    next.place = fragment.place := by
  rw [showFetched] at handled
  split at handled
  · cases handled
    exact place_searchDirContent _
  · split at handled
    · rcases Option.map_eq_some_iff.mp handled with ⟨_, _, rfl⟩
      rfl
    · cases handled
      rfl

theorem place_onPostExecute {silentFetch : Bool} {fileItems : Option (List FileItem)}
    (handled : fragment.onPostExecute platform now silentFetch fileItems = some next) :
    next.place = fragment.place := by
  rw [onPostExecute] at handled
  split at handled
  · cases handled
    rfl
  · rcases Option.bind_eq_some_iff.mp handled with ⟨sorted, inOrder, shown⟩
    rw [sortDirectory] at inOrder
    rw [place_showFetched shown, place_sortContent inOrder]
    rfl

theorem place_fetchDelivered (handled : fragment.fetchDelivered platform now = some next) :
    next.place = fragment.place := by
  rw [fetchDelivered] at handled
  split at handled
  · rw [place_onPostExecute handled]
    rfl
  · cases handled
    rfl

theorem place_showMoveStart (shown : fragment.showMoveStart platform path = some next) :
    next.place = { fragment.place with currentDir := path } := by
  rw [showMoveStart] at shown
  split at shown
  · rcases Option.map_eq_some_iff.mp shown with ⟨restored, fromCache, rfl⟩
    rw [place_newData, place_restoreCurrentDirectoryFromCache fromCache]
  · cases shown
    rw [place_startFetch, place_clearAdapter, place_setCurrentDirectoryPath]

theorem place_cancelMoveClicked (handled : fragment.cancelMoveClicked platform = some next) :
    next.place = fragment.place ∨ ∃ path, fragment.moveStartPath = some path ∧
      next.place = { fragment.place with
        currentDir := path
        pathStack := buildStackFromPath fragment.remoteName path
        crumbs := rebuildBreadcrumbs fragment.remoteName path
        moveStartPath := none } := by
  simp only [cancelMoveClicked] at handled
  split at handled
  next => cases handled; exact Or.inl rfl
  next path started =>
    split at handled
    · cases handled
      exact Or.inl rfl
    · rcases Option.map_eq_some_iff.mp handled with ⟨shown, fromStart, rfl⟩
      have moved := place_showMoveStart fromStart
      have remote : shown.remoteName = fragment.remoteName := congrArg Place.remoteName moved
      have current : shown.directoryObject.currentDir = path := congrArg Place.currentDir moved
      refine Or.inr ⟨path, started, ?_⟩
      show ({ shown.place with
        pathStack := buildStackFromPath shown.remoteName path
        crumbs := rebuildBreadcrumbs shown.remoteName shown.directoryObject.currentDir
        moveStartPath := none } : Place) = _
      rw [moved, remote, current]
      rfl

end Fragment

/-- The fragment shows the directory that names lead to: the stack holds the directories
above, the nearest first, and the crumbs hold them and the directory.  A move was
started in some directory of the remote. -/
structure AtDirectory (names : List JavaString) (place : Place) : Prop where
  valid : ∀ name ∈ names, IsName name
  currentDir : place.currentDir = directoryPath place.remoteName place.startAtRoot names
  pathStack : place.pathStack = (ancestors place.remoteName place.startAtRoot names).reverse
  crumbs : place.crumbs =
    ancestors place.remoteName place.startAtRoot names ++ [place.currentDir]
  moveStartPath : ∀ path ∈ place.moveStartPath, ∃ others : List JavaString,
    (∀ name ∈ others, IsName name) ∧
      path = directoryPath place.remoteName place.startAtRoot others

section Steps

variable {names : List JavaString} {place : Place}

/-- Opening a directory. -/
theorem AtDirectory.opened {name path : JavaString} (at_ : AtDirectory names place)
    (isName : IsName name)
    (child : path = directoryPath place.remoteName place.startAtRoot (names ++ [name])) :
    AtDirectory (names ++ [name]) { place with
      crumbs := place.crumbs ++ [path]
      pathStack := place.currentDir :: place.pathStack
      currentDir := path } where
  valid other member := by
    rcases List.mem_append.mp member with member | member
    · exact at_.valid other member
    · rw [List.mem_singleton.mp member]
      exact isName
  currentDir := child
  pathStack := by
    rw [ancestors_concat, List.reverse_concat, at_.pathStack, at_.currentDir]
  crumbs := by
    rw [ancestors_concat, at_.crumbs, at_.currentDir]
  moveStartPath := at_.moveStartPath

/-- Going back. -/
theorem AtDirectory.back {path : JavaString} {rest : List JavaString}
    (at_ : AtDirectory names place) (popped : place.pathStack = path :: rest) :
    AtDirectory names.dropLast { place with
      crumbs := place.crumbs.dropLast
      pathStack := rest
      currentDir := path } := by
  rcases List.eq_nil_or_concat' names with rfl | ⟨front, last, rfl⟩
  · rw [at_.pathStack] at popped
    contradiction
  · rw [at_.pathStack, ancestors_concat, List.reverse_concat] at popped
    rcases List.cons.inj popped with ⟨rfl, rfl⟩
    rw [List.dropLast_concat]
    constructor
    · intro name member
      exact at_.valid name (List.mem_append_left _ member)
    · rfl
    · rfl
    · rw [at_.crumbs, List.dropLast_concat, ancestors_concat]
    · exact at_.moveStartPath

theorem removeCrumbsUpTo_split {before behind : List JavaString} {path : JavaString}
    (free : path ∉ behind) :
    Fragment.removeCrumbsUpTo path (before ++ path :: behind) = before ++ [path] := by
  have others : ∀ other ∈ behind.reverse, decide (other ≠ path) = true := by
    intro other member
    rw [decide_eq_true_eq]
    rintro rfl
    exact free (List.mem_reverse.mp member)
  rw [Fragment.removeCrumbsUpTo, List.reverse_append, List.reverse_cons, List.append_assoc,
    List.dropWhile_append_of_pos others]
  simp

theorem popUntil_split {before behind : List JavaString} {path : JavaString}
    (free : path ∉ behind) :
    Fragment.popUntil path (before ++ path :: behind).reverse = before.reverse := by
  have others : ∀ other ∈ behind.reverse, decide (other ≠ path) = true := by
    intro other member
    rw [decide_eq_true_eq]
    rintro rfl
    exact free (List.mem_reverse.mp member)
  rw [Fragment.popUntil, List.reverse_append, List.reverse_cons, List.append_assoc,
    List.dropWhile_append_of_pos others]
  simp

/-- The paths above a directory, from that of a directory above it on. -/
theorem ancestors_append {front back : List JavaString} (remote : JavaString)
    (startAtRoot : Bool) (nonempty : back ≠ []) :
    ∃ behind : List JavaString, ancestors remote startAtRoot (front ++ back) =
        ancestors remote startAtRoot front ++
          directoryPath remote startAtRoot front :: behind ∧
      ∀ path ∈ behind, ∃ names, names ≠ [] ∧ names <+: back ∧
        path = directoryPath remote startAtRoot (front ++ names) := by
  induction back using List.reverseRecOn with
  | nil => exact absurd rfl nonempty
  | append_singleton back name inductionHypothesis =>
    rw [← List.append_assoc, ancestors_concat]
    by_cases first : back = []
    · subst first
      refine ⟨[], ?_, by simp⟩
      rw [List.append_nil]
    · rcases inductionHypothesis first with ⟨behind, split, below⟩
      refine ⟨behind ++ [directoryPath remote startAtRoot (front ++ back)], ?_, ?_⟩
      · rw [split, List.append_assoc, List.cons_append]
      · intro path member
        rcases List.mem_append.mp member with member | member
        · rcases below path member with ⟨names, more, start, rfl⟩
          exact ⟨names, more, start.trans (List.prefix_append _ _), rfl⟩
        · rw [List.mem_singleton.mp member]
          exact ⟨back, first, List.prefix_append _ _, rfl⟩

/-- The crumbs lead to the directories above and to the directory itself. -/
theorem AtDirectory.crumb {index : Nat} {path : JavaString} (at_ : AtDirectory names place)
    (found : place.crumbs[index]? = some path) :
    ∃ front back, names = front ++ back ∧
      path = directoryPath place.remoteName place.startAtRoot front := by
  have member := List.mem_of_getElem? found
  rw [at_.crumbs] at member
  rcases List.mem_append.mp member with member | member
  · rcases List.mem_map.mp member with ⟨front, inside, rfl⟩
    rcases (List.mem_inits _ _).mp (List.dropLast_subset _ inside) with ⟨back, split⟩
    exact ⟨front, back, split.symm, rfl⟩
  · rw [List.mem_singleton.mp member, at_.currentDir]
    exact ⟨names, [], (List.append_nil _).symm, rfl⟩

/-- A click on the crumb of a directory above. -/
theorem AtDirectory.jumped {front back : List JavaString} {path : JavaString}
    (at_ : AtDirectory (front ++ back) place) (nonempty : back ≠ [])
    (above : path = directoryPath place.remoteName place.startAtRoot front) :
    AtDirectory front { place with
      currentDir := path
      pathStack := Fragment.popUntil path place.pathStack
      crumbs := Fragment.removeCrumbsUpTo path place.crumbs } := by
  rcases @ancestors_append front _ place.remoteName place.startAtRoot nonempty with
    ⟨behind, split, below⟩
  have valid : ∀ name ∈ front, IsName name :=
    fun name member => at_.valid name (List.mem_append_left _ member)
  have differs : ∀ names : List JavaString, names ≠ [] → names <+: back →
      path ≠ directoryPath place.remoteName place.startAtRoot (front ++ names) := by
    intro names more start same
    rw [above] at same
    have equal := directoryPath_injective valid
      (fun name member => at_.valid name (List.append_subset.mpr
        ⟨List.subset_append_left _ _, fun _ inside =>
          List.mem_append_right _ (start.subset inside)⟩ member)) same
    have lengths := congrArg List.length equal
    rw [List.length_append] at lengths
    exact more (List.length_eq_zero_iff.mp (by omega))
  have free : path ∉ behind := by
    intro member
    rcases below path member with ⟨names, more, start, same⟩
    exact differs names more start same
  constructor
  · exact valid
  · exact above
  · show Fragment.popUntil path place.pathStack = _
    rw [at_.pathStack, split, ← above, popUntil_split free]
  · show Fragment.removeCrumbsUpTo path place.crumbs = _
    have freeCurrent : path ∉ behind ++ [place.currentDir] := by
      intro member
      rcases List.mem_append.mp member with member | member
      · exact free member
      · rw [List.mem_singleton, at_.currentDir] at member
        exact differs back nonempty (List.prefix_refl _) member
    rw [at_.crumbs, split, ← above, List.append_assoc, List.cons_append,
      removeCrumbsUpTo_split freeCurrent]
  · exact at_.moveStartPath

/-- Going back to where a move was started. -/
theorem AtDirectory.returned {path : JavaString} (at_ : AtDirectory names place)
    (started : place.moveStartPath = some path) :
    ∃ others, AtDirectory others { place with
      currentDir := path
      pathStack := Fragment.buildStackFromPath place.remoteName path
      crumbs := Fragment.rebuildBreadcrumbs place.remoteName path
      moveStartPath := none } := by
  rcases at_.moveStartPath path started with ⟨others, valid, rfl⟩
  refine ⟨others, ?_⟩
  constructor
  · exact valid
  · rfl
  · exact buildStackFromPath_eq valid
  · exact rebuildBreadcrumbs_eq valid
  · intro path member
    contradiction

end Steps

/-! ## Runs -/

/-- An entry as `getDirectoryContent` lists it in the current directory. -/
def IsChild (fragment : Fragment) (fileItem : FileItem) : Prop :=
  ∃ name, IsName name ∧ fileItem.startAtRoot = fragment.startAtRoot ∧
    fileItem.path =
      (if fragment.directoryObject.currentDir = Fragment.rootPath fragment.remoteName then []
        else fragment.directoryObject.currentDir ++ ['/']) ++ name

/-- Only entries of the current directory are opened. -/
def OpensChild (state : Option Fragment) (event : Event × Int) : Prop :=
  ∀ fragment ∈ state, ∀ fileItem, event.1 = .directoryClicked fileItem → IsChild fragment fileItem

variable {platform : Platform} {fragment next : Fragment} {now : Int} {names : List JavaString}

/-- The path of an entry is that of the directory with its name behind it. -/
theorem getPath_child {fileItem : FileItem} (at_ : AtDirectory names fragment.place)
    (child : IsChild fragment fileItem) :
    ∃ name, IsName name ∧ fileItem.getPath =
      directoryPath fragment.remoteName fragment.startAtRoot (names ++ [name]) := by
  rcases child with ⟨name, isName, sameMode, listed⟩
  refine ⟨name, isName, ?_⟩
  have current : fragment.directoryObject.currentDir =
    directoryPath fragment.remoteName fragment.startAtRoot names := at_.currentDir
  have noSlashHead : name.head? ≠ some '/' := by
    intro slash
    exact isName.noSlash (List.mem_of_mem_head? slash)
  have below : directoryPath fragment.remoteName fragment.startAtRoot (names ++ [name]) =
      if fragment.startAtRoot then '/' :: ['/'].intercalate (names ++ [name])
      else ['/'].intercalate (names ++ [name]) :=
    if_neg (by simp)
  rw [below, FileItem.getPath, listed, sameMode, current]
  by_cases noNames : names = []
  · subst noNames
    rw [List.nil_append, List.intercalate_singleton, directoryPath, if_pos rfl, if_pos rfl,
      List.nil_append]
    cases fragment.startAtRoot with
    | false => rfl
    | true => simp [noSlashHead]
  · rw [if_neg (directoryPath_ne_rootPath _ _ at_.valid noNames), intercalate_concat noNames,
      directoryPath, if_neg noNames]
    cases fragment.startAtRoot with
    | false => simp
    | true => simp

/-- A click on a crumb once more. -/
theorem AtDirectory.crumbs_again {place : Place} (at_ : AtDirectory names place) :
    AtDirectory names { place with
      crumbs := Fragment.removeCrumbsUpTo place.currentDir place.crumbs } := by
  constructor
  · exact at_.valid
  · exact at_.currentDir
  · exact at_.pathStack
  · show Fragment.removeCrumbsUpTo place.currentDir place.crumbs = _
    rw [at_.crumbs]
    exact removeCrumbsUpTo_split List.not_mem_nil
  · exact at_.moveStartPath

theorem AtDirectory.crumbClicked {index : Nat} (at_ : AtDirectory names fragment.place)
    (handled : fragment.crumbClicked platform now index = some next) :
    ∃ others, AtDirectory others next.place := by
  rw [Fragment.crumbClicked] at handled
  split at handled
  next => cases handled; exact ⟨names, at_⟩
  next path found =>
    rcases Option.map_eq_some_iff.mp handled with ⟨clicked, breadCrumb, rfl⟩
    have moved := Fragment.place_onBreadCrumbClicked breadCrumb
    have shown : ∃ others, AtDirectory others clicked.place ∧ clicked.place.currentDir = path := by
      rw [moved]
      split
      next same => exact ⟨names, at_, same⟩
      next other =>
        rcases at_.crumb found with ⟨front, back, rfl, above⟩
        refine ⟨front, at_.jumped ?_ above, rfl⟩
        rintro rfl
        rw [List.append_nil] at at_
        exact other (at_.currentDir.trans above.symm)
    rcases shown with ⟨others, atOthers, rfl⟩
    exact ⟨others, atOthers.crumbs_again⟩

/-- Every event leads from a directory of the remote to one. -/
theorem AtDirectory.handle {event : Event} (at_ : AtDirectory names fragment.place)
    (opens : ∀ fileItem, event = .directoryClicked fileItem → IsChild fragment fileItem)
    (handled : fragment.handle platform now event = some next) :
    ∃ others, AtDirectory others next.place := by
  have stays : next.place = fragment.place → ∃ others, AtDirectory others next.place := by
    intro same
    rw [same]
    exact ⟨names, at_⟩
  cases event with
  | directoryClicked fileItem =>
    rcases getPath_child at_ (opens fileItem rfl) with ⟨name, isName, path⟩
    rw [Fragment.place_onDirectoryClicked handled]
    exact ⟨_, at_.opened isName path⟩
  | backPressed =>
    rcases Fragment.place_onBackButtonPressed handled with same | ⟨path, rest, popped, moved⟩
    · exact stays same
    · rw [moved]
      exact ⟨_, at_.back popped⟩
  | crumbClicked index => exact at_.crumbClicked handled
  | cancelMoveClicked =>
    rcases Fragment.place_cancelMoveClicked handled with same | ⟨path, started, moved⟩
    · exact stays same
    · rw [moved]
      exact at_.returned started
  | moveFiles =>
    cases handled
    rw [Fragment.moveFiles]
    split
    · exact ⟨names, at_⟩
    · refine ⟨names, at_.valid, at_.currentDir, at_.pathStack, at_.crumbs, ?_⟩
      intro path started
      cases started
      exact ⟨names, at_.valid, at_.currentDir⟩
  | moveLocationSelected =>
    cases handled
    refine ⟨names, at_.valid, at_.currentDir, at_.pathStack, at_.crumbs, ?_⟩
    intro path started
    contradiction
  | fetchDelivered => exact stays (Fragment.place_fetchDelivered handled)
  | sortChosen sortBy ascending => exact stays (Fragment.place_sortSelected handled)
  | refreshed =>
    cases handled
    exact ⟨names, at_⟩
  | fetchRuns listing =>
    cases handled
    exact stays (Fragment.place_fetchRuns listing)
  | searchClicked =>
    cases handled
    exact stays Fragment.place_searchClicked
  | searchTextChanged search =>
    cases handled
    exact stays (Fragment.place_searchDirContent search)
  | adapterClicked click =>
    cases handled
    exact ⟨names, at_⟩

theorem atDirectory_onCreate (remote : JavaString) (startAtRoot : Bool) (sortOrder : Int) :
    AtDirectory [] (Fragment.onCreate remote startAtRoot sortOrder).place where
  valid name member := absurd member List.not_mem_nil
  currentDir := rfl
  pathStack := rfl
  crumbs := rfl
  moveStartPath path started := by contradiction

/-- In every state of a run the fragment shows a directory of the remote. -/
theorem always_atDirectory {opened : Fragment} (at_ : AtDirectory names opened.place)
    {events : List (Event × Int)} (opens : Meets (step platform) OpensChild (some opened) events) :
    Always (step platform)
      (fun state => ∀ fragment ∈ state, ∃ names, AtDirectory names fragment.place)
      (some opened) events := by
  apply Always.of_meets _ _ opens
  · intro state event inv opensChild next reached
    rcases Option.bind_eq_some_iff.mp reached with ⟨fragment, rfl, handled⟩
    rcases inv fragment rfl with ⟨names, at_⟩
    exact at_.handle (opensChild fragment rfl) handled
  · intro fragment member
    cases member
    exact ⟨names, at_⟩

/-- The stack holds the ancestors, and both fragments rebuild it from the path. -/
structure Restores (names : List JavaString) (fragment : Fragment) : Prop where
  live : fragment.pathStack =
    (ancestors fragment.remoteName fragment.startAtRoot names).reverse
  explorer : Fragment.buildStackFromPath fragment.remoteName fragment.directoryObject.currentDir =
    fragment.pathStack
  folderPicker : Fragment.pickerBuildStackFromPath fragment.remoteName
    fragment.directoryObject.currentDir [] = fragment.pathStack

/-- However the user came to a directory, a restored fragment has the stack of the live
one, except in the folder picker for a directory two or more levels below the root of
the file system. -/
theorem restored_eq_live_iff (platform : Platform) (remote : JavaString) (startAtRoot : Bool)
    (sortOrder : Int) {events : List (Event × Int)}
    (opens : Meets (step platform) OpensChild
      (some (Fragment.onCreate remote startAtRoot sortOrder)) events)
    (reached : run (step platform) (some (Fragment.onCreate remote startAtRoot sortOrder)) events =
      some fragment) :
    ∃ names, (∀ name ∈ names, IsName name) ∧
      fragment.directoryObject.currentDir =
        directoryPath fragment.remoteName fragment.startAtRoot names ∧
      (Restores names fragment ↔ ¬(fragment.startAtRoot = true ∧ 2 ≤ names.length)) := by
  have initial := atDirectory_onCreate remote startAtRoot sortOrder
  rcases (always_atDirectory initial opens).last fragment reached with ⟨names, at_⟩
  have current : fragment.directoryObject.currentDir =
    directoryPath fragment.remoteName fragment.startAtRoot names := at_.currentDir
  have stack : fragment.pathStack =
    (ancestors fragment.remoteName fragment.startAtRoot names).reverse := at_.pathStack
  refine ⟨names, at_.valid, current, ?_⟩
  rw [← @pickerBuildStackFromPath_eq_iff fragment.remoteName _ _ at_.valid]
  constructor
  · intro restores
    rw [← current, ← stack]
    exact restores.folderPicker
  · intro rebuilt
    refine ⟨stack, ?_, ?_⟩
    · rw [current, stack]
      exact buildStackFromPath_eq at_.valid
    · rw [current, stack]
      exact rebuilt

/-- A folder of a remote that is browsed from the root of its file system. -/
def rootedFolder (path name : JavaString) : FileItem where
  remote := ⟨['r'], 18, ['s'], false, false, false, false⟩
  path := path
  name := name
  mimeType := []
  size := 0
  modTime := 0
  isDir := true
  startAtRoot := true

/-- The folder `a` and the folder `b` in it are opened. -/
def openTwoFolders : List (Event × Int) :=
  [(.directoryClicked (rootedFolder ['a'] ['a']), 0),
    (.directoryClicked (rootedFolder ['/', 'a', '/', 'b'] ['b']), 1)]

theorem openTwoFolders_opens :
    Meets (step plainPlatform) OpensChild (some (Fragment.onCreate ['r'] true 2))
      openTwoFolders := by
  refine ⟨?_, ?_, trivial⟩
  · intro fragment member fileItem clicked
    cases member
    cases clicked
    exact ⟨['a'], ⟨by decide, by decide⟩, rfl, rfl⟩
  · intro fragment member fileItem clicked
    cases member
    cases clicked
    exact ⟨['b'], ⟨by decide, by decide⟩, rfl, rfl⟩

/-- The folder below the root is restored. -/
theorem oneFolder_restored :
    ∃ fragment names, run (step plainPlatform) (some (Fragment.onCreate ['r'] true 2))
        (openTwoFolders.take 1) = some fragment ∧
      Restores names fragment := by
  have opens : Meets (step plainPlatform) OpensChild (some (Fragment.onCreate ['r'] true 2))
      (openTwoFolders.take 1) := ⟨openTwoFolders_opens.1, trivial⟩
  rcases restored_eq_live_iff plainPlatform ['r'] true 2 opens rfl with
    ⟨names, valid, current, restores⟩
  have isName : ∀ name ∈ [['a']], IsName name := by
    intro name member
    rw [List.mem_singleton.mp member]
    exact ⟨by decide, by decide⟩
  have one : names = [['a']] := directoryPath_injective valid isName current.symm
  refine ⟨_, names, rfl, restores.mpr ?_⟩
  rw [one]
  decide

/-- The folder in it is not: the folder picker forgets the folder between. -/
theorem twoFolders_not_restored :
    ¬∀ (platform : Platform) (remote : JavaString) (startAtRoot : Bool) (sortOrder : Int)
        (events : List (Event × Int)) (fragment : Fragment) (names : List JavaString),
      Meets (step platform) OpensChild (some (Fragment.onCreate remote startAtRoot sortOrder))
        events →
      run (step platform) (some (Fragment.onCreate remote startAtRoot sortOrder)) events =
        some fragment →
      (∀ name ∈ names, IsName name) →
      fragment.directoryObject.currentDir =
        directoryPath fragment.remoteName fragment.startAtRoot names →
      Restores names fragment := by
  intro always
  have isName : ∀ name ∈ [['a'], ['b']], IsName name := by
    intro name member
    simp only [List.mem_cons, List.not_mem_nil, or_false] at member
    rcases member with rfl | rfl
    · exact ⟨by decide, by decide⟩
    · exact ⟨by decide, by decide⟩
  have restores := always plainPlatform ['r'] true 2 openTwoFolders _ [['a'], ['b']]
    openTwoFolders_opens rfl isName rfl
  exact absurd restores.folderPicker (by decide)

end RoundSync.Fragments
