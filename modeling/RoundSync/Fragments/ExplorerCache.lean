import RoundSync.Fragments.PathStacks

/-!
# The directory cache of the explorer

The explorer keeps the listings of the directories that it has shown.  A listing
is fetched for the directory that is current when the task runs, and stored under
the one that is current when it ends; navigation cancels the task in between, and
only the go-to dialog does not.  What is stored again is stored with a new time, so
the cache knows when a directory was shown, not when it was fetched.
-/

namespace RoundSync.Fragments

open RoundSync.Data
open RoundSync.Text
open RoundSync.Transition
open RoundSync.RecyclerViewAdapters

/-! ## Further events of the explorer -/

namespace Fragment

variable (platform : Platform)

/-- `onRootClicked` and `onHomeClicked`. -/
def goTo (startAtRoot : Bool) (fragment : Fragment) : Fragment :=
  let cleared := { fragment with
    startAtRoot
    directoryObject := DirectoryObject.clear }
  (cleared.setCurrentDirectoryPath platform (rootPath fragment.remoteName)).startFetch false

def removeIfCached (path : JavaString) (fragment : Fragment) : Fragment :=
  if fragment.directoryObject.isPathInCache path then
    { fragment with directoryObject := fragment.directoryObject.removePathFromCache path }
  else
    fragment

/-- What `onReceive` does with one path of a broadcast. -/
def pathChanged (path : JavaString) (fragment : Fragment) : Fragment :=
  if fragment.directoryObject.currentDir = path then
    (fragment.cancelFetch.removeIfCached path).startFetch true
  else
    fragment.removeIfCached path

/-- `onReceive` of the receiver for background tasks.  An extra that is missing is null,
and equal to no path. -/
def onReceive (broadcastRemote broadcastPath broadcastPath2 : Option JavaString)
    (fragment : Fragment) : Fragment :=
  if some fragment.remoteName ≠ broadcastRemote then
    fragment
  else
    let first := match broadcastPath with
      | some path => fragment.pathChanged path
      | none => fragment
    match broadcastPath2 with
    | some path => first.pathChanged path
    | none => first

/-- `onPostExecute` of `RenameFileTask` and of `MakeDirectoryTask`. -/
def onTaskEnded (pathWhenTaskStarted : JavaString) (fragment : Fragment) : Fragment :=
  if pathWhenTaskStarted ≠ fragment.directoryObject.currentDir then
    { fragment with
      directoryObject := fragment.directoryObject.removePathFromCache pathWhenTaskStarted }
  else
    fragment.cancelFetch.startFetch true

def onStart (now : Int) (fragment : Fragment) : Fragment :=
  if fragment.directoryObject.isContentValid now fragment.directoryObject.currentDir then
    fragment
  else
    fragment.cancelFetch.startFetch true

end Fragment

/-- What happens to the explorer. -/
inductive ExplorerEvent where
  | shared (event : Event)
  | goTo (startAtRoot : Bool)
  | broadcast (remote path path2 : Option JavaString)
  | taskEnded (pathWhenTaskStarted : JavaString)
  | started

def Fragment.explore (platform : Platform) (fragment : Fragment) (now : Int) :
    ExplorerEvent → Option Fragment
  | .shared event => fragment.handle platform now event
  | .goTo startAtRoot => some (fragment.goTo platform startAtRoot)
  | .broadcast remote path path2 => some (fragment.onReceive remote path path2)
  | .taskEnded pathWhenTaskStarted => some (fragment.onTaskEnded pathWhenTaskStarted)
  | .started => some (fragment.onStart now)

/-! ## A watched explorer -/

/-- A listing that rclone has returned. -/
structure Fetch where
  path : JavaString
  startAtRoot : Bool
  listing : List FileItem

/-- The explorer, the listings fetched since the last go-to, and the directories that
were current after an event, with its time. -/
structure Watched where
  fragment : Option Fragment
  fetches : List Fetch
  visits : List (JavaString × Int)

/-- The listings that are known after an event. -/
def noted (fragment : Fragment) (fetches : List Fetch) : ExplorerEvent → List Fetch
  | .goTo _ => []
  | .shared (.fetchRuns (some listing)) =>
    match fragment.tasks with
    | ⟨_, none⟩ :: _ =>
      ⟨fragment.directoryObject.currentDir, fragment.startAtRoot, listing⟩ :: fetches
    | _ => fetches
  | _ => fetches

/-- What an event at a time does. -/
def watch (platform : Platform) (w : Watched) (event : ExplorerEvent × Int) : Watched :=
  match w.fragment with
  | none => w
  | some fragment =>
    match fragment.explore platform event.2 event.1 with
    | none => { w with fragment := none }
    | some next =>
      { fragment := some next
        fetches := noted fragment w.fetches event.1
        visits := (next.directoryObject.currentDir, event.2) :: w.visits }

/-- A content that was fetched for a path, or is empty. -/
def Fetched (fetches : List Fetch) (startAtRoot : Bool) (path : JavaString)
    (content : List FileItem) : Prop :=
  content = [] ∨ ∃ fetch ∈ fetches, fetch.path = path ∧ fetch.startAtRoot = startAtRoot ∧
    content.Perm fetch.listing

/-- The cache holds under a path what was fetched for it, and takes for valid what was
shown a short time ago. -/
structure CacheHolds (w : Watched) : Prop where
  cached : ∀ fragment ∈ w.fragment, ∀ path cached,
    fragment.directoryObject.directoryCache path = some cached →
      Fetched w.fetches fragment.startAtRoot path cached.content
  shown : ∀ fragment ∈ w.fragment, Fetched w.fetches fragment.startAtRoot
    fragment.directoryObject.currentDir fragment.directoryObject.directoryContent
  valid : ∀ fragment ∈ w.fragment, ∀ path now,
    fragment.directoryObject.isPathInCache path = true →
      fragment.directoryObject.isContentValid now path = true →
        ∃ time, (path, time) ∈ w.visits ∧ now - time < dirValidTime

/-- What fetches read and write. -/
structure Holdings where
  startAtRoot : Bool
  directoryObject : DirectoryObject
  tasks : List FetchDirectoryContent

def Fragment.holdings (fragment : Fragment) : Holdings where
  startAtRoot := fragment.startAtRoot
  directoryObject := fragment.directoryObject
  tasks := fragment.tasks

/-- What is held was fetched for where it is held, and a task that has run has fetched
for the current directory. -/
structure Coherent (fetches : List Fetch) (visits : List (JavaString × Int)) (h : Holdings) :
    Prop where
  cached : ∀ path cached, h.directoryObject.directoryCache path = some cached →
    Fetched fetches h.startAtRoot path cached.content ∧ (path, cached.time) ∈ visits
  shown : Fetched fetches h.startAtRoot h.directoryObject.currentDir
    h.directoryObject.directoryContent
  single : h.tasks.length ≤ 1
  ran : ∀ task ∈ h.tasks, ∀ listing, task.fetched = some (some listing) →
    Fetched fetches h.startAtRoot h.directoryObject.currentDir listing

section Holdings

variable {fetches : List Fetch} {visits : List (JavaString × Int)} {h : Holdings} {now : Int}
  {path : JavaString}

theorem Coherent.mono {more : List (JavaString × Int)} (coherent : Coherent fetches visits h)
    (known : ∀ visit ∈ visits, visit ∈ more) : Coherent fetches more h := by
  constructor
  · intro path cached found
    obtain ⟨fetched, visited⟩ := coherent.cached path cached found
    exact ⟨fetched, known _ visited⟩
  · exact coherent.shown
  · exact coherent.single
  · exact coherent.ran

theorem Coherent.later (coherent : Coherent fetches visits h) (visit : JavaString × Int) :
    Coherent fetches (visit :: visits) h :=
  coherent.mono fun _ => List.mem_cons_of_mem visit

theorem Coherent.dropLast_eq_nil (coherent : Coherent fetches visits h) :
    h.tasks.dropLast = [] := by
  apply List.eq_nil_of_length_eq_zero
  rw [List.length_dropLast]
  have single := coherent.single
  omega

theorem Coherent.cancel (coherent : Coherent fetches visits h) :
    Coherent fetches visits { h with tasks := h.tasks.dropLast } := by
  constructor
  · exact coherent.cached
  · exact coherent.shown
  · rw [coherent.dropLast_eq_nil]
    exact Nat.zero_le 1
  · intro task member
    rw [coherent.dropLast_eq_nil] at member
    contradiction

theorem Coherent.start (coherent : Coherent fetches visits h) (idle : h.tasks = [])
    (silentFetch : Bool) :
    Coherent fetches visits { h with tasks := h.tasks ++ [⟨silentFetch, none⟩] } := by
  constructor
  · exact coherent.cached
  · exact coherent.shown
  · rw [idle]
    exact Nat.le_refl 1
  · intro task member listing ran
    rw [idle, List.nil_append, List.mem_singleton] at member
    subst member
    contradiction

/-- An idle explorer moves to a directory whose content it does not have. -/
theorem Coherent.setPath (coherent : Coherent fetches visits h) (idle : h.tasks = []) :
    Coherent fetches visits { h with directoryObject := h.directoryObject.setPath path } := by
  constructor
  · exact coherent.cached
  · exact .inl rfl
  · exact coherent.single
  · intro task member
    rw [idle] at member
    contradiction

/-- An idle explorer moves to a directory in the cache. -/
theorem Coherent.restored {directory : DirectoryObject} (coherent : Coherent fetches visits h)
    (idle : h.tasks = []) (found : h.directoryObject.restoreFromCache path = some directory) :
    Coherent fetches visits { h with directoryObject := directory } := by
  obtain ⟨cached, isCached, rfl⟩ := Option.map_eq_some_iff.mp found
  constructor
  · exact coherent.cached
  · exact (coherent.cached path cached isCached).1
  · exact coherent.single
  · intro task member
    rw [idle] at member
    contradiction

/-- A content that was fetched for the current directory is stored. -/
theorem Coherent.setContent {content : List FileItem} (coherent : Coherent fetches visits h)
    (fetched : Fetched fetches h.startAtRoot h.directoryObject.currentDir content) :
    Coherent fetches ((h.directoryObject.currentDir, now) :: visits)
      { h with directoryObject := h.directoryObject.setContent now content } := by
  constructor
  · intro other cached found
    by_cases here : other = h.directoryObject.currentDir
    · subst here
      have stored : cached = ⟨content, now⟩ := by
        simpa [DirectoryObject.setContent, eq_comm] using found
      rw [stored]
      exact ⟨fetched, .head _⟩
    · have before : h.directoryObject.directoryCache other = some cached := by
        rw [← found]
        exact (Function.update_of_ne here ..).symm
      obtain ⟨isFetched, visited⟩ := coherent.cached other cached before
      exact ⟨isFetched, .tail _ visited⟩
  · exact fetched
  · exact coherent.single
  · exact coherent.ran

theorem Fetched.perm {content sorted : List FileItem} {startAtRoot : Bool}
    (fetched : Fetched fetches startAtRoot path content) (perm : sorted.Perm content) :
    Fetched fetches startAtRoot path sorted := by
  rcases fetched with rfl | ⟨fetch, member, isPath, mode, same⟩
  · exact .inl perm.eq_nil
  · exact .inr ⟨fetch, member, isPath, mode, perm.trans same⟩

theorem Fetched.mono {more : List Fetch} {content : List FileItem} {startAtRoot : Bool}
    (fetched : Fetched fetches startAtRoot path content)
    (known : ∀ fetch ∈ fetches, fetch ∈ more) : Fetched more startAtRoot path content := by
  rcases fetched with empty | ⟨fetch, member, same⟩
  · exact .inl empty
  · exact .inr ⟨fetch, known fetch member, same⟩

/-- The first task runs. -/
theorem Coherent.runs {more : List Fetch} {silentFetch : Bool}
    {rest : List FetchDirectoryContent} {result : Option (List FileItem)}
    (coherent : Coherent fetches visits h) (first : h.tasks = ⟨silentFetch, none⟩ :: rest)
    (known : ∀ fetch ∈ fetches, fetch ∈ more)
    (fetched : ∀ listing, result = some listing →
      Fetched more h.startAtRoot h.directoryObject.currentDir listing) :
    Coherent more visits { h with tasks := ⟨silentFetch, some result⟩ :: rest } := by
  have single := coherent.single
  rw [first] at single
  have alone : rest = [] := List.eq_nil_of_length_eq_zero (by simpa using single)
  constructor
  · intro path cached found
    obtain ⟨isFetched, visited⟩ := coherent.cached path cached found
    exact ⟨isFetched.mono known, visited⟩
  · exact coherent.shown.mono known
  · exact single
  · intro task member listing ran
    rw [alone, List.mem_singleton] at member
    subst member
    exact fetched listing (Option.some.inj ran)

end Holdings

/-! ## What the functions do to the holdings -/

namespace Fragment

variable {platform : Platform} {fragment next : Fragment} {now : Int} {path : JavaString}

@[simp]
theorem holdings_loadDisplayMode :
    (fragment.loadDisplayMode platform path).holdings = fragment.holdings := by
  rw [loadDisplayMode]
  split
  · rfl
  · rfl

@[simp]
theorem holdings_setCurrentDirectoryPath :
    (fragment.setCurrentDirectoryPath platform path).holdings =
      { fragment.holdings with
        directoryObject := fragment.holdings.directoryObject.setPath path } := by
  rw [setCurrentDirectoryPath, holdings_loadDisplayMode]
  rfl

end Fragment

section Steps

variable {platform : Platform} {fragment next : Fragment} {now : Int} {path : JavaString}
  {fetches : List Fetch} {visits : List (JavaString × Int)}

/-- What holds at the end of an event. -/
abbrev Settled (fetches : List Fetch) (visits : List (JavaString × Int)) (now : Int)
    (fragment : Fragment) : Prop :=
  Coherent fetches ((fragment.directoryObject.currentDir, now) :: visits) fragment.holdings

theorem Coherent.startFetch {silentFetch : Bool} (settled : Settled fetches visits now fragment)
    (idle : fragment.tasks = []) :
    Settled fetches visits now (fragment.startFetch silentFetch) :=
  settled.start idle silentFetch

/-- Navigation cancels the fetch first. -/
theorem Coherent.cancelled (coherent : Coherent fetches visits fragment.holdings) :
    Coherent fetches visits fragment.cancelFetch.holdings ∧ fragment.cancelFetch.tasks = [] :=
  ⟨coherent.cancel, coherent.dropLast_eq_nil⟩

/-- What is idle after a cancelled fetch moves to a path without its content. -/
theorem Coherent.moved (coherent : Coherent fetches visits fragment.holdings)
    (idle : fragment.tasks = []) :
    Coherent fetches visits (fragment.setCurrentDirectoryPath platform path).holdings ∧
      (fragment.setCurrentDirectoryPath platform path).tasks = [] := by
  have held := @Fragment.holdings_setCurrentDirectoryPath platform fragment path
  constructor
  · rw [held]
    exact coherent.setPath idle
  · exact (congrArg Holdings.tasks held).trans idle

end Steps

/-! ## Runs -/

variable {platform : Platform}

/-- What is known of a watched explorer. -/
def Watched.Coherent (w : Watched) : Prop :=
  ∀ fragment ∈ w.fragment, Fragments.Coherent w.fetches w.visits fragment.holdings

theorem Watched.Coherent.holds {w : Watched} (coherent : w.Coherent) : CacheHolds w := by
  constructor
  · intro fragment isOpen path cached found
    exact ((coherent fragment isOpen).cached path cached found).1
  · intro fragment isOpen
    exact (coherent fragment isOpen).shown
  · intro fragment isOpen path now inCache valid
    obtain ⟨cached, found⟩ := Option.isSome_iff_exists.mp inCache
    rw [DirectoryObject.isContentValid, found] at valid
    have visited := ((coherent fragment isOpen).cached path cached found).2
    exact ⟨cached.time, visited, of_decide_eq_true valid⟩

/-- An explorer that has just been opened, with its first fetch or with the go-to dialog. -/
structure Opened (fragment : Fragment) : Prop where
  nothingShown : fragment.directoryObject.directoryContent = []
  nothingCached : fragment.directoryObject.directoryCache = fun _ => none
  tasks : fragment.tasks = [] ∨ fragment.tasks = [⟨false, none⟩]

theorem Opened.coherent {fragment : Fragment} (opened : Opened fragment) :
    Watched.Coherent ⟨some fragment, [], []⟩ := by
  intro same isOpen
  cases isOpen
  constructor
  · intro path cached found
    rw [Fragment.holdings, opened.nothingCached] at found
    contradiction
  · exact .inl opened.nothingShown
  · rcases opened.tasks with none | first
    · exact (congrArg List.length none).trans_le (Nat.zero_le 1)
    · exact (congrArg List.length first).le
  · intro task member listing ran
    rcases opened.tasks with none | first
    · rw [Fragment.holdings, none] at member
      contradiction
    · rw [Fragment.holdings, first, List.mem_singleton] at member
      subst member
      contradiction

end RoundSync.Fragments
