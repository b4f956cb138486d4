import RoundSync.Rclone.RemotePaths
import RoundSync.Text.Separated

/-!
# The directory an operation acts on

A path of rclone leads from the root or from the home directory of a remote
along the names in it, however many slashes stand between them.  The explorer
shows the directory that `getDirectoryContent` listed; every operation offered
there should act on that directory or on an entry of it.
-/

namespace RoundSync.Rclone

open RoundSync.Text

/-- Where a path leads. -/
structure Address where
  remote : JavaString
  atRoot : Bool
  names : List JavaString
  deriving DecidableEq

/-- Starts with a slash. -/
def startsAtRoot (path : JavaString) : Bool :=
  path.head? = some '/'

def resolve (path : JavaString) : Address :=
  let onRemote := (path.dropWhile (· ≠ ':')).tail
  ⟨path.takeWhile (· ≠ ':'), startsAtRoot onRemote, parts '/' onRemote⟩

/-- The address below another one along a text. -/
def Address.below (a : Address) (text : JavaString) : Address :=
  { a with names := a.names ++ parts '/' text }

theorem resolve_named {name : JavaString} (named : ':' ∉ name) (onRemote : JavaString) :
    resolve (name ++ ':' :: onRemote) = ⟨name, startsAtRoot onRemote, parts '/' onRemote⟩ := by
  obtain ⟨before, behind⟩ := takeWhile_append_sep named onRemote
  rw [resolve, before, behind]
  rfl

/-! ## Operations -/

/-- A path that the explorer shows the directory of. -/
abbrev ShownPath := { path : JavaString // path ≠ [] }

/-- What the explorer offers in a directory.  An entry that is moved into it was
listed in another directory, in either mode. -/
inductive Operation where
  | mkdir (input : JavaString)
  | rename (entry : LsEntry) (input : JavaString)
  | moveTo (source : ShownPath) (sourceAtRoot : Bool) (entry : LsEntry)
  | upload (file : JavaString) (isDirectory : Bool)
  | delete (entry : LsEntry)
  | download (entry : LsEntry) (downloadPath : JavaString)
  | serve
  | sync (localPath : JavaString) (direction : SyncDirection)

section Shown

variable (storage : ExternalStorage) (remote : RemoteItem)

/-- The address of the directory that `getDirectoryContent` lists. -/
def listedAddress (path : JavaString) (startAtRoot : Bool) : Address :=
  match (getDirectoryContent storage remote path startAtRoot).remotePaths with
  | [remoteAndPath] => resolve remoteAndPath
  | _ => ⟨[], false, []⟩

/-- The command that an operation starts in a directory, if any. -/
def Operation.command (path : ShownPath) (startAtRoot : Bool) : Operation → Option Command
  | .mkdir input => onNewDirectory storage remote path input
  | .rename entry input =>
      onRename storage remote path (fileItem remote path startAtRoot entry) input
  | .moveTo source sourceAtRoot entry =>
      some (Rclone.moveTo storage remote (fileItem remote source sourceAtRoot entry) path)
  | .upload file isDirectory => some (uploadFile storage remote path file isDirectory)
  | .delete entry => some (deleteItems storage remote (fileItem remote path startAtRoot entry))
  | .download entry downloadPath =>
      some (downloadFile storage remote (fileItem remote path startAtRoot entry) downloadPath)
  | .serve => some (Rclone.serve storage remote path)
  | .sync localPath direction => some (Rclone.sync storage remote localPath path direction)

/-- The addresses that an operation should act on. -/
def Operation.targets (path : ShownPath) (startAtRoot : Bool) : Operation → List Address
  | .mkdir input => [(listedAddress storage remote path startAtRoot).below input]
  | .rename entry input =>
      [(listedAddress storage remote path startAtRoot).below entry.name,
        (listedAddress storage remote path startAtRoot).below input]
  | .moveTo source sourceAtRoot entry =>
      [(listedAddress storage remote source sourceAtRoot).below entry.name,
        (listedAddress storage remote path startAtRoot).below entry.name]
  | .upload file isDirectory =>
      let directory := listedAddress storage remote path startAtRoot
      [if isDirectory then directory.below (file.rtakeWhile (· ≠ '/')) else directory]
  | .delete entry => [(listedAddress storage remote path startAtRoot).below entry.name]
  | .download entry _ => [(listedAddress storage remote path startAtRoot).below entry.name]
  | .serve => [listedAddress storage remote path startAtRoot]
  | .sync _ _ => [listedAddress storage remote path startAtRoot]

/-- The command of an operation acts on the directory that is shown. -/
def ActsOnShown (path : ShownPath) (startAtRoot : Bool) (operation : Operation) : Prop :=
  ∀ command ∈ operation.command storage remote path startAtRoot,
    command.remotePaths.map resolve = operation.targets storage remote path startAtRoot

/-! ## When operations act on the directory shown -/

/-- A local remote that nothing wraps. -/
def Plain : Prop :=
  remote.type = LOCAL ∧ remote.isAlias = false ∧ remote.isCrypt = false ∧ remote.isCache = false

/-- The path itself says that it starts at the root, if the explorer does. -/
def SaysRoot (path : ShownPath) (startAtRoot : Bool) : Prop :=
  startAtRoot = true → path.val ≠ rootPath remote.name ∧ startsAtRoot path.val = true

/-- The same for a text entered in the directory. -/
def EntersRoot (path : ShownPath) (startAtRoot : Bool) (input : JavaString) : Prop :=
  if path.val = rootPath remote.name then startsAtRoot input = startAtRoot
  else startAtRoot = true → startsAtRoot path.val = true

/-- A directory is opened at its own address: no prefix of the device's storage
comes in front of a wrapped remote's path. -/
def OpensShown (path : ShownPath) (startAtRoot : Bool) : Prop :=
  if remote.type = LOCAL then
    Plain remote ∨ parts '/' (getLocalRemotePathPrefix storage remote) = [] ∧
      (startAtRoot = true ∨ path.val ≠ rootPath remote.name ∧ startsAtRoot path.val = true)
  else SaysRoot remote path startAtRoot

/-- The condition under which an operation acts on the directory shown. -/
def Operation.Fits (path : ShownPath) (startAtRoot : Bool) : Operation → Prop
  | .mkdir input =>
      RemoteReferenceParser.trim input = [] ∨ Plain remote ∨ EntersRoot remote path startAtRoot input
  | .rename entry input =>
      entry.name = input ∨ Plain remote ∨ EntersRoot remote path startAtRoot input
  | .moveTo _ _ _ => Plain remote ∨ SaysRoot remote path startAtRoot
  | .upload _ _ => Plain remote ∨ SaysRoot remote path startAtRoot
  | .delete _ => True
  | .download _ _ => True
  | .serve => OpensShown storage remote path startAtRoot
  | .sync _ _ => OpensShown storage remote path startAtRoot

/-! ## Addresses of built paths -/

/-- What stands in front of a path on a remote: nothing, or a prefix that starts
at the root and is closed by a slash. -/
def IsFront (front : JavaString) : Prop :=
  front = [] ∨ startsAtRoot front = true ∧ ∃ before, front = before ++ ['/']

/-- The text of the shown path on the remote. -/
def shownText (path : JavaString) : JavaString :=
  if path = rootPath remote.name then [] else path

/-- Where a built path leads. -/
def addressOf (front text : JavaString) : Address :=
  ⟨remote.name, !front.isEmpty || startsAtRoot text, parts '/' front ++ parts '/' text⟩

variable {storage remote}

theorem IsFront.startsAtRoot_append {front : JavaString} (isFront : IsFront front)
    (text : JavaString) :
    startsAtRoot (front ++ text) = (!front.isEmpty || startsAtRoot text) := by
  cases front with
  | nil => rfl
  | cons c rest =>
      rcases isFront with absurd_ | ⟨rooted, _⟩
      · contradiction
      · simpa [startsAtRoot] using rooted

theorem IsFront.parts_append {front : JavaString} (isFront : IsFront front) (text : JavaString) :
    parts '/' (front ++ text) = parts '/' front ++ parts '/' text := by
  apply parts_append_of_closed
  rcases isFront with empty | ⟨_, closed⟩
  · exact .inl empty
  · exact .inr closed

theorem resolve_built {front : JavaString} (isFront : IsFront front) (text : JavaString) :
    resolve (remote.name ++ [':'] ++ front ++ text) = addressOf remote front text := by
  rw [List.append_assoc, List.append_assoc, List.singleton_append, resolve_named remote.named,
    isFront.startsAtRoot_append, isFront.parts_append]
  rfl

theorem isFront_prefix :
    IsFront (getLocalRemotePathPrefix storage remote ++ ['/']) := by
  refine .inr ⟨?_, _, rfl⟩
  unfold getLocalRemotePathPrefix
  split
  · rfl
  · have absolute := storage.absolute
    cases path : storage.path with
    | nil =>
        rw [path] at absolute
        cases absolute
    | cons c rest =>
        rw [path] at absolute
        simpa [startsAtRoot] using absolute

theorem localRemotePath_of_plain (plain : Plain remote) :
    localRemotePath storage remote = getLocalRemotePathPrefix storage remote ++ ['/'] := by
  obtain ⟨isLocal, notAlias, notCrypt, notCache⟩ := plain
  simp [localRemotePath, RemoteItem.isRemoteType, isLocal, notAlias, notCrypt, notCache]

theorem localRemotePath_of_not_plain (wrapped : ¬Plain remote) :
    localRemotePath storage remote = [] := by
  rw [localRemotePath, if_neg]
  intro plain
  apply wrapped
  simpa [Plain, RemoteItem.isRemoteType] using plain

theorem isFront_localRemotePath : IsFront (localRemotePath storage remote) := by
  by_cases plain : Plain remote
  · rw [localRemotePath_of_plain plain]
    exact isFront_prefix
  · rw [localRemotePath_of_not_plain plain]
    exact .inl rfl

theorem isFront_localRemotePathOfType : IsFront (localRemotePathOfType storage remote) := by
  unfold localRemotePathOfType
  split
  · exact isFront_prefix
  · exact .inl rfl

theorem isEmpty_localRemotePath :
    (localRemotePath storage remote).isEmpty = true ↔ ¬Plain remote := by
  by_cases plain : Plain remote
  · simp [localRemotePath_of_plain plain, plain]
  · simp [localRemotePath_of_not_plain plain, plain]

/-- The listed directory, in terms of the prefix and the text of its path. -/
theorem listedAddress_eq (path : JavaString) (startAtRoot : Bool) :
    listedAddress storage remote path startAtRoot =
      ⟨remote.name, startAtRoot || !(localRemotePath storage remote).isEmpty ||
          startsAtRoot (shownText remote path),
        parts '/' (localRemotePath storage remote) ++ parts '/' (shownText remote path)⟩ := by
  have built : (getDirectoryContent storage remote path startAtRoot).remotePaths =
      [remote.name ++ ':' :: ((if startAtRoot then ['/'] else []) ++
        (localRemotePath storage remote ++ shownText remote path))] := by
    unfold getDirectoryContent Command.remotePaths shownText
    cases startAtRoot
    all_goals
      by_cases isRoot : path = rootPath remote.name
      all_goals simp [isRoot]
  rw [listedAddress, built]
  dsimp only
  rw [resolve_named remote.named]
  cases startAtRoot with
  | true =>
      simp [startsAtRoot, isFront_localRemotePath.parts_append]
  | false =>
      simp [isFront_localRemotePath.parts_append, isFront_localRemotePath.startsAtRoot_append]

/-! ## Entered names -/

theorem parts_enteredPath (path input : JavaString) :
    parts '/' (enteredPath remote path input) =
      parts '/' (shownText remote path) ++ parts '/' input := by
  unfold enteredPath shownText
  split
  · rfl
  · rw [List.append_assoc, List.singleton_append, parts_append_sep]

theorem startsAtRoot_enteredPath (path : ShownPath) (input : JavaString) :
    startsAtRoot (enteredPath remote path input) =
      if path.val = rootPath remote.name then startsAtRoot input else startsAtRoot path.val := by
  unfold enteredPath
  split
  · rfl
  · obtain ⟨path, nonempty⟩ := path
    cases path with
    | nil => contradiction
    | cons c rest => rfl

/-- A name entered in a directory is below it exactly if it starts where the
directory does. -/
theorem entered_iff (path : ShownPath) (startAtRoot : Bool) (input : JavaString) :
    addressOf remote (localRemotePath storage remote) (enteredPath remote path input) =
        (listedAddress storage remote path startAtRoot).below input ↔
      Plain remote ∨ EntersRoot remote path startAtRoot input := by
  rw [listedAddress_eq, addressOf, Address.below, parts_enteredPath, startsAtRoot_enteredPath]
  simp only [Address.mk.injEq, true_and, List.append_assoc, and_true]
  by_cases plain : Plain remote
  · have closed : (localRemotePath storage remote).isEmpty = false :=
      Bool.eq_false_iff.mpr fun empty => isEmpty_localRemotePath.mp empty plain
    simp [closed, plain]
  · have open_ : (localRemotePath storage remote).isEmpty = true :=
      isEmpty_localRemotePath.mpr plain
    simp only [open_, plain, false_or, Bool.not_true, Bool.false_or, Bool.or_false]
    unfold EntersRoot shownText
    by_cases isRoot : path.val = rootPath remote.name
    · simp [isRoot, startsAtRoot]
    · cases startAtRoot with
      | true => simp [isRoot]
      | false => simp [isRoot]

/-- A name of an entry does not start at the root. -/
theorem entersRoot_iff {path : ShownPath} {startAtRoot : Bool} {input : JavaString}
    (below : startsAtRoot input = false) :
    EntersRoot remote path startAtRoot input ↔ SaysRoot remote path startAtRoot := by
  unfold EntersRoot SaysRoot
  by_cases isRoot : path.val = rootPath remote.name
  · simp [isRoot, below]
  · simp [isRoot]

theorem startsAtRoot_of_notMem {text : JavaString} (free : '/' ∉ text) :
    startsAtRoot text = false := by
  cases text with
  | nil => rfl
  | cons c rest =>
      have other : c ≠ '/' := fun equal => free (equal ▸ List.mem_cons_self)
      simp [startsAtRoot, other]

/-! ## Listed entries -/

/-- The path of a listed item leads to the entry it was made of. -/
theorem item_address (path : ShownPath) (startAtRoot : Bool) (entry : LsEntry) :
    addressOf remote (localRemotePath storage remote)
        (fileItem remote path startAtRoot entry).getPath =
      (listedAddress storage remote path startAtRoot).below entry.name := by
  have itemPath : (fileItem remote path startAtRoot entry).path =
      enteredPath remote path entry.name := by
    unfold fileItem enteredPath
    split
    · rfl
    · rfl
  have below := startsAtRoot_of_notMem entry.valid.2
  have starts : startsAtRoot (enteredPath remote path entry.name) =
      startsAtRoot (shownText remote path) := by
    rw [startsAtRoot_enteredPath, shownText]
    by_cases isRoot : path.val = rootPath remote.name
    · rw [if_pos isRoot, if_pos isRoot, below]
      rfl
    · rw [if_neg isRoot, if_neg isRoot]
  have leads : startsAtRoot (fileItem remote path startAtRoot entry).getPath =
        (startAtRoot || startsAtRoot (shownText remote path)) ∧
      parts '/' (fileItem remote path startAtRoot entry).getPath =
        parts '/' (shownText remote path) ++ parts '/' entry.name := by
    rw [← parts_enteredPath, ← starts, ← itemPath]
    have mode : (fileItem remote path startAtRoot entry).startAtRoot = startAtRoot := rfl
    unfold FileItem.getPath
    rw [mode]
    cases startAtRoot with
    | false => simp
    | true =>
        by_cases rooted : (fileItem remote path true entry).path.head? = some '/'
        · simp [rooted, startsAtRoot]
        · simp [rooted, startsAtRoot]
  rw [listedAddress_eq, addressOf, Address.below, leads.1, leads.2, List.append_assoc]
  simp only [Address.mk.injEq, true_and, and_true]
  cases startAtRoot with
  | false => simp
  | true => simp

/-! ## Opened directories -/

theorem opened_iff (path : ShownPath) (startAtRoot : Bool) :
    addressOf remote (localRemotePathOfType storage remote) (shownText remote path) =
        listedAddress storage remote path startAtRoot ↔
      OpensShown storage remote path startAtRoot := by
  have shown : startsAtRoot (shownText remote path) = true ↔
      path.val ≠ rootPath remote.name ∧ startsAtRoot path.val = true := by
    unfold shownText
    by_cases isRoot : path.val = rootPath remote.name
    · simp [isRoot, startsAtRoot]
    · simp [isRoot]
  rw [listedAddress_eq, addressOf, OpensShown]
  simp only [Address.mk.injEq, true_and, List.append_cancel_right_eq]
  by_cases isLocal : remote.type = LOCAL
  · have ofType : localRemotePathOfType storage remote =
        getLocalRemotePathPrefix storage remote ++ ['/'] := by
      simp [localRemotePathOfType, RemoteItem.isRemoteType, isLocal]
    rw [if_pos isLocal, ofType]
    by_cases plain : Plain remote
    · have closed : (getLocalRemotePathPrefix storage remote ++ ['/']).isEmpty = false := by simp
      simp only [localRemotePath_of_plain plain, closed, plain, Bool.not_false, Bool.true_or,
        Bool.or_true, true_or, and_self]
    · rw [localRemotePath_of_not_plain plain, parts_append_sep, parts_nil, List.append_nil, ← shown]
      cases startAtRoot with
      | true => simp [plain]
      | false => simp [plain, and_comm]
  · have wrapped : ¬Plain remote := fun plain => isLocal plain.1
    have ofType : localRemotePathOfType storage remote = [] := by
      simp [localRemotePathOfType, RemoteItem.isRemoteType, isLocal]
    rw [if_neg isLocal, ofType, localRemotePath_of_not_plain wrapped, SaysRoot, ← shown]
    cases startAtRoot with
    | true => simp
    | false => simp

/-- A path at which a directory itself is meant. -/
theorem said_iff (path : ShownPath) (startAtRoot : Bool) :
    addressOf remote (localRemotePath storage remote) (shownText remote path) =
        listedAddress storage remote path startAtRoot ↔
      Plain remote ∨ SaysRoot remote path startAtRoot := by
  have nothing : startsAtRoot [] = false := rfl
  have entered : addressOf remote (localRemotePath storage remote) (enteredPath remote path []) =
        (listedAddress storage remote path startAtRoot).below [] ↔
      Plain remote ∨ EntersRoot remote path startAtRoot [] := entered_iff path startAtRoot []
  have itself : (listedAddress storage remote path startAtRoot).below [] =
      listedAddress storage remote path startAtRoot := by
    rw [Address.below, parts_nil, List.append_nil]
  have sameText : addressOf remote (localRemotePath storage remote) (enteredPath remote path []) =
      addressOf remote (localRemotePath storage remote) (shownText remote path) := by
    rw [addressOf, addressOf, parts_enteredPath, parts_nil, List.append_nil,
      startsAtRoot_enteredPath, shownText]
    by_cases isRoot : path.val = rootPath remote.name
    · rw [if_pos isRoot, if_pos isRoot]
    · rw [if_neg isRoot, if_neg isRoot]
  rw [entersRoot_iff nothing, itself, sameText] at entered
  exact entered

/-! ## Each operation -/

theorem actsOnShown_iff {path : ShownPath} {startAtRoot : Bool} {operation : Operation}
    {command : Command}
    (starts : operation.command storage remote path startAtRoot = some command) :
    ActsOnShown storage remote path startAtRoot operation ↔
      command.remotePaths.map resolve = operation.targets storage remote path startAtRoot := by
  simp [ActsOnShown, starts]

theorem mkdir_iff (path : ShownPath) (startAtRoot : Bool) (input : JavaString) :
    ActsOnShown storage remote path startAtRoot (.mkdir input) ↔
      Operation.Fits storage remote path startAtRoot (.mkdir input) := by
  by_cases blank : RemoteReferenceParser.trim input = []
  · simp [ActsOnShown, Operation.command, Operation.Fits, onNewDirectory, blank]
  · have starts : Operation.command storage remote path startAtRoot (.mkdir input) =
        some (makeDirectory storage remote (enteredPath remote path input)) := by
      simp [Operation.command, onNewDirectory, blank]
    have built : (makeDirectory storage remote (enteredPath remote path input)).remotePaths.map
        resolve =
          [addressOf remote (localRemotePath storage remote) (enteredPath remote path input)] := by
      simp only [makeDirectory, Command.remotePaths, List.filterMap_cons, List.filterMap_nil,
        List.map_cons, List.map_nil, resolve_built isFront_localRemotePath]
    rw [actsOnShown_iff starts, built, Operation.targets, Operation.Fits, List.cons.injEq,
      entered_iff]
    simp [blank]

theorem rename_iff (path : ShownPath) (startAtRoot : Bool) (entry : LsEntry) (input : JavaString) :
    ActsOnShown storage remote path startAtRoot (.rename entry input) ↔
      Operation.Fits storage remote path startAtRoot (.rename entry input) := by
  by_cases same : entry.name = input
  · simp [ActsOnShown, Operation.command, Operation.Fits, onRename, fileItem, same]
  · have starts : Operation.command storage remote path startAtRoot (.rename entry input) =
        some (moveToPath storage remote (fileItem remote path startAtRoot entry).getPath
          (enteredPath remote path input)) := by
      simp [Operation.command, onRename, fileItem, same]
    have built : (moveToPath storage remote (fileItem remote path startAtRoot entry).getPath
        (enteredPath remote path input)).remotePaths.map resolve =
          [(listedAddress storage remote path startAtRoot).below entry.name,
            addressOf remote (localRemotePath storage remote) (enteredPath remote path input)] := by
      simp only [moveToPath, Command.remotePaths, List.filterMap_cons, List.filterMap_nil,
        List.map_cons, List.map_nil, resolve_built isFront_localRemotePath, item_address]
    rw [actsOnShown_iff starts, built, Operation.targets, Operation.Fits, List.cons.injEq,
      List.cons.injEq, entered_iff]
    simp [same]

theorem moveTo_iff (path : ShownPath) (startAtRoot : Bool) (source : ShownPath)
    (sourceAtRoot : Bool) (entry : LsEntry) :
    ActsOnShown storage remote path startAtRoot (.moveTo source sourceAtRoot entry) ↔
      Operation.Fits storage remote path startAtRoot (.moveTo source sourceAtRoot entry) := by
  have starts : Operation.command storage remote path startAtRoot
      (.moveTo source sourceAtRoot entry) =
        some (moveTo storage remote (fileItem remote source sourceAtRoot entry) path) := rfl
  have built : (moveTo storage remote (fileItem remote source sourceAtRoot entry)
      path).remotePaths.map resolve =
        [(listedAddress storage remote source sourceAtRoot).below entry.name,
          addressOf remote (localRemotePath storage remote)
            (enteredPath remote path entry.name)] := by
    have itemName : (fileItem remote source sourceAtRoot entry).name = entry.name := rfl
    have destination : (if path.val = rootPath remote.name then
          remote.name ++ [':'] ++ localRemotePath storage remote ++ entry.name
        else remote.name ++ [':'] ++ localRemotePath storage remote ++ path.val ++ ['/'] ++
          entry.name) =
        remote.name ++ [':'] ++ localRemotePath storage remote ++
          enteredPath remote path entry.name := by
      unfold enteredPath
      split
      · rfl
      · simp
    simp only [moveTo, itemName, destination, Command.remotePaths, List.filterMap_cons,
      List.filterMap_nil, List.map_cons, List.map_nil, resolve_built isFront_localRemotePath,
      item_address]
  rw [actsOnShown_iff starts, built, Operation.targets, Operation.Fits, List.cons.injEq,
    List.cons.injEq, entered_iff, entersRoot_iff (startsAtRoot_of_notMem entry.valid.2)]
  simp

theorem upload_iff (path : ShownPath) (startAtRoot : Bool) (file : JavaString)
    (isDirectory : Bool) :
    ActsOnShown storage remote path startAtRoot (.upload file isDirectory) ↔
      Operation.Fits storage remote path startAtRoot (.upload file isDirectory) := by
  have starts : Operation.command storage remote path startAtRoot (.upload file isDirectory) =
      some (uploadFile storage remote path file isDirectory) := rfl
  rw [actsOnShown_iff starts, Operation.targets, Operation.Fits]
  cases isDirectory with
  | true =>
      have free : '/' ∉ file.rtakeWhile (· ≠ '/') := by
        intro member
        have different := List.mem_rtakeWhile_imp member
        simp at different
      have built : (uploadFile storage remote path file true).remotePaths.map resolve =
          [addressOf remote (localRemotePath storage remote)
            (enteredPath remote path (file.rtakeWhile (· ≠ '/')))] := by
        rw [← resolve_built isFront_localRemotePath, uploadFile, enteredPath]
        by_cases isRoot : path.val = rootPath remote.name
        · simp [Command.remotePaths, isRoot]
        · simp [Command.remotePaths, isRoot]
      rw [built]
      simp only [if_true, List.cons.injEq, and_true]
      rw [entered_iff, entersRoot_iff (startsAtRoot_of_notMem free)]
  | false =>
      have built : (uploadFile storage remote path file false).remotePaths.map resolve =
          [addressOf remote (localRemotePath storage remote) (shownText remote path)] := by
        rw [← resolve_built isFront_localRemotePath, uploadFile, shownText]
        by_cases isRoot : path.val = rootPath remote.name
        · simp [Command.remotePaths, isRoot]
        · simp [Command.remotePaths, isRoot]
      rw [built]
      simp only [Bool.false_eq_true, if_false, List.cons.injEq, and_true]
      exact said_iff path startAtRoot

theorem deletes_shown (path : ShownPath) (startAtRoot : Bool) (entry : LsEntry) :
    ActsOnShown storage remote path startAtRoot (.delete entry) := by
  have starts : Operation.command storage remote path startAtRoot (.delete entry) =
      some (deleteItems storage remote (fileItem remote path startAtRoot entry)) := rfl
  rw [actsOnShown_iff starts]
  simp only [deleteItems, Command.remotePaths, List.filterMap_cons, List.filterMap_nil,
    List.map_cons, List.map_nil, resolve_built isFront_localRemotePath, item_address,
    Operation.targets]

theorem downloads_shown (path : ShownPath) (startAtRoot : Bool) (entry : LsEntry)
    (downloadPath : JavaString) :
    ActsOnShown storage remote path startAtRoot (.download entry downloadPath) := by
  have starts : Operation.command storage remote path startAtRoot (.download entry downloadPath) =
      some (downloadFile storage remote (fileItem remote path startAtRoot entry) downloadPath) := rfl
  rw [actsOnShown_iff starts]
  simp only [downloadFile, Command.remotePaths, List.filterMap_cons, List.filterMap_nil,
    List.map_cons, List.map_nil, resolve_built isFront_localRemotePath, item_address,
    Operation.targets]

theorem serve_iff (path : ShownPath) (startAtRoot : Bool) :
    ActsOnShown storage remote path startAtRoot .serve ↔
      Operation.Fits storage remote path startAtRoot .serve := by
  have starts : Operation.command storage remote path startAtRoot .serve =
      some (serve storage remote path) := rfl
  have built : (serve storage remote path).remotePaths.map resolve =
      [addressOf remote (localRemotePathOfType storage remote) (shownText remote path)] := by
    rw [← resolve_built isFront_localRemotePathOfType, serve, shownText]
    by_cases isRoot : path.val = rootPath remote.name
    · simp [Command.remotePaths, isRoot]
    · simp [Command.remotePaths, isRoot]
  rw [actsOnShown_iff starts, built, Operation.targets, Operation.Fits, List.cons.injEq,
    opened_iff]
  simp

theorem sync_iff (path : ShownPath) (startAtRoot : Bool) (localPath : JavaString)
    (direction : SyncDirection) :
    ActsOnShown storage remote path startAtRoot (.sync localPath direction) ↔
      Operation.Fits storage remote path startAtRoot (.sync localPath direction) := by
  have starts : Operation.command storage remote path startAtRoot (.sync localPath direction) =
      some (sync storage remote localPath path direction) := rfl
  have built : (sync storage remote localPath path direction).remotePaths.map resolve =
      [addressOf remote (localRemotePathOfType storage remote) (shownText remote path)] := by
    rw [← resolve_built isFront_localRemotePathOfType, shownText]
    by_cases isRoot : path.val = rootPath remote.name
    · cases direction
      all_goals simp [sync, Command.remotePaths, isRoot]
    · cases direction
      all_goals simp [sync, Command.remotePaths, isRoot]
  rw [actsOnShown_iff starts, built, Operation.targets, Operation.Fits, List.cons.injEq,
    opened_iff]
  simp

end Shown

/-- Which operations act on the directory that is shown, for every remote, path
and mode of the explorer. -/
theorem acts_on_shown_iff (storage : ExternalStorage) (remote : RemoteItem) (path : ShownPath)
    (startAtRoot : Bool) (operation : Operation) :
    ActsOnShown storage remote path startAtRoot operation ↔
      operation.Fits storage remote path startAtRoot := by
  cases operation with
  | mkdir input => exact mkdir_iff path startAtRoot input
  | rename entry input => exact rename_iff path startAtRoot entry input
  | moveTo source sourceAtRoot entry => exact moveTo_iff path startAtRoot source sourceAtRoot entry
  | upload file isDirectory => exact upload_iff path startAtRoot file isDirectory
  | delete entry => exact iff_of_true (deletes_shown path startAtRoot entry) trivial
  | download entry downloadPath =>
      exact iff_of_true (downloads_shown path startAtRoot entry downloadPath) trivial
  | serve => exact serve_iff path startAtRoot
  | sync localPath direction => exact sync_iff path startAtRoot localPath direction

/-! ## A directory made somewhere else -/

/-- An SFTP server. -/
def server : RemoteItem :=
  ⟨['s'], 28, false, false, false, false, by decide⟩

def sdcard : ExternalStorage :=
  ⟨['/', 's', 'd'], rfl⟩

/-- At the root of a server, a new directory is made in the home directory. -/
theorem newDirectory_made_elsewhere :
    ¬∀ storage remote path startAtRoot operation,
      ActsOnShown storage remote path startAtRoot operation := by
  intro acts
  have made := acts sdcard server ⟨rootPath ['s'], by decide⟩ true (.mkdir ['x']) _ rfl
  exact absurd made (by decide)

end RoundSync.Rclone
