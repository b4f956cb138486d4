import RoundSync.Rclone.RemoteReference

/-!
# Paths of remotes

Every operation of `Rclone` on a remote puts together the path it hands to
rclone by hand.  This file has these path builders, and the file explorer's own
(`onPositive`), as they stand in the source: what a command says of the options
of rclone is left out, its paths are kept.
-/

namespace RoundSync.Rclone

open RoundSync.Text

/-- The type of remotes that are directories of the device. -/
def LOCAL : Int := 18

/-- What the path builders read of a remote.  rclone takes the name of a remote
to end at the first colon, and lets no name have one. -/
structure RemoteItem where
  name : JavaString
  type : Int
  isCrypt : Bool
  isAlias : Bool
  isPathAlias : Bool
  isCache : Bool
  named : ':' ∉ name

def RemoteItem.isRemoteType (remote : RemoteItem) (type : Int) : Bool :=
  remote.type = type

/-- The directory of the device that local remotes start in. -/
structure ExternalStorage where
  path : JavaString
  absolute : path.head? = some '/'

structure FileItem where
  path : JavaString
  name : JavaString
  isDir : Bool
  startAtRoot : Bool

def FileItem.getPath (item : FileItem) : JavaString :=
  if item.startAtRoot ∧ item.path.head? ≠ some '/' then '/' :: item.path else item.path

/-- An entry that `lsjson` prints of a directory; its `Path` is its `Name`. -/
structure LsEntry where
  name : JavaString
  isDir : Bool
  valid : name ≠ [] ∧ '/' ∉ name

/-! ## Commands -/

inductive Verb where
  | lsjson
  | serve
  | sync
  | copy
  | purge
  | deletefile
  | mkdir
  | moveto

/-- A path of a command: one that names a remote, or one of the device. -/
inductive Argument where
  | remote (path : JavaString)
  | device (path : JavaString)

structure Command where
  verb : Verb
  arguments : List Argument

/-- The paths of a command that name a remote. -/
def Command.remotePaths (command : Command) : List JavaString :=
  command.arguments.filterMap fun
    | .remote path => some path
    | .device _ => none

inductive SyncDirection where
  | syncLocalToRemote
  | syncRemoteToLocal
  | copyLocalToRemote
  | copyRemoteToLocal

/-! ## Path builders -/

/-- The path of a remote's first directory in the explorer. -/
def rootPath (remoteName : JavaString) : JavaString :=
  '/' :: '/' :: remoteName

/-- A character that no argument can carry is replaced by its picture. -/
def encodePath (localFilePath : JavaString) : JavaString :=
  localFilePath.map fun c => if c = Char.ofNat 0 then Char.ofNat 0x2400 else c

section Builders

variable (storage : ExternalStorage)

def getLocalRemotePathPrefix (item : RemoteItem) : JavaString :=
  if item.isPathAlias then [] else storage.path

/-- The prefix in front of the paths of a local remote that nothing wraps, for
the builders that look at all flags. -/
def localRemotePath (remote : RemoteItem) : JavaString :=
  if remote.isRemoteType LOCAL ∧ !remote.isAlias ∧ !remote.isCrypt ∧ !remote.isCache then
    getLocalRemotePathPrefix storage remote ++ ['/']
  else []

/-- The prefix for the builders that look only at the type. -/
def localRemotePathOfType (remote : RemoteItem) : JavaString :=
  if remote.isRemoteType LOCAL then getLocalRemotePathPrefix storage remote ++ ['/'] else []

def getDirectoryContent (remote : RemoteItem) (path : JavaString) (startAtRoot : Bool) : Command :=
  let remoteAndPath := remote.name ++ [':']
  let remoteAndPath := if startAtRoot then remoteAndPath ++ ['/'] else remoteAndPath
  let remoteAndPath := remoteAndPath ++ localRemotePath storage remote
  let remoteAndPath :=
    if path ≠ rootPath remote.name then remoteAndPath ++ path else remoteAndPath
  ⟨.lsjson, [.remote remoteAndPath]⟩

/-- The item that `getDirectoryContent` makes of an entry. -/
def fileItem (remote : RemoteItem) (path : JavaString) (startAtRoot : Bool) (entry : LsEntry) :
    FileItem where
  path := (if path = rootPath remote.name then [] else path ++ ['/']) ++ entry.name
  name := entry.name
  isDir := entry.isDir
  startAtRoot := startAtRoot

def serve (remote : RemoteItem) (servePath : JavaString) : Command :=
  let localRemotePath := localRemotePathOfType storage remote
  let path :=
    if servePath = rootPath remote.name then remote.name ++ [':'] ++ localRemotePath
    else remote.name ++ [':'] ++ localRemotePath ++ servePath
  ⟨.serve, [.remote path]⟩

def sync (remote : RemoteItem) (localPath remotePath : JavaString) (direction : SyncDirection) :
    Command :=
  let localRemotePath := localRemotePathOfType storage remote
  let remoteSection :=
    if remotePath = rootPath remote.name then remote.name ++ [':'] ++ localRemotePath
    else remote.name ++ [':'] ++ localRemotePath ++ remotePath
  match direction with
  | .syncLocalToRemote => ⟨.sync, [.device localPath, .remote remoteSection]⟩
  | .syncRemoteToLocal => ⟨.sync, [.remote remoteSection, .device localPath]⟩
  | .copyLocalToRemote => ⟨.copy, [.device localPath, .remote remoteSection]⟩
  | .copyRemoteToLocal => ⟨.copy, [.remote remoteSection, .device localPath]⟩

def downloadFile (remote : RemoteItem) (downloadItem : FileItem) (downloadPath : JavaString) :
    Command :=
  let remoteFilePath := remote.name ++ [':'] ++ localRemotePath storage remote
  let remoteFilePath := remoteFilePath ++ downloadItem.getPath
  let localFilePath :=
    if downloadItem.isDir then downloadPath ++ ['/'] ++ downloadItem.name else downloadPath
  ⟨.copy, [.remote remoteFilePath, .device (encodePath localFilePath)]⟩

/-- `uploadFile`; `isDirectory` is what the device says of the file. -/
def uploadFile (remote : RemoteItem) (uploadPath file : JavaString) (isDirectory : Bool) :
    Command :=
  let front := remote.name ++ [':'] ++ localRemotePath storage remote
  let path :=
    if isDirectory then
      -- what follows the last slash
      let dirName := file.rtakeWhile (· ≠ '/')
      if uploadPath = rootPath remote.name then front ++ dirName
      else front ++ uploadPath ++ ['/'] ++ dirName
    else if uploadPath = rootPath remote.name then front
    else front ++ uploadPath
  ⟨.copy, [.device file, .remote path]⟩

def deleteItems (remote : RemoteItem) (deleteItem : FileItem) : Command :=
  let filePath := remote.name ++ [':'] ++ localRemotePath storage remote ++ deleteItem.getPath
  ⟨if deleteItem.isDir then .purge else .deletefile, [.remote filePath]⟩

def makeDirectory (remote : RemoteItem) (path : JavaString) : Command :=
  ⟨.mkdir, [.remote (remote.name ++ [':'] ++ localRemotePath storage remote ++ path)]⟩

/-- `moveTo` of an item into a directory. -/
def moveTo (remote : RemoteItem) (moveItem : FileItem) (newLocation : JavaString) : Command :=
  let front := remote.name ++ [':'] ++ localRemotePath storage remote
  let oldFilePath := front ++ moveItem.getPath
  let newFilePath :=
    if newLocation = rootPath remote.name then front ++ moveItem.name
    else front ++ newLocation ++ ['/'] ++ moveItem.name
  ⟨.moveto, [.remote oldFilePath, .remote newFilePath]⟩

/-- `moveTo` of two paths. -/
def moveToPath (remote : RemoteItem) (oldFile newFile : JavaString) : Command :=
  let front := remote.name ++ [':'] ++ localRemotePath storage remote
  ⟨.moveto, [.remote (front ++ oldFile), .remote (front ++ newFile)]⟩

/-! ## The file explorer's dialogs -/

/-- The path that the explorer gives to a name entered in a directory. -/
def enteredPath (remote : RemoteItem) (currentPath input : JavaString) : JavaString :=
  if currentPath = rootPath remote.name then input else currentPath ++ ['/'] ++ input

/-- `onPositive` of the dialog for a new directory. -/
def onNewDirectory (remote : RemoteItem) (currentPath input : JavaString) : Option Command :=
  if RemoteReferenceParser.trim input = [] then none
  else some (makeDirectory storage remote (enteredPath remote currentPath input))

/-- `onPositive` of the dialog for a new name. -/
def onRename (remote : RemoteItem) (currentPath : JavaString) (renameItem : FileItem)
    (input : JavaString) : Option Command :=
  if renameItem.name = input then none
  else
    some (moveToPath storage remote renameItem.getPath (enteredPath remote currentPath input))

end Builders

end RoundSync.Rclone
