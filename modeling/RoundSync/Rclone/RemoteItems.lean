import RoundSync.Rclone.RemoteReference

/-!
# The list of remotes

`Rclone.getRemotes` makes an item of every section of `rclone config dump`.
The item of a wrapping backend takes its type from the storage at the end of a
chain of sections (`getRemoteType`).
-/

namespace RoundSync.Rclone.Listing

open RoundSync.Data
open RoundSync.Text

/-- The values of one section, all of them texts. -/
abbrev ConfigSection := Table JavaString JavaString

/-- The answer of `rclone config dump`. -/
abbrev ConfigDump := Table JavaString ConfigSection

/-- `JSONObject.optString`. -/
def ConfigSection.optString (values : ConfigSection) (key : String) : JavaString :=
  (values.lookup key.toList).getD []

/-! ## Items -/

/-- The parts of a `RemoteItem` that its section decides. -/
structure RemoteItem where
  name : JavaString
  type : Int
  typeReadable : JavaString
  isCrypt : Bool
  isAlias : Bool
  isPathAlias : Bool
  isCache : Bool
  deriving DecidableEq

namespace RemoteItem

def LOCAL : Int :=
  18

/-- The cases of `getTypeFromString`. -/
def typeNumbers : List (String × Int) :=
  [("local-saf", -10), ("quarkdav-cookie", -20), ("alias", 2), ("amazon cloud drive", 3),
    ("azureblob", 20), ("b2", 5), ("box", 6), ("cache", 7), ("chunker", 29), ("crypt", 10),
    ("dropbox", 9), ("drive", 13), ("fichier", 1), ("ftp", 11), ("google cloud storage", 12),
    ("google photos", 14), ("http", 33), ("swift", 24), ("jottacloud", 16), ("koofr", 17),
    ("local", 18), ("mega", 20), ("onedrive", 22), ("opendrive", 23), ("pcloud", 25),
    ("qingstor", 27), ("s3", 4), ("sftp", 28), ("union", 30), ("webdav", 31), ("yandex", 32),
    ("sharefile", 8), ("mailru", 19), ("putio", 26), ("premiumizeme", 34)]

def getTypeFromString (type : JavaString) : Int :=
  ((typeNumbers.find? fun known => known.1.toList = type).map Prod.snd).getD (-1)

/-- The constructor. -/
def new (name type : JavaString) : RemoteItem where
  name := name
  type := getTypeFromString type
  typeReadable := type
  isCrypt := false
  isAlias := false
  isPathAlias := false
  isCache := false

def setType (item : RemoteItem) (type : JavaString) : RemoteItem :=
  { item with typeReadable := type, type := getTypeFromString type }

end RemoteItem

/-! ## Wrapping backends -/

/-- The backends with a `remote` that the list follows. -/
inductive Wrapper where
  | cryptRemote
  | aliasRemote
  | cacheRemote
  deriving DecidableEq

def Wrapper.ofType (type : JavaString) : Option Wrapper :=
  if type = "crypt".toList then some .cryptRemote
  else if type = "alias".toList then some .aliasRemote
  else if type = "cache".toList then some .cacheRemote
  else none

namespace RemoteItem

/-- `setIsCrypt`, `setIsAlias` or `setIsCache` with true. -/
def mark (item : RemoteItem) : Wrapper → RemoteItem
  | .cryptRemote => { item with isCrypt := true }
  | .aliasRemote => { item with isAlias := true }
  | .cacheRemote => { item with isCache := true }

/-- A path of the device. -/
def setLocalPath (item : RemoteItem) : RemoteItem :=
  { item.setType "local".toList with isPathAlias := true }

end RemoteItem

def applyInlineRemoteType (remoteItem : RemoteItem) (type : JavaString) : RemoteItem :=
  match Wrapper.ofType type with
  | some wrapper => remoteItem.mark wrapper
  | none =>
      if type = "local".toList then remoteItem.setLocalPath else remoteItem.setType type

def SAF_REMOTE_URL : JavaString :=
  "http://localhost:40404/".toList

namespace RemoteItem

variable (item : RemoteItem) (wrapper other : Wrapper) (type : JavaString)

end RemoteItem

end RoundSync.Rclone.Listing
