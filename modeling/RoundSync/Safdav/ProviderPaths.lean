import RoundSync.Data.FreshLabels
import RoundSync.Data.Table
import RoundSync.Safdav.TreePaths
import RoundSync.Text.AndroidUri

/-!
# Names of the permissions

The class `ProviderPaths` of the WebDAV server for storage access: a permission
is listed under a name, and a request path is translated back to the tree path
it addresses.  The names are kept in one table, which a counter keeps free of
duplicates.
-/

namespace RoundSync.Safdav

open RoundSync.Data RoundSync.Text RoundSync.Text.Kotlin RoundSync.Text.AndroidUri

def ANDROID_EXTERNAL_STORAGE_PREFIX : JavaString :=
  text "content://com.android.externalstorage.documents/tree/"

/-- `toString` of a permission, whose document id is one encoded segment. -/
def Permission.toText (uri : Permission) : JavaString :=
  ANDROID_EXTERNAL_STORAGE_PREFIX ++ encode uri.documentId

/-- `contains` of strings. -/
def contains (part s : JavaString) : Bool :=
  decide (part <:+: s)

/-- `replace("%3A", ":")`. -/
def replaceColonEscape : JavaString → JavaString
  | '%' :: '3' :: 'A' :: rest => ':' :: replaceColonEscape rest
  | c :: rest => c :: replaceColonEscape rest
  | [] => []

/-! ## The name of a permission -/

abbrev NameTable := Table JavaString Permission

def getNormalizedPath (uri : Permission) : JavaString :=
  let path := uri.path.map fun c => if c = ':' then '/' else c
  let start := if contains (text "/tree/") path then (text "/tree/").length else 0
  -- no colon is left, so that the end is that of the path
  let path := path.drop start
  if path = [] ∨ path.getLast? = some '/' then path else path ++ ['/']

/-- A name with the counter after it. -/
def counted (nameInternal : JavaString) (counter : Nat) : JavaString :=
  nameInternal ++ text " (" ++ Nat.toDigits 10 counter ++ text ")"

/-- The names that the counter runs over. -/
def freeName (permissionsByPath : NameTable) (nameInternal : JavaString) : JavaString :=
  counted nameInternal <|
    firstFree (counted nameInternal) (fun path => (permissionsByPath.lookup path).isSome)
      permissionsByPath.keys.length 2

section

variable (isExternalStorageRemovable : Bool)

/-- The name of a permission when no other one has it. -/
def plainName (uri : Permission) : JavaString :=
  let path := (getNormalizedPath uri).dropLast
  if path = text "primary" then
    if isExternalStorageRemovable then text "SD Card" else text "Internal Storage"
  else path

/-- The name under which the permission is put into the table. -/
def mappedName (permissionsByPath : NameTable) (uri : Permission) : JavaString :=
  let path := plainName isExternalStorageRemovable uri
  match permissionsByPath.lookup path with
  | none => path
  | some storedUri => if storedUri = uri then path else freeName permissionsByPath path

def getPathForUri (permissionsByPath : NameTable) (uri : Permission) : JavaString × NameTable :=
  let path := mappedName isExternalStorageRemovable permissionsByPath uri
  (path ++ ['/'], permissionsByPath.insert path uri)

end

/-! ## The path of a request -/

/-- The exceptions of the server, by their classes. -/
inductive Failure where
  | illegalArgument
  | stringIndexOutOfBounds
  | itemNotFound
  | itemExists
  | fileAccessError
  | safException
  | nullPointer
  | illegalState
  deriving DecidableEq

/-- A content URI, with its path in decoded form. -/
structure ContentUri where
  authority : JavaString
  path : JavaString
  deriving DecidableEq

/-- The first segment of a request path, as far as it is cut off, and what is
appended to the path of its permission; the slash before the request path is
left out. -/
def splitRequest (rest : JavaString) : JavaString × JavaString :=
  let first := rest.takeWhile (· ≠ '/')
  let fromSlash := rest.dropWhile (· ≠ '/')
  -- the position of the second slash in the request path
  let idx := if fromSlash = [] then none else some (1 + utf16Length first)
  let path := if idx ≠ some 1 ∧ idx = some (utf16Length rest) then first else rest
  if ∃ position ∈ idx, position + 1 < utf16Length path then (first, fromSlash) else (path, [])

/-- The request path with a colon in place of its second slash. -/
def rewriteRequest (rest : JavaString) : JavaString :=
  let first := rest.takeWhile (· ≠ '/')
  match rest.dropWhile (· ≠ '/') with
  | [] => rest ++ [':']
  | _ :: fromSlash => first ++ ':' :: fromSlash

def getUriByMappedPath (permissions : List Permission) (permissionsByPath : NameTable)
    (requestUri : JavaString) : Except Failure ContentUri :=
  match requestUri with
  | [] => .error .stringIndexOutOfBounds
  | slash :: rest =>
      if slash ≠ '/' then .error .illegalArgument
      -- the lookup among the other providers takes the segment out first
      else if rest = [] then .error .stringIndexOutOfBounds
      else
        let (path, pathExtra) := splitRequest rest
        match permissionsByPath.lookup path with
        | some storedUri => .ok ⟨ANDROID_PROVIDER_AUTHORITY, storedUri.path ++ pathExtra⟩
        | none =>
            let subPath := rewriteRequest rest
            let pathPrefix := ANDROID_EXTERNAL_STORAGE_PREFIX ++ subPath
            if permissions.any fun permission =>
                contains (replaceColonEscape permission.toText) pathPrefix then
              .ok ⟨ANDROID_PROVIDER_AUTHORITY, treePath subPath⟩
            else .error .itemNotFound

end RoundSync.Safdav
