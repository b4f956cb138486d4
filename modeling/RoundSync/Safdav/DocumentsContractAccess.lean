import RoundSync.Safdav.ProviderPaths

/-!
# Access to documents

The class `DocumentsContractAccess` on the Android storage provider: the URI of
a document is built as a string from the tree path, parsed, and decoded by the
provider, which finds the document id in its fourth segment.  An operation is
one call of the provider.
-/

namespace RoundSync.Safdav

open RoundSync.Text RoundSync.Text.AndroidUri

/-! ## Document URIs -/

/-- The text up to and with the first such character, and the text after it. -/
def cutAfter (c : Char) (s : JavaString) : Option (JavaString × JavaString) :=
  if c ∈ s then some (s.takeWhile (· ≠ c) ++ [c], (s.dropWhile (· ≠ c)).tail) else none

/-- `replaceAll("/", "%2F")`. -/
def escapeSlashes (s : JavaString) : JavaString :=
  s.flatMap fun c => if c = '/' then text "%2F" else [c]

/-- The text up to the last slash, which is not its last character. -/
def parentPath (pathRaw : JavaString) : JavaString :=
  let path := if pathRaw.getLast? = some '/' then pathRaw.dropLast else pathRaw
  if '/' ∈ path then (path.rdropWhile (· ≠ '/')).dropLast else []

/-- The branch of the Android storage provider. -/
def buildHierarchicalDocumentsUri (uri : ContentUri) (buildParent : Bool) :
    Except Failure JavaString :=
  if (text "/tree/").isPrefixOf uri.path then
    let path := uri.path.drop 6
    match (cutAfter ':' path).or (cutAfter '/' path) with
    | some (volumePart, pathRaw) =>
        let volume := formEncode volumePart
        let mediaPath :=
          if buildParent then escapeSlashes (parentPath pathRaw) else escapeSlashes pathRaw
        .ok (text "content://" ++ uri.authority ++ text "/tree/" ++ volume ++
          text "/document/" ++ volume ++ mediaPath)
    | none => .error .safException
  else .error .safException

def getParent (uri : ContentUri) : Except Failure JavaString :=
  buildHierarchicalDocumentsUri uri true

/-- `getPathSegments` of a URI that was built from its decoded path. -/
def ContentUri.segments (uri : ContentUri) : List JavaString :=
  (uri.path.splitOn '/').filter (· ≠ [])

def getDisplayName (uri : ContentUri) : JavaString :=
  let lastSegment := (uri.segments.getLast?).getD []
  let displayName :=
    if 3 ≤ uri.segments.length then lastSegment
    else
      match (cutAfter ':' (uri.path.drop 6)).or (cutAfter '/' (uri.path.drop 6)) with
      | some (_, rest) => rest
      | none => lastSegment
  if displayName.getLast? = some '/' then displayName.dropLast else displayName

/-! ## Operations -/

/-- A call of the documents provider, with the URIs it is given. -/
inductive ProviderCall where
  | query (document : JavaString)
  | deleteDocument (document : JavaString)
  | renameDocument (document displayName : JavaString)
  | moveDocument (document sourceParent targetParent : JavaString)
  deriving DecidableEq

/-- The URI of the document that is acted on. -/
def ProviderCall.document : ProviderCall → JavaString
  | query document => document
  | deleteDocument document => document
  | renameDocument document _ => document
  | moveDocument document _ _ => document

def readMeta (uri : ContentUri) : Except Failure ProviderCall := do
  return .query (← buildHierarchicalDocumentsUri uri false)

def deleteItem (uri : ContentUri) : Except Failure ProviderCall := do
  return .deleteDocument (← buildHierarchicalDocumentsUri uri false)

def renameItem (item target : ContentUri) : Except Failure ProviderCall := do
  return .renameDocument (← buildHierarchicalDocumentsUri item false) (getDisplayName target)

/-- The move from the API level on that has `moveDocument`. -/
def moveItem (srcStubUri targetStubUri : ContentUri) : Except Failure ProviderCall := do
  let srcUri ← buildHierarchicalDocumentsUri srcStubUri false
  let srcParentUri ← getParent srcStubUri
  let dstParentUri ← getParent targetStubUri
  if srcParentUri = dstParentUri then renameItem srcStubUri targetStubUri
  else return .moveDocument srcUri srcParentUri dstParentUri

/-! ## The provider -/

/-- `DocumentsContract.getDocumentId` of a parsed URI. -/
def getDocumentId (malformedLength : List UInt8 → Nat) (uriString : JavaString) :
    Option JavaString :=
  match pathSegments malformedLength (parsePath uriString) with
  | kind :: documentId :: rest =>
      if kind = text "document" then some documentId
      else
        match rest with
        | document :: treeDocumentId :: _ =>
            if kind = text "tree" ∧ document = text "document" then some treeDocumentId else none
        | _ => none
  | _ => none

end RoundSync.Safdav
