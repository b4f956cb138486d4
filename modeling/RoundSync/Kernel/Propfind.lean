import RoundSync.Kernel.LockRuns
import RoundSync.Kernel.Requests

/-!
# PROPFIND

`handlePropfind` walks the tree below a path and writes one response for every
entry it visits.  The walk reads the file system and, where `lockdiscovery` is
asked for, the lock table, which other requests change in between.  A response
is kept by its parts, each property value with the lock table it was written
under, and `Response.text` puts the parts together as the server sends them.
-/

namespace RoundSync.Kernel

open RoundSync.Text
open RoundSync.Transition
open Effect

structure XmlName where
  space : GoString
  localName : GoString
  deriving DecidableEq

structure PropfindReq where
  propname : Bool
  allprop : Bool
  props : List XmlName

/-- What the standard library prints, and the hash the drive reports of a file. -/
structure Formats where
  decimal : Int → GoString
  hex : Int → GoString
  httpTime : Int → GoString
  rfc3339 : Int → GoString
  mimeByName : GoString → GoString
  contentHash : Entry → GoString

/-- What stays the same during a PROPFIND.  `others n` are the lock events of
other requests before the `n`-th property value is written. -/
structure PropfindSite where
  handler : Handler
  env : Env
  formats : Formats
  unmarshal : GoString → Option PropfindReq
  extractOwnerXML : GoString → GoString
  others : Nat → List LockEvent

structure Session where
  world : World
  locks : LockState
  values : Nat

abbrev Propfind := Effect Session DriveError

/-- The parts of a PROPFIND request that the handler reads. -/
structure PropfindRequest where
  depth : GoString
  userAgent : GoString
  body : Reader

/-- A property value, and the lock state in which it was written. -/
structure Written where
  name : XmlName
  value : GoString
  seen : LockState

inductive PropStats where
  | names (names : List XmlName)
  | values (found : List Written) (missing : List XmlName)

structure Response where
  path : GoString
  href : GoString
  entry : Entry
  stats : PropStats

/-- What `handlePropfind` returns, or the responses it writes. -/
inductive PropfindAnswer where
  | error (status : Nat) (error : DriveError)
  | multistatus (responses : List Response)

/-! ## The request -/

def readPropfind (unmarshal : GoString → Option PropfindReq) (body : GoString) :
    Option PropfindReq :=
  if trimSpace body = [] then some ⟨false, true, []⟩
  else
    (unmarshal body).map fun pf =>
      if pf.propname = false ∧ pf.allprop = false ∧ pf.props = [] then { pf with allprop := true }
      else pf

def davSpace : GoString :=
  str "DAV:"

def ocSpace : GoString :=
  str "http://owncloud.org/ns"

def lockdiscovery : XmlName :=
  ⟨davSpace, str "lockdiscovery"⟩

def livePropNames : List XmlName :=
  [⟨davSpace, str "resourcetype"⟩, ⟨davSpace, str "displayname"⟩,
    ⟨davSpace, str "getcontentlength"⟩, ⟨davSpace, str "getlastmodified"⟩,
    ⟨davSpace, str "creationdate"⟩, ⟨davSpace, str "getcontenttype"⟩, ⟨davSpace, str "getetag"⟩,
    ⟨davSpace, str "supportedlock"⟩, lockdiscovery, ⟨ocSpace, str "checksums"⟩]

def propAllowedFor (e : Entry) (n : XmlName) : Bool :=
  if n.localName ∈ [str "getcontentlength", str "getcontenttype", str "getetag", str "checksums"]
  then !e.isDir
  else true

/-- The properties whose values a request asks for. -/
def PropfindReq.asked (pf : PropfindReq) : List XmlName :=
  if pf.propname then [] else if pf.allprop then livePropNames else pf.props

/-! ## Property values -/

/-- `html.EscapeString`. -/
def escapeString (s : GoString) : GoString :=
  s.flatMap fun b =>
    if b = 38 then str "&amp;"
    else if b = 39 then str "&#39;"
    else if b = 60 then str "&lt;"
    else if b = 62 then str "&gt;"
    else if b = 34 then str "&#34;"
    else [b]

/-- `ETag`. -/
def etag (formats : Formats) (e : Entry) : GoString :=
  str "\"" ++ formats.hex e.modTime ++ str "-" ++ formats.hex e.size ++ str "\""

def element (tag content : GoString) : GoString :=
  str "<" ++ tag ++ str ">" ++ content ++ str "</" ++ tag ++ str ">"

section Handling

variable (site : PropfindSite)

/-- `LockSystem.Active`. -/
def activeLocks (path : GoString) : Propfind (List LockInfo) :=
  fun s =>
    (.ok (active s.locks.locks s.locks.clock path).1,
    { s with locks := lockStep site.extractOwnerXML s.locks (.active path) })

/-- Other requests take their turns before a value is written. -/
def yieldToOthers : Propfind PUnit :=
  update fun s =>
    { s with
      locks := run (lockStep site.extractOwnerXML) s.locks (site.others s.values)
      values := s.values + 1 }

def onWorld {α : Type} (action : Fs α) : Propfind α :=
  fun s => ((action s.world).1, { s with world := (action s.world).2 })

/-- The value of a property, or nothing for a property the server does not
know.  The loop over the locks writes nothing for any of them. -/
def writePropValue (pn : XmlName) (e : Entry) (userAgent : GoString) :
    Propfind (Option GoString) :=
  let name := pn.space ++ pn.localName
  if name = davSpace ++ str "resourcetype" then
    pure (some (element (str "D:resourcetype") (if e.isDir then str "<D:collection/>" else [])))
  else if name = davSpace ++ str "displayname" then
    pure (some (element (str "D:displayname") (escapeString e.name)))
  else if name = davSpace ++ str "getcontentlength" then
    pure (some (element (str "D:getcontentlength") (site.formats.decimal e.size)))
  else if name = davSpace ++ str "getlastmodified" then
    pure (some (element (str "D:getlastmodified") (site.formats.httpTime e.modTime)))
  else if name = davSpace ++ str "creationdate" then
    pure (some (element (str "D:creationdate")
      (if str "microsoft-webdav" <:+: toLower userAgent then site.formats.httpTime e.createTime
        else site.formats.rfc3339 e.createTime)))
  else if name = davSpace ++ str "getcontenttype" then
    pure (some (element (str "D:getcontenttype") (site.formats.mimeByName e.name)))
  else if name = davSpace ++ str "getetag" then
    pure (some (element (str "D:getetag") (etag site.formats e)))
  else if name = davSpace ++ str "supportedlock" then
    pure (some (element (str "D:supportedlock")
      (element (str "D:lockentry")
        (element (str "D:lockscope") (str "<D:exclusive/>") ++
          element (str "D:locktype") (str "<D:write/>")))))
  else if name = davSpace ++ str "lockdiscovery" then do
    let locks ← activeLocks site (pathJoin [slash] e.name)
    pure (some (element (str "D:lockdiscovery") (locks.flatMap fun _ => [])))
  else if name = ocSpace ++ str "checksums" then
    let hash := site.formats.contentHash e
    pure (some (str "<oc:checksums xmlns:oc=\"" ++ ocSpace ++ str "\">" ++
      (if hash ≠ [] then element (str "oc:checksum") (str "MD5:" ++ escapeString hash) else []) ++
      str "</oc:checksums>"))
  else pure none

/-- The loop over the names a response asks for. -/
def writePropValues (e : Entry) (userAgent : GoString) :
    List XmlName → Propfind (List Written × List XmlName)
  | [] => pure ([], [])
  | pn :: names =>
      if propAllowedFor e pn then do
        yieldToOthers site
        let before ← read
        let value ← writePropValue site pn e userAgent
        let (found, missing) ← writePropValues e userAgent names
        match value with
        | some value => pure (⟨pn, value, before.locks⟩ :: found, missing)
        | none => pure (found, pn :: missing)
      else do
        let (found, missing) ← writePropValues e userAgent names
        pure (found, pn :: missing)

def writePropfindResponse (pf : PropfindReq) (userAgent path : GoString) (e : Entry) :
    Propfind Response := do
  let href := hrefFor site.handler path e.isDir
  if pf.propname then pure ⟨path, href, e, .names (livePropNames.filter (propAllowedFor e))⟩
  else
    let (found, missing) ← writePropValues site e userAgent
      (if pf.allprop then livePropNames else pf.props)
    pure ⟨path, href, e, .values found missing⟩

/-! ## The walk -/

/-- The loop over the children; `none` when a recursive call used up its
bound. -/
def walkChildren {α : Type} (recur : GoString → Entry → Propfind (Option (List α)))
    (reqPath : GoString) : List Entry → Propfind (Option (List α))
  | [] => pure (some [])
  | child :: children => do
      match ← recur (pathJoin reqPath child.name) child with
      | none => pure none
      | some below =>
          let rest ← walkChildren recur reqPath children
          pure (rest.map fun rest => below ++ rest)

/-- `walk`, with a bound on the depth of its recursion and the values of its
visits in order. -/
def walk {α : Type} (visit : GoString → Entry → Propfind α) :
    Nat → Int → GoString → Entry → Propfind (Option (List α))
  | 0, _, _, _ => pure none
  | bound + 1, depth, reqPath, e => do
      let visited ← visit reqPath e
      if !e.isDir ∨ depth = 0 then pure (some [visited])
      else
        let nextDepth := if depth > 0 then depth - 1 else depth
        let children ← onWorld (listPath site.env (split reqPath))
        let below ← walkChildren (walk visit bound nextDepth) reqPath children
        pure (below.map fun below => visited :: below)

def handlePropfind (bound : Nat) (r : PropfindRequest) (reqPath : GoString) :
    Propfind (Option PropfindAnswer) := do
  match ← attempt (onWorld (stat site.env (split reqPath))) with
  | .error e => pure (some (.error (mapErr e) e))
  | .ok fi =>
      match if r.depth ≠ [] then parseDepth r.depth else some (-1) with
      | none => pure (some (.error 400 (.other "invalid depth")))
      | some depth =>
          match r.body.broken with
          | some message => pure (some (.error 400 (.other message)))
          | none =>
              match readPropfind site.unmarshal r.body.data with
              | none => pure (some (.error 400 (.other "xml")))
              | some pf =>
                  match ← attempt (walk site (writePropfindResponse site pf r.userAgent) bound depth
                    reqPath fi) with
                  | .error e => pure (some (.error 500 e))
                  | .ok responses => pure (responses.map .multistatus)

end Handling

/-! ## The text of the answer -/

def emptyPropName (pn : XmlName) : GoString :=
  if pn.space = ocSpace then
    str "<oc:" ++ pn.localName ++ str " xmlns:oc=\"http://owncloud.org/ns\"" ++ str "/>"
  else str "<D:" ++ pn.localName ++ str "/>"

def propstat (props status : GoString) : GoString :=
  element (str "D:propstat") (element (str "D:prop") props ++ element (str "D:status") status)

def PropStats.text : PropStats → GoString
  | .names listed => propstat (listed.flatMap emptyPropName) (str "HTTP/1.1 200 OK")
  | .values found missing =>
      propstat (found.flatMap Written.value) (str "HTTP/1.1 200 OK") ++
        if missing ≠ [] then
          propstat (missing.flatMap emptyPropName) (str "HTTP/1.1 404 Not Found")
        else []

def Response.text (r : Response) : GoString :=
  element (str "D:response") (element (str "D:href") (escapeString r.href) ++ r.stats.text)

def multistatusText (responses : List Response) : GoString :=
  str "<?xml version=\"1.0\" encoding=\"UTF-8\"?>\n" ++
    str "<D:multistatus xmlns:D=\"DAV:\" xmlns:oc=\"http://owncloud.org/ns\">" ++
    responses.flatMap Response.text ++ str "</D:multistatus>"

/-- The property values of a response. -/
def Response.found (r : Response) : List Written :=
  match r.stats with
  | .names _ => []
  | .values found _ => found

end RoundSync.Kernel
