import RoundSync.Kernel.Confinement
import RoundSync.Kernel.Propfind

/-!
# The server

`ServeHTTP` with the handlers of all its methods, over the file system and the
lock table.  A request comes with one reading of the clock and with what the
runtime chooses: the identifier of a new lock, and the order in which a set of
tokens is gone through.
-/

namespace RoundSync.Kernel

open RoundSync.Data
open RoundSync.Text
open RoundSync.Transition
open Effect

/-! ## Headers -/

/-- The fields of a header in order, under their canonical names. -/
abbrev Header := List (GoString × GoString)

namespace Header

def values (header : Header) (key : GoString) : List GoString :=
  (header.filter fun field => field.1 = key).map Prod.snd

def get (header : Header) (key : GoString) : GoString :=
  (header.values key).headD []

def del (header : Header) (key : GoString) : Header :=
  header.filter fun field => field.1 ≠ key

def set (header : Header) (key value : GoString) : Header :=
  header.del key ++ [(key, value)]

def add (header : Header) (key : GoString) (values : List GoString) : Header :=
  header ++ values.map fun value => (key, value)

end Header

/-! ## Requests and answers -/

structure HttpRequest where
  method : GoString
  urlPath : GoString
  host : GoString
  basicAuth : Option (GoString × GoString)
  header : Header
  contentLength : Int
  body : Reader
  now : Int
  uuid : GoString
  tokenOrder : List GoString → List GoString
  isOrder : ∀ tokens, (tokenOrder tokens).Perm tokens.dedup

/-- What is written after the header. -/
inductive AnswerBody where
  | nothing
  | statusText
  | bytes (body : Reader)
  | multistatus (responses : List Response)
  | forbidden (href : GoString)
  | activeLock (li : LockInfo)

structure HttpAnswer where
  status : Nat
  header : Header
  content : AnswerBody

/-- How the host of the contents answers. -/
structure Upstream where
  status : Nat
  header : Header
  content : GoString

/-- The configuration of a `Handler`, the header of the driver's links, and the
host of the contents. -/
structure DavSite where
  handler : Handler
  env : Env
  formats : Formats
  unmarshal : GoString → Option PropfindReq
  extractOwnerXML : GoString → GoString
  writable : Bool
  Username : GoString
  Password : GoString
  NoAuth : Bool
  linkHeader : Header
  contentHost : Header → GoString → Upstream

namespace DavSite

variable (dav : DavSite)

def fs : Site :=
  ⟨dav.handler, dav.env, dav.writable⟩

/-- Requests are served one after the other. -/
def site : PropfindSite :=
  ⟨dav.handler, dav.env, dav.formats, dav.unmarshal, dav.extractOwnerXML, fun _ => []⟩

def checkAuth (r : HttpRequest) : Bool :=
  match r.basicAuth with
  | none => false
  | some (u, p) => u = dav.Username && p = dav.Password

/-! ## Reading -/

def handleOptions (reqPath : GoString) : Serve HttpAnswer := do
  let fi ← attempt (onFs (stat dav.env (split reqPath)))
  let allow :=
    match fi with
    | .error _ => str "OPTIONS, LOCK, PUT, MKCOL"
    | .ok fi =>
        if fi.isDir then
          str "OPTIONS, LOCK, DELETE, PROPPATCH, COPY, MOVE, UNLOCK, PROPFIND" ++
            if dav.writable then str ", PUT, MKCOL" else []
        else str "OPTIONS, LOCK, GET, HEAD, POST, DELETE, PROPPATCH, COPY, MOVE, UNLOCK, PROPFIND, PUT"
  pure ⟨200, [(str "Allow", allow), (str "DAV", str "1, 2"), (str "MS-Author-Via", str "DAV")],
    .nothing⟩

/-- The header of the request for the content. -/
def outHeader (header : Header) : Header :=
  [str "Range", str "If-Range", str "User-Agent"].foldl (fun out k =>
    if out.get k = [] then out.add k (header.values k) else out) dav.linkHeader

def copyResponseHeaders (dst src : Header) : Header :=
  [str "Content-Type", str "Content-Length", str "Content-Range", str "Accept-Ranges",
    str "Last-Modified", str "Cache-Control", str "Expires"].foldl (fun dst k =>
      if src.values k ≠ [] then (dst.del k).add k (src.values k) else dst) dst

def setDefault (header : Header) (key value : GoString) : Header :=
  if header.get key = [] then header.set key value else header

/-- The request for a content, with the header it passes on. -/
def download (link : Link) (header : Header) : Fs (Upstream × Reader) :=
  fun w =>
    ((readCall dav.env fun drive => (drive.download link.file).map fun data =>
      let upstream := dav.contentHost header data
      match dav.env.bodyBreaks w.changes w.reads with
      | some (length, message) => (upstream, ⟨upstream.content.take length, some message⟩)
      | none => (upstream, ⟨upstream.content, none⟩)) : Fs (Upstream × Reader)) w

def handleGetHeadPost (r : HttpRequest) (reqPath : GoString) : Serve HttpAnswer := do
  let fi ← onFs (stat dav.env (split reqPath))
  let formats := dav.formats
  if fi.isDir then
    if r.method = str "HEAD" then
      pure ⟨200, [(str "Content-Type", str "httpd/unix-directory"), (str "Content-Length", str "0")],
        .statusText⟩
    else fail (.http ⟨405, ""⟩)
  else if r.method = str "HEAD" then
    pure ⟨200, [(str "Content-Length", formats.decimal fi.size),
      (str "Last-Modified", formats.httpTime fi.modTime), (str "Etag", etag formats fi),
      (str "Accept-Ranges", str "bytes"), (str "Content-Type", formats.mimeByName fi.name)],
      .statusText⟩
  else
    let (link, _) ← onFs (link dav.env (split reqPath))
    match ← attempt (onFs (dav.download link (dav.outHeader r.header))) with
    | .error _ => fail (.http ⟨500, "download"⟩)
    | .ok (resp, body) =>
        let header := (copyResponseHeaders [] resp.header).set (str "Etag") (etag formats fi)
        let header := setDefault header (str "Content-Type") (formats.mimeByName fi.name)
        pure ⟨resp.status, setDefault header (str "Accept-Ranges") (str "bytes"), .bytes body⟩

/-- A handler that sees the lock table at the clock reading of the request. -/
def onSession {α : Type} (now : Int) (action : Propfind α) : Serve α :=
  fun s =>
    let (answer, session) := action ⟨s.world, ⟨now, s.locks, [], []⟩, 0⟩
    (match answer with
      | .ok a => .ok a
      | .error e => .error (.fs e),
    ⟨session.world, session.locks.locks⟩)

def xmlType : Header :=
  [(str "Content-Type", str "application/xml; charset=utf-8")]

/-- `handlePropfind`, without answer when the walk uses up its bound. -/
def servePropfind (bound : Nat) (r : HttpRequest) (reqPath : GoString) :
    Serve (Option HttpAnswer) := do
  let request : PropfindRequest := ⟨r.header.get (str "Depth"), r.header.get (str "User-Agent"), r.body⟩
  match ← onSession r.now (handlePropfind dav.site bound request reqPath) with
  | none => pure none
  | some (.error status _) => fail (.http ⟨status, "propfind"⟩)
  | some (.multistatus responses) => pure (some ⟨207, xmlType, .multistatus responses⟩)

/-! ## Writing -/

def handleProppatch (r : HttpRequest) (reqPath : GoString) : Serve HttpAnswer := do
  if !(← checkLocks r.now [reqPath] (r.header.get (str "If"))) then fail (.http ⟨412, "locked"⟩)
  else
    let _ ← onFs (stat dav.env (split reqPath))
    pure ⟨207, xmlType, .forbidden (hrefFor dav.handler reqPath false)⟩

/-- The size of a body, from `X-File-Size` if the request has no length. -/
def uploadSize (r : HttpRequest) : Int :=
  let announced := r.header.get (str "X-File-Size")
  if r.contentLength < 0 ∧ announced ≠ [] then (atoi announced).getD r.contentLength
  else r.contentLength

def HeaderUnixTime (r : HttpRequest) (header alternative : GoString) : Int :=
  let h := trimSpace (r.header.get header)
  let h := if h = [] ∧ alternative ≠ [] then trimSpace (r.header.get alternative) else h
  if h ≠ [] then
    match atoi h with
    | some sec => sec * second
    | none => r.now
  else r.now

def handlePut (r : HttpRequest) (reqPath : GoString) : Serve HttpAnswer := do
  if reqPath = [slash] then fail (.http ⟨405, ""⟩)
  else if !dav.writable then fail (.http ⟨405, "operation not supported"⟩)
  else
    if !(← checkLocks r.now [reqPath] (r.header.get (str "If"))) then fail (.http ⟨412, "locked"⟩)
    else
      let mod := HeaderUnixTime r (str "X-OC-Mtime") []
      let ctime := HeaderUnixTime r (str "X-OC-Ctime") (str "X-OC-Mtime")
      let obj ← onFs (put dav.env (split reqPath) r.body (uploadSize r) mod ctime)
      pure ⟨201, [(str "Etag", etag dav.formats obj)], .statusText⟩

def handleMkcol (r : HttpRequest) (reqPath : GoString) : Serve HttpAnswer := do
  if !dav.writable then fail (.http ⟨405, "operation not supported"⟩)
  else
    if !(← checkLocks r.now [reqPath] (r.header.get (str "If"))) then fail (.http ⟨412, "locked"⟩)
    else if r.contentLength > 0 then fail (.http ⟨415, ""⟩)
    else
      match ← attempt (onFs (stat dav.env (split reqPath))) with
      | .ok _ => fail (.http ⟨405, "already exists"⟩)
      | .error _ =>
          match ← attempt (onFs (resolveParent dav.env (split reqPath))) with
          | .error _ => fail (.http ⟨409, "parent"⟩)
          | .ok _ =>
              onFs (makeDir dav.env (split reqPath))
              pure ⟨201, [], .statusText⟩

/-- What the handlers of DELETE, MOVE and COPY read. -/
def shortRequest (r : HttpRequest) (method : Method) : Request where
  method := method
  urlPath := r.urlPath
  host := r.host
  destination := r.header.get (str "Destination")
  overwrite := r.header.get (str "Overwrite")
  depth := r.header.get (str "Depth")
  ifHeader := r.header.get (str "If")

def answerStatus (status : Option Nat) : Option HttpAnswer :=
  status.map fun status => ⟨status, [], if status = 204 then .nothing else .statusText⟩

/-! ## Locks -/

def onLocks {α : Type} (action : LockTable → α × LockTable) : Serve α :=
  fun s => (.ok (action s.locks).1, { s with locks := (action s.locks).2 })

/-- The loop over the tokens of a LOCK request without a body. -/
def refreshFirst (now timeout : Int) : List GoString → Serve HttpAnswer
  | [] => fail (.http ⟨400, "missing lock info"⟩)
  | t :: tokens => do
      match ← onLocks fun locks => refresh locks now t timeout with
      | some li => pure ⟨200, xmlType, .activeLock li⟩
      | none => refreshFirst now timeout tokens

def zeroLock : LockInfo :=
  ⟨[], [], [], 0, false⟩

def handleLock (r : HttpRequest) (reqPath : GoString) : Serve HttpAnswer := do
  let headers : LockHeaders := ⟨r.header.get (str "Depth"), r.header.get (str "Timeout"),
    r.header.get (str "If"), r.body.data⟩
  match lockStart dav.extractOwnerXML headers with
  | .invalidDepth => fail (.http ⟨400, "invalid depth"⟩)
  | .refresh tokens timeout => refreshFirst r.now timeout (r.tokenOrder tokens)
  | .acquire zeroDepth ownerXML timeout =>
      if !(← checkLocks r.now [reqPath] headers.ifHeader) then fail (.http ⟨423, "locked"⟩)
      else
        let token ← onLocks fun locks => create locks r.now r.uuid reqPath ownerXML zeroDepth timeout
        let li ← onLocks fun locks => refresh locks r.now token timeout
        pure ⟨200, [(str "Lock-Token", str "<" ++ token ++ str ">")],
          .activeLock (li.getD zeroLock)⟩

def handleUnlock (r : HttpRequest) : Serve HttpAnswer := do
  let token := trim (r.header.get (str "Lock-Token")) (str "<>")
  if token = [] then fail (.http ⟨400, "invalid lock token"⟩)
  else
    if ← onLocks fun locks => unlock locks token then pure ⟨204, [], .nothing⟩
    else fail (.http ⟨409, "no such lock"⟩)

/-! ## The whole server -/

def handle (bound : Nat) (r : HttpRequest) (reqPath : GoString) : Serve (Option HttpAnswer) := do
  if r.method = str "OPTIONS" then some <$> dav.handleOptions reqPath
  else if r.method = str "GET" ∨ r.method = str "HEAD" ∨ r.method = str "POST" then
    some <$> dav.handleGetHeadPost r reqPath
  else if r.method = str "PROPFIND" then dav.servePropfind bound r reqPath
  else if r.method = str "PROPPATCH" then some <$> dav.handleProppatch r reqPath
  else if r.method = str "PUT" then some <$> dav.handlePut r reqPath
  else if r.method = str "MKCOL" then some <$> dav.handleMkcol r reqPath
  else if r.method = str "DELETE" then
    answerStatus <$> handleDelete dav.fs r.now (shortRequest r .delete) reqPath
  else if r.method = str "MOVE" then
    answerStatus <$> handleCopyMove dav.fs bound r.now (shortRequest r .move) reqPath
  else if r.method = str "COPY" then
    answerStatus <$> handleCopyMove dav.fs bound r.now (shortRequest r .copy) reqPath
  else if r.method = str "LOCK" then some <$> dav.handleLock r reqPath
  else if r.method = str "UNLOCK" then some <$> handleUnlock r
  else fail (.http ⟨400, "unsupported method"⟩)

def unauthorized : HttpAnswer :=
  ⟨401, [(str "WWW-Authenticate", str "Basic realm=\"QuarkDav\"")],
    .bytes ⟨str "Unauthorized", none⟩⟩

/-- `ServeHTTP`, with the answer of `writeError` when a handler fails. -/
def ServeHTTP (bound : Nat) (r : HttpRequest) (s : Server) : Option HttpAnswer × Server :=
  if !dav.NoAuth && !dav.checkAuth r then (some unauthorized, s)
  else
    match (do
      let reqPath ← liftExcept (stripPrefix dav.handler r.urlPath)
      dav.handle bound r reqPath : Serve (Option HttpAnswer)) s with
    | (.ok answer, s') => (answer, s')
    | (.error e, s') => (some ⟨e.status, [], .statusText⟩, s')

/-- The state after a request. -/
def serverStep (bound : Nat) (s : Server) (r : HttpRequest) : Server :=
  (dav.ServeHTTP bound r s).2

end DavSite

end RoundSync.Kernel
