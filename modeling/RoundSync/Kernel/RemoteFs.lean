import RoundSync.Kernel.Drive
import RoundSync.Transition.Effect
import Mathlib.Data.List.Sort

/-!
# The kernel's file system

`FS` of the package `remotefs`: directory listings kept for a while, and the
operations the WebDAV server performs through a driver.  A path is given by its
names (`split`).  An `Env` decides everything the kernel does not: clock
readings, and which driver calls fail.  A call that fails has no effect on the
drive; a call that is let through still may be rejected by the drive.
-/

namespace RoundSync.Kernel

open RoundSync.Data
open RoundSync.Text
open RoundSync.Transition

/-- Configuration of an `FS` and the choices of its surroundings.  Calls that
change the drive are counted, and calls that only read are counted from the
last change on; both counts index the failures. -/
structure Env where
  ttl : Int
  streaming : Bool
  lower : GoString → GoString
  now : Nat → Int
  stamp : Nat → Int
  changeFails : Nat → Option String
  readFails : Nat → Nat → Option String
  bodyBreaks : Nat → Nat → Option (Nat × String)

/-- Surroundings in which everything works. -/
def Env.calm : Env where
  ttl := 15 * 1000000000
  streaming := true
  lower := id
  now := fun _ => 0
  stamp := fun _ => 0
  changeFails := fun _ => none
  readFails := fun _ _ => none
  bodyBreaks := fun _ _ => none

/-- A context that is cancelled once the drive has answered `changes` changes. -/
def Env.cancelledAfter (changes : Nat) : Env :=
  { Env.calm with
    changeFails := fun made => if made < changes then none else some "context canceled"
    readFails := fun made _ => if made < changes then none else some "context canceled" }

structure CacheEntry where
  storedAt : Int
  items : List Entry
  deriving DecidableEq

structure World where
  drive : Drive
  cache : Table Nat CacheEntry
  readings : Nat
  changes : Nat
  reads : Nat

/-- `New`. -/
def World.fresh (drive : Drive) : World where
  drive := drive
  cache := ∅
  readings := 0
  changes := 0
  reads := 0

abbrev Fs := Effect World DriveError

open Effect

/-- `time.Now`. -/
def timeNow (env : Env) : Fs Int :=
  fun w => (.ok (env.now w.readings), { w with readings := w.readings + 1 })

/-- A driver call that reads. -/
def readCall {α : Type} (env : Env) (call : Drive → Except DriveError α) : Fs α :=
  fun w =>
    (match env.readFails w.changes w.reads with
      | some message => .error (.other message)
      | none => call w.drive,
    { w with reads := w.reads + 1 })

/-- A driver call that changes the drive; the drive stamps what it creates. -/
def changeCall (env : Env) (call : Int → Drive → Except DriveError Drive) : Fs Unit :=
  fun w =>
    let reached := { w with changes := w.changes + 1, reads := 0 }
    match env.changeFails w.changes with
    | some message => (.error (.other message), reached)
    | none =>
        match call (env.stamp w.changes) w.drive with
        | .ok drive => (.ok (), { reached with drive := drive })
        | .error error => (.error error, reached)

/-! ## Listings -/

def entryLess (lower : GoString → GoString) (a b : Entry) : Bool :=
  if a.isDir ≠ b.isDir then a.isDir else lower a.name < lower b.name

/-- The stable sort of `ListByID`. -/
def sortEntries (lower : GoString → GoString) (items : List Entry) : List Entry :=
  items.insertionSort fun a b => entryLess lower b a = false

/-- The listing kept for a directory, unless it is too old. -/
def cachedItems (env : Env) (id : Nat) : Fs (Option (List Entry)) :=
  if env.ttl > 0 then do
    let w ← read
    match w.cache.lookup id with
    | none => pure none
    | some ce =>
        let now ← timeNow env
        pure (if now - ce.storedAt < env.ttl then some ce.items else none)
  else pure none

def listByID (env : Env) (id : Nat) : Fs (List Entry) := do
  match ← cachedItems env id with
  | some items => pure items
  | none =>
      let listed ← readCall env fun drive => drive.list id
      let items := sortEntries env.lower listed
      let now ← timeNow env
      update fun w => { w with cache := w.cache.insert id ⟨now, items⟩ }
      pure items

def invalidate (ids : List Nat) : Fs PUnit :=
  update fun w =>
    { w with cache := if ids = [] then ∅ else ids.foldl (fun cache id => cache.erase id) w.cache }

def root (env : Env) : Fs Entry := do
  let now ← timeNow env
  pure ⟨rootId, [], 0, now, now, true⟩

/-- `Stat` on the names innermost first, as `path.Base` and `path.Dir` take a
path apart. -/
def statRev (env : Env) : List GoString → Fs Entry
  | [] => root env
  | name :: dir => do
      let parent ← statRev env dir
      if !parent.isDir then fail .notDir
      else
        let items ← listByID env parent.id
        match items.find? (·.name = name) with
        | some e => pure e
        | none => fail .notFound

def stat (env : Env) (p : List GoString) : Fs Entry :=
  statRev env p.reverse

def resolveParent (env : Env) (p : List GoString) : Fs (Entry × GoString) :=
  match p.reverse with
  | [] => fail .alreadyExists
  | name :: dir => do
      let parent ← statRev env dir
      if !parent.isDir then fail .notDir else pure (parent, name)

def listPath (env : Env) (p : List GoString) : Fs (List Entry) := do
  let e ← stat env p
  if !e.isDir then fail .notDir else listByID env e.id

def findByName (env : Env) (parentID : Nat) (name : GoString) : Fs Entry := do
  invalidate [parentID]
  let items ← listByID env parentID
  match items.find? (·.name = name) with
  | some e => pure e
  | none => fail .notFound

/-! ## Changes -/

def makeDir (env : Env) (p : List GoString) : Fs PUnit := do
  let (parent, name) ← resolveParent env p
  match ← attempt (stat env p) with
  | .ok _ => fail .alreadyExists
  | .error _ =>
      changeCall env fun now drive => drive.makeDir parent.id name now
      invalidate [parent.id]

def remove (env : Env) (p : List GoString) : Fs PUnit := do
  let obj ← stat env p
  let (parent, _) ← resolveParent env p
  changeCall env fun _ drive => drive.delete obj.id
  invalidate [parent.id, obj.id]

/-- The part of `Move` after the destination is out of the way. -/
def moveEntry (env : Env) (src srcParent dstParent : Entry) (dstName : GoString) : Fs PUnit :=
  if srcParent.id ≠ dstParent.id then do
    changeCall env fun _ drive => drive.move src.id dstParent.id
    invalidate [srcParent.id, dstParent.id]
    if src.name ≠ dstName then
      let moved ←
        match ← attempt (findByName env dstParent.id src.name) with
        | .ok fresh => pure fresh
        | .error _ => pure src
      changeCall env fun _ drive => drive.rename moved.id dstName
      invalidate [dstParent.id]
    else pure .unit
  else if src.name ≠ dstName then do
    changeCall env fun _ drive => drive.rename src.id dstName
    invalidate [srcParent.id]
  else pure .unit

def move (env : Env) (srcPath dstPath : List GoString) (overwrite : Bool) : Fs PUnit :=
  if srcPath = [] then fail (.other "cannot move root")
  else do
    let src ← stat env srcPath
    let (srcParent, _) ← resolveParent env srcPath
    let (dstParent, dstName) ← resolveParent env dstPath
    match ← attempt (stat env dstPath) with
    | .ok existing =>
        if !overwrite then fail .alreadyExists
        else if existing.id = src.id then fail (.other "destination equals source")
        else
          changeCall env fun _ drive => drive.delete existing.id
          invalidate [dstParent.id, existing.id]
          moveEntry env src srcParent dstParent dstName
    | .error _ => moveEntry env src srcParent dstParent dstName

/-! ## Uploads -/

/-- A request or response body: its bytes, and the error that ends it early. -/
structure Reader where
  data : GoString
  broken : Option String

def tempSuffix : GoString :=
  str ".openlist_to_delete"

/-- `HashReaderToTemp`, as far as the drive can tell. -/
def hashReaderToTemp (r : Reader) : Fs GoString :=
  match r.broken with
  | some message => fail (.other message)
  | none => pure r.data

/-- The upload call.  `PutStream` takes exactly `size` bytes from the reader or
fails. -/
def putStream (env : Env) (parentID : Nat) (name : GoString) (size : Int) (r : Reader)
    (modTime createTime : Int) : Fs Unit :=
  changeCall env fun _ drive =>
    if r.data.length < size.toNat then .error (.other (r.broken.getD "unexpected EOF"))
    else drive.put parentID name (r.data.take size.toNat) modTime createTime

def prepareOverwrite (env : Env) (dstPath : List GoString) (parent : Entry) (name : GoString) :
    Fs (Option Entry × GoString) := do
  let tempName := name ++ tempSuffix
  match ← attempt (stat env dstPath) with
  | .ok existing =>
      if existing.isDir then fail .isDir
      else
        if existing.size = 0 then
          match ← attempt (changeCall env fun _ drive => drive.delete existing.id) with
          | .ok _ => pure .unit
          | .error e => fail (.wrapped "remove existing zero-byte file" e)
        else changeCall env fun _ drive => drive.rename existing.id tempName
        invalidate [parent.id]
        pure (some existing, tempName)
  | .error _ => pure (none, tempName)

def restoreOverwrite (env : Env) (parent : Entry) (old : Option Entry) (tempName name : GoString) :
    Fs PUnit :=
  match old with
  | none => pure .unit
  | some old =>
      if old.size > 0 then do
        match ← attempt (findByName env parent.id tempName) with
        | .ok tmpObj =>
            let _ ← attempt (changeCall env fun _ drive => drive.rename tmpObj.id name)
            pure .unit
        | .error _ => pure .unit
      else pure .unit

def cleanupOverwrite (env : Env) (parent : Entry) (old : Option Entry) (tempName : GoString) :
    Fs PUnit :=
  match old with
  | none => pure .unit
  | some old =>
      if old.size > 0 then do
        match ← attempt (findByName env parent.id tempName) with
        | .ok tmpObj =>
            let _ ← attempt (changeCall env fun _ drive => drive.delete tmpObj.id)
            pure .unit
        | .error _ => pure .unit
      else pure .unit

/-- The two branches of `Put` from `prepareOverwrite` on; they differ in the
upload call and in the size they report. -/
def replaceFile (env : Env) (dstPath : List GoString) (parent : Entry) (name : GoString)
    (upload : Fs Unit) (size modTime createTime : Int) : Fs Entry := do
  let (old, tempName) ← prepareOverwrite env dstPath parent name
  match ← attempt upload with
  | .error e =>
      restoreOverwrite env parent old tempName name
      invalidate [parent.id]
      fail e
  | .ok _ =>
      cleanupOverwrite env parent old tempName
      invalidate [parent.id]
      match ← attempt (findByName env parent.id name) with
      | .ok fresh => pure fresh
      | .error _ => pure ⟨0, name, size, modTime, createTime, false⟩

def put (env : Env) (dstPath : List GoString) (r : Reader) (size modTime createTime : Int) :
    Fs Entry := do
  let (parent, name) ← resolveParent env dstPath
  if env.streaming then
    if size < 0 then fail .lengthRequired
    else
      replaceFile env dstPath parent name (putStream env parent.id name size r modTime createTime)
        size modTime createTime
  else
    let data ← hashReaderToTemp r
    replaceFile env dstPath parent name
      (changeCall env fun _ drive => drive.put parent.id name data modTime createTime)
      data.length modTime createTime

/-! ## Copies -/

/-- The link to a file's content, by the file's id. -/
structure Link where
  file : Nat

def link (env : Env) (p : List GoString) : Fs (Link × Entry) := do
  let e ← stat env p
  if e.isDir then fail .isDir
  else
    let link ← readCall env fun drive => (drive.download e.id).map fun _ => Link.mk e.id
    pure (link, e)

/-- The request for a link's content and the body of its response. -/
def fetch (env : Env) (link : Link) : Fs Reader :=
  fun w =>
    ((readCall env fun drive => (drive.download link.file).map fun data =>
      match env.bodyBreaks w.changes w.reads with
      | some (length, message) => Reader.mk (data.take length) (some message)
      | none => ⟨data, none⟩) : Fs Reader) w

/-- The loop over the children; `none` when a recursive call used up its
bound. -/
def copyChildren (recur : List GoString → List GoString → Fs (Option Unit))
    (srcPath dstPath : List GoString) : List Entry → Fs (Option Unit)
  | [] => pure (some ())
  | child :: children => do
      match ← recur (srcPath ++ [child.name]) (dstPath ++ [child.name]) with
      | none => pure none
      | some () => copyChildren recur srcPath dstPath children

/-- The part of `Copy` after the destination is out of the way. -/
def copyEntry (env : Env) (recur : List GoString → List GoString → Fs (Option Unit)) (src : Entry)
    (srcPath dstPath : List GoString) (dstParent : Entry) (dstName : GoString) (depth : Int) :
    Fs (Option Unit) :=
  if src.isDir then do
    match ← attempt (changeCall env fun now drive => drive.makeDir dstParent.id dstName now) with
    | .ok _ => pure .unit
    | .error e => if e ≠ .unsupported then fail e else pure .unit
    invalidate [dstParent.id]
    if depth = 0 then pure (some ())
    else
      let children ← listPath env srcPath
      copyChildren recur srcPath dstPath children
  else do
    let (link, _) ← link env srcPath
    let body ← fetch env link
    let _ ← put env dstPath body src.size src.modTime src.createTime
    pure (some ())

/-- `Copy`, with a bound on the depth of its recursion. -/
def copy (env : Env) :
    Nat → List GoString → List GoString → Bool → Int → Fs (Option Unit)
  | 0, _, _, _, _ => pure none
  | bound + 1, srcPath, dstPath, overwrite, depth => do
      let recur := fun srcPath dstPath => copy env bound srcPath dstPath true (depth - 1)
      let src ← stat env srcPath
      let (dstParent, dstName) ← resolveParent env dstPath
      match ← attempt (stat env dstPath) with
      | .ok existing =>
          if !overwrite then fail .alreadyExists
          else
            changeCall env fun _ drive => drive.delete existing.id
            invalidate [dstParent.id, existing.id]
            copyEntry env recur src srcPath dstPath dstParent dstName depth
      | .error _ => copyEntry env recur src srcPath dstPath dstParent dstName depth

end RoundSync.Kernel
