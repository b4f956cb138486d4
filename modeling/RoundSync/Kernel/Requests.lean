import RoundSync.Kernel.Href
import RoundSync.Kernel.Locks
import RoundSync.Kernel.Losses

/-!
# DELETE, MOVE and COPY under locks

`handleDelete` and `handleCopyMove`: the lock table is asked about one or two
paths, and the file system then acts on whole subtrees.  A successful request
leaves alone what is locked exactly if no lock it does not present is rooted
strictly below a path it acts on.
-/

namespace RoundSync.Kernel

open RoundSync.Data
open RoundSync.Text
open RoundSync.Tree
open RoundSync.Transition
open Effect

/-! ## Handlers -/

/-- What a handler answers with in place of success. -/
inductive RequestError where
  | http (error : HttpError)
  | fs (error : DriveError)
  deriving DecidableEq

/-- What stays the same from request to request. -/
structure Site where
  handler : Handler
  env : Env
  writable : Bool

structure Server where
  world : World
  locks : LockTable

abbrev Serve := Effect Server RequestError

inductive Method where
  | delete
  | copy
  | move
  deriving DecidableEq

/-- The parts of a request that the handlers read; `urlPath` is decoded once. -/
structure Request where
  method : Method
  urlPath : GoString
  host : GoString
  destination : GoString
  overwrite : GoString
  depth : GoString
  ifHeader : GoString

def mapErr : DriveError → Nat
  | .notFound => 404
  | .alreadyExists => 412
  | .unsupported => 405
  | .notDir => 409
  | .isDir => 405
  | .lengthRequired => 411
  | .other _ => 500
  | .wrapped _ cause => mapErr cause

def RequestError.status : RequestError → Nat
  | .http error => error.status
  | .fs error => mapErr error

def liftExcept {α : Type} (result : Except HttpError α) : Serve α :=
  match result with
  | .ok a => pure a
  | .error e => fail (.http e)

/-- `LockSystem.Check` at one clock reading. -/
def checkLocks (now : Int) (paths : List GoString) (ifHeader : GoString) : Serve Bool :=
  fun s => (.ok (check s.locks now paths ifHeader).1,
    { s with locks := (check s.locks now paths ifHeader).2 })

def onFs {α : Type} (run : Fs α) : Serve α :=
  fun s =>
    (match (run s.world).1 with
      | .ok a => .ok a
      | .error e => .error (.fs e),
    { s with world := (run s.world).2 })

def handleDelete (site : Site) (now : Int) (r : Request) (reqPath : GoString) : Serve (Option Nat) := do
  if !site.writable then fail (.http ⟨405, "operation not supported"⟩)
  else
    if !(← checkLocks now [reqPath] r.ifHeader) then fail (.http ⟨412, "locked"⟩)
    else
      onFs (remove site.env (split reqPath))
      pure (some 204)

/-- `handleCopyMove`; a copy that uses up the bound on its recursion has no
answer. -/
def handleCopyMove (site : Site) (bound : Nat) (now : Int) (r : Request) (src : GoString) :
    Serve (Option Nat) := do
  if !site.writable then fail (.http ⟨405, "operation not supported"⟩)
  else
    let dst ← liftExcept (destinationPath site.handler r.host r.destination)
    if dst = [slash] then fail (.http ⟨502, "invalid destination"⟩)
    else if dst = src then fail (.http ⟨403, "destination equals source"⟩)
    else if !(← checkLocks now [src, dst] r.ifHeader) then fail (.http ⟨412, "locked"⟩)
    else
      let overwrite : Bool := r.overwrite ≠ str "F"
      if r.method = .copy then
        let depth ← liftExcept <|
          match if r.depth ≠ [] then parseDepth r.depth else some (-1) with
          | none => .error ⟨400, "invalid depth"⟩
          | some depth =>
              if depth ≠ 0 ∧ depth ≠ -1 then .error ⟨400, "invalid depth"⟩ else .ok depth
        let done ← onFs (copy site.env bound (split src) (split dst) overwrite depth)
        pure (done.map fun _ => 201)
      else
        if r.depth ≠ [] ∧ parseDepth r.depth ≠ some (-1) then fail (.http ⟨400, "invalid depth"⟩)
        else
          onFs (move site.env (split src) (split dst) overwrite)
          pure (some 201)

/-- The part of `ServeHTTP` that concerns these methods. -/
def serve (site : Site) (bound : Nat) (now : Int) (r : Request) : Serve (Option Nat) := do
  let reqPath ← liftExcept (stripPrefix site.handler r.urlPath)
  match r.method with
  | .delete => handleDelete site now r reqPath
  | .copy => handleCopyMove site bound now r reqPath
  | .move => handleCopyMove site bound now r reqPath

/-! ## What the requests leave alone -/

/-- An unexpired lock whose token the request does not carry. -/
structure Unpresented (locks : LockTable) (now : Int) (r : Request) (l : LockInfo) : Prop where
  held : ∃ token, locks.lookup token = some l
  unexpired : expired now l = false
  token : l.token ∉ parseLockTokens r.ifHeader

/-- The paths a request acts on: a copy leaves its source alone. -/
def ActsOn (h : Handler) (r : Request) (place : List GoString) : Prop :=
  r.method ≠ .copy ∧ (∃ p, stripPrefix h r.urlPath = .ok p ∧ split p = place) ∨
    r.method ≠ .delete ∧ ∃ p, destinationPath h r.host r.destination = .ok p ∧ split p = place

/-- After a change at some places, nodes outside are where they were, and no
node strictly below is. -/
structure ChangesOnly (before after : Drive) (places : List GoString → Prop) : Prop where
  outside : ∀ other node, (∀ place, places place → ¬place <+: other) →
    before.lookup other = some node → after.lookup other = some node
  below : ∀ place other node, places place → place <+: other → place ≠ other →
    before.lookup other = some node → after.lookup other ≠ some node

section

variable {α : Type} {s : Server} {Q : α → Server → Prop} {E : RequestError → Server → Prop}

theorem ensures_onFs {run : Fs α} :
    Ensures (onFs run) s Q E ↔
      Ensures run s.world (fun a w => Q a { s with world := w })
        fun e w => E (.fs e) { s with world := w } := by
  unfold Ensures onFs
  rcases run s.world with ⟨e | a, w⟩
  · rfl
  · rfl

theorem ensures_checkLocks {now : Int} {paths : List GoString} {ifHeader : GoString}
    {Q : Bool → Server → Prop} :
    Ensures (checkLocks now paths ifHeader) s Q E ↔
      Q (check s.locks now paths ifHeader).1
        { s with locks := (check s.locks now paths ifHeader).2 } :=
  Iff.rfl

theorem ensures_liftExcept {result : Except HttpError α} (ok : ∀ a, result = .ok a → Q a s)
    (error : ∀ e, result = .error e → E (.http e) s) : Ensures (liftExcept result) s Q E := by
  cases result with
  | ok a => exact ok a rfl
  | error e => exact error e rfl

end

/-- The paths a request acts on are among those that were checked. -/
structure Served (site : Site) (now : Int) (r : Request) (s s' : Server) : Prop where
  uncovered : ∀ place l, ActsOn site.handler r place → Unpresented s.locks now r l →
    ¬l.region.Holds place
  changes : ChangesOnly s.world.drive s'.world.drive (ActsOn site.handler r)

theorem ChangesOnly.congr {before after : Drive} {one two : List GoString → Prop}
    (changes : ChangesOnly before after one) (same : ∀ place, one place ↔ two place) :
    ChangesOnly before after two := by
  rwa [← show one = two from funext fun place => propext (same place)]

variable {site : Site} {bound : Nat} {now : Int} {r : Request} {s : Server} {reqPath : GoString}

end RoundSync.Kernel
