import RoundSync.Kernel.Drive
import RoundSync.Transition.Effect
import Mathlib.Algebra.Group.Nat.Defs
import Mathlib.Algebra.Group.Int.Defs

/-!
# Uploads in parts

`Put` uploads a file of the device in parts, `PutStream` the body of a request that
can be read once.  The network is a list of answers, one for each call, and the HTTP
client reads the body of a request in any portions; what the server makes of a part
depends on the bytes it got.  Progress, headers and signatures are left out.
-/

namespace RoundSync.Quarkcookie

open RoundSync.Kernel
open RoundSync.Transition
open RoundSync.Transition.Effect

abbrev Bytes := List UInt8

abbrev Etag := String

/-- The kernel is built for machines of 32 and of 64 bits. -/
inductive WordSize where
  | bits32
  | bits64

def WordSize.bits : WordSize → Nat
  | bits32 => 32
  | bits64 => 64

/-- The `int` of the machine, and the slices of strings that it can make. -/
structure Platform where
  word : WordSize
  allocates : Int → Bool

/-- The conversion to `int`. -/
def Platform.int (platform : Platform) (x : Int) : Int :=
  x.bmod (2 ^ platform.word.bits)

/-- What `int64` makes of a result. -/
def int64 (x : Int) : Int :=
  x.bmod (2 ^ 64)

/-- What the next read returns at most, and whether it ends the reading. -/
structure Portion where
  most : Nat
  error : Option DriveError

/-- A reader: what it has left, and the portions in which it comes.  Later reads
return as much as they can. -/
structure Stream where
  rest : Bytes
  portions : List Portion

def Stream.read (stream : Stream) (cap : Nat) : (Bytes × Option DriveError) × Stream :=
  match stream.portions with
  | [] =>
      ((stream.rest.take cap, if stream.rest = [] then some (.other "EOF") else none),
        ⟨stream.rest.drop cap, []⟩)
  | portion :: portions =>
      ((stream.rest.take (min cap portion.most), portion.error),
        ⟨stream.rest.drop (min cap portion.most), portions⟩)

/-- What they read of the reply to the first request. -/
structure UpPreResp where
  partSize : Int
  finish : Bool

/-- The rest of the world: its answers by the number of calls made before. -/
structure Env where
  cancelled : Nat → Bool
  pre : Nat → Except DriveError UpPreResp
  auth : Nat → Except DriveError PUnit
  /-- the buffers with which the client reads a body -/
  buffers : Nat → List Nat
  /-- the status and ETag for the bytes of a part and its announced length -/
  put : Nat → Bytes → Int → Except DriveError (Nat × Etag)
  hash : Nat → Except DriveError Bool
  commit : Nat → Except DriveError Nat
  finish : Nat → Except DriveError PUnit
  files : String → Option Bytes

/-- The calls so far, the readers, and what the server has got. -/
structure World where
  calls : Nat
  /-- the body of the request, and what `LimitedReader` allows of it -/
  source : Stream
  limit : Int
  /-- what the digests have been written -/
  hashed : Bytes
  /-- the position of the section reader -/
  position : Nat
  /-- the accepted parts with their numbers -/
  parts : List (Int × Bytes)
  hashes : List (String × String)
  commits : List (List (Int × Etag))
  finishes : Nat

abbrev Act := Effect World DriveError

/-- One more call, and its answer. -/
def ask {α : Type} (answer : Nat → α) : Act α := fun w =>
  (.ok (answer w.calls), { w with calls := w.calls + 1 })

def call {α : Type} (answer : Nat → Except DriveError α) : Act α := fun w =>
  (answer w.calls, { w with calls := w.calls + 1 })

/-- A `Read` with a buffer of some size. -/
abbrev Body := Nat → World → (Bytes × Option DriveError) × World

/-- `streamHashProgressReader` on a `LimitedReader` on the body of the request. -/
def streamHashProgressReader : Body := fun cap w =>
  if w.limit ≤ 0 then (([], some (.other "EOF")), w)
  else
    let (answer, source) := w.source.read (min cap w.limit.toNat)
    (answer,
      { w with
        source := source
        limit := w.limit - answer.1.length
        hashed := w.hashed ++ answer.1 })

/-- The file from an offset on, for so many bytes. -/
def sectionReader (file : Bytes) (offset size : Int) : Body := fun cap w =>
  let left := ((file.drop offset.toNat).take size.toNat).drop w.position
  if left = [] then (([], some (.other "EOF")), w)
  else ((left.take cap, none), { w with position := w.position + (left.take cap).length })

/-- What the client reads of a body: up to its buffers, or to an error. -/
def transfer (body : Body) : List Nat → World → Bytes × World
  | [], w => ([], w)
  | cap :: caps, w =>
      match body cap w with
      | ((chunk, none), w) =>
          let (more, w) := transfer body caps w
          (chunk ++ more, w)
      | ((chunk, some _), w) => (chunk, w)

/-! ## Requests -/

def http.StatusOK : Nat :=
  200

def http.StatusNonAuthoritativeInfo : Nat :=
  203

def upHash (env : Env) (md5Hex sha1Hex : String) : Act Bool :=
  if md5Hex = "" then fail (.other "md5 is empty")
  else if sha1Hex = "" then fail (.other "sha1 is empty")
  else do
    update fun w => { w with hashes := w.hashes ++ [(md5Hex, sha1Hex)] }
    call env.hash

def upCommit (env : Env) (etags : List Etag) : Act PUnit := do
  call env.auth
  update fun w =>
    { w with commits := w.commits ++ [etags.zipIdx.map fun (etag, i) => ((i : Int) + 1, etag)] }
  let status ← call env.commit
  if status ≠ http.StatusOK ∧ status ≠ http.StatusNonAuthoritativeInfo then
    fail (.other ("up status: " ++ toString status))
  else pure .unit

def upFinish (env : Env) : Act PUnit := do
  update fun w => { w with finishes := w.finishes + 1 }
  call env.finish

/-- The error that a failing step is reported with. -/
def wrap {α : Type} (message : String) (step : Act α) : Act α := do
  match ← attempt step with
  | .ok value => pure value
  | .error e => fail (.wrapped message e)

/-- What follows the parts. -/
def complete (env : Env) (pre : UpPreResp) (md5Hex sha1Hex : String) (etags : List Etag) :
    Act PUnit := do
  let finish ← wrap "submit upload hash" (upHash env md5Hex sha1Hex)
  if finish || pre.finish then pure .unit
  else
    wrap "commit multipart upload" (upCommit env etags)
    wrap "finish upload task" (upFinish env)

/-! ## The part loops -/

/-- The length of a part: what is left, but no more than the part size. -/
def partLength (total partSize partIndex : Int) : Int :=
  let offset := int64 (partIndex * partSize)
  let size := if total - offset < partSize then total - offset else partSize
  if size < 0 then 0 else size

end RoundSync.Quarkcookie
