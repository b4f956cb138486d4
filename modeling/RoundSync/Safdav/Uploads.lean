import RoundSync.Safdav.DocumentTrees
import RoundSync.Safdav.ProviderPaths

/-!
# The body of an upload

`onPut` copies the body of a request from the connection to a document, a buffer at
a time.  Each read may return as much as the buffer holds, whatever is left of the
announced length, and the end of the stream ends the copy without a complaint.
-/

namespace RoundSync.Safdav.Uploads

open RoundSync.Text

/-! ## The stream of a connection -/

/-- What one read with a buffer of 1024 bytes returns. -/
abbrev Chunk := { bytes : List UInt8 // bytes ≠ [] ∧ bytes.length ≤ 1024 }

inductive Ending where
  | endOfStream
  | ioException
  deriving DecidableEq

/-- What the reads return one after another, and what comes after them. -/
structure InputStream where
  reads : List Chunk
  ending : Ending

def bytesOf (reads : List Chunk) : List UInt8 :=
  reads.flatMap Subtype.val

def InputStream.content (stream : InputStream) : List UInt8 :=
  bytesOf stream.reads

/-! ## The copy -/

/-- What `openOutputStream` does: it returns nothing, throws, or returns a stream.  A write
can fail when a part of its bytes has got through, and so can the closing. -/
inductive Output where
  | missing
  | fileNotFound
  | ioException
  | opened (writes : Nat → Option Nat) (closes : Bool)

/-- How a copy ended, what it has written, and the stream behind what it has read. -/
structure Copied where
  result : Except Failure Unit
  written : List UInt8
  rest : InputStream

def Ending.result : Ending → Except Failure Unit
  | endOfStream => .ok ()
  | ioException => .error .fileAccessError

/-- The loop, from the write of this number on. -/
def copy (writes : Nat → Option Nat) (ending : Ending) : Nat → List Chunk → Int → Copied
  | _, [], _ => ⟨ending.result, [], ⟨[], ending⟩⟩
  | i, buffer :: reads, len =>
      let len := len - buffer.val.length
      match writes i with
      | some through => ⟨.error .fileAccessError, buffer.val.take through, ⟨reads, ending⟩⟩
      | none =>
          -- don't read past length
          if len < 1 then ⟨.ok (), buffer.val, ⟨reads, ending⟩⟩
          else
            let copied := copy writes ending (i + 1) reads len
            { copied with written := buffer.val ++ copied.written }

def writeFile (output : Output) (stream : InputStream) (len : Int) : Copied :=
  match output with
  | .missing => ⟨.error .fileAccessError, [], stream⟩
  | .fileNotFound => ⟨.error .itemNotFound, [], stream⟩
  | .ioException => ⟨.error .fileAccessError, [], stream⟩
  | .opened writes closes =>
      let copied := copy writes stream.ending 0 stream.reads len
      match copied.result with
      | .ok () => if closes then copied else { copied with result := .error .fileAccessError }
      | .error _ => copied

/-! ## PUT -/

structure Session where
  uri : JavaString
  contentLength : Option JavaString
  input : InputStream

/-- What the server calls: the library, its paths and the provider of the documents. -/
structure Server where
  parseLong : Option JavaString → Option Int
  getUriByMappedPath : JavaString → Except Failure ContentUri
  readMeta : ContentUri → Except Failure Unit
  output : ContentUri → Output
  createDocument : ContentUri → Except Failure Unit
  createdOutput : ContentUri → Output
  readCreated : ContentUri → Except Failure Unit

/-- The subclasses of `SafException`. -/
def isSafException : Failure → Bool
  | .itemNotFound | .itemExists | .fileAccessError | .safException => true
  | _ => false

def createFile (server : Server) (uri : ContentUri) (content : InputStream) (len : Int) : Copied :=
  match server.createDocument uri with
  | .error failure => ⟨.error failure, [], content⟩
  | .ok () =>
      let copied := writeFile (server.createdOutput uri) content len
      match copied.result with
      | .ok () => { copied with result := server.readCreated uri }
      | .error _ => copied

/-- The inner `try`: what is not found is created. -/
def putFile (server : Server) (uri : ContentUri) (input : InputStream) (length : Int) : Copied :=
  match server.readMeta uri with
  | .error .itemNotFound => createFile server uri input length
  | .error failure => ⟨.error failure, [], input⟩
  | .ok () =>
      let copied := writeFile (server.output uri) input length
      match copied.result with
      | .error .itemNotFound => createFile server uri copied.rest length
      | _ => copied

def onPut (server : Server) (session : Session) : Except Failure Response :=
  match server.parseLong session.contentLength with
  | none => .ok .badRequest
  | some length =>
      match server.getUriByMappedPath session.uri with
      | .error .itemNotFound => .ok .forbidden
      | .error failure => .error failure
      | .ok uri =>
          match (putFile server uri session.input length).result with
          | .ok () => .ok .created
          | .error failure => if isSafException failure then .ok .internalError else .error failure

/-! ## What a copy reads and writes -/

section

variable {writes : Nat → Option Nat} {ending : Ending}

theorem bytesOf_cons (buffer : Chunk) (reads : List Chunk) :
    bytesOf (buffer :: reads) = buffer.val ++ bytesOf reads :=
  List.flatMap_cons

/-- A copy that comes to its end has written what it has read. -/
theorem copy_partition (i : Nat) (reads : List Chunk) (len : Int)
    (completes : (copy writes ending i reads len).result = .ok ()) :
    (copy writes ending i reads len).written ++ (copy writes ending i reads len).rest.content =
      bytesOf reads := by
  induction reads generalizing i len with
  | nil => rfl
  | cons buffer reads inductionHypothesis =>
      rw [bytesOf_cons]
      unfold copy at completes ⊢
      cases write : writes i with
      | some through =>
          rw [write] at completes
          cases completes
      | none =>
          rw [write] at completes
          dsimp only at completes ⊢
          split
          · rfl
          · rename_i more
            rw [if_neg more] at completes
            rw [List.append_assoc, inductionHypothesis _ _ completes]

/-- What is left for a later copy is a rest of the same stream. -/
theorem copy_rest (i : Nat) (reads : List Chunk) (len : Int) :
    (copy writes ending i reads len).rest.content.length ≤ (bytesOf reads).length ∧
      (copy writes ending i reads len).rest.ending = ending := by
  induction reads generalizing i len with
  | nil => exact ⟨Nat.le_refl _, rfl⟩
  | cons buffer reads inductionHypothesis =>
      rw [bytesOf_cons, List.length_append]
      unfold copy
      cases writes i with
      | some through => exact ⟨Nat.le_add_left _ _, rfl⟩
      | none =>
          dsimp only
          split
          · exact ⟨Nat.le_add_left _ _, rfl⟩
          · obtain ⟨le, same⟩ := inductionHypothesis (i + 1) (len - buffer.val.length)
            exact ⟨le.trans (Nat.le_add_left _ _), same⟩

/-- A stream that breaks off before the announced length stops every copy. -/
theorem copy_breaks_off (i : Nat) (reads : List Chunk) (len : Int)
    (short : ((bytesOf reads).length : Int) < len) :
    (copy writes .ioException i reads len).result = .error .fileAccessError := by
  induction reads generalizing i len with
  | nil => rfl
  | cons buffer reads inductionHypothesis =>
      rw [bytesOf_cons, List.length_append, Int.natCast_add] at short
      unfold copy
      cases writes i with
      | some through => rfl
      | none =>
          dsimp only
          rw [if_neg (by omega)]
          exact inductionHypothesis _ _ (by omega)

end

/-! ## Where the reads stop -/

/-- Some number of reads returns just this many bytes. -/
def Hits (reads : List Chunk) (len : Int) : Prop :=
  ∃ k, ((bytesOf (reads.take k)).length : Int) = len

/-- The writes that all work. -/
def smooth : Nat → Option Nat := fun _ => none

section

variable {ending : Ending}

theorem hits_cons_iff {buffer : Chunk} {reads : List Chunk} {len : Int} (positive : 0 < len) :
    Hits (buffer :: reads) len ↔ Hits reads (len - buffer.val.length) := by
  constructor
  · rintro ⟨k, same⟩
    cases k with
    | zero =>
        simp [bytesOf] at same
        omega
    | succ k =>
        rw [List.take_succ_cons, bytesOf_cons, List.length_append, Int.natCast_add] at same
        exact ⟨k, by omega⟩
  · rintro ⟨k, same⟩
    refine ⟨k + 1, ?_⟩
    rw [List.take_succ_cons, bytesOf_cons, List.length_append, Int.natCast_add, same]
    omega

theorem hits_zero (reads : List Chunk) : Hits reads 0 :=
  ⟨0, rfl⟩

theorem not_hits_of_neg {reads : List Chunk} {len : Int} (negative : len < 0) :
    ¬Hits reads len := by
  rintro ⟨k, same⟩
  omega

theorem copy_smooth_cons (i : Nat) (buffer : Chunk) (reads : List Chunk) (len : Int) :
    copy smooth ending i (buffer :: reads) len =
      if len - buffer.val.length < 1 then ⟨.ok (), buffer.val, ⟨reads, ending⟩⟩
      else
        let copied := copy smooth ending (i + 1) reads (len - buffer.val.length)
        { copied with written := buffer.val ++ copied.written } :=
  rfl

/-- A stream that ends early is copied as far as it goes. -/
theorem copy_of_short (i : Nat) (reads : List Chunk) (len : Int)
    (short : ((bytesOf reads).length : Int) < len) :
    copy smooth ending i reads len = ⟨ending.result, bytesOf reads, ⟨[], ending⟩⟩ := by
  induction reads generalizing i len with
  | nil => rfl
  | cons buffer reads inductionHypothesis =>
      rw [bytesOf_cons, List.length_append, Int.natCast_add] at short
      rw [copy_smooth_cons, if_neg (by omega), inductionHypothesis _ _ (by omega), bytesOf_cons]

/-- A copy of enough bytes completes, and writes at least the announced length; it stops
there exactly when the reads do. -/
theorem copy_of_enough (i : Nat) (reads : List Chunk) (len : Int) (positive : 0 < len)
    (enough : len ≤ (bytesOf reads).length) :
    (copy smooth ending i reads len).result = .ok () ∧
      (((copy smooth ending i reads len).written.length : Int) = len ↔ Hits reads len) := by
  induction reads generalizing i len with
  | nil =>
      simp [bytesOf] at enough
      omega
  | cons buffer reads inductionHypothesis =>
      rw [bytesOf_cons, List.length_append, Int.natCast_add] at enough
      rw [hits_cons_iff positive, copy_smooth_cons]
      split
      · refine ⟨rfl, ?_⟩
        dsimp only
        constructor
        · intro same
          rw [same, Int.sub_self]
          exact hits_zero reads
        · intro hits
          by_contra different
          exact not_hits_of_neg (by omega) hits
      · obtain ⟨completes, stops⟩ := inductionHypothesis (i + 1) (len - buffer.val.length)
          (by omega) (by omega)
        refine ⟨completes, ?_⟩
        dsimp only
        rw [← stops, List.length_append, Int.natCast_add]
        constructor
        · intro same
          omega
        · intro same
          omega

theorem Hits.le {reads : List Chunk} {len : Int} (hits : Hits reads len) :
    len ≤ (bytesOf reads).length := by
  obtain ⟨k, same⟩ := hits
  have split : bytesOf reads = bytesOf (reads.take k) ++ bytesOf (reads.drop k) := by
    rw [bytesOf, bytesOf, bytesOf, ← List.flatMap_append, List.take_append_drop]
  rw [split, List.length_append, Int.natCast_add, ← same]
  omega

end

/-! ## Streams that break off -/

section

variable {server : Server} {stream : InputStream} {len : Int}

theorem writeFile_breaks_off (output : Output) (breaks : stream.ending = .ioException)
    (short : (stream.content.length : Int) < len) : (writeFile output stream len).result ≠ .ok () := by
  cases output with
  | missing => nofun
  | fileNotFound => nofun
  | ioException => nofun
  | opened writes closes =>
      have stopped := @copy_breaks_off writes 0 stream.reads len short
      rw [← breaks] at stopped
      rw [writeFile]
      simp only [stopped]
      nofun

theorem writeFile_rest (output : Output) :
    (writeFile output stream len).rest.content.length ≤ stream.content.length ∧
      (writeFile output stream len).rest.ending = stream.ending := by
  cases output with
  | missing => exact ⟨Nat.le_refl _, rfl⟩
  | fileNotFound => exact ⟨Nat.le_refl _, rfl⟩
  | ioException => exact ⟨Nat.le_refl _, rfl⟩
  | opened writes closes =>
      have rest := @copy_rest writes stream.ending 0 stream.reads len
      rw [writeFile]
      split
      · split
        · exact rest
        · exact rest
      · exact rest

theorem createFile_breaks_off (uri : ContentUri) (breaks : stream.ending = .ioException)
    (short : (stream.content.length : Int) < len) :
    (createFile server uri stream len).result ≠ .ok () := by
  unfold createFile
  cases server.createDocument uri with
  | error failure => nofun
  | ok _ =>
      have stopped := writeFile_breaks_off (server.createdOutput uri) breaks short
      dsimp only
      split
      · rename_i completes
        exact absurd completes stopped
      · exact stopped

theorem putFile_breaks_off (uri : ContentUri) (breaks : stream.ending = .ioException)
    (short : (stream.content.length : Int) < len) :
    (putFile server uri stream len).result ≠ .ok () := by
  unfold putFile
  split
  · exact createFile_breaks_off uri breaks short
  · nofun
  · obtain ⟨le, same⟩ := @writeFile_rest stream len (server.output uri)
    dsimp only
    split
    · exact createFile_breaks_off uri (same.trans breaks) (by omega)
    · exact writeFile_breaks_off _ breaks short

/-- A stream that breaks off is never answered with success. -/
theorem onPut_breaks_off {session : Session}
    (announced : server.parseLong session.contentLength = some len)
    (breaks : session.input.ending = .ioException)
    (short : (session.input.content.length : Int) < len) : onPut server session ≠ .ok .created := by
  unfold onPut
  rw [announced]
  dsimp only
  split
  · nofun
  · nofun
  · rename_i uri _
    split
    · rename_i completes
      exact absurd completes (putFile_breaks_off uri breaks short)
    · split
      · nofun
      · nofun

end

/-! ## The announced body -/

/-- A document that can be opened, written and closed. -/
def Output.working : Output :=
  .opened smooth true

/-- The announced bytes are read and no others; the copy completes if these were
delivered and written, and a stream that ends before is not answered with success. -/
structure WritesAnnounced (stream : InputStream) (len : Nat) : Prop where
  consumes : (writeFile .working stream len).rest.content = stream.content.drop len
  completes : (writeFile .working stream len).result = .ok () ↔
    len ≤ stream.content.length ∧ (writeFile .working stream len).written = stream.content.take len
  reports : stream.content.length < len → ∀ (server : Server) (session : Session),
    session.input = stream → server.parseLong session.contentLength = some (len : Int) →
      onPut server session ≠ .ok .created

/-- The reads stop at the announced length, or the stream breaks off before it. -/
def StopsAt (stream : InputStream) (len : Nat) : Prop :=
  (0 < len ∧ Hits stream.reads len) ∨
    (len = 0 ∧ stream.reads = [] ∧ stream.ending = .endOfStream) ∨
    (stream.content.length < len ∧ stream.ending = .ioException)

theorem writeFile_working (stream : InputStream) (len : Int) :
    writeFile .working stream len = copy smooth stream.ending 0 stream.reads len := by
  simp only [writeFile, Output.working]
  split
  · rfl
  · rfl

theorem stopsAt_of_writesAnnounced {stream : InputStream} {len : Nat}
    (announced : WritesAnnounced stream len) : StopsAt stream len := by
  obtain ⟨consumes, completes, _⟩ := announced
  rw [writeFile_working] at consumes completes
  rcases Nat.lt_or_ge stream.content.length len with short | enough
  · right; right
    refine ⟨short, ?_⟩
    rw [copy_of_short 0 stream.reads len (Int.ofNat_lt.mpr short)] at completes
    cases isEnding : stream.ending with
    | endOfStream =>
        rw [isEnding] at completes
        have both := completes.mp rfl
        omega
    | ioException => rfl
  · rcases Nat.eq_zero_or_pos len with rfl | positive
    · right; left
      obtain ⟨reads, ending⟩ := stream
      cases reads with
      | nil =>
          refine ⟨rfl, rfl, ?_⟩
          have isOk := completes.mpr ⟨Nat.le_refl _, rfl⟩
          cases ending with
          | endOfStream => rfl
          | ioException => cases isOk
      | cons buffer reads =>
          have large : 0 < buffer.val.length := List.length_pos_of_ne_nil buffer.property.1
          rw [copy_smooth_cons, if_pos (by omega), List.drop_zero] at consumes
          have lengths := congrArg List.length consumes
          simp only [InputStream.content, bytesOf_cons, List.length_append] at lengths
          omega
    · left
      refine ⟨positive, ?_⟩
      obtain ⟨isOk, stops⟩ := @copy_of_enough stream.ending 0 stream.reads len
        (Int.natCast_pos.mpr positive) (Int.ofNat_le.mpr enough)
      have parts := congrArg List.length (copy_partition 0 stream.reads (len : Int) isOk)
      rw [List.length_append, consumes, List.length_drop] at parts
      apply stops.mp
      change _ + (stream.content.length - len) = stream.content.length at parts
      omega

theorem writesAnnounced_of_stopsAt {stream : InputStream} {len : Nat}
    (stops : StopsAt stream len) : WritesAnnounced stream len := by
  rcases stops with ⟨positive, hits⟩ | ⟨rfl, none, ending⟩ | ⟨short, ending⟩
  · have enough : len ≤ stream.content.length := Int.ofNat_le.mp hits.le
    obtain ⟨isOk, stops⟩ := @copy_of_enough stream.ending 0 stream.reads len
      (Int.natCast_pos.mpr positive) hits.le
    have parts := copy_partition 0 stream.reads (len : Int) isOk
    have length := Int.ofNat_inj.mp (stops.mpr hits)
    constructor
    · rw [writeFile_working, InputStream.content.eq_def stream, ← parts,
        List.drop_append_of_le_length (by omega), List.drop_of_length_le (by omega),
        List.nil_append]
    · rw [writeFile_working]
      apply iff_of_true isOk
      refine ⟨enough, ?_⟩
      rw [InputStream.content.eq_def stream, ← parts, List.take_append_of_le_length (by omega),
        List.take_of_length_le (by omega)]
    · intro short
      omega
  · obtain ⟨reads, _⟩ := stream
    cases none
    cases ending
    exact ⟨rfl, iff_of_true rfl ⟨Nat.le_refl _, rfl⟩, fun short => absurd short (Nat.lt_irrefl _)⟩
  · have copied := @copy_of_short stream.ending 0 stream.reads len (Int.ofNat_lt.mpr short)
    constructor
    · rw [writeFile_working, copied, List.drop_of_length_le (Nat.le_of_lt short)]
      rfl
    · rw [writeFile_working, copied, ending]
      exact iff_of_false nofun fun both => by omega
    · rintro _ server session rfl isLength
      exact onPut_breaks_off isLength ending (Int.ofNat_lt.mpr short)

/-- The body of an upload is written as it was announced exactly when the reads stop at
its length, or the stream breaks off before it. -/
theorem writesAnnounced_iff (stream : InputStream) (len : Nat) :
    WritesAnnounced stream len ↔ StopsAt stream len :=
  ⟨stopsAt_of_writesAnnounced, writesAnnounced_of_stopsAt⟩

/-! ## A request behind the upload -/

/-- Two bytes that come at once. -/
def twoBytes : InputStream :=
  ⟨[⟨[1, 2], by decide⟩], .endOfStream⟩

/-- Of a body of one byte the copy also reads and writes the byte behind it. -/
theorem byteBehind_written :
    (writeFile .working twoBytes 1).written = [1, 2] ∧ ¬WritesAnnounced twoBytes 1 := by
  refine ⟨rfl, fun announced => ?_⟩
  have consumes := announced.consumes
  cases consumes

end RoundSync.Safdav.Uploads
