import RoundSync.Transition.Core
import Mathlib.Data.List.Perm.Basic
import Mathlib.Algebra.Group.Nat.Defs
import Mathlib.Algebra.Group.Int.Defs

/-!
# A remote file as a seekable media source

`RcloneRangeMediaDataSource` serves reads of any position and size from byte
ranges that it fetches with `rclone cat` and of which it keeps the last three.
Positions are Java `long`s and sizes `int`s: the arithmetic on them wraps.
-/

namespace RoundSync.Thumbnails

open RoundSync.Transition

/-- The value of a `long` expression. -/
def long (x : Int) : Int :=
  x.bmod (2 ^ 64)

/-- The value of an `int` expression. -/
def int (x : Int) : Int :=
  x.bmod (2 ^ 32)

def longMax : Int :=
  2 ^ 63 - 1

/-- `REMOTE_MEDIA_READ_AHEAD_BYTES`. -/
def readAheadBytes : Int :=
  4 * 1024 * 1024

/-- `REMOTE_MEDIA_MAX_FETCH_BYTES`. -/
def maxFetchBytes : Int :=
  8 * 1024 * 1024

/-- `REMOTE_MEDIA_CACHED_RANGE_COUNT`. -/
def cachedRangeCount : Nat :=
  3

/-! ## The source -/

structure CachedRange where
  start : Int
  data : List UInt8
  deriving DecidableEq

/-- `CachedRange.end()`. -/
def CachedRange.finish (range : CachedRange) : Int :=
  long (range.start + range.data.length)

/-- The fields that never change, and what `rclone cat` replies: for the number
of the fetch, a position and a count, the pieces that the stream yields or the
message of an `IOException`. -/
structure RangeSource where
  sourceSize : Int
  downloadRangeToPipe : Nat → Int → Int → Except String (List (List UInt8))

/-- The constructor; a size that is not positive is unknown. -/
def RangeSource.new (listedSize : Int)
    (download : Nat → Int → Int → Except String (List (List UInt8))) : RangeSource :=
  { sourceSize := if listedSize > 0 then listedSize else -1, downloadRangeToPipe := download }

structure MediaDataSource where
  cachedRanges : List CachedRange
  fetches : Nat
  remoteReadFailure : Option String
  closed : Bool

def MediaDataSource.new : MediaDataSource :=
  ⟨[], 0, none, false⟩

inductive ReadError where
  | ioException (message : String)
  | indexOutOfBounds
  deriving DecidableEq

def recordRemoteReadFailure (s : MediaDataSource) (failure : String) : MediaDataSource :=
  { s with remoteReadFailure := s.remoteReadFailure.or (some failure) }

/-- The range that holds the position, moved to the end of the list. -/
def findCachedRange (ranges : List CachedRange) (position : Int) :
    Option (CachedRange × List CachedRange) :=
  match ranges.findIdx? fun range => range.start ≤ position && position < range.finish with
  | none => none
  | some index =>
      match ranges[index]? with
      | none => none
      | some range =>
          some (range,
            if index ≠ ranges.length - 1 then ranges.eraseIdx index ++ [range] else ranges)

/-- `input.read` until the array is full or the stream ends; a read that yields
nothing is repeated. -/
def fill : List (List UInt8) → Nat → List UInt8
  | [], _ => []
  | piece :: pieces, room =>
      if room = 0 then [] else piece.take room ++ fill pieces (room - piece.length)

/-- The number of bytes that `fetchRange` asks for. -/
def fetchBytes (remaining minimumBytes : Int) : Int :=
  int (min (max readAheadBytes (min minimumBytes maxFetchBytes)) remaining)

/-- The message of a stream that ends too early. -/
def endedEarly (position expected received sourceSize : Int) : String :=
  "Remote byte range ended early: offset=" ++ toString position ++ ", expected=" ++
    toString expected ++ ", received=" ++ toString received ++ ", sourceSize=" ++
    toString sourceSize

/-- Keep a fetched range, and the latest ones before it. -/
def keepRange (ranges : List CachedRange) (range : CachedRange) : List CachedRange :=
  (ranges ++ [range]).drop (ranges.length + 1 - cachedRangeCount)

def fetchRange (source : RangeSource) (s : MediaDataSource) (position minimumBytes : Int) :
    Except String (Option CachedRange) × MediaDataSource :=
  let remaining :=
    if source.sourceSize ≥ 0 then long (source.sourceSize - position) else longMax
  let count := fetchBytes remaining minimumBytes
  if remaining ≤ 0 || count ≤ 0 then (.ok none, s)
  else
    let opened := { s with fetches := s.fetches + 1 }
    match source.downloadRangeToPipe s.fetches position count with
    | .error failure => (.error failure, recordRemoteReadFailure opened failure)
    | .ok pieces =>
        let data := fill pieces count.toNat
        if source.sourceSize ≥ 0 && (data.length : Int) < count then
          let failure := endedEarly position count data.length source.sourceSize
          (.error failure, recordRemoteReadFailure opened failure)
        else if data.length = 0 then (.ok none, opened)
        else
          (.ok (some ⟨position, data⟩),
            { opened with cachedRanges := keepRange s.cachedRanges ⟨position, data⟩ })

/-- The range that serves a position: a cached one, or one that is fetched. -/
def rangeAt (source : RangeSource) (s : MediaDataSource) (position minimumBytes : Int) :
    Except String (Option CachedRange) × MediaDataSource :=
  match findCachedRange s.cachedRanges position with
  | some (range, ranges) => (.ok (some range), { s with cachedRanges := ranges })
  | none => fetchRange source s position minimumBytes

/-- `System.arraycopy` into a buffer that has room. -/
def arraycopy (data : List UInt8) (dataOffset : Int) (buffer : List UInt8) (offset length : Int) :
    List UInt8 :=
  buffer.take offset.toNat ++ (data.drop dataOffset.toNat).take length.toNat ++
    buffer.drop (offset + length).toNat

/-- The state of the loop in `readAt`. -/
structure Progress where
  source : MediaDataSource
  buffer : List UInt8
  totalRead : Int

/-- The loop; a result of `none` means that the fuel ran out. -/
def readLoop (source : RangeSource) (position offset size : Int) :
    Nat → Progress → Option (Except ReadError Int × Progress)
  | 0, _ => none
  | fuel + 1, p =>
      let currentPosition := long (position + p.totalRead)
      let finished := (Except.ok (if p.totalRead = 0 then -1 else p.totalRead), p)
      if p.totalRead ≥ size then some finished
      else if source.sourceSize ≥ 0 && currentPosition ≥ source.sourceSize then some finished
      else
        match rangeAt source p.source currentPosition (int (size - p.totalRead)) with
        | (.error failure, s) => some (.error (.ioException failure), { p with source := s })
        | (.ok none, s) =>
            some (.ok (if p.totalRead = 0 then -1 else p.totalRead), { p with source := s })
        | (.ok (some range), s) =>
            let rangeOffset := int (currentPosition - range.start)
            let copyLength := min (int (size - p.totalRead)) (int (range.data.length - rangeOffset))
            if copyLength ≤ 0 then
              let kept := { s with cachedRanges := s.cachedRanges.erase range }
              readLoop source position offset size fuel { p with source := kept }
            else
              readLoop source position offset size fuel
                { source := s
                  buffer :=
                    arraycopy range.data rangeOffset p.buffer (int (offset + p.totalRead)) copyLength
                  totalRead := int (p.totalRead + copyLength) }

/-- `readAt`, with the buffer and the source after it. -/
def readAt (source : RangeSource) (s : MediaDataSource) (position : Int) (buffer : List UInt8)
    (offset size : Int) : Option (Except ReadError Int × Progress) :=
  let p : Progress := ⟨s, buffer, 0⟩
  if s.closed then some (.error (.ioException "MediaDataSource is closed"), p)
  else if position < 0 then
    some (.error (.ioException "Media read position must be >= 0"), p)
  else if offset < 0 || size < 0 || offset > int (buffer.length - size) then
    some (.error .indexOutOfBounds, p)
  else if size = 0 then some (.ok 0, p)
  else if source.sourceSize ≥ 0 && position ≥ source.sourceSize then some (.ok (-1), p)
  else readLoop source position offset size (size.toNat + 1) p

def close (s : MediaDataSource) : MediaDataSource :=
  { s with closed := true, cachedRanges := [] }

/-! ## Arithmetic -/

theorem long_eq {x : Int} (low : 0 ≤ x) (high : x < 2 ^ 63) : long x = x := by
  rw [long, Int.bmod_eq_of_le]
  · omega
  · omega

theorem int_eq {x : Int} (low : -2 ^ 31 ≤ x) (high : x < 2 ^ 31) : int x = x := by
  rw [int, Int.bmod_eq_of_le]
  · omega
  · omega

theorem fetchBytes_eq {remaining minimumBytes : Int} (rest : 0 < remaining)
    (asked : 0 < minimumBytes) :
    0 < fetchBytes remaining minimumBytes ∧ fetchBytes remaining minimumBytes ≤ remaining ∧
      fetchBytes remaining minimumBytes ≤ maxFetchBytes := by
  have value : fetchBytes remaining minimumBytes =
      min (max readAheadBytes (min minimumBytes maxFetchBytes)) remaining := by
    apply int_eq
    · unfold readAheadBytes maxFetchBytes
      omega
    · unfold readAheadBytes maxFetchBytes
      omega
  rw [value]
  unfold readAheadBytes maxFetchBytes
  omega

/-! ## Slices -/

/-- The bytes of the content from a position on, at most `n` of them. -/
def slice (content : List UInt8) (position n : Nat) : List UInt8 :=
  (content.drop position).take n

theorem length_slice (content : List UInt8) (position n : Nat) :
    (slice content position n).length = min n (content.length - position) := by
  simp [slice]

theorem slice_length (content : List UInt8) (position n : Nat) :
    slice content position (slice content position n).length = slice content position n := by
  rw [length_slice, slice, slice, ← List.length_drop, ← List.take_eq_take_min]

theorem slice_add (content : List UInt8) (position m n : Nat) :
    slice content position (m + n) = slice content position m ++ slice content (position + m) n := by
  simp [slice, List.take_add]

theorem slice_slice {content : List UInt8} {position m offset n : Nat} (inside : offset + n ≤ m) :
    ((slice content position m).drop offset).take n = slice content (position + offset) n := by
  rw [slice, slice, List.drop_take, List.drop_drop, List.take_take]
  congr 1
  omega

theorem fill_eq (pieces : List (List UInt8)) (room : Nat) :
    fill pieces room = pieces.flatten.take room := by
  induction pieces generalizing room with
  | nil => simp [fill]
  | cons piece pieces ih =>
      rw [fill, List.flatten_cons, List.take_append]
      split
      · rename_i full
        simp [full]
      · rw [ih]

/-- The buffer with the bytes written at the offset. -/
def written (buffer : List UInt8) (offset : Nat) (bytes : List UInt8) : List UInt8 :=
  buffer.take offset ++ bytes ++ buffer.drop (offset + bytes.length)

theorem written_nil (buffer : List UInt8) (offset : Nat) : written buffer offset [] = buffer := by
  simp [written]

/-- Bytes written behind others are written with them. -/
theorem written_append {buffer first second : List UInt8} {offset : Nat}
    (room : offset + first.length + second.length ≤ buffer.length) :
    written (written buffer offset first) (offset + first.length) second =
      written buffer offset (first ++ second) := by
  have front : (buffer.take offset ++ first).length = offset + first.length := by
    simp only [List.length_append, List.length_take]
    omega
  have taken : (written buffer offset first).take (offset + first.length) =
      buffer.take offset ++ first := by
    rw [written, List.take_append_of_le_length (by omega), List.take_of_length_le (by omega)]
  have dropped : (written buffer offset first).drop (offset + first.length + second.length) =
      buffer.drop (offset + (first ++ second).length) := by
    rw [written, List.drop_append, List.drop_eq_nil_of_le (by omega), List.nil_append,
      List.drop_drop, front, List.length_append]
    congr 1
    omega
  rw [written, taken, dropped, written]
  simp only [List.append_assoc]

theorem arraycopy_eq {data bytes buffer : List UInt8} {dataOffset offset length : Nat}
    (copied : (data.drop dataOffset).take length = bytes) (isLength : bytes.length = length) :
    arraycopy data dataOffset buffer offset length = written buffer offset bytes := by
  simp only [arraycopy, Int.toNat_natCast, copied, written, isLength, ← Int.natCast_add]

/-! ## Ranges of a file -/

/-- A remote file, its listed size (zero or less if unknown) and the replies to
range requests, each of which delivers the bytes it is asked for. -/
structure MediaFile where
  content : List UInt8
  fits : content.length < 2 ^ 63
  listedSize : Int
  listed : listedSize ≤ 0 ∨ listedSize = content.length
  download : Nat → Int → Int → Except String (List (List UInt8))
  delivers : ∀ fetch (position count : Nat), ∃ pieces,
    download fetch position count = .ok pieces ∧ pieces.flatten = slice content position count

namespace MediaFile

variable (file : MediaFile)

/-- The source that the app opens on the file. -/
def source : RangeSource :=
  .new file.listedSize file.download

theorem sourceSize_cases :
    file.source.sourceSize < 0 ∨ file.source.sourceSize = file.content.length := by
  have size : file.source.sourceSize = if file.listedSize > 0 then file.listedSize else -1 := rfl
  by_cases positive : file.listedSize > 0
  · right
    rw [size, if_pos positive]
    exact file.listed.resolve_left (by omega)
  · left
    rw [size, if_neg positive]
    decide

/-- The range is a piece of the file. -/
structure IsRange (range : CachedRange) (start : Nat) : Prop where
  start_eq : range.start = start
  nonempty : 0 < range.data.length
  inside : start + range.data.length ≤ file.content.length
  small : (range.data.length : Int) ≤ maxFetchBytes
  data_eq : range.data = slice file.content start range.data.length

/-- At most three ranges are kept, all of them pieces of the file. -/
structure Sound (s : MediaDataSource) : Prop where
  isRange : ∀ range ∈ s.cachedRanges, ∃ start, file.IsRange range start
  bounded : s.cachedRanges.length ≤ cachedRangeCount

variable {file}

theorem IsRange.finish_eq {range : CachedRange} {start : Nat} (isRange : file.IsRange range start) :
    range.finish = start + range.data.length := by
  have inside := isRange.inside
  have fits := file.fits
  rw [CachedRange.finish, isRange.start_eq]
  apply long_eq
  · omega
  · omega

theorem findCachedRange_spec {ranges ranges' : List CachedRange} {position : Int}
    {range : CachedRange} (found : findCachedRange ranges position = some (range, ranges')) :
    range.start ≤ position ∧ position < range.finish ∧ ranges'.Perm ranges ∧ range ∈ ranges := by
  unfold findCachedRange at found
  split at found
  · cases found
  · rename_i index isIndex
    obtain ⟨inBounds, holds, -⟩ := List.findIdx?_eq_some_iff_getElem.mp isIndex
    rw [List.getElem?_eq_getElem inBounds] at found
    simp only [Option.some.injEq, Prod.mk.injEq] at found
    obtain ⟨rfl, rfl⟩ := found
    simp only [Bool.and_eq_true, decide_eq_true_eq] at holds
    refine ⟨holds.1, holds.2, ?_, List.getElem_mem inBounds⟩
    split
    · calc ranges.eraseIdx index ++ [ranges[index]]
        _ |>.Perm (ranges[index] :: ranges.eraseIdx index) := List.perm_append_singleton _ _
        _ |>.Perm ranges := List.getElem_cons_eraseIdx_perm inBounds
    · exact List.Perm.refl ranges

/-- What serves a position: a range that holds it, or none at the end of the file. -/
def Serves (file : MediaFile) (position : Nat)
    (reply : Except String (Option CachedRange) × MediaDataSource) : Prop :=
  file.Sound reply.2 ∧
    match reply.1 with
    | .error _ => False
    | .ok none => file.content.length ≤ position
    | .ok (some range) => ∃ start, file.IsRange range start ∧ start ≤ position ∧
        position < start + range.data.length

theorem keepRange_length (ranges : List CachedRange) (range : CachedRange) :
    (keepRange ranges range).length ≤ cachedRangeCount := by
  simp only [keepRange, List.length_drop, List.length_append, List.length_singleton]
  omega

/-- The bytes that are left to fetch, as the code computes them. -/
theorem remaining_eq {position : Nat}
    (known : file.source.sourceSize < 0 ∨ position < file.content.length) :
    ∃ remaining : Int,
      (if file.source.sourceSize ≥ 0 then long (file.source.sourceSize - position) else longMax) =
          remaining ∧ 0 < remaining ∧
        (0 ≤ file.source.sourceSize → remaining = file.content.length - position) := by
  have fits := file.fits
  rcases file.sourceSize_cases with unknown | size
  · refine ⟨longMax, if_neg (by omega), by decide, fun isKnown => ?_⟩
    omega
  · refine ⟨file.content.length - position, ?_, by omega, fun _ => rfl⟩
    rw [size, if_pos (by omega)]
    apply long_eq
    · omega
    · omega

theorem fetchRange_serves {s : MediaDataSource} {position : Nat} {minimumBytes : Int}
    (sound : file.Sound s) (known : file.source.sourceSize < 0 ∨ position < file.content.length)
    (positive : 0 < minimumBytes) :
    file.Serves position (fetchRange file.source s position minimumBytes) := by
  obtain ⟨remaining, isRemaining, rest, exactly⟩ := remaining_eq known
  obtain ⟨asked, within, small⟩ := fetchBytes_eq rest positive
  generalize isCount : fetchBytes remaining minimumBytes = count at asked within small
  obtain ⟨n, rfl⟩ := Int.eq_ofNat_of_zero_le (Int.le_of_lt asked)
  obtain ⟨pieces, replied, delivered⟩ := file.delivers s.fetches position n
  have data_eq : fill pieces n = slice file.content position n := by
    rw [fill_eq, delivered, slice, List.take_take, Nat.min_self]
  have length_eq := length_slice file.content position n
  have download_eq : file.source.downloadRangeToPipe = file.download := rfl
  have goes : ¬(decide (remaining ≤ 0) || decide ((n : Int) ≤ 0)) = true := by
    simp only [Bool.or_eq_true, decide_eq_true_eq]
    omega
  have complete : ¬(decide (file.source.sourceSize ≥ 0) &&
      decide (((slice file.content position n).length : Int) < n)) = true := by
    simp only [Bool.and_eq_true, decide_eq_true_eq]
    rintro ⟨isKnown, short⟩
    have := exactly isKnown
    omega
  unfold fetchRange
  simp only [isRemaining, isCount, download_eq, replied, Int.toNat_natCast, data_eq]
  rw [if_neg goes, if_neg complete]
  split
  · refine ⟨⟨sound.isRange, sound.bounded⟩, ?_⟩
    change file.content.length ≤ position
    omega
  · rename_i nonempty
    have isRange : file.IsRange ⟨position, slice file.content position n⟩ position :=
      { start_eq := rfl
        nonempty := by change 0 < (slice file.content position n).length; omega
        inside := by change position + (slice file.content position n).length ≤ _; omega
        small := by change ((slice file.content position n).length : Int) ≤ _; omega
        data_eq := (slice_length file.content position n).symm }
    refine ⟨⟨fun range among => ?_, keepRange_length _ _⟩, position, isRange, Nat.le_refl _, ?_⟩
    · rcases List.mem_append.mp (List.mem_of_mem_drop among) with old | new
      · exact sound.isRange range old
      · exact ⟨position, List.mem_singleton.mp new ▸ isRange⟩
    · exact Nat.lt_add_of_pos_right isRange.nonempty

theorem rangeAt_serves {s : MediaDataSource} {position : Nat} {minimumBytes : Int}
    (sound : file.Sound s) (known : file.source.sourceSize < 0 ∨ position < file.content.length)
    (positive : 0 < minimumBytes) :
    file.Serves position (rangeAt file.source s position minimumBytes) := by
  unfold rangeAt
  split
  · rename_i range ranges found
    obtain ⟨low, high, perm, member⟩ := findCachedRange_spec found
    obtain ⟨start, isRange⟩ := sound.isRange range member
    rw [isRange.finish_eq] at high
    rw [isRange.start_eq] at low
    refine ⟨⟨fun other among => sound.isRange other (perm.subset among), ?_⟩, start, isRange, ?_, ?_⟩
    · rw [perm.length_eq]
      exact sound.bounded
    · omega
    · omega
  · exact fetchRange_serves sound known positive

theorem closed_fetchRange (source : RangeSource) (s : MediaDataSource)
    (position minimumBytes : Int) :
    (fetchRange source s position minimumBytes).2.closed = s.closed := by
  unfold fetchRange recordRemoteReadFailure
  dsimp only
  generalize (if source.sourceSize ≥ 0 then long (source.sourceSize - position) else longMax) =
    remaining
  split
  · rfl
  · split
    · rfl
    · split
      · rfl
      · split
        · rfl
        · rfl

theorem closed_rangeAt (source : RangeSource) (s : MediaDataSource) (position minimumBytes : Int) :
    (rangeAt source s position minimumBytes).2.closed = s.closed := by
  unfold rangeAt
  split
  · rfl
  · exact closed_fetchRange source s position minimumBytes

/-! ## The loop -/

/-- The first `t` bytes have been read into the buffer. -/
structure Reached (file : MediaFile) (buffer : List UInt8) (position offset size t : Nat)
    (p : Progress) : Prop where
  totalRead_eq : p.totalRead = t
  buffer_eq : p.buffer = written buffer offset (slice file.content position t)
  bounded : t ≤ min size (file.content.length - position)
  sound : file.Sound p.source
  isOpen : p.source.closed = false

variable {buffer : List UInt8} {position offset size t : Nat} {p : Progress}

/-- A range that holds the next byte extends what has been read. -/
theorem Reached.copy {s : MediaDataSource} {range : CachedRange} {start : Nat}
    (reached : file.Reached buffer position offset size t p)
    (room : offset + size ≤ buffer.length) (small : buffer.length < 2 ^ 31)
    (isRange : file.IsRange range start) (low : start ≤ position + t)
    (high : position + t < start + range.data.length) (sound : file.Sound s)
    (isOpen : s.closed = false) (more : t < size) :
    ∃ copied : Nat, 0 < copied ∧
      min (int (size - p.totalRead))
          (int (range.data.length - int (long (position + p.totalRead) - range.start))) = copied ∧
        file.Reached buffer position offset size (t + copied)
          { source := s
            buffer := arraycopy range.data (int (long (position + p.totalRead) - range.start))
              p.buffer (int (offset + p.totalRead)) copied
            totalRead := int (p.totalRead + copied) } := by
  have total := reached.totalRead_eq
  have bounded := reached.bounded
  have inside := isRange.inside
  have fits := file.fits
  have short := isRange.small
  unfold maxFetchBytes at short
  obtain ⟨skip, skip_eq⟩ := Nat.exists_eq_add_of_le low
  have current : long (position + p.totalRead) = (position + t : Nat) := by
    rw [total, ← Int.natCast_add]
    apply long_eq
    · omega
    · omega
  have rangeOffset : int (long (position + p.totalRead) - range.start) = skip := by
    have difference : ((start + skip : Nat) : Int) - start = skip := by omega
    rw [current, isRange.start_eq, skip_eq, difference]
    apply int_eq
    · omega
    · omega
  have asked : int (size - p.totalRead) = (size - t : Nat) := by
    rw [total, ← Int.natCast_sub (by omega)]
    apply int_eq
    · omega
    · omega
  have available : int (range.data.length - (skip : Int)) = (range.data.length - skip : Nat) := by
    rw [← Int.natCast_sub (by omega)]
    apply int_eq
    · omega
    · omega
  have target : int (offset + p.totalRead) = (offset + t : Nat) := by
    rw [total, ← Int.natCast_add]
    apply int_eq
    · omega
    · omega
  refine ⟨min (size - t) (range.data.length - skip), by omega, ?_, ?_⟩
  · rw [asked, rangeOffset, available]
    omega
  · generalize isCopied : min (size - t) (range.data.length - skip) = copied
    have bytes : (range.data.drop skip).take copied = slice file.content (position + t) copied := by
      rw [isRange.data_eq, slice_slice (by omega), skip_eq]
    have read : (slice file.content position t).length = t := by
      rw [length_slice]
      omega
    have fresh : (slice file.content (position + t) copied).length = copied := by
      rw [length_slice]
      omega
    have count : int (p.totalRead + copied) = (t + copied : Nat) := by
      rw [total, ← Int.natCast_add]
      apply int_eq
      · omega
      · omega
    have copy : arraycopy range.data skip p.buffer (offset + t : Nat) copied =
        written buffer offset (slice file.content position (t + copied)) := by
      have room : offset + (slice file.content position t).length +
          (slice file.content (position + t) copied).length ≤ buffer.length := by omega
      rw [slice_add, ← written_append room, read, reached.buffer_eq]
      exact arraycopy_eq bytes fresh
    refine { totalRead_eq := count, buffer_eq := ?_, bounded := by omega, sound, isOpen }
    rw [rangeOffset, target]
    exact copy

theorem readLoop_spec (room : offset + size ≤ buffer.length) (small : buffer.length < 2 ^ 31)
    (high : position < 2 ^ 63) {fuel : Nat} (enough : size - t < fuel)
    (reached : file.Reached buffer position offset size t p) :
    ∃ final, file.Reached buffer position offset size
          (min size (file.content.length - position)) final ∧
      readLoop file.source position offset size fuel p =
        some (.ok (if final.totalRead = 0 then -1 else final.totalRead), final) := by
  induction fuel generalizing t p with
  | zero => exact absurd enough (Nat.not_lt_zero _)
  | succ fuel ih =>
      have total := reached.totalRead_eq
      have bounded := reached.bounded
      have fits := file.fits
      have current : long (position + p.totalRead) = (position + t : Nat) := by
        rw [total, ← Int.natCast_add]
        apply long_eq
        · omega
        · omega
      unfold readLoop
      simp only [current]
      split
      · rename_i finished
        have whole : t = min size (file.content.length - position) := by omega
        exact ⟨p, whole ▸ reached, rfl⟩
      · rename_i unfinished
        split
        · rename_i atEnd
          simp only [Bool.and_eq_true, decide_eq_true_eq] at atEnd
          have size_eq := file.sourceSize_cases.resolve_left (by omega)
          have whole : t = min size (file.content.length - position) := by omega
          exact ⟨p, whole ▸ reached, rfl⟩
        · rename_i inside
          simp only [Bool.and_eq_true, decide_eq_true_eq] at inside
          have known : file.source.sourceSize < 0 ∨ position + t < file.content.length := by
            rcases file.sourceSize_cases with unknown | size_eq
            · exact .inl unknown
            · right
              omega
          have left_eq : int (size - p.totalRead) = (size - t : Nat) := by
            rw [total, ← Int.natCast_sub (by omega)]
            apply int_eq
            · omega
            · omega
          have positive : 0 < int (size - p.totalRead) := by omega
          have served := rangeAt_serves reached.sound known positive
          have stillOpen := closed_rangeAt file.source p.source (position + t : Nat)
            (int (size - p.totalRead))
          generalize rangeAt file.source p.source (position + t : Nat) (int (size - p.totalRead)) =
            reply at served stillOpen
          obtain ⟨result, s⟩ := reply
          obtain ⟨sound, serves⟩ := served
          have isOpen : s.closed = false := stillOpen.trans reached.isOpen
          cases result with
          | error failure => exact serves.elim
          | ok range =>
              cases range with
              | none =>
                  have whole : t = min size (file.content.length - position) := by
                    have : file.content.length ≤ position + t := serves
                    omega
                  refine ⟨{ p with source := s }, ?_, rfl⟩
                  exact whole ▸ ⟨total, reached.buffer_eq, bounded, sound, isOpen⟩
              | some range =>
                  obtain ⟨start, isRange, low, within⟩ := serves
                  obtain ⟨copied, positive, length_eq, next⟩ :=
                    reached.copy room small isRange low within sound isOpen (by omega)
                  rw [current] at length_eq next
                  dsimp only
                  rw [length_eq, if_neg (by omega)]
                  exact ih (by omega) next

end MediaFile

/-! ## Reads -/

/-- The arguments of `readAt`: a `long`, an array and two `int`s. -/
structure ReadRequest where
  position : Int
  buffer : List UInt8
  offset : Int
  size : Int
  isLong : position < 2 ^ 63
  isArray : buffer.length < 2 ^ 31
  isInt : size < 2 ^ 31

/-- What a read of the file yields: a result and the buffer after it. -/
def ReadRequest.expected (content : List UInt8) (r : ReadRequest) :
    Except ReadError Int × List UInt8 :=
  if r.position < 0 then
    (.error (.ioException "Media read position must be >= 0"), r.buffer)
  else if r.offset < 0 ∨ r.size < 0 ∨ r.offset + r.size > r.buffer.length then
    (.error .indexOutOfBounds, r.buffer)
  else if r.size = 0 then (.ok 0, r.buffer)
  else if r.position ≥ content.length then (.ok (-1), r.buffer)
  else
    let n := min r.size.toNat (content.length - r.position.toNat)
    (.ok n, written r.buffer r.offset.toNat (slice content r.position.toNat n))

inductive MediaCall where
  | readAt (request : ReadRequest)
  | close

/-- The source after a call. -/
def callMedia (source : RangeSource) (s : MediaDataSource) : MediaCall → MediaDataSource
  | .readAt r =>
      match readAt source s r.position r.buffer r.offset r.size with
      | some (_, p) => p.source
      | none => s
  | .close => close s

/-- The call, if it is a read and the source is open, yields what the file holds. -/
def ReadsFile (file : MediaFile) (s : MediaDataSource) : MediaCall → Prop
  | .readAt r =>
      ∃ result p, readAt file.source s r.position r.buffer r.offset r.size = some (result, p) ∧
        (result, p.buffer) =
          if s.closed then
            (.error (.ioException "MediaDataSource is closed"), r.buffer)
          else r.expected file.content
  | .close => True

namespace MediaFile

variable {file : MediaFile} {s : MediaDataSource}

/-- The loop yields what is expected of a valid read of some bytes. -/
theorem readAt_inside (sound : file.Sound s) (isOpen : s.closed = false) (r : ReadRequest)
    (position : 0 ≤ r.position) (offset : 0 ≤ r.offset) (size : 0 < r.size)
    (room : r.offset + r.size ≤ r.buffer.length) :
    ∃ result p,
      readLoop file.source r.position r.offset r.size (r.size.toNat + 1) ⟨s, r.buffer, 0⟩ =
          some (result, p) ∧
        (result, p.buffer) =
          (if r.position ≥ file.content.length then (.ok (-1), r.buffer)
          else
            (.ok (min r.size.toNat (file.content.length - r.position.toNat) : Nat),
              written r.buffer r.offset.toNat (slice file.content r.position.toNat
                (min r.size.toNat (file.content.length - r.position.toNat))))) ∧
        file.Sound p.source := by
  obtain ⟨position', isPosition⟩ := Int.eq_ofNat_of_zero_le position
  obtain ⟨offset', isOffset⟩ := Int.eq_ofNat_of_zero_le offset
  obtain ⟨size', isSize⟩ := Int.eq_ofNat_of_zero_le (Int.le_of_lt size)
  have isLong := r.isLong
  have start : file.Reached r.buffer position' offset' size' 0 ⟨s, r.buffer, 0⟩ :=
    { totalRead_eq := rfl
      buffer_eq := (written_nil r.buffer offset').symm
      bounded := Nat.zero_le _
      sound, isOpen }
  have enough : size' - 0 < size' + 1 := by omega
  obtain ⟨final, reached, returned⟩ := readLoop_spec (by omega) r.isArray (by omega) enough start
  have total := reached.totalRead_eq
  simp only [isPosition, isOffset, isSize, Int.toNat_natCast]
  refine ⟨_, final, returned, ?_, reached.sound⟩
  by_cases beyond : (position' : Int) ≥ file.content.length
  · have nothing : min size' (file.content.length - position') = 0 := by omega
    have noneRead : final.totalRead = 0 := by omega
    rw [if_pos noneRead, if_pos beyond, reached.buffer_eq, nothing]
    exact congrArg (Prod.mk _) (written_nil r.buffer offset')
  · have something : final.totalRead ≠ 0 := by omega
    rw [if_neg something, if_neg beyond, reached.buffer_eq, total]

/-- A read from an open source yields what is expected and leaves an open source. -/
theorem readAt_spec (sound : file.Sound s) (isOpen : s.closed = false) (r : ReadRequest) :
    ∃ result p, readAt file.source s r.position r.buffer r.offset r.size = some (result, p) ∧
      (result, p.buffer) = r.expected file.content ∧ file.Sound p.source := by
  have invalid_iff : (decide (r.offset < 0) || decide (r.size < 0) ||
      decide (r.offset > int (r.buffer.length - r.size))) = true ↔
        r.offset < 0 ∨ r.size < 0 ∨ r.offset + r.size > r.buffer.length := by
    simp only [Bool.or_eq_true, decide_eq_true_eq, or_assoc]
    by_cases signs : r.offset < 0 ∨ r.size < 0
    · omega
    · have isInt := r.isInt
      have isArray := r.isArray
      rw [int_eq (by omega) (by omega)]
      omega
  unfold readAt ReadRequest.expected
  simp only [isOpen, Bool.false_eq_true, if_false, invalid_iff]
  split
  · exact ⟨_, _, rfl, rfl, sound⟩
  · rename_i nonnegative
    split
    · exact ⟨_, _, rfl, rfl, sound⟩
    · rename_i valid
      split
      · exact ⟨_, _, rfl, rfl, sound⟩
      · rename_i nonempty
        split
        · rename_i beyond
          simp only [Bool.and_eq_true, decide_eq_true_eq] at beyond
          have size_eq := file.sourceSize_cases.resolve_left (by omega)
          rw [if_pos (by omega)]
          exact ⟨_, _, rfl, rfl, sound⟩
        · exact readAt_inside sound isOpen r (by omega) (by omega) (by omega) (by omega)

theorem sound_new : file.Sound .new :=
  ⟨fun _ among => absurd among List.not_mem_nil, Nat.zero_le _⟩

theorem readAt_closed (source : RangeSource) (isClosed : s.closed = true) (r : ReadRequest) :
    readAt source s r.position r.buffer r.offset r.size =
      some (.error (.ioException "MediaDataSource is closed"), ⟨s, r.buffer, 0⟩) := by
  simp [readAt, isClosed]

theorem sound_call (sound : file.Sound s) (call : MediaCall) :
    file.Sound (callMedia file.source s call) ∧ ReadsFile file s call := by
  cases call with
  | close => exact ⟨⟨fun _ among => absurd among List.not_mem_nil, Nat.zero_le _⟩, trivial⟩
  | readAt r =>
      cases status : s.closed with
      | true =>
          have failed := readAt_closed file.source status r
          constructor
          · simp only [callMedia, failed]
            exact sound
          · exact ⟨_, _, failed, by simp [status]⟩
      | false =>
          obtain ⟨result, p, returned, yields, still⟩ := readAt_spec sound status r
          constructor
          · simp only [callMedia, returned]
            exact still
          · exact ⟨result, p, returned, by simp [status, yields]⟩

/-- However the file is read, every read yields what the file holds at its
position, and at most three ranges are kept. -/
theorem reads_file (file : MediaFile) (calls : List MediaCall) :
    Meets (callMedia file.source) (ReadsFile file) .new calls ∧
      Always (callMedia file.source) (fun s => s.cachedRanges.length ≤ cachedRangeCount) .new
        calls := by
  have step : ∀ s call, file.Sound s →
      file.Sound (callMedia file.source s call) ∧ ReadsFile file s call :=
    fun _ call sound => sound_call sound call
  constructor
  · exact Meets.of_preserved step calls sound_new
  · have always := Always.of_preserved (fun s call sound => (step s call sound).1) calls sound_new
    exact always.mono fun _ sound => sound.bounded

/-- The result is -1 at the end of the file and beyond, and a positive count before it. -/
def CountsBytes (content : List UInt8) (position size : Int) (result : Except ReadError Int) :
    Prop :=
  (result = .ok (-1) ↔ content.length ≤ position) ∧
    (position < content.length → ∃ n, result = .ok n ∧ 0 < n ∧ n ≤ size)

/-- A file of one byte, replied to in one piece. -/
def oneByte : MediaFile where
  content := [7]
  fits := by decide
  listedSize := 1
  listed := .inr rfl
  download _ position count := .ok [slice [7] position.toNat count.toNat]
  delivers _ _ _ := ⟨_, rfl, by simp⟩

/-- A read of no bytes returns zero. -/
theorem emptyRead_countsNothing :
    ¬∀ result p, readAt oneByte.source .new 0 [] 0 0 = some (result, p) →
      CountsBytes oneByte.content 0 0 result := by
  intro counts
  obtain ⟨n, returned, positive, -⟩ := (counts (.ok 0) ⟨.new, [], 0⟩ (by rfl)).2 (by decide)
  cases returned
  exact absurd positive (by decide)

end MediaFile

end RoundSync.Thumbnails
