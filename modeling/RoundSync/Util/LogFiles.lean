import RoundSync.Data.Table
import RoundSync.Text.Json
import RoundSync.Text.Lines
import RoundSync.Util.SyncLog
import Mathlib.Data.Char
import Mathlib.Data.List.Lex
import Mathlib.Data.List.Sort

/-!
# One entry of the log

The log is read from its files line by line, newest first, and the deletion of
an entry copies every file without the lines that match it.  This file models
both down to the octets of the files, with the JSON library as a parameter, and
says when exactly the deletion takes one line and nothing else.
-/

namespace RoundSync.SyncLog.Files

open RoundSync.Data
open RoundSync.Text
open RoundSync.Text.AndroidUri
open RoundSync.Text.Lines

/-! ## The files -/

/-- Octets of a file. -/
abbrev Content := List UInt8

/-- The daily files by their names, and the single file of older versions. -/
structure LogDir (ν : Type) where
  daily : Table ν Content
  legacy : Option Content

inductive LogFile (ν : Type) where
  | daily (name : ν)
  | legacy
  deriving DecidableEq

/-- What the log uses of the platform: the charset and `JSONObject`, whose
conversions give the default where a field is missing or has no such value. -/
structure Platform (ω : Type) where
  malformedLength : List UInt8 → Nat
  jsonObject : JavaString → Option ω
  optString : ω → JavaString → JavaString → JavaString
  optLong : ω → JavaString → Int → Int

def ENTRY_ID : JavaString :=
  "id".toList

def TIMESTAMP : JavaString :=
  "timestamp".toList

def MAX_READ_ENTRIES : Nat :=
  5000

section Model

variable {ν ω : Type} [LinearOrder ν] (platform : Platform ω)

/-- A line as the reader hands it out. -/
def text (line : List UInt8) : JavaString :=
  decodeOctets platform.malformedLength line

/-! ## Reading the log -/

/-- The entry of a line that has one: nothing is left of a blank line by `trim`,
which takes all characters up to the space. -/
def readEntry (line : List UInt8) : Option ω :=
  if (text platform line).all (· ≤ ' ') then none else platform.jsonObject (text platform line)

/-- One more entry in a queue of a limited length. -/
def addLast (limit : Nat) (tail : List ω) (entry : ω) : List ω :=
  (if tail.length = limit then tail.tail else tail) ++ [entry]

def readNewestJsonLines (file : Option Content) (output : List ω) (limit : Nat) : List ω :=
  match file with
  | none => output
  | some content =>
      if limit = 0 then output
      else
        output ++ (((readLines content).filterMap (readEntry platform)).foldl
          (addLast limit) []).reverse

/-- The loop over the daily files. -/
def readDaily : List (Σ _ : ν, Content) → List ω → List ω
  | [], entries => entries
  | file :: files, entries =>
      let entries := readNewestJsonLines platform (some file.2) entries
        (MAX_READ_ENTRIES - entries.length)
      if MAX_READ_ENTRIES ≤ entries.length then entries else readDaily files entries

/-- The names in reverse order: the latest day first. -/
def byNameReversed (daily : Table ν Content) : List (Σ _ : ν, Content) :=
  daily.entries.mergeSort fun one other => other.1 ≤ one.1

def getLog (log : LogDir ν) : List ω :=
  let daily := readDaily platform (byNameReversed log.daily) []
  let entries :=
    if daily.length < MAX_READ_ENTRIES then
      readNewestJsonLines platform log.legacy daily (MAX_READ_ENTRIES - daily.length)
    else daily
  let sorted := entries.mergeSort fun one other =>
    platform.optLong other TIMESTAMP 0 ≤ platform.optLong one TIMESTAMP 0
  if MAX_READ_ENTRIES < sorted.length then sorted.take MAX_READ_ENTRIES else sorted

/-! ## Deleting an entry -/

/-- Whether an entry is the one to delete: by its id, or by its time where the
one to delete has no id. -/
def isEntry (entryId : Option JavaString) (timestamp : Int) (entry : ω) : Bool :=
  let candidateId := platform.optString entry ENTRY_ID []
  match entryId with
  | some id =>
      if id ≠ [] then id = candidateId
      else platform.optLong entry TIMESTAMP (-1) = timestamp
  | none => platform.optLong entry TIMESTAMP (-1) = timestamp

/-- Whether a line is left out of the copy. -/
def remove (entryId : Option JavaString) (timestamp : Int) (line : List UInt8) : Bool :=
  match platform.jsonObject (text platform line) with
  | some entry => isEntry platform entryId timestamp entry
  | none => false

/-- What the loop writes for a line. -/
def written (entryId : Option JavaString) (timestamp : Int) (line : List UInt8) : List UInt8 :=
  if remove platform entryId timestamp line then []
  else utf8 (text platform line) ++ [lineFeed]

/-- The file is replaced by the copy, or deleted if that is empty. -/
def rewriteWithoutEntry (entryId : Option JavaString) (timestamp : Int) (source : Content) :
    Option Content :=
  let temp := (readLines source).flatMap (written platform entryId timestamp)
  if temp = [] then none else some temp

def deleteEntry (log : LogDir ν) (entryId : Option JavaString) (timestamp : Int) : LogDir ν where
  daily := log.daily.filterMap (rewriteWithoutEntry platform entryId timestamp)
  legacy := log.legacy.bind (rewriteWithoutEntry platform entryId timestamp)

/-- The deletion of an entry that is shown, which is called with its fields. -/
def deleteShown (log : LogDir ν) (entry : ω) : LogDir ν :=
  deleteEntry platform log (some (platform.optString entry ENTRY_ID []))
    (platform.optLong entry TIMESTAMP (-1))

end Model

/-! ## What is read of a directory -/

section Lines

variable {ν : Type} [LinearOrder ν]

def linesOfContent (content : Option Content) : List (List UInt8) :=
  content.elim [] readLines

/-- The lines of a file, none if it does not exist. -/
def linesOf (log : LogDir ν) : LogFile ν → List (List UInt8)
  | .daily name => linesOfContent (log.daily.lookup name)
  | .legacy => linesOfContent log.legacy

end Lines

section Reading

variable {ν ω : Type} [LinearOrder ν] (platform : Platform ω)

/-- The entries of a file, the newest first. -/
def newestEntries (content : Option Content) : List ω :=
  ((linesOfContent content).filterMap (readEntry platform)).reverse

/-- The entries of all files, in the order in which they are read. -/
def readingOrder (log : LogDir ν) : List ω :=
  (byNameReversed log.daily).flatMap (fun file => newestEntries platform (some file.2)) ++
    newestEntries platform log.legacy

/-- The queue keeps the last entries. -/
theorem foldl_addLast {limit : Nat} (positive : 0 < limit) (entries tail : List ω)
    (fits : tail.length ≤ limit) :
    (entries.foldl (addLast limit) tail).reverse =
      (entries.reverse ++ tail.reverse).take limit := by
  induction entries generalizing tail with
  | nil =>
      rw [List.foldl_nil, List.reverse_nil, List.nil_append, List.take_of_length_le]
      rwa [List.length_reverse]
  | cons entry entries ih =>
      have stillFits : (addLast limit tail entry).length ≤ limit := by
        unfold addLast
        split
        · rename_i full
          rw [List.length_append, List.length_tail, List.length_singleton]
          omega
        · rename_i room
          rw [List.length_append, List.length_singleton]
          omega
      rw [List.foldl_cons, ih (addLast limit tail entry) stillFits, List.reverse_cons,
        List.append_assoc, List.singleton_append]
      unfold addLast
      split
      · rename_i full
        cases tail with
        | nil => exact absurd full (Nat.ne_of_lt positive)
        | cons oldest rest =>
            -- the oldest entry of a full queue makes room
            have split : entries.reverse ++ entry :: (oldest :: rest).reverse =
                (entries.reverse ++ entry :: rest.reverse) ++ [oldest] := by simp
            have cut : limit ≤ (entries.reverse ++ entry :: rest.reverse).length := by
              rw [List.length_append, List.length_cons, ← full, List.length_cons,
                @List.length_reverse _ rest]
              omega
            rw [split, List.take_append_of_le_length cut, List.tail_cons, List.reverse_append,
              List.reverse_singleton, List.singleton_append]
      · rw [List.reverse_append, List.reverse_singleton, List.singleton_append]

theorem readNewestJsonLines_eq (content : Option Content) (output : List ω) (limit : Nat) :
    readNewestJsonLines platform content output limit =
      output ++ (newestEntries platform content).take limit := by
  unfold readNewestJsonLines newestEntries
  cases content with
  | none => simp [linesOfContent]
  | some content =>
      dsimp only
      by_cases none : limit = 0
      · rw [if_pos none, none, List.take_zero, List.append_nil]
      · rw [if_neg none, foldl_addLast (Nat.pos_of_ne_zero none) _ [] (Nat.zero_le limit),
          List.reverse_nil, List.append_nil]
        rfl

omit [LinearOrder ν] in
/-- The loop stops once the log is full. -/
theorem readDaily_eq (files : List (Σ _ : ν, Content)) (entries : List ω)
    (fits : entries.length ≤ MAX_READ_ENTRIES) :
    readDaily platform files entries =
      (entries ++ files.flatMap fun file => newestEntries platform (some file.2)).take
        MAX_READ_ENTRIES := by
  induction files generalizing entries with
  | nil => rw [readDaily, List.flatMap_nil, List.append_nil, List.take_of_length_le fits]
  | cons file files ih =>
      have next : readNewestJsonLines platform (some file.2) entries
          (MAX_READ_ENTRIES - entries.length) =
            (entries ++ newestEntries platform (some file.2)).take MAX_READ_ENTRIES := by
        rw [readNewestJsonLines_eq, List.take_append, List.take_of_length_le fits]
      rw [readDaily, next, List.flatMap_cons, ← List.append_assoc]
      generalize entries ++ newestEntries platform (some file.2) = first
      split
      · rename_i full
        rw [List.length_take] at full
        rw [List.take_append_of_le_length (by omega)]
      · rename_i room
        rw [List.length_take] at room
        have whole : first.take MAX_READ_ENTRIES = first :=
          List.take_of_length_le (by omega)
        rw [ih _ (List.length_take_le _ _), whole]

/-- The log holds the first entries in the order in which they are read. -/
theorem getLog_perm (log : LogDir ν) :
    (getLog platform log).Perm ((readingOrder platform log).take MAX_READ_ENTRIES) := by
  have read : ∀ entries : List ω, entries = (readingOrder platform log).take MAX_READ_ENTRIES →
      (if MAX_READ_ENTRIES < (entries.mergeSort fun one other =>
          platform.optLong other TIMESTAMP 0 ≤ platform.optLong one TIMESTAMP 0).length then
        (entries.mergeSort fun one other =>
          platform.optLong other TIMESTAMP 0 ≤ platform.optLong one TIMESTAMP 0).take
            MAX_READ_ENTRIES
      else entries.mergeSort fun one other =>
        platform.optLong other TIMESTAMP 0 ≤ platform.optLong one TIMESTAMP 0).Perm
        ((readingOrder platform log).take MAX_READ_ENTRIES) := by
    rintro entries rfl
    rw [if_neg]
    · exact List.mergeSort_perm _ _
    · rw [List.length_mergeSort, List.length_take]
      omega
  refine read _ ?_
  rw [readDaily_eq platform _ [] (Nat.zero_le _), List.nil_append, readNewestJsonLines_eq]
  unfold readingOrder
  generalize (byNameReversed log.daily).flatMap
    (fun file => newestEntries platform (some file.2)) = daily
  rw [List.take_append]
  split
  · rename_i room
    rw [List.length_take] at room ⊢
    congr 2
    omega
  · rename_i full
    rw [List.length_take] at full
    have none : MAX_READ_ENTRIES - daily.length = 0 := by omega
    rw [none, List.take_zero, List.append_nil]

end Reading

/-! ## What the deletion leaves -/

section Deleting

variable {ν ω : Type} [LinearOrder ν] (platform : Platform ω) (entryId : Option JavaString)
  (timestamp : Int)

/-- A line that is decoded and encoded again. -/
def rewritten (line : List UInt8) : List UInt8 :=
  utf8 (text platform line)

theorem text_rewritten (line : List UInt8) :
    text platform (rewritten platform line) = text platform line :=
  decodeOctets_utf8 (text platform line)

theorem flatMap_written (lines : List (List UInt8)) :
    lines.flatMap (written platform entryId timestamp) =
      ((lines.filter (!remove platform entryId timestamp ·)).map (rewritten platform)).flatMap
        (· ++ [lineFeed]) := by
  induction lines with
  | nil => rfl
  | cons line lines ih =>
      rw [List.flatMap_cons, ih, written]
      cases removed : remove platform entryId timestamp line with
      | true => simp [removed]
      | false => simp [removed, rewritten]

/-- The lines of the copy. -/
theorem linesOfContent_rewrite (source : Content) :
    linesOfContent (rewriteWithoutEntry platform entryId timestamp source) =
      ((readLines source).filter (!remove platform entryId timestamp ·)).map
        (rewritten platform) := by
  have copied : readLines ((readLines source).flatMap (written platform entryId timestamp)) =
      ((readLines source).filter (!remove platform entryId timestamp ·)).map
        (rewritten platform) := by
    rw [flatMap_written]
    refine readLines_written fun line member => ?_
    obtain ⟨old, kept, rfl⟩ := List.mem_map.mp member
    exact (isLine_of_mem (List.mem_of_mem_filter kept)).rewritten platform.malformedLength
  unfold rewriteWithoutEntry
  dsimp only
  split
  · rename_i empty
    rw [← copied, empty]
    rfl
  · exact copied

theorem linesOf_deleteEntry (log : LogDir ν) (file : LogFile ν) :
    linesOf (deleteEntry platform log entryId timestamp) file =
      ((linesOf log file).filter (!remove platform entryId timestamp ·)).map
        (rewritten platform) := by
  have perContent : ∀ content : Option Content,
      linesOfContent (content.bind (rewriteWithoutEntry platform entryId timestamp)) =
        ((linesOfContent content).filter (!remove platform entryId timestamp ·)).map
          (rewritten platform) := by
    intro content
    cases content with
    | none => rfl
    | some source => exact linesOfContent_rewrite platform entryId timestamp source
  cases file with
  | daily name =>
      rw [linesOf, deleteEntry, Table.lookup_filterMap]
      exact perContent (log.daily.lookup name)
  | legacy => exact perContent log.legacy

theorem readEntry_rewritten (line : List UInt8) :
    readEntry platform (rewritten platform line) = readEntry platform line := by
  rw [readEntry, text_rewritten, readEntry]

theorem remove_of_readEntry {line : List UInt8} {entry : ω}
    (isEntryOf : readEntry platform line = some entry) :
    remove platform entryId timestamp line = isEntry platform entryId timestamp entry := by
  unfold readEntry at isEntryOf
  split at isEntryOf
  · cases isEntryOf
  · rw [remove, isEntryOf]

theorem filterMap_readEntry (lines : List (List UInt8)) :
    ((lines.filter (!remove platform entryId timestamp ·)).map (rewritten platform)).filterMap
        (readEntry platform) =
      (lines.filterMap (readEntry platform)).filter (!isEntry platform entryId timestamp ·) := by
  induction lines with
  | nil => rfl
  | cons line lines ih =>
      cases found : readEntry platform line with
      | none =>
          rw [List.filterMap_cons_none found, ← ih, List.filter_cons]
          cases remove platform entryId timestamp line <;> simp [readEntry_rewritten, found]
      | some entry =>
          rw [List.filterMap_cons_some found, List.filter_cons, List.filter_cons,
            remove_of_readEntry platform entryId timestamp found]
          cases isEntry platform entryId timestamp entry <;>
            simp [readEntry_rewritten, found, ih]

theorem newestEntries_rewrite (content : Option Content) :
    newestEntries platform (content.bind (rewriteWithoutEntry platform entryId timestamp)) =
      (newestEntries platform content).filter (!isEntry platform entryId timestamp ·) := by
  cases content with
  | none => rfl
  | some source =>
      rw [newestEntries, Option.bind_some, linesOfContent_rewrite, filterMap_readEntry,
        newestEntries, List.filter_reverse]
      rfl

/-- Names are distinct, so the files that are left stand in the same order. -/
theorem byNameReversed_filterMap (daily : Table ν Content) (change : Content → Option Content) :
    byNameReversed (daily.filterMap change) =
      (byNameReversed daily).filterMap (Table.changeEntry change) := by
  have sorted : ∀ files : Table ν Content,
      (byNameReversed files).Pairwise fun one other => other.1 ≤ one.1 := by
    intro files
    refine (List.pairwise_mergeSort ?_ ?_ files.entries).imp fun {one other} =>
      of_decide_eq_true
    · intro one middle other first second
      rw [decide_eq_true_eq] at first second ⊢
      exact second.trans first
    · intro one other
      rw [Bool.or_eq_true, decide_eq_true_eq, decide_eq_true_eq]
      exact le_total other.1 one.1
  have stillSorted : ((byNameReversed daily).filterMap (Table.changeEntry change)).Pairwise
      fun one other => other.1 ≤ one.1 := by
    refine (sorted daily).filterMap (Table.changeEntry change) ?_
    intro one other ordered first isFirst second isSecond
    obtain ⟨_, _, rfl⟩ := Option.map_eq_some_iff.mp isFirst
    obtain ⟨_, _, rfl⟩ := Option.map_eq_some_iff.mp isSecond
    exact ordered
  have permuted : (byNameReversed (daily.filterMap change)).Perm
      ((byNameReversed daily).filterMap (Table.changeEntry change)) :=
    (List.mergeSort_perm _ _).trans ((List.mergeSort_perm _ _).symm.filterMap _)
  refine List.Perm.eq_of_pairwise ?_ (sorted _) stillSorted permuted
  intro one other isOne isOther below above
  have distinct := (daily.filterMap change).nodupKeys
  refine distinct.eq_of_fst_eq ?_ ?_ (le_antisymm above below)
  · exact (List.mergeSort_perm _ _).mem_iff.mp isOne
  · exact (List.mergeSort_perm _ _).mem_iff.mp (permuted.mem_iff.mpr isOther)

/-- Whatever the files hold, the deletion takes the matching entries from what is
read. -/
theorem readingOrder_deleteEntry (log : LogDir ν) :
    readingOrder platform (deleteEntry platform log entryId timestamp) =
      (readingOrder platform log).filter (!isEntry platform entryId timestamp ·) := by
  unfold readingOrder deleteEntry
  dsimp only
  rw [newestEntries_rewrite, List.filter_append, byNameReversed_filterMap]
  congr 1
  induction byNameReversed log.daily with
  | nil => rfl
  | cons file files ih =>
      rw [List.flatMap_cons, List.filter_append, ← ih,
        ← newestEntries_rewrite platform entryId timestamp (some file.2), Option.bind_some,
        List.filterMap_cons, Table.changeEntry]
      cases rewriteWithoutEntry platform entryId timestamp file.2 with
      | none => rfl
      | some copy => rfl

/-- How entries are written as lines, so that they are read back. -/
structure Renders (render : SyncLog.Entry → JavaString) : Prop where
  reads : ∀ entry, ∃ object, platform.jsonObject (render entry) = some object ∧
    platform.optString object ENTRY_ID [] = entry.id ∧
    platform.optLong object TIMESTAMP (-1) = entry.timestamp

variable {platform}

theorem Renders.remove_eq {render : SyncLog.Entry → JavaString} (renders : Renders platform render)
    (entryId : JavaString) (entry : SyncLog.Entry) :
    remove platform (some entryId) timestamp (utf8 (render entry)) =
      SyncLog.removes entryId timestamp entry := by
  obtain ⟨object, isObject, sameId, sameTime⟩ := renders.reads entry
  rw [remove, text, decodeOctets_utf8, isObject]
  dsimp only
  rw [isEntry, SyncLog.removes, sameId, sameTime]

/-- On a file of entries the copy is the one of the model of retention. -/
theorem Renders.rewriteWithoutEntry_eq {render : SyncLog.Entry → JavaString}
    (renders : Renders platform render) (entryId : JavaString) (now : Int)
    (source : SyncLog.LogFile) {content : Content}
    (rendered : readLines content = source.lines.map fun entry => utf8 (render entry)) :
    linesOfContent (rewriteWithoutEntry platform (some entryId) timestamp content) =
      ((SyncLog.rewriteWithoutEntry entryId timestamp now source).elim [] (·.lines)).map
        fun entry => utf8 (render entry) := by
  have kept : (SyncLog.rewriteWithoutEntry entryId timestamp now source).elim [] (·.lines) =
      source.lines.filter fun entry => !SyncLog.removes entryId timestamp entry := by
    unfold SyncLog.rewriteWithoutEntry
    dsimp only
    split
    · rename_i empty
      exact empty.symm
    · rfl
  rw [linesOfContent_rewrite, rendered, kept, List.filter_map, List.map_map]
  simp only [Function.comp_def, renders.remove_eq]
  refine List.map_congr_left fun entry _ => ?_
  rw [rewritten, text, decodeOctets_utf8]

end Deleting

/-! ## When one entry is deleted -/

section Exact

variable {ν ω : Type} [LinearOrder ν] (platform : Platform ω)

/-- Whether the deletion of one entry takes another. -/
def takes (entry other : ω) : Bool :=
  isEntry platform (some (platform.optString entry ENTRY_ID []))
    (platform.optLong entry TIMESTAMP (-1)) other

/-- Whether the deletion of an entry takes a line. -/
def matchesShown (entry : ω) (line : List UInt8) : Bool :=
  remove platform (some (platform.optString entry ENTRY_ID []))
    (platform.optLong entry TIMESTAMP (-1)) line

/-- A line that is left as it is: it is not taken for the entry, and is a text in
UTF-8. -/
def Stays (entry : ω) (line : List UInt8) : Prop :=
  matchesShown platform entry line = false ∧ ∃ s, line = utf8 s

/-- No other line is taken for the entry, or would be changed by copying it. -/
def Alone (log : LogDir ν) (file : LogFile ν) (others : List (List UInt8)) (entry : ω) : Prop :=
  (∀ line ∈ others, Stays platform entry line) ∧
    ∀ other ≠ file, ∀ line ∈ linesOf log other, Stays platform entry line

/-- The deletion takes one line from one file and leaves all others as they are.
From the entries that are shown it takes this one; where more are kept than shown,
the next one comes after the others. -/
structure DeletesOne (log : LogDir ν) (file : LogFile ν) (others : List (List UInt8))
    (entry : ω) : Prop where
  lines : ∀ other, linesOf (deleteShown platform log entry) other =
    if other = file then others else linesOf log other
  shown : ∃ rest, (getLog platform log).Perm (entry :: rest) ∧
    (getLog platform (deleteShown platform log entry)).Perm
      (rest ++ ((readingOrder platform log).drop MAX_READ_ENTRIES).take 1)

theorem takes_self (entry : ω) : takes platform entry entry = true := by
  unfold takes isEntry
  dsimp only
  split <;> exact decide_eq_true rfl

theorem matchesShown_of_readEntry {line : List UInt8} {entry other : ω}
    (isEntryOf : readEntry platform line = some other) :
    matchesShown platform entry line = takes platform entry other :=
  remove_of_readEntry platform _ _ isEntryOf

theorem rewritten_eq_iff (line : List UInt8) :
    rewritten platform line = line ↔ ∃ s, line = utf8 s := by
  constructor
  · intro same
    exact ⟨text platform line, same.symm⟩
  · rintro ⟨s, rfl⟩
    rw [rewritten, text, decodeOctets_utf8]

/-- A list is left as it is by a filter and a change of what is kept exactly if
everything is kept and nothing changed. -/
theorem map_filter_eq_self_iff {α : Type} {keep : α → Bool} {change : α → α} {items : List α} :
    (items.filter keep).map change = items ↔
      ∀ item ∈ items, keep item = true ∧ change item = item := by
  induction items with
  | nil => simp
  | cons item items ih =>
      rw [List.forall_mem_cons, ← ih]
      cases kept : keep item with
      | true => simp [kept]
      | false =>
          rw [List.filter_cons_of_neg (by simp [kept])]
          refine iff_of_false (fun same => ?_) (fun both => by cases both.1.1)
          have lengths := congrArg List.length same
          have shorter := List.length_filter_le keep items
          rw [List.length_map, List.length_cons] at lengths
          omega

theorem linesOf_deleteShown (log : LogDir ν) (entry : ω) (file : LogFile ν) :
    linesOf (deleteShown platform log entry) file =
      ((linesOf log file).filter (!matchesShown platform entry ·)).map (rewritten platform) :=
  linesOf_deleteEntry platform _ _ log file

theorem readingOrder_deleteShown (log : LogDir ν) (entry : ω) :
    readingOrder platform (deleteShown platform log entry) =
      (readingOrder platform log).filter (!takes platform entry ·) :=
  readingOrder_deleteEntry platform _ _ log

theorem stays_iff {entry : ω} {line : List UInt8} :
    Stays platform entry line ↔
      (!matchesShown platform entry line) = true ∧ rewritten platform line = line := by
  rw [Stays, rewritten_eq_iff, Bool.not_eq_true']

variable {log : LogDir ν} {file : LogFile ν} {front back : List (List UInt8)} {line : List UInt8}
  {entry : ω}

theorem matchesShown_self (isEntryOf : readEntry platform line = some entry) :
    matchesShown platform entry line = true :=
  (matchesShown_of_readEntry platform isEntryOf).trans (takes_self platform entry)

/-- What the deletion does to the lines of all files. -/
theorem lines_iff_alone (position : linesOf log file = front ++ line :: back)
    (isEntryOf : readEntry platform line = some entry) :
    (∀ other, linesOf (deleteShown platform log entry) other =
        if other = file then front ++ back else linesOf log other) ↔
      Alone platform log file (front ++ back) entry := by
  have taken : (front ++ line :: back).filter (!matchesShown platform entry ·) =
      (front ++ back).filter (!matchesShown platform entry ·) := by
    simp [List.filter_append, matchesShown_self platform isEntryOf]
  have inFile : linesOf (deleteShown platform log entry) file = front ++ back ↔
      ∀ other ∈ front ++ back, Stays platform entry other := by
    rw [linesOf_deleteShown, position, taken, map_filter_eq_self_iff]
    simp only [stays_iff]
  have inOther : ∀ other, linesOf (deleteShown platform log entry) other = linesOf log other ↔
      ∀ line ∈ linesOf log other, Stays platform entry line := by
    intro other
    rw [linesOf_deleteShown, map_filter_eq_self_iff]
    simp only [stays_iff]
  constructor
  · intro lines
    constructor
    · exact inFile.mp ((lines file).trans (if_pos rfl))
    · intro other different
      exact (inOther other).mp ((lines other).trans (if_neg different))
  · rintro ⟨others, files⟩ other
    by_cases same : other = file
    · subst other
      rw [if_pos rfl]
      exact inFile.mpr others
    · rw [if_neg same]
      exact (inOther other).mpr (files other same)

/-- No entry of these is taken. -/
def Spares (entry : ω) (entries : List ω) : Prop :=
  ∀ other ∈ entries, takes platform entry other = false

theorem Spares.append {first second : List ω} (one : Spares platform entry first)
    (other : Spares platform entry second) : Spares platform entry (first ++ second) :=
  List.forall_mem_append.mpr ⟨one, other⟩

/-- The entries of lines that stay are other entries. -/
theorem spares_of_stay {lines : List (List UInt8)}
    (stay : ∀ line ∈ lines, Stays platform entry line) :
    Spares platform entry (lines.filterMap (readEntry platform)).reverse := by
  intro other member
  obtain ⟨line, inLines, isEntryOf⟩ := List.mem_filterMap.mp (List.mem_reverse.mp member)
  exact (matchesShown_of_readEntry platform isEntryOf).symm.trans (stay line inLines).1

/-- Daily files other than the one of the entry hold other entries. -/
theorem spares_daily (alone : Alone platform log file (front ++ back) entry)
    {files : List (Σ _ : ν, Content)} (stored : ∀ other ∈ files, other ∈ log.daily.entries)
    (different : ∀ other ∈ files, LogFile.daily other.1 ≠ file) :
    Spares platform entry
      (files.flatMap fun file => newestEntries platform (some file.2)) := by
  intro other member
  obtain ⟨found, inFiles, inNewest⟩ := List.mem_flatMap.mp member
  refine spares_of_stay platform (fun line inLines => ?_) other inNewest
  have isStored : log.daily.lookup found.1 = some found.2 :=
    AList.mem_lookup_iff.mpr (stored found inFiles)
  refine alone.2 (.daily found.1) (different found inFiles) line ?_
  rw [linesOf, isStored]
  exact inLines

theorem newestEntries_of_lines {content : Option Content}
    (lines : linesOfContent content = front ++ line :: back)
    (isEntryOf : readEntry platform line = some entry) :
    newestEntries platform content =
      (back.filterMap (readEntry platform)).reverse ++
        entry :: (front.filterMap (readEntry platform)).reverse := by
  rw [newestEntries, lines, List.filterMap_append, List.filterMap_cons_some isEntryOf,
    List.reverse_append, List.reverse_cons, List.append_assoc, List.singleton_append]

/-- Around a file of its own name, all daily files have other names. -/
theorem other_names {daily : Table ν Content} {first second : List (Σ _ : ν, Content)} {name : ν}
    {content : Content} (split : byNameReversed daily = first ++ ⟨name, content⟩ :: second) :
    ∀ other ∈ first ++ second, other.1 ≠ name := by
  have distinct : (byNameReversed daily).NodupKeys :=
    (List.perm_nodupKeys (List.mergeSort_perm daily.entries _)).mpr daily.nodupKeys
  rw [split] at distinct
  have apart := (List.perm_nodupKeys List.perm_middle).mp distinct
  intro other member same
  obtain ⟨fresh, _⟩ := List.nodupKeys_cons.mp apart
  have listed := List.mem_keys_of_mem member
  rw [same] at listed
  exact fresh listed

/-- An entry that is alone is read once. -/
theorem readingOrder_of_alone (position : linesOf log file = front ++ line :: back)
    (isEntryOf : readEntry platform line = some entry)
    (alone : Alone platform log file (front ++ back) entry) :
    ∃ newer older, readingOrder platform log = newer ++ entry :: older ∧
      Spares platform entry (newer ++ older) := by
  have inBack : Spares platform entry (back.filterMap (readEntry platform)).reverse :=
    spares_of_stay platform fun line inLines => alone.1 line (List.mem_append_right front inLines)
  have inFront : Spares platform entry (front.filterMap (readEntry platform)).reverse :=
    spares_of_stay platform fun line inLines => alone.1 line (List.mem_append_left back inLines)
  have stored : ∀ other ∈ byNameReversed log.daily, other ∈ log.daily.entries :=
    fun other member => (List.mergeSort_perm _ _).mem_iff.mp member
  cases file with
  | legacy =>
      have inDaily := spares_daily platform alone stored fun other _ same => by cases same
      refine ⟨(byNameReversed log.daily).flatMap
          (fun file => newestEntries platform (some file.2)) ++
            (back.filterMap (readEntry platform)).reverse,
        (front.filterMap (readEntry platform)).reverse, ?_, ?_⟩
      · rw [readingOrder, newestEntries_of_lines platform position isEntryOf, List.append_assoc]
      · exact (inDaily.append platform inBack).append platform inFront
  | daily name =>
      cases known : log.daily.lookup name with
      | none =>
          rw [linesOf, known] at position
          cases (List.append_eq_nil_iff.mp position.symm).2
      | some content =>
          have inTable : ⟨name, content⟩ ∈ byNameReversed log.daily :=
            (List.mergeSort_perm _ _).mem_iff.mpr (AList.mem_lookup_iff.mp known)
          obtain ⟨first, second, split⟩ := List.append_of_mem inTable
          rw [linesOf, known] at position
          rw [split] at stored
          have different : ∀ other ∈ first ++ second, LogFile.daily other.1 ≠ .daily name :=
            fun other member same => other_names split other member (LogFile.daily.inj same)
          have inFirst := spares_daily platform alone
            (fun other member => stored other (List.mem_append_left _ member))
            fun other member => different other (List.mem_append_left second member)
          have inSecond := spares_daily platform alone
            (fun other member => stored other (List.mem_append_right first
              (List.mem_cons_of_mem _ member)))
            fun other member => different other (List.mem_append_right first member)
          have inLegacy : Spares platform entry (newestEntries platform log.legacy) :=
            spares_of_stay platform (alone.2 .legacy fun same => by cases same)
          refine ⟨first.flatMap (fun file => newestEntries platform (some file.2)) ++
              (back.filterMap (readEntry platform)).reverse,
            (front.filterMap (readEntry platform)).reverse ++
              (second.flatMap (fun file => newestEntries platform (some file.2)) ++
                newestEntries platform log.legacy), ?_, ?_⟩
          · rw [readingOrder, split, List.flatMap_append, List.flatMap_cons,
              newestEntries_of_lines platform position isEntryOf]
            simp only [List.append_assoc, List.cons_append]
          · exact (inFirst.append platform inBack).append platform
              (inFront.append platform (inSecond.append platform inLegacy))

/-- One entry less: of those that fit, it makes room for the next. -/
theorem take_without {α : Type} {limit : Nat} {newer older : List α} (entry : α)
    (shown : newer.length < limit) :
    ∃ rest, (newer ++ entry :: older).take limit = newer ++ entry :: rest ∧
      (newer ++ older).take limit =
        newer ++ rest ++ ((newer ++ entry :: older).drop limit).take 1 := by
  obtain ⟨room, rfl⟩ := Nat.exists_eq_add_of_lt shown
  have left : newer.length + room + 1 - newer.length = room + 1 := by omega
  refine ⟨older.take room, ?_, ?_⟩
  · rw [List.take_append, left, List.take_succ_cons, List.take_of_length_le (by omega)]
  · have next : older.take (room + 1) = older.take room ++ (older.drop room).take 1 :=
      List.take_add
    rw [List.take_append, left, List.drop_append, left, List.drop_succ_cons,
      List.drop_of_length_le (by omega), List.nil_append, next,
      List.take_of_length_le (by omega), List.append_assoc]

/-- An entry of the log is deleted, and nothing else, exactly if no other line is
taken for it and all others are texts in UTF-8. -/
theorem deletesOne_iff (position : linesOf log file = front ++ line :: back)
    (isEntryOf : readEntry platform line = some entry) (shown : entry ∈ getLog platform log) :
    DeletesOne platform log file (front ++ back) entry ↔
      Alone platform log file (front ++ back) entry := by
  constructor
  · intro deletes
    exact (lines_iff_alone platform position isEntryOf).mp deletes.lines
  · intro alone
    refine ⟨(lines_iff_alone platform position isEntryOf).mpr alone, ?_⟩
    obtain ⟨newer, older, order, others⟩ := readingOrder_of_alone platform position isEntryOf alone
    have inOrder := (getLog_perm platform log).mem_iff.mp shown
    have fits : newer.length < MAX_READ_ENTRIES := by
      by_contra full
      rw [order, List.take_append_of_le_length (Nat.le_of_not_lt full)] at inOrder
      have isOther := others entry (List.mem_append_left older (List.mem_of_mem_take inOrder))
      cases (takes_self platform entry).symm.trans isOther
    obtain ⟨rest, before, after⟩ := @take_without _ _ newer older entry fits
    have left : readingOrder platform (deleteShown platform log entry) = newer ++ older := by
      rw [readingOrder_deleteShown, order, List.filter_append,
        List.filter_cons_of_neg (by simp [takes_self]), ← List.filter_append,
        List.filter_eq_self]
      intro other member
      rw [others other member]
      rfl
    refine ⟨newer ++ rest, ?_, ?_⟩
    · have perm := getLog_perm platform log
      rw [order, before] at perm
      exact perm.trans List.perm_middle
    · have perm := getLog_perm platform (deleteShown platform log entry)
      rw [left, after, ← order] at perm
      exact perm

end Exact

/-! ## The file of older versions -/

/-- A platform that knows the JSON text of some objects. -/
def knownObjects (objects : List (JavaString × Fields)) : Platform Fields where
  malformedLength _ := 1
  jsonObject line := (objects.find? fun known => known.1 = line).map Prod.snd
  optString entry name default :=
    match Json.get? entry (String.ofList name) with
    | some (.string value) => value
    | _ => default
  optLong entry name default :=
    match Json.get? entry (String.ofList name) with
    | some (.number value) => value
    | _ => default

/-- Older versions wrote no ids. -/
def oldEntry (title : JavaString) : JavaString × Fields :=
  ("\x7b\"timestamp\":1000,\"title\":\"".toList ++ title ++ "\"\x7d".toList,
    [("timestamp", .number 1000), ("title", .string title)])

def newEntry (id : JavaString) : JavaString × Fields :=
  ("\x7b\"id\":\"".toList ++ id ++ "\",\"timestamp\":1000\x7d".toList,
    [("id", .string id), ("timestamp", .number 1000)])

/-- A log with the file of older versions only. -/
def oldLog (objects : List (JavaString × Fields)) : LogDir JavaString where
  daily := ∅
  legacy := some (objects.flatMap fun object => utf8 object.1 ++ [lineFeed])

theorem readEntry_utf8 {ω : Type} (platform : Platform ω) {s : JavaString}
    (notBlank : s.all (· ≤ ' ') = false) : readEntry platform (utf8 s) = platform.jsonObject s := by
  rw [readEntry, text, decodeOctets_utf8, notBlank, if_neg Bool.false_ne_true]

/-- A file that is not too long is shown as a whole. -/
theorem mem_getLog_of_legacy {ω : Type} (platform : Platform ω) {log : LogDir JavaString}
    (noDaily : log.daily = ∅) (few : (linesOf log .legacy).length ≤ MAX_READ_ENTRIES)
    {line : List UInt8} {entry : ω} (member : line ∈ linesOf log .legacy)
    (isEntryOf : readEntry platform line = some entry) : entry ∈ getLog platform log := by
  have nothing : byNameReversed log.daily = [] := by
    rw [noDaily]
    exact List.mergeSort_nil
  have whole : (newestEntries platform log.legacy).length ≤ MAX_READ_ENTRIES := by
    rw [newestEntries, List.length_reverse]
    exact (List.length_filterMap_le _ _).trans few
  rw [(getLog_perm platform log).mem_iff, readingOrder, nothing, List.flatMap_nil,
    List.nil_append, List.take_of_length_le whole]
  exact List.mem_reverse.mpr (List.mem_filterMap.mpr ⟨line, member, isEntryOf⟩)

/-- Of two entries with their ids one is deleted, also in the same millisecond. -/
theorem entryWithId_deleted :
    DeletesOne (knownObjects [newEntry ['a'], newEntry ['b']])
      (oldLog [newEntry ['a'], newEntry ['b']]) .legacy
      ([] ++ [utf8 (newEntry ['b']).1]) (newEntry ['a']).2 := by
  have lines : linesOf (oldLog [newEntry ['a'], newEntry ['b']]) .legacy =
      [] ++ utf8 (newEntry ['a']).1 :: [utf8 (newEntry ['b']).1] := by
    decide
  have isEntryOf : readEntry (knownObjects [newEntry ['a'], newEntry ['b']])
      (utf8 (newEntry ['a']).1) = some (newEntry ['a']).2 :=
    (readEntry_utf8 _ (by decide)).trans rfl
  have shown := mem_getLog_of_legacy (knownObjects [newEntry ['a'], newEntry ['b']]) rfl
    (by rw [lines]; decide) (by rw [lines]; exact List.mem_cons_self) isEntryOf
  refine (deletesOne_iff _ lines isEntryOf shown).mpr ⟨?_, ?_⟩
  · intro line member
    rw [List.nil_append, List.mem_singleton] at member
    subst member
    exact ⟨by decide, (newEntry ['b']).1, rfl⟩
  · intro other different line member
    cases other with
    | daily name => cases member
    | legacy => exact absurd rfl different

/-- One of two entries of the same millisecond is swiped away. -/
theorem entryWithoutId_deletes_both :
    ¬∀ (platform : Platform Fields) (log : LogDir JavaString) (file : LogFile JavaString)
        (front back : List (List UInt8)) (line : List UInt8) (entry : Fields),
      linesOf log file = front ++ line :: back → readEntry platform line = some entry →
        entry ∈ getLog platform log → DeletesOne platform log file (front ++ back) entry := by
  intro deletes
  have lines : linesOf (oldLog [oldEntry ['a'], oldEntry ['b']]) .legacy =
      [] ++ utf8 (oldEntry ['a']).1 :: [utf8 (oldEntry ['b']).1] := by
    decide
  have isEntryOf : readEntry (knownObjects [oldEntry ['a'], oldEntry ['b']])
      (utf8 (oldEntry ['a']).1) = some (oldEntry ['a']).2 :=
    (readEntry_utf8 _ (by decide)).trans rfl
  have shown := mem_getLog_of_legacy (knownObjects [oldEntry ['a'], oldEntry ['b']]) rfl
    (by rw [lines]; decide) (by rw [lines]; exact List.mem_cons_self) isEntryOf
  have left := (deletes _ _ .legacy _ _ _ _ lines isEntryOf shown).lines .legacy
  revert left
  decide

end RoundSync.SyncLog.Files
