import Mathlib.Algebra.BigOperators.Group.List.Basic
import Mathlib.Data.List.Sort
import RoundSync.Thumbnails.ArchiveImport
import Mathlib.Algebra.GroupWithZero.Nat
import Mathlib.Algebra.Ring.Int.Defs

/-!
# What a trim deletes

`ThumbnailRepository.trimDiskCache` on a directory of files with their lengths
and modification times: the files are counted, sorted by age and deleted until
the total is down to its target.  The total is a `long` that saturates, and a
saturated total no longer is the size of the files; `trimDiskCache_minimal_iff`
says when that shows.
-/

namespace RoundSync.Thumbnails.DiskTrims

open RoundSync.Text

/-! ## Directories and stores -/

structure DiskEntry where
  name : JavaString
  isFile : Bool
  length : Int
  lastModified : Int
  deriving DecidableEq

/-- A directory has one entry of each name. -/
structure Directory where
  entries : List DiskEntry
  distinct : (entries.map DiskEntry.name).Nodup

structure CacheStatistics where
  thumbnailCount : Nat
  totalBytes : Int
  deriving DecidableEq

/-- A store with its two preferences in megabytes. -/
structure CacheStore where
  directory : Directory
  configuredMaximumMb : Int
  configuredTargetMb : Int
  statisticsMutationGeneration : Nat
  cachedStatistics : Option CacheStatistics
  publishedStatisticsGeneration : Int

/-- What happens to the files during a trim: an entry may be gone when the loop
comes to it, and a deletion may fail. -/
structure Meanwhile where
  vanishes : DiskEntry → Bool
  deletes : DiskEntry → Bool

/-- Nothing else touches the files, and every deletion succeeds. -/
def Meanwhile.quiet : Meanwhile :=
  ⟨fun _ => false, fun _ => true⟩

/-! ## The trim -/

/-- `Long.MAX_VALUE`. -/
def maxLong : Int := 2 ^ 63 - 1

def bytesPerMb : Int := 1024 * 1024

def saturatedAdd (left right : Int) : Int :=
  if right ≤ 0 then left
  else if maxLong - left < right then maxLong
  else left + right

def megabytesToBytes (megabytes : Int) : Int :=
  min megabytes (maxLong / bytesPerMb) * bytesPerMb

def getDiskCacheMaxBytes (store : CacheStore) : Int :=
  megabytesToBytes (max 1 store.configuredMaximumMb)

def getDiskCacheTrimTargetBytes (store : CacheStore) (maximumBytes : Int) : Int :=
  min maximumBytes (megabytesToBytes (max 1 store.configuredTargetMb))

/-- `listFiles` with the pattern of thumbnail names. -/
def CacheStore.listFiles (store : CacheStore) : List DiskEntry :=
  store.directory.entries.filter fun entry => Archives.isThumbnailName entry.name

/-- The counting loop. -/
def measure (files : List DiskEntry) : CacheStatistics :=
  files.foldl (fun counted file =>
    if file.isFile then
      ⟨counted.thumbnailCount + 1, saturatedAdd counted.totalBytes (max 0 file.length)⟩
    else counted) ⟨0, 0⟩

/-- `Arrays.sort` by `lastModified`; it is stable. -/
def oldestFirst (files : List DiskEntry) : List DiskEntry :=
  files.insertionSort fun left right => left.lastModified ≤ right.lastModified

/-- The deleting loop: the deleted files, and the statistics after it. -/
def trimLoop (meanwhile : Meanwhile) (trimTargetBytes : Int) :
    List DiskEntry → CacheStatistics → List DiskEntry × CacheStatistics
  | [], statistics => ([], statistics)
  | file :: files, statistics =>
      if file.isFile ∧ meanwhile.vanishes file = false then
        let length := max 0 file.length
        let (removed, statistics) :=
          if meanwhile.deletes file then
            ([file], ⟨statistics.thumbnailCount - 1, max 0 (statistics.totalBytes - length)⟩)
          else ([], statistics)
        if statistics.totalBytes ≤ trimTargetBytes then (removed, statistics)
        else
          let (others, statistics) := trimLoop meanwhile trimTargetBytes files statistics
          (removed ++ others, statistics)
      else trimLoop meanwhile trimTargetBytes files statistics

def publishCacheStatistics (store : CacheStore) (statistics : CacheStatistics)
    (generation : Nat) : CacheStore :=
  if generation ≠ store.statisticsMutationGeneration then store
  else
    { store with
      cachedStatistics := some statistics
      publishedStatisticsGeneration := generation }

/-- The deleted files and the statistics of a trim. -/
def trimmed (meanwhile : Meanwhile) (store : CacheStore) : List DiskEntry × CacheStatistics :=
  let files := store.listFiles
  let maximumBytes := getDiskCacheMaxBytes store
  let trimTargetBytes := getDiskCacheTrimTargetBytes store maximumBytes
  let counted := measure files
  if maximumBytes < counted.totalBytes then
    trimLoop meanwhile trimTargetBytes (oldestFirst files) counted
  else ([], counted)

/-- The directory without some of its entries. -/
def Directory.without (directory : Directory) (gone : DiskEntry → Bool) : Directory where
  entries := directory.entries.filter (!gone ·)
  distinct := (List.filter_sublist.map _).nodup directory.distinct

/-- `trimDiskCache`. -/
def trimDiskCache (meanwhile : Meanwhile) (store : CacheStore) : CacheStore :=
  let (removed, statistics) := trimmed meanwhile store
  let generation := store.statisticsMutationGeneration + if removed ≠ [] then 1 else 0
  publishCacheStatistics
    { store with
      directory := store.directory.without fun entry =>
        meanwhile.vanishes entry || removed.contains entry
      statisticsMutationGeneration := generation }
    statistics generation

/-! ## Sizes -/

/-- The size that a file counts with. -/
def DiskEntry.size (file : DiskEntry) : Int :=
  max 0 file.length

def bytes (files : List DiskEntry) : Int :=
  (files.map DiskEntry.size).sum

/-- The thumbnails of a store. -/
def CacheStore.thumbnails (store : CacheStore) : List DiskEntry :=
  store.listFiles.filter DiskEntry.isFile

def statisticsOf (files : List DiskEntry) : CacheStatistics :=
  ⟨files.length, bytes files⟩

@[simp]
theorem bytes_nil : bytes [] = 0 :=
  rfl

@[simp]
theorem bytes_cons (file : DiskEntry) (files : List DiskEntry) :
    bytes (file :: files) = file.size + bytes files := by
  simp [bytes]

@[simp]
theorem bytes_append (first second : List DiskEntry) :
    bytes (first ++ second) = bytes first + bytes second := by
  simp [bytes]

theorem size_nonneg (file : DiskEntry) : 0 ≤ file.size :=
  Int.le_max_left 0 file.length

theorem bytes_nonneg (files : List DiskEntry) : 0 ≤ bytes files := by
  induction files with
  | nil => exact Int.le_refl 0
  | cons file files ih =>
      have size := size_nonneg file
      rw [bytes_cons]
      omega

theorem bytes_perm {first second : List DiskEntry} (perm : first.Perm second) :
    bytes first = bytes second :=
  (perm.map DiskEntry.size).sum_eq

theorem bytes_take_add_drop (files : List DiskEntry) (count : Nat) :
    bytes (files.take count) + bytes (files.drop count) = bytes files := by
  rw [← bytes_append, List.take_append_drop]

theorem saturatedAdd_eq {left right : Int} (right_nonneg : 0 ≤ right) (left_le : left ≤ maxLong) :
    saturatedAdd left right = min maxLong (left + right) := by
  unfold saturatedAdd
  split
  · omega
  · split <;> omega

/-- The counting loop finds the number of files and their saturated size. -/
theorem measure_eq (files : List DiskEntry) :
    measure files =
      ⟨(files.filter DiskEntry.isFile).length, min maxLong (bytes (files.filter DiskEntry.isFile))⟩ := by
  have counts : ∀ counted : CacheStatistics, 0 ≤ counted.totalBytes →
      counted.totalBytes ≤ maxLong →
      files.foldl (fun counted file =>
        if file.isFile then
          ⟨counted.thumbnailCount + 1, saturatedAdd counted.totalBytes (max 0 file.length)⟩
        else counted) counted =
          ⟨counted.thumbnailCount + (files.filter DiskEntry.isFile).length,
            min maxLong (counted.totalBytes + bytes (files.filter DiskEntry.isFile))⟩ := by
    induction files with
    | nil =>
        intro counted _ total_le
        simp [min_eq_right total_le]
    | cons file files ih =>
        intro counted total_nonneg total_le
        have size := size_nonneg file
        have others := bytes_nonneg (files.filter DiskEntry.isFile)
        rw [List.foldl_cons]
        cases regular : file.isFile with
        | false =>
            rw [if_neg (by simp), List.filter_cons_of_neg (by simp [regular])]
            exact ih counted total_nonneg total_le
        | true =>
            have added : saturatedAdd counted.totalBytes (max 0 file.length) =
                min maxLong (counted.totalBytes + file.size) :=
              saturatedAdd_eq size total_le
            have longNonneg : 0 ≤ maxLong := by decide
            rw [if_pos rfl, List.filter_cons_of_pos regular, added,
              ih _ (le_min longNonneg (by omega)) (min_le_left _ _), List.length_cons, bytes_cons]
            congr 1
            · dsimp only
              omega
            · dsimp only
              omega
  have longNonneg : 0 ≤ maxLong := by decide
  have counted := counts ⟨0, 0⟩ (le_refl 0) longNonneg
  simpa [measure] using counted

/-- The limit fits into a `long` with room to spare. -/
theorem megabytesToBytes_lt (megabytes : Int) : megabytesToBytes megabytes < maxLong := by
  have capped : min megabytes (maxLong / bytesPerMb) ≤ maxLong / bytesPerMb := min_le_right _ _
  have room : maxLong / bytesPerMb * bytesPerMb < maxLong := by decide
  have positive : 0 ≤ bytesPerMb := by decide
  calc
    megabytesToBytes megabytes ≤ maxLong / bytesPerMb * bytesPerMb :=
      Int.mul_le_mul_of_nonneg_right capped positive
    _ < maxLong := room

theorem megabytesToBytes_nonneg {megabytes : Int} (nonneg : 0 ≤ megabytes) :
    0 ≤ megabytesToBytes megabytes := by
  have room : 0 ≤ maxLong / bytesPerMb := by decide
  have positive : 0 ≤ bytesPerMb := by decide
  exact Int.mul_nonneg (le_min nonneg room) positive

theorem getDiskCacheTrimTargetBytes_nonneg (store : CacheStore) :
    0 ≤ getDiskCacheTrimTargetBytes store (getDiskCacheMaxBytes store) := by
  have one : ∀ configured : Int, 0 ≤ max 1 configured := by
    intro configured
    omega
  exact le_min (megabytesToBytes_nonneg (one _)) (megabytesToBytes_nonneg (one _))

/-! ## The deleting loop -/

/-- The entries that the loop takes up. -/
def Meanwhile.meets (meanwhile : Meanwhile) (file : DiskEntry) : Bool :=
  file.isFile && !meanwhile.vanishes file

/-- Directories and vanished files are passed by. -/
theorem trimLoop_filter (meanwhile : Meanwhile) (target : Int) (files : List DiskEntry)
    (statistics : CacheStatistics) :
    trimLoop meanwhile target files statistics =
      trimLoop meanwhile target (files.filter meanwhile.meets) statistics := by
  induction files generalizing statistics with
  | nil => rfl
  | cons file files ih =>
      by_cases met : file.isFile ∧ meanwhile.vanishes file = false
      · have kept : meanwhile.meets file = true := by simp [Meanwhile.meets, met]
        rw [List.filter_cons_of_pos kept, trimLoop, trimLoop, if_pos met, if_pos met]
        simp only [ih]
      · have passed : ¬meanwhile.meets file = true := by
          simpa [Meanwhile.meets] using met
        rw [List.filter_cons_of_neg passed, trimLoop, if_neg met, ih]

/-- The loop on files that are all there and can be deleted: it deletes the
shortest prefix whose deletion brings the running total down to the target, or
everything. -/
theorem trimLoop_quiet {target : Int} {files : List DiskEntry} {statistics : CacheStatistics}
    (regular : ∀ file ∈ files, file.isFile = true) (above : target < statistics.totalBytes)
    (target_nonneg : 0 ≤ target) :
    ∃ count ≤ files.length,
      trimLoop Meanwhile.quiet target files statistics =
        (files.take count, ⟨statistics.thumbnailCount - count,
          max 0 (statistics.totalBytes - bytes (files.take count))⟩) ∧
      (∀ fewer < count, target < statistics.totalBytes - bytes (files.take fewer)) ∧
      (statistics.totalBytes - bytes (files.take count) ≤ target ∨ count = files.length) := by
  induction files generalizing statistics with
  | nil =>
      refine ⟨0, le_refl 0, ?_, nofun, .inr rfl⟩
      have nonneg : 0 ≤ statistics.totalBytes := by omega
      simp [trimLoop, max_eq_right nonneg]
  | cons file files ih =>
      have isFile := regular file List.mem_cons_self
      have size := size_nonneg file
      have met : file.isFile ∧ Meanwhile.quiet.vanishes file = false := ⟨isFile, rfl⟩
      rw [trimLoop, if_pos met]
      simp only [Meanwhile.quiet, if_true]
      have same : max 0 file.length = file.size := rfl
      rw [same]
      by_cases reached : max 0 (statistics.totalBytes - file.size) ≤ target
      · rw [if_pos reached]
        refine ⟨1, by simp, by simp, ?_, .inl ?_⟩
        · intro fewer less
          have none : fewer = 0 := by omega
          simpa [none] using above
        · simp only [List.take_succ_cons, List.take_zero, bytes_cons, bytes_nil]
          omega
      · rw [if_neg reached]
        have left : max 0 (statistics.totalBytes - file.size) =
            statistics.totalBytes - file.size := by
          omega
        obtain ⟨count, count_le, result, minimal, stops⟩ :=
          @ih ⟨statistics.thumbnailCount - 1, max 0 (statistics.totalBytes - file.size)⟩
            (fun other member => regular other (List.mem_cons_of_mem _ member))
            (by dsimp only; omega)
        simp only [left] at minimal stops
        rw [Meanwhile.quiet] at result
        rw [result]
        refine ⟨count + 1, by simpa using count_le, ?_, ?_, ?_⟩
        · have fewerLeft : statistics.thumbnailCount - 1 - count =
              statistics.thumbnailCount - (count + 1) := by
            omega
          simp only [List.take_succ_cons, bytes_cons, left, List.singleton_append, fewerLeft,
            Int.sub_sub]
        · intro fewer less
          cases fewer with
          | zero => simpa using above
          | succ fewer =>
              have before := minimal fewer (by omega)
              simp only [List.take_succ_cons, bytes_cons]
              omega
        · rcases stops with down | all
          · left
            simp only [List.take_succ_cons, bytes_cons]
            omega
          · right
            simp [all]

/-- The books of the loop, whatever happens meanwhile. -/
theorem trimLoop_accounts (meanwhile : Meanwhile) (target : Int) (files : List DiskEntry)
    (statistics : CacheStatistics) :
    (trimLoop meanwhile target files statistics).1.Sublist (files.filter meanwhile.meets) ∧
      (trimLoop meanwhile target files statistics).2.thumbnailCount =
        statistics.thumbnailCount - (trimLoop meanwhile target files statistics).1.length := by
  rw [trimLoop_filter]
  generalize taken : files.filter meanwhile.meets = list
  have met : ∀ file ∈ list, meanwhile.meets file = true := by
    intro file member
    rw [← taken] at member
    exact (List.mem_filter.mp member).2
  clear taken files
  induction list generalizing statistics with
  | nil => exact ⟨List.Sublist.refl [], rfl⟩
  | cons file list ih =>
      have present : file.isFile ∧ meanwhile.vanishes file = false := by
        simpa [Meanwhile.meets] using met file List.mem_cons_self
      have others : ∀ other ∈ list, meanwhile.meets other = true :=
        fun other member => met other (List.mem_cons_of_mem _ member)
      rw [trimLoop, if_pos present]
      cases deleted : meanwhile.deletes file with
      | false =>
          simp only [Bool.false_eq_true, if_false, List.nil_append]
          split
          · exact ⟨List.nil_sublist _, rfl⟩
          · obtain ⟨sublist, count⟩ := ih statistics others
            exact ⟨sublist.cons file, count⟩
      | true =>
          simp only [if_true, List.singleton_append]
          split
          · exact ⟨List.singleton_sublist.mpr List.mem_cons_self, rfl⟩
          · obtain ⟨sublist, count⟩ := ih ⟨statistics.thumbnailCount - 1,
              max 0 (statistics.totalBytes - max 0 file.length)⟩ others
            refine ⟨sublist.cons_cons file, ?_⟩
            rw [count, List.length_cons]
            dsimp only
            omega

/-! ## The trim of a store -/

/-- The thumbnails in the order in which the loop meets them. -/
def CacheStore.oldestThumbnails (store : CacheStore) : List DiskEntry :=
  (oldestFirst store.listFiles).filter DiskEntry.isFile

theorem oldestThumbnails_perm (store : CacheStore) :
    store.oldestThumbnails.Perm store.thumbnails :=
  (List.perm_insertionSort _ _).filter _

theorem oldestThumbnails_sorted (store : CacheStore) :
    store.oldestThumbnails.Pairwise fun older newer => older.lastModified ≤ newer.lastModified := by
  have total : Std.Total fun left right : DiskEntry => left.lastModified ≤ right.lastModified :=
    ⟨fun left right => le_total left.lastModified right.lastModified⟩
  have trans : IsTrans DiskEntry fun left right => left.lastModified ≤ right.lastModified :=
    ⟨fun _ _ _ => le_trans⟩
  exact (List.pairwise_insertionSort _ store.listFiles).filter _

theorem nodup_thumbnails (store : CacheStore) : store.thumbnails.Nodup :=
  ((List.Nodup.of_map _ store.directory.distinct).filter _).filter _

theorem thumbnails_trimDiskCache (meanwhile : Meanwhile) (store : CacheStore) :
    (trimDiskCache meanwhile store).thumbnails =
      store.thumbnails.filter fun entry =>
        !(meanwhile.vanishes entry || (trimmed meanwhile store).1.contains entry) := by
  unfold trimDiskCache publishCacheStatistics
  dsimp only
  rw [if_neg (by simp)]
  simp only [CacheStore.thumbnails, CacheStore.listFiles, Directory.without, List.filter_filter]
  congr 1
  funext entry
  ac_rfl

theorem cachedStatistics_trimDiskCache (meanwhile : Meanwhile) (store : CacheStore) :
    (trimDiskCache meanwhile store).cachedStatistics = some (trimmed meanwhile store).2 := by
  unfold trimDiskCache publishCacheStatistics
  dsimp only
  rw [if_neg (by simp)]

/-- A trim within the limit, and a trim beyond it. -/
theorem trimmed_quiet (store : CacheStore) :
    let target := getDiskCacheTrimTargetBytes store (getDiskCacheMaxBytes store)
    let counted := min maxLong (bytes store.thumbnails)
    bytes store.thumbnails ≤ getDiskCacheMaxBytes store ∧
        trimmed .quiet store = ([], statisticsOf store.thumbnails) ∨
      getDiskCacheMaxBytes store < bytes store.thumbnails ∧
        ∃ count ≤ store.thumbnails.length,
          trimmed .quiet store = (store.oldestThumbnails.take count,
            ⟨store.thumbnails.length - count,
              max 0 (counted - bytes (store.oldestThumbnails.take count))⟩) ∧
          (∀ fewer < count, target < counted - bytes (store.oldestThumbnails.take fewer)) ∧
          counted - bytes (store.oldestThumbnails.take count) ≤ target := by
  intro target counted
  have limit : getDiskCacheMaxBytes store < maxLong := megabytesToBytes_lt _
  have target_nonneg : 0 ≤ target := getDiskCacheTrimTargetBytes_nonneg store
  have target_le : target ≤ getDiskCacheMaxBytes store := min_le_left _ _
  have measured : measure store.listFiles = ⟨store.thumbnails.length, counted⟩ := measure_eq _
  have perm := oldestThumbnails_perm store
  unfold trimmed
  dsimp only
  rw [measured]
  by_cases within : bytes store.thumbnails ≤ getDiskCacheMaxBytes store
  · left
    have whole : counted = bytes store.thumbnails := min_eq_right (by omega)
    rw [if_neg (by dsimp only; omega), whole]
    exact ⟨within, rfl⟩
  · right
    have above : getDiskCacheMaxBytes store < counted := lt_min limit (by omega)
    have allFiles : ∀ file ∈ store.oldestThumbnails, file.isFile = true :=
      fun file member => (List.mem_filter.mp member).2
    have met : (oldestFirst store.listFiles).filter Meanwhile.quiet.meets =
        store.oldestThumbnails := by
      have meets : Meanwhile.quiet.meets = DiskEntry.isFile :=
        funext fun file => Bool.and_true file.isFile
      rw [meets, CacheStore.oldestThumbnails]
    obtain ⟨count, count_le, result, minimal, stops⟩ :=
      @trimLoop_quiet target store.oldestThumbnails ⟨store.thumbnails.length, counted⟩ allFiles
        (by dsimp only; omega) target_nonneg
    rw [if_pos above, trimLoop_filter, met]
    refine ⟨by omega, count, by rw [← perm.length_eq]; exact count_le, result, minimal, ?_⟩
    rcases stops with down | all
    · exact down
    · have everything : bytes (store.oldestThumbnails.take count) = bytes store.thumbnails := by
        rw [all, List.take_length, bytes_perm perm]
      have counted_le : counted ≤ bytes store.thumbnails := min_le_right _ _
      omega

/-! ## Minimal trims -/

/-- What is left after a trim is what the loop did not come to. -/
theorem survivors_perm {store : CacheStore} {count : Nat}
    (removed : (trimmed .quiet store).1 = store.oldestThumbnails.take count) :
    (trimDiskCache .quiet store).thumbnails.Perm (store.oldestThumbnails.drop count) := by
  have perm := oldestThumbnails_perm store
  have distinct : (store.oldestThumbnails.take count ++ store.oldestThumbnails.drop count).Nodup := by
    rw [List.take_append_drop]
    exact perm.nodup_iff.mpr (nodup_thumbnails store)
  have apart := List.disjoint_of_nodup_append distinct
  rw [thumbnails_trimDiskCache, removed]
  simp only [Meanwhile.quiet, Bool.false_or]
  refine (perm.symm.filter _).trans ?_
  conv_lhs => rw [← List.take_append_drop count store.oldestThumbnails, List.filter_append]
  rw [List.filter_eq_nil_iff.mpr, List.nil_append, List.filter_eq_self.mpr]
  · intro file kept
    simpa using fun gone => apart gone kept
  · intro file gone
    simpa using gone

/-- A trim that deletes old thumbnails only, and none within the limit. -/
structure OrderlyTrim (before after : CacheStore) : Prop where
  within : bytes before.thumbnails ≤ getDiskCacheMaxBytes before →
    after.directory.entries = before.directory.entries
  oldest : ∀ gone ∈ before.thumbnails, gone ∉ after.thumbnails →
    ∀ kept ∈ after.thumbnails, gone.lastModified ≤ kept.lastModified
  others : ∀ entry, entry ∈ after.directory.entries ↔
    entry ∈ before.directory.entries ∧ (entry ∈ before.thumbnails → entry ∈ after.thumbnails)

/-- The number of files to delete in the given order so that the rest is down to
the target. -/
structure ShortestPrefix (target : Int) (order : List DiskEntry) (count : Nat) : Prop where
  enough : bytes (order.drop count) ≤ target
  needed : ∀ fewer < count, target < bytes (order.drop fewer)

/-- A trim as it is meant: beyond the limit it deletes the shortest sufficient
prefix of the files in order of age, and it publishes what is left. -/
structure MinimalTrim (before after : CacheStore) : Prop extends OrderlyTrim before after where
  shortest : getDiskCacheMaxBytes before < bytes before.thumbnails →
    ∃ order count, order.Perm before.thumbnails ∧
      order.Pairwise (fun older newer => older.lastModified ≤ newer.lastModified) ∧
      ShortestPrefix (getDiskCacheTrimTargetBytes before (getDiskCacheMaxBytes before)) order
        count ∧
      after.thumbnails.Perm (order.drop count)
  published : after.cachedStatistics = some (statisticsOf after.thumbnails)

/-- The sizes sum up to a `long`, or the saturated total stays above the target
as long as the files left are not empty. -/
def CountsExactly (store : CacheStore) : Prop :=
  bytes store.thumbnails ≤ maxLong ∨
    ∀ count, 0 < bytes (store.oldestThumbnails.drop count) →
      getDiskCacheTrimTargetBytes store (getDiskCacheMaxBytes store) +
        bytes (store.oldestThumbnails.take count) < maxLong

theorem removed_thumbnails (store : CacheStore) :
    ∃ count, (trimmed .quiet store).1 = store.oldestThumbnails.take count := by
  rcases trimmed_quiet store with ⟨_, result⟩ | ⟨_, count, _, result, _⟩
  · exact ⟨0, by rw [result, List.take_zero]⟩
  · exact ⟨count, by rw [result]⟩

theorem entries_trimDiskCache (meanwhile : Meanwhile) (store : CacheStore) :
    (trimDiskCache meanwhile store).directory.entries =
      store.directory.entries.filter fun entry =>
        !(meanwhile.vanishes entry || (trimmed meanwhile store).1.contains entry) := by
  unfold trimDiskCache publishCacheStatistics
  dsimp only
  rw [if_neg (by simp)]
  rfl

/-- Every trim is orderly. -/
theorem trimDiskCache_orderly (store : CacheStore) :
    OrderlyTrim store (trimDiskCache .quiet store) := by
  obtain ⟨count, removed⟩ := removed_thumbnails store
  have left := survivors_perm removed
  have perm := oldestThumbnails_perm store
  have sorted := oldestThumbnails_sorted store
  rw [← List.take_append_drop count store.oldestThumbnails, List.pairwise_append] at sorted
  constructor
  · intro within
    rcases trimmed_quiet store with ⟨_, result⟩ | ⟨beyond, _⟩
    · rw [entries_trimDiskCache, result]
      simp [Meanwhile.quiet]
    · omega
  · intro gone before absent kept remains
    have place : gone ∈ store.oldestThumbnails.take count := by
      have listed := perm.mem_iff.mpr before
      rw [← List.take_append_drop count store.oldestThumbnails, List.mem_append] at listed
      rcases listed with taken | dropped
      · exact taken
      · exact absurd (left.mem_iff.mpr dropped) absent
    exact sorted.2.2 gone place kept (left.mem_iff.mp remains)
  · intro entry
    have onlyThumbnails : ∀ gone ∈ store.oldestThumbnails.take count, gone ∈ store.thumbnails :=
      fun gone member => perm.mem_iff.mp (List.mem_of_mem_take member)
    rw [entries_trimDiskCache, thumbnails_trimDiskCache, removed]
    simp only [Meanwhile.quiet, Bool.false_or, List.mem_filter, Bool.not_eq_true',
      List.contains_eq_mem, decide_eq_false_iff_not]
    constructor
    · rintro ⟨present, spared⟩
      exact ⟨present, fun thumbnail => ⟨thumbnail, spared⟩⟩
    · rintro ⟨present, kept⟩
      refine ⟨present, fun taken => ?_⟩
      exact (kept (onlyThumbnails entry taken)).2 taken

theorem bytes_drop_antitone (files : List DiskEntry) {fewer more : Nat} (le : fewer ≤ more) :
    bytes (files.drop more) ≤ bytes (files.drop fewer) := by
  obtain ⟨extra, rfl⟩ := Nat.exists_eq_add_of_le le
  have parts := bytes_take_add_drop (files.drop fewer) extra
  have taken := bytes_nonneg ((files.drop fewer).take extra)
  rw [List.drop_drop] at parts
  omega

/-- The published statistics are those of the files left exactly when the running
total is their size. -/
theorem published_iff {store : CacheStore} {count : Nat} {total : Int}
    (result : trimmed .quiet store = (store.oldestThumbnails.take count,
      ⟨store.thumbnails.length - count, total⟩)) :
    (trimDiskCache .quiet store).cachedStatistics =
        some (statisticsOf (trimDiskCache .quiet store).thumbnails) ↔
      total = bytes (store.oldestThumbnails.drop count) := by
  have left := survivors_perm (congrArg Prod.fst result)
  have counts : (trimDiskCache .quiet store).thumbnails.length = store.thumbnails.length - count := by
    rw [left.length_eq, List.length_drop, (oldestThumbnails_perm store).length_eq]
  rw [cachedStatistics_trimDiskCache, result, statisticsOf, counts, bytes_perm left]
  simp

/-- A saturated total that the loop brings down to the target is the size of the
files left only if these are empty. -/
theorem saturated_published {store : CacheStore} {count : Nat}
    (saturates : maxLong < bytes store.thumbnails)
    (running : max 0 (maxLong - bytes (store.oldestThumbnails.take count)) =
      bytes (store.oldestThumbnails.drop count)) :
    bytes (store.oldestThumbnails.drop count) = 0 := by
  have parts := bytes_take_add_drop store.oldestThumbnails count
  rw [bytes_perm (oldestThumbnails_perm store)] at parts
  omega

/-- A trim deletes old thumbnails only; it is minimal and publishes what is left
exactly when the saturation of the total does not show. -/
theorem trimDiskCache_minimal_iff (store : CacheStore) :
    OrderlyTrim store (trimDiskCache .quiet store) ∧
      (MinimalTrim store (trimDiskCache .quiet store) ↔ CountsExactly store) := by
  have orderly := trimDiskCache_orderly store
  have limit : getDiskCacheMaxBytes store < maxLong := megabytesToBytes_lt _
  have target_nonneg := getDiskCacheTrimTargetBytes_nonneg store
  have parts : ∀ count, bytes (store.oldestThumbnails.take count) +
      bytes (store.oldestThumbnails.drop count) = bytes store.thumbnails := by
    intro count
    rw [bytes_take_add_drop, bytes_perm (oldestThumbnails_perm store)]
  refine ⟨orderly, ?_, ?_⟩
  · intro minimalTrim
    by_cases fits : bytes store.thumbnails ≤ maxLong
    · exact .inl fits
    · right
      intro fewer nonempty
      rcases trimmed_quiet store with ⟨within, _⟩ | ⟨_, count, _, result, minimal, _⟩
      · omega
      · have saturated : min maxLong (bytes store.thumbnails) = maxLong := min_eq_left (by omega)
        rw [saturated] at result minimal
        have empty := saturated_published (by omega)
          ((published_iff result).mp minimalTrim.published)
        have less : fewer < count := by
          by_contra notLess
          have antitone := bytes_drop_antitone store.oldestThumbnails (Nat.le_of_not_lt notLess)
          omega
        have before := minimal fewer less
        omega
  · intro exactly
    rcases trimmed_quiet store with ⟨within, result⟩ | ⟨beyond, count, _, result, minimal, stops⟩
    · have unchanged : trimmed .quiet store = (store.oldestThumbnails.take 0,
          ⟨store.thumbnails.length - 0, bytes store.thumbnails⟩) := by
        rw [result, List.take_zero, Nat.sub_zero, statisticsOf]
      refine ⟨orderly, fun beyond => absurd within (by omega), (published_iff unchanged).mpr ?_⟩
      rw [List.drop_zero, bytes_perm (oldestThumbnails_perm store)]
    · have place := parts count
      have left := bytes_nonneg (store.oldestThumbnails.drop count)
      have running : max 0 (min maxLong (bytes store.thumbnails) -
          bytes (store.oldestThumbnails.take count)) =
            bytes (store.oldestThumbnails.drop count) := by
        rcases exactly with fits | stays
        · omega
        · have stopped := stays count
          omega
      refine ⟨orderly, fun _ => ⟨store.oldestThumbnails, count, oldestThumbnails_perm store,
        oldestThumbnails_sorted store, ⟨by omega, ?_⟩,
        survivors_perm (congrArg Prod.fst result)⟩, (published_iff result).mpr running⟩
      intro fewer less
      have before := minimal fewer less
      have placeFewer := parts fewer
      omega

/-! ## Files that vanish -/

theorem trimmed_accounts (meanwhile : Meanwhile) (store : CacheStore) :
    (trimmed meanwhile store).1.Sublist
        ((oldestFirst store.listFiles).filter meanwhile.meets) ∧
      (trimmed meanwhile store).2.thumbnailCount =
        store.thumbnails.length - (trimmed meanwhile store).1.length := by
  unfold trimmed
  dsimp only
  rw [measure_eq]
  split
  · exact trimLoop_accounts meanwhile _ _ _
  · exact ⟨List.nil_sublist _, rfl⟩

/-- A trim takes files that vanished while it ran to be still there: the number
that it publishes counts them. -/
theorem published_counts_vanished (meanwhile : Meanwhile) (store : CacheStore) :
    ∃ statistics, (trimDiskCache meanwhile store).cachedStatistics = some statistics ∧
      statistics.thumbnailCount = (trimDiskCache meanwhile store).thumbnails.length +
        store.thumbnails.countP meanwhile.vanishes := by
  refine ⟨_, cachedStatistics_trimDiskCache meanwhile store, ?_⟩
  obtain ⟨sublist, count⟩ := trimmed_accounts meanwhile store
  let live := store.thumbnails.filter (!meanwhile.vanishes ·)
  have removedPerm : (live.filter (trimmed meanwhile store).1.contains).Perm
      (trimmed meanwhile store).1 := by
    have metNodup : ((oldestFirst store.listFiles).filter meanwhile.meets).Nodup :=
      ((List.perm_insertionSort _ _).nodup_iff.mpr
        ((List.Nodup.of_map _ store.directory.distinct).filter _)).filter _
    rw [List.perm_ext_iff_of_nodup (((nodup_thumbnails store).filter _).filter _)
      (sublist.nodup metNodup)]
    intro file
    rw [List.mem_filter, List.contains_iff_mem, and_iff_right_iff_imp]
    intro removed
    have met := List.mem_filter.mp (sublist.subset removed)
    simp only [Meanwhile.meets, Bool.and_eq_true] at met
    rw [oldestFirst, List.mem_insertionSort] at met
    exact List.mem_filter.mpr ⟨List.mem_filter.mpr ⟨met.1, met.2.1⟩, met.2.2⟩
  have after : (trimDiskCache meanwhile store).thumbnails =
      live.filter (!(trimmed meanwhile store).1.contains ·) := by
    rw [thumbnails_trimDiskCache, List.filter_filter]
    congr 1
    funext file
    rw [Bool.not_or, Bool.and_comm]
  have allParts : store.thumbnails.length = store.thumbnails.countP meanwhile.vanishes +
      live.length := by
    rw [List.countP_eq_length_filter]
    exact List.length_eq_length_filter_add meanwhile.vanishes
  have liveParts : live.length = (trimmed meanwhile store).1.length +
      (trimDiskCache meanwhile store).thumbnails.length := by
    rw [after, ← removedPerm.length_eq]
    exact List.length_eq_length_filter_add _
  omega

/-! ## A cache of eight exbibytes -/

def hugeEntry (digit : Char) (length lastModified : Int) : DiskEntry :=
  ⟨List.replicate 64 digit ++ ".thumb".toList, true, length, lastModified⟩

/-- Two sparse thumbnails of `2 ^ 62` bytes each, and a small new one. -/
def hugeStore : CacheStore where
  directory :=
    ⟨[hugeEntry 'a' (2 ^ 62) 1, hugeEntry 'b' (2 ^ 62) 2, hugeEntry 'c' 5 3], by decide⟩
  configuredMaximumMb := 2048
  configuredTargetMb := 1536
  statisticsMutationGeneration := 0
  cachedStatistics := none
  publishedStatisticsGeneration := -1

/-- The five bytes that are left are published as none. -/
theorem hugeStore_not_minimal : ¬∀ store, MinimalTrim store (trimDiskCache .quiet store) := by
  intro minimal
  have published := (minimal hugeStore).published
  revert published
  decide

end RoundSync.Thumbnails.DiskTrims
