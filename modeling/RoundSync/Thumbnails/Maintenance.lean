import RoundSync.Data.Table
import RoundSync.Transition.Crew
import Mathlib.Algebra.GroupWithZero.Nat
import Mathlib.Algebra.Ring.Int.Defs

/-!
# The upkeep of the disk cache

One cache store of `ThumbnailRepository`: its files, its statistics and its
trims.  Pool threads write and delete files, any thread asks for statistics or
for a trim, and a single-threaded executor scans, trims, clears and imports.
Each atomic access is a call.  A section under `diskCacheLock` that only the
executor runs is one call, since nothing else looks at the files meanwhile
without the lock; the sections of the pool threads are not, because the scan of
the executor takes no lock.
-/

namespace RoundSync.Thumbnails.Maintenance

open RoundSync.Data
open RoundSync.Transition

/-- The sizes are those of files on one disk, so no sum of them saturates. -/
structure CacheStatistics where
  thumbnailCount : Nat
  totalBytes : Nat
  deriving DecidableEq

/-- The thumbnail files of a store, with their lengths. -/
abbrev Files := Table String Nat

def statisticsOf (files : Files) : CacheStatistics :=
  ⟨files.entries.length, files.values.sum⟩

/-- A task of the maintenance executor. -/
inductive Job where
  | initializeCache
  | trim
  | refresh
  | clear
  | importCache
  deriving DecidableEq

/-- The store, the executor, the callbacks posted to the main thread, and two
ghosts: the generation of the last trim pass that began, and the number of
passes that run. -/
structure CacheStore where
  files : Files
  trimRequestGeneration : Nat := 0
  trimScheduled : Bool := false
  statisticsMutationGeneration : Nat := 0
  statisticsRefreshScheduled : Bool := false
  pendingStatisticsCallbacks : List Nat := []
  cachedStatistics : Option CacheStatistics
  publishedStatisticsGeneration : Int := -1
  queue : List Job := []
  busy : Bool := false
  posted : List (Nat × CacheStatistics) := []
  requested : List Nat := []
  lastPass : Nat := 0
  passes : Nat := 0

/-! ## Sections of the executor -/

/-- A trim meets the files in order of their age; deleting a file may fail. -/
structure TrimSetting where
  maximumBytes : Nat
  trimTargetBytes : Nat
  order : List String
  deletes : String → Bool

/-- The loop of `trimDiskCache`: the files, the statistics and whether a file was
removed. -/
def trimLoop (setting : TrimSetting) :
    List String → Files → CacheStatistics → Bool → Files × CacheStatistics × Bool
  | [], files, statistics, removedAny => (files, statistics, removedAny)
  | name :: names, files, statistics, removedAny =>
      match files.lookup name with
      | none => trimLoop setting names files statistics removedAny
      | some length =>
          let (files, statistics, removedAny) :=
            if setting.deletes name then
              (files.erase name,
                ⟨statistics.thumbnailCount - 1, statistics.totalBytes - length⟩, true)
            else (files, statistics, removedAny)
          if statistics.totalBytes ≤ setting.trimTargetBytes then (files, statistics, removedAny)
          else trimLoop setting names files statistics removedAny

/-- The section of `trimDiskCache`. -/
def trimLocked (setting : TrimSetting) (store : CacheStore) :
    (CacheStatistics × Nat) × CacheStore :=
  let counted := statisticsOf store.files
  let (files, statistics, removedAny) :=
    if setting.maximumBytes < counted.totalBytes then
      trimLoop setting setting.order store.files counted false
    else (store.files, counted, false)
  let generation := store.statisticsMutationGeneration + if removedAny then 1 else 0
  ((statistics, generation), { store with files, statisticsMutationGeneration := generation })

/-- How a clear goes: which files resist, and whether a directory cannot be made. -/
structure ClearSetting where
  resists : String → Bool
  throws : Bool

/-- The section of `clearCache`; it throws before the generation is raised. -/
def clearLocked (setting : ClearSetting) (store : CacheStore) :
    Option (CacheStatistics × Nat) × CacheStore :=
  let files := store.files.keepKeys setting.resists
  if setting.throws then (none, { store with files })
  else
    let generation := store.statisticsMutationGeneration + 1
    (some (statisticsOf files, generation),
      { store with files, statisticsMutationGeneration := generation })

/-- How the replacement of one file goes: done, taken back, or taken back in vain. -/
inductive Replacement where
  | done (length : Nat)
  | restored
  | lost
  deriving DecidableEq

/-- The section of an import for one file; an exception leaves it before the
generation is raised. -/
def importLocked (name : String) (replacement : Replacement) (store : CacheStore) :
    Bool × CacheStore :=
  match replacement with
  | .done length =>
      (true, { store with
        files := store.files.insert name length
        statisticsMutationGeneration := store.statisticsMutationGeneration + 1 })
  | .restored => (false, store)
  | .lost => (false, { store with files := store.files.erase name })

/-! ## Calls -/

/-- What became of a file that had to give way. -/
inductive Removal where
  | absent
  | deleted
  | stuck
  deriving DecidableEq

/-- The atomic accesses.  Some carry what only the ghosts or a reader need: the
generation that a trim pass has recorded, whether a refresh was completed, and
whether a thread has changed the file that it is about to write or to drop. -/
inductive StoreCall where
  | incrementTrimRequest
  | getTrimRequest
  | swapTrimScheduled
  | releaseTrimScheduled
  | beginPass (recorded : Option Nat)
  | endPass
  | submit (job : Job)
  | take (index : Nat)
  | finish
  | getMutation
  | raiseMutation
  | getPublished
  | setPublished (generation : Nat)
  | getCached
  | setCached (statistics : CacheStatistics)
  | wipeFiles
  | forgetCached
  | forgetPublished
  | swapRefreshScheduled
  | releaseRefreshScheduled (refreshCompleted : Bool)
  | addPending (callback : Nat)
  | hasPending
  | drainPending
  | post (callback : Nat) (statistics : CacheStatistics)
  | listFiles
  | isFile (name : String)
  | fileLength (name : String)
  | removeFile (name : String) (deletes : Bool)
  | putFile (name : String) (length : Nat) (changed : Bool)
  | dropFile (name : String) (deletes changed : Bool)
  | trimLocked (setting : TrimSetting)
  | clearLocked (setting : ClearSetting)
  | importLocked (name : String) (replacement : Replacement)

@[reducible]
def StoreReply : StoreCall → Type
  | .getTrimRequest | .getMutation | .fileLength _ => Nat
  | .getPublished => Int
  | .getCached => Option CacheStatistics
  | .swapTrimScheduled | .swapRefreshScheduled | .hasPending | .isFile _ | .importLocked _ _ =>
      Bool
  | .take _ => Option Job
  | .drainPending => List Nat
  | .listFiles => List String
  | .removeFile _ _ => Removal
  | .trimLocked _ => CacheStatistics × Nat
  | .clearLocked _ => Option (CacheStatistics × Nat)
  | _ => Unit

/-- Remove a file, if it is there and can be deleted. -/
def remove (name : String) (deletes : Bool) (store : CacheStore) : Removal × CacheStore :=
  if store.files.lookup name = none then (.absent, store)
  else if deletes then (.deleted, { store with files := store.files.erase name })
  else (.stuck, store)

/-- The executor hands out one of its tasks when it is free. -/
def take (index : Nat) (store : CacheStore) : Option Job × CacheStore :=
  if store.busy then (none, store)
  else
    match store.queue[index]? with
    | none => (none, store)
    | some job => (some job, { store with queue := store.queue.eraseIdx index, busy := true })

def answer : (c : StoreCall) → CacheStore → StoreReply c × CacheStore
  | .incrementTrimRequest, store =>
      ((), { store with trimRequestGeneration := store.trimRequestGeneration + 1 })
  | .getTrimRequest, store => (store.trimRequestGeneration, store)
  | .swapTrimScheduled, store => (!store.trimScheduled, { store with trimScheduled := true })
  | .releaseTrimScheduled, store => ((), { store with trimScheduled := false })
  | .beginPass recorded, store =>
      ((), { store with
        lastPass := recorded.getD store.trimRequestGeneration
        passes := store.passes + 1 })
  | .endPass, store => ((), { store with passes := store.passes - 1 })
  | .submit job, store => ((), { store with queue := store.queue ++ [job] })
  | .take index, store => take index store
  | .finish, store => ((), { store with busy := false })
  | .getMutation, store => (store.statisticsMutationGeneration, store)
  | .raiseMutation, store =>
      ((), { store with statisticsMutationGeneration := store.statisticsMutationGeneration + 1 })
  | .getPublished, store => (store.publishedStatisticsGeneration, store)
  | .setPublished generation, store =>
      ((), { store with publishedStatisticsGeneration := generation })
  | .getCached, store => (store.cachedStatistics, store)
  | .setCached statistics, store => ((), { store with cachedStatistics := some statistics })
  | .wipeFiles, store => ((), { store with files := ∅ })
  | .forgetCached, store => ((), { store with cachedStatistics := none })
  | .forgetPublished, store => ((), { store with publishedStatisticsGeneration := -1 })
  | .swapRefreshScheduled, store =>
      (!store.statisticsRefreshScheduled, { store with statisticsRefreshScheduled := true })
  | .releaseRefreshScheduled _, store => ((), { store with statisticsRefreshScheduled := false })
  | .addPending callback, store =>
      ((), { store with
        pendingStatisticsCallbacks := store.pendingStatisticsCallbacks ++ [callback]
        requested := store.requested ++ [callback] })
  | .hasPending, store => (!store.pendingStatisticsCallbacks.isEmpty, store)
  | .drainPending, store =>
      (store.pendingStatisticsCallbacks, { store with pendingStatisticsCallbacks := [] })
  | .post callback statistics, store =>
      ((), { store with posted := store.posted ++ [(callback, statistics)] })
  | .listFiles, store => (store.files.keys, store)
  | .isFile name, store => ((store.files.lookup name).isSome, store)
  | .fileLength name, store => ((store.files.lookup name).getD 0, store)
  | .removeFile name deletes, store => remove name deletes store
  | .putFile name length _, store => ((), { store with files := store.files.insert name length })
  | .dropFile name deletes _, store => ((), (remove name deletes store).2)
  | .trimLocked setting, store => trimLocked setting store
  | .clearLocked setting, store => clearLocked setting store
  | .importLocked name replacement, store => importLocked name replacement store

abbrev Action := Program StoreReply

def ask (c : StoreCall) : Action (StoreReply c) :=
  .request c

/-! ## Trims -/

def enqueueDiskCacheTrim : Action Unit := do
  if ← ask .swapTrimScheduled then ask (.submit .trim) else pure ()

def requestDiskCacheTrim : Action Unit := do
  ask .incrementTrimRequest
  enqueueDiskCacheTrim

/-- `publishCacheStatistics`. -/
def publishCacheStatistics (statistics : CacheStatistics) (generation : Nat) : Action Unit := do
  let current ← ask .getMutation
  if generation ≠ current then pure ()
  else
    ask (.setCached statistics)
    ask (.setPublished generation)
    let callbacks ← ask .drainPending
    Program.forEach callbacks fun callback => ask (.post callback statistics)

/-- `trimDiskCache`, as a pass of the recorded generation. -/
def trimDiskCache (recorded : Option Nat) (setting : TrimSetting) : Action Unit := do
  ask (.beginPass recorded)
  let (statistics, generation) ← ask (.trimLocked setting)
  publishCacheStatistics statistics generation
  ask .endPass

/-- The scheduled task; a pass that throws ends before its section. -/
def trimTask (setting : TrimSetting) (throws : Bool) : Action Unit := do
  let handledGeneration ← ask .getTrimRequest
  if throws then
    ask (.beginPass (some handledGeneration))
    ask .endPass
  else trimDiskCache (some handledGeneration) setting
  ask .releaseTrimScheduled
  let generation ← ask .getTrimRequest
  if generation ≠ handledGeneration then enqueueDiskCacheTrim else pure ()

/-! ## Statistics -/

def requestCacheStatisticsRefresh : Action Unit := do
  if ← ask .swapRefreshScheduled then ask (.submit .refresh) else pure ()

def getCacheStatistics (callback : Nat) : Action Unit := do
  let snapshot ← ask .getCached
  let needsRefresh ←
    match snapshot with
    | none => pure true
    | some _ => do
        let published ← ask .getPublished
        let mutation ← ask .getMutation
        pure (published ≠ mutation : Bool)
  match snapshot with
  | none => pure ()
  | some statistics => ask (.post callback statistics)
  if needsRefresh then
    ask (.addPending callback)
    requestCacheStatisticsRefresh
  else pure ()

/-- The loop of `calculateCacheStatistics` over the listed names. -/
def sumFiles : List String → CacheStatistics → Action CacheStatistics
  | [], statistics => pure statistics
  | name :: names, statistics => do
      if ← ask (.isFile name) then
        let length ← ask (.fileLength name)
        sumFiles names ⟨statistics.thumbnailCount + 1, statistics.totalBytes + length⟩
      else sumFiles names statistics

def calculateCacheStatistics : Action CacheStatistics := do
  let files ← ask .listFiles
  sumFiles files ⟨0, 0⟩

/-- The `finally` block of the refresh. -/
def finishRefresh (refreshCompleted : Bool) : Action Unit := do
  ask (.releaseRefreshScheduled refreshCompleted)
  let hasPendingCallbacks ← ask .hasPending
  if refreshCompleted then
    let published ← ask .getPublished
    let mutation ← ask .getMutation
    if published ≠ mutation ∨ hasPendingCallbacks then requestCacheStatisticsRefresh else pure ()
  else pure ()

/-- The scheduled refresh; it throws, if it does, before it publishes. -/
def refreshTask (maximumBytes : Nat) (throws : Bool) : Action Unit := do
  let hasPendingCallbacks ← ask .hasPending
  let published ← ask .getPublished
  let mutation ← ask .getMutation
  if published = mutation ∧ ¬hasPendingCallbacks then finishRefresh false
  else
    let generation ← ask .getMutation
    let statistics ← calculateCacheStatistics
    if throws then finishRefresh false
    else
      publishCacheStatistics statistics generation
      if maximumBytes < statistics.totalBytes then requestDiskCacheTrim else pure ()
      finishRefresh true

/-! ## Files -/

def deleteCachedThumbnail (name : String) (deletes : Bool) : Action Unit := do
  match ← ask (.removeFile name deletes) with
  | .deleted => ask .raiseMutation
  | _ => pure ()

/-- How the write of a bitmap goes.  A copy in place of a rename shows a shorter
file first. -/
structure WriteSetting where
  length : Nat
  compresses : Bool
  deletes : Bool
  renames : Bool
  shorter : Nat
  copies : Bool
  drops : Bool

/-- `writeBitmapAtomically`; an exception of the copy counts as a failed write. -/
def writeBitmapAtomically (name : String) (setting : WriteSetting) : Action Bool := do
  if !setting.compresses then
    ask (.dropFile name setting.drops false)
    pure false
  else
    let existing ← ask (.removeFile name setting.deletes)
    if existing = .stuck then
      ask (.dropFile name setting.drops false)
      pure false
    else
      if setting.renames then ask (.putFile name setting.length (existing = .deleted))
      else ask (.putFile name setting.shorter (existing = .deleted))
      if setting.renames then
        if 0 < setting.length then pure true
        else
          ask (.dropFile name setting.drops true)
          pure false
      else if setting.copies && 0 < setting.length then
        ask (.putFile name setting.length true)
        pure true
      else
        ask (.dropFile name setting.drops true)
        pure false

/-- The section of `generateThumbnail` whose checks have passed. -/
def storeThumbnail (name : String) (setting : WriteSetting) : Action Unit := do
  if ← writeBitmapAtomically name setting then
    ask .raiseMutation
    requestDiskCacheTrim
  else pure ()

/-- The task of the constructor: a store of another version is emptied first. -/
def initializeTask (stale : Bool) (setting : TrimSetting) : Action Unit := do
  if stale then
    ask .wipeFiles
    ask .raiseMutation
    ask .forgetCached
    ask .forgetPublished
  else pure ()
  match ← ask .getCached with
  | none => trimDiskCache none setting
  | some statistics =>
      if setting.maximumBytes < statistics.totalBytes then trimDiskCache none setting else pure ()

/-- What the task makes of the cached statistics. -/
def trimOversized (setting : TrimSetting) : Option CacheStatistics → Action Unit
  | none => trimDiskCache none setting
  | some statistics =>
      if setting.maximumBytes < statistics.totalBytes then trimDiskCache none setting else pure ()

def clearTask (setting : ClearSetting) : Action Unit := do
  match ← ask (.clearLocked setting) with
  | none => pure ()
  | some (statistics, generation) => publishCacheStatistics statistics generation

/-- The files of an archive in turn, up to the first that throws. -/
def importFiles : List (String × Replacement) → Action Unit
  | [] => pure ()
  | (name, replacement) :: rest => do
      if ← ask (.importLocked name replacement) then importFiles rest else pure ()

def importTask (files : List (String × Replacement)) (setting : TrimSetting) : Action Unit := do
  importFiles files
  trimDiskCache none setting

/-! ## Threads -/

/-- All that a task of the executor may meet. -/
structure JobSetting where
  trim : TrimSetting
  clear : ClearSetting
  files : List (String × Replacement)
  stale : Bool
  throws : Bool

/-- No file has to be removed, nothing is imported, nothing is thrown. -/
def calmSetting : JobSetting where
  trim := ⟨100, 50, [], fun _ => true⟩
  clear := ⟨fun _ => false, false⟩
  files := []
  stale := false
  throws := false

def jobAction (setting : JobSetting) : Job → Action Unit
  | .initializeCache => initializeTask setting.stale setting.trim
  | .trim => trimTask setting.trim setting.throws
  | .refresh => refreshTask setting.trim.maximumBytes setting.throws
  | .clear => clearTask setting.clear
  | .importCache => importTask setting.files setting.trim

/-- The executor's thread runs one of the tasks. -/
def work (index : Nat) (setting : JobSetting) : Action Unit := do
  match ← ask (.take index) with
  | none => pure ()
  | some job =>
      jobAction setting job
      ask .finish

inductive Task where
  | requestDiskCacheTrim
  | getCacheStatistics (callback : Nat)
  | clearCache
  | importCache
  | deleteCachedThumbnail (name : String) (deletes : Bool)
  | storeThumbnail (name : String) (setting : WriteSetting)
  | work (index : Nat) (setting : JobSetting)

def taskAction : Task → Action Unit
  | .requestDiskCacheTrim => requestDiskCacheTrim
  | .getCacheStatistics callback => getCacheStatistics callback
  | .clearCache => ask (.submit .clear)
  | .importCache => ask (.submit .importCache)
  | .deleteCachedThumbnail name deletes => deleteCachedThumbnail name deletes
  | .storeThumbnail name setting => storeThumbnail name setting
  | .work index setting => work index setting

/-- A store as its constructor leaves it, with the files that are there and the
statistics that were saved. -/
def freshStore (files : Files) (cachedStatistics : Option CacheStatistics) : CacheStore where
  files := files
  cachedStatistics := cachedStatistics
  queue := [.initializeCache]

/-! ## The executor's thread -/

/-- What a thread notes: whether it is the executor's, and a phase of its own. -/
structure Notes (φ : Type) where
  holding : Bool
  phase : φ

def holdingAfter (holding : Bool) (store : CacheStore) : StoreCall → Bool
  | .take index => (take index store).1.isSome
  | .finish => false
  | _ => holding

/-- The calls that only a task of the executor makes. -/
def needsExecutor : StoreCall → Bool
  | .finish | .getTrimRequest | .releaseTrimScheduled | .beginPass _ | .endPass
  | .setPublished _ | .setCached _ | .wipeFiles | .forgetCached | .forgetPublished
  | .releaseRefreshScheduled _ | .drainPending | .listFiles | .isFile _ | .fileLength _
  | .trimLocked _ | .clearLocked _ | .importLocked _ _ => true
  | _ => false

/-- The notes of the threads, by what happens to the phase and what it allows. -/
def upkeep {φ : Type} (idle : φ) (phaseAfter : φ → CacheStore → StoreCall → φ)
    (allowed : φ → StoreCall → Prop) : Protocol CacheStore StoreReply (Notes φ) where
  answer := answer
  blank := ⟨false, idle⟩
  note notes store c := ⟨holdingAfter notes.holding store c, phaseAfter notes.phase store c⟩
  allowed notes c := (needsExecutor c = true → notes.holding = true) ∧
    (∀ index, c = .take index → notes.holding = false) ∧ allowed notes.phase c

/-- The runs of the store: any number of threads, nothing noted. -/
def upkeepRuns : Protocol CacheStore StoreReply Unit where
  answer := answer
  blank := ()
  note _ _ _ := ()
  allowed _ _ := True

/-- A thread between two tasks. -/
def AtRest {φ : Type} (idle : φ) (notes : Notes φ) : Prop :=
  notes = ⟨false, idle⟩

/-- At most one thread is the executor's, and the executor is busy with it. -/
def Exclusive {ι φ : Type} (store : CacheStore) (notes : ι → Notes φ) : Prop :=
  ∀ i, (notes i).holding = true → store.busy = true ∧ ∀ j, (notes j).holding = true → j = i

theorem take_cases (index : Nat) (store : CacheStore) :
    take index store = (none, store) ∨
      ∃ job, store.busy = false ∧ store.queue[index]? = some job ∧
        take index store =
          (some job, { store with queue := store.queue.eraseIdx index, busy := true }) := by
  unfold take
  cases busy : store.busy with
  | true => exact Or.inl rfl
  | false =>
      cases found : store.queue[index]? with
      | none => exact Or.inl rfl
      | some job => exact Or.inr ⟨job, rfl, rfl, rfl⟩

theorem busy_remove (name : String) (deletes : Bool) (store : CacheStore) :
    (remove name deletes store).2.busy = store.busy := by
  unfold remove
  split_ifs
  · rfl
  · rfl
  · rfl

/-- Only a task that is taken or finished changes whether the executor is busy. -/
theorem busy_answer {c : StoreCall} {store : CacheStore} (notTake : ∀ index, c ≠ .take index)
    (notFinish : c ≠ .finish) : (answer c store).2.busy = store.busy := by
  cases c with
  | take index => exact absurd rfl (notTake index)
  | finish => exact absurd rfl notFinish
  | removeFile name deletes => exact busy_remove name deletes store
  | dropFile name deletes changed => exact busy_remove name deletes store
  | clearLocked setting =>
      simp only [answer, clearLocked]
      split_ifs
      · rfl
      · rfl
  | importLocked name replacement =>
      cases replacement with
      | done length => rfl
      | restored => rfl
      | lost => rfl
  | _ => rfl

section

variable {ι φ : Type} [DecidableEq ι] {store : CacheStore} {notes : ι → Notes φ} {i : ι}
  {c : StoreCall} {phase : φ}

theorem exclusive_answer (exclusive : Exclusive store notes)
    (finishes : needsExecutor c = true → (notes i).holding = true) :
    Exclusive (answer c store).2
      (Function.update notes i ⟨holdingAfter (notes i).holding store c, phase⟩) := by
  by_cases isTake : ∃ index, c = .take index
  · obtain ⟨index, rfl⟩ := isTake
    rcases take_cases index store with none | ⟨job, free, _, taken⟩
    · intro j holding
      by_cases here : j = i
      · subst here
        simp [holdingAfter, none] at holding
      · rw [Function.update_of_ne here] at holding
        obtain ⟨busy, only⟩ := exclusive j holding
        refine ⟨by simpa [answer, none] using busy, fun k other => ?_⟩
        by_cases there : k = i
        · subst there
          simp [holdingAfter, none] at other
        · rw [Function.update_of_ne there] at other
          exact only k other
    · have nobody : ∀ j, (notes j).holding ≠ true := by
        intro j holding
        rw [(exclusive j holding).1] at free
        cases free
      have only : ∀ j, (Function.update notes i
          ⟨holdingAfter (notes i).holding store (.take index), phase⟩ j).holding = true →
            j = i := by
        intro j holding
        by_contra there
        rw [Function.update_of_ne there] at holding
        exact nobody j holding
      intro j holding
      refine ⟨by simp [answer, taken], fun k other => ?_⟩
      rw [only j holding, only k other]
  · have notTake : ∀ index, c ≠ .take index := fun index same => isTake ⟨index, same⟩
    by_cases isFinish : c = .finish
    · subst isFinish
      have mine := finishes rfl
      intro j holding
      by_cases here : j = i
      · subst here
        simp [holdingAfter] at holding
      · rw [Function.update_of_ne here] at holding
        exact absurd ((exclusive i mine).2 j holding) here
    · have same : holdingAfter (notes i).holding store c = (notes i).holding := by
        cases c with
        | take index => exact absurd rfl (notTake index)
        | finish => exact absurd rfl isFinish
        | _ => rfl
      have holdingEq : ∀ j, (Function.update notes i
          ⟨holdingAfter (notes i).holding store c, phase⟩ j).holding = (notes j).holding := by
        intro j
        by_cases here : j = i
        · subst here
          simp [same]
        · rw [Function.update_of_ne here]
      intro j holding
      rw [holdingEq] at holding
      obtain ⟨busy, only⟩ := exclusive j holding
      refine ⟨by rw [busy_answer notTake isFinish]; exact busy, fun k other => ?_⟩
      rw [holdingEq] at other
      exact only k other

end

/-! ## What waits for the executor -/

section

variable {ι φ : Type} {job : Job} {store store' : CacheStore} {notes : ι → Notes φ}
  {P P' : φ → Bool}

/-- A task is queued, or one of the threads has a phase in `P`. -/
def Awaits (job : Job) (store : CacheStore) (notes : ι → Notes φ) (P : φ → Bool) : Prop :=
  job ∈ store.queue ∨ ∃ i, P (notes i).phase = true

variable [DecidableEq ι] {i : ι} {after : Notes φ}

theorem Awaits.update (awaits : Awaits job store notes P)
    (queue : job ∈ store.queue → job ∈ store'.queue)
    (weaken : ∀ phase, P phase = true → P' phase = true)
    (kept : P (notes i).phase = true → P' after.phase = true) :
    Awaits job store' (Function.update notes i after) P' := by
  rcases awaits with queued | found
  · exact Or.inl (queue queued)
  · exact Or.inr (exists_update (fun g : Notes φ => P g.phase = true)
      (fun g => P' g.phase = true) found (fun g => weaken g.phase) kept)

theorem Awaits.here (holds : P after.phase = true) :
    Awaits job store (Function.update notes i after) P :=
  Or.inr (exists_update_here (fun g : Notes φ => P g.phase = true) holds)

omit [DecidableEq ι] in
/-- A task that another than this one makes way for stays in the queue. -/
theorem mem_queue_of_taken {index : Nat} {other : Job} (found : store.queue[index]? = some other)
    (different : other ≠ job) (queued : job ∈ store.queue) :
    job ∈ store.queue.eraseIdx index := by
  obtain ⟨place, isThere⟩ := List.mem_iff_getElem?.mp queued
  refine List.mem_eraseIdx_iff_getElem?.mpr ⟨place, ?_, isThere⟩
  rintro rfl
  exact different (Option.some.inj (found.symm.trans isThere))

end

/-! ## What the programs call -/

section

variable {P : StoreCall → Prop}

theorem everyCall_publishCacheStatistics (getMutation : P .getMutation)
    (setCached : ∀ statistics, P (.setCached statistics))
    (setPublished : ∀ generation, P (.setPublished generation)) (drainPending : P .drainPending)
    (post : ∀ callback statistics, P (.post callback statistics)) (statistics : CacheStatistics)
    (generation : Nat) : (publishCacheStatistics statistics generation).EveryCall P := by
  apply Program.EveryCall.bind (Program.everyCall_request.mpr getMutation)
  intro current
  split_ifs
  · trivial
  · refine ⟨setCached statistics, fun _ => ⟨setPublished generation, fun _ =>
      ⟨drainPending, fun callbacks => ?_⟩⟩⟩
    exact Program.everyCall_forEach
      (fun callback => Program.everyCall_request.mpr (post callback statistics)) callbacks

theorem everyCall_sumFiles (isFile : ∀ name, P (.isFile name))
    (fileLength : ∀ name, P (.fileLength name)) (names : List String)
    (statistics : CacheStatistics) : (sumFiles names statistics).EveryCall P := by
  induction names generalizing statistics with
  | nil => trivial
  | cons name names ih =>
      refine ⟨isFile name, fun there => ?_⟩
      change Program.EveryCall P (if there = true then _ else _)
      split_ifs
      · exact ⟨fileLength name, fun length => ih _⟩
      · exact ih statistics

theorem everyCall_calculateCacheStatistics (listFiles : P .listFiles)
    (isFile : ∀ name, P (.isFile name)) (fileLength : ∀ name, P (.fileLength name)) :
    calculateCacheStatistics.EveryCall P :=
  ⟨listFiles, fun names => everyCall_sumFiles isFile fileLength names ⟨0, 0⟩⟩

theorem everyCall_importFiles
    (importLocked : ∀ name replacement, P (.importLocked name replacement))
    (files : List (String × Replacement)) : (importFiles files).EveryCall P := by
  induction files with
  | nil => trivial
  | cons file files ih =>
      refine ⟨importLocked file.1 file.2, fun imported => ?_⟩
      change Program.EveryCall P (if imported = true then _ else _)
      split_ifs
      · exact ih
      · trivial

theorem everyCall_writeBitmapAtomically {name : String}
    (removeFile : ∀ deletes, P (.removeFile name deletes))
    (putFile : ∀ length changed, P (.putFile name length changed))
    (dropFile : ∀ deletes changed, P (.dropFile name deletes changed)) (setting : WriteSetting) :
    (writeBitmapAtomically name setting).EveryCall P := by
  have dropped : ∀ changed,
      (ask (.dropFile name setting.drops changed) >>= fun _ =>
        (pure false : Action Bool)).EveryCall P :=
    fun changed => ⟨dropFile setting.drops changed, fun _ => trivial⟩
  unfold writeBitmapAtomically
  split
  · exact dropped false
  · refine ⟨removeFile setting.deletes, fun existing => ?_⟩
    change Program.EveryCall P (if existing = .stuck then _ else _)
    split
    · exact dropped false
    · split
      · refine ⟨putFile _ _, fun _ => ?_⟩
        change Program.EveryCall P (if 0 < setting.length then _ else _)
        split
        · trivial
        · exact dropped true
      · refine ⟨putFile _ _, fun _ => ?_⟩
        change Program.EveryCall P (if (setting.copies && 0 < setting.length) = true then _ else _)
        split
        · exact ⟨putFile _ _, fun _ => trivial⟩
        · exact dropped true

end

end RoundSync.Thumbnails.Maintenance
