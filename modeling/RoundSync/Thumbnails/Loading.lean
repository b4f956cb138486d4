import RoundSync.Data.Table
import RoundSync.Transition.Crew

/-!
# Loading thumbnails

The other half of `ThumbnailRepository`: requests for thumbnails of one cache
store, the workers that answer them, and what empties the caches.  A load joins
the requests in flight for its key or starts a worker for them; a worker removes
them all and answers those that were not cancelled.  A clear raises the
generation first and empties both caches later; a worker keeps the generation
under which it started and looks at the current one at several points.  Each
atomic access is a call.  Request locks and the order of the executors are left
out, so every interleaving of the program is one of these, and more.
-/

namespace RoundSync.Thumbnails.Loading

open RoundSync.Data
open RoundSync.Transition

/-- A decoded thumbnail: the generation of the worker that decoded it, and of the
one that had generated its file. -/
structure Bitmap where
  generation : Nat
  origin : Nat
  deriving DecidableEq

/-- A thumbnail file, with the generation of its worker. -/
structure Thumbnail where
  origin : Nat
  usable : Bool
  deriving DecidableEq

/-- What a callback is given.  Two of these are null; one of them is given because
the worker's generation is not the current one. -/
inductive Answer where
  | bitmap (bitmap : Bitmap)
  | stale (current : Nat)
  | nothing
  deriving DecidableEq

structure LoadRequest where
  id : Nat
  requestedSizePx : Nat
  deriving DecidableEq

/-- A worker that waits for a thread: its key, and its generation if the caches were
set up when it was submitted. -/
structure Job where
  requestKey : String
  requestedGeneration : Option Nat
  deriving DecidableEq

abbrev MemoryKey := String × Nat

/-- The store, the queue of the executor and the callbacks posted to the main
thread.  The rest are ghosts: the generations under which requests were issued, in
the order of their numbers, the requests that workers have removed and not dealt
with, those that they found cancelled, and the greatest generations of a clear that
has emptied the caches and of one that has completed. -/
structure RequestStore where
  inFlight : Table String (List LoadRequest) := ∅
  cancelled : List Nat := []
  cacheGeneration : Nat := 0
  enabled : Bool := true
  initialized : Bool := false
  memory : Table MemoryKey Bitmap := ∅
  disk : Table String Thumbnail
  queue : List Job := []
  posted : List (Nat × Answer) := []
  issued : List Nat := []
  held : List Nat := []
  dismissed : List Nat := []
  cleared : Nat := 0
  completed : Nat := 0

/-! ## Calls -/

/-- The atomic accesses. -/
inductive LoadCall where
  | isThumbnailEnabled
  | setEnabled (enabled : Bool)
  | getMemory (memoryKey : MemoryKey)
  | putMemory (memoryKey : MemoryKey) (bitmap : Bitmap)
  | evictMemory (keeps : MemoryKey → Bool)
  | answerNow (answer : Answer)
  | join (requestKey : String) (requestedSizePx : Nat)
  | cancel (request : Nat)
  | isCancelled (request : Nat)
  | post (request : Nat) (answer : Answer)
  | removeEntry (requestKey : String)
  | discardIfNoActiveRequests (requestKey : String)
  | isInitialized
  | setInitialized
  | getGeneration
  | incrementGeneration
  | submit (job : Job)
  | take (index : Nat) (interrupted : Bool)
  | isUsableThumbnail (requestKey : String)
  | deleteCachedThumbnail (requestKey : String) (deletes : Bool)
  | evictDisk (keeps : String → Bool)
  | writeThumbnail (requestKey : String) (generation : Nat) (usable writes : Bool)
  | decodeForDisplay (requestKey : String)
  | clearLocked (generation : Nat) (resists : String → Bool)
  | endClear (generation : Nat)

@[reducible]
def LoadReply : LoadCall → Type
  | .isThumbnailEnabled | .join _ _ | .isCancelled _ | .discardIfNoActiveRequests _
  | .isInitialized | .isUsableThumbnail _ | .writeThumbnail _ _ _ _ => Bool
  | .getMemory _ => Option Bitmap
  | .removeEntry _ => List LoadRequest
  | .getGeneration | .incrementGeneration => Nat
  | .take _ _ => Option Job
  | .decodeForDisplay _ => Option Nat
  | _ => Unit

/-- The section of `load`: the request joins those in flight for its key, or is the
first of them and starts a worker. -/
def join (requestKey : String) (requestedSizePx : Nat) (store : RequestStore) :
    Bool × RequestStore :=
  let request : LoadRequest := ⟨store.issued.length, requestedSizePx⟩
  let issued := store.issued ++ [store.cacheGeneration]
  match store.inFlight.lookup requestKey with
  | none => (true, { store with inFlight := store.inFlight.insert requestKey [request], issued })
  | some requests =>
      (false, { store with
        inFlight := store.inFlight.insert requestKey (requests ++ [request]), issued })

/-- The requests of a key, in the hands of a worker from now on. -/
def removeEntry (requestKey : String) (store : RequestStore) : List LoadRequest × RequestStore :=
  match store.inFlight.lookup requestKey with
  | none => ([], store)
  | some requests =>
      (requests, { store with
        inFlight := store.inFlight.erase requestKey
        held := store.held ++ requests.map LoadRequest.id })

/-- The section of `discardIfNoActiveRequests`. -/
def discardIfNoActiveRequests (requestKey : String) (store : RequestStore) : Bool × RequestStore :=
  match store.inFlight.lookup requestKey with
  | none => (true, store)
  | some requests =>
      if requests.all fun request => request.id ∈ store.cancelled then
        (true, { store with
          inFlight := store.inFlight.erase requestKey
          dismissed := store.dismissed ++ requests.map LoadRequest.id })
      else (false, store)

/-- A worker asks whether its next request is cancelled. -/
def isCancelled (request : Nat) (store : RequestStore) : Bool × RequestStore :=
  if request ∈ store.cancelled then
    (true, { store with
      held := store.held.erase request
      dismissed := store.dismissed ++ [request] })
  else (false, store)

/-- A thread of the executor is given a worker, which goes on once the caches are set
up or its wait for that is interrupted. -/
def take (index : Nat) (interrupted : Bool) (store : RequestStore) : Option Job × RequestStore :=
  if store.initialized || interrupted then
    match store.queue[index]? with
    | none => (none, store)
    | some job => (some job, { store with queue := store.queue.eraseIdx index })
  else (none, store)

/-- The section of `generateThumbnail`: the generation and the setting are looked at
once more under the lock of the files. -/
def writeThumbnail (requestKey : String) (generation : Nat) (usable writes : Bool)
    (store : RequestStore) : Bool × RequestStore :=
  if generation ≠ store.cacheGeneration ∨ !store.enabled ∨ !writes then (false, store)
  else (true, { store with disk := store.disk.insert requestKey ⟨generation, usable⟩ })

def answer : (c : LoadCall) → RequestStore → LoadReply c × RequestStore
  | .isThumbnailEnabled, store => (store.enabled, store)
  | .setEnabled enabled, store => ((), { store with enabled })
  | .getMemory memoryKey, store => (store.memory.lookup memoryKey, store)
  | .putMemory memoryKey bitmap, store =>
      ((), { store with memory := store.memory.insert memoryKey bitmap })
  | .evictMemory keeps, store => ((), { store with memory := store.memory.keepKeys keeps })
  | .answerNow answer, store =>
      ((), { store with
        posted := store.posted ++ [(store.issued.length, answer)]
        issued := store.issued ++ [store.cacheGeneration] })
  | .join requestKey requestedSizePx, store => join requestKey requestedSizePx store
  | .cancel request, store =>
      ((), if request < store.issued.length then
        { store with cancelled := request :: store.cancelled }
      else store)
  | .isCancelled request, store => isCancelled request store
  | .post request answer, store =>
      ((), { store with
        held := store.held.erase request
        posted := store.posted ++ [(request, answer)] })
  | .removeEntry requestKey, store => removeEntry requestKey store
  | .discardIfNoActiveRequests requestKey, store => discardIfNoActiveRequests requestKey store
  | .isInitialized, store => (store.initialized, store)
  | .setInitialized, store => ((), { store with initialized := true })
  | .getGeneration, store => (store.cacheGeneration, store)
  | .incrementGeneration, store =>
      (store.cacheGeneration + 1, { store with cacheGeneration := store.cacheGeneration + 1 })
  | .submit job, store => ((), { store with queue := store.queue ++ [job] })
  | .take index interrupted, store => take index interrupted store
  | .isUsableThumbnail requestKey, store =>
      ((store.disk.lookup requestKey).any Thumbnail.usable, store)
  | .deleteCachedThumbnail requestKey deletes, store =>
      ((), if deletes then { store with disk := store.disk.erase requestKey } else store)
  | .evictDisk keeps, store => ((), { store with disk := store.disk.keepKeys keeps })
  | .writeThumbnail requestKey generation usable writes, store =>
      writeThumbnail requestKey generation usable writes store
  | .decodeForDisplay requestKey, store =>
      ((store.disk.lookup requestKey).map Thumbnail.origin, store)
  | .clearLocked generation resists, store =>
      ((), { store with
        memory := ∅
        disk := store.disk.keepKeys resists
        cleared := max store.cleared generation })
  | .endClear generation, store =>
      ((), { store with completed := max store.completed generation })

abbrev Action := Program LoadReply

def ask (c : LoadCall) : Action (LoadReply c) :=
  .request c

/-! ## Loads -/

def load (requestKey : String) (requestedSizePx : Nat) : Action Unit := do
  if ← ask .isThumbnailEnabled then
    match ← ask (.getMemory (requestKey, requestedSizePx)) with
    | some memoryBitmap => ask (.answerNow (.bitmap memoryBitmap))
    | none =>
        if ← ask (.join requestKey requestedSizePx) then
          if ← ask .isInitialized then
            let requestedGeneration ← ask .getGeneration
            ask (.submit ⟨requestKey, some requestedGeneration⟩)
          else ask (.submit ⟨requestKey, none⟩)
        else pure ()
  else ask (.answerNow .nothing)

/-! ## Workers -/

/-- How a worker fares: whether its wait is interrupted, a check of the file throws,
the key has failed recently, the thumbnail is extracted, the file is written and
usable, files can be deleted, and for which sizes a bitmap can be decoded. -/
structure WorkerSetting where
  interrupted : Bool
  throws : Bool
  recentFailure : Bool
  extracts : Bool
  writes : Bool
  usable : Bool
  deletes : Bool
  decodes : Nat → Bool

/-- Everything goes well. -/
def smoothSetting : WorkerSetting where
  interrupted := false
  throws := false
  recentFailure := false
  extracts := true
  writes := true
  usable := true
  deletes := true
  decodes := fun _ => true

def completeRequestsWithNull (requestKey : String) (answer : Answer) : Action Unit := do
  let requests ← ask (.removeEntry requestKey)
  Program.forEach requests fun request => do
    if ← ask (.isCancelled request.id) then pure () else ask (.post request.id answer)

def generateThumbnail (requestKey : String) (generation : Nat) (setting : WorkerSetting) :
    Action Bool :=
  if setting.extracts then
    ask (.writeThumbnail requestKey generation setting.usable setting.writes)
  else pure false

/-- The thumbnail's file is there and usable, or is generated and then is. -/
def resolveThumbnail (requestKey : String) (generation : Nat) (setting : WorkerSetting) :
    Action Bool := do
  if setting.throws then
    ask (.deleteCachedThumbnail requestKey setting.deletes)
    pure false
  else if ← ask (.isUsableThumbnail requestKey) then pure true
  else
    ask (.deleteCachedThumbnail requestKey setting.deletes)
    if setting.recentFailure then pure false
    else if ← generateThumbnail requestKey generation setting then
      if ← ask (.isUsableThumbnail requestKey) then pure true
      else
        ask (.deleteCachedThumbnail requestKey setting.deletes)
        pure false
    else
      ask (.deleteCachedThumbnail requestKey setting.deletes)
      pure false

/-- A bitmap that a worker of this generation decodes from the file. -/
def decodeForDisplay (requestKey : String) (generation requestedSizePx : Nat)
    (setting : WorkerSetting) : Action (Option Bitmap) := do
  if setting.decodes requestedSizePx then
    let origin ← ask (.decodeForDisplay requestKey)
    pure (origin.map fun origin => ⟨generation, origin⟩)
  else pure none

/-- The bitmap for one request, from those already decoded if one of its size is. -/
def bitmapFor (requestKey : String) (generation requestedSizePx : Nat) (shows : Bool)
    (decodedByBucket : List (Nat × Bitmap)) (setting : WorkerSetting) : Action (Option Bitmap) :=
  if shows then
    match decodedByBucket.lookup requestedSizePx with
    | some bitmap => pure (some bitmap)
    | none => decodeForDisplay requestKey generation requestedSizePx setting
  else pure none

/-- The loop over the requests that the worker has removed. -/
def deliver (requestKey : String) (generation : Nat) (shows : Bool) (missing : Answer)
    (setting : WorkerSetting) : List LoadRequest → List (Nat × Bitmap) → Action Unit
  | [], _ => pure ()
  | request :: requests, decodedByBucket => do
      if ← ask (.isCancelled request.id) then
        deliver requestKey generation shows missing setting requests decodedByBucket
      else
        match ← bitmapFor requestKey generation request.requestedSizePx shows decodedByBucket
          setting with
        | none =>
            ask (.post request.id missing)
            deliver requestKey generation shows missing setting requests decodedByBucket
        | some bitmap =>
            ask (.putMemory (requestKey, request.requestedSizePx) bitmap)
            ask (.post request.id (.bitmap bitmap))
            deliver requestKey generation shows missing setting requests
              ((request.requestedSizePx, bitmap) :: decodedByBucket)

/-- The end of a worker that has looked for its thumbnail. -/
def deliverRequests (requestKey : String) (generation : Nat) (resolved : Bool)
    (setting : WorkerSetting) : Action Unit := do
  let requests ← ask (.removeEntry requestKey)
  let current ← ask .getGeneration
  if generation = current then
    let enabled ← ask .isThumbnailEnabled
    deliver requestKey generation (enabled && resolved) .nothing setting requests []
  else deliver requestKey generation false (.stale current) setting requests []

/-- A worker that knows its generation. -/
def loadUnderGeneration (requestKey : String) (generation : Nat) (setting : WorkerSetting) :
    Action Unit := do
  let current ← ask .getGeneration
  if generation ≠ current then completeRequestsWithNull requestKey (.stale current)
  else if ← ask (.discardIfNoActiveRequests requestKey) then pure ()
  else if ← ask .isThumbnailEnabled then
    let resolved ← resolveThumbnail requestKey generation setting
    deliverRequests requestKey generation resolved setting
  else completeRequestsWithNull requestKey .nothing

def loadOrGenerate (job : Job) (setting : WorkerSetting) : Action Unit := do
  if setting.interrupted then completeRequestsWithNull job.requestKey .nothing
  else
    match job.requestedGeneration with
    | some generation => loadUnderGeneration job.requestKey generation setting
    | none =>
        let generation ← ask .getGeneration
        loadUnderGeneration job.requestKey generation setting

/-- A thread of the executor runs one of the workers. -/
def work (index : Nat) (setting : WorkerSetting) : Action Unit := do
  match ← ask (.take index setting.interrupted) with
  | none => pure ()
  | some job => loadOrGenerate job setting

/-- The file of a regeneration that has failed is dropped, unless a clear will do so. -/
def dropFailed (requestKey : String) (generation : Nat) (setting : WorkerSetting) :
    Action Unit := do
  let current ← ask .getGeneration
  if generation = current then ask (.deleteCachedThumbnail requestKey setting.deletes)
  else pure ()

/-- The new file, if there is one, is decoded for display. -/
def decodeRegenerated (requestKey : String) (generation requestedSizePx : Nat)
    (setting : WorkerSetting) : Action (Option Bitmap) := do
  let current ← ask .getGeneration
  if generation = current then
    if ← generateThumbnail requestKey generation setting then
      if ← ask (.isUsableThumbnail requestKey) then
        decodeForDisplay requestKey generation requestedSizePx setting
      else pure none
    else pure none
  else pure none

def regenerateBitmap (requestKey : String) (generation requestedSizePx : Nat)
    (setting : WorkerSetting) : Action (Option Bitmap) := do
  match ← decodeRegenerated requestKey generation requestedSizePx setting with
  | none =>
      dropFailed requestKey generation setting
      pure none
  | some bitmap =>
      ask (.putMemory (requestKey, requestedSizePx) bitmap)
      pure (some bitmap)

/-- `regenerateVideoThumbnail`: its callback is not one of the requests in flight. -/
def regenerateVideoThumbnail (requestKey : String) (requestedSizePx : Nat)
    (setting : WorkerSetting) : Action Unit := do
  if setting.interrupted then ask (.answerNow .nothing)
  else
    let generation ← ask .getGeneration
    ask (.evictMemory fun memoryKey => memoryKey.1 ≠ requestKey)
    ask (.deleteCachedThumbnail requestKey setting.deletes)
    match ← regenerateBitmap requestKey generation requestedSizePx setting with
    | none => ask (.answerNow .nothing)
    | some bitmap => ask (.answerNow (.bitmap bitmap))

def preGenerateThumbnail (requestKey : String) (setting : WorkerSetting) : Action Unit := do
  let generation ← ask .getGeneration
  if ← ask .isThumbnailEnabled then
    let _ ← resolveThumbnail requestKey generation setting
    pure ()
  else pure ()

/-! ## What empties the caches -/

/-- `clearCache`: the generation is raised at once, the caches are emptied by the
maintenance executor, unless its wait for their setup is interrupted. -/
def clearCache (interrupted : Bool) (resists : String → Bool) : Action Unit := do
  let generation ← ask .incrementGeneration
  if interrupted then ask (.endClear generation)
  else
    ask (.clearLocked generation resists)
    ask (.endClear generation)

/-- The listener of the preferences. -/
def changeEnabled (enabled : Bool) : Action Unit := do
  ask (.setEnabled enabled)
  if enabled then pure ()
  else
    let _ ← ask .incrementGeneration
    ask (.evictMemory fun _ => false)

/-- The setup of the caches; those of another version are emptied first. -/
def initializeCaches (stale : Bool) (resists : String → Bool) : Action Unit := do
  if stale then
    let _ ← ask .incrementGeneration
    ask (.evictMemory fun _ => false)
    ask (.evictDisk resists)
    ask .setInitialized
  else ask .setInitialized

inductive Task where
  | load (requestKey : String) (requestedSizePx : Nat)
  | cancel (request : Nat)
  | work (index : Nat) (setting : WorkerSetting)
  | regenerateVideoThumbnail (requestKey : String) (requestedSizePx : Nat)
      (setting : WorkerSetting)
  | preGenerateThumbnail (requestKey : String) (setting : WorkerSetting)
  | clearCache (interrupted : Bool) (resists : String → Bool)
  | changeEnabled (enabled : Bool)
  | initializeCaches (stale : Bool) (resists : String → Bool)
  | trimMemory (keeps : MemoryKey → Bool)
  | trimDisk (keeps : String → Bool)

def taskAction : Task → Action Unit
  | .load requestKey requestedSizePx => load requestKey requestedSizePx
  | .cancel request => ask (.cancel request)
  | .work index setting => work index setting
  | .regenerateVideoThumbnail requestKey requestedSizePx setting =>
      regenerateVideoThumbnail requestKey requestedSizePx setting
  | .preGenerateThumbnail requestKey setting => preGenerateThumbnail requestKey setting
  | .clearCache interrupted resists => clearCache interrupted resists
  | .changeEnabled enabled => changeEnabled enabled
  | .initializeCaches stale resists => initializeCaches stale resists
  | .trimMemory keeps => ask (.evictMemory keeps)
  | .trimDisk keeps => ask (.evictDisk keeps)

/-- A store as its constructor leaves it, with the files that are there. -/
def freshStore (disk : Table String Thumbnail) : RequestStore where
  disk := disk

/-! ## What the programs call -/

/-- The accesses of a worker to the caches. -/
def isCacheAccess : LoadCall → Bool
  | .isThumbnailEnabled | .getMemory _ | .putMemory _ _ | .evictMemory _ | .isUsableThumbnail _
  | .deleteCachedThumbnail _ _ | .writeThumbnail _ _ _ _ | .decodeForDisplay _ => true
  | _ => false

/-- The calls of a worker that answers no request in flight. -/
def isAside : LoadCall → Bool
  | .getGeneration => true
  | .answerNow (.stale _) => false
  | .answerNow _ => true
  | c => isCacheAccess c

theorem aside (c : LoadCall) (access : isCacheAccess c = true) : isAside c = true := by
  cases c with
  | getGeneration => rfl
  | answerNow answer => cases access
  | _ => exact access

theorem aside_cases {c : LoadCall} (aside : isAside c = true) :
    c = .getGeneration ∨ (∃ answer, c = .answerNow answer ∧ ∀ current, answer ≠ .stale current) ∨
      isCacheAccess c = true := by
  cases c with
  | getGeneration => exact Or.inl rfl
  | answerNow answer =>
      refine Or.inr (Or.inl ⟨answer, rfl, ?_⟩)
      rintro current rfl
      cases aside
  | _ => exact Or.inr (Or.inr aside)

theorem everyCall_generateThumbnail (requestKey : String) (generation : Nat)
    (setting : WorkerSetting) :
    (generateThumbnail requestKey generation setting).EveryCall fun c =>
      isCacheAccess c = true := by
  unfold generateThumbnail
  split_ifs
  · exact ⟨rfl, fun _ => trivial⟩
  · trivial

theorem everyCall_resolveThumbnail (requestKey : String) (generation : Nat)
    (setting : WorkerSetting) :
    (resolveThumbnail requestKey generation setting).EveryCall fun c =>
      isCacheAccess c = true := by
  have dropped : (ask (.deleteCachedThumbnail requestKey setting.deletes) >>= fun _ =>
      (pure false : Action Bool)).EveryCall fun c => isCacheAccess c = true :=
    ⟨rfl, fun _ => trivial⟩
  unfold resolveThumbnail
  split
  · exact dropped
  · refine ⟨rfl, fun usable => ?_⟩
    change Program.EveryCall _ (if usable = true then _ else _)
    split
    · trivial
    · refine ⟨rfl, fun _ => ?_⟩
      change Program.EveryCall _ (if setting.recentFailure = true then _ else _)
      split
      · trivial
      · apply Program.EveryCall.bind (everyCall_generateThumbnail requestKey generation setting)
        intro generated
        change Program.EveryCall _ (if generated = true then _ else _)
        split
        · refine ⟨rfl, fun usable => ?_⟩
          change Program.EveryCall _ (if usable = true then _ else _)
          split
          · trivial
          · exact dropped
        · exact dropped

theorem everyCall_decodeForDisplay (requestKey : String) (generation requestedSizePx : Nat)
    (setting : WorkerSetting) :
    (decodeForDisplay requestKey generation requestedSizePx setting).EveryCall fun c =>
      isCacheAccess c = true := by
  unfold decodeForDisplay
  split_ifs
  · exact ⟨rfl, fun _ => trivial⟩
  · trivial

theorem everyCall_bitmapFor (requestKey : String) (generation requestedSizePx : Nat) (shows : Bool)
    (decodedByBucket : List (Nat × Bitmap)) (setting : WorkerSetting) :
    (bitmapFor requestKey generation requestedSizePx shows decodedByBucket setting).EveryCall
      fun c => isCacheAccess c = true := by
  unfold bitmapFor
  split_ifs
  · cases decodedByBucket.lookup requestedSizePx with
    | some bitmap => trivial
    | none => exact everyCall_decodeForDisplay _ _ _ _
  · trivial

theorem everyCall_decodeRegenerated (requestKey : String) (generation requestedSizePx : Nat)
    (setting : WorkerSetting) :
    (decodeRegenerated requestKey generation requestedSizePx setting).EveryCall fun c =>
      isAside c = true := by
  refine ⟨rfl, fun current => ?_⟩
  change Program.EveryCall _ (if generation = current then _ else _)
  split
  · apply Program.EveryCall.bind ((everyCall_generateThumbnail requestKey generation setting).mono aside)
    intro generated
    change Program.EveryCall _ (if generated = true then _ else _)
    split
    · refine ⟨rfl, fun usable => ?_⟩
      change Program.EveryCall _ (if usable = true then _ else _)
      split
      · exact (everyCall_decodeForDisplay _ _ _ _).mono aside
      · trivial
    · trivial
  · trivial

theorem everyCall_regenerateBitmap (requestKey : String) (generation requestedSizePx : Nat)
    (setting : WorkerSetting) :
    (regenerateBitmap requestKey generation requestedSizePx setting).EveryCall fun c =>
      isAside c = true := by
  have dropped : (dropFailed requestKey generation setting).EveryCall fun c =>
      isAside c = true := by
    refine ⟨rfl, fun current => ?_⟩
    change Program.EveryCall _ (if generation = current then _ else _)
    split
    · exact ⟨rfl, fun _ => trivial⟩
    · trivial
  apply Program.EveryCall.bind (everyCall_decodeRegenerated _ _ _ _)
  intro bitmap
  cases bitmap with
  | none => exact Program.EveryCall.bind dropped fun _ => trivial
  | some bitmap => exact ⟨rfl, fun _ => trivial⟩

theorem everyCall_regenerateVideoThumbnail (requestKey : String) (requestedSizePx : Nat)
    (setting : WorkerSetting) :
    (regenerateVideoThumbnail requestKey requestedSizePx setting).EveryCall fun c =>
      isAside c = true := by
  unfold regenerateVideoThumbnail
  split
  · exact ⟨rfl, fun _ => trivial⟩
  · refine ⟨rfl, fun generation => ⟨rfl, fun _ => ⟨rfl, fun _ => ?_⟩⟩⟩
    apply Program.EveryCall.bind (everyCall_regenerateBitmap _ _ _ _)
    intro bitmap
    cases bitmap with
    | none => exact ⟨rfl, fun _ => trivial⟩
    | some bitmap => exact ⟨rfl, fun _ => trivial⟩

theorem everyCall_preGenerateThumbnail (requestKey : String) (setting : WorkerSetting) :
    (preGenerateThumbnail requestKey setting).EveryCall fun c => isAside c = true := by
  refine ⟨rfl, fun generation => ⟨rfl, fun enabled => ?_⟩⟩
  change Program.EveryCall _ (if enabled = true then _ else _)
  split
  · exact Program.EveryCall.bind ((everyCall_resolveThumbnail requestKey generation setting).mono aside)
      fun _ => trivial
  · trivial

end RoundSync.Thumbnails.Loading
