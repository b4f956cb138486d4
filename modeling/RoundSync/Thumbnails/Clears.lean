import RoundSync.Thumbnails.Loading

/-!
# What a clear leaves in the caches

A file is written only under the current generation, looked at under the lock that a
clear takes to delete the files, so no clear leaves a file of an older worker.  A
bitmap is put into the memory cache without that lock, after the generation was
looked at, or not looked at: a clear may have emptied the caches meanwhile.
-/

namespace RoundSync.Thumbnails.Loading

open RoundSync.Data
open RoundSync.Transition

/-- The runs of the store; a thread notes the generation that it has raised. -/
def clearRuns : Protocol RequestStore LoadReply (Option Nat) where
  answer := answer
  blank := none
  note raised store
    | .incrementGeneration => some (store.cacheGeneration + 1)
    | _ => raised
  allowed raised
    | .clearLocked generation _ | .endClear generation => raised = some generation
    | _ => True

def isClearCall : LoadCall → Bool
  | .incrementGeneration | .clearLocked _ _ | .endClear _ => true
  | _ => false

namespace Clears

/-! ## The programs -/

/-- A program that clears nothing. -/
theorem obeys_quiet {α : Type} {program : Action α} {raised : Option Nat}
    (calls : program.EveryCall fun c => isClearCall c = false) :
    clearRuns.Obeys program (fun _ _ => True) raised := by
  refine Protocol.obeys_of_everyCall calls (fun c quiet => ?_) (fun store c quiet => ?_)
    fun _ => trivial
  · cases c with
    | incrementGeneration | clearLocked generation resists | endClear generation => cases quiet
    | _ => trivial
  · cases c with
    | incrementGeneration | clearLocked generation resists | endClear generation => cases quiet
    | _ => rfl

theorem quiet_of_aside (c : LoadCall) (isAside : isAside c = true) : isClearCall c = false := by
  cases c with
  | incrementGeneration | clearLocked generation resists | endClear generation => cases isAside
  | _ => rfl

theorem quiet_of_access (c : LoadCall) (access : isCacheAccess c = true) :
    isClearCall c = false :=
  quiet_of_aside c (aside c access)

theorem everyCall_load (requestKey : String) (requestedSizePx : Nat) :
    (load requestKey requestedSizePx).EveryCall fun c => isClearCall c = false := by
  refine ⟨rfl, fun enabled => ?_⟩
  change Program.EveryCall _ (if enabled = true then _ else _)
  split_ifs
  · refine ⟨rfl, fun memoryBitmap => ?_⟩
    cases memoryBitmap with
    | some bitmap => exact ⟨rfl, fun _ => trivial⟩
    | none =>
        refine ⟨rfl, fun first => ?_⟩
        change Program.EveryCall _ (if first = true then _ else _)
        split_ifs
        · refine ⟨rfl, fun initialized => ?_⟩
          change Program.EveryCall _ (if initialized = true then _ else _)
          split_ifs
          · exact ⟨rfl, fun _ => ⟨rfl, fun _ => trivial⟩⟩
          · exact ⟨rfl, fun _ => trivial⟩
        · trivial
  · exact ⟨rfl, fun _ => trivial⟩

theorem everyCall_completeRequestsWithNull (requestKey : String) (answer : Answer) :
    (completeRequestsWithNull requestKey answer).EveryCall fun c => isClearCall c = false := by
  refine ⟨rfl, fun requests => Program.everyCall_forEach (fun request => ?_) requests⟩
  refine ⟨rfl, fun cancelled => ?_⟩
  change Program.EveryCall _ (if cancelled = true then _ else _)
  split_ifs
  · trivial
  · exact ⟨rfl, fun _ => trivial⟩

theorem everyCall_deliver (requestKey : String) (generation : Nat) (shows : Bool)
    (missing : Answer) (setting : WorkerSetting) (requests : List LoadRequest)
    (decodedByBucket : List (Nat × Bitmap)) :
    (deliver requestKey generation shows missing setting requests decodedByBucket).EveryCall
      fun c => isClearCall c = false := by
  induction requests generalizing decodedByBucket with
  | nil => trivial
  | cons request requests ih =>
      refine ⟨rfl, fun cancelled => ?_⟩
      change Program.EveryCall _ (if cancelled = true then _ else _)
      split_ifs
      · exact ih decodedByBucket
      · apply Program.EveryCall.bind ((everyCall_bitmapFor _ _ _ _ _ _).mono quiet_of_access)
        intro bitmap
        cases bitmap with
        | none => exact ⟨rfl, fun _ => ih decodedByBucket⟩
        | some bitmap => exact ⟨rfl, fun _ => ⟨rfl, fun _ => ih _⟩⟩

theorem everyCall_loadUnderGeneration (requestKey : String) (generation : Nat)
    (setting : WorkerSetting) :
    (loadUnderGeneration requestKey generation setting).EveryCall fun c =>
      isClearCall c = false := by
  refine ⟨rfl, fun current => ?_⟩
  change Program.EveryCall _ (if generation ≠ current then _ else _)
  split
  · exact everyCall_completeRequestsWithNull requestKey _
  · refine ⟨rfl, fun discarded => ?_⟩
    change Program.EveryCall _ (if discarded = true then _ else _)
    split
    · trivial
    · refine ⟨rfl, fun enabled => ?_⟩
      change Program.EveryCall _ (if enabled = true then _ else _)
      split
      · apply Program.EveryCall.bind
          ((everyCall_resolveThumbnail requestKey generation setting).mono quiet_of_access)
        intro resolved
        refine ⟨rfl, fun requests => ⟨rfl, fun current => ?_⟩⟩
        change Program.EveryCall _ (if generation = current then _ else _)
        split
        · exact ⟨rfl, fun enabled => everyCall_deliver _ _ _ _ _ requests []⟩
        · exact everyCall_deliver _ _ _ _ _ requests []
      · exact everyCall_completeRequestsWithNull requestKey _

theorem everyCall_work (index : Nat) (setting : WorkerSetting) :
    (work index setting).EveryCall fun c => isClearCall c = false := by
  refine ⟨rfl, fun job => ?_⟩
  cases job with
  | none => trivial
  | some job =>
      change (loadOrGenerate job setting).EveryCall _
      unfold loadOrGenerate
      split
      · exact everyCall_completeRequestsWithNull job.requestKey _
      · cases job.requestedGeneration with
        | some generation => exact everyCall_loadUnderGeneration job.requestKey generation setting
        | none =>
            exact ⟨rfl, fun generation =>
              everyCall_loadUnderGeneration job.requestKey generation setting⟩

theorem obeys_taskAction (task : Task) :
    clearRuns.Obeys (taskAction task) (fun _ _ => True) clearRuns.blank := by
  cases task with
  | load requestKey requestedSizePx => exact obeys_quiet (everyCall_load _ _)
  | cancel request => exact ⟨trivial, fun _ => trivial⟩
  | work index setting => exact obeys_quiet (everyCall_work _ _)
  | regenerateVideoThumbnail requestKey requestedSizePx setting =>
      exact obeys_quiet ((everyCall_regenerateVideoThumbnail _ _ _).mono quiet_of_aside)
  | preGenerateThumbnail requestKey setting =>
      exact obeys_quiet ((everyCall_preGenerateThumbnail _ _).mono quiet_of_aside)
  | clearCache interrupted resists =>
      refine ⟨trivial, fun store => ?_⟩
      cases interrupted with
      | true => exact ⟨rfl, fun _ => trivial⟩
      | false => exact ⟨rfl, fun _ => ⟨rfl, fun _ => trivial⟩⟩
  | changeEnabled enabled =>
      refine ⟨trivial, fun _ => ?_⟩
      cases enabled with
      | true => trivial
      | false => exact ⟨trivial, fun _ => ⟨trivial, fun _ => trivial⟩⟩
  | initializeCaches stale resists =>
      cases stale with
      | false => exact ⟨trivial, fun _ => trivial⟩
      | true =>
          exact ⟨trivial, fun _ => ⟨trivial, fun _ => ⟨trivial, fun _ => ⟨trivial, fun _ =>
            trivial⟩⟩⟩⟩
  | trimMemory keeps => exact ⟨trivial, fun _ => trivial⟩
  | trimDisk keeps => exact ⟨trivial, fun _ => trivial⟩

/-! ## The invariant -/

/-- The step leaves something behind a clear: a bitmap of an older worker, or from an
older worker's file, comes into the memory cache after the clear has emptied it; the
clear cannot delete an older file; or it ends without having emptied the caches. -/
def outlivesClear (store : RequestStore) : LoadCall → Bool
  | .putMemory _ bitmap => bitmap.generation < store.cleared || bitmap.origin < store.cleared
  | .clearLocked generation resists =>
      store.disk.entries.any fun entry => resists entry.1 && entry.2.origin < generation
  | .endClear generation => store.cleared < generation
  | _ => false

def ClearsAll {ι : Type} (store : RequestStore) (_ : ι → Option Nat) (_ : ι) (c : LoadCall) :
    Prop :=
  outlivesClear store c = false

instance {ι : Type} (store : RequestStore) (notes : ι → Option Nat) (i : ι) (c : LoadCall) :
    Decidable (ClearsAll store notes i c) :=
  inferInstanceAs (Decidable (_ = _))

/-- Neither cache has a thumbnail of a worker older than this generation. -/
structure NoneOlder (generation : Nat) (store : RequestStore) : Prop where
  memory : ∀ bitmap ∈ store.memory.values, generation ≤ bitmap.generation ∧
    generation ≤ bitmap.origin
  disk : ∀ thumbnail ∈ store.disk.values, generation ≤ thumbnail.origin

structure Invariant {ι : Type} (store : RequestStore) (notes : ι → Option Nat) : Prop where
  cleared : store.cleared ≤ store.cacheGeneration
  completed : store.completed ≤ store.cleared
  raised : ∀ i generation, notes i = some generation → generation ≤ store.cacheGeneration
  noneOlder : NoneOlder store.cleared store

section

variable {store store' : RequestStore} {generation : Nat}

theorem NoneOlder.mono (noneOlder : NoneOlder generation store) {older : Nat}
    (le : older ≤ generation) : NoneOlder older store :=
  ⟨fun bitmap member => ⟨Nat.le_trans le (noneOlder.memory bitmap member).1,
      Nat.le_trans le (noneOlder.memory bitmap member).2⟩,
    fun thumbnail member => Nat.le_trans le (noneOlder.disk thumbnail member)⟩

/-- Calls that put nothing into the caches. -/
theorem NoneOlder.of_subset (noneOlder : NoneOlder generation store)
    (memory : ∀ bitmap ∈ store'.memory.values, bitmap ∈ store.memory.values)
    (disk : ∀ thumbnail ∈ store'.disk.values, thumbnail ∈ store.disk.values) :
    NoneOlder generation store' :=
  ⟨fun bitmap member => noneOlder.memory bitmap (memory bitmap member),
    fun thumbnail member => noneOlder.disk thumbnail (disk thumbnail member)⟩

variable {ι : Type} [DecidableEq ι] {notes : ι → Option Nat} {i : ι}

/-- Calls that clear nothing, by what they put into the caches. -/
theorem Invariant.of_quiet (invariant : Invariant store notes) {c : LoadCall}
    (quiet : isClearCall c = false) (cleared : store'.cleared = store.cleared)
    (completed : store'.completed = store.completed)
    (cacheGeneration : store'.cacheGeneration = store.cacheGeneration)
    (noneOlder : NoneOlder store.cleared store') :
    Invariant store' (Function.update notes i (clearRuns.note (notes i) store c)) := by
  have note : clearRuns.note (notes i) store c = notes i := by
    cases c with
    | incrementGeneration | clearLocked generation resists | endClear generation => cases quiet
    | _ => rfl
  rw [note, Function.update_eq_self]
  exact ⟨by rw [cleared, cacheGeneration]; exact invariant.cleared,
    by rw [completed, cleared]; exact invariant.completed,
    by rw [cacheGeneration]; exact invariant.raised, by rw [cleared]; exact noneOlder⟩

/-- What the other calls leave alone. -/
structure SameCaches (store store' : RequestStore) : Prop where
  cleared : store'.cleared = store.cleared
  completed : store'.completed = store.completed
  cacheGeneration : store'.cacheGeneration = store.cacheGeneration
  memory : store'.memory = store.memory
  disk : store'.disk = store.disk

theorem Invariant.of_same (invariant : Invariant store notes) {c : LoadCall}
    (quiet : isClearCall c = false) (same : SameCaches store store') :
    Invariant store' (Function.update notes i (clearRuns.note (notes i) store c)) := by
  refine invariant.of_quiet quiet same.cleared same.completed same.cacheGeneration
    (invariant.noneOlder.of_subset ?_ ?_)
  · rw [same.memory]
    exact fun _ => id
  · rw [same.disk]
    exact fun _ => id

/-- The calls that change a cache. -/
def isCacheCall : LoadCall → Bool
  | .putMemory _ _ | .evictMemory _ | .evictDisk _ | .deleteCachedThumbnail _ _
  | .writeThumbnail _ _ _ _ | .incrementGeneration | .clearLocked _ _ | .endClear _ => true
  | _ => false

omit [DecidableEq ι] in
theorem sameCaches_answer {c : LoadCall} (other : isCacheCall c = false) (store : RequestStore) :
    SameCaches store (answer c store).2 := by
  cases c with
  | putMemory memoryKey bitmap | evictMemory keeps | evictDisk keeps
  | deleteCachedThumbnail requestKey deletes | writeThumbnail requestKey generation usable writes
  | incrementGeneration | clearLocked generation resists | endClear generation => cases other
  | join requestKey requestedSizePx =>
      simp only [answer, join]
      cases store.inFlight.lookup requestKey with
      | none => exact ⟨rfl, rfl, rfl, rfl, rfl⟩
      | some requests => exact ⟨rfl, rfl, rfl, rfl, rfl⟩
  | removeEntry requestKey =>
      simp only [answer, removeEntry]
      cases store.inFlight.lookup requestKey with
      | none => exact ⟨rfl, rfl, rfl, rfl, rfl⟩
      | some requests => exact ⟨rfl, rfl, rfl, rfl, rfl⟩
  | discardIfNoActiveRequests requestKey =>
      simp only [answer, discardIfNoActiveRequests]
      cases store.inFlight.lookup requestKey with
      | none => exact ⟨rfl, rfl, rfl, rfl, rfl⟩
      | some requests =>
          dsimp only
          split_ifs
          · exact ⟨rfl, rfl, rfl, rfl, rfl⟩
          · exact ⟨rfl, rfl, rfl, rfl, rfl⟩
  | isCancelled request =>
      simp only [answer, isCancelled]
      split_ifs
      · exact ⟨rfl, rfl, rfl, rfl, rfl⟩
      · exact ⟨rfl, rfl, rfl, rfl, rfl⟩
  | cancel request =>
      simp only [answer]
      split_ifs
      · exact ⟨rfl, rfl, rfl, rfl, rfl⟩
      · exact ⟨rfl, rfl, rfl, rfl, rfl⟩
  | take index interrupted =>
      simp only [answer, take]
      split_ifs
      · cases store.queue[index]? with
        | none => exact ⟨rfl, rfl, rfl, rfl, rfl⟩
        | some job => exact ⟨rfl, rfl, rfl, rfl, rfl⟩
      · exact ⟨rfl, rfl, rfl, rfl, rfl⟩
  | _ => exact ⟨rfl, rfl, rfl, rfl, rfl⟩

theorem invariant_putMemory (invariant : Invariant store notes) {memoryKey : MemoryKey}
    {bitmap : Bitmap} (clears : ClearsAll store notes i (.putMemory memoryKey bitmap)) :
    Invariant (answer (.putMemory memoryKey bitmap) store).2
      (Function.update notes i (clearRuns.note (notes i) store (.putMemory memoryKey bitmap))) := by
  have young : store.cleared ≤ bitmap.generation ∧ store.cleared ≤ bitmap.origin := by
    simpa [ClearsAll, outlivesClear] using clears
  refine invariant.of_quiet rfl rfl rfl rfl ⟨fun found member => ?_, invariant.noneOlder.disk⟩
  rcases Table.mem_values_insert member with rfl | before
  · exact young
  · exact invariant.noneOlder.memory found before

/-- A file is written under the current generation. -/
theorem invariant_writeThumbnail (invariant : Invariant store notes) {requestKey : String}
    {usable writes : Bool} :
    Invariant (answer (.writeThumbnail requestKey generation usable writes) store).2
      (Function.update notes i (clearRuns.note (notes i) store
        (.writeThumbnail requestKey generation usable writes))) := by
  change Invariant (writeThumbnail requestKey generation usable writes store).2 _
  unfold writeThumbnail
  split_ifs with refused
  · exact invariant.of_same rfl ⟨rfl, rfl, rfl, rfl, rfl⟩
  · have current : generation = store.cacheGeneration := by
      by_contra other
      exact refused (Or.inl other)
    refine invariant.of_quiet rfl rfl rfl rfl ⟨invariant.noneOlder.memory, fun found member => ?_⟩
    rcases Table.mem_values_insert member with rfl | before
    · exact current ▸ invariant.cleared
    · exact invariant.noneOlder.disk found before

theorem invariant_incrementGeneration (invariant : Invariant store notes) :
    Invariant (answer .incrementGeneration store).2
      (Function.update notes i (clearRuns.note (notes i) store .incrementGeneration)) := by
  constructor
  · exact Nat.le_succ_of_le invariant.cleared
  · exact invariant.completed
  · apply forall_update (fun raised => ∀ generation, raised = some generation →
      generation ≤ store.cacheGeneration + 1)
    · exact fun j _ generation raised => Nat.le_succ_of_le (invariant.raised j generation raised)
    · intro generation raised
      exact Nat.le_of_eq (Option.some.inj raised).symm
  · exact invariant.noneOlder.of_subset (fun _ => id) fun _ => id

/-- A clear empties the memory cache, and the files that it leaves are not older. -/
theorem invariant_clearLocked (invariant : Invariant store notes) {resists : String → Bool}
    (allowed : clearRuns.allowed (notes i) (.clearLocked generation resists))
    (clears : ClearsAll store notes i (.clearLocked generation resists)) :
    Invariant (answer (.clearLocked generation resists) store).2
      (Function.update notes i
        (clearRuns.note (notes i) store (.clearLocked generation resists))) := by
  have raised : notes i = some generation := allowed
  have note : clearRuns.note (notes i) store (.clearLocked generation resists) = notes i := rfl
  have bound := invariant.raised i generation raised
  rw [note, Function.update_eq_self]
  constructor
  · exact Nat.max_le.mpr ⟨invariant.cleared, bound⟩
  · exact Nat.le_trans invariant.completed (Nat.le_max_left _ _)
  · exact invariant.raised
  · refine ⟨nofun, fun thumbnail member => ?_⟩
    obtain ⟨requestKey, found⟩ := Table.mem_values_iff.mp member
    obtain ⟨before, kept⟩ := Table.lookup_keepKeys_eq_some_iff.mp found
    have entry : (⟨requestKey, thumbnail⟩ : Σ _ : String, Thumbnail) ∈ store.disk.entries :=
      AList.mem_lookup_iff.mp before
    have notOlder := List.any_eq_false.mp clears _ entry
    rw [kept, Bool.true_and, decide_eq_true_eq, Nat.not_lt] at notOlder
    exact Nat.max_le.mpr
      ⟨invariant.noneOlder.disk thumbnail (Table.mem_values_iff.mpr ⟨_, before⟩), notOlder⟩

theorem invariant_endClear (invariant : Invariant store notes)
    (clears : ClearsAll store notes i (.endClear generation)) :
    Invariant (answer (.endClear generation) store).2
      (Function.update notes i (clearRuns.note (notes i) store (.endClear generation))) := by
  have emptied : generation ≤ store.cleared := by
    simpa [ClearsAll, outlivesClear] using clears
  have note : clearRuns.note (notes i) store (.endClear generation) = notes i := rfl
  rw [note, Function.update_eq_self]
  exact ⟨invariant.cleared, Nat.max_le.mpr ⟨invariant.completed, emptied⟩, invariant.raised,
    invariant.noneOlder.of_subset (fun _ => id) fun _ => id⟩

/-- What a call keeps. -/
theorem invariant_answer (invariant : Invariant store notes) {c : LoadCall}
    (allowed : clearRuns.allowed (notes i) c) (clears : ClearsAll store notes i c) :
    Invariant (answer c store).2
      (Function.update notes i (clearRuns.note (notes i) store c)) := by
  cases c with
  | putMemory memoryKey bitmap => exact invariant_putMemory invariant clears
  | evictMemory keeps =>
      exact invariant.of_quiet rfl rfl rfl rfl (invariant.noneOlder.of_subset
        (fun _ => Table.mem_values_keepKeys) fun _ => id)
  | evictDisk keeps =>
      exact invariant.of_quiet rfl rfl rfl rfl (invariant.noneOlder.of_subset
        (fun _ => id) fun _ => Table.mem_values_keepKeys)
  | deleteCachedThumbnail requestKey deletes =>
      cases deletes with
      | false => exact invariant.of_same rfl ⟨rfl, rfl, rfl, rfl, rfl⟩
      | true =>
          exact invariant.of_quiet rfl rfl rfl rfl (invariant.noneOlder.of_subset
            (fun _ => id) fun _ => Table.mem_values_erase)
  | writeThumbnail requestKey generation usable writes =>
      exact invariant_writeThumbnail invariant
  | incrementGeneration => exact invariant_incrementGeneration invariant
  | clearLocked generation resists => exact invariant_clearLocked invariant allowed clears
  | endClear generation => exact invariant_endClear invariant clears
  | _ => exact invariant.of_same rfl (sameCaches_answer rfl store)

end

/-! ## The runs -/

section

variable {ι : Type} [DecidableEq ι]

/-- Where no step leaves anything behind a clear, neither cache has a thumbnail of a
worker older than a clear that has completed. -/
theorem cleared_means_cleared (disk : Table String Thumbnail) (events : List (CrewEvent ι Task))
    (clears : Meets (Crew.step clearRuns taskAction) (Crew.AtCall ClearsAll)
      (Crew.start clearRuns () (freshStore disk)) events) :
    Always (Crew.step clearRuns taskAction)
      (fun crew => NoneOlder crew.state.completed crew.state)
      (Crew.start clearRuns () (freshStore disk)) events := by
  have begun : Invariant (freshStore disk) (fun _ : ι => clearRuns.blank) :=
    ⟨Nat.le_refl 0, Nat.le_refl 0, nofun, nofun, fun _ _ => Nat.zero_le _⟩
  have begins : ∀ (s : RequestStore) (g : ι → Option Nat) (i : ι) (_ : Unit), Invariant s g →
      True → Invariant s (Function.update g i clearRuns.blank) := by
    intro s g i _ invariant _
    exact ⟨invariant.cleared, invariant.completed,
      forall_update (fun raised => ∀ generation, raised = some generation →
        generation ≤ s.cacheGeneration) (fun j _ => invariant.raised j) nofun,
      invariant.noneOlder⟩
  have keeps := @Crew.always_keeps _ _ _ _ _ _ _ _ clearRuns taskAction ClearsAll Invariant
    (fun _ _ => True) (fun task => obeys_taskAction task) begins
    (fun s g i c invariant allowed clears => invariant_answer invariant allowed clears)
    (Crew.start clearRuns () (freshStore disk)) ⟨begun, fun _ => trivial⟩ events clears
  exact keeps.mono fun crew kept => kept.inv.noneOlder.mono kept.inv.completed

end

/-- The caches are set up, a thumbnail is requested, and its worker goes on until it
has decoded it. -/
def decoded : List (CrewEvent (Fin 2) Task) :=
  [.begin 0 (.initializeCaches false fun _ => false), .advance 0] ++
  [.begin 0 (.load "k" 64)] ++ List.replicate 6 (.advance 0) ++
  [.begin 0 (.work 0 smoothSetting)] ++ List.replicate 13 (.advance 0)

/-- The worker answers its request, and then a clear empties the caches. -/
def clearAfterwards : List (CrewEvent (Fin 2) Task) :=
  decoded ++ List.replicate 2 (.advance 0) ++
  [.begin 1 (.clearCache false fun _ => false)] ++ List.replicate 3 (.advance 1)

set_option maxRecDepth 4000 in
theorem cleared_means_cleared_afterwards :
    Always (Crew.step clearRuns taskAction)
      (fun crew => NoneOlder crew.state.completed crew.state)
      (Crew.start clearRuns () (freshStore ∅)) clearAfterwards :=
  cleared_means_cleared ∅ clearAfterwards (by decide)

/-- A clear runs from its first step to its last between the worker's decoding and its
put into the memory cache. -/
def clearBetween : List (CrewEvent (Fin 2) Task) :=
  decoded ++ [.begin 1 (.clearCache false fun _ => false)] ++ List.replicate 3 (.advance 1) ++
  List.replicate 2 (.advance 0)

set_option maxRecDepth 4000 in
/-- The bitmap is in the memory cache after the clear. -/
theorem clearBetween_leaves_bitmap :
    ¬∀ (disk : Table String Thumbnail) (events : List (CrewEvent (Fin 2) Task)),
      Always (Crew.step clearRuns taskAction)
        (fun crew => NoneOlder crew.state.completed crew.state)
        (Crew.start clearRuns () (freshStore disk)) events := by
  intro all
  have last := (all ∅ clearBetween).last
  have left : (⟨0, 0⟩ : Bitmap) ∈ (run (Crew.step clearRuns taskAction)
      (Crew.start clearRuns () (freshStore ∅)) clearBetween).state.memory.values := by
    decide
  have completed : (run (Crew.step clearRuns taskAction)
      (Crew.start clearRuns () (freshStore ∅)) clearBetween).state.completed = 1 := by
    decide
  have young := (last.memory _ left).1
  rw [completed] at young
  exact absurd young (by decide)

end Clears

end RoundSync.Thumbnails.Loading
