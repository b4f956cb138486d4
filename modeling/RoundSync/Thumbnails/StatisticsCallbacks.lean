import RoundSync.Thumbnails.Maintenance

/-!
# Callbacks that wait for statistics

A request for statistics leaves its callback with the store and schedules a
refresh unless one is scheduled.  Whoever publishes takes all callbacks with it.
A refresh that is done takes its flag back and then looks for callbacks that were
left meanwhile; a refresh that ends early, or that fails, does not look.
-/

namespace RoundSync.Thumbnails.Maintenance

open RoundSync.Transition

/-- How far a thread is: it has left a callback, won the flag, runs a refresh, hands
out callbacks (within a refresh or not), has taken back the flag of a refresh that
was completed, and has looked or need not look for callbacks after that. -/
inductive RefreshPhase where
  | idle
  | asked
  | won
  | running
  | posting (refresh : Bool) (left : List Nat)
  | completed
  | checked
  deriving DecidableEq

namespace RefreshPhase

def onExecutor : RefreshPhase → Bool
  | .idle | .asked | .won => false
  | _ => true

/-- The thread will submit the refresh, or runs it and still holds its flag. -/
def releases : RefreshPhase → Bool
  | .won | .running | .posting true _ => true
  | _ => false

/-- The thread will look for callbacks or for the flag. -/
def answers : RefreshPhase → Bool
  | .asked | .won | .running | .posting true _ | .completed => true
  | _ => false

/-- The callbacks that the thread has taken and not yet posted. -/
def left : RefreshPhase → List Nat
  | .posting _ left => left
  | _ => []

def posted (refresh : Bool) (left : List Nat) : RefreshPhase :=
  if left = [] then if refresh then .running else .idle else .posting refresh left

/-- What a call makes of the phase. -/
def after (phase : RefreshPhase) (store : CacheStore) : StoreCall → RefreshPhase
  | .addPending _ => .asked
  | .swapRefreshScheduled => if store.statisticsRefreshScheduled then .idle else .won
  | .submit .refresh | .finish => .idle
  | .take index => if (take index store).1 = some .refresh then .running else phase
  | .drainPending => posted (phase = .running) store.pendingStatisticsCallbacks
  | .post _ _ =>
      match phase with
      | .posting refresh (_ :: left) => posted refresh left
      | _ => phase
  | .hasPending =>
      if phase = .completed then
        if store.pendingStatisticsCallbacks.isEmpty then .checked else .asked
      else phase
  | .releaseRefreshScheduled refreshCompleted => if refreshCompleted then .completed else .checked
  | _ => phase

/-- The calls that requests and refreshes consist of, in their order. -/
def allowed (phase : RefreshPhase) : StoreCall → Prop
  | .addPending _ | .take _ => phase = .idle
  | .swapRefreshScheduled => phase = .asked ∨ phase = .checked
  | .submit .refresh => phase = .won
  | .finish => phase = .idle ∨ phase = .checked
  | .drainPending => phase = .idle ∨ phase = .running
  | .post callback _ => phase = .idle ∨ ∃ refresh left, phase = .posting refresh (callback :: left)
  | .hasPending => phase = .running ∨ phase = .completed ∨ phase = .checked
  | .releaseRefreshScheduled _ => phase = .running
  | _ => True

theorem answers_of_releases {phase : RefreshPhase} (releases : phase.releases = true) :
    phase.answers = true := by
  cases phase with
  | posting refresh left =>
      cases refresh with
      | false => cases releases
      | true => rfl
  | won | running => rfl
  | _ => cases releases

end RefreshPhase

/-- The runs of the store, with the phases of the threads. -/
def refreshRuns : Protocol CacheStore StoreReply (Notes RefreshPhase) :=
  upkeep .idle RefreshPhase.after RefreshPhase.allowed

/-- The calls that requests and refreshes consist of. -/
def isRefreshCall : StoreCall → Bool
  | .addPending _ | .swapRefreshScheduled | .submit .refresh | .take _ | .finish | .drainPending
  | .post _ _ | .hasPending | .releaseRefreshScheduled _ => true
  | _ => false

namespace Callbacks

/-! ## The programs -/

section

attribute [local simp] answer needsExecutor isRefreshCall RefreshPhase.after RefreshPhase.allowed

theorem note_of_quiet {notes : Notes RefreshPhase} {c : StoreCall}
    (quiet : isRefreshCall c = false) (store : CacheStore) :
    refreshRuns.note notes store c = notes := by
  unfold refreshRuns upkeep holdingAfter RefreshPhase.after
  cases c with
  | submit job =>
      cases job with
      | refresh => cases quiet
      | _ => rfl
  | addPending callback | swapRefreshScheduled | take index | finish | drainPending
  | post callback statistics | hasPending | releaseRefreshScheduled completed => cases quiet
  | _ => rfl

theorem allowed_of_quiet {notes : Notes RefreshPhase} {c : StoreCall}
    (quiet : isRefreshCall c = false) (executor : needsExecutor c = true → notes.holding = true) :
    refreshRuns.allowed notes c := by
  refine ⟨executor, ?_, ?_⟩
  · rintro index rfl
    cases quiet
  · cases c with
    | submit job =>
        cases job with
        | refresh => cases quiet
        | _ => trivial
    | addPending callback | swapRefreshScheduled | take index | finish | drainPending
    | post callback statistics | hasPending | releaseRefreshScheduled completed => cases quiet
    | _ => trivial

/-- A program without calls of requests and refreshes. -/
theorem obeys_quiet {α : Type} {program : Action α} {notes : Notes RefreshPhase}
    (calls : program.EveryCall fun c =>
      isRefreshCall c = false ∧ (needsExecutor c = true → notes.holding = true)) :
    refreshRuns.Obeys program (fun _ after => after = notes) notes :=
  Protocol.obeys_of_everyCall calls (fun _ quiet => allowed_of_quiet quiet.1 quiet.2)
    (fun store _ quiet => note_of_quiet quiet.1 store) fun _ => rfl

theorem obeys_requestCacheStatisticsRefresh {holding : Bool} {phase : RefreshPhase}
    (asks : phase = .asked ∨ phase = .checked) :
    refreshRuns.Obeys requestCacheStatisticsRefresh (fun _ after => after = ⟨holding, .idle⟩)
      ⟨holding, phase⟩ := by
  refine ⟨⟨by simp, by simp, asks⟩, fun store => ?_⟩
  cases scheduled : store.statisticsRefreshScheduled with
  | false =>
      simp only [refreshRuns, upkeep, answer, scheduled, RefreshPhase.after, holdingAfter]
      exact ⟨⟨by simp, by simp, rfl⟩, fun _ => rfl⟩
  | true =>
      simp only [refreshRuns, upkeep, answer, scheduled, RefreshPhase.after, holdingAfter]
      exact rfl

/-- The callbacks that were taken are posted one by one. -/
theorem obeys_posts (refresh : Bool) (statistics : CacheStatistics) (callbacks : List Nat) :
    refreshRuns.Obeys (Program.forEach callbacks fun callback => ask (.post callback statistics))
      (fun _ after => after = ⟨true, RefreshPhase.posted refresh []⟩)
      ⟨true, RefreshPhase.posted refresh callbacks⟩ := by
  induction callbacks with
  | nil => exact rfl
  | cons callback callbacks ih =>
      exact ⟨⟨by simp, by simp, Or.inr ⟨refresh, callbacks, rfl⟩⟩, fun _ => ih⟩

theorem obeys_publishCacheStatistics (refresh : Bool) (statistics : CacheStatistics)
    (generation : Nat) :
    refreshRuns.Obeys (publishCacheStatistics statistics generation)
      (fun _ after => after = ⟨true, RefreshPhase.posted refresh []⟩)
      ⟨true, RefreshPhase.posted refresh []⟩ := by
  refine ⟨allowed_of_quiet rfl nofun, fun store => ?_⟩
  change refreshRuns.Obeys (if _ then _ else _) _ ⟨true, RefreshPhase.posted refresh []⟩
  split_ifs
  · exact rfl
  · refine ⟨allowed_of_quiet rfl fun _ => rfl, fun _ => ⟨allowed_of_quiet rfl fun _ => rfl,
      fun _ => ⟨⟨fun _ => rfl, by simp, ?_⟩, fun later => ?_⟩⟩⟩
    · cases refresh with
      | false => exact Or.inl rfl
      | true => exact Or.inr rfl
    · have posts := obeys_posts refresh statistics later.pendingStatisticsCallbacks
      cases refresh with
      | false => exact posts
      | true => exact posts

theorem obeys_trimDiskCache (recorded : Option Nat) (setting : TrimSetting) :
    refreshRuns.Obeys (trimDiskCache recorded setting) (fun _ after => after = ⟨true, .idle⟩)
      ⟨true, .idle⟩ := by
  refine ⟨allowed_of_quiet rfl fun _ => rfl, fun _ => ⟨allowed_of_quiet rfl fun _ => rfl,
    fun store => ?_⟩⟩
  apply (obeys_publishCacheStatistics false _ _).bind
  rintro _ _ rfl
  exact ⟨allowed_of_quiet rfl fun _ => rfl, fun _ => rfl⟩

theorem obeys_enqueueDiskCacheTrim (notes : Notes RefreshPhase) :
    refreshRuns.Obeys enqueueDiskCacheTrim (fun _ after => after = notes) notes := by
  apply obeys_quiet
  refine ⟨by simp, fun won => ?_⟩
  change Program.EveryCall _ (if won = true then _ else _)
  split_ifs
  · exact ⟨by simp, fun _ => trivial⟩
  · trivial

theorem obeys_requestDiskCacheTrim (notes : Notes RefreshPhase) :
    refreshRuns.Obeys requestDiskCacheTrim (fun _ after => after = notes) notes :=
  ⟨allowed_of_quiet rfl nofun, fun _ => obeys_enqueueDiskCacheTrim notes⟩

theorem obeys_trimTask (setting : TrimSetting) (throws : Bool) :
    refreshRuns.Obeys (trimTask setting throws) (fun _ after => after = ⟨true, .idle⟩)
      ⟨true, .idle⟩ := by
  refine ⟨allowed_of_quiet rfl fun _ => rfl, fun store => ?_⟩
  have released : refreshRuns.Obeys
      (ask .releaseTrimScheduled >>= fun _ => ask .getTrimRequest >>= fun generation =>
        if generation ≠ store.trimRequestGeneration then enqueueDiskCacheTrim else pure ())
      (fun _ after => after = ⟨true, .idle⟩) ⟨true, .idle⟩ := by
    refine ⟨allowed_of_quiet rfl fun _ => rfl, fun _ => ⟨allowed_of_quiet rfl fun _ => rfl,
      fun later => ?_⟩⟩
    change refreshRuns.Obeys (if _ then _ else _) _ ⟨true, .idle⟩
    split_ifs
    · exact obeys_enqueueDiskCacheTrim ⟨true, .idle⟩
    · exact rfl
  cases throws with
  | false =>
      apply (obeys_trimDiskCache (some store.trimRequestGeneration) setting).bind
      rintro _ _ rfl
      exact released
  | true =>
      exact ⟨allowed_of_quiet rfl fun _ => rfl, fun _ => ⟨allowed_of_quiet rfl fun _ => rfl,
        fun _ => released⟩⟩

theorem obeys_initializeTask (stale : Bool) (setting : TrimSetting) :
    refreshRuns.Obeys (initializeTask stale setting) (fun _ after => after = ⟨true, .idle⟩)
      ⟨true, .idle⟩ := by
  have trimmed : refreshRuns.Obeys
      (ask .getCached >>= trimOversized setting)
      (fun _ after => after = ⟨true, .idle⟩) ⟨true, .idle⟩ := by
    refine ⟨allowed_of_quiet rfl nofun, fun store => ?_⟩
    generalize (refreshRuns.answer .getCached store).1 = cached
    cases cached with
    | none => exact obeys_trimDiskCache none setting
    | some statistics =>
        change refreshRuns.Obeys (if _ then _ else _) _ _
        split_ifs
        · exact obeys_trimDiskCache none setting
        · exact rfl
  cases stale with
  | false => exact trimmed
  | true =>
      exact ⟨allowed_of_quiet rfl fun _ => rfl, fun _ => ⟨allowed_of_quiet rfl fun _ => rfl, fun _ =>
        ⟨allowed_of_quiet rfl fun _ => rfl, fun _ => ⟨allowed_of_quiet rfl fun _ => rfl, fun _ =>
          trimmed⟩⟩⟩⟩

/-- What follows the look for callbacks after a completed refresh. -/
theorem obeys_recheck (hasPendingCallbacks : Bool) :
    refreshRuns.Obeys
      (ask .getPublished >>= fun published => ask .getMutation >>= fun mutation =>
        if published ≠ mutation ∨ hasPendingCallbacks then requestCacheStatisticsRefresh
        else pure ())
      (fun _ after => after = ⟨true, .idle⟩ ∨ after = ⟨true, .checked⟩)
      ⟨true, if hasPendingCallbacks then .asked else .checked⟩ := by
  refine ⟨allowed_of_quiet rfl nofun, fun published => ⟨allowed_of_quiet rfl nofun,
    fun mutated => ?_⟩⟩
  change refreshRuns.Obeys (if _ ∨ hasPendingCallbacks = true then _ else _) _ ⟨true, _⟩
  split_ifs with again left
  · exact (obeys_requestCacheStatisticsRefresh (Or.inl rfl)).mono fun _ _ => Or.inl
  · exact (obeys_requestCacheStatisticsRefresh (Or.inr rfl)).mono fun _ _ => Or.inl
  · exact absurd (Or.inr ‹_›) again
  · exact Or.inr rfl

/-- The end of a refresh, with its flag still taken. -/
theorem obeys_finishRefresh (refreshCompleted : Bool) :
    refreshRuns.Obeys (finishRefresh refreshCompleted)
      (fun _ after => after = ⟨true, .idle⟩ ∨ after = ⟨true, .checked⟩) ⟨true, .running⟩ := by
  refine ⟨⟨fun _ => rfl, by simp, rfl⟩, fun _ => ?_⟩
  cases refreshCompleted with
  | false => exact ⟨⟨fun _ => rfl, by simp, Or.inr (Or.inr rfl)⟩, fun _ => Or.inr rfl⟩
  | true =>
      refine ⟨⟨fun _ => rfl, by simp, Or.inr (Or.inl rfl)⟩, fun store => ?_⟩
      have note : refreshRuns.note ⟨true, .completed⟩ store .hasPending =
          ⟨true, if !store.pendingStatisticsCallbacks.isEmpty then .asked else .checked⟩ := by
        cases pending : store.pendingStatisticsCallbacks with
        | nil => simp [refreshRuns, upkeep, holdingAfter, RefreshPhase.after, pending]
        | cons callback callbacks =>
            simp [refreshRuns, upkeep, holdingAfter, RefreshPhase.after, pending]
      have rechecked := obeys_recheck (!store.pendingStatisticsCallbacks.isEmpty)
      rw [← note] at rechecked
      exact rechecked

theorem obeys_refreshTask (maximumBytes : Nat) (throws : Bool) :
    refreshRuns.Obeys (refreshTask maximumBytes throws)
      (fun _ after => after = ⟨true, .idle⟩ ∨ after = ⟨true, .checked⟩) ⟨true, .running⟩ := by
  have calculated : refreshRuns.Obeys calculateCacheStatistics
      (fun _ after => after = ⟨true, .running⟩) ⟨true, .running⟩ := by
    apply obeys_quiet
    apply everyCall_calculateCacheStatistics
    all_goals simp
  refine ⟨⟨fun _ => rfl, by simp, Or.inl rfl⟩, fun _ => ⟨allowed_of_quiet rfl fun _ => rfl, fun _ =>
    ⟨allowed_of_quiet rfl fun _ => rfl, fun _ => ?_⟩⟩⟩
  change refreshRuns.Obeys (if _ then _ else _) _ ⟨true, .running⟩
  split
  · exact obeys_finishRefresh false
  · refine ⟨allowed_of_quiet rfl fun _ => rfl, fun store => ?_⟩
    apply calculated.bind
    rintro statistics _ rfl
    cases throws with
    | true => exact obeys_finishRefresh false
    | false =>
        apply (obeys_publishCacheStatistics true statistics _).bind
        rintro _ _ rfl
        change refreshRuns.Obeys (if maximumBytes < statistics.totalBytes then _ else _) _ _
        split_ifs
        · apply (obeys_requestDiskCacheTrim ⟨true, .running⟩).bind
          rintro _ _ rfl
          exact obeys_finishRefresh true
        · exact obeys_finishRefresh true

theorem obeys_clearTask (setting : ClearSetting) :
    refreshRuns.Obeys (clearTask setting) (fun _ after => after = ⟨true, .idle⟩)
      ⟨true, .idle⟩ := by
  refine ⟨allowed_of_quiet rfl fun _ => rfl, fun store => ?_⟩
  generalize (refreshRuns.answer (.clearLocked setting) store).1 = cleared
  rcases cleared with none | ⟨statistics, generation⟩
  · exact rfl
  · exact obeys_publishCacheStatistics false statistics generation

theorem obeys_importTask (files : List (String × Replacement)) (setting : TrimSetting) :
    refreshRuns.Obeys (importTask files setting) (fun _ after => after = ⟨true, .idle⟩)
      ⟨true, .idle⟩ := by
  have imported : refreshRuns.Obeys (importFiles files) (fun _ after => after = ⟨true, .idle⟩)
      ⟨true, .idle⟩ := by
    apply obeys_quiet
    apply everyCall_importFiles
    simp
  apply imported.bind
  rintro _ _ rfl
  exact obeys_trimDiskCache none setting

theorem obeys_jobAction (setting : JobSetting) (job : Job) :
    refreshRuns.Obeys (jobAction setting job)
      (fun _ after => after = ⟨true, .idle⟩ ∨ after = ⟨true, .checked⟩)
      ⟨true, if job = .refresh then .running else .idle⟩ :=
  match job with
  | .initializeCache => (obeys_initializeTask setting.stale setting.trim).mono fun _ _ => Or.inl
  | .trim => (obeys_trimTask setting.trim setting.throws).mono fun _ _ => Or.inl
  | .refresh => obeys_refreshTask setting.trim.maximumBytes setting.throws
  | .clear => (obeys_clearTask setting.clear).mono fun _ _ => Or.inl
  | .importCache => (obeys_importTask setting.files setting.trim).mono fun _ _ => Or.inl

theorem obeys_work (index : Nat) (setting : JobSetting) :
    refreshRuns.Obeys (work index setting) (fun _ after => AtRest .idle after)
      refreshRuns.blank := by
  refine ⟨⟨by simp, fun _ _ => rfl, rfl⟩, fun store => ?_⟩
  rcases take_cases index store with nothing | ⟨job, _, _, taken⟩
  · simp only [refreshRuns, upkeep, answer, holdingAfter, RefreshPhase.after, nothing]
    exact rfl
  · simp only [refreshRuns, upkeep, answer, holdingAfter, RefreshPhase.after, taken]
    simp only [Option.some.injEq]
    apply (obeys_jobAction setting job).bind
    rintro _ _ (rfl | rfl)
    · exact ⟨⟨fun _ => rfl, by simp, Or.inl rfl⟩, fun _ => rfl⟩
    · exact ⟨⟨fun _ => rfl, by simp, Or.inr rfl⟩, fun _ => rfl⟩

theorem obeys_getCacheStatistics (callback : Nat) :
    refreshRuns.Obeys (getCacheStatistics callback) (fun _ after => AtRest .idle after)
      refreshRuns.blank := by
  have requested : refreshRuns.Obeys
      (ask (.addPending callback) >>= fun _ => requestCacheStatisticsRefresh)
      (fun _ after => AtRest .idle after) refreshRuns.blank :=
    ⟨⟨by simp, by simp, rfl⟩, fun _ =>
      obeys_requestCacheStatisticsRefresh (Or.inl rfl)⟩
  refine ⟨allowed_of_quiet rfl nofun, fun store => ?_⟩
  generalize (refreshRuns.answer .getCached store).1 = snapshot
  cases snapshot with
  | none => exact requested
  | some statistics =>
      refine ⟨allowed_of_quiet rfl nofun, fun published => ⟨allowed_of_quiet rfl nofun,
        fun mutated => ⟨⟨by simp, by simp, Or.inl rfl⟩, fun _ => ?_⟩⟩⟩
      change refreshRuns.Obeys (if _ then _ else _) _ refreshRuns.blank
      split_ifs
      · exact requested
      · exact rfl

theorem obeys_storeThumbnail (name : String) (setting : WriteSetting) :
    refreshRuns.Obeys (storeThumbnail name setting) (fun _ after => AtRest .idle after)
      refreshRuns.blank := by
  have written : refreshRuns.Obeys (writeBitmapAtomically name setting)
      (fun _ after => after = ⟨false, .idle⟩) ⟨false, .idle⟩ := by
    apply obeys_quiet
    apply everyCall_writeBitmapAtomically
    all_goals simp
  apply written.bind
  rintro stored _ rfl
  change refreshRuns.Obeys (if stored = true then _ else _) _ _
  split_ifs
  · exact ⟨allowed_of_quiet rfl nofun, fun _ => obeys_requestDiskCacheTrim ⟨false, .idle⟩⟩
  · exact rfl

theorem obeys_deleteCachedThumbnail (name : String) (deletes : Bool) :
    refreshRuns.Obeys (deleteCachedThumbnail name deletes) (fun _ after => AtRest .idle after)
      refreshRuns.blank := by
  refine ⟨allowed_of_quiet rfl nofun, fun store => ?_⟩
  generalize (refreshRuns.answer (.removeFile name deletes) store).1 = removal
  cases removal with
  | absent => exact rfl
  | deleted => exact ⟨allowed_of_quiet rfl nofun, fun _ => rfl⟩
  | stuck => exact rfl

theorem obeys_taskAction (task : Task) :
    refreshRuns.Obeys (taskAction task) (fun _ after => AtRest .idle after)
      refreshRuns.blank := by
  cases task with
  | requestDiskCacheTrim => exact obeys_requestDiskCacheTrim ⟨false, .idle⟩
  | getCacheStatistics callback => exact obeys_getCacheStatistics callback
  | clearCache => exact ⟨allowed_of_quiet rfl nofun, fun _ => rfl⟩
  | importCache => exact ⟨allowed_of_quiet rfl nofun, fun _ => rfl⟩
  | deleteCachedThumbnail name deletes => exact obeys_deleteCachedThumbnail name deletes
  | storeThumbnail name setting => exact obeys_storeThumbnail name setting
  | work index setting => exact obeys_work index setting

end

/-! ## The invariant -/

/-- A refresh that was not completed takes its flag back. -/
def endsUncompleted : StoreCall → Bool
  | .releaseRefreshScheduled refreshCompleted => !refreshCompleted
  | _ => false

/-- When a refresh that was not completed takes its flag back, no callback waits, or
a thread that has left one is about to look at the flag. -/
def NoneLeft {ι : Type} (store : CacheStore) (notes : ι → Notes RefreshPhase) (_ : ι)
    (c : StoreCall) : Prop :=
  endsUncompleted c = true →
    store.pendingStatisticsCallbacks = [] ∨ ∃ j, (notes j).phase = .asked

instance {n : Nat} (store : CacheStore) (notes : Fin n → Notes RefreshPhase) (i : Fin n)
    (c : StoreCall) : Decidable (NoneLeft store notes i c) :=
  inferInstanceAs (Decidable (_ → _))

section

variable {ι : Type} {store : CacheStore} {notes : ι → Notes RefreshPhase}

/-- A scheduled flag has an owner, callbacks that wait will be found, and each
callback that was left waits, is posted or is about to be. -/
structure Invariant (store : CacheStore) (notes : ι → Notes RefreshPhase) : Prop where
  exclusive : Exclusive store notes
  onExecutor : ∀ i, (notes i).phase.onExecutor = true → (notes i).holding = true
  scheduled : store.statisticsRefreshScheduled = true →
    Awaits .refresh store notes RefreshPhase.releases
  pending : store.pendingStatisticsCallbacks ≠ [] →
    Awaits .refresh store notes RefreshPhase.answers
  requested : ∃ held, (held = [] ∨ ∃ i, (notes i).phase.left = held) ∧ ∀ callback,
    store.requested.count callback ≤ store.pendingStatisticsCallbacks.count callback +
      held.count callback + (store.posted.map Prod.fst).count callback

theorem Invariant.alone (invariant : Invariant store notes) {i : ι}
    (mine : (notes i).holding = true) {j : ι} (other : j ≠ i) :
    (notes j).phase.left = [] := by
  cases phase : (notes j).phase with
  | posting refresh left =>
      have running := invariant.onExecutor j (by rw [phase]; rfl)
      exact absurd ((invariant.exclusive i mine).2 j running) other
  | _ => rfl

/-- The callbacks that are taken are those of one thread. -/
theorem Invariant.requested_of_alone (invariant : Invariant store notes) {i : ι}
    (mine : (notes i).holding = true) (callback : Nat) :
    store.requested.count callback ≤ store.pendingStatisticsCallbacks.count callback +
      (notes i).phase.left.count callback + (store.posted.map Prod.fst).count callback := by
  obtain ⟨held, of, counted⟩ := invariant.requested
  have bound := counted callback
  rcases of with rfl | ⟨j, rfl⟩
  · rw [List.count_nil] at bound
    omega
  · by_cases same : j = i
    · rw [← same]
      exact bound
    · rw [invariant.alone mine same, List.count_nil] at bound
      omega

variable [DecidableEq ι] {i : ι} {after : Notes RefreshPhase}

theorem left_update (i : ι) {after : Notes RefreshPhase}
    (same : (notes i).phase.left = after.phase.left) {held : List Nat}
    (of : held = [] ∨ ∃ j, (notes j).phase.left = held) :
    held = [] ∨ ∃ j, (Function.update notes i after j).phase.left = held := by
  refine of.imp_right fun found => ?_
  exact exists_update (fun g : Notes RefreshPhase => g.phase.left = held) _ found (fun _ => id)
    fun here => same.symm.trans here

theorem RefreshPhase.offExecutor {phase : RefreshPhase} {P : Prop} (off : phase.onExecutor = false)
    (on : phase.onExecutor = true) : P :=
  absurd (off.symm.trans on) Bool.false_ne_true

/-- Calls that move no callbacks. -/
theorem Invariant.of_steady (invariant : Invariant store notes) {store' : CacheStore}
    (requested : store'.requested = store.requested)
    (pendingEq : store'.pendingStatisticsCallbacks = store.pendingStatisticsCallbacks)
    (posted : store'.posted = store.posted) (left : (notes i).phase.left = after.phase.left)
    (onExecutor : after.phase.onExecutor = true → after.holding = true)
    (exclusive : Exclusive store' (Function.update notes i after))
    (scheduled : store'.statisticsRefreshScheduled = true →
      Awaits .refresh store' (Function.update notes i after) RefreshPhase.releases)
    (pending : store.pendingStatisticsCallbacks ≠ [] →
      Awaits .refresh store' (Function.update notes i after) RefreshPhase.answers) :
    Invariant store' (Function.update notes i after) := by
  constructor
  · exact exclusive
  · exact forall_update (fun g : Notes RefreshPhase => g.phase.onExecutor = true → g.holding = true)
      (fun j _ => invariant.onExecutor j) onExecutor
  · exact scheduled
  · rw [pendingEq]
    exact pending
  · rw [requested, pendingEq, posted]
    obtain ⟨held, of, counted⟩ := invariant.requested
    exact ⟨held, left_update i left of, counted⟩

/-- What the callbacks and refreshes of a store consist of. -/
structure SameCallbacks (store store' : CacheStore) : Prop where
  queue : .refresh ∈ store.queue → .refresh ∈ store'.queue
  scheduled : store'.statisticsRefreshScheduled = store.statisticsRefreshScheduled
  requested : store'.requested = store.requested
  pending : store'.pendingStatisticsCallbacks = store.pendingStatisticsCallbacks
  posted : store'.posted = store.posted

/-- Calls that touch nothing of the callbacks and refreshes. -/
theorem Invariant.of_same (invariant : Invariant store notes) {store' : CacheStore}
    (same : SameCallbacks store store') (phase : after.phase = (notes i).phase)
    (onExecutor : after.phase.onExecutor = true → after.holding = true)
    (exclusive : Exclusive store' (Function.update notes i after)) :
    Invariant store' (Function.update notes i after) := by
  apply invariant.of_steady same.requested same.pending same.posted (by rw [phase]) onExecutor
    exclusive
  · rw [same.scheduled]
    intro scheduled
    exact (invariant.scheduled scheduled).update same.queue (fun _ => id) (by rw [phase]; exact id)
  · intro pending
    exact (invariant.pending pending).update same.queue (fun _ => id) (by rw [phase]; exact id)

omit [DecidableEq ι] in
theorem sameCallbacks_remove (name : String) (deletes : Bool) (store : CacheStore) :
    SameCallbacks store (remove name deletes store).2 := by
  unfold remove
  split_ifs
  · exact ⟨id, rfl, rfl, rfl, rfl⟩
  · exact ⟨id, rfl, rfl, rfl, rfl⟩
  · exact ⟨id, rfl, rfl, rfl, rfl⟩

omit [DecidableEq ι] in
theorem sameCallbacks_answer {c : StoreCall} (quiet : isRefreshCall c = false)
    (store : CacheStore) : SameCallbacks store (answer c store).2 := by
  cases c with
  | addPending callback | swapRefreshScheduled | take index | finish | drainPending
  | post callback statistics | hasPending | releaseRefreshScheduled completed => cases quiet
  | submit job => exact ⟨List.mem_append_left [job], rfl, rfl, rfl, rfl⟩
  | removeFile name deletes => exact sameCallbacks_remove name deletes store
  | dropFile name deletes changed => exact sameCallbacks_remove name deletes store
  | clearLocked setting =>
      simp only [answer, clearLocked]
      split_ifs
      · exact ⟨id, rfl, rfl, rfl, rfl⟩
      · exact ⟨id, rfl, rfl, rfl, rfl⟩
  | importLocked name replacement =>
      cases replacement with
      | done length => exact ⟨id, rfl, rfl, rfl, rfl⟩
      | restored => exact ⟨id, rfl, rfl, rfl, rfl⟩
      | lost => exact ⟨id, rfl, rfl, rfl, rfl⟩
  | _ => exact ⟨id, rfl, rfl, rfl, rfl⟩

theorem invariant_quiet (invariant : Invariant store notes) {c : StoreCall}
    (quiet : isRefreshCall c = false) (allowed : refreshRuns.allowed (notes i) c) :
    Invariant (answer c store).2
      (Function.update notes i (refreshRuns.note (notes i) store c)) := by
  have exclusive : Exclusive (answer c store).2
      (Function.update notes i (refreshRuns.note (notes i) store c)) :=
    exclusive_answer invariant.exclusive allowed.1
  rw [note_of_quiet quiet] at exclusive ⊢
  exact invariant.of_same (sameCallbacks_answer quiet store) rfl (invariant.onExecutor i) exclusive

/-- A callback is left by a thread that will look at the flag. -/
theorem invariant_addPending (invariant : Invariant store notes) {callback : Nat}
    (allowed : refreshRuns.allowed (notes i) (.addPending callback)) :
    Invariant (answer (.addPending callback) store).2
      (Function.update notes i (refreshRuns.note (notes i) store (.addPending callback))) := by
  obtain ⟨executor, _, idle⟩ := allowed
  change (notes i).phase = .idle at idle
  constructor
  · exact exclusive_answer invariant.exclusive executor
  · exact forall_update (fun g : Notes RefreshPhase => g.phase.onExecutor = true → g.holding = true)
      (fun j _ => invariant.onExecutor j) nofun
  · intro scheduled
    exact (invariant.scheduled scheduled).update id (fun _ => id)
      (by simp [idle, RefreshPhase.releases])
  · intro _
    exact Awaits.here rfl
  · obtain ⟨held, of, counted⟩ := invariant.requested
    refine ⟨held, left_update i (by rw [idle]; rfl) of, fun other => ?_⟩
    have bound := counted other
    simp only [answer, List.count_append]
    omega

/-- A thread finds the flag set, and its owner will look for callbacks; or it
becomes the owner. -/
theorem invariant_swap (invariant : Invariant store notes)
    (allowed : refreshRuns.allowed (notes i) .swapRefreshScheduled) :
    Invariant (answer .swapRefreshScheduled store).2
      (Function.update notes i (refreshRuns.note (notes i) store .swapRefreshScheduled)) := by
  obtain ⟨executor, _, asks⟩ := allowed
  change (notes i).phase = .asked ∨ (notes i).phase = .checked at asks
  have left : (notes i).phase.left = [] := by
    rcases asks with asked | checked
    · rw [asked]
      rfl
    · rw [checked]
      rfl
  have notOwner : (notes i).phase.releases = true →
      RefreshPhase.releases .idle = true := by
    rcases asks with asked | checked
    · rw [asked]
      intro wrong
      cases wrong
    · rw [checked]
      intro wrong
      cases wrong
  have exclusive : Exclusive (answer .swapRefreshScheduled store).2
      (Function.update notes i (refreshRuns.note (notes i) store .swapRefreshScheduled)) :=
    exclusive_answer invariant.exclusive executor
  cases scheduled : store.statisticsRefreshScheduled with
  | true =>
      have note : refreshRuns.note (notes i) store .swapRefreshScheduled =
          ⟨(notes i).holding, .idle⟩ := by
        simp [refreshRuns, upkeep, holdingAfter, RefreshPhase.after, scheduled]
      rw [note] at exclusive ⊢
      have owner := invariant.scheduled scheduled
      refine invariant.of_steady rfl rfl rfl left (RefreshPhase.offExecutor rfl) exclusive
        (fun _ => ?_) fun _ => ?_
      · exact owner.update id (fun _ => id) notOwner
      · exact owner.update id (fun _ => RefreshPhase.answers_of_releases)
          fun releases => RefreshPhase.answers_of_releases (notOwner releases)
  | false =>
      have note : refreshRuns.note (notes i) store .swapRefreshScheduled =
          ⟨(notes i).holding, .won⟩ := by
        simp [refreshRuns, upkeep, holdingAfter, RefreshPhase.after, scheduled]
      rw [note] at exclusive ⊢
      exact invariant.of_steady rfl rfl rfl left (RefreshPhase.offExecutor rfl) exclusive
        (fun _ => Awaits.here rfl) fun _ => Awaits.here rfl

theorem invariant_submit (invariant : Invariant store notes)
    (allowed : refreshRuns.allowed (notes i) (.submit .refresh)) :
    Invariant (answer (.submit .refresh) store).2
      (Function.update notes i (refreshRuns.note (notes i) store (.submit .refresh))) := by
  obtain ⟨executor, _, won⟩ := allowed
  change (notes i).phase = .won at won
  have queued : Job.refresh ∈ (answer (.submit .refresh) store).2.queue := by
    simp [answer]
  exact invariant.of_steady rfl rfl rfl (by rw [won]; rfl) (RefreshPhase.offExecutor rfl)
    (exclusive_answer invariant.exclusive executor) (fun _ => Or.inl queued) fun _ => Or.inl queued

/-- The executor hands out a task; a refresh that was queued then runs. -/
theorem invariant_take (invariant : Invariant store notes) {index : Nat}
    (allowed : refreshRuns.allowed (notes i) (.take index)) :
    Invariant (answer (.take index) store).2
      (Function.update notes i (refreshRuns.note (notes i) store (.take index))) := by
  obtain ⟨executor, _, idle⟩ := allowed
  change (notes i).phase = .idle at idle
  have exclusive : Exclusive (answer (.take index) store).2
      (Function.update notes i (refreshRuns.note (notes i) store (.take index))) :=
    exclusive_answer invariant.exclusive executor
  have notesEq : refreshRuns.note (notes i) store (.take index) =
      ⟨(take index store).1.isSome,
        if (take index store).1 = some .refresh then .running else (notes i).phase⟩ := rfl
  rw [notesEq] at exclusive ⊢
  change Exclusive (take index store).2 _ at exclusive
  change Invariant (take index store).2 _
  rcases take_cases index store with nothing | ⟨job, _, found, taken⟩
  · rw [nothing] at exclusive ⊢
    exact invariant.of_same ⟨id, rfl, rfl, rfl, rfl⟩ rfl (by simp [idle, RefreshPhase.onExecutor])
      exclusive
  · rw [taken] at exclusive ⊢
    by_cases isRefresh : job = .refresh
    · subst isRefresh
      simp only [if_true, Option.isSome_some] at exclusive ⊢
      exact invariant.of_steady rfl rfl rfl (by rw [idle]; rfl) (fun _ => rfl) exclusive
        (fun _ => Awaits.here rfl) fun _ => Awaits.here rfl
    · simp only [Option.some.injEq, isRefresh, if_false, Option.isSome_some] at exclusive ⊢
      exact invariant.of_same ⟨mem_queue_of_taken found isRefresh, rfl, rfl, rfl, rfl⟩ rfl
        (fun _ => rfl) exclusive

theorem invariant_finish (invariant : Invariant store notes)
    (allowed : refreshRuns.allowed (notes i) .finish) :
    Invariant (answer .finish store).2
      (Function.update notes i (refreshRuns.note (notes i) store .finish)) := by
  obtain ⟨executor, _, ended⟩ := allowed
  change (notes i).phase = .idle ∨ (notes i).phase = .checked at ended
  refine invariant.of_steady rfl rfl rfl ?_ (RefreshPhase.offExecutor rfl)
    (exclusive_answer invariant.exclusive executor)
    (fun scheduled => ?_) fun pending => ?_
  · rcases ended with idle | checked
    · rw [idle]
      rfl
    · rw [checked]
      rfl
  · refine (invariant.scheduled scheduled).update id (fun _ => id) ?_
    rcases ended with idle | checked
    · simp [idle, RefreshPhase.releases]
    · simp [checked, RefreshPhase.releases]
  · refine (invariant.pending pending).update id (fun _ => id) ?_
    rcases ended with idle | checked
    · simp [idle, RefreshPhase.answers]
    · simp [checked, RefreshPhase.answers]

/-- A refresh looks for callbacks; one that is done looks once more at the flag if
there are any. -/
theorem invariant_hasPending (invariant : Invariant store notes)
    (allowed : refreshRuns.allowed (notes i) .hasPending) :
    Invariant (answer .hasPending store).2
      (Function.update notes i (refreshRuns.note (notes i) store .hasPending)) := by
  obtain ⟨executor, _, looks⟩ := allowed
  change (notes i).phase = .running ∨ (notes i).phase = .completed ∨ (notes i).phase = .checked
    at looks
  have exclusive : Exclusive (answer .hasPending store).2
      (Function.update notes i (refreshRuns.note (notes i) store .hasPending)) :=
    exclusive_answer invariant.exclusive executor
  by_cases completed : (notes i).phase = .completed
  · have mine := invariant.onExecutor i (by rw [completed]; rfl)
    have note : refreshRuns.note (notes i) store .hasPending =
        ⟨(notes i).holding,
          if store.pendingStatisticsCallbacks.isEmpty then .checked else .asked⟩ := by
      simp [refreshRuns, upkeep, holdingAfter, RefreshPhase.after, completed]
    rw [note] at exclusive ⊢
    refine invariant.of_steady rfl rfl rfl ?_ (fun _ => mine) exclusive (fun scheduled => ?_)
      fun pending => ?_
    · rw [completed]
      split_ifs
      · rfl
      · rfl
    · exact (invariant.scheduled scheduled).update id (fun _ => id)
        (by simp [completed, RefreshPhase.releases])
    · apply Awaits.here
      simp only [List.isEmpty_iff, if_neg pending]
      rfl
  · have note : refreshRuns.note (notes i) store .hasPending = notes i := by
      simp [refreshRuns, upkeep, holdingAfter, RefreshPhase.after, completed]
    rw [note] at exclusive ⊢
    exact invariant.of_same ⟨id, rfl, rfl, rfl, rfl⟩ rfl (invariant.onExecutor i) exclusive

/-- A refresh takes its flag back: it will look for callbacks, or it leaves none
behind that nobody looks for. -/
theorem invariant_release (invariant : Invariant store notes) {refreshCompleted : Bool}
    (allowed : refreshRuns.allowed (notes i) (.releaseRefreshScheduled refreshCompleted))
    (noneLeft : NoneLeft store notes i (.releaseRefreshScheduled refreshCompleted)) :
    Invariant (answer (.releaseRefreshScheduled refreshCompleted) store).2
      (Function.update notes i
        (refreshRuns.note (notes i) store (.releaseRefreshScheduled refreshCompleted))) := by
  obtain ⟨executor, _, running⟩ := allowed
  change (notes i).phase = .running at running
  have mine := executor rfl
  have exclusive : Exclusive (answer (.releaseRefreshScheduled refreshCompleted) store).2
      (Function.update notes i
        (refreshRuns.note (notes i) store (.releaseRefreshScheduled refreshCompleted))) :=
    exclusive_answer invariant.exclusive executor
  cases refreshCompleted with
  | true =>
      exact invariant.of_steady rfl rfl rfl (by rw [running]; rfl) (fun _ => mine) exclusive nofun
        fun _ => Awaits.here rfl
  | false =>
      refine invariant.of_steady rfl rfl rfl (by rw [running]; rfl) (fun _ => mine) exclusive nofun
        fun pending => ?_
      rcases noneLeft rfl with empty | asked
      · exact absurd empty pending
      · right
        refine exists_update (fun g : Notes RefreshPhase => g.phase = .asked)
          (fun g => g.phase.answers = true) asked (fun g asked => ?_) fun asked => ?_
        · rw [asked]
          rfl
        · rw [running] at asked
          cases asked

/-- The thread has taken callbacks, in a refresh or not. -/
theorem posted_phase (refresh : Bool) (left : List Nat) :
    (RefreshPhase.posted refresh left).left = left ∧
      (RefreshPhase.posted refresh left).releases = refresh ∧
        (RefreshPhase.posted refresh left).answers = refresh := by
  cases left with
  | nil =>
      cases refresh with
      | false => exact ⟨rfl, rfl, rfl⟩
      | true => exact ⟨rfl, rfl, rfl⟩
  | cons callback left =>
      cases refresh with
      | false => exact ⟨rfl, rfl, rfl⟩
      | true => exact ⟨rfl, rfl, rfl⟩

/-- All callbacks that wait are taken. -/
theorem invariant_drainPending (invariant : Invariant store notes)
    (allowed : refreshRuns.allowed (notes i) .drainPending) :
    Invariant (answer .drainPending store).2
      (Function.update notes i (refreshRuns.note (notes i) store .drainPending)) := by
  obtain ⟨executor, _, before⟩ := allowed
  change (notes i).phase = .idle ∨ (notes i).phase = .running at before
  have mine := executor rfl
  obtain ⟨left, releases, answers⟩ := posted_phase ((notes i).phase = .running)
    store.pendingStatisticsCallbacks
  have leftBefore : (notes i).phase.left = [] := by
    rcases before with idle | running
    · rw [idle]
      rfl
    · rw [running]
      rfl
  constructor
  · exact exclusive_answer invariant.exclusive executor
  · exact forall_update (fun g : Notes RefreshPhase => g.phase.onExecutor = true → g.holding = true)
      (fun j _ => invariant.onExecutor j) fun _ => mine
  · intro scheduled
    refine (invariant.scheduled scheduled).update id (fun _ => id) fun owner => ?_
    refine releases.trans ?_
    rcases before with idle | running
    · rw [idle] at owner
      cases owner
    · rw [running]
      rfl
  · exact fun some => absurd rfl some
  · refine ⟨store.pendingStatisticsCallbacks, Or.inr ⟨i, ?_⟩, fun callback => ?_⟩
    · rw [Function.update_self]
      exact left
    · have bound := invariant.requested_of_alone mine callback
      rw [leftBefore, List.count_nil] at bound
      change store.requested.count callback ≤ [].count callback +
        store.pendingStatisticsCallbacks.count callback +
        (store.posted.map Prod.fst).count callback
      rw [List.count_nil]
      omega

/-- One of the callbacks that were taken is posted, or one that need not wait. -/
theorem invariant_post (invariant : Invariant store notes) {callback : Nat}
    {statistics : CacheStatistics}
    (allowed : refreshRuns.allowed (notes i) (.post callback statistics)) :
    Invariant (answer (.post callback statistics) store).2
      (Function.update notes i (refreshRuns.note (notes i) store (.post callback statistics))) := by
  obtain ⟨executor, _, before⟩ := allowed
  change (notes i).phase = .idle ∨ ∃ refresh left, (notes i).phase =
    .posting refresh (callback :: left) at before
  have exclusive : Exclusive (answer (.post callback statistics) store).2
      (Function.update notes i (refreshRuns.note (notes i) store (.post callback statistics))) :=
    exclusive_answer invariant.exclusive executor
  have counted : ∀ other,
      ((answer (.post callback statistics) store).2.posted.map Prod.fst).count other =
        (store.posted.map Prod.fst).count other + [callback].count other := by
    intro other
    simp only [answer, List.map_append, List.map_cons, List.map_nil, List.count_append]
  rcases before with idle | ⟨refresh, left, posting⟩
  · have note : refreshRuns.note (notes i) store (.post callback statistics) = notes i := by
      change (⟨(notes i).holding, (notes i).phase.after store (.post callback statistics)⟩ :
        Notes RefreshPhase) = ⟨(notes i).holding, (notes i).phase⟩
      rw [idle]
      rfl
    rw [note, Function.update_eq_self] at exclusive ⊢
    obtain ⟨held, of, bounds⟩ := invariant.requested
    refine ⟨exclusive, invariant.onExecutor, invariant.scheduled, invariant.pending, held, of,
      fun other => ?_⟩
    have bound := bounds other
    rw [counted]
    simp only [answer]
    omega
  · have mine := invariant.onExecutor i (by rw [posting]; rfl)
    have note : refreshRuns.note (notes i) store (.post callback statistics) =
        ⟨(notes i).holding, RefreshPhase.posted refresh left⟩ := by
      simp [refreshRuns, upkeep, holdingAfter, RefreshPhase.after, posting]
    obtain ⟨leftAfter, releases, answers⟩ := posted_phase refresh left
    rw [note] at exclusive ⊢
    constructor
    · exact exclusive
    · exact forall_update
        (fun g : Notes RefreshPhase => g.phase.onExecutor = true → g.holding = true)
        (fun j _ => invariant.onExecutor j) fun _ => mine
    · intro scheduled
      refine (invariant.scheduled scheduled).update id (fun _ => id) fun owner => ?_
      rw [posting] at owner
      rw [releases]
      cases refresh with
      | false => cases owner
      | true => rfl
    · intro pending
      refine (invariant.pending pending).update id (fun _ => id) fun owner => ?_
      rw [posting] at owner
      rw [answers]
      cases refresh with
      | false => cases owner
      | true => rfl
    · refine ⟨left, Or.inr ⟨i, ?_⟩, fun other => ?_⟩
      · rw [Function.update_self]
        exact leftAfter
      · have bound := invariant.requested_of_alone mine other
        rw [posting] at bound
        have split : ([callback] ++ left).count other = [callback].count other + left.count other :=
          List.count_append
        change _ ≤ _ + ([callback] ++ left).count other + _ at bound
        rw [counted]
        simp only [answer]
        omega

/-- What a call keeps. -/
theorem invariant_answer (invariant : Invariant store notes) {c : StoreCall}
    (allowed : refreshRuns.allowed (notes i) c) (noneLeft : NoneLeft store notes i c) :
    Invariant (answer c store).2
      (Function.update notes i (refreshRuns.note (notes i) store c)) := by
  cases quiet : isRefreshCall c with
  | false => exact invariant_quiet invariant quiet allowed
  | true =>
      cases c with
      | addPending callback => exact invariant_addPending invariant allowed
      | swapRefreshScheduled => exact invariant_swap invariant allowed
      | submit job =>
          cases job with
          | refresh => exact invariant_submit invariant allowed
          | _ => cases quiet
      | take index => exact invariant_take invariant allowed
      | finish => exact invariant_finish invariant allowed
      | drainPending => exact invariant_drainPending invariant allowed
      | post callback statistics => exact invariant_post invariant allowed
      | hasPending => exact invariant_hasPending invariant allowed
      | releaseRefreshScheduled completed => exact invariant_release invariant allowed noneLeft
      | _ => cases quiet

end

/-! ## The runs -/

section

variable {ι : Type} [DecidableEq ι]

/-- No callback is being left, taken or posted, and no refresh is queued or run. -/
def Quiescent (crew : Crew CacheStore ι StoreReply (Notes RefreshPhase) Unit) : Prop :=
  .refresh ∉ crew.state.queue ∧ ∀ i, (crew.notes i).phase = .idle

/-- No callback waits, and each was posted as often as it was left. -/
def AllDelivered (store : CacheStore) : Prop :=
  store.pendingStatisticsCallbacks = [] ∧
    ∀ callback, store.requested.count callback ≤ (store.posted.map Prod.fst).count callback

/-- Where no refresh that was not completed leaves callbacks behind, every callback
is delivered. -/
theorem callbacks_delivered (files : Files) (cachedStatistics : Option CacheStatistics)
    (events : List (CrewEvent ι Task))
    (noneLeft : Meets (Crew.step refreshRuns taskAction) (Crew.AtCall NoneLeft)
      (Crew.start refreshRuns () (freshStore files cachedStatistics)) events) :
    Always (Crew.step refreshRuns taskAction)
      (fun crew => Quiescent crew → AllDelivered crew.state)
      (Crew.start refreshRuns () (freshStore files cachedStatistics)) events := by
  have begun : Invariant (freshStore files cachedStatistics)
      (fun _ : ι => refreshRuns.blank) := by
    constructor
    · intro _ wrong
      cases wrong
    · intro _ wrong
      cases wrong
    · intro wrong
      cases wrong
    · exact fun some => absurd rfl some
    · exact ⟨[], Or.inl rfl, fun callback => Nat.zero_le _⟩
  have begins : ∀ (s : CacheStore) (g : ι → Notes RefreshPhase) (i : ι) (_ : Unit),
      Invariant s g → AtRest .idle (g i) →
        Invariant s (Function.update g i refreshRuns.blank) := by
    intro s g i _ invariant rest
    have unchanged : Function.update g i refreshRuns.blank = g :=
      Function.update_eq_self_iff.mpr rest.symm
    rw [unchanged]
    exact invariant
  have keeps := @Crew.always_keeps _ _ _ _ _ _ _ _ refreshRuns taskAction NoneLeft
    Invariant (fun _ => AtRest .idle) (fun task => obeys_taskAction task) begins
    (fun s g i c invariant allowed noneLeft => invariant_answer invariant allowed noneLeft)
    (Crew.start refreshRuns () (freshStore files cachedStatistics)) ⟨begun, fun _ => rfl⟩ events
    noneLeft
  refine keeps.mono fun crew kept quiescent => ?_
  have empty : crew.state.pendingStatisticsCallbacks = [] := by
    by_contra pending
    rcases kept.inv.pending pending with queued | ⟨i, answers⟩
    · exact quiescent.1 queued
    · rw [quiescent.2 i] at answers
      cases answers
  refine ⟨empty, fun callback => ?_⟩
  obtain ⟨held, of, counted⟩ := kept.inv.requested
  have bound := counted callback
  have nothingHeld : held = [] := by
    rcases of with rfl | ⟨i, rfl⟩
    · rfl
    · rw [quiescent.2 i]
      rfl
  rw [empty, nothingHeld, List.count_nil] at bound
  omega

end

/-- One thread asks for statistics, and the tasks of the constructor and of the
refresh follow. -/
def oneRequest : List (CrewEvent (Fin 3) Task) :=
  [.begin 0 (.getCacheStatistics 1)] ++ List.replicate 4 (.advance 0) ++
  [.begin 2 (.work 0 calmSetting)] ++ List.replicate 11 (.advance 2) ++
  [.begin 2 (.work 0 calmSetting)] ++ List.replicate 7 (.advance 2)

set_option maxRecDepth 4000 in
theorem callbacks_delivered_oneRequest :
    Always (Crew.step refreshRuns taskAction)
      (fun crew => Quiescent crew → AllDelivered crew.state)
      (Crew.start refreshRuns () (freshStore ∅ none)) oneRequest :=
  callbacks_delivered ∅ none oneRequest (by decide)

/-- Two threads ask before there are statistics.  The task of the constructor
delivers the first callback, the refresh finds nothing to do and is about to end,
and only then does the second thread leave its callback; it finds the flag set. -/
def lateCallback : List (CrewEvent (Fin 3) Task) :=
  [.begin 0 (.getCacheStatistics 1)] ++ List.replicate 4 (.advance 0) ++
  [.begin 1 (.getCacheStatistics 2), .advance 1] ++
  [.begin 2 (.work 0 calmSetting)] ++ List.replicate 11 (.advance 2) ++
  [.begin 2 (.work 0 calmSetting)] ++ List.replicate 4 (.advance 2) ++
  [.advance 1, .advance 1] ++ List.replicate 3 (.advance 2)

set_option maxRecDepth 4000 in
/-- The second callback waits for ever. -/
theorem lateCallback_lost :
    ¬∀ (files : Files) (cachedStatistics : Option CacheStatistics)
        (events : List (CrewEvent (Fin 3) Task)),
      Always (Crew.step refreshRuns taskAction)
        (fun crew => Quiescent crew → AllDelivered crew.state)
        (Crew.start refreshRuns () (freshStore files cachedStatistics)) events := by
  intro all
  have last := (all ∅ none lateCallback).last
  have quiescent : Quiescent (run (Crew.step refreshRuns taskAction)
      (Crew.start refreshRuns () (freshStore ∅ none)) lateCallback) := by
    constructor
    · decide
    · decide
  have waiting : (run (Crew.step refreshRuns taskAction)
      (Crew.start refreshRuns () (freshStore ∅ none)) lateCallback).state.pendingStatisticsCallbacks
        ≠ [] := by
    decide
  exact waiting (last quiescent).1

end Callbacks

end RoundSync.Thumbnails.Maintenance
