import RoundSync.Thumbnails.Maintenance

/-!
# Trims are neither lost nor doubled

A trim request raises a counter and schedules a task unless one is scheduled.
The task records the counter before its pass; after the pass it takes its flag
back and compares the counter with what it recorded.  Each thread's phase says
how far it is in a request or in a task.  The invariant finds, for every request
that no pass has seen, the task or the thread that will see it.
-/

namespace RoundSync.Thumbnails.Maintenance

open RoundSync.Transition

/-- How far a thread is: it has raised the counter, won the flag, been handed the
task, recorded the counter, begun the pass, ended it, taken the flag back.  A pass
of another task is direct. -/
inductive TrimPhase where
  | idle
  | asked
  | won
  | due
  | handling (generation : Nat)
  | inPass (generation : Nat)
  | direct
  | passed (generation : Nat)
  | released (generation : Nat)
  deriving DecidableEq

namespace TrimPhase

def onExecutor : TrimPhase → Bool
  | .idle | .asked | .won => false
  | _ => true

/-- The thread will submit the task, or runs it and still holds its flag. -/
def releases : TrimPhase → Bool
  | .won | .due | .handling _ | .inPass _ | .passed _ => true
  | _ => false

/-- The thread will look at the counter or at the flag. -/
def answers : TrimPhase → Bool
  | .idle | .direct => false
  | _ => true

def passing : TrimPhase → Bool
  | .inPass _ | .direct => true
  | _ => false

/-- The counter that the last pass recorded. -/
def recorded : TrimPhase → Option Nat
  | .inPass generation | .passed generation | .released generation => some generation
  | _ => none

theorem answers_of_releases {phase : TrimPhase} (releases : phase.releases = true) :
    phase.answers = true := by
  cases phase with
  | idle | asked | direct | released generation => cases releases
  | _ => rfl

/-- What a call makes of the phase. -/
def after (phase : TrimPhase) (store : CacheStore) : StoreCall → TrimPhase
  | .incrementTrimRequest => .asked
  | .swapTrimScheduled => if store.trimScheduled then .idle else .won
  | .submit .trim => .idle
  | .take index => if (take index store).1 = some .trim then .due else phase
  | .getTrimRequest =>
      match phase with
      | .released generation =>
          if store.trimRequestGeneration = generation then .idle else .asked
      | _ => .handling store.trimRequestGeneration
  | .beginPass (some generation) => .inPass generation
  | .beginPass none => .direct
  | .endPass =>
      match phase with
      | .inPass generation => .passed generation
      | _ => .idle
  | .releaseTrimScheduled =>
      match phase with
      | .passed generation => .released generation
      | _ => .idle
  | _ => phase

/-- The calls that trims consist of, in their order. -/
def allowed (phase : TrimPhase) : StoreCall → Prop
  | .incrementTrimRequest => phase = .idle
  | .swapTrimScheduled => phase = .asked
  | .submit .trim => phase = .won
  | .take _ | .finish => phase = .idle
  | .getTrimRequest => phase = .due ∨ ∃ generation, phase = .released generation
  | .beginPass (some generation) => phase = .handling generation
  | .beginPass none => phase = .idle
  | .endPass => phase = .direct ∨ ∃ generation, phase = .inPass generation
  | .releaseTrimScheduled => ∃ generation, phase = .passed generation
  | _ => True

end TrimPhase

/-- The runs of the store, with the phases of the threads. -/
def trimRuns : Protocol CacheStore StoreReply (Notes TrimPhase) :=
  upkeep .idle TrimPhase.after TrimPhase.allowed

/-- The calls that trims consist of. -/
def isTrimCall : StoreCall → Bool
  | .incrementTrimRequest | .swapTrimScheduled | .submit .trim | .take _ | .finish
  | .getTrimRequest | .beginPass _ | .endPass | .releaseTrimScheduled => true
  | _ => false

/-! ## The programs -/

section

attribute [local simp] answer needsExecutor isTrimCall TrimPhase.after TrimPhase.allowed

theorem note_of_quiet {notes : Notes TrimPhase} {c : StoreCall} (quiet : isTrimCall c = false)
    (store : CacheStore) : trimRuns.note notes store c = notes := by
  unfold trimRuns upkeep holdingAfter TrimPhase.after
  cases c with
  | submit job =>
      cases job with
      | trim => cases quiet
      | _ => rfl
  | incrementTrimRequest | swapTrimScheduled | take index | finish | getTrimRequest
  | beginPass recorded | endPass | releaseTrimScheduled => cases quiet
  | _ => rfl

theorem allowed_of_quiet {notes : Notes TrimPhase} {c : StoreCall} (quiet : isTrimCall c = false)
    (executor : needsExecutor c = true → notes.holding = true) : trimRuns.allowed notes c := by
  refine ⟨executor, ?_, ?_⟩
  · rintro index rfl
    cases quiet
  · cases c with
    | submit job =>
        cases job with
        | trim => cases quiet
        | _ => trivial
    | incrementTrimRequest | swapTrimScheduled | take index | finish | getTrimRequest
    | beginPass recorded | endPass | releaseTrimScheduled => cases quiet
    | _ => trivial

/-- A program without calls of trims. -/
theorem obeys_quiet {α : Type} {program : Action α} {notes : Notes TrimPhase}
    (calls : program.EveryCall fun c =>
      isTrimCall c = false ∧ (needsExecutor c = true → notes.holding = true)) :
    trimRuns.Obeys program (fun _ after => after = notes) notes :=
  Protocol.obeys_of_everyCall calls (fun _ quiet => allowed_of_quiet quiet.1 quiet.2)
    (fun store _ quiet => note_of_quiet quiet.1 store) fun _ => rfl

theorem obeys_enqueueDiskCacheTrim (holding : Bool) :
    trimRuns.Obeys enqueueDiskCacheTrim (fun _ after => after = ⟨holding, .idle⟩)
      ⟨holding, .asked⟩ := by
  refine ⟨⟨by simp, by simp, rfl⟩, fun store => ?_⟩
  cases scheduled : store.trimScheduled with
  | false =>
      simp only [trimRuns, upkeep, answer, scheduled, TrimPhase.after, holdingAfter]
      exact ⟨⟨by simp, by simp, rfl⟩, fun _ => rfl⟩
  | true =>
      simp only [trimRuns, upkeep, answer, scheduled, TrimPhase.after, holdingAfter]
      exact rfl

theorem obeys_requestDiskCacheTrim (holding : Bool) :
    trimRuns.Obeys requestDiskCacheTrim (fun _ after => after = ⟨holding, .idle⟩)
      ⟨holding, .idle⟩ :=
  ⟨⟨by simp, by simp, rfl⟩, fun _ => obeys_enqueueDiskCacheTrim holding⟩

theorem obeys_publishCacheStatistics (statistics : CacheStatistics) (generation : Nat)
    (phase : TrimPhase) :
    trimRuns.Obeys (publishCacheStatistics statistics generation)
      (fun _ after => after = ⟨true, phase⟩) ⟨true, phase⟩ := by
  apply obeys_quiet
  apply everyCall_publishCacheStatistics
  all_goals simp

theorem obeys_trimDiskCache_scheduled (generation : Nat) (setting : TrimSetting) :
    trimRuns.Obeys (trimDiskCache (some generation) setting)
      (fun _ after => after = ⟨true, .passed generation⟩) ⟨true, .handling generation⟩ := by
  refine ⟨⟨by simp, by simp, rfl⟩, fun _ => ⟨⟨fun _ => rfl, by simp, trivial⟩,
    fun store => ?_⟩⟩
  apply (obeys_publishCacheStatistics _ _ (.inPass generation)).bind
  rintro _ _ rfl
  exact ⟨⟨by simp, by simp, Or.inr ⟨generation, rfl⟩⟩, fun _ => rfl⟩

theorem obeys_trimDiskCache_direct (setting : TrimSetting) :
    trimRuns.Obeys (trimDiskCache none setting) (fun _ after => after = ⟨true, .idle⟩)
      ⟨true, .idle⟩ := by
  refine ⟨⟨by simp, by simp, rfl⟩, fun _ => ⟨⟨fun _ => rfl, by simp, trivial⟩,
    fun store => ?_⟩⟩
  apply (obeys_publishCacheStatistics _ _ .direct).bind
  rintro _ _ rfl
  exact ⟨⟨by simp, by simp, Or.inl rfl⟩, fun _ => rfl⟩

/-- The end of the scheduled task. -/
theorem obeys_releaseTrimScheduled (handledGeneration : Nat) :
    trimRuns.Obeys
      (ask .releaseTrimScheduled >>= fun _ => ask .getTrimRequest >>= fun generation =>
        if generation ≠ handledGeneration then enqueueDiskCacheTrim else pure ())
      (fun _ after => after = ⟨true, .idle⟩) ⟨true, .passed handledGeneration⟩ := by
  refine ⟨⟨by simp, by simp, ⟨handledGeneration, rfl⟩⟩, fun _ =>
    ⟨⟨fun _ => rfl, by simp, Or.inr ⟨handledGeneration, rfl⟩⟩, fun store => ?_⟩⟩
  change trimRuns.Obeys (if store.trimRequestGeneration ≠ handledGeneration then
    enqueueDiskCacheTrim else pure ()) _ ⟨true, if _ then _ else _⟩
  by_cases same : store.trimRequestGeneration = handledGeneration
  · rw [if_neg (not_not_intro same), if_pos same]
    exact rfl
  · rw [if_pos same, if_neg same]
    exact obeys_enqueueDiskCacheTrim true

theorem obeys_trimTask (setting : TrimSetting) (throws : Bool) :
    trimRuns.Obeys (trimTask setting throws) (fun _ after => after = ⟨true, .idle⟩)
      ⟨true, .due⟩ := by
  refine ⟨⟨by simp, by simp, Or.inl rfl⟩, fun store => ?_⟩
  have released := obeys_releaseTrimScheduled store.trimRequestGeneration
  cases throws with
  | false =>
      apply (obeys_trimDiskCache_scheduled store.trimRequestGeneration setting).bind
      rintro _ _ rfl
      exact released
  | true =>
      exact ⟨⟨fun _ => rfl, by simp, rfl⟩, fun _ =>
        ⟨⟨fun _ => rfl, by simp, Or.inr ⟨store.trimRequestGeneration, rfl⟩⟩, fun _ => released⟩⟩

theorem obeys_initializeTask (stale : Bool) (setting : TrimSetting) :
    trimRuns.Obeys (initializeTask stale setting) (fun _ after => after = ⟨true, .idle⟩)
      ⟨true, .idle⟩ := by
  have trimmed : trimRuns.Obeys
      (ask .getCached >>= trimOversized setting)
      (fun _ after => after = ⟨true, .idle⟩) ⟨true, .idle⟩ := by
    refine ⟨⟨by simp, by simp, trivial⟩, fun store => ?_⟩
    change trimRuns.Obeys (trimOversized setting store.cachedStatistics) _ ⟨true, .idle⟩
    cases store.cachedStatistics with
    | none => exact obeys_trimDiskCache_direct setting
    | some statistics =>
        change trimRuns.Obeys (if setting.maximumBytes < statistics.totalBytes then _ else _) _ _
        split_ifs
        · exact obeys_trimDiskCache_direct setting
        · exact rfl
  cases stale with
  | false => exact trimmed
  | true =>
      exact ⟨allowed_of_quiet rfl fun _ => rfl, fun _ => ⟨allowed_of_quiet rfl fun _ => rfl, fun _ =>
        ⟨allowed_of_quiet rfl fun _ => rfl, fun _ => ⟨allowed_of_quiet rfl fun _ => rfl, fun _ =>
          trimmed⟩⟩⟩⟩

theorem obeys_requestCacheStatisticsRefresh (holding : Bool) :
    trimRuns.Obeys requestCacheStatisticsRefresh (fun _ after => after = ⟨holding, .idle⟩)
      ⟨holding, .idle⟩ := by
  apply obeys_quiet
  refine ⟨by simp, fun won => ?_⟩
  change Program.EveryCall _ (if won = true then _ else _)
  split_ifs
  · exact ⟨by simp, fun _ => trivial⟩
  · trivial

theorem obeys_finishRefresh (refreshCompleted : Bool) :
    trimRuns.Obeys (finishRefresh refreshCompleted) (fun _ after => after = ⟨true, .idle⟩)
      ⟨true, .idle⟩ := by
  refine ⟨allowed_of_quiet rfl fun _ => rfl, fun _ => ⟨allowed_of_quiet rfl fun _ => rfl,
    fun store => ?_⟩⟩
  cases refreshCompleted with
  | false => exact rfl
  | true =>
      refine ⟨allowed_of_quiet rfl fun _ => rfl, fun published =>
        ⟨allowed_of_quiet rfl fun _ => rfl, fun mutated => ?_⟩⟩
      change trimRuns.Obeys (if _ then _ else _) _ ⟨true, .idle⟩
      split_ifs
      · exact obeys_requestCacheStatisticsRefresh true
      · exact rfl

theorem obeys_refreshTask (maximumBytes : Nat) (throws : Bool) :
    trimRuns.Obeys (refreshTask maximumBytes throws) (fun _ after => after = ⟨true, .idle⟩)
      ⟨true, .idle⟩ := by
  have calculated : trimRuns.Obeys calculateCacheStatistics
      (fun _ after => after = ⟨true, .idle⟩) ⟨true, .idle⟩ := by
    apply obeys_quiet
    apply everyCall_calculateCacheStatistics
    all_goals simp
  refine ⟨allowed_of_quiet rfl fun _ => rfl, fun _ => ⟨allowed_of_quiet rfl fun _ => rfl, fun _ =>
    ⟨allowed_of_quiet rfl fun _ => rfl, fun _ => ?_⟩⟩⟩
  change trimRuns.Obeys (if _ then _ else _) _ ⟨true, .idle⟩
  split
  · exact obeys_finishRefresh false
  · refine ⟨allowed_of_quiet rfl fun _ => rfl, fun store => ?_⟩
    apply calculated.bind
    rintro statistics _ rfl
    cases throws with
    | true => exact obeys_finishRefresh false
    | false =>
        apply (obeys_publishCacheStatistics statistics _ .idle).bind
        rintro _ _ rfl
        change trimRuns.Obeys (if maximumBytes < statistics.totalBytes then _ else _) _ _
        split_ifs
        · apply (obeys_requestDiskCacheTrim true).bind
          rintro _ _ rfl
          exact obeys_finishRefresh true
        · exact obeys_finishRefresh true

theorem obeys_clearTask (setting : ClearSetting) :
    trimRuns.Obeys (clearTask setting) (fun _ after => after = ⟨true, .idle⟩) ⟨true, .idle⟩ := by
  refine ⟨allowed_of_quiet rfl fun _ => rfl, fun store => ?_⟩
  generalize (trimRuns.answer (.clearLocked setting) store).1 = cleared
  rcases cleared with none | ⟨statistics, generation⟩
  · exact rfl
  · exact obeys_publishCacheStatistics statistics generation .idle

theorem obeys_importTask (files : List (String × Replacement)) (setting : TrimSetting) :
    trimRuns.Obeys (importTask files setting) (fun _ after => after = ⟨true, .idle⟩)
      ⟨true, .idle⟩ := by
  have imported : trimRuns.Obeys (importFiles files) (fun _ after => after = ⟨true, .idle⟩)
      ⟨true, .idle⟩ := by
    apply obeys_quiet
    apply everyCall_importFiles
    simp
  apply imported.bind
  rintro _ _ rfl
  exact obeys_trimDiskCache_direct setting

theorem obeys_jobAction (setting : JobSetting) (job : Job) :
    trimRuns.Obeys (jobAction setting job) (fun _ after => after = ⟨true, .idle⟩)
      ⟨true, if job = .trim then .due else .idle⟩ :=
  match job with
  | .initializeCache => obeys_initializeTask setting.stale setting.trim
  | .trim => obeys_trimTask setting.trim setting.throws
  | .refresh => obeys_refreshTask setting.trim.maximumBytes setting.throws
  | .clear => obeys_clearTask setting.clear
  | .importCache => obeys_importTask setting.files setting.trim

theorem obeys_work (index : Nat) (setting : JobSetting) :
    trimRuns.Obeys (work index setting) (fun _ after => AtRest .idle after) trimRuns.blank := by
  refine ⟨⟨by simp, fun _ _ => rfl, rfl⟩, fun store => ?_⟩
  rcases take_cases index store with nothing | ⟨job, _, _, taken⟩
  · simp only [trimRuns, upkeep, answer, holdingAfter, TrimPhase.after, nothing]
    exact rfl
  · simp only [trimRuns, upkeep, answer, holdingAfter, TrimPhase.after, taken]
    have done := obeys_jobAction setting job
    simp only [Option.some.injEq]
    apply done.bind
    rintro _ _ rfl
    exact ⟨⟨fun _ => rfl, by simp, rfl⟩, fun _ => rfl⟩

theorem obeys_getCacheStatistics (callback : Nat) :
    trimRuns.Obeys (getCacheStatistics callback) (fun _ after => AtRest .idle after)
      trimRuns.blank := by
  have refreshed := obeys_requestCacheStatisticsRefresh false
  have requested : trimRuns.Obeys
      (ask (.addPending callback) >>= fun _ => requestCacheStatisticsRefresh)
      (fun _ after => AtRest .idle after) trimRuns.blank :=
    ⟨allowed_of_quiet rfl nofun, fun _ => refreshed⟩
  refine ⟨allowed_of_quiet rfl nofun, fun store => ?_⟩
  generalize (trimRuns.answer .getCached store).1 = snapshot
  cases snapshot with
  | none => exact requested
  | some statistics =>
      refine ⟨allowed_of_quiet rfl nofun, fun published => ⟨allowed_of_quiet rfl nofun,
        fun mutated => ⟨allowed_of_quiet rfl nofun, fun _ => ?_⟩⟩⟩
      change trimRuns.Obeys (if _ then _ else _) _ trimRuns.blank
      split_ifs
      · exact requested
      · exact rfl

theorem obeys_storeThumbnail (name : String) (setting : WriteSetting) :
    trimRuns.Obeys (storeThumbnail name setting) (fun _ after => AtRest .idle after)
      trimRuns.blank := by
  have written : trimRuns.Obeys (writeBitmapAtomically name setting)
      (fun _ after => after = ⟨false, .idle⟩) ⟨false, .idle⟩ := by
    apply obeys_quiet
    apply everyCall_writeBitmapAtomically
    all_goals simp
  apply written.bind
  rintro stored _ rfl
  change trimRuns.Obeys (if stored = true then _ else _) _ _
  split_ifs
  · exact ⟨allowed_of_quiet rfl nofun, fun _ => obeys_requestDiskCacheTrim false⟩
  · exact rfl

theorem obeys_deleteCachedThumbnail (name : String) (deletes : Bool) :
    trimRuns.Obeys (deleteCachedThumbnail name deletes) (fun _ after => AtRest .idle after)
      trimRuns.blank := by
  refine ⟨allowed_of_quiet rfl nofun, fun store => ?_⟩
  generalize (trimRuns.answer (.removeFile name deletes) store).1 = removal
  cases removal with
  | absent => exact rfl
  | deleted => exact ⟨allowed_of_quiet rfl nofun, fun _ => rfl⟩
  | stuck => exact rfl

theorem obeys_taskAction (task : Task) :
    trimRuns.Obeys (taskAction task) (fun _ after => AtRest .idle after) trimRuns.blank := by
  cases task with
  | requestDiskCacheTrim => exact obeys_requestDiskCacheTrim false
  | getCacheStatistics callback => exact obeys_getCacheStatistics callback
  | clearCache => exact ⟨allowed_of_quiet rfl nofun, fun _ => rfl⟩
  | importCache => exact ⟨allowed_of_quiet rfl nofun, fun _ => rfl⟩
  | deleteCachedThumbnail name deletes => exact obeys_deleteCachedThumbnail name deletes
  | storeThumbnail name setting => exact obeys_storeThumbnail name setting
  | work index setting => exact obeys_work index setting

end

/-! ## The invariant -/

section

variable {ι : Type} {store : CacheStore} {notes : ι → Notes TrimPhase}

/-- A scheduled flag has an owner, a request that the last pass has not seen will
be looked at, and the passes are those of the executor's thread. -/
structure TrimInvariant (store : CacheStore) (notes : ι → Notes TrimPhase) : Prop where
  exclusive : Exclusive store notes
  onExecutor : ∀ i, (notes i).phase.onExecutor = true → (notes i).holding = true
  scheduled : store.trimScheduled = true → Awaits .trim store notes TrimPhase.releases
  unseen : store.lastPass ≠ store.trimRequestGeneration → Awaits .trim store notes TrimPhase.answers
  recorded : ∀ i generation, (notes i).phase.recorded = some generation →
    store.lastPass = generation
  running : (∃ i, (notes i).phase.passing = true) → store.passes = 1
  resting : (∀ i, (notes i).phase.passing = false) → store.passes = 0

/-- Another thread than the executor's is in none of the executor's phases. -/
theorem TrimInvariant.alone (invariant : TrimInvariant store notes) {i : ι}
    (mine : (notes i).holding = true) {j : ι} (other : j ≠ i) :
    (notes j).phase.onExecutor = false := by
  cases running : (notes j).phase.onExecutor with
  | false => rfl
  | true => exact absurd ((invariant.exclusive i mine).2 j (invariant.onExecutor j running)) other

theorem TrimPhase.offExecutor {phase : TrimPhase} {P : Prop} (off : phase.onExecutor = false)
    (on : phase.onExecutor = true) : P :=
  absurd (off.symm.trans on) Bool.false_ne_true

variable [DecidableEq ι] {i : ι} {after : Notes TrimPhase}

/-- Calls that neither begin nor end a pass. -/
theorem TrimInvariant.of_steady (invariant : TrimInvariant store notes) {store' : CacheStore}
    (lastPass : store'.lastPass = store.lastPass) (passes : store'.passes = store.passes)
    (passing : after.phase.passing = (notes i).phase.passing)
    (recorded : ∀ generation, after.phase.recorded = some generation →
      (notes i).phase.recorded = some generation)
    (onExecutor : after.phase.onExecutor = true → after.holding = true)
    (exclusive : Exclusive store' (Function.update notes i after))
    (scheduled : store'.trimScheduled = true →
      Awaits .trim store' (Function.update notes i after) TrimPhase.releases)
    (unseen : store'.lastPass ≠ store'.trimRequestGeneration →
      Awaits .trim store' (Function.update notes i after) TrimPhase.answers) :
    TrimInvariant store' (Function.update notes i after) := by
  have passingEq : ∀ j, (Function.update notes i after j).phase.passing =
      (notes j).phase.passing := by
    intro j
    by_cases same : j = i
    · subst same
      simpa using passing
    · simp [same]
  constructor
  · exact exclusive
  · exact forall_update (fun g : Notes TrimPhase => g.phase.onExecutor = true → g.holding = true)
      (fun j _ => invariant.onExecutor j) onExecutor
  · exact scheduled
  · exact unseen
  · rw [lastPass]
    exact forall_update (fun g : Notes TrimPhase => ∀ generation, g.phase.recorded = some generation →
      store.lastPass = generation) (fun j _ => invariant.recorded j)
      fun generation here => invariant.recorded i generation (recorded generation here)
  · intro ⟨j, now⟩
    rw [passes]
    exact invariant.running ⟨j, by rw [← passingEq]; exact now⟩
  · intro none
    rw [passes]
    exact invariant.resting fun j => by rw [← passingEq]; exact none j

/-- Calls that touch nothing of the trims. -/
theorem TrimInvariant.of_same (invariant : TrimInvariant store notes) {store' : CacheStore}
    (queue : .trim ∈ store.queue → .trim ∈ store'.queue)
    (trimScheduled : store'.trimScheduled = store.trimScheduled)
    (trimRequestGeneration : store'.trimRequestGeneration = store.trimRequestGeneration)
    (lastPass : store'.lastPass = store.lastPass) (passes : store'.passes = store.passes)
    (phase : after.phase = (notes i).phase)
    (onExecutor : after.phase.onExecutor = true → after.holding = true)
    (exclusive : Exclusive store' (Function.update notes i after)) :
    TrimInvariant store' (Function.update notes i after) := by
  apply invariant.of_steady lastPass passes (by rw [phase]) (by simp [phase]) onExecutor exclusive
  · rw [trimScheduled]
    intro scheduled
    exact (invariant.scheduled scheduled).update queue (fun _ => id) (by rw [phase]; exact id)
  · rw [lastPass, trimRequestGeneration]
    intro unseen
    exact (invariant.unseen unseen).update queue (fun _ => id) (by rw [phase]; exact id)

end

/-! ## The runs -/

section

variable {ι : Type} [DecidableEq ι]

end

end RoundSync.Thumbnails.Maintenance
