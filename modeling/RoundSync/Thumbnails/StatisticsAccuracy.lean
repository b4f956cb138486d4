import RoundSync.Thumbnails.Maintenance

/-!
# Published statistics are those of the files

A scan of the files takes no lock, and a trim counts down.  Both are published
only under the generation in which they began.  Every section that changes the
files raises the generation when it is done; a scan that saw part of a change is
then not published, or published and out of date.  A write that fails is the
exception: it takes back the file it made, or an older one, and raises nothing.
-/

namespace RoundSync.Thumbnails.Maintenance

open RoundSync.Data
open RoundSync.Transition

/-! ## Counting -/

/-- What the rest of a scan will have counted if no file changes. -/
def measured (files : Files) : List String → CacheStatistics → CacheStatistics
  | [], statistics => statistics
  | name :: names, statistics =>
      match files.lookup name with
      | none => measured files names statistics
      | some length =>
          measured files names ⟨statistics.thumbnailCount + 1, statistics.totalBytes + length⟩

theorem measured_entries {files : Files} {entries : List (Σ _ : String, Nat)}
    (inFiles : entries ⊆ files.entries) (statistics : CacheStatistics) :
    measured files entries.keys statistics =
      ⟨statistics.thumbnailCount + entries.length,
        statistics.totalBytes + (entries.map Sigma.snd).sum⟩ := by
  induction entries generalizing statistics with
  | nil => rfl
  | cons entry entries ih =>
      obtain ⟨here, rest⟩ := List.cons_subset.mp inFiles
      have found : files.lookup entry.1 = some entry.2 := AList.mem_lookup_iff.mpr here
      rw [List.keys_cons, measured]
      simp only [found]
      rw [ih rest]
      simp only [List.length_cons, List.map_cons, List.sum_cons, CacheStatistics.mk.injEq]
      omega

/-- A scan that nothing interrupts counts the files. -/
theorem measured_keys (files : Files) :
    measured files files.keys ⟨0, 0⟩ = statisticsOf files := by
  refine (measured_entries (List.Subset.refl files.entries) ⟨0, 0⟩).trans ?_
  simp [statisticsOf, Table.values]

theorem statisticsOf_erase {files : Files} {name : String} {length : Nat}
    (found : files.lookup name = some length) :
    statisticsOf (files.erase name) =
      ⟨(statisticsOf files).thumbnailCount - 1, (statisticsOf files).totalBytes - length⟩ := by
  obtain ⟨front, back, entries, erased⟩ := Table.exists_entries_of_erase found
  simp only [statisticsOf, Table.values, entries, erased, CacheStatistics.mk.injEq]
  simp only [List.length_append, List.length_cons, List.map_append, List.map_cons,
    List.sum_append, List.sum_cons]
  omega

/-- The loop of a trim counts the files that are left, and says whether it has
removed any. -/
theorem trimLoop_spec (setting : TrimSetting) (names : List String) (files : Files)
    (removed : Bool) :
    ∃ files' removed', trimLoop setting names files (statisticsOf files) removed =
        (files', statisticsOf files', removed') ∧
      (removed = true → removed' = true) ∧ (removed' = false → files' = files) := by
  induction names generalizing files removed with
  | nil => exact ⟨files, removed, rfl, id, fun _ => rfl⟩
  | cons name names ih =>
      rw [trimLoop]
      cases found : files.lookup name with
      | none => exact ih files removed
      | some length =>
          cases deletes : setting.deletes name with
          | false =>
              simp only [Bool.false_eq_true, if_false]
              split_ifs
              · exact ⟨files, removed, rfl, id, fun _ => rfl⟩
              · exact ih files removed
          | true =>
              simp only [if_true]
              rw [← statisticsOf_erase found]
              split_ifs
              · exact ⟨files.erase name, true, rfl, fun _ => rfl, nofun⟩
              · obtain ⟨files', removed', loop, grows, same⟩ := ih (files.erase name) true
                exact ⟨files', removed', loop, fun _ => grows rfl, fun none => by
                  rw [grows rfl] at none
                  cases none⟩

/-- A trim counts the files that are left; it raises the generation if it has
removed any. -/
theorem trimLocked_spec (setting : TrimSetting) (store : CacheStore) :
    ∃ files generation, trimLocked setting store =
        ((statisticsOf files, generation),
          { store with files, statisticsMutationGeneration := generation }) ∧
      store.statisticsMutationGeneration ≤ generation ∧
      (generation = store.statisticsMutationGeneration → files = store.files) := by
  have counted : ∃ files removed,
      (if setting.maximumBytes < (statisticsOf store.files).totalBytes then
        trimLoop setting setting.order store.files (statisticsOf store.files) false
      else (store.files, statisticsOf store.files, false)) = (files, statisticsOf files, removed) ∧
      (removed = false → files = store.files) := by
    split_ifs
    · obtain ⟨files, removed, loop, _, same⟩ :=
        trimLoop_spec setting setting.order store.files false
      exact ⟨files, removed, loop, same⟩
    · exact ⟨store.files, false, rfl, fun _ => rfl⟩
  obtain ⟨files, removed, result, same⟩ := counted
  refine ⟨files, store.statisticsMutationGeneration + if removed then 1 else 0, ?_,
    Nat.le_add_right _ _, fun unchanged => same ?_⟩
  · simp only [trimLocked, result]
  · cases removed with
    | false => rfl
    | true => simp at unchanged

/-! ## The phases -/

/-- What a thread knows of the files: it has changed them and not raised the
generation yet, or has raised it; it has read the generation for a scan, is in the
scan, has seen the file that it measures next, has half published the result.  A
scan with nothing left is a result. -/
inductive CountPhase where
  | idle
  | changed
  | raised
  | started (generation : Nat)
  | scanning (generation : Nat) (names : List String) (statistics : CacheStatistics)
  | sizing (generation : Nat) (name : String) (names : List String) (statistics : CacheStatistics)
  | halfPublished (generation : Nat) (statistics : CacheStatistics)
  deriving DecidableEq

namespace CountPhase

/-- What a call makes of the phase. -/
def after (phase : CountPhase) (store : CacheStore) : StoreCall → CountPhase
  | .removeFile name deletes =>
      if (remove name deletes store).1 = .deleted then .changed else phase
  | .putFile _ _ _ | .wipeFiles => .changed
  | .dropFile _ _ _ | .take _ | .finish | .setPublished _ => .idle
  | .raiseMutation => .raised
  | .getMutation =>
      match phase with
      | .changed => .changed
      | .scanning generation _ _ =>
          if generation = store.statisticsMutationGeneration then phase else .idle
      | _ => .started store.statisticsMutationGeneration
  | .listFiles =>
      match phase with
      | .started generation => .scanning generation store.files.keys ⟨0, 0⟩
      | _ => phase
  | .isFile name =>
      match phase with
      | .scanning generation (_ :: names) statistics =>
          if (store.files.lookup name).isSome then .sizing generation name names statistics
          else .scanning generation names statistics
      | _ => phase
  | .fileLength name =>
      match phase with
      | .sizing generation _ names statistics =>
          .scanning generation names ⟨statistics.thumbnailCount + 1,
            statistics.totalBytes + (store.files.lookup name).getD 0⟩
      | _ => phase
  | .trimLocked setting =>
      let (statistics, generation) := (trimLocked setting store).1
      .scanning generation [] statistics
  | .clearLocked setting =>
      match (clearLocked setting store).1 with
      | none => phase
      | some (statistics, generation) => .scanning generation [] statistics
  | .setCached statistics =>
      match phase with
      | .scanning generation _ _ => .halfPublished generation statistics
      | _ => phase
  | _ => phase

/-- The calls of changes, scans and publications, in their order. -/
def allowed (phase : CountPhase) : StoreCall → Prop
  | .take _ | .finish | .trimLocked _ | .clearLocked _ => phase ≠ .changed
  | .dropFile _ _ touched => touched = false → phase ≠ .changed
  | .listFiles => ∃ generation, phase = .started generation
  | .isFile name => ∃ generation names statistics,
      phase = .scanning generation (name :: names) statistics
  | .fileLength name => ∃ generation names statistics,
      phase = .sizing generation name names statistics
  | .setCached statistics => ∃ generation, phase = .scanning generation [] statistics
  | .setPublished generation => ∃ statistics, phase = .halfPublished generation statistics
  | .forgetCached | .forgetPublished => phase = .raised
  | _ => True

end CountPhase

/-- The runs of the store, with what the threads know of the files. -/
def countRuns : Protocol CacheStore StoreReply (Notes CountPhase) :=
  upkeep .idle CountPhase.after CountPhase.allowed

/-- The calls of changes, scans and publications. -/
def isCountCall : StoreCall → Bool
  | .removeFile _ _ | .putFile _ _ _ | .wipeFiles | .dropFile _ _ _ | .take _ | .finish
  | .setPublished _ | .raiseMutation | .getMutation | .listFiles | .isFile _ | .fileLength _
  | .trimLocked _ | .clearLocked _ | .setCached _ | .forgetCached | .forgetPublished => true
  | _ => false

namespace Accuracy

/-! ## The programs -/

section

attribute [local simp] answer needsExecutor isCountCall CountPhase.after CountPhase.allowed

/-- A thread of the executor that owes no generation, and another that owes none. -/
def Steady (holding : Bool) (notes : Notes CountPhase) : Prop :=
  notes.holding = holding ∧ notes.phase ≠ .changed

theorem note_of_quiet {notes : Notes CountPhase} {c : StoreCall} (quiet : isCountCall c = false)
    (store : CacheStore) : countRuns.note notes store c = notes := by
  unfold countRuns upkeep holdingAfter CountPhase.after
  cases c with
  | removeFile name deletes | putFile name length changed | wipeFiles
  | dropFile name deletes changed | take index | finish | setPublished generation
  | raiseMutation | getMutation | listFiles | isFile name | fileLength name | trimLocked setting
  | clearLocked setting | setCached statistics => cases quiet
  | _ => rfl

theorem allowed_of_quiet {notes : Notes CountPhase} {c : StoreCall} (quiet : isCountCall c = false)
    (executor : needsExecutor c = true → notes.holding = true) : countRuns.allowed notes c := by
  refine ⟨executor, ?_, ?_⟩
  · rintro index rfl
    cases quiet
  · cases c with
    | take index | finish | trimLocked setting | clearLocked setting
    | dropFile name deletes changed | listFiles | isFile name | fileLength name
    | setCached statistics | setPublished generation | forgetCached | forgetPublished =>
        cases quiet
    | _ => trivial

/-- A program without changes, scans and publications. -/
theorem obeys_quiet {α : Type} {program : Action α} {notes : Notes CountPhase}
    (calls : program.EveryCall fun c =>
      isCountCall c = false ∧ (needsExecutor c = true → notes.holding = true)) :
    countRuns.Obeys program (fun _ after => after = notes) notes :=
  Protocol.obeys_of_everyCall calls (fun _ quiet => allowed_of_quiet quiet.1 quiet.2)
    (fun store _ quiet => note_of_quiet quiet.1 store) fun _ => rfl

theorem obeys_enqueueDiskCacheTrim (notes : Notes CountPhase) :
    countRuns.Obeys enqueueDiskCacheTrim (fun _ after => after = notes) notes := by
  apply obeys_quiet
  refine ⟨by simp, fun won => ?_⟩
  change Program.EveryCall _ (if won = true then _ else _)
  split_ifs
  · exact ⟨by simp, fun _ => trivial⟩
  · trivial

theorem obeys_requestDiskCacheTrim (notes : Notes CountPhase) :
    countRuns.Obeys requestDiskCacheTrim (fun _ after => after = notes) notes :=
  ⟨allowed_of_quiet rfl nofun, fun _ => obeys_enqueueDiskCacheTrim notes⟩

theorem obeys_requestCacheStatisticsRefresh (notes : Notes CountPhase) :
    countRuns.Obeys requestCacheStatisticsRefresh (fun _ after => after = notes) notes := by
  apply obeys_quiet
  refine ⟨by simp, fun won => ?_⟩
  change Program.EveryCall _ (if won = true then _ else _)
  split_ifs
  · exact ⟨by simp, fun _ => trivial⟩
  · trivial

/-- Reading the generation owes nothing. -/
theorem steady_getMutation {holding : Bool} {notes : Notes CountPhase}
    (steady : Steady holding notes) (store : CacheStore) :
    Steady holding (countRuns.note notes store .getMutation) := by
  obtain ⟨held, phase⟩ := notes
  refine ⟨steady.1, ?_⟩
  change CountPhase.after phase store .getMutation ≠ .changed
  have clean : phase ≠ .changed := steady.2
  cases phase with
  | changed => exact absurd rfl clean
  | scanning generation names statistics =>
      simp only [CountPhase.after]
      split_ifs
      · intro wrong
        cases wrong
      · intro wrong
        cases wrong
  | _ => exact nofun

/-- The result of a scan is published under its generation. -/
theorem obeys_publishCacheStatistics (statistics : CacheStatistics) (generation : Nat) :
    countRuns.Obeys (publishCacheStatistics statistics generation) (fun _ => Steady true)
      ⟨true, .scanning generation [] statistics⟩ := by
  refine ⟨⟨by simp, by simp, trivial⟩, fun store => ?_⟩
  have note : countRuns.note ⟨true, .scanning generation [] statistics⟩ store .getMutation =
      ⟨true, if generation = store.statisticsMutationGeneration then
        .scanning generation [] statistics else .idle⟩ := rfl
  rw [note]
  change countRuns.Obeys (if generation ≠ store.statisticsMutationGeneration then _ else _) _ _
  by_cases current : generation = store.statisticsMutationGeneration
  · rw [if_neg (not_not_intro current), if_pos current]
    refine ⟨⟨by simp, by simp, ⟨generation, rfl⟩⟩, fun _ =>
      ⟨⟨fun _ => rfl, by simp, ⟨statistics, rfl⟩⟩, fun _ => ?_⟩⟩
    have posted : countRuns.Obeys
        (ask .drainPending >>= fun callbacks =>
          Program.forEach callbacks fun callback => ask (.post callback statistics))
        (fun _ after => after = ⟨true, .idle⟩) ⟨true, .idle⟩ := by
      apply obeys_quiet
      refine ⟨by simp, fun callbacks => ?_⟩
      exact Program.everyCall_forEach (fun callback => Program.everyCall_request.mpr
        (by simp)) callbacks
    apply posted.mono
    rintro _ _ rfl
    exact ⟨rfl, nofun⟩
  · rw [if_pos current, if_neg current]
    exact ⟨rfl, nofun⟩

theorem obeys_trimDiskCache (recorded : Option Nat) (setting : TrimSetting)
    {notes : Notes CountPhase} (steady : Steady true notes) :
    countRuns.Obeys (trimDiskCache recorded setting) (fun _ => Steady true) notes := by
  obtain ⟨held, phase⟩ := notes
  obtain ⟨rfl, clean⟩ := steady
  refine ⟨allowed_of_quiet rfl fun _ => rfl, fun _ => ⟨⟨fun _ => rfl, by simp, clean⟩,
    fun store => ?_⟩⟩
  apply (obeys_publishCacheStatistics _ _).bind
  rintro _ ⟨held, phase⟩ ⟨rfl, clean⟩
  exact ⟨allowed_of_quiet rfl fun _ => rfl, fun _ => ⟨rfl, clean⟩⟩

theorem obeys_trimTask (setting : TrimSetting) (throws : Bool) :
    countRuns.Obeys (trimTask setting throws) (fun _ => Steady true) ⟨true, .idle⟩ := by
  refine ⟨allowed_of_quiet rfl fun _ => rfl, fun store => ?_⟩
  have released : ∀ phase, phase ≠ .changed → countRuns.Obeys
      (ask .releaseTrimScheduled >>= fun _ => ask .getTrimRequest >>= fun generation =>
        if generation ≠ store.trimRequestGeneration then enqueueDiskCacheTrim else pure ())
      (fun _ => Steady true) ⟨true, phase⟩ := by
    intro phase clean
    refine ⟨allowed_of_quiet rfl fun _ => rfl, fun _ => ⟨allowed_of_quiet rfl fun _ => rfl,
      fun later => ?_⟩⟩
    change countRuns.Obeys (if _ then _ else _) _ ⟨true, phase⟩
    split_ifs
    · apply (obeys_enqueueDiskCacheTrim ⟨true, phase⟩).mono
      rintro _ _ rfl
      exact ⟨rfl, clean⟩
    · exact ⟨rfl, clean⟩
  cases throws with
  | false =>
      have steady : Steady true ⟨true, .idle⟩ := ⟨rfl, nofun⟩
      apply (obeys_trimDiskCache (some store.trimRequestGeneration) setting steady).bind
      rintro _ ⟨held, phase⟩ ⟨rfl, clean⟩
      exact released phase clean
  | true =>
      exact ⟨allowed_of_quiet rfl fun _ => rfl, fun _ => ⟨allowed_of_quiet rfl fun _ => rfl,
        fun _ => released .idle nofun⟩⟩

theorem obeys_initializeTask (stale : Bool) (setting : TrimSetting) :
    countRuns.Obeys (initializeTask stale setting) (fun _ => Steady true) ⟨true, .idle⟩ := by
  have trimmed : ∀ phase, phase ≠ .changed → countRuns.Obeys
      (ask .getCached >>= trimOversized setting)
      (fun _ => Steady true) ⟨true, phase⟩ := by
    intro phase clean
    have steady : Steady true ⟨true, phase⟩ := ⟨rfl, clean⟩
    refine ⟨allowed_of_quiet rfl nofun, fun store => ?_⟩
    generalize (countRuns.answer .getCached store).1 = cached
    cases cached with
    | none => exact obeys_trimDiskCache none setting steady
    | some statistics =>
        change countRuns.Obeys (if _ then _ else _) _ _
        split_ifs
        · exact obeys_trimDiskCache none setting steady
        · exact steady
  cases stale with
  | false => exact trimmed .idle nofun
  | true =>
      exact ⟨⟨fun _ => rfl, by simp, trivial⟩, fun _ => ⟨⟨fun _ => rfl, by simp, trivial⟩, fun _ =>
        ⟨⟨fun _ => rfl, by simp, rfl⟩, fun _ => ⟨⟨fun _ => rfl, by simp, rfl⟩, fun _ =>
          trimmed .raised nofun⟩⟩⟩⟩

/-- A scan ends with what it has counted. -/
theorem obeys_sumFiles (generation : Nat) (names : List String) (statistics : CacheStatistics) :
    countRuns.Obeys (sumFiles names statistics)
      (fun counted after => after = ⟨true, .scanning generation [] counted⟩)
      ⟨true, .scanning generation names statistics⟩ := by
  induction names generalizing statistics with
  | nil => exact rfl
  | cons name names ih =>
      refine ⟨⟨fun _ => rfl, by simp, ⟨generation, names, statistics, rfl⟩⟩, fun store => ?_⟩
      have note : countRuns.note ⟨true, .scanning generation (name :: names) statistics⟩ store
          (.isFile name) = ⟨true, if (store.files.lookup name).isSome then
            .sizing generation name names statistics
          else .scanning generation names statistics⟩ := rfl
      rw [note]
      change countRuns.Obeys (if (store.files.lookup name).isSome = true then _ else _) _ _
      split_ifs
      · exact ⟨⟨fun _ => rfl, by simp, ⟨generation, names, statistics, rfl⟩⟩, fun later => ih _⟩
      · exact ih statistics

theorem obeys_finishRefresh (refreshCompleted : Bool) {notes : Notes CountPhase}
    (steady : Steady true notes) :
    countRuns.Obeys (finishRefresh refreshCompleted) (fun _ => Steady true) notes := by
  obtain ⟨held, phase⟩ := notes
  obtain ⟨rfl, clean⟩ := steady
  refine ⟨allowed_of_quiet rfl fun _ => rfl, fun _ => ⟨allowed_of_quiet rfl nofun, fun store => ?_⟩⟩
  cases refreshCompleted with
  | false => exact ⟨rfl, clean⟩
  | true =>
      refine ⟨allowed_of_quiet rfl nofun, fun published =>
        ⟨⟨nofun, by simp, trivial⟩, fun mutated => ?_⟩⟩
      have read : Steady true (countRuns.note ⟨true, phase⟩ mutated .getMutation) :=
        steady_getMutation ⟨rfl, clean⟩ mutated
      change countRuns.Obeys (if _ then _ else _) _ _
      split_ifs
      · apply (obeys_requestCacheStatisticsRefresh _).mono
        rintro _ _ rfl
        exact read
      · exact read

theorem obeys_refreshTask (maximumBytes : Nat) (throws : Bool) :
    countRuns.Obeys (refreshTask maximumBytes throws) (fun _ => Steady true) ⟨true, .idle⟩ := by
  refine ⟨allowed_of_quiet rfl nofun, fun _ => ⟨allowed_of_quiet rfl nofun, fun _ =>
    ⟨⟨nofun, by simp, trivial⟩, fun before => ?_⟩⟩⟩
  have read : countRuns.note ⟨true, .idle⟩ before .getMutation =
      ⟨true, .started before.statisticsMutationGeneration⟩ := rfl
  change countRuns.Obeys (if _ then _ else _) _ (countRuns.note ⟨true, .idle⟩ before .getMutation)
  rw [read]
  split
  · exact obeys_finishRefresh false ⟨rfl, nofun⟩
  · refine ⟨⟨by simp, by simp, trivial⟩, fun store => ⟨⟨fun _ => rfl, by simp,
      ⟨store.statisticsMutationGeneration, rfl⟩⟩, fun listed => ?_⟩⟩
    apply (obeys_sumFiles store.statisticsMutationGeneration listed.files.keys ⟨0, 0⟩).bind
    rintro statistics _ rfl
    cases throws with
    | true => exact obeys_finishRefresh false ⟨rfl, nofun⟩
    | false =>
        apply (obeys_publishCacheStatistics statistics _).bind
        rintro _ notes steady
        change countRuns.Obeys (if maximumBytes < statistics.totalBytes then _ else _) _ _
        split_ifs
        · apply (obeys_requestDiskCacheTrim notes).bind
          rintro _ _ rfl
          exact obeys_finishRefresh true steady
        · exact obeys_finishRefresh true steady

theorem obeys_clearTask (setting : ClearSetting) :
    countRuns.Obeys (clearTask setting) (fun _ => Steady true) ⟨true, .idle⟩ := by
  refine ⟨⟨fun _ => rfl, by simp, nofun⟩, fun store => ?_⟩
  have note : countRuns.note ⟨true, .idle⟩ store (.clearLocked setting) =
      ⟨true, match (clearLocked setting store).1 with
        | none => .idle
        | some (statistics, generation) => .scanning generation [] statistics⟩ := rfl
  have reply : (countRuns.answer (.clearLocked setting) store).1 = (clearLocked setting store).1 :=
    rfl
  rw [note, reply]
  rcases (clearLocked setting store).1 with none | ⟨statistics, generation⟩
  · exact ⟨rfl, nofun⟩
  · exact obeys_publishCacheStatistics statistics generation

theorem obeys_importTask (files : List (String × Replacement)) (setting : TrimSetting) :
    countRuns.Obeys (importTask files setting) (fun _ => Steady true) ⟨true, .idle⟩ := by
  have imported : countRuns.Obeys (importFiles files) (fun _ after => after = ⟨true, .idle⟩)
      ⟨true, .idle⟩ := by
    apply obeys_quiet
    apply everyCall_importFiles
    simp
  apply imported.bind
  rintro _ _ rfl
  exact obeys_trimDiskCache none setting ⟨rfl, nofun⟩

theorem obeys_jobAction (setting : JobSetting) (job : Job) :
    countRuns.Obeys (jobAction setting job) (fun _ => Steady true) ⟨true, .idle⟩ :=
  match job with
  | .initializeCache => obeys_initializeTask setting.stale setting.trim
  | .trim => obeys_trimTask setting.trim setting.throws
  | .refresh => obeys_refreshTask setting.trim.maximumBytes setting.throws
  | .clear => obeys_clearTask setting.clear
  | .importCache => obeys_importTask setting.files setting.trim

theorem obeys_work (index : Nat) (setting : JobSetting) :
    countRuns.Obeys (work index setting) (fun _ => Steady false) countRuns.blank := by
  refine ⟨⟨by simp, fun _ _ => rfl, nofun⟩, fun store => ?_⟩
  have note : countRuns.note countRuns.blank store (.take index) =
      ⟨(take index store).1.isSome, .idle⟩ := rfl
  have reply : (countRuns.answer (.take index) store).1 = (take index store).1 := rfl
  rw [note, reply]
  cases (take index store).1 with
  | none => exact ⟨rfl, nofun⟩
  | some job =>
      apply (obeys_jobAction setting job).bind
      rintro _ notes ⟨mine, clean⟩
      exact ⟨⟨fun _ => mine, by simp, clean⟩, fun _ => ⟨rfl, nofun⟩⟩

theorem obeys_getCacheStatistics (callback : Nat) :
    countRuns.Obeys (getCacheStatistics callback) (fun _ => Steady false) countRuns.blank := by
  have blank : Steady false ⟨false, .idle⟩ := ⟨rfl, nofun⟩
  have requested : ∀ notes, Steady false notes → countRuns.Obeys
      (ask (.addPending callback) >>= fun _ => requestCacheStatisticsRefresh)
      (fun _ => Steady false) notes := by
    intro notes steady
    refine ⟨allowed_of_quiet rfl nofun, fun _ => ?_⟩
    apply (obeys_requestCacheStatisticsRefresh notes).mono
    rintro _ _ rfl
    exact steady
  refine ⟨allowed_of_quiet rfl nofun, fun store => ?_⟩
  generalize (countRuns.answer .getCached store).1 = snapshot
  cases snapshot with
  | none => exact requested ⟨false, .idle⟩ blank
  | some statistics =>
      refine ⟨allowed_of_quiet rfl nofun, fun published =>
        ⟨⟨by simp, by simp, trivial⟩, fun mutated =>
          ⟨allowed_of_quiet rfl nofun, fun _ => ?_⟩⟩⟩
      have read : Steady false (countRuns.note ⟨false, .idle⟩ mutated .getMutation) :=
        steady_getMutation blank mutated
      change countRuns.Obeys (if _ then _ else _) _ _
      split_ifs
      · exact requested _ read
      · exact read

/-- A write that succeeds owes a generation; one that fails owes none any more. -/
theorem obeys_writeBitmapAtomically (name : String) (setting : WriteSetting) :
    countRuns.Obeys (writeBitmapAtomically name setting)
      (fun written after => after.holding = false ∧ (written = false → after.phase ≠ .changed))
      countRuns.blank := by
  have dropped : ∀ touched phase, (touched = false → phase ≠ .changed) → countRuns.Obeys
      (ask (.dropFile name setting.drops touched) >>= fun _ => (pure false : Action Bool))
      (fun written after => after.holding = false ∧ (written = false → after.phase ≠ .changed))
      ⟨false, phase⟩ :=
    fun touched phase clean =>
      ⟨⟨by simp, by simp, clean⟩, fun _ => ⟨rfl, fun _ => nofun⟩⟩
  have put : ∀ phase length touched, countRuns.allowed ⟨false, phase⟩
      (.putFile name length touched) :=
    fun phase length touched => ⟨by simp, by simp, trivial⟩
  unfold writeBitmapAtomically
  split
  · exact dropped false .idle fun _ => nofun
  · refine ⟨⟨by simp, by simp, trivial⟩, fun store => ?_⟩
    have note : countRuns.note countRuns.blank store (.removeFile name setting.deletes) =
        ⟨false, if (remove name setting.deletes store).1 = .deleted then .changed else .idle⟩ :=
      rfl
    have reply : (countRuns.answer (.removeFile name setting.deletes) store).1 =
        (remove name setting.deletes store).1 := rfl
    rw [note, reply]
    change countRuns.Obeys (if (remove name setting.deletes store).1 = .stuck then _ else _) _ _
    split
    · rename_i stuck
      rw [stuck]
      exact dropped false .idle fun _ => nofun
    · split
      · refine ⟨put _ _ _, fun _ => ?_⟩
        change countRuns.Obeys (if 0 < setting.length then _ else _) _ ⟨false, .changed⟩
        split
        · exact ⟨rfl, nofun⟩
        · exact dropped true .changed nofun
      · refine ⟨put _ _ _, fun _ => ?_⟩
        change countRuns.Obeys (if (setting.copies && 0 < setting.length) = true then _ else _) _
          ⟨false, .changed⟩
        split
        · exact ⟨put _ _ _, fun _ => ⟨rfl, nofun⟩⟩
        · exact dropped true .changed nofun

theorem obeys_storeThumbnail (name : String) (setting : WriteSetting) :
    countRuns.Obeys (storeThumbnail name setting) (fun _ => Steady false) countRuns.blank := by
  apply (obeys_writeBitmapAtomically name setting).bind
  rintro written ⟨held, phase⟩ ⟨rfl, clean⟩
  cases written with
  | false => exact ⟨rfl, clean rfl⟩
  | true =>
      refine ⟨⟨by simp, by simp, trivial⟩, fun _ => ?_⟩
      apply (obeys_requestDiskCacheTrim ⟨false, .raised⟩).mono
      rintro _ _ rfl
      exact ⟨rfl, nofun⟩

theorem obeys_deleteCachedThumbnail (name : String) (deletes : Bool) :
    countRuns.Obeys (deleteCachedThumbnail name deletes) (fun _ => Steady false)
      countRuns.blank := by
  refine ⟨⟨by simp, by simp, trivial⟩, fun store => ?_⟩
  have note : countRuns.note countRuns.blank store (.removeFile name deletes) =
      ⟨false, if (remove name deletes store).1 = .deleted then .changed else .idle⟩ := rfl
  have reply : (countRuns.answer (.removeFile name deletes) store).1 =
      (remove name deletes store).1 := rfl
  rw [note, reply]
  cases (remove name deletes store).1 with
  | absent => exact ⟨rfl, nofun⟩
  | deleted => exact ⟨⟨by simp, by simp, trivial⟩, fun _ => ⟨rfl, nofun⟩⟩
  | stuck => exact ⟨rfl, nofun⟩

theorem obeys_taskAction (task : Task) :
    countRuns.Obeys (taskAction task) (fun _ => Steady false) countRuns.blank := by
  cases task with
  | requestDiskCacheTrim =>
      apply (obeys_requestDiskCacheTrim countRuns.blank).mono
      rintro _ _ rfl
      exact ⟨rfl, nofun⟩
  | getCacheStatistics callback => exact obeys_getCacheStatistics callback
  | clearCache => exact ⟨allowed_of_quiet rfl nofun, fun _ => ⟨rfl, nofun⟩⟩
  | importCache => exact ⟨allowed_of_quiet rfl nofun, fun _ => ⟨rfl, nofun⟩⟩
  | deleteCachedThumbnail name deletes => exact obeys_deleteCachedThumbnail name deletes
  | storeThumbnail name setting => exact obeys_storeThumbnail name setting
  | work index setting => exact obeys_work index setting

end

/-! ## The invariant -/

/-- The call changes the files, or takes back a change, and the generation is not
raised for it: a write that fails, a clear or an import that is broken off. -/
def leavesUncounted (store : CacheStore) : StoreCall → Bool
  | .dropFile name deletes changed => changed || (deletes && (store.files.lookup name).isSome)
  | .clearLocked setting => setting.throws && store.files.keys.any fun name => !setting.resists name
  | .importLocked name .lost => (store.files.lookup name).isSome
  | _ => false

/-- Every change of the files is counted. -/
def Counted {ι : Type} (store : CacheStore) (_ : ι → Notes CountPhase) (_ : ι) (c : StoreCall) :
    Prop :=
  leavesUncounted store c = false

instance {ι : Type} (store : CacheStore) (notes : ι → Notes CountPhase) (i : ι) (c : StoreCall) :
    Decidable (Counted store notes i c) :=
  inferInstanceAs (Decidable (_ = _))

/-- What a phase says of the store; `clean` says that no thread owes a generation. -/
def Law (store : CacheStore) (clean : Prop) : CountPhase → Prop
  | .idle | .changed => True
  | .raised => store.publishedStatisticsGeneration < store.statisticsMutationGeneration
  | .started generation =>
      store.publishedStatisticsGeneration ≤ generation ∧
        generation ≤ store.statisticsMutationGeneration
  | .scanning generation names statistics =>
      store.publishedStatisticsGeneration ≤ generation ∧
        generation ≤ store.statisticsMutationGeneration ∧
        (clean → generation = store.statisticsMutationGeneration →
          measured store.files names statistics = statisticsOf store.files)
  | .sizing generation name names statistics =>
      store.publishedStatisticsGeneration ≤ generation ∧
        generation ≤ store.statisticsMutationGeneration ∧
        (clean → generation = store.statisticsMutationGeneration →
          store.files.lookup name ≠ none ∧
            measured store.files (name :: names) statistics = statisticsOf store.files)
  | .halfPublished generation statistics =>
      store.publishedStatisticsGeneration ≤ generation ∧
        generation ≤ store.statisticsMutationGeneration ∧
        store.cachedStatistics = some statistics ∧
        (clean → generation = store.statisticsMutationGeneration →
          statistics = statisticsOf store.files)

section

variable {ι : Type} {store : CacheStore} {notes : ι → Notes CountPhase}

/-- No thread owes a generation. -/
def Clean (notes : ι → Notes CountPhase) : Prop :=
  ∀ i, (notes i).phase ≠ .changed

/-- Statistics that are published under the current generation are those of the
files. -/
def Accurate (store : CacheStore) : Prop :=
  store.publishedStatisticsGeneration = store.statisticsMutationGeneration →
    store.cachedStatistics = some (statisticsOf store.files)

structure Invariant (store : CacheStore) (notes : ι → Notes CountPhase) : Prop where
  exclusive : Exclusive store notes
  published : store.publishedStatisticsGeneration ≤ store.statisticsMutationGeneration
  accurate : Clean notes → Accurate store
  law : ∀ i, (notes i).holding = true → Law store (Clean notes) (notes i).phase

/-- Changes that the other threads may meet: nothing is published, and where the
generation is as before, a clean store was clean and has the same files. -/
structure Onward (store : CacheStore) (clean : Prop) (store' : CacheStore) (clean' : Prop) :
    Prop where
  published : store'.publishedStatisticsGeneration = store.publishedStatisticsGeneration
  cached : store'.cachedStatistics = store.cachedStatistics
  mutation : store.statisticsMutationGeneration ≤ store'.statisticsMutationGeneration
  same : clean' → store'.statisticsMutationGeneration = store.statisticsMutationGeneration →
    clean ∧ store'.files = store.files

variable {store' : CacheStore} {clean clean' : Prop}

theorem Law.onward {phase : CountPhase} (law : Law store clean phase)
    (onward : Onward store clean store' clean') : Law store' clean' phase := by
  obtain ⟨published, cached, mutation, same⟩ := onward
  have current : ∀ {generation}, generation ≤ store.statisticsMutationGeneration →
      generation = store'.statisticsMutationGeneration →
      store'.statisticsMutationGeneration = store.statisticsMutationGeneration := by
    intro generation bound equal
    omega
  cases phase with
  | idle | changed => trivial
  | raised =>
      simp only [Law] at law ⊢
      omega
  | started generation =>
      simp only [Law] at law ⊢
      omega
  | scanning generation names statistics =>
      obtain ⟨before, bound, counted⟩ := law
      refine ⟨published ▸ before, Nat.le_trans bound mutation, fun isClean equal => ?_⟩
      have steady := current bound equal
      obtain ⟨wasClean, files⟩ := same isClean steady
      rw [files]
      exact counted wasClean (equal.trans steady)
  | sizing generation name names statistics =>
      obtain ⟨before, bound, counted⟩ := law
      refine ⟨published ▸ before, Nat.le_trans bound mutation, fun isClean equal => ?_⟩
      have steady := current bound equal
      obtain ⟨wasClean, files⟩ := same isClean steady
      rw [files]
      exact counted wasClean (equal.trans steady)
  | halfPublished generation statistics =>
      obtain ⟨before, bound, half, counted⟩ := law
      refine ⟨published ▸ before, Nat.le_trans bound mutation, cached.trans half,
        fun isClean equal => ?_⟩
      have steady := current bound equal
      obtain ⟨wasClean, files⟩ := same isClean steady
      rw [files]
      exact counted wasClean (equal.trans steady)

variable [DecidableEq ι] {i : ι} {after : Notes CountPhase}

theorem clean_of_update (kept : after.phase ≠ .changed → (notes i).phase ≠ .changed)
    (isClean : Clean (Function.update notes i after)) : Clean notes := by
  intro j
  by_cases same : j = i
  · subst same
    exact kept (by simpa using isClean j)
  · simpa [same] using isClean j

/-- Calls that publish nothing. -/
theorem Invariant.of_onward (invariant : Invariant store notes)
    (exclusive : Exclusive store' (Function.update notes i after))
    (onward : Onward store (Clean notes) store' (Clean (Function.update notes i after)))
    (law : after.holding = true →
      Law store' (Clean (Function.update notes i after)) after.phase) :
    Invariant store' (Function.update notes i after) := by
  have mutation := onward.mutation
  have published := onward.published
  have bound := invariant.published
  constructor
  · exact exclusive
  · omega
  · intro isClean current
    have steady : store'.statisticsMutationGeneration = store.statisticsMutationGeneration := by
      omega
    obtain ⟨wasClean, files⟩ := onward.same isClean steady
    rw [onward.cached, files]
    exact invariant.accurate wasClean (by omega)
  · exact forall_update (fun g : Notes CountPhase => g.holding = true →
      Law store' (Clean (Function.update notes i after)) g.phase)
      (fun j _ holding => (invariant.law j holding).onward onward) law

/-- Calls of the executor's thread: no other has a phase that says something. -/
theorem Invariant.of_alone (invariant : Invariant store notes) (mine : (notes i).holding = true)
    (exclusive : Exclusive store' (Function.update notes i after))
    (published : store'.publishedStatisticsGeneration ≤ store'.statisticsMutationGeneration)
    (accurate : Clean (Function.update notes i after) → Accurate store')
    (law : Law store' (Clean (Function.update notes i after)) after.phase) :
    Invariant store' (Function.update notes i after) := by
  constructor
  · exact exclusive
  · exact published
  · exact accurate
  · refine forall_update (fun g : Notes CountPhase => g.holding = true →
      Law store' (Clean (Function.update notes i after)) g.phase) (fun j other holding => ?_)
      fun _ => law
    exact absurd ((invariant.exclusive i mine).2 j holding) other

/-- What the statistics and the files of a store consist of. -/
structure SameFiles (store store' : CacheStore) : Prop where
  files : store'.files = store.files
  mutation : store'.statisticsMutationGeneration = store.statisticsMutationGeneration
  published : store'.publishedStatisticsGeneration = store.publishedStatisticsGeneration
  cached : store'.cachedStatistics = store.cachedStatistics

omit [DecidableEq ι] in
theorem SameFiles.onward (same : SameFiles store store') (kept : clean' → clean) :
    Onward store clean store' clean' :=
  ⟨same.published, same.cached, Nat.le_of_eq same.mutation.symm, fun isClean _ =>
    ⟨kept isClean, same.files⟩⟩

/-- Where files were changed and the generation is not raised, the thread owes it. -/
theorem onward_of_changed (published : store'.publishedStatisticsGeneration =
      store.publishedStatisticsGeneration) (cached : store'.cachedStatistics = store.cachedStatistics)
    (mutation : store'.statisticsMutationGeneration = store.statisticsMutationGeneration)
    (changed : after.phase = .changed) :
    Onward store clean store' (Clean (Function.update notes i after)) := by
  refine ⟨published, cached, Nat.le_of_eq mutation.symm, fun isClean _ => ?_⟩
  have here := isClean i
  rw [Function.update_self] at here
  exact absurd changed here

omit [DecidableEq ι] in
/-- A raised generation is one that nobody has seen. -/
theorem onward_of_raised (published : store'.publishedStatisticsGeneration =
      store.publishedStatisticsGeneration) (cached : store'.cachedStatistics = store.cachedStatistics)
    (mutation : store.statisticsMutationGeneration < store'.statisticsMutationGeneration) :
    Onward store clean store' clean' :=
  ⟨published, cached, Nat.le_of_lt mutation, fun _ equal => by omega⟩

omit [DecidableEq ι] in
theorem sameFiles_answer {c : StoreCall} (quiet : isCountCall c = false)
    (notImport : ∀ name replacement, c ≠ .importLocked name replacement) (store : CacheStore) :
    SameFiles store (answer c store).2 := by
  cases c with
  | removeFile name deletes | putFile name length touched | wipeFiles
  | dropFile name deletes touched | take index | finish | setPublished generation
  | raiseMutation | getMutation | listFiles | isFile name | fileLength name | trimLocked setting
  | clearLocked setting | setCached statistics | forgetCached | forgetPublished => cases quiet
  | importLocked name replacement => exact absurd rfl (notImport name replacement)
  | _ => exact ⟨rfl, rfl, rfl, rfl⟩

/-- What remains is to show what the call makes of the files and the phase. -/
theorem invariant_of_onward {c : StoreCall} (invariant : Invariant store notes)
    (executor : needsExecutor c = true → (notes i).holding = true)
    (onward : Onward store (Clean notes) (answer c store).2
      (Clean (Function.update notes i (countRuns.note (notes i) store c))))
    (law : (countRuns.note (notes i) store c).holding = true →
      Law (answer c store).2 (Clean (Function.update notes i (countRuns.note (notes i) store c)))
        (countRuns.note (notes i) store c).phase) :
    Invariant (answer c store).2
      (Function.update notes i (countRuns.note (notes i) store c)) :=
  invariant.of_onward (exclusive_answer invariant.exclusive executor) onward law

theorem invariant_quiet (invariant : Invariant store notes) {c : StoreCall}
    (quiet : isCountCall c = false) (allowed : countRuns.allowed (notes i) c)
    (counted : Counted store notes i c) :
    Invariant (answer c store).2
      (Function.update notes i (countRuns.note (notes i) store c)) := by
  have onward : Onward store (Clean notes) (answer c store).2 (Clean notes) := by
    by_cases isImport : ∃ name replacement, c = .importLocked name replacement
    · obtain ⟨name, replacement, rfl⟩ := isImport
      cases replacement with
      | done length => exact onward_of_raised rfl rfl (Nat.lt_succ_self _)
      | restored => exact SameFiles.onward ⟨rfl, rfl, rfl, rfl⟩ id
      | lost =>
          have absent : store.files.lookup name = none := Option.not_isSome_iff_eq_none.mp
            (Bool.not_eq_true _ ▸ counted)
          have same : SameFiles store (answer (.importLocked name .lost) store).2 :=
            ⟨Table.erase_of_lookup_eq_none absent, rfl, rfl, rfl⟩
          exact same.onward id
    · have notImport : ∀ name replacement, c ≠ .importLocked name replacement :=
        fun name replacement same => isImport ⟨name, replacement, same⟩
      exact (sameFiles_answer quiet notImport store).onward id
  have note : countRuns.note (notes i) store c = notes i := note_of_quiet quiet store
  apply invariant_of_onward invariant allowed.1
  · rw [note, Function.update_eq_self]
    exact onward
  · rw [note, Function.update_eq_self]
    exact fun holding => (invariant.law i holding).onward onward

omit [DecidableEq ι] in
theorem remove_cases (name : String) (deletes : Bool) (store : CacheStore) :
    remove name deletes store =
        (.deleted, { store with files := store.files.erase name }) ∨
      (remove name deletes store).1 ≠ .deleted ∧ (remove name deletes store).2 = store := by
  unfold remove
  split_ifs
  · exact Or.inr ⟨nofun, rfl⟩
  · exact Or.inl rfl
  · exact Or.inr ⟨nofun, rfl⟩

theorem invariant_removeFile (invariant : Invariant store notes) {name : String} {deletes : Bool}
    (allowed : countRuns.allowed (notes i) (.removeFile name deletes)) :
    Invariant (answer (.removeFile name deletes) store).2
      (Function.update notes i (countRuns.note (notes i) store (.removeFile name deletes))) := by
  have note : countRuns.note (notes i) store (.removeFile name deletes) =
      ⟨(notes i).holding,
        if (remove name deletes store).1 = .deleted then .changed else (notes i).phase⟩ := rfl
  have state : (answer (.removeFile name deletes) store).2 = (remove name deletes store).2 := rfl
  apply invariant_of_onward invariant allowed.1
  · rw [note, state]
    rcases remove_cases name deletes store with removed | ⟨kept, same⟩
    · rw [removed, if_pos rfl]
      exact onward_of_changed rfl rfl rfl rfl
    · rw [same, if_neg kept]
      exact SameFiles.onward ⟨rfl, rfl, rfl, rfl⟩ (clean_of_update id)
  · rw [note, state]
    rcases remove_cases name deletes store with removed | ⟨kept, same⟩
    · rw [removed, if_pos rfl]
      exact fun _ => trivial
    · rw [same, if_neg kept]
      exact fun holding => (invariant.law i holding).onward
        (SameFiles.onward ⟨rfl, rfl, rfl, rfl⟩ (clean_of_update id))

/-- The thread owes a generation afterwards. -/
theorem invariant_changed {c : StoreCall} (invariant : Invariant store notes)
    (executor : needsExecutor c = true → (notes i).holding = true)
    (published : (answer c store).2.publishedStatisticsGeneration =
      store.publishedStatisticsGeneration)
    (cached : (answer c store).2.cachedStatistics = store.cachedStatistics)
    (mutation : (answer c store).2.statisticsMutationGeneration =
      store.statisticsMutationGeneration)
    (changed : (countRuns.note (notes i) store c).phase = .changed) :
    Invariant (answer c store).2
      (Function.update notes i (countRuns.note (notes i) store c)) := by
  apply invariant_of_onward invariant executor
  · exact onward_of_changed published cached mutation changed
  · rw [changed]
    exact fun _ => trivial

/-- The files stay as they are, and the thread owed no generation. -/
theorem invariant_same {c : StoreCall} (invariant : Invariant store notes)
    (executor : needsExecutor c = true → (notes i).holding = true)
    (same : SameFiles store (answer c store).2)
    (kept : (countRuns.note (notes i) store c).phase ≠ .changed → (notes i).phase ≠ .changed)
    (law : (countRuns.note (notes i) store c).holding = true →
      Law store (Clean notes) (countRuns.note (notes i) store c).phase) :
    Invariant (answer c store).2
      (Function.update notes i (countRuns.note (notes i) store c)) := by
  have wasClean : Clean (Function.update notes i (countRuns.note (notes i) store c)) →
      Clean notes := clean_of_update kept
  have onward := same.onward wasClean
  exact invariant_of_onward invariant executor onward fun holding => (law holding).onward onward

theorem invariant_dropFile (invariant : Invariant store notes) {name : String}
    {deletes changed : Bool} (allowed : countRuns.allowed (notes i) (.dropFile name deletes changed))
    (counted : Counted store notes i (.dropFile name deletes changed)) :
    Invariant (answer (.dropFile name deletes changed) store).2
      (Function.update notes i
        (countRuns.note (notes i) store (.dropFile name deletes changed))) := by
  obtain ⟨executor, _, untouched⟩ := allowed
  obtain ⟨rfl, none⟩ := Bool.or_eq_false_iff.mp counted
  have same : (remove name deletes store).2 = store := by
    unfold remove
    split_ifs with absent isDeleted
    · rfl
    · rw [isDeleted, Bool.true_and, Option.isSome_eq_false_iff, Option.isNone_iff_eq_none] at none
      exact absurd none absent
    · rfl
  apply invariant_same invariant executor
  · exact ⟨congrArg CacheStore.files same, congrArg CacheStore.statisticsMutationGeneration same,
      congrArg CacheStore.publishedStatisticsGeneration same,
      congrArg CacheStore.cachedStatistics same⟩
  · exact fun _ => untouched rfl
  · exact fun _ => trivial

theorem invariant_raiseMutation (invariant : Invariant store notes)
    (allowed : countRuns.allowed (notes i) .raiseMutation) :
    Invariant (answer .raiseMutation store).2
      (Function.update notes i (countRuns.note (notes i) store .raiseMutation)) := by
  have published := invariant.published
  apply invariant_of_onward invariant allowed.1
  · exact onward_of_raised rfl rfl (Nat.lt_succ_self _)
  · intro _
    change store.publishedStatisticsGeneration <
      ((store.statisticsMutationGeneration + 1 : Nat) : Int)
    omega

theorem invariant_getMutation (invariant : Invariant store notes)
    (allowed : countRuns.allowed (notes i) .getMutation) :
    Invariant (answer .getMutation store).2
      (Function.update notes i (countRuns.note (notes i) store .getMutation)) := by
  have note : countRuns.note (notes i) store .getMutation =
      ⟨(notes i).holding, (notes i).phase.after store .getMutation⟩ := rfl
  have started : Law store (Clean notes) (.started store.statisticsMutationGeneration) :=
    ⟨invariant.published, Nat.le_refl _⟩
  refine invariant_same invariant allowed.1 ⟨rfl, rfl, rfl, rfl⟩ ?_ ?_
  · rw [note]
    intro kept changed
    rw [changed] at kept
    exact kept rfl
  · rw [note]
    intro holding
    have law := invariant.law i holding
    cases phase : (notes i).phase with
    | changed => trivial
    | scanning generation names statistics =>
        rw [phase] at law
        simp only [CountPhase.after]
        split_ifs
        · exact law
        · trivial
    | _ => exact started

theorem invariant_listFiles (invariant : Invariant store notes)
    (allowed : countRuns.allowed (notes i) .listFiles) :
    Invariant (answer .listFiles store).2
      (Function.update notes i (countRuns.note (notes i) store .listFiles)) := by
  obtain ⟨executor, _, generation, started⟩ := allowed
  change (notes i).phase = .started generation at started
  have law := invariant.law i (executor rfl)
  have note : countRuns.note (notes i) store .listFiles =
      ⟨(notes i).holding, .scanning generation store.files.keys ⟨0, 0⟩⟩ := by
    simp [countRuns, upkeep, holdingAfter, CountPhase.after, started]
  rw [started] at law
  refine invariant_same invariant executor ⟨rfl, rfl, rfl, rfl⟩ ?_ ?_
  · rw [started]
    intro _ wrong
    cases wrong
  · rw [note]
    exact fun _ => ⟨law.1, law.2, fun _ _ => measured_keys store.files⟩

theorem invariant_isFile (invariant : Invariant store notes) {name : String}
    (allowed : countRuns.allowed (notes i) (.isFile name)) :
    Invariant (answer (.isFile name) store).2
      (Function.update notes i (countRuns.note (notes i) store (.isFile name))) := by
  obtain ⟨executor, _, generation, names, statistics, scanning⟩ := allowed
  change (notes i).phase = .scanning generation (name :: names) statistics at scanning
  have law := invariant.law i (executor rfl)
  have note : countRuns.note (notes i) store (.isFile name) =
      ⟨(notes i).holding, if (store.files.lookup name).isSome then
        .sizing generation name names statistics
      else .scanning generation names statistics⟩ := by
    simp [countRuns, upkeep, holdingAfter, CountPhase.after, scanning]
  rw [scanning] at law
  obtain ⟨published, bound, counted⟩ := law
  refine invariant_same invariant executor ⟨rfl, rfl, rfl, rfl⟩ ?_ ?_
  · rw [scanning]
    intro _ wrong
    cases wrong
  · rw [note]
    intro _
    cases found : store.files.lookup name with
    | none =>
        refine ⟨published, bound, fun isClean current => ?_⟩
        rw [← counted isClean current, measured]
        simp only [found]
    | some length =>
        refine ⟨published, bound, fun isClean current => ⟨?_, counted isClean current⟩⟩
        rw [found]
        intro wrong
        cases wrong

theorem invariant_fileLength (invariant : Invariant store notes) {name : String}
    (allowed : countRuns.allowed (notes i) (.fileLength name)) :
    Invariant (answer (.fileLength name) store).2
      (Function.update notes i (countRuns.note (notes i) store (.fileLength name))) := by
  obtain ⟨executor, _, generation, names, statistics, sizing⟩ := allowed
  change (notes i).phase = .sizing generation name names statistics at sizing
  have law := invariant.law i (executor rfl)
  have note : countRuns.note (notes i) store (.fileLength name) =
      ⟨(notes i).holding, .scanning generation names ⟨statistics.thumbnailCount + 1,
        statistics.totalBytes + (store.files.lookup name).getD 0⟩⟩ := by
    simp [countRuns, upkeep, holdingAfter, CountPhase.after, sizing]
  rw [sizing] at law
  obtain ⟨published, bound, counted⟩ := law
  refine invariant_same invariant executor ⟨rfl, rfl, rfl, rfl⟩ ?_ ?_
  · rw [sizing]
    intro _ wrong
    cases wrong
  · rw [note]
    refine fun _ => ⟨published, bound, fun isClean current => ?_⟩
    obtain ⟨found, sum⟩ := counted isClean current
    obtain ⟨length, found⟩ := Option.ne_none_iff_exists'.mp found
    rw [← sum, measured]
    simp only [found, Option.getD_some]

theorem invariant_take (invariant : Invariant store notes) {index : Nat}
    (allowed : countRuns.allowed (notes i) (.take index)) :
    Invariant (answer (.take index) store).2
      (Function.update notes i (countRuns.note (notes i) store (.take index))) := by
  obtain ⟨executor, _, clean⟩ := allowed
  refine invariant_same invariant executor ?_ (fun _ => clean) fun _ => trivial
  change SameFiles store (take index store).2
  rcases take_cases index store with nothing | ⟨job, _, _, taken⟩
  · rw [nothing]
    exact ⟨rfl, rfl, rfl, rfl⟩
  · rw [taken]
    exact ⟨rfl, rfl, rfl, rfl⟩

/-- A trim counts the files under the generation that it leaves. -/
theorem invariant_trimLocked (invariant : Invariant store notes) {setting : TrimSetting}
    (allowed : countRuns.allowed (notes i) (.trimLocked setting)) :
    Invariant (answer (.trimLocked setting) store).2
      (Function.update notes i (countRuns.note (notes i) store (.trimLocked setting))) := by
  obtain ⟨executor, _, clean⟩ := allowed
  have bound := invariant.published
  obtain ⟨files, generation, result, grows, same⟩ := trimLocked_spec setting store
  have note : countRuns.note (notes i) store (.trimLocked setting) =
      ⟨(notes i).holding, .scanning generation [] (statisticsOf files)⟩ := by
    simp only [countRuns, upkeep, holdingAfter, CountPhase.after, result]
  have state : (answer (.trimLocked setting) store).2 =
      { store with files, statisticsMutationGeneration := generation } := by
    simp only [answer, result]
  apply invariant_of_onward invariant executor
  · rw [note, state]
    refine ⟨rfl, rfl, grows, fun isClean equal => ⟨?_, same equal⟩⟩
    exact clean_of_update (fun _ => clean) isClean
  · rw [note, state]
    refine fun _ => ⟨?_, Nat.le_refl _, fun _ _ => rfl⟩
    change store.publishedStatisticsGeneration ≤ generation
    omega

/-- A clear counts the files under the generation that it raises. -/
theorem invariant_clearLocked (invariant : Invariant store notes) {setting : ClearSetting}
    (allowed : countRuns.allowed (notes i) (.clearLocked setting))
    (counted : Counted store notes i (.clearLocked setting)) :
    Invariant (answer (.clearLocked setting) store).2
      (Function.update notes i (countRuns.note (notes i) store (.clearLocked setting))) := by
  obtain ⟨executor, _, clean⟩ := allowed
  have bound := invariant.published
  cases throws : setting.throws with
  | true =>
      have note : countRuns.note (notes i) store (.clearLocked setting) = notes i := by
        simp [countRuns, upkeep, holdingAfter, CountPhase.after, clearLocked, throws]
      have state : (answer (.clearLocked setting) store).2 =
          { store with files := store.files.keepKeys setting.resists } := by
        simp [answer, clearLocked, throws]
      have resist : store.files.keepKeys setting.resists = store.files := by
        have none : (store.files.keys.any fun name => !setting.resists name) = false := by
          simpa [Counted, leavesUncounted, throws] using counted
        apply AList.ext
        apply List.filter_eq_self.mpr
        intro entry member
        have resists := List.any_eq_false.mp none entry.1 (List.mem_map_of_mem member)
        simpa using resists
      refine invariant_same invariant executor ?_ (by rw [note]; exact id) ?_
      · rw [state]
        exact ⟨resist, rfl, rfl, rfl⟩
      · rw [note]
        exact invariant.law i
  | false =>
      have note : countRuns.note (notes i) store (.clearLocked setting) =
          ⟨(notes i).holding, .scanning (store.statisticsMutationGeneration + 1) []
            (statisticsOf (store.files.keepKeys setting.resists))⟩ := by
        simp [countRuns, upkeep, holdingAfter, CountPhase.after, clearLocked, throws]
      have state : (answer (.clearLocked setting) store).2 =
          { store with
            files := store.files.keepKeys setting.resists
            statisticsMutationGeneration := store.statisticsMutationGeneration + 1 } := by
        simp [answer, clearLocked, throws]
      apply invariant_of_onward invariant executor
      · rw [state]
        exact onward_of_raised rfl rfl (Nat.lt_succ_self _)
      · rw [note, state]
        refine fun _ => ⟨?_, Nat.le_refl _, fun _ _ => rfl⟩
        change store.publishedStatisticsGeneration ≤
          ((store.statisticsMutationGeneration + 1 : Nat) : Int)
        omega

/-- Statistics are half published: they are those of the files if no change came
between. -/
theorem invariant_setCached (invariant : Invariant store notes) {statistics : CacheStatistics}
    (allowed : countRuns.allowed (notes i) (.setCached statistics)) :
    Invariant (answer (.setCached statistics) store).2
      (Function.update notes i (countRuns.note (notes i) store (.setCached statistics))) := by
  obtain ⟨executor, _, generation, scanning⟩ := allowed
  change (notes i).phase = .scanning generation [] statistics at scanning
  have mine := executor rfl
  have exclusive : Exclusive (answer (.setCached statistics) store).2
      (Function.update notes i (countRuns.note (notes i) store (.setCached statistics))) :=
    exclusive_answer invariant.exclusive executor
  have law := invariant.law i mine
  have note : countRuns.note (notes i) store (.setCached statistics) =
      ⟨(notes i).holding, .halfPublished generation statistics⟩ := by
    simp [countRuns, upkeep, holdingAfter, CountPhase.after, scanning]
  rw [scanning] at law
  obtain ⟨published, bound, counted⟩ := law
  have wasClean : Clean (Function.update notes i (countRuns.note (notes i) store
      (.setCached statistics))) → Clean notes :=
    clean_of_update fun _ => by
      rw [scanning]
      intro wrong
      cases wrong
  rw [note] at exclusive wasClean ⊢
  apply invariant.of_alone mine exclusive invariant.published
  · intro isClean current
    have equal : generation = store.statisticsMutationGeneration := by
      change store.publishedStatisticsGeneration = store.statisticsMutationGeneration at current
      omega
    exact congrArg some (counted (wasClean isClean) equal)
  · exact ⟨published, bound, rfl, fun isClean equal => counted (wasClean isClean) equal⟩

theorem invariant_setPublished (invariant : Invariant store notes) {generation : Nat}
    (allowed : countRuns.allowed (notes i) (.setPublished generation)) :
    Invariant (answer (.setPublished generation) store).2
      (Function.update notes i (countRuns.note (notes i) store (.setPublished generation))) := by
  obtain ⟨executor, _, statistics, halfPublished⟩ := allowed
  change (notes i).phase = .halfPublished generation statistics at halfPublished
  have mine := executor rfl
  have law := invariant.law i mine
  rw [halfPublished] at law
  obtain ⟨published, bound, cached, counted⟩ := law
  have wasClean : Clean (Function.update notes i (countRuns.note (notes i) store
      (.setPublished generation))) → Clean notes :=
    clean_of_update fun _ => by
      rw [halfPublished]
      intro wrong
      cases wrong
  apply invariant.of_alone mine (exclusive_answer invariant.exclusive executor)
  · exact Int.ofNat_le.mpr bound
  · intro isClean current
    have equal : generation = store.statisticsMutationGeneration := Int.ofNat_inj.mp current
    exact cached.trans (congrArg some (counted (wasClean isClean) equal))
  · trivial

/-- The statistics of an emptied store are forgotten; they are out of date. -/
theorem invariant_forget (invariant : Invariant store notes) {c : StoreCall}
    (isForget : c = .forgetCached ∨ c = .forgetPublished)
    (allowed : countRuns.allowed (notes i) c) :
    Invariant (answer c store).2
      (Function.update notes i (countRuns.note (notes i) store c)) := by
  obtain ⟨executor, _, raised⟩ := allowed
  have raised : (notes i).phase = .raised := by
    rcases isForget with rfl | rfl
    · exact raised
    · exact raised
  have mine : (notes i).holding = true := by
    rcases isForget with rfl | rfl
    · exact executor rfl
    · exact executor rfl
  have law := invariant.law i mine
  rw [raised] at law
  have outdated : (answer c store).2.publishedStatisticsGeneration <
      (answer c store).2.statisticsMutationGeneration := by
    rcases isForget with rfl | rfl
    · exact law
    · change (-1 : Int) < store.statisticsMutationGeneration
      omega
  have phase : (countRuns.note (notes i) store c).phase = .raised := by
    rcases isForget with rfl | rfl
    · exact raised
    · exact raised
  apply invariant.of_alone mine (exclusive_answer invariant.exclusive executor)
  · exact Int.le_of_lt outdated
  · exact fun _ current => absurd current (Int.ne_of_lt outdated)
  · change Law _ _ (countRuns.note (notes i) store c).phase
    rw [phase]
    exact outdated

/-- What a call keeps. -/
theorem invariant_answer (invariant : Invariant store notes) {c : StoreCall}
    (allowed : countRuns.allowed (notes i) c) (counted : Counted store notes i c) :
    Invariant (answer c store).2
      (Function.update notes i (countRuns.note (notes i) store c)) := by
  cases quiet : isCountCall c with
  | false => exact invariant_quiet invariant quiet allowed counted
  | true =>
      cases c with
      | removeFile name deletes => exact invariant_removeFile invariant allowed
      | putFile name length changed =>
          exact invariant_changed invariant allowed.1 rfl rfl rfl rfl
      | wipeFiles => exact invariant_changed invariant allowed.1 rfl rfl rfl rfl
      | dropFile name deletes changed => exact invariant_dropFile invariant allowed counted
      | take index => exact invariant_take invariant allowed
      | finish =>
          exact invariant_same invariant allowed.1 ⟨rfl, rfl, rfl, rfl⟩
            (fun _ => allowed.2.2) fun _ => trivial
      | raiseMutation => exact invariant_raiseMutation invariant allowed
      | getMutation => exact invariant_getMutation invariant allowed
      | listFiles => exact invariant_listFiles invariant allowed
      | isFile name => exact invariant_isFile invariant allowed
      | fileLength name => exact invariant_fileLength invariant allowed
      | trimLocked setting => exact invariant_trimLocked invariant allowed
      | clearLocked setting => exact invariant_clearLocked invariant allowed counted
      | setCached statistics => exact invariant_setCached invariant allowed
      | setPublished generation => exact invariant_setPublished invariant allowed
      | forgetCached => exact invariant_forget invariant (Or.inl rfl) allowed
      | forgetPublished => exact invariant_forget invariant (Or.inr rfl) allowed
      | _ => cases quiet

end

/-! ## The runs -/

section

variable {ι : Type} [DecidableEq ι]

end

end Accuracy

end RoundSync.Thumbnails.Maintenance
