import RoundSync.Data.Worklist
import RoundSync.Text.JavaString

/-!
# The pre-generation of thumbnails

`ThumbnailPreGenerationService` goes through the folders below a root with a queue of
pending paths and a set of visited ones.  The thread can be interrupted and thumbnails
can be disabled at any time; a run that meets neither lists every folder that can be
reached once, and its counters add up.
-/

namespace RoundSync.Services.ThumbnailPreGeneration

open RoundSync.Text
open RoundSync.Data

inductive PreGenerationResult where
  | generated
  | alreadyCached
  | recentFailure
  | disabled
  | unsupported
  | failed
  deriving DecidableEq

/-- What the service reads of a `FileItem`, besides the test of the repository. -/
structure FileItem where
  path : Option JavaString
  name : JavaString
  isDir : Bool
  deriving DecidableEq

/-- The answers of rclone, of the repository for one cache type and of the thread, where
they can change by the number of the question. -/
structure Surroundings where
  getDirectoryContent : JavaString → Option (List FileItem)
  matchesType : FileItem → Bool
  preGenerateThumbnail : Nat → FileItem → PreGenerationResult
  isEnabled : Nat → Bool
  isInterrupted : Nat → Bool

structure GenerationSummary where
  scannedFolders : Int32 := 0
  failedFolders : Int32 := 0
  generated : Int32 := 0
  alreadyCached : Int32 := 0
  recentFailures : Int32 := 0
  failedFiles : Int32 := 0
  skipped : Int32 := 0
  disabled : Bool := false
  fatalError : Bool := false
  cancelled : Bool := false
  deriving DecidableEq

namespace GenerationSummary

def processedFiles (summary : GenerationSummary) : Int32 :=
  summary.generated + summary.alreadyCached + summary.recentFailures + summary.failedFiles +
    summary.skipped

def count (summary : GenerationSummary) : PreGenerationResult → GenerationSummary
  | .generated => { summary with generated := summary.generated + 1 }
  | .alreadyCached => { summary with alreadyCached := summary.alreadyCached + 1 }
  | .disabled => { summary with disabled := true }
  | .recentFailure => { summary with recentFailures := summary.recentFailures + 1 }
  | .failed => { summary with failedFiles := summary.failedFiles + 1 }
  | .unsupported => { summary with skipped := summary.skipped + 1 }

end GenerationSummary

/-- A run with its calls: the folders that were listed and the items for which a
thumbnail was asked for. -/
structure Run where
  pendingFolders : List JavaString
  visitedFolders : List JavaString := []
  summary : GenerationSummary := {}
  listed : List JavaString := []
  preGenerated : List FileItem := []
  enabledAsked : Nat := 0
  interruptedAsked : Nat := 0

section

variable (env : Surroundings) (rootPath : JavaString)

/-- The loop over the content of a folder. -/
def processItems : List FileItem → Run → Run
  | [], run => run
  | item :: content, run =>
      let interrupted := env.isInterrupted run.interruptedAsked
      let run := { run with interruptedAsked := run.interruptedAsked + 1 }
      if interrupted then { run with summary := { run.summary with cancelled := true } }
      else if item.isDir then
        match item.path with
        | some childPath =>
            if childPath ∉ run.visitedFolders then
              processItems content
                { run with pendingFolders := run.pendingFolders ++ [childPath] }
            else processItems content run
        | none => processItems content run
      else if !env.matchesType item then processItems content run
      else
        let result := env.preGenerateThumbnail run.preGenerated.length item
        let run :=
          { run with
            preGenerated := run.preGenerated ++ [item]
            summary := run.summary.count result }
        if run.summary.disabled then run else processItems content run

/-- One folder that was not visited before; the flag is set where the loop is left. -/
def scanFolder (folderPath : JavaString) (run : Run) : Run × Bool :=
  let run := { run with listed := run.listed ++ [folderPath] }
  match env.getDirectoryContent folderPath with
  | none =>
      let summary : GenerationSummary :=
        { run.summary with failedFolders := run.summary.failedFolders + 1 }
      if summary.scannedFolders = 0 ∧ folderPath = rootPath then
        ({ run with summary := { summary with fatalError := true } }, true)
      else ({ run with summary }, false)
  | some content =>
      let run := processItems env content
        { run with
          summary := { run.summary with scannedFolders := run.summary.scannedFolders + 1 } }
      (run, run.summary.disabled || run.summary.cancelled)

/-- One turn of the loop over the pending folders; the flag is set where it is left. -/
def turn (folderPath : JavaString) (pendingFolders : List JavaString) (run : Run) : Run × Bool :=
  let interrupted := env.isInterrupted run.interruptedAsked
  let run := { run with interruptedAsked := run.interruptedAsked + 1 }
  if interrupted then (run, true)
  else
    let enabled := env.isEnabled run.enabledAsked
    let run := { run with enabledAsked := run.enabledAsked + 1 }
    if !enabled then ({ run with summary := { run.summary with disabled := true } }, true)
    else if folderPath ∈ run.visitedFolders then ({ run with pendingFolders }, false)
    else
      scanFolder env rootPath folderPath
        { run with pendingFolders, visitedFolders := folderPath :: run.visitedFolders }

/-- The loop; nothing where the fuel does not suffice. -/
def loop : Nat → Run → Option Run
  | 0, _ => none
  | fuel + 1, run =>
      match run.pendingFolders with
      | [] => some run
      | folderPath :: pendingFolders =>
          let (run, stopped) := turn env rootPath folderPath pendingFolders run
          if stopped then some run else loop fuel run

def generateRecursively (fuel : Nat) : Option Run :=
  let run : Run := { pendingFolders := [rootPath], enabledAsked := 1 }
  if !env.isEnabled 0 then
    some { run with pendingFolders := [], summary := { run.summary with disabled := true } }
  else loop env rootPath fuel run

end

/-! ## The graph of the folders -/

/-- The paths of the folders in a listing. -/
def folders (content : List FileItem) : List JavaString :=
  content.filterMap fun item => if item.isDir then item.path else none

/-- The files of a listing for which thumbnails are made. -/
def matching (env : Surroundings) (content : List FileItem) : List FileItem :=
  content.filter fun item => !item.isDir && env.matchesType item

/-- What a folder leads to, if it can be listed. -/
def children (env : Surroundings) (folderPath : JavaString) : List JavaString :=
  folders ((env.getDirectoryContent folderPath).getD [])

/-- The files of a folder, if it can be listed. -/
def files (env : Surroundings) (folderPath : JavaString) : List FileItem :=
  matching env ((env.getDirectoryContent folderPath).getD [])

def Reachable (env : Surroundings) (rootPath : JavaString) : JavaString → Prop :=
  Reaches (children env) rootPath

/-- Neither cancelled nor disabled. -/
structure Undisturbed (env : Surroundings) : Prop where
  enabled : ∀ n, env.isEnabled n = true
  uninterrupted : ∀ n, env.isInterrupted n = false
  generates : ∀ n item, env.preGenerateThumbnail n item ≠ .disabled

/-- Every folder that can be reached is listed once, every file of them that matches is
handed over once, and the counters tell their numbers. -/
structure Complete (env : Surroundings) (rootPath : JavaString) (run : Run) : Prop where
  once : run.listed.Nodup
  all : ∀ folderPath, folderPath ∈ run.listed ↔ Reachable env rootPath folderPath
  files : run.preGenerated = run.listed.flatMap (files env)
  processedFiles : run.summary.processedFiles = Int32.ofNat run.preGenerated.length
  folders : run.summary.scannedFolders + run.summary.failedFolders = Int32.ofNat run.listed.length

/-- Numbers that an `int` can hold are the counters themselves. -/
theorem Complete.toInt_processedFiles {env : Surroundings} {rootPath : JavaString} {run : Run}
    (complete : Complete env rootPath run) (few : run.preGenerated.length < 2 ^ 31) :
    run.summary.processedFiles.toInt = run.preGenerated.length := by
  rw [complete.processedFiles, Int32.toInt_ofNat_of_lt few]

/-! ## The content of a folder -/

section

variable {env : Surroundings} {rootPath : JavaString}

theorem folders_cons (item : FileItem) (content : List FileItem) :
    folders (item :: content) =
      (if item.isDir then item.path.toList else []) ++ folders content := by
  obtain ⟨path, name, isDir⟩ := item
  cases isDir with
  | false => rfl
  | true =>
      cases path with
      | none => rfl
      | some path => rfl

/-- Whatever ends the loop, it has appended some of the folders. -/
theorem processItems_appends (content : List FileItem) (run : Run) :
    (processItems env content run).visitedFolders = run.visitedFolders ∧
      ∃ pushed, (processItems env content run).pendingFolders = run.pendingFolders ++ pushed ∧
        pushed.Sublist (folders content) := by
  induction content generalizing run with
  | nil => exact ⟨rfl, [], (List.append_nil _).symm, List.Sublist.refl _⟩
  | cons item content inductionHypothesis =>
      have later : ∀ next : Run, next.visitedFolders = run.visitedFolders →
          next.pendingFolders = run.pendingFolders →
          (processItems env content next).visitedFolders = run.visitedFolders ∧
            ∃ pushed, (processItems env content next).pendingFolders =
              run.pendingFolders ++ pushed ∧ pushed.Sublist (folders (item :: content)) := by
        intro next sameVisited samePending
        obtain ⟨visited, pushed, pending, sublist⟩ := inductionHypothesis next
        refine ⟨visited.trans sameVisited, pushed, by rw [pending, samePending], ?_⟩
        rw [folders_cons]
        exact sublist.trans (List.sublist_append_right _ _)
      have nothing : ∃ pushed, run.pendingFolders = run.pendingFolders ++ pushed ∧
          pushed.Sublist (folders (item :: content)) :=
        ⟨[], (List.append_nil _).symm, List.nil_sublist _⟩
      rw [processItems]
      dsimp only
      split
      · exact ⟨rfl, nothing⟩
      · split
        · rename_i isDir
          split
          · rename_i childPath isPath
            split
            · obtain ⟨visited, pushed, pending, sublist⟩ := inductionHypothesis
                { run with
                  interruptedAsked := run.interruptedAsked + 1
                  pendingFolders := run.pendingFolders ++ [childPath] }
              refine ⟨visited, childPath :: pushed, ?_, ?_⟩
              · rw [pending, List.append_assoc]
                rfl
              · rw [folders_cons, if_pos isDir, isPath]
                exact sublist.cons_cons childPath
            · exact later _ rfl rfl
          · exact later _ rfl rfl
        · split
          · exact later _ rfl rfl
          · split
            · exact ⟨rfl, nothing⟩
            · exact later _ rfl rfl

/-- What the loop over a listing does where nothing disturbs it. -/
structure Processed (env : Surroundings) (content : List FileItem) (run next : Run) : Prop where
  pending : next.pendingFolders =
    run.pendingFolders ++ (folders content).filter (· ∉ run.visitedFolders)
  visited : next.visitedFolders = run.visitedFolders
  listed : next.listed = run.listed
  preGenerated : next.preGenerated = run.preGenerated ++ matching env content
  processedFiles : next.summary.processedFiles =
    run.summary.processedFiles + Int32.ofNat (matching env content).length
  scannedFolders : next.summary.scannedFolders = run.summary.scannedFolders
  failedFolders : next.summary.failedFolders = run.summary.failedFolders
  disabled : next.summary.disabled = run.summary.disabled
  cancelled : next.summary.cancelled = run.summary.cancelled

/-- A result other than `disabled` is counted once, as a file. -/
theorem count_file (summary : GenerationSummary) {result : PreGenerationResult}
    (file : result ≠ .disabled) :
    (summary.count result).processedFiles = summary.processedFiles + 1 ∧
      (summary.count result).scannedFolders = summary.scannedFolders ∧
      (summary.count result).failedFolders = summary.failedFolders ∧
      (summary.count result).disabled = summary.disabled ∧
      (summary.count result).cancelled = summary.cancelled := by
  refine ⟨?_, ?_⟩
  · unfold GenerationSummary.processedFiles
    cases result with
    | disabled => exact absurd rfl file
    | generated => simp only [GenerationSummary.count]; grind
    | alreadyCached => simp only [GenerationSummary.count]; grind
    | recentFailure => simp only [GenerationSummary.count]; grind
    | failed => simp only [GenerationSummary.count]; grind
    | unsupported => simp only [GenerationSummary.count]; grind
  · cases result with
    | disabled => exact absurd rfl file
    | generated => exact ⟨rfl, rfl, rfl, rfl⟩
    | alreadyCached => exact ⟨rfl, rfl, rfl, rfl⟩
    | recentFailure => exact ⟨rfl, rfl, rfl, rfl⟩
    | failed => exact ⟨rfl, rfl, rfl, rfl⟩
    | unsupported => exact ⟨rfl, rfl, rfl, rfl⟩

/-- An item that is neither a new folder nor a matching file is passed over; the question
whether the thread is interrupted does not matter. -/
theorem Processed.pass {item : FileItem} {content : List FileItem} {run next : Run} {asked : Nat}
    (rest : Processed env content { run with interruptedAsked := asked } next)
    (noFolder : (folders (item :: content)).filter (· ∉ run.visitedFolders) =
      (folders content).filter (· ∉ run.visitedFolders))
    (noMatch : matching env (item :: content) = matching env content) :
    Processed env (item :: content) run next where
  pending := by rw [noFolder]; exact rest.pending
  visited := rest.visited
  listed := rest.listed
  preGenerated := by rw [noMatch]; exact rest.preGenerated
  processedFiles := by rw [noMatch]; exact rest.processedFiles
  scannedFolders := rest.scannedFolders
  failedFolders := rest.failedFolders
  disabled := rest.disabled
  cancelled := rest.cancelled

theorem processItems_undisturbed (undisturbed : Undisturbed env) (content : List FileItem)
    (run : Run) (enabled : run.summary.disabled = false) :
    Processed env content run (processItems env content run) := by
  induction content generalizing run with
  | nil =>
      exact ⟨(List.append_nil _).symm, rfl, rfl, (List.append_nil _).symm, (Int32.add_zero _).symm,
        rfl, rfl, rfl, rfl⟩
  | cons item content inductionHypothesis =>
      have passed := inductionHypothesis
        { run with interruptedAsked := run.interruptedAsked + 1 } enabled
      rw [processItems]
      dsimp only
      rw [undisturbed.uninterrupted, if_neg Bool.false_ne_true]
      split
      · rename_i isDir
        have noMatch : matching env (item :: content) = matching env content := by
          rw [matching, List.filter_cons_of_neg (by simp [isDir])]
          rfl
        split
        · rename_i childPath isPath
          have oneFolder : folders (item :: content) = childPath :: folders content := by
            rw [folders_cons, if_pos isDir, isPath]
            rfl
          split
          · rename_i fresh
            have pushed := inductionHypothesis
              { run with
                interruptedAsked := run.interruptedAsked + 1
                pendingFolders := run.pendingFolders ++ [childPath] } enabled
            refine ⟨?_, pushed.visited, pushed.listed, by rw [noMatch]; exact pushed.preGenerated,
              by rw [noMatch]; exact pushed.processedFiles, pushed.scannedFolders,
              pushed.failedFolders, pushed.disabled, pushed.cancelled⟩
            rw [pushed.pending, oneFolder, List.filter_cons_of_pos (by simpa using fresh),
              List.append_assoc]
            rfl
          · rename_i old
            apply passed.pass _ noMatch
            rw [oneFolder, List.filter_cons_of_neg (by simpa using old)]
        · rename_i isPath
          apply passed.pass _ noMatch
          rw [folders_cons, if_pos isDir, isPath]
          rfl
      · rename_i isFile
        have noFolder : folders (item :: content) = folders content := by
          rw [folders_cons, if_neg isFile]
          rfl
        split
        · rename_i other
          apply passed.pass (by rw [noFolder])
          rw [matching, List.filter_cons_of_neg (by simpa [isFile] using other)]
          rfl
        · rename_i isMatch
          have oneMatch : matching env (item :: content) = item :: matching env content := by
            rw [matching, List.filter_cons_of_pos (by simpa [isFile] using isMatch)]
            rfl
          obtain ⟨one, scannedSame, failedSame, disabledSame, cancelledSame⟩ :=
            count_file run.summary (undisturbed.generates run.preGenerated.length item)
          rw [if_neg (by rw [disabledSame, enabled]; exact Bool.false_ne_true)]
          have counted := inductionHypothesis
            { run with
              interruptedAsked := run.interruptedAsked + 1
              preGenerated := run.preGenerated ++ [item]
              summary := run.summary.count
                (env.preGenerateThumbnail run.preGenerated.length item) }
            (disabledSame.trans enabled)
          refine ⟨by rw [noFolder]; exact counted.pending, counted.visited, counted.listed, ?_, ?_,
            counted.scannedFolders.trans scannedSame, counted.failedFolders.trans failedSame,
            counted.disabled.trans disabledSame, counted.cancelled.trans cancelledSame⟩
          · rw [counted.preGenerated, oneMatch, List.append_assoc]
            rfl
          · rw [counted.processedFiles, oneMatch, one, List.length_cons, Int32.ofNat_add]
            grind

/-! ## One folder -/

/-- The part of a run that is searched. -/
def Run.worklist (run : Run) : Worklist JavaString :=
  ⟨run.pendingFolders, run.visitedFolders⟩

/-- What holds before every turn of the loop where nothing disturbs it. -/
structure Going (env : Surroundings) (rootPath : JavaString) (run : Run) : Prop where
  searches : run.worklist.Searches (children env) rootPath
  listed : run.listed = run.visitedFolders.reverse
  begun : rootPath ∈ run.visitedFolders ∨ run.visitedFolders = [] ∧ run.pendingFolders = [rootPath]
  files : run.preGenerated = run.listed.flatMap (files env)
  processedFiles : run.summary.processedFiles = Int32.ofNat run.preGenerated.length
  folders : run.summary.scannedFolders + run.summary.failedFolders = Int32.ofNat run.listed.length
  enabled : run.summary.disabled = false
  uncancelled : run.summary.cancelled = false

theorem Going.complete {run : Run} (going : Going env rootPath run)
    (done : run.pendingFolders = []) : Complete env rootPath run where
  once := by
    rw [going.listed]
    exact List.nodup_reverse.mpr going.searches.once
  all := by
    intro folderPath
    rw [going.listed, List.mem_reverse]
    exact going.searches.complete done folderPath
  files := going.files
  processedFiles := going.processedFiles
  folders := going.folders

variable {folderPath : JavaString} {pendingFolders : List JavaString} {run : Run}

/-- The run in which a folder is scanned. -/
def Run.visit (run : Run) (folderPath : JavaString) (pendingFolders : List JavaString)
    (interruptedAsked enabledAsked : Nat) : Run :=
  { run with
    pendingFolders := pendingFolders
    visitedFolders := folderPath :: run.visitedFolders
    interruptedAsked := interruptedAsked
    enabledAsked := enabledAsked }

/-- The run before the content of a folder is gone through. -/
def Run.scan (run : Run) (folderPath : JavaString) : Run :=
  { run with
    listed := run.listed ++ [folderPath]
    summary := { run.summary with scannedFolders := run.summary.scannedFolders + 1 } }

theorem scanFolder_of_listed {listing : List FileItem} {run next : Run}
    (content : env.getDirectoryContent folderPath = some listing)
    (processed : processItems env listing (run.scan folderPath) = next) :
    scanFolder env rootPath folderPath run =
      (next, next.summary.disabled || next.summary.cancelled) := by
  rw [scanFolder, content, ← processed]
  rfl

/-- A folder that is scanned makes some of its children pending. -/
theorem scanFolder_appends (run : Run) :
    (scanFolder env rootPath folderPath run).1.visitedFolders = run.visitedFolders ∧
      ∃ pushed, (scanFolder env rootPath folderPath run).1.pendingFolders =
        run.pendingFolders ++ pushed ∧ pushed.Sublist (children env folderPath) := by
  unfold scanFolder children
  cases env.getDirectoryContent folderPath with
  | none =>
      dsimp only
      split
      · exact ⟨rfl, [], (List.append_nil _).symm, List.nil_sublist _⟩
      · exact ⟨rfl, [], (List.append_nil _).symm, List.nil_sublist _⟩
  | some content => exact processItems_appends content _

/-- A scan leaves the loop only where nothing else is pending. -/
theorem Going.scan (going : Going env rootPath run) (undisturbed : Undisturbed env)
    (isFirst : run.pendingFolders = folderPath :: pendingFolders)
    (fresh : folderPath ∉ run.visitedFolders) (interruptedAsked enabledAsked : Nat) :
    Going env rootPath (scanFolder env rootPath folderPath
        (run.visit folderPath pendingFolders interruptedAsked enabledAsked)).1 ∧
      ((scanFolder env rootPath folderPath
        (run.visit folderPath pendingFolders interruptedAsked enabledAsked)).2 = true →
          (scanFolder env rootPath folderPath
            (run.visit folderPath pendingFolders interruptedAsked enabledAsked)).1.pendingFolders =
              []) := by
  have searches : Worklist.Searches (children env) rootPath
      ⟨folderPath :: pendingFolders, run.visitedFolders⟩ := by
    rw [← isFirst]
    exact going.searches
  have begun : rootPath ∈ folderPath :: run.visitedFolders := by
    rcases going.begun with mem | ⟨_, pending⟩
    · exact List.mem_cons_of_mem _ mem
    · rw [isFirst] at pending
      cases pending
      exact List.mem_cons_self
  have oneMore : (folderPath :: run.visitedFolders).reverse = run.listed ++ [folderPath] := by
    rw [List.reverse_cons, going.listed]
  cases content : env.getDirectoryContent folderPath with
  | none =>
      have noChild : children env folderPath = [] := by
        rw [children, content]
        rfl
      have noFile : ThumbnailPreGeneration.files env folderPath = [] := by
        rw [ThumbnailPreGeneration.files, content]
        rfl
      have visited : Worklist.Searches (children env) rootPath
          ⟨pendingFolders ++ [], folderPath :: run.visitedFolders⟩ :=
        searches.visit fresh nofun (by rw [noChild]; exact nofun)
      rw [List.append_nil] at visited
      have goes : ∀ fatalError : Bool, Going env rootPath
          { run.visit folderPath pendingFolders interruptedAsked enabledAsked with
            listed := run.listed ++ [folderPath]
            summary :=
              { run.summary with
                failedFolders := run.summary.failedFolders + 1
                fatalError := fatalError } } := by
        intro fatalError
        refine ⟨visited, oneMore.symm, .inl begun, ?_, going.processedFiles, ?_, going.enabled,
          going.uncancelled⟩
        · rw [List.flatMap_append, List.flatMap_singleton, noFile, List.append_nil]
          exact going.files
        · have counted := going.folders
          rw [List.length_append, Int32.ofNat_add, ← counted]
          simp only [List.length_singleton]
          grind
      rw [scanFolder, content]
      dsimp only
      split
      · rename_i isRoot
        refine ⟨goes true, fun _ => ?_⟩
        rcases going.begun with mem | ⟨_, pending⟩
        · rw [isRoot.2] at fresh
          exact absurd mem fresh
        · rw [isFirst] at pending
          cases pending
          rfl
      · exact ⟨goes run.summary.fatalError, nofun⟩
  | some listing =>
      have isChildren : children env folderPath = ThumbnailPreGeneration.folders listing := by
        rw [children, content]
        rfl
      have isFiles : ThumbnailPreGeneration.files env folderPath = matching env listing := by
        rw [ThumbnailPreGeneration.files, content]
        rfl
      have processed := processItems_undisturbed undisturbed listing
        ((run.visit folderPath pendingFolders interruptedAsked enabledAsked).scan folderPath)
        going.enabled
      have visited : Worklist.Searches (children env) rootPath
          ⟨pendingFolders ++ (ThumbnailPreGeneration.folders listing).filter
            (· ∉ folderPath :: run.visitedFolders), folderPath :: run.visitedFolders⟩ := by
        apply searches.visit fresh
        · intro other mem
          rw [isChildren]
          exact (List.mem_filter.mp mem).1
        · intro other mem
          rw [isChildren] at mem
          by_cases old : other ∈ folderPath :: run.visitedFolders
          · exact .inl old
          · exact .inr (List.mem_filter.mpr ⟨mem, decide_eq_true old⟩)
      generalize isNext : processItems env listing _ = next at processed
      rw [scanFolder_of_listed content isNext]
      refine ⟨?_, fun stopped => ?_⟩
      · refine ⟨?_, ?_, ?_, ?_, ?_, ?_, ?_, ?_⟩
        · rw [Run.worklist, processed.pending, processed.visited]
          exact visited
        · rw [processed.listed, processed.visited]
          exact oneMore.symm
        · rw [processed.visited]
          exact .inl begun
        · rw [processed.preGenerated, processed.listed]
          change run.preGenerated ++ matching env listing =
            (run.listed ++ [folderPath]).flatMap (ThumbnailPreGeneration.files env)
          rw [List.flatMap_append, List.flatMap_singleton, isFiles, going.files]
        · have counted := going.processedFiles
          rw [processed.processedFiles, processed.preGenerated, List.length_append,
            Int32.ofNat_add]
          exact congrArg (· + _) counted
        · rw [processed.scannedFolders, processed.failedFolders, processed.listed]
          change run.summary.scannedFolders + 1 + run.summary.failedFolders =
            Int32.ofNat (run.listed ++ [folderPath]).length
          have counted := going.folders
          rw [List.length_append, Int32.ofNat_add, ← counted, List.length_singleton]
          grind
        · exact processed.disabled.trans going.enabled
        · exact processed.cancelled.trans going.uncancelled
      · rw [processed.disabled, processed.cancelled] at stopped
        have never : (run.summary.disabled || run.summary.cancelled) = true := stopped
        rw [going.enabled, going.uncancelled] at never
        cases never

/-! ## The loop -/

/-- A turn that does not leave the loop makes it shorter. -/
theorem turn_work {nodes : Finset JavaString}
    (closed : ∀ node ∈ nodes, ∀ child ∈ children env node, child ∈ nodes)
    (known : folderPath ∈ nodes) (others : ∀ node ∈ pendingFolders, node ∈ nodes)
    (goesOn : (turn env rootPath folderPath pendingFolders run).2 = false) :
    (∀ node ∈ (turn env rootPath folderPath pendingFolders run).1.pendingFolders, node ∈ nodes) ∧
      (turn env rootPath folderPath pendingFolders run).1.worklist.work (children env) nodes <
        Worklist.work (children env) nodes
          ⟨folderPath :: pendingFolders, run.visitedFolders⟩ := by
  unfold turn at goesOn ⊢
  dsimp only at goesOn ⊢
  split at goesOn
  · cases goesOn
  · rename_i uninterrupted
    rw [if_neg uninterrupted]
    split at goesOn
    · cases goesOn
    · rename_i enabled
      rw [if_neg enabled]
      by_cases old : folderPath ∈ run.visitedFolders
      · rw [if_pos old]
        refine ⟨others, ?_⟩
        rw [Worklist.work_drop]
        exact Nat.lt_succ_self _
      · rw [if_neg old]
        obtain ⟨visited, pushed, pending, sublist⟩ := @scanFolder_appends env rootPath folderPath
          (run.visit folderPath pendingFolders (run.interruptedAsked + 1) (run.enabledAsked + 1))
        change (∀ node ∈ (scanFolder env rootPath folderPath (run.visit folderPath pendingFolders
          (run.interruptedAsked + 1) (run.enabledAsked + 1))).1.pendingFolders, node ∈ nodes) ∧
            (scanFolder env rootPath folderPath (run.visit folderPath pendingFolders
              (run.interruptedAsked + 1) (run.enabledAsked + 1))).1.worklist.work
                (children env) nodes < _
        rw [Run.worklist, pending, visited]
        constructor
        · intro node mem
          rcases List.mem_append.mp mem with mem | mem
          · exact others node mem
          · exact closed folderPath known node (sublist.subset mem)
        · exact Worklist.work_visit known old sublist.length_le

/-- What holds before a turn holds after it, and the loop is left only at its end. -/
theorem Going.turn (going : Going env rootPath run) (undisturbed : Undisturbed env)
    (isFirst : run.pendingFolders = folderPath :: pendingFolders) :
    Going env rootPath (turn env rootPath folderPath pendingFolders run).1 ∧
      ((turn env rootPath folderPath pendingFolders run).2 = true →
        (turn env rootPath folderPath pendingFolders run).1.pendingFolders = []) := by
  unfold ThumbnailPreGeneration.turn
  dsimp only
  rw [undisturbed.uninterrupted, if_neg Bool.false_ne_true, undisturbed.enabled,
    if_neg (by decide)]
  by_cases old : folderPath ∈ run.visitedFolders
  · rw [if_pos old]
    refine ⟨⟨?_, going.listed, .inl ?_, going.files, going.processedFiles, going.folders,
      going.enabled, going.uncancelled⟩, nofun⟩
    · apply Worklist.Searches.drop _ old
      rw [← isFirst]
      exact going.searches
    · rcases going.begun with mem | ⟨none, _⟩
      · exact mem
      · rw [none] at old
        cases old
  · rw [if_neg old]
    exact going.scan undisturbed isFirst old (run.interruptedAsked + 1) (run.enabledAsked + 1)

/-- The loop ends, and what it has done is complete where nothing disturbs it.  The
induction is on the work that is left among the folders that can be reached. -/
theorem loop_ends {nodes : Finset JavaString}
    (closed : ∀ node ∈ nodes, ∀ child ∈ children env node, child ∈ nodes) (bound : Nat) :
    ∀ run : Run, (∀ node ∈ run.pendingFolders, node ∈ nodes) →
      run.worklist.work (children env) nodes ≤ bound →
      ∃ last, (∀ fuel, bound < fuel → loop env rootPath fuel run = some last) ∧
        (Undisturbed env → Going env rootPath run → Complete env rootPath last) := by
  induction bound using Nat.strong_induction_on with
  | h bound inductionHypothesis =>
      intro run inside few
      cases pending : run.pendingFolders with
      | nil =>
          refine ⟨run, fun fuel enough => ?_, fun _ going => going.complete pending⟩
          obtain ⟨fuel, rfl⟩ : ∃ rest, fuel = rest + 1 := ⟨fuel - 1, by omega⟩
          rw [loop]
          simp only [pending]
      | cons folderPath pendingFolders =>
          have step : ∀ fuel, loop env rootPath (fuel + 1) run =
              if (turn env rootPath folderPath pendingFolders run).2 = true then
                some (turn env rootPath folderPath pendingFolders run).1
              else loop env rootPath fuel (turn env rootPath folderPath pendingFolders run).1 := by
            intro fuel
            rw [loop]
            simp only [pending]
          by_cases stopped : (turn env rootPath folderPath pendingFolders run).2 = true
          · refine ⟨(turn env rootPath folderPath pendingFolders run).1, fun fuel enough => ?_,
              fun undisturbed going => ?_⟩
            · obtain ⟨fuel, rfl⟩ : ∃ rest, fuel = rest + 1 := ⟨fuel - 1, by omega⟩
              rw [step, if_pos stopped]
            · obtain ⟨goes, done⟩ := going.turn undisturbed pending
              exact goes.complete (done stopped)
          · rw [pending, List.forall_mem_cons] at inside
            rw [Run.worklist, pending] at few
            obtain ⟨insideNext, less⟩ := turn_work closed inside.1 inside.2
              (Bool.eq_false_iff.mpr stopped)
            obtain ⟨last, ends, completes⟩ := inductionHypothesis _
              (Nat.lt_of_lt_of_le less few) _ insideNext (Nat.le_refl _)
            refine ⟨last, fun fuel enough => ?_, fun undisturbed going => ?_⟩
            · obtain ⟨fuel, rfl⟩ : ∃ rest, fuel = rest + 1 := ⟨fuel - 1, by omega⟩
              rw [step, if_neg stopped]
              exact ends fuel (by omega)
            · exact completes undisturbed (going.turn undisturbed pending).1

theorem going_start (enabledAsked : Nat) :
    Going env rootPath { pendingFolders := [rootPath], enabledAsked := enabledAsked } where
  searches := Worklist.searches_start
  listed := rfl
  begun := .inr ⟨rfl, rfl⟩
  files := rfl
  processedFiles := rfl
  folders := rfl
  enabled := rfl
  uncancelled := rfl

end

/-- On a finite graph of folders every run ends, and one that is neither cancelled nor
disabled visits every folder that can be reached once. -/
theorem visits_each_folder_once (env : Surroundings) (rootPath : JavaString)
    (finite : {folderPath | Reachable env rootPath folderPath}.Finite) :
    ∃ run bound, (∀ fuel, bound < fuel → generateRecursively env rootPath fuel = some run) ∧
      (Undisturbed env → Complete env rootPath run) := by
  by_cases enabled : env.isEnabled 0 = true
  · have closed : ∀ node ∈ finite.toFinset, ∀ child ∈ children env node,
        child ∈ finite.toFinset := by
      intro node mem child isChild
      rw [Set.Finite.mem_toFinset] at mem ⊢
      exact Relation.ReflTransGen.tail mem isChild
    have inside : ∀ node ∈ [rootPath], node ∈ finite.toFinset := by
      intro node mem
      rw [List.mem_singleton.mp mem, Set.Finite.mem_toFinset]
      exact Relation.ReflTransGen.refl
    obtain ⟨run, ends, completes⟩ := @loop_ends env rootPath finite.toFinset closed _
      { pendingFolders := [rootPath], enabledAsked := 1 } inside (Nat.le_refl _)
    refine ⟨run, Worklist.work (children env) finite.toFinset ⟨[rootPath], []⟩,
      fun fuel enough => ?_, fun undisturbed => completes undisturbed (going_start 1)⟩
    unfold generateRecursively
    rw [enabled]
    exact ends fuel enough
  · refine ⟨{ pendingFolders := [], enabledAsked := 1, summary := { disabled := true } }, 0,
      fun fuel _ => ?_, fun undisturbed => absurd (undisturbed.enabled 0) enabled⟩
    unfold generateRecursively
    rw [Bool.eq_false_iff.mpr enabled]
    rfl

/-! ## Two folders in a cycle and one that cannot be listed -/

def photos : JavaString := ['p']
def trip : JavaString := ['p', '/', 't']
def locked : JavaString := ['p', '/', 'l']

def cyclicListings (folderPath : JavaString) : Option (List FileItem) :=
  if folderPath = photos then
    some [⟨some trip, ['t'], true⟩, ⟨some ['p', '/', 'a'], ['a'], false⟩, ⟨some locked, ['l'], true⟩,
      ⟨some trip, ['t'], true⟩]
  else if folderPath = trip then
    some [⟨some photos, ['p'], true⟩, ⟨some ['p', '/', 't', '/', 'b'], ['b'], false⟩]
  else none

def cyclicFolders : Surroundings where
  getDirectoryContent := cyclicListings
  matchesType _ := true
  preGenerateThumbnail n _ := if n = 0 then .generated else .failed
  isEnabled _ := true
  isInterrupted _ := false

theorem finite_cyclicFolders : {folderPath | Reachable cyclicFolders photos folderPath}.Finite := by
  apply Set.Finite.subset (Set.toFinite {photos, trip, locked})
  intro folderPath reachable
  induction reachable with
  | refl => exact .inl rfl
  | tail _ isChild inductionHypothesis =>
      have closed : ∀ node ∈ [photos, trip, locked], ∀ child ∈ children cyclicFolders node,
          child ∈ [photos, trip, locked] := by
        decide
      simpa using closed _ (by simpa using inductionHypothesis) _ isChild

theorem cyclicFolders_visited :
    ∃ run bound, (∀ fuel, bound < fuel →
        generateRecursively cyclicFolders photos fuel = some run) ∧
      (Undisturbed cyclicFolders → Complete cyclicFolders photos run) :=
  visits_each_folder_once cyclicFolders photos finite_cyclicFolders

end RoundSync.Services.ThumbnailPreGeneration
