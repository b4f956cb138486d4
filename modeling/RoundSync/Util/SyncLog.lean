import RoundSync.Text.JavaString
import RoundSync.Transition.Core

/-!
# Retention of the daily log

Each entry goes to the file of its day, and every append prunes the files whose
modification time is older than the retention period.  Deleting one entry
writes every file anew, so that all files count as modified from then on.
-/

namespace RoundSync.SyncLog

open RoundSync.Text
open RoundSync.Transition

/-- The days of a time zone, numbered; times are in milliseconds. -/
structure Zone where
  day : Int → Int
  monotone : ∀ ⦃first second : Int⦄, first ≤ second → day first ≤ day second

/-- A line of a log file. -/
structure Entry where
  id : JavaString
  timestamp : Int
  title : JavaString
  content : JavaString
  type : Int
  deriving DecidableEq

structure LogFile where
  lines : List Entry
  lastModified : Int
  deriving DecidableEq

/-- The daily files by their day, and the single file of older versions. -/
structure Logs where
  daily : Int → Option LogFile
  legacy : Option LogFile

/-- The days for which a file is kept. -/
def RETENTION_DAYS : Int :=
  31

def cutoff (now : Int) : Int :=
  now - RETENTION_DAYS * 24 * 60 * 60 * 1000

def prune (now : Int) (logs : Logs) : Logs :=
  { logs with
    daily := fun day => (logs.daily day).filter fun file => ¬file.lastModified < cutoff now }

/-- Write an entry at the end of the file of its day, which is made if need be. -/
def write (zone : Zone) (entry : Entry) (timestamp : Int) (logs : Logs) : Logs :=
  { logs with
    daily := fun day =>
      if day = zone.day timestamp then
        match logs.daily day with
        | none => some ⟨[entry], timestamp⟩
        | some file => some ⟨file.lines ++ [entry], timestamp⟩
      else logs.daily day }

/-- `appendLog`, for the entry that `log` makes of its arguments. -/
def append (zone : Zone) (now : Int) (id title content : JavaString) (type : Int) (logs : Logs) :
    Logs :=
  prune now (write zone ⟨id, now, title, content, type⟩ now logs)

/-- Whether a line is the entry to delete: by id, or by time where there is none. -/
def removes (entryId : JavaString) (timestamp : Int) (entry : Entry) : Bool :=
  if entryId ≠ [] then entryId = entry.id else entry.timestamp = timestamp

/-- The file is replaced by a copy without the entry, or deleted if that is empty. -/
def rewriteWithoutEntry (entryId : JavaString) (timestamp now : Int) (source : LogFile) :
    Option LogFile :=
  let lines := source.lines.filter fun entry => !removes entryId timestamp entry
  if lines = [] then none else some ⟨lines, now⟩

def deleteEntry (now : Int) (entryId : JavaString) (timestamp : Int) (logs : Logs) : Logs where
  daily day := (logs.daily day).bind (rewriteWithoutEntry entryId timestamp now)
  legacy := logs.legacy.bind (rewriteWithoutEntry entryId timestamp now)

/-! ## Histories -/

/-- A call and the time at which it runs. -/
inductive Call where
  | append (now : Int) (id title content : JavaString) (type : Int)
  | deleteEntry (now : Int) (entryId : JavaString) (timestamp : Int)
  deriving DecidableEq

namespace Call

def now : Call → Int
  | append now _ _ _ _ => now
  | deleteEntry now _ _ => now

def isDelete : Call → Bool
  | append _ _ _ _ _ => false
  | deleteEntry _ _ _ => true

def apply (zone : Zone) (logs : Logs) : Call → Logs
  | append now id title content type => SyncLog.append zone now id title content type logs
  | deleteEntry now entryId timestamp => SyncLog.deleteEntry now entryId timestamp logs

end Call

/-- No daily file before any call; the file of older versions may be there. -/
def fresh (legacy : Option LogFile) : Logs where
  daily _ := none
  legacy := legacy

def after (zone : Zone) (legacy : Option LogFile) (calls : List Call) : Logs :=
  run (Call.apply zone) (fresh legacy) calls

@[simp]
theorem after_append_singleton (zone : Zone) (legacy : Option LogFile) (calls : List Call)
    (call : Call) :
    after zone legacy (calls ++ [call]) = call.apply zone (after zone legacy calls) := by
  simp [after, run_append]

/-- After each append only entries of recent days are left in the daily files. -/
def RetentionLaw (zone : Zone) (legacy : Option LogFile) (calls : List Call) : Prop :=
  ∀ before call, before ++ [call] <+: calls → call.isDelete = false →
    ∀ day file, (after zone legacy (before ++ [call])).daily day = some file →
      ∀ entry ∈ file.lines, zone.day (cutoff call.now) ≤ zone.day entry.timestamp

/-- Where an append finds a file of an older day, no entry has been deleted
within the retention period. -/
def NothingProlonged (zone : Zone) (legacy : Option LogFile) (calls : List Call) : Prop :=
  ∀ before call, before ++ [call] <+: calls → call.isDelete = false →
    ∀ day file, (after zone legacy before).daily day = some file →
      day < zone.day (cutoff call.now) →
      ∀ deletion ∈ before, deletion.isDelete = true → deletion.now < cutoff call.now

/-! ## What a history leaves in a file -/

/-- A daily file after some calls: it holds entries of its day only, it was last
modified on that day or by a deletion, and no deletion is more recent. -/
structure Kept (zone : Zone) (calls : List Call) (day : Int) (file : LogFile) : Prop where
  nonempty : file.lines ≠ []
  lines : ∀ entry ∈ file.lines, zone.day entry.timestamp = day
  modified : zone.day file.lastModified = day ∨
    ∃ deletion ∈ calls, deletion.isDelete = true ∧ deletion.now = file.lastModified
  deletions : ∀ deletion ∈ calls, deletion.isDelete = true → deletion.now ≤ file.lastModified

section Steps

variable {zone : Zone} {legacy : Option LogFile} {calls : List Call} {call : Call} {day : Int}
  {file : LogFile}

/-- A call that is no deletion leaves the account of an untouched file as it is. -/
theorem Kept.append_call (kept : Kept zone calls day file) (append : call.isDelete = false) :
    Kept zone (calls ++ [call]) day file := by
  refine ⟨kept.nonempty, kept.lines, ?_, ?_⟩
  · rcases kept.modified with sameDay | ⟨deletion, member, isDelete, equal⟩
    · exact Or.inl sameDay
    · exact Or.inr ⟨deletion, List.mem_append_left _ member, isDelete, equal⟩
  · intro deletion member isDelete
    rcases List.mem_append.mp member with earlier | last
    · exact kept.deletions deletion earlier isDelete
    · rw [List.mem_singleton.mp last, append] at isDelete
      cases isDelete

/-- One call keeps the account, if it is not earlier than the calls before it. -/
theorem kept_apply {logs : Logs}
    (kept : ∀ day file, logs.daily day = some file → Kept zone calls day file)
    (later : ∀ earlier ∈ calls, earlier.now ≤ call.now)
    (found : (call.apply zone logs).daily day = some file) :
    Kept zone (calls ++ [call]) day file := by
  cases call with
  | append now id title content type =>
      obtain ⟨written, _⟩ := Option.filter_eq_some_iff.mp found
      simp only [write] at written
      split_ifs at written with today
      · -- the file of the day itself, modified now
        have noDeletion : ∀ deletion ∈ calls ++ [Call.append now id title content type],
            deletion.isDelete = true → deletion.now ≤ now := by
          intro deletion member isDelete
          rcases List.mem_append.mp member with earlier | last
          · exact later deletion earlier
          · rw [List.mem_singleton.mp last]
            exact le_refl now
        cases old : logs.daily day with
        | none =>
            rw [old] at written
            cases written
            refine ⟨List.cons_ne_nil _ _, ?_, Or.inl today.symm, noDeletion⟩
            intro entry member
            rw [List.mem_singleton.mp member]
            exact today.symm
        | some source =>
            rw [old] at written
            cases written
            refine ⟨?_, ?_, Or.inl today.symm, noDeletion⟩
            · simp
            · intro entry member
              rcases List.mem_append.mp member with earlier | last
              · exact (kept day source old).lines entry earlier
              · rw [List.mem_singleton.mp last]
                exact today.symm
      · exact (kept day file written).append_call rfl
  | deleteEntry now entryId timestamp =>
      obtain ⟨source, old, rewritten⟩ := Option.bind_eq_some_iff.mp found
      simp only [rewriteWithoutEntry] at rewritten
      split_ifs at rewritten with emptied
      cases rewritten
      refine ⟨emptied, ?_, Or.inr ?_, ?_⟩
      · intro entry member
        exact (kept day source old).lines entry (List.mem_filter.mp member).1
      · exact ⟨_, List.mem_append_right _ (List.mem_singleton_self _), rfl, rfl⟩
      · intro deletion member _
        rcases List.mem_append.mp member with earlier | last
        · exact later deletion earlier
        · rw [List.mem_singleton.mp last]
          exact le_refl now

/-- Every daily file of a history is accounted for. -/
theorem kept_after (ordered : calls.Pairwise fun first second => first.now ≤ second.now) :
    ∀ day file, (after zone legacy calls).daily day = some file → Kept zone calls day file := by
  induction calls using List.reverseRecOn with
  | nil =>
      intro day file found
      cases found
  | append_singleton calls call ih =>
      intro day file found
      obtain ⟨before, _, later⟩ := List.pairwise_append.mp ordered
      rw [after_append_singleton] at found
      exact kept_apply (ih before) (fun earlier member => later earlier member call (by simp)) found

end Steps

/-! ## Retention -/

section Retention

variable {zone : Zone} {legacy : Option LogFile} {calls : List Call}

theorem cutoff_le (now : Int) : cutoff now ≤ now := by
  unfold cutoff RETENTION_DAYS
  omega

/-- A file of an older day outlives an append exactly when it was modified
within the retention period. -/
theorem daily_append_of_older {logs : Logs} {now : Int} {id title content : JavaString}
    {type day : Int} (older : day < zone.day (cutoff now)) :
    (append zone now id title content type logs).daily day =
      (logs.daily day).filter fun file => ¬file.lastModified < cutoff now := by
  have notToday : day ≠ zone.day now := by
    intro today
    have bound := zone.monotone (cutoff_le now)
    rw [← today] at bound
    exact absurd older (not_lt.mpr bound)
  simp only [append, prune, write, if_neg notToday]

/-- One append leaves recent entries only exactly when nothing was prolonged. -/
theorem recent_append_iff {now : Int} {id title content : JavaString} {type : Int}
    (kept : ∀ day file, (after zone legacy calls).daily day = some file →
      Kept zone calls day file)
    (keptNext : ∀ day file, (append zone now id title content type
      (after zone legacy calls)).daily day = some file →
      Kept zone (calls ++ [.append now id title content type]) day file) :
    (∀ day file, (append zone now id title content type (after zone legacy calls)).daily day =
        some file → ∀ entry ∈ file.lines, zone.day (cutoff now) ≤ zone.day entry.timestamp) ↔
      ∀ day file, (after zone legacy calls).daily day = some file → day < zone.day (cutoff now) →
        ∀ deletion ∈ calls, deletion.isDelete = true → deletion.now < cutoff now := by
  constructor
  · intro recent day file found older deletion member isDelete
    by_contra within
    have modified : ¬file.lastModified < cutoff now := by
      have bound := (kept day file found).deletions deletion member isDelete
      exact not_lt.mpr ((not_lt.mp within).trans bound)
    have survives : (append zone now id title content type (after zone legacy calls)).daily day =
        some file := by
      rw [daily_append_of_older older, found]
      exact Option.filter_eq_some_iff.mpr ⟨rfl, by simpa using modified⟩
    obtain ⟨entry, entryMember⟩ := List.exists_mem_of_ne_nil _ (kept day file found).nonempty
    have bound := recent day file survives entry entryMember
    rw [(kept day file found).lines entry entryMember] at bound
    exact absurd older (not_lt.mpr bound)
  · intro unprolonged day file found entry member
    rw [(keptNext day file found).lines entry member]
    by_contra notRecent
    have older := not_le.mp notRecent
    rw [daily_append_of_older older] at found
    obtain ⟨old, modified⟩ := Option.filter_eq_some_iff.mp found
    have within : cutoff now ≤ file.lastModified := by simpa using modified
    rcases (kept day file old).modified with sameDay | ⟨deletion, member, isDelete, equal⟩
    · have bound := zone.monotone within
      rw [sameDay] at bound
      exact notRecent bound
    · have before := unprolonged day file old older deletion member isDelete
      rw [equal] at before
      exact absurd within (not_le.mpr before)

/-- The daily files are retained as promised exactly in the histories in which
no deletion falls into the retention period of an append that finds an older
file. -/
theorem retention_iff
    (ordered : calls.Pairwise fun first second => first.now ≤ second.now) :
    RetentionLaw zone legacy calls ↔ NothingProlonged zone legacy calls := by
  have each : ∀ before call, before ++ [call] <+: calls → call.isDelete = false →
      ((∀ day file, (after zone legacy (before ++ [call])).daily day = some file →
        ∀ entry ∈ file.lines, zone.day (cutoff call.now) ≤ zone.day entry.timestamp) ↔
      ∀ day file, (after zone legacy before).daily day = some file →
        day < zone.day (cutoff call.now) →
        ∀ deletion ∈ before, deletion.isDelete = true → deletion.now < cutoff call.now) := by
    intro before call taken append
    have orderedTaken := ordered.sublist taken.sublist
    have orderedBefore := (List.pairwise_append.mp orderedTaken).1
    cases call with
    | append now id title content type =>
        have keptNext := @kept_after zone legacy _ orderedTaken
        rw [after_append_singleton] at keptNext ⊢
        exact recent_append_iff (kept_after orderedBefore) keptNext
    | deleteEntry now entryId timestamp => cases append
  constructor
  · intro law before call taken append
    exact (each before call taken append).mp (law before call taken append)
  · intro unprolonged before call taken append
    exact (each before call taken append).mpr (unprolonged before call taken append)

end Retention

/-! ## A deletion in between -/

/-- Coordinated universal time. -/
def utc : Zone where
  day time := time / 86400000
  monotone first second le := by
    show first / 86400000 ≤ second / 86400000
    omega

/-- Noon of a day. -/
def noon (day : Int) : Int :=
  day * 86400000 + 43200000

/-- A deletion on day 0 does not keep the file of that day until day 40. -/
theorem retention_iff_earlyDeletion :
    RetentionLaw utc none [.append (noon 0) ['a'] [] [] 1, .deleteEntry (noon 0) ['z'] (noon 0),
      .append (noon 40) ['b'] [] [] 1] := by
  apply (retention_iff (by decide)).mpr
  intro before call taken append day file _ _ deletion member isDelete
  rcases before with _ | ⟨first, _ | ⟨second, _ | ⟨third, rest⟩⟩⟩
  · cases member
  · simp only [List.cons_append, List.nil_append, List.cons_prefix_cons] at taken
    rw [taken.2.1] at append
    cases append
  · simp only [List.cons_append, List.nil_append, List.cons_prefix_cons] at taken
    obtain ⟨rfl, rfl, rfl, _⟩ := taken
    rcases List.mem_cons.mp member with rfl | member
    · cases isDelete
    · rw [List.mem_singleton.mp member]
      decide
  · have short := taken.length_le
    simp only [List.length_append, List.length_cons, List.length_nil] at short
    omega

/-- The entry of day 30 is deleted on the same day, and the file of day 0 is
still there after an append on day 40. -/
theorem deletion_prolongs :
    ¬RetentionLaw utc none [.append (noon 0) ['a'] [] [] 1, .append (noon 30) ['b'] [] [] 1,
      .deleteEntry (noon 30) ['b'] (noon 30), .append (noon 40) ['c'] [] [] 1] := by
  intro law
  have bound := law [.append (noon 0) ['a'] [] [] 1, .append (noon 30) ['b'] [] [] 1,
      .deleteEntry (noon 30) ['b'] (noon 30)] (.append (noon 40) ['c'] [] [] 1)
    (List.prefix_refl _) rfl 0 ⟨[⟨['a'], noon 0, [], [], 1⟩], noon 30⟩ rfl
    ⟨['a'], noon 0, [], [], 1⟩ (by simp)
  revert bound
  decide

end RoundSync.SyncLog
