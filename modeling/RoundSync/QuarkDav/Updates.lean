import RoundSync.QuarkDav.Uniqueness
import RoundSync.Transition.Serial
import Mathlib.Data.List.Permutation

/-!
# Concurrent updates of the repository

`setEnabled`, `rename` and each turn of the stop-all loop read a remote in one
locked section and save a changed copy of it in another; every other call is
one section.  A run is serial, and no operation touches a field that is not its
own, as long as every save still finds the remote that its operation has read.
-/

namespace RoundSync.QuarkDav

open RoundSync.Data
open RoundSync.Text
open RoundSync.Text.Kotlin
open RoundSync.Transition

/-- A call, or one turn of the stop-all loop: its first section is the listing,
which all turns of the loop share. -/
inductive Operation where
  | call (call : RepositoryCall)
  | disable (id : JavaString)

section Sections

variable (cases : CaseTables) (json : BackupJson)

/-- The copy that a second section saves. -/
def copied (current : QuarkDavRemote) : Operation → QuarkDavRemote
  | .call (.setEnabled _ enabled) => { current with enabled }
  | .call (.rename _ newName) => { current with name := newName }
  | .disable _ => { current with enabled := false }
  | .call _ => current

def firstSection (dir : Directory) : Operation → Directory × Option QuarkDavRemote
  | .call (.setEnabled id _) => (dir, get cases dir.remotes id)
  | .call (.rename id _) => (dir, get cases dir.remotes id)
  | .disable id => (dir, (get cases dir.remotes id).filter (·.enabled))
  | .call call => (callRepository cases json dir call, none)

def secondSection (operation : Operation) (current : QuarkDavRemote) (dir : Directory) :
    Directory :=
  { dir with remotes := (save cases dir.remotes (copied current operation)).2 }

def updates : Sections Directory Operation QuarkDavRemote where
  first operation dir := firstSection cases json dir operation
  second := secondSection cases
  reads operation dir reached value held := by
    rcases operation with call | id
    · cases call <;> simp_all [firstSection]
    · simp_all [firstSection]

end Sections

variable {cases : CaseTables} {json : BackupJson}

/-! ## Fields -/

/-- What every reader sees of a field stays as it is for the remotes that stay. -/
def Keeps {β : Type} (cases : CaseTables) (field : QuarkDavRemote → β) (before after : Remotes) :
    Prop :=
  ∀ ⦃id old new⦄, get cases before id = some old → get cases after id = some new →
    field old = field new

/-- An operation on one field leaves the others alone. -/
def KeepsUntouched (cases : CaseTables) (operation : Operation) (before after : Remotes) : Prop :=
  match operation with
  | .call (.setEnabled _ _) | .disable _ =>
      Keeps cases QuarkDavRemote.name before after ∧ Keeps cases QuarkDavRemote.cookie before after
  | .call (.rename _ _) =>
      Keeps cases QuarkDavRemote.enabled before after ∧
        Keeps cases QuarkDavRemote.cookie before after
  | .call (.syncRuntimeCookie _) =>
      Keeps cases QuarkDavRemote.name before after ∧ Keeps cases QuarkDavRemote.enabled before after
  | .call _ => True

theorem Keeps.refl {β : Type} (field : QuarkDavRemote → β) (stored : Remotes) :
    Keeps cases field stored stored := by
  intro id old new hasOld hasNew
  rw [Option.some.inj (hasOld.symm.trans hasNew)]

/-- Writing one file keeps a field that is the same in it. -/
theorem Keeps.put {β : Type} {field : QuarkDavRemote → β} {stored : Remotes}
    {remote : QuarkDavRemote}
    (same : ∀ current, get cases stored remote.id = some current →
      field current = field (remote.normalized cases)) :
    Keeps cases field stored (stored.put remote) := by
  intro id old new hasOld hasNew
  obtain ⟨file, isFile, rfl⟩ := get_eq_some_iff.mp hasNew
  rcases Remotes.lookup_put_eq_some_iff.mp isFile with ⟨rfl, rfl⟩ | ⟨_, isOld⟩
  · exact same old hasOld
  · have again : get cases stored id = some (file.normalized cases) :=
      get_eq_some_iff.mpr ⟨file, isOld, rfl⟩
    rw [Option.some.inj (hasOld.symm.trans again)]

/-- Saving a changed copy of what is stored keeps a field that is the same in it. -/
theorem Keeps.save {β : Type} {field : QuarkDavRemote → β} {stored : Remotes}
    {current remote : QuarkDavRemote} (found : get cases stored remote.id = some current)
    (same : field current = field ((remote.normalized cases).normalized cases)) :
    Keeps cases field stored (save cases stored remote).2 := by
  rcases save_stored_cases cases stored remote with kept | ⟨_, written⟩
  · rw [kept]
    exact Keeps.refl field stored
  · rw [written]
    apply Keeps.put
    intro other otherFound
    rw [Option.some.inj (otherFound.symm.trans found)]
    exact same

theorem Keeps.syncRuntimeCookie {β : Type} {field : QuarkDavRemote → β} {dir : Directory}
    {id : JavaString}
    (same : ∀ (remote : QuarkDavRemote) cookie,
      field (({ remote with cookie } : QuarkDavRemote).normalized cases) =
        field (remote.normalized cases)) :
    Keeps cases field dir.remotes (syncRuntimeCookie dir.runtime dir.remotes id) := by
  rcases syncRuntimeCookie_cases dir.runtime dir.remotes id with
    kept | ⟨config, remote, _, isStored, _, put⟩
  · rw [kept]
    exact Keeps.refl field dir.remotes
  · rw [put]
    apply Keeps.put
    intro current found
    have own : remote.id = id := Remotes.id_of_lookup isStored
    have again : get cases dir.remotes remote.id = some (remote.normalized cases) :=
      get_eq_some_iff.mpr ⟨remote, own ▸ isStored, rfl⟩
    rw [Option.some.inj (found.symm.trans again)]
    exact (same remote config.cookie.cookie).symm

theorem trimmed_of_get {stored : Remotes} {id : JavaString} {remote : QuarkDavRemote}
    (found : get cases stored id = some remote) : trim remote.name = remote.name := by
  obtain ⟨file, _, rfl⟩ := get_eq_some_iff.mp found
  exact trim_trim file.name

theorem keepsUntouched_refl (operation : Operation) (stored : Remotes) :
    KeepsUntouched cases operation stored stored := by
  rcases operation with call | id
  · cases call <;> simp [KeepsUntouched, Keeps.refl]
  · exact ⟨Keeps.refl _ stored, Keeps.refl _ stored⟩

/-- The second section of an undisturbed operation keeps the fields of the others. -/
theorem keepsUntouched_second {operation : Operation} {dir : Directory} {current : QuarkDavRemote}
    (undisturbed : firstSection cases json dir operation = (dir, some current)) :
    KeepsUntouched cases operation dir.remotes
      (secondSection cases operation current dir).remotes := by
  rcases operation with call | id
  · cases call with
    | setEnabled id enabled =>
        have found : get cases dir.remotes id = some current := congrArg Prod.snd undisturbed
        have own := id_of_get found
        subst own
        have trimmed := trimmed_of_get found
        constructor
        · exact Keeps.save found (by simp [copied, trimmed])
        · exact Keeps.save found rfl
    | rename id newName =>
        have found : get cases dir.remotes id = some current := congrArg Prod.snd undisturbed
        have own := id_of_get found
        subst own
        constructor
        · exact Keeps.save found rfl
        · exact Keeps.save found rfl
    | syncRuntimeCookie id => cases congrArg Prod.snd undisturbed
    | save remote => trivial
    | delete id => trivial
    | replaceFromBackup content => trivial
    | kernelSave id config => trivial
  · have listed : (get cases dir.remotes id).filter (·.enabled) = some current :=
      congrArg Prod.snd undisturbed
    have found := (Option.filter_eq_some_iff.mp listed).1
    have own := id_of_get found
    subst own
    have trimmed := trimmed_of_get found
    constructor
    · exact Keeps.save found (by simp [copied, trimmed])
    · exact Keeps.save found rfl

/-- A first section that finishes its operation keeps the fields of the others. -/
theorem keepsUntouched_first {operation : Operation} {dir reached : Directory}
    (settled : firstSection cases json dir operation = (reached, none)) :
    KeepsUntouched cases operation dir.remotes reached.remotes := by
  rcases operation with call | id
  · cases call with
    | setEnabled id enabled =>
        have same : dir = reached := congrArg Prod.fst settled
        exact same ▸ keepsUntouched_refl _ dir.remotes
    | rename id newName =>
        have same : dir = reached := congrArg Prod.fst settled
        exact same ▸ keepsUntouched_refl _ dir.remotes
    | syncRuntimeCookie id =>
        have called : callRepository cases json dir (.syncRuntimeCookie id) = reached :=
          congrArg Prod.fst settled
        subst called
        exact ⟨Keeps.syncRuntimeCookie fun _ _ => rfl, Keeps.syncRuntimeCookie fun _ _ => rfl⟩
    | save remote => trivial
    | delete id => trivial
    | replaceFromBackup content => trivial
    | kernelSave id config => trivial
  · have same : dir = reached := congrArg Prod.fst settled
    exact same ▸ keepsUntouched_refl _ dir.remotes

/-! ## Runs -/

/-- The stored list is the one that the finished operations give, one after
another in some order. -/
def SerialList (cases : CaseTables) (json : BackupJson) (initial : Directory)
    (s : Interleaved Directory Operation QuarkDavRemote) : Prop :=
  ∃ order : List Operation, order.Perm (Sections.finished s.jobs) ∧
    list cases (order.foldl (updates cases json).perform initial).remotes =
      list cases s.state.remotes

/-- The next section of an operation leaves the fields of the others alone. -/
def LosesNothing (cases : CaseTables) (json : BackupJson)
    (s : Interleaved Directory Operation QuarkDavRemote) (index : Nat) : Prop :=
  ∀ operation progress, s.jobs[index]? = some (operation, progress) →
    KeepsUntouched cases operation s.state.remotes ((updates cases json).step s index).state.remotes

theorem losesNothing_of_undisturbed {s : Interleaved Directory Operation QuarkDavRemote}
    {index : Nat} (undisturbed : (updates cases json).Undisturbed s index) :
    LosesNothing cases json s index := by
  intro operation progress present
  have shape := (updates cases json).step_shape s index
  generalize (updates cases json).step s index = after at shape
  cases shape with
  | idle => exact keepsUntouched_refl operation s.state.remotes
  | read other value waiting held => exact keepsUntouched_refl operation s.state.remotes
  | settle other reached waiting settled =>
      cases present.symm.trans waiting
      exact keepsUntouched_first settled
  | write other value holding =>
      cases present.symm.trans holding
      exact keepsUntouched_second (undisturbed operation value holding)

/-- While every save finds the remote that its operation has read, the stored
list is a serial result in every state and no section touches a field that is
not its own. -/
theorem undisturbed_losesNothing (cases : CaseTables) (json : BackupJson) (initial : Directory)
    (operations : List Operation) (events : List Nat)
    (meets : Meets (updates cases json).step (updates cases json).Undisturbed
      (.start initial operations) events) :
    Always (updates cases json).step (SerialList cases json initial) (.start initial operations)
        events ∧
      Meets (updates cases json).step (LosesNothing cases json) (.start initial operations)
        events := by
  constructor
  · apply ((updates cases json).always_serial meets).mono
    rintro s ⟨order, result⟩
    exact ⟨s.order, order, by rw [result]⟩
  · exact meets.mono fun _ _ => losesNothing_of_undisturbed

/-- One remote, with its kernel's configuration file. -/
def kernelWithCookie (cookie : String) : Directory :=
  ⟨Remotes.empty.put plainRemote,
    (∅ : Table JavaString QuarkDavKernelConfig).insert plainRemote.id
      { listen := text "127.0.0.1:5244", pathPrefix := text "/dav", username := text "quark"
        password := text "quark", noAuth := false, cacheTtlSeconds := 15, tempDir := text "/tmp"
        cookie :=
          { cookie := text cookie, rootId := text "0", brand := text "quark"
            orderBy := text "none", orderDirection := text "asc"
            useTranscodingAddress := false, onlyListVideoFile := false } },
    ∅⟩

def noBackups : BackupJson :=
  ⟨fun _ => [], fun _ => .error [], fun _ => .error []⟩

def renameAndSync : List Operation :=
  [.call (.rename plainRemote.id (text "b")), .call (.syncRuntimeCookie plainRemote.id)]

theorem undisturbed_losesNothing_renameThenSync :
    Always (updates asciiCase noBackups).step
        (SerialList asciiCase noBackups (kernelWithCookie "r"))
        (.start (kernelWithCookie "r") renameAndSync) [0, 0, 1] ∧
      Meets (updates asciiCase noBackups).step (LosesNothing asciiCase noBackups)
        (.start (kernelWithCookie "r") renameAndSync) [0, 0, 1] := by
  apply undisturbed_losesNothing
  have first : (updates asciiCase noBackups).Undisturbed
      (.start (kernelWithCookie "r") renameAndSync) 0 := by
    intro operation value holding
    cases holding
  have second : (updates asciiCase noBackups).Undisturbed
      ((updates asciiCase noBackups).step (.start (kernelWithCookie "r") renameAndSync) 0) 0 := by
    intro operation value holding
    cases holding
    rfl
  have third : (updates asciiCase noBackups).Undisturbed
      (run (updates asciiCase noBackups).step (.start (kernelWithCookie "r") renameAndSync)
        [0, 0]) 1 := by
    intro operation value holding
    cases holding
  exact ⟨first, second, third, trivial⟩

/-- `rename` reads the remote, the refreshed cookie is stored, and `rename` saves
the old cookie over it. -/
theorem renameAroundSync_losesCookie :
    ¬SerialList asciiCase noBackups (kernelWithCookie "r")
      (run (updates asciiCase noBackups).step (.start (kernelWithCookie "r") renameAndSync)
        [0, 1, 0]) := by
  rintro ⟨order, perm, same⟩
  rcases List.perm_pair.mp perm with rfl | rfl
  · exact absurd same (by decide)
  · exact absurd same (by decide)

end RoundSync.QuarkDav
