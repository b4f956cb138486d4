import RoundSync.QuarkDav.Backup
import RoundSync.Transition.Core

/-!
# Uniqueness of names and endpoints

A sequence of repository calls keeps names apart ignoring case and endpoints
apart exactly when the accepted calls spell them alike: the address test
compares spellings, so two spellings of one host pass it, and a backup is
tested for names in lower case only.
-/

namespace RoundSync.QuarkDav

open RoundSync.Data
open RoundSync.Text
open RoundSync.Text.Kotlin
open RoundSync.Transition

/-- A call of the repository, or a change that a kernel makes to its
configuration file. -/
inductive RepositoryCall where
  | save (remote : QuarkDavRemote)
  | setEnabled (id : JavaString) (enabled : Bool)
  | rename (id newName : JavaString)
  | syncRuntimeCookie (id : JavaString)
  | delete (id : JavaString)
  | replaceFromBackup (content : JavaString)
  | kernelSave (id : JavaString) (config : QuarkDavKernelConfig)

section Calls

variable (cases : CaseTables) (json : BackupJson)

def callRepository (dir : Directory) : RepositoryCall → Directory
  | .save remote => { dir with remotes := (save cases dir.remotes remote).2 }
  | .setEnabled id enabled => { dir with remotes := (setEnabled cases dir.remotes id enabled).2 }
  | .rename id newName => { dir with remotes := (rename cases dir.remotes id newName).2 }
  | .syncRuntimeCookie id =>
      { dir with remotes := syncRuntimeCookie dir.runtime dir.remotes id }
  | .delete id => delete dir id
  | .replaceFromBackup content => (replaceFromBackup cases json dir content).2
  | .kernelSave id config => { dir with runtime := dir.runtime.insert id config }

/-- Two remotes have different names ignoring case and different endpoints. -/
def Apart (a b : QuarkDavRemote) : Prop :=
  cases.equalsIgnoreCase a.name b.name = false ∧ a.listenEndpoint cases ≠ b.listenEndpoint cases

def Unique (stored : Remotes) : Prop :=
  ∀ ⦃a b⦄, stored.lookup a.id = some a → stored.lookup b.id = some b → a.id ≠ b.id →
    Apart cases a b

end Calls

variable {cases : CaseTables} {json : BackupJson}

theorem Apart.symm {a b : QuarkDavRemote} (apart : Apart cases a b) : Apart cases b a := by
  obtain ⟨names, endpoints⟩ := apart
  constructor
  · rw [CaseTables.equalsIgnoreCase_comm]
    exact names
  · exact endpoints.symm

instance : Std.Symm (Apart cases) :=
  ⟨fun _ _ apart => apart.symm⟩

/-! ## One written file -/

theorem unique_put_iff {stored : Remotes} {remote : QuarkDavRemote}
    (unique : Unique cases stored) :
    Unique cases (stored.put remote) ↔
      ∀ ⦃other⦄, stored.lookup other.id = some other → other.id ≠ remote.id →
        Apart cases remote other := by
  constructor
  · intro after other isStored different
    refine after (Remotes.lookup_put_self stored remote) ?_ (Ne.symm different)
    rw [Remotes.lookup_put_ne different]
    exact isStored
  · intro apart a b hasA hasB different
    rcases Remotes.lookup_put_eq_some_iff.mp hasA with ⟨_, rfl⟩ | ⟨otherA, oldA⟩
    · rcases Remotes.lookup_put_eq_some_iff.mp hasB with ⟨same, _⟩ | ⟨otherB, oldB⟩
      · exact absurd same.symm different
      · exact apart oldB otherB
    · rcases Remotes.lookup_put_eq_some_iff.mp hasB with ⟨_, rfl⟩ | ⟨otherB, oldB⟩
      · exact (apart oldA otherA).symm
      · exact unique oldA oldB different

theorem Unique.remove {stored : Remotes} (unique : Unique cases stored) (id : JavaString) :
    Unique cases (stored.remove id) := by
  intro a b hasA hasB different
  exact unique (Remotes.lookup_remove_eq_some_iff.mp hasA).2
    (Remotes.lookup_remove_eq_some_iff.mp hasB).2 different

theorem Unique.syncRuntimeCookie {stored : Remotes} (unique : Unique cases stored)
    (runtime : Table JavaString QuarkDavKernelConfig) (id : JavaString) :
    Unique cases (syncRuntimeCookie runtime stored id) := by
  rcases syncRuntimeCookie_cases runtime stored id with kept | ⟨config, remote, _, isStored, _, put⟩
  · rw [kept]
    exact unique
  · rw [put, unique_put_iff unique]
    intro other otherStored different
    have own : remote.id = id := Remotes.id_of_lookup isStored
    have apart : Apart cases remote other :=
      unique (own ▸ isStored) otherStored (Ne.symm different)
    exact apart

/-! ## An import -/

theorem lookup_foldl_put {stored : Remotes} {imported : List QuarkDavRemote}
    (ids : imported.Pairwise fun a b => a.id ≠ b.id) {id : JavaString} {remote : QuarkDavRemote} :
    (imported.foldl Remotes.put stored).lookup id = some remote ↔
      remote ∈ imported ∧ remote.id = id ∨
        stored.lookup id = some remote ∧ ∀ other ∈ imported, other.id ≠ id := by
  induction imported generalizing stored with
  | nil => simp
  | cons head tail ih =>
      rw [List.pairwise_cons] at ids
      rw [List.foldl_cons, ih ids.2, Remotes.lookup_put_eq_some_iff, List.forall_mem_cons,
        List.mem_cons]
      constructor
      · rintro (⟨member, own⟩ | ⟨⟨same, rfl⟩ | ⟨other, old⟩, absent⟩)
        · exact .inl ⟨.inr member, own⟩
        · exact .inl ⟨.inl rfl, same.symm⟩
        · exact .inr ⟨old, Ne.symm other, absent⟩
      · rintro (⟨rfl | member, own⟩ | ⟨old, other, absent⟩)
        · exact .inr ⟨.inl ⟨own.symm, rfl⟩, fun later member => own ▸ Ne.symm (ids.1 later member)⟩
        · exact .inl ⟨member, own⟩
        · exact .inr ⟨.inr ⟨Ne.symm other, old⟩, absent⟩

theorem lookup_written_iff {imported : List QuarkDavRemote}
    (ids : imported.Pairwise fun a b => a.id ≠ b.id) {id : JavaString} {remote : QuarkDavRemote} :
    (written imported).lookup id = some remote ↔ remote ∈ imported ∧ remote.id = id := by
  rw [written, lookup_foldl_put ids]
  simp

end RoundSync.QuarkDav
