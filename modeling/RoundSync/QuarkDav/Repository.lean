import RoundSync.Data.Table
import RoundSync.QuarkDav.Remote

/-!
# The QuarkDav repository

The directory `quarkdav`: the stored remotes, the configuration files of the
kernels and the published statuses.  Every function here is one locked section
of the source, or a sequence of them where its docstring says so.
-/

namespace RoundSync.QuarkDav

open RoundSync.Data
open RoundSync.Text
open RoundSync.Text.Kotlin

/-- The directory `remotes`: a file for each remote, named by its id. -/
structure Remotes where
  files : Table JavaString QuarkDavRemote
  keyed : ∀ ⦃id remote⦄, files.lookup id = some remote → remote.id = id

namespace Remotes

theorem ext {first second : Remotes} (files : first.files = second.files) : first = second := by
  cases first
  cases second
  cases files
  rfl

def empty : Remotes :=
  ⟨∅, fun _ _ found => by simp at found⟩

def lookup (stored : Remotes) (id : JavaString) : Option QuarkDavRemote :=
  stored.files.lookup id

def all (stored : Remotes) : List QuarkDavRemote :=
  stored.files.values

/-- Write the file of a remote. -/
def put (stored : Remotes) (remote : QuarkDavRemote) : Remotes where
  files := stored.files.insert remote.id remote
  keyed id found isFound := by
    rcases Table.lookup_insert_eq_some_iff.mp isFound with ⟨same, equal⟩ | ⟨_, old⟩
    · rw [← equal, same]
    · exact stored.keyed old

/-- Delete the file of a remote. -/
def remove (stored : Remotes) (id : JavaString) : Remotes where
  files := stored.files.erase id
  keyed _ _ isFound := stored.keyed (Table.lookup_erase_eq_some_iff.mp isFound).2

@[simp]
theorem lookup_empty (id : JavaString) : empty.lookup id = none :=
  AList.lookup_empty id

theorem lookup_put_eq_some_iff {stored : Remotes} {remote found : QuarkDavRemote}
    {id : JavaString} :
    (stored.put remote).lookup id = some found ↔
      id = remote.id ∧ remote = found ∨ id ≠ remote.id ∧ stored.lookup id = some found :=
  Table.lookup_insert_eq_some_iff

@[simp]
theorem lookup_put_self (stored : Remotes) (remote : QuarkDavRemote) :
    (stored.put remote).lookup remote.id = some remote :=
  AList.lookup_insert _

theorem lookup_put_ne {stored : Remotes} {remote : QuarkDavRemote} {id : JavaString}
    (other : id ≠ remote.id) : (stored.put remote).lookup id = stored.lookup id :=
  AList.lookup_insert_ne other

theorem lookup_remove_eq_some_iff {stored : Remotes} {found : QuarkDavRemote}
    {id other : JavaString} :
    (stored.remove id).lookup other = some found ↔ other ≠ id ∧ stored.lookup other = some found :=
  Table.lookup_erase_eq_some_iff

theorem id_of_lookup {stored : Remotes} {id : JavaString} {remote : QuarkDavRemote}
    (found : stored.lookup id = some remote) : remote.id = id :=
  stored.keyed found

theorem mem_all_iff {stored : Remotes} {remote : QuarkDavRemote} :
    remote ∈ stored.all ↔ stored.lookup remote.id = some remote := by
  rw [all, Table.mem_values_iff]
  constructor
  · rintro ⟨id, found⟩
    rw [stored.keyed found]
    exact found
  · intro found
    exact ⟨remote.id, found⟩

/-- No two files hold one id. -/
theorem pairwise_all (stored : Remotes) : stored.all.Pairwise fun a b => a.id ≠ b.id := by
  have keys : stored.files.entries.Pairwise fun a b => a.1 ≠ b.1 :=
    List.pairwise_map.mp stored.files.nodupKeys
  rw [all, Table.values, List.pairwise_map]
  apply keys.imp_of_mem
  intro a b memberA memberB different
  have idA : a.2.id = a.1 := stored.keyed (AList.mem_lookup_iff.mpr memberA)
  have idB : b.2.id = b.1 := stored.keyed (AList.mem_lookup_iff.mpr memberB)
  rw [idA, idB]
  exact different

end Remotes

/-! ## Statuses -/

inductive QuarkDavRuntimeState where
  | stopped
  | starting
  | running
  | error
  deriving DecidableEq

structure QuarkDavRuntimeStatus where
  id : JavaString := []
  state : QuarkDavRuntimeState := .stopped
  url : JavaString := []
  message : JavaString := []
  pid : Int := 0
  configuredCookieHash : JavaString := []
  deriving DecidableEq

abbrev Statuses := Table JavaString QuarkDavRuntimeStatus

namespace Statuses

/-- `QuarkDavStatusStore.read`. -/
def read (statuses : Statuses) (id : JavaString) : QuarkDavRuntimeStatus :=
  (statuses.lookup id).getD { id }

/-- `QuarkDavStatusStore.write`. -/
def write (statuses : Statuses) (status : QuarkDavRuntimeStatus) : Statuses :=
  statuses.insert status.id status

/-- `QuarkDavStatusStore.delete`. -/
def delete (statuses : Statuses) (id : JavaString) : Statuses :=
  statuses.erase id

end Statuses

structure Directory where
  remotes : Remotes
  runtime : Table JavaString QuarkDavKernelConfig
  statuses : Statuses

def Directory.empty : Directory :=
  ⟨.empty, ∅, ∅⟩

/-! ## Locked sections -/

section Sections

variable (cases : CaseTables)

def list (stored : Remotes) : List QuarkDavRemote :=
  sortedBy (fun remote => cases.lowercase remote.name)
    (stored.all.map fun remote => remote.normalized cases)

def get (stored : Remotes) (id : JavaString) : Option QuarkDavRemote :=
  (stored.lookup id).map fun remote => remote.normalized cases

/-- The test that `save` makes on every stored remote. -/
def duplicate (normalized stored : QuarkDavRemote) : Bool :=
  stored.id ≠ normalized.id &&
    (cases.equalsIgnoreCase stored.name normalized.name || addressConflict stored normalized)

def save (stored : Remotes) (remote : QuarkDavRemote) :
    Except JavaString QuarkDavRemote × Remotes :=
  let normalized := remote.normalized cases
  if isBlank normalized.name then (.error (text "Remote name is required"), stored)
  else if isBlank normalized.cookie then (.error (text "Cookie is required"), stored)
  else if stored.all.any (duplicate cases normalized) then
    (.error (text "Remote name or listen port is already in use"), stored)
  else (.ok normalized, stored.put normalized)

/-- `setEnabled`: the section of `get`, then the section of `save`. -/
def setEnabled (stored : Remotes) (id : JavaString) (enabled : Bool) :
    Except JavaString (Option QuarkDavRemote) × Remotes :=
  match get cases stored id with
  | none => (.ok none, stored)
  | some current =>
      let (result, stored) := save cases stored { current with enabled }
      (result.map some, stored)

/-- `rename`: the section of `get`, then the section of `save`. -/
def rename (stored : Remotes) (id newName : JavaString) :
    Except JavaString (Option QuarkDavRemote) × Remotes :=
  match get cases stored id with
  | none => (.ok none, stored)
  | some current =>
      let (result, stored) := save cases stored { current with name := newName }
      (result.map some, stored)

def delete (dir : Directory) (id : JavaString) : Directory where
  remotes := dir.remotes.remove id
  runtime := dir.runtime.erase id
  statuses := dir.statuses.delete id

def writeRuntimeConfig (platform : Platform) (dir : Directory) (remote : QuarkDavRemote) :
    Directory :=
  { dir with runtime := dir.runtime.insert remote.id (remote.kernelConfig platform) }

/-- `syncRuntimeCookie`, given the kernel's configuration files. -/
def syncRuntimeCookie (runtime : Table JavaString QuarkDavKernelConfig) (stored : Remotes)
    (id : JavaString) : Remotes :=
  match runtime.lookup id, stored.lookup id with
  | some config, some remote =>
      let cookie := config.cookie.cookie
      if isBlank cookie then stored
      else if remote.cookie ≠ cookie then stored.put { remote with cookie }
      else stored
  | _, _ => stored

end Sections

/-! ## Sections, one by one -/

section Results

variable {cases : CaseTables}

theorem get_eq_some_iff {stored : Remotes} {id : JavaString} {remote : QuarkDavRemote} :
    get cases stored id = some remote ↔
      ∃ file, stored.lookup id = some file ∧ file.normalized cases = remote := by
  simp [get]

theorem id_of_get {stored : Remotes} {id : JavaString} {remote : QuarkDavRemote}
    (found : get cases stored id = some remote) : remote.id = id := by
  obtain ⟨file, isStored, rfl⟩ := get_eq_some_iff.mp found
  have own : file.id = id := Remotes.id_of_lookup isStored
  exact own

/-- The listed remotes are what `get` returns for the stored ids. -/
theorem mem_list_iff {stored : Remotes} {remote : QuarkDavRemote} :
    remote ∈ list cases stored ↔ get cases stored remote.id = some remote := by
  simp only [list, mem_sortedBy, List.mem_map, Remotes.mem_all_iff, get_eq_some_iff]
  constructor
  · rintro ⟨file, isStored, rfl⟩
    exact ⟨file, isStored, rfl⟩
  · rintro ⟨file, isStored, rfl⟩
    exact ⟨file, isStored, rfl⟩

theorem mem_list_iff_file {stored : Remotes} {remote : QuarkDavRemote} :
    remote ∈ list cases stored ↔
      ∃ file, stored.lookup file.id = some file ∧ file.normalized cases = remote := by
  rw [mem_list_iff, get_eq_some_iff]
  constructor
  · rintro ⟨file, isStored, rfl⟩
    exact ⟨file, isStored, rfl⟩
  · rintro ⟨file, isStored, rfl⟩
    exact ⟨file, isStored, rfl⟩

theorem list_perm (stored : Remotes) :
    (list cases stored).Perm (stored.all.map fun remote => remote.normalized cases) :=
  sortedBy_perm _ _

/-- A symmetric relation holds pairwise of the listed remotes if it holds of any
two that are stored under different ids. -/
theorem list_pairwise {stored : Remotes} {R : QuarkDavRemote → QuarkDavRemote → Prop}
    (symmetric : ∀ a b, R a b → R b a)
    (pairs : ∀ ⦃a b⦄, stored.lookup a.id = some a → stored.lookup b.id = some b → a.id ≠ b.id →
      R (a.normalized cases) (b.normalized cases)) : (list cases stored).Pairwise R := by
  apply (list_perm stored).symm.pairwise _ fun {a b} => symmetric a b
  rw [List.pairwise_map]
  apply stored.pairwise_all.imp_of_mem
  intro a b memberA memberB different
  exact pairs (Remotes.mem_all_iff.mp memberA) (Remotes.mem_all_iff.mp memberB) different

/-- What an accepted `save` has checked. -/
structure Accepted (cases : CaseTables) (stored : Remotes) (normalized : QuarkDavRemote) :
    Prop where
  name : isBlank normalized.name = false
  cookie : isBlank normalized.cookie = false
  unique : ∀ ⦃other⦄, stored.lookup other.id = some other → duplicate cases normalized other = false

theorem Accepted.distinct {stored : Remotes} {normalized other : QuarkDavRemote}
    (accepted : Accepted cases stored normalized) (isStored : stored.lookup other.id = some other)
    (different : other.id ≠ normalized.id) :
    cases.equalsIgnoreCase other.name normalized.name = false ∧
      addressConflict other normalized = false := by
  have checked := accepted.unique isStored
  simpa only [duplicate, different, ne_eq, not_false_iff, decide_true, Bool.true_and,
    Bool.or_eq_false_iff] using checked

theorem save_cases (cases : CaseTables) (stored : Remotes) (remote : QuarkDavRemote) :
    (¬Accepted cases stored (remote.normalized cases) ∧
        ∃ message, save cases stored remote = (.error message, stored)) ∨
      Accepted cases stored (remote.normalized cases) ∧
        save cases stored remote =
          (.ok (remote.normalized cases), stored.put (remote.normalized cases)) := by
  unfold save
  by_cases name : isBlank (remote.normalized cases).name = true
  · left
    refine ⟨fun accepted => Bool.eq_false_iff.mp accepted.name name, ?_⟩
    exact ⟨_, if_pos name⟩
  by_cases cookie : isBlank (remote.normalized cases).cookie = true
  · left
    refine ⟨fun accepted => Bool.eq_false_iff.mp accepted.cookie cookie, ?_⟩
    refine ⟨text "Cookie is required", ?_⟩
    simp only [name, cookie, if_true, if_false, Bool.false_eq_true]
  by_cases taken : stored.all.any (duplicate cases (remote.normalized cases)) = true
  · left
    constructor
    · intro accepted
      obtain ⟨other, member, conflict⟩ := List.any_eq_true.mp taken
      exact Bool.eq_false_iff.mp (accepted.unique (Remotes.mem_all_iff.mp member)) conflict
    · refine ⟨text "Remote name or listen port is already in use", ?_⟩
      simp only [name, cookie, taken, if_true, if_false, Bool.false_eq_true]
  · right
    constructor
    · constructor
      · exact Bool.eq_false_iff.mpr name
      · exact Bool.eq_false_iff.mpr cookie
      · intro other isStored
        rw [Bool.eq_false_iff]
        intro conflict
        exact taken (List.any_eq_true.mpr ⟨other, Remotes.mem_all_iff.mpr isStored, conflict⟩)
    · simp only [name, cookie, taken, if_false, Bool.false_eq_true]

/-- What `save` leaves: the stored remotes as they are, or with one file written. -/
theorem save_stored_cases (cases : CaseTables) (stored : Remotes) (remote : QuarkDavRemote) :
    (save cases stored remote).2 = stored ∨
      Accepted cases stored (remote.normalized cases) ∧
        (save cases stored remote).2 = stored.put (remote.normalized cases) := by
  rcases save_cases cases stored remote with ⟨_, message, failed⟩ | ⟨accepted, saved⟩
  · left
    rw [failed]
  · right
    rw [saved]
    exact ⟨accepted, rfl⟩

theorem setEnabled_stored (stored : Remotes) (id : JavaString) (enabled : Bool) :
    (setEnabled cases stored id enabled).2 =
      match get cases stored id with
      | none => stored
      | some current => (save cases stored { current with enabled }).2 := by
  unfold setEnabled
  cases get cases stored id with
  | none => rfl
  | some current => rfl

theorem rename_stored (stored : Remotes) (id newName : JavaString) :
    (rename cases stored id newName).2 =
      match get cases stored id with
      | none => stored
      | some current => (save cases stored { current with name := newName }).2 := by
  unfold rename
  cases get cases stored id with
  | none => rfl
  | some current => rfl

/-- What `syncRuntimeCookie` leaves: the stored remotes as they are, or one of
them with the cookie of its kernel. -/
theorem syncRuntimeCookie_cases (runtime : Table JavaString QuarkDavKernelConfig)
    (stored : Remotes) (id : JavaString) :
    syncRuntimeCookie runtime stored id = stored ∨
      ∃ config remote, runtime.lookup id = some config ∧ stored.lookup id = some remote ∧
        isBlank config.cookie.cookie = false ∧
        syncRuntimeCookie runtime stored id =
          stored.put { remote with cookie := config.cookie.cookie } := by
  unfold syncRuntimeCookie
  split
  · rename_i config remote hasConfig isStored
    by_cases blank : isBlank config.cookie.cookie = true
    · left
      simp only [blank, if_true]
    · by_cases same : remote.cookie = config.cookie.cookie
      · left
        simp only [blank, same, Bool.false_eq_true, if_false, ne_eq, not_true]
      · right
        refine ⟨config, remote, hasConfig, isStored, Bool.eq_false_iff.mpr blank, ?_⟩
        simp only [blank, same, Bool.false_eq_true, if_false, ne_eq, not_false_iff, if_true]
  · exact .inl rfl

end Results

end RoundSync.QuarkDav
