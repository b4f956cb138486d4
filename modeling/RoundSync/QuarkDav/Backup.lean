import RoundSync.QuarkDav.Repository

/-!
# Backups of the QuarkDav remotes

`exportBackup`, `parseBackup` and `replaceFromBackup`.  The JSON library is a
parameter, so a backup is a string with whatever the library reads from it.
-/

namespace RoundSync.QuarkDav

open RoundSync.Data
open RoundSync.Text
open RoundSync.Text.Kotlin

structure QuarkDavBackup where
  schemaVersion : Int := 1
  remotes : List QuarkDavRemote := []
  deriving DecidableEq

/-- The JSON library at the two types that a backup can have. -/
structure BackupJson where
  encodeBackup : QuarkDavBackup → JavaString
  decodeBackup : JavaString → Except JavaString QuarkDavBackup
  decodeRemotes : JavaString → Except JavaString (List QuarkDavRemote)

def isIdChar (c : Char) : Bool :=
  ('A' ≤ c && c ≤ 'Z') || ('a' ≤ c && c ≤ 'z') || ('0' ≤ c && c ≤ '9') || c = '.' || c = '_' ||
    c = '-'

/-- `[A-Za-z0-9._-]{1,128}`. -/
def validId (id : JavaString) : Bool :=
  1 ≤ id.length && id.length ≤ 128 && id.all isIdChar

section Parse

variable (cases : CaseTables)

/-- The checks of one raw remote, given the ids and names seen before it. -/
def checkRemote (index : Nat) (ids names : List JavaString) (remote : QuarkDavRemote) :
    Except JavaString Unit :=
  if !validId remote.id then
    .error (text "QuarkDav remote #" ++ text (toString index) ++ text " has an invalid ID")
  else if remote.id ∈ ids then .error (text "Duplicate QuarkDav remote ID: " ++ remote.id)
  else if isBlank remote.name then
    .error (text "QuarkDav remote #" ++ text (toString index) ++ text " has no name")
  else if cases.lowercase (trim remote.name) ∈ names then
    .error (text "Duplicate QuarkDav remote name: " ++ remote.name)
  else if isBlank remote.cookie then
    .error (text "QuarkDav remote " ++ remote.name ++ text " has no cookie")
  else if ¬(1 ≤ remote.port ∧ remote.port ≤ 65535) then
    .error (text "Invalid QuarkDav port for " ++ remote.name)
  else if ¬0 < remote.cacheTtlSeconds then
    .error (text "Invalid QuarkDav cache TTL for " ++ remote.name)
  else .ok ()

def checkRemotes : Nat → List JavaString → List JavaString → List QuarkDavRemote →
    Except JavaString Unit
  | _, _, _, [] => .ok ()
  | index, ids, names, remote :: remotes => do
      checkRemote cases index ids names remote
      checkRemotes (index + 1) (remote.id :: ids) (cases.lowercase (trim remote.name) :: names)
        remotes

/-- The addresses of the decoded remotes, each against all later ones. -/
def checkAddresses : List QuarkDavRemote → Except JavaString Unit
  | [] => .ok ()
  | left :: rest =>
      if rest.any (addressConflict left) then
        .error (text "QuarkDav listen address is used more than once: " ++ left.listenEndpoint cases)
      else checkAddresses rest

variable (json : BackupJson)

def rawRemotes (content : JavaString) : Except JavaString (List QuarkDavRemote) :=
  if (text "[").isPrefixOf (trimStart content) then json.decodeRemotes content
  else do
    let backup ← json.decodeBackup content
    if 1 ≤ backup.schemaVersion ∧ backup.schemaVersion ≤ 1 then .ok backup.remotes
    else .error (text "Unsupported QuarkDav backup schema: " ++ text (toString backup.schemaVersion))

def parseBackup (content : JavaString) : Except JavaString (List QuarkDavRemote) := do
  let rawRemotes ← rawRemotes json content
  checkRemotes cases 0 [] [] rawRemotes
  let decoded := rawRemotes.map fun remote => remote.normalized cases
  checkAddresses cases decoded
  .ok decoded

def exportBackup (dir : Directory) : JavaString :=
  json.encodeBackup { remotes := list cases dir.remotes }

/-- The files that an import writes, in its order, into the emptied directory. -/
def written (imported : List QuarkDavRemote) : Remotes :=
  imported.foldl Remotes.put Remotes.empty

def replaceFromBackup (dir : Directory) (content : JavaString) :
    Except JavaString Unit × Directory :=
  match parseBackup cases json content with
  | .error message => (.error message, dir)
  | .ok imported => (.ok (), ⟨written imported, ∅, ∅⟩)

end Parse

/-! ## What an accepted backup has been checked for -/

/-- The conditions on single raw remotes. -/
structure Importable (remote : QuarkDavRemote) : Prop where
  id : validId remote.id = true
  name : isBlank remote.name = false
  cookie : isBlank remote.cookie = false
  port : 1 ≤ remote.port ∧ remote.port ≤ 65535
  ttl : 0 < remote.cacheTtlSeconds

variable {cases : CaseTables}

theorem checkRemote_iff {index : Nat} {ids names : List JavaString} {remote : QuarkDavRemote} :
    checkRemote cases index ids names remote = .ok () ↔
      Importable remote ∧ remote.id ∉ ids ∧ cases.lowercase (trim remote.name) ∉ names := by
  constructor
  · intro passed
    unfold checkRemote at passed
    split_ifs at passed with id fresh name apart cookie port ttl
    have idValid : validId remote.id = true := by simpa using id
    exact ⟨⟨idValid, Bool.eq_false_iff.mpr name, Bool.eq_false_iff.mpr cookie, port, ttl⟩,
      fresh, apart⟩
  · rintro ⟨⟨id, name, cookie, port, ttl⟩, fresh, apart⟩
    unfold checkRemote
    simp [id, name, cookie, port, ttl, fresh, apart]

/-- The raw remotes pass exactly when each is importable and no two, nor one and
something seen before, share an id or a name in lower case. -/
theorem checkRemotes_iff {index : Nat} {ids names : List JavaString}
    {remotes : List QuarkDavRemote} :
    checkRemotes cases index ids names remotes = .ok () ↔
      (∀ remote ∈ remotes, Importable remote ∧ remote.id ∉ ids ∧
        cases.lowercase (trim remote.name) ∉ names) ∧
      remotes.Pairwise fun first second => first.id ≠ second.id ∧
        cases.lowercase (trim first.name) ≠ cases.lowercase (trim second.name) := by
  induction remotes generalizing index ids names with
  | nil => simp [checkRemotes]
  | cons remote remotes ih =>
      have split : checkRemotes cases index ids names (remote :: remotes) = .ok () ↔
          checkRemote cases index ids names remote = .ok () ∧
            checkRemotes cases (index + 1) (remote.id :: ids)
              (cases.lowercase (trim remote.name) :: names) remotes = .ok () := by
        rw [checkRemotes]
        cases checkRemote cases index ids names remote with
        | error message => simp [bind, Except.bind]
        | ok value => simp [bind, Except.bind]
      rw [split, checkRemote_iff, ih, List.forall_mem_cons, List.pairwise_cons]
      simp only [List.mem_cons, not_or, ne_eq]
      constructor
      · rintro ⟨head, tail, pairs⟩
        refine ⟨⟨head, fun other member => ?_⟩, fun other member => ?_, pairs⟩
        · obtain ⟨importable, ⟨_, fresh⟩, _, apart⟩ := tail other member
          exact ⟨importable, fresh, apart⟩
        · obtain ⟨_, ⟨idApart, _⟩, nameApart, _⟩ := tail other member
          exact ⟨Ne.symm idApart, Ne.symm nameApart⟩
      · rintro ⟨⟨head, tail⟩, apart, pairs⟩
        refine ⟨head, fun other member => ?_, pairs⟩
        obtain ⟨importable, fresh, nameFresh⟩ := tail other member
        obtain ⟨idApart, nameApart⟩ := apart other member
        exact ⟨importable, ⟨Ne.symm idApart, fresh⟩, Ne.symm nameApart, nameFresh⟩

theorem checkAddresses_iff {remotes : List QuarkDavRemote} :
    checkAddresses cases remotes = .ok () ↔
      remotes.Pairwise fun first second => addressConflict first second = false := by
  induction remotes with
  | nil => simp [checkAddresses]
  | cons left rest ih =>
      rw [List.pairwise_cons, ← ih]
      by_cases conflict : rest.any (addressConflict left) = true
      · simp only [checkAddresses, conflict, if_true, reduceCtorEq, false_iff, not_and]
        intro apart
        obtain ⟨right, member, conflicts⟩ := List.any_eq_true.mp conflict
        rw [apart right member] at conflicts
        cases conflicts
      · simp only [checkAddresses, conflict, Bool.false_eq_true, if_false, iff_and_self]
        intro _ right member
        rw [Bool.eq_false_iff]
        intro conflicts
        exact conflict (List.any_eq_true.mpr ⟨right, member, conflicts⟩)

/-- The conditions on a list of raw remotes that `parseBackup` accepts. -/
structure ImportableList (cases : CaseTables) (remotes : List QuarkDavRemote) : Prop where
  each : ∀ remote ∈ remotes, Importable remote
  ids : remotes.Pairwise fun first second => first.id ≠ second.id
  names : remotes.Pairwise fun first second =>
    cases.lowercase (trim first.name) ≠ cases.lowercase (trim second.name)
  addresses : remotes.Pairwise fun first second =>
    addressConflict (first.normalized cases) (second.normalized cases) = false

theorem importableList_iff {raw : List QuarkDavRemote} :
    ImportableList cases raw ↔
      checkRemotes cases 0 [] [] raw = .ok () ∧
        checkAddresses cases (raw.map fun remote => remote.normalized cases) = .ok () := by
  rw [checkRemotes_iff, checkAddresses_iff, List.pairwise_map, List.pairwise_and_iff]
  constructor
  · rintro ⟨each, ids, names, addresses⟩
    refine ⟨⟨fun remote member => ⟨each remote member, ?_, ?_⟩, ids, names⟩, addresses⟩
    · exact List.not_mem_nil
    · exact List.not_mem_nil
  · rintro ⟨⟨each, ids, names⟩, addresses⟩
    exact ⟨fun remote member => (each remote member).1, ids, names, addresses⟩

theorem parseBackup_iff {json : BackupJson} {content : JavaString}
    {imported : List QuarkDavRemote} :
    parseBackup cases json content = .ok imported ↔
      ∃ raw, rawRemotes json content = .ok raw ∧ ImportableList cases raw ∧
        imported = raw.map fun remote => remote.normalized cases := by
  unfold parseBackup
  cases rawRemotes json content with
  | error message => simp [bind, Except.bind]
  | ok raw =>
      simp only [importableList_iff, Except.ok.injEq, exists_eq_left', bind, Except.bind]
      cases checkRemotes cases 0 [] [] raw with
      | error message => simp
      | ok _ =>
          cases checkAddresses cases (raw.map fun remote => remote.normalized cases) with
          | error message => simp
          | ok _ => simp [eq_comm]

end RoundSync.QuarkDav
