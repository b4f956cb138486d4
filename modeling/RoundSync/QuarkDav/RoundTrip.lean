import RoundSync.QuarkDav.Uniqueness

/-!
# The backup round trip

A backup holds the listed remotes, so it restores the list exactly when they
are accepted again and normalized to themselves.  Everything a repository call
stores passes the checks of `parseBackup` except the form of the id and the
names in lower case, and everything is settled by the listing except a path
prefix that loses another slash.
-/

namespace RoundSync.QuarkDav

open RoundSync.Data
open RoundSync.Text
open RoundSync.Text.Kotlin
open RoundSync.Transition

/-! ## Repeated normalization -/

theorem trimChar_length_le (c : Char) (s : JavaString) : (trimChar c s).length ≤ s.length :=
  (List.rdropWhile_prefix _ _).length_le.trans (List.dropWhile_suffix _).length_le

theorem trimEnd_cons {c : Char} (solid : isWhitespace c = false) (s : JavaString) :
    trimEnd (c :: s) = c :: trimEnd s := by
  simp only [trimEnd, List.rdropWhile, List.reverse_cons, List.dropWhile_append]
  split
  · rename_i empty
    rw [List.isEmpty_iff] at empty
    simp [empty, solid]
  · simp

theorem eq_of_trimChar_length {c : Char} {s : JavaString}
    (full : s.length ≤ (trimChar c s).length) : trimChar c s = s := by
  have outer := List.rdropWhile_prefix (· = c) (s.dropWhile (· = c))
  have inner : s.dropWhile (· = c) <:+ s := List.dropWhile_suffix (· = c)
  have innerEq : s.dropWhile (· = c) = s :=
    inner.eq_of_length (le_antisymm inner.length_le (full.trans outer.length_le))
  have outerEq : trimChar c s = s.dropWhile (· = c) :=
    outer.eq_of_length (le_antisymm outer.length_le (inner.length_le.trans full))
  exact outerEq.trans innerEq

/-- A prefix with its slash, past one normalization that does not end at the default. -/
theorem normalizedPrefix_slash_cons (rest : JavaString) :
    normalizedPrefix ('/' :: rest) = text "/dav" ∨
      normalizedPrefix ('/' :: rest) = '/' :: trimChar '/' (trimEnd rest) := by
  have trimmed : trim ('/' :: rest) = '/' :: trimEnd rest := trimEnd_cons (by decide) rest
  have notBlank : isBlank ('/' :: trimEnd rest) = false := by
    simp [isBlank, show isWhitespace '/' = false by decide]
  have stripped : trimChar '/' ('/' :: trimEnd rest) = trimChar '/' (trimEnd rest) := by
    simp [trimChar]
  simp only [normalizedPrefix, trimmed, notBlank, stripped, Bool.false_eq_true, if_false]
  split_ifs
  · exact .inl rfl
  · unfold ifBlank
    split
    · exact .inl rfl
    · exact .inr rfl

/-- One more normalization of a prefix that starts with a slash ends at the
default, shortens it, or leaves it as it is. -/
theorem normalizedPrefix_step (rest : JavaString) :
    normalizedPrefix ('/' :: rest) = text "/dav" ∨
      (normalizedPrefix ('/' :: rest)).length < ('/' :: rest).length ∨
      normalizedPrefix ('/' :: rest) = '/' :: rest := by
  rcases normalizedPrefix_slash_cons rest with default | stripped
  · exact .inl default
  right
  rw [stripped]
  have cut := trimChar_length_le '/' (trimEnd rest)
  have ended : trimEnd rest <+: rest := List.rdropWhile_prefix _ _
  by_cases shorter : (trimChar '/' (trimEnd rest)).length < rest.length
  · exact .inl (by simpa using shorter)
  · right
    have endedEq : trimEnd rest = rest :=
      ended.eq_of_length (le_antisymm ended.length_le ((not_lt.mp shorter).trans cut))
    rw [endedEq] at shorter ⊢
    rw [eq_of_trimChar_length (not_lt.mp shorter)]

theorem normalizedPrefix_eq_cons (p : JavaString) :
    ∃ rest, normalizedPrefix p = '/' :: rest := by
  unfold normalizedPrefix
  dsimp only
  split_ifs
  · exact ⟨text "dav", rfl⟩
  · exact ⟨text "dav", rfl⟩
  · exact ⟨_, rfl⟩

/-- A normalized prefix to which two more normalizations return is a fixed point:
the first cannot have shortened it, because nothing lengthens it again. -/
theorem normalizedPrefix_fixed_of_twice {p q : JavaString} (normal : p = normalizedPrefix q)
    (twice : normalizedPrefix (normalizedPrefix p) = p) : normalizedPrefix p = p := by
  obtain ⟨rest, pEq⟩ := normalizedPrefix_eq_cons q
  rw [← normal] at pEq
  obtain ⟨next, nextEq⟩ := normalizedPrefix_eq_cons p
  have default : normalizedPrefix (text "/dav") = text "/dav" := by decide
  have first := normalizedPrefix_step rest
  have second := normalizedPrefix_step next
  rw [← pEq] at first
  rw [← nextEq, twice] at second
  rcases first with toDefault | shorter | same
  · rw [toDefault, default] at twice
    rw [toDefault, twice]
  · rcases second with atDefault | longer | same
    · rw [atDefault, default]
    · omega
    · have lengths := congrArg List.length same
      omega
  · exact same

/-! ## What the repository stores -/

variable {cases : CaseTables} {json : BackupJson}

/-- What every stored remote has passed or been normalized to. -/
structure Storable (remote : QuarkDavRemote) : Prop where
  name : isBlank remote.name = false
  trimmed : trim remote.name = remote.name
  cookie : isBlank remote.cookie = false
  address : normalizedAddress remote.listenAddress = remote.listenAddress
  port : 1 ≤ remote.port ∧ remote.port ≤ 65535
  ttl : 0 < remote.cacheTtlSeconds

structure Sound (stored : Remotes) : Prop where
  each : ∀ ⦃remote⦄, stored.lookup remote.id = some remote → Storable remote
  apart : ∀ ⦃a b⦄, stored.lookup a.id = some a → stored.lookup b.id = some b → a.id ≠ b.id →
    addressConflict a b = false

theorem storable_normalized {remote : QuarkDavRemote} (name : isBlank remote.name = false)
    (cookie : isBlank remote.cookie = false) : Storable (remote.normalized cases) := by
  constructor
  · simpa using name
  · exact trim_trim remote.name
  · exact cookie
  · exact normalizedAddress_idempotent remote.listenAddress
  · rw [port_normalized]
    omega
  · rw [cacheTtlSeconds_normalized]
    omega

theorem addressConflict_comm (a b : QuarkDavRemote) : addressConflict a b = addressConflict b a := by
  simp only [addressConflict, eq_comm, Bool.or_assoc, Bool.or_comm (isWildcard a.listenAddress)]

theorem Storable.port_normalized {remote : QuarkDavRemote} (storable : Storable remote) :
    (remote.normalized cases).port = remote.port := by
  have bounds := storable.port
  rw [QuarkDav.port_normalized]
  omega

theorem addressConflict_normalized {a b : QuarkDavRemote} (storableA : Storable a)
    (storableB : Storable b) :
    addressConflict (a.normalized cases) (b.normalized cases) = addressConflict a b := by
  simp only [addressConflict, listenAddress_normalized, storableA.address, storableB.address,
    storableA.port_normalized, storableB.port_normalized]

theorem sound_empty : Sound .empty :=
  ⟨fun _ found => by simp at found, fun _ _ found => by simp at found⟩

theorem Sound.put {stored : Remotes} (sound : Sound stored) {remote : QuarkDavRemote}
    (storable : Storable remote)
    (apart : ∀ ⦃other⦄, stored.lookup other.id = some other → other.id ≠ remote.id →
      addressConflict remote other = false) : Sound (stored.put remote) := by
  constructor
  · intro found isFound
    rcases Remotes.lookup_put_eq_some_iff.mp isFound with ⟨_, rfl⟩ | ⟨_, old⟩
    · exact storable
    · exact sound.each old
  · intro a b hasA hasB different
    rcases Remotes.lookup_put_eq_some_iff.mp hasA with ⟨_, rfl⟩ | ⟨otherA, oldA⟩
    · rcases Remotes.lookup_put_eq_some_iff.mp hasB with ⟨same, _⟩ | ⟨otherB, oldB⟩
      · exact absurd same.symm different
      · exact apart oldB otherB
    · rcases Remotes.lookup_put_eq_some_iff.mp hasB with ⟨_, rfl⟩ | ⟨otherB, oldB⟩
      · rw [addressConflict_comm]
        exact apart oldA otherA
      · exact sound.apart oldA oldB different

theorem Sound.save {stored : Remotes} (sound : Sound stored) (remote : QuarkDavRemote) :
    Sound (save cases stored remote).2 := by
  rcases save_stored_cases cases stored remote with kept | ⟨accepted, written⟩
  · rw [kept]
    exact sound
  · rw [written]
    have name : isBlank remote.name = false := by simpa using accepted.name
    refine sound.put (storable_normalized name accepted.cookie) ?_
    intro other isStored different
    rw [addressConflict_comm]
    exact (accepted.distinct isStored different).2

theorem Sound.syncRuntimeCookie {stored : Remotes} (sound : Sound stored)
    (runtime : Table JavaString QuarkDavKernelConfig) (id : JavaString) :
    Sound (syncRuntimeCookie runtime stored id) := by
  rcases syncRuntimeCookie_cases runtime stored id with
    kept | ⟨config, remote, _, isStored, cookie, put⟩
  · rw [kept]
    exact sound
  · rw [put]
    have own : remote.id = id := Remotes.id_of_lookup isStored
    subst own
    have storable := sound.each isStored
    refine sound.put { storable with cookie } ?_
    intro other otherStored different
    have apart : addressConflict remote other = false :=
      sound.apart isStored otherStored (Ne.symm different)
    exact apart

theorem Sound.remove {stored : Remotes} (sound : Sound stored) (id : JavaString) :
    Sound (stored.remove id) := by
  constructor
  · intro remote found
    exact sound.each (Remotes.lookup_remove_eq_some_iff.mp found).2
  · intro a b hasA hasB different
    exact sound.apart (Remotes.lookup_remove_eq_some_iff.mp hasA).2
      (Remotes.lookup_remove_eq_some_iff.mp hasB).2 different

theorem sound_import {content : JavaString} {imported : List QuarkDavRemote}
    (parsed : parseBackup cases json content = .ok imported) : Sound (written imported) := by
  obtain ⟨raw, _, checked, rfl⟩ := parseBackup_iff.mp parsed
  have ids : (raw.map fun remote => remote.normalized cases).Pairwise fun a b => a.id ≠ b.id :=
    List.pairwise_map.mpr checked.ids
  have symmetric : Std.Symm fun a b : QuarkDavRemote => addressConflict a b = false :=
    ⟨fun a b apart => addressConflict_comm a b ▸ apart⟩
  constructor
  · intro remote found
    obtain ⟨original, member, rfl⟩ := List.mem_map.mp ((lookup_written_iff ids).mp found).1
    exact storable_normalized (checked.each original member).name
      (checked.each original member).cookie
  · intro a b hasA hasB different
    have addresses : (raw.map fun remote => remote.normalized cases).Pairwise fun a b =>
        addressConflict a b = false := List.pairwise_map.mpr checked.addresses
    apply addresses.forall ((lookup_written_iff ids).mp hasA).1 ((lookup_written_iff ids).mp hasB).1
    rintro rfl
    exact different rfl

theorem sound_call {dir : Directory} (call : RepositoryCall) (sound : Sound dir.remotes) :
    Sound (callRepository cases json dir call).remotes := by
  cases call with
  | save remote => exact sound.save remote
  | setEnabled id enabled =>
      simp only [callRepository, setEnabled_stored]
      cases get cases dir.remotes id with
      | none => exact sound
      | some current => exact sound.save _
  | rename id newName =>
      simp only [callRepository, rename_stored]
      cases get cases dir.remotes id with
      | none => exact sound
      | some current => exact sound.save _
  | syncRuntimeCookie id => exact sound.syncRuntimeCookie dir.runtime id
  | delete id => exact sound.remove id
  | replaceFromBackup content =>
      simp only [callRepository, replaceFromBackup]
      cases parsed : parseBackup cases json content with
      | error message => exact sound
      | ok imported => exact sound_import parsed
  | kernelSave id config => exact sound

theorem always_sound (cases : CaseTables) (json : BackupJson) (calls : List RepositoryCall) :
    Always (callRepository cases json) (fun dir => Sound dir.remotes) .empty calls :=
  Always.of_preserved (fun _ => sound_call) calls sound_empty

/-! ## Export, then import -/

/-- The JSON library reads this backup back from the object it writes for it. -/
structure BackupJson.Faithful (json : BackupJson) (backup : QuarkDavBackup) : Prop where
  object : (json.encodeBackup backup).head? = some '{'
  decoded : json.decodeBackup (json.encodeBackup backup) = .ok backup

/-- An exported backup is accepted and restores the exported list, and a rejected
one changes nothing. -/
structure BackupLaw (cases : CaseTables) (json : BackupJson) (dir : Directory) : Prop where
  restores : ∀ target, ∃ restored,
    replaceFromBackup cases json target (exportBackup cases json dir) = (.ok (), restored) ∧
      list cases restored.remotes = list cases dir.remotes
  rejects : ∀ content message, parseBackup cases json content = .error message →
    replaceFromBackup cases json dir content = (.error message, dir)

/-- What stands between a stored list and its round trip. -/
structure Restorable (cases : CaseTables) (stored : Remotes) : Prop where
  ids : ∀ ⦃remote⦄, stored.lookup remote.id = some remote → validId remote.id = true
  names : ∀ ⦃a b⦄, stored.lookup a.id = some a → stored.lookup b.id = some b → a.id ≠ b.id →
    cases.lowercase a.name ≠ cases.lowercase b.name
  prefixes : ∀ ⦃remote⦄, remote ∈ list cases stored →
    normalizedPrefix remote.pathPrefix = remote.pathPrefix

theorem importableList_list_iff {stored : Remotes} (sound : Sound stored) :
    ImportableList cases (list cases stored) ↔
      (∀ ⦃remote⦄, stored.lookup remote.id = some remote → validId remote.id = true) ∧
        ∀ ⦃a b⦄, stored.lookup a.id = some a → stored.lookup b.id = some b → a.id ≠ b.id →
          cases.lowercase a.name ≠ cases.lowercase b.name := by
  constructor
  · rintro ⟨each, _, names, _⟩
    constructor
    · intro remote isStored
      exact (each _ (mem_list_iff_file.mpr ⟨remote, isStored, rfl⟩)).id
    · intro a b hasA hasB different
      have symmetric : Std.Symm fun a b : QuarkDavRemote =>
          cases.lowercase (trim a.name) ≠ cases.lowercase (trim b.name) := ⟨fun _ _ => Ne.symm⟩
      have apart := names.forall (mem_list_iff_file.mpr ⟨a, hasA, rfl⟩)
        (mem_list_iff_file.mpr ⟨b, hasB, rfl⟩) fun same => by
          have ids : (a.normalized cases).id = (b.normalized cases).id := congrArg _ same
          exact different ids
      simpa [(sound.each hasA).trimmed, (sound.each hasB).trimmed] using apart
  · rintro ⟨ids, names⟩
    constructor
    · intro remote member
      obtain ⟨file, isStored, rfl⟩ := mem_list_iff_file.mp member
      have storable := sound.each isStored
      have again : Storable (file.normalized cases) :=
        storable_normalized storable.name storable.cookie
      have valid : validId file.id = true := ids isStored
      exact ⟨valid, again.name, again.cookie, again.port, again.ttl⟩
    · exact list_pairwise (fun a b apart => apart.symm) fun a b _ _ different => different
    · apply list_pairwise fun a b apart => apart.symm
      intro a b hasA hasB different
      simpa [(sound.each hasA).trimmed, (sound.each hasB).trimmed] using names hasA hasB different
    · refine list_pairwise (fun a b apart => ?_) fun a b hasA hasB different => ?_
      · rw [addressConflict_comm]
        exact apart
      have storableA := sound.each hasA
      have storableB := sound.each hasB
      rw [addressConflict_normalized (storable_normalized storableA.name storableA.cookie)
        (storable_normalized storableB.name storableB.cookie),
        addressConflict_normalized storableA storableB]
      exact sound.apart hasA hasB different

/-- What the import of an exported backup leaves, where the backup is accepted. -/
theorem list_written_perm (cases : CaseTables) {imported : List QuarkDavRemote}
    (ids : imported.Pairwise fun a b => a.id ≠ b.id) :
    (list cases (written imported)).Perm
      (imported.map fun remote => remote.normalized cases) := by
  have members : (written imported).all.Perm imported := by
    rw [List.perm_ext_iff_of_nodup]
    · intro remote
      rw [Remotes.mem_all_iff, lookup_written_iff ids, and_iff_left rfl]
    · exact (written imported).pairwise_all.imp fun different same => different (congrArg _ same)
    · exact ids.imp fun different same => different (congrArg _ same)
  exact (list_perm _).trans (members.map _)

theorem BackupJson.Faithful.rawRemotes {remotes : List QuarkDavRemote}
    (faithful : json.Faithful { remotes }) :
    rawRemotes json (json.encodeBackup { remotes }) = .ok remotes := by
  obtain ⟨rest, object⟩ := List.head?_eq_some_iff.mp faithful.object
  have noArray : (text "[").isPrefixOf (trimStart (json.encodeBackup { remotes })) = false := by
    rw [object]
    rfl
  simp [QuarkDav.rawRemotes, noArray, faithful.decoded, bind, Except.bind]

theorem replaceFromBackup_exportBackup {dir : Directory}
    (faithful : json.Faithful { remotes := list cases dir.remotes }) (target : Directory)
    (restored : Directory) :
    replaceFromBackup cases json target (exportBackup cases json dir) = (.ok (), restored) ↔
      ImportableList cases (list cases dir.remotes) ∧
        restored = ⟨written ((list cases dir.remotes).map fun remote => remote.normalized cases),
          ∅, ∅⟩ := by
  have raw : rawRemotes json (exportBackup cases json dir) = .ok (list cases dir.remotes) :=
    faithful.rawRemotes
  unfold replaceFromBackup
  cases parsed : parseBackup cases json (exportBackup cases json dir) with
  | error message =>
      simp only [Prod.mk.injEq, reduceCtorEq, false_and, false_iff, not_and]
      intro importable
      have accepted := parseBackup_iff.mpr ⟨_, raw, importable, rfl⟩
      rw [parsed] at accepted
      cases accepted
  | ok imported =>
      obtain ⟨found, foundEq, importable, rfl⟩ := parseBackup_iff.mp parsed
      rw [raw] at foundEq
      cases foundEq
      simp [importable, eq_comm]

/-- Normalizing the list again changes nothing exactly when it changes no prefix. -/
theorem normalized_listed_iff {stored : Remotes} {remote : QuarkDavRemote}
    (member : remote ∈ list cases stored) :
    remote.normalized cases = remote ↔ normalizedPrefix remote.pathPrefix = remote.pathPrefix := by
  obtain ⟨file, _, rfl⟩ := mem_list_iff_file.mp member
  constructor
  · intro fixed
    exact congrArg QuarkDavRemote.pathPrefix fixed
  · intro fixed
    rw [pathPrefix_normalized] at fixed
    rw [normalized_normalized, fixed, ← pathPrefix_normalized cases]

/-- Where an import restores the list, two more normalizations fix every listed remote. -/
theorem normalized_twice_of_restored {stored : Remotes}
    (ids : (list cases stored).Pairwise fun a b => a.id ≠ b.id)
    (same : list cases (written ((list cases stored).map fun remote => remote.normalized cases)) =
      list cases stored) {remote : QuarkDavRemote} (member : remote ∈ list cases stored) :
    (remote.normalized cases).normalized cases = remote := by
  have perm := list_written_perm cases (List.pairwise_map.mpr ids :
    ((list cases stored).map fun remote => remote.normalized cases).Pairwise fun a b => a.id ≠ b.id)
  rw [same] at perm
  have again : (remote.normalized cases).normalized cases ∈ list cases stored := by
    rw [perm.mem_iff]
    exact List.mem_map_of_mem (List.mem_map_of_mem member)
  have stored := mem_list_iff.mp member
  have storedAgain := mem_list_iff.mp again
  exact Option.some.inj (storedAgain.symm.trans stored)

/-- A list that normalization fixes is listed as it is once it has been written. -/
theorem list_written_list {stored : Remotes}
    (settled : ((list cases stored).map fun remote => remote.normalized cases) = list cases stored)
    (ids : (list cases stored).Pairwise fun a b => a.id ≠ b.id)
    (names : (list cases stored).Pairwise fun a b =>
      cases.lowercase a.name ≠ cases.lowercase b.name) :
    list cases (written (list cases stored)) = list cases stored := by
  have perm := list_written_perm cases ids
  rw [settled] at perm
  have files := (list_perm (written (list cases stored))).symm.trans perm
  exact sortedBy_eq_of_perm (files.trans (list_perm stored)) (files.symm.pairwise names Ne.symm)

/-- The exported list is accepted and listed as it was exactly where its ids have the
form that the import asks for, its names differ in lower case, and its listed prefixes
are settled. -/
theorem restored_iff_restorable {stored : Remotes} (sound : Sound stored) :
    ImportableList cases (list cases stored) ∧
        list cases (written ((list cases stored).map fun remote => remote.normalized cases)) =
          list cases stored ↔
      Restorable cases stored := by
  constructor
  · rintro ⟨importable, same⟩
    obtain ⟨ids, names⟩ := (importableList_list_iff sound).mp importable
    refine ⟨ids, names, ?_⟩
    intro remote member
    have twice := normalized_twice_of_restored importable.ids same member
    obtain ⟨file, _, rfl⟩ := mem_list_iff_file.mp member
    have prefixes := congrArg QuarkDavRemote.pathPrefix twice
    rw [pathPrefix_normalized cases (QuarkDavRemote.normalized _ _), pathPrefix_normalized]
      at prefixes
    exact normalizedPrefix_fixed_of_twice (pathPrefix_normalized cases file) prefixes
  · rintro ⟨ids, names, prefixes⟩
    have importable := (importableList_list_iff sound).mpr ⟨ids, names⟩
    have settled : ((list cases stored).map fun remote => remote.normalized cases) =
        list cases stored := by
      refine (List.map_congr_left fun remote member => ?_).trans (List.map_id _)
      exact (normalized_listed_iff member).mpr (prefixes member)
    have apart : (list cases stored).Pairwise fun a b =>
        cases.lowercase a.name ≠ cases.lowercase b.name := by
      apply list_pairwise fun a b apart => apart.symm
      intro a b hasA hasB different
      simpa [(sound.each hasA).trimmed, (sound.each hasB).trimmed] using names hasA hasB different
    refine ⟨importable, ?_⟩
    rw [settled]
    exact list_written_list settled importable.ids apart

/-- What an import has put in place is accepted when it is exported again. -/
theorem importableList_imported {content : JavaString} {imported : List QuarkDavRemote}
    (parsed : parseBackup cases json content = .ok imported) :
    ImportableList cases (list cases (written imported)) := by
  have sound := sound_import parsed
  obtain ⟨raw, _, checked, rfl⟩ := parseBackup_iff.mp parsed
  have ids : (raw.map fun remote => remote.normalized cases).Pairwise fun a b => a.id ≠ b.id :=
    List.pairwise_map.mpr checked.ids
  refine (importableList_list_iff sound).mpr ⟨fun remote found => ?_, fun a b hasA hasB different => ?_⟩
  · obtain ⟨original, member, rfl⟩ := List.mem_map.mp ((lookup_written_iff ids).mp found).1
    exact (checked.each original member).id
  · have symmetric : Std.Symm fun a b : QuarkDavRemote =>
        cases.lowercase a.name ≠ cases.lowercase b.name := ⟨fun _ _ => Ne.symm⟩
    have names : (raw.map fun remote => remote.normalized cases).Pairwise fun a b =>
        cases.lowercase a.name ≠ cases.lowercase b.name := List.pairwise_map.mpr checked.names
    apply names.forall ((lookup_written_iff ids).mp hasA).1 ((lookup_written_iff ids).mp hasB).1
    rintro rfl
    exact different rfl

/-- For every repository that calls can build, a backup restores the stored list
exactly when its ids have the form that the import asks for, its names differ in
lower case, and its listed prefixes are settled. -/
theorem backupLaw_iff (cases : CaseTables) (json : BackupJson) (calls : List RepositoryCall)
    (faithful : json.Faithful
      { remotes := list cases (run (callRepository cases json) .empty calls).remotes }) :
    BackupLaw cases json (run (callRepository cases json) .empty calls) ↔
      Restorable cases (run (callRepository cases json) .empty calls).remotes := by
  have sound := (always_sound cases json calls).last
  generalize run (callRepository cases json) .empty calls = dir at faithful sound ⊢
  rw [← restored_iff_restorable sound]
  constructor
  · rintro ⟨restores, _⟩
    obtain ⟨restored, accepted, same⟩ := restores dir
    obtain ⟨importable, rfl⟩ := (replaceFromBackup_exportBackup faithful dir restored).mp accepted
    exact ⟨importable, same⟩
  · rintro ⟨importable, same⟩
    constructor
    · intro target
      exact ⟨_, (replaceFromBackup_exportBackup faithful target _).mpr ⟨importable, rfl⟩, same⟩
    · intro content message rejected
      rw [replaceFromBackup, rejected]

/-! ## One remote, exported and imported -/

/-- The JSON library at one backup and its text. -/
def jsonOf (content : JavaString) (backup : QuarkDavBackup) : BackupJson where
  encodeBackup _ := content
  decodeBackup read := if read = content then .ok backup else .error []
  decodeRemotes _ := .error []

/-- The text of a backup of one remote that has an id, a name, a cookie and a
prefix, and the defaults otherwise. -/
def backupText (id name cookie davPath : String) : JavaString :=
  List.intercalate ['\n'] (List.map text
    ["\x7b", "    \"schemaVersion\": 1,", "    \"remotes\": [", "        \x7b",
      "            \"id\": \"" ++ id ++ "\",", "            \"name\": \"" ++ name ++ "\",",
      "            \"enabled\": false,", "            \"startAtBoot\": true,",
      "            \"keepCpuAwake\": true,", "            \"listenAddress\": \"127.0.0.1\",",
      "            \"port\": 5244,", "            \"prefix\": \"" ++ davPath ++ "\",",
      "            \"username\": \"quark\",", "            \"password\": \"quark\",",
      "            \"noAuth\": false,", "            \"cacheTtlSeconds\": 15,",
      "            \"tempDir\": \"\",", "            \"cookie\": \"" ++ cookie ++ "\",",
      "            \"rootId\": \"0\",", "            \"brand\": \"quark\",",
      "            \"orderBy\": \"none\",", "            \"orderDirection\": \"asc\",",
      "            \"useTranscodingAddress\": false,", "            \"onlyListVideoFile\": false",
      "        \x7d", "    ]", "\x7d"])

theorem faithful_jsonOf (content : JavaString) (backup : QuarkDavBackup)
    (object : content.head? = some '{') : (jsonOf content backup).Faithful backup :=
  ⟨object, if_pos rfl⟩

theorem backupLaw_iff_plainRemote :
    BackupLaw asciiCase (jsonOf (backupText "1" "a" "k" "/dav") { remotes := [plainRemote] })
      (run (callRepository asciiCase
        (jsonOf (backupText "1" "a" "k" "/dav") { remotes := [plainRemote] })) .empty
          [.save plainRemote]) := by
  have faithful := faithful_jsonOf (backupText "1" "a" "k" "/dav") { remotes := [plainRemote] }
    (by decide)
  have stored : (run (callRepository asciiCase
      (jsonOf (backupText "1" "a" "k" "/dav") { remotes := [plainRemote] })) .empty
        [.save plainRemote]).remotes = Remotes.empty.put plainRemote :=
    Remotes.ext (AList.ext (by decide))
  have only : ∀ ⦃id remote⦄, (Remotes.empty.put plainRemote).lookup id = some remote →
      plainRemote = remote := by
    intro id remote found
    rcases Remotes.lookup_put_eq_some_iff.mp found with ⟨_, same⟩ | ⟨_, absent⟩
    · exact same
    · cases absent
  refine (backupLaw_iff asciiCase _ [.save plainRemote] ?_).mpr ?_
  · rw [stored]
    exact faithful
  · rw [stored]
    constructor
    · intro remote found
      rw [← only found]
      decide
    · intro a b hasA hasB different
      exact absurd (congrArg _ ((only hasA).symm.trans (only hasB))) different
    · intro remote member
      obtain ⟨file, found, rfl⟩ := mem_list_iff_file.mp member
      rw [← only found]
      decide

/-- A prefix that is saved as `/a / / `, listed and exported as `/a / `, imported
as `/a ` and then listed as `/a`. -/
def spacedPrefix : QuarkDavRemote :=
  { plainRemote with pathPrefix := text "a / / /" }

def spacedPrefixListed : QuarkDavRemote :=
  { plainRemote with pathPrefix := text "/a / " }

def spacedPrefixJson : BackupJson :=
  jsonOf (backupText "1" "a" "k" "/a / ") { remotes := [spacedPrefixListed] }

theorem spacedPrefix_notRestored :
    spacedPrefixJson.Faithful
        { remotes := (list asciiCase
            (run (callRepository asciiCase spacedPrefixJson) .empty [.save spacedPrefix]).remotes) } ∧
      ¬BackupLaw asciiCase spacedPrefixJson
        (run (callRepository asciiCase spacedPrefixJson) .empty [.save spacedPrefix]) := by
  have listed : list asciiCase
      (run (callRepository asciiCase spacedPrefixJson) .empty [.save spacedPrefix]).remotes =
        [spacedPrefixListed] := by
    decide
  have faithful : spacedPrefixJson.Faithful { remotes := [spacedPrefixListed] } :=
    faithful_jsonOf (backupText "1" "a" "k" "/a / ") _ (by decide)
  rw [← listed] at faithful
  refine ⟨faithful, fun law => ?_⟩
  obtain ⟨restored, accepted, same⟩ := law.restores .empty
  obtain ⟨_, rfl⟩ := (replaceFromBackup_exportBackup faithful .empty restored).mp accepted
  rw [listed] at same
  exact absurd same (by decide)

end RoundSync.QuarkDav
