import RoundSync.Rclone.RemoteItems

/-!
# Chains of wrapping remotes

rclone opens a wrapping remote by opening what its `remote` refers to, and so
on to a storage.  The list of remotes follows the same chain without rclone.
Here the two are compared on every chain that rclone opens.
-/

namespace RoundSync.Rclone.Listing

open RoundSync.Data
open RoundSync.Text
open RemoteReferenceParser

/-! ## What rclone opens -/

/-- The names under which `Find` knows the backends. -/
def backendNames : List String :=
  ["alias", "archive", "azureblob", "azurefiles", "b2", "box", "cache", "chunker", "cloudinary",
    "combine", "compress", "crypt", "doi", "drime", "drive", "dropbox", "fichier", "filefabric",
    "filelu", "filen", "filescom", "ftp", "gofile", "google cloud storage", "gcs",
    "googlecloudstorage", "google photos", "gphotos", "googlephotos", "hasher", "hdfs", "hidrive",
    "http", "huaweidrive", "iclouddrive", "imagekit", "internetarchive", "internxt", "jottacloud",
    "koofr", "linkbox", "local", "mailru", "mega", "memory", "netstorage", "onedrive", "opendrive",
    "oracleobjectstorage", "oos", "pcloud", "pikpak", "pixeldrain", "premiumizeme", "protondrive",
    "putio", "qingstor", "quatrix", "s3", "seafile", "sftp", "shade", "sharefile", "sia", "smb",
    "storj", "tardigrade", "sugarsync", "swift", "ulozto", "union", "webdav", "yandex", "zoho"]

/-- `Find`. -/
def find (name : FsText) : Bool :=
  name ∈ backendNames.map String.toList

/-- `ConfigMap` without flags and environment: a value of the connection string,
or else of the config file. -/
def configMap (dump : ConfigDump) (configName : FsText) (connection : Option (Table FsText FsText))
    (key : String) : Option FsText :=
  (connection.bind (·.lookup key.toList)).or
    ((dump.lookup configName).bind (·.lookup key.toList))

/-- What `ParseRemote` takes from a reference. -/
structure Opened where
  configName : FsText
  connection : Option (Table FsText FsText)
  fsName : FsText

/-- The backend that a name stands for. -/
def fsNameOf (dump : ConfigDump) (configName : FsText)
    (connection : Option (Table FsText FsText)) : Option FsText :=
  match configName with
  | [] => some "local".toList
  | ':' :: backend => some backend
  | _ => configMap dump configName connection "type"

def parseRemote (classes : UnicodeClasses) (dump : ConfigDump) (path : FsText) : Option Opened :=
  match parse classes path with
  | .error _ => none
  | .ok parsed =>
      (fsNameOf dump parsed.name parsed.config).bind fun fsName =>
        if find fsName then some ⟨parsed.name, parsed.config, fsName⟩ else none

namespace Opened

/-- A section of the config file, no path and no backend in the reference. -/
def IsSection (o : Opened) : Prop :=
  o.configName ≠ [] ∧ o.configName.head? ≠ some ':'

instance (o : Opened) : Decidable o.IsSection :=
  inferInstanceAs (Decidable (_ ∧ _))

def remote (dump : ConfigDump) (o : Opened) : Option FsText :=
  configMap dump o.configName o.connection "remote"

/-- The connection string changes neither the backend nor where it leads. -/
structure Stored (dump : ConfigDump) (o : Opened) : Prop where
  fsName : configMap dump o.configName none "type" = some o.fsName
  remote : Wrapper.ofType o.fsName ≠ none →
    configMap dump o.configName none "remote" = o.remote dump

end Opened

/-- A wrapping remote, its reference and what rclone opens for it. -/
structure Hop where
  wrapper : Wrapper
  target : FsText
  next : Opened

/-- rclone comes from `o` through wrapping remotes to a storage. -/
inductive Chain (classes : UnicodeClasses) (dump : ConfigDump) : Opened → List Hop → Opened → Prop
  | storage {o : Opened} (notWrapper : Wrapper.ofType o.fsName = none) : Chain classes dump o [] o
  | wrapper {o next last : Opened} {wrapper : Wrapper} {target : FsText} {hops : List Hop}
      (wraps : Wrapper.ofType o.fsName = some wrapper) (refers : o.remote dump = some target)
      (opens : parseRemote classes dump target = some next)
      (rest : Chain classes dump next hops last) :
      Chain classes dump o (⟨wrapper, target, next⟩ :: hops) last

/-- The sections of a chain. -/
def sections (o : Opened) (hops : List Hop) : List Opened :=
  (o :: hops.map Hop.next).filter (·.IsSection)

/-- The storage is a path of the device. -/
def Opened.IsLocalPath (o : Opened) : Prop :=
  o.fsName = "local".toList ∧ ¬o.IsSection

instance (o : Opened) : Decidable o.IsLocalPath :=
  inferInstanceAs (Decidable (_ ∧ _))

theorem trim_trim (s : JavaString) : trim (trim s) = trim s := by
  have ends : ∀ s : JavaString, (trim s).rdropWhile isTrimmed = trim s :=
    fun s => List.rdropWhile_idempotent _ _
  have starts : (trim s).dropWhile isTrimmed = trim s := by
    rw [List.dropWhile_eq_self_iff]
    intro nonempty
    have front : trim s <+: s.dropWhile isTrimmed := List.rdropWhile_prefix _ _
    have longer : 0 < (s.dropWhile isTrimmed).length := Nat.lt_of_lt_of_le nonempty front.length_le
    rw [front.getElem nonempty]
    exact List.dropWhile_get_zero_not isTrimmed s longer
  rw [trim, starts, ends]

variable {classes : UnicodeClasses} {dump : ConfigDump}

/-- What rclone opens behind a wrapping remote depends on the backend and the
reference only. -/
theorem Chain.length_eq {o o' last last' : Opened} {hops hops' : List Hop}
    (first : Chain classes dump o hops last) (second : Chain classes dump o' hops' last')
    (fsName : o.fsName = o'.fsName)
    (remote : Wrapper.ofType o.fsName ≠ none → o.remote dump = o'.remote dump) :
    hops.length = hops'.length := by
  induction first generalizing o' hops' last' with
  | storage notWrapper =>
      cases second with
      | storage _ => rfl
      | wrapper wraps refers opens rest =>
          rw [fsName, wraps] at notWrapper
          contradiction
  | wrapper wraps refers opens rest ih =>
      cases second with
      | storage notWrapper =>
          rw [fsName, notWrapper] at wraps
          contradiction
      | wrapper wraps' refers' opens' rest' =>
          have sameTarget := remote (by simp [wraps])
          rw [refers, refers', Option.some.injEq] at sameTarget
          rw [sameTarget, opens', Option.some.injEq] at opens
          subst opens
          exact congrArg (· + 1) (ih rest' rfl fun _ => rfl)

/-- The names of sections from which the chain is longer. -/
def Longer (classes : UnicodeClasses) (dump : ConfigDump) (visited : List FsText)
    (length : Nat) : Prop :=
  ∀ name ∈ visited, ∃ o hops last, o.configName = name ∧ o.Stored dump ∧
    Chain classes dump o hops last ∧ length < hops.length

/-- A chain never comes back to a section. -/
theorem Longer.notMem {visited : List FsText} {o last : Opened} {hops : List Hop}
    (longer : Longer classes dump visited hops.length) (chain : Chain classes dump o hops last)
    (stored : o.Stored dump) : o.configName ∉ visited := by
  intro member
  obtain ⟨o', hops', last', nameEq, stored', chain', more⟩ := longer _ member
  have fsName : o.fsName = o'.fsName := by
    have same := stored.fsName
    rw [← nameEq, stored'.fsName] at same
    exact (Option.some.inj same).symm
  have sameLength := chain.length_eq chain' fsName fun wraps => by
    rw [← stored.remote wraps, ← stored'.remote (fsName ▸ wraps), nameEq]
  omega

theorem Longer.cons {visited : List FsText} {o last : Opened} {hop : Hop} {hops : List Hop}
    (longer : Longer classes dump visited (hop :: hops).length)
    (chain : Chain classes dump o (hop :: hops) last) (stored : o.Stored dump) :
    Longer classes dump (o.configName :: visited) hops.length := by
  intro name member
  rcases List.mem_cons.mp member with rfl | member
  · exact ⟨o, hop :: hops, last, rfl, stored, chain, Nat.lt_succ_self _⟩
  · obtain ⟨o', hops', last', nameEq, stored', chain', more⟩ := longer name member
    exact ⟨o', hops', last', nameEq, stored', chain', Nat.lt_of_succ_lt more⟩

/-! ## How the list reads a chain -/

/-- What becomes of an item along a chain, for so many sections.  Where a
connection string changes a section the list leaves the chain. -/
inductive Reads (classes : UnicodeClasses) (dump : ConfigDump) (last : Opened) :
    Nat → RemoteItem → List Hop → RemoteItem → Prop
  | exhausted {item : RemoteItem} {hops : List Hop} : Reads classes dump last 0 item hops item
  | storage {n : Nat} {item : RemoteItem} :
      Reads classes dump last (n + 1) item [] (item.setType last.fsName)
  | blank {n : Nat} {item : RemoteItem} {hop : Hop} {hops : List Hop}
      (isBlank : trim hop.target = []) :
      Reads classes dump last (n + 1) item (hop :: hops) (item.mark hop.wrapper)
  | drive {n : Nat} {item : RemoteItem} {hop : Hop} {hops : List Hop}
      (isDrive : isDrive classes hop.target = true) :
      Reads classes dump last (n + 1) item (hop :: hops) (item.mark hop.wrapper).setLocalPath
  | path {n : Nat} {item : RemoteItem} {hop : Hop} {hops : List Hop}
      (notBlank : trim hop.target ≠ []) (noDrive : isDrive classes hop.target = false)
      (isPath : hop.next.configName = []) :
      Reads classes dump last (n + 1) item (hop :: hops) (item.mark hop.wrapper).setLocalPath
  | inline {n : Nat} {item : RemoteItem} {hop : Hop} {hops : List Hop}
      (notBlank : trim hop.target ≠ []) (noDrive : isDrive classes hop.target = false)
      (isInline : hop.next.configName.head? = some ':') :
      Reads classes dump last (n + 1) item (hop :: hops)
        (applyInlineRemoteType (item.mark hop.wrapper) hop.next.fsName)
  | through {n : Nat} {item result : RemoteItem} {hop : Hop} {hops : List Hop}
      (notBlank : trim hop.target ≠ []) (noDrive : isDrive classes hop.target = false)
      (isSection : hop.next.IsSection) (stored : hop.next.Stored dump)
      (rest : Reads classes dump last n (item.mark hop.wrapper) hops result) :
      Reads classes dump last (n + 1) item (hop :: hops) result

section Target

variable {recur : RemoteItem → JavaString → RemoteItem} {values : ConfigSection}
  {target : FsText} (refers : values.lookup "remote".toList = some target) (item : RemoteItem)
include refers

end Target

/-- The list and rclone take the reference alike. -/
structure Hop.Alike (classes : UnicodeClasses) (dump : ConfigDump) (hop : Hop) : Prop where
  notBlank : trim hop.target ≠ []
  noDrive : isDrive classes hop.target = false
  stored : hop.next.IsSection → hop.next.Stored dump
  ends : ¬hop.next.IsSection → Wrapper.ofType hop.next.fsName = none

/-- The list takes nothing from the reference: it is blank, or a wrapping
backend without a section. -/
def Hop.StopsShort (classes : UnicodeClasses) (hop : Hop) : Prop :=
  trim hop.target = [] ∨ isDrive classes hop.target = false ∧ ¬hop.next.IsSection ∧
    Wrapper.ofType hop.next.fsName ≠ none

/-- The references are taken alike up to one, if there is one, that has the form
of a path on a drive, while the chain does end at a path of the device and has
no other wrappers behind it than before. -/
def ReadsRight (classes : UnicodeClasses) (dump : ConfigDump) (last : Opened) :
    List Wrapper → List Hop → Prop
  | _, [] => True
  | seen, hop :: hops =>
      hop.Alike classes dump ∧ ReadsRight classes dump last (hop.wrapper :: seen) hops ∨
        isDrive classes hop.target = true ∧ last.IsLocalPath ∧
          ∀ later ∈ hops, later.wrapper ∈ hop.wrapper :: seen

/-- The first reference that is not taken alike, among so many, is one from
which the list takes nothing. -/
def NeverLocal (classes : UnicodeClasses) (dump : ConfigDump) : Nat → List Hop → Prop
  | 0, _ => True
  | _ + 1, [] => True
  | n + 1, hop :: hops =>
      hop.Alike classes dump ∧ NeverLocal classes dump n hops ∨ hop.StopsShort classes

section Short

variable {o last : Opened} {hops : List Hop} {seen : List Wrapper} {item : RemoteItem} {n : Nat}

end Short

/-! ## Local storages -/

section Remote

variable {o last : Opened} {hops : List Hop} {item result : RemoteItem} {n : Nat}

end Remote

/-! ## The list and rclone -/

/-- The references of a chain are of the kinds that the list understands. -/
structure Understood (classes : UnicodeClasses) (dump : ConfigDump) (o : Opened) (hops : List Hop)
    (last : Opened) : Prop where
  reached : (sections o hops).length ≤ 9 → ReadsRight classes dump last [] hops
  notLocal : last.fsName ≠ "local".toList → NeverLocal classes dump 9 hops

def photos : Opened :=
  ⟨"photos".toList, none, "alias".toList⟩

def server (name : String) : Opened :=
  ⟨name.toList, none, "sftp".toList⟩

end RoundSync.Rclone.Listing
