import RoundSync.Safdav.AddressedDocuments
import RoundSync.Safdav.DocumentTrees
import RoundSync.Safdav.MappedPaths

/-!
# Moves

The request MOVE on the Android storage provider.  The destination is taken from
a header as it was sent.  A move within one directory is a rename to the last
name of the destination, any other one keeps the name of the document.  Both are
one call of the provider, which moves the whole subtree or refuses.
-/

namespace RoundSync.Safdav

open RoundSync.Text RoundSync.Text.Kotlin RoundSync.Text.AndroidUri RoundSync.Transition
  RoundSync.Tree

def SAF_REMOTE_URL : JavaString :=
  text "http://localhost:40404/"

/-! ## The provider -/

/-- The volumes of the provider, each with its documents: the first name of a
place is the volume. -/
abbrev Storage := DocumentTree

/-- The place of a document id, in which doubled slashes do not count. -/
def placeOf (documentId : JavaString) : Option (List JavaString) :=
  (cutAfter ':' documentId).map fun (volume, path) =>
    volume.dropLast :: (path.splitOn '/').filter (· ≠ [])

/-- Move a document with all below it; an occupied or missing place is refused. -/
def relocate (storage : Storage) (source place : List JavaString) (name : JavaString) :
    Except Failure Storage :=
  if possible : source ≠ [] ∧ (storage.lookup source).isSome = true ∧ storage.IsInner place ∧
      ¬source <+: place ∧ storage.lookup (place ++ [name]) = none then
    .ok (storage.graft source place name possible.1 possible.2.2.1 possible.2.2.2.1
      possible.2.2.2.2)
  else .error .illegalState

section

variable (malformedLength : List UInt8 → Nat) (refuses : ProviderCall → Bool)

/-- The place of the document that a URI leads to. -/
def placeOfUri (uriString : JavaString) : Option (List JavaString) :=
  (getDocumentId malformedLength uriString).bind placeOf

/-- A call that moves something, unless the provider refuses it. -/
def perform (storage : Storage) (call : ProviderCall) : Except Failure Storage :=
  if refuses call then .error .illegalState
  else
    match call with
    | .renameDocument document displayName =>
        match placeOfUri malformedLength document with
        | some source => relocate storage source source.dropLast displayName
        | none => .error .itemNotFound
    | .moveDocument document _ targetParent =>
        match placeOfUri malformedLength document, placeOfUri malformedLength targetParent with
        | some source, some place => relocate storage source place (source.getLast?.getD [])
        | _, _ => .error .itemNotFound
    | _ => .ok storage

/-- Whether `readMeta` finds an item. -/
def itemExists (storage : Storage) (uri : ContentUri) : Except Failure Bool := do
  let call ← readMeta uri
  return ((placeOfUri malformedLength call.document).bind storage.lookup).isSome

/-! ## The request -/

variable (permissions : List Permission) (permissionsByPath : NameTable)

def onMove (storage : Storage) (path : JavaString) (noOverwrite : Bool)
    (destination : Option JavaString) : Except Failure Response × Storage :=
  match getUriByMappedPath permissions permissionsByPath path with
  | .error failure => (.error failure, storage)
  | .ok src =>
      match destination with
      | none => (.ok .badRequest, storage)
      | some destination =>
          if destination.length < SAF_REMOTE_URL.length - 1 then
            (.error .stringIndexOutOfBounds, storage)
          else
            match getUriByMappedPath permissions permissionsByPath
                (destination.drop (SAF_REMOTE_URL.length - 1)) with
            | .error failure => (.error failure, storage)
            | .ok dst =>
                match itemExists malformedLength storage dst with
                | .error failure => (.error failure, storage)
                | .ok exists_ =>
                    if noOverwrite && exists_ then (.ok .preconditionFailed, storage)
                    else
                      match moveItem src dst >>= perform malformedLength refuses storage with
                      | .error failure => (.error failure, storage)
                      | .ok moved => (.ok (if exists_ then .noContent else .created), moved)

end

/-! ## What a move asks for -/

section

variable {malformedLength : List UInt8 → Nat} {refuses : ProviderCall → Bool}

/-- The provider can move the document, and does. -/
structure Accepts (refuses : ProviderCall → Bool) (storage : Storage) (call : ProviderCall)
    (source place : List JavaString) (name : JavaString) : Prop where
  willing : refuses call = false
  nonroot : source ≠ []
  found : (storage.lookup source).isSome = true
  parent : storage.IsInner place
  outside : ¬source <+: place
  free : storage.lookup (place ++ [name]) = none

theorem relocate_eq_ok_iff {storage moved : Storage} {source place : List JavaString}
    {name : JavaString} :
    relocate storage source place name = .ok moved ↔
      ∃ (nonroot : source ≠ []) (parent : storage.IsInner place) (outside : ¬source <+: place)
        (free : storage.lookup (place ++ [name]) = none),
        (storage.lookup source).isSome = true ∧
          moved = storage.graft source place name nonroot parent outside free := by
  rw [relocate]
  split
  case isTrue possible =>
    constructor
    · intro done
      exact ⟨possible.1, possible.2.2.1, possible.2.2.2.1, possible.2.2.2.2, possible.2.1,
        (Except.ok.inj done).symm⟩
    · rintro ⟨_, _, _, _, -, rfl⟩
      rfl
  case isFalse impossible =>
    constructor
    · intro done
      cases done
    · rintro ⟨nonroot, parent, outside, free, found, -⟩
      exact absurd ⟨nonroot, found, parent, outside, free⟩ impossible

theorem perform_rename_iff {storage moved : Storage} {document displayName : JavaString} :
    perform malformedLength refuses storage (.renameDocument document displayName) = .ok moved ↔
      refuses (.renameDocument document displayName) = false ∧
        ∃ source, placeOfUri malformedLength document = some source ∧
          relocate storage source source.dropLast displayName = .ok moved := by
  rw [perform]
  cases refuses (.renameDocument document displayName) with
  | true => simp
  | false =>
      cases placeOfUri malformedLength document with
      | none => simp
      | some source => simp

theorem perform_move_iff {storage moved : Storage} {document sourceParent targetParent : JavaString} :
    perform malformedLength refuses storage
        (.moveDocument document sourceParent targetParent) = .ok moved ↔
      refuses (.moveDocument document sourceParent targetParent) = false ∧
        ∃ source place, placeOfUri malformedLength document = some source ∧
          placeOfUri malformedLength targetParent = some place ∧
          relocate storage source place (source.getLast?.getD []) = .ok moved := by
  rw [perform]
  cases refuses (.moveDocument document sourceParent targetParent) with
  | true => simp
  | false =>
      cases placeOfUri malformedLength document with
      | none => simp
      | some source =>
          cases placeOfUri malformedLength targetParent with
          | none => simp
          | some place => simp

/-- A move is a rename to the last name of the target or a move that keeps the
name. -/
theorem moveItem_cases {src dst : ContentUri} {call : ProviderCall}
    (called : moveItem src dst = .ok call) :
    (∃ document, call = .renameDocument document (getDisplayName dst)) ∨
      ∃ document sourceParent targetParent,
        call = .moveDocument document sourceParent targetParent := by
  obtain ⟨document, -, rest⟩ := exists_of_bind_eq_ok called
  obtain ⟨sourceParent, -, rest⟩ := exists_of_bind_eq_ok rest
  obtain ⟨targetParent, -, rest⟩ := exists_of_bind_eq_ok rest
  split at rest
  · obtain ⟨renamed, -, done⟩ := exists_of_bind_eq_ok rest
    exact .inl ⟨renamed, (Except.ok.inj done).symm⟩
  · exact .inr ⟨document, sourceParent, targetParent, (Except.ok.inj rest).symm⟩

end

/-! ## Requests with a source and a destination -/

/-- A path as it is listed: the name of a permission, and names below it. -/
structure MappedPath (permissionsByPath : NameTable) where
  name : JavaString
  permission : Permission
  listed : permissionsByPath.lookup name = some permission
  child : ChildPath

namespace MappedPath

variable {permissionsByPath : NameTable} (path : MappedPath permissionsByPath)

def requestPath : JavaString :=
  '/' :: path.name ++ '/' :: joined path.child.val

/-- The document that is meant. -/
def place : List JavaString :=
  path.permission.volume.val ::
    (path.permission.names ++ path.child.val).map Subtype.val

def lastName : JavaString :=
  path.place.getLast?.getD []

theorem place_ne_nil : path.place ≠ [] :=
  List.cons_ne_nil _ _

theorem place_eq : path.place = path.place.dropLast ++ [path.lastName] := by
  rw [lastName, List.getLast?_eq_some_getLast path.place_ne_nil, Option.getD_some,
    List.dropLast_append_getLast]

end MappedPath

/-- A request to move, whose header is the destination in some encoding. -/
structure MoveRequest (malformedLength : List UInt8 → Nat) (permissionsByPath : NameTable) where
  source : MappedPath permissionsByPath
  target : MappedPath permissionsByPath
  header : JavaString
  decodes : decode malformedLength header = target.requestPath
  noOverwrite : Bool

section

variable {malformedLength : List UInt8 → Nat} {permissionsByPath : NameTable}
  (refuses : ProviderCall → Bool) (permissions : List Permission) (storage : Storage)
  (request : MoveRequest malformedLength permissionsByPath)

/-- The answer to the request, and what is stored then. -/
def MoveRequest.answer : Except Failure Response × Storage :=
  onMove malformedLength refuses permissions permissionsByPath storage request.source.requestPath
    request.noOverwrite (some (SAF_REMOTE_URL.dropLast ++ request.header))

/-- Both paths are resolved, no item forbids the move, and it is this call. -/
structure Commands (src dst : ContentUri) (call : ProviderCall) : Prop where
  source : getUriByMappedPath permissions permissionsByPath request.source.requestPath = .ok src
  target : getUriByMappedPath permissions permissionsByPath request.header = .ok dst
  allowed : ∃ exists_, itemExists malformedLength storage dst = .ok exists_ ∧
    (request.noOverwrite && exists_) = false
  moves : moveItem src dst = .ok call

/-- The path in the header is what follows the address of the server. -/
theorem destination_eq :
    ¬(SAF_REMOTE_URL.dropLast ++ request.header).length < SAF_REMOTE_URL.length - 1 ∧
      (SAF_REMOTE_URL.dropLast ++ request.header).drop (SAF_REMOTE_URL.length - 1) =
        request.header := by
  constructor
  · rw [List.length_append, List.length_dropLast]
    exact Nat.not_lt.mpr (Nat.le_add_right _ _)
  · rw [← List.length_dropLast]
    exact List.drop_left

theorem answer_succeeds_iff {moved : Storage} :
    (∃ response, request.answer refuses permissions storage = (.ok response, moved) ∧
      (response = .noContent ∨ response = .created)) ↔
      ∃ src dst call, Commands permissions storage request src dst call ∧
        perform malformedLength refuses storage call = .ok moved := by
  obtain ⟨long, path⟩ := destination_eq request
  rw [MoveRequest.answer, onMove]
  constructor
  · rintro ⟨response, answered, success⟩
    cases sourceEq : getUriByMappedPath permissions permissionsByPath
        request.source.requestPath with
    | error failure => simp [sourceEq] at answered
    | ok src =>
        cases targetEq : getUriByMappedPath permissions permissionsByPath request.header with
        | error failure =>
            simp only [sourceEq, if_neg long, path, targetEq, Prod.mk.injEq, reduceCtorEq,
              false_and] at answered
        | ok dst =>
            cases existsEq : itemExists malformedLength storage dst with
            | error failure =>
                simp only [sourceEq, if_neg long, path, targetEq, existsEq, Prod.mk.injEq,
                  reduceCtorEq, false_and] at answered
            | ok exists_ =>
                simp only [sourceEq, if_neg long, path, targetEq, existsEq] at answered
                cases forbidden : request.noOverwrite && exists_ with
                | true =>
                    rw [if_pos forbidden] at answered
                    rw [← Except.ok.inj (Prod.mk.inj answered).1] at success
                    simp at success
                | false =>
                    rw [if_neg (by simp [forbidden])] at answered
                    cases done : moveItem src dst >>=
                        perform malformedLength refuses storage with
                    | error failure => simp [done] at answered
                    | ok left =>
                        simp only [done, Prod.mk.injEq] at answered
                        obtain ⟨call, moves, performed⟩ := exists_of_bind_eq_ok done
                        rw [answered.2] at performed
                        exact ⟨src, dst, call,
                          ⟨sourceEq, targetEq, ⟨exists_, existsEq, forbidden⟩, moves⟩, performed⟩
  · rintro ⟨src, dst, call, ⟨sourceEq, targetEq, ⟨exists_, existsEq, allowed⟩, moves⟩, performed⟩
    have done : moveItem src dst >>= perform malformedLength refuses storage = .ok moved := by
      rw [moves]
      exact performed
    refine ⟨if exists_ then .noContent else .created, ?_, by cases exists_ <;> simp⟩
    simp only [sourceEq, if_neg long, path, targetEq, existsEq, done, allowed]
    simp

/-! ## Where the item arrives -/

/-- On a destination that is free in an existing directory: if the request succeeds,
the item has moved there with its whole subtree, and nothing else has changed. -/
def MovesToDestination : Prop :=
  request.source.place ≠ request.target.place →
    storage.IsInner request.target.place.dropLast →
    storage.lookup request.target.place = none →
    ∀ response moved, request.answer refuses permissions storage = (.ok response, moved) →
      (response = .noContent ∨ response = .created) →
      ∀ place, moved.lookup place =
        storage.movedLookup request.source.place request.target.place place

/-- Whenever the provider accepts the call, the source path has led to its document,
and a rename finds both in one directory and the last name of the header as it
was sent to be that of the destination, any other move the directory of the
destination and a name that does not change. -/
structure Straight : Prop where
  renames : ∀ src dst document source,
    Commands permissions storage request src dst (.renameDocument document (getDisplayName dst)) →
    placeOfUri malformedLength document = some source →
    Accepts refuses storage (.renameDocument document (getDisplayName dst)) source source.dropLast
      (getDisplayName dst) →
    source = request.source.place ∧
      request.source.place.dropLast = request.target.place.dropLast ∧
      getDisplayName dst = request.target.lastName
  moves : ∀ src dst document sourceParent targetParent source place,
    Commands permissions storage request src dst
      (.moveDocument document sourceParent targetParent) →
    placeOfUri malformedLength document = some source →
    placeOfUri malformedLength targetParent = some place →
    Accepts refuses storage (.moveDocument document sourceParent targetParent) source place
      (source.getLast?.getD []) →
    source = request.source.place ∧ place = request.target.place.dropLast ∧
      request.source.lastName = request.target.lastName

variable {refuses permissions storage request}

theorem Accepts.relocated {call : ProviderCall} {source place : List JavaString}
    {name : JavaString} (accepts : Accepts refuses storage call source place name) :
    relocate storage source place name =
      .ok (storage.graft source place name accepts.nonroot accepts.parent accepts.outside
        accepts.free) :=
  relocate_eq_ok_iff.mpr ⟨accepts.nonroot, accepts.parent, accepts.outside, accepts.free,
    accepts.found, rfl⟩

/-- A document that has arrived at the destination came from the source and was
put into the directory of the destination, under its name. -/
theorem Accepts.addressed {call : ProviderCall} {source place : List JavaString}
    {name : JavaString} (accepts : Accepts refuses storage call source place name)
    (vacant : storage.lookup request.target.place = none)
    (moved : ∀ other, (storage.graft source place name accepts.nonroot accepts.parent
      accepts.outside accepts.free).lookup other =
        storage.movedLookup request.source.place request.target.place other) :
    source = request.source.place ∧ place = request.target.place.dropLast ∧
      name = request.target.lastName := by
  obtain ⟨document, found⟩ := Option.isSome_iff_exists.mp accepts.found
  obtain ⟨same, target⟩ := PathTree.graft_unique vacant found moved
  rw [request.target.place_eq] at target
  obtain ⟨directory, last⟩ := List.append_inj' target rfl
  exact ⟨same, directory, List.singleton_inj.mp last⟩

theorem straight_of_arrives (arrives : MovesToDestination refuses permissions storage request)
    (different : request.source.place ≠ request.target.place)
    (inner : storage.IsInner request.target.place.dropLast)
    (vacant : storage.lookup request.target.place = none) :
    Straight refuses permissions storage request := by
  have left : ∀ {src dst call moved}, Commands permissions storage request src dst call →
      perform malformedLength refuses storage call = .ok moved →
      ∀ place, moved.lookup place =
        storage.movedLookup request.source.place request.target.place place := by
    intro src dst call moved commands performed
    obtain ⟨response, answered, success⟩ :=
      (answer_succeeds_iff refuses permissions storage request).mpr
        ⟨src, dst, call, commands, performed⟩
    exact arrives different inner vacant response moved answered success
  constructor
  · intro src dst document source commands placed accepts
    have performed := perform_rename_iff.mpr
      ⟨accepts.willing, source, placed, accepts.relocated⟩
    obtain ⟨same, directory, last⟩ := accepts.addressed vacant (left commands performed)
    rw [← same, directory]
    exact ⟨rfl, rfl, last⟩
  · intro src dst document sourceParent targetParent source place commands placed parentPlaced
      accepts
    have performed := perform_move_iff.mpr
      ⟨accepts.willing, source, place, placed, parentPlaced, accepts.relocated⟩
    obtain ⟨same, directory, last⟩ := accepts.addressed vacant (left commands performed)
    rw [same] at last
    exact ⟨same, directory, last⟩

/-- For every tree, every source and every destination in every encoding: a
successful move ends at the destination exactly when it is straight. -/
theorem moves_to_destination_iff :
    MovesToDestination refuses permissions storage request ↔
      (request.source.place ≠ request.target.place →
        storage.IsInner request.target.place.dropLast →
        storage.lookup request.target.place = none →
        Straight refuses permissions storage request) := by
  constructor
  · exact straight_of_arrives
  · intro straight different inner vacant response moved answered success
    obtain ⟨src, dst, call, commands, performed⟩ :=
      (answer_succeeds_iff refuses permissions storage request).mp ⟨response, answered, success⟩
    have straight := straight different inner vacant
    rcases moveItem_cases commands.moves with
      ⟨document, rfl⟩ | ⟨document, sourceParent, targetParent, rfl⟩
    · obtain ⟨willing, source, placed, relocated⟩ := perform_rename_iff.mp performed
      obtain ⟨nonroot, parent, outside, free, found, rfl⟩ := relocate_eq_ok_iff.mp relocated
      obtain ⟨same, directory, last⟩ := straight.renames src dst document source commands placed
        ⟨willing, nonroot, found, parent, outside, free⟩
      intro other
      rw [PathTree.lookup_graft, last, same, directory, ← request.target.place_eq]
    · obtain ⟨willing, source, place, placed, parentPlaced, relocated⟩ :=
        perform_move_iff.mp performed
      obtain ⟨nonroot, parent, outside, free, found, rfl⟩ := relocate_eq_ok_iff.mp relocated
      obtain ⟨same, directory, last⟩ := straight.moves src dst document sourceParent targetParent
        source place commands placed parentPlaced
        ⟨willing, nonroot, found, parent, outside, free⟩
      intro other
      rw [PathTree.lookup_graft, same, directory]
      have name : request.source.place.getLast?.getD [] = request.target.lastName := last
      rw [name, ← request.target.place_eq]

end

/-! ## Paths below a volume -/

theorem rooted_eq_joined {names : List Name} (more : names ≠ []) :
    rooted '/' (names.map Subtype.val) = '/' :: joined names := by
  induction names with
  | nil => contradiction
  | cons name names ih =>
      cases names with
      | nil => simp
      | cons next rest =>
          rw [List.map_cons, rooted_cons, ih (by simp)]
          rfl

theorem filter_splitOn_rooted (names : List Name) :
    ((rooted '/' (names.map Subtype.val)).splitOn '/').filter (· ≠ []) =
      names.map Subtype.val := by
  have separates : Separates '/' (names.map Subtype.val) := by
    intro part member
    obtain ⟨name, -, rfl⟩ := List.mem_map.mp member
    exact name.property.2
  have nonempty : ∀ part ∈ names.map Subtype.val, decide (part ≠ []) = true := by
    intro part member
    obtain ⟨name, -, rfl⟩ := List.mem_map.mp member
    exact decide_eq_true name.property.1
  rw [splitOn_rooted separates, List.filter_cons_of_neg (by simp), List.filter_eq_self.mpr nonempty]

theorem parentPath_rooted (names : List Name) :
    parentPath (rooted '/' (names.map Subtype.val)) =
      rooted '/' (names.dropLast.map Subtype.val) := by
  rcases List.eq_nil_or_concat names with rfl | ⟨init, last, rfl⟩
  · rfl
  · have whole : rooted '/' ((init ++ [last]).map Subtype.val) =
        rooted '/' (init.map Subtype.val) ++ '/' :: last.val := by
      rw [List.map_append, rooted_append]
      simp
    have notSlash : (rooted '/' (init.map Subtype.val) ++ '/' :: last.val).getLast? ≠
        some '/' := by
      rw [List.getLast?_append_cons, List.getLast?_cons_of_ne_nil last.property.1]
      exact fun ends => last.property.2 (List.mem_of_getLast? ends)
    rw [List.concat_eq_append, List.dropLast_concat, whole, parentPath, if_neg notSlash,
      if_pos (List.mem_append_right _ List.mem_cons_self),
      rdropWhile_append_sep last.property.2, List.dropLast_concat]

theorem placeOf_rooted (volume : Volume) (names : List Name) :
    placeOf (volume.val ++ ':' :: rooted '/' (names.map Subtype.val)) =
      some (volume.val :: names.map Subtype.val) := by
  obtain ⟨taken, dropped⟩ :=
    takeWhile_append_sep volume.property.2.1 (rooted '/' (names.map Subtype.val))
  rw [placeOf, cutAfter, if_pos (List.mem_append_right _ List.mem_cons_self), taken, dropped,
    Option.map_some]
  dsimp only
  rw [List.dropLast_concat, List.tail_cons, filter_splitOn_rooted]

/-- The tree URI of a document in the listing of its volume. -/
def Permission.belowVolume (document : Permission) : ContentUri where
  authority := ANDROID_PROVIDER_AUTHORITY
  path := treePath (document.volume.val ++ ':' :: rooted '/' (document.names.map Subtype.val))

def Permission.parent (document : Permission) : Permission where
  volume := document.volume
  names := document.names.dropLast

def Permission.place (document : Permission) : List JavaString :=
  document.volume.val :: document.names.map Subtype.val

theorem Plain.rooted_free {document : Permission} (plain : Plain document) :
    ∀ c ∈ rooted '/' (document.names.map Subtype.val), c ∉ ['%', '?', '#'] := by
  intro c member
  by_cases more : document.names = []
  · rw [more] at member
    contradiction
  · rw [rooted_eq_joined more] at member
    rcases List.mem_cons.mp member with rfl | member
    · decide
    · exact plain.2 c member

theorem Plain.parent {document : Permission} (plain : Plain document) : Plain document.parent :=
  ⟨plain.1, fun c member => plain.2 c ((joined_dropLast_starts document.names).subset member)⟩

/-- The URI that is built for a plain document leads to it, and that of the parent
to the parent. -/
theorem exists_built_belowVolume (malformedLength : List UInt8 → Nat) {document : Permission}
    (plain : Plain document) (buildParent : Bool) :
    ∃ uriString,
      buildHierarchicalDocumentsUri document.belowVolume buildParent = .ok uriString ∧
      placeOfUri malformedLength uriString =
        some (if buildParent then document.parent else document).place := by
  have rest : (if buildParent then parentPath (rooted '/' (document.names.map Subtype.val))
      else rooted '/' (document.names.map Subtype.val)) =
        rooted '/' ((if buildParent then document.parent else document).names.map
          Subtype.val) := by
    cases buildParent with
    | false => rfl
    | true => exact parentPath_rooted document.names
  have free : ∀ c ∈ (if buildParent then parentPath (rooted '/' (document.names.map Subtype.val))
      else rooted '/' (document.names.map Subtype.val)), c ∉ ['%', '?', '#'] := by
    rw [rest]
    cases buildParent with
    | false => exact plain.rooted_free
    | true => exact plain.parent.rooted_free
  have documentId := @builtDocumentId_of_free malformedLength _ _ plain.1 _ free
  rw [builtDocumentId, build_treePath] at documentId
  dsimp only at documentId
  refine ⟨_, build_treePath document.volume _ buildParent, ?_⟩
  rw [placeOfUri, documentId, rest, Option.bind_some, placeOf_rooted]
  cases buildParent <;> rfl

/-! ## Moves within a volume -/

/-- A path that is listed below a whole volume, is long enough to be split, and has
plain characters only. -/
structure MappedPath.BelowVolume {permissionsByPath : NameTable}
    (isExternalStorageRemovable : Bool) (path : MappedPath permissionsByPath) : Prop where
  noNames : path.permission.names = []
  named : Named isExternalStorageRemovable path.permission path.name
  long : 2 ≤ utf16Length (joined path.child.val)
  plain : Plain ⟨path.permission.volume, path.child.val⟩

section

variable {isExternalStorageRemovable : Bool} {malformedLength : List UInt8 → Nat}
  {permissionsByPath : NameTable} {permissions : List Permission} {storage : Storage}

/-- The document of a path below a whole volume. -/
def MappedPath.document (path : MappedPath permissionsByPath) : Permission where
  volume := path.permission.volume
  names := path.child.val

theorem MappedPath.BelowVolume.place_eq {path : MappedPath permissionsByPath}
    (below : path.BelowVolume isExternalStorageRemovable) : path.place = path.document.place := by
  rw [MappedPath.place, below.noNames, List.nil_append]
  rfl

theorem MappedPath.BelowVolume.resolved {path : MappedPath permissionsByPath}
    (below : path.BelowVolume isExternalStorageRemovable) :
    getUriByMappedPath permissions permissionsByPath path.requestPath =
      .ok path.document.belowVolume := by
  have returns : Returns permissions permissionsByPath path.permission (path.name ++ ['/'])
      path.child := (returns_volume_iff below.noNames below.named path.listed).mpr below.long
  have request : '/' :: (path.name ++ ['/']) ++ joined path.child.val = path.requestPath := by
    simp [MappedPath.requestPath]
  have uri : path.permission.path ++ '/' :: joined path.child.val =
      path.document.belowVolume.path := by
    rw [Permission.path, Permission.documentId, below.noNames, ← rooted_eq_joined path.child.property]
    simp [treePath, Permission.belowVolume, MappedPath.document]
  rw [Returns, request, uri] at returns
  exact returns

/-- A request that is sent as it is, into another directory, is one move of the
document into that directory. -/
theorem exists_move_command (permissions : List Permission) (storage : Storage)
    {request : MoveRequest malformedLength permissionsByPath}
    (source : request.source.BelowVolume isExternalStorageRemovable)
    (target : request.target.BelowVolume isExternalStorageRemovable)
    (sent : request.header = request.target.requestPath)
    (vacant : storage.lookup request.target.place = none)
    (apart : request.source.document.parent.place ≠ request.target.document.parent.place) :
    ∃ document sourceParent targetParent,
      Commands permissions storage request request.source.document.belowVolume
        request.target.document.belowVolume
        (.moveDocument document sourceParent targetParent) ∧
      placeOfUri malformedLength document = some request.source.place ∧
      placeOfUri malformedLength targetParent = some request.target.document.parent.place := by
  obtain ⟨document, documentBuilt, documentPlace⟩ :=
    exists_built_belowVolume malformedLength source.plain false
  obtain ⟨sourceParent, sourceBuilt, sourcePlace⟩ :=
    exists_built_belowVolume malformedLength source.plain true
  obtain ⟨targetParent, targetBuilt, targetPlace⟩ :=
    exists_built_belowVolume malformedLength target.plain true
  obtain ⟨item, itemBuilt, itemPlace⟩ :=
    exists_built_belowVolume malformedLength target.plain false
  simp only [if_true, Bool.false_eq_true, if_false] at documentPlace sourcePlace targetPlace itemPlace
  have differ : sourceParent ≠ targetParent := by
    rintro rfl
    rw [sourcePlace] at targetPlace
    exact apart (Option.some.inj targetPlace)
  have itemAbsent : storage.lookup (Permission.place ⟨_, request.target.child.val⟩) = none :=
    target.place_eq ▸ vacant
  refine ⟨document, sourceParent, targetParent, ⟨source.resolved, ?_, ⟨false, ?_, ?_⟩, ?_⟩, ?_,
    targetPlace⟩
  · rw [sent]
    exact target.resolved
  · have query : readMeta request.target.document.belowVolume = .ok (.query item) := by
      rw [readMeta, MappedPath.document, itemBuilt]
      rfl
    rw [itemExists, query]
    simp only [bind, Except.bind, pure, Except.pure, ProviderCall.document, itemPlace,
      Option.bind_some, itemAbsent, Option.isSome_none]
  · exact Bool.and_false _
  · rw [moveItem, getParent, getParent]
    simp only [MappedPath.document, documentBuilt, sourceBuilt, targetBuilt, bind, Except.bind,
      if_neg differ]
    rfl
  · rw [documentPlace, source.place_eq]
    rfl

end

/-! ## A file that is moved and renamed -/

/-- A memory card. -/
def memoryCard : Permission where
  volume := ⟨text "1234-5678", by decide⟩
  names := []

def memoryCardTable : NameTable :=
  AList.singleton (text "1234-5678") memoryCard

/-- The card has a directory with one file, and an empty directory. -/
def memoryCardStorage : Storage :=
  let volume := text "1234-5678"
  let card := emptyTree.plant [] volume .directory emptyTree_isInner rfl
  let first := card.plant [volume] (text "a") .directory ⟨.directory, rfl, rfl⟩ rfl
  let file := first.plant [volume, text "a"] (text "xx") (.file []) ⟨.directory, rfl, rfl⟩ rfl
  file.plant [volume] (text "b") .directory ⟨.directory, rfl, rfl⟩ rfl

def cardPath (directory name : Name) : MappedPath memoryCardTable where
  name := text "1234-5678"
  permission := memoryCard
  listed := rfl
  child := ⟨[directory, name], by simp⟩

/-- The file is to go into the other directory under a new name. -/
def moveAndRename : MoveRequest (fun _ => 1) memoryCardTable where
  source := cardPath ⟨text "a", by decide⟩ ⟨text "xx", by decide⟩
  target := cardPath ⟨text "b", by decide⟩ ⟨text "yy", by decide⟩
  header := (cardPath ⟨text "b", by decide⟩ ⟨text "yy", by decide⟩).requestPath
  decodes := decode_of_notMem (by decide)
  noOverwrite := false

/-- It keeps its name there, and the request has succeeded. -/
theorem moveAndRename_keeps_name :
    ¬MovesToDestination (fun _ => false) [memoryCard] memoryCardStorage moveAndRename := by
  intro arrives
  have straight := straight_of_arrives arrives (by decide) ⟨.directory, rfl, rfl⟩ rfl
  have source : moveAndRename.source.BelowVolume false :=
    ⟨rfl, .inl (by decide), by decide, plain_of_all (by decide) (by decide)⟩
  have target : moveAndRename.target.BelowVolume false :=
    ⟨rfl, .inl (by decide), by decide, plain_of_all (by decide) (by decide)⟩
  obtain ⟨document, sourceParent, targetParent, commands, placed, parentPlaced⟩ :=
    exists_move_command [memoryCard] memoryCardStorage source target rfl rfl (by decide)
  have accepts : Accepts (fun _ => false) memoryCardStorage
      (.moveDocument document sourceParent targetParent) moveAndRename.source.place
      moveAndRename.target.document.parent.place
      (moveAndRename.source.place.getLast?.getD []) :=
    ⟨rfl, by decide, by decide, ⟨.directory, rfl, rfl⟩, by decide, by decide⟩
  obtain ⟨-, -, last⟩ := straight.moves _ _ document sourceParent targetParent _ _ commands placed
    parentPlaced accepts
  exact absurd last (by decide)

end RoundSync.Safdav
