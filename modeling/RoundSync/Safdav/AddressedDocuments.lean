import RoundSync.Safdav.DocumentsContractAccess
import RoundSync.Transition.Effect

/-!
# The documents that are addressed

Only the slashes of a tree path are escaped before it is parsed as a URI and
decoded, so that the provider finds the document of the path exactly when the
path has no character that a URI gives a meaning.  A wrong document is shown by
counting: decoding yields a slash or a percent sign from a complete escape only,
and every complete escape shortens the text.
-/

namespace RoundSync.Safdav

open RoundSync.Text RoundSync.Text.AndroidUri RoundSync.Transition

variable {malformedLength : List UInt8 → Nat}

/-! ## Escaped slashes -/

theorem escapeSlashes_cons_slash (s : JavaString) :
    escapeSlashes ('/' :: s) = escapeOctet 47 ++ escapeSlashes s :=
  rfl

theorem escapeSlashes_cons_of_ne {c : Char} (other : c ≠ '/') (s : JavaString) :
    escapeSlashes (c :: s) = c :: escapeSlashes s := by
  rw [escapeSlashes, List.flatMap_cons, if_neg other]
  rfl

theorem length_escapeSlashes (s : JavaString) :
    (escapeSlashes s).length = s.length + 2 * s.count '/' := by
  induction s with
  | nil => rfl
  | cons c s ih =>
      by_cases slash : c = '/'
      · subst slash
        rw [escapeSlashes_cons_slash, List.length_append, ih, List.count_cons_self,
          List.length_cons]
        have three : (escapeOctet 47).length = 3 := rfl
        omega
      · rw [escapeSlashes_cons_of_ne slash, List.length_cons, ih,
          List.count_cons_of_ne slash, List.length_cons]
        omega

theorem slash_notMem_escapeSlashes (s : JavaString) : '/' ∉ escapeSlashes s := by
  induction s with
  | nil => exact List.not_mem_nil
  | cons c s ih =>
      by_cases slash : c = '/'
      · subst slash
        rw [escapeSlashes_cons_slash, List.mem_append]
        exact not_or.mpr ⟨by decide, ih⟩
      · rw [escapeSlashes_cons_of_ne slash, List.mem_cons]
        exact not_or.mpr ⟨Ne.symm slash, ih⟩

/-- A question mark or number sign ends the path. -/
def inPath (c : Char) : Bool :=
  decide (c ∉ ['?', '#'])

theorem takeWhile_escapeSlashes (s : JavaString) :
    (escapeSlashes s).takeWhile inPath = escapeSlashes (s.takeWhile inPath) := by
  induction s with
  | nil => rfl
  | cons c s ih =>
      by_cases slash : c = '/'
      · subst slash
        have octet : ∀ c ∈ escapeOctet 47, inPath c = true :=
          List.all_eq_true.mp (by decide)
        rw [escapeSlashes_cons_slash, List.takeWhile_append_of_pos octet, ih,
          List.takeWhile_cons_of_pos (by decide), escapeSlashes_cons_slash]
      · rw [escapeSlashes_cons_of_ne slash]
        cases ends : inPath c with
        | false =>
            rw [List.takeWhile_cons_of_neg (by simp [ends]),
              List.takeWhile_cons_of_neg (by simp [ends])]
            rfl
        | true =>
            rw [List.takeWhile_cons_of_pos ends, List.takeWhile_cons_of_pos ends, ih,
              escapeSlashes_cons_of_ne slash]

/-- Without a percent sign in it the text is decoded to itself. -/
theorem decodeFrom_escapeSlashes {s : JavaString} (free : '%' ∉ s) (before : JavaString) :
    decodeFrom malformedLength (escapeSlashes s) (utf8 before) = before ++ s := by
  induction s generalizing before with
  | nil =>
      rw [List.append_nil]
      exact decodeOctets_utf8 before
  | cons c s ih =>
      have tailFree : '%' ∉ s := fun member => free (List.mem_cons_of_mem c member)
      by_cases slash : c = '/'
      · subst slash
        have octets : utf8 before ++ [47] = utf8 (before ++ ['/']) := by
          rw [utf8, utf8, List.flatMap_append]
          rfl
        rw [escapeSlashes_cons_slash, decodeFrom_escapeOctet_append, octets, ih tailFree,
          List.append_assoc]
        rfl
      · have notPercent : c ≠ '%' := fun equal => free (equal ▸ List.mem_cons_self)
        have rest := ih tailFree []
        rw [escapeSlashes_cons_of_ne slash, decodeFrom_cons_of_ne notPercent, decodeOctets_utf8]
        exact congrArg (before ++ c :: ·) rest

theorem decode_escapeSlashes {s : JavaString} (free : '%' ∉ s) :
    decode malformedLength (escapeSlashes s) = s :=
  decodeFrom_escapeSlashes free []

/-- The decoded text of a cut path is the whole path only if nothing was cut and
no percent sign was in it. -/
theorem free_of_decode_escapeSlashes {s : JavaString}
    (decoded : decode malformedLength (escapeSlashes (s.takeWhile inPath)) = s) :
    '%' ∉ s ∧ s.takeWhile inPath = s := by
  have cut : s.takeWhile inPath <+: s := List.takeWhile_prefix inPath
  have fewer : (s.takeWhile inPath).count '/' ≤ s.count '/' := cut.sublist.count_le '/'
  have length := length_decodeFrom_le malformedLength (escapeSlashes (s.takeWhile inPath)) []
  have count := countP_decodeFrom_le malformedLength (escapeSlashes (s.takeWhile inPath)) []
  rw [decode] at decoded
  rw [decoded, length_escapeSlashes, List.length_nil] at length
  rw [decoded, countP_needsEscape, List.count_eq_zero.mpr (slash_notMem_escapeSlashes _),
    List.countP_nil] at count
  have shorter := cut.length_le
  have whole : (s.takeWhile inPath).length = s.length := by omega
  constructor
  · exact List.count_eq_zero.mp (by omega)
  · exact cut.eq_of_length whole

/-! ## The document id of a built URI -/

theorem decode_of_notMem {s : JavaString} (percent : '%' ∉ s) : decode malformedLength s = s := by
  induction s with
  | nil => rfl
  | cons c s ih =>
      have other : c ≠ '%' := fun equal => percent (equal ▸ List.mem_cons_self)
      have rest := ih fun member => percent (List.mem_cons_of_mem c member)
      rw [decode, decodeFrom_cons_of_ne other]
      exact congrArg (c :: ·) rest

/-- The characters of an authority. -/
def inAuthority (c : Char) : Bool :=
  decide (c ∉ ['/', '\\', '?', '#'])

/-- The path of the built URI ends where the media path does. -/
theorem parsePath_content {authority path : JavaString}
    (plain : ∀ c ∈ authority, inAuthority c = true) :
    parsePath (text "content://" ++ authority ++ '/' :: path) =
      '/' :: path.takeWhile inPath := by
  have scheme : text "content://" ++ authority ++ '/' :: path =
      text "content" ++ ':' :: ('/' :: '/' :: (authority ++ '/' :: path)) := by
    simp [text]
  have colon : ':' ∈ text "content" ++ ':' :: ('/' :: '/' :: (authority ++ '/' :: path)) :=
    List.mem_append_right _ List.mem_cons_self
  have cut := (takeWhile_append_sep (by decide : ':' ∉ text "content")
    ('/' :: '/' :: (authority ++ '/' :: path))).2
  have host : (authority ++ '/' :: path).dropWhile inAuthority = '/' :: path := by
    rw [List.dropWhile_append_of_pos plain, List.dropWhile_cons_of_neg (by decide)]
  rw [scheme, parsePath, if_pos colon, cut]
  change ((authority ++ '/' :: path).dropWhile inAuthority).takeWhile inPath =
    '/' :: path.takeWhile inPath
  rw [host, List.takeWhile_cons_of_pos (by decide)]

/-- The provider reads the document id in the fourth segment. -/
theorem getDocumentId_content {authority tree segment : JavaString}
    (plain : ∀ c ∈ authority, inAuthority c = true)
    (treeField : ∀ c ∈ tree, inFormField c = true) (treeMore : tree ≠ [])
    (slashFree : '/' ∉ segment) :
    getDocumentId malformedLength (text "content://" ++ authority ++ text "/tree/" ++ tree ++
      text "/document/" ++ tree ++ segment) =
        some (decode malformedLength (tree ++ segment.takeWhile inPath)) := by
  have field : ∀ {c}, inFormField c = false → c ∉ tree := fun outside member => by
    rw [treeField _ member] at outside
    contradiction
  have treeInPath : ∀ c ∈ tree, inPath c = true := by
    intro c member
    refine decide_eq_true fun ends => ?_
    rcases List.mem_cons.mp ends with rfl | ends
    · exact field (by decide) member
    · obtain rfl := List.mem_singleton.mp ends
      exact field (by decide) member
  have parts : text "content://" ++ authority ++ text "/tree/" ++ tree ++ text "/document/" ++
      tree ++ segment = text "content://" ++ authority ++
        '/' :: (text "tree/" ++ (tree ++ (text "/document/" ++ (tree ++ segment)))) := by
    simp [text]
  have rootedParts : '/' :: (text "tree/" ++ (tree ++ (text "/document/" ++
      (tree ++ segment.takeWhile inPath)))) =
        rooted '/' [text "tree", tree, text "document", tree ++ segment.takeWhile inPath] := by
    simp [text]
  have separates : Separates '/'
      [text "tree", tree, text "document", tree ++ segment.takeWhile inPath] := by
    intro part member
    simp only [List.mem_cons, List.not_mem_nil, or_false] at member
    rcases member with rfl | rfl | rfl | rfl
    · decide
    · exact field (by decide)
    · decide
    · rw [List.mem_append]
      exact not_or.mpr ⟨field (by decide),
        fun member => slashFree ((List.takeWhile_prefix inPath).subset member)⟩
  rw [getDocumentId, parts, parsePath_content plain,
    List.takeWhile_append_of_pos (List.all_eq_true.mp (by decide)),
    List.takeWhile_append_of_pos treeInPath,
    List.takeWhile_append_of_pos (List.all_eq_true.mp (by decide)),
    List.takeWhile_append_of_pos treeInPath,
    pathSegments, rootedParts, splitOn_rooted separates]
  have filtered : ([] :: [text "tree", tree, text "document",
      tree ++ segment.takeWhile inPath]).filter (fun part => decide (part ≠ [])) =
        [text "tree", tree, text "document", tree ++ segment.takeWhile inPath] := by
    simp [text, treeMore]
  have kind : decode malformedLength (text "tree") = text "tree" :=
    decode_of_notMem (by decide)
  have document : decode malformedLength (text "document") = text "document" :=
    decode_of_notMem (by decide)
  rw [filtered]
  simp only [List.map_cons, List.map_nil, kind, document]
  rw [if_neg (by decide), if_pos ⟨trivial, trivial⟩]

/-! ## The path of the parent -/

theorem parentPath_joined (names : List Name) : parentPath (joined names) = joined names.dropLast := by
  have notSlash : (joined names).getLast? ≠ some '/' := by
    intro last
    obtain ⟨start, equal⟩ := List.getLast?_eq_some_iff.mp last
    exact joined_ne_append_slash names start equal
  rw [parentPath, if_neg notSlash]
  rcases List.eq_nil_or_concat names with rfl | ⟨init, last, rfl⟩
  · rfl
  · rw [List.concat_eq_append, List.dropLast_concat]
    by_cases top : init = []
    · subst top
      rw [List.nil_append, joined_singleton, if_neg last.property.2]
      rfl
    · rw [joined_append top (by simp), joined_singleton,
        if_pos (List.mem_append_right _ List.mem_cons_self),
        rdropWhile_append_sep last.property.2, List.dropLast_concat]

/-- The parent's path is a part of the path. -/
theorem joined_dropLast_starts (names : List Name) : joined names.dropLast <+: joined names := by
  rcases List.eq_nil_or_concat names with rfl | ⟨init, last, rfl⟩
  · exact List.prefix_rfl
  · rw [List.concat_eq_append, List.dropLast_concat]
    by_cases top : init = []
    · rw [top]
      exact List.nil_prefix
    · rw [joined_append top (by simp)]
      exact List.prefix_append _ _

/-! ## The addressed document -/

/-- The tree URI of a document. -/
def Permission.uri (document : Permission) : ContentUri where
  authority := ANDROID_PROVIDER_AUTHORITY
  path := document.path

/-- The document id of a URI that was built, or nothing. -/
def builtDocumentId (malformedLength : List UInt8 → Nat) (uri : ContentUri) (buildParent : Bool) :
    Option JavaString :=
  match buildHierarchicalDocumentsUri uri buildParent with
  | .ok uriString => getDocumentId malformedLength uriString
  | .error _ => none

/-- The URI that is built for a path below a volume, or for its parent. -/
theorem build_treePath (volume : Volume) (pathRaw : JavaString) (buildParent : Bool) :
    buildHierarchicalDocumentsUri
        ⟨ANDROID_PROVIDER_AUTHORITY, treePath (volume.val ++ ':' :: pathRaw)⟩ buildParent =
      .ok (text "content://" ++ ANDROID_PROVIDER_AUTHORITY ++ text "/tree/" ++
        formEncode (volume.val ++ [':']) ++ text "/document/" ++
        formEncode (volume.val ++ [':']) ++
        escapeSlashes (if buildParent then parentPath pathRaw else pathRaw)) := by
  have tree : (text "/tree/").isPrefixOf (treePath (volume.val ++ ':' :: pathRaw)) = true :=
    List.isPrefixOf_iff_prefix.mpr (List.prefix_append _ _)
  have path : (treePath (volume.val ++ ':' :: pathRaw)).drop 6 = volume.val ++ ':' :: pathRaw := by
    change (text "/tree/" ++ (volume.val ++ ':' :: pathRaw)).drop (text "/tree/").length = _
    exact List.drop_left
  have cut : cutAfter ':' (volume.val ++ ':' :: pathRaw) = some (volume.val ++ [':'], pathRaw) := by
    obtain ⟨taken, dropped⟩ := takeWhile_append_sep volume.property.2.1 pathRaw
    rw [cutAfter, if_pos (List.mem_append_right _ List.mem_cons_self), taken, dropped]
    rfl
  rw [buildHierarchicalDocumentsUri, if_pos tree]
  simp only [path, cut, Option.some_or]
  cases buildParent <;> rfl

/-- The provider's document id: the volume with its blanks turned into plus signs,
and the decoded path up to the first question mark or number sign. -/
theorem builtDocumentId_treePath (volume : Volume) (pathRaw : JavaString) (buildParent : Bool) :
    builtDocumentId malformedLength
        ⟨ANDROID_PROVIDER_AUTHORITY, treePath (volume.val ++ ':' :: pathRaw)⟩ buildParent =
      some ((volume.val.map fun c => if c = ' ' then '+' else c) ++
        ':' :: decode malformedLength (escapeSlashes
          ((if buildParent then parentPath pathRaw else pathRaw).takeWhile inPath))) := by
  have more : formEncode (volume.val ++ [':']) ≠ [] := by
    rw [formEncode, List.flatMap_append]
    exact List.append_ne_nil_of_right_ne_nil _ (by decide)
  rw [builtDocumentId, build_treePath]
  dsimp only
  rw [getDocumentId_content (List.all_eq_true.mp (by decide)) (inFormField_formEncode _) more
    (slash_notMem_escapeSlashes _), takeWhile_escapeSlashes, decode,
    decodeFrom_formEncode_append, List.map_append, List.append_assoc]
  rfl

theorem builtDocumentId_uri (document : Permission) (buildParent : Bool) :
    builtDocumentId malformedLength document.uri buildParent =
      some ((document.volume.val.map fun c => if c = ' ' then '+' else c) ++
        ':' :: decode malformedLength (escapeSlashes
          ((joined (if buildParent then document.names.dropLast else document.names)).takeWhile
            inPath))) := by
  have built := @builtDocumentId_treePath malformedLength document.volume
    (joined document.names) buildParent
  rw [parentPath_joined] at built
  cases buildParent <;> exact built

/-- The operations that act on one item. -/
inductive Operation where
  | readMeta
  | deleteItem
  | renameItem (target : ContentUri)
  | moveItem (target : ContentUri)

def Operation.call (item : ContentUri) : Operation → Except Failure ProviderCall
  | readMeta => Safdav.readMeta item
  | deleteItem => Safdav.deleteItem item
  | renameItem target => Safdav.renameItem item target
  | moveItem target => Safdav.moveItem item target

/-- The URIs of a document and of its parent lead to these documents, and every
operation on it acts on it. -/
structure ActsOnAddressed (malformedLength : List UInt8 → Nat) (document : Permission) : Prop where
  addressed : builtDocumentId malformedLength document.uri false = some document.documentId
  parent : builtDocumentId malformedLength document.uri true =
    some (document.volume.val ++ ':' :: joined document.names.dropLast)
  acts : ∀ (operation : Operation) call, operation.call document.uri = .ok call →
    getDocumentId malformedLength call.document = some document.documentId

/-- Every operation is given the URI of its item. -/
theorem document_of_call {item : ContentUri} {operation : Operation} {call : ProviderCall}
    (called : operation.call item = .ok call) :
    buildHierarchicalDocumentsUri item false = .ok call.document := by
  cases operation with
  | readMeta | deleteItem | renameItem target =>
      obtain ⟨uriString, built, done⟩ := exists_of_bind_eq_ok called
      obtain rfl := Except.ok.inj done
      exact built
  | moveItem target =>
      obtain ⟨uriString, built, rest⟩ := exists_of_bind_eq_ok called
      obtain ⟨parent, -, rest⟩ := exists_of_bind_eq_ok rest
      obtain ⟨targetParent, -, rest⟩ := exists_of_bind_eq_ok rest
      by_cases same : parent = targetParent
      · rw [if_pos same] at rest
        obtain ⟨renamed, builtAgain, done⟩ := exists_of_bind_eq_ok rest
        obtain rfl := Except.ok.inj done
        exact builtAgain
      · rw [if_neg same] at rest
        obtain rfl := Except.ok.inj rest
        exact built

/-- No character of the path is read as a part of a URI, and no blank of the
volume is written as a plus sign. -/
def Plain (document : Permission) : Prop :=
  ' ' ∉ document.volume.val ∧ ∀ c ∈ joined document.names, c ∉ ['%', '?', '#']

theorem plain_of_all {document : Permission} (noBlank : ' ' ∉ document.volume.val)
    (free : (joined document.names).all (fun c => decide (c ∉ ['%', '?', '#'])) = true) :
    Plain document :=
  ⟨noBlank, fun c member => of_decide_eq_true (List.all_eq_true.mp free c member)⟩

/-- A path of plain characters is decoded to itself. -/
theorem builtDocumentId_of_free {volume : Volume} {pathRaw : JavaString}
    (noBlank : ' ' ∉ volume.val) {buildParent : Bool}
    (free : ∀ c ∈ (if buildParent then parentPath pathRaw else pathRaw), c ∉ ['%', '?', '#']) :
    builtDocumentId malformedLength
        ⟨ANDROID_PROVIDER_AUTHORITY, treePath (volume.val ++ ':' :: pathRaw)⟩ buildParent =
      some (volume.val ++ ':' :: if buildParent then parentPath pathRaw else pathRaw) := by
  have same : ∀ c ∈ volume.val, (if c = ' ' then '+' else c) = id c := by
    intro c member
    have other : c ≠ ' ' := fun equal => noBlank (equal ▸ member)
    rw [if_neg other, id]
  rw [builtDocumentId_treePath, List.map_congr_left same, List.map_id]
  generalize (if buildParent then parentPath pathRaw else pathRaw) = path at free
  have percent : '%' ∉ path := fun member => free '%' member List.mem_cons_self
  have whole : path.takeWhile inPath = path := by
    refine List.takeWhile_eq_self_iff.mpr fun c member => decide_eq_true fun ends => ?_
    exact free c member (List.mem_cons_of_mem '%' ends)
  rw [whole, decode_escapeSlashes percent]

theorem builtDocumentId_of_plain {document : Permission} (plain : Plain document)
    (buildParent : Bool) :
    builtDocumentId malformedLength document.uri buildParent =
      some (document.volume.val ++
        ':' :: joined (if buildParent then document.names.dropLast else document.names)) := by
  have free : ∀ c ∈ (if buildParent then parentPath (joined document.names)
      else joined document.names), c ∉ ['%', '?', '#'] := by
    intro c member
    rw [parentPath_joined] at member
    cases buildParent with
    | false => exact plain.2 c member
    | true => exact plain.2 c ((joined_dropLast_starts document.names).subset member)
  have built := @builtDocumentId_of_free malformedLength _ _ plain.1 _ free
  rw [parentPath_joined] at built
  cases buildParent <;> exact built

/-- Who finds the document of the path finds every character in it plain. -/
theorem plain_of_addressed {document : Permission}
    (addressed : builtDocumentId malformedLength document.uri false = some document.documentId) :
    Plain document := by
  rw [builtDocumentId_uri, Option.some.injEq, Permission.documentId] at addressed
  obtain ⟨volume, rest⟩ := List.append_inj addressed (List.length_map _)
  obtain ⟨percent, whole⟩ := free_of_decode_escapeSlashes (List.cons.inj rest).2
  constructor
  · intro member
    have same : document.volume.val.map (fun c => if c = ' ' then '+' else c) =
        document.volume.val.map id := by
      rw [volume, List.map_id]
    have fixed := List.map_inj_left.mp same ' ' member
    exact absurd fixed (by decide)
  · intro c member special
    rcases List.mem_cons.mp special with rfl | ends
    · exact percent member
    · exact of_decide_eq_true (List.takeWhile_eq_self_iff.mp whole c member) ends

/-- For every document of the provider: its URIs and all operations reach exactly
it and its parent when and only when its path is plain. -/
theorem acts_on_addressed (malformedLength : List UInt8 → Nat) (document : Permission) :
    ActsOnAddressed malformedLength document ↔ Plain document := by
  constructor
  · exact fun acts => plain_of_addressed acts.addressed
  · intro plain
    have addressed : builtDocumentId malformedLength document.uri false =
        some document.documentId := builtDocumentId_of_plain plain false
    refine ⟨addressed, builtDocumentId_of_plain plain true, fun operation call called => ?_⟩
    rw [builtDocumentId, document_of_call called] at addressed
    exact addressed

/-- A file whose name has a number sign, in the internal storage. -/
def numberSign : Permission where
  volume := primaryVolume
  names := [⟨text "a#b", by decide⟩]

/-- The URI of the file leads to another one, whose name ends before the sign. -/
theorem numberSign_acts_on_other :
    builtDocumentId (fun _ => 1) numberSign.uri false = some (text "primary:a") ∧
      ¬ActsOnAddressed (fun _ => 1) numberSign := by
  constructor
  · have cut : (joined numberSign.names).takeWhile inPath = text "a" := by decide
    rw [builtDocumentId_uri]
    change some (_ ++ ':' :: decode _ (escapeSlashes ((joined numberSign.names).takeWhile inPath))) =
      some (text "primary:a")
    rw [cut, decode_escapeSlashes (by decide)]
    rfl
  · exact fun acts => (plain_of_addressed acts.addressed).2 '#' (by decide) (by decide)

end RoundSync.Safdav
