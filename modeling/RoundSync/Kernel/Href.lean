import RoundSync.Kernel.Config
import RoundSync.Kernel.Paths
import RoundSync.Text.NetUrl

/-!
# Addresses of tree paths

PROPFIND emits an address for every path (`hrefFor`); a client sends it back as
a request target or as a `Destination`, the HTTP server decodes it, and
`stripPrefix` decodes it once more.  A path comes back exactly when the second
decoding has nothing to decode and the prefix is a cleaned path.
-/

namespace RoundSync.Kernel

open RoundSync.Text

/-- A path of the tree by its names. -/
structure TreePath where
  names : List GoString
  valid : ValidNames names
  deriving DecidableEq

def TreePath.text (p : TreePath) : GoString :=
  absolute p.names

structure HttpError where
  status : Nat
  message : String
  deriving DecidableEq

/-- The fields of `Handler` that addresses depend on. -/
structure Handler where
  urlPrefix : GoString

def Handler.ofConfig (c : Config) : Handler :=
  ⟨(normalize c).urlPrefix⟩

def stripPrefix (h : Handler) (raw : GoString) : Except HttpError GoString :=
  let p := if h.urlPrefix = [] then [slash] else h.urlPrefix
  let closed := trimRight p [slash] ++ [slash]
  if p ≠ [slash] ∧ raw ≠ p ∧ hasPrefix raw closed = false then
    .error ⟨404, "prefix mismatch"⟩
  else
    let raw := if p ≠ [slash] then trimPrefix raw (trimRight p [slash]) else raw
    let raw := if raw = [] then [slash] else raw
    match pathUnescape raw with
    | none => .error ⟨400, "invalid URL escape"⟩
    | some p => .ok (clean p)

def hrefFor (h : Handler) (reqPath : GoString) (isDir : Bool) : GoString :=
  let p := trimRight h.urlPrefix [slash]
  let p := if p = [] then [slash] else p
  let href := pathJoin p reqPath
  let href := if hasPrefix href [slash] then href else slash :: href
  let href := if isDir ∧ hasSuffix href [slash] = false then href ++ [slash] else href
  escapedPath href

/-- How `handleCopyMove` reads its `Destination` header. -/
def destinationPath (h : Handler) (requestHost hdr : GoString) : Except HttpError GoString :=
  if hdr = [] then .error ⟨400, "missing destination"⟩
  else
    match urlParse hdr with
    | none => .error ⟨400, "parse"⟩
    | some u =>
        if u.host ≠ [] ∧ u.host ≠ requestHost then .error ⟨502, "invalid destination host"⟩
        else stripPrefix h u.path

/-! ## Round trips -/

/-- The address emitted for `p` leads back to `p`, as a request target decoded
once by the server and as a `Destination` with and without scheme and host, and
no other path has it. -/
structure HrefRoundTrips (h : Handler) (p : TreePath) (isDir : Bool) : Prop where
  request : ∃ decoded, unescape (hrefFor h p.text isDir) = some decoded ∧
    stripPrefix h decoded = .ok p.text
  destination : ∀ host, destinationPath h host (hrefFor h p.text isDir) = .ok p.text
  absoluteDestination : ∀ host, PlainHost host →
    destinationPath h host (str "http://" ++ host ++ hrefFor h p.text isDir) = .ok p.text
  unshared : ∀ q isDir', hrefFor h q.text isDir' = hrefFor h p.text isDir → q = p

theorem absolute_append {first second : List GoString} (nonempty : first ≠ []) :
    absolute (first ++ second) = absolute first ++ rooted slash second := by
  have appendNe : first ++ second ≠ [] := by simp [nonempty]
  rw [absolute_eq_rooted appendNe, absolute_eq_rooted nonempty, rooted_append]

/-- Joining a rooted text and a cleaned path appends the names. -/
theorem cleanParts_append_absolute (p : GoString) {names : List GoString}
    (valid : ValidNames names) :
    cleanParts true (p ++ slash :: absolute names) = cleanParts true p ++ names := by
  have stepNil : ∀ stack : List GoString, cleanStep true stack [] = stack := by
    intro stack
    simp [cleanStep]
  rw [cleanParts, List.splitOn_append_cons_self, splitOn_absolute valid, List.foldl_append,
    List.foldl_cons, stepNil]
  split
  · rename_i empty
    subst names
    simp [stepNil, cleanParts]
  · rw [foldl_cleanStep_of_valid valid, List.reverse_append, List.reverse_reverse, cleanParts]

theorem hasSuffix_absolute_iff {names : List GoString} (valid : ValidNames names) :
    hasSuffix (absolute names) [slash] = true ↔ names = [] := by
  constructor
  · intro suffix
    by_contra nonempty
    have trimmed := trimRight_absolute valid
    rw [← absolute_eq_rooted nonempty, trimRight, List.rdropWhile_eq_self_iff] at trimmed
    obtain ⟨front, frontEq⟩ := hasSuffix_iff.mp suffix
    have absoluteNe : absolute names ≠ [] := List.cons_ne_nil _ _
    have lastEq : (absolute names).getLast absoluteNe = slash := by
      simp only [← frontEq, List.getLast_append_singleton]
    exact trimmed absoluteNe (by simp [lastEq])
  · rintro rfl
    decide

theorem append_valid (h : Handler) (p : TreePath) :
    ValidNames (cleanParts true h.urlPrefix ++ p.names) := by
  intro name member
  rcases List.mem_append.mp member with member | member
  · exact cleanParts_valid _ name member
  · exact p.valid name member

/-- The text of a path, with a closing slash on a directory other than the
root. -/
def addressText (names : List GoString) (isDir : Bool) : GoString :=
  absolute names ++ if isDir ∧ names ≠ [] then [slash] else []

/-- What the server reads: the names of the prefix, then those of the path. -/
def decodedHref (h : Handler) (p : TreePath) (isDir : Bool) : GoString :=
  addressText (cleanParts true h.urlPrefix ++ p.names) isDir

/-- The address is the encoding of `decodedHref`. -/
theorem hrefFor_eq_escape {h : Handler} (normal : NormalPrefix h.urlPrefix) (p : TreePath)
    (isDir : Bool) : hrefFor h p.text isDir = escape (decodedHref h p isDir) := by
  have joined : pathJoin h.urlPrefix p.text =
      absolute (cleanParts true h.urlPrefix ++ p.names) := by
    have headEq : (h.urlPrefix ++ slash :: p.text).head? = some slash := by
      rw [List.head?_append, normal.isRooted]
      rfl
    have appendNe : h.urlPrefix ++ slash :: p.text ≠ [] := by simp
    rw [pathJoin, if_neg fun both => normal.ne_nil both.1, if_neg normal.ne_nil, pathClean,
      if_neg appendNe, if_pos headEq, TreePath.text, cleanParts_append_absolute _ p.valid]
  have starts : ∀ names, hasPrefix (absolute names) [slash] = true := fun names =>
    hasPrefix_iff.mpr ⟨_, rfl⟩
  have notStar : ∀ rest, slash :: rest ≠ str "*" := by
    intro rest equal
    exact absurd (List.cons.inj equal).1 (by decide)
  have suffixIff := hasSuffix_absolute_iff (append_valid h p)
  unfold hrefFor decodedHref addressText
  dsimp only
  rw [normal.trimmed, if_neg normal.ne_nil, joined, if_pos (starts _)]
  generalize cleanParts true h.urlPrefix ++ p.names = names at suffixIff
  have condition : (isDir = true ∧ hasSuffix (absolute names) [slash] = false) ↔
      isDir = true ∧ names ≠ [] := by
    rw [← Bool.not_eq_true, suffixIff]
  by_cases closed : isDir = true ∧ names ≠ []
  · rw [if_pos (condition.mpr closed), if_pos closed, escapedPath, if_neg]
    exact notStar _
  · rw [if_neg (mt condition.mp closed), if_neg closed, escapedPath, if_neg, List.append_nil]
    exact notStar _

theorem cleanParts_append_slash (p : GoString) :
    cleanParts true (p ++ [slash]) = cleanParts true p := by
  rw [cleanParts, List.splitOn_append_cons_self, List.foldl_append, cleanParts]
  simp [cleanStep]

theorem cleanParts_addressText {names : List GoString} (valid : ValidNames names)
    (isDir : Bool) : cleanParts true (addressText names isDir) = names := by
  unfold addressText
  split
  · rw [cleanParts_append_slash, cleanParts_absolute valid]
  · rw [List.append_nil, cleanParts_absolute valid]

/-- The first name of the text is the only thing behind its first slash. -/
theorem addressText_eq_cons {names : List GoString} (valid : ValidNames names) (isDir : Bool) :
    ∃ rest, addressText names isDir = slash :: rest ∧ rest.head? ≠ some slash := by
  cases names with
  | nil => exact ⟨[], by simp [addressText], by simp⟩
  | cons name names =>
      have nameValid := valid name List.mem_cons_self
      obtain ⟨byte, tail, rfl⟩ := List.exists_cons_of_ne_nil nameValid.ne_nil
      have byteNe : byte ≠ slash := fun equal =>
        nameValid.slash_notMem (equal ▸ List.mem_cons_self)
      rw [addressText, absolute_eq_rooted (List.cons_ne_nil _ _), rooted_cons]
      exact ⟨_, rfl, by simpa using byteNe⟩

theorem mem_rooted_iff {names : List GoString} {b : UInt8} (notSlash : b ≠ slash) :
    b ∈ rooted slash names ↔ ∃ name ∈ names, b ∈ name := by
  simp [rooted, notSlash]

theorem percent_mem_addressText_iff (names : List GoString) (isDir : Bool) :
    percent ∈ addressText names isDir ↔ ∃ name ∈ names, percent ∈ name := by
  have notSlash : percent ≠ slash := by decide
  have tailFree : percent ∉ (if isDir ∧ names ≠ [] then [slash] else []) := by
    split <;> simp [notSlash]
  rw [addressText, List.mem_append, or_iff_left tailFree]
  by_cases empty : names = []
  · subst names
    simp [notSlash]
  · rw [absolute_eq_rooted empty, mem_rooted_iff notSlash]

theorem length_addressText_le (names : List GoString) (isDir : Bool) :
    (addressText names isDir).length ≤ (absolute names).length + 1 := by
  rw [addressText, List.length_append]
  split <;> simp

theorem decodedHref_injective {h : Handler} {p q : TreePath} {isDir isDir' : Bool}
    (equal : decodedHref h q isDir' = decodedHref h p isDir) : q = p := by
  have parts := congrArg (cleanParts true) equal
  rw [decodedHref, decodedHref, cleanParts_addressText (append_valid h q),
    cleanParts_addressText (append_valid h p)] at parts
  have namesEq := List.append_cancel_left parts
  cases q
  cases p
  simpa using namesEq

/-! ## What the client sends back -/

theorem escape_slash_cons (s : GoString) : escape (slash :: s) = slash :: escape s := by
  rw [escape, List.flatMap_cons, ← escape]
  rfl

theorem head_escape_ne_slash {s : GoString} (notSlash : s.head? ≠ some slash) :
    (escape s).head? ≠ some slash := by
  cases s with
  | nil => simp [escape]
  | cons b s =>
      have byteNe : b ≠ slash := fun equal => notSlash (by simp [equal])
      rw [escape, List.flatMap_cons, escapeByte]
      split
      · simp [percent, slash]
      · simpa using byteNe

theorem escape_decodedHref_rooted (h : Handler) (p : TreePath) (isDir : Bool) :
    hasPrefix (escape (decodedHref h p isDir)) [slash] = true := by
  obtain ⟨rest, decodedEq, _⟩ := addressText_eq_cons (append_valid h p) isDir
  rw [decodedHref, decodedEq, escape_slash_cons]
  exact hasPrefix_iff.mpr ⟨_, rfl⟩

theorem escape_decodedHref_single (h : Handler) (p : TreePath) (isDir : Bool) :
    hasPrefix (escape (decodedHref h p isDir)) (str "//") = false := by
  obtain ⟨rest, decodedEq, notSlash⟩ := addressText_eq_cons (append_valid h p) isDir
  rw [decodedHref, decodedEq, escape_slash_cons, ← Bool.not_eq_true, hasPrefix_iff]
  rintro ⟨tail, tailEq⟩
  apply head_escape_ne_slash notSlash
  have restEq : slash :: tail = escape rest := (List.cons.inj tailEq).2
  rw [← restEq, List.head?_cons]

theorem destinationPath_ne_nil {h : Handler} {host hdr : GoString} {u : URL} (nonempty : hdr ≠ [])
    (parsed : urlParse hdr = some u) (sameHost : u.host = [] ∨ u.host = host) :
    destinationPath h host hdr = stripPrefix h u.path := by
  rw [destinationPath, if_neg nonempty, parsed]
  dsimp only
  rw [if_neg]
  rintro ⟨hostNe, differs⟩
  rcases sameHost with equal | equal
  · exact hostNe equal
  · exact differs equal

/-- All the ways of sending an address back end in `stripPrefix` of its decoded
form. -/
theorem hrefRoundTrips_iff {h : Handler} (normal : NormalPrefix h.urlPrefix) (p : TreePath)
    (isDir : Bool) :
    HrefRoundTrips h p isDir ↔ stripPrefix h (decodedHref h p isDir) = .ok p.text := by
  have hrefEq := hrefFor_eq_escape normal p isDir
  have decoded := unescape_escape (decodedHref h p isDir)
  have plain := plainBytes_escape (decodedHref h p isDir)
  have isRooted := escape_decodedHref_rooted h p isDir
  have nonempty : escape (decodedHref h p isDir) ≠ [] := by
    intro empty
    rw [empty] at isRooted
    exact absurd isRooted (by decide)
  constructor
  · intro trips
    obtain ⟨sent, sentEq, result⟩ := trips.request
    rw [hrefEq, decoded] at sentEq
    rwa [Option.some.inj sentEq]
  · intro result
    constructor
    · exact ⟨_, by rw [hrefEq, decoded], result⟩
    · intro host
      have parsed := urlParse_rooted plain isRooted (escape_decodedHref_single h p isDir) decoded
      rw [hrefEq, destinationPath_ne_nil nonempty parsed (.inl rfl), result]
    · intro host plainHost
      have parsed := urlParse_absolute plainHost plain isRooted decoded
      rw [hrefEq, destinationPath_ne_nil (by simp [nonempty]) parsed (.inr rfl), result]
    · intro q isDir' equal
      rw [hrefEq, hrefFor_eq_escape normal] at equal
      exact decodedHref_injective (escape_injective equal)

/-! ## Stripping the prefix again -/

/-- The tail of a raw path behind the prefix, as `stripPrefix` decodes it. -/
def stripped (p raw : GoString) : GoString :=
  if trimPrefix raw p = [] then [slash] else trimPrefix raw p

theorem stripPrefix_of_normal {h : Handler} (normal : NormalPrefix h.urlPrefix) (raw : GoString) :
    stripPrefix h raw =
      if raw = h.urlPrefix ∨ h.urlPrefix ++ [slash] <+: raw then
        match pathUnescape (stripped h.urlPrefix raw) with
        | none => .error ⟨400, "invalid URL escape"⟩
        | some p => .ok (clean p)
      else .error ⟨404, "prefix mismatch"⟩ := by
  have accepted : (raw = h.urlPrefix ∨ h.urlPrefix ++ [slash] <+: raw) ↔
      ¬(h.urlPrefix ≠ [slash] ∧ raw ≠ h.urlPrefix ∧
        hasPrefix raw (h.urlPrefix ++ [slash]) = false) := by
    rw [← hasPrefix_iff]
    simp only [normal.ne_slash, ne_eq, not_false_eq_true, true_and, not_and, Bool.not_eq_false]
    exact or_iff_not_imp_left
  unfold stripPrefix
  dsimp only
  rw [if_neg normal.ne_nil, normal.trimmed]
  by_cases inside : raw = h.urlPrefix ∨ h.urlPrefix ++ [slash] <+: raw
  · rw [if_neg (accepted.mp inside), if_pos inside, if_pos normal.ne_slash, stripped]
  · rw [if_pos (not_not.mp (mt accepted.mpr inside)), if_neg inside]

/-- A prefix that is a cleaned path. -/
theorem urlPrefix_clean_iff {h : Handler} (normal : NormalPrefix h.urlPrefix) :
    pathClean h.urlPrefix = h.urlPrefix ↔
      absolute (cleanParts true h.urlPrefix) = h.urlPrefix := by
  rw [pathClean, if_neg normal.ne_nil, if_pos normal.isRooted]

theorem cleanParts_ne_nil {h : Handler} (normal : NormalPrefix h.urlPrefix)
    (isClean : absolute (cleanParts true h.urlPrefix) = h.urlPrefix) :
    cleanParts true h.urlPrefix ≠ [] := by
  intro empty
  rw [empty, absolute_nil] at isClean
  exact normal.ne_slash isClean.symm

theorem decodedHref_of_clean {h : Handler} (normal : NormalPrefix h.urlPrefix)
    (isClean : absolute (cleanParts true h.urlPrefix) = h.urlPrefix) (p : TreePath)
    (isDir : Bool) :
    decodedHref h p isDir =
      h.urlPrefix ++ (rooted slash p.names ++ if isDir then [slash] else []) := by
  have partsNe := cleanParts_ne_nil normal isClean
  have namesNe : cleanParts true h.urlPrefix ++ p.names ≠ [] := by simp [partsNe]
  rw [decodedHref, addressText, absolute_append partsNe, isClean, List.append_assoc]
  simp [namesNe]

/-- Behind a cleaned prefix stands the address of the path without a prefix. -/
theorem stripped_decodedHref {h : Handler} (normal : NormalPrefix h.urlPrefix)
    (isClean : absolute (cleanParts true h.urlPrefix) = h.urlPrefix) (p : TreePath)
    (isDir : Bool) :
    stripped h.urlPrefix (decodedHref h p isDir) = addressText p.names isDir := by
  rw [decodedHref_of_clean normal isClean, stripped, trimPrefix_append, addressText]
  by_cases empty : p.names = []
  · cases isDir <;> simp [empty]
  · rw [absolute_eq_rooted empty, if_neg]
    · simp [empty]
    · rw [← absolute_eq_rooted empty]
      simp [absolute]

theorem decodedHref_inside {h : Handler} (normal : NormalPrefix h.urlPrefix)
    (isClean : absolute (cleanParts true h.urlPrefix) = h.urlPrefix) (p : TreePath)
    (isDir : Bool) :
    decodedHref h p isDir = h.urlPrefix ∨
      h.urlPrefix ++ [slash] <+: decodedHref h p isDir := by
  rw [decodedHref_of_clean normal isClean]
  cases p.names with
  | nil => cases isDir <;> simp
  | cons name names =>
      right
      rw [rooted_cons, List.prefix_append_right_inj]
      exact ⟨_, rfl⟩

/-- Decoding the text of a path once more leaves the path alone only where there
is nothing to decode. -/
theorem decodeAgain_iff {names : List GoString} (valid : ValidNames names) (isDir : Bool) :
    (∃ q, pathUnescape (addressText names isDir) = some q ∧ clean q = absolute names) ↔
      ∀ name ∈ names, percent ∉ name := by
  have occurs := percent_mem_addressText_iff names isDir
  constructor
  · rintro ⟨q, decoded, cleaned⟩ name member percentIn
    have shorter := (unescape_length decoded).2 (occurs.mpr ⟨name, member, percentIn⟩)
    obtain ⟨rest, textEq, _⟩ := addressText_eq_cons valid isDir
    have slashNe : slash ≠ percent := by decide
    have isRooted : q.head? = some slash := by
      rw [pathUnescape, textEq, unescape_of_ne slashNe, Option.map_eq_some_iff] at decoded
      obtain ⟨tail, _, rfl⟩ := decoded
      rfl
    have bound := length_absolute_cleanParts_le isRooted
    rw [← clean_eq_absolute, cleaned] at bound
    have textBound := length_addressText_le names isDir
    omega
  · intro free
    refine ⟨addressText names isDir, unescape_of_percent_notMem ?_, ?_⟩
    · rw [occurs]
      rintro ⟨name, member, percentIn⟩
      exact free name member percentIn
    · rw [clean_eq_absolute, cleanParts_addressText valid]

theorem NormalPrefix.ne_append_slash {p : GoString} (normal : NormalPrefix p) (front : GoString) :
    front ++ [slash] ≠ p := by
  rintro rfl
  have trimmed := normal.trimmed
  rw [trimRight, List.rdropWhile_concat_pos _ _ _ (by simp)] at trimmed
  have bound := (List.rdropWhile_prefix (fun b => [slash].contains b) (l := front)).length_le
  rw [trimmed, List.length_append, List.length_singleton] at bound
  omega

theorem absolute_of_splitOn {p : GoString} {names : List GoString} (nonempty : p ≠ [])
    (valid : ValidNames names) (parts : p.splitOn slash = [] :: names) :
    absolute (cleanParts true p) = p := by
  have restored := @List.intercalate_splitOn _ p _ _ slash
  rw [parts] at restored
  cases names with
  | nil => exact absurd restored.symm (by simpa [List.intercalate] using nonempty)
  | cons name names =>
      have textEq : p = absolute (name :: names) := by
        rw [← restored]
        simp [absolute, List.intercalate]
      rw [textEq, cleanParts_absolute valid]

/-- A prefix that an address starts with is itself a cleaned path. -/
theorem clean_of_inside {h : Handler} (normal : NormalPrefix h.urlPrefix) {names : List GoString}
    (valid : ValidNames names) {isDir : Bool}
    (inside : addressText names isDir = h.urlPrefix ∨
      h.urlPrefix ++ [slash] <+: addressText names isDir) :
    absolute (cleanParts true h.urlPrefix) = h.urlPrefix := by
  rcases inside with equal | ⟨rest, equal⟩
  · unfold addressText at equal
    split at equal
    · exact absurd equal (normal.ne_append_slash _)
    · rw [List.append_nil] at equal
      rw [← equal, cleanParts_absolute valid]
  · by_cases empty : names = []
    · subst names
      have lengths := congrArg List.length equal
      have positive := List.length_pos_iff.mpr normal.ne_nil
      simp [addressText] at lengths
      omega
    · -- the elements of the prefix are the first of the address's elements
      have parts := congrArg (List.splitOn slash) equal
      rw [List.append_assoc, List.singleton_append, List.splitOn_append_cons_self] at parts
      have restNe : rest.splitOn slash ≠ [] := List.splitOn_ne_nil slash rest
      have front : h.urlPrefix.splitOn slash <+: [] :: names := by
        unfold addressText at parts
        split at parts
        · rw [List.splitOn_append_cons_self, splitOn_absolute valid, if_neg empty] at parts
          obtain ⟨initial, last, lastEq⟩ := List.eq_nil_or_concat _ |>.resolve_left restNe
          rw [lastEq, List.concat_eq_append, ← List.append_assoc] at parts
          exact ⟨initial, List.append_inj_left' parts rfl⟩
        · rw [List.append_nil, splitOn_absolute valid, if_neg empty] at parts
          exact ⟨_, parts⟩
      have partsNe : h.urlPrefix.splitOn slash ≠ [] := List.splitOn_ne_nil slash _
      obtain ⟨first, others, partsEq⟩ := List.exists_cons_of_ne_nil partsNe
      rw [partsEq, List.cons_prefix_cons] at front
      obtain ⟨rfl, othersPrefix⟩ := front
      exact absolute_of_splitOn normal.ne_nil
        (fun name member => valid name (othersPrefix.subset member)) partsEq

/-- For every accepted configuration, the address of a path leads back to the
path exactly when the prefix is a cleaned path and no name has a percent
sign. -/
theorem href_roundTrips_iff (c : Config) (p : TreePath) (isDir : Bool) :
    HrefRoundTrips (.ofConfig c) p isDir ↔
      pathClean (normalize c).urlPrefix = (normalize c).urlPrefix ∧
        ∀ name ∈ p.names, percent ∉ name := by
  have normal : NormalPrefix (Handler.ofConfig c).urlPrefix := normalizePrefix_normal c.urlPrefix
  have prefixEq : (normalize c).urlPrefix = (Handler.ofConfig c).urlPrefix := rfl
  rw [prefixEq, hrefRoundTrips_iff normal, stripPrefix_of_normal normal, urlPrefix_clean_iff normal]
  generalize Handler.ofConfig c = h at normal
  have again := decodeAgain_iff p.valid isDir
  constructor
  · intro result
    split at result
    · rename_i inside
      have isClean := clean_of_inside normal (append_valid h p) inside
      constructor
      · exact isClean
      · rw [stripped_decodedHref normal isClean] at result
        apply again.mp
        split at result
        · contradiction
        · rename_i q decoded
          exact ⟨q, decoded, by simpa [TreePath.text] using result⟩
    · simp at result
  · rintro ⟨isClean, free⟩
    obtain ⟨q, decoded, cleaned⟩ := again.mpr free
    rw [if_pos (decodedHref_inside normal isClean p isDir), stripped_decodedHref normal isClean,
      decoded]
    simp [cleaned, TreePath.text]

/-- With the default prefix, the address of the file `/a%41` leads to `/aA`. -/
theorem percentName_misdirected :
    ∃ p : TreePath, p.text = str "/a%41" ∧
      hrefFor (.ofConfig defaultConfig) p.text false = str "/dav/a%2541" ∧
      unescape (str "/dav/a%2541") = some (str "/dav/a%41") ∧
      stripPrefix (.ofConfig defaultConfig) (str "/dav/a%41") = .ok (str "/aA") ∧
      ¬HrefRoundTrips (.ofConfig defaultConfig) p false := by
  have valid : ValidNames [str "a%41"] := by
    intro name member
    rw [List.mem_singleton.mp member]
    decide
  have sent : unescape (str "/dav/a%2541") = some (str "/dav/a%41") := by decide
  have landed : stripPrefix (.ofConfig defaultConfig) (str "/dav/a%41") = .ok (str "/aA") := by
    decide
  have address : hrefFor (.ofConfig defaultConfig) (absolute [str "a%41"]) false =
      str "/dav/a%2541" := by
    decide
  have textEq : absolute [str "a%41"] = str "/a%41" := by decide
  refine ⟨⟨[str "a%41"], valid⟩, textEq, address, sent, landed, ?_⟩
  intro trips
  obtain ⟨decoded, decodedEq, result⟩ := trips.request
  rw [TreePath.text, address, sent] at decodedEq
  rw [← Option.some.inj decodedEq, landed, TreePath.text, textEq] at result
  exact absurd (Except.ok.inj result) (by decide)

end RoundSync.Kernel
