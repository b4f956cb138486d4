import RoundSync.QuarkDav.Remote
import RoundSync.Kernel.Config
import RoundSync.Text.AndroidUri

/-!
# The two normalizations

The application normalizes a remote, the kernel normalizes the configuration it
is given.  What the application passes on is a normal form of the kernel, which
has only one pass to make; the application's own pass may leave a prefix that
another would shorten.
-/

namespace RoundSync.QuarkDav

open RoundSync.Text
open RoundSync.Text.Kotlin
open RoundSync.Text.AndroidUri
open RoundSync.Kernel

/-- The configuration that the kernel reads from the file of the application. -/
def QuarkDavKernelConfig.passed (config : QuarkDavKernelConfig) : Config where
  listen := utf8 config.listen
  urlPrefix := utf8 config.pathPrefix
  username := utf8 config.username
  password := utf8 config.password
  noAuth := config.noAuth
  cacheTTLSeconds := config.cacheTtlSeconds
  tempDir := utf8 config.tempDir
  driver := utf8 config.driver
  cookie :=
    { cookie := utf8 config.cookie.cookie
      rootId := utf8 config.cookie.rootId
      brand := utf8 config.cookie.brand
      orderBy := utf8 config.cookie.orderBy
      orderDirection := utf8 config.cookie.orderDirection
      useTranscodingAddress := config.cookie.useTranscodingAddress
      onlyListVideoFile := config.cookie.onlyListVideoFile }

theorem QuarkDavKernelConfig.passed_valid (config : QuarkDavKernelConfig) :
    ValidConfig config.passed :=
  ⟨⟨_, rfl⟩, ⟨_, rfl⟩, ⟨_, rfl⟩, ⟨_, rfl⟩, ⟨_, rfl⟩, ⟨_, rfl⟩, ⟨_, rfl⟩, ⟨_, rfl⟩, ⟨_, rfl⟩,
    ⟨_, rfl⟩, ⟨_, rfl⟩⟩

/-! ## Slashes in UTF-8 -/

theorem utf8_ne_nil {s : JavaString} (nonempty : s ≠ []) : utf8 s ≠ [] := by
  cases s with
  | nil => exact absurd rfl nonempty
  | cons c s =>
      rw [utf8_cons]
      exact List.append_ne_nil_of_left_ne_nil String.utf8EncodeChar_ne_nil _

/-- A byte that continues a code point is no slash. -/
theorem continuation_ne_slash (b : UInt8) : (b &&& 0x3f ||| 0x80) ≠ slash :=
  @forall_byte (fun b => (b &&& 0x3f ||| 0x80) ≠ slash) (by decide +kernel) b

theorem eq_slash_of_getLast? {c : Char}
    (last : (String.utf8EncodeChar c).getLast? = some slash) : c = '/' := by
  have size : c.utf8Size = 1 ∨ c.utf8Size = 2 ∨ c.utf8Size = 3 ∨ c.utf8Size = 4 := by
    have positive := c.utf8Size_pos
    have bounded := c.utf8Size_le_four
    omega
  rcases size with one | two | three | four
  · have small := Char.utf8Size_eq_one_iff.mp one
    rw [String.utf8EncodeChar_eq_singleton one, List.getLast?_singleton, Option.some.injEq] at last
    have number : c.val.toNat = 47 := by
      have byte := congrArg UInt8.toNat last
      rw [UInt32.toNat_toUInt8] at byte
      rw [UInt32.le_iff_toNat_le] at small
      have value : slash.toNat = 47 := rfl
      have bound : (0x7f : UInt32).toNat = 127 := rfl
      omega
    exact Char.ext (UInt32.toNat_inj.mp number)
  · rw [String.utf8EncodeChar_eq_cons_cons two] at last
    exact absurd (by simpa using last) (continuation_ne_slash c.val.toUInt8)
  · rw [String.utf8EncodeChar_eq_cons_cons_cons three] at last
    exact absurd (by simpa using last) (continuation_ne_slash c.val.toUInt8)
  · rw [String.utf8EncodeChar_eq_cons_cons_cons_cons four] at last
    exact absurd (by simpa using last) (continuation_ne_slash c.val.toUInt8)

theorem getLast?_utf8 {s : JavaString} (last : (utf8 s).getLast? = some slash) :
    s.getLast? = some '/' := by
  rcases List.eq_nil_or_concat s with rfl | ⟨front, c, rfl⟩
  · cases last
  · have single : utf8 [c] = String.utf8EncodeChar c := by simp [utf8]
    rw [List.concat_eq_append, utf8_append, single, List.getLast?_append_of_ne_nil _
      String.utf8EncodeChar_ne_nil] at last
    rw [List.concat_eq_append, List.getLast?_concat, eq_slash_of_getLast? last]

/-! ## The prefix -/

/-- The prefix between its white space and slashes. -/
def innerPrefix (pathPrefix : JavaString) : JavaString :=
  trimChar '/' (Kotlin.trim pathPrefix)

/-- A normalized prefix is the default, or a slash and the inner part. -/
theorem normalizedPrefix_cases (pathPrefix : JavaString) :
    (isBlank (innerPrefix pathPrefix) = true ∧ normalizedPrefix pathPrefix = text "/dav") ∨
      (isBlank (innerPrefix pathPrefix) = false ∧
        normalizedPrefix pathPrefix = '/' :: innerPrefix pathPrefix) := by
  unfold normalizedPrefix innerPrefix
  by_cases blank : isBlank (trim pathPrefix) = true
  · have empty := isBlank_iff_trim_eq_nil.mp blank
    rw [trim_trim] at empty
    exact Or.inl ⟨by rw [empty]; rfl, if_pos blank⟩
  · by_cases root : trim pathPrefix = text "/"
    · exact Or.inl ⟨by rw [root]; rfl, by rw [root]; rfl⟩
    · dsimp only
      rw [if_neg blank, if_neg root]
      cases inner : isBlank (trimChar '/' (trim pathPrefix)) with
      | true => exact Or.inl ⟨rfl, by rw [ifBlank, if_pos inner]; rfl⟩
      | false => exact Or.inr ⟨rfl, by rw [ifBlank, if_neg (by simp [inner])]⟩

theorem trimChar_getLast? (s : JavaString) : (trimChar '/' s).getLast? ≠ some '/' := by
  unfold trimChar
  intro last
  have nonempty : (s.dropWhile (· = '/')).rdropWhile (· = '/') ≠ [] := by
    intro empty
    rw [empty] at last
    cases last
  have other := List.rdropWhile_last_not (· = '/') (s.dropWhile (· = '/')) nonempty
  rw [List.getLast?_eq_some_getLast nonempty, Option.some.injEq] at last
  exact other (by simp [last])

theorem trimChar_head? (s : JavaString) : (trimChar '/' s).head? ≠ some '/' := by
  intro head
  obtain ⟨rest, split⟩ := List.rdropWhile_prefix (· = '/') (s.dropWhile (· = '/'))
  have first : (s.dropWhile (· = '/')).head? = some '/' := by
    rw [← split]
    change (trimChar '/' s ++ rest).head? = some '/'
    rw [List.head?_append, head]
    rfl
  have other := List.head?_dropWhile_not (· = '/') s
  rw [first] at other
  simp at other

theorem trimChar_eq_self {s : JavaString} (head : s.head? ≠ some '/')
    (last : s.getLast? ≠ some '/') : trimChar '/' s = s := by
  have left : s.dropWhile (· = '/') = s := by
    cases s with
    | nil => rfl
    | cons c s =>
        have other : c ≠ '/' := fun same => head (by simp [same])
        exact List.dropWhile_cons_of_neg (by simp [other])
  rw [trimChar, left]
  rcases List.eq_nil_or_concat s with rfl | ⟨front, c, rfl⟩
  · rfl
  · have other : c ≠ '/' := fun same => last (by simp [same])
    rw [List.concat_eq_append, List.rdropWhile_concat_neg _ _ _ (by simp [other])]

theorem trimEnd_slash_cons (s : JavaString) : trimEnd ('/' :: s) = '/' :: trimEnd s := by
  induction s using List.reverseRecOn with
  | nil => rfl
  | append_singleton s c ih =>
      unfold trimEnd at ih ⊢
      cases blank : isWhitespace c with
      | true =>
          rw [← List.cons_append, List.rdropWhile_concat_pos _ _ _ blank,
            List.rdropWhile_concat_pos _ _ _ blank, ih]
      | false =>
          rw [← List.cons_append, List.rdropWhile_concat_neg _ _ _ (by simp [blank]),
            List.rdropWhile_concat_neg _ _ _ (by simp [blank]), List.cons_append]

theorem innerPrefix_slash_cons (s : JavaString) :
    innerPrefix ('/' :: s) = trimChar '/' (trimEnd s) := by
  have start : trimStart ('/' :: s) = '/' :: s := rfl
  rw [innerPrefix, Kotlin.trim, start, trimEnd_slash_cons]
  rfl

/-- The trims only shorten. -/
theorem innerPrefix_slash_cons_length (s : JavaString) :
    (innerPrefix ('/' :: s)).length ≤ (trimEnd s).length := by
  rw [innerPrefix_slash_cons]
  exact (List.rdropWhile_prefix _ _).length_le.trans (List.dropWhile_suffix _).length_le

/-- A second pass changes nothing exactly where the inner part is blank or does not
end in white space. -/
theorem normalizedPrefix_twice_iff (pathPrefix : JavaString) :
    normalizedPrefix (normalizedPrefix pathPrefix) = normalizedPrefix pathPrefix ↔
      isBlank (innerPrefix pathPrefix) = true ∨
        trimEnd (innerPrefix pathPrefix) = innerPrefix pathPrefix := by
  rcases normalizedPrefix_cases pathPrefix with ⟨blank, once⟩ | ⟨solid, once⟩
  · rw [once]
    exact iff_of_true (by decide) (Or.inl blank)
  · have kept : trimChar '/' (innerPrefix pathPrefix) = innerPrefix pathPrefix :=
      trimChar_eq_self (trimChar_head? _) (trimChar_getLast? _)
    rw [once]
    generalize innerPrefix pathPrefix = inner at solid kept ⊢
    constructor
    · intro fixed
      right
      rcases normalizedPrefix_cases ('/' :: inner) with ⟨-, twice⟩ | ⟨-, twice⟩
      · rw [fixed] at twice
        have whole : inner = text "dav" := (List.cons.inj twice).2
        rw [whole]
        decide
      · rw [fixed] at twice
        have same := (List.cons.inj twice).2
        have cut := innerPrefix_slash_cons_length inner
        rw [← same] at cut
        have isStart : trimEnd inner <+: inner := List.rdropWhile_prefix _ _
        exact isStart.eq_of_length (Nat.le_antisymm isStart.length_le cut)
    · rintro (blank | ends)
      · rw [solid] at blank
        cases blank
      · have same := innerPrefix_slash_cons inner
        rw [ends, kept] at same
        rcases normalizedPrefix_cases ('/' :: inner) with ⟨blank, -⟩ | ⟨-, twice⟩
        · rw [same, solid] at blank
          cases blank
        · rw [twice, same]

/-! ## What is passed on -/

theorem ifBlank_ne_nil {s default : JavaString} (solid : isBlank default = false) :
    ifBlank s default ≠ [] := by
  intro empty
  have notBlank := @isBlank_ifBlank s default solid
  rw [empty] at notBlank
  cases notBlank

theorem normalizedPrefix_normal (pathPrefix : JavaString) :
    NormalPrefix (utf8 (normalizedPrefix pathPrefix)) := by
  rcases normalizedPrefix_cases pathPrefix with ⟨-, once⟩ | ⟨solid, once⟩
  · rw [once]
    exact ⟨by decide, by decide⟩
  · rw [once]
    constructor
    · rfl
    · have nonempty : innerPrefix pathPrefix ≠ [] := by
        intro empty
        rw [empty] at solid
        cases solid
      have last : (utf8 ('/' :: innerPrefix pathPrefix)).getLast? ≠ some slash := by
        intro isSlash
        have whole := getLast?_utf8 isSlash
        rw [List.getLast?_cons_of_ne_nil nonempty] at whole
        exact trimChar_getLast? _ whole
      rw [trimRight, List.rdropWhile_eq_self_iff]
      intro some isSlash
      refine last ?_
      rw [List.getLast?_eq_some_getLast some]
      simpa using isSlash

theorem listenEndpoint_solid (cases : CaseTables) (remote : QuarkDavRemote) :
    trimSpace (utf8 (remote.listenEndpoint cases)) ≠ [] := by
  have colon : ∀ rune ∈ spaceRunes, (58 : UInt8) ∉ rune := by decide
  refine trimSpace_ne_nil colon ?_
  rw [QuarkDavRemote.listenEndpoint, utf8_append, utf8_append]
  have inside : (58 : UInt8) ∈ utf8 (text ":") := by decide
  exact List.mem_append_left _ (List.mem_append_right _ inside)

theorem chosen_cases (cases : CaseTables) (value option default : JavaString) :
    chosen cases value option default = option ∨ chosen cases value option default = default := by
  unfold chosen
  split
  · exact Or.inl rfl
  · exact Or.inr rfl

theorem passed_listen (platform : Platform) (remote : QuarkDavRemote) :
    (remote.kernelConfig platform).passed.listen =
      utf8 ((remote.normalized platform.cases).listenEndpoint platform.cases) := by
  rw [QuarkDavKernelConfig.passed, QuarkDavRemote.kernelConfig]

theorem passed_urlPrefix (platform : Platform) (remote : QuarkDavRemote) :
    (remote.kernelConfig platform).passed.urlPrefix = utf8 (normalizedPrefix remote.pathPrefix) :=
  rfl

theorem passed_rootId (platform : Platform) (remote : QuarkDavRemote) :
    (remote.kernelConfig platform).passed.cookie.rootId =
      utf8 (ifBlank (Kotlin.trim remote.rootId) (text "0")) :=
  rfl

theorem passed_orderBy (platform : Platform) (remote : QuarkDavRemote) :
    (remote.kernelConfig platform).passed.cookie.orderBy =
      utf8 (ifBlank (Kotlin.trim remote.orderBy) (text "none")) :=
  rfl

theorem passed_brand (platform : Platform) (remote : QuarkDavRemote) :
    (remote.kernelConfig platform).passed.cookie.brand =
      utf8 (chosen platform.cases remote.brand (text "uc") (text "quark")) :=
  rfl

theorem passed_orderDirection (platform : Platform) (remote : QuarkDavRemote) :
    (remote.kernelConfig platform).passed.cookie.orderDirection =
      utf8 (chosen platform.cases remote.orderDirection (text "desc") (text "asc")) :=
  rfl

/-- The kernel finds nothing to normalize in the file of the application. -/
theorem passed_normal (platform : Platform) (remote : QuarkDavRemote) :
    NormalConfig (remote.kernelConfig platform).passed where
  listen := by
    rw [passed_listen]
    exact listenEndpoint_solid platform.cases (remote.normalized platform.cases)
  urlPrefix := by
    rw [passed_urlPrefix]
    exact normalizedPrefix_normal remote.pathPrefix
  driver := by
    show utf8 (text "cookie") = str "cookie"
    decide
  cacheTTLSeconds := by
    have ttl : (remote.kernelConfig platform).passed.cacheTTLSeconds =
      max remote.cacheTtlSeconds 1 := rfl
    omega
  rootId := by
    rw [passed_rootId]
    exact utf8_ne_nil (ifBlank_ne_nil (by decide))
  brand := by
    rw [passed_brand]
    rcases chosen_cases platform.cases remote.brand (text "uc") (text "quark") with uc | quark
    · exact Or.inl (by rw [uc]; decide)
    · exact Or.inr (by rw [quark]; decide)
  orderBy := by
    rw [passed_orderBy]
    exact utf8_ne_nil (ifBlank_ne_nil (by decide))
  orderDirection := by
    rw [passed_orderDirection]
    rcases chosen_cases platform.cases remote.orderDirection (text "desc") (text "asc") with
      desc | asc
    · exact Or.inl (by rw [desc]; decide)
    · exact Or.inr (by rw [asc]; decide)

/-- The second normalization of a remote is its first exactly where that holds of the
prefix. -/
theorem normalized_twice_iff (cases : CaseTables) (remote : QuarkDavRemote) :
    (remote.normalized cases).normalized cases = remote.normalized cases ↔
      isBlank (innerPrefix remote.pathPrefix) = true ∨
        trimEnd (innerPrefix remote.pathPrefix) = innerPrefix remote.pathPrefix := by
  rw [normalized_normalized, ← normalizedPrefix_twice_iff]
  constructor
  · intro same
    exact congrArg QuarkDavRemote.pathPrefix same
  · intro same
    rw [same]
    rfl

/-- What the application passes on is a normal form of the kernel, whose own
normalization is idempotent, and it survives the kernel's save and load; that of the
application is idempotent exactly for the prefixes whose inner part is blank or does
not end in white space. -/
theorem normalForms_agree_iff {χ : Type} (json : GoJson χ) (platform : Platform)
    (remote : QuarkDavRemote) (config : Config) (configPath : GoString) (file : Option χ) :
    (normalize (remote.kernelConfig platform).passed = (remote.kernelConfig platform).passed ∧
        normalize (normalize config) = normalize config ∧
        (trimSpace configPath ≠ [] →
          loadFromFlags json { config := configPath }
              (Kernel.save json configPath (remote.kernelConfig platform).passed file).2 =
            .ok (remote.kernelConfig platform).passed) ∧
        (remote.normalized platform.cases).normalized platform.cases =
          remote.normalized platform.cases) ↔
      (isBlank (innerPrefix remote.pathPrefix) = true ∨
        trimEnd (innerPrefix remote.pathPrefix) = innerPrefix remote.pathPrefix) := by
  have normal := passed_normal platform remote
  have valid := (remote.kernelConfig platform).passed_valid
  rw [← normalized_twice_iff platform.cases remote]
  constructor
  · exact fun all => all.2.2.2
  · intro twice
    exact ⟨normalize_of_normal normal, normalize_normalize config,
      fun path => loadFromFlags_save normal valid json path file, twice⟩

/-- A space before the last slash is taken away by the second pass only. -/
theorem spacedPrefix_changesTwice :
    (({ plainRemote with pathPrefix := text "a /" }).normalized asciiCase).normalized asciiCase ≠
      ({ plainRemote with pathPrefix := text "a /" }).normalized asciiCase := by
  intro same
  have pathPrefixes := congrArg QuarkDavRemote.pathPrefix same
  revert pathPrefixes
  decide

end RoundSync.QuarkDav
