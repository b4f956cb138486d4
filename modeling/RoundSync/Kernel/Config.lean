import RoundSync.Text.GoSpaces

/-!
# Kernel configuration

The record that the kernel reads from its runtime file and `normalize`, which
runs after every load and before every save.
-/

namespace RoundSync.Kernel

open RoundSync.Text

structure CookieConfig where
  cookie : GoString
  rootId : GoString
  brand : GoString
  orderBy : GoString
  orderDirection : GoString
  useTranscodingAddress : Bool
  onlyListVideoFile : Bool
  deriving DecidableEq

structure Config where
  listen : GoString
  urlPrefix : GoString
  username : GoString
  password : GoString
  noAuth : Bool
  cacheTTLSeconds : Int
  tempDir : GoString
  driver : GoString
  cookie : CookieConfig
  deriving DecidableEq

def defaultConfig : Config where
  listen := str "127.0.0.1:5244"
  urlPrefix := str "/dav"
  username := str "quark"
  password := str "quark"
  noAuth := false
  cacheTTLSeconds := 15
  tempDir := []
  driver := str "cookie"
  cookie :=
    { cookie := []
      rootId := str "0"
      brand := str "quark"
      orderBy := str "none"
      orderDirection := str "asc"
      useTranscodingAddress := false
      onlyListVideoFile := false }

/-- The prefix part of `normalize`. -/
def normalizePrefix (p : GoString) : GoString :=
  let p := if trimSpace p = [] then str "/dav" else p
  let p := if hasPrefix p [slash] then p else slash :: p
  let p := trimRight p [slash]
  if p = [] then str "/dav" else p

def normalizeCookie (c : CookieConfig) : CookieConfig :=
  let brand := toLower (trimSpace c.brand)
  let orderDirection := toLower (trimSpace c.orderDirection)
  { c with
    rootId := if c.rootId = [] then str "0" else c.rootId
    brand := if brand ≠ str "uc" then str "quark" else brand
    orderBy := if c.orderBy = [] then str "none" else c.orderBy
    orderDirection := if orderDirection ≠ str "desc" then str "asc" else orderDirection }

def normalize (c : Config) : Config :=
  { c with
    listen := if trimSpace c.listen = [] then str "127.0.0.1:5244" else c.listen
    urlPrefix := normalizePrefix c.urlPrefix
    driver := str "cookie"
    cacheTTLSeconds := if c.cacheTTLSeconds ≤ 0 then 15 else c.cacheTTLSeconds
    cookie := normalizeCookie c.cookie }

theorem trimRight_trimRight (s cutset : GoString) :
    trimRight (trimRight s cutset) cutset = trimRight s cutset :=
  List.rdropWhile_idempotent _ _

/-- The prefixes that `normalize` produces: rooted, without a slash at the end. -/
structure NormalPrefix (p : GoString) : Prop where
  isRooted : p.head? = some slash
  trimmed : trimRight p [slash] = p

theorem NormalPrefix.ne_nil {p : GoString} (normal : NormalPrefix p) : p ≠ [] := by
  rintro rfl
  exact absurd normal.isRooted (by simp)

theorem NormalPrefix.ne_slash {p : GoString} (normal : NormalPrefix p) : p ≠ [slash] := by
  rintro rfl
  exact absurd normal.trimmed (by decide)

theorem normalizePrefix_normal (p : GoString) : NormalPrefix (normalizePrefix p) := by
  unfold normalizePrefix
  dsimp only
  generalize (if trimSpace p = [] then str "/dav" else p) = q
  have isRooted : (if hasPrefix q [slash] then q else slash :: q).head? = some slash := by
    split
    · rename_i starts
      obtain ⟨rest, rfl⟩ := hasPrefix_iff.mp starts
      rfl
    · rfl
  generalize (if hasPrefix q [slash] then q else slash :: q) = r at isRooted
  split
  · exact ⟨by decide, by decide⟩
  · rename_i nonempty
    refine ⟨?_, trimRight_trimRight r [slash]⟩
    obtain ⟨rest, restEq⟩ : trimRight r [slash] <+: r := List.rdropWhile_prefix _ _
    obtain ⟨byte, tail, trimmedEq⟩ := List.exists_cons_of_ne_nil nonempty
    rw [← restEq, trimmedEq] at isRooted
    rw [trimmedEq]
    simpa using isRooted

theorem slash_solid : ∀ rune ∈ spaceRunes, slash ∉ rune := by
  decide

theorem trimSpace_ne_nil {b : UInt8} (solid : ∀ rune ∈ spaceRunes, b ∉ rune) {s : GoString}
    (mem : b ∈ s) : trimSpace s ≠ [] := by
  intro empty
  exact (trimSpace_eq_nil_iff.mp empty).notMem solid mem

/-- The prefixes that `normalize` produces are those it keeps. -/
theorem normalizePrefix_of_normal {p : GoString} (normal : NormalPrefix p) :
    normalizePrefix p = p := by
  have inside : slash ∈ p := List.mem_of_mem_head? normal.isRooted
  have starts : hasPrefix p [slash] = true := by
    obtain ⟨rest, rfl⟩ : ∃ rest, p = slash :: rest := by
      cases p with
      | nil => exact absurd rfl normal.ne_nil
      | cons b rest => exact ⟨rest, by simpa using normal.isRooted⟩
    exact hasPrefix_iff.mpr ⟨rest, rfl⟩
  simp only [normalizePrefix, trimSpace_ne_nil slash_solid inside, starts, normal.trimmed,
    normal.ne_nil, if_false, if_true]

/-- The configurations that `normalize` leaves alone. -/
structure NormalConfig (c : Config) : Prop where
  listen : trimSpace c.listen ≠ []
  urlPrefix : NormalPrefix c.urlPrefix
  driver : c.driver = str "cookie"
  cacheTTLSeconds : 0 < c.cacheTTLSeconds
  rootId : c.cookie.rootId ≠ []
  brand : c.cookie.brand = str "uc" ∨ c.cookie.brand = str "quark"
  orderBy : c.cookie.orderBy ≠ []
  orderDirection : c.cookie.orderDirection = str "desc" ∨ c.cookie.orderDirection = str "asc"

theorem normalizeCookie_of_normal {c : CookieConfig} (rootId : c.rootId ≠ [])
    (brand : c.brand = str "uc" ∨ c.brand = str "quark") (orderBy : c.orderBy ≠ [])
    (orderDirection : c.orderDirection = str "desc" ∨ c.orderDirection = str "asc") :
    normalizeCookie c = c := by
  have brandKept : (if toLower (trimSpace c.brand) ≠ str "uc" then str "quark"
      else toLower (trimSpace c.brand)) = c.brand := by
    rcases brand with uc | quark
    · rw [uc]
      decide
    · rw [quark]
      decide
  have directionKept : (if toLower (trimSpace c.orderDirection) ≠ str "desc" then str "asc"
      else toLower (trimSpace c.orderDirection)) = c.orderDirection := by
    rcases orderDirection with desc | asc
    · rw [desc]
      decide
    · rw [asc]
      decide
  simp only [normalizeCookie, brandKept, directionKept, rootId, orderBy, if_false]

theorem normalize_of_normal {c : Config} (normal : NormalConfig c) : normalize c = c := by
  have cookie := normalizeCookie_of_normal normal.rootId normal.brand normal.orderBy
    normal.orderDirection
  have positive : ¬ c.cacheTTLSeconds ≤ 0 := Int.not_le.mpr normal.cacheTTLSeconds
  simp only [normalize, normal.listen, normalizePrefix_of_normal normal.urlPrefix, positive, cookie,
    if_false, ← normal.driver]

theorem normalize_normal (c : Config) : NormalConfig (normalize c) where
  listen := by
    show trimSpace (if trimSpace c.listen = [] then str "127.0.0.1:5244" else c.listen) ≠ []
    split
    · decide
    · assumption
  urlPrefix := normalizePrefix_normal c.urlPrefix
  driver := rfl
  cacheTTLSeconds := by
    show 0 < if c.cacheTTLSeconds ≤ 0 then 15 else c.cacheTTLSeconds
    split <;> omega
  rootId := by
    show (if c.cookie.rootId = [] then str "0" else c.cookie.rootId) ≠ []
    split
    · decide
    · assumption
  brand := by
    show (if toLower (trimSpace c.cookie.brand) ≠ str "uc" then str "quark"
      else toLower (trimSpace c.cookie.brand)) = str "uc" ∨ _
    by_cases uc : toLower (trimSpace c.cookie.brand) = str "uc"
    · exact Or.inl (by simp [uc])
    · exact Or.inr (if_pos uc)
  orderBy := by
    show (if c.cookie.orderBy = [] then str "none" else c.cookie.orderBy) ≠ []
    split
    · decide
    · assumption
  orderDirection := by
    show (if toLower (trimSpace c.cookie.orderDirection) ≠ str "desc" then str "asc"
      else toLower (trimSpace c.cookie.orderDirection)) = str "desc" ∨ _
    by_cases desc : toLower (trimSpace c.cookie.orderDirection) = str "desc"
    · exact Or.inl (by simp [desc])
    · exact Or.inr (if_pos desc)

theorem normalize_normalize (c : Config) : normalize (normalize c) = normalize c :=
  normalize_of_normal (normalize_normal c)

/-! ## The runtime file -/

/-- The command line, where an empty value is a flag that is not given. -/
structure Flags where
  config : GoString
  listen : GoString := []
  urlPrefix : GoString := []
  cookie : GoString := []
  user : GoString := []
  pass : GoString := []
  noAuth : Bool := false
  root : GoString := []

/-- A text that JSON can carry. -/
def ValidText (s : GoString) : Prop :=
  ∃ characters : List Char, s = characters.flatMap String.utf8EncodeChar

structure ValidConfig (c : Config) : Prop where
  listen : ValidText c.listen
  urlPrefix : ValidText c.urlPrefix
  username : ValidText c.username
  password : ValidText c.password
  tempDir : ValidText c.tempDir
  driver : ValidText c.driver
  cookie : ValidText c.cookie.cookie
  rootId : ValidText c.cookie.rootId
  brand : ValidText c.cookie.brand
  orderBy : ValidText c.cookie.orderBy
  orderDirection : ValidText c.cookie.orderDirection

/-- The JSON library on configurations.  Every field is written, so what is read
back does not depend on the record that is read into. -/
structure GoJson (χ : Type) where
  marshal : Config → χ
  unmarshal : χ → Config → Option Config
  unmarshal_marshal : ∀ c base, ValidConfig c → unmarshal (marshal c) base = some c

/-- A library whose documents are the records themselves. -/
def recordJson : GoJson Config where
  marshal c := c
  unmarshal c _ := some c
  unmarshal_marshal _ _ _ := rfl

inductive LoadError where
  | configPath
  | readConfig
  | parseConfig
  deriving DecidableEq

def givenOr (flag value : GoString) : GoString :=
  if flag ≠ [] then flag else value

def Flags.apply (flags : Flags) (c : Config) : Config :=
  { c with
    listen := givenOr flags.listen c.listen
    urlPrefix := givenOr flags.urlPrefix c.urlPrefix
    username := givenOr flags.user c.username
    password := givenOr flags.pass c.password
    noAuth := flags.noAuth || c.noAuth
    cookie :=
      { c.cookie with
        cookie := givenOr flags.cookie c.cookie.cookie
        rootId := givenOr flags.root c.cookie.rootId } }

variable {χ : Type}

/-- `LoadFromFlags` on the contents of the file at the path, if it can be read. -/
def loadFromFlags (json : GoJson χ) (flags : Flags) (file : Option χ) :
    Except LoadError Config :=
  if trimSpace flags.config = [] then .error .configPath
  else
    match file with
    | none => .error .readConfig
    | some contents =>
        match json.unmarshal contents defaultConfig with
        | none => .error .parseConfig
        | some c => .ok (normalize (flags.apply c))

/-- The configuration after `Save`, and what the file then holds. -/
def save (json : GoJson χ) (configPath : GoString) (c : Config) (file : Option χ) :
    Config × Option χ :=
  if trimSpace configPath = [] then (c, file)
  else (normalize c, some (json.marshal (normalize c)))

theorem Flags.apply_none (config : GoString) (c : Config) :
    ({ config } : Flags).apply c = c := by
  simp [Flags.apply, givenOr]

/-- A normal configuration survives a save and the load of the next process. -/
theorem loadFromFlags_save {c : Config} (normal : NormalConfig c) (valid : ValidConfig c)
    (json : GoJson χ) {configPath : GoString} (path : trimSpace configPath ≠ [])
    (file : Option χ) :
    loadFromFlags json { config := configPath } (save json configPath c file).2 = .ok c := by
  rw [save, if_neg path, normalize_of_normal normal, loadFromFlags, if_neg path]
  rw [json.unmarshal_marshal c defaultConfig valid]
  dsimp only
  rw [Flags.apply_none, normalize_of_normal normal]

example : loadFromFlags recordJson { config := str "c" }
    (save recordJson (str "c") { defaultConfig with urlPrefix := str "a/" } none).2 =
      .ok { defaultConfig with urlPrefix := str "/a" } := by
  decide

end RoundSync.Kernel
