import RoundSync.Text.JavaString

/-!
# QuarkDav remotes

`QuarkDavRemote` and the values the kernel is started with.  A repository
normalizes what it stores and once more what it reads; `normalized` settles
every field in one pass except the path prefix, which can lose another trailing
slash in each.
-/

namespace RoundSync.QuarkDav

open RoundSync.Text
open RoundSync.Text.Kotlin

/-- A literal. -/
abbrev text (s : String) : JavaString :=
  s.toList

structure QuarkDavRemote where
  id : JavaString
  name : JavaString := text "QuarkDav"
  enabled : Bool := false
  startAtBoot : Bool := true
  keepCpuAwake : Bool := true
  listenAddress : JavaString := text "127.0.0.1"
  port : Int := 5244
  pathPrefix : JavaString := text "/dav"
  username : JavaString := text "quark"
  password : JavaString := text "quark"
  noAuth : Bool := false
  cacheTtlSeconds : Int := 15
  tempDir : JavaString := []
  cookie : JavaString := []
  rootId : JavaString := text "0"
  brand : JavaString := text "quark"
  orderBy : JavaString := text "none"
  orderDirection : JavaString := text "asc"
  useTranscodingAddress : Bool := false
  onlyListVideoFile : Bool := false
  deriving DecidableEq

/-- A remote with the defaults in every field that has one. -/
def plainRemote : QuarkDavRemote :=
  { id := text "1", name := text "a", cookie := text "k" }

def normalizedPrefix (pathPrefix : JavaString) : JavaString :=
  let it := trim pathPrefix
  if isBlank it then text "/dav"
  else if it = text "/" then text "/dav"
  else '/' :: ifBlank (trimChar '/' it) (text "dav")

def normalizedAddress (listenAddress : JavaString) : JavaString :=
  ifBlank (trim listenAddress) (text "127.0.0.1")

/-- One of two spellings, as the brand and the order direction are normalized. -/
def chosen (cases : CaseTables) (value option default : JavaString) : JavaString :=
  if cases.equalsIgnoreCase (trim value) option then option else default

def QuarkDavRemote.normalized (cases : CaseTables) (remote : QuarkDavRemote) : QuarkDavRemote :=
  { remote with
    name := trim remote.name
    listenAddress := normalizedAddress remote.listenAddress
    port := max 1 (min remote.port 65535)
    pathPrefix := normalizedPrefix remote.pathPrefix
    cacheTtlSeconds := max remote.cacheTtlSeconds 1
    rootId := ifBlank (trim remote.rootId) (text "0")
    brand := chosen cases remote.brand (text "uc") (text "quark")
    orderBy := ifBlank (trim remote.orderBy) (text "none")
    orderDirection := chosen cases remote.orderDirection (text "desc") (text "asc") }

/-! ## Addresses -/

def isWildcard (address : JavaString) : Bool :=
  trim address ∈ [text "0.0.0.0", text "::", text "[::]", []]

/-- The test of `save` and of the backup import on two remotes. -/
def addressConflict (a b : QuarkDavRemote) : Bool :=
  a.port = b.port &&
    (a.listenAddress = b.listenAddress || isWildcard a.listenAddress || isWildcard b.listenAddress)

/-- The host without brackets. -/
def rawHost (listenAddress : JavaString) : JavaString :=
  removeSuffix (removePrefix listenAddress (text "[")) (text "]")

/-- A host as it stands before a port. -/
def renderedHost (host : JavaString) : JavaString :=
  if ':' ∈ host then text "[" ++ host ++ text "]" else host

def QuarkDavRemote.listenEndpoint (cases : CaseTables) (remote : QuarkDavRemote) : JavaString :=
  let n := remote.normalized cases
  renderedHost (rawHost n.listenAddress) ++ text ":" ++ text (toString n.port)

/-! ## The kernel's configuration -/

/-- What the repository and the supervisor read from Android: case tables, the
cache directory, resolution of relative paths, SHA-256, the JSON form of a remote
and the address of the network interface. -/
structure Platform where
  cases : CaseTables
  cacheDir : JavaString
  absolutePath : JavaString → JavaString
  sha256 : JavaString → JavaString
  encode : QuarkDavRemote → JavaString
  bestLanAddress : JavaString

structure QuarkDavCookieConfig where
  cookie : JavaString
  rootId : JavaString
  brand : JavaString
  orderBy : JavaString
  orderDirection : JavaString
  useTranscodingAddress : Bool
  onlyListVideoFile : Bool
  deriving DecidableEq

structure QuarkDavKernelConfig where
  listen : JavaString
  pathPrefix : JavaString
  username : JavaString
  password : JavaString
  noAuth : Bool
  cacheTtlSeconds : Int
  tempDir : JavaString
  driver : JavaString := text "cookie"
  cookie : QuarkDavCookieConfig
  deriving DecidableEq

/-- A platform whose digests are the texts themselves. -/
def plainPlatform : Platform where
  cases := asciiCase
  cacheDir := text "/cache"
  absolutePath path := path
  sha256 value := value
  encode remote :=
    remote.id ++ '|' :: remote.listenAddress ++ '|' :: text (toString remote.port) ++ '|' ::
      remote.pathPrefix ++ '|' :: remote.username ++ '|' :: remote.password ++ '|' ::
        remote.cookie
  bestLanAddress := text "192.168.0.2"

section Platform

variable (platform : Platform)

def QuarkDavRemote.runtimeTempDir (remote : QuarkDavRemote) : JavaString :=
  let configured := trim remote.tempDir
  if configured ≠ [] then configured
  else platform.cacheDir ++ text "/quarkdav/" ++ remote.id

/-- The file contents that `writeRuntimeConfig` writes. -/
def QuarkDavRemote.kernelConfig (remote : QuarkDavRemote) : QuarkDavKernelConfig :=
  let n := remote.normalized platform.cases
  { listen := n.listenEndpoint platform.cases
    pathPrefix := n.pathPrefix
    username := n.username
    password := n.password
    noAuth := n.noAuth
    cacheTtlSeconds := n.cacheTtlSeconds
    tempDir := platform.absolutePath (n.runtimeTempDir platform)
    cookie :=
      { cookie := n.cookie
        rootId := n.rootId
        brand := n.brand
        orderBy := n.orderBy
        orderDirection := n.orderDirection
        useTranscodingAddress := n.useTranscodingAddress
        onlyListVideoFile := n.onlyListVideoFile } }

/-- The fields that the fingerprint covers, the others blanked. -/
def QuarkDavRemote.fingerprinted (remote : QuarkDavRemote) : QuarkDavRemote :=
  { remote.normalized platform.cases with
    name := [], enabled := false, startAtBoot := false, keepCpuAwake := false }

def fingerprint (remote : QuarkDavRemote) : JavaString :=
  platform.sha256 (platform.encode (remote.fingerprinted platform))

def cookieFingerprint (cookie : JavaString) : JavaString :=
  platform.sha256 cookie

end Platform

/-! ## What one normalization settles -/

section Normalized

variable (cases : CaseTables) (remote : QuarkDavRemote)

@[simp]
theorem id_normalized : (remote.normalized cases).id = remote.id :=
  rfl

@[simp]
theorem cookie_normalized : (remote.normalized cases).cookie = remote.cookie :=
  rfl

@[simp]
theorem enabled_normalized : (remote.normalized cases).enabled = remote.enabled :=
  rfl

@[simp]
theorem startAtBoot_normalized : (remote.normalized cases).startAtBoot = remote.startAtBoot :=
  rfl

@[simp]
theorem name_normalized : (remote.normalized cases).name = trim remote.name :=
  rfl

@[simp]
theorem pathPrefix_normalized :
    (remote.normalized cases).pathPrefix = normalizedPrefix remote.pathPrefix :=
  rfl

@[simp]
theorem listenAddress_normalized :
    (remote.normalized cases).listenAddress = normalizedAddress remote.listenAddress :=
  rfl

theorem port_normalized : (remote.normalized cases).port = max 1 (min remote.port 65535) :=
  rfl

theorem cacheTtlSeconds_normalized :
    (remote.normalized cases).cacheTtlSeconds = max remote.cacheTtlSeconds 1 :=
  rfl

theorem normalizedAddress_idempotent (address : JavaString) :
    normalizedAddress (normalizedAddress address) = normalizedAddress address :=
  ifBlank_trim_idempotent address (text "127.0.0.1") (by decide)

theorem chosen_idempotent (value option default : JavaString)
    (optionTrimmed : trim option = option) (defaultTrimmed : trim default = default)
    (apart : cases.equalsIgnoreCase default option = false) :
    chosen cases (chosen cases value option default) option default =
      chosen cases value option default := by
  unfold chosen
  by_cases same : cases.equalsIgnoreCase (trim value) option = true
  · simp [same, optionTrimmed]
  · simp [same, defaultTrimmed, apart]

theorem brand_apart : cases.equalsIgnoreCase (text "quark") (text "uc") = false := by
  simp [text, CaseTables.equalsIgnoreCase]

theorem orderDirection_apart : cases.equalsIgnoreCase (text "asc") (text "desc") = false := by
  simp [text, CaseTables.equalsIgnoreCase]

/-- A second normalization changes at most the path prefix. -/
theorem normalized_normalized :
    (remote.normalized cases).normalized cases =
      { remote.normalized cases with
        pathPrefix := normalizedPrefix (normalizedPrefix remote.pathPrefix) } := by
  have port : max 1 (min (max 1 (min remote.port 65535)) 65535) =
      max 1 (min remote.port 65535) := by omega
  have ttl : max (max remote.cacheTtlSeconds 1) 1 = max remote.cacheTtlSeconds 1 := by omega
  have brand := chosen_idempotent cases remote.brand (text "uc") (text "quark") (by decide)
    (by decide) (brand_apart cases)
  have direction := chosen_idempotent cases remote.orderDirection (text "desc") (text "asc")
    (by decide) (by decide) (orderDirection_apart cases)
  have rootId := ifBlank_trim_idempotent remote.rootId (text "0") (by decide)
  have orderBy := ifBlank_trim_idempotent remote.orderBy (text "none") (by decide)
  simp only [QuarkDavRemote.normalized, trim_trim, normalizedAddress_idempotent, port, ttl, brand,
    direction, rootId, orderBy]

/-- A prefix can lose a trailing slash, and then the space before it, in every pass. -/
example : normalizedPrefix (text "a / /") = text "/a / " ∧
    normalizedPrefix (text "/a / ") = text "/a " ∧ normalizedPrefix (text "/a ") = text "/a" := by
  decide

end Normalized

end RoundSync.QuarkDav
