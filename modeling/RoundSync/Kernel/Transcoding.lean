import RoundSync.Kernel.Overwrites

/-!
# Links to renditions

With the transcoding option, `Client.Link` answers the link of a rendition of a video
where the service has one.  `Copy` and GET read what is behind the link; the listing,
HEAD and the size of an upload are those of the original file.
-/

namespace RoundSync.Kernel

open RoundSync.Text
open RoundSync.Tree
open RoundSync.Transition
open Effect

/-! ## Links -/

/-- One of the renditions that the service lists for a video. -/
structure Rendition where
  url : String
  size : Int
  body : GoString

/-- The options of the client, and what the service knows of a file by its id. -/
structure Client where
  useTranscodingAddress : Bool
  brand : GoString
  category : Nat → Int
  videoList : Nat → List Rendition

/-- `drive.Link`: of the file itself, or of a rendition with its announced length. -/
inductive SourceLink where
  | file (link : Link)
  | rendition (rendition : Rendition)

def getDownloadLink (env : Env) (file : Entry) : Fs SourceLink :=
  readCall env fun drive => (drive.download file.id).map fun _ => .file ⟨file.id⟩

/-- The first rendition that has an address. -/
def Client.firstRendition (client : Client) (id : Nat) : Option Rendition :=
  (client.videoList id).find? fun info => info.url ≠ ""

def getTranscodingLink (client : Client) (env : Env) (file : Entry) : Fs SourceLink :=
  readCall env fun _ =>
    match client.firstRendition file.id with
    | some info => .ok (.rendition info)
    | none => .error (.other "no transcoding link found")

def clientLink (client : Client) (env : Env) (file : Entry) : Fs SourceLink :=
  if client.useTranscodingAddress ∧ env.lower client.brand ≠ str "uc" ∧
      client.category file.id = 1 ∧ file.size > 0 then do
    match ← attempt (getTranscodingLink client env file) with
    | .ok link => pure link
    | .error _ => getDownloadLink env file
  else getDownloadLink env file

/-- `FS.Link` -/
def sourceLink (client : Client) (env : Env) (p : List GoString) : Fs SourceLink := do
  let e ← stat env p
  if e.isDir then fail .isDir
  else clientLink client env e

/-- The body of the response to a GET of the link. -/
def fetchSource (env : Env) : SourceLink → Fs Reader
  | .file link => fetch env link
  | .rendition info => fun w =>
      (readCall env fun _ => .ok (match env.bodyBreaks w.changes w.reads with
        | some (length, message) => Reader.mk (info.body.take length) (some message)
        | none => ⟨info.body, none⟩)) w

/-! ## Requests for content -/

inductive ContentMethod where
  | head
  | get

/-- Status, announced length and body of a response. -/
structure Reply where
  status : Nat
  contentLength : Option Int
  body : GoString

def handleGetHeadPost (client : Client) (env : Env) (method : ContentMethod) (p : List GoString) :
    Fs Reply := do
  let fi ← stat env p
  if fi.isDir then
    match method with
    | .head => pure ⟨200, some 0, []⟩
    | .get => pure ⟨405, none, []⟩
  else
    match method with
    | .head => pure ⟨200, some fi.size, []⟩
    | .get => do
        let link ← sourceLink client env p
        let body ← fetchSource env link
        pure ⟨200, some body.data.length, body.data⟩

/-! ## Copies -/

/-- The file branch of `Copy`. -/
def copyFile (client : Client) (env : Env) (src : Entry) (srcPath dstPath : List GoString) :
    Fs (Option Unit) := do
  let link ← sourceLink client env srcPath
  let body ← fetchSource env link
  let _ ← put env dstPath body src.size src.modTime src.createTime
  pure (some ())

/-- `copyEntry` with its own branch for files. -/
def copyEntryVia (files : Entry → List GoString → List GoString → Fs (Option Unit)) (env : Env)
    (recur : List GoString → List GoString → Fs (Option Unit)) (src : Entry)
    (srcPath dstPath : List GoString) (dstParent : Entry) (dstName : GoString) (depth : Int) :
    Fs (Option Unit) :=
  if src.isDir then copyEntry env recur src srcPath dstPath dstParent dstName depth
  else files src srcPath dstPath

/-- `Copy` through a client, with a bound on the depth of its recursion. -/
def copyVia (files : Entry → List GoString → List GoString → Fs (Option Unit)) (env : Env) :
    Nat → List GoString → List GoString → Bool → Int → Fs (Option Unit)
  | 0, _, _, _, _ => pure none
  | bound + 1, srcPath, dstPath, overwrite, depth => do
      let recur := fun srcPath dstPath => copyVia files env bound srcPath dstPath true (depth - 1)
      let src ← stat env srcPath
      let (dstParent, dstName) ← resolveParent env dstPath
      match ← attempt (stat env dstPath) with
      | .ok existing =>
          if !overwrite then fail .alreadyExists
          else
            changeCall env fun _ drive => drive.delete existing.id
            invalidate [dstParent.id, existing.id]
            copyEntryVia files env recur src srcPath dstPath dstParent dstName depth
      | .error _ => copyEntryVia files env recur src srcPath dstPath dstParent dstName depth

variable {env : Env}

theorem clientLink_off {client : Client} (off : client.useTranscodingAddress = false)
    (file : Entry) : clientLink client env file = getDownloadLink env file :=
  if_neg fun ⟨on, _⟩ => by rw [off] at on; cases on

theorem sourceLink_off {client : Client} (off : client.useTranscodingAddress = false)
    (p : List GoString) (w : World) :
    (∃ found w', link env p w = (.ok found, w') ∧
      sourceLink client env p w = (.ok (.file found.1), w')) ∨
    ∃ e w', link env p w = (.error e, w') ∧ sourceLink client env p w = (.error e, w') := by
  unfold sourceLink link
  rcases isStat : stat env p w with ⟨e | e, w₁⟩
  · rw [bind_of_error isStat, bind_of_error isStat]
    exact .inr ⟨_, _, rfl, rfl⟩
  · rw [bind_of_ok isStat, bind_of_ok isStat, clientLink_off off]
    by_cases isDir : e.isDir = true
    · rw [if_pos isDir, if_pos isDir]
      exact .inr ⟨_, _, rfl, rfl⟩
    · rw [if_neg isDir, if_neg isDir]
      simp only [getDownloadLink, readCall, bind]
      cases env.readFails w₁.changes w₁.reads with
      | some message => exact .inr ⟨_, _, rfl, rfl⟩
      | none =>
          cases w₁.drive.download e.id with
          | error e => exact .inr ⟨_, _, rfl, rfl⟩
          | ok data => exact .inl ⟨_, _, rfl, rfl⟩

theorem copyFile_eq {client : Client} (off : client.useTranscodingAddress = false) (src : Entry)
    (srcPath dstPath : List GoString) :
    copyFile client env src srcPath dstPath = (do
      let (link, _) ← link env srcPath
      let body ← fetch env link
      let _ ← put env dstPath body src.size src.modTime src.createTime
      pure (some ())) := by
  funext w
  unfold copyFile
  rcases sourceLink_off off srcPath w with ⟨found, w', isLink, isSource⟩ | ⟨e, w', isLink, isSource⟩
  · rw [bind_of_ok isLink, bind_of_ok isSource]
    rfl
  · rw [bind_of_error isLink, bind_of_error isSource]

/-- Without the option the client reads the files themselves. -/
theorem copyVia_eq_copy {client : Client} (off : client.useTranscodingAddress = false) (bound : Nat)
    (srcPath dstPath : List GoString) (overwrite : Bool) (depth : Int) :
    copyVia (copyFile client env) env bound srcPath dstPath overwrite depth =
      copy env bound srcPath dstPath overwrite depth := by
  have entries : ∀ recur src srcPath dstPath dstParent dstName depth,
      copyEntryVia (copyFile client env) env recur src srcPath dstPath dstParent dstName depth =
        copyEntry env recur src srcPath dstPath dstParent dstName depth := by
    intro recur src srcPath dstPath dstParent dstName depth
    unfold copyEntryVia
    split
    · rfl
    · rename_i isFile
      rw [copyEntry, if_neg isFile]
      exact copyFile_eq off src srcPath dstPath
  induction bound generalizing srcPath dstPath overwrite depth with
  | zero => rfl
  | succ bound ih =>
      unfold copyVia copy
      simp only [entries, ih] <;> rfl

/-! ## What is read -/

/-- The rendition that the client reads of a file, if its service answers. -/
def Client.rendition (client : Client) (lower : GoString → GoString) (node : Node) :
    Option Rendition :=
  if client.useTranscodingAddress ∧ lower client.brand ≠ str "uc" ∧ client.category node.id = 1 ∧
      node.size > 0 then
    client.firstRendition node.id
  else none

/-- What is behind a link to a file or to one of its renditions. -/
inductive LinkOf (client : Client) (env : Env) (node : Node) : SourceLink → GoString → Prop where
  | file {data : GoString} (isFile : node.body = .file data)
      (unreliable : client.rendition env.lower node ≠ none → ¬env.Reliable) :
      LinkOf client env node (.file ⟨node.id⟩) data
  | rendition {info : Rendition} (isRendition : client.rendition env.lower node = some info) :
      LinkOf client env node (.rendition info) info.body

section

variable {client : Client} {w : World} {p : List GoString} {node : Node} {data : GoString}

theorem sourceLink_ensures (coherent : Coherent w) (found : w.drive.lookup p = some node)
    (isFile : node.body = .file data) :
    Ensures (sourceLink client env p) w
      (fun link w' => Quiet w w' ∧ ∃ content, LinkOf client env node link content)
      fun e w' => Quiet w w' ∧ Injected env w e := by
  unfold sourceLink
  apply (stat_ensures coherent p).bind
  · rintro e w₁ ⟨quiet, other, shows⟩
    have same : node = other := Option.some.inj (found.symm.trans shows.found)
    subst same
    have notDir : ¬e.isDir = true := by
      rw [shows.isDir, Node.isDir_eq_false_iff.mpr ⟨data, isFile⟩]
      exact Bool.false_ne_true
    rw [if_neg notDir]
    have downloads : ∀ {w₂ : World}, Quiet w w₂ →
        (client.rendition env.lower node ≠ none → ¬env.Reliable) →
        Ensures (getDownloadLink env e) w₂
          (fun link w' => Quiet w w' ∧ ∃ content, LinkOf client env node link content)
          fun e w' => Quiet w w' ∧ Injected env w e := by
      intro w₂ quiet unreliable
      have answers : w₂.drive.download e.id = .ok data := by
        rw [shows.id]
        exact Drive.download_eq (quiet.drive ▸ shows.found) isFile
      apply ensures_readCall
      · intro message failing
        exact ⟨quiet.trans (Quiet.of_readings quiet.coherent _ 1),
          Injected.of_quiet quiet ⟨w₂.reads, message, Nat.le_refl _, failing, rfl⟩⟩
      · intro _ link answer
        rw [answers] at answer
        cases answer
        rw [shows.id]
        exact ⟨quiet.trans (Quiet.of_readings quiet.coherent _ 1), data, .file isFile unreliable⟩
      · intro _ e answer
        rw [answers] at answer
        cases answer
    apply Ensures.ite
    · intro transcodes
      rw [shows.id, shows.size] at transcodes
      have isFirst : client.rendition env.lower node = client.firstRendition node.id :=
        if_pos transcodes
      rw [ensures_bind, ensures_attempt]
      apply ensures_readCall
      · intro message failing
        apply downloads (quiet.trans (Quiet.of_readings quiet.coherent _ 1))
        intro _ reliable
        rw [reliable.reads] at failing
        cases failing
      · intro _ link answer
        refine ⟨quiet.trans (Quiet.of_readings quiet.coherent _ 1), ?_⟩
        rw [shows.id] at answer
        cases first : client.firstRendition node.id with
        | none =>
            rw [first] at answer
            cases answer
        | some info =>
            rw [first] at answer
            cases answer
            exact ⟨info.body, .rendition (isFirst.trans first)⟩
      · intro _ _ answer
        apply downloads (quiet.trans (Quiet.of_readings quiet.coherent _ 1))
        intro some
        rw [shows.id] at answer
        cases first : client.firstRendition node.id with
        | none => exact absurd (isFirst.trans first) some
        | some info =>
            rw [first] at answer
            cases answer
    · intro original
      rw [shows.id, shows.size] at original
      exact downloads quiet fun some => absurd (if_neg original) some
  · rintro e w₁ ⟨quiet, injected | absent⟩
    · exact ⟨quiet, injected⟩
    · rw [found] at absent
      cases absent

theorem fetchSource_ensures {link : SourceLink} {content : GoString} (coherent : Coherent w)
    (found : w.drive.lookup p = some node) (linkOf : LinkOf client env node link content)
    (complete : ∀ made asked, env.bodyBreaks made asked = none) :
    Ensures (fetchSource env link) w (fun body w' => Quiet w w' ∧ body = ⟨content, none⟩)
      fun e w' => Quiet w w' ∧ Injected env w e := by
  cases linkOf with
  | file isFile _ =>
      unfold fetchSource
      unfold fetch
      apply ensures_readCall
      · intro message failing
        exact ⟨Quiet.of_readings coherent _ 1, w.reads, message, Nat.le_refl _, failing, rfl⟩
      · intro _ body answer
        rw [Drive.download_eq found isFile, complete] at answer
        cases answer
        exact ⟨Quiet.of_readings coherent _ 1, rfl⟩
      · intro _ e answer
        rw [Drive.download_eq found isFile] at answer
        cases answer
  | rendition _ =>
      unfold fetchSource
      apply ensures_readCall
      · intro message failing
        exact ⟨Quiet.of_readings coherent _ 1, w.reads, message, Nat.le_refl _, failing, rfl⟩
      · intro _ body answer
        rw [complete] at answer
        cases answer
        exact ⟨Quiet.of_readings coherent _ 1, rfl⟩
      · intro _ e answer
        cases answer

/-- Link and body of a file: what is behind one of its links. -/
theorem readSource_ensures (coherent : Coherent w) (found : w.drive.lookup p = some node)
    (isFile : node.body = .file data)
    (complete : ∀ made asked, env.bodyBreaks made asked = none) :
    Ensures (sourceLink client env p >>= fetchSource env) w
      (fun body w' => Quiet w w' ∧ ∃ link content, LinkOf client env node link content ∧
        body = ⟨content, none⟩)
      fun e w' => Quiet w w' ∧ Injected env w e := by
  apply (sourceLink_ensures coherent found isFile).bind
  · rintro link w₁ ⟨quiet, content, linkOf⟩
    apply (fetchSource_ensures quiet.coherent (quiet.drive ▸ found) linkOf complete).mono
    · rintro body w₂ ⟨quiet₂, rfl⟩
      exact ⟨quiet.trans quiet₂, link, content, linkOf, rfl⟩
    · rintro e w₂ ⟨quiet₂, injected⟩
      exact ⟨quiet.trans quiet₂, injected.of_quiet quiet⟩
  · exact fun _ _ stopped => stopped

end

/-! ## Lengths -/

/-- The client streams its uploads, and the storage delivers complete bodies. -/
structure Delivers (env : Env) : Prop where
  streaming : env.streaming = true
  complete : ∀ made asked, env.bodyBreaks made asked = none

/-- A file of this length is at the place. -/
def HasLength (d : Drive) (place : List GoString) (length : Int) : Prop :=
  ∃ node data, d.lookup place = some node ∧ node.body = .file data ∧ (data.length : Int) = length

section

variable {client : Client} {w : World} {srcPath dstPath : List GoString} {node : Node}

/-- A stream is uploaded with the length it is announced with. -/
theorem put_hasLength (delivers : Delivers env) (coherent : Coherent w) (body : Reader)
    (size modTime createTime : Int) :
    Ensures (put env dstPath body size modTime createTime) w
      (fun _ w' => HasLength w'.drive dstPath size) fun _ _ => True := by
  apply (put_ensures coherent dstPath body size modTime createTime).mono
  · rintro _ w' ⟨_, ⟨front, name, rfl, replaced⟩, accepted, long, _⟩
    obtain ⟨id, _, found⟩ := replaced.file
    refine ⟨_, _, found, rfl, ?_⟩
    rw [Accepted, delivers.streaming] at accepted
    have nonnegative : 0 ≤ size := accepted
    have enough : ¬body.data.length < size.toNat := fun short => long ⟨delivers.streaming, short⟩
    rw [payload, if_pos delivers.streaming, List.length_take]
    omega
  · exact fun _ _ _ => trivial

theorem copyFile_hasLength (delivers : Delivers env) (coherent : Coherent w) (src : Entry)
    (found : w.drive.lookup srcPath = none ∨
      ∃ node data, w.drive.lookup srcPath = some node ∧ node.body = .file data) :
    Ensures (copyFile client env src srcPath dstPath) w
      (fun _ w' => HasLength w'.drive dstPath src.size) fun _ _ => True := by
  unfold copyFile
  rcases found with gone | ⟨node, data, found, isFile⟩
  · unfold sourceLink
    rw [ensures_bind, ensures_bind]
    apply (stat_ensures coherent srcPath).mono
    · rintro e w₁ ⟨_, node, shows⟩
      have found := shows.found
      rw [gone] at found
      cases found
    · exact fun _ _ _ => trivial
  · apply (sourceLink_ensures coherent found isFile).bind
    · rintro link w₁ ⟨quiet₁, content, linkOf⟩
      have found₁ : w₁.drive.lookup srcPath = some node := quiet₁.drive ▸ found
      apply (fetchSource_ensures quiet₁.coherent found₁ linkOf delivers.complete).bind
      · rintro body w₂ ⟨quiet₂, _⟩
        rw [ensures_bind]
        exact put_hasLength delivers quiet₂.coherent body src.size src.modTime src.createTime
      · exact fun _ _ _ => trivial
    · exact fun _ _ _ => trivial

/-- A copy of a file has the size that the listing gives for its source. -/
theorem copyVia_hasLength (delivers : Delivers env) (coherent : Coherent w) {data : GoString}
    (found : w.drive.lookup srcPath = some node) (isFile : node.body = .file data) (bound : Nat)
    (overwrite : Bool) (depth : Int) :
    Ensures (copyVia (copyFile client env) env (bound + 1) srcPath dstPath overwrite depth) w
      (fun _ w' => HasLength w'.drive dstPath node.size) fun _ _ => True := by
  have entries : ∀ {w' : World} {src : Entry} {recur parent name},
      Coherent w' → w'.drive.lookup srcPath = none ∨ w'.drive.lookup srcPath = some node →
      src.isDir = node.isDir → src.size = node.size →
      Ensures (copyEntryVia (copyFile client env) env recur src srcPath dstPath parent name depth) w'
        (fun _ w' => HasLength w'.drive dstPath node.size) fun _ _ => True := by
    intro w' src recur parent name coherent' place isDir size
    rw [copyEntryVia, isDir, Node.isDir_eq_false_iff.mpr ⟨data, isFile⟩,
      if_neg Bool.false_ne_true, ← size]
    apply copyFile_hasLength delivers coherent'
    rcases place with gone | kept
    · exact .inl gone
    · exact .inr ⟨node, data, kept, isFile⟩
  rw [copyVia]
  apply (stat_ensures coherent srcPath).bind
  · rintro src w₁ ⟨quiet₁, other, shows⟩
    have same : node = other := Option.some.inj (found.symm.trans shows.found)
    subst same
    apply (resolveParent_ensures quiet₁.coherent dstPath).bind
    · rintro ⟨dstParent, name⟩ w₂ ⟨quiet₂, front, pnode, rfl, showsParent, _⟩
      have quiet₁₂ := quiet₁.trans quiet₂
      dsimp only at showsParent ⊢
      rw [ensures_bind, ensures_attempt]
      apply (stat_ensures quiet₂.coherent (front ++ [name])).mono
      · rintro existing w₃ ⟨quiet₃, dnode, showsDst⟩
        have quiet := quiet₁₂.trans quiet₃
        rw [quiet₂.drive, ← quiet₂.drive, ← quiet₃.drive] at showsDst
        rw [← quiet₂.drive, ← quiet₃.drive] at showsParent
        apply Ensures.ite
        · exact fun _ => trivial
        · intro _
          apply (delete_ensures quiet.coherent showsParent showsDst).bind
          · rintro _ _ ⟨_, d', rfl, removed, coherent'⟩
            rw [ensures_bind, ensures_invalidate]
            apply entries coherent' _ shows.isDir shows.size
            show d'.lookup srcPath = none ∨ d'.lookup srcPath = some node
            rw [removed.lookup, quiet.drive, found]
            split
            · exact .inl rfl
            · exact .inr rfl
          · exact fun _ _ _ => trivial
      · rintro e w₃ ⟨quiet₃, _⟩
        have quiet := quiet₁₂.trans quiet₃
        exact entries quiet.coherent (.inr (quiet.drive ▸ found)) shows.isDir shows.size
    · exact fun _ _ _ => trivial
  · exact fun _ _ _ => trivial

end

/-- What the lengths of a file at a place owe to one another: HEAD announces what GET
delivers, a copy has the size that is listed, and this is the size of what is uploaded. -/
structure LengthsAgree (client : Client) (lower : GoString → GoString) (p : List GoString)
    (node : Node) : Prop where
  requests : ∀ (env : Env) (w : World) (head : Reply) (w₁ : World) (get : Reply) (w₂ : World),
    env.lower = lower → Delivers env → Coherent w → w.drive.lookup p = some node →
    handleGetHeadPost client env .head p w = (.ok head, w₁) →
    handleGetHeadPost client env .get p w₁ = (.ok get, w₂) →
    head.contentLength = some (get.body.length : Int)
  copies : ∀ (env : Env) (w : World) (bound : Nat) (dstPath : List GoString) (overwrite : Bool)
    (depth : Int) (w' : World),
    env.lower = lower → Delivers env → Coherent w → w.drive.lookup p = some node →
    copyVia (copyFile client env) env bound p dstPath overwrite depth w = (.ok (some ()), w') →
    HasLength w'.drive dstPath node.size
  uploads : ∀ (env : Env) (w : World) (src : Entry) (w₁ : World) (body : Reader) (w₂ : World),
    env.lower = lower → Delivers env → Coherent w → w.drive.lookup p = some node →
    stat env p w = (.ok src, w₁) →
    (sourceLink client env p >>= fetchSource env) w₁ = (.ok body, w₂) →
    src.size = (body.data.length : Int)

section

variable {client : Client} {lower : GoString → GoString} {p : List GoString} {node : Node}
  {data : GoString}

theorem LinkOf.length_eq {link : SourceLink} {content : GoString}
    (linkOf : LinkOf client env node link content)
    (faithful : ∀ info, client.rendition env.lower node = some info →
      (info.body.length : Int) = node.size) : (content.length : Int) = node.size := by
  cases linkOf with
  | file isFile _ => exact (Node.size_eq isFile).symm
  | rendition isRendition => exact faithful _ isRendition

theorem handleGet_ensures {w : World} (coherent : Coherent w)
    (found : w.drive.lookup p = some node) (isFile : node.body = .file data)
    (complete : ∀ made asked, env.bodyBreaks made asked = none) :
    Ensures (handleGetHeadPost client env .get p) w
      (fun get _ => ∃ link content, LinkOf client env node link content ∧ get.body = content)
      fun _ w' => Quiet w w' := by
  unfold handleGetHeadPost
  apply (stat_ensures coherent p).bind
  · rintro e w₁ ⟨quiet₁, other, shows⟩
    have same : node = other := Option.some.inj (found.symm.trans shows.found)
    subst same
    have found₁ : w₁.drive.lookup p = some node := quiet₁.drive ▸ found
    rw [shows.isDir, Node.isDir_eq_false_iff.mpr ⟨data, isFile⟩, if_neg Bool.false_ne_true]
    apply (sourceLink_ensures quiet₁.coherent found₁ isFile).bind
    · rintro link w₂ ⟨quiet₂, content, linkOf⟩
      have quiet := quiet₁.trans quiet₂
      apply (fetchSource_ensures quiet.coherent (quiet.drive ▸ found) linkOf complete).bind
      · rintro body w₃ ⟨_, rfl⟩
        exact ⟨link, content, linkOf, rfl⟩
      · rintro e w₃ ⟨quiet₃, _⟩
        exact quiet.trans quiet₃
    · rintro e w₂ ⟨quiet₂, _⟩
      exact quiet₁.trans quiet₂
  · exact fun _ _ stopped => stopped.1

theorem handleHead_ensures {w : World} (coherent : Coherent w)
    (found : w.drive.lookup p = some node) (isFile : node.body = .file data) :
    Ensures (handleGetHeadPost client env .head p) w
      (fun head w' => Quiet w w' ∧ head.contentLength = some node.size)
      fun _ w' => Quiet w w' := by
  unfold handleGetHeadPost
  apply (stat_ensures coherent p).bind
  · rintro e w₁ ⟨quiet, other, shows⟩
    have same : node = other := Option.some.inj (found.symm.trans shows.found)
    subst same
    rw [shows.isDir, Node.isDir_eq_false_iff.mpr ⟨data, isFile⟩, if_neg Bool.false_ne_true]
    exact ⟨quiet, congrArg some shows.size⟩
  · exact fun _ _ stopped => stopped.1

theorem LengthsAgree.of_faithful (isFile : node.body = .file data)
    (faithful : ∀ info, client.rendition lower node = some info →
      (info.body.length : Int) = node.size) : LengthsAgree client lower p node := by
  constructor
  · rintro env w head w₁ get w₂ rfl delivers coherent found isHead isGet
    obtain ⟨quiet, announced⟩ := (handleHead_ensures coherent found isFile).ok isHead
    obtain ⟨link, content, linkOf, rfl⟩ := (handleGet_ensures quiet.coherent
      (quiet.drive ▸ found) isFile delivers.complete).ok isGet
    rw [announced, linkOf.length_eq faithful]
  · rintro env w bound dstPath overwrite depth w' rfl delivers coherent found copied
    cases bound with
    | zero => cases copied
    | succ bound =>
        exact (copyVia_hasLength delivers coherent found isFile bound overwrite depth).ok copied
  · rintro env w src w₁ body w₂ rfl delivers coherent found isStat isRead
    obtain ⟨quiet, other, shows⟩ := (stat_ensures coherent p).ok isStat
    have same : node = other := Option.some.inj (found.symm.trans shows.found)
    subst same
    obtain ⟨_, link, content, linkOf, rfl⟩ := (readSource_ensures quiet.coherent
      (quiet.drive ▸ found) isFile delivers.complete).ok isRead
    rw [shows.size, linkOf.length_eq faithful]

end

/-- The lengths agree exactly if the client reads no rendition of the file, or one that
is as long as the file. -/
theorem lengths_agree_iff (client : Client) (lower : GoString → GoString) (d : Drive)
    {p : List GoString} {node : Node} {data : GoString} (found : d.lookup p = some node)
    (isFile : node.body = .file data) :
    LengthsAgree client lower p node ↔
      ∀ info, client.rendition lower node = some info →
        (info.body.length : Int) = node.size := by
  constructor
  · intro agree info isRendition
    let env : Env := { Env.calm with lower := lower }
    have reliable : env.Reliable := ⟨fun _ => rfl, fun _ _ => rfl, fun _ _ => rfl⟩
    have delivers : Delivers env := ⟨rfl, fun _ _ => rfl⟩
    have coherent := coherent_fresh d
    cases isStat : stat env p (World.fresh d) with
    | mk answer w₁ =>
        cases answer with
        | error e =>
            rcases ((stat_ensures coherent p).error isStat).2 with injected | absent
            · exact absurd injected reliable.not_injected
            · exact absurd (absent.symm.trans found) nofun
        | ok src =>
            obtain ⟨quiet, other, shows⟩ := (stat_ensures coherent p).ok isStat
            have same : node = other := Option.some.inj (found.symm.trans shows.found)
            subst same
            have reads := @readSource_ensures env client w₁ p node data quiet.coherent
              (quiet.drive ▸ shows.found) isFile delivers.complete
            cases isRead : (sourceLink client env p >>= fetchSource env) w₁ with
            | mk answer w₂ =>
                cases answer with
                | error e => exact absurd (reads.error isRead).2 reliable.not_injected
                | ok body =>
                    have lengths := agree.uploads env (World.fresh d) src w₁ body w₂ rfl delivers
                      coherent found isStat isRead
                    obtain ⟨_, link, content, linkOf, rfl⟩ := reads.ok isRead
                    cases linkOf with
                    | file _ unreliable =>
                        exact absurd reliable (unreliable fun none => by
                          rw [isRendition] at none
                          cases none)
                    | rendition isOther =>
                        have same : info = _ := Option.some.inj (isRendition.symm.trans isOther)
                        subst same
                        rw [← lengths, shows.size]
  · exact LengthsAgree.of_faithful isFile

/-- A client with the option, whose service has one rendition of every video. -/
def videoClient (body : GoString) : Client where
  useTranscodingAddress := true
  brand := str "quark"
  category _ := 1
  videoList _ := [⟨"https://video", body.length, body⟩]

theorem lengths_agree_video :
    ∃ valid, (Drive.single (str "f") [1] valid).lookup [str "f"] = some ⟨2, .file [1], 0, 0⟩ ∧
      LengthsAgree (videoClient [9]) id [str "f"] ⟨2, .file [1], 0, 0⟩ := by
  have found : (Drive.single (str "f") [1] (by decide)).lookup [str "f"] =
      some ⟨2, .file [1], 0, 0⟩ := by
    decide
  refine ⟨by decide, found, (lengths_agree_iff (videoClient [9]) id _ found rfl).mpr ?_⟩
  intro info isRendition
  rw [Client.rendition, if_pos (by decide)] at isRendition
  cases isRendition
  rfl

/-- HEAD announces one byte of a video, and GET delivers the two of its rendition. -/
theorem video_announced_short :
    ¬∀ (client : Client) (lower : GoString → GoString) (d : Drive) (p : List GoString)
      (node : Node) (data : GoString), d.lookup p = some node → node.body = .file data →
        LengthsAgree client lower p node := by
  intro agree
  have found : (Drive.single (str "f") [1] (by decide)).lookup [str "f"] =
      some ⟨2, .file [1], 0, 0⟩ := by
    decide
  have requests := (agree (videoClient [8, 9]) id (Drive.single (str "f") [1] (by decide))
    [str "f"] ⟨2, .file [1], 0, 0⟩ [1] found rfl).requests Env.calm
    (World.fresh (Drive.single (str "f") [1] (by decide))) ⟨200, some 1, []⟩ _ ⟨200, some 2, [8, 9]⟩ _
    rfl ⟨rfl, fun _ _ => rfl⟩ (coherent_fresh _) found rfl rfl
  cases requests

end RoundSync.Kernel
