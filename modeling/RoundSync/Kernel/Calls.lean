import RoundSync.Kernel.CacheRuns
import RoundSync.Transition.Crew

/-!
# Requests as programs of atomic calls

The operations of `FS` once more, each as a program that makes one driver call,
one lookup in the cache, one store in it or one `Invalidate` at a time, so that
others can run between any two of them.  Run alone, each is the operation of the
kernel's file system (`FsTask.perform_program`).
-/

namespace RoundSync.Kernel.Concurrent

open RoundSync.Data
open RoundSync.Text
open RoundSync.Transition
open Attempt

/-- The driver calls that change the drive. -/
inductive Change where
  | makeDir (parentID : Nat) (name : GoString)
  | delete (id : Nat)
  | move (id dstParentID : Nat)
  | rename (id : Nat) (name : GoString)
  | put (parentID : Nat) (name data : GoString) (modTime createTime : Int)
  | putStream (parentID : Nat) (name : GoString) (size : Int) (r : Reader)
      (modTime createTime : Int)

def Change.apply (now : Int) (drive : Drive) : Change → Except DriveError Drive
  | .makeDir parentID name => drive.makeDir parentID name now
  | .delete id => drive.delete id
  | .move id dstParentID => drive.move id dstParentID
  | .rename id name => drive.rename id name
  | .put parentID name data modTime createTime => drive.put parentID name data modTime createTime
  | .putStream parentID name size r modTime createTime =>
      if r.data.length < size.toNat then .error (.other (r.broken.getD "unexpected EOF"))
      else drive.put parentID name (r.data.take size.toNat) modTime createTime

/-- The directory in which a node is. -/
def parentOf (drive : Drive) (id : Nat) : List Nat :=
  match drive.locate id with
  | .error _ => []
  | .ok (place, _) => ((drive.lookup place.dropLast).map Node.id).toList

/-- The directories whose entries a change changes. -/
def Change.directories (drive : Drive) : Change → List Nat
  | .makeDir parentID _ => [parentID]
  | .delete id => parentOf drive id
  | .move id dstParentID => parentOf drive id ++ [dstParentID]
  | .rename id _ => parentOf drive id
  | .put parentID _ _ _ _ => [parentID]
  | .putStream parentID _ _ _ _ _ => [parentID]

/-- The atomic steps of a request.  A change comes with the directories in which
the request has found what it changes. -/
inductive FsCall where
  | now
  | cached (id : Nat)
  | list (id : Nat)
  | store (id : Nat) (items : List Entry)
  | invalidate (ids : List Nat)
  | change (found : List Nat) (change : Change)
  | link (id : Nat)
  | fetch (link : Link)

namespace FsCall

abbrev Value : FsCall → Type
  | .now => Int
  | .cached _ => Option (List Entry)
  | .list _ => List Entry
  | .store _ _ => PUnit
  | .invalidate _ => PUnit
  | .change _ _ => Unit
  | .link _ => Link
  | .fetch _ => Reader

abbrev Reply (c : FsCall) : Type :=
  Except DriveError c.Value

def effect (env : Env) : (c : FsCall) → Fs c.Value
  | .now => timeNow env
  | .cached id => cachedItems env id
  | .list id => readCall env fun drive => drive.list id
  | .store id items => do
      let now ← timeNow env
      Effect.update fun w => { w with cache := w.cache.insert id ⟨now, items⟩ }
  | .invalidate ids => Kernel.invalidate ids
  | .change _ made => changeCall env fun now drive => made.apply now drive
  | .link id => readCall env fun drive => (drive.download id).map fun _ => Link.mk id
  | .fetch source => Kernel.fetch env source

end FsCall

/-- A request under way: what it still has to do. -/
abbrev Act :=
  Attempt FsCall.Reply DriveError

def callFs (c : FsCall) : Act c.Value :=
  Attempt.call c

def changeFs (found : List Nat) (made : Change) : Act Unit :=
  callFs (.change found made)

def invalidate (ids : List Nat) : Act PUnit :=
  callFs (.invalidate ids)

/-! ## Lookups -/

def listByID (env : Env) (id : Nat) : Act (List Entry) := do
  match ← callFs (.cached id) with
  | some items => pure items
  | none =>
      let listed ← callFs (.list id)
      let items := sortEntries env.lower listed
      callFs (.store id items)
      pure items

def root : Act Entry := do
  let now ← callFs .now
  pure ⟨rootId, [], 0, now, now, true⟩

def statRev (env : Env) : List GoString → Act Entry
  | [] => root
  | name :: dir => do
      let parent ← statRev env dir
      if !parent.isDir then fail .notDir
      else
        let items ← listByID env parent.id
        match items.find? (·.name = name) with
        | some e => pure e
        | none => fail .notFound

def stat (env : Env) (p : List GoString) : Act Entry :=
  statRev env p.reverse

def resolveParent (env : Env) (p : List GoString) : Act (Entry × GoString) :=
  match p.reverse with
  | [] => fail .alreadyExists
  | name :: dir => do
      let parent ← statRev env dir
      if !parent.isDir then fail .notDir else pure (parent, name)

def listPath (env : Env) (p : List GoString) : Act (List Entry) := do
  let e ← stat env p
  if !e.isDir then fail .notDir else listByID env e.id

def findByName (env : Env) (parentID : Nat) (name : GoString) : Act Entry := do
  invalidate [parentID]
  let items ← listByID env parentID
  match items.find? (·.name = name) with
  | some e => pure e
  | none => fail .notFound

/-! ## Changes -/

def makeDir (env : Env) (p : List GoString) : Act PUnit := do
  let (parent, name) ← resolveParent env p
  match ← attempt (stat env p) with
  | .ok _ => fail .alreadyExists
  | .error _ =>
      changeFs [parent.id] (.makeDir parent.id name)
      invalidate [parent.id]

def remove (env : Env) (p : List GoString) : Act PUnit := do
  let obj ← stat env p
  let (parent, _) ← resolveParent env p
  changeFs [parent.id] (.delete obj.id)
  invalidate [parent.id, obj.id]

def moveEntry (env : Env) (src srcParent dstParent : Entry) (dstName : GoString) : Act PUnit :=
  if srcParent.id ≠ dstParent.id then do
    changeFs [srcParent.id, dstParent.id] (.move src.id dstParent.id)
    invalidate [srcParent.id, dstParent.id]
    if src.name ≠ dstName then
      let moved ←
        match ← attempt (findByName env dstParent.id src.name) with
        | .ok fresh => pure fresh
        | .error _ => pure src
      changeFs [dstParent.id] (.rename moved.id dstName)
      invalidate [dstParent.id]
    else pure .unit
  else if src.name ≠ dstName then do
    changeFs [srcParent.id] (.rename src.id dstName)
    invalidate [srcParent.id]
  else pure .unit

def move (env : Env) (srcPath dstPath : List GoString) (overwrite : Bool) : Act PUnit :=
  if srcPath = [] then fail (.other "cannot move root")
  else do
    let src ← stat env srcPath
    let (srcParent, _) ← resolveParent env srcPath
    let (dstParent, dstName) ← resolveParent env dstPath
    match ← attempt (stat env dstPath) with
    | .ok existing =>
        if !overwrite then fail .alreadyExists
        else if existing.id = src.id then fail (.other "destination equals source")
        else
          changeFs [dstParent.id] (.delete existing.id)
          invalidate [dstParent.id, existing.id]
          moveEntry env src srcParent dstParent dstName
    | .error _ => moveEntry env src srcParent dstParent dstName

/-! ## Uploads -/

def hashReaderToTemp (r : Reader) : Act GoString :=
  match r.broken with
  | some message => fail (.other message)
  | none => pure r.data

def prepareOverwrite (env : Env) (dstPath : List GoString) (parent : Entry) (name : GoString) :
    Act (Option Entry × GoString) := do
  let tempName := name ++ tempSuffix
  match ← attempt (stat env dstPath) with
  | .ok existing =>
      if existing.isDir then fail .isDir
      else
        if existing.size = 0 then
          match ← attempt (changeFs [parent.id] (.delete existing.id)) with
          | .ok _ => pure .unit
          | .error e => fail (.wrapped "remove existing zero-byte file" e)
        else changeFs [parent.id] (.rename existing.id tempName)
        invalidate [parent.id]
        pure (some existing, tempName)
  | .error _ => pure (none, tempName)

def restoreOverwrite (env : Env) (parent : Entry) (old : Option Entry) (tempName name : GoString) :
    Act PUnit :=
  match old with
  | none => pure .unit
  | some old =>
      if old.size > 0 then do
        match ← attempt (findByName env parent.id tempName) with
        | .ok tmpObj =>
            let _ ← attempt (changeFs [parent.id] (.rename tmpObj.id name))
            pure .unit
        | .error _ => pure .unit
      else pure .unit

def cleanupOverwrite (env : Env) (parent : Entry) (old : Option Entry) (tempName : GoString) :
    Act PUnit :=
  match old with
  | none => pure .unit
  | some old =>
      if old.size > 0 then do
        match ← attempt (findByName env parent.id tempName) with
        | .ok tmpObj =>
            let _ ← attempt (changeFs [parent.id] (.delete tmpObj.id))
            pure .unit
        | .error _ => pure .unit
      else pure .unit

def replaceFile (env : Env) (dstPath : List GoString) (parent : Entry) (name : GoString)
    (upload : Act Unit) (size modTime createTime : Int) : Act Entry := do
  let (old, tempName) ← prepareOverwrite env dstPath parent name
  match ← attempt upload with
  | .error e =>
      restoreOverwrite env parent old tempName name
      invalidate [parent.id]
      fail e
  | .ok _ =>
      cleanupOverwrite env parent old tempName
      invalidate [parent.id]
      match ← attempt (findByName env parent.id name) with
      | .ok fresh => pure fresh
      | .error _ => pure ⟨0, name, size, modTime, createTime, false⟩

def put (env : Env) (dstPath : List GoString) (r : Reader) (size modTime createTime : Int) :
    Act Entry := do
  let (parent, name) ← resolveParent env dstPath
  if env.streaming then
    if size < 0 then fail .lengthRequired
    else
      replaceFile env dstPath parent name
        (changeFs [parent.id] (.putStream parent.id name size r modTime createTime))
        size modTime createTime
  else
    let data ← hashReaderToTemp r
    replaceFile env dstPath parent name
      (changeFs [parent.id] (.put parent.id name data modTime createTime))
      data.length modTime createTime

/-! ## Copies -/

def link (env : Env) (p : List GoString) : Act (Link × Entry) := do
  let e ← stat env p
  if e.isDir then fail .isDir
  else
    let link ← callFs (.link e.id)
    pure (link, e)

def copyChildren (recur : List GoString → List GoString → Act (Option Unit))
    (srcPath dstPath : List GoString) : List Entry → Act (Option Unit)
  | [] => pure (some ())
  | child :: children => do
      match ← recur (srcPath ++ [child.name]) (dstPath ++ [child.name]) with
      | none => pure none
      | some () => copyChildren recur srcPath dstPath children

def copyEntry (env : Env) (recur : List GoString → List GoString → Act (Option Unit)) (src : Entry)
    (srcPath dstPath : List GoString) (dstParent : Entry) (dstName : GoString) (depth : Int) :
    Act (Option Unit) :=
  if src.isDir then do
    match ← attempt (changeFs [dstParent.id] (.makeDir dstParent.id dstName)) with
    | .ok _ => pure .unit
    | .error e => if e ≠ .unsupported then fail e else pure .unit
    invalidate [dstParent.id]
    if depth = 0 then pure (some ())
    else
      let children ← listPath env srcPath
      copyChildren recur srcPath dstPath children
  else do
    let (link, _) ← link env srcPath
    let body ← callFs (.fetch link)
    let _ ← put env dstPath body src.size src.modTime src.createTime
    pure (some ())

/-- `Copy`, with a bound on the depth of its recursion. -/
def copy (env : Env) :
    Nat → List GoString → List GoString → Bool → Int → Act (Option Unit)
  | 0, _, _, _, _ => pure none
  | bound + 1, srcPath, dstPath, overwrite, depth => do
      let recur := fun srcPath dstPath => copy env bound srcPath dstPath true (depth - 1)
      let src ← stat env srcPath
      let (dstParent, dstName) ← resolveParent env dstPath
      match ← attempt (stat env dstPath) with
      | .ok existing =>
          if !overwrite then fail .alreadyExists
          else
            changeFs [dstParent.id] (.delete existing.id)
            invalidate [dstParent.id, existing.id]
            copyEntry env recur src srcPath dstPath dstParent dstName depth
      | .error _ => copyEntry env recur src srcPath dstPath dstParent dstName depth

/-! ## Requests -/

/-- What is asked of an `FS`. -/
inductive FsTask where
  | listByID (id : Nat)
  | op (op : FsOp)

/-- What a request answers. -/
inductive Outcome where
  | listing (items : List Entry)
  | entry (e : Entry)
  | done
  deriving DecidableEq

def FsTask.program (env : Env) : FsTask → Act Outcome
  | .listByID id => do pure (.listing (← Concurrent.listByID env id))
  | .op (.list p) => do pure (.listing (← listPath env p))
  | .op (.stat p) => do pure (.entry (← stat env p))
  | .op (.makeDir p) => do
      makeDir env p
      pure .done
  | .op (.remove p) => do
      remove env p
      pure .done
  | .op (.move srcPath dstPath overwrite) => do
      move env srcPath dstPath overwrite
      pure .done
  | .op (.copy bound srcPath dstPath overwrite depth) => do
      let _ ← copy env bound srcPath dstPath overwrite depth
      pure .done
  | .op (.put dstPath r size modTime createTime) => do
      let _ ← put env dstPath r size modTime createTime
      pure .done

/-! ## Requests run alone -/

/-- What a request does when no other one runs. -/
abbrev alone {α : Type} (env : Env) (first : Act α) : Fs α :=
  perform (FsCall.effect env) first

variable {env : Env}

theorem alone_listByID (id : Nat) : alone env (listByID env id) = Kernel.listByID env id := by
  apply perform_bind rfl
  intro hit
  cases hit with
  | some items => rfl
  | none => exact perform_bind rfl fun listed => perform_bind rfl fun _ => rfl

theorem alone_root : alone env root = Kernel.root env :=
  perform_bind rfl fun _ => rfl

theorem alone_statRev (names : List GoString) :
    alone env (statRev env names) = Kernel.statRev env names := by
  induction names with
  | nil => exact alone_root
  | cons name dir ih =>
      apply perform_bind ih
      intro parent
      split
      · rfl
      · apply perform_bind (alone_listByID parent.id)
        intro items
        cases items.find? (·.name = name) with
        | some e => rfl
        | none => rfl

theorem alone_stat (p : List GoString) : alone env (stat env p) = Kernel.stat env p :=
  alone_statRev p.reverse

theorem alone_resolveParent (p : List GoString) :
    alone env (resolveParent env p) = Kernel.resolveParent env p := by
  rw [resolveParent, Kernel.resolveParent]
  cases p.reverse with
  | nil => rfl
  | cons name dir =>
      apply perform_bind (alone_statRev dir)
      intro parent
      split
      · rfl
      · rfl

theorem alone_listPath (p : List GoString) : alone env (listPath env p) = Kernel.listPath env p := by
  apply perform_bind (alone_stat p)
  intro e
  split
  · rfl
  · exact alone_listByID e.id

theorem alone_findByName (parentID : Nat) (name : GoString) :
    alone env (findByName env parentID name) = Kernel.findByName env parentID name := by
  apply perform_bind rfl
  intro _
  apply perform_bind (alone_listByID parentID)
  intro items
  cases items.find? (·.name = name) with
  | some e => rfl
  | none => rfl

theorem alone_makeDir (p : List GoString) : alone env (makeDir env p) = Kernel.makeDir env p := by
  apply perform_bind (alone_resolveParent p)
  rintro ⟨parent, name⟩
  apply perform_bind (perform_attempt (alone_stat p))
  intro known
  cases known with
  | ok e => rfl
  | error e => exact perform_bind rfl fun _ => rfl

theorem alone_remove (p : List GoString) : alone env (remove env p) = Kernel.remove env p := by
  apply perform_bind (alone_stat p)
  intro obj
  apply perform_bind (alone_resolveParent p)
  rintro ⟨parent, name⟩
  exact perform_bind rfl fun _ => rfl

theorem alone_moveEntry (src srcParent dstParent : Entry) (dstName : GoString) :
    alone env (moveEntry env src srcParent dstParent dstName) =
      Kernel.moveEntry env src srcParent dstParent dstName := by
  rw [moveEntry, Kernel.moveEntry]
  split
  · apply perform_bind rfl
    intro _
    apply perform_bind rfl
    intro _
    split
    · apply perform_bind (perform_attempt (alone_findByName _ _))
      intro fresh
      cases fresh with
      | ok e => exact perform_bind rfl fun _ => perform_bind rfl fun _ => rfl
      | error e => exact perform_bind rfl fun _ => perform_bind rfl fun _ => rfl
    · rfl
  · split
    · exact perform_bind rfl fun _ => rfl
    · rfl

theorem alone_move (srcPath dstPath : List GoString) (overwrite : Bool) :
    alone env (move env srcPath dstPath overwrite) =
      Kernel.move env srcPath dstPath overwrite := by
  rw [move, Kernel.move]
  split
  · rfl
  · apply perform_bind (alone_stat srcPath)
    intro src
    apply perform_bind (alone_resolveParent srcPath)
    rintro ⟨srcParent, srcName⟩
    apply perform_bind (alone_resolveParent dstPath)
    rintro ⟨dstParent, dstName⟩
    apply perform_bind (perform_attempt (alone_stat dstPath))
    intro known
    cases known with
    | ok existing =>
        dsimp only
        split
        · rfl
        · split
          · rfl
          · exact perform_bind rfl fun _ => perform_bind rfl fun _ => alone_moveEntry _ _ _ _
    | error e => exact alone_moveEntry _ _ _ _

theorem alone_hashReaderToTemp (r : Reader) :
    alone env (hashReaderToTemp r) = Kernel.hashReaderToTemp r := by
  rw [hashReaderToTemp, Kernel.hashReaderToTemp]
  cases r.broken with
  | some message => rfl
  | none => rfl

theorem alone_prepareOverwrite (dstPath : List GoString) (parent : Entry) (name : GoString) :
    alone env (prepareOverwrite env dstPath parent name) =
      Kernel.prepareOverwrite env dstPath parent name := by
  apply perform_bind (perform_attempt (alone_stat dstPath))
  intro known
  cases known with
  | error e => rfl
  | ok existing =>
      dsimp only
      split
      · rfl
      · split
        · apply perform_bind (perform_attempt rfl)
          intro removed
          cases removed with
          | ok _ => exact perform_bind rfl fun _ => rfl
          | error e => exact perform_bind rfl fun _ => perform_bind rfl fun _ => rfl
        · exact perform_bind rfl fun _ => perform_bind rfl fun _ => rfl

theorem alone_restoreOverwrite (parent : Entry) (old : Option Entry) (tempName name : GoString) :
    alone env (restoreOverwrite env parent old tempName name) =
      Kernel.restoreOverwrite env parent old tempName name := by
  cases old with
  | none => rfl
  | some old =>
      rw [restoreOverwrite, Kernel.restoreOverwrite]
      split
      · apply perform_bind (perform_attempt (alone_findByName _ _))
        intro found
        cases found with
        | ok tmpObj => exact perform_bind (perform_attempt rfl) fun _ => rfl
        | error e => rfl
      · rfl

theorem alone_cleanupOverwrite (parent : Entry) (old : Option Entry) (tempName : GoString) :
    alone env (cleanupOverwrite env parent old tempName) =
      Kernel.cleanupOverwrite env parent old tempName := by
  cases old with
  | none => rfl
  | some old =>
      rw [cleanupOverwrite, Kernel.cleanupOverwrite]
      split
      · apply perform_bind (perform_attempt (alone_findByName _ _))
        intro found
        cases found with
        | ok tmpObj => exact perform_bind (perform_attempt rfl) fun _ => rfl
        | error e => rfl
      · rfl

theorem alone_replaceFile (dstPath : List GoString) (parent : Entry) (name : GoString)
    {upload : Act Unit} {call : Fs Unit} (same : alone env upload = call)
    (size modTime createTime : Int) :
    alone env (replaceFile env dstPath parent name upload size modTime createTime) =
      Kernel.replaceFile env dstPath parent name call size modTime createTime := by
  apply perform_bind (alone_prepareOverwrite dstPath parent name)
  rintro ⟨old, tempName⟩
  apply perform_bind (perform_attempt same)
  intro uploaded
  cases uploaded with
  | error e =>
      apply perform_bind (alone_restoreOverwrite parent old tempName name)
      intro _
      exact perform_bind rfl fun _ => rfl
  | ok _ =>
      apply perform_bind (alone_cleanupOverwrite parent old tempName)
      intro _
      apply perform_bind rfl
      intro _
      apply perform_bind (perform_attempt (alone_findByName parent.id name))
      intro fresh
      cases fresh with
      | ok e => rfl
      | error e => rfl

theorem alone_put (dstPath : List GoString) (r : Reader) (size modTime createTime : Int) :
    alone env (put env dstPath r size modTime createTime) =
      Kernel.put env dstPath r size modTime createTime := by
  apply perform_bind (alone_resolveParent dstPath)
  rintro ⟨parent, name⟩
  dsimp only
  split
  · split
    · rfl
    · exact alone_replaceFile dstPath parent name rfl size modTime createTime
  · apply perform_bind (alone_hashReaderToTemp r)
    intro data
    exact alone_replaceFile dstPath parent name rfl data.length modTime createTime

theorem alone_link (p : List GoString) : alone env (link env p) = Kernel.link env p := by
  apply perform_bind (alone_stat p)
  intro e
  split
  · rfl
  · exact perform_bind rfl fun _ => rfl

section

variable {recur : List GoString → List GoString → Act (Option Unit)}
  {recur' : List GoString → List GoString → Fs (Option Unit)}
  (same : ∀ srcPath dstPath, alone env (recur srcPath dstPath) = recur' srcPath dstPath)
include same

theorem alone_copyChildren (srcPath dstPath : List GoString) (children : List Entry) :
    alone env (copyChildren recur srcPath dstPath children) =
      Kernel.copyChildren recur' srcPath dstPath children := by
  induction children with
  | nil => rfl
  | cons child children ih =>
      apply perform_bind (same _ _)
      intro copied
      cases copied with
      | none => rfl
      | some _ => exact ih

theorem alone_copyEntry (src : Entry) (srcPath dstPath : List GoString) (dstParent : Entry)
    (dstName : GoString) (depth : Int) :
    alone env (copyEntry env recur src srcPath dstPath dstParent dstName depth) =
      Kernel.copyEntry env recur' src srcPath dstPath dstParent dstName depth := by
  rw [copyEntry, Kernel.copyEntry]
  split
  · have rest : alone env (do
        invalidate [dstParent.id]
        if depth = 0 then pure (some ())
        else
          let children ← listPath env srcPath
          copyChildren recur srcPath dstPath children) = (do
        Kernel.invalidate [dstParent.id]
        if depth = 0 then pure (some ())
        else
          let children ← Kernel.listPath env srcPath
          Kernel.copyChildren recur' srcPath dstPath children) := by
      apply perform_bind rfl
      intro _
      split
      · rfl
      · apply perform_bind (alone_listPath srcPath)
        intro children
        exact alone_copyChildren same srcPath dstPath children
    apply perform_bind (perform_attempt rfl)
    intro made
    cases made with
    | ok _ => exact rest
    | error e =>
        dsimp only
        split
        · exact perform_bind rfl fun _ => rest
        · exact rest
  · apply perform_bind (alone_link srcPath)
    rintro ⟨found, e⟩
    apply perform_bind rfl
    intro body
    exact perform_bind (alone_put dstPath body src.size src.modTime src.createTime) fun _ => rfl

end

theorem alone_copy (bound : Nat) (srcPath dstPath : List GoString) (overwrite : Bool)
    (depth : Int) :
    alone env (copy env bound srcPath dstPath overwrite depth) =
      Kernel.copy env bound srcPath dstPath overwrite depth := by
  induction bound generalizing srcPath dstPath overwrite depth with
  | zero => rfl
  | succ bound ih =>
      have entry : ∀ src dstParent dstName, alone env
          (copyEntry env (fun srcPath dstPath => copy env bound srcPath dstPath true (depth - 1))
            src srcPath dstPath dstParent dstName depth) =
          Kernel.copyEntry env
            (fun srcPath dstPath => Kernel.copy env bound srcPath dstPath true (depth - 1))
            src srcPath dstPath dstParent dstName depth :=
        fun src dstParent dstName =>
          alone_copyEntry (fun _ _ => ih _ _ _ _) src srcPath dstPath dstParent dstName depth
      apply perform_bind (alone_stat srcPath)
      intro src
      apply perform_bind (alone_resolveParent dstPath)
      rintro ⟨dstParent, dstName⟩
      apply perform_bind (perform_attempt (alone_stat dstPath))
      intro known
      cases known with
      | error e => exact entry src dstParent dstName
      | ok existing =>
          dsimp only
          split
          · rfl
          · exact perform_bind rfl fun _ => perform_bind rfl fun _ => entry src dstParent dstName

theorem state_of_alone {α : Type} {first : Act α} {one : Fs α} (same : alone env first = one)
    (outcome : α → Outcome) (w : World) :
    (alone env (first >>= fun value => pure (outcome value)) w).2 = (one w).2 := by
  have whole : alone env (first >>= fun value => pure (outcome value)) =
      one >>= fun value => pure (outcome value) := perform_bind same fun _ => rfl
  rw [whole]
  simp only [bind]
  rcases one w with ⟨error | value, reached⟩
  · rfl
  · rfl

/-- A request that is not interrupted performs its operation. -/
theorem FsTask.perform_program (op : FsOp) (w : World) :
    (alone env (program env (.op op)) w).2 = op.perform env w := by
  cases op with
  | list p => exact state_of_alone (alone_listPath p) Outcome.listing w
  | stat p => exact state_of_alone (alone_stat p) Outcome.entry w
  | makeDir p => exact state_of_alone (alone_makeDir p) (fun _ => .done) w
  | remove p => exact state_of_alone (alone_remove p) (fun _ => .done) w
  | move srcPath dstPath overwrite =>
      exact state_of_alone (alone_move srcPath dstPath overwrite) (fun _ => .done) w
  | copy bound srcPath dstPath overwrite depth =>
      exact state_of_alone (alone_copy bound srcPath dstPath overwrite depth) (fun _ => .done) w
  | put dstPath r size modTime createTime =>
      exact state_of_alone (alone_put dstPath r size modTime createTime) (fun _ => .done) w

end RoundSync.Kernel.Concurrent
