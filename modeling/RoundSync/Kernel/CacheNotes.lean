import RoundSync.Kernel.Calls

/-!
# What a request owes the cache

Any number of requests work on one `FS`, interrupting each other between any two
of their atomic steps.  It is noted of each which directories it has changed and
not dropped from the cache since, and which listing it has fetched last.  Every
request keeps only listings it has fetched, and has dropped what it changed when
it ends (`FsTask.owes_program`).
-/

namespace RoundSync.Kernel.Concurrent

open RoundSync.Data
open RoundSync.Text
open RoundSync.Transition
open Attempt

/-- What all requests share, and how often the entries of each directory have
changed. -/
structure Shared where
  world : World
  versions : Nat → Nat

/-- A listing that the drive has answered, and the version of its directory. -/
structure Fetched where
  id : Nat
  items : List Entry
  version : Nat

/-- What is noted of a request: the directories whose listings it has outdated
and not dropped since, and the listing it has fetched last. -/
structure Notes where
  pending : List Nat
  fetched : Option Fetched

/-- The directories whose entries a call changes. -/
def FsCall.touched (env : Env) (w : World) : FsCall → List Nat
  | .change _ made =>
      match (changeCall env (fun now drive => made.apply now drive) w).1 with
      | .ok _ => made.directories w.drive
      | .error _ => []
  | _ => []

def answer (env : Env) (c : FsCall) (s : Shared) : c.Reply × Shared :=
  ((c.effect env s.world).1,
    { world := (c.effect env s.world).2
      versions := fun id =>
        if id ∈ c.touched env s.world then s.versions id + 1 else s.versions id })

def Notes.after (env : Env) (notes : Notes) (s : Shared) : FsCall → Notes
  | .list id =>
      { notes with
        fetched :=
          match (readCall env (fun drive => drive.list id) s.world).1 with
          | .ok items => some ⟨id, items, s.versions id⟩
          | .error _ => none }
  | .invalidate ids =>
      { notes with pending := if ids = [] then [] else notes.pending.filter (· ∉ ids) }
  | .change found made =>
      { notes with
        pending := ((FsCall.change found made).touched env s.world).filter (· ∈ found) ++
          notes.pending }
  | _ => notes

theorem Notes.fetched_after_list {env : Env} {notes : Notes} {s : Shared} {id : Nat} {f : Fetched}
    (noted : (notes.after env s (.list id)).fetched = some f) :
    ∃ items, (readCall env (fun drive => drive.list id) s.world).1 = .ok items ∧
      f = ⟨id, items, s.versions id⟩ := by
  rw [Notes.after] at noted
  cases answered : (readCall env (fun drive => drive.list id) s.world).1 with
  | ok items =>
      rw [answered] at noted
      exact ⟨items, rfl, (Option.some.inj noted).symm⟩
  | error e =>
      rw [answered] at noted
      cases noted

/-- A request keeps the listing that it has fetched last, in some order. -/
def Notes.Allowed (notes : Notes) : FsCall → Prop
  | .store id items =>
      ∃ fetched, notes.fetched = some fetched ∧ fetched.id = id ∧ items.Perm fetched.items
  | _ => True

def protocol (env : Env) : Protocol Shared FsCall.Reply Notes where
  answer := answer env
  blank := ⟨[], none⟩
  note := Notes.after env
  allowed := Notes.Allowed

/-! ## Directories that a request still has to drop -/

/-- A request that has to drop directories of `before` only has to drop ones of
`value` if it goes on, and ones of `error` if it ends with an error. -/
def Owes {α : Type} (env : Env) (before : List Nat) (first : Act α) (value error : List Nat) :
    Prop :=
  ∀ notes : Notes, notes.pending ⊆ before →
    Obeys (protocol env) first (fun _ g => g.pending ⊆ value) (fun _ g => g.pending ⊆ error) notes

section

variable {α β : Type} {env : Env} {before value middle error : List Nat} {first : Act α}
  {next : α → Act β}

theorem owes_pure {a : α} (kept : before ⊆ value) :
    Owes env before (pure a : Act α) value error :=
  fun _ owed => List.Subset.trans owed kept

theorem owes_fail {e : DriveError} (kept : before ⊆ error) :
    Owes env before (fail e : Act α) value error :=
  fun _ owed => List.Subset.trans owed kept

theorem Owes.bind (owes : Owes env before first middle error)
    (rest : ∀ a, Owes env middle (next a) value error) :
    Owes env before (first >>= next) value error :=
  fun notes owed => (owes notes owed).bind (fun a g => rest a g) fun _ _ => id

/-- The rule for what follows a part whose error is handed over. -/
theorem Owes.attempt_bind {failed : List Nat} (owes : Owes env before first middle failed)
    {next : Except DriveError α → Act β} (ok : ∀ a, Owes env middle (next (.ok a)) value error)
    (stopped : ∀ e, Owes env failed (next (.error e)) value error) :
    Owes env before (attempt first >>= next) value error := by
  intro notes owed
  have tried : Obeys (protocol env) (attempt first)
      (fun result g =>
        match result with
        | .ok _ => g.pending ⊆ middle
        | .error _ => g.pending ⊆ failed)
      (fun _ _ => False) notes :=
    (owes notes owed).attempt (fun _ _ => id) fun _ _ => id
  apply tried.bind
  · intro result g holds
    cases result with
    | ok a => exact ok a g holds
    | error e => exact stopped e g holds
  · exact fun _ _ => False.elim

theorem Owes.weaken {before' value' error' : List Nat} (owes : Owes env before first value error)
    (less : before' ⊆ before) (more : value ⊆ value') (moreError : error ⊆ error') :
    Owes env before' first value' error' := by
  intro notes owed
  apply (owes notes (List.Subset.trans owed less)).mono
  · exact fun _ _ holds => List.Subset.trans holds more
  · exact fun _ _ holds => List.Subset.trans holds moreError

/-- A call that is always allowed and of which nothing is noted. -/
theorem owes_callFs (c : FsCall) (allowed : ∀ notes : Notes, notes.Allowed c)
    (unnoted : ∀ (notes : Notes) s, notes.after env s c = notes) :
    Owes env before (callFs c) before before := by
  intro notes owed
  have still : ∀ s, (notes.after env s c).pending ⊆ before := by
    intro s
    rw [unnoted]
    exact owed
  exact obeys_call (allowed notes) (fun s _ _ => still s) fun s _ _ => still s

theorem owes_invalidate {ids : List Nat} (dropped : ∀ id ∈ before, id ∉ ids → id ∈ value) :
    Owes env before (invalidate ids) value error := by
  intro notes owed
  apply obeys_call trivial
  · intro s _ _
    change (if ids = [] then [] else notes.pending.filter (· ∉ ids)) ⊆ value
    split
    · exact List.nil_subset value
    · intro id member
      obtain ⟨isPending, kept⟩ := List.mem_filter.mp member
      exact dropped id (owed isPending) (of_decide_eq_true kept)
  · intro s e reply
    cases reply

theorem owes_changeFs (found : List Nat) (made : Change) :
    Owes env before (changeFs found made) (found ++ before) before := by
  intro notes owed
  apply obeys_call trivial
  · intro s _ _ id member
    rcases List.mem_append.mp member with changed | isPending
    · exact List.mem_append_left before (of_decide_eq_true (List.mem_filter.mp changed).2)
    · exact List.mem_append_right found (owed isPending)
  · intro s e reply
    have nothing : (FsCall.change found made).touched env s.world = [] := by
      rw [FsCall.touched]
      split
      · rename_i done
        exact nomatch done.symm.trans reply
      · rfl
    change (((FsCall.change found made).touched env s.world).filter (· ∈ found) ++
      notes.pending) ⊆ before
    rw [nothing]
    exact owed

/-- The notes have the listing that a request has just fetched. -/
theorem obeys_list (id : Nat) {notes : Notes} (owed : notes.pending ⊆ before) :
    Obeys (protocol env) (callFs (.list id))
      (fun items g => g.pending ⊆ before ∧
        ∃ fetched, g.fetched = some fetched ∧ fetched.id = id ∧ fetched.items = items)
      (fun _ g => g.pending ⊆ before) notes := by
  apply obeys_call trivial
  · intro s items reply
    refine ⟨owed, ⟨id, items, s.versions id⟩, ?_, rfl, rfl⟩
    have answered : (readCall env (fun drive => drive.list id) s.world).1 = .ok items := reply
    change (match (readCall env (fun drive => drive.list id) s.world).1 with
      | .ok items => some (⟨id, items, s.versions id⟩ : Fetched)
      | .error _ => none) = _
    rw [answered]
  · exact fun _ _ _ => owed

theorem owes_listByID (id : Nat) : Owes env before (listByID env id) before before := by
  apply (owes_callFs (.cached id) (fun _ => trivial) fun _ _ => rfl).bind
  intro hit
  cases hit with
  | some items => exact owes_pure (List.Subset.refl before)
  | none =>
      intro notes owed
      apply (obeys_list id owed).bind
      · rintro items g ⟨owed, fetched, noted, rfl, rfl⟩
        have stored : Obeys (protocol env)
            (callFs (.store fetched.id (sortEntries env.lower fetched.items)))
            (fun _ g => g.pending ⊆ before) (fun _ g => g.pending ⊆ before) g := by
          apply obeys_call
          · exact ⟨fetched, noted, rfl, List.perm_insertionSort _ _⟩
          · exact fun _ _ _ => owed
          · exact fun _ _ _ => owed
        exact stored.bind (fun _ _ owed => owed) fun _ _ owed => owed
      · exact fun _ _ owed => owed

theorem owes_statRev (names : List GoString) :
    Owes env before (statRev env names) before before := by
  induction names with
  | nil =>
      apply (owes_callFs .now (fun _ => trivial) fun _ _ => rfl).bind
      exact fun _ => owes_pure (List.Subset.refl before)
  | cons name dir ih =>
      apply ih.bind
      intro parent
      split
      · exact owes_fail (List.Subset.refl before)
      · apply (owes_listByID parent.id).bind
        intro items
        split
        · exact owes_pure (List.Subset.refl before)
        · exact owes_fail (List.Subset.refl before)

theorem owes_stat (p : List GoString) : Owes env before (stat env p) before before :=
  owes_statRev p.reverse

theorem owes_resolveParent (p : List GoString) :
    Owes env before (resolveParent env p) before before := by
  rw [resolveParent]
  split
  · exact owes_fail (List.Subset.refl before)
  · apply (owes_statRev _).bind
    intro parent
    split
    · exact owes_fail (List.Subset.refl before)
    · exact owes_pure (List.Subset.refl before)

theorem owes_listPath (p : List GoString) : Owes env before (listPath env p) before before := by
  apply (owes_stat p).bind
  intro e
  split
  · exact owes_fail (List.Subset.refl before)
  · exact owes_listByID e.id

theorem owes_findByName (parentID : Nat) (name : GoString) :
    Owes env before (findByName env parentID name) before before := by
  apply (owes_invalidate fun _ member _ => member).bind
  intro _
  apply (owes_listByID parentID).bind
  intro items
  split
  · exact owes_pure (List.Subset.refl before)
  · exact owes_fail (List.Subset.refl before)

/-- A change, in front of what drops its directories. -/
theorem owes_change_bind {found : List Nat} {made : Change} {rest : Unit → Act β}
    (kept : before ⊆ error) (dropped : Owes env (found ++ before) (rest ()) value error) :
    Owes env before (changeFs found made >>= rest) value error := by
  apply ((owes_changeFs found made).weaken (List.Subset.refl before) (List.Subset.refl _) kept).bind
  exact fun _ => dropped

theorem owes_drop {found ids : List Nat} (dropped : found ⊆ ids) :
    Owes env (found ++ before) (invalidate ids) before error := by
  apply owes_invalidate
  intro id member kept
  exact (List.mem_append.mp member).resolve_left fun isFound => kept (dropped isFound)

theorem owes_makeDir (p : List GoString) : Owes env before (makeDir env p) before before := by
  apply (owes_resolveParent p).bind
  rintro ⟨parent, name⟩
  apply (owes_stat p).attempt_bind
  · exact fun _ => owes_fail (List.Subset.refl before)
  · intro _
    exact owes_change_bind (List.Subset.refl before) (owes_drop (List.Subset.refl _))

theorem owes_remove (p : List GoString) : Owes env before (remove env p) before before := by
  apply (owes_stat p).bind
  intro obj
  apply (owes_resolveParent p).bind
  rintro ⟨parent, name⟩
  exact owes_change_bind (List.Subset.refl before)
    (owes_drop (List.subset_append_left [parent.id] [obj.id]))

theorem owes_moveEntry (src srcParent dstParent : Entry) (dstName : GoString) :
    Owes env before (moveEntry env src srcParent dstParent dstName) before before := by
  rw [moveEntry]
  split
  · apply owes_change_bind (List.Subset.refl before)
    apply (owes_drop (List.Subset.refl _)).bind
    intro _
    split
    · apply (owes_findByName dstParent.id src.name).attempt_bind
      · exact fun _ => owes_change_bind (List.Subset.refl before) (owes_drop (List.Subset.refl _))
      · exact fun _ => owes_change_bind (List.Subset.refl before) (owes_drop (List.Subset.refl _))
    · exact owes_pure (List.Subset.refl before)
  · split
    · exact owes_change_bind (List.Subset.refl before) (owes_drop (List.Subset.refl _))
    · exact owes_pure (List.Subset.refl before)

theorem owes_move (srcPath dstPath : List GoString) (overwrite : Bool) :
    Owes env before (move env srcPath dstPath overwrite) before before := by
  rw [move]
  split
  · exact owes_fail (List.Subset.refl before)
  · apply (owes_stat srcPath).bind
    intro src
    apply (owes_resolveParent srcPath).bind
    rintro ⟨srcParent, srcName⟩
    apply (owes_resolveParent dstPath).bind
    rintro ⟨dstParent, dstName⟩
    apply (owes_stat dstPath).attempt_bind
    · intro existing
      dsimp only
      split
      · exact owes_fail (List.Subset.refl before)
      · split
        · exact owes_fail (List.Subset.refl before)
        · apply owes_change_bind (List.Subset.refl before)
          apply (owes_drop (List.subset_append_left [dstParent.id] [existing.id])).bind
          exact fun _ => owes_moveEntry src srcParent dstParent dstName
    · exact fun _ => owes_moveEntry src srcParent dstParent dstName

theorem owes_prepareOverwrite (dstPath : List GoString) (parent : Entry) (name : GoString) :
    Owes env before (prepareOverwrite env dstPath parent name) before before := by
  apply (owes_stat dstPath).attempt_bind
  · intro existing
    dsimp only
    split
    · exact owes_fail (List.Subset.refl before)
    · split
      · apply (owes_changeFs [parent.id] _).attempt_bind
        · intro _
          apply (owes_drop (List.Subset.refl _)).bind
          exact fun _ => owes_pure (List.Subset.refl before)
        · exact fun _ => owes_fail (List.Subset.refl before)
      · apply owes_change_bind (List.Subset.refl before)
        apply (owes_drop (List.Subset.refl _)).bind
        exact fun _ => owes_pure (List.Subset.refl before)
  · exact fun _ => owes_pure (List.Subset.refl before)

/-- What follows an upload changes the parent once more, at most. -/
theorem owes_restoreOverwrite (parent : Entry) (old : Option Entry) (tempName name : GoString)
    (owed : parent.id ∈ before) :
    Owes env before (restoreOverwrite env parent old tempName name) before error := by
  cases old with
  | none => exact owes_pure (List.Subset.refl before)
  | some old =>
      rw [restoreOverwrite]
      split
      · apply (owes_findByName parent.id tempName).attempt_bind
        · intro tmpObj
          apply (owes_changeFs [parent.id] _).attempt_bind
          · exact fun _ => owes_pure (List.cons_subset.mpr ⟨owed, List.Subset.refl before⟩)
          · exact fun _ => owes_pure (List.Subset.refl before)
        · exact fun _ => owes_pure (List.Subset.refl before)
      · exact owes_pure (List.Subset.refl before)

theorem owes_cleanupOverwrite (parent : Entry) (old : Option Entry) (tempName : GoString)
    (owed : parent.id ∈ before) :
    Owes env before (cleanupOverwrite env parent old tempName) before error := by
  cases old with
  | none => exact owes_pure (List.Subset.refl before)
  | some old =>
      rw [cleanupOverwrite]
      split
      · apply (owes_findByName parent.id tempName).attempt_bind
        · intro tmpObj
          apply (owes_changeFs [parent.id] _).attempt_bind
          · exact fun _ => owes_pure (List.cons_subset.mpr ⟨owed, List.Subset.refl before⟩)
          · exact fun _ => owes_pure (List.Subset.refl before)
        · exact fun _ => owes_pure (List.Subset.refl before)
      · exact owes_pure (List.Subset.refl before)

theorem owes_replaceFile (dstPath : List GoString) (parent : Entry) (name : GoString)
    (upload : Change) (size modTime createTime : Int) :
    Owes env before
      (replaceFile env dstPath parent name (changeFs [parent.id] upload) size modTime createTime)
      before before := by
  have more : before ⊆ [parent.id] ++ before := List.subset_append_right _ _
  have first : parent.id ∈ [parent.id] ++ before := List.mem_cons_self
  apply (owes_prepareOverwrite dstPath parent name).bind
  rintro ⟨old, tempName⟩
  apply (owes_changeFs [parent.id] upload).attempt_bind
  · intro _
    apply (owes_cleanupOverwrite parent old tempName first).bind
    intro _
    apply (owes_drop (List.Subset.refl _)).bind
    intro _
    apply (owes_findByName parent.id name).attempt_bind
    · exact fun _ => owes_pure (List.Subset.refl before)
    · exact fun _ => owes_pure (List.Subset.refl before)
  · intro e
    have restored : Owes env before (restoreOverwrite env parent old tempName name)
        ([parent.id] ++ before) before :=
      (owes_restoreOverwrite parent old tempName name first).weaken more (List.Subset.refl _)
        (List.Subset.refl before)
    apply restored.bind
    intro _
    apply (owes_drop (List.Subset.refl _)).bind
    exact fun _ => owes_fail (List.Subset.refl before)

theorem owes_put (dstPath : List GoString) (r : Reader) (size modTime createTime : Int) :
    Owes env before (put env dstPath r size modTime createTime) before before := by
  apply (owes_resolveParent dstPath).bind
  rintro ⟨parent, name⟩
  dsimp only
  split
  · split
    · exact owes_fail (List.Subset.refl before)
    · exact owes_replaceFile dstPath parent name _ size modTime createTime
  · rw [hashReaderToTemp]
    split
    · exact (owes_fail (List.Subset.refl before)).bind fun data =>
        owes_replaceFile dstPath parent name _ data.length modTime createTime
    · exact (owes_pure (List.Subset.refl before)).bind fun data =>
        owes_replaceFile dstPath parent name _ data.length modTime createTime

theorem owes_link (p : List GoString) : Owes env before (link env p) before before := by
  apply (owes_stat p).bind
  intro e
  split
  · exact owes_fail (List.Subset.refl before)
  · apply (owes_callFs (.link e.id) (fun _ => trivial) fun _ _ => rfl).bind
    exact fun _ => owes_pure (List.Subset.refl before)

theorem owes_copyChildren {recur : List GoString → List GoString → Act (Option Unit)}
    (owes : ∀ srcPath dstPath, Owes env before (recur srcPath dstPath) before before)
    (srcPath dstPath : List GoString) (children : List Entry) :
    Owes env before (copyChildren recur srcPath dstPath children) before before := by
  induction children with
  | nil => exact owes_pure (List.Subset.refl before)
  | cons child children ih =>
      apply (owes _ _).bind
      intro copied
      cases copied with
      | none => exact owes_pure (List.Subset.refl before)
      | some _ => exact ih

theorem owes_copyEntry {recur : List GoString → List GoString → Act (Option Unit)}
    (owes : ∀ srcPath dstPath, Owes env before (recur srcPath dstPath) before before)
    (src : Entry) (srcPath dstPath : List GoString) (dstParent : Entry) (dstName : GoString)
    (depth : Int) :
    Owes env before (copyEntry env recur src srcPath dstPath dstParent dstName depth)
      before before := by
  have descent : ∀ _ : PUnit, Owes env before
      (if depth = 0 then pure (some ())
        else do
          let children ← listPath env srcPath
          copyChildren recur srcPath dstPath children) before before := by
    intro _
    split
    · exact owes_pure (List.Subset.refl before)
    · exact (owes_listPath srcPath).bind fun children =>
        owes_copyChildren owes srcPath dstPath children
  rw [copyEntry]
  split
  · apply (owes_changeFs [dstParent.id] _).attempt_bind
    · intro _
      exact (owes_drop (List.Subset.refl _)).bind descent
    · intro e
      have dropping : Owes env before (invalidate [dstParent.id]) before before :=
        owes_invalidate fun _ member _ => member
      dsimp only
      split
      · exact (owes_fail (List.Subset.refl before)).bind fun _ => dropping.bind descent
      · exact dropping.bind descent
  · apply (owes_link srcPath).bind
    rintro ⟨found, e⟩
    apply (owes_callFs (.fetch found) (fun _ => trivial) fun _ _ => rfl).bind
    intro body
    apply (owes_put dstPath body src.size src.modTime src.createTime).bind
    exact fun _ => owes_pure (List.Subset.refl before)

theorem owes_copy (bound : Nat) (srcPath dstPath : List GoString) (overwrite : Bool)
    (depth : Int) :
    Owes env before (copy env bound srcPath dstPath overwrite depth) before before := by
  induction bound generalizing srcPath dstPath overwrite depth with
  | zero => exact owes_pure (List.Subset.refl before)
  | succ bound ih =>
      apply (owes_stat srcPath).bind
      intro src
      apply (owes_resolveParent dstPath).bind
      rintro ⟨dstParent, dstName⟩
      apply (owes_stat dstPath).attempt_bind
      · intro existing
        dsimp only
        split
        · exact owes_fail (List.Subset.refl before)
        · apply owes_change_bind (List.Subset.refl before)
          apply (owes_drop (List.subset_append_left [dstParent.id] [existing.id])).bind
          exact fun _ => owes_copyEntry (fun _ _ => ih _ _ _ _) src srcPath dstPath dstParent
            dstName depth
      · exact fun _ => owes_copyEntry (fun _ _ => ih _ _ _ _) src srcPath dstPath dstParent
          dstName depth

/-- Every request has dropped what it has to when it ends. -/
theorem FsTask.owes_program (task : FsTask) : Owes env [] (task.program env) [] [] := by
  have answers : ∀ {α : Type} {first : Act α} (outcome : α → Outcome),
      Owes env [] first [] [] →
        Owes env [] (first >>= fun value => pure (outcome value)) [] [] :=
    fun outcome owes => owes.bind fun _ => owes_pure (List.Subset.refl [])
  cases task with
  | listByID id => exact answers Outcome.listing (owes_listByID id)
  | op op =>
      cases op with
      | list p => exact answers Outcome.listing (owes_listPath p)
      | stat p => exact answers Outcome.entry (owes_stat p)
      | makeDir p => exact answers (fun _ => .done) (owes_makeDir p)
      | remove p => exact answers (fun _ => .done) (owes_remove p)
      | move srcPath dstPath overwrite =>
          exact answers (fun _ => .done) (owes_move srcPath dstPath overwrite)
      | copy bound srcPath dstPath overwrite depth =>
          exact answers (fun _ => .done) (owes_copy bound srcPath dstPath overwrite depth)
      | put dstPath r size modTime createTime =>
          exact answers (fun _ => .done) (owes_put dstPath r size modTime createTime)

end

end RoundSync.Kernel.Concurrent
