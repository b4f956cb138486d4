import RoundSync.Kernel.FullWalks
import RoundSync.Kernel.Server
import Mathlib.Data.List.Dedup

/-!
# What a request does

Whatever calls fail, a request changes the drive only at the places it addresses,
only if no lock that it does not name covers them, and it leaves such locks in
the table.
-/

namespace RoundSync.Kernel

open RoundSync.Data
open RoundSync.Text
open RoundSync.Tree
open RoundSync.Transition
open Effect

/-! ## What a request may touch -/

/-- The tokens that a request brings along or creates, as they are looked up. -/
def HttpRequest.tokens (r : HttpRequest) : List GoString :=
  let brought := (tokenScheme ++ r.uuid) :: trim (r.header.get (str "Lock-Token")) (str "<>") ::
    parseLockTokens (r.header.get (str "If"))
  brought ++ brought.map fun token => trim token (str "<>")

/-- The places at which a request changes the drive, and those at which it may
leave something behind. -/
def DavSite.footprint (dav : DavSite) (r : HttpRequest) (reqPath : GoString) :
    List (List GoString) × List (List GoString) :=
  let destination := destinationPath dav.handler r.host (r.header.get (str "Destination"))
  if r.method = str "PUT" then ([split reqPath], [tempPath (split reqPath)])
  else if r.method = str "MKCOL" ∨ r.method = str "DELETE" then ([split reqPath], [])
  else if r.method = str "MOVE" then
    match destination with
    | .ok dst => ([split reqPath, split dst], [passedPath (split reqPath) (split dst)])
    | .error _ => ([], [])
  else if r.method = str "COPY" then
    match destination with
    | .ok dst => ([split dst], [tempPath (split dst)])
    | .error _ => ([], [])
  else ([], [])

/-- The path of a request that gets as far as a handler. -/
def DavSite.admitted (dav : DavSite) (r : HttpRequest) : Option GoString :=
  if !dav.NoAuth && !dav.checkAuth r then none else (stripPrefix dav.handler r.urlPath).toOption

def DavSite.targets (dav : DavSite) (r : HttpRequest) : List (List GoString) :=
  ((dav.admitted r).map fun reqPath => (dav.footprint r reqPath).1).getD []

def DavSite.leftovers (dav : DavSite) (r : HttpRequest) : List (List GoString) :=
  ((dav.admitted r).map fun reqPath => (dav.footprint r reqPath).2).getD []

/-- An unexpired lock under its own token, which the request does not name. -/
structure Withheld (locks : LockTable) (r : HttpRequest) (l : LockInfo) : Prop where
  held : locks.lookup l.token = some l
  unexpired : expired r.now l = false
  unnamed : l.token ∉ r.tokens

/-- No withheld lock covers the place. -/
def OpenTo (locks : LockTable) (r : HttpRequest) (place : List GoString) : Prop :=
  ∀ l, Withheld locks r l → ¬l.region.Holds place

/-- What a request does to the drive at some places, and to the lock table. -/
structure Handled (r : HttpRequest) (s s' : Server) (targets leftovers : List (List GoString)) :
    Prop where
  coherent : Coherent s'.world
  confined : Confined s.world.drive s'.world.drive targets leftovers
  guarded : s'.world.drive = s.world.drive ∨ ∀ target ∈ targets, OpenTo s.locks r target
  locks : ∀ l, Withheld s.locks r l → s'.locks.lookup l.token = some l

section Steps

variable {env : Env} {r : HttpRequest} {s s' : Server} {targets leftovers : List (List GoString)}

theorem Handled.of_quiet (quiet : Quiet s.world s'.world)
    (locks : ∀ l, Withheld s.locks r l → s'.locks.lookup l.token = some l) :
    Handled r s s' targets leftovers :=
  ⟨quiet.coherent, Confined.of_eq quiet.drive, .inl quiet.drive, locks⟩

theorem Handled.refl (coherent : Coherent s.world) : Handled r s s targets leftovers :=
  Handled.of_quiet (Quiet.refl coherent) fun _ withheld => withheld.held

/-- A reading step before the others. -/
theorem Handled.after_quiet {w : World} (quiet : Quiet s.world w)
    (handled : Handled r { s with world := w } s' targets leftovers) :
    Handled r s s' targets leftovers := by
  have driveEq : w.drive = s.world.drive := quiet.drive
  refine ⟨handled.coherent, driveEq ▸ handled.confined, ?_, handled.locks⟩
  rcases handled.guarded with same | isOpen
  · exact .inl (same.trans driveEq)
  · exact .inr isOpen

/-- A handler does only this, whether it answers or fails. -/
def Handles {α : Type} (run : Serve α) (r : HttpRequest) (s : Server)
    (targets leftovers : List (List GoString)) : Prop :=
  Leaves run s (Handled r s · targets leftovers)

theorem Handles.map {α β : Type} {run : Serve α} (handles : Handles run r s targets leftovers)
    (f : α → β) : Handles (f <$> run) r s targets leftovers := by
  exact Leaves.bind handles (fun _ _ handled => handled) fun _ handled => handled

theorem handles_fail {α : Type} (coherent : Coherent s.world) (e : RequestError) :
    Handles (fail e : Serve α) r s targets leftovers :=
  Handled.refl coherent

theorem withheld_cleanup_iff {locks : LockTable} {l : LockInfo} :
    Withheld (cleanupLocked locks r.now) r l ↔ Withheld locks r l := by
  constructor
  · rintro ⟨held, unexpired, unnamed⟩
    exact ⟨(lookup_cleanupLocked_iff.mp held).1, unexpired, unnamed⟩
  · rintro ⟨held, unexpired, unnamed⟩
    exact ⟨lookup_cleanupLocked_iff.mpr ⟨held, unexpired⟩, unexpired, unnamed⟩

/-- Expired locks have no part in what a request does. -/
theorem Handled.after_cleanup
    (handled : Handled r { s with locks := cleanupLocked s.locks r.now } s' targets leftovers) :
    Handled r s s' targets leftovers := by
  refine ⟨handled.coherent, handled.confined, ?_, ?_⟩
  · rcases handled.guarded with same | isOpen
    · exact .inl same
    · exact .inr fun target member l withheld =>
        isOpen target member l (withheld_cleanup_iff.mpr withheld)
  · intro l withheld
    exact handled.locks l (withheld_cleanup_iff.mpr withheld)

/-- `Check` lets only those pass that name the locks over the paths. -/
theorem handles_checked {α : Type} {rest : Serve α} {paths : List GoString} {denied : RequestError}
    (coherent : Coherent s.world)
    (passes : (∀ p ∈ paths, OpenTo (cleanupLocked s.locks r.now) r (split p)) →
      Handles rest r { s with locks := cleanupLocked s.locks r.now } targets leftovers) :
    Handles (do
      if !(← checkLocks r.now paths (r.header.get (str "If"))) then fail denied else rest) r s
      targets leftovers := by
  unfold Handles Leaves
  rw [ensures_bind, ensures_checkLocks, check_snd]
  split
  · exact Handled.after_cleanup (Handled.refl coherent)
  · rename_i passed
    have passed : (check s.locks r.now paths (r.header.get (str "If"))).1 = true := by
      simpa using passed
    have isOpen : ∀ p ∈ paths, OpenTo (cleanupLocked s.locks r.now) r (split p) := by
      intro p member l withheld holds
      obtain ⟨held, unexpired, unnamed⟩ := withheld_cleanup_iff.mp withheld
      have presented := check_eq_true_iff.mp passed p member l.token l held unexpired
        (lockCovers_iff.mpr holds)
      exact unnamed (by simp [HttpRequest.tokens, presented])
    exact Leaves.mono (passes isOpen) fun _ => Handled.after_cleanup

/-- An operation of the file system at places that no withheld lock covers. -/
theorem handles_onFs {α β : Type} {run : Fs α} {answer : α → β}
    (leaves : Leaves run s.world (StaysWithin s.world targets leftovers))
    (isOpen : ∀ target ∈ targets, OpenTo s.locks r target) :
    Handles (do pure (answer (← onFs run))) r s targets leftovers := by
  have handled : ∀ w, StaysWithin s.world targets leftovers w →
      Handled r s { s with world := w } targets leftovers := fun w stays =>
    ⟨stays.coherent, stays.confined, .inr isOpen, fun _ withheld => withheld.held⟩
  unfold Handles Leaves
  rw [ensures_bind, ensures_onFs]
  exact Leaves.mono leaves handled

/-- A reading step that may fail. -/
theorem handles_attempt {α β : Type} {run : Fs α} {rest : Except RequestError α → Serve β}
    (leaves : Leaves run s.world (Quiet s.world))
    (continues : ∀ a w, Quiet s.world w → Handles (rest a) r { s with world := w } targets leftovers) :
    Handles (do rest (← attempt (onFs run))) r s targets leftovers := by
  have handled : ∀ a w, Quiet s.world w → Leaves (rest a) { s with world := w }
      (Handled r s · targets leftovers) := fun a w quiet =>
    Leaves.mono (continues a w quiet) fun _ => Handled.after_quiet quiet
  unfold Handles Leaves
  rw [ensures_bind, ensures_attempt, ensures_onFs]
  exact Ensures.mono leaves (fun _ => handled _) fun _ => handled _

/-- A reading step of the file system. -/
theorem handles_reading {α β : Type} {run : Fs α} {rest : α → Serve β}
    (leaves : Leaves run s.world (Quiet s.world))
    (continues : ∀ a w, Quiet s.world w → Handles (rest a) r { s with world := w } targets leftovers) :
    Handles (do rest (← onFs run)) r s targets leftovers := by
  unfold Handles Leaves
  rw [ensures_bind, ensures_onFs]
  apply Ensures.mono leaves
  · intro a w quiet
    exact Leaves.mono (continues a w quiet) fun _ => Handled.after_quiet quiet
  · intro e w quiet
    exact Handled.of_quiet quiet fun _ withheld => withheld.held

theorem handles_pure {α : Type} (coherent : Coherent s.world) (a : α) :
    Handles (pure a : Serve α) r s targets leftovers :=
  Handled.refl coherent

theorem stat_quiet {w : World} (coherent : Coherent w) (p : List GoString) :
    Leaves (stat env p) w (Quiet w) :=
  (stat_ensures coherent p).mono (fun _ _ found => found.1) fun _ _ failed => failed.1

theorem resolveParent_quiet {w : World} (coherent : Coherent w) (p : List GoString) :
    Leaves (resolveParent env p) w (Quiet w) :=
  (resolveParent_ensures coherent p).mono (fun _ _ found => found.1) fun _ _ failed => failed.1

theorem link_quiet {w : World} (coherent : Coherent w) (p : List GoString) :
    Leaves (link env p) w (Quiet w) :=
  (link_ensures coherent p).mono (fun _ _ found => found.1) fun _ _ failed => failed.1

theorem readCall_quiet {α : Type} {w : World} (coherent : Coherent w)
    (call : Drive → Except DriveError α) :
    Leaves (readCall env call) w (Quiet w) := by
  have quiet := Quiet.of_readings coherent w.readings 1
  apply ensures_readCall
  · intro _ _
    exact quiet
  · intro _ _ _
    exact quiet
  · intro _ _ _
    exact quiet

end Steps

/-! ## Handlers -/

section Handlers

variable (dav : DavSite) {r : HttpRequest} {s : Server} {reqPath : GoString}
  {targets leftovers : List (List GoString)}

theorem handleOptions_handles (coherent : Coherent s.world) :
    Handles (dav.handleOptions reqPath) r s targets leftovers := by
  unfold DavSite.handleOptions
  apply handles_attempt (stat_quiet coherent _)
  intro fi w quiet
  exact handles_pure quiet.coherent _

theorem download_quiet {w : World} (coherent : Coherent w) (link : Link) (header : Header) :
    Leaves (dav.download link header) w (Quiet w) :=
  readCall_quiet coherent _

theorem handleGetHeadPost_handles (coherent : Coherent s.world) :
    Handles (dav.handleGetHeadPost r reqPath) r s targets leftovers := by
  unfold DavSite.handleGetHeadPost
  apply handles_reading (stat_quiet coherent _)
  intro fi w quiet
  dsimp only
  split
  · split
    · exact handles_pure quiet.coherent _
    · exact handles_fail quiet.coherent _
  · split
    · exact handles_pure quiet.coherent _
    · apply handles_reading (link_quiet quiet.coherent _)
      rintro ⟨link, e⟩ w' quiet'
      apply handles_attempt (download_quiet dav quiet'.coherent link _)
      rintro (_ | ⟨resp, body⟩) w'' quiet''
      · exact handles_fail quiet''.coherent _
      · exact handles_pure quiet''.coherent _

theorem handleProppatch_handles (coherent : Coherent s.world) :
    Handles (dav.handleProppatch r reqPath) r s targets leftovers := by
  unfold DavSite.handleProppatch
  apply handles_checked coherent
  intro _
  apply handles_reading
  · exact stat_quiet coherent _
  · intro _ w quiet
    exact handles_pure quiet.coherent _

theorem handlePut_handles (coherent : Coherent s.world) :
    Handles (dav.handlePut r reqPath) r s [split reqPath] [tempPath (split reqPath)] := by
  unfold DavSite.handlePut
  split
  · exact handles_fail coherent _
  · split
    · exact handles_fail coherent _
    · apply handles_checked coherent
      intro isOpen
      apply handles_onFs
      · exact (put_confined coherent _ _ _ _ _).mono (fun _ _ done => done.1) fun _ _ stays => stays
      · simpa using isOpen

theorem handleMkcol_handles (coherent : Coherent s.world) :
    Handles (dav.handleMkcol r reqPath) r s [split reqPath] [] := by
  unfold DavSite.handleMkcol
  split
  · exact handles_fail coherent _
  · apply handles_checked coherent
    intro isOpen
    split
    · exact Handled.refl coherent
    · apply handles_attempt
      · exact stat_quiet coherent _
      · rintro (_ | _) w quiet
        · apply handles_attempt
          · exact resolveParent_quiet quiet.coherent _
          · rintro (_ | _) w' quiet'
            · exact handles_fail quiet'.coherent _
            · apply handles_onFs
              · exact makeDir_confined quiet'.coherent (split reqPath)
              · simpa using isOpen
        · exact handles_fail quiet.coherent _

theorem handleDelete_handles (coherent : Coherent s.world) :
    Handles (handleDelete dav.fs r.now (DavSite.shortRequest r .delete) reqPath) r s
      [split reqPath] [] := by
  unfold handleDelete
  split
  · exact handles_fail coherent _
  · apply handles_checked coherent
    intro isOpen
    apply handles_onFs
    · exact remove_confined coherent (split reqPath)
    · simpa using isOpen

/-- A value that a handler works out before it does anything. -/
theorem handles_liftExcept {α β : Type} {result : Except HttpError α} {rest : α → Serve β}
    (coherent : Coherent s.world)
    (continues : ∀ a, result = .ok a → Handles (rest a) r s targets leftovers) :
    Handles (do rest (← liftExcept result)) r s targets leftovers := by
  unfold Handles Leaves
  rw [ensures_bind]
  apply ensures_liftExcept
  · exact continues
  · intro e _
    exact Handled.refl coherent

theorem handleMove_handles (coherent : Coherent s.world) (bound : Nat) {dst : GoString}
    (destination : destinationPath dav.handler r.host (r.header.get (str "Destination")) = .ok dst) :
    Handles (handleCopyMove dav.fs bound r.now (DavSite.shortRequest r .move) reqPath) r s
      [split reqPath, split dst] [passedPath (split reqPath) (split dst)] := by
  unfold handleCopyMove
  split
  · exact handles_fail coherent _
  · apply handles_liftExcept coherent
    intro dst' destination'
    cases destination.symm.trans destination'
    split
    · exact handles_fail coherent _
    · split
      · exact handles_fail coherent _
      · apply handles_checked coherent
        intro isOpen
        rw [if_neg (by simp [DavSite.shortRequest])]
        split
        · exact Handled.refl coherent
        · apply handles_onFs
          · exact move_confined coherent _ _ _
          · simpa using isOpen

theorem handleCopy_handles (coherent : Coherent s.world) (bound : Nat) {dst : GoString}
    (destination : destinationPath dav.handler r.host (r.header.get (str "Destination")) = .ok dst) :
    Handles (handleCopyMove dav.fs bound r.now (DavSite.shortRequest r .copy) reqPath) r s
      [split dst] [tempPath (split dst)] := by
  unfold handleCopyMove
  split
  · exact handles_fail coherent _
  · apply handles_liftExcept coherent
    intro dst' destination'
    cases destination.symm.trans destination'
    split
    · exact handles_fail coherent _
    · split
      · exact handles_fail coherent _
      · apply handles_checked coherent
        intro isOpen
        rw [if_pos (by simp [DavSite.shortRequest])]
        apply handles_liftExcept
        · exact coherent
        · intro depth _
          apply handles_onFs
          · exact copy_confined coherent _ _ _ _ _
          · intro target isTarget
            rw [List.mem_singleton.mp isTarget]
            exact isOpen dst (by simp)

/-- Without a destination nothing is done. -/
theorem handleCopyMove_handles (coherent : Coherent s.world) (bound : Nat) (method : Method)
    {e : HttpError}
    (failed : destinationPath dav.handler r.host (r.header.get (str "Destination")) = .error e) :
    Handles (handleCopyMove dav.fs bound r.now (DavSite.shortRequest r method) reqPath) r s
      targets leftovers := by
  unfold handleCopyMove
  split
  · exact handles_fail coherent _
  · apply handles_liftExcept coherent
    intro dst destination
    cases failed.symm.trans destination

/-! ## Locks -/

/-- Withheld locks stay in the table. -/
def LocksKept (r : HttpRequest) (locks locks' : LockTable) : Prop :=
  ∀ l, Withheld locks r l → Withheld locks' r l

theorem LocksKept.trans {first second third : LockTable} (one : LocksKept r first second)
    (other : LocksKept r second third) : LocksKept r first third :=
  fun l withheld => other l (one l withheld)

theorem locksKept_cleanup (locks : LockTable) : LocksKept r locks (cleanupLocked locks r.now) :=
  fun _ => withheld_cleanup_iff.mpr

theorem locksKept_refresh (locks : LockTable) (timeout : Int) {token : GoString}
    (named : trim token (str "<>") ∈ r.tokens) :
    LocksKept r locks (refresh locks r.now token timeout).2 := by
  intro l withheld
  have cleaned := locksKept_cleanup locks l withheld
  refine ⟨?_, withheld.unexpired, withheld.unnamed⟩
  unfold refresh
  dsimp only
  split
  · exact cleaned.held
  · apply Table.lookup_insert_eq_some_iff.mpr
    refine .inr ⟨?_, cleaned.held⟩
    rintro same
    exact withheld.unnamed (same ▸ named)

theorem locksKept_create (locks : LockTable) (path ownerXML : GoString) (zeroDepth : Bool)
    (timeout : Int) :
    LocksKept r locks (create locks r.now r.uuid path ownerXML zeroDepth timeout).2 := by
  intro l withheld
  refine ⟨lookup_create_iff.mpr (.inr ⟨?_, withheld.held, withheld.unexpired⟩), withheld.unexpired,
    withheld.unnamed⟩
  intro same
  exact withheld.unnamed (by simp [HttpRequest.tokens, same])

theorem locksKept_unlock (locks : LockTable) {token : GoString}
    (named : trim token (str "<>") ∈ r.tokens) :
    LocksKept r locks (unlock locks token).2 := by
  intro l withheld
  refine ⟨?_, withheld.unexpired, withheld.unnamed⟩
  unfold unlock
  dsimp only
  split
  · exact withheld.held
  · apply Table.lookup_erase_eq_some_iff.mpr
    refine ⟨?_, withheld.held⟩
    rintro same
    exact withheld.unnamed (same ▸ named)

theorem Handled.of_locks {locks : LockTable} (coherent : Coherent s.world)
    (kept : LocksKept r s.locks locks) : Handled r s { s with locks } targets leftovers :=
  Handled.of_quiet (Quiet.refl coherent) fun l withheld => (kept l withheld).held

theorem refreshFirst_handles (coherent : Coherent s.world) (timeout : Int)
    (tokens : List GoString) (named : ∀ t ∈ tokens, trim t (str "<>") ∈ r.tokens)
    {locks : LockTable} (kept : LocksKept r s.locks locks) :
    Leaves (DavSite.refreshFirst r.now timeout tokens) { s with locks }
      (Handled r s · targets leftovers) := by
  induction tokens generalizing locks with
  | nil => exact Handled.of_locks coherent kept
  | cons t tokens ih =>
      have kept' := kept.trans (locksKept_refresh locks timeout (named t List.mem_cons_self))
      unfold DavSite.refreshFirst Leaves
      rw [ensures_bind]
      change Ensures _ { s with locks := (refresh locks r.now t timeout).2 } _ _
      split
      · exact Handled.of_locks coherent kept'
      · exact ih (fun t member => named t (List.mem_cons_of_mem _ member)) kept'

theorem tokens_of_lockStart {extractOwnerXML : GoString → GoString} {headers : LockHeaders}
    {tokens : List GoString} {timeout : Int}
    (isRefresh : lockStart extractOwnerXML headers = .refresh tokens timeout) :
    tokens = parseLockTokens headers.ifHeader := by
  unfold lockStart at isRefresh
  generalize (if headers.depth ≠ [] then parseDepth headers.depth else some (-1)) = depth at isRefresh
  cases depth with
  | none => contradiction
  | some depth =>
      dsimp only at isRefresh
      split at isRefresh
      · contradiction
      · split at isRefresh
        · cases isRefresh
          rfl
        · contradiction

theorem handleLock_handles (coherent : Coherent s.world) :
    Handles (dav.handleLock r reqPath) r s targets leftovers := by
  have brought : ∀ t ∈ parseLockTokens (r.header.get (str "If")), trim t (str "<>") ∈ r.tokens := by
    intro t member
    apply List.mem_append_right
    exact List.mem_map_of_mem (List.mem_cons_of_mem _ (List.mem_cons_of_mem _ member))
  unfold DavSite.handleLock
  dsimp only
  split
  · exact handles_fail coherent _
  · rename_i tokens timeout isRefresh
    apply refreshFirst_handles coherent timeout
    · intro t member
      rw [(r.isOrder tokens).mem_iff, List.mem_dedup, tokens_of_lockStart isRefresh] at member
      exact brought t member
    · exact fun _ withheld => withheld
  · rename_i zeroDepth ownerXML timeout _
    apply handles_checked coherent
    intro _
    have created := locksKept_create (r := r) (cleanupLocked s.locks r.now) reqPath ownerXML
      zeroDepth timeout
    have named : trim (tokenScheme ++ r.uuid) (str "<>") ∈ r.tokens := by
      simp [HttpRequest.tokens]
    have refreshed := locksKept_refresh (r := r)
      (create (cleanupLocked s.locks r.now) r.now r.uuid reqPath ownerXML zeroDepth timeout).2
      timeout named
    exact Handled.of_locks coherent (created.trans refreshed)

theorem handleUnlock_handles (coherent : Coherent s.world) :
    Handles (DavSite.handleUnlock r) r s targets leftovers := by
  have named : trim (trim (r.header.get (str "Lock-Token")) (str "<>")) (str "<>") ∈ r.tokens := by
    simp [HttpRequest.tokens]
  unfold DavSite.handleUnlock
  dsimp only
  split
  · exact handles_fail coherent _
  · unfold Handles Leaves
    rw [ensures_bind]
    have handled : Handled r s { s with
        locks := (unlock s.locks (trim (r.header.get (str "Lock-Token")) (str "<>"))).2 }
        targets leftovers := Handled.of_locks coherent (locksKept_unlock s.locks named)
    change Ensures _ { s with
      locks := (unlock s.locks (trim (r.header.get (str "Lock-Token")) (str "<>"))).2 } _ _
    split
    · exact handled
    · exact handled

/-! ## PROPFIND -/

section Walks

variable {Inv : Session → Prop} {α : Type}

theorem writePropValue_keeps
    (lists : ∀ s path, Inv s →
      Inv { s with locks := lockStep dav.extractOwnerXML s.locks (.active path) })
    (pn : XmlName) (e : Entry) (userAgent : GoString) {s : Session} (inv : Inv s) :
    Leaves (writePropValue dav.site pn e userAgent) s Inv := by
  have kept : ∀ value, Leaves (pure value : Propfind (Option GoString)) s Inv := fun _ => inv
  unfold writePropValue
  iterate 8 refine .ite (fun _ => kept _) fun _ => ?_
  refine .ite (fun _ => ?_) fun _ => .ite (fun _ => kept _) fun _ => kept _
  rw [ensures_bind]
  exact lists s _ inv

theorem writePropValues_keeps
    (lists : ∀ s path, Inv s →
      Inv { s with locks := lockStep dav.extractOwnerXML s.locks (.active path) })
    (counts : ∀ s values, Inv s → Inv { s with values })
    (e : Entry) (userAgent : GoString) (names : List XmlName) {s : Session} (inv : Inv s) :
    Leaves (writePropValues dav.site e userAgent names) s Inv := by
  induction names generalizing s with
  | nil => exact inv
  | cons pn names ih =>
      unfold writePropValues
      refine .ite (fun _ => ?_) fun _ => ?_
      · rw [ensures_bind, yieldToOthers, ensures_update, ensures_bind, ensures_read]
        apply (writePropValue_keeps dav lists pn e userAgent (counts s _ inv)).bind
        · intro value between inv
          apply (ih inv).bind
          · rintro ⟨found, missing⟩ reached inv
            cases value with
            | none => exact inv
            | some value => exact inv
          · exact fun _ inv => inv
        · exact fun _ inv => inv
      · rw [ensures_bind]
        exact ih inv

theorem walkChildren_keeps {recur : GoString → Entry → Propfind (Option (List α))}
    (recurs : ∀ path e s, Inv s → Leaves (recur path e) s Inv)
    (reqPath : GoString) (children : List Entry) {s : Session} (inv : Inv s) :
    Leaves (walkChildren recur reqPath children) s Inv := by
  induction children generalizing s with
  | nil => exact inv
  | cons child children ih =>
      unfold walkChildren
      apply (recurs _ child s inv).bind
      · rintro (_ | below) reached inv
        · exact inv
        · unfold Leaves
          rw [ensures_bind]
          exact ih inv
      · exact fun _ inv => inv

/-- What the visits and the listings keep, the walk keeps, by induction on its bound. -/
theorem walk_keeps {site : PropfindSite} {visit : GoString → Entry → Propfind α}
    (visits : ∀ path e s, Inv s → Leaves (visit path e) s Inv)
    (lists : ∀ p s, Inv s → Leaves (onWorld (listPath site.env p)) s Inv)
    (bound : Nat) (depth : Int) (reqPath : GoString) (e : Entry) {s : Session} (inv : Inv s) :
    Leaves (walk site visit bound depth reqPath e) s Inv := by
  induction bound generalizing depth reqPath e s with
  | zero => exact inv
  | succ bound ih =>
      unfold walk
      apply (visits reqPath e s inv).bind
      · intro visited reached inv
        refine .ite (fun _ => inv) fun _ => ?_
        apply (lists _ reached inv).bind
        · intro children between inv
          unfold Leaves
          rw [ensures_bind]
          exact walkChildren_keeps (fun path e s inv => ih _ path e inv) reqPath children inv
        · exact fun _ inv => inv
      · exact fun _ inv => inv

end Walks

/-- What a listing of properties keeps: it only reads, and it keeps `P` of the locks. -/
structure ReadsOnly (start : World) (P : LockState → Prop) (t : Session) : Prop where
  quiet : Quiet start t.world
  locks : P t.locks

theorem onWorld_quiet {α : Type} {action : Fs α} {start : World} {t : Session}
    {P : LockState → Prop} (reads : ReadsOnly start P t)
    (leaves : Leaves action t.world (Quiet t.world)) :
    Leaves (onWorld action) t (ReadsOnly start P) :=
  ensures_onWorld.mpr (leaves.mono fun _ step => ⟨reads.quiet.trans step, reads.locks⟩)

theorem handlePropfind_keeps {start : World} {P : LockState → Prop}
    (lists : ∀ locks path, P locks → P (lockStep dav.extractOwnerXML locks (.active path)))
    (bound : Nat) (request : PropfindRequest) (reqPath : GoString) {t : Session}
    (reads : ReadsOnly start P t) :
    Leaves (handlePropfind dav.site bound request reqPath) t (ReadsOnly start P) := by
  have visits : ∀ pf path e s, ReadsOnly start P s →
      Leaves (writePropfindResponse dav.site pf request.userAgent path e) s (ReadsOnly start P) := by
    intro pf path e s reads
    unfold writePropfindResponse
    refine .ite (fun _ => reads) fun _ => ?_
    rw [ensures_bind]
    apply writePropValues_keeps dav _ _ e _ _ reads
    · exact fun s path reads => ⟨reads.quiet, lists s.locks path reads.locks⟩
    · exact fun s values reads => ⟨reads.quiet, reads.locks⟩
  have listings : ∀ p s, ReadsOnly start P s →
      Leaves (onWorld (listPath dav.site.env p)) s (ReadsOnly start P) := by
    intro p s reads
    apply onWorld_quiet reads
    exact (listPath_ensures reads.quiet.coherent p).mono (fun _ _ found => found.1)
      fun _ _ failed => failed.1
  unfold handlePropfind Leaves
  rw [ensures_bind, ensures_attempt]
  apply Ensures.mono (onWorld_quiet reads (stat_quiet reads.quiet.coherent _))
  · rintro fi reached reads
    dsimp only
    split
    · exact reads
    · split
      · exact reads
      · split
        · exact reads
        · rename_i pf _
          rw [ensures_bind, ensures_attempt]
          apply Ensures.mono (walk_keeps (visits pf) listings bound _ reqPath fi reads)
          · exact fun _ _ reads => reads
          · exact fun _ _ reads => reads
  · exact fun _ _ reads => reads

theorem ensures_onSession {α : Type} {now : Int} {action : Propfind α} {Q : α → Server → Prop}
    {E : RequestError → Server → Prop} :
    Ensures (DavSite.onSession now action) s Q E ↔
      Ensures action ⟨s.world, ⟨now, s.locks, [], []⟩, 0⟩
        (fun a t => Q a ⟨t.world, t.locks.locks⟩) fun e t => E (.fs e) ⟨t.world, t.locks.locks⟩ := by
  unfold Ensures DavSite.onSession
  dsimp only
  rcases action ⟨s.world, ⟨now, s.locks, [], []⟩, 0⟩ with ⟨e | a, t⟩
  · rfl
  · rfl

theorem servePropfind_handles (coherent : Coherent s.world) (bound : Nat) :
    Handles (dav.servePropfind bound r reqPath) r s targets leftovers := by
  have keeps := handlePropfind_keeps dav
    (P := fun locks => locks.clock = r.now ∧ LocksKept r s.locks locks.locks) (by
      rintro locks path ⟨atNow, kept⟩
      refine ⟨atNow, kept.trans ?_⟩
      change LocksKept r locks.locks (cleanupLocked locks.locks locks.clock)
      rw [atNow]
      exact locksKept_cleanup locks.locks)
    bound ⟨r.header.get (str "Depth"), r.header.get (str "User-Agent"), r.body⟩ reqPath
    (t := ⟨s.world, ⟨r.now, s.locks, [], []⟩, 0⟩)
    ⟨Quiet.refl coherent, rfl, fun _ withheld => withheld⟩
  have handled : ∀ t' : Session, ReadsOnly s.world (fun locks => locks.clock = r.now ∧
      LocksKept r s.locks locks.locks) t' →
      Handled r s ⟨t'.world, t'.locks.locks⟩ targets leftovers :=
    fun t' reads => Handled.of_quiet reads.quiet fun l withheld => (reads.locks.2 l withheld).held
  unfold DavSite.servePropfind Handles Leaves
  dsimp only
  rw [ensures_bind, ensures_onSession]
  apply Ensures.mono keeps
  · intro answer t' holds
    cases answer with
    | none => exact handled t' holds
    | some answer =>
        cases answer with
        | error status e => exact handled t' holds
        | multistatus responses => exact handled t' holds
  · intro e t' holds
    exact handled t' holds

/-! ## The whole server -/

theorem handle_handles (coherent : Coherent s.world) (bound : Nat) :
    Handles (dav.handle bound r reqPath) r s (dav.footprint r reqPath).1
      (dav.footprint r reqPath).2 := by
  unfold DavSite.handle
  split
  · exact (handleOptions_handles dav coherent).map _
  · split
    · exact (handleGetHeadPost_handles dav coherent).map _
    · split
      · exact servePropfind_handles dav coherent bound
      · split
        · exact (handleProppatch_handles dav coherent).map _
        · split
          · rename_i isPut
            rw [show dav.footprint r reqPath = ([split reqPath], [tempPath (split reqPath)]) by
              simp [DavSite.footprint, isPut]]
            exact (handlePut_handles dav coherent).map _
          · rename_i notPut
            split
            · rename_i isMkcol
              rw [show dav.footprint r reqPath = ([split reqPath], []) by
                rw [DavSite.footprint, if_neg notPut, if_pos (.inl isMkcol)]]
              exact (handleMkcol_handles dav coherent).map _
            · rename_i notMkcol
              split
              · rename_i isDelete
                rw [show dav.footprint r reqPath = ([split reqPath], []) by
                  rw [DavSite.footprint, if_neg notPut, if_pos (.inr isDelete)]]
                exact (handleDelete_handles dav coherent).map _
              · rename_i notDelete
                have neither : ¬(r.method = str "MKCOL" ∨ r.method = str "DELETE") := by
                  simp [notMkcol, notDelete]
                split
                · rename_i isMove
                  rw [DavSite.footprint, if_neg notPut, if_neg neither, if_pos isMove]
                  split
                  · rename_i dst destination
                    exact (handleMove_handles dav coherent bound destination).map _
                  · rename_i e failed
                    exact (handleCopyMove_handles dav coherent bound .move failed).map _
                · rename_i notMove
                  split
                  · rename_i isCopy
                    rw [DavSite.footprint, if_neg notPut, if_neg neither, if_neg notMove,
                      if_pos isCopy]
                    split
                    · rename_i dst destination
                      exact (handleCopy_handles dav coherent bound destination).map _
                    · rename_i e failed
                      exact (handleCopyMove_handles dav coherent bound .copy failed).map _
                  · split
                    · exact (handleLock_handles dav coherent).map _
                    · split
                      · exact (handleUnlock_handles coherent).map _
                      · exact handles_fail coherent _

/-- What one request does, whatever it is and whatever fails. -/
theorem serverStep_handled (coherent : Coherent s.world) (bound : Nat) (r : HttpRequest) :
    Handled r s (dav.serverStep bound s r) (dav.targets r) (dav.leftovers r) := by
  unfold DavSite.serverStep DavSite.ServeHTTP DavSite.targets DavSite.leftovers DavSite.admitted
  split
  · exact Handled.refl coherent
  · have handles : Handles (do
        let reqPath ← liftExcept (stripPrefix dav.handler r.urlPath)
        dav.handle bound r reqPath : Serve (Option HttpAnswer)) r s
        (((stripPrefix dav.handler r.urlPath).toOption.map fun reqPath =>
          (dav.footprint r reqPath).1).getD [])
        (((stripPrefix dav.handler r.urlPath).toOption.map fun reqPath =>
          (dav.footprint r reqPath).2).getD []) := by
      apply handles_liftExcept coherent
      intro reqPath stripped
      rw [stripped]
      exact handle_handles dav coherent bound
    unfold Handles Leaves Ensures at handles
    split at handles
    · rename_i result
      rw [result]
      exact handles
    · rename_i result
      rw [result]
      exact handles

end Handlers

end RoundSync.Kernel
