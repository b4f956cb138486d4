import RoundSync.Kernel.Locks
import RoundSync.Transition.Core

/-!
# Runs of the lock table

Any number of requests are in flight.  Every call of a `LockSystem` method is
one atomic event at one clock reading; a LOCK request that asks for a new lock
is a `Check` event followed, any time later, by a `Create` event and by the
`Refresh` that reads the lock back for the reply.  A run starts from the empty
table, and its table stays exclusive exactly when every `Create` event finds no
unexpired lock on the tree it is about to claim.
-/

namespace RoundSync.Kernel

open RoundSync.Data
open RoundSync.Text
open RoundSync.Transition
open RoundSync.Tree

/-! ## Requests -/

/-- The parts of a LOCK request that `handleLock` reads. -/
structure LockHeaders where
  depth : GoString
  timeout : GoString
  ifHeader : GoString
  body : GoString

/-- What `handleLock` decides before it touches the lock table. -/
inductive LockStart where
  | invalidDepth
  | refresh (tokens : List GoString) (timeout : Int)
  | acquire (zeroDepth : Bool) (ownerXML : GoString) (timeout : Int)

/-- A LOCK request between its `Check` and its `Create`. -/
structure PendingLock where
  path : GoString
  ownerXML : GoString
  zeroDepth : Bool
  timeout : Int

structure LockState where
  clock : Int
  locks : LockTable
  pending : List PendingLock
  created : List (GoString × Int)

inductive LockEvent where
  | advance (elapsed : Nat)
  | check (paths : List GoString) (ifHeader : GoString)
  | active (path : GoString)
  | lock (path : GoString) (headers : LockHeaders)
  | create (index : Nat) (uuid : GoString)
  | announce (index : Nat)
  | refresh (headers : LockHeaders) (token : GoString)
  | unlock (lockToken : GoString)

/-- `NewLockSystem`. -/
def LockState.initial (clock : Int) : LockState :=
  ⟨clock, ∅, [], []⟩

section Step

-- the XML package reads the owner element of the request body
variable (extractOwnerXML : GoString → GoString)

def lockStart (headers : LockHeaders) : LockStart :=
  match if headers.depth ≠ [] then parseDepth headers.depth else some (-1) with
  | none => .invalidDepth
  | some depth =>
      if depth ≠ 0 ∧ depth ≠ -1 then .invalidDepth
      else if trimSpace headers.body = [] then
        .refresh (parseLockTokens headers.ifHeader) (parseTimeout headers.timeout)
      else .acquire (depth = 0) (extractOwnerXML headers.body) (parseTimeout headers.timeout)

/-- One event.  An event that is not enabled leaves the state as it is. -/
def lockStep (s : LockState) : LockEvent → LockState
  | .advance elapsed => { s with clock := s.clock + elapsed }
  | .check paths ifHeader => { s with locks := (check s.locks s.clock paths ifHeader).2 }
  | .active path => { s with locks := (active s.locks s.clock path).2 }
  | .lock path headers =>
      match lockStart extractOwnerXML headers with
      | .acquire zeroDepth ownerXML timeout =>
          let (passed, locks) := check s.locks s.clock [path] headers.ifHeader
          let request : PendingLock := ⟨path, ownerXML, zeroDepth, timeout⟩
          { s with locks, pending := if passed then s.pending ++ [request] else s.pending }
      | _ => s
  | .create index uuid =>
      match s.pending[index]? with
      | some request =>
          let (token, locks) := create s.locks s.clock uuid request.path request.ownerXML
            request.zeroDepth request.timeout
          { s with
            locks
            pending := s.pending.eraseIdx index
            created := s.created ++ [(token, request.timeout)] }
      | none => s
  | .announce index =>
      match s.created[index]? with
      | some (token, timeout) =>
          { s with
            locks := (refresh s.locks s.clock token timeout).2
            created := s.created.eraseIdx index }
      | none => s
  | .refresh headers token =>
      match lockStart extractOwnerXML headers with
      | .refresh tokens timeout =>
          if token ∈ tokens then { s with locks := (refresh s.locks s.clock token timeout).2 }
          else s
      | _ => s
  | .unlock lockToken =>
      let token := trim lockToken (str "<>")
      if token = [] then s else { s with locks := (unlock s.locks token).2 }

end Step

/-! ## Exclusivity -/

/-- No two distinct unexpired locks of the table cover a common path. -/
def ExclusiveAt (now : Int) (locks : LockTable) : Prop :=
  ∀ ⦃token₁ token₂ l₁ l₂⦄, locks.lookup token₁ = some l₁ → locks.lookup token₂ = some l₂ →
    expired now l₁ = false → expired now l₂ = false →
    (∃ p, lockCovers l₁ p = true ∧ lockCovers l₂ p = true) → l₁ = l₂

def Exclusive (s : LockState) : Prop :=
  ExclusiveAt s.clock s.locks

/-- No unexpired lock other than `token`'s covers `path`, and, for a lock of
infinite depth, none is rooted at or below it. -/
def Unclaimed (s : LockState) (token path : GoString) (zeroDepth : Bool) : Prop :=
  ∀ ⦃other l⦄, s.locks.lookup other = some l → other ≠ token → expired s.clock l = false →
    lockCovers l path = false ∧ (zeroDepth = false → ¬split path <+: split l.path)

/-- Every `Create` finds its tree unclaimed. -/
def CreatesUnclaimed (s : LockState) : LockEvent → Prop
  | .create index uuid =>
      ∀ request ∈ s.pending[index]?,
        Unclaimed s (tokenScheme ++ uuid) request.path request.zeroDepth
  | _ => True

/-- Every lock is stored under its own token. -/
def TokensAreKeys (locks : LockTable) : Prop :=
  ∀ ⦃token l⦄, locks.lookup token = some l → l.token = token

/-- Every unexpired lock of the second state is an unexpired lock of the first,
up to its expiry instant. -/
def Inherits (s s' : LockState) : Prop :=
  ∀ ⦃token l⦄, s'.locks.lookup token = some l → expired s'.clock l = false →
    ∃ old, s.locks.lookup token = some old ∧ expired s.clock old = false ∧
      l = { old with expiresAt := l.expiresAt }

theorem Exclusive.of_inherits {s s' : LockState} (keys : TokensAreKeys s.locks)
    (exclusive : Exclusive s) (inherits : Inherits s s') : Exclusive s' := by
  intro token₁ token₂ l₁ l₂ found₁ found₂ fresh₁ fresh₂ common
  obtain ⟨old₁, oldFound₁, oldFresh₁, eq₁⟩ := inherits found₁ fresh₁
  obtain ⟨old₂, oldFound₂, oldFresh₂, eq₂⟩ := inherits found₂ fresh₂
  have oldCommon : ∃ p, lockCovers old₁ p = true ∧ lockCovers old₂ p = true := by
    rw [eq₁, eq₂] at common
    exact common
  have oldEq := exclusive oldFound₁ oldFound₂ oldFresh₁ oldFresh₂ oldCommon
  have tokenEq : token₁ = token₂ := by
    rw [← keys oldFound₁, ← keys oldFound₂, oldEq]
  subst tokenEq
  exact Option.some.inj (found₁.symm.trans found₂)

theorem expired_mono {now later : Int} {l : LockInfo} (le : now ≤ later)
    (fresh : expired later l = false) : expired now l = false := by
  simp only [expired, decide_eq_false_iff_not, not_and] at fresh ⊢
  intro nonzero
  have notLater := fresh nonzero
  omega

theorem inherits_of_lookup {s : LockState} {locks : LockTable}
    (subtable : ∀ token l, locks.lookup token = some l → s.locks.lookup token = some l) :
    Inherits s { s with locks } := by
  intro token l found fresh
  exact ⟨l, subtable token l found, fresh, rfl⟩

theorem inherits_cleanup (s : LockState) :
    Inherits s { s with locks := cleanupLocked s.locks s.clock } :=
  inherits_of_lookup fun _ _ found => (lookup_cleanupLocked_iff.mp found).1

theorem inherits_refresh (s : LockState) (token : GoString) (dur : Int) :
    Inherits s { s with locks := (refresh s.locks s.clock token dur).2 } := by
  intro key l found _
  exact lookup_refresh found

theorem not_expired_newLock (now : Int) (token path ownerXML : GoString) (zeroDepth : Bool)
    (dur : Int) : expired now (newLock now token path ownerXML zeroDepth dur) = false := by
  have positive : 0 < effectiveDuration dur := by
    unfold effectiveDuration
    split
    · decide
    · omega
  have notLater : ¬now > now + effectiveDuration dur := by omega
  simp [expired, newLock, notLater]

/-- A new lock shares a path with another one exactly when the other covers its
path or, at infinite depth, is rooted at or below it. -/
theorem newLock_meets_iff {now : Int} {token path ownerXML : GoString} {zeroDepth : Bool}
    {dur : Int} {l : LockInfo} :
    (∃ p, lockCovers l p = true ∧
        lockCovers (newLock now token path ownerXML zeroDepth dur) p = true) ↔
      lockCovers l path = true ∨ zeroDepth = false ∧ split path <+: split l.path := by
  have newPath : (newLock now token path ownerXML zeroDepth dur).path = clean path := rfl
  rw [cover_common_iff, newPath, lockCovers_clean]
  have below : lockCovers (newLock now token path ownerXML zeroDepth dur) l.path = true ↔
      if zeroDepth = true then split l.path = split path else split path <+: split l.path := by
    rw [lockCovers_iff]
    simp only [Region.Holds, LockInfo.region, newLock, split_clean]
    cases zeroDepth <;> simp
  rw [below]
  cases zeroDepth with
  | false => simp
  | true =>
      simp only [if_true, Bool.true_eq_false, false_and, or_false]
      constructor
      · rintro (covers | same)
        · exact covers
        · have own := lockCovers_own_path l
          rw [lockCovers_iff] at own ⊢
          rwa [same] at own
      · exact .inl

/-- Exactly the `Create`s on unclaimed trees keep an exclusive table exclusive. -/
theorem exclusive_create_iff {s : LockState} {uuid path ownerXML : GoString} {zeroDepth : Bool}
    {dur : Int} (keys : TokensAreKeys s.locks) (exclusive : Exclusive s) :
    ExclusiveAt s.clock (create s.locks s.clock uuid path ownerXML zeroDepth dur).2 ↔
      Unclaimed s (tokenScheme ++ uuid) path zeroDepth := by
  have stored : (create s.locks s.clock uuid path ownerXML zeroDepth dur).2.lookup
      (tokenScheme ++ uuid) =
        some (newLock s.clock (tokenScheme ++ uuid) path ownerXML zeroDepth dur) :=
    lookup_create_iff.mpr (.inl ⟨rfl, rfl⟩)
  constructor
  · intro exclusive' other l found otherNe fresh
    have kept : (create s.locks s.clock uuid path ownerXML zeroDepth dur).2.lookup other = some l :=
      lookup_create_iff.mpr (.inr ⟨otherNe, found, fresh⟩)
    have apart : ¬∃ p, lockCovers l p = true ∧ lockCovers
        (newLock s.clock (tokenScheme ++ uuid) path ownerXML zeroDepth dur) p = true := by
      intro common
      have lockEq := exclusive' kept stored fresh (not_expired_newLock _ _ _ _ _ _) common
      have tokenEq := keys found
      rw [lockEq] at tokenEq
      exact otherNe tokenEq.symm
    rw [newLock_meets_iff, not_or, not_and] at apart
    exact ⟨Bool.eq_false_iff.mpr apart.1, apart.2⟩
  · intro unclaimed
    have apart : ∀ ⦃other l⦄, s.locks.lookup other = some l → other ≠ tokenScheme ++ uuid →
        expired s.clock l = false → ¬∃ p, lockCovers l p = true ∧ lockCovers
          (newLock s.clock (tokenScheme ++ uuid) path ownerXML zeroDepth dur) p = true := by
      intro other l found otherNe fresh
      rw [newLock_meets_iff, not_or, not_and, Bool.not_eq_true]
      exact unclaimed found otherNe fresh
    intro token₁ token₂ l₁ l₂ found₁ found₂ fresh₁ fresh₂ common
    rcases lookup_create_iff.mp found₁ with ⟨rfl, rfl⟩ | ⟨ne₁, old₁, oldFresh₁⟩
    · rcases lookup_create_iff.mp found₂ with ⟨rfl, rfl⟩ | ⟨ne₂, old₂, oldFresh₂⟩
      · rfl
      · obtain ⟨p, covers₁, covers₂⟩ := common
        exact absurd ⟨p, covers₂, covers₁⟩ (apart old₂ ne₂ oldFresh₂)
    · rcases lookup_create_iff.mp found₂ with ⟨rfl, rfl⟩ | ⟨ne₂, old₂, oldFresh₂⟩
      · exact absurd common (apart old₁ ne₁ oldFresh₁)
      · exact exclusive old₁ old₂ oldFresh₁ oldFresh₂ common

/-! ## Steps and runs -/

section Runs

variable (extractOwnerXML : GoString → GoString)

/-- A lock of the table after an event has the token of a lock that was there,
or is stored under the token drawn for it. -/
theorem lockStep_lookup {s : LockState} {event : LockEvent} {token : GoString} {l : LockInfo}
    (found : (lockStep extractOwnerXML s event).locks.lookup token = some l) :
    (∃ old, s.locks.lookup token = some old ∧ l.token = old.token) ∨
      l.token = token ∧ ∃ uuid, token = tokenScheme ++ uuid := by
  have kept : s.locks.lookup token = some l →
      (∃ old, s.locks.lookup token = some old ∧ l.token = old.token) ∨
        l.token = token ∧ ∃ uuid, token = tokenScheme ++ uuid :=
    fun held => .inl ⟨l, held, rfl⟩
  have refreshed : ∀ header dur, (refresh s.locks s.clock header dur).2.lookup token = some l →
      (∃ old, s.locks.lookup token = some old ∧ l.token = old.token) ∨
        l.token = token ∧ ∃ uuid, token = tokenScheme ++ uuid := by
    intro header dur held
    obtain ⟨old, oldHeld, _, lockEq⟩ := lookup_refresh held
    exact .inl ⟨old, oldHeld, by rw [lockEq]⟩
  cases event with
  | advance elapsed => exact kept found
  | check paths ifHeader => exact kept (lookup_cleanupLocked_iff.mp found).1
  | active path => exact kept (lookup_cleanupLocked_iff.mp found).1
  | lock path headers =>
      simp only [lockStep] at found
      split at found
      · exact kept (lookup_cleanupLocked_iff.mp found).1
      · exact kept found
  | create index uuid =>
      simp only [lockStep] at found
      split at found
      · rcases lookup_create_iff.mp found with ⟨tokenEq, rfl⟩ | ⟨_, held, _⟩
        · exact .inr ⟨rfl, uuid, tokenEq⟩
        · exact kept held
      · exact kept found
  | announce index =>
      simp only [lockStep] at found
      split at found
      · exact refreshed _ _ found
      · exact kept found
  | refresh headers presented =>
      simp only [lockStep] at found
      split at found
      · split at found
        · exact refreshed _ _ found
        · exact kept found
      · exact kept found
  | unlock lockToken =>
      simp only [lockStep] at found
      split at found
      · exact kept found
      · exact kept (lookup_unlock found)

theorem lockStep_tokensAreKeys (s : LockState) (event : LockEvent)
    (keys : TokensAreKeys s.locks) :
    TokensAreKeys (lockStep extractOwnerXML s event).locks := by
  intro token l found
  rcases lockStep_lookup extractOwnerXML found with ⟨old, held, tokenEq⟩ | ⟨own, _⟩
  · rw [tokenEq]
    exact keys held
  · exact own

/-- No event other than `Create` brings a new claim into the table. -/
theorem lockStep_inherits {s : LockState} {event : LockEvent}
    (notCreate : ∀ index uuid, event ≠ .create index uuid) :
    Inherits s (lockStep extractOwnerXML s event) := by
  have unchanged : Inherits s s := inherits_of_lookup fun _ _ found => found
  cases event with
  | advance elapsed =>
      intro token l found fresh
      exact ⟨l, found, expired_mono (by simp only [lockStep]; omega) fresh, rfl⟩
  | check paths ifHeader => exact inherits_cleanup s
  | active path => exact inherits_cleanup s
  | lock path headers =>
      simp only [lockStep]
      split
      · exact inherits_cleanup s
      · exact unchanged
  | create index uuid => exact absurd rfl (notCreate index uuid)
  | announce index =>
      simp only [lockStep]
      split
      · exact inherits_refresh s _ _
      · exact unchanged
  | refresh headers token =>
      simp only [lockStep]
      split
      · split
        · exact inherits_refresh s _ _
        · exact unchanged
      · exact unchanged
  | unlock lockToken =>
      simp only [lockStep]
      split
      · exact unchanged
      · exact inherits_of_lookup fun _ _ found => lookup_unlock found

theorem lockStep_exclusive_iff {s : LockState} {event : LockEvent}
    (keys : TokensAreKeys s.locks) (exclusive : Exclusive s) :
    Exclusive (lockStep extractOwnerXML s event) ↔ CreatesUnclaimed s event := by
  by_cases isCreate : ∃ index uuid, event = .create index uuid
  · obtain ⟨index, uuid, rfl⟩ := isCreate
    simp only [lockStep, CreatesUnclaimed]
    cases found : s.pending[index]? with
    | none => simpa using exclusive
    | some request =>
        simp only [Option.mem_def, Option.some.injEq, forall_eq']
        exact exclusive_create_iff keys exclusive
  · have notCreate : ∀ index uuid, event ≠ .create index uuid :=
      fun index uuid equal => isCreate ⟨index, uuid, equal⟩
    have guarded : CreatesUnclaimed s event := by
      cases event with
      | create index uuid => exact absurd rfl (notCreate index uuid)
      | _ => trivial
    exact ⟨fun _ => guarded, fun _ =>
      exclusive.of_inherits keys (lockStep_inherits extractOwnerXML notCreate)⟩

/-- The lock table is exclusive in every state of a run exactly when every
`Create` of the run finds its tree unclaimed. -/
theorem always_exclusive_iff (clock : Int) (events : List LockEvent) :
    Always (lockStep extractOwnerXML) Exclusive (LockState.initial clock) events ↔
      Meets (lockStep extractOwnerXML) CreatesUnclaimed (LockState.initial clock) events := by
  have initialKeys : TokensAreKeys (LockState.initial clock).locks := by
    intro token l found
    simp [LockState.initial] at found
  have initialExclusive : Exclusive (LockState.initial clock) := by
    intro token₁ token₂ l₁ l₂ found
    simp [LockState.initial] at found
  exact always_iff_meets (lockStep_tokensAreKeys extractOwnerXML)
    (fun _ _ keys exclusive => lockStep_exclusive_iff extractOwnerXML keys exclusive)
    initialKeys initialExclusive

end Runs

/-! ## A lock taken above another -/

def lockRequest : LockHeaders :=
  ⟨[], [], [], str "<lockinfo/>"⟩

/-- A client locks `/a/b`, another one then locks `/a`, both at infinite depth. -/
def lockAboveLock : List LockEvent :=
  [.lock (str "/a/b") lockRequest, .create 0 (str "1"),
    .lock (str "/a") lockRequest, .create 0 (str "2")]

theorem lockAboveLock_not_exclusive :
    ¬∀ clock events, Always (lockStep id) Exclusive (LockState.initial clock) events := by
  intro always
  have exclusive := (always 1 lockAboveLock).last
  have child : (run (lockStep id) (LockState.initial 1) lockAboveLock).locks.lookup
      (str "opaquelocktoken:1") =
        some (newLock 1 (str "opaquelocktoken:1") (str "/a/b") (str "<lockinfo/>") false hour) := by
    decide
  have parent : (run (lockStep id) (LockState.initial 1) lockAboveLock).locks.lookup
      (str "opaquelocktoken:2") =
        some (newLock 1 (str "opaquelocktoken:2") (str "/a") (str "<lockinfo/>") false hour) := by
    decide
  have common : ∃ p,
      lockCovers (newLock 1 (str "opaquelocktoken:1") (str "/a/b") (str "<lockinfo/>") false hour)
        p = true ∧
      lockCovers (newLock 1 (str "opaquelocktoken:2") (str "/a") (str "<lockinfo/>") false hour)
        p = true :=
    ⟨str "/a/b", by decide, by decide⟩
  have equal := exclusive child parent (by decide) (by decide) common
  exact absurd (congrArg LockInfo.token equal) (by decide)

end RoundSync.Kernel
