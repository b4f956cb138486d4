import RoundSync.Kernel.LockRuns
import Mathlib.Algebra.Group.Nat.Defs
import Mathlib.Algebra.Group.Int.Defs

/-!
# The timeout a lock reply announces

A reply to a LOCK request is written from the entry that `Refresh` returns, and
it names one timeout whatever the client asked for.  The promise of a reply is
that the table keeps the lock up to the announced instant in every continuation
of the run that does not touch the lock.  `lockPromise_kept_iff` says which
requests get a reply whose promise is kept.
-/

namespace RoundSync.Kernel

open RoundSync.Data
open RoundSync.Text
open RoundSync.Transition

/-! ## Replies -/

/-- The entry of a failed `Refresh`. -/
def LockInfo.zero : LockInfo :=
  ⟨[], [], [], 0, false⟩

/-- `writeLockInfo`. -/
def writeLockInfo (li : LockInfo) : GoString :=
  str "<?xml version=\"1.0\" encoding=\"UTF-8\"?>\n" ++
    str "<D:prop xmlns:D=\"DAV:\"><D:lockdiscovery>" ++
    str "<D:activelock><D:locktype><D:write/></D:locktype><D:lockscope><D:exclusive/></D:lockscope>" ++
    (str "<D:depth>" ++ (if li.zeroDepth then str "0" else str "infinity") ++
      str "</D:depth><D:timeout>Second-3600</D:timeout>") ++
    (if li.ownerXML ≠ [] then str "<D:owner>" ++ li.ownerXML ++ str "</D:owner>" else []) ++
    (str "<D:locktoken><D:href>" ++ li.token ++ str "</D:href></D:locktoken></D:activelock>") ++
    str "</D:lockdiscovery></D:prop>"

/-- What follows the first occurrence of a mark. -/
def textAfter (mark : GoString) : GoString → Option GoString
  | [] => none
  | b :: rest =>
      if hasPrefix (b :: rest) mark then some ((b :: rest).drop mark.length)
      else textAfter mark rest

/-- The timeout that a client reads off a reply, in nanoseconds. -/
def announcedTimeout (body : GoString) : Option Int :=
  (textAfter (str "<D:timeout>") body).map fun rest => parseTimeout (rest.takeWhile (· ≠ 60))

/-- A reply with a lock in it: the table's key for the lock, the timeout that
`handleLock` parsed, and the entry that is written. -/
structure LockReply where
  key : GoString
  timeout : Int
  li : LockInfo
  deriving DecidableEq

section Replies

variable (extractOwnerXML : GoString → GoString)

/-- The reply that an event sends.  A request for a new lock ignores whether
`Refresh` found it. -/
def lockReply (s : LockState) : LockEvent → Option LockReply
  | .announce index =>
      s.created[index]?.map fun (token, timeout) =>
        ⟨trim token (str "<>"), timeout,
          (refresh s.locks s.clock token timeout).1.getD LockInfo.zero⟩
  | .refresh headers token =>
      match lockStart extractOwnerXML headers with
      | .refresh tokens timeout =>
          if token ∈ tokens then
            (refresh s.locks s.clock token timeout).1.map fun li =>
              ⟨trim token (str "<>"), timeout, li⟩
          else none
      | _ => none
  | _ => none

end Replies

/-! ## Reading a reply -/

theorem eq_of_textAfter {mark s rest : GoString} (found : textAfter mark s = some rest) :
    ∃ before, s = before ++ (mark ++ rest) := by
  induction s with
  | nil => simp [textAfter] at found
  | cons b tail ih =>
      unfold textAfter at found
      split at found
      · rename_i starts
        obtain ⟨after, eq⟩ := hasPrefix_iff.mp starts
        have restEq := Option.some.inj found
        rw [← eq, List.drop_left] at restEq
        exact ⟨[], by rw [List.nil_append, ← restEq, eq]⟩
      · obtain ⟨before, eq⟩ := ih found
        exact ⟨b :: before, by rw [List.cons_append, ← eq]⟩

/-- A mark found in a text is found at the same place in a longer one. -/
theorem textAfter_append {mark s rest : GoString} (found : textAfter mark s = some rest)
    (more : GoString) : textAfter mark (s ++ more) = some (rest ++ more) := by
  induction s with
  | nil => simp [textAfter] at found
  | cons b tail ih =>
      unfold textAfter at found
      split at found
      · rename_i starts
        obtain ⟨after, eq⟩ := hasPrefix_iff.mp starts
        have longer : hasPrefix (b :: tail ++ more) mark = true := by
          rw [hasPrefix_iff, ← eq, List.append_assoc]
          exact List.prefix_append _ _
        have dropped : (b :: tail ++ more).drop mark.length = rest ++ more := by
          rw [← Option.some.inj found, ← eq, List.append_assoc, List.drop_left, List.drop_left]
        rw [List.cons_append] at longer dropped ⊢
        rw [textAfter, if_pos longer, dropped]
      · rename_i startsNot
        obtain ⟨before, eq⟩ := eq_of_textAfter found
        -- the mark lies within the tail, so it is too short to reach into `more`
        have short : mark.length ≤ (b :: tail).length := by
          rw [eq]
          simp only [List.length_cons, List.length_append]
          omega
        have longerNot : ¬hasPrefix (b :: tail ++ more) mark = true := by
          intro longer
          rw [hasPrefix_iff] at startsNot longer
          exact startsNot (List.prefix_of_prefix_length_le longer (List.prefix_append _ _) short)
        rw [List.cons_append] at longerNot ⊢
        rw [textAfter, if_neg longerNot]
        exact ih found

/-- Every reply announces one hour. -/
theorem announcedTimeout_writeLockInfo (li : LockInfo) :
    announcedTimeout (writeLockInfo li) = some hour := by
  have head : ∀ depth ∈ [str "0", str "infinity"],
      textAfter (str "<D:timeout>") (str "<?xml version=\"1.0\" encoding=\"UTF-8\"?>\n" ++
        str "<D:prop xmlns:D=\"DAV:\"><D:lockdiscovery>" ++
        str "<D:activelock><D:locktype><D:write/></D:locktype><D:lockscope><D:exclusive/></D:lockscope>" ++
        (str "<D:depth>" ++ depth ++ str "</D:depth><D:timeout>Second-3600</D:timeout>")) =
          some (str "Second-3600</D:timeout>") := by
    decide +kernel
  have depthMem : (if li.zeroDepth then str "0" else str "infinity") ∈
      [str "0", str "infinity"] := by
    cases li.zeroDepth <;> simp
  unfold announcedTimeout writeLockInfo
  rw [List.append_assoc, List.append_assoc, textAfter_append (head _ depthMem)]
  have value : ∀ more, (str "Second-3600</D:timeout>" ++ more).takeWhile (· ≠ 60) =
      str "Second-3600" := by
    intro more
    have cut : str "Second-3600</D:timeout>" = str "Second-3600" ++ 60 :: str "/D:timeout>" := by
      decide
    rw [cut, List.append_assoc, List.takeWhile_append_of_pos (by decide +kernel), List.cons_append,
      List.takeWhile_cons_of_neg (by simp), List.append_nil]
  rw [Option.map_some, value]
  decide

/-! ## Keeping a lock -/

/-- The event does not release or refresh the lock of a key, and draws another
key for a new lock. -/
def LeavesAlone (key : GoString) (s : LockState) : LockEvent → Prop
  | .create _ uuid => tokenScheme ++ uuid ≠ key
  | .announce index => ∀ entry ∈ s.created[index]?, trim entry.1 (str "<>") ≠ key
  | .refresh _ token => trim token (str "<>") ≠ key
  | .unlock lockToken => trim (trim lockToken (str "<>")) (str "<>") ≠ key
  | _ => True

/-- The key names an unexpired lock. -/
def Holds (s : LockState) (key : GoString) : Prop :=
  ∃ l, s.locks.lookup key = some l ∧ expired s.clock l = false

section Keeping

variable (extractOwnerXML : GoString → GoString)

/-- Whatever the other clients do, the lock is there up to the given instant. -/
def KeptUntil (s : LockState) (key : GoString) (instant : Int) : Prop :=
  ∀ events, Meets (lockStep extractOwnerXML) (LeavesAlone key) s events →
    (run (lockStep extractOwnerXML) s events).clock ≤ instant →
      Holds (run (lockStep extractOwnerXML) s events) key

/-- The promise of a reply that the event sends in the given state. -/
def PromiseKept (s : LockState) (event : LockEvent) (reply : LockReply) : Prop :=
  ∀ announced, announcedTimeout (writeLockInfo reply.li) = some announced →
    KeptUntil extractOwnerXML (lockStep extractOwnerXML s event) reply.key (s.clock + announced)

/-- The lock is unchanged, or its time is over. -/
def LockLasts (key : GoString) (l : LockInfo) (s : LockState) : Prop :=
  expired s.clock l = true ∨ s.locks.lookup key = some l

theorem expired_later {now later : Int} {l : LockInfo} (le : now ≤ later)
    (gone : expired now l = true) : expired later l = true := by
  cases still : expired later l with
  | true => rfl
  | false =>
      rw [expired_mono le still] at gone
      exact gone

theorem lockLasts_cleanup {s : LockState} {key : GoString} {l : LockInfo}
    (lasts : LockLasts key l s) :
    expired s.clock l = true ∨ (cleanupLocked s.locks s.clock).lookup key = some l := by
  cases gone : expired s.clock l with
  | true => exact .inl rfl
  | false =>
      rcases lasts with past | found
      · rw [gone] at past
        contradiction
      · exact .inr (lookup_cleanupLocked_iff.mpr ⟨found, gone⟩)

theorem lockLasts_refresh {s : LockState} {key header : GoString} {l : LockInfo} (dur : Int)
    (apart : trim header (str "<>") ≠ key) (lasts : LockLasts key l s) :
    expired s.clock l = true ∨ (refresh s.locks s.clock header dur).2.lookup key = some l := by
  rcases lockLasts_cleanup lasts with gone | found
  · exact .inl gone
  · right
    unfold refresh
    dsimp only
    split
    · exact found
    · exact Table.lookup_insert_eq_some_iff.mpr (.inr ⟨apart.symm, found⟩)

/-- What one event leaves alone lasts. -/
theorem lockStep_lasts {s : LockState} {event : LockEvent} {key : GoString} {l : LockInfo}
    (lasts : LockLasts key l s) (alone : LeavesAlone key s event) :
    LockLasts key l (lockStep extractOwnerXML s event) := by
  cases event with
  | advance elapsed =>
      rcases lasts with gone | found
      · exact .inl (expired_later (by simp only [lockStep]; omega) gone)
      · exact .inr found
  | check paths ifHeader => exact lockLasts_cleanup lasts
  | active path => exact lockLasts_cleanup lasts
  | lock path headers =>
      simp only [lockStep]
      split
      · exact lockLasts_cleanup lasts
      · exact lasts
  | create index uuid =>
      simp only [lockStep]
      split
      · rcases lockLasts_cleanup lasts with gone | found
        · exact .inl gone
        · exact .inr (Table.lookup_insert_eq_some_iff.mpr (.inr ⟨Ne.symm alone, found⟩))
      · exact lasts
  | announce index =>
      simp only [lockStep]
      split
      · rename_i entry
        exact lockLasts_refresh _ (alone _ entry) lasts
      · exact lasts
  | refresh headers token =>
      simp only [lockStep]
      split
      · split
        · exact lockLasts_refresh _ alone lasts
        · exact lasts
      · exact lasts
  | unlock lockToken =>
      simp only [lockStep]
      split
      · exact lasts
      · rcases lasts with gone | found
        · exact .inl gone
        · right
          unfold unlock
          dsimp only
          split
          · exact found
          · exact Table.lookup_erase_eq_some_iff.mpr ⟨Ne.symm alone, found⟩

/-- A lock with a known expiry instant is kept exactly up to that instant. -/
theorem keptUntil_iff {s : LockState} {key : GoString} {l : LockInfo} {instant : Int}
    (found : s.locks.lookup key = some l) (started : 0 ≤ s.clock) (fresh : s.clock < l.expiresAt) :
    KeptUntil extractOwnerXML s key instant ↔ instant ≤ l.expiresAt := by
  constructor
  · intro kept
    by_contra later
    -- wait until one nanosecond after the expiry instant
    let wait : LockEvent := .advance (l.expiresAt - s.clock + 1).toNat
    have waited : (run (lockStep extractOwnerXML) s [wait]).clock = l.expiresAt + 1 := by
      simp only [wait, run_cons, run_nil, lockStep]
      omega
    obtain ⟨held, heldFound, heldFresh⟩ := kept [wait] ⟨trivial, trivial⟩ (by omega)
    rw [waited] at heldFresh
    have same : held = l := Option.some.inj (heldFound.symm.trans found)
    subst same
    have nonzero : held.expiresAt ≠ 0 := by omega
    simp only [expired, decide_eq_false_iff_not, not_and] at heldFresh
    have notLater := heldFresh nonzero
    omega
  · intro le events alone notLater
    have lasts : LockLasts key l (run (lockStep extractOwnerXML) s events) :=
      (Always.of_meets (fun _ _ lasts alone => lockStep_lasts extractOwnerXML lasts alone)
        (.inr found) alone).last
    have unexpired : expired (run (lockStep extractOwnerXML) s events).clock l = false := by
      simp only [expired, decide_eq_false_iff_not]
      omega
    rcases lasts with gone | found
    · rw [unexpired] at gone
      contradiction
    · exact ⟨l, found, unexpired⟩

end Keeping

/-! ## What a reply rests on -/

/-- `Refresh` finds exactly the unexpired locks, and stores what it returns. -/
theorem refresh_eq_some {locks : LockTable} {now : Int} {header : GoString} {dur : Int}
    {li : LockInfo} (found : (refresh locks now header dur).1 = some li) :
    (∃ old, locks.lookup (trim header (str "<>")) = some old ∧ expired now old = false) ∧
      li.expiresAt = now + effectiveDuration dur ∧
      (refresh locks now header dur).2.lookup (trim header (str "<>")) = some li := by
  unfold refresh at found ⊢
  dsimp only at found ⊢
  split at found
  · cases found
  · rename_i old foundOld
    cases found
    exact ⟨⟨old, lookup_cleanupLocked_iff.mp foundOld⟩, rfl,
      Table.lookup_insert_eq_some_iff.mpr (.inl ⟨rfl, rfl⟩)⟩

theorem refresh_eq_none {locks : LockTable} {now : Int} {header : GoString} {dur : Int}
    (absent : (refresh locks now header dur).1 = none) :
    (¬∃ old, locks.lookup (trim header (str "<>")) = some old ∧ expired now old = false) ∧
      (refresh locks now header dur).2.lookup (trim header (str "<>")) = none := by
  unfold refresh at absent ⊢
  dsimp only at absent ⊢
  split at absent
  · rename_i noEntry
    constructor
    · rintro ⟨old, found, fresh⟩
      rw [lookup_cleanupLocked_iff.mpr ⟨found, fresh⟩] at noEntry
      cases noEntry
    · exact noEntry
  · cases absent

theorem effectiveDuration_pos (dur : Int) : 0 < effectiveDuration dur := by
  unfold effectiveDuration
  split
  · decide
  · omega

section Promises

variable (extractOwnerXML : GoString → GoString)

/-- Every reply is written from the result of a `Refresh`. -/
theorem lockReply_refresh {s : LockState} {event : LockEvent} {reply : LockReply}
    (replies : lockReply extractOwnerXML s event = some reply) :
    ∃ header, reply.key = trim header (str "<>") ∧
      reply.li = (refresh s.locks s.clock header reply.timeout).1.getD LockInfo.zero ∧
      (lockStep extractOwnerXML s event).clock = s.clock ∧
      (lockStep extractOwnerXML s event).locks =
        (refresh s.locks s.clock header reply.timeout).2 := by
  cases event with
  | announce index =>
      simp only [lockReply, Option.map_eq_some_iff] at replies
      obtain ⟨⟨token, timeout⟩, entry, rfl⟩ := replies
      exact ⟨token, rfl, rfl, by simp only [lockStep, entry], by simp only [lockStep, entry]⟩
  | refresh headers token =>
      simp only [lockReply] at replies
      split at replies
      · rename_i tokens timeout start
        split at replies
        · rename_i presented
          obtain ⟨li, found, rfl⟩ := Option.map_eq_some_iff.mp replies
          exact ⟨token, rfl, by rw [found, Option.getD_some],
            by simp only [lockStep, start, if_pos presented],
            by simp only [lockStep, start, if_pos presented]⟩
        · cases replies
      · cases replies
  | _ => cases replies

/-- The promise of a reply is kept exactly when the lock is there to be
refreshed, for one hour at least. -/
theorem promiseKept_iff {s : LockState} {event : LockEvent} {reply : LockReply}
    (started : 0 ≤ s.clock) (replies : lockReply extractOwnerXML s event = some reply) :
    PromiseKept extractOwnerXML s event reply ↔
      Holds s reply.key ∧ hour ≤ effectiveDuration reply.timeout := by
  obtain ⟨header, keyEq, liEq, clockEq, locksEq⟩ := lockReply_refresh extractOwnerXML replies
  have announces : PromiseKept extractOwnerXML s event reply ↔
      KeptUntil extractOwnerXML (lockStep extractOwnerXML s event) reply.key (s.clock + hour) := by
    simp [PromiseKept, announcedTimeout_writeLockInfo]
  rw [announces]
  cases result : (refresh s.locks s.clock header reply.timeout).1 with
  | none =>
      obtain ⟨absent, gone⟩ := refresh_eq_none result
      rw [← keyEq] at absent gone
      constructor
      · intro kept
        have hourPos : 0 < hour := by decide
        obtain ⟨l, found, _⟩ := kept [] trivial (by rw [run_nil, clockEq]; omega)
        rw [run_nil, locksEq, gone] at found
        cases found
      · rintro ⟨held, _⟩
        exact absurd held absent
  | some li =>
      obtain ⟨held, expiry, stored⟩ := refresh_eq_some result
      rw [← keyEq] at held stored
      rw [← locksEq] at stored
      have positive := effectiveDuration_pos reply.timeout
      rw [keptUntil_iff extractOwnerXML stored (by rw [clockEq]; exact started)
        (by rw [clockEq, expiry]; omega), expiry]
      constructor
      · intro le
        exact ⟨held, by omega⟩
      · rintro ⟨_, le⟩
        omega

/-- The lock that a `Create` stores expires after the instant of the call. -/
def CreatesAhead (s : LockState) : Prop :=
  ∀ index uuid, s.pending[index]?.isSome →
    ∃ l, (lockStep extractOwnerXML s (.create index uuid)).locks.lookup (tokenScheme ++ uuid) =
      some l ∧ s.clock < l.expiresAt

theorem createsAhead (s : LockState) : CreatesAhead extractOwnerXML s := by
  intro index uuid isSome
  obtain ⟨request, pending⟩ := Option.isSome_iff_exists.mp isSome
  have positive := effectiveDuration_pos request.timeout
  have stored : (lockStep extractOwnerXML s (.create index uuid)).locks =
      (create s.locks s.clock uuid request.path request.ownerXML request.zeroDepth
        request.timeout).2 := by
    simp only [lockStep, pending]
  rw [stored]
  refine ⟨_, lookup_create_iff.mpr (.inl ⟨rfl, rfl⟩), ?_⟩
  simp only [newLock]
  omega

/-! ## Requests that ask for less than an hour -/

/-- The header asks for a positive number of seconds that `Atoi` reads. -/
def RequestsSeconds (header : GoString) (n : Int) : Prop :=
  hasPrefix (toLower (trimSpace header)) (str "second-") = true ∧
    atoi ((trimSpace header).drop 7) = some n ∧ 0 < n

/-- The requested time is positive and below one hour as an `int64` number of
nanoseconds. -/
def ShortRequest (header : GoString) : Prop :=
  ∃ n, RequestsSeconds header n ∧
    0 < (n * second).bmod (2 ^ 64) ∧ (n * second).bmod (2 ^ 64) < hour

theorem parseTimeout_eq (header : GoString) :
    (∃ n, RequestsSeconds header n ∧ parseTimeout header = (n * second).bmod (2 ^ 64)) ∨
      (∀ n, ¬RequestsSeconds header n) ∧ parseTimeout header = hour := by
  unfold parseTimeout
  dsimp only
  split
  · rename_i starts
    split
    · rename_i n parsed
      split
      · rename_i positive
        exact .inl ⟨n, ⟨starts, parsed, positive⟩, rfl⟩
      · rename_i notPositive
        refine .inr ⟨?_, rfl⟩
        rintro m ⟨_, parsedM, positive⟩
        rw [parsed] at parsedM
        cases parsedM
        exact notPositive positive
    · rename_i garbage
      refine .inr ⟨?_, rfl⟩
      rintro m ⟨_, parsedM, _⟩
      rw [garbage] at parsedM
      cases parsedM
  · rename_i startsNot
    refine .inr ⟨?_, rfl⟩
    rintro m ⟨starts, _, _⟩
    exact startsNot starts

theorem hour_le_effectiveDuration_iff (header : GoString) :
    hour ≤ effectiveDuration (parseTimeout header) ↔ ¬ShortRequest header := by
  rcases parseTimeout_eq header with ⟨n, requests, parsed⟩ | ⟨requestsNone, parsed⟩
  · have only : ∀ m, RequestsSeconds header m → m = n := by
      intro m other
      exact Option.some.inj (other.2.1.symm.trans requests.2.1)
    rw [parsed]
    unfold effectiveDuration
    constructor
    · rintro le ⟨m, requestsM, positive, short⟩
      rw [only m requestsM] at positive short
      rw [if_neg (by omega)] at le
      omega
    · intro notShort
      split
      · exact Int.le_refl hour
      · rename_i positive
        by_contra short
        exact notShort ⟨n, requests, by omega, by omega⟩
  · rw [parsed]
    constructor
    · rintro _ ⟨n, requests, _⟩
      exact requestsNone n requests
    · intro _
      decide

/-! ## Replies of a run -/

/-- The clock has not run backwards, and every timeout was read off a header. -/
structure Sound (s : LockState) : Prop where
  started : 0 ≤ s.clock
  pending : ∀ request ∈ s.pending, ∃ header, request.timeout = parseTimeout header
  created : ∀ entry ∈ s.created, ∃ header, entry.2 = parseTimeout header

theorem lockStart_acquire {headers : LockHeaders} {zeroDepth : Bool} {ownerXML : GoString}
    {timeout : Int}
    (start : lockStart extractOwnerXML headers = .acquire zeroDepth ownerXML timeout) :
    timeout = parseTimeout headers.timeout := by
  unfold lockStart at start
  split at start
  · cases start
  · split_ifs at start
    cases start
    rfl

theorem lockStart_refresh {headers : LockHeaders} {tokens : List GoString} {timeout : Int}
    (start : lockStart extractOwnerXML headers = .refresh tokens timeout) :
    timeout = parseTimeout headers.timeout := by
  unfold lockStart at start
  split at start
  · cases start
  · split_ifs at start
    cases start
    rfl

theorem lockStep_sound {s : LockState} (event : LockEvent) (sound : Sound s) :
    Sound (lockStep extractOwnerXML s event) := by
  cases event with
  | advance elapsed =>
      have started := sound.started
      exact ⟨by simp only [lockStep]; omega, sound.pending, sound.created⟩
  | check paths ifHeader => exact ⟨sound.started, sound.pending, sound.created⟩
  | active path => exact ⟨sound.started, sound.pending, sound.created⟩
  | lock path headers =>
      simp only [lockStep]
      split
      · rename_i zeroDepth ownerXML timeout start
        refine ⟨sound.started, ?_, sound.created⟩
        intro request member
        dsimp only at member
        split at member
        · rcases List.mem_append.mp member with old | new
          · exact sound.pending request old
          · rw [List.mem_singleton.mp new]
            exact ⟨headers.timeout, lockStart_acquire extractOwnerXML start⟩
        · exact sound.pending request member
      · exact sound
  | create index uuid =>
      simp only [lockStep]
      split
      · rename_i request pending
        refine ⟨sound.started, ?_, ?_⟩
        · intro other member
          exact sound.pending other (List.mem_of_mem_eraseIdx member)
        · intro entry member
          rcases List.mem_append.mp member with old | new
          · exact sound.created entry old
          · rw [List.mem_singleton.mp new]
            exact sound.pending request (List.mem_of_getElem? pending)
      · exact sound
  | announce index =>
      simp only [lockStep]
      split
      · refine ⟨sound.started, sound.pending, ?_⟩
        intro entry member
        exact sound.created entry (List.mem_of_mem_eraseIdx member)
      · exact sound
  | refresh headers token =>
      simp only [lockStep]
      split
      · split
        · exact ⟨sound.started, sound.pending, sound.created⟩
        · exact sound
      · exact sound
  | unlock lockToken =>
      simp only [lockStep]
      split
      · exact sound
      · exact ⟨sound.started, sound.pending, sound.created⟩

theorem run_sound (clock : Nat) (before : List LockEvent) :
    Sound (run (lockStep extractOwnerXML) (LockState.initial clock) before) := by
  have initial : Sound (LockState.initial clock) := by
    refine ⟨Int.natCast_nonneg clock, ?_, ?_⟩
    · intro request member
      cases member
    · intro entry member
      cases member
  exact (Always.of_preserved (fun _ event sound => lockStep_sound extractOwnerXML event sound)
    before initial).last

/-- The timeout of every reply of a run is the one of some header. -/
theorem lockReply_parsed {clock : Nat} {before : List LockEvent} {event : LockEvent}
    {reply : LockReply}
    (replies : lockReply extractOwnerXML
      (run (lockStep extractOwnerXML) (LockState.initial clock) before) event = some reply) :
    ∃ header, reply.timeout = parseTimeout header := by
  have sound := run_sound extractOwnerXML clock before
  cases event with
  | announce index =>
      simp only [lockReply, Option.map_eq_some_iff] at replies
      obtain ⟨entry, found, rfl⟩ := replies
      exact sound.created entry (List.mem_of_getElem? found)
  | refresh headers token =>
      simp only [lockReply] at replies
      split at replies
      · rename_i tokens timeout start
        split at replies
        · obtain ⟨li, found, rfl⟩ := Option.map_eq_some_iff.mp replies
          exact ⟨headers.timeout, lockStart_refresh extractOwnerXML start⟩
        · cases replies
      · cases replies
  | _ => cases replies

/-- In every run of the lock table, the promise of a reply is kept exactly when
the request does not ask for less than one hour and its lock is still there;
no new lock expires before it is stored. -/
theorem lockPromise_kept_iff (clock : Nat) (before : List LockEvent) (event : LockEvent)
    (reply : LockReply) (header : GoString)
    (replies : lockReply extractOwnerXML
      (run (lockStep extractOwnerXML) (LockState.initial clock) before) event = some reply)
    (asked : reply.timeout = parseTimeout header) :
    CreatesAhead extractOwnerXML
        (run (lockStep extractOwnerXML) (LockState.initial clock) before) ∧
      (PromiseKept extractOwnerXML
          (run (lockStep extractOwnerXML) (LockState.initial clock) before) event reply ↔
        Holds (run (lockStep extractOwnerXML) (LockState.initial clock) before) reply.key ∧
          ¬ShortRequest header) := by
  have sound := run_sound extractOwnerXML clock before
  refine ⟨createsAhead extractOwnerXML _, ?_⟩
  rw [promiseKept_iff extractOwnerXML sound.started replies, asked,
    hour_le_effectiveDuration_iff]

end Promises

/-- A client locks `/a` for an hour. -/
theorem hourLock_kept :
    PromiseKept id
      (run (lockStep id) (LockState.initial 1)
        [.lock (str "/a") lockRequest, .create 0 (str "1")])
      (.announce 0)
      ⟨str "opaquelocktoken:1", hour,
        newLock 1 (str "opaquelocktoken:1") (str "/a") (str "<lockinfo/>") false hour⟩ := by
  refine (lockPromise_kept_iff id 1 [.lock (str "/a") lockRequest, .create 0 (str "1")]
    (.announce 0) _ [] (by decide) (by decide)).2.mpr ⟨?_, ?_⟩
  · exact ⟨newLock 1 (str "opaquelocktoken:1") (str "/a") (str "<lockinfo/>") false hour,
      by decide, by decide⟩
  · rintro ⟨n, ⟨starts, _⟩, _⟩
    revert starts
    decide

/-! ## A lock for one minute -/

/-- A client asks for `/a` with the header `Timeout: Second-60`. -/
def minuteLock : List LockEvent :=
  [.lock (str "/a") { lockRequest with timeout := str "Second-60" }, .create 0 (str "1")]

theorem minuteLock_promise_broken :
    ¬∀ (clock : Nat) (before : List LockEvent) (event : LockEvent) (reply : LockReply),
      lockReply id (run (lockStep id) (LockState.initial clock) before) event = some reply →
        PromiseKept id (run (lockStep id) (LockState.initial clock) before) event reply := by
  intro promises
  have replies : lockReply id (run (lockStep id) (LockState.initial (1 : Nat)) minuteLock)
      (.announce 0) = some ⟨str "opaquelocktoken:1", 60 * second,
        newLock 1 (str "opaquelocktoken:1") (str "/a") (str "<lockinfo/>") false
          (60 * second)⟩ := by
    decide
  have kept := promises 1 minuteLock (.announce 0) _ replies
  have long := ((promiseKept_iff id (by decide) replies).mp kept).2
  revert long
  decide

end RoundSync.Kernel
