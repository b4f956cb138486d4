import RoundSync.Data.Table
import RoundSync.Kernel.Paths
import RoundSync.Tree.Region
import Mathlib.Algebra.Group.Nat.Defs
import Mathlib.Algebra.Group.Int.Defs

/-!
# The kernel's lock table

`LockSystem` of the WebDAV server: locks keyed by token, each an exclusive
claim on a cleaned path or on a whole subtree.  Every function takes the clock
reading it makes as an argument; instants are nanoseconds since Go's zero time
and durations are nanoseconds.  `lockCovers_iff` connects the string test of
the source with regions of the name tree.
-/

namespace RoundSync.Kernel

open RoundSync.Data
open RoundSync.Text
open RoundSync.Tree

def second : Int := 1000000000

def hour : Int := 3600 * second

structure LockInfo where
  path : GoString
  token : GoString
  ownerXML : GoString
  expiresAt : Int
  zeroDepth : Bool
  deriving DecidableEq

abbrev LockTable := Table GoString LockInfo

def tokenScheme : GoString := str "opaquelocktoken:"

/-- The cleanup test: a non-zero expiry instant that lies before `now`. -/
def expired (now : Int) (l : LockInfo) : Bool :=
  l.expiresAt ≠ 0 ∧ now > l.expiresAt

def cleanupLocked (locks : LockTable) (now : Int) : LockTable :=
  locks.keep fun l => !expired now l

def lockCovers (l : LockInfo) (p : GoString) : Bool :=
  let root := clean l.path
  let p := clean p
  if l.zeroDepth then p = root
  else p = root || hasPrefix p (trimRight root [slash] ++ [slash])

/-- The region of the tree that a lock claims. -/
def LockInfo.region (l : LockInfo) : Region GoString :=
  ⟨split l.path, !l.zeroDepth⟩

/-! ## Table operations -/

/-- The duration a lock is given: one hour when none is asked for. -/
def effectiveDuration (dur : Int) : Int :=
  if dur ≤ 0 then hour else dur

/-- The entry that `Create` stores. -/
def newLock (now : Int) (token path ownerXML : GoString) (zeroDepth : Bool)
    (dur : Int) : LockInfo where
  path := clean path
  token := token
  ownerXML := ownerXML
  expiresAt := now + effectiveDuration dur
  zeroDepth := zeroDepth

/-- `Create`, with the identifier that `NewUUID` draws. -/
def create (locks : LockTable) (now : Int) (uuid path ownerXML : GoString) (zeroDepth : Bool)
    (dur : Int) : GoString × LockTable :=
  let token := tokenScheme ++ uuid
  (token, (cleanupLocked locks now).insert token
    (newLock now token path ownerXML zeroDepth dur))

def unlock (locks : LockTable) (token : GoString) : Bool × LockTable :=
  let token := trim token (str "<>")
  match locks.lookup token with
  | none => (false, locks)
  | some _ => (true, locks.erase token)

def refresh (locks : LockTable) (now : Int) (token : GoString) (dur : Int) :
    Option LockInfo × LockTable :=
  let token := trim token (str "<>")
  let locks := cleanupLocked locks now
  match locks.lookup token with
  | none => (none, locks)
  | some li =>
      let li := { li with expiresAt := now + effectiveDuration dur }
      (some li, locks.insert token li)

/-- The bytes that end a token in the expression `opaquelocktoken:[^>\s)]+`. -/
def endsToken (b : UInt8) : Bool :=
  b = 62 ∨ b = 41 ∨ b = 9 ∨ b = 10 ∨ b = 12 ∨ b = 13 ∨ b = 32

/-- `tokenRe.FindAllString`, one unit of fuel for each byte. -/
def scanTokens : Nat → GoString → List GoString
  | 0, _ => []
  | _ + 1, [] => []
  | fuel + 1, b :: rest =>
      let body := ((b :: rest).drop tokenScheme.length).takeWhile (!endsToken ·)
      if hasPrefix (b :: rest) tokenScheme ∧ body ≠ [] then
        (tokenScheme ++ body) ::
          scanTokens fuel ((b :: rest).drop (tokenScheme.length + body.length))
      else scanTokens fuel rest

/-- The tokens of an `If` header, as a set given by its members. -/
def parseLockTokens (s : GoString) : List GoString :=
  scanTokens s.length s

def check (locks : LockTable) (now : Int) (paths : List GoString) (ifHeader : GoString) :
    Bool × LockTable :=
  let tokens := parseLockTokens ifHeader
  let locks := cleanupLocked locks now
  (paths.all fun p =>
    locks.values.all fun l => !lockCovers l (clean p) || tokens.contains l.token, locks)

def active (locks : LockTable) (now : Int) (path : GoString) : List LockInfo × LockTable :=
  let locks := cleanupLocked locks now
  (locks.values.filter fun l => lockCovers l (clean path), locks)

/-! ## Request headers -/

def parseDepth (s : GoString) : Option Int :=
  let s := toLower (trimSpace s)
  if s = str "0" then some 0
  else if s = str "1" then some 1
  else if s = str "infinity" then some (-1)
  else none

/-- The value of a word of decimal digits. -/
def digitsValue (digits : GoString) : Option Nat :=
  if digits = [] then none
  else digits.foldl (fun acc b => acc.bind fun n =>
    if 48 ≤ b ∧ b ≤ 57 then some (10 * n + (b.toNat - 48)) else none) (some 0)

/-- `strconv.Atoi` on a 64-bit platform. -/
def atoi : GoString → Option Int
  | 43 :: digits => (digitsValue digits).bind fun n => if n < 2 ^ 63 then some n else none
  | 45 :: digits => (digitsValue digits).bind fun n => if n ≤ 2 ^ 63 then some (-n) else none
  | digits => (digitsValue digits).bind fun n => if n < 2 ^ 63 then some n else none

/-- `parseTimeout`; the product of seconds and nanoseconds is an `int64`. -/
def parseTimeout (s : GoString) : Int :=
  let s := trimSpace s
  if hasPrefix (toLower s) (str "second-") then
    match atoi (s.drop 7) with
    | some n => if n > 0 then (n * second).bmod (2 ^ 64) else hour
    | none => hour
  else hour

/-! ## What the table operations do -/

theorem lookup_cleanupLocked_iff {locks : LockTable} {now : Int} {token : GoString}
    {l : LockInfo} :
    (cleanupLocked locks now).lookup token = some l ↔
      locks.lookup token = some l ∧ expired now l = false := by
  rw [cleanupLocked, Table.lookup_keep_eq_some_iff, Bool.not_eq_true']

/-- The string test of `lockCovers` is membership in the lock's region. -/
theorem lockCovers_iff {l : LockInfo} {p : GoString} :
    lockCovers l p = true ↔ l.region.Holds (split p) := by
  have under := under_iff_prefix (split_valid l.path) (split_valid p)
  rw [← clean_eq_absolute_split, ← clean_eq_absolute_split] at under
  unfold lockCovers LockInfo.region
  cases l.zeroDepth with
  | true =>
      simp only [if_true, Bool.not_true, decide_eq_true_eq]
      rw [Region.holds_point_iff, clean_eq_clean_iff]
  | false =>
      simp only [Bool.false_eq_true, if_false, Bool.not_false, Bool.or_eq_true,
        decide_eq_true_eq]
      rw [Region.holds_deep_iff, under]

@[simp]
theorem lockCovers_clean (l : LockInfo) (p : GoString) : lockCovers l (clean p) = lockCovers l p := by
  rw [Bool.eq_iff_iff, lockCovers_iff, lockCovers_iff, split_clean]

theorem lockCovers_own_path (l : LockInfo) : lockCovers l l.path = true :=
  lockCovers_iff.mpr l.region.holds_root

/-- Two locks cover a common path exactly when one covers the other's root. -/
theorem cover_common_iff {first second : LockInfo} :
    (∃ p, lockCovers first p = true ∧ lockCovers second p = true) ↔
      lockCovers first second.path = true ∨ lockCovers second first.path = true := by
  simp only [lockCovers_iff]
  constructor
  · rintro ⟨p, inFirst, inSecond⟩
    exact Region.meet_iff.mp ⟨split p, inFirst, inSecond⟩
  · rintro (inFirst | inSecond)
    · exact ⟨second.path, inFirst, second.region.holds_root⟩
    · exact ⟨first.path, first.region.holds_root, inSecond⟩

/-- `Check` answers yes exactly when every unexpired lock over one of the paths
has its token in the header. -/
theorem check_eq_true_iff {locks : LockTable} {now : Int} {paths : List GoString}
    {ifHeader : GoString} :
    (check locks now paths ifHeader).1 = true ↔
      ∀ p ∈ paths, ∀ token l, locks.lookup token = some l → expired now l = false →
        lockCovers l p = true → l.token ∈ parseLockTokens ifHeader := by
  simp only [check, List.all_eq_true, Bool.or_eq_true, Bool.not_eq_true', List.contains_iff_mem,
    lockCovers_clean]
  constructor
  · intro passes p member token l found fresh covers
    have value : l ∈ (cleanupLocked locks now).values :=
      Table.mem_values_iff.mpr ⟨token, lookup_cleanupLocked_iff.mpr ⟨found, fresh⟩⟩
    rcases passes p member l value with uncovered | presented
    · rw [covers] at uncovered
      contradiction
    · exact presented
  · intro passes p member l value
    obtain ⟨token, found⟩ := Table.mem_values_iff.mp value
    obtain ⟨found, fresh⟩ := lookup_cleanupLocked_iff.mp found
    cases covers : lockCovers l p with
    | false => exact .inl rfl
    | true => exact .inr (passes p member token l found fresh covers)

theorem check_snd (locks : LockTable) (now : Int) (paths : List GoString) (ifHeader : GoString) :
    (check locks now paths ifHeader).2 = cleanupLocked locks now :=
  rfl

/-- After `Create` the table has the new lock and the other unexpired ones. -/
theorem lookup_create_iff {locks : LockTable} {now : Int} {uuid path ownerXML token : GoString}
    {zeroDepth : Bool} {dur : Int} {l : LockInfo} :
    (create locks now uuid path ownerXML zeroDepth dur).2.lookup token = some l ↔
      token = tokenScheme ++ uuid ∧ newLock now token path ownerXML zeroDepth dur = l ∨
      token ≠ tokenScheme ++ uuid ∧ locks.lookup token = some l ∧ expired now l = false := by
  rw [create, Table.lookup_insert_eq_some_iff, lookup_cleanupLocked_iff]
  constructor
  · rintro (⟨rfl, stored⟩ | other)
    · exact .inl ⟨rfl, stored⟩
    · exact .inr other
  · rintro (⟨rfl, stored⟩ | other)
    · exact .inl ⟨rfl, stored⟩
    · exact .inr other

theorem lookup_unlock {locks : LockTable} {header token : GoString} {l : LockInfo}
    (found : (unlock locks header).2.lookup token = some l) : locks.lookup token = some l := by
  unfold unlock at found
  dsimp only at found
  split at found
  · exact found
  · exact (Table.lookup_erase_eq_some_iff.mp found).2

/-- `Refresh` changes at most the expiry instant of an unexpired lock. -/
theorem lookup_refresh {locks : LockTable} {now : Int} {header token : GoString}
    {dur : Int} {l : LockInfo}
    (found : (refresh locks now header dur).2.lookup token = some l) :
    ∃ old, locks.lookup token = some old ∧ expired now old = false ∧
      l = { old with expiresAt := l.expiresAt } := by
  unfold refresh at found
  dsimp only at found
  split at found
  · obtain ⟨found, fresh⟩ := lookup_cleanupLocked_iff.mp found
    exact ⟨l, found, fresh, rfl⟩
  · rename_i old foundOld
    rcases Table.lookup_insert_eq_some_iff.mp found with ⟨rfl, rfl⟩ | ⟨_, found⟩
    · obtain ⟨foundOld, fresh⟩ := lookup_cleanupLocked_iff.mp foundOld
      exact ⟨old, foundOld, fresh, rfl⟩
    · obtain ⟨found, fresh⟩ := lookup_cleanupLocked_iff.mp found
      exact ⟨l, found, fresh, rfl⟩

end RoundSync.Kernel
