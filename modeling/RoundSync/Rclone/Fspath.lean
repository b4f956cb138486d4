import RoundSync.Data.Table
import RoundSync.Text.Pattern

/-!
# Paths of rclone

`fspath.Parse` takes a path apart into the name of a remote, the parameters of a
connection string and the path on the remote, on platforms without drive
letters.  A path is valid UTF-8, taken as a list of characters; the Unicode
classes are a parameter.
-/

namespace RoundSync.Rclone

open RoundSync.Data
open RoundSync.Text

/-- A Unicode text. -/
abbrev FsText := List Char

/-- The classes `\x7bL\x7d` and `\x7bN\x7d`, which among the ASCII characters are
the letters and the digits. -/
structure UnicodeClasses where
  letter : Char → Bool
  number : Char → Bool
  letter_ascii : ∀ c, c.toNat < 128 → letter c = c.isAlpha
  number_ascii : ∀ c, c.toNat < 128 → number c = c.isDigit

/-- The classes of ASCII alone. -/
def asciiClasses : UnicodeClasses where
  letter := Char.isAlpha
  number := Char.isDigit
  letter_ascii _ _ := rfl
  number_ascii _ _ := rfl

def backslash : Char :=
  Char.ofNat 92

def singleQuote : Char :=
  Char.ofNat 39

def doubleQuote : Char :=
  Char.ofNat 34

/-! ## Names -/

inductive FspathError where
  | invalidCharacters
  | cantBeEmpty
  | badConfigParam
  | emptyConfigParam
  | configNameEmpty
  | configName
  | param
  | value
  | quotedValue
  | afterQuote
  | syntaxError
  deriving DecidableEq

def FspathError.message : FspathError → String
  | .invalidCharacters =>
      "config name contains invalid characters - may only contain numbers, letters, `_`, `-`, " ++
        "`.`, `+`, `@` and space, while not start with `-` or space, and not end with space"
  | .cantBeEmpty => "can't use empty string as a path"
  | .badConfigParam => "config parameters may only contain `0-9`, `A-Z`, `a-z`, `_` and `.`"
  | .emptyConfigParam => "config parameters can't be empty"
  | .configNameEmpty => "config name can't be empty"
  | .configName => "config name needs a trailing `:`"
  | .param => "config parameter must end with `,` or `:`"
  | .value => "unquoted config value must end with `,` or `:`"
  | .quotedValue => "unterminated quoted config value"
  | .afterQuote => "expecting `:` or `,` or another quote after a quote"
  | .syntaxError => "syntax error in config string"

section Names

variable (classes : UnicodeClasses)

/-- The class that a config name may start with. -/
def nameStart (c : Char) : Bool :=
  c.isAlphanum || c = '_' || classes.letter c || classes.number c || c = '.' || c = '+' || c = '@'

/-- `configNameRe`. -/
def configNameRe : Pattern Char :=
  .seq (.plus (.one (nameStart classes)))
    (.star (.seq (.plus (.one fun c => c = ' ' || c = '-'))
      (.plus (.one fun c => nameStart classes c || c = '-'))))

/-- `remoteNameMatcher`, which looks at nothing behind a comma. -/
def remoteNameMatcher : Pattern Char :=
  .seq (.opt (.one (· = ':'))) (.seq (configNameRe classes)
    (.alt (.one (· = ':')) (.seq (.one (· = ',')) (.star (.one fun _ => true)))))

/-- An error, if there is one. -/
def checkRemoteName (remoteName : FsText) : Option FspathError :=
  if remoteName = [':'] || remoteName = [':', ':'] then some .configNameEmpty
  else if (remoteNameMatcher classes).accepts remoteName then none
  else some .invalidCharacters

end Names

def isConfigParam (c : Char) : Bool :=
  ('a' ≤ c && c ≤ 'z') || ('A' ≤ c && c ≤ 'Z') || ('0' ≤ c && c ≤ '9') || c = '_' || c = '.'

/-! ## The parser -/

structure Parsed where
  name : FsText
  configString : FsText
  path : FsText
  config : Option (Table FsText FsText)

inductive ScanState where
  | configName
  | param
  | value
  | quotedValue
  | afterQuote
  | done
  deriving DecidableEq

/-- The variables of the loop, but for the position. -/
structure Scan where
  state : ScanState
  prev : Nat
  quote : Char
  param : FsText
  doubled : Bool
  parsed : Parsed

/-- How one turn of the loop ends. -/
inductive Turn where
  | go (s : Scan)
  | stop (s : Scan)
  | ret (result : Except FspathError Parsed)

/-- `strings.ReplaceAll` of a doubled quote by a single one. -/
def replaceDoubled (quote : Char) : FsText → FsText
  | a :: b :: rest =>
      if a = quote && b = quote then quote :: replaceDoubled quote rest
      else a :: replaceDoubled quote (b :: rest)
  | short => short

/-- Set a parameter of the connection string. -/
def Parsed.setConfig (parsed : Parsed) (param value : FsText) : Parsed :=
  { parsed with config := some ((parsed.config.getD ∅).insert param value) }

/-- `path[first:last]`. -/
def between (path : FsText) (first last : Nat) : FsText :=
  (path.take last).drop first

/-- `driveletter.IsDriveLetter` where there are no drive letters. -/
def isDriveLetter (_name : FsText) : Bool :=
  false

section Turns

variable (classes : UnicodeClasses) (path : FsText) (i : Nat) (c : Char) (s : Scan)

def turnConfigName : Turn :=
  if i = 0 && c = ':' then .go s
  else if c = '/' || c = backslash then
    if path.head? = some ':' then .ret (.error .invalidCharacters) else .ret (.ok s.parsed)
  else if c = ':' || c = ',' then
    let parsed := { s.parsed with name := path.take i }
    match checkRemoteName classes (parsed.name ++ [':']) with
    | some err => .ret (.error err)
    | none =>
        if c = ':' then
          if isDriveLetter parsed.name then .ret (.ok { parsed with name := [] })
          else .stop { s with parsed, prev := i + 1, state := .done }
        else .go { s with
          parsed := { parsed with config := some ∅ }, prev := i + 1, state := .param }
  else .go s

def turnParam : Turn :=
  if c = ':' || c = ',' || c = '=' then
    let param := between path s.prev i
    if param.length = 0 then .ret (.error .emptyConfigParam)
    else if c = '=' then .go { s with param, prev := i + 1, state := .value }
    else
      let parsed := s.parsed.setConfig param "true".toList
      if c = ':' then .stop { s with param, prev := i + 1, parsed, state := .done }
      else .go { s with param, prev := i + 1, parsed, state := .param }
  else if !isConfigParam c then .ret (.error .badConfigParam)
  else .go s

def turnValue : Turn :=
  if c = singleQuote || c = doubleQuote then
    if i = s.prev then
      .go { s with quote := c, state := .quotedValue, prev := i + 1, doubled := false }
    else .go s
  else if c = ':' || c = ',' then
    let parsed := s.parsed.setConfig s.param (between path s.prev i)
    if c = ':' then .stop { s with prev := i + 1, parsed, state := .done }
    else .go { s with prev := i + 1, parsed, state := .param }
  else .go s

def turnQuotedValue : Turn :=
  if c = s.quote then .go { s with state := .afterQuote } else .go s

def turnAfterQuote : Turn :=
  if c = ':' || c = ',' then
    let quoted := between path s.prev (i - 1)
    let value := if s.doubled then replaceDoubled s.quote quoted else quoted
    let parsed := s.parsed.setConfig s.param value
    if c = ':' then .stop { s with prev := i + 1, parsed, state := .done }
    else .go { s with prev := i + 1, parsed, state := .param }
  else if c = s.quote then .go { s with state := .quotedValue, doubled := true }
  else .ret (.error .afterQuote)

/-- One turn of the loop over the characters of the path. -/
def turn : Turn :=
  match s.state with
  | .configName => turnConfigName classes path i c s
  | .param => turnParam path i c s
  | .value => turnValue path i c s
  | .quotedValue => turnQuotedValue c s
  | .afterQuote => turnAfterQuote path i c s
  | .done => .go s

end Turns

/-- How the loop ends: within, or with its variables and position. -/
inductive Scanned where
  | returned (result : Except FspathError Parsed)
  | left (s : Scan) (i : Nat)

def scan (classes : UnicodeClasses) (path : FsText) : Nat → FsText → Scan → Scanned
  | i, [], s => .left s (i - 1)
  | i, c :: rest, s =>
      match turn classes path i c s with
      | .go s => scan classes path (i + 1) rest s
      | .stop s => .left s i
      | .ret result => .returned result

/-- The end of `Parse`, from the state in which the loop was left. -/
def finish (path : FsText) (s : Scan) (i : Nat) : Except FspathError Parsed :=
  match s.state with
  | .configName => .error .configName
  | .param => .error .param
  | .value => .error .value
  | .quotedValue => .error .quotedValue
  | .afterQuote => .error .afterQuote
  | .done => .ok { s.parsed with configString := path.take i, path := path.drop (i + 1) }

/-- The result of the loop and of what follows it. -/
def Scanned.result (path : FsText) : Scanned → Except FspathError Parsed
  | .returned result => result
  | .left s i => finish path s i

/-- `Parse`. -/
def parse (classes : UnicodeClasses) (path : FsText) : Except FspathError Parsed :=
  let parsed : Parsed := { name := [], configString := [], path, config := none }
  if path = [] then .error .cantBeEmpty
  else if ':' ∉ path then .ok parsed
  else
    let start : Scan :=
      { state := .configName, prev := 0, quote := Char.ofNat 0, param := [], doubled := false
        parsed }
    (scan classes path 0 path start).result path

/-! ## What is accepted -/

section Accepted

variable {classes : UnicodeClasses} {path : FsText} {i : Nat} {c : Char} {s : Scan}

/-- A character that ends the name of a remote or makes the path a local one. -/
def isMark (c : Char) : Bool :=
  c = '/' || c = backslash || c = ':' || c = ','

/-- The turn keeps the name and the state remains behind it, or it is an error. -/
def KeepsName (s : Scan) : Turn → Prop
  | .go s' | .stop s' => s'.parsed.name = s.parsed.name ∧ s'.state ≠ .configName
  | .ret (.ok _) => False
  | .ret (.error _) => True

theorem keepsName_self (behind : s.state ≠ .configName) : KeepsName s (.go s) :=
  ⟨rfl, behind⟩

theorem turnParam_keepsName (behind : s.state ≠ .configName) :
    KeepsName s (turnParam path i c s) := by
  unfold turnParam
  split
  · dsimp only
    split
    · trivial
    · split
      · exact ⟨rfl, nofun⟩
      · split
        · exact ⟨rfl, nofun⟩
        · exact ⟨rfl, nofun⟩
  · split
    · trivial
    · exact keepsName_self behind

theorem turnValue_keepsName (behind : s.state ≠ .configName) :
    KeepsName s (turnValue path i c s) := by
  unfold turnValue
  split
  · split
    · exact ⟨rfl, nofun⟩
    · exact keepsName_self behind
  · split
    · dsimp only
      split
      · exact ⟨rfl, nofun⟩
      · exact ⟨rfl, nofun⟩
    · exact keepsName_self behind

theorem turnQuotedValue_keepsName (behind : s.state ≠ .configName) :
    KeepsName s (turnQuotedValue c s) := by
  unfold turnQuotedValue
  split
  · exact ⟨rfl, nofun⟩
  · exact keepsName_self behind

theorem turnAfterQuote_keepsName : KeepsName s (turnAfterQuote path i c s) := by
  unfold turnAfterQuote
  split
  · dsimp only
    split
    · exact ⟨rfl, nofun⟩
    · exact ⟨rfl, nofun⟩
  · split
    · exact ⟨rfl, nofun⟩
    · trivial

theorem turn_keepsName (behind : s.state ≠ .configName) :
    KeepsName s (turn classes path i c s) := by
  unfold turn
  split
  · exact absurd ‹s.state = .configName› behind
  · exact turnParam_keepsName behind
  · exact turnValue_keepsName behind
  · exact turnQuotedValue_keepsName behind
  · exact turnAfterQuote_keepsName
  · exact keepsName_self behind

/-- The loop is left with the name, or it ends with an error. -/
def EndsWithName (name : FsText) : Scanned → Prop
  | .left s _ => s.parsed.name = name
  | .returned (.ok _) => False
  | .returned (.error _) => True

/-- Behind the name the loop changes only the parameters. -/
theorem scan_endsWithName {rest : FsText} (behind : s.state ≠ .configName) :
    EndsWithName s.parsed.name (scan classes path i rest s) := by
  induction rest generalizing i s with
  | nil => rfl
  | cons c rest ih =>
      have keeps := @turn_keepsName classes path i c s behind
      unfold scan
      cases turned : turn classes path i c s with
      | go s' =>
          rw [turned] at keeps
          exact keeps.1 ▸ ih keeps.2
      | stop s' =>
          rw [turned] at keeps
          exact keeps.1
      | ret result =>
          rw [turned] at keeps
          cases result with
          | ok parsed => exact keeps
          | error err => trivial

/-- Where the loop meets the first mark, after a leading colon if there is one. -/
def Unmarked (name : FsText) : Prop :=
  ∀ c ∈ name.tail, isMark c = false

/-- How a path is accepted: as a local one, or for the name before its first mark. -/
inductive Accepts (classes : UnicodeClasses) (path : FsText) (parsed : Parsed) : Prop
  | noColon (colon : ':' ∉ path) (isLocal : parsed.name = [])
  | slashFirst (front rest : FsText) (slash : Char) (isLocal : parsed.name = [])
      (path_eq : path = front ++ slash :: rest) (isSlash : slash = '/' ∨ slash = backslash)
      (unmarked : ∀ c ∈ front, isMark c = false)
  | named (name rest : FsText) (mark : Char) (isName : parsed.name = name)
      (path_eq : path = name ++ mark :: rest) (isEnd : mark = ':' ∨ mark = ',')
      (unmarked : Unmarked name) (valid : checkRemoteName classes (name ++ [':']) = none)
      (colon : ':' ∈ path) (plain : mark = ':' → parsed.config = none)

/-- What one turn in the name can do. -/
inductive NameTurn (classes : UnicodeClasses) (path : FsText) (i : Nat) (c : Char) (s : Scan) :
    Turn → Prop
  | unmarked (onward : i = 0 ∧ c = ':' ∨ isMark c = false) : NameTurn classes path i c s (.go s)
  | rejected (err : FspathError) : NameTurn classes path i c s (.ret (.error err))
  | slash (isSlash : c = '/' ∨ c = backslash) (inside : path.head? ≠ some ':') :
      NameTurn classes path i c s (.ret (.ok s.parsed))
  | plain (isColon : c = ':') (valid : checkRemoteName classes (path.take i ++ [':']) = none) :
      NameTurn classes path i c s
        (.stop { s with
          parsed := { s.parsed with name := path.take i }, prev := i + 1, state := .done })
  | param (isComma : c = ',') (valid : checkRemoteName classes (path.take i ++ [':']) = none) :
      NameTurn classes path i c s
        (.go { s with
          parsed := { s.parsed with name := path.take i, config := some ∅ }
          prev := i + 1, state := .param })

theorem turnConfigName_cases :
    NameTurn classes path i c s (turnConfigName classes path i c s) := by
  unfold turnConfigName
  split
  · rename_i leading
    exact .unmarked (.inl (by simpa using leading))
  · split
    · rename_i isSlash
      split
      · exact .rejected _
      · rename_i inside
        exact .slash (by simpa using isSlash) inside
    · rename_i noSlash
      split
      · rename_i isEnd
        dsimp only
        cases valid : checkRemoteName classes (path.take i ++ [':']) with
        | some err => exact .rejected err
        | none =>
            dsimp only
            split
            · rename_i isColon
              exact .plain isColon valid
            · rename_i noColon
              have isComma : c = ',' := by simpa [noColon] using isEnd
              exact .param isComma valid
      · rename_i noEnd
        apply NameTurn.unmarked
        right
        simp only [Bool.or_eq_true, decide_eq_true_eq, not_or] at noSlash noEnd
        simp [isMark, noSlash, noEnd]

theorem finish_ok {parsed : Parsed} (finished : finish path s i = .ok parsed) :
    parsed.name = s.parsed.name ∧ parsed.config = s.parsed.config := by
  unfold finish at finished
  cases state : s.state with
  | done =>
      simp only [state, Except.ok.injEq] at finished
      subst finished
      exact ⟨rfl, rfl⟩
  | _ => simp [state] at finished

theorem EndsWithName.name_eq {name : FsText} {scanned : Scanned} {parsed : Parsed}
    (ends : EndsWithName name scanned) (accepted : scanned.result path = .ok parsed) :
    parsed.name = name := by
  cases scanned with
  | left s i => exact (finish_ok accepted).1.trans ends
  | returned result =>
      cases result with
      | ok value => exact ends.elim
      | error err => cases accepted

/-- One more character that is no mark, or a leading colon. -/
theorem Unmarked.concat {read : FsText} (unmarked : Unmarked read)
    (onward : read.length = 0 ∧ c = ':' ∨ isMark c = false) : Unmarked (read ++ [c]) := by
  cases read with
  | nil => exact fun _ member => absurd member List.not_mem_nil
  | cons first read =>
      intro other member
      rcases List.mem_append.mp (List.tail_append_of_ne_nil (List.cons_ne_nil first read) ▸ member)
        with member | member
      · exact unmarked other member
      · rw [List.mem_singleton.mp member]
        exact onward.resolve_left fun leading => Nat.succ_ne_zero _ leading.1

/-- The loop in the name, with the characters that it has read. -/
theorem scan_accepts {read rest : FsText} {parsed : Parsed} (path_eq : path = read ++ rest)
    (colon : ':' ∈ path) (inName : s.state = .configName) (fresh : s.parsed.name = [])
    (noConfig : s.parsed.config = none) (unmarked : Unmarked read)
    (first : ∀ c, read.head? = some c → isMark c = true → c = ':')
    (accepted : (scan classes path read.length rest s).result path = .ok parsed) :
    Accepts classes path parsed := by
  induction rest generalizing read s with
  | nil =>
      unfold scan Scanned.result finish at accepted
      simp [inName] at accepted
  | cons c rest ih =>
      have taken : path.take read.length = read := by simp [path_eq]
      have turned : turn classes path read.length c s =
          turnConfigName classes path read.length c s := by
        rw [turn, inName]
      unfold scan at accepted
      rw [turned] at accepted
      have shape := @turnConfigName_cases classes path read.length c s
      generalize turnConfigName classes path read.length c s = next at accepted shape
      cases shape with
      | unmarked onward =>
          have extended : path = (read ++ [c]) ++ rest := by simp [path_eq]
          apply ih extended inName fresh noConfig (unmarked.concat onward)
          · intro d isHead marked
            cases read with
            | nil =>
                cases isHead
                rcases onward with leading | free
                · exact leading.2
                · exact absurd marked (by simp [free])
            | cons head read => exact first d isHead marked
          · simpa using accepted
      | rejected err => cases accepted
      | slash isSlash inside =>
          cases accepted
          refine .slashFirst read rest c fresh path_eq isSlash fun d member => ?_
          cases read with
          | nil => exact absurd member List.not_mem_nil
          | cons head read =>
              rcases List.mem_cons.mp member with rfl | member
              · cases marked : isMark d with
                | false => rfl
                | true => exact absurd (by simp [path_eq, first d rfl marked]) inside
              · exact unmarked d member
      | plain isColon valid =>
          dsimp only [Scanned.result] at accepted
          obtain ⟨name_eq, config_eq⟩ := finish_ok accepted
          rw [taken] at valid
          exact .named read rest c (name_eq.trans taken) path_eq (.inl isColon) unmarked valid colon
            fun _ => config_eq.trans noConfig
      | param isComma valid =>
          rw [taken] at valid accepted
          have ends := @scan_endsWithName classes path (read.length + 1)
            { s with
              parsed := { s.parsed with name := read, config := some ∅ }
              prev := read.length + 1, state := .param } rest nofun
          have name_eq := ends.name_eq accepted
          exact .named read rest c name_eq path_eq (.inr isComma) unmarked valid colon
            fun isColon => absurd (isComma.symm.trans isColon) (by decide)

/-- What `parse` accepts. -/
theorem parse_accepts {parsed : Parsed} (accepted : parse classes path = .ok parsed) :
    Accepts classes path parsed := by
  unfold parse at accepted
  split at accepted
  · cases accepted
  · split at accepted
    · rename_i colon
      cases accepted
      exact .noColon colon rfl
    · rename_i colon
      have nothing : Unmarked [] := fun _ member => absurd member List.not_mem_nil
      exact scan_accepts (List.nil_append path).symm (not_not.mp colon) rfl rfl rfl nothing
        (fun _ isHead => nomatch isHead) accepted

end Accepted

end RoundSync.Rclone
