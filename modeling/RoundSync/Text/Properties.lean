import RoundSync.Text.JavaString

/-!
# Property lists

The text format of `java.util.Properties`.  `load` reads logical lines, splits each at its
first separator and takes the escapes away; `store` writes two comment lines and one line
for each property.  A list of plain properties comes back from what `store` writes.
-/

namespace RoundSync.Text.Properties

def isBlankChar (c : Char) : Bool :=
  c = ' ' || c = '\t' || c = '\x0c'

def isLineEnd (c : Char) : Bool :=
  c = '\n' || c = '\r'

/-! ## Reading -/

/-- Where the reader of lines is; what it has collected stands latest first. -/
inductive LineState where
  | start
  | comment
  | body (collected : JavaString) (precedingBackslash : Bool)
  | continued (collected : JavaString) (skipLineFeed : Bool)

def logicalLines : LineState → JavaString → List JavaString
  | .start, [] | .comment, [] => []
  | .body collected precedingBackslash, [] =>
      [(if precedingBackslash then collected.tail else collected).reverse]
  | .continued collected _, [] => if collected.isEmpty then [] else [collected.reverse]
  | .start, c :: rest =>
      if isBlankChar c || isLineEnd c then logicalLines .start rest
      else if c = '#' || c = '!' then logicalLines .comment rest
      else logicalLines (.body [c] (c = '\\')) rest
  | .comment, c :: rest =>
      if isLineEnd c then logicalLines .start rest else logicalLines .comment rest
  | .body collected precedingBackslash, c :: rest =>
      if isLineEnd c then
        if precedingBackslash then logicalLines (.continued collected.tail (c = '\r')) rest
        else collected.reverse :: logicalLines .start rest
      else logicalLines (.body (c :: collected) (c = '\\' && !precedingBackslash)) rest
  | .continued collected skipLineFeed, c :: rest =>
      if skipLineFeed && c = '\n' then logicalLines (.continued collected false) rest
      else if isBlankChar c then logicalLines (.continued collected false) rest
      else if isLineEnd c then
        if collected.isEmpty then logicalLines .start rest
        else collected.reverse :: logicalLines .start rest
      else logicalLines (.body (c :: collected) (c = '\\')) rest

theorem logicalLines_start_cons (c : Char) (rest : JavaString) :
    logicalLines .start (c :: rest) =
      if isBlankChar c || isLineEnd c then logicalLines .start rest
      else if c = '#' || c = '!' then logicalLines .comment rest
      else logicalLines (.body [c] (c = '\\')) rest :=
  rfl

theorem logicalLines_comment_cons (c : Char) (rest : JavaString) :
    logicalLines .comment (c :: rest) =
      if isLineEnd c then logicalLines .start rest else logicalLines .comment rest :=
  rfl

theorem logicalLines_body_cons (collected : JavaString) (precedingBackslash : Bool) (c : Char)
    (rest : JavaString) :
    logicalLines (.body collected precedingBackslash) (c :: rest) =
      if isLineEnd c then
        if precedingBackslash then logicalLines (.continued collected.tail (c = '\r')) rest
        else collected.reverse :: logicalLines .start rest
      else logicalLines (.body (c :: collected) (c = '\\' && !precedingBackslash)) rest :=
  rfl

/-- The raw key, up to the first separator that no backslash precedes. -/
def splitKey (precedingBackslash : Bool) : JavaString → JavaString × JavaString
  | [] => ([], [])
  | c :: rest =>
      if !precedingBackslash && (c = '=' || c = ':' || isBlankChar c) then ([], c :: rest)
      else
        let (key, value) := splitKey (c = '\\' && !precedingBackslash) rest
        (c :: key, value)

/-- The raw value, behind blanks and at most one `=` or `:`. -/
def dropSeparator (text : JavaString) : JavaString :=
  match text.dropWhile isBlankChar with
  | [] => []
  | c :: rest => if c = '=' || c = ':' then rest.dropWhile isBlankChar else c :: rest

def hexValue (c : Char) : Option Nat :=
  if '0' ≤ c ∧ c ≤ '9' then some (c.toNat - '0'.toNat)
  else if 'a' ≤ c ∧ c ≤ 'f' then some (c.toNat - 'a'.toNat + 10)
  else if 'A' ≤ c ∧ c ≤ 'F' then some (c.toNat - 'A'.toNat + 10)
  else none

def escaped (c : Char) : Char :=
  match c with
  | 't' => '\t'
  | 'r' => '\r'
  | 'n' => '\n'
  | 'f' => '\x0c'
  | other => other

/-- Nothing for a malformed `\u` escape. -/
def loadConvert : JavaString → Option JavaString
  | [] => some []
  | '\\' :: 'u' :: a :: b :: c :: d :: rest => do
      let code := (((← hexValue a) * 16 + (← hexValue b)) * 16 + (← hexValue c)) * 16 + (← hexValue d)
      return Char.ofNat code :: (← loadConvert rest)
  | '\\' :: 'u' :: _ => none
  | '\\' :: c :: rest => (escaped c :: ·) <$> loadConvert rest
  | c :: rest => (c :: ·) <$> loadConvert rest

def loadLine (line : JavaString) : Option (JavaString × JavaString) := do
  let (key, value) := splitKey false line
  return (← loadConvert key, ← loadConvert (dropSeparator value))

def load (text : JavaString) : Option (List (JavaString × JavaString)) :=
  (logicalLines .start text).mapM loadLine

/-- A later property replaces an earlier one of its key. -/
def getProperty (properties : List (JavaString × JavaString)) (key : JavaString) :
    Option JavaString :=
  (properties.reverse.find? fun property => property.1 = key).map Prod.snd

/-! ## Writing -/

def hexDigit (n : Nat) : Char :=
  "0123456789ABCDEF".toList.getD n '0'

def unicodeEscape (unit : Nat) : JavaString :=
  ['\\', 'u', hexDigit (unit / 4096 % 16), hexDigit (unit / 256 % 16), hexDigit (unit / 16 % 16),
    hexDigit (unit % 16)]

def saveChar (escapeSpace : Bool) (c : Char) : JavaString :=
  if c = ' ' then if escapeSpace then ['\\', ' '] else [' ']
  else if c = '\t' then ['\\', 't']
  else if c = '\n' then ['\\', 'n']
  else if c = '\r' then ['\\', 'r']
  else if c = '\x0c' then ['\\', 'f']
  else if c = '=' || c = ':' || c = '#' || c = '!' || c = '\\' then ['\\', c]
  else if c.toNat < 0x20 || 0x7e < c.toNat then (Kotlin.utf16 c).flatMap unicodeEscape
  else [c]

/-- A blank at the start is always escaped. -/
def saveConvert (escapeSpace : Bool) : JavaString → JavaString
  | [] => []
  | c :: rest => saveChar true c ++ rest.flatMap (saveChar escapeSpace)

def saveProperty (property : JavaString × JavaString) : JavaString :=
  saveConvert true property.1 ++ '=' :: (saveConvert false property.2 ++ ['\n'])

/-- The comments and the date are single lines. -/
def store (comments date : JavaString) (properties : List (JavaString × JavaString)) : JavaString :=
  '#' :: (comments ++ '\n' :: '#' :: (date ++ '\n' :: properties.flatMap saveProperty))

/-! ## Bytes -/

def latin1 (text : JavaString) : List UInt8 :=
  text.map fun c => if c.toNat < 256 then UInt8.ofNat c.toNat else 63

def ofLatin1 (bytes : List UInt8) : JavaString :=
  bytes.map fun b => Char.ofNat b.toNat

/-! ## Plain properties come back -/

/-- A character that needs no escape. -/
def isPlain (c : Char) : Bool :=
  0x20 < c.toNat && c.toNat ≤ 0x7e && !(c = '=' || c = ':' || c = '#' || c = '!' || c = '\\')

theorem isPlain_iff {c : Char} :
    isPlain c = true ↔ (0x20 < c.toNat ∧ c.toNat ≤ 0x7e) ∧
      c ≠ '=' ∧ c ≠ ':' ∧ c ≠ '#' ∧ c ≠ '!' ∧ c ≠ '\\' := by
  simp [isPlain, and_assoc]

/-- A plain character is no control character and no blank. -/
theorem ne_of_isPlain {c d : Char} (plain : isPlain c = true) (low : d.toNat ≤ 0x20) : c ≠ d := by
  rintro rfl
  have bounds := (isPlain_iff.mp plain).1
  omega

theorem isBlankChar_of_isPlain {c : Char} (plain : isPlain c = true) : isBlankChar c = false := by
  simp [isBlankChar, ne_of_isPlain plain (d := ' ') (by decide),
    ne_of_isPlain plain (d := '\t') (by decide), ne_of_isPlain plain (d := '\x0c') (by decide)]

theorem isLineEnd_of_isPlain {c : Char} (plain : isPlain c = true) : isLineEnd c = false := by
  simp [isLineEnd, ne_of_isPlain plain (d := '\n') (by decide),
    ne_of_isPlain plain (d := '\r') (by decide)]

theorem saveChar_of_isPlain {escapeSpace : Bool} {c : Char} (plain : isPlain c = true) :
    saveChar escapeSpace c = [c] := by
  rcases isPlain_iff.mp plain with ⟨⟨low, high⟩, noEquals, noColon, noHash, noMark, noBackslash⟩
  unfold saveChar
  rw [if_neg (ne_of_isPlain plain (by decide)), if_neg (ne_of_isPlain plain (by decide)),
    if_neg (ne_of_isPlain plain (by decide)), if_neg (ne_of_isPlain plain (by decide)),
    if_neg (ne_of_isPlain plain (by decide)),
    if_neg (by simp [noEquals, noColon, noHash, noMark, noBackslash]),
    if_neg (by simp only [Bool.or_eq_true, decide_eq_true_eq]; omega)]

theorem saveConvert_of_plain {escapeSpace : Bool} {text : JavaString}
    (plain : ∀ c ∈ text, isPlain c = true) : saveConvert escapeSpace text = text := by
  have each (rest : JavaString) (plain : ∀ c ∈ rest, isPlain c = true) :
      rest.flatMap (saveChar escapeSpace) = rest := by
    induction rest with
    | nil => rfl
    | cons c rest inductionHypothesis =>
        rw [List.flatMap_cons, saveChar_of_isPlain (plain c List.mem_cons_self),
          inductionHypothesis fun d member => plain d (List.mem_cons_of_mem c member)]
        rfl
  cases text with
  | nil => rfl
  | cons c rest =>
      rw [saveConvert, saveChar_of_isPlain (plain c List.mem_cons_self),
        each rest fun d member => plain d (List.mem_cons_of_mem c member)]
      rfl

theorem loadConvert_of_plain {text : JavaString} (plain : ∀ c ∈ text, isPlain c = true) :
    loadConvert text = some text := by
  induction text with
  | nil => rfl
  | cons c rest inductionHypothesis =>
      have noBackslash := (isPlain_iff.mp (plain c List.mem_cons_self)).2.2.2.2.2
      have tail := inductionHypothesis fun d member => plain d (List.mem_cons_of_mem c member)
      rw [loadConvert.eq_def]
      split
      · contradiction
      · rename_i same
        cases same
        contradiction
      · rename_i same
        cases same
        contradiction
      · rename_i same
        cases same
        contradiction
      · rename_i same
        cases same
        rw [tail]
        rfl

theorem splitKey_of_plain {key value : JavaString} (plain : ∀ c ∈ key, isPlain c = true) :
    splitKey false (key ++ '=' :: value) = (key, '=' :: value) := by
  induction key with
  | nil => rfl
  | cons c rest inductionHypothesis =>
      have isPlain := plain c List.mem_cons_self
      rcases isPlain_iff.mp isPlain with ⟨_, noEquals, noColon, _, _, noBackslash⟩
      have tail := inductionHypothesis fun d member => plain d (List.mem_cons_of_mem c member)
      rw [List.cons_append, splitKey,
        if_neg (by simp [noEquals, noColon, isBlankChar_of_isPlain isPlain])]
      simp [noBackslash, tail]

theorem dropSeparator_of_plain {value : JavaString} (plain : ∀ c ∈ value, isPlain c = true) :
    dropSeparator ('=' :: value) = value := by
  have kept : value.dropWhile isBlankChar = value := by
    cases value with
    | nil => rfl
    | cons c rest =>
        exact List.dropWhile_cons_of_neg (by simp [isBlankChar_of_isPlain (plain c List.mem_cons_self)])
  exact kept

/-! ## Lines -/

theorem logicalLines_comment {text rest : JavaString} (single : ∀ c ∈ text, isLineEnd c = false) :
    logicalLines .comment (text ++ '\n' :: rest) = logicalLines .start rest := by
  induction text with
  | nil => rfl
  | cons c text inductionHypothesis =>
      rw [List.cons_append, logicalLines_comment_cons,
        if_neg (by simp [single c List.mem_cons_self])]
      exact inductionHypothesis fun d member => single d (List.mem_cons_of_mem c member)

theorem logicalLines_body {collected text rest : JavaString}
    (single : ∀ c ∈ text, isLineEnd c = false ∧ c ≠ '\\') :
    logicalLines (.body collected false) (text ++ '\n' :: rest) =
      (collected.reverse ++ text) :: logicalLines .start rest := by
  induction text generalizing collected with
  | nil =>
      rw [List.nil_append, logicalLines_body_cons, if_pos (by decide), List.append_nil]
      exact if_neg Bool.false_ne_true
  | cons c text inductionHypothesis =>
      rcases single c List.mem_cons_self with ⟨noEnd, noBackslash⟩
      have tail := @inductionHypothesis (c :: collected)
        fun d member => single d (List.mem_cons_of_mem c member)
      rw [List.cons_append, logicalLines_body_cons, if_neg (by simp [noEnd])]
      simpa [noBackslash] using tail

/-- The line of a plain property is read as one line. -/
theorem logicalLines_saveProperty {key value rest : JavaString} (named : key ≠ [])
    (plainKey : ∀ c ∈ key, isPlain c = true) (plainValue : ∀ c ∈ value, isPlain c = true) :
    logicalLines .start (saveProperty (key, value) ++ rest) =
      (key ++ '=' :: value) :: logicalLines .start rest := by
  have plainly {c : Char} (plain : isPlain c = true) : isLineEnd c = false ∧ c ≠ '\\' :=
    ⟨isLineEnd_of_isPlain plain, (isPlain_iff.mp plain).2.2.2.2.2⟩
  rw [saveProperty, saveConvert_of_plain plainKey, saveConvert_of_plain plainValue]
  cases key with
  | nil => exact absurd rfl named
  | cons c key =>
      have isPlain := plainKey c List.mem_cons_self
      rcases isPlain_iff.mp isPlain with ⟨_, _, _, noHash, noMark, noBackslash⟩
      have body := @logicalLines_body [c] (key ++ '=' :: value) rest (by
        intro d member
        rcases List.mem_append.mp member with inKey | inValue
        · exact plainly (plainKey d (List.mem_cons_of_mem c inKey))
        · rcases List.mem_cons.mp inValue with rfl | inValue
          · decide
          · exact plainly (plainValue d inValue))
      simp only [List.cons_append, List.append_assoc, List.nil_append] at body ⊢
      rw [logicalLines_start_cons,
        if_neg (by simp [isBlankChar_of_isPlain isPlain, isLineEnd_of_isPlain isPlain]),
        if_neg (by simp [noHash, noMark]), decide_eq_false noBackslash]
      exact body

/-- **Round trip.**  Plain properties with names are read as they were written. -/
theorem load_store {comments date : JavaString} {properties : List (JavaString × JavaString)}
    (singleComments : ∀ c ∈ comments, isLineEnd c = false) (singleDate : ∀ c ∈ date, isLineEnd c = false)
    (plain : ∀ property ∈ properties, property.1 ≠ [] ∧ (∀ c ∈ property.1, isPlain c = true) ∧
      ∀ c ∈ property.2, isPlain c = true) :
    load (store comments date properties) = some properties := by
  have skips {text rest : JavaString} (single : ∀ c ∈ text, isLineEnd c = false) :
      logicalLines .start ('#' :: (text ++ '\n' :: rest)) = logicalLines .start rest := by
    rw [logicalLines_start_cons, if_neg (by decide), if_pos (by decide)]
    exact logicalLines_comment single
  rw [load, store, skips singleComments, skips singleDate]
  induction properties with
  | nil => rfl
  | cons property properties inductionHypothesis =>
      rcases plain property List.mem_cons_self with ⟨named, plainKey, plainValue⟩
      have tail := inductionHypothesis fun other member => plain other (List.mem_cons_of_mem _ member)
      have line : loadLine (property.1 ++ '=' :: property.2) = some property := by
        simp only [loadLine, splitKey_of_plain plainKey, dropSeparator_of_plain plainValue,
          loadConvert_of_plain plainKey, loadConvert_of_plain plainValue]
        rfl
      rw [List.flatMap_cons, logicalLines_saveProperty named plainKey plainValue, List.mapM_cons, line,
        tail]
      rfl

/-! ## The bytes of a text -/

theorem ofLatin1_latin1 {text : JavaString} (narrow : ∀ c ∈ text, c.toNat < 256) :
    ofLatin1 (latin1 text) = text := by
  induction text with
  | nil => rfl
  | cons c text inductionHypothesis =>
      have isNarrow := narrow c List.mem_cons_self
      have tail := inductionHypothesis fun d member => narrow d (List.mem_cons_of_mem c member)
      have head : Char.ofNat (UInt8.ofNat c.toNat).toNat = c := by
        rw [UInt8.toNat_ofNat', Nat.mod_eq_of_lt isNarrow]
        exact Char.ofNat_toNat c
      simp only [ofLatin1, latin1, List.map_cons, isNarrow, if_true, head]
      exact congrArg (c :: ·) tail

end RoundSync.Text.Properties
