import RoundSync.Text.AndroidUri

/-!
# A reader of XML

The part of XML 1.0 that a program writes by concatenation: a declaration, and elements
whose start tags have at most one attribute, with text between the tags.  Comments,
sections, instructions and document types are not read, and no tag has a `>` in it.
Reading a text never lengthens it, and a text of the same length holds no reference.
-/

namespace RoundSync.Text.Xml

open AndroidUri

/-! ## Text -/

/-- The characters that a document may hold, written or by reference. -/
def isChar (c : Char) : Bool :=
  c = '\t' || c = '\n' || c = '\r' ||
    (0x20 ≤ c.toNat && c.toNat ≠ 0xFFFE && c.toNat ≠ 0xFFFF)

/-- A line ends in a line feed, whatever it was written with. -/
def normalizeLines : JavaString → JavaString
  | '\r' :: '\n' :: rest => '\n' :: normalizeLines rest
  | '\r' :: rest => '\n' :: normalizeLines rest
  | c :: rest => c :: normalizeLines rest
  | [] => []

/-- The value of a digit in a base. -/
def digitValue (base : Nat) (c : Char) : Option Nat :=
  match hexCharToValue c with
  | none => none
  | some value => if value < base then some value else none

def number (base : Nat) (digits : JavaString) : Option Nat :=
  digits.foldlM (fun value c => (digitValue base c).map (base * value + ·)) 0

/-- The character with a number. -/
def charOfNumber (base : Nat) (digits : JavaString) : Option Char :=
  if digits = [] then none
  else
    match number base digits with
    | none => none
    | some value =>
        if value.isValidChar && isChar (Char.ofNat value) then some (Char.ofNat value) else none

/-- What a reference stands for, by the name between `&` and `;`. -/
def reference : JavaString → Option Char
  | '#' :: 'x' :: digits => charOfNumber 16 digits
  | '#' :: digits => charOfNumber 10 digits
  | ['l', 't'] => some '<'
  | ['g', 't'] => some '>'
  | ['a', 'm', 'p'] => some '&'
  | ['a', 'p', 'o', 's'] => some '\''
  | ['q', 'u', 'o', 't'] => some '"'
  | _ => none

/-- Resolve the references; the name of one that is not at its end is kept backwards. -/
def resolveFrom : Option JavaString → JavaString → Option JavaString
  | none, [] => some []
  | some _, [] => none
  | none, c :: rest =>
      if c = '&' then resolveFrom (some []) rest else (resolveFrom none rest).map (c :: ·)
  | some name, c :: rest =>
      if c = ';' then
        match reference name.reverse with
        | none => none
        | some char => (resolveFrom none rest).map (char :: ·)
      else resolveFrom (some (c :: name)) rest

/-- The end of a section, which no text may hold. -/
def sectionEnd : JavaString :=
  [']', ']', '>']

def readText (raw : JavaString) : Option JavaString :=
  if sectionEnd <:+: raw then none else resolveFrom none (normalizeLines raw)

/-! ## Tags -/

/-- What stands between `<` and `>`, and the text up to the next tag. -/
structure Token where
  tag : JavaString
  text : JavaString
  deriving DecidableEq

inductive Tag where
  | declaration
  | opening (name : JavaString)
  | closing (name : JavaString)
  | empty (name : JavaString)
  deriving DecidableEq

def isNameStart (c : Char) : Bool :=
  c.isAlpha || c = '_' || c = ':'

def isName : JavaString → Bool
  | [] => false
  | c :: rest =>
      isNameStart c && rest.all fun c => isNameStart c || c.isDigit || c = '-' || c = '.'

/-- No attribute, or one with its value in quotation marks. -/
def isAttribute : JavaString → Bool
  | [] => true
  | c :: rest =>
      c = ' ' && isName (rest.takeWhile (· ≠ '=')) &&
        match rest.dropWhile (· ≠ '=') with
        | '=' :: '"' :: value => value.dropWhile (· ≠ '"') = ['"'] && '&' ∉ value
        | _ => false

/-- The name of a start tag. -/
def elementName (tag : JavaString) : Option JavaString :=
  let name := tag.takeWhile (· ≠ ' ')
  if isName name && isAttribute (tag.dropWhile (· ≠ ' ')) then some name else none

def readTag (tag : JavaString) : Option Tag :=
  match tag.head? with
  | some '?' =>
      if tag = "?xml version=\"1.0\" encoding=\"utf-8\"?".toList then some .declaration else none
  | some '/' => if isName tag.tail then some (.closing tag.tail) else none
  | _ =>
      if tag.getLast? = some '/' then (elementName tag.dropLast).map .empty
      else (elementName tag).map .opening

/-! ## Documents -/

/-- The document of a list of tokens. -/
def written (tokens : List Token) : JavaString :=
  tokens.flatMap fun token => '<' :: (token.tag ++ '>' :: token.text)

def tokenOfPiece (piece : JavaString) : Option Token :=
  match piece.dropWhile (· ≠ '>') with
  | [] => none
  | _ :: text => some ⟨piece.takeWhile (· ≠ '>'), text⟩

/-- A document starts with a tag. -/
def tokenize (document : JavaString) : Option (List Token) :=
  match document.splitOn '<' with
  | [] :: pieces => pieces.mapM tokenOfPiece
  | _ => none

/-- The tags after a start tag, with the names of the open elements: each element is
closed, and nothing comes behind the last one. -/
def balanced : List JavaString → List Tag → Bool
  | [], [] => true
  | [], _ :: _ => false
  | _ :: _, [] => false
  | top :: below, tag :: rest =>
      match tag with
      | .opening name => balanced (name :: top :: below) rest
      | .empty _ => balanced (top :: below) rest
      | .closing name => name = top && balanced below rest
      | .declaration => false

def isBlank (text : JavaString) : Bool :=
  text.all fun c => c = ' ' || c = '\t' || c = '\n' || c = '\r'

/-- A tag and the text behind it, as they are read. -/
abbrev Item := Tag × JavaString

/-- A declaration and one element, with at most blanks before and behind it. -/
def isDocument (items : List Item) : Bool :=
  match items with
  | (.declaration, before) :: (.opening root, _) :: rest =>
      isBlank before && balanced [root] (rest.map Prod.fst) &&
        rest.getLast?.all fun item => isBlank item.2
  | _ => false

def readToken (token : Token) : Option Item :=
  match readTag token.tag, readText token.text with
  | some tag, some text => some (tag, text)
  | _, _ => none

/-- The tags of a well-formed document, each with the text behind it. -/
def read (document : JavaString) : Option (List Item) :=
  if document.all isChar then
    match (tokenize document).bind fun tokens => tokens.mapM readToken with
    | none => none
    | some items => if isDocument items then some items else none
  else none

/-- The texts of the elements with a name, which have no elements in them. -/
def textsOf (name : JavaString) (items : List Item) : List JavaString :=
  items.filterMap fun item => if item.1 = .opening name then some item.2 else none

theorem textsOf_cons_self (name text : JavaString) (items : List Item) :
    textsOf name ((.opening name, text) :: items) = text :: textsOf name items := by
  rw [textsOf, List.filterMap_cons, if_pos rfl, textsOf]

theorem textsOf_cons_of_ne {name : JavaString} {tag : Tag} (apart : tag ≠ .opening name)
    (text : JavaString) (items : List Item) :
    textsOf name ((tag, text) :: items) = textsOf name items := by
  rw [textsOf, List.filterMap_cons, if_neg apart, textsOf]

theorem textsOf_append (name : JavaString) (front back : List Item) :
    textsOf name (front ++ back) = textsOf name front ++ textsOf name back :=
  List.filterMap_append

theorem textsOf_eq_nil {name : JavaString} {items : List Item}
    (free : Tag.opening name ∉ items.map Prod.fst) : textsOf name items = [] := by
  apply List.filterMap_eq_nil_iff.mpr
  intro item member
  exact if_neg fun same => free (List.mem_map.mpr ⟨item, member, same⟩)

/-! ## Reading what was written -/

/-- What a token is in the pieces between the signs `<`. -/
def Token.piece (token : Token) : JavaString :=
  token.tag ++ '>' :: token.text

/-- A tag without the signs around it. -/
def TagFree (tag : JavaString) : Prop :=
  '<' ∉ tag ∧ '>' ∉ tag

instance (tag : JavaString) : Decidable (TagFree tag) :=
  inferInstanceAs (Decidable (_ ∧ _))

theorem written_eq_rooted (tokens : List Token) :
    written tokens = rooted '<' (tokens.map Token.piece) := by
  induction tokens with
  | nil => rfl
  | cons token tokens ih =>
      rw [List.map_cons, rooted_cons, ← ih]
      rfl

theorem written_append (front back : List Token) :
    written (front ++ back) = written front ++ written back :=
  List.flatMap_append

theorem tokenOfPiece_piece {token : Token} (free : TagFree token.tag) :
    tokenOfPiece token.piece = some token := by
  obtain ⟨front, back⟩ := takeWhile_append_sep free.2 token.text
  rw [tokenOfPiece, Token.piece, front, back]

theorem mapM_pieces {tokens : List Token} (free : ∀ token ∈ tokens, TagFree token.tag) :
    (tokens.map Token.piece).mapM tokenOfPiece = some tokens := by
  induction tokens with
  | nil => rfl
  | cons token tokens ih =>
      rw [List.map_cons, List.mapM_cons, tokenOfPiece_piece (free token List.mem_cons_self),
        ih fun other member => free other (List.mem_cons_of_mem _ member)]
      rfl

theorem splitOn_written {tokens : List Token} (free : ∀ token ∈ tokens, TagFree token.tag)
    (plain : ∀ token ∈ tokens, '<' ∉ token.text) :
    (written tokens).splitOn '<' = [] :: tokens.map Token.piece := by
  rw [written_eq_rooted]
  apply splitOn_rooted
  intro piece member
  obtain ⟨token, tokenMember, rfl⟩ := List.mem_map.mp member
  simp [Token.piece, (free token tokenMember).1, plain token tokenMember]

theorem tokenize_written {tokens : List Token} (free : ∀ token ∈ tokens, TagFree token.tag)
    (plain : ∀ token ∈ tokens, '<' ∉ token.text) : tokenize (written tokens) = some tokens := by
  rw [tokenize, splitOn_written free plain]
  exact mapM_pieces free

/-- A word is split at its first separator. -/
theorem splitOn_eq_cons (sep : Char) (word : JavaString) :
    ∃ pieces, word.splitOn sep = word.takeWhile (· ≠ sep) :: pieces := by
  rcases exists_firstPart sep word with free | ⟨first, rest, rfl, free⟩
  · refine ⟨[], ?_⟩
    rw [List.splitOn_eq_singleton free, List.takeWhile_eq_self_iff.mpr]
    intro c member
    exact decide_eq_true fun same => free (same ▸ member)
  · rw [splitOn_append_sep, List.splitOn_eq_singleton free, (takeWhile_append_sep free rest).1]
    exact ⟨_, rfl⟩

/-- Behind a text comes a tag or nothing, so its part up to the first `<` is its own. -/
theorem takeWhile_text (text : JavaString) (back : List Token) :
    (text ++ written back).takeWhile (· ≠ '<') = text.takeWhile (· ≠ '<') := by
  have nothing : (written back).takeWhile (· ≠ '<') = [] := by
    cases back with
    | nil => rfl
    | cons token back => rfl
  rw [List.takeWhile_append, nothing, List.append_nil]
  split_ifs with whole
  · exact ((List.takeWhile_prefix _).eq_of_length whole).symm
  · rfl

/-- Behind well-written tokens, the text of the next one is read up to its first `<`. -/
theorem tokenize_front {front back all : List Token} {token : Token}
    (free : ∀ other ∈ front, TagFree other.tag) (plain : ∀ other ∈ front, '<' ∉ other.text)
    (tokenFree : TagFree token.tag)
    (read : tokenize (written (front ++ token :: back)) = some all) :
    ∃ rest, all = front ++ ⟨token.tag, token.text.takeWhile (· ≠ '<')⟩ :: rest := by
  have document : written (front ++ token :: back) =
      written front ++ '<' :: (token.piece ++ written back) := by
    rw [written_append]
    simp [written, Token.piece]
  have cutPiece : (token.piece ++ written back).takeWhile (· ≠ '<') =
      Token.piece ⟨token.tag, token.text.takeWhile (· ≠ '<')⟩ := by
    have kept : ∀ c ∈ token.tag ++ ['>'], decide (c ≠ '<') = true := by
      intro c member
      rcases List.mem_append.mp member with tag | sign
      · exact decide_eq_true fun same => tokenFree.1 (same ▸ tag)
      · rw [List.mem_singleton.mp sign]
        rfl
    have split : token.piece ++ written back =
        (token.tag ++ ['>']) ++ (token.text ++ written back) := by
      simp [Token.piece]
    rw [split, List.takeWhile_append_of_pos kept, takeWhile_text]
    simp [Token.piece]
  obtain ⟨pieces, splitEq⟩ := splitOn_eq_cons '<' (token.piece ++ written back)
  have cutToken : tokenOfPiece (Token.piece ⟨token.tag, token.text.takeWhile (· ≠ '<')⟩) =
      some ⟨token.tag, token.text.takeWhile (· ≠ '<')⟩ :=
    tokenOfPiece_piece tokenFree
  rw [tokenize, document, splitOn_append_sep, splitOn_written free plain, splitEq, cutPiece] at read
  simp only [List.cons_append, List.mapM_append, mapM_pieces free, List.mapM_cons, cutToken,
    Option.bind_eq_bind, Option.bind_some] at read
  obtain ⟨rest, tokenAndRest, whole⟩ := Option.bind_eq_some_iff.mp read
  obtain ⟨others, _, tokenFirst⟩ := Option.bind_eq_some_iff.mp tokenAndRest
  cases tokenFirst
  cases whole
  exact ⟨others, rfl⟩

/-- The values of a list that goes on behind a known part. -/
theorem mapM_front {α β : Type} {f : α → Option β} {front back : List α} {item : α}
    {known all : List β} (knownEq : front.mapM f = some known)
    (mapped : (front ++ item :: back).mapM f = some all) :
    ∃ value rest, f item = some value ∧ all = known ++ value :: rest := by
  rw [List.mapM_append, knownEq, List.mapM_cons] at mapped
  obtain ⟨_, same, mapped⟩ := Option.bind_eq_some_iff.mp mapped
  cases same
  obtain ⟨itemAndRest, itemEq, whole⟩ := Option.bind_eq_some_iff.mp mapped
  obtain ⟨value, valueEq, rest⟩ := Option.bind_eq_some_iff.mp itemEq
  obtain ⟨others, _, restEq⟩ := Option.bind_eq_some_iff.mp rest
  cases restEq
  cases whole
  exact ⟨value, others, valueEq, rfl⟩

theorem readToken_eq_some_iff {token : Token} {item : Item} :
    readToken token = some item ↔
      readTag token.tag = some item.1 ∧ readText token.text = some item.2 := by
  rw [readToken]
  cases readTag token.tag with
  | none => simp
  | some tag =>
      cases readText token.text with
      | none => simp
      | some text => simp [Prod.ext_iff]

theorem read_eq_some_iff {document : JavaString} {items : List Item} :
    read document = some items ↔
      document.all isChar = true ∧
        (∃ tokens, tokenize document = some tokens ∧ tokens.mapM readToken = some items) ∧
        isDocument items = true := by
  rw [read]
  split_ifs with chars
  · rw [← Option.bind_eq_some_iff]
    cases tokenized : (tokenize document).bind fun tokens => tokens.mapM readToken with
    | none => simp
    | some found =>
        simp only [chars, true_and, Option.some.injEq]
        constructor
        · intro result
          split_ifs at result with wellFormed
          cases result
          exact ⟨rfl, wellFormed⟩
        · rintro ⟨rfl, wellFormed⟩
          rw [if_pos wellFormed]
  · simp [chars]

/-- Tokens with known tags and any readable texts. -/
theorem exists_items {tokens : List Token} {tags : List Tag}
    (tagsEq : (tokens.map Token.tag).mapM readTag = some tags)
    (readable : ∀ token ∈ tokens, ∃ text, readText token.text = some text) :
    ∃ items, tokens.mapM readToken = some items ∧ items.map Prod.fst = tags := by
  induction tokens generalizing tags with
  | nil =>
      cases tagsEq
      exact ⟨[], rfl, rfl⟩
  | cons token tokens ih =>
      rw [List.map_cons, List.mapM_cons] at tagsEq
      obtain ⟨tag, tagEq, rest⟩ := Option.bind_eq_some_iff.mp tagsEq
      obtain ⟨restTags, restEq, whole⟩ := Option.bind_eq_some_iff.mp rest
      cases whole
      obtain ⟨items, itemsEq, fstEq⟩ :=
        ih restEq fun other member => readable other (List.mem_cons_of_mem _ member)
      obtain ⟨text, textEq⟩ := readable token List.mem_cons_self
      have itemEq : readToken token = some (tag, text) :=
        readToken_eq_some_iff.mpr ⟨tagEq, textEq⟩
      refine ⟨(tag, text) :: items, ?_, by rw [List.map_cons, fstEq]⟩
      rw [List.mapM_cons, itemEq, itemsEq]
      rfl

/-- A well-formed document that begins with well-written tokens has their items, and
behind them the next tag with its text up to the first `<`. -/
theorem read_front {front back : List Token} {token : Token} {known items : List Item}
    (free : ∀ other ∈ front, TagFree other.tag) (plain : ∀ other ∈ front, '<' ∉ other.text)
    (tokenFree : TagFree token.tag) (knownEq : front.mapM readToken = some known)
    (result : read (written (front ++ token :: back)) = some items) :
    ∃ item rest, readToken ⟨token.tag, token.text.takeWhile (· ≠ '<')⟩ = some item ∧
      items = known ++ item :: rest := by
  obtain ⟨_, ⟨tokens, tokenized, mapped⟩, _⟩ := read_eq_some_iff.mp result
  obtain ⟨others, rfl⟩ := tokenize_front free plain tokenFree tokenized
  exact mapM_front knownEq mapped

/-- What was written is read, token by token. -/
theorem read_written {tokens : List Token} {items : List Item}
    (chars : (written tokens).all isChar = true) (free : ∀ token ∈ tokens, TagFree token.tag)
    (plain : ∀ token ∈ tokens, '<' ∉ token.text) (itemsEq : tokens.mapM readToken = some items)
    (document : isDocument items = true) : read (written tokens) = some items :=
  read_eq_some_iff.mpr ⟨chars, ⟨tokens, tokenize_written free plain, itemsEq⟩, document⟩

theorem all_isChar_written {tokens : List Token} :
    (written tokens).all isChar = true ↔
      ∀ token ∈ tokens, token.tag.all isChar = true ∧ token.text.all isChar = true := by
  have signs : isChar '<' = true ∧ isChar '>' = true := by decide
  simp only [written, List.all_flatMap, List.all_cons, List.all_append, signs.1, signs.2,
    Bool.true_and, List.all_eq_true, Bool.and_eq_true]

/-! ## Reading a text -/

theorem resolveFrom_of_notMem {text : JavaString} (free : '&' ∉ text) :
    resolveFrom none text = some text := by
  induction text with
  | nil => rfl
  | cons c text ih =>
      have apart : c ≠ '&' := fun same => free (same ▸ List.mem_cons_self)
      rw [resolveFrom, if_neg apart, ih fun member => free (List.mem_cons_of_mem c member)]
      rfl

theorem normalizeLines_cons_of_ne {c : Char} (apart : c ≠ '\r') (rest : JavaString) :
    normalizeLines (c :: rest) = c :: normalizeLines rest := by
  rw [normalizeLines.eq_def]
  split
  next same => exact absurd (List.cons.inj same).1 apart
  next same => exact absurd (List.cons.inj same).1 apart
  next same =>
    cases same
    rfl
  next same => cases same

/-- A carriage return that no line feed follows. -/
theorem normalizeLines_return {rest : JavaString} (alone : rest.head? ≠ some '\n') :
    normalizeLines ('\r' :: rest) = '\n' :: normalizeLines rest := by
  cases rest with
  | nil => rfl
  | cons c rest =>
      apply normalizeLines.eq_2
      rintro tail same
      rw [same] at alone
      exact alone rfl

theorem normalizeLines_append {front : JavaString} (free : '\r' ∉ front) (rest : JavaString) :
    normalizeLines (front ++ rest) = front ++ normalizeLines rest := by
  induction front with
  | nil => rfl
  | cons c front ih =>
      have apart : c ≠ '\r' := fun same => free (same ▸ List.mem_cons_self)
      rw [List.cons_append, normalizeLines_cons_of_ne apart,
        ih fun member => free (List.mem_cons_of_mem c member), List.cons_append]

theorem normalizeLines_of_notMem {text : JavaString} (free : '\r' ∉ text) :
    normalizeLines text = text := by
  have whole := normalizeLines_append free []
  rwa [List.append_nil, normalizeLines, List.append_nil] at whole

theorem return_notMem_normalizeLines (text : JavaString) : '\r' ∉ normalizeLines text := by
  fun_induction normalizeLines text with
  | case1 rest ih => simpa using ih
  | case2 rest _ ih => simpa using ih
  | case3 c rest _ apart ih => simp [ih, Ne.symm apart]
  | case4 => simp

/-- A text without markup, references and line ends to normalise is read as it is. -/
theorem readText_of_plain {text : JavaString} (noReference : '&' ∉ text) (noReturn : '\r' ∉ text)
    (noEnd : ¬sectionEnd <:+: text) : readText text = some text := by
  rw [readText, if_neg noEnd, normalizeLines_of_notMem noReturn,
    resolveFrom_of_notMem noReference]

/-! ## Lengths -/

theorem length_utf8_cons (c : Char) (s : JavaString) :
    (utf8 (c :: s)).length = c.utf8Size + (utf8 s).length := by
  rw [utf8, List.flatMap_cons, List.length_append, String.length_utf8EncodeChar]
  rfl

theorem utf8Size_of_lt {value : Nat} (small : value < 128) : (Char.ofNat value).utf8Size = 1 := by
  have all : (List.range 128).all (fun n => (Char.ofNat n).utf8Size = 1) = true := by decide
  simpa using List.all_eq_true.mp all value (List.mem_range.mpr small)

theorem digitValue_lt {base value : Nat} {c : Char} (digit : digitValue base c = some value) :
    value < base := by
  rw [digitValue] at digit
  split at digit
  next => cases digit
  next =>
    split_ifs at digit with small
    cases digit
    exact small

/-- A numeric reference is longer than what it stands for. -/
theorem utf8Size_charOfNumber {base : Nat} {digits : JavaString} {char : Char} (few : base ≤ 16)
    (found : charOfNumber base digits = some char) : char.utf8Size < digits.length + 3 := by
  have atMost : char.utf8Size ≤ 4 := char.utf8Size_le_four
  match digits with
  | [] => simp [charOfNumber] at found
  | [digit] =>
      rw [charOfNumber, if_neg (List.cons_ne_nil _ _)] at found
      simp only [number, List.foldlM_cons, List.foldlM_nil, Option.bind_eq_bind] at found
      cases value : digitValue base digit with
      | none => simp [value] at found
      | some n =>
          have small : n < 128 := (digitValue_lt value).trans_le (few.trans (by decide))
          simp only [value, Option.map_some, Option.bind_some, Nat.mul_zero, Nat.zero_add,
            Option.pure_def] at found
          split_ifs at found
          cases found
          rw [utf8Size_of_lt small]
          exact Nat.lt_add_left _ (by decide)
  | _ :: _ :: rest =>
      rw [List.length_cons, List.length_cons]
      omega

theorem utf8Size_reference {name : JavaString} {char : Char} (found : reference name = some char) :
    char.utf8Size < name.length + 2 := by
  rw [reference.eq_def] at found
  split at found
  next digits =>
    have bound := utf8Size_charOfNumber (by decide) found
    rw [List.length_cons, List.length_cons]
    omega
  next digits _ =>
    have bound := utf8Size_charOfNumber (by decide) found
    rw [List.length_cons]
    omega
  all_goals
    cases found
  all_goals decide

/-- The octets that are left of a text once it is resolved from a state. -/
def Shortened (name : Option JavaString) (raw text : JavaString) : Prop :=
  match name with
  | none => (utf8 text).length ≤ (utf8 raw).length ∧
      ('&' ∈ raw → (utf8 text).length < (utf8 raw).length)
  | some name => (utf8 text).length < (utf8 raw).length + name.length + 1

/-- Resolving the references of a text shortens it, if there are any. -/
theorem shortened_resolveFrom {name : Option JavaString} {raw text : JavaString}
    (resolved : resolveFrom name raw = some text) : Shortened name raw text := by
  induction raw generalizing name text with
  | nil =>
      cases name with
      | none =>
          cases resolved
          exact ⟨Nat.le_refl _, fun member => absurd member List.not_mem_nil⟩
      | some name => cases resolved
  | cons c rest ih =>
      have cPos : 0 < c.utf8Size := c.utf8Size_pos
      cases name with
      | none =>
          rw [resolveFrom] at resolved
          split_ifs at resolved with ampersand
          · have shorter : (utf8 text).length < (utf8 rest).length + 0 + 1 := ih resolved
            rw [Shortened, length_utf8_cons]
            constructor
            · omega
            · intro _
              omega
          · obtain ⟨tail, tailEq, rfl⟩ := Option.map_eq_some_iff.mp resolved
            obtain ⟨bound, strict⟩ : (utf8 tail).length ≤ (utf8 rest).length ∧
                ('&' ∈ rest → (utf8 tail).length < (utf8 rest).length) := ih tailEq
            rw [Shortened, length_utf8_cons, length_utf8_cons]
            constructor
            · omega
            · intro member
              rcases List.mem_cons.mp member with same | member
              · exact absurd same.symm ampersand
              · have := strict member
                omega
      | some name =>
          rw [resolveFrom] at resolved
          split_ifs at resolved with semicolon
          · split at resolved
            next => cases resolved
            next char found =>
              obtain ⟨tail, tailEq, rfl⟩ := Option.map_eq_some_iff.mp resolved
              have bound : (utf8 tail).length ≤ (utf8 rest).length := (ih tailEq).1
              have charBound := utf8Size_reference found
              rw [List.length_reverse] at charBound
              rw [Shortened, length_utf8_cons, length_utf8_cons]
              omega
          · have shorter : (utf8 text).length < (utf8 rest).length + (c :: name).length + 1 :=
              ih resolved
            rw [List.length_cons] at shorter
            rw [Shortened, length_utf8_cons]
            omega

theorem length_normalizeLines (raw : JavaString) :
    (utf8 (normalizeLines raw)).length ≤ (utf8 raw).length := by
  have feed : ('\n' : Char).utf8Size = 1 := by decide
  have carriage : ('\r' : Char).utf8Size = 1 := by decide
  fun_induction normalizeLines raw with
  | case1 rest ih =>
      rw [length_utf8_cons, length_utf8_cons, length_utf8_cons]
      omega
  | case2 rest _ ih =>
      rw [length_utf8_cons, length_utf8_cons]
      omega
  | case3 c rest _ _ ih =>
      rw [length_utf8_cons, length_utf8_cons]
      omega
  | case4 => exact Nat.le_refl _

theorem readText_eq_some {raw text : JavaString} (read : readText raw = some text) :
    ¬sectionEnd <:+: raw ∧ resolveFrom none (normalizeLines raw) = some text := by
  rw [readText] at read
  split_ifs at read with noEnd
  exact ⟨noEnd, read⟩

theorem length_readText {raw text : JavaString} (read : readText raw = some text) :
    (utf8 text).length ≤ (utf8 raw).length := by
  obtain ⟨bound, _⟩ := shortened_resolveFrom (readText_eq_some read).2
  exact bound.trans (length_normalizeLines raw)

/-- A text that reading does not shorten holds no reference, and only its line ends can
have changed. -/
theorem readText_of_length_le {raw text : JavaString} (read : readText raw = some text)
    (long : (utf8 raw).length ≤ (utf8 text).length) :
    ¬sectionEnd <:+: raw ∧ '&' ∉ text ∧ text = normalizeLines raw := by
  obtain ⟨noEnd, resolved⟩ := readText_eq_some read
  obtain ⟨_, strict⟩ := shortened_resolveFrom resolved
  have normal := length_normalizeLines raw
  have free : '&' ∉ normalizeLines raw := by
    intro member
    have := strict member
    omega
  have same : normalizeLines raw = text :=
    Option.some.inj ((resolveFrom_of_notMem free).symm.trans resolved)
  exact ⟨noEnd, same ▸ free, same.symm⟩

end RoundSync.Text.Xml
