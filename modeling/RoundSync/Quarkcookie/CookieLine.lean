import RoundSync.Text.GoSpaces
import RoundSync.Kernel.Config

/-!
# Refreshing one cookie of a cookie line

`SetCookieValue` rewrites a cookie header in place.  A line is read here as the
list of its pieces, the way the function itself reads it; an update replaces the
pairs of its name and leaves the rest of the list alone.
-/

namespace RoundSync.Quarkcookie.Cookies

open RoundSync.Text

def space : UInt8 := 32
def semicolon : UInt8 := 59
def equalsSign : UInt8 := 61

/-- `strings.SplitN` with two parts. -/
def splitN2 (s : GoString) (sep : UInt8) : List GoString :=
  if sep ∈ s then [s.takeWhile (· ≠ sep), (s.dropWhile (· ≠ sep)).tail] else [s]

/-- Whether the loop sets this part. -/
def isPairOf (name part : GoString) : Bool :=
  let p := trimSpace part
  if p = [] then false
  else
    match splitN2 p equalsSign with
    | [key, _] => decide (trimSpace key = name)
    | _ => false

def refreshedPart (name value : GoString) : GoString :=
  [space] ++ name ++ [equalsSign] ++ value

def setPart (name value part : GoString) : GoString :=
  if isPairOf name part then refreshedPart name value else part

/-- `mapParts` splits the line, sets its parts and joins them again. -/
def setCookieValue (cookieLine name value : GoString) : GoString :=
  let parts := cookieLine.splitOn semicolon
  if !parts.any (isPairOf name) then
    if trimSpace cookieLine = [] then name ++ [equalsSign] ++ value
    else trimSpace cookieLine ++ str "; " ++ name ++ [equalsSign] ++ value
  else trim (mapParts semicolon (setPart name value) cookieLine) (str " ;")

/-! ## The client -/

/-- A cookie of a response.  The reader of `Set-Cookie` lines ends a value at a
semicolon. -/
structure ResponseCookie where
  name : GoString
  value : GoString
  oneAttribute : semicolon ∉ value

def firstCookie (cookies : List ResponseCookie) (name : GoString) : Option ResponseCookie :=
  cookies.find? fun cookie => cookie.name = name

def puus : GoString := str "__puus"
def pus : GoString := str "__pus"

/-- One of the two refreshes after a response, without the save that follows it. -/
def refreshOne (name : GoString) (config : Kernel.CookieConfig) (cookies : List ResponseCookie) :
    Kernel.CookieConfig :=
  match firstCookie cookies name with
  | some cookie => { config with cookie := setCookieValue config.cookie name cookie.value }
  | none => config

def refreshCookie (config : Kernel.CookieConfig) (cookies : List ResponseCookie) :
    Kernel.CookieConfig :=
  let config := refreshOne puus config cookies
  if config.useTranscodingAddress && toLower config.brand != str "uc" then
    refreshOne pus config cookies
  else config

/-! ## The pieces of a line -/

/-- What stands between two semicolons. -/
inductive Piece where
  | pair (name value : GoString)
  | word (text : GoString)
  deriving DecidableEq

def piece (part : GoString) : Option Piece :=
  let p := trimSpace part
  if p = [] then none
  else
    match splitN2 p equalsSign with
    | [key, value] => some (.pair (trimSpace key) value)
    | _ => some (.word p)

def pieces (cookieLine : GoString) : List Piece :=
  (cookieLine.splitOn semicolon).filterMap piece

def Piece.isNamed (name : GoString) : Piece → Bool
  | .pair other _ => decide (other = name)
  | .word _ => false

/-- The pieces that an update of the name leaves alone. -/
def others (name cookieLine : GoString) : List Piece :=
  (pieces cookieLine).filter fun piece => !piece.isNamed name

/-- Every occurrence of the name carries the value and there is one, and the other
cookies are those of the line before. -/
structure Updates (cookieLine name value updated : GoString) : Prop where
  carries : ∀ piece ∈ pieces updated, piece.isNamed name = true → piece = .pair name value
  exists_ : .pair name value ∈ pieces updated
  others : others name updated = others name cookieLine

/-- What can be read back as the name of a cookie. -/
structure IsName (name : GoString) : Prop where
  noSemicolon : semicolon ∉ name
  noEquals : equalsSign ∉ name
  trimmed : trimSpace name = name

/-- What can be read back as the value of a cookie. -/
structure IsValue (value : GoString) : Prop where
  noSemicolon : semicolon ∉ value
  ends : EndsSolid value

/-! ## One part -/

theorem equalsSign_solid : ∀ rune ∈ spaceRunes, equalsSign ∉ rune := by
  decide

theorem semicolon_solid : ∀ rune ∈ spaceRunes, semicolon ∉ rune := by
  decide

theorem blank_space : Blank [space] :=
  blank_of_mem (by decide)

theorem splitN2_pair {key : GoString} (free : equalsSign ∉ key) (value : GoString) :
    splitN2 (key ++ equalsSign :: value) equalsSign = [key, value] := by
  have cut := takeWhile_append_sep free value
  rw [splitN2, if_pos (by simp), cut.1, cut.2, List.tail_cons]

theorem splitN2_word {s : GoString} (free : equalsSign ∉ s) : splitN2 s equalsSign = [s] :=
  if_neg free

/-- A part is blank, a word or a pair. -/
theorem trimSpace_cases (part : GoString) :
    trimSpace part = [] ∨ (trimSpace part ≠ [] ∧ equalsSign ∉ trimSpace part) ∨
      ∃ key value, trimSpace part = key ++ equalsSign :: value ∧ equalsSign ∉ key := by
  rcases exists_firstPart equalsSign (trimSpace part) with free | pair
  · by_cases empty : trimSpace part = []
    · exact Or.inl empty
    · exact Or.inr (Or.inl ⟨empty, free⟩)
  · exact Or.inr (Or.inr pair)

theorem isPairOf_iff {name part : GoString} :
    isPairOf name part = true ↔ ∃ value, piece part = some (.pair name value) := by
  unfold isPairOf piece
  rcases trimSpace_cases part with empty | ⟨nonempty, free⟩ | ⟨key, value, pair, free⟩
  · simp [empty]
  · simp [nonempty, splitN2_word free]
  · rw [pair]
    dsimp only
    rw [if_neg (by simp), if_neg (by simp), splitN2_pair free]
    simp

theorem piece_congr {first second : GoString} (same : trimSpace first = trimSpace second) :
    piece first = piece second := by
  rw [piece, piece, same]

theorem isPairOf_congr {first second : GoString} (same : trimSpace first = trimSpace second)
    (name : GoString) : isPairOf name first = isPairOf name second := by
  rw [isPairOf, isPairOf, same]

/-- The names and values that are read from a part. -/
theorem piece_sound {part name value : GoString} (free : semicolon ∉ part)
    (read : piece part = some (.pair name value)) : IsName name ∧ IsValue value := by
  unfold piece at read
  rcases trimSpace_cases part with empty | ⟨nonempty, noPair⟩ | ⟨key, text, pair, noEquals⟩
  · simp [empty] at read
  · simp [nonempty, splitN2_word noPair] at read
  · have inside : ∀ b ∈ key ++ equalsSign :: text, b ∈ part := by
      intro b mem
      rw [← pair] at mem
      exact mem_of_mem_trimSpace mem
    have solid := trimSpace_solid part
    rw [pair] at read solid
    dsimp only at read
    rw [if_neg (by simp), splitN2_pair noEquals] at read
    obtain ⟨rfl, rfl⟩ : trimSpace key = name ∧ text = value := by simpa using read
    constructor
    · constructor
      · intro mem
        exact free (inside _ (List.mem_append_left _ (mem_of_mem_trimSpace mem)))
      · intro mem
        exact noEquals (mem_of_mem_trimSpace mem)
      · exact trimSpace_trimSpace key
    · constructor
      · intro mem
        exact free (inside _ (by simp [mem]))
      · intro rune isSpace ending
        exact solid.ends rune isSpace (ending.trans ⟨key ++ [equalsSign], by simp⟩)

theorem startsSolid_of_trimmed {s : GoString} (trimmed : trimSpace s = s) : StartsSolid s := by
  rw [← trimmed]
  exact (trimSpace_solid s).starts

/-- What an update puts in is read as its name, with the value but for white space
at its end. -/
theorem piece_refreshedPart {name : GoString} (isName : IsName name) {value blank : GoString}
    (ends : EndsSolid value) (isBlank : Blank blank) :
    piece (refreshedPart name (value ++ blank)) = some (.pair name value) := by
  have trimmed : trimSpace (refreshedPart name (value ++ blank)) =
      name ++ equalsSign :: value := by
    have solid := solid_append_cons equalsSign_solid
      (startsSolid_of_trimmed isName.trimmed) ends
    have whole := trimSpace_eq blank_space isBlank solid
    rw [← whole]
    simp [refreshedPart]
  rw [piece, trimmed, if_neg (by simp), splitN2_pair isName.noEquals]
  simp [isName.trimmed]

theorem exists_endsSolid (s : GoString) :
    ∃ front blank, s = front ++ blank ∧ EndsSolid front ∧ Blank blank := by
  rcases exists_dropTail s (Nat.le_refl s.length) with ⟨blank, isBlank, split, ends⟩
  exact ⟨_, blank, split, ends, isBlank⟩

/-- The update of the list of pieces. -/
def Piece.updated (name value : GoString) (piece : Piece) : Piece :=
  if piece.isNamed name then .pair name value else piece

theorem piece_setPart {name value read : GoString}
    (refreshed : piece (refreshedPart name value) = some (.pair name read)) (part : GoString) :
    piece (setPart name value part) = (piece part).map (Piece.updated name read) := by
  unfold setPart
  by_cases named : isPairOf name part = true
  · rcases isPairOf_iff.mp named with ⟨old, isPair⟩
    rw [if_pos named, refreshed, isPair]
    simp [Piece.updated, Piece.isNamed]
  · rw [if_neg named]
    cases isPiece : piece part with
    | none => rfl
    | some other =>
        cases other with
        | word text => simp [Piece.updated, Piece.isNamed]
        | pair key old =>
            have apart : key ≠ name := by
              rintro rfl
              exact named (isPairOf_iff.mpr ⟨old, isPiece⟩)
            simp [Piece.updated, Piece.isNamed, apart]

theorem setPart_noSemicolon {name value : GoString} (isName : IsName name)
    (noSemicolon : semicolon ∉ value) (part : GoString) (free : semicolon ∉ part) :
    semicolon ∉ setPart name value part := by
  unfold setPart
  split
  · have notSpace : semicolon ≠ space := by decide
    have notEquals : semicolon ≠ equalsSign := by decide
    simp [refreshedPart, isName.noSemicolon, noSemicolon, notSpace, notEquals]
  · exact free

theorem setPart_setPart {name value read : GoString}
    (refreshed : piece (refreshedPart name value) = some (.pair name read)) (part : GoString) :
    setPart name value (setPart name value part) = setPart name value part := by
  unfold setPart
  by_cases named : isPairOf name part = true
  · rw [if_pos named, if_pos (isPairOf_iff.mpr ⟨read, refreshed⟩)]
  · rw [if_neg named, if_neg named]

/-! ## The pieces of a line -/

theorem pieces_append_semicolon (first second : GoString) :
    pieces (first ++ semicolon :: second) = pieces first ++ pieces second := by
  rw [pieces, splitOn_append_sep, List.filterMap_append, pieces, pieces]

theorem pieces_of_notMem {part : GoString} (free : semicolon ∉ part) :
    pieces part = (piece part).toList := by
  rw [pieces, List.splitOn_eq_singleton free]
  cases isPiece : piece part <;> simp [isPiece]

theorem pieces_nil : pieces [] = [] :=
  rfl

theorem pieces_blank_append {blank : GoString} (isBlank : Blank blank) (s : GoString) :
    pieces (blank ++ s) = pieces s := by
  have free := isBlank.notMem semicolon_solid
  have same := fun part => piece_congr (trimSpace_blank_append isBlank part)
  rcases exists_firstPart semicolon s with none | ⟨first, rest, rfl, firstFree⟩
  · have longer : semicolon ∉ blank ++ s := by simp [free, none]
    rw [pieces_of_notMem longer, pieces_of_notMem none, same]
  · have longer : semicolon ∉ blank ++ first := by simp [free, firstFree]
    rw [← List.append_assoc, pieces_append_semicolon, pieces_append_semicolon,
      pieces_of_notMem longer, pieces_of_notMem firstFree, same]

theorem pieces_append_blank {blank : GoString} (isBlank : Blank blank) (s : GoString) :
    pieces (s ++ blank) = pieces s := by
  have free := isBlank.notMem semicolon_solid
  have same := fun part => piece_congr (trimSpace_append_blank isBlank part)
  rcases exists_lastPart semicolon s with none | ⟨front, last, rfl, lastFree⟩
  · have longer : semicolon ∉ s ++ blank := by simp [free, none]
    rw [pieces_of_notMem longer, pieces_of_notMem none, same]
  · have longer : semicolon ∉ last ++ blank := by simp [free, lastFree]
    rw [List.append_assoc, List.cons_append, pieces_append_semicolon, pieces_append_semicolon,
      pieces_of_notMem longer, pieces_of_notMem lastFree, same]

theorem pieces_trimSpace (s : GoString) : pieces (trimSpace s) = pieces s := by
  rcases exists_trimSpace s with ⟨before, after, beforeBlank, afterBlank, split, -⟩
  have whole := pieces_blank_append beforeBlank (trimSpace s ++ after)
  rw [← split, pieces_append_blank afterBlank] at whole
  exact whole.symm

/-- An update in place maps the pieces. -/
theorem pieces_mapParts {name value read : GoString} (isName : IsName name)
    (noSemicolon : semicolon ∉ value)
    (refreshed : piece (refreshedPart name value) = some (.pair name read)) (line : GoString) :
    pieces (mapParts semicolon (setPart name value) line) =
      (pieces line).map (Piece.updated name read) := by
  rw [pieces, splitOn_mapParts (setPart_noSemicolon isName noSemicolon), List.filterMap_map,
    pieces, List.map_filterMap]
  exact congrArg (List.filterMap · _) (funext (piece_setPart refreshed))

/-! ## The update of a line -/

def lineEnds : GoString :=
  str " ;"

theorem mem_lineEnds {b : UInt8} : b ∈ lineEnds ↔ b = space ∨ b = semicolon := by
  have bytes : lineEnds = [space, semicolon] := by decide
  rw [bytes]
  simp

theorem pieces_trim (s : GoString) : pieces (trim s lineEnds) = pieces s := by
  refine trim_invariant ?_ ?_ s
  · intro b mem s
    rcases mem_lineEnds.mp mem with rfl | rfl
    · exact pieces_blank_append blank_space s
    · exact pieces_append_semicolon [] s
  · intro b mem s
    rcases mem_lineEnds.mp mem with rfl | rfl
    · exact pieces_append_blank blank_space s
    · rw [pieces_append_semicolon, pieces_nil, List.append_nil]

theorem setPart_blank_append (name value : GoString) {blank : GoString} (isBlank : Blank blank)
    (part : GoString) :
    setPart name value (blank ++ part) = setPart name value part ∨
      setPart name value (blank ++ part) = blank ++ setPart name value part := by
  unfold setPart
  rw [isPairOf_congr (trimSpace_blank_append isBlank part) name]
  split
  · exact Or.inl rfl
  · exact Or.inr rfl

theorem setPart_append_blank (name value : GoString) {blank : GoString} (isBlank : Blank blank)
    (part : GoString) :
    setPart name value (part ++ blank) = setPart name value part ∨
      setPart name value (part ++ blank) = setPart name value part ++ blank := by
  unfold setPart
  rw [isPairOf_congr (trimSpace_append_blank isBlank part) name]
  split
  · exact Or.inl rfl
  · exact Or.inr rfl

theorem setParts_nil (name value : GoString) :
    mapParts semicolon (setPart name value) [] = [] :=
  rfl

theorem trim_setParts_cons (name value : GoString) {b : UInt8} (mem : b ∈ lineEnds)
    (s : GoString) :
    trim (mapParts semicolon (setPart name value) (b :: s)) lineEnds =
      trim (mapParts semicolon (setPart name value) s) lineEnds := by
  rcases mem_lineEnds.mp mem with rfl | rfl
  · have longer : ∀ part : GoString, semicolon ∉ part → semicolon ∉ [space] ++ part := by
      intro part free
      have notSpace : semicolon ≠ space := by decide
      simp [free, notSpace]
    have either : mapParts semicolon (setPart name value) ([space] ++ s) =
          mapParts semicolon (setPart name value) s ∨
        mapParts semicolon (setPart name value) ([space] ++ s) =
          [space] ++ mapParts semicolon (setPart name value) s := by
      rcases exists_firstPart semicolon s with free | ⟨first, rest, rfl, free⟩
      · rw [mapParts_of_notMem (longer s free), mapParts_of_notMem free]
        exact setPart_blank_append name value blank_space s
      · rw [← List.append_assoc, mapParts_append_sep, mapParts_append_sep,
          mapParts_of_notMem (longer first free), mapParts_of_notMem free]
        rcases setPart_blank_append name value blank_space first with same | same
        · exact Or.inl (by rw [same])
        · exact Or.inr (by rw [same, List.append_assoc])
    rcases either with same | same
    · exact congrArg (trim · lineEnds) same
    · rw [show space :: s = [space] ++ s from rfl, same]
      exact trim_cons_of_mem mem _
  · have front := mapParts_append_sep semicolon (setPart name value) [] s
    rw [setParts_nil, List.nil_append, List.nil_append] at front
    rw [front, trim_cons_of_mem mem]

theorem trim_setParts_append (name value : GoString) {b : UInt8} (mem : b ∈ lineEnds)
    (s : GoString) :
    trim (mapParts semicolon (setPart name value) (s ++ [b])) lineEnds =
      trim (mapParts semicolon (setPart name value) s) lineEnds := by
  rcases mem_lineEnds.mp mem with rfl | rfl
  · have longer : ∀ part : GoString, semicolon ∉ part → semicolon ∉ part ++ [space] := by
      intro part free
      have notSpace : semicolon ≠ space := by decide
      simp [free, notSpace]
    have either : mapParts semicolon (setPart name value) (s ++ [space]) =
          mapParts semicolon (setPart name value) s ∨
        mapParts semicolon (setPart name value) (s ++ [space]) =
          mapParts semicolon (setPart name value) s ++ [space] := by
      rcases exists_lastPart semicolon s with free | ⟨front, last, rfl, free⟩
      · rw [mapParts_of_notMem (longer s free), mapParts_of_notMem free]
        exact setPart_append_blank name value blank_space s
      · rw [List.append_assoc, List.cons_append, mapParts_append_sep, mapParts_append_sep,
          mapParts_of_notMem (longer last free), mapParts_of_notMem free]
        rcases setPart_append_blank name value blank_space last with same | same
        · exact Or.inl (by rw [same])
        · exact Or.inr (by rw [same, List.append_assoc, List.cons_append])
    rcases either with same | same
    · rw [same]
    · rw [same]
      exact trim_append_of_mem mem _
  · have back := mapParts_append_sep semicolon (setPart name value) s []
    rw [setParts_nil] at back
    rw [back, trim_append_of_mem mem]

/-- Trimming the ends of a line does not matter to the update of its parts. -/
theorem trim_setParts_trim (name value s : GoString) :
    trim (mapParts semicolon (setPart name value) (trim s lineEnds)) lineEnds =
      trim (mapParts semicolon (setPart name value) s) lineEnds :=
  @trim_invariant _ (fun s => trim (mapParts semicolon (setPart name value) s) lineEnds) lineEnds
    (fun _ mem => trim_setParts_cons name value mem)
    (fun _ mem => trim_setParts_append name value mem) s

/-- The line has a pair of this name. -/
def HasPair (name cookieLine : GoString) : Prop :=
  ∃ piece ∈ pieces cookieLine, piece.isNamed name = true

theorem any_isPairOf_iff (name cookieLine : GoString) :
    (cookieLine.splitOn semicolon).any (isPairOf name) = true ↔ HasPair name cookieLine := by
  unfold HasPair pieces
  rw [List.any_eq_true]
  constructor
  · rintro ⟨part, mem, named⟩
    rcases isPairOf_iff.mp named with ⟨value, isPair⟩
    exact ⟨.pair name value, List.mem_filterMap.mpr ⟨part, mem, isPair⟩, by simp [Piece.isNamed]⟩
  · rintro ⟨found, mem, named⟩
    rcases List.mem_filterMap.mp mem with ⟨part, partMem, isPiece⟩
    cases found with
    | word text => simp [Piece.isNamed] at named
    | pair key value =>
        have same : key = name := by simpa [Piece.isNamed] using named
        subst key
        exact ⟨part, partMem, isPairOf_iff.mpr ⟨value, isPiece⟩⟩

theorem setCookieValue_of_hasPair {name cookieLine : GoString} (hasPair : HasPair name cookieLine)
    (value : GoString) :
    setCookieValue cookieLine name value =
      trim (mapParts semicolon (setPart name value) cookieLine) lineEnds := by
  have found := (any_isPairOf_iff name cookieLine).mpr hasPair
  simp only [setCookieValue, found, Bool.not_true, Bool.false_eq_true, if_false]
  rfl

theorem setCookieValue_of_blank {name cookieLine : GoString}
    (noPair : ¬ HasPair name cookieLine) (blank : trimSpace cookieLine = [])
    (value : GoString) :
    setCookieValue cookieLine name value = name ++ equalsSign :: value := by
  have found := (any_isPairOf_iff name cookieLine).not.mpr noPair
  simp [setCookieValue, found, blank]

theorem setCookieValue_of_noPair {name cookieLine : GoString}
    (noPair : ¬ HasPair name cookieLine) (solid : trimSpace cookieLine ≠ [])
    (value : GoString) :
    setCookieValue cookieLine name value =
      trimSpace cookieLine ++ semicolon :: refreshedPart name value := by
  have found := (any_isPairOf_iff name cookieLine).not.mpr noPair
  have bytes : str "; " = [semicolon, space] := by decide
  simp [setCookieValue, found, solid, bytes, refreshedPart]

theorem noSemicolon_refreshed {name value : GoString} (isName : IsName name)
    (noSemicolon : semicolon ∉ value) : semicolon ∉ refreshedPart name value := by
  have notSpace : semicolon ≠ space := by decide
  have notEquals : semicolon ≠ equalsSign := by decide
  simp [refreshedPart, isName.noSemicolon, noSemicolon, notSpace, notEquals]

theorem pieces_refreshedPart {name value read : GoString} (isName : IsName name)
    (noSemicolon : semicolon ∉ value)
    (refreshed : piece (refreshedPart name value) = some (.pair name read)) :
    pieces (refreshedPart name value) = [.pair name read] := by
  rw [pieces_of_notMem (noSemicolon_refreshed isName noSemicolon), refreshed]
  rfl

open Classical in
/-- The pieces after an update. -/
theorem pieces_setCookieValue {name value read : GoString} (isName : IsName name)
    (noSemicolon : semicolon ∉ value)
    (refreshed : piece (refreshedPart name value) = some (.pair name read))
    (cookieLine : GoString) :
    pieces (setCookieValue cookieLine name value) =
      if HasPair name cookieLine then (pieces cookieLine).map (Piece.updated name read)
      else pieces cookieLine ++ [.pair name read] := by
  have new := pieces_refreshedPart isName noSemicolon refreshed
  split
  · rename_i hasPair
    rw [setCookieValue_of_hasPair hasPair, pieces_trim,
      pieces_mapParts isName noSemicolon refreshed]
  · rename_i noPair
    by_cases blank : trimSpace cookieLine = []
    · have empty : pieces cookieLine = [] := by rw [← pieces_trimSpace, blank, pieces_nil]
      have spaced : refreshedPart name value = [space] ++ (name ++ equalsSign :: value) := by
        simp [refreshedPart]
      rw [setCookieValue_of_blank noPair blank, empty, List.nil_append, ← new, spaced]
      exact (pieces_blank_append blank_space _).symm
    · rw [setCookieValue_of_noPair noPair blank, pieces_append_semicolon, pieces_trimSpace, new]

theorem updated_of_isNamed {name : GoString} {piece : Piece} (named : piece.isNamed name = true)
    (value : GoString) : piece.updated name value = .pair name value :=
  if_pos named

theorem updated_of_not_isNamed {name : GoString} {piece : Piece}
    (other : piece.isNamed name = false) (value : GoString) : piece.updated name value = piece :=
  if_neg (by simp [other])

theorem pair_isNamed (name value : GoString) : (Piece.pair name value).isNamed name = true := by
  simp [Piece.isNamed]

theorem filter_updated (name value : GoString) (list : List Piece) :
    (list.map (Piece.updated name value)).filter (fun piece => !piece.isNamed name) =
      list.filter (fun piece => !piece.isNamed name) := by
  induction list with
  | nil => rfl
  | cons piece list ih =>
      rw [List.map_cons]
      cases named : piece.isNamed name with
      | true =>
          rw [updated_of_isNamed named, List.filter_cons_of_neg (by simp [pair_isNamed]),
            List.filter_cons_of_neg (by simp [named]), ih]
      | false =>
          rw [updated_of_not_isNamed named, List.filter_cons_of_pos (by simp [named]),
            List.filter_cons_of_pos (by simp [named]), ih]

/-- The other pieces are those of the line before, whatever the value. -/
theorem others_setCookieValue {name value : GoString} (isName : IsName name)
    (noSemicolon : semicolon ∉ value) (cookieLine : GoString) :
    others name (setCookieValue cookieLine name value) = others name cookieLine := by
  rcases exists_endsSolid value with ⟨read, blank, rfl, ends, isBlank⟩
  have refreshed := piece_refreshedPart isName ends isBlank
  unfold others
  rw [pieces_setCookieValue isName noSemicolon refreshed]
  split
  · exact filter_updated name read (pieces cookieLine)
  · rw [List.filter_append]
    simp [pair_isNamed]

theorem piece_refreshed {name value : GoString} (isName : IsName name) (isValue : IsValue value) :
    piece (refreshedPart name value) = some (.pair name value) := by
  have refreshed := piece_refreshedPart isName isValue.ends blank_nil
  rwa [List.append_nil] at refreshed

theorem setCookieValue_updates {name value : GoString} (isName : IsName name)
    (isValue : IsValue value) (cookieLine : GoString) :
    Updates cookieLine name value (setCookieValue cookieLine name value) := by
  have all := pieces_setCookieValue isName isValue.noSemicolon (piece_refreshed isName isValue)
    cookieLine
  refine ⟨?_, ?_, others_setCookieValue isName isValue.noSemicolon cookieLine⟩
  · intro found mem named
    rw [all] at mem
    split at mem
    · rcases List.mem_map.mp mem with ⟨before, -, rfl⟩
      cases was : before.isNamed name with
      | true => exact updated_of_isNamed was value
      | false =>
          rw [updated_of_not_isNamed was, was] at named
          cases named
    · rename_i noPair
      rcases List.mem_append.mp mem with old | new
      · exact absurd ⟨found, old, named⟩ noPair
      · exact List.mem_singleton.mp new
  · rw [all]
    split
    · rename_i hasPair
      rcases hasPair with ⟨before, mem, named⟩
      exact List.mem_map.mpr ⟨before, mem, updated_of_isNamed named value⟩
    · simp

theorem Updates.hasPair {cookieLine name value updated : GoString}
    (updates : Updates cookieLine name value updated) : HasPair name updated :=
  ⟨.pair name value, updates.exists_, pair_isNamed name value⟩

/-- Only what can be read back is ever carried. -/
theorem Updates.sound {cookieLine name value updated : GoString}
    (updates : Updates cookieLine name value updated) : IsName name ∧ IsValue value := by
  rcases List.mem_filterMap.mp updates.exists_ with ⟨part, mem, isPiece⟩
  exact piece_sound (mem_splitOn_notMem mem) isPiece

/-! ## The same update twice -/

theorem setParts_of_noPair {name cookieLine : GoString} (noPair : ¬ HasPair name cookieLine)
    (value : GoString) : mapParts semicolon (setPart name value) cookieLine = cookieLine := by
  refine mapParts_eq_self ?_
  intro part mem
  have other : ¬ isPairOf name part = true := fun named =>
    noPair ((any_isPairOf_iff name cookieLine).mp (List.any_eq_true.mpr ⟨part, mem, named⟩))
  exact if_neg other

theorem setPart_refreshedPart {name value : GoString} (isName : IsName name)
    (isValue : IsValue value) :
    setPart name value (refreshedPart name value) = refreshedPart name value :=
  if_pos (isPairOf_iff.mpr ⟨value, piece_refreshed isName isValue⟩)

theorem last_notMem_lineEnds {value : GoString} (isValue : IsValue value) (front : GoString) :
    ∀ b ∈ (front ++ equalsSign :: value).getLast?, b ∉ lineEnds := by
  intro b last mem
  rcases List.eq_nil_or_concat value with rfl | ⟨most, byte, rfl⟩
  · simp only [List.getLast?_append, List.getLast?_singleton, Option.some_or, Option.mem_def,
      Option.some.injEq] at last
    subst b
    revert mem
    decide
  · rw [List.concat_eq_append, ← List.cons_append, ← List.append_assoc,
      List.getLast?_append] at last
    have same : byte = b := by simpa using last
    subst b
    rcases mem_lineEnds.mp mem with rfl | rfl
    · exact isValue.ends [space] (by decide) ⟨most, by simp⟩
    · exact isValue.noSemicolon (by simp)

theorem head_ne_space {s : GoString} (starts : StartsSolid s) : s.head? ≠ some space := by
  intro head
  cases s with
  | nil => cases head
  | cons b s =>
      obtain rfl : b = space := by simpa using head
      exact starts [space] (by decide) ⟨s, rfl⟩

theorem setCookieValue_twice_of_hasPair {name value cookieLine : GoString}
    (isName : IsName name) (isValue : IsValue value) (hasPair : HasPair name cookieLine) :
    setCookieValue (setCookieValue cookieLine name value) name value =
      setCookieValue cookieLine name value := by
  rw [setCookieValue_of_hasPair (setCookieValue_updates isName isValue cookieLine).hasPair,
    setCookieValue_of_hasPair hasPair, trim_setParts_trim,
    mapParts_mapParts (setPart_noSemicolon isName isValue.noSemicolon)
      (setPart_setPart (piece_refreshed isName isValue))]

theorem setCookieValue_twice_of_blank {name value cookieLine : GoString} (isName : IsName name)
    (isValue : IsValue value) (noPair : ¬ HasPair name cookieLine)
    (blank : trimSpace cookieLine = []) :
    setCookieValue (setCookieValue cookieLine name value) name value =
      setCookieValue cookieLine name value := by
  have hasPair := (setCookieValue_updates isName isValue cookieLine).hasPair
  rw [setCookieValue_of_blank noPair blank] at hasPair ⊢
  have spaced : [space] ++ (name ++ equalsSign :: value) = refreshedPart name value := by
    simp [refreshedPart]
  have inside : space ∈ lineEnds := mem_lineEnds.mpr (Or.inl rfl)
  have starts := startsSolid_of_trimmed isName.trimmed
  rw [setCookieValue_of_hasPair hasPair, ← trim_setParts_cons name value inside,
    ← List.singleton_append, spaced,
    mapParts_of_notMem (noSemicolon_refreshed isName isValue.noSemicolon),
    setPart_refreshedPart isName isValue, ← spaced, List.singleton_append,
    trim_cons_of_mem inside]
  refine trim_of_ends ?_ (last_notMem_lineEnds isValue name)
  intro b head mem
  cases name with
  | nil =>
      obtain rfl : equalsSign = b := by simpa using head
      revert mem
      decide
  | cons first rest =>
      obtain rfl : first = b := by simpa using head
      rcases mem_lineEnds.mp mem with rfl | rfl
      · exact head_ne_space starts rfl
      · exact isName.noSemicolon List.mem_cons_self

theorem setCookieValue_twice_of_noPair {name value cookieLine : GoString} (isName : IsName name)
    (isValue : IsValue value) (noPair : ¬ HasPair name cookieLine)
    (solid : trimSpace cookieLine ≠ []) :
    setCookieValue (setCookieValue cookieLine name value) name value =
        setCookieValue cookieLine name value ↔
      (trimSpace cookieLine).head? ≠ some semicolon := by
  have hasPair := (setCookieValue_updates isName isValue cookieLine).hasPair
  have noPairInside : ¬ HasPair name (trimSpace cookieLine) := by
    rw [HasPair, pieces_trimSpace]
    exact noPair
  rw [setCookieValue_of_noPair noPair solid] at hasPair ⊢
  have starts := (trimSpace_solid cookieLine).starts
  rw [setCookieValue_of_hasPair hasPair, mapParts_append_sep, setParts_of_noPair noPairInside,
    mapParts_of_notMem (noSemicolon_refreshed isName isValue.noSemicolon),
    setPart_refreshedPart isName isValue]
  generalize trimSpace cookieLine = line at solid starts
  cases line with
  | nil => exact absurd rfl solid
  | cons first rest =>
      constructor
      · intro fixed head
        obtain rfl : first = semicolon := by simpa using head
        have shorter := trim_length_le (rest ++ semicolon :: refreshedPart name value) lineEnds
        rw [List.cons_append, trim_cons_of_mem (mem_lineEnds.mpr (Or.inr rfl))] at fixed
        rw [fixed, List.length_cons] at shorter
        omega
      · intro head
        refine trim_of_ends ?_ ?_
        · intro b isHead mem
          obtain rfl : first = b := by simpa using isHead
          rcases mem_lineEnds.mp mem with rfl | rfl
          · exact head_ne_space starts rfl
          · exact head rfl
        · have ends := last_notMem_lineEnds isValue
            (first :: rest ++ semicolon :: ([space] ++ name))
          simpa [refreshedPart] using ends

/-! ## A session of refreshes -/

/-- The pieces that no response of the service concerns. -/
def unrelated (cookieLine : GoString) : List Piece :=
  (pieces cookieLine).filter fun piece => !piece.isNamed puus && !piece.isNamed pus

theorem unrelated_eq_others (cookieLine : GoString) :
    unrelated cookieLine =
        (others puus cookieLine).filter (fun piece => !piece.isNamed pus) ∧
      unrelated cookieLine =
        (others pus cookieLine).filter (fun piece => !piece.isNamed puus) := by
  constructor
  · rw [unrelated, others, List.filter_filter]
    exact List.filter_congr fun piece _ => Bool.and_comm _ _
  · rw [unrelated, others, List.filter_filter]

theorem puus_isName : IsName puus :=
  ⟨by decide, by decide, by decide⟩

theorem pus_isName : IsName pus :=
  ⟨by decide, by decide, by decide⟩

theorem unrelated_set {name value : GoString} (own : name = puus ∨ name = pus)
    (noSemicolon : semicolon ∉ value) (cookieLine : GoString) :
    unrelated (setCookieValue cookieLine name value) = unrelated cookieLine := by
  rcases own with rfl | rfl
  · rw [(unrelated_eq_others _).1, (unrelated_eq_others _).1,
      others_setCookieValue puus_isName noSemicolon]
  · rw [(unrelated_eq_others _).2, (unrelated_eq_others _).2,
      others_setCookieValue pus_isName noSemicolon]

theorem refreshOne_unrelated {name : GoString} (own : name = puus ∨ name = pus)
    (config : Kernel.CookieConfig) (cookies : List ResponseCookie) :
    unrelated (refreshOne name config cookies).cookie = unrelated config.cookie := by
  unfold refreshOne
  cases firstCookie cookies name with
  | none => rfl
  | some cookie => exact unrelated_set own cookie.oneAttribute config.cookie

theorem refreshCookie_unrelated (config : Kernel.CookieConfig) (cookies : List ResponseCookie) :
    unrelated (refreshCookie config cookies).cookie = unrelated config.cookie := by
  have first := refreshOne_unrelated (Or.inl rfl) config cookies
  unfold refreshCookie
  dsimp only
  split
  · rw [refreshOne_unrelated (Or.inr rfl), first]
  · exact first

/-- However many responses refresh the line, unrelated cookies stay as they are. -/
theorem session_unrelated (config : Kernel.CookieConfig)
    (responses : List (List ResponseCookie)) :
    unrelated (responses.foldl refreshCookie config).cookie = unrelated config.cookie := by
  induction responses generalizing config with
  | nil => rfl
  | cons cookies responses ih =>
      rw [List.foldl_cons, ih, refreshCookie_unrelated]

/-- An update obeys its laws exactly for names and values that can be read back,
unless the line has no such cookie and starts with a semicolon, which only the next
update takes away.  Unrelated cookies survive any session. -/
theorem setCookieValue_lawful_iff (cookieLine name value : GoString)
    (config : Kernel.CookieConfig) (responses : List (List ResponseCookie)) :
    ((Updates cookieLine name value (setCookieValue cookieLine name value) ∧
          setCookieValue (setCookieValue cookieLine name value) name value =
            setCookieValue cookieLine name value) ↔
        IsName name ∧ IsValue value ∧
          (HasPair name cookieLine ∨ (trimSpace cookieLine).head? ≠ some semicolon)) ∧
      unrelated (responses.foldl refreshCookie config).cookie = unrelated config.cookie := by
  refine ⟨?_, session_unrelated config responses⟩
  constructor
  · rintro ⟨updates, twice⟩
    obtain ⟨isName, isValue⟩ := updates.sound
    refine ⟨isName, isValue, ?_⟩
    by_cases hasPair : HasPair name cookieLine
    · exact Or.inl hasPair
    · by_cases blank : trimSpace cookieLine = []
      · exact Or.inr (by simp [blank])
      · exact Or.inr ((setCookieValue_twice_of_noPair isName isValue hasPair blank).mp twice)
  · rintro ⟨isName, isValue, present⟩
    refine ⟨setCookieValue_updates isName isValue cookieLine, ?_⟩
    by_cases hasPair : HasPair name cookieLine
    · exact setCookieValue_twice_of_hasPair isName isValue hasPair
    · by_cases blank : trimSpace cookieLine = []
      · exact setCookieValue_twice_of_blank isName isValue hasPair blank
      · exact (setCookieValue_twice_of_noPair isName isValue hasPair blank).mpr
          (present.resolve_left hasPair)

/-- The second update of a line that starts with a semicolon changes it again. -/
theorem leadingSemicolon_changesTwice :
    setCookieValue (setCookieValue (str "; a=1") (str "b") (str "2")) (str "b") (str "2") ≠
      setCookieValue (str "; a=1") (str "b") (str "2") := by
  decide

end RoundSync.Quarkcookie.Cookies
