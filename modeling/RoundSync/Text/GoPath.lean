import RoundSync.Text.Separated
import Mathlib.Data.List.DropRight

/-!
# Go strings and slash-separated paths

A Go string is a sequence of bytes.  This file has the functions of the
packages `strings` and `path` that the kernel uses on it, and the list form of
a cleaned absolute path: `absolute` renders a list of names, `cleanParts` reads
it back, and the prefix test of two rendered paths is the prefix order of the
lists.
-/

namespace RoundSync.Text

abbrev GoString := List UInt8

instance lawfulBEq_goString : LawfulBEq GoString :=
  inferInstance

/-- The bytes of a string literal. -/
def str (s : String) : GoString :=
  s.toUTF8.data.toList

def slash : UInt8 := 47

/-! ## Package `strings` -/

def hasPrefix (s start : GoString) : Bool :=
  start.isPrefixOf s

def hasSuffix (s finish : GoString) : Bool :=
  finish.isSuffixOf s

def trimPrefix (s start : GoString) : GoString :=
  if hasPrefix s start then s.drop start.length else s

def trimRight (s cutset : GoString) : GoString :=
  s.rdropWhile (cutset.contains ·)

def trimLeft (s cutset : GoString) : GoString :=
  s.dropWhile (cutset.contains ·)

def trim (s cutset : GoString) : GoString :=
  trimRight (trimLeft s cutset) cutset

/-- Length in bytes of the white space code point a string starts with, zero if
it starts with none. -/
def spaceLength : GoString → Nat
  | 0xC2 :: 0x85 :: _ | 0xC2 :: 0xA0 :: _ => 2
  | 0xE1 :: 0x9A :: 0x80 :: _ => 3
  | 0xE2 :: 0x80 :: b :: _ =>
      if 0x80 ≤ b ∧ b ≤ 0x8A ∨ b = 0xA8 ∨ b = 0xA9 ∨ b = 0xAF then 3 else 0
  | 0xE2 :: 0x81 :: 0x9F :: _ | 0xE3 :: 0x80 :: 0x80 :: _ => 3
  | b :: _ => if 0x09 ≤ b ∧ b ≤ 0x0D ∨ b = 0x20 then 1 else 0
  | [] => 0

/-- `strings.TrimSpace`, with one unit of fuel for each byte on either side. -/
def trimSpace (s : GoString) : GoString :=
  dropTail s.length (dropHead s.length s)
where
  dropHead : Nat → GoString → GoString
    | 0, s => s
    | fuel + 1, s => if spaceLength s = 0 then s else dropHead fuel (s.drop (spaceLength s))
  dropTail : Nat → GoString → GoString
    | 0, s => s
    | fuel + 1, s =>
        match [1, 2, 3].find? (fun n => n ≤ s.length ∧ spaceLength (s.drop (s.length - n)) = n) with
        | some n => dropTail fuel (s.take (s.length - n))
        | none => s

/-- `strings.ToLower` as far as its result can be an ASCII byte: the ASCII
capitals, U+0130 and U+212A.  It is only ever compared with ASCII words. -/
def toLower : GoString → GoString
  | 0xC4 :: 0xB0 :: rest => 0x69 :: toLower rest
  | 0xE2 :: 0x84 :: 0xAA :: rest => 0x6B :: toLower rest
  | b :: rest => (if 0x41 ≤ b ∧ b ≤ 0x5A then b + 0x20 else b) :: toLower rest
  | [] => []

theorem hasPrefix_iff {s start : GoString} : hasPrefix s start = true ↔ start <+: s :=
  List.isPrefixOf_iff_prefix

theorem hasSuffix_iff {s finish : GoString} : hasSuffix s finish = true ↔ finish <:+ s :=
  List.isSuffixOf_iff_suffix

@[simp]
theorem trimPrefix_append (start rest : GoString) : trimPrefix (start ++ rest) start = rest := by
  have isPrefix : hasPrefix (start ++ rest) start = true := hasPrefix_iff.mpr ⟨rest, rfl⟩
  simp [trimPrefix, isPrefix]

/-! ## Package `path` -/

def dot : GoString := [46]

def dotdot : GoString := [46, 46]

/-- One path element processed by `path.Clean`.  The names kept so far are on a
stack, innermost first; `..` at the top of the stack only occurs in a relative
path. -/
def cleanStep (isRooted : Bool) (stack : List GoString) (name : GoString) : List GoString :=
  if name = [] ∨ name = dot then stack
  else if name = dotdot then
    match stack with
    | [] => if isRooted then [] else [dotdot]
    | top :: rest => if top = dotdot then dotdot :: stack else rest
  else name :: stack

def cleanParts (isRooted : Bool) (p : GoString) : List GoString :=
  ((p.splitOn slash).foldl (cleanStep isRooted) []).reverse

/-- The absolute path with these names. -/
def absolute (names : List GoString) : GoString :=
  slash :: [slash].intercalate names

/-- `path.Clean`. -/
def pathClean (p : GoString) : GoString :=
  if p = [] then dot
  else if p.head? = some slash then absolute (cleanParts true p)
  else if cleanParts false p = [] then dot
  else [slash].intercalate (cleanParts false p)

/-- `path.Join` of two elements. -/
def pathJoin (first second : GoString) : GoString :=
  if first = [] ∧ second = [] then []
  else if first = [] then pathClean second
  else pathClean (first ++ slash :: second)

/-! ## Names -/

/-- A name that a cleaned absolute path can have as an element. -/
structure ValidName (name : GoString) : Prop where
  ne_nil : name ≠ []
  ne_dot : name ≠ dot
  ne_dotdot : name ≠ dotdot
  slash_notMem : slash ∉ name

instance (name : GoString) : Decidable (ValidName name) :=
  decidable_of_iff (name ≠ [] ∧ name ≠ dot ∧ name ≠ dotdot ∧ slash ∉ name)
    ⟨fun ⟨a, b, c, d⟩ => ⟨a, b, c, d⟩, fun ⟨a, b, c, d⟩ => ⟨a, b, c, d⟩⟩

def ValidNames (names : List GoString) : Prop :=
  ∀ name ∈ names, ValidName name

theorem ValidNames.separates {names : List GoString} (valid : ValidNames names) :
    Separates slash names :=
  fun name member => (valid name member).slash_notMem

theorem absolute_eq_rooted {names : List GoString} (nonempty : names ≠ []) :
    absolute names = rooted slash names := by
  induction names with
  | nil => exact absurd rfl nonempty
  | cons name names ih =>
      cases names with
      | nil => simp [absolute, List.intercalate]
      | cons next names =>
          have tail := ih (List.cons_ne_nil next names)
          simp only [absolute, List.intercalate] at tail ⊢
          simp only [rooted_cons] at tail ⊢
          simpa using tail

@[simp]
theorem absolute_nil : absolute [] = [slash] :=
  rfl

theorem splitOn_absolute {names : List GoString} (valid : ValidNames names) :
    (absolute names).splitOn slash = [] :: if names = [] then [[]] else names := by
  by_cases empty : names = []
  · subst names
    rfl
  · rw [absolute_eq_rooted empty, splitOn_rooted valid.separates, if_neg empty]

theorem cleanStep_of_valid {isRooted : Bool} {stack : List GoString} {name : GoString}
    (valid : ValidName name) : cleanStep isRooted stack name = name :: stack := by
  simp [cleanStep, valid.ne_nil, valid.ne_dot, valid.ne_dotdot]

theorem foldl_cleanStep_of_valid {isRooted : Bool} {names : List GoString}
    (valid : ValidNames names) (stack : List GoString) :
    names.foldl (cleanStep isRooted) stack = names.reverse ++ stack := by
  induction names generalizing stack with
  | nil => rfl
  | cons name names ih =>
      have nameValid := valid name List.mem_cons_self
      have namesValid : ValidNames names :=
        fun other member => valid other (List.mem_cons_of_mem name member)
      rw [List.foldl_cons, cleanStep_of_valid nameValid, ih namesValid]
      simp

/-- Cleaning reads a rendered list of names back. -/
theorem cleanParts_absolute {names : List GoString} (valid : ValidNames names) :
    cleanParts true (absolute names) = names := by
  rw [cleanParts, splitOn_absolute valid]
  split
  · rename_i empty
    subst names
    rfl
  · rw [List.foldl_cons, show cleanStep true [] [] = [] from rfl,
      foldl_cleanStep_of_valid valid]
    simp

theorem absolute_injective {first second : List GoString} (firstValid : ValidNames first)
    (secondValid : ValidNames second) (equal : absolute first = absolute second) :
    first = second := by
  have parts := congrArg (cleanParts true) equal
  rwa [cleanParts_absolute firstValid, cleanParts_absolute secondValid] at parts

theorem cleanStep_valid {stack : List GoString} {name : GoString}
    (stackValid : ValidNames stack) (nameFree : slash ∉ name) :
    ValidNames (cleanStep true stack name) := by
  unfold cleanStep
  split
  · exact stackValid
  · rename_i notSkipped
    split
    · cases stack with
      | nil => simpa using stackValid
      | cons top rest =>
          have topValid := stackValid top List.mem_cons_self
          simp only [if_neg topValid.ne_dotdot]
          exact fun other member => stackValid other (List.mem_cons_of_mem top member)
    · rename_i notParent
      intro other member
      rcases List.mem_cons.mp member with rfl | member
      · exact ⟨fun empty => notSkipped (.inl empty), fun isDot => notSkipped (.inr isDot),
          notParent, nameFree⟩
      · exact stackValid other member

theorem foldl_cleanStep_valid {names stack : List GoString} (stackValid : ValidNames stack)
    (namesFree : Separates slash names) :
    ValidNames (names.foldl (cleanStep true) stack) := by
  induction names generalizing stack with
  | nil => exact stackValid
  | cons name names ih =>
      exact ih (cleanStep_valid stackValid (namesFree name List.mem_cons_self)) namesFree.tail

theorem separates_splitOn (p : GoString) : Separates slash (p.splitOn slash) :=
  fun _ => mem_splitOn_notMem

/-- The names of a cleaned absolute path are valid. -/
theorem cleanParts_valid (p : GoString) : ValidNames (cleanParts true p) := by
  intro name member
  have folded : ValidNames ((p.splitOn slash).foldl (cleanStep true) []) :=
    foldl_cleanStep_valid (by simp [ValidNames]) (separates_splitOn p)
  exact folded name (List.mem_reverse.mp member)

theorem cleanParts_slash_cons (p : GoString) :
    cleanParts true (slash :: p) = cleanParts true p := by
  have split : (slash :: p).splitOn slash = [] :: p.splitOn slash := by
    rw [List.splitOn_cons_eq_if_modifyHead]
    simp
  rw [cleanParts, split]
  rfl

/-- One cleaning step adds at most the element it reads to the rendered stack. -/
theorem length_rooted_cleanStep_le (stack : List GoString) (name : GoString) :
    (rooted slash (cleanStep true stack name)).length ≤
      (rooted slash stack).length + (name.length + 1) := by
  unfold cleanStep
  split
  · omega
  · split
    · cases stack with
      | nil => simp
      | cons top rest =>
          rename_i isParent
          dsimp only
          split <;> simp [isParent] <;> omega
    · simp
      omega

theorem length_rooted_foldl_cleanStep_le (names stack : List GoString) :
    (rooted slash (names.foldl (cleanStep true) stack)).length ≤
      (rooted slash stack).length + (rooted slash names).length := by
  induction names generalizing stack with
  | nil => simp
  | cons name names ih =>
      have stepBound := length_rooted_cleanStep_le stack name
      have tailBound := ih (cleanStep true stack name)
      simp only [List.foldl_cons, rooted_cons, List.length_cons, List.length_append] at *
      omega

theorem length_rooted_reverse (names : List GoString) :
    (rooted slash names.reverse).length = (rooted slash names).length := by
  induction names with
  | nil => rfl
  | cons name names ih =>
      simp only [List.reverse_cons, rooted_append, List.length_append, ih, rooted_cons,
        rooted_nil, List.append_nil, List.length_cons]
      omega

theorem length_rooted_splitOn (text : GoString) :
    (rooted slash (text.splitOn slash)).length = text.length + 1 := by
  have restored := congrArg List.length (@List.intercalate_splitOn _ text _ _ slash)
  rw [← absolute_eq_rooted (List.splitOn_ne_nil slash text), absolute, List.length_cons, restored]

/-- Cleaning a rooted path never makes it longer than its text. -/
theorem length_absolute_cleanParts_le {p : GoString} (isRooted : p.head? = some slash) :
    (absolute (cleanParts true p)).length ≤ p.length := by
  obtain ⟨rest, rfl⟩ : ∃ rest, p = slash :: rest := by
    cases p with
    | nil => simp at isRooted
    | cons byte rest => exact ⟨rest, by simpa using isRooted⟩
  rw [cleanParts_slash_cons]
  have bound := length_rooted_foldl_cleanStep_le (rest.splitOn slash) []
  rw [length_rooted_splitOn] at bound
  by_cases empty : cleanParts true rest = []
  · simp [empty]
  · rw [absolute_eq_rooted empty, cleanParts, length_rooted_reverse]
    simpa using bound

/-! ## The prefix test on rendered paths -/

theorem trimRight_absolute {names : List GoString} (valid : ValidNames names) :
    trimRight (absolute names) [slash] = rooted slash names := by
  by_cases empty : names = []
  · subst names
    rfl
  · rw [absolute_eq_rooted empty, trimRight, List.rdropWhile_eq_self_iff]
    intro nonempty
    obtain ⟨front, last, rfl⟩ := List.eq_nil_or_concat names |>.resolve_left empty
    have lastValid : ValidName last := valid last (by simp)
    have lastNe := lastValid.ne_nil
    have getLastEq : (rooted slash (front.concat last)).getLast nonempty = last.getLast lastNe := by
      simp [rooted_append, lastNe, List.getLast_cons]
    rw [getLastEq]
    have member := List.getLast_mem lastNe
    simp only [List.contains_cons, List.contains_nil, Bool.or_false, beq_iff_eq]
    exact fun equal => lastValid.slash_notMem (equal ▸ member)

/-- The test `p == root || HasPrefix(p, TrimRight(root, "/") + "/")` on cleaned
paths is the prefix order on their names. -/
theorem under_iff_prefix {root names : List GoString} (rootValid : ValidNames root)
    (namesValid : ValidNames names) :
    (absolute names = absolute root ∨
      hasPrefix (absolute names) (trimRight (absolute root) [slash] ++ [slash]) = true) ↔
      root <+: names := by
  rw [trimRight_absolute rootValid, hasPrefix_iff]
  have sameIff : absolute names = absolute root ↔ root = names :=
    ⟨fun equal => (absolute_injective namesValid rootValid equal).symm, fun equal => by rw [equal]⟩
  rw [sameIff]
  by_cases empty : names = []
  · subst names
    cases root with
    | nil => simp
    | cons name root => simp [List.cons_prefix_cons]
  · rw [absolute_eq_rooted empty,
      rooted_append_sep_prefix_iff rootValid.separates namesValid.separates]
    constructor
    · rintro (rfl | ⟨isPrefix, _⟩)
      · exact List.prefix_refl root
      · exact isPrefix
    · intro isPrefix
      by_cases same : root = names
      · exact .inl same
      · exact .inr ⟨isPrefix, same⟩

end RoundSync.Text
