import Mathlib.Data.List.DropRight
import Mathlib.Data.List.Pairwise
import Mathlib.Data.List.Sort

/-!
# Java and Kotlin strings

A string of the Android side is a list of Unicode characters: every string
modelled here is read from or written to a UTF-8 file, so none holds an
unpaired surrogate.  The case tables of the platform are a parameter.
-/

namespace RoundSync.Text

abbrev JavaString := List Char

instance lawfulBEq_javaString : LawfulBEq JavaString :=
  inferInstance

namespace Kotlin

/-- `Char.isWhitespace`: Java white space and Unicode space separators. -/
def isWhitespace (c : Char) : Bool :=
  let n := c.toNat
  (9 ≤ n && n ≤ 13) || (28 ≤ n && n ≤ 32) || n = 0xA0 || n = 0x1680 ||
    (0x2000 ≤ n && n ≤ 0x200A) || n = 0x2028 || n = 0x2029 || n = 0x202F || n = 0x205F ||
      n = 0x3000

def trimStart (s : JavaString) : JavaString :=
  s.dropWhile isWhitespace

def trimEnd (s : JavaString) : JavaString :=
  s.rdropWhile isWhitespace

def trim (s : JavaString) : JavaString :=
  trimEnd (trimStart s)

/-- `trim(vararg chars)` with one character. -/
def trimChar (c : Char) (s : JavaString) : JavaString :=
  (s.dropWhile (· = c)).rdropWhile (· = c)

def isBlank (s : JavaString) : Bool :=
  s.all isWhitespace

def ifBlank (s default : JavaString) : JavaString :=
  if isBlank s then default else s

def removePrefix (s start : JavaString) : JavaString :=
  if start.isPrefixOf s then s.drop start.length else s

def removeSuffix (s finish : JavaString) : JavaString :=
  if finish.isSuffixOf s then s.take (s.length - finish.length) else s

/-- The case tables: simple mappings of the characters of the basic plane, which
fix every other character, and the full mapping of strings to lower case. -/
structure CaseTables where
  upper : Char → Char
  lower : Char → Char
  lowercase : JavaString → JavaString

/-- The tables on ASCII letters alone. -/
def asciiCase : CaseTables where
  upper := Char.toUpper
  lower := Char.toLower
  lowercase := List.map Char.toLower

namespace CaseTables

variable (cases : CaseTables)

/-- One character of `equals(ignoreCase = true)`. -/
def sameLetter (a b : Char) : Bool :=
  a = b || cases.upper a = cases.upper b ||
    cases.lower (cases.upper a) = cases.lower (cases.upper b)

def equalsIgnoreCase : JavaString → JavaString → Bool
  | [], [] => true
  | a :: s, b :: t => cases.sameLetter a b && equalsIgnoreCase s t
  | _, _ => false

@[simp]
theorem sameLetter_self (a : Char) : cases.sameLetter a a = true := by
  simp [sameLetter]

theorem sameLetter_comm (a b : Char) : cases.sameLetter a b = cases.sameLetter b a := by
  simp only [sameLetter, eq_comm]

@[simp]
theorem equalsIgnoreCase_self (s : JavaString) : cases.equalsIgnoreCase s s = true := by
  induction s with
  | nil => rfl
  | cons a s ih => simp [equalsIgnoreCase, ih]

theorem equalsIgnoreCase_comm (s t : JavaString) :
    cases.equalsIgnoreCase s t = cases.equalsIgnoreCase t s := by
  induction s generalizing t with
  | nil =>
      cases t with
      | nil => rfl
      | cons b t => rfl
  | cons a s ih =>
      cases t with
      | nil => rfl
      | cons b t => rw [equalsIgnoreCase, equalsIgnoreCase, ih, sameLetter_comm]

end CaseTables

/-- The UTF-16 code units of a character. -/
def utf16 (c : Char) : List Nat :=
  if c.toNat < 0x10000 then [c.toNat]
  else [0xD800 + (c.toNat - 0x10000) / 0x400, 0xDC00 + (c.toNat - 0x10000) % 0x400]

/-- `length()`, in code units. -/
def utf16Length (s : JavaString) : Nat :=
  (s.flatMap utf16).length

@[simp]
theorem utf16Length_append (s t : JavaString) :
    utf16Length (s ++ t) = utf16Length s + utf16Length t := by
  simp [utf16Length]

theorem utf16Length_cons (c : Char) (s : JavaString) :
    utf16Length (c :: s) = (utf16 c).length + utf16Length s := by
  simp [utf16Length]

theorem utf16_ne_nil (c : Char) : utf16 c ≠ [] := by
  rw [utf16]
  split <;> simp

theorem utf16Length_pos {s : JavaString} (more : s ≠ []) : 0 < utf16Length s := by
  cases s with
  | nil => contradiction
  | cons c s =>
      rw [utf16Length_cons]
      exact Nat.add_pos_left (List.length_pos_iff.mpr (utf16_ne_nil c)) _

/-- Lexicographic order of code units. -/
def unitsNotAfter : List Nat → List Nat → Bool
  | [], _ => true
  | _ :: _, [] => false
  | a :: s, b :: t => a < b || a = b && unitsNotAfter s t

/-- `String.compareTo` yields at most zero. -/
def notAfter (s t : JavaString) : Bool :=
  unitsNotAfter (s.flatMap utf16) (t.flatMap utf16)

/-- `sortedBy`, which is stable. -/
def sortedBy {α : Type} (key : α → JavaString) (xs : List α) : List α :=
  xs.insertionSort fun a b => notAfter (key a) (key b)

@[simp]
theorem mem_sortedBy {α : Type} {key : α → JavaString} {xs : List α} {a : α} :
    a ∈ sortedBy key xs ↔ a ∈ xs :=
  List.mem_insertionSort _

theorem sortedBy_perm {α : Type} (key : α → JavaString) (xs : List α) :
    (sortedBy key xs).Perm xs :=
  List.perm_insertionSort _ xs

/-! ## The order of strings -/

theorem unitsNotAfter_total (s t : List Nat) :
    unitsNotAfter s t = true ∨ unitsNotAfter t s = true := by
  induction s generalizing t with
  | nil => exact .inl rfl
  | cons a s ih =>
      cases t with
      | nil => exact .inr rfl
      | cons b t =>
          rcases lt_trichotomy a b with less | rfl | greater
          · exact .inl (by simp [unitsNotAfter, less])
          · simpa [unitsNotAfter] using ih t
          · exact .inr (by simp [unitsNotAfter, greater])

theorem unitsNotAfter_trans {s t u : List Nat} (first : unitsNotAfter s t = true)
    (second : unitsNotAfter t u = true) : unitsNotAfter s u = true := by
  induction s generalizing t u with
  | nil => rfl
  | cons a s ih =>
      cases t with
      | nil => cases first
      | cons b t =>
          cases u with
          | nil => cases second
          | cons c u =>
              simp only [unitsNotAfter, Bool.or_eq_true, Bool.and_eq_true, decide_eq_true_eq]
                at first second ⊢
              rcases first with less | ⟨rfl, first⟩
              · rcases second with lessToo | ⟨rfl, _⟩
                · exact .inl (less.trans lessToo)
                · exact .inl less
              · rcases second with less | ⟨rfl, second⟩
                · exact .inl less
                · exact .inr ⟨rfl, ih first second⟩

theorem unitsNotAfter_antisymm {s t : List Nat} (first : unitsNotAfter s t = true)
    (second : unitsNotAfter t s = true) : s = t := by
  induction s generalizing t with
  | nil =>
      cases t with
      | nil => rfl
      | cons b t => cases second
  | cons a s ih =>
      cases t with
      | nil => cases first
      | cons b t =>
          simp only [unitsNotAfter, Bool.or_eq_true, Bool.and_eq_true, decide_eq_true_eq]
            at first second
          rcases first with less | ⟨rfl, first⟩
          · rcases second with greater | ⟨rfl, _⟩
            · exact absurd less greater.asymm
            · exact absurd less (lt_irrefl _)
          · rcases second with less | ⟨_, second⟩
            · exact absurd less (lt_irrefl _)
            · rw [ih first second]

theorem toNat_bounds (c : Char) : c.toNat < 0xD800 ∨ 0xDFFF < c.toNat ∧ c.toNat < 0x110000 :=
  c.valid

/-- The first code unit tells a character of the basic plane from a pair. -/
theorem utf16_append_inj {a b : Char} {s t : List Nat}
    (same : utf16 a ++ s = utf16 b ++ t) : a = b ∧ s = t := by
  have boundsA := toNat_bounds a
  have boundsB := toNat_bounds b
  have numbers : a.toNat = b.toNat ∧ s = t := by
    unfold utf16 at same
    split_ifs at same
    · simpa using same
    · simp only [List.cons_append, List.cons.injEq] at same
      omega
    · simp only [List.cons_append, List.cons.injEq] at same
      omega
    · simp only [List.cons_append, List.nil_append, List.cons.injEq] at same
      exact ⟨by omega, same.2.2⟩
  exact ⟨Char.toNat_inj.mp numbers.1, numbers.2⟩

/-- The code units of a string determine it. -/
theorem utf16_injective {s t : JavaString} (same : s.flatMap utf16 = t.flatMap utf16) : s = t := by
  have nonempty : ∀ c (rest : List Nat), utf16 c ++ rest ≠ [] := by
    intro c rest
    unfold utf16
    split <;> simp
  induction s generalizing t with
  | nil =>
      cases t with
      | nil => rfl
      | cons b t => exact absurd same.symm (nonempty b _)
  | cons a s ih =>
      cases t with
      | nil => exact absurd same (nonempty a _)
      | cons b t =>
          obtain ⟨rfl, rest⟩ := utf16_append_inj same
          rw [ih rest]

theorem sortedBy_pairwise {α : Type} (key : α → JavaString) (xs : List α) :
    (sortedBy key xs).Pairwise fun a b => notAfter (key a) (key b) = true := by
  have total : Std.Total fun a b : α => notAfter (key a) (key b) = true :=
    ⟨fun _ _ => unitsNotAfter_total _ _⟩
  have transitive : IsTrans α fun a b => notAfter (key a) (key b) = true :=
    ⟨fun _ _ _ => unitsNotAfter_trans⟩
  exact List.pairwise_insertionSort _ xs

/-- Lists with the same members and distinct keys are sorted into one list. -/
theorem sortedBy_eq_of_perm {α : Type} {key : α → JavaString} {xs ys : List α}
    (same : xs.Perm ys) (distinct : xs.Pairwise fun a b => key a ≠ key b) :
    sortedBy key xs = sortedBy key ys := by
  have perm : (sortedBy key xs).Perm (sortedBy key ys) :=
    ((sortedBy_perm key xs).trans same).trans (sortedBy_perm key ys).symm
  refine perm.eq_of_pairwise ?_ (sortedBy_pairwise key xs) (sortedBy_pairwise key ys)
  intro a b memberA memberB before after
  by_contra different
  have keys : key a = key b := utf16_injective (unitsNotAfter_antisymm before after)
  have symmetric : Std.Symm fun a b : α => key a ≠ key b := ⟨fun _ _ => Ne.symm⟩
  exact distinct.forall (mem_sortedBy.mp memberA) (same.mem_iff.mpr (mem_sortedBy.mp memberB))
    different keys

/-! ## Trimming -/

theorem trimStart_eq_self_iff {s : JavaString} :
    trimStart s = s ↔ ∀ c ∈ s.head?, isWhitespace c = false := by
  cases s with
  | nil => simp [trimStart]
  | cons c s => simp [trimStart, List.dropWhile_eq_self_iff]

/-- Trimming the end keeps the first character unless it empties the string. -/
theorem head?_trimEnd {s : JavaString} {c : Char} (head : (trimEnd s).head? = some c) :
    s.head? = some c := by
  obtain ⟨rest, split⟩ := List.rdropWhile_prefix isWhitespace s
  rw [← split]
  change (trimEnd s ++ rest).head? = some c
  rw [List.head?_append, head]
  rfl

@[simp]
theorem trim_trim (s : JavaString) : trim (trim s) = trim s := by
  have start : trimStart (trim s) = trim s := by
    rw [trimStart_eq_self_iff]
    intro c head
    have inner := head?_trimEnd head
    exact trimStart_eq_self_iff.mp (List.dropWhile_idempotent _ _) c inner
  calc
    trim (trim s) = trimEnd (trimStart (trim s)) := rfl
    _ = trimEnd (trim s) := by rw [start]
    _ = trim s := List.rdropWhile_idempotent _ _

theorem isBlank_iff_trim_eq_nil {s : JavaString} : isBlank s = true ↔ trim s = [] := by
  simp only [isBlank, trim, trimEnd, trimStart, List.all_eq_true, List.rdropWhile_eq_nil_iff]
  constructor
  · intro blank c member
    exact blank c ((List.dropWhile_suffix _).subset member)
  · intro rest c member
    by_contra solid
    rw [← List.takeWhile_append_dropWhile (p := isWhitespace) (l := s)] at member
    rcases List.mem_append.mp member with skipped | kept
    · exact solid (List.mem_takeWhile_imp skipped)
    · exact solid (rest c kept)

@[simp]
theorem isBlank_trim (s : JavaString) : isBlank (trim s) = isBlank s := by
  rw [Bool.eq_iff_iff, isBlank_iff_trim_eq_nil, isBlank_iff_trim_eq_nil, trim_trim]

/-- A string that is not blank survives `ifBlank`, and so does a default that is not. -/
theorem isBlank_ifBlank {s default : JavaString} (solid : isBlank default = false) :
    isBlank (ifBlank s default) = false := by
  unfold ifBlank
  split
  · exact solid
  · rename_i notBlank
    exact Bool.eq_false_iff.mpr notBlank

/-- Trimming with a default is idempotent when the default is trimmed itself. -/
theorem ifBlank_trim_idempotent (s default : JavaString) (trimmed : trim default = default) :
    ifBlank (trim (ifBlank (trim s) default)) default = ifBlank (trim s) default := by
  unfold ifBlank
  by_cases blank : isBlank (trim s) = true
  · simp [blank, trimmed]
  · simp only [blank, Bool.false_eq_true, if_false, trim_trim]

end Kotlin

end RoundSync.Text
