import RoundSync.Data.Comparators
import RoundSync.Explorer.FileComparators

/-!
# The order of names

`compareNaturalNames` compares names token by token: a run of digits counts as
one token, any other unit as one by itself.  Two runs are compared by value, a
run and another unit by their first units.  Both agree as long as no other unit
lies between the first units of two runs that the values order the other way
round; the comparators of the file lists order a directory exactly if no three
names meet there.
-/

namespace RoundSync.Explorer

open RoundSync.Data
open Std

section Tokens

variable (tables : CharacterTables)

/-- A part of a name that is compared at once. -/
inductive Token where
  | run (first : UInt16) (rest : Units) (digits : ∀ c ∈ first :: rest, tables.isDigit c = true)
  | unit (c : UInt16) (other : tables.isDigit c = false)

variable {tables}

/-- The unit that decides between tokens of two kinds. -/
def Token.lead : Token tables → UInt16
  | .run first _ _ => tables.toLowerCase first
  | .unit c _ => tables.toLowerCase c

def compareTokens : Token tables → Token tables → Ordering
  | .run first rest _, .run first' rest' _ => compareRuns (first :: rest) (first' :: rest')
  | left, right => compare left.lead right.lead

variable (tables)

/-- The tokens of a name, one for each unit of fuel. -/
def tokensFrom : Nat → Units → List (Token tables)
  | fuel + 1, c :: rest =>
      if isDigit : tables.isDigit c = true then
        .run c (rest.takeWhile tables.isDigit) (by
          intro d member
          rcases List.mem_cons.mp member with rfl | behind
          · exact isDigit
          · exact List.mem_takeWhile_imp behind) ::
          tokensFrom fuel (rest.dropWhile tables.isDigit)
      else .unit c (Bool.eq_false_iff.mpr isDigit) :: tokensFrom fuel rest
  | _, _ => []

def tokens (name : Units) : List (Token tables) :=
  tokensFrom tables name.length name

theorem tokensFrom_digit {c : UInt16} {rest : Units} (isDigit : tables.isDigit c = true)
    (fuel : Nat) : ∃ digits, tokensFrom tables (fuel + 1) (c :: rest) =
      .run c (rest.takeWhile tables.isDigit) digits ::
        tokensFrom tables fuel (rest.dropWhile tables.isDigit) := by
  rw [tokensFrom, dif_pos isDigit]
  exact ⟨_, rfl⟩

theorem tokensFrom_other {c : UInt16} {rest : Units} (other : tables.isDigit c = false)
    (fuel : Nat) : tokensFrom tables (fuel + 1) (c :: rest) =
      .unit c other :: tokensFrom tables fuel rest := by
  rw [tokensFrom, dif_neg (by simp [other])]

/-- A digit and another unit never tie. -/
theorem kinds_differ {c d : UInt16} (digit : tables.isDigit c = true)
    (other : tables.isDigit d = false) :
    compare (tables.toLowerCase c) (tables.toLowerCase d) ≠ .eq := by
  intro tie
  have same := congrArg tables.isDigit (LawfulEqOrd.eq_of_compare tie)
  rw [tables.isDigit_toLowerCase, tables.isDigit_toLowerCase, digit, other] at same
  contradiction

theorem then_congr {decision : Ordering} (decided : decision ≠ .eq) (one other : Ordering) :
    decision.then one = decision.then other := by
  cases decision with
  | eq => contradiction
  | lt => rfl
  | gt => rfl

/-- A name that is used up is before any other. -/
theorem compareFrom_nil {fuel other : Nat} {right : Units} (rightFuel : right.length ≤ other) :
    compareFrom tables fuel [] right = List.compareLex compareTokens [] (tokensFrom tables other right) := by
  have lengths : compareFrom tables fuel [] right = compare 0 right.length := by
    cases fuel with
    | zero => rfl
    | succ fuel => rfl
  rw [lengths]
  cases right with
  | nil =>
      cases other with
      | zero => rfl
      | succ other => rfl
  | cons d right =>
      obtain ⟨other, rfl⟩ := Nat.exists_eq_succ_of_ne_zero (Nat.ne_zero_of_lt rightFuel)
      have before : compare 0 (d :: right).length = .lt := Nat.compare_eq_lt.mpr (Nat.succ_pos _)
      rw [before]
      cases isDigit : tables.isDigit d with
      | true =>
          obtain ⟨_, split⟩ := @tokensFrom_digit tables _ right isDigit other
          rw [split, List.compareLex_nil_cons]
      | false => rw [tokensFrom_other tables isDigit, List.compareLex_nil_cons]

/-- The loop compares the tokens in turn. -/
theorem compareFrom_eq (fuel : Nat) {left right : Units} (leftFuel : left.length ≤ fuel)
    {other : Nat} (rightFuel : right.length ≤ other) :
    compareFrom tables fuel left right =
      List.compareLex compareTokens (tokensFrom tables fuel left)
        (tokensFrom tables other right) := by
  induction fuel generalizing left right other with
  | zero =>
      rw [List.length_eq_zero_iff.mp (Nat.le_zero.mp leftFuel)]
      exact compareFrom_nil tables rightFuel
  | succ fuel ih =>
      cases left with
      | nil => exact compareFrom_nil tables rightFuel
      | cons c left =>
          cases right with
          | nil =>
              have behind : compareFrom tables (fuel + 1) (c :: left) [] = .gt :=
                Nat.compare_eq_gt.mpr (Nat.succ_pos _)
              rw [behind]
              have noTokens : tokensFrom tables other [] = [] := by
                cases other with
                | zero => rfl
                | succ other => rfl
              rw [noTokens]
              cases isDigit : tables.isDigit c with
              | true =>
                  obtain ⟨_, split⟩ := @tokensFrom_digit tables _ left isDigit fuel
                  rw [split, List.compareLex_cons_nil]
              | false => rw [tokensFrom_other tables isDigit, List.compareLex_cons_nil]
          | cons d right =>
              obtain ⟨other, rfl⟩ := Nat.exists_eq_succ_of_ne_zero (Nat.ne_zero_of_lt rightFuel)
              have leftRest : left.length ≤ fuel := Nat.le_of_succ_le_succ leftFuel
              have rightRest : right.length ≤ other := Nat.le_of_succ_le_succ rightFuel
              unfold compareFrom
              cases cDigit : tables.isDigit c with
              | true =>
                  obtain ⟨_, leftSplit⟩ := @tokensFrom_digit tables _ left cDigit fuel
                  rw [leftSplit]
                  cases dDigit : tables.isDigit d with
                  | true =>
                      obtain ⟨_, rightSplit⟩ := @tokensFrom_digit tables _ right dDigit other
                      rw [rightSplit, List.compareLex_cons_cons, ← ih
                        ((List.dropWhile_sublist _).length_le.trans leftRest)
                        ((List.dropWhile_sublist _).length_le.trans rightRest)]
                      simp [digitRun, cDigit, dDigit, compareTokens]
                  | false =>
                      rw [tokensFrom_other tables dDigit, List.compareLex_cons_cons]
                      simp only [Bool.false_eq_true, and_false, if_false, compareTokens,
                        Token.lead]
                      exact then_congr (kinds_differ tables cDigit dDigit) _ _
              | false =>
                  rw [tokensFrom_other tables cDigit]
                  cases dDigit : tables.isDigit d with
                  | true =>
                      obtain ⟨_, rightSplit⟩ := @tokensFrom_digit tables _ right dDigit other
                      rw [rightSplit, List.compareLex_cons_cons]
                      simp only [Bool.false_eq_true, false_and, if_false, compareTokens,
                        Token.lead]
                      refine then_congr ?_ _ _
                      intro tie
                      exact kinds_differ tables dDigit cDigit (OrientedCmp.eq_symm tie)
                  | false =>
                      rw [tokensFrom_other tables dDigit, List.compareLex_cons_cons,
                        ← ih leftRest rightRest]
                      simp [compareTokens, Token.lead]

theorem compareNaturalNames_eq (left right : Units) :
    compareNaturalNames tables (some left) (some right) =
      compareLex (fun a b => List.compareLex compareTokens (tokens tables a) (tokens tables b))
        (List.compareLex compare) left right := by
  rw [compareNaturalNames, compareFrom_eq tables left.length le_rfl le_rfl]
  rfl

/-! ## Runs of digits -/

/-- The order of runs of digits, one measure after the other. -/
theorem compareRuns_eq (left right : Units) :
    compareRuns left right =
      compareLex (compareOn fun run => (skipLeadingZeros run).length)
        (compareLex (fun a b => List.compareLex compare (skipLeadingZeros a) (skipLeadingZeros b))
          (compareOn List.length)) left right :=
  rfl

instance significant_trans : TransCmp fun a b : Units =>
    List.compareLex compare (skipLeadingZeros a) (skipLeadingZeros b) where
  eq_swap := OrientedCmp.eq_swap
  isLE_trans := TransCmp.isLE_trans

instance compareRuns_trans : TransCmp compareRuns :=
  inferInstanceAs (TransCmp
    (compareLex (compareOn fun run : Units => (skipLeadingZeros run).length)
      (compareLex
        (fun a b : Units => List.compareLex compare (skipLeadingZeros a) (skipLeadingZeros b))
        (compareOn List.length))))

/-- A run of digits is its significant digits behind zeros. -/
theorem exists_zeros (run : Units) :
    ∃ n, run = List.replicate n zero ++ skipLeadingZeros run := by
  fun_induction skipLeadingZeros run with
  | case1 d rest ih =>
      obtain ⟨n, split⟩ := ih
      exact ⟨n + 1, congrArg (zero :: ·) split⟩
  | case2 c d rest _ => exact ⟨0, rfl⟩
  | case3 short _ => exact ⟨0, rfl⟩

theorem eq_of_compareRuns {left right : Units} (tie : compareRuns left right = .eq) :
    left = right := by
  rw [compareRuns_eq, compareLex_eq_eq, compareLex_eq_eq] at tie
  have significant : skipLeadingZeros left = skipLeadingZeros right :=
    LawfulEqCmp.eq_of_compare tie.2.1
  have lengths : left.length = right.length := LawfulEqOrd.eq_of_compare tie.2.2
  obtain ⟨n, leftSplit⟩ := exists_zeros left
  obtain ⟨m, rightSplit⟩ := exists_zeros right
  have leftLength := congrArg List.length leftSplit
  have rightLength := congrArg List.length rightSplit
  rw [List.length_append, List.length_replicate] at leftLength rightLength
  rw [significant] at leftLength
  have counts : n = m := by omega
  rw [leftSplit, rightSplit, significant, counts]

/-! ## The order of tokens -/

variable {tables}

theorem compareTokens_unit (c : UInt16) (other : tables.isDigit c = false) (t : Token tables) :
    compareTokens (.unit c other) t = compare (tables.toLowerCase c) t.lead := by
  cases t with
  | run first rest digits => rfl
  | unit d other' => rfl

theorem compareTokens_swap (a b : Token tables) :
    compareTokens a b = (compareTokens b a).swap := by
  have leads : compare a.lead b.lead = (compare b.lead a.lead).swap := OrientedOrd.eq_swap
  cases a with
  | run first rest digits =>
      cases b with
      | run first' rest' digits' =>
          exact @OrientedCmp.eq_swap _ compareRuns _ (first :: rest) (first' :: rest')
      | unit c other => exact leads
  | unit c other =>
      cases b with
      | run first' rest' digits' => exact leads
      | unit d other' => exact leads

/-- Tokens that tie are equal runs, or units with one lower case. -/
theorem compareTokens_congr {a b : Token tables} (tie : compareTokens a b = .eq)
    (t : Token tables) : compareTokens a t = compareTokens b t := by
  cases a with
  | run first rest digits =>
      cases b with
      | run first' rest' digits' =>
          obtain ⟨rfl, rfl⟩ := List.cons.inj (eq_of_compareRuns tie)
          rfl
      | unit c other =>
          exact absurd tie (kinds_differ tables (digits first List.mem_cons_self) other)
  | unit c other =>
      cases b with
      | run first' rest' digits' =>
          have swapped : compare (tables.toLowerCase first') (tables.toLowerCase c) = .eq :=
            OrientedCmp.eq_symm tie
          exact absurd swapped (kinds_differ tables (digits' first' List.mem_cons_self) other)
      | unit d other' =>
          have same : tables.toLowerCase c = tables.toLowerCase d := LawfulEqOrd.eq_of_compare tie
          rw [compareTokens_unit, compareTokens_unit, same]

instance compareTokens_tied : TiedCmp (@compareTokens tables) where
  eq_swap := compareTokens_swap _ _
  congr := compareTokens_congr

/-- A unit that lies between the first digits of two runs, against their values. -/
structure Crossing (a b c : Token tables) : Prop where
  runs : ∃ first rest digits first' rest' digits' d other,
    a = .run first rest digits ∧ b = .unit d other ∧ c = .run first' rest' digits' ∧
      compareRuns (first' :: rest') (first :: rest) = .lt
  before : compare a.lead b.lead = .lt
  behind : compare b.lead c.lead = .lt

theorem Crossing.circle {a b c : Token tables} (crossing : Crossing a b c) :
    Circle compareTokens a b c := by
  obtain ⟨⟨first, rest, digits, first', rest', digits', d, other, rfl, rfl, rfl, values⟩, before,
    behind⟩ := crossing
  exact ⟨before, behind, values⟩

/-- Three tokens run in a circle only around such a unit. -/
theorem circle_tokens {a b c : Token tables} (circle : Circle compareTokens a b c) :
    Crossing a b c ∨ Crossing b c a ∨ Crossing c a b := by
  have leads : ¬Circle compare a.lead b.lead c.lead := no_circle _ _ _
  obtain ⟨one, two, three⟩ := circle
  cases a with
  | run first rest digits =>
      cases b with
      | run first' rest' digits' =>
          cases c with
          | run first'' rest'' digits'' =>
              have runs : Circle compareRuns (first :: rest) (first' :: rest')
                  (first'' :: rest'') := ⟨one, two, three⟩
              exact absurd runs (no_circle _ _ _)
          | unit d other => exact .inr (.inl ⟨⟨_, _, _, _, _, _, _, _, rfl, rfl, rfl, one⟩, two, three⟩)
      | unit d other =>
          cases c with
          | run first'' rest'' digits'' =>
              exact .inl ⟨⟨_, _, _, _, _, _, _, _, rfl, rfl, rfl, three⟩, one, two⟩
          | unit e other' => exact absurd ⟨one, two, three⟩ leads
  | unit d other =>
      cases b with
      | run first' rest' digits' =>
          cases c with
          | run first'' rest'' digits'' =>
              exact .inr (.inr ⟨⟨_, _, _, _, _, _, _, _, rfl, rfl, rfl, two⟩, three, one⟩)
          | unit e other' => exact absurd ⟨one, two, three⟩ leads
      | unit d' other' => 
          cases c with
          | run first'' rest'' digits'' => exact absurd ⟨one, two, three⟩ leads
          | unit e other'' => exact absurd ⟨one, two, three⟩ leads

end Tokens

/-! ## Names -/

section Names

variable (tables : CharacterTables)

/-- Three names that first differ at two runs of digits and another unit, which
lies between the first digits of the runs, against the values of the runs. -/
def Crossed (a b c : Units) : Prop :=
  ∃ x y z, MeetAt compareTokens x y z (tokens tables a) (tokens tables b) (tokens tables c) ∧
    Crossing x y z

theorem compareNaturalNames_units :
    (fun a b => compareNaturalNames tables (some a) (some b)) =
      compareLex (fun a b => List.compareLex compareTokens (tokens tables a) (tokens tables b))
        (List.compareLex compare) :=
  funext fun left => funext fun right => compareNaturalNames_eq tables left right

theorem circle_units_iff {a b c : Units} :
    Circle (fun a b => compareNaturalNames tables (some a) (some b)) a b c ↔
      Crossed tables a b c ∨ Crossed tables b c a ∨ Crossed tables c a b := by
  have onTokens : TiedCmp fun a b =>
      List.compareLex compareTokens (tokens tables a) (tokens tables b) := TiedCmp.on (tokens tables)
  rw [compareNaturalNames_units, circle_compareLex_iff]
  constructor
  · rintro (circle | ⟨_, _, circle⟩)
    · obtain ⟨x, y, z, meet, circle⟩ := circle_list_iff.mp
        (show Circle (List.compareLex compareTokens) (tokens tables a) (tokens tables b)
          (tokens tables c) from ⟨circle.one, circle.two, circle.three⟩)
      rcases circle_tokens circle with crossing | crossing | crossing
      · exact .inl ⟨x, y, z, meet, crossing⟩
      · exact .inr (.inl ⟨y, z, x, meet.rotate, crossing⟩)
      · exact .inr (.inr ⟨z, x, y, meet.rotate.rotate, crossing⟩)
    · exact absurd circle (no_circle a b c)
  · have crosses : ∀ {a b c}, Crossed tables a b c → Circle
        (fun a b => List.compareLex compareTokens (tokens tables a) (tokens tables b)) a b c := by
      rintro a b c ⟨x, y, z, meet, crossing⟩
      have circle := circle_list_iff.mpr ⟨x, y, z, meet, crossing.circle⟩
      exact ⟨circle.one, circle.two, circle.three⟩
    rintro (crossed | crossed | crossed)
    · exact .inl (crosses crossed)
    · exact .inl (crosses crossed).rotate.rotate
    · exact .inl (crosses crossed).rotate

theorem compareNaturalNames_swap (left right : Option Units) :
    compareNaturalNames tables left right = (compareNaturalNames tables right left).swap := by
  have onTokens : TiedCmp fun a b =>
      List.compareLex compareTokens (tokens tables a) (tokens tables b) := TiedCmp.on (tokens tables)
  cases left with
  | none =>
      cases right with
      | none => rfl
      | some right => rfl
  | some left =>
      cases right with
      | none => rfl
      | some right =>
          rw [compareNaturalNames_eq, compareNaturalNames_eq]
          exact OrientedCmp.eq_swap

theorem compareNaturalNames_eq_iff {left right : Option Units} :
    compareNaturalNames tables left right = .eq ↔ left = right := by
  constructor
  · intro tie
    cases left with
    | none =>
        cases right with
        | none => rfl
        | some right => cases tie
    | some left =>
        cases right with
        | none => cases tie
        | some right =>
            rw [compareNaturalNames_eq, compareLex_eq_eq] at tie
            exact congrArg some (LawfulEqCmp.eq_of_compare tie.2)
  · rintro rfl
    exact Ordering.eq_eq_of_eq_swap (compareNaturalNames_swap tables left left)

instance compareNaturalNames_tied : TiedCmp (compareNaturalNames tables) where
  eq_swap := compareNaturalNames_swap tables _ _
  congr tie _ := by rw [(compareNaturalNames_eq_iff tables).mp tie]

/-- Of all the names, no three are crossed. -/
def NoneCrossed (names : List Units) : Prop :=
  ∀ a ∈ names, ∀ b ∈ names, ∀ c ∈ names, ¬Crossed tables a b c

/-- Only names that are not null run in circles. -/
theorem circle_names {a b c : Option Units} (circle : Circle (compareNaturalNames tables) a b c) :
    ∃ x y z, a = some x ∧ b = some y ∧ c = some z ∧
      (Crossed tables x y z ∨ Crossed tables y z x ∨ Crossed tables z x y) := by
  obtain ⟨one, two, three⟩ := circle
  cases a with
  | none =>
      cases c with
      | none => cases three
      | some c => cases three
  | some a =>
      cases b with
      | none => cases one
      | some b =>
          cases c with
          | none => cases two
          | some c => exact ⟨a, b, c, rfl, rfl, rfl, (circle_units_iff tables).mp ⟨one, two, three⟩⟩

theorem Crossed.circle {a b c : Units} (crossed : Crossed tables a b c) :
    Circle (compareNaturalNames tables) (some a) (some b) (some c) := by
  have circle := (circle_units_iff tables).mpr (.inl crossed)
  exact ⟨circle.one, circle.two, circle.three⟩

theorem names_contract_iff {names : List (Option Units)} :
    Contract (compareNaturalNames tables) names ↔ NoneCrossed tables (names.filterMap id) := by
  rw [contract_iff]
  simp only [NoneCrossed, List.mem_filterMap, id_eq, exists_eq_right]
  constructor
  · intro noCircle a aIn b bIn c cIn crossed
    exact noCircle _ aIn _ bIn _ cIn crossed.circle
  · intro noneCrossed a aIn b bIn c cIn circle
    obtain ⟨x, y, z, rfl, rfl, rfl, crossed⟩ := circle_names tables circle
    rcases crossed with crossed | crossed | crossed
    · exact noneCrossed x aIn y bIn z cIn crossed
    · exact noneCrossed y bIn z cIn x aIn crossed
    · exact noneCrossed z cIn x aIn y bIn crossed

/-- The digits zero to nine. -/
def IsAscii (c : UInt16) : Prop :=
  48 ≤ c ∧ c ≤ 57

/-- As long as a script has these digits only, no names are crossed. -/
theorem noneCrossed_of_ascii {names : List Units}
    (digits : ∀ c, tables.isDigit c = true ↔ IsAscii c)
    (lower : ∀ c, IsAscii c → tables.toLowerCase c = c) : NoneCrossed tables names := by
  rintro a _ b _ c _ ⟨x, y, z, _, ⟨first, rest, firstDigits, first', rest', firstDigits', d, other,
    rfl, rfl, rfl, _⟩, before, behind⟩
  have low := (digits first).mp (firstDigits first List.mem_cons_self)
  have high := (digits first').mp (firstDigits' first' List.mem_cons_self)
  simp only [Token.lead, lower first low, lower first' high, Std.compare_eq_lt] at before behind
  have digit : IsAscii (tables.toLowerCase d) :=
    ⟨UInt16.le_trans low.1 (UInt16.le_of_lt before), UInt16.le_trans (UInt16.le_of_lt behind) high.2⟩
  rw [← digits, tables.isDigit_toLowerCase, other] at digit
  contradiction

end Names

/-! ## The comparators of the file lists -/

inductive Sorting where
  | alphaDescending
  | alphaAscending
  | sizeDescending
  | sizeAscending
  | modTimeDescending
  | modTimeAscending

namespace Sorting

def compareItems (tables : CharacterTables) : Sorting → Item → Item → Ordering
  | alphaDescending => SortAlphaDescending tables
  | alphaAscending => SortAlphaAscending tables
  | sizeDescending => SortSizeDescending tables
  | sizeAscending => SortSizeAscending tables
  | modTimeDescending => SortModTimeDescending
  | modTimeAscending => SortModTimeAscending

def compareFiles (tables : CharacterTables) : Sorting → DeviceFile → DeviceFile → Ordering
  | alphaDescending => SortFileAlphaDescending tables
  | alphaAscending => SortFileAlphaAscending tables
  | sizeDescending => SortFileSizeDescending tables
  | sizeAscending => SortFileSizeAscending tables
  | modTimeDescending => SortFileModTimeDescending
  | modTimeAscending => SortFileModTimeAscending

/-- The name by which a sorting compares an item, if it does. -/
def nameOf : Sorting → Item → Option Units
  | alphaDescending, item => some item.name
  | alphaAscending, item => some item.name
  | sizeDescending, item => if item.isDir then some item.name else none
  | sizeAscending, item => if item.isDir then some item.name else none
  | modTimeDescending, _ => none
  | modTimeAscending, _ => none

/-- The number by which a sorting compares items whose names it does not. -/
def numberOf : Sorting → Item → Int
  | alphaDescending, _ => 0
  | alphaAscending, _ => 0
  | sizeDescending, item => if item.isDir then 0 else -item.size
  | sizeAscending, item => if item.isDir then 0 else item.size
  | modTimeDescending, item => -item.modTime
  | modTimeAscending, item => item.modTime

/-- Names in the order of the sorting. -/
def compareNames (tables : CharacterTables) : Sorting → Option Units → Option Units → Ordering
  | alphaDescending, a, b => compareNaturalNames tables b a
  | _, a, b => compareNaturalNames tables a b

/-- The names that a sorting compares with one another, of directories or of others. -/
def namesAmong (sorting : Sorting) (dir : Bool) (items : List Item) : List Units :=
  (items.filter fun item => item.isDir = dir).filterMap sorting.nameOf

variable (tables : CharacterTables) (sorting : Sorting)

instance : TiedCmp (sorting.compareNames tables) := by
  have names := compareNaturalNames_tied tables
  cases sorting with
  | alphaDescending => exact inferInstanceAs (TiedCmp fun a b => compareNaturalNames tables b a)
  | alphaAscending => exact names
  | sizeDescending => exact names
  | sizeAscending => exact names
  | modTimeDescending => exact names
  | modTimeAscending => exact names

instance : TransCmp compareDirectoryFirst where
  eq_swap {a b} := by
    cases a with
    | false => cases b with
      | false => rfl
      | true => rfl
    | true => cases b with
      | false => rfl
      | true => rfl
  isLE_trans {a b c} := by
    revert a b c
    decide

theorem compareDirectoryFirst_eq_iff {a b : Bool} : compareDirectoryFirst a b = .eq ↔ a = b := by
  revert a b
  decide

theorem compare_neg (a b : Int) : compare (-a) (-b) = compare b a := by
  rw [Int.compare_eq_ite_lt, Int.compare_eq_ite_lt]
  simp only [Int.neg_lt_neg_iff]

/-- Every comparator looks at directories, names and numbers in turn. -/
theorem compareItems_eq :
    sorting.compareItems tables =
      compareLex (fun a b => compareDirectoryFirst a.isDir b.isDir)
        (compareLex (fun a b => sorting.compareNames tables (sorting.nameOf a) (sorting.nameOf b))
          (compareOn sorting.numberOf)) := by
  funext a b
  simp only [compareLex, compareOn]
  cases kinds : compareDirectoryFirst a.isDir b.isDir with
  | lt =>
      cases sorting <;> simp [compareItems, SortAlphaDescending, SortAlphaAscending,
        SortSizeDescending, SortSizeAscending, SortModTimeDescending, SortModTimeAscending, kinds]
  | gt =>
      cases sorting <;> simp [compareItems, SortAlphaDescending, SortAlphaAscending,
        SortSizeDescending, SortSizeAscending, SortModTimeDescending, SortModTimeAscending, kinds]
  | eq =>
      have same : b.isDir = a.isDir := (compareDirectoryFirst_eq_iff.mp kinds).symm
      cases sorting with
      | alphaDescending =>
          simp [compareItems, SortAlphaDescending, compareNames, nameOf, numberOf, kinds]
      | alphaAscending =>
          simp [compareItems, SortAlphaAscending, compareNames, nameOf, numberOf, kinds]
      | sizeDescending =>
          rw [compareItems, SortSizeDescending, kinds, Ordering.eq_then, nameOf, nameOf,
            numberOf, numberOf, same]
          cases a.isDir with
          | true => simp [compareNames]
          | false => simp [compareNames, compareNaturalNames, compare_neg]
      | sizeAscending =>
          rw [compareItems, SortSizeAscending, kinds, Ordering.eq_then, nameOf, nameOf,
            numberOf, numberOf, same]
          cases a.isDir with
          | true => simp [compareNames]
          | false => simp [compareNames, compareNaturalNames]
      | modTimeDescending =>
          simp [compareItems, SortModTimeDescending, compareNames, nameOf, numberOf, kinds,
            compare_neg, compareNaturalNames]
      | modTimeAscending =>
          simp [compareItems, SortModTimeAscending, compareNames, nameOf, numberOf, kinds,
            compareNaturalNames]

/-- Items run in a circle exactly if they are of one kind and their names do. -/
theorem circle_items_iff {a b c : Item} :
    Circle (sorting.compareItems tables) a b c ↔
      a.isDir = b.isDir ∧ b.isDir = c.isDir ∧
        Circle (sorting.compareNames tables) (sorting.nameOf a) (sorting.nameOf b)
          (sorting.nameOf c) := by
  have kinds : TransCmp fun a b : Item => compareDirectoryFirst a.isDir b.isDir :=
    TransCmp.on Item.isDir
  have names : TiedCmp fun a b : Item =>
      sorting.compareNames tables (sorting.nameOf a) (sorting.nameOf b) := TiedCmp.on sorting.nameOf
  rw [compareItems_eq, circle_compareLex_iff, circle_compareLex_iff,
    compareDirectoryFirst_eq_iff, compareDirectoryFirst_eq_iff]
  constructor
  · rintro (circle | ⟨ab, bc, circle | ⟨_, _, circle⟩⟩)
    · exact absurd circle (no_circle a b c)
    · exact ⟨ab, bc, circle.one, circle.two, circle.three⟩
    · exact absurd circle (no_circle a b c)
  · rintro ⟨ab, bc, circle⟩
    exact .inr ⟨ab, bc, .inl ⟨circle.one, circle.two, circle.three⟩⟩

/-- Names run in a circle, one way round or the other, exactly if three are crossed. -/
theorem circle_compareNames_iff {names : List (Option Units)} :
    (∀ a ∈ names, ∀ b ∈ names, ∀ c ∈ names, ¬Circle (sorting.compareNames tables) a b c) ↔
      NoneCrossed tables (names.filterMap id) := by
  have forward := contract_iff.symm.trans (@names_contract_iff tables names)
  cases sorting with
  | alphaDescending =>
      rw [← forward]
      constructor
      · intro noCircle a aIn b bIn c cIn circle
        exact noCircle c cIn b bIn a aIn (circle_flip_iff.mpr circle)
      · intro noCircle a aIn b bIn c cIn circle
        exact noCircle c cIn b bIn a aIn (circle_flip_iff.mp circle)
  | alphaAscending => exact forward
  | sizeDescending => exact forward
  | sizeAscending => exact forward
  | modTimeDescending => exact forward
  | modTimeAscending => exact forward

instance : TiedCmp (sorting.compareItems tables) := by
  have kinds : TransCmp fun a b : Item => compareDirectoryFirst a.isDir b.isDir :=
    TransCmp.on Item.isDir
  have names : TiedCmp fun a b : Item =>
      sorting.compareNames tables (sorting.nameOf a) (sorting.nameOf b) := TiedCmp.on sorting.nameOf
  rw [compareItems_eq]
  infer_instance

theorem noCircle_items_iff {items : List Item} :
    (∀ a ∈ items, ∀ b ∈ items, ∀ c ∈ items, ¬Circle (sorting.compareItems tables) a b c) ↔
      ∀ dir, NoneCrossed tables (sorting.namesAmong dir items) := by
  have names : ∀ dir, sorting.namesAmong dir items =
      ((items.filter fun item => item.isDir = dir).map sorting.nameOf).filterMap id := by
    intro dir
    rw [List.filterMap_map]
    rfl
  simp only [names, ← circle_compareNames_iff tables sorting, circle_items_iff]
  constructor
  · intro noCircle dir a aIn b bIn c cIn circle
    rw [List.mem_map] at aIn bIn cIn
    obtain ⟨x, xIn, rfl⟩ := aIn
    obtain ⟨y, yIn, rfl⟩ := bIn
    obtain ⟨z, zIn, rfl⟩ := cIn
    rw [List.mem_filter, decide_eq_true_eq] at xIn yIn zIn
    exact noCircle x xIn.1 y yIn.1 z zIn.1
      ⟨xIn.2.trans yIn.2.symm, yIn.2.trans zIn.2.symm, circle⟩
  · rintro noCircle a aIn b bIn c cIn ⟨ab, bc, circle⟩
    have among : ∀ item ∈ items, item.isDir = b.isDir → sorting.nameOf item ∈
        (items.filter fun other => other.isDir = b.isDir).map sorting.nameOf := by
      intro item itemIn same
      exact List.mem_map_of_mem (List.mem_filter.mpr ⟨itemIn, decide_eq_true same⟩)
    exact noCircle b.isDir _ (among a aIn ab) _ (among b bIn rfl) _ (among c cIn bc.symm) circle

theorem items_sortWell_iff {items : List Item} :
    SortsWell (sorting.compareItems tables) items ↔
      ∀ dir, NoneCrossed tables (sorting.namesAmong dir items) :=
  sortsWell_iff.trans (sorting.noCircle_items_iff tables)

end Sorting

/-- A file of the device as an item. -/
def DeviceFile.item (file : DeviceFile) : Item where
  isDir := file.isDirectory
  name := file.name
  size := file.length
  modTime := file.lastModified

namespace Sorting

variable (tables : CharacterTables) (sorting : Sorting)

theorem compareFiles_eq :
    sorting.compareFiles tables =
      fun file other => sorting.compareItems tables file.item other.item := by
  cases sorting with
  | alphaDescending => rfl
  | alphaAscending => rfl
  | sizeDescending => rfl
  | sizeAscending => rfl
  | modTimeDescending => rfl
  | modTimeAscending => rfl

instance : TiedCmp (sorting.compareFiles tables) := by
  rw [compareFiles_eq]
  exact TiedCmp.on DeviceFile.item

theorem files_sortWell_iff {files : List DeviceFile} :
    SortsWell (sorting.compareFiles tables) files ↔
      ∀ dir, NoneCrossed tables (sorting.namesAmong dir (files.map DeviceFile.item)) := by
  rw [sortsWell_iff, ← noCircle_items_iff]
  simp only [List.forall_mem_map, compareFiles_eq]
  constructor
  · intro noCircle a aIn b bIn c cIn circle
    exact noCircle a aIn b bIn c cIn ⟨circle.one, circle.two, circle.three⟩
  · intro noCircle a aIn b bIn c cIn circle
    exact noCircle a aIn b bIn c cIn ⟨circle.one, circle.two, circle.three⟩

end Sorting

/-- Names and the lists of files are in order exactly as long as none of the names
that are compared with one another are crossed. -/
theorem naturalOrder_lawful_iff (tables : CharacterTables) :
    (∀ left right, compareNaturalNames tables left right =
      (compareNaturalNames tables right left).swap) ∧
    (∀ left right, compareNaturalNames tables left right = .eq ↔ left = right) ∧
    (∀ names, Contract (compareNaturalNames tables) names ↔
      NoneCrossed tables (names.filterMap id)) ∧
    (∀ (sorting : Sorting) (items : List Item), SortsWell (sorting.compareItems tables) items ↔
      ∀ dir, NoneCrossed tables (sorting.namesAmong dir items)) ∧
    ∀ (sorting : Sorting) (files : List DeviceFile),
      SortsWell (sorting.compareFiles tables) files ↔
        ∀ dir, NoneCrossed tables (sorting.namesAmong dir (files.map DeviceFile.item)) := by
  constructor
  · exact compareNaturalNames_swap tables
  constructor
  · exact fun _ _ => compareNaturalNames_eq_iff tables
  constructor
  · exact fun _ => names_contract_iff tables
  constructor
  · exact fun sorting _ => sorting.items_sortWell_iff tables
  · exact fun sorting _ => sorting.files_sortWell_iff tables

/-- Latin letters, and the digits of two scripts. -/
def arabicIndic : CharacterTables where
  isDigit c := 48 ≤ c.toNat && c.toNat ≤ 57 || 0x660 ≤ c.toNat && c.toNat ≤ 0x669
  toLowerCase c := if 65 ≤ c.toNat ∧ c.toNat ≤ 90 then c + 32 else c
  isDigit_toLowerCase c := by
    split_ifs with upper
    · have lower : (c + 32).toNat = c.toNat + 32 := by
        rw [UInt16.toNat_add, show (32 : UInt16).toNat = 32 from rfl]
        omega
      rw [lower, Bool.eq_iff_iff]
      simp only [Bool.or_eq_true, Bool.and_eq_true, decide_eq_true_eq]
      omega
    · rfl

/-- The names `10`, `a` and an Arabic-Indic three. -/
def threeNames : List Units := [[49, 48], [97], [0x663]]

/-- Ten is before the letter, the letter before the three, and the three before ten. -/
theorem threeNames_circle :
    ¬((∀ names, Contract (compareNaturalNames arabicIndic) names) ∧
      ∀ items, SortsWell (SortAlphaAscending arabicIndic) items) := by
  intro lawful
  have contract := lawful.1 (threeNames.map some)
  have behind := contract.trans (some [0x663]) (by decide) (some [97]) (by decide)
    (some [49, 48]) (by decide) (by decide) (by decide)
  exact absurd behind (by decide)

end RoundSync.Explorer
