import RoundSync.Data.Comparators
import RoundSync.Explorer.FileComparators
import RoundSync.Text.JavaString
import RoundSync.Text.Positions
import RoundSync.Text.Separated
import Mathlib.Algebra.Group.Nat.Defs
import Mathlib.Algebra.Group.Int.Defs

/-!
# The sort order of document listings

`VirtualContentProvider.decodeSorting` turns the sort string of a query into a
comparator of list items.  The comparator yields an `int` of which a sort reads
the sign.  This file says for which items that sign is the direction that the
string asks for.
-/

namespace RoundSync.Provider

open RoundSync.Data
open RoundSync.Explorer
open RoundSync.Text
open RoundSync.Text.Java
open Std (TransCmp OrientedCmp)

/-! ## The comparator -/

/-- What the comparators read of a `ListItem`; the name may be null. -/
structure ListItem where
  name : Option Units
  lastModified : Int
  size : Int
  deriving DecidableEq

/-- The value of a `long` expression. -/
def toLong (n : Int) : Int :=
  n.bmod (2 ^ 64)

/-- The cast of a `long` to an `int`. -/
def toInt (n : Int) : Int :=
  n.bmod (2 ^ 32)

/-- `String.compareTo`. -/
def compareTo : Units → Units → Int
  | c :: left, d :: right => if c = d then compareTo left right else (c.toNat : Int) - d.toNat
  | left, right => (left.length : Int) - right.length

def compareDisplayNames (asc : Int) (a b : ListItem) : Int :=
  match a.name, b.name with
  | some left, some right => asc * compareTo left right
  | _, _ => 0

/-- The comparison of two `long` fields. -/
def compareLongs (asc left right : Int) : Int :=
  if left > 0 ∧ right ≥ 0 then toInt (toLong (asc * toLong (left - right))) else 0

def columnDisplayName : JavaString := "_display_name".toList

def columnLastModified : JavaString := "last_modified".toList

def columnSize : JavaString := "_size".toList

/-- The sort order up to a comma. -/
def beforeComma (sortOrder : JavaString) : Option JavaString :=
  if sortOrder.contains ',' then substring sortOrder 0 (indexOf sortOrder ',' 0)
  else some sortOrder

/-- `decodeSorting`; a sort string without a space makes it throw. -/
def decodeSorting (sortOrder : Option JavaString) : Option (ListItem → ListItem → Int) :=
  match sortOrder with
  | none => some fun _ _ => 0
  | some sortOrder => do
      let sortOrder ← beforeComma sortOrder
      let column ← substring sortOrder 0 (lastIndexOf sortOrder ' ' (sortOrder.length - 1))
      let asc : Int := if " ASC".toList.isSuffixOf sortOrder then -1 else 1
      if column = columnDisplayName then return compareDisplayNames asc
      else if column = columnLastModified then
        return fun a b => compareLongs asc a.lastModified b.lastModified
      else if column = columnSize then return fun a b => compareLongs asc a.size b.size
      else return fun _ _ => 0

/-- What a sort reads of a comparator. -/
def signOf (comparator : ListItem → ListItem → Int) (a b : ListItem) : Ordering :=
  compare (comparator a b) 0

/-! ## What a sort string asks for -/

inductive Column where
  | displayName
  | lastModified
  | size

inductive Direction where
  | ascending
  | descending

/-- The part of a sort string up to the first comma. -/
def firstLevel (sortOrder : JavaString) : JavaString :=
  sortOrder.takeWhile (· ≠ ',')

/-- The part in front of the last space. -/
def columnName (sortOrder : JavaString) : JavaString :=
  ((firstLevel sortOrder).rdropWhile (· ≠ ' ')).dropLast

/-- The column of a sort string, if it is one that can be chosen. -/
def columnOf (sortOrder : JavaString) : Option Column :=
  if columnName sortOrder = columnDisplayName then some .displayName
  else if columnName sortOrder = columnLastModified then some .lastModified
  else if columnName sortOrder = columnSize then some .size
  else none

/-- The direction of a sort string, if it names one. -/
def directionOf (sortOrder : JavaString) : Option Direction :=
  if " ASC".toList.isSuffixOf (firstLevel sortOrder) then some .ascending
  else if " DESC".toList.isSuffixOf (firstLevel sortOrder) then some .descending
  else none

/-- Null names are not known. -/
def Column.Known : Column → ListItem → Prop
  | displayName, item => item.name ≠ none
  | _, _ => True

/-- The order of the values in a column. -/
def Column.order : Column → ListItem → ListItem → Ordering
  | displayName, a, b => List.compareLex compare (a.name.getD []) (b.name.getD [])
  | lastModified, a, b => compare a.lastModified b.lastModified
  | size, a, b => compare a.size b.size

def Direction.apply {α : Type} : Direction → (α → α → Ordering) → α → α → Ordering
  | ascending, order, a, b => order a b
  | descending, order, a, b => order b a

/-- The comparator has the order of the column, in the given direction. -/
def Follows (column : Column) (direction : Direction) (cmp : ListItem → ListItem → Ordering)
    (items : List ListItem) : Prop :=
  ∀ a ∈ items, ∀ b ∈ items, column.Known a → column.Known b →
    cmp a b = direction.apply column.order a b

/-- What a sort string asks of the comparator: the direction that it names, or
either one. -/
def Asks (column : Column) (direction : Option Direction) (cmp : ListItem → ListItem → Ordering)
    (items : List ListItem) : Prop :=
  match direction with
  | some direction => Follows column direction cmp items
  | none => Follows column .ascending cmp items ∨ Follows column .descending cmp items

/-- A comparator that a sort string may be turned into: a total preorder on the
items with the order that the string asks for. -/
structure SortsBy (sortOrder : Option JavaString) (cmp : ListItem → ListItem → Ordering)
    (items : List ListItem) : Prop where
  contract : Contract cmp items
  asks : ∀ text ∈ sortOrder, ∀ column ∈ columnOf text, Asks column (directionOf text) cmp items

/-! ## Decoding -/

/-- The factor of the comparators. -/
def factorOf (sortOrder : JavaString) : Int :=
  if " ASC".toList.isSuffixOf (firstLevel sortOrder) then -1 else 1

/-- The comparator of a column with a factor. -/
def comparatorOf (factor : Int) : Option Column → ListItem → ListItem → Int
  | some .displayName => compareDisplayNames factor
  | some .lastModified => fun a b => compareLongs factor a.lastModified b.lastModified
  | some .size => fun a b => compareLongs factor a.size b.size
  | none => fun _ _ => 0

theorem beforeComma_eq (sortOrder : JavaString) :
    beforeComma sortOrder = some (firstLevel sortOrder) := by
  unfold beforeComma
  rcases exists_firstPart ',' sortOrder with free | ⟨first, rest, rfl, free⟩
  · rw [if_neg (by simpa using free), firstLevel, List.takeWhile_eq_self_iff.mpr]
    intro c member
    simpa using fun same : c = ',' => free (same ▸ member)
  · have found : indexOf (first ++ ',' :: rest) ',' 0 = first.length := by
      simpa using indexOf_eq free [] rest
    have cut : firstLevel (first ++ ',' :: rest) = first :=
      (takeWhile_append_sep free rest).1
    rw [if_pos (by simp), found, cut]
    exact substring_eq [] first (',' :: rest) rfl (by simp)

theorem columnName_eq {sortOrder column : JavaString}
    (found : substring (firstLevel sortOrder) 0
      (lastIndexOf (firstLevel sortOrder) ' ' ((firstLevel sortOrder).length - 1)) = some column) :
    column = columnName sortOrder := by
  unfold columnName
  generalize firstLevel sortOrder = level at found ⊢
  rcases exists_lastPart ' ' level with free | ⟨front, last, rfl, free⟩
  · rw [lastIndexOf_of_notMem free, substring, if_neg (by omega)] at found
    cases found
  · have index := lastIndexOf_eq free front [] ((front ++ ' ' :: last).length - 1)
      (by rw [List.length_append, List.length_cons]; omega)
    rw [List.append_nil] at index
    have front_eq : substring (front ++ ' ' :: last) 0 front.length = some front :=
      substring_eq [] front (' ' :: last) rfl (by simp)
    rw [index, front_eq] at found
    rw [rdropWhile_append_sep free, List.dropLast_concat]
    exact (Option.some.inj found).symm

/-- What `decodeSorting` makes of a sort string. -/
theorem decodeSorting_eq {text : JavaString} {comparator : ListItem → ListItem → Int}
    (accepted : decodeSorting (some text) = some comparator) :
    comparator = comparatorOf (factorOf text) (columnOf text) := by
  simp only [decodeSorting, beforeComma_eq, Option.bind_eq_bind, Option.bind_some] at accepted
  obtain ⟨column, found, returned⟩ := Option.bind_eq_some_iff.mp accepted
  rw [columnName_eq found] at returned
  unfold columnOf factorOf
  split at returned
  · rename_i isName
    rw [if_pos isName]
    exact (Option.some.inj returned).symm
  · rename_i notName
    rw [if_neg notName]
    split at returned
    · rename_i isTime
      rw [if_pos isTime]
      exact (Option.some.inj returned).symm
    · rename_i notTime
      rw [if_neg notTime]
      split at returned
      · rename_i isSize
        rw [if_pos isSize]
        exact (Option.some.inj returned).symm
      · rename_i notSize
        rw [if_neg notSize]
        exact (Option.some.inj returned).symm

/-! ## Signs -/

theorem compare_toNat (c d : UInt16) : compare ((c.toNat : Int) - d.toNat) 0 = compare c d := by
  change _ = if c < d then Ordering.lt else if c = d then Ordering.eq else Ordering.gt
  by_cases less : c < d
  · have lessNat := UInt16.lt_iff_toNat_lt.mp less
    rw [if_pos less, compare_lt_iff_lt]
    omega
  · rw [if_neg less]
    by_cases same : c = d
    · rw [if_pos same, same, Int.sub_self]
      rfl
    · have differentNat : c.toNat ≠ d.toNat := fun equal => same (UInt16.toNat_inj.mp equal)
      rw [UInt16.lt_iff_toNat_lt] at less
      rw [if_neg same, compare_gt_iff_gt]
      omega

theorem compare_units_eq_iff {c d : UInt16} : compare c d = .eq ↔ c = d := by
  rw [← compare_toNat, compare_eq_iff_eq, ← UInt16.toNat_inj]
  omega

/-- The sign of `compareTo` is the order of code units. -/
theorem compareTo_sign (left right : Units) :
    compare (compareTo left right) 0 = List.compareLex compare left right := by
  induction left generalizing right with
  | nil =>
      cases right with
      | nil => rfl
      | cons d right =>
          rw [List.compareLex_nil_cons, compare_lt_iff_lt, compareTo, List.length_nil,
            List.length_cons]
          · omega
          · exact nofun
  | cons c left ih =>
      cases right with
      | nil =>
          rw [List.compareLex_cons_nil, compare_gt_iff_gt, compareTo, List.length_nil,
            List.length_cons]
          · omega
          · exact nofun
      | cons d right =>
          rw [List.compareLex_cons_cons, compareTo]
          by_cases same : c = d
          · rw [if_pos same, compare_units_eq_iff.mpr same, Ordering.eq_then]
            exact ih right
          · have different : compare c d ≠ .eq := fun tie => same (compare_units_eq_iff.mp tie)
            rw [if_neg same, compare_toNat]
            cases decided : compare c d with
            | lt => rfl
            | eq => exact absurd decided different
            | gt => rfl

theorem compare_neg_zero (n : Int) : compare (-1 * n) 0 = (compare n 0).swap := by
  rcases lt_trichotomy n 0 with less | rfl | greater
  · have decided : compare n 0 = .lt := compare_lt_iff_lt.mpr less
    rw [decided, Ordering.swap_lt, compare_gt_iff_gt]
    omega
  · rfl
  · have decided : compare n 0 = .gt := compare_gt_iff_gt.mpr greater
    rw [decided, Ordering.swap_gt, compare_lt_iff_lt]
    omega

theorem toInt_toLong (n : Int) : toInt (toLong n) = toInt n :=
  Int.bmod_bmod_of_dvd (by decide)

/-- The cast loses all but the low bits of a difference. -/
theorem compareLongs_of_pos {left right : Int} (leftPos : 0 < left) (rightNonneg : 0 ≤ right) :
    compareLongs 1 left right = toInt (left - right) ∧
      compareLongs (-1) left right = toInt (right - left) := by
  have negated : toLong (-1 * toLong (left - right)) = toLong (right - left) := by
    rw [Int.neg_one_mul, toLong, toLong, Int.bmod_neg_bmod, Int.neg_sub, toLong]
  unfold compareLongs
  rw [if_pos ⟨leftPos, rightNonneg⟩, if_pos ⟨leftPos, rightNonneg⟩, negated, toInt_toLong,
    toInt_toLong, Int.one_mul, toInt_toLong]
  exact ⟨rfl, rfl⟩

theorem compareLongs_of_not {left right : Int} (factor : Int) (out : ¬(left > 0 ∧ right ≥ 0)) :
    compareLongs factor left right = 0 :=
  if_neg out

/-- The factor of a direction that the comparators are built with. -/
def Direction.factor : Direction → Int
  | ascending => -1
  | descending => 1

/-- The low bits of a difference as an `int` are negative, and stay negative
when it is taken the other way round and turned. -/
def Flips (n : Int) : Prop :=
  -2 ^ 31 < toInt n ∧ toInt n < 0

theorem flips_iff (n : Int) : Flips n ↔ toInt n < 0 ∧ 0 < toInt (-n) := by
  unfold Flips toInt
  simp only [Int.bmod_def]
  omega

theorem toInt_pos_iff (n : Int) : 0 < toInt n ↔ 0 < toInt n ∧ toInt (-n) < 0 := by
  unfold toInt
  simp only [Int.bmod_def]
  omega

/-- Two different values compare the way of a direction only if both defects, the
factor and the cast, hit them. -/
theorem longs_follow_iff (direction : Direction) {x y : Int} (less : x < y) :
    (compare (compareLongs direction.factor x y) 0 = direction.apply compare x y ∧
      compare (compareLongs direction.factor y x) 0 = direction.apply compare y x) ↔
      0 < x ∧ Flips (y - x) := by
  have xy : compare x y = .lt := compare_lt_iff_lt.mpr less
  have yx : compare y x = .gt := compare_gt_iff_gt.mpr less
  by_cases positive : 0 < x
  · obtain ⟨up, down⟩ := compareLongs_of_pos positive (show 0 ≤ y by omega)
    obtain ⟨up', down'⟩ := compareLongs_of_pos (show 0 < y by omega) (show 0 ≤ x by omega)
    have turned : x - y = -(y - x) := by omega
    rw [flips_iff]
    cases direction with
    | ascending =>
        simp only [Direction.factor, Direction.apply, down, down', xy, yx, compare_lt_iff_lt,
          compare_gt_iff_gt, turned, positive, true_and]
    | descending =>
        simp only [Direction.factor, Direction.apply, up, up', xy, yx, compare_lt_iff_lt,
          compare_gt_iff_gt, turned, positive, true_and]
        exact and_comm
  · have tie : compare (compareLongs direction.factor x y) 0 = .eq := by
      rw [compareLongs_of_not _ (fun both => positive both.1)]
      rfl
    rw [tie]
    cases direction with
    | ascending => simp [Direction.apply, xy, positive]
    | descending => simp [Direction.apply, yx, positive]

/-- Without a direction in the string, the comparator is the ascending one but for
the cast. -/
theorem longs_keep_iff {x y : Int} (less : x < y) :
    (compare (compareLongs 1 x y) 0 = compare x y ∧
      compare (compareLongs 1 y x) 0 = compare y x) ↔ 0 < x ∧ 0 < toInt (y - x) := by
  have xy : compare x y = .lt := compare_lt_iff_lt.mpr less
  have yx : compare y x = .gt := compare_gt_iff_gt.mpr less
  by_cases positive : 0 < x
  · obtain ⟨up, _⟩ := compareLongs_of_pos positive (show 0 ≤ y by omega)
    obtain ⟨up', _⟩ := compareLongs_of_pos (show 0 < y by omega) (show 0 ≤ x by omega)
    have turned : x - y = -(y - x) := by omega
    rw [toInt_pos_iff, xy, yx, up, up', compare_lt_iff_lt, compare_gt_iff_gt, turned]
    simp only [positive, true_and]
    exact and_comm
  · have tie : compare (compareLongs 1 x y) 0 = .eq := by
      rw [compareLongs_of_not _ (fun both => positive both.1)]
      rfl
    rw [tie, xy]
    simp [positive]

theorem longs_self (factor x : Int) : compare (compareLongs factor x x) 0 = .eq := by
  unfold compareLongs
  split
  · have zero : toLong 0 = 0 := rfl
    rw [Int.sub_self, zero, Int.mul_zero]
    rfl
  · rfl

/-! ## Items of a list -/

/-- A comparator that agrees with a lawful one on the items. -/
theorem Contract.of_agrees {cmp lawful : ListItem → ListItem → Ordering} {items : List ListItem}
    (agrees : ∀ a ∈ items, ∀ b ∈ items, cmp a b = lawful a b) (contract : Contract lawful items) :
    Contract cmp items where
  swap a aIn b bIn := by
    rw [agrees a aIn b bIn, agrees b bIn a aIn]
    exact contract.swap a aIn b bIn
  trans a aIn b bIn c cIn := by
    rw [agrees a aIn b bIn, agrees b bIn c cIn, agrees a aIn c cIn]
    exact contract.trans a aIn b bIn c cIn
  tie a aIn b bIn c cIn := by
    rw [agrees a aIn b bIn, agrees a aIn c cIn, agrees b bIn c cIn]
    exact contract.tie a aIn b bIn c cIn

theorem contract_ties (items : List ListItem) : Contract (fun _ _ => .eq) items where
  swap _ _ _ _ := rfl
  trans _ _ _ _ _ _ impossible := by cases impossible
  tie _ _ _ _ _ _ _ := rfl

theorem order_trans (column : Column) : TransCmp column.order := by
  cases column with
  | displayName =>
      have names : TransCmp fun a b : ListItem =>
          List.compareLex compare (a.name.getD []) (b.name.getD []) :=
        TransCmp.on fun item : ListItem => item.name.getD []
      exact names
  | lastModified =>
      have times : TransCmp fun a b : ListItem => compare a.lastModified b.lastModified :=
        TransCmp.on ListItem.lastModified
      exact times
  | size =>
      have sizes : TransCmp fun a b : ListItem => compare a.size b.size :=
        TransCmp.on ListItem.size
      exact sizes

theorem contract_of_trans {cmp : ListItem → ListItem → Ordering} (trans : TransCmp cmp)
    (items : List ListItem) : Contract cmp items :=
  contract_iff.mpr fun a _ b _ c _ => no_circle a b c

/-- A comparator with the order of a column is lawful, if all values are known. -/
theorem Follows.contract {column : Column} {direction : Direction}
    {cmp : ListItem → ListItem → Ordering} {items : List ListItem}
    (follows : Follows column direction cmp items) (known : ∀ item ∈ items, column.Known item) :
    Contract cmp items := by
  have trans := order_trans column
  have lawful : Contract (direction.apply column.order) items := by
    cases direction with
    | ascending => exact contract_of_trans trans items
    | descending =>
        have opposite : TransCmp fun a b => column.order b a := inferInstance
        exact contract_of_trans opposite items
  exact Contract.of_agrees
    (fun a aIn b bIn => follows a aIn b bIn (known a aIn) (known b bIn)) lawful

/-- The values of a column in an order that both defects, or none of them, leave
in place. -/
def Straight (direction : Option Direction) (key : ListItem → Int) (items : List ListItem) : Prop :=
  (∀ a ∈ items, ∀ b ∈ items, key a < key b → 0 < key a ∧ Flips (key b - key a)) ∨
    direction = none ∧
      ∀ a ∈ items, ∀ b ∈ items, key a < key b → 0 < key a ∧ 0 < toInt (key b - key a)

/-- Items that have the same name, as far as they have one. -/
def SameNames (items : List ListItem) : Prop :=
  ∀ a ∈ items, ∀ b ∈ items, a.name ≠ none → b.name ≠ none → a.name = b.name

/-- A comparison of two `long` fields on the items of a list. -/
theorem longs_follows_iff {column : Column} {key : ListItem → Int}
    (isKey : ∀ a b, column.order a b = compare (key a) (key b)) (known : ∀ item, column.Known item)
    (direction : Direction) (factor : Int) (items : List ListItem) (holds : Int → Int → Prop)
    (pair : ∀ x y, x < y →
      ((compare (compareLongs factor x y) 0 = direction.apply compare x y ∧
        compare (compareLongs factor y x) 0 = direction.apply compare y x) ↔ holds x y)) :
    Follows column direction (signOf fun a b => compareLongs factor (key a) (key b)) items ↔
      ∀ a ∈ items, ∀ b ∈ items, key a < key b → holds (key a) (key b) := by
  have orders : ∀ a b, direction.apply column.order a b = direction.apply compare (key a) (key b) := by
    intro a b
    cases direction with
    | ascending => exact isKey a b
    | descending => exact isKey b a
  constructor
  · intro follows a aIn b bIn less
    have ab := follows a aIn b bIn (known a) (known b)
    have ba := follows b bIn a aIn (known b) (known a)
    rw [orders] at ab ba
    exact (pair _ _ less).mp ⟨ab, ba⟩
  · intro all a aIn b bIn _ _
    rw [orders]
    rcases lt_trichotomy (key a) (key b) with less | same | greater
    · exact ((pair _ _ less).mpr (all a aIn b bIn less)).1
    · have tie : direction.apply compare (key b) (key b) = .eq := by
        cases direction with
        | ascending => exact compare_eq_iff_eq.mpr rfl
        | descending => exact compare_eq_iff_eq.mpr rfl
      rw [signOf, same, longs_self, tie]
    · exact ((pair _ _ greater).mpr (all b bIn a aIn greater)).2

/-- The direction that a comparator of this factor takes for names. -/
theorem names_sign (factor : Direction) {a b : ListItem} {left right : Units}
    (leftName : a.name = some left) (rightName : b.name = some right) :
    signOf (compareDisplayNames factor.factor) a b =
      match factor with
      | .ascending => List.compareLex compare right left
      | .descending => List.compareLex compare left right := by
  have swap : ∀ one other : Units, (List.compareLex compare one other).swap =
      List.compareLex compare other one :=
    fun one other => OrientedCmp.eq_swap.symm
  unfold signOf compareDisplayNames
  rw [leftName, rightName]
  cases factor with
  | ascending =>
      simp only [Direction.factor]
      rw [compare_neg_zero, compareTo_sign, swap]
  | descending =>
      simp only [Direction.factor, Int.one_mul]
      exact compareTo_sign left right

theorem names_tie_iff {left right : Units} :
    List.compareLex compare left right = .eq ↔ left = right := by
  rw [← compareTo_sign]
  constructor
  · intro tie
    rw [compareTo_sign] at tie
    induction left generalizing right with
    | nil =>
        cases right with
        | nil => rfl
        | cons d right => simp [List.compareLex_nil_cons] at tie
    | cons c left ih =>
        cases right with
        | nil => simp [List.compareLex_cons_nil] at tie
        | cons d right =>
            rw [List.compareLex_cons_cons, Ordering.then_eq_eq] at tie
            rw [compare_units_eq_iff.mp tie.1, ih tie.2]
  · rintro rfl
    rw [compareTo_sign]
    exact Std.ReflCmp.compare_self

/-- Null names tie with everything. -/
theorem names_null (factor : Int) {a b : ListItem} (null : a.name = none ∨ b.name = none) :
    signOf (compareDisplayNames factor) a b = .eq := by
  unfold signOf compareDisplayNames
  rcases null with aNull | bNull
  · rw [aNull]
    rfl
  · rw [bNull]
    cases a.name with
    | none => rfl
    | some left => rfl

theorem sameNames_ties {items : List ListItem} (same : SameNames items) (factor : Direction) :
    ∀ a ∈ items, ∀ b ∈ items, signOf (compareDisplayNames factor.factor) a b = .eq := by
  intro a aIn b bIn
  cases aName : a.name with
  | none => exact names_null _ (.inl aName)
  | some left =>
      cases bName : b.name with
      | none => exact names_null _ (.inr bName)
      | some right =>
          have equal := same a aIn b bIn (by simp [aName]) (by simp [bName])
          rw [aName, bName] at equal
          rw [names_sign factor aName bName, Option.some.inj equal]
          cases factor with
          | ascending => exact names_tie_iff.mpr rfl
          | descending => exact names_tie_iff.mpr rfl

/-- A string with a direction turns different names around. -/
theorem names_follow_iff (direction : Direction) (items : List ListItem) :
    Follows .displayName direction (signOf (compareDisplayNames direction.factor)) items ↔
      SameNames items := by
  constructor
  · intro follows a aIn b bIn aKnown bKnown
    obtain ⟨left, aName⟩ := Option.ne_none_iff_exists'.mp aKnown
    obtain ⟨right, bName⟩ := Option.ne_none_iff_exists'.mp bKnown
    have law := follows a aIn b bIn aKnown bKnown
    rw [names_sign direction aName bName] at law
    have both : List.compareLex compare left right = List.compareLex compare right left := by
      cases direction with
      | ascending => simpa [Direction.apply, Column.order, aName, bName] using law.symm
      | descending => simpa [Direction.apply, Column.order, aName, bName] using law
    have swap : List.compareLex compare right left =
        (List.compareLex compare left right).swap := OrientedCmp.eq_swap
    rw [swap] at both
    have tie : List.compareLex compare left right = .eq := by
      cases decided : List.compareLex compare left right with
      | eq => rfl
      | lt => rw [decided] at both; cases both
      | gt => rw [decided] at both; cases both
    rw [aName, bName, names_tie_iff.mp tie]
  · intro same a aIn b bIn aKnown bKnown
    have equal := same a aIn b bIn aKnown bKnown
    have tie : List.compareLex compare (a.name.getD []) (b.name.getD []) = .eq := by
      rw [equal]
      exact names_tie_iff.mpr rfl
    have tie' : List.compareLex compare (b.name.getD []) (a.name.getD []) = .eq := by
      rw [equal]
      exact names_tie_iff.mpr rfl
    rw [sameNames_ties same direction a aIn b bIn]
    cases direction with
    | ascending => exact tie.symm
    | descending => exact tie'.symm

theorem names_follow_plain (items : List ListItem) :
    Follows .displayName .ascending (signOf (compareDisplayNames Direction.descending.factor))
      items := by
  intro a _ b _ aKnown bKnown
  obtain ⟨left, aName⟩ := Option.ne_none_iff_exists'.mp aKnown
  obtain ⟨right, bName⟩ := Option.ne_none_iff_exists'.mp bKnown
  rw [names_sign .descending aName bName]
  simp [Direction.apply, Column.order, aName, bName]

/-- Names are compared lawfully exactly if they are all the same, or none is null. -/
theorem names_contract_iff (factor : Direction) (items : List ListItem) :
    Contract (signOf (compareDisplayNames factor.factor)) items ↔
      SameNames items ∨ ∀ item ∈ items, item.name ≠ none := by
  constructor
  · intro contract
    by_cases named : ∀ item ∈ items, item.name ≠ none
    · exact .inr named
    · left
      push Not at named
      obtain ⟨null, nullIn, nullName⟩ := named
      intro a aIn b bIn aKnown bKnown
      obtain ⟨left, aName⟩ := Option.ne_none_iff_exists'.mp aKnown
      obtain ⟨right, bName⟩ := Option.ne_none_iff_exists'.mp bKnown
      have tie := contract.tie a aIn null nullIn b bIn (names_null _ (.inr nullName))
      rw [names_null _ (.inl nullName), names_sign factor aName bName] at tie
      cases factor with
      | ascending => rw [aName, bName, names_tie_iff.mp tie]
      | descending => rw [aName, bName, names_tie_iff.mp tie]
  · rintro (same | named)
    · exact Contract.of_agrees (sameNames_ties same factor) (contract_ties items)
    · have follows : Follows .displayName
          (match factor with | .ascending => .descending | .descending => .ascending)
          (signOf (compareDisplayNames factor.factor)) items := by
        intro a _ b _ aKnown bKnown
        obtain ⟨left, aName⟩ := Option.ne_none_iff_exists'.mp aKnown
        obtain ⟨right, bName⟩ := Option.ne_none_iff_exists'.mp bKnown
        rw [names_sign factor aName bName]
        cases factor with
        | ascending => simp [Direction.apply, Column.order, aName, bName]
        | descending => simp [Direction.apply, Column.order, aName, bName]
      exact follows.contract named

/-! ## Which items are sorted -/

theorem factorOf_eq (text : JavaString) :
    factorOf text = ((directionOf text).getD .descending).factor := by
  unfold factorOf directionOf
  split
  · rfl
  · split <;> rfl

theorem longs_asks_iff (column : Column) {key : ListItem → Int}
    (isKey : ∀ a b, column.order a b = compare (key a) (key b)) (known : ∀ item, column.Known item)
    (direction : Option Direction) (items : List ListItem) :
    let cmp := signOf fun a b =>
      compareLongs (direction.getD .descending).factor (key a) (key b)
    Contract cmp items ∧ Asks column direction cmp items ↔ Straight direction key items := by
  intro cmp
  have flips := longs_follows_iff isKey known (direction.getD .descending)
    (direction.getD .descending).factor items
    (fun x y => 0 < x ∧ Flips (y - x)) fun _ _ less => longs_follow_iff _ less
  have lawful : ∀ {direction : Direction}, Follows column direction cmp items →
      Contract cmp items :=
    fun follows => follows.contract fun item _ => known item
  cases direction with
  | some direction =>
      constructor
      · rintro ⟨_, follows⟩
        exact .inl (flips.mp follows)
      · rintro (all | ⟨impossible, _⟩)
        · have follows := flips.mpr all
          exact ⟨lawful follows, follows⟩
        · cases impossible
  | none =>
      have keeps := longs_follows_iff isKey known .ascending 1 items
        (fun x y => 0 < x ∧ 0 < toInt (y - x)) fun _ _ less => longs_keep_iff less
      constructor
      · rintro ⟨_, ascending | descending⟩
        · exact .inr ⟨rfl, keeps.mp ascending⟩
        · exact .inl (flips.mp descending)
      · rintro (all | ⟨_, all⟩)
        · have follows := flips.mpr all
          exact ⟨lawful follows, .inr follows⟩
        · have follows := keeps.mpr all
          exact ⟨lawful follows, .inl follows⟩

theorem names_asks_iff (direction : Option Direction) (items : List ListItem) :
    let cmp := signOf (compareDisplayNames (direction.getD .descending).factor)
    Contract cmp items ∧ Asks .displayName direction cmp items ↔
      SameNames items ∨ direction = none ∧ ∀ item ∈ items, item.name ≠ none := by
  intro cmp
  have contract := names_contract_iff (direction.getD .descending) items
  cases direction with
  | some direction =>
      have follows := names_follow_iff direction items
      constructor
      · rintro ⟨_, asked⟩
        exact .inl (follows.mp asked)
      · rintro (same | ⟨impossible, _⟩)
        · exact ⟨contract.mpr (.inl same), follows.mpr same⟩
        · cases impossible
  | none =>
      constructor
      · rintro ⟨lawful, _⟩
        rcases contract.mp lawful with same | named
        · exact .inl same
        · exact .inr ⟨rfl, named⟩
      · rintro (same | ⟨_, named⟩)
        · exact ⟨contract.mpr (.inl same), .inl (names_follow_plain items)⟩
        · exact ⟨contract.mpr (.inr named), .inl (names_follow_plain items)⟩

/-- The items that a sort string can sort. -/
def Sortable (sortOrder : Option JavaString) (items : List ListItem) : Prop :=
  ∀ text ∈ sortOrder, ∀ column ∈ columnOf text,
    match column with
    | .displayName =>
        SameNames items ∨ directionOf text = none ∧ ∀ item ∈ items, item.name ≠ none
    | .lastModified => Straight (directionOf text) ListItem.lastModified items
    | .size => Straight (directionOf text) ListItem.size items

theorem sortsBy_iff (sortOrder : Option JavaString) (cmp : ListItem → ListItem → Ordering)
    (items : List ListItem) :
    SortsBy sortOrder cmp items ↔
      Contract cmp items ∧ ∀ text ∈ sortOrder, ∀ column ∈ columnOf text,
        Asks column (directionOf text) cmp items :=
  ⟨fun sorts => ⟨sorts.contract, sorts.asks⟩, fun both => ⟨both.1, both.2⟩⟩

/-- The comparator of a sort string is a total preorder in the right direction on
exactly the items that both defects leave alone, or hit together. -/
theorem decodeSorting_sorts_iff {sortOrder : Option JavaString}
    {comparator : ListItem → ListItem → Int} (accepted : decodeSorting sortOrder = some comparator)
    (items : List ListItem) :
    SortsBy sortOrder (signOf comparator) items ↔ Sortable sortOrder items := by
  rw [sortsBy_iff]
  cases sortOrder with
  | none =>
      have constant : comparator = fun _ _ => 0 := (Option.some.inj accepted).symm
      have ties : Contract (signOf comparator) items := by
        rw [constant]
        exact contract_ties items
      exact iff_of_true ⟨ties, nofun⟩ nofun
  | some text =>
      rw [decodeSorting_eq accepted, factorOf_eq]
      unfold Sortable
      simp only [Option.mem_def, Option.some.injEq, forall_eq']
      cases chosen : columnOf text with
      | none => exact iff_of_true ⟨contract_ties items, nofun⟩ nofun
      | some column =>
          simp only [Option.some.injEq, forall_eq']
          cases column with
          | displayName => exact names_asks_iff (directionOf text) items
          | lastModified =>
              exact longs_asks_iff .lastModified (fun _ _ => rfl) (fun _ => trivial)
                (directionOf text) items
          | size =>
              exact longs_asks_iff .size (fun _ _ => rfl) (fun _ => trivial)
                (directionOf text) items

/-- Two files of one size. -/
theorem equalSizes_sorted :
    SortsBy (some "_size DESC".toList)
      (signOf fun a b => compareLongs 1 a.size b.size)
      [⟨some [97], 1, 7⟩, ⟨some [98], 2, 7⟩] := by
  refine (decodeSorting_sorts_iff rfl _).mpr ?_
  rintro _ ⟨⟩ column isColumn
  have chosen : columnOf "_size DESC".toList = some .size := by rfl
  rw [chosen] at isColumn
  cases isColumn
  left
  intro a aIn b bIn less
  simp only [List.mem_cons, List.not_mem_nil, or_false] at aIn bIn
  rcases aIn with rfl | rfl <;> rcases bIn with rfl | rfl <;> cases less

/-- Two names, to be sorted in ascending order, come out the other way round. -/
theorem twoNames_turned :
    ¬∀ sortOrder comparator items, decodeSorting sortOrder = some comparator →
      SortsBy sortOrder (signOf comparator) items := by
  intro sorts
  have law := sorts (some "_display_name ASC".toList) (compareDisplayNames (-1))
    [⟨some [97], 0, 0⟩, ⟨some [98], 0, 0⟩] rfl
  have ascending : directionOf "_display_name ASC".toList = some .ascending := by rfl
  have follows := law.asks _ rfl .displayName rfl
  rw [ascending] at follows
  have order := follows ⟨some [97], 0, 0⟩ (by decide) ⟨some [98], 0, 0⟩ (by decide) nofun nofun
  revert order
  decide

end RoundSync.Provider
