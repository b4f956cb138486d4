import Mathlib.Data.List.Sort
import Mathlib.Data.List.Perm.Basic

/-!
# Comparators that may run in circles

A comparator is oriented if it answers the other way round when its arguments
are swapped, and tied if what it takes to be equal is equal to it everywhere.
Such a comparator orders a list unless three of its items run in a circle; the
circles of a lexicographic comparison are those of its parts at the first place
that differs.  A sort that keeps its promises for a lawful comparator then
gives the same result for every arrangement of the items, up to ties.
-/

namespace RoundSync.Data

open Std

universe u

variable {α : Type u} {cmp first second : α → α → Ordering}

/-- Oriented, and unable to tell apart what it takes to be equal. -/
class TiedCmp (cmp : α → α → Ordering) : Prop extends OrientedCmp cmp where
  congr {a b : α} (tie : cmp a b = .eq) (c : α) : cmp a c = cmp b c

theorem TiedCmp.congr_second [TiedCmp cmp] {a b : α} (tie : cmp a b = .eq) (c : α) :
    cmp c a = cmp c b := by
  rw [@OrientedCmp.eq_swap _ cmp, TiedCmp.congr tie c, ← @OrientedCmp.eq_swap _ cmp]

instance [TransCmp cmp] : TiedCmp cmp where
  congr tie _ := TransCmp.congr_left tie

theorem TiedCmp.on {β : Type u} [TiedCmp cmp] (key : β → α) :
    TiedCmp fun a b => cmp (key a) (key b) where
  eq_swap := OrientedCmp.eq_swap
  congr tie c := TiedCmp.congr tie (key c)

theorem TransCmp.on {β : Type u} [TransCmp cmp] (key : β → α) :
    TransCmp fun a b => cmp (key a) (key b) where
  eq_swap := OrientedCmp.eq_swap
  isLE_trans := TransCmp.isLE_trans

instance TiedCmp.opposite [TiedCmp cmp] : TiedCmp fun a b => cmp b a where
  congr tie c := TiedCmp.congr_second (OrientedCmp.eq_symm tie) c

/-- Three items, each before the next one and the last before the first. -/
structure Circle (cmp : α → α → Ordering) (a b c : α) : Prop where
  one : cmp a b = .lt
  two : cmp b c = .lt
  three : cmp c a = .lt

theorem Circle.rotate {a b c : α} (circle : Circle cmp a b c) : Circle cmp b c a :=
  ⟨circle.two, circle.three, circle.one⟩

theorem no_circle [TransCmp cmp] (a b c : α) : ¬Circle cmp a b c := by
  intro circle
  have shortcut : cmp a c = .lt := TransCmp.lt_trans circle.one circle.two
  exact OrientedCmp.not_lt_of_lt shortcut circle.three

theorem circle_flip_iff {a b c : α} :
    Circle (fun x y => cmp y x) a b c ↔ Circle cmp c b a := by
  constructor
  · rintro ⟨one, two, three⟩
    exact ⟨two, one, three⟩
  · rintro ⟨one, two, three⟩
    exact ⟨two, one, three⟩

/-! ## Lexicographic comparators -/

instance [TiedCmp first] [TiedCmp second] : TiedCmp (compareLex first second) where
  congr {a b} tie c := by
    obtain ⟨firstTie, secondTie⟩ := compareLex_eq_eq.mp tie
    rw [compareLex, compareLex, TiedCmp.congr firstTie, TiedCmp.congr secondTie]

/-- Three items of which none is behind the next one run in a circle or tie. -/
theorem circle_or_ties [TiedCmp cmp] {a b c : α} (one : cmp a b ≠ .gt) (two : cmp b c ≠ .gt)
    (three : cmp c a ≠ .gt) : Circle cmp a b c ∨ cmp a b = .eq ∧ cmp b c = .eq := by
  cases ab : cmp a b with
  | gt => contradiction
  | eq =>
      rw [TiedCmp.congr_second ab] at three
      have tie : cmp b c = .eq := by
        cases bc : cmp b c with
        | gt => contradiction
        | eq => rfl
        | lt => exact absurd (OrientedCmp.gt_of_lt bc) three
      exact .inr ⟨rfl, tie⟩
  | lt =>
      cases bc : cmp b c with
      | gt => contradiction
      | eq =>
          rw [TiedCmp.congr_second bc] at ab
          exact absurd (OrientedCmp.gt_of_lt ab) three
      | lt =>
          cases ca : cmp c a with
          | gt => contradiction
          | eq =>
              rw [← TiedCmp.congr ca] at ab
              exact absurd (OrientedCmp.gt_of_lt ab) two
          | lt => exact .inl ⟨ab, bc, ca⟩

theorem tie_closes [TiedCmp cmp] {a b c : α} (ab : cmp a b = .eq) (bc : cmp b c = .eq) :
    cmp c a = .eq := by
  rw [TiedCmp.congr_second ab]
  exact OrientedCmp.eq_symm bc

theorem ne_gt_of_then {one other : Ordering} (before : one.then other = .lt) : one ≠ .gt := by
  intro behind
  rw [behind] at before
  contradiction

/-- A circle of two comparators in turn is one of the first, or one of the second
among items that the first ties. -/
theorem circle_compareLex_iff [TiedCmp first] [TiedCmp second] {a b c : α} :
    Circle (compareLex first second) a b c ↔
      Circle first a b c ∨
        first a b = .eq ∧ first b c = .eq ∧ Circle second a b c := by
  constructor
  · rintro ⟨one, two, three⟩
    rcases circle_or_ties (ne_gt_of_then one) (ne_gt_of_then two) (ne_gt_of_then three) with
      circle | ⟨ab, bc⟩
    · exact .inl circle
    · simp only [compareLex, ab, bc, tie_closes ab bc, Ordering.eq_then] at one two three
      exact .inr ⟨ab, bc, one, two, three⟩
  · rintro (⟨one, two, three⟩ | ⟨ab, bc, one, two, three⟩)
    · exact ⟨by simp [compareLex, one], by simp [compareLex, two], by simp [compareLex, three]⟩
    · exact ⟨by simp [compareLex, ab, one], by simp [compareLex, bc, two],
        by simp [compareLex, tie_closes ab bc, three]⟩

instance [TiedCmp cmp] : TiedCmp (List.compareLex cmp) where
  congr {as bs} tie cs := by
    induction as generalizing bs cs with
    | nil => rw [List.compareLex_nil_left_eq_eq.mp tie]
    | cons a as ih =>
        cases bs with
        | nil => simp [List.compareLex_cons_nil] at tie
        | cons b bs =>
            rw [List.compareLex_cons_cons, Ordering.then_eq_eq] at tie
            cases cs with
            | nil => rw [List.compareLex_cons_nil, List.compareLex_cons_nil]
            | cons c cs =>
                rw [List.compareLex_cons_cons, List.compareLex_cons_cons, TiedCmp.congr tie.1,
                  ih tie.2]

/-- Three lists that tie up to a place with the given items. -/
inductive MeetAt (cmp : α → α → Ordering) (a b c : α) : List α → List α → List α → Prop where
  | here (as bs cs : List α) : MeetAt cmp a b c (a :: as) (b :: bs) (c :: cs)
  | behind {x y z : α} {as bs cs : List α} (xy : cmp x y = .eq) (yz : cmp y z = .eq)
      (later : MeetAt cmp a b c as bs cs) : MeetAt cmp a b c (x :: as) (y :: bs) (z :: cs)

theorem MeetAt.rotate [TiedCmp cmp] {a b c : α} {as bs cs : List α}
    (meet : MeetAt cmp a b c as bs cs) : MeetAt cmp b c a bs cs as := by
  induction meet with
  | here as bs cs => exact .here bs cs as
  | behind xy yz _ ih => exact .behind yz (tie_closes xy yz) ih

/-- Three lists run in a circle exactly if three items do at the first place where
the lists differ. -/
theorem circle_list_iff [TiedCmp cmp] {as bs cs : List α} :
    Circle (List.compareLex cmp) as bs cs ↔
      ∃ a b c, MeetAt cmp a b c as bs cs ∧ Circle cmp a b c := by
  constructor
  · intro circle
    induction as generalizing bs cs with
    | nil =>
        cases cs with
        | nil => cases circle.three
        | cons c cs => cases circle.three
    | cons a as ih =>
        cases bs with
        | nil => cases circle.one
        | cons b bs =>
            cases cs with
            | nil => cases circle.two
            | cons c cs =>
                obtain ⟨one, two, three⟩ := circle
                rw [List.compareLex_cons_cons] at one two three
                rcases circle_or_ties (ne_gt_of_then one) (ne_gt_of_then two)
                  (ne_gt_of_then three) with circle | ⟨ab, bc⟩
                · exact ⟨a, b, c, .here as bs cs, circle⟩
                · simp only [ab, bc, tie_closes ab bc, Ordering.eq_then] at one two three
                  obtain ⟨x, y, z, meet, circle⟩ := ih ⟨one, two, three⟩
                  exact ⟨x, y, z, .behind ab bc meet, circle⟩
  · rintro ⟨a, b, c, meet, circle⟩
    induction meet with
    | here as bs cs =>
        exact ⟨by simp [List.compareLex_cons_cons, circle.one],
          by simp [List.compareLex_cons_cons, circle.two],
          by simp [List.compareLex_cons_cons, circle.three]⟩
    | behind xy yz later ih =>
        exact ⟨by simp [List.compareLex_cons_cons, xy, ih.one],
          by simp [List.compareLex_cons_cons, yz, ih.two],
          by simp [List.compareLex_cons_cons, tie_closes xy yz, ih.three]⟩

/-! ## Contracts and sorting -/

/-- What a comparator owes to a sort, on the items of a list. -/
structure Contract (cmp : α → α → Ordering) (items : List α) : Prop where
  swap : ∀ a ∈ items, ∀ b ∈ items, cmp a b = (cmp b a).swap
  trans : ∀ a ∈ items, ∀ b ∈ items, ∀ c ∈ items,
    cmp a b = .gt → cmp b c = .gt → cmp a c = .gt
  tie : ∀ a ∈ items, ∀ b ∈ items, ∀ c ∈ items, cmp a b = .eq → cmp a c = cmp b c

theorem contract_iff [TiedCmp cmp] {items : List α} :
    Contract cmp items ↔ ∀ a ∈ items, ∀ b ∈ items, ∀ c ∈ items, ¬Circle cmp a b c := by
  constructor
  · intro contract a aIn b bIn c cIn circle
    have ca := contract.trans c cIn b bIn a aIn (OrientedCmp.gt_of_lt circle.two)
      (OrientedCmp.gt_of_lt circle.one)
    rw [circle.three] at ca
    contradiction
  · intro none
    constructor
    · intro a _ b _
      exact OrientedCmp.eq_swap
    · intro a aIn b bIn c cIn ab bc
      cases ac : cmp a c with
      | gt => rfl
      | eq =>
          rw [TiedCmp.congr ac] at ab
          exact absurd ab (OrientedCmp.not_gt_of_gt bc)
      | lt =>
          exact absurd ⟨ac, OrientedCmp.lt_of_gt bc, OrientedCmp.lt_of_gt ab⟩
            (none a aIn c cIn b bIn)
    · intro a _ b _ c _ ab
      exact TiedCmp.congr ab c

/-- How many items are before a given one. -/
def rank (cmp : α → α → Ordering) (items : List α) (item : α) : Nat :=
  items.countP fun other => cmp other item = .lt

theorem countP_lt_countP {p q : α → Bool} {items : List α} {item : α} (member : item ∈ items)
    (implies : ∀ a ∈ items, p a = true → q a = true) (outside : p item = false)
    (inside : q item = true) : items.countP p < items.countP q := by
  obtain ⟨before, behind, rfl⟩ := List.append_of_mem member
  have inFront : before.countP p ≤ before.countP q :=
    List.countP_mono_left fun a aIn => implies a (by simp [aIn])
  have inBack : behind.countP p ≤ behind.countP q :=
    List.countP_mono_left fun a aIn => implies a (by simp [aIn])
  simp only [List.countP_append, List.countP_cons, outside, inside]
  simp only [Bool.false_eq_true, if_false, if_true]
  omega

section Rank

variable {items : List α} (contract : Contract cmp items)

include contract

theorem Contract.self {a : α} (member : a ∈ items) : cmp a a = .eq :=
  Ordering.eq_eq_of_eq_swap (contract.swap a member a member)

theorem Contract.rank_of_eq {a b : α} (aIn : a ∈ items) (bIn : b ∈ items) (tie : cmp a b = .eq) :
    rank cmp items a = rank cmp items b := by
  apply List.countP_congr
  intro other otherIn
  have same : cmp other a = cmp other b := by
    rw [contract.swap other otherIn a aIn, contract.tie a aIn b bIn other otherIn tie,
      ← contract.swap other otherIn b bIn]
  rw [same]

theorem Contract.rank_of_lt {a b : α} (aIn : a ∈ items) (bIn : b ∈ items) (before : cmp a b = .lt) :
    rank cmp items a < rank cmp items b := by
  apply countP_lt_countP aIn
  · intro other otherIn earlier
    rw [decide_eq_true_eq] at earlier ⊢
    have behind : cmp b a = .gt := by
      rw [contract.swap b bIn a aIn, before]
      rfl
    have further : cmp a other = .gt := by
      rw [contract.swap a aIn other otherIn, earlier]
      rfl
    have last := contract.trans b bIn a aIn other otherIn behind further
    rw [contract.swap other otherIn b bIn, last]
    rfl
  · rw [contract.self aIn]
    rfl
  · rw [before]
    rfl

theorem Contract.rank_le_iff {a b : α} (aIn : a ∈ items) (bIn : b ∈ items) :
    rank cmp items a ≤ rank cmp items b ↔ cmp a b ≠ .gt := by
  cases order : cmp a b with
  | lt => simp [(contract.rank_of_lt aIn bIn order).le]
  | eq => simp [contract.rank_of_eq aIn bIn order]
  | gt =>
      have before : cmp b a = .lt := by
        rw [contract.swap b bIn a aIn, order]
        rfl
      simp [contract.rank_of_lt bIn aIn before]

theorem Contract.eq_of_rank {a b : α} (aIn : a ∈ items) (bIn : b ∈ items)
    (same : rank cmp items a = rank cmp items b) : cmp a b = .eq := by
  have notBehind := (contract.rank_le_iff aIn bIn).mp same.le
  have notBefore := (contract.rank_le_iff bIn aIn).mp same.ge
  rw [contract.swap b bIn a aIn] at notBefore
  cases order : cmp a b with
  | lt => simp [order] at notBefore
  | eq => rfl
  | gt => contradiction

/-- Two sorted arrangements of the items agree up to ties. -/
theorem Contract.sorted_unique {out out' : List α} (perm : out.Perm items)
    (perm' : out'.Perm items) (sorted : out.Pairwise (cmp · · ≠ .gt))
    (sorted' : out'.Pairwise (cmp · · ≠ .gt)) : List.Forall₂ (cmp · · = .eq) out out' := by
  have ranked : ∀ {list : List α}, list.Perm items → list.Pairwise (cmp · · ≠ .gt) →
      (list.map (rank cmp items)).Pairwise (· ≤ ·) := by
    intro list listPerm listSorted
    rw [List.pairwise_map]
    refine listSorted.imp_of_mem ?_
    intro a b aIn bIn notBehind
    exact (contract.rank_le_iff (listPerm.mem_iff.mp aIn) (listPerm.mem_iff.mp bIn)).mpr notBehind
  have equal : out.map (rank cmp items) = out'.map (rank cmp items) :=
    List.Perm.eq_of_pairwise' (ranked perm sorted) (ranked perm' sorted')
      ((perm.trans perm'.symm).map _)
  have sameRanks : List.Forall₂ (fun a b => rank cmp items a = rank cmp items b) out out' := by
    rw [← List.forall₂_eq_eq_eq, List.forall₂_map_left_iff, List.forall₂_map_right_iff] at equal
    exact equal
  rw [List.forall₂_iff_zip] at sameRanks ⊢
  refine ⟨sameRanks.1, ?_⟩
  intro a b pair
  have members := List.of_mem_zip pair
  exact contract.eq_of_rank (perm.mem_iff.mp members.1) (perm'.mem_iff.mp members.2)
    (sameRanks.2 pair)

end Rank

/-- A sort as the library of the language promises it: for a lawful comparator it
returns the items in order, otherwise it may throw. -/
structure ListSort (α : Type u) where
  sort : (α → α → Ordering) → List α → Option (List α)
  sorts : ∀ {cmp items}, Contract cmp items →
    ∃ out, sort cmp items = some out ∧ out.Perm items ∧ out.Pairwise (cmp · · ≠ .gt)

/-- The same by insertion, which computes. -/
def ListSort.byInsertion : ListSort α where
  sort cmp items := some (items.insertionSort fun a b => rank cmp items a ≤ rank cmp items b)
  sorts {cmp items} contract := by
    refine ⟨_, rfl, List.perm_insertionSort _ items, ?_⟩
    have total : Std.Total fun a b => rank cmp items a ≤ rank cmp items b :=
      ⟨fun _ _ => Nat.le_total _ _⟩
    have transitive : IsTrans α fun a b => rank cmp items a ≤ rank cmp items b :=
      ⟨fun _ _ _ => Nat.le_trans⟩
    refine (List.pairwise_insertionSort _ items).imp_of_mem ?_
    intro a b aIn bIn ordered
    rw [List.mem_insertionSort] at aIn bIn
    exact (contract.rank_le_iff aIn bIn).mp ordered

/-- The comparator is lawful on the items, and every sort of any arrangement of
them gives the same result, up to ties. -/
structure SortsWell (cmp : α → α → Ordering) (items : List α) : Prop where
  contract : Contract cmp items
  agrees : ∀ (by_ : ListSort α) (other : List α), other.Perm items →
    ∃ out out', by_.sort cmp items = some out ∧ by_.sort cmp other = some out' ∧
      List.Forall₂ (cmp · · = .eq) out out'

theorem Contract.of_perm {items other : List α} (contract : Contract cmp items)
    (perm : other.Perm items) : Contract cmp other where
  swap a aIn b bIn := contract.swap a (perm.mem_iff.mp aIn) b (perm.mem_iff.mp bIn)
  trans a aIn b bIn c cIn :=
    contract.trans a (perm.mem_iff.mp aIn) b (perm.mem_iff.mp bIn) c (perm.mem_iff.mp cIn)
  tie a aIn b bIn c cIn :=
    contract.tie a (perm.mem_iff.mp aIn) b (perm.mem_iff.mp bIn) c (perm.mem_iff.mp cIn)

/-- Comparators that agree on the items are both lawful on them. -/
theorem Contract.congr {other : α → α → Ordering} {items : List α} (contract : Contract cmp items)
    (agrees : ∀ a ∈ items, ∀ b ∈ items, other a b = cmp a b) : Contract other items where
  swap a aIn b bIn := by
    rw [agrees a aIn b bIn, agrees b bIn a aIn]
    exact contract.swap a aIn b bIn
  trans a aIn b bIn c cIn := by
    rw [agrees a aIn b bIn, agrees b bIn c cIn, agrees a aIn c cIn]
    exact contract.trans a aIn b bIn c cIn
  tie a aIn b bIn c cIn := by
    rw [agrees a aIn b bIn, agrees a aIn c cIn, agrees b bIn c cIn]
    exact contract.tie a aIn b bIn c cIn

/-- Without circles, sorting does not depend on the arrangement. -/
theorem sortsWell_iff [TiedCmp cmp] {items : List α} :
    SortsWell cmp items ↔ ∀ a ∈ items, ∀ b ∈ items, ∀ c ∈ items, ¬Circle cmp a b c := by
  rw [← contract_iff]
  constructor
  · exact SortsWell.contract
  · intro contract
    refine ⟨contract, ?_⟩
    intro by_ other perm
    obtain ⟨out, returns, outPerm, sorted⟩ := by_.sorts contract
    obtain ⟨out', returns', outPerm', sorted'⟩ := by_.sorts (contract.of_perm perm)
    exact ⟨out, out', returns, returns',
      contract.sorted_unique outPerm (outPerm'.trans perm) sorted sorted'⟩

end RoundSync.Data
