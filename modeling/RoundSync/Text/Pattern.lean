import Mathlib.Data.List.Basic

/-!
# Regular expressions over classes of symbols

A pattern is built from classes of symbols, so that it can be written down the
way a program states it.  `Matches` says which words it describes, and
`accepts` decides that with derivatives.
-/

namespace RoundSync.Text

universe u

inductive Pattern (α : Type u) : Type u
  | nothing
  | empty
  | one (admits : α → Bool)
  | seq (first second : Pattern α)
  | alt (first second : Pattern α)
  | star (body : Pattern α)

namespace Pattern

variable {α : Type u}

def plus (body : Pattern α) : Pattern α :=
  seq body (star body)

def opt (body : Pattern α) : Pattern α :=
  alt empty body

def times (body : Pattern α) : Nat → Pattern α
  | 0 => empty
  | n + 1 => seq body (times body n)

def word [DecidableEq α] : List α → Pattern α
  | [] => empty
  | a :: w => seq (one fun b => b = a) (word w)

inductive Matches : Pattern α → List α → Prop
  | empty : Matches empty []
  | one {admits : α → Bool} {a : α} (admitted : admits a = true) : Matches (one admits) [a]
  | seq {first second : Pattern α} {v w : List α} (left : Matches first v)
      (right : Matches second w) : Matches (seq first second) (v ++ w)
  | altLeft {first second : Pattern α} {w : List α} (left : Matches first w) :
      Matches (alt first second) w
  | altRight {first second : Pattern α} {w : List α} (right : Matches second w) :
      Matches (alt first second) w
  | starNil {body : Pattern α} : Matches (star body) []
  | starCons {body : Pattern α} {v w : List α} (once : Matches body v)
      (again : Matches (star body) w) : Matches (star body) (v ++ w)

/-! ## Derivatives -/

/-- The pattern describes the empty word. -/
def nullable : Pattern α → Bool
  | nothing | one _ => false
  | empty | star _ => true
  | seq first second => first.nullable && second.nullable
  | alt first second => first.nullable || second.nullable

/-- What may follow a first symbol. -/
def derive (a : α) : Pattern α → Pattern α
  | nothing | empty => nothing
  | one admits => if admits a then empty else nothing
  | seq first second =>
      if first.nullable then alt (seq (derive a first) second) (derive a second)
      else seq (derive a first) second
  | alt first second => alt (derive a first) (derive a second)
  | star body => seq (derive a body) (star body)

def accepts : Pattern α → List α → Bool
  | pattern, [] => pattern.nullable
  | pattern, a :: w => (pattern.derive a).accepts w

theorem nullable_iff {pattern : Pattern α} : pattern.nullable = true ↔ Matches pattern [] := by
  constructor
  · intro isNullable
    induction pattern with
    | nothing => cases isNullable
    | empty => exact .empty
    | one admits => cases isNullable
    | seq first second firstIh secondIh =>
        rw [nullable, Bool.and_eq_true] at isNullable
        exact .seq (firstIh isNullable.1) (secondIh isNullable.2)
    | alt first second firstIh secondIh =>
        rw [nullable, Bool.or_eq_true] at isNullable
        rcases isNullable with left | right
        · exact .altLeft (firstIh left)
        · exact .altRight (secondIh right)
    | star body ih => exact .starNil
  · intro described
    generalize isNil : ([] : List α) = w at described
    induction described with
    | empty => rfl
    | one admitted => cases isNil
    | seq left right leftIh rightIh =>
        obtain ⟨rfl, rfl⟩ := List.append_eq_nil_iff.mp isNil.symm
        simp [nullable, leftIh rfl, rightIh rfl]
    | altLeft left ih => simp [nullable, ih isNil]
    | altRight right ih => simp [nullable, ih isNil]
    | starNil => rfl
    | starCons once again onceIh againIh => rfl

theorem Matches.of_derive {pattern : Pattern α} {a : α} {w : List α}
    (described : Matches (pattern.derive a) w) : Matches pattern (a :: w) := by
  induction pattern generalizing w with
  | nothing => cases described
  | empty => cases described
  | one admits =>
      rw [derive] at described
      split at described
      · rename_i admitted
        cases described
        exact .one admitted
      · cases described
  | seq first second firstIh secondIh =>
      rw [derive] at described
      split at described
      · rename_i isNullable
        cases described with
        | altLeft left =>
            cases left with
            | seq left right => exact .seq (firstIh left) right
        | altRight right => exact .seq (nullable_iff.mp isNullable) (secondIh right)
      · cases described with
        | seq left right => exact .seq (firstIh left) right
  | alt first second firstIh secondIh =>
      cases described with
      | altLeft left => exact .altLeft (firstIh left)
      | altRight right => exact .altRight (secondIh right)
  | star body ih =>
      cases described with
      | seq left right => exact .starCons (ih left) right

theorem Matches.derive {pattern : Pattern α} {a : α} {w : List α}
    (described : Matches pattern (a :: w)) : Matches (pattern.derive a) w := by
  generalize isCons : a :: w = whole at described
  induction described generalizing w with
  | empty => cases isCons
  | one admitted =>
      cases isCons
      rw [Pattern.derive, if_pos admitted]
      exact .empty
  | @seq first second u v left right leftIh rightIh =>
      rw [Pattern.derive]
      cases u with
      | nil =>
          rw [if_pos (nullable_iff.mpr left)]
          exact .altRight (rightIh isCons)
      | cons b u =>
          obtain ⟨rfl, rfl⟩ := List.cons.inj isCons
          have derived := Matches.seq (leftIh rfl) right
          split
          · exact .altLeft derived
          · exact derived
  | altLeft left ih => exact .altLeft (ih isCons)
  | altRight right ih => exact .altRight (ih isCons)
  | starNil => cases isCons
  | @starCons body u v once again onceIh againIh =>
      cases u with
      | nil => exact againIh isCons
      | cons b u =>
          obtain ⟨rfl, rfl⟩ := List.cons.inj isCons
          exact .seq (onceIh rfl) again

/-- Derivatives decide which words a pattern describes. -/
theorem accepts_iff {pattern : Pattern α} {w : List α} :
    pattern.accepts w = true ↔ Matches pattern w := by
  induction w generalizing pattern with
  | nil => exact nullable_iff
  | cons a w ih => exact ih.trans ⟨.of_derive, .derive⟩

/-! ## Words of classes -/

/-- Every class of the pattern is part of `P`. -/
def Within (P : α → Prop) : Pattern α → Prop
  | nothing | empty => True
  | one admits => ∀ a, admits a = true → P a
  | seq first second | alt first second => Within P first ∧ Within P second
  | star body => Within P body

/-- The words of a pattern consist of the symbols of its classes. -/
theorem Matches.within {P : α → Prop} {pattern : Pattern α} {w : List α}
    (described : Matches pattern w) (within : Within P pattern) : ∀ a ∈ w, P a := by
  induction described with
  | empty => exact fun _ member => absurd member List.not_mem_nil
  | one admitted => exact fun a member => List.mem_singleton.mp member ▸ within _ admitted
  | seq left right leftIh rightIh =>
      intro a member
      rcases List.mem_append.mp member with member | member
      · exact leftIh within.1 a member
      · exact rightIh within.2 a member
  | altLeft left ih => exact ih within.1
  | altRight right ih => exact ih within.2
  | starNil => exact fun _ member => absurd member List.not_mem_nil
  | starCons once again onceIh againIh =>
      intro a member
      rcases List.mem_append.mp member with member | member
      · exact onceIh within a member
      · exact againIh within a member

theorem Matches.plus_one {admits : α → Bool} {w : List α}
    (described : Matches (plus (Pattern.one admits)) w) : w ≠ [] ∧ ∀ a ∈ w, admits a = true := by
  constructor
  · cases described with
    | seq left right =>
        cases left with
        | one admitted => exact List.cons_ne_nil _ _
  · exact described.within ⟨fun _ admitted => admitted, fun _ admitted => admitted⟩

theorem star_one {admits : α → Bool} {w : List α} (all : ∀ a ∈ w, admits a = true) :
    Matches (star (Pattern.one admits)) w := by
  induction w with
  | nil => exact .starNil
  | cons a w ih =>
      exact .starCons (.one (all a List.mem_cons_self))
        (ih fun b member => all b (List.mem_cons_of_mem a member))

theorem plus_one_iff {admits : α → Bool} {w : List α} :
    Matches (plus (Pattern.one admits)) w ↔ w ≠ [] ∧ ∀ a ∈ w, admits a = true := by
  constructor
  · exact Matches.plus_one
  · rintro ⟨nonempty, all⟩
    cases w with
    | nil => contradiction
    | cons a w =>
        exact .seq (.one (all a List.mem_cons_self))
          (star_one fun b member => all b (List.mem_cons_of_mem a member))

theorem times_one_iff {admits : α → Bool} {n : Nat} {w : List α} :
    Matches (times (Pattern.one admits) n) w ↔ w.length = n ∧ ∀ a ∈ w, admits a = true := by
  induction n generalizing w with
  | zero =>
      constructor
      · intro described
        cases described
        exact ⟨rfl, fun a member => by cases member⟩
      · rintro ⟨short, _⟩
        rw [List.length_eq_zero_iff.mp short]
        exact .empty
  | succ n inductionHypothesis =>
      constructor
      · intro described
        cases described with
        | seq left right =>
            cases left with
            | @one _ a admitted =>
                rcases inductionHypothesis.mp right with ⟨rest, all⟩
                constructor
                · simp [rest]
                · simpa [admitted] using all
      · rintro ⟨long, all⟩
        cases w with
        | nil => cases long
        | cons a w =>
            exact .seq (v := [a]) (.one (all a List.mem_cons_self)) (inductionHypothesis.mpr
              ⟨Nat.succ.inj long, fun b member => all b (List.mem_cons_of_mem a member)⟩)

theorem word_iff [DecidableEq α] {v w : List α} : Matches (word v) w ↔ w = v := by
  induction v generalizing w with
  | nil =>
      constructor
      · intro described
        cases described
        rfl
      · rintro rfl
        exact .empty
  | cons a v inductionHypothesis =>
      constructor
      · intro described
        cases described with
        | seq left right =>
            cases left with
            | one admitted =>
                rw [inductionHypothesis.mp right, of_decide_eq_true admitted]
                rfl
      · rintro rfl
        exact .seq (v := [a]) (.one (decide_eq_true rfl)) (inductionHypothesis.mpr rfl)

/-- The last symbol of the word, if there is one, is in `P`. -/
def EndsIn (P : α → Prop) (w : List α) : Prop :=
  ∀ a, w.getLast? = some a → P a

theorem EndsIn.of_forall {P : α → Prop} {w : List α} (all : ∀ a ∈ w, P a) : EndsIn P w :=
  fun a isLast => all a (List.mem_of_getLast? isLast)

theorem EndsIn.append {P : α → Prop} {v w : List α} (left : w = [] → EndsIn P v)
    (right : EndsIn P w) : EndsIn P (v ++ w) := by
  intro a isLast
  rw [List.getLast?_append] at isLast
  cases atEnd : w.getLast? with
  | none =>
      rw [atEnd, Option.none_or] at isLast
      exact left (List.getLast?_eq_none_iff.mp atEnd) a isLast
  | some b =>
      rw [atEnd, Option.some_or] at isLast
      exact right a (isLast ▸ atEnd)

/-- A repetition ends as its last part does. -/
theorem Matches.endsIn_star {P : α → Prop} {body : Pattern α} {w : List α}
    (described : Matches (star body) w) (ends : ∀ v, Matches body v → EndsIn P v) :
    EndsIn P w := by
  generalize isStar : star body = pattern at described
  induction described with
  | starNil => exact fun _ isLast => nomatch isLast
  | starCons once again _ againIh =>
      cases isStar
      exact EndsIn.append (fun _ => ends _ once) (againIh rfl)
  | _ => cases isStar

end Pattern

end RoundSync.Text
