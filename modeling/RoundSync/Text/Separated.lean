import Mathlib.Data.List.Basic
import Mathlib.Data.List.DropRight
import Mathlib.Data.List.Infix

/-!
# Words divided by a separator

A list of parts, none of which contains the separator, can be recovered from
the word in which every part is preceded by the separator.  The prefix order on
such words is the prefix order on the lists of parts, as soon as the shorter
word is closed by one more separator.
-/

namespace RoundSync.Text

universe u

variable {α : Type u}

/-- Every part preceded by the separator. -/
def rooted (sep : α) (parts : List (List α)) : List α :=
  parts.flatMap (sep :: ·)

@[simp]
theorem rooted_nil (sep : α) : rooted sep [] = [] :=
  rfl

@[simp]
theorem rooted_cons (sep : α) (part : List α) (parts : List (List α)) :
    rooted sep (part :: parts) = sep :: (part ++ rooted sep parts) := by
  simp [rooted]

theorem rooted_append (sep : α) (first second : List (List α)) :
    rooted sep (first ++ second) = rooted sep first ++ rooted sep second := by
  simp [rooted]

/-- None of the parts contains the separator. -/
def Separates (sep : α) (parts : List (List α)) : Prop :=
  ∀ part ∈ parts, sep ∉ part

theorem Separates.tail {sep : α} {part : List α} {parts : List (List α)}
    (separates : Separates sep (part :: parts)) : Separates sep parts :=
  fun other member => separates other (List.mem_cons_of_mem part member)

/-- Two words that agree up to the first separator have equal first parts. -/
theorem append_sep_inj {sep : α} {left right leftRest rightRest : List α}
    (leftFree : sep ∉ left) (rightFree : sep ∉ right)
    (equal : left ++ sep :: leftRest = right ++ sep :: rightRest) :
    left = right ∧ leftRest = rightRest := by
  induction left generalizing right with
  | nil =>
      cases right with
      | nil => exact ⟨rfl, (List.cons.inj equal).2⟩
      | cons head tail =>
          have headEq : sep = head := (List.cons.inj equal).1
          exact absurd (headEq ▸ List.mem_cons_self) rightFree
  | cons head tail ih =>
      cases right with
      | nil =>
          have headEq : head = sep := (List.cons.inj equal).1
          exact absurd (headEq ▸ List.mem_cons_self) leftFree
      | cons head' tail' =>
          obtain ⟨rfl, restEq⟩ := List.cons.inj equal
          have parts := ih (fun member => leftFree (List.mem_cons_of_mem _ member))
            (fun member => rightFree (List.mem_cons_of_mem _ member)) restEq
          exact ⟨congrArg (head :: ·) parts.1, parts.2⟩

/-- A word closed by a separator is a prefix of another exactly when its parts
are a proper prefix of the other's parts. -/
theorem rooted_append_sep_prefix_iff {sep : α} {root parts : List (List α)}
    (rootSep : Separates sep root) (partsSep : Separates sep parts) :
    rooted sep root ++ [sep] <+: rooted sep parts ↔ root <+: parts ∧ root ≠ parts := by
  induction root generalizing parts with
  | nil =>
      cases parts with
      | nil => simp
      | cons part parts => simp
  | cons first root ih =>
      cases parts with
      | nil => simp
      | cons part parts =>
          have inductionHypothesis := ih rootSep.tail partsSep.tail
          have firstFree := rootSep first List.mem_cons_self
          have partFree := partsSep part List.mem_cons_self
          simp only [rooted_cons, List.cons_append, List.cons_prefix_cons, true_and,
            List.append_assoc, ne_eq, List.cons.injEq, not_and]
          constructor
          · rintro ⟨rest, equal⟩
            -- both tails start with a separator, so the first parts are equal
            have partEq : first = part := by
              cases root with
              | nil =>
                  cases parts with
                  | nil =>
                      have member : sep ∈ part := by
                        have : part = first ++ sep :: rest := by simpa using equal.symm
                        simp [this]
                      exact absurd member partFree
                  | cons next parts =>
                      have closed : first ++ sep :: rest =
                          part ++ sep :: (next ++ rooted sep parts) := by
                        simpa using equal
                      exact (append_sep_inj firstFree partFree closed).1
              | cons next root =>
                  cases parts with
                  | nil =>
                      have member : sep ∈ part := by
                        have : part = first ++ (sep :: (next ++ rooted sep root)) ++ [sep] ++ rest := by
                          simpa using equal.symm
                        simp [this]
                      exact absurd member partFree
                  | cons other parts =>
                      have closed : first ++ sep :: (next ++ rooted sep root ++ [sep] ++ rest) =
                          part ++ sep :: (other ++ rooted sep parts) := by
                        simpa using equal
                      exact (append_sep_inj firstFree partFree closed).1
            subst part
            have tailPrefix : rooted sep root ++ [sep] <+: rooted sep parts :=
              ⟨rest, by simpa using equal⟩
            obtain ⟨rootPrefix, rootNe⟩ := inductionHypothesis.mp tailPrefix
            exact ⟨⟨rfl, rootPrefix⟩, fun _ => rootNe⟩
          · rintro ⟨⟨rfl, rootPrefix⟩, rootNe⟩
            have tailPrefix := inductionHypothesis.mpr ⟨rootPrefix, rootNe rfl⟩
            exact (List.prefix_append_right_inj first).mpr tailPrefix

/-- A word that is not closed is a prefix of another exactly when its last part
is a prefix of the other's part at the same place, and the parts before are the
other's. -/
theorem rooted_prefix_iff {sep : α} {root parts : List (List α)}
    (rootSep : Separates sep root) (partsSep : Separates sep parts) :
    rooted sep root <+: rooted sep parts ↔
      root = [] ∨ ∃ front last longer rest, root = front ++ [last] ∧
        parts = front ++ longer :: rest ∧ last <+: longer := by
  constructor
  · intro isStart
    rcases List.eq_nil_or_concat root with rfl | ⟨front, last, rfl⟩
    · exact .inl rfl
    · right
      rw [List.concat_eq_append] at isStart rootSep ⊢
      have frontSep : Separates sep front := fun part member =>
        rootSep part (List.mem_append_left _ member)
      have closed : rooted sep front ++ [sep] <+: rooted sep parts := by
        refine List.IsPrefix.trans ?_ isStart
        exact ⟨last, by simp [rooted_append]⟩
      obtain ⟨⟨others, rfl⟩, different⟩ :=
        (rooted_append_sep_prefix_iff frontSep partsSep).mp closed
      cases others with
      | nil => exact absurd (List.append_nil front).symm different
      | cons longer rest =>
          refine ⟨front, last, longer, rest, rfl, rfl, ?_⟩
          have tails : last <+: longer ++ rooted sep rest := by
            simpa [rooted_append] using isStart
          have lastFree : sep ∉ last := rootSep last (by simp)
          cases rest with
          | nil => simpa using tails
          | cons next rest =>
              rcases List.prefix_or_prefix_of_prefix tails (List.prefix_append longer _) with
                shorter | ⟨more, rfl⟩
              · exact shorter
              · rw [List.prefix_append_right_inj] at tails
                cases more with
                | nil => simp
                | cons first more =>
                    rw [rooted_cons, List.cons_prefix_cons] at tails
                    exact absurd (by simp [tails.1]) lastFree
  · rintro (rfl | ⟨front, last, longer, rest, rfl, rfl, shorter⟩)
    · exact List.nil_prefix
    · obtain ⟨more, rfl⟩ := shorter
      exact ⟨more ++ rooted sep rest, by simp [rooted_append]⟩

variable [DecidableEq α]

/-- Cutting a word at its first separator. -/
theorem takeWhile_append_sep {sep : α} {first : List α} (free : sep ∉ first) (rest : List α) :
    (first ++ sep :: rest).takeWhile (· ≠ sep) = first ∧
      (first ++ sep :: rest).dropWhile (· ≠ sep) = sep :: rest := by
  have others : ∀ a ∈ first, decide (a ≠ sep) = true := by
    intro a member
    exact decide_eq_true fun equal => free (equal ▸ member)
  rw [List.takeWhile_append_of_pos others, List.dropWhile_append_of_pos others]
  simp

/-- Cutting a word at its last separator. -/
theorem rdropWhile_append_sep {sep : α} {last : List α} (free : sep ∉ last) (rest : List α) :
    (rest ++ sep :: last).rdropWhile (· ≠ sep) = rest ++ [sep] := by
  have reversed : sep ∉ last.reverse := by simpa using free
  have word : (rest ++ sep :: last).reverse = last.reverse ++ sep :: rest.reverse := by simp
  rw [List.rdropWhile, word, (takeWhile_append_sep reversed _).2]
  simp

/-- Splitting a rooted word gives back its parts, after the empty word before
the first separator. -/
theorem splitOn_rooted {sep : α} {parts : List (List α)} (separates : Separates sep parts) :
    (rooted sep parts).splitOn sep = [] :: parts := by
  have asIntercalate : rooted sep parts = [sep].intercalate ([] :: parts) := by
    induction parts with
    | nil => rfl
    | cons part parts ih =>
        rw [rooted_cons, ih separates.tail]
        cases parts with
        | nil => simp [List.intercalate]
        | cons next parts => simp [List.intercalate]
  rw [asIntercalate]
  refine List.splitOn_intercalate sep (fun part member => ?_) (List.cons_ne_nil _ _)
  rcases List.mem_cons.mp member with rfl | member
  · simp
  · exact separates part member

/-! ## Parts of any word -/

section Parts

/-- The parts of a word that are not empty: repeated separators count once, and
separators at either end do not count. -/
def parts (sep : α) (word : List α) : List (List α) :=
  (word.splitOn sep).filter (· ≠ [])

@[simp]
theorem parts_nil (sep : α) : parts sep [] = [] :=
  rfl

@[simp]
theorem parts_append_sep (sep : α) (first second : List α) :
    parts sep (first ++ sep :: second) = parts sep first ++ parts sep second := by
  unfold parts
  rw [List.splitOn_append_cons_of_beq first second (beq_self_eq_true sep), List.filter_append]

@[simp]
theorem parts_sep_cons (sep : α) (word : List α) : parts sep (sep :: word) = parts sep word :=
  parts_append_sep sep [] word

/-- A word that is closed by a separator keeps its parts in front of any other. -/
theorem parts_append_of_closed {sep : α} {front : List α}
    (closed : front = [] ∨ ∃ open_, front = open_ ++ [sep]) (word : List α) :
    parts sep (front ++ word) = parts sep front ++ parts sep word := by
  rcases closed with rfl | ⟨open_, rfl⟩
  · rfl
  · rw [List.append_assoc, List.singleton_append, parts_append_sep, parts_append_sep, parts_nil,
      List.append_nil]

end Parts

/-! ## Rewriting each part -/

section Rewriting

theorem exists_firstPart (sep : α) (word : List α) :
    sep ∉ word ∨ ∃ first rest, word = first ++ sep :: rest ∧ sep ∉ first := by
  by_cases mem : sep ∈ word
  · exact Or.inr (List.eq_append_cons_of_mem mem)
  · exact Or.inl mem

theorem exists_lastPart (sep : α) (word : List α) :
    sep ∉ word ∨ ∃ front last, word = front ++ sep :: last ∧ sep ∉ last := by
  rcases exists_firstPart sep word.reverse with free | ⟨last, front, split, free⟩
  · exact Or.inl (by simpa using free)
  · refine Or.inr ⟨front.reverse, last.reverse, ?_, by simpa using free⟩
    rw [← List.reverse_reverse word, split]
    simp

theorem splitOn_append_sep (sep : α) (first second : List α) :
    (first ++ sep :: second).splitOn sep = first.splitOn sep ++ second.splitOn sep :=
  List.splitOn_append_cons_of_beq first second (beq_self_eq_true sep)

omit [DecidableEq α] in
theorem intercalate_append (sep : α) {first second : List (List α)} (left : first ≠ [])
    (right : second ≠ []) :
    [sep].intercalate (first ++ second) =
      [sep].intercalate first ++ sep :: [sep].intercalate second := by
  induction first with
  | nil => exact absurd rfl left
  | cons part parts ih =>
      cases parts with
      | nil => simp [List.intercalate_cons_of_ne_nil right]
      | cons next parts =>
          rw [List.cons_append, List.intercalate_cons_of_ne_nil (by simp),
            ih (List.cons_ne_nil _ _), List.intercalate_cons_cons]
          simp

/-- A word with every part between two separators rewritten. -/
def mapParts (sep : α) (f : List α → List α) (word : List α) : List α :=
  [sep].intercalate ((word.splitOn sep).map f)

theorem mapParts_append_sep (sep : α) (f : List α → List α) (first second : List α) :
    mapParts sep f (first ++ sep :: second) =
      mapParts sep f first ++ sep :: mapParts sep f second := by
  unfold mapParts
  rw [splitOn_append_sep, List.map_append]
  exact intercalate_append sep (by simp) (by simp)

theorem mapParts_of_notMem {sep : α} {word : List α} (free : sep ∉ word)
    (f : List α → List α) : mapParts sep f word = f word := by
  rw [mapParts, List.splitOn_eq_singleton free]
  simp

theorem mem_splitOn_notMem {sep : α} {word part : List α} (mem : part ∈ word.splitOn sep) :
    sep ∉ part := by
  induction word generalizing part with
  | nil =>
      rw [List.splitOn_nil, List.mem_singleton] at mem
      simp [mem]
  | cons head tail ih =>
      rw [List.splitOn_cons_eq_if_modifyHead] at mem
      split at mem
      · rcases List.mem_cons.mp mem with rfl | mem
        · simp
        · exact ih mem
      · rename_i other
        cases parts : tail.splitOn sep with
        | nil => exact absurd parts (List.splitOn_ne_nil sep tail)
        | cons first rest =>
            rw [parts] at mem ih
            rcases List.mem_cons.mp mem with rfl | mem
            · have free := ih List.mem_cons_self
              have apart : sep ≠ head := fun same => other (by simp [same])
              simp [apart, free]
            · exact ih (List.mem_cons_of_mem _ mem)

theorem splitOn_mapParts {sep : α} {f : List α → List α}
    (free : ∀ part, sep ∉ part → sep ∉ f part) (word : List α) :
    (mapParts sep f word).splitOn sep = (word.splitOn sep).map f := by
  refine List.splitOn_intercalate sep ?_ (by simp)
  intro part mem
  rcases List.mem_map.mp mem with ⟨part, member, rfl⟩
  exact free part (mem_splitOn_notMem member)

theorem mapParts_eq_self {sep : α} {f : List α → List α} {word : List α}
    (fixed : ∀ part ∈ word.splitOn sep, f part = part) : mapParts sep f word = word := by
  rw [mapParts, List.map_congr_left fixed, List.map_id', List.intercalate_splitOn]

/-- Parts that a second rewriting leaves alone leave the word alone. -/
theorem mapParts_mapParts {sep : α} {f : List α → List α}
    (free : ∀ part, sep ∉ part → sep ∉ f part) (twice : ∀ part, f (f part) = f part)
    (word : List α) : mapParts sep f (mapParts sep f word) = mapParts sep f word := by
  refine mapParts_eq_self ?_
  rw [splitOn_mapParts free]
  intro part mem
  rcases List.mem_map.mp mem with ⟨part, -, rfl⟩
  exact twice part

end Rewriting

end RoundSync.Text
