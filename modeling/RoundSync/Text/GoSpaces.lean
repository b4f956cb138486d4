import RoundSync.Text.GoPath

/-!
# White space around Go strings

`strings.TrimSpace` works on code points, the model on bytes.  A byte string is
in exactly one way blank, then solid, then blank again, and the solid part is
what the trim leaves.
-/

namespace RoundSync.Text

/-- The white space code points in UTF-8. -/
def spaceRunes : List GoString :=
  [[0x09], [0x0A], [0x0B], [0x0C], [0x0D], [0x20], [0xC2, 0x85], [0xC2, 0xA0], [0xE1, 0x9A, 0x80],
    [0xE2, 0x80, 0x80], [0xE2, 0x80, 0x81], [0xE2, 0x80, 0x82], [0xE2, 0x80, 0x83],
    [0xE2, 0x80, 0x84], [0xE2, 0x80, 0x85], [0xE2, 0x80, 0x86], [0xE2, 0x80, 0x87],
    [0xE2, 0x80, 0x88], [0xE2, 0x80, 0x89], [0xE2, 0x80, 0x8A], [0xE2, 0x80, 0xA8],
    [0xE2, 0x80, 0xA9], [0xE2, 0x80, 0xAF], [0xE2, 0x81, 0x9F], [0xE3, 0x80, 0x80]]

theorem spaceLength_append {rune : GoString} (isSpace : rune ∈ spaceRunes) (rest : GoString) :
    spaceLength (rune ++ rest) = rune.length := by
  simp only [spaceRunes, List.mem_cons, List.not_mem_nil, or_false] at isSpace
  rcases isSpace with rfl | rfl | rfl | rfl | rfl | rfl | rfl | rfl | rfl | rfl | rfl | rfl | rfl |
    rfl | rfl | rfl | rfl | rfl | rfl | rfl | rfl | rfl | rfl | rfl | rfl <;> rfl

/-- What is shown of the first 256 numbers holds of every byte. -/
theorem forall_byte {P : UInt8 → Prop} (numbers : ∀ n < 256, P (UInt8.ofNat n)) (b : UInt8) :
    P b := by
  have ofNat := numbers b.toNat (UInt8.toNat_lt b)
  rwa [UInt8.ofNat_toNat] at ofNat

theorem oneByte_mem_spaceRunes (b : UInt8) (isSpace : 0x09 ≤ b ∧ b ≤ 0x0D ∨ b = 0x20) :
    [b] ∈ spaceRunes := by
  revert isSpace
  exact @forall_byte (fun b => 0x09 ≤ b ∧ b ≤ 0x0D ∨ b = 0x20 → [b] ∈ spaceRunes)
    (by decide +kernel) b

theorem generalPunctuation_mem_spaceRunes (b : UInt8)
    (isSpace : 0x80 ≤ b ∧ b ≤ 0x8A ∨ b = 0xA8 ∨ b = 0xA9 ∨ b = 0xAF) :
    [0xE2, 0x80, b] ∈ spaceRunes := by
  revert isSpace
  exact @forall_byte (fun b => 0x80 ≤ b ∧ b ≤ 0x8A ∨ b = 0xA8 ∨ b = 0xA9 ∨ b = 0xAF →
    [0xE2, 0x80, b] ∈ spaceRunes) (by decide +kernel) b

theorem exists_spaceRune {s : GoString} (starts : spaceLength s ≠ 0) :
    ∃ rune ∈ spaceRunes, rune <+: s := by
  unfold spaceLength at starts
  split at starts
  · exact ⟨[0xC2, 0x85], by decide, _, rfl⟩
  · exact ⟨[0xC2, 0xA0], by decide, _, rfl⟩
  · exact ⟨[0xE1, 0x9A, 0x80], by decide, _, rfl⟩
  · rename_i b rest
    refine ⟨[0xE2, 0x80, b], generalPunctuation_mem_spaceRunes b ?_, rest, rfl⟩
    by_contra other
    exact starts (if_neg other)
  · exact ⟨[0xE2, 0x81, 0x9F], by decide, _, rfl⟩
  · exact ⟨[0xE3, 0x80, 0x80], by decide, _, rfl⟩
  · rename_i b rest _ _ _ _ _ _
    refine ⟨[b], oneByte_mem_spaceRunes b ?_, rest, rfl⟩
    by_contra other
    exact starts (if_neg other)
  · exact absurd rfl starts

/-- The first byte of a code point is not one of those that continue it. -/
theorem spaceRunes_bytes {rune : GoString} (isSpace : rune ∈ spaceRunes) :
    ∃ first others, rune = first :: others ∧ ¬ (0x80 ≤ first ∧ first < 0xC0) ∧
      ∀ b ∈ others, 0x80 ≤ b ∧ b < 0xC0 := by
  simp only [spaceRunes, List.mem_cons, List.not_mem_nil, or_false] at isSpace
  rcases isSpace with rfl | rfl | rfl | rfl | rfl | rfl | rfl | rfl | rfl | rfl | rfl | rfl | rfl |
    rfl | rfl | rfl | rfl | rfl | rfl | rfl | rfl | rfl | rfl | rfl | rfl <;>
    exact ⟨_, _, rfl, by decide, by decide +kernel⟩

/-- White space only. -/
def Blank (s : GoString) : Prop :=
  ∃ runes : List GoString, (∀ rune ∈ runes, rune ∈ spaceRunes) ∧ s = runes.flatten

/-- No white space at the start. -/
def StartsSolid (s : GoString) : Prop :=
  ∀ rune ∈ spaceRunes, ¬ rune <+: s

/-- No white space at the end. -/
def EndsSolid (s : GoString) : Prop :=
  ∀ rune ∈ spaceRunes, ¬ rune <:+ s

theorem blank_nil : Blank [] :=
  ⟨[], by simp, rfl⟩

theorem blank_of_mem {rune : GoString} (isSpace : rune ∈ spaceRunes) : Blank rune :=
  ⟨[rune], by simpa using isSpace, by simp⟩

theorem Blank.append {first second : GoString} (firstBlank : Blank first)
    (secondBlank : Blank second) : Blank (first ++ second) := by
  rcases firstBlank with ⟨left, leftSpace, rfl⟩
  rcases secondBlank with ⟨right, rightSpace, rfl⟩
  refine ⟨left ++ right, ?_, by simp⟩
  intro rune mem
  rcases List.mem_append.mp mem with mem | mem
  · exact leftSpace rune mem
  · exact rightSpace rune mem

/-- A byte of no white space code point is in no blank string. -/
theorem Blank.notMem {s : GoString} (blank : Blank s) {b : UInt8}
    (solid : ∀ rune ∈ spaceRunes, b ∉ rune) : b ∉ s := by
  rcases blank with ⟨runes, spaces, rfl⟩
  intro mem
  rcases List.mem_flatten.mp mem with ⟨rune, runeMem, mem⟩
  exact solid rune (spaces rune runeMem) mem

theorem spaceRune_ne_nil {rune : GoString} (isSpace : rune ∈ spaceRunes) : rune ≠ [] := by
  rcases spaceRunes_bytes isSpace with ⟨first, others, rfl, -⟩
  exact List.cons_ne_nil _ _

theorem startsSolid_nil : StartsSolid [] := by
  intro rune isSpace starts
  exact spaceRune_ne_nil isSpace (List.prefix_nil.mp starts)

theorem endsSolid_nil : EndsSolid [] := by
  intro rune isSpace ends
  exact spaceRune_ne_nil isSpace (List.suffix_nil.mp ends)

theorem startsSolid_iff {s : GoString} : StartsSolid s ↔ spaceLength s = 0 := by
  constructor
  · intro solid
    by_contra starts
    rcases exists_spaceRune starts with ⟨rune, isSpace, isStart⟩
    exact solid rune isSpace isStart
  · rintro none rune isSpace ⟨rest, rfl⟩
    rw [spaceLength_append isSpace] at none
    exact spaceRune_ne_nil isSpace (List.eq_nil_of_length_eq_zero none)

/-! ## The two halves of the trim -/

open trimSpace

theorem dropHead_succ (fuel : Nat) (s : GoString) :
    dropHead (fuel + 1) s =
      if spaceLength s = 0 then s else dropHead fuel (s.drop (spaceLength s)) :=
  rfl

theorem dropHead_of_startsSolid {s : GoString} (solid : StartsSolid s) (fuel : Nat) :
    dropHead fuel s = s := by
  cases fuel with
  | zero => rfl
  | succ fuel => rw [dropHead_succ, if_pos (startsSolid_iff.mp solid)]

theorem dropHead_blank_append {blank : GoString} (isBlank : Blank blank) {s : GoString}
    (solid : StartsSolid s) {fuel : Nat} (enough : blank.length ≤ fuel) :
    dropHead fuel (blank ++ s) = s := by
  rcases isBlank with ⟨runes, spaces, rfl⟩
  induction runes generalizing fuel with
  | nil => exact dropHead_of_startsSolid solid fuel
  | cons rune runes ih =>
      have isSpace := spaces rune List.mem_cons_self
      have length : 0 < rune.length := List.length_pos_of_ne_nil (spaceRune_ne_nil isSpace)
      rw [List.flatten_cons, List.length_append] at enough
      obtain ⟨less, rfl⟩ := Nat.exists_eq_add_of_lt (show 0 < fuel by omega)
      rw [List.flatten_cons, List.append_assoc, Nat.zero_add, dropHead_succ,
        spaceLength_append isSpace, if_neg (by omega), List.drop_left]
      exact ih (fun other mem => spaces other (List.mem_cons_of_mem _ mem)) (by omega)

theorem exists_dropHead (s : GoString) {fuel : Nat} (enough : s.length ≤ fuel) :
    ∃ blank, Blank blank ∧ s = blank ++ dropHead fuel s ∧ StartsSolid (dropHead fuel s) := by
  induction fuel generalizing s with
  | zero =>
      have empty := List.eq_nil_of_length_eq_zero (Nat.le_zero.mp enough)
      subst empty
      exact ⟨[], blank_nil, rfl, startsSolid_nil⟩
  | succ fuel ih =>
      by_cases starts : spaceLength s = 0
      · rw [dropHead_succ, if_pos starts]
        exact ⟨[], blank_nil, rfl, startsSolid_iff.mpr starts⟩
      · rcases exists_spaceRune starts with ⟨rune, isSpace, rest, rfl⟩
        have length : 0 < rune.length := List.length_pos_of_ne_nil (spaceRune_ne_nil isSpace)
        rw [List.length_append] at enough
        rw [dropHead_succ, if_neg starts, spaceLength_append isSpace, List.drop_left]
        rcases ih rest (by omega) with ⟨blank, isBlank, split, solid⟩
        refine ⟨rune ++ blank, (blank_of_mem isSpace).append isBlank, ?_, solid⟩
        rw [List.append_assoc, ← split]

/-- The end that the backward scan looks for. -/
def lastSpace (s : GoString) : Option Nat :=
  [1, 2, 3].find? fun n => n ≤ s.length ∧ spaceLength (s.drop (s.length - n)) = n

theorem dropTail_succ (fuel : Nat) (s : GoString) :
    dropTail (fuel + 1) s =
      match lastSpace s with
      | some n => dropTail fuel (s.take (s.length - n))
      | none => s :=
  rfl

/-- The last bytes of a code point alone are no white space. -/
theorem spaceLength_drop {rune : GoString} (isSpace : rune ∈ spaceRunes) {n : Nat}
    (short : n < rune.length) (positive : 0 < n) :
    spaceLength (rune.drop (rune.length - n)) ≠ n := by
  intro same
  rcases spaceRunes_bytes isSpace with ⟨first, others, rfl, -, continued⟩
  rcases exists_spaceRune (by omega :
    spaceLength ((first :: others).drop ((first :: others).length - n)) ≠ 0) with
    ⟨last, lastSpace, ending⟩
  rcases spaceRunes_bytes lastSpace with ⟨start, _, rfl, lead, -⟩
  rw [List.length_cons] at short ending
  obtain ⟨k, index⟩ : ∃ k, others.length + 1 - n = k + 1 :=
    Nat.exists_eq_succ_of_ne_zero (by omega)
  rw [index, List.drop_succ_cons] at ending
  have mem : start ∈ others.drop k := ending.subset List.mem_cons_self
  exact lead (continued start (List.mem_of_mem_drop mem))

theorem lastSpace_append {rune : GoString} (isSpace : rune ∈ spaceRunes) (s : GoString) :
    lastSpace (s ++ rune) = some rune.length := by
  have whole : spaceLength ((s ++ rune).drop ((s ++ rune).length - rune.length)) =
      rune.length := by
    rw [List.length_append, Nat.add_sub_cancel, List.drop_left]
    simpa using spaceLength_append isSpace []
  have fits : rune.length ≤ (s ++ rune).length := by simp
  have shorter : ∀ n, 0 < n → n < rune.length →
      ¬ (n ≤ (s ++ rune).length ∧
        spaceLength ((s ++ rune).drop ((s ++ rune).length - n)) = n) := by
    rintro n positive short ⟨-, same⟩
    rw [List.length_append, Nat.add_sub_assoc (by omega), List.drop_append,
      List.drop_eq_nil_of_le (by omega), List.nil_append, Nat.add_sub_cancel_left] at same
    exact spaceLength_drop isSpace short positive same
  have short : rune.length = 1 ∨ rune.length = 2 ∨ rune.length = 3 := by
    have all : ∀ rune ∈ spaceRunes, rune.length = 1 ∨ rune.length = 2 ∨ rune.length = 3 := by
      decide
    exact all rune isSpace
  unfold lastSpace
  rcases short with one | two | three
  · rw [one] at whole fits ⊢
    exact List.find?_cons_of_pos (decide_eq_true ⟨fits, whole⟩)
  · rw [two] at whole fits shorter ⊢
    have notOne := shorter 1 (by decide) (by decide)
    rw [List.find?_cons_of_neg (by simpa only [decide_eq_true_eq] using notOne)]
    exact List.find?_cons_of_pos (decide_eq_true ⟨fits, whole⟩)
  · rw [three] at whole fits shorter ⊢
    have notOne := shorter 1 (by decide) (by decide)
    have notTwo := shorter 2 (by decide) (by decide)
    rw [List.find?_cons_of_neg (by simpa only [decide_eq_true_eq] using notOne),
      List.find?_cons_of_neg (by simpa only [decide_eq_true_eq] using notTwo)]
    exact List.find?_cons_of_pos (decide_eq_true ⟨fits, whole⟩)

theorem exists_lastRune {s : GoString} {n : Nat} (found : lastSpace s = some n) :
    ∃ rune ∈ spaceRunes, ∃ front, s = front ++ rune ∧ rune.length = n := by
  have holds := List.find?_some found
  simp only [decide_eq_true_eq] at holds
  have positive : n ≠ 0 := by
    have mem := List.mem_of_find?_eq_some found
    rintro rfl
    simp at mem
  rcases exists_spaceRune (by omega : spaceLength (s.drop (s.length - n)) ≠ 0) with
    ⟨rune, isSpace, rest, ending⟩
  have length := holds.2
  rw [← ending, spaceLength_append isSpace] at length
  have all : (rune ++ rest).length = n := by
    rw [ending, List.length_drop]
    omega
  rw [List.length_append] at all
  have noRest := List.eq_nil_of_length_eq_zero (by omega : rest.length = 0)
  rw [noRest, List.append_nil] at ending
  refine ⟨rune, isSpace, s.take (s.length - n), ?_, length⟩
  rw [ending, List.take_append_drop]

theorem lastSpace_of_endsSolid {s : GoString} (solid : EndsSolid s) : lastSpace s = none := by
  cases found : lastSpace s with
  | none => rfl
  | some n =>
      rcases exists_lastRune found with ⟨rune, isSpace, front, rfl, -⟩
      exact absurd (List.suffix_append front rune) (solid rune isSpace)

theorem endsSolid_of_lastSpace {s : GoString} (none : lastSpace s = none) : EndsSolid s := by
  rintro rune isSpace ⟨front, rfl⟩
  rw [lastSpace_append isSpace] at none
  cases none

theorem dropTail_of_endsSolid {s : GoString} (solid : EndsSolid s) (fuel : Nat) :
    dropTail fuel s = s := by
  cases fuel with
  | zero => rfl
  | succ fuel => rw [dropTail_succ, lastSpace_of_endsSolid solid]

theorem dropTail_append_blank {blank : GoString} (isBlank : Blank blank) {s : GoString}
    (solid : EndsSolid s) {fuel : Nat} (enough : blank.length ≤ fuel) :
    dropTail fuel (s ++ blank) = s := by
  rcases isBlank with ⟨runes, spaces, rfl⟩
  induction runes using List.reverseRecOn generalizing fuel with
  | nil => simpa using dropTail_of_endsSolid solid fuel
  | append_singleton runes rune ih =>
      have isSpace := spaces rune (by simp)
      have length : 0 < rune.length := List.length_pos_of_ne_nil (spaceRune_ne_nil isSpace)
      rw [List.flatten_append, List.flatten_singleton] at enough ⊢
      rw [List.length_append] at enough
      obtain ⟨less, rfl⟩ := Nat.exists_eq_add_of_lt (show 0 < fuel by omega)
      rw [← List.append_assoc, Nat.zero_add, dropTail_succ, lastSpace_append isSpace]
      dsimp only
      rw [List.length_append, Nat.add_sub_cancel, List.take_left]
      exact ih (fun other mem => spaces other (List.mem_append_left _ mem)) (by omega)

theorem exists_dropTail (s : GoString) {fuel : Nat} (enough : s.length ≤ fuel) :
    ∃ blank, Blank blank ∧ s = dropTail fuel s ++ blank ∧ EndsSolid (dropTail fuel s) := by
  induction fuel generalizing s with
  | zero =>
      have empty := List.eq_nil_of_length_eq_zero (Nat.le_zero.mp enough)
      subst empty
      exact ⟨[], blank_nil, rfl, endsSolid_nil⟩
  | succ fuel ih =>
      rw [dropTail_succ]
      cases found : lastSpace s with
      | none => exact ⟨[], blank_nil, (List.append_nil s).symm, endsSolid_of_lastSpace found⟩
      | some n =>
          rcases exists_lastRune found with ⟨rune, isSpace, front, rfl, rfl⟩
          have length : 0 < rune.length := List.length_pos_of_ne_nil (spaceRune_ne_nil isSpace)
          rw [List.length_append] at enough
          dsimp only
          rw [List.length_append, Nat.add_sub_cancel, List.take_left]
          rcases ih front (by omega) with ⟨blank, isBlank, split, solid⟩
          refine ⟨blank ++ rune, isBlank.append (blank_of_mem isSpace), ?_, solid⟩
          rw [← List.append_assoc, ← split]

/-! ## The solid part -/

/-- White space may lie inside a string, but not at its ends. -/
structure Solid (s : GoString) : Prop where
  starts : StartsSolid s
  ends : EndsSolid s

theorem solid_nil : Solid [] :=
  ⟨startsSolid_nil, endsSolid_nil⟩

/-- Blank bytes after a string that starts solid do not complete a code point. -/
theorem StartsSolid.append_blank {s : GoString} (solid : StartsSolid s) (nonempty : s ≠ [])
    {blank : GoString} (isBlank : Blank blank) : StartsSolid (s ++ blank) := by
  rintro rune isSpace starts
  rcases List.prefix_or_prefix_of_prefix starts (List.prefix_append s blank) with inside | longer
  · exact solid rune isSpace inside
  · rcases longer with ⟨more, rfl⟩
    rw [List.prefix_append_right_inj] at starts
    cases more with
    | nil => exact solid s (by simpa using isSpace) (List.prefix_refl s)
    | cons b more =>
        rcases spaceRunes_bytes isSpace with ⟨first, others, bytes, -, continued⟩
        have later : b ∈ others := by
          cases s with
          | nil => exact absurd rfl nonempty
          | cons head tail =>
              obtain ⟨-, rfl⟩ := List.cons.inj bytes
              simp
        rcases isBlank with ⟨runes, spaces, rfl⟩
        cases runes with
        | nil => simp at starts
        | cons next runes =>
            rcases spaceRunes_bytes (spaces next List.mem_cons_self) with
              ⟨lead, _, rfl, isLead, -⟩
            rw [List.flatten_cons, List.cons_append, List.cons_prefix_cons] at starts
            exact isLead (starts.1 ▸ continued b later)

theorem exists_trimSpace (s : GoString) :
    ∃ before after, Blank before ∧ Blank after ∧ s = before ++ (trimSpace s ++ after) ∧
      Solid (trimSpace s) := by
  rcases exists_dropHead s (Nat.le_refl s.length) with ⟨before, beforeBlank, split, starts⟩
  have shorter : (dropHead s.length s).length ≤ s.length := by
    have lengths := congrArg List.length split
    rw [List.length_append] at lengths
    omega
  rcases exists_dropTail (dropHead s.length s) shorter with ⟨after, afterBlank, rest, ends⟩
  refine ⟨before, after, beforeBlank, afterBlank, ?_, ?_, ends⟩
  · rw [trimSpace, ← rest]
    exact split
  · intro rune isSpace isStart
    exact starts rune isSpace (isStart.trans ⟨after, rest.symm⟩)

theorem trimSpace_eq {before after : GoString} (beforeBlank : Blank before)
    (afterBlank : Blank after) {s : GoString} (solid : Solid s) :
    trimSpace (before ++ (s ++ after)) = s := by
  unfold trimSpace
  have enough : before.length ≤ (before ++ (s ++ after)).length := by simp
  by_cases empty : s = []
  · subst s
    have all := dropHead_blank_append (beforeBlank.append afterBlank) startsSolid_nil
      (Nat.le_refl (before ++ after).length)
    rw [List.append_nil] at all
    rw [List.nil_append, all]
    exact dropTail_of_endsSolid endsSolid_nil _
  · rw [dropHead_blank_append beforeBlank (solid.starts.append_blank empty afterBlank) enough]
    refine dropTail_append_blank afterBlank solid.ends ?_
    simp only [List.length_append]
    omega

theorem mem_of_mem_trimSpace {b : UInt8} {s : GoString} (mem : b ∈ trimSpace s) : b ∈ s := by
  rcases exists_trimSpace s with ⟨before, after, -, -, split, -⟩
  rw [split]
  simp [mem]

theorem trimSpace_solid (s : GoString) : Solid (trimSpace s) := by
  rcases exists_trimSpace s with ⟨before, after, -, -, -, solid⟩
  exact solid

theorem trimSpace_of_solid {s : GoString} (solid : Solid s) : trimSpace s = s := by
  simpa using trimSpace_eq blank_nil blank_nil solid

theorem trimSpace_trimSpace (s : GoString) : trimSpace (trimSpace s) = trimSpace s :=
  trimSpace_of_solid (trimSpace_solid s)

theorem trimSpace_blank_append {blank : GoString} (isBlank : Blank blank) (s : GoString) :
    trimSpace (blank ++ s) = trimSpace s := by
  rcases exists_trimSpace s with ⟨before, after, beforeBlank, afterBlank, split, solid⟩
  have whole := trimSpace_eq (isBlank.append beforeBlank) afterBlank solid
  rwa [List.append_assoc, ← split] at whole

theorem trimSpace_append_blank {blank : GoString} (isBlank : Blank blank) (s : GoString) :
    trimSpace (s ++ blank) = trimSpace s := by
  rcases exists_trimSpace s with ⟨before, after, beforeBlank, afterBlank, split, solid⟩
  have whole := trimSpace_eq beforeBlank (afterBlank.append isBlank) solid
  rwa [← List.append_assoc (trimSpace s), ← List.append_assoc before, ← split] at whole

theorem trimSpace_eq_nil_iff {s : GoString} : trimSpace s = [] ↔ Blank s := by
  constructor
  · intro empty
    rcases exists_trimSpace s with ⟨before, after, beforeBlank, afterBlank, split, -⟩
    rw [split, empty, List.nil_append]
    exact beforeBlank.append afterBlank
  · intro isBlank
    simpa using trimSpace_eq isBlank blank_nil solid_nil

/-- Around a byte that is in no white space, both sides are trimmed apart. -/
theorem solid_append_cons {b : UInt8} (solidByte : ∀ rune ∈ spaceRunes, b ∉ rune)
    {first second : GoString} (starts : StartsSolid first) (ends : EndsSolid second) :
    Solid (first ++ b :: second) := by
  constructor
  · intro rune isSpace isStart
    rcases List.prefix_or_prefix_of_prefix isStart (List.prefix_append first _) with
      inside | ⟨more, rfl⟩
    · exact starts rune isSpace inside
    · rw [List.prefix_append_right_inj] at isStart
      cases more with
      | nil => exact starts first (by simpa using isSpace) (List.prefix_refl first)
      | cons head more =>
          rw [List.cons_prefix_cons] at isStart
          exact solidByte _ isSpace (by simp [isStart.1])
  · intro rune isSpace isEnd
    have closing : second <:+ first ++ b :: second := ⟨first ++ [b], by simp⟩
    rcases List.suffix_or_suffix_of_suffix isEnd closing with inside | ⟨more, rfl⟩
    · exact ends rune isSpace inside
    · rcases List.eq_nil_or_concat more with rfl | ⟨front, last, rfl⟩
      · exact ends second (by simpa using isSpace) (List.suffix_refl second)
      · rcases isEnd with ⟨before, same⟩
        have parts : (before ++ front) ++ last :: second = first ++ b :: second := by
          simpa using same
        have lastEq := (List.append_inj' parts rfl).2
        obtain ⟨rfl, -⟩ := List.cons.inj lastEq
        exact solidByte _ isSpace (by simp)

/-! ## The trim of a set of bytes -/

theorem trimLeft_cons_of_mem {cutset : GoString} {b : UInt8} (mem : b ∈ cutset) (s : GoString) :
    trimLeft (b :: s) cutset = trimLeft s cutset :=
  List.dropWhile_cons_of_pos (by simpa using mem)

theorem trim_cons_of_mem {cutset : GoString} {b : UInt8} (mem : b ∈ cutset) (s : GoString) :
    trim (b :: s) cutset = trim s cutset := by
  rw [trim, trimLeft_cons_of_mem mem, trim]

theorem trimRight_append_of_mem {cutset : GoString} {b : UInt8} (mem : b ∈ cutset)
    (s : GoString) : trimRight (s ++ [b]) cutset = trimRight s cutset := by
  rw [trimRight, List.rdropWhile_concat_pos _ _ _ (by simpa using mem), trimRight]

theorem trim_append_of_mem {cutset : GoString} {b : UInt8} (mem : b ∈ cutset) (s : GoString) :
    trim (s ++ [b]) cutset = trim s cutset := by
  induction s with
  | nil => exact trim_cons_of_mem mem []
  | cons c s ih =>
      by_cases cut : c ∈ cutset
      · rw [List.cons_append, trim_cons_of_mem cut, ih, trim_cons_of_mem cut]
      · have kept : ∀ t, trimLeft (c :: t) cutset = c :: t := fun t =>
          List.dropWhile_cons_of_neg (by simpa using cut)
        rw [List.cons_append, trim, kept, ← List.cons_append, trimRight_append_of_mem mem, trim,
          kept]

/-- A trim leaves what starts and ends with other bytes. -/
theorem trim_of_ends {cutset s : GoString} (head : ∀ b ∈ s.head?, b ∉ cutset)
    (last : ∀ b ∈ s.getLast?, b ∉ cutset) : trim s cutset = s := by
  have left : trimLeft s cutset = s := by
    cases s with
    | nil => rfl
    | cons b s => exact List.dropWhile_cons_of_neg (by simpa using head b rfl)
  rw [trim, left]
  rcases List.eq_nil_or_concat s with rfl | ⟨front, b, rfl⟩
  · rfl
  · have kept := last b (by simp)
    rw [List.concat_eq_append, trimRight,
      List.rdropWhile_concat_neg _ _ _ (by simpa using kept)]

theorem trim_length_le (s cutset : GoString) : (trim s cutset).length ≤ s.length :=
  (List.rdropWhile_prefix _ _).length_le.trans (List.dropWhile_suffix _).length_le

/-- What each byte of the set changes nothing of at either end, the trim does not
change. -/
theorem trim_invariant {β : Type} {Q : GoString → β} {cutset : GoString}
    (front : ∀ b ∈ cutset, ∀ s, Q (b :: s) = Q s)
    (back : ∀ b ∈ cutset, ∀ s, Q (s ++ [b]) = Q s) (s : GoString) :
    Q (trim s cutset) = Q s := by
  have left : Q (trimLeft s cutset) = Q s := by
    induction s with
    | nil => rfl
    | cons b s ih =>
        by_cases mem : b ∈ cutset
        · rw [trimLeft_cons_of_mem mem, front b mem, ih]
        · rw [trimLeft, List.dropWhile_cons_of_neg (by simpa using mem)]
  have right : ∀ t, Q (trimRight t cutset) = Q t := by
    intro t
    induction t using List.reverseRecOn with
    | nil => rfl
    | append_singleton t b ih =>
        by_cases mem : b ∈ cutset
        · rw [trimRight_append_of_mem mem, back b mem, ih]
        · rw [trimRight, List.rdropWhile_concat_neg _ _ _ (by simpa using mem)]
  rw [trim, right, left]

end RoundSync.Text
