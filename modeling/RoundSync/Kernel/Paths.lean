import RoundSync.Text.GoPath

/-!
# Cleaned tree paths

`remotefs.Clean` and `remotefs.split`: the kernel addresses the tree by cleaned
absolute paths, and the names on a path determine it.
-/

namespace RoundSync.Kernel

open RoundSync.Text

/-- `remotefs.Clean`. -/
def clean (p : GoString) : GoString :=
  if p = [] ∨ p.head? ≠ some slash then pathClean (slash :: p) else pathClean p

/-- `remotefs.split`: the names on the cleaned path. -/
def split (p : GoString) : List GoString :=
  let trimmed := trim (clean p) [slash]
  if trimmed = [] then [] else (trimmed.splitOn slash).filter (· ≠ [])

theorem clean_eq_absolute (p : GoString) : clean p = absolute (cleanParts true p) := by
  unfold clean
  split
  · rw [pathClean, if_neg (List.cons_ne_nil _ _), if_pos List.head?_cons, cleanParts_slash_cons]
  · rename_i isRooted
    simp only [not_or, not_not] at isRooted
    rw [pathClean, if_neg isRooted.1, if_pos isRooted.2]

theorem trim_absolute {names : List GoString} (valid : ValidNames names) :
    trim (absolute names) [slash] = (rooted slash names).drop 1 := by
  have trimmedLeft : trimLeft (absolute names) [slash] = (absolute names).drop 1 := by
    cases names with
    | nil => rfl
    | cons name names =>
        have nameValid := valid name List.mem_cons_self
        obtain ⟨byte, rest, rfl⟩ := List.exists_cons_of_ne_nil nameValid.ne_nil
        have byteNe : byte ≠ slash := fun equal =>
          nameValid.slash_notMem (equal ▸ List.mem_cons_self)
        rw [absolute_eq_rooted (List.cons_ne_nil _ _)]
        simp [trimLeft, byteNe]
  have trimmedRight := trimRight_absolute valid
  rw [trim, trimmedLeft]
  cases names with
  | nil => rfl
  | cons name names =>
      rw [absolute_eq_rooted (List.cons_ne_nil _ _)] at trimmedRight ⊢
      simp only [rooted_cons, List.drop_succ_cons, List.drop_zero] at trimmedRight ⊢
      unfold trimRight at trimmedRight ⊢
      rw [List.rdropWhile_eq_self_iff] at trimmedRight ⊢
      intro nonempty
      have lastEq := trimmedRight (List.cons_ne_nil _ _)
      rwa [List.getLast_cons nonempty] at lastEq

/-- `split` reads the names that `Clean` keeps. -/
theorem split_eq_cleanParts (p : GoString) : split p = cleanParts true p := by
  have valid := cleanParts_valid p
  rw [split, clean_eq_absolute]
  generalize cleanParts true p = names at valid
  rw [trim_absolute valid]
  cases names with
  | nil => rfl
  | cons name names =>
      have nameNe := (valid name List.mem_cons_self).ne_nil
      have nonempty : (rooted slash (name :: names)).drop 1 ≠ [] := by simp [nameNe]
      have allNonempty : (name :: names).filter (· ≠ []) = name :: names := by
        rw [List.filter_eq_self]
        intro other member
        simpa using (valid other member).ne_nil
      have splitAll := splitOn_rooted valid.separates
      rw [rooted_cons, List.splitOn_cons_eq_if_modifyHead] at splitAll
      simp only [beq_self_eq_true, if_true, List.cons.injEq, true_and] at splitAll
      simp only [nonempty, if_false]
      rw [rooted_cons, List.drop_succ_cons, List.drop_zero, splitAll, allNonempty]

theorem clean_eq_absolute_split (p : GoString) : clean p = absolute (split p) := by
  rw [clean_eq_absolute, split_eq_cleanParts]

theorem split_valid (p : GoString) : ValidNames (split p) := by
  rw [split_eq_cleanParts]
  exact cleanParts_valid p

theorem split_absolute {names : List GoString} (valid : ValidNames names) :
    split (absolute names) = names := by
  rw [split_eq_cleanParts, cleanParts_absolute valid]

@[simp]
theorem split_clean (p : GoString) : split (clean p) = split p := by
  rw [clean_eq_absolute_split, split_absolute (split_valid p)]

theorem clean_eq_clean_iff {p q : GoString} : clean p = clean q ↔ split p = split q := by
  constructor
  · intro equal
    have parts := congrArg split equal
    rwa [split_clean, split_clean] at parts
  · intro equal
    rw [clean_eq_absolute_split, equal, ← clean_eq_absolute_split]

end RoundSync.Kernel
