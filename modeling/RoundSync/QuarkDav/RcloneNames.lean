import RoundSync.Rclone.Fspath
import RoundSync.Text.JavaString

/-!
# Names of generated rclone remotes

`QuarkDavRcloneIntegration` makes the name of an rclone remote out of the name
of a QuarkDAV remote.  What it makes is a valid name, and another one for
another remote, exactly if the letters, digits and hyphens of the names and the
gaps between them are so.
-/

namespace RoundSync.QuarkDav

open RoundSync.Text
open RoundSync.Text.Kotlin
open RoundSync.Rclone

/-! ## The generated name -/

/-- The class `[A-Za-z0-9_-]`. -/
def isSafe (c : Char) : Bool :=
  c.isAlphanum || c = '_' || c = '-'

/-- The replacement of every longest run outside the class by an underscore;
the flag tells whether the character before was in such a run. -/
def replaceUnsafe : Bool → JavaString → JavaString
  | _, [] => []
  | inRun, c :: s =>
      if isSafe c then c :: replaceUnsafe false s
      else if inRun then replaceUnsafe true s
      else '_' :: replaceUnsafe true s

def generatedPrefix : JavaString :=
  "quarkdav_".toList

/-- What stands for a name of which nothing is left. -/
def anyRemote : JavaString :=
  "remote".toList

def buildRcloneName (name : JavaString) : JavaString :=
  let safe := ifBlank (trimChar '_' (replaceUnsafe false (trim name))) anyRemote
  generatedPrefix ++ safe

def resolveRcloneName (quarkDavName : JavaString) (requestedName : Option JavaString) :
    JavaString :=
  ifBlank ((requestedName.map trim).getD []) (buildRcloneName quarkDavName)

/-- The classes of the regular expression; `\w` is a parameter beyond ASCII. -/
structure NameClasses extends UnicodeClasses where
  word : Char → Bool
  word_ascii : ∀ c, c.toNat < 128 → word c = (c.isAlphanum || c = '_')

section Validity

variable (classes : NameClasses)

/-- The class that a name starts with. -/
def nameHead (c : Char) : Bool :=
  classes.word c || classes.letter c || classes.number c || c = '.' || c = '+' || c = '@'

/-- `RCLONE_CONFIG_NAME`. -/
def rcloneConfigName : Pattern Char :=
  .seq (.plus (.one (nameHead classes)))
    (.star (.seq (.plus (.one fun c => c = ' ' || c = '-'))
      (.plus (.one fun c => nameHead classes c || c = '-'))))

def isValidRcloneName (name : JavaString) : Bool :=
  (rcloneConfigName classes).accepts name

end Validity

/-! ## Valid names -/

theorem isSafe_ascii {c : Char} (safe : isSafe c = true) : c.toNat < 128 := by
  have kinds : isSafe c = ((((c.isUpper || c.isLower) || c.isDigit) || c = '_') || c = '-') := rfl
  rw [kinds] at safe
  simp only [Bool.or_eq_true, decide_eq_true_eq] at safe
  rcases safe with (((upper | lower) | digit) | rfl) | rfl
  · have range : c.val ≥ 'A'.val ∧ c.val ≤ 'Z'.val := of_decide_eq_true upper
    exact Nat.lt_of_le_of_lt (UInt32.le_iff_toNat_le.mp range.2) (by decide)
  · have range : c.val ≤ 'z'.val := of_decide_eq_true ((Bool.and_eq_true _ _).mp lower).2
    exact Nat.lt_of_le_of_lt (UInt32.le_iff_toNat_le.mp range) (by decide)
  · have range : c.val ≤ '9'.val := of_decide_eq_true ((Bool.and_eq_true _ _).mp digit).2
    exact Nat.lt_of_le_of_lt (UInt32.le_iff_toNat_le.mp range) (by decide)
  · decide
  · decide

/-- A hyphen is the only one, and at the end. -/
def LoneHyphen (s : JavaString) : Prop :=
  ∃ front, s = front ++ ['-'] ∧ '-' ∉ front

section Validity

variable {classes : NameClasses}

theorem nameHead_hyphen : nameHead classes '-' = false := by
  rw [nameHead, classes.word_ascii '-' (by decide), classes.letter_ascii '-' (by decide),
    classes.number_ascii '-' (by decide)]
  decide

theorem nameHead_of_isSafe {c : Char} (safe : isSafe c = true) (noHyphen : c ≠ '-') :
    nameHead classes c = true := by
  rw [nameHead, classes.word_ascii c (isSafe_ascii safe)]
  simp only [isSafe, noHyphen, decide_false, Bool.or_false] at safe
  simp [safe]

/-- A valid name has no hyphen, or a separator with something behind it. -/
theorem cases_of_described {s : JavaString} (described : (rcloneConfigName classes).Matches s) :
    '-' ∉ s ∨ ∃ front c rest, s = front ++ c :: rest ∧ (c = ' ' ∨ c = '-') ∧ rest ≠ [] := by
  cases described with
  | @seq _ _ front w left right =>
      obtain ⟨_, headed⟩ := left.plus_one
      have absent : '-' ∉ front := by
        intro member
        have isHead := headed '-' member
        rw [nameHead_hyphen] at isHead
        contradiction
      cases right with
      | starNil =>
          rw [List.append_nil]
          exact .inl absent
      | @starCons _ _ more once again =>
          cases once with
          | @seq _ _ x y separator word =>
              obtain ⟨someX, separates⟩ := separator.plus_one
              obtain ⟨someY, _⟩ := word.plus_one
              cases x with
              | nil => contradiction
              | cons c x =>
                  have either := separates c List.mem_cons_self
                  simp only [Bool.or_eq_true, decide_eq_true_eq] at either
                  exact .inr ⟨front, c, x ++ y ++ more, by simp, either, by simp [someY]⟩

theorem not_loneHyphen {front rest : JavaString} (nonempty : rest ≠ []) :
    ¬LoneHyphen (front ++ '-' :: rest) := by
  rintro ⟨before, isLone, absent⟩
  obtain ⟨init, last, rfl⟩ : ∃ init last, rest = init ++ [last] :=
    ⟨rest.dropLast, rest.getLast nonempty, (List.dropLast_append_getLast nonempty).symm⟩
  rw [← List.cons_append, ← List.append_assoc] at isLone
  rw [← (List.append_inj' isLone rfl).1] at absent
  simp at absent

/-- A word of safe characters that does not start with a hyphen is a valid name
unless it ends in its only hyphen. -/
theorem isValidRcloneName_iff {s : JavaString} (safe : ∀ c ∈ s, isSafe c = true)
    {first : Char} (starts : s.head? = some first) (noHyphen : first ≠ '-') :
    isValidRcloneName classes s = true ↔ ¬LoneHyphen s := by
  rw [isValidRcloneName, Pattern.accepts_iff]
  constructor
  · intro described
    rcases cases_of_described described with absent | ⟨front, c, rest, rfl, either, nonempty⟩
    · rintro ⟨front, rfl, _⟩
      simp at absent
    · have isHyphen : c = '-' := by
        refine either.resolve_left ?_
        rintro rfl
        exact absurd (safe ' ' (by simp)) (by decide)
      rw [isHyphen]
      exact not_loneHyphen nonempty
  · intro notLone
    by_cases hyphen : '-' ∈ s
    · obtain ⟨front, rest, rfl, absent⟩ := List.eq_append_cons_of_mem hyphen
      have someFront : front ≠ [] := by
        rintro rfl
        exact noHyphen (Option.some.inj starts).symm
      have someRest : rest ≠ [] := by
        rintro rfl
        exact notLone ⟨front, rfl, absent⟩
      refine .seq (Pattern.plus_one_iff.mpr ⟨someFront, fun c member => ?_⟩) ?_
      · refine nameHead_of_isSafe (safe c (by simp [member])) ?_
        rintro rfl
        exact absent member
      · have tail : (Pattern.plus (.one fun c => nameHead classes c || c = '-')).Matches rest := by
          refine Pattern.plus_one_iff.mpr ⟨someRest, fun c member => ?_⟩
          by_cases isHyphen : c = '-'
          · simp [isHyphen]
          · simp [nameHead_of_isSafe (safe c (by simp [member])) isHyphen]
        have separator : (Pattern.plus (.one fun c => c = ' ' || c = '-')).Matches ['-'] :=
          Pattern.plus_one_iff.mpr ⟨List.cons_ne_nil _ _, by simp⟩
        have once := Pattern.Matches.starCons (.seq separator tail) .starNil
        rwa [List.append_nil, List.singleton_append] at once
    · have described : (rcloneConfigName classes).Matches (s ++ []) := by
        refine .seq (Pattern.plus_one_iff.mpr ⟨?_, fun c member => ?_⟩) .starNil
        · rintro rfl
          cases starts
        · refine nameHead_of_isSafe (safe c member) ?_
          rintro rfl
          exact hyphen member
      rwa [List.append_nil] at described

end Validity

/-! ## Letters and gaps -/

/-- A character that every name keeps. -/
def isKept (c : Char) : Bool :=
  c.isAlphanum || c = '-'

/-- What is in front of the first kept character, and each kept character with
what is behind it up to the next one. -/
def stretches : JavaString → JavaString × List (Char × JavaString)
  | [] => ([], [])
  | c :: s =>
      if isKept c then ([], (c, (stretches s).1) :: (stretches s).2)
      else (c :: (stretches s).1, (stretches s).2)

/-- The number of underscores and of longest runs of other characters. -/
def separators : Bool → JavaString → Nat
  | _, [] => 0
  | inRun, c :: s =>
      if c = '_' then separators false s + 1
      else if inRun then separators true s
      else separators true s + 1

/-- Each kept character with the number of separators behind it. -/
def counted (s : JavaString) : List (Char × Nat) :=
  (stretches s).2.map fun piece => (piece.1, separators false piece.2)

/-- The letters, digits and hyphens of a name. -/
def kept (s : JavaString) : JavaString :=
  (counted s).map Prod.fst

/-- The numbers of separators between the kept characters. -/
def gaps (s : JavaString) : List Nat :=
  ((counted s).map Prod.snd).dropLast

/-- The name that is used: without blanks at its ends, and `remote` for a name
that keeps nothing. -/
def meant (name : JavaString) : JavaString :=
  if kept (trim name) = [] then anyRemote else trim name

/-- Characters with so many underscores behind each. -/
def spread (pieces : List (Char × Nat)) : JavaString :=
  pieces.flatMap fun piece => piece.1 :: List.replicate piece.2 '_'

theorem isSafe_of_isKept {c : Char} (keeps : isKept c = true) : isSafe c = true := by
  simp only [isKept, Bool.or_eq_true] at keeps
  rcases keeps with keeps | keeps
  · simp [isSafe, keeps]
  · simp [isSafe, keeps]

theorem isSafe_of_not_isKept {c : Char} (drops : isKept c = false) : isSafe c = decide (c = '_') := by
  simp only [isKept, Bool.or_eq_false_iff] at drops
  simp [isSafe, drops]

theorem isKept_of_mem_stretches {s : JavaString} {piece : Char × JavaString}
    (member : piece ∈ (stretches s).2) : isKept piece.1 = true := by
  induction s with
  | nil => contradiction
  | cons c s ih =>
      unfold stretches at member
      split at member
      · rename_i keeps
        rcases List.mem_cons.mp member with rfl | member
        · exact keeps
        · exact ih member
      · exact ih member

theorem isKept_of_mem_counted {s : JavaString} {piece : Char × Nat} (member : piece ∈ counted s) :
    isKept piece.1 = true := by
  obtain ⟨stretch, among, rfl⟩ := List.mem_map.mp member
  exact isKept_of_mem_stretches among

/-- The replacement leaves the kept characters and an underscore for each
separator. -/
theorem replaceUnsafe_eq (inRun : Bool) (s : JavaString) :
    replaceUnsafe inRun s =
      List.replicate (separators inRun (stretches s).1) '_' ++ spread (counted s) := by
  induction s generalizing inRun with
  | nil => rfl
  | cons c s ih =>
      unfold replaceUnsafe counted stretches
      cases keeps : isKept c with
      | true =>
          rw [if_pos (isSafe_of_isKept keeps), ih]
          rfl
      | false =>
          rw [isSafe_of_not_isKept keeps]
          by_cases underscore : c = '_'
          · rw [decide_eq_true underscore, if_pos rfl, ih]
            simp [counted, separators, underscore, List.replicate_succ]
          · rw [decide_eq_false underscore]
            cases inRun with
            | true => simp [counted, separators, underscore, ih]
            | false => simp [counted, separators, underscore, ih, List.replicate_succ]

theorem ne_underscore_of_isKept {c : Char} (keeps : isKept c = true) : c ≠ '_' := by
  rintro rfl
  exact absurd keeps (by decide)

theorem head?_spread {pieces : List (Char × Nat)} (keeps : ∀ piece ∈ pieces, isKept piece.1 = true) :
    (spread pieces).head? ≠ some '_' := by
  cases pieces with
  | nil => exact nofun
  | cons piece pieces =>
      intro isHead
      exact ne_underscore_of_isKept (keeps piece List.mem_cons_self) (Option.some.inj isHead)

theorem mem_spread {pieces : List (Char × Nat)} {c : Char} (member : c ∈ spread pieces) :
    c ∈ pieces.map Prod.fst ∨ c = '_' := by
  obtain ⟨piece, among, member⟩ := List.mem_flatMap.mp member
  rcases List.mem_cons.mp member with rfl | member
  · exact .inl (List.mem_map_of_mem among)
  · exact .inr (List.eq_of_mem_replicate member)

theorem mem_spread_of_mem {pieces : List (Char × Nat)} {c : Char}
    (member : c ∈ pieces.map Prod.fst) : c ∈ spread pieces := by
  obtain ⟨piece, among, rfl⟩ := List.mem_map.mp member
  exact List.mem_flatMap.mpr ⟨piece, among, List.mem_cons_self⟩

theorem dropWhile_replicate (n : Nat) {s : JavaString} (head : s.head? ≠ some '_') :
    (List.replicate n '_' ++ s).dropWhile (· = '_') = s := by
  induction n with
  | zero =>
      cases s with
      | nil => rfl
      | cons c s =>
          have other : c ≠ '_' := fun same => head (congrArg some same)
          exact List.dropWhile_cons_of_neg (by simp [other])
  | succ n ih => simpa [List.replicate_succ] using ih

theorem rdropWhile_replicate (n : Nat) (s : JavaString) {c : Char} (other : c ≠ '_') :
    (s ++ c :: List.replicate n '_').rdropWhile (· = '_') = s ++ [c] := by
  rw [List.rdropWhile, List.reverse_append, List.reverse_cons, List.reverse_replicate,
    List.append_assoc, dropWhile_replicate]
  · simp
  · simpa using other

/-- The replaced name without underscores at its ends. -/
theorem trimChar_replaceUnsafe {s : JavaString} {front : List (Char × Nat)} {c : Char} {n : Nat}
    (isCounted : counted s = front ++ [(c, n)]) :
    trimChar '_' (replaceUnsafe false s) = spread front ++ [c] := by
  have keeps : ∀ piece ∈ front ++ [(c, n)], isKept piece.1 = true :=
    fun piece member => isKept_of_mem_counted (isCounted ▸ member)
  have last := ne_underscore_of_isKept (keeps (c, n) (by simp))
  rw [trimChar, replaceUnsafe_eq, isCounted, dropWhile_replicate _ (head?_spread keeps), spread,
    List.flatMap_append, List.flatMap_singleton, rdropWhile_replicate n _ last]
  rfl

theorem isWhitespace_of_isKept {c : Char} (keeps : isKept c = true) : isWhitespace c = false := by
  have low := isSafe_ascii (isSafe_of_isKept keeps)
  have table : ∀ n : Fin 128, isKept (Char.ofNat n) = true → isWhitespace (Char.ofNat n) = false := by
    decide
  have known := table ⟨c.toNat, low⟩
  simp only [Char.ofNat_toNat] at known
  exact known keeps

theorem counted_anyRemote :
    counted anyRemote = ("remot".toList.map fun c => (c, 0)) ++ [('e', 0)] := by
  decide

theorem spread_anyRemote : spread ("remot".toList.map fun c => (c, 0)) ++ ['e'] = anyRemote := by
  decide

/-- The generated name, put together from what the name means. -/
theorem buildRcloneName_eq (name : JavaString) :
    ∃ front c n, counted (meant name) = front ++ [(c, n)] ∧
      buildRcloneName name = generatedPrefix ++ (spread front ++ [c]) := by
  rcases List.eq_nil_or_concat' (counted (trim name)) with nothing | ⟨front, ⟨c, n⟩, isCounted⟩
  · have emptied : trimChar '_' (replaceUnsafe false (trim name)) = [] := by
      have all := @dropWhile_replicate (separators false (stretches (trim name)).1) [] nofun
      rw [trimChar, replaceUnsafe_eq, nothing]
      exact congrArg _ all
    have isMeant : meant name = anyRemote := by
      rw [meant, kept, nothing, List.map_nil, if_pos rfl]
    refine ⟨_, 'e', 0, isMeant ▸ counted_anyRemote, ?_⟩
    rw [buildRcloneName, emptied, spread_anyRemote, ifBlank, isBlank, List.all_nil, if_pos rfl]
  · have notEmpty : kept (trim name) ≠ [] := by
      rw [kept, isCounted]
      simp
    have isMeant : meant name = trim name := if_neg notEmpty
    have keeps : isKept c = true := by
      have among : (c, n) ∈ counted (trim name) := by simp [isCounted]
      exact isKept_of_mem_counted among
    have solid : isBlank (spread front ++ [c]) = false := by
      simp [isBlank, isWhitespace_of_isKept keeps]
    refine ⟨front, c, n, isMeant ▸ isCounted, ?_⟩
    rw [buildRcloneName, trimChar_replaceUnsafe isCounted, ifBlank, solid, if_neg Bool.false_ne_true]

/-! ## Names that stay apart -/

theorem spread_injective {first second : List (Char × Nat)}
    (firstKept : ∀ piece ∈ first, isKept piece.1 = true)
    (secondKept : ∀ piece ∈ second, isKept piece.1 = true) (same : spread first = spread second) :
    first = second := by
  have underscores : ∀ (n m : Nat) {s t : JavaString}, s.head? ≠ some '_' → t.head? ≠ some '_' →
      List.replicate n '_' ++ s = List.replicate m '_' ++ t → n = m ∧ s = t := by
    intro n
    induction n with
    | zero =>
        intro m s t left _ same
        cases m with
        | zero => exact ⟨rfl, same⟩
        | succ m =>
            rw [List.replicate_zero, List.nil_append] at same
            rw [same] at left
            exact absurd rfl left
    | succ n ih =>
        intro m s t left right same
        cases m with
        | zero =>
            rw [List.replicate_zero, List.nil_append] at same
            rw [← same] at right
            exact absurd rfl right
        | succ m =>
            obtain ⟨rfl, rest⟩ := ih m left right (List.cons.inj same).2
            exact ⟨rfl, rest⟩
  induction first generalizing second with
  | nil =>
      cases second with
      | nil => rfl
      | cons piece second => cases same
  | cons piece first ih =>
      cases second with
      | nil => cases same
      | cons other second =>
          have firstRest : ∀ piece ∈ first, isKept piece.1 = true :=
            fun q member => firstKept q (List.mem_cons_of_mem piece member)
          have secondRest : ∀ piece ∈ second, isKept piece.1 = true :=
            fun q member => secondKept q (List.mem_cons_of_mem other member)
          obtain ⟨sameChar, rest⟩ := List.cons.inj same
          obtain ⟨sameCount, rest⟩ :=
            underscores _ _ (head?_spread firstRest) (head?_spread secondRest) rest
          rw [ih firstRest secondRest rest, Prod.ext sameChar sameCount]

theorem eq_of_maps {first second : List (Char × Nat)}
    (chars : first.map Prod.fst = second.map Prod.fst)
    (counts : first.map Prod.snd = second.map Prod.snd) : first = second := by
  rw [← List.zip_unzip first, ← List.zip_unzip second, List.unzip_eq_map, List.unzip_eq_map, chars,
    counts]

/-- Two names are generated alike exactly if they keep the same characters with
equally many separators between them. -/
theorem buildRcloneName_eq_iff (a b : JavaString) :
    buildRcloneName a = buildRcloneName b ↔
      kept (meant a) = kept (meant b) ∧ gaps (meant a) = gaps (meant b) := by
  obtain ⟨front, c, n, isCounted, built⟩ := buildRcloneName_eq a
  obtain ⟨front', c', n', isCounted', built'⟩ := buildRcloneName_eq b
  rw [built, built', List.append_cancel_left_eq, kept, kept, gaps, gaps, isCounted, isCounted']
  simp only [List.map_append, List.map_cons, List.map_nil, List.dropLast_concat]
  constructor
  · intro same
    obtain ⟨fronts, ends⟩ := List.append_inj' same rfl
    have sameFront : front = front' := by
      refine spread_injective (fun piece member => ?_) (fun piece member => ?_) fronts
      · exact isKept_of_mem_counted (isCounted ▸ List.mem_append_left _ member)
      · exact isKept_of_mem_counted (isCounted' ▸ List.mem_append_left _ member)
    rw [sameFront, ends]
    exact ⟨rfl, rfl⟩
  · rintro ⟨chars, counts⟩
    obtain ⟨fronts, ends⟩ := List.append_inj' chars rfl
    rw [eq_of_maps fronts counts, ends]

/-- A generated name is valid unless the name keeps one hyphen only, as its last
character. -/
theorem isValidRcloneName_build_iff (classes : NameClasses) (name : JavaString) :
    isValidRcloneName classes (buildRcloneName name) = true ↔ ¬LoneHyphen (kept (meant name)) := by
  obtain ⟨front, c, n, isCounted, built⟩ := buildRcloneName_eq name
  have keeps : ∀ c ∈ kept (meant name), isKept c = true := by
    intro c member
    obtain ⟨piece, among, rfl⟩ := List.mem_map.mp member
    exact isKept_of_mem_counted among
  have isKeptFront : kept (meant name) = front.map Prod.fst ++ [c] := by
    rw [kept, isCounted]
    simp
  rw [isKeptFront] at keeps ⊢
  have prefixSafe : generatedPrefix.all (fun c => isSafe c && c ≠ '-') = true := by decide
  have safe : ∀ d ∈ buildRcloneName name, isSafe d = true := by
    intro d member
    rw [built] at member
    rcases List.mem_append.mp member with member | member
    · have known := List.all_eq_true.mp prefixSafe d member
      simp only [Bool.and_eq_true] at known
      exact known.1
    · rcases List.mem_append.mp member with member | member
      · rcases mem_spread member with member | rfl
        · exact isSafe_of_isKept (keeps d (List.mem_append_left _ member))
        · decide
      · exact isSafe_of_isKept (keeps d (List.mem_append_right _ member))
  have starts : (buildRcloneName name).head? = some 'q' := by
    rw [built]
    rfl
  rw [isValidRcloneName_iff safe starts (by decide), built, ← List.append_assoc]
  refine not_congr ⟨?_, ?_⟩
  · rintro ⟨before, isLone, absent⟩
    obtain ⟨rfl, ends⟩ := List.append_inj' isLone rfl
    refine ⟨front.map Prod.fst, by rw [ends], fun member => absent ?_⟩
    exact List.mem_append_right _ (mem_spread_of_mem member)
  · rintro ⟨before, isLone, absent⟩
    obtain ⟨rfl, ends⟩ := List.append_inj' isLone rfl
    refine ⟨generatedPrefix ++ spread front, by rw [ends], fun member => ?_⟩
    rcases List.mem_append.mp member with member | member
    · have known := List.all_eq_true.mp prefixSafe '-' member
      exact absurd known (by decide)
    · rcases mem_spread member with member | isUnderscore
      · exact absent member
      · exact absurd isUnderscore (by decide)

/-- The names generated for the remotes of a list are valid and different. -/
structure NamesWork (classes : NameClasses) (names : List JavaString) : Prop where
  valid : ∀ name ∈ names, isValidRcloneName classes (resolveRcloneName name none) = true
  apart : names.Pairwise fun a b => resolveRcloneName a none ≠ resolveRcloneName b none

/-- No name keeps a hyphen only once and at its end, and no two keep the same
characters with equally many separators between them. -/
structure NamesApart (names : List JavaString) : Prop where
  hyphen : ∀ name ∈ names, ¬LoneHyphen (kept (meant name))
  apart : names.Pairwise fun a b =>
    ¬(kept (meant a) = kept (meant b) ∧ gaps (meant a) = gaps (meant b))

theorem resolveRcloneName_none (name : JavaString) :
    resolveRcloneName name none = buildRcloneName name := by
  rw [resolveRcloneName, Option.map_none, Option.getD_none, ifBlank, isBlank, List.all_nil,
    if_pos rfl]

/-- The generated names of a list of remotes work exactly if the names are apart
in what the generated ones keep. -/
theorem namesWork_iff (classes : NameClasses) (names : List JavaString) :
    NamesWork classes names ↔ NamesApart names := by
  constructor
  · intro work
    constructor
    · intro name member
      rw [← isValidRcloneName_build_iff classes, ← resolveRcloneName_none]
      exact work.valid name member
    · refine work.apart.imp fun different same => different ?_
      rw [resolveRcloneName_none, resolveRcloneName_none, buildRcloneName_eq_iff]
      exact same
  · intro apart
    constructor
    · intro name member
      rw [resolveRcloneName_none, isValidRcloneName_build_iff]
      exact apart.hyphen name member
    · refine apart.apart.imp fun different same => different ?_
      rwa [resolveRcloneName_none, resolveRcloneName_none, buildRcloneName_eq_iff] at same

/-- The classes of ASCII alone. -/
def asciiNames : NameClasses where
  toUnicodeClasses := asciiClasses
  word := fun c => c.isAlphanum || c = '_'
  word_ascii _ _ := rfl

/-- Two remotes with names in Chinese get one name in rclone. -/
theorem chineseNames_collide :
    ¬∀ (classes : NameClasses) (cases : CaseTables) (names : List JavaString),
      names.Pairwise (fun a b => cases.equalsIgnoreCase a b = false) → NamesWork classes names := by
  intro work
  have apart : ["网盘".toList, "远端".toList].Pairwise
      fun a b => asciiCase.equalsIgnoreCase a b = false := by
    decide
  have different := (work asciiNames asciiCase _ apart).apart
  have collide : resolveRcloneName "网盘".toList none = resolveRcloneName "远端".toList none := by
    decide
  exact List.rel_of_pairwise_cons different List.mem_cons_self collide

end RoundSync.QuarkDav
