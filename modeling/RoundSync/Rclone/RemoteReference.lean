import RoundSync.Rclone.Fspath
import RoundSync.Text.JavaString

/-!
# Remote references

`RemoteReferenceParser` classifies the target of a wrapping backend without
rclone: a local path, a named remote or a backend given in the reference itself.
This file compares it with `fspath.Parse` on every path that rclone accepts.
-/

namespace RoundSync.Rclone

open RoundSync.Text

namespace RemoteReferenceParser

inductive Kind where
  | localTarget
  | namedRemote
  | inlineBackend
  | unknown
  deriving DecidableEq

structure Result where
  kind : Kind
  value : JavaString
  deriving DecidableEq

/-- What Java's `trim` removes at both ends. -/
def isTrimmed (c : Char) : Bool :=
  c.toNat ≤ 32

/-- `String.trim` of Java. -/
def trim (s : JavaString) : JavaString :=
  (s.dropWhile isTrimmed).rdropWhile isTrimmed

/-- `indexOf` with a start, -1 where the character is absent. -/
def indexOf (s : JavaString) (c : Char) (start : Nat) : Int :=
  match (s.drop start).findIdx? (· = c) with
  | some index => start + index
  | none => -1

def substring (s : JavaString) (first last : Int) : JavaString :=
  (s.take last.toNat).drop first.toNat

/-- The loop of `isLocalTarget`, at a position in UTF-16 code units; at position
1 the first character has one unit. -/
def localLoop (classes : UnicodeClasses) (first : Option Char) : JavaString → Nat → Bool
  | [], _ => true
  | c :: rest, i =>
      if c = '/' || c = backslash then true
      else if c = ',' || c = ':' then c = ':' && i = 1 && first.any classes.letter
      else localLoop classes first rest (i + (Kotlin.utf16 c).length)

def isLocalTarget (classes : UnicodeClasses) (target : JavaString) : Bool :=
  if indexOf target ':' 0 < 0 then true else localLoop classes target.head? target 0

def getInlineBackend (target : JavaString) : JavaString :=
  if target.length ≤ 1 then []
  else
    let comma := indexOf target ',' 1
    let colon := indexOf target ':' 1
    let finish := if comma < 0 then colon else if colon < 0 then comma else min comma colon
    if finish ≤ 1 then [] else trim (substring target 1 finish)

def getNamedRemote (target : JavaString) : JavaString :=
  let colon := indexOf target ':' 0
  if colon ≤ 0 then []
  else
    let comma := indexOf target ',' 0
    let finish := if comma ≥ 0 && comma < colon then comma else colon
    trim (substring target 0 finish)

def parse (classes : UnicodeClasses) (rawTarget : JavaString) : Result :=
  let target := trim rawTarget
  if target = [] then ⟨.unknown, []⟩
  else if isLocalTarget classes target then ⟨.localTarget, target⟩
  else if target.head? = some ':' then
    let backend := getInlineBackend target
    if backend = [] then ⟨.unknown, []⟩ else ⟨.inlineBackend, backend⟩
  else
    let remoteName := getNamedRemote target
    if remoteName = [] then ⟨.unknown, []⟩ else ⟨.namedRemote, remoteName⟩

/-! ## Names that rclone accepts -/

variable {classes : UnicodeClasses}

theorem nameStart_visible {c : Char} (starts : nameStart classes c = true) :
    isTrimmed c = false ∧ isMark c = false := by
  by_cases ascii : c.toNat < 128
  · have table : ∀ n : Fin 128,
        let d := Char.ofNat n
        (d.isAlphanum || d = '_' || d.isAlpha || d.isDigit || d = '.' || d = '+' || d = '@') =
          true → isTrimmed d = false ∧ isMark d = false := by decide
    have known := table ⟨c.toNat, ascii⟩
    simp only [Char.ofNat_toNat] at known
    rw [nameStart, classes.letter_ascii c ascii, classes.number_ascii c ascii] at starts
    exact known starts
  · constructor
    · simp only [isTrimmed, decide_eq_false_iff_not]
      omega
    · have apart : ∀ d : Char, d.toNat < 128 → c ≠ d := fun d low same => ascii (same ▸ low)
      simp [isMark, apart '/' (by decide), apart backslash (by decide), apart ':' (by decide),
        apart ',' (by decide)]

/-- A name as `configNameRe` has it: visible at both ends, and no mark in front. -/
structure IsName (name : FsText) : Prop where
  first : ∀ c, name.head? = some c → isTrimmed c = false ∧ isMark c = false
  last : Pattern.EndsIn (fun c => isTrimmed c = false) name
  nonempty : name ≠ []

theorem isName_of_matches {name : FsText} (described : (configNameRe classes).Matches name) :
    IsName name := by
  cases described with
  | @seq _ _ v w left right =>
      obtain ⟨nonempty, starts⟩ := left.plus_one
      have visible : ∀ c ∈ v, isTrimmed c = false :=
        fun c member => (nameStart_visible (starts c member)).1
      refine ⟨fun c isHead => ?_, ?_, by simp [nonempty]⟩
      · rw [List.head?_append_of_ne_nil v nonempty] at isHead
        exact nameStart_visible (starts c (List.mem_of_head? isHead))
      · apply Pattern.EndsIn.append (fun _ => .of_forall visible)
        apply right.endsIn_star (P := fun c => isTrimmed c = false)
        intro part described
        cases described with
        | @seq _ _ x y separator word =>
            obtain ⟨nonempty, admitted⟩ := word.plus_one
            refine Pattern.EndsIn.append (fun isEmpty => absurd isEmpty nonempty)
              (Pattern.EndsIn.of_forall ?_)
            intro c member
            have either := admitted c member
            simp only [Bool.or_eq_true, decide_eq_true_eq] at either
            rcases either with starts | rfl
            · exact (nameStart_visible starts).1
            · decide

/-- No comma stands in a name before its final colon. -/
theorem comma_not_behind {name front rest : FsText} (unmarked : Unmarked name) (some_ : front ≠ [])
    (equal : name ++ [':'] = front ++ ',' :: rest) : False := by
  cases front with
  | nil => exact some_ rfl
  | cons head front =>
      cases name with
      | nil =>
          have lengths := congrArg List.length equal
          simp at lengths
      | cons first name =>
          have tails : name ++ [':'] = front ++ ',' :: rest := (List.cons.inj equal).2
          have member : ',' ∈ name := by
            have among : ',' ∈ name ++ [':'] := by simp [tails]
            simpa using among
          exact absurd (unmarked ',' member) (by decide)

/-- A valid remote name is a config name, or one behind a colon. -/
theorem checkRemoteName_cases {name : FsText} (unmarked : Unmarked name)
    (valid : checkRemoteName classes (name ++ [':']) = none) :
    IsName name ∨ ∃ backend, name = ':' :: backend ∧ IsName backend := by
  have accepted : (remoteNameMatcher classes).Matches (name ++ [':']) := by
    apply Pattern.accepts_iff.mp
    unfold checkRemoteName at valid
    split at valid
    · cases valid
    · split at valid
      · assumption
      · cases valid
  generalize isWhole : name ++ [':'] = whole at accepted
  cases accepted with
  | @seq _ _ u rest colon tail =>
      cases tail with
      | @seq _ _ v ending described ends =>
          have isName := isName_of_matches described
          have name_eq : name = u ++ v := by
            rw [← List.append_assoc] at isWhole
            cases ends with
            | altLeft final =>
                cases final with
                | one isColon =>
                    rw [of_decide_eq_true isColon] at isWhole
                    exact List.append_cancel_right isWhole
            | altRight more =>
                cases more with
                | seq comma more =>
                    cases comma with
                    | one isComma =>
                        rw [of_decide_eq_true isComma] at isWhole
                        exact (comma_not_behind unmarked (by simp [isName.nonempty]) isWhole).elim
          cases colon with
          | altLeft nothing =>
              cases nothing
              exact .inl (name_eq ▸ isName)
          | altRight leading =>
              cases leading with
              | one isColon =>
                  rw [of_decide_eq_true isColon] at name_eq
                  exact .inr ⟨v, name_eq, isName⟩

/-! ## Searching and trimming -/

theorem indexOf_append {skipped front rest : JavaString} {c : Char} (absent : c ∉ front) :
    indexOf (skipped ++ (front ++ rest)) c skipped.length =
      match rest.findIdx? (· = c) with
      | some index => (skipped.length : Int) + front.length + index
      | none => -1 := by
  have nowhere : front.findIdx? (· = c) = none :=
    List.findIdx?_eq_none_iff.mpr fun d member => decide_eq_false fun same => absent (same ▸ member)
  rw [indexOf, List.drop_left, List.findIdx?_append, nowhere, Option.none_or]
  cases rest.findIdx? (· = c) with
  | none => rfl
  | some index =>
      change (skipped.length : Int) + (index + front.length : Nat) =
        (skipped.length : Int) + front.length + index
      omega

theorem indexOf_found {skipped front rest : JavaString} {c : Char} (absent : c ∉ front) :
    indexOf (skipped ++ (front ++ c :: rest)) c skipped.length =
      (skipped.length : Int) + front.length := by
  rw [indexOf_append absent, List.findIdx?_cons]
  simp

/-- A search fails or finds the character behind a front without it. -/
theorem indexOf_later {skipped front rest : JavaString} {c : Char} (absent : c ∉ front) :
    indexOf (skipped ++ (front ++ rest)) c skipped.length < 0 ∨
      (skipped.length : Int) + front.length ≤
        indexOf (skipped ++ (front ++ rest)) c skipped.length := by
  rw [indexOf_append absent]
  cases rest.findIdx? (· = c) with
  | none => exact .inl (Int.negSucc_lt_zero 0)
  | some index => exact .inr (Int.le_add_of_nonneg_right (Int.natCast_nonneg index))

theorem indexOf_neg_iff {s : JavaString} {c : Char} : indexOf s c 0 < 0 ↔ c ∉ s := by
  rw [indexOf, List.drop_zero]
  cases found : s.findIdx? (· = c) with
  | none =>
      rw [List.findIdx?_eq_none_iff] at found
      refine iff_of_true (by decide) fun member => ?_
      exact of_decide_eq_false (found c member) rfl
  | some index =>
      obtain ⟨inBounds, here, -⟩ := List.findIdx?_eq_some_iff_getElem.mp found
      refine iff_of_false (by dsimp only; omega) fun absent => absent ?_
      exact of_decide_eq_true here ▸ List.getElem_mem inBounds

/-- What `trim` may remove is not in a visible character's way. -/
theorem dropWhile_append {front rest : JavaString} {c : Char} (visible : isTrimmed c = false) :
    (front ++ c :: rest).dropWhile isTrimmed = front.dropWhile isTrimmed ++ c :: rest := by
  rw [List.dropWhile_append]
  split
  · rename_i nothing
    rw [List.isEmpty_iff.mp nothing, List.dropWhile_cons_of_neg (by simp [visible]), List.nil_append]
  · rfl

theorem rdropWhile_append {front rest : JavaString} {c : Char} (visible : isTrimmed c = false) :
    (front ++ c :: rest).rdropWhile isTrimmed = front ++ c :: rest.rdropWhile isTrimmed := by
  induction rest using List.reverseRecOn with
  | nil => exact List.rdropWhile_concat_neg _ _ _ (by simp [visible])
  | append_singleton rest d ih =>
      have regroup : front ++ c :: (rest ++ [d]) = (front ++ c :: rest) ++ [d] := by simp
      rw [regroup, List.rdropWhile_concat, List.rdropWhile_concat, ih]
      split
      · rfl
      · simp

/-- A visible character divides what is trimmed at the two ends. -/
theorem trim_append {front rest : JavaString} {c : Char} (visible : isTrimmed c = false) :
    trim (front ++ c :: rest) = front.dropWhile isTrimmed ++ c :: rest.rdropWhile isTrimmed := by
  rw [trim, dropWhile_append visible, rdropWhile_append visible]

/-- Trimming keeps the visible characters. -/
theorem mem_trim_iff {c : Char} {s : JavaString} (visible : isTrimmed c = false) :
    c ∈ trim s ↔ c ∈ s := by
  constructor
  · intro member
    exact (List.dropWhile_suffix _).subset ((List.rdropWhile_prefix _ _).subset member)
  · intro member
    obtain ⟨front, rest, rfl⟩ := List.append_of_mem member
    simp [trim_append visible]

theorem visible_of_isMark {c : Char} (marked : isMark c = true) : isTrimmed c = false := by
  simp only [isMark, Bool.or_eq_true, decide_eq_true_eq] at marked
  rcases marked with ((rfl | rfl) | rfl) | rfl
  · decide
  · decide
  · decide
  · decide

theorem dropWhile_name {name : FsText} (isName : IsName name) :
    name.dropWhile isTrimmed = name := by
  cases name with
  | nil => rfl
  | cons c name => rw [List.dropWhile_cons_of_neg (by simp [(isName.first c rfl).1])]

theorem trim_name {name : FsText} (isName : IsName name) : trim name = name := by
  rw [trim, dropWhile_name isName, List.rdropWhile_eq_self_iff]
  intro nonempty
  simp [isName.last _ (List.getLast?_eq_some_getLast nonempty)]

/-! ## The kinds of targets -/

/-- Without marks, the loop goes on. -/
theorem localLoop_append {first : Option Char} {front rest : JavaString} {i : Nat}
    (unmarked : ∀ c ∈ front, isMark c = false) :
    localLoop classes first (front ++ rest) i =
      localLoop classes first rest (i + (front.flatMap Kotlin.utf16).length) := by
  induction front generalizing i with
  | nil => rfl
  | cons c front ih =>
      have free := unmarked c List.mem_cons_self
      simp only [isMark, Bool.or_eq_false_iff, decide_eq_false_iff_not] at free
      rw [List.cons_append, localLoop, if_neg (by simp [free]), if_neg (by simp [free]),
        ih fun d member => unmarked d (List.mem_cons_of_mem _ member), List.flatMap_cons,
        List.length_append, Nat.add_assoc]

/-- A target whose first mark is a slash is local. -/
theorem isLocalTarget_slash {front rest : JavaString} {slash : Char}
    (isSlash : slash = '/' ∨ slash = backslash) (unmarked : ∀ c ∈ front, isMark c = false) :
    isLocalTarget classes (front ++ slash :: rest) = true := by
  unfold isLocalTarget
  split
  · rfl
  · rw [localLoop_append unmarked, localLoop, if_pos (by simpa using isSlash)]

theorem utf16_length_pos (c : Char) : 0 < (Kotlin.utf16 c).length := by
  unfold Kotlin.utf16
  split
  · exact Nat.zero_lt_one
  · exact Nat.zero_lt_two

/-- The reference has the form of a path on a drive: a letter of one UTF-16 code
unit and a colon. -/
def isDrive (classes : UnicodeClasses) : FsText → Bool
  | c :: mark :: _ => mark = ':' && (classes.letter c && (Kotlin.utf16 c).length = 1)
  | _ => false

/-- What is behind the first mark does not matter. -/
theorem isDrive_append {name rest other : FsText} {mark : Char} (nonempty : name ≠ []) :
    isDrive classes (name ++ mark :: rest) = isDrive classes (name ++ mark :: other) := by
  cases name with
  | nil => exact absurd rfl nonempty
  | cons c name =>
      cases name with
      | nil => rfl
      | cons d name => rfl

theorem isDrive_colon (rest : FsText) : isDrive classes (':' :: rest) = false := by
  cases rest with
  | nil => rfl
  | cons mark rest =>
      have noLetter : classes.letter ':' = false := classes.letter_ascii ':' (by decide)
      rw [isDrive, noLetter, Bool.false_and, Bool.and_false]

/-- A target with a name before its first mark is local only for a single letter. -/
theorem isLocalTarget_named {name rest : JavaString} {mark : Char}
    (isEnd : mark = ':' ∨ mark = ',') (unmarked : ∀ c ∈ name, isMark c = false)
    (colon : ':' ∈ name ++ mark :: rest)
    (noDrive : isDrive classes (name ++ mark :: rest) = false) :
    isLocalTarget classes (name ++ mark :: rest) = false := by
  have found : ¬indexOf (name ++ mark :: rest) ':' 0 < 0 := fun absent =>
    indexOf_neg_iff.mp absent colon
  have noSlash : ¬(decide (mark = '/') || decide (mark = backslash)) = true := by
    rcases isEnd with rfl | rfl
    · decide
    · decide
  rw [isLocalTarget, if_neg found, localLoop_append unmarked, localLoop, if_neg noSlash,
    if_pos (by simpa using isEnd.symm), Nat.zero_add]
  cases name with
  | nil => simp
  | cons c name =>
      cases name with
      | nil =>
          simp only [List.cons_append, List.nil_append, isDrive] at noDrive
          have units : ([c].flatMap Kotlin.utf16).length = (Kotlin.utf16 c).length := by simp
          rw [units, List.cons_append, List.head?_cons, Option.any_some, Bool.and_assoc,
            Bool.and_comm (decide _) (classes.letter c)]
          exact noDrive
      | cons d name =>
          have long : ¬((c :: d :: name).flatMap Kotlin.utf16).length = 1 := by
            have first := utf16_length_pos c
            have second := utf16_length_pos d
            simp only [List.flatMap_cons, List.length_append]
            omega
          simp only [long, decide_false, Bool.and_false, Bool.false_and]

theorem not_mem_of_isMark {name : FsText} {c : Char} (marked : isMark c = true)
    (unmarked : ∀ d ∈ name, isMark d = false) : c ∉ name :=
  fun member => absurd marked (by simp [unmarked c member])

/-- The first mark behind a name, as the two searches find it. -/
theorem indexOf_mark {skipped name rest : JavaString} {mark other : Char}
    (marked : isMark mark = true) (otherMarked : isMark other = true) (apart : mark ≠ other)
    (unmarked : ∀ c ∈ name, isMark c = false) :
    indexOf (skipped ++ (name ++ mark :: rest)) mark skipped.length =
        (skipped.length : Int) + name.length ∧
      (indexOf (skipped ++ (name ++ mark :: rest)) other skipped.length < 0 ∨
        (skipped.length : Int) + name.length <
          indexOf (skipped ++ (name ++ mark :: rest)) other skipped.length) := by
  refine ⟨indexOf_found (not_mem_of_isMark marked unmarked), ?_⟩
  have absent : other ∉ name ++ [mark] := by
    simp [not_mem_of_isMark otherMarked unmarked, apart.symm]
  have later := @indexOf_later skipped (name ++ [mark]) rest other absent
  rw [List.append_assoc, List.singleton_append, List.length_append, List.length_singleton] at later
  omega

theorem getNamedRemote_eq {name rest : JavaString} {mark : Char} (isName : IsName name)
    (isEnd : mark = ':' ∨ mark = ',') (unmarked : ∀ c ∈ name, isMark c = false)
    (colon : ':' ∈ name ++ mark :: rest) : getNamedRemote (name ++ mark :: rest) = name := by
  have found : ¬indexOf (name ++ mark :: rest) ':' 0 < 0 := fun absent =>
    indexOf_neg_iff.mp absent colon
  have positive : 0 < name.length := List.length_pos_iff.mpr isName.nonempty
  have cut : trim (substring (name ++ mark :: rest) 0 name.length) = name := by
    rw [substring, Int.toNat_natCast, List.take_left]
    exact trim_name isName
  unfold getNamedRemote
  dsimp only
  rcases isEnd with rfl | rfl
  · obtain ⟨here, later⟩ := @indexOf_mark [] name rest ':' ',' rfl rfl (by decide) unmarked
    simp only [List.nil_append, List.length_nil, Int.natCast_zero, Int.zero_add] at here later
    rw [if_neg (by omega), if_neg (by simp only [Bool.and_eq_true, decide_eq_true_eq]; omega), here]
    exact cut
  · obtain ⟨here, later⟩ := @indexOf_mark [] name rest ',' ':' rfl rfl (by decide) unmarked
    simp only [List.nil_append, List.length_nil, Int.natCast_zero, Int.zero_add] at here later
    rw [if_neg (by omega), if_pos (by simp only [Bool.and_eq_true, decide_eq_true_eq]; omega), here]
    exact cut

theorem getInlineBackend_eq {backend rest : JavaString} {mark : Char} (isName : IsName backend)
    (isEnd : mark = ':' ∨ mark = ',') (unmarked : ∀ c ∈ backend, isMark c = false) :
    getInlineBackend (':' :: (backend ++ mark :: rest)) = backend := by
  have positive : 0 < backend.length := List.length_pos_iff.mpr isName.nonempty
  have long : ¬(':' :: (backend ++ mark :: rest)).length ≤ 1 := by simp
  have cut : trim (substring (':' :: (backend ++ mark :: rest)) 1 (1 + (backend.length : Int))) =
      backend := by
    have toNat : (1 + (backend.length : Int)).toNat = backend.length + 1 := by omega
    rw [substring, toNat, List.take_succ_cons, List.take_left]
    exact trim_name isName
  -- whichever of the two marks comes first, the smaller position is the end of the name
  have finish_eq : ∀ comma colon : Int,
      comma = 1 + backend.length ∧ (colon < 0 ∨ 1 + (backend.length : Int) < colon) ∨
        colon = 1 + backend.length ∧ (comma < 0 ∨ 1 + (backend.length : Int) < comma) →
      (if comma < 0 then colon else if colon < 0 then comma else min comma colon) =
        1 + backend.length := by
    intro comma colon apart
    split
    · omega
    · split
      · omega
      · omega
  have ends : indexOf (':' :: (backend ++ mark :: rest)) ',' 1 = 1 + backend.length ∧
        (indexOf (':' :: (backend ++ mark :: rest)) ':' 1 < 0 ∨
          1 + (backend.length : Int) < indexOf (':' :: (backend ++ mark :: rest)) ':' 1) ∨
      indexOf (':' :: (backend ++ mark :: rest)) ':' 1 = 1 + backend.length ∧
        (indexOf (':' :: (backend ++ mark :: rest)) ',' 1 < 0 ∨
          1 + (backend.length : Int) < indexOf (':' :: (backend ++ mark :: rest)) ',' 1) := by
    rcases isEnd with rfl | rfl
    · exact .inr (@indexOf_mark [':'] backend rest ':' ',' rfl rfl (by decide) unmarked)
    · exact .inl (@indexOf_mark [':'] backend rest ',' ':' rfl rfl (by decide) unmarked)
  unfold getInlineBackend
  rw [if_neg long]
  dsimp only
  rw [finish_eq _ _ ends, if_neg (by omega)]
  exact cut

/-- What the parser has to make of a path that rclone takes apart in this way. -/
def Agrees (parsed : Parsed) (result : Result) : Prop :=
  match parsed.name with
  | [] => result.kind = .localTarget
  | ':' :: backend => result = ⟨.inlineBackend, backend⟩
  | name => result = ⟨.namedRemote, name⟩

/-- A target without a colon, or with a slash as its first mark, is local. -/
theorem parse_local {path : FsText} (notBlank : trim path ≠ [])
    (isLocal : isLocalTarget classes (trim path) = true) :
    (parse classes path).kind = .localTarget := by
  unfold parse
  dsimp only
  rw [if_neg notBlank, if_pos isLocal]

theorem parse_named {name rest : FsText} {mark : Char} (isName : IsName name)
    (isEnd : mark = ':' ∨ mark = ',') (unmarked : ∀ c ∈ name, isMark c = false)
    (colon : ':' ∈ name ++ mark :: rest)
    (noDrive : isDrive classes (name ++ mark :: rest) = false) :
    parse classes (name ++ mark :: rest) = ⟨.namedRemote, name⟩ := by
  rw [@isDrive_append _ _ _ (rest.rdropWhile isTrimmed) _ isName.nonempty] at noDrive
  have visible : isTrimmed mark = false := by
    apply visible_of_isMark
    rcases isEnd with rfl | rfl
    · rfl
    · rfl
  have still : ':' ∈ name ++ mark :: rest.rdropWhile isTrimmed := by
    have kept := (mem_trim_iff (by decide)).mpr colon
    rwa [trim_append visible, dropWhile_name isName] at kept
  have noColon : (name ++ mark :: rest.rdropWhile isTrimmed).head? ≠ some ':' := by
    rw [List.head?_append_of_ne_nil _ isName.nonempty]
    intro isHead
    exact absurd (isName.first ':' isHead).2 (by decide)
  unfold parse
  dsimp only
  rw [trim_append visible, dropWhile_name isName, if_neg (by simp),
    if_neg (by simp [isLocalTarget_named isEnd unmarked still noDrive]), if_neg noColon,
    getNamedRemote_eq isName isEnd unmarked still, if_neg isName.nonempty]

theorem parse_inline {backend rest : FsText} {mark : Char} (isName : IsName backend)
    (isEnd : mark = ':' ∨ mark = ',') (unmarked : ∀ c ∈ backend, isMark c = false) :
    parse classes (':' :: (backend ++ mark :: rest)) = ⟨.inlineBackend, backend⟩ := by
  have visible : isTrimmed mark = false := by
    apply visible_of_isMark
    rcases isEnd with rfl | rfl
    · rfl
    · rfl
  have trimmed : trim (':' :: (backend ++ mark :: rest)) =
      ':' :: (backend ++ mark :: rest.rdropWhile isTrimmed) := by
    have divided := @trim_append (':' :: backend) rest mark visible
    rwa [List.dropWhile_cons_of_neg (by decide)] at divided
  have notLocal : isLocalTarget classes (':' :: (backend ++ mark :: rest.rdropWhile isTrimmed)) =
      false :=
    @isLocalTarget_named classes [] (backend ++ mark :: rest.rdropWhile isTrimmed) ':' (.inl rfl)
      (fun _ member => absurd member List.not_mem_nil) List.mem_cons_self (isDrive_colon _)
  have isColon : (':' :: (backend ++ mark :: rest.rdropWhile isTrimmed)).head? = some ':' := rfl
  unfold parse
  dsimp only
  rw [trimmed, if_neg (by simp), if_neg (by simp [notLocal]), if_pos isColon,
    getInlineBackend_eq isName isEnd unmarked, if_neg isName.nonempty]

/-- The name of an accepted path in the form of a path on a drive is the letter. -/
theorem name_of_isDrive {path : FsText} {parsed : Parsed}
    (accepted : Rclone.parse classes path = .ok parsed) (drive : isDrive classes path = true) :
    ∃ c, classes.letter c = true ∧ parsed.name = [c] ∧ parsed.config = none := by
  unfold isDrive at drive
  split at drive
  · rename_i c mark rest
    simp only [Bool.and_eq_true, decide_eq_true_eq] at drive
    obtain ⟨rfl, letter, _⟩ := drive
    have free : isMark c = false := by
      have starts : nameStart classes c = true := by simp [nameStart, letter]
      exact (nameStart_visible starts).2
    have apart : ∀ d, isMark d = true → c ≠ d := by
      rintro d marked rfl
      rw [free] at marked
      contradiction
    refine ⟨c, letter, ?_⟩
    cases parse_accepts accepted with
    | noColon colon _ => simp at colon
    | slashFirst front rest' slash _ path_eq isSlash unmarked =>
        cases front with
        | nil =>
            refine absurd (List.cons.inj path_eq).1 (apart slash ?_)
            rcases isSlash with rfl | rfl
            · rfl
            · rfl
        | cons d front =>
            have tails : ':' :: rest = front ++ slash :: rest' := (List.cons.inj path_eq).2
            cases front with
            | nil =>
                have isColon : ':' = slash := (List.cons.inj tails).1
                rcases isSlash with rfl | rfl
                · exact absurd isColon (by decide)
                · exact absurd isColon (by decide)
            | cons e front =>
                have isColon : ':' = e := (List.cons.inj tails).1
                exact absurd (unmarked e (by simp)) (by simp [← isColon, isMark])
    | named name rest' mark isName path_eq isEnd unmarked _ _ plain =>
        cases name with
        | nil =>
            refine absurd (List.cons.inj path_eq).1 (apart mark ?_)
            rcases isEnd with rfl | rfl
            · rfl
            · rfl
        | cons d name =>
            obtain ⟨rfl, tails⟩ := List.cons.inj path_eq
            cases name with
            | nil => exact ⟨isName, plain (List.cons.inj tails).1.symm⟩
            | cons e name =>
                have isColon : ':' = e := (List.cons.inj tails).1
                exact absurd (unmarked e (by simp)) (by simp [← isColon, isMark])
  · contradiction

/-- On every path that rclone accepts, if it is not blank and has not the form of
a path on a drive, the parser agrees with rclone. -/
theorem agrees_of_accepted {path : FsText} {parsed : Parsed}
    (accepted : Rclone.parse classes path = .ok parsed) (notBlank : trim path ≠ [])
    (noDrive : isDrive classes path = false) : Agrees parsed (parse classes path) := by
  cases parse_accepts accepted with
  | noColon colon isLocal =>
      rw [Agrees, isLocal]
      apply parse_local notBlank
      rw [isLocalTarget, if_pos]
      exact indexOf_neg_iff.mpr fun member => colon ((mem_trim_iff (by decide)).mp member)
  | slashFirst front rest slash isLocal path_eq isSlash unmarked =>
      rw [Agrees, isLocal]
      apply parse_local notBlank
      have visible : isTrimmed slash = false := by
        rcases isSlash with rfl | rfl
        · decide
        · decide
      rw [path_eq, trim_append visible]
      exact isLocalTarget_slash isSlash fun c member =>
        unmarked c ((List.dropWhile_suffix _).subset member)
  | named name rest mark isName path_eq isEnd unmarked valid colon plain =>
      subst path_eq
      rw [Agrees, isName]
      rcases checkRemoteName_cases unmarked valid with named | ⟨backend, rfl, named⟩
      · have free : ∀ c ∈ name, isMark c = false := by
          cases name with
          | nil => exact absurd rfl named.nonempty
          | cons c name =>
              intro d member
              rcases List.mem_cons.mp member with rfl | member
              · exact (named.first d rfl).2
              · exact unmarked d member
        rw [parse_named named isEnd free colon noDrive]
        split
        · exact absurd rfl named.nonempty
        · exact absurd (named.first ':' rfl).2 (by decide)
        · rfl
      · exact parse_inline named isEnd unmarked

/-- On every path that rclone accepts, if it is not blank and not on a remote
whose plain name is a single letter, the parser agrees with rclone. -/
theorem parse_agrees (classes : UnicodeClasses) (path : FsText) (parsed : Parsed)
    (accepted : Rclone.parse classes path = .ok parsed) (notBlank : trim path ≠ [])
    (notDrive : ∀ c, classes.letter c = true → parsed.name = [c] → parsed.config ≠ none) :
    Agrees parsed (parse classes path) := by
  apply agrees_of_accepted accepted notBlank
  cases drive : isDrive classes path with
  | false => rfl
  | true =>
      obtain ⟨c, letter, single, noConfig⟩ := name_of_isDrive accepted drive
      exact absurd noConfig (notDrive c letter single)

/-- A reference with a quoted value that holds a colon and a doubled quote. -/
def quotedReference : FsText :=
  "base,p=\"a:\"\"b\":dir".toList

theorem parse_agrees_quotedReference :
    parse asciiClasses quotedReference = ⟨.namedRemote, "base".toList⟩ := by
  have accepted : Rclone.parse asciiClasses quotedReference =
      .ok
        { name := "base".toList, configString := "base,p=\"a:\"\"b\"".toList, path := "dir".toList
          config := some ((∅ : Data.Table FsText FsText).insert "p".toList "a:\"b".toList) } := by
    rfl
  have notBlank : trim quotedReference ≠ [] := by decide
  exact parse_agrees asciiClasses quotedReference _ accepted notBlank fun _ _ _ =>
    Option.some_ne_none _

end RemoteReferenceParser

end RoundSync.Rclone
