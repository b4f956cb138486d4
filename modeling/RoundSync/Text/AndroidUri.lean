import RoundSync.Text.JavaString
import RoundSync.Text.Separated

/-!
# URIs of Android

`Uri.encode` and `URLEncoder.encode`, which write a text as percent escapes of
its UTF-8 octets, the path of a URI that is parsed from a string, and the
decoding of its segments.  How many octets a malformed sequence takes is left to
the charset and is a parameter.
-/

namespace RoundSync.Text.AndroidUri

/-! ## Encoding -/

def HEX_DIGITS : List Char :=
  "0123456789ABCDEF".toList

def isLetterOrDigit (c : Char) : Bool :=
  ('a' ≤ c && c ≤ 'z') || ('A' ≤ c && c ≤ 'Z') || ('0' ≤ c && c ≤ '9')

/-- One octet as a percent escape. -/
def escapeOctet (octet : UInt8) : JavaString :=
  ['%', HEX_DIGITS.getD (octet.toNat / 16) '0', HEX_DIGITS.getD (octet.toNat % 16) '0']

/-- The octets of a character as percent escapes. -/
def escapeChar (c : Char) : JavaString :=
  (String.utf8EncodeChar c).flatMap escapeOctet

/-- `Uri.encode`. -/
def encode (s : JavaString) : JavaString :=
  s.flatMap fun c =>
    if isLetterOrDigit c || c ∈ "_-!.~'()*".toList then [c] else escapeChar c

/-- `URLEncoder.encode`, which writes a form field. -/
def formEncode (s : JavaString) : JavaString :=
  s.flatMap fun c =>
    if isLetterOrDigit c || c ∈ ".-*_".toList then [c]
    else if c = ' ' then ['+']
    else escapeChar c

/-! ## Decoding -/

def INVALID_INPUT_CHARACTER : Char :=
  Char.ofNat 0xFFFD

def hexCharToValue (c : Char) : Option Nat :=
  if '0' ≤ c ∧ c ≤ '9' then some (c.toNat - 48)
  else if 'a' ≤ c ∧ c ≤ 'f' then some (c.toNat - 87)
  else if 'A' ≤ c ∧ c ≤ 'F' then some (c.toNat - 55)
  else none

section

variable (malformedLength : List UInt8 → Nat)

/-- The charset decoder, with so many octets left to skip: a malformed sequence
is replaced. -/
def decodeOctetsFrom : Nat → List UInt8 → JavaString
  | _, [] => []
  | skip + 1, _ :: octets => decodeOctetsFrom skip octets
  | 0, octet :: octets =>
      match (octet :: octets).toByteArray.utf8DecodeChar? 0 with
      | some c => c :: decodeOctetsFrom (c.utf8Size - 1) octets
      | none =>
          INVALID_INPUT_CHARACTER ::
            decodeOctetsFrom (malformedLength (octet :: octets) - 1) octets

def decodeOctets (octets : List UInt8) : JavaString :=
  decodeOctetsFrom malformedLength 0 octets

/-- The decoder of a segment, with the octets of the escapes read last. -/
def decodeFrom : JavaString → List UInt8 → JavaString
  | [], accumulator => decodeOctets malformedLength accumulator
  | c :: rest, accumulator =>
      if c ≠ '%' then decodeOctets malformedLength accumulator ++ c :: decodeFrom rest []
      else
        match rest with
        | [] => decodeOctets malformedLength accumulator ++ [INVALID_INPUT_CHARACTER]
        | first :: rest =>
            match hexCharToValue first with
            | none =>
                -- the octet read so far is kept
                decodeOctets malformedLength accumulator ++
                  INVALID_INPUT_CHARACTER :: decodeFrom rest [0]
            | some high =>
                match rest with
                | [] => decodeOctets malformedLength accumulator ++ [INVALID_INPUT_CHARACTER]
                | second :: rest =>
                    match hexCharToValue second with
                    | none =>
                        decodeOctets malformedLength accumulator ++
                          INVALID_INPUT_CHARACTER :: decodeFrom rest [UInt8.ofNat high]
                    | some low =>
                        decodeFrom rest (accumulator ++ [UInt8.ofNat (16 * high + low)])

/-- `Uri.decode`. -/
def decode (s : JavaString) : JavaString :=
  decodeFrom malformedLength s []

/-- The path of a URI string: from the end of the authority to the first question
mark or number sign. -/
def parsePath (uriString : JavaString) : JavaString :=
  let afterScheme :=
    if ':' ∈ uriString then (uriString.dropWhile (· ≠ ':')).tail else uriString
  let fromPath :=
    match afterScheme with
    | '/' :: '/' :: rest => rest.dropWhile (· ∉ ['/', '\\', '?', '#'])
    | rest => rest
  fromPath.takeWhile (· ∉ ['?', '#'])

/-- `getPathSegments` of an encoded path. -/
def pathSegments (encodedPath : JavaString) : List JavaString :=
  ((encodedPath.splitOn '/').filter (· ≠ [])).map (decode malformedLength)

end

/-! ## Octets of a text -/

/-- The UTF-8 octets of a text. -/
def utf8 (s : JavaString) : List UInt8 :=
  s.flatMap String.utf8EncodeChar

theorem utf8_append (first second : JavaString) :
    utf8 (first ++ second) = utf8 first ++ utf8 second :=
  List.flatMap_append

theorem utf8_cons (c : Char) (s : JavaString) :
    utf8 (c :: s) = String.utf8EncodeChar c ++ utf8 s :=
  List.flatMap_cons

section

variable {malformedLength : List UInt8 → Nat}

theorem decodeOctetsFrom_eq_drop (skip : Nat) (octets : List UInt8) :
    decodeOctetsFrom malformedLength skip octets =
      decodeOctets malformedLength (octets.drop skip) := by
  induction skip generalizing octets with
  | zero => rfl
  | succ skip ih =>
      cases octets with
      | nil => rfl
      | cons octet octets => exact ih octets

theorem decodeOctets_nil : decodeOctets malformedLength [] = [] :=
  rfl

/-- The octets of a character are decoded to it. -/
theorem decodeOctets_utf8EncodeChar_append (c : Char) (octets : List UInt8) :
    decodeOctets malformedLength (String.utf8EncodeChar c ++ octets) =
      c :: decodeOctets malformedLength octets := by
  have size : (String.utf8EncodeChar c).length = c.utf8Size := String.length_utf8EncodeChar c
  obtain ⟨first, more, encoded⟩ := List.exists_cons_of_length_pos (size ▸ c.utf8Size_pos)
  have decoded : (first :: (more ++ octets)).toByteArray.utf8DecodeChar? 0 = some c := by
    rw [← List.cons_append, ← encoded, List.toByteArray_append]
    exact ByteArray.utf8DecodeChar?_utf8EncodeChar_append
  have rest : c.utf8Size - 1 = more.length := by
    rw [← size, encoded, List.length_cons, Nat.add_sub_cancel]
  rw [encoded, List.cons_append, decodeOctets, decodeOctetsFrom, decoded]
  dsimp only
  rw [decodeOctetsFrom_eq_drop, rest, List.drop_left]

theorem decodeOctets_utf8_append (s : JavaString) (octets : List UInt8) :
    decodeOctets malformedLength (utf8 s ++ octets) =
      s ++ decodeOctets malformedLength octets := by
  induction s with
  | nil => rfl
  | cons c s ih =>
      rw [utf8, List.flatMap_cons, List.append_assoc, decodeOctets_utf8EncodeChar_append]
      exact congrArg (c :: ·) ih

theorem decodeOctets_utf8 (s : JavaString) : decodeOctets malformedLength (utf8 s) = s := by
  have whole : decodeOctets malformedLength (utf8 s ++ []) =
      s ++ decodeOctets malformedLength [] := decodeOctets_utf8_append s []
  rwa [List.append_nil, decodeOctets_nil, List.append_nil] at whole

/-! ## Decoding what was encoded -/

theorem decodeFrom_cons_of_ne {c : Char} (other : c ≠ '%') (rest : JavaString)
    (accumulator : List UInt8) :
    decodeFrom malformedLength (c :: rest) accumulator =
      decodeOctets malformedLength accumulator ++ c :: decodeFrom malformedLength rest [] := by
  rw [decodeFrom.eq_def]
  dsimp only
  rw [if_pos other]

theorem hexCharToValue_digit {n : Nat} (small : n < 16) :
    hexCharToValue (HEX_DIGITS.getD n '0') = some n := by
  have all : (List.range 16).all
      (fun m => hexCharToValue (HEX_DIGITS.getD m '0') = some m) = true := by decide
  exact of_decide_eq_true (List.all_eq_true.mp all n (List.mem_range.mpr small))

theorem decodeFrom_escapeOctet_append (octet : UInt8) (rest : JavaString)
    (accumulator : List UInt8) :
    decodeFrom malformedLength (escapeOctet octet ++ rest) accumulator =
      decodeFrom malformedLength rest (accumulator ++ [octet]) := by
  have high : octet.toNat / 16 < 16 := Nat.div_lt_of_lt_mul octet.toNat_lt
  have low : octet.toNat % 16 < 16 := Nat.mod_lt _ (by decide)
  have value : UInt8.ofNat (16 * (octet.toNat / 16) + octet.toNat % 16) = octet := by
    rw [Nat.div_add_mod, UInt8.ofNat_toNat]
  simp only [escapeOctet, List.cons_append, List.nil_append, decodeFrom,
    hexCharToValue_digit high, hexCharToValue_digit low, value, ne_eq, not_true_eq_false,
    if_false]

theorem decodeFrom_escapes_append (octets : List UInt8) (rest : JavaString)
    (accumulator : List UInt8) :
    decodeFrom malformedLength (octets.flatMap escapeOctet ++ rest) accumulator =
      decodeFrom malformedLength rest (accumulator ++ octets) := by
  induction octets generalizing accumulator with
  | nil => simp
  | cons octet octets ih =>
      rw [List.flatMap_cons, List.append_assoc, decodeFrom_escapeOctet_append, ih,
        List.append_assoc]
      rfl

/-- Complete characters among the octets read before are decoded by themselves. -/
theorem decodeFrom_utf8_append (s rest : JavaString) (accumulator : List UInt8) :
    decodeFrom malformedLength rest (utf8 s ++ accumulator) =
      s ++ decodeFrom malformedLength rest accumulator := by
  fun_induction decodeFrom malformedLength rest accumulator with
  | case1 accumulator => rw [decodeFrom, decodeOctets_utf8_append]
  | case2 c rest accumulator other ih =>
      rw [decodeFrom_cons_of_ne other, decodeOctets_utf8_append, List.append_assoc]
  | case3 c accumulator notOther =>
      rw [decodeFrom, if_neg notOther, decodeOctets_utf8_append, List.append_assoc]
  | case4 c accumulator notOther first rest noDigit ih =>
      rw [decodeFrom, if_neg notOther]
      simp only [noDigit, decodeOctets_utf8_append, List.append_assoc]
  | case5 c accumulator notOther first high digit =>
      rw [decodeFrom, if_neg notOther]
      simp only [digit, decodeOctets_utf8_append, List.append_assoc]
  | case6 c accumulator notOther first high digit second rest noDigit ih =>
      rw [decodeFrom, if_neg notOther]
      simp only [digit, noDigit, decodeOctets_utf8_append, List.append_assoc]
  | case7 c accumulator notOther first high digit second rest low lowDigit ih =>
      rw [decodeFrom, if_neg notOther]
      simp only [digit, lowDigit, List.append_assoc]
      exact ih

theorem decodeFrom_escapeChar_append (c : Char) (rest : JavaString) :
    decodeFrom malformedLength (escapeChar c ++ rest) [] =
      c :: decodeFrom malformedLength rest [] := by
  have octets : String.utf8EncodeChar c = utf8 [c] ++ [] := by simp [utf8]
  rw [escapeChar, decodeFrom_escapes_append, List.nil_append, octets, decodeFrom_utf8_append]
  rfl

/-- A form field is decoded to itself, but that a blank has become a plus sign. -/
theorem decodeFrom_formEncode_append (s rest : JavaString) :
    decodeFrom malformedLength (formEncode s ++ rest) [] =
      (s.map fun c => if c = ' ' then '+' else c) ++ decodeFrom malformedLength rest [] := by
  induction s with
  | nil => rfl
  | cons c s ih =>
      have split : formEncode (c :: s) ++ rest =
          (if isLetterOrDigit c || c ∈ ".-*_".toList then [c] else if c = ' ' then ['+']
            else escapeChar c) ++ (formEncode s ++ rest) := by
        rw [formEncode, List.flatMap_cons, List.append_assoc]
        rfl
      rw [split, List.map_cons, List.cons_append, ← ih]
      split
      case isTrue unreserved =>
        have notPercent : c ≠ '%' := by
          rintro rfl
          exact absurd unreserved (by decide)
        have notBlank : c ≠ ' ' := by
          rintro rfl
          exact absurd unreserved (by decide)
        rw [if_neg notBlank]
        exact decodeFrom_cons_of_ne notPercent _ []
      case isFalse =>
        split
        · exact decodeFrom_cons_of_ne (by decide) _ []
        · exact decodeFrom_escapeChar_append c _

/-! ## What decoding can yield -/

/-- The characters that a path segment only has after decoding: a slash, and a
percent sign. -/
def needsEscape (c : Char) : Bool :=
  c = '/' || c = '%'

/-- The octets of these characters. -/
def needsEscapeOctet (octet : UInt8) : Bool :=
  octet = 47 || octet = 37

theorem length_decodeOctetsFrom_le (skip : Nat) (octets : List UInt8) :
    (decodeOctetsFrom malformedLength skip octets).length ≤ octets.length := by
  fun_induction decodeOctetsFrom malformedLength skip octets with
  | case1 => exact Nat.le_refl 0
  | case2 skip octet octets ih => exact ih.trans (Nat.le_succ _)
  | case3 octet octets c decoded ih => exact Nat.succ_le_succ ih
  | case4 octet octets malformed ih => exact Nat.succ_le_succ ih

/-- A slash and a percent sign are decoded from their own octet only. -/
theorem needsEscapeOctet_of_decoded {octet : UInt8} {octets : List UInt8} {c : Char}
    (decoded : (octet :: octets).toByteArray.utf8DecodeChar? 0 = some c)
    (special : needsEscape c = true) : needsEscapeOctet octet = true := by
  obtain ⟨rest, equal⟩ := ByteArray.exists_of_utf8DecodeChar?_eq_some decoded
  have lists : octet :: octets = String.utf8EncodeChar c ++ rest.data.toList := by
    have data := congrArg (fun bytes => bytes.data.toList) equal
    simpa using data
  simp only [needsEscape, Bool.or_eq_true, decide_eq_true_eq] at special
  rcases special with rfl | rfl
  · obtain ⟨rfl, -⟩ := List.cons.inj lists
    decide
  · obtain ⟨rfl, -⟩ := List.cons.inj lists
    decide

theorem countP_decodeOctetsFrom_le (skip : Nat) (octets : List UInt8) :
    (decodeOctetsFrom malformedLength skip octets).countP needsEscape ≤
      octets.countP needsEscapeOctet := by
  fun_induction decodeOctetsFrom malformedLength skip octets with
  | case1 => exact Nat.le_refl 0
  | case2 skip octet octets ih =>
      exact ih.trans (List.sublist_cons_self octet octets).countP_le
  | case3 octet octets c decoded ih =>
      rw [List.countP_cons, List.countP_cons]
      apply Nat.add_le_add ih
      split
      next special => rw [if_pos (needsEscapeOctet_of_decoded decoded special)]
      next => exact Nat.zero_le _
  | case4 octet octets malformed ih =>
      rw [List.countP_cons_of_neg (by decide)]
      exact ih.trans (List.sublist_cons_self octet octets).countP_le

/-- The complete percent escapes of a text, as the decoder reads it. -/
def escapeCount : JavaString → Nat
  | [] => 0
  | c :: rest =>
      if c ≠ '%' then escapeCount rest
      else
        match rest with
        | [] => 0
        | first :: rest =>
            match hexCharToValue first with
            | none => escapeCount rest
            | some _ =>
                match rest with
                | [] => 0
                | second :: rest =>
                    match hexCharToValue second with
                    | none => escapeCount rest
                    | some _ => escapeCount rest + 1

/-- Every complete escape shortens the text by two characters. -/
theorem length_decodeFrom_le (malformedLength : List UInt8 → Nat) (s : JavaString)
    (accumulator : List UInt8) :
    (decodeFrom malformedLength s accumulator).length + 2 * escapeCount s ≤
      accumulator.length + s.length := by
  have flushed : ∀ octets, (decodeOctets malformedLength octets).length ≤ octets.length :=
    fun octets => length_decodeOctetsFrom_le 0 octets
  fun_induction decodeFrom malformedLength s accumulator with
  | case1 accumulator => simpa [escapeCount] using flushed accumulator
  | case2 c rest accumulator other ih =>
      have shorter := flushed accumulator
      rw [escapeCount.eq_def]
      simp only [if_pos other, List.length_append, List.length_cons, List.length_nil] at ih ⊢
      omega
  | case3 c accumulator notOther =>
      have shorter := flushed accumulator
      simp [escapeCount, shorter]
  | case4 c accumulator notOther first rest noDigit ih =>
      have shorter := flushed accumulator
      rw [escapeCount.eq_def]
      simp only [if_neg notOther, noDigit, List.length_append, List.length_cons,
        List.length_nil] at ih ⊢
      omega
  | case5 c accumulator notOther first high digit =>
      have shorter := flushed accumulator
      rw [escapeCount, if_neg notOther]
      simp only [digit, List.length_append, List.length_cons, List.length_nil]
      omega
  | case6 c accumulator notOther first high digit second rest noDigit ih =>
      have shorter := flushed accumulator
      rw [escapeCount, if_neg notOther]
      simp only [digit, noDigit, List.length_append, List.length_cons, List.length_nil] at ih ⊢
      omega
  | case7 c accumulator notOther first high digit second rest low lowDigit ih =>
      rw [escapeCount, if_neg notOther]
      simp only [digit, lowDigit, List.length_append, List.length_cons, List.length_nil] at ih ⊢
      omega

theorem needsEscapeOctet_digit {first : Char} {high : Nat}
    (digit : hexCharToValue first = some high) :
    needsEscapeOctet (UInt8.ofNat high) = false := by
  have small : high < 16 := by
    unfold hexCharToValue at digit
    split_ifs at digit with decimal lower upper
    · have bound : first.toNat ≤ 57 := decimal.2
      have value := Option.some.inj digit
      omega
    · have bound : first.toNat ≤ 102 := lower.2
      have value := Option.some.inj digit
      omega
    · have bound : first.toNat ≤ 70 := upper.2
      have value := Option.some.inj digit
      omega
  have all : (List.range 16).all (fun n => needsEscapeOctet (UInt8.ofNat n) = false) = true := by
    decide
  exact of_decide_eq_true (List.all_eq_true.mp all high (List.mem_range.mpr small))

/-- Slashes and percent signs come from slashes and complete escapes only. -/
theorem countP_decodeFrom_le (malformedLength : List UInt8 → Nat) (s : JavaString)
    (accumulator : List UInt8) :
    (decodeFrom malformedLength s accumulator).countP needsEscape ≤
      accumulator.countP needsEscapeOctet + s.count '/' + escapeCount s := by
  have flushed : ∀ octets, (decodeOctets malformedLength octets).countP needsEscape ≤
      octets.countP needsEscapeOctet := fun octets => countP_decodeOctetsFrom_le 0 octets
  have replaced : ∀ s, (INVALID_INPUT_CHARACTER :: s).countP needsEscape =
      s.countP needsEscape := fun s => List.countP_cons_of_neg (by decide)
  fun_induction decodeFrom malformedLength s accumulator with
  | case1 accumulator => simpa [escapeCount] using flushed accumulator
  | case2 c rest accumulator other ih =>
      have fewer := flushed accumulator
      have slash : (c :: rest).count '/' = rest.count '/' + if needsEscape c then 1 else 0 := by
        rw [List.count_cons, needsEscape]
        simp [other]
      rw [escapeCount.eq_def]
      simp only [if_pos other, List.countP_append, List.countP_cons, slash, List.countP_nil] at ih ⊢
      omega
  | case3 c accumulator notOther =>
      have fewer := flushed accumulator
      rw [List.countP_append, replaced, List.countP_nil]
      omega
  | case4 c accumulator notOther first rest noDigit ih =>
      have fewer := flushed accumulator
      have slashes : rest.count '/' ≤ (c :: first :: rest).count '/' :=
        (List.sublist_append_right [c, first] rest).count_le '/'
      rw [escapeCount.eq_def]
      simp only [if_neg notOther, noDigit, List.countP_append, replaced]
      have none : [(0 : UInt8)].countP needsEscapeOctet = 0 := by decide
      omega
  | case5 c accumulator notOther first high digit =>
      have fewer := flushed accumulator
      rw [List.countP_append, replaced, List.countP_nil]
      omega
  | case6 c accumulator notOther first high digit second rest noDigit ih =>
      have fewer := flushed accumulator
      have slashes : rest.count '/' ≤ (c :: first :: second :: rest).count '/' :=
        (List.sublist_append_right [c, first, second] rest).count_le '/'
      rw [List.countP_cons_of_neg (by simp [needsEscapeOctet_digit digit])] at ih
      rw [escapeCount, if_neg notOther]
      simp only [digit, noDigit, List.countP_append, replaced, List.countP_nil] at ih ⊢
      omega
  | case7 c accumulator notOther first high digit second rest low lowDigit ih =>
      have slashes : rest.count '/' ≤ (c :: first :: second :: rest).count '/' :=
        (List.sublist_append_right [c, first, second] rest).count_le '/'
      have one : [UInt8.ofNat (16 * high + low)].countP needsEscapeOctet ≤ 1 :=
        List.countP_le_length
      rw [escapeCount, if_neg notOther]
      simp only [digit, lowDigit, List.countP_append] at ih ⊢
      omega

theorem countP_needsEscape (s : JavaString) :
    s.countP needsEscape = s.count '/' + s.count '%' := by
  induction s with
  | nil => rfl
  | cons c s ih =>
      rw [List.countP_cons, List.count_cons, List.count_cons, ih]
      by_cases slash : c = '/'
      · subst slash
        simp [needsEscape]
        omega
      · simp [needsEscape, slash]
        omega

/-! ## Form fields -/

/-- The characters of an encoded form field. -/
def inFormField (c : Char) : Bool :=
  isLetterOrDigit c || c ∈ "%+.-*_".toList

theorem inFormField_escapeChar (char : Char) : ∀ c ∈ escapeChar char, inFormField c = true := by
  have digits : ∀ n, inFormField (HEX_DIGITS.getD n '0') = true := by
    intro n
    by_cases small : n < 16
    · have all : (List.range 16).all
          (fun m => inFormField (HEX_DIGITS.getD m '0')) = true := by decide
      exact List.all_eq_true.mp all n (List.mem_range.mpr small)
    · have beyond : HEX_DIGITS[n]? = none := List.getElem?_eq_none (Nat.le_of_not_lt small)
      rw [List.getD_eq_getElem?_getD, beyond]
      decide
  intro c member
  obtain ⟨octet, -, escaped⟩ := List.mem_flatMap.mp member
  simp only [escapeOctet, List.mem_cons, List.not_mem_nil, or_false] at escaped
  rcases escaped with rfl | rfl | rfl
  · decide
  · exact digits _
  · exact digits _

theorem inFormField_formEncode (s : JavaString) : ∀ c ∈ formEncode s, inFormField c = true := by
  intro c member
  obtain ⟨source, -, encoded⟩ := List.mem_flatMap.mp member
  split at encoded
  case isTrue unreserved =>
    obtain rfl := List.mem_singleton.mp encoded
    simp only [inFormField, Bool.or_eq_true, decide_eq_true_eq] at unreserved ⊢
    exact unreserved.imp id fun mark => List.mem_cons_of_mem '%' (List.mem_cons_of_mem '+' mark)
  case isFalse =>
    split at encoded
    · obtain rfl := List.mem_singleton.mp encoded
      decide
    · exact inFormField_escapeChar source c encoded

end

end RoundSync.Text.AndroidUri
