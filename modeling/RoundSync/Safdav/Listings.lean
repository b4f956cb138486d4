import RoundSync.Safdav.Multistatus
import RoundSync.Text.Lines
import RoundSync.Text.NetUrl

/-!
# Faithful listings

A client reads the answer as XML and decodes each address once.  What it finds are the
paths of the directory and of its children exactly if nothing that the server writes
unescaped has a meaning in XML or in a URI.
-/

namespace RoundSync.Safdav.Multistatus

open RoundSync.Text RoundSync.Text.AndroidUri

/-! ## Octets -/

theorem utf8_injective {s t : JavaString} (same : utf8 s = utf8 t) : s = t := by
  have decoded := congrArg (decodeOctets fun _ => 1) same
  rwa [decodeOctets_utf8, decodeOctets_utf8] at decoded

theorem percent_mem_of_utf8 {s : JavaString} (member : percent ∈ utf8 s) : '%' ∈ s := by
  obtain ⟨c, cMember, octet⟩ := List.mem_flatMap.mp member
  have single := Lines.utf8EncodeChar_of_ascii (by decide) octet
  have same : utf8 [c] = utf8 ['%'] := by
    rw [utf8, List.flatMap_singleton, single]
    decide
  rw [← List.singleton_inj.mp (utf8_injective same)]
  exact cMember

/-- Octets without a percent sign are decoded as they are. -/
theorem unescape_append {front : GoString} (free : percent ∉ front) (rest : GoString) :
    unescape (front ++ rest) = (unescape rest).map (front ++ ·) := by
  induction front with
  | nil =>
    rw [List.nil_append]
    exact Option.map_id'.symm
  | cons b front ih =>
    have other : b ≠ percent := fun same => free (same ▸ List.mem_cons_self)
    rw [List.cons_append, unescape_of_ne other,
      ih fun member => free (List.mem_cons_of_mem b member), Option.map_map]
    rfl

theorem utf8_hexDigit {n : Nat} (small : n < 16) :
    utf8 [HEX_DIGITS.getD n '0'] = [hexDigit n] := by
  have all : (List.range 16).all
      (fun m => decide (utf8 [HEX_DIGITS.getD m '0'] = [hexDigit m])) = true := by decide
  exact of_decide_eq_true (List.all_eq_true.mp all n (List.mem_range.mpr small))

theorem unescape_escapeOctet_append (octet : UInt8) (rest : GoString) :
    unescape (utf8 (escapeOctet octet) ++ rest) = (unescape rest).map (octet :: ·) := by
  have high : octet.toNat / 16 < 16 := Nat.div_lt_of_lt_mul octet.toNat_lt
  have low : octet.toNat % 16 < 16 := Nat.mod_lt _ (by decide)
  have value : UInt8.ofNat (16 * (octet.toNat / 16) + octet.toNat % 16) = octet := by
    rw [Nat.div_add_mod, UInt8.ofNat_toNat]
  have written : utf8 (escapeOctet octet) =
      utf8 ['%'] ++ (utf8 [HEX_DIGITS.getD (octet.toNat / 16) '0'] ++
        utf8 [HEX_DIGITS.getD (octet.toNat % 16) '0']) := by
    simp [utf8, escapeOctet]
  have sign : utf8 ['%'] = [percent] := by decide
  rw [written, sign, utf8_hexDigit high, utf8_hexDigit low]
  simp only [List.cons_append, List.nil_append]
  rw [unescape, if_pos rfl]
  simp only [unhex_hexDigit high, unhex_hexDigit low, value]

theorem unescape_escapes_append (octets : List UInt8) (rest : GoString) :
    unescape (utf8 (octets.flatMap escapeOctet) ++ rest) =
      (unescape rest).map (octets ++ ·) := by
  induction octets with
  | nil => exact Option.map_id'.symm
  | cons octet octets ih =>
    have split : utf8 ((octet :: octets).flatMap escapeOctet) ++ rest =
        utf8 (escapeOctet octet) ++ (utf8 (octets.flatMap escapeOctet) ++ rest) := by
      rw [List.flatMap_cons, utf8_append, List.append_assoc]
    rw [split, unescape_escapeOctet_append, ih, Option.map_map]
    rfl

/-! ## Links -/

def isUnreserved (c : Char) : Bool :=
  isLetterOrDigit c || c ∈ ".-*_".toList

theorem plus_notMem_escapeChar (c : Char) : '+' ∉ escapeChar c := by
  have digits : ∀ n, HEX_DIGITS.getD n '0' ≠ '+' := by
    intro n
    by_cases small : n < 16
    · have all : (List.range 16).all (fun m => HEX_DIGITS.getD m '0' ≠ '+') = true := by decide
      exact of_decide_eq_true (List.all_eq_true.mp all n (List.mem_range.mpr small))
    · have beyond : HEX_DIGITS[n]? = none := List.getElem?_eq_none (Nat.le_of_not_lt small)
      rw [List.getD_eq_getElem?_getD, beyond]
      decide
  intro member
  obtain ⟨octet, -, escaped⟩ := List.mem_flatMap.mp member
  simp only [escapeOctet, List.mem_cons, List.not_mem_nil, or_false] at escaped
  rcases escaped with sign | high | low
  · cases sign
  · exact digits _ high.symm
  · exact digits _ low.symm

/-- The name of a link, character by character. -/
theorem encodedName_eq (name : JavaString) :
    ((formEncode name).flatMap fun c => if c = '+' then text "%20" else [c]) =
      name.flatMap fun c => if isUnreserved c then [c] else escapeChar c := by
  have kept : ∀ s : JavaString, '+' ∉ s →
      (s.flatMap fun c => if c = '+' then text "%20" else [c]) = s := by
    intro s free
    induction s with
    | nil => rfl
    | cons c s ih =>
      have other : c ≠ '+' := fun same => free (same ▸ List.mem_cons_self)
      rw [List.flatMap_cons, if_neg other, ih fun member => free (List.mem_cons_of_mem c member)]
      rfl
  rw [formEncode, List.flatMap_assoc]
  apply List.flatMap_congr
  intro c _
  rw [← isUnreserved]
  split
  next unreserved =>
    apply kept
    intro member
    rw [← List.mem_singleton.mp member] at unreserved
    exact absurd unreserved (by decide)
  next =>
    split
    next space =>
      rw [space]
      decide
    next => exact kept _ (plus_notMem_escapeChar c)

theorem unescape_encodedName_append (name : JavaString) (rest : GoString) :
    unescape (utf8 (name.flatMap fun c => if isUnreserved c then [c] else escapeChar c) ++ rest) =
      (unescape rest).map (utf8 name ++ ·) := by
  induction name with
  | nil => exact Option.map_id'.symm
  | cons c name ih =>
    have split : utf8 ((c :: name).flatMap fun c =>
          if isUnreserved c then [c] else escapeChar c) ++ rest =
        utf8 (if isUnreserved c then [c] else escapeChar c) ++
          (utf8 (name.flatMap fun c => if isUnreserved c then [c] else escapeChar c) ++ rest) := by
      rw [List.flatMap_cons, utf8_append, List.append_assoc]
    have own : ∀ more : GoString,
        unescape (utf8 (if isUnreserved c then [c] else escapeChar c) ++ more) =
          (unescape more).map (String.utf8EncodeChar c ++ ·) := by
      intro more
      split
      next unreserved =>
        have free : percent ∉ utf8 [c] := by
          intro member
          rw [← List.mem_singleton.mp (percent_mem_of_utf8 member)] at unreserved
          exact absurd unreserved (by decide)
        rw [unescape_append free, utf8, List.flatMap_singleton]
      next => exact unescape_escapes_append _ _
    rw [split, own, ih, Option.map_map]
    congr 1
    funext octets
    rw [Function.comp_apply, utf8_cons, List.append_assoc]

/-- What a link leads to, below the directory. -/
def SafFastItem.below (item : SafFastItem) : JavaString :=
  if item.isCollection then item.name ++ ['/'] else item.name

theorem unescape_getLink (item : SafFastItem) :
    unescape (utf8 item.getLink) = some (utf8 item.below) := by
  have name := unescape_encodedName_append item.name
  simp only [SafFastItem.getLink, SafFastItem.below, encodedName_eq]
  split
  · have slash : unescape (utf8 ['/']) = some (utf8 ['/']) := by decide
    rw [utf8_append, utf8_append, name, slash]
    rfl
  · have nothing := name []
    rw [List.append_nil] at nothing
    rw [nothing, unescape, Option.map_some, List.append_nil]

/-- The characters that an address may hold unescaped. -/
def isAddressChar (c : Char) : Bool :=
  Xml.isChar c && c ∉ ['<', '&', '\r', '?', '#']

theorem isAddressChar_of_inFormField {c : Char} (inField : inFormField c = true) :
    isAddressChar c = true ∧ c ≠ '>' := by
  have others : c ∉ ['<', '&', '\r', '?', '#', '>'] := by
    intro member
    simp only [List.mem_cons, List.not_mem_nil, or_false] at member
    rcases member with rfl | rfl | rfl | rfl | rfl | rfl
    all_goals exact absurd inField (by decide)
  have char : Xml.isChar c = true := by
    have between : ∀ low high : Char, 0x20 ≤ low.toNat → high.toNat < 0xFFFE →
        low ≤ c ∧ c ≤ high → Xml.isChar c = true := by
      intro low high lowest highest within
      have atLeast : low.toNat ≤ c.toNat := within.1
      have atMost : c.toNat ≤ high.toNat := within.2
      simp only [Xml.isChar, Bool.or_eq_true, Bool.and_eq_true, decide_eq_true_eq]
      right
      omega
    simp only [inFormField, isLetterOrDigit, Bool.or_eq_true, Bool.and_eq_true,
      decide_eq_true_eq] at inField
    rcases inField with ((lower | upper) | digit) | mark
    · exact between 'a' 'z' (by decide) (by decide) lower
    · exact between 'A' 'Z' (by decide) (by decide) upper
    · exact between '0' '9' (by decide) (by decide) digit
    · have all : "%+.-*_".toList.all Xml.isChar = true := by decide
      exact List.all_eq_true.mp all c mark
  have kept : c ∉ ['<', '&', '\r', '?', '#'] := fun member =>
    others (List.mem_append_left ['>'] member)
  have apart : c ≠ '>' := fun same => others (by rw [same]; decide)
  exact ⟨by rw [isAddressChar, char, Bool.true_and]; exact decide_eq_true kept, apart⟩

theorem isAddressChar_getLink (item : SafFastItem) :
    ∀ c ∈ item.getLink, isAddressChar c = true ∧ c ≠ '>' := by
  have named : ∀ c ∈ (formEncode item.name).flatMap
      fun c => if c = '+' then text "%20" else [c], isAddressChar c = true ∧ c ≠ '>' := by
    intro c member
    obtain ⟨encoded, encodedMember, within⟩ := List.mem_flatMap.mp member
    split at within
    · have all : (text "%20").all (fun c => isAddressChar c && c ≠ '>') = true := by decide
      simpa using List.all_eq_true.mp all c within
    · rw [List.mem_singleton.mp within]
      exact isAddressChar_of_inFormField (inFormField_formEncode item.name encoded encodedMember)
  intro c member
  rw [SafFastItem.getLink] at member
  split at member
  · rcases List.mem_append.mp member with name | slash
    · exact named c name
    · rw [List.mem_singleton.mp slash]
      decide
  · exact named c member

/-! ## Addresses -/

/-- A client that decodes an address once gets a path, also if it cuts off a query and a
fragment before, as it does for a request. -/
def Addresses (href path : JavaString) : Prop :=
  unescape (utf8 href) = some (utf8 path) ∧
    unescape (utf8 (href.takeWhile (· ∉ ['?', '#']))) = some (utf8 path)

/-- A document is well-formed, and its addresses are those of the paths, one each. -/
def Lists (document : JavaString) (paths : List JavaString) : Prop :=
  ∃ items, Xml.read document = some items ∧ List.Forall₂ Addresses (hrefs items) paths

/-- An address that means itself, in XML and as a URI. -/
structure PlainAddress (address : JavaString) : Prop where
  chars : ∀ c ∈ address, isAddressChar c = true
  noPercent : '%' ∉ address
  noEnd : ¬Xml.sectionEnd <:+: address

theorem notMem_of_isAddressChar {s : JavaString} (chars : ∀ c ∈ s, isAddressChar c = true)
    {special : Char} (isSpecial : isAddressChar special = false) : special ∉ s := by
  intro member
  rw [chars special member] at isSpecial
  cases isSpecial

theorem takeWhile_of_isAddressChar {s : JavaString} (chars : ∀ c ∈ s, isAddressChar c = true) :
    s.takeWhile (· ∉ ['?', '#']) = s := by
  apply List.takeWhile_eq_self_iff.mpr
  intro c member
  apply decide_eq_true
  intro special
  simp only [List.mem_cons, List.not_mem_nil, or_false] at special
  rcases special with rfl | rfl
  · exact absurd (chars _ member) (by decide)
  · exact absurd (chars _ member) (by decide)

theorem addresses_of_decoded {href path : JavaString} (chars : ∀ c ∈ href, isAddressChar c = true)
    (decoded : unescape (utf8 href) = some (utf8 path)) : Addresses href path := by
  constructor
  · exact decoded
  · rw [takeWhile_of_isAddressChar chars]
    exact decoded

theorem readText_of_isAddressChar {s : JavaString} (chars : ∀ c ∈ s, isAddressChar c = true)
    (noEnd : ¬Xml.sectionEnd <:+: s) : Xml.readText s = some s :=
  Xml.readText_of_plain (notMem_of_isAddressChar chars (by decide))
    (notMem_of_isAddressChar chars (by decide)) noEnd

/-- A word whose first letter a text does not have begins behind the text. -/
theorem infix_of_append {c : Char} {word front rest : JavaString} (free : c ∉ front)
    (within : c :: word <:+: front ++ rest) : c :: word <:+: rest := by
  induction front with
  | nil => exact within
  | cons d front ih =>
    rcases List.infix_cons_iff.mp within with atStart | later
    · exact absurd (List.cons_prefix_cons.mp atStart).1 fun same => free (same ▸ List.mem_cons_self)
    · exact ih (fun member => free (List.mem_cons_of_mem d member)) later

namespace PlainAddress

variable {base : JavaString}

theorem unescape_append (plain : PlainAddress base) (rest : GoString) :
    unescape (utf8 base ++ rest) = (unescape rest).map (utf8 base ++ ·) :=
  Multistatus.unescape_append (fun member => plain.noPercent (percent_mem_of_utf8 member)) rest

theorem addresses (plain : PlainAddress base) : Addresses base base := by
  apply addresses_of_decoded plain.chars
  have whole := plain.unescape_append []
  rw [List.append_nil] at whole
  rw [whole, unescape, Option.map_some, List.append_nil]

/-- The address of a child below a plain base. -/
theorem addresses_getLink (plain : PlainAddress base) (item : SafFastItem) :
    Addresses (base ++ item.getLink) (base ++ item.below) := by
  apply addresses_of_decoded
  · intro c member
    rcases List.mem_append.mp member with inBase | inLink
    · exact plain.chars c inBase
    · exact (isAddressChar_getLink item c inLink).1
  · rw [utf8_append, plain.unescape_append, unescape_getLink, utf8_append]
    rfl

theorem noEnd_getLink (plain : PlainAddress base) (item : SafFastItem) :
    ¬Xml.sectionEnd <:+: base ++ item.getLink := by
  intro within
  apply plain.noEnd
  have backwards := within.reverse
  rw [List.reverse_append] at backwards
  have behind : Xml.sectionEnd.reverse <:+: base.reverse := by
    apply infix_of_append _ backwards
    intro member
    exact (isAddressChar_getLink item '>' (List.mem_reverse.mp member)).2 rfl
  exact List.reverse_infix.mp behind

end PlainAddress

/-- A text that is cut gets shorter. -/
theorem takeWhile_of_length_le {p : Char → Bool} {s : JavaString}
    (long : (utf8 s).length ≤ (utf8 (s.takeWhile p)).length) : s.takeWhile p = s := by
  have parts : (utf8 (s.takeWhile p)).length + (utf8 (s.dropWhile p)).length = (utf8 s).length := by
    rw [← List.length_append, ← utf8_append, List.takeWhile_append_dropWhile]
  cases rest : s.dropWhile p with
  | nil =>
    have whole := List.takeWhile_append_dropWhile (p := p) (l := s)
    rwa [rest, List.append_nil] at whole
  | cons c rest =>
    have positive := c.utf8Size_pos
    rw [rest, Xml.length_utf8_cons] at parts
    omega

/-- An address that is read and decoded to itself is plain. -/
theorem plainAddress_of_addresses {address value : JavaString}
    (chars : address.all Xml.isChar = true)
    (readable : Xml.readText (address.takeWhile (· ≠ '<')) = some value)
    (addresses : Addresses value address) : PlainAddress address := by
  -- none of the steps lengthens a text, so none of them shortens the address
  obtain ⟨decoded, requested⟩ := addresses
  obtain ⟨longValue, noPercent⟩ := unescape_length decoded
  have unmarked : address.takeWhile (· ≠ '<') = address :=
    takeWhile_of_length_le (longValue.trans (Xml.length_readText readable))
  rw [unmarked] at readable
  have percentFree : percent ∉ utf8 value := by
    intro member
    have shorter := noPercent member
    have bound := Xml.length_readText readable
    omega
  have same : value = address := by
    rw [unescape_of_percent_notMem percentFree] at decoded
    exact utf8_injective (Option.some.inj decoded)
  obtain ⟨noEnd, noReference, normal⟩ := Xml.readText_of_length_le readable longValue
  have uncut : value.takeWhile (· ∉ ['?', '#']) = value := by
    apply takeWhile_of_length_le
    rw [same]
    rw [same] at requested
    exact (unescape_length requested).1
  rw [same] at percentFree noReference normal uncut
  constructor
  · intro c member
    have isChar := List.all_eq_true.mp chars c member
    have notMark : c ≠ '<' :=
      of_decide_eq_true (List.takeWhile_eq_self_iff.mp unmarked c member)
    have notCut : c ∉ ['?', '#'] :=
      of_decide_eq_true (List.takeWhile_eq_self_iff.mp uncut c member)
    have notReference : c ≠ '&' := fun is => noReference (is ▸ member)
    have notReturn : c ≠ '\r' := by
      intro is
      apply Xml.return_notMem_normalizeLines address
      rw [← normal, ← is]
      exact member
    simp only [List.mem_cons, List.not_mem_nil, or_false, not_or] at notCut
    simp [isAddressChar, isChar, notMark, notReference, notReturn, notCut]
  · intro member
    apply percentFree
    exact List.mem_flatMap.mpr ⟨'%', member, by decide⟩
  · exact noEnd

/-! ## The characters of the answer -/

theorem isChar_of_isPlain {s : JavaString} (plain : s.all isPlain = true) :
    s.all Xml.isChar = true := by
  apply List.all_eq_true.mpr
  intro c member
  have isPlainChar := List.all_eq_true.mp plain c member
  rw [isPlain, Bool.and_eq_true] at isPlainChar
  exact isPlainChar.1

theorem all_isChar_escapeEntity (c : Char) :
    (escapeEntity c).all Xml.isChar = Xml.isChar c := by
  rw [escapeEntity]
  split_ifs with quot apos less greater ampersand
  · rw [quot]
    decide
  · rw [apos]
    decide
  · rw [less]
    decide
  · rw [greater]
    decide
  · rw [ampersand]
    decide
  · simp

theorem legal_iff {name : Option JavaString} :
    Legal name ↔ (xmlEscape name).all Xml.isChar = true := by
  cases name with
  | none => simp [Legal, xmlEscape]
  | some s =>
    simp only [Legal, xmlEscape, List.all_flatMap, all_isChar_escapeEntity, Option.mem_def,
      Option.some.injEq, forall_eq']

theorem displayname_mem_details (child : Properties) :
    token "D:displayname" (xmlEscape child.name) ∈ details child := by
  cases kind : child.isCollection with
  | true => simp [details, kind, collectionDetails]
  | false => simp [details, kind, elementDetails]

theorem isChar_response_iff {entry : Properties × JavaString} :
    (∀ token ∈ response entry, token.tag.all Xml.isChar = true ∧ token.text.all Xml.isChar = true) ↔
      entry.2.all Xml.isChar = true ∧ Legal entry.1.name := by
  constructor
  · intro chars
    constructor
    · exact (chars (token "D:href" entry.2) (by simp [response])).2
    · apply legal_iff.mpr
      exact (chars _ (List.mem_cons_of_mem _ (List.mem_cons_of_mem _
        (displayname_mem_details entry.1)))).2
  · rintro ⟨address, legal⟩ found member
    rcases List.mem_cons.mp member with rfl | member
    · exact ⟨by decide, rfl⟩
    · rcases List.mem_cons.mp member with rfl | member
      · exact ⟨(by decide : (text "D:href").all Xml.isChar = true), address⟩
      · constructor
        · exact isChar_tag_details found member
        · rcases text_details found member with name | plain
          · rw [name]
            exact legal_iff.mp legal
          · exact isChar_of_isPlain plain

theorem isChar_multistatus_iff {entries : List (Properties × JavaString)} :
    (Xml.written (multistatus entries)).all Xml.isChar = true ↔
      ∀ entry ∈ entries, entry.2.all Xml.isChar = true ∧ Legal entry.1.name := by
  have outside : ∀ token ∈ prolog ++ epilog,
      token.tag.all Xml.isChar = true ∧ token.text.all Xml.isChar = true := by decide
  rw [Xml.all_isChar_written]
  constructor
  · intro chars entry member
    apply isChar_response_iff.mp
    intro found within
    apply chars
    exact List.mem_append_right _ (List.mem_append_left _
      (List.mem_flatMap.mpr ⟨entry, member, within⟩))
  · intro legal found member
    rcases List.mem_append.mp member with start | member
    · exact outside found (List.mem_append_left _ start)
    · rcases List.mem_append.mp member with inner | finish
      · obtain ⟨entry, entryMember, within⟩ := List.mem_flatMap.mp inner
        exact isChar_response_iff.mpr (legal entry entryMember) found within
      · exact outside found (List.mem_append_right _ finish)

/-! ## The answer about a list of items -/

theorem mapM_readText {entries : List (Properties × JavaString)}
    (chars : ∀ entry ∈ entries, ∀ c ∈ entry.2, isAddressChar c = true)
    (noEnd : ∀ entry ∈ entries, ¬Xml.sectionEnd <:+: entry.2) :
    entries.mapM (fun entry => Xml.readText entry.2) = some (entries.map Prod.snd) := by
  induction entries with
  | nil => rfl
  | cons entry entries ih =>
    rw [List.mapM_cons, readText_of_isAddressChar (chars entry List.mem_cons_self)
        (noEnd entry List.mem_cons_self),
      ih (fun other member => chars other (List.mem_cons_of_mem _ member))
        (fun other member => noEnd other (List.mem_cons_of_mem _ member))]
    rfl

/-- Readable addresses that lead to the paths make a listing. -/
theorem lists_multistatus {entries : List (Properties × JavaString)} {paths : List JavaString}
    (chars : ∀ entry ∈ entries, ∀ c ∈ entry.2, isAddressChar c = true)
    (noEnd : ∀ entry ∈ entries, ¬Xml.sectionEnd <:+: entry.2)
    (legal : ∀ entry ∈ entries, Legal entry.1.name)
    (addresses : List.Forall₂ Addresses (entries.map Prod.snd) paths) :
    Lists (Xml.written (multistatus entries)) paths := by
  have readable := mapM_readText chars noEnd
  have allChars : (Xml.written (multistatus entries)).all Xml.isChar = true := by
    apply isChar_multistatus_iff.mpr
    intro entry member
    refine ⟨List.all_eq_true.mpr fun c within => ?_, legal entry member⟩
    have isAddress := chars entry member c within
    rw [isAddressChar, Bool.and_eq_true] at isAddress
    exact isAddress.1
  have unmarked : ∀ entry ∈ entries, '<' ∉ entry.2 := fun entry member =>
    notMem_of_isAddressChar (chars entry member) (by decide)
  obtain ⟨items, read, found⟩ := read_multistatus allChars unmarked readable
  exact ⟨items, read, found ▸ addresses⟩

/-- Behind plain addresses that are listed, an address that is listed as it is written is
plain. -/
theorem plainAddress_of_lists {before after : List (Properties × JavaString)}
    {entry : Properties × JavaString} {paths : List JavaString}
    (plain : ∀ other ∈ before, PlainAddress other.2)
    (lists : Lists (Xml.written (multistatus (before ++ entry :: after)))
      (before.map Prod.snd ++ entry.2 :: paths)) : PlainAddress entry.2 := by
  obtain ⟨items, read, addresses⟩ := lists
  have readable := mapM_readText (fun other member => (plain other member).chars)
    (fun other member => (plain other member).noEnd)
  have unmarked : ∀ other ∈ before, '<' ∉ other.2 := fun other member =>
    notMem_of_isAddressChar (plain other member).chars (by decide)
  obtain ⟨value, others, valueEq, found⟩ := hrefs_of_read unmarked readable read
  have rest := List.forall₂_drop before.length addresses
  have sameLength : (before.map Prod.snd).length = before.length := List.length_map _
  rw [found, ← sameLength, List.drop_left, List.drop_left] at rest
  have chars := (isChar_multistatus_iff.mp (Xml.read_eq_some_iff.mp read).1 entry
    (List.mem_append_right before List.mem_cons_self)).1
  exact plainAddress_of_addresses chars valueEq (List.forall₂_cons.mp rest).1

theorem plainAddresses_of_lists {entries : List (Properties × JavaString)}
    (lists : Lists (Xml.written (multistatus entries)) (entries.map Prod.snd)) :
    ∀ entry ∈ entries, PlainAddress entry.2 := by
  have onward : ∀ (before after : List (Properties × JavaString)), entries = before ++ after →
      (∀ entry ∈ before, PlainAddress entry.2) → ∀ entry ∈ after, PlainAddress entry.2 := by
    intro before after
    induction after generalizing before with
    | nil =>
      intro _ _ entry member
      exact absurd member List.not_mem_nil
    | cons entry after ih =>
      intro split plain
      have own : PlainAddress entry.2 := by
        apply plainAddress_of_lists plain
        rw [split, List.map_append] at lists
        exact lists
      intro other member
      rcases List.mem_cons.mp member with rfl | later
      · exact own
      · apply ih (before ++ [entry]) _ _ other later
        · rw [split, List.append_assoc]
          rfl
        · intro earlier earlierMember
          rcases List.mem_append.mp earlierMember with inFront | last
          · exact plain earlier inFront
          · rw [List.mem_singleton.mp last]
            exact own
  exact onward [] entries rfl fun _ member => absurd member List.not_mem_nil

theorem legal_of_lists {entries : List (Properties × JavaString)} {paths : List JavaString}
    (lists : Lists (Xml.written (multistatus entries)) paths) :
    ∀ entry ∈ entries, Legal entry.1.name := by
  obtain ⟨items, read, _⟩ := lists
  intro entry member
  exact (isChar_multistatus_iff.mp (Xml.read_eq_some_iff.mp read).1 entry member).2

/-! ## Directories -/

/-- All permissions, with names that `getPathForUri` never gives twice. -/
structure Permissions where
  items : List SafPermissionItem
  named : ∀ item ∈ items, item.link ≠ []
  distinct : (items.map SafPermissionItem.link).Nodup

/-- A folder that is requested by the names on its path, with a slash behind them or
without, and the documents that the storage has for it and in it. -/
structure Folder where
  names : List Name
  belowRoot : names ≠ []
  slash : Bool
  own : SafFastItem
  isCollection : own.isCollection = true
  children : List SafFastItem
  named : ∀ child ∈ children, child.name ≠ [] ∧ '/' ∉ child.name
  distinct : (children.map SafFastItem.name).Nodup

inductive Directory where
  | root (permissions : Permissions)
  | folder (folder : Folder)

namespace Folder

def uri (folder : Folder) : JavaString :=
  rooted '/' (folder.names.map Subtype.val) ++ if folder.slash then ['/'] else []

/-- Where the names lead to. -/
def path (folder : Folder) : JavaString :=
  SAF_REMOTE_URL ++ (joined folder.names ++ ['/'])

end Folder

namespace Directory

variable (formats : DateFormats)

/-- The address of the request, as the server has decoded it. -/
def uri : Directory → JavaString
  | .root _ => ['/']
  | .folder requested => requested.uri

/-- `paths.getSafRootDirectory` or `itemAccess.readMeta`. -/
def item : Directory → SafItem
  | .root permissions => SafPermissionItem.root formats permissions.items
  | .folder requested =>
    { properties := requested.own.properties formats
      children := requested.children.map (SafFastItem.properties formats) }

/-- The path of the directory and those of its direct children. -/
def paths : Directory → List JavaString
  | .root permissions =>
    SAF_REMOTE_URL :: permissions.items.map fun item => SAF_REMOTE_URL ++ item.link
  | .folder requested =>
    requested.path :: requested.children.map fun child => requested.path ++ child.below

/-- What is written unescaped is plain, and what is displayed are legal characters. -/
def Plain : Directory → Prop
  | .root permissions => ∀ item ∈ permissions.items,
    PlainAddress (SAF_REMOTE_URL ++ item.link) ∧ Legal item.encodedPath
  | .folder requested => PlainAddress requested.path ∧ Legal (some requested.own.name) ∧
    ∀ child ∈ requested.children, Legal (some child.name)

/-- What is written about the items, with their addresses. -/
def entries : Directory → List (Properties × JavaString)
  | .root permissions =>
    ((SafPermissionItem.root formats permissions.items).properties, SAF_REMOTE_URL) ::
      permissions.items.map fun item =>
        (item.properties formats, SAF_REMOTE_URL ++ item.link)
  | .folder requested =>
    (requested.own.properties formats, requested.path) ::
      requested.children.map fun child =>
        (child.properties formats, requested.path ++ child.getLink)

end Directory

/-! ### The address of the answer -/

theorem getLast?_joined {names : List Name} (more : names ≠ []) :
    (joined names).getLast? ≠ some '/' := by
  induction names with
  | nil => contradiction
  | cons name names ih =>
    cases names with
    | nil =>
      intro last
      exact name.property.2 (List.mem_of_getLast? last)
    | cons next rest =>
      have others : next :: rest ≠ [] := List.cons_ne_nil next rest
      rw [joined_cons others, List.getLast?_append_of_ne_nil _ (List.cons_ne_nil _ _),
        List.getLast?_cons_of_ne_nil (joined_eq_nil_iff.not.mpr others)]
      exact ih others

/-- No path of names has two slashes in a row. -/
theorem no_emptyName (names : List Name) (slash : Bool) :
    ¬['/', '/'] <:+: rooted '/' (names.map Subtype.val) ++ if slash then ['/'] else [] := by
  induction names with
  | nil =>
    cases slash with
    | true => decide
    | false => decide
  | cons name names ih =>
    intro within
    rw [List.map_cons, rooted_cons, List.cons_append, List.append_assoc] at within
    rcases List.infix_cons_iff.mp within with atStart | later
    · obtain ⟨c, rest, nameEq⟩ := List.exists_cons_of_ne_nil name.property.1
      rw [nameEq, List.cons_append] at atStart
      have second := (List.cons_prefix_cons.mp (List.cons_prefix_cons.mp atStart).2).1
      apply name.property.2
      rw [nameEq, second]
      exact List.mem_cons_self
    · exact ih (infix_of_append name.property.2 later)

theorem propFindSerialize_slash {item : SafItem} {baseUrl : JavaString}
    (collection : item.properties.isCollection = true) (noSlash : baseUrl.getLast? ≠ some '/') :
    propFindSerialize item baseUrl = propFindSerialize item (baseUrl ++ ['/']) := by
  simp [propFindSerialize, collection, noSlash]

theorem Folder.uri_eq (folder : Folder) :
    folder.uri = '/' :: (joined folder.names ++ if folder.slash then ['/'] else []) := by
  rw [Folder.uri, rooted_eq_joined folder.belowRoot, List.cons_append]

theorem onPropFind_eq (formats : DateFormats) (directory : Directory) :
    onPropFind (directory.item formats) directory.uri =
      Xml.written (multistatus (directory.entries formats)) := by
  cases directory with
  | root permissions =>
    have foreign : ¬SAF_REMOTE_URL <:+: ['/'] := by decide
    have base : SAF_REMOTE_URL ++ List.drop 1 ['/'] = SAF_REMOTE_URL := by decide
    simp only [onPropFind, Directory.uri, if_neg foreign, base]
    rw [Directory.item, propFindSerialize_eq rfl (by decide)]
    simp only [SafPermissionItem.root, List.map_map, Directory.entries]
    rfl
  | folder requested =>
    have foreign : ¬SAF_REMOTE_URL <:+: requested.uri := by
      intro within
      have slashes : ['/', '/'] <:+: SAF_REMOTE_URL := by decide
      exact no_emptyName requested.names requested.slash (slashes.trans within)
    have collection : (Directory.item formats (.folder requested)).properties.isCollection = true :=
      requested.isCollection
    have written : propFindSerialize (Directory.item formats (.folder requested)) requested.path =
        Xml.written (multistatus (Directory.entries formats (.folder requested))) := by
      rw [propFindSerialize_eq collection (by simp [Folder.path])]
      simp only [Directory.item, List.map_map, Directory.entries]
      rfl
    rw [onPropFind, Directory.uri, if_neg foreign, Folder.uri_eq, List.drop_one, List.tail_cons,
      ← written]
    cases slash : requested.slash with
    | true => rfl
    | false =>
      have noSlash : (SAF_REMOTE_URL ++ joined requested.names).getLast? ≠ some '/' := by
        rw [List.getLast?_append_of_ne_nil _ (joined_eq_nil_iff.not.mpr requested.belowRoot)]
        exact getLast?_joined requested.belowRoot
      simp only [Bool.false_eq_true, if_false, List.append_nil]
      rw [propFindSerialize_slash collection noSlash, Folder.path, List.append_assoc]

/-! ### The listing -/

theorem below_ne_nil {item : SafFastItem} (named : item.name ≠ []) : item.below ≠ [] := by
  rw [SafFastItem.below]
  split
  · exact List.append_ne_nil_of_left_ne_nil named _
  · exact named

/-- Names without slashes lead to different places, whatever they are the names of. -/
theorem below_injective {item other : SafFastItem} (free : '/' ∉ item.name)
    (otherFree : '/' ∉ other.name) (same : item.below = other.below) :
    item.name = other.name := by
  have cut : ∀ {it : SafFastItem}, '/' ∉ it.name → it.below.takeWhile (· ≠ '/') = it.name := by
    intro it free
    have all : ∀ c ∈ it.name, decide (c ≠ '/') = true := fun c member =>
      decide_eq_true fun is => free (is ▸ member)
    rw [SafFastItem.below]
    split
    · rw [List.takeWhile_append_of_pos all]
      simp
    · exact List.takeWhile_eq_self_iff.mpr all
  rw [← cut free, same, cut otherFree]

theorem nodup_below {base : JavaString} {parts : List JavaString} (named : ∀ part ∈ parts, part ≠ [])
    (distinct : parts.Nodup) : (base :: parts.map (base ++ ·)).Nodup := by
  apply List.nodup_cons.mpr
  constructor
  · intro member
    obtain ⟨part, partMember, same⟩ := List.mem_map.mp member
    exact named part partMember (List.append_right_eq_self.mp same)
  · exact distinct.map fun _ _ same => List.append_cancel_left same

theorem Directory.nodup_paths (directory : Directory) : directory.paths.Nodup := by
  cases directory with
  | root permissions =>
    have parts := @nodup_below SAF_REMOTE_URL (permissions.items.map SafPermissionItem.link)
      (List.forall_mem_map.mpr permissions.named) permissions.distinct
    rwa [List.map_map] at parts
  | folder requested =>
    have distinct : (requested.children.map SafFastItem.below).Nodup := by
      apply requested.distinct.of_map.map_on
      intro item member other otherMember same
      apply List.inj_on_of_nodup_map requested.distinct member otherMember
      exact below_injective (requested.named item member).2 (requested.named other otherMember).2 same
    have parts := @nodup_below requested.path (requested.children.map SafFastItem.below)
      (List.forall_mem_map.mpr fun child member => below_ne_nil (requested.named child member).1)
      distinct
    rwa [List.map_map] at parts

/-- The address of the server is plain. -/
theorem plainAddress_remote : PlainAddress SAF_REMOTE_URL where
  chars := List.all_eq_true.mp (by decide)
  noPercent := by decide
  noEnd := by decide

theorem Directory.lists_iff_plain (formats : DateFormats) (directory : Directory) :
    Lists (onPropFind (directory.item formats) directory.uri) directory.paths ↔
      directory.Plain := by
  rw [onPropFind_eq]
  cases directory with
  | root permissions =>
    have paths : Directory.paths (.root permissions) =
        (Directory.entries formats (.root permissions)).map Prod.snd := by
      rw [Directory.paths, Directory.entries, List.map_cons, List.map_map]
      rfl
    constructor
    · intro lists item member
      have entry : (item.properties formats, SAF_REMOTE_URL ++ item.link) ∈
          Directory.entries formats (.root permissions) :=
        List.mem_cons_of_mem _ (List.mem_map_of_mem member)
      have legal := legal_of_lists lists _ entry
      rw [paths] at lists
      exact ⟨plainAddresses_of_lists lists _ entry, legal⟩
    · intro plain
      have entries : ∀ entry ∈ Directory.entries formats (.root permissions),
          PlainAddress entry.2 ∧ Legal entry.1.name := by
        intro entry member
        rcases List.mem_cons.mp member with rfl | member
        · refine ⟨plainAddress_remote, ?_⟩
          exact legal_iff.mpr
            (by decide : (xmlEscape (some (text "Storage Permissions"))).all Xml.isChar = true)
        · obtain ⟨item, itemMember, rfl⟩ := List.mem_map.mp member
          exact plain item itemMember
      rw [paths]
      apply lists_multistatus
      · exact fun entry member => (entries entry member).1.chars
      · exact fun entry member => (entries entry member).1.noEnd
      · exact fun entry member => (entries entry member).2
      · apply List.forall₂_same.mpr
        intro address member
        obtain ⟨entry, entryMember, rfl⟩ := List.mem_map.mp member
        exact (entries entry entryMember).1.addresses
  | folder requested =>
    constructor
    · intro lists
      have legal := legal_of_lists lists
      refine ⟨?_, ?_, ?_⟩
      · exact @plainAddress_of_lists [] _ _ _ (fun _ member => absurd member List.not_mem_nil) lists
      · exact legal _ List.mem_cons_self
      · intro child member
        exact legal _ (List.mem_cons_of_mem _ (List.mem_map_of_mem member))
    · rintro ⟨plain, ownLegal, legal⟩
      have cases_ : ∀ entry ∈ Directory.entries formats (.folder requested),
          entry = (requested.own.properties formats, requested.path) ∨
            ∃ child ∈ requested.children,
              entry = (child.properties formats, requested.path ++ child.getLink) := by
        intro entry member
        rcases List.mem_cons.mp member with own | member
        · exact Or.inl own
        · obtain ⟨child, childMember, rfl⟩ := List.mem_map.mp member
          exact Or.inr ⟨child, childMember, rfl⟩
      apply lists_multistatus
      · intro entry member
        rcases cases_ entry member with rfl | ⟨child, _, rfl⟩
        · exact plain.chars
        · intro c within
          rcases List.mem_append.mp within with inBase | inLink
          · exact plain.chars c inBase
          · exact (isAddressChar_getLink child c inLink).1
      · intro entry member
        rcases cases_ entry member with rfl | ⟨child, _, rfl⟩
        · exact plain.noEnd
        · exact plain.noEnd_getLink child
      · intro entry member
        rcases cases_ entry member with rfl | ⟨child, childMember, rfl⟩
        · exact ownLegal
        · exact legal child childMember
      · rw [Directory.entries, Directory.paths, List.map_cons, List.map_map]
        apply List.Forall₂.cons plain.addresses
        rw [List.forall₂_map_left_iff, List.forall₂_map_right_iff]
        apply List.forall₂_same.mpr
        intro child _
        exact plain.addresses_getLink child

/-- The answer about a directory lists exactly the directory and its children, each once,
if and only if the directory is plain. -/
theorem onPropFind_lists_iff (formats : DateFormats) (directory : Directory) :
    directory.paths.Nodup ∧
      (Lists (onPropFind (directory.item formats) directory.uri) directory.paths ↔
        directory.Plain) :=
  ⟨directory.nodup_paths, directory.lists_iff_plain formats⟩

/-- An empty folder with an ampersand in its name. -/
def ampersandFolder : Folder where
  names := [⟨text "SD Card", by decide⟩, ⟨text "R&B", by decide⟩]
  belowRoot := List.cons_ne_nil _ _
  slash := true
  own := ⟨text "R&B", none, 0, 0, true⟩
  isCollection := rfl
  children := []
  named := fun _ member => absurd member List.not_mem_nil
  distinct := List.nodup_nil

/-- The answer about it is not well-formed. -/
theorem ampersandFolder_not_listed :
    ¬∀ (formats : DateFormats) (directory : Directory),
      Lists (onPropFind (directory.item formats) directory.uri) directory.paths := by
  intro always
  have formats : DateFormats := ⟨fun _ => statusOk, fun _ => statusOk⟩
  have plain := (Directory.lists_iff_plain formats (.folder ampersandFolder)).mp
    (always formats (.folder ampersandFolder))
  exact absurd (plain.1.chars '&' (by decide)) (by decide)

end RoundSync.Safdav.Multistatus
