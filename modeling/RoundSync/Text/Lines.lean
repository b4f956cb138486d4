import RoundSync.Text.AndroidUri
import RoundSync.Text.GoSpaces

/-!
# Lines of a text file

`BufferedReader.readLine` over a UTF-8 file.  A line ends at a line feed, at a
carriage return or at both, and at the end of the file; it does not include its
end.  The two octets are never part of a longer sequence of UTF-8, so the octets
are cut into lines before they are decoded.
-/

namespace RoundSync.Text.Lines

open RoundSync.Text.AndroidUri

def lineFeed : UInt8 :=
  10

def carriageReturn : UInt8 :=
  13

/-- The lines from the octets read so far; after a carriage return a line feed
is skipped. -/
def linesFrom : Bool → List UInt8 → List UInt8 → List (List UInt8)
  | _, current, [] => if current = [] then [] else [current]
  | skipLF, current, octet :: octets =>
      if skipLF ∧ octet = lineFeed then linesFrom false current octets
      else if octet = lineFeed then current :: linesFrom false [] octets
      else if octet = carriageReturn then current :: linesFrom true [] octets
      else linesFrom false (current ++ [octet]) octets

def readLines (octets : List UInt8) : List (List UInt8) :=
  linesFrom false [] octets

/-- Octets without an end of a line. -/
def IsLine (octets : List UInt8) : Prop :=
  lineFeed ∉ octets ∧ carriageReturn ∉ octets

instance (octets : List UInt8) : Decidable (IsLine octets) :=
  inferInstanceAs (Decidable (_ ∧ _))

theorem isLine_nil : IsLine [] :=
  ⟨List.not_mem_nil, List.not_mem_nil⟩

theorem IsLine.append {first second : List UInt8} (one : IsLine first) (other : IsLine second) :
    IsLine (first ++ second) :=
  ⟨fun member => (List.mem_append.mp member).elim one.1 other.1,
    fun member => (List.mem_append.mp member).elim one.2 other.2⟩

theorem isLine_of_mem_linesFrom {skipLF : Bool} {current octets line : List UInt8}
    (start : IsLine current) (member : line ∈ linesFrom skipLF current octets) : IsLine line := by
  fun_induction linesFrom skipLF current octets with
  | case1 => cases member
  | case2 skipLF current nonempty =>
      rw [List.mem_singleton.mp member]
      exact start
  | case3 skipLF current octet octets skipped ih => exact ih start member
  | case4 skipLF current octets notSkipped ih =>
      rcases List.mem_cons.mp member with rfl | later
      · exact start
      · exact ih isLine_nil later
  | case5 skipLF current octets notSkipped notFeed ih =>
      rcases List.mem_cons.mp member with rfl | later
      · exact start
      · exact ih isLine_nil later
  | case6 skipLF current octet octets notSkipped notFeed notReturn ih =>
      refine ih (start.append ⟨?_, ?_⟩) member
      · exact fun same => notFeed (List.mem_singleton.mp same).symm
      · exact fun same => notReturn (List.mem_singleton.mp same).symm

theorem isLine_of_mem {octets line : List UInt8} (member : line ∈ readLines octets) :
    IsLine line :=
  isLine_of_mem_linesFrom isLine_nil member

/-- A line that is ended by a line feed is read back. -/
theorem linesFrom_line {line : List UInt8} (isLine : IsLine line)
    (current octets : List UInt8) :
    linesFrom false current (line ++ lineFeed :: octets) =
      (current ++ line) :: readLines octets := by
  induction line generalizing current with
  | nil => simp [linesFrom, readLines]
  | cons octet line ih =>
      obtain ⟨noFeed, noReturn⟩ := isLine
      rw [List.mem_cons, not_or] at noFeed noReturn
      rw [List.cons_append, linesFrom, if_neg (by simp), if_neg (Ne.symm noFeed.1),
        if_neg (Ne.symm noReturn.1), ih ⟨noFeed.2, noReturn.2⟩, List.append_assoc]
      rfl

/-- Lines that are written one after another, each ended by a line feed, are read
back as they are. -/
theorem readLines_written {lines : List (List UInt8)} (areLines : ∀ line ∈ lines, IsLine line) :
    readLines (lines.flatMap (· ++ [lineFeed])) = lines := by
  induction lines with
  | nil => rfl
  | cons line lines ih =>
      rw [List.flatMap_cons, List.append_assoc, List.singleton_append, readLines,
        linesFrom_line (areLines line List.mem_cons_self), List.nil_append,
        ih fun other member => areLines other (List.mem_cons_of_mem line member)]

/-! ## Ends of lines in UTF-8 -/

variable (malformedLength : List UInt8 → Nat)

/-- A character of one octet is decoded from this octet only. -/
theorem mem_of_mem_decodeOctetsFrom {c : Char} {code : UInt8}
    (single : String.utf8EncodeChar c = [code]) (valid : c ≠ INVALID_INPUT_CHARACTER) {skip : Nat}
    {octets : List UInt8} (member : c ∈ decodeOctetsFrom malformedLength skip octets) :
    code ∈ octets := by
  fun_induction decodeOctetsFrom malformedLength skip octets with
  | case1 => cases member
  | case2 skip octet octets ih => exact List.mem_cons_of_mem octet (ih member)
  | case3 octet octets d decoded ih =>
      rcases List.mem_cons.mp member with rfl | later
      · obtain ⟨rest, equal⟩ := ByteArray.exists_of_utf8DecodeChar?_eq_some decoded
        have lists : octet :: octets = String.utf8EncodeChar c ++ rest.data.toList := by
          have data := congrArg (fun bytes => bytes.data.toList) equal
          simpa using data
        rw [lists, single]
        exact List.mem_append_left _ List.mem_cons_self
      · exact List.mem_cons_of_mem octet (ih later)
  | case4 octet octets malformed ih =>
      rcases List.mem_cons.mp member with invalid | later
      · exact absurd invalid valid
      · exact List.mem_cons_of_mem octet (ih later)

/-- An octet of a longer sequence is none of ASCII. -/
theorem high_octet (mask lead b : UInt8)
    (pair : (mask, lead) ∈ ([(0x3f, 0x80), (0x1f, 0xc0), (0x0f, 0xe0), (0x07, 0xf0)] :
      List (UInt8 × UInt8))) : ¬(b &&& mask ||| lead) < 0x80 := by
  have all := @forall_byte (fun b => ([(0x3f, 0x80), (0x1f, 0xc0), (0x0f, 0xe0), (0x07, 0xf0)] :
    List (UInt8 × UInt8)).all (fun pair => ¬(b &&& pair.1 ||| pair.2) < 0x80) = true)
    (by decide +kernel) b
  simpa using List.all_eq_true.mp all (mask, lead) pair

/-- An ASCII octet stands for itself. -/
theorem utf8EncodeChar_of_ascii {c : Char} {code : UInt8} (ascii : code < 0x80)
    (member : code ∈ String.utf8EncodeChar c) : String.utf8EncodeChar c = [code] := by
  have size : c.utf8Size = 1 ∨ c.utf8Size = 2 ∨ c.utf8Size = 3 ∨ c.utf8Size = 4 := by
    have positive := c.utf8Size_pos
    have bounded := c.utf8Size_le_four
    omega
  rcases size with one | two | three | four
  · rw [String.utf8EncodeChar_eq_singleton one] at member ⊢
    rw [List.mem_singleton.mp member]
  · rw [String.utf8EncodeChar_eq_cons_cons two, List.mem_cons, List.mem_singleton] at member
    rcases member with rfl | rfl
    · exact absurd ascii (high_octet 0x1f 0xc0 _ (by decide))
    · exact absurd ascii (high_octet 0x3f 0x80 _ (by decide))
  · rw [String.utf8EncodeChar_eq_cons_cons_cons three, List.mem_cons, List.mem_cons,
      List.mem_singleton] at member
    rcases member with rfl | rfl | rfl
    · exact absurd ascii (high_octet 0x0f 0xe0 _ (by decide))
    · exact absurd ascii (high_octet 0x3f 0x80 _ (by decide))
    · exact absurd ascii (high_octet 0x3f 0x80 _ (by decide))
  · rw [String.utf8EncodeChar_eq_cons_cons_cons_cons four, List.mem_cons, List.mem_cons,
      List.mem_cons, List.mem_singleton] at member
    rcases member with rfl | rfl | rfl | rfl
    · exact absurd ascii (high_octet 0x07 0xf0 _ (by decide))
    · exact absurd ascii (high_octet 0x3f 0x80 _ (by decide))
    · exact absurd ascii (high_octet 0x3f 0x80 _ (by decide))
    · exact absurd ascii (high_octet 0x3f 0x80 _ (by decide))

/-- An ASCII octet of a text that was decoded and encoded again was there before. -/
theorem mem_of_mem_utf8_decodeOctets {code : UInt8} {octets : List UInt8} (ascii : code < 0x80)
    (member : code ∈ utf8 (decodeOctets malformedLength octets)) : code ∈ octets := by
  obtain ⟨c, isDecoded, inCode⟩ := List.mem_flatMap.mp member
  have single := utf8EncodeChar_of_ascii ascii inCode
  refine mem_of_mem_decodeOctetsFrom malformedLength single ?_ isDecoded
  rintro rfl
  cases congrArg List.length single

/-- A line is still one line after it was decoded and encoded again. -/
theorem IsLine.rewritten {octets : List UInt8} (isLine : IsLine octets) :
    IsLine (utf8 (decodeOctets malformedLength octets)) :=
  ⟨fun member => isLine.1 (mem_of_mem_utf8_decodeOctets malformedLength (by decide) member),
    fun member => isLine.2 (mem_of_mem_utf8_decodeOctets malformedLength (by decide) member)⟩

end RoundSync.Text.Lines
