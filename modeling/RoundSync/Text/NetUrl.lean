import RoundSync.Text.GoPath

/-!
# Percent encoding and URL references

The part of the package `net/url` that the kernel uses: `escape` and `unescape`
of a path, `PathUnescape`, `EscapedPath` of a URL that only has a path, and
`Parse`.  Decoding an encoded path gives the path back, and decoding any path
that has a percent sign changes it.
-/

namespace RoundSync.Text

/-- The components of a URL that have their own escaping rules. -/
inductive Encoding where
  | path
  | host
  | zone
  | userPassword
  deriving DecidableEq

def percent : UInt8 := 37

def isAlphanumeric (b : UInt8) : Bool :=
  97 ≤ b ∧ b ≤ 122 ∨ 65 ≤ b ∧ b ≤ 90 ∨ 48 ≤ b ∧ b ≤ 57

def shouldEscape (b : UInt8) (mode : Encoding) : Bool :=
  if isAlphanumeric b then false
  else if (mode = .host ∨ mode = .zone) ∧ b ∈ str "!$&'()*+,;=:[]<>\"" then false
  else if b ∈ str "-_.~" then false
  else if b ∈ str "$&+,/:;=?@" then
    match mode with
    | .path => b = 63
    | .userPassword => b = 64 ∨ b = 47 ∨ b = 63 ∨ b = 58
    | .host | .zone => true
  else true

def hexDigit (n : Nat) : UInt8 :=
  if n < 10 then UInt8.ofNat (48 + n) else UInt8.ofNat (55 + n)

def unhex (b : UInt8) : Option Nat :=
  if 48 ≤ b ∧ b ≤ 57 then some (b.toNat - 48)
  else if 97 ≤ b ∧ b ≤ 102 then some (b.toNat - 87)
  else if 65 ≤ b ∧ b ≤ 70 then some (b.toNat - 55)
  else none

def escapeByte (b : UInt8) : GoString :=
  if shouldEscape b .path then [percent, hexDigit (b.toNat / 16), hexDigit (b.toNat % 16)]
  else [b]

/-- `escape` in path mode. -/
def escape (s : GoString) : GoString :=
  s.flatMap escapeByte

/-- `unescape` in the modes that only decode percent triples. -/
def unescape : GoString → Option GoString
  | [] => some []
  | b :: rest =>
      if b = percent then
        match rest with
        | high :: low :: rest =>
            match unhex high, unhex low with
            | some h, some l => (unescape rest).map (UInt8.ofNat (16 * h + l) :: ·)
            | _, _ => none
        | _ => none
      else (unescape rest).map (b :: ·)

/-- `PathUnescape`. -/
def pathUnescape (s : GoString) : Option GoString :=
  unescape s

/-- `(&URL{Path: p}).EscapedPath()`. -/
def escapedPath (p : GoString) : GoString :=
  if p = str "*" then p else escape p

/-! ## Parsing a reference -/

/-- The host modes of `unescape` also reject some bytes and triples. -/
def unescapeHost (mode : Encoding) (s : GoString) : Option GoString :=
  if accepted s then unescape s else none
where
  accepted : GoString → Bool
    | [] => true
    | b :: rest =>
        if b = percent then
          match rest with
          | high :: low :: rest =>
              match unhex high, unhex low with
              | some h, some l =>
                  let v := UInt8.ofNat (16 * h + l)
                  let isPercent := high = 50 ∧ low = 53
                  (mode = .host → h < 8 → isPercent) &&
                    (mode = .zone → isPercent ∨ v = 32 ∨ !shouldEscape v .host) && accepted rest
              | _, _ => false
          | _ => false
        else !(b < 0x80 && shouldEscape b mode) && accepted rest

/-- The text before and after the first occurrence of a byte. -/
def cut (b : UInt8) (s : GoString) : GoString × Option GoString :=
  match s.dropWhile (· ≠ b) with
  | [] => (s, none)
  | _ :: rest => (s.takeWhile (· ≠ b), some rest)

/-- The text before and after the last occurrence of a byte. -/
def cutLast (b : UInt8) (s : GoString) : GoString × Option GoString :=
  match cut b s.reverse with
  | (_, none) => (s, none)
  | (after, some before) => (before.reverse, some after.reverse)

def validOptionalPort (port : GoString) : Bool :=
  match port with
  | [] => true
  | b :: digits => b = 58 ∧ digits.all fun d => 48 ≤ d ∧ d ≤ 57

/-- Split at the first occurrence of `%25`. -/
def cutZone : GoString → Option (GoString × GoString)
  | [] => none
  | b :: rest =>
      if hasPrefix (b :: rest) (str "%25") then some ([], b :: rest)
      else (cutZone rest).map fun parts => (b :: parts.1, parts.2)

def parseHost (host : GoString) : Option GoString :=
  if hasPrefix host [91] then
    match cutLast 93 host with
    | (_, none) => none
    | (inner, some port) =>
        if validOptionalPort port then
          match cutZone inner with
          | some (address, zone) =>
              (unescapeHost .host address).bind fun host1 =>
                (unescapeHost .zone zone).bind fun host2 =>
                  (unescapeHost .host (93 :: port)).map fun host3 => host1 ++ host2 ++ host3
          | none => unescapeHost .host host
        else none
  else
    match cutLast 58 host with
    | (_, none) => unescapeHost .host host
    | (_, some port) =>
        if validOptionalPort (58 :: port) then unescapeHost .host host else none

def validUserinfo (s : GoString) : Bool :=
  s.all fun b => isAlphanumeric b || (str "-._:~!$&'()*+,;=%@").contains b

/-- `parseAuthority` without the user information it also returns. -/
def parseAuthority (authority : GoString) : Option GoString :=
  match cutLast 64 authority with
  | (_, none) => parseHost authority
  | (userinfo, some host) =>
      (parseHost host).bind fun host =>
        if validUserinfo userinfo ∧ (unescape userinfo).isSome then some host else none

/-- `getScheme`: the scheme in front of the first colon and the rest. -/
def getScheme (rawURL : GoString) : Option (GoString × GoString) :=
  scan rawURL []
where
  scan : GoString → GoString → Option (GoString × GoString)
    | [], _ => some ([], rawURL)
    | b :: rest, read =>
        if 97 ≤ b ∧ b ≤ 122 ∨ 65 ≤ b ∧ b ≤ 90 then scan rest (read ++ [b])
        else if 48 ≤ b ∧ b ≤ 57 ∨ b = 43 ∨ b = 45 ∨ b = 46 then
          if read = [] then some ([], rawURL) else scan rest (read ++ [b])
        else if b = 58 then if read = [] then none else some (read, rest)
        else some ([], rawURL)

/-- The parts of a parsed URL that the kernel reads. -/
structure URL where
  host : GoString
  path : GoString
  deriving DecidableEq

/-- `url.Parse`; the query and the fragment are read only to be cut off. -/
def urlParse (rawURL : GoString) : Option URL :=
  let u := (cut 35 rawURL).1
  let fragment := (cut 35 rawURL).2.getD []
  if u.any (fun b => b < 0x20 || b = 0x7F) then none
  else if (unescape fragment).isNone then none
  else if u = str "*" then some ⟨[], str "*"⟩
  else
    (getScheme u).bind fun (scheme, rest) =>
      let rest := (cut 63 rest).1
      if !hasPrefix rest [slash] then
        if scheme ≠ [] then some ⟨[], []⟩
        else if (cut slash rest).1.contains 58 then none
        else (unescape rest).map fun path => ⟨[], path⟩
      else if (scheme ≠ [] ∨ !hasPrefix rest (str "///")) ∧ hasPrefix rest (str "//") then
        let authority := (cut slash (rest.drop 2)).1
        (parseAuthority authority).bind fun host =>
          (unescape ((rest.drop 2).drop authority.length)).map fun path => ⟨host, path⟩
      else (unescape rest).map fun path => ⟨[], path⟩

/-! ## Decoding what was encoded -/

theorem unhex_hexDigit {n : Nat} (small : n < 16) : unhex (hexDigit n) = some n := by
  have all : (List.range 16).all (fun m => unhex (hexDigit m) = some m) = true := by decide
  simpa using List.all_eq_true.mp all n (List.mem_range.mpr small)

theorem percent_escaped : shouldEscape percent .path = true := by
  decide

theorem unescape_of_ne {b : UInt8} (notPercent : b ≠ percent) (rest : GoString) :
    unescape (b :: rest) = (unescape rest).map (b :: ·) := by
  conv => lhs; unfold unescape
  exact if_neg notPercent

theorem unescape_escapeByte_append (b : UInt8) (rest : GoString) :
    unescape (escapeByte b ++ rest) = (unescape rest).map (b :: ·) := by
  unfold escapeByte
  split
  · have high : b.toNat / 16 < 16 := by have := b.toNat_lt; omega
    have low : b.toNat % 16 < 16 := by omega
    have value : UInt8.ofNat (16 * (b.toNat / 16) + b.toNat % 16) = b := by
      rw [Nat.div_add_mod, UInt8.ofNat_toNat]
    simp only [List.cons_append, List.nil_append]
    rw [unescape, if_pos rfl]
    simp only [unhex_hexDigit high, unhex_hexDigit low, value]
  · rename_i kept
    have notPercent : b ≠ percent := fun equal => kept (equal ▸ percent_escaped)
    exact unescape_of_ne notPercent rest

/-- One decoding undoes one encoding. -/
theorem unescape_escape (s : GoString) : unescape (escape s) = some s := by
  induction s with
  | nil => rfl
  | cons b s ih =>
      rw [escape, List.flatMap_cons, unescape_escapeByte_append, ← escape, ih]
      rfl

theorem escape_injective {s t : GoString} (equal : escape s = escape t) : s = t := by
  have decoded := congrArg unescape equal
  rw [unescape_escape, unescape_escape] at decoded
  exact Option.some.inj decoded

theorem unescape_of_percent_notMem {s : GoString} (free : percent ∉ s) : unescape s = some s := by
  induction s with
  | nil => rfl
  | cons b s ih =>
      have notPercent : b ≠ percent := fun equal => free (equal ▸ List.mem_cons_self)
      rw [unescape_of_ne notPercent, ih fun member => free (List.mem_cons_of_mem b member)]
      rfl

/-- Decoding never lengthens a word, and every percent triple costs two bytes. -/
theorem unescape_length {s decoded : GoString} (result : unescape s = some decoded) :
    decoded.length ≤ s.length ∧ (percent ∈ s → decoded.length + 2 ≤ s.length) := by
  induction s using unescape.induct generalizing decoded with
  | case1 =>
      rw [unescape] at result
      cases result
      simp
  | case2 high low rest h l highEq lowEq ih =>
      rw [unescape, if_pos rfl] at result
      simp only [highEq, lowEq, Option.map_eq_some_iff] at result
      obtain ⟨tail, tailEq, rfl⟩ := result
      have bound := (ih tailEq).1
      simp only [List.length_cons]
      omega
  | case3 high low rest invalid =>
      rw [unescape, if_pos rfl] at result
      split at result
      · rename_i h l highEq lowEq
        exact absurd lowEq (invalid h l highEq)
      · contradiction
  | case4 rest short =>
      rw [unescape, if_pos rfl] at result
      · contradiction
      · exact short
  | case5 b rest notPercent ih =>
      rw [unescape_of_ne notPercent, Option.map_eq_some_iff] at result
      obtain ⟨tail, tailEq, rfl⟩ := result
      obtain ⟨bound, strict⟩ := ih tailEq
      simp only [List.length_cons, List.mem_cons]
      constructor
      · omega
      · rintro (equal | member)
        · exact absurd equal.symm notPercent
        · have := strict member
          omega

/-! ## Parsing an encoded path -/

theorem cut_of_notMem {b : UInt8} {s : GoString} (absent : b ∉ s) : cut b s = (s, none) := by
  have nothing : s.dropWhile (· ≠ b) = [] := by
    rw [List.dropWhile_eq_nil_iff]
    intro c member
    simpa using fun equal : c = b => absent (equal ▸ member)
  rw [cut, nothing]

theorem cut_append {b : UInt8} {s : GoString} (absent : b ∉ s) (rest : GoString) :
    cut b (s ++ b :: rest) = (s, some rest) := by
  have kept : ∀ c ∈ s, (decide (c ≠ b)) = true := by
    intro c member
    simpa using fun equal : c = b => absent (equal ▸ member)
  rw [cut, List.dropWhile_append_of_pos kept, List.takeWhile_append_of_pos kept]
  simp

/-- A byte that neither ends the path of a reference nor makes it unreadable. -/
def plainByte (b : UInt8) : Bool :=
  b ≠ 35 ∧ b ≠ 63 ∧ 0x20 ≤ b ∧ b ≠ 0x7F

def PlainBytes (s : GoString) : Prop :=
  s.all plainByte = true

theorem PlainBytes.append {s t : GoString} (first : PlainBytes s) (second : PlainBytes t) :
    PlainBytes (s ++ t) := by
  rw [PlainBytes, List.all_append, first, second]
  rfl

theorem PlainBytes.of_mem {s : GoString} (plain : PlainBytes s) {b : UInt8} (member : b ∈ s) :
    b ≠ 35 ∧ b ≠ 63 ∧ 0x20 ≤ b ∧ b ≠ 0x7F :=
  of_decide_eq_true (List.all_eq_true.mp plain b member)

theorem PlainBytes.noControl {s : GoString} (plain : PlainBytes s) :
    s.any (fun b => b < 0x20 || b = 0x7F) = false := by
  rw [List.any_eq_false]
  intro b member
  obtain ⟨_, _, large, notDelete⟩ := plain.of_mem member
  simpa [notDelete] using large

theorem plainBytes_escapeByte (b : UInt8) : PlainBytes (escapeByte b) := by
  have all : (List.range 256).all (fun n => (escapeByte (UInt8.ofNat n)).all plainByte) = true := by
    decide +kernel
  have plain := List.all_eq_true.mp all b.toNat (List.mem_range.mpr b.toNat_lt)
  rwa [UInt8.ofNat_toNat] at plain

theorem plainBytes_escape (s : GoString) : PlainBytes (escape s) := by
  induction s with
  | nil => rfl
  | cons b s ih =>
      rw [escape, List.flatMap_cons, ← escape]
      exact (plainBytes_escapeByte b).append ih

/-- A rooted reference that does not start with two slashes is a path. -/
theorem urlParse_rooted {u path : GoString} (plain : PlainBytes u)
    (isRooted : hasPrefix u [slash] = true) (single : hasPrefix u (str "//") = false)
    (decoded : unescape u = some path) : urlParse u = some ⟨[], path⟩ := by
  obtain ⟨rest, rfl⟩ := hasPrefix_iff.mp isRooted
  have noFragment : cut 35 ([slash] ++ rest) = ([slash] ++ rest, none) :=
    cut_of_notMem fun member => (plain.of_mem member).1 rfl
  have noQuery : cut 63 ([slash] ++ rest) = ([slash] ++ rest, none) :=
    cut_of_notMem fun member => (plain.of_mem member).2.1 rfl
  have notStar : [slash] ++ rest ≠ str "*" := by
    intro equal
    exact absurd (List.cons.inj equal).1 (by decide)
  have noScheme : getScheme ([slash] ++ rest) = some ([], [slash] ++ rest) := by
    simp [getScheme, getScheme.scan, slash]
  unfold urlParse
  dsimp only
  rw [noFragment]
  dsimp only
  rw [plain.noControl, if_neg Bool.false_ne_true]
  have emptyFragment : (unescape (Option.getD none [])).isNone ≠ true := by decide
  rw [if_neg emptyFragment, if_neg notStar, noScheme, Option.bind_some]
  dsimp only
  rw [noQuery]
  dsimp only
  rw [isRooted, single, decoded]
  simp

/-- A host that can stand in front of a path in an absolute URL. -/
structure PlainHost (host : GoString) : Prop where
  parsed : parseAuthority host = some host
  plain : PlainBytes host
  slash_notMem : slash ∉ host

/-- A rooted path after a scheme and a host. -/
theorem urlParse_absolute {host u path : GoString} (plainHost : PlainHost host)
    (plain : PlainBytes u) (isRooted : hasPrefix u [slash] = true)
    (decoded : unescape u = some path) :
    urlParse (str "http://" ++ host ++ u) = some ⟨host, path⟩ := by
  obtain ⟨rest, rfl⟩ := hasPrefix_iff.mp isRooted
  have schemePlain : PlainBytes (str "http://") := rfl
  have allPlain : PlainBytes (str "http://" ++ host ++ ([slash] ++ rest)) := by
    apply PlainBytes.append
    · exact PlainBytes.append schemePlain plainHost.plain
    · exact plain
  have schemeEq : str "http://" = str "http" ++ [58] ++ str "//" := by decide
  have noFragment := cut_of_notMem fun member => (allPlain.of_mem member).1 rfl
  have noQuery : cut 63 (str "//" ++ host ++ ([slash] ++ rest)) =
      (str "//" ++ host ++ ([slash] ++ rest), none) := by
    apply cut_of_notMem
    intro member
    refine (allPlain.of_mem (b := 63) ?_).2.1 rfl
    rw [schemeEq]
    simp only [List.append_assoc] at member ⊢
    exact List.mem_append_right _ (List.mem_append_right _ member)
  have notStar : str "http://" ++ host ++ ([slash] ++ rest) ≠ str "*" := by
    intro equal
    have headEq : some (104 : UInt8) = some 42 := congrArg List.head? equal
    exact absurd headEq (by decide)
  have hasScheme : getScheme (str "http://" ++ host ++ ([slash] ++ rest)) =
      some (str "http", str "//" ++ host ++ ([slash] ++ rest)) := by
    rfl
  have authority : cut slash ((str "//" ++ host ++ ([slash] ++ rest)).drop 2) =
      (host, some rest) :=
    cut_append plainHost.slash_notMem rest
  have twoSlashes : hasPrefix (str "//" ++ host ++ ([slash] ++ rest)) (str "//") = true :=
    hasPrefix_iff.mpr ⟨_, List.append_assoc _ _ _ |>.symm⟩
  have oneSlash : hasPrefix (str "//" ++ host ++ ([slash] ++ rest)) [slash] = true :=
    hasPrefix_iff.mpr ⟨[slash] ++ host ++ ([slash] ++ rest), rfl⟩
  have pathEq : ((str "//" ++ host ++ ([slash] ++ rest)).drop 2).drop host.length =
      [slash] ++ rest :=
    List.drop_left
  unfold urlParse
  dsimp only
  rw [noFragment]
  dsimp only
  rw [allPlain.noControl, if_neg Bool.false_ne_true]
  have emptyFragment : (unescape (Option.getD none [])).isNone ≠ true := by decide
  rw [if_neg emptyFragment, if_neg notStar, hasScheme, Option.bind_some]
  dsimp only
  rw [noQuery]
  dsimp only
  have schemeNe : str "http" ≠ [] := by decide
  rw [authority, pathEq, oneSlash, twoSlashes, if_neg (by decide), if_pos ⟨.inl schemeNe, rfl⟩,
    plainHost.parsed, decoded]
  rfl

end RoundSync.Text
