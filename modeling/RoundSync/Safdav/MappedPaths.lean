import RoundSync.Safdav.ProviderPaths

/-!
# Request paths of the listed permissions

The names that a list of calls gives out, and the request paths under them.  A
name stays with its permission, but a permission that finds its plain name taken
gets another name at every call, the request path of a one-letter child is not
split, and the path of a permission below the root of a volume is only found by
the text of some permission.
-/

namespace RoundSync.Safdav

open RoundSync.Data RoundSync.Text RoundSync.Text.Kotlin RoundSync.Text.AndroidUri

variable {isExternalStorageRemovable : Bool}

/-! ## Plain names -/

/-- What `getNormalizedPath` makes of the path below the volume. -/
def normalizedRest (uri : Permission) : JavaString :=
  let rest := (joined uri.names).map fun c => if c = ':' then '/' else c
  if rest.getLast? = some '/' then rest.dropLast else rest

theorem colon_notMem_normalizedRest (uri : Permission) : ':' ∉ normalizedRest uri := by
  have replaced : ':' ∉ (joined uri.names).map fun c => if c = ':' then '/' else c := by
    intro member
    obtain ⟨c, -, equal⟩ := List.mem_map.mp member
    split at equal
    · exact absurd equal (by decide)
    · contradiction
  unfold normalizedRest
  dsimp only
  split
  · exact fun member => replaced (List.mem_of_mem_dropLast member)
  · exact replaced

theorem map_colon_of_notMem {s : JavaString} (free : ':' ∉ s) :
    (s.map fun c => if c = ':' then '/' else c) = s := by
  have same : ∀ c ∈ s, (if c = ':' then '/' else c) = id c := by
    intro c member
    have other : c ≠ ':' := fun equal => free (equal ▸ member)
    rw [if_neg other, id]
  rw [List.map_congr_left same, List.map_id]

/-- Without a colon in it the path below the volume is left as it is. -/
theorem normalizedRest_of_notMem {uri : Permission} (free : ':' ∉ joined uri.names) :
    normalizedRest uri = joined uri.names := by
  unfold normalizedRest
  dsimp only
  rw [map_colon_of_notMem free, if_neg]
  intro last
  obtain ⟨start, equal⟩ := List.getLast?_eq_some_iff.mp last
  exact joined_ne_append_slash uri.names start equal

theorem getNormalizedPath_eq (uri : Permission) :
    (getNormalizedPath uri).dropLast =
      if uri.names = [] then uri.volume.val else uri.volume.val ++ '/' :: normalizedRest uri := by
  have tree : (uri.path.map fun c => if c = ':' then '/' else c) =
      text "/tree/" ++ (uri.volume.val ++
        '/' :: (joined uri.names).map fun c => if c = ':' then '/' else c) := by
    rw [Permission.path, treePath, Permission.documentId, List.map_append, List.map_append,
      map_colon_of_notMem (by decide : ':' ∉ text "/tree/"),
      map_colon_of_notMem uri.volume.property.2.1]
    rfl
  have found : ∀ rest : JavaString, contains (text "/tree/") (text "/tree/" ++ rest) = true :=
    fun rest => decide_eq_true (List.prefix_append _ rest).isInfix
  have empty : (joined uri.names).map (fun c => if c = ':' then '/' else c) = [] ↔
      uri.names = [] := by
    rw [List.map_eq_nil_iff, joined_eq_nil_iff]
  rw [getNormalizedPath, tree, found, if_pos rfl, List.drop_left, normalizedRest]
  generalize (joined uri.names).map (fun c => if c = ':' then '/' else c) = rest at empty
  by_cases noNames : uri.names = []
  · rw [if_pos noNames, empty.mpr noNames]
    simp
  · have more : rest ≠ [] := fun nothing => noNames (empty.mp nothing)
    have lastEq : (uri.volume.val ++ '/' :: rest).getLast? = rest.getLast? := by
      rw [List.getLast?_append_cons, List.getLast?_cons_of_ne_nil more]
    rw [if_neg noNames, lastEq]
    by_cases slash : rest.getLast? = some '/'
    · rw [if_pos (.inr slash), if_pos slash, List.dropLast_append_cons,
        List.dropLast_cons_of_ne_nil more]
    · have neither : ¬(uri.volume.val ++ '/' :: rest = [] ∨ rest.getLast? = some '/') := by
        simpa using slash
      rw [if_neg neither, if_neg slash, List.dropLast_concat]

theorem plainName_ne (isExternalStorageRemovable : Bool) (uri : Permission) {c : Char}
    (constants : c ∉ text "SD Card" ++ text "Internal Storage")
    (normalized : c ∉ (getNormalizedPath uri).dropLast) :
    c ∉ plainName isExternalStorageRemovable uri := by
  rw [List.mem_append, not_or] at constants
  unfold plainName
  dsimp only
  split
  · split
    · exact constants.1
    · exact constants.2
  · exact normalized

/-- No plain name has a colon. -/
theorem colon_notMem_plainName (isExternalStorageRemovable : Bool) (uri : Permission) :
    ':' ∉ plainName isExternalStorageRemovable uri := by
  apply plainName_ne _ _ (by decide)
  rw [getNormalizedPath_eq]
  split
  · exact uri.volume.property.2.1
  · have rest := colon_notMem_normalizedRest uri
    simp [uri.volume.property.2.1, rest]

/-- The plain name of a volume has no slash. -/
theorem slash_notMem_plainName {uri : Permission} (noNames : uri.names = []) :
    '/' ∉ plainName isExternalStorageRemovable uri := by
  apply plainName_ne _ _ (by decide)
  rw [getNormalizedPath_eq, if_pos noNames]
  exact uri.volume.property.2.2

/-- The plain name of a permission below the root of a volume. -/
theorem plainName_of_names {uri : Permission} (someNames : uri.names ≠ []) :
    plainName isExternalStorageRemovable uri =
      uri.volume.val ++ '/' :: normalizedRest uri := by
  have slash : '/' ∉ text "primary" := by decide
  have notPrimary : uri.volume.val ++ '/' :: normalizedRest uri ≠ text "primary" := by
    intro equal
    exact slash (equal ▸ List.mem_append_right _ List.mem_cons_self)
  rw [plainName, getNormalizedPath_eq, if_neg someNames, if_neg notPrimary]

/-! ## Counted names -/

theorem counted_eq_append (nameInternal : JavaString) (counter : Nat) :
    counted nameInternal counter = nameInternal ++ counted [] counter := by
  simp [counted]

theorem counted_nil_ne_nil (counter : Nat) : counted [] counter ≠ [] := by
  simp [counted, text]

theorem counted_injective (nameInternal : JavaString) :
    Function.Injective (counted nameInternal) := by
  intro first second equal
  simp only [counted, List.append_assoc, List.append_cancel_left_eq] at equal
  have digits : Nat.toDigits 10 first = Nat.toDigits 10 second := List.append_cancel_right equal
  rw [← Nat.ofDigitChars_toDigits (b := 10) (n := first) (by decide) (by decide), digits,
    Nat.ofDigitChars_toDigits (by decide) (by decide)]

/-- The counter and its brackets hold neither a colon nor a slash. -/
theorem notMem_counted_nil {c : Char} (noDigit : c.isDigit = false) (bracket : c ∉ text " ()")
    (counter : Nat) : c ∉ counted [] counter := by
  intro member
  simp only [counted, List.nil_append, List.mem_append] at member
  rcases member with (first | digit) | last
  · exact bracket (List.mem_append_left _ first)
  · rw [Nat.isDigit_of_mem_toDigits (by decide) (by decide) digit] at noDigit
    contradiction
  · exact bracket (List.mem_append_right (text " (") last)

theorem lookup_freeName (permissionsByPath : NameTable) (nameInternal : JavaString) :
    permissionsByPath.lookup (freeName permissionsByPath nameInternal) = none := by
  have listed : ∀ key, (permissionsByPath.lookup key).isSome = true →
      key ∈ permissionsByPath.keys :=
    fun key taken => AList.mem_keys.mp (AList.lookup_isSome.mp taken)
  exact Option.isNone_iff_eq_none.mp
    (Option.isSome_eq_false_iff.mp (firstFree_free (counted_injective nameInternal) listed 2))

/-- A permission is named by its plain name, which is then its own, or it finds
the plain name taken and is named by a counted name that nobody has. -/
theorem mappedName_cases (isExternalStorageRemovable : Bool) (permissionsByPath : NameTable)
    (uri : Permission) :
    let plain := plainName isExternalStorageRemovable uri
    let name := mappedName isExternalStorageRemovable permissionsByPath uri
    (name = plain ∧ ∀ storedUri, permissionsByPath.lookup plain = some storedUri →
      storedUri = uri) ∨
    (∃ counter, name = counted plain counter ∧ permissionsByPath.lookup name = none) ∧
      ∃ storedUri, permissionsByPath.lookup plain = some storedUri ∧ storedUri ≠ uri := by
  dsimp only [mappedName]
  cases stored : permissionsByPath.lookup (plainName isExternalStorageRemovable uri) with
  | none => exact .inl ⟨rfl, fun storedUri found => by contradiction⟩
  | some storedUri =>
      dsimp only
      by_cases own : storedUri = uri
      · refine .inl ⟨by rw [if_pos own], fun other found => ?_⟩
        rw [← Option.some.inj found, own]
      · rw [if_neg own]
        exact .inr ⟨⟨_, rfl, lookup_freeName _ _⟩, storedUri, rfl, own⟩

/-- Whatever name a permission gets, nobody else has it. -/
theorem lookup_mappedName {permissionsByPath : NameTable} {uri storedUri : Permission}
    (found : permissionsByPath.lookup
      (mappedName isExternalStorageRemovable permissionsByPath uri) = some storedUri) :
    storedUri = uri := by
  rcases mappedName_cases isExternalStorageRemovable permissionsByPath uri with
    ⟨plain, free⟩ | ⟨⟨counter, -, absent⟩, -⟩
  · rw [plain] at found
    exact free storedUri found
  · rw [absent] at found
    contradiction

/-! ## Calls one after the other -/

/-- The permissions called, each with the name it was given, and the table left. -/
def nameAll (isExternalStorageRemovable : Bool) :
    NameTable → List Permission → List (Permission × JavaString) × NameTable
  | permissionsByPath, [] => ([], permissionsByPath)
  | permissionsByPath, uri :: calls =>
      let (answer, permissionsByPath) :=
        getPathForUri isExternalStorageRemovable permissionsByPath uri
      let (given, permissionsByPath) := nameAll isExternalStorageRemovable permissionsByPath calls
      ((uri, answer) :: given, permissionsByPath)

theorem nameAll_cons (permissionsByPath : NameTable) (uri : Permission)
    (calls : List Permission) :
    nameAll isExternalStorageRemovable permissionsByPath (uri :: calls) =
      let first := getPathForUri isExternalStorageRemovable permissionsByPath uri
      let rest := nameAll isExternalStorageRemovable first.2 calls
      ((uri, first.1) :: rest.1, rest.2) :=
  rfl

theorem nameAll_append (permissionsByPath : NameTable) (before calls : List Permission) :
    nameAll isExternalStorageRemovable permissionsByPath (before ++ calls) =
      let first := nameAll isExternalStorageRemovable permissionsByPath before
      let rest := nameAll isExternalStorageRemovable first.2 calls
      (first.1 ++ rest.1, rest.2) := by
  induction before generalizing permissionsByPath with
  | nil => rfl
  | cons uri before ih =>
      simp only [List.cons_append, nameAll_cons, ih]

/-- A name stays with its permission when another one is named. -/
theorem lookup_insert_of_lookup {permissionsByPath : NameTable} {name : JavaString}
    {uri storedUri : Permission} (found : permissionsByPath.lookup name = some storedUri) :
    (getPathForUri isExternalStorageRemovable permissionsByPath uri).2.lookup name =
      some storedUri := by
  rw [getPathForUri, Table.lookup_insert_eq_some_iff]
  by_cases same : name = mappedName isExternalStorageRemovable permissionsByPath uri
  · rw [same] at found
    exact .inl ⟨same, (lookup_mappedName found).symm⟩
  · exact .inr ⟨same, found⟩

theorem lookup_nameAll_of_lookup {permissionsByPath : NameTable} {name : JavaString}
    {storedUri : Permission} (calls : List Permission)
    (found : permissionsByPath.lookup name = some storedUri) :
    (nameAll isExternalStorageRemovable permissionsByPath calls).2.lookup name =
      some storedUri := by
  induction calls generalizing permissionsByPath with
  | nil => exact found
  | cons uri calls ih => exact ih (lookup_insert_of_lookup found)

/-- A name is the plain name of the permission, or that name with a counter. -/
def Named (isExternalStorageRemovable : Bool) (uri : Permission) (name : JavaString) : Prop :=
  name = plainName isExternalStorageRemovable uri ∨
    ∃ counter, name = counted (plainName isExternalStorageRemovable uri) counter

theorem named_mappedName (permissionsByPath : NameTable) (uri : Permission) :
    Named isExternalStorageRemovable uri
      (mappedName isExternalStorageRemovable permissionsByPath uri) := by
  rcases mappedName_cases isExternalStorageRemovable permissionsByPath uri with
    ⟨plain, -⟩ | ⟨⟨counter, name, -⟩, -⟩
  · exact .inl plain
  · exact .inr ⟨counter, name⟩

/-- A name that was given out leads to its permission in the table. -/
theorem given_nameAll {permissionsByPath : NameTable} {calls : List Permission}
    {uri : Permission} {answer : JavaString}
    (given : (uri, answer) ∈ (nameAll isExternalStorageRemovable permissionsByPath calls).1) :
    ∃ name, answer = name ++ ['/'] ∧ Named isExternalStorageRemovable uri name ∧
      (nameAll isExternalStorageRemovable permissionsByPath calls).2.lookup name = some uri := by
  induction calls generalizing permissionsByPath with
  | nil => contradiction
  | cons first calls ih =>
      rcases List.mem_cons.mp given with now | later
      · obtain ⟨rfl, rfl⟩ := Prod.mk.inj now
        refine ⟨_, rfl, named_mappedName permissionsByPath uri, ?_⟩
        exact lookup_nameAll_of_lookup calls (AList.lookup_insert _)
      · exact ih later

/-- The table holds what it held before and the names that were given out. -/
theorem lookup_nameAll {permissionsByPath : NameTable} {calls : List Permission}
    {name : JavaString} {storedUri : Permission}
    (found : (nameAll isExternalStorageRemovable permissionsByPath calls).2.lookup name =
      some storedUri) :
    permissionsByPath.lookup name = some storedUri ∨
      storedUri ∈ calls ∧ Named isExternalStorageRemovable storedUri name := by
  induction calls generalizing permissionsByPath with
  | nil => exact .inl found
  | cons uri calls ih =>
      rw [nameAll_cons] at found
      rcases ih found with before | ⟨called, named⟩
      · rw [getPathForUri, Table.lookup_insert_eq_some_iff] at before
        rcases before with ⟨same, own⟩ | ⟨-, before⟩
        · rw [same, ← own]
          exact .inr ⟨List.mem_cons_self, named_mappedName permissionsByPath uri⟩
        · exact .inl before
      · exact .inr ⟨List.mem_cons_of_mem uri called, named⟩

/-- A permission that holds its plain name is given that name at every call. -/
theorem given_of_held {permissionsByPath : NameTable} {calls : List Permission}
    {uri : Permission} {answer : JavaString}
    (held : permissionsByPath.lookup (plainName isExternalStorageRemovable uri) = some uri)
    (given : (uri, answer) ∈ (nameAll isExternalStorageRemovable permissionsByPath calls).1) :
    answer = plainName isExternalStorageRemovable uri ++ ['/'] := by
  induction calls generalizing permissionsByPath with
  | nil => contradiction
  | cons first calls ih =>
      rcases List.mem_cons.mp given with now | later
      · obtain ⟨rfl, rfl⟩ := Prod.mk.inj now
        rcases mappedName_cases isExternalStorageRemovable permissionsByPath uri with
          ⟨plain, -⟩ | ⟨-, storedUri, found, other⟩
        · exact congrArg (· ++ ['/']) plain
        · rw [held] at found
          exact absurd (Option.some.inj found).symm other
      · exact ih (lookup_insert_of_lookup held) later

/-- A permission that finds its plain name taken is given a name that nobody has
so far. -/
theorem given_of_taken {permissionsByPath : NameTable} {calls : List Permission}
    {uri storedUri : Permission} {name : JavaString}
    (taken : permissionsByPath.lookup (plainName isExternalStorageRemovable uri) = some storedUri)
    (other : storedUri ≠ uri)
    (given : (uri, name ++ ['/']) ∈
      (nameAll isExternalStorageRemovable permissionsByPath calls).1) :
    permissionsByPath.lookup name = none ∧
      ∃ counter, name = counted (plainName isExternalStorageRemovable uri) counter := by
  induction calls generalizing permissionsByPath with
  | nil => contradiction
  | cons first calls ih =>
      rcases List.mem_cons.mp given with now | later
      · obtain ⟨rfl, same⟩ := Prod.mk.inj now
        obtain rfl := List.append_cancel_right same
        rcases mappedName_cases isExternalStorageRemovable permissionsByPath uri with
          ⟨-, free⟩ | ⟨⟨counter, counts, absent⟩, -⟩
        · exact absurd (free storedUri taken) other
        · exact ⟨absent, counter, counts⟩
      · obtain ⟨absent, counts⟩ := ih (lookup_insert_of_lookup taken) later
        refine ⟨Option.eq_none_iff_forall_ne_some.mpr fun found member => ?_, counts⟩
        rw [lookup_insert_of_lookup member] at absent
        contradiction

theorem called_of_given {permissionsByPath : NameTable} {calls : List Permission}
    {uri : Permission} {answer : JavaString}
    (given : (uri, answer) ∈ (nameAll isExternalStorageRemovable permissionsByPath calls).1) :
    uri ∈ calls := by
  induction calls generalizing permissionsByPath with
  | nil => contradiction
  | cons first calls ih =>
      rcases List.mem_cons.mp given with now | later
      · rw [(Prod.mk.inj now).1]
        exact List.mem_cons_self
      · exact List.mem_cons_of_mem first (ih later)

theorem exists_given (isExternalStorageRemovable : Bool) {calls : List Permission}
    {uri : Permission} (called : uri ∈ calls) (permissionsByPath : NameTable) :
    ∃ name, (uri, name ++ ['/']) ∈
      (nameAll isExternalStorageRemovable permissionsByPath calls).1 := by
  induction calls generalizing permissionsByPath with
  | nil => contradiction
  | cons first calls ih =>
      rcases List.mem_cons.mp called with rfl | later
      · exact ⟨_, List.mem_cons_self⟩
      · obtain ⟨name, given⟩ := ih later _
        exact ⟨name, List.mem_cons_of_mem _ given⟩

/-! ## The first call -/

/-- No permission called before has the plain name of this one. -/
def PlainNameFree (isExternalStorageRemovable : Bool) (calls : List Permission)
    (uri : Permission) : Prop :=
  (nameAll isExternalStorageRemovable ∅ (calls.takeWhile fun call => call ≠ uri)).2.lookup
    (plainName isExternalStorageRemovable uri) = none

theorem exists_first_call {calls : List Permission} {uri : Permission} (called : uri ∈ calls) :
    ∃ after, calls = (calls.takeWhile fun call => call ≠ uri) ++ uri :: after := by
  induction calls with
  | nil => contradiction
  | cons first calls ih =>
      by_cases now : first = uri
      · subst now
        exact ⟨calls, by simp⟩
      · have later : uri ∈ calls := (List.mem_cons.mp called).resolve_left (Ne.symm now)
        obtain ⟨after, equal⟩ := ih later
        refine ⟨after, ?_⟩
        rw [List.takeWhile_cons_of_pos (by simpa using now), List.cons_append, ← equal]

/-- The answers to a permission are those from its first call on. -/
theorem given_from_first_call {calls after : List Permission} {uri : Permission}
    (split : calls = (calls.takeWhile fun call => call ≠ uri) ++ uri :: after)
    {answer : JavaString} :
    (uri, answer) ∈ (nameAll isExternalStorageRemovable ∅ calls).1 ↔
      (uri, answer) ∈ (nameAll isExternalStorageRemovable
        (nameAll isExternalStorageRemovable ∅ (calls.takeWhile fun call => call ≠ uri)).2
        (uri :: after)).1 := by
  have notBefore : uri ∉ calls.takeWhile fun call => call ≠ uri := by
    intro member
    simpa using List.mem_takeWhile_imp member
  conv_lhs => rw [split, nameAll_append]
  rw [List.mem_append]
  exact or_iff_right fun given => notBefore (called_of_given given)

/-- Whoever finds the plain name free at the first call is always given it. -/
theorem given_of_free {calls : List Permission} {uri : Permission} {answer : JavaString}
    (free : PlainNameFree isExternalStorageRemovable calls uri)
    (given : (uri, answer) ∈ (nameAll isExternalStorageRemovable ∅ calls).1) :
    answer = plainName isExternalStorageRemovable uri ++ ['/'] := by
  obtain ⟨after, split⟩ := exists_first_call (called_of_given given)
  rw [given_from_first_call split] at given
  rw [PlainNameFree] at free
  generalize (nameAll isExternalStorageRemovable ∅ (calls.takeWhile fun call => call ≠ uri)).2 =
    permissionsByPath at given free
  have plain : mappedName isExternalStorageRemovable permissionsByPath uri =
      plainName isExternalStorageRemovable uri := by
    simp only [mappedName, free]
  rcases List.mem_cons.mp given with now | later
  · exact (Prod.mk.inj now).2.trans (congrArg (· ++ ['/']) plain)
  · refine given_of_held ?_ later
    rw [← plain]
    exact AList.lookup_insert _

theorem exists_taken {calls : List Permission} {uri : Permission}
    (taken : ¬PlainNameFree isExternalStorageRemovable calls uri) :
    ∃ storedUri, storedUri ≠ uri ∧
      (nameAll isExternalStorageRemovable ∅ (calls.takeWhile fun call => call ≠ uri)).2.lookup
        (plainName isExternalStorageRemovable uri) = some storedUri := by
  obtain ⟨storedUri, found⟩ := Option.ne_none_iff_exists'.mp taken
  refine ⟨storedUri, ?_, found⟩
  rcases lookup_nameAll found with before | ⟨called, -⟩
  · contradiction
  · simpa using List.mem_takeWhile_imp called

/-- Whoever finds it taken never gets it. -/
theorem given_of_not_free {calls : List Permission} {uri : Permission} {name : JavaString}
    (taken : ¬PlainNameFree isExternalStorageRemovable calls uri)
    (given : (uri, name ++ ['/']) ∈ (nameAll isExternalStorageRemovable ∅ calls).1) :
    ∃ counter, name = counted (plainName isExternalStorageRemovable uri) counter := by
  obtain ⟨after, split⟩ := exists_first_call (called_of_given given)
  obtain ⟨storedUri, other, found⟩ := exists_taken taken
  rw [given_from_first_call split] at given
  exact (given_of_taken found other given).2

/-- A permission keeps its name exactly when it found its plain name free at its
first call, or was not called again. -/
theorem kept_iff {calls : List Permission} {uri : Permission} (called : uri ∈ calls) :
    (∀ answer other, (uri, answer) ∈ (nameAll isExternalStorageRemovable ∅ calls).1 →
      (uri, other) ∈ (nameAll isExternalStorageRemovable ∅ calls).1 → answer = other) ↔
      PlainNameFree isExternalStorageRemovable calls uri ∨ calls.count uri ≤ 1 := by
  obtain ⟨after, split⟩ := exists_first_call called
  have once : calls.count uri = after.count uri + 1 := by
    have notBefore : uri ∉ calls.takeWhile fun call => call ≠ uri := by
      intro member
      simpa using List.mem_takeWhile_imp member
    conv_lhs => rw [split]
    rw [List.count_append, List.count_eq_zero.mpr notBefore, List.count_cons_self, Nat.zero_add]
  constructor
  · intro kept
    refine or_iff_not_imp_left.mpr fun taken => ?_
    obtain ⟨storedUri, other, found⟩ := exists_taken taken
    by_contra again
    have later : uri ∈ after := List.count_pos_iff.mp (by omega)
    simp only [given_from_first_call split] at kept
    generalize
      (nameAll isExternalStorageRemovable ∅ (calls.takeWhile fun call => call ≠ uri)).2 =
        permissionsByPath at found kept
    obtain ⟨name, given⟩ := exists_given isExternalStorageRemovable later
      (getPathForUri isExternalStorageRemovable permissionsByPath uri).2
    have same := kept _ _ List.mem_cons_self (List.mem_cons_of_mem _ given)
    have absent := (given_of_taken (lookup_insert_of_lookup found) other given).1
    rw [← List.append_cancel_right same, getPathForUri, AList.lookup_insert] at absent
    contradiction
  · rintro (free | alone) answer other given givenOther
    · rw [given_of_free free given, given_of_free free givenOther]
    · rw [given_from_first_call split] at given givenOther
      have notLater : uri ∉ after := List.count_eq_zero.mp (by omega)
      have first : ∀ {answer : JavaString} {permissionsByPath : NameTable},
          (uri, answer) ∈ (nameAll isExternalStorageRemovable permissionsByPath
            (uri :: after)).1 →
          answer = (getPathForUri isExternalStorageRemovable permissionsByPath uri).1 := by
        intro answer permissionsByPath given
        rcases List.mem_cons.mp given with now | later
        · exact (Prod.mk.inj now).2
        · exact absurd (called_of_given later) notLater
      rw [first given, first givenOther]

/-! ## Request paths -/

/-- A request path is split at its second slash when at least two code units
follow. -/
theorem splitRequest_eq {first rest : JavaString} (free : '/' ∉ first) (more : rest ≠ []) :
    splitRequest (first ++ '/' :: rest) =
      if 2 ≤ utf16Length rest then (first, '/' :: rest) else (first ++ '/' :: rest, []) := by
  have slash : utf16Length ('/' :: rest) = 1 + utf16Length rest := utf16Length_cons '/' rest
  have positive := utf16Length_pos more
  obtain ⟨taken, dropped⟩ := takeWhile_append_sep free rest
  simp only [splitRequest, taken, dropped, reduceCtorEq, if_false, utf16Length_append, slash,
    Option.some.injEq, Option.mem_def, exists_eq_left']
  have notLast : ¬(some (1 + utf16Length first) ≠ some 1 ∧
      1 + utf16Length first = utf16Length first + (1 + utf16Length rest)) := by
    omega
  rw [if_neg notLast, utf16Length_append, slash]
  by_cases two : 2 ≤ utf16Length rest
  · rw [if_pos two, if_pos (by omega)]
  · rw [if_neg two, if_neg (by omega)]

theorem rewriteRequest_eq {first rest : JavaString} (free : '/' ∉ first) :
    rewriteRequest (first ++ '/' :: rest) = first ++ ':' :: rest := by
  obtain ⟨taken, dropped⟩ := takeWhile_append_sep free rest
  simp only [rewriteRequest, taken, dropped]

/-- The request is answered with a permission of the table, or with the path in
which the second slash is a colon. -/
def answerTo (permissions : List Permission) (permissionsByPath : NameTable)
    (path pathExtra subPath : JavaString) : Except Failure ContentUri :=
  match permissionsByPath.lookup path with
  | some storedUri => .ok ⟨ANDROID_PROVIDER_AUTHORITY, storedUri.path ++ pathExtra⟩
  | none =>
      if permissions.any fun permission =>
          contains (replaceColonEscape permission.toText)
            (ANDROID_EXTERNAL_STORAGE_PREFIX ++ subPath) then
        .ok ⟨ANDROID_PROVIDER_AUTHORITY, treePath subPath⟩
      else .error .itemNotFound

theorem getUriByMappedPath_eq {permissions : List Permission} {permissionsByPath : NameTable}
    {first rest : JavaString} (free : '/' ∉ first) (more : rest ≠ []) :
    getUriByMappedPath permissions permissionsByPath ('/' :: first ++ '/' :: rest) =
      if 2 ≤ utf16Length rest then
        answerTo permissions permissionsByPath first ('/' :: rest) (first ++ ':' :: rest)
      else
        answerTo permissions permissionsByPath (first ++ '/' :: rest) []
          (first ++ ':' :: rest) := by
  have nonempty : first ++ '/' :: rest ≠ [] := by simp
  rw [List.cons_append, getUriByMappedPath, if_neg (by simp), if_neg nonempty,
    splitRequest_eq free more, rewriteRequest_eq free]
  by_cases two : 2 ≤ utf16Length rest
  · rw [if_pos two, if_pos two]
    rfl
  · rw [if_neg two, if_neg two]
    rfl

theorem path_append_eq_iff {storedUri uri : Permission} {extra child : JavaString} :
    (Except.ok ⟨ANDROID_PROVIDER_AUTHORITY, storedUri.path ++ extra⟩ :
      Except Failure ContentUri) = .ok ⟨ANDROID_PROVIDER_AUTHORITY, uri.path ++ child⟩ ↔
      storedUri.volume = uri.volume ∧
        joined storedUri.names ++ extra = joined uri.names ++ child := by
  rw [Except.ok.injEq, ContentUri.mk.injEq, Permission.path, Permission.path, treePath, treePath,
    List.append_assoc, List.append_assoc, List.append_cancel_left_eq, Permission.documentId,
    Permission.documentId, List.append_assoc, List.append_assoc, and_iff_right rfl]
  constructor
  · intro equal
    obtain ⟨volume, below⟩ :=
      append_sep_inj storedUri.volume.property.2.1 uri.volume.property.2.1 equal
    exact ⟨Subtype.ext volume, below⟩
  · rintro ⟨volume, below⟩
    rw [volume, List.cons_append, below]
    rfl

theorem treePath_eq_iff {first rest child : JavaString} (free : ':' ∉ first) {uri : Permission} :
    (Except.ok ⟨ANDROID_PROVIDER_AUTHORITY, treePath (first ++ ':' :: rest)⟩ :
      Except Failure ContentUri) = .ok ⟨ANDROID_PROVIDER_AUTHORITY, uri.path ++ child⟩ ↔
      first = uri.volume.val ∧ rest = joined uri.names ++ child := by
  rw [Except.ok.injEq, ContentUri.mk.injEq, Permission.path, treePath, treePath,
    List.append_assoc, List.append_cancel_left_eq, Permission.documentId, List.append_assoc,
    and_iff_right rfl]
  constructor
  · exact append_sep_inj free uri.volume.property.2.1
  · rintro ⟨volume, below⟩
    rw [volume, below]
    rfl

/-! ## The round trip of one name -/

theorem Named.colon_notMem {uri : Permission} {name : JavaString}
    (named : Named isExternalStorageRemovable uri name) : ':' ∉ name := by
  have plain := colon_notMem_plainName isExternalStorageRemovable uri
  rcases named with rfl | ⟨counter, rfl⟩
  · exact plain
  · rw [counted_eq_append, List.mem_append]
    exact not_or.mpr ⟨plain, notMem_counted_nil (by decide) (by decide) counter⟩

/-- The name of a volume has no slash. -/
theorem Named.slash_notMem {uri : Permission} {name : JavaString}
    (named : Named isExternalStorageRemovable uri name) (noNames : uri.names = []) :
    '/' ∉ name := by
  have plain : '/' ∉ plainName isExternalStorageRemovable uri := slash_notMem_plainName noNames
  rcases named with rfl | ⟨counter, rfl⟩
  · exact plain
  · rw [counted_eq_append, List.mem_append]
    exact not_or.mpr ⟨plain, notMem_counted_nil (by decide) (by decide) counter⟩

/-- The name of a permission below the root of a volume is the volume and a rest,
which is the path below the volume only in the plain name, and only without a
colon in it. -/
theorem Named.exists_rest {uri : Permission} {name : JavaString}
    (named : Named isExternalStorageRemovable uri name) (someNames : uri.names ≠ []) :
    ∃ rest, name = uri.volume.val ++ '/' :: rest ∧
      (rest = joined uri.names ↔
        name = plainName isExternalStorageRemovable uri ∧ ':' ∉ joined uri.names) := by
  have plain : plainName isExternalStorageRemovable uri =
      uri.volume.val ++ '/' :: normalizedRest uri := plainName_of_names someNames
  rcases named with rfl | ⟨counter, rfl⟩
  · refine ⟨normalizedRest uri, plain, ?_⟩
    constructor
    · intro same
      exact ⟨rfl, same ▸ colon_notMem_normalizedRest uri⟩
    · rintro ⟨-, free⟩
      exact normalizedRest_of_notMem free
  · refine ⟨counted (normalizedRest uri) counter, ?_, ?_⟩
    · rw [plain, counted_eq_append, counted_eq_append (normalizedRest uri), List.append_assoc,
        List.cons_append]
    · constructor
      · intro same
        have free : ':' ∉ counted (normalizedRest uri) counter := by
          rw [counted_eq_append, List.mem_append]
          exact not_or.mpr ⟨colon_notMem_normalizedRest uri,
            notMem_counted_nil (by decide) (by decide) counter⟩
        rw [same] at free
        rw [normalizedRest_of_notMem free, counted_eq_append] at same
        exact absurd (List.append_right_eq_self.mp same) (counted_nil_ne_nil counter)
      · rintro ⟨same, -⟩
        rw [counted_eq_append] at same
        exact absurd (List.append_right_eq_self.mp same) (counted_nil_ne_nil counter)

section

variable {permissions : List Permission} {permissionsByPath : NameTable} {uri : Permission}
  {name : JavaString} {child : ChildPath}

/-- The request for a child under the name of a permission is answered with the
tree path of the child. -/
def Returns (permissions : List Permission) (permissionsByPath : NameTable) (uri : Permission)
    (answer : JavaString) (child : ChildPath) : Prop :=
  getUriByMappedPath permissions permissionsByPath ('/' :: answer ++ joined child.val) =
    .ok ⟨ANDROID_PROVIDER_AUTHORITY, uri.path ++ '/' :: joined child.val⟩

theorem returns_eq (first rest : JavaString) :
    Returns permissions permissionsByPath uri (first ++ '/' :: rest ++ ['/']) child ↔
      getUriByMappedPath permissions permissionsByPath
        ('/' :: first ++ '/' :: (rest ++ '/' :: joined child.val)) =
          .ok ⟨ANDROID_PROVIDER_AUTHORITY, uri.path ++ '/' :: joined child.val⟩ := by
  simp [Returns]

/-- Under the name of a volume every child path of two code units or more is
found, and no other. -/
theorem returns_volume_iff (noNames : uri.names = [])
    (named : Named isExternalStorageRemovable uri name)
    (stored : permissionsByPath.lookup name = some uri) :
    Returns permissions permissionsByPath uri (name ++ ['/']) child ↔
      2 ≤ utf16Length (joined child.val) := by
  have request : '/' :: (name ++ ['/']) ++ joined child.val =
      '/' :: name ++ '/' :: joined child.val := by simp
  rw [Returns, request,
    getUriByMappedPath_eq (named.slash_notMem noNames) (joined_child_ne_nil child)]
  by_cases two : 2 ≤ utf16Length (joined child.val)
  · rw [if_pos two, answerTo, stored]
    simpa using two
  · rw [if_neg two]
    refine iff_of_false ?_ two
    unfold answerTo
    split
    next storedUri found =>
      intro answered
      obtain ⟨-, below⟩ := path_append_eq_iff.mp answered
      rw [List.append_nil, noNames] at below
      exact joined_ne_slash_cons storedUri.names _ below
    next absent =>
      split
      · intro answered
        obtain ⟨-, below⟩ := (treePath_eq_iff named.colon_notMem).mp answered
        rw [noNames] at below
        exact joined_ne_slash_cons child.val _ below
      · nofun

/-- Some permission is found in the text of the tree path. -/
def Granted (permissions : List Permission) (uri : Permission) (child : ChildPath) : Prop :=
  ∃ permission ∈ permissions, contains (replaceColonEscape permission.toText)
    (ANDROID_EXTERNAL_STORAGE_PREFIX ++ (uri.documentId ++ '/' :: joined child.val)) = true

/-- Under the name of a permission below the root of a volume a child is found
when the name is the plain one, no colon was lost in it, the volume is not the
name of a permission, and some permission is found in the text. -/
theorem returns_folder_iff (someNames : uri.names ≠ [])
    (named : Named isExternalStorageRemovable uri name)
    (entries : ∀ storedUri, permissionsByPath.lookup uri.volume.val = some storedUri →
      Named isExternalStorageRemovable storedUri uri.volume.val) :
    Returns permissions permissionsByPath uri (name ++ ['/']) child ↔
      (name = plainName isExternalStorageRemovable uri ∧ ':' ∉ joined uri.names) ∧
        permissionsByPath.lookup uri.volume.val = none ∧ Granted permissions uri child := by
  obtain ⟨rest, nameEq, restEq⟩ := named.exists_rest someNames
  have more : rest ++ '/' :: joined child.val ≠ [] := by simp
  have two : 2 ≤ utf16Length (rest ++ '/' :: joined child.val) := by
    have slash : utf16Length ('/' :: joined child.val) = 1 + utf16Length (joined child.val) :=
      utf16Length_cons '/' _
    have positive := utf16Length_pos (joined_child_ne_nil child)
    rw [utf16Length_append, slash]
    omega
  rw [← restEq, nameEq, returns_eq, getUriByMappedPath_eq uri.volume.property.2.2 more,
    if_pos two]
  unfold answerTo
  split
  next storedUri found =>
    have isVolume : storedUri.names = [] := by
      by_contra below
      obtain ⟨_, equal, -⟩ := (entries storedUri found).exists_rest below
      refine uri.volume.property.2.2 ?_
      rw [equal]
      exact List.mem_append_right _ List.mem_cons_self
    constructor
    · intro answered
      obtain ⟨-, below⟩ := path_append_eq_iff.mp answered
      obtain ⟨letter, letters, joinedEq⟩ :=
        List.exists_cons_of_ne_nil (joined_eq_nil_iff.not.mpr someNames)
      rw [isVolume, joinedEq] at below
      rw [← (List.cons.inj below).1] at joinedEq
      exact absurd joinedEq (joined_ne_slash_cons uri.names letters)
    · rintro ⟨-, absent, -⟩
      rw [found] at absent
      contradiction
  next absent =>
    by_cases same : rest = joined uri.names
    · have whole : uri.volume.val ++ ':' :: (rest ++ '/' :: joined child.val) =
          uri.documentId ++ '/' :: joined child.val := by
        rw [same, Permission.documentId, List.append_assoc, List.cons_append]
      rw [whole, Granted, and_iff_right same, and_iff_right absent, ← List.any_eq_true]
      split
      next granted =>
        refine iff_of_true ?_ granted
        rw [← whole, treePath_eq_iff uri.volume.property.2.1, same]
        exact ⟨rfl, rfl⟩
      next refused => exact iff_of_false nofun refused
    · refine iff_of_false ?_ fun found => same found.1
      split
      · intro answered
        obtain ⟨-, below⟩ := (treePath_eq_iff uri.volume.property.2.1).mp answered
        exact same (List.append_cancel_right below)
      · nofun

end

/-! ## The round trip of a permission -/

section

variable (isExternalStorageRemovable : Bool) (permissions calls : List Permission)
  (uri : Permission) (child : ChildPath)

/-- After the calls the permission shares its name with no other one, has been
given no second name, and leads to its child under it. -/
structure RoundTrips : Prop where
  distinct : ∀ other answer,
    (uri, answer) ∈ (nameAll isExternalStorageRemovable ∅ calls).1 →
    (other, answer) ∈ (nameAll isExternalStorageRemovable ∅ calls).1 → other = uri
  kept : ∀ answer other, (uri, answer) ∈ (nameAll isExternalStorageRemovable ∅ calls).1 →
    (uri, other) ∈ (nameAll isExternalStorageRemovable ∅ calls).1 → answer = other
  returns : ∀ answer, (uri, answer) ∈ (nameAll isExternalStorageRemovable ∅ calls).1 →
    Returns permissions (nameAll isExternalStorageRemovable ∅ calls).2 uri answer child

/-- A volume needs a child path of two code units and one name for all calls; a
permission below the root needs its plain name, which must not have lost a
colon, a volume that is no name, and a permission found in the text. -/
def Served : Prop :=
  (uri.names = [] →
    (PlainNameFree isExternalStorageRemovable calls uri ∨ calls.count uri ≤ 1) ∧
      2 ≤ utf16Length (joined child.val)) ∧
  (uri.names ≠ [] →
    PlainNameFree isExternalStorageRemovable calls uri ∧ ':' ∉ joined uri.names ∧
      (nameAll isExternalStorageRemovable ∅ calls).2.lookup uri.volume.val = none ∧
      Granted permissions uri child)

end

theorem distinct_given {calls : List Permission} {uri other : Permission} {answer : JavaString}
    (given : (uri, answer) ∈ (nameAll isExternalStorageRemovable ∅ calls).1)
    (givenOther : (other, answer) ∈ (nameAll isExternalStorageRemovable ∅ calls).1) :
    other = uri := by
  obtain ⟨name, answerEq, -, stored⟩ := given_nameAll given
  obtain ⟨otherName, otherEq, -, otherStored⟩ := given_nameAll givenOther
  rw [← List.append_cancel_right (otherEq.symm.trans answerEq), otherStored] at stored
  exact Option.some.inj stored

theorem named_entries (isExternalStorageRemovable : Bool) {calls : List Permission}
    {name : JavaString} {storedUri : Permission}
    (found : (nameAll isExternalStorageRemovable ∅ calls).2.lookup name = some storedUri) :
    Named isExternalStorageRemovable storedUri name := by
  rcases lookup_nameAll found with before | ⟨-, named⟩
  · contradiction
  · exact named

/-- A permission that has been called makes the round trip exactly when it is
served. -/
theorem roundTrips_iff_served {permissions calls : List Permission} {uri : Permission}
    {child : ChildPath} (called : uri ∈ calls) :
    RoundTrips isExternalStorageRemovable permissions calls uri child ↔
      Served isExternalStorageRemovable permissions calls uri child := by
  obtain ⟨first, givenFirst⟩ := exists_given isExternalStorageRemovable called ∅
  by_cases volume : uri.names = []
  · have returnsIff : ∀ {answer},
        (uri, answer) ∈ (nameAll isExternalStorageRemovable ∅ calls).1 →
        (Returns permissions (nameAll isExternalStorageRemovable ∅ calls).2 uri answer child ↔
          2 ≤ utf16Length (joined child.val)) := by
      intro answer given
      obtain ⟨name, rfl, named, stored⟩ := given_nameAll given
      exact returns_volume_iff volume named stored
    constructor
    · intro trip
      refine ⟨fun _ => ⟨(kept_iff called).mp trip.kept, ?_⟩, fun below => absurd volume below⟩
      exact (returnsIff givenFirst).mp (trip.returns _ givenFirst)
    · rintro ⟨served, -⟩
      obtain ⟨keeps, two⟩ := served volume
      exact ⟨fun _ _ given givenOther => distinct_given given givenOther,
        (kept_iff called).mpr keeps, fun _ given => (returnsIff given).mpr two⟩
  · have returnsIff : ∀ {name},
        (uri, name ++ ['/']) ∈ (nameAll isExternalStorageRemovable ∅ calls).1 →
        (Returns permissions (nameAll isExternalStorageRemovable ∅ calls).2 uri
          (name ++ ['/']) child ↔
          (name = plainName isExternalStorageRemovable uri ∧ ':' ∉ joined uri.names) ∧
            (nameAll isExternalStorageRemovable ∅ calls).2.lookup uri.volume.val = none ∧
            Granted permissions uri child) := by
      intro name given
      obtain ⟨found, same, named, -⟩ := given_nameAll given
      obtain rfl := List.append_cancel_right same
      exact returns_folder_iff volume named fun _ => named_entries _
    constructor
    · intro trip
      obtain ⟨⟨plain, noColon⟩, absent, granted⟩ :=
        (returnsIff givenFirst).mp (trip.returns _ givenFirst)
      refine ⟨fun root => absurd root volume, fun _ => ⟨?_, noColon, absent, granted⟩⟩
      by_contra taken
      obtain ⟨counter, counts⟩ := given_of_not_free taken givenFirst
      rw [plain, counted_eq_append, List.self_eq_append_right] at counts
      exact counted_nil_ne_nil counter counts
    · rintro ⟨-, served⟩
      obtain ⟨free, noColon, absent, granted⟩ := served volume
      refine ⟨fun _ _ given givenOther => distinct_given given givenOther,
        (kept_iff called).mpr (.inl free), fun answer given => ?_⟩
      obtain rfl := given_of_free free given
      exact (returnsIff given).mpr ⟨⟨rfl, noColon⟩, absent, granted⟩

/-- For every list of permissions, every list of calls, every permission and
every child path: the mapped paths make the round trip exactly when the
permission was never called or is served. -/
theorem mapped_paths_round_trip (isExternalStorageRemovable : Bool)
    (permissions calls : List Permission) (uri : Permission) (child : ChildPath) :
    RoundTrips isExternalStorageRemovable permissions calls uri child ↔
      (uri ∈ calls → Served isExternalStorageRemovable permissions calls uri child) := by
  by_cases called : uri ∈ calls
  · rw [roundTrips_iff_served called]
    exact ⟨fun served _ => served, fun served => served called⟩
  · refine iff_of_true ?_ fun now => absurd now called
    constructor
    · exact fun _ _ given => absurd (called_of_given given) called
    · exact fun _ _ given => absurd (called_of_given given) called
    · exact fun _ given => absurd (called_of_given given) called

/-- The permission for the whole internal storage. -/
def internalStorage : Permission where
  volume := primaryVolume
  names := []

/-- A child with a name of one letter is not found. -/
theorem oneLetterChild_not_found :
    ¬RoundTrips false [internalStorage] [internalStorage] internalStorage
      ⟨[⟨text "a", by decide⟩], by simp⟩ := by
  rw [roundTrips_iff_served List.mem_cons_self]
  intro served
  exact absurd (served.1 rfl).2 (by decide)

end RoundSync.Safdav
