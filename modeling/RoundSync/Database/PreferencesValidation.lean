import RoundSync.Transition.Effect
import RoundSync.Database.PreferencesRoundTrip

/-!
# What the validator of the preferences promises

`validateJson` walks through the document as the import does, but it reads only the
values that are sets.  A document that it accepts is imported exactly when every
other value can be converted to its type; a backup of the older form always is.
-/

namespace RoundSync.Database.SharedPreferencesBackup

open RoundSync.Text
open RoundSync.Transition

/-! ## Results that are not errors -/

section

universe u v

variable {ε α β : Type u} {γ : Type v}

def Succeeds (result : Except ε α) : Prop :=
  ∃ value, result = .ok value

theorem succeeds_bind_iff {result : Except ε α} {next : α → Except ε β} :
    Succeeds (result >>= next) ↔ ∃ value, result = .ok value ∧ Succeeds (next value) := by
  constructor
  · rintro ⟨last, isOk⟩
    obtain ⟨value, first, rest⟩ := exists_of_bind_eq_ok isOk
    exact ⟨value, first, last, rest⟩
  · rintro ⟨value, rfl, last, rest⟩
    exact ⟨last, rest⟩

theorem Succeeds.bind {result : Except ε α} {next : α → Except ε β} (first : Succeeds result)
    (rest : ∀ value, Succeeds (next value)) : Succeeds (result >>= next) := by
  obtain ⟨value, isOk⟩ := first
  exact succeeds_bind_iff.mpr ⟨value, isOk, rest value⟩

theorem succeeds_map_iff {result : Except ε α} {change : α → β} :
    Succeeds (result.map change) ↔ Succeeds result := by
  cases result with
  | error error => exact iff_of_false (nomatch ·) (nomatch ·)
  | ok value => exact iff_of_true ⟨_, rfl⟩ ⟨_, rfl⟩

/-- A loop comes to its end when it succeeds on each item, whatever of its invariant it
has reached. -/
theorem succeeds_foldlM_iff (Inv : α → Prop) {step : α → γ → Except ε α} {Works : γ → Prop}
    (works : ∀ state item, Inv state → (Succeeds (step state item) ↔ Works item))
    (keeps : ∀ state item next, Inv state → step state item = .ok next → Inv next)
    (items : List γ) (state : α) (holds : Inv state) :
    Succeeds (items.foldlM step state) ↔ ∀ item ∈ items, Works item := by
  induction items generalizing state with
  | nil => exact iff_of_true ⟨state, rfl⟩ nofun
  | cons item items inductionHypothesis =>
      rw [List.foldlM_cons, succeeds_bind_iff, List.forall_mem_cons, ← works state item holds]
      constructor
      · rintro ⟨next, first, rest⟩
        exact ⟨⟨next, first⟩,
          (inductionHypothesis next (keeps state item next holds first)).mp rest⟩
      · rintro ⟨⟨next, first⟩, rest⟩
        exact ⟨next, first,
          (inductionHypothesis next (keeps state item next holds first)).mpr rest⟩

theorem succeeds_of_forM {check : γ → Except ε PUnit} {items : List γ}
    (checked : Succeeds (items.forM check)) : ∀ item ∈ items, Succeeds (check item) := by
  induction items with
  | nil => exact nofun
  | cons item items inductionHypothesis =>
      change Succeeds (check item >>= fun _ => items.forM check) at checked
      rw [succeeds_bind_iff] at checked
      obtain ⟨value, first, rest⟩ := checked
      exact List.forall_mem_cons.mpr ⟨⟨value, first⟩, inductionHypothesis rest⟩

end

/-! ## Entries of the current schema -/

variable {json : PreferencesLibrary} {content : JavaString}

/-- The value of an entry can be converted to its type, unless it is a set. -/
def Converts (json : PreferencesLibrary) (encoded : Fields) (type : JavaString) : Prop :=
  if type = text "boolean" then Succeeds (getAs json.toBoolean encoded "value")
  else if type = text "int" then Succeeds (json.getInt encoded "value")
  else if type = text "long" then Succeeds (getAs json.toLong encoded "value")
  else if type = text "float" then Succeeds (getAs json.toFloat encoded "value")
  else if type = text "string" then Succeeds (getAs json.toText encoded "value")
  else True

/-- What the validator looks at. -/
def Shaped (json : PreferencesLibrary) (field : String × Json) : Prop :=
  Succeeds (decodeField json none field)

/-- The entry of a field can be converted, if it has a type at all. -/
def FieldConverts (json : PreferencesLibrary) (field : String × Json) : Prop :=
  ∀ encoded type, field.2.asObject = .ok encoded → getAs json.toText encoded "type" = .ok type →
    Converts json encoded type

theorem succeeds_put_none (key : String) (value : Except JsonError PreferenceValue) :
    Succeeds (put none key value) :=
  ⟨none, rfl⟩

/-- Only the import converts the value. -/
theorem succeeds_put_iff {α : Type} {editor : Preferences} {key : String}
    {result : Except JsonError α} {make : α → PreferenceValue} :
    Succeeds (put (some editor) key (result.map make)) ↔
      Succeeds (put none key (result.map make)) ∧ Succeeds result := by
  rw [and_iff_right (succeeds_put_none key _), put, succeeds_map_iff, succeeds_map_iff]

/-- The import reads what the validator reads, and the value. -/
theorem succeeds_decodeValue_iff (editor : Preferences) (key : String) (encoded : Fields)
    (type : JavaString) :
    Succeeds (decodeValue json (some editor) key encoded type) ↔
      Succeeds (decodeValue json none key encoded type) ∧ Converts json encoded type := by
  unfold decodeValue Converts
  split_ifs
  · exact succeeds_put_iff
  · exact succeeds_put_iff
  · exact succeeds_put_iff
  · exact succeeds_put_iff
  · exact succeeds_put_iff
  · rw [and_true, succeeds_bind_iff, succeeds_bind_iff]
    exact exists_congr fun set => and_congr_right fun _ =>
      iff_of_true ⟨_, rfl⟩ (succeeds_put_none key _)
  · rw [and_true]

theorem succeeds_decodeField_iff (editor : Preferences) (field : String × Json) :
    Succeeds (decodeField json (some editor) field) ↔
      Shaped json field ∧ FieldConverts json field := by
  unfold Shaped FieldConverts decodeField
  simp only [succeeds_bind_iff, succeeds_decodeValue_iff]
  constructor
  · rintro ⟨encoded, isObject, type, isType, shaped, converts⟩
    refine ⟨⟨encoded, isObject, type, isType, shaped⟩, ?_⟩
    intro other otherType isOther isOtherType
    rw [isObject] at isOther
    cases isOther
    rw [isType] at isOtherType
    cases isOtherType
    exact converts
  · rintro ⟨⟨encoded, isObject, type, isType, shaped⟩, converts⟩
    exact ⟨encoded, isObject, type, isType, shaped, converts encoded type isObject isType⟩

/-- An editor stays an editor. -/
theorem isSome_put {editor next : Option Preferences} {key : String}
    {value : Except JsonError PreferenceValue} (stored : put editor key value = .ok next) :
    next.isSome = editor.isSome := by
  cases editor with
  | none =>
      cases stored
      rfl
  | some editor =>
      cases value with
      | error error => cases stored
      | ok value =>
          cases stored
          rfl

theorem isSome_decodeField {editor next : Option Preferences} {field : String × Json}
    (decoded : decodeField json editor field = .ok next) : next.isSome = editor.isSome := by
  obtain ⟨encoded, _, rest⟩ := exists_of_bind_eq_ok decoded
  obtain ⟨type, _, stored⟩ := exists_of_bind_eq_ok rest
  unfold decodeValue at stored
  split_ifs at stored
  · exact isSome_put stored
  · exact isSome_put stored
  · exact isSome_put stored
  · exact isSome_put stored
  · exact isSome_put stored
  · obtain ⟨set, _, stored⟩ := exists_of_bind_eq_ok stored
    exact isSome_put stored

theorem succeeds_validated_iff (values : Fields) :
    Succeeds (decodeIntoEditor json values none) ↔ ∀ field ∈ values, Shaped json field := by
  apply succeeds_foldlM_iff (· = none)
  · rintro _ field rfl
    exact Iff.rfl
  · rintro _ field next rfl decoded
    simpa using isSome_decodeField decoded
  · rfl

theorem succeeds_imported_iff (values : Fields) (editor : Preferences) :
    Succeeds (decodeIntoEditor json values (some editor)) ↔
      ∀ field ∈ values, Shaped json field ∧ FieldConverts json field := by
  apply succeeds_foldlM_iff fun editor => editor.isSome = true
  · intro state field isSome
    obtain ⟨editor, rfl⟩ := Option.isSome_iff_exists.mp isSome
    exact succeeds_decodeField_iff editor field
  · intro state field next isSome decoded
    rw [isSome_decodeField decoded, isSome]
  · rfl

/-! ## Backups of the older form -/

/-- What was checked can be put. -/
theorem succeeds_putIfPresent {α : Type} {convert : Json → Option α} {root : Fields} {name : String}
    (checked : Succeeds (checkIfPresent convert root name)) (make : α → PreferenceValue)
    (preferenceKey : String) (editor : Preferences) :
    Succeeds (putIfPresent root name convert make preferenceKey editor) := by
  unfold checkIfPresent at checked
  unfold putIfPresent
  split
  · rename_i isThere
    rw [if_pos isThere, succeeds_map_iff] at checked
    exact succeeds_map_iff.mpr checked
  · exact ⟨editor, rfl⟩

theorem succeeds_importLegacy {root : Fields} (validated : Succeeds (validateLegacy json root))
    (editor : Preferences) : Succeeds (importLegacy json root editor) := by
  simp only [validateLegacy, succeeds_bind_iff] at validated
  obtain ⟨_, booleans, _, strings, _, port, theme, isTheme, _⟩ := validated
  have boolean := succeeds_of_forM ⟨_, booleans⟩
  have string := succeeds_of_forM ⟨_, strings⟩
  unfold importLegacy putBooleanIfPresent putStringIfPresent putIntIfPresent
  refine (succeeds_putIfPresent (boolean _ (by simp)) _ _ _).bind fun _ => ?_
  refine (succeeds_putIfPresent (boolean _ (by simp)) _ _ _).bind fun _ => ?_
  refine (succeeds_putIfPresent (boolean _ (by simp)) _ _ _).bind fun _ => ?_
  refine (succeeds_putIfPresent (string _ (by simp)) _ _ _).bind fun _ => ?_
  refine (succeeds_putIfPresent (string _ (by simp)) _ _ _).bind fun _ => ?_
  refine (succeeds_putIfPresent ⟨_, port⟩ _ _ _).bind fun _ => ?_
  refine (succeeds_putIfPresent (string _ (by simp)) _ _ _).bind fun _ => ?_
  refine (succeeds_putIfPresent (string _ (by simp)) _ _ _).bind fun _ => ?_
  refine (succeeds_putIfPresent (boolean _ (by simp)) _ _ _).bind fun _ => ?_
  refine (succeeds_putIfPresent (boolean _ (by simp)) _ _ _).bind fun _ => ?_
  refine (succeeds_putIfPresent (boolean _ (by simp)) _ _ _).bind fun _ => ?_
  refine (succeeds_putIfPresent (boolean _ (by simp)) _ _ _).bind fun _ => ?_
  refine (succeeds_putIfPresent (boolean _ (by simp)) _ _ _).bind fun _ => ?_
  refine Succeeds.bind ⟨theme, isTheme⟩ fun _ => ?_
  refine (succeeds_putIfPresent (boolean _ (by simp)) _ _ _).bind fun _ => ?_
  refine (succeeds_putIfPresent (boolean _ (by simp)) _ _ _).bind fun _ => ?_
  exact succeeds_putIfPresent (boolean _ (by simp)) _ _ _

/-! ## Accepted documents -/

/-- Every value of a document of the current schema can be converted to its type. -/
def ValuesConvert (json : PreferencesLibrary) (content : JavaString) : Prop :=
  ∀ root values, json.parse content = .ok root → getJSONObject root "preferences" = .ok values →
    ∀ field ∈ values, FieldConverts json field

theorem importJson_iff_succeeds (preferences : Preferences) :
    (∃ restored, importJson json content preferences = (.ok (), restored)) ↔
      Succeeds (imported json content preferences) := by
  unfold importJson
  cases imported json content preferences with
  | error error => simp [Succeeds]
  | ok restored => simp [Succeeds]

/-- A document that the validator accepts is imported exactly when its values can be
converted. -/
theorem validated_imports_iff (accepted : validateJson json content = .ok ())
    (preferences : Preferences) :
    (∃ restored, importJson json content preferences = (.ok (), restored)) ↔
      ValuesConvert json content := by
  rw [importJson_iff_succeeds]
  have validated : Succeeds (validateJson json content) := ⟨(), accepted⟩
  rw [validateJson, succeeds_bind_iff] at validated
  obtain ⟨root, parsed, validated⟩ := validated
  unfold imported ValuesConvert
  rw [parsed, succeeds_bind_iff]
  by_cases current : has root "preferences"
  · rw [if_pos current] at validated
    simp only [succeeds_bind_iff] at validated
    obtain ⟨schema, isSchema, values, found, editor, decoded, _⟩ := validated
    have shaped := (succeeds_validated_iff values).mp ⟨editor, decoded⟩
    constructor
    · rintro ⟨other, isRoot, imported⟩
      cases isRoot
      simp only [if_pos current, succeeds_bind_iff] at imported
      obtain ⟨_, _, read, isRead, result, imports, _⟩ := imported
      rintro _ _ ⟨⟩ isValues field mem
      rw [isValues] at isRead
      cases isRead
      exact (((succeeds_imported_iff _ ∅).mp ⟨result, imports⟩) field mem).2
    · intro converts
      refine ⟨root, rfl, ?_⟩
      simp only [if_pos current, succeeds_bind_iff]
      obtain ⟨result, imports⟩ := (succeeds_imported_iff values ∅).mpr fun field mem =>
        ⟨shaped field mem, converts root values rfl found field mem⟩
      exact ⟨schema, isSchema, values, found, result, imports, ⟨_, rfl⟩⟩
  · rw [if_neg current] at validated
    apply iff_of_true
    · refine ⟨root, rfl, ?_⟩
      rw [if_neg current]
      exact succeeds_importLegacy validated preferences
    · rintro _ values ⟨⟩ found
      exfalso
      apply current
      unfold getJSONObject at found
      unfold has
      split at found
      · rename_i isThere
        rw [isThere]
        rfl
      · cases found

/-! ## Two documents of one preference -/

def portDocument (value : Json) : Fields :=
  [("schemaVersion", .number 2),
    ("preferences", .object [("port", .object (encoded "int" value))])]

/-- A library that knows the two documents; neither a word nor what is absent is an
integer. -/
def portLibrary : PreferencesLibrary :=
  { sampleLibrary.preferences with
    toJsonLibrary := plainJson [portDocument (.number 8080), portDocument (.string (text "abc"))] }

theorem number_imports :
    ∃ restored, importJson portLibrary (portLibrary.print (portDocument (.number 8080))) ∅ =
      (.ok (), restored) := by
  refine (validated_imports_iff (by rfl) ∅).mpr ?_
  intro root values isRoot isValues field mem encoded type isEncoded isType
  cases isRoot
  cases isValues
  rw [List.mem_singleton] at mem
  subst mem
  cases isEncoded
  cases isType
  simp [Converts, text, Succeeds, JsonLibrary.getInt, Json.get?, portLibrary, plainJson,
    SharedPreferencesBackup.encoded]

/-- A word in the place of an integer passes the validator, and the import throws. -/
theorem word_validated_not_imported :
    validateJson portLibrary (portLibrary.print (portDocument (.string (text "abc")))) = .ok () ∧
      ¬∃ restored, importJson portLibrary
        (portLibrary.print (portDocument (.string (text "abc")))) ∅ = (.ok (), restored) := by
  constructor
  · rfl
  · rintro ⟨restored, imports⟩
    cases imports

end RoundSync.Database.SharedPreferencesBackup
