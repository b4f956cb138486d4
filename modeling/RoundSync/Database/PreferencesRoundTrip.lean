import RoundSync.Data.BinaryFloats
import RoundSync.Database.BackupRuns
import RoundSync.Database.PreferencesBackup

/-!
# The round trip of the preferences

A float is written as a double and narrowed when it is read.  With a library that
keeps what it prints, every exported map of preferences comes back as it was,
whatever the preferences were before the import.
-/

namespace RoundSync.Database

open RoundSync.Data
open RoundSync.Text

/-- The JSON library, with its numbers as doubles. -/
structure DoubleLibrary extends JsonLibrary where
  /-- the conversion of `getBoolean` -/
  toBoolean : Json → Option Bool
  /-- the conversion of `getLong` -/
  toLong : Json → Option Int64
  /-- the conversion of `getString` -/
  toText : Json → Option JavaString
  /-- the conversion of `getDouble` -/
  toDouble : Json → Option Double
  /-- the number that is put for a double, if it is finite -/
  ofDouble : Double → Option Json
  /-- `Integer.parseInt` -/
  parseInt : JavaString → Option Int32
  /-- `Number.intValue` of a JSON number -/
  intValue : Json → Int32

/-- The code widens a float before it is put, and narrows the double that it gets. -/
def DoubleLibrary.preferences (library : DoubleLibrary) : PreferencesLibrary where
  toJsonLibrary := library.toJsonLibrary
  toBoolean := library.toBoolean
  toLong := library.toLong
  toText := library.toText
  toFloat value := (library.toDouble value).map fun double => (narrow double).toBits
  ofFloat bits := library.ofDouble (widen (Single.ofBits bits))
  parseInt := library.parseInt
  intValue := library.intValue

namespace SharedPreferencesBackup

/-- No value is an infinity or a NaN. -/
def FiniteFloats (preferences : Preferences) : Prop :=
  ∀ key bits, preferences.lookup key = some (.float bits) → (Single.ofBits bits).Finite

/-- The library keeps the document of these preferences, integers, strings and the
finite doubles of the floats. -/
structure Keeps (library : DoubleLibrary) (preferences : Preferences) : Prop where
  parse_print : ∀ root, document library.preferences preferences = .ok root →
    library.parse (library.print root) = .ok root
  conversions : Conversions library.preferences
  double : ∀ key bits, preferences.lookup key = some (.float bits) →
    (widen (Single.ofBits bits)).Finite →
      ∃ number, library.ofDouble (widen (Single.ofBits bits)) = some number ∧
        library.toDouble number = some (widen (Single.ofBits bits))

variable {library : DoubleLibrary} {preferences : Preferences}

theorem lookup_of_mem {entry : Σ _ : String, PreferenceValue} (mem : entry ∈ preferences.entries) :
    preferences.lookup entry.1 = some entry.2 :=
  AList.mem_lookup_iff.mpr mem

/-- The number of a float and what is read for it. -/
theorem exists_number (finite : FiniteFloats preferences) (keeps : Keeps library preferences)
    {key : String} {bits : UInt32} (found : preferences.lookup key = some (.float bits)) :
    ∃ number, library.preferences.ofFloat bits = some number ∧
      library.preferences.toFloat number = some bits := by
  have isFinite := finite key bits found
  obtain ⟨number, written, read⟩ := keeps.double key bits found (finite_widen isFinite)
  refine ⟨number, written, ?_⟩
  simp only [DoubleLibrary.preferences, read, Option.map_some]
  rw [narrow_widen isFinite, Single.toBits_ofBits]

theorem readsFloat (finite : FiniteFloats preferences) (keeps : Keeps library preferences)
    {entry : Σ _ : String, PreferenceValue} (mem : entry ∈ preferences.entries) :
    ReadsFloat library.preferences id entry.2 := by
  intro bits number isFloat written
  have found := lookup_of_mem mem
  rw [isFloat] at found
  obtain ⟨expected, isNumber, read⟩ := exists_number finite keeps found
  rw [isNumber, Option.some.injEq] at written
  rw [← written]
  exact read

/-- Every value can be written. -/
theorem exists_encoded (finite : FiniteFloats preferences) (keeps : Keeps library preferences)
    {entry : Σ _ : String, PreferenceValue} (mem : entry ∈ preferences.entries) :
    ∃ field, encodeEntry library.preferences entry = .ok field := by
  have found := lookup_of_mem mem
  obtain ⟨key, value⟩ := entry
  cases value with
  | float bits =>
      obtain ⟨number, isNumber, _⟩ := exists_number finite keeps found
      refine ⟨(key, .object (encoded "float" number)), ?_⟩
      simp only [encodeEntry, encodeValue, isNumber]
      rfl
  | boolean value => exact ⟨_, rfl⟩
  | int value => exact ⟨_, rfl⟩
  | long value => exact ⟨_, rfl⟩
  | string value => exact ⟨_, rfl⟩
  | stringSet value => exact ⟨_, rfl⟩

theorem exists_values {entries : List (Σ _ : String, PreferenceValue)}
    (each : ∀ entry ∈ entries, ∃ field, encodeEntry library.preferences entry = .ok field) :
    ∃ values, entries.mapM (encodeEntry library.preferences) = .ok values := by
  induction entries with
  | nil => exact ⟨[], rfl⟩
  | cons entry entries inductionHypothesis =>
      obtain ⟨field, first⟩ := each entry List.mem_cons_self
      obtain ⟨fields, rest⟩ :=
        inductionHypothesis fun other mem => each other (List.mem_cons_of_mem entry mem)
      refine ⟨field :: fields, ?_⟩
      rw [List.mapM_cons, first, rest]
      rfl

theorem changed_id : changed id = id := by
  funext value
  cases value <;> rfl

/-- An exported map is left by its import over any other preferences. -/
theorem importJson_leaves_exported (library : DoubleLibrary) (preferences : Preferences)
    (finite : FiniteFloats preferences) (keeps : Keeps library preferences)
    (previous : Preferences) :
    ∃ content restored, exportJson library.preferences preferences = .ok content ∧
      importJson library.preferences content previous = (.ok (), restored) ∧
      ∀ key, restored.lookup key = preferences.lookup key := by
  obtain ⟨values, written⟩ := exists_values fun _ mem => exists_encoded finite keeps mem
  have exported : exportJson library.preferences preferences =
      .ok (library.print [("schemaVersion", .number 2), ("preferences", .object values)]) := by
    rw [exportJson, document, written]
    rfl
  obtain ⟨restored, accepted, lookups⟩ := importJson_changed keeps.conversions keeps.parse_print
    (fun _ mem => readsFloat finite keeps mem) exported previous
  refine ⟨_, restored, exported, accepted, fun key => ?_⟩
  rw [lookups, changed_id, Option.map_id]
  rfl

/-! ## A preference of each type -/

def oneAndAHalf : UInt32 := 0x3FC00000

def sampleEntries : List (Σ _ : String, PreferenceValue) :=
  [⟨"wifi", .boolean true⟩, ⟨"port", .int (-1)⟩, ⟨"bytes", .long 5000000000⟩,
    ⟨"speed", .float oneAndAHalf⟩, ⟨"host", .string (text "proxy")⟩,
    ⟨"remotes", .stringSet ⟨[text "a", text "b"], by decide⟩⟩]

def samplePreferences : Preferences :=
  ⟨sampleEntries, show (sampleEntries.map Sigma.fst).Nodup by decide⟩

def sampleDocument : Fields :=
  [("schemaVersion", .number 2), ("preferences", .object
    [("wifi", .object (encoded "boolean" (.bool true))),
      ("port", .object (encoded "int" (.number (-1)))),
      ("bytes", .object (encoded "long" (.number 5000000000))),
      ("speed", .object (encoded "float" (.decimal (text "1.5")))),
      ("host", .object (encoded "string" (.string (text "proxy")))),
      ("remotes", .object (encoded "string_set"
        (.array [.string (text "a"), .string (text "b")])))])]

def sampleLibrary : DoubleLibrary where
  toJsonLibrary := plainJson [sampleDocument]
  toBoolean
    | .bool value => some value
    | _ => none
  toLong
    | .number n => some (Int64.ofInt n)
    | _ => none
  toText
    | .string value => some value
    | _ => none
  toDouble
    | .decimal literal =>
        if literal = text "1.5" then some (widen (Single.ofBits oneAndAHalf)) else none
    | _ => none
  ofDouble double :=
    if double = widen (Single.ofBits oneAndAHalf) then some (.decimal (text "1.5")) else none
  parseInt _ := none
  intValue _ := 0

theorem document_sample :
    document sampleLibrary.preferences samplePreferences = .ok sampleDocument := by
  rfl

theorem float_sample {key : String} {bits : UInt32}
    (found : samplePreferences.lookup key = some (.float bits)) : bits = oneAndAHalf := by
  have mem : (⟨key, .float bits⟩ : Σ _ : String, PreferenceValue) ∈ sampleEntries :=
    AList.mem_lookup_iff.mp found
  simp [sampleEntries] at mem
  exact mem.2

theorem keeps_sample : Keeps sampleLibrary samplePreferences := by
  constructor
  · intro root isDocument
    rw [document_sample] at isDocument
    cases isDocument
    simp [sampleLibrary, plainJson]
  · constructor
    · intro n
      simp [sampleLibrary, DoubleLibrary.preferences, plainJson]
    · intro n
      simp [sampleLibrary, DoubleLibrary.preferences]
    · exact fun _ => rfl
    · exact fun _ => rfl
  · intro key bits found _
    rw [float_sample found]
    exact ⟨.decimal (text "1.5"), rfl, rfl⟩

theorem sample_leaves_exported :
    ∃ content restored,
      exportJson sampleLibrary.preferences samplePreferences = .ok content ∧
      importJson sampleLibrary.preferences content
        (AList.insert "retired" (.boolean true) ∅) = (.ok (), restored) ∧
      ∀ key, restored.lookup key = samplePreferences.lookup key := by
  apply importJson_leaves_exported sampleLibrary samplePreferences
  · intro key bits found
    rw [float_sample found]
    simp [Binary.Finite, Single.ofBits, oneAndAHalf]
  · exact keeps_sample

end SharedPreferencesBackup

end RoundSync.Database
