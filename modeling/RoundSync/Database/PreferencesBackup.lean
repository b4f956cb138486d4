import RoundSync.Data.Table
import RoundSync.Database.TaskBackup
import Mathlib.Data.List.Nodup

/-!
# Backups of the preferences

`SharedPreferencesBackup`: every value is written with its type, and a backup of
this form replaces all preferences; a backup of the older form sets those that it
names.  The validator does not read the values themselves, so a validated backup
can still be refused when it is imported.  A float is kept by its bits; JSON has no
negative zero for it and no text for what is not finite.
-/

namespace RoundSync.Database

open RoundSync.Data
open RoundSync.Text

/-! ## Values -/

/-- A set of strings in the order in which they were added. -/
structure StringSet where
  items : List JavaString
  distinct : items.Nodup
  deriving DecidableEq

namespace StringSet

def empty : StringSet :=
  ⟨[], List.nodup_nil⟩

def add (set : StringSet) (item : JavaString) : StringSet :=
  if fresh : item ∈ set.items then set
  else ⟨set.items ++ [item], List.nodup_append.mpr ⟨set.distinct, List.nodup_singleton item,
    fun other member last isLast => by
      rintro rfl
      exact fresh (List.mem_singleton.mp isLast ▸ member)⟩⟩

theorem foldl_add {front rest : List JavaString} (distinct : (front ++ rest).Nodup) :
    rest.foldl add ⟨front, (List.nodup_append.mp distinct).1⟩ = ⟨front ++ rest, distinct⟩ := by
  induction rest generalizing front with
  | nil => simp
  | cons item rest ih =>
      have fresh : item ∉ front := by
        intro member
        exact (List.nodup_append.mp distinct).2.2 item member item List.mem_cons_self rfl
      have split : front ++ item :: rest = (front ++ [item]) ++ rest := by simp
      have added : add ⟨front, (List.nodup_append.mp distinct).1⟩ item =
          ⟨front ++ [item], (List.nodup_append.mp (split ▸ distinct)).1⟩ := by
        rw [add, dif_neg fresh]
      rw [List.foldl_cons, added, ih (split ▸ distinct)]
      simp only [split]

/-- A set is built again from its strings. -/
theorem foldl_add_items (set : StringSet) : set.items.foldl add empty = set :=
  @foldl_add [] set.items set.distinct

end StringSet

inductive PreferenceValue where
  | boolean (value : Bool)
  | int (value : Int32)
  | long (value : Int64)
  | float (bits : UInt32)
  | string (value : JavaString)
  | stringSet (value : StringSet)
  deriving DecidableEq

abbrev Preferences := Table String PreferenceValue

/-- The conversions of the JSON library that the preferences use. -/
structure PreferencesLibrary extends JsonLibrary where
  /-- the conversion of `getBoolean` -/
  toBoolean : Json → Option Bool
  /-- the conversion of `getLong` -/
  toLong : Json → Option Int64
  /-- the conversion of `getString` -/
  toText : Json → Option JavaString
  /-- the conversion of `getDouble`, narrowed to a float -/
  toFloat : Json → Option UInt32
  /-- the number that is put for a float, if it is finite -/
  ofFloat : UInt32 → Option Json
  /-- `Integer.parseInt` -/
  parseInt : JavaString → Option Int32
  /-- `Number.intValue` of a JSON number -/
  intValue : Json → Int32

namespace SharedPreferencesBackup

variable (json : PreferencesLibrary)

/-- A field through one of the library's conversions. -/
def getAs {α : Type} (convert : Json → Option α) (fields : Fields) (name : String) :
    Except JsonError α :=
  match (Json.get? fields name).bind convert with
  | some value => .ok value
  | none => .error .library

def getJSONObject (fields : Fields) (name : String) : Except JsonError Fields :=
  match Json.get? fields name with
  | some (.object fields) => .ok fields
  | _ => .error .library

def has (fields : Fields) (name : String) : Bool :=
  (Json.get? fields name).isSome

/-! ## Writing -/

def encoded (type : String) (value : Json) : Fields :=
  [("type", .string (text type)), ("value", value)]

def encodeValue : PreferenceValue → Except JsonError Fields
  | .boolean value => .ok (encoded "boolean" (.bool value))
  | .int value => .ok (encoded "int" (.number value.toInt))
  | .long value => .ok (encoded "long" (.number value.toInt))
  | .float bits =>
      match json.ofFloat bits with
      | some number => .ok (encoded "float" number)
      | none => .error .library
  | .string value => .ok (encoded "string" (.string value))
  | .stringSet value => .ok (encoded "string_set" (.array (value.items.map .string)))

def encodeEntry (entry : Σ _ : String, PreferenceValue) : Except JsonError (String × Json) := do
  let encoded ← encodeValue json entry.2
  .ok (entry.1, .object encoded)

def document (preferences : Preferences) : Except JsonError Fields := do
  let values ← preferences.entries.mapM (encodeEntry json)
  .ok [("schemaVersion", .number 2), ("preferences", .object values)]

/-- `export` -/
def exportJson (preferences : Preferences) : Except JsonError JavaString := do
  let root ← document json preferences
  .ok (json.print root)

/-! ## Reading -/

/-- What is put into an editor, if there is one. -/
def put (editor : Option Preferences) (key : String) (value : Except JsonError PreferenceValue) :
    Except JsonError (Option Preferences) :=
  match editor with
  | none => .ok none
  | some editor => value.map fun value => some (editor.insert key value)

def getStringSet (encoded : Fields) : Except JsonError StringSet := do
  let array ← Json.getJSONArray encoded "value"
  array.foldlM (fun set item =>
    match json.toText item with
    | some item => .ok (set.add item)
    | none => .error .library) StringSet.empty

def decodeValue (editor : Option Preferences) (key : String) (encoded : Fields)
    (type : JavaString) : Except JsonError (Option Preferences) :=
  if type = text "boolean" then
    put editor key ((getAs json.toBoolean encoded "value").map .boolean)
  else if type = text "int" then put editor key ((json.getInt encoded "value").map .int)
  else if type = text "long" then put editor key ((getAs json.toLong encoded "value").map .long)
  else if type = text "float" then put editor key ((getAs json.toFloat encoded "value").map .float)
  else if type = text "string" then
    put editor key ((getAs json.toText encoded "value").map .string)
  else if type = text "string_set" then do
    let set ← getStringSet json encoded
    put editor key (.ok (.stringSet set))
  else .error (.jsonException
    (text "Unsupported preference type for " ++ text key ++ text ": " ++ type))

def decodeField (editor : Option Preferences) (field : String × Json) :
    Except JsonError (Option Preferences) := do
  let encoded ← field.2.asObject
  let type ← getAs json.toText encoded "type"
  decodeValue json editor field.1 encoded type

def decodeIntoEditor (values : Fields) (editor : Option Preferences) :
    Except JsonError (Option Preferences) :=
  values.foldlM (decodeField json) editor

def checkSchema (root : Fields) : Except JsonError Unit := do
  let schemaVersion ← json.getInt root "schemaVersion"
  if schemaVersion ≠ 2 then
    .error (.jsonException
      (text "Unsupported preferences backup schema: " ++ text (toString schemaVersion)))
  else .ok ()

/-! ## Backups of the older form -/

/-- `DARK` or `LIGHT` for a boolean, and a number or its text as it is. -/
def parseLegacyTheme : Json → Except JsonError Int32
  | .string theme =>
      match json.parseInt theme with
      | some theme => .ok theme
      | none => .error (.jsonException (text "Invalid legacy theme value"))
  | .bool dark => .ok (if dark then 1 else 2)
  | .number theme => .ok (json.intValue (.number theme))
  | .decimal theme => .ok (json.intValue (.decimal theme))
  | _ => .error (.jsonException (text "Invalid legacy theme value"))

/-- The theme, if the backup has one. -/
def legacyTheme (root : Fields) : Except JsonError (Option Int32) :=
  match Json.get? root "isDarkTheme" with
  | some theme => (parseLegacyTheme json theme).map some
  | none => .ok none

def checkIfPresent {α : Type} (convert : Json → Option α) (root : Fields) (name : String) :
    Except JsonError Unit :=
  if has root name then (getAs convert root name).map fun _ => () else .ok ()

def validateLegacy (root : Fields) : Except JsonError Unit := do
  ["isWifiOnly", "allowWhileIdle", "useProxy", "safEnabled", "refreshLaEnabled", "vcpEnabled",
    "vcpDeclareLocal", "vcpGrantAll", "isWrapFilenames", "appUpdates", "useLogs"].forM
    (checkIfPresent json.toBoolean root)
  ["proxyProtocol", "proxyHost", "proxyUser", "proxyPassword"].forM
    (checkIfPresent json.toText root)
  checkIfPresent json.toInteger root "proxyPort"
  let _ ← legacyTheme json root
  .ok ()

/-- Set a preference to the value of a field, if the backup has it. -/
def putIfPresent {α : Type} (root : Fields) (jsonKey : String) (convert : Json → Option α)
    (make : α → PreferenceValue) (preferenceKey : String) (editor : Preferences) :
    Except JsonError Preferences :=
  if has root jsonKey then
    (getAs convert root jsonKey).map fun value => editor.insert preferenceKey (make value)
  else .ok editor

def putBooleanIfPresent (root : Fields) (jsonKey : String) (editor : Preferences)
    (preferenceKey : String) : Except JsonError Preferences :=
  putIfPresent root jsonKey json.toBoolean .boolean preferenceKey editor

def putStringIfPresent (root : Fields) (jsonKey : String) (editor : Preferences)
    (preferenceKey : String) : Except JsonError Preferences :=
  putIfPresent root jsonKey json.toText .string preferenceKey editor

def putIntIfPresent (root : Fields) (jsonKey : String) (editor : Preferences)
    (preferenceKey : String) : Except JsonError Preferences :=
  putIfPresent root jsonKey json.toInteger .int preferenceKey editor

def importLegacy (root : Fields) (editor : Preferences) : Except JsonError Preferences := do
  let editor ← putBooleanIfPresent json root "isWifiOnly" editor "pref_key_wifi_only_transfers"
  let editor ← putBooleanIfPresent json root "allowWhileIdle" editor
    "shared_preferences_allow_sync_trigger_while_idle"
  let editor ← putBooleanIfPresent json root "useProxy" editor "use_proxy"
  let editor ← putStringIfPresent json root "proxyProtocol" editor "proxy_protocol"
  let editor ← putStringIfPresent json root "proxyHost" editor "proxy_host"
  let editor ← putIntIfPresent json root "proxyPort" editor "proxy_port"
  let editor ← putStringIfPresent json root "proxyUser" editor "proxy_username"
  let editor ← putStringIfPresent json root "proxyPassword" editor "proxy_password"
  let editor ← putBooleanIfPresent json root "safEnabled" editor "pref_key_enable_saf"
  let editor ← putBooleanIfPresent json root "refreshLaEnabled" editor "refresh_local_aliases"
  let editor ← putBooleanIfPresent json root "vcpEnabled" editor "vcp_enable"
  let editor ← putBooleanIfPresent json root "vcpDeclareLocal" editor "vcp_declare_local"
  let editor ← putBooleanIfPresent json root "vcpGrantAll" editor "vcp_grant_all"
  let theme ← legacyTheme json root
  let editor := editor.insert "pref_key_theme" (.string (text (toString (theme.getD 0))))
  let editor ← putBooleanIfPresent json root "isWrapFilenames" editor "pref_key_wrap_filenames"
  let editor ← putBooleanIfPresent json root "appUpdates" editor "pref_key_app_updates"
  putBooleanIfPresent json root "useLogs" editor "pref_key_logs"

/-! ## Validation and import -/

def validateJson (content : JavaString) : Except JsonError Unit := do
  let root ← json.parse content
  if has root "preferences" then
    checkSchema json root
    let values ← getJSONObject root "preferences"
    let _ ← decodeIntoEditor json values none
    .ok ()
  else validateLegacy json root

/-- The preferences that an import commits. -/
def imported (content : JavaString) (preferences : Preferences) : Except JsonError Preferences := do
  let root ← json.parse content
  if has root "preferences" then
    checkSchema json root
    let values ← getJSONObject root "preferences"
    let editor ← decodeIntoEditor json values (some ∅)
    .ok (editor.getD ∅)
  else importLegacy json root preferences

/-- Nothing is committed when the backup is refused. -/
def importJson (content : JavaString) (preferences : Preferences) :
    Except JsonError Unit × Preferences :=
  match imported json content preferences with
  | .error error => (.error error, preferences)
  | .ok preferences => (.ok (), preferences)

/-! ## The round trip -/

/-- A negative zero is read back as zero. -/
def settled : PreferenceValue → PreferenceValue
  | .float bits => .float (if bits = 0x80000000 then 0 else bits)
  | value => value

/-- The library reads back what it prints for these preferences. -/
structure Faithful (preferences : Preferences) : Prop where
  parse_print : ∀ root, document json preferences = .ok root →
    json.parse (json.print root) = .ok root
  toInteger_number : ∀ n : Int32, json.toInteger (.number n.toInt) = some n
  toLong_number : ∀ n : Int64, json.toLong (.number n.toInt) = some n
  toBoolean_bool : ∀ value, json.toBoolean (.bool value) = some value
  toText_string : ∀ value, json.toText (.string value) = some value
  toFloat_ofFloat : ∀ bits number, json.ofFloat bits = some number →
    json.toFloat number = some (if bits = 0x80000000 then 0 else bits)

/-- What the values are converted to and from, but for the floats. -/
structure Conversions : Prop where
  toInteger_number : ∀ n : Int32, json.toInteger (.number n.toInt) = some n
  toLong_number : ∀ n : Int64, json.toLong (.number n.toInt) = some n
  toBoolean_bool : ∀ value, json.toBoolean (.bool value) = some value
  toText_string : ∀ value, json.toText (.string value) = some value

/-- The value, where something may become of the bits of a float. -/
def changed (change : UInt32 → UInt32) : PreferenceValue → PreferenceValue
  | .float bits => .float (change bits)
  | value => value

/-- What is read for the number that is written for a float. -/
def ReadsFloat (change : UInt32 → UInt32) (value : PreferenceValue) : Prop :=
  ∀ bits number, value = .float bits → json.ofFloat bits = some number →
    json.toFloat number = some (change bits)

variable {json} {preferences : Preferences} {change : UInt32 → UInt32}

theorem Faithful.conversions (faithful : Faithful json preferences) : Conversions json :=
  ⟨faithful.toInteger_number, faithful.toLong_number, faithful.toBoolean_bool,
    faithful.toText_string⟩

theorem getStringSet_encoded (toText_string : ∀ value, json.toText (.string value) = some value)
    (type : String) (set : StringSet) :
    getStringSet json (encoded type (.array (set.items.map .string))) = .ok set := by
  have added : ∀ (items : List JavaString) (front : StringSet),
      (items.map Json.string).foldlM (fun (set : StringSet) item =>
        match json.toText item with
        | some item => Except.ok (set.add item)
        | none => .error JsonError.library) front = .ok (items.foldl StringSet.add front) := by
    intro items
    induction items with
    | nil => exact fun _ => rfl
    | cons item items ih =>
        intro front
        rw [List.map_cons, List.foldlM_cons, toText_string]
        exact ih (front.add item)
  have array : Json.getJSONArray (encoded type (.array (set.items.map .string))) "value" =
      .ok (set.items.map .string) := by
    simp [Json.getJSONArray, Json.get?, encoded]
  simp only [getStringSet, array, bind, Except.bind]
  rw [added, StringSet.foldl_add_items]

/-- A value is put as it was, but for the change of a float; the validator puts nothing. -/
theorem decodeField_encoded (conversions : Conversions json) {key : String}
    {value : PreferenceValue} (reads : ReadsFloat json change value) {fields : Fields}
    (isEncoded : encodeValue json value = .ok fields) (editor : Option Preferences) :
    decodeField json editor (key, .object fields) =
      .ok (editor.map fun editor => editor.insert key (changed change value)) := by
  have read : ∀ (type : String) (item : Json),
      decodeField json editor (key, .object (encoded type item)) =
        decodeValue json editor key (encoded type item) (text type) := by
    intro type item
    have isType : getAs json.toText (encoded type item) "type" = .ok (text type) := by
      simp [getAs, Json.get?, encoded, conversions.toText_string]
    simp only [decodeField, Json.asObject, isType, bind, Except.bind]
  have isValue : ∀ (type : String) (item : Json), Json.get? (encoded type item) "value" = some item := by
    intro type item
    simp [Json.get?, encoded]
  have done : ∀ (value : PreferenceValue), put editor key (.ok value) =
      .ok (editor.map fun editor => editor.insert key value) := by
    intro value
    cases editor with
    | none => rfl
    | some editor => rfl
  cases value with
  | boolean value =>
      cases isEncoded
      rw [read, decodeValue, if_pos rfl]
      simp [getAs, isValue, conversions.toBoolean_bool, Except.map, done, changed]
  | int value =>
      cases isEncoded
      rw [read, decodeValue, if_neg (by decide), if_pos rfl]
      simp [JsonLibrary.getInt, isValue, conversions.toInteger_number, Except.map, done, changed]
  | long value =>
      cases isEncoded
      rw [read, decodeValue, if_neg (by decide), if_neg (by decide), if_pos rfl]
      simp [getAs, isValue, conversions.toLong_number, Except.map, done, changed]
  | float bits =>
      rw [encodeValue] at isEncoded
      cases isNumber : json.ofFloat bits with
      | none =>
          rw [isNumber] at isEncoded
          cases isEncoded
      | some number =>
          rw [isNumber] at isEncoded
          cases isEncoded
          rw [read, decodeValue, if_neg (by decide), if_neg (by decide), if_neg (by decide),
            if_pos rfl]
          simp [getAs, isValue, reads bits number rfl isNumber, Except.map, done,
            changed]
  | string value =>
      cases isEncoded
      rw [read, decodeValue, if_neg (by decide), if_neg (by decide), if_neg (by decide),
        if_neg (by decide), if_pos rfl]
      simp [getAs, isValue, conversions.toText_string, Except.map, done, changed]
  | stringSet value =>
      cases isEncoded
      rw [read, decodeValue, if_neg (by decide), if_neg (by decide), if_neg (by decide),
        if_neg (by decide), if_neg (by decide), if_pos rfl]
      simp [getStringSet_encoded conversions.toText_string, bind, Except.bind, done, changed]

/-- The entries of a backup are put in their order. -/
theorem decodeIntoEditor_entries (conversions : Conversions json)
    {entries : List (Σ _ : String, PreferenceValue)} {values : Fields}
    (reads : ∀ entry ∈ entries, ReadsFloat json change entry.2)
    (written : entries.mapM (encodeEntry json) = .ok values) (editor : Option Preferences) :
    decodeIntoEditor json values editor = .ok (editor.map fun editor =>
      entries.foldl (fun (editor : Preferences) entry =>
        editor.insert entry.1 (changed change entry.2)) editor) := by
  induction entries generalizing values editor with
  | nil =>
      cases written
      cases editor with
      | none => rfl
      | some editor => rfl
  | cons entry entries ih =>
      obtain ⟨key, value⟩ := entry
      rw [List.mapM_cons] at written
      cases isEncoded : encodeValue json value with
      | error error =>
          simp [encodeEntry, isEncoded, bind, Except.bind] at written
      | ok fields =>
          cases rest : entries.mapM (encodeEntry json) with
          | error error =>
              simp [encodeEntry, isEncoded, rest, bind, Except.bind] at written
          | ok others =>
              have split : values = (key, .object fields) :: others := by
                simpa [encodeEntry, isEncoded, rest, bind, Except.bind, pure, Except.pure, eq_comm]
                  using written
              subst split
              have first : decodeField json editor (key, .object fields) =
                  .ok (editor.map fun editor => editor.insert key (changed change value)) :=
                decodeField_encoded conversions (reads _ List.mem_cons_self) isEncoded editor
              rw [decodeIntoEditor, List.foldlM_cons, first]
              simp only [bind, Except.bind]
              refine (ih (fun entry mem => reads entry (List.mem_cons_of_mem _ mem)) rest _).trans ?_
              rw [Option.map_map]
              rfl

/-- An exported backup is a document of the current schema with all entries. -/
theorem exists_document {content : JavaString}
    (exported : exportJson json preferences = .ok content) :
    ∃ values, preferences.entries.mapM (encodeEntry json) = .ok values ∧
      document json preferences = .ok [("schemaVersion", .number 2), ("preferences", .object values)] ∧
      content = json.print [("schemaVersion", .number 2), ("preferences", .object values)] := by
  unfold exportJson document at exported
  unfold document
  cases written : preferences.entries.mapM (encodeEntry json) with
  | error error =>
      rw [written] at exported
      cases exported
  | ok values =>
      rw [written] at exported
      cases exported
      exact ⟨values, rfl, rfl, rfl⟩

/-- An exported backup is imported, and restores all preferences but for the changes of
their floats. -/
theorem importJson_changed (conversions : Conversions json)
    (parse_print : ∀ root, document json preferences = .ok root →
      json.parse (json.print root) = .ok root)
    (reads : ∀ entry ∈ preferences.entries, ReadsFloat json change entry.2)
    {content : JavaString} (exported : exportJson json preferences = .ok content)
    (target : Preferences) :
    ∃ restored, importJson json content target = (.ok (), restored) ∧
      ∀ key, restored.lookup key = (preferences.lookup key).map (changed change) := by
  obtain ⟨values, written, isDocument, rfl⟩ := exists_document exported
  have decoded := decodeIntoEditor_entries conversions reads written (some ∅)
  have schema : checkSchema json [("schemaVersion", .number 2), ("preferences", .object values)] =
      .ok () := by
    have two : json.toInteger (.number 2) = some 2 := conversions.toInteger_number 2
    simp [checkSchema, JsonLibrary.getInt, Json.get?, two, bind, Except.bind]
  have isThere : has [("schemaVersion", .number 2), ("preferences", .object values)]
      "preferences" = true := by
    simp [has, Json.get?]
  have found : getJSONObject [("schemaVersion", .number 2), ("preferences", .object values)]
      "preferences" = .ok values := by
    simp [getJSONObject, Json.get?]
  refine ⟨_, ?_, Table.lookup_rebuilt (changed change) preferences⟩
  simp only [importJson, imported, parse_print _ isDocument, isThere, schema, found,
    decoded, bind, Except.bind, if_true, Option.map_some, Option.getD_some]

theorem settled_eq_changed :
    settled = changed fun bits => if bits = 0x80000000 then 0 else bits := by
  funext value
  cases value <;> rfl

/-- An exported backup is imported, and restores all preferences but negative zeros. -/
theorem importJson_exportJson (faithful : Faithful json preferences) {content : JavaString}
    (exported : exportJson json preferences = .ok content) (target : Preferences) :
    ∃ restored, importJson json content target = (.ok (), restored) ∧
      ∀ key, restored.lookup key = (preferences.lookup key).map settled := by
  rw [settled_eq_changed]
  exact importJson_changed faithful.conversions faithful.parse_print
    (fun _ _ bits number _ isNumber => faithful.toFloat_ofFloat bits number isNumber) exported
    target

end SharedPreferencesBackup

end RoundSync.Database
