import RoundSync.Text.JavaString

/-!
# JSON objects

The values that a JSON document holds, and how a serializable class is written
to an object and read back: a property that has its default is left out, and
reading goes through the fields one by one.  Turning an object into text and
back is the library's part and a parameter here.
-/

namespace RoundSync.Text

universe u

/-- A number that is no integer is kept by its literal. -/
inductive Json where
  | null
  | bool (value : Bool)
  | number (value : Int)
  | decimal (literal : JavaString)
  | string (value : JavaString)
  | array (items : List Json)
  | object (fields : List (String × Json))

/-- An object by its fields, in the order in which they were put. -/
abbrev Fields := List (String × Json)

/-- What the JSON code throws: its own exceptions carry a message that the
application writes, those of the library do not. -/
inductive JsonError where
  | jsonException (message : JavaString)
  | library
  deriving DecidableEq

/-- The text level of the JSON libraries and their conversions between types. -/
structure JsonLibrary where
  /-- `JSONObject.toString` -/
  print : Fields → JavaString
  /-- `new JSONObject(text)` -/
  parse : JavaString → Except JsonError Fields
  /-- the conversion of `getInt` -/
  toInteger : Json → Option Int32
  /-- a number read from a literal in quotes -/
  quoted : JavaString → Option Int

namespace Json

/-- The first field of a name. -/
def get? (fields : Fields) (name : String) : Option Json :=
  (fields.find? fun field => field.1 = name).map Prod.snd

def getJSONArray (fields : Fields) (name : String) : Except JsonError (List Json) :=
  match get? fields name with
  | some (.array items) => .ok items
  | _ => .error .library

def asObject : Json → Except JsonError Fields
  | .object fields => .ok fields
  | _ => .error .library

end Json

namespace JsonLibrary

variable (json : JsonLibrary)

def getInt (fields : Fields) (name : String) : Except JsonError Int32 :=
  match (Json.get? fields name).bind json.toInteger with
  | some value => .ok value
  | none => .error .library

/-- An integer between two bounds, plain or in quotes. -/
def decodeInteger (lower upper : Int) (value : Json) : Except JsonError Int :=
  let read := match value with
    | .number n => some n
    | .string s => json.quoted s
    | _ => none
  match read with
  | some n => if lower ≤ n ∧ n ≤ upper then .ok n else .error .library
  | none => .error .library

def decodeLong (value : Json) : Except JsonError Int64 :=
  (json.decodeInteger Int64.minValue.toInt Int64.maxValue.toInt value).map Int64.ofInt

def decodeInt (value : Json) : Except JsonError Int32 :=
  (json.decodeInteger Int32.minValue.toInt Int32.maxValue.toInt value).map Int32.ofInt

def decodeByte (value : Json) : Except JsonError Int8 :=
  (json.decodeInteger Int8.minValue.toInt Int8.maxValue.toInt value).map Int8.ofInt

def decodeBoolean : Json → Except JsonError Bool
  | .bool value => .ok value
  | _ => .error .library

def decodeString : Json → Except JsonError JavaString
  | .string value => .ok value
  | _ => .error .library

theorem decodeInteger_number {lower upper n : Int} (above : lower ≤ n) (below : n ≤ upper) :
    json.decodeInteger lower upper (.number n) = .ok n :=
  if_pos ⟨above, below⟩

@[simp]
theorem decodeLong_number (n : Int64) : json.decodeLong (.number n.toInt) = .ok n := by
  rw [decodeLong, json.decodeInteger_number n.minValue_le_toInt n.toInt_le]
  simp [Except.map]

@[simp]
theorem decodeInt_number (n : Int32) : json.decodeInt (.number n.toInt) = .ok n := by
  rw [decodeInt, json.decodeInteger_number n.minValue_le_toInt n.toInt_le]
  simp [Except.map]

@[simp]
theorem decodeByte_number (n : Int8) : json.decodeByte (.number n.toInt) = .ok n := by
  rw [decodeByte, json.decodeInteger_number n.minValue_le_toInt n.toInt_le]
  simp [Except.map]

@[simp]
theorem decodeBoolean_bool (value : Bool) : decodeBoolean (.bool value) = .ok value :=
  rfl

@[simp]
theorem decodeString_string (value : JavaString) : decodeString (.string value) = .ok value :=
  rfl

end JsonLibrary

/-! ## Serializable classes -/

section Properties

variable {α β : Type u}

/-- A property with a default, which is written only where it differs. -/
def property [DecidableEq α] (name : String) (default value : α) (encode : α → Json) : Fields :=
  if value = default then [] else [(name, encode value)]

/-- Read the fields of an object one by one. -/
def readFields (setField : β → String × Json → Except JsonError β) (item : β) (fields : Fields) :
    Except JsonError β :=
  fields.foldlM setField item

/-- Fields are read in turn. -/
theorem readFields_append {setField : β → String × Json → Except JsonError β} {item middle last : β}
    {first second : Fields} (one : readFields setField item first = .ok middle)
    (other : readFields setField middle second = .ok last) :
    readFields setField item (first ++ second) = .ok last := by
  have split : readFields setField item (first ++ second) =
      (readFields setField item first).bind fun item => readFields setField item second :=
    List.foldlM_append
  rw [split, one]
  exact other

theorem readFields_cons {setField : β → String × Json → Except JsonError β} {item middle last : β}
    {field : String × Json} {fields : Fields} (one : setField item field = .ok middle)
    (other : readFields setField middle fields = .ok last) :
    readFields setField item (field :: fields) = .ok last := by
  have split : readFields setField item (field :: fields) =
      (setField item field).bind fun item => readFields setField item fields := rfl
  rw [split, one]
  exact other

/-- A written property is read back where the item still has its default. -/
theorem readFields_property [DecidableEq α] {setField : β → String × Json → Except JsonError β}
    {item : β} {name : String} {default value : α} {encode : α → Json} (set : α → β)
    (reads : setField item (name, encode value) = .ok (set value)) (unset : set default = item) :
    readFields setField item (property name default value encode) = .ok (set value) := by
  rw [property]
  split_ifs with same
  · rw [same, unset]
    rfl
  · exact readFields_cons reads rfl

end Properties

end RoundSync.Text
