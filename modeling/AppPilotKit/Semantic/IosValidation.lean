import AppPilotKit.Lib.JsonSchema
import AppPilotKit.Semantic.SchemaAgreement

/-! # Values against a schema on iOS

`SemanticJSONSchema.validate` is JSON Schema up to the equality of `JSONValue`: Swift takes
canonically equivalent strings for the same, and numbers in different cases for different.
-/

namespace AppPilotKit.Semantic

open Snapshot (JSONValue Double)

namespace SemanticJSONSchema

/-! ## The validator -/

section
variable (unicode : Normalization)

mutual
/-- The `==` that Swift derives for `JSONValue`. -/
def equals : JSONValue → JSONValue → Bool
  | .null, .null => true
  | .bool value, .bool other => value == other
  | .integer value, .integer other => value == other
  | .unsignedInteger value, .unsignedInteger other => value == other
  | .number (some value), .number (some other) => value == other
  | .string value, .string other => unicode.same value other
  | .array values, .array others => equalsValues values others
  | .object fields, .object others => fields.length == others.length && equalsFields fields others
  | _, _ => false

def equalsValues : List JSONValue → List JSONValue → Bool
  | [], [] => true
  | value :: values, other :: others => equals value other && equalsValues values others
  | _, _ => false

/-- Every field is in the other dictionary. -/
def equalsFields : Fields → Fields → Bool
  | [], _ => true
  | (name, value) :: fields, others =>
      (match field unicode others name with
        | some other => equals value other
        | none => false) && equalsFields fields others
end

/-- What a check of a value throws when it fails. -/
def check (condition : Bool) : Checked Unit := if condition then .ok () else .error .invalidOutput

def validateConstant (value : JSONValue) (schema : Fields) : Checked Unit :=
  check ((field unicode schema "const").all (equals unicode value))

def validateAllowed (value : JSONValue) (schema : Fields) : Checked Unit :=
  match field unicode schema "enum" with
  | some (.array allowed) => check (allowed.any (equals unicode value))
  | _ => .ok ()

def validateNumber (value : JSONValue) (schema : Fields) : Checked Unit :=
  match decimal (some value) with
  | none => .error .invalidOutput
  | some number => do
      check ((decimal (field unicode schema "minimum")).all (· ≤ number))
      check ((decimal (field unicode schema "maximum")).all (number ≤ ·))

/-- The bounds on a count of code points or of elements. -/
def validateCount (count : Nat) (schema : Fields) (minimum maximum : String) : Checked Unit := do
  check ((integer (field unicode schema minimum)).all (· ≤ (count : Int)))
  check ((integer (field unicode schema maximum)).all ((count : Int) ≤ ·))

def properties (schema : Fields) : Fields :=
  match field unicode schema "properties" with
  | some (.object declared) => declared
  | _ => []

/-- Each required name is one of the fields. -/
def validateRequiredNames (fields : Fields) : List JSONValue → Checked Unit
  | [] => .ok ()
  | .string name :: names => do
      check (field unicode fields name).isSome
      validateRequiredNames fields names
  | _ :: _ => .error .invalidOutput

def validateRequiredFields (fields schema : Fields) : Checked Unit :=
  match field unicode schema "required" with
  | some (.array names) => validateRequiredNames unicode fields names
  | _ => .ok ()

mutual
/-- `switch (type, value)`. -/
def validateAgainst (value : JSONValue) (schema : Fields) : Checked Unit := do
  validateConstant unicode value schema
  validateAllowed unicode value schema
  match field unicode schema "type" with
  | some (.string type) =>
      match value with
      | .null => check (unicode.same type "null")
      | .bool _ => check (unicode.same type "boolean")
      | .integer number =>
          check (unicode.same type "integer" || unicode.same type "number")
          validateNumber unicode (.integer number) schema
      | .unsignedInteger number =>
          check (unicode.same type "integer" || unicode.same type "number")
          validateNumber unicode (.unsignedInteger number) schema
      | .number number =>
          check (unicode.same type "number")
          validateNumber unicode (.number number) schema
      | .string text =>
          check (unicode.same type "string")
          validateCount unicode text.length schema "minLength" "maxLength"
      | .array values =>
          check (unicode.same type "array")
          validateCount unicode values.length schema "minItems" "maxItems"
          match field unicode schema "items" with
          | some (.object items) => validateItems values items
          | _ => throw .invalidSchema
      | .object fields =>
          check (unicode.same type "object")
          check (fields.all fun entry => Keyed.has unicode.nfc (properties unicode schema) entry.1)
          validateRequiredFields unicode fields schema
          validateFields fields (properties unicode schema)
  | _ => throw .invalidSchema

def validateItems : List JSONValue → Fields → Checked Unit
  | [], _ => .ok ()
  | value :: values, items => do
      validateAgainst value items
      validateItems values items

def validateFields : Fields → Fields → Checked Unit
  | [], _ => .ok ()
  | (name, value) :: fields, properties =>
      match field unicode properties name with
      | some (.object schema) => do
          validateAgainst value schema
          validateFields fields properties
      | _ => .error .invalidOutput
end

/-- `validate(_:against:)`. -/
def validate (value document : JSONValue) : Checked Unit :=
  match document with
  | .object schema => validateAgainst unicode value schema
  | _ => .error .invalidSchema

end

/-! ## The documents and values -/

/-- A value as Swift holds it: the names of a dictionary are apart. -/
inductive Formed (unicode : Normalization) : JSONValue → Prop where
  | null : Formed unicode .null
  | bool (value : Bool) : Formed unicode (.bool value)
  | integer (value : Int) : Formed unicode (.integer value)
  | unsignedInteger (value : Nat) : Formed unicode (.unsignedInteger value)
  | number (value : Double) : Formed unicode (.number value)
  | string (value : String) : Formed unicode (.string value)
  | array {values : List JSONValue} (all : ∀ value ∈ values, Formed unicode value) : Formed unicode (.array values)
  | object {fields : Fields} (apart : Keyed.Unambiguous unicode.nfc fields) (all : ∀ entry ∈ fields, Formed unicode entry.2) :
      Formed unicode (.object fields)

def valueView : JsonSchema.View JSONValue where
  isNull value := value = .null
  boolean
    | .bool value => some value
    | _ => none
  number
    | .integer value => some value
    | .unsignedInteger value => some value
    | .number value => value
    | _ => none
  string
    | .string text => some text
    | _ => none
  items
    | .array values => some values
    | _ => none
  members
    | .object fields => some fields
    | _ => none
  key := id

/-- JSON Schema, with Swift's equality of names and values. -/
def swiftly (unicode : Normalization) : JsonSchema.Reading JSONValue :=
  { valueView with key := unicode.nfc, same := fun value other => equals unicode value other = true }

variable {unicode : Normalization} {schema : Fields} {value : JSONValue}

theorem check_ok {condition : Bool} : check condition = .ok () ↔ condition = true := Checks.guard_ok

theorem keyword_eq {α : Type} (name : String) (view : JSONValue → Option α) :
    (swiftly unicode).keyword schema name view = (field unicode schema name).bind view := rfl

theorem keyword_text (name text : String) :
    (swiftly unicode).keyword schema name (swiftly unicode).string = some text ↔ field unicode schema name = some (.string text) := by
  rw [keyword_eq]
  cases field unicode schema name with
  | none => simp
  | some value => cases value <;> simp [swiftly, valueView]

theorem keyword_fields (name : String) (inner : Fields) :
    (swiftly unicode).keyword schema name (swiftly unicode).members = some inner ↔ field unicode schema name = some (.object inner) := by
  rw [keyword_eq]
  cases field unicode schema name with
  | none => simp
  | some value => cases value <;> simp [swiftly, valueView]

theorem keyword_values (name : String) (values : List JSONValue) :
    (swiftly unicode).keyword schema name (swiftly unicode).items = some values ↔ field unicode schema name = some (.array values) := by
  rw [keyword_eq]
  cases field unicode schema name with
  | none => simp
  | some value => cases value <;> simp [swiftly, valueView]

theorem declared_eq : (swiftly unicode).declared schema = properties unicode schema := by
  unfold JsonSchema.Reading.declared properties
  rw [keyword_eq]
  cases field unicode schema "properties" with
  | none => rfl
  | some value => cases value <;> rfl

/-! ## The schemas of an accepted document -/

/-- A schema that passes, at the root or inside a document. -/
def Accepted (unicode : Normalization) (schema : Fields) : Prop := ∃ isRoot, validateSchemaObject unicode schema isRoot = .ok ()

theorem Accepted.checks (accepted : Accepted unicode schema) :
    ∃ type, field unicode schema "type" = some (.string type) ∧ type ∈ supportedTypes ∧ validateTyped unicode schema type = .ok () := by
  obtain ⟨isRoot, accepted⟩ := accepted
  rw [validateSchemaObject, Checks.bind_ok] at accepted
  obtain ⟨type, isType, accepted⟩ := accepted
  rw [Checks.and_then_ok, Checks.and_then_ok, Checks.and_then_ok] at accepted
  refine ⟨type, ?_, ?_, accepted.2.2.1⟩
  all_goals
    unfold declaredType at isType
    rw [Checks.and_then_ok, Checks.and_then_ok] at isType
    have isType := isType.2.2
    split at isType
    · rename_i declared found
      rw [Checks.and_then_ok, require_ok, any_same (by decide), List.contains_iff_mem] at isType
      obtain ⟨supported, same⟩ := isType
      cases same
      first | exact found | exact supported
    · cases isType

theorem Accepted.items (accepted : Accepted unicode schema) (declared : field unicode schema "type" = some (.string "array")) :
    ∃ items, field unicode schema "items" = some (.object items) ∧ Accepted unicode items ∧
      validateIntegerBounds unicode schema "minItems" "maxItems" = .ok () := by
  obtain ⟨type, same, -, typed⟩ := accepted.checks
  cases same.symm.trans declared
  have notObject : ¬ unicode.same "array" "object" = true := by
    rw [unicode.same_plain (by decide)]
    decide
  rw [validateTyped, if_neg notObject, if_pos ((unicode.same_plain (by decide) "array").mpr rfl)] at typed
  split at typed
  · rename_i items found
    rw [Checks.and_then_ok] at typed
    exact ⟨items, found, ⟨false, typed.1⟩, typed.2⟩
  · cases typed

theorem validateProperties_ok {declared : Fields} :
    validateProperties unicode declared = .ok () ↔
      ∀ entry ∈ declared, ∃ inner, entry.2 = .object inner ∧ validateSchemaObject unicode inner false = .ok () := by
  induction declared with
  | nil => simp [validateProperties]
  | cons entry declared ih =>
      obtain ⟨name, value⟩ := entry
      rw [List.forall_mem_cons, ← ih]
      cases value with
      | object inner =>
          rw [validateProperties, Checks.and_then_ok]
          simp
      | null | bool | string | array | integer | unsignedInteger | number => simp [validateProperties]

theorem validateRequired_strings {declared : Fields} {values : List JSONValue} {seen : List String}
    (valid : validateRequired unicode declared values seen = .ok ()) : ∃ texts : List String, values = texts.map JSONValue.string := by
  induction values generalizing seen with
  | nil => exact ⟨[], rfl⟩
  | cons value values ih =>
      cases value with
      | string text =>
          rw [validateRequired, Checks.and_then_ok, Checks.and_then_ok] at valid
          obtain ⟨texts, rfl⟩ := ih valid.2.2
          exact ⟨text :: texts, rfl⟩
      | null | bool | array | integer | unsignedInteger | number | object => cases valid

/-- The schema of an object is closed; its properties are schemas and its required names strings. -/
theorem Accepted.object (accepted : Accepted unicode schema) (declared : field unicode schema "type" = some (.string "object")) :
    field unicode schema "additionalProperties" = some (.bool false) ∧
      (∀ entry ∈ properties unicode schema, ∃ inner, entry.2 = .object inner ∧ Accepted unicode inner) ∧
      ∀ names, field unicode schema "required" = some (.array names) → ∃ texts : List String, names = texts.map JSONValue.string := by
  obtain ⟨type, same, -, typed⟩ := accepted.checks
  cases same.symm.trans declared
  rw [validateTyped, if_pos ((unicode.same_plain (by decide) "object").mpr rfl), Checks.and_then_ok, require_ok] at typed
  obtain ⟨closed, typed⟩ := typed
  have required {declared : Fields} (valid : validateRequiredField unicode schema declared = .ok ()) (names : List JSONValue)
      (found : field unicode schema "required" = some (.array names)) : ∃ texts : List String, names = texts.map JSONValue.string := by
    unfold validateRequiredField at valid
    rw [found] at valid
    exact validateRequired_strings valid
  refine ⟨?_, ?_⟩
  · unfold isFalse at closed
    split at closed
    · assumption
    · cases closed
  unfold properties
  split at typed
  · rename_i absent
    rw [absent]
    exact ⟨nofun, required typed⟩
  · rename_i declared found
    rw [Checks.and_then_ok, validateProperties_ok] at typed
    rw [found]
    refine ⟨fun entry member => ?_, required typed.2⟩
    obtain ⟨inner, object, valid⟩ := typed.1 entry member
    exact ⟨inner, object, false, valid⟩
  · cases typed

/-! ## One value against one schema -/

theorem validateAllowed_iff :
    validateAllowed unicode value schema = .ok () ↔
      ∀ allowed, (swiftly unicode).keyword schema "enum" (swiftly unicode).items = some allowed →
        ∃ constant ∈ allowed, (swiftly unicode).same value constant := by
  unfold validateAllowed
  simp only [keyword_values]
  split
  · rename_i allowed found
    rw [check_ok, List.any_eq_true]
    constructor
    · rintro some_ other same
      cases found.symm.trans same
      exact some_
    · exact fun all => all _ found
  · rename_i other
    exact ⟨fun _ allowed found => absurd found (other allowed), fun _ => rfl⟩

theorem integer_number {value : JSONValue} {bound : Int} (read : integer (some value) = some bound) :
    valueView.number value = some (bound : ℚ) := by
  cases value with
  | integer value =>
      simp only [integer] at read
      split_ifs at read
      cases read
      rfl
  | unsignedInteger value =>
      simp only [integer] at read
      split_ifs at read
      cases read
      rfl
  | null | bool | string | array | object | number => cases read

/-- A bound on a count that the document check let through is the number that it says. -/
theorem bound_iff {name : String} (valid : validateNonnegativeInteger (field unicode schema name) = .ok ()) {p : Int → Bool} {P : ℚ → Prop}
    (same : ∀ n : Int, p n = true ↔ P n) :
    (integer (field unicode schema name)).all p = true ↔
      ∀ bound, (swiftly unicode).keyword schema name (swiftly unicode).number = some bound → P bound := by
  unfold validateNonnegativeInteger at valid
  rw [require_ok] at valid
  rw [keyword_eq]
  cases found : field unicode schema name with
  | none => simp [integer]
  | some value =>
      rw [found] at valid
      obtain ⟨bound, known⟩ := Option.isSome_iff_exists.mp (by simpa using valid)
      have number : (swiftly unicode).number value = some (bound : ℚ) := integer_number known
      simp [known, number, same]

theorem validateCount_iff {minimum maximum : String} (valid : validateIntegerBounds unicode schema minimum maximum = .ok ()) (count : Nat) :
    validateCount unicode count schema minimum maximum = .ok () ↔
      (∀ bound, (swiftly unicode).keyword schema minimum (swiftly unicode).number = some bound → bound ≤ (count : ℚ)) ∧
        ∀ bound, (swiftly unicode).keyword schema maximum (swiftly unicode).number = some bound → (count : ℚ) ≤ bound := by
  unfold validateIntegerBounds at valid
  rw [Checks.and_then_ok, Checks.and_then_ok] at valid
  unfold validateCount
  rw [Checks.and_then_ok, check_ok, check_ok]
  refine and_congr ?_ ?_
  · refine bound_iff valid.1 fun n => ?_
    rw [decide_eq_true_iff]
    exact_mod_cast Iff.rfl
  · refine bound_iff valid.2.1 fun n => ?_
    rw [decide_eq_true_iff]
    exact_mod_cast Iff.rfl

theorem validateItems_ok {values : List JSONValue} {items : Fields} :
    validateItems unicode values items = .ok () ↔ ∀ value ∈ values, validateAgainst unicode value items = .ok () := by
  induction values with
  | nil => simp [validateItems]
  | cons value values ih => rw [validateItems, Checks.and_then_ok, ih, List.forall_mem_cons]

theorem validateFields_ok {fields declared : Fields} :
    validateFields unicode fields declared = .ok () ↔ ∀ entry ∈ fields, ∃ inner, field unicode declared entry.1 = some (.object inner) ∧
      validateAgainst unicode entry.2 inner = .ok () := by
  induction fields with
  | nil => simp [validateFields]
  | cons entry fields ih =>
      obtain ⟨name, value⟩ := entry
      rw [validateFields, List.forall_mem_cons, ← ih]
      split
      · rename_i inner found
        rw [Checks.and_then_ok, found]
        simp
      · rename_i other
        constructor
        · intro failed
          cases failed
        · rintro ⟨⟨inner, found, -⟩, -⟩
          exact absurd found (other inner)

theorem validateRequiredNames_ok {fields : Fields} {texts : List String} :
    validateRequiredNames unicode fields (texts.map JSONValue.string) = .ok () ↔ ∀ text ∈ texts, Keyed.has unicode.nfc fields text = true := by
  induction texts with
  | nil => simp [validateRequiredNames]
  | cons text texts ih =>
      rw [List.map_cons, validateRequiredNames, Checks.and_then_ok, check_ok, ih, List.forall_mem_cons]
      unfold field
      rw [Keyed.get_isSome]

/-! ## The validator is the Swift reading -/

/-- Beside its constants, a value is of the declared type, within the limits, and its
    parts conform. -/
def Fits (unicode : Normalization) (schema : Fields) (type : String) (value : JSONValue) : Prop :=
  (swiftly unicode).HasType type value ∧ (swiftly unicode).Limits schema value ∧
    (∀ inner elements, field unicode schema "items" = some (.object inner) → value = .array elements →
      ∀ element ∈ elements, (swiftly unicode).Conforms inner element) ∧
    ∀ fields, value = .object fields → ∀ entry ∈ fields, ∀ inner,
      field unicode (properties unicode schema) entry.1 = some (.object inner) → (swiftly unicode).Conforms inner entry.2

theorem conforms_fits {type : String} (declared : field unicode schema "type" = some (.string type)) :
    (swiftly unicode).Conforms schema value ↔
      (∀ constant, (swiftly unicode).keyword schema "const" some = some constant → (swiftly unicode).same value constant) ∧
      (∀ allowed, (swiftly unicode).keyword schema "enum" (swiftly unicode).items = some allowed →
        ∃ constant ∈ allowed, (swiftly unicode).same value constant) ∧ Fits unicode schema type value := by
  have items (elements : List JSONValue) : (swiftly unicode).items value = some elements ↔ value = .array elements := by
    cases value <;> simp [swiftly, valueView]
  have members (fields : Fields) : (swiftly unicode).members value = some fields ↔ value = .object fields := by
    cases value <;> simp [swiftly, valueView]
  unfold Fits
  rw [JsonSchema.Reading.conforms_iff, declared_eq]
  simp only [keyword_fields, items, members]
  constructor
  · rintro ⟨asserts, elements, children⟩
    exact ⟨asserts.const, asserts.enum, asserts.type type ((keyword_text _ _).mpr declared), asserts.limits, elements, children⟩
  · rintro ⟨const, enum, hasType, limits, elements, children⟩
    refine ⟨⟨fun other asks => ?_, const, enum, limits⟩, elements, children⟩
    cases ((keyword_text _ _).mp asks).symm.trans declared
    exact hasType

variable {document inner : Fields} {part : JSONValue}

theorem Formed.get {key : String → String} {fields : Fields} (formed : Formed unicode (.object fields)) {name : String}
    {found : JSONValue} (here : Keyed.get key fields name = some found) : Formed unicode found := by
  obtain ⟨other, -, member⟩ := Keyed.mem_of_get here
  cases formed with
  | object _ all => exact all _ member

theorem Formed.properties (formed : Formed unicode (.object schema)) : Formed unicode (.object (properties unicode schema)) := by
  unfold SemanticJSONSchema.properties
  split
  · rename_i declared found
    exact formed.get found
  · exact .object .nil nofun

theorem isObject {r : JsonSchema.Reading JSONValue} (views : r.HasType = valueView.reading.HasType) {type : String} {fields : Fields}
    (hasType : r.HasType type (.object fields)) : type = "object" := by
  rw [views] at hasType
  simpa [JsonSchema.Reading.HasType, JsonSchema.View.reading, valueView] using hasType

theorem isArray {r : JsonSchema.Reading JSONValue} (views : r.HasType = valueView.reading.HasType) {type : String} {values : List JSONValue}
    (hasType : r.HasType type (.array values)) : type = "array" := by
  rw [views] at hasType
  simpa [JsonSchema.Reading.HasType, JsonSchema.View.reading, valueView] using hasType

theorem has_of_spelled {fields : Fields} {name : String} (spelled : Keyed.has id fields name = true) :
    Keyed.has unicode.nfc fields name = true := Keyed.has_of_spelled spelled

def composed : String := String.ofList [Char.ofNat 0xE9]

end SemanticJSONSchema

end AppPilotKit.Semantic
