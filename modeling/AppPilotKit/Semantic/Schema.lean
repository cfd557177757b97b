import AppPilotKit.Semantic.Value

/-! # Schema documents

A schema is accepted at registration when it stays inside a small part of JSON Schema.
Each platform has its own validator: `SemanticJSONSchema` works on the `JSONValue` that
iOS decodes, `SemanticJsonSchema` on the elements that Android parses.
-/

namespace AppPilotKit.Semantic

open Snapshot (JSONValue)

/-! ## What both tables list -/

def supportedKeywords : List String :=
  ["$schema", "$id", "title", "description", "deprecated", "readOnly", "writeOnly", "type", "enum", "const", "required",
    "properties", "additionalProperties", "items", "minLength", "maxLength", "minimum", "maximum", "minItems", "maxItems"]

def supportedTypes : List String := ["null", "boolean", "integer", "number", "string", "array", "object"]

def objectOnly : List String := ["required", "properties", "additionalProperties"]

def arrayOnly : List String := ["items", "minItems", "maxItems"]

def stringOnly : List String := ["minLength", "maxLength"]

def numberOnly : List String := ["minimum", "maximum"]

def draft202012 : String := "https://json-schema.org/draft/2020-12/schema"

/-- What follows `[a-z][a-z0-9+.-]*:` at the start of an identifier. -/
def afterScheme (identifier : String) : Option (List Char) :=
  match identifier.toList with
  | [] => none
  | first :: rest =>
      let inScheme (c : Char) := Patterns.lowerOrDigit c || c == '+' || c == '.' || c == '-'
      if Patterns.lower first then
        match rest.dropWhile inScheme with
        | ':' :: rest => some rest
        | _ => none
      else none

/-! ## iOS -/

namespace SemanticJSONSchema

abbrev Fields := List (String × JSONValue)

abbrev Checked := Except SemanticCatalogError

def require (condition : Bool) : Checked Unit := if condition then .ok () else .error .invalidSchema

def integer : Option JSONValue → Option Int
  | some (.integer value) => if 0 ≤ value ∧ value < 2 ^ 63 then some value else none
  | some (.unsignedInteger value) => if value < 2 ^ 63 then some value else none
  | _ => none

def decimal : Option JSONValue → Option ℚ
  | some (.integer value) => some value
  | some (.unsignedInteger value) => some value
  | some (.number value) => value
  | _ => none

def validateNonnegativeInteger (value : Option JSONValue) : Checked Unit :=
  require (value.isNone || (integer value).isSome)

def validateNumeric (value : Option JSONValue) : Checked Unit :=
  require (value.isNone || (decimal value).isSome)

/-- The bounds are in order when both are numbers: `validateOrderedBounds` on integers,
    `validateOrderedNumericBounds` on decimals. -/
def validateOrdered {α : Type} [LE α] [DecidableLE α] (minimum maximum : Option α) : Checked Unit :=
  match minimum, maximum with
  | some minimum, some maximum => require (minimum ≤ maximum)
  | _, _ => .ok ()

variable (unicode : Normalization)

def field (fields : Fields) (key : String) : Option JSONValue := Keyed.get unicode.nfc fields key

/-- The loop over the required names. -/
def validateRequired (properties : Fields) : List JSONValue → List String → Checked Unit
  | [], _ => .ok ()
  | .string name :: values, required => do
      require (field unicode properties name).isSome
      require (!required.any (unicode.same name))
      validateRequired properties values (name :: required)
  | _ :: _, _ => .error .invalidSchema

/-- `required`, when it is there. -/
def validateRequiredField (schema properties : Fields) : Checked Unit :=
  match field unicode schema "required" with
  | none => .ok ()
  | some (.array values) => validateRequired unicode properties values []
  | some _ => .error .invalidSchema

/-- The checks of every schema object up to its type. -/
def declaredType (schema : Fields) (isRoot : Bool) : Checked String := do
  require (schema.all fun entry => supportedKeywords.any (unicode.same entry.1))
  require (isRoot || ((field unicode schema "$schema").isNone && (field unicode schema "$id").isNone))
  match field unicode schema "type" with
  | some (.string type) =>
      require (supportedTypes.any (unicode.same type))
      return type
  | _ => throw .invalidSchema

def validateEnum (schema : Fields) : Checked Unit :=
  match field unicode schema "enum" with
  | none => .ok ()
  | some (.array values) => do
      require (!values.isEmpty)
      validateFiniteValues values
  | some _ => .error .invalidSchema

def validateConst (schema : Fields) : Checked Unit :=
  match field unicode schema "const" with
  | none => .ok ()
  | some constant => validateFiniteJSON constant

def validateIntegerBounds (schema : Fields) (minimum maximum : String) : Checked Unit := do
  validateNonnegativeInteger (field unicode schema minimum)
  validateNonnegativeInteger (field unicode schema maximum)
  validateOrdered (integer (field unicode schema minimum)) (integer (field unicode schema maximum))

def validateNumericBounds (schema : Fields) : Checked Unit := do
  validateNumeric (field unicode schema "minimum")
  validateNumeric (field unicode schema "maximum")
  validateOrdered (decimal (field unicode schema "minimum")) (decimal (field unicode schema "maximum"))

/-- `== .bool(false)`. -/
def isFalse : Option JSONValue → Bool
  | some (.bool false) => true
  | _ => false

def hasAny (schema : Fields) (keywords : List String) : Bool := keywords.any fun key => (field unicode schema key).isSome

/-- `if type != "object", objectOnly … || … || …`: the comma guards the whole condition. -/
def validateForeign (schema : Fields) (type : String) : Checked Unit :=
  require !(!unicode.same type "object" && (hasAny unicode schema objectOnly
    || (!unicode.same type "array" && hasAny unicode schema arrayOnly)
    || (!unicode.same type "string" && hasAny unicode schema stringOnly)
    || (!unicode.same type "integer" && !unicode.same type "number" && hasAny unicode schema numberOnly)))

theorem sizeOf_lt_of_field {fields : Fields} {key : String} {value : JSONValue}
    (found : field unicode fields key = some value) : sizeOf value < sizeOf fields := by
  obtain ⟨other, -, member⟩ := Keyed.mem_of_get found
  have := List.sizeOf_lt_of_mem member
  simp only [Prod.mk.sizeOf_spec] at this
  omega

mutual
def validateSchemaObject (schema : Fields) (isRoot : Bool) : Checked Unit := do
  let type ← declaredType unicode schema isRoot
  validateEnum unicode schema
  validateConst unicode schema
  validateTyped schema type
  validateForeign unicode schema type
termination_by (sizeOf schema, 1)

/-- `switch type`. -/
def validateTyped (schema : Fields) (type : String) : Checked Unit :=
  if unicode.same type "object" then do
    require (isFalse (field unicode schema "additionalProperties"))
    match _h : field unicode schema "properties" with
    | none => validateRequiredField unicode schema []
    | some (.object declared) =>
        validateProperties declared
        validateRequiredField unicode schema declared
    | some _ => throw .invalidSchema
  else if unicode.same type "array" then
    match _h : field unicode schema "items" with
    | some (.object items) => do
        validateSchemaObject items false
        validateIntegerBounds unicode schema "minItems" "maxItems"
    | _ => throw .invalidSchema
  else if unicode.same type "string" then validateIntegerBounds unicode schema "minLength" "maxLength"
  else if unicode.same type "integer" || unicode.same type "number" then validateNumericBounds unicode schema
  else .ok ()
termination_by (sizeOf schema, 0)
decreasing_by
  all_goals have := sizeOf_lt_of_field unicode _h
  all_goals simp only [JSONValue.object.sizeOf_spec] at this
  all_goals left
  all_goals omega

def validateProperties : Fields → Checked Unit
  | [] => .ok ()
  | (_, .object schema) :: fields => do
      validateSchemaObject schema false
      validateProperties fields
  | _ :: _ => .error .invalidSchema
termination_by fields => (sizeOf fields, 0)
end

/-- A string that meets `p`. -/
def isString (p : String → Bool) : Option JSONValue → Bool
  | some (.string text) => p text
  | _ => false

def validateDocument (document : JSONValue) : Checked Unit := do
  validateFiniteJSON document
  match document with
  | .object root =>
      require (isString (unicode.same · draft202012) (field unicode root "$schema"))
      require (isString (fun identifier => (afterScheme identifier).isSome) (field unicode root "$id"))
      validateSchemaObject unicode root true
  | _ => throw .invalidSchema

end SemanticJSONSchema

/-! ## Android -/

namespace SemanticJsonSchema

abbrev Members := List (String × Json)

/-- `IllegalArgumentException("invalid schema value")`. -/
inductive SchemaError where
  | invalidSchemaValue
deriving DecidableEq

abbrev Checked := Except SchemaError

def schemaCheck (condition : Bool) : Checked Unit := if condition then .ok () else .error .invalidSchemaValue

def get (schema : Members) (key : String) : Option Json := Keyed.get id schema key

def contains (schema : Members) (key : String) : Bool := Keyed.has id schema key

/-- `equals(ignoreCase = true)` with a word of ASCII letters other than `i` and `k`: the
    long s is the one further character that folds to such a letter. -/
def equalsIgnoringCase (text word : String) : Bool :=
  text.toList.map (fun c => if c.toNat = 0x17F then 's' else c.toLower) == word.toList

/-- `booleanOrNull` reads the content of a primitive, quoted or not. -/
def booleanOrNull : Json → Option Bool
  | .bool value => some value
  | .string content =>
      if equalsIgnoringCase content "true" then some true
      else if equalsIgnoringCase content "false" then some false
      else none
  | _ => none

def nonnegativeIntOrNull : Json → Option Int
  | .integer literal => if 0 ≤ literal.value ∧ literal.value < 2 ^ 31 then some literal.value else none
  | _ => none

def decimalOrNull : Json → Option Int
  | .integer literal => if (Binary64.ofRat literal.value).isSome then some literal.value else none
  | _ => none

def string (schema : Members) (key : String) : Option String :=
  match get schema key with
  | some (.string content) => some content
  | _ => none

def validateNonnegativeInteger (value : Option Json) : Checked Unit :=
  schemaCheck (value.all fun value => (nonnegativeIntOrNull value).isSome)

/-- `min == null || max == null || min <= max`. -/
def validateOrdered (minimum maximum : Option Int) : Checked Unit :=
  schemaCheck (match minimum, maximum with
    | some minimum, some maximum => minimum ≤ maximum
    | _, _ => true)

/-- `validateArraySchema` and `validateStringSchema` after the items. -/
def validateIntegerBounds (schema : Members) (minimum maximum : String) : Checked Unit := do
  validateNonnegativeInteger (get schema minimum)
  validateNonnegativeInteger (get schema maximum)
  validateOrdered ((get schema minimum).bind nonnegativeIntOrNull) ((get schema maximum).bind nonnegativeIntOrNull)

def validateStringSchema (schema : Members) : Checked Unit := validateIntegerBounds schema "minLength" "maxLength"

def validateNumberSchema (schema : Members) : Checked Unit := do
  schemaCheck ((get schema "minimum").all fun value => (decimalOrNull value).isSome)
  schemaCheck ((get schema "maximum").all fun value => (decimalOrNull value).isSome)
  validateOrdered ((get schema "minimum").bind decimalOrNull) ((get schema "maximum").bind decimalOrNull)

/-- The names that `required` lists. -/
def requiredNames : List Json → Checked (List String)
  | [] => .ok []
  | .string name :: values => do
      let names ← requiredNames values
      return name :: names
  | _ :: _ => .error .invalidSchemaValue

def validateRequired (schema properties : Members) : Checked Unit :=
  match get schema "required" with
  | none => .ok ()
  | some (.array values) => do
      let names ← requiredNames values
      schemaCheck names.Nodup
      schemaCheck (names.all (contains properties))
  | some _ => .error .invalidSchemaValue

def declaredType (schema : Members) (isRoot : Bool) : Checked String := do
  schemaCheck (schema.all fun entry => supportedKeywords.contains entry.1)
  schemaCheck (isRoot || (!contains schema "$schema" && !contains schema "$id"))
  match string schema "type" with
  | some type =>
      schemaCheck (supportedTypes.contains type)
      return type
  | none => throw .invalidSchemaValue

def validateEnum (schema : Members) : Checked Unit :=
  match get schema "enum" with
  | none => .ok ()
  | some (.array values) => schemaCheck (!values.isEmpty)
  | some _ => .error .invalidSchemaValue

def validateForeign (schema : Members) (type : String) : Checked Unit := do
  schemaCheck (type == "object" || !objectOnly.any (contains schema))
  schemaCheck (type == "array" || !arrayOnly.any (contains schema))
  schemaCheck (type == "string" || !stringOnly.any (contains schema))
  schemaCheck (type == "integer" || type == "number" || !numberOnly.any (contains schema))

mutual
def validateSchemaObject (schema : Members) (isRoot : Bool) : Checked Unit := do
  let type ← declaredType schema isRoot
  validateEnum schema
  validateTyped schema type
  validateForeign schema type
termination_by (sizeOf schema, 1)

/-- `when (type)`, with `validateObjectSchema` and `validateArraySchema` in place. -/
def validateTyped (schema : Members) (type : String) : Checked Unit :=
  if type = "object" then do
    schemaCheck ((get schema "additionalProperties").bind booleanOrNull == some false)
    match _h : get schema "properties" with
    | none => validateRequired schema []
    | some (.object properties) =>
        validateProperties properties
        validateRequired schema properties
    | some _ => throw .invalidSchemaValue
  else if type = "array" then
    match _h : get schema "items" with
    | some (.object items) => do
        validateSchemaObject items false
        validateIntegerBounds schema "minItems" "maxItems"
    | _ => throw .invalidSchemaValue
  else if type = "string" then validateStringSchema schema
  else if type = "integer" || type = "number" then validateNumberSchema schema
  else .ok ()
termination_by (sizeOf schema, 0)
decreasing_by
  all_goals have := Json.sizeOf_lt_of_get _h
  all_goals simp only [Json.object.sizeOf_spec] at this
  all_goals left
  all_goals omega

def validateProperties : Members → Checked Unit
  | [] => .ok ()
  | (_, .object schema) :: members => do
      validateSchemaObject schema false
      validateProperties members
  | _ :: _ => .error .invalidSchemaValue
termination_by members => (sizeOf members, 0)
end

/-- `.` matches every character but these. -/
def lineTerminator (c : Char) : Bool :=
  c == '\n' || c == '\r' || c.toNat == 0x85 || c.toNat == 0x2028 || c.toNat == 0x2029

/-- `SCHEMA_URI`: `^[a-z][a-z0-9+.-]*:.*$`, matched as a whole. -/
def schemaUri (identifier : String) : Bool := (afterScheme identifier).any fun rest => !rest.any lineTerminator

/-- The content of a primitive: a number is written with digits and a sign, and no
    such text is an identifier. -/
def content : Json → Option String
  | .null => some "null"
  | .bool value => some (toString value)
  | .integer literal => some literal.text
  | .string content => some content
  | .array _ | .object _ => none

/-- `SemanticSchema.create`, on the document as it is parsed again. -/
def create : Json → Checked Unit
  | .object document => do
      schemaCheck (string document "$schema" == some draft202012)
      schemaCheck (((get document "$id").bind content).any schemaUri)
      validateSchemaObject document true
  | _ => throw .invalidSchemaValue

end SemanticJsonSchema

end AppPilotKit.Semantic
