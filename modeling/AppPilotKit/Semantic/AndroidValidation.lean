import AppPilotKit.Lib.JsonSchema
import AppPilotKit.Semantic.SchemaAgreement

/-! # Values against a schema on Android

`SemanticJsonSchema.validate` is JSON Schema but for one accessor: `booleanOrNull` reads the
content of a quoted primitive.
-/

namespace AppPilotKit.Semantic

namespace SemanticJsonSchema

/-! ## The validator -/

mutual
/-- `==` on elements: a primitive by its content, an object whatever the order of its members. -/
def equals : Json → Json → Bool
  | .null, .null => true
  | .bool value, .bool other => value == other
  | .integer literal, .integer other => literal = other
  | .string value, .string other => value == other
  | .array values, .array others => equalsValues values others
  | .object members, .object others => members.length == others.length && equalsMembers members others
  | _, _ => false

def equalsValues : List Json → List Json → Bool
  | [], [] => true
  | value :: values, other :: others => equals value other && equalsValues values others
  | _, _ => false

/-- Every member is in the other object. -/
def equalsMembers : Members → Members → Bool
  | [], _ => true
  | (name, value) :: members, others =>
      (match get others name with
        | some other => equals value other
        | none => false) && equalsMembers members others
end

/-- `longOrNull`. -/
def isInteger : Json → Bool
  | .integer literal => -(2 ^ 63) ≤ literal.value && literal.value < 2 ^ 63
  | _ => false

def validateConst (value : Json) (schema : Members) : Checked Unit :=
  schemaCheck ((get schema "const").all (equals value))

/-- `value in` the array, when the keyword is one. -/
def validateAllowed (value : Json) (schema : Members) : Checked Unit :=
  match get schema "enum" with
  | some (.array allowed) => schemaCheck (allowed.any (equals value))
  | _ => .ok ()

def validateNumericValue (value : Json) (schema : Members) : Checked Unit :=
  match decimalOrNull value with
  | none => .error .invalidSchemaValue
  | some number => do
      schemaCheck (((get schema "minimum").bind decimalOrNull).all (· ≤ number))
      schemaCheck (((get schema "maximum").bind decimalOrNull).all (number ≤ ·))

/-- The bounds on a length, a count of code points or of elements. -/
def validateCount (count : Nat) (schema : Members) (minimum maximum : String) : Checked Unit := do
  schemaCheck (((get schema minimum).bind nonnegativeIntOrNull).all (· ≤ (count : Int)))
  schemaCheck (((get schema maximum).bind nonnegativeIntOrNull).all ((count : Int) ≤ ·))

def validateStringValue (value : Json) (schema : Members) : Checked Unit :=
  match value with
  | .string text => validateCount text.length schema "minLength" "maxLength"
  | _ => .error .invalidSchemaValue

def properties (schema : Members) : Members :=
  match get schema "properties" with
  | some (.object properties) => properties
  | _ => []

/-- Each required name is one of the fields. -/
def validateRequiredNames (fields : Members) : List Json → Checked Unit
  | [] => .ok ()
  | name :: names =>
      match content name with
      | some name => do
          schemaCheck (contains fields name)
          validateRequiredNames fields names
      | none => .error .invalidSchemaValue

def validateRequiredFields (fields schema : Members) : Checked Unit :=
  match get schema "required" with
  | some (.array names) => validateRequiredNames fields names
  | _ => .ok ()

mutual
def validateValue (value : Json) (schema : Members) : Checked Unit := do
  validateConst value schema
  validateAllowed value schema
  match string schema "type" with
  | some type =>
      if type = "null" then schemaCheck (match value with
        | .null => true
        | _ => false)
      else if type = "boolean" then schemaCheck (booleanOrNull value).isSome
      else if type = "integer" then
        schemaCheck (isInteger value)
        validateNumericValue value schema
      else if type = "number" then
        schemaCheck (decimalOrNull value).isSome
        validateNumericValue value schema
      else if type = "string" then validateStringValue value schema
      else if type = "array" then
        match value with
        | .array values =>
            validateCount values.length schema "minItems" "maxItems"
            match get schema "items" with
            | some (.object items) => validateItems values items
            | _ => throw .invalidSchemaValue
        | _ => throw .invalidSchemaValue
      else if type = "object" then
        match value with
        | .object fields =>
            schemaCheck (fields.all fun field => contains (properties schema) field.1)
            validateRequiredFields fields schema
            validateFields fields (properties schema)
        | _ => throw .invalidSchemaValue
      else throw .invalidSchemaValue
  | none => throw .invalidSchemaValue

def validateItems : List Json → Members → Checked Unit
  | [], _ => .ok ()
  | value :: values, items => do
      validateValue value items
      validateItems values items

def validateFields : Members → Members → Checked Unit
  | [], _ => .ok ()
  | (name, value) :: fields, properties =>
      match get properties name with
      | some (.object schema) => do
          validateValue value schema
          validateFields fields properties
      | _ => .error .invalidSchemaValue
end

def validate (value : Json) (document : Members) : Checked Unit := validateValue value document

/-- `validateDocument`. -/
def validateDocument (document : Members) : Checked Unit := validateSchemaObject document true

/-! ## The documents and values -/

/-- Integers are 64 bits wide and none is `-0`; the names of an object are distinct. -/
def Plain : Json → Prop :=
  Json.Everywhere (fun literal => -(2 ^ 63) ≤ literal.value ∧ literal.value < 2 ^ 63 ∧ (literal.negative → literal.magnitude ≠ 0))
    (Keyed.Unambiguous id)

def PlainMembers (members : Members) : Prop := Plain (.object members)

def jsonView : JsonSchema.View Json where
  isNull value := value = .null
  boolean
    | .bool value => some value
    | _ => none
  number
    | .integer literal => some literal.value
    | _ => none
  string
    | .string text => some text
    | _ => none
  items
    | .array values => some values
    | _ => none
  members
    | .object members => some members
    | _ => none
  key := id

/-- JSON Schema, with a boolean read from a quoted primitive too. -/
def unquoting : JsonSchema.Reading Json := { jsonView.reading with boolean := booleanOrNull }

theorem PlainMembers.get {members : Members} (plain : PlainMembers members) {name : String} {value : Json}
    (found : get members name = some value) : Plain value := by
  obtain ⟨other, -, member⟩ := Keyed.mem_of_get found
  cases plain with
  | object _ all => exact all _ member

/-! ## Equality -/

theorem literal_eq {a b : Literal} (plainA : a.negative → a.magnitude ≠ 0) (plainB : b.negative → b.magnitude ≠ 0) :
    a = b ↔ a.value = b.value := by
  constructor
  · intro same
    rw [same]
  · intro same
    obtain ⟨negativeA, a⟩ := a
    obtain ⟨negativeB, b⟩ := b
    unfold Literal.value at same
    cases negativeA <;> cases negativeB <;> simp_all

theorem has_of_get {members : Members} {name : String} : contains members name = (get members name).isSome :=
  Keyed.get_isSome.symm

theorem get_of_member {members : Members} (distinct : Keyed.Unambiguous id members) {name : String} {value : Json}
    (member : (name, value) ∈ members) : get members name = some value := by
  induction members with
  | nil => cases member
  | cons first rest ih =>
      obtain ⟨apart, distinct⟩ := List.pairwise_cons.mp distinct
      unfold get Keyed.get
      rcases List.mem_cons.mp member with rfl | later
      · simp
      · have other : first.1 ≠ name := apart _ later
        rw [List.find?_cons_of_neg (by simpa using other)]
        exact ih distinct later

/-- As many distinct names, and all of them there: then the names are the same. -/
theorem same_names {members others : Members} (distinct : Keyed.Unambiguous id members) (length : members.length = others.length)
    (subset : ∀ entry ∈ members, contains others entry.1 = true) (name : String) : contains members name = contains others name := by
  have nodup : (members.map Prod.fst).Nodup := by
    rw [List.nodup_iff_pairwise_ne, List.pairwise_map]
    exact distinct
  have inside : members.map Prod.fst ⊆ others.map Prod.fst := by
    intro name member
    obtain ⟨entry, there, rfl⟩ := List.mem_map.mp member
    obtain ⟨other, found, same⟩ := Keyed.has_iff.mp (subset entry there)
    exact List.mem_map.mpr ⟨other, found, same⟩
  have perm := (List.subperm_of_subset nodup inside).perm_of_length_le (by simp [length])
  have listed (entries : Members) : contains entries name = true ↔ name ∈ entries.map Prod.fst := by
    unfold contains
    rw [Keyed.has_iff, List.mem_map]
    rfl
  rw [Bool.eq_iff_iff, listed, listed]
  exact perm.mem_iff

mutual
theorem equals_iff (value other : Json) (plain : Plain value) (plainOther : Plain other) :
    equals value other = true ↔ jsonView.Equal value other := by
  constructor
  · intro same
    cases value <;> cases other <;> simp only [equals, Bool.false_eq_true, beq_iff_eq, decide_eq_true_eq] at same
    · exact .null rfl rfl
    · exact .boolean rfl (congrArg some same.symm)
    · exact .number rfl (by rw [same]; rfl)
    · exact .string rfl (congrArg some same.symm)
    · obtain ⟨length, elements⟩ := (equalsValues_iff _ _ (Json.everywhere_array.mp plain) (Json.everywhere_array.mp plainOther)).mp same
      exact .array rfl rfl length elements
    · rw [Bool.and_eq_true, beq_iff_eq] at same
      obtain ⟨distinct, inside⟩ := Json.everywhere_object.mp plain
      obtain ⟨-, insideOther⟩ := Json.everywhere_object.mp plainOther
      have members := (equalsMembers_iff _ _ inside insideOther).mp same.2
      refine .object rfl rfl (same_names distinct same.1 fun entry member => ?_) fun name x y found there => ?_
      · obtain ⟨y, found, -⟩ := members entry member
        rw [has_of_get, found]
        rfl
      · obtain ⟨spelled, rfl, member⟩ := Keyed.mem_of_get found
        obtain ⟨z, found, equal⟩ := members _ member
        cases found.symm.trans there
        exact equal
  · intro equal
    cases equal with
    | null left right =>
        cases left
        cases right
        rfl
    | boolean left right =>
        cases value <;> cases left
        cases other <;> cases right
        simp [equals]
    | number left right =>
        cases value <;> cases left
        cases other <;> simp only [jsonView, reduceCtorEq, Option.some.injEq, Int.cast_inj] at right
        rw [equals, decide_eq_true_eq, literal_eq (Json.everywhere_integer.mp plain).2.2 (Json.everywhere_integer.mp plainOther).2.2]
        exact right.symm
    | string left right =>
        cases value <;> cases left
        cases other <;> cases right
        simp [equals]
    | array left right length elements =>
        cases value <;> cases left
        cases other <;> cases right
        rw [equals]
        exact (equalsValues_iff _ _ (Json.everywhere_array.mp plain) (Json.everywhere_array.mp plainOther)).mpr ⟨length, elements⟩
    | object left right names members =>
        rename_i xs ys
        cases value <;> cases left
        cases other <;> cases right
        obtain ⟨distinct, inside⟩ := Json.everywhere_object.mp plain
        obtain ⟨distinctOther, insideOther⟩ := Json.everywhere_object.mp plainOther
        have length {as bs : Members} (distinct : Keyed.Unambiguous id as) (names : ∀ name, contains as name = contains bs name) :
            as.length ≤ bs.length := by
          have nodup : (as.map Prod.fst).Nodup := by
            rw [List.nodup_iff_pairwise_ne, List.pairwise_map]
            exact distinct
          have inside : as.map Prod.fst ⊆ bs.map Prod.fst := by
            intro name member
            obtain ⟨entry, there, rfl⟩ := List.mem_map.mp member
            have has : contains as entry.1 = true := Keyed.has_iff.mpr ⟨entry, there, rfl⟩
            rw [names] at has
            obtain ⟨other, found, same⟩ := Keyed.has_iff.mp has
            exact List.mem_map.mpr ⟨other, found, same⟩
          simpa using (List.subperm_of_subset nodup inside).length_le
        rw [equals, Bool.and_eq_true, beq_iff_eq]
        refine ⟨Nat.le_antisymm (length distinct names) (length distinctOther fun name => (names name).symm),
          (equalsMembers_iff _ _ inside insideOther).mpr fun entry member => ?_⟩
        have there : contains ys entry.1 = true := (names entry.1).symm.trans (Keyed.has_iff.mpr ⟨entry, member, rfl⟩)
        rw [has_of_get, Option.isSome_iff_exists] at there
        obtain ⟨y, found⟩ := there
        exact ⟨y, found, members entry.1 entry.2 y (get_of_member distinct member) found⟩
termination_by sizeOf value

theorem equalsValues_iff (values others : List Json) (plain : ∀ value ∈ values, Plain value) (plainOther : ∀ other ∈ others, Plain other) :
    equalsValues values others = true ↔ values.length = others.length ∧
      ∀ (i : Nat) (x y : Json), values[i]? = some x → others[i]? = some y → jsonView.Equal x y := by
  cases values with
  | nil => cases others <;> simp [equalsValues]
  | cons value values =>
      cases others with
      | nil => simp [equalsValues]
      | cons other others =>
          obtain ⟨here, plain⟩ := List.forall_mem_cons.mp plain
          obtain ⟨hereOther, plainOther⟩ := List.forall_mem_cons.mp plainOther
          rw [equalsValues, Bool.and_eq_true, equals_iff value other here hereOther, equalsValues_iff values others plain plainOther]
          simp only [List.length_cons, Nat.add_right_cancel_iff]
          constructor
          · rintro ⟨first, length, rest⟩
            refine ⟨length, fun i x y found there => ?_⟩
            cases i with
            | zero =>
                cases found
                cases there
                exact first
            | succ i => exact rest i x y found there
          · rintro ⟨length, all⟩
            exact ⟨all 0 _ _ rfl rfl, length, fun i x y found there => all (i + 1) x y found there⟩
termination_by sizeOf values

theorem equalsMembers_iff : ∀ members others : Members, (∀ entry ∈ members, Plain entry.2) → (∀ entry ∈ others, Plain entry.2) →
    (equalsMembers members others = true ↔ ∀ entry ∈ members, ∃ other, get others entry.1 = some other ∧ jsonView.Equal entry.2 other)
  | [], others, _, _ => by simp [equalsMembers]
  | (name, value) :: members, others, plain, plainOther => by
      obtain ⟨here, plain⟩ := List.forall_mem_cons.mp plain
      rw [equalsMembers, Bool.and_eq_true, equalsMembers_iff members others plain plainOther, List.forall_mem_cons]
      refine and_congr_left fun _ => ?_
      cases found : get others name with
      | none => simp
      | some other =>
          obtain ⟨spelled, -, member⟩ := Keyed.mem_of_get found
          simp only [Option.some.injEq, exists_eq_left']
          exact equals_iff value other here (plainOther _ member)
termination_by members => sizeOf members
end

/-! ## The schemas of an accepted document -/

variable {schema : Members} {value : Json}

/-- A schema that passes, at the root or inside a document. -/
def Accepted (schema : Members) : Prop := ∃ isRoot, validateSchemaObject schema isRoot = .ok ()

theorem Accepted.checks (accepted : Accepted schema) :
    ∃ type, string schema "type" = some type ∧ type ∈ supportedTypes ∧ validateTyped schema type = .ok () ∧
      validateForeign schema type = .ok () := by
  obtain ⟨isRoot, accepted⟩ := accepted
  rw [validateSchemaObject, Checks.bind_ok] at accepted
  obtain ⟨type, isType, accepted⟩ := accepted
  rw [Checks.and_then_ok, Checks.and_then_ok] at accepted
  obtain ⟨-, -, declared, supported⟩ := android_declaredType_ok.mp isType
  exact ⟨type, declared, by simpa using supported, accepted.2.1, accepted.2.2⟩

theorem Accepted.items (accepted : Accepted schema) (declared : string schema "type" = some "array") :
    ∃ items, get schema "items" = some (.object items) ∧ Accepted items ∧
      validateIntegerBounds schema "minItems" "maxItems" = .ok () := by
  obtain ⟨type, same, -, typed, -⟩ := accepted.checks
  cases same.symm.trans declared
  rw [validateTyped, if_neg (by decide), if_pos rfl] at typed
  split at typed
  · rename_i items found
    rw [Checks.and_then_ok] at typed
    exact ⟨items, found, ⟨false, typed.1⟩, typed.2⟩
  · cases typed

/-- The schema of an object is closed; its properties are schemas and its required names strings. -/
theorem Accepted.object (accepted : Accepted schema) (declared : string schema "type" = some "object") :
    (get schema "additionalProperties").bind booleanOrNull = some false ∧
      (∀ entry ∈ properties schema, ∃ inner, entry.2 = .object inner ∧ Accepted inner) ∧
      ∀ names, get schema "required" = some (.array names) → ∃ texts : List String, names = texts.map Json.string := by
  obtain ⟨type, same, -, typed, -⟩ := accepted.checks
  cases same.symm.trans declared
  rw [validateTyped, if_pos rfl, Checks.and_then_ok, schemaCheck_ok, beq_iff_eq] at typed
  obtain ⟨closed, typed⟩ := typed
  have required {properties : Members} (valid : validateRequired schema properties = .ok ()) (names : List Json)
      (found : get schema "required" = some (.array names)) : ∃ texts : List String, names = texts.map Json.string := by
    unfold validateRequired at valid
    rw [found] at valid
    obtain ⟨texts, read, -⟩ := Checks.bind_ok.mp valid
    exact ⟨texts, (requiredNames_ok _ _).mp read⟩
  refine ⟨closed, ?_⟩
  unfold properties
  split at typed
  · rename_i absent
    rw [absent]
    exact ⟨nofun, required typed⟩
  · rename_i declared found
    rw [Checks.and_then_ok, android_properties_ok] at typed
    rw [found]
    refine ⟨fun entry member => ?_, required typed.2⟩
    obtain ⟨inner, object, valid⟩ := typed.1 entry member
    exact ⟨inner, object, false, valid⟩
  · cases typed

/-! ## One value against one schema -/

theorem keyword_string (name : String) : unquoting.keyword schema name unquoting.string = string schema name := by
  unfold JsonSchema.Reading.keyword string
  change (get schema name).bind jsonView.string = _
  cases get schema name with
  | none => rfl
  | some value => cases value <;> rfl

theorem validateConst_iff (plain : Plain value) (plainSchema : PlainMembers schema) :
    validateConst value schema = .ok () ↔
      ∀ constant, unquoting.keyword schema "const" some = some constant → unquoting.same value constant := by
  unfold validateConst JsonSchema.Reading.keyword
  change _ ↔ ∀ constant, (get schema "const").bind some = some constant → _
  rw [schemaCheck_ok]
  cases found : get schema "const" with
  | none => simp
  | some constant =>
      simp only [Option.all_some, Option.bind_some, Option.some.injEq, forall_eq']
      exact equals_iff value constant plain (plainSchema.get found)

theorem validateAllowed_iff (plain : Plain value) (plainSchema : PlainMembers schema) :
    validateAllowed value schema = .ok () ↔ ∀ allowed, unquoting.keyword schema "enum" unquoting.items = some allowed →
      ∃ constant ∈ allowed, unquoting.same value constant := by
  unfold validateAllowed JsonSchema.Reading.keyword
  change _ ↔ ∀ allowed, (get schema "enum").bind jsonView.items = some allowed → _
  cases found : get schema "enum" with
  | none => simp
  | some keyword =>
      cases keyword with
      | array allowed =>
          have inside := Json.everywhere_array.mp (plainSchema.get found)
          simp only [Option.bind_some, jsonView, Option.some.injEq, forall_eq']
          rw [schemaCheck_ok, List.any_eq_true]
          exact exists_congr fun constant => and_congr_right fun member =>
            equals_iff value constant plain (inside constant member)
      | null | bool | integer | string | object => simp [jsonView]

theorem nonnegativeIntOrNull_number {value : Json} {bound : Int} (read : nonnegativeIntOrNull value = some bound) :
    jsonView.number value = some (bound : ℚ) := by
  cases value with
  | integer literal =>
      simp only [nonnegativeIntOrNull] at read
      split_ifs at read
      cases read
      rfl
  | null | bool | string | array | object => cases read

theorem decimalOrNull_number {value : Json} {bound : Int} (read : decimalOrNull value = some bound) :
    jsonView.number value = some (bound : ℚ) := by
  cases value with
  | integer literal =>
      simp only [decimalOrNull] at read
      split_ifs at read
      cases read
      rfl
  | null | bool | string | array | object => cases read

/-- A bound that the document check let through is the number that it says. -/
theorem bound_iff {read : Json → Option Int} (number : ∀ {value n}, read value = some n → jsonView.number value = some (n : ℚ))
    {name : String} (valid : (get schema name).all (fun value => (read value).isSome) = true) {p : Int → Bool} {P : ℚ → Prop}
    (same : ∀ n : Int, p n = true ↔ P n) :
    ((get schema name).bind read).all p = true ↔ ∀ bound, unquoting.keyword schema name unquoting.number = some bound → P bound := by
  unfold JsonSchema.Reading.keyword
  change _ ↔ ∀ bound, (get schema name).bind jsonView.number = some bound → _
  cases found : get schema name with
  | none => simp
  | some value =>
      rw [found, Option.all_some, Option.isSome_iff_exists] at valid
      obtain ⟨bound, known⟩ := valid
      simp [known, number known, same]

theorem validateCount_iff {minimum maximum : String} (valid : validateIntegerBounds schema minimum maximum = .ok ()) (count : Nat) :
    validateCount count schema minimum maximum = .ok () ↔
      (∀ bound, unquoting.keyword schema minimum unquoting.number = some bound → bound ≤ (count : ℚ)) ∧
        ∀ bound, unquoting.keyword schema maximum unquoting.number = some bound → (count : ℚ) ≤ bound := by
  unfold validateIntegerBounds at valid
  rw [Checks.and_then_ok, Checks.and_then_ok] at valid
  unfold validateCount
  rw [Checks.and_then_ok, schemaCheck_ok, schemaCheck_ok]
  refine and_congr ?_ ?_
  · refine bound_iff nonnegativeIntOrNull_number (schemaCheck_ok.mp valid.1) fun n => ?_
    rw [decide_eq_true_iff]
    exact_mod_cast Iff.rfl
  · refine bound_iff nonnegativeIntOrNull_number (schemaCheck_ok.mp valid.2.1) fun n => ?_
    rw [decide_eq_true_iff]
    exact_mod_cast Iff.rfl

theorem validateNumericValue_iff (valid : validateNumberSchema schema = .ok ()) {literal : Literal}
    (read : decimalOrNull (.integer literal) = some literal.value) :
    validateNumericValue (.integer literal) schema = .ok () ↔
      (∀ bound, unquoting.keyword schema "minimum" unquoting.number = some bound → bound ≤ (literal.value : ℚ)) ∧
        ∀ bound, unquoting.keyword schema "maximum" unquoting.number = some bound → (literal.value : ℚ) ≤ bound := by
  unfold validateNumberSchema at valid
  rw [Checks.and_then_ok, Checks.and_then_ok, schemaCheck_ok, schemaCheck_ok] at valid
  unfold validateNumericValue
  rw [read]
  dsimp only
  rw [Checks.and_then_ok, schemaCheck_ok, schemaCheck_ok]
  refine and_congr ?_ ?_
  · refine bound_iff decimalOrNull_number valid.1 fun n => ?_
    rw [decide_eq_true_iff]
    exact_mod_cast Iff.rfl
  · refine bound_iff decimalOrNull_number valid.2.1 fun n => ?_
    rw [decide_eq_true_iff]
    exact_mod_cast Iff.rfl

/-- A 64-bit integer is finite as a `Double`. -/
theorem decimalOrNull_plain {literal : Literal} (low : -(2 ^ 63) ≤ literal.value) (high : literal.value < 2 ^ 63) :
    decimalOrNull (.integer literal) = some literal.value := by
  unfold decimalOrNull
  refine if_pos (Binary64.ofRat_isSome_of_le ?_)
  rw [abs_le]
  constructor
  · exact_mod_cast low
  · exact_mod_cast high.le

theorem validateItems_ok {values : List Json} {items : Members} :
    validateItems values items = .ok () ↔ ∀ value ∈ values, validateValue value items = .ok () := by
  induction values with
  | nil => simp [validateItems]
  | cons value values ih => rw [validateItems, Checks.and_then_ok, ih, List.forall_mem_cons]

theorem validateFields_ok {fields declared : Members} :
    validateFields fields declared = .ok () ↔ ∀ entry ∈ fields, ∃ inner, get declared entry.1 = some (.object inner) ∧
      validateValue entry.2 inner = .ok () := by
  induction fields with
  | nil => simp [validateFields]
  | cons entry fields ih =>
      obtain ⟨name, value⟩ := entry
      rw [validateFields, List.forall_mem_cons, ← ih]
      split
      · rename_i inner found
        rw [Checks.and_then_ok, found]
        simp
      · rename_i other
        constructor
        · intro failed
          cases failed
        · rintro ⟨⟨inner, found, -⟩, -⟩
          exact absurd found (other inner)

theorem validateRequiredNames_ok {fields : Members} {texts : List String} :
    validateRequiredNames fields (texts.map Json.string) = .ok () ↔ ∀ text ∈ texts, contains fields text = true := by
  induction texts with
  | nil => simp [validateRequiredNames]
  | cons text texts ih =>
      rw [List.map_cons, validateRequiredNames, content]
      dsimp only
      rw [Checks.and_then_ok, schemaCheck_ok, ih, List.forall_mem_cons]

/-! ## Limits of an object -/

theorem declared_eq : unquoting.declared schema = properties schema := by
  unfold JsonSchema.Reading.declared JsonSchema.Reading.keyword properties
  change ((get schema "properties").bind jsonView.members).getD [] = _
  cases get schema "properties" with
  | none => rfl
  | some value => cases value <;> rfl

/-- The schema of an object is closed, so it asks for the required names and for no others than its own. -/
theorem limits_object {fields : Members} (closed : (get schema "additionalProperties").bind booleanOrNull = some false) :
    unquoting.Limits schema (.object fields) ↔
      (∀ names, get schema "required" = some (.array names) → ∀ name, .string name ∈ names → contains fields name = true) ∧
        ∀ field ∈ fields, contains (properties schema) field.1 = true := by
  have asks (names : List Json) : unquoting.keyword schema "required" unquoting.items = some names ↔
      get schema "required" = some (.array names) := by
    change (get schema "required").bind jsonView.items = some names ↔ _
    cases get schema "required" with
    | none => simp
    | some value => cases value <;> simp [jsonView]
  have shut : unquoting.keyword schema "additionalProperties" unquoting.boolean = some false := closed
  have members : unquoting.members (.object fields) = some fields := rfl
  rw [JsonSchema.Reading.limits_members rfl rfl rfl members shut, declared_eq]
  simp only [asks]
  refine and_congr_left fun _ => forall₂_congr fun names _ => ?_
  constructor
  · exact fun all name member => all _ member name rfl
  · intro all element member name spelled
    cases element <;> cases spelled
    exact all name member

/-! ## The validator is the unquoting reading -/

theorem keyword_members (name : String) (inner : Members) :
    unquoting.keyword schema name unquoting.members = some inner ↔ get schema name = some (.object inner) := by
  change (get schema name).bind jsonView.members = some inner ↔ _
  cases get schema name with
  | none => simp
  | some value => cases value <;> simp [jsonView]

/-- Beside its constants, a value is of the declared type, within the limits, and its
    parts conform. -/
def Fits (schema : Members) (type : String) (value : Json) : Prop :=
  unquoting.HasType type value ∧ unquoting.Limits schema value ∧
    (∀ inner elements, get schema "items" = some (.object inner) → value = .array elements →
      ∀ element ∈ elements, unquoting.Conforms inner element) ∧
    ∀ members, value = .object members → ∀ member ∈ members, ∀ inner,
      get (properties schema) member.1 = some (.object inner) → unquoting.Conforms inner member.2

theorem conforms_fits {type : String} (declared : string schema "type" = some type) :
    unquoting.Conforms schema value ↔
      (∀ constant, unquoting.keyword schema "const" some = some constant → unquoting.same value constant) ∧
      (∀ allowed, unquoting.keyword schema "enum" unquoting.items = some allowed →
        ∃ constant ∈ allowed, unquoting.same value constant) ∧ Fits schema type value := by
  have items (elements : List Json) : unquoting.items value = some elements ↔ value = .array elements := by
    cases value <;> simp [unquoting, jsonView, JsonSchema.View.reading]
  have members (members : Members) : unquoting.members value = some members ↔ value = .object members := by
    cases value <;> simp [unquoting, jsonView, JsonSchema.View.reading]
  have child (name : String) (inner : Members) : unquoting.keyword (properties schema) name unquoting.members = some inner ↔
      get (properties schema) name = some (.object inner) := keyword_members name inner
  unfold Fits
  rw [JsonSchema.Reading.conforms_iff, declared_eq]
  simp only [keyword_members, child, items, members]
  constructor
  · rintro ⟨asserts, elements, children⟩
    exact ⟨asserts.const, asserts.enum, asserts.type type (keyword_string _ |>.trans declared), asserts.limits, elements, children⟩
  · rintro ⟨const, enum, hasType, limits, elements, children⟩
    refine ⟨⟨fun other asks => ?_, const, enum, limits⟩, elements, children⟩
    cases ((keyword_string "type").symm.trans asks).symm.trans declared
    exact hasType

theorem fits_null : Fits schema "null" value ↔ value = .null := by
  constructor
  · rintro ⟨hasType, -⟩
    simpa [JsonSchema.Reading.HasType, unquoting, jsonView, JsonSchema.View.reading] using hasType
  · rintro rfl
    exact ⟨.inl ⟨rfl, rfl⟩, JsonSchema.Reading.limits_plain rfl rfl rfl rfl, nofun, nofun⟩

/-- A schema for booleans has no bounds on lengths, so a quoted boolean passes it. -/
theorem fits_boolean (foreign : validateForeign schema "boolean" = .ok ()) :
    Fits schema "boolean" value ↔ (booleanOrNull value).isSome = true := by
  constructor
  · rintro ⟨hasType, -⟩
    simpa [JsonSchema.Reading.HasType, unquoting] using hasType
  · intro reads
    refine ⟨.inr (.inl ⟨rfl, reads⟩), ?_, ?_, ?_⟩
    · cases value with
      | bool => exact JsonSchema.Reading.limits_plain rfl rfl rfl rfl
      | string text =>
          unfold validateForeign at foreign
          rw [Checks.and_then_ok, Checks.and_then_ok, Checks.and_then_ok] at foreign
          have bare : ∀ key ∈ stringOnly, get schema key = none := by
            have none_ := schemaCheck_ok.mp foreign.2.2.1
            intro key member
            have absent : contains schema key = false := by
              by_contra there
              have some_ := List.any_eq_true.mpr ⟨key, member, by simpa using there⟩
              rw [some_] at none_
              cases none_
            rw [has_of_get] at absent
            simpa using absent
          have min : get schema "minLength" = none := bare _ (by decide)
          have max : get schema "maxLength" = none := bare _ (by decide)
          refine (JsonSchema.Reading.limits_string rfl rfl rfl rfl).mpr ⟨fun bound asks => ?_, fun bound asks => ?_⟩
          · change (get schema "minLength").bind jsonView.number = some bound at asks
            rw [min] at asks
            cases asks
          · change (get schema "maxLength").bind jsonView.number = some bound at asks
            rw [max] at asks
            cases asks
      | null | integer | array | object => cases reads
    · rintro inner elements - rfl
      cases reads
    · rintro members rfl
      cases reads

theorem fits_number {type : String} (numeric : type = "integer" ∨ type = "number") (plain : Plain value)
    (valid : validateNumberSchema schema = .ok ()) :
    Fits schema type value ↔ ∃ literal, value = .integer literal ∧ validateNumericValue value schema = .ok () := by
  constructor
  · rintro ⟨hasType, limits, -⟩
    cases value with
    | integer literal =>
        have range := Json.everywhere_integer.mp plain
        exact ⟨literal, rfl, (validateNumericValue_iff valid (decimalOrNull_plain range.1 range.2.1)).mpr ((JsonSchema.Reading.limits_number rfl rfl rfl rfl).mp limits)⟩
    | null | bool | string | array | object =>
        rcases numeric with rfl | rfl <;>
          simp [JsonSchema.Reading.HasType, unquoting, jsonView, JsonSchema.View.reading] at hasType
  · rintro ⟨literal, rfl, passes⟩
    have range := Json.everywhere_integer.mp plain
    refine ⟨?_, (JsonSchema.Reading.limits_number rfl rfl rfl rfl).mpr ((validateNumericValue_iff valid (decimalOrNull_plain range.1 range.2.1)).mp passes),
      nofun, nofun⟩
    rcases numeric with rfl | rfl
    · exact .inr (.inr (.inl ⟨rfl, literal.value, rfl⟩))
    · exact .inr (.inr (.inr (.inl ⟨rfl, rfl⟩)))

theorem fits_string (valid : validateStringSchema schema = .ok ()) :
    Fits schema "string" value ↔ validateStringValue value schema = .ok () := by
  constructor
  · rintro ⟨hasType, limits, -⟩
    cases value with
    | string text => exact (validateCount_iff valid text.length).mpr ((JsonSchema.Reading.limits_string rfl rfl rfl rfl).mp limits)
    | null | bool | integer | array | object =>
        simp [JsonSchema.Reading.HasType, unquoting, jsonView, JsonSchema.View.reading] at hasType
  · intro passes
    cases value with
    | string text =>
        exact ⟨.inr (.inr (.inr (.inr (.inl ⟨rfl, rfl⟩)))), (JsonSchema.Reading.limits_string rfl rfl rfl rfl).mpr ((validateCount_iff valid text.length).mp passes),
          nofun, nofun⟩
    | null | bool | integer | array | object => cases passes

theorem fits_array {items : Members} (found : get schema "items" = some (.object items))
    (valid : validateIntegerBounds schema "minItems" "maxItems" = .ok ()) :
    Fits schema "array" value ↔ ∃ values, value = .array values ∧ validateCount values.length schema "minItems" "maxItems" = .ok () ∧
      ∀ element ∈ values, unquoting.Conforms items element := by
  constructor
  · rintro ⟨hasType, limits, elements, -⟩
    cases value with
    | array values => exact ⟨values, rfl, (validateCount_iff valid values.length).mpr ((JsonSchema.Reading.limits_items rfl rfl rfl rfl).mp limits), elements _ _ found rfl⟩
    | null | bool | integer | string | object =>
        simp [JsonSchema.Reading.HasType, unquoting, jsonView, JsonSchema.View.reading] at hasType
  · rintro ⟨values, rfl, counted, elements⟩
    refine ⟨.inr (.inr (.inr (.inr (.inr (.inl ⟨rfl, rfl⟩))))), (JsonSchema.Reading.limits_items rfl rfl rfl rfl).mpr ((validateCount_iff valid values.length).mp counted),
      ?_, nofun⟩
    rintro inner _ other ⟨⟩
    cases found.symm.trans other
    exact elements

theorem fits_object (accepted : Accepted schema) (declared : string schema "type" = some "object") :
    Fits schema "object" value ↔ ∃ fields, value = .object fields ∧
      (∀ field ∈ fields, contains (properties schema) field.1 = true) ∧ validateRequiredFields fields schema = .ok () ∧
      ∀ field ∈ fields, ∀ inner, get (properties schema) field.1 = some (.object inner) → unquoting.Conforms inner field.2 := by
  obtain ⟨closed, -, names⟩ := accepted.object declared
  have required (fields : Members) : validateRequiredFields fields schema = .ok () ↔
      ∀ names, get schema "required" = some (.array names) → ∀ name, .string name ∈ names → contains fields name = true := by
    unfold validateRequiredFields
    split
    · rename_i listed found
      obtain ⟨texts, rfl⟩ := names listed found
      rw [validateRequiredNames_ok]
      constructor
      · intro all others same name member
        cases found.symm.trans same
        exact all name (by simpa using member)
      · exact fun all text member => all _ found text (List.mem_map.mpr ⟨text, member, rfl⟩)
    · rename_i other
      exact ⟨fun _ names found => absurd found (other names), fun _ => rfl⟩
  constructor
  · rintro ⟨hasType, limits, -, children⟩
    cases value with
    | object fields =>
        obtain ⟨all, only⟩ := (limits_object closed).mp limits
        exact ⟨fields, rfl, only, (required fields).mpr all, children fields rfl⟩
    | null | bool | integer | string | array =>
        simp [JsonSchema.Reading.HasType, unquoting, jsonView, JsonSchema.View.reading] at hasType
  · rintro ⟨fields, rfl, only, all, children⟩
    refine ⟨.inr (.inr (.inr (.inr (.inr (.inr ⟨rfl, rfl⟩))))), (limits_object closed).mpr ⟨(required fields).mp all, only⟩, nofun, ?_⟩
    rintro _ ⟨⟩
    exact children

theorem validateValue_iff (value : Json) (schema : Members) (plain : Plain value) (plainSchema : PlainMembers schema)
    (accepted : Accepted schema) : validateValue value schema = .ok () ↔ unquoting.Conforms schema value := by
  induction size : sizeOf value using Nat.strong_induction_on generalizing value schema with
  | _ n ih =>
  obtain ⟨type, declared, known, typed, foreign⟩ := accepted.checks
  rw [validateValue.eq_def, Checks.and_then_ok, Checks.and_then_ok, validateConst_iff plain plainSchema,
    validateAllowed_iff plain plainSchema, conforms_fits declared]
  refine and_congr_right fun _ => and_congr_right fun _ => ?_
  have numeric (type : String) (isType : type = "integer" ∨ type = "number") (valid : validateNumberSchema schema = .ok ()) :
      Fits schema type value ↔ (∃ literal, value = .integer literal) ∧ validateNumericValue value schema = .ok () := by
    rw [fits_number isType plain valid, exists_and_right]
  simp only [declared]
  simp only [supportedTypes, List.mem_cons, List.not_mem_nil, or_false] at known
  rcases known with rfl | rfl | rfl | rfl | rfl | rfl | rfl
  · rw [fits_null]
    cases value <;> simp [schemaCheck]
  · rw [fits_boolean foreign, ← schemaCheck_ok]
    rfl
  · have valid : validateNumberSchema schema = .ok () := by simpa [validateTyped] using typed
    rw [numeric _ (.inl rfl) valid]
    simp only [String.reduceEq, if_false, if_true]
    rw [Checks.and_then_ok, schemaCheck_ok]
    refine and_congr_left fun _ => ?_
    cases value with
    | integer literal =>
        have range := Json.everywhere_integer.mp plain
        have inside : isInteger (.integer literal) = true := by
          unfold isInteger
          rw [Bool.and_eq_true, decide_eq_true_iff, decide_eq_true_iff]
          exact ⟨range.1, range.2.1⟩
        simp [inside]
    | null | bool | string | array | object => simp [isInteger]
  · have valid : validateNumberSchema schema = .ok () := by simpa [validateTyped] using typed
    rw [numeric _ (.inr rfl) valid]
    simp only [String.reduceEq, if_false, if_true]
    rw [Checks.and_then_ok, schemaCheck_ok]
    refine and_congr_left fun _ => ?_
    cases value with
    | integer literal =>
        have range := Json.everywhere_integer.mp plain
        simp [decimalOrNull_plain range.1 range.2.1]
    | null | bool | string | array | object => simp [decimalOrNull]
  · have valid : validateStringSchema schema = .ok () := by simpa [validateTyped] using typed
    rw [fits_string valid]
    rfl
  · obtain ⟨items, found, inner, valid⟩ := accepted.items declared
    rw [fits_array found valid]
    cases value with
    | array values =>
        simp only [String.reduceEq, if_false, if_true, found, Json.array.injEq, exists_eq_left']
        rw [Checks.and_then_ok, validateItems_ok]
        refine and_congr_right fun _ => forall₂_congr fun element member => ?_
        have smaller := List.sizeOf_lt_of_mem member
        simp only [Json.array.sizeOf_spec] at size
        exact ih _ (by omega) element items (Json.everywhere_array.mp plain element member) (plainSchema.get found) inner rfl
    | null | bool | integer | string | object => simp [throw, throwThe, MonadExceptOf.throw]
  · rw [fits_object accepted declared]
    cases value with
    | object fields =>
        obtain ⟨-, inside⟩ := Json.everywhere_object.mp plain
        simp only [String.reduceEq, if_false, if_true, Json.object.injEq, exists_eq_left']
        rw [Checks.and_then_ok, Checks.and_then_ok, schemaCheck_ok, List.all_eq_true, validateFields_ok]
        refine and_congr_right fun only => and_congr_right fun _ => forall₂_congr fun field member => ?_
        have smaller := List.sizeOf_lt_of_mem member
        simp only [Json.object.sizeOf_spec] at size
        have small : sizeOf field.2 < sizeOf field := by
          obtain ⟨name, part⟩ := field
          simp only [Prod.mk.sizeOf_spec]
          omega
        have there := only field member
        rw [has_of_get, Option.isSome_iff_exists] at there
        obtain ⟨part, found⟩ := there
        obtain ⟨other, same, listed⟩ := Keyed.mem_of_get found
        obtain ⟨inner, rfl, valid⟩ := (accepted.object declared).2.1 _ listed
        have plainProperties : PlainMembers (properties schema) := by
          unfold properties
          split
          · rename_i declared found
            exact plainSchema.get found
          · exact .object .nil fun _ member => absurd member List.not_mem_nil
        have step := ih _ (by omega) field.2 inner (inside field member) (plainProperties.get found) valid rfl
        simp only [found, Option.some.injEq, Json.object.injEq, exists_eq_left', forall_eq']
        exact step
    | null | bool | integer | string | array => simp [throw, throwThe, MonadExceptOf.throw]

/-! ## Where the unquoting reading is JSON Schema -/

variable {document inner : Members} {part : Json}

theorem applies_unquoting : unquoting.Applies document value inner part ↔ jsonView.reading.Applies document value inner part := by
  constructor
  · intro applies
    induction applies with
    | root => exact .root
    | item _ subschema array member ih => exact ih.item subschema array member
    | property _ object among subschema ih => exact ih.property object among subschema
  · intro applies
    induction applies with
    | root => exact .root
    | item _ subschema array member ih => exact ih.item subschema array member
    | property _ object among subschema ih => exact ih.property object among subschema

/-- A string that spells a boolean stands where the document asks for a boolean. -/
def QuotesBoolean (document : Members) (value : Json) : Prop :=
  ∃ inner text, jsonView.reading.Applies document value inner (.string text) ∧ string inner "type" = some "boolean" ∧
    (booleanOrNull (.string text)).isSome = true

/-- An object has a member that its schema does not declare. -/
def HasUndeclared (document : Members) (value : Json) : Prop :=
  ∃ inner fields, jsonView.reading.Applies document value inner (.object fields) ∧
    ∃ field ∈ fields, contains (properties inner) field.1 = false

theorem accepted_below (accepted : Accepted document) (conforms : unquoting.Conforms document value)
    (applies : unquoting.Applies document value inner part) : Accepted inner := by
  induction applies with
  | root => exact accepted
  | @item schema inner value element elements applies subschema array member ih =>
      obtain ⟨type, declared, -, -, -⟩ := ih.checks
      have hasType := (conforms _ _ applies).type type (keyword_string _ |>.trans declared)
      cases value <;> cases array
      have isArray : type = "array" := by
        simpa [JsonSchema.Reading.HasType, unquoting, jsonView, JsonSchema.View.reading, booleanOrNull] using hasType
      obtain ⟨items, found, inside, -⟩ := ih.items (isArray ▸ declared)
      cases ((keyword_members "items" inner).mp subschema).symm.trans found
      exact inside
  | @property schema inner members value member applies object among subschema ih =>
      obtain ⟨type, declared, -, -, -⟩ := ih.checks
      have hasType := (conforms _ _ applies).type type (keyword_string _ |>.trans declared)
      cases value <;> cases object
      have isObject : type = "object" := by
        simpa [JsonSchema.Reading.HasType, unquoting, jsonView, JsonSchema.View.reading, booleanOrNull] using hasType
      rw [declared_eq] at subschema
      have found := (keyword_members _ _).mp subschema
      obtain ⟨name, -, listed⟩ := Keyed.mem_of_get found
      obtain ⟨other, same, inside⟩ := (ih.object (isObject ▸ declared)).2.1 _ listed
      cases same
      exact inside

theorem reads_boolean {value : Json} {truth : Bool} (plain : jsonView.boolean value = some truth) :
    booleanOrNull value = some truth := by
  cases value <;> cases plain
  rfl

theorem genuine_of_unquoting (conforms : unquoting.Conforms document value) (unquoted : ¬ QuotesBoolean document value) :
    jsonView.reading.Conforms document value := by
  intro inner part applies
  obtain ⟨hasType, const, enum, limits⟩ := conforms inner part (applies_unquoting.mpr applies)
  refine ⟨fun type declared => ?_, const, enum, { limits with additionalProperties := ?_ }⟩
  · rcases hasType type declared with null | ⟨rfl, reads⟩ | other
    · exact .inl null
    · cases part with
      | bool => exact .inr (.inl ⟨rfl, rfl⟩)
      | string text =>
          exact absurd ⟨inner, text, applies, (keyword_string "type").symm.trans declared, reads⟩ unquoted
      | null | integer | array | object => cases reads
    · exact .inr (.inr other)
  · intro allowed members keyword object closed
    refine limits.additionalProperties allowed members ?_ object closed
    obtain ⟨asked, found, plain⟩ := Option.bind_eq_some_iff.mp keyword
    exact Option.bind_eq_some_iff.mpr ⟨asked, found, reads_boolean plain⟩

theorem unquoted_of_genuine (conforms : jsonView.reading.Conforms document value) : ¬ QuotesBoolean document value := by
  rintro ⟨inner, text, applies, declared, -⟩
  have hasType := (conforms _ _ applies).type "boolean" ((keyword_string "type").trans declared)
  simp [JsonSchema.Reading.HasType, jsonView, JsonSchema.View.reading] at hasType

theorem unquoting_of_genuine (conforms : jsonView.reading.Conforms document value) (declares : ¬ HasUndeclared document value) :
    unquoting.Conforms document value := by
  intro inner part applies
  have there := applies_unquoting.mp applies
  obtain ⟨hasType, const, enum, limits⟩ := conforms inner part there
  refine ⟨fun type declared => ?_, const, enum, { limits with additionalProperties := ?_ }⟩
  · rcases hasType type declared with null | ⟨rfl, genuine⟩ | other
    · exact .inl null
    · obtain ⟨truth, plain⟩ := Option.isSome_iff_exists.mp genuine
      exact .inr (.inl ⟨rfl, Option.isSome_iff_exists.mpr ⟨truth, reads_boolean plain⟩⟩)
    · exact .inr (.inr other)
  · intro _ members _ object _ member among
    cases part <;> cases object
    rw [declared_eq]
    by_contra missing
    exact declares ⟨inner, members, there, member, among, Bool.eq_false_iff.mpr missing⟩

theorem declares_of_unquoting (accepted : Accepted document) (conforms : unquoting.Conforms document value) :
    ¬ HasUndeclared document value := by
  rintro ⟨inner, fields, applies, field, member, missing⟩
  have there := applies_unquoting.mpr applies
  have inside := accepted_below accepted conforms there
  obtain ⟨type, declared, -, -, -⟩ := inside.checks
  have hasType := (conforms _ _ there).type type (keyword_string _ |>.trans declared)
  have isObject : type = "object" := by
    simpa [JsonSchema.Reading.HasType, unquoting, jsonView, JsonSchema.View.reading, booleanOrNull] using hasType
  have only := ((limits_object (inside.object (isObject ▸ declared)).1).mp (conforms _ _ there).limits).2
  rw [only field member] at missing
  cases missing

/-- The validator accepts what conforms, unless it takes a quoted boolean for one in a value
    that is fine otherwise, or closes an object whose schema quotes `additionalProperties`. -/
theorem validates_schema_iff (document : Members) (value : Json) (plainDocument : PlainMembers document) (plain : Plain value)
    (accepted : validateDocument document = .ok ()) :
    (validate value document = .ok () ↔ jsonView.reading.Conforms document value) ↔
      (QuotesBoolean document value → ¬ unquoting.Conforms document value) ∧
        (HasUndeclared document value → ¬ jsonView.reading.Conforms document value) := by
  have inside : Accepted document := ⟨true, accepted⟩
  unfold validate
  rw [validateValue_iff value document plain plainDocument inside]
  constructor
  · intro same
    refine ⟨fun quotes conforms => ?_, fun undeclared conforms => ?_⟩
    · exact unquoted_of_genuine (same.mp conforms) quotes
    · exact declares_of_unquoting inside (same.mpr conforms) undeclared
  · rintro ⟨quotes, undeclared⟩
    constructor
    · exact fun conforms => genuine_of_unquoting conforms fun quoted => quotes quoted conforms
    · exact fun conforms => unquoting_of_genuine conforms fun extra => undeclared extra conforms

def switch : Members :=
  [("$schema", .string draft202012), ("$id", .string "schema:switch"), ("type", .string "boolean")]

theorem switch_accepted : PlainMembers switch ∧ validateDocument switch = .ok () := by
  constructor
  · refine .object (by unfold Keyed.Unambiguous; decide) fun entry member => ?_
    simp only [switch, List.mem_cons, List.not_mem_nil, or_false] at member
    rcases member with rfl | rfl | rfl <;> exact .string _
  · rw [validateDocument, validateSchemaObject, Checks.bind_ok]
    refine ⟨"boolean", by decide, ?_⟩
    rw [Checks.and_then_ok, Checks.and_then_ok, validateTyped]
    exact ⟨rfl, rfl, rfl⟩

/-- The string `"true"` passes for a boolean. -/
theorem quoted_boolean_passes :
    PlainMembers switch ∧ Plain (.string "true") ∧ validateDocument switch = .ok () ∧ validate (.string "true") switch = .ok () ∧
      ¬ jsonView.reading.Conforms switch (.string "true") := by
  refine ⟨switch_accepted.1, .string _, switch_accepted.2, rfl, fun conforms => ?_⟩
  exact unquoted_of_genuine conforms ⟨switch, "true", .root, rfl, rfl⟩

theorem genuine_boolean_validates : validate (.bool true) switch = .ok () ∧ jsonView.reading.Conforms switch (.bool true) := by
  have exact_ := validates_schema_iff switch (.bool true) switch_accepted.1 (.bool _) switch_accepted.2
  have lone {inner : Members} {part : Json} (applies : jsonView.reading.Applies switch (.bool true) inner part) : part = .bool true := by
    induction applies with
    | root => rfl
    | item _ _ array _ ih =>
        rw [ih] at array
        cases array
    | property _ object _ _ ih =>
        rw [ih] at object
        cases object
  refine ⟨rfl, (exact_.mpr ⟨?_, ?_⟩).mp rfl⟩
  · rintro ⟨inner, text, applies, -⟩
    cases lone applies
  · rintro ⟨inner, fields, applies, -⟩
    cases lone applies

end SemanticJsonSchema

end AppPilotKit.Semantic
