import AppPilotKit.Lib.Checks
import AppPilotKit.Semantic.Schema

/-! # Where the two schema validators agree

At each schema object the validators make the same checks but for four: the spelling of
`additionalProperties`, the keywords of other types beside `"type": "object"`, the
spelling of required names and the characters after the scheme of `$id`.
-/

namespace AppPilotKit.Semantic

open Snapshot (JSONValue)
open SemanticJsonSchema (Members)

variable (unicode : Normalization)

/-! ## Documents -/

/-- A document that exists on both platforms: its numbers are 32-bit integers, and its
    objects have nonempty names that Swift keeps apart. -/
def Proper : Json → Prop :=
  Json.Everywhere (fun literal => -(2 ^ 31) ≤ literal.value ∧ literal.value < 2 ^ 31)
    (fun members => Keyed.Unambiguous unicode.nfc members ∧ ∀ entry ∈ members, entry.1 ≠ "")

def ProperMembers (members : Members) : Prop := Proper unicode (.object members)

variable {unicode} {schema : Members}

theorem ProperMembers.get (proper : ProperMembers unicode schema) {key : String} {value : Json}
    (found : SemanticJsonSchema.get schema key = some value) : Proper unicode value := by
  obtain ⟨other, -, member⟩ := Keyed.mem_of_get found
  cases proper with
  | object _ all => exact all _ member

theorem Proper.finite {json : Json} (proper : Proper unicode json) : validateFiniteJSON (decode unicode json) = .ok () := by
  induction proper with
  | null | bool | string => rfl
  | integer meets =>
      unfold decode decodeNumber
      rw [if_pos ⟨by omega, by omega⟩]
      rfl
  | array _ ih =>
      rw [decode, decodeValues_eq, validateFiniteJSON, validateFiniteValues_ok]
      intro value member
      obtain ⟨json, inside, rfl⟩ := List.mem_map.mp member
      exact ih json inside
  | object meets _ ih =>
      rw [decode_object unicode meets.1, validateFiniteJSON, validateFiniteFields_ok]
      intro entry member
      obtain ⟨json, inside, rfl⟩ := List.mem_map.mp member
      exact ⟨meets.2 json inside, ih json inside⟩

/-! ## Members on both platforms -/

/-- The members as iOS has them. -/
def decoded (unicode : Normalization) (schema : Members) : SemanticJSONSchema.Fields :=
  schema.map fun entry => (entry.1, decode unicode entry.2)

theorem ProperMembers.decode (proper : ProperMembers unicode schema) :
    Semantic.decode unicode (.object schema) = .object (decoded unicode schema) := by
  cases proper with
  | object meets _ => exact decode_object unicode meets.1

theorem field_decoded {key : String} (plain : key.toList.all plainCharacter = true) :
    SemanticJSONSchema.field unicode (decoded unicode schema) key =
      (SemanticJsonSchema.get schema key).map (Semantic.decode unicode) := by
  unfold SemanticJSONSchema.field SemanticJsonSchema.get decoded
  rw [Keyed.get_map, Keyed.get_spelled]
  intro other
  simpa [Normalization.same] using unicode.same_plain plain other

theorem hasAny_decoded {keywords : List String} (plain : ∀ key ∈ keywords, key.toList.all plainCharacter = true) :
    SemanticJSONSchema.hasAny unicode (decoded unicode schema) keywords =
      keywords.any (SemanticJsonSchema.contains schema) := by
  unfold SemanticJSONSchema.hasAny
  rw [Bool.eq_iff_iff, List.any_eq_true, List.any_eq_true]
  refine exists_congr fun key => and_congr_right fun member => ?_
  rw [field_decoded (plain key member), Option.isSome_map]
  unfold SemanticJsonSchema.get SemanticJsonSchema.contains
  rw [Keyed.get_isSome]

theorem require_ok {condition : Bool} : SemanticJSONSchema.require condition = .ok () ↔ condition = true :=
  Checks.guard_ok

theorem schemaCheck_ok {condition : Bool} : SemanticJsonSchema.schemaCheck condition = .ok () ↔ condition = true :=
  Checks.guard_ok

/-! ## The checks that are the same -/

theorem any_same {names : List String} (plain : ∀ key ∈ names, key.toList.all plainCharacter = true) (name : String) :
    names.any (unicode.same name) = names.contains name := by
  rw [Bool.eq_iff_iff, List.any_eq_true, List.contains_iff_mem]
  constructor
  · rintro ⟨key, member, same⟩
    rw [(unicode.same_plain (plain key member) name).mp same]
    exact member
  · intro member
    exact ⟨name, member, (unicode.same_plain (plain name member) name).mpr rfl⟩

theorem decode_eq_string {value : Json} {text : String} : decode unicode value = .string text ↔ value = .string text := by
  cases value with
  | null | bool | array | object => simp [decode]
  | string => simp [decode]
  | integer literal =>
      unfold decode decodeNumber
      split_ifs <;> simp

theorem field_string {key text : String} (plain : key.toList.all plainCharacter = true) :
    SemanticJSONSchema.field unicode (decoded unicode schema) key = some (.string text) ↔
      SemanticJsonSchema.string schema key = some text := by
  rw [field_decoded plain]
  unfold SemanticJsonSchema.string
  cases SemanticJsonSchema.get schema key with
  | none => simp
  | some value =>
      rw [Option.map_some, Option.some_inj, decode_eq_string]
      cases value <;> simp

theorem ios_declaredType_ok {isRoot : Bool} {type : String} :
    SemanticJSONSchema.declaredType unicode (decoded unicode schema) isRoot = .ok type ↔
      (schema.all fun entry => supportedKeywords.contains entry.1) = true ∧
      (isRoot || (!SemanticJsonSchema.contains schema "$schema" && !SemanticJsonSchema.contains schema "$id")) = true ∧
      SemanticJsonSchema.string schema "type" = some type ∧ supportedTypes.contains type = true := by
  have keywords : (decoded unicode schema).all (fun entry => supportedKeywords.any (unicode.same entry.1)) =
      schema.all fun entry => supportedKeywords.contains entry.1 := by
    unfold decoded
    rw [List.all_map]
    congr 1
    funext entry
    exact any_same (by decide) entry.1
  have absent {key : String} (plain : key.toList.all plainCharacter = true) :
      (SemanticJSONSchema.field unicode (decoded unicode schema) key).isNone = !SemanticJsonSchema.contains schema key := by
    rw [field_decoded plain, Option.isNone_map, ← Option.not_isSome]
    unfold SemanticJsonSchema.get SemanticJsonSchema.contains
    rw [Keyed.get_isSome]
  unfold SemanticJSONSchema.declaredType
  rw [Checks.and_then_ok, Checks.and_then_ok, require_ok, require_ok, keywords, absent (by decide), absent (by decide)]
  refine and_congr_right fun _ => and_congr_right fun _ => ?_
  split
  · rename_i declared found
    rw [field_string (by decide)] at found
    rw [Checks.and_then_ok, require_ok, any_same (by decide), found]
    constructor
    · rintro ⟨supported, same⟩
      cases same
      exact ⟨rfl, supported⟩
    · rintro ⟨same, supported⟩
      cases same
      exact ⟨supported, rfl⟩
  · rename_i other
    constructor
    · intro h
      cases h
    · rintro ⟨found, -⟩
      exact absurd ((field_string (by decide)).mpr found) (other type)

theorem android_declaredType_ok {isRoot : Bool} {type : String} :
    SemanticJsonSchema.declaredType schema isRoot = .ok type ↔
      (schema.all fun entry => supportedKeywords.contains entry.1) = true ∧
      (isRoot || (!SemanticJsonSchema.contains schema "$schema" && !SemanticJsonSchema.contains schema "$id")) = true ∧
      SemanticJsonSchema.string schema "type" = some type ∧ supportedTypes.contains type = true := by
  unfold SemanticJsonSchema.declaredType
  rw [Checks.and_then_ok, Checks.and_then_ok, schemaCheck_ok, schemaCheck_ok]
  refine and_congr_right fun _ => and_congr_right fun _ => ?_
  cases SemanticJsonSchema.string schema "type" with
  | none => simp [throw, throwThe, MonadExceptOf.throw]
  | some declared =>
      simp only
      rw [Checks.and_then_ok, schemaCheck_ok]
      constructor
      · rintro ⟨supported, same⟩
        cases same
        exact ⟨rfl, supported⟩
      · rintro ⟨same, supported⟩
        cases same
        exact ⟨supported, rfl⟩

theorem validateConst_ok (proper : ProperMembers unicode schema) :
    SemanticJSONSchema.validateConst unicode (decoded unicode schema) = .ok () := by
  unfold SemanticJSONSchema.validateConst
  rw [field_decoded (by decide)]
  cases found : SemanticJsonSchema.get schema "const" with
  | none => rfl
  | some value => exact (proper.get found).finite

theorem validateEnum_agree (proper : ProperMembers unicode schema) :
    SemanticJSONSchema.validateEnum unicode (decoded unicode schema) = .ok () ↔
      SemanticJsonSchema.validateEnum schema = .ok () := by
  unfold SemanticJSONSchema.validateEnum SemanticJsonSchema.validateEnum
  rw [field_decoded (by decide)]
  cases found : SemanticJsonSchema.get schema "enum" with
  | none => simp
  | some value =>
      have finite := (proper.get found).finite
      cases value with
      | array values =>
          rw [decode, decodeValues_eq, validateFiniteJSON] at finite
          rw [Option.map_some, decode, decodeValues_eq]
          simp only
          rw [Checks.and_then_ok, require_ok, schemaCheck_ok]
          simp [finite]
      | null | bool | string | object => simp [decode]
      | integer literal =>
          rw [Option.map_some, decode]
          unfold decodeNumber
          split_ifs <;> simp

theorem decode_integer {literal : Literal} (proper : Proper unicode (.integer literal)) :
    decode unicode (.integer literal) = .integer literal.value := by
  cases proper with
  | integer meets =>
      unfold decode decodeNumber
      rw [if_pos ⟨by omega, by omega⟩]

theorem integer_agree {value : Json} (proper : Proper unicode value) :
    SemanticJSONSchema.integer (some (decode unicode value)) = SemanticJsonSchema.nonnegativeIntOrNull value := by
  cases value with
  | null | bool | string | array | object => rfl
  | integer literal =>
      rw [decode_integer proper]
      cases proper with
      | integer meets =>
          unfold SemanticJSONSchema.integer SemanticJsonSchema.nonnegativeIntOrNull
          dsimp only
          split_ifs <;> first | rfl | omega

theorem decimal_agree {value : Json} (proper : Proper unicode value) :
    SemanticJSONSchema.decimal (some (decode unicode value)) =
      (SemanticJsonSchema.decimalOrNull value).map (Int.cast : ℤ → ℚ) := by
  cases value with
  | null | bool | string | array | object => rfl
  | integer literal =>
      rw [decode_integer proper]
      cases proper with
      | integer meets =>
          have small : |(literal.value : ℚ)| < 2 ^ 53 := by
            rw [abs_lt]
            constructor
            · have : ((-(2 ^ 31) : ℤ) : ℚ) ≤ literal.value := by exact_mod_cast meets.1
              push_cast at this
              linarith
            · have : ((literal.value : ℤ) : ℚ) < ((2 ^ 31 : ℤ) : ℚ) := by exact_mod_cast meets.2
              push_cast at this
              linarith
          unfold SemanticJsonSchema.decimalOrNull
          dsimp only
          rw [if_pos (Binary64.ofRat_isSome small)]
          rfl

theorem validateOrdered_agree {α : Type} [LE α] [DecidableLE α] {f : Int → α} (mono : ∀ a b, f a ≤ f b ↔ a ≤ b)
    (minimum maximum : Option Int) :
    SemanticJSONSchema.validateOrdered (minimum.map f) (maximum.map f) = .ok () ↔
      SemanticJsonSchema.validateOrdered minimum maximum = .ok () := by
  unfold SemanticJSONSchema.validateOrdered SemanticJsonSchema.validateOrdered
  rw [schemaCheck_ok]
  cases minimum with
  | none => simp
  | some minimum =>
      cases maximum with
      | none => simp
      | some maximum => simp [require_ok, mono]

theorem integerBounds_agree (proper : ProperMembers unicode schema) {minimum maximum : String}
    (plainMinimum : minimum.toList.all plainCharacter = true) (plainMaximum : maximum.toList.all plainCharacter = true) :
    SemanticJSONSchema.validateIntegerBounds unicode (decoded unicode schema) minimum maximum = .ok () ↔
      SemanticJsonSchema.validateIntegerBounds schema minimum maximum = .ok () := by
  have read {key : String} (plain : key.toList.all plainCharacter = true) :
      SemanticJSONSchema.integer (SemanticJSONSchema.field unicode (decoded unicode schema) key) =
        (SemanticJsonSchema.get schema key).bind SemanticJsonSchema.nonnegativeIntOrNull := by
    rw [field_decoded plain]
    cases found : SemanticJsonSchema.get schema key with
    | none => rfl
    | some value => exact integer_agree (proper.get found)
  have present {key : String} (plain : key.toList.all plainCharacter = true) :
      SemanticJSONSchema.validateNonnegativeInteger (SemanticJSONSchema.field unicode (decoded unicode schema) key) = .ok () ↔
        SemanticJsonSchema.validateNonnegativeInteger (SemanticJsonSchema.get schema key) = .ok () := by
    unfold SemanticJSONSchema.validateNonnegativeInteger SemanticJsonSchema.validateNonnegativeInteger
    rw [require_ok, schemaCheck_ok, read plain, field_decoded plain]
    cases SemanticJsonSchema.get schema key <;> simp
  unfold SemanticJSONSchema.validateIntegerBounds SemanticJsonSchema.validateIntegerBounds
  rw [Checks.and_then_ok, Checks.and_then_ok, Checks.and_then_ok, Checks.and_then_ok, present plainMinimum,
    present plainMaximum, read plainMinimum, read plainMaximum]
  refine and_congr_right fun _ => and_congr_right fun _ => ?_
  have same := validateOrdered_agree (f := id) (fun _ _ => Iff.rfl)
    ((SemanticJsonSchema.get schema minimum).bind SemanticJsonSchema.nonnegativeIntOrNull)
    ((SemanticJsonSchema.get schema maximum).bind SemanticJsonSchema.nonnegativeIntOrNull)
  rwa [Option.map_id_apply, Option.map_id_apply] at same

theorem numericBounds_agree (proper : ProperMembers unicode schema) :
    SemanticJSONSchema.validateNumericBounds unicode (decoded unicode schema) = .ok () ↔
      SemanticJsonSchema.validateNumberSchema schema = .ok () := by
  have read {key : String} (plain : key.toList.all plainCharacter = true) :
      SemanticJSONSchema.decimal (SemanticJSONSchema.field unicode (decoded unicode schema) key) =
        ((SemanticJsonSchema.get schema key).bind SemanticJsonSchema.decimalOrNull).map (Int.cast : ℤ → ℚ) := by
    rw [field_decoded plain]
    cases found : SemanticJsonSchema.get schema key with
    | none => rfl
    | some value => exact decimal_agree (proper.get found)
  have present {key : String} (plain : key.toList.all plainCharacter = true) :
      SemanticJSONSchema.validateNumeric (SemanticJSONSchema.field unicode (decoded unicode schema) key) = .ok () ↔
        ((SemanticJsonSchema.get schema key).all fun value => (SemanticJsonSchema.decimalOrNull value).isSome) = true := by
    unfold SemanticJSONSchema.validateNumeric
    rw [require_ok, read plain, field_decoded plain]
    cases SemanticJsonSchema.get schema key <;> simp
  unfold SemanticJSONSchema.validateNumericBounds SemanticJsonSchema.validateNumberSchema
  rw [Checks.and_then_ok, Checks.and_then_ok, Checks.and_then_ok, Checks.and_then_ok, present (by decide),
    present (by decide), read (by decide), read (by decide), schemaCheck_ok, schemaCheck_ok]
  refine and_congr_right fun _ => and_congr_right fun _ => ?_
  exact validateOrdered_agree (fun _ _ => Int.cast_le) _ _

/-! ## Required names -/

/-- Strings that are canonically distinct and each canonically the name of a property. -/
def RequiredNames (unicode : Normalization) (properties : Members) : Option Json → Prop
  | none => True
  | some (.array values) => ∃ names : List String, values = names.map Json.string ∧ (names.map unicode.nfc).Nodup ∧
      ∀ name ∈ names, Keyed.has unicode.nfc properties name = true
  | some _ => False

/-- Every required name is spelled as its property. -/
def Spelled (properties : Members) : Option Json → Prop
  | some (.array values) => ∀ name, .string name ∈ values → SemanticJsonSchema.contains properties name = true
  | _ => True

theorem field_isSome (properties : Members) (name : String) :
    (SemanticJSONSchema.field unicode (decoded unicode properties) name).isSome = Keyed.has unicode.nfc properties name := by
  unfold SemanticJSONSchema.field decoded
  rw [Keyed.get_isSome]
  unfold Keyed.has
  rw [List.any_map]
  rfl

theorem ios_required_ok {properties : Members} (values : List Json) (seen : List String) :
    SemanticJSONSchema.validateRequired unicode (decoded unicode properties) (values.map (decode unicode)) seen = .ok () ↔
      ∃ names : List String, values = names.map Json.string ∧ (names.map unicode.nfc).Nodup ∧
        (∀ name ∈ names, Keyed.has unicode.nfc properties name = true) ∧
        ∀ name ∈ names, ∀ other ∈ seen, unicode.nfc name ≠ unicode.nfc other := by
  induction values generalizing seen with
  | nil =>
      constructor
      · exact fun _ => ⟨[], rfl, List.nodup_nil, by simp, by simp⟩
      · exact fun _ => rfl
  | cons value values ih =>
      rw [List.map_cons]
      cases isString : decode unicode value with
      | string name =>
          rw [decode_eq_string] at isString
          subst isString
          rw [SemanticJSONSchema.validateRequired, Checks.and_then_ok, Checks.and_then_ok, require_ok, require_ok, field_isSome, ih]
          constructor
          · rintro ⟨there, fresh, names, rfl, distinct, known, apart⟩
            have fresh : ∀ other ∈ seen, unicode.nfc name ≠ unicode.nfc other := by
              simpa [Normalization.same] using fresh
            refine ⟨name :: names, rfl, ?_, ?_, ?_⟩
            · rw [List.map_cons, List.nodup_cons]
              refine ⟨fun member => ?_, distinct⟩
              obtain ⟨other, inside, same⟩ := List.mem_map.mp member
              exact apart other inside name List.mem_cons_self same
            · exact List.forall_mem_cons.mpr ⟨there, known⟩
            · refine List.forall_mem_cons.mpr ⟨fresh, fun other inside => ?_⟩
              exact fun old member => apart other inside old (List.mem_cons_of_mem _ member)
          · rintro ⟨names, split, distinct, known, apart⟩
            cases names with
            | nil => cases split
            | cons first names =>
                injection split with same rest
                injection same with same
                subst same
                rw [List.map_cons, List.nodup_cons] at distinct
                obtain ⟨there, known⟩ := List.forall_mem_cons.mp known
                obtain ⟨fresh, apart⟩ := List.forall_mem_cons.mp apart
                refine ⟨there, by simpa [Normalization.same] using fresh, names, rest, distinct.2, known, ?_⟩
                intro other inside
                refine List.forall_mem_cons.mpr ⟨fun same => ?_, apart other inside⟩
                exact distinct.1 (List.mem_map.mpr ⟨other, inside, same⟩)
      | null | bool | integer | unsignedInteger | number | array | object =>
          constructor
          · intro h
            cases h
          · rintro ⟨names, split, -⟩
            cases names with
            | nil => cases split
            | cons first names =>
                injection split with same rest
                rw [same] at isString
                cases isString

theorem ios_requiredField_ok {properties : Members} :
    SemanticJSONSchema.validateRequiredField unicode (decoded unicode schema) (decoded unicode properties) = .ok () ↔
      RequiredNames unicode properties (SemanticJsonSchema.get schema "required") := by
  unfold SemanticJSONSchema.validateRequiredField
  rw [field_decoded (by decide)]
  cases SemanticJsonSchema.get schema "required" with
  | none => simp [RequiredNames]
  | some value =>
      cases value with
      | array values =>
          rw [Option.map_some, decode, decodeValues_eq]
          simp only
          rw [ios_required_ok]
          simp [RequiredNames]
      | null | bool | string | object => simp [decode, RequiredNames]
      | integer literal =>
          rw [Option.map_some, decode]
          unfold decodeNumber
          split_ifs <;> simp [RequiredNames]

theorem requiredNames_ok (values : List Json) (names : List String) :
    SemanticJsonSchema.requiredNames values = .ok names ↔ values = names.map Json.string := by
  induction values generalizing names with
  | nil =>
      cases names <;> simp [SemanticJsonSchema.requiredNames]
  | cons value values ih =>
      cases value with
      | string name =>
          rw [SemanticJsonSchema.requiredNames, Checks.bind_ok]
          constructor
          · rintro ⟨rest, read, same⟩
            cases same
            rw [(ih rest).mp read]
            rfl
          · intro split
            cases names with
            | nil => cases split
            | cons first names =>
                injection split with same rest
                injection same with same
                subst same
                exact ⟨names, (ih names).mpr rest, rfl⟩
      | null | bool | integer | array | object =>
          cases names <;> simp [SemanticJsonSchema.requiredNames]

theorem android_required_ok {properties : Members} (proper : ProperMembers unicode properties) :
    SemanticJsonSchema.validateRequired schema properties = .ok () ↔
      RequiredNames unicode properties (SemanticJsonSchema.get schema "required") ∧
        Spelled properties (SemanticJsonSchema.get schema "required") := by
  have unambiguous : Keyed.Unambiguous unicode.nfc properties := by
    cases proper with
    | object meets _ => exact meets.1
  unfold SemanticJsonSchema.validateRequired
  cases SemanticJsonSchema.get schema "required" with
  | none => simp [RequiredNames, Spelled]
  | some value =>
      cases value with
      | null | bool | string | object | integer => simp [RequiredNames]
      | array values =>
          simp only [RequiredNames, Spelled]
          rw [Checks.bind_ok]
          constructor
          · rintro ⟨names, read, checks⟩
            rw [Checks.and_then_ok, schemaCheck_ok, schemaCheck_ok] at checks
            rw [requiredNames_ok] at read
            subst read
            have spelled : ∀ name ∈ names, Keyed.has id properties name = true := by
              simpa [SemanticJsonSchema.contains] using checks.2
            have distinct : names.Nodup := by simpa using checks.1
            refine ⟨⟨names, rfl, ?_, fun name member => ?_⟩, fun name member => ?_⟩
            · refine List.Nodup.map_on (fun a inA b inB same => ?_) distinct
              exact Keyed.name_eq_of_key unambiguous (spelled a inA) (spelled b inB) same
            · exact Keyed.has_of_spelled (spelled name member)
            · exact spelled name (by simpa using member)
          · rintro ⟨⟨names, rfl, distinct, -⟩, spelled⟩
            refine ⟨names, (requiredNames_ok _ _).mpr rfl, ?_⟩
            rw [Checks.and_then_ok, schemaCheck_ok, schemaCheck_ok]
            refine ⟨by simpa using List.Nodup.of_map _ distinct, ?_⟩
            rw [List.all_eq_true]
            exact fun name member => spelled name (List.mem_map.mpr ⟨name, member, rfl⟩)

/-! ## One schema object -/

/-- The properties a schema declares; `none` when `properties` is no object. -/
def declaredProperties (schema : Members) : Option Members :=
  match SemanticJsonSchema.get schema "properties" with
  | none => some []
  | some (.object properties) => some properties
  | some _ => none

/-- What both validators check of the members that belong to a type. -/
def SharedTyped (unicode : Normalization) (schema : Members) (type : String) : Prop :=
  if type = "object" then
    (SemanticJsonSchema.get schema "additionalProperties").bind SemanticJsonSchema.booleanOrNull = some false ∧
      ∃ properties, declaredProperties schema = some properties ∧ (∀ entry ∈ properties, ∃ inner, entry.2 = .object inner) ∧
        RequiredNames unicode properties (SemanticJsonSchema.get schema "required")
  else if type = "array" then
    (∃ items, SemanticJsonSchema.get schema "items" = some (.object items)) ∧
      SemanticJsonSchema.validateIntegerBounds schema "minItems" "maxItems" = .ok ()
  else if type = "string" then SemanticJsonSchema.validateStringSchema schema = .ok ()
  else if type = "integer" ∨ type = "number" then SemanticJsonSchema.validateNumberSchema schema = .ok ()
  else True

/-- What both validators check of one schema object. -/
def Shared (unicode : Normalization) (isRoot : Bool) (schema : Members) : Prop :=
  ∃ type, SemanticJsonSchema.declaredType schema isRoot = .ok type ∧ SemanticJsonSchema.validateEnum schema = .ok () ∧
    SharedTyped unicode schema type ∧ (type ≠ "object" → SemanticJsonSchema.validateForeign schema type = .ok ())

/-- `"additionalProperties": false`, not quoted. -/
def Unquoted (schema : Members) : Prop :=
  SemanticJsonSchema.string schema "type" = some "object" →
    SemanticJsonSchema.get schema "additionalProperties" = some (.bool false)

/-- An object schema has no keyword of another type, and spells its required names as
    its properties. -/
def Separate (schema : Members) : Prop :=
  SemanticJsonSchema.string schema "type" = some "object" →
    (∀ key ∈ arrayOnly ++ stringOnly ++ numberOnly, SemanticJsonSchema.contains schema key = false) ∧
      ∀ properties, declaredProperties schema = some properties →
        Spelled properties (SemanticJsonSchema.get schema "required")

/-- The schemas directly inside one. -/
def children (schema : Members) : List Members :=
  match SemanticJsonSchema.string schema "type" with
  | some "object" => ((declaredProperties schema).getD []).filterMap fun entry =>
      match entry.2 with
      | .object inner => some inner
      | _ => none
  | some "array" =>
      match SemanticJsonSchema.get schema "items" with
      | some (.object items) => [items]
      | _ => []
  | _ => []

theorem mem_objects {properties : Members} {inner : Members} :
    (inner ∈ properties.filterMap fun entry => match entry.2 with
      | .object inner => some inner
      | _ => none) ↔ ∃ name, (name, .object inner) ∈ properties := by
  rw [List.mem_filterMap]
  constructor
  · rintro ⟨⟨name, value⟩, member, found⟩
    cases value with
    | object members =>
        cases found
        exact ⟨name, member⟩
    | null | bool | integer | string | array => cases found
  · rintro ⟨name, member⟩
    exact ⟨(name, .object inner), member, rfl⟩

theorem ios_properties_ok {properties : Members} (inside : ∀ entry ∈ properties, Proper unicode entry.2) :
    SemanticJSONSchema.validateProperties unicode (decoded unicode properties) = .ok () ↔
      ∀ entry ∈ properties, ∃ inner, entry.2 = .object inner ∧
        SemanticJSONSchema.validateSchemaObject unicode (decoded unicode inner) false = .ok () := by
  induction properties with
  | nil => simp [decoded, SemanticJSONSchema.validateProperties]
  | cons entry properties ih =>
      obtain ⟨name, value⟩ := entry
      obtain ⟨first, others⟩ := List.forall_mem_cons.mp inside
      rw [show decoded unicode ((name, value) :: properties) = (name, decode unicode value) :: decoded unicode properties
        from rfl, List.forall_mem_cons, ← ih others]
      cases value with
      | object inner =>
          rw [show decode unicode (.object inner) = .object (decoded unicode inner) from ProperMembers.decode first,
            SemanticJSONSchema.validateProperties, Checks.and_then_ok]
          simp
      | null | bool | string | array =>
          simp [decode, SemanticJSONSchema.validateProperties]
      | integer literal =>
          simp [decode_integer first, SemanticJSONSchema.validateProperties]

theorem android_properties_ok {properties : Members} :
    SemanticJsonSchema.validateProperties properties = .ok () ↔
      ∀ entry ∈ properties, ∃ inner, entry.2 = .object inner ∧
        SemanticJsonSchema.validateSchemaObject inner false = .ok () := by
  induction properties with
  | nil => simp [SemanticJsonSchema.validateProperties]
  | cons entry properties ih =>
      obtain ⟨name, value⟩ := entry
      rw [List.forall_mem_cons, ← ih]
      cases value with
      | object inner =>
          rw [SemanticJsonSchema.validateProperties, Checks.and_then_ok]
          simp
      | null | bool | string | array | integer =>
          simp [SemanticJsonSchema.validateProperties]

/-- The members of an object are objects that meet `P`. -/
theorem forall_objects {P : Members → Prop} {properties : Members} :
    (∀ entry ∈ properties, ∃ inner, entry.2 = .object inner ∧ P inner) ↔
      (∀ entry ∈ properties, ∃ inner, entry.2 = .object inner) ∧
        ∀ inner, (∃ name, (name, .object inner) ∈ properties) → P inner := by
  constructor
  · intro all
    refine ⟨fun entry member => ?_, ?_⟩
    · obtain ⟨inner, isObject, -⟩ := all entry member
      exact ⟨inner, isObject⟩
    · rintro inner ⟨name, member⟩
      obtain ⟨other, isObject, meets⟩ := all _ member
      cases isObject
      exact meets
  · rintro ⟨objects, all⟩ ⟨name, value⟩ member
    obtain ⟨inner, rfl⟩ := objects _ member
    exact ⟨inner, rfl, all inner ⟨name, member⟩⟩

theorem foreign_typed {type : String} (other : type ≠ "object") :
    SemanticJSONSchema.validateForeign unicode (decoded unicode schema) type = .ok () ↔
      SemanticJsonSchema.validateForeign schema type = .ok () := by
  have same {name : String} (plain : name.toList.all plainCharacter = true) : unicode.same type name = (type == name) := by
    rw [Bool.eq_iff_iff, unicode.same_plain plain, beq_iff_eq]
  unfold SemanticJSONSchema.validateForeign SemanticJsonSchema.validateForeign
  rw [require_ok, Checks.and_then_ok, Checks.and_then_ok, Checks.and_then_ok, schemaCheck_ok, schemaCheck_ok, schemaCheck_ok,
    schemaCheck_ok, hasAny_decoded (by decide), hasAny_decoded (by decide), hasAny_decoded (by decide),
    hasAny_decoded (by decide), same (by decide), same (by decide), same (by decide), same (by decide), same (by decide)]
  simp only [beq_eq_false_iff_ne.mpr other]
  grind

theorem foreign_object :
    SemanticJsonSchema.validateForeign schema "object" = .ok () ↔
      ∀ key ∈ arrayOnly ++ stringOnly ++ numberOnly, SemanticJsonSchema.contains schema key = false := by
  unfold SemanticJsonSchema.validateForeign
  rw [Checks.and_then_ok, Checks.and_then_ok, Checks.and_then_ok, schemaCheck_ok, schemaCheck_ok, schemaCheck_ok, schemaCheck_ok]
  simp only [List.mem_append, or_imp, forall_and]
  simp [← Bool.not_eq_true, and_assoc]

theorem foreign_ios_object :
    SemanticJSONSchema.validateForeign unicode (decoded unicode schema) "object" = .ok () := by
  unfold SemanticJSONSchema.validateForeign
  rw [require_ok, (unicode.same_plain (by decide) "object").mpr rfl]
  rfl

theorem children_object (declared : SemanticJsonSchema.string schema "type" = some "object") {properties : Members}
    (known : declaredProperties schema = some properties) {P : Members → Prop} :
    (∀ inner ∈ children schema, P inner) ↔ ∀ inner, (∃ name, (name, .object inner) ∈ properties) → P inner := by
  unfold children
  rw [declared, known]
  exact forall_congr' fun inner => imp_congr_left mem_objects

theorem children_array (declared : SemanticJsonSchema.string schema "type" = some "array") {items : Members}
    (known : SemanticJsonSchema.get schema "items" = some (.object items)) {P : Members → Prop} :
    (∀ inner ∈ children schema, P inner) ↔ P items := by
  unfold children
  rw [declared, known]
  simp

theorem children_other {type : String} (declared : SemanticJsonSchema.string schema "type" = some type)
    (notObject : type ≠ "object") (notArray : type ≠ "array") : children schema = [] := by
  unfold children
  rw [declared]
  split
  · rename_i same
    exact absurd (Option.some.inj same) notObject
  · rename_i same
    exact absurd (Option.some.inj same) notArray
  · rfl

theorem additionalProperties_ok :
    SemanticJSONSchema.isFalse (SemanticJSONSchema.field unicode (decoded unicode schema) "additionalProperties") = true ↔
      SemanticJsonSchema.get schema "additionalProperties" = some (.bool false) := by
  rw [field_decoded (by decide)]
  cases SemanticJsonSchema.get schema "additionalProperties" with
  | none => simp [SemanticJSONSchema.isFalse]
  | some value =>
      cases value with
      | bool value => cases value <;> simp [decode, SemanticJSONSchema.isFalse]
      | null | string | array | object => simp [decode, SemanticJSONSchema.isFalse]
      | integer literal =>
          rw [Option.map_some, decode]
          unfold decodeNumber
          split_ifs <;> simp [SemanticJSONSchema.isFalse]

theorem ProperMembers.properties (proper : ProperMembers unicode schema) {properties : Members}
    (known : declaredProperties schema = some properties) : ProperMembers unicode properties := by
  unfold declaredProperties at known
  split at known
  · cases known
    exact .object ⟨List.Pairwise.nil, by simp⟩ (by simp)
  · rename_i found
    cases known
    exact proper.get found
  · cases known

theorem field_object (proper : ProperMembers unicode schema) {key : String} (plain : key.toList.all plainCharacter = true)
    {fields : SemanticJSONSchema.Fields} :
    SemanticJSONSchema.field unicode (decoded unicode schema) key = some (.object fields) ↔
      ∃ members, SemanticJsonSchema.get schema key = some (.object members) ∧ fields = decoded unicode members := by
  rw [field_decoded plain]
  cases found : SemanticJsonSchema.get schema key with
  | none => simp
  | some value =>
      have inner := proper.get found
      cases value with
      | object members =>
          rw [Option.map_some, show decode unicode (.object members) = .object (decoded unicode members) from
            ProperMembers.decode inner]
          simp [eq_comm]
      | null | bool | string | array => simp [decode]
      | integer literal => simp [decode_integer inner]

theorem ios_object_ok (proper : ProperMembers unicode schema)
    (declared : SemanticJsonSchema.string schema "type" = some "object") :
    SemanticJSONSchema.validateTyped unicode (decoded unicode schema) "object" = .ok () ↔
      SharedTyped unicode schema "object" ∧ Unquoted schema ∧ ∀ inner ∈ children schema,
        SemanticJSONSchema.validateSchemaObject unicode (decoded unicode inner) false = .ok () := by
  have properties_ok {properties : Members} (known : declaredProperties schema = some properties) :
      (SemanticJSONSchema.validateProperties unicode (decoded unicode properties) = .ok () ∧
        SemanticJSONSchema.validateRequiredField unicode (decoded unicode schema) (decoded unicode properties) = .ok ()) ↔
      ((∀ entry ∈ properties, ∃ inner, entry.2 = .object inner) ∧
        RequiredNames unicode properties (SemanticJsonSchema.get schema "required")) ∧ ∀ inner ∈ children schema,
          SemanticJSONSchema.validateSchemaObject unicode (decoded unicode inner) false = .ok () := by
    have inside : ∀ entry ∈ properties, Proper unicode entry.2 := by
      cases proper.properties known with
      | object _ all => exact all
    rw [ios_properties_ok inside, forall_objects, ios_requiredField_ok, children_object declared known]
    tauto
  rw [SemanticJSONSchema.validateTyped, if_pos ((unicode.same_plain (by decide) "object").mpr rfl), Checks.and_then_ok,
    require_ok, additionalProperties_ok]
  unfold SharedTyped Unquoted
  rw [if_pos rfl]
  simp only [declared, forall_const]
  have quoted : SemanticJsonSchema.get schema "additionalProperties" = some (.bool false) →
      (SemanticJsonSchema.get schema "additionalProperties").bind SemanticJsonSchema.booleanOrNull = some false := by
    intro found
    rw [found]
    rfl
  split
  · rename_i absent
    rw [field_decoded (by decide), Option.map_eq_none_iff] at absent
    have known : declaredProperties schema = some [] := by
      unfold declaredProperties
      rw [absent]
    have none_ok := properties_ok known
    rw [show decoded unicode [] = [] from rfl, show SemanticJSONSchema.validateProperties unicode [] = .ok () by
      rw [SemanticJSONSchema.validateProperties]] at none_ok
    simp only [known, Option.some.injEq, exists_eq_left']
    tauto
  · rename_i fields found
    obtain ⟨properties, there, rfl⟩ := (field_object proper (by decide)).mp found
    have known : declaredProperties schema = some properties := by
      unfold declaredProperties
      rw [there]
    have some_ok := properties_ok known
    simp only [known, Option.some.injEq, exists_eq_left', Checks.and_then_ok]
    tauto
  · rename_i value other found
    have unknown : declaredProperties schema = none := by
      rw [field_decoded (by decide)] at found
      unfold declaredProperties
      cases there : SemanticJsonSchema.get schema "properties" with
      | none => simp [there] at found
      | some json =>
          cases json with
          | object members =>
              have isObject := (field_object proper (by decide)).mpr ⟨members, there, rfl⟩
              rw [field_decoded (by decide), found] at isObject
              exact absurd (Option.some.inj isObject) (other _)
          | null | bool | string | array | integer => rfl
    simp [unknown, throw, throwThe, MonadExceptOf.throw]

theorem android_object_ok (proper : ProperMembers unicode schema)
    (declared : SemanticJsonSchema.string schema "type" = some "object") :
    (SemanticJsonSchema.validateTyped schema "object" = .ok () ∧ SemanticJsonSchema.validateForeign schema "object" = .ok ()) ↔
      SharedTyped unicode schema "object" ∧ Separate schema ∧ ∀ inner ∈ children schema,
        SemanticJsonSchema.validateSchemaObject inner false = .ok () := by
  have properties_ok {properties : Members} (known : declaredProperties schema = some properties) :
      (SemanticJsonSchema.validateProperties properties = .ok () ∧
        SemanticJsonSchema.validateRequired schema properties = .ok ()) ↔
      ((∀ entry ∈ properties, ∃ inner, entry.2 = .object inner) ∧
        RequiredNames unicode properties (SemanticJsonSchema.get schema "required")) ∧
        Spelled properties (SemanticJsonSchema.get schema "required") ∧ ∀ inner ∈ children schema,
          SemanticJsonSchema.validateSchemaObject inner false = .ok () := by
    rw [android_properties_ok, forall_objects, android_required_ok (proper.properties known), children_object declared known]
    tauto
  rw [SemanticJsonSchema.validateTyped, if_pos rfl, Checks.and_then_ok, schemaCheck_ok, foreign_object]
  unfold SharedTyped Separate
  rw [if_pos rfl, beq_iff_eq]
  simp only [declared, forall_const]
  split
  · rename_i absent
    have known : declaredProperties schema = some [] := by
      unfold declaredProperties
      rw [absent]
    have none_ok := properties_ok known
    rw [show SemanticJsonSchema.validateProperties [] = .ok () by rw [SemanticJsonSchema.validateProperties]] at none_ok
    simp only [known, Option.some.injEq, exists_eq_left', forall_eq']
    tauto
  · rename_i properties there
    have known : declaredProperties schema = some properties := by
      unfold declaredProperties
      rw [there]
    have some_ok := properties_ok known
    simp only [known, Option.some.injEq, exists_eq_left', forall_eq', Checks.and_then_ok]
    tauto
  · rename_i value other found
    have unknown : declaredProperties schema = none := by
      unfold declaredProperties
      rw [found]
      cases value with
      | object members => exact absurd rfl (other members)
      | null | bool | string | array | integer => rfl
    simp [unknown, throw, throwThe, MonadExceptOf.throw]

theorem ios_array_ok (proper : ProperMembers unicode schema)
    (declared : SemanticJsonSchema.string schema "type" = some "array") :
    SemanticJSONSchema.validateTyped unicode (decoded unicode schema) "array" = .ok () ↔
      SharedTyped unicode schema "array" ∧ ∀ inner ∈ children schema,
        SemanticJSONSchema.validateSchemaObject unicode (decoded unicode inner) false = .ok () := by
  have notObject : ¬ unicode.same "array" "object" = true := by
    rw [unicode.same_plain (by decide)]
    decide
  rw [SemanticJSONSchema.validateTyped, if_neg notObject, if_pos ((unicode.same_plain (by decide) "array").mpr rfl)]
  unfold SharedTyped
  rw [if_neg (by decide), if_pos rfl]
  split
  · rename_i fields found
    obtain ⟨items, there, rfl⟩ := (field_object proper (by decide)).mp found
    rw [Checks.and_then_ok, integerBounds_agree proper (by decide) (by decide), children_array declared there, there]
    simp only [Option.some.injEq, Json.object.injEq, exists_eq', true_and]
    tauto
  · rename_i other
    have absent : ¬ ∃ items, SemanticJsonSchema.get schema "items" = some (.object items) := by
      rintro ⟨items, there⟩
      exact other _ ((field_object proper (by decide)).mpr ⟨items, there, rfl⟩)
    simp [absent, throw, throwThe, MonadExceptOf.throw]

theorem android_array_ok (unicode : Normalization) (declared : SemanticJsonSchema.string schema "type" = some "array") :
    SemanticJsonSchema.validateTyped schema "array" = .ok () ↔
      SharedTyped unicode schema "array" ∧ ∀ inner ∈ children schema,
        SemanticJsonSchema.validateSchemaObject inner false = .ok () := by
  rw [SemanticJsonSchema.validateTyped, if_neg (by decide), if_pos rfl]
  unfold SharedTyped
  rw [if_neg (by decide), if_pos rfl]
  split
  · rename_i items there
    rw [Checks.and_then_ok, children_array declared there, there]
    simp only [Option.some.injEq, Json.object.injEq, exists_eq', true_and]
    tauto
  · rename_i other
    have absent : ¬ ∃ items, SemanticJsonSchema.get schema "items" = some (.object items) := by
      rintro ⟨items, there⟩
      exact other _ there
    simp [absent, throw, throwThe, MonadExceptOf.throw]

theorem ios_scalar_ok (proper : ProperMembers unicode schema) {type : String} (notObject : type ≠ "object")
    (notArray : type ≠ "array") :
    SemanticJSONSchema.validateTyped unicode (decoded unicode schema) type = .ok () ↔ SharedTyped unicode schema type := by
  have same {name : String} (plain : name.toList.all plainCharacter = true) : unicode.same type name = decide (type = name) := by
    rw [Bool.eq_iff_iff, unicode.same_plain plain, decide_eq_true_iff]
  rw [SemanticJSONSchema.validateTyped, same (by decide), same (by decide), same (by decide), same (by decide), same (by decide)]
  unfold SharedTyped
  simp only [notObject, notArray, decide_false, Bool.false_eq_true, if_false, decide_eq_true_eq, Bool.or_eq_true]
  split
  · exact integerBounds_agree proper (by decide) (by decide)
  · split
    · exact numericBounds_agree proper
    · simp

theorem android_scalar_ok (unicode : Normalization) {type : String} (notObject : type ≠ "object") (notArray : type ≠ "array") :
    SemanticJsonSchema.validateTyped schema type = .ok () ↔ SharedTyped unicode schema type := by
  rw [SemanticJsonSchema.validateTyped]
  unfold SharedTyped
  simp only [notObject, notArray, if_false, decide_eq_true_eq, Bool.or_eq_true]
  split
  · rfl
  · split
    · rfl
    · simp

/-! ## Nested schemas -/

theorem ios_schema_ok (proper : ProperMembers unicode schema) (isRoot : Bool) :
    SemanticJSONSchema.validateSchemaObject unicode (decoded unicode schema) isRoot = .ok () ↔
      (Shared unicode isRoot schema ∧ Unquoted schema) ∧ ∀ inner ∈ children schema,
        SemanticJSONSchema.validateSchemaObject unicode (decoded unicode inner) false = .ok () := by
  rw [SemanticJSONSchema.validateSchemaObject, Checks.bind_ok]
  unfold Shared
  rw [exists_and_right.symm, exists_and_right.symm]
  refine exists_congr fun type => ?_
  rw [Checks.and_then_ok, Checks.and_then_ok, Checks.and_then_ok, ios_declaredType_ok.trans android_declaredType_ok.symm,
    validateEnum_agree proper, validateConst_ok proper]
  simp only [true_and, and_assoc]
  refine and_congr_right fun isType => and_congr_right fun _ => ?_
  have declared := (android_declaredType_ok.mp isType).2.2.1
  by_cases isObject : type = "object"
  · subst isObject
    rw [ios_object_ok proper declared, foreign_ios_object]
    simp
  · have unquoted : Unquoted schema := fun ofObject => by
      rw [declared] at ofObject
      exact absurd (Option.some.inj ofObject) isObject
    rw [foreign_typed isObject]
    by_cases isArray : type = "array"
    · subst isArray
      rw [ios_array_ok proper declared]
      tauto
    · rw [ios_scalar_ok proper isObject isArray, children_other declared isObject isArray]
      simp [isObject, unquoted]

theorem android_schema_ok (proper : ProperMembers unicode schema) (isRoot : Bool) :
    SemanticJsonSchema.validateSchemaObject schema isRoot = .ok () ↔
      (Shared unicode isRoot schema ∧ Separate schema) ∧ ∀ inner ∈ children schema,
        SemanticJsonSchema.validateSchemaObject inner false = .ok () := by
  rw [SemanticJsonSchema.validateSchemaObject, Checks.bind_ok]
  unfold Shared
  rw [exists_and_right.symm, exists_and_right.symm]
  refine exists_congr fun type => ?_
  rw [Checks.and_then_ok, Checks.and_then_ok]
  simp only [and_assoc]
  refine and_congr_right fun isType => and_congr_right fun _ => ?_
  have declared := (android_declaredType_ok.mp isType).2.2.1
  by_cases isObject : type = "object"
  · subst isObject
    rw [android_object_ok proper declared]
    simp
  · have separate : Separate schema := fun ofObject => by
      rw [declared] at ofObject
      exact absurd (Option.some.inj ofObject) isObject
    by_cases isArray : type = "array"
    · subst isArray
      rw [android_array_ok unicode declared]
      tauto
    · rw [android_scalar_ok unicode isObject isArray, children_other declared isObject isArray]
      simp [isObject, separate]

/-- A schema inside another. -/
inductive Below (root : Members) : Members → Prop where
  | child {inner : Members} (member : inner ∈ children root) : Below root inner
  | deeper {schema inner : Members} (below : Below root schema) (member : inner ∈ children schema) : Below root inner

theorem Below.trans {a b c : Members} (ab : b ∈ children a) (bc : Below b c) : Below a c := by
  induction bc with
  | child member => exact .deeper (.child ab) member
  | deeper _ member ih => exact .deeper ih member

theorem child_found {inner : Members} (member : inner ∈ children schema) :
    (∃ properties name, SemanticJsonSchema.get schema "properties" = some (.object properties) ∧
        (name, .object inner) ∈ properties) ∨ SemanticJsonSchema.get schema "items" = some (.object inner) := by
  unfold children at member
  split at member
  · obtain ⟨name, there⟩ := mem_objects.mp member
    unfold declaredProperties at there
    split at there
    · cases there
    · rename_i properties found
      exact .inl ⟨properties, name, found, there⟩
    · cases there
  · split at member
    · rename_i items found
      cases List.mem_singleton.mp member
      exact .inr found
    · cases member
  · cases member

theorem child_proper (proper : ProperMembers unicode schema) {inner : Members} (member : inner ∈ children schema) :
    ProperMembers unicode inner := by
  rcases child_found member with ⟨properties, name, found, there⟩ | found
  · cases proper.get found with
    | object _ all => exact all _ there
  · exact proper.get found

theorem child_smaller {inner : Members} (member : inner ∈ children schema) : sizeOf inner < sizeOf schema := by
  rcases child_found member with ⟨properties, name, found, there⟩ | found
  · have outer := Json.sizeOf_lt_of_get found
    have deeper := List.sizeOf_lt_of_mem there
    simp only [Prod.mk.sizeOf_spec, Json.object.sizeOf_spec] at outer deeper
    omega
  · have outer := Json.sizeOf_lt_of_get found
    simp only [Json.object.sizeOf_spec] at outer
    omega

/-- A validator that checks each schema and then the ones inside it accepts exactly
    when every schema of the document passes. -/
theorem nested_ok {V : Members → Bool → Prop} {L : Bool → Members → Prop}
    (step : ∀ schema isRoot, ProperMembers unicode schema →
      (V schema isRoot ↔ L isRoot schema ∧ ∀ inner ∈ children schema, V inner false))
    {root : Members} (proper : ProperMembers unicode root) (isRoot : Bool) :
    V root isRoot ↔ L isRoot root ∧ ∀ schema, Below root schema → L false schema := by
  constructor
  · intro valid
    refine ⟨((step root isRoot proper).mp valid).1, fun schema below => ?_⟩
    have inside : ProperMembers unicode schema ∧ V schema false := by
      induction below with
      | child member => exact ⟨child_proper proper member, ((step root isRoot proper).mp valid).2 _ member⟩
      | deeper _ member ih => exact ⟨child_proper ih.1 member, ((step _ false ih.1).mp ih.2).2 _ member⟩
    exact ((step schema false inside.1).mp inside.2).1
  · induction size : sizeOf root using Nat.strong_induction_on generalizing root isRoot with
    | _ n ih =>
        rintro ⟨here, below⟩
        refine (step root isRoot proper).mpr ⟨here, fun inner member => ?_⟩
        refine ih (sizeOf inner) (by rw [← size]; exact child_smaller member) (child_proper proper member) false rfl ⟨?_, ?_⟩
        · exact below inner (.child member)
        · exact fun schema under => below schema (Below.trans member under)

/-! ## Whole documents -/

/-- The schema and every schema inside it meet `L`. -/
def Throughout (L : Bool → Members → Prop) (root : Members) : Prop :=
  L true root ∧ ∀ schema, Below root schema → L false schema

/-- The document passes every check that the two validators share. -/
def Passes (unicode : Normalization) : Json → Prop
  | .object root => SemanticJsonSchema.string root "$schema" = some draft202012 ∧
      (∃ identifier, SemanticJsonSchema.string root "$id" = some identifier ∧ (afterScheme identifier).isSome = true) ∧
      Throughout (Shared unicode) root
  | _ => False

/-- No schema quotes the `false` of its `additionalProperties`. -/
def NowhereQuoted : Json → Prop
  | .object root => Throughout (fun _ => Unquoted) root
  | _ => True

/-- Object schemas have no keywords of other types and spell their required names as
    their properties, and the identifier is one line. -/
def SeparateThroughout : Json → Prop
  | .object root => Throughout (fun _ => Separate) root ∧
      ∀ identifier, SemanticJsonSchema.string root "$id" = some identifier → SemanticJsonSchema.schemaUri identifier = true
  | _ => True

theorem throughout_and {L M : Bool → Members → Prop} {root : Members} :
    Throughout (fun isRoot schema => L isRoot schema ∧ M isRoot schema) root ↔ Throughout L root ∧ Throughout M root := by
  unfold Throughout
  constructor
  · rintro ⟨⟨l, m⟩, below⟩
    exact ⟨⟨l, fun schema under => (below schema under).1⟩, m, fun schema under => (below schema under).2⟩
  · rintro ⟨⟨l, ls⟩, m, ms⟩
    exact ⟨⟨l, m⟩, fun schema under => ⟨ls schema under, ms schema under⟩⟩

theorem isString_ok {key : String} (plain : key.toList.all plainCharacter = true) {p : String → Bool} :
    SemanticJSONSchema.isString p (SemanticJSONSchema.field unicode (decoded unicode schema) key) = true ↔
      ∃ text, SemanticJsonSchema.string schema key = some text ∧ p text = true := by
  constructor
  · intro holds
    unfold SemanticJSONSchema.isString at holds
    split at holds
    · rename_i text found
      exact ⟨text, (field_string plain).mp found, holds⟩
    · cases holds
  · rintro ⟨text, found, holds⟩
    rw [(field_string plain).mpr found]
    exact holds

/-- A number is no identifier: it starts with a sign or a digit. -/
theorem schemaUri_literal (literal : Literal) : SemanticJsonSchema.schemaUri literal.text = false := by
  have digits (n : Nat) : ∃ c cs, (toString n).toList = c :: cs ∧ c.isDigit = true := by
    rw [Nat.toString_eq_repr, Nat.toList_repr]
    obtain ⟨c, cs, split⟩ := List.exists_cons_of_ne_nil (Nat.toDigits_ne_nil (n := n) (b := 10))
    have member : c ∈ Nat.toDigits 10 n := by
      rw [split]
      exact List.mem_cons_self
    exact ⟨c, cs, split, Nat.isDigit_of_mem_toDigits (by decide) (by decide) member⟩
  have first : ∃ c cs, literal.text.toList = c :: cs ∧ Patterns.lower c = false := by
    unfold Literal.text
    rw [String.toList_append]
    obtain ⟨c, cs, split, isDigit⟩ := digits literal.magnitude
    cases literal.negative with
    | true => exact ⟨'-', _, rfl, rfl⟩
    | false =>
        refine ⟨c, cs, by rw [split]; rfl, ?_⟩
        have upper : c ≤ '9' := by
          simp only [Char.isDigit, Bool.and_eq_true, decide_eq_true_eq] at isDigit
          exact isDigit.2
        unfold Patterns.lower
        rw [Bool.and_eq_false_iff]
        left
        rw [decide_eq_false_iff_not]
        exact fun lower => absurd (lower.trans upper) (by decide)
  obtain ⟨c, cs, split, notLower⟩ := first
  unfold SemanticJsonSchema.schemaUri afterScheme
  rw [split]
  simp [notLower]

theorem identifier_ok :
    (((SemanticJsonSchema.get schema "$id").bind SemanticJsonSchema.content).any SemanticJsonSchema.schemaUri) = true ↔
      ∃ identifier, SemanticJsonSchema.string schema "$id" = some identifier ∧
        SemanticJsonSchema.schemaUri identifier = true := by
  unfold SemanticJsonSchema.string
  cases SemanticJsonSchema.get schema "$id" with
  | none => simp
  | some value =>
      cases value with
      | string text => simp [SemanticJsonSchema.content]
      | integer literal => simp [SemanticJsonSchema.content, schemaUri_literal]
      | bool value => cases value <;> simp [SemanticJsonSchema.content] <;> decide
      | null =>
          simp [SemanticJsonSchema.content]
          decide
      | array | object => simp [SemanticJsonSchema.content]

theorem ios_document_ok {document : Json} (proper : Proper unicode document) :
    SemanticJSONSchema.validateDocument unicode (decode unicode document) = .ok () ↔
      Passes unicode document ∧ NowhereQuoted document := by
  unfold SemanticJSONSchema.validateDocument
  rw [Checks.and_then_ok, proper.finite]
  simp only [true_and]
  cases document with
  | object root =>
      rw [show decode unicode (.object root) = .object (decoded unicode root) from ProperMembers.decode proper]
      simp only
      rw [Checks.and_then_ok, Checks.and_then_ok, require_ok, require_ok, isString_ok (by decide), isString_ok (by decide),
        nested_ok (fun _ isRoot inner => ios_schema_ok inner isRoot) proper]
      have draft : (∃ text, SemanticJsonSchema.string root "$schema" = some text ∧ unicode.same text draft202012 = true) ↔
          SemanticJsonSchema.string root "$schema" = some draft202012 := by
        constructor
        · rintro ⟨text, found, same⟩
          rw [found, (unicode.same_plain (by decide) text).mp same]
        · intro found
          exact ⟨_, found, (unicode.same_plain (by decide) _).mpr rfl⟩
      rw [draft]
      unfold Passes NowhereQuoted
      rw [show ((Shared unicode true root ∧ Unquoted root) ∧ ∀ schema, Below root schema →
        Shared unicode false schema ∧ Unquoted schema) ↔ _ from throughout_and (M := fun _ => Unquoted)]
      tauto
  | null | bool | string | array => simp [decode, Passes, throw, throwThe, MonadExceptOf.throw]
  | integer literal => simp [decode_integer proper, Passes, throw, throwThe, MonadExceptOf.throw]

theorem android_document_ok {document : Json} (proper : Proper unicode document) :
    SemanticJsonSchema.create document = .ok () ↔ Passes unicode document ∧ SeparateThroughout document := by
  cases document with
  | object root =>
      unfold SemanticJsonSchema.create
      rw [Checks.and_then_ok, Checks.and_then_ok, schemaCheck_ok, schemaCheck_ok, identifier_ok, beq_iff_eq,
        nested_ok (fun _ isRoot inner => android_schema_ok inner isRoot) proper]
      unfold Passes SeparateThroughout
      rw [show ((Shared unicode true root ∧ Separate root) ∧ ∀ schema, Below root schema →
        Shared unicode false schema ∧ Separate schema) ↔ _ from throughout_and (M := fun _ => Separate)]
      have scheme {identifier : String} (uri : SemanticJsonSchema.schemaUri identifier = true) :
          (afterScheme identifier).isSome = true := by
        unfold SemanticJsonSchema.schemaUri at uri
        cases found : afterScheme identifier with
        | none => simp [found] at uri
        | some rest => rfl
      constructor
      · rintro ⟨draft, ⟨identifier, found, uri⟩, shared, separate⟩
        refine ⟨⟨draft, ⟨identifier, found, scheme uri⟩, shared⟩, separate, fun other same => ?_⟩
        rw [found] at same
        cases same
        exact uri
      · rintro ⟨⟨draft, ⟨identifier, found, -⟩, shared⟩, separate, uris⟩
        exact ⟨draft, ⟨identifier, found, uris identifier found⟩, shared, separate⟩
  | null | bool | string | array | integer => simp [SemanticJsonSchema.create, Passes, throw, throwThe, MonadExceptOf.throw]

/-- The two platforms accept the same documents, but for one that passes all their
    common checks: it must quote no `false` of an `additionalProperties` exactly when its
    object schemas are free of other types' keywords and of respelled required names and
    its identifier is one line. -/
theorem acceptance_agrees (unicode : Normalization) (document : Json) (proper : Proper unicode document) :
    (SemanticJSONSchema.validateDocument unicode (decode unicode document) = .ok () ↔
        SemanticJsonSchema.create document = .ok ()) ↔
      (Passes unicode document → (NowhereQuoted document ↔ SeparateThroughout document)) := by
  rw [ios_document_ok proper, android_document_ok proper]
  tauto

/-! ## A keyword of another type -/

/-- On ASCII text normalisation changes nothing. -/
def asciiText : Normalization where
  nfc := id
  plain := fun _ _ _ same => same

/-- An object schema of the given further members. -/
def objectSchema (more : Members) : Json :=
  .object ([("$schema", .string draft202012), ("$id", .string "urn:example:value"), ("type", .string "object"),
    ("additionalProperties", .bool false)] ++ more)

/-- `"minLength": 1` beside `"type": "object"`. -/
def lengthOfObject : Json := objectSchema [("minLength", .integer { magnitude := 1 })]

theorem objectSchema_proper {more : Members} (distinct : (["$schema", "$id", "type", "additionalProperties"] ++
    more.map (·.1)).Nodup) (named : ∀ entry ∈ more, entry.1 ≠ "") (inside : ∀ entry ∈ more, Proper asciiText entry.2) :
    Proper asciiText (objectSchema more) := by
  refine .object ⟨?_, ?_⟩ ?_
  · exact List.pairwise_map.mp (by simpa [List.Nodup, asciiText] using distinct)
  · simpa [or_imp, forall_and] using named
  · simp only [List.cons_append, List.nil_append, List.forall_mem_cons]
    exact ⟨.string _, .string _, .string _, .bool _, inside⟩

theorem childless {root schema : Members} (none : children root = []) : ¬ Below root schema := by
  intro below
  induction below with
  | child member =>
      rw [none] at member
      cases member
  | deeper _ _ ih => exact ih

theorem lengthOfObject_proper : Proper asciiText lengthOfObject :=
  objectSchema_proper (by decide) (by decide) (by simpa using .integer (by decide))

theorem lengthOfObject_passes : Passes asciiText lengthOfObject := by
  refine ⟨rfl, ⟨_, rfl, rfl⟩, ⟨"object", rfl, rfl, ⟨rfl, [], rfl, by simp, trivial⟩, by simp⟩, ?_⟩
  exact fun schema below => absurd below (childless rfl)

theorem lengthOfObject_splits :
    Proper asciiText lengthOfObject ∧
      ¬ (SemanticJSONSchema.validateDocument asciiText (decode asciiText lengthOfObject) = .ok () ↔
        SemanticJsonSchema.create lengthOfObject = .ok ()) := by
  refine ⟨lengthOfObject_proper, fun agree => ?_⟩
  rw [ios_document_ok lengthOfObject_proper, android_document_ok lengthOfObject_proper] at agree
  have unquoted : NowhereQuoted lengthOfObject := ⟨fun _ => rfl, fun schema below => absurd below (childless rfl)⟩
  obtain ⟨-, ⟨separate, -⟩, -⟩ := agree.mp ⟨lengthOfObject_passes, unquoted⟩
  exact absurd ((separate rfl).1 "minLength" (by decide)) (by decide)

/-- The plain object schema is accepted on both platforms. -/
theorem plainObject_agrees :
    SemanticJSONSchema.validateDocument asciiText (decode asciiText (objectSchema [])) = .ok () ↔
      SemanticJsonSchema.create (objectSchema []) = .ok () := by
  have proper : Proper asciiText (objectSchema []) := objectSchema_proper (by decide) (by simp) (by simp)
  refine (acceptance_agrees asciiText (objectSchema []) proper).mpr fun _ => ⟨fun _ => ⟨⟨fun _ => ⟨by decide, ?_⟩, ?_⟩, ?_⟩, ?_⟩
  · intro properties known
    trivial
  · exact fun schema below => absurd below (childless rfl)
  · intro identifier found
    cases found
    decide
  · exact fun _ => ⟨fun _ => rfl, fun schema below => absurd below (childless rfl)⟩

end AppPilotKit.Semantic
