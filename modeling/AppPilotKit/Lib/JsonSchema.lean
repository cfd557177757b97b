import AppPilotKit.Lib.Keyed

/-! # JSON Schema

Validation of JSON Schema 2020-12, for any type of values that present JSON data. A
subschema applies to a part of the instance; the instance conforms when every keyword
asserts what it should wherever its schema applies.
-/

namespace JsonSchema

/-- How values present JSON data. Two names are the same when they have the same key. -/
structure View (V : Type) where
  isNull : V → Prop
  boolean : V → Option Bool
  number : V → Option ℚ
  string : V → Option String
  items : V → Option (List V)
  members : V → Option (List (String × V))
  key : String → String

/-- Equality of JSON data: numbers by their value, objects whatever the order of their
    members. -/
inductive View.Equal {V : Type} (view : View V) : V → V → Prop where
  | null {a b : V} (left : view.isNull a) (right : view.isNull b) : Equal view a b
  | boolean {a b : V} {value : Bool} (left : view.boolean a = some value) (right : view.boolean b = some value) : Equal view a b
  | number {a b : V} {value : ℚ} (left : view.number a = some value) (right : view.number b = some value) : Equal view a b
  | string {a b : V} {value : String} (left : view.string a = some value) (right : view.string b = some value) : Equal view a b
  | array {a b : V} {xs ys : List V} (left : view.items a = some xs) (right : view.items b = some ys)
      (length : xs.length = ys.length) (elements : ∀ (i : Nat) (x y : V), xs[i]? = some x → ys[i]? = some y → Equal view x y) :
      Equal view a b
  | object {a b : V} {xs ys : List (String × V)} (left : view.members a = some xs) (right : view.members b = some ys)
      (names : ∀ name, Keyed.has view.key xs name = Keyed.has view.key ys name)
      (members : ∀ name x y, Keyed.get view.key xs name = some x → Keyed.get view.key ys name = some y → Equal view x y) :
      Equal view a b

/-- A view, and which values `const` and `enum` take for the same. -/
structure Reading (V : Type) extends View V where
  same : V → V → Prop

/-- The reading of the standard. -/
def View.reading {V : Type} (view : View V) : Reading V := { view with same := view.Equal }

namespace Reading

variable {V α : Type} (r : Reading V)

/-- The value of a keyword, when it is there and of the right kind. -/
def keyword (schema : List (String × V)) (name : String) (view : V → Option α) : Option α :=
  (Keyed.get r.key schema name).bind view

def declared (schema : List (String × V)) : List (String × V) := (r.keyword schema "properties" r.members).getD []

/-- `type`: an integer is a number without a fraction. -/
def HasType (type : String) (value : V) : Prop :=
  type = "null" ∧ r.isNull value ∨ type = "boolean" ∧ (r.boolean value).isSome ∨
    type = "integer" ∧ (∃ n : ℤ, r.number value = some n) ∨ type = "number" ∧ (r.number value).isSome ∨
    type = "string" ∧ (r.string value).isSome ∨ type = "array" ∧ (r.items value).isSome ∨
    type = "object" ∧ (r.members value).isSome

/-- What the keywords of one schema ask of the size and the members of one value. Each is
    about values of one kind and says nothing of the others. -/
structure Limits (schema : List (String × V)) (value : V) : Prop where
  minLength : ∀ bound text, r.keyword schema "minLength" r.number = some bound → r.string value = some text →
    bound ≤ (text.length : ℚ)
  maxLength : ∀ bound text, r.keyword schema "maxLength" r.number = some bound → r.string value = some text →
    (text.length : ℚ) ≤ bound
  minimum : ∀ bound number, r.keyword schema "minimum" r.number = some bound → r.number value = some number →
    bound ≤ number
  maximum : ∀ bound number, r.keyword schema "maximum" r.number = some bound → r.number value = some number →
    number ≤ bound
  minItems : ∀ bound items, r.keyword schema "minItems" r.number = some bound → r.items value = some items →
    bound ≤ (items.length : ℚ)
  maxItems : ∀ bound items, r.keyword schema "maxItems" r.number = some bound → r.items value = some items →
    (items.length : ℚ) ≤ bound
  required : ∀ names members, r.keyword schema "required" r.items = some names → r.members value = some members →
    ∀ element ∈ names, ∀ name, r.string element = some name → Keyed.has r.key members name = true
  additionalProperties : ∀ allowed members, r.keyword schema "additionalProperties" r.boolean = some allowed →
    r.members value = some members → allowed = false → ∀ member ∈ members, Keyed.has r.key (r.declared schema) member.1 = true

/-- What the keywords of one schema assert of one value. -/
structure Asserts (schema : List (String × V)) (value : V) : Prop where
  type : ∀ type, r.keyword schema "type" r.string = some type → r.HasType type value
  const : ∀ constant, r.keyword schema "const" some = some constant → r.same value constant
  enum : ∀ allowed, r.keyword schema "enum" r.items = some allowed → ∃ constant ∈ allowed, r.same value constant
  limits : r.Limits schema value

/-- Which schemas apply to which parts of a value: `items` to the elements of an array,
    `properties` to the members of an object. -/
inductive Applies (root : List (String × V)) (instance_ : V) : List (String × V) → V → Prop where
  | root : Applies root instance_ root instance_
  | item {schema inner : List (String × V)} {value element : V} {elements : List V}
      (applies : Applies root instance_ schema value) (subschema : r.keyword schema "items" r.members = some inner)
      (array : r.items value = some elements) (member : element ∈ elements) : Applies root instance_ inner element
  | property {schema inner members : List (String × V)} {value : V} {member : String × V}
      (applies : Applies root instance_ schema value) (object : r.members value = some members) (among : member ∈ members)
      (subschema : r.keyword (r.declared schema) member.1 r.members = some inner) :
      Applies root instance_ inner member.2

def Conforms (schema : List (String × V)) (value : V) : Prop :=
  ∀ inner part, r.Applies schema value inner part → r.Asserts inner part

variable {r} {root schema inner : List (String × V)} {instance_ value part : V}

theorem Applies.trans (outer : r.Applies root instance_ schema value) (deeper : r.Applies schema value inner part) :
    r.Applies root instance_ inner part := by
  induction deeper with
  | root => exact outer
  | item _ subschema array member ih => exact ih.item subschema array member
  | property _ object among subschema ih => exact ih.property object among subschema

theorem Conforms.below (conforms : r.Conforms root instance_) (applies : r.Applies root instance_ schema value) :
    r.Conforms schema value :=
  fun _ _ deeper => conforms _ _ (applies.trans deeper)

/-- Conformance from the outside in. -/
theorem conforms_iff :
    r.Conforms schema value ↔ r.Asserts schema value ∧
      (∀ inner elements, r.keyword schema "items" r.members = some inner → r.items value = some elements →
        ∀ element ∈ elements, r.Conforms inner element) ∧
      ∀ members, r.members value = some members → ∀ member ∈ members, ∀ inner,
        r.keyword (r.declared schema) member.1 r.members = some inner → r.Conforms inner member.2 := by
  constructor
  · intro conforms
    refine ⟨conforms _ _ .root, fun inner elements subschema array element member => ?_,
      fun members object member among inner subschema => ?_⟩
    · exact conforms.below (Applies.root.item subschema array member)
    · exact conforms.below (Applies.root.property object among subschema)
  · rintro ⟨here, items, properties⟩ inner part applies
    -- a schema that applies below the root applies below one of the first steps
    have below : r.Asserts inner part ∧ ((inner, part) = (schema, value) ∨ r.Conforms inner part) := by
      induction applies with
      | root => exact ⟨here, .inl rfl⟩
      | item _ subschema array member ih =>
          rcases ih.2 with same | conforms
          · cases same
            have conforms := items _ _ subschema array _ member
            exact ⟨conforms _ _ .root, .inr conforms⟩
          · have conforms := conforms.below (Applies.root.item subschema array member)
            exact ⟨conforms _ _ .root, .inr conforms⟩
      | property _ object among subschema ih =>
          rcases ih.2 with same | conforms
          · cases same
            have conforms := properties _ object _ among _ subschema
            exact ⟨conforms _ _ .root, .inr conforms⟩
          · have conforms := conforms.below (Applies.root.property object among subschema)
            exact ⟨conforms _ _ .root, .inr conforms⟩
    exact below.1

/-! ## Limits by the kind of the value -/

/-- No limit is about a value that is no number, text, array or object. -/
theorem limits_plain (noString : r.string value = none) (noNumber : r.number value = none) (noItems : r.items value = none)
    (noMembers : r.members value = none) : r.Limits schema value := by
  constructor <;> intro _ _ _ kind
  all_goals simp [noString, noNumber, noItems, noMembers] at kind

theorem limits_string {text : String} (string : r.string value = some text) (noNumber : r.number value = none)
    (noItems : r.items value = none) (noMembers : r.members value = none) :
    r.Limits schema value ↔ (∀ bound, r.keyword schema "minLength" r.number = some bound → bound ≤ (text.length : ℚ)) ∧
      ∀ bound, r.keyword schema "maxLength" r.number = some bound → (text.length : ℚ) ≤ bound := by
  constructor
  · exact fun limits => ⟨fun bound asks => limits.minLength bound _ asks string, fun bound asks => limits.maxLength bound _ asks string⟩
  · rintro ⟨minLength, maxLength⟩
    constructor <;> intro bound _ asks kind
    case minLength =>
      cases string.symm.trans kind
      exact minLength bound asks
    case maxLength =>
      cases string.symm.trans kind
      exact maxLength bound asks
    all_goals simp [noNumber, noItems, noMembers] at kind

theorem limits_number {number : ℚ} (noString : r.string value = none) (here : r.number value = some number)
    (noItems : r.items value = none) (noMembers : r.members value = none) :
    r.Limits schema value ↔ (∀ bound, r.keyword schema "minimum" r.number = some bound → bound ≤ number) ∧
      ∀ bound, r.keyword schema "maximum" r.number = some bound → number ≤ bound := by
  constructor
  · exact fun limits => ⟨fun bound asks => limits.minimum bound _ asks here, fun bound asks => limits.maximum bound _ asks here⟩
  · rintro ⟨minimum, maximum⟩
    constructor <;> intro bound _ asks kind
    case minimum =>
      cases here.symm.trans kind
      exact minimum bound asks
    case maximum =>
      cases here.symm.trans kind
      exact maximum bound asks
    all_goals simp [noString, noItems, noMembers] at kind

theorem limits_items {items : List V} (noString : r.string value = none) (noNumber : r.number value = none)
    (here : r.items value = some items) (noMembers : r.members value = none) :
    r.Limits schema value ↔ (∀ bound, r.keyword schema "minItems" r.number = some bound → bound ≤ (items.length : ℚ)) ∧
      ∀ bound, r.keyword schema "maxItems" r.number = some bound → (items.length : ℚ) ≤ bound := by
  constructor
  · exact fun limits => ⟨fun bound asks => limits.minItems bound _ asks here, fun bound asks => limits.maxItems bound _ asks here⟩
  · rintro ⟨minItems, maxItems⟩
    constructor <;> intro bound _ asks kind
    case minItems =>
      cases here.symm.trans kind
      exact minItems bound asks
    case maxItems =>
      cases here.symm.trans kind
      exact maxItems bound asks
    all_goals simp [noString, noNumber, noMembers] at kind

/-- A closed schema asks for the required names and for no others than it declares. -/
theorem limits_members {members : List (String × V)} (noString : r.string value = none) (noNumber : r.number value = none)
    (noItems : r.items value = none) (here : r.members value = some members)
    (closed : r.keyword schema "additionalProperties" r.boolean = some false) :
    r.Limits schema value ↔ (∀ names, r.keyword schema "required" r.items = some names → ∀ element ∈ names, ∀ name,
        r.string element = some name → Keyed.has r.key members name = true) ∧
      ∀ member ∈ members, Keyed.has r.key (r.declared schema) member.1 = true := by
  constructor
  · exact fun limits => ⟨fun names asks => limits.required names _ asks here,
      limits.additionalProperties false members closed here rfl⟩
  · rintro ⟨required, only⟩
    constructor <;> intro bound _ asks kind
    case required =>
      cases here.symm.trans kind
      exact required bound asks
    case additionalProperties =>
      cases here.symm.trans kind
      exact fun _ => only
    all_goals simp [noString, noNumber, noItems] at kind

end Reading

end JsonSchema
