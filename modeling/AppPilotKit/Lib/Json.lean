import AppPilotKit.Lib.Keyed

/-! # JSON documents

The tree of a JSON text whose numbers are integers. A number keeps the sign and the
digits it was written with, and an object the order of its members.
-/

/-- An integer as it is written: `-0` is not `0`. -/
structure Literal where
  negative : Bool := false
  magnitude : Nat
deriving DecidableEq

def Literal.value (literal : Literal) : Int :=
  if literal.negative then -(literal.magnitude : Int) else literal.magnitude

def Literal.text (literal : Literal) : String :=
  (if literal.negative then "-" else "") ++ toString literal.magnitude

inductive Json where
  | null
  | bool (value : Bool)
  | integer (literal : Literal)
  | string (value : String)
  | array (values : List Json)
  | object (members : List (String × Json))

namespace Json

/-- Every integer of the document meets `integers`, and the members of every object `objects`. -/
inductive Everywhere (integers : Literal → Prop) (objects : List (String × Json) → Prop) : Json → Prop where
  | null : Everywhere integers objects .null
  | bool (value : Bool) : Everywhere integers objects (.bool value)
  | integer {literal : Literal} (meets : integers literal) : Everywhere integers objects (.integer literal)
  | string (value : String) : Everywhere integers objects (.string value)
  | array {values : List Json} (all : ∀ value ∈ values, Everywhere integers objects value) :
      Everywhere integers objects (.array values)
  | object {members : List (String × Json)} (meets : objects members)
      (all : ∀ entry ∈ members, Everywhere integers objects entry.2) : Everywhere integers objects (.object members)

section
variable {integers : Literal → Prop} {objects : List (String × Json) → Prop}

@[simp] theorem everywhere_integer {literal : Literal} :
    Everywhere integers objects (.integer literal) ↔ integers literal := by
  constructor
  · intro holds
    cases holds with
    | integer meets => exact meets
  · exact .integer

@[simp] theorem everywhere_array {values : List Json} :
    Everywhere integers objects (.array values) ↔ ∀ value ∈ values, Everywhere integers objects value := by
  constructor
  · intro holds
    cases holds with
    | array all => exact all
  · exact .array

@[simp] theorem everywhere_object {members : List (String × Json)} :
    Everywhere integers objects (.object members) ↔
      objects members ∧ ∀ entry ∈ members, Everywhere integers objects entry.2 := by
  constructor
  · intro holds
    cases holds with
    | object meets all => exact ⟨meets, all⟩
  · rintro ⟨meets, all⟩
    exact .object meets all

end

theorem sizeOf_lt_of_get {key : String → String} {members : List (String × Json)} {name : String} {value : Json}
    (found : Keyed.get key members name = some value) : sizeOf value < sizeOf members := by
  obtain ⟨other, -, member⟩ := Keyed.mem_of_get found
  have := List.sizeOf_lt_of_mem member
  simp only [Prod.mk.sizeOf_spec] at this
  omega

end Json
