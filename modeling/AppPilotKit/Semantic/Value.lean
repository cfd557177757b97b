import AppPilotKit.Lib.Binary64
import AppPilotKit.Lib.Checks
import AppPilotKit.Lib.Json
import AppPilotKit.Snapshot.Capture

/-! # JSON values on iOS

`JSONValue` as `JSONDecoder` builds it from a document, and its text in the canonical
form. Swift takes two strings for the same when they are canonically equivalent.
-/

namespace AppPilotKit.Semantic

open Snapshot (JSONValue Double)

/-! ## Strings -/

/-- An ASCII character that is no other character's canonical decomposition. -/
def plainCharacter (c : Char) : Bool := c.toNat < 128 && c.toNat ≠ 59 && c.toNat ≠ 75 && c.toNat ≠ 96

/-- Unicode normalisation form C, and what the code relies on: only `;`, `K` and the
    grave accent have a second spelling among the ASCII characters. -/
structure Normalization where
  nfc : String → String
  plain : ∀ s t : String, t.toList.all plainCharacter = true → nfc s = nfc t → s = t

variable (unicode : Normalization)

/-- `==` of Swift strings. -/
def Normalization.same (s t : String) : Bool := unicode.nfc s = unicode.nfc t

theorem Normalization.same_plain {t : String} (plain : t.toList.all plainCharacter = true) (s : String) :
    unicode.same s t = true ↔ s = t := by
  unfold Normalization.same
  rw [decide_eq_true_iff]
  constructor
  · exact unicode.plain s t plain
  · intro same
    rw [same]

/-! ## Decoding -/

/-- A number is an `Int64`, else a `UInt64`, else a `Double`. -/
def decodeNumber (n : Int) : JSONValue :=
  if -(2 ^ 63) ≤ n ∧ n < 2 ^ 63 then .integer n
  else if 0 ≤ n ∧ n < 2 ^ 64 then .unsignedInteger n.toNat
  else .number (Binary64.ofRat n)

mutual
/-- `JSONValue.init(from:)`. -/
def decode : Json → JSONValue
  | .null => .null
  | .bool value => .bool value
  | .integer literal => decodeNumber literal.value
  | .string value => .string value
  | .array values => .array (decodeValues values)
  | .object members => .object (Keyed.first unicode.nfc (decodeMembers members))

def decodeValues : List Json → List JSONValue
  | [] => []
  | value :: values => decode value :: decodeValues values

def decodeMembers : List (String × Json) → List (String × JSONValue)
  | [] => []
  | (name, value) :: members => (name, decode value) :: decodeMembers members
end

theorem decodeValues_eq (values : List Json) : decodeValues unicode values = values.map (decode unicode) := by
  induction values with
  | nil => rfl
  | cons value values ih =>
      rw [decodeValues, ih]
      rfl

theorem decodeMembers_eq (members : List (String × Json)) :
    decodeMembers unicode members = members.map fun entry => (entry.1, decode unicode entry.2) := by
  induction members with
  | nil => rfl
  | cons entry members ih =>
      rw [decodeMembers, ih]
      rfl

/-- An object whose names are canonically distinct keeps all its members. -/
theorem decode_object {members : List (String × Json)} (unambiguous : Keyed.Unambiguous unicode.nfc members) :
    decode unicode (.object members) = .object (members.map fun entry => (entry.1, decode unicode entry.2)) := by
  rw [decode, decodeMembers_eq, Keyed.first_of_unambiguous (Keyed.unambiguous_map.mpr unambiguous)]

/-! ## Checks on values -/

inductive SemanticCatalogError where
  | invalidSchema
  | invalidOutput
deriving DecidableEq

mutual
/-- Numbers are finite and no name is empty. -/
def validateFiniteJSON : JSONValue → Except SemanticCatalogError Unit
  | .number number => if number.isFinite then .ok () else .error .invalidOutput
  | .array values => validateFiniteValues values
  | .object fields => validateFiniteFields fields
  | _ => .ok ()

def validateFiniteValues : List JSONValue → Except SemanticCatalogError Unit
  | [] => .ok ()
  | value :: values => do
      validateFiniteJSON value
      validateFiniteValues values

def validateFiniteFields : List (String × JSONValue) → Except SemanticCatalogError Unit
  | [] => .ok ()
  | (key, value) :: fields => do
      if key = "" then throw .invalidOutput
      validateFiniteJSON value
      validateFiniteFields fields
end

theorem validateFiniteValues_ok {values : List JSONValue} :
    validateFiniteValues values = .ok () ↔ ∀ value ∈ values, validateFiniteJSON value = .ok () := by
  induction values with
  | nil => simp [validateFiniteValues]
  | cons value values ih =>
      rw [validateFiniteValues, Checks.and_then_ok, ih]
      simp

theorem validateFiniteFields_ok {fields : List (String × JSONValue)} :
    validateFiniteFields fields = .ok () ↔ ∀ entry ∈ fields, entry.1 ≠ "" ∧ validateFiniteJSON entry.2 = .ok () := by
  induction fields with
  | nil => simp [validateFiniteFields]
  | cons entry fields ih =>
      obtain ⟨key, value⟩ := entry
      rw [validateFiniteFields]
      by_cases empty : key = ""
      · simp [empty, Checks.bind_ok, throw, throwThe, MonadExceptOf.throw]
      · rw [if_neg empty, Checks.and_then_ok, ih]
        simp [empty]

end AppPilotKit.Semantic
