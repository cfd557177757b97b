import AppPilotKit.Lib.JsonText
import AppPilotKit.Semantic.Value

/-! # The canonical form

A digest is taken of the canonical text of a value: members in the order of their names,
numbers in the notation of ECMAScript, no blanks. iOS and Android each have their own
writer.
-/

namespace AppPilotKit.Semantic

open Snapshot (JSONValue Double)
open Binary64 (Decimal shortest)

/-- The bytes of a text in UTF-8. -/
def bytes (text : JsonText) : ByteArray := (String.ofList text.characters).toByteArray

/-! ## Numbers on iOS -/

def zeros (count : Nat) : List Char := List.replicate count '0'

def digitsOf (n : Nat) : List Char := (toString n).toList

/-- `d.ddde±xx`, with two digits of exponent at least. -/
def exponential (digits : List Char) (exponent : Int) : List Char :=
  let magnitude := digitsOf exponent.natAbs
  digits.take 1 ++ (if digits.length = 1 then [] else '.' :: digits.drop 1) ++
    ['e', if exponent < 0 then '-' else '+'] ++ zeros (2 - magnitude.length) ++ magnitude

/-- Positional notation with a point: `point` digits stand before it. -/
def positional (digits : List Char) (point : Int) : List Char :=
  if point ≤ 0 then ['0', '.'] ++ zeros (-point).toNat ++ digits
  else if digits.length ≤ point then digits ++ zeros (point - digits.length).toNat ++ ['.', '0']
  else digits.take point.toNat ++ '.' :: digits.drop point.toNat

/-- `String(value)` of a nonzero number: the shortest digits that read back, in
    exponential notation below `0.0001` and above `2 ^ 54`. -/
def description (value : ℚ) : List Char :=
  let decimal := shortest |value|
  let digits := digitsOf decimal.digits
  let point := digits.length + decimal.exponent
  (if value < 0 then ['-'] else []) ++
    if point < -3 ∨ 2 ^ 54 < |value| then exponential digits (point - 1) else positional digits point

def digitValue (digits : List Char) : Nat := digits.foldl (fun value c => 10 * value + (c.toNat - 48)) 0

/-- `Int(text)!`. -/
def exponentValue : List Char → Int
  | '-' :: digits => -(digitValue digits : Int)
  | '+' :: digits => digitValue digits
  | digits => digitValue digits

def dropPointZero (raw : List Char) : List Char :=
  if ['.', '0'].isSuffixOf raw then raw.dropLast.dropLast else raw

def expandScientificNumber (raw : List Char) : List Char :=
  match raw.dropWhile (· ≠ 'e') with
  | [] => dropPointZero raw
  | _ :: exponentText =>
      let mantissa := raw.takeWhile (· ≠ 'e')
      let negative := mantissa.head? = some '-'
      let unsignedMantissa := if negative then mantissa.tail else mantissa
      let digits := unsignedMantissa.filter (· ≠ '.')
      let integerDigits := (unsignedMantissa.takeWhile (· ≠ '.')).length + exponentValue exponentText
      let expanded :=
        if integerDigits ≤ 0 then ['0', '.'] ++ zeros (-integerDigits).toNat ++ digits
        else if digits.length ≤ integerDigits then digits ++ zeros (integerDigits - digits.length).toNat
        else digits.take integerDigits.toNat ++ '.' :: digits.drop integerDigits.toNat
      if negative then '-' :: expanded else expanded

def normalizeScientificNumber (raw : List Char) : List Char :=
  match raw.dropWhile (· ≠ 'e') with
  | [] => dropPointZero raw
  | _ :: exponentText =>
      let exponent := exponentValue exponentText
      dropPointZero (raw.takeWhile (· ≠ 'e')) ++ ['e'] ++
        (if 0 ≤ exponent then ['+'] else ['-']) ++ digitsOf exponent.natAbs

def ecmaNumber (value : Double) : Except SemanticCatalogError (List Char) :=
  match value with
  | none => .error .invalidOutput
  | some value =>
      if value = 0 then .ok ['0']
      else if 1 / 10 ^ 6 ≤ |value| ∧ |value| < 10 ^ 21 then .ok (expandScientificNumber (description value))
      else .ok (normalizeScientificNumber (description value))

/-! ## Writing on iOS -/

section
variable (unicode : Normalization)

/-- Swift orders strings by the scalars of their canonical spelling. -/
def swiftKey (name : String) : List Nat := (unicode.nfc name).toList.map Char.toNat

def sortedFields {β : Type} (members : List (String × β)) : List (String × β) :=
  members.insertionSort fun a b => swiftKey unicode a.1 ≤ swiftKey unicode b.1

mutual
/-- `canonicalString`. The members are written and then sorted; their names are distinct. -/
def canonicalText : JSONValue → Except SemanticCatalogError JsonText
  | .null => .ok (.word ['n', 'u', 'l', 'l'])
  | .bool value => .ok (.word (toString value).toList)
  | .integer value => .ok (.word (toString value).toList)
  | .unsignedInteger value => .ok (.word (toString value).toList)
  | .number value => (ecmaNumber value).map .word
  | .string value => .ok (.string value)
  | .array values => (canonicalValues values).map .array
  | .object fields => (canonicalFields fields).map fun members => .object (sortedFields unicode members)

def canonicalValues : List JSONValue → Except SemanticCatalogError (List JsonText)
  | [] => .ok []
  | value :: values => do
      let text ← canonicalText value
      let texts ← canonicalValues values
      return text :: texts

def canonicalFields : List (String × JSONValue) → Except SemanticCatalogError (List (String × JsonText))
  | [] => .ok []
  | (name, value) :: fields => do
      let text ← canonicalText value
      let texts ← canonicalFields fields
      return (name, text) :: texts
end

def canonicalData (value : JSONValue) : Except SemanticCatalogError ByteArray := do
  validateFiniteJSON value
  let text ← canonicalText unicode value
  return bytes text

end

/-! ## Android -/

/-- The UTF-16 code units of a character. -/
def codeUnits (c : Char) : List Nat :=
  if c.toNat < 0x10000 then [c.toNat]
  else [0xD800 + (c.toNat - 0x10000) / 0x400, 0xDC00 + (c.toNat - 0x10000) % 0x400]

/-- Kotlin orders strings by their code units. -/
def kotlinKey (name : String) : List Nat := name.toList.flatMap codeUnits

def sortedEntries {β : Type} (members : List (String × β)) : List (String × β) :=
  members.insertionSort fun a b => kotlinKey a.1 ≤ kotlinKey b.1

/-- `canonicalNumber` of an integer: zero loses its sign. -/
def canonicalNumber (literal : Literal) : Literal := if literal.magnitude = 0 then { magnitude := 0 } else literal

mutual
def canonicalize : Json → Json
  | .object members => .object (sortedEntries (canonicalizeMembers members))
  | .array values => .array (canonicalizeValues values)
  | .integer literal => .integer (canonicalNumber literal)
  | .null => .null
  | .bool value => .bool value
  | .string value => .string value

def canonicalizeValues : List Json → List Json
  | [] => []
  | value :: values => canonicalize value :: canonicalizeValues values

def canonicalizeMembers : List (String × Json) → List (String × Json)
  | [] => []
  | (name, value) :: members => (name, canonicalize value) :: canonicalizeMembers members
end

mutual
def wireJson : Json → JsonText
  | .null => .word ['n', 'u', 'l', 'l']
  | .object members => .object (wireMembers members)
  | .array values => .array (wireValues values)
  | .string value => .string value
  | .bool value => .word (toString value).toList
  | .integer literal => .word (canonicalNumber literal).text.toList

def wireValues : List Json → List JsonText
  | [] => []
  | value :: values => wireJson value :: wireValues values

def wireMembers : List (String × Json) → List (String × JsonText)
  | [] => []
  | (name, value) :: members => (name, wireJson value) :: wireMembers members
end

end AppPilotKit.Semantic
