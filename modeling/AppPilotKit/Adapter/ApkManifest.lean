import AppPilotKit.Adapter.Common
import AppPilotKit.Lib.Checks
import AppPilotKit.Lib.Utf8

/-! # The binary manifest of an APK

`parse_binary_manifest` walks over the chunks of a compiled `AndroidManifest.xml`: the string
pool, the resource map and the starts and ends of elements. Sums, slices and indices that the
source leaves unchecked end in a fault here when they do not fit.
-/

namespace AppPilotKit.Adapter.Apk

open Wire Checks

def manifestLimit : Nat := 2 * 1024 * 1024
def decodedBytesLimit : Nat := 2 * 1024 * 1024
def xmlDepthLimit : Nat := 256
def noIndex : Nat := 2 ^ 32 - 1
def androidNs : Chars := "http://schemas.android.com/apk/res/android".toList
def bootstrapClass : Chars := "AppPilotKitBootstrapActivity".toList
def androidAttrName : Nat := 0x01010003
def androidAttrEnabled : Nat := 0x0101000e
def androidAttrExported : Nat := 0x01010010

/-- A refusal, or a step that the machine cannot take: a sum that overflows, an index or a slice
    out of range. -/
inductive Stop where
  | refused
  | fault
  deriving DecidableEq

abbrev Parsed := Except Stop

def refuse {α : Type} : Parsed α := .error .refused

def refuseIf (wrong : Prop) [Decidable wrong] : Parsed Unit := if wrong then refuse else .ok ()

def orRefuse {α : Type} : Option α → Parsed α
  | some a => .ok a
  | none => refuse

theorem refuseIf_ok {wrong : Prop} [Decidable wrong] : refuseIf wrong = .ok () ↔ ¬ wrong := by
  unfold refuseIf refuse
  split <;> simp_all

theorem orRefuse_ok {α : Type} {o : Option α} {a : α} : orRefuse o = .ok a ↔ o = some a := by
  cases o <;> simp [orRefuse, refuse]

/-! ## The machine -/

/-- `+` on `usize`. -/
def plus (a b : Nat) : Parsed Nat := if a + b < 2 ^ 64 then .ok (a + b) else .error .fault

theorem plus_ok {a b sum : Nat} (h : plus a b = .ok sum) : sum = a + b := by
  unfold plus at h
  split at h
  · cases h
    rfl
  · cases h

/-- `*` on `usize`. -/
def times (a b : Nat) : Parsed Nat := if a * b < 2 ^ 64 then .ok (a * b) else .error .fault

/-- `-` on `usize`. -/
def minus (a b : Nat) : Parsed Nat := if b ≤ a then .ok (a - b) else .error .fault

def checkedAdd (a b : Nat) : Parsed Nat := if a + b < 2 ^ 64 then .ok (a + b) else refuse

def checkedMul (a b : Nat) : Parsed Nat := if a * b < 2 ^ 64 then .ok (a * b) else refuse

section
variable (input : Bytes)

/-- `input[first..last]`. -/
def slice (first last : Nat) : Parsed Bytes :=
  if first ≤ last ∧ last ≤ input.length then .ok ((input.drop first).take (last - first)) else .error .fault

/-- `input[offset]`. -/
def byteAt (offset : Nat) : Parsed UInt8 :=
  match input[offset]? with
  | some b => .ok b
  | none => .error .fault

def le (width offset : Nat) : Parsed Nat :=
  if offset + width < 2 ^ 64 ∧ offset + width ≤ input.length then .ok (beNat ((input.drop offset).take width).reverse) else refuse

/-- `le_u16`, with a refusal for what is not there. -/
def leU16 (offset : Nat) : Parsed Nat := le input 2 offset

def leU32 (offset : Nat) : Parsed Nat := le input 4 offset

end

/-! ## Strings -/

/-- The code units of a text in UTF-16. -/
def utf16Length (text : Chars) : Nat := (text.map fun c => if c.toNat < 0x10000 then 1 else 2).sum

section
variable (input : Bytes)

def length8 (offset : Nat) : Parsed (Nat × Nat) := do
  let first ← orRefuse input[offset]?
  if first.toNat < 0x80 then
    let cursor ← plus offset 1
    return (first.toNat, cursor)
  else
    let second ← orRefuse input[← plus offset 1]?
    let cursor ← plus offset 2
    return ((first.toNat - 0x80) * 256 + second.toNat, cursor)

/-- What is left of the budget after a string. -/
def claim (remaining bytes : Nat) : Parsed Nat := if bytes ≤ remaining then .ok (remaining - bytes) else refuse

def decodeUtf8String (offset remaining : Nat) : Parsed (Chars × Nat) := do
  let (units, offset) ← length8 input offset
  let (byteLength, offset) ← length8 input offset
  refuseIf (decodedBytesLimit < byteLength)
  let last ← checkedAdd offset byteLength
  refuseIf (input.length ≤ last)
  let terminator ← byteAt input last
  refuseIf (terminator ≠ 0)
  let bytes ← slice input offset last
  let value ← orRefuse (Cbor.decodeUtf8 bytes)
  refuseIf (utf16Length value ≠ units)
  let remaining ← claim remaining byteLength
  return (value, remaining)

/-- `chunks_exact(2)`, little-endian. -/
def codeUnits : Bytes → List Nat
  | low :: high :: rest => (low.toNat + 256 * high.toNat) :: codeUnits rest
  | _ => []

/-- `char::decode_utf16`, while no surrogate stands alone. -/
def decodeUtf16 : List Nat → Option Chars
  | [] => some []
  | unit :: units =>
      if unit < 0xD800 ∨ 0xE000 ≤ unit then (decodeUtf16 units).map (Char.ofNat unit :: ·)
      else if 0xDC00 ≤ unit then none
      else
        match units with
        | low :: rest =>
            if 0xDC00 ≤ low ∧ low < 0xE000 then
              (decodeUtf16 rest).map (Char.ofNat (0x10000 + (unit - 0xD800) * 0x400 + (low - 0xDC00)) :: ·)
            else none
        | [] => none

/-- The length before a string in UTF-16, and where the string starts. -/
def length16 (offset : Nat) : Parsed (Nat × Nat) := do
  let first ← leU16 input offset
  if first < 0x8000 then
    let cursor ← plus offset 2
    return (first, cursor)
  else
    let second ← leU16 input (← plus offset 2)
    let cursor ← plus offset 4
    return ((first - 0x8000) * 65536 + second, cursor)

def decodeUtf16String (offset remaining : Nat) : Parsed (Chars × Nat) := do
  let (length, cursor) ← length16 input offset
  let terminator ← checkedAdd cursor (← checkedMul length 2)
  let after ← checkedAdd terminator 2
  refuseIf (input.length < after)
  refuseIf ((← leU16 input terminator) ≠ 0)
  let bytes ← slice input cursor terminator
  let value ← orRefuse (decodeUtf16 (codeUnits bytes))
  let remaining ← claim remaining (Cbor.utf8 value).length
  return (value, remaining)

def decodeString (utf8 : Bool) (offset remaining : Nat) : Parsed (Chars × Nat) :=
  if utf8 then decodeUtf8String input offset remaining else decodeUtf16String input offset remaining

/-- The loop over the offsets of the strings from `index` on. -/
def decodeStrings (utf8 : Bool) (stringsStart : Nat) : (count index remaining : Nat) → Parsed (List Chars)
  | 0, _, _ => return []
  | count + 1, index, remaining => do
      let relative ← leU32 input (← plus 28 (← times index 4))
      let offset ← checkedAdd stringsStart relative
      let (value, remaining) ← decodeString input utf8 offset remaining
      let others ← decodeStrings utf8 stringsStart count (index + 1) remaining
      return value :: others

def parseStringPool : Parsed (List Chars) := do
  refuseIf (input.length < 28 ∨ manifestLimit < input.length)
  refuseIf ((← leU16 input 0) ≠ 0x0001)
  let headerSize ← leU16 input 2
  let stringCount ← leU32 input 8
  let styleCount ← leU32 input 12
  let flags ← leU32 input 16
  let stringsStart ← leU32 input 20
  let stylesStart ← leU32 input 24
  refuseIf (headerSize ≠ 28 ∨ 65536 < stringCount ∨ styleCount ≠ 0 ∨ stylesStart ≠ 0 ∨ (flags ≠ 0 ∧ flags ≠ 0x100))
  refuseIf (stringsStart < (← plus headerSize (← times stringCount 4)))
  refuseIf (input.length < stringsStart)
  decodeStrings input (decide (flags = 0x100)) stringsStart stringCount 0 decodedBytesLimit

/-- The loop over the resource map from `index` on. -/
def readResources : (count index : Nat) → Parsed (List Nat)
  | 0, _ => return []
  | count + 1, index => do
      let resource ← leU32 input (← plus 8 (← times index 4))
      let others ← readResources count (index + 1)
      return resource :: others

def parseResourceMap (stringCount : Nat) : Parsed (List Nat) := do
  refuseIf (input.length < 8)
  refuseIf ((← leU16 input 0) ≠ 0x0180)
  refuseIf ((← leU16 input 2) ≠ 8)
  refuseIf ((← leU32 input 4) ≠ input.length)
  let length ← minus input.length 8
  refuseIf (length % 4 ≠ 0)
  let count := length / 4
  refuseIf (count = 0 ∨ stringCount < count)
  readResources input count 0

end

/-! ## Elements -/

inductive AttributeValue where
  | string (value : Chars)
  | boolean (value : Bool)
  | other
  deriving DecidableEq

structure Attribute where
  ns : Option Chars
  name : Chars
  resourceId : Option Nat
  raw : Option Chars
  typed : AttributeValue
  deriving DecidableEq

structure StartElement where
  nameIndex : Nat
  name : Chars
  attributes : List Attribute
  deriving DecidableEq

/-- `StringPool::get`. -/
def poolGet (strings : List Chars) (index : Nat) : Parsed Chars := orRefuse strings[index]?

/-- The value of an attribute from its type and its data. -/
def readValue (strings : List Chars) (dataType : UInt8) (data : Nat) : Parsed AttributeValue :=
  if dataType = 0x03 then do
    let value ← poolGet strings data
    return .string value
  else if dataType = 0x12 then return .boolean (decide (data ≠ 0))
  else if dataType ≤ 0x08 ∨ (0x10 ≤ dataType ∧ dataType ≤ 0x1f) then return .other
  else refuse

/-- An index that may be absent. -/
def poolGet? (strings : List Chars) (index : Nat) : Parsed (Option Chars) :=
  if index = noIndex then return none else return some (← poolGet strings index)

section
variable (input : Bytes) (strings : List Chars) (resourceMap : List Nat)

def parseAttribute (offset : Nat) : Parsed Attribute := do
  let ns ← poolGet? strings (← leU32 input offset)
  let nameIndex ← leU32 input (← plus offset 4)
  let name ← poolGet strings nameIndex
  let resourceId := resourceMap[nameIndex]?.filter (· ≠ 0)
  let rawIndex ← leU32 input (← plus offset 8)
  refuseIf ((← leU16 input (← plus offset 12)) ≠ 8)
  refuseIf ((← orRefuse input[← plus offset 14]?) ≠ 0)
  let dataType ← orRefuse input[← plus offset 15]?
  let data ← leU32 input (← plus offset 16)
  let raw ← poolGet? strings rawIndex
  let typed ← readValue strings dataType data
  return { ns, name, resourceId, raw, typed }

/-- The loop over the attributes from `index` on. -/
def parseAttributes (first : Nat) : (count index : Nat) → Parsed (List Attribute)
  | 0, _ => return []
  | count + 1, index => do
      let field ← parseAttribute input strings resourceMap (← plus first (← times index 20))
      let others ← parseAttributes first count (index + 1)
      return field :: others

def parseStartElement (cursor last headerSize : Nat) : Parsed StartElement := do
  refuseIf (headerSize ≠ 16)
  refuseIf (last < (← plus cursor 36))
  let nameIndex ← leU32 input (← plus cursor 20)
  let name ← poolGet strings nameIndex
  let attributeStart ← leU16 input (← plus cursor 24)
  let attributeSize ← leU16 input (← plus cursor 26)
  let attributeCount ← leU16 input (← plus cursor 28)
  refuseIf (attributeStart ≠ 20 ∨ attributeSize ≠ 20 ∨ 1024 < attributeCount)
  let first ← checkedAdd cursor (← plus 16 attributeStart)
  let attributesEnd ← checkedAdd first (← checkedMul attributeCount attributeSize)
  refuseIf (attributesEnd ≠ last)
  let attributes ← parseAttributes input strings resourceMap first attributeCount 0
  return { nameIndex, name, attributes }

end

namespace StartElement

/-- An attribute that a name or a resource ID stands for must be meant by both. -/
def identityAttribute (element : StartElement) (ns : Option Chars) (name : Chars) (resourceId : Option Nat) :
    Parsed (Option Attribute) :=
  if resourceId.any fun expected => element.attributes.any fun field =>
      (field.name = name || field.resourceId = some expected) &&
        (field.ns ≠ ns || field.name ≠ name || field.resourceId ≠ some expected) then refuse
  else
    match element.attributes.filter fun field => field.ns = ns && field.name = name &&
        resourceId.all fun expected => field.resourceId = some expected with
    | [] => .ok none
    | [field] => .ok (some field)
    | _ => refuse

def identityStringAttribute (element : StartElement) (ns : Option Chars) (name : Chars) (resourceId : Option Nat) :
    Parsed (Option Chars) := do
  match ← element.identityAttribute ns name resourceId with
  | none => return none
  | some field =>
      match field.typed with
      | .string value => if field.raw.any (· ≠ value) then refuse else return some value
      | _ => refuse

def identityBooleanAttribute (element : StartElement) (ns : Option Chars) (name : Chars) (resourceId : Nat) :
    Parsed (Option Bool) := do
  match ← element.identityAttribute ns name (some resourceId) with
  | none => return none
  | some field =>
      match field.typed with
      | .boolean value =>
          if field.raw.any (· ≠ (if value then "true" else "false").toList) then refuse else return some value
      | _ => refuse

end StartElement

def normalizeActivity (package value : Chars) : Parsed Chars :=
  if value = [] ∨ value.any fun c => c.toNat < 0x21 ∨ 0x7e < c.toNat then refuse
  else if value.head? = some '.' then return package ++ value
  else if '.' ∈ value then return value
  else return package ++ '.' :: value

/-! ## The chunks -/

/-- The variables of the loop. The innermost open element stands first on the stack. -/
structure State where
  strings : Option (List Chars) := none
  resourceMap : Option (List Nat) := none
  stack : List Nat := []
  package : Option Chars := none
  applicationCount : Nat := 0
  bootstrapActivityCount : Nat := 0
  bootstrapExported : Bool := false
  bootstrapEnabled : Bool := false
  deriving DecidableEq

structure ManifestFacts where
  package : Chars
  applicationCount : Nat
  bootstrapActivityCount : Nat
  bootstrapExported : Bool
  bootstrapEnabled : Bool
  deriving DecidableEq

section
variable (expectedPackage : Chars)

def expectedActivity : Chars := expectedPackage ++ '.' :: bootstrapClass

/-- An activity below something called `application`. -/
def onActivity (element : StartElement) (s : State) : Parsed State := do
  match ← element.identityStringAttribute (some androidNs) "name".toList (some androidAttrName) with
  | none => return s
  | some name =>
      let normalized ← normalizeActivity expectedPackage name
      if normalized = expectedActivity expectedPackage then
        let count ← plus s.bootstrapActivityCount 1
        refuseIf (count ≠ 1)
        let exported ← element.identityBooleanAttribute (some androidNs) "exported".toList androidAttrExported
        let exported ← orRefuse exported
        let enabled ← element.identityBooleanAttribute (some androidNs) "enabled".toList androidAttrEnabled
        return { s with bootstrapActivityCount := count, bootstrapExported := exported, bootstrapEnabled := enabled.getD true }
      else return s

def onManifest (element : StartElement) (s : State) : Parsed State := do
  let value ← element.identityStringAttribute none "package".toList none
  let value ← orRefuse value
  refuseIf (value ≠ expectedPackage)
  return { s with package := some value }

def onApplication (s : State) : Parsed State := do
  let count ← plus s.applicationCount 1
  return { s with applicationCount := count }

/-- The name of the innermost open element. -/
def parentName (pool : List Chars) : List Nat → Parsed (Option Chars)
  | [] => return none
  | index :: _ => return some (← poolGet pool index)

/-- The `match` on the name of an element. -/
def onElement (element : StartElement) (parent : Option Chars) (s : State) : Parsed State :=
  if element.name = "manifest".toList ∧ s.stack = [] ∧ s.package = none then onManifest expectedPackage element s
  else if element.name = "application".toList ∧ parent = some "manifest".toList then onApplication s
  else if element.name = "activity".toList ∧ parent = some "application".toList then onActivity expectedPackage element s
  else if s.stack = [] then refuse
  else return s

def onStart (pool : List Chars) (element : StartElement) (s : State) : Parsed State := do
  let parent ← parentName pool s.stack
  let s ← onElement expectedPackage element parent s
  return { s with stack := element.nameIndex :: s.stack }

def onEnd (pool : List Chars) (nameIndex : Nat) (s : State) : Parsed State := do
  let _ ← poolGet pool nameIndex
  match s.stack with
  | top :: rest => if top = nameIndex then return { s with stack := rest } else refuse
  | [] => refuse

variable (input : Bytes)

structure Chunk where
  kind : Nat
  headerSize : Nat
  size : Nat
  last : Nat

def readChunk (cursor : Nat) : Parsed Chunk := do
  let kind ← leU16 input cursor
  let headerSize ← leU16 input (← plus cursor 2)
  let size ← leU32 input (← plus cursor 4)
  let last ← checkedAdd cursor size
  if 8 ≤ headerSize ∧ headerSize ≤ size ∧ last ≤ input.length then return { kind, headerSize, size, last } else refuse

/-- The `match` on the kind of a chunk. -/
def onChunk (cursor : Nat) (chunk : Chunk) (s : State) : Parsed State := do
  if chunk.kind = 0x0001 ∧ s.strings = none ∧ s.stack = [] then
    let strings ← parseStringPool (← slice input cursor chunk.last)
    return { s with strings := some strings }
  else if chunk.kind = 0x0180 ∧ s.strings ≠ none ∧ s.resourceMap = none ∧ s.stack = [] then
    let pool ← orRefuse s.strings
    let resourceMap ← parseResourceMap (← slice input cursor chunk.last) pool.length
    return { s with resourceMap := some resourceMap }
  else if chunk.kind = 0x0100 ∨ chunk.kind = 0x0101 then
    refuseIf (s.strings = none ∨ chunk.headerSize ≠ 16 ∨ chunk.size ≠ 24)
    return s
  else if chunk.kind = 0x0102 then
    refuseIf (xmlDepthLimit ≤ s.stack.length)
    let pool ← orRefuse s.strings
    let resourceMap ← orRefuse s.resourceMap
    let element ← parseStartElement input pool resourceMap cursor chunk.last chunk.headerSize
    onStart expectedPackage pool element s
  else if chunk.kind = 0x0103 then
    refuseIf (chunk.headerSize ≠ 16 ∨ chunk.size ≠ 24)
    let nameIndex ← leU32 input (← plus cursor 20)
    let pool ← orRefuse s.strings
    onEnd pool nameIndex s
  else refuse

theorem readChunk_onward {cursor : Nat} {chunk : Chunk} (h : readChunk input cursor = .ok chunk) :
    cursor < chunk.last ∧ chunk.last ≤ input.length := by
  simp only [readChunk, bind_ok] at h
  obtain ⟨kind, -, -, -, headerSize, -, -, -, size, -, last, added, h⟩ := h
  split at h
  · next fits =>
      cases h
      unfold checkedAdd at added
      split at added
      · cases added
        exact ⟨by dsimp only; omega, fits.2.2⟩
      · cases added
  · cases h

/-- The loop over the chunks. -/
def parseChunks (cursor : Nat) (s : State) : Parsed (Nat × State) :=
  if cursor < input.length then
    match read : readChunk input cursor with
    | .error stop => .error stop
    | .ok chunk =>
        match onChunk expectedPackage input cursor chunk s with
        | .error stop => .error stop
        | .ok s => parseChunks chunk.last s
  else .ok (cursor, s)
termination_by input.length - cursor
decreasing_by
  have := readChunk_onward input read
  omega

def parseBinaryManifest : Parsed ManifestFacts := do
  refuseIf (input.length < 8)
  refuseIf ((← leU16 input 0) ≠ 0x0003)
  refuseIf ((← leU16 input 2) ≠ 8)
  refuseIf ((← leU32 input 4) ≠ input.length)
  let (cursor, s) ← parseChunks expectedPackage input 8 {}
  refuseIf (cursor ≠ input.length ∨ s.stack ≠ [])
  let package ← orRefuse s.package
  return { package, applicationCount := s.applicationCount, bootstrapActivityCount := s.bootstrapActivityCount
           bootstrapExported := s.bootstrapExported, bootstrapEnabled := s.bootstrapEnabled }

/-- `validate_apk_manifest` on the bytes of the manifest. -/
def validateManifest : Parsed Unit := do
  let facts ← parseBinaryManifest expectedPackage input
  if facts.package = expectedPackage ∧ facts.applicationCount = 1 ∧ facts.bootstrapActivityCount = 1 ∧
      facts.bootstrapExported ∧ facts.bootstrapEnabled then return ()
  else refuse

end

end AppPilotKit.Adapter.Apk
