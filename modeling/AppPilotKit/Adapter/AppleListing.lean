import AppPilotKit.Adapter.AppleTools
import AppPilotKit.Lib.Checks
import AppPilotKit.Lib.Scan
import AppPilotKit.Lib.Utf8

/-! # The list of installed apps, byte by byte

`parse_listapps_contains` walks over the bytes that `simctl listapps` wrote, with a cursor and a
count of the values entered. The calls of the parser into itself take a fuel here, and running
out of it is told apart from a rejection, as is a slice out of range. Texts stand as their bytes.
-/

namespace AppPilotKit.Adapter.Apple.Listing

open Wire Scan

inductive Stop where
  | rejected
  /-- A slice that is not within the input. -/
  | fault
  /-- The recursion went deeper than its fuel. -/
  | exhausted
  deriving DecidableEq

abbrev Parsed := Except Stop

def reject {α : Type} : Parsed α := .error .rejected

def rejectIf (wrong : Prop) [Decidable wrong] : Parsed Unit := if wrong then reject else .ok ()

def orReject {α : Type} : Option α → Parsed α
  | some a => .ok a
  | none => reject

/-! ## Bytes -/

def isFrom (low high : Char) (b : UInt8) : Bool := low.toNat ≤ b.toNat && b.toNat ≤ high.toNat

def isAsciiWhitespace (b : UInt8) : Bool :=
  b ∈ [' '.toUInt8, '\t'.toUInt8, '\n'.toUInt8, '\x0c'.toUInt8, '\r'.toUInt8]

def isHexDigit (b : UInt8) : Bool := isFrom '0' '9' b || isFrom 'a' 'f' b || isFrom 'A' 'F' b

def hexValue (b : UInt8) : Nat :=
  if isFrom '0' '9' b then b.toNat - '0'.toNat
  else if isFrom 'a' 'f' b then b.toNat - 'a'.toNat + 10
  else b.toNat - 'A'.toNat + 10

def isOctal (b : UInt8) : Bool := isFrom '0' '7' b

/-- The bytes of a bare string. -/
def isBare (b : UInt8) : Bool :=
  isFrom '0' '9' b || isFrom 'a' 'z' b || isFrom 'A' 'Z' b ||
    b ∈ ['_'.toUInt8, '$'.toUInt8, '/'.toUInt8, ':'.toUInt8, '.'.toUInt8, '-'.toUInt8, '+'.toUInt8]

/-- The bytes of a comment up to the end of its line. -/
def inLine (b : UInt8) : Bool := b ≠ '\n'.toUInt8 && b ≠ '\r'.toUInt8

/-- The escapes of one letter. -/
def escapes : List (UInt8 × Char) :=
  [('"'.toUInt8, '"'), ('\\'.toUInt8, '\\'), ('a'.toUInt8, '\x07'), ('b'.toUInt8, '\x08'), ('f'.toUInt8, '\x0c'),
    ('n'.toUInt8, '\n'), ('r'.toUInt8, '\r'), ('t'.toUInt8, '\t'), ('v'.toUInt8, '\x0b')]

def lineComment : Bytes := ['/'.toUInt8, '/'.toUInt8]
def blockComment : Bytes := ['/'.toUInt8, '*'.toUInt8]
def blockEnd : Bytes := ['*'.toUInt8, '/'.toUInt8]

def strictUtf8 (text : Bytes) : Parsed Bytes := if Cbor.validUtf8 text then .ok text else reject

/-- `char::from_u32` -/
def charFromU32 (scalar : Nat) : Parsed Char := if scalar.isValidChar then .ok (Char.ofNat scalar) else reject

/-! ## The parser -/

structure OpenStepParser where
  cursor : Nat
  nodes : Nat

section
variable (bytes : Bytes)

/-- `bytes[first..last]` -/
def slice (first last : Nat) : Parsed Bytes :=
  match part bytes first last with
  | some piece => .ok piece
  | none => .error .fault

def requireByte (cursor : Nat) (expected : UInt8) : Parsed Nat :=
  if bytes[cursor]? = some expected then .ok (cursor + 1) else reject

/-- The count after one more value. -/
def enter (depth nodes : Nat) : Parsed Nat :=
  if openStepDepthCap < depth ∨ openStepNodeCap < nodes + 1 then reject else .ok (nodes + 1)

/-- After the first `*/` from `cursor` on. -/
def closeComment (cursor : Nat) : Option Nat :=
  if cursor < bytes.length then
    if part bytes cursor (cursor + 2) = some blockEnd then some (cursor + 2) else closeComment (cursor + 1)
  else none
termination_by bytes.length - cursor

theorem le_closeComment {cursor next : Nat} (closed : closeComment bytes cursor = some next) : cursor ≤ next := by
  fun_induction closeComment bytes cursor with
  | case1 cursor before found => cases closed; omega
  | case2 cursor before other ih => have := ih closed; omega
  | case3 cursor past => cases closed

def skipTrivia (start : Nat) : Parsed Nat :=
  let cursor := advanceWhile bytes isAsciiWhitespace start
  if line : part bytes cursor (cursor + 2) = some lineComment then
    skipTrivia (advanceWhile bytes inLine (cursor + 2))
  else if block : part bytes cursor (cursor + 2) = some blockComment then
    match closed : closeComment bytes (cursor + 2) with
    | some next => skipTrivia next
    | none => reject
  else .ok cursor
termination_by bytes.length - start
decreasing_by
  · have inside := (part_some.mp line).2.1
    have later : start ≤ cursor := le_advanceWhile _ _
    have last : cursor + 2 ≤ advanceWhile bytes inLine (cursor + 2) := le_advanceWhile _ _
    show bytes.length - advanceWhile bytes inLine (cursor + 2) < bytes.length - start
    omega
  · have inside := (part_some.mp block).2.1
    have later : start ≤ cursor := le_advanceWhile _ _
    have last := le_closeComment bytes closed
    omega

/-- Up to `count` octal digits more. -/
def octalDigits : Nat → Nat → Nat → Nat × Nat
  | 0, scalar, cursor => (scalar, cursor)
  | count + 1, scalar, cursor =>
      match bytes[cursor]? with
      | some next =>
          if isOctal next then octalDigits count (scalar * 8 + (next.toNat - '0'.toNat)) (cursor + 1) else (scalar, cursor)
      | none => (scalar, cursor)

/-- The four hex digits after `\U`. -/
def unicodeEscape (cursor : Nat) : Parsed (Char × Nat) := do
  let digits ← orReject (part bytes cursor (cursor + 4))
  rejectIf (digits.all isHexDigit = false)
  let digits ← strictUtf8 digits
  let escaped ← charFromU32 (digits.foldl (fun n b => n * 16 + hexValue b) 0)
  return (escaped, cursor + 4)

/-- An octal digit and up to two more from `cursor` on. -/
def octalEscape (b : UInt8) (cursor : Nat) : Parsed (Char × Nat) := do
  let (scalar, cursor) := octalDigits bytes 2 (b.toNat - '0'.toNat) cursor
  let escaped ← charFromU32 scalar
  return (escaped, cursor)

def parseEscape (cursor : Nat) : Parsed (Char × Nat) := do
  let b ← orReject bytes[cursor]?
  match escapes.lookup b with
  | some escaped => return (escaped, cursor + 1)
  | none =>
      if b = 'U'.toUInt8 then unicodeEscape bytes (cursor + 1)
      else if isOctal b then octalEscape bytes b (cursor + 1)
      else reject

theorem le_octalDigits (count scalar cursor : Nat) : cursor ≤ (octalDigits bytes count scalar cursor).2 := by
  fun_induction octalDigits bytes count scalar cursor with
  | case1 | case3 | case4 => exact le_rfl
  | case2 scalar cursor count next here octal ih => omega

theorem le_unicodeEscape {cursor last : Nat} {escaped : Char} (parsed : unicodeEscape bytes cursor = .ok (escaped, last)) :
    cursor ≤ last := by
  obtain ⟨_, -, parsed⟩ := Checks.bind_ok.mp parsed
  obtain ⟨_, -, parsed⟩ := Checks.bind_ok.mp parsed
  obtain ⟨_, -, parsed⟩ := Checks.bind_ok.mp parsed
  obtain ⟨_, -, parsed⟩ := Checks.bind_ok.mp parsed
  cases parsed
  omega

theorem le_octalEscape {b : UInt8} {cursor last : Nat} {escaped : Char}
    (parsed : octalEscape bytes b cursor = .ok (escaped, last)) : cursor ≤ last := by
  obtain ⟨_, -, parsed⟩ := Checks.bind_ok.mp parsed
  cases parsed
  exact le_octalDigits bytes 2 (b.toNat - '0'.toNat) cursor

/-- An escape takes a byte at least. -/
theorem lt_parseEscape {cursor last : Nat} {escaped : Char} (parsed : parseEscape bytes cursor = .ok (escaped, last)) :
    cursor < last := by
  obtain ⟨b, -, parsed⟩ := Checks.bind_ok.mp parsed
  split at parsed
  · cases parsed
    omega
  split at parsed
  · exact le_unicodeEscape bytes parsed
  split at parsed
  · exact le_octalEscape bytes parsed
  · cases parsed

/-- The bytes since the last escape, added to what is captured. -/
def pushSegment (captured : Option Bytes) (segment cursor : Nat) : Parsed (Option Bytes) :=
  match captured with
  | none => .ok none
  | some value => do
      let text ← strictUtf8 (← slice bytes segment cursor)
      return some (value ++ text)

/-- The inside of a quoted string. -/
def quoted (capture : Bool) (segment : Nat) (captured : Option Bytes) (cursor : Nat) : Parsed (Bytes × Nat) :=
  if inside : cursor < bytes.length then
    let b := bytes[cursor]
    if b = '"'.toUInt8 then do
      let captured ← pushSegment bytes captured segment cursor
      let value := captured.getD []
      rejectIf (capture ∧ value = [])
      return (value, cursor + 1)
    else if b = '\\'.toUInt8 then do
      let captured ← pushSegment bytes captured segment cursor
      match escape : parseEscape bytes (cursor + 1) with
      | .ok (escaped, next) => quoted capture next (captured.map (· ++ String.utf8EncodeChar escaped)) next
      | .error stop => .error stop
    else if b ≤ 0x1f then reject
    else quoted capture segment captured (cursor + 1)
  else reject
termination_by bytes.length - cursor
decreasing_by
  · have later := lt_parseEscape bytes escape
    omega
  · omega

/-- A bare string from `start` on. -/
def bare (capture : Bool) (start : Nat) : Parsed (Bytes × Nat) := do
  let cursor := advanceWhile bytes isBare start
  rejectIf (start = cursor)
  let value ← strictUtf8 (← slice bytes start cursor)
  return (if capture then value else [], cursor)

def parseString (capture : Bool) (cursor : Nat) : Parsed (Bytes × Nat) := do
  let cursor ← skipTrivia bytes cursor
  if bytes[cursor]? = some '"'.toUInt8 then
    quoted bytes capture (cursor + 1) (if capture then some [] else none) (cursor + 1)
  else bare bytes capture cursor

/-- The inside of data, after `digits` hex digits. -/
def dataRest (digits cursor : Nat) : Parsed Nat :=
  if inside : cursor < bytes.length then
    let b := bytes[cursor]
    if b = '>'.toUInt8 ∧ digits % 2 = 0 then .ok (cursor + 1)
    else if isHexDigit b then dataRest (digits + 1) (cursor + 1)
    else if isAsciiWhitespace b then dataRest digits (cursor + 1)
    else reject
  else reject
termination_by bytes.length - cursor

def parseData (cursor : Nat) : Parsed Nat := do
  let cursor ← requireByte bytes cursor '<'.toUInt8
  dataRest bytes 0 cursor

mutual
/-- A dictionary, with its keys. -/
def parseDictionary : Nat → Nat → OpenStepParser → Parsed (List Bytes × OpenStepParser)
  | 0, _, _ => .error .exhausted
  | fuel + 1, depth, s => do
      let nodes ← enter depth s.nodes
      let cursor ← requireByte bytes s.cursor '\x7b'.toUInt8
      parseEntries fuel depth [] ⟨cursor, nodes⟩

/-- The entries that are left, after those with `keys`. -/
def parseEntries : Nat → Nat → List Bytes → OpenStepParser → Parsed (List Bytes × OpenStepParser)
  | 0, _, _, _ => .error .exhausted
  | fuel + 1, depth, keys, s => do
      let cursor ← skipTrivia bytes s.cursor
      if bytes[cursor]? = some '\x7d'.toUInt8 then return (keys, ⟨cursor + 1, s.nodes⟩)
      else
        let (key, cursor) ← parseString bytes true cursor
        rejectIf (key ∈ keys)
        let cursor ← skipTrivia bytes cursor
        let cursor ← requireByte bytes cursor '='.toUInt8
        let s ← parseValue fuel (depth + 1) ⟨cursor, s.nodes⟩
        let cursor ← skipTrivia bytes s.cursor
        let cursor ← requireByte bytes cursor ';'.toUInt8
        parseEntries fuel depth (keys ++ [key]) ⟨cursor, s.nodes⟩

def parseValue : Nat → Nat → OpenStepParser → Parsed OpenStepParser
  | 0, _, _ => .error .exhausted
  | fuel + 1, depth, s => do
      let nodes ← enter depth s.nodes
      let cursor ← skipTrivia bytes s.cursor
      let b ← orReject bytes[cursor]?
      if b = '\x7b'.toUInt8 then
        let (_, s) ← parseDictionary fuel depth ⟨cursor, nodes⟩
        return s
      else if b = '('.toUInt8 then parseArray fuel depth ⟨cursor, nodes⟩
      else if b = '<'.toUInt8 then
        let cursor ← parseData bytes cursor
        return ⟨cursor, nodes⟩
      else
        let (_, cursor) ← parseString bytes false cursor
        return ⟨cursor, nodes⟩

def parseArray : Nat → Nat → OpenStepParser → Parsed OpenStepParser
  | 0, _, _ => .error .exhausted
  | fuel + 1, depth, s => do
      let cursor ← requireByte bytes s.cursor '('.toUInt8
      let cursor ← skipTrivia bytes cursor
      if bytes[cursor]? = some ')'.toUInt8 then return ⟨cursor + 1, s.nodes⟩
      else parseItems fuel depth ⟨cursor, s.nodes⟩

/-- The items that are left, one at least. -/
def parseItems : Nat → Nat → OpenStepParser → Parsed OpenStepParser
  | 0, _, _ => .error .exhausted
  | fuel + 1, depth, s => do
      let s ← parseValue fuel (depth + 1) s
      let cursor ← skipTrivia bytes s.cursor
      if bytes[cursor]? = some ')'.toUInt8 then return ⟨cursor + 1, s.nodes⟩
      else
        let cursor ← requireByte bytes cursor ','.toUInt8
        let cursor ← skipTrivia bytes cursor
        if bytes[cursor]? = some ')'.toUInt8 then return ⟨cursor + 1, s.nodes⟩
        else parseItems fuel depth ⟨cursor, s.nodes⟩
end

/-- The keys of the outermost dictionary. -/
def parseRootDictionary (fuel : Nat) : Parsed (List Bytes) := do
  let cursor ← skipTrivia bytes 0
  let (keys, s) ← parseDictionary bytes fuel 0 ⟨cursor, 0⟩
  let cursor ← skipTrivia bytes s.cursor
  rejectIf (cursor ≠ bytes.length)
  return keys

def parseListappsContains (fuel : Nat) (appId : Bytes) : Parsed Bool := do
  rejectIf (bytes = [] ∨ toolOutputCap < bytes.length)
  let bytes ← strictUtf8 bytes
  let keys ← parseRootDictionary bytes fuel
  return keys.contains appId

end

end AppPilotKit.Adapter.Apple.Listing
