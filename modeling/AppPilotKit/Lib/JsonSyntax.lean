import AppPilotKit.Lib.Utf8

/-! # The texts of JSON

Syntax trees of JSON texts in UTF-8, with the spaces between the tokens, the spellings of
numbers and the escapes in strings. A tree has the bytes of its text; its strings have the
characters that they stand for.
-/

namespace JsonSyntax

open Wire Cbor

def quote : UInt8 := 0x22
def backslash : UInt8 := 0x5c

/-- Spaces, tabs and ends of lines. -/
structure Space where
  bytes : Bytes
  blank : ∀ b ∈ bytes, b = 0x20 ∨ b = 0x09 ∨ b = 0x0a ∨ b = 0x0d

/-! ## Strings -/

/-- A hexadecimal digit in either case. -/
structure Hex where
  value : Fin 16
  capital : Bool

def Hex.byte (hex : Hex) : UInt8 :=
  UInt8.ofNat (if hex.value < 10 then 0x30 + hex.value else if hex.capital then 0x37 + hex.value else 0x57 + hex.value)

/-- Four digits after `\u`. -/
structure Unit16 where
  a : Hex
  b : Hex
  c : Hex
  d : Hex

def Unit16.value (u : Unit16) : Nat := ((u.a.value * 16 + u.b.value) * 16 + u.c.value) * 16 + u.d.value

def Unit16.bytes (u : Unit16) : Bytes := [backslash, 0x75, u.a.byte, u.b.byte, u.c.byte, u.d.byte]

/-- The escapes of one letter. -/
inductive Short where
  | quote
  | backslash
  | slash
  | backspace
  | formFeed
  | newline
  | carriageReturn
  | tab
  deriving DecidableEq

def Short.letter : Short → UInt8
  | .quote => 0x22
  | .backslash => 0x5c
  | .slash => 0x2f
  | .backspace => 0x62
  | .formFeed => 0x66
  | .newline => 0x6e
  | .carriageReturn => 0x72
  | .tab => 0x74

def Short.char : Short → Char
  | .quote => '"'
  | .backslash => '\\'
  | .slash => '/'
  | .backspace => '\x08'
  | .formFeed => '\x0c'
  | .newline => '\n'
  | .carriageReturn => '\r'
  | .tab => '\t'

def isHigh (n : Nat) : Prop := 0xD800 ≤ n ∧ n < 0xDC00
def isLow (n : Nat) : Prop := 0xDC00 ≤ n ∧ n < 0xE000

/-- What stands for one character of a string. -/
inductive Piece where
  | plain (c : Char) (printable : 0x20 ≤ c.toNat) (noQuote : c ≠ '"') (noBackslash : c ≠ '\\')
  | short (escape : Short)
  | unicode (unit : Unit16) (noHigh : ¬ isHigh unit.value) (noLow : ¬ isLow unit.value)
  | pair (high low : Unit16) (isHigh : isHigh high.value) (isLow : isLow low.value)

def Piece.bytes : Piece → Bytes
  | .plain c _ _ _ => String.utf8EncodeChar c
  | .short escape => [backslash, escape.letter]
  | .unicode unit _ _ => unit.bytes
  | .pair high low _ _ => high.bytes ++ low.bytes

def Piece.char : Piece → Char
  | .plain c _ _ _ => c
  | .short escape => escape.char
  | .unicode unit _ _ => Char.ofNat unit.value
  | .pair high low _ _ => Char.ofNat (0x10000 + (high.value - 0xD800) * 0x400 + (low.value - 0xDC00))

abbrev Literal := List Piece

def Literal.content (literal : Literal) : Bytes := literal.flatMap Piece.bytes

def Literal.bytes (literal : Literal) : Bytes := quote :: (literal.content ++ [quote])

/-- The characters without the escapes. -/
def Literal.chars (literal : Literal) : List Char := literal.map Piece.char

/-! ## Words -/

def digitBytes (digits : List (Fin 10)) : Bytes := digits.map fun digit : Fin 10 => UInt8.ofNat (0x30 + digit.val)

structure Exponent where
  capital : Bool
  sign : Option Bool
  digits : List (Fin 10)
  nonempty : digits ≠ []

def Exponent.bytes (exponent : Exponent) : Bytes :=
  (if exponent.capital then 0x45 else 0x65) ::
    ((match exponent.sign with
      | none => []
      | some true => [0x2d]
      | some false => [0x2b]) ++ digitBytes exponent.digits)

/-- A number without a point has no fraction. -/
structure Number where
  negative : Bool
  whole : List (Fin 10)
  nonempty : whole ≠ []
  noZeros : whole.head? = some 0 → whole.length = 1
  fraction : List (Fin 10)
  exponent : Option Exponent

def Number.bytes (number : Number) : Bytes :=
  (if number.negative then [0x2d] else []) ++ digitBytes number.whole ++
    (if number.fraction = [] then [] else 0x2e :: digitBytes number.fraction) ++
    (number.exponent.map Exponent.bytes).getD []

inductive Word where
  | null
  | false
  | true
  | number (number : Number)

def Word.bytes : Word → Bytes
  | .null => [0x6e, 0x75, 0x6c, 0x6c]
  | .false => [0x66, 0x61, 0x6c, 0x73, 0x65]
  | .true => [0x74, 0x72, 0x75, 0x65]
  | .number n => n.bytes

/-! ## Values -/

mutual
inductive Value where
  | word (word : Word)
  | string (literal : Literal)
  | emptyArray (gap : Space)
  | array (elements : Elements)
  | emptyObject (gap : Space)
  | object (members : Members)

/-- The elements of an array: the last, or one with others behind it. -/
inductive Elements where
  | last (before : Space) (value : Value) (after : Space)
  | more (before : Space) (value : Value) (after : Space) (others : Elements)

/-- The members of an object. Spaces stand on both sides of the name and of the value. -/
inductive Members where
  | last (before : Space) (name : Literal) (gap before' : Space) (value : Value) (after : Space)
  | more (before : Space) (name : Literal) (gap before' : Space) (value : Value) (after : Space) (others : Members)
end

mutual
def Value.bytes : Value → Bytes
  | .word word => word.bytes
  | .string literal => literal.bytes
  | .emptyArray gap => 0x5b :: (gap.bytes ++ [0x5d])
  | .array elements => 0x5b :: (elements.bytes ++ [0x5d])
  | .emptyObject gap => 0x7b :: (gap.bytes ++ [0x7d])
  | .object members => 0x7b :: (members.bytes ++ [0x7d])

def Elements.bytes : Elements → Bytes
  | .last before value after => before.bytes ++ (value.bytes ++ after.bytes)
  | .more before value after others => before.bytes ++ (value.bytes ++ (after.bytes ++ (0x2c :: others.bytes)))

def Members.bytes : Members → Bytes
  | .last before name gap before' value after =>
      before.bytes ++ (name.bytes ++ (gap.bytes ++ (0x3a :: (before'.bytes ++ (value.bytes ++ after.bytes)))))
  | .more before name gap before' value after others =>
      before.bytes ++ (name.bytes ++ (gap.bytes ++ (0x3a :: (before'.bytes ++ (value.bytes ++ (after.bytes ++
        (0x2c :: others.bytes)))))))
end

/-- A value with spaces around it. -/
structure Text where
  before : Space
  value : Value
  after : Space

def Text.bytes (text : Text) : Bytes := text.before.bytes ++ (text.value.bytes ++ text.after.bytes)

/-! ## Names -/

def Members.names : Members → List (List Char)
  | .last _ name _ _ _ _ => [name.chars]
  | .more _ name _ _ _ _ others => name.chars :: others.names

mutual
/-- The names in each object differ, at every depth. -/
def Value.Distinct : Value → Prop
  | .word _ | .string _ | .emptyArray _ | .emptyObject _ => True
  | .array elements => elements.Distinct
  | .object members => members.names.Nodup ∧ members.Distinct

def Elements.Distinct : Elements → Prop
  | .last _ value _ => value.Distinct
  | .more _ value _ others => value.Distinct ∧ others.Distinct

def Members.Distinct : Members → Prop
  | .last _ _ _ _ value _ => value.Distinct
  | .more _ _ _ _ value _ others => value.Distinct ∧ others.Distinct
end

/-! ## What a scanner sees -/

/-- Bytes outside strings that begin and end nothing. -/
def quiet (b : UInt8) : Prop := b ≠ quote ∧ b ≠ 0x7b ∧ b ≠ 0x7d ∧ b ≠ 0x5b ∧ b ≠ 0x5d ∧ b ≠ 0x2c

instance : DecidablePred quiet := fun _ => inferInstanceAs (Decidable (_ ∧ _))

/-- Contents of strings: no quote but after a backslash. -/
inductive Inside : Bytes → Prop where
  | nil : Inside []
  | plain {b : UInt8} {rest : Bytes} (noQuote : b ≠ quote) (noBackslash : b ≠ backslash) (inside : Inside rest) : Inside (b :: rest)
  | escaped (b : UInt8) {rest : Bytes} (inside : Inside rest) : Inside (backslash :: b :: rest)

theorem Inside.append {front back : Bytes} (inside : Inside front) (inside' : Inside back) : Inside (front ++ back) := by
  induction inside with
  | nil => exact inside'
  | plain noQuote noBackslash _ ih => exact .plain noQuote noBackslash ih
  | escaped b _ ih => exact .escaped b ih

theorem Inside.of_plain {bytes : Bytes} (plain : ∀ b ∈ bytes, b ≠ quote ∧ b ≠ backslash) : Inside bytes := by
  induction bytes with
  | nil => exact .nil
  | cons b bytes ih =>
      obtain ⟨first, rest⟩ := List.forall_mem_cons.mp plain
      exact .plain first.1 first.2 (ih rest)

theorem Space.quiet (space : Space) : ∀ b ∈ space.bytes, quiet b := by
  intro b member
  rcases space.blank b member with rfl | rfl | rfl | rfl
  · decide
  · decide
  · decide
  · decide

theorem hex_plain (hex : Hex) : hex.byte ≠ quote ∧ hex.byte ≠ backslash := by
  obtain ⟨value, capital⟩ := hex
  revert value capital
  decide

theorem unit_inside (u : Unit16) : Inside u.bytes := by
  refine .escaped _ (.of_plain ?_)
  intro b member
  simp only [List.mem_cons, List.not_mem_nil, or_false] at member
  rcases member with rfl | rfl | rfl | rfl
  · exact hex_plain u.a
  · exact hex_plain u.b
  · exact hex_plain u.c
  · exact hex_plain u.d

theorem piece_inside (piece : Piece) : Inside piece.bytes := by
  cases piece with
  | plain c printable noQuote noBackslash =>
      refine .of_plain fun b member => ⟨?_, ?_⟩
      · rintro rfl
        exact noQuote (Char.toNat_inj.mp (utf8EncodeChar_small c member (by decide)))
      · rintro rfl
        exact noBackslash (Char.toNat_inj.mp (utf8EncodeChar_small c member (by decide)))
  | short escape => exact .escaped _ .nil
  | unicode unit noHigh noLow => exact unit_inside unit
  | pair high low isHigh isLow => exact (unit_inside high).append (unit_inside low)

theorem literal_inside (literal : Literal) : Inside literal.content := by
  induction literal with
  | nil => exact .nil
  | cons piece literal ih => exact (piece_inside piece).append ih

theorem quiet_of_all {bytes : Bytes} (all : bytes.all (fun b => decide (quiet b)) = true) : ∀ b ∈ bytes, quiet b :=
  fun b member => of_decide_eq_true (List.all_eq_true.mp all b member)

theorem digits_quiet (digits : List (Fin 10)) : ∀ b ∈ digitBytes digits, quiet b := by
  intro b member
  obtain ⟨digit, -, rfl⟩ := List.mem_map.mp member
  clear member
  revert digit
  decide

theorem exponent_quiet (exponent : Exponent) : ∀ b ∈ exponent.bytes, quiet b := by
  obtain ⟨capital, sign, digits, nonempty⟩ := exponent
  unfold Exponent.bytes
  dsimp only
  refine List.forall_mem_cons.mpr ⟨?_, List.forall_mem_append.mpr ⟨?_, digits_quiet digits⟩⟩
  · cases capital
    · exact (by decide : quiet 0x65)
    · exact (by decide : quiet 0x45)
  · rcases sign with _ | _ | _
    · exact nofun
    · exact quiet_of_all rfl
    · exact quiet_of_all rfl

theorem word_quiet (word : Word) : ∀ b ∈ word.bytes, quiet b := by
  cases word with
  | null => exact quiet_of_all rfl
  | false => exact quiet_of_all rfl
  | true => exact quiet_of_all rfl
  | number number =>
      obtain ⟨negative, whole, nonempty, noZeros, fraction, exponent⟩ := number
      unfold Word.bytes Number.bytes
      dsimp only
      refine List.forall_mem_append.mpr ⟨List.forall_mem_append.mpr ⟨List.forall_mem_append.mpr ⟨?_, digits_quiet whole⟩, ?_⟩, ?_⟩
      · cases negative
        · exact nofun
        · exact quiet_of_all rfl
      · split
        · exact nofun
        · exact List.forall_mem_cons.mpr ⟨by decide, digits_quiet fraction⟩
      · cases exponent with
        | none => exact nofun
        | some exponent => exact exponent_quiet exponent

/-! ## Reading a string back -/

def Short.ofLetter (letter : UInt8) : Option Short :=
  [Short.quote, .backslash, .slash, .backspace, .formFeed, .newline, .carriageReturn, .tab].find? (·.letter = letter)

def hexValue (b : UInt8) : Option Nat :=
  if 0x30 ≤ b.toNat ∧ b.toNat ≤ 0x39 then some (b.toNat - 0x30)
  else if 0x41 ≤ b.toNat ∧ b.toNat ≤ 0x46 then some (b.toNat - 0x37)
  else if 0x61 ≤ b.toNat ∧ b.toNat ≤ 0x66 then some (b.toNat - 0x57)
  else none

/-- The four digits after `\u`. -/
def readUnit : Bytes → Option (Nat × Bytes)
  | a :: b :: c :: d :: rest => do
      let a ← hexValue a
      let b ← hexValue b
      let c ← hexValue c
      let d ← hexValue d
      some (((a * 16 + b) * 16 + c) * 16 + d, rest)
  | _ => none

instance (n : Nat) : Decidable (isHigh n) := inferInstanceAs (Decidable (_ ∧ _))

instance (n : Nat) : Decidable (isLow n) := inferInstanceAs (Decidable (_ ∧ _))

/-- After `\u`. A high surrogate needs a low one behind it. -/
def readUnicode (bytes : Bytes) : Option (Char × Bytes) := do
  let (high, rest) ← readUnit bytes
  if isHigh high then
    match rest with
    | b :: u :: rest =>
        if b = backslash ∧ u = 0x75 then do
          let (low, rest) ← readUnit rest
          if isLow low then some (Char.ofNat (0x10000 + (high - 0xD800) * 0x400 + (low - 0xDC00)), rest)
          else none
        else none
    | _ => none
  else if isLow high then none
  else some (Char.ofNat high, rest)

/-- After a backslash. -/
def readEscape : Bytes → Option (Char × Bytes)
  | letter :: rest =>
      if letter = 0x75 then readUnicode rest
      else (Short.ofLetter letter).map fun escape => (escape.char, rest)
  | [] => none

def readPiece : Bytes → Option (Char × Bytes)
  | b :: rest => if b = backslash then readEscape rest else decodeChar (b :: rest)
  | [] => none

/-- The pieces up to the closing quote. -/
def readContent : Nat → Bytes → Option (List Char)
  | 0, _ => none
  | fuel + 1, bytes =>
      if bytes = [quote] then some []
      else do
        let (c, rest) ← readPiece bytes
        let cs ← readContent fuel rest
        some (c :: cs)

def readLiteral : Bytes → Option (List Char)
  | b :: rest => if b = quote then readContent rest.length rest else none
  | [] => none

theorem hexValue_byte (hex : Hex) : hexValue hex.byte = some hex.value.val := by
  obtain ⟨value, capital⟩ := hex
  revert value capital
  decide

theorem readUnit_bytes (u : Unit16) (rest : Bytes) :
    readUnit (u.a.byte :: u.b.byte :: u.c.byte :: u.d.byte :: rest) = some (u.value, rest) := by
  simp [readUnit, hexValue_byte, Unit16.value]

theorem ofLetter_letter (escape : Short) : Short.ofLetter escape.letter = some escape ∧ escape.letter ≠ 0x75 := by
  cases escape <;> exact ⟨rfl, by decide⟩

theorem readPiece_bytes (piece : Piece) (rest : Bytes) : readPiece (piece.bytes ++ rest) = some (piece.char, rest) := by
  cases piece with
  | plain c printable noQuote noBackslash =>
      have decoded := decodeChar_encode c rest
      have clear : ∀ b ∈ String.utf8EncodeChar c, b ≠ backslash := by
        rintro b member rfl
        exact noBackslash (Char.toNat_inj.mp (utf8EncodeChar_small c member (by decide)))
      show readPiece (String.utf8EncodeChar c ++ rest) = some (c, rest)
      cases encoded : String.utf8EncodeChar c with
      | nil => exact absurd encoded (by simp)
      | cons b bytes =>
          rw [encoded] at decoded clear
          rw [List.cons_append] at decoded ⊢
          rw [readPiece, if_neg (clear b (List.mem_cons_self ..)), decoded]
  | short escape =>
      obtain ⟨found, other⟩ := ofLetter_letter escape
      show readPiece (backslash :: escape.letter :: rest) = some (escape.char, rest)
      rw [readPiece, if_pos rfl, readEscape, if_neg other, found]
      rfl
  | unicode unit noHigh noLow =>
      show readPiece (backslash :: 0x75 :: unit.a.byte :: unit.b.byte :: unit.c.byte :: unit.d.byte :: rest) = _
      rw [readPiece, if_pos rfl, readEscape, if_pos rfl, readUnicode, readUnit_bytes]
      simp only [Option.bind_eq_bind, Option.bind_some, if_neg noHigh, if_neg noLow]
      rfl
  | pair high low isHigh isLow =>
      show readPiece (backslash :: 0x75 :: high.a.byte :: high.b.byte :: high.c.byte :: high.d.byte ::
        backslash :: 0x75 :: low.a.byte :: low.b.byte :: low.c.byte :: low.d.byte :: rest) = _
      rw [readPiece, if_pos rfl, readEscape, if_pos rfl, readUnicode, readUnit_bytes]
      simp only [Option.bind_eq_bind, Option.bind_some, if_pos isHigh, and_self, if_true, readUnit_bytes, if_pos isLow]
      rfl

theorem piece_nonempty (piece : Piece) : 0 < piece.bytes.length := by
  cases piece with
  | plain c printable noQuote noBackslash => exact List.length_pos_iff.mpr (by simp [Piece.bytes])
  | short escape => exact Nat.zero_lt_succ _
  | unicode unit noHigh noLow => exact Nat.zero_lt_succ _
  | pair high low isHigh isLow => exact Nat.zero_lt_succ _

theorem readContent_content (literal : Literal) {fuel : Nat} (enough : literal.content.length < fuel) :
    readContent fuel (literal.content ++ [quote]) = some literal.chars := by
  induction literal generalizing fuel with
  | nil =>
      obtain ⟨fuel, rfl⟩ := Nat.exists_eq_add_of_lt enough
      rfl
  | cons piece literal ih =>
      have split : Literal.content (piece :: literal) = piece.bytes ++ Literal.content literal := List.flatMap_cons ..
      have some := piece_nonempty piece
      rw [split, List.length_append] at enough
      obtain ⟨fuel, rfl⟩ := Nat.exists_eq_succ_of_ne_zero (show fuel ≠ 0 by omega)
      have more : piece.bytes ++ (Literal.content literal ++ [quote]) ≠ [quote] := by
        intro same
        have length := congrArg List.length same
        simp only [List.length_append, List.length_singleton] at length
        omega
      rw [split, List.append_assoc, readContent, if_neg more, readPiece_bytes]
      simp only [Option.bind_eq_bind, Option.bind_some, ih (show (Literal.content literal).length < fuel by omega)]
      rfl

/-- A string reads back as the characters that it stands for. -/
theorem readLiteral_bytes (literal : Literal) : readLiteral literal.bytes = some literal.chars := by
  rw [Literal.bytes, readLiteral, if_pos rfl]
  exact readContent_content literal (by rw [List.length_append, List.length_singleton]; exact Nat.lt_succ_self _)

end JsonSyntax
