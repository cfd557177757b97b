import AppPilotKit.Lib.Bytes

/-! # CBOR items

The encoder writes every head in its shortest form and every string and
container with a definite length. The decoder reads one item from the front of
the input and returns the rest; like the usual decoders it is lenient about the
width of an integer head, so callers that need canonical input re-encode.
-/

namespace Cbor

open Wire

/-- The initial bytes of an item of the given major type and argument. -/
def head (major n : Nat) : Bytes :=
  if n < 24 then [UInt8.ofNat (major * 32 + n)]
  else if n < 256 ^ 1 then UInt8.ofNat (major * 32 + 24) :: be 1 n
  else if n < 256 ^ 2 then UInt8.ofNat (major * 32 + 25) :: be 2 n
  else if n < 256 ^ 4 then UInt8.ofNat (major * 32 + 26) :: be 4 n
  else UInt8.ofNat (major * 32 + 27) :: be 8 n

def uint (n : Nat) : Bytes := head 0 n
def bytes (b : Bytes) : Bytes := head 2 b.length ++ b
def str (s : String) : Bytes := head 3 s.utf8ByteSize ++ s.toUTF8.toList
def array (n : Nat) : Bytes := head 4 n
def map (n : Nat) : Bytes := head 5 n

/-- Split off the first `n` bytes. -/
def take? (n : Nat) (input : Bytes) : Option (Bytes × Bytes) :=
  if n ≤ input.length then some (input.take n, input.drop n) else none

/-- A big-endian argument of the given width. -/
def beArgument (width : Nat) (input : Bytes) : Option (Nat × Bytes) :=
  (take? width input).map fun (digits, rest) => (beNat digits, rest)

/-- The argument that follows an initial byte with the given low five bits.
    `none` stands for the reserved and the indefinite forms. -/
def argument (info : Nat) (input : Bytes) : Option (Nat × Bytes) :=
  if info < 24 then some (info, input)
  else if info = 24 then beArgument 1 input
  else if info = 25 then beArgument 2 input
  else if info = 26 then beArgument 4 input
  else if info = 27 then beArgument 8 input
  else none

/-- Read the head of an item of the given major type. -/
def readHead (major : Nat) : Bytes → Option (Nat × Bytes)
  | [] => none
  | first :: rest =>
      if first.toNat / 32 = major then argument (first.toNat % 32) rest else none

/-- An unsigned integer of at most `bits` bits. -/
def readUInt (bits : Nat) (input : Bytes) : Option (Nat × Bytes) :=
  match readHead 0 input with
  | some (n, rest) => if n < 2 ^ bits then some (n, rest) else none
  | none => none

def readU8 : Bytes → Option (Nat × Bytes) := readUInt 8
def readU64 : Bytes → Option (Nat × Bytes) := readUInt 64

/-- A definite byte string. -/
def readBytes (input : Bytes) : Option (Bytes × Bytes) :=
  match readHead 2 input with
  | some (n, rest) => take? n rest
  | none => none

/-- Is a byte a continuation byte in the given range? -/
def inRange (low high : Nat) (b : UInt8) : Bool := low ≤ b.toNat && b.toNat ≤ high

/-- Well-formed UTF-8: no overlong form, no surrogate, nothing above `10FFFF`. -/
def validUtf8 : Bytes → Bool
  | [] => true
  | a :: b :: c :: d :: rest =>
      if a.toNat < 0x80 then validUtf8 (b :: c :: d :: rest)
      else if inRange 0xC2 0xDF a then inRange 0x80 0xBF b && validUtf8 (c :: d :: rest)
      else if a.toNat = 0xE0 then inRange 0xA0 0xBF b && inRange 0x80 0xBF c && validUtf8 (d :: rest)
      else if a.toNat = 0xED then inRange 0x80 0x9F b && inRange 0x80 0xBF c && validUtf8 (d :: rest)
      else if inRange 0xE1 0xEF a then inRange 0x80 0xBF b && inRange 0x80 0xBF c && validUtf8 (d :: rest)
      else if a.toNat = 0xF0 then inRange 0x90 0xBF b && inRange 0x80 0xBF c && inRange 0x80 0xBF d && validUtf8 rest
      else if a.toNat = 0xF4 then inRange 0x80 0x8F b && inRange 0x80 0xBF c && inRange 0x80 0xBF d && validUtf8 rest
      else inRange 0xF1 0xF3 a && inRange 0x80 0xBF b && inRange 0x80 0xBF c && inRange 0x80 0xBF d && validUtf8 rest
  | a :: b :: c :: [] =>
      if a.toNat < 0x80 then validUtf8 [b, c]
      else if inRange 0xC2 0xDF a then inRange 0x80 0xBF b && validUtf8 [c]
      else if a.toNat = 0xE0 then inRange 0xA0 0xBF b && inRange 0x80 0xBF c
      else if a.toNat = 0xED then inRange 0x80 0x9F b && inRange 0x80 0xBF c
      else inRange 0xE1 0xEF a && inRange 0x80 0xBF b && inRange 0x80 0xBF c
  | a :: b :: [] => if a.toNat < 0x80 then validUtf8 [b] else inRange 0xC2 0xDF a && inRange 0x80 0xBF b
  | a :: [] => a.toNat < 0x80

/-- A definite text string, as its bytes. -/
def readStr (input : Bytes) : Option (Bytes × Bytes) :=
  match readHead 3 input with
  | some (n, rest) => (take? n rest).filter fun (text, _) => validUtf8 text
  | none => none

def readU16 : Bytes → Option (Nat × Bytes) := readUInt 16

/-- The number of entries of a map; `some none` for the indefinite form. -/
def readMap : Bytes → Option (Option Nat × Bytes)
  | [] => none
  | first :: rest =>
      if first.toNat = 5 * 32 + 31 then some (none, rest)
      else (readHead 5 (first :: rest)).map fun (n, rest) => (some n, rest)

theorem head_length_le (major n : Nat) : (head major n).length ≤ 9 := by
  unfold head
  split_ifs <;> simp [be_length]

theorem head_ne_nil (major n : Nat) : head major n ≠ [] := by
  unfold head
  split_ifs <;> simp

/-! ## Heads delimit themselves -/

/-- The low five bits of an initial byte. -/
def info (n : Nat) : Nat :=
  if n < 24 then n else if n < 256 ^ 1 then 24 else if n < 256 ^ 2 then 25 else if n < 256 ^ 4 then 26 else 27

/-- The bytes that follow an initial byte with the given low five bits. -/
def trail (low n : Nat) : Bytes :=
  if low < 24 then [] else be (2 ^ (low - 24)) n

theorem head_eq (major n : Nat) : head major n = UInt8.ofNat (major * 32 + info n) :: trail (info n) n := by
  unfold head info trail
  split_ifs <;> first | rfl | omega

theorem info_lt (n : Nat) : info n < 32 := by
  unfold info
  split_ifs <;> omega

theorem trail_length (low n m : Nat) : (trail low n).length = (trail low m).length := by
  unfold trail
  split_ifs <;> simp

/-- A byte sequence starts with at most one head of a major type. -/
theorem head_append {major a b : Nat} {x y : Bytes} (h : head major a ++ x = head major b ++ y) :
    head major a = head major b ∧ x = y := by
  refine List.append_inj h ?_
  rw [head_eq, head_eq, List.cons_append, List.cons_append, List.cons.injEq] at h
  have bytes : (major * 32 + info a) % 256 = (major * 32 + info b) % 256 := by
    simpa using congrArg UInt8.toNat h.1
  have same : info a = info b := by
    have := info_lt a
    have := info_lt b
    omega
  rw [head_eq, head_eq, same, List.length_cons, List.length_cons, trail_length]

theorem uint_append {a b : Nat} {x y : Bytes} (h : uint a ++ x = uint b ++ y) : uint a = uint b ∧ x = y :=
  head_append h

theorem uint_inj {a b : Nat} (smallA : a < 2 ^ 64) (smallB : b < 2 ^ 64) (h : uint a = uint b) : a = b := by
  unfold uint at h
  rw [head_eq, head_eq, List.cons.injEq] at h
  have bytes : info a % 256 = info b % 256 := by simpa using congrArg UInt8.toNat h.1
  have same : info a = info b := by
    have := info_lt a
    have := info_lt b
    omega
  by_cases small : info b < 24
  · unfold info at same small
    split_ifs at same small <;> omega
  · have digits : be (2 ^ (info b - 24)) a = be (2 ^ (info b - 24)) b := by simpa [same, trail, small] using h.2
    have fits : ∀ n, n < 2 ^ 64 → ¬ info n < 24 → n < 256 ^ 2 ^ (info n - 24) := by
      intro n bound large
      unfold info at large ⊢
      split_ifs at large ⊢ <;> simp_all <;> omega
    have fitsA := fits a smallA (same ▸ small)
    rw [same] at fitsA
    rw [← beNat_be _ a fitsA, digits, beNat_be _ b (fits b smallB small)]

/-- Byte strings of one length. -/
theorem bytes_append {a b x y : Bytes} (size : a.length = b.length) (h : bytes a ++ x = bytes b ++ y) :
    a = b ∧ x = y := by
  unfold bytes at h
  rw [size, List.append_assoc, List.append_assoc] at h
  exact List.append_inj (head_append h).2 size

/-! ## The decoder reads back what the encoder writes -/

theorem beArgument_be {width n : Nat} (small : n < 256 ^ width) (x : Bytes) :
    beArgument width (be width n ++ x) = some (n, x) := by
  unfold beArgument take?
  rw [if_pos (by simp), List.take_left' (be_length width n), List.drop_left' (be_length width n), Option.map_some]
  dsimp only
  rw [beNat_be width n small]

theorem argument_trail {n : Nat} (small : n < 2 ^ 64) (x : Bytes) : argument (info n) (trail (info n) n ++ x) = some (n, x) := by
  unfold argument info trail
  split_ifs
  · rfl
  all_goals first | omega | exact beArgument_be (by omega) x

theorem readHead_head {major n : Nat} (known : major < 8) (small : n < 2 ^ 64) (x : Bytes) :
    readHead major (head major n ++ x) = some (n, x) := by
  have low := info_lt n
  have first : (UInt8.ofNat (major * 32 + info n)).toNat = major * 32 + info n := by
    rw [UInt8.toNat_ofNat']
    omega
  rw [head_eq, List.cons_append, readHead, first, if_pos (by omega), show (major * 32 + info n) % 32 = info n by omega]
  exact argument_trail small x

theorem readUInt_uint {bits n : Nat} (width : bits ≤ 64) (small : n < 2 ^ bits) (x : Bytes) :
    readUInt bits (uint n ++ x) = some (n, x) := by
  have fits : n < 2 ^ 64 := small.trans_le (Nat.pow_le_pow_right (by decide) width)
  unfold readUInt uint
  rw [readHead_head (by decide) fits]
  exact if_pos small

theorem readU8_uint {n : Nat} (small : n < 2 ^ 8) (x : Bytes) : readU8 (uint n ++ x) = some (n, x) :=
  readUInt_uint (by decide) small x

theorem readU16_uint {n : Nat} (small : n < 2 ^ 16) (x : Bytes) : readU16 (uint n ++ x) = some (n, x) :=
  readUInt_uint (by decide) small x

theorem readU64_uint {n : Nat} (small : n < 2 ^ 64) (x : Bytes) : readU64 (uint n ++ x) = some (n, x) :=
  readUInt_uint (by decide) small x

theorem take?_append (b x : Bytes) : take? b.length (b ++ x) = some (b, x) := by
  unfold take?
  rw [if_pos (by simp), List.take_left' rfl, List.drop_left' rfl]

theorem readBytes_bytes {b : Bytes} (small : b.length < 2 ^ 64) (x : Bytes) : readBytes (bytes b ++ x) = some (b, x) := by
  unfold readBytes bytes
  rw [List.append_assoc, readHead_head (by decide) small]
  exact take?_append b x

theorem readStr_text {b : Bytes} (valid : validUtf8 b) (small : b.length < 2 ^ 64) (x : Bytes) :
    readStr (head 3 b.length ++ b ++ x) = some (b, x) := by
  unfold readStr
  rw [List.append_assoc, readHead_head (by decide) small]
  dsimp only
  rw [take?_append, Option.filter_some]
  exact if_pos valid

theorem readMap_map {n : Nat} (small : n < 2 ^ 64) (x : Bytes) : readMap (map n ++ x) = some (some n, x) := by
  have whole : readHead 5 (head 5 n ++ x) = some (n, x) := readHead_head (by decide) small x
  have low : info n < 28 := by
    unfold info
    split_ifs <;> omega
  unfold map
  rw [head_eq, List.cons_append] at whole ⊢
  have first : (UInt8.ofNat (5 * 32 + info n)).toNat = 5 * 32 + info n := by
    rw [UInt8.toNat_ofNat']
    omega
  rw [readMap, first, if_neg (by omega), whole]
  rfl

end Cbor
