import AppPilotKit.Lib.Cbor

/-! # Streams of shortest CBOR heads

A token is the head of an item, with the payload of a string. A stream of tokens in
their shortest form leaves a decoder no choice: what it reads is the next token. One item
takes as many tokens as its containers announce.
-/

namespace Cbor

open Wire

def bool (b : Bool) : Bytes := [if b then 0xf5 else 0xf4]

/-- The number of elements of an array; `some none` for the indefinite form. -/
def readArray : Bytes → Option (Option Nat × Bytes)
  | [] => none
  | first :: rest =>
      if first.toNat = 4 * 32 + 31 then some (none, rest)
      else (readHead 4 (first :: rest)).map fun (n, rest) => (some n, rest)

def readBool : Bytes → Option (Bool × Bytes)
  | [] => none
  | first :: rest => if first = 0xf4 then some (false, rest) else if first = 0xf5 then some (true, rest) else none

inductive Token where
  | uint (n : Nat)
  | bytes (b : Bytes)
  | text (b : Bytes)
  | array (n : Nat)
  | map (n : Nat)
  | bool (b : Bool)
  deriving DecidableEq

namespace Token

def encode : Token → Bytes
  | .uint n => Cbor.uint n
  | .bytes b => Cbor.bytes b
  | .text b => head 3 b.length ++ b
  | .array n => Cbor.array n
  | .map n => Cbor.map n
  | .bool b => Cbor.bool b

/-- What a head can carry. -/
def Fits : Token → Prop
  | .uint n | .array n | .map n => n < 2 ^ 64
  | .bytes b => b.length < 2 ^ 64
  | .text b => validUtf8 b ∧ b.length < 2 ^ 64
  | .bool _ => True

/-- The items that a container announces. -/
def children : Token → Nat
  | .array n => n
  | .map n => 2 * n
  | .uint _ | .bytes _ | .text _ | .bool _ => 0

/-- The first five bits say what a token is. -/
def major : Token → Nat
  | .uint _ => 0
  | .bytes _ => 2
  | .text _ => 3
  | .array _ => 4
  | .map _ => 5
  | .bool _ => 7

/-- What the head of a token carries. -/
def headArgument : Token → Nat
  | .uint n | .array n | .map n => n
  | .bytes b | .text b => b.length
  | .bool b => if b then 21 else 20

/-- What follows the head. -/
def payload : Token → Bytes
  | .bytes b | .text b => b
  | .uint _ | .array _ | .map _ | .bool _ => []

theorem encode_eq (t : Token) : t.encode = head t.major t.headArgument ++ t.payload := by
  cases t with
  | bytes b | text b => rfl
  | uint n | array n | map n => exact (List.append_nil _).symm
  | bool b => cases b <;> rfl

theorem major_lt (t : Token) : t.major < 8 := by
  cases t <;> simp [major]

theorem Fits.argument {t : Token} (fits : t.Fits) : t.headArgument < 2 ^ 64 := by
  cases t with
  | uint n | array n | map n => exact fits
  | bytes b => exact fits
  | text b => exact fits.2
  | bool b => cases b <;> simp [headArgument]

end Token

/-- A stream of tokens. -/
def encodeAll (tokens : List Token) : Bytes := tokens.flatMap Token.encode

@[simp] theorem encodeAll_nil : encodeAll [] = [] := rfl

@[simp] theorem encodeAll_cons (t : Token) (tokens : List Token) :
    encodeAll (t :: tokens) = t.encode ++ encodeAll tokens := rfl

@[simp] theorem encodeAll_singleton (t : Token) : encodeAll [t] = t.encode := List.append_nil _

theorem encodeAll_append (front back : List Token) :
    encodeAll (front ++ back) = encodeAll front ++ encodeAll back := List.flatMap_append

theorem encodeAll_eq_nil {tokens : List Token} : encodeAll tokens = [] ↔ tokens = [] := by
  cases tokens with
  | nil => simp
  | cons t tokens => simp [Token.encode_eq, head_ne_nil]

/-! ## Sizes -/

/-- The bytes of a head. -/
def headLength (n : Nat) : Nat :=
  if n < 24 then 1 else if n < 256 then 2 else if n < 65536 then 3 else if n < 4294967296 then 5 else 9

theorem head_length (major n : Nat) : (head major n).length = headLength n := by
  unfold head headLength
  split_ifs <;> first | omega | simp

theorem headLength_le {n bound : Nat} (small : n ≤ bound) : headLength n ≤ headLength bound := by
  unfold headLength
  split_ifs <;> omega

theorem headLength_le_nine (n : Nat) : headLength n ≤ 9 := by
  unfold headLength
  split_ifs <;> omega

def Token.size (t : Token) : Nat := headLength t.headArgument + t.payload.length

theorem encodeAll_length (tokens : List Token) : (encodeAll tokens).length = (tokens.map Token.size).sum := by
  induction tokens with
  | nil => rfl
  | cons t tokens ih =>
      rw [encodeAll_cons, List.length_append, ih, Token.encode_eq, List.length_append, head_length]
      rfl

/-- The bytes of all strings of a stream. -/
def payloads (tokens : List Token) : Nat := (tokens.map fun t => t.payload.length).sum

@[simp] theorem payloads_nil : payloads [] = 0 := rfl

@[simp] theorem payloads_cons (t : Token) (tokens : List Token) : payloads (t :: tokens) = t.payload.length + payloads tokens := rfl

@[simp] theorem payloads_append (front back : List Token) : payloads (front ++ back) = payloads front + payloads back := by
  simp [payloads]

/-- Besides its strings a stream has at most nine bytes a token. -/
theorem encodeAll_length_le (tokens : List Token) : (encodeAll tokens).length ≤ 9 * tokens.length + payloads tokens := by
  induction tokens with
  | nil => simp
  | cons t tokens ih =>
      have head := headLength_le_nine t.headArgument
      rw [encodeAll_cons, List.length_append, Token.encode_eq, List.length_append, head_length, payloads_cons, List.length_cons]
      omega

/-! ## What a decoder reads from a stream -/

/-- No shortest head has the low bits of an indefinite form. -/
theorem first_definite (major n : Nat) (known : major < 8) :
    ∃ first rest, head major n = first :: rest ∧ first.toNat ≠ major * 32 + 31 ∧ first.toNat / 32 = major := by
  have low : info n < 28 := by
    unfold info
    split_ifs <;> omega
  have first : (UInt8.ofNat (major * 32 + info n)).toNat = major * 32 + info n := by
    rw [UInt8.toNat_ofNat']
    omega
  refine ⟨_, _, head_eq major n, ?_, ?_⟩
  · rw [first]
    omega
  · rw [first]
    omega

theorem readArray_array {n : Nat} (small : n < 2 ^ 64) (x : Bytes) : readArray (array n ++ x) = some (some n, x) := by
  have whole : readHead 4 (head 4 n ++ x) = some (n, x) := readHead_head (by decide) small x
  obtain ⟨first, rest, begins, definite, -⟩ := first_definite 4 n (by decide)
  unfold array
  rw [begins, List.cons_append] at whole ⊢
  rw [readArray, if_neg definite, whole]
  rfl

section
variable {t : Token} {tokens : List Token} {rest : Bytes}

/-- A head is read from the front of a stream only when the first token has it. -/
theorem readHead_stream {kind n : Nat} (fits : ∀ t ∈ tokens, t.Fits) (read : readHead kind (encodeAll tokens) = some (n, rest)) :
    ∃ t left, tokens = t :: left ∧ t.major = kind ∧ t.headArgument = n ∧ rest = t.payload ++ encodeAll left := by
  cases tokens with
  | nil => cases read
  | cons t left =>
      have low := info_lt t.headArgument
      have whole := readHead_head t.major_lt (fits t (List.mem_cons_self ..)).argument (t.payload ++ encodeAll left)
      have same : encodeAll (t :: left) = head t.major t.headArgument ++ (t.payload ++ encodeAll left) := by
        rw [encodeAll_cons, Token.encode_eq, List.append_assoc]
      rw [same] at read
      obtain ⟨first, after, begins, -, kinds⟩ := first_definite t.major t.headArgument t.major_lt
      -- the major type is in the first byte
      have kinds : t.major = kind := by
        rw [begins, List.cons_append, readHead] at read
        split at read
        · rename_i same
          exact kinds.symm.trans same
        · cases read
      subst kinds
      rw [whole] at read
      cases read
      exact ⟨t, left, rfl, rfl, rfl, rfl⟩

theorem readUInt_stream {bits n : Nat} (fits : ∀ t ∈ tokens, t.Fits) (read : readUInt bits (encodeAll tokens) = some (n, rest)) :
    n < 2 ^ bits ∧ ∃ left, tokens = .uint n :: left ∧ rest = encodeAll left := by
  unfold readUInt at read
  split at read
  · rename_i value after found
    split at read
    · rename_i small
      cases read
      obtain ⟨t, left, rfl, kind, same, ends⟩ := readHead_stream fits found
      cases t with
      | uint m =>
          cases same
          exact ⟨small, left, rfl, ends⟩
      | bytes | text | array | map | bool => cases kind
    · cases read
  · cases read

theorem take?_some {n : Nat} {input found : Bytes} (taken : take? n input = some (found, rest)) :
    found.length = n ∧ input = found ++ rest := by
  unfold take? at taken
  split at taken
  · rename_i enough
    cases taken
    exact ⟨List.length_take_of_le enough, (List.take_append_drop n input).symm⟩
  · cases taken

theorem readBytes_stream {b : Bytes} (fits : ∀ t ∈ tokens, t.Fits) (read : readBytes (encodeAll tokens) = some (b, rest)) :
    ∃ left, tokens = .bytes b :: left ∧ rest = encodeAll left := by
  unfold readBytes at read
  split at read
  · rename_i n after found
    obtain ⟨t, left, rfl, kind, same, rfl⟩ := readHead_stream fits found
    cases t with
    | bytes content =>
        cases same
        rw [show (Token.bytes content).headArgument = content.length from rfl,
          show (Token.bytes content).payload = content from rfl, take?_append] at read
        cases read
        exact ⟨left, rfl, rfl⟩
    | uint | text | array | map | bool => cases kind
  · cases read

theorem readStr_stream {b : Bytes} (fits : ∀ t ∈ tokens, t.Fits) (read : readStr (encodeAll tokens) = some (b, rest)) :
    ∃ left, tokens = .text b :: left ∧ rest = encodeAll left := by
  unfold readStr at read
  split at read
  · rename_i n after found
    obtain ⟨taken, -⟩ := Option.filter_eq_some_iff.mp read
    obtain ⟨t, left, rfl, kind, same, rfl⟩ := readHead_stream fits found
    cases t with
    | text content =>
        cases same
        rw [show (Token.text content).headArgument = content.length from rfl,
          show (Token.text content).payload = content from rfl, take?_append] at taken
        cases taken
        exact ⟨left, rfl, rfl⟩
    | uint | bytes | array | map | bool => cases kind
  · cases read

/-- A container of a known size is what a stream holds. -/
theorem definite {kind : Nat} (fits : ∀ t ∈ tokens, t.Fits) {first : UInt8} {after : Bytes}
    (whole : encodeAll tokens = first :: after) (known : first.toNat / 32 = kind) : first.toNat ≠ kind * 32 + 31 := by
  cases tokens with
  | nil => cases whole
  | cons t left =>
      obtain ⟨found, later, begins, closed, major⟩ := first_definite t.major t.headArgument t.major_lt
      rw [encodeAll_cons, Token.encode_eq, begins] at whole
      cases whole
      rw [← known, major]
      exact closed

theorem readMap_stream {count : Option Nat} (fits : ∀ t ∈ tokens, t.Fits) (read : readMap (encodeAll tokens) = some (count, rest)) :
    ∃ n left, count = some n ∧ tokens = .map n :: left ∧ rest = encodeAll left := by
  unfold readMap at read
  split at read
  · cases read
  · rename_i first after whole
    split at read
    · rename_i open'
      exact absurd open' (definite fits whole (by omega))
    · obtain ⟨⟨n, ends⟩, found, same⟩ := Option.map_eq_some_iff.mp read
      cases same
      rw [← whole] at found
      obtain ⟨t, left, rfl, kind, argument, rfl⟩ := readHead_stream fits found
      cases t with
      | map m =>
          cases argument
          exact ⟨m, left, rfl, rfl, rfl⟩
      | uint | bytes | text | array | bool => cases kind

theorem readArray_stream {count : Option Nat} (fits : ∀ t ∈ tokens, t.Fits)
    (read : readArray (encodeAll tokens) = some (count, rest)) :
    ∃ n left, count = some n ∧ tokens = .array n :: left ∧ rest = encodeAll left := by
  unfold readArray at read
  split at read
  · cases read
  · rename_i first after whole
    split at read
    · rename_i open'
      exact absurd open' (definite fits whole (by omega))
    · obtain ⟨⟨n, ends⟩, found, same⟩ := Option.map_eq_some_iff.mp read
      cases same
      rw [← whole] at found
      obtain ⟨t, left, rfl, kind, argument, rfl⟩ := readHead_stream fits found
      cases t with
      | array m =>
          cases argument
          exact ⟨m, left, rfl, rfl, rfl⟩
      | uint | bytes | text | map | bool => cases kind

theorem readBool_stream {b : Bool} (read : readBool (encodeAll tokens) = some (b, rest)) :
    ∃ left, tokens = .bool b :: left ∧ rest = encodeAll left := by
  cases tokens with
  | nil => cases read
  | cons t left =>
      obtain ⟨first, after, begins, -, kind⟩ := first_definite t.major t.headArgument t.major_lt
      have seven : t.major = 7 := by
        rw [encodeAll_cons, Token.encode_eq, begins, List.cons_append, List.cons_append, readBool] at read
        rw [← kind]
        split at read
        · rename_i no
          rw [no]
          rfl
        · split at read
          · rename_i yes
            rw [yes]
            rfl
          · cases read
      cases t with
      | bool c =>
          cases c with
          | false =>
              cases read
              exact ⟨left, rfl, rfl⟩
          | true =>
              cases read
              exact ⟨left, rfl, rfl⟩
      | uint | bytes | text | array | map => cases seven

end

/-! ## More input changes nothing -/

section
variable {input rest : Bytes}

theorem take?_more {n : Nat} {found : Bytes} (taken : take? n input = some (found, rest)) (more : Bytes) :
    take? n (input ++ more) = some (found, rest ++ more) := by
  obtain ⟨rfl, rfl⟩ := take?_some taken
  rw [List.append_assoc]
  exact take?_append found (rest ++ more)

theorem beArgument_more {width n : Nat} (read : beArgument width input = some (n, rest)) (more : Bytes) :
    beArgument width (input ++ more) = some (n, rest ++ more) := by
  unfold beArgument at read ⊢
  obtain ⟨⟨digits, after⟩, taken, same⟩ := Option.map_eq_some_iff.mp read
  rw [take?_more taken more]
  cases same
  rfl

theorem argument_more {low n : Nat} (read : argument low input = some (n, rest)) (more : Bytes) :
    argument low (input ++ more) = some (n, rest ++ more) := by
  unfold argument at read ⊢
  split_ifs at read ⊢
  · cases read
    rfl
  all_goals exact beArgument_more read more

theorem readHead_more {kind n : Nat} (read : readHead kind input = some (n, rest)) (more : Bytes) :
    readHead kind (input ++ more) = some (n, rest ++ more) := by
  cases input with
  | nil => cases read
  | cons first input =>
      rw [List.cons_append, readHead]
      rw [readHead] at read
      split_ifs at read ⊢
      exact argument_more read more

theorem readUInt_more {bits n : Nat} (read : readUInt bits input = some (n, rest)) (more : Bytes) :
    readUInt bits (input ++ more) = some (n, rest ++ more) := by
  unfold readUInt at read ⊢
  split at read
  · rename_i value after found
    rw [readHead_more found more]
    dsimp only
    split_ifs at read ⊢
    cases read
    rfl
  · cases read

theorem readBytes_more {b : Bytes} (read : readBytes input = some (b, rest)) (more : Bytes) :
    readBytes (input ++ more) = some (b, rest ++ more) := by
  unfold readBytes at read ⊢
  split at read
  · rename_i n after found
    rw [readHead_more found more]
    exact take?_more read more
  · cases read

theorem readMap_more {count : Option Nat} (read : readMap input = some (count, rest)) (more : Bytes) :
    readMap (input ++ more) = some (count, rest ++ more) := by
  cases input with
  | nil => cases read
  | cons first input =>
      rw [List.cons_append, readMap]
      rw [readMap] at read
      split_ifs at read ⊢
      · cases read
        rfl
      · obtain ⟨⟨n, after⟩, found, same⟩ := Option.map_eq_some_iff.mp read
        rw [← List.cons_append, readHead_more found more]
        cases same
        rfl

end

/-! ## Whole items -/

/-- `n` items, one after another. -/
inductive Elements (Inner : List Token → Prop) : Nat → List Token → Prop where
  | nil : Elements Inner 0 []
  | cons {n : Nat} {item others : List Token} (inner : Inner item) (rest : Elements Inner n others) :
      Elements Inner (n + 1) (item ++ others)

/-- `n` entries of a map whose keys are numbers that increase. -/
inductive Entries (Inner : List Token → Prop) : Nat → Option Nat → List Token → Prop where
  | nil {previous : Option Nat} : Entries Inner 0 previous []
  | cons {n key : Nat} {previous : Option Nat} {item others : List Token} (after : previous.all (· < key))
      (inner : Inner item) (rest : Entries Inner n (some key) others) :
      Entries Inner (n + 1) previous (.uint key :: (item ++ others))

section
variable {Inner : List Token → Prop} {n key : Nat} {previous : Option Nat} {t : Token} {item others : List Token}

/-- An element that is one token. -/
theorem Elements.leaf (inner : Inner [t]) (rest : Elements Inner n others) : Elements Inner (n + 1) (t :: others) :=
  .cons inner rest

/-- An entry whose value is one token. -/
theorem Entries.leaf (after : previous.all (· < key)) (inner : Inner [t]) (rest : Entries Inner n (some key) others) :
    Entries Inner (n + 1) previous (.uint key :: t :: others) :=
  .cons after inner rest

/-- An entry whose value begins with a token. -/
theorem Entries.nested (after : previous.all (· < key)) (inner : Inner (t :: item)) (rest : Entries Inner n (some key) others) :
    Entries Inner (n + 1) previous (.uint key :: t :: (item ++ others)) :=
  .cons after inner rest

end

/-- One item, nested no deeper than the given number of levels. -/
def IsItem : Nat → List Token → Prop
  | levels + 1, .array n :: tokens => Elements (IsItem levels) n tokens
  | levels + 1, .map n :: tokens => Entries (IsItem levels) n none tokens
  | _ + 1, _ :: tokens => tokens = []
  | _, _ => False

/-- The items that a stream announces. -/
def announced (tokens : List Token) : Nat := (tokens.map Token.children).sum

@[simp] theorem announced_nil : announced [] = 0 := rfl

@[simp] theorem announced_cons (t : Token) (tokens : List Token) :
    announced (t :: tokens) = t.children + announced tokens := rfl

theorem announced_append (front back : List Token) : announced (front ++ back) = announced front + announced back := by
  simp [announced]

theorem Elements.balance {Inner : List Token → Prop} (inner : ∀ item, Inner item → item.length = 1 + announced item) {n : Nat}
    {tokens : List Token} (elements : Elements Inner n tokens) : tokens.length = n + announced tokens := by
  induction elements with
  | nil => rfl
  | cons held rest ih =>
      have := inner _ held
      rw [List.length_append, announced_append]
      omega

theorem Entries.balance {Inner : List Token → Prop} (inner : ∀ item, Inner item → item.length = 1 + announced item) {n : Nat}
    {previous : Option Nat} {tokens : List Token} (entries : Entries Inner n previous tokens) :
    tokens.length = 2 * n + announced tokens := by
  induction entries with
  | nil => rfl
  | cons after held rest ih =>
      have := inner _ held
      rw [List.length_cons, List.length_append, announced_cons, announced_append, Token.children]
      omega

/-- One item is one token more than its containers announce. -/
theorem IsItem.balance {levels : Nat} {tokens : List Token} (item : IsItem levels tokens) :
    tokens.length = 1 + announced tokens := by
  induction levels generalizing tokens with
  | zero => cases item
  | succ levels ih =>
      cases tokens with
      | nil => cases item
      | cons t tokens =>
          rw [List.length_cons, announced_cons]
          cases t with
          | array n =>
              have := Elements.balance (fun item held => ih held) item
              rw [Token.children]
              omega
          | map n =>
              have := Entries.balance (fun item held => ih held) item
              rw [Token.children]
              omega
          | uint | bytes | text | bool =>
              cases item
              rfl

end Cbor
