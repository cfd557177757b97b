import AppPilotKit.Lib.Cbor

/-! # Well-formed UTF-8

The checker of the CBOR decoder accepts exactly the encodings of sequences of characters.
-/

namespace Cbor

open Wire

/-- The encoding of some characters. -/
def utf8 (characters : List Char) : Bytes := characters.flatMap String.utf8EncodeChar

@[simp] theorem utf8_nil : utf8 [] = [] := rfl

@[simp] theorem utf8_cons (c : Char) (characters : List Char) :
    utf8 (c :: characters) = String.utf8EncodeChar c ++ utf8 characters := rfl

/-! ## One step of the checker -/

section
variable {a b c d : UInt8} {low high : Nat}

theorem inRange_iff : inRange low high b = true ↔ low ≤ b.toNat ∧ b.toNat ≤ high := by
  simp [inRange]

theorem inRange_false : inRange low high b = false ↔ ¬ (low ≤ b.toNat ∧ b.toNat ≤ high) := by
  rw [← inRange_iff, Bool.not_eq_true]

/-- The range of the byte after the first of three … -/
def lowest3 (a : UInt8) : Nat := if a.toNat = 0xE0 then 0xA0 else 0x80
def highest3 (a : UInt8) : Nat := if a.toNat = 0xED then 0x9F else 0xBF

/-- … and of four. -/
def lowest4 (a : UInt8) : Nat := if a.toNat = 0xF0 then 0x90 else 0x80
def highest4 (a : UInt8) : Nat := if a.toNat = 0xF4 then 0x8F else 0xBF

theorem validUtf8_ascii (small : a.toNat < 0x80) (rest : Bytes) : validUtf8 (a :: rest) = validUtf8 rest := by
  match rest with
  | [] => simp [validUtf8, small]
  | [b] => simp [validUtf8, small]
  | [b, c] => simp [validUtf8, small]
  | b :: c :: d :: rest => simp [validUtf8, small]

theorem validUtf8_two (lead : 0xC2 ≤ a.toNat ∧ a.toNat ≤ 0xDF) (rest : Bytes) :
    validUtf8 (a :: rest) = match rest with
      | b :: rest => inRange 0x80 0xBF b && validUtf8 rest
      | [] => false := by
  have large : ¬ a.toNat < 0x80 := by omega
  have two := inRange_iff.mpr lead
  match rest with
  | [] => simp [validUtf8, large]
  | [b] => simp [validUtf8, large, two]
  | [b, c] => simp [validUtf8, large, two]
  | b :: c :: d :: rest => simp [validUtf8, large, two]

theorem validUtf8_three (lead : 0xE0 ≤ a.toNat ∧ a.toNat ≤ 0xEF) (rest : Bytes) :
    validUtf8 (a :: rest) = match rest with
      | b :: c :: rest => inRange (lowest3 a) (highest3 a) b && inRange 0x80 0xBF c && validUtf8 rest
      | _ => false := by
  have large : ¬ a.toNat < 0x80 := by omega
  have two : inRange 0xC2 0xDF a = false := inRange_false.mpr (by omega)
  match rest with
  | [] => simp [validUtf8, large]
  | [b] => simp [validUtf8, large, two]
  | [b, c] =>
      by_cases first : a.toNat = 0xE0
      · simp [validUtf8, large, two, first, lowest3, highest3]
      by_cases surrogate : a.toNat = 0xED
      · simp [validUtf8, large, two, first, surrogate, lowest3, highest3]
      have three : inRange 0xE1 0xEF a = true := inRange_iff.mpr (by omega)
      simp [validUtf8, large, two, first, surrogate, three, lowest3, highest3]
  | b :: c :: d :: rest =>
      by_cases first : a.toNat = 0xE0
      · simp [validUtf8, large, two, first, lowest3, highest3]
      by_cases surrogate : a.toNat = 0xED
      · simp [validUtf8, large, two, first, surrogate, lowest3, highest3]
      have three : inRange 0xE1 0xEF a = true := inRange_iff.mpr (by omega)
      simp [validUtf8, large, two, first, surrogate, three, lowest3, highest3]

theorem validUtf8_four (lead : 0xF0 ≤ a.toNat ∧ a.toNat ≤ 0xF4) (rest : Bytes) :
    validUtf8 (a :: rest) = match rest with
      | b :: c :: d :: rest =>
          inRange (lowest4 a) (highest4 a) b && inRange 0x80 0xBF c && inRange 0x80 0xBF d && validUtf8 rest
      | _ => false := by
  have large : ¬ a.toNat < 0x80 := by omega
  have two : inRange 0xC2 0xDF a = false := inRange_false.mpr (by omega)
  have three : inRange 0xE1 0xEF a = false := inRange_false.mpr (by omega)
  have notE0 : a.toNat ≠ 0xE0 := by omega
  have notED : a.toNat ≠ 0xED := by omega
  match rest with
  | [] => simp [validUtf8, large]
  | [b] => simp [validUtf8, large, two]
  | [b, c] => simp [validUtf8, large, two, three, notE0, notED]
  | b :: c :: d :: rest =>
      by_cases first : a.toNat = 0xF0
      · simp [validUtf8, large, two, three, first, lowest4, highest4]
      by_cases last : a.toNat = 0xF4
      · simp [validUtf8, large, two, three, first, last, lowest4, highest4]
      have four : inRange 0xF1 0xF3 a = true := inRange_iff.mpr (by omega)
      simp [validUtf8, large, two, three, notE0, notED, first, last, four, lowest4, highest4]

theorem validUtf8_bad (continuing : 0x80 ≤ a.toNat) (two : ¬ (0xC2 ≤ a.toNat ∧ a.toNat ≤ 0xDF))
    (more : ¬ (0xE0 ≤ a.toNat ∧ a.toNat ≤ 0xF4)) (rest : Bytes) : validUtf8 (a :: rest) = false := by
  have large : ¬ a.toNat < 0x80 := by omega
  have two := inRange_false.mpr two
  have three : inRange 0xE1 0xEF a = false := inRange_false.mpr (by omega)
  have four : inRange 0xF1 0xF3 a = false := inRange_false.mpr (by omega)
  have notE0 : a.toNat ≠ 0xE0 := by omega
  have notED : a.toNat ≠ 0xED := by omega
  have notF0 : a.toNat ≠ 0xF0 := by omega
  have notF4 : a.toNat ≠ 0xF4 := by omega
  match rest with
  | [] => simp [validUtf8, large]
  | [b] => simp [validUtf8, large, two]
  | [b, c] => simp [validUtf8, large, two, three, notE0, notED]
  | b :: c :: d :: rest => simp [validUtf8, large, two, three, four, notE0, notED, notF0, notF4]

end

/-- ASCII is well formed. -/
theorem validUtf8_of_ascii {text : Bytes} (ascii : ∀ b ∈ text, b.toNat < 0x80) : validUtf8 text := by
  induction text with
  | nil => rfl
  | cons b text ih =>
      obtain ⟨small, others⟩ := List.forall_mem_cons.mp ascii
      rw [validUtf8_ascii small]
      exact ih others

/-! ## Characters -/

theorem char_range (c : Char) : c.val.toNat < 0xD800 ∨ 0xDFFF < c.val.toNat ∧ c.val.toNat < 0x110000 := c.valid

theorem exists_char {n : Nat} (valid : n < 0xD800 ∨ 0xDFFF < n ∧ n < 0x110000) : ∃ c : Char, c.val.toNat = n :=
  ⟨⟨UInt32.ofNatLT n (by unfold UInt32.size; omega), valid⟩, UInt32.toNat_ofNatLT ..⟩

theorem ofNat_eq {n : Nat} {b : UInt8} (same : n = b.toNat) : UInt8.ofNat n = b := by
  rw [same, UInt8.ofNat_toNat]

theorem toNat_small {n : Nat} (small : n < 256) : (UInt8.ofNat n).toNat = n := by
  rw [UInt8.toNat_ofNat']
  omega

/-- The checker passes over a character. -/
theorem validUtf8_char (c : Char) (rest : Bytes) : validUtf8 (String.utf8EncodeChar c ++ rest) = validUtf8 rest := by
  have range := char_range c
  unfold String.utf8EncodeChar
  generalize c.val.toNat = n at range
  dsimp only
  split_ifs with one two three
  · exact validUtf8_ascii (by rw [toNat_small (by omega)]; omega) rest
  · have lead : (UInt8.ofNat (n / 64 % 32 + 192)).toNat = n / 64 % 32 + 192 := toNat_small (by omega)
    have last : inRange 0x80 0xBF (UInt8.ofNat (n % 64 + 128)) := inRange_iff.mpr (by rw [toNat_small (by omega)]; omega)
    rw [List.cons_append, validUtf8_two (by omega)]
    simp only [List.cons_append, List.nil_append, last, Bool.true_and]
  · have lead : (UInt8.ofNat (n / 4096 % 16 + 224)).toNat = n / 4096 % 16 + 224 := toNat_small (by omega)
    have next : (UInt8.ofNat (n / 64 % 64 + 128)).toNat = n / 64 % 64 + 128 := toNat_small (by omega)
    have second : inRange (lowest3 (UInt8.ofNat (n / 4096 % 16 + 224))) (highest3 (UInt8.ofNat (n / 4096 % 16 + 224)))
        (UInt8.ofNat (n / 64 % 64 + 128)) := by
      rw [inRange_iff, lowest3, highest3, lead, next]
      split_ifs <;> omega
    have last : inRange 0x80 0xBF (UInt8.ofNat (n % 64 + 128)) := inRange_iff.mpr (by rw [toNat_small (by omega)]; omega)
    rw [List.cons_append, validUtf8_three (by omega)]
    simp only [List.cons_append, List.nil_append, second, last, Bool.true_and]
  · have lead : (UInt8.ofNat (n / 262144 % 8 + 240)).toNat = n / 262144 % 8 + 240 := toNat_small (by omega)
    have next : (UInt8.ofNat (n / 4096 % 64 + 128)).toNat = n / 4096 % 64 + 128 := toNat_small (by omega)
    have second : inRange (lowest4 (UInt8.ofNat (n / 262144 % 8 + 240))) (highest4 (UInt8.ofNat (n / 262144 % 8 + 240)))
        (UInt8.ofNat (n / 4096 % 64 + 128)) := by
      rw [inRange_iff, lowest4, highest4, lead, next]
      split_ifs <;> omega
    have third : inRange 0x80 0xBF (UInt8.ofNat (n / 64 % 64 + 128)) := inRange_iff.mpr (by rw [toNat_small (by omega)]; omega)
    have last : inRange 0x80 0xBF (UInt8.ofNat (n % 64 + 128)) := inRange_iff.mpr (by rw [toNat_small (by omega)]; omega)
    rw [List.cons_append, validUtf8_four (by omega)]
    simp only [List.cons_append, List.nil_append, second, third, last, Bool.true_and]

theorem validUtf8_utf8 (characters : List Char) : validUtf8 (utf8 characters) := by
  induction characters with
  | nil => rfl
  | cons c characters ih =>
      rw [utf8_cons, validUtf8_char]
      exact ih

/-- The first character of well-formed input. -/
theorem exists_char_of_valid {a : UInt8} {rest : Bytes} (valid : validUtf8 (a :: rest)) :
    ∃ c left, a :: rest = String.utf8EncodeChar c ++ left ∧ left.length ≤ rest.length ∧ validUtf8 left := by
  by_cases one : a.toNat < 0x80
  · obtain ⟨c, value⟩ := exists_char (n := a.toNat) (by omega)
    refine ⟨c, rest, ?_, le_rfl, (validUtf8_ascii one rest).symm.trans valid⟩
    rw [String.utf8EncodeChar, value, if_pos (by omega), ofNat_eq rfl]
    rfl
  by_cases two : 0xC2 ≤ a.toNat ∧ a.toNat ≤ 0xDF
  · rw [validUtf8_two two] at valid
    match rest, valid with
    | b :: rest, valid =>
        obtain ⟨second, valid⟩ := Bool.and_eq_true_iff.mp valid
        have second := inRange_iff.mp second
        obtain ⟨c, value⟩ := exists_char (n := (a.toNat - 0xC0) * 64 + (b.toNat - 0x80)) (by omega)
        refine ⟨c, rest, ?_, by simp only [List.length_cons]; omega, valid⟩
        rw [String.utf8EncodeChar, value, if_neg (by omega), if_pos (by omega), ofNat_eq (b := a) (by omega),
          ofNat_eq (b := b) (by omega)]
        rfl
  by_cases three : 0xE0 ≤ a.toNat ∧ a.toNat ≤ 0xEF
  · rw [validUtf8_three three] at valid
    match rest, valid with
    | b :: c :: rest, valid =>
        obtain ⟨both, valid⟩ := Bool.and_eq_true_iff.mp valid
        obtain ⟨second, third⟩ := Bool.and_eq_true_iff.mp both
        have second := inRange_iff.mp second
        have third := inRange_iff.mp third
        unfold lowest3 highest3 at second
        have range : (if a.toNat = 0xE0 then 0xA0 else 0x80) ≤ b.toNat ∧ b.toNat ≤ if a.toNat = 0xED then 0x9F else 0xBF := second
        obtain ⟨char, value⟩ := exists_char (n := (a.toNat - 0xE0) * 4096 + (b.toNat - 0x80) * 64 + (c.toNat - 0x80))
          (by split_ifs at range <;> omega)
        refine ⟨char, rest, ?_, by simp only [List.length_cons]; omega, valid⟩
        have least : 0x800 ≤ (a.toNat - 0xE0) * 4096 + (b.toNat - 0x80) * 64 + (c.toNat - 0x80) := by
          split_ifs at range <;> omega
        have low : 0x80 ≤ b.toNat ∧ b.toNat ≤ 0xBF := by split_ifs at range <;> omega
        rw [String.utf8EncodeChar, value, if_neg (by omega), if_neg (by omega), if_pos (by omega), ofNat_eq (b := a) (by omega),
          ofNat_eq (b := b) (by omega), ofNat_eq (b := c) (by omega)]
        rfl
  by_cases four : 0xF0 ≤ a.toNat ∧ a.toNat ≤ 0xF4
  · rw [validUtf8_four four] at valid
    match rest, valid with
    | b :: c :: d :: rest, valid =>
        obtain ⟨more, valid⟩ := Bool.and_eq_true_iff.mp valid
        obtain ⟨both, fourth⟩ := Bool.and_eq_true_iff.mp more
        obtain ⟨second, third⟩ := Bool.and_eq_true_iff.mp both
        have range := inRange_iff.mp second
        have third := inRange_iff.mp third
        have fourth := inRange_iff.mp fourth
        unfold lowest4 highest4 at range
        have low : 0x80 ≤ b.toNat ∧ b.toNat ≤ 0xBF := by split_ifs at range <;> omega
        have bounds : 0x10000 ≤ (a.toNat - 0xF0) * 262144 + (b.toNat - 0x80) * 4096 + (c.toNat - 0x80) * 64 + (d.toNat - 0x80) ∧
            (a.toNat - 0xF0) * 262144 + (b.toNat - 0x80) * 4096 + (c.toNat - 0x80) * 64 + (d.toNat - 0x80) < 0x110000 := by
          split_ifs at range <;> omega
        obtain ⟨char, value⟩ := exists_char (.inr ⟨by omega, bounds.2⟩)
        refine ⟨char, rest, ?_, by simp only [List.length_cons]; omega, valid⟩
        rw [String.utf8EncodeChar, value, if_neg (by omega), if_neg (by omega), if_neg (by omega), ofNat_eq (b := a) (by omega),
          ofNat_eq (b := b) (by omega), ofNat_eq (b := c) (by omega), ofNat_eq (b := d) (by omega)]
        rfl
  · rw [validUtf8_bad (by omega) two (by omega)] at valid
    cases valid

theorem exists_utf8 {b : Bytes} (valid : validUtf8 b) : ∃ characters, b = utf8 characters := by
  match b, valid with
  | [], _ => exact ⟨[], rfl⟩
  | a :: rest, valid =>
      obtain ⟨c, left, split, shorter, valid'⟩ := exists_char_of_valid valid
      obtain ⟨characters, rfl⟩ := exists_utf8 valid'
      exact ⟨c :: characters, split⟩
termination_by b.length
decreasing_by
  simp only [List.length_cons]
  omega

theorem utf8_inj {front back : List Char} (same : utf8 front = utf8 back) : front = back := by
  have encoded : front.utf8Encode = back.utf8Encode := congrArg List.toByteArray same
  have decoded := congrArg ByteArray.utf8Decode? encoded
  rw [List.utf8Decode?_utf8Encode, List.utf8Decode?_utf8Encode] at decoded
  simpa using decoded

/-! ## Characters -/

/-- A byte below 128 in an encoding is the character itself. -/
theorem utf8EncodeChar_small (c : Char) {b : UInt8} (member : b ∈ String.utf8EncodeChar c) (small : b.toNat < 0x80) :
    c.toNat = b.toNat := by
  have range := char_range c
  unfold String.utf8EncodeChar at member
  show c.val.toNat = b.toNat
  generalize c.val.toNat = n at range member
  dsimp only at member
  have last : (UInt8.ofNat (n % 64 + 128)).toNat = n % 64 + 128 := toNat_small (by omega)
  have next : (UInt8.ofNat (n / 64 % 64 + 128)).toNat = n / 64 % 64 + 128 := toNat_small (by omega)
  have third : (UInt8.ofNat (n / 4096 % 64 + 128)).toNat = n / 4096 % 64 + 128 := toNat_small (by omega)
  have lead2 : (UInt8.ofNat (n / 64 % 32 + 192)).toNat = n / 64 % 32 + 192 := toNat_small (by omega)
  have lead3 : (UInt8.ofNat (n / 4096 % 16 + 224)).toNat = n / 4096 % 16 + 224 := toNat_small (by omega)
  have lead4 : (UInt8.ofNat (n / 262144 % 8 + 240)).toNat = n / 262144 % 8 + 240 := toNat_small (by omega)
  split_ifs at member with one two three
  · rw [List.mem_singleton.mp member, toNat_small (by omega)]
  · simp only [List.mem_cons, List.not_mem_nil, or_false] at member
    rcases member with rfl | rfl <;> omega
  · simp only [List.mem_cons, List.not_mem_nil, or_false] at member
    rcases member with rfl | rfl | rfl <;> omega
  · simp only [List.mem_cons, List.not_mem_nil, or_false] at member
    rcases member with rfl | rfl | rfl | rfl <;> omega

theorem utf8EncodeChar_ascii {c : Char} (small : c.toNat < 0x80) : String.utf8EncodeChar c = [UInt8.ofNat c.toNat] := by
  have value : c.val.toNat ≤ 0x7f := Nat.le_of_lt_succ small
  rw [String.utf8EncodeChar, if_pos value]
  rfl

/-- Around a byte below 128 both sides of well-formed input are well formed. -/
theorem validUtf8_around {front back : Bytes} {a : UInt8} (small : a.toNat < 0x80) (valid : validUtf8 (front ++ a :: back)) :
    validUtf8 front ∧ validUtf8 back := by
  obtain ⟨characters, same⟩ := exists_utf8 valid
  induction characters generalizing front with
  | nil => simp [utf8] at same
  | cons c characters ih =>
      rw [utf8_cons] at same
      have tail : validUtf8 (utf8 characters) := validUtf8_utf8 characters
      rcases List.append_eq_append_iff.mp same with ⟨more, whole, rest⟩ | ⟨before, rfl, rest⟩
      · cases more with
        | nil =>
            rw [List.append_nil] at whole
            rw [List.nil_append] at rest
            refine ⟨?_, ?_⟩
            · rw [← whole, ← List.append_nil (String.utf8EncodeChar c), validUtf8_char]
              rfl
            · rw [← validUtf8_ascii small back, rest]
              exact tail
        | cons other more =>
            -- The byte is the whole encoding of `c`.
            obtain ⟨rfl, rfl⟩ := List.cons.inj rest
            have code := utf8EncodeChar_small c (whole ▸ List.mem_append_right front List.mem_cons_self) small
            rw [utf8EncodeChar_ascii (code ▸ small)] at whole
            obtain ⟨rfl, last⟩ | ⟨lone, last⟩ := List.append_eq_singleton_iff.mp whole.symm
            · rw [(List.cons.inj last).2]
              exact ⟨rfl, tail⟩
            · cases last
      · rw [validUtf8_char]
        exact ih (by rw [← rest]; exact tail) rest.symm

/-- The first character of a text in UTF-8. -/
def decodeChar : Bytes → Option (Char × Bytes)
  | a :: rest =>
      if a.toNat < 0x80 then some (Char.ofNat a.toNat, rest)
      else if a.toNat < 0xE0 then
        match rest with
        | b :: rest => some (Char.ofNat (a.toNat % 32 * 64 + b.toNat % 64), rest)
        | _ => none
      else if a.toNat < 0xF0 then
        match rest with
        | b :: c :: rest => some (Char.ofNat (a.toNat % 16 * 4096 + b.toNat % 64 * 64 + c.toNat % 64), rest)
        | _ => none
      else
        match rest with
        | b :: c :: d :: rest =>
            some (Char.ofNat (a.toNat % 8 * 262144 + b.toNat % 64 * 4096 + c.toNat % 64 * 64 + d.toNat % 64), rest)
        | _ => none
  | [] => none

theorem decodeChar_encode (c : Char) (rest : Bytes) : decodeChar (String.utf8EncodeChar c ++ rest) = some (c, rest) := by
  have range := char_range c
  have itself : Char.ofNat c.val.toNat = c := Char.ofNat_toNat c
  unfold String.utf8EncodeChar
  generalize c.val.toNat = n at range itself
  subst itself
  dsimp only
  split_ifs with one two three
  · have lead : (UInt8.ofNat n).toNat = n := toNat_small (by omega)
    unfold decodeChar
    simp only [List.cons_append, List.nil_append, lead]
    rw [if_pos (by omega)]
  · have lead : (UInt8.ofNat (n / 64 % 32 + 192)).toNat = n / 64 % 32 + 192 := toNat_small (by omega)
    have last : (UInt8.ofNat (n % 64 + 128)).toNat = n % 64 + 128 := toNat_small (by omega)
    unfold decodeChar
    simp only [List.cons_append, List.nil_append, lead, last]
    rw [if_neg (by omega), if_pos (by omega), show (n / 64 % 32 + 192) % 32 * 64 + (n % 64 + 128) % 64 = n by omega]
  · have lead : (UInt8.ofNat (n / 4096 % 16 + 224)).toNat = n / 4096 % 16 + 224 := toNat_small (by omega)
    have next : (UInt8.ofNat (n / 64 % 64 + 128)).toNat = n / 64 % 64 + 128 := toNat_small (by omega)
    have last : (UInt8.ofNat (n % 64 + 128)).toNat = n % 64 + 128 := toNat_small (by omega)
    unfold decodeChar
    simp only [List.cons_append, List.nil_append, lead, next, last]
    rw [if_neg (by omega), if_neg (by omega), if_pos (by omega), show (n / 4096 % 16 + 224) % 16 * 4096 + (n / 64 % 64 + 128) % 64 * 64 + (n % 64 + 128) % 64 = n by omega]
  · have lead : (UInt8.ofNat (n / 262144 % 8 + 240)).toNat = n / 262144 % 8 + 240 := toNat_small (by omega)
    have third : (UInt8.ofNat (n / 4096 % 64 + 128)).toNat = n / 4096 % 64 + 128 := toNat_small (by omega)
    have next : (UInt8.ofNat (n / 64 % 64 + 128)).toNat = n / 64 % 64 + 128 := toNat_small (by omega)
    have last : (UInt8.ofNat (n % 64 + 128)).toNat = n % 64 + 128 := toNat_small (by omega)
    unfold decodeChar
    simp only [List.cons_append, List.nil_append, lead, third, next, last]
    rw [if_neg (by omega), if_neg (by omega), if_neg (by omega), show (n / 262144 % 8 + 240) % 8 * 262144 + (n / 4096 % 64 + 128) % 64 * 4096 +
      (n / 64 % 64 + 128) % 64 * 64 + (n % 64 + 128) % 64 = n by omega]

/-- The characters of a text, as long as there is fuel. -/
def decodeChars : Nat → Bytes → List Char
  | 0, _ => []
  | fuel + 1, bytes =>
      match decodeChar bytes with
      | some (c, rest) => c :: decodeChars fuel rest
      | none => []

/-- `str::from_utf8`. -/
def decodeUtf8 (bytes : Bytes) : Option (List Char) :=
  if validUtf8 bytes then some (decodeChars bytes.length bytes) else none

theorem decodeChars_utf8 (characters : List Char) {fuel : Nat} (enough : (utf8 characters).length ≤ fuel) :
    decodeChars fuel (utf8 characters) = characters := by
  induction characters generalizing fuel with
  | nil =>
      cases fuel with
      | zero => rfl
      | succ fuel => rfl
  | cons c characters ih =>
      have some : 0 < (String.utf8EncodeChar c).length := List.length_pos_iff.mpr (by simp)
      rw [utf8_cons, List.length_append] at enough
      obtain ⟨fuel, rfl⟩ := Nat.exists_eq_succ_of_ne_zero (show fuel ≠ 0 by omega)
      rw [utf8_cons, decodeChars, decodeChar_encode]
      exact congrArg (c :: ·) (ih (by omega))

theorem decodeUtf8_some {bytes : Bytes} {characters : List Char} : decodeUtf8 bytes = some characters ↔ bytes = utf8 characters := by
  unfold decodeUtf8
  constructor
  · intro h
    split at h
    · rename_i valid
      obtain ⟨known, rfl⟩ := exists_utf8 valid
      rw [decodeChars_utf8 known le_rfl] at h
      rw [Option.some.inj h]
    · cases h
  · rintro rfl
    rw [if_pos (validUtf8_utf8 characters), decodeChars_utf8 characters le_rfl]

end Cbor
