import AppPilotKit.Lib.Numeral
import AppPilotKit.Semantic.CanonicalAgreement

/-! # The binding of an action's input

The digest of an action's input is taken of its canonical text. Integers keep all their
digits; every other number goes through a double and is printed again, as `BigDecimal` or
as `Double.toString` writes it. How `Double.toString` chooses the digits is a parameter.
-/

namespace AppPilotKit.Semantic.Android

open Numeral (IsInteger read sign point power)
open Binary64 (Decimal)
open JsonText (Worded)

/-! ## Decimals -/

structure BigDecimal where
  unscaled : Int
  scale : Int
deriving DecidableEq

namespace BigDecimal

def value (decimal : BigDecimal) : ℚ := decimal.unscaled * 10 ^ (-decimal.scale)

def parse (raw : List Char) : Option BigDecimal :=
  (read raw).map fun numeral =>
    { unscaled := (if numeral.negative then -1 else 1) * (Nat.ofDigitChars 10 (numeral.whole ++ numeral.fraction) 0 : Int)
      scale := numeral.fraction.length - numeral.exponent }

/-- Each round takes one zero off. -/
def strip : Nat → BigDecimal → BigDecimal
  | 0, decimal => decimal
  | fuel + 1, decimal =>
      if decimal.unscaled ≠ 0 ∧ decimal.unscaled % 10 = 0 then
        strip fuel { unscaled := decimal.unscaled / 10, scale := decimal.scale - 1 }
      else decimal

def stripTrailingZeros (decimal : BigDecimal) : BigDecimal :=
  if decimal.unscaled = 0 then { unscaled := 0, scale := 0 } else strip decimal.unscaled.natAbs decimal

def toPlainString (decimal : BigDecimal) : List Char :=
  let digits := digitsOf decimal.unscaled.natAbs
  if decimal.scale ≤ 0 then
    if decimal.unscaled = 0 then ['0']
    else sign (decimal.unscaled < 0) ++ digits ++ zeros (-decimal.scale).toNat
  else if digits.length ≤ decimal.scale then
    sign (decimal.unscaled < 0) ++ ['0', '.'] ++ zeros (decimal.scale - digits.length).toNat ++ digits
  else
    let insertion := (digits.length - decimal.scale).toNat
    sign (decimal.unscaled < 0) ++ digits.take insertion ++ '.' :: digits.drop insertion

end BigDecimal

/-! ## Canonical numbers -/

section
variable (printed : ℚ → Decimal)

/-- `Double.toString` of a nonzero number: positional from `10 ^ -3` to `10 ^ 7`. -/
def doubleText (number : ℚ) : List Char :=
  let digits := digitsOf (printed |number|).digits
  let position := digits.length + (printed |number|).exponent
  sign (number < 0) ++
    (if -3 < position ∧ position ≤ 7 then positional digits position
    else digits.take 1 ++ '.' :: (if digits.length = 1 then ['0'] else digits.drop 1) ++
      'E' :: (toString (position - 1)).toList)

/-- Finite doubles only. -/
def toDoubleOrNull (raw : List Char) : Option ℚ := (read raw).bind fun numeral => Binary64.ofRat numeral.value

def exponentText (exponent : Int) : List Char :=
  (if 0 ≤ exponent then ['+'] else []) ++ (toString exponent).toList

def scientificNumber (decimal : BigDecimal) : List Char :=
  let digits := digitsOf decimal.unscaled.natAbs
  let exponent := digits.length - decimal.scale - 1
  sign (decimal.unscaled < 0) ++
    (if digits.length = 1 then digits else digits.take 1 ++ '.' :: digits.drop 1) ++ 'e' :: exponentText exponent

/-- `none` is the failure `DISCLOSURE_DENIED`. -/
def canonicalNumber (raw : List Char) : Option (List Char) :=
  if IsInteger raw then
    match BigDecimal.parse raw with
    | none => none
    | some decimal =>
        let integer := decimal.stripTrailingZeros
        some (if integer.unscaled = 0 then ['0'] else integer.toPlainString)
  else
    match toDoubleOrNull raw with
    | none => none
    | some number =>
        if number = 0 then some ['0']
        else
          match BigDecimal.parse (doubleText printed number) with
          | none => none
          | some decimal =>
              if Binary64.nearest (1 / 10 ^ 6) ≤ |number| ∧ |number| < 10 ^ 21 then
                some decimal.stripTrailingZeros.toPlainString
              else
                let javaScientific := doubleText printed number
                if 'E' ∈ javaScientific ∨ 'e' ∈ javaScientific then
                  let lowered := javaScientific.map Char.toLower
                  some (dropPointZero (lowered.takeWhile (· ≠ 'e')) ++
                    'e' :: exponentText (exponentValue (lowered.dropWhile (· ≠ 'e')).tail))
                else some (scientificNumber decimal.stripTrailingZeros)

end

/-! ## Values of texts -/

/-- The text is a number, of this value. -/
def Spells (text : List Char) (q : ℚ) : Prop := ∃ numeral, read text = some numeral ∧ numeral.value = q

theorem digitsOf_eq (n : Nat) : digitsOf n = Nat.toDigits 10 n := by
  rw [digitsOf, Nat.toString_eq_repr, Nat.toList_repr]

theorem digits_digitsOf (n : Nat) : Numeral.Digits (digitsOf n) := by
  rw [digitsOf_eq]
  exact Numeral.digits_toDigits n

theorem digitsOf_value (n : Nat) : Nat.ofDigitChars 10 (digitsOf n) 0 = n := by
  rw [digitsOf_eq, Nat.ofDigitChars_ten_toDigits]

theorem zero_digits : Numeral.Digits ['0'] := ⟨by simp, by simp⟩

theorem zeros_digits (count : Nat) : ∀ c ∈ zeros count, c.isDigit = true := by
  intro c member
  rw [List.eq_of_mem_replicate member]
  rfl

theorem zeros_value (count n : Nat) : Nat.ofDigitChars 10 (zeros count) n = 10 ^ count * n := Nat.ofDigitChars_replicate_zero

theorem signed_value (n : Int) : ((if decide (n < 0) = true then -1 else 1 : ℚ)) * (n.natAbs : ℚ) = n := by
  by_cases negative : n < 0
  · have absolute : (n.natAbs : ℤ) = -n := by omega
    have cast : (n.natAbs : ℚ) = -n := by
      rw [← Int.cast_natCast, absolute, Int.cast_neg]
    simp [negative, cast]
  · have absolute : (n.natAbs : ℤ) = n := by omega
    have cast : (n.natAbs : ℚ) = n := by
      rw [← Int.cast_natCast, absolute]
    simp [negative, cast]

/-- Digits with a point among them, and a power of ten. -/
theorem spells (negative : Bool) {whole fraction tail : List Char} {exponent : Int} (n : Nat) (e : Int)
    (digits : Numeral.Digits whole) (more : ∀ c ∈ fraction, c.isDigit = true) (reads : power tail = some exponent)
    (value : (Nat.ofDigitChars 10 (whole ++ fraction) 0 : ℚ) * 10 ^ (exponent - fraction.length) = n * 10 ^ e) :
    Spells (sign negative ++ (whole ++ (point fraction ++ tail))) ((if negative then -1 else 1) * (n * 10 ^ e)) := by
  refine ⟨_, Numeral.read_spelled negative digits more reads, ?_⟩
  rw [Numeral.value, mul_assoc, value]

/-- Zeros before the digits. -/
theorem spells_small (negative : Bool) (n zeroCount : Nat) :
    Spells (sign negative ++ ['0', '.'] ++ zeros zeroCount ++ digitsOf n)
      ((if negative then -1 else 1) * (n * 10 ^ (-(zeroCount + (digitsOf n).length : Int)))) := by
  have fraction : zeros zeroCount ++ digitsOf n ≠ [] := fun empty =>
    (digits_digitsOf n).1 (List.append_eq_nil_iff.mp empty).2
  have shape : sign negative ++ ['0', '.'] ++ zeros zeroCount ++ digitsOf n =
      sign negative ++ (['0'] ++ (point (zeros zeroCount ++ digitsOf n) ++ [])) := by
    rw [point, if_neg fraction]
    simp
  rw [shape]
  refine spells negative n _ zero_digits ?_ rfl ?_
  · intro c member
    rcases List.mem_append.mp member with inside | inside
    · exact zeros_digits zeroCount c inside
    · exact (digits_digitsOf n).2 c inside
  · rw [Nat.ofDigitChars_append, Nat.ofDigitChars_append, zeros_value]
    have zero : Nat.ofDigitChars 10 ['0'] 0 = 0 := rfl
    rw [zero, Nat.mul_zero, digitsOf_value]
    simp [zeros]

/-- The point within the digits. -/
theorem spells_within (negative : Bool) (n : Nat) {k : Nat} (some : 0 < k) (inside : k < (digitsOf n).length)
    {tail : List Char} {exponent : Int} (reads : power tail = .some exponent) :
    Spells (sign negative ++ (digitsOf n).take k ++ '.' :: (digitsOf n).drop k ++ tail)
      ((if negative then -1 else 1) * (n * 10 ^ (exponent + k - (digitsOf n).length))) := by
  have fraction : (digitsOf n).drop k ≠ [] := by
    intro empty
    rw [List.drop_eq_nil_iff] at empty
    omega
  have whole : (digitsOf n).take k ≠ [] := by
    intro empty
    rcases List.take_eq_nil_iff.mp empty with none | none
    · omega
    · exact (digits_digitsOf n).1 none
  have shape : sign negative ++ (digitsOf n).take k ++ '.' :: (digitsOf n).drop k ++ tail =
      sign negative ++ ((digitsOf n).take k ++ (point ((digitsOf n).drop k) ++ tail)) := by
    rw [point, if_neg fraction]
    simp
  rw [shape]
  refine spells negative n _ ⟨whole, fun c member => (digits_digitsOf n).2 c (List.mem_of_mem_take member)⟩
    (fun c member => (digits_digitsOf n).2 c (List.mem_of_mem_drop member)) reads ?_
  rw [List.take_append_drop, digitsOf_value, List.length_drop, Nat.cast_sub inside.le]
  congr 2
  ring

/-- Zeros after the digits. -/
theorem spells_large (negative : Bool) (n zeroCount : Nat) {fraction tail : List Char} {exponent : Int}
    (none : fraction = [] ∨ fraction = ['0']) (reads : power tail = some exponent) :
    Spells (sign negative ++ ((digitsOf n ++ zeros zeroCount) ++ (point fraction ++ tail)))
      ((if negative then -1 else 1) * (n * 10 ^ (zeroCount + exponent))) := by
  refine spells negative n _ ((digits_digitsOf n).append (zeros_digits zeroCount)) ?_ reads ?_
  · rcases none with rfl | rfl
    · simp
    · simp
  · have ten : (10 : ℚ) ≠ 0 := by norm_num
    rw [Nat.ofDigitChars_append, Nat.ofDigitChars_append, digitsOf_value, zeros_value]
    rcases none with rfl | rfl
    · have keeps : Nat.ofDigitChars 10 [] (10 ^ zeroCount * n) = 10 ^ zeroCount * n := rfl
      rw [keeps]
      push_cast
      rw [List.length_nil, Nat.cast_zero, sub_zero, zpow_add₀ ten, zpow_natCast]
      ring
    · have shifts : Nat.ofDigitChars 10 ['0'] (10 ^ zeroCount * n) = 10 * (10 ^ zeroCount * n) := rfl
      rw [shifts]
      push_cast
      rw [List.length_singleton, Nat.cast_one, zpow_sub_one₀ ten, zpow_add₀ ten, zpow_natCast]
      field_simp

/-! ## Values of canonical numbers -/

namespace BigDecimal

theorem parse_value {raw : List Char} {decimal : BigDecimal} (parses : parse raw = some decimal) :
    Spells raw decimal.value := by
  obtain ⟨numeral, reads, rfl⟩ := Option.map_eq_some_iff.mp parses
  refine ⟨numeral, reads, ?_⟩
  unfold value Numeral.value
  dsimp only
  rw [neg_sub]
  push_cast
  rfl

theorem parse_integer {raw : List Char} {decimal : BigDecimal} (integer : IsInteger raw) (parses : parse raw = some decimal) :
    decimal.scale = 0 := by
  rw [parse, Numeral.integer_read integer] at parses
  cases parses
  rfl

theorem strip_value (fuel : Nat) (decimal : BigDecimal) :
    (strip fuel decimal).value = decimal.value ∧ (strip fuel decimal).scale ≤ decimal.scale ∧
      ((strip fuel decimal).unscaled = 0 ↔ decimal.unscaled = 0) := by
  induction fuel generalizing decimal with
  | zero => exact ⟨rfl, le_rfl, Iff.rfl⟩
  | succ fuel ih =>
      rw [strip]
      split
      · rename_i trailing
        obtain ⟨value, scale, zero⟩ := ih { unscaled := decimal.unscaled / 10, scale := decimal.scale - 1 }
        refine ⟨value.trans ?_, by simp only at scale; omega, zero.trans (by simp only; omega)⟩
        obtain ⟨tenth, tens⟩ := Int.dvd_of_emod_eq_zero trailing.2
        have divided : decimal.unscaled / 10 = tenth := by omega
        unfold BigDecimal.value
        dsimp only
        rw [divided, tens, neg_sub, sub_eq_add_neg, zpow_add₀ (by norm_num)]
        push_cast
        ring
      · exact ⟨rfl, le_rfl, Iff.rfl⟩

theorem stripTrailingZeros_value (decimal : BigDecimal) :
    decimal.stripTrailingZeros.value = decimal.value ∧ (decimal.scale ≤ 0 → decimal.stripTrailingZeros.scale ≤ 0) ∧
      (decimal.stripTrailingZeros.unscaled = 0 ↔ decimal.unscaled = 0) := by
  unfold stripTrailingZeros
  split
  · rename_i zero
    exact ⟨by simp [value, zero], fun _ => le_rfl, by simp [zero]⟩
  · obtain ⟨value, scale, zero⟩ := strip_value decimal.unscaled.natAbs decimal
    exact ⟨value, scale.trans, zero⟩

theorem toPlainString_whole {decimal : BigDecimal} (whole : decimal.scale ≤ 0) :
    Spells decimal.toPlainString decimal.value ∧ IsInteger decimal.toPlainString := by
  unfold toPlainString
  dsimp only
  rw [if_pos whole]
  split
  · rename_i zero
    refine ⟨⟨_, rfl, ?_⟩, zero_digits⟩
    simp [Numeral.value, value, zero, Nat.ofDigitChars]
  · have shape : sign (decimal.unscaled < 0) ++ digitsOf decimal.unscaled.natAbs ++ zeros (-decimal.scale).toNat =
        sign (decimal.unscaled < 0) ++
          ((digitsOf decimal.unscaled.natAbs ++ zeros (-decimal.scale).toNat) ++ (point [] ++ [])) := by
      simp [point]
    rw [shape]
    constructor
    · have spelled := spells_large (decimal.unscaled < 0) decimal.unscaled.natAbs (-decimal.scale).toNat (.inl rfl)
        (show power [] = some 0 from rfl)
      rw [← mul_assoc, signed_value, add_zero, Int.toNat_of_nonneg (by omega)] at spelled
      exact spelled
    · refine (Numeral.isInteger_spelled _ ?_ (show power [] = some 0 from rfl)).mpr ⟨rfl, rfl⟩
      exact (digits_digitsOf _).append (zeros_digits _)

theorem toPlainString_value (decimal : BigDecimal) : Spells decimal.toPlainString decimal.value := by
  by_cases whole : decimal.scale ≤ 0
  · exact (toPlainString_whole whole).1
  · unfold toPlainString
    dsimp only
    rw [if_neg whole]
    split
    · rename_i short
      have spelled := spells_small (decimal.unscaled < 0) decimal.unscaled.natAbs
        (decimal.scale - (digitsOf decimal.unscaled.natAbs).length).toNat
      rw [← mul_assoc, signed_value, Int.toNat_of_nonneg (by omega), sub_add_cancel] at spelled
      exact spelled
    · rename_i long
      have spelled := spells_within (decimal.unscaled < 0) decimal.unscaled.natAbs
        (k := ((digitsOf decimal.unscaled.natAbs).length - decimal.scale).toNat) (by omega) (by omega)
        (show power [] = some 0 from rfl)
      rw [← mul_assoc, signed_value, Int.toNat_of_nonneg (by omega), List.append_nil, zero_add, sub_sub_cancel_left] at spelled
      exact spelled

end BigDecimal

theorem exponentValue_of_integer {text : List Char} {n : Int} (reads : Numeral.integer text = some n) : exponentValue text = n := by
  have unsigned {digits : List Char} {m : Nat} (reads : Numeral.unsignedInteger digits = some m) : digitValue digits = m := by
    unfold Numeral.unsignedInteger at reads
    split at reads
    · cases reads
      rfl
    · cases reads
  unfold Numeral.integer at reads
  split at reads <;> obtain ⟨m, digits, rfl⟩ := Option.map_eq_some_iff.mp reads
  · simp only [exponentValue, unsigned digits]
  · simp only [exponentValue, unsigned digits]
  · rename_i noMinus noPlus
    have plain : exponentValue text = digitValue text := by
      unfold exponentValue
      split
      · exact absurd rfl (noMinus _)
      · exact absurd rfl (noPlus _)
      · rfl
    rw [plain, unsigned digits]

theorem exponentValue_toString (n : Int) : exponentValue (toString n).toList = n :=
  exponentValue_of_integer (Numeral.integer_toString n)

theorem power_exponentText (n : Int) : power ('e' :: exponentText n) = some n := by
  rw [Numeral.power_marked (.inl rfl), exponentText]
  split
  · rename_i positive
    obtain ⟨m, rfl⟩ := Int.eq_ofNat_of_zero_le positive
    have digits : (toString (m : Int)).toList = Nat.toDigits 10 m := by
      rw [Int.toString_eq_repr]
      exact Nat.toList_repr
    rw [digits]
    exact Numeral.integer_plus m
  · exact Numeral.integer_toString n

theorem scientificNumber_value (decimal : BigDecimal) : Spells (scientificNumber decimal) decimal.value := by
  have shift : -decimal.scale = (digitsOf decimal.unscaled.natAbs).length - decimal.scale - 1 + 1 -
      (digitsOf decimal.unscaled.natAbs).length := by ring
  have length : 0 < (digitsOf decimal.unscaled.natAbs).length := List.length_pos_iff.mpr (digits_digitsOf _).1
  have reads := power_exponentText ((digitsOf decimal.unscaled.natAbs).length - decimal.scale - 1)
  unfold scientificNumber BigDecimal.value
  dsimp only
  split
  · rename_i single
    have spelled := spells_large (decimal.unscaled < 0) decimal.unscaled.natAbs 0 (.inl rfl) reads
    rw [← mul_assoc, signed_value, single] at spelled
    simpa [zeros, point, single] using spelled
  · rename_i several
    have spelled := spells_within (decimal.unscaled < 0) decimal.unscaled.natAbs Nat.one_pos (by omega) reads
    rw [← mul_assoc, signed_value, Nat.cast_one, ← shift] at spelled
    simpa using spelled

/-! ## Printed doubles -/

section
variable (printed : ℚ → Decimal)

/-- The decimal that `Double.toString` writes. -/
def asPrinted (number : ℚ) : ℚ := if number = 0 then 0 else (if number < 0 then -1 else 1) * (printed |number|).value

/-- The number that a literal is taken for. -/
def carried (raw : List Char) : ℚ :=
  match read raw with
  | none => 0
  | some numeral => if IsInteger raw then numeral.value else asPrinted printed (Binary64.nearest numeral.value)

variable {printed}

theorem spells_positional (negative : Bool) (n : Nat) (e : Int) :
    Spells (sign negative ++ positional (digitsOf n) ((digitsOf n).length + e)) ((if negative then -1 else 1) * (n * 10 ^ e)) := by
  unfold positional
  split
  · rename_i small
    have spelled := spells_small negative n (-((digitsOf n).length + e)).toNat
    rw [Int.toNat_of_nonneg (by omega)] at spelled
    have place : -(-((digitsOf n).length + e) + ((digitsOf n).length : Int)) = e := by ring
    rw [place] at spelled
    simpa using spelled
  · split
    · rename_i large
      have spelled := spells_large negative n (((digitsOf n).length + e) - (digitsOf n).length).toNat (.inr rfl)
        (show power [] = some 0 from rfl)
      rw [Int.toNat_of_nonneg (by omega), add_zero, add_sub_cancel_left] at spelled
      simpa [point] using spelled
    · rename_i some within
      have spelled := spells_within negative n (k := ((digitsOf n).length + e).toNat) (by omega) (by omega)
        (show power [] = .some 0 from rfl)
      rw [Int.toNat_of_nonneg (by omega), zero_add, add_sub_cancel_left] at spelled
      simpa using spelled

theorem spells_computerized (negative : Bool) (n : Nat) (e : Int) {tail : List Char}
    (reads : power tail = some ((digitsOf n).length + e - 1)) :
    Spells (sign negative ++ ((digitsOf n).take 1 ++
        '.' :: (if (digitsOf n).length = 1 then ['0'] else (digitsOf n).drop 1) ++ tail))
      ((if negative then -1 else 1) * (n * 10 ^ e)) := by
  have length : 0 < (digitsOf n).length := List.length_pos_iff.mpr (digits_digitsOf _).1
  split
  · rename_i single
    have spelled := spells_large negative n 0 (.inr rfl) reads
    rw [single] at spelled
    have place : ((0 : ℕ) : ℤ) + (((1 : ℕ) : ℤ) + e - 1) = e := by push_cast; ring
    rw [place] at spelled
    have all : (digitsOf n).take 1 = digitsOf n := List.take_of_length_le single.le
    rw [all]
    simpa [zeros, point] using spelled
  · rename_i several
    have spelled := spells_within negative n Nat.one_pos (by omega) reads
    have place : ((digitsOf n).length : ℤ) + e - 1 + ((1 : ℕ) : ℤ) - (digitsOf n).length = e := by push_cast; ring
    rw [place] at spelled
    simpa using spelled

variable (printed) in
theorem doubleText_value {number : ℚ} (nonzero : number ≠ 0) : Spells (doubleText printed number) (asPrinted printed number) := by
  have magnitude : asPrinted printed number =
      (if decide (number < 0) = true then -1 else 1) * ((printed |number|).digits * 10 ^ (printed |number|).exponent) := by
    rw [asPrinted, if_neg nonzero, Decimal.value]
    simp
  rw [magnitude]
  unfold doubleText
  dsimp only
  split
  · exact spells_positional _ _ _
  · refine spells_computerized _ _ _ ?_
    rw [Numeral.power_marked (.inr rfl), Numeral.integer_toString]

/-! ## Java's notation and ECMAScript's -/

/-- A digit, a sign or a point: letters aside, all that numbers are written with. -/
def Bare (c : Char) : Prop := c.isDigit = true ∨ c = '-' ∨ c = '.'

theorem Bare.fixed {c : Char} (bare : Bare c) : c.toLower = c ∧ c ≠ 'e' ∧ c ≠ 'E' := by
  rcases bare with digit | rfl | rfl
  · refine ⟨?_, Numeral.digit_apart digit (by decide), Numeral.digit_apart digit (by decide)⟩
    have bounds : c.toNat ≤ 57 := by
      simp only [Char.isDigit, Bool.and_eq_true, decide_eq_true_eq] at digit
      exact digit.2
    unfold Char.toLower
    rw [dif_neg]
    rintro ⟨upper, -⟩
    have : 65 ≤ c.toNat := upper
    omega
  · exact ⟨by decide, by decide, by decide⟩
  · exact ⟨by decide, by decide, by decide⟩

theorem bare_toString (n : Int) : ∀ c ∈ (toString n).toList, Bare c := by
  intro c member
  rw [Int.toString_eq_repr] at member
  cases n with
  | ofNat m =>
      rw [Int.repr, Nat.toList_repr] at member
      exact .inl ((Numeral.digits_toDigits m).2 c member)
  | negSucc m =>
      rw [Int.repr, String.toList_append, Nat.toList_repr] at member
      rcases List.mem_append.mp member with minus | digit
      · exact .inr (.inl (by simpa using minus))
      · exact .inl ((Numeral.digits_toDigits _).2 c digit)

/-- Lower case, and cut in two at the mark. -/
theorem lowered_split {mantissa exponent : List Char} (bareM : ∀ c ∈ mantissa, Bare c) (bareE : ∀ c ∈ exponent, Bare c) :
    ((mantissa ++ 'E' :: exponent).map Char.toLower).takeWhile (· ≠ 'e') = mantissa ∧
      (((mantissa ++ 'E' :: exponent).map Char.toLower).dropWhile (· ≠ 'e')).tail = exponent := by
  have lowered : (mantissa ++ 'E' :: exponent).map Char.toLower = mantissa ++ 'e' :: exponent := by
    have keeps {text : List Char} (bare : ∀ c ∈ text, Bare c) : text.map Char.toLower = text :=
      (List.map_congr_left fun c member => (bare c member).fixed.1).trans (List.map_id text)
    rw [List.map_append, List.map_cons, keeps bareM, keeps bareE]
    rfl
  have before : ∀ c ∈ mantissa, decide (c ≠ 'e') = true := fun c member => decide_eq_true (bareM c member).fixed.2.1
  rw [lowered, List.takeWhile_append_of_pos before, List.dropWhile_append_of_pos before]
  simp

theorem dropPointZero_spells (negative : Bool) {whole rest tail : List Char} {exponent : Int} {q : ℚ}
    (digits : Numeral.Digits whole) (more : Numeral.Digits rest) (reads : power tail = some exponent)
    (spelled : Spells (sign negative ++ (whole ++ '.' :: rest ++ tail)) q) :
    Spells (dropPointZero (sign negative ++ (whole ++ '.' :: rest)) ++ tail) q := by
  by_cases zero : rest = ['0']
  · subst zero
    have shape : sign negative ++ (whole ++ '.' :: ['0'] ++ tail) = sign negative ++ (whole ++ (point ['0'] ++ tail)) := by
      simp [point]
    have cut : dropPointZero (sign negative ++ (whole ++ '.' :: ['0'])) ++ tail =
        sign negative ++ (whole ++ (point [] ++ tail)) := by
      have suffix : ['.', '0'] <:+ sign negative ++ (whole ++ '.' :: ['0']) := ⟨sign negative ++ whole, by simp⟩
      rw [dropPointZero, if_pos (List.isSuffixOf_iff_suffix.mpr suffix)]
      simp [point, ← List.append_assoc]
    obtain ⟨numeral, read, value⟩ := spelled
    rw [shape, Numeral.read_spelled negative digits (by simp) reads] at read
    cases read
    rw [cut]
    refine ⟨_, Numeral.read_spelled negative digits (by simp) reads, ?_⟩
    rw [← value]
    have ten : (10 : ℚ) ≠ 0 := by norm_num
    have shifts : Nat.ofDigitChars 10 (whole ++ ['0']) 0 = 10 * Nat.ofDigitChars 10 whole 0 := by
      rw [Nat.ofDigitChars_append]
      rfl
    simp only [Numeral.value, shifts, List.append_nil, List.length_nil, List.length_singleton, Nat.cast_zero, Nat.cast_one, sub_zero]
    rw [zpow_sub_one₀ ten]
    push_cast
    field_simp
  · have keeps : ¬ ['.', '0'] <:+ sign negative ++ (whole ++ '.' :: rest) := by
      rintro ⟨front, same⟩
      obtain none | ⟨before, last, rfl⟩ := List.eq_nil_or_concat' rest
      · exact more.1 none
      · rw [show sign negative ++ (whole ++ '.' :: (before ++ [last])) =
            (sign negative ++ (whole ++ '.' :: before)) ++ [last] by simp,
          show front ++ ['.', '0'] = (front ++ ['.']) ++ ['0'] by simp] at same
        obtain ⟨heads, lasts⟩ := List.append_inj' same rfl
        cases lasts
        obtain rfl | ⟨before, next, rfl⟩ := List.eq_nil_or_concat' before
        · exact zero rfl
        · rw [show sign negative ++ (whole ++ '.' :: (before ++ [next])) =
            (sign negative ++ (whole ++ '.' :: before)) ++ [next] by simp] at heads
          obtain ⟨-, points⟩ := List.append_inj' heads rfl
          obtain rfl : '.' = next := by simpa using points
          have digit := more.2 '.' (by simp)
          cases digit
    rw [dropPointZero, if_neg (fun suffix => keeps (List.isSuffixOf_iff_suffix.mp suffix))]
    simpa using spelled

theorem bare_positional {digits : List Char} (bare : ∀ c ∈ digits, Bare c) {position : Int} :
    ∀ c ∈ positional digits position, Bare c := by
  have zero : ∀ count, ∀ c ∈ zeros count, Bare c := fun count c member => .inl (zeros_digits count c member)
  have noughts : Bare '0' := .inl (by decide)
  have points : Bare '.' := .inr (.inr rfl)
  intro c member
  unfold positional at member
  split at member
  · simp only [List.mem_append, List.mem_cons, List.not_mem_nil, or_false] at member
    rcases member with ((rfl | rfl) | inside) | inside
    · exact noughts
    · exact points
    · exact zero _ c inside
    · exact bare c inside
  · split at member
    · simp only [List.mem_append, List.mem_cons, List.not_mem_nil, or_false] at member
      rcases member with (inside | inside) | (rfl | rfl)
      · exact bare c inside
      · exact zero _ c inside
      · exact points
      · exact noughts
    · simp only [List.mem_append, List.mem_cons] at member
      rcases member with inside | rfl | inside
      · exact bare c (List.mem_of_mem_take inside)
      · exact points
      · exact bare c (List.mem_of_mem_drop inside)

/-- Java's text with a mark, rewritten. -/
theorem rewritten_value {number : ℚ} (nonzero : number ≠ 0)
    (marked : 'E' ∈ doubleText printed number ∨ 'e' ∈ doubleText printed number) :
    Spells (dropPointZero (((doubleText printed number).map Char.toLower).takeWhile (· ≠ 'e')) ++
        'e' :: exponentText (exponentValue (((doubleText printed number).map Char.toLower).dropWhile (· ≠ 'e')).tail))
      (asPrinted printed number) := by
  have magnitude : asPrinted printed number =
      (if decide (number < 0) = true then -1 else 1) * ((printed |number|).digits * 10 ^ (printed |number|).exponent) := by
    rw [asPrinted, if_neg nonzero, Decimal.value]
    simp
  have digits := digits_digitsOf (printed |number|).digits
  have signs : ∀ c ∈ sign (decide (number < 0)), Bare c := by
    intro c member
    unfold sign at member
    split at member
    · exact .inr (.inl (by simpa using member))
    · cases member
  have bareDigits : ∀ c ∈ digitsOf (printed |number|).digits, Bare c := fun c member => .inl (digits.2 c member)
  unfold doubleText at marked ⊢
  dsimp only at marked ⊢
  split at marked
  · exfalso
    have bare : ∀ c ∈ sign (decide (number < 0)) ++ positional (digitsOf (printed |number|).digits)
        ((digitsOf (printed |number|).digits).length + (printed |number|).exponent), Bare c :=
      fun c member => (List.mem_append.mp member).elim (signs c) (bare_positional bareDigits c)
    rcases marked with mark | mark
    · exact (bare _ mark).fixed.2.2 rfl
    · exact (bare _ mark).fixed.2.1 rfl
  · rename_i scientific
    rw [if_neg scientific]
    have first : Numeral.Digits ((digitsOf (printed |number|).digits).take 1) := by
      refine ⟨fun empty => ?_, fun c member => digits.2 c (List.mem_of_mem_take member)⟩
      rcases List.take_eq_nil_iff.mp empty with none | none
      · omega
      · exact digits.1 none
    obtain ⟨fraction, chosen, rest⟩ : ∃ fraction, (if (digitsOf (printed |number|).digits).length = 1 then ['0']
        else (digitsOf (printed |number|).digits).drop 1) = fraction ∧ Numeral.Digits fraction := by
      refine ⟨_, rfl, ?_⟩
      split
      · exact zero_digits
      · refine ⟨fun empty => ?_, fun c member => digits.2 c (List.mem_of_mem_drop member)⟩
        have := List.drop_eq_nil_iff.mp empty
        have := List.length_pos_iff.mpr digits.1
        omega
    have power := power_exponentText ((digitsOf (printed |number|).digits).length + (printed |number|).exponent - 1)
    have spelled := spells_computerized (decide (number < 0)) _ _ power
    rw [← magnitude, chosen] at spelled
    have mantissa : ∀ c ∈ sign (decide (number < 0)) ++ ((digitsOf (printed |number|).digits).take 1 ++ '.' :: fraction), Bare c := by
      intro c member
      simp only [List.mem_append, List.mem_cons] at member
      rcases member with inside | inside | rfl | inside
      · exact signs c inside
      · exact .inl (first.2 c inside)
      · exact .inr (.inr rfl)
      · exact .inl (rest.2 c inside)
    rw [chosen, ← List.append_assoc, (lowered_split mantissa (bare_toString _)).1, (lowered_split mantissa (bare_toString _)).2,
      exponentValue_toString]
    exact dropPointZero_spells _ first rest power spelled

/-! ## What a canonical number stands for -/

/-- `Double.toString` prints digits that read back as the double. -/
def ReadsBack (printed : ℚ → Decimal) : Prop :=
  ∀ number, 0 < number → Binary64.nearest number = number → number ≤ Binary64.largestFinite →
    Binary64.nearest (printed number).value = number

theorem carried_integer {raw : List Char} {numeral : Numeral} (reads : read raw = some numeral) (integer : IsInteger raw) :
    carried printed raw = numeral.value := by
  rw [carried, reads]
  exact if_pos integer

theorem carried_other {raw : List Char} {numeral : Numeral} (reads : read raw = some numeral) (other : ¬ IsInteger raw) :
    carried printed raw = asPrinted printed (Binary64.nearest numeral.value) := by
  rw [carried, reads]
  exact if_neg other

theorem spells_zero : Spells ['0'] 0 ∧ IsInteger ['0'] :=
  ⟨⟨_, rfl, by simp [Numeral.value, Nat.ofDigitChars]⟩, zero_digits⟩

/-- Integers are written exactly. -/
theorem canonicalNumber_integer {raw text : List Char} (ok : canonicalNumber printed raw = some text) (integer : IsInteger raw) :
    Spells text (carried printed raw) ∧ IsInteger text := by
  unfold canonicalNumber at ok
  rw [if_pos integer] at ok
  split at ok
  · cases ok
  · rename_i decimal parses
    obtain ⟨numeral, reads, value⟩ := BigDecimal.parse_value parses
    obtain ⟨stripped, scale, zero⟩ := decimal.stripTrailingZeros_value
    rw [carried_integer reads integer, value, ← stripped]
    cases ok
    split
    · rename_i none
      rw [BigDecimal.value, none, Int.cast_zero, zero_mul]
      exact spells_zero
    · exact BigDecimal.toPlainString_whole (scale (BigDecimal.parse_integer integer parses).le)

/-- Other numbers are written as they are printed. -/
theorem canonicalNumber_other {raw text : List Char} (ok : canonicalNumber printed raw = some text) (other : ¬ IsInteger raw) :
    ∃ numeral number, read raw = some numeral ∧ Binary64.ofRat numeral.value = some number ∧
      carried printed raw = asPrinted printed number ∧ Spells text (asPrinted printed number) ∧
      (number = 0 → text = ['0']) := by
  unfold canonicalNumber at ok
  rw [if_neg other] at ok
  split at ok
  · cases ok
  · rename_i number double
    obtain ⟨numeral, reads, finite⟩ := Option.bind_eq_some_iff.mp double
    have nearest : Binary64.nearest numeral.value = number := by
      unfold Binary64.ofRat at finite
      split at finite
      · exact Option.some.inj finite
      · cases finite
    refine ⟨numeral, number, reads, finite, by rw [carried_other reads other, nearest], ?_⟩
    split at ok
    · rename_i zero
      cases ok
      refine ⟨?_, fun _ => rfl⟩
      rw [asPrinted, if_pos zero]
      exact spells_zero.1
    · rename_i nonzero
      refine ⟨?_, fun zero => absurd zero nonzero⟩
      obtain ⟨numeral, reads, value⟩ := doubleText_value printed nonzero
      split at ok
      · cases ok
      · rename_i decimal parses
        obtain ⟨numeral', reads', value'⟩ := BigDecimal.parse_value parses
        rw [reads] at reads'
        cases reads'
        have same : decimal.stripTrailingZeros.value = asPrinted printed number :=
          decimal.stripTrailingZeros_value.1.trans (value'.symm.trans value)
        split at ok
        · cases ok
          rw [← same]
          exact BigDecimal.toPlainString_value _
        · dsimp only at ok
          split at ok
          · rename_i marked
            cases ok
            exact rewritten_value nonzero marked
          · cases ok
            rw [← same]
            exact scientificNumber_value _

theorem nearest_asPrinted (back : ReadsBack printed) {q number : ℚ} (finite : Binary64.ofRat q = some number) (nonzero : number ≠ 0) :
    Binary64.nearest (asPrinted printed number) = number := by
  unfold Binary64.ofRat at finite
  split at finite
  · rename_i bound
    cases finite
    have positive : 0 < |Binary64.nearest q| := abs_pos.mpr nonzero
    have own : Binary64.nearest |Binary64.nearest q| = |Binary64.nearest q| := by
      have zero : q ≠ 0 := by
        rintro rfl
        exact nonzero (Binary64.nearest_of_multiple (n := 0) (by simp))
      rw [Binary64.nearest_abs, Binary64.nearest_nearest (abs_pos.mpr zero)]
    have reads := back _ positive own bound
    rw [asPrinted, if_neg nonzero]
    split
    · rename_i negative
      rw [neg_one_mul, Binary64.nearest_neg, reads, abs_of_neg negative, neg_neg]
    · rename_i positive
      rw [one_mul, reads, abs_of_nonneg (not_lt.mp positive)]
  · cases finite

/-- The text stands for the same number, and so do its own canonical forms. -/
theorem carried_canonical (back : ReadsBack printed) {raw text : List Char} (ok : canonicalNumber printed raw = some text) :
    Spells text (carried printed raw) ∧ carried printed text = carried printed raw := by
  by_cases integer : IsInteger raw
  · obtain ⟨spelled, whole⟩ := canonicalNumber_integer ok integer
    obtain ⟨numeral, reads, value⟩ := spelled
    exact ⟨⟨numeral, reads, value⟩, (carried_integer reads whole).trans value⟩
  · obtain ⟨numeral, number, reads, finite, carries, spelled, zero⟩ := canonicalNumber_other ok integer
    rw [carries]
    refine ⟨spelled, ?_⟩
    obtain ⟨numeral', reads', value'⟩ := spelled
    by_cases whole : IsInteger text
    · exact (carried_integer reads' whole).trans value'
    · have nonzero : number ≠ 0 := by
        rintro rfl
        rw [zero rfl] at whole
        exact whole zero_digits
      rw [carried_other reads' whole, value', nearest_asPrinted back finite nonzero]

end

/-! ## Elements -/

/-- The content of a number, as it is spelled. -/
structure NumberLiteral where
  text : List Char
  spelled : (read text).isSome = true

def NumberLiteral.parse (text : List Char) : Option NumberLiteral :=
  if spelled : (read text).isSome = true then some { text, spelled } else none

/-- The names of an object's members are distinct. -/
inductive JsonElement where
  | null
  | bool (value : Bool)
  | number (literal : NumberLiteral)
  | string (value : String)
  | array (values : List JsonElement)
  | object (members : List (String × JsonElement))

section
variable (printed : ℚ → Decimal)

mutual
def canonicalize : JsonElement → Option JsonElement
  | .object members => (canonicalizeMembers members).map fun entries => .object (sortedEntries entries)
  | .array values => (canonicalizeValues values).map .array
  | .number literal => ((canonicalNumber printed literal.text).bind NumberLiteral.parse).map .number
  | .null => some .null
  | .bool value => some (.bool value)
  | .string value => some (.string value)

def canonicalizeValues : List JsonElement → Option (List JsonElement)
  | [] => some []
  | value :: values => (canonicalize value).bind fun first => (canonicalizeValues values).map (first :: ·)

def canonicalizeMembers : List (String × JsonElement) → Option (List (String × JsonElement))
  | [] => some []
  | (name, value) :: members =>
      (canonicalize value).bind fun first => (canonicalizeMembers members).map ((name, first) :: ·)
end

mutual
def wireJson : JsonElement → Option JsonText
  | .null => some (.word ['n', 'u', 'l', 'l'])
  | .object members => (wireMembers members).map .object
  | .array values => (wireValues values).map .array
  | .string value => some (.string value)
  | .bool value => some (.word (toString value).toList)
  | .number literal => (canonicalNumber printed literal.text).map .word

def wireValues : List JsonElement → Option (List JsonText)
  | [] => some []
  | value :: values => (wireJson value).bind fun first => (wireValues values).map (first :: ·)

def wireMembers : List (String × JsonElement) → Option (List (String × JsonText))
  | [] => some []
  | (name, value) :: members => (wireJson value).bind fun first => (wireMembers members).map ((name, first) :: ·)
end

end

/-- The same JSON value, where a number is worth `value` of its text. -/
inductive Same (value : List Char → ℚ) : JsonElement → JsonElement → Prop where
  | null : Same value .null .null
  | bool (truth : Bool) : Same value (.bool truth) (.bool truth)
  | number {a b : NumberLiteral} (same : value a.text = value b.text) : Same value (.number a) (.number b)
  | string (text : String) : Same value (.string text) (.string text)
  | array {xs ys : List JsonElement} (elements : List.Forall₂ (Same value) xs ys) : Same value (.array xs) (.array ys)
  | object {xs ys zs : List (String × JsonElement)} (order : List.Perm ys zs) (names : xs.map Prod.fst = ys.map Prod.fst)
      (values : List.Forall₂ (Same value) (xs.map Prod.snd) (ys.map Prod.snd)) : Same value (.object xs) (.object zs)

/-- The texts an element is written as, members in any order. -/
inductive Wired (value : List Char → ℚ) : JsonElement → JsonText → Prop where
  | null : Wired value .null (.word ['n', 'u', 'l', 'l'])
  | bool (truth : Bool) : Wired value (.bool truth) (.word (toString truth).toList)
  | number {literal : NumberLiteral} {text : List Char} (spelled : Spells text (value literal.text)) :
      Wired value (.number literal) (.word text)
  | string (text : String) : Wired value (.string text) (.string text)
  | array {values : List JsonElement} {texts : List JsonText} (elements : List.Forall₂ (Wired value) values texts) :
      Wired value (.array values) (.array texts)
  | object {members : List (String × JsonElement)} {texts ordered : List (String × JsonText)} (order : List.Perm texts ordered)
      (names : members.map Prod.fst = texts.map Prod.fst)
      (values : List.Forall₂ (Wired value) (members.map Prod.snd) (texts.map Prod.snd)) :
      Wired value (.object members) (.object ordered)

section
variable {printed : ℚ → Decimal}

/-- Element by element, the first failure failing the list. -/
theorem each_ok {α β : Type} {f : α → Option β} {many : List α → Option (List β)} (nil : many [] = some [])
    (cons : ∀ x xs, many (x :: xs) = (f x).bind fun first => (many xs).map (first :: ·)) {xs : List α} {ys : List β} :
    many xs = some ys ↔ List.Forall₂ (fun x y => f x = some y) xs ys := by
  induction xs generalizing ys with
  | nil =>
      rw [nil, List.forall₂_nil_left_iff]
      simp [eq_comm]
  | cons x xs ih =>
      rw [cons, List.forall₂_cons_left_iff]
      simp only [Option.bind_eq_some_iff, Option.map_eq_some_iff, ih]
      constructor
      · rintro ⟨first, ok, rest, others, rfl⟩
        exact ⟨first, rest, ok, others, rfl⟩
      · rintro ⟨first, rest, ok, others, rfl⟩
        exact ⟨first, ok, rest, others, rfl⟩

/-- The same for entries, whose names stay. -/
theorem entries_ok {α β : Type} {f : α → Option β} {many : List (String × α) → Option (List (String × β))}
    (nil : many [] = some [])
    (cons : ∀ name x xs, many ((name, x) :: xs) = (f x).bind fun first => (many xs).map ((name, first) :: ·))
    {xs : List (String × α)} {ys : List (String × β)} :
    many xs = some ys ↔ List.Forall₂ (fun x y => x.1 = y.1 ∧ f x.2 = some y.2) xs ys := by
  rw [each_ok (f := fun x : String × α => (f x.2).map fun first => (x.1, first)) nil]
  · have entry (x : String × α) (y : String × β) :
        ((f x.2).map fun first => (x.1, first)) = some y ↔ x.1 = y.1 ∧ f x.2 = some y.2 := by
      rw [Option.map_eq_some_iff]
      constructor
      · rintro ⟨first, ok, rfl⟩
        exact ⟨rfl, ok⟩
      · rintro ⟨same, ok⟩
        exact ⟨y.2, ok, by rw [same]⟩
    simp only [entry]
  · rintro ⟨name, x⟩ xs
    rw [cons, Option.bind_map]
    rfl

theorem entries_split {α β : Type} {R : α → β → Prop} {xs : List (String × α)} {ys : List (String × β)} :
    List.Forall₂ (fun x y => x.1 = y.1 ∧ R x.2 y.2) xs ys ↔
      xs.map Prod.fst = ys.map Prod.fst ∧ List.Forall₂ R (xs.map Prod.snd) (ys.map Prod.snd) := by
  rw [← List.forall₂_eq_eq_eq, List.forall₂_map_left_iff, List.forall₂_map_right_iff, List.forall₂_map_left_iff,
    List.forall₂_map_right_iff]
  induction xs generalizing ys with
  | nil => simp [List.forall₂_nil_left_iff]
  | cons x xs ih =>
      cases ys with
      | nil => simp
      | cons y ys =>
          simp only [List.forall₂_cons, ih]
          tauto

theorem canonicalizeValues_ok {values canonical : List JsonElement} :
    canonicalizeValues printed values = some canonical ↔
      List.Forall₂ (fun value element => canonicalize printed value = some element) values canonical :=
  each_ok (canonicalizeValues.eq_1 printed) (canonicalizeValues.eq_2 printed)

theorem canonicalizeMembers_ok {members canonical : List (String × JsonElement)} :
    canonicalizeMembers printed members = some canonical ↔
      List.Forall₂ (fun member element => member.1 = element.1 ∧ canonicalize printed member.2 = some element.2) members canonical :=
  entries_ok (canonicalizeMembers.eq_1 printed) (canonicalizeMembers.eq_2 printed)

theorem wireValues_ok {values : List JsonElement} {texts : List JsonText} :
    wireValues printed values = some texts ↔
      List.Forall₂ (fun value text => wireJson printed value = some text) values texts :=
  each_ok (wireValues.eq_1 printed) (wireValues.eq_2 printed)

theorem wireMembers_ok {members : List (String × JsonElement)} {texts : List (String × JsonText)} :
    wireMembers printed members = some texts ↔
      List.Forall₂ (fun member text => member.1 = text.1 ∧ wireJson printed member.2 = some text.2) members texts :=
  entries_ok (wireMembers.eq_1 printed) (wireMembers.eq_2 printed)

/-! ## Injectivity -/

theorem canonicalize_number {literal again : NumberLiteral}
    (ok : (canonicalNumber printed literal.text).bind NumberLiteral.parse = some again) :
    canonicalNumber printed literal.text = some again.text := by
  obtain ⟨text, canonical, parses⟩ := Option.bind_eq_some_iff.mp ok
  unfold NumberLiteral.parse at parses
  split at parses
  · cases parses
    exact canonical
  · cases parses

mutual
theorem canonicalize_wired (back : ReadsBack printed) : ∀ (value canonical : JsonElement) (text : JsonText),
    canonicalize printed value = some canonical → wireJson printed canonical = some text → Wired (carried printed) value text
  | .null, canonical, text, canonicalized, wired => by
      cases canonicalized
      cases wired
      exact .null
  | .bool truth, canonical, text, canonicalized, wired => by
      cases canonicalized
      cases wired
      exact .bool truth
  | .string content, canonical, text, canonicalized, wired => by
      cases canonicalized
      cases wired
      exact .string content
  | .number literal, canonical, text, canonicalized, wired => by
      rw [canonicalize, Option.map_eq_some_iff] at canonicalized
      obtain ⟨again, ok, rfl⟩ := canonicalized
      rw [wireJson, Option.map_eq_some_iff] at wired
      obtain ⟨word, written, rfl⟩ := wired
      have first := carried_canonical back (canonicalize_number ok)
      have second := carried_canonical back written
      rw [first.2] at second
      exact .number second.1
  | .array values, canonical, text, canonicalized, wired => by
      rw [canonicalize, Option.map_eq_some_iff] at canonicalized
      obtain ⟨elements, ok, rfl⟩ := canonicalized
      rw [wireJson, Option.map_eq_some_iff] at wired
      obtain ⟨texts, written, rfl⟩ := wired
      exact .array (canonicalizeValues_wired back values elements texts (canonicalizeValues_ok.mp ok) (wireValues_ok.mp written))
  | .object members, canonical, text, canonicalized, wired => by
      rw [canonicalize, Option.map_eq_some_iff] at canonicalized
      obtain ⟨elements, ok, rfl⟩ := canonicalized
      rw [wireJson, Option.map_eq_some_iff] at wired
      obtain ⟨ordered, written, rfl⟩ := wired
      obtain ⟨texts, each, order⟩ := List.perm_comp_forall₂ (sortedEntries_perm elements).symm (wireMembers_ok.mp written)
      obtain ⟨names, wired⟩ := entries_split.mp
        (canonicalizeMembers_wired back members elements texts (canonicalizeMembers_ok.mp ok) each)
      exact .object order names wired
termination_by value => sizeOf value

theorem canonicalizeValues_wired (back : ReadsBack printed) : ∀ (values elements : List JsonElement) (texts : List JsonText),
    List.Forall₂ (fun value element => canonicalize printed value = some element) values elements →
    List.Forall₂ (fun element text => wireJson printed element = some text) elements texts →
    List.Forall₂ (Wired (carried printed)) values texts
  | [], elements, texts, canonicalized, wired => by
      cases canonicalized
      cases wired
      exact .nil
  | value :: values, elements, texts, canonicalized, wired => by
      cases canonicalized with
      | cons ok others =>
          cases wired with
          | cons written more =>
              exact .cons (canonicalize_wired back value _ _ ok written) (canonicalizeValues_wired back values _ _ others more)
termination_by values => sizeOf values

theorem canonicalizeMembers_wired (back : ReadsBack printed) :
    ∀ (members elements : List (String × JsonElement)) (texts : List (String × JsonText)),
    List.Forall₂ (fun member element => member.1 = element.1 ∧ canonicalize printed member.2 = some element.2) members elements →
    List.Forall₂ (fun element text => element.1 = text.1 ∧ wireJson printed element.2 = some text.2) elements texts →
    List.Forall₂ (fun member text => member.1 = text.1 ∧ Wired (carried printed) member.2 text.2) members texts
  | [], elements, texts, canonicalized, wired => by
      cases canonicalized
      cases wired
      exact .nil
  | (name, value) :: members, elements, texts, canonicalized, wired => by
      cases canonicalized with
      | cons ok others =>
          cases wired with
          | cons written more =>
              exact .cons ⟨ok.1.trans written.1, canonicalize_wired back value _ _ ok.2 written.2⟩
                (canonicalizeMembers_wired back members _ _ others more)
termination_by members => sizeOf members
end

theorem unspelled_null {q : ℚ} : ¬ Spells ['n', 'u', 'l', 'l'] q := by
  rintro ⟨numeral, reads, -⟩
  have none : read ['n', 'u', 'l', 'l'] = none := rfl
  rw [none] at reads
  cases reads

theorem unspelled_bool {truth : Bool} {q : ℚ} : ¬ Spells (toString truth).toList q := by
  rintro ⟨numeral, reads, -⟩
  have none : read (toString truth).toList = none := by
    cases truth with
    | true => rfl
    | false => rfl
  rw [none] at reads
  cases reads

theorem null_ne_bool {truth : Bool} : ['n', 'u', 'l', 'l'] ≠ (toString truth).toList := by
  cases truth with
  | true => decide
  | false => decide

theorem bool_injective {a b : Bool} (same : (toString a).toList = (toString b).toList) : a = b := by
  cases a <;> cases b <;> first | rfl | exact absurd same (by decide)

theorem Spells.unique {text : List Char} {p q : ℚ} (left : Spells text p) (right : Spells text q) : p = q := by
  obtain ⟨numeral, reads, rfl⟩ := left
  obtain ⟨numeral', reads', rfl⟩ := right
  rw [reads] at reads'
  cases reads'
  rfl

variable {value : List Char → ℚ}

mutual
theorem wired_same : ∀ (a b : JsonElement) (s t : JsonText), Wired value a s → Wired value b t → s = t → Same value a b
  | .null, b, s, t, wiredA, wiredB, same => by
      cases wiredA
      cases wiredB with
      | null => exact .null
      | bool truth => exact absurd (JsonText.word.inj same) null_ne_bool
      | number spelled => exact absurd (JsonText.word.inj same ▸ spelled) unspelled_null
      | string text => cases same
      | array elements => cases same
      | object order names elements => cases same
  | .bool truth, b, s, t, wiredA, wiredB, same => by
      cases wiredA
      cases wiredB with
      | null => exact absurd (JsonText.word.inj same).symm null_ne_bool
      | bool other =>
          rw [bool_injective (JsonText.word.inj same)]
          exact .bool other
      | number spelled => exact absurd (JsonText.word.inj same ▸ spelled) unspelled_bool
      | string text => cases same
      | array elements => cases same
      | object order names elements => cases same
  | .number literal, b, s, t, wiredA, wiredB, same => by
      cases wiredA with
      | number spelled =>
          cases wiredB with
          | null => exact absurd (JsonText.word.inj same ▸ spelled) unspelled_null
          | bool truth => exact absurd (JsonText.word.inj same ▸ spelled) unspelled_bool
          | number other => exact .number (Spells.unique (JsonText.word.inj same ▸ spelled) other)
          | string text => cases same
          | array elements => cases same
          | object order names elements => cases same
  | .string text, b, s, t, wiredA, wiredB, same => by
      cases wiredA
      cases wiredB with
      | string other =>
          cases same
          exact .string text
      | null => cases same
      | bool truth => cases same
      | number spelled => cases same
      | array elements => cases same
      | object order names elements => cases same
  | .array values, b, s, t, wiredA, wiredB, same => by
      cases wiredA with
      | array left =>
          cases wiredB with
          | array right =>
              cases same
              exact .array (wired_same_values values _ _ left right)
          | null => cases same
          | bool truth => cases same
          | number spelled => cases same
          | string text => cases same
          | object order names elements => cases same
  | .object members, b, s, t, wiredA, wiredB, same => by
      cases wiredA with
      | object orderA namesA left =>
          cases wiredB with
          | @object others texts ordered orderB namesB right =>
              cases same
              have entries := entries_split.mpr ⟨namesB, right⟩
              obtain ⟨arranged, each, order⟩ := List.perm_comp_forall₂ (orderA.trans orderB.symm) entries.flip
              obtain ⟨named, elements⟩ := entries_split.mp
                (wired_same_members members arranged _ (entries_split.mpr ⟨namesA, left⟩) each.flip)
              exact .object order named elements
          | null => cases same
          | bool truth => cases same
          | number spelled => cases same
          | string text => cases same
          | array elements => cases same
termination_by a => sizeOf a

theorem wired_same_values : ∀ (as bs : List JsonElement) (texts : List JsonText),
    List.Forall₂ (Wired value) as texts → List.Forall₂ (Wired value) bs texts → List.Forall₂ (Same value) as bs
  | [], bs, texts, wiredA, wiredB => by
      cases wiredA
      cases wiredB
      exact .nil
  | a :: as, bs, texts, wiredA, wiredB => by
      cases wiredA with
      | cons first rest =>
          cases wiredB with
          | cons other others => exact .cons (wired_same a _ _ _ first other rfl) (wired_same_values as _ _ rest others)
termination_by as => sizeOf as

theorem wired_same_members : ∀ (as bs : List (String × JsonElement)) (texts : List (String × JsonText)),
    List.Forall₂ (fun member text => member.1 = text.1 ∧ Wired value member.2 text.2) as texts →
    List.Forall₂ (fun member text => member.1 = text.1 ∧ Wired value member.2 text.2) bs texts →
    List.Forall₂ (fun a b => a.1 = b.1 ∧ Same value a.2 b.2) as bs
  | [], bs, texts, wiredA, wiredB => by
      cases wiredA
      cases wiredB
      exact .nil
  | (name, a) :: as, bs, texts, wiredA, wiredB => by
      cases wiredA with
      | cons first rest =>
          cases wiredB with
          | cons other others =>
              exact .cons ⟨first.1.trans other.1.symm, wired_same a _ _ _ first.2 other.2 rfl⟩
                (wired_same_members as _ _ rest others)
termination_by as => sizeOf as
end

theorem power_plain {tail : List Char} {exponent : Int} (reads : power tail = some exponent) : Plain tail := by
  have unsigned {digits : List Char} {n : Int} (ok : (Numeral.unsignedInteger digits).map (fun m : Nat => (m : Int)) = some n) :
      Plain digits := by
    obtain ⟨m, ok, -⟩ := Option.map_eq_some_iff.mp ok
    unfold Numeral.unsignedInteger at ok
    split at ok
    · rename_i all
      exact fun c member => (isDigit_plain (all.2 c member)).1
    · cases ok
  cases tail with
  | nil => exact .nil
  | cons mark text =>
      by_cases marks : mark = 'e' ∨ mark = 'E'
      · rw [Numeral.power_marked marks] at reads
        refine .cons (by rcases marks with rfl | rfl <;> rfl) ?_
        unfold Numeral.integer at reads
        split at reads
        · obtain ⟨m, ok, -⟩ := Option.map_eq_some_iff.mp reads
          exact .cons rfl (unsigned (n := m) (by rw [ok]; rfl))
        · exact .cons rfl (unsigned reads)
        · exact unsigned reads
      · rw [power, if_neg marks] at reads
        cases reads

/-- A number is a word. -/
theorem Spells.worded {text : List Char} {q : ℚ} (spelled : Spells text q) : Worded (.word text) := by
  obtain ⟨numeral, reads, -⟩ := spelled
  unfold Numeral.read at reads
  have body : (Numeral.signed text).2 ≠ [] ∧ Plain (Numeral.signed text).2 := by
    dsimp only at reads
    generalize (Numeral.signed text).2 = body at reads
    have front : Plain (body.takeWhile Char.isDigit) := fun c member => (isDigit_plain (List.mem_takeWhile_imp member)).1
    split at reads
    · cases reads
    · rename_i some
      refine ⟨fun empty => some (by rw [empty]; rfl), ?_⟩
      rw [← List.takeWhile_append_dropWhile (p := Char.isDigit) (l := body)]
      refine front.append ?_
      split at reads
      · rename_i more after
        split at reads
        · cases reads
        · obtain ⟨exponent, ok, -⟩ := Option.map_eq_some_iff.mp reads
          rw [after, ← List.takeWhile_append_dropWhile (p := Char.isDigit) (l := more)]
          exact .cons rfl (.append (fun c member => (isDigit_plain (List.mem_takeWhile_imp member)).1) (power_plain ok))
      · obtain ⟨exponent, ok, -⟩ := Option.map_eq_some_iff.mp reads
        exact power_plain ok
  unfold Numeral.signed at body
  split at body
  · exact worded_of_plain (by simp) (.cons rfl body.2)
  · exact worded_of_plain body.1 body.2

mutual
theorem wired_worded : ∀ (a : JsonElement) (text : JsonText), Wired value a text → Worded text
  | .null, text, wired => by
      cases wired
      exact .word (by decide)
  | .bool truth, text, wired => by
      cases wired
      exact worded_bool truth
  | .number literal, text, wired => by
      cases wired with
      | number spelled => exact spelled.worded
  | .string content, text, wired => by
      cases wired
      exact .string content
  | .array values, text, wired => by
      cases wired with
      | array elements => exact .array (wired_worded_values values _ elements)
  | .object members, text, wired => by
      cases wired with
      | object order names elements =>
          refine .object fun entry member => ?_
          exact wired_worded_members members _ (entries_split.mpr ⟨names, elements⟩) entry (order.mem_iff.mpr member)
termination_by a => sizeOf a

theorem wired_worded_values : ∀ (values : List JsonElement) (texts : List JsonText),
    List.Forall₂ (Wired value) values texts → ∀ text ∈ texts, Worded text
  | [], texts, wired => by
      cases wired
      simp
  | a :: as, texts, wired => by
      cases wired with
      | cons first rest => exact List.forall_mem_cons.mpr ⟨wired_worded a _ first, wired_worded_values as _ rest⟩
termination_by values => sizeOf values

theorem wired_worded_members : ∀ (members : List (String × JsonElement)) (texts : List (String × JsonText)),
    List.Forall₂ (fun member text => member.1 = text.1 ∧ Wired value member.2 text.2) members texts →
    ∀ entry ∈ texts, Worded entry.2
  | [], texts, wired => by
      cases wired
      simp
  | (name, a) :: as, texts, wired => by
      cases wired with
      | cons first rest => exact List.forall_mem_cons.mpr ⟨wired_worded a _ first.2, wired_worded_members as _ rest⟩
termination_by members => sizeOf members
end

end

def one : JsonElement := .number { text := ['1'], spelled := rfl }

end AppPilotKit.Semantic.Android
