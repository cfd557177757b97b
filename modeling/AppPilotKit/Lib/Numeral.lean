import Mathlib

/-! # Decimal numerals

How the text of a number is read: a sign, digits, perhaps a fraction, perhaps an exponent.
A numeral stands for a rational number exactly.
-/

structure Numeral where
  negative : Bool
  whole : List Char
  fraction : List Char
  exponent : Int

namespace Numeral

def value (numeral : Numeral) : ℚ :=
  (if numeral.negative then -1 else 1) * Nat.ofDigitChars 10 (numeral.whole ++ numeral.fraction) 0 *
    10 ^ (numeral.exponent - numeral.fraction.length)

def signed : List Char → Bool × List Char
  | '-' :: body => (true, body)
  | body => (false, body)

/-- Digits, at least one. -/
def Digits (text : List Char) : Prop := text ≠ [] ∧ ∀ c ∈ text, c.isDigit = true

instance (text : List Char) : Decidable (Digits text) :=
  decidable_of_iff (text.isEmpty = false ∧ text.all Char.isDigit = true) (by simp [Digits])

/-- `-?[0-9]+`. -/
def IsInteger (raw : List Char) : Prop := Digits (signed raw).2

instance (raw : List Char) : Decidable (IsInteger raw) := inferInstanceAs (Decidable (Digits _))

def unsignedInteger (text : List Char) : Option Nat :=
  if Digits text then some (Nat.ofDigitChars 10 text 0) else none

def integer : List Char → Option Int
  | '-' :: digits => (unsignedInteger digits).map fun n : Nat => -(n : Int)
  | '+' :: digits => (unsignedInteger digits).map fun n : Nat => (n : Int)
  | digits => (unsignedInteger digits).map fun n : Nat => (n : Int)

/-- What follows the digits: nothing, or an exponent. -/
def power : List Char → Option Int
  | [] => some 0
  | mark :: exponent => if mark = 'e' ∨ mark = 'E' then integer exponent else none

def read (raw : List Char) : Option Numeral :=
  let (negative, body) := signed raw
  let whole := body.takeWhile Char.isDigit
  if whole = [] then none
  else
    match body.dropWhile Char.isDigit with
    | '.' :: more =>
        let fraction := more.takeWhile Char.isDigit
        if fraction = [] then none
        else (power (more.dropWhile Char.isDigit)).map fun exponent => { negative, whole, fraction, exponent }
    | more => (power more).map fun exponent => { negative, whole, fraction := [], exponent }

/-! ## Writing -/

def sign (negative : Bool) : List Char := if negative then ['-'] else []

def point (fraction : List Char) : List Char := if fraction = [] then [] else '.' :: fraction

theorem digit_apart {c d : Char} (isDigit : c.isDigit = true) (other : d.isDigit = false) : c ≠ d := by
  rintro rfl
  rw [isDigit] at other
  cases other

theorem Digits.head {text : List Char} (digits : Digits text) : ∃ c cs, text = c :: cs ∧ c.isDigit = true := by
  obtain ⟨c, cs, rfl⟩ := List.exists_cons_of_ne_nil digits.1
  exact ⟨c, cs, rfl, digits.2 c List.mem_cons_self⟩

theorem Digits.append {a b : List Char} (digits : Digits a) (more : ∀ c ∈ b, c.isDigit = true) : Digits (a ++ b) := by
  refine ⟨fun empty => digits.1 (List.append_eq_nil_iff.mp empty).1, fun c member => ?_⟩
  rcases List.mem_append.mp member with inside | inside
  · exact digits.2 c inside
  · exact more c inside

theorem digits_toDigits (n : Nat) : Digits (Nat.toDigits 10 n) :=
  ⟨Nat.toDigits_ne_nil, fun _ member => Nat.isDigit_of_mem_toDigits (by decide) (by decide) member⟩

/-- No digit comes first. -/
def Ended (tail : List Char) : Prop := ∀ c ∈ tail.head?, c.isDigit = false

theorem takeWhile_digits {text tail : List Char} (digits : ∀ c ∈ text, c.isDigit = true) (ended : Ended tail) :
    (text ++ tail).takeWhile Char.isDigit = text ∧ (text ++ tail).dropWhile Char.isDigit = tail := by
  have stop : tail.takeWhile Char.isDigit = [] ∧ tail.dropWhile Char.isDigit = tail := by
    cases tail with
    | nil => exact ⟨rfl, rfl⟩
    | cons c cs => simp [ended c rfl]
  rw [List.takeWhile_append_of_pos digits, List.dropWhile_append_of_pos digits, stop.1, stop.2, List.append_nil]
  exact ⟨rfl, rfl⟩

theorem power_marked {mark : Char} (marks : mark = 'e' ∨ mark = 'E') (exponent : List Char) :
    power (mark :: exponent) = integer exponent := by
  rw [power, if_pos marks]

theorem integer_plus (n : Nat) : integer ('+' :: Nat.toDigits 10 n) = some n := by
  rw [integer, unsignedInteger, if_pos (digits_toDigits n), Nat.ofDigitChars_ten_toDigits]
  rfl

theorem power_ended {tail : List Char} {exponent : Int} (reads : power tail = some exponent) :
    Ended tail ∧ tail.head? ≠ some '.' := by
  cases tail with
  | nil => exact ⟨by simp [Ended], by simp⟩
  | cons mark text =>
      rw [power] at reads
      split at reads
      · rename_i marks
        rcases marks with rfl | rfl
        · exact ⟨by simp [Ended], by simp⟩
        · exact ⟨by simp [Ended], by simp⟩
      · cases reads

theorem signed_sign (negative : Bool) {whole : List Char} (digits : Digits whole) (tail : List Char) :
    signed (sign negative ++ (whole ++ tail)) = (negative, whole ++ tail) := by
  obtain ⟨c, cs, rfl, first⟩ := digits.head
  cases negative with
  | true => rfl
  | false =>
      have other : c ≠ '-' := digit_apart first (by decide)
      change signed (c :: (cs ++ tail)) = _
      unfold signed
      split
      · rename_i same
        cases same
        exact absurd rfl other
      · rfl

theorem read_spelled (negative : Bool) {whole fraction tail : List Char} {exponent : Int} (digits : Digits whole)
    (more : ∀ c ∈ fraction, c.isDigit = true) (reads : power tail = some exponent) :
    read (sign negative ++ (whole ++ (point fraction ++ tail))) = some { negative, whole, fraction, exponent } := by
  obtain ⟨ended, noPoint⟩ := power_ended reads
  have pointed : Ended (point fraction ++ tail) := by
    unfold point
    split
    · exact ended
    · simp [Ended]
  obtain ⟨before, after⟩ := takeWhile_digits digits.2 pointed
  unfold read
  rw [signed_sign negative digits]
  dsimp only
  rw [before, after, if_neg digits.1]
  by_cases empty : fraction = []
  · subst empty
    have bare : point [] ++ tail = tail := rfl
    rw [bare]
    split
    · rename_i more
      exact absurd rfl noPoint
    · rw [reads]
      rfl
  · have pointed : point fraction ++ tail = '.' :: (fraction ++ tail) := by
      rw [point, if_neg empty]
      rfl
    obtain ⟨inside, behind⟩ := takeWhile_digits more ended
    rw [pointed]
    simp only [inside, behind, if_neg empty, reads]
    rfl

theorem isInteger_spelled (negative : Bool) {whole fraction tail : List Char} {exponent : Int} (digits : Digits whole)
    (reads : power tail = some exponent) :
    IsInteger (sign negative ++ (whole ++ (point fraction ++ tail))) ↔ fraction = [] ∧ tail = [] := by
  unfold IsInteger
  rw [signed_sign negative digits]
  constructor
  · rintro ⟨-, all⟩
    have none : point fraction ++ tail = [] := by
      by_contra some
      obtain ⟨c, cs, split⟩ := List.exists_cons_of_ne_nil some
      have digit : c.isDigit = true := all c (by simp [split])
      have ended : Ended (point fraction ++ tail) := by
        unfold point
        split
        · exact (power_ended reads).1
        · simp [Ended]
      rw [ended c (by simp [split])] at digit
      cases digit
    obtain ⟨pointed, bare⟩ := List.append_eq_nil_iff.mp none
    unfold point at pointed
    split at pointed
    · rename_i empty
      exact ⟨empty, bare⟩
    · cases pointed
  · rintro ⟨rfl, rfl⟩
    simpa [point] using digits

theorem integer_read {raw : List Char} (integer : IsInteger raw) :
    read raw = some { negative := (signed raw).1, whole := (signed raw).2, fraction := [], exponent := 0 } := by
  have spelled : raw = sign (signed raw).1 ++ ((signed raw).2 ++ (point [] ++ [])) := by
    unfold signed sign point
    split <;> simp
  conv_lhs => rw [spelled]
  exact read_spelled _ integer (by simp) rfl

theorem integer_toString (n : Int) : integer (toString n).toList = some n := by
  have unsigned (m : Nat) : unsignedInteger (Nat.toDigits 10 m) = some m := by
    rw [unsignedInteger, if_pos (digits_toDigits m), Nat.ofDigitChars_ten_toDigits]
  rw [Int.toString_eq_repr]
  cases n with
  | ofNat m =>
      obtain ⟨c, cs, split, first⟩ := (digits_toDigits m).head
      rw [Int.repr, Nat.toList_repr]
      have noMinus : c ≠ '-' := digit_apart first (by decide)
      have noPlus : c ≠ '+' := digit_apart first (by decide)
      have read := unsigned m
      rw [split] at read ⊢
      unfold integer
      split
      · rename_i same
        cases same
        exact absurd rfl noMinus
      · rename_i same
        cases same
        exact absurd rfl noPlus
      · rw [read]
        rfl
  | negSucc m =>
      rw [Int.repr, String.toList_append, Nat.toList_repr]
      have minus : "-".toList ++ Nat.toDigits 10 m.succ = '-' :: Nat.toDigits 10 m.succ := by simp
      rw [minus, integer, unsigned]
      rfl

end Numeral
