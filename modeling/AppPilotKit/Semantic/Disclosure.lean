import AppPilotKit.Semantic.CanonicalAgreement

/-! # The byte count of a disclosed value

A Target sends the value of a resource with the size of its canonical text. The command
line counts the bytes again from the value it parses, and takes numbers as `f64` for it.
-/

namespace AppPilotKit.Semantic

open Snapshot (JSONValue)
open Binary64 (Decimal HasDigits nearest shortest)

/-! ## Counting on the command line -/

/-- `to_string` of an `f64`: the shortest digits without an exponent. -/
def fixedNotation (decimal : Decimal) : List Char :=
  let digits := digitsOf decimal.digits
  let point := digits.length + decimal.exponent
  if 0 ≤ decimal.exponent then digits ++ zeros decimal.exponent.toNat
  else if point ≤ 0 then ['0', '.'] ++ zeros (-point).toNat ++ digits
  else digits.take point.toNat ++ '.' :: digits.drop point.toNat

/-- `trim_end_matches('0')`. -/
def trimZeros (text : List Char) : List Char := (text.reverse.dropWhile (· = '0')).reverse

def coefficient (digits : List Char) : List Char :=
  if digits.length = 1 then digits else digits.take 1 ++ '.' :: digits.drop 1

/-- `js_number_string`. -/
def jsNumberString (value : ℚ) : List Char :=
  if value = 0 then ['0']
  else
    let absolute := |value|
    let fixed := fixedNotation (shortest absolute)
    let formatted :=
      if 10 ^ 21 ≤ absolute then coefficient (trimZeros fixed) ++ ['e', '+'] ++ digitsOf (fixed.length - 1)
      else if absolute < nearest (1 / 10 ^ 6) then
        let fractional := fixed.drop 2
        let first := (fractional.takeWhile (· = '0')).length
        coefficient (trimZeros (fractional.drop first)) ++ ['e', '-'] ++ digitsOf (first + 1)
      else fixed
    if value < 0 then '-' :: formatted else formatted

def utf8Length (text : List Char) : Nat := (text.map Char.utf8Size).sum

mutual
/-- `json_stringify_len`, with `as_f64` for the numbers. -/
def jsonStringifyLen : Json → Nat
  | .null => 4
  | .bool true => 4
  | .bool false => 5
  | .integer literal => utf8Length (jsNumberString (nearest literal.value))
  | .string value => utf8Length (JsonText.quoted value)
  | .array values => 2 + valuesLen values + (values.length - 1)
  | .object members => 2 + membersLen members + (members.length - 1)

def valuesLen : List Json → Nat
  | [] => 0
  | value :: values => jsonStringifyLen value + valuesLen values

def membersLen : List (String × Json) → Nat
  | [] => 0
  | (name, value) :: members => utf8Length (JsonText.quoted name) + 1 + jsonStringifyLen value + membersLen members
end

/-! ## Sizes of texts -/

theorem utf8Length_append (a b : List Char) : utf8Length (a ++ b) = utf8Length a + utf8Length b := by
  simp [utf8Length]

theorem utf8Length_cons (c : Char) (cs : List Char) : utf8Length (c :: cs) = c.utf8Size + utf8Length cs := by
  simp [utf8Length]

theorem bytes_size (text : JsonText) : (bytes text).size = utf8Length text.characters := by
  unfold bytes
  rw [String.size_toByteArray]
  induction text.characters with
  | nil => rfl
  | cons c cs ih =>
      rw [String.ofList_cons, String.utf8ByteSize_append, String.utf8ByteSize_singleton, ih, utf8Length_cons]

/-- Characters of one byte. -/
theorem utf8Length_ascii {text : List Char} (ascii : ∀ c ∈ text, c.utf8Size = 1) : utf8Length text = text.length := by
  induction text with
  | nil => rfl
  | cons c cs ih =>
      obtain ⟨first, rest⟩ := List.forall_mem_cons.mp ascii
      rw [utf8Length_cons, first, ih rest, List.length_cons, Nat.add_comm]

theorem size_array (values : List JsonText) :
    utf8Length (JsonText.array values).characters =
      2 + (values.map fun value => utf8Length value.characters).sum + (values.length - 1) := by
  have more : ∀ values : List JsonText, utf8Length (JsonText.moreValues values) =
      1 + (values.map fun value => utf8Length value.characters).sum + values.length := by
    intro values
    induction values with
    | nil => rfl
    | cons value values ih =>
        rw [JsonText.moreValues, utf8Length_cons, utf8Length_append, ih, List.map_cons, List.sum_cons, List.length_cons,
          show (',' : Char).utf8Size = 1 from rfl]
        omega
  cases values with
  | nil => rfl
  | cons value values =>
      rw [JsonText.characters, utf8Length_cons, utf8Length_append, more, List.map_cons, List.sum_cons, List.length_cons,
        show ('[' : Char).utf8Size = 1 from rfl]
      omega

theorem size_object (members : List (String × JsonText)) :
    utf8Length (JsonText.object members).characters =
      2 + (members.map fun entry => utf8Length (JsonText.quoted entry.1) + 1 + utf8Length entry.2.characters).sum +
        (members.length - 1) := by
  have more : ∀ members : List (String × JsonText), utf8Length (JsonText.moreMembers members) =
      1 + (members.map fun entry => utf8Length (JsonText.quoted entry.1) + 1 + utf8Length entry.2.characters).sum +
        members.length := by
    intro members
    induction members with
    | nil => rfl
    | cons entry members ih =>
        obtain ⟨name, value⟩ := entry
        rw [JsonText.moreMembers, utf8Length_cons, utf8Length_append, utf8Length_cons, utf8Length_append, ih, List.map_cons,
          List.sum_cons, List.length_cons, show (',' : Char).utf8Size = 1 from rfl, show (':' : Char).utf8Size = 1 from rfl]
        dsimp only
        omega
  cases members with
  | nil => rfl
  | cons entry members =>
      obtain ⟨name, value⟩ := entry
      rw [JsonText.characters, utf8Length_cons, utf8Length_append, utf8Length_cons, utf8Length_append, more, List.map_cons,
        List.sum_cons, List.length_cons, show ('\x7b' : Char).utf8Size = 1 from rfl, show (':' : Char).utf8Size = 1 from rfl]
      dsimp only
      omega

/-! ## Integers -/

theorem hasDigits_digitsOf {n : Nat} (positive : 0 < n) : HasDigits n (digitsOf n).length := by
  have some : 0 < (digitsOf n).length := List.length_pos_iff.mpr (digitsOf_spec n).1
  have length : (digitsOf n).length = n.repr.length := by
    unfold digitsOf
    rw [Nat.toString_eq_repr, String.length_toList]
  refine ⟨?_, ?_, some⟩
  · by_cases single : (digitsOf n).length = 1
    · rw [single]
      exact positive
    · by_contra less
      have := (Nat.length_repr_le_iff (n := n) (k := (digitsOf n).length - 1) (by omega)).mpr (Nat.lt_of_not_le less)
      omega
  · exact (Nat.length_repr_le_iff some).mp length.ge

theorem hasDigits_unique {n j k : Nat} (first : HasDigits n j) (second : HasDigits n k) : j = k := by
  have := first.log
  have := second.log
  omega

theorem length_zeros (count : Nat) : (zeros count).length = count := by
  simp [zeros]

/-- An integer of `k` digits is written with `k` characters. -/
theorem fixedNotation_length {decimal : Decimal} {k : Nat} (fixed : Binary64.Fixed decimal k) :
    (fixedNotation decimal).length = k ∧ ∀ c ∈ fixedNotation decimal, c.isDigit = true := by
  obtain ⟨count, le, digits, exponent⟩ := fixed
  have positive : 0 < decimal.digits := lt_of_lt_of_le (by positivity) digits.1
  have length := hasDigits_unique (hasDigits_digitsOf positive) digits
  unfold fixedNotation
  dsimp only
  rw [exponent, if_pos (by omega), Int.toNat_natCast]
  refine ⟨?_, fun c member => ?_⟩
  · rw [List.length_append, length_zeros, length]
    omega
  · rcases List.mem_append.mp member with inside | inside
    · exact (digitsOf_spec _).2 c inside
    · rw [List.eq_of_mem_replicate inside]
      rfl

/-- Just below a power of ten from `10 ^ 16` on, where the nearest `f64` is that power. -/
def Carried (n : Int) : Prop :=
  (10 ^ 16 - 1 ≤ n.natAbs ∧ n.natAbs < 10 ^ 16) ∨ (10 ^ 17 - 8 ≤ n.natAbs ∧ n.natAbs < 10 ^ 17) ∨
    (10 ^ 18 - 64 ≤ n.natAbs ∧ n.natAbs < 10 ^ 18) ∨ (10 ^ 19 - 1024 ≤ n.natAbs ∧ n.natAbs < 10 ^ 19)

instance : DecidablePred Carried := fun _ => inferInstanceAs (Decidable (_ ∨ _))

/-- From halfway below `10 ^ k` on, and only from there, the nearest is `10 ^ k`. -/
theorem nearest_power {m e k n : Nat} (low : 2 ^ 52 ≤ m) (high : m < 2 ^ 53) (odd : m % 2 = 1)
    (power : (m + 1) * 2 ^ (e + 1) = 10 ^ k) (small : k ≤ 22) (positive : 0 < n) (less : n < 10 ^ k) :
    nearest (n : ℚ) = ((10 ^ k : ℕ) : ℚ) ↔ (2 * m + 1) * 2 ^ e ≤ n := by
  have casted : (0 : ℚ) < n := by exact_mod_cast positive
  have halfway := Binary64.nearest_halfway (e := e) low high odd
  rw [power] at halfway
  constructor
  · intro carried
    by_contra below
    have smaller : (n : ℚ) ≤ (((2 * m + 1) * 2 ^ e : ℕ) : ℚ) := by exact_mod_cast (Nat.lt_of_not_le below).le
    have place := Binary64.lastPlace_mono casted smaller
    rw [Binary64.lastPlace_halfway low high] at place
    have unit : (2 : ℚ) ^ Binary64.lastPlace n ≤ 2 ^ (e + 1) := by
      rw [← zpow_natCast]
      exact zpow_le_zpow_right₀ (by norm_num) place
    have error := (abs_le.mp (Binary64.nearest_error n)).2
    rw [carried] at error
    have close : ((10 ^ k : ℕ) : ℚ) ≤ ((n + 2 ^ e : ℕ) : ℚ) := by
      rw [pow_succ] at unit
      push_cast
      push_cast at error
      linarith
    have close : 10 ^ k ≤ n + 2 ^ e := by exact_mod_cast close
    rw [← power, pow_succ] at close
    have : (2 * m + 1) * 2 ^ e + 2 ^ e = (m + 1) * (2 ^ e * 2) := by ring
    omega
  · intro above
    refine le_antisymm ?_ ?_
    · rw [← Binary64.nearest_ten_pow small]
      exact Binary64.nearest_mono casted (by exact_mod_cast less.le)
    · rw [← halfway]
      exact Binary64.nearest_mono (by positivity) (by exact_mod_cast above)

/-- The nearest `f64` of an integer of `k` digits is `10 ^ k` just below a few powers only. -/
theorem nearest_carries {n k : Nat} (digits : HasDigits n k) (small : n ≤ 2 ^ 64) :
    nearest (n : ℚ) = ((10 ^ k : ℕ) : ℚ) ↔ Carried n := by
  obtain ⟨least, less, some⟩ := digits
  have positive : 0 < n := lt_of_lt_of_le (by positivity) least
  unfold Carried
  rw [Int.natAbs_natCast]
  rcases Nat.lt_or_ge k 16 with short | long
  · -- small integers are exact
    have bound : n < 10 ^ 15 := less.trans_le (Nat.pow_le_pow_right (by norm_num) (by omega))
    have exact : nearest (n : ℚ) = n := by
      simpa using Binary64.nearest_exact_of_lt (m := n) (e := 0) (by omega) (by norm_num)
    rw [exact]
    constructor
    · intro same
      have : n = 10 ^ k := by exact_mod_cast same
      omega
    · omega
  · have top : k ≤ 20 := by
      by_contra more
      have : 10 ^ 20 ≤ n := (Nat.pow_le_pow_right (by norm_num) (by omega)).trans least
      omega
    interval_cases k
    · rw [nearest_power (m := 4999999999999999) (e := 0) (by norm_num) (by norm_num) (by norm_num) (by norm_num) (by norm_num)
        positive less]
      omega
    · rw [nearest_power (m := 6249999999999999) (e := 3) (by norm_num) (by norm_num) (by norm_num) (by norm_num) (by norm_num)
        positive less]
      omega
    · rw [nearest_power (m := 7812499999999999) (e := 6) (by norm_num) (by norm_num) (by norm_num) (by norm_num) (by norm_num)
        positive less]
      omega
    · rw [nearest_power (m := 4882812499999999) (e := 10) (by norm_num) (by norm_num) (by norm_num) (by norm_num) (by norm_num)
        positive less]
      omega
    · have exact : nearest ((2 ^ 64 : ℕ) : ℚ) = ((2 ^ 64 : ℕ) : ℚ) := by
        have one := Binary64.nearest_exact (m := 1) (e := 64) (by norm_num) (by norm_num)
        norm_num at one ⊢
        exact one
      have below : nearest (n : ℚ) ≤ ((2 ^ 64 : ℕ) : ℚ) := by
        rw [← exact]
        exact Binary64.nearest_mono (by exact_mod_cast positive) (by exact_mod_cast small)
      constructor
      · intro same
        rw [same] at below
        norm_num at below
      · omega

theorem isDigit_utf8Size {c : Char} (isDigit : c.isDigit = true) : c.utf8Size = 1 := by
  have bound : c.toNat ≤ 57 := by
    simp only [Char.isDigit, Bool.and_eq_true, decide_eq_true_eq] at isDigit
    exact isDigit.2
  rw [Char.utf8Size_eq_one_iff]
  exact bound.trans (by decide)

/-- The exact length of an integer: its sign and its digits. -/
theorem utf8Length_literal (literal : Literal) :
    utf8Length literal.text.toList = (if literal.negative then 1 else 0) + (digitsOf literal.magnitude).length := by
  unfold Literal.text
  rw [String.toList_append, utf8Length_append]
  congr 1
  · cases literal.negative <;> rfl
  · exact utf8Length_ascii fun c member => isDigit_utf8Size ((digitsOf_spec _).2 c member)

theorem fixed_nearest_length {n : Nat} (positive : 0 < n) (small : n ≤ 2 ^ 64) (q : Nat) (isNearest : nearest (n : ℚ) = q) :
    utf8Length (fixedNotation (shortest q)) = (digitsOf n).length + (if nearest (n : ℚ) = ((10 ^ (digitsOf n).length : ℕ) : ℚ)
      then 1 else 0) ∧ 0 < q ∧ q < 10 ^ 21 := by
  have digits := hasDigits_digitsOf positive
  have casted : (0 : ℚ) < n := by exact_mod_cast positive
  have most : (digitsOf n).length ≤ 20 := by
    by_contra more
    have : 10 ^ 20 ≤ n := (Nat.pow_le_pow_right (by norm_num) (by omega)).trans digits.1
    omega
  have own : nearest (q : ℚ) = q := by
    rw [← isNearest]
    exact Binary64.nearest_nearest casted
  have least : 10 ^ ((digitsOf n).length - 1) ≤ q := by
    have := Binary64.nearest_mono (a := ((10 ^ ((digitsOf n).length - 1) : ℕ) : ℚ)) (b := n) (by positivity)
      (by exact_mod_cast digits.1)
    rw [Binary64.nearest_ten_pow (by omega), isNearest] at this
    exact_mod_cast this
  have largest : q ≤ 10 ^ (digitsOf n).length := by
    have := Binary64.nearest_mono casted (b := ((10 ^ (digitsOf n).length : ℕ) : ℚ)) (by exact_mod_cast digits.2.1.le)
    rw [Binary64.nearest_ten_pow (by omega), isNearest] at this
    exact_mod_cast this
  have written {k : Nat} (has : HasDigits q k) (le : k ≤ 22) : utf8Length (fixedNotation (shortest q)) = k := by
    obtain ⟨length, isDigit⟩ := fixedNotation_length (Binary64.shortest_fixed has own le)
    rw [utf8Length_ascii fun c member => isDigit_utf8Size (isDigit c member), length]
  refine ⟨?_, lt_of_lt_of_le (by positivity) least, ?_⟩
  · rw [isNearest]
    split
    · rename_i carried
      have carried : q = 10 ^ (digitsOf n).length := by exact_mod_cast carried
      refine written ⟨?_, ?_, by omega⟩ (by omega)
      · rw [Nat.add_sub_cancel]
        exact carried.ge
      · rw [carried]
        exact Nat.pow_lt_pow_right (by norm_num) (by omega)
    · rename_i plain
      have plain : q ≠ 10 ^ (digitsOf n).length := fun same => plain (by exact_mod_cast same)
      exact written ⟨least, lt_of_le_of_ne largest plain, digits.2.2⟩ (by omega)
  · exact lt_of_le_of_lt largest (Nat.pow_lt_pow_right (by norm_num) (by omega))

theorem jsNumberString_plain {q : ℚ} (least : 1 ≤ q) (most : q < 10 ^ 21) :
    jsNumberString q = fixedNotation (shortest q) ∧ jsNumberString (-q) = '-' :: fixedNotation (shortest q) := by
  have absolute : |q| = q := abs_of_nonneg (by linarith)
  have some : q ≠ 0 := by linarith
  have tiny : ¬ q < nearest (1 / 10 ^ 6) := by
    have one : nearest 1 = 1 := by simpa using Binary64.nearest_exact (m := 1) (e := 0) (by norm_num) (by norm_num)
    have below := Binary64.nearest_mono (a := 1 / 10 ^ 6) (b := 1) (by norm_num) (by norm_num)
    linarith
  unfold jsNumberString
  rw [if_neg some, if_neg (neg_ne_zero.mpr some), abs_neg, absolute]
  dsimp only
  rw [if_neg (not_le.mpr most), if_neg tiny, if_neg (by linarith), if_pos (by linarith)]
  exact ⟨rfl, rfl⟩

/-- The command line counts one more byte for a carried integer. -/
theorem integer_len {literal : Literal} (range : literal.magnitude ≤ 2 ^ 64) :
    jsonStringifyLen (.integer literal) =
      utf8Length (canonicalNumber literal).text.toList + (if Carried literal.value then 1 else 0) := by
  have magnitude : literal.value.natAbs = literal.magnitude := by
    unfold Literal.value
    split <;> simp
  rw [jsonStringifyLen]
  by_cases zero : literal.magnitude = 0
  · have value : literal.value = 0 := by omega
    have plain : ¬ Carried 0 := by
      unfold Carried
      norm_num
    rw [value, if_neg plain]
    unfold canonicalNumber
    rw [if_pos zero]
    have nothing : nearest ((0 : ℤ) : ℚ) = 0 := by
      simpa using Binary64.nearest_of_multiple (q := 0) (n := 0) (by simp)
    rw [nothing]
    unfold jsNumberString
    rw [if_pos rfl]
    rfl
  · have positive : 0 < literal.magnitude := Nat.pos_of_ne_zero zero
    obtain ⟨q, isNearest⟩ := Binary64.nearest_natCast literal.magnitude
    obtain ⟨length, some, bound⟩ := fixed_nearest_length positive range q isNearest
    have carries : Carried literal.value ↔ nearest (literal.magnitude : ℚ) = ((10 ^ (digitsOf literal.magnitude).length : ℕ) : ℚ) := by
      rw [nearest_carries (hasDigits_digitsOf positive) range]
      unfold Carried
      rw [magnitude, Int.natAbs_natCast]
    have text : canonicalNumber literal = literal := by
      unfold canonicalNumber
      exact if_neg zero
    have least : (1 : ℚ) ≤ q := by exact_mod_cast some
    have most : (q : ℚ) < 10 ^ 21 := by exact_mod_cast bound
    have written : jsNumberString (nearest literal.value) =
        (if literal.negative then ['-'] else []) ++ fixedNotation (shortest q) := by
      obtain ⟨above, below⟩ := jsNumberString_plain least most
      unfold Literal.value
      cases literal.negative with
      | true =>
          have negated : nearest ((-(literal.magnitude : ℤ) : ℤ) : ℚ) = -(q : ℚ) := by
            rw [← isNearest, ← Binary64.nearest_neg]
            push_cast
            rfl
          simp only [if_true]
          rw [negated, below]
          rfl
      | false =>
          have same : nearest ((literal.magnitude : ℤ) : ℚ) = (q : ℚ) := by exact_mod_cast isNearest
          simp only [Bool.false_eq_true, if_false]
          rw [same, above]
          rfl
    rw [written, utf8Length_append, length, text, utf8Length_literal]
    have sign : utf8Length (if literal.negative = true then ['-'] else []) = if literal.negative = true then 1 else 0 := by
      cases literal.negative <;> rfl
    rw [sign]
    simp only [carries]
    omega

/-! ## Values -/

mutual
/-- The bytes of a value in a canonical text. -/
def exactLen : Json → Nat
  | .null => 4
  | .bool value => utf8Length (toString value).toList
  | .integer literal => utf8Length (canonicalNumber literal).text.toList
  | .string value => utf8Length (JsonText.quoted value)
  | .array values => 2 + exactValues values + (values.length - 1)
  | .object members => 2 + exactMembers members + (members.length - 1)

def exactValues : List Json → Nat
  | [] => 0
  | value :: values => exactLen value + exactValues values

def exactMembers : List (String × Json) → Nat
  | [] => 0
  | (name, value) :: members => utf8Length (JsonText.quoted name) + 1 + exactLen value + exactMembers members
end

/-- Every integer of the value is at most `2 ^ 64` in size. -/
def InRange : Json → Prop :=
  Json.Everywhere (fun literal => -(2 ^ 63) ≤ literal.value ∧ literal.value < 2 ^ 64) (fun _ => True)

/-- No integer of the value is just below a power of ten from `10 ^ 16` on. -/
def NoneCarried : Json → Prop := Json.Everywhere (fun literal => ¬ Carried literal.value) (fun _ => True)

theorem sum_eq_iff {α : Type} {l : List α} {f g : α → Nat} {P : α → Prop}
    (each : ∀ a ∈ l, f a ≤ g a ∧ (f a = g a ↔ P a)) :
    (l.map f).sum ≤ (l.map g).sum ∧ ((l.map f).sum = (l.map g).sum ↔ ∀ a ∈ l, P a) := by
  induction l with
  | nil => simp
  | cons a l ih =>
      obtain ⟨first, rest⟩ := List.forall_mem_cons.mp each
      obtain ⟨le, iff⟩ := ih rest
      rw [List.map_cons, List.map_cons, List.sum_cons, List.sum_cons, List.forall_mem_cons, ← first.2, ← iff]
      exact ⟨by omega, by omega⟩

theorem valuesLen_eq (values : List Json) : valuesLen values = (values.map jsonStringifyLen).sum := by
  induction values with
  | nil => rfl
  | cons value values ih => rw [valuesLen, ih, List.map_cons, List.sum_cons]

theorem exactValues_eq (values : List Json) : exactValues values = (values.map exactLen).sum := by
  induction values with
  | nil => rfl
  | cons value values ih => rw [exactValues, ih, List.map_cons, List.sum_cons]

theorem membersLen_eq (members : List (String × Json)) :
    membersLen members =
      (members.map fun entry => utf8Length (JsonText.quoted entry.1) + 1 + jsonStringifyLen entry.2).sum := by
  induction members with
  | nil => rfl
  | cons entry members ih => rw [membersLen, ih, List.map_cons, List.sum_cons]

theorem exactMembers_eq (members : List (String × Json)) :
    exactMembers members = (members.map fun entry => utf8Length (JsonText.quoted entry.1) + 1 + exactLen entry.2).sum := by
  induction members with
  | nil => rfl
  | cons entry members ih => rw [exactMembers, ih, List.map_cons, List.sum_cons]

/-- The command line counts as many bytes or more, and as many exactly when no integer is
    carried. -/
theorem exactLen_le {json : Json} (range : InRange json) :
    exactLen json ≤ jsonStringifyLen json ∧ (exactLen json = jsonStringifyLen json ↔ NoneCarried json) := by
  induction range with
  | null => exact ⟨le_rfl, fun _ => .null, fun _ => rfl⟩
  | bool value => cases value <;> exact ⟨le_rfl, fun _ => .bool _, fun _ => rfl⟩
  | string value => exact ⟨le_rfl, fun _ => .string value, fun _ => rfl⟩
  | integer inside =>
      rename_i literal
      have magnitude : literal.magnitude ≤ 2 ^ 64 := by
        unfold Literal.value at inside
        split at inside <;> omega
      unfold NoneCarried
      rw [Json.everywhere_integer, integer_len magnitude, exactLen]
      split
      · simp [*]
      · simp [*]
  | array _ ih =>
      unfold NoneCarried at ih ⊢
      obtain ⟨le, iff⟩ := sum_eq_iff ih
      rw [Json.everywhere_array, ← iff, exactLen, jsonStringifyLen, valuesLen_eq, exactValues_eq]
      exact ⟨by omega, by omega⟩
  | object _ _ ih =>
      rename_i members _ _
      unfold NoneCarried at ih ⊢
      have each : ∀ entry ∈ members,
          utf8Length (JsonText.quoted entry.1) + 1 + exactLen entry.2 ≤
              utf8Length (JsonText.quoted entry.1) + 1 + jsonStringifyLen entry.2 ∧
            (utf8Length (JsonText.quoted entry.1) + 1 + exactLen entry.2 =
              utf8Length (JsonText.quoted entry.1) + 1 + jsonStringifyLen entry.2 ↔ _) := fun entry member =>
        ⟨by have := (ih entry member).1; omega, Iff.trans (by omega) (ih entry member).2⟩
      obtain ⟨le, iff⟩ := sum_eq_iff each
      rw [Json.everywhere_object, exactLen, jsonStringifyLen, membersLen_eq, exactMembers_eq]
      simp only [true_and]
      rw [← iff]
      exact ⟨by omega, by omega⟩

/-! ## Android -/

mutual
theorem wireJson_len : ∀ json : Json, utf8Length (wireJson json).characters = exactLen json
  | .null | .bool _ | .integer _ | .string _ => rfl
  | .array values => by
      rw [wireJson, size_array, exactLen, ← wireValues_len values]
      have length : (wireValues values).length = values.length := by
        induction values with
        | nil => rfl
        | cons value values ih => rw [wireValues, List.length_cons, List.length_cons, ih]
      rw [length]
  | .object members => by
      rw [wireJson, size_object, exactLen, ← wireMembers_len members]
      have length : (wireMembers members).length = members.length := by
        induction members with
        | nil => rfl
        | cons entry members ih => rw [wireMembers, List.length_cons, List.length_cons, ih]
      rw [length]

theorem wireValues_len : ∀ values : List Json,
    ((wireValues values).map fun text => utf8Length text.characters).sum = exactValues values
  | [] => rfl
  | value :: values => by
      rw [wireValues, exactValues, List.map_cons, List.sum_cons, wireJson_len value, wireValues_len values]

theorem wireMembers_len : ∀ members : List (String × Json),
    ((wireMembers members).map fun entry => utf8Length (JsonText.quoted entry.1) + 1 + utf8Length entry.2.characters).sum =
      exactMembers members
  | [] => rfl
  | (name, value) :: members => by
      rw [wireMembers, exactMembers, List.map_cons, List.sum_cons, wireMembers_len members]
      dsimp only
      rw [wireJson_len value]
end

mutual
/-- Sorting members and dropping the sign of zero changes no integer. -/
theorem everywhere_canonicalize {P : Literal → Prop} (same : ∀ literal, P (canonicalNumber literal) ↔ P literal) :
    ∀ json : Json, Json.Everywhere P (fun _ => True) (canonicalize json) ↔ Json.Everywhere P (fun _ => True) json
  | .null => ⟨fun _ => .null, fun _ => .null⟩
  | .bool value => ⟨fun _ => .bool value, fun _ => .bool value⟩
  | .string value => ⟨fun _ => .string value, fun _ => .string value⟩
  | .integer literal => by
      rw [canonicalize, Json.everywhere_integer, Json.everywhere_integer]
      exact same literal
  | .array values => by
      rw [canonicalize, Json.everywhere_array, Json.everywhere_array]
      exact everywhere_canonicalizeValues same values
  | .object members => by
      rw [canonicalize, Json.everywhere_object, Json.everywhere_object]
      refine and_congr_right fun _ => Iff.trans ?_ (everywhere_canonicalizeMembers same members)
      exact forall_congr' fun entry => imp_congr_left (sortedEntries_perm _).mem_iff

theorem everywhere_canonicalizeValues {P : Literal → Prop} (same : ∀ literal, P (canonicalNumber literal) ↔ P literal) :
    ∀ values : List Json, (∀ value ∈ canonicalizeValues values, Json.Everywhere P (fun _ => True) value) ↔
      ∀ value ∈ values, Json.Everywhere P (fun _ => True) value
  | [] => Iff.rfl
  | value :: values => by
      rw [canonicalizeValues, List.forall_mem_cons, List.forall_mem_cons, everywhere_canonicalize same value,
        everywhere_canonicalizeValues same values]

theorem everywhere_canonicalizeMembers {P : Literal → Prop} (same : ∀ literal, P (canonicalNumber literal) ↔ P literal) :
    ∀ members : List (String × Json),
      (∀ entry ∈ canonicalizeMembers members, Json.Everywhere P (fun _ => True) entry.2) ↔
        ∀ entry ∈ members, Json.Everywhere P (fun _ => True) entry.2
  | [] => Iff.rfl
  | (name, value) :: members => by
      rw [canonicalizeMembers, List.forall_mem_cons, List.forall_mem_cons, everywhere_canonicalizeMembers same members]
      exact and_congr_left fun _ => everywhere_canonicalize same value
end

theorem value_canonicalNumber (literal : Literal) : (canonicalNumber literal).value = literal.value := by
  unfold canonicalNumber
  split
  · rename_i zero
    obtain ⟨negative, magnitude⟩ := literal
    cases zero
    cases negative <;> rfl
  · rfl

theorem android_len {json : Json} (range : InRange json) :
    (bytes (wireJson (canonicalize json))).size = jsonStringifyLen (canonicalize json) ↔ NoneCarried json := by
  have inside : InRange (canonicalize json) := by
    refine (everywhere_canonicalize (fun literal => ?_) json).mpr range
    rw [value_canonicalNumber]
  have carried : NoneCarried (canonicalize json) ↔ NoneCarried json :=
    everywhere_canonicalize (fun literal => by rw [value_canonicalNumber]) json
  rw [bytes_size, wireJson_len, (exactLen_le inside).2, carried]

/-! ## iOS -/

mutual
/-- The document that `JSONEncoder` writes of a value without floating-point numbers. -/
def encoded : JSONValue → Option Json
  | .null => some .null
  | .bool value => some (.bool value)
  | .integer value =>
      if -(2 ^ 63) ≤ value ∧ value < 2 ^ 63 then some (.integer { negative := decide (value < 0), magnitude := value.natAbs })
      else none
  | .unsignedInteger value => if value < 2 ^ 64 then some (.integer { magnitude := value }) else none
  | .number _ => none
  | .string value => some (.string value)
  | .array values => (encodedValues values).map .array
  | .object fields => (encodedFields fields).map .object

def encodedValues : List JSONValue → Option (List Json)
  | [] => some []
  | value :: values => do
      let json ← encoded value
      let rest ← encodedValues values
      return json :: rest

def encodedFields : List (String × JSONValue) → Option (List (String × Json))
  | [] => some []
  | (name, value) :: fields => do
      let json ← encoded value
      let rest ← encodedFields fields
      return (name, json) :: rest
end

section
variable {unicode : Normalization}

mutual
theorem encoded_len : ∀ (value : JSONValue) (json : Json) (text : JsonText), encoded value = some json →
    canonicalText unicode value = .ok text → utf8Length text.characters = exactLen json ∧ InRange json
  | .null, json, text, isJson, ok => by
      cases isJson
      cases ok
      exact ⟨rfl, .null⟩
  | .bool value, json, text, isJson, ok => by
      cases isJson
      cases ok
      exact ⟨rfl, .bool value⟩
  | .integer value, json, text, isJson, ok => by
      cases ok
      rw [encoded] at isJson
      split at isJson
      · rename_i range
        cases isJson
        have same : Literal.value { negative := decide (value < 0), magnitude := value.natAbs } = value := by
          unfold Literal.value
          simp only [decide_eq_true_eq]
          split <;> omega
        refine ⟨?_, .integer ?_⟩
        · rw [exactLen, ← toString_value, same]
          rfl
        · rw [same]
          exact ⟨range.1, by omega⟩
      · cases isJson
  | .unsignedInteger value, json, text, isJson, ok => by
      cases ok
      rw [encoded] at isJson
      split at isJson
      · rename_i range
        cases isJson
        have same : Literal.value { magnitude := value } = value := rfl
        refine ⟨?_, .integer ?_⟩
        · rw [exactLen, ← toString_value, same]
          rfl
        · rw [same]
          omega
      · cases isJson
  | .number value, json, text, isJson, ok => by cases isJson
  | .string value, json, text, isJson, ok => by
      cases isJson
      cases ok
      exact ⟨rfl, .string value⟩
  | .array values, json, text, isJson, ok => by
      rw [encoded, Option.map_eq_some_iff] at isJson
      obtain ⟨jsons, isJsons, rfl⟩ := isJson
      rw [canonicalText, Checks.map_ok] at ok
      obtain ⟨texts, written, rfl⟩ := ok
      obtain ⟨sum, length, range⟩ := encodedValues_len values jsons texts isJsons written
      refine ⟨?_, .array range⟩
      rw [size_array, exactLen, sum, length]
  | .object fields, json, text, isJson, ok => by
      rw [encoded, Option.map_eq_some_iff] at isJson
      obtain ⟨jsons, isJsons, rfl⟩ := isJson
      rw [canonicalText, Checks.map_ok] at ok
      obtain ⟨texts, written, rfl⟩ := ok
      obtain ⟨sum, length, range⟩ := encodedFields_len fields jsons texts isJsons written
      refine ⟨?_, .object trivial range⟩
      have perm := sortedFields_perm unicode texts
      rw [size_object, exactLen, (perm.map _).sum_eq, sum, perm.length_eq, length]

theorem encodedValues_len : ∀ (values : List JSONValue) (jsons : List Json) (texts : List JsonText),
    encodedValues values = some jsons → canonicalValues unicode values = .ok texts →
      (texts.map fun text => utf8Length text.characters).sum = exactValues jsons ∧ texts.length = jsons.length ∧
        ∀ json ∈ jsons, InRange json
  | [], jsons, texts, isJsons, ok => by
      cases isJsons
      cases ok
      exact ⟨rfl, rfl, by simp⟩
  | value :: values, jsons, texts, isJsons, ok => by
      rw [encodedValues, Option.bind_eq_bind, Option.bind_eq_some_iff] at isJsons
      obtain ⟨json, isJson, more⟩ := isJsons
      rw [Option.bind_eq_bind, Option.bind_eq_some_iff] at more
      obtain ⟨rest, isRest, same⟩ := more
      cases same
      rw [canonicalValues, Checks.bind_ok] at ok
      obtain ⟨text, first, more⟩ := ok
      obtain ⟨others, written, same⟩ := Checks.bind_ok.mp more
      cases same
      obtain ⟨len, range⟩ := encoded_len value json text isJson first
      obtain ⟨sum, length, ranges⟩ := encodedValues_len values rest others isRest written
      rw [List.map_cons, List.sum_cons, exactValues, len, sum, List.length_cons, List.length_cons, length, List.forall_mem_cons]
      exact ⟨rfl, rfl, range, ranges⟩

theorem encodedFields_len : ∀ (fields : List (String × JSONValue)) (jsons : List (String × Json))
    (texts : List (String × JsonText)), encodedFields fields = some jsons → canonicalFields unicode fields = .ok texts →
      (texts.map fun entry => utf8Length (JsonText.quoted entry.1) + 1 + utf8Length entry.2.characters).sum =
          exactMembers jsons ∧ texts.length = jsons.length ∧ ∀ entry ∈ jsons, InRange entry.2
  | [], jsons, texts, isJsons, ok => by
      cases isJsons
      cases ok
      exact ⟨rfl, rfl, by simp⟩
  | (name, value) :: fields, jsons, texts, isJsons, ok => by
      rw [encodedFields, Option.bind_eq_bind, Option.bind_eq_some_iff] at isJsons
      obtain ⟨json, isJson, more⟩ := isJsons
      rw [Option.bind_eq_bind, Option.bind_eq_some_iff] at more
      obtain ⟨rest, isRest, same⟩ := more
      cases same
      rw [canonicalFields, Checks.bind_ok] at ok
      obtain ⟨text, first, more⟩ := ok
      obtain ⟨others, written, same⟩ := Checks.bind_ok.mp more
      cases same
      obtain ⟨len, range⟩ := encoded_len value json text isJson first
      obtain ⟨sum, length, ranges⟩ := encodedFields_len fields rest others isRest written
      rw [List.map_cons, List.sum_cons, exactMembers, sum, List.length_cons, List.length_cons, length, List.forall_mem_cons]
      dsimp only
      rw [len]
      exact ⟨rfl, rfl, range, ranges⟩
end

theorem ios_len {value : JSONValue} {json : Json} {data : ByteArray} (isJson : encoded value = some json)
    (ok : canonicalData unicode value = .ok data) : data.size = jsonStringifyLen json ↔ NoneCarried json := by
  unfold canonicalData at ok
  rw [Checks.and_then_ok, Checks.bind_ok] at ok
  obtain ⟨-, text, written, same⟩ := ok
  cases same
  obtain ⟨len, range⟩ := encoded_len value json text isJson written
  rw [bytes_size, len]
  exact (exactLen_le range).2

end

/-- The bytes that a Target states for a disclosed value are those the command line
    counts, on each platform, exactly when no integer of the value is just below a power
    of ten from `10 ^ 16` on. -/
theorem disclosed_bytes_agree (unicode : Normalization) :
    (∀ json, InRange json →
      ((bytes (wireJson (canonicalize json))).size = jsonStringifyLen (canonicalize json) ↔ NoneCarried json)) ∧
    ∀ value json data, encoded value = some json → canonicalData unicode value = .ok data →
      (data.size = jsonStringifyLen json ↔ NoneCarried json) :=
  ⟨fun _ => android_len, fun _ _ _ => ios_len⟩

/-- `9999999999999999` is `10000000000000000` as an `f64`. -/
def carriedNumber : Json := .integer { magnitude := 9999999999999999 }

theorem carriedNumber_inRange : InRange carriedNumber := .integer (by decide)

theorem carriedNumber_rejected :
    InRange carriedNumber ∧ (bytes (wireJson (canonicalize carriedNumber))).size ≠ jsonStringifyLen (canonicalize carriedNumber) := by
  refine ⟨carriedNumber_inRange, fun same => ?_⟩
  exact Json.everywhere_integer.mp ((android_len carriedNumber_inRange).mp same) (by decide)

theorem plainNumber_accepted :
    (bytes (wireJson (canonicalize (.integer { magnitude := 7 })))).size =
        jsonStringifyLen (canonicalize (.integer { magnitude := 7 })) ∧
      ∀ data, canonicalData oneSpelling (.integer 7) = .ok data → data.size = jsonStringifyLen (.integer { magnitude := 7 }) := by
  have plain : NoneCarried (.integer { magnitude := 7 }) := .integer (by decide)
  obtain ⟨android, ios⟩ := disclosed_bytes_agree oneSpelling
  exact ⟨(android _ (.integer (by decide))).mpr plain, fun data ok => (ios _ _ data rfl ok).mpr plain⟩

end AppPilotKit.Semantic
