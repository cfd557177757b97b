import AppPilotKit.Semantic.Disclosure

/-! # Numbers as ECMAScript writes them

`js_number_string` rebuilds the text of `Number::toString` from the positional text of a
double. Its digits are the fewest that read back as the double.
-/

namespace AppPilotKit.Semantic.JsNumber

open Binary64 (HasDigits nearest)

/-! ## The command line -/

/-- The first digit is sliced off, so that there must be one. -/
def coefficient (digits : List Char) : Option (List Char) :=
  if digits.length = 1 then some digits
  else if digits = [] then none
  else some (digits.take 1 ++ '.' :: digits.drop 1)

/-- `strip_prefix("0.")`. -/
def stripZeroPoint : List Char → Option (List Char)
  | '0' :: '.' :: fractional => some fractional
  | _ => none

/-- `js_number_string` of a double with this sign and absolute value, where `display` is what
    `to_string` writes. A failing `expect` or slice is `none`. -/
def jsNumberString (display : ℚ → List Char) (negative : Bool) (absolute : ℚ) : Option (List Char) :=
  if absolute = 0 then some ['0']
  else do
    let fixed := display absolute
    let formatted ←
      if 10 ^ 21 ≤ absolute then do
        let coefficient ← coefficient (trimZeros fixed)
        pure (coefficient ++ ['e', '+'] ++ digitsOf (fixed.length - 1))
      else if absolute < nearest (1 / 10 ^ 6) then do
        let fractional ← stripZeroPoint fixed
        let first ← fractional.findIdx? (· ≠ '0')
        let coefficient ← coefficient (trimZeros (fractional.drop first))
        pure (coefficient ++ ['e', '-'] ++ digitsOf (first + 1))
      else pure fixed
    pure (if negative then '-' :: formatted else formatted)

/-! ## ECMAScript -/

/-- `k` digits `s` and an exponent `n` as `Number::toString` takes them of a positive double: they
    read back as it, and no fewer digits do. -/
structure Shortest (x : ℚ) (n : Int) (k s : Nat) : Prop where
  digits : HasDigits s k
  reads : Binary64.ofRat (s * 10 ^ (n - k)) = some x
  least : ∀ (n' : Int) (k' s' : Nat), HasDigits s' k' → Binary64.ofRat (s' * 10 ^ (n' - k')) = some x → k ≤ k'

/-- The cases of `Number::toString`. -/
def numberToString (negative : Bool) (n : Int) (k s : Nat) : List Char :=
  let digits := digitsOf s
  (if negative then ['-'] else []) ++
    if k ≤ n ∧ n ≤ 21 then digits ++ zeros (n - k).toNat
    else if 0 < n ∧ n ≤ 21 then digits.take n.toNat ++ '.' :: digits.drop n.toNat
    else if -6 < n ∧ n ≤ 0 then ['0', '.'] ++ zeros (-n).toNat ++ digits
    else
      let exponent := ['e', if 0 < n then '+' else '-'] ++ digitsOf (n - 1).natAbs
      if k = 1 then digits ++ exponent else digits.take 1 ++ '.' :: digits.drop 1 ++ exponent

/-- The digits in positional form, with zeros up to the point. -/
def positionalForm (n : Int) (k s : Nat) : List Char :=
  let digits := digitsOf s
  if n ≤ 0 then ['0', '.'] ++ zeros (-n).toNat ++ digits
  else if k ≤ n then digits ++ zeros (n - k).toNat
  else digits.take n.toNat ++ '.' :: digits.drop n.toNat

/-! ## Where the notation changes -/

section
variable {x : ℚ} {n : Int} {k s : Nat}

theorem ofRat_some {q : ℚ} (h : Binary64.ofRat q = some x) : nearest q = x ∧ |x| ≤ Binary64.largestFinite := by
  unfold Binary64.ofRat at h
  split at h
  · rename_i fits
    cases h
    exact ⟨rfl, fits⟩
  · cases h

theorem ofRat_of_nearest {q : ℚ} (near : nearest q = x) (fits : |x| ≤ Binary64.largestFinite) : Binary64.ofRat q = some x := by
  unfold Binary64.ofRat
  rw [near, if_pos fits]

/-- The decimal lies between two powers of ten. -/
theorem decimal_bounds (has : HasDigits s k) (n : Int) :
    (10 : ℚ) ^ (n - 1) ≤ s * 10 ^ (n - k) ∧ (s * 10 ^ (n - k) : ℚ) < 10 ^ n := by
  obtain ⟨least, most, some⟩ := has
  have least : ((10 ^ (k - 1) : ℕ) : ℚ) ≤ s := by exact_mod_cast least
  have most : (s : ℚ) < ((10 ^ k : ℕ) : ℚ) := by exact_mod_cast most
  push_cast at least most
  constructor
  · calc (10 : ℚ) ^ (n - 1) = 10 ^ (((k - 1 : ℕ) : ℤ) + (n - k)) := by
          congr 1
          omega
      _ = 10 ^ (k - 1) * 10 ^ (n - k) := by rw [zpow_add₀ (by norm_num), zpow_natCast]
      _ ≤ s * 10 ^ (n - k) := by gcongr
  · calc (s * 10 ^ (n - k) : ℚ) < 10 ^ k * 10 ^ (n - k) := by gcongr
      _ = 10 ^ n := by
          rw [← zpow_natCast, ← zpow_add₀ (by norm_num)]
          congr 1
          omega

theorem Shortest.positive (shortest : Shortest x n k s) : (0 : ℚ) < s * 10 ^ (n - k) :=
  lt_of_lt_of_le (by positivity) (decimal_bounds shortest.digits n).1

/-- One digit is enough for a double that a power of ten reads as. -/
theorem Shortest.power (shortest : Shortest x n k s) (m : Int) (near : nearest (10 ^ m) = x) : k = 1 := by
  have fits := (ofRat_some shortest.reads).2
  have some := shortest.digits.2.2
  have le := shortest.least (m + 1) 1 1 ⟨by norm_num, by norm_num, by norm_num⟩
    (ofRat_of_nearest (by simpa using near) fits)
  omega

/-- One digit below a power of ten leaves a tenth of it. -/
theorem one_digit (has : HasDigits s 1) {m : Int} (below : n ≤ m) : (s * 10 ^ (n - 1) : ℚ) ≤ 9 * 10 ^ (m - 1) := by
  have nine : (s : ℚ) ≤ 9 := by
    have := has.2.1
    exact_mod_cast (show s ≤ 9 by omega)
  have power : (10 : ℚ) ^ (n - 1) ≤ 10 ^ (m - 1) := zpow_le_zpow_right₀ (by norm_num) (by omega)
  have positive : (0 : ℚ) < 10 ^ (n - 1) := by positivity
  calc (s * 10 ^ (n - 1) : ℚ) ≤ 9 * 10 ^ (n - 1) := by gcongr
    _ ≤ 9 * 10 ^ (m - 1) := by gcongr

/-- Where doubles tell `9 · 10 ^ (m - 1)` from `10 ^ m`, the exponent is read off the double. -/
theorem Shortest.below_power (shortest : Shortest x n k s) (m : Int)
    (apart : nearest (9 * 10 ^ (m - 1)) < nearest (10 ^ m)) : x < nearest (10 ^ m) ↔ n ≤ m := by
  obtain ⟨near, -⟩ := ofRat_some shortest.reads
  obtain ⟨least, most⟩ := decimal_bounds shortest.digits n
  constructor
  · intro less
    by_contra more
    have power : (10 : ℚ) ^ m ≤ 10 ^ (n - 1) := zpow_le_zpow_right₀ (by norm_num) (by omega)
    have mono := Binary64.nearest_mono (by positivity) (power.trans least)
    rw [near] at mono
    exact absurd less (not_lt.mpr mono)
  · intro below
    have power : (10 : ℚ) ^ n ≤ 10 ^ m := zpow_le_zpow_right₀ (by norm_num) below
    have mono := Binary64.nearest_mono shortest.positive (most.le.trans power)
    rw [near] at mono
    refine lt_of_le_of_ne mono fun same => ?_
    obtain rfl := shortest.power m same.symm
    have digit := Binary64.nearest_mono shortest.positive (one_digit shortest.digits below)
    rw [near] at digit
    exact absurd (lt_of_le_of_lt digit apart) (by rw [same]; exact lt_irrefl _)

theorem apart_large : nearest (9 * 10 ^ ((21 : Int) - 1)) < nearest (10 ^ (21 : Int)) := by
  have nine : nearest (9 * 10 ^ ((21 : Int) - 1)) = 9 * 10 ^ 20 := by
    have known := Binary64.nearest_exact (m := 9 * 5 ^ 20) (e := 20) (by norm_num) (by norm_num)
    norm_num at known ⊢
    exact known
  have ten : nearest (10 ^ (21 : Int)) = 10 ^ 21 := by
    have known := Binary64.nearest_ten_pow (k := 21) (by norm_num)
    norm_num at known ⊢
    exact known
  rw [nine, ten]
  norm_num

theorem apart_small : nearest (9 * 10 ^ ((-6 : Int) - 1)) < nearest (10 ^ (-6 : Int)) := by
  have low := Binary64.nearest_exact (m := 1) (e := -20) (by norm_num) (by norm_num)
  have high := Binary64.nearest_exact (m := 33) (e := -25) (by norm_num) (by norm_num)
  have under := Binary64.nearest_mono (a := 9 * 10 ^ ((-6 : Int) - 1)) (b := (1 : ℕ) * 2 ^ (-20 : ℤ)) (by norm_num) (by norm_num)
  have above := Binary64.nearest_mono (a := (33 : ℕ) * 2 ^ (-25 : ℤ)) (b := 10 ^ (-6 : Int)) (by norm_num) (by norm_num)
  rw [low] at under
  rw [high] at above
  refine lt_of_le_of_lt under (lt_of_lt_of_le ?_ above)
  norm_num

/-- Exponents above 21 are those of the doubles from `1e21` on. -/
theorem Shortest.large (shortest : Shortest x n k s) : 10 ^ 21 ≤ x ↔ 21 < n := by
  have ten : nearest (10 ^ (21 : Int)) = 10 ^ 21 := by
    have known := Binary64.nearest_ten_pow (k := 21) (by norm_num)
    norm_num at known ⊢
    exact known
  have below := shortest.below_power 21 apart_large
  rw [ten] at below
  rw [← not_lt, below, not_le]

theorem Shortest.small (shortest : Shortest x n k s) : x < nearest (1 / 10 ^ 6) ↔ n ≤ -6 := by
  rw [← shortest.below_power (-6) apart_small]
  norm_num

/-! ## The digits -/

/-- The last digit is needed. -/
theorem Shortest.last (shortest : Shortest x n k s) : s % 10 ≠ 0 := by
  intro zero
  obtain ⟨t, rfl⟩ := Nat.dvd_of_mod_eq_zero zero
  obtain ⟨least, most, some⟩ := shortest.digits
  have more : k ≠ 1 := by
    rintro rfl
    omega
  obtain ⟨j, rfl⟩ := Nat.exists_eq_add_of_le' (show 2 ≤ k by omega)
  have fewer : HasDigits t (j + 1) := by
    rw [show j + 2 - 1 = j + 1 from rfl, pow_succ] at least
    rw [pow_succ] at most
    exact ⟨by rw [Nat.add_sub_cancel]; omega, by omega, by omega⟩
  have same : ((t : ℚ) * 10 ^ (n - (j + 1 : ℕ))) = (10 * t : ℕ) * 10 ^ (n - (j + 2 : ℕ)) := by
    rw [show n - ((j + 1 : ℕ) : ℤ) = n - ((j + 2 : ℕ) : ℤ) + 1 by push_cast; ring, zpow_add₀ (by norm_num), zpow_one]
    push_cast
    ring
  have le := shortest.least n (j + 1) t fewer (by rw [same]; exact shortest.reads)
  omega

/-- From `1e21` on doubles are whole, so that no digit stands after the point. -/
theorem Shortest.whole (shortest : Shortest x n k s) (large : 21 < n) : (k : Int) ≤ n := by
  obtain ⟨near, fits⟩ := ofRat_some shortest.reads
  obtain ⟨least, most⟩ := decimal_bounds shortest.digits n
  have wide : (2 : ℚ) ^ (52 : ℤ) ≤ s * 10 ^ (n - k) := by
    have power : (10 : ℚ) ^ (21 : ℤ) ≤ 10 ^ (n - 1) := zpow_le_zpow_right₀ (by norm_num) (by omega)
    refine le_trans ?_ (power.trans least)
    norm_num
  obtain ⟨m, -, form⟩ := Binary64.nearest_form shortest.positive
  have place : 0 ≤ Binary64.lastPlace (s * 10 ^ (n - k)) := by
    have log : 52 ≤ Int.log 2 (s * 10 ^ (n - k) : ℚ) :=
      (Int.zpow_le_iff_le_log (b := 2) (by norm_num) shortest.positive).mp (by exact_mod_cast wide)
    unfold Binary64.lastPlace
    rw [abs_of_pos shortest.positive]
    omega
  obtain ⟨e, place⟩ := Int.eq_ofNat_of_zero_le place
  have natural : x = ((m * 2 ^ e : ℕ) : ℚ) := by
    rw [← near, form, place]
    push_cast
    norm_cast
  have itself : nearest x = x := by
    rw [← near]
    exact Binary64.nearest_nearest shortest.positive
  have positive : 0 < m * 2 ^ e := by
    refine Nat.pos_of_ne_zero fun zero => ?_
    have low := (shortest.large.mpr large)
    rw [natural, zero] at low
    norm_num at low
  rcases lt_or_ge x (10 ^ n) with less | reached
  · -- the digits of the whole number read back
    have has := hasDigits_digitsOf positive
    have le := shortest.least _ _ _ has (by
      rw [sub_self, zpow_zero, mul_one, ← natural]
      exact ofRat_of_nearest itself fits)
    obtain ⟨i, rfl⟩ := Int.eq_ofNat_of_zero_le (show 0 ≤ n by omega)
    have below : m * 2 ^ e < 10 ^ i := by
      rw [natural] at less
      exact_mod_cast less
    have power := (Nat.pow_lt_pow_iff_right (a := 10) (by norm_num)).mp (lt_of_le_of_lt has.1 below)
    omega
  · have up := Binary64.nearest_mono shortest.positive most.le
    have down := Binary64.nearest_mono (a := 10 ^ n) (by positivity) reached
    rw [near] at up
    rw [itself] at down
    have one := shortest.power n (le_antisymm down up)
    omega

theorem length_digitsOf (has : HasDigits s k) : (digitsOf s).length = k := by
  have positive : 0 < s := lt_of_lt_of_le (by positivity) has.1
  have same := (hasDigits_digitsOf positive).log.symm.trans has.log
  exact_mod_cast same

theorem digitsOf_step (wide : 10 ≤ s) : digitsOf s = digitsOf (s / 10) ++ [(s % 10).digitChar] := by
  unfold digitsOf
  rw [Nat.toString_eq_repr, Nat.toString_eq_repr, Nat.toList_repr, Nat.toList_repr]
  exact Nat.toDigits_of_base_le (by norm_num) wide

theorem digitsOf_single (small : s < 10) : digitsOf s = [s.digitChar] := by
  unfold digitsOf
  rw [Nat.toString_eq_repr, Nat.toList_repr]
  exact Nat.toDigits_of_lt_base small

theorem digitChar_ne (small : s < 10) (some : s ≠ 0) : s.digitChar ≠ '0' := by
  revert s
  decide

theorem digitsOf_first (positive : s ≠ 0) : ∃ c cs, digitsOf s = c :: cs ∧ c ≠ '0' := by
  induction s using Nat.strongRecOn with
  | ind s ih =>
      rcases Nat.lt_or_ge s 10 with small | wide
      · exact ⟨_, [], digitsOf_single small, digitChar_ne small positive⟩
      · obtain ⟨c, cs, split, first⟩ := ih (s / 10) (by omega) (by omega)
        exact ⟨c, cs ++ [(s % 10).digitChar], by rw [digitsOf_step wide, split]; rfl, first⟩

theorem digitsOf_last (last : s % 10 ≠ 0) : ∃ cs c, digitsOf s = cs ++ [c] ∧ c ≠ '0' := by
  rcases Nat.lt_or_ge s 10 with small | wide
  · exact ⟨[], _, digitsOf_single small, digitChar_ne small (by omega)⟩
  · exact ⟨_, _, digitsOf_step wide, digitChar_ne (by omega) last⟩

theorem trimZeros_digits (last : s % 10 ≠ 0) (count : Nat) : trimZeros (digitsOf s ++ zeros count) = digitsOf s := by
  obtain ⟨cs, c, split, other⟩ := digitsOf_last last
  have dropped : ((zeros count ++ (digitsOf s).reverse).dropWhile (· = '0')) = (digitsOf s).reverse := by
    rw [List.dropWhile_append_of_pos fun d member => decide_eq_true (List.eq_of_mem_replicate member), split,
      List.reverse_append, List.reverse_singleton, List.singleton_append,
      List.dropWhile_cons_of_neg (by simpa using other)]
  unfold trimZeros
  rw [List.reverse_append, show (zeros count).reverse = zeros count from List.reverse_replicate .., dropped, List.reverse_reverse]

theorem findIdx_zeros {c : Char} {cs : List Char} (other : c ≠ '0') (count : Nat) :
    (zeros count ++ c :: cs).findIdx? (· ≠ '0') = some count := by
  induction count with
  | zero => simp [zeros, List.findIdx?_cons, other]
  | succ count ih =>
      rw [show zeros (count + 1) ++ c :: cs = '0' :: (zeros count ++ c :: cs) from rfl, List.findIdx?_cons, ih]
      simp

theorem coefficient_digits (has : HasDigits s k) : coefficient (digitsOf s) =
    some (if k = 1 then digitsOf s else (digitsOf s).take 1 ++ '.' :: (digitsOf s).drop 1) := by
  unfold coefficient
  rw [length_digitsOf has]
  split
  · rfl
  · rw [if_neg (digitsOf_spec s).1]

end

/-! ## The text -/

/-- `js_number_string` writes what ECMAScript writes, when the positional form of the shortest
    digits is displayed. No slice and no `expect` fails. -/
theorem jsNumberString_ecma (display : ℚ → List Char) (negative : Bool) (absolute : ℚ) (n : Int) (k s : Nat)
    (nonzero : absolute ≠ 0) (shortest : Shortest absolute n k s) (displayed : display absolute = positionalForm n k s) :
    jsNumberString display negative absolute = some (numberToString negative n k s) := by
  have has := shortest.digits
  have length := length_digitsOf has
  have trimmed := trimZeros_digits shortest.last
  have large := shortest.large
  have small := shortest.small
  unfold jsNumberString numberToString
  rw [if_neg nonzero, displayed]
  dsimp only
  unfold positionalForm
  by_cases high : 21 < n
  · have whole := shortest.whole high
    rw [if_pos (large.mpr high), if_neg (show ¬ n ≤ 0 by omega), if_pos whole, trimmed, coefficient_digits has,
      if_neg (show ¬ ((k : Int) ≤ n ∧ n ≤ 21) by omega), if_neg (show ¬ (0 < n ∧ n ≤ 21) by omega),
      if_neg (show ¬ (-6 < n ∧ n ≤ 0) by omega), if_pos (show 0 < n by omega)]
    have places : (digitsOf s ++ zeros (n - k).toNat).length - 1 = (n - 1).natAbs := by
      rw [List.length_append, length, zeros, List.length_replicate]
      omega
    rw [places]
    by_cases one : k = 1
    · simp [one]
      cases negative <;> rfl
    · simp [one]
      cases negative <;> rfl
  · rw [if_neg fun reached => high (large.mp reached)]
    by_cases low : n ≤ -6
    · obtain ⟨c, cs, split, first⟩ := digitsOf_first (s := s) fun zero => shortest.last (by rw [zero])
      have found : (zeros (-n).toNat ++ digitsOf s).findIdx? (· ≠ '0') = some (-n).toNat := by
        rw [split]
        exact findIdx_zeros first _
      have dropped : (zeros (-n).toNat ++ digitsOf s).drop (-n).toNat = digitsOf s := by
        rw [List.drop_left' (by rw [zeros, List.length_replicate])]
      have trimmed : trimZeros (digitsOf s) = digitsOf s := by simpa [zeros] using trimZeros_digits shortest.last 0
      have exponent : (-n).toNat + 1 = (n - 1).natAbs := by omega
      rw [if_pos (small.mpr low), if_pos (show n ≤ 0 by omega), if_neg (show ¬ ((k : Int) ≤ n ∧ n ≤ 21) by omega),
        if_neg (show ¬ (0 < n ∧ n ≤ 21) by omega), if_neg (show ¬ (-6 < n ∧ n ≤ 0) by omega), if_neg (show ¬ 0 < n by omega)]
      simp only [List.cons_append, List.nil_append, stripZeroPoint, Option.bind_eq_bind, Option.bind_some, found, dropped, trimmed,
        coefficient_digits has, exponent]
      by_cases one : k = 1
      · simp [one]
        cases negative <;> rfl
      · simp [one]
        cases negative <;> rfl
    · rw [if_neg fun tiny => low (small.mp tiny)]
      rcases lt_or_ge 0 n with positive | fraction
      · rw [if_neg (show ¬ n ≤ 0 by omega)]
        by_cases padded : (k : Int) ≤ n
        · rw [if_pos padded, if_pos (show (k : Int) ≤ n ∧ n ≤ 21 by omega)]
          cases negative <;> rfl
        · rw [if_neg padded, if_neg (show ¬ ((k : Int) ≤ n ∧ n ≤ 21) by omega), if_pos (show 0 < n ∧ n ≤ 21 by omega)]
          cases negative <;> rfl
      · have some := has.2.2
        rw [if_pos (show n ≤ 0 by omega), if_neg (show ¬ ((k : Int) ≤ n ∧ n ≤ 21) by omega),
          if_neg (show ¬ (0 < n ∧ n ≤ 21) by omega), if_pos (show -6 < n ∧ n ≤ 0 by omega)]
        cases negative <;> rfl

/-- `-1e21` is written with an exponent. -/
theorem jsNumberString_ecma_large :
    (10 : ℚ) ^ 21 ≠ 0 ∧ Shortest (10 ^ 21) 22 1 1 ∧
      jsNumberString (fun _ => positionalForm 22 1 1) true (10 ^ 21) = some ['-', '1', 'e', '+', '2', '1'] := by
  have reads : Binary64.ofRat ((1 : ℕ) * 10 ^ ((22 : Int) - (1 : ℕ))) = some ((10 : ℚ) ^ 21) := by
    have known := Binary64.nearest_ten_pow (k := 21) (by norm_num)
    refine ofRat_of_nearest ?_ ?_
    · norm_num at known ⊢
      exact known
    · have power : (2 : ℚ) ^ 20 ≤ 2 ^ 971 := pow_le_pow_right₀ (by norm_num) (by norm_num)
      rw [abs_of_pos (by positivity), Binary64.largestFinite]
      calc (10 : ℚ) ^ 21 ≤ (2 ^ 53 - 1) * 2 ^ 20 := by norm_num
        _ ≤ (2 ^ 53 - 1) * 2 ^ 971 := mul_le_mul_of_nonneg_left power (by norm_num)
  have shortest : Shortest (10 ^ 21) 22 1 1 :=
    ⟨⟨by norm_num, by norm_num, by norm_num⟩, reads, fun _ _ _ has _ => has.2.2⟩
  refine ⟨by norm_num, shortest, ?_⟩
  rw [jsNumberString_ecma (fun _ => positionalForm 22 1 1) true (10 ^ 21) 22 1 1 (by norm_num) shortest rfl]
  rfl

end AppPilotKit.Semantic.JsNumber
