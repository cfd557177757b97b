import Mathlib

/-! # Binary floating point

The values of IEEE 754 binary64 as rational numbers: rounding to the nearest, ties to
even, and the shortest decimal that reads back as a value.
-/

namespace Binary64

/-- The nearest integer, the even one of two. -/
def roundEven (q : ℚ) : ℤ :=
  let below := ⌊q⌋
  let rest := q - below
  if rest < 1 / 2 then below
  else if 1 / 2 < rest then below + 1
  else if below % 2 = 0 then below else below + 1

/-- The exponent of the last binary digit at the size of `q`. -/
def lastPlace (q : ℚ) : ℤ := max (Int.log 2 |q| - 52) (-1074)

/-- The nearest value with 53 binary digits. -/
def nearest (q : ℚ) : ℚ := roundEven (q / 2 ^ lastPlace q) * 2 ^ lastPlace q

def largestFinite : ℚ := (2 ^ 53 - 1) * 2 ^ 971

/-- Too large a number becomes infinite: `none`. -/
def ofRat (q : ℚ) : Option ℚ := if |nearest q| ≤ largestFinite then some (nearest q) else none

theorem roundEven_error (q : ℚ) : |(roundEven q : ℚ) - q| ≤ 1 / 2 := by
  have lower := Int.floor_le q
  have upper := Int.lt_floor_add_one q
  unfold roundEven
  dsimp only
  split_ifs <;> push_cast <;> rw [abs_le] <;> constructor <;> linarith

theorem nearest_error (q : ℚ) : |nearest q - q| ≤ 2 ^ lastPlace q / 2 := by
  have positive : (0 : ℚ) < 2 ^ lastPlace q := by positivity
  have split : nearest q - q = (roundEven (q / 2 ^ lastPlace q) - q / 2 ^ lastPlace q) * 2 ^ lastPlace q := by
    unfold nearest
    field_simp
  rw [split, abs_mul, abs_of_pos positive]
  have := mul_le_mul_of_nonneg_right (roundEven_error (q / 2 ^ lastPlace q)) positive.le
  linarith

theorem lastPlace_le {q : ℚ} {n : ℤ} (small : |q| < 2 ^ n) (regular : -1021 ≤ n) (nonzero : q ≠ 0) :
    lastPlace q ≤ n - 53 := by
  have := (Int.lt_zpow_iff_log_lt (b := 2) (by norm_num) (abs_pos.mpr nonzero)).mp (by exact_mod_cast small)
  unfold lastPlace
  omega

/-- A number of moderate size stays finite. -/
theorem ofRat_isSome {q : ℚ} (small : |q| < 2 ^ 53) : (ofRat q).isSome = true := by
  have place : lastPlace q ≤ 0 := by
    by_cases zero : q = 0
    · rw [zero]
      unfold lastPlace
      simp
    · exact lastPlace_le (n := 53) (by exact_mod_cast small) (by norm_num) zero
  have unit : (2 : ℚ) ^ lastPlace q ≤ 1 := zpow_le_one_of_nonpos₀ (by norm_num) place
  have bound : |nearest q| ≤ 2 ^ 53 + 1 := by
    have triangle := abs_add_le (nearest q - q) q
    rw [sub_add_cancel] at triangle
    have := nearest_error q
    linarith
  have large : (2 : ℚ) ^ 53 + 1 ≤ largestFinite := by
    unfold largestFinite
    have two : (2 : ℚ) ≤ 2 ^ 971 := by
      calc (2 : ℚ) = 2 ^ 1 := (pow_one 2).symm
        _ ≤ 2 ^ 971 := pow_le_pow_right₀ (by norm_num) (by norm_num)
    generalize (2 : ℚ) ^ 971 = scale at two
    linarith
  unfold ofRat
  rw [if_pos (bound.trans large)]
  rfl

/-! ## Order -/

theorem roundEven_bounds (q : ℚ) : ⌊q⌋ ≤ roundEven q ∧ roundEven q ≤ ⌊q⌋ + 1 := by
  unfold roundEven
  dsimp only
  split_ifs <;> omega

@[simp] theorem roundEven_intCast (n : ℤ) : roundEven n = n := by
  simp [roundEven]

theorem roundEven_mono {a b : ℚ} (le : a ≤ b) : roundEven a ≤ roundEven b := by
  have floors := Int.floor_le_floor le
  rcases floors.lt_or_eq with less | same
  · have := (roundEven_bounds a).2
    have := (roundEven_bounds b).1
    omega
  · unfold roundEven
    dsimp only
    rw [same]
    split_ifs <;> first | omega | (exfalso; linarith)

theorem roundEven_neg (q : ℚ) : roundEven (-q) = -roundEven q := by
  have lower := Int.floor_le q
  have upper := Int.lt_floor_add_one q
  by_cases whole : q = ⌊q⌋
  · rw [whole, ← Int.cast_neg, roundEven_intCast, roundEven_intCast]
  · have strict : (⌊q⌋ : ℚ) < q := lt_of_le_of_ne lower (fun same => whole same.symm)
    have floor : ⌊-q⌋ = -⌊q⌋ - 1 := by
      rw [Int.floor_eq_iff]
      push_cast
      constructor <;> linarith
    unfold roundEven
    dsimp only
    rw [floor]
    push_cast
    split_ifs <;> first | omega | (exfalso; linarith)

theorem nearest_neg (q : ℚ) : nearest (-q) = -nearest q := by
  unfold nearest lastPlace
  rw [abs_neg, neg_div, roundEven_neg]
  push_cast
  ring

theorem lastPlace_mono {a b : ℚ} (positive : 0 < a) (le : a ≤ b) : lastPlace a ≤ lastPlace b := by
  unfold lastPlace
  rw [abs_of_pos positive, abs_of_pos (positive.trans_le le)]
  have := Int.log_mono_right (b := 2) positive le
  omega

/-- A multiple of the last place is its own nearest. -/
theorem nearest_of_multiple {q : ℚ} {n : ℤ} (multiple : q = n * 2 ^ lastPlace q) : nearest q = q := by
  have whole : q / 2 ^ lastPlace q = n := by
    rw [div_eq_iff (by positivity)]
    exact multiple
  unfold nearest
  rw [whole, roundEven_intCast]
  exact multiple.symm

theorem nearest_exact_of_lt {m : ℕ} {e : ℤ} (small : m < 2 ^ 53) (regular : -1074 ≤ e) :
    nearest (m * 2 ^ e) = m * 2 ^ e := by
  by_cases zero : m = 0
  · subst zero
    exact nearest_of_multiple (n := 0) (by simp)
  · have positive : (0 : ℚ) < m * 2 ^ e := by
      have : (0 : ℚ) < m := by exact_mod_cast Nat.pos_of_ne_zero zero
      positivity
    have bound : (m * 2 ^ e : ℚ) < 2 ^ (53 + e) := by
      rw [zpow_add₀ (by norm_num)]
      have : (m : ℚ) < 2 ^ (53 : ℤ) := by exact_mod_cast small
      gcongr
    have place : lastPlace (m * 2 ^ e) ≤ e := by
      have := (Int.lt_zpow_iff_log_lt (b := 2) (by norm_num) positive).mp (by exact_mod_cast bound)
      unfold lastPlace
      rw [abs_of_pos positive]
      omega
    obtain ⟨n, shift⟩ := Int.eq_ofNat_of_zero_le (show 0 ≤ e - lastPlace (m * 2 ^ e) by omega)
    refine nearest_of_multiple (n := m * 2 ^ n) ?_
    have split : e = n + lastPlace (m * 2 ^ e) := by omega
    calc (m * 2 ^ e : ℚ) = m * 2 ^ ((n : ℤ) + lastPlace (m * 2 ^ e)) := by rw [← split]
      _ = m * (2 ^ n * 2 ^ lastPlace (m * 2 ^ e)) := by rw [zpow_add₀ (by norm_num), zpow_natCast]
      _ = ((m * 2 ^ n : ℤ) : ℚ) * 2 ^ lastPlace (m * 2 ^ e) := by
        push_cast
        ring

/-- A number of 53 binary digits is its own nearest. -/
theorem nearest_exact {m : ℕ} {e : ℤ} (small : m ≤ 2 ^ 53) (regular : -1074 ≤ e) :
    nearest (m * 2 ^ e) = m * 2 ^ e := by
  rcases Nat.lt_or_eq_of_le small with less | rfl
  · exact nearest_exact_of_lt less regular
  · have half : ((2 ^ 53 : ℕ) : ℚ) * 2 ^ e = ((2 ^ 52 : ℕ) : ℚ) * 2 ^ (e + 1) := by
      rw [zpow_add₀ (by norm_num)]
      push_cast
      ring
    rw [half]
    exact nearest_exact_of_lt (by norm_num) (by omega)

theorem scaled_lt {q : ℚ} (positive : 0 < q) : q / 2 ^ lastPlace q < 2 ^ 53 := by
  have above := Int.lt_zpow_succ_log_self (b := 2) (by norm_num) q
  rw [div_lt_iff₀ (by positivity)]
  refine lt_of_lt_of_le (by exact_mod_cast above) ?_
  calc (2 : ℚ) ^ (Int.log 2 q + 1) ≤ 2 ^ (53 + lastPlace q) := by
        refine zpow_le_zpow_right₀ (by norm_num) ?_
        unfold lastPlace
        rw [abs_of_pos positive]
        omega
    _ = 2 ^ 53 * 2 ^ lastPlace q := by
        rw [zpow_add₀ (by norm_num)]
        norm_num

/-- The nearest of a positive number has 53 binary digits. -/
theorem nearest_form {q : ℚ} (positive : 0 < q) :
    ∃ m : ℕ, m ≤ 2 ^ 53 ∧ nearest q = m * 2 ^ lastPlace q := by
  have upper := roundEven_mono (scaled_lt positive).le
  have lower := roundEven_mono (show (0 : ℚ) ≤ q / 2 ^ lastPlace q by positivity)
  rw [show (2 : ℚ) ^ 53 = ((2 ^ 53 : ℤ) : ℚ) by norm_num, roundEven_intCast] at upper
  rw [show (0 : ℚ) = ((0 : ℤ) : ℚ) by norm_num, roundEven_intCast] at lower
  obtain ⟨m, same⟩ := Int.eq_ofNat_of_zero_le lower
  refine ⟨m, by omega, ?_⟩
  unfold nearest
  rw [same]
  norm_cast

theorem nearest_nearest {q : ℚ} (positive : 0 < q) : nearest (nearest q) = nearest q := by
  obtain ⟨m, small, form⟩ := nearest_form positive
  rw [form]
  exact nearest_exact small (le_max_right _ _)

theorem nearest_abs (q : ℚ) : |nearest q| = nearest |q| := by
  have nonneg {q : ℚ} (positive : 0 < q) : 0 ≤ nearest q := by
    obtain ⟨m, -, form⟩ := nearest_form positive
    rw [form]
    positivity
  rcases lt_trichotomy q 0 with negative | rfl | positive
  · have opposite := nearest_neg (-q)
    rw [neg_neg] at opposite
    rw [abs_of_neg negative, opposite, abs_neg, abs_of_nonneg (nonneg (neg_pos.mpr negative))]
  · have zero : nearest 0 = 0 := nearest_of_multiple (n := 0) (by simp)
    rw [abs_zero, zero, abs_zero]
  · rw [abs_of_pos positive, abs_of_nonneg (nonneg positive)]

theorem nearest_le {q : ℚ} {n : ℤ} (le : q ≤ n * 2 ^ lastPlace q) : nearest q ≤ n * 2 ^ lastPlace q := by
  have scaled : q / 2 ^ lastPlace q ≤ n := by
    rw [div_le_iff₀ (by positivity)]
    exact le
  have rounded := roundEven_mono scaled
  rw [roundEven_intCast] at rounded
  unfold nearest
  gcongr

theorem le_nearest {q : ℚ} {n : ℤ} (le : n * 2 ^ lastPlace q ≤ q) : n * 2 ^ lastPlace q ≤ nearest q := by
  have scaled : n ≤ q / 2 ^ lastPlace q := by
    rw [le_div_iff₀ (by positivity)]
    exact le
  have rounded := roundEven_mono scaled
  rw [roundEven_intCast] at rounded
  unfold nearest
  gcongr

theorem nearest_mono {a b : ℚ} (positive : 0 < a) (le : a ≤ b) : nearest a ≤ nearest b := by
  rcases (lastPlace_mono positive le).lt_or_eq with less | same
  · -- the power of two at the foot of `b` separates the two
    have place : lastPlace b = Int.log 2 b - 52 ∧ Int.log 2 a < Int.log 2 b ∧ lastPlace a < Int.log 2 b := by
      unfold lastPlace at less ⊢
      rw [abs_of_pos positive, abs_of_pos (positive.trans_le le)] at less ⊢
      omega
    have multiple {p : ℤ} (below : p ≤ Int.log 2 b) :
        (2 : ℚ) ^ Int.log 2 b = ((2 ^ (Int.log 2 b - p).toNat : ℤ) : ℚ) * 2 ^ p := by
      obtain ⟨n, shift⟩ := Int.eq_ofNat_of_zero_le (show 0 ≤ Int.log 2 b - p by omega)
      rw [shift, show Int.log 2 b = n + p by omega, zpow_add₀ (by norm_num), zpow_natCast]
      norm_num
    have above : a ≤ 2 ^ Int.log 2 b :=
      le_of_lt (by exact_mod_cast (Int.lt_zpow_iff_log_lt (b := 2) (by norm_num) positive).mpr place.2.1)
    have below : (2 : ℚ) ^ Int.log 2 b ≤ b := by
      exact_mod_cast Int.zpow_log_le_self (b := 2) (by norm_num) (positive.trans_le le)
    rw [multiple (p := lastPlace a) (by omega)] at above
    rw [multiple (p := lastPlace b) (by omega)] at below
    calc nearest a ≤ _ := nearest_le above
      _ = (2 : ℚ) ^ Int.log 2 b := (multiple (by omega)).symm
      _ = _ := multiple (by omega)
      _ ≤ nearest b := le_nearest below
  · unfold nearest
    rw [same]
    have scaled : a / 2 ^ lastPlace b ≤ b / 2 ^ lastPlace b := by gcongr
    have := roundEven_mono scaled
    gcongr

/-- The nearest of a natural number is one. -/
theorem nearest_natCast (n : ℕ) : ∃ m : ℕ, nearest n = m := by
  by_cases zero : n = 0
  · subst zero
    exact ⟨0, by simpa using nearest_of_multiple (q := 0) (n := 0) (by simp)⟩
  · have positive : (0 : ℚ) < n := by exact_mod_cast Nat.pos_of_ne_zero zero
    by_cases small : n < 2 ^ 53
    · refine ⟨n, ?_⟩
      simpa using nearest_exact_of_lt (e := 0) small (by norm_num)
    · obtain ⟨m, -, form⟩ := nearest_form positive
      have place : 0 ≤ lastPlace n := by
        have large : (2 : ℚ) ^ (53 : ℤ) ≤ n := by exact_mod_cast Nat.le_of_not_lt small
        have := (Int.zpow_le_iff_le_log (b := 2) (x := 53) (by norm_num) positive).mp (by exact_mod_cast large)
        unfold lastPlace
        rw [abs_of_pos positive]
        omega
      obtain ⟨e, same⟩ := Int.eq_ofNat_of_zero_le place
      refine ⟨m * 2 ^ e, ?_⟩
      rw [form, same, zpow_natCast]
      norm_cast

theorem lastPlace_halfway {m e : ℕ} (low : 2 ^ 52 ≤ m) (high : m < 2 ^ 53) :
    lastPlace (((2 * m + 1) * 2 ^ e : ℕ) : ℚ) = ((e + 1 : ℕ) : ℤ) := by
  have log : Nat.log 2 ((2 * m + 1) * 2 ^ e) = 53 + e := by
    refine Nat.log_eq_of_pow_le_of_lt_pow ?_ ?_
    · rw [pow_add]
      gcongr
      omega
    · rw [show 53 + e + 1 = 54 + e by omega, pow_add]
      gcongr
      omega
  unfold lastPlace
  rw [Nat.abs_cast, Int.log_natCast, log]
  omega

/-- Halfway above an odd last digit the number is rounded up. -/
theorem nearest_halfway {m e : ℕ} (low : 2 ^ 52 ≤ m) (high : m < 2 ^ 53) (odd : m % 2 = 1) :
    nearest (((2 * m + 1) * 2 ^ e : ℕ) : ℚ) = (((m + 1) * 2 ^ (e + 1) : ℕ) : ℚ) := by
  have half : (((2 * m + 1) * 2 ^ e : ℕ) : ℚ) / 2 ^ ((e + 1 : ℕ) : ℤ) = m + 1 / 2 := by
    rw [zpow_natCast]
    push_cast
    rw [pow_succ]
    field_simp
  have up : roundEven ((m : ℚ) + 1 / 2) = m + 1 := by
    have floor : ⌊(m : ℚ) + 1 / 2⌋ = m := by
      rw [Int.floor_eq_iff]
      constructor <;> push_cast <;> linarith
    unfold roundEven
    dsimp only
    rw [floor, if_neg (by push_cast; linarith), if_neg (by push_cast; linarith), if_neg (by omega)]
  unfold nearest
  rw [lastPlace_halfway low high, half, up, zpow_natCast]
  push_cast
  ring

theorem nearest_ten_pow {k : ℕ} (small : k ≤ 22) : nearest ((10 ^ k : ℕ) : ℚ) = ((10 ^ k : ℕ) : ℚ) := by
  have split : ((10 ^ k : ℕ) : ℚ) = ((5 ^ k : ℕ) : ℚ) * 2 ^ (k : ℤ) := by
    rw [zpow_natCast, show (10 : ℕ) = 5 * 2 from rfl, mul_pow]
    push_cast
    ring
  rw [split]
  refine nearest_exact ?_ (by omega)
  exact (Nat.pow_le_pow_right (by norm_num) small).trans (by norm_num)

/-! ## Shortest decimals -/

/-- `digits · 10 ^ exponent`. -/
structure Decimal where
  digits : Nat
  exponent : Int

def Decimal.value (decimal : Decimal) : ℚ := decimal.digits * 10 ^ decimal.exponent

/-- `digits · 10 ^ exponent`, where a carry may have made one digit too many. -/
def withDigits (count digits : Nat) (exponent : Int) : Decimal :=
  if digits = 10 ^ count then { digits := 10 ^ (count - 1), exponent := exponent + 1 } else { digits, exponent }

/-- The neighbours of `q` with `count` digits, the closer one first. -/
def neighbours (q : ℚ) (count : Nat) : List Decimal :=
  let exponent := Int.log 10 q + 1 - count
  let scaled := q / 10 ^ exponent
  let below := withDigits count ⌊scaled⌋.toNat exponent
  let above := withDigits count ⌈scaled⌉.toNat exponent
  if scaled - ⌊scaled⌋ ≤ ⌈scaled⌉ - scaled then [below, above] else [above, below]

/-- The closest decimal of fewest digits, from `count` on, that reads back as `q`. -/
def shortestFrom (q : ℚ) : Nat → Nat → Decimal
  | 0, count => { digits := ⌊q / 10 ^ (Int.log 10 q + 1 - count)⌋.toNat, exponent := Int.log 10 q + 1 - count }
  | more + 1, count =>
      match (neighbours q count).find? fun decimal => nearest decimal.value = q with
      | some decimal => decimal
      | none => shortestFrom q more (count + 1)

/-- Seventeen digits are always enough. -/
def shortest (q : ℚ) : Decimal := shortestFrom q 17 1

/-! ## Digits of natural numbers -/

/-- `q` has `k` decimal digits. -/
def HasDigits (q k : ℕ) : Prop := 10 ^ (k - 1) ≤ q ∧ q < 10 ^ k ∧ 0 < k

theorem HasDigits.log {q k : ℕ} (digits : HasDigits q k) : Int.log 10 (q : ℚ) + 1 = k := by
  rw [Int.log_natCast, Nat.log_eq_of_pow_le_of_lt_pow digits.1]
  · have := digits.2.2
    omega
  · rw [Nat.sub_add_cancel digits.2.2]
    exact digits.2.1

/-- The decimal has `k` digits before its point and none after it. -/
def Fixed (decimal : Decimal) (k : ℕ) : Prop :=
  ∃ count : ℕ, count ≤ k ∧ HasDigits decimal.digits count ∧ decimal.exponent = ((k - count : ℕ) : ℤ)

theorem scaled_natCast {q k count : ℕ} (le : count ≤ k) :
    (q : ℚ) / 10 ^ ((k : ℤ) - count) = (q : ℚ) / ((10 ^ (k - count) : ℕ) : ℚ) := by
  rw [show (k : ℤ) - count = ((k - count : ℕ) : ℤ) by omega, zpow_natCast]
  norm_num

theorem floor_hasDigits {q k count : ℕ} (digits : HasDigits q k) (some : 0 < count) (le : count ≤ k) :
    HasDigits (q / 10 ^ (k - count)) count := by
  obtain ⟨lower, upper, -⟩ := digits
  refine ⟨?_, ?_, some⟩
  · rw [Nat.le_div_iff_mul_le (by positivity), ← pow_add]
    rwa [show count - 1 + (k - count) = k - 1 by omega]
  · rw [Nat.div_lt_iff_lt_mul (by positivity), ← pow_add]
    rwa [show count + (k - count) = k by omega]

theorem ceil_hasDigits {q k count : ℕ} (digits : HasDigits q k) (some : 0 < count) (le : count ≤ k) :
    let above := ⌈(q : ℚ) / ((10 ^ (k - count) : ℕ) : ℚ)⌉.toNat
    above = 10 ^ count ∨ HasDigits above count := by
  intro above
  obtain ⟨lower, upper, -⟩ := digits
  have positive : (0 : ℚ) < ((10 ^ (k - count) : ℕ) : ℚ) := by positivity
  have least : 10 ^ (count - 1) ≤ above := by
    have : (((10 ^ (count - 1) : ℕ) : ℤ) : ℚ) ≤ (q : ℚ) / ((10 ^ (k - count) : ℕ) : ℚ) := by
      rw [le_div_iff₀ positive]
      norm_cast
      rw [← pow_add]
      rwa [show count - 1 + (k - count) = k - 1 by omega]
    have := this.trans (Int.le_ceil _)
    have : ((10 ^ (count - 1) : ℕ) : ℤ) ≤ ⌈(q : ℚ) / ((10 ^ (k - count) : ℕ) : ℚ)⌉ := by exact_mod_cast this
    omega
  have most : above ≤ 10 ^ count := by
    have : (q : ℚ) / ((10 ^ (k - count) : ℕ) : ℚ) ≤ (((10 ^ count : ℕ) : ℤ) : ℚ) := by
      rw [div_le_iff₀ positive]
      norm_cast
      rw [← pow_add]
      rw [show count + (k - count) = k by omega]
      exact upper.le
    exact Int.toNat_le.mpr (Int.ceil_le.mpr this)
  rcases Nat.lt_or_eq_of_le most with less | same
  · exact .inr ⟨least, less, some⟩
  · exact .inl same

theorem mem_neighbours {q k count : ℕ} (digits : HasDigits q k) (le : count ≤ k) {decimal : Decimal} :
    decimal ∈ neighbours q count ↔
      decimal = withDigits count (q / 10 ^ (k - count)) ((k - count : ℕ) : ℤ) ∨
        decimal = withDigits count ⌈(q : ℚ) / ((10 ^ (k - count) : ℕ) : ℚ)⌉.toNat ((k - count : ℕ) : ℤ) := by
  have below : ⌊(q : ℚ) / ((10 ^ (k - count) : ℕ) : ℚ)⌋.toNat = q / 10 ^ (k - count) := by
    rw [Rat.floor_natCast_div_natCast]
    norm_cast
  unfold neighbours
  dsimp only
  rw [digits.log, scaled_natCast le, below, show (k : ℤ) - count = ((k - count : ℕ) : ℤ) by omega]
  split
  · simp
  · rw [List.mem_cons, List.mem_singleton, or_comm]

theorem withDigits_of_hasDigits {count digits : ℕ} (has : HasDigits digits count) (exponent : ℤ) :
    withDigits count digits exponent = { digits, exponent } := by
  unfold withDigits
  exact if_neg has.2.1.ne

theorem value_power {count k : ℕ} (some : 0 < count) (le : count ≤ k) :
    (withDigits count (10 ^ count) ((k - count : ℕ) : ℤ)).value = ((10 ^ k : ℕ) : ℚ) := by
  unfold withDigits Decimal.value
  rw [if_pos rfl]
  dsimp only
  rw [show ((k - count : ℕ) : ℤ) + 1 = ((k - count + 1 : ℕ) : ℤ) by norm_cast, zpow_natCast]
  norm_cast
  rw [← pow_add]
  congr 1
  omega

/-- A neighbour that reads back has the digits of the number. -/
theorem neighbour_fixed {q k count : ℕ} (digits : HasDigits q k) (some : 0 < count) (le : count ≤ k)
    (power : nearest ((10 ^ k : ℕ) : ℚ) = ((10 ^ k : ℕ) : ℚ)) {decimal : Decimal} (member : decimal ∈ neighbours q count)
    (reads : nearest decimal.value = q) : Fixed decimal k := by
  rcases (mem_neighbours digits le).mp member with rfl | rfl
  · have floor := floor_hasDigits digits some le
    rw [withDigits_of_hasDigits floor]
    exact ⟨count, le, floor, rfl⟩
  · rcases ceil_hasDigits digits some le with carry | ceil
    · rw [carry, value_power some le, power] at reads
      have : 10 ^ k = q := by exact_mod_cast reads
      have := digits.2.1
      omega
    · rw [withDigits_of_hasDigits ceil]
      exact ⟨count, le, ceil, rfl⟩

theorem shortestFrom_fixed {q k : ℕ} (digits : HasDigits q k) (own : nearest (q : ℚ) = q)
    (power : nearest ((10 ^ k : ℕ) : ℚ) = ((10 ^ k : ℕ) : ℚ)) {more count : ℕ} (some : 0 < count) (le : count ≤ k)
    (enough : more + count = 18) : Fixed (shortestFrom q more count) k := by
  induction more generalizing count with
  | zero =>
      unfold shortestFrom
      rw [digits.log, scaled_natCast le, Rat.floor_natCast_div_natCast]
      refine ⟨count, le, ?_, ?_⟩
      · have floor := floor_hasDigits digits some le
        norm_cast
      · show (k : ℤ) - count = _
        omega
  | succ more ih =>
      unfold shortestFrom
      split
      · rename_i decimal found
        exact neighbour_fixed digits some le power (List.mem_of_find?_eq_some found) (by simpa using List.find?_some found)
      · rename_i none
        -- with all its digits the number reads back
        have fewer : count ≠ k := by
          rintro rfl
          have floor := floor_hasDigits digits some le
          rw [Nat.sub_self, pow_zero, Nat.div_one] at floor
          have member := (mem_neighbours digits le).mpr (.inl rfl)
          rw [Nat.sub_self, pow_zero, Nat.div_one, withDigits_of_hasDigits floor] at member
          have unread := List.find?_eq_none.mp none _ member
          simp [Decimal.value, own] at unread
        exact ih (Nat.succ_pos _) (by omega) (by omega)

theorem shortest_fixed {q k : ℕ} (digits : HasDigits q k) (own : nearest (q : ℚ) = q) (small : k ≤ 22) :
    Fixed (shortest q) k :=
  shortestFrom_fixed digits own (nearest_ten_pow small) Nat.one_pos digits.2.2 rfl

/-- A number of 64 bits stays finite. -/
theorem ofRat_isSome_of_le {q : ℚ} (small : |q| ≤ 2 ^ 63) : (ofRat q).isSome = true := by
  have edge : nearest (2 ^ 63) = 2 ^ 63 := by
    have exact_ := nearest_exact (m := 1) (e := 63) (by norm_num) (by norm_num)
    simpa using exact_
  have positive {p : ℚ} (above : 0 < p) (le : p ≤ 2 ^ 63) : |nearest p| ≤ 2 ^ 63 := by
    have upper := nearest_mono above le
    rw [edge] at upper
    have lower := nearest_le (q := -p) (n := 0) (by simpa using above.le)
    rw [nearest_neg, Int.cast_zero, zero_mul, neg_nonpos] at lower
    rwa [abs_of_nonneg lower]
  have bounded : |nearest q| ≤ 2 ^ 63 := by
    rcases lt_trichotomy q 0 with below | rfl | above
    · have turned := positive (neg_pos.mpr below) (by rwa [abs_of_neg below] at small)
      rwa [nearest_neg, abs_neg] at turned
    · rw [nearest_of_multiple (q := 0) (n := 0) (by simp)]
      norm_num
    · exact positive above (by rwa [abs_of_pos above] at small)
  have largest : (2 : ℚ) ^ 63 ≤ largestFinite := by
    unfold largestFinite
    exact (pow_le_pow_right₀ (by norm_num) (by norm_num)).trans (le_mul_of_one_le_left (by positivity) (by norm_num))
  unfold ofRat
  rw [if_pos (bounded.trans largest)]
  rfl

end Binary64
