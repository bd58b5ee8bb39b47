import KafkaReplication.Misc.Printf
import Mathlib.Algebra.Order.Field.Power
import Mathlib.Data.Rat.Floor
import Mathlib.Tactic.Ring

/-!
# Significant digits

What `%g` leaves of a number: its nearest decimal with so many significant digits. A number comes
through unchanged exactly if it is such a decimal.
-/

namespace KafkaReplication.Misc

/-! ## The first digit -/

theorem natLog_spec {n : Nat} (pos : 0 < n) :
    (10 : Rat) ^ (Nat.log 10 n : Int) ≤ n ∧ (n : Rat) < 10 ^ ((Nat.log 10 n : Int) + 1) := by
  constructor
  · have low := Nat.pow_log_le_self 10 (Nat.pos_iff_ne_zero.mp pos)
    rw [zpow_natCast]
    exact_mod_cast low
  · have high := Nat.lt_pow_succ_log_self (by decide : 1 < 10) n
    have cast : (Nat.log 10 n : Int) + 1 = ((Nat.log 10 n + 1 : Nat) : Int) := by push_cast; rfl
    rw [cast, zpow_natCast]
    exact_mod_cast high

theorem quotient_bounds {n d : Rat} {a b : Int} (pos : 0 < d)
    (numLow : (10 : Rat) ^ a ≤ n) (numHigh : n < (10 : Rat) ^ (a + 1))
    (denLow : (10 : Rat) ^ b ≤ d) (denHigh : d < (10 : Rat) ^ (b + 1)) :
    (10 : Rat) ^ (a - b - 1) ≤ n / d ∧ n / d < (10 : Rat) ^ (a - b + 1) := by
  have ten : (10 : Rat) ≠ 0 := by norm_num
  constructor
  · rw [le_div_iff₀ pos]
    calc (10 : Rat) ^ (a - b - 1) * d
        ≤ (10 : Rat) ^ (a - b - 1) * (10 : Rat) ^ (b + 1) := by gcongr
      _ = (10 : Rat) ^ a := by rw [← zpow_add₀ ten]; congr 1; ring
      _ ≤ n := numLow
  · rw [div_lt_iff₀ pos]
    calc n
        < (10 : Rat) ^ (a + 1) := numHigh
      _ = (10 : Rat) ^ (a - b + 1) * (10 : Rat) ^ b := by rw [← zpow_add₀ ten]; congr 1; ring
      _ ≤ (10 : Rat) ^ (a - b + 1) * d := by gcongr

/-- The exponent of the first digit. -/
theorem decimalExponent_spec {r : Rat} (pos : 0 < r) :
    (10 : Rat) ^ decimalExponent r ≤ r ∧ r < (10 : Rat) ^ (decimalExponent r + 1) := by
  have numPos : 0 < r.num := Rat.num_pos.mpr pos
  have denPos : (0 : Rat) < r.den := by exact_mod_cast r.den_pos
  obtain ⟨numLow, numHigh⟩ := natLog_spec (n := r.num.toNat) (by omega)
  obtain ⟨denLow, denHigh⟩ := natLog_spec r.den_pos
  obtain ⟨above, below⟩ := quotient_bounds denPos numLow numHigh denLow denHigh
  have numCast : ((r.num.toNat : Nat) : Rat) = (r.num : Rat) := by
    exact_mod_cast congrArg (Int.cast (R := Rat)) (Int.toNat_of_nonneg numPos.le)
  rw [numCast, Rat.num_div_den] at above below
  unfold decimalExponent
  by_cases small : r < (10 : Rat) ^ ((Nat.log 10 r.num.toNat : Int) - Nat.log 10 r.den)
  · simp only [if_pos small]
    exact ⟨above, by rwa [sub_add_cancel]⟩
  · simp only [if_neg small]
    exact ⟨not_lt.mp small, below⟩

/-! ## Rounding -/

theorem roundHalfEven_intCast (n : Int) : roundHalfEven (n : Rat) = n := by
  have whole : (n : Rat).floor = n := Rat.floor_intCast n
  unfold roundHalfEven
  simp only [whole, sub_self]
  rw [if_pos (by norm_num)]

theorem roundHalfEven_bounds {r : Rat} {low high : Int} (lower : (low : Rat) ≤ r)
    (upper : r < high) : low ≤ roundHalfEven r ∧ roundHalfEven r ≤ high := by
  have floor_low : low ≤ r.floor := Rat.le_floor_iff.mpr lower
  have floor_high : r.floor < high := by
    have floor_le : (r.floor : Rat) ≤ r := Rat.floor_le r
    exact_mod_cast lt_of_le_of_lt floor_le upper
  unfold roundHalfEven
  dsimp only
  split
  · omega
  · split
    · omega
    · split <;> omega

/-- `r` between the powers of ten that its digits are counted in. -/
theorem scaled_bounds {precision : Nat} (some_ : 0 < precision) {r : Rat} (pos : 0 < r) :
    (((10 : Int) ^ (precision - 1) : Int) : Rat) ≤
        r / (10 : Rat) ^ (decimalExponent r - ((precision : Int) - 1)) ∧
      r / (10 : Rat) ^ (decimalExponent r - ((precision : Int) - 1)) <
        (((10 : Int) ^ precision : Int) : Rat) := by
  obtain ⟨low, high⟩ := decimalExponent_spec pos
  have ten : (10 : Rat) ≠ 0 := by norm_num
  have scale : (0 : Rat) < (10 : Rat) ^ (decimalExponent r - ((precision : Int) - 1)) := by
    positivity
  constructor
  · rw [le_div_iff₀ scale]
    refine le_of_eq_of_le ?_ low
    push_cast
    rw [← zpow_natCast, ← zpow_add₀ ten]
    congr 1
    omega
  · rw [div_lt_iff₀ scale]
    refine lt_of_lt_of_eq high ?_
    push_cast
    rw [← zpow_natCast, ← zpow_add₀ ten]
    congr 1
    omega

/-- The digits are as many as were asked for. -/
theorem significant_digits {precision : Nat} (some_ : 0 < precision) {r : Rat} (pos : 0 < r) :
    10 ^ (precision - 1) ≤ (significant precision r).1 ∧
      (significant precision r).1 < 10 ^ precision := by
  obtain ⟨low, high⟩ := scaled_bounds some_ pos
  obtain ⟨rounded_low, rounded_high⟩ := roundHalfEven_bounds low high
  have next : (10 : Int) ^ precision = 10 * 10 ^ (precision - 1) := by
    rw [← pow_succ']
    congr 1
    omega
  have one : (0 : Int) < 10 ^ (precision - 1) := by positivity
  unfold significant
  dsimp only
  split
  next carried =>
    rw [carried, next]
    omega
  next uncarried =>
    exact ⟨rounded_low, lt_of_le_of_ne rounded_high uncarried⟩

theorem significant_natural {precision : Nat} (some_ : 0 < precision) {r : Rat} (pos : 0 < r) :
    ∃ digits : Nat, (significant precision r).1 = digits := by
  have low := (significant_digits some_ pos).1
  exact Int.eq_ofNat_of_zero_le (le_trans (by positivity) low)

/-! ## What comes through -/

/-- `r` is a decimal of at most so many significant digits. -/
def IsDecimal (precision : Nat) (r : Rat) : Prop :=
  ∃ digits exponent : Int, |digits| < 10 ^ precision ∧ r = digits * (10 : Rat) ^ exponent

/-- The decimal that `%g` shows for `r`. -/
def roundSignificant (precision : Nat) (r : Rat) : Rat :=
  if r = 0 then 0
  else
    let (m, e) := significant precision |r|
    let rounded := (m : Rat) * (10 : Rat) ^ (e - ((precision : Int) - 1))
    if r < 0 then -rounded else rounded

theorem isDecimal_neg {precision : Nat} {r : Rat} :
    IsDecimal precision (-r) ↔ IsDecimal precision r := by
  have flip {r : Rat} (decimal : IsDecimal precision r) : IsDecimal precision (-r) := by
    obtain ⟨digits, exponent, few, rfl⟩ := decimal
    exact ⟨-digits, exponent, by rwa [abs_neg], by push_cast; ring⟩
  exact ⟨fun decimal => neg_neg r ▸ flip decimal, flip⟩

theorem isDecimal_significant {precision : Nat} (some_ : 0 < precision) {r : Rat} (pos : 0 < r) :
    IsDecimal precision (((significant precision r).1 : Rat) *
      (10 : Rat) ^ ((significant precision r).2 - ((precision : Int) - 1))) := by
  obtain ⟨low, high⟩ := significant_digits some_ pos
  have positive : (0 : Int) < 10 ^ (precision - 1) := by positivity
  exact ⟨_, _, by rwa [abs_of_pos (by omega)], rfl⟩

/-- A decimal of so many digits is its own rounding. -/
theorem significant_of_isDecimal {precision : Nat} (some_ : 0 < precision) {r : Rat} (pos : 0 < r)
    (decimal : IsDecimal precision r) :
    ((significant precision r).1 : Rat) *
      (10 : Rat) ^ ((significant precision r).2 - ((precision : Int) - 1)) = r := by
  obtain ⟨digits, exponent, few, r_eq⟩ := decimal
  have ten : (10 : Rat) ≠ 0 := by norm_num
  have scale : (10 : Rat) ^ (decimalExponent r - ((precision : Int) - 1)) ≠ 0 := by positivity
  obtain ⟨_, high⟩ := scaled_bounds some_ pos
  -- all of the digits are in front of the last one that is kept
  have inFront : decimalExponent r < exponent + precision := by
    have powers : (10 : Rat) ^ decimalExponent r < (10 : Rat) ^ (exponent + precision) := by
      have few' : (digits : Rat) < (10 : Rat) ^ precision := by
        exact_mod_cast (abs_lt.mp few).2
      calc (10 : Rat) ^ decimalExponent r ≤ r := (decimalExponent_spec pos).1
        _ = digits * (10 : Rat) ^ exponent := r_eq
        _ < (10 : Rat) ^ precision * (10 : Rat) ^ exponent := by gcongr
        _ = (10 : Rat) ^ (exponent + precision) := by
            rw [zpow_add₀ ten, zpow_natCast, mul_comm]
    exact (zpow_lt_zpow_iff_right₀ (by norm_num)).mp powers
  obtain ⟨shift, shift_eq⟩ :
      ∃ shift : Nat, exponent = decimalExponent r - ((precision : Int) - 1) + shift :=
    ⟨(exponent - (decimalExponent r - ((precision : Int) - 1))).toNat, by omega⟩
  have whole : r / (10 : Rat) ^ (decimalExponent r - ((precision : Int) - 1)) =
      ((digits * 10 ^ shift : Int) : Rat) := by
    rw [div_eq_iff scale]
    conv_lhs => rw [r_eq, shift_eq, zpow_add₀ ten, zpow_natCast]
    push_cast
    ring
  have uncarried : digits * 10 ^ shift ≠ 10 ^ precision := by
    rw [whole] at high
    exact ne_of_lt (by exact_mod_cast high)
  unfold significant
  simp only [whole, roundHalfEven_intCast, if_neg uncarried]
  rw [← whole, div_mul_cancel₀ r scale]

theorem roundSignificant_of_pos {precision : Nat} {r : Rat} (pos : 0 < r) :
    roundSignificant precision r = ((significant precision r).1 : Rat) *
      (10 : Rat) ^ ((significant precision r).2 - ((precision : Int) - 1)) := by
  simp only [roundSignificant, if_neg pos.ne', if_neg (not_lt.mpr pos.le), abs_of_pos pos]

theorem roundSignificant_of_neg {precision : Nat} {r : Rat} (negative : r < 0) :
    roundSignificant precision r = -roundSignificant precision (-r) := by
  have pos : 0 < -r := neg_pos.mpr negative
  simp only [roundSignificant, if_neg negative.ne, if_neg pos.ne', if_pos negative,
    if_neg (not_lt.mpr pos.le), abs_of_neg negative, abs_of_pos pos]

theorem roundSignificant_pos {precision : Nat} (some_ : 0 < precision) {r : Rat} (pos : 0 < r) :
    0 < roundSignificant precision r := by
  have low := (significant_digits some_ pos).1
  have digits : 0 < (significant precision r).1 := lt_of_lt_of_le (by positivity) low
  have digits' : (0 : Rat) < (significant precision r).1 := by exact_mod_cast digits
  rw [roundSignificant_of_pos pos]
  positivity

/-- The decimals are what comes through unchanged. -/
theorem roundSignificant_eq_self_iff {precision : Nat} (some_ : 0 < precision) (r : Rat) :
    roundSignificant precision r = r ↔ IsDecimal precision r := by
  have positive {r : Rat} (pos : 0 < r) :
      roundSignificant precision r = r ↔ IsDecimal precision r := by
    rw [roundSignificant_of_pos pos]
    exact ⟨fun same => same ▸ isDecimal_significant some_ pos,
      significant_of_isDecimal some_ pos⟩
  rcases lt_trichotomy r 0 with negative | rfl | pos
  · rw [roundSignificant_of_neg negative, neg_eq_iff_eq_neg, positive (neg_pos.mpr negative),
      isDecimal_neg]
  · have zero : IsDecimal precision 0 := ⟨0, 0, by simp, by simp⟩
    exact ⟨fun _ => zero, fun _ => if_pos rfl⟩
  · exact positive pos

end KafkaReplication.Misc
