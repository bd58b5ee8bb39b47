import KafkaReplication.Misc.Significant
import Mathlib.Tactic.Linarith

/-!
# The range of doubles

Which numbers have a nearest finite double that is not zero, and that `%g` does not take a finite
double out of this range: its last digit is far from the first one, and the greatest double is
rounded down.
-/

namespace KafkaReplication.Misc

/-- Zero, or a magnitude that is rounded to a positive finite double. -/
def InDoubleRange (r : Rat) : Prop :=
  r = 0 ∨ ((2 : Rat) ^ (-1075 : Int) < |r| ∧ |r| < (2 : Rat) ^ 1024 - 2 ^ 970)

/-- The magnitudes that finite doubles have. -/
def IsDoubleSize (r : Rat) : Prop :=
  r = 0 ∨ ((2 : Rat) ^ (-1074 : Int) ≤ |r| ∧ |r| ≤ (2 : Rat) ^ 1024 - 2 ^ 971)

theorem roundHalfEven_near (r : Rat) :
    r - 1 / 2 ≤ roundHalfEven r ∧ (roundHalfEven r : Rat) ≤ r + 1 / 2 := by
  have low : (r.floor : Rat) ≤ r := Rat.floor_le r
  have high : r < r.floor + 1 := by exact_mod_cast Rat.lt_floor_add_one r
  unfold roundHalfEven
  dsimp only
  split
  · exact ⟨by linarith, by linarith⟩
  · split
    · push_cast
      exact ⟨by linarith, by linarith⟩
    · split
      · exact ⟨by linarith, by linarith⟩
      · push_cast
        exact ⟨by linarith, by linarith⟩

/-- The digits are counted in the unit of the last one. -/
theorem roundSignificant_scaled {precision : Nat} (some_ : 0 < precision) {r : Rat}
    (pos : 0 < r) :
    roundSignificant precision r =
      roundHalfEven (r / (10 : Rat) ^ (decimalExponent r - ((precision : Int) - 1))) *
        (10 : Rat) ^ (decimalExponent r - ((precision : Int) - 1)) := by
  obtain ⟨fewer, rfl⟩ : ∃ fewer, precision = fewer + 1 := ⟨precision - 1, by omega⟩
  have ten : (10 : Rat) ≠ 0 := by norm_num
  rw [roundSignificant_of_pos pos]
  unfold significant
  dsimp only
  split
  next carried =>
    have digits : (10 : Int) ^ (fewer + 1) / 10 = 10 ^ fewer := by
      rw [pow_succ]
      exact Int.mul_ediv_cancel _ (by decide)
    have exponent : decimalExponent r + 1 - (((fewer + 1 : Nat) : Int) - 1) =
        decimalExponent r - (((fewer + 1 : Nat) : Int) - 1) + 1 := by ring
    dsimp only
    rw [carried, digits, exponent, zpow_add_one₀ ten]
    push_cast
    ring
  next => rfl

section Range

variable {r : Rat}

theorem roundSignificant_low (pos : 0 < r) (low : (2 : Rat) ^ (-1074 : Int) ≤ r) :
    (2 : Rat) ^ (-1075 : Int) < roundSignificant 6 r := by
  obtain ⟨least, _⟩ := scaled_bounds (by decide : 0 < 6) pos
  have near := (roundHalfEven_near
    (r / (10 : Rat) ^ (decimalExponent r - (((6 : Nat) : Int) - 1)))).1
  have half : (2 : Rat) ^ (-1075 : Int) = (2 : Rat) ^ (-1074 : Int) / 2 := by
    rw [div_eq_mul_inv, ← zpow_sub_one₀ (by norm_num)]
    rfl
  have whole : r = r / (10 : Rat) ^ (decimalExponent r - (((6 : Nat) : Int) - 1)) *
      (10 : Rat) ^ (decimalExponent r - (((6 : Nat) : Int) - 1)) := by
    field_simp
  rw [roundSignificant_scaled (by decide) pos]
  generalize r / (10 : Rat) ^ (decimalExponent r - (((6 : Nat) : Int) - 1)) = digits at *
  have unit : (0 : Rat) < (10 : Rat) ^ (decimalExponent r - (((6 : Nat) : Int) - 1)) := by
    positivity
  generalize (10 : Rat) ^ (decimalExponent r - (((6 : Nat) : Int) - 1)) = scale at *
  -- rounding takes half a unit at most, and there are many
  have many : digits / 2 < roundHalfEven digits := by
    push_cast at least
    linarith
  calc (2 : Rat) ^ (-1075 : Int) ≤ r / 2 := by rw [half]; linarith
    _ = digits / 2 * scale := by rw [whole]; ring
    _ < roundHalfEven digits * scale := by gcongr

/-- Where the greatest double lies among the decimals. -/
theorem greatestDouble_size :
    (2 : Rat) ^ 1024 - 2 ^ 971 < (10 : Rat) ^ 309 ∧
      (10 : Rat) ^ 308 < (2 : Rat) ^ 1024 - 2 ^ 970 ∧
      5 * ((2 : Rat) ^ 1024 - 2 ^ 971) < 898847 * (10 : Rat) ^ 303 ∧
      179769 * (10 : Rat) ^ 303 < (2 : Rat) ^ 1024 - 2 ^ 970 := by
  have sizes : 2 ^ 1024 < 10 ^ 309 + 2 ^ 971 ∧ 10 ^ 308 + 2 ^ 970 < 2 ^ 1024 ∧
      5 * 2 ^ 1024 < 898847 * 10 ^ 303 + 5 * 2 ^ 971 ∧
        179769 * 10 ^ 303 + 2 ^ 970 < 2 ^ 1024 := by decide +kernel
  obtain ⟨below, above, most, shown⟩ := sizes
  have below' : (2 : Rat) ^ 1024 < 10 ^ 309 + 2 ^ 971 := by exact_mod_cast below
  have above' : (10 : Rat) ^ 308 + 2 ^ 970 < 2 ^ 1024 := by exact_mod_cast above
  have most' : 5 * (2 : Rat) ^ 1024 < 898847 * 10 ^ 303 + 5 * 2 ^ 971 := by exact_mod_cast most
  have shown' : 179769 * (10 : Rat) ^ 303 + 2 ^ 970 < 2 ^ 1024 := by exact_mod_cast shown
  refine ⟨sub_lt_iff_lt_add.mpr below', lt_sub_iff_add_lt.mpr above', ?_,
    lt_sub_iff_add_lt.mpr shown'⟩
  rw [mul_sub]
  exact sub_lt_iff_lt_add.mpr most'

theorem roundSignificant_high (pos : 0 < r) (high : r ≤ (2 : Rat) ^ 1024 - 2 ^ 971) :
    roundSignificant 6 r < (2 : Rat) ^ 1024 - 2 ^ 970 := by
  obtain ⟨below, above, greatest, shown⟩ := greatestDouble_size
  obtain ⟨least, most⟩ := scaled_bounds (by decide : 0 < 6) pos
  obtain ⟨lower, _⟩ := decimalExponent_spec pos
  have exponent : decimalExponent r < 309 := by
    have powers : (10 : Rat) ^ decimalExponent r < (10 : Rat) ^ (309 : Int) :=
      lt_of_le_of_lt (lower.trans high) below
    exact (zpow_lt_zpow_iff_right₀ (by norm_num)).mp powers
  rw [roundSignificant_scaled (by decide) pos]
  by_cases smaller : decimalExponent r < 308
  · have digits := (roundHalfEven_bounds least most).2
    calc (roundHalfEven (r / (10 : Rat) ^ (decimalExponent r - (((6 : Nat) : Int) - 1))) : Rat) *
          (10 : Rat) ^ (decimalExponent r - (((6 : Nat) : Int) - 1))
        ≤ 10 ^ 6 * (10 : Rat) ^ (302 : Int) := by
          gcongr
          · exact_mod_cast digits
          · norm_num
          · push_cast
            omega
      _ = (10 : Rat) ^ 308 := (pow_add (10 : Rat) 6 302).symm
      _ < (2 : Rat) ^ 1024 - 2 ^ 970 := above
  · have unit : decimalExponent r - (((6 : Nat) : Int) - 1) = 303 := by
      push_cast
      omega
    rw [unit]
    have near := (roundHalfEven_near (r / (10 : Rat) ^ (303 : Int))).2
    have quotient : r / (10 : Rat) ^ (303 : Int) < 898847 / 5 := by
      rw [div_lt_iff₀ (by positivity)]
      calc r ≤ (2 : Rat) ^ 1024 - 2 ^ 971 := high
        _ < 898847 / 5 * (10 : Rat) ^ 303 := by
            rw [div_mul_eq_mul_div, lt_div_iff₀ (by norm_num), mul_comm]
            exact greatest
    have digits : roundHalfEven (r / (10 : Rat) ^ (303 : Int)) ≤ 179769 := by
      have rounded : (roundHalfEven (r / (10 : Rat) ^ (303 : Int)) : Rat) < 179770 := by
        linarith
      have rounded' : roundHalfEven (r / (10 : Rat) ^ (303 : Int)) < 179770 := by
        exact_mod_cast rounded
      omega
    calc (roundHalfEven (r / (10 : Rat) ^ (303 : Int)) : Rat) * (10 : Rat) ^ (303 : Int)
        ≤ 179769 * (10 : Rat) ^ (303 : Int) := by
          gcongr
          exact_mod_cast digits
      _ < (2 : Rat) ^ 1024 - 2 ^ 970 := shown

/-- Six digits of a finite double are in the range. -/
theorem inDoubleRange_roundSignificant (size : IsDoubleSize r) :
    InDoubleRange (roundSignificant 6 r) := by
  rcases size with rfl | ⟨low, high⟩
  · exact .inl (if_pos rfl)
  · right
    have positive : ∀ {r : Rat}, 0 < r → (2 : Rat) ^ (-1074 : Int) ≤ r →
        r ≤ (2 : Rat) ^ 1024 - 2 ^ 971 → (2 : Rat) ^ (-1075 : Int) < |roundSignificant 6 r| ∧
          |roundSignificant 6 r| < (2 : Rat) ^ 1024 - 2 ^ 970 := by
      intro r pos low high
      rw [abs_of_pos (roundSignificant_pos (by decide) pos)]
      exact ⟨roundSignificant_low pos low, roundSignificant_high pos high⟩
    rcases lt_trichotomy r 0 with negative | rfl | pos
    · rw [abs_of_neg negative] at low high
      rw [roundSignificant_of_neg negative, abs_neg]
      exact positive (neg_pos.mpr negative) low high
    · rw [abs_zero] at low
      exact absurd low (not_le.mpr (by positivity))
    · rw [abs_of_pos pos] at low high
      exact positive pos low high

end Range

end KafkaReplication.Misc
