import KafkaReplication.Consumer.LiteralTokens
import KafkaReplication.Misc.SqlTypes

/-!
# The types of the columns

`getColumnType` and `insertRow` (`consumer_bo/database_writer.cpp:77-85`, `:134-161`) each go
through the kinds of a value for themselves. The column takes the literal for every value but a
boolean, whose literal is a number.
-/

namespace KafkaReplication
open Misc Misc.Sql

namespace Json

/-- The numbers that a `Json::Value` can have: integers of 64 bits and finite doubles. -/
def Holds : Json → Prop
  | int value => -2 ^ 63 ≤ value ∧ value < 2 ^ 63
  | uint value => value < 2 ^ 64
  | real value => IsDoubleSize value
  | null | string _ | bool _ | array _ | object _ => True

end Json

namespace DatabaseWriter

/-- The type whose name `getColumnType` gives. -/
def columnType (value : Json) : ColumnType :=
  if value.isInt then .integer
  else if value.isInt64 then .bigint
  else if value.isDouble then .doublePrecision
  else if value.isBool then .boolean
  else .text

theorem getColumnType_eq (value : Json) : getColumnType value = (columnType value).name := by
  unfold getColumnType columnType
  split_ifs <;> rfl

/-! ## Numbers -/

/-- An integer that is too big for 64 bits with a sign is far from the ends of the doubles. -/
theorem isDoubleSize_nearestDouble {n : Nat} (some_ : 0 < n) (bound : n < 2 ^ 64) :
    IsDoubleSize (nearestDouble n) := by
  have few : Nat.log 2 n - 52 ≤ 11 := by
    have digits : Nat.log 2 n < 64 := Nat.log_lt_of_lt_pow some_.ne' bound
    omega
  have unit : (0 : Rat) < (2 : Rat) ^ (Nat.log 2 n - 52) := by positivity
  have one : (1 : Rat) ≤ (2 : Rat) ^ (Nat.log 2 n - 52) := one_le_pow₀ (by norm_num)
  have least : ((1 : Int) : Rat) ≤ (n : Rat) / (2 : Rat) ^ (Nat.log 2 n - 52) := by
    rw [le_div_iff₀ unit, Int.cast_one, one_mul]
    have power : 2 ^ (Nat.log 2 n - 52) ≤ n :=
      (Nat.pow_le_pow_right (by decide) (Nat.sub_le _ _)).trans (Nat.pow_log_le_self 2 some_.ne')
    exact_mod_cast power
  have most : (n : Rat) / (2 : Rat) ^ (Nat.log 2 n - 52) < ((2 ^ 64 : Int) : Rat) := by
    rw [div_lt_iff₀ unit]
    calc (n : Rat) < (2 : Rat) ^ 64 := by exact_mod_cast bound
      _ ≤ ((2 ^ 64 : Int) : Rat) * (2 : Rat) ^ (Nat.log 2 n - 52) := by
          push_cast
          exact le_mul_of_one_le_right (by positivity) one
  obtain ⟨low, high⟩ := roundHalfEven_bounds least most
  have double : nearestDouble n =
      roundHalfEven ((n : Rat) / (2 : Rat) ^ (Nat.log 2 n - 52)) *
        (2 : Rat) ^ (Nat.log 2 n - 52) := rfl
  rw [double]
  generalize roundHalfEven ((n : Rat) / (2 : Rat) ^ (Nat.log 2 n - 52)) = digits at low high
  have low' : (1 : Rat) ≤ digits := by exact_mod_cast low
  have high' : (digits : Rat) ≤ (2 : Rat) ^ 64 := by exact_mod_cast high
  have product : (1 : Rat) ≤ digits * (2 : Rat) ^ (Nat.log 2 n - 52) :=
    one_le_mul_of_one_le_of_one_le low' one
  right
  rw [abs_of_pos (by linarith)]
  constructor
  · refine le_trans ?_ product
    exact zpow_le_one_of_nonpos₀ (by norm_num) (by norm_num)
  · have sizes : 2 ^ 75 + 2 ^ 971 ≤ 2 ^ 1024 := by decide +kernel
    have sizes' : (2 : Rat) ^ 75 + 2 ^ 971 ≤ 2 ^ 1024 := by exact_mod_cast sizes
    have power : (2 : Rat) ^ (Nat.log 2 n - 52) ≤ (2 : Rat) ^ 11 :=
      pow_le_pow_right₀ (by norm_num) few
    calc (digits : Rat) * (2 : Rat) ^ (Nat.log 2 n - 52) ≤ (2 : Rat) ^ 64 * (2 : Rat) ^ 11 :=
          mul_le_mul high' power unit.le (by positivity)
      _ = (2 : Rat) ^ 75 := (pow_add 2 64 11).symm
      _ ≤ (2 : Rat) ^ 1024 - 2 ^ 971 := le_sub_iff_add_le.mpr sizes'

section Numbers

variable {value : Json}

theorem shownNumber_of_integral {n : Int} (whole : value.integral? = some n)
    (fits : value.isInt64 = true) : shownNumber value = n := by
  rw [shownNumber, if_pos fits, whole]
  rfl

theorem inDoubleRange_shownNumber (holds : value.Holds) (number : value.isDouble = true)
    (wide : value.isInt64 = false) : InDoubleRange (shownNumber value) := by
  rw [shownNumber, if_neg (by simp [wide])]
  apply inDoubleRange_roundSignificant
  cases value with
  | int n =>
    rw [Json.isInt64_of_integral (n := n) rfl holds] at wide
    cases wide
  | uint n =>
    have large : ¬ n < 2 ^ 63 := by
      intro small
      have range : -2 ^ 63 ≤ (n : Int) ∧ (n : Int) < 2 ^ 63 := by omega
      rw [Json.isInt64_of_integral (n := n) rfl range] at wide
      cases wide
    exact isDoubleSize_nearestDouble (by omega) holds
  | real r => exact holds
  | null | string _ | bool _ | array _ | object _ => cases number

/-- The column of a number takes it. -/
theorem assignable_shownNumber (input : ColumnType → Bytes → Prop) (holds : value.Holds)
    (number : value.isDouble = true) :
    Assignable input (columnType value) (.number (shownNumber value)) := by
  unfold columnType
  split
  next fits =>
    obtain ⟨n, whole, low, high⟩ := Json.isInt_spec fits
    rw [shownNumber_of_integral whole (Json.isInt64_of_isInt fits)]
    rw [← nearestInteger_intCast n] at low high
    exact .integer low high
  next =>
    split
    next fits =>
      obtain ⟨n, whole, low, high⟩ := Json.isInt64_spec fits
      rw [shownNumber_of_integral whole fits]
      rw [← nearestInteger_intCast n] at low high
      exact .bigint low high
    next wide =>
      exact .doublePrecision (inDoubleRange_shownNumber holds number (by simpa using wide))

end Numbers

/-! ## Literals -/

/-- The column takes what is written for it, unless that is a boolean. -/
theorem accepts_insertedTokens_iff (input : ColumnType → Bytes → Prop) (jsoncpp : JsonCpp)
    {value : Json} (holds : value.Holds) :
    Accepts input (insertedTokens jsoncpp value) (columnType value) ↔ value.isBool = false := by
  have number (shown : Rat) : IsLiteral (numberTokens shown) (.number shown) :=
    (isLiteral_numberTokens_iff shown shown).mpr rfl
  cases value with
  | bool b =>
    constructor
    · rintro ⟨shown, literal, assignable⟩
      cases literal
      -- a boolean column takes no number
      cases assignable
    · intro noBool
      cases noBool
  | null => exact iff_of_true ⟨_, .null, .null _⟩ rfl
  | string text => exact iff_of_true ⟨_, .string _, .text _⟩ rfl
  | int n => exact iff_of_true ⟨_, number _, assignable_shownNumber input holds rfl⟩ rfl
  | uint n => exact iff_of_true ⟨_, number _, assignable_shownNumber input holds rfl⟩ rfl
  | real r => exact iff_of_true ⟨_, number _, assignable_shownNumber input holds rfl⟩ rfl
  | array _ => exact iff_of_true ⟨_, .string _, .text _⟩ rfl
  | object _ => exact iff_of_true ⟨_, .string _, .text _⟩ rfl

end DatabaseWriter

end KafkaReplication
