import KafkaReplication.Misc.Buffer
import Mathlib.Data.Nat.Log
import Mathlib.Data.Rat.Floor

/-!
# Number formatting of the C++ standard library

Decimal integers and the `%g` conversion of a double, as `operator<<` on a stream
(precision 6) and `snprintf` use them. A finite double is the rational it stands for.
-/

namespace KafkaReplication.Misc

/-- An integer in decimal. -/
def decimal (n : Int) : Bytes := str (toString n)

/-- Round to an integer, ties to even. -/
def roundHalfEven (r : Rat) : Int :=
  let low := r.floor
  let frac := r - low
  if frac < 1 / 2 then low
  else if 1 / 2 < frac then low + 1
  else if low % 2 = 0 then low else low + 1

/-- The exponent `e` with `10 ^ e ≤ r < 10 ^ (e + 1)`, for positive `r`. -/
def decimalExponent (r : Rat) : Int :=
  let guess := (Nat.log 10 r.num.toNat : Int) - Nat.log 10 r.den
  if r < (10 : Rat) ^ guess then guess - 1 else guess

/-- `r` rounded to `precision` significant decimal digits: the digits as one integer and
the exponent of the first of them, for positive `r`. -/
def significant (precision : Nat) (r : Rat) : Int × Int :=
  let e := decimalExponent r
  let m := roundHalfEven (r / (10 : Rat) ^ (e - (precision - 1)))
  if m = 10 ^ precision then (m / 10, e + 1) else (m, e)

/-- A fraction part without its trailing zeros, and without the point when nothing is left. -/
def fraction (digits : Bytes) : Bytes :=
  let kept := (digits.reverse.dropWhile (· = chr '0')).reverse
  if kept = [] then [] else chr '.' :: kept

/-- `%.<precision>g`. -/
def formatG (precision : Nat) (r : Rat) : Bytes :=
  if r = 0 then str "0"
  else
    let sign := if r < 0 then str "-" else []
    let (m, e) := significant precision |r|
    let digits := decimal m
    sign ++
      if e < -4 ∨ (precision : Int) ≤ e then
        let expSign := if e < 0 then str "-" else str "+"
        let expDigits := decimal e.natAbs
        let expText := if expDigits.length < 2 then chr '0' :: expDigits else expDigits
        digits.take 1 ++ fraction (digits.drop 1) ++ str "e" ++ expSign ++ expText
      else if 0 ≤ e then
        digits.take (e.toNat + 1) ++ fraction (digits.drop (e.toNat + 1))
      else
        str "0" ++ fraction (List.replicate (e.natAbs - 1) (chr '0') ++ digits)

/-- An integer as the nearest double, for magnitudes below `2 ^ 64`. -/
def nearestDouble (n : Int) : Rat :=
  let excess := Nat.log 2 n.natAbs - 52
  roundHalfEven ((n : Rat) / (2 : Rat) ^ excess) * (2 : Rat) ^ excess

end KafkaReplication.Misc
