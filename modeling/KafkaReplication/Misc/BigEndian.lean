import Mathlib.Data.Nat.Digits.Lemmas

/-!
# Fixed-width byte encodings of naturals

A natural number as exactly `w` bytes in host order (`leBytes`, least significant
first) and in network order (`beBytes`), and the number a byte list stands for.
The value of a byte list is Mathlib's `Nat.ofDigits` at base 256; what is added
here is the fixed width, under which both directions are round trips.
-/

namespace KafkaReplication.Misc

/-- The `w` bytes of `n` in host order; what does not fit is dropped. -/
def leBytes : Nat → Nat → List UInt8
  | 0, _ => []
  | w + 1, n => UInt8.ofNat n :: leBytes w (n / 256)

/-- The number whose host-order bytes are `bs`. -/
def leValue (bs : List UInt8) : Nat := Nat.ofDigits 256 (bs.map UInt8.toNat)

/-- The `w` bytes of `n` in network order. -/
def beBytes (w n : Nat) : List UInt8 := (leBytes w n).reverse

/-- The number whose network-order bytes are `bs`. -/
def beValue (bs : List UInt8) : Nat := leValue bs.reverse

theorem leValue_cons (b : UInt8) (bs : List UInt8) :
    leValue (b :: bs) = b.toNat + 256 * leValue bs := by
  simp [leValue, Nat.ofDigits_cons]

@[simp] theorem leBytes_length (w n : Nat) : (leBytes w n).length = w := by
  induction w generalizing n with
  | zero => rfl
  | succ w ih => simp [leBytes, ih]

@[simp] theorem beBytes_length (w n : Nat) : (beBytes w n).length = w := by
  simp [beBytes]

theorem leValue_lt (bs : List UInt8) : leValue bs < 256 ^ bs.length := by
  induction bs with
  | nil => simp [leValue]
  | cons b bs ih =>
    have small := b.toNat_lt
    rw [leValue_cons, List.length_cons, pow_succ]
    omega

theorem beValue_lt (bs : List UInt8) : beValue bs < 256 ^ bs.length := by
  simpa [beValue] using leValue_lt bs.reverse

theorem beValue_lt_of_length {bs : List UInt8} {w : Nat} (len : bs.length = w) :
    beValue bs < 256 ^ w := len ▸ beValue_lt bs

/-! A word of the width of a field holds its value. -/

theorem toNat_beValue16 {bs : List UInt8} (len : bs.length = 2) :
    (UInt16.ofNat (beValue bs)).toNat = beValue bs :=
  UInt16.toNat_ofNat_of_lt' (beValue_lt_of_length len)

theorem toNat_beValue32 {bs : List UInt8} (len : bs.length = 4) :
    (UInt32.ofNat (beValue bs)).toNat = beValue bs :=
  UInt32.toNat_ofNat_of_lt' (beValue_lt_of_length len)

theorem toNat_beValue64 {bs : List UInt8} (len : bs.length = 8) :
    (UInt64.ofNat (beValue bs)).toNat = beValue bs :=
  UInt64.toNat_ofNat_of_lt' (beValue_lt_of_length len)

theorem leValue_leBytes {w n : Nat} (small : n < 256 ^ w) : leValue (leBytes w n) = n := by
  induction w generalizing n with
  | zero =>
    have : n = 0 := by simpa using small
    subst this
    rfl
  | succ w ih =>
    have quotient : n / 256 < 256 ^ w := by
      rw [pow_succ] at small
      omega
    rw [leBytes, leValue_cons, ih quotient, UInt8.toNat_ofNat']
    omega

theorem leBytes_leValue (bs : List UInt8) : leBytes bs.length (leValue bs) = bs := by
  induction bs with
  | nil => rfl
  | cons b bs ih =>
    have small := b.toNat_lt
    have quotient : (b.toNat + 256 * leValue bs) / 256 = leValue bs := by omega
    rw [List.length_cons, leValue_cons, leBytes, quotient, ih]
    congr 1
    apply UInt8.toNat_inj.mp
    rw [UInt8.toNat_ofNat']
    omega

theorem beValue_beBytes {w n : Nat} (small : n < 256 ^ w) : beValue (beBytes w n) = n := by
  simpa [beValue, beBytes] using leValue_leBytes small

/-- A count in a field of two bytes. -/
theorem toNat_beBytes16 {n : Nat} (small : n < 2 ^ 16) :
    (UInt16.ofNat (beValue (beBytes 2 n))).toNat = n :=
  (toNat_beValue16 (beBytes_length 2 n)).trans (beValue_beBytes small)

theorem beBytes_beValue (bs : List UInt8) : beBytes bs.length (beValue bs) = bs := by
  have := leBytes_leValue bs.reverse
  rw [List.length_reverse] at this
  rw [beBytes, beValue, this, List.reverse_reverse]

theorem beValue_append (xs ys : List UInt8) :
    beValue (xs ++ ys) = beValue xs * 256 ^ ys.length + beValue ys := by
  simp only [beValue, leValue, List.reverse_append, List.map_append, Nat.ofDigits_append,
    List.length_map, List.length_reverse]
  ring

/-- Swapping the bytes of a host-order load gives the network-order value. -/
theorem beValue_leBytes_leValue (bs : List UInt8) :
    beValue (leBytes bs.length (leValue bs)) = beValue bs := by
  rw [leBytes_leValue]

end KafkaReplication.Misc
