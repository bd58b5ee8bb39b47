import KafkaReplication.Misc.SqlNumbers
import KafkaReplication.Misc.StdString

/-!
# Numerals

`std::stoul`, which reads decimal digits, and the hexadecimal numerals that `%X` writes and reads.
Both are numerals to the other reader as long as there are no letters in them, and the rules say
which numbers they have in common.
-/

namespace KafkaReplication.Misc.Numerals

open Sql

/-! ## Decimal -/

/-- `std::stoul(text)`: what comes in front of the digits is blanks and a sign, and what follows
them is not read. `strtoul` negates the result in its own type. -/
def stoul (text : Bytes) : Except Fault UInt64 :=
  let shown := readSign (text.dropWhile isSpace)
  let digits := shown.2.takeWhile isDigit
  if digits = [] ∨ 2 ^ 64 ≤ digitsValue digits then .error (.exception "stoul")
  else if shown.1 then .ok (0 - UInt64.ofNat (digitsValue digits))
  else .ok (UInt64.ofNat (digitsValue digits))

/-! ## Hexadecimal -/

/-- The digits of `%X`. -/
def hexDigit (d : Nat) : UInt8 := if d < 10 then UInt8.ofNat (48 + d) else UInt8.ofNat (55 + d)

/-- The text of `%X`. -/
def hexText (n : Nat) : Bytes :=
  if n < 16 then [hexDigit n] else hexText (n / 16) ++ [hexDigit (n % 16)]

def isHexDigit (c : UInt8) : Bool := isDigit c || inRange 'A' 'F' c || inRange 'a' 'f' c

def hexValue (c : UInt8) : Nat :=
  if isDigit c then c.toNat - 48 else if inRange 'A' 'F' c then c.toNat - 55 else c.toNat - 87

def hexDigitsValue (digits : Bytes) : Nat := digits.foldl (fun n c => 16 * n + hexValue c) 0

section Digits

variable {d : Nat}

theorem isHexDigit_hexDigit (small : d < 16) : isHexDigit (hexDigit d) = true := by
  interval_cases d <;> rfl

theorem hexValue_hexDigit (small : d < 16) : hexValue (hexDigit d) = d := by
  interval_cases d <;> rfl

theorem hexDigit_of_isDigit (small : d < 16) (digit : isDigit (hexDigit d) = true) :
    (hexDigit d).toNat - 48 = d := by
  interval_cases d <;> first | rfl | cases digit

theorem isHexDigit_solid {c : UInt8} (digit : isHexDigit c = true) :
    isSpace c = false ∧ c ≠ chr '-' ∧ c ≠ chr '+' ∧ c ≠ chr '/' := by
  have range : (48 ≤ c.toNat ∧ c.toNat ≤ 57) ∨ (65 ≤ c.toNat ∧ c.toNat ≤ 70) ∨
      (97 ≤ c.toNat ∧ c.toNat ≤ 102) := by
    simpa [isHexDigit, isDigit, inRange, or_assoc] using digit
  have other {m : Char} (outside : (chr m).toNat ∈ [32, 45, 43, 47]) : c ≠ chr m := by
    rintro rfl
    simp only [List.mem_cons, List.not_mem_nil, or_false] at outside
    omega
  refine ⟨?_, other (by decide), other (by decide), other (by decide)⟩
  rw [isSpace, decide_eq_false (other (by decide)), Bool.false_or]
  simp
  omega

end Digits

section Texts

theorem hexText_all (n : Nat) : ∀ c ∈ hexText n, isHexDigit c = true := by
  fun_induction hexText n with
  | case1 n small =>
    intro c member
    rw [List.mem_singleton.mp member]
    exact isHexDigit_hexDigit small
  | case2 n large ih =>
    intro c member
    rcases List.mem_append.mp member with inFront | last
    · exact ih c inFront
    · rw [List.mem_singleton.mp last]
      exact isHexDigit_hexDigit (Nat.mod_lt n (by decide))

theorem hexText_ne_nil (n : Nat) : hexText n ≠ [] := by
  fun_induction hexText n with
  | case1 n small => exact List.cons_ne_nil _ _
  | case2 n large ih => exact List.append_ne_nil_of_left_ne_nil ih _

/-- What `%X` writes is read back. -/
theorem hexDigitsValue_hexText (n : Nat) : hexDigitsValue (hexText n) = n := by
  fun_induction hexText n with
  | case1 n small =>
    rw [hexDigitsValue, List.foldl_cons, List.foldl_nil, hexValue_hexDigit small]
    omega
  | case2 n large ih =>
    rw [hexDigitsValue] at ih ⊢
    rw [List.foldl_append, ih, List.foldl_cons, List.foldl_nil,
      hexValue_hexDigit (Nat.mod_lt n (by decide))]
    omega

/-- The decimal digits at the front of a hexadecimal numeral. -/
def decimalPart (n : Nat) : Bytes := (hexText n).takeWhile isDigit

/-- They are a smaller number, unless the numeral has only one digit. -/
theorem digitsValue_decimalPart (n : Nat) :
    digitsValue (decimalPart n) ≤ n ∧ (10 ≤ n → decimalPart n = [] ∨
      digitsValue (decimalPart n) < n) := by
  unfold decimalPart
  fun_induction hexText n with
  | case1 n small => interval_cases n <;> decide
  | case2 n large ih =>
    rw [List.takeWhile_append]
    split
    · next digits =>
      have all : (hexText (n / 16)).takeWhile isDigit = hexText (n / 16) :=
        List.IsPrefix.eq_of_length (List.takeWhile_prefix isDigit) digits
      rw [all] at ih
      by_cases digit : isDigit (hexDigit (n % 16)) = true
      · have value : digitsValue [hexDigit (n % 16)] = n % 16 := by
          rw [digitsValue, List.foldl_cons, List.foldl_nil,
            hexDigit_of_isDigit (Nat.mod_lt n (by decide)) digit]
          omega
        have more := ih.1
        rw [List.takeWhile_cons, if_pos digit, List.takeWhile_nil, digitsValue_append, value]
        simp only [List.length_singleton, pow_one]
        omega
      · rw [List.takeWhile_cons, if_neg digit, List.append_nil]
        have more := ih.1
        omega
    · have more := ih.1
      omega

end Texts

/-! ## A decimal reader of hexadecimal numerals -/

/-- Neither blanks nor a sign stand in front of a numeral. -/
theorem stoul_hexText (n : Nat) :
    stoul (hexText n) =
      if decimalPart n = [] ∨ 2 ^ 64 ≤ digitsValue (decimalPart n) then
        .error (.exception "stoul")
      else .ok (UInt64.ofNat (digitsValue (decimalPart n))) := by
  obtain ⟨first, digits, text⟩ := List.exists_cons_of_ne_nil (hexText_ne_nil n)
  have digit : isHexDigit first = true := hexText_all n first (text ▸ List.mem_cons_self)
  obtain ⟨noSpace, noMinus, noPlus, -⟩ := isHexDigit_solid digit
  have shown : readSign ((hexText n).dropWhile isSpace) = (false, hexText n) := by
    rw [text, List.dropWhile_cons, noSpace, if_neg Bool.false_ne_true, readSign, if_neg noMinus,
      if_neg noPlus]
  rw [stoul, shown]
  rfl

section OneDigit

variable {n : Nat}

theorem hexText_digit (small : n < 10) : hexText n = [hexDigit n] := by
  rw [hexText, if_pos (by omega)]

theorem stoul_digit (small : n < 10) : stoul (hexText n) = .ok (UInt64.ofNat n) := by
  rw [hexText_digit small]
  interval_cases n <;> rfl

/-- The decimal numeral is the same. -/
theorem decimal_digit (small : n < 10) : decimal n = hexText n := by
  rw [hexText_digit small]
  interval_cases n <;> rfl

end OneDigit

/-- A 32-bit number is read from its hexadecimal numeral if that has one digit and no letter. -/
theorem stoul_hexText_iff (n : UInt32) :
    (∃ read, stoul (hexText n.toNat) = .ok read ∧ read.toUInt32 = n) ↔ n.toNat < 10 := by
  have bound := n.toNat_lt
  obtain ⟨atMost, smaller⟩ := digitsValue_decimalPart n.toNat
  constructor
  · rintro ⟨read, parsed, same⟩
    by_contra large
    rw [stoul_hexText] at parsed
    split at parsed
    · cases parsed
    · next digits =>
      rcases smaller (by omega) with nothing | less
      · exact digits (.inl nothing)
      · cases parsed
        have value := congrArg UInt32.toNat same
        rw [UInt64.toNat_toUInt32, UInt64.toNat_ofNat'] at value
        omega
  · intro small
    refine ⟨_, stoul_digit small, ?_⟩
    rw [← UInt32.toNat_inj, UInt64.toNat_toUInt32, UInt64.toNat_ofNat']
    omega

end KafkaReplication.Misc.Numerals
