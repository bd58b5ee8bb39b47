import KafkaReplication.Misc.Significant
import KafkaReplication.Misc.SqlTokens

/-!
# Numbers as the lexer reads them

The texts that `operator<<` writes for integers and doubles, read by PostgreSQL: the number itself
for an integer, the decimal that `%g` shows for a double. A minus is a token of its own.
-/

namespace KafkaReplication.Misc.Sql

/-! ## Digits -/

/-- Decimal digits and nothing else. -/
def AllDigits (digits : Bytes) : Prop := ∀ c ∈ digits, isDigit c = true

theorem digitsValue_from (digits : Bytes) (start : Nat) :
    digits.foldl (fun n c => 10 * n + (c.toNat - 48)) start =
      start * 10 ^ digits.length + digitsValue digits := by
  induction digits generalizing start with
  | nil => simp [digitsValue]
  | cons c digits ih =>
    rw [digitsValue, List.foldl_cons, List.foldl_cons, ih, ih (10 * 0 + _), List.length_cons,
      pow_succ]
    ring

theorem digitsValue_append (front back : Bytes) :
    digitsValue (front ++ back) = digitsValue front * 10 ^ back.length + digitsValue back := by
  rw [digitsValue, List.foldl_append, digitsValue_from]
  rfl

theorem digitsValue_zeros (count : Nat) : digitsValue (List.replicate count (chr '0')) = 0 := by
  induction count with
  | zero => rfl
  | succ count ih =>
    rw [List.replicate_succ, ← List.singleton_append, digitsValue_append, ih]
    have zero : digitsValue [chr '0'] = 0 := rfl
    rw [zero, Nat.zero_mul]

section Written

/-- The digits of a natural number. -/
def digitsOf (n : Nat) : Bytes := (Nat.toDigits 10 n).map chr

theorem toNat_chr_digit {c : Char} (digit : c.isDigit) :
    (chr c).toNat = c.toNat ∧ 48 ≤ c.toNat ∧ c.toNat ≤ 57 := by
  have range := Char.isDigit_iff_toNat.mp digit
  have zero : ('0' : Char).toNat = 48 := rfl
  have nine : ('9' : Char).toNat = 57 := rfl
  have small : c.toNat < 256 := by omega
  refine ⟨?_, by omega, by omega⟩
  rw [chr, UInt8.toNat_ofNat']
  exact Nat.mod_eq_of_lt small

theorem digitsOf_all (n : Nat) : AllDigits (digitsOf n) := by
  intro c member
  obtain ⟨d, written, rfl⟩ := List.mem_map.mp member
  have digit := Nat.isDigit_of_mem_toDigits (by decide) (by decide) written
  obtain ⟨same, low, high⟩ := toNat_chr_digit digit
  simp [isDigit, inRange, same, low, high]

theorem digitsOf_ne_nil (n : Nat) : digitsOf n ≠ [] := by
  simp [digitsOf, Nat.toDigits_ne_nil]

theorem length_digitsOf {n count : Nat} (low : 10 ^ count ≤ n) (high : n < 10 ^ (count + 1)) :
    (digitsOf n).length = count + 1 := by
  rw [digitsOf, List.length_map]
  have atMost := (Nat.length_toDigits_le_iff (by decide : 1 < 10) (Nat.succ_pos count)).mpr high
  have atLeast : ¬(Nat.toDigits 10 n).length ≤ count := by
    rcases Nat.eq_zero_or_pos count with rfl | some_
    · have := Nat.length_toDigits_pos (b := 10) (n := n)
      omega
    · rw [Nat.length_toDigits_le_iff (by decide : 1 < 10) some_]
      omega
  omega

theorem digitsValue_digitsOf (n : Nat) : digitsValue (digitsOf n) = n := by
  have agree (digits : List Char) (start : Nat) (all : ∀ c ∈ digits, c.isDigit) :
      (digits.map chr).foldl (fun n c => 10 * n + (c.toNat - 48)) start =
        Nat.ofDigitChars 10 digits start := by
    induction digits generalizing start with
    | nil => rfl
    | cons c digits ih =>
      have value := (toNat_chr_digit (all c List.mem_cons_self)).1
      rw [List.map_cons, List.foldl_cons, Nat.ofDigitChars_cons, value]
      exact ih _ (fun d member => all d (List.mem_cons_of_mem c member))
  rw [digitsValue, digitsOf, agree]
  · exact Nat.ofDigitChars_toDigits (by decide) (by decide)
  · intro c member
    exact Nat.isDigit_of_mem_toDigits (by decide) (by decide) member

theorem decimal_natCast (n : Nat) : decimal n = digitsOf n := by
  have shown : toString (n : Int) = n.repr := rfl
  rw [decimal, str, shown, Nat.toList_repr]
  rfl

theorem decimal_of_neg {n : Int} (negative : n < 0) :
    decimal n = chr '-' :: digitsOf n.natAbs := by
  cases n with
  | ofNat n => exact absurd negative (by simp)
  | negSucc n =>
    have shown : toString (Int.negSucc n) = "-" ++ (n + 1).repr := rfl
    rw [decimal, str, shown, String.toList_append, Nat.toList_repr]
    rfl

end Written

/-! ## Numbers -/

/-- Nothing here goes on with a number. -/
def EndsNumber (rest : Bytes) : Prop :=
  (rest.head?.any fun c => isWordPart c || c = chr '.') = false

theorem EndsNumber.head {c : UInt8} {rest : Bytes} (ends : EndsNumber (c :: rest)) :
    isWordStart c = false ∧ isDigit c = false ∧ decide (c = chr '.') = false := by
  have stop : (isWordPart c || decide (c = chr '.')) = false := ends
  rw [Bool.or_eq_false_iff, isWordPart, Bool.or_eq_false_iff, Bool.or_eq_false_iff] at stop
  exact ⟨stop.1.1.1, stop.1.1.2, stop.2⟩

theorem EndsNumber.noDigit {rest : Bytes} (ends : EndsNumber rest) :
    rest.head?.any isDigit = false := by
  cases rest with
  | nil => rfl
  | cons c rest => exact ends.head.2.1

theorem EndsNumber.runsOn {rest : Bytes} (ends : EndsNumber rest) : Sql.runsOn rest = false := by
  cases rest with
  | nil => rfl
  | cons c rest =>
    obtain ⟨noStart, _, noPoint⟩ := ends.head
    exact Bool.or_eq_false_iff.mpr ⟨noStart, noPoint⟩

theorem EndsNumber.readExponent {rest : Bytes} (ends : EndsNumber rest) :
    readExponent rest = (0, rest) := by
  cases rest with
  | nil => rfl
  | cons c rest =>
    have noExponent : ¬(c = chr 'e' ∨ c = chr 'E') := by
      rintro (rfl | rfl) <;> cases ends
    rw [Sql.readExponent, if_neg noExponent]

/-- The digits behind the point, with the point. -/
def pointed (places : Bytes) : Bytes := if places = [] then [] else chr '.' :: places

/-- The parts of a number: its digits, those behind the point, its exponent. -/
theorem readNumber_parts {whole places tail rest : Bytes} {exponent : Int}
    (wholeDigits : AllDigits whole) (placesDigits : AllDigits places)
    (noDigit : tail.head?.any isDigit = false) (noPoint : tail.head? ≠ some (chr '.'))
    (scaled : readExponent tail = (exponent, rest)) (ends : runsOn rest = false) :
    readNumber (whole ++ (pointed places ++ tail)) =
      some (digitsValue (whole ++ places) * (10 : Rat) ^ (exponent - places.length), rest) := by
  have point : (pointed places ++ tail).head?.any isDigit = false := by
    unfold pointed
    split
    · exact noDigit
    · rfl
  have fraction_read : readFraction (pointed places ++ tail) = (places, tail) := by
    unfold pointed
    split
    next none_ =>
      rw [none_]
      cases tail with
      | nil => rfl
      | cons c tail => exact if_neg fun same => noPoint (congrArg some same)
    next some_ =>
      rw [List.cons_append, readFraction, if_pos rfl, takeWhile_run placesDigits noDigit,
        dropWhile_run placesDigits noDigit]
  simp only [readNumber, takeWhile_run wholeDigits point, dropWhile_run wholeDigits point,
    fraction_read, scaled, ends, Bool.false_eq_true, if_false]

theorem readNumber_plain {whole places rest : Bytes} (wholeDigits : AllDigits whole)
    (placesDigits : AllDigits places) (ends : EndsNumber rest) :
    readNumber (whole ++ (pointed places ++ rest)) =
      some (digitsValue (whole ++ places) * (10 : Rat) ^ (-(places.length : Int)), rest) := by
  have noPoint : rest.head? ≠ some (chr '.') := by
    intro point
    rw [EndsNumber, point] at ends
    cases ends
  rw [readNumber_parts wholeDigits placesDigits ends.noDigit noPoint ends.readExponent ends.runsOn,
    zero_sub]

/-- The sign of an exponent, as `%g` writes it. -/
def exponentSign (e : Int) : Bytes := if e < 0 then str "-" else str "+"

theorem readNumber_scaled {whole places shown rest : Bytes} {e : Int}
    (wholeDigits : AllDigits whole) (placesDigits : AllDigits places)
    (shownDigits : AllDigits shown) (some_ : shown ≠ []) (value : digitsValue shown = e.natAbs)
    (ends : EndsNumber rest) :
    readNumber (whole ++ (pointed places ++ (str "e" ++ (exponentSign e ++ (shown ++ rest))))) =
      some (digitsValue (whole ++ places) * (10 : Rat) ^ (e - places.length), rest) := by
  have taken := takeWhile_run shownDigits ends.noDigit
  have dropped := dropWhile_run shownDigits ends.noDigit
  have scaled : readExponent (str "e" ++ (exponentSign e ++ (shown ++ rest))) = (e, rest) := by
    have letter (tail : Bytes) : str "e" ++ tail = chr 'e' :: tail := rfl
    rw [letter, readExponent, if_pos (.inl rfl)]
    unfold exponentSign
    by_cases negative : e < 0
    · have sign : readSign (str "-" ++ (shown ++ rest)) = (true, shown ++ rest) := rfl
      rw [if_pos negative, sign]
      simp only [taken, dropped, if_neg some_, value, if_true, Prod.mk.injEq, and_true]
      omega
    · have sign : readSign (str "+" ++ (shown ++ rest)) = (false, shown ++ rest) := rfl
      rw [if_neg negative, sign]
      simp only [taken, dropped, if_neg some_, value, Bool.false_eq_true, if_false,
        Prod.mk.injEq, and_true]
      omega
  have noPoint : (str "e" ++ (exponentSign e ++ (shown ++ rest))).head? ≠ some (chr '.') :=
    fun point => absurd (Option.some.inj point) (by decide)
  exact readNumber_parts wholeDigits placesDigits rfl noPoint scaled ends.runsOn

/-! ## The texts of doubles -/

/-- Digits without the zeros at their end. -/
def kept (digits : Bytes) : Bytes := (digits.reverse.dropWhile (· = chr '0')).reverse

theorem kept_spec (digits : Bytes) :
    ∃ count, digits = kept digits ++ List.replicate count (chr '0') := by
  refine ⟨(digits.reverse.takeWhile (· = chr '0')).length, ?_⟩
  have zeros : digits.reverse.takeWhile (· = chr '0') =
      List.replicate (digits.reverse.takeWhile (· = chr '0')).length (chr '0') := by
    apply List.eq_replicate_of_mem
    intro c member
    have zero := List.all_eq_true.mp List.all_takeWhile c member
    exact of_decide_eq_true zero
  have parts : digits.reverse.takeWhile (· = chr '0') ++ digits.reverse.dropWhile (· = chr '0') =
      digits.reverse := List.takeWhile_append_dropWhile
  rw [← List.reverse_inj, kept, List.reverse_append, List.reverse_replicate, ← zeros,
    List.reverse_reverse, parts]

theorem kept_all {digits : Bytes} (all : AllDigits digits) : AllDigits (kept digits) := by
  obtain ⟨count, split⟩ := kept_spec digits
  intro c member
  apply all c
  rw [split]
  exact List.mem_append_left _ member

/-- Zeros at the end of the places say nothing. -/
theorem digitsValue_kept (whole digits : Bytes) (exponent : Int) :
    (digitsValue (whole ++ kept digits) : Rat) * (10 : Rat) ^ (exponent - (kept digits).length) =
      digitsValue (whole ++ digits) * (10 : Rat) ^ (exponent - digits.length) := by
  obtain ⟨count, split⟩ := kept_spec digits
  have ten : (10 : Rat) ≠ 0 := by norm_num
  have longer : digits.length = (kept digits).length + count := by
    conv_lhs => rw [split]
    rw [List.length_append, List.length_replicate]
  have value : digitsValue (whole ++ digits) = digitsValue (whole ++ kept digits) * 10 ^ count := by
    conv_lhs => rw [split]
    rw [← List.append_assoc, digitsValue_append, digitsValue_zeros, List.length_replicate,
      Nat.add_zero]
  have powers : exponent - ((kept digits).length : Int) =
      count + (exponent - (digits.length : Int)) := by
    rw [longer]
    push_cast
    ring
  rw [value, powers, zpow_add₀ ten, zpow_natCast]
  push_cast
  ring

theorem AllDigits.append {front back : Bytes} (front_ : AllDigits front) (back_ : AllDigits back) :
    AllDigits (front ++ back) := List.forall_mem_append.mpr ⟨front_, back_⟩

theorem AllDigits.take {digits : Bytes} (all : AllDigits digits) (count : Nat) :
    AllDigits (digits.take count) := fun c member => all c (List.mem_of_mem_take member)

theorem AllDigits.drop {digits : Bytes} (all : AllDigits digits) (count : Nat) :
    AllDigits (digits.drop count) := fun c member => all c (List.mem_of_mem_drop member)

theorem allDigits_zeros (count : Nat) : AllDigits (List.replicate count (chr '0')) := by
  intro c member
  rw [List.eq_of_mem_replicate member]
  rfl

/-- Two digits at least. -/
def padded (e : Int) : Bytes :=
  if (decimal e.natAbs).length < 2 then chr '0' :: decimal e.natAbs else decimal e.natAbs

theorem padded_spec (e : Int) :
    AllDigits (padded e) ∧ padded e ≠ [] ∧ digitsValue (padded e) = e.natAbs := by
  unfold padded
  rw [decimal_natCast]
  split
  · refine ⟨(allDigits_zeros 1).append (digitsOf_all _), List.cons_ne_nil _ _, ?_⟩
    rw [← List.singleton_append, digitsValue_append, digitsValue_digitsOf]
    have zero : digitsValue [chr '0'] = 0 := rfl
    rw [zero, Nat.zero_mul, Nat.zero_add]
  · exact ⟨digitsOf_all _, digitsOf_ne_nil _, digitsValue_digitsOf _⟩

/-- What `%g` writes for a positive number. -/
def positiveText (precision : Nat) (digits : Bytes) (e : Int) : Bytes :=
  if e < -4 ∨ (precision : Int) ≤ e then
    digits.take 1 ++ (pointed (kept (digits.drop 1)) ++ (str "e" ++ (exponentSign e ++ padded e)))
  else if 0 ≤ e then
    digits.take (e.toNat + 1) ++ pointed (kept (digits.drop (e.toNat + 1)))
  else
    str "0" ++ pointed (kept (List.replicate (e.natAbs - 1) (chr '0') ++ digits))

section Positive

variable {precision : Nat} {digits rest : Bytes}

theorem readNumber_positiveText (e : Int) (all : AllDigits digits)
    (count : digits.length = precision) (some_ : 0 < precision) (ends : EndsNumber rest) :
    readNumber (positiveText precision digits e ++ rest) =
      some (digitsValue digits * (10 : Rat) ^ (e - ((precision : Int) - 1)), rest) := by
  unfold positiveText
  split
  next far =>
    obtain ⟨shownDigits, shown, value⟩ := padded_spec e
    rw [List.append_assoc, List.append_assoc, List.append_assoc, List.append_assoc,
      readNumber_scaled (all.take 1) (kept_all (all.drop 1)) shownDigits shown value ends,
      digitsValue_kept, List.take_append_drop, List.length_drop, count, Nat.cast_sub some_]
    rfl
  next near =>
    rw [not_or, not_lt, not_le] at near
    split
    next whole =>
      have places : ((digits.drop (e.toNat + 1)).length : Int) = precision - 1 - e := by
        rw [List.length_drop, count]
        omega
      rw [List.append_assoc, readNumber_plain (all.take _) (kept_all (all.drop _)) ends,
        ← zero_sub, digitsValue_kept, List.take_append_drop, places]
      congr 4
      ring
    next below =>
      have zeros := allDigits_zeros (e.natAbs - 1)
      have places : ((List.replicate (e.natAbs - 1) (chr '0') ++ digits).length : Int) =
          precision - 1 - e := by
        rw [List.length_append, List.length_replicate, count]
        omega
      have leading : digitsValue (str "0" ++ (List.replicate (e.natAbs - 1) (chr '0') ++ digits)) =
          digitsValue digits := by
        rw [← List.append_assoc, digitsValue_append]
        have none_ : digitsValue (str "0" ++ List.replicate (e.natAbs - 1) (chr '0')) = 0 :=
          digitsValue_zeros (e.natAbs - 1 + 1)
        rw [none_, Nat.zero_mul, Nat.zero_add]
      have zero : AllDigits (str "0") := allDigits_zeros 1
      rw [List.append_assoc, readNumber_plain zero (kept_all (zeros.append all)) ends,
        ← zero_sub, digitsValue_kept, leading, places]
      congr 4
      ring

theorem positiveText_head (e : Int) (all : AllDigits digits) (some_ : digits ≠ []) :
    ∃ c tail, positiveText precision digits e = c :: tail ∧ isDigit c = true := by
  obtain ⟨first, digits, rfl⟩ := List.exists_cons_of_ne_nil some_
  have digit : isDigit first = true := all first List.mem_cons_self
  unfold positiveText
  split
  · exact ⟨first, _, rfl, digit⟩
  · split
    · exact ⟨first, _, rfl, digit⟩
    · exact ⟨chr '0', _, rfl, rfl⟩

end Positive

theorem formatG_of_pos (precision : Nat) {r : Rat} (pos : 0 < r) :
    formatG precision r =
      positiveText precision (decimal (significant precision r).1)
        (significant precision r).2 := by
  unfold formatG positiveText
  simp only [if_neg pos.ne', if_neg (not_lt.mpr pos.le), abs_of_pos pos, List.nil_append,
    exponentSign, padded, List.append_assoc]
  rfl

theorem formatG_of_neg (precision : Nat) {r : Rat} (negative : r < 0) :
    formatG precision r = chr '-' :: formatG precision (-r) := by
  have pos : 0 < -r := neg_pos.mpr negative
  unfold formatG
  simp only [if_neg negative.ne, if_neg pos.ne', if_pos negative, if_neg (not_lt.mpr pos.le),
    abs_of_neg negative, abs_of_pos pos]
  rfl

/-! ## Characters of numbers -/

/-- Digits, signs, a point and an exponent. -/
def NumberChars (text : Bytes) : Prop := ∀ c ∈ text, isDigit c = true ∨ c ∈ str "+-.e"

theorem AllDigits.numberChars {digits : Bytes} (all : AllDigits digits) : NumberChars digits :=
  fun c member => .inl (all c member)

theorem NumberChars.append {front back : Bytes} (front_ : NumberChars front)
    (back_ : NumberChars back) : NumberChars (front ++ back) :=
  List.forall_mem_append.mpr ⟨front_, back_⟩

theorem numberChars_mark {c : UInt8} (mark : c ∈ str "+-.e") : NumberChars [c] := by
  intro d member
  rw [List.mem_singleton.mp member]
  exact .inr mark

theorem numberChars_pointed {places : Bytes} (all : AllDigits places) :
    NumberChars (pointed places) := by
  unfold pointed
  split
  · intro c member
    cases member
  · exact (numberChars_mark (by decide)).append all.numberChars

theorem numberChars_decimal (n : Int) : NumberChars (decimal n) := by
  rcases lt_or_ge n 0 with negative | nonneg
  · rw [decimal_of_neg negative]
    exact (numberChars_mark (by decide)).append (digitsOf_all _).numberChars
  · obtain ⟨m, rfl⟩ := Int.eq_ofNat_of_zero_le nonneg
    rw [decimal_natCast]
    exact (digitsOf_all m).numberChars

theorem numberChars_positiveText (precision : Nat) {digits : Bytes} (all : AllDigits digits)
    (e : Int) : NumberChars (positiveText precision digits e) := by
  have sign : NumberChars (exponentSign e) := by
    unfold exponentSign
    split
    · exact numberChars_mark (by decide)
    · exact numberChars_mark (by decide)
  have letter : NumberChars (str "e") := numberChars_mark (by decide)
  unfold positiveText
  split
  · exact (all.take 1).numberChars.append ((numberChars_pointed (kept_all (all.drop 1))).append
      (letter.append (sign.append (padded_spec e).1.numberChars)))
  · split
    · exact (all.take _).numberChars.append (numberChars_pointed (kept_all (all.drop _)))
    · exact (allDigits_zeros 1).numberChars.append
        (numberChars_pointed (kept_all ((allDigits_zeros _).append all)))

theorem numberChars_formatG {precision : Nat} (some_ : 0 < precision) (r : Rat) :
    NumberChars (formatG precision r) := by
  have positive {r : Rat} (pos : 0 < r) : NumberChars (formatG precision r) := by
    obtain ⟨m, m_eq⟩ := significant_natural some_ pos
    rw [formatG_of_pos precision pos, m_eq, decimal_natCast]
    exact numberChars_positiveText precision (digitsOf_all m) _
  rcases lt_trichotomy r 0 with negative | rfl | pos
  · rw [formatG_of_neg precision negative]
    exact (numberChars_mark (by decide)).append (positive (neg_pos.mpr negative))
  · have zero : formatG precision 0 = str "0" := if_pos rfl
    rw [zero]
    exact (allDigits_zeros 1).numberChars
  · exact positive pos

/-! ## Tokens of numbers -/

/-- A minus sign is an operator. -/
def numberTokens (value : Rat) : List Token :=
  if value < 0 then [.operator [chr '-'], .number (-value)] else [.number value]

theorem ReadsAs.digits {c : UInt8} {tail rest : Bytes} {value : Rat} (digit : isDigit c = true)
    (read : readNumber (c :: tail ++ rest) = some (value, rest)) :
    ReadsAs (c :: tail) [.number value] rest := by
  have range := isDigit_toNat digit
  have noQuote : c ≠ chr '"' := ne_of_toNat toNat_quote (by omega)
  have noMark : c ≠ quoteMark := ne_of_toNat toNat_quoteMark (by omega)
  apply ReadsAs.of_next
  rw [List.cons_append] at read ⊢
  rw [nextToken_solid (isSolid_of_isDigit digit), readToken, if_neg noQuote, if_neg noMark,
    isWordStart_false_of_isDigit digit, if_neg Bool.false_ne_true, if_pos digit, read]
  rfl

/-- A minus in front of a number. -/
theorem ReadsAs.negative {c : UInt8} {tail rest : Bytes} {value : Rat} (digit : isDigit c = true)
    (read : readNumber (c :: tail ++ rest) = some (value, rest)) :
    ReadsAs (chr '-' :: c :: tail) [.operator [chr '-'], .number value] rest := by
  have noOperator : ((c :: tail) ++ rest).head?.any isOperator = false := by
    have range := isDigit_toNat digit
    apply Bool.eq_false_iff.mpr
    intro operator
    have listed : c ∈ (0x60 :: str "~!@#%^&|?") ++
        [chr '+', chr '-', chr '*', chr '/', chr '<', chr '>', chr '='] := by
      have either : isRareOperator c = true ∨
          c ∈ [chr '+', chr '-', chr '*', chr '/', chr '<', chr '>', chr '='] := by
        simpa [isOperator] using operator
      rcases either with rare | common
      · exact List.mem_append_left _ (of_decide_eq_true rare)
      · exact List.mem_append_right _ common
    have others : ∀ d ∈ (0x60 :: str "~!@#%^&|?") ++
        [chr '+', chr '-', chr '*', chr '/', chr '<', chr '>', chr '='],
          ¬(48 ≤ d.toNat ∧ d.toNat ≤ 57) := by decide +kernel
    exact others c listed range
  exact (ReadsAs.minus noOperator).append (ReadsAs.digits digit read)

theorem readNumber_digitsOf (n : Nat) {rest : Bytes} (ends : EndsNumber rest) :
    readNumber (digitsOf n ++ rest) = some ((n : Rat), rest) := by
  have none_ : AllDigits [] := by
    intro c member
    cases member
  have read := readNumber_plain (digitsOf_all n) none_ ends
  rw [List.append_nil, digitsValue_digitsOf] at read
  have one : ((n : Nat) : Rat) * (10 : Rat) ^ (-(([] : Bytes).length : Int)) = n := by simp
  rw [one] at read
  exact read

theorem numberTokens_of_neg {value : Rat} (negative : value < 0) :
    numberTokens value = [.operator [chr '-'], .number (-value)] := if_pos negative

theorem numberTokens_of_nonneg {value : Rat} (nonneg : 0 ≤ value) :
    numberTokens value = [.number value] := if_neg (not_lt.mpr nonneg)

/-- An integer is read as itself. -/
theorem ReadsAs.decimal (n : Int) {rest : Bytes} (ends : EndsNumber rest) :
    ReadsAs (decimal n) (numberTokens n) rest := by
  obtain ⟨first, tail, written⟩ := List.exists_cons_of_ne_nil (digitsOf_ne_nil n.natAbs)
  have digit : isDigit first = true :=
    digitsOf_all n.natAbs first (written ▸ List.mem_cons_self)
  have read := readNumber_digitsOf n.natAbs ends
  rw [written] at read
  rcases lt_or_ge n 0 with negative | nonneg
  · have value : ((n.natAbs : Nat) : Rat) = -(n : Rat) := by
      rw [← Int.cast_neg, ← Int.cast_natCast]
      congr 1
      omega
    rw [value] at read
    rw [decimal_of_neg negative, written, numberTokens_of_neg (by exact_mod_cast negative)]
    exact ReadsAs.negative digit read
  · obtain ⟨m, rfl⟩ := Int.eq_ofNat_of_zero_le nonneg
    rw [Int.natAbs_natCast] at written read
    rw [decimal_natCast, written, numberTokens_of_nonneg (by exact_mod_cast nonneg)]
    exact ReadsAs.digits digit read

/-- What `%g` writes for a positive number is read as the rounded number. -/
theorem readNumber_formatG {precision : Nat} (some_ : 0 < precision) {r : Rat} (pos : 0 < r)
    {rest : Bytes} (ends : EndsNumber rest) :
    ∃ c tail, formatG precision r = c :: tail ∧ isDigit c = true ∧
      readNumber (c :: tail ++ rest) = some (roundSignificant precision r, rest) := by
  obtain ⟨low, high⟩ := significant_digits some_ pos
  obtain ⟨m, m_eq⟩ := significant_natural some_ pos
  have count : (digitsOf m).length = precision := by
    rw [m_eq] at low high
    obtain ⟨fewer, rfl⟩ : ∃ fewer, precision = fewer + 1 := ⟨precision - 1, by omega⟩
    exact length_digitsOf (by exact_mod_cast low) (by exact_mod_cast high)
  have rounded : roundSignificant precision r =
      digitsValue (digitsOf m) *
        (10 : Rat) ^ ((significant precision r).2 - ((precision : Int) - 1)) := by
    rw [roundSignificant_of_pos pos, m_eq, digitsValue_digitsOf]
    rfl
  have text : formatG precision r =
      positiveText precision (digitsOf m) (significant precision r).2 := by
    rw [formatG_of_pos precision pos, m_eq, ← decimal_natCast]
  obtain ⟨c, tail, written, digit⟩ := @positiveText_head precision _ (significant precision r).2
    (digitsOf_all m) (digitsOf_ne_nil m)
  refine ⟨c, tail, text.trans written, digit, ?_⟩
  rw [← written, readNumber_positiveText _ (digitsOf_all m) count some_ ends, rounded]

/-- A double is read as its rounding. -/
theorem ReadsAs.formatG {precision : Nat} (some_ : 0 < precision) (r : Rat) {rest : Bytes}
    (ends : EndsNumber rest) :
    ReadsAs (formatG precision r) (numberTokens (roundSignificant precision r)) rest := by
  rcases lt_trichotomy r 0 with negative | rfl | positive
  · have pos : 0 < -r := neg_pos.mpr negative
    obtain ⟨c, tail, written, digit, read⟩ := readNumber_formatG some_ pos ends
    have below : roundSignificant precision r < 0 := by
      rw [roundSignificant_of_neg negative]
      exact neg_lt_zero.mpr (roundSignificant_pos some_ pos)
    rw [formatG_of_neg precision negative, written, numberTokens_of_neg below,
      roundSignificant_of_neg negative, neg_neg]
    exact ReadsAs.negative digit read
  · have zero : Misc.formatG precision 0 = Misc.decimal 0 := if_pos rfl
    have rounded : roundSignificant precision 0 = ((0 : Int) : Rat) := if_pos rfl
    rw [zero, rounded]
    exact ReadsAs.decimal 0 ends
  · obtain ⟨c, tail, written, digit, read⟩ := readNumber_formatG some_ positive ends
    rw [written, numberTokens_of_nonneg (roundSignificant_pos some_ positive).le]
    exact ReadsAs.digits digit read

end KafkaReplication.Misc.Sql
