import KafkaReplication.Consumer.StatementText
import KafkaReplication.Misc.SqlGrammar

/-!
# The literals of a row

What `insertRow` and `updateRow` write for a JSON value (`consumer_bo/database_writer.cpp:134-161`,
`:200-214`), as PostgreSQL reads it, and when that denotes the value.
-/

namespace KafkaReplication
open Misc Misc.Sql

/-- What `PQescapeStringConn` documents where `standard_conforming_strings` is on: apostrophes are
doubled. -/
def Postgres.Escapes (pg : Postgres) : Prop :=
  ∀ text, 0 ∉ text → pg.escapeStringConn text = doubled quoteMark text

namespace Json

/-- The value that a row is to hold for a JSON value: a text for what has no kind of its own. -/
def sqlValue (jsoncpp : JsonCpp) : Json → Value
  | null => .null
  | int value => .number value
  | uint value => .number value
  | real value => .number value
  | string value => .text value
  | bool value => .bool value
  | array values => .text (jsoncpp.toStyledString (array values))
  | object members => .text (jsoncpp.toStyledString (object members))

theorem isInt_spec {value : Json} (fits : value.isInt = true) :
    ∃ n, value.integral? = some n ∧ -2 ^ 31 ≤ n ∧ n < 2 ^ 31 := by
  unfold isInt at fits
  cases whole : value.integral? with
  | none =>
    rw [whole] at fits
    cases fits
  | some n =>
    rw [whole] at fits
    exact ⟨n, rfl, of_decide_eq_true fits⟩

theorem isInt64_spec {value : Json} (fits : value.isInt64 = true) :
    ∃ n, value.integral? = some n ∧ -2 ^ 63 ≤ n ∧ n < 2 ^ 63 := by
  unfold isInt64 at fits
  cases whole : value.integral? with
  | none =>
    rw [whole] at fits
    cases fits
  | some n =>
    rw [whole] at fits
    exact ⟨n, rfl, of_decide_eq_true fits⟩

theorem isInt64_of_integral {value : Json} {n : Int} (whole : value.integral? = some n)
    (range : -2 ^ 63 ≤ n ∧ n < 2 ^ 63) : value.isInt64 = true := by
  unfold isInt64
  rw [whole]
  exact decide_eq_true range

theorem isInt64_of_isInt {value : Json} (fits : value.isInt = true) : value.isInt64 = true := by
  obtain ⟨n, whole, low, high⟩ := isInt_spec fits
  exact isInt64_of_integral whole (by omega)

end Json

namespace DatabaseWriter

/-- An integer of 64 bits is written as it is, any other number as its double. -/
theorem numberText_cases (value : Json) :
    (value.isInt64 = true ∧ ∃ n, value.integral? = some n ∧ numberText value = decimal n) ∨
      (value.isInt64 = false ∧ numberText value = formatG 6 value.asDouble) := by
  cases fits : value.isInt64 with
  | true =>
    obtain ⟨n, whole, _, _⟩ := Json.isInt64_spec fits
    refine .inl ⟨rfl, n, whole, ?_⟩
    rw [numberText, fits, Bool.or_true, if_pos rfl, whole]
    rfl
  | false =>
    have small : value.isInt = false := by
      cases isInt_eq : value.isInt with
      | false => rfl
      | true => exact absurd (Json.isInt64_of_isInt isInt_eq) (by simp [fits])
    refine .inr ⟨rfl, ?_⟩
    rw [numberText, fits, small]
    rfl

/-! ## First characters -/

/-- A literal begins where it stands, and not with an equality sign. -/
def StartsValue (text : Bytes) : Prop :=
  ∃ c tail, text = c :: tail ∧ c ≠ 0 ∧ c ≠ chr '"' ∧ c ≠ chr '=' ∧
    (isSolid c = true ∨ c = chr '-' ∧ ∃ d tail', tail = d :: tail' ∧ isDigit d = true)

theorem startsValue_digit {c : UInt8} (digit : isDigit c = true) (tail : Bytes) :
    StartsValue (c :: tail) := by
  have range := isDigit_toNat digit
  refine ⟨c, tail, rfl, ?_, ?_, ?_, .inl (isSolid_of_isDigit digit)⟩
  · exact ne_of_toNat (show (0 : UInt8).toNat = 0 from rfl) (by omega)
  · exact ne_of_toNat toNat_quote (by omega)
  · exact ne_of_toNat (show (chr '=').toNat = 61 from rfl) (by omega)

theorem startsValue_minus {d : UInt8} (digit : isDigit d = true) (tail : Bytes) :
    StartsValue (chr '-' :: d :: tail) :=
  ⟨chr '-', d :: tail, rfl, by decide, by decide, by decide, .inr ⟨rfl, d, tail, rfl, digit⟩⟩

theorem startsValue_number (value : Json) : StartsValue (numberText value) := by
  rcases numberText_cases value with ⟨_, n, _, text⟩ | ⟨_, text⟩
  · obtain ⟨first, tail, written⟩ := List.exists_cons_of_ne_nil (digitsOf_ne_nil n.natAbs)
    have digit : isDigit first = true :=
      digitsOf_all n.natAbs first (written ▸ List.mem_cons_self)
    rw [text]
    rcases lt_or_ge n 0 with negative | nonneg
    · rw [decimal_of_neg negative, written]
      exact startsValue_minus digit tail
    · obtain ⟨m, rfl⟩ := Int.eq_ofNat_of_zero_le nonneg
      rw [Int.natAbs_natCast] at written
      rw [decimal_natCast, written]
      exact startsValue_digit digit tail
  · rw [text]
    have nothing : EndsNumber [] := rfl
    rcases lt_trichotomy value.asDouble 0 with negative | zero | positive
    · obtain ⟨c, tail, written, digit, _⟩ :=
        readNumber_formatG (by decide : 0 < 6) (neg_pos.mpr negative) nothing
      rw [formatG_of_neg 6 negative, written]
      exact startsValue_minus digit tail
    · have shown : formatG 6 value.asDouble = [chr '0'] := by
        rw [zero]
        exact if_pos rfl
      rw [shown]
      exact startsValue_digit rfl []
    · obtain ⟨c, tail, written, digit, _⟩ :=
        readNumber_formatG (by decide : 0 < 6) positive nothing
      rw [written]
      exact startsValue_digit digit tail

/-- However a boolean is written. -/
theorem startsValue_literal (pg : Postgres) (jsoncpp : JsonCpp) {boolText : Bool → Bytes}
    (bools : ∀ b, StartsValue (boolText b)) (value : Json) :
    StartsValue (literalText pg jsoncpp boolText value) := by
  have quotes (tail : Bytes) : StartsValue (str "'" ++ tail) :=
    ⟨quoteMark, tail, rfl, by decide, by decide, by decide, .inl rfl⟩
  have textual (text : Bytes) : StartsValue (textLiteral pg.escapedText text) := by
    rw [textLiteral, List.append_assoc]
    exact quotes _
  cases value with
  | null => exact ⟨chr 'N', str "ULL", rfl, by decide, by decide, by decide, .inl rfl⟩
  | string text => exact textual text
  | bool b => exact bools b
  | int _ | uint _ | real _ => exact startsValue_number _
  | array _ | object _ => exact textual _

theorem StartsValue.head?_ne {text : Bytes} (starts : StartsValue text) (more : Bytes) :
    (cStr (text ++ more)).head? ≠ some (chr '"') := by
  obtain ⟨c, tail, rfl, nonzero, noQuote, _⟩ := starts
  rw [List.cons_append, cStr_cons nonzero]
  exact fun quote => noQuote (Option.some.inj quote)

/-- What begins so is not read as an equality sign, whatever follows. -/
theorem StartsValue.nextToken_ne {text : Bytes} (starts : StartsValue text) (more rest : Bytes) :
    nextToken (cStr (text ++ more)) ≠ some (.operator [chr '='], rest) := by
  obtain ⟨c, tail, rfl, nonzero, _, noEquals, visible⟩ := starts
  have first : cStr (c :: tail ++ more) = c :: cStr (tail ++ more) := cStr_cons nonzero _
  have token : nextToken (c :: cStr (tail ++ more)) = readToken (c :: cStr (tail ++ more)) := by
    rcases visible with solid | ⟨rfl, d, tail', rfl, digit⟩
    · exact nextToken_solid solid _
    · have range := isDigit_toNat digit
      have nonzero : d ≠ 0 := ne_of_toNat (show (0 : UInt8).toNat = 0 from rfl) (by omega)
      have second : cStr (d :: tail' ++ more) = d :: cStr (tail' ++ more) := cStr_cons nonzero _
      apply nextToken_minus
      rw [second]
      intro minus
      exact ne_of_toNat toNat_minus (by omega) (Option.some.inj minus)
  intro read
  rw [first, token] at read
  exact noEquals (Option.some.inj (readToken_operator_head read)).symm

theorem numberText_chars (value : Json) : NumberChars (numberText value) := by
  rcases numberText_cases value with ⟨_, n, _, text⟩ | ⟨_, text⟩
  · rw [text]
    exact numberChars_decimal n
  · rw [text]
    exact numberChars_formatG (by decide) _

/-! ## Tokens -/

/-- The number that is read where a number is written. -/
def shownNumber (value : Json) : Rat :=
  if value.isInt64 then ((value.integral?.getD 0 : Int) : Rat)
  else roundSignificant 6 value.asDouble

/-- The tokens of a value that `insertRow` writes. Of a text the part in front of a NUL is
escaped, and a boolean comes out as a number. -/
def insertedTokens (jsoncpp : JsonCpp) : Json → List Token
  | .null => [.word (str "null")]
  | .string text => [.string (cStr text)]
  | .bool b => [.number (if b then 1 else 0)]
  | .int value => numberTokens (shownNumber (.int value))
  | .uint value => numberTokens (shownNumber (.uint value))
  | .real value => numberTokens (shownNumber (.real value))
  | .array values => [.string (cStr (jsoncpp.toStyledString (.array values)))]
  | .object members => [.string (cStr (jsoncpp.toStyledString (.object members)))]

section Tokens

variable {pg : Postgres} {rest : Bytes}

theorem escapedText_eq (escapes : pg.Escapes) (text : Bytes) :
    pg.escapedText text = doubled quoteMark (cStr text) := by
  have nulFree : 0 ∉ doubled quoteMark (cStr text) := fun nul =>
    zero_notMem_cStr text (mem_doubled.mp nul)
  rw [Escaping.escapedText, escapes _ (zero_notMem_cStr text), cStr_of_notMem nulFree]

theorem readsAs_textLiteral (escapes : pg.Escapes) (closes : Closes rest) (text : Bytes) :
    ReadsAs (textLiteral pg.escapedText text) [.string (cStr text)] rest := by
  have written : textLiteral pg.escapedText text = delimited quoteMark (cStr text) := by
    rw [textLiteral, escapedText_eq escapes, List.append_assoc]
    rfl
  rw [written]
  exact .string closes.lastLiteral

theorem readsAs_numberText (closes : Closes rest) (value : Json) :
    ReadsAs (numberText value) (numberTokens (shownNumber value)) rest := by
  rcases numberText_cases value with ⟨fits, n, whole, text⟩ | ⟨wide, text⟩
  · rw [text, shownNumber, if_pos fits, whole]
    exact .decimal n closes.endsNumber
  · rw [text, shownNumber, if_neg (by simp [wide])]
    exact .formatG (by decide) _ closes.endsNumber

theorem readsAs_literalText (escapes : pg.Escapes) (jsoncpp : JsonCpp) (value : Json)
    (closes : Closes rest) :
    ReadsAs (literalText pg jsoncpp insertedBool value) (insertedTokens jsoncpp value) rest := by
  cases value with
  | null =>
    have ends := closes.head?_any (p := isWordPart) rfl rfl
    have read : ReadsAs (chr 'N' :: str "ULL") [.word ((chr 'N' :: str "ULL").map foldCase)]
        rest := .word rfl (List.all_eq_true.mp rfl) ends rfl
    exact read
  | string text => exact readsAs_textLiteral escapes closes text
  | bool b =>
    cases b with
    | false => exact ReadsAs.decimal 0 closes.endsNumber
    | true => exact ReadsAs.decimal 1 closes.endsNumber
  | int _ | uint _ | real _ => exact readsAs_numberText closes _
  | array _ | object _ => exact readsAs_textLiteral escapes closes _

end Tokens

/-! ## Meaning -/

/-- What the literal of a value denotes is the value. Numbers are integers of 64 bits, or they are
doubles and decimals of at most six digits; texts go up to their first NUL. -/
def WrittenExactly (jsoncpp : JsonCpp) : Json → Prop
  | .null => True
  | .string text => 0 ∉ text
  | .bool _ => False
  | .int value => (Json.int value).isInt64 = true ∨
      roundSignificant 6 (nearestDouble value) = value
  | .uint value => (Json.uint value).isInt64 = true ∨
      roundSignificant 6 (nearestDouble value) = value
  | .real value => (Json.real value).isInt64 = true ∨ IsDecimal 6 value
  | .array values => 0 ∉ jsoncpp.toStyledString (.array values)
  | .object members => 0 ∉ jsoncpp.toStyledString (.object members)

theorem isLiteral_numberTokens_iff (shown value : Rat) :
    IsLiteral (numberTokens shown) (.number value) ↔ shown = value := by
  unfold numberTokens
  constructor
  · intro literal
    split at literal
    · cases literal
      rw [neg_neg]
    · cases literal
      rfl
  · rintro rfl
    split
    · have minus := IsLiteral.minus (-shown)
      rwa [neg_neg] at minus
    · exact .number shown

theorem isLiteral_text_iff (text : Bytes) :
    IsLiteral [.string (cStr text)] (.text text) ↔ 0 ∉ text := by
  constructor
  · intro literal
    have whole : cStr text = text := by
      generalize shown : cStr text = seen at literal
      cases literal
      rfl
    exact zero_notMem_of_cStr text whole
  · intro nulFree
    rw [cStr_of_notMem nulFree]
    exact .string text

/-- An integer is denoted as it is written. -/
theorem shownNumber_eq_iff {value : Json} {exact_ : Rat}
    (whole : ∀ n, value.integral? = some n → (n : Rat) = exact_) :
    shownNumber value = exact_ ↔
      value.isInt64 = true ∨ roundSignificant 6 value.asDouble = exact_ := by
  unfold shownNumber
  cases fits : value.isInt64 with
  | true =>
    obtain ⟨n, integral, _, _⟩ := Json.isInt64_spec fits
    rw [if_pos rfl, integral]
    simp [whole n integral]
  | false => simp

theorem isLiteral_insertedTokens_iff (jsoncpp : JsonCpp) (value : Json) :
    IsLiteral (insertedTokens jsoncpp value) (value.sqlValue jsoncpp) ↔
      WrittenExactly jsoncpp value := by
  cases value with
  | null => exact ⟨fun _ => trivial, fun _ => .null⟩
  | string text => exact isLiteral_text_iff text
  | bool b =>
    refine ⟨fun literal => ?_, False.elim⟩
    cases literal
  | int value =>
    have whole : ∀ n, (Json.int value).integral? = some n → (n : Rat) = value := by
      rintro n ⟨⟩
      rfl
    exact (isLiteral_numberTokens_iff _ _).trans (shownNumber_eq_iff whole)
  | uint value =>
    have whole : ∀ n, (Json.uint value).integral? = some n → (n : Rat) = value := by
      rintro n ⟨⟩
      rfl
    exact (isLiteral_numberTokens_iff _ _).trans (shownNumber_eq_iff whole)
  | real value =>
    have whole : ∀ n, (Json.real value).integral? = some n → (n : Rat) = value := by
      intro n integral
      rw [Json.integral?] at integral
      split at integral
      · next integer =>
        cases integral
        exact (Rat.den_eq_one_iff value).mp integer
      · cases integral
    refine ((isLiteral_numberTokens_iff _ _).trans (shownNumber_eq_iff whole)).trans ?_
    rw [Json.asDouble, roundSignificant_eq_self_iff (by decide)]
    rfl
  | array _ | object _ => exact isLiteral_text_iff _

end DatabaseWriter

end KafkaReplication
