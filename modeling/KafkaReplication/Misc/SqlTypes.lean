import KafkaReplication.Misc.DoubleRange
import KafkaReplication.Misc.SqlGrammar

/-!
# Column types and assignment

The types that a column can be declared with here, PostgreSQL's rules for the assignment of a
constant to a column, and the lists of column definitions and of column names.
-/

namespace KafkaReplication.Misc.Sql

inductive ColumnType where
  | integer
  | bigint
  | doublePrecision
  | boolean
  | text
  deriving DecidableEq, Repr

namespace ColumnType

/-- The type's name, as it is written. -/
def name : ColumnType → Bytes
  | integer => str "INTEGER"
  | bigint => str "BIGINT"
  | doublePrecision => str "DOUBLE PRECISION"
  | boolean => str "BOOLEAN"
  | text => str "TEXT"

def tokens : ColumnType → List Token
  | integer => [.word (str "integer")]
  | bigint => [.word (str "bigint")]
  | doublePrecision => [.word (str "double"), .word (str "precision")]
  | boolean => [.word (str "boolean")]
  | text => [.word (str "text")]

end ColumnType

/-! ## Assignment -/

/-- A number in an integer column is rounded, ties away from zero. -/
def nearestInteger (value : Rat) : Int :=
  if 0 ≤ value then (value + 1 / 2).floor else -((-value + 1 / 2).floor)

/-- Which constants a column takes. Nothing but a boolean or a text becomes a boolean; everything
becomes a text. A text in another column is read by the type, which takes what `input` says. -/
inductive Assignable (input : ColumnType → Bytes → Prop) : ColumnType → Value → Prop
  | null (type : ColumnType) : Assignable input type .null
  | integer {value : Rat} (low : -2 ^ 31 ≤ nearestInteger value)
      (high : nearestInteger value < 2 ^ 31) : Assignable input .integer (.number value)
  | bigint {value : Rat} (low : -2 ^ 63 ≤ nearestInteger value)
      (high : nearestInteger value < 2 ^ 63) : Assignable input .bigint (.number value)
  | doublePrecision {value : Rat} (range : InDoubleRange value) :
      Assignable input .doublePrecision (.number value)
  | boolean (value : Bool) : Assignable input .boolean (.bool value)
  | text (value : Value) : Assignable input .text value
  | read {type : ColumnType} {value : Bytes} (taken : input type value) :
      Assignable input type (.text value)

/-- The tokens are a literal that a column of this type takes. -/
def Accepts (input : ColumnType → Bytes → Prop) (literal : List Token) (type : ColumnType) :
    Prop :=
  ∃ value, IsLiteral literal value ∧ Assignable input type value

/-- An integer needs no rounding. -/
theorem nearestInteger_intCast (n : Int) : nearestInteger n = n := by
  have between (m : Int) : ((m : Rat) + 1 / 2).floor = m := by
    have low : m ≤ ((m : Rat) + 1 / 2).floor := Rat.le_floor_iff.mpr (by linarith)
    have high : ((m : Rat) + 1 / 2).floor < m + 1 := by
      have floor_le : ((((m : Rat) + 1 / 2).floor : Int) : Rat) ≤ m + 1 / 2 := Rat.floor_le _
      have below : ((((m : Rat) + 1 / 2).floor : Int) : Rat) < m + 1 := by linarith
      exact_mod_cast below
    omega
  unfold nearestInteger
  split
  · exact between n
  · rw [← Int.cast_neg, between, neg_neg]

/-! ## Lists of columns -/

/-- The token is an identifier. -/
inductive IsIdentifier (reserved : Bytes → Prop) : Token → Prop
  | word {text : Bytes} (free : ¬reserved text) : IsIdentifier reserved (.word text)
  | quoted (name : Bytes) : IsIdentifier reserved (.quoted name)

def definitionTokens (column : Token × ColumnType) : List Token := column.1 :: column.2.tokens

namespace ColumnType

theorem tokens_eq_word (type : ColumnType) :
    ∃ word words, type.tokens = .word word :: words := by
  cases type <;> exact ⟨_, _, rfl⟩

theorem eq_of_head? (type type' : ColumnType) (same : type.tokens.head? = type'.tokens.head?) :
    type = type' := by
  revert same
  cases type <;> cases type' <;> decide

theorem tokens_append_inj {type type' : ColumnType} {later later' : List Token}
    (same : type.tokens ++ later = type'.tokens ++ later') : type = type' ∧ later = later' := by
  obtain ⟨word, words, tokens_eq⟩ := tokens_eq_word type
  obtain ⟨word', words', tokens_eq'⟩ := tokens_eq_word type'
  have heads : type.tokens.head? = type'.tokens.head? := by
    rw [tokens_eq, tokens_eq'] at same ⊢
    exact congrArg some (List.head_eq_of_cons_eq same)
  obtain rfl := eq_of_head? type type' heads
  exact ⟨rfl, List.append_cancel_left same⟩

end ColumnType

/-- The name of a type is a word or two. -/
theorem ReadsAs.columnType (type : ColumnType) {rest : Bytes} (closes : Closes rest) :
    ReadsAs type.name type.tokens rest := by
  have ends := closes.head?_any (p := isWordPart) rfl rfl
  cases type with
  | integer => exact .word rfl (List.all_eq_true.mp rfl) ends rfl
  | bigint => exact .word rfl (List.all_eq_true.mp rfl) ends rfl
  | doublePrecision =>
    have double : ReadsAs (str "DOUBLE") [.word (str "double")] (str " PRECISION" ++ rest) :=
      .word rfl (List.all_eq_true.mp rfl) rfl rfl
    have precision : ReadsAs (str "PRECISION") [.word (str "precision")] rest :=
      .word rfl (List.all_eq_true.mp rfl) ends rfl
    exact double.append (ReadsAs.space.append precision)
  | boolean => exact .word rfl (List.all_eq_true.mp rfl) ends rfl
  | text => exact .word rfl (List.all_eq_true.mp rfl) ends rfl

end KafkaReplication.Misc.Sql
