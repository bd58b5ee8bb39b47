import KafkaReplication.Consumer.StatementText
import KafkaReplication.Misc.SqlGrammar

/-!
# What a WHERE clause means

`updateRow` and `deleteRow` (`consumer_bo/database_writer.cpp:175-261`) put the key column and the
key's value between quotes as they are: `escapeString` is not called for either. The server reads
the clause as the comparison that is meant exactly when there is nothing in them to escape.
-/

namespace KafkaReplication
open Misc Misc.Sql

namespace DatabaseWriter

/-- What follows `WHERE`. -/
def conditionText (column value : Bytes) : Bytes :=
  str " \"" ++ column ++ str "\" = '" ++ value ++ str "'"

/-- The server reads the condition as a comparison of this column with this value, and nothing
else. -/
def ConditionMeans (reserved : Bytes → Prop) (column value : Bytes) : Prop :=
  ∃ tokens, Lexes (cStr (conditionText column value)) tokens ∧
    IsComparison reserved tokens column value

/-- A name that quotes can be put around as they are. -/
def PlainName (name : Bytes) : Prop :=
  name ≠ [] ∧ name.length < 64 ∧ chr '"' ∉ name ∧ 0 ∉ name

/-- A text that apostrophes can be put around as they are. -/
def PlainText (text : Bytes) : Prop := quoteMark ∉ text ∧ 0 ∉ text

instance : DecidablePred PlainName := fun name =>
  inferInstanceAs (Decidable (name ≠ [] ∧ name.length < 64 ∧ chr '"' ∉ name ∧ 0 ∉ name))

instance : DecidablePred PlainText := fun text =>
  inferInstanceAs (Decidable (quoteMark ∉ text ∧ 0 ∉ text))

theorem conditionText_eq (column value : Bytes) :
    conditionText column value = chr ' ' :: chr '"' :: (column ++ chr '"' ::
      (str " = " ++ quoteMark :: (value ++ [quoteMark]))) := by
  unfold conditionText
  rw [List.append_assoc, List.append_assoc, List.append_assoc]
  rfl

theorem whereClause_eq (column value : Bytes) :
    whereClause (column, str "'" ++ value ++ str "'") =
      str " WHERE" ++ conditionText column value := by
  rw [conditionText_eq, whereClause, List.append_assoc, List.append_assoc]
  rfl

theorem zero_notMem_conditionText {column value : Bytes} (nulName : 0 ∉ column)
    (nulText : 0 ∉ value) : 0 ∉ conditionText column value := by
  rw [conditionText_eq]
  simp only [List.mem_cons, List.mem_append, not_or]
  exact ⟨by decide, by decide, nulName, by decide, by decide, by decide, nulText, by decide,
    by simp⟩

/-- Between the sides of the comparison. -/
theorem lexes_equals (rest : Bytes) (tokens : List Token) :
    Lexes (str " = " ++ quoteMark :: rest) tokens ↔
      ∃ later, tokens = .operator [chr '='] :: later ∧ Lexes (quoteMark :: rest) later := by
  have reads : ReadsAs (str " = ") [.operator [chr '=']] (quoteMark :: rest) :=
    ((ReadsAs.space.append (.equals rfl)).append .space)
  exact reads tokens

theorem conditionMeans_iff (reserved : Bytes → Prop) (column value : Bytes) :
    ConditionMeans reserved column value ↔ PlainName column ∧ PlainText value := by
  have spaceFollows (rest : Bytes) : (str " = " ++ rest).head? ≠ some (chr '"') := by
    intro quoteFollows
    exact absurd (Option.some.inj quoteFollows) (by decide)
  constructor
  · rintro ⟨tokens, lexes, name, names, rfl⟩
    -- the server sees nothing behind a NUL, and no NUL
    have nulFree := lexes.notMem rfl (zero_notMem_cStr _)
    have nulName : 0 ∉ column := names.text_eq ▸ nulFree name (by simp)
    have nulText : 0 ∉ value := nulFree (.string value) (by simp)
    rw [cStr_of_notMem (zero_notMem_conditionText nulName nulText), conditionText_eq, lexes_space,
      lexes_name_iff (spaceFollows _) names] at lexes
    obtain ⟨_, some_, plainName, lexes⟩ := lexes
    obtain ⟨later, same, lexes⟩ := (lexes_equals _ _).mp lexes
    rw [List.cons.injEq] at same
    rw [← same.2, lexes_string_iff] at lexes
    exact ⟨⟨some_, names.short, plainName, nulName⟩, lexes, nulText⟩
  · rintro ⟨⟨some_, short, plainName, nulName⟩, plainText, nulText⟩
    have names : Names reserved column (.quoted column) := .quoted short
    refine ⟨_, ?_, .quoted column, names, rfl⟩
    rw [cStr_of_notMem (zero_notMem_conditionText nulName nulText), conditionText_eq, lexes_space,
      lexes_name_iff (spaceFollows _) names]
    refine ⟨rfl, some_, plainName, (lexes_equals _ _).mpr ⟨_, rfl, ?_⟩⟩
    exact (lexes_string_iff value).mpr plainText

/-- Both statements end in the condition, and it means the key exactly if neither the key column
nor the value has anything in it that an escape would be for. -/
theorem whereMeansKey_iff (pg : Postgres) (jsoncpp : JsonCpp) (reserved : Bytes → Prop)
    (table : Bytes) {before : Json} {primaryKey column value : Bytes}
    (key : rowKey before primaryKey = .ok (column, str "'" ++ value ++ str "'")) :
    deleteRow pg table before primaryKey =
        execute pg (str "DELETE FROM " ++ table ++
          (str " WHERE" ++ conditionText column value)) ∧
      (∀ after members, after.memberList = some members →
        updateRow pg jsoncpp table before after primaryKey =
          if RowFits pg jsoncpp members then
            execute pg (str "UPDATE " ++ table ++ str " SET " ++ setText pg jsoncpp members ++
              (str " WHERE" ++ conditionText column value))
          else liftE pg (.error (.undefined .pastTheEnd))) ∧
      (ConditionMeans reserved column value ↔ PlainName column ∧ PlainText value) := by
  refine ⟨?_, ?_, conditionMeans_iff reserved column value⟩
  · rw [deleteRow, key, liftE_ok_bind, whereClause_eq]
  · intro after members has
    rw [updateRow_eq pg table before primaryKey has, key, liftE_ok_bind, updateText,
      whereClause_eq]

theorem whereMeansKey_iff_plain :
    ConditionMeans (fun _ => False) (str "id") (str "a;b\\c") := by
  have key : rowKey (.object [(str "id", .string (str "a;b\\c"))]) (str "id") =
      .ok (str "id", str "'" ++ str "a;b\\c" ++ str "'") := rfl
  have plain : PlainName (str "id") ∧ PlainText (str "a;b\\c") := by decide
  exact (whereMeansKey_iff (Postgres.ofStatement .plain [] id) (JsonCpp.compactOf [])
    (fun _ => False) (str "users") key).2.2.mpr plain

/-- A value with an apostrophe in it makes a DELETE of one row one of all rows. -/
theorem condition_alwaysTrue :
    deleteRow (Postgres.ofStatement .plain [] id) (str "users")
        (.object [(str "name", .string (str "' OR '1'='1"))]) (str "name") =
      execute (Postgres.ofStatement .plain [] id)
        (str "DELETE FROM users WHERE \"name\" = '' OR '1'='1'") ∧
    Lexes (cStr (conditionText (str "name") (str "' OR '1'='1")))
      [.quoted (str "name"), .operator (str "="), .string [], .word (str "or"),
        .string (str "1"), .operator (str "="), .string (str "1")] ∧
    ¬ConditionMeans (fun _ => False) (str "name") (str "' OR '1'='1") := by
  refine ⟨rfl, ?_, ?_⟩
  · have text : cStr (conditionText (str "name") (str "' OR '1'='1")) =
        str " \"name\" = '' OR '1'='1'" := rfl
    rw [text]
    exact .next rfl (.next rfl (.next rfl (.next rfl (.next rfl (.next rfl (.next rfl
      (.done rfl)))))))
  · rw [conditionMeans_iff]
    rintro ⟨_, plain, _⟩
    exact plain (by decide)

end DatabaseWriter

end KafkaReplication
