import KafkaReplication.Consumer.DatabaseWriter
import KafkaReplication.Misc.Quoting

/-!
# DELETE statements

What PostgreSQL documents about a DELETE that compares one column with one literal. Nothing is
known here about texts that are not such a statement; `strictServer` rejects them.
-/

namespace KafkaReplication
open Misc

/-- The apostrophe, which delimits a literal. -/
def apostrophe : UInt8 := 0x27

/-- What PostgreSQL takes as names and literals. -/
structure Dialect where
  /-- Names that denote a table without quotes. -/
  unquoted : Bytes → Prop
  /-- The table that such a name denotes. -/
  denotes : Bytes → Bytes
  /-- Names that denote a column in quotes. -/
  quoted : Bytes → Prop
  /-- Values that a literal can stand for. -/
  literal : Bytes → Prop
  space_notMem : ∀ name, unquoted name → chr ' ' ∉ name
  unquoted_nonzero : ∀ name, unquoted name → 0 ∉ name
  quoted_nonzero : ∀ name, quoted name → 0 ∉ name
  literal_nonzero : ∀ value, literal value → 0 ∉ value

namespace Dialect

theorem columnName_nonzero (name : Bytes)
    (column : 0 ∉ name ∧ name ≠ [] ∧ name.length < 64) : 0 ∉ name := column.1

/-- PostgreSQL where these are the names of tables: a column's name is cut at 63 bytes, and a
literal is any text that a C string carries. -/
def ofTables (unquoted : Bytes → Prop) (denotes : Bytes → Bytes)
    (space_notMem : ∀ name, unquoted name → chr ' ' ∉ name)
    (unquoted_nonzero : ∀ name, unquoted name → 0 ∉ name) : Dialect where
  unquoted := unquoted
  denotes := denotes
  quoted name := 0 ∉ name ∧ name ≠ [] ∧ name.length < 64
  literal value := cStr value = value
  space_notMem := space_notMem
  unquoted_nonzero := unquoted_nonzero
  quoted_nonzero := columnName_nonzero
  literal_nonzero := zero_notMem_of_cStr

/-- A DELETE of the rows that hold one value in one column. -/
structure Delete (dialect : Dialect) where
  table : Bytes
  column : Bytes
  value : Bytes
  unquoted : dialect.unquoted table
  quoted : dialect.quoted column
  literal : dialect.literal value

namespace Delete

variable {dialect : Dialect} (stmt : dialect.Delete)

/-- The condition, from ` WHERE ` on. -/
def condition : Bytes :=
  str " WHERE " ++ (delimited (chr '"') stmt.column ++
    (str " = " ++ delimited apostrophe stmt.value))

/-- The text of the statement. -/
def sql : Bytes := str "DELETE FROM " ++ stmt.table ++ stmt.condition

/-- The rows that the statement leaves. NULL is not equal to anything. -/
def remaining (rows : List Row) : List Row :=
  rows.filter fun row => row stmt.column ≠ some stmt.value

theorem length_condition : stmt.condition.length =
    14 + stmt.column.length + stmt.column.count (chr '"') +
      (stmt.value.length + stmt.value.count apostrophe) := by
  have where7 : (str " WHERE ").length = 7 := rfl
  have equals3 : (str " = ").length = 3 := rfl
  rw [condition, List.length_append, List.length_append, List.length_append, length_delimited,
    length_delimited, where7, equals3]
  omega

/-- A statement can be read back from its text. -/
theorem sql_inj {stmt other : dialect.Delete} (same : stmt.sql = other.sql) : stmt = other := by
  obtain ⟨table, column, value, unquoted, quoted, literal⟩ := stmt
  obtain ⟨table', column', value', unquoted', quoted', literal'⟩ := other
  rw [sql, sql, List.append_assoc, List.append_assoc] at same
  have afterFrom := List.append_cancel_left same
  obtain ⟨tables, conditions⟩ :=
    append_cons_inj_left (dialect.space_notMem table unquoted)
      (dialect.space_notMem table' unquoted') afterFrom
  have columnsOn := @List.append_cancel_left _ (str "WHERE ") _ _ conditions
  have spaceFollows (rest : Bytes) : (str " = " ++ rest).head? ≠ some (chr '"') := by
    intro quoteFollows
    exact absurd (Option.some.inj quoteFollows) (by decide)
  obtain ⟨columns, literals⟩ :=
    delimited_append_inj (spaceFollows _) (spaceFollows _) columnsOn
  have lastLiteral := List.append_cancel_left literals
  rw [← List.append_nil (delimited _ _), ← List.append_nil (delimited apostrophe value')]
    at lastLiteral
  obtain ⟨values, _⟩ := delimited_append_inj (by simp) (by simp) lastLiteral
  subst tables columns values
  rfl

end Delete

/-- The server carries out these statements as documented. No table has rules, triggers or
references to it, and a column holds texts: so `createTableIfNotExists` makes them. -/
def Documents (dialect : Dialect) (pg : Postgres) : Prop :=
  ∀ (stmt : dialect.Delete) (db : pg.Database),
    pg.rows (pg.exec stmt.sql db).2 stmt.table = stmt.remaining (pg.rows db stmt.table) ∧
      ∀ other, dialect.denotes other ≠ dialect.denotes stmt.table →
        pg.rows (pg.exec stmt.sql db).2 other = pg.rows db other

section StrictServer

variable (dialect : Dialect)

/-- Where the strict server keeps the table of a name. A name that needs quotes has a place of
its own. -/
def place (name : Bytes) : Prop × Bytes := (dialect.unquoted name, dialect.denotes name)

open Classical in
/-- The tables after one of the statements. -/
noncomputable def deleted (stmt : dialect.Delete) (db : Prop × Bytes → List Row) :
    Prop × Bytes → List Row := fun at_ =>
  if at_ = dialect.place stmt.table then stmt.remaining (db at_) else db at_

open Classical in
/-- A server that carries out these statements and rejects everything else. -/
noncomputable def strictServer : Postgres where
  toEscaping := .plain
  Database := Prop × Bytes → List Row
  rows db name := db (dialect.place name)
  exec sql db :=
    if known : ∃ stmt : dialect.Delete, stmt.sql = sql then
      (⟨true, 0⟩, dialect.deleted known.choose db)
    else (⟨false, 0⟩, db)

variable {dialect}

theorem deleted_there (stmt : dialect.Delete) (db : Prop × Bytes → List Row) {name : Bytes}
    (there : dialect.place name = dialect.place stmt.table) :
    dialect.deleted stmt db (dialect.place name) = stmt.remaining (db (dialect.place name)) :=
  if_pos there

theorem deleted_elsewhere (stmt : dialect.Delete) (db : Prop × Bytes → List Row) {name : Bytes}
    (elsewhere : dialect.place name ≠ dialect.place stmt.table) :
    dialect.deleted stmt db (dialect.place name) = db (dialect.place name) :=
  if_neg elsewhere

theorem strictServer_exec (stmt : dialect.Delete) (db : dialect.strictServer.Database) :
    (dialect.strictServer.exec stmt.sql db).2 = dialect.deleted stmt db := by
  have known : ∃ other : dialect.Delete, other.sql = stmt.sql := ⟨stmt, rfl⟩
  have itself : known.choose = stmt := Delete.sql_inj known.choose_spec
  have carriedOut : dialect.strictServer.exec stmt.sql db =
      (⟨true, 0⟩, dialect.deleted known.choose db) := dif_pos known
  rw [carriedOut, itself]

theorem strictServer_documents : dialect.Documents dialect.strictServer := by
  intro stmt db
  rw [strictServer_exec]
  constructor
  · exact deleted_there stmt db rfl
  · intro other different
    have elsewhere : dialect.place other ≠ dialect.place stmt.table := by
      intro same
      exact different (congrArg Prod.snd same)
    exact deleted_elsewhere stmt db elsewhere

/-- Where the strict server changes a table, the text is a statement on that table. -/
theorem strictServer_changed {sql name : Bytes} {db : dialect.strictServer.Database}
    (changed : dialect.strictServer.rows (dialect.strictServer.exec sql db).2 name ≠
      dialect.strictServer.rows db name) :
    ∃ stmt : dialect.Delete, stmt.sql = sql ∧ dialect.unquoted name ∧
      ∀ db, dialect.strictServer.rows (dialect.strictServer.exec sql db).2 name =
        stmt.remaining (dialect.strictServer.rows db name) := by
  by_cases known : ∃ stmt : dialect.Delete, stmt.sql = sql
  · obtain ⟨stmt, rfl⟩ := known
    rw [strictServer_exec] at changed
    by_cases here : dialect.place name = dialect.place stmt.table
    · have unquoted : dialect.unquoted name := (congrArg Prod.fst here).mpr stmt.unquoted
      refine ⟨stmt, rfl, unquoted, ?_⟩
      intro db
      rw [strictServer_exec]
      exact deleted_there stmt db here
    · exact absurd (deleted_elsewhere stmt db here) changed
  · refine absurd ?_ changed
    have rejected : dialect.strictServer.exec sql db = (⟨false, 0⟩, db) := dif_neg known
    rw [rejected]

end StrictServer

end Dialect

end KafkaReplication
