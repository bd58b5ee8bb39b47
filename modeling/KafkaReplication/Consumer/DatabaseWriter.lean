import KafkaReplication.SharedStructures

/-!
# `DatabaseWriter`

`consumer_bo/database_writer.cpp:41-289`: the statements the consumer builds from a queued
message and what it makes of the server's answers. The server, with libpq in front of it, is
the parameter `Postgres`.
-/

namespace KafkaReplication
open Misc

/-- What the code asks a `PGresult` for. -/
structure PGresult where
  /-- `PQresultStatus(res) == PGRES_COMMAND_OK`. -/
  commandOk : Bool
  /-- `PQntuples(res)`. -/
  ntuples : Nat
  deriving DecidableEq, Repr

/-- One row: what its columns hold, a NULL being absent. -/
abbrev Row := Bytes → Option Bytes

/-- What `escapeString` rests on: libpq, and the allocator behind `new`. -/
structure Escaping where
  /-- The text that `PQescapeStringConn` makes of a C string. -/
  escapeStringConn : Bytes → Bytes
  /-- The bytes that the allocator gives behind the one `char` it is asked for. -/
  spare : Nat

/-- libpq for texts without quotes, and the blocks of 24 bytes that glibc gives at least. -/
def Escaping.plain : Escaping := ⟨id, 23⟩

/-- A PostgreSQL server behind libpq. -/
structure Postgres extends Escaping where
  Database : Type
  /-- The rows of a table, by the name that the statements have for it. -/
  rows : Database → Bytes → List Row
  /-- `PQexec`, which takes a C string. -/
  exec : Bytes → Database → PGresult × Database

/-- A server whose tables are the whole database. It carries out one statement and rejects the
others. -/
def Postgres.ofStatement (escaping : Escaping) (sql : Bytes)
    (effect : (Bytes → List Row) → Bytes → List Row) : Postgres where
  toEscaping := escaping
  Database := Bytes → List Row
  rows db table := db table
  exec statement db :=
    if statement = sql then (⟨true, 0⟩, effect db) else (⟨false, 0⟩, db)

section OfStatement

variable {escaping : Escaping} {sql : Bytes} {effect : (Bytes → List Row) → Bytes → List Row}
  (db : (Postgres.ofStatement escaping sql effect).Database)

theorem Postgres.ofStatement_exec :
    ((Postgres.ofStatement escaping sql effect).exec sql db).2 = effect db :=
  congrArg Prod.snd (if_pos rfl)

theorem Postgres.ofStatement_rejects {other : Bytes} (apart : other ≠ sql) :
    ((Postgres.ofStatement escaping sql effect).exec other db).2 = db :=
  congrArg Prod.snd (if_neg apart)

end OfStatement

/-- `text.c_str()` as a C function sees it. -/
def cStr (text : Bytes) : Bytes := text.takeWhile (· ≠ 0)

theorem cStr_cons {c : UInt8} (nonzero : c ≠ 0) (text : Bytes) :
    cStr (c :: text) = c :: cStr text :=
  List.takeWhile_cons_of_pos (decide_eq_true nonzero)

theorem cStr_append {front : Bytes} (nonzero : 0 ∉ front) (text : Bytes) :
    cStr (front ++ text) = front ++ cStr text := by
  apply List.takeWhile_append_of_pos
  intro c member
  have other : c ≠ 0 := fun zero => nonzero (zero ▸ member)
  exact decide_eq_true other

/-- Behind a NUL nothing is seen. -/
theorem cStr_append_of_mem {front : Bytes} (nul : 0 ∈ front) (text : Bytes) :
    cStr (front ++ text) = cStr front := by
  induction front with
  | nil => cases nul
  | cons c front ih =>
    unfold cStr at ih ⊢
    rw [List.cons_append, List.takeWhile_cons, List.takeWhile_cons]
    by_cases zero : c = 0
    · rw [zero]
      rfl
    · have later : 0 ∈ front := (List.mem_cons.mp nul).resolve_left (Ne.symm zero)
      rw [ih later]

theorem length_cStr_le (text : Bytes) : (cStr text).length ≤ text.length :=
  (List.takeWhile_prefix _).length_le

theorem cStr_of_notMem {text : Bytes} (nonzero : 0 ∉ text) : cStr text = text := by
  have whole := cStr_append nonzero []
  rw [List.append_nil] at whole
  rw [whole]
  exact List.append_nil text

theorem zero_notMem_cStr (text : Bytes) : 0 ∉ cStr text := by
  intro member
  have seen := List.all_eq_true.mp List.all_takeWhile 0 member
  exact absurd seen (by decide)

/-- What a C string carries whole has no NUL. -/
theorem zero_notMem_of_cStr (text : Bytes) (whole : cStr text = text) : 0 ∉ text :=
  whole ▸ zero_notMem_cStr text

theorem cStr_cStr (text : Bytes) : cStr (cStr text) = cStr text :=
  cStr_of_notMem (zero_notMem_cStr text)

/-- The zero byte at the end is not part of a C string. -/
theorem cStr_append_nul (text : Bytes) : cStr (text ++ [0]) = cStr text := by
  by_cases nul : 0 ∈ text
  · exact cStr_append_of_mem nul [0]
  · rw [cStr_append nul, cStr_of_notMem nul]
    exact List.append_nil text

namespace Escaping

variable (escaping : Escaping) (text : Bytes)

/-- The escaped text, as a `std::string` is made of it. -/
def escapedText : Bytes := cStr (escaping.escapeStringConn (cStr text))

/-- There is room for the escaped text; the one `char` of the block itself holds the zero byte. -/
def Fits : Prop := (escaping.escapeStringConn (cStr text)).length ≤ escaping.spare

instance : Decidable (escaping.Fits text) :=
  inferInstanceAs (Decidable ((escaping.escapeStringConn (cStr text)).length ≤ escaping.spare))

end Escaping

namespace DatabaseWriter

/-- A member function of `DatabaseWriter`, on the target database. -/
abbrev WriterM (pg : Postgres) := EStateM Fault pg.Database

variable (pg : Postgres) (jsoncpp : JsonCpp)

/-- `PQexec(conn_, sql.c_str())`. -/
def query (sql : Bytes) : WriterM pg PGresult := fun db =>
  let (result, db) := pg.exec (cStr sql) db
  .ok result db

/-- The same where only the status is looked at. -/
def execute (sql : Bytes) : WriterM pg Bool := do
  let res ← query pg sql
  return res.commandOk

/-- An operation that does not touch the database. -/
def liftE {α : Type} (x : Except Fault α) : WriterM pg α := fun db =>
  match x with
  | .ok a => .ok a db
  | .error fault => .error fault db

theorem liftE_ok_bind {α β : Type} {pg : Postgres} (a : α) (rest : α → WriterM pg β) :
    (liftE pg (.ok a) >>= rest) = rest a := rfl

theorem liftE_error_bind {α β : Type} {pg : Postgres} (fault : Fault) (rest : α → WriterM pg β) :
    (liftE pg (.error fault) >>= rest) = liftE pg (.error fault) := rfl

/-- `tableExists` (`database_writer.cpp:41-49`). -/
def tableExists (tableName : Bytes) : WriterM pg Bool := do
  let res ← query pg
    (str "SELECT 1 FROM information_schema.tables WHERE table_name = '" ++ tableName ++ str "'")
  return res.ntuples > 0

/-- `getColumnType` (`database_writer.cpp:77-85`). -/
def getColumnType (value : Json) : Bytes :=
  if value.isInt then str "INTEGER"
  else if value.isInt64 then str "BIGINT"
  else if value.isDouble then str "DOUBLE PRECISION"
  else if value.isBool then str "BOOLEAN"
  else if value.isString then str "TEXT"
  else if value.isNull then str "TEXT"
  else str "TEXT"

/-- `new char(value)`: one `char`, which holds the value. -/
def newChar (value : Nat) : Bytes := [UInt8.ofNat value]

/-- `escapeString` (`database_writer.cpp:87-96`). What the allocator's block has no room for is
written behind it. -/
def escapeString (text : Bytes) : Except Fault Bytes :=
  let escaped := newChar (text.length * 2 + 1)
  let written := pg.escapeStringConn (cStr text) ++ [0]
  if written.length ≤ escaped.length + pg.spare then .ok (cStr written)
  else .error (.undefined .pastTheEnd)

section EscapeString

variable {pg : Postgres} {text : Bytes}

theorem escapeString_fits (fits : pg.Fits text) :
    escapeString pg text = .ok (pg.escapedText text) := by
  have room : (pg.escapeStringConn (cStr text) ++ [0]).length ≤
      (newChar (text.length * 2 + 1)).length + pg.spare := by
    rw [List.length_append, Nat.add_comm]
    exact Nat.add_le_add_left fits 1
  rw [escapeString]
  exact (if_pos room).trans (congrArg Except.ok (cStr_append_nul _))

theorem escapeString_overflows (overflows : ¬pg.Fits text) :
    escapeString pg text = .error (.undefined .pastTheEnd) := by
  have noRoom : ¬(pg.escapeStringConn (cStr text) ++ [0]).length ≤
      (newChar (text.length * 2 + 1)).length + pg.spare := by
    rw [List.length_append, Nat.add_comm]
    exact fun room => overflows (Nat.le_of_add_le_add_left room)
  rw [escapeString]
  exact if_neg noRoom

end EscapeString

/-- `"name"`, as every statement quotes a column. -/
def quoteColumn (name : Bytes) : Bytes := str "\"" ++ name ++ str "\""

/-- Put `, ` between the parts. -/
def commaSeparated (parts : List Bytes) : Bytes := (str ", ").intercalate parts

theorem quoteColumn_append (name rest : Bytes) :
    quoteColumn name ++ rest = chr '"' :: (name ++ chr '"' :: rest) := by
  rw [quoteColumn, List.append_assoc, List.append_assoc]
  rfl

theorem commaSeparated_singleton (part : Bytes) : commaSeparated [part] = part :=
  List.intercalate_singleton

theorem commaSeparated_cons_cons (part next : Bytes) (parts : List Bytes) :
    commaSeparated (part :: next :: parts) =
      part ++ (str ", " ++ commaSeparated (next :: parts)) := by
  rw [commaSeparated, List.intercalate_cons_cons, List.append_assoc]
  rfl

/-- One column of `buildCreateTableSql`. -/
def columnDefinition (data : Json) (key : Bytes) : Except Fault Bytes := do
  let value ← data.index key
  return quoteColumn key ++ str " " ++ getColumnType value

/-- `buildCreateTableSql` (`database_writer.cpp:98-116`). -/
def buildCreateTableSql (tableName : Bytes) (data : Json) : Except Fault Bytes := do
  let members ← data.getMemberNames
  let definitions ← members.mapM (columnDefinition data)
  return str "CREATE TABLE IF NOT EXISTS " ++ tableName ++ str " (" ++
    commaSeparated definitions ++ str ")"

/-- `createTableIfNotExists` (`database_writer.cpp:52-74`). -/
def createTableIfNotExists (tableName : Bytes) (data : Json) : WriterM pg Bool := do
  let found ← tableExists pg tableName
  if found then return true
  else
    let sqlQuery ← liftE pg (buildCreateTableSql tableName data)
    execute pg sqlQuery

/-- A value as `insertRow` and `updateRow` write it. They differ in how a boolean comes out. -/
def valueText (boolText : Bool → Bytes) (value : Json) : Except Fault Bytes :=
  if value.isNull then return str "NULL"
  else if value.isString then do
    let text ← value.asString
    let escaped ← escapeString pg text
    return str "'" ++ escaped ++ str "'"
  else if value.isInt || value.isInt64 then
    return (value.integral?.map decimal).getD []
  else if value.isDouble then
    return formatG 6 value.asDouble
  else
    match value with
    | .bool b => return boolText b
    | _ => do
      let escaped ← escapeString pg (jsoncpp.toStyledString value)
      return str "'" ++ escaped ++ str "'"

/-- `values << data[key].asBool() ? "TRUE" : "FALSE"` inserts the boolean itself. -/
def insertedBool (b : Bool) : Bytes := if b then str "1" else str "0"

/-- `set_clause << (after[key].asBool() ? "TRUE" : "FALSE")`. -/
def assignedBool (b : Bool) : Bytes := if b then str "TRUE" else str "FALSE"

/-- `insertRow` (`database_writer.cpp:118-173`). -/
def insertRow (tableName : Bytes) (data : Json) : WriterM pg Bool := do
  let members ← liftE pg data.getMemberNames
  let values ← liftE pg (members.mapM fun key => do
    let value ← data.index key
    valueText pg jsoncpp insertedBool value)
  execute pg (str "INSERT INTO " ++ tableName ++ str " (" ++
    commaSeparated (members.map quoteColumn) ++ str ") VALUES (" ++ commaSeparated values ++
    str ")")

/-- `members[0]`, which is not checked. -/
def firstMember : List Bytes → Except Fault Bytes
  | [] => .error (.undefined .pastTheEnd)
  | name :: _ => .ok name

/-- The column that is compared: the primary key, or the first member of the row. -/
def keyColumnOf (members : List Bytes) (primaryKey : Bytes) : Except Fault Bytes :=
  if primaryKey = [] then firstMember members else .ok primaryKey

/-- How `updateRow` (`database_writer.cpp:177-187`) and `deleteRow` (`:234-246`) find their row:
the key column and the literal it is compared with. -/
def rowKey (before : Json) (primaryKey : Bytes) : Except Fault (Bytes × Bytes) := do
  let members ← before.getMemberNames
  let keyColumn ← keyColumnOf members primaryKey
  let value ← before.index keyColumn
  let text ← value.asString
  return (keyColumn, str "'" ++ text ++ str "'")

/-- ` WHERE "column" = literal`. -/
def whereClause (key : Bytes × Bytes) : Bytes :=
  str " WHERE \"" ++ key.1 ++ str "\" = " ++ key.2

/-- One assignment of `updateRow` (`database_writer.cpp:193-215`): there is no `=` in it. -/
def assignment (after : Json) (key : Bytes) : Except Fault Bytes := do
  let value ← after.index key
  let text ← valueText pg jsoncpp assignedBool value
  return quoteColumn key ++ text

/-- `updateRow` (`database_writer.cpp:175-230`). -/
def updateRow (tableName : Bytes) (before after : Json) (primaryKey : Bytes) :
    WriterM pg Bool := do
  let key ← liftE pg (rowKey before primaryKey)
  let members ← liftE pg after.getMemberNames
  let assignments ← liftE pg (members.mapM (assignment pg jsoncpp after))
  execute pg (str "UPDATE " ++ tableName ++ str " SET " ++ commaSeparated assignments ++
    whereClause key)

/-- `deleteRow` (`database_writer.cpp:232-261`). -/
def deleteRow (tableName : Bytes) (before : Json) (primaryKey : Bytes) : WriterM pg Bool := do
  let key ← liftE pg (rowKey before primaryKey)
  execute pg (str "DELETE FROM " ++ tableName ++ whereClause key)

/-- `handlerIncomingData` (`database_writer.cpp:263-289`). -/
def handlerIncomingData (dataToSave : ConsumerMessage) : WriterM pg Bool :=
  if dataToSave.op = str "INSERT" then do
    let _created ← createTableIfNotExists pg dataToSave.table dataToSave.data
    insertRow pg jsoncpp dataToSave.table dataToSave.data
  else if dataToSave.op = str "UPDATE" then
    updateRow pg jsoncpp dataToSave.table dataToSave.before dataToSave.after
      dataToSave.primaryKey
  else if dataToSave.op = str "DELETE" then
    deleteRow pg dataToSave.table dataToSave.before dataToSave.primaryKey
  else if dataToSave.op = str "TRUNCATE" then
    -- announced on the console, and nothing else
    return false
  else
    return false

end DatabaseWriter

end KafkaReplication
