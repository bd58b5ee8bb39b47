import KafkaReplication.Consumer.InsertStatement
import KafkaReplication.Consumer.Payloads

/-!
# The statements of a row

`insertRow`, `updateRow` and `deleteRow` (`consumer_bo/database_writer.cpp:118-261`) for a row of
any JSON values: which statement they execute, or that they do not get that far. Once a row has
members nothing in it can throw but the value that a row is compared by; a text among its values
may be longer than the block that `escapeString` writes it to.
-/

namespace KafkaReplication
open Misc

namespace Json

/-- The members that `getMemberNames` goes through; a null value has none. -/
def memberList : Json → Option (List (Bytes × Json))
  | null => some []
  | object members => some members
  | _ => none

/-- `json[name]` where the value has members. -/
def valueOf (members : List (Bytes × Json)) (name : Bytes) : Json := (members.lookup name).getD null

variable {json : Json} {members : List (Bytes × Json)}

theorem getMemberNames_some (has : json.memberList = some members) :
    json.getMemberNames = .ok (members.map Prod.fst) := by
  cases json <;> cases has <;> rfl

theorem getMemberNames_none (none_ : json.memberList = none) :
    json.getMemberNames =
      .error (.exception "in Json::Value::getMemberNames(), value must be objectValue") := by
  cases json <;> first | rfl | cases none_

theorem index_some (has : json.memberList = some members) (name : Bytes) :
    json.index name = .ok (valueOf members name) := by
  cases json <;> cases has <;> rfl

theorem getMemberNames_returns (json : Json) :
    (∃ names, json.getMemberNames = .ok names) ↔ json.memberList.isSome := by
  cases json <;> simp [getMemberNames, memberList]

end Json

namespace DatabaseWriter

section Texts

variable (pg : Postgres) (jsoncpp : JsonCpp)

/-- A number as `operator<<` writes it. -/
def numberText (value : Json) : Bytes :=
  if value.isInt || value.isInt64 then (value.integral?.map decimal).getD []
  else formatG 6 value.asDouble

/-- What `valueText` gives, kind by kind. -/
def literalText (boolText : Bool → Bytes) (value : Json) : Bytes :=
  match value with
  | .null => str "NULL"
  | .string text => textLiteral pg.escapedText text
  | .bool b => boolText b
  | .int _ | .uint _ | .real _ => numberText value
  | .array _ | .object _ => textLiteral pg.escapedText (jsoncpp.toStyledString value)

/-- What `valueText` escapes fits into the block that it is written to. -/
def LiteralFits : Json → Prop
  | .string text => pg.Fits text
  | .array values => pg.Fits (jsoncpp.toStyledString (.array values))
  | .object members => pg.Fits (jsoncpp.toStyledString (.object members))
  | _ => True

instance (value : Json) : Decidable (LiteralFits pg jsoncpp value) := by
  cases value <;> unfold LiteralFits <;> infer_instance

/-- The same for all that a row has in its members. -/
def RowFits (members : List (Bytes × Json)) : Prop :=
  ∀ member ∈ members, LiteralFits pg jsoncpp (Json.valueOf members member.1)

instance (members : List (Bytes × Json)) : Decidable (RowFits pg jsoncpp members) :=
  inferInstanceAs (Decidable (∀ member ∈ members, LiteralFits pg jsoncpp _))

theorem valueText_fits (boolText : Bool → Bytes) {value : Json}
    (fits : LiteralFits pg jsoncpp value) :
    valueText pg jsoncpp boolText value = .ok (literalText pg jsoncpp boolText value) := by
  cases value with
  | null | bool _ => rfl
  | string text =>
    change (do let escaped ← escapeString pg text; return str "'" ++ escaped ++ str "'") = _
    rw [escapeString_fits fits]
    rfl
  | array _ | object _ =>
    change (do let escaped ← escapeString pg _; return str "'" ++ escaped ++ str "'") = _
    rw [escapeString_fits fits]
    rfl
  | int _ | uint _ | real _ =>
    unfold literalText numberText
    simp only [valueText, Json.isNull, Json.isString, Json.isDouble, Bool.false_eq_true, if_false,
      if_true]
    split <;> rfl

theorem valueText_overflows (boolText : Bool → Bytes) {value : Json}
    (overflows : ¬LiteralFits pg jsoncpp value) :
    valueText pg jsoncpp boolText value = .error (.undefined .pastTheEnd) := by
  cases value with
  | null | bool _ | int _ | uint _ | real _ => exact absurd trivial overflows
  | string text =>
    change (do let escaped ← escapeString pg text; return str "'" ++ escaped ++ str "'") = _
    rw [escapeString_overflows overflows]
    rfl
  | array _ | object _ =>
    change (do let escaped ← escapeString pg _; return str "'" ++ escaped ++ str "'") = _
    rw [escapeString_overflows overflows]
    rfl

/-- The INSERT that `insertRow` executes. -/
def insertText (table : Bytes) (members : List (Bytes × Json)) : Bytes :=
  str "INSERT INTO " ++ table ++ str " (" ++
    commaSeparated (members.map fun member => quoteColumn member.1) ++ str ") VALUES (" ++
    commaSeparated (members.map fun member =>
      literalText pg jsoncpp insertedBool (Json.valueOf members member.1)) ++ str ")"

/-- What `updateRow` puts between `SET` and `WHERE`. -/
def setText (members : List (Bytes × Json)) : Bytes :=
  commaSeparated (members.map fun member => quoteColumn member.1 ++
    literalText pg jsoncpp assignedBool (Json.valueOf members member.1))

/-- The UPDATE that `updateRow` executes. -/
def updateText (table : Bytes) (members : List (Bytes × Json)) (key : Bytes × Bytes) : Bytes :=
  str "UPDATE " ++ table ++ str " SET " ++ setText pg jsoncpp members ++ whereClause key

/-- The CREATE TABLE that `createTableIfNotExists` executes. -/
def createTableText (table : Bytes) (members : List (Bytes × Json)) : Bytes :=
  str "CREATE TABLE IF NOT EXISTS " ++ table ++ str " (" ++
    commaSeparated (members.map fun member =>
      quoteColumn member.1 ++ str " " ++ getColumnType (Json.valueOf members member.1)) ++ str ")"

variable {jsoncpp} {data : Json} {members : List (Bytes × Json)}

/-- A row with members is one statement, if its texts fit. -/
theorem insertRow_eq (table : Bytes) (has : data.memberList = some members) :
    insertRow pg jsoncpp table data =
      if RowFits pg jsoncpp members then execute pg (insertText pg jsoncpp table members)
      else liftE pg (.error (.undefined .pastTheEnd)) := by
  have values : (members.map Prod.fst).mapM (fun key => do
      let value ← data.index key
      valueText pg jsoncpp insertedBool value) =
        if RowFits pg jsoncpp members then .ok (members.map fun member =>
          literalText pg jsoncpp insertedBool (Json.valueOf members member.1))
        else .error (.undefined .pastTheEnd) := by
    rw [List.mapM_map]
    apply except_mapM_ite
    · intro member _ fits
      rw [Function.comp_apply, Json.index_some has]
      exact valueText_fits pg jsoncpp insertedBool fits
    · intro member _ overflows
      rw [Function.comp_apply, Json.index_some has]
      exact valueText_overflows pg jsoncpp insertedBool overflows
  rw [insertRow, Json.getMemberNames_some has, liftE_ok_bind, values]
  split
  · rw [liftE_ok_bind, insertText, List.map_map]
    rfl
  · rfl

theorem updateRow_eq (table : Bytes) (before : Json) (primaryKey : Bytes)
    (has : data.memberList = some members) :
    updateRow pg jsoncpp table before data primaryKey =
      liftE pg (rowKey before primaryKey) >>= fun key =>
        if RowFits pg jsoncpp members then execute pg (updateText pg jsoncpp table members key)
        else liftE pg (.error (.undefined .pastTheEnd)) := by
  have written : (members.map Prod.fst).mapM (assignment pg jsoncpp data) =
      if RowFits pg jsoncpp members then .ok (members.map fun member => quoteColumn member.1 ++
        literalText pg jsoncpp assignedBool (Json.valueOf members member.1))
      else .error (.undefined .pastTheEnd) := by
    rw [List.mapM_map]
    apply except_mapM_ite
    · intro member _ fits
      rw [Function.comp_apply, assignment, Json.index_some has]
      simp only [bind, Except.bind, valueText_fits pg jsoncpp assignedBool fits]
      rfl
    · intro member _ overflows
      rw [Function.comp_apply, assignment, Json.index_some has]
      simp only [bind, Except.bind, valueText_overflows pg jsoncpp assignedBool overflows]
  rw [updateRow, Json.getMemberNames_some has]
  simp only [liftE_ok_bind, written]
  split <;> rfl

theorem buildCreateTableSql_eq (table : Bytes) (has : data.memberList = some members) :
    buildCreateTableSql table data = .ok (createTableText table members) := by
  have written : (members.map Prod.fst).mapM (columnDefinition data) =
      .ok ((members.map Prod.fst).map fun key =>
        quoteColumn key ++ str " " ++ getColumnType (Json.valueOf members key)) := by
    apply except_mapM_ok
    intro key _
    rw [columnDefinition, Json.index_some has]
    rfl
  rw [buildCreateTableSql, Json.getMemberNames_some has]
  simp only [bind, Except.bind, written, createTableText, List.map_map]
  rfl

end Texts

end DatabaseWriter

end KafkaReplication
