import KafkaReplication.Consumer.DeleteStatement
import KafkaReplication.Pipeline.EventTrip

/-!
# The rows that a Delete event removes

`extractKey` stops at the first key-flagged column, and `deleteRow` compares that column alone
with the text it had, written between apostrophes as it is. `escapeString` is not used for it.
-/

namespace KafkaReplication
open Misc ReplicationConsumer DatabaseWriter

/-- The relation has distinct column names, and some of its columns are flagged. -/
structure Keyed (relation : RelationMessage) : Prop where
  distinct : (relation.columns.map Column.name).Nodup
  flagged : ∃ col ∈ relation.columns, col.isKey = true

namespace FullTuple

variable {relation : RelationMessage} (tuple : FullTuple relation)

/-- The key-flagged columns with their values. -/
def keyEntries : List (Column × Bytes) := tuple.entries.filter (·.1.isKey)

/-- The row has the tuple's value in every key-flagged column. -/
def Agrees (row : Row) : Prop :=
  ∀ entry ∈ tuple.entries, entry.1.isKey = true → row entry.1.name = some entry.2

instance : DecidablePred tuple.Agrees := fun row =>
  inferInstanceAs (Decidable (∀ entry ∈ tuple.entries, entry.1.isKey = true →
    row entry.1.name = some entry.2))

/-- The tuple as a row. -/
def row : Row := fun name => tuple.pairs.lookup name

theorem agrees_iff {row : Row} :
    tuple.Agrees row ↔ ∀ entry ∈ tuple.keyEntries, row entry.1.name = some entry.2 := by
  unfold Agrees keyEntries
  constructor
  · intro agrees entry member
    obtain ⟨entry_mem, isKey⟩ := List.mem_filter.mp member
    exact agrees entry entry_mem isKey
  · intro agrees entry entry_mem isKey
    exact agrees entry (List.mem_filter.mpr ⟨entry_mem, isKey⟩)

theorem agrees_row (keyed : Keyed relation) : tuple.Agrees tuple.row := by
  intro entry member _
  exact lookup_of_mem (tuple.pairs_names ▸ keyed.distinct) (tuple.pair_mem member)

/-- The first key entry belongs to the column that `extractKey` chooses. -/
theorem head_keyEntries (keyed : Keyed relation) :
    ∃ first, tuple.keyEntries.head? = some first ∧ first ∈ tuple.entries ∧
      primaryColumn relation.columns = some first.1 := by
  have found : relation.columns.find? Column.isKey =
      (tuple.entries.find? (·.1.isKey)).map Prod.fst := by
    rw [← tuple.entries_columns, List.find?_map]
    rfl
  obtain ⟨col, member, isKey⟩ := keyed.flagged
  cases first : tuple.entries.find? (·.1.isKey) with
  | none =>
    rw [first, Option.map_none, List.find?_eq_none] at found
    exact absurd isKey (found col member)
  | some entry =>
    refine ⟨entry, ?_, List.mem_of_find?_eq_some first, ?_⟩
    · rw [keyEntries, List.head?_filter, first]
    · rw [primaryColumn, found, first]
      rfl

end FullTuple

/-! ## From the message to the statement -/

section Replica

variable (pg : Postgres) (jsoncpp : JsonCpp) (relation : RelationMessage) (now : UInt64)

/-- A delete message from `handleDelete` to `deleteRow`. -/
def replicateDelete (del : DeleteMessage) : WriterM pg Bool := do
  let event ← liftE pg (deleteEvent jsoncpp relation now del)
  replicate pg jsoncpp event.1

/-- The text that `deleteRow` sends. -/
def deleteSql (table : Bytes) (key : Bytes × Bytes) : Bytes :=
  str "DELETE FROM " ++ table ++ whereClause (key.1, keyLiteral key.2)

end Replica

section Statement

variable {pg : Postgres} {jsoncpp : JsonCpp} {relation : RelationMessage} {now : UInt64}
  {tuple : FullTuple relation}

/-- The message that deletes the tuple. -/
def FullTuple.deleteMessage (tuple : FullTuple relation) : DeleteMessage :=
  ⟨relation.relationId, tuple.values⟩

/-- What is pushed for the event of a delete. -/
theorem messageCallback_deleteEvent (primary : Bytes) (before : Json) :
    messageCallback (.object (Json.insertMember (str "primary") (.string primary)
      (Json.insertMember (str "before") before (headerMembers (str "DELETE") relation now)))) =
      .ok
        { primaryKey := primary
          op := str "DELETE"
          table := relation.getRelationName
          before := before } := by
  have header := lookup_headerMembers (str "DELETE") relation now
  obtain ⟨op, table, primaryFound, beforeFound⟩ :=
    lookup_rowMembers (str "before") header.1 header.2 (by decide) (by decide) (by decide) primary
      before
  rw [messageCallback_delete op table primaryFound, beforeFound, Option.getD_some]

/-- `deleteRow` looks for the first key column alone. -/
theorem replicateDelete_eq (keyed : Keyed relation)
    (roundTrips : ∀ event text,
      deleteEvent jsoncpp relation now tuple.deleteMessage = .ok (event, text) →
        jsoncpp.RoundTrips event)
    {first : Column × Bytes} (head : tuple.keyEntries.head? = some first) (db : pg.Database) :
    replicateDelete pg jsoncpp relation now tuple.deleteMessage db =
      execute pg (deleteSql relation.getRelationName (first.1.name, first.2)) db := by
  obtain ⟨first', head', member, chosen⟩ := tuple.head_keyEntries keyed
  rw [head] at head'
  cases head'
  have names : ∀ col ∈ relation.columns, col.name ∈ tuple.pairs.map Prod.fst :=
    fun col col_mem => tuple.name_mem col_mem
  obtain ⟨text, extracted⟩ := extractKey_full jsoncpp names chosen
  obtain ⟨primary, text', extracted', event⟩ := rowEvent_ok (str "DELETE") (str "before") jsoncpp
    relation now (Nat.le_of_eq tuple.full)
  have primaryName : primary = first.1.name :=
    congrArg Prod.fst (Except.ok.inj (extracted'.symm.trans extracted))
  subst primaryName
  have key : rowKey (rowJson tuple.pairs) first.1.name =
      .ok (first.1.name, keyLiteral first.2) := by
    apply rowKey_rowJson
    · exact names first.1 (List.of_mem_zip member).1
    · exact tuple.rowJson_find keyed.distinct member
  have built : deleteEvent jsoncpp relation now tuple.deleteMessage = _ := event
  rw [replicateDelete, built]
  show replicate pg jsoncpp _ db = _
  rw [replicate_eq pg (roundTrips _ _ built) (messageCallback_deleteEvent _ _)]
  show deleteRow pg relation.getRelationName (rowJson tuple.pairs) first.1.name db = _
  rw [deleteRow, key]
  rfl

end Statement

/-! ## The text of the statement -/

theorem length_whereClause (column value : Bytes) :
    (whereClause (column, keyLiteral value)).length = 14 + column.length + value.length := by
  have where8 : (str " WHERE \"").length = 8 := rfl
  have equals4 : (str "\" = ").length = 4 := rfl
  have quote1 : (str "'").length = 1 := rfl
  simp only [whereClause, keyLiteral, List.length_append, where8, equals4, quote1]
  omega

section Text

variable {dialect : Dialect} {stmt : dialect.Delete} {table column value : Bytes}

/-- Where nothing has to be doubled, the code's condition is that of the statement. -/
theorem whereClause_eq (columnPlain : chr '"' ∉ stmt.column)
    (valuePlain : apostrophe ∉ stmt.value) :
    whereClause (stmt.column, keyLiteral stmt.value) = stmt.condition := by
  rw [Dialect.Delete.condition, delimited_of_notMem columnPlain, delimited_of_notMem valuePlain]
  have quoteText : str " WHERE \"" = str " WHERE " ++ [chr '"'] := rfl
  have equalsText : str "\" = " = chr '"' :: str " = " := rfl
  have apostropheText : str "'" = [apostrophe] := rfl
  simp only [whereClause, keyLiteral, quoteText, equalsText, apostropheText, List.append_assoc,
    List.cons_append, List.nil_append]

theorem condition_nonzero (columnPlain : chr '"' ∉ stmt.column)
    (valuePlain : apostrophe ∉ stmt.value) : 0 ∉ stmt.condition := by
  have columnNonzero := dialect.quoted_nonzero _ stmt.quoted
  have valueNonzero := dialect.literal_nonzero _ stmt.literal
  have keyword : 0 ∉ str " WHERE " := by decide
  have equals : 0 ∉ str " = " := by decide
  have quote : (0 : UInt8) ≠ chr '"' := by decide
  have delimiter : (0 : UInt8) ≠ apostrophe := by decide
  rw [Dialect.Delete.condition, delimited_of_notMem columnPlain, delimited_of_notMem valuePlain]
  simp only [List.mem_append, List.mem_cons, List.not_mem_nil, or_false, not_or]
  exact ⟨keyword, ⟨quote, columnNonzero, quote⟩, equals, delimiter, valueNonzero, delimiter⟩

theorem cStr_deleteSql (unquoted : dialect.unquoted table) (key : Bytes × Bytes) :
    cStr (deleteSql table key) =
      str "DELETE FROM " ++ table ++ cStr (whereClause (key.1, keyLiteral key.2)) := by
  apply cStr_append
  have keyword : 0 ∉ str "DELETE FROM " := by decide
  rw [List.mem_append, not_or]
  exact ⟨keyword, dialect.unquoted_nonzero table unquoted⟩

/-- The code sends the statement, where nothing has to be doubled. -/
theorem cStr_deleteSql_eq (columnPlain : chr '"' ∉ stmt.column)
    (valuePlain : apostrophe ∉ stmt.value) :
    cStr (deleteSql stmt.table (stmt.column, stmt.value)) = stmt.sql := by
  rw [cStr_deleteSql stmt.unquoted, whereClause_eq columnPlain valuePlain,
    cStr_of_notMem (condition_nonzero columnPlain valuePlain), Dialect.Delete.sql]

/-- A statement that the code sends has the code's condition. -/
theorem condition_eq (unquoted : dialect.unquoted table) {key : Bytes × Bytes}
    (same : stmt.sql = cStr (deleteSql table key)) :
    stmt.condition = cStr (whereClause (key.1, keyLiteral key.2)) := by
  rw [cStr_deleteSql unquoted, Dialect.Delete.sql, List.append_assoc, List.append_assoc] at same
  have afterFrom := List.append_cancel_left same
  obtain ⟨rest, spaceFirst⟩ : ∃ rest, stmt.condition = chr ' ' :: rest := ⟨_, rfl⟩
  obtain ⟨rest', spaceFirst'⟩ : ∃ rest',
      cStr (whereClause (key.1, keyLiteral key.2)) = chr ' ' :: rest' := ⟨_, rfl⟩
  rw [spaceFirst, spaceFirst'] at afterFrom ⊢
  obtain ⟨_, rests⟩ := append_cons_inj_left (dialect.space_notMem _ stmt.unquoted)
    (dialect.space_notMem _ unquoted) afterFrom
  rw [rests]

/-- A statement about the code's column and value is what the code sends only where nothing
has to be doubled: it would be longer otherwise. -/
theorem plain_of_sql_eq (unquoted : dialect.unquoted table)
    (same : stmt.sql = cStr (deleteSql table (stmt.column, stmt.value))) :
    chr '"' ∉ stmt.column ∧ apostrophe ∉ stmt.value := by
  have condition := condition_eq unquoted same
  have shorter := length_cStr_le (whereClause (stmt.column, keyLiteral stmt.value))
  rw [← condition, stmt.length_condition, length_whereClause] at shorter
  constructor
  · rw [← List.count_eq_zero]
    omega
  · rw [← List.count_eq_zero]
    omega

end Text

/-! ## Exactly the rows of the key -/

section Exactly

variable (dialect : Dialect) (pg : Postgres) (jsoncpp : JsonCpp) {relation : RelationMessage}
  (now : UInt64) (tuple : FullTuple relation)

/-- The rows that agree with the tuple on the key-flagged columns are gone. The others and
those of the other tables are still there. -/
def DeletesExactly (db : pg.Database) : Prop :=
  ∃ result db',
    replicateDelete pg jsoncpp relation now tuple.deleteMessage db = .ok result db' ∧
      pg.rows db' relation.getRelationName =
        (pg.rows db relation.getRelationName).filter (fun row => ¬ tuple.Agrees row) ∧
      ∀ other, dialect.denotes other ≠ dialect.denotes relation.getRelationName →
        pg.rows db' other = pg.rows db other

/-- The relation has one key-flagged column, and table, column and value can be written as
they are. -/
def PlainKey : Prop :=
  ∃ key value, tuple.keyEntries = [(key, value)] ∧
    dialect.unquoted relation.getRelationName ∧
    dialect.quoted key.name ∧ chr '"' ∉ key.name ∧
    dialect.literal value ∧ apostrophe ∉ value

variable {dialect pg jsoncpp now tuple}

/-- Distinct columns with the same name are one column. -/
theorem keyEntries_eq_single (keyed : Keyed relation) {column value : Bytes}
    (only : ∀ entry ∈ tuple.keyEntries, entry.1.name = column ∧ entry.2 = value) :
    ∃ key, tuple.keyEntries = [(key, value)] ∧ key.name = column := by
  obtain ⟨first, head, _⟩ := tuple.head_keyEntries keyed
  have names : tuple.entries.map (·.1.name) = relation.columns.map Column.name := by
    rw [← tuple.entries_columns, List.map_map]
    rfl
  have distinct : (tuple.keyEntries.map (·.1.name)).Nodup := by
    have all := keyed.distinct
    rw [← names] at all
    exact all.sublist (List.filter_sublist.map _)
  cases entries : tuple.keyEntries with
  | nil =>
    rw [entries] at head
    cases head
  | cons entry others =>
    rw [entries] at only distinct
    obtain ⟨named, valued⟩ := only entry List.mem_cons_self
    cases others with
    | nil => exact ⟨entry.1, by rw [← valued], named⟩
    | cons second others =>
      obtain ⟨secondNamed, _⟩ := only second (List.mem_cons_of_mem _ List.mem_cons_self)
      rw [List.map_cons, List.map_cons, List.nodup_cons, named, secondNamed] at distinct
      exact absurd List.mem_cons_self distinct.1

variable (keyed : Keyed relation)
  (roundTrips : ∀ event text,
    deleteEvent jsoncpp relation now tuple.deleteMessage = .ok (event, text) →
      jsoncpp.RoundTrips event)
include keyed roundTrips

/-- One run of the code is one statement. -/
theorem deletesExactly_iff_exec
    {first : Column × Bytes} (head : tuple.keyEntries.head? = some first) (db : pg.Database) :
    DeletesExactly dialect pg jsoncpp now tuple db ↔
      let after := (pg.exec (cStr (deleteSql relation.getRelationName (first.1.name, first.2))) db).2
      pg.rows after relation.getRelationName =
        (pg.rows db relation.getRelationName).filter (fun row => ¬ tuple.Agrees row) ∧
      ∀ other, dialect.denotes other ≠ dialect.denotes relation.getRelationName →
        pg.rows after other = pg.rows db other := by
  unfold DeletesExactly
  rw [replicateDelete_eq keyed roundTrips head db]
  constructor
  · intro ⟨result, db', ran, removed, others⟩
    cases ran
    exact ⟨removed, others⟩
  · intro ⟨removed, others⟩
    exact ⟨_, _, rfl, removed, others⟩

/-- With a plain key the code sends the statement that leaves what it has to leave. -/
theorem deletesExactly_of_plainKey
    (plain : PlainKey dialect tuple) (documented : dialect.Documents pg) (db : pg.Database) :
    DeletesExactly dialect pg jsoncpp now tuple db := by
  obtain ⟨key, value, single, unquoted, quoted, keyPlain, literal, valuePlain⟩ := plain
  let stmt : dialect.Delete :=
    ⟨relation.getRelationName, key.name, value, unquoted, quoted, literal⟩
  have head : tuple.keyEntries.head? = some (key, value) := by rw [single]; rfl
  have sent : cStr (deleteSql relation.getRelationName (key.name, value)) = stmt.sql := by
    show cStr (deleteSql stmt.table (stmt.column, stmt.value)) = stmt.sql
    exact cStr_deleteSql_eq keyPlain valuePlain
  rw [deletesExactly_iff_exec keyed roundTrips head, sent]
  obtain ⟨removed, others⟩ := documented stmt db
  refine ⟨removed.trans ?_, others⟩
  apply List.filter_congr
  intro row _
  have agrees : tuple.Agrees row ↔ row key.name = some value := by
    rw [tuple.agrees_iff, single, List.forall_mem_singleton]
  exact decide_eq_decide.mpr (not_congr agrees.symm)

/-- A row that has one value in one column. -/
def onlyColumn (column value : Bytes) : Row := fun name =>
  if name = column then some value else none

/-- The strict server removes a row of the tuple only for a statement, and this statement is about
the key alone: a row that has nothing but its column must agree with the tuple. -/
theorem statement_of_deletesExactly
    {first : Column × Bytes} (head : tuple.keyEntries.head? = some first)
    (exact : ∀ db, DeletesExactly dialect dialect.strictServer jsoncpp now tuple db) :
    ∃ stmt : dialect.Delete,
      stmt.sql = cStr (deleteSql relation.getRelationName (first.1.name, first.2)) ∧
      dialect.unquoted relation.getRelationName ∧
      ∀ entry ∈ tuple.keyEntries, entry.1.name = stmt.column ∧ entry.2 = stmt.value := by
  let sql := cStr (deleteSql relation.getRelationName (first.1.name, first.2))
  have remains (row : Row) : dialect.strictServer.rows
      (dialect.strictServer.exec sql fun _ => [row]).2 relation.getRelationName =
        [row].filter fun row => ¬ tuple.Agrees row :=
    ((deletesExactly_iff_exec keyed roundTrips head _).mp (exact fun _ => [row])).1
  have changed : dialect.strictServer.rows
      (dialect.strictServer.exec sql fun _ => [tuple.row]).2 relation.getRelationName ≠
        [tuple.row] := by
    rw [remains]
    intro kept
    have left : tuple.row ∈ [tuple.row].filter fun row => ¬ tuple.Agrees row :=
      kept.symm ▸ List.mem_cons_self
    exact of_decide_eq_true (List.mem_filter.mp left).2 (tuple.agrees_row keyed)
  obtain ⟨stmt, sent, unquoted, leaves⟩ := Dialect.strictServer_changed changed
  refine ⟨stmt, sent, unquoted, ?_⟩
  have agrees : tuple.Agrees (onlyColumn stmt.column stmt.value) := by
    by_contra disagrees
    have left := (remains (onlyColumn stmt.column stmt.value)).symm.trans (leaves _)
    have kept : onlyColumn stmt.column stmt.value ∈
        stmt.remaining [onlyColumn stmt.column stmt.value] :=
      left ▸ List.mem_filter.mpr ⟨List.mem_cons_self, decide_eq_true disagrees⟩
    exact of_decide_eq_true (List.mem_filter.mp kept).2 (if_pos rfl)
  intro entry member
  have holds := tuple.agrees_iff.mp agrees entry member
  unfold onlyColumn at holds
  split at holds
  · rename_i named
    exact ⟨named, (Option.some.inj holds).symm⟩
  · cases holds

/-- The strict server shows a key that is not plain. -/
theorem plainKey_of_deletesExactly
    (exact : ∀ db, DeletesExactly dialect dialect.strictServer jsoncpp now tuple db) :
    PlainKey dialect tuple := by
  obtain ⟨first, head, _⟩ := tuple.head_keyEntries keyed
  obtain ⟨stmt, sent, unquoted, only⟩ :=
    statement_of_deletesExactly keyed roundTrips head exact
  obtain ⟨key, single, named⟩ := keyEntries_eq_single keyed only
  rw [single] at head
  cases head
  have code : stmt.sql = cStr (deleteSql relation.getRelationName (stmt.column, stmt.value)) := by
    rw [sent, ← named]
  obtain ⟨columnPlain, valuePlain⟩ := plain_of_sql_eq unquoted code
  rw [← named] at columnPlain
  exact ⟨key, stmt.value, single, unquoted, named ▸ stmt.quoted, columnPlain, stmt.literal,
    valuePlain⟩

/-- The rows removed are exactly those of the key, on every server and in every database, just
when the key is plain. -/
theorem deletesExactly_iff :
    (∀ pg, dialect.Documents pg → ∀ db, DeletesExactly dialect pg jsoncpp now tuple db) ↔
      PlainKey dialect tuple := by
  constructor
  · intro exact
    apply plainKey_of_deletesExactly keyed roundTrips
    exact exact dialect.strictServer Dialect.strictServer_documents
  · intro plain pg documented db
    exact deletesExactly_of_plainKey keyed roundTrips plain documented db

end Exactly

/-! ## A key of two columns -/

/-- The lines of an order. -/
def lineRelation : RelationMessage where
  relationId := 8
  nspname := str "public"
  relationName := str "lines"
  replicaIdentity := chr 'd'
  columns := [⟨1, str "purchase", 23, -1⟩, ⟨1, str "line", 23, -1⟩]

theorem lineRelation_keyed : Keyed lineRelation where
  distinct := by decide
  flagged := ⟨_, List.mem_cons_self, rfl⟩

/-- `DELETE FROM lines WHERE purchase = 1 AND line = 2`. -/
def lineTuple : FullTuple lineRelation where
  values := [str "1", str "2"]
  full := rfl

def lineEvent : Json := .object
  [(str "before", .object [(str "line", .string (str "2")), (str "purchase", .string (str "1"))]),
    (str "op", .string (str "DELETE")), (str "primary", .string (str "purchase")),
    (str "schema", .string (str "lines")), (str "table", .string (str "lines")),
    (str "timestamp", .int 0)]

theorem lineEvent_roundTrips (event : Json) (text : Bytes)
    (built : deleteEvent (JsonCpp.compact lineEvent) lineRelation 0 lineTuple.deleteMessage =
      .ok (event, text)) : (JsonCpp.compact lineEvent).RoundTrips event := by
  have line : deleteEvent (JsonCpp.compact lineEvent) lineRelation 0 lineTuple.deleteMessage =
      .ok (lineEvent, str "\"1\"") := rfl
  rw [line] at built
  cases built
  exact JsonCpp.compact_roundTrips lineEvent

/-- What PostgreSQL takes, where `lines` is the only table. -/
def lineDialect : Dialect where
  unquoted name := name = str "lines"
  denotes name := name
  quoted name := 0 ∉ name ∧ name ≠ [] ∧ name.length < 64
  literal value := 0 ∉ value
  space_notMem := by
    intro name lines
    rw [lines]
    decide
  unquoted_nonzero := by
    intro name lines
    rw [lines]
    decide
  quoted_nonzero _ quoted := quoted.1
  literal_nonzero _ literal := literal

theorem deletesExactly_iff_lines :
    (∀ pg, lineDialect.Documents pg → ∀ db,
        DeletesExactly lineDialect pg (JsonCpp.compact lineEvent) 0 lineTuple db) ↔
      PlainKey lineDialect lineTuple :=
  deletesExactly_iff lineRelation_keyed lineEvent_roundTrips

def lineRow (purchase line : Bytes) : Row := fun name =>
  [(str "purchase", purchase), (str "line", line)].lookup name

/-- The second line and the third one of a purchase. -/
def lineRows : lineDialect.strictServer.Database := fun _ =>
  [lineRow (str "1") (str "2"), lineRow (str "1") (str "3")]

/-- The third line is removed with the second. -/
theorem delete_line_removes_others :
    ¬ DeletesExactly lineDialect lineDialect.strictServer (JsonCpp.compact lineEvent) 0 lineTuple
      lineRows := by
  let stmt : lineDialect.Delete :=
    { table := str "lines"
      column := str "purchase"
      value := str "1"
      unquoted := rfl
      quoted := ⟨by decide, by decide, by decide⟩
      literal := by
        show 0 ∉ str "1"
        decide }
  have sent : cStr (deleteSql lineRelation.getRelationName (str "purchase", str "1")) = stmt.sql :=
    rfl
  have head : lineTuple.keyEntries.head? = some (⟨1, str "purchase", 23, -1⟩, str "1") := rfl
  rw [deletesExactly_iff_exec lineRelation_keyed lineEvent_roundTrips head]
  intro ⟨removed, _⟩
  have left : lineDialect.strictServer.rows
      (lineDialect.strictServer.exec stmt.sql lineRows).2 (str "lines") =
        stmt.remaining (lineDialect.strictServer.rows lineRows (str "lines")) :=
    (Dialect.strictServer_documents stmt lineRows).1
  have third : 0 = 1 := congrArg List.length (left.symm.trans removed)
  cases third

end KafkaReplication
