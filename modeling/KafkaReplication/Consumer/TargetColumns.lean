import KafkaReplication.Consumer.WhereClause
import KafkaReplication.Consumer.WriterFaults

/-!
# The columns of a target table

For an INSERT message `handlerIncomingData` asks whether the table is there, creates it from the
message's row if not, and inserts the row (`consumer_bo/database_writer.cpp:41-173`, `:263-273`).
No statement alters a table, so it keeps the columns of the row that it was created from.
-/

namespace KafkaReplication
open Misc

namespace Json

/-- The names that `getMemberNames` gives, if it gives any. -/
def memberNames (json : Json) : List Bytes := (json.memberList.getD []).map Prod.fst

theorem memberNames_some {json : Json} {members : List (Bytes × Json)}
    (has : json.memberList = some members) : json.memberNames = members.map Prod.fst := by
  rw [memberNames, has]
  rfl

end Json

namespace DatabaseWriter

/-- What PostgreSQL documents about the statements of an INSERT message into this table, in terms
of the table's columns (`none` where the statements find no such table) and of whether
`information_schema.tables` lists another table or view of the name: it goes through all schemas,
its own views among them. The columns' names can stand between quotes as they are. -/
structure DocumentsColumns (pg : Postgres) (jsoncpp : JsonCpp) (table : Bytes)
    (columns : pg.Database → Option (List Bytes)) (elsewhere : pg.Database → Bool) : Prop where
  /-- What is listed is the table or another one, which always is, and looking is no change. -/
  asks : ∀ db, let asked := pg.exec (cStr (tableExistsSql table)) db
    columns asked.2 = columns db ∧ elsewhere asked.2 = elsewhere db ∧
      (0 < asked.1.ntuples → (columns db).isSome = true ∨ elsewhere db = true) ∧
      (elsewhere db = true → 0 < asked.1.ntuples)
  /-- `CREATE TABLE IF NOT EXISTS` makes the table with the columns, if it is carried out. -/
  creates : ∀ (members : List (Bytes × Json)) db, (∀ member ∈ members, PlainName member.1) →
    columns db = none →
      let after := pg.exec (cStr (createTableText table members)) db
      columns after.2 = if after.1.commandOk then some (members.map Prod.fst) else none
  /-- It does nothing to a table that is there. -/
  keeps : ∀ (members : List (Bytes × Json)) db, (∀ member ∈ members, PlainName member.1) →
    (columns db).isSome = true →
      columns (pg.exec (cStr (createTableText table members)) db).2 = columns db
  /-- Nor to the other tables. -/
  others : ∀ (members : List (Bytes × Json)) db, (∀ member ∈ members, PlainName member.1) →
    elsewhere (pg.exec (cStr (createTableText table members)) db).2 = elsewhere db
  /-- `INSERT` does not change columns. -/
  inserts : ∀ (members : List (Bytes × Json)) db, (∀ member ∈ members, PlainName member.1) →
    let after := pg.exec (cStr (insertText pg jsoncpp table members)) db
    columns after.2 = columns db ∧ elsewhere after.2 = elsewhere db

/-- An INSERT message for the table, with names that can stand between quotes as they are. -/
structure InsertInto (table : Bytes) (message : ConsumerMessage) : Prop where
  op : message.op = str "INSERT"
  table_eq : message.table = table
  plain : ∀ name ∈ message.data.memberNames, PlainName name

section Runs

variable (pg : Postgres) (jsoncpp : JsonCpp) (table : Bytes)

/-- Messages one after the other, in the thread that writes. -/
def handleAll : List ConsumerMessage → WriterM pg Unit
  | [] => return ()
  | message :: messages => do
      let _result ← handlerIncomingData pg jsoncpp message
      handleAll messages

/-- The first of the messages for which `createTableIfNotExists` returns true. -/
def creator : List ConsumerMessage → pg.Database → Option ConsumerMessage
  | [], _ => none
  | message :: messages, db =>
      match createTableIfNotExists pg message.table message.data db with
      | .error _ _ => none
      | .ok true _ => some message
      | .ok false prepared =>
          match insertRow pg jsoncpp message.table message.data prepared with
          | .error _ _ => none
          | .ok _ after => creator messages after

variable {pg jsoncpp table} {columns : pg.Database → Option (List Bytes)}
  {elsewhere : pg.Database → Bool}

theorem InsertInto.plain_members {message : ConsumerMessage} (insert_ : InsertInto table message)
    {members : List (Bytes × Json)} (has : message.data.memberList = some members) :
    ∀ member ∈ members, PlainName member.1 := by
  intro member listed
  apply insert_.plain
  rw [Json.memberNames_some has]
  exact List.mem_map.mpr ⟨member, listed, rfl⟩

/-- What creating leaves: a table that is there, or one with the columns of the row. Where another
table is listed nothing is created, though true is returned. -/
theorem createTableIfNotExists_columns
    (documents : DocumentsColumns pg jsoncpp table columns elsewhere)
    {message : ConsumerMessage} (insert_ : InsertInto table message) {db after : pg.Database}
    {created : Bool}
    (run : createTableIfNotExists pg message.table message.data db = .ok created after) :
    columns after = (columns db).or
        (if created && !elsewhere db then some message.data.memberNames else none) ∧
      elsewhere after = elsewhere db := by
  rw [insert_.table_eq] at run
  obtain ⟨asked_eq, asked_others, listed, others_listed⟩ := documents.asks db
  have found : tableExists pg table db =
      .ok (decide ((pg.exec (cStr (tableExistsSql table)) db).1.ntuples > 0))
        (pg.exec (cStr (tableExistsSql table)) db).2 := rfl
  rw [createTableIfNotExists, bind_ok found] at run
  by_cases some_ : (pg.exec (cStr (tableExistsSql table)) db).1.ntuples > 0
  · rw [decide_eq_true some_] at run
    cases run
    refine ⟨?_, asked_others⟩
    rw [asked_eq]
    rcases listed some_ with here | there
    · obtain ⟨names, here⟩ := Option.isSome_iff_exists.mp here
      rw [here]
      rfl
    · rw [there]
      exact Option.or_none.symm
  · rw [decide_eq_false some_] at run
    have alone : elsewhere db = false :=
      Bool.eq_false_of_not_eq_true fun there => some_ (others_listed there)
    cases has : message.data.memberList with
    | none =>
      rw [buildCreateTableSql, Json.getMemberNames_none has] at run
      cases run
    | some members =>
      have plain := insert_.plain_members has
      rw [buildCreateTableSql_eq table has] at run
      cases run
      refine ⟨?_, (documents.others members _ plain).trans asked_others⟩
      rw [← asked_eq, Json.memberNames_some has, alone, Bool.not_false, Bool.and_true]
      cases there : columns (pg.exec (cStr (tableExistsSql table)) db).2 with
      | none => exact documents.creates members _ plain there
      | some names =>
        have kept := documents.keeps members _ plain (Option.isSome_iff_exists.mpr ⟨_, there⟩)
        rw [there] at kept
        exact kept

/-- An INSERT leaves the columns. -/
theorem insertRow_columns (documents : DocumentsColumns pg jsoncpp table columns elsewhere)
    {message : ConsumerMessage} (insert_ : InsertInto table message) {db after : pg.Database}
    {inserted : Bool}
    (run : insertRow pg jsoncpp message.table message.data db = .ok inserted after) :
    columns after = columns db ∧ elsewhere after = elsewhere db := by
  obtain ⟨members, has, fits⟩ :=
    (insertRow_returned message.table message.data).mp ⟨_, _, run⟩
  rw [insertRow_eq pg message.table has, if_pos fits, insert_.table_eq] at run
  cases run
  exact documents.inserts members db (insert_.plain_members has)

/-- One message: the table that is there, or the one that is created from its row. -/
theorem handlerIncomingData_columns
    (documents : DocumentsColumns pg jsoncpp table columns elsewhere)
    {message : ConsumerMessage} (insert_ : InsertInto table message) {db after : pg.Database}
    {result : Bool} (run : handlerIncomingData pg jsoncpp message db = .ok result after) :
    ∃ created prepared inserted,
      createTableIfNotExists pg message.table message.data db = .ok created prepared ∧
        insertRow pg jsoncpp message.table message.data prepared = .ok inserted after ∧
          columns after = (columns db).or
              (if created && !elsewhere db then some message.data.memberNames else none) ∧
            elsewhere after = elsewhere db := by
  rw [handlerIncomingData, if_pos insert_.op] at run
  obtain ⟨created, prepared, createdRun, insertedRun⟩ := bind_eq_ok.mp run
  obtain ⟨made, others⟩ := createTableIfNotExists_columns documents insert_ createdRun
  obtain ⟨kept, others'⟩ := insertRow_columns documents insert_ insertedRun
  exact ⟨created, prepared, result, createdRun, insertedRun, kept.trans made,
    others'.trans others⟩

/-- Over a run: the table that is there, or the one that the first message made that could. -/
theorem handleAll_columns (documents : DocumentsColumns pg jsoncpp table columns elsewhere)
    {message : ConsumerMessage} (insert_ : InsertInto table message)
    {earlier : List ConsumerMessage} (inserts : ∀ other ∈ earlier, InsertInto table other)
    {db reached prepared : pg.Database} {created : Bool}
    (handled : handleAll pg jsoncpp earlier db = .ok () reached)
    (asked : createTableIfNotExists pg message.table message.data reached =
      .ok created prepared) :
    columns prepared = (columns db).or (if elsewhere db then none else
      (creator pg jsoncpp (earlier ++ [message]) db).map fun first =>
        first.data.memberNames) := by
  induction earlier generalizing db with
  | nil =>
    cases handled
    obtain ⟨after, -⟩ := createTableIfNotExists_columns documents insert_ asked
    rw [List.nil_append, creator, asked, after]
    cases elsewhere reached with
    | true => simp
    | false =>
      cases created with
      | true => rfl
      | false =>
        dsimp only
        cases insertRow pg jsoncpp message.table message.data prepared <;> rfl
  | cons other earlier ih =>
    obtain ⟨result, between, first, handled⟩ := bind_eq_ok.mp handled
    obtain ⟨firstCreated, firstPrepared, inserted, createdRun, insertedRun, after, others⟩ :=
      handlerIncomingData_columns documents (inserts other List.mem_cons_self) first
    have rest := ih (fun later member => inserts later (List.mem_cons_of_mem other member)) handled
    rw [rest, after, others, List.cons_append, creator, createdRun]
    cases elsewhere db with
    | true => simp
    | false =>
      cases firstCreated with
      | true =>
        -- what is there once stays
        cases columns db <;> rfl
      | false =>
        simp only [insertedRun, Bool.false_and, Bool.false_eq_true, if_false, Option.or_none]

end Runs

/-! ## A server with one table -/

section CatalogServer

/-- The texts between quotes, where no quote is doubled; the first argument is the text that is
being read. -/
def betweenQuotes : Option Bytes → Bytes → List Bytes
  | _, [] => []
  | none, c :: rest =>
      if c = chr '"' then betweenQuotes (some []) rest else betweenQuotes none rest
  | some name, c :: rest =>
      if c = chr '"' then name :: betweenQuotes none rest
      else betweenQuotes (some (name ++ [c])) rest

/-- What every CREATE TABLE of the writer begins with. -/
def createFront : Bytes := str "CREATE TABLE IF NOT EXISTS "

/-- A server for the statements of one table: it has the table's columns, and whether another schema
has a table of the name. It takes everything. -/
def catalogServer (table : Bytes) : Postgres where
  Database := Option (List Bytes) × Bool
  rows _ _ := []
  exec sql db :=
    if sql = tableExistsSql table then
      (⟨true, if db.1.isSome || db.2 then 1 else 0⟩, db)
    else if createFront.isPrefixOf sql then
      (⟨true, 0⟩, (db.1.or (some (betweenQuotes none sql)), db.2))
    else (⟨true, 0⟩, db)
  escapeStringConn := doubled (chr '\'')
  spare := 23

theorem betweenQuotes_skip {front : Bytes} (plain : chr '"' ∉ front) (rest : Bytes) :
    betweenQuotes none (front ++ rest) = betweenQuotes none rest := by
  induction front with
  | nil => rfl
  | cons c front ih =>
    rw [List.mem_cons, not_or] at plain
    rw [List.cons_append, betweenQuotes, if_neg (Ne.symm plain.1), ih plain.2]

theorem betweenQuotes_name {name : Bytes} (plain : chr '"' ∉ name) (read rest : Bytes) :
    betweenQuotes (some read) (name ++ chr '"' :: rest) =
      (read ++ name) :: betweenQuotes none rest := by
  induction name generalizing read with
  | nil =>
    rw [List.nil_append, betweenQuotes, if_pos rfl, List.append_nil]
  | cons c name ih =>
    rw [List.mem_cons, not_or] at plain
    rw [List.cons_append, betweenQuotes, if_neg (Ne.symm plain.1), ih plain.2, List.append_assoc]
    rfl

theorem getColumnType_mem (value : Json) :
    getColumnType value ∈
      [str "INTEGER", str "BIGINT", str "DOUBLE PRECISION", str "BOOLEAN", str "TEXT"] := by
  unfold getColumnType
  split_ifs <;> simp

/-- A column's definition has its name between quotes, and no other quote. -/
theorem betweenQuotes_definition {name : Bytes} (plain : chr '"' ∉ name) (value : Json)
    (rest : Bytes) :
    betweenQuotes none (quoteColumn name ++ str " " ++ getColumnType value ++ rest) =
      name :: betweenQuotes none rest := by
  have type : chr '"' ∉ str " " ++ getColumnType value := by
    have types : ∀ type ∈ [str "INTEGER", str "BIGINT", str "DOUBLE PRECISION", str "BOOLEAN",
        str "TEXT"], chr '"' ∉ str " " ++ type := by decide
    exact types _ (getColumnType_mem value)
  have shape : quoteColumn name ++ str " " ++ getColumnType value ++ rest =
      chr '"' :: (name ++ chr '"' :: (str " " ++ getColumnType value ++ rest)) := by
    rw [List.append_assoc, List.append_assoc, quoteColumn_append, List.append_assoc]
  rw [shape, betweenQuotes, if_pos rfl, betweenQuotes_name plain, betweenQuotes_skip type]
  rfl

theorem betweenQuotes_definitions {columns : List (Bytes × Json)}
    (plain : ∀ column ∈ columns, chr '"' ∉ column.1) (rest : Bytes) :
    betweenQuotes none (commaSeparated (columns.map fun column =>
      quoteColumn column.1 ++ str " " ++ getColumnType column.2) ++ rest) =
        columns.map Prod.fst ++ betweenQuotes none rest := by
  have comma : chr '"' ∉ str ", " := by decide
  induction columns with
  | nil => rfl
  | cons column columns ih =>
    have first := plain column List.mem_cons_self
    cases columns with
    | nil =>
      rw [List.map_singleton, commaSeparated_singleton, betweenQuotes_definition first]
      rfl
    | cons next columns =>
      have later := ih fun other member => plain other (List.mem_cons_of_mem column member)
      rw [List.map_cons] at later ⊢
      rw [List.map_cons, commaSeparated_cons_cons, List.append_assoc (_ ++ _),
        List.append_assoc (str ", "), betweenQuotes_definition first, betweenQuotes_skip comma,
        later]
      rfl

variable {table : Bytes} {members : List (Bytes × Json)}

theorem createTableText_eq (table : Bytes) (members : List (Bytes × Json)) :
    createTableText table members = createFront ++ (table ++ (str " (" ++
      (commaSeparated ((members.map fun member =>
        (member.1, Json.valueOf members member.1)).map fun column =>
          quoteColumn column.1 ++ str " " ++ getColumnType column.2) ++ str ")"))) := by
  rw [createTableText, List.map_map]
  simp only [List.append_assoc]
  rfl

theorem betweenQuotes_createTableText (plainTable : chr '"' ∉ table)
    (plain : ∀ member ∈ members, PlainName member.1) :
    betweenQuotes none (createTableText table members) = members.map Prod.fst := by
  have front : chr '"' ∉ createFront := by decide
  have opens : chr '"' ∉ str " (" := by decide
  have columns : ∀ column ∈ members.map fun member => (member.1, Json.valueOf members member.1),
      chr '"' ∉ column.1 := by
    intro column listed
    obtain ⟨member, inRow, rfl⟩ := List.mem_map.mp listed
    exact (plain member inRow).2.2.1
  rw [createTableText_eq, betweenQuotes_skip front, betweenQuotes_skip plainTable,
    betweenQuotes_skip opens, betweenQuotes_definitions columns, List.map_map]
  exact List.append_nil _

theorem zero_notMem_createTableText (nulTable : 0 ∉ table)
    (plain : ∀ member ∈ members, PlainName member.1) : 0 ∉ createTableText table members := by
  have definitions : 0 ∉ commaSeparated ((members.map fun member =>
      (member.1, Json.valueOf members member.1)).map fun column =>
        quoteColumn column.1 ++ str " " ++ getColumnType column.2) := by
    apply zero_notMem_commaSeparated
    intro column inColumns
    obtain ⟨member, inRow, rfl⟩ := List.mem_map.mp inColumns
    have types : ∀ type ∈ [str "INTEGER", str "BIGINT", str "DOUBLE PRECISION", str "BOOLEAN",
        str "TEXT"], 0 ∉ type := by decide
    simp only [List.mem_append, not_or]
    exact ⟨⟨zero_notMem_quoteColumn (plain member inRow).2.2.2, by decide⟩,
      types _ (getColumnType_mem _)⟩
  rw [createTableText_eq]
  simp only [List.mem_append, not_or]
  exact ⟨by decide, nulTable, by decide, definitions, by decide⟩

theorem catalogServer_create (nulTable : 0 ∉ table) (plainTable : chr '"' ∉ table)
    (plain : ∀ member ∈ members, PlainName member.1) (db : (catalogServer table).Database) :
    (catalogServer table).exec (cStr (createTableText table members)) db =
      (⟨true, 0⟩, (db.1.or (some (members.map Prod.fst)), db.2)) := by
  have notAsked : createTableText table members ≠ tableExistsSql table := by
    intro same
    rw [createTableText_eq] at same
    exact absurd (List.head_eq_of_cons_eq same) (by decide)
  have begins : createFront.isPrefixOf (createTableText table members) = true := by
    rw [List.isPrefixOf_iff_prefix, createTableText_eq]
    exact List.prefix_append _ _
  rw [cStr_of_notMem (zero_notMem_createTableText nulTable plain)]
  unfold catalogServer
  simp only [if_neg notAsked, begins, if_true, betweenQuotes_createTableText plainTable plain]

theorem catalogServer_documents (jsoncpp : JsonCpp) (nulTable : 0 ∉ table)
    (plainTable : chr '"' ∉ table) :
    DocumentsColumns (catalogServer table) jsoncpp table Prod.fst Prod.snd where
  asks db := by
    rw [cStr_of_notMem (zero_notMem_tableExistsSql nulTable)]
    unfold catalogServer
    simp only [if_true]
    obtain ⟨here, there⟩ := db
    cases here <;> cases there <;> simp
  creates members db plain absent := by
    rw [catalogServer_create nulTable plainTable plain, absent]
    rfl
  keeps members db plain some_ := by
    rw [catalogServer_create nulTable plainTable plain]
    obtain ⟨names, here⟩ := Option.isSome_iff_exists.mp some_
    rw [here]
    rfl
  others members db plain := by
    rw [catalogServer_create nulTable plainTable plain]
  inserts members db plain := by
    have front : 0 ∉ str "INSERT INTO " := by decide
    have sent : ∃ rest, cStr (insertText (catalogServer table) jsoncpp table members) =
        str "INSERT INTO " ++ rest := by
      rw [insertText, List.append_assoc, List.append_assoc, List.append_assoc, List.append_assoc,
        List.append_assoc]
      exact ⟨_, cStr_append front _⟩
    obtain ⟨rest, sent⟩ := sent
    have notAsked : str "INSERT INTO " ++ rest ≠ tableExistsSql table := fun same =>
      absurd (List.head_eq_of_cons_eq same) (by decide)
    have others : createFront.isPrefixOf (str "INSERT INTO " ++ rest) = false := rfl
    rw [sent]
    unfold catalogServer
    simp only [if_neg notAsked, others, Bool.false_eq_true, if_false]
    exact ⟨trivial, trivial⟩

end CatalogServer

/-! ## Columns that come later -/

/-- Whenever `insertRow` runs, the table has the columns of the message that it was created from
and no others: a column that the row names is there exactly if that message has it, and no other
table of the name is listed, where none is created at all. -/
theorem insertedColumn_exists_iff {pg : Postgres} {jsoncpp : JsonCpp} {table : Bytes}
    {columns : pg.Database → Option (List Bytes)} {elsewhere : pg.Database → Bool}
    (documents : DocumentsColumns pg jsoncpp table columns elsewhere)
    {message : ConsumerMessage} (insert_ : InsertInto table message)
    {earlier : List ConsumerMessage} (inserts : ∀ other ∈ earlier, InsertInto table other)
    {db reached prepared : pg.Database} {created : Bool} (absent : columns db = none)
    (handled : handleAll pg jsoncpp earlier db = .ok () reached)
    (asked : createTableIfNotExists pg message.table message.data reached =
      .ok created prepared) (column : Bytes) :
    (∃ there, columns prepared = some there ∧ column ∈ there) ↔
      elsewhere db = false ∧ ∃ first, creator pg jsoncpp (earlier ++ [message]) db = some first ∧
        column ∈ first.data.memberNames := by
  rw [handleAll_columns documents insert_ inserts handled asked, absent, Option.none_or]
  cases elsewhere db with
  | true => simp
  | false =>
    simp only [Bool.false_eq_true, if_false, Option.map_eq_some_iff, true_and]
    constructor
    · rintro ⟨there, ⟨first, made, rfl⟩, member⟩
      exact ⟨first, made, member⟩
    · rintro ⟨first, made, member⟩
      exact ⟨_, ⟨first, made, rfl⟩, member⟩

/-- A row of a table with one column. -/
def firstMessage : ConsumerMessage where
  op := str "INSERT"
  table := str "users"
  data := .object [(str "id", .int 1)]

/-- A row after a column has been added. -/
def widerMessage : ConsumerMessage where
  op := str "INSERT"
  table := str "users"
  data := .object [(str "email", .string (str "a@b")), (str "id", .int 2)]

theorem firstMessage_inserts : InsertInto (str "users") firstMessage :=
  ⟨rfl, rfl, by decide⟩

theorem widerMessage_inserts : InsertInto (str "users") widerMessage :=
  ⟨rfl, rfl, by decide⟩

theorem users_documents : DocumentsColumns (catalogServer (str "users")) (JsonCpp.compactOf [])
    (str "users") Prod.fst Prod.snd := catalogServer_documents _ (by decide) (by decide)

theorem firstMessage_handled :
    handleAll (catalogServer (str "users")) (JsonCpp.compactOf []) [firstMessage] (none, false) =
      .ok () (some [str "id"], false) := by
  rfl

theorem widerMessage_asked :
    createTableIfNotExists (catalogServer (str "users")) widerMessage.table widerMessage.data
      (some [str "id"], false) = .ok true (some [str "id"], false) := by
  rfl

theorem insertedColumn_exists_iff_id :
    ∃ there, some [str "id"] = some there ∧ str "id" ∈ there :=
  (insertedColumn_exists_iff users_documents widerMessage_inserts
    (List.forall_mem_singleton.mpr firstMessage_inserts) rfl firstMessage_handled
    widerMessage_asked (str "id")).mpr ⟨rfl, firstMessage, rfl, List.mem_cons_self⟩

/-- When the wider row is inserted, the column that was added is not in the table. -/
theorem addedColumn_missing :
    InsertInto (str "users") firstMessage ∧ InsertInto (str "users") widerMessage ∧
      DocumentsColumns (catalogServer (str "users")) (JsonCpp.compactOf []) (str "users")
        Prod.fst Prod.snd ∧
      handleAll (catalogServer (str "users")) (JsonCpp.compactOf []) [firstMessage]
        (none, false) = .ok () (some [str "id"], false) ∧
      createTableIfNotExists (catalogServer (str "users")) widerMessage.table widerMessage.data
        (some [str "id"], false) = .ok true (some [str "id"], false) ∧
      str "email" ∈ widerMessage.data.memberNames ∧ str "email" ∉ [str "id"] :=
  ⟨firstMessage_inserts, widerMessage_inserts, users_documents, firstMessage_handled,
    widerMessage_asked, by decide, by decide⟩

/-- A view of `information_schema` has the name of the table: true is returned, and there is no
table to insert into. -/
example : createTableIfNotExists (catalogServer (str "parameters")) (str "parameters")
    widerMessage.data (none, true) = .ok true (none, true) := rfl

end DatabaseWriter

end KafkaReplication
