import KafkaReplication.Consumer.DeleteStatement

/-!
# INSERT statements

What PostgreSQL documents about an INSERT of one row of texts and about the two statements that
come before it (`consumer_bo/database_writer.cpp:41-74`): which table can change, and by which
row. Of texts that are no such statement nothing is known; `wildServer` takes them to add to
every table.
-/

namespace KafkaReplication
open Misc DatabaseWriter

/-! ## The texts -/

section Texts

variable (escape : Bytes → Bytes) (table : Bytes) (members : List (Bytes × Bytes))

/-- A text between apostrophes, escaped. -/
def textLiteral (text : Bytes) : Bytes := str "'" ++ escape text ++ str "'"

/-- The INSERT of a row of texts. -/
def insertSql : Bytes :=
  str "INSERT INTO " ++ table ++ str " (" ++
    commaSeparated (members.map fun member => quoteColumn member.1) ++ str ") VALUES (" ++
    commaSeparated (members.map fun member => textLiteral escape member.2) ++ str ")"

/-- The table of a row of texts. -/
def createTableSql : Bytes :=
  str "CREATE TABLE IF NOT EXISTS " ++ table ++ str " (" ++
    commaSeparated (members.map fun member => quoteColumn member.1 ++ str " " ++ str "TEXT") ++
    str ")"

/-- The question whether there is such a table. -/
def tableExistsSql : Bytes :=
  str "SELECT 1 FROM information_schema.tables WHERE table_name = '" ++ table ++ str "'"

end Texts

section NulFree

variable {escape : Bytes → Bytes} {table : Bytes} {members : List (Bytes × Bytes)}

theorem zero_notMem_commaSeparated {α : Type} {part : α → Bytes} {items : List α}
    (nulFree : ∀ item ∈ items, 0 ∉ part item) : 0 ∉ commaSeparated (items.map part) := by
  have comma : 0 ∉ str ", " := by decide
  unfold commaSeparated
  cases items with
  | nil => exact List.not_mem_nil
  | cons item items =>
    rw [List.map_cons, intercalate_cons_eq_append, List.flatMap_map, List.mem_append,
      List.mem_flatMap, not_or]
    refine ⟨nulFree item List.mem_cons_self, ?_⟩
    rintro ⟨later, mem, inside⟩
    rcases List.mem_append.mp inside with inComma | inPart
    · exact comma inComma
    · exact nulFree later (List.mem_cons_of_mem item mem) inPart

theorem zero_notMem_quoteColumn {name : Bytes} (nulFree : 0 ∉ name) : 0 ∉ quoteColumn name := by
  have quote : 0 ∉ str "\"" := by decide
  simp only [quoteColumn, List.mem_append, not_or]
  exact ⟨⟨quote, nulFree⟩, quote⟩

theorem zero_notMem_insertSql (escaped : ∀ text, 0 ∉ escape text) (nulFree : 0 ∉ table)
    (names : ∀ member ∈ members, 0 ∉ member.1) : 0 ∉ insertSql escape table members := by
  have insertInto : 0 ∉ str "INSERT INTO " := by decide
  have opens : 0 ∉ str " (" := by decide
  have values : 0 ∉ str ") VALUES (" := by decide
  have closes : 0 ∉ str ")" := by decide
  have quote : 0 ∉ str "'" := by decide
  have columns : 0 ∉ commaSeparated (members.map fun member => quoteColumn member.1) := by
    apply zero_notMem_commaSeparated
    intro member there
    exact zero_notMem_quoteColumn (names member there)
  have literals : 0 ∉ commaSeparated (members.map fun member => textLiteral escape member.2) := by
    apply zero_notMem_commaSeparated
    intro member there
    simp only [textLiteral, List.mem_append, not_or]
    exact ⟨⟨quote, escaped member.2⟩, quote⟩
  simp only [insertSql, List.mem_append, not_or]
  exact ⟨⟨⟨⟨⟨⟨insertInto, nulFree⟩, opens⟩, columns⟩, values⟩, literals⟩, closes⟩

theorem zero_notMem_createTableSql (nulFree : 0 ∉ table)
    (names : ∀ member ∈ members, 0 ∉ member.1) : 0 ∉ createTableSql table members := by
  have create : 0 ∉ str "CREATE TABLE IF NOT EXISTS " := by decide
  have opens : 0 ∉ str " (" := by decide
  have space : 0 ∉ str " " := by decide
  have type : 0 ∉ str "TEXT" := by decide
  have closes : 0 ∉ str ")" := by decide
  have columns : 0 ∉ commaSeparated
      (members.map fun member => quoteColumn member.1 ++ str " " ++ str "TEXT") := by
    apply zero_notMem_commaSeparated
    intro member there
    simp only [List.mem_append, not_or]
    exact ⟨⟨zero_notMem_quoteColumn (names member there), space⟩, type⟩
  simp only [createTableSql, List.mem_append, not_or]
  exact ⟨⟨⟨⟨create, nulFree⟩, opens⟩, columns⟩, closes⟩

theorem zero_notMem_tableExistsSql (nulFree : 0 ∉ table) : 0 ∉ tableExistsSql table := by
  have select : 0 ∉ str "SELECT 1 FROM information_schema.tables WHERE table_name = '" := by
    decide
  have quote : 0 ∉ str "'" := by decide
  simp only [tableExistsSql, List.mem_append, not_or]
  exact ⟨⟨select, nulFree⟩, quote⟩

end NulFree

/-! ## What is documented -/

namespace Dialect

/-- An INSERT of one row of texts, into columns whose names have no quote in them. -/
structure Insert (dialect : Dialect) where
  table : Bytes
  members : List (Bytes × Bytes)
  unquoted : dialect.unquoted table
  some_ : members ≠ []
  quoted : ∀ member ∈ members, dialect.quoted member.1
  plain : ∀ member ∈ members, chr '"' ∉ member.1
  nulFree : ∀ member ∈ members, 0 ∉ member.2

namespace Insert

variable {dialect : Dialect} (stmt : dialect.Insert)

def row : Row := fun name => stmt.members.lookup name

/-- The text of the statement, by what libpq escapes. -/
def sql (pg : Postgres) : Bytes := insertSql pg.escapedText stmt.table stmt.members

end Insert

/-- The server carries out these statements as documented: an INSERT adds its row to its table,
if the row is taken at all, and the others do not touch any row. -/
structure DocumentsInserts (dialect : Dialect) (pg : Postgres) : Prop where
  inserts : ∀ (stmt : dialect.Insert) (db : pg.Database),
    let after := pg.exec (stmt.sql pg) db
    (after.1.commandOk = false ∧ ∀ name, pg.rows after.2 name = pg.rows db name) ∨
      (after.1.commandOk = true ∧
        pg.rows after.2 stmt.table = pg.rows db stmt.table ++ [stmt.row] ∧
        ∀ other, dialect.denotes other ≠ dialect.denotes stmt.table →
          pg.rows after.2 other = pg.rows db other)
  creates : ∀ (stmt : dialect.Insert) (db : pg.Database) (name : Bytes),
    pg.rows (pg.exec (createTableSql stmt.table stmt.members) db).2 name = pg.rows db name
  selects : ∀ table, dialect.unquoted table → ∀ (db : pg.Database) (name : Bytes),
    pg.rows (pg.exec (tableExistsSql table) db).2 name = pg.rows db name

end Dialect

/-! ## Reading a statement back -/

/-- Where only apostrophes need escapes. -/
def doubledEscape (text : Bytes) : Bytes := doubled apostrophe (cStr text)

theorem quoteColumn_plain {name : Bytes} (plain : chr '"' ∉ name) :
    quoteColumn name = delimited (chr '"') name := by
  rw [delimited_of_notMem plain]
  rfl

/-- Two quotes a column, and those in the names. -/
theorem count_quoteColumns (names : List Bytes) :
    (commaSeparated (names.map quoteColumn)).count (chr '"') =
      2 * names.length + names.flatten.count (chr '"') := by
  have quote1 : (str "\"").count (chr '"') = 1 := by decide
  have comma0 : (str ", ").count (chr '"') = 0 := by decide
  have column (name : Bytes) :
      (quoteColumn name).count (chr '"') = name.count (chr '"') + 2 := by
    simp only [quoteColumn, List.count_append, quote1]
    omega
  induction names with
  | nil => rfl
  | cons name names ih =>
    cases names with
    | nil =>
      rw [List.map_singleton, commaSeparated_singleton, column, List.flatten_singleton,
        List.length_singleton]
      omega
    | cons next names =>
      have lists : (name :: next :: names).flatten = name ++ (next :: names).flatten := rfl
      have size : (name :: next :: names).length = (next :: names).length + 1 := rfl
      rw [List.map_cons, List.map_cons, commaSeparated_cons_cons, ← List.map_cons,
        List.count_append, List.count_append, ih, column, comma0, lists, size,
        List.count_append]
      omega

theorem count_flatten_eq_zero {quote : UInt8} {names : List Bytes} :
    names.flatten.count quote = 0 ↔ ∀ name ∈ names, quote ∉ name := by
  rw [List.count_eq_zero, List.mem_flatten]
  constructor
  · intro absent name mem inside
    exact absent ⟨name, mem, inside⟩
  · rintro plain ⟨name, mem, inside⟩
    exact plain name mem inside

section ReadBack

variable {dialect : Dialect} {stmt : dialect.Insert} {table : Bytes}
  {members : List (Bytes × Bytes)}

theorem insertSql_doubled (table : Bytes) (members : List (Bytes × Bytes)) :
    insertSql doubledEscape table members =
      (str "INSERT INTO " ++ table ++ str " (" ++
        commaSeparated ((members.map Prod.fst).map quoteColumn) ++ str ") VALUES (" ++
        commaSeparated ((members.map fun member => cStr member.2).map (delimited apostrophe))) ++
        str ")" := by
  rw [List.map_map, List.map_map]
  rfl

/-- The values, and what is in front of them. -/
theorem insertSql_values
    (same : insertSql doubledEscape table members =
      insertSql doubledEscape stmt.table stmt.members) :
    members.map (fun member => cStr member.2) = stmt.members.map (fun member => cStr member.2) ∧
      table ++ (str " (" ++ commaSeparated ((members.map Prod.fst).map quoteColumn)) =
        stmt.table ++
          (str " (" ++ commaSeparated ((stmt.members.map Prod.fst).map quoteColumn)) := by
  rw [insertSql_doubled, insertSql_doubled] at same
  have lists := List.append_cancel_right same
  have opens (table columns : Bytes) :
      (str "INSERT INTO " ++ table ++ str " (" ++ columns ++ str ") VALUES (").getLast? =
        some (chr '(') := by
    rw [List.getLast?_append]
    rfl
  have values' : stmt.members.map (fun member => cStr member.2) ≠ [] := by
    intro empty
    exact stmt.some_ (List.map_eq_nil_iff.mp empty)
  have values : members.map (fun member => cStr member.2) ≠ [] := by
    intro empty
    have nothing : commaSeparated (([] : List Bytes).map (delimited apostrophe)) = [] := rfl
    have closes (front : Bytes) : (front ++ commaSeparated ((stmt.members.map
        fun member => cStr member.2).map (delimited apostrophe))).getLast? = some apostrophe :=
      getLast?_delimited_list values' front
    rw [empty, nothing, List.append_nil] at lists
    have ends := congrArg List.getLast? lists
    rw [opens, closes] at ends
    exact absurd (Option.some.inj ends) (by decide)
  have sepLast : (str ", ").getLast? = some (chr ' ') := rfl
  have quoteApart : some (chr '(') ≠ some apostrophe := by decide
  have spaceApart : some (chr '(') ≠ some (chr ' ') := by decide
  obtain ⟨texts, fronts⟩ := intercalate_delimited_inj_end sepLast (by decide) values values'
    (opens _ _ ▸ quoteApart) (opens _ _ ▸ spaceApart) (opens _ _ ▸ quoteApart)
    (opens _ _ ▸ spaceApart) lists
  refine ⟨texts, ?_⟩
  have behind := List.append_cancel_right fronts
  simp only [List.append_assoc] at behind
  exact List.append_cancel_left behind

/-- No column begins inside the table's name: it would take a quote. -/
theorem noSpace_of_columns {table' : Bytes} {names names' : List Bytes}
    (sizes : names.length = names'.length) (some_ : names' ≠ [])
    (plain : ∀ name ∈ names', chr '"' ∉ name) (unspaced : chr ' ' ∉ table')
    (same : table ++ (str " (" ++ commaSeparated (names.map quoteColumn)) =
      table' ++ (str " (" ++ commaSeparated (names'.map quoteColumn))) :
    chr ' ' ∉ table := by
  intro spaced
  obtain ⟨front, behind, rfl, unspaced'⟩ := List.eq_append_cons_of_mem spaced
  rw [List.append_assoc, List.cons_append] at same
  obtain ⟨-, rests⟩ := append_cons_inj_left unspaced' unspaced same
  -- the columns of the statement have all the quotes there are
  have unquoted : behind.count (chr '"') = 0 := by
    have none_plain := count_flatten_eq_zero.mpr plain
    have open0 : (str " (").count (chr '"') = 0 := by decide
    have open0' : (str "(").count (chr '"') = 0 := by decide
    have counts := congrArg (List.count (chr '"')) rests
    have rest' : (str "(" ++ commaSeparated (names'.map quoteColumn)).count (chr '"') =
        2 * names'.length := by
      rw [List.count_append, open0', count_quoteColumns, none_plain]
      omega
    have counts' : (behind ++ (str " (" ++ commaSeparated (names.map quoteColumn))).count
        (chr '"') = 2 * names'.length := counts.trans rest'
    rw [List.count_append, List.count_append, open0, count_quoteColumns, sizes] at counts'
    omega
  obtain ⟨columns, begins⟩ : ∃ columns,
      commaSeparated (names'.map quoteColumn) = chr '"' :: columns := by
    cases names' with
    | nil => exact absurd rfl some_
    | cons name names' =>
      rw [commaSeparated, List.map_cons, intercalate_cons_eq_append]
      exact ⟨_, rfl⟩
  rw [begins] at rests
  cases behind with
  | nil => exact absurd (List.head_eq_of_cons_eq rests) (by decide)
  | cons c behind =>
    have later := List.tail_eq_of_cons_eq rests
    cases behind with
    | nil => exact absurd (List.head_eq_of_cons_eq later) (by decide)
    | cons d behind =>
      have quote : d = chr '"' := List.head_eq_of_cons_eq later
      rw [List.count_eq_zero] at unquoted
      exact unquoted (List.mem_cons_of_mem c (quote ▸ List.mem_cons_self))

/-- A statement that the code sends is about the code's table and columns. -/
theorem insertSql_columns
    (same : insertSql doubledEscape table members =
      insertSql doubledEscape stmt.table stmt.members) :
    table = stmt.table ∧ members.map Prod.fst = stmt.members.map Prod.fst := by
  obtain ⟨values, fronts⟩ := insertSql_values same
  have sizes : (members.map Prod.fst).length = (stmt.members.map Prod.fst).length := by
    have lengths := congrArg List.length values
    rwa [List.length_map, List.length_map] at lengths ⊢
  have some_ : stmt.members.map Prod.fst ≠ [] := by
    intro empty
    exact stmt.some_ (List.map_eq_nil_iff.mp empty)
  have plain : ∀ name ∈ stmt.members.map Prod.fst, chr '"' ∉ name := by
    intro name mem
    obtain ⟨member, there, rfl⟩ := List.mem_map.mp mem
    exact stmt.plain member there
  have unspaced := dialect.space_notMem stmt.table stmt.unquoted
  obtain ⟨tables, rests⟩ := append_cons_inj_left
    (noSpace_of_columns sizes some_ plain unspaced fronts) unspaced fronts
  have columns : commaSeparated ((members.map Prod.fst).map quoteColumn) =
      commaSeparated ((stmt.members.map Prod.fst).map quoteColumn) :=
    List.tail_eq_of_cons_eq rests
  refine ⟨tables, ?_⟩
  -- with as many quotes as columns need, the names have none
  have plain' : ∀ name ∈ members.map Prod.fst, chr '"' ∉ name := by
    have counts := congrArg (List.count (chr '"')) columns
    rw [count_quoteColumns, count_quoteColumns, sizes] at counts
    have none_plain := count_flatten_eq_zero.mpr plain
    apply count_flatten_eq_zero.mp
    omega
  have delimitedColumns {names : List Bytes} (plain : ∀ name ∈ names, chr '"' ∉ name) :
      names.map quoteColumn = names.map (delimited (chr '"')) :=
    List.map_congr_left fun name mem => quoteColumn_plain (plain name mem)
  rw [delimitedColumns plain, delimitedColumns plain', ← List.append_nil (commaSeparated _),
    ← List.append_nil (commaSeparated ((stmt.members.map Prod.fst).map _))] at columns
  have here : members.map Prod.fst ≠ [] := by
    intro empty
    rw [empty] at sizes
    exact some_ (List.length_eq_zero_iff.mp sizes.symm)
  have sepFirst : (str ", ").head? = some (chr ',') := rfl
  exact (intercalate_delimited_inj sepFirst (by decide) here some_ (by simp) (by simp) (by simp)
    (by simp) columns).1

end ReadBack

/-! ## A server that takes everything else for an INSERT -/

namespace Dialect

/-- A statement can be read back from its text. -/
theorem Insert.eq_of_sql {dialect : Dialect} {stmt other : dialect.Insert}
    (same : insertSql doubledEscape stmt.table stmt.members =
      insertSql doubledEscape other.table other.members) : stmt = other := by
  obtain ⟨tables, columns⟩ := insertSql_columns same
  obtain ⟨values, -⟩ := insertSql_values same
  have written (stmt : dialect.Insert) :
      stmt.members.map (fun member => cStr member.2) = stmt.members.map Prod.snd :=
    List.map_congr_left fun member mem => cStr_of_notMem (stmt.nulFree member mem)
  rw [written, written] at values
  have members : stmt.members = other.members := by
    rw [List.zip_of_prod columns values]
    exact (List.zip_of_prod rfl rfl).symm
  obtain ⟨table, members', _⟩ := stmt
  obtain ⟨table', members'', _⟩ := other
  cases tables
  cases members
  rfl

section WildServer

variable (dialect : Dialect)

/-- The texts in front of an INSERT. -/
def Preparing (sql : Bytes) : Prop :=
  (∃ stmt : dialect.Insert, sql = createTableSql stmt.table stmt.members) ∨
    ∃ table, dialect.unquoted table ∧ sql = tableExistsSql table

open Classical in
/-- The tables behind an INSERT. -/
noncomputable def inserted (stmt : dialect.Insert) (db : Prop × Bytes → List Row) :
    Prop × Bytes → List Row := fun at_ =>
  if at_ = dialect.place stmt.table then db at_ ++ [stmt.row] else db at_

open Classical in
/-- A server that carries out these statements, and adds an empty row to every table for any
other text. In front of it blocks have room for that many bytes. -/
noncomputable def wildServer (spare : Nat) : Postgres where
  Database := Prop × Bytes → List Row
  rows db name := db (dialect.place name)
  exec sql db :=
    if known : ∃ stmt : dialect.Insert,
        insertSql doubledEscape stmt.table stmt.members = sql then
      (⟨true, 0⟩, dialect.inserted known.choose db)
    else if dialect.Preparing sql then (⟨true, 0⟩, db)
    else (⟨true, 0⟩, fun at_ => db at_ ++ [fun _ => none])
  escapeStringConn := doubled apostrophe
  spare := spare

variable {dialect} {spare : Nat}

theorem escapedText_wildServer : (dialect.wildServer spare).escapedText = doubledEscape := by
  funext text
  have nulFree : 0 ∉ doubled apostrophe (cStr text) := by
    rw [mem_doubled]
    exact zero_notMem_cStr text
  exact cStr_of_notMem nulFree

theorem Insert.sql_wildServer (stmt : dialect.Insert) :
    stmt.sql (dialect.wildServer spare) = insertSql doubledEscape stmt.table stmt.members := by
  rw [sql, escapedText_wildServer]

theorem wildServer_insert (stmt : dialect.Insert) (db : (dialect.wildServer spare).Database) :
    (dialect.wildServer spare).exec (insertSql doubledEscape stmt.table stmt.members) db =
      (⟨true, 0⟩, dialect.inserted stmt db) := by
  have known : ∃ other : dialect.Insert, insertSql doubledEscape other.table other.members =
      insertSql doubledEscape stmt.table stmt.members := ⟨stmt, rfl⟩
  have itself : known.choose = stmt := Insert.eq_of_sql known.choose_spec
  have carriedOut : (dialect.wildServer spare).exec
      (insertSql doubledEscape stmt.table stmt.members) db =
        (⟨true, 0⟩, dialect.inserted known.choose db) := dif_pos known
  rw [carriedOut, itself]

theorem insertSql_notPreparing (escape : Bytes → Bytes) (table : Bytes)
    (members : List (Bytes × Bytes)) : ¬ dialect.Preparing (insertSql escape table members) := by
  rintro (⟨other, same⟩ | ⟨table, -, same⟩)
  · exact absurd (List.head_eq_of_cons_eq same) (by decide)
  · exact absurd (List.head_eq_of_cons_eq same) (by decide)

theorem wildServer_preparing {sql : Bytes} (preparing : dialect.Preparing sql)
    (db : (dialect.wildServer spare).Database) :
    (dialect.wildServer spare).exec sql db = (⟨true, 0⟩, db) := by
  have unknown : ¬ ∃ stmt : dialect.Insert,
      insertSql doubledEscape stmt.table stmt.members = sql := by
    rintro ⟨stmt, rfl⟩
    exact insertSql_notPreparing _ _ _ preparing
  exact (dif_neg unknown).trans (if_pos preparing)

theorem wildServer_unknown {sql : Bytes}
    (unknown : ¬ ∃ stmt : dialect.Insert, insertSql doubledEscape stmt.table stmt.members = sql)
    (notPreparing : ¬ dialect.Preparing sql) (db : (dialect.wildServer spare).Database)
    (name : Bytes) :
    (dialect.wildServer spare).rows ((dialect.wildServer spare).exec sql db).2 name =
      (dialect.wildServer spare).rows db name ++ [fun _ => none] := by
  have added : (dialect.wildServer spare).exec sql db =
      (⟨true, 0⟩, fun at_ => db at_ ++ [fun _ => none]) :=
    (dif_neg unknown).trans (if_neg notPreparing)
  rw [added]
  rfl

theorem inserted_there (stmt : dialect.Insert) (db : Prop × Bytes → List Row) {name : Bytes}
    (there : dialect.place name = dialect.place stmt.table) :
    dialect.inserted stmt db (dialect.place name) = db (dialect.place name) ++ [stmt.row] :=
  if_pos there

theorem inserted_elsewhere (stmt : dialect.Insert) (db : Prop × Bytes → List Row) {name : Bytes}
    (elsewhere : dialect.place name ≠ dialect.place stmt.table) :
    dialect.inserted stmt db (dialect.place name) = db (dialect.place name) :=
  if_neg elsewhere

theorem wildServer_documents : dialect.DocumentsInserts (dialect.wildServer spare) where
  inserts stmt db := by
    right
    rw [stmt.sql_wildServer, wildServer_insert]
    refine ⟨rfl, inserted_there stmt db rfl, ?_⟩
    intro other different
    have elsewhere : dialect.place other ≠ dialect.place stmt.table := by
      intro same
      exact different (congrArg Prod.snd same)
    exact inserted_elsewhere stmt db elsewhere
  creates stmt db name := by
    rw [wildServer_preparing (.inl ⟨stmt, rfl⟩)]
  selects table unquoted db name := by
    rw [wildServer_preparing (.inr ⟨table, unquoted, rfl⟩)]

/-- It rejects nothing. -/
theorem wildServer_commandOk (sql : Bytes) (db : (dialect.wildServer spare).Database) :
    ((dialect.wildServer spare).exec sql db).1.commandOk = true := by
  unfold wildServer
  dsimp only
  split_ifs <;> rfl

/-- No text makes it forget a row. -/
theorem wildServer_grows (sql : Bytes) (db : (dialect.wildServer spare).Database) (name : Bytes) :
    ((dialect.wildServer spare).rows db name).length ≤
      ((dialect.wildServer spare).rows ((dialect.wildServer spare).exec sql db).2 name).length := by
  by_cases known : ∃ stmt : dialect.Insert,
      insertSql doubledEscape stmt.table stmt.members = sql
  · obtain ⟨stmt, rfl⟩ := known
    rw [wildServer_insert]
    by_cases there : dialect.place name = dialect.place stmt.table
    · have added : (dialect.wildServer spare).rows (dialect.inserted stmt db) name =
          (dialect.wildServer spare).rows db name ++ [stmt.row] := inserted_there stmt db there
      rw [added, List.length_append]
      exact Nat.le_add_right _ _
    · have same : (dialect.wildServer spare).rows (dialect.inserted stmt db) name =
          (dialect.wildServer spare).rows db name := inserted_elsewhere stmt db there
      exact Nat.le_of_eq (by rw [same])
  · by_cases preparing : dialect.Preparing sql
    · exact Nat.le_of_eq (by rw [wildServer_preparing preparing])
    · rw [wildServer_unknown known preparing, List.length_append]
      exact Nat.le_add_right _ _

/-- What is no INSERT of the dialect adds to every table. -/
theorem wildServer_adds_everywhere {table : Bytes} {members : List (Bytes × Bytes)}
    (unknown : ¬ ∃ stmt : dialect.Insert, insertSql doubledEscape stmt.table stmt.members =
      insertSql doubledEscape table members) (db : (dialect.wildServer spare).Database)
    (name : Bytes) :
    ((dialect.wildServer spare).rows db name).length <
      ((dialect.wildServer spare).rows ((dialect.wildServer spare).exec
        (insertSql doubledEscape table members) db).2 name).length := by
  rw [wildServer_unknown unknown (insertSql_notPreparing _ _ _), List.length_append]
  exact Nat.lt_succ_self _

/-- What begins like an INSERT into a table adds to it. -/
theorem wildServer_adds (table : Bytes) (members : List (Bytes × Bytes))
    (db : (dialect.wildServer spare).Database) {name : Bytes}
    (there : dialect.place name = dialect.place table) :
    ((dialect.wildServer spare).rows db name).length <
      ((dialect.wildServer spare).rows ((dialect.wildServer spare).exec
        (insertSql doubledEscape table members) db).2 name).length := by
  by_cases known : ∃ stmt : dialect.Insert, insertSql doubledEscape stmt.table stmt.members =
      insertSql doubledEscape table members
  · obtain ⟨stmt, same⟩ := known
    obtain ⟨tables, -⟩ := insertSql_columns same.symm
    rw [← same, wildServer_insert]
    have added : (dialect.wildServer spare).rows (dialect.inserted stmt db) name =
        (dialect.wildServer spare).rows db name ++ [stmt.row] :=
      inserted_there stmt db (there.trans (congrArg dialect.place tables))
    rw [added, List.length_append]
    exact Nat.lt_succ_self _
  · exact wildServer_adds_everywhere known db name

end WildServer

end Dialect

end KafkaReplication
