import Mathlib.Algebra.Order.BigOperators.Group.List
import Mathlib.Order.CompletePartialOrder
import KafkaReplication.Pipeline.RowText
import KafkaReplication.Producer.RelationCache

/-!
# The tables that inserted rows go to

The identity of a source table is its namespace and its name. `getRelationNamespace`
(`producer_azs/replication_message.h:88-91`) returns the name instead, `saveIntoQueue`
(`consumer_bo/replication_consumer.h:88-118`) does not look at `"schema"`, and the statements of
`consumer_bo/database_writer.cpp:41-173` write the name without quotes, where PostgreSQL folds
it to lower case.
-/

namespace KafkaReplication
open Misc PgOutputParser DatabaseWriter

/-! ## One row -/

section OneRow

variable (pg : Postgres) (jsoncpp : JsonCpp) (relation : RelationMessage) (now : UInt64)

/-- An insert message from `handleInsert` to `insertRow`. -/
def replicateInsert (row : FullTuple relation) : WriterM pg Bool := do
  let event ← liftE pg
    (insertEvent jsoncpp relation now ⟨relation.relationId, chr 'N', row.values⟩)
  replicate pg jsoncpp event.1

/-- The database when `insertRow` runs: `createTableIfNotExists` has been there. -/
def prepared (table : Bytes) (members : List (Bytes × Bytes)) (db : pg.Database) : pg.Database :=
  let asked := pg.exec (cStr (tableExistsSql table)) db
  if asked.1.ntuples > 0 then asked.2
  else (pg.exec (cStr (createTableSql table members)) asked.2).2

variable {relation} in
/-- What the server makes of the row's INSERT. -/
def insertOutcome (row : FullTuple relation) (db : pg.Database) : PGresult × pg.Database :=
  pg.exec (cStr (insertSql pg.escapedText relation.getRelationName (textMembers row.pairs)))
    (prepared pg relation.getRelationName (textMembers row.pairs) db)

variable {pg jsoncpp relation now} {row : FullTuple relation}

theorem replicateInsert_eq
    (roundTrips : ∀ event text,
      insertEvent jsoncpp relation now ⟨relation.relationId, chr 'N', row.values⟩ =
        .ok (event, text) → jsoncpp.RoundTrips event) :
    replicateInsert pg jsoncpp relation now row =
      (createTableIfNotExists pg relation.getRelationName (rowJson row.pairs) >>= fun _ =>
        if pg.TextsFit (textMembers row.pairs) then
          execute pg (insertSql pg.escapedText relation.getRelationName (textMembers row.pairs))
        else liftE pg (.error (.undefined .pastTheEnd))) := by
  obtain ⟨primary, text, -, event⟩ := rowEvent_ok (str "INSERT") (str "data") jsoncpp relation now
    (Nat.le_of_eq row.full)
  have built : insertEvent jsoncpp relation now ⟨relation.relationId, chr 'N', row.values⟩ = _ :=
    event
  have pushed := replicate_eq pg (roundTrips _ _ built) (messageCallback_insertEvent _ _)
  rw [replicateInsert, built, liftE_ok_bind, pushed, ← insertRow_rowJson]
  rfl

theorem createTableIfNotExists_rowJson (table : Bytes) (pairs : List (Bytes × Bytes))
    (db : pg.Database) :
    ∃ created, createTableIfNotExists pg table (rowJson pairs) db =
      .ok created (prepared pg table (textMembers pairs) db) := by
  have asked : tableExists pg table db =
      .ok (decide ((pg.exec (cStr (tableExistsSql table)) db).1.ntuples > 0))
        (pg.exec (cStr (tableExistsSql table)) db).2 := rfl
  rw [createTableIfNotExists, bind_ok asked, buildCreateTableSql_rowJson]
  unfold prepared
  by_cases found : (pg.exec (cStr (tableExistsSql table)) db).1.ntuples > 0
  · rw [decide_eq_true found]
    simp only [if_pos found, if_true]
    exact ⟨true, rfl⟩
  · rw [decide_eq_false found]
    simp only [if_neg found, Bool.false_eq_true, if_false]
    exact ⟨_, rfl⟩

/-- One row is one INSERT behind what prepares its table, if its texts fit. -/
theorem replicateInsert_ok
    (roundTrips : ∀ event text,
      insertEvent jsoncpp relation now ⟨relation.relationId, chr 'N', row.values⟩ =
        .ok (event, text) → jsoncpp.RoundTrips event)
    (fits : pg.TextsFit (textMembers row.pairs)) (db : pg.Database) :
    replicateInsert pg jsoncpp relation now row db =
      .ok (insertOutcome pg row db).1.commandOk (insertOutcome pg row db).2 := by
  obtain ⟨created, ran⟩ :=
    createTableIfNotExists_rowJson relation.getRelationName row.pairs db
  rw [replicateInsert_eq roundTrips, bind_ok ran, if_pos fits]
  rfl

/-- Otherwise the table is there, and the row is not. -/
theorem replicateInsert_overflows
    (roundTrips : ∀ event text,
      insertEvent jsoncpp relation now ⟨relation.relationId, chr 'N', row.values⟩ =
        .ok (event, text) → jsoncpp.RoundTrips event)
    (overflows : ¬pg.TextsFit (textMembers row.pairs)) (db : pg.Database) :
    replicateInsert pg jsoncpp relation now row db =
      .error (.undefined .pastTheEnd)
        (prepared pg relation.getRelationName (textMembers row.pairs) db) := by
  obtain ⟨created, ran⟩ :=
    createTableIfNotExists_rowJson relation.getRelationName row.pairs db
  rw [replicateInsert_eq roundTrips, bind_ok ran, if_neg overflows]
  rfl

end OneRow

/-! ## Names that can be written as they are -/

namespace Dialect

/-- The table's name needs no quotes, and those of its columns can stand between them. -/
structure Plain (dialect : Dialect) (relation : RelationMessage) : Prop where
  unquoted : dialect.unquoted relation.getRelationName
  some_ : relation.columns ≠ []
  columns : ∀ col ∈ relation.columns, dialect.quoted col.name ∧ chr '"' ∉ col.name

end Dialect

section Plain

variable {dialect : Dialect} {relation : RelationMessage} {pg : Postgres}

/-- What can be written as it is has no NUL. -/
theorem Dialect.Plain.nulFree (plain : dialect.Plain relation) : relation.NulFree where
  name := dialect.unquoted_nonzero _ plain.unquoted
  columns col mem := dialect.quoted_nonzero _ (plain.columns col mem).1

theorem FullTuple.mem_members (row : FullTuple relation) {name : Bytes} :
    name ∈ (textMembers row.pairs).map Prod.fst ↔ ∃ col ∈ relation.columns, col.name = name := by
  rw [mem_textMembers_names, row.pairs_names, List.mem_map]

/-- The INSERT that the consumer makes of a row, up to the NULs in its values. -/
def Dialect.Plain.insert (plain : dialect.Plain relation) (row : FullTuple relation) :
    dialect.Insert where
  table := relation.getRelationName
  members := (textMembers row.pairs).map fun member => (member.1, cStr member.2)
  unquoted := plain.unquoted
  some_ := by
    obtain ⟨col, mem⟩ := List.exists_mem_of_ne_nil _ plain.some_
    intro empty
    have there := row.mem_members.mpr ⟨col, mem, rfl⟩
    rw [List.map_eq_nil_iff.mp empty] at there
    cases there
  quoted := by
    intro member mem
    obtain ⟨member', mem', rfl⟩ := List.mem_map.mp mem
    obtain ⟨col, column, same⟩ := row.mem_members.mp (List.mem_map_of_mem mem')
    exact same ▸ (plain.columns col column).1
  plain := by
    intro member mem
    obtain ⟨member', mem', rfl⟩ := List.mem_map.mp mem
    obtain ⟨col, column, same⟩ := row.mem_members.mp (List.mem_map_of_mem mem')
    exact same ▸ (plain.columns col column).2
  nulFree := by
    intro member mem
    obtain ⟨member', -, rfl⟩ := List.mem_map.mp mem
    exact zero_notMem_cStr member'.2

theorem Dialect.Plain.insert_sql (plain : dialect.Plain relation) (row : FullTuple relation) :
    (plain.insert row).sql pg =
      insertSql pg.escapedText relation.getRelationName (textMembers row.pairs) := by
  have cut (text : Bytes) : textLiteral pg.escapedText (cStr text) =
      textLiteral pg.escapedText text := by
    rw [textLiteral, Escaping.escapedText, cStr_cStr]
    rfl
  simp only [Dialect.Insert.sql, insert, insertSql, List.map_map, Function.comp_def, cut]

theorem Dialect.Plain.insert_createTableSql (plain : dialect.Plain relation)
    (row : FullTuple relation) :
    createTableSql (plain.insert row).table (plain.insert row).members =
      createTableSql relation.getRelationName (textMembers row.pairs) := by
  simp only [insert, createTableSql, List.map_map, Function.comp_def]

variable (nulFree : relation.NulFree) (row : FullTuple relation)
include nulFree

theorem names_nulFree : ∀ member ∈ textMembers row.pairs, 0 ∉ member.1 := by
  intro member mem
  obtain ⟨col, column, same⟩ := row.mem_members.mp (List.mem_map_of_mem mem)
  exact same ▸ nulFree.columns col column

theorem cStr_insertSql {escape : Bytes → Bytes} (escaped : ∀ text, 0 ∉ escape text) :
    cStr (insertSql escape relation.getRelationName (textMembers row.pairs)) =
      insertSql escape relation.getRelationName (textMembers row.pairs) :=
  cStr_of_notMem (zero_notMem_insertSql escaped nulFree.name (names_nulFree nulFree row))

theorem cStr_createTableSql :
    cStr (createTableSql relation.getRelationName (textMembers row.pairs)) =
      createTableSql relation.getRelationName (textMembers row.pairs) :=
  cStr_of_notMem (zero_notMem_createTableSql nulFree.name (names_nulFree nulFree row))

theorem cStr_tableExistsSql :
    cStr (tableExistsSql relation.getRelationName) = tableExistsSql relation.getRelationName :=
  cStr_of_notMem (zero_notMem_tableExistsSql nulFree.name)

theorem rows_prepared (plain : dialect.Plain relation) (documented : dialect.DocumentsInserts pg)
    (db : pg.Database) (name : Bytes) :
    pg.rows (prepared pg relation.getRelationName (textMembers row.pairs) db) name =
      pg.rows db name := by
  rw [prepared, cStr_tableExistsSql nulFree, cStr_createTableSql nulFree]
  have asked := documented.selects _ plain.unquoted db name
  split
  · exact asked
  · rw [← plain.insert_createTableSql]
    exact (documented.creates _ _ name).trans asked

/-- The INSERT of a plain relation is rejected, or adds its row to its table. -/
theorem rows_inserted (plain : dialect.Plain relation)
    (documented : dialect.DocumentsInserts pg) (db : pg.Database) :
    ((insertOutcome pg row db).1.commandOk = false ∧
      ∀ name, pg.rows (insertOutcome pg row db).2 name = pg.rows db name) ∨
    ((insertOutcome pg row db).1.commandOk = true ∧
      pg.rows (insertOutcome pg row db).2 relation.getRelationName =
        pg.rows db relation.getRelationName ++ [(plain.insert row).row] ∧
      ∀ name, dialect.denotes name ≠ dialect.denotes relation.getRelationName →
        pg.rows (insertOutcome pg row db).2 name = pg.rows db name) := by
  have escaped (text : Bytes) : 0 ∉ pg.escapedText text := zero_notMem_cStr _
  have unchanged := rows_prepared nulFree row plain documented db
  have outcome := documented.inserts (plain.insert row)
    (prepared pg relation.getRelationName (textMembers row.pairs) db)
  rw [plain.insert_sql, ← cStr_insertSql nulFree row escaped] at outcome
  rcases outcome with ⟨failed, same⟩ | ⟨taken, here, others⟩
  · refine .inl ⟨failed, ?_⟩
    intro name
    exact (same name).trans (unchanged name)
  · refine .inr ⟨taken, ?_, ?_⟩
    · rw [← unchanged]
      exact here
    · intro name elsewhere
      exact (others name elsewhere).trans (unchanged name)

/-- The INSERT of a plain relation leaves the tables of other names alone. -/
theorem rows_insert_elsewhere (plain : dialect.Plain relation)
    (documented : dialect.DocumentsInserts pg) (db : pg.Database) {name : Bytes}
    (elsewhere : dialect.denotes name ≠ dialect.denotes relation.getRelationName) :
    pg.rows (insertOutcome pg row db).2 name = pg.rows db name := by
  rcases rows_inserted nulFree row plain documented db with ⟨-, rejected⟩ | ⟨-, -, others⟩
  · exact rejected name
  · exact others name elsewhere

end Plain

/-! ## Rows of two relations -/

/-- An insert message of one of two relations, and when it is handled. -/
inductive Insertion (A B : RelationMessage) where
  | first (row : FullTuple A) (now : UInt64)
  | second (row : FullTuple B) (now : UInt64)

namespace Insertion

variable {A B : RelationMessage}

def relation : Insertion A B → RelationMessage
  | first _ _ => A
  | second _ _ => B

def row : (insertion : Insertion A B) → FullTuple insertion.relation
  | first row _ => row
  | second row _ => row

def now : Insertion A B → UInt64
  | first _ now => now
  | second _ now => now

def isFirst : Insertion A B → Bool
  | first _ _ => true
  | second _ _ => false

/-- What the producer makes of it. -/
def event (jsoncpp : JsonCpp) (insertion : Insertion A B) : Except Fault (Json × Bytes) :=
  insertEvent jsoncpp insertion.relation insertion.now
    ⟨insertion.relation.relationId, chr 'N', insertion.row.values⟩

/-- What becomes of it in the target database. -/
def replicate (pg : Postgres) (jsoncpp : JsonCpp) (insertion : Insertion A B) : WriterM pg Bool :=
  replicateInsert pg jsoncpp insertion.relation insertion.now insertion.row

end Insertion

section TwoRelations

variable {A B : RelationMessage} (pg : Postgres) (jsoncpp : JsonCpp)

/-- The tables whose rows change while the insertions of one relation are replicated, each at
its place among those of the other. -/
def written (ofFirst : Bool) : List (Insertion A B) → pg.Database → Set Bytes
  | [], _ => ∅
  | insertion :: insertions, db =>
      let db' := finalState (insertion.replicate pg jsoncpp db)
      {name | insertion.isFirst = ofFirst ∧ pg.rows db' name ≠ pg.rows db name} ∪
        written ofFirst insertions db'

/-- No table gets rows of both. -/
def NeverShared (insertions : List (Insertion A B)) (db : pg.Database) : Prop :=
  Disjoint (written pg jsoncpp true insertions db) (written pg jsoncpp false insertions db)

end TwoRelations

/-- A name in lower case. -/
def foldName (name : Bytes) : Bytes :=
  name.map fun c => if chr 'A' ≤ c ∧ c ≤ chr 'Z' then c + 0x20 else c

namespace Dialect

variable (dialect : Dialect) (A B : RelationMessage)

/-- A name without quotes is folded to lower case and looked for in the search path. -/
def Folds : Prop :=
  ∀ a b, dialect.unquoted a → dialect.unquoted b →
    (dialect.denotes a = dialect.denotes b ↔ foldName a = foldName b)

/-- Both relations have plain names, and those of their tables differ in lower case. -/
structure Apart : Prop where
  first : dialect.Plain A
  second : dialect.Plain B
  names : foldName A.getRelationName ≠ foldName B.getRelationName

end Dialect

/-! ## When no table is shared -/

section NeverShared

variable {A B : RelationMessage} {pg : Postgres} {jsoncpp : JsonCpp}
  {insertions : List (Insertion A B)} {name : Bytes}

theorem mem_written {ofFirst : Bool} {db : pg.Database}
    (mem : name ∈ written pg jsoncpp ofFirst insertions db) :
    ∃ insertion ∈ insertions, insertion.isFirst = ofFirst ∧ ∃ db : pg.Database,
      pg.rows (finalState (insertion.replicate pg jsoncpp db)) name ≠ pg.rows db name := by
  induction insertions generalizing db with
  | nil => exact absurd mem (Set.notMem_empty name)
  | cons insertion insertions ih =>
    rcases mem with ⟨side, changed⟩ | later
    · exact ⟨insertion, List.mem_cons_self, side, db, changed⟩
    · obtain ⟨other, there, rest⟩ := ih later
      exact ⟨other, List.mem_cons_of_mem insertion there, rest⟩

theorem written_of_changes {insertion : Insertion A B} (mem : insertion ∈ insertions)
    (changes : ∀ db : pg.Database,
      pg.rows (finalState (insertion.replicate pg jsoncpp db)) name ≠ pg.rows db name)
    (db : pg.Database) : name ∈ written pg jsoncpp insertion.isFirst insertions db := by
  induction insertions generalizing db with
  | nil => cases mem
  | cons head insertions ih =>
    rcases List.mem_cons.mp mem with rfl | later
    · exact .inl ⟨rfl, changes db⟩
    · exact .inr (ih later _)

/-- The relations have no NUL in their names. -/
theorem Insertion.nulFree (nulFreeA : A.NulFree) (nulFreeB : B.NulFree)
    (insertion : Insertion A B) : insertion.relation.NulFree := by
  cases insertion with
  | first row now => exact nulFreeA
  | second row now => exact nulFreeB

variable {dialect : Dialect}

theorem Insertion.plain (apart : dialect.Apart A B) (insertion : Insertion A B) :
    dialect.Plain insertion.relation := by
  cases insertion with
  | first row now => exact apart.first
  | second row now => exact apart.second

/-- The consumer's INSERT on the wild server. -/
def Insertion.sql (insertion : Insertion A B) : Bytes :=
  insertSql doubledEscape insertion.relation.getRelationName (textMembers insertion.row.pairs)

/-- The INSERT is one of the dialect's. -/
def Insertion.Known (dialect : Dialect) (insertion : Insertion A B) : Prop :=
  ∃ stmt : dialect.Insert, insertSql doubledEscape stmt.table stmt.members = insertion.sql

theorem Insertion.plain_of_known {insertion : Insertion A B} (known : insertion.Known dialect) :
    dialect.Plain insertion.relation := by
  obtain ⟨stmt, same⟩ := known
  obtain ⟨tables, names⟩ := insertSql_columns same.symm
  have column {col : Column} (mem : col ∈ insertion.relation.columns) :
      ∃ member ∈ stmt.members, member.1 = col.name := by
    have there := insertion.row.mem_members.mpr ⟨col, mem, rfl⟩
    rw [names] at there
    exact List.mem_map.mp there
  refine ⟨tables ▸ stmt.unquoted, ?_, ?_⟩
  · intro noColumns
    obtain ⟨member, mem⟩ := List.exists_mem_of_ne_nil _ stmt.some_
    have there := List.mem_map_of_mem (f := Prod.fst) mem
    rw [← names] at there
    obtain ⟨col, column, -⟩ := insertion.row.mem_members.mp there
    rw [noColumns] at column
    cases column
  · intro col mem
    obtain ⟨member, there, same⟩ := column mem
    exact same ▸ ⟨stmt.quoted member there, stmt.plain member there⟩

variable {spare : Nat}

theorem prepared_grows (table : Bytes) (members : List (Bytes × Bytes))
    (db : (dialect.wildServer spare).Database) (name : Bytes) :
    ((dialect.wildServer spare).rows db name).length ≤
      ((dialect.wildServer spare).rows
        (prepared (dialect.wildServer spare) table members db) name).length := by
  rw [prepared]
  have asked := Dialect.wildServer_grows (cStr (tableExistsSql table)) db name
  split
  · exact asked
  · exact asked.trans (Dialect.wildServer_grows _ _ name)

/-- On the wild server a row goes to the table of its relation's name, and to every table where
the INSERT is none of the dialect's. -/
theorem Insertion.changes {insertion : Insertion A B} (nulFree : insertion.relation.NulFree)
    (roundTrips : ∀ event text, insertion.event jsoncpp = .ok (event, text) →
      jsoncpp.RoundTrips event)
    (fits : (dialect.wildServer spare).TextsFit (textMembers insertion.row.pairs))
    (reached : dialect.place name = dialect.place insertion.relation.getRelationName ∨
      ¬ insertion.Known dialect) (db : (dialect.wildServer spare).Database) :
    (dialect.wildServer spare).rows
        (finalState (insertion.replicate (dialect.wildServer spare) jsoncpp db)) name ≠
      (dialect.wildServer spare).rows db name := by
  have escaped (text : Bytes) : 0 ∉ doubledEscape text := by
    rw [doubledEscape, mem_doubled]
    exact zero_notMem_cStr text
  rw [replicate, replicateInsert_ok roundTrips fits, finalState, insertOutcome,
    Dialect.escapedText_wildServer, cStr_insertSql nulFree insertion.row escaped]
  have grows := prepared_grows insertion.relation.getRelationName
    (textMembers insertion.row.pairs) db name
  intro same
  have sizes := congrArg List.length same
  rcases reached with there | unknown
  · have added := Dialect.wildServer_adds insertion.relation.getRelationName
      (textMembers insertion.row.pairs)
      (prepared (dialect.wildServer spare) insertion.relation.getRelationName
        (textMembers insertion.row.pairs) db) there
    omega
  · have added := Dialect.wildServer_adds_everywhere unknown
      (prepared (dialect.wildServer spare) insertion.relation.getRelationName
        (textMembers insertion.row.pairs) db) name
    omega

/-- Some block has room for all of these texts. -/
theorem Dialect.exists_wildServer_fits (dialect : Dialect) (members : List (Bytes × Bytes)) :
    ∃ spare, (dialect.wildServer spare).TextsFit members := by
  refine ⟨(members.map fun member => (doubled apostrophe (cStr member.2)).length).sum, ?_⟩
  intro member mem
  exact List.le_sum_of_mem (List.mem_map_of_mem mem)

variable (nulFreeA : A.NulFree) (nulFreeB : B.NulFree)
  (roundTrips : ∀ insertion ∈ insertions, ∀ event text,
    insertion.event jsoncpp = .ok (event, text) → jsoncpp.RoundTrips event)
include nulFreeA nulFreeB roundTrips

/-- A table that gets rows of a relation is denoted by its name. -/
theorem denotes_of_written (apart : dialect.Apart A B)
    (documented : dialect.DocumentsInserts pg) {ofFirst : Bool} {db : pg.Database}
    (mem : name ∈ written pg jsoncpp ofFirst insertions db) :
    ∃ insertion ∈ insertions, insertion.isFirst = ofFirst ∧
      dialect.denotes name = dialect.denotes insertion.relation.getRelationName := by
  obtain ⟨insertion, there, side, db', changed⟩ := mem_written mem
  refine ⟨insertion, there, side, ?_⟩
  by_contra elsewhere
  apply changed
  have nulFree := insertion.nulFree nulFreeA nulFreeB
  by_cases fits : pg.TextsFit (textMembers insertion.row.pairs)
  · rw [Insertion.replicate, replicateInsert_ok (roundTrips insertion there) fits]
    exact rows_insert_elsewhere nulFree insertion.row (insertion.plain apart) documented db'
      elsewhere
  · rw [Insertion.replicate, replicateInsert_overflows (roundTrips insertion there) fits]
    exact rows_prepared nulFree insertion.row (insertion.plain apart) documented db' name

theorem neverShared_of_apart (folds : dialect.Folds) (apart : dialect.Apart A B)
    (documented : dialect.DocumentsInserts pg) (db : pg.Database) :
    NeverShared pg jsoncpp insertions db := by
  apply Set.disjoint_left.mpr
  intro name first second
  obtain ⟨a, -, aSide, aName⟩ :=
    denotes_of_written nulFreeA nulFreeB roundTrips apart documented first
  obtain ⟨b, -, bSide, bName⟩ :=
    denotes_of_written nulFreeA nulFreeB roundTrips apart documented second
  cases a with
  | second row now => cases aSide
  | first row now =>
    cases b with
    | first row now => cases bSide
    | second row' now' =>
      have same := (folds _ _ apart.first.unquoted apart.second.unquoted).mp
        (aName.symm.trans bName)
      exact apart.names same

/-- Where both relations have rows and the names do not keep them apart, the wild server shares
a table. -/
theorem apart_of_neverShared (folds : dialect.Folds) {a b : Insertion A B}
    (aMem : a ∈ insertions) (aSide : a.isFirst = true)
    (bMem : b ∈ insertions) (bSide : b.isFirst = false)
    (aFits : (dialect.wildServer spare).TextsFit (textMembers a.row.pairs))
    (bFits : (dialect.wildServer spare).TextsFit (textMembers b.row.pairs))
    {db : (dialect.wildServer spare).Database}
    (never : NeverShared (dialect.wildServer spare) jsoncpp insertions db) : dialect.Apart A B := by
  have shared {name : Bytes}
      (aReached : dialect.place name = dialect.place a.relation.getRelationName ∨
        ¬ a.Known dialect)
      (bReached : dialect.place name = dialect.place b.relation.getRelationName ∨
        ¬ b.Known dialect) : False := by
    have aWritten := written_of_changes aMem
      (Insertion.changes (a.nulFree nulFreeA nulFreeB) (roundTrips a aMem) aFits aReached) db
    have bWritten := written_of_changes bMem
      (Insertion.changes (b.nulFree nulFreeA nulFreeB) (roundTrips b bMem) bFits bReached) db
    rw [aSide] at aWritten
    rw [bSide] at bWritten
    exact Set.disjoint_left.mp never aWritten bWritten
  by_cases aKnown : a.Known dialect
  · by_cases bKnown : b.Known dialect
    · have aPlain := Insertion.plain_of_known aKnown
      have bPlain := Insertion.plain_of_known bKnown
      have names : foldName a.relation.getRelationName ≠ foldName b.relation.getRelationName := by
        intro same
        have denoted := (folds _ _ aPlain.unquoted bPlain.unquoted).mpr same
        have places : dialect.place a.relation.getRelationName =
            dialect.place b.relation.getRelationName := by
          rw [Dialect.place, Dialect.place, denoted, eq_true aPlain.unquoted,
            eq_true bPlain.unquoted]
        exact shared (.inl rfl) (.inl places)
      cases a with
      | second row now => cases aSide
      | first row now =>
        cases b with
        | first row now => cases bSide
        | second row' now' => exact ⟨aPlain, bPlain, names⟩
    · exact (shared (.inl rfl) (.inr bKnown)).elim
  · exact (shared (.inr aKnown) (.inl rfl)).elim

omit nulFreeA nulFreeB in
/-- Rows of two cached relations stay in tables of their own, on every server that does what is
documented, just when only one of the two has rows or the names keep them apart. The namespaces
do not count. -/
theorem neverShared_iff (folds : dialect.Folds) {history : List (Nat × ByteVec)}
    {idA idB : UInt32} (cachedA : getCachedRelation (cacheAfter history) idA = some A)
    (cachedB : getCachedRelation (cacheAfter history) idB = some B) :
    (∀ pg, dialect.DocumentsInserts pg → ∀ db, NeverShared pg jsoncpp insertions db) ↔
      (∀ a ∈ insertions, ∀ b ∈ insertions, a.isFirst = b.isFirst) ∨ dialect.Apart A B := by
  have nulFreeA := cached_nulFree cachedA
  have nulFreeB := cached_nulFree cachedB
  constructor
  · intro never
    by_cases oneSided : ∀ a ∈ insertions, ∀ b ∈ insertions, a.isFirst = b.isFirst
    · exact .inl oneSided
    · right
      simp only [not_forall] at oneSided
      obtain ⟨a, aMem, b, bMem, sides⟩ := oneSided
      obtain ⟨spare, fit⟩ :=
        dialect.exists_wildServer_fits (textMembers a.row.pairs ++ textMembers b.row.pairs)
      have aFits := fun member mem => fit member (List.mem_append_left _ mem)
      have bFits := fun member mem => fit member (List.mem_append_right _ mem)
      have onWild := never (dialect.wildServer spare) Dialect.wildServer_documents fun _ => []
      cases aSide : a.isFirst with
      | true =>
        have bSide : b.isFirst = false := by
          rw [aSide] at sides
          exact Bool.eq_false_of_not_eq_true (Ne.symm sides)
        exact apart_of_neverShared nulFreeA nulFreeB roundTrips folds aMem aSide bMem bSide aFits
          bFits onWild
      | false =>
        have bSide : b.isFirst = true := by
          rw [aSide] at sides
          exact Bool.eq_true_of_not_eq_false (Ne.symm sides)
        exact apart_of_neverShared nulFreeA nulFreeB roundTrips folds bMem bSide aMem aSide bFits
          aFits onWild
  · rintro (oneSided | apart) pg documented db
    · apply Set.disjoint_left.mpr
      intro name first second
      obtain ⟨a, aMem, aSide, -⟩ := mem_written first
      obtain ⟨b, bMem, bSide, -⟩ := mem_written second
      have sides := oneSided a aMem b bMem
      rw [aSide, bSide] at sides
      cases sides
    · exact neverShared_of_apart nulFreeA nulFreeB roundTrips folds apart documented db

end NeverShared

/-! ## Two tables of one name -/

/-- PostgreSQL where the names of tables are letters. -/
def letterDialect : Dialect :=
  .ofTables
    (fun name => ∀ c ∈ name, (chr 'a' ≤ c ∧ c ≤ chr 'z') ∨ (chr 'A' ≤ c ∧ c ≤ chr 'Z')) foldName
    (fun _ letters space => absurd (letters _ space) (by decide))
    (fun _ letters zero => absurd (letters _ zero) (by decide))

theorem letterDialect_folds : letterDialect.Folds := fun _ _ _ _ => Iff.rfl

def publicUsers : RelationMessage where
  relationId := 1
  nspname := str "public"
  relationName := str "users"
  replicaIdentity := chr 'd'
  columns := [⟨1, str "id", 23, -1⟩]

def auditUsers : RelationMessage where
  relationId := 2
  nspname := str "audit"
  relationName := str "users"
  replicaIdentity := chr 'd'
  columns := [⟨1, str "id", 23, -1⟩]

/-- A row of each. -/
def userRows : List (Insertion publicUsers auditUsers) :=
  [.first ⟨[str "1"], rfl⟩ 0, .second ⟨[str "2"], rfl⟩ 0]

def userEvent (id : Bytes) : Json := .object
  [(str "data", .object [(str "id", .string id)]), (str "op", .string (str "INSERT")),
    (str "primary", .string (str "id")), (str "schema", .string (str "users")),
    (str "table", .string (str "users")), (str "timestamp", .int 0)]

def userJson : JsonCpp := JsonCpp.compactOf [userEvent (str "1"), userEvent (str "2")]

theorem userRows_roundTrip : ∀ insertion ∈ userRows, ∀ event text,
    insertion.event userJson = .ok (event, text) → userJson.RoundTrips event := by
  intro insertion mem event text built
  rcases List.mem_cons.mp mem with rfl | later
  · have first : Insertion.event userJson
        (.first ⟨[str "1"], rfl⟩ 0 : Insertion publicUsers auditUsers) =
          .ok (userEvent (str "1"), str "\"1\"") := rfl
    rw [first] at built
    cases built
    rfl
  · rw [List.mem_singleton.mp later] at built
    have second : Insertion.event userJson
        (.second ⟨[str "2"], rfl⟩ 0 : Insertion publicUsers auditUsers) =
          .ok (userEvent (str "2"), str "\"2\"") := rfl
    rw [second] at built
    cases built
    rfl

/-- The Relation messages of both. -/
def userHistory : List (Nat × ByteVec) :=
  [(0, ⟨publicUsers.encode, by decide⟩), (0, ⟨auditUsers.encode, by decide⟩)]

theorem neverShared_iff_users :
    (∀ pg, letterDialect.DocumentsInserts pg → ∀ db, NeverShared pg userJson userRows db) ↔
      (∀ a ∈ userRows, ∀ b ∈ userRows, a.isFirst = b.isFirst) ∨
        letterDialect.Apart publicUsers auditUsers := by
  have cachedPublic : getCachedRelation (cacheAfter userHistory) 1 = some publicUsers := rfl
  have cachedAudit : getCachedRelation (cacheAfter userHistory) 2 = some auditUsers := rfl
  exact neverShared_iff userRows_roundTrip letterDialect_folds cachedPublic cachedAudit

/-- The rows of `audit.users` go to the table of `public.users`. -/
theorem users_shared :
    publicUsers.nspname ≠ auditUsers.nspname ∧
      letterDialect.DocumentsInserts (letterDialect.wildServer 23) ∧
      ¬ NeverShared (letterDialect.wildServer 23) userJson userRows fun _ => [] := by
  refine ⟨by decide, Dialect.wildServer_documents, ?_⟩
  intro never
  have cachedPublic : getCachedRelation (cacheAfter userHistory) 1 = some publicUsers := rfl
  have cachedAudit : getCachedRelation (cacheAfter userHistory) 2 = some auditUsers := rfl
  have apart := apart_of_neverShared (cached_nulFree cachedPublic) (cached_nulFree cachedAudit)
    userRows_roundTrip letterDialect_folds List.mem_cons_self rfl
    (List.mem_cons_of_mem _ List.mem_cons_self) rfl (by decide) (by decide) never
  exact apart.names rfl

end KafkaReplication
