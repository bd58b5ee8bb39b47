import KafkaReplication.Consumer.DeleteStatement
import KafkaReplication.Pipeline.RowText
import KafkaReplication.Producer.RowContents

/-!
# The columns that an update leaves alone

`updateRow` (`consumer_bo/database_writer.cpp:175-230`) writes an assignment without the `=`
between its column and its value, so PostgreSQL takes no such statement: the columns without a
new value are left alone, and the others are too. A column that was not sent comes as the text
"TOAST" and is among the assignments.
-/

namespace KafkaReplication
open Misc PgOutputParser DatabaseWriter

/-- What the target's column holds after the update, going by what was sent for it. -/
def TupleColumn.overwrite : TupleColumn → Option Bytes → Option Bytes
  | null, _ => none
  | toast, before => before
  | text value, _ => some value.val

/-- An update of a row: the values of the old tuple if there is one, and what was sent for each
column. -/
structure TupleUpdate (relation : RelationMessage) where
  old : List Bytes
  new : TupleData
  full : new.columns.length = relation.columns.length

namespace TupleUpdate

variable {relation : RelationMessage} (upd : TupleUpdate relation)

/-- What the decoder makes of it. -/
def message : UpdateMessage where
  relationId := relation.relationId
  oldTuple := upd.old
  newTuple := upd.new.values

/-- The columns with what was sent for them. -/
def entries : List (Column × TupleColumn) := relation.columns.zip upd.new.columns

/-- The row that the statement looks for: `updateRow` compares the first key column, or the
first one, with the old tuple's value. -/
def key : Option (Bytes × Bytes) :=
  comparedKey (rowPairs relation.columns upd.old)
    ((primaryColumn relation.columns).elim [] Column.name)

/-- Every column that was sent has its new value, and the others are as they were. -/
def Assigned (row row' : Row) : Prop :=
  ∀ entry ∈ upd.entries, row' entry.1.name = entry.2.overwrite (row entry.1.name)

end TupleUpdate

/-! ## Malformed updates -/

/-- An UPDATE up to the value of its first assignment, with nothing between column and value. -/
def updatePrefix (table column : Bytes) : Bytes :=
  str "UPDATE " ++ table ++ str " SET " ++ quoteColumn column ++ str "'"

theorem updatePrefix_eq (table column : Bytes) :
    updatePrefix table column =
      str "UPDATE " ++ table ++ str " SET " ++ str "\"" ++ column ++ [chr '"'] ++ [apostrophe] := by
  have quote : str "\"" = [chr '"'] := rfl
  have literal : str "'" = [apostrophe] := rfl
  simp only [updatePrefix, quoteColumn, quote, literal, List.append_assoc]

namespace Dialect

variable (dialect : Dialect)

/-- An UPDATE whose first column is followed by a literal. -/
def MalformedUpdate (sql : Bytes) : Prop :=
  ∃ table column, dialect.unquoted table ∧ chr '"' ∉ table ∧ chr '"' ∉ column ∧
    updatePrefix table column <+: sql

/-- A statement with a syntax error changes nothing. -/
def RejectsMalformed (pg : Postgres) : Prop :=
  ∀ sql db, dialect.MalformedUpdate sql → (pg.exec sql db).2 = db

variable {dialect}

/-- Where the column ends can be seen from its closing quote. -/
theorem updatePrefix_shorter {table column table' column' : Bytes}
    (tablePlain : chr '"' ∉ table) (columnPlain : chr '"' ∉ column)
    (longer : updatePrefix table' column' <+: updatePrefix table column) :
    updatePrefix table column <+: updatePrefix table' column' := by
  let front := str "UPDATE " ++ table ++ str " SET " ++ str "\"" ++ column
  have single : front.count (chr '"') = 1 := by
    have none_table := List.count_eq_zero.mpr tablePlain
    have none_column := List.count_eq_zero.mpr columnPlain
    have update0 : (str "UPDATE ").count (chr '"') = 0 := by decide
    have set0 : (str " SET ").count (chr '"') = 0 := by decide
    have quote1 : (str "\"").count (chr '"') = 1 := by decide
    simp only [front, List.count_append, none_table, none_column, update0, set0, quote1]
  have double : 2 ≤ (updatePrefix table' column').count (chr '"') := by
    have quote1 : (str "\"").count (chr '"') = 1 := by decide
    rw [updatePrefix_eq]
    simp only [List.count_append, quote1, List.count_singleton_self]
    omega
  rw [updatePrefix_eq table column] at longer ⊢
  rcases List.prefix_concat_iff.mp longer with whole | inner
  · exact whole ▸ List.prefix_refl _
  · rcases List.prefix_concat_iff.mp inner with ends | short
    · -- one ends with a quote, the other with an apostrophe
      rw [updatePrefix_eq] at ends
      have last := List.append_inj_right' ends rfl
      cases last
    · have fewer := short.sublist.count_le (chr '"')
      have : 2 ≤ 1 := double.trans (fewer.trans (Nat.le_of_eq single))
      omega

/-- Whether the statement is malformed is seen at its first column. -/
theorem malformedUpdate_cStr_append (table column rest : Bytes) :
    dialect.MalformedUpdate (cStr (updatePrefix table column ++ rest)) ↔
      dialect.MalformedUpdate (cStr (updatePrefix table column)) := by
  by_cases nul : 0 ∈ updatePrefix table column
  · rw [cStr_append_of_mem nul]
  · rw [cStr_append nul, cStr_of_notMem nul]
    constructor
    · intro ⟨table', column', unquoted, tablePlain, columnPlain, begins⟩
      refine ⟨table', column', unquoted, tablePlain, columnPlain, ?_⟩
      rcases List.prefix_or_prefix_of_prefix begins (List.prefix_append _ (cStr rest)) with
        within | beyond
      · exact within
      · exact updatePrefix_shorter tablePlain columnPlain beyond
    · intro ⟨table', column', unquoted, tablePlain, columnPlain, begins⟩
      exact ⟨table', column', unquoted, tablePlain, columnPlain,
        begins.trans (List.prefix_append _ _)⟩

end Dialect

/-! ## From the message to the statement -/

section Replica

variable (pg : Postgres) (jsoncpp : JsonCpp) {relation : RelationMessage} (now : UInt64)
  (upd : TupleUpdate relation)

/-- An update message from `parseTuple` on its new tuple and `handleUpdate` to `updateRow`. -/
def replicateUpdate : WriterM pg Bool := do
  let newTuple ← liftE pg ((parseTupleColumns upd.new.toByteVec).result 0)
  let event ← liftE pg
    (updateEvent jsoncpp relation now ⟨relation.relationId, upd.old, newTuple⟩)
  replicate pg jsoncpp event.1

/-- The rows that the statement looks for have their new values in the columns that were sent,
and in the others what they had. -/
def UpdatesExactly (db : pg.Database) : Prop :=
  ∃ result db', replicateUpdate pg jsoncpp now upd db = .ok result db' ∧
    List.Forall₂
      (fun row row' => (∃ key, upd.key = some key ∧ row key.1 = some key.2) →
        upd.Assigned row row')
      (pg.rows db relation.getRelationName) (pg.rows db' relation.getRelationName)

/-- Nothing is to be assigned that the row does not have: every column is left alone, or it is
the one that the row was found by, with the same value. The statement is malformed. -/
structure LeavesAlone (dialect : Dialect) : Prop where
  fits : upd.old.length ≤ relation.columns.length
  alone : ∃ key, upd.key = some key ∧ ∀ entry ∈ upd.entries,
    entry.2 = .toast ∨ ∃ value, entry.2 = .text value ∧ entry.1.name = key.1 ∧ value.val = key.2
  malformed : ∃ first ∈ relation.columns.map Column.name,
    (∀ name ∈ relation.columns.map Column.name, first ≤ name) ∧
      dialect.MalformedUpdate (cStr (updatePrefix relation.getRelationName first))

variable {pg jsoncpp now upd}

/-- The members of the new row. -/
def TupleUpdate.newMembers (upd : TupleUpdate relation) : List (Bytes × Bytes) :=
  textMembers (rowPairs relation.columns upd.new.values)

theorem TupleUpdate.newPairs_names (upd : TupleUpdate relation) :
    (rowPairs relation.columns upd.new.values).map Prod.fst = relation.columns.map Column.name := by
  rw [rowPairs, List.map_fst_zip]
  rw [TupleData.values, List.length_map, List.length_map, upd.full]

/-- The first member has the least name. -/
theorem TupleUpdate.newMembers_head (upd : TupleUpdate relation) {first : Bytes}
    (member : first ∈ relation.columns.map Column.name)
    (least : ∀ name ∈ relation.columns.map Column.name, first ≤ name) :
    ∃ text rest, upd.newMembers = (first, text) :: rest := by
  have sorted := textMembers_sorted (rowPairs relation.columns upd.new.values)
  have names := mem_textMembers_names (rowPairs relation.columns upd.new.values)
  rw [upd.newPairs_names] at names
  rw [newMembers]
  cases members : textMembers (rowPairs relation.columns upd.new.values) with
  | nil =>
    have there := (names first).mpr member
    rw [members] at there
    cases there
  | cons head rest =>
    rw [members] at sorted names
    have headColumn := (names head.1).mp List.mem_cons_self
    rcases List.mem_cons.mp ((names first).mpr member) with here | later
    · exact ⟨head.2, rest, by rw [here]⟩
    · obtain ⟨other, mem, rfl⟩ := List.mem_map.mp later
      have below := (List.pairwise_cons.mp sorted).1 other mem
      exact absurd below (List.not_lt.mpr (least head.1 headColumn))

theorem TupleUpdate.newMembers_least (upd : TupleUpdate relation) {first text : Bytes}
    {rest : List (Bytes × Bytes)} (members : upd.newMembers = (first, text) :: rest) :
    first ∈ relation.columns.map Column.name ∧
      ∀ name ∈ relation.columns.map Column.name, first ≤ name := by
  have sorted := textMembers_sorted (rowPairs relation.columns upd.new.values)
  have names := mem_textMembers_names (rowPairs relation.columns upd.new.values)
  rw [upd.newPairs_names] at names
  rw [newMembers] at members
  rw [members] at sorted names
  constructor
  · exact (names first).mp List.mem_cons_self
  · intro name column
    rcases List.mem_cons.mp ((names name).mpr column) with here | later
    · exact here ▸ List.le_refl first
    · obtain ⟨other, mem, rfl⟩ := List.mem_map.mp later
      exact List.le_of_lt ((List.pairwise_cons.mp sorted).1 other mem)

/-- A row is looked for only in a table with columns. -/
theorem TupleUpdate.newMembers_ne_nil (upd : TupleUpdate relation) {key : Bytes × Bytes}
    (found : upd.key = some key) : upd.newMembers ≠ [] := by
  intro empty
  have names := mem_textMembers_names (rowPairs relation.columns upd.new.values)
  rw [upd.newPairs_names] at names
  rw [newMembers] at empty
  rw [empty] at names
  have noColumns : relation.columns = [] := by
    rw [← List.map_eq_nil_iff (f := Column.name), List.eq_nil_iff_forall_not_mem]
    intro name column
    exact absurd ((names name).mpr column) List.not_mem_nil
  rw [TupleUpdate.key, noColumns] at found
  cases found

/-- The new tuple is decoded to what was sent. -/
theorem replicateUpdate_parse :
    replicateUpdate pg jsoncpp now upd =
      (liftE pg (updateEvent jsoncpp relation now upd.message) >>= fun event =>
        replicate pg jsoncpp event.1) := by
  have at_ : At upd.new.toByteVec 0 (upd.new.encode ++ []) := by
    rw [List.append_nil]
    exact At.start upd.new.toByteVec
  have parsed : (parseTupleColumns upd.new.toByteVec).result 0 = .ok upd.new.values := by
    rw [Reader.result, parseTupleColumns, parseTupleWith_encode [[]] upd.new at_]
  rw [replicateUpdate, parsed, liftE_ok_bind]
  rfl

/-- The `"primary"` of the event is the first key column, or the first one. -/
theorem primary_eq {pairs : List (Bytes × Bytes)} {cols : List Column} {primary text : Bytes}
    (full : ∀ col ∈ cols, col.name ∈ pairs.map Prod.fst)
    (extracted : extractKey jsoncpp (rowJson pairs) cols = .ok (primary, text)) :
    primary = (primaryColumn cols).elim [] Column.name := by
  cases chosen : primaryColumn cols with
  | some col =>
    obtain ⟨text', extracted'⟩ := extractKey_full jsoncpp full chosen
    have same := Except.ok.inj (extracted.symm.trans extracted')
    exact congrArg Prod.fst same
  | none =>
    cases cols with
    | nil =>
      have nothing : extractKey jsoncpp (rowJson pairs) [] = .ok ([], []) := rfl
      have same := Except.ok.inj (extracted.symm.trans nothing)
      exact congrArg Prod.fst same
    | cons col cols =>
      rw [primaryColumn, List.head?_cons] at chosen
      cases Option.or_eq_none_iff.mp chosen with
      | intro _ empty => cases empty

variable
  (roundTrips : ∀ event text, updateEvent jsoncpp relation now upd.message = .ok (event, text) →
    jsoncpp.RoundTrips event)

include roundTrips in
theorem replicateUpdate_eq (fits : upd.old.length ≤ relation.columns.length) :
    replicateUpdate pg jsoncpp now upd =
      (liftE pg (upd.key.elim (.error (.undefined .pastTheEnd))
        fun key => .ok (key.1, keyLiteral key.2)) >>= fun key =>
          if pg.TextsFit upd.newMembers then
            execute pg (updateSql pg.escapedText relation.getRelationName upd.newMembers key)
          else liftE pg (.error (.undefined .pastTheEnd))) := by
  have newFits : upd.message.newTuple.length ≤ relation.columns.length := by
    rw [TupleUpdate.message, TupleData.values, List.length_map, upd.full]
  obtain ⟨primary, text, extracted, event⟩ := updateEvent_ok jsoncpp relation now fits newFits
  have full : ∀ col ∈ relation.columns,
      col.name ∈ (rowPairs relation.columns upd.new.values).map Prod.fst := by
    intro col member
    rw [upd.newPairs_names]
    exact List.mem_map_of_mem member
  have primaryName := primary_eq full extracted
  have pushed := replicate_eq pg (roundTrips _ _ event) (messageCallback_updateEvent _ _ _)
  rw [replicateUpdate_parse, event, liftE_ok_bind, pushed, TupleUpdate.key, ← rowKey_comparedKey,
    ← primaryName]
  exact updateRow_rowJson relation.getRelationName _ _ primary

include roundTrips in
/-- Without a row to look for, or without room for its texts, nothing is sent. -/
theorem replicateUpdate_fault
    (unsound : ¬ (upd.old.length ≤ relation.columns.length ∧ (∃ key, upd.key = some key) ∧
      pg.TextsFit upd.newMembers))
    (db : pg.Database) : ∃ fault, replicateUpdate pg jsoncpp now upd db = .error fault db := by
  by_cases fits : upd.old.length ≤ relation.columns.length
  · rw [replicateUpdate_eq roundTrips fits]
    cases found : upd.key with
    | some key =>
      have overflows : ¬pg.TextsFit upd.newMembers := fun room => unsound ⟨fits, ⟨key, found⟩, room⟩
      rw [Option.elim_some, liftE_ok_bind, if_neg overflows]
      exact ⟨_, rfl⟩
    | none => exact ⟨_, rfl⟩
  · have long : relation.columns.length < upd.message.oldTuple.length := Nat.lt_of_not_le fits
    rw [replicateUpdate_parse, updateEvent_long jsoncpp relation now (.inl long)]
    exact ⟨_, rfl⟩

include roundTrips in
/-- One run of the code is one statement. -/
theorem updatesExactly_iff_exec (fits : upd.old.length ≤ relation.columns.length)
    {key : Bytes × Bytes} (found : upd.key = some key) (room : pg.TextsFit upd.newMembers)
    (db : pg.Database) :
    UpdatesExactly pg jsoncpp now upd db ↔
      List.Forall₂ (fun row row' => row key.1 = some key.2 → upd.Assigned row row')
        (pg.rows db relation.getRelationName)
        (pg.rows (pg.exec (cStr (updateSql pg.escapedText relation.getRelationName upd.newMembers
          (key.1, keyLiteral key.2))) db).2 relation.getRelationName) := by
  unfold UpdatesExactly
  rw [replicateUpdate_eq roundTrips fits, found, Option.elim_some, liftE_ok_bind, if_pos room]
  constructor
  · intro ⟨result, db', ran, changed⟩
    cases ran
    refine changed.imp ?_
    intro row row' assigned selected
    exact assigned ⟨key, rfl, selected⟩
  · intro changed
    refine ⟨_, _, rfl, changed.imp ?_⟩
    intro row row' assigned ⟨key', same, selected⟩
    cases same
    exact assigned selected

end Replica

/-! ## When it does -/

/-- The statement begins with the assignment of the least column. -/
theorem updateSql_cons (escape : Bytes → Bytes) (table : Bytes) (member : Bytes × Bytes)
    (rest : List (Bytes × Bytes)) (key : Bytes × Bytes) :
    ∃ behind, updateSql escape table (member :: rest) key =
      updatePrefix table member.1 ++ behind := by
  cases rest with
  | nil =>
    refine ⟨escape member.2 ++ str "'" ++ whereClause key, ?_⟩
    simp [updateSql, assignments, commaSeparated, textLiteral, updatePrefix]
  | cons next rest =>
    refine ⟨escape member.2 ++ str "'" ++ str ", " ++ assignments escape (next :: rest) ++
      whereClause key, ?_⟩
    simp [updateSql, assignments, commaSeparated, textLiteral, updatePrefix, List.intercalate]

section Exactly

variable {jsoncpp : JsonCpp} {relation : RelationMessage} {now : UInt64}
  {upd : TupleUpdate relation}

/-- A row with the compared value, and other columns that hold what was not sent. -/
def apartRow (key : Bytes × Bytes) (sent : TupleColumn) : Row := fun name =>
  if name = key.1 then some key.2 else if sent = .null then some [] else none

/-- What is not left alone would change a row that the update looks for. -/
theorem apartRow_changes {key : Bytes × Bytes} {name : Bytes} {sent : TupleColumn}
    (isSent : sent ≠ .toast)
    (changes : ¬ ∃ value, sent = .text value ∧ name = key.1 ∧ value.val = key.2) :
    apartRow key sent name ≠ sent.overwrite (apartRow key sent name) := by
  unfold apartRow
  by_cases compared : name = key.1
  · rw [if_pos compared]
    cases sent with
    | null => exact Option.some_ne_none key.2
    | toast => exact absurd rfl isSent
    | text value =>
      intro same
      exact changes ⟨value, rfl, compared, (Option.some.inj same).symm⟩
  · rw [if_neg compared]
    cases sent with
    | null =>
      rw [if_pos rfl]
      exact Option.some_ne_none []
    | toast => exact absurd rfl isSent
    | text value => exact (Option.some_ne_none value.val).symm

/-- A server that never changes anything. -/
def idle (escaping : Escaping) : Postgres := Postgres.ofStatement escaping [] id

theorem idle_exec {escaping : Escaping} (sql : Bytes) (db : (idle escaping).Database) :
    ((idle escaping).exec sql db).2 = db := by
  by_cases empty : sql = []
  · rw [empty]
    exact Postgres.ofStatement_exec db
  · exact Postgres.ofStatement_rejects db empty

variable {dialect : Dialect}
  (roundTrips : ∀ event text, updateEvent jsoncpp relation now upd.message = .ok (event, text) →
    jsoncpp.RoundTrips event)
include roundTrips

theorem updatesExactly_of_leavesAlone (alone : LeavesAlone upd dialect) {pg : Postgres}
    (room : pg.TextsFit upd.newMembers) (rejects : dialect.RejectsMalformed pg)
    (db : pg.Database) : UpdatesExactly pg jsoncpp now upd db := by
  obtain ⟨key, found, nothing⟩ := alone.alone
  obtain ⟨first, member, least, malformed⟩ := alone.malformed
  obtain ⟨text, rest, members⟩ := upd.newMembers_head member least
  obtain ⟨behind, begins⟩ := updateSql_cons pg.escapedText relation.getRelationName
    (first, text) rest (key.1, keyLiteral key.2)
  have rejected := rejects _ db
    ((Dialect.malformedUpdate_cStr_append relation.getRelationName first behind).mpr malformed)
  rw [updatesExactly_iff_exec roundTrips alone.fits found room, members, begins, rejected]
  apply List.forall₂_same.mpr
  intro row _ selected entry mem
  rcases nothing entry mem with toast | ⟨value, sent, name, same⟩
  · rw [toast]
    rfl
  · rw [sent, name, selected, ← same]
    rfl

variable {escaping : Escaping}

/-- Where no malformed statement is sent a server may do anything. -/
theorem malformed_of_updatesExactly (fits : upd.old.length ≤ relation.columns.length)
    {key : Bytes × Bytes} (found : upd.key = some key) (room : escaping.TextsFit upd.newMembers)
    (exact_ : ∀ pg : Postgres, pg.toEscaping = escaping → dialect.RejectsMalformed pg →
      ∀ db, UpdatesExactly pg jsoncpp now upd db) :
    dialect.MalformedUpdate
      (cStr (updateSql escaping.escapedText relation.getRelationName upd.newMembers
        (key.1, keyLiteral key.2))) := by
  by_contra wellFormed
  let sql := cStr
    (updateSql escaping.escapedText relation.getRelationName upd.newMembers
      (key.1, keyLiteral key.2))
  let pg := Postgres.ofStatement escaping sql fun _ _ => []
  have rejects : dialect.RejectsMalformed pg := by
    intro other db malformed
    apply Postgres.ofStatement_rejects
    intro same
    rw [same] at malformed
    exact wellFormed malformed
  let before : pg.Database := fun _ => [fun _ => none]
  have emptied : (pg.exec sql before).2 = fun _ => [] := Postgres.ofStatement_exec before
  have changed : List.Forall₂ _ (pg.rows before relation.getRelationName)
      (pg.rows (pg.exec sql before).2 relation.getRelationName) :=
    (updatesExactly_iff_exec roundTrips fits found room before).mp (exact_ pg rfl rejects before)
  rw [emptied] at changed
  cases changed

/-- The columns that were sent are set, and only those, just when there is nothing to set, the
statement is one that PostgreSQL rejects, and it gets built at all. -/
theorem updatesExactly_iff :
    (∀ pg : Postgres, pg.toEscaping = escaping → dialect.RejectsMalformed pg →
        ∀ db, UpdatesExactly pg jsoncpp now upd db) ↔
      LeavesAlone upd dialect ∧ escaping.TextsFit upd.newMembers := by
  constructor
  · intro exact_
    have idleRejects : dialect.RejectsMalformed (idle escaping) := fun sql db _ => idle_exec sql db
    have untouched := exact_ (idle escaping) rfl idleRejects
    have sound : upd.old.length ≤ relation.columns.length ∧ (∃ key, upd.key = some key) ∧
        escaping.TextsFit upd.newMembers := by
      by_contra unsound
      let before : (idle escaping).Database := fun _ => []
      obtain ⟨fault, failed⟩ := replicateUpdate_fault roundTrips unsound before
      obtain ⟨result, db', ran, _⟩ := untouched before
      rw [failed] at ran
      cases ran
    obtain ⟨fits, ⟨key, found⟩, room⟩ := sound
    refine ⟨⟨fits, ⟨key, found, ?_⟩, ?_⟩, room⟩
    · intro entry mem
      by_contra notAlone
      rw [not_or] at notAlone
      let before : (idle escaping).Database := fun _ => [apartRow key entry.2]
      have same :=
        (updatesExactly_iff_exec roundTrips fits found room before).mp (untouched before)
      rw [idle_exec _ before] at same
      cases same with
      | cons assigned _ =>
        exact apartRow_changes notAlone.1 notAlone.2 (assigned (if_pos rfl) entry mem)
    · have malformed := malformed_of_updatesExactly roundTrips fits found room exact_
      cases members : upd.newMembers with
      | nil => exact absurd members (upd.newMembers_ne_nil found)
      | cons member rest =>
        obtain ⟨column, least⟩ := upd.newMembers_least members
        obtain ⟨behind, begins⟩ := updateSql_cons escaping.escapedText relation.getRelationName
          member rest (key.1, keyLiteral key.2)
        rw [members, begins, Dialect.malformedUpdate_cStr_append] at malformed
        exact ⟨member.1, column, least, malformed⟩
  · rintro ⟨alone, room⟩ pg rfl rejects db
    exact updatesExactly_of_leavesAlone roundTrips alone room rejects db

end Exactly

/-! ## A wide row -/

/-- A table with a key, a title and a long text. -/
def articleRelation : RelationMessage where
  relationId := 11
  nspname := str "public"
  relationName := str "articles"
  replicaIdentity := chr 'd'
  columns := [⟨1, str "id", 23, -1⟩, ⟨0, str "title", 25, -1⟩, ⟨0, str "body", 25, -1⟩]

/-- `UPDATE articles SET title = 'final' WHERE id = 4`, with the old row. The body is unchanged. -/
def titleUpdate : TupleUpdate articleRelation where
  old := [str "4", str "draft", str "long"]
  new := ⟨[.text ⟨str "4", by decide⟩, .text ⟨str "final", by decide⟩, .toast], by decide⟩
  full := rfl

def articleDialect : Dialect :=
  .ofTables (fun name => name = str "articles") id
    (by
      intro name articles
      rw [articles]
      decide)
    (by
      intro name articles
      rw [articles]
      decide)

def titleEvent : Json := .object
  [(str "after", .object [(str "body", .string (str "TOAST")), (str "id", .string (str "4")),
      (str "title", .string (str "final"))]),
    (str "before", .object [(str "body", .string (str "long")), (str "id", .string (str "4")),
      (str "title", .string (str "draft"))]),
    (str "op", .string (str "UPDATE")), (str "primary", .string (str "id")),
    (str "schema", .string (str "articles")), (str "table", .string (str "articles")),
    (str "timestamp", .int 0)]

theorem titleEvent_roundTrips (event : Json) (text : Bytes)
    (built : updateEvent (JsonCpp.compact titleEvent) articleRelation 0 titleUpdate.message =
      .ok (event, text)) : (JsonCpp.compact titleEvent).RoundTrips event := by
  have title : updateEvent (JsonCpp.compact titleEvent) articleRelation 0 titleUpdate.message =
      .ok (titleEvent, str "\"4\"") := rfl
  rw [title] at built
  cases built
  exact JsonCpp.compact_roundTrips titleEvent

theorem updatesExactly_iff_title :
    (∀ pg : Postgres, pg.toEscaping = .plain → articleDialect.RejectsMalformed pg →
        ∀ db, UpdatesExactly pg (JsonCpp.compact titleEvent) 0 titleUpdate db) ↔
      LeavesAlone titleUpdate articleDialect ∧ Escaping.plain.TextsFit titleUpdate.newMembers :=
  updatesExactly_iff titleEvent_roundTrips

def articleRow (title : Bytes) : Row := fun name =>
  [(str "id", str "4"), (str "title", title), (str "body", str "long")].lookup name

/-- The title is not set. -/
theorem title_not_set :
    articleDialect.RejectsMalformed (idle .plain) ∧
      Escaping.plain.TextsFit titleUpdate.newMembers ∧
      ¬ UpdatesExactly (idle .plain) (JsonCpp.compact titleEvent) 0 titleUpdate
        fun _ => [articleRow (str "draft")] := by
  have room : (idle .plain).TextsFit titleUpdate.newMembers := by decide
  refine ⟨fun sql db _ => idle_exec sql db, room, ?_⟩
  let before : (idle .plain).Database := fun _ => [articleRow (str "draft")]
  intro updated
  have found : titleUpdate.key = some (str "id", str "4") := rfl
  have same :=
    (updatesExactly_iff_exec titleEvent_roundTrips (by decide) found room before).mp updated
  rw [idle_exec _ before] at same
  cases same with
  | cons assigned _ =>
    let title : Column := ⟨0, str "title", 25, -1⟩
    have sent : (title, TupleColumn.text ⟨str "final", by decide⟩) ∈ titleUpdate.entries :=
      List.mem_cons_of_mem _ List.mem_cons_self
    have set : some (str "draft") = some (str "final") := assigned rfl _ sent
    exact absurd set (by decide)

end KafkaReplication
