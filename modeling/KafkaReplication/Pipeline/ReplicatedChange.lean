import KafkaReplication.Pipeline.DeleteRow
import KafkaReplication.Pipeline.Delivery
import KafkaReplication.Pipeline.TargetTables
import KafkaReplication.Pipeline.UnchangedColumns
import KafkaReplication.Producer.ChangeStream

/-!
# What a change does to the target

A change of the source from the handler that builds its event to the statement that
`consumer_bo/database_writer.cpp:118-257` sends for it. An INSERT adds the row as texts, a DELETE
removes what has the first key column's text, and an UPDATE is sent as a statement that PostgreSQL
does not take.
-/

namespace KafkaReplication
open Misc PgOutputParser DatabaseWriter ReplicationConsumer

/-! ## Rows and tables -/

/-- The values that the decoder makes of a tuple. -/
def RowTuple.tuple {relation : RelationMessage} (row : RowTuple relation) : FullTuple relation where
  values := row.data.values
  full := by rw [TupleData.values, List.length_map, row.full]

namespace FullTuple

variable {relation : RelationMessage} (tuple : FullTuple relation)

/-- The row as the consumer's INSERT has it. -/
def written : Row := fun name =>
  ((textMembers tuple.pairs).map fun member => (member.1, cStr member.2)).lookup name

/-- The row has the tuple's value in the first key column. -/
def Matches (row : Row) : Prop :=
  ∀ entry ∈ tuple.keyEntries.head?, row entry.1.name = some entry.2

instance : DecidablePred tuple.Matches := fun row =>
  inferInstanceAs (Decidable (∀ entry ∈ tuple.keyEntries.head?, row entry.1.name = some entry.2))

end FullTuple

namespace Dialect

variable (dialect : Dialect)

/-- The rows of each table that a name denotes. -/
abbrev Tables : Type := {name : Bytes // dialect.unquoted name} → List Row

def tables (pg : Postgres) (db : pg.Database) : dialect.Tables := fun name => pg.rows db name.val

/-- A change of the table that the relation's name denotes. -/
def onTable (relation : RelationMessage) (change : List Row → List Row) (tables : dialect.Tables) :
    dialect.Tables := fun name =>
  if dialect.denotes name.val = dialect.denotes relation.getRelationName then change (tables name)
  else tables name

/-- A relation with a key, where nothing in the names has to be quoted or doubled. -/
structure Replicable (relation : RelationMessage) : Prop extends dialect.Plain relation where
  keyed : Keyed relation
  tablePlain : chr '"' ∉ relation.getRelationName
  named : ∀ col ∈ relation.columns, col.name ≠ []

end Dialect

namespace SourceChange

variable (dialect : Dialect) (source : SourceChange)

/-- What becomes of the tables. -/
def replicated (tables : dialect.Tables) : dialect.Tables :=
  match source.change with
  | .insert new => dialect.onTable source.relation (· ++ [new.tuple.written]) tables
  | .update _ _ => tables
  | .delete _ old =>
      dialect.onTable source.relation (·.filter fun row => ¬ old.tuple.Matches row) tables

/-- The key of a deleted row can be written between apostrophes. -/
def KeyLiteral : Prop :=
  match source.change with
  | .delete _ old =>
      ∀ entry ∈ old.tuple.keyEntries.head?, dialect.literal entry.2 ∧ apostrophe ∉ entry.2
  | _ => True

/-- The texts of the statement fit into the blocks that they are escaped into. An UPDATE has those
of its first tuple. -/
def Fits (escaping : Escaping) : Prop :=
  match source.change with
  | .insert new => escaping.TextsFit (textMembers new.tuple.pairs)
  | .update old new => escaping.TextsFit (textMembers (firstTuple old new).tuple.pairs)
  | .delete _ _ => True

end SourceChange

/-- The target carries out the statements of these changes as PostgreSQL documents them, and there
is room for the texts of these. In a database that is ready it takes each row, and it stays
ready. -/
structure Dialect.Replicates (dialect : Dialect) (pg : Postgres) (ready : Set pg.Database)
    (sources : List SourceChange) : Prop where
  inserts : dialect.DocumentsInserts pg
  deletes : dialect.Documents pg
  rejects : dialect.RejectsMalformed pg
  alike : ∀ (db : pg.Database) a b, dialect.unquoted a → dialect.unquoted b →
    dialect.denotes a = dialect.denotes b → pg.rows db a = pg.rows db b
  replicable : ∀ source ∈ sources, dialect.Replicable source.relation
  keyLiteral : ∀ source ∈ sources, source.KeyLiteral dialect
  fits : ∀ source ∈ sources, source.Fits pg.toEscaping
  taken : ∀ source ∈ sources, ∀ new, source.change = .insert new → ∀ db ∈ ready,
    (insertOutcome pg new.tuple db).1.commandOk = true ∧ (insertOutcome pg new.tuple db).2 ∈ ready
  removed : ∀ source ∈ sources, ∀ part old, source.change = .delete part old → ∀ db ∈ ready,
    ∀ entry ∈ old.tuple.keyEntries.head?,
      (pg.exec (cStr (deleteSql source.relation.getRelationName (entry.1.name, entry.2))) db).2 ∈
        ready

/-! ## From the event to the statement -/

section OneChange

variable {pg : Postgres} {jsoncpp : JsonCpp} {dialect : Dialect} {db : pg.Database}

theorem onTable_eq {relation : RelationMessage} {change : List Row → List Row}
    {db db' : pg.Database} (unquoted : dialect.unquoted relation.getRelationName)
    (alike : ∀ (db : pg.Database) a b, dialect.unquoted a → dialect.unquoted b →
      dialect.denotes a = dialect.denotes b → pg.rows db a = pg.rows db b)
    (here : pg.rows db' relation.getRelationName = change (pg.rows db relation.getRelationName))
    (others : ∀ name, dialect.denotes name ≠ dialect.denotes relation.getRelationName →
      pg.rows db' name = pg.rows db name) :
    dialect.tables pg db' = dialect.onTable relation change (dialect.tables pg db) := by
  funext name
  obtain ⟨name, unquoted'⟩ := name
  by_cases same : dialect.denotes name = dialect.denotes relation.getRelationName
  · rw [Dialect.onTable, if_pos same]
    show pg.rows db' name = change (pg.rows db name)
    rw [alike db' _ _ unquoted' unquoted same, alike db _ _ unquoted' unquoted same, here]
  · rw [Dialect.onTable, if_neg same]
    exact others name same

/-- The message that is queued for an event is handled as the event is replicated. -/
theorem handlerIncomingData_image {event : Json} (produced : Produced jsoncpp event)
    (roundTrips : jsoncpp.RoundTrips event) :
    handlerIncomingData pg jsoncpp (image event) = replicate pg jsoncpp event :=
  (replicate_eq pg roundTrips produced.messageCallback).symm

variable {relation : RelationMessage} {now : UInt64}

theorem replicate_insert {new : RowTuple relation} {event : Json} {key : Bytes}
    (built : insertEvent jsoncpp relation now ⟨relation.relationId, chr 'N', new.data.values⟩ =
      .ok (event, key)) (roundTrips : jsoncpp.RoundTrips event)
    (fits : pg.TextsFit (textMembers new.tuple.pairs)) (db : pg.Database) :
    replicate pg jsoncpp event db =
      .ok (insertOutcome pg new.tuple db).1.commandOk (insertOutcome pg new.tuple db).2 := by
  have built' : insertEvent jsoncpp relation now
      ⟨relation.relationId, chr 'N', new.tuple.values⟩ = .ok (event, key) := built
  have roundTrips' : ∀ event text, insertEvent jsoncpp relation now
      ⟨relation.relationId, chr 'N', new.tuple.values⟩ = .ok (event, text) →
        jsoncpp.RoundTrips event := by
    intro other text built''
    rw [built'] at built''
    cases built''
    exact roundTrips
  have done : replicateInsert pg jsoncpp relation now new.tuple db = _ :=
    replicateInsert_ok roundTrips' fits db
  rwa [replicateInsert, built', liftE_ok_bind] at done

theorem replicate_delete {old : RowTuple relation} {event : Json} {key : Bytes}
    (built : deleteEvent jsoncpp relation now ⟨relation.relationId, old.data.values⟩ =
      .ok (event, key)) (roundTrips : jsoncpp.RoundTrips event) (keyed : Keyed relation)
    {first : Column × Bytes} (head : old.tuple.keyEntries.head? = some first)
    (db : pg.Database) :
    replicate pg jsoncpp event db =
      execute pg (deleteSql relation.getRelationName (first.1.name, first.2)) db := by
  have built' : deleteEvent jsoncpp relation now old.tuple.deleteMessage = .ok (event, key) := built
  have roundTrips' : ∀ event text,
      deleteEvent jsoncpp relation now old.tuple.deleteMessage = .ok (event, text) →
        jsoncpp.RoundTrips event := by
    intro other text built''
    rw [built'] at built''
    cases built''
    exact roundTrips
  have done : replicateDelete pg jsoncpp relation now old.tuple.deleteMessage db = _ :=
    replicateDelete_eq keyed roundTrips' head db
  rwa [replicateDelete, built', liftE_ok_bind] at done

theorem Dialect.Replicable.exists_primary (replicable : dialect.Replicable relation) :
    ∃ col ∈ relation.columns, primaryColumn relation.columns = some col := by
  obtain ⟨col, mem, isKey⟩ := replicable.keyed.flagged
  cases found : relation.columns.find? Column.isKey with
  | none => exact absurd isKey (List.find?_eq_none.mp found col mem)
  | some first =>
    refine ⟨first, List.mem_of_find?_eq_some found, ?_⟩
    rw [primaryColumn, found, Option.some_or]

/-- What begins like an UPDATE to one of the columns. -/
theorem Dialect.Replicable.malformed (replicable : dialect.Replicable relation) {col : Column}
    (mem : col ∈ relation.columns) (behind : Bytes) :
    dialect.MalformedUpdate
      (cStr (updatePrefix relation.getRelationName col.name ++ behind)) := by
  obtain ⟨quoted, plain⟩ := replicable.columns col mem
  have nulFree : 0 ∉ updatePrefix relation.getRelationName col.name := by
    have table := dialect.unquoted_nonzero _ replicable.unquoted
    have name := zero_notMem_quoteColumn (dialect.quoted_nonzero _ quoted)
    simp only [updatePrefix, List.mem_append, not_or]
    exact ⟨⟨⟨⟨by decide, table⟩, by decide⟩, name⟩, by decide⟩
  rw [Dialect.malformedUpdate_cStr_append]
  refine ⟨relation.getRelationName, col.name, replicable.unquoted, replicable.tablePlain, plain, ?_⟩
  rw [cStr_of_notMem nulFree]

/-- The statement of an UPDATE is rejected. -/
theorem replicate_update {row : RowTuple relation} {event : Json} {key : Bytes}
    (built : updateEvent jsoncpp relation now ⟨relation.relationId, [], row.data.values⟩ =
      .ok (event, key)) (roundTrips : jsoncpp.RoundTrips event)
    (fits : pg.TextsFit (textMembers row.tuple.pairs))
    (replicable : dialect.Replicable relation) (rejects : dialect.RejectsMalformed pg)
    (db : pg.Database) : ∃ result, replicate pg jsoncpp event db = .ok result db := by
  let upd : TupleUpdate relation := ⟨[], row.data, row.full⟩
  have built' : updateEvent jsoncpp relation now upd.message = .ok (event, key) := built
  have roundTrips' : ∀ event text, updateEvent jsoncpp relation now upd.message =
      .ok (event, text) → jsoncpp.RoundTrips event := by
    intro other text built''
    rw [built'] at built''
    cases built''
    exact roundTrips
  -- nothing is known of the old row, but its key has a name
  obtain ⟨col, isColumn, chosen⟩ := replicable.exists_primary
  have key : upd.key = some (col.name, []) := by
    rw [TupleUpdate.key, chosen, comparedKey]
    show (if col.name = [] then _ else some (col.name, ((textMembers
      (rowPairs relation.columns [])).lookup col.name).getD [])) = _
    rw [if_neg (replicable.named col isColumn), rowPairs, List.zip_nil_right]
    rfl
  obtain ⟨⟨first, text⟩, rest, members⟩ := List.exists_cons_of_ne_nil (upd.newMembers_ne_nil key)
  obtain ⟨member, -⟩ := upd.newMembers_least members
  obtain ⟨column, isColumn', rfl⟩ := List.mem_map.mp member
  obtain ⟨behind, begins⟩ := updateSql_cons pg.escapedText relation.getRelationName
    (column.name, text) rest (col.name, keyLiteral [])
  have room : pg.TextsFit upd.newMembers := fits
  have done : replicateUpdate pg jsoncpp now upd = _ :=
    replicateUpdate_eq roundTrips' (Nat.zero_le _)
  rw [replicateUpdate_parse, built', liftE_ok_bind, key, Option.elim_some, liftE_ok_bind,
    if_pos room, members, begins] at done
  let sql := updatePrefix relation.getRelationName column.name ++ behind
  have rejected : (pg.exec (cStr sql) db).2 = db :=
    rejects _ db (replicable.malformed isColumn' behind)
  have executed : execute pg sql db =
      .ok (pg.exec (cStr sql) db).1.commandOk (pg.exec (cStr sql) db).2 := rfl
  rw [rejected] at executed
  exact ⟨_, (congrFun done db).trans executed⟩

/-! ## What the tables become -/

/-- The message that the consumer queues for a change that is handled at `now`. -/
def SourceChange.queued (jsoncpp : JsonCpp) (now : UInt64) (source : SourceChange) :
    ConsumerMessage :=
  match source.event jsoncpp now with
  | .ok (event, _) => image event
  | .error _ => {}

/-- A change is handled, and the tables become what it makes of them. -/
theorem handlerIncomingData_replicated {ready : Set pg.Database} {sources : List SourceChange}
    (replicates : dialect.Replicates pg ready sources) {source : SourceChange}
    (mem : source ∈ sources)
    (roundTrips : ∀ event key, source.event jsoncpp now = .ok (event, key) →
      jsoncpp.RoundTrips event) (isReady : db ∈ ready) :
    ∃ result db', handlerIncomingData pg jsoncpp (source.queued jsoncpp now) db = .ok result db' ∧
      db' ∈ ready ∧ dialect.tables pg db' = source.replicated dialect (dialect.tables pg db) := by
  obtain ⟨event, key, built⟩ := source.event_ok jsoncpp now
  have trips := roundTrips event key built
  have replicable := replicates.replicable source mem
  have unquoted := replicable.unquoted
  have literal := replicates.keyLiteral source mem
  have fits := replicates.fits source mem
  have taken := replicates.taken source mem
  have removed := replicates.removed source mem
  have handled : handlerIncomingData pg jsoncpp (image event) = _ :=
    handlerIncomingData_image (SourceChange.produced built) trips
  have queued : source.queued jsoncpp now = image event := by
    rw [SourceChange.queued, built]
  rw [queued, handled]
  obtain ⟨relation, change, narrow⟩ := source
  cases change with
  | insert new =>
    obtain ⟨ok, stays⟩ := taken new rfl db isReady
    refine ⟨_, _, replicate_insert built trips fits db, stays, ?_⟩
    rcases rows_inserted replicable.nulFree new.tuple replicable.toPlain replicates.inserts db with
      ⟨rejected, -⟩ | ⟨-, here, others⟩
    · rw [ok] at rejected
      cases rejected
    · have added : dialect.tables pg (insertOutcome pg new.tuple db).2 =
          dialect.onTable relation (· ++ [new.tuple.written]) (dialect.tables pg db) :=
        onTable_eq unquoted replicates.alike here others
      exact added
  | update old new =>
    obtain ⟨result, done⟩ := replicate_update built trips fits replicable replicates.rejects db
    exact ⟨result, db, done, isReady, rfl⟩
  | delete part old =>
    obtain ⟨first, head, isEntry, -⟩ := old.tuple.head_keyEntries replicable.keyed
    have column : first.1 ∈ relation.columns := (List.of_mem_zip isEntry).1
    obtain ⟨quoted, plain⟩ := replicable.columns first.1 column
    obtain ⟨isLiteral, valuePlain⟩ := literal first head
    let stmt : dialect.Delete :=
      ⟨relation.getRelationName, first.1.name, first.2, unquoted, quoted, isLiteral⟩
    have sent : cStr (deleteSql stmt.table (stmt.column, stmt.value)) = stmt.sql :=
      cStr_deleteSql_eq plain valuePlain
    obtain ⟨here, others⟩ := replicates.deletes stmt db
    refine ⟨_, _, replicate_delete built trips replicable.keyed head db,
      removed part old rfl db isReady first head, ?_⟩
    rw [← sent] at here others
    refine onTable_eq unquoted replicates.alike (here.trans ?_) others
    apply List.filter_congr
    intro row _
    have matches_ : old.tuple.Matches row ↔ row first.1.name = some first.2 := by
      rw [FullTuple.Matches, head]
      simp
    exact decide_eq_decide.mpr (not_congr matches_.symm)

end OneChange

end KafkaReplication
