import KafkaReplication.Pipeline.ReplicatedChange

/-!
# A server that keeps the replica

It carries out the INSERTs and the DELETEs of a dialect and rejects every other text, so that all
that is assumed of the target holds of it at once.
-/

namespace KafkaReplication
open Misc PgOutputParser PostgresqlReplicator DatabaseWriter

namespace Dialect

variable (dialect : Dialect)

open Classical in
noncomputable def targetServer (spare : Nat) : Postgres where
  Database := Prop × Bytes → List Row
  rows db name := db (dialect.place name)
  exec sql db :=
    if insert : ∃ stmt : dialect.Insert,
        insertSql doubledEscape stmt.table stmt.members = sql then
      (⟨true, 0⟩, dialect.inserted insert.choose db)
    else if delete : ∃ stmt : dialect.Delete, stmt.sql = sql then
      (⟨true, 0⟩, dialect.deleted delete.choose db)
    else (⟨false, 0⟩, db)
  escapeStringConn := doubled apostrophe
  spare := spare

variable {dialect} {spare : Nat}

theorem escapedText_targetServer : (dialect.targetServer spare).escapedText = doubledEscape := by
  funext text
  have nulFree : 0 ∉ doubled apostrophe (cStr text) := by
    rw [mem_doubled]
    exact zero_notMem_cStr text
  exact cStr_of_notMem nulFree

theorem targetServer_insert (stmt : dialect.Insert) (db : (dialect.targetServer spare).Database) :
    (dialect.targetServer spare).exec (insertSql doubledEscape stmt.table stmt.members) db =
      (⟨true, 0⟩, dialect.inserted stmt db) := by
  have known : ∃ other : dialect.Insert, insertSql doubledEscape other.table other.members =
      insertSql doubledEscape stmt.table stmt.members := ⟨stmt, rfl⟩
  have itself : known.choose = stmt := Insert.eq_of_sql known.choose_spec
  have carriedOut : (dialect.targetServer spare).exec
      (insertSql doubledEscape stmt.table stmt.members) db =
        (⟨true, 0⟩, dialect.inserted known.choose db) := dif_pos known
  rw [carriedOut, itself]

/-- What does not begin like an INSERT is none. -/
theorem not_insert {sql : Bytes} (other : sql.head? ≠ some (chr 'I')) :
    ¬ ∃ stmt : dialect.Insert, insertSql doubledEscape stmt.table stmt.members = sql := by
  rintro ⟨stmt, rfl⟩
  exact other rfl

theorem targetServer_delete (stmt : dialect.Delete) (db : (dialect.targetServer spare).Database) :
    (dialect.targetServer spare).exec stmt.sql db = (⟨true, 0⟩, dialect.deleted stmt db) := by
  have head : stmt.sql.head? ≠ some (chr 'I') := by
    have first : stmt.sql.head? = some (chr 'D') := rfl
    rw [first]
    decide
  have known : ∃ other : dialect.Delete, other.sql = stmt.sql := ⟨stmt, rfl⟩
  have itself : known.choose = stmt := Delete.sql_inj known.choose_spec
  have carriedOut : (dialect.targetServer spare).exec stmt.sql db =
      (⟨true, 0⟩, dialect.deleted known.choose db) :=
    (dif_neg (not_insert head)).trans (dif_pos known)
  rw [carriedOut, itself]

theorem targetServer_rejects {sql : Bytes} (notInsert : sql.head? ≠ some (chr 'I'))
    (notDelete : sql.head? ≠ some (chr 'D')) (db : (dialect.targetServer spare).Database) :
    (dialect.targetServer spare).exec sql db = (⟨false, 0⟩, db) := by
  have unknown : ¬ ∃ stmt : dialect.Delete, stmt.sql = sql := by
    rintro ⟨stmt, rfl⟩
    exact notDelete rfl
  exact (dif_neg (not_insert notInsert)).trans (dif_neg unknown)

/-- Everything that is assumed of the target, in every database. -/
theorem targetServer_replicates {sources : List SourceChange}
    (replicable : ∀ source ∈ sources, dialect.Replicable source.relation)
    (keyLiteral : ∀ source ∈ sources, source.KeyLiteral dialect)
    (fits : ∀ source ∈ sources, source.Fits (dialect.targetServer spare).toEscaping) :
    dialect.Replicates (dialect.targetServer spare) Set.univ sources where
  inserts :=
    { inserts := by
        intro stmt db
        right
        rw [Insert.sql, escapedText_targetServer, targetServer_insert]
        refine ⟨rfl, inserted_there stmt db rfl, ?_⟩
        intro other different
        have elsewhere : dialect.place other ≠ dialect.place stmt.table := by
          intro same
          exact different (congrArg Prod.snd same)
        exact inserted_elsewhere stmt db elsewhere
      creates := by
        intro stmt db name
        have head : (createTableSql stmt.table stmt.members).head? = some (chr 'C') := rfl
        rw [targetServer_rejects (by rw [head]; decide) (by rw [head]; decide)]
      selects := by
        intro table unquoted db name
        have head : (tableExistsSql table).head? = some (chr 'S') := rfl
        rw [targetServer_rejects (by rw [head]; decide) (by rw [head]; decide)] }
  deletes := by
    intro stmt db
    rw [targetServer_delete]
    refine ⟨deleted_there stmt db rfl, ?_⟩
    intro other different
    have elsewhere : dialect.place other ≠ dialect.place stmt.table := by
      intro same
      exact different (congrArg Prod.snd same)
    exact deleted_elsewhere stmt db elsewhere
  rejects := by
    rintro sql db ⟨table, column, -, -, -, behind, rfl⟩
    have head : (updatePrefix table column ++ behind).head? = some (chr 'U') := rfl
    rw [targetServer_rejects (by rw [head]; decide) (by rw [head]; decide)]
  alike db a b unquotedA unquotedB same := by
    have places : dialect.place a = dialect.place b := by
      rw [place, place, same, eq_true unquotedA, eq_true unquotedB]
    exact congrArg db places
  replicable := replicable
  keyLiteral := keyLiteral
  fits := fits
  taken := by
    intro source mem new _ db _
    refine ⟨?_, trivial⟩
    have plain := (replicable source mem).toPlain
    have escaped (text : Bytes) : 0 ∉ (dialect.targetServer spare).escapedText text :=
      zero_notMem_cStr _
    rw [insertOutcome, cStr_insertSql plain.nulFree new.tuple escaped, ← plain.insert_sql,
      Insert.sql, escapedText_targetServer, targetServer_insert]
  removed _ _ _ _ _ _ _ _ _ := trivial

end Dialect

end KafkaReplication
