import KafkaReplication.Pipeline.EventTrip

/-!
# A TRUNCATE on its way to the replica

The event of `handleTruncate` lists its tables under `"tables"`. `saveIntoQueue` does not take
them into the `ConsumerMessage`, which has no place for a list, and the branch of
`handlerIncomingData` for `TRUNCATE` has no statement.
-/

namespace KafkaReplication
open Misc ReplicationConsumer DatabaseWriter

/-! ## The tables of an event -/

/-- The `"table"` of one entry of `"tables"`. -/
def tableName (info : Json) : Option Bytes :=
  match info.find (str "table") with
  | .ok (some (.string name)) => some name
  | _ => none

/-- The tables listed in an event's `"tables"`. -/
def listedTables (event : Json) : List Bytes :=
  match event.find (str "tables") with
  | .ok (some (.array infos)) => infos.filterMap tableName
  | _ => []

section Event

variable {cache : RelationCache} {now : UInt64} {trunc : TruncateMessage} {event : Json}

/-- The event lists the names of the relations that are cached. -/
theorem listedTables_truncateEvent (built : truncateEvent cache now trunc = .ok event) :
    listedTables event =
      (trunc.relationIds.filterMap cache).map RelationMessage.getRelationName := by
  obtain ⟨members, built', lookup⟩ := truncateEvent_ok cache now trunc
  rw [built'] at built
  cases built
  have tables : members.lookup (str "tables") =
      some (.array ((trunc.relationIds.filterMap cache).map tableJson)) :=
    lookup (str "tables") (by decide)
  rw [listedTables, Json.find, tables]
  show ((trunc.relationIds.filterMap cache).map tableJson).filterMap tableName = _
  rw [List.filterMap_map, ← List.filterMap_eq_map]
  rfl

theorem mem_listedTables (built : truncateEvent cache now trunc = .ok event) {table : Bytes} :
    table ∈ listedTables event ↔
      ∃ oid ∈ trunc.relationIds, ∃ relation, cache oid = some relation ∧
        relation.getRelationName = table := by
  rw [listedTables_truncateEvent built, List.mem_map]
  constructor
  · intro ⟨relation, member, named⟩
    obtain ⟨oid, listed, cached⟩ := List.mem_filterMap.mp member
    exact ⟨oid, listed, relation, cached, named⟩
  · intro ⟨oid, listed, relation, cached, named⟩
    exact ⟨relation, List.mem_filterMap.mpr ⟨oid, listed, cached⟩, named⟩

/-- What is pushed for the event of a truncate. -/
theorem messageCallback_truncateEvent (built : truncateEvent cache now trunc = .ok event) :
    messageCallback event = .ok { op := str "TRUNCATE" } := by
  obtain ⟨members, built', lookup⟩ := truncateEvent_ok cache now trunc
  rw [built'] at built
  cases built
  apply messageCallback_truncate
  · exact lookup (str "op") (by decide)
  · exact lookup (str "table") (by decide)
  · exact lookup (str "primary") (by decide)

end Event

/-! ## The way to the replica -/

section Replica

variable (pg : Postgres) (jsoncpp : JsonCpp)

/-- A truncate message from `handleTruncate` to `handlerIncomingData`. -/
def replicateTruncate (cache : RelationCache) (now : UInt64) (trunc : TruncateMessage) :
    WriterM pg Bool := do
  let event ← liftE pg (truncateEvent cache now trunc)
  replicate pg jsoncpp event

/-- The tables listed in the event are empty and the others are as they were. -/
def Truncated (event : Json) (db db' : pg.Database) : Prop :=
  (∀ table ∈ listedTables event, pg.rows db' table = []) ∧
    ∀ table ∉ listedTables event, pg.rows db' table = pg.rows db table

/-- The replica has taken the truncate message. -/
def TruncateReplicated (cache : RelationCache) (now : UInt64) (trunc : TruncateMessage)
    (db : pg.Database) : Prop :=
  ∃ event result db', truncateEvent cache now trunc = .ok event ∧
    replicateTruncate pg jsoncpp cache now trunc db = .ok result db' ∧
    Truncated pg event db db'

variable {pg jsoncpp} {cache : RelationCache} {now : UInt64} {trunc : TruncateMessage}

/-- The replica reports a failure that nobody looks at, and nothing has been done. -/
theorem replicateTruncate_eq
    (roundTrips : ∀ event, truncateEvent cache now trunc = .ok event → jsoncpp.RoundTrips event)
    (db : pg.Database) :
    replicateTruncate pg jsoncpp cache now trunc db = .ok false db := by
  obtain ⟨members, built, _⟩ := truncateEvent_ok cache now trunc
  rw [replicateTruncate, built]
  show replicate pg jsoncpp (.object members) db = .ok false db
  rw [replicate_eq pg (roundTrips _ built) (messageCallback_truncateEvent built)]
  rfl

/-- The replica takes a truncate message just when the listed tables are empty already. -/
theorem truncateReplicated_iff
    (roundTrips : ∀ event, truncateEvent cache now trunc = .ok event → jsoncpp.RoundTrips event)
    (db : pg.Database) :
    TruncateReplicated pg jsoncpp cache now trunc db ↔
      ∀ oid ∈ trunc.relationIds, ∀ relation, cache oid = some relation →
        pg.rows db relation.getRelationName = [] := by
  have unchanged : replicateTruncate pg jsoncpp cache now trunc db = .ok false db :=
    replicateTruncate_eq roundTrips db
  constructor
  · intro ⟨event, result, db', built, ran, emptied, _⟩ oid listed relation cached
    rw [unchanged] at ran
    cases ran
    apply emptied
    rw [mem_listedTables built]
    exact ⟨oid, listed, relation, cached, rfl⟩
  · intro empty
    obtain ⟨members, built, _⟩ := truncateEvent_ok cache now trunc
    refine ⟨.object members, false, db, built, unchanged, ?_, fun _ _ => rfl⟩
    intro table member
    obtain ⟨oid, listed, relation, cached, named⟩ := (mem_listedTables built).mp member
    rw [← named]
    exact empty oid listed relation cached

end Replica

/-! ## One table with a row -/

def auditRelation : RelationMessage where
  relationId := 9
  nspname := str "public"
  relationName := str "audit"
  replicaIdentity := chr 'd'
  columns := [⟨1, str "id", 23, -1⟩]

def auditCache : RelationCache := fun oid => if oid = 9 then some auditRelation else none

/-- `TRUNCATE audit`. -/
def auditTruncate : TruncateMessage where
  transactionId := 500
  numberOfRelations := 1
  options := 0
  relationIds := [9]

def auditEvent : Json := .object
  [(str "op", .string (str "TRUNCATE")), (str "tables", .array [tableJson auditRelation]),
    (str "timestamp", .int 0)]

/-- The replica: it would know how to do it. -/
def auditServer : Postgres :=
  .ofStatement .plain (str "TRUNCATE audit") fun db table =>
    if table = str "audit" then [] else db table

def auditRows : auditServer.Database := fun table =>
  if table = str "audit" then [fun _ => some (str "1")] else []

theorem auditEvent_roundTrips (event : Json)
    (built : truncateEvent auditCache 0 auditTruncate = .ok event) :
    (JsonCpp.compact auditEvent).RoundTrips event := by
  have audit : truncateEvent auditCache 0 auditTruncate = .ok auditEvent := rfl
  rw [audit] at built
  cases built
  exact JsonCpp.compact_roundTrips auditEvent

theorem truncateReplicated_iff_audit :
    TruncateReplicated auditServer (JsonCpp.compact auditEvent) auditCache 0 auditTruncate
        auditRows ↔
      ∀ oid ∈ auditTruncate.relationIds, ∀ relation, auditCache oid = some relation →
        auditServer.rows auditRows relation.getRelationName = [] :=
  truncateReplicated_iff auditEvent_roundTrips auditRows

/-- The row is still there. -/
theorem truncate_audit_ignored :
    ¬ TruncateReplicated auditServer (JsonCpp.compact auditEvent) auditCache 0 auditTruncate
        auditRows := by
  intro ⟨event, result, db', built, ran, emptied, _⟩
  rw [replicateTruncate_eq auditEvent_roundTrips] at ran
  cases ran
  have listed : str "audit" ∈ listedTables event := by
    rw [listedTables_truncateEvent built]
    decide
  have gone : auditServer.rows auditRows (str "audit") = [] := emptied _ listed
  cases gone

end KafkaReplication
