import KafkaReplication.Producer.Dispatch

/-!
# Values and columns

`handleInsert`, `handleUpdate` and `handleDelete` (`producer_azs/postgresql_replicator.cpp:412-569`)
walk through a tuple of the message and index the columns of the cached relation with the same
counter. `parseTuple` (`pgoutput_parser.cpp:247-289`) only prints that the two numbers differ,
so the loops stay inside the columns just as far as the tuples themselves fit.
-/

namespace KafkaReplication
open Misc

namespace PostgresqlReplicator

/-- The relation of a row message and the tuples its handler walks through. -/
def rowTuples : ReplicationMessage → Option (UInt32 × List (List Bytes))
  | .insert ins => some (ins.relationId, [ins.newTuple])
  | .update upd => some (upd.relationId, [upd.oldTuple, upd.newTuple])
  | .delete del => some (del.relationId, [del.oldTuple])
  | _ => none

/-- If the handler gets as far as its loops, no tuple has more values than the relation has
columns. -/
def FitsColumns (self : PostgresqlReplicator) (msg : ReplicationMessage) : Prop :=
  ∀ relationId tuples relation, rowTuples msg = some (relationId, tuples) →
    self.kafkaProducer.isSome → self.relationCache relationId = some relation →
    ∀ tuple ∈ tuples, tuple.length ≤ relation.columns.length

/-- Nothing has been indexed at or past its end. -/
def WithinColumns (result : EStateM.Result Fault PostgresqlReplicator Unit) : Prop :=
  ∀ self, result ≠ .error (.undefined .pastTheEnd) self

section Handlers

variable {jsoncpp : JsonCpp} {env : Surroundings} {self self' : PostgresqlReplicator}

/-- An event builder stays inside the columns of exactly the relations that are wide enough. -/
def BuildsWithin (tuples : List (List Bytes))
    (event : RelationMessage → Except Fault (Json × Bytes)) : Prop :=
  ∀ relation,
    ((∀ tuple ∈ tuples, tuple.length ≤ relation.columns.length) →
      ∃ built, event relation = .ok built) ∧
    ((¬ ∀ tuple ∈ tuples, tuple.length ≤ relation.columns.length) →
      event relation = .error (.undefined .pastTheEnd))

theorem rowEvent_within (op field : Bytes) (jsoncpp : JsonCpp) (now : UInt64)
    (tuple : List Bytes) : BuildsWithin [tuple] (rowEvent op field jsoncpp · now tuple) := by
  intro relation
  simp only [List.mem_singleton, forall_eq]
  constructor
  · intro fits
    obtain ⟨primary, text, _, built⟩ := rowEvent_ok op field jsoncpp relation now fits
    exact ⟨_, built⟩
  · exact fun long => rowEvent_long op field jsoncpp relation now (Nat.lt_of_not_le long)

theorem updateEvent_within (jsoncpp : JsonCpp) (now : UInt64) (upd : UpdateMessage) :
    BuildsWithin [upd.oldTuple, upd.newTuple] (updateEvent jsoncpp · now upd) := by
  intro relation
  have both : (∀ tuple ∈ [upd.oldTuple, upd.newTuple], tuple.length ≤ relation.columns.length) ↔
      upd.oldTuple.length ≤ relation.columns.length ∧
        upd.newTuple.length ≤ relation.columns.length := by
    simp only [List.forall_mem_cons, List.not_mem_nil, false_imp_iff, implies_true, and_true]
  rw [both]
  constructor
  · rintro ⟨oldFits, newFits⟩
    obtain ⟨primary, text, _, built⟩ := updateEvent_ok jsoncpp relation now oldFits newFits
    exact ⟨_, built⟩
  · intro long
    rw [not_and_or, Nat.not_le, Nat.not_le] at long
    exact updateEvent_long jsoncpp relation now long

theorem handleRow_within {relationId : UInt32} {tuples : List (List Bytes)}
    {event : RelationMessage → Except Fault (Json × Bytes)} (within : BuildsWithin tuples event) :
    WithinColumns (handleRow jsoncpp env relationId event self) ↔
      ∀ relation, self.kafkaProducer.isSome → self.relationCache relationId = some relation →
        ∀ tuple ∈ tuples, tuple.length ≤ relation.columns.length := by
  unfold handleRow PgOutputParser.getCachedRelation
  cases cached : self.relationCache relationId with
  | none => exact ⟨fun _ _ _ some_eq => (by cases some_eq), fun _ _ result => (by cases result)⟩
  | some relation =>
    cases present : self.kafkaProducer with
    | none => exact ⟨fun _ _ isSome => (by cases isSome), fun _ _ result => (by cases result)⟩
    | some producer =>
      obtain ⟨built, long⟩ := within relation
      constructor
      · intro inside other _ same
        cases same
        by_contra misfit
        refine inside self ?_
        simp only [long misfit]
      · intro fits last
        obtain ⟨event_, event_eq⟩ := built (fits relation rfl rfl)
        simp only [event_eq]
        exact fun result => (by cases result)

theorem handleMessage_within {msg : ReplicationMessage} (row : (rowTuples msg).isSome) :
    WithinColumns (handleMessage jsoncpp env (some msg) self) ↔ FitsColumns self msg := by
  have one : ∀ relationId tuples, rowTuples msg = some (relationId, tuples) →
      ((∀ relation, self.kafkaProducer.isSome → self.relationCache relationId = some relation →
          ∀ tuple ∈ tuples, tuple.length ≤ relation.columns.length) ↔ FitsColumns self msg) := by
    intro relationId tuples is
    constructor
    · intro fits _ _ relation is'
      cases is.symm.trans is'
      exact fits relation
    · exact fun fits relation => fits relationId tuples relation is
  cases msg with
  | insert ins =>
    exact (handleRow_within (rowEvent_within _ _ jsoncpp env.now _)).trans (one _ _ rfl)
  | update upd =>
    exact (handleRow_within (updateEvent_within jsoncpp env.now upd)).trans (one _ _ rfl)
  | delete del =>
    exact (handleRow_within (rowEvent_within _ _ jsoncpp env.now _)).trans (one _ _ rfl)
  | begin _ | commit _ | relation _ | truncate _ => cases row

/-- A row message leaves the relations and the Kafka producer as they were. -/
theorem parseMessage_row {data : ByteVec} {msg : ReplicationMessage}
    (accepted : parseMessage env data self = .ok (some msg) self')
    (row : (rowTuples msg).isSome) : self' = self := by
  have cacheKept : ∀ cache, PgOutputParser.cacheRelation msg cache = cache := by
    cases msg with
    | relation _ => cases row
    | begin _ | commit _ | insert _ | update _ | delete _ | truncate _ => exact fun _ => rfl
  obtain ⟨bytes, size_lt⟩ := data
  cases bytes with
  | nil => cases accepted
  | cons msgType rest =>
    simp only [parseMessage, PgOutputParser.parseMessage] at accepted
    cases parsed : PgOutputParser.parseBody env.offset0.toNat self.relationCache msgType
        (ByteVec.dropFront ⟨msgType :: rest, size_lt⟩ 1) with
    | ok message =>
      rw [parsed] at accepted
      cases message with
      | none => cases accepted
      | some message =>
        cases accepted
        rw [cacheKept]
    | error fault =>
      rw [parsed] at accepted
      cases fault <;> cases accepted

end Handlers

/-- Whatever relations are cached and whatever row message is accepted, its handler stays
inside the columns of the relation exactly if the tuples fit them. -/
theorem withinColumns_iff (jsoncpp : JsonCpp) (env : Surroundings)
    {self self' : PostgresqlReplicator} {data : ByteVec} {msg : ReplicationMessage}
    (accepted : parseMessage env data self = .ok (some msg) self')
    (row : (rowTuples msg).isSome) :
    WithinColumns (handleMessage jsoncpp env (some msg) self') ↔ FitsColumns self msg := by
  rw [parseMessage_row accepted row]
  exact handleMessage_within row

/-- A replicator with a Kafka producer and the relation 7, which has the one column `id`. -/
def narrowReplicator : PostgresqlReplicator where
  relationCache := fun id =>
    if id = 7 then some ⟨7, str "public", str "moods", chr 'd', [⟨1, str "id", 23, -1⟩]⟩ else none
  kafkaProducer := some { producer := some RdKafkaProducer.fresh }

/-- An INSERT of one value into the relation 7. -/
def narrowInsert : ByteVec :=
  ⟨str "I" ++ [0, 0, 0, 7] ++ str "N" ++ [0, 1] ++ str "n", by decide⟩

/-- An INSERT of two values into it. -/
def wideInsert : ByteVec :=
  ⟨str "I" ++ [0, 0, 0, 7] ++ str "N" ++ [0, 2] ++ str "nn", by decide⟩

theorem withinColumns_narrow :
    WithinColumns (handleMessage (JsonCpp.compact .null) {}
      (some (.insert ⟨7, chr 'N', [str "NULL"]⟩)) narrowReplicator) := by
  have accepted : parseMessage {} narrowInsert narrowReplicator =
      .ok (some (.insert ⟨7, chr 'N', [str "NULL"]⟩)) narrowReplicator := rfl
  refine (withinColumns_iff (JsonCpp.compact .null) {} accepted rfl).mpr ?_
  rintro _ _ relation ⟨⟩ _ ⟨⟩
  decide

/-- The second value of the wide INSERT has no column. -/
theorem wideInsert_leaves :
    ¬ ∀ (self self' : PostgresqlReplicator) (data : ByteVec) (msg : ReplicationMessage),
      parseMessage {} data self = .ok (some msg) self' → (rowTuples msg).isSome →
      WithinColumns (handleMessage (JsonCpp.compact .null) {} (some msg) self') := by
  intro always
  have accepted : parseMessage {} wideInsert narrowReplicator =
      .ok (some (.insert ⟨7, chr 'N', [str "NULL", str "NULL"]⟩)) narrowReplicator := rfl
  exact always _ _ _ _ accepted rfl narrowReplicator rfl

end PostgresqlReplicator

end KafkaReplication
