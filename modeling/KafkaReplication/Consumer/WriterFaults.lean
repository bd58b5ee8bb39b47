import KafkaReplication.Consumer.StatementText

/-!
# What a queued message can do to the writer thread

`handlerIncomingData` (`consumer_bo/database_writer.cpp:263-289`) runs on whatever `saveIntoQueue`
has pushed, in a thread where nothing is caught. The answers of the database are looked at but
never throw; the shape of the message decides, and whether its texts fit into the blocks that they
are escaped into.
-/

namespace KafkaReplication
open Misc

namespace DatabaseWriter

/-- The column a row is compared by, if there is one. -/
def comparedColumn (before : Json) (primaryKey : Bytes) : Option Bytes :=
  if primaryKey = [] then (before.memberList.bind List.head?).map Prod.fst else some primaryKey

/-- The row has members, one of them can be named, and its value has a string form. -/
def KeyReadable (before : Json) (primaryKey : Bytes) : Prop :=
  ∃ column, comparedColumn before primaryKey = some column ∧ before.ConvertibleMember column

/-- The row has members, and what is escaped of them fits. -/
def RowWritable (pg : Postgres) (jsoncpp : JsonCpp) (row : Json) : Prop :=
  ∃ members, row.memberList = some members ∧ RowFits pg jsoncpp members

/-- The shape of a message that its operation gets through with. -/
def Handleable (pg : Postgres) (jsoncpp : JsonCpp) (message : ConsumerMessage) : Prop :=
  if message.op = str "INSERT" then RowWritable pg jsoncpp message.data
  else if message.op = str "UPDATE" then
    KeyReadable message.before message.primaryKey ∧ RowWritable pg jsoncpp message.after
  else if message.op = str "DELETE" then KeyReadable message.before message.primaryKey
  else True

theorem keyColumnOf_returns {before : Json} {members : List (Bytes × Json)}
    (has : before.memberList = some members) (primaryKey column : Bytes) :
    keyColumnOf (members.map Prod.fst) primaryKey = .ok column ↔
      comparedColumn before primaryKey = some column := by
  unfold keyColumnOf comparedColumn
  rw [has]
  by_cases unnamed : primaryKey = []
  · rw [if_pos unnamed, if_pos unnamed]
    cases members <;> simp [firstMember]
  · rw [if_neg unnamed, if_neg unnamed]
    simp

theorem rowKey_returns (before : Json) (primaryKey : Bytes) :
    (∃ key, rowKey before primaryKey = .ok key) ↔ KeyReadable before primaryKey := by
  have text (column : Bytes) :
      (∃ value, (before.index column).bind Json.asString = .ok value) ↔
        before.ConvertibleMember column := Json.get_asString_returns before column rfl
  constructor
  · rintro ⟨key, run⟩
    unfold rowKey at run
    obtain ⟨names, names_eq, run⟩ := except_bind_eq_ok.mp run
    obtain ⟨column, column_eq, run⟩ := except_bind_eq_ok.mp run
    obtain ⟨value, value_eq, run⟩ := except_bind_eq_ok.mp run
    obtain ⟨shown, shown_eq, _⟩ := except_bind_eq_ok.mp run
    obtain ⟨members, has⟩ :=
      Option.isSome_iff_exists.mp ((Json.getMemberNames_returns before).mp ⟨names, names_eq⟩)
    rw [Json.getMemberNames_some has, Except.ok.injEq] at names_eq
    subst names_eq
    refine ⟨column, (keyColumnOf_returns has primaryKey column).mp column_eq, ?_⟩
    exact (text column).mp ⟨shown, by rw [value_eq]; exact shown_eq⟩
  · rintro ⟨column, compared, convertible⟩
    obtain ⟨shown, shown_eq⟩ := (text column).mpr convertible
    obtain ⟨value, value_eq, shown_eq⟩ := except_bind_eq_ok.mp shown_eq
    obtain ⟨members, has⟩ : ∃ members, before.memberList = some members := by
      cases before with
      | null => exact ⟨[], rfl⟩
      | object members => exact ⟨members, rfl⟩
      | int _ | uint _ | real _ | string _ | bool _ | array _ => exact convertible.elim
    refine ⟨(column, str "'" ++ shown ++ str "'"), ?_⟩
    rw [rowKey, Json.getMemberNames_some has]
    simp only [bind, Except.bind, (keyColumnOf_returns has primaryKey column).mpr compared,
      value_eq, shown_eq]
    rfl

section Writer

variable {pg : Postgres} {jsoncpp : JsonCpp} {db : pg.Database}

/-- The call has come back with a result. -/
def Returned {α : Type} (result : EStateM.Result Fault pg.Database α) : Prop :=
  ∃ value after, result = .ok value after

theorem execute_returned (sql : Bytes) (db : pg.Database) : Returned (execute pg sql db) :=
  ⟨_, _, rfl⟩

theorem liftE_returned {α : Type} (x : Except Fault α) :
    Returned (liftE pg x db) ↔ ∃ a, x = .ok a := by
  cases x with
  | ok a => exact ⟨fun _ => ⟨a, rfl⟩, fun _ => ⟨a, db, rfl⟩⟩
  | error fault =>
    constructor
    · rintro ⟨_, _, run⟩
      cases run
    · rintro ⟨_, run⟩
      cases run

/-- The statement is executed, or its texts do not fit. -/
theorem ite_execute_returned (fits : Prop) [Decidable fits] (sql : Bytes) (db : pg.Database) :
    Returned ((if fits then execute pg sql
      else liftE pg (.error (.undefined .pastTheEnd))) db) ↔ fits := by
  by_cases holds : fits
  · rw [if_pos holds]
    exact iff_of_true (execute_returned sql db) holds
  · rw [if_neg holds, liftE_returned]
    simp [holds]

theorem rowWritable_iff {row : Json} {members : List (Bytes × Json)}
    (has : row.memberList = some members) :
    RowWritable pg jsoncpp row ↔ RowFits pg jsoncpp members := by
  simp [RowWritable, has]

theorem insertRow_returned (table : Bytes) (data : Json) :
    Returned (insertRow pg jsoncpp table data db) ↔ RowWritable pg jsoncpp data := by
  cases has : data.memberList with
  | none =>
    rw [insertRow, Json.getMemberNames_none has, liftE_error_bind, liftE_returned]
    simp [RowWritable, has]
  | some members =>
    rw [insertRow_eq pg table has, ite_execute_returned, rowWritable_iff has]

theorem createTableIfNotExists_returned (table : Bytes) {data : Json}
    (has : data.memberList.isSome) (db : pg.Database) :
    Returned (createTableIfNotExists pg table data db) := by
  obtain ⟨members, has⟩ := Option.isSome_iff_exists.mp has
  unfold createTableIfNotExists
  rw [buildCreateTableSql_eq table has]
  obtain ⟨found, after, asked⟩ : Returned (tableExists pg table db) := ⟨_, _, rfl⟩
  rw [bind_ok asked]
  cases found with
  | true => exact ⟨true, after, rfl⟩
  | false => exact execute_returned _ after

theorem updateRow_returned (table : Bytes) (before after : Json) (primaryKey : Bytes) :
    Returned (updateRow pg jsoncpp table before after primaryKey db) ↔
      KeyReadable before primaryKey ∧ RowWritable pg jsoncpp after := by
  rw [← rowKey_returns]
  cases key : rowKey before primaryKey with
  | error fault =>
    rw [updateRow, key, liftE_error_bind, liftE_returned]
    simp
  | ok found =>
    cases has : after.memberList with
    | none =>
      rw [updateRow, key, liftE_ok_bind, Json.getMemberNames_none has, liftE_error_bind,
        liftE_returned]
      simp [RowWritable, has]
    | some members =>
      rw [updateRow_eq pg table before primaryKey has, key, liftE_ok_bind, ite_execute_returned,
        rowWritable_iff has]
      exact (and_iff_right ⟨found, rfl⟩).symm

theorem deleteRow_returned (table : Bytes) (before : Json) (primaryKey : Bytes) :
    Returned (deleteRow pg table before primaryKey db) ↔ KeyReadable before primaryKey := by
  rw [← rowKey_returns]
  cases key : rowKey before primaryKey with
  | error fault =>
    rw [deleteRow, key, liftE_error_bind, liftE_returned]
    simp
  | ok found =>
    rw [deleteRow, key, liftE_ok_bind]
    exact ⟨fun _ => ⟨found, rfl⟩, fun _ => execute_returned _ db⟩

end Writer

/-- Whatever the database answers, a message is handled without a fault exactly if it has the
shape its operation needs, and its texts fit. -/
theorem handlerIncomingData_returned_iff (pg : Postgres) (jsoncpp : JsonCpp)
    (message : ConsumerMessage) (db : pg.Database) :
    Returned (handlerIncomingData pg jsoncpp message db) ↔ Handleable pg jsoncpp message := by
  unfold handlerIncomingData Handleable
  split_ifs with isInsert isUpdate isDelete isTruncate
  · constructor
    · rintro ⟨result, last, run⟩
      obtain ⟨_, created, _, run⟩ := bind_eq_ok.mp run
      exact (insertRow_returned message.table message.data).mp ⟨result, last, run⟩
    · intro writable
      have ⟨members, some_, _⟩ := writable
      obtain ⟨_, created, run⟩ :=
        createTableIfNotExists_returned message.table (Option.isSome_of_eq_some some_) db
      rw [bind_ok run]
      exact (insertRow_returned message.table message.data).mpr writable
  · exact updateRow_returned _ _ _ _
  · exact deleteRow_returned _ _ _
  · exact ⟨fun _ => trivial, fun _ => ⟨false, db, rfl⟩⟩
  · exact ⟨fun _ => trivial, fun _ => ⟨false, db, rfl⟩⟩

/-- The event `{"op":"DELETE"}` is queued, and its handling takes the first of no members. -/
theorem bareDelete_kills :
    ¬ ∀ (event : Json) (message : ConsumerMessage),
      ReplicationConsumer.saveIntoQueue event = .ok message →
      ∀ (pg : Postgres) (jsoncpp : JsonCpp) (db : pg.Database),
        Returned (handlerIncomingData pg jsoncpp message db) := by
  intro always
  have queued : ReplicationConsumer.saveIntoQueue
      (.object [(str "op", .string (str "DELETE"))]) = .ok { op := str "DELETE" } := rfl
  obtain ⟨_, _, run⟩ := always _ _ queued (Postgres.ofStatement .plain [] id)
    (JsonCpp.compact .null) (fun _ => [])
  cases run

end DatabaseWriter

end KafkaReplication
