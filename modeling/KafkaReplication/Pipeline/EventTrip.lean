import KafkaReplication.Consumer.ReplicationConsumer
import KafkaReplication.Producer.Events

/-!
# From an event to the queue

An event leaves the producer as the text that `sendJson` writes and comes back from
`parseFromStream` on the consumer's side. Where jsoncpp reads back what it has written, the
`ConsumerMessage` is a function of the event's members.
-/

namespace KafkaReplication
open Misc ReplicationConsumer DatabaseWriter

/-- What the consumer pushes for the event. -/
def trip (jsoncpp : JsonCpp) (event : Json) : Except Fault (Option ConsumerMessage) :=
  LibRdkafkaConsumer.startConsuming jsoncpp (jsoncpp.writeString event)

/-- What the consumer does for the event: the message is taken from the queue right away. -/
def replicate (pg : Postgres) (jsoncpp : JsonCpp) (event : Json) : WriterM pg Bool := do
  let pushed ← liftE pg (trip jsoncpp event)
  match pushed with
  | some msg => handlerIncomingData pg jsoncpp msg
  | none => return false

theorem trip_eq {jsoncpp : JsonCpp} {event : Json} (roundTrips : jsoncpp.RoundTrips event) :
    trip jsoncpp event = (messageCallback event).map some := by
  rw [trip, LibRdkafkaConsumer.startConsuming, roundTrips]

theorem replicate_eq (pg : Postgres) {jsoncpp : JsonCpp} {event : Json} {msg : ConsumerMessage}
    (roundTrips : jsoncpp.RoundTrips event) (pushed : messageCallback event = .ok msg) :
    replicate pg jsoncpp event = handlerIncomingData pg jsoncpp msg := by
  rw [replicate, trip_eq roundTrips, pushed]
  rfl

section Members

variable {members : List (Bytes × Json)} {name value : Bytes}

theorem getString_found (found : members.lookup name = some (.string value)) :
    getString (.object members) name = .ok value := by
  rw [getString, Json.get, Json.find, found]
  rfl

theorem getString_absent (absent : members.lookup name = none) :
    getString (.object members) name = .ok [] := by
  rw [getString, Json.get, Json.find, absent]
  rfl

theorem printed_found (found : members.lookup name = some (.string value)) :
    printed (.object members) name = .ok value := by
  rw [printed, Json.index, Json.get, Json.find, found]
  rfl

theorem printed_absent (absent : members.lookup name = none) :
    printed (.object members) name = .ok [] := by
  rw [printed, Json.index, Json.get, Json.find, absent]
  rfl

/-- The members of a row event: the key's name, a row under its field, and the others. -/
theorem lookup_rowEvent (primary field : Bytes) (row : Json) (others : List (Bytes × Json))
    (name : Bytes) :
    (Json.insertMember (str "primary") (.string primary)
        (Json.insertMember field row others)).lookup name =
      if name = str "primary" then some (.string primary)
      else if name = field then some row
      else others.lookup name := by
  rw [Json.lookup_insertMember, Json.lookup_insertMember]

theorem index_object (members : List (Bytes × Json)) (name : Bytes) :
    Json.index (.object members) name = .ok ((members.lookup name).getD .null) := rfl

end Members

section RowEvents

variable {members : List (Bytes × Json)} {table primary : Bytes}

/-- What is pushed for an Insert event. -/
theorem messageCallback_insert (op : members.lookup (str "op") = some (.string (str "INSERT")))
    (tableFound : members.lookup (str "table") = some (.string table))
    (primaryFound : members.lookup (str "primary") = some (.string primary)) :
    messageCallback (.object members) = .ok
      { primaryKey := primary
        op := str "INSERT"
        table := table
        data := (members.lookup (str "data")).getD .null } := by
  rw [messageCallback, printed_found op, printed_found tableFound]
  simp only [bind, Except.bind, saveIntoQueue, getString_found op, getString_found tableFound,
    getString_found primaryFound, index_object]
  rfl

/-- What is pushed for an Update event. -/
theorem messageCallback_update (op : members.lookup (str "op") = some (.string (str "UPDATE")))
    (tableFound : members.lookup (str "table") = some (.string table))
    (primaryFound : members.lookup (str "primary") = some (.string primary)) :
    messageCallback (.object members) = .ok
      { primaryKey := primary
        op := str "UPDATE"
        table := table
        before := (members.lookup (str "before")).getD .null
        after := (members.lookup (str "after")).getD .null } := by
  rw [messageCallback, printed_found op, printed_found tableFound]
  simp only [bind, Except.bind, saveIntoQueue, getString_found op, getString_found tableFound,
    getString_found primaryFound, index_object]
  rfl

/-- What is pushed for a Delete event. -/
theorem messageCallback_delete (op : members.lookup (str "op") = some (.string (str "DELETE")))
    (tableFound : members.lookup (str "table") = some (.string table))
    (primaryFound : members.lookup (str "primary") = some (.string primary)) :
    messageCallback (.object members) = .ok
      { primaryKey := primary
        op := str "DELETE"
        table := table
        before := (members.lookup (str "before")).getD .null } := by
  rw [messageCallback, printed_found op, printed_found tableFound]
  simp only [bind, Except.bind, saveIntoQueue, getString_found op, getString_found tableFound,
    getString_found primaryFound, index_object]
  rfl

/-- What is pushed for a Truncate event: it has no table and no key. -/
theorem messageCallback_truncate
    (op : members.lookup (str "op") = some (.string (str "TRUNCATE")))
    (noTable : members.lookup (str "table") = none)
    (noPrimary : members.lookup (str "primary") = none) :
    messageCallback (.object members) = .ok { op := str "TRUNCATE" } := by
  rw [messageCallback, printed_found op, printed_absent noTable]
  simp only [bind, Except.bind, saveIntoQueue, getString_found op, getString_absent noTable,
    getString_absent noPrimary]
  rfl

end RowEvents

section Events

variable {relation : RelationMessage} {now : UInt64}

/-- The members of a row event that `saveIntoQueue` looks at. -/
theorem lookup_rowMembers (field : Bytes) {others : List (Bytes × Json)} {op table : Bytes}
    (opFound : others.lookup (str "op") = some (.string op))
    (tableFound : others.lookup (str "table") = some (.string table))
    (notOp : str "op" ≠ field) (notTable : str "table" ≠ field) (notPrimary : field ≠ str "primary")
    (primary : Bytes) (row : Json) :
    let members := Json.insertMember (str "primary") (.string primary)
      (Json.insertMember field row others)
    members.lookup (str "op") = some (.string op) ∧
      members.lookup (str "table") = some (.string table) ∧
      members.lookup (str "primary") = some (.string primary) ∧
      members.lookup field = some row := by
  intro members
  have lookup := lookup_rowEvent primary field row others
  refine ⟨?_, ?_, ?_, ?_⟩
  · rw [lookup, if_neg (by decide), if_neg notOp, opFound]
  · rw [lookup, if_neg (by decide), if_neg notTable, tableFound]
  · rw [lookup, if_pos rfl]
  · rw [lookup, if_neg notPrimary, if_pos rfl]

theorem lookup_headerMembers (op : Bytes) (relation : RelationMessage) (now : UInt64) :
    (headerMembers op relation now).lookup (str "op") = some (.string op) ∧
      (headerMembers op relation now).lookup (str "table") =
        some (.string relation.getRelationName) := ⟨rfl, rfl⟩

/-- What is pushed for the event of an insert. -/
theorem messageCallback_insertEvent (primary : Bytes) (data : Json) :
    messageCallback (.object (Json.insertMember (str "primary") (.string primary)
      (Json.insertMember (str "data") data (headerMembers (str "INSERT") relation now)))) =
      .ok
        { primaryKey := primary
          op := str "INSERT"
          table := relation.getRelationName
          data := data } := by
  have header := lookup_headerMembers (str "INSERT") relation now
  obtain ⟨op, table, primaryFound, dataFound⟩ :=
    lookup_rowMembers (str "data") header.1 header.2 (by decide) (by decide) (by decide) primary
      data
  rw [messageCallback_insert op table primaryFound, dataFound, Option.getD_some]

variable (upd : UpdateMessage)

/-- The `"before"` of an Update event: the old tuple as a row, or nothing. -/
theorem lookup_before :
    ((updateMembers relation now upd).lookup (str "before")).getD .null =
      rowJson (rowPairs relation.columns upd.oldTuple) := by
  unfold updateMembers
  split
  · rename_i noOld
    rw [noOld, rowPairs, List.zip_nil_right]
    rfl
  · rw [Json.lookup_insertMember, if_pos rfl]
    rfl

/-- The other members are those of the header. -/
theorem lookup_header {name : Bytes} (other : name ≠ str "before") :
    (updateMembers relation now upd).lookup name =
      (headerMembers (str "UPDATE") relation now).lookup name := by
  unfold updateMembers
  split
  · rfl
  · rw [Json.lookup_insertMember, if_neg other]

/-- What is pushed for the event of an update. -/
theorem messageCallback_updateEvent (primary : Bytes) (after : Json) :
    messageCallback (.object (Json.insertMember (str "primary") (.string primary)
      (Json.insertMember (str "after") after (updateMembers relation now upd)))) = .ok
      { primaryKey := primary
        op := str "UPDATE"
        table := relation.getRelationName
        before := rowJson (rowPairs relation.columns upd.oldTuple)
        after := after } := by
  have header := lookup_headerMembers (str "UPDATE") relation now
  rw [← lookup_header upd (by decide), ← lookup_header upd (by decide)] at header
  obtain ⟨op, table, primaryFound, afterFound⟩ :=
    lookup_rowMembers (str "after") header.1 header.2 (by decide) (by decide) (by decide) primary
      after
  have before := lookup_rowEvent primary (str "after") after (updateMembers relation now upd)
    (str "before")
  rw [if_neg (by decide), if_neg (by decide)] at before
  rw [messageCallback_update op table primaryFound, before, lookup_before, afterFound,
    Option.getD_some]

end Events

/-! ## The key of a row -/

/-- `'value'`, as the statements write a key. -/
def keyLiteral (value : Bytes) : Bytes := str "'" ++ value ++ str "'"

theorem keyLiteral_inj {value other : Bytes} :
    keyLiteral value = keyLiteral other ↔ value = other := by
  rw [keyLiteral, keyLiteral, List.append_left_inj, List.append_right_inj]

theorem getMemberNames_rowJson (pairs : List (Bytes × Bytes)) :
    ∃ names, (rowJson pairs).getMemberNames = .ok names := by
  cases pairs with
  | nil => exact ⟨[], rfl⟩
  | cons pair pairs => exact ⟨_, rfl⟩

/-- The empty name comes before all others. -/
theorem insertMember_first (name : Bytes) (value first : Json) (rest : List (Bytes × Json)) :
    ∃ first' rest', Json.insertMember name value (([], first) :: rest) = ([], first') :: rest' := by
  unfold Json.insertMember
  split
  · rename_i empty
    exact ⟨value, rest, by rw [empty]⟩
  · rw [if_neg (List.not_lt_nil name)]
    exact ⟨first, _, rfl⟩

theorem fillMembers_first (pairs : List (Bytes × Bytes)) (first : Json)
    (rest : List (Bytes × Json)) :
    ∃ first' rest', fillMembers pairs (([], first) :: rest) = ([], first') :: rest' := by
  induction pairs generalizing first rest with
  | nil => exact ⟨first, rest, rfl⟩
  | cons pair pairs ih =>
    obtain ⟨first', rest', inserted⟩ := insertMember_first pair.1 (.string pair.2) first rest
    rw [fillMembers, inserted]
    exact ih first' rest'

theorem insertMember_empty (value : Json) (members : List (Bytes × Json)) :
    ∃ rest, Json.insertMember [] value members = ([], value) :: rest := by
  cases members with
  | nil => exact ⟨[], rfl⟩
  | cons member members =>
    obtain ⟨name, other⟩ := member
    unfold Json.insertMember
    split
    · exact ⟨members, rfl⟩
    · rename_i notEmpty
      cases name with
      | nil => exact absurd rfl notEmpty
      | cons c name =>
        rw [if_pos (List.nil_lt_cons c name)]
        exact ⟨_, rfl⟩

theorem fillMembers_empty {pairs : List (Bytes × Bytes)} (member : [] ∈ pairs.map Prod.fst)
    (members : List (Bytes × Json)) :
    ∃ first rest, fillMembers pairs members = ([], first) :: rest := by
  induction pairs generalizing members with
  | nil => cases member
  | cons pair pairs ih =>
    rw [List.map_cons, List.mem_cons] at member
    rw [fillMembers]
    rcases member with here | later
    · rw [← here]
      obtain ⟨rest, inserted⟩ := insertMember_empty (.string pair.2) members
      rw [inserted]
      exact fillMembers_first pairs _ rest
    · exact ih later _

/-- A row that has a column with the empty name has it first. -/
theorem rowJson_firstMember {pairs : List (Bytes × Bytes)} (member : [] ∈ pairs.map Prod.fst)
    {names : List Bytes} (ok : (rowJson pairs).getMemberNames = .ok names) :
    firstMember names = .ok [] := by
  cases pairs with
  | nil => cases member
  | cons pair pairs =>
    obtain ⟨first, rest, filled⟩ := fillMembers_empty member []
    have named : (rowJson (pair :: pairs)).getMemberNames =
        .ok ((fillMembers (pair :: pairs) []).map Prod.fst) := rfl
    rw [named, filled] at ok
    cases ok
    rfl

/-- A row is looked for by the value it has under the primary key. -/
theorem rowKey_rowJson {pairs : List (Bytes × Bytes)} {name value : Bytes}
    (member : name ∈ pairs.map Prod.fst)
    (found : (rowJson pairs).find name = .ok (some (.string value))) :
    rowKey (rowJson pairs) name = .ok (name, keyLiteral value) := by
  obtain ⟨names, ok⟩ := getMemberNames_rowJson pairs
  have column : keyColumnOf names name = .ok name := by
    unfold keyColumnOf
    split
    · rename_i empty
      rw [empty] at member ⊢
      exact rowJson_firstMember member ok
    · rfl
  rw [rowKey, ok]
  simp only [bind, Except.bind, column, Json.index, Json.get, found]
  rfl

/-- Without a row there is nothing to look for: the key is compared with the empty text. -/
theorem rowKey_null (name : Bytes) :
    rowKey .null name =
      if name = [] then .error (.undefined .pastTheEnd) else .ok (name, keyLiteral []) := by
  by_cases empty : name = []
  · rw [if_pos empty, empty]
    rfl
  · rw [if_neg empty, rowKey]
    have column : keyColumnOf [] name = .ok name := if_neg empty
    simp only [Json.getMemberNames, bind, Except.bind, column]
    rfl

/-! ## Full rows -/

/-- Under distinct names each value is found under its own. -/
theorem lookup_of_mem {pairs : List (Bytes × Bytes)} (distinct : (pairs.map Prod.fst).Nodup)
    {name value : Bytes} (member : (name, value) ∈ pairs) : pairs.lookup name = some value := by
  induction pairs with
  | nil => cases member
  | cons pair pairs ih =>
    rw [List.map_cons, List.nodup_cons] at distinct
    rcases List.mem_cons.mp member with first | later
    · subst first
      exact List.lookup_cons_self
    · have other : name ≠ pair.1 := by
        intro same
        exact distinct.1 (same ▸ List.mem_map_of_mem later)
      rw [List.lookup_cons, beq_false_of_ne other]
      exact ih distinct.2 later

/-- One value for each column of the relation. -/
structure FullTuple (relation : RelationMessage) where
  values : List Bytes
  full : values.length = relation.columns.length

namespace FullTuple

variable {relation : RelationMessage} (tuple : FullTuple relation)

/-- The columns with their values. -/
def entries : List (Column × Bytes) := relation.columns.zip tuple.values

/-- The names with their values. -/
def pairs : List (Bytes × Bytes) := rowPairs relation.columns tuple.values

theorem entries_columns : tuple.entries.map Prod.fst = relation.columns :=
  List.map_fst_zip (Nat.le_of_eq tuple.full.symm)

theorem pairs_names : tuple.pairs.map Prod.fst = relation.columns.map Column.name := by
  rw [pairs, rowPairs, List.map_fst_zip]
  simp [tuple.full]

theorem pair_mem {entry : Column × Bytes} (member : entry ∈ tuple.entries) :
    (entry.1.name, entry.2) ∈ tuple.pairs := by
  have pairs_eq : tuple.pairs = tuple.entries.map fun entry => (entry.1.name, entry.2) := by
    rw [pairs, rowPairs, List.zip_map_left]
    rfl
  rw [pairs_eq, List.mem_map]
  exact ⟨entry, member, rfl⟩

theorem name_mem {col : Column} (member : col ∈ relation.columns) :
    col.name ∈ tuple.pairs.map Prod.fst := by
  rw [pairs_names]
  exact List.mem_map_of_mem member

/-- Under distinct names the row has each value under the name of its column. -/
theorem rowJson_find (distinct : (relation.columns.map Column.name).Nodup)
    {entry : Column × Bytes} (member : entry ∈ tuple.entries) :
    (rowJson tuple.pairs).find entry.1.name = .ok (some (.string entry.2)) := by
  apply KafkaReplication.rowJson_find
  · rw [tuple.pairs_names]
    exact distinct
  · exact tuple.pair_mem member

end FullTuple

end KafkaReplication
