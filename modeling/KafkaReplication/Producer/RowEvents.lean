import KafkaReplication.Producer.PostgresqlReplicator
import KafkaReplication.Producer.RowContents

/-!
# What the events of row messages say

`handleInsert`, `handleUpdate`, `handleDelete` and `extractKey`
(`producer_azs/postgresql_replicator.cpp:412-494,536-594`): the row that an event carries has each
value of the tuple under the name of its column and nothing else, `"primary"` is the name of the key
column, and the message to Kafka has the value of that column for its key. A tuple without values
makes no row; then there is no key either.
-/

namespace KafkaReplication
open Misc PgOutputParser

/-! ## The names in a row -/

section Names

variable {name : Bytes} {value : Json} {members : List (Bytes × Json)}

/-- A name that is new is one more. -/
theorem insertMember_names (absent : name ∉ members.map Prod.fst) :
    ((Json.insertMember name value members).map Prod.fst).Perm (name :: members.map Prod.fst) := by
  induction members with
  | nil => exact .refl _
  | cons member members ih =>
    rw [List.map_cons, List.mem_cons, not_or] at absent
    rw [Json.insertMember, if_neg absent.1]
    by_cases before : name < member.1
    · rw [if_pos before]
      exact .refl _
    · rw [if_neg before, List.map_cons, List.map_cons]
      exact ((ih absent.2).cons member.1).trans (.swap name member.1 _)

theorem fillMembers_names {pairs : List (Bytes × Bytes)}
    (distinct : (pairs.map Prod.fst ++ members.map Prod.fst).Nodup) :
    ((fillMembers pairs members).map Prod.fst).Perm
      (pairs.map Prod.fst ++ members.map Prod.fst) := by
  induction pairs generalizing members with
  | nil => exact .refl _
  | cons pair pairs ih =>
    rw [List.map_cons, List.cons_append] at distinct
    have absent : pair.1 ∉ members.map Prod.fst := fun member =>
      (List.nodup_cons.mp distinct).1 (List.mem_append_right _ member)
    have moved : (pairs.map Prod.fst ++
        (Json.insertMember pair.1 (.string pair.2) members).map Prod.fst).Perm
          (pair.1 :: (pairs.map Prod.fst ++ members.map Prod.fst)) :=
      ((insertMember_names absent).append_left _).trans List.perm_middle
    exact (ih (moved.nodup_iff.mpr distinct)).trans moved

/-- A row that starts empty has the names it was filled with. -/
theorem fillMembers_names_nil {pairs : List (Bytes × Bytes)}
    (distinct : (pairs.map Prod.fst).Nodup) :
    ((fillMembers pairs []).map Prod.fst).Perm (pairs.map Prod.fst) := by
  have filled := @fillMembers_names [] pairs
  rw [List.map_nil, List.append_nil] at filled
  exact filled distinct

end Names

/-- The row has exactly the names of the columns for its members, and each value of the tuple is
the member under the name of its column. -/
structure IsRow (cols : List Column) (tuple : List Bytes) (row : Json) : Prop where
  names : ∃ members, row.getMemberNames = .ok members ∧ members.Perm (cols.map Column.name)
  values : ∀ (i : Nat) (inCols : i < cols.length) (inside : i < tuple.length),
    row.find cols[i].name = .ok (some (.string tuple[i]))

theorem rowPairs_names {cols : List Column} {tuple : List Bytes}
    (full : tuple.length = cols.length) :
    (rowPairs cols tuple).map Prod.fst = cols.map Column.name := by
  rw [rowPairs, List.map_fst_zip]
  simp [full]

/-- A full tuple under distinct names makes such a row. -/
theorem isRow_rowJson {cols : List Column} (distinct : (cols.map Column.name).Nodup)
    {tuple : List Bytes} (full : tuple.length = cols.length) :
    IsRow cols tuple (rowJson (rowPairs cols tuple)) where
  names := by
    have names := rowPairs_names full
    rw [← names] at distinct ⊢
    generalize rowPairs cols tuple = pairs at distinct
    cases pairs with
    | nil => exact ⟨[], rfl, .refl _⟩
    | cons pair pairs => exact ⟨_, rfl, fillMembers_names_nil distinct⟩
  values := by
    intro i inCols inside
    apply rowJson_find
    · rw [rowPairs_names full]
      exact distinct
    · exact mem_rowPairs inCols inside

/-! ## What an event says of its row -/

/-- The event has the row of the tuple under `field`, the name of the key column under `"primary"`,
and the value of that column in the row, as JSON text, for its key. -/
def CarriesRow (jsoncpp : JsonCpp) (cols : List Column) (field : Bytes) (tuple : List Bytes)
    (event : Json × Bytes) : Prop :=
  ∃ row, event.1.find field = .ok (some row) ∧ IsRow cols tuple row ∧
    ∀ col, primaryColumn cols = some col →
      event.1.find (str "primary") = .ok (some (.string col.name)) ∧
      ∃ value, row.find col.name = .ok (some value) ∧ event.2 = jsoncpp.writeString value

/-- The event has no row under `field`, and neither a key column nor a key. -/
def CarriesNothing (field : Bytes) (event : Json × Bytes) : Prop :=
  event.1.find field = .ok (some .null) ∧
    event.1.find (str "primary") = .ok (some (.string [])) ∧ event.2 = []

section Events

variable (jsoncpp : JsonCpp) {cols : List Column} {tuple : List Bytes}

theorem primaryColumn_mem {primary : Column} (chosen : primaryColumn cols = some primary) :
    primary ∈ cols := by
  rw [primaryColumn, Option.or_eq_some_iff] at chosen
  rcases chosen with flagged | ⟨_, first⟩
  · exact List.mem_of_find?_eq_some flagged
  · exact List.mem_of_head? first

/-- Nothing is a member of the null value. -/
theorem firstKey_null (cols : List Column) : firstKey .null cols = .ok none := by
  induction cols with
  | nil => rfl
  | cons col cols ih =>
    rw [firstKey]
    split
    · exact ih
    · exact ih

theorem extractKey_null (cols : List Column) : extractKey jsoncpp .null cols = .ok ([], []) := by
  rw [extractKey, firstKey_null]
  cases cols <;> rfl

/-- The key of a full row is the chosen column, whose value the row has under its name. -/
theorem extractKey_row (distinct : (cols.map Column.name).Nodup)
    (full : tuple.length = cols.length) {primary : Column}
    (chosen : primaryColumn cols = some primary) :
    ∃ value, (rowJson (rowPairs cols tuple)).find primary.name = .ok (some value) ∧
      extractKey jsoncpp (rowJson (rowPairs cols tuple)) cols =
        .ok (primary.name, jsoncpp.writeString value) := by
  obtain ⟨i, inCols, rfl⟩ := List.mem_iff_getElem.mp (primaryColumn_mem chosen)
  have found := (isRow_rowJson distinct full).values i inCols (full ▸ inCols)
  have everyName : ∀ col ∈ cols, col.name ∈ (rowPairs cols tuple).map Prod.fst := by
    intro col member
    rw [rowPairs_names full]
    exact List.mem_map_of_mem member
  refine ⟨_, found, ?_⟩
  rw [extractKey_keyOf jsoncpp everyName chosen, keyOf, Json.index, Json.get, found]
  rfl

variable {field primary text : Bytes}

/-- The members that every row event ends with: its row, and then the key column. -/
def rowMembers (field : Bytes) (row : Json) (primary : Bytes) (others : List (Bytes × Json)) :
    List (Bytes × Json) :=
  Json.insertMember (str "primary") (.string primary) (Json.insertMember field row others)

theorem find_rowMembers (notPrimary : field ≠ str "primary") (primary : Bytes) (row : Json)
    (others : List (Bytes × Json)) :
    (Json.object (rowMembers field row primary others)).find field = .ok (some row) ∧
      (Json.object (rowMembers field row primary others)).find (str "primary") =
        .ok (some (.string primary)) := by
  unfold rowMembers
  constructor
  · rw [Json.find, Json.lookup_insertMember, if_neg notPrimary, Json.lookup_insertMember,
      if_pos rfl]
  · rw [Json.find, Json.lookup_insertMember, if_pos rfl]

theorem carriesRow_rowMembers (distinct : (cols.map Column.name).Nodup)
    (notPrimary : field ≠ str "primary") (full : tuple.length = cols.length)
    (key : extractKey jsoncpp (rowJson (rowPairs cols tuple)) cols = .ok (primary, text))
    (others : List (Bytes × Json)) :
    CarriesRow jsoncpp cols field tuple
      (.object (rowMembers field (rowJson (rowPairs cols tuple)) primary others), text) := by
  obtain ⟨rowFound, primaryFound⟩ :=
    find_rowMembers notPrimary primary (rowJson (rowPairs cols tuple)) others
  refine ⟨_, rowFound, isRow_rowJson distinct full, ?_⟩
  intro col chosen
  obtain ⟨value, found, extracted⟩ := extractKey_row jsoncpp distinct full chosen
  rw [extracted] at key
  cases key
  exact ⟨primaryFound, value, found, rfl⟩

theorem carriesNothing_rowMembers (notPrimary : field ≠ str "primary") (nothing : tuple = [])
    (key : extractKey jsoncpp (rowJson (rowPairs cols tuple)) cols = .ok (primary, text))
    (others : List (Bytes × Json)) :
    CarriesNothing field
      (.object (rowMembers field (rowJson (rowPairs cols tuple)) primary others), text) := by
  have empty : rowJson (rowPairs cols tuple) = .null := by
    rw [nothing, rowPairs, List.zip_nil_right]
    rfl
  rw [empty, extractKey_null] at key
  cases key
  obtain ⟨rowFound, primaryFound⟩ :=
    find_rowMembers notPrimary [] (rowJson (rowPairs cols tuple)) others
  rw [empty] at rowFound primaryFound ⊢
  exact ⟨rowFound, primaryFound, rfl⟩

end Events

/-! ## The three messages -/

/-- The messages that a row event is made of. -/
inductive RowMessage where
  | insert (ins : InsertMessage)
  | update (upd : UpdateMessage)
  | delete (del : DeleteMessage)

namespace RowMessage

def relationId : RowMessage → UInt32
  | insert ins => ins.relationId
  | update upd => upd.relationId
  | delete del => del.relationId

/-- The tuple whose row has the key. -/
def rowTuple : RowMessage → List Bytes
  | insert ins => ins.newTuple
  | update upd => upd.newTuple
  | delete del => del.oldTuple

/-- The old tuple that an Update message may have besides. -/
def oldTuple : RowMessage → List Bytes
  | update upd => upd.oldTuple
  | insert _ | delete _ => []

def field : RowMessage → Bytes
  | insert _ => str "data"
  | update _ => str "after"
  | delete _ => str "before"

def event (jsoncpp : JsonCpp) (relation : RelationMessage) (now : UInt64) :
    RowMessage → Except Fault (Json × Bytes)
  | insert ins => insertEvent jsoncpp relation now ins
  | update upd => updateEvent jsoncpp relation now upd
  | delete del => deleteEvent jsoncpp relation now del

def handle (jsoncpp : JsonCpp) (env : Surroundings) :
    RowMessage → ReplicatorM Unit
  | insert ins => PostgresqlReplicator.handleInsert jsoncpp env ins
  | update upd => PostgresqlReplicator.handleUpdate jsoncpp env upd
  | delete del => PostgresqlReplicator.handleDelete jsoncpp env del

/-- An old tuple is a row under `"before"`, which the event of an Update message without one does
not have. -/
def CarriesOld (cols : List Column) (event : Json × Bytes) : RowMessage → Prop
  | update upd =>
      (upd.oldTuple = [] → event.1.find (str "before") = .ok none) ∧
      (upd.oldTuple ≠ [] → ∃ row, event.1.find (str "before") = .ok (some row) ∧
        IsRow cols upd.oldTuple row)
  | insert _ | delete _ => True

/-- What an event says of the tuples of its message. -/
structure Carried (message : RowMessage) (jsoncpp : JsonCpp) (cols : List Column)
    (event : Json × Bytes) : Prop where
  row : message.rowTuple.length = cols.length →
    CarriesRow jsoncpp cols message.field message.rowTuple event
  nothing : message.rowTuple = [] → CarriesNothing message.field event
  old : message.CarriesOld cols event

section Carried

variable (jsoncpp : JsonCpp) {relation : RelationMessage} (now : UInt64)

theorem field_ne_primary (message : RowMessage) : message.field ≠ str "primary" := by
  cases message with
  | insert _ => exact (by decide : str "data" ≠ str "primary")
  | update _ => exact (by decide : str "after" ≠ str "primary")
  | delete _ => exact (by decide : str "before" ≠ str "primary")

/-- The event of a message whose last members are the row and its key. -/
theorem carried_rowMembers (message : RowMessage) {cols : List Column}
    (distinct : (cols.map Column.name).Nodup) {primary text : Bytes}
    (key : extractKey jsoncpp (rowJson (rowPairs cols message.rowTuple)) cols =
      .ok (primary, text)) (others : List (Bytes × Json))
    (old : message.CarriesOld cols (.object (rowMembers message.field
      (rowJson (rowPairs cols message.rowTuple)) primary others), text)) :
    message.Carried jsoncpp cols (.object (rowMembers message.field
      (rowJson (rowPairs cols message.rowTuple)) primary others), text) where
  row := fun full =>
    carriesRow_rowMembers jsoncpp distinct message.field_ne_primary full key others
  nothing := fun nothing =>
    carriesNothing_rowMembers jsoncpp message.field_ne_primary nothing key others
  old := old

/-- The members in front of `"after"` have the old tuple. -/
theorem carriesOld_updateMembers (distinct : (relation.columns.map Column.name).Nodup)
    (upd : UpdateMessage)
    (full : upd.oldTuple ≠ [] → upd.oldTuple.length = relation.columns.length)
    (after : Json) (primary text : Bytes) :
    (update upd).CarriesOld relation.columns (.object (rowMembers (str "after") after primary
      (updateMembers relation now upd)), text) := by
  have found : (Json.object (rowMembers (str "after") after primary
      (updateMembers relation now upd))).find (str "before") =
        .ok ((updateMembers relation now upd).lookup (str "before")) := by
    rw [rowMembers, Json.find, Json.lookup_insertMember, if_neg (by decide),
      Json.lookup_insertMember, if_neg (by decide)]
  unfold CarriesOld
  rw [found]
  constructor
  · intro noOld
    unfold updateMembers
    rw [noOld]
    rfl
  · intro some_
    refine ⟨rowJson (rowPairs relation.columns upd.oldTuple), ?_,
      isRow_rowJson distinct (full some_)⟩
    unfold updateMembers
    split
    next noOld => exact absurd noOld some_
    next => rw [Json.lookup_insertMember, if_pos rfl]

/-- Each message has an event, and the event has the tuples. -/
theorem event_carried (distinct : (relation.columns.map Column.name).Nodup) (message : RowMessage)
    (rowFull : message.rowTuple ≠ [] → message.rowTuple.length = relation.columns.length)
    (oldFull : message.oldTuple ≠ [] → message.oldTuple.length = relation.columns.length) :
    ∃ event, message.event jsoncpp relation now = .ok event ∧
      message.Carried jsoncpp relation.columns event := by
  have fits : ∀ {tuple : List Bytes}, (tuple ≠ [] → tuple.length = relation.columns.length) →
      tuple.length ≤ relation.columns.length := by
    intro tuple full
    by_cases nothing : tuple = []
    · rw [nothing]
      exact Nat.zero_le _
    · exact Nat.le_of_eq (full nothing)
  cases message with
  | insert ins =>
    obtain ⟨primary, text, key, event⟩ :=
      rowEvent_ok (str "INSERT") (str "data") jsoncpp relation now (fits rowFull)
    exact ⟨_, event, carried_rowMembers jsoncpp (insert ins) distinct key _ trivial⟩
  | update upd =>
    obtain ⟨primary, text, key, event⟩ :=
      updateEvent_ok jsoncpp relation now (fits oldFull) (fits rowFull)
    exact ⟨_, event, carried_rowMembers jsoncpp (update upd) distinct key _
      (carriesOld_updateMembers now distinct upd oldFull _ primary text)⟩
  | delete del =>
    obtain ⟨primary, text, key, event⟩ :=
      rowEvent_ok (str "DELETE") (str "before") jsoncpp relation now (fits rowFull)
    exact ⟨_, event, carried_rowMembers jsoncpp (delete del) distinct key _ trivial⟩

end Carried

/-- The event that is sent for a row message. A full tuple is carried as a row under the names of
its columns, with its key; a tuple without values is carried as null, without a key. -/
theorem handle_carried (jsoncpp : JsonCpp) (env : Surroundings) (self : PostgresqlReplicator)
    (message : RowMessage) {relation : RelationMessage} {producer : LibrdKafkaProducer}
    (cached : getCachedRelation self.relationCache message.relationId = some relation)
    (producing : self.kafkaProducer = some producer)
    (distinct : (relation.columns.map Column.name).Nodup)
    (rowFull : message.rowTuple ≠ [] → message.rowTuple.length = relation.columns.length)
    (oldFull : message.oldTuple ≠ [] → message.oldTuple.length = relation.columns.length) :
    ∃ event, message.event jsoncpp relation env.now = .ok event ∧
      message.handle jsoncpp env self = .ok () { self with
        kafkaProducer := some (producer.sendJson jsoncpp env.kafka event.1 event.2).2 } ∧
      message.Carried jsoncpp relation.columns event := by
  obtain ⟨event, built, carried⟩ := event_carried jsoncpp env.now distinct message rowFull oldFull
  refine ⟨event, built, ?_, carried⟩
  have sends : ∀ build : RelationMessage → Except Fault (Json × Bytes),
      build relation = .ok event →
        PostgresqlReplicator.handleRow jsoncpp env message.relationId build self =
          .ok () { self with
            kafkaProducer := some (producer.sendJson jsoncpp env.kafka event.1 event.2).2 } := by
    intro build built
    rw [PostgresqlReplicator.handleRow]
    simp only [cached, producing, built]
  cases message with
  | insert ins => exact sends _ built
  | update upd => exact sends _ built
  | delete del => exact sends _ built

/-- A replicator that has seen the table of labels. -/
def labelReplicator : PostgresqlReplicator :=
  { relationCache := fun _ => some labelRelation, kafkaProducer := some {} }

/-- A row gets another label. -/
def relabel : RowMessage := update ⟨7, [str "1", str "old"], [str "1", str "new"]⟩

theorem handle_carried_label :
    ∃ event, relabel.event (JsonCpp.compact .null) labelRelation 0 = .ok event ∧
      relabel.handle (JsonCpp.compact .null) {} labelReplicator =
        .ok () { labelReplicator with
          kafkaProducer := some (LibrdKafkaProducer.sendJson (JsonCpp.compact .null) {} event.1
            event.2 {}).2 } ∧
      relabel.Carried (JsonCpp.compact .null) labelRelation.columns event :=
  handle_carried (JsonCpp.compact .null) {} labelReplicator relabel rfl rfl (by decide)
    (fun _ => rfl) (fun _ => rfl)

/-- The `"data"` of an Insert message whose tuple has no values is null and has no members. -/
theorem emptyInsert_null :
    ¬ ∀ (jsoncpp : JsonCpp) (relation : RelationMessage) (now : UInt64) (message : RowMessage),
      (relation.columns.map Column.name).Nodup →
      (message.rowTuple ≠ [] → message.rowTuple.length = relation.columns.length) →
      (message.oldTuple ≠ [] → message.oldTuple.length = relation.columns.length) →
      ∃ event, message.event jsoncpp relation now = .ok event ∧
        CarriesRow jsoncpp relation.columns message.field message.rowTuple event ∧
        message.CarriesOld relation.columns event := by
  intro always
  obtain ⟨event, built, ⟨row, found, isRow, _⟩, _⟩ :=
    always (JsonCpp.compact .null) labelRelation 0 (insert ⟨7, chr 'N', []⟩) (by decide)
      (fun some_ => absurd rfl some_) (fun old => absurd rfl old)
  cases built
  cases found
  obtain ⟨members, names, permuted⟩ := isRow.names
  cases names
  exact absurd permuted.length_eq (by decide)

end RowMessage

end KafkaReplication
