import KafkaReplication.SharedStructures
import KafkaReplication.Producer.PgOutputParser

/-!
# Change events

The JSON that the handlers of `producer_azs/postgresql_replicator.cpp:412-594` build from a
decoded message and its relation, together with the key of the Kafka message. A handler gets
its relation's columns from the cache and its values from the message, and nothing makes
their numbers agree.
-/

namespace KafkaReplication
open Misc PgOutputParser

/-- `data[cols[i].name] = values[i]` for each value; `cols[i]` is not checked. -/
def fillRow : List Column → List Bytes → Json → Except Fault Json
  | _, [], data => .ok data
  | [], _ :: _, _ => .error (.undefined .pastTheEnd)
  | col :: cols, value :: values, data => do
      let data ← data.set col.name (.string value)
      fillRow cols values data

/-- The loop of `extractKey` (`postgresql_replicator.cpp:577-585`): the first column that has
the key flag and is in the row. -/
def firstKey (data : Json) : List Column → Except Fault (Option Bytes)
  | [] => .ok none
  | col :: cols =>
      if col.flags &&& 1 ≠ 0 then do
        let member ← data.isMember col.name
        if member then return some col.name else firstKey data cols
      else firstKey data cols

/-- The key column's name with its value as JSON text. -/
def keyOf (jsoncpp : JsonCpp) (data : Json) (name : Bytes) : Except Fault (Bytes × Bytes) := do
  let value ← data.index name
  return (name, jsoncpp.writeString value)

/-- Without such a column the first one is taken (`postgresql_replicator.cpp:587-593`). -/
def fallbackKey (jsoncpp : JsonCpp) (data : Json) : List Column → Except Fault (Bytes × Bytes)
  | [] => .ok ([], [])
  | col :: _ => do
      let member ← data.isMember col.name
      if member then keyOf jsoncpp data col.name else return ([], [])

/-- `extractKey` (`postgresql_replicator.cpp:575-594`). -/
def extractKey (jsoncpp : JsonCpp) (data : Json) (cols : List Column) :
    Except Fault (Bytes × Bytes) := do
  let found ← firstKey data cols
  match found with
  | some name => keyOf jsoncpp data name
  | none => fallbackKey jsoncpp data cols

/-- The members every row event starts with. -/
def eventHeader (op : Bytes) (relation : RelationMessage) (now : UInt64) : Except Fault Json := do
  let message ← Json.null.set (str "op") (.string op)
  let message ← message.set (str "table") (.string relation.getRelationName)
  let message ← message.set (str "schema") (.string relation.getRelationNamespace)
  message.set (str "timestamp") (.int now.toInt64.toInt)

/-- The event of `handleInsert` and `handleDelete`: one row under `field`. -/
def rowEvent (op field : Bytes) (jsoncpp : JsonCpp) (relation : RelationMessage) (now : UInt64)
    (tuple : List Bytes) : Except Fault (Json × Bytes) := do
  let message ← eventHeader op relation now
  let data ← fillRow relation.columns tuple .null
  let message ← message.set field data
  let primaryKey ← extractKey jsoncpp data relation.columns
  let message ← message.set (str "primary") (.string primaryKey.1)
  return (message, primaryKey.2)

/-- The event of `handleInsert` (`postgresql_replicator.cpp:423-441`). -/
def insertEvent (jsoncpp : JsonCpp) (relation : RelationMessage) (now : UInt64)
    (ins : InsertMessage) : Except Fault (Json × Bytes) :=
  rowEvent (str "INSERT") (str "data") jsoncpp relation now ins.newTuple

/-- The event of `handleDelete` (`postgresql_replicator.cpp:546-564`). -/
def deleteEvent (jsoncpp : JsonCpp) (relation : RelationMessage) (now : UInt64)
    (del : DeleteMessage) : Except Fault (Json × Bytes) :=
  rowEvent (str "DELETE") (str "before") jsoncpp relation now del.oldTuple

/-- The `"before"` of `handleUpdate` (`postgresql_replicator.cpp:467-477`): only a message with
an old tuple has one. The `old_data` declared in front of it stays null and is not used. -/
def setBefore (relation : RelationMessage) (upd : UpdateMessage) (message : Json) :
    Except Fault Json :=
  match upd.oldTuple with
  | [] => .ok message
  | oldCols => do
      let oldData ← fillRow relation.columns oldCols .null
      message.set (str "before") oldData

/-- The event of `handleUpdate` (`postgresql_replicator.cpp:458-489`). -/
def updateEvent (jsoncpp : JsonCpp) (relation : RelationMessage) (now : UInt64)
    (upd : UpdateMessage) : Except Fault (Json × Bytes) := do
  let message ← eventHeader (str "UPDATE") relation now
  let message ← setBefore relation upd message
  let newData ← fillRow relation.columns upd.newTuple .null
  let message ← message.set (str "after") newData
  let primaryKey ← extractKey jsoncpp newData relation.columns
  let message ← message.set (str "primary") (.string primaryKey.1)
  return (message, primaryKey.2)

/-- One entry of the `"tables"` of a truncate event. -/
def tableInfo (relation : RelationMessage) : Except Fault Json := do
  let info ← Json.null.set (str "schema") (.string relation.getRelationNamespace)
  info.set (str "table") (.string relation.getRelationName)

/-- The loop of `handleTruncate` (`postgresql_replicator.cpp:508-519`): tables that are not
cached are passed over. -/
def truncateTables (cache : RelationCache) : List UInt32 → Json → Except Fault Json
  | [], tables => .ok tables
  | oid :: oids, tables =>
      match getCachedRelation cache oid with
      | some relation => do
          let info ← tableInfo relation
          let tables ← tables.append info
          truncateTables cache oids tables
      | none => truncateTables cache oids tables

/-- `if(flag) options[name] = true;` -/
def setOption (flag : Bool) (name : Bytes) (options : Json) : Except Fault Json :=
  if flag then options.set name (.bool true) else .ok options

/-- The event of `handleTruncate` (`postgresql_replicator.cpp:502-529`). -/
def truncateEvent (cache : RelationCache) (now : UInt64) (trunc : TruncateMessage) :
    Except Fault Json := do
  let message ← Json.null.set (str "op") (.string (str "TRUNCATE"))
  let message ← message.set (str "timestamp") (.int now.toInt64.toInt)
  let tables ← truncateTables cache trunc.relationIds (.array [])
  let message ← message.set (str "tables") tables
  if trunc.hasCascade || trunc.hasRestartIdentity then
    let options ← setOption trunc.hasCascade (str "cascade") .null
    let options ← setOption trunc.hasRestartIdentity (str "restart_identity") options
    message.set (str "options") options
  else
    return message

/-! ## Rows -/

/-- `members` after `data[name] = value` for each pair in turn. -/
def fillMembers : List (Bytes × Bytes) → List (Bytes × Json) → List (Bytes × Json)
  | [], members => members
  | (name, value) :: pairs, members =>
      fillMembers pairs (Json.insertMember name (.string value) members)

/-- The row that starts as a null value and is filled with the pairs. -/
def rowJson : List (Bytes × Bytes) → Json
  | [] => .null
  | (name, value) :: pairs => .object (fillMembers pairs [(name, .string value)])

/-- The pairs of a row: each value under the name of its column. -/
def rowPairs (cols : List Column) (values : List Bytes) : List (Bytes × Bytes) :=
  (cols.map Column.name).zip values

theorem fillRow_object (cols : List Column) (values : List Bytes)
    (members : List (Bytes × Json)) :
    fillRow cols values (.object members) =
      if values.length ≤ cols.length then
        .ok (.object (fillMembers (rowPairs cols values) members))
      else .error (.undefined .pastTheEnd) := by
  induction cols generalizing values members with
  | nil => cases values <;> rfl
  | cons col cols ih =>
    cases values with
    | nil => rfl
    | cons value values =>
      have step : fillRow (col :: cols) (value :: values) (.object members) =
          fillRow cols values (.object (Json.insertMember col.name (.string value) members)) := rfl
      rw [step, ih, List.length_cons, List.length_cons]
      simp only [Nat.add_le_add_iff_right]
      rfl

theorem fillRow_null (cols : List Column) (values : List Bytes) :
    fillRow cols values .null =
      if values.length ≤ cols.length then .ok (rowJson (rowPairs cols values))
      else .error (.undefined .pastTheEnd) := by
  cases cols with
  | nil => cases values <;> rfl
  | cons col cols =>
    cases values with
    | nil => rfl
    | cons value values =>
      have step : fillRow (col :: cols) (value :: values) .null =
          fillRow cols values (.object [(col.name, .string value)]) := rfl
      rw [step, fillRow_object, List.length_cons, List.length_cons]
      simp only [Nat.add_le_add_iff_right]
      rfl

theorem lookup_fillMembers_of_notMem {pairs : List (Bytes × Bytes)} {name : Bytes}
    (absent : name ∉ pairs.map Prod.fst) (members : List (Bytes × Json)) :
    (fillMembers pairs members).lookup name = members.lookup name := by
  induction pairs generalizing members with
  | nil => rfl
  | cons pair pairs ih =>
    rw [List.map_cons, List.mem_cons, not_or] at absent
    rw [fillMembers, ih absent.2, Json.lookup_insertMember, if_neg absent.1]

/-- Under distinct names each value is found under its own. -/
theorem lookup_fillMembers {pairs : List (Bytes × Bytes)} (distinct : (pairs.map Prod.fst).Nodup)
    {name value : Bytes} (member : (name, value) ∈ pairs) (members : List (Bytes × Json)) :
    (fillMembers pairs members).lookup name = some (.string value) := by
  induction pairs generalizing members with
  | nil => cases member
  | cons pair pairs ih =>
    rw [List.map_cons, List.nodup_cons] at distinct
    rcases List.mem_cons.mp member with first | later
    · subst first
      rw [fillMembers, lookup_fillMembers_of_notMem distinct.1, Json.lookup_insertMember,
        if_pos rfl]
    · exact ih distinct.2 later _

theorem rowJson_find {pairs : List (Bytes × Bytes)} (distinct : (pairs.map Prod.fst).Nodup)
    {name value : Bytes} (member : (name, value) ∈ pairs) :
    (rowJson pairs).find name = .ok (some (.string value)) := by
  cases pairs with
  | nil => cases member
  | cons pair pairs =>
    -- filling the null value is filling the empty object
    have found := lookup_fillMembers distinct member []
    exact congrArg Except.ok found

theorem isSome_lookup_fillMembers (pairs : List (Bytes × Bytes)) (name : Bytes)
    (members : List (Bytes × Json)) :
    ((fillMembers pairs members).lookup name).isSome =
      (decide (name ∈ pairs.map Prod.fst) || (members.lookup name).isSome) := by
  induction pairs generalizing members with
  | nil => simp [fillMembers]
  | cons pair pairs ih =>
    rw [fillMembers, ih, Json.lookup_insertMember, List.map_cons]
    by_cases first : name = pair.1
    · simp [first]
    · rw [if_neg first]
      simp only [List.mem_cons, first, false_or]

theorem rowJson_isMember (pairs : List (Bytes × Bytes)) (name : Bytes) :
    (rowJson pairs).isMember name = .ok (decide (name ∈ pairs.map Prod.fst)) := by
  cases pairs with
  | nil => rfl
  | cons pair pairs =>
    have found := isSome_lookup_fillMembers (pair :: pairs) name []
    rw [List.lookup_nil, Option.isSome_none, Bool.or_false] at found
    exact congrArg Except.ok found

/-- Constant access to a row succeeds for every name. -/
theorem rowJson_index (pairs : List (Bytes × Bytes)) (name : Bytes) :
    ∃ value, (rowJson pairs).index name = .ok value := by
  cases pairs with
  | nil => exact ⟨_, rfl⟩
  | cons pair pairs => exact ⟨_, rfl⟩

/-! ## Keys -/

/-- The bit that `extractKey` tests. -/
def Column.isKey (col : Column) : Bool := col.flags &&& 1 ≠ 0

/-- The column whose name is the `"primary"` of a full row. -/
def primaryColumn (cols : List Column) : Option Column :=
  (cols.find? Column.isKey).or cols.head?

theorem firstKey_total (pairs : List (Bytes × Bytes)) (cols : List Column) :
    ∃ key, firstKey (rowJson pairs) cols = .ok key := by
  induction cols with
  | nil => exact ⟨none, rfl⟩
  | cons col cols ih =>
    rw [firstKey, rowJson_isMember]
    split
    · by_cases member : col.name ∈ pairs.map Prod.fst
      · exact ⟨some col.name, by simp [member, bind, Except.bind, pure, Except.pure]⟩
      · simpa [member, bind, Except.bind] using ih
    · exact ih

/-- In a row that has every column the first flagged column is the key. -/
theorem firstKey_full {pairs : List (Bytes × Bytes)} {cols : List Column}
    (full : ∀ col ∈ cols, col.name ∈ pairs.map Prod.fst) :
    firstKey (rowJson pairs) cols = .ok ((cols.find? Column.isKey).map Column.name) := by
  induction cols with
  | nil => rfl
  | cons col cols ih =>
    rw [firstKey, rowJson_isMember, List.find?_cons]
    have present := full col List.mem_cons_self
    by_cases flagged : col.flags &&& 1 ≠ 0
    · have key : col.isKey = true := decide_eq_true flagged
      rw [if_pos flagged, key, decide_eq_true present]
      rfl
    · have noKey : col.isKey = false := decide_eq_false flagged
      rw [if_neg flagged, noKey]
      exact ih fun c member => full c (List.mem_cons_of_mem col member)

theorem keyOf_total (jsoncpp : JsonCpp) (pairs : List (Bytes × Bytes)) (name : Bytes) :
    ∃ text, keyOf jsoncpp (rowJson pairs) name = .ok (name, text) := by
  obtain ⟨value, found⟩ := rowJson_index pairs name
  exact ⟨jsoncpp.writeString value, by rw [keyOf, found]; rfl⟩

theorem fallbackKey_total (jsoncpp : JsonCpp) (pairs : List (Bytes × Bytes))
    (cols : List Column) : ∃ key, fallbackKey jsoncpp (rowJson pairs) cols = .ok key := by
  cases cols with
  | nil => exact ⟨([], []), rfl⟩
  | cons col cols =>
    obtain ⟨text, key⟩ := keyOf_total jsoncpp pairs col.name
    rw [fallbackKey, rowJson_isMember]
    by_cases member : col.name ∈ pairs.map Prod.fst
    · rw [decide_eq_true member]
      exact ⟨(col.name, text), key⟩
    · rw [decide_eq_false member]
      exact ⟨([], []), rfl⟩

theorem extractKey_total (jsoncpp : JsonCpp) (pairs : List (Bytes × Bytes)) (cols : List Column) :
    ∃ key, extractKey jsoncpp (rowJson pairs) cols = .ok key := by
  obtain ⟨first, found⟩ := firstKey_total pairs cols
  rw [extractKey, found]
  cases first with
  | some name =>
    obtain ⟨text, key⟩ := keyOf_total jsoncpp pairs name
    exact ⟨(name, text), key⟩
  | none => exact fallbackKey_total jsoncpp pairs cols

/-- In a row that has every column the chosen column is the key. -/
theorem extractKey_keyOf (jsoncpp : JsonCpp) {pairs : List (Bytes × Bytes)} {cols : List Column}
    (full : ∀ col ∈ cols, col.name ∈ pairs.map Prod.fst) {primary : Column}
    (chosen : primaryColumn cols = some primary) :
    extractKey jsoncpp (rowJson pairs) cols = keyOf jsoncpp (rowJson pairs) primary.name := by
  rw [extractKey, firstKey_full full]
  cases flagged : cols.find? Column.isKey with
  | some col =>
    rw [primaryColumn, flagged, Option.some_or] at chosen
    cases chosen
    rfl
  | none =>
    rw [primaryColumn, flagged, Option.none_or] at chosen
    cases cols with
    | nil => cases chosen
    | cons col cols =>
      cases chosen
      have present := decide_eq_true (full primary List.mem_cons_self)
      have fallback : fallbackKey jsoncpp (rowJson pairs) (primary :: cols) =
          keyOf jsoncpp (rowJson pairs) primary.name := by
        rw [fallbackKey, rowJson_isMember, present]
        rfl
      exact fallback

theorem extractKey_full (jsoncpp : JsonCpp) {pairs : List (Bytes × Bytes)} {cols : List Column}
    (full : ∀ col ∈ cols, col.name ∈ pairs.map Prod.fst) {primary : Column}
    (chosen : primaryColumn cols = some primary) :
    ∃ text, extractKey jsoncpp (rowJson pairs) cols = .ok (primary.name, text) := by
  obtain ⟨text, key⟩ := keyOf_total jsoncpp pairs primary.name
  exact ⟨text, (extractKey_keyOf jsoncpp full chosen).trans key⟩

/-! ## Events -/

/-- The members of `eventHeader`, by name. -/
def headerMembers (op : Bytes) (relation : RelationMessage) (now : UInt64) :
    List (Bytes × Json) :=
  [(str "op", .string op),
    (str "schema", .string relation.getRelationNamespace),
    (str "table", .string relation.getRelationName),
    (str "timestamp", .int now.toInt64.toInt)]

theorem eventHeader_eq (op : Bytes) (relation : RelationMessage) (now : UInt64) :
    eventHeader op relation now = .ok (.object (headerMembers op relation now)) := rfl

section RowEvent

variable (op field : Bytes) (jsoncpp : JsonCpp) (relation : RelationMessage) (now : UInt64)

/-- A row event carries the row under its field and the chosen column under `"primary"`. -/
theorem rowEvent_ok {tuple : List Bytes} (fits : tuple.length ≤ relation.columns.length) :
    ∃ primary text,
      extractKey jsoncpp (rowJson (rowPairs relation.columns tuple)) relation.columns =
        .ok (primary, text) ∧
      rowEvent op field jsoncpp relation now tuple =
        .ok (.object (Json.insertMember (str "primary") (.string primary)
          (Json.insertMember field (rowJson (rowPairs relation.columns tuple))
            (headerMembers op relation now))), text) := by
  obtain ⟨⟨primary, text⟩, key⟩ :=
    extractKey_total jsoncpp (rowPairs relation.columns tuple) relation.columns
  refine ⟨primary, text, key, ?_⟩
  rw [rowEvent, eventHeader_eq, fillRow_null, if_pos fits]
  simp only [bind, Except.bind, Json.set, key]
  rfl

/-- More values than columns: `cols[i]` is read past its end. -/
theorem rowEvent_long {tuple : List Bytes} (long : relation.columns.length < tuple.length) :
    rowEvent op field jsoncpp relation now tuple = .error (.undefined .pastTheEnd) := by
  rw [rowEvent, eventHeader_eq, fillRow_null, if_neg (Nat.not_le_of_lt long)]
  rfl

end RowEvent

section UpdateEvent

variable (jsoncpp : JsonCpp) (relation : RelationMessage) (now : UInt64)

/-- The members of an update event before `"after"` is added. -/
def updateMembers (upd : UpdateMessage) : List (Bytes × Json) :=
  match upd.oldTuple with
  | [] => headerMembers (str "UPDATE") relation now
  | oldCols =>
      Json.insertMember (str "before") (rowJson (rowPairs relation.columns oldCols))
        (headerMembers (str "UPDATE") relation now)

theorem setBefore_header (upd : UpdateMessage) :
    setBefore relation upd (.object (headerMembers (str "UPDATE") relation now)) =
      if upd.oldTuple.length ≤ relation.columns.length then
        .ok (.object (updateMembers relation now upd))
      else .error (.undefined .pastTheEnd) := by
  unfold setBefore updateMembers
  split
  next noOld => rw [noOld]; rfl
  next oldCols _ =>
    rw [fillRow_null]
    split <;> rfl

theorem updateEvent_ok {upd : UpdateMessage}
    (oldFits : upd.oldTuple.length ≤ relation.columns.length)
    (newFits : upd.newTuple.length ≤ relation.columns.length) :
    ∃ primary text,
      extractKey jsoncpp (rowJson (rowPairs relation.columns upd.newTuple)) relation.columns =
        .ok (primary, text) ∧
      updateEvent jsoncpp relation now upd =
        .ok (.object (Json.insertMember (str "primary") (.string primary)
          (Json.insertMember (str "after") (rowJson (rowPairs relation.columns upd.newTuple))
            (updateMembers relation now upd))), text) := by
  obtain ⟨⟨primary, text⟩, key⟩ :=
    extractKey_total jsoncpp (rowPairs relation.columns upd.newTuple) relation.columns
  refine ⟨primary, text, key, ?_⟩
  rw [updateEvent, eventHeader_eq, fillRow_null, if_pos newFits]
  simp only [bind, Except.bind, setBefore_header, if_pos oldFits, Json.set, key]
  rfl

theorem updateEvent_long {upd : UpdateMessage}
    (long : relation.columns.length < upd.oldTuple.length ∨
      relation.columns.length < upd.newTuple.length) :
    updateEvent jsoncpp relation now upd = .error (.undefined .pastTheEnd) := by
  rw [updateEvent, eventHeader_eq, fillRow_null]
  simp only [bind, Except.bind, setBefore_header]
  by_cases oldFits : upd.oldTuple.length ≤ relation.columns.length
  · have newLong := long.resolve_left (Nat.not_lt_of_le oldFits)
    rw [if_pos oldFits, if_neg (Nat.not_le_of_lt newLong)]
  · rw [if_neg oldFits]

end UpdateEvent

/-- One entry of `"tables"`. -/
def tableJson (relation : RelationMessage) : Json :=
  .object [(str "schema", .string relation.getRelationNamespace),
    (str "table", .string relation.getRelationName)]

theorem truncateTables_eq (cache : RelationCache) (oids : List UInt32) (tables : List Json) :
    truncateTables cache oids (.array tables) =
      .ok (.array (tables ++ (oids.filterMap cache).map tableJson)) := by
  induction oids generalizing tables with
  | nil => rw [List.filterMap_nil, List.map_nil, List.append_nil, truncateTables]
  | cons oid oids ih =>
    rw [truncateTables, getCachedRelation]
    cases cached : cache oid with
    | none => rw [List.filterMap_cons_none cached]; exact ih tables
    | some relation =>
      rw [List.filterMap_cons_some cached, List.map_cons, List.append_cons]
      exact ih (tables ++ [tableJson relation])

/-- The members every truncate event has. -/
def truncateMembers (cache : RelationCache) (now : UInt64) (trunc : TruncateMessage) :
    List (Bytes × Json) :=
  [(str "op", .string (str "TRUNCATE")),
    (str "tables", .array ((trunc.relationIds.filterMap cache).map tableJson)),
    (str "timestamp", .int now.toInt64.toInt)]

/-- A truncate event has these members and perhaps `"options"`. -/
theorem truncateEvent_ok (cache : RelationCache) (now : UInt64) (trunc : TruncateMessage) :
    ∃ members, truncateEvent cache now trunc = .ok (.object members) ∧
      ∀ name ≠ str "options",
        members.lookup name = (truncateMembers cache now trunc).lookup name := by
  unfold truncateEvent
  rw [truncateTables_eq, List.nil_append]
  cases cascade : trunc.hasCascade <;> cases restart : trunc.hasRestartIdentity
  · exact ⟨_, rfl, fun name _ => rfl⟩
  all_goals
    refine ⟨Json.insertMember (str "options") _ (truncateMembers cache now trunc), rfl, ?_⟩
    intro name other
    rw [Json.lookup_insertMember, if_neg other]

end KafkaReplication
