import KafkaReplication.Pipeline.EventTrip

/-!
# The key of an Update event

`handleUpdate` takes the name of the key column from the new row, and `updateRow` looks for
its value in `"before"`. An update that leaves the key alone comes without an old tuple, so
its event has no `"before"`; the `old_data` that would have been an empty one is shadowed.
-/

namespace KafkaReplication
open Misc ReplicationConsumer DatabaseWriter

/-! ## Relations with a key -/

/-- The relation has distinct column names and `key` as its only key column. -/
structure SingleKey (relation : RelationMessage) where
  key : Column
  only : relation.columns.filter Column.isKey = [key]
  distinct : (relation.columns.map Column.name).Nodup

/-- The value of the key column. -/
def FullTuple.keyValue {relation : RelationMessage} (tuple : FullTuple relation) : Bytes :=
  ((relation.columns.zip tuple.values).find? (·.1.isKey)).elim [] Prod.snd

namespace SingleKey

variable {relation : RelationMessage} (key : SingleKey relation)

theorem find_key : relation.columns.find? Column.isKey = some key.key := by
  rw [← List.head?_filter, key.only]
  rfl

theorem mem_columns : key.key ∈ relation.columns := List.mem_of_find?_eq_some key.find_key

theorem isKey : key.key.isKey = true := List.find?_some key.find_key

theorem eq_key {col : Column} (member : col ∈ relation.columns) (isKey : col.isKey = true) :
    col = key.key := by
  have filtered : col ∈ relation.columns.filter Column.isKey :=
    List.mem_filter.mpr ⟨member, isKey⟩
  rw [key.only] at filtered
  exact List.mem_singleton.mp filtered

/-- The key column has the key's value. -/
theorem entry_mem (tuple : FullTuple relation) :
    (key.key, tuple.keyValue) ∈ tuple.entries := by
  have there : key.key ∈ tuple.entries.map Prod.fst := by
    rw [tuple.entries_columns]
    exact key.mem_columns
  obtain ⟨entry, member, same⟩ := List.mem_map.mp there
  cases found : tuple.entries.find? (·.1.isKey) with
  | none =>
    have notKey := List.find?_eq_none.mp found entry member
    rw [same] at notKey
    exact absurd key.isKey notKey
  | some first =>
    have firstMember := List.mem_of_find?_eq_some found
    have flagged : first.1.isKey = true := by
      have := List.find?_some found
      exact this
    have value : tuple.keyValue = first.2 := by
      rw [FullTuple.keyValue]
      show (tuple.entries.find? _).elim [] Prod.snd = _
      rw [found]
      rfl
    have column : first.1 = key.key := key.eq_key (List.of_mem_zip firstMember).1 flagged
    rw [value, ← column]
    exact firstMember

theorem rowJson_find (tuple : FullTuple relation) :
    (rowJson tuple.pairs).find key.key.name = .ok (some (.string tuple.keyValue)) :=
  tuple.rowJson_find key.distinct (key.entry_mem tuple)

/-- The key is what `extractKey` finds in a full row, with its value as JSON text. -/
theorem extractKey_eq (jsoncpp : JsonCpp) (tuple : FullTuple relation) :
    extractKey jsoncpp (rowJson tuple.pairs) relation.columns =
      .ok (key.key.name, jsoncpp.writeString (.string tuple.keyValue)) := by
  have chosen : primaryColumn relation.columns = some key.key := by
    rw [primaryColumn, key.find_key, Option.some_or]
  rw [extractKey_keyOf jsoncpp (fun col member => tuple.name_mem member) chosen, keyOf,
    Json.index, Json.get, key.rowJson_find tuple]
  rfl

end SingleKey

/-! ## Updates -/

/-- An update of a row: the old row if the message has it, and the new one. -/
structure RowUpdate (relation : RelationMessage) where
  old : Option (FullTuple relation)
  new : FullTuple relation

namespace RowUpdate

variable {relation : RelationMessage} (upd : RowUpdate relation)

def message : UpdateMessage where
  relationId := relation.relationId
  oldTuple := upd.old.elim [] FullTuple.values
  newTuple := upd.new.values

/-- The row as it was, as far as its key is concerned: a message without an old tuple is sent
when the key has not changed. -/
def rowBefore : FullTuple relation := upd.old.getD upd.new

theorem oldTuple_le : upd.message.oldTuple.length ≤ relation.columns.length := by
  rw [message]
  cases upd.old with
  | none => exact Nat.zero_le _
  | some old => exact Nat.le_of_eq old.full

end RowUpdate

/-- The column and the literal that `updateRow` compares in its WHERE clause, after the event
of `handleUpdate` has come through Kafka and `saveIntoQueue`. -/
def updateKey (jsoncpp : JsonCpp) (relation : RelationMessage) (now : UInt64)
    (upd : UpdateMessage) : Except Fault (Option (Bytes × Bytes)) := do
  let event ← updateEvent jsoncpp relation now upd
  let pushed ← trip jsoncpp event.1
  match pushed with
  | some msg => (rowKey msg.before msg.primaryKey).map some
  | none => return none

section UpdateKey

variable {relation : RelationMessage} (now : UInt64) (upd : RowUpdate relation)

/-- The `"before"` of the event: the old row, or nothing. -/
theorem rowJson_oldTuple :
    rowJson (rowPairs relation.columns upd.message.oldTuple) =
      upd.old.elim .null fun old => rowJson old.pairs := by
  rw [RowUpdate.message]
  cases upd.old with
  | none =>
    rw [Option.elim_none, rowPairs, List.zip_nil_right]
    rfl
  | some tuple => rfl

variable (key : SingleKey relation) (jsoncpp : JsonCpp)

theorem updateKey_eq
    (roundTrips : ∀ event text, updateEvent jsoncpp relation now upd.message = .ok (event, text) →
      jsoncpp.RoundTrips event) :
    updateKey jsoncpp relation now upd.message =
      (rowKey (upd.old.elim .null fun old => rowJson old.pairs) key.key.name).map some := by
  have newFits : upd.message.newTuple.length ≤ relation.columns.length :=
    Nat.le_of_eq upd.new.full
  obtain ⟨primary, text, extracted, event⟩ :=
    updateEvent_ok jsoncpp relation now upd.oldTuple_le newFits
  have extracted' := key.extractKey_eq jsoncpp upd.new
  have primaryName : primary = key.key.name := by
    have same := extracted.symm.trans extracted'
    exact congrArg Prod.fst (Except.ok.inj same)
  subst primaryName
  have trips := trip_eq (roundTrips _ _ event)
  rw [messageCallback_updateEvent, rowJson_oldTuple] at trips
  rw [updateKey, event]
  simp only [bind, Except.bind, trips, Except.map]

/-- The WHERE clause compares the key column with the value that the row had before, just when
the message came with an old tuple, or that value is the empty text and the column can be
named. -/
theorem updateKey_iff
    (roundTrips : ∀ event text, updateEvent jsoncpp relation now upd.message = .ok (event, text) →
      jsoncpp.RoundTrips event) :
    updateKey jsoncpp relation now upd.message =
        .ok (some (key.key.name, keyLiteral upd.rowBefore.keyValue)) ↔
      upd.old.isSome ∨ (upd.rowBefore.keyValue = [] ∧ key.key.name ≠ []) := by
  rw [updateKey_eq now upd key jsoncpp roundTrips]
  cases old : upd.old with
  | some tuple =>
    have before : upd.rowBefore = tuple := by rw [RowUpdate.rowBefore, old]; rfl
    rw [Option.elim_some, rowKey_rowJson (tuple.name_mem key.mem_columns) (key.rowJson_find tuple),
      before]
    simp [Except.map]
  | none =>
    rw [Option.elim_none, rowKey_null]
    by_cases unnamed : key.key.name = []
    · simp [unnamed, Except.map]
    · rw [if_neg unnamed]
      simp only [Except.map, Except.ok.injEq, Option.some.injEq, Prod.mk.injEq, true_and,
        keyLiteral_inj, Option.isSome_none, Bool.false_eq_true, false_or, ne_eq, unnamed,
        not_false_eq_true, and_true]
      exact ⟨Eq.symm, Eq.symm⟩

end UpdateKey

/-! ## An update that leaves the key alone -/

def accountRelation : RelationMessage where
  relationId := 7
  nspname := str "public"
  relationName := str "accounts"
  replicaIdentity := chr 'd'
  columns := [⟨1, str "id", 23, -1⟩, ⟨0, str "owner", 25, -1⟩]

def accountKey : SingleKey accountRelation where
  key := ⟨1, str "id", 23, -1⟩
  only := rfl
  distinct := by decide

/-- `UPDATE accounts SET owner = 'ann' WHERE id = 1`. -/
def ownerUpdate : RowUpdate accountRelation where
  old := none
  new := ⟨[str "1", str "ann"], rfl⟩

def ownerEvent : Json := .object
  [(str "after", .object [(str "id", .string (str "1")), (str "owner", .string (str "ann"))]),
    (str "op", .string (str "UPDATE")), (str "primary", .string (str "id")),
    (str "schema", .string (str "accounts")), (str "table", .string (str "accounts")),
    (str "timestamp", .int 0)]

theorem updateKey_iff_owner :
    updateKey (JsonCpp.compact ownerEvent) accountRelation 0 ownerUpdate.message =
        .ok (some (str "id", keyLiteral (str "1"))) ↔
      ownerUpdate.old.isSome ∨ (str "1" = [] ∧ str "id" ≠ []) := by
  apply updateKey_iff 0 ownerUpdate accountKey (JsonCpp.compact ownerEvent)
  intro event text built
  have owner : updateEvent (JsonCpp.compact ownerEvent) accountRelation 0 ownerUpdate.message =
      .ok (ownerEvent, str "\"1\"") := rfl
  rw [owner] at built
  cases built
  exact JsonCpp.compact_roundTrips ownerEvent

/-- The consumer looks for the account whose id is the empty text. -/
theorem updateKey_owner_lost :
    updateKey (JsonCpp.compact ownerEvent) accountRelation 0 ownerUpdate.message ≠
      .ok (some (str "id", keyLiteral ownerUpdate.rowBefore.keyValue)) := by
  have found : updateKey (JsonCpp.compact ownerEvent) accountRelation 0 ownerUpdate.message =
      .ok (some (str "id", keyLiteral [])) := rfl
  have key : ownerUpdate.rowBefore.keyValue = str "1" := rfl
  rw [found, key]
  decide

end KafkaReplication
