import KafkaReplication.Producer.Events
import KafkaReplication.Producer.Protocol

/-!
# Row contents in events

What an Insert event keeps of the TupleData it comes from. `parseTuple` turns a NULL and an
unchanged TOAST value into the texts "NULL" and "TOAST", and from then on nothing tells them
from columns that hold these texts; everything else is kept.
-/

namespace KafkaReplication
open Misc PgOutputParser

/-- The row object in the `"data"` of the event that an Insert of the tuple makes: `parseTuple`
on the tuple's bytes, then the event of `handleInsert`. -/
def insertedRow (jsoncpp : JsonCpp) (relation : RelationMessage) (now : UInt64)
    (tuple : TupleData) : Except Fault Json := do
  let newTuple ← (parseTupleColumns tuple.toByteVec).result 0
  let event ← insertEvent jsoncpp relation now ⟨relation.relationId, chr 'N', newTuple⟩
  event.1.index (str "data")

/-- Columns that decode to one text: the same column, a NULL and the text "NULL", or an
unchanged TOAST value and the text "TOAST". -/
inductive LooksAlike : TupleColumn → TupleColumn → Prop where
  | same (column : TupleColumn) : LooksAlike column column
  | nullText {value : { bytes : Bytes // bytes.length < 2 ^ 32 }}
      (spelt : value.val = str "NULL") : LooksAlike .null (.text value)
  | textNull {value : { bytes : Bytes // bytes.length < 2 ^ 32 }}
      (spelt : value.val = str "NULL") : LooksAlike (.text value) .null
  | toastText {value : { bytes : Bytes // bytes.length < 2 ^ 32 }}
      (spelt : value.val = str "TOAST") : LooksAlike .toast (.text value)
  | textToast {value : { bytes : Bytes // bytes.length < 2 ^ 32 }}
      (spelt : value.val = str "TOAST") : LooksAlike (.text value) .toast

theorem looksAlike_iff (a b : TupleColumn) : LooksAlike a b ↔ a.value = b.value := by
  have different : str "NULL" ≠ str "TOAST" := by decide
  constructor
  · intro alike
    cases alike with
    | same _ => rfl
    | nullText spelt => exact spelt.symm
    | textNull spelt => exact spelt
    | toastText spelt => exact spelt.symm
    | textToast spelt => exact spelt
  · intro same
    cases a with
    | null =>
      cases b with
      | null => exact .same _
      | toast => exact absurd same different
      | text value => exact .nullText same.symm
    | toast =>
      cases b with
      | null => exact absurd same.symm different
      | toast => exact .same _
      | text value => exact .toastText same.symm
    | text value =>
      cases b with
      | null => exact .textNull same
      | toast => exact .textToast same
      | text other =>
        have equal : value = other := Subtype.ext same
        rw [equal]
        exact .same _

theorem looksAlike_columns_iff (as bs : List TupleColumn) :
    List.Forall₂ LooksAlike as bs ↔ as.map TupleColumn.value = bs.map TupleColumn.value := by
  induction as generalizing bs with
  | nil => cases bs <;> simp
  | cons a as ih =>
    cases bs with
    | nil => simp
    | cons b bs => simp [looksAlike_iff, ih]

theorem mem_rowPairs {cols : List Column} {values : List Bytes} {i : Nat}
    (inCols : i < cols.length) (inside : i < values.length) :
    (cols[i].name, values[i]) ∈ rowPairs cols values := by
  rw [rowPairs, List.mem_iff_getElem]
  exact ⟨i, by simp [inCols, inside], by simp⟩

/-- Under distinct names a full row determines its values. -/
theorem rowJson_inj {cols : List Column} (distinct : (cols.map Column.name).Nodup)
    {values others : List Bytes} (full : values.length = cols.length)
    (full' : others.length = cols.length)
    (same : rowJson (rowPairs cols values) = rowJson (rowPairs cols others)) :
    values = others := by
  have names {row : List Bytes} (full : row.length = cols.length) :
      (rowPairs cols row).map Prod.fst = cols.map Column.name := by
    rw [rowPairs, List.map_fst_zip]
    simp [full]
  apply List.ext_getElem (full.trans full'.symm)
  intro i inside inside'
  have inCols : i < cols.length := full ▸ inside
  have found := rowJson_find (names full ▸ distinct) (mem_rowPairs inCols inside)
  have found' := rowJson_find (names full' ▸ distinct) (mem_rowPairs inCols inside')
  rw [same, found'] at found
  have text := Option.some.inj (Except.ok.inj found)
  exact (Json.string.inj text).symm

section InsertedRow

variable (jsoncpp : JsonCpp) (relation : RelationMessage) (now : UInt64) (tuple : TupleData)

theorem insertedRow_eq (full : tuple.columns.length = relation.columns.length) :
    insertedRow jsoncpp relation now tuple =
      .ok (rowJson (rowPairs relation.columns tuple.values)) := by
  have at_ : At tuple.toByteVec 0 (tuple.encode ++ []) := by
    rw [List.append_nil]
    exact At.start tuple.toByteVec
  have parsed : (parseTupleColumns tuple.toByteVec).result 0 = .ok tuple.values := by
    rw [Reader.result, parseTupleColumns, parseTupleWith_encode [[]] tuple at_]
  have fits : tuple.values.length ≤ relation.columns.length := by
    rw [TupleData.values, List.length_map, full]
  obtain ⟨primary, text, _, event⟩ :=
    rowEvent_ok (str "INSERT") (str "data") jsoncpp relation now fits
  have primaryName : str "data" ≠ str "primary" := by decide
  rw [insertedRow, parsed]
  simp only [bind, Except.bind, insertEvent, event, Json.index, Json.get, Json.find,
    Json.lookup_insertMember, if_neg primaryName, if_pos, Except.map, Option.getD_some]

end InsertedRow

/-- Of two tuples of one relation the row objects of their Insert events tell which is which
just when the tuples do not look alike column by column. -/
theorem insertedRow_inj_iff (jsoncpp : JsonCpp) (relation : RelationMessage)
    (distinct : (relation.columns.map Column.name).Nodup) (now now' : UInt64)
    (a b : TupleData) (full : a.columns.length = relation.columns.length)
    (full' : b.columns.length = relation.columns.length) :
    (insertedRow jsoncpp relation now a = insertedRow jsoncpp relation now' b → a = b) ↔
      a = b ∨ ¬ List.Forall₂ LooksAlike a.columns b.columns := by
  have rows : insertedRow jsoncpp relation now a = insertedRow jsoncpp relation now' b ↔
      List.Forall₂ LooksAlike a.columns b.columns := by
    rw [looksAlike_columns_iff, insertedRow_eq _ _ _ _ full, insertedRow_eq _ _ _ _ full']
    constructor
    · intro same
      have same := Except.ok.inj same
      have sizes : a.values.length = relation.columns.length ∧
          b.values.length = relation.columns.length := by
        simp [TupleData.values, full, full']
      exact rowJson_inj distinct sizes.1 sizes.2 same
    · intro same
      rw [TupleData.values, same, TupleData.values]
  rw [rows]
  exact imp_iff_or_not

/-- A table with a key column and a text column. -/
def labelRelation : RelationMessage where
  relationId := 7
  nspname := str "public"
  relationName := str "labels"
  replicaIdentity := chr 'd'
  columns := [⟨1, str "id", 25, -1⟩, ⟨0, str "label", 25, -1⟩]

theorem labelId_lt : (str "1").length < 2 ^ 32 := by decide

/-- A row without a label, and one that is labelled "NULL". -/
def unlabelled : TupleData := ⟨[.text ⟨str "1", labelId_lt⟩, .null], by decide⟩

def labelledNull : TupleData :=
  ⟨[.text ⟨str "1", labelId_lt⟩, .text ⟨str "NULL", by decide⟩], by decide⟩

theorem insertedRow_inj_iff_labels :
    (insertedRow (JsonCpp.compact .null) labelRelation 0 unlabelled =
        insertedRow (JsonCpp.compact .null) labelRelation 0 labelledNull →
      unlabelled = labelledNull) ↔
      unlabelled = labelledNull ∨
        ¬ List.Forall₂ LooksAlike unlabelled.columns labelledNull.columns :=
  insertedRow_inj_iff (JsonCpp.compact .null) labelRelation (by decide) 0 0 unlabelled
    labelledNull rfl rfl

theorem insertedRow_labels_confused :
    ¬ (insertedRow (JsonCpp.compact .null) labelRelation 0 unlabelled =
        insertedRow (JsonCpp.compact .null) labelRelation 0 labelledNull →
      unlabelled = labelledNull) := by
  intro injective
  have different : unlabelled ≠ labelledNull := by decide
  exact different (injective rfl)

end KafkaReplication
