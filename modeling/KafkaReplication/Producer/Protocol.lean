import KafkaReplication.Producer.ReplicationMessage

/-!
# The documented message formats

The encoders that `producer_azs/readme` prescribes for the messages whose decoding is
compared with it: TupleData (`readme:413-447`), Begin (`readme:15-28`), Commit
(`readme:54-70`), Relation (`readme:86-123`), Insert (`readme:143-159`), Update
(`readme:161-188`), Delete (`readme:189-210`) and Truncate (`readme:212-228`). Replication is
started without streaming, so no message carries a transaction id in front. `TupleColumn.value`
is what a column is meant to decode to.
-/

namespace KafkaReplication
open Misc

/-- One column of TupleData. The length of a text is an Int32. -/
inductive TupleColumn where
  | null
  | toast
  | text (value : { bytes : Bytes // bytes.length < 2 ^ 32 })
  deriving DecidableEq, Repr

namespace TupleColumn

def encode : TupleColumn → Bytes
  | null => [chr 'n']
  | toast => [chr 'u']
  | text value => chr 't' :: (beBytes 4 value.val.length ++ value.val)

def value : TupleColumn → Bytes
  | null => str "NULL"
  | toast => str "TOAST"
  | text value => value.val

theorem encode_length_le (column : TupleColumn) : column.encode.length ≤ 5 + 2 ^ 32 := by
  cases column with
  | null => simp [encode]
  | toast => simp [encode]
  | text value =>
    have := value.property
    simp only [encode, List.length_cons, List.length_append, beBytes_length]
    omega

end TupleColumn

/-- TupleData; the number of columns is an Int16. -/
structure TupleData where
  columns : List TupleColumn
  count_lt : columns.length < 2 ^ 16
  deriving DecidableEq, Repr

/-- The columns of TupleData one after the other. -/
def encodeColumns (columns : List TupleColumn) : Bytes := columns.flatMap TupleColumn.encode

namespace TupleData

def encode (tuple : TupleData) : Bytes :=
  beBytes 2 tuple.columns.length ++ encodeColumns tuple.columns

def values (tuple : TupleData) : List Bytes := tuple.columns.map TupleColumn.value

end TupleData

@[simp] theorem encodeColumns_nil : encodeColumns [] = [] := rfl

@[simp] theorem encodeColumns_cons (column : TupleColumn) (columns : List TupleColumn) :
    encodeColumns (column :: columns) = column.encode ++ encodeColumns columns := rfl

theorem encodeColumns_append (front back : List TupleColumn) :
    encodeColumns (front ++ back) = encodeColumns front ++ encodeColumns back :=
  List.flatMap_append

theorem encodeColumns_length_le (columns : List TupleColumn) :
    (encodeColumns columns).length ≤ columns.length * (5 + 2 ^ 32) := by
  induction columns with
  | nil => simp
  | cons column columns ih =>
    have := column.encode_length_le
    rw [encodeColumns_cons, List.length_append, List.length_cons]
    omega

theorem TupleData.encode_length_lt (tuple : TupleData) : tuple.encode.length < 2 ^ 49 := by
  have columns := encodeColumns_length_le tuple.columns
  have count := tuple.count_lt
  simp only [encode, List.length_append, beBytes_length]
  omega

/-- TupleData alone, as a vector. -/
def TupleData.toByteVec (tuple : TupleData) : ByteVec :=
  ⟨tuple.encode, Nat.lt_trans tuple.encode_length_lt (by decide)⟩

/-! ## Begin and Commit -/

def encodeBegin (finalLsn commitTimestamp : UInt64) (xid : UInt32) : Bytes :=
  chr 'B' :: (beBytes 8 finalLsn.toNat ++ (beBytes 8 commitTimestamp.toNat ++
    beBytes 4 xid.toNat))

def encodeCommit (flags : UInt8) (commitLsn endLsn commitTimestamp : UInt64) : Bytes :=
  chr 'C' :: (flags :: (beBytes 8 commitLsn.toNat ++ (beBytes 8 endLsn.toNat ++
    beBytes 8 commitTimestamp.toNat)))

/-! ## Relation -/

/-- A text behind which a NUL is sent. -/
def encodeString (text : Bytes) : Bytes := text ++ [0]

def Column.encode (column : Column) : Bytes :=
  column.flags :: (encodeString column.name ++
    (beBytes 4 column.typeId.toNat ++ beBytes 4 column.typeModifier.toUInt32.toNat))

namespace RelationMessage

/-- What the Relation message can say: its texts end at a NUL, its column count is an Int16. -/
structure Documented (relation : RelationMessage) : Prop where
  nspname_nulFree : 0 ∉ relation.nspname
  relationName_nulFree : 0 ∉ relation.relationName
  names_nulFree : ∀ column ∈ relation.columns, 0 ∉ column.name
  count_lt : relation.columns.length < 2 ^ 16

def encodeColumns (columns : List Column) : Bytes := columns.flatMap Column.encode

/-- The Relation message behind its type byte. -/
def encodeBody (relation : RelationMessage) : Bytes :=
  beBytes 4 relation.relationId.toNat ++ (encodeString relation.nspname ++
    (encodeString relation.relationName ++ relation.replicaIdentity ::
      (beBytes 2 relation.columns.length ++ encodeColumns relation.columns)))

def encode (relation : RelationMessage) : Bytes := chr 'R' :: relation.encodeBody

end RelationMessage

/-! ## Insert and Delete -/

def encodeInsert (relationId : UInt32) (newTuple : TupleData) : Bytes :=
  chr 'I' :: (beBytes 4 relationId.toNat ++ chr 'N' :: newTuple.encode)

/-- What a Delete message carries: the key of the row, or the row as it was. -/
inductive DeletedPart where
  | key
  | old
  deriving DecidableEq, Repr

def DeletedPart.marker : DeletedPart → UInt8
  | key => chr 'K'
  | old => chr 'O'

def encodeDelete (relationId : UInt32) (part : DeletedPart) (oldTuple : TupleData) : Bytes :=
  chr 'D' :: (beBytes 4 relationId.toNat ++ part.marker :: oldTuple.encode)

/-! ## Update -/

/-- The optional first part of an Update message. -/
inductive OldPart where
  | none
  /-- `'K'`: the key of the row as it was. -/
  | key (tuple : TupleData)
  /-- `'O'`: the row as it was. -/
  | old (tuple : TupleData)
  deriving DecidableEq, Repr

namespace OldPart

def encode : OldPart → Bytes
  | none => []
  | key tuple => chr 'K' :: tuple.encode
  | old tuple => chr 'O' :: tuple.encode

def values : OldPart → List Bytes
  | none => []
  | key tuple | old tuple => tuple.values

theorem encode_length_lt (part : OldPart) : part.encode.length < 2 ^ 50 := by
  cases part with
  | none => simp [encode]
  | key tuple | old tuple =>
    have := tuple.encode_length_lt
    simp only [encode, List.length_cons]
    omega

end OldPart

/-- The Update message of a relation. -/
def encodeUpdate (relationId : UInt32) (oldPart : OldPart) (newTuple : TupleData) : ByteVec :=
  ⟨chr 'U' :: (beBytes 4 relationId.toNat ++ (oldPart.encode ++ chr 'N' :: newTuple.encode)), by
    have := oldPart.encode_length_lt
    have := newTuple.encode_length_lt
    simp only [List.length_cons, List.length_append, beBytes_length]
    omega⟩

/-! ## Truncate -/

def encodeOids (oids : List UInt32) : Bytes := oids.flatMap fun oid => beBytes 4 oid.toNat

theorem encodeOids_length (oids : List UInt32) : (encodeOids oids).length = 4 * oids.length := by
  induction oids with
  | nil => rfl
  | cons oid oids ih =>
    have cons : encodeOids (oid :: oids) = beBytes 4 oid.toNat ++ encodeOids oids := rfl
    rw [cons, List.length_append, ih, beBytes_length, List.length_cons]
    omega

/-- The Truncate message for a list of relations. -/
def encodeTruncate (options : UInt8) (oids : List UInt32) (count_lt : oids.length < 2 ^ 32) :
    ByteVec :=
  ⟨chr 'T' :: (beBytes 4 oids.length ++ options :: encodeOids oids), by
    have := encodeOids_length oids
    simp only [List.length_cons, List.length_append, beBytes_length]
    omega⟩

/-! ## Decoding TupleData -/

section Decoding

open PgOutputParser

variable {data : ByteVec} {offset : Nat} {rest : Bytes} (unknown : List Bytes)

theorem beValue_length {w : Nat} {bytes : Bytes} (small : bytes.length < 256 ^ w) :
    beValue (beBytes w bytes.length) = bytes.length :=
  beValue_beBytes small

/-- One documented column is read as its value, and the loop goes on behind it. -/
theorem parseColumns_column (column : TupleColumn) (n : Nat) (tuple : List Bytes)
    (at_ : At data offset (column.encode ++ rest)) :
    parseColumns unknown data (n + 1) tuple offset =
      parseColumns unknown data n (tuple ++ [column.value]) (offset + column.encode.length) := by
  cases column with
  | null =>
    rw [parseColumns, bind_ok (readUint8_cons at_)]
    rfl
  | toast =>
    rw [parseColumns, bind_ok (readUint8_cons at_)]
    rfl
  | text value =>
    have small := value.property
    have behind : At data (offset + 1)
        (beBytes 4 value.val.length ++ (value.val ++ rest)) := by
      simpa [TupleColumn.encode] using at_.advance_cons
    have read := readText_append (beBytes_length 4 value.val.length)
      (beValue_length (by omega)) behind
    have kind := readUint8_cons (b := chr 't') at_
    have notNull : chr 't' ≠ chr 'n' := by decide
    have notToast : chr 't' ≠ chr 'u' := by decide
    have size : offset + 1 + 4 + value.val.length =
        offset + (TupleColumn.text value).encode.length := by
      simp only [TupleColumn.encode, List.length_cons, List.length_append, beBytes_length]
      omega
    rw [parseColumns, bind_ok kind, if_neg notNull, if_neg notToast, if_pos rfl,
      bind_ok read, size]
    rfl

theorem parseColumns_columns (columns : List TupleColumn) (n : Nat) (tuple : List Bytes)
    (at_ : At data offset (encodeColumns columns ++ rest)) :
    parseColumns unknown data (columns.length + n) tuple offset =
      parseColumns unknown data n (tuple ++ columns.map TupleColumn.value)
        (offset + (encodeColumns columns).length) := by
  induction columns generalizing tuple offset with
  | nil => simp
  | cons column columns ih =>
    rw [encodeColumns_cons, List.append_assoc] at at_
    have count : (column :: columns).length + n = columns.length + n + 1 := by
      simp only [List.length_cons]
      omega
    rw [count, parseColumns_column unknown column _ tuple at_, ih _ at_.advance]
    simp only [encodeColumns_cons, List.length_append, List.map_cons, List.append_assoc,
      List.singleton_append, Nat.add_assoc]

/-- Both `parseTuple` overloads read documented TupleData as its values. -/
theorem parseTupleWith_encode (tuple : TupleData) (at_ : At data offset (tuple.encode ++ rest)) :
    parseTupleWith unknown data offset = .ok tuple.values (offset + tuple.encode.length) := by
  rw [TupleData.encode, List.append_assoc] at at_
  have behind := at_.advance
  rw [beBytes_length] at behind
  have count : (UInt16.ofNat (beValue (beBytes 2 tuple.columns.length))).toNat =
      tuple.columns.length + 0 := toNat_beBytes16 tuple.count_lt
  rw [parseTupleWith, bind_ok (readUint16_append at_ (beBytes_length _ _)), count,
    parseColumns_columns unknown tuple.columns 0 [] behind]
  simp only [TupleData.encode, TupleData.values, List.length_append, beBytes_length,
    List.nil_append, Nat.add_assoc]
  rfl

theorem parseRow_encode (cache : RelationCache) (relationId : UInt32) (tuple : TupleData)
    (at_ : At data offset (tuple.encode ++ rest)) :
    parseRow cache relationId data offset =
      .ok tuple.values (offset + tuple.encode.length) := by
  cases cached : cache relationId with
  | none => rw [parseRow_uncached cached, parseTupleWith_encode [] tuple at_]
  | some relation => rw [parseRow_cached cached, parseTupleWith_encode [[]] tuple at_]

end Decoding

end KafkaReplication
