import KafkaReplication.Producer.PgOutputParser
import KafkaReplication.Producer.Protocol

/-!
# Decoding messages

`BeginMessage::parse`, `CommitMessage::parse`, `RelationMessage::parse`, `InsertMessage::parse`
and `DeleteMessage::parse` (`producer_azs/replication_message.cpp:14-100,119-192,211-235`) undo
the documented encoding, whatever follows the message. The decoders are followed field by field
with `At`; the column loops are by induction on the documented columns.
-/

namespace KafkaReplication
open Misc PgOutputParser

section Fields

variable {data : ByteVec} {offset : Nat} {rest : Bytes}

/-- An Int32 field is read as the word it was written from. -/
theorem readUint32_word (word : UInt32) (at_ : At data offset (beBytes 4 word.toNat ++ rest)) :
    readUint32 data offset = .ok word (offset + 4) := by
  have small := word.toNat_lt
  have same : UInt32.ofNat (beValue (beBytes 4 word.toNat)) = word := by
    rw [beValue_beBytes (by omega), UInt32.ofNat_toNat]
  rw [readUint32_append at_ (beBytes_length 4 _), same]

/-- And an Int64 field. -/
theorem readUint64_word (word : UInt64) (at_ : At data offset (beBytes 8 word.toNat ++ rest)) :
    readUint64 data offset = .ok word (offset + 8) := by
  have small := word.toNat_lt
  have halves := List.take_append_drop 4 (beBytes 8 word.toNat)
  have highLen : ((beBytes 8 word.toNat).take 4).length = 4 := by simp
  have lowLen : ((beBytes 8 word.toNat).drop 4).length = 4 := by simp
  have same : UInt64.ofNat (beValue (beBytes 8 word.toNat)) = word := by
    rw [beValue_beBytes (by omega), UInt64.ofNat_toNat]
  have read : readUint64 data offset = .ok (UInt64.ofNat (beValue
      ((beBytes 8 word.toNat).take 4 ++ (beBytes 8 word.toNat).drop 4))) (offset + 8) := by
    apply readUint64_append _ highLen lowLen
    · exact rest
    · rw [← List.append_assoc, halves]
      exact at_
  rw [read, halves, same]

theorem readString_encode {text : Bytes} (nulFree : 0 ∉ text)
    (at_ : At data offset (encodeString text ++ rest)) :
    readString data offset = .ok text (offset + (encodeString text).length) := by
  have size : (encodeString text).length = text.length + 1 := by simp [encodeString]
  rw [encodeString, List.append_assoc, List.singleton_append] at at_
  rw [readString_append nulFree at_, size]

end Fields

/-! ## Relation -/

namespace RelationMessage

variable {data : ByteVec} {offset : Nat} {rest : Bytes}

/-- One round of the loop reads one documented column. -/
theorem parseColumns_column {column : Column} (nulFree : 0 ∉ column.name) (n : Nat)
    (columns : List Column) (at_ : At data offset (column.encode ++ rest)) :
    RelationMessage.parseColumns data (n + 1) columns offset =
      RelationMessage.parseColumns data n (columns ++ [column])
        (offset + column.encode.length) := by
  rw [Column.encode, List.cons_append, List.append_assoc, List.append_assoc] at at_
  have atName := at_.advance_cons
  have atType := atName.advance
  have atModifier := atType.advance
  rw [beBytes_length] at atModifier
  have size : column.encode.length = 1 + (encodeString column.name).length + 4 + 4 := by
    simp only [Column.encode, List.length_cons, List.length_append, beBytes_length]
    omega
  rw [RelationMessage.parseColumns, bind_ok (readUint8_cons at_),
    bind_ok (readString_encode nulFree atName), bind_ok (readUint32_word _ atType),
    bind_ok (readUint32_word _ atModifier), size]
  simp only [Nat.add_assoc]
  rfl

theorem parseColumns_encode {columns : List Column}
    (nulFree : ∀ column ∈ columns, 0 ∉ column.name) (front : List Column)
    (at_ : At data offset (encodeColumns columns ++ rest)) :
    RelationMessage.parseColumns data columns.length front offset =
      .ok (front ++ columns) (offset + (encodeColumns columns).length) := by
  induction columns generalizing front offset with
  | nil =>
    rw [List.append_nil]
    rfl
  | cons column columns ih =>
    have cons : encodeColumns (column :: columns) = column.encode ++ encodeColumns columns := rfl
    rw [cons, List.append_assoc] at at_
    rw [List.length_cons, parseColumns_column (nulFree column List.mem_cons_self) _ _ at_,
      ih (fun c mem => nulFree c (List.mem_cons_of_mem column mem)) _ at_.advance, cons]
    simp only [List.append_assoc, List.singleton_append, List.length_append, Nat.add_assoc]

theorem parse_at {relation : RelationMessage} (documented : relation.Documented)
    (start : At data offset (relation.encodeBody ++ rest)) :
    RelationMessage.parse data offset = .ok relation (offset + relation.encodeBody.length) := by
  rw [encodeBody, List.append_assoc, List.append_assoc, List.append_assoc,
    List.cons_append, List.append_assoc] at start
  have atNspname := start.advance
  rw [beBytes_length] at atNspname
  have atName := atNspname.advance
  have atIdentity := atName.advance
  have atCount := atIdentity.advance_cons
  have atColumns := atCount.advance
  rw [beBytes_length] at atColumns
  have count := toNat_beBytes16 documented.count_lt
  have size : offset + relation.encodeBody.length =
      offset + 4 + (encodeString relation.nspname).length +
        (encodeString relation.relationName).length + 1 + 2 +
          (encodeColumns relation.columns).length := by
    simp only [encodeBody, List.length_cons, List.length_append, beBytes_length]
    omega
  rw [RelationMessage.parse, bind_ok (readUint32_word _ start),
    bind_ok (readString_encode documented.nspname_nulFree atNspname),
    bind_ok (readString_encode documented.relationName_nulFree atName),
    bind_ok atIdentity.peek_cons, bind_ok (advance_at atIdentity (by omega)),
    bind_ok (readUint16_append atCount (beBytes_length 2 _)), count,
    bind_ok (parseColumns_encode documented.names_nulFree [] atColumns), size, List.nil_append]
  rfl

/-- Every documented Relation message is decoded to its fields, whatever follows it. -/
theorem parse_encodeBody (relation : RelationMessage) (documented : relation.Documented)
    (data : ByteVec) (trailing : Bytes) (bytes : data.bytes = relation.encodeBody ++ trailing) :
    RelationMessage.parse data 0 = .ok relation relation.encodeBody.length := by
  have start := At.start data
  rw [bytes] at start
  rw [parse_at documented start, Nat.zero_add]

/-- A table with a key, and bytes behind its message that look like another column. -/
theorem parse_encodeBody_keyed :
    RelationMessage.parse
        ⟨(⟨16384, str "public", str "customers", chr 'd', [⟨1, str "id", 20, -1⟩]⟩ :
          RelationMessage).encodeBody ++ [1, 105, 0], by decide⟩ 0 =
      .ok ⟨16384, str "public", str "customers", chr 'd', [⟨1, str "id", 20, -1⟩]⟩ 36 :=
  parse_encodeBody ⟨16384, str "public", str "customers", chr 'd', [⟨1, str "id", 20, -1⟩]⟩
    ⟨by decide, by decide, by decide, by decide⟩ _ [1, 105, 0] rfl

end RelationMessage

/-! ## Begin and Commit -/

section Transactions

variable {data : ByteVec} {rest : Bytes}

/-- The transaction id keeps the order of its bytes. -/
theorem BeginMessage.parse_encode (finalLsn commitTimestamp : UInt64) (xid : UInt32)
    (start : At data 0 (beBytes 8 finalLsn.toNat ++ (beBytes 8 commitTimestamp.toNat ++
      (beBytes 4 xid.toNat ++ rest)))) :
    BeginMessage.parse data 0 =
      .ok ⟨finalLsn, commitTimestamp, UInt32.ofNat (leValue (beBytes 4 xid.toNat))⟩ 16 := by
  have atTimestamp := start.advance
  rw [beBytes_length] at atTimestamp
  have atXid := atTimestamp.advance
  rw [beBytes_length] at atXid
  rw [BeginMessage.parse, bind_ok (readUint64_word _ start),
    bind_ok (readUint64_word _ atTimestamp), bind_ok (load32_append atXid (beBytes_length 4 _))]
  rfl

theorem CommitMessage.parse_encode (flags : UInt8) (commitLsn endLsn commitTimestamp : UInt64)
    (start : At data 0 (flags :: (beBytes 8 commitLsn.toNat ++ (beBytes 8 endLsn.toNat ++
      (beBytes 8 commitTimestamp.toNat ++ rest))))) :
    CommitMessage.parse data 0 = .ok ⟨flags, commitLsn, endLsn, commitTimestamp⟩ 25 := by
  have atLsn := start.advance_cons
  have atEnd := atLsn.advance
  rw [beBytes_length] at atEnd
  have atTimestamp := atEnd.advance
  rw [beBytes_length] at atTimestamp
  rw [CommitMessage.parse, bind_ok start.peek_cons, bind_ok (advance_at start (by omega)),
    bind_ok (readUint64_word _ atLsn), bind_ok (readUint64_word _ atEnd),
    bind_ok (readUint64_word _ atTimestamp)]
  rfl

end Transactions

/-! ## Insert and Delete -/

section Rows

variable {data : ByteVec} {offset : Nat} {rest : Bytes}

theorem InsertMessage.parse_encode (cache : RelationCache) (relationId : UInt32)
    (newTuple : TupleData)
    (start : At data 0 (beBytes 4 relationId.toNat ++ chr 'N' :: (newTuple.encode ++ rest))) :
    InsertMessage.parse cache data 0 =
      .ok ⟨relationId, chr 'N', newTuple.values⟩ (5 + newTuple.encode.length) := by
  have atMarker := start.advance
  rw [beBytes_length] at atMarker
  have atTuple := atMarker.advance_cons
  rw [InsertMessage.parse, bind_ok (readUint32_word _ start), bind_ok (readUint8_cons atMarker),
    bind_ok (parseRow_encode cache relationId newTuple atTuple)]
  rfl

theorem DeleteMessage.parse_encode (cache : RelationCache) (relationId : UInt32)
    (marker : UInt8) (oldTuple : TupleData)
    (start : At data 0 (beBytes 4 relationId.toNat ++ marker :: (oldTuple.encode ++ rest))) :
    DeleteMessage.parse cache data 0 =
      .ok ⟨relationId, oldTuple.values⟩ (5 + oldTuple.encode.length) := by
  have atMarker := start.advance
  rw [beBytes_length] at atMarker
  have atTuple := atMarker.advance_cons
  rw [DeleteMessage.parse, bind_ok (readUint32_word _ start), bind_ok (readUint8_cons atMarker),
    bind_ok (parseRow_encode cache relationId oldTuple atTuple)]
  rfl

end Rows

/-- What `parseMessage` makes of the body behind the type byte. -/
theorem parseMessage_cons {offset0 : Nat} {cache : RelationCache} {rawMessage : ByteVec}
    {msgType : UInt8} {body : Bytes} {message : ReplicationMessage}
    (bytes : rawMessage.bytes = msgType :: body)
    (parsed : parseBody offset0 cache msgType (rawMessage.dropFront 1) = .ok (some message)) :
    parseMessage offset0 rawMessage cache = .ok (some message) (cacheRelation message cache) := by
  simp only [parseMessage, bytes, parsed]

/-- The vector that `parse` gets starts behind the type byte. -/
theorem At.start_dropFront {rawMessage : ByteVec} {msgType : UInt8} {body : Bytes}
    (bytes : rawMessage.bytes = msgType :: body) : At (rawMessage.dropFront 1) 0 body := by
  have start := At.start (rawMessage.dropFront 1)
  rwa [ByteVec.dropFront_bytes, bytes, List.drop_succ_cons, List.drop_zero] at start

theorem parseMessage_begin (offset0 : Nat) (cache : RelationCache)
    (finalLsn commitTimestamp : UInt64) (xid : UInt32) (rawMessage : ByteVec) (trailing : Bytes)
    (bytes : rawMessage.bytes = encodeBegin finalLsn commitTimestamp xid ++ trailing) :
    parseMessage offset0 rawMessage cache =
      .ok (some (.begin ⟨finalLsn, commitTimestamp,
        UInt32.ofNat (leValue (beBytes 4 xid.toNat))⟩)) cache := by
  rw [encodeBegin, List.cons_append, List.append_assoc, List.append_assoc] at bytes
  have parsed := BeginMessage.parse_encode finalLsn commitTimestamp xid (At.start_dropFront bytes)
  have body : parseBody offset0 cache (chr 'B') (rawMessage.dropFront 1) =
      ((BeginMessage.parse (rawMessage.dropFront 1)).result 0).map (some ∘ .begin) := rfl
  rw [Reader.result, parsed] at body
  exact parseMessage_cons bytes body

theorem parseMessage_commit (offset0 : Nat) (cache : RelationCache) (flags : UInt8)
    (commitLsn endLsn commitTimestamp : UInt64) (rawMessage : ByteVec) (trailing : Bytes)
    (bytes : rawMessage.bytes =
      encodeCommit flags commitLsn endLsn commitTimestamp ++ trailing) :
    parseMessage offset0 rawMessage cache =
      .ok (some (.commit ⟨flags, commitLsn, endLsn, commitTimestamp⟩)) cache := by
  rw [encodeCommit, List.cons_append, List.cons_append, List.append_assoc,
    List.append_assoc] at bytes
  have parsed := CommitMessage.parse_encode flags commitLsn endLsn commitTimestamp
    (At.start_dropFront bytes)
  have body : parseBody offset0 cache (chr 'C') (rawMessage.dropFront 1) =
      ((CommitMessage.parse (rawMessage.dropFront 1)).result 0).map (some ∘ .commit) := rfl
  rw [Reader.result, parsed] at body
  exact parseMessage_cons bytes body

theorem parseMessage_relation (offset0 : Nat) (cache : RelationCache)
    {relation : RelationMessage} (documented : relation.Documented) (rawMessage : ByteVec)
    (trailing : Bytes) (bytes : rawMessage.bytes = relation.encode ++ trailing) :
    parseMessage offset0 rawMessage cache =
      .ok (some (.relation relation)) (cacheRelation (.relation relation) cache) := by
  rw [RelationMessage.encode, List.cons_append] at bytes
  have parsed := RelationMessage.parse_at documented (At.start_dropFront bytes)
  have body : parseBody offset0 cache (chr 'R') (rawMessage.dropFront 1) =
      ((RelationMessage.parse (rawMessage.dropFront 1)).result 0).map (some ∘ .relation) := rfl
  rw [Reader.result, parsed] at body
  exact parseMessage_cons bytes body

theorem parseMessage_insert (offset0 : Nat) (cache : RelationCache) (relationId : UInt32)
    (newTuple : TupleData) (rawMessage : ByteVec) (trailing : Bytes)
    (bytes : rawMessage.bytes = encodeInsert relationId newTuple ++ trailing) :
    parseMessage offset0 rawMessage cache =
      .ok (some (.insert ⟨relationId, chr 'N', newTuple.values⟩)) cache := by
  rw [encodeInsert, List.cons_append, List.append_assoc, List.cons_append] at bytes
  have parsed := InsertMessage.parse_encode cache relationId newTuple (At.start_dropFront bytes)
  have body : parseBody offset0 cache (chr 'I') (rawMessage.dropFront 1) =
      ((InsertMessage.parse cache (rawMessage.dropFront 1)).result 0).map (some ∘ .insert) := rfl
  rw [Reader.result, parsed] at body
  exact parseMessage_cons bytes body

theorem parseMessage_delete (offset0 : Nat) (cache : RelationCache) (relationId : UInt32)
    (part : DeletedPart) (oldTuple : TupleData) (rawMessage : ByteVec) (trailing : Bytes)
    (bytes : rawMessage.bytes = encodeDelete relationId part oldTuple ++ trailing) :
    parseMessage offset0 rawMessage cache =
      .ok (some (.delete ⟨relationId, oldTuple.values⟩)) cache := by
  rw [encodeDelete, List.cons_append, List.append_assoc, List.cons_append] at bytes
  have parsed := DeleteMessage.parse_encode cache relationId part.marker oldTuple
    (At.start_dropFront bytes)
  have body : parseBody offset0 cache (chr 'D') (rawMessage.dropFront 1) =
      ((DeleteMessage.parse cache (rawMessage.dropFront 1)).result 0).map (some ∘ .delete) := rfl
  rw [Reader.result, parsed] at body
  exact parseMessage_cons bytes body

/-- Documented Insert and Delete messages are decoded to their relation id and their columns
in order, whatever is cached and whatever follows them. -/
theorem parseMessage_rows (offset0 : Nat) (cache : RelationCache) (relationId : UInt32)
    (tuple : TupleData) (rawMessage : ByteVec) (trailing : Bytes) :
    (rawMessage.bytes = encodeInsert relationId tuple ++ trailing →
      parseMessage offset0 rawMessage cache =
        .ok (some (.insert ⟨relationId, chr 'N', tuple.columns.map TupleColumn.value⟩)) cache) ∧
    ∀ part : DeletedPart, rawMessage.bytes = encodeDelete relationId part tuple ++ trailing →
      parseMessage offset0 rawMessage cache =
        .ok (some (.delete ⟨relationId, tuple.columns.map TupleColumn.value⟩)) cache := by
  constructor
  · intro bytes
    exact parseMessage_insert offset0 cache relationId tuple rawMessage trailing bytes
  · intro part bytes
    exact parseMessage_delete offset0 cache relationId part tuple rawMessage trailing bytes

/-- An empty text and a text that starts like a column, with a relation cached that has no
columns. -/
theorem parseMessage_rows_texts :
    (parseMessage 0
        ⟨encodeInsert 7 ⟨[.text ⟨[], by decide⟩, .null, .text ⟨str "t", by decide⟩], by decide⟩ ++
          str "u", by decide⟩
        (fun _ => some ⟨7, [], str "t", chr 'd', []⟩) =
      .ok (some (.insert ⟨7, chr 'N', [[], str "NULL", str "t"]⟩))
        (fun _ => some ⟨7, [], str "t", chr 'd', []⟩)) ∧
    parseMessage 0
        ⟨encodeDelete 7 .key ⟨[.text ⟨str "n", by decide⟩, .toast], by decide⟩ ++ [], by decide⟩
        (fun _ => none) =
      .ok (some (.delete ⟨7, [str "n", str "TOAST"]⟩)) (fun _ => none) :=
  ⟨(parseMessage_rows 0 _ 7
      ⟨[.text ⟨[], by decide⟩, .null, .text ⟨str "t", by decide⟩], by decide⟩ _ (str "u")).1 rfl,
    (parseMessage_rows 0 _ 7 ⟨[.text ⟨str "n", by decide⟩, .toast], by decide⟩ _ []).2 .key rfl⟩

end KafkaReplication
