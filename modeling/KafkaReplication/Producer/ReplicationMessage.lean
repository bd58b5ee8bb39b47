import KafkaReplication.Producer.Readers

/-!
# Logical replication messages

`producer_azs/replication_message.h` and the `parse` members of
`producer_azs/replication_message.cpp`. A `parse` starts at offset 0 of the body,
behind the type byte. Those of the row messages look their relation up in the
parser's cache.
-/

namespace KafkaReplication
open Misc PgOutputParser

/-- `ReplicationMessage::Column` (`replication_message.h:24-35`). -/
structure Column where
  flags : UInt8
  name : Bytes
  typeId : UInt32
  typeModifier : Int32
  deriving DecidableEq, Repr

structure BeginMessage where
  lsn : UInt64
  commitTimestamp : UInt64
  transactionId : UInt32
  deriving DecidableEq, Repr

structure RelationMessage where
  relationId : UInt32
  nspname : Bytes
  relationName : Bytes
  replicaIdentity : UInt8
  columns : List Column
  deriving DecidableEq, Repr

structure CommitMessage where
  flags : UInt8
  lsn : UInt64
  endLsn : UInt64
  commitTimestamp : UInt64
  deriving DecidableEq, Repr

structure InsertMessage where
  relationId : UInt32
  tupleType : UInt8
  newTuple : List Bytes
  deriving DecidableEq, Repr

structure DeleteMessage where
  relationId : UInt32
  oldTuple : List Bytes
  deriving DecidableEq, Repr

structure UpdateMessage where
  relationId : UInt32
  oldTuple : List Bytes
  newTuple : List Bytes
  deriving DecidableEq, Repr

structure TruncateMessage where
  transactionId : UInt32
  numberOfRelations : UInt32
  options : UInt8
  relationIds : List UInt32
  deriving DecidableEq, Repr

/-- The classes derived from `ReplicationMessage`. -/
inductive ReplicationMessage where
  | begin (msg : BeginMessage)
  | commit (msg : CommitMessage)
  | relation (msg : RelationMessage)
  | insert (msg : InsertMessage)
  | update (msg : UpdateMessage)
  | delete (msg : DeleteMessage)
  | truncate (msg : TruncateMessage)
  deriving DecidableEq, Repr

/-- `relation_cache_` (`pgoutput_parser.h:32`), a map from relation ids. -/
abbrev RelationCache := UInt32 → Option RelationMessage

namespace RelationMessage

/-- `getRelationName` (`replication_message.h:78-81`). -/
def getRelationName (relation : RelationMessage) : Bytes := relation.relationName

/-- `getRelationNamespace` (`replication_message.h:88-91`) returns the relation's name too. -/
def getRelationNamespace (relation : RelationMessage) : Bytes := relation.relationName

/-- The names of the table and of its columns have no NUL in them. -/
structure NulFree (relation : RelationMessage) : Prop where
  name : 0 ∉ relation.relationName
  columns : ∀ col ∈ relation.columns, 0 ∉ col.name

end RelationMessage

namespace TruncateMessage

/-- `hasCascade` (`replication_message.h:170`). -/
def hasCascade (trunc : TruncateMessage) : Bool := trunc.options &&& 0x01 ≠ 0

/-- `hasRestartIdentity` (`replication_message.h:171`). -/
def hasRestartIdentity (trunc : TruncateMessage) : Bool := trunc.options &&& 0x02 ≠ 0

end TruncateMessage

/-! ## The `parse` members -/

/-- `BeginMessage::parse` (`replication_message.cpp:14-39`): the transaction id is loaded
unchecked and left in host order. -/
def BeginMessage.parse (data : ByteVec) : Reader BeginMessage := do
  let lsn ← readUint64 data
  let commitTimestamp ← readUint64 data
  let transactionId ← load32 data
  return { lsn, commitTimestamp, transactionId }

/-- The column loop of `RelationMessage::parse` (`replication_message.cpp:77-98`). -/
def RelationMessage.parseColumns (data : ByteVec) : Nat → List Column → Reader (List Column)
  | 0, columns => pure columns
  | n + 1, columns => do
      let flags ← readUint8 data
      let name ← readString data
      let typeId ← readUint32 data
      let typeModifier ← readUint32 data
      parseColumns data n (columns ++ [{ flags, name, typeId, typeModifier := typeModifier.toInt32 }])

/-- `RelationMessage::parse` (`replication_message.cpp:51-100`): the replica identity is
read unchecked. -/
def RelationMessage.parse (data : ByteVec) : Reader RelationMessage := do
  let relationId ← readUint32 data
  let nspname ← readString data
  let relationName ← readString data
  let replicaIdentity ← peek data
  advance 1
  let numColumns ← readUint16 data
  let columns ← RelationMessage.parseColumns data numColumns.toNat []
  return { relationId, nspname, relationName, replicaIdentity, columns }

/-- `CommitMessage::parse` (`replication_message.cpp:119-153`): the flags are read unchecked. -/
def CommitMessage.parse (data : ByteVec) : Reader CommitMessage := do
  let flags ← peek data
  advance 1
  let lsn ← readUint64 data
  let endLsn ← readUint64 data
  let commitTimestamp ← readUint64 data
  return { flags, lsn, endLsn, commitTimestamp }

/-- The overload a row message uses: with columns if its relation is cached. -/
def parseRow (cache : RelationCache) (relationId : UInt32) (data : ByteVec) :
    Reader (List Bytes) :=
  match cache relationId with
  | some _ => parseTupleColumns data
  | none => parseTuple data

theorem parseRow_cached {cache : RelationCache} {relationId : UInt32} {relation : RelationMessage}
    (cached : cache relationId = some relation) (data : ByteVec) :
    parseRow cache relationId data = parseTupleWith [[]] data := by
  simp only [parseRow, cached, parseTupleColumns]

theorem parseRow_uncached {cache : RelationCache} {relationId : UInt32}
    (uncached : cache relationId = none) (data : ByteVec) :
    parseRow cache relationId data = parseTupleWith [] data := by
  simp only [parseRow, uncached, parseTuple]

/-- `InsertMessage::parse` (`replication_message.cpp:166-192`). -/
def InsertMessage.parse (cache : RelationCache) (data : ByteVec) : Reader InsertMessage := do
  let relationId ← readUint32 data
  let tupleType ← readUint8 data
  let newTuple ← parseRow cache relationId data
  return { relationId, tupleType, newTuple }

/-- `DeleteMessage::parse` (`replication_message.cpp:211-235`). -/
def DeleteMessage.parse (cache : RelationCache) (data : ByteVec) : Reader DeleteMessage := do
  let relationId ← readUint32 data
  let _flags ← readUint8 data
  let oldTuple ← parseRow cache relationId data
  return { relationId, oldTuple }

/-- The tuples of `UpdateMessage::parse` (`replication_message.cpp:267-285`). -/
def UpdateMessage.parseTuples (cache : RelationCache) (relationId : UInt32)
    (hasOldTuple : UInt8) (data : ByteVec) : Reader UpdateMessage := do
  let oldTuple ← if hasOldTuple = chr 'O' then parseRow cache relationId data else pure []
  let newTuple ← parseRow cache relationId data
  return { relationId, oldTuple, newTuple }

/-- `UpdateMessage::parse` (`replication_message.cpp:253-289`): the byte behind the first
marker, which is looked at without a check and not consumed, decides on an old tuple. -/
def UpdateMessage.parse (cache : RelationCache) (data : ByteVec) : Reader UpdateMessage := do
  let relationId ← readUint32 data
  let _flags ← readUint8 data
  let hasOldTuple ← peek data
  UpdateMessage.parseTuples cache relationId hasOldTuple data

/-- The OID loop of `TruncateMessage::parse` (`replication_message.cpp:341-345`): every round
loads the same four bytes, unchecked and in host order. -/
def TruncateMessage.parseOids (data : ByteVec) : Nat → List UInt32 → Reader (List UInt32)
  | 0, relationIds => pure relationIds
  | n + 1, relationIds => do
      let oid ← load32 data
      parseOids data n (relationIds ++ [oid])

/-- `TruncateMessage::parse` (`replication_message.cpp:316-350`). It runs from the value that
the uninitialised `offset` happens to have. -/
def TruncateMessage.parse (data : ByteVec) : Reader TruncateMessage := do
  let transactionId ← readUint32 data
  let numberOfRelations ← readUint32 data
  let options ← peek data
  advance 1
  let relationIds ← TruncateMessage.parseOids data numberOfRelations.toNat []
  return { transactionId, numberOfRelations, options, relationIds }

end KafkaReplication
