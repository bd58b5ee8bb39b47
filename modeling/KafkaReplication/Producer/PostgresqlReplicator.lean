import KafkaReplication.Producer.Events
import KafkaReplication.Producer.LibrdKafkaProducer

/-!
# `PostgresqlReplicator`

The packet dispatcher of the producer, `producer_azs/postgresql_replicator.cpp:224-569`, on
its state: the relation cache, the log positions, the Kafka producer and the status updates
handed to the connection. What a call takes from its surroundings (the clocks, the state of
the connection, librdkafka's answers, the content of an uninitialised local) is `Surroundings`.
-/

namespace KafkaReplication
open Misc PgOutputParser

/-- `PostgresqlReplicator` (`postgresql_replicator.h:55-75`). `sent` holds what was given to
`PQputCopyData`, the latest last. -/
structure PostgresqlReplicator where
  relationCache : RelationCache := fun _ => none
  stats : Stats := {}
  kafkaProducer : Option LibrdKafkaProducer := none
  sent : List Bytes := []

/-- What one call finds around it. -/
structure Surroundings where
  /-- The bits of the uninitialised `offset` in `TruncateMessage::parse`. -/
  offset0 : UInt64 := 0
  /-- `currentTimestamp()`, in milliseconds. -/
  now : UInt64 := 0
  /-- The clock of a status update, in microseconds. -/
  clock : UInt64 := 0
  /-- `repl_conn_` is set and `PQstatus` says `CONNECTION_OK`. -/
  connectionOk : Bool := true
  kafka : KafkaOutcome := {}

/-- A member function of `PostgresqlReplicator`. -/
abbrev ReplicatorM := EStateM Fault PostgresqlReplicator

/-- `htonl` and `htobe64` swap like `ntohl` and `be64toh`. -/
def htonl (x : UInt32) : UInt32 := ntohl x

def htobe64 (x : UInt64) : UInt64 := be64toh x

/-- The bytes that `memcpy(&reply[pos], &x, 4)` writes. -/
def store32 (x : UInt32) : Bytes := leBytes 4 x.toNat

def store64 (x : UInt64) : Bytes := leBytes 8 x.toNat

/-- The reply that `sendStandbyStatusUpdate` fills in (`postgresql_replicator.cpp:327-366`). -/
def standbyReply (stats : Stats) (clock : UInt64) : Bytes :=
  let restart := store32 (htonl stats.restartLsnHigh) ++ store32 (htonl stats.restartLsnLow)
  let applied := store32 (htonl stats.appliedLsnHigh) ++ store32 (htonl stats.appliedLsnLow)
  [chr 'r'] ++ restart ++ applied ++ restart ++ store64 (htobe64 clock) ++ [stats.flag]

namespace Stats

/-- `stats_.restart_lsn = stats_.applied_lsn` (`postgresql_replicator.cpp:334-335`). -/
def restartAtApplied (stats : Stats) : Stats :=
  { stats with restartLsnHigh := stats.appliedLsnHigh, restartLsnLow := stats.appliedLsnLow }

/-- `stats_.applied_lsn = stats_.received_lsn` (`postgresql_replicator.cpp:290-291`). -/
def applyReceived (stats : Stats) : Stats :=
  { stats with appliedLsnHigh := stats.receivedLsnHigh, appliedLsnLow := stats.receivedLsnLow }

/-- `stats_.received_lsn = ...` (`postgresql_replicator.cpp:270-273`). -/
def receive (stats : Stats) (high low : UInt32) : Stats :=
  { stats with receivedLsnHigh := high, receivedLsnLow := low }

end Stats

namespace PostgresqlReplicator

/-- The replicator after a status update: nothing happens without a connection. -/
def answered (env : Surroundings) (self : PostgresqlReplicator) : PostgresqlReplicator :=
  if env.connectionOk then
    let stats := self.stats.restartAtApplied
    { self with stats := stats, sent := self.sent ++ [standbyReply stats env.clock] }
  else self

/-- `sendStandbyStatusUpdate` (`postgresql_replicator.cpp:319-375`). -/
def sendStandbyStatusUpdate (env : Surroundings) : ReplicatorM Unit := fun self =>
  .ok () (answered env self)

section Handlers

variable (jsoncpp : JsonCpp) (env : Surroundings)

/-- The frame of `handleInsert`, `handleUpdate` and `handleDelete`: without the relation or
the Kafka producer the message is dropped, and what `sendJson` returns is not looked at. -/
def handleRow (relationId : UInt32)
    (event : RelationMessage → Except Fault (Json × Bytes)) : ReplicatorM Unit := fun self =>
  match getCachedRelation self.relationCache relationId, self.kafkaProducer with
  | some relation, some producer =>
      match event relation with
      | .ok (message, key) =>
          let sent := producer.sendJson jsoncpp env.kafka message key
          .ok () { self with kafkaProducer := some sent.2 }
      | .error fault => .error fault self
  | _, _ => .ok () self

/-- `handleInsert` (`postgresql_replicator.cpp:412-446`). -/
def handleInsert (ins : InsertMessage) : ReplicatorM Unit :=
  handleRow jsoncpp env ins.relationId (insertEvent jsoncpp · env.now ins)

/-- `handleUpdate` (`postgresql_replicator.cpp:448-494`). -/
def handleUpdate (upd : UpdateMessage) : ReplicatorM Unit :=
  handleRow jsoncpp env upd.relationId (updateEvent jsoncpp · env.now upd)

/-- `handleDelete` (`postgresql_replicator.cpp:536-569`). -/
def handleDelete (del : DeleteMessage) : ReplicatorM Unit :=
  handleRow jsoncpp env del.relationId (deleteEvent jsoncpp · env.now del)

/-- `handleTruncate` (`postgresql_replicator.cpp:496-534`), which sends without a key. -/
def handleTruncate (trunc : TruncateMessage) : ReplicatorM Unit := fun self =>
  match self.kafkaProducer with
  | some producer =>
      match truncateEvent self.relationCache env.now trunc with
      | .ok message =>
          let sent := producer.sendJson jsoncpp env.kafka message []
          .ok () { self with kafkaProducer := some sent.2 }
      | .error fault => .error fault self
  | none => .ok () self

/-- `handleMessage` (`postgresql_replicator.cpp:391-410`): `msg->getType()` is called on
whatever `parseMessage` has returned. -/
def handleMessage (msg : Option ReplicationMessage) : ReplicatorM Unit :=
  match msg with
  | none => throw (.undefined .nullPointer)
  | some (.insert ins) => handleInsert jsoncpp env ins
  | some (.update upd) => handleUpdate jsoncpp env upd
  | some (.delete del) => handleDelete jsoncpp env del
  | some (.truncate trunc) => handleTruncate jsoncpp env trunc
  | some _ => pure ()

/-- `parser_.parseMessage(clean_data)`. -/
def parseMessage (cleanData : ByteVec) : ReplicatorM (Option ReplicationMessage) := fun self =>
  match PgOutputParser.parseMessage env.offset0.toNat cleanData self.relationCache with
  | .ok message cache => .ok message { self with relationCache := cache }
  | .error fault cache => .error fault { self with relationCache := cache }

/-- What becomes of the body of a packet. -/
def dispatch (cleanData : ByteVec) : ReplicatorM Unit := do
  let message ← parseMessage env cleanData
  handleMessage jsoncpp env message

/-- `if(raw_message.size() < 25) throw ...` -/
def requireHeader (rawMessage : ByteVec) : ReplicatorM Unit := fun self =>
  if rawMessage.size < 25 then .error (.exception "WAL message too short") self else .ok () self

/-- The two halves of the position at byte 9 of a packet. -/
def readLsn (rawMessage : ByteVec) : Reader (UInt32 × UInt32) := do
  let receivedHighNet ← load32 rawMessage
  advance 4
  let receivedLowNet ← load32 rawMessage
  advance 4
  return (ntohl receivedHighNet, ntohl receivedLowNet)

/-- The first critical section (`postgresql_replicator.cpp:261-279`). -/
def receiveLsn (rawMessage : ByteVec) : ReplicatorM Unit := fun self =>
  match readLsn rawMessage 9 with
  | .ok (high, low) _ => .ok () { self with stats := self.stats.receive high low }
  | .error fault _ => .error fault self

/-- The second critical section (`postgresql_replicator.cpp:287-297`). -/
def applyReceived : ReplicatorM Unit := fun self =>
  .ok () { self with stats := self.stats.applyReceived }

/-- The case `'w'` of `parsePacket`. -/
def handleWal (rawMessage : ByteVec) : ReplicatorM Unit := do
  requireHeader rawMessage
  receiveLsn rawMessage
  dispatch jsoncpp env (rawMessage.dropFront 25)
  applyReceived
  sendStandbyStatusUpdate env

/-- `try { ... } catch(const std::exception& e) { }`. -/
def swallow (body : ReplicatorM Unit) : ReplicatorM Unit := fun self =>
  match body self with
  | .error (.exception _) self => .ok () self
  | result => result

/-- `parsePacket` (`postgresql_replicator.cpp:224-317`). -/
def parsePacket (rawMessage : ByteVec) : ReplicatorM Unit :=
  match rawMessage.bytes with
  | [] => pure ()
  | msgType :: _ =>
      swallow <|
        if msgType = chr 'w' then handleWal jsoncpp env rawMessage
        else if msgType = chr 'k' then sendStandbyStatusUpdate env
        else pure ()

end Handlers

end PostgresqlReplicator

end KafkaReplication
