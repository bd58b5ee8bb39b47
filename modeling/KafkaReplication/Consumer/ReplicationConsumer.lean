import KafkaReplication.Consumer.DatabaseWriter

/-!
# `ReplicationConsumer`

The way of a Kafka message from `LibRdkafkaConsumer::startConsuming`
(`consumer_bo/consumer_librdkafka.cpp:90-162`) through the callback and `saveIntoQueue`
(`consumer_bo/replication_consumer.h:21-32,88-118`) to the `ConsumerMessage` that is pushed.
-/

namespace KafkaReplication
open Misc

namespace ReplicationConsumer

/-- `msg.get(name, "").asString()`. -/
def getString (msg : Json) (name : Bytes) : Except Fault Bytes := do
  let value ← msg.get name (.string [])
  value.asString

/-- The message that `saveIntoQueue` (`replication_consumer.h:88-111`) pushes. The members of
other events are not looked at. -/
def saveIntoQueue (msg : Json) : Except Fault ConsumerMessage := do
  let _hasPrimary ← msg.isMember (str "primary")
  let primaryKey ← getString msg (str "primary")
  let op ← getString msg (str "op")
  let table ← getString msg (str "table")
  if op = str "INSERT" then
    let data ← msg.index (str "data")
    return { primaryKey, op, table, data }
  else if op = str "UPDATE" then
    let before ← msg.index (str "before")
    let after ← msg.index (str "after")
    return { primaryKey, op, table, before, after }
  else if op = str "DELETE" then
    let before ← msg.index (str "before")
    return { primaryKey, op, table, before }
  else
    return { primaryKey, op, table }

/-- `msg[name].asString()`, as the callback prints it. -/
def printed (msg : Json) (name : Bytes) : Except Fault Bytes := do
  let value ← msg.index name
  value.asString

/-- The message callback (`replication_consumer.h:21-32`): what it prints can throw before
anything is saved. -/
def messageCallback (msg : Json) : Except Fault ConsumerMessage := do
  let _op ← printed msg (str "op")
  let _table ← printed msg (str "table")
  let _hasData ← msg.isMember (str "data")
  saveIntoQueue msg

end ReplicationConsumer

namespace LibRdkafkaConsumer

/-- What `startConsuming` (`consumer_librdkafka.cpp:108-143`) does with the payload of a message
that `consume` returned without an error: the callback, or `none` for the error callback. -/
def startConsuming (jsoncpp : JsonCpp) (payload : Bytes) : Except Fault (Option ConsumerMessage) :=
  match jsoncpp.parseFromStream payload with
  | .ok (some root) => (ReplicationConsumer.messageCallback root).map some
  | .ok none => .ok none
  | .error fault => .error fault

end LibRdkafkaConsumer

end KafkaReplication
