import KafkaReplication.Json

/-!
# `shared_structures.h`

What the producer and the consumer share. Fields that no modelled function reads
(`Stats::last_heartbeat`, `Stats::timestamp`) are left out, and of `ConnInfo` there are the names
that `startReplicationAll` uses, where it does.
-/

namespace KafkaReplication
open Misc

/-- `ConsumerMessage` (`shared_structures.h:23-31`). -/
structure ConsumerMessage where
  primaryKey : Bytes := []
  op : Bytes := []
  table : Bytes := []
  data : Json := .null
  before : Json := .null
  after : Json := .null

/-- `Stats` (`shared_structures.h:47-65`): log positions in two halves. -/
structure Stats where
  restartLsnHigh : UInt32 := 0
  restartLsnLow : UInt32 := 0
  appliedLsnHigh : UInt32 := 0
  appliedLsnLow : UInt32 := 0
  receivedLsnHigh : UInt32 := 0
  receivedLsnLow : UInt32 := 0
  flag : UInt8 := 0
  deriving DecidableEq, Repr

/-- `ProducerStats` (`shared_structures.h:86-93`). -/
structure ProducerStats where
  messagesSent : UInt64 := 0
  bytesSent : UInt64 := 0
  errors : UInt64 := 0
  deriving DecidableEq, Repr

/-- `ConsumerStats` (`shared_structures.h:96-100`). -/
structure ConsumerStats where
  messageReceived : UInt64 := 0
  bytesReceived : UInt64 := 0
  errors : UInt64 := 0
  deriving DecidableEq, Repr

/-- The position whose halves are `high` and `low`. -/
def lsnOf (high low : UInt32) : Nat := high.toNat * 2 ^ 32 + low.toNat

namespace Stats

def restartLsn (stats : Stats) : Nat := lsnOf stats.restartLsnHigh stats.restartLsnLow

def appliedLsn (stats : Stats) : Nat := lsnOf stats.appliedLsnHigh stats.appliedLsnLow

def receivedLsn (stats : Stats) : Nat := lsnOf stats.receivedLsnHigh stats.receivedLsnLow

end Stats

end KafkaReplication
