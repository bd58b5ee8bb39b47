import KafkaReplication.Misc.Run
import KafkaReplication.Producer.Dispatch

/-!
# The replication session

The loop of `startReadReplicationMessages` (`producer_azs/postgresql_replicator.cpp:168-221`)
as a machine that takes one round after the other, from the moment `startReplicationAll` has
loaded `RESTART_LSN`. Besides the replicator, a session records which change messages have come
in and under which number Kafka took the event of each.
-/

namespace KafkaReplication
open Misc

namespace PostgresqlReplicator

/-- What `PQgetCopyData` has for the loop. -/
inductive CopyData where
  /-- `bytes_read > 0`. -/
  | data (rawMessage : ByteVec)
  /-- `bytes_read == 0`. -/
  | nothing
  /-- `bytes_read == -1`. -/
  | done
  /-- `bytes_read == -2`. -/
  | failed
  deriving DecidableEq, Repr

structure Round where
  env : Surroundings
  copyData : CopyData

/-- One round of the loop (`postgresql_replicator.cpp:180-204`). -/
def readRound (jsoncpp : JsonCpp) (round : Round) : ReplicatorM Unit :=
  match round.copyData with
  | .data rawMessage => swallow (parsePacket jsoncpp round.env rawMessage)
  | .nothing => pure ()
  | .done => sendStandbyStatusUpdate round.env
  | .failed => throw (.exception "Error reading replication data")

/-- A packet whose body is an Insert, Update, Delete or Truncate message. -/
def IsChange (rawMessage : ByteVec) : Prop :=
  IsWal rawMessage ∧ ∃ msgType ∈ str "IUDT", (rawMessage.bytes.drop 25).head? = some msgType

instance (rawMessage : ByteVec) : Decidable (IsChange rawMessage) :=
  inferInstanceAs (Decidable (_ ∧ _))

/-- The number of events Kafka has taken so far. -/
def eventCount (kafkaProducer : Option LibrdKafkaProducer) : Nat :=
  kafkaProducer.elim 0 LibrdKafkaProducer.acceptedCount

/-- `dr_cb` has reported the event without an error. -/
def EventDelivered (kafkaProducer : Option LibrdKafkaProducer) (event : Nat) : Prop :=
  ∃ producer, kafkaProducer = some producer ∧ producer.Delivered event

/-- The event that Kafka took between two states. -/
def eventBetween (before after : Option LibrdKafkaProducer) : Option Nat :=
  if eventCount before < eventCount after then some (eventCount before) else none

/-- A change message that has come in: the position of its packet, and the number of its event
if Kafka took one. -/
structure ReceivedChange where
  lsn : Nat
  event : Option Nat
  deriving DecidableEq, Repr

/-- The change has an event and that has been delivered. -/
def ReceivedChange.Delivered (change : ReceivedChange)
    (kafkaProducer : Option LibrdKafkaProducer) : Prop :=
  ∃ event, change.event = some event ∧ EventDelivered kafkaProducer event

structure Session where
  replicator : PostgresqlReplicator
  /-- The loop has been left, or the language has. -/
  down : Bool := false
  received : List ReceivedChange := []

namespace Session

/-- The changes received when `copyData` has been handled. -/
def recordChange (copyData : CopyData) (before after : PostgresqlReplicator)
    (received : List ReceivedChange) : List ReceivedChange :=
  match copyData with
  | .data rawMessage =>
      if IsChange rawMessage then
        received ++ [⟨packetLsn rawMessage,
          eventBetween before.kafkaProducer after.kafkaProducer⟩]
      else received
  | _ => received

/-- One round; nothing happens once the session is down. -/
def step (jsoncpp : JsonCpp) (session : Session) (round : Round) : Session :=
  if session.down then session
  else
    match readRound jsoncpp round session.replicator with
    | .ok _ self' =>
        { replicator := self'
          down := false
          received := recordChange round.copyData session.replicator self' session.received }
    | .error _ self' =>
        { replicator := self'
          down := true
          received := recordChange round.copyData session.replicator self' session.received }

/-- A session that `startReplicationAll` has opened with the loaded `RESTART_LSN`: the other
positions are zero (`shared_structures.h:48-55`) and nothing has been sent. -/
def start (cache : RelationCache) (kafkaProducer : Option LibrdKafkaProducer)
    (restartLsnHigh restartLsnLow : UInt32) : Session where
  replicator :=
    { relationCache := cache
      stats := { restartLsnHigh, restartLsnLow }
      kafkaProducer := kafkaProducer }

end Session

/-! ## Rounds -/

section Rounds

variable {jsoncpp : JsonCpp} {round : Round}

/-- `parsePacket` catches what it throws, so the handler around it has nothing to do. -/
theorem readRound_data (jsoncpp : JsonCpp) {rawMessage : ByteVec}
    (copy : round.copyData = .data rawMessage) (self : PostgresqlReplicator) :
    readRound jsoncpp round self = parsePacket jsoncpp round.env rawMessage self := by
  have outcome := parsePacket_parsed jsoncpp round.env self rawMessage
  simp only [readRound, copy, swallow]
  generalize parsePacket jsoncpp round.env rawMessage self = result at outcome
  cases outcome <;> rfl

theorem readRound_nothing (copy : round.copyData = .nothing) (self : PostgresqlReplicator) :
    readRound jsoncpp round self = .ok () self := by
  simp only [readRound, copy]
  rfl

theorem readRound_done (copy : round.copyData = .done) (self : PostgresqlReplicator) :
    readRound jsoncpp round self = .ok () (answered round.env self) := by
  simp only [readRound, copy, sendStandbyStatusUpdate]

theorem readRound_failed (copy : round.copyData = .failed) (self : PostgresqlReplicator) :
    readRound jsoncpp round self =
      .error (.exception "Error reading replication data") self := by
  simp only [readRound, copy]
  rfl

namespace Session

variable {session : Session} {self' : PostgresqlReplicator}

theorem step_down (down : session.down = true) : step jsoncpp session round = session := by
  simp only [step, down, if_true]

theorem step_ok (up : session.down = false)
    (run : readRound jsoncpp round session.replicator = .ok () self') :
    step jsoncpp session round =
      { replicator := self'
        down := false
        received := recordChange round.copyData session.replicator self' session.received } := by
  simp only [step, up, run, Bool.false_eq_true, if_false]

theorem step_error (up : session.down = false) {fault : Fault}
    (run : readRound jsoncpp round session.replicator = .error fault self') :
    step jsoncpp session round =
      { replicator := self'
        down := true
        received := recordChange round.copyData session.replicator self' session.received } := by
  simp only [step, up, run, Bool.false_eq_true, if_false]

end Session

end Rounds

/-! ## Status updates -/

/-- The position in the first field behind the `'r'` of a status update. -/
def reportedLsn (reply : Bytes) : Nat := beValue ((reply.drop 1).take 8)

theorem store32_htonl (x : UInt32) : store32 (htonl x) = beBytes 4 x.toNat := by
  have swapped : (htonl x).toNat = beValue (leBytes 4 x.toNat) := by
    rw [htonl, ntohl, toNat_beValue32 (leBytes_length 4 _)]
  have whole := beBytes_beValue (leBytes 4 x.toNat)
  rw [leBytes_length] at whole
  rw [store32, swapped, ← List.reverse_reverse (leBytes 4 _), ← beBytes, whole, beBytes]

theorem reportedLsn_standbyReply (stats : Stats) (clock : UInt64) :
    reportedLsn (standbyReply stats clock) = stats.restartLsn := by
  have field : ((standbyReply stats clock).drop 1).take 8 =
      beBytes 4 stats.restartLsnHigh.toNat ++ beBytes 4 stats.restartLsnLow.toNat := by
    simp only [standbyReply, store32_htonl]
    rfl
  have high := stats.restartLsnHigh.toNat_lt
  have low := stats.restartLsnLow.toNat_lt
  rw [reportedLsn, field, beValue_append, beValue_beBytes (by omega), beValue_beBytes (by omega),
    beBytes_length, Stats.restartLsn, lsnOf]
  norm_num

theorem answered_kafkaProducer (env : Surroundings) (self : PostgresqlReplicator) :
    (answered env self).kafkaProducer = self.kafkaProducer := by
  unfold answered
  split <;> rfl

theorem answered_relationCache (env : Surroundings) (self : PostgresqlReplicator) :
    (answered env self).relationCache = self.relationCache := by
  unfold answered
  split <;> rfl

/-- How a step can change what has been sent: not at all, or by one status update, which
reports the applied position and makes it the restart position. -/
theorem answered_cases (env : Surroundings) (self : PostgresqlReplicator) :
    (env.connectionOk = false ∧ answered env self = self) ∨
      (env.connectionOk = true ∧ ∃ reply, (answered env self).sent = self.sent ++ [reply] ∧
        reportedLsn reply = self.stats.appliedLsn ∧
        (answered env self).stats.restartLsn = self.stats.appliedLsn ∧
        (answered env self).stats.appliedLsn = self.stats.appliedLsn ∧
        (answered env self).kafkaProducer = self.kafkaProducer) := by
  cases ok : env.connectionOk with
  | false => exact .inl ⟨rfl, by simp [answered, ok]⟩
  | true =>
    refine .inr ⟨rfl, standbyReply self.stats.restartAtApplied env.clock, ?_, ?_, ?_, ?_, ?_⟩
    · simp [answered, ok]
    · exact reportedLsn_standbyReply _ _
    · simp [answered, ok, Stats.restartLsn, Stats.restartAtApplied, Stats.appliedLsn]
    · simp [answered, ok, Stats.restartAtApplied, Stats.appliedLsn]
    · simp [answered, ok]

/-- The positions behind the two critical sections: the packet's own is applied. -/
theorem applied_lsn {rawMessage : ByteVec} (isWal : IsWal rawMessage)
    {self self' : PostgresqlReplicator} (stats : self'.stats = (received rawMessage self).stats) :
    (applied self').stats.appliedLsn = packetLsn rawMessage ∧
      (applied self').stats.restartLsn = self.stats.restartLsn := by
  simp only [applied, stats, received]
  exact ⟨lsnOf_packetLsn isWal.2, rfl⟩

end PostgresqlReplicator

end KafkaReplication
