import KafkaReplication.Producer.ParserBounds
import KafkaReplication.Producer.PostgresqlReplicator

/-!
# What a packet can do

`handleMessage` and `dispatch` case by case, and from them `parsePacket`. The handlers never
throw, so a packet ends in one of few ways: it is skipped, it is answered, or the process is
gone.
-/

namespace KafkaReplication
open Misc

namespace PostgresqlReplicator

section Handlers

variable {jsoncpp : JsonCpp} {env : Surroundings} {self self' : PostgresqlReplicator}

/-- `self` after one call of `sendJson`, whatever it has sent. -/
def SentOne (jsoncpp : JsonCpp) (env : Surroundings) (self self' : PostgresqlReplicator) : Prop :=
  ∃ producer json key, self.kafkaProducer = some producer ∧
    self' = { self with kafkaProducer := some (producer.sendJson jsoncpp env.kafka json key).2 }

/-- The message is one of the four that make an event, the Kafka producer is there and so is
the relation of a row message. -/
def Routable (self : PostgresqlReplicator) : ReplicationMessage → Prop
  | .insert ins => self.kafkaProducer.isSome ∧ (self.relationCache ins.relationId).isSome
  | .update upd => self.kafkaProducer.isSome ∧ (self.relationCache upd.relationId).isSome
  | .delete del => self.kafkaProducer.isSome ∧ (self.relationCache del.relationId).isSome
  | .truncate _ => self.kafkaProducer.isSome
  | _ => False

/-- What `handleMessage` can do with a message: send one event, leave it, or read past the
columns of the relation. -/
inductive Handled (jsoncpp : JsonCpp) (env : Surroundings) (self : PostgresqlReplicator)
    (msg : ReplicationMessage) : EStateM.Result Fault PostgresqlReplicator Unit → Prop where
  | sent {self' : PostgresqlReplicator} (routable : Routable self msg)
      (one : SentOne jsoncpp env self self') : Handled jsoncpp env self msg (.ok () self')
  | dropped (unroutable : ¬ Routable self msg) : Handled jsoncpp env self msg (.ok () self)
  | pastTheEnd (routable : Routable self msg) :
      Handled jsoncpp env self msg (.error (.undefined .pastTheEnd) self)

/-- An event builder gives an event or reads past the columns. -/
def BuildsEvent (event : RelationMessage → Except Fault (Json × Bytes)) : Prop :=
  ∀ relation, (∃ built, event relation = .ok built) ∨
    event relation = .error (.undefined .pastTheEnd)

theorem rowEvent_builds (op field : Bytes) (jsoncpp : JsonCpp) (now : UInt64)
    (tuple : List Bytes) : BuildsEvent (rowEvent op field jsoncpp · now tuple) := by
  intro relation
  by_cases fits : tuple.length ≤ relation.columns.length
  · obtain ⟨primary, text, _, built⟩ := rowEvent_ok op field jsoncpp relation now fits
    exact .inl ⟨_, built⟩
  · exact .inr (rowEvent_long op field jsoncpp relation now (Nat.lt_of_not_le fits))

theorem updateEvent_builds (jsoncpp : JsonCpp) (now : UInt64) (upd : UpdateMessage) :
    BuildsEvent (updateEvent jsoncpp · now upd) := by
  intro relation
  by_cases oldFits : upd.oldTuple.length ≤ relation.columns.length
  · by_cases newFits : upd.newTuple.length ≤ relation.columns.length
    · obtain ⟨primary, text, _, built⟩ := updateEvent_ok jsoncpp relation now oldFits newFits
      exact .inl ⟨_, built⟩
    · exact .inr (updateEvent_long jsoncpp relation now (.inr (Nat.lt_of_not_le newFits)))
  · exact .inr (updateEvent_long jsoncpp relation now (.inl (Nat.lt_of_not_le oldFits)))

theorem handleRow_handled {relationId : UInt32}
    {event : RelationMessage → Except Fault (Json × Bytes)} (builds : BuildsEvent event)
    {msg : ReplicationMessage}
    (routable : Routable self msg ↔
      self.kafkaProducer.isSome ∧ (self.relationCache relationId).isSome) :
    Handled jsoncpp env self msg (handleRow jsoncpp env relationId event self) := by
  unfold handleRow PgOutputParser.getCachedRelation
  cases cached : self.relationCache relationId with
  | none => exact .dropped (by rw [routable, cached]; simp)
  | some relation =>
    cases present : self.kafkaProducer with
    | none => exact .dropped (by rw [routable, present]; simp)
    | some producer =>
      have reached : Routable self msg := routable.mpr (by rw [cached, present]; exact ⟨rfl, rfl⟩)
      rcases builds relation with ⟨built, event_eq⟩ | event_eq
      · simp only [event_eq]
        exact .sent reached ⟨producer, built.1, built.2, present, rfl⟩
      · simp only [event_eq]
        exact .pastTheEnd reached

theorem handleMessage_handled (msg : ReplicationMessage) :
    Handled jsoncpp env self msg (handleMessage jsoncpp env (some msg) self) := by
  cases msg with
  | begin msg => exact .dropped id
  | commit msg => exact .dropped id
  | relation msg => exact .dropped id
  | insert ins => exact handleRow_handled (rowEvent_builds _ _ jsoncpp env.now _) Iff.rfl
  | update upd => exact handleRow_handled (updateEvent_builds jsoncpp env.now upd) Iff.rfl
  | delete del => exact handleRow_handled (rowEvent_builds _ _ jsoncpp env.now _) Iff.rfl
  | truncate trunc =>
    simp only [handleMessage, handleTruncate]
    cases present : self.kafkaProducer with
    | none => exact .dropped (by simp [Routable, present])
    | some producer =>
      obtain ⟨members, event_eq, _⟩ := truncateEvent_ok self.relationCache env.now trunc
      have reached : Routable self (.truncate trunc) := by simp [Routable, present]
      rw [event_eq]
      exact .sent reached ⟨producer, .object members, [], present, rfl⟩

/-- What `dispatch` can do with the body of a packet. -/
inductive Dispatched (jsoncpp : JsonCpp) (env : Surroundings) (self : PostgresqlReplicator)
    (body : ByteVec) : EStateM.Result Fault PostgresqlReplicator Unit → Prop where
  | empty (nothing : body.bytes = []) :
      Dispatched jsoncpp env self body (.error (.undefined .frontOfEmpty) self)
  | null {msgType : UInt8} {rest : Bytes} (bytes : body.bytes = msgType :: rest)
      (noMessage : PgOutputParser.parseBody env.offset0.toNat self.relationCache msgType
          (body.dropFront 1) = .ok none ∨
        ∃ what, PgOutputParser.parseBody env.offset0.toNat self.relationCache msgType
          (body.dropFront 1) = .error (.exception what)) :
      Dispatched jsoncpp env self body (.error (.undefined .nullPointer) self)
  | pastTheEnd {msgType : UInt8} {rest : Bytes} (bytes : body.bytes = msgType :: rest)
      (leaves : PgOutputParser.parseBody env.offset0.toNat self.relationCache msgType
        (body.dropFront 1) = .error (.undefined .pastTheEnd)) :
      Dispatched jsoncpp env self body (.error (.undefined .pastTheEnd) self)
  | handled {msgType : UInt8} {rest : Bytes} {msg : ReplicationMessage}
      {result : EStateM.Result Fault PostgresqlReplicator Unit}
      (bytes : body.bytes = msgType :: rest)
      (parsed : PgOutputParser.parseBody env.offset0.toNat self.relationCache msgType
        (body.dropFront 1) = .ok (some msg))
      (outcome : Handled jsoncpp env
        { self with relationCache := PgOutputParser.cacheRelation msg self.relationCache } msg
        result) :
      Dispatched jsoncpp env self body result

theorem dispatch_dispatched (jsoncpp : JsonCpp) (env : Surroundings)
    (self : PostgresqlReplicator) (body : ByteVec) :
    Dispatched jsoncpp env self body (dispatch jsoncpp env body self) := by
  obtain ⟨bytes, size_lt⟩ := body
  cases bytes with
  | nil => exact .empty rfl
  | cons msgType rest =>
    cases parsed : PgOutputParser.parseBody env.offset0.toNat self.relationCache msgType
        (ByteVec.dropFront ⟨msgType :: rest, size_lt⟩ 1) with
    | ok message =>
      cases message with
      | none =>
        have parse : parseMessage env ⟨msgType :: rest, size_lt⟩ self = .ok none self := by
          simp only [parseMessage, PgOutputParser.parseMessage, parsed]
        rw [dispatch, bind_ok parse]
        exact .null rfl (.inl parsed)
      | some msg =>
        have parse : parseMessage env ⟨msgType :: rest, size_lt⟩ self = .ok (some msg)
            { self with relationCache :=
                PgOutputParser.cacheRelation msg self.relationCache } := by
          simp only [parseMessage, PgOutputParser.parseMessage, parsed]
        rw [dispatch, bind_ok parse]
        exact .handled rfl parsed (handleMessage_handled msg)
    | error fault =>
      cases fault with
      | exception what =>
        have parse : parseMessage env ⟨msgType :: rest, size_lt⟩ self = .ok none self := by
          simp only [parseMessage, PgOutputParser.parseMessage, parsed]
        rw [dispatch, bind_ok parse]
        exact .null rfl (.inr ⟨what, parsed⟩)
      | undefined why =>
        have leaves := parseBody_bounds parsed
        subst leaves
        have parse : parseMessage env ⟨msgType :: rest, size_lt⟩ self =
            .error (.undefined .pastTheEnd) self := by
          simp only [parseMessage, PgOutputParser.parseMessage, parsed]
        rw [dispatch, bind_error parse]
        exact .pastTheEnd rfl parsed

/-- Handling a body leaves the positions and the status updates alone. -/
theorem dispatch_frame (jsoncpp : JsonCpp) (env : Surroundings) (self : PostgresqlReplicator)
    (body : ByteVec) :
    (finalState (dispatch jsoncpp env body self)).stats = self.stats ∧
      (finalState (dispatch jsoncpp env body self)).sent = self.sent := by
  have outcome := dispatch_dispatched jsoncpp env self body
  generalize dispatch jsoncpp env body self = result at outcome
  cases outcome with
  | empty _ => exact ⟨rfl, rfl⟩
  | null _ _ => exact ⟨rfl, rfl⟩
  | pastTheEnd _ _ => exact ⟨rfl, rfl⟩
  | handled _ _ handled =>
    cases handled with
    | sent _ one =>
      obtain ⟨producer, json, key, _, rfl⟩ := one
      exact ⟨rfl, rfl⟩
    | dropped _ => exact ⟨rfl, rfl⟩
    | pastTheEnd _ => exact ⟨rfl, rfl⟩

end Handlers

/-! ## Packets -/

/-- A `'w'` packet that is long enough for its header. -/
def IsWal (rawMessage : ByteVec) : Prop :=
  rawMessage.bytes.head? = some (chr 'w') ∧ 25 ≤ rawMessage.size

def IsKeepalive (rawMessage : ByteVec) : Prop := rawMessage.bytes.head? = some (chr 'k')

instance (rawMessage : ByteVec) : Decidable (IsWal rawMessage) :=
  inferInstanceAs (Decidable (_ ∧ _))

instance (rawMessage : ByteVec) : Decidable (IsKeepalive rawMessage) :=
  inferInstanceAs (Decidable (_ = _))

/-- The position in the header of a `'w'` packet, a number in network order. -/
def packetLsn (rawMessage : ByteVec) : Nat := beValue ((rawMessage.bytes.drop 9).take 8)

def packetLsnHigh (rawMessage : ByteVec) : UInt32 :=
  UInt32.ofNat (beValue ((rawMessage.bytes.drop 9).take 4))

def packetLsnLow (rawMessage : ByteVec) : UInt32 :=
  UInt32.ofNat (beValue ((rawMessage.bytes.drop 13).take 4))

/-- The replicator behind the first critical section. -/
def received (rawMessage : ByteVec) (self : PostgresqlReplicator) : PostgresqlReplicator :=
  { self with
    stats := self.stats.receive (packetLsnHigh rawMessage) (packetLsnLow rawMessage) }

/-- And behind the second one. -/
def applied (self : PostgresqlReplicator) : PostgresqlReplicator :=
  { self with stats := self.stats.applyReceived }

/-- What `parsePacket` can do. -/
inductive Parsed (jsoncpp : JsonCpp) (env : Surroundings) (self : PostgresqlReplicator)
    (rawMessage : ByteVec) : EStateM.Result Fault PostgresqlReplicator Unit → Prop where
  | skipped (notWal : ¬ IsWal rawMessage) (notKeepalive : ¬ IsKeepalive rawMessage) :
      Parsed jsoncpp env self rawMessage (.ok () self)
  | keepalive (notWal : ¬ IsWal rawMessage) (isKeepalive : IsKeepalive rawMessage) :
      Parsed jsoncpp env self rawMessage (.ok () (answered env self))
  | completed {self' : PostgresqlReplicator} (isWal : IsWal rawMessage)
      (notKeepalive : ¬ IsKeepalive rawMessage)
      (run : dispatch jsoncpp env (rawMessage.dropFront 25) (received rawMessage self) =
        .ok () self') :
      Parsed jsoncpp env self rawMessage (.ok () (answered env (applied self')))
  | down {why : Undefined} {self' : PostgresqlReplicator} (isWal : IsWal rawMessage)
      (notKeepalive : ¬ IsKeepalive rawMessage)
      (run : dispatch jsoncpp env (rawMessage.dropFront 25) (received rawMessage self) =
        .error (.undefined why) self') :
      Parsed jsoncpp env self rawMessage (.error (.undefined why) self')

/-- The header is inside a long enough packet, so both halves are read. -/
theorem readLsn_long {rawMessage : ByteVec} (long : 25 ≤ rawMessage.size) :
    readLsn rawMessage 9 =
      .ok (packetLsnHigh rawMessage, packetLsnLow rawMessage) 17 := by
  have size : rawMessage.bytes.length = rawMessage.size := rfl
  have highLen : ((rawMessage.bytes.drop 9).take 4).length = 4 := by simp; omega
  have lowLen : ((rawMessage.bytes.drop 13).take 4).length = 4 := by simp; omega
  have atHigh : At rawMessage 9
      ((rawMessage.bytes.drop 9).take 4 ++ (rawMessage.bytes.drop 9).drop 4) :=
    ⟨by omega, (List.take_append_drop 4 _).symm⟩
  have atLow : At rawMessage 13
      ((rawMessage.bytes.drop 13).take 4 ++ (rawMessage.bytes.drop 13).drop 4) :=
    ⟨by omega, (List.take_append_drop 4 _).symm⟩
  rw [readLsn, bind_ok (PgOutputParser.load32_append atHigh highLen),
    bind_ok (PgOutputParser.advance_at atHigh (by omega)),
    bind_ok (PgOutputParser.load32_append atLow lowLen),
    bind_ok (PgOutputParser.advance_at atLow (by omega)),
    PgOutputParser.ntohl_leValue highLen, PgOutputParser.ntohl_leValue lowLen]
  rfl

/-- The two halves make up the position. -/
theorem lsnOf_packetLsn {rawMessage : ByteVec} (long : 25 ≤ rawMessage.size) :
    lsnOf (packetLsnHigh rawMessage) (packetLsnLow rawMessage) = packetLsn rawMessage := by
  have size : rawMessage.bytes.length = rawMessage.size := rfl
  have halves : (rawMessage.bytes.drop 9).take 8 =
      (rawMessage.bytes.drop 9).take 4 ++ (rawMessage.bytes.drop 13).take 4 := by
    rw [show 8 = 4 + 4 from rfl, List.take_add, List.drop_drop]
  have highLen : ((rawMessage.bytes.drop 9).take 4).length = 4 := by simp; omega
  have lowLen : ((rawMessage.bytes.drop 13).take 4).length = 4 := by simp; omega
  rw [packetLsn, halves, beValue_append, lowLen, lsnOf, packetLsnHigh, packetLsnLow,
    toNat_beValue32 highLen, toNat_beValue32 lowLen]
  norm_num

section Packets

variable {jsoncpp : JsonCpp} {env : Surroundings} {self : PostgresqlReplicator}

theorem requireHeader_long {rawMessage : ByteVec} (long : 25 ≤ rawMessage.size) :
    requireHeader rawMessage self = .ok () self := by
  rw [requireHeader, if_neg (Nat.not_lt_of_le long)]

theorem requireHeader_short {rawMessage : ByteVec} (short : rawMessage.size < 25) :
    requireHeader rawMessage self = .error (.exception "WAL message too short") self := by
  rw [requireHeader, if_pos short]

theorem receiveLsn_long {rawMessage : ByteVec} (long : 25 ≤ rawMessage.size) :
    receiveLsn rawMessage self = .ok () (received rawMessage self) := by
  simp only [receiveLsn, readLsn_long long, received]

theorem handleWal_long {rawMessage : ByteVec} (long : 25 ≤ rawMessage.size) :
    handleWal jsoncpp env rawMessage self =
      match dispatch jsoncpp env (rawMessage.dropFront 25) (received rawMessage self) with
      | .ok () self' => .ok () (answered env (applied self'))
      | .error fault self' => .error fault self' := by
  rw [handleWal, bind_ok (requireHeader_long long), bind_ok (receiveLsn_long long)]
  cases run : dispatch jsoncpp env (rawMessage.dropFront 25) (received rawMessage self) with
  | ok _ self' => exact bind_ok run
  | error fault self' => exact bind_error run

theorem parsePacket_parsed (jsoncpp : JsonCpp) (env : Surroundings)
    (self : PostgresqlReplicator) (rawMessage : ByteVec) :
    Parsed jsoncpp env self rawMessage (parsePacket jsoncpp env rawMessage self) := by
  cases bytes : rawMessage.bytes with
  | nil =>
    have result : parsePacket jsoncpp env rawMessage self = .ok () self := by
      simp only [parsePacket, bytes]
      rfl
    rw [result]
    exact .skipped (by simp [IsWal, bytes]) (by simp [IsKeepalive, bytes])
  | cons msgType rest =>
    have head : rawMessage.bytes.head? = some msgType := by rw [bytes]; rfl
    have result : parsePacket jsoncpp env rawMessage self = swallow
        (if msgType = chr 'w' then handleWal jsoncpp env rawMessage
        else if msgType = chr 'k' then sendStandbyStatusUpdate env
        else pure ()) self := by
      simp only [parsePacket, bytes]
    rw [result]
    by_cases isW : msgType = chr 'w'
    · have notKeepalive : ¬ IsKeepalive rawMessage := by
        rw [IsKeepalive, head, isW]
        decide
      rw [if_pos isW]
      by_cases long : 25 ≤ rawMessage.size
      · have isWal : IsWal rawMessage := ⟨by rw [head, isW], long⟩
        have outcome := dispatch_dispatched jsoncpp env (received rawMessage self)
          (rawMessage.dropFront 25)
        simp only [swallow, handleWal_long long]
        cases run : dispatch jsoncpp env (rawMessage.dropFront 25) (received rawMessage self) with
        | ok _ self' => exact .completed isWal notKeepalive run
        | error fault self' =>
          cases fault with
          | undefined why => exact .down isWal notKeepalive run
          | exception what =>
            -- no handler throws
            rw [run] at outcome
            cases outcome with
            | handled _ _ handled => cases handled
      · have short : handleWal jsoncpp env rawMessage self =
            .error (.exception "WAL message too short") self := by
          rw [handleWal, bind_error (requireHeader_short (Nat.lt_of_not_le long))]
        simp only [swallow, short]
        exact .skipped (fun isWal => long isWal.2) notKeepalive
    · have notWal : ¬ IsWal rawMessage := by
        rintro ⟨headW, _⟩
        rw [head] at headW
        exact isW (Option.some.inj headW)
      rw [if_neg isW]
      by_cases isK : msgType = chr 'k'
      · rw [if_pos isK]
        exact .keepalive notWal (by rw [IsKeepalive, head, isK])
      · rw [if_neg isK]
        refine .skipped notWal ?_
        rw [IsKeepalive, head]
        exact fun headK => isK (Option.some.inj headK)

end Packets

end PostgresqlReplicator

end KafkaReplication
