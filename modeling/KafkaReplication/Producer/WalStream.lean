import KafkaReplication.Producer.MessageDecode
import KafkaReplication.Producer.SentEvents
import KafkaReplication.Producer.Session

/-!
# A stream of inserts

The packets that the server sends for transactions made of INSERTs, and what `parsePacket`
(`producer_azs/postgresql_replicator.cpp:224-317`) makes of them. A stop can come between two
packets and between any two steps of one.
-/

namespace KafkaReplication
open Misc PgOutputParser PostgresqlReplicator

/-! ## Packets -/

/-- The messages of such transactions. -/
inductive StreamMessage where
  | begin (finalLsn commitTimestamp : UInt64) (xid : UInt32)
  | relation (relation : RelationMessage) (documented : relation.Documented)
  | insert (relation : RelationMessage) (tuple : TupleData)
      (full : tuple.columns.length = relation.columns.length)
  | commit (flags : UInt8) (commitLsn endLsn commitTimestamp : UInt64)

namespace StreamMessage

def encode : StreamMessage → Bytes
  | begin finalLsn commitTimestamp xid => encodeBegin finalLsn commitTimestamp xid
  | relation table _ => table.encode
  | insert table tuple _ => encodeInsert table.relationId tuple
  | commit flags commitLsn endLsn commitTimestamp =>
      encodeCommit flags commitLsn endLsn commitTimestamp

/-- What `parseMessage` makes of it. -/
def decoded : StreamMessage → ReplicationMessage
  | begin finalLsn commitTimestamp xid =>
      .begin ⟨finalLsn, commitTimestamp, UInt32.ofNat (leValue (beBytes 4 xid.toNat))⟩
  | relation table _ => .relation table
  | insert table tuple _ => .insert ⟨table.relationId, chr 'N', tuple.values⟩
  | commit flags commitLsn endLsn commitTimestamp =>
      .commit ⟨flags, commitLsn, endLsn, commitTimestamp⟩

theorem parseMessage_encode (message : StreamMessage) (offset0 : Nat) (cache : RelationCache)
    {rawMessage : ByteVec} (bytes : rawMessage.bytes = message.encode) :
    PgOutputParser.parseMessage offset0 rawMessage cache =
      .ok (some message.decoded) (cacheRelation message.decoded cache) := by
  rw [← List.append_nil message.encode] at bytes
  cases message with
  | begin finalLsn commitTimestamp xid => exact parseMessage_begin offset0 cache _ _ _ _ [] bytes
  | relation table documented => exact parseMessage_relation offset0 cache documented _ [] bytes
  | insert table tuple full => exact parseMessage_insert offset0 cache _ _ _ [] bytes
  | commit flags commitLsn endLsn commitTimestamp =>
    exact parseMessage_commit offset0 cache _ _ _ _ _ [] bytes

/-- The event of an INSERT that is handled at `now`. -/
def event (jsoncpp : JsonCpp) (now : UInt64) : StreamMessage → Option (Except Fault (Json × Bytes))
  | insert table tuple _ =>
      some (insertEvent jsoncpp table now ⟨table.relationId, chr 'N', tuple.values⟩)
  | _ => none

/-- What Kafka is given for it. -/
def sent (jsoncpp : JsonCpp) (now : UInt64) (message : StreamMessage) :
    List (Option Bytes × Bytes) :=
  match message.event jsoncpp now with
  | some (.ok (event, key)) => [(if key = [] then none else some key, jsoncpp.writeString event)]
  | _ => []

/-- The relation of an INSERT is the cached one. -/
def Known (cache : RelationCache) : StreamMessage → Prop
  | insert table _ _ => getCachedRelation cache table.relationId = some table
  | _ => True

end StreamMessage

/-- A `'w'` packet with the positions and the time in its header. -/
structure WalPacket where
  walStart : UInt64
  lsn : UInt64
  sendTime : UInt64
  message : StreamMessage
  size_lt : message.encode.length < 2 ^ 62

namespace WalPacket

variable (packet : WalPacket)

def header : Bytes :=
  chr 'w' :: (beBytes 8 packet.walStart.toNat ++ (beBytes 8 packet.lsn.toNat ++
    beBytes 8 packet.sendTime.toNat))

theorem header_length : packet.header.length = 25 := by
  simp only [header, List.length_cons, List.length_append, beBytes_length]

def raw : ByteVec :=
  ⟨packet.header ++ packet.message.encode, by
    have := packet.size_lt
    rw [List.length_append, header_length]
    omega⟩

theorem raw_isWal : IsWal packet.raw := by
  refine ⟨rfl, ?_⟩
  have size : packet.raw.size = 25 + packet.message.encode.length := by
    show (packet.header ++ packet.message.encode).length = _
    rw [List.length_append, header_length]
  omega

theorem packetLsn_raw : packetLsn packet.raw = packet.lsn.toNat := by
  have small := packet.lsn.toNat_lt
  have field : (packet.raw.bytes.drop 9).take 8 = beBytes 8 packet.lsn.toNat := rfl
  rw [packetLsn, field, beValue_beBytes (by omega)]

theorem body_raw : (packet.raw.dropFront 25).bytes = packet.message.encode := by
  show (packet.header ++ packet.message.encode).drop 25 = _
  rw [← packet.header_length, List.drop_left]

end WalPacket

/-- What the server sends: a packet of a transaction, with the LSN of its commit, or a
keepalive; and what is around the call that handles it. -/
inductive StreamItem where
  | wal (env : Surroundings) (packet : WalPacket) (commitLsn : Nat)
  | keepalive (env : Surroundings) (body : { bytes : Bytes // bytes.length < 2 ^ 62 })

namespace StreamItem

def env : StreamItem → Surroundings
  | wal env _ _ => env
  | keepalive env _ => env

def raw : StreamItem → ByteVec
  | wal _ packet _ => packet.raw
  | keepalive _ body => ⟨chr 'k' :: body.val, by
      have := body.property
      rw [List.length_cons]
      omega⟩

/-- What Kafka is given for it. -/
def sent (jsoncpp : JsonCpp) : StreamItem → List (Option Bytes × Bytes)
  | wal env packet _ => packet.message.sent jsoncpp env.now
  | keepalive _ _ => []

/-- The relation cache behind it. -/
def cacheAfter (cache : RelationCache) : StreamItem → RelationCache
  | wal _ packet _ => cacheRelation packet.message.decoded cache
  | keepalive _ _ => cache

/-- The relation of an INSERT is the cached one. -/
def Known (cache : RelationCache) : StreamItem → Prop
  | wal _ packet _ => packet.message.Known cache
  | keepalive _ _ => True

/-- The packet's position, if it has one, is below `lsn`. -/
def Before (lsn : Nat) : StreamItem → Prop
  | wal _ packet _ => packet.lsn.toNat < lsn
  | keepalive _ _ => True

instance (lsn : Nat) : DecidablePred (Before lsn)
  | wal _ packet _ => inferInstanceAs (Decidable (packet.lsn.toNat < lsn))
  | keepalive _ _ => isTrue trivial

end StreamItem

/-- Every relation comes before its rows. -/
def RelationsFirst : RelationCache → List StreamItem → Prop
  | _, [] => True
  | cache, item :: items => item.Known cache ∧ RelationsFirst (item.cacheAfter cache) items

/-! ## One packet -/

/-- The flush position of a status update, its second field. -/
def flushLsn (reply : Bytes) : Nat := beValue ((reply.drop 9).take 8)

theorem flushLsn_standbyReply (stats : Stats) (clock : UInt64) :
    flushLsn (standbyReply stats clock) = stats.appliedLsn := by
  have field : ((standbyReply stats clock).drop 9).take 8 =
      beBytes 4 stats.appliedLsnHigh.toNat ++ beBytes 4 stats.appliedLsnLow.toNat := by
    simp only [standbyReply, store32_htonl]
    rfl
  have high := stats.appliedLsnHigh.toNat_lt
  have low := stats.appliedLsnLow.toNat_lt
  rw [flushLsn, field, beValue_append, beValue_beBytes (by omega), beValue_beBytes (by omega),
    beBytes_length, Stats.appliedLsn, lsnOf]
  norm_num

namespace PostgresqlReplicator

/-- There is a Kafka producer, and it is initialised. -/
def Initialised (self : PostgresqlReplicator) : Prop :=
  ∃ producer, self.kafkaProducer = some producer ∧ producer.producer.isSome

/-- Nothing at or above `lsn` is applied or reported. -/
def Below (lsn : Nat) (self : PostgresqlReplicator) : Prop :=
  self.stats.appliedLsn < lsn ∧ ∀ reply ∈ self.sent, flushLsn reply < lsn

end PostgresqlReplicator

section OnePacket

variable {jsoncpp : JsonCpp} {env : Surroundings} {self : PostgresqlReplicator}

/-- What handling a message leaves: its event is sent, and the positions are as they were. -/
structure HandledMessage (jsoncpp : JsonCpp) (env : Surroundings) (message : StreamMessage)
    (before after : PostgresqlReplicator) : Prop where
  initialised : after.Initialised
  accepted : after.accepted = before.accepted ++ message.sent jsoncpp env.now
  cache : after.relationCache = before.relationCache
  stats : after.stats = before.stats
  sent : after.sent = before.sent

theorem handleMessage_decoded (initialised : self.Initialised)
    (takes : env.kafka.produceErr = false) (message : StreamMessage)
    (known : message.Known self.relationCache) :
    ∃ self', handleMessage jsoncpp env (some message.decoded) self = .ok () self' ∧
      HandledMessage jsoncpp env message self self' := by
  cases message with
  | begin _ _ _ => exact ⟨self, rfl, initialised, (List.append_nil _).symm, rfl, rfl, rfl⟩
  | relation _ _ => exact ⟨self, rfl, initialised, (List.append_nil _).symm, rfl, rfl, rfl⟩
  | commit _ _ _ _ => exact ⟨self, rfl, initialised, (List.append_nil _).symm, rfl, rfl, rfl⟩
  | insert relation tuple full =>
    obtain ⟨producer, there, open_⟩ := initialised
    have fits : tuple.values.length ≤ relation.columns.length := by
      rw [TupleData.values, List.length_map, full]
    obtain ⟨event, key, built⟩ : ∃ event key, insertEvent jsoncpp relation env.now
        ⟨relation.relationId, chr 'N', tuple.values⟩ = .ok (event, key) := by
      obtain ⟨primary, key, -, built⟩ := rowEvent_ok (str "INSERT") (str "data") jsoncpp relation
        env.now fits
      exact ⟨_, key, built⟩
    have cached : getCachedRelation self.relationCache relation.relationId = some relation := known
    have handled : handleMessage jsoncpp env
        (some (StreamMessage.insert relation tuple full).decoded) self = .ok () { self with
          kafkaProducer := some (producer.sendJson jsoncpp env.kafka event key).2 } := by
      simp only [StreamMessage.decoded, handleMessage, handleInsert, handleRow, cached, there,
        built]
    refine ⟨_, handled, ⟨_, rfl, ?_⟩, ?_, rfl, rfl, rfl⟩
    · rw [LibrdKafkaProducer.sendJson, LibrdKafkaProducer.sendMessage_isSome]
      exact open_
    · have accepts : producer.accepts env.kafka = true := by
        rw [LibrdKafkaProducer.accepts, open_, takes]
        rfl
      rw [accepted_sendJson jsoncpp env.kafka event key there, if_pos accepts,
        StreamMessage.sent, StreamMessage.event, built]

/-- The body of a packet is decoded and handled. -/
theorem dispatch_packet (initialised : self.Initialised) (takes : env.kafka.produceErr = false)
    (packet : WalPacket) (known : packet.message.Known self.relationCache) :
    ∃ self', dispatch jsoncpp env (packet.raw.dropFront 25) self = .ok () self' ∧
      HandledMessage jsoncpp env packet.message
        { self with relationCache := cacheRelation packet.message.decoded self.relationCache }
        self' := by
  have parsed : PostgresqlReplicator.parseMessage env (packet.raw.dropFront 25) self =
      .ok (some packet.message.decoded) { self with
        relationCache := cacheRelation packet.message.decoded self.relationCache } := by
    simp only [PostgresqlReplicator.parseMessage,
      packet.message.parseMessage_encode env.offset0.toNat self.relationCache packet.body_raw]
  have known' : packet.message.Known
      (cacheRelation packet.message.decoded self.relationCache) := by
    cases message : packet.message with
    | insert relation tuple full =>
      rw [message] at known
      exact known
    | begin _ _ _ => exact trivial
    | relation _ _ => exact trivial
    | commit _ _ _ _ => exact trivial
  let decoded : PostgresqlReplicator := { self with
    relationCache := cacheRelation packet.message.decoded self.relationCache }
  have initialised' : decoded.Initialised := initialised
  rw [dispatch, bind_ok parsed]
  exact handleMessage_decoded initialised' takes packet.message known'

/-- What Kafka has got of the items, and that no position comes from elsewhere. -/
structure HandedOver (jsoncpp : JsonCpp) (items : List StreamItem)
    (before after : PostgresqlReplicator) : Prop where
  accepted : after.accepted = before.accepted ++ items.flatMap (·.sent jsoncpp)
  below : ∀ lsn, (∀ item ∈ items, item.Before lsn) → before.Below lsn → after.Below lsn

namespace HandedOver

variable {front rest : List StreamItem} {item : StreamItem}
  {before next after : PostgresqlReplicator}

theorem nothing (replicator : PostgresqlReplicator) : HandedOver jsoncpp [] replicator replicator :=
  ⟨(List.append_nil _).symm, fun _ _ below => below⟩

theorem single (accepted : after.accepted = before.accepted ++ item.sent jsoncpp)
    (below : ∀ lsn, item.Before lsn → before.Below lsn → after.Below lsn) :
    HandedOver jsoncpp [item] before after where
  accepted := by rw [accepted, List.flatMap_singleton]
  below lsn fits := below lsn (fits item List.mem_cons_self)

theorem append (first : HandedOver jsoncpp front before next)
    (second : HandedOver jsoncpp rest next after) :
    HandedOver jsoncpp (front ++ rest) before after where
  accepted := by rw [second.accepted, first.accepted, List.append_assoc, List.flatMap_append]
  below := by
    intro lsn fits below
    apply second.below lsn fun item mem => fits item (List.mem_append_right front mem)
    exact first.below lsn (fun item mem => fits item (List.mem_append_left rest mem)) below

end HandedOver

/-- What the items leave when they are handled to the end. -/
structure HandledItems (jsoncpp : JsonCpp) (items : List StreamItem)
    (before after : PostgresqlReplicator) : Prop extends
    HandedOver jsoncpp items before after where
  initialised : after.Initialised
  cache : after.relationCache = items.foldl StreamItem.cacheAfter before.relationCache

theorem below_answered {lsn : Nat} (below : self.Below lsn) :
    (answered env self).Below lsn := by
  unfold answered
  split
  · refine ⟨below.1, ?_⟩
    intro reply mem
    rcases List.mem_append.mp mem with earlier | last
    · exact below.2 reply earlier
    · rw [List.mem_singleton.mp last, flushLsn_standbyReply]
      exact below.1
  · exact below

theorem accepted_answered (env : Surroundings) (self : PostgresqlReplicator) :
    (answered env self).accepted = self.accepted := by
  rw [PostgresqlReplicator.accepted, answered_kafkaProducer]
  rfl

/-- Behind the second critical section the packet's position is the applied one. -/
theorem below_applied {packet : WalPacket} {self' : PostgresqlReplicator}
    (stats : self'.stats = (received packet.raw self).stats) (sent : self'.sent = self.sent)
    {lsn : Nat} (before : packet.lsn.toNat < lsn) (below : self.Below lsn) :
    (applied self').Below lsn := by
  have position := (applied_lsn packet.raw_isWal stats).1
  rw [packet.packetLsn_raw] at position
  refine ⟨position ▸ before, ?_⟩
  intro reply mem
  have there : reply ∈ self'.sent := mem
  rw [sent] at there
  exact below.2 reply there

theorem parsePacket_item (initialised : self.Initialised) (item : StreamItem)
    (takes : item.env.kafka.produceErr = false) (known : item.Known self.relationCache) :
    ∃ self', parsePacket jsoncpp item.env item.raw self = .ok () self' ∧
      HandledItems jsoncpp [item] self self' := by
  have outcome := parsePacket_parsed jsoncpp item.env self item.raw
  generalize parsePacket jsoncpp item.env item.raw self = result at outcome ⊢
  cases item with
  | keepalive env body =>
    have isKeepalive : IsKeepalive (StreamItem.keepalive env body).raw := rfl
    have notWal : ¬ IsWal (StreamItem.keepalive env body).raw := by
      intro isWal
      exact absurd (isKeepalive.symm.trans isWal.1) (by decide)
    cases outcome with
    | skipped _ notKeepalive => exact absurd isKeepalive notKeepalive
    | completed isWal _ _ => exact absurd isWal notWal
    | down isWal _ _ => exact absurd isWal notWal
    | keepalive _ _ =>
      refine ⟨_, rfl, .single ?_ ?_, ?_, ?_⟩
      · rw [accepted_answered]
        exact (List.append_nil _).symm
      · intro lsn _ below
        exact below_answered below
      · rw [Initialised, answered_kafkaProducer]
        exact initialised
      · exact answered_relationCache _ _
  | wal env packet commitLsn =>
    have initialised' : (received packet.raw self).Initialised := initialised
    obtain ⟨self', ran, handled⟩ := dispatch_packet initialised' takes packet known
    cases outcome with
    | skipped notWal _ => exact absurd packet.raw_isWal notWal
    | keepalive notWal _ => exact absurd packet.raw_isWal notWal
    | down _ _ down =>
      have contra := down.symm.trans ran
      cases contra
    | completed _ _ completed =>
      have same := completed.symm.trans ran
      cases same
      refine ⟨_, rfl, .single ?_ ?_, ?_, ?_⟩
      · rw [accepted_answered]
        exact handled.accepted
      · intro lsn before below
        exact below_answered (below_applied handled.stats handled.sent before below)
      · rw [Initialised, answered_kafkaProducer]
        exact handled.initialised
      · rw [answered_relationCache]
        exact handled.cache

end OnePacket

/-! ## Runs and stops -/

/-- One packet after the other. -/
def handlePackets (jsoncpp : JsonCpp) : List StreamItem → ReplicatorM Unit
  | [] => pure ()
  | item :: items => do
      parsePacket jsoncpp item.env item.raw
      handlePackets jsoncpp items

/-- The step of the case `'w'` that has been made last. -/
inductive Stage where
  | checked
  | received
  | parsed
  | handled
  | applied
  deriving DecidableEq, Repr

/-- The event is with Kafka. -/
def Stage.hasSent : Stage → Bool
  | checked | received | parsed => false
  | handled | applied => true

/-- The case `'w'` up to a step. -/
def handleWalUntil (jsoncpp : JsonCpp) (env : Surroundings) (rawMessage : ByteVec) :
    Stage → ReplicatorM Unit
  | .checked => requireHeader rawMessage
  | .received => do
      requireHeader rawMessage
      receiveLsn rawMessage
  | .parsed => do
      requireHeader rawMessage
      receiveLsn rawMessage
      let _message ← PostgresqlReplicator.parseMessage env (rawMessage.dropFront 25)
      pure ()
  | .handled => do
      requireHeader rawMessage
      receiveLsn rawMessage
      dispatch jsoncpp env (rawMessage.dropFront 25)
  | .applied => do
      requireHeader rawMessage
      receiveLsn rawMessage
      dispatch jsoncpp env (rawMessage.dropFront 25)
      applyReceived

/-- Behind its last step there is only the status update. -/
example (jsoncpp : JsonCpp) (env : Surroundings) (rawMessage : ByteVec) :
    handleWal jsoncpp env rawMessage =
      (handleWalUntil jsoncpp env rawMessage .applied >>= fun _ =>
        sendStandbyStatusUpdate env) := by
  simp only [handleWal, handleWalUntil, bind_assoc]

/-- A point of a stream: `front` has been handled, and of the first packet of `rest` perhaps some
steps. -/
structure Stop where
  front : List StreamItem
  rest : List StreamItem
  stage : Option Stage

namespace Stop

variable (stop : Stop)

/-- The steps of the packet at the stop. -/
def lastSteps (jsoncpp : JsonCpp) : ReplicatorM Unit :=
  match stop.stage, stop.rest with
  | some stage, .wal env packet _ :: _ => handleWalUntil jsoncpp env packet.raw stage
  | _, _ => pure ()

/-- The session up to the stop. -/
def run (jsoncpp : JsonCpp) : ReplicatorM Unit := do
  handlePackets jsoncpp stop.front
  stop.lastSteps jsoncpp

/-- The packet at the stop has been given to Kafka. -/
def hasSent : Bool := stop.stage.any Stage.hasSent

/-- The items whose events are with Kafka, and the others. -/
def handed : List StreamItem := stop.front ++ if stop.hasSent then stop.rest.take 1 else []

def unhanded : List StreamItem := if stop.hasSent then stop.rest.drop 1 else stop.rest

theorem handed_append_unhanded : stop.handed ++ stop.unhanded = stop.front ++ stop.rest := by
  rw [handed, unhanded, List.append_assoc]
  cases stop.hasSent with
  | false => rfl
  | true =>
    simp only [if_true]
    rw [List.take_append_drop]

end Stop

/-- The flush position that was reported last; in front of the first report, that of the slot. -/
def lastFlush (slot : Nat) (self : PostgresqlReplicator) : Nat :=
  (self.sent.getLast?.map flushLsn).getD slot

theorem lastFlush_lt {slot lsn : Nat} {self : PostgresqlReplicator} (below : self.Below lsn)
    (slotBelow : slot < lsn) : lastFlush slot self < lsn := by
  rw [lastFlush]
  cases last : self.sent.getLast? with
  | none => exact slotBelow
  | some reply => exact below.2 reply (List.mem_of_getLast? last)

section Runs

variable {jsoncpp : JsonCpp} {self : PostgresqlReplicator}

theorem handlePackets_ok (initialised : self.Initialised) {items : List StreamItem}
    (takes : ∀ item ∈ items, item.env.kafka.produceErr = false)
    (relations : RelationsFirst self.relationCache items) :
    ∃ self', handlePackets jsoncpp items self = .ok () self' ∧
      HandledItems jsoncpp items self self' := by
  induction items generalizing self with
  | nil => exact ⟨self, rfl, .nothing self, initialised, rfl⟩
  | cons item items ih =>
    obtain ⟨known, relations⟩ := relations
    obtain ⟨next, parsed, handled⟩ : ∃ next, parsePacket jsoncpp item.env item.raw self =
        .ok () next ∧ HandledItems jsoncpp [item] self next :=
      parsePacket_item initialised item (takes item List.mem_cons_self) known
    have cache : next.relationCache = item.cacheAfter self.relationCache := handled.cache
    rw [← cache] at relations
    obtain ⟨self', ran, rest⟩ := ih handled.initialised
      (fun later mem => takes later (List.mem_cons_of_mem item mem)) relations
    refine ⟨self', ?_, handled.toHandedOver.append rest.toHandedOver, rest.initialised, ?_⟩
    · rw [handlePackets, bind_ok parsed]
      exact ran
    · rw [rest.cache, cache, List.foldl_cons]

theorem relationsFirst_append {cache : RelationCache} {front rest : List StreamItem}
    (relations : RelationsFirst cache (front ++ rest)) :
    RelationsFirst cache front ∧
      RelationsFirst (front.foldl StreamItem.cacheAfter cache) rest := by
  induction front generalizing cache with
  | nil => exact ⟨trivial, relations⟩
  | cons item front ih =>
    obtain ⟨known, relations⟩ := relations
    obtain ⟨before, behind⟩ := ih relations
    exact ⟨⟨known, before⟩, behind⟩

/-- A packet up to a step. -/
theorem handleWalUntil_ok {env : Surroundings} (initialised : self.Initialised)
    (takes : env.kafka.produceErr = false) (packet : WalPacket) (commitLsn : Nat)
    (known : packet.message.Known self.relationCache) (stage : Stage) :
    ∃ self', handleWalUntil jsoncpp env packet.raw stage self = .ok () self' ∧
      HandedOver jsoncpp (if stage.hasSent then [.wal env packet commitLsn] else [])
        self self' := by
  have header : requireHeader packet.raw self = .ok () self :=
    requireHeader_long packet.raw_isWal.2
  have receive : receiveLsn packet.raw self = .ok () (received packet.raw self) :=
    receiveLsn_long packet.raw_isWal.2
  have initialised' : (received packet.raw self).Initialised := initialised
  obtain ⟨next, ran, handled⟩ : ∃ next, dispatch jsoncpp env (packet.raw.dropFront 25)
      (received packet.raw self) = .ok () next ∧ HandledMessage jsoncpp env packet.message _ next :=
    dispatch_packet initialised' takes packet known
  cases stage with
  | checked => exact ⟨self, header, .nothing self⟩
  | received =>
    refine ⟨received packet.raw self, ?_, (List.append_nil _).symm, fun _ _ below => below⟩
    rw [handleWalUntil, bind_ok header]
    exact receive
  | parsed =>
    let decoded : PostgresqlReplicator := { received packet.raw self with
      relationCache := cacheRelation packet.message.decoded self.relationCache }
    have parsed : PostgresqlReplicator.parseMessage env (packet.raw.dropFront 25)
        (received packet.raw self) = .ok (some packet.message.decoded) decoded := by
      simp only [PostgresqlReplicator.parseMessage, packet.message.parseMessage_encode
        env.offset0.toNat _ packet.body_raw]
      rfl
    refine ⟨decoded, ?_, (List.append_nil _).symm, fun _ _ below => below⟩
    rw [handleWalUntil, bind_ok header, bind_ok receive, bind_ok parsed]
    rfl
  | handled =>
    refine ⟨next, ?_, .single handled.accepted ?_⟩
    · rw [handleWalUntil, bind_ok header, bind_ok receive]
      exact ran
    · intro lsn _ below
      rw [Below, handled.stats, handled.sent]
      exact below
  | applied =>
    refine ⟨applied next, ?_, .single handled.accepted ?_⟩
    · rw [handleWalUntil, bind_ok header, bind_ok receive, bind_ok ran]
      rfl
    · intro lsn before below
      exact below_applied handled.stats handled.sent before below

theorem Stop.lastSteps_ok (stop : Stop) (initialised : self.Initialised)
    (takes : ∀ item ∈ stop.rest, item.env.kafka.produceErr = false)
    (relations : RelationsFirst self.relationCache stop.rest) :
    ∃ self', stop.lastSteps jsoncpp self = .ok () self' ∧
      HandedOver jsoncpp (if stop.hasSent then stop.rest.take 1 else []) self self' := by
  obtain ⟨front, rest, stage⟩ := stop
  cases stage with
  | none => exact ⟨self, rfl, .nothing self⟩
  | some stage =>
    cases rest with
    | nil =>
      refine ⟨self, rfl, ?_⟩
      rw [List.take_nil, ite_self]
      exact .nothing self
    | cons item rest =>
      cases item with
      | keepalive env body =>
        refine ⟨self, rfl, ?_⟩
        split
        · exact .single (List.append_nil _).symm fun _ _ below => below
        · exact .nothing self
      | wal env packet commitLsn =>
        exact handleWalUntil_ok initialised (takes _ List.mem_cons_self) packet commitLsn
          relations.1 stage

/-- A session up to a stop: what Kafka has got, and what has been applied and reported. -/
theorem Stop.run_ok (stop : Stop) (initialised : self.Initialised)
    (takes : ∀ item ∈ stop.front ++ stop.rest, item.env.kafka.produceErr = false)
    (relations : RelationsFirst self.relationCache (stop.front ++ stop.rest)) :
    ∃ self', stop.run jsoncpp self = .ok () self' ∧
      HandedOver jsoncpp stop.handed self self' := by
  obtain ⟨inFront, behind⟩ := relationsFirst_append relations
  obtain ⟨next, ran, handled⟩ : ∃ next, handlePackets jsoncpp stop.front self = .ok () next ∧
      HandledItems jsoncpp stop.front self next :=
    handlePackets_ok initialised (fun item mem => takes item (List.mem_append_left _ mem)) inFront
  rw [← handled.cache] at behind
  obtain ⟨self', stepped, last⟩ : ∃ self', stop.lastSteps jsoncpp next = .ok () self' ∧ _ :=
    stop.lastSteps_ok handled.initialised
      (fun item mem => takes item (List.mem_append_right _ mem)) behind
  refine ⟨self', ?_, handled.toHandedOver.append last⟩
  rw [run, bind_ok ran]
  exact stepped

end Runs

end KafkaReplication
