import KafkaReplication.Producer.UpdateDecode
import KafkaReplication.Producer.WalStream

/-!
# A session that gets changes

The loop of `startReadReplicationMessages` (`producer_azs/postgresql_replicator.cpp:168-221`) on
transactions of INSERTs, UPDATEs and DELETEs. Every change becomes one event, in its order. The
event of an UPDATE is about one row only: `UpdateMessage::parse` reads the first tuple of the
message, which is the old row if there is one, and takes it for the new row.
-/

namespace KafkaReplication
open Misc PgOutputParser PostgresqlReplicator

/-! ## Changes -/

/-- TupleData with an item for each column. -/
structure RowTuple (relation : RelationMessage) where
  data : TupleData
  full : data.columns.length = relation.columns.length

/-- What has happened to a row, as the server says it. -/
inductive TupleChange (relation : RelationMessage) where
  | insert (new : RowTuple relation)
  | update (old : Option (DeletedPart × RowTuple relation)) (new : RowTuple relation)
  | delete (part : DeletedPart) (old : RowTuple relation)

/-- A change of a row. The number of columns has no `'O'` for its high byte. -/
structure SourceChange where
  relation : RelationMessage
  change : TupleChange relation
  narrow : relation.columns.length / 256 ≠ 79

/-- The first part of the Update message. -/
def oldPart {relation : RelationMessage} : Option (DeletedPart × RowTuple relation) → OldPart
  | none => .none
  | some (.key, tuple) => .key tuple.data
  | some (.old, tuple) => .old tuple.data

/-- The first tuple of the Update message. -/
def firstTuple {relation : RelationMessage} (old : Option (DeletedPart × RowTuple relation))
    (new : RowTuple relation) : RowTuple relation :=
  (old.map Prod.snd).getD new

/-- The first tuple of an Update message is read as the new one. -/
theorem UpdateMessage.parse_firstTuple {cache : RelationCache} {relationId : UInt32}
    {data : ByteVec} {marker : UInt8} {tuple : TupleData} {behind : Bytes}
    (at_ : At data 0 (beBytes 4 relationId.toNat ++ marker :: (tuple.encode ++ behind)))
    (narrow : tuple.columns.length / 256 ≠ 79) :
    ∃ last, UpdateMessage.parse cache data 0 =
      .ok { relationId, oldTuple := [], newTuple := tuple.values } last := by
  have behindMarker : At data 5 (tuple.encode ++ behind) := by
    have behindId := at_.advance
    rw [beBytes_length] at behindId
    exact behindId.advance_cons
  have read := parseRow_encode cache relationId tuple behindMarker
  rw [TupleData.encode_eq] at at_
  rw [UpdateMessage.parse_eq at_]
  exact (UpdateMessage.parseTuples_new (by rwa [ne_eq, highByte_eq_O]) read _).mpr rfl

namespace SourceChange

def encode (change : SourceChange) : Bytes :=
  match change.change with
  | .insert new => encodeInsert change.relation.relationId new.data
  | .update old new => (encodeUpdate change.relation.relationId (oldPart old) new.data).bytes
  | .delete part old => encodeDelete change.relation.relationId part old.data

/-- What `parseMessage` makes of it. -/
def decoded (change : SourceChange) : ReplicationMessage :=
  let relationId := change.relation.relationId
  match change.change with
  | .insert new => .insert ⟨relationId, chr 'N', new.data.values⟩
  | .update old new => .update ⟨relationId, [], (firstTuple old new).data.values⟩
  | .delete _ old => .delete ⟨relationId, old.data.values⟩

/-- The event that is built for it at `now`. -/
def event (jsoncpp : JsonCpp) (now : UInt64) (change : SourceChange) :
    Except Fault (Json × Bytes) :=
  let relation := change.relation
  let relationId := relation.relationId
  match change.change with
  | .insert new => insertEvent jsoncpp relation now ⟨relationId, chr 'N', new.data.values⟩
  | .update old new =>
      updateEvent jsoncpp relation now ⟨relationId, [], (firstTuple old new).data.values⟩
  | .delete _ old => deleteEvent jsoncpp relation now ⟨relationId, old.data.values⟩

theorem parseMessage_encode (change : SourceChange) (offset0 : Nat) (cache : RelationCache)
    {rawMessage : ByteVec} (bytes : rawMessage.bytes = change.encode) :
    PgOutputParser.parseMessage offset0 rawMessage cache = .ok (some change.decoded) cache := by
  obtain ⟨relation, change, narrow⟩ := change
  cases change with
  | insert new =>
    rw [← List.append_nil (encode _)] at bytes
    exact parseMessage_insert offset0 cache _ _ _ [] bytes
  | delete part old =>
    rw [← List.append_nil (encode _)] at bytes
    exact parseMessage_delete offset0 cache _ part _ _ [] bytes
  | update old new =>
    have narrow' (tuple : RowTuple relation) : tuple.data.columns.length / 256 ≠ 79 := by
      rw [tuple.full]
      exact narrow
    have at_ := At.start_dropFront bytes
    refine (parseMessage_update offset0 cache rawMessage bytes _).mpr ?_
    cases old with
    | none =>
      rw [← List.append_nil new.data.encode] at at_
      exact UpdateMessage.parse_firstTuple at_ (narrow' new)
    | some part =>
      obtain ⟨kind, old⟩ := part
      cases kind with
      | key => exact UpdateMessage.parse_firstTuple at_ (narrow' old)
      | old => exact UpdateMessage.parse_firstTuple at_ (narrow' old)

theorem event_ok (jsoncpp : JsonCpp) (now : UInt64) (change : SourceChange) :
    ∃ event key, change.event jsoncpp now = .ok (event, key) := by
  obtain ⟨relation, change, narrow⟩ := change
  have fits (tuple : RowTuple relation) :
      tuple.data.values.length ≤ relation.columns.length := by
    rw [TupleData.values, List.length_map, tuple.full]
  cases change with
  | insert new =>
    obtain ⟨primary, key, -, built⟩ := rowEvent_ok (str "INSERT") (str "data") jsoncpp relation now
      (fits new)
    exact ⟨_, key, built⟩
  | update old new =>
    let upd : UpdateMessage := ⟨relation.relationId, [], (firstTuple old new).data.values⟩
    have newFits : upd.newTuple.length ≤ relation.columns.length := fits (firstTuple old new)
    have noOld : upd.oldTuple.length ≤ relation.columns.length := Nat.zero_le _
    obtain ⟨primary, key, -, built⟩ := updateEvent_ok jsoncpp relation now noOld newFits
    exact ⟨_, key, built⟩
  | delete part old =>
    obtain ⟨primary, key, -, built⟩ := rowEvent_ok (str "DELETE") (str "before") jsoncpp relation
      now (fits old)
    exact ⟨_, key, built⟩

theorem produced {jsoncpp : JsonCpp} {now : UInt64} {change : SourceChange} {event : Json}
    {key : Bytes} (built : change.event jsoncpp now = .ok (event, key)) :
    Produced jsoncpp event := by
  obtain ⟨relation, change, narrow⟩ := change
  cases change with
  | insert new => exact .insert built
  | update old new => exact .update built
  | delete part old => exact .delete built

/-- What Kafka is given for it. -/
def sent (jsoncpp : JsonCpp) (now : UInt64) (change : SourceChange) :
    List (Option Bytes × Bytes) :=
  match change.event jsoncpp now with
  | .ok (event, key) => [(if key = [] then none else some key, jsoncpp.writeString event)]
  | .error _ => []

end SourceChange

/-! ## Messages -/

/-- The messages of such transactions. -/
inductive ChangeMessage where
  | begin (finalLsn commitTimestamp : UInt64) (xid : UInt32)
  | relation (relation : RelationMessage) (documented : relation.Documented)
  | change (source : SourceChange)
  | commit (flags : UInt8) (commitLsn endLsn commitTimestamp : UInt64)

namespace ChangeMessage

def encode : ChangeMessage → Bytes
  | begin finalLsn commitTimestamp xid => encodeBegin finalLsn commitTimestamp xid
  | relation table _ => table.encode
  | change source => source.encode
  | commit flags commitLsn endLsn commitTimestamp =>
      encodeCommit flags commitLsn endLsn commitTimestamp

/-- What `parseMessage` makes of it. -/
def decoded : ChangeMessage → ReplicationMessage
  | begin finalLsn commitTimestamp xid =>
      .begin ⟨finalLsn, commitTimestamp, UInt32.ofNat (leValue (beBytes 4 xid.toNat))⟩
  | relation table _ => .relation table
  | change source => source.decoded
  | commit flags commitLsn endLsn commitTimestamp =>
      .commit ⟨flags, commitLsn, endLsn, commitTimestamp⟩

/-- The relation cache behind it. -/
def cacheAfter (cache : RelationCache) : ChangeMessage → RelationCache
  | relation table _ => cacheRelation (.relation table) cache
  | _ => cache

theorem parseMessage_encode (message : ChangeMessage) (offset0 : Nat) (cache : RelationCache)
    {rawMessage : ByteVec} (bytes : rawMessage.bytes = message.encode) :
    PgOutputParser.parseMessage offset0 rawMessage cache =
      .ok (some message.decoded) (message.cacheAfter cache) := by
  cases message with
  | change source => exact source.parseMessage_encode offset0 cache bytes
  | begin finalLsn commitTimestamp xid =>
    rw [← List.append_nil (encode _)] at bytes
    exact parseMessage_begin offset0 cache _ _ _ _ [] bytes
  | relation table documented =>
    rw [← List.append_nil (encode _)] at bytes
    exact parseMessage_relation offset0 cache documented _ [] bytes
  | commit flags commitLsn endLsn commitTimestamp =>
    rw [← List.append_nil (encode _)] at bytes
    exact parseMessage_commit offset0 cache _ _ _ _ _ [] bytes

/-- The change that it is about. -/
def sourceChange : ChangeMessage → Option SourceChange
  | change source => some source
  | _ => none

/-- The relation of a change is the cached one. -/
def Known (cache : RelationCache) (message : ChangeMessage) : Prop :=
  ∀ source ∈ message.sourceChange,
    getCachedRelation cache source.relation.relationId = some source.relation

end ChangeMessage

/-! ## Rounds -/

/-- What `PQgetCopyData` has for a round: a message in a `'w'` packet, a keepalive, or nothing
to read. -/
inductive Brings : CopyData → Option ChangeMessage → Prop where
  | wal {rawMessage : ByteVec} {message : ChangeMessage} (isWal : IsWal rawMessage)
      (body : (rawMessage.dropFront 25).bytes = message.encode) :
      Brings (.data rawMessage) (some message)
  | keepalive {rawMessage : ByteVec} (isKeepalive : IsKeepalive rawMessage) :
      Brings (.data rawMessage) none
  | nothing : Brings .nothing none
  | done : Brings .done none

/-- A round with the message that it brings. -/
structure StreamRound where
  round : Round
  message : Option ChangeMessage
  brings : Brings round.copyData message

namespace StreamRound

/-- The change that comes in the round, with the time at which it is handled. -/
def handling (round : StreamRound) : Option (UInt64 × SourceChange) :=
  (round.message.bind ChangeMessage.sourceChange).map (round.round.env.now, ·)

/-- What Kafka is given in the round. -/
def sent (jsoncpp : JsonCpp) (round : StreamRound) : List (Option Bytes × Bytes) :=
  match round.handling with
  | some (now, source) => source.sent jsoncpp now
  | none => []

def cacheAfter (cache : RelationCache) (round : StreamRound) : RelationCache :=
  match round.message with
  | some message => message.cacheAfter cache
  | none => cache

def Known (cache : RelationCache) (round : StreamRound) : Prop :=
  ∀ message ∈ round.message, message.Known cache

end StreamRound

/-- Every relation comes before its changes. -/
def RelationsKnown : RelationCache → List StreamRound → Prop
  | _, [] => True
  | cache, round :: rounds => round.Known cache ∧ RelationsKnown (round.cacheAfter cache) rounds

namespace PostgresqlReplicator

/-- What handling leaves: more events, and another cache. -/
structure Sent (events : List (Option Bytes × Bytes)) (cache : RelationCache)
    (before after : PostgresqlReplicator) : Prop where
  initialised : after.Initialised
  accepted : after.accepted = before.accepted ++ events
  cache : after.relationCache = cache

variable {jsoncpp : JsonCpp} {env : Surroundings} {self : PostgresqlReplicator}

theorem Initialised.stays (initialised : self.Initialised) :
    Sent [] self.relationCache self self :=
  ⟨initialised, (List.append_nil _).symm, rfl⟩

theorem Initialised.answered (initialised : self.Initialised) (env : Surroundings) :
    Sent [] self.relationCache self (answered env self) := by
  refine ⟨?_, ?_, answered_relationCache env self⟩
  · rw [Initialised, answered_kafkaProducer]
    exact initialised
  · rw [accepted_answered, List.append_nil]

/-- The three handlers of rows send the event that they build. -/
theorem handleRow_sent (initialised : self.Initialised) (takes : env.kafka.produceErr = false)
    {relation : RelationMessage} {relationId : UInt32}
    (cached : getCachedRelation self.relationCache relationId = some relation)
    {build : RelationMessage → Except Fault (Json × Bytes)} {event : Json} {key : Bytes}
    (built : build relation = .ok (event, key)) :
    ∃ self', handleRow jsoncpp env relationId build self = .ok () self' ∧
      Sent [(if key = [] then none else some key, jsoncpp.writeString event)] self.relationCache
        self self' := by
  obtain ⟨producer, there, running⟩ := initialised
  have handled : handleRow jsoncpp env relationId build self = .ok () { self with
      kafkaProducer := some (producer.sendJson jsoncpp env.kafka event key).2 } := by
    simp only [handleRow, cached, there, built]
  have accepts : producer.accepts env.kafka = true := by
    rw [LibrdKafkaProducer.accepts, running, takes]
    rfl
  refine ⟨_, handled, ⟨_, rfl, ?_⟩, ?_, rfl⟩
  · rw [LibrdKafkaProducer.sendJson, LibrdKafkaProducer.sendMessage_isSome]
    exact running
  · rw [accepted_sendJson jsoncpp env.kafka event key there, if_pos accepts]

theorem handleMessage_change (initialised : self.Initialised) (takes : env.kafka.produceErr = false)
    (source : SourceChange) (cached : getCachedRelation self.relationCache
      source.relation.relationId = some source.relation) :
    ∃ self', handleMessage jsoncpp env (some source.decoded) self = .ok () self' ∧
      Sent (source.sent jsoncpp env.now) self.relationCache self self' := by
  obtain ⟨event, key, built⟩ := source.event_ok jsoncpp env.now
  rw [SourceChange.sent, built]
  obtain ⟨relation, change, narrow⟩ := source
  cases change with
  | insert new => exact handleRow_sent initialised takes cached built
  | update old new => exact handleRow_sent initialised takes cached built
  | delete part old => exact handleRow_sent initialised takes cached built

theorem handleMessage_decoded (initialised : self.Initialised)
    (takes : env.kafka.produceErr = false) (message : ChangeMessage)
    (known : message.Known self.relationCache) :
    ∃ self', handleMessage jsoncpp env (some message.decoded) self = .ok () self' ∧
      Sent (message.sourceChange.elim [] (·.sent jsoncpp env.now)) self.relationCache self
        self' := by
  cases message with
  | change source => exact handleMessage_change initialised takes source (known source rfl)
  | begin _ _ _ => exact ⟨self, rfl, initialised.stays⟩
  | relation _ _ => exact ⟨self, rfl, initialised.stays⟩
  | commit _ _ _ _ => exact ⟨self, rfl, initialised.stays⟩

theorem known_cacheAfter {message : ChangeMessage} {cache : RelationCache}
    (known : message.Known cache) : message.Known (message.cacheAfter cache) := by
  cases message with
  | change source => exact known
  | begin _ _ _ => exact known
  | commit _ _ _ _ => exact known
  | relation _ _ =>
    intro source mem
    cases mem

theorem dispatch_message (initialised : self.Initialised) (takes : env.kafka.produceErr = false)
    {message : ChangeMessage} {body : ByteVec} (bytes : body.bytes = message.encode)
    (known : message.Known self.relationCache) :
    ∃ self', dispatch jsoncpp env body self = .ok () self' ∧
      Sent (message.sourceChange.elim [] (·.sent jsoncpp env.now))
        (message.cacheAfter self.relationCache) self self' := by
  let decoded : PostgresqlReplicator :=
    { self with relationCache := message.cacheAfter self.relationCache }
  have parsed : parseMessage env body self = .ok (some message.decoded) decoded := by
    simp only [parseMessage,
      message.parseMessage_encode env.offset0.toNat self.relationCache bytes]
    rfl
  have initialised' : decoded.Initialised := initialised
  have known' : message.Known decoded.relationCache := known_cacheAfter known
  obtain ⟨self', ran, sent⟩ : ∃ self', handleMessage jsoncpp env (some message.decoded) decoded =
      .ok () self' ∧ Sent _ decoded.relationCache decoded self' :=
    handleMessage_decoded initialised' takes message known'
  rw [dispatch, bind_ok parsed]
  exact ⟨self', ran, sent.initialised, sent.accepted, sent.cache⟩

theorem StreamRound.sent_message {round : StreamRound} {message : ChangeMessage}
    (brought : round.message = some message) (jsoncpp : JsonCpp) :
    round.sent jsoncpp =
      message.sourceChange.elim [] (·.sent jsoncpp round.round.env.now) := by
  rw [StreamRound.sent, StreamRound.handling, brought, Option.bind_some]
  cases message.sourceChange <;> rfl

/-- A round of the loop. -/
theorem readRound_sent (initialised : self.Initialised) (round : StreamRound)
    (takes : round.round.env.kafka.produceErr = false) (known : round.Known self.relationCache) :
    ∃ self', readRound jsoncpp round.round self = .ok () self' ∧
      Sent (round.sent jsoncpp) (round.cacheAfter self.relationCache) self self' := by
  obtain ⟨⟨env, copyData⟩, message, brings⟩ := round
  cases brings with
  | nothing => exact ⟨self, readRound_nothing rfl self, initialised.stays⟩
  | done => exact ⟨_, readRound_done rfl self, initialised.answered env⟩
  | @keepalive rawMessage isKeepalive =>
    have outcome := parsePacket_parsed jsoncpp env self rawMessage
    rw [readRound_data jsoncpp rfl]
    generalize parsePacket jsoncpp env rawMessage self = result at outcome ⊢
    have notWal : ¬ IsWal rawMessage := by
      intro isWal
      exact absurd (isKeepalive.symm.trans isWal.1) (by decide)
    cases outcome with
    | skipped _ notKeepalive => exact absurd isKeepalive notKeepalive
    | completed isWal _ _ => exact absurd isWal notWal
    | down isWal _ _ => exact absurd isWal notWal
    | keepalive _ _ => exact ⟨_, rfl, initialised.answered env⟩
  | @wal rawMessage message isWal body =>
    have outcome := parsePacket_parsed jsoncpp env self rawMessage
    rw [readRound_data jsoncpp rfl]
    generalize parsePacket jsoncpp env rawMessage self = result at outcome ⊢
    have initialised' : (received rawMessage self).Initialised := initialised
    have known' : message.Known (received rawMessage self).relationCache := known message rfl
    obtain ⟨self', ran, sent⟩ : ∃ self', dispatch jsoncpp env (rawMessage.dropFront 25)
        (received rawMessage self) = .ok () self' ∧ Sent _ _ _ self' :=
      dispatch_message initialised' takes body known'
    cases outcome with
    | skipped notWal _ => exact absurd isWal notWal
    | keepalive notWal _ => exact absurd isWal notWal
    | down _ _ down =>
      have contra := down.symm.trans ran
      cases contra
    | completed _ _ completed =>
      have same := completed.symm.trans ran
      cases same
      have running : (applied self').Initialised := sent.initialised
      have answers := running.answered env
      refine ⟨_, rfl, answers.initialised, ?_, ?_⟩
      · rw [accepted_answered, StreamRound.sent_message rfl]
        exact sent.accepted
      · exact answers.cache.trans sent.cache

end PostgresqlReplicator

/-! ## Sessions -/

namespace PostgresqlReplicator.Session

variable {jsoncpp : JsonCpp} {session : Session}

/-- The session after the rounds. -/
def reads (jsoncpp : JsonCpp) (session : Session) (rounds : List StreamRound) : Session :=
  runFrom (step jsoncpp) session (rounds.map StreamRound.round)

/-- The loop goes on whatever the rounds bring, and Kafka has got the event of every change, in
their order. -/
theorem reads_sent (up : session.down = false) (initialised : session.replicator.Initialised)
    {rounds : List StreamRound}
    (takes : ∀ round ∈ rounds, round.round.env.kafka.produceErr = false)
    (known : RelationsKnown session.replicator.relationCache rounds) :
    (reads jsoncpp session rounds).down = false ∧
      (reads jsoncpp session rounds).replicator.accepted =
        session.replicator.accepted ++ rounds.flatMap (·.sent jsoncpp) := by
  induction rounds generalizing session with
  | nil => exact ⟨up, (List.append_nil _).symm⟩
  | cons round rounds ih =>
    obtain ⟨self', ran, sent⟩ : ∃ self', readRound jsoncpp round.round session.replicator =
        .ok () self' ∧ Sent _ _ _ self' :=
      readRound_sent initialised round (takes round List.mem_cons_self) known.1
    let next : Session :=
      { replicator := self'
        received := recordChange round.round.copyData session.replicator self' session.received }
    have first : reads jsoncpp session (round :: rounds) = reads jsoncpp next rounds := by
      show runFrom (step jsoncpp) (step jsoncpp session round.round) _ = _
      rw [step_ok up ran]
      rfl
    have rest : RelationsKnown next.replicator.relationCache rounds := by
      show RelationsKnown self'.relationCache rounds
      rw [sent.cache]
      exact known.2
    have initialised' : next.replicator.Initialised := sent.initialised
    obtain ⟨up', accepted⟩ := ih rfl initialised'
      (fun later mem => takes later (List.mem_cons_of_mem _ mem)) rest
    rw [first]
    refine ⟨up', ?_⟩
    rw [accepted, List.flatMap_cons, ← List.append_assoc]
    exact congrArg (· ++ rounds.flatMap (·.sent jsoncpp)) sent.accepted

end PostgresqlReplicator.Session

end KafkaReplication
