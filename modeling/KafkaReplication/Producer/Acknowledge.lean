import KafkaReplication.Producer.Session

/-!
# Acknowledging changes

A status update tells the server that it may discard its log up to the reported position. The
replicator reports the position of a packet as soon as `handleMessage` has returned, while
the packet's event may have been dropped, refused by `produce`, or still be under way.
`DeliversInCall` asks for the one case that is safe: Kafka reports the delivery of each
event while it is being handed over.
-/

namespace KafkaReplication
open Misc

namespace PostgresqlReplicator

/-! ## Events -/

/-- What happens to the Kafka producer in one round. -/
inductive KafkaStep (jsoncpp : JsonCpp) (outcome : KafkaOutcome) :
    Option LibrdKafkaProducer → Option LibrdKafkaProducer → Prop where
  | same (kafkaProducer : Option LibrdKafkaProducer) :
      KafkaStep jsoncpp outcome kafkaProducer kafkaProducer
  | sent (producer : LibrdKafkaProducer) (json : Json) (key : Bytes) :
      KafkaStep jsoncpp outcome (some producer)
        (some (producer.sendJson jsoncpp outcome json key).2)

/-- The Kafka producer is there, `produce` takes the next event and `poll` has its success. -/
def DeliversNextEvent (kafkaProducer : Option LibrdKafkaProducer) (outcome : KafkaOutcome) :
    Prop :=
  ∃ producer, kafkaProducer = some producer ∧ producer.DeliversNext outcome

section Events

variable {jsoncpp : JsonCpp} {outcome : KafkaOutcome}
  {before after : Option LibrdKafkaProducer}

/-- What was delivered stays delivered. -/
theorem KafkaStep.delivered (kafka : KafkaStep jsoncpp outcome before after)
    {change : ReceivedChange} (delivered : change.Delivered before) : change.Delivered after := by
  cases kafka with
  | same _ => exact delivered
  | sent producer json key =>
    obtain ⟨event, taken, _, present, reported⟩ := delivered
    cases present
    exact ⟨event, taken, _, rfl, reported.sendMessage _ _ _⟩

theorem not_delivered_same (lsn : Nat) (kafkaProducer : Option LibrdKafkaProducer) :
    ¬ (ReceivedChange.mk lsn (eventBetween kafkaProducer kafkaProducer)).Delivered
      kafkaProducer := by
  rintro ⟨event, taken, _⟩
  rw [eventBetween, if_neg (Nat.lt_irrefl _)] at taken
  cases taken

/-- The event of a call has been delivered when it returns just when Kafka delivers it in
the call. -/
theorem delivered_sent_iff (lsn : Nat) (producer : LibrdKafkaProducer) (json : Json)
    (key : Bytes) :
    (ReceivedChange.mk lsn (eventBetween (some producer)
        (some (producer.sendJson jsoncpp outcome json key).2))).Delivered
          (some (producer.sendJson jsoncpp outcome json key).2) ↔
      DeliversNextEvent (some producer) outcome := by
  have count := producer.sendMessage_acceptedCount outcome key (jsoncpp.writeString json)
  have delivered := producer.sendMessage_delivered_iff outcome key (jsoncpp.writeString json)
  have next : DeliversNextEvent (some producer) outcome ↔ producer.DeliversNext outcome := by
    simp [DeliversNextEvent]
  rw [next, ← delivered]
  simp only [ReceivedChange.Delivered, eventBetween, eventCount, EventDelivered,
    LibrdKafkaProducer.sendJson, Option.elim_some]
  by_cases taken : producer.producer.isSome ∧ outcome.produceErr = false
  · rw [if_pos taken] at count
    simp [count]
  · rw [if_neg taken] at count
    have undelivered : ¬ producer.DeliversNext outcome := fun delivers =>
      taken ⟨delivers.1, delivers.2.1⟩
    simp [count, delivered, undelivered]

end Events

/-! ## Change messages -/

theorem changeTypes {msgType : UInt8} (change : msgType ∈ str "IUDT") :
    msgType = chr 'I' ∨ msgType = chr 'U' ∨ msgType = chr 'D' ∨ msgType = chr 'T' := by
  have types : str "IUDT" = [chr 'I', chr 'U', chr 'D', chr 'T'] := rfl
  rw [types] at change
  simpa using change

/-- Parsing a change message leaves the relation cache as it is. -/
theorem cacheRelation_change {offset0 : Nat} {cache : RelationCache} {msgType : UInt8}
    {cleanData : ByteVec} {msg : ReplicationMessage} (change : msgType ∈ str "IUDT")
    (parsed : PgOutputParser.parseBody offset0 cache msgType cleanData = .ok (some msg)) :
    PgOutputParser.cacheRelation msg cache = cache := by
  have kind {α : Type} {result : Except Fault α} {f : α → ReplicationMessage}
      (notRelation : ∀ a, PgOutputParser.cacheRelation (f a) cache = cache)
      (parsed : result.map (some ∘ f) = .ok (some msg)) :
      PgOutputParser.cacheRelation msg cache = cache := by
    cases result with
    | error fault => cases parsed
    | ok a =>
      cases parsed
      exact notRelation a
  rcases changeTypes change with rfl | rfl | rfl | rfl
  · exact kind (f := .insert) (fun _ => rfl) parsed
  · exact kind (f := .update) (fun _ => rfl) parsed
  · exact kind (f := .delete) (fun _ => rfl) parsed
  · exact kind (f := .truncate) (fun _ => rfl) parsed

/-- The message in the packet, if it parses, will make an event. -/
def RoutablePacket (env : Surroundings) (self : PostgresqlReplicator) (rawMessage : ByteVec) :
    Prop :=
  ∀ msgType msg, (rawMessage.bytes.drop 25).head? = some msgType →
    PgOutputParser.parseBody env.offset0.toNat self.relationCache msgType
      ((rawMessage.dropFront 25).dropFront 1) = .ok (some msg) →
    Routable self msg

/-- A change message that is handled to the end has its event delivered just when it makes one
and Kafka delivers that in the call. -/
theorem change_delivered_iff {jsoncpp : JsonCpp} {env : Surroundings}
    {self self' : PostgresqlReplicator} {rawMessage : ByteVec} (isChange : IsChange rawMessage)
    (run : dispatch jsoncpp env (rawMessage.dropFront 25) (received rawMessage self) =
      .ok () self') (lsn : Nat) :
    KafkaStep jsoncpp env.kafka self.kafkaProducer self'.kafkaProducer ∧
      ((ReceivedChange.mk lsn (eventBetween self.kafkaProducer self'.kafkaProducer)).Delivered
          self'.kafkaProducer ↔
        RoutablePacket env self rawMessage ∧
          DeliversNextEvent self.kafkaProducer env.kafka) := by
  obtain ⟨_, msgType, change, head⟩ := isChange
  have outcome := dispatch_dispatched jsoncpp env (received rawMessage self)
    (rawMessage.dropFront 25)
  rw [run] at outcome
  cases outcome with
  | handled bytes parsed handled =>
    rename_i msgType' rest msg
    have sameType : msgType' = msgType := by
      rw [ByteVec.dropFront_bytes] at bytes
      rw [bytes] at head
      exact Option.some.inj head
    subst sameType
    have cache : PgOutputParser.cacheRelation msg self.relationCache = self.relationCache :=
      cacheRelation_change change parsed
    have routablePacket : RoutablePacket env self rawMessage ↔ Routable self msg := by
      constructor
      · exact fun routable => routable _ msg head parsed
      · intro routable msgType' msg' head' parsed'
        rw [head] at head'
        cases head'
        have same := parsed.symm.trans parsed'
        cases same
        exact routable
    have routable_iff : Routable { received rawMessage self with
        relationCache := PgOutputParser.cacheRelation msg self.relationCache } msg ↔
          Routable self msg := by
      rw [cache]
      cases msg <;> exact Iff.rfl
    cases handled with
    | sent routable one =>
      obtain ⟨producer, json, key, present, rfl⟩ := one
      have present : self.kafkaProducer = some producer := present
      rw [present]
      refine ⟨.sent producer json key, ?_⟩
      rw [delivered_sent_iff]
      exact ⟨fun delivers => ⟨routablePacket.mpr (routable_iff.mp routable), delivers⟩,
        fun delivers => delivers.2⟩
    | dropped unroutable =>
      refine ⟨.same _, ?_⟩
      constructor
      · intro delivered
        exact absurd delivered (not_delivered_same lsn self.kafkaProducer)
      · intro delivers
        exact absurd (routable_iff.mpr (routablePacket.mp delivers.1)) unroutable

/-- Whatever the packet, its handling takes at most one event to Kafka. -/
theorem dispatch_kafkaStep {jsoncpp : JsonCpp} {env : Surroundings}
    {self self' : PostgresqlReplicator} {body : ByteVec}
    (run : dispatch jsoncpp env body self = .ok () self') :
    KafkaStep jsoncpp env.kafka self.kafkaProducer self'.kafkaProducer := by
  have outcome := dispatch_dispatched jsoncpp env self body
  rw [run] at outcome
  cases outcome with
  | handled _ _ handled =>
    cases handled with
    | sent _ one =>
      obtain ⟨producer, json, key, present, rfl⟩ := one
      have present : self.kafkaProducer = some producer := present
      rw [present]
      exact .sent producer json key
    | dropped _ => exact .same _

/-! ## Rounds -/

namespace Session

/-- Every received change has been delivered. -/
def AllDelivered (session : Session) : Prop :=
  ∀ change ∈ session.received, change.Delivered session.replicator.kafkaProducer

/-- If the round sends a status update, every change received up to now whose position is not
above the reported one has been delivered. -/
def Acknowledges (jsoncpp : JsonCpp) (session : Session) (round : Round) : Prop :=
  ∀ reply,
    (step jsoncpp session round).replicator.sent = session.replicator.sent ++ [reply] →
    ∀ change ∈ (step jsoncpp session round).received, change.lsn ≤ reportedLsn reply →
      change.Delivered (step jsoncpp session round).replicator.kafkaProducer

/-- If the round brings a change message that is handled to the end, then the message makes an
event, and Kafka takes that and reports its delivery before `sendJson` returns. -/
def DeliversInCall (jsoncpp : JsonCpp) (session : Session) (round : Round) : Prop :=
  session.down = false → ∀ rawMessage, round.copyData = .data rawMessage → IsChange rawMessage →
    (∃ self', dispatch jsoncpp round.env (rawMessage.dropFront 25)
      (PostgresqlReplicator.received rawMessage session.replicator) = .ok () self') →
    RoutablePacket round.env session.replicator rawMessage ∧
      DeliversNextEvent session.replicator.kafkaProducer round.env.kafka

/-- What a round does to the received changes and their delivery. -/
inductive Effect (jsoncpp : JsonCpp) (session : Session) (round : Round) : Session → Prop where
  /-- The session is down behind the round, which has not been answered. -/
  | down {next : Session} (isDown : next.down = true)
      (sent : next.replicator.sent = session.replicator.sent)
      (delivers : DeliversInCall jsoncpp session round) : Effect jsoncpp session round next
  /-- No change message has come in. -/
  | other {next : Session} (received : next.received = session.received)
      (kafka : KafkaStep jsoncpp round.env.kafka session.replicator.kafkaProducer
        next.replicator.kafkaProducer)
      (delivers : DeliversInCall jsoncpp session round) : Effect jsoncpp session round next
  /-- A change message has been handled to the end, and its position reported if there is a
  connection. -/
  | change {next : Session} {change : ReceivedChange}
      (received : next.received = session.received ++ [change])
      (kafka : KafkaStep jsoncpp round.env.kafka session.replicator.kafkaProducer
        next.replicator.kafkaProducer)
      (own : change.Delivered next.replicator.kafkaProducer ↔
        DeliversInCall jsoncpp session round)
      (answered : round.env.connectionOk = true → ∃ reply,
        next.replicator.sent = session.replicator.sent ++ [reply] ∧
          reportedLsn reply = change.lsn) : Effect jsoncpp session round next

section Steps

variable {jsoncpp : JsonCpp} {session : Session} {round : Round}

/-- A round without a change message has nothing to deliver. -/
theorem deliversInCall_of_not
    (notChange : ∀ rawMessage, round.copyData = .data rawMessage → ¬ IsChange rawMessage) :
    DeliversInCall jsoncpp session round :=
  fun _ rawMessage copy isChange _ => absurd isChange (notChange rawMessage copy)

/-- Neither has one that is not data. -/
theorem deliversInCall_of_noData (noData : ∀ rawMessage, round.copyData ≠ .data rawMessage) :
    DeliversInCall jsoncpp session round :=
  deliversInCall_of_not fun rawMessage data => absurd data (noData rawMessage)

section Data

variable {rawMessage : ByteVec} {self' : PostgresqlReplicator}

theorem deliversInCall_of_notChange (copy : round.copyData = .data rawMessage)
    (notChange : ¬ IsChange rawMessage) : DeliversInCall jsoncpp session round := by
  apply deliversInCall_of_not
  intro other data
  rw [copy] at data
  cases data
  exact notChange

/-- For a change message that is handled to the end it is about that message. -/
theorem deliversInCall_iff (up : session.down = false) (copy : round.copyData = .data rawMessage)
    (isChange : IsChange rawMessage)
    (completed : dispatch jsoncpp round.env (rawMessage.dropFront 25)
      (PostgresqlReplicator.received rawMessage session.replicator) = .ok () self') :
    DeliversInCall jsoncpp session round ↔
      RoutablePacket round.env session.replicator rawMessage ∧
        DeliversNextEvent session.replicator.kafkaProducer round.env.kafka := by
  constructor
  · intro delivers
    exact delivers up rawMessage copy isChange ⟨self', completed⟩
  · intro delivers _ other data _ _
    rw [copy] at data
    cases data
    exact delivers

theorem deliversInCall_of_down (copy : round.copyData = .data rawMessage) {fault : Fault}
    (down : dispatch jsoncpp round.env (rawMessage.dropFront 25)
      (PostgresqlReplicator.received rawMessage session.replicator) = .error fault self') :
    DeliversInCall jsoncpp session round := by
  intro _ other data _ completes
  obtain ⟨_, completed⟩ := completes
  rw [copy] at data
  cases data
  rw [down] at completed
  cases completed

theorem step_effect_data (up : session.down = false) (copy : round.copyData = .data rawMessage) :
    Effect jsoncpp session round (step jsoncpp session round) := by
  have run := readRound_data jsoncpp copy session.replicator
  have outcome := parsePacket_parsed jsoncpp round.env session.replicator rawMessage
  obtain ⟨stats, sent⟩ := dispatch_frame jsoncpp round.env
    (PostgresqlReplicator.received rawMessage session.replicator) (rawMessage.dropFront 25)
  generalize parsePacket jsoncpp round.env rawMessage session.replicator = result at outcome run
  cases outcome with
  | skipped notWal _ =>
    have no : ¬ IsChange rawMessage := fun isChange => notWal isChange.1
    rw [step_ok up run, copy]
    exact .other (if_neg no) (.same _) (deliversInCall_of_notChange copy no)
  | keepalive notWal _ =>
    have no : ¬ IsChange rawMessage := fun isChange => notWal isChange.1
    rw [step_ok up run, copy]
    refine .other (if_neg no) ?_ (deliversInCall_of_notChange copy no)
    rw [answered_kafkaProducer]
    exact .same _
  | completed isWal notKeepalive completed =>
    rename_i self'
    rw [step_ok up run, copy]
    rw [completed, finalState] at stats sent
    by_cases isChange : IsChange rawMessage
    · obtain ⟨kafka, own⟩ := change_delivered_iff isChange completed (packetLsn rawMessage)
      refine .change (if_pos isChange) ?_ ?_ ?_
      · rw [answered_kafkaProducer]
        exact kafka
      · rw [answered_kafkaProducer, deliversInCall_iff up copy isChange completed]
        exact own
      · intro connected
        rcases answered_cases round.env (applied self') with
          ⟨closed, _⟩ | ⟨_, reply, sent', reported, _⟩
        · rw [connected] at closed
          cases closed
        · refine ⟨reply, sent'.trans (congrArg (· ++ [reply]) sent), ?_⟩
          rw [reported, (applied_lsn isWal stats).1]
    · refine .other (if_neg isChange) ?_ (deliversInCall_of_notChange copy isChange)
      rw [answered_kafkaProducer]
      have kafka := dispatch_kafkaStep completed
      exact kafka
  | down isWal _ down =>
    rw [down, finalState] at sent
    rw [step_error up run]
    exact .down rfl sent (deliversInCall_of_down copy down)

end Data

theorem step_effect (jsoncpp : JsonCpp) (session : Session) (round : Round) :
    Effect jsoncpp session round (step jsoncpp session round) := by
  cases up : session.down with
  | true =>
    rw [step_down up]
    refine .down up rfl ?_
    intro isUp
    rw [up] at isUp
    cases isUp
  | false =>
    cases copy : round.copyData with
    | nothing =>
      rw [step_ok up (readRound_nothing copy _), copy]
      exact .other rfl (.same _) (deliversInCall_of_noData (by simp [copy]))
    | failed =>
      rw [step_error up (readRound_failed copy _)]
      exact .down rfl rfl (deliversInCall_of_noData (by simp [copy]))
    | done =>
      rw [step_ok up (readRound_done copy _), copy]
      refine .other rfl ?_ (deliversInCall_of_noData (by simp [copy]))
      rw [answered_kafkaProducer]
      exact .same _
    | data rawMessage => exact step_effect_data up copy

theorem AllDelivered.mono {next : Session} (all : AllDelivered session)
    (kafka : KafkaStep jsoncpp round.env.kafka session.replicator.kafkaProducer
      next.replicator.kafkaProducer) {change : ReceivedChange}
    (member : change ∈ session.received) : change.Delivered next.replicator.kafkaProducer :=
  kafka.delivered (all change member)

/-- After a round that delivers its event in the call, every received change has been delivered,
or the session has gone down without an answer. -/
theorem delivered_or_silent (all : session.AllDelivered)
    (delivers : DeliversInCall jsoncpp session round) :
    (step jsoncpp session round).AllDelivered ∨
      ((step jsoncpp session round).down = true ∧
        (step jsoncpp session round).replicator.sent = session.replicator.sent) := by
  have effect := step_effect jsoncpp session round
  generalize step jsoncpp session round = next at effect
  cases effect with
  | down isDown sent _ => exact .inr ⟨isDown, sent⟩
  | other received kafka _ =>
    refine .inl ?_
    intro change member
    rw [received] at member
    exact all.mono kafka member
  | change received kafka own _ =>
    refine .inl ?_
    intro change member
    rw [received] at member
    rcases List.mem_append.mp member with before | new
    · exact all.mono kafka before
    · rw [List.mem_singleton.mp new]
      exact own.mpr delivers

/-- The invariant of sessions that deliver each event in its call. -/
def DownOrDelivered (session : Session) : Prop := session.down = true ∨ session.AllDelivered

theorem downOrDelivered_step (inv : session.DownOrDelivered)
    (delivers : DeliversInCall jsoncpp session round) :
    (step jsoncpp session round).DownOrDelivered := by
  rcases inv with down | all
  · rw [step_down down]
    exact .inl down
  · rcases delivered_or_silent all delivers with allNext | ⟨down, _⟩
    · exact .inr allNext
    · exact .inl down

theorem silent_no_reply {sent sent' : List Bytes} (same : sent' = sent) (reply : Bytes) :
    sent' ≠ sent ++ [reply] := by
  rw [same]
  simp

theorem acknowledges_of_delivers (inv : session.DownOrDelivered)
    (delivers : DeliversInCall jsoncpp session round) : Acknowledges jsoncpp session round := by
  intro reply replied change member _
  rcases inv with down | all
  · rw [step_down down] at replied
    exact absurd replied (silent_no_reply rfl reply)
  · rcases delivered_or_silent all delivers with allNext | ⟨_, silent⟩
    · exact allNext change member
    · exact absurd replied (silent_no_reply silent reply)

/-- With a connection the position of a change message is reported at once, so an event that
was not delivered in its call is acknowledged without having been delivered. -/
theorem delivers_of_acknowledges (connected : round.env.connectionOk = true)
    (acknowledges : Acknowledges jsoncpp session round) : DeliversInCall jsoncpp session round := by
  have effect := step_effect jsoncpp session round
  unfold Acknowledges at acknowledges
  generalize step jsoncpp session round = next at effect acknowledges
  cases effect with
  | down _ _ delivers => exact delivers
  | other _ _ delivers => exact delivers
  | change received kafka own answered =>
    rename_i change
    obtain ⟨reply, sent, reported⟩ := answered connected
    have member : change ∈ next.received := by
      rw [received]
      exact List.mem_append_right _ List.mem_cons_self
    exact own.mp (acknowledges reply sent change member (Nat.le_of_eq reported.symm))

end Steps

/-- In every session whose rounds deliver each event in its call, no status update runs ahead
of delivery; and while the connection lasts these are the only such sessions. -/
theorem acknowledges_run (jsoncpp : JsonCpp) (cache : RelationCache)
    (kafkaProducer : Option LibrdKafkaProducer) (restartLsnHigh restartLsnLow : UInt32)
    (rounds : List Round) :
    (Always (step jsoncpp) (DeliversInCall jsoncpp)
        (start cache kafkaProducer restartLsnHigh restartLsnLow) rounds →
      Always (step jsoncpp) (Acknowledges jsoncpp)
        (start cache kafkaProducer restartLsnHigh restartLsnLow) rounds) ∧
    ((∀ round ∈ rounds, round.env.connectionOk = true) →
      (Always (step jsoncpp) (Acknowledges jsoncpp)
          (start cache kafkaProducer restartLsnHigh restartLsnLow) rounds ↔
        Always (step jsoncpp) (DeliversInCall jsoncpp)
          (start cache kafkaProducer restartLsnHigh restartLsnLow) rounds)) := by
  have nothing : (start cache kafkaProducer restartLsnHigh restartLsnLow).DownOrDelivered :=
    .inr fun change member => by cases member
  constructor
  · exact Always.of_invariant (fun _ _ => downOrDelivered_step)
      (fun _ _ => acknowledges_of_delivers) nothing
  · intro connected
    have kept (session : Session) (round : Round) (_ : round.env.connectionOk = true)
        (inv : session.DownOrDelivered) (delivers : DeliversInCall jsoncpp session round) :
        (step jsoncpp session round).DownOrDelivered := downOrDelivered_step inv delivers
    have same (session : Session) (round : Round) (isConnected : round.env.connectionOk = true)
        (inv : session.DownOrDelivered) :
        Acknowledges jsoncpp session round ↔ DeliversInCall jsoncpp session round :=
      ⟨delivers_of_acknowledges isConnected, acknowledges_of_delivers inv⟩
    exact always_iff kept same connected nothing

/-- A relation with one key column. -/
def moodRelation : RelationMessage where
  relationId := 7
  nspname := str "public"
  relationName := str "moods"
  replicaIdentity := chr 'd'
  columns := [⟨1, str "id", 23, -1⟩]

/-- A `'w'` packet at position 0/10 that inserts the row `1` into it. -/
def insertPacket : ByteVec :=
  ⟨str "w" ++ List.replicate 8 0 ++ [0, 0, 0, 0, 0, 0, 0, 10] ++ List.replicate 8 0 ++
    str "I" ++ [0, 0, 0, 7] ++ str "N" ++ [0, 1] ++ str "t" ++ [0, 0, 0, 1] ++ str "1",
    by decide⟩

/-- A replicator that has this relation in its cache and a Kafka producer. -/
def moodSession : Session :=
  start (fun id => if id = 7 then some moodRelation else none) (some { producer := some {} }) 0 5

/-- The ordinary course of things: `produce` accepts the event and no report is there yet when
the position of the insert is reported. -/
theorem insert_acknowledged_undelivered :
    ¬ Always (step (JsonCpp.compact .null)) (Acknowledges (JsonCpp.compact .null)) moodSession
      [⟨{}, .data insertPacket⟩] := by
  rintro ⟨acknowledges, _⟩
  have replied : (step (JsonCpp.compact .null) moodSession ⟨{}, .data insertPacket⟩).replicator.sent =
      moodSession.replicator.sent ++ [standbyReply ⟨0, 10, 0, 10, 0, 10, 0⟩ 0] := by decide
  have arrived : ⟨10, some 0⟩ ∈
      (step (JsonCpp.compact .null) moodSession ⟨{}, .data insertPacket⟩).received := by decide
  obtain ⟨event, _, producer, present, rdKafka, there, delivered⟩ :=
    acknowledges _ replied _ arrived (by decide)
  cases present
  cases there
  cases delivered

end Session

end PostgresqlReplicator

end KafkaReplication
