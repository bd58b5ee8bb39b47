import KafkaReplication.Consumer.LibRdkafkaConsumer
import KafkaReplication.Pipeline.Delivery
import KafkaReplication.Producer.Stored

/-!
# What both sides count

`ProducerStats` and `ConsumerStats` (`shared_structures.h:86-100`) side by side: a session of the
producer (`producer_azs/postgresql_replicator.cpp:168-317`), and a consumer
(`consumer_bo/consumer_librdkafka.cpp:90-162`) that gets what the brokers have kept of it, in
whatever order.
-/

namespace KafkaReplication
open Misc

namespace PostgresqlReplicator

section Sent

variable {jsoncpp : JsonCpp}

/-- Every message that Kafka has taken is an event of a handler. -/
def AllProduced (jsoncpp : JsonCpp) (self : PostgresqlReplicator) : Prop :=
  ∀ message ∈ self.accepted, ∃ event, Produced jsoncpp event ∧
    message.2 = jsoncpp.writeString event

theorem AllProduced.of_eq {self self' : PostgresqlReplicator} (all : AllProduced jsoncpp self)
    (same : self'.kafkaProducer = self.kafkaProducer) : AllProduced jsoncpp self' := by
  unfold AllProduced accepted
  rw [same]
  exact all

theorem SendsProduced.allProduced {self self' : PostgresqlReplicator}
    (sends : SendsProduced jsoncpp self self') (all : AllProduced jsoncpp self) :
    AllProduced jsoncpp self' := by
  intro message mem
  rcases sends with same | ⟨event, key, produced, more⟩
  · rw [same] at mem
    exact all message mem
  · rw [more] at mem
    rcases List.mem_append.mp mem with before | new
    · exact all message before
    · rw [List.mem_singleton.mp new]
      exact ⟨event, produced, rfl⟩

theorem dispatch_sendsProduced {env : Surroundings} {self self' : PostgresqlReplicator}
    {body : ByteVec} (run : dispatch jsoncpp env body self = .ok () self') :
    SendsProduced jsoncpp self self' := by
  have outcome := dispatch_dispatched jsoncpp env self body
  rw [run] at outcome
  cases outcome with
  | @handled _ _ msg _ bytes parsed handled =>
    have parse : parseMessage env body self = .ok (some msg)
        { self with relationCache := PgOutputParser.cacheRelation msg self.relationCache } := by
      simp only [parseMessage, PgOutputParser.parseMessage, bytes, parsed]
    rw [dispatch, bind_ok parse] at run
    have sends := handleMessage_sendsProduced run
    exact sends

theorem parsePacket_allProduced (env : Surroundings) {self : PostgresqlReplicator}
    (rawMessage : ByteVec) (all : AllProduced jsoncpp self) :
    AllProduced jsoncpp (finalState (parsePacket jsoncpp env rawMessage self)) := by
  have outcome := parsePacket_parsed jsoncpp env self rawMessage
  generalize parsePacket jsoncpp env rawMessage self = result at outcome
  cases outcome with
  | skipped _ _ => exact all
  | keepalive _ _ => exact all.of_eq (answered_kafkaProducer env self)
  | completed _ _ run =>
    have before : AllProduced jsoncpp (received rawMessage self) := all.of_eq rfl
    have sent := (dispatch_sendsProduced run).allProduced before
    exact sent.of_eq (answered_kafkaProducer env _)
  | down _ _ run =>
    have same := dispatch_down run
    exact all.of_eq same

theorem readRound_allProduced (round : Round) {self : PostgresqlReplicator}
    (all : AllProduced jsoncpp self) :
    AllProduced jsoncpp (finalState (readRound jsoncpp round self)) := by
  cases copy : round.copyData with
  | nothing =>
    rw [readRound_nothing copy]
    exact all
  | failed =>
    rw [readRound_failed copy]
    exact all
  | done =>
    rw [readRound_done copy]
    exact all.of_eq (answered_kafkaProducer _ _)
  | data rawMessage =>
    rw [readRound_data jsoncpp copy]
    exact parsePacket_allProduced round.env rawMessage all

theorem Session.step_allProduced (session : Session) (round : Round)
    (all : AllProduced jsoncpp session.replicator) :
    AllProduced jsoncpp (step jsoncpp session round).replicator := by
  cases up : session.down with
  | true =>
    rw [step_down up]
    exact all
  | false =>
    have read := readRound_allProduced round all
    cases run : readRound jsoncpp round session.replicator with
    | ok result self' =>
      rw [step_ok up run]
      rwa [run] at read
    | error fault self' =>
      rw [step_error up run]
      rwa [run] at read

end Sent

end PostgresqlReplicator

/-! ## Both sides -/

/-- The accepted values are the texts of events that the handlers have built. -/
structure RdKafkaProducer.Sent (rdKafka : RdKafkaProducer) (jsoncpp : JsonCpp)
    (events : List Json) : Prop where
  produced : ∀ event ∈ events, Produced jsoncpp event
  values : rdKafka.accepted.map Prod.snd = events.map jsoncpp.writeString


section BothSides

variable {jsoncpp : JsonCpp} {errs : Bytes → Bytes} {rdKafka : RdKafkaProducer}

open PostgresqlReplicator LibrdKafkaProducer LibRdkafkaConsumer ConsumeResult

theorem sent_of_accepted {accepted : List (Option Bytes × Bytes)}
    (all : ∀ message ∈ accepted, ∃ event, Produced jsoncpp event ∧
      message.2 = jsoncpp.writeString event) :
    ∃ events : List Json, (∀ event ∈ events, Produced jsoncpp event) ∧
      accepted.map Prod.snd = events.map jsoncpp.writeString := by
  induction accepted with
  | nil => exact ⟨[], List.forall_mem_nil _, rfl⟩
  | cons message accepted ih =>
    obtain ⟨⟨event, first, text⟩, others⟩ := List.forall_mem_cons.mp all
    obtain ⟨events, produced, texts⟩ := ih others
    refine ⟨event :: events, List.forall_mem_cons.mpr ⟨first, produced⟩, ?_⟩
    rw [List.map_cons, List.map_cons, text, texts]

/-- What any session has handed over are events. -/
theorem run_sent (jsoncpp : JsonCpp) (cache : RelationCache) (restartLsnHigh restartLsnLow : UInt32)
    (rounds : List Round) (reports : List DeliveryReport) {kafka : LibrdKafkaProducer}
    (ends : (runFrom (Session.step jsoncpp)
      (Session.start cache (some (init true {}).2) restartLsnHigh restartLsnLow)
        rounds).replicator.kafkaProducer = some kafka)
    (flushed : (kafka.flush reports).2.producer = some rdKafka) :
    ∃ events, rdKafka.Sent jsoncpp events := by
  have start : AllProduced jsoncpp
      (Session.start cache (some (init true {}).2) restartLsnHigh restartLsnLow).replicator := by
    intro message mem
    cases mem
  have all := runFrom_invariant Session.step_allProduced start rounds
  have same := flush_accepted kafka reports
  rw [LibrdKafkaProducer.accepted, flushed] at same
  unfold AllProduced PostgresqlReplicator.accepted at all
  rw [ends] at all
  obtain ⟨events, produced, texts⟩ := sent_of_accepted all
  refine ⟨events, produced, ?_⟩
  rw [← texts]
  exact congrArg (List.map Prod.snd) same

/-- What the consumer gets is what the brokers have kept of the events. -/
theorem stored_change {events : List Json} {stored : List Nat} {results : List ConsumeResult}
    (sent : rdKafka.Sent jsoncpp events) (roundTrips : ∀ event ∈ events, jsoncpp.RoundTrips event)
    (kept : rdKafka.Kept stored)
    (brought : (payloads results).Perm (stored.map rdKafka.value)) :
    ∀ payload ∈ payloads results, ∃ event ∈ events, payload = jsoncpp.writeString event ∧
      LibRdkafkaConsumer.startConsuming jsoncpp payload = .ok (some (image event)) := by
  intro payload mem
  obtain ⟨n, isStored, rfl⟩ := List.mem_map.mp (brought.mem_iff.mp mem)
  have within := kept.known n isStored
  have value : rdKafka.value n ∈ rdKafka.accepted.map Prod.snd := by
    rw [← rdKafka.range_value]
    exact List.mem_map_of_mem (List.mem_range.mpr within)
  rw [sent.values] at value
  obtain ⟨event, isEvent, text⟩ := List.mem_map.mp value
  rw [← text]
  have produced := sent.produced event isEvent
  exact ⟨event, isEvent, rfl, produced.startConsuming (roundTrips event isEvent)⟩

/-- The counters of the producer count what Kafka has taken. -/
theorem run_counters {cache : RelationCache} {restartLsnHigh restartLsnLow : UInt32}
    {rounds : List Round} {reports : List DeliveryReport} {kafka : LibrdKafkaProducer}
    (ends : (runFrom (Session.step jsoncpp)
      (Session.start cache (some (init true {}).2) restartLsnHigh restartLsnLow)
        rounds).replicator.kafkaProducer = some kafka)
    (flushed : (kafka.flush reports).2.producer = some rdKafka) :
    (kafka.flush reports).2.getStats.messagesSent = .ofNat rdKafka.accepted.length ∧
      (kafka.flush reports).2.getStats.bytesSent = .ofNat rdKafka.acceptedBytes := by
  have there : (Session.start cache (some (init true {}).2) restartLsnHigh
      restartLsnLow).replicator.kafkaProducer = some (init true {}).2 := rfl
  obtain ⟨calls, -, after⟩ := Session.run_calls jsoncpp there rounds
  rw [ends, Option.some.injEq] at after
  obtain ⟨rdKafka', isThere, accounted⟩ := (init_accounts.calls calls).flush reports
  rw [← after, flushed, Option.some.injEq] at isThere
  rw [← isThere, ← after] at accounted
  constructor
  · rw [← UInt64.toNat_inj, UInt64.toNat_ofNat']
    exact accounted.messages
  · rw [← UInt64.toNat_inj, UInt64.toNat_ofNat']
    exact accounted.bytes

/-- Behind every session of the producer, whatever it was sent, whatever the brokers have kept of
what they have not reported as delivered, and in whatever order it comes, with time-outs and
errors in between: each message is queued as its event, none ends the consumer or is rejected, and
the two sides' numbers differ by the messages that are missing, which are pending or failed. -/
theorem run_received (jsoncpp : JsonCpp) (errs : Bytes → Bytes) (cache : RelationCache)
    (restartLsnHigh restartLsnLow : UInt32) (rounds : List Round) (reports : List DeliveryReport)
    (topic : Bytes) {kafka : LibrdKafkaProducer}
    (ends : (runFrom (Session.step jsoncpp)
      (Session.start cache (some (init true {}).2) restartLsnHigh restartLsnLow)
        rounds).replicator.kafkaProducer = some kafka)
    (flushed : (kafka.flush reports).2.producer = some rdKafka) :
    (∃ events, rdKafka.Sent jsoncpp events) ∧
      ∀ events stored results, rdKafka.Sent jsoncpp events →
        (∀ event ∈ events, jsoncpp.RoundTrips event) → rdKafka.Kept stored →
        (payloads results).Perm (stored.map rdKafka.value) →
        ∃ consumer output,
          startConsumer jsoncpp errs results (ReplicationConsumer.started topic, {}) =
              .ok () (consumer, output) ∧
            List.Forall₂ (fun payload msg => ∃ event ∈ events,
              payload = jsoncpp.writeString event ∧ msg = image event)
                (payloads results) output.pushed ∧
            output.reported = errstrs results ∧
            (kafka.flush reports).2.getStats.messagesSent =
              consumer.getStats.messageReceived + .ofNat (rdKafka.missing stored).length ∧
            (kafka.flush reports).2.getStats.bytesSent =
              consumer.getStats.bytesReceived +
                .ofNat (((rdKafka.missing stored).map rdKafka.value).map List.length).sum ∧
            consumer.getStats.errors = .ofNat (errstrs results).length ∧
            ∀ n ∈ rdKafka.missing stored, n ∈ rdKafka.pending ++ rdKafka.failed := by
  refine ⟨run_sent jsoncpp cache restartLsnHigh restartLsnLow rounds reports ends flushed, ?_⟩
  intro events stored results sent roundTrips kept brought
  have changes := stored_change sent roundTrips kept brought
  have started : Installed (ReplicationConsumer.started topic) := ⟨rfl, rfl, rfl⟩
  have harmless : ∀ result ∈ results, Harmless jsoncpp result := by
    intro result mem payload isPayload
    obtain ⟨event, -, -, starts⟩ :=
      changes payload (List.mem_filterMap.mpr ⟨result, mem, isPayload⟩)
    exact ⟨_, starts⟩
  have read : ∀ payload ∈ payloads results,
      ∃ msg, LibRdkafkaConsumer.startConsuming jsoncpp payload = .ok (some msg) := by
    intro payload mem
    obtain ⟨event, -, -, starts⟩ := changes payload mem
    exact ⟨image event, starts⟩
  obtain ⟨msgs, pushes, output⟩ := runFrom_answered read errs {}
  obtain ⟨messages, bytes⟩ := run_counters ends flushed
  obtain ⟨lengths, sizes⟩ := kept.counts
  have received := brought.length_eq
  have receivedSizes := (brought.map List.length).sum_eq
  refine ⟨_, _, startConsumer_ok started rfl harmless, ?_, ?_, ?_, ?_, ?_,
    kept.missing_undelivered⟩
  · rw [output]
    have both := (List.forall₂_and_left _ _).mpr ⟨changes, pushes⟩
    refine both.imp ?_
    rintro payload msg ⟨⟨event, isEvent, text, starts⟩, pushed⟩
    rw [starts] at pushed
    cases pushed
    exact ⟨event, isEvent, text, rfl⟩
  · rw [output]
    rfl
  · rw [messages, lengths, UInt64.ofNat_add, LibRdkafkaConsumer.getStats, runFrom_counted, received,
      List.length_map]
    exact congrArg (· + _) (UInt64.zero_add _).symm
  · rw [bytes, sizes, UInt64.ofNat_add, LibRdkafkaConsumer.getStats, runFrom_counted, receivedSizes]
    exact congrArg (· + _) (UInt64.zero_add _).symm
  · rw [LibRdkafkaConsumer.getStats, runFrom_counted]
    exact UInt64.zero_add _

end BothSides

/-! ## Two rows -/

/-- The event of `Session.insertPacket`. -/
def moodEvent : Json := .object
  [(str "data", .object [(str "id", .string (str "1"))]), (str "op", .string (str "INSERT")),
    (str "primary", .string (str "id")), (str "schema", .string (str "moods")),
    (str "table", .string (str "moods")), (str "timestamp", .int 0)]

def moodJson : JsonCpp := JsonCpp.compactOf [moodEvent]

def moodCache : RelationCache := fun id =>
  if id = 7 then some PostgresqlReplicator.Session.moodRelation else none

/-- The same row twice; the first is reported as delivered during the second call. -/
def moodRounds : List PostgresqlReplicator.Round :=
  [⟨{}, .data PostgresqlReplicator.Session.insertPacket⟩,
    ⟨{ kafka := { reports := [⟨0, false⟩] } }, .data PostgresqlReplicator.Session.insertPacket⟩]

/-- The producer behind them. -/
def moodProducer : LibrdKafkaProducer :=
  let first := ((LibrdKafkaProducer.init true {}).2.sendJson moodJson {} moodEvent (str "\"1\"")).2
  (first.sendJson moodJson { reports := [⟨0, false⟩] } moodEvent (str "\"1\"")).2

def moodKafka : RdKafkaProducer := moodProducer.producer.getD .fresh

theorem moodRounds_end :
    (runFrom (PostgresqlReplicator.Session.step moodJson)
      (PostgresqlReplicator.Session.start moodCache (some (LibrdKafkaProducer.init true {}).2) 0 5)
        moodRounds).replicator.kafkaProducer = some moodProducer := rfl

theorem moodKafka_kept : moodKafka.Kept [0] where
  once := List.nodup_singleton 0
  known := by decide
  delivered := by decide

theorem moodKafka_sent : moodKafka.Sent moodJson [moodEvent, moodEvent] where
  produced := by
    have built : insertEvent moodJson PostgresqlReplicator.Session.moodRelation 0
        ⟨7, chr 'N', [str "1"]⟩ = .ok (moodEvent, str "\"1\"") := rfl
    have produced : Produced moodJson moodEvent := .insert built
    exact List.forall_mem_cons.mpr ⟨produced, List.forall_mem_singleton.mpr produced⟩
  values := rfl

def moodResults : List ConsumeResult :=
  [.timedOut, .noError (some (str "\"1\"")) (moodJson.writeString moodEvent),
    .error (str "Broker transport failure")]

theorem run_received_moods :
    ∃ consumer output,
      LibRdkafkaConsumer.startConsumer moodJson id moodResults
          (ReplicationConsumer.started (str "moods"), {}) = .ok () (consumer, output) ∧
        output.reported = [str "Broker transport failure"] ∧
        (moodProducer.flush []).2.getStats.messagesSent = consumer.getStats.messageReceived + 1 ∧
        consumer.getStats.errors = 1 := by
  have roundTrips : ∀ event ∈ [moodEvent, moodEvent], moodJson.RoundTrips event := by
    have same : moodJson.RoundTrips moodEvent := rfl
    exact List.forall_mem_cons.mpr ⟨same, List.forall_mem_singleton.mpr same⟩
  have brought : (ConsumeResult.payloads moodResults).Perm ([0].map moodKafka.value) :=
    .refl _
  obtain ⟨consumer, output, runs, -, reported, messages, -, errors, -⟩ :=
    (run_received moodJson id moodCache 0 5 moodRounds [] (str "moods") moodRounds_end rfl).2
      [moodEvent, moodEvent] [0] moodResults moodKafka_sent roundTrips moodKafka_kept brought
  exact ⟨consumer, output, runs, reported, messages, errors⟩

end KafkaReplication
