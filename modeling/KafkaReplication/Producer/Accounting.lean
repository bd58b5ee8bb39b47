import KafkaReplication.Producer.Acknowledge
import KafkaReplication.Producer.SentEvents

/-!
# What becomes of the events

The counters of `ProducerStats` (`shared_structures.h:86-93`) in every session of the loop
(`producer_azs/postgresql_replicator.cpp:168-221`), up to the flush of the destructor
(`producer_azs/producer_librdkafka.cpp:6-16`). A message is counted as sent when `produce` has
taken it. There is an error for each that `produce` refuses and for each whose delivery report is
one, and none for those whose report never comes.
-/

namespace KafkaReplication
open Misc

namespace RdKafkaProducer

/-- The messages reported with an error. -/
def failed (rdKafka : RdKafkaProducer) : List Nat :=
  (List.range rdKafka.accepted.length).filter (· ∉ rdKafka.pending ++ rdKafka.delivered)

/-- The messages that are not among `stored`. -/
def missing (rdKafka : RdKafkaProducer) (stored : List Nat) : List Nat :=
  (List.range rdKafka.accepted.length).filter (· ∉ stored)

/-- The sizes of the accepted values. -/
def acceptedBytes (rdKafka : RdKafkaProducer) : Nat :=
  (rdKafka.accepted.map fun message => message.2.length).sum

end RdKafkaProducer

namespace LibrdKafkaProducer

/-! ## The other functions -/

/-- `init` (`producer_librdkafka.cpp:19-58`); `created` is whether librdkafka gives a producer. -/
def init (created : Bool) (self : LibrdKafkaProducer) : Bool × LibrdKafkaProducer :=
  (created, { self with producer := if created then some .fresh else none })

/-- `getStats` (`producer_librdkafka.cpp:121-125`). -/
def getStats (self : LibrdKafkaProducer) : ProducerStats := self.stats

/-- `flush` (`producer_librdkafka.cpp:127-136`), with the reports that come in time. The error code
that librdkafka returns is converted to `bool`, so it is `true` when messages are left. -/
def flush (reports : List DeliveryReport) (self : LibrdKafkaProducer) :
    Bool × LibrdKafkaProducer :=
  match self.producer with
  | none => (false, self)
  | some rdKafka =>
      let kafka := poll reports (rdKafka, self.stats)
      (kafka.1.pending ≠ [], { producer := some kafka.1, stats := kafka.2 })

/-- A call of `sendMessage` with what librdkafka does during it. -/
structure KafkaCall where
  outcome : KafkaOutcome
  key : Bytes
  value : Bytes

/-- What Kafka is given in the call. -/
def KafkaCall.message (call : KafkaCall) : Option Bytes × Bytes :=
  (if call.key = [] then none else some call.key, call.value)

/-- `produce` takes the message. -/
def KafkaCall.taken (call : KafkaCall) : Bool := !call.outcome.produceErr

def afterCall (self : LibrdKafkaProducer) (call : KafkaCall) : LibrdKafkaProducer :=
  (self.sendMessage call.outcome call.key call.value).2

/-! ## Reports -/

/-- No message is reported twice, and the errors are the refused messages and the failed ones. -/
structure Reported (refused : Nat) (kafka : RdKafkaProducer × ProducerStats) : Prop where
  once : (kafka.1.pending ++ kafka.1.delivered).Nodup
  errors : kafka.2.errors.toNat = (refused + kafka.1.failed.length) % 2 ^ 64

theorem missing_perm {rdKafka : RdKafkaProducer} {stored : List Nat} (once : stored.Nodup)
    (known : ∀ n ∈ stored, n < rdKafka.accepted.length) :
    (stored ++ rdKafka.missing stored).Perm (List.range rdKafka.accepted.length) := by
  have found : ((List.range rdKafka.accepted.length).filter (· ∈ stored)).Perm stored := by
    rw [List.perm_ext_iff_of_nodup (List.nodup_range.filter _) once]
    intro n
    simp only [List.mem_filter, List.mem_range, decide_eq_true_eq, and_iff_right_iff_imp]
    exact known n
  have split := List.filter_append_perm (· ∈ stored) (List.range rdKafka.accepted.length)
  simp only [← decide_not] at split
  exact (found.symm.append_right _).trans split

/-- Every accepted message is pending, delivered or failed. -/
theorem messages_perm {rdKafka : RdKafkaProducer}
    (once : (rdKafka.pending ++ rdKafka.delivered).Nodup) :
    (rdKafka.pending ++ rdKafka.delivered ++ rdKafka.failed).Perm
      (List.range rdKafka.accepted.length) := by
  have known : ∀ n ∈ rdKafka.pending ++ rdKafka.delivered, n < rdKafka.accepted.length :=
    List.forall_mem_append.mpr ⟨rdKafka.pending_lt, rdKafka.delivered_lt⟩
  exact missing_perm once known

theorem messages_length {rdKafka : RdKafkaProducer}
    (once : (rdKafka.pending ++ rdKafka.delivered).Nodup) :
    rdKafka.pending.length + rdKafka.delivered.length + rdKafka.failed.length =
      rdKafka.accepted.length := by
  have lengths := (messages_perm once).length_eq
  rwa [List.length_append, List.length_append, List.length_range] at lengths

section Settle

variable {rdKafka : RdKafkaProducer} {report : DeliveryReport}
  (due : report.message ∈ rdKafka.pending)
  (once : (rdKafka.pending ++ rdKafka.delivered).Nodup)

include once

theorem settle_once :
    ((rdKafka.settle report due).pending ++ (rdKafka.settle report due).delivered).Nodup := by
  obtain ⟨pendingOnce, deliveredOnce, apart⟩ := List.nodup_append.mp once
  have still : ∀ n ∈ rdKafka.pending.filter (· ≠ report.message),
      n ∈ rdKafka.pending ∧ n ≠ report.message := by
    intro n mem
    simpa using List.mem_filter.mp mem
  rw [List.nodup_append]
  refine ⟨pendingOnce.filter _, ?_, ?_⟩
  · show (if report.err then _ else _ : List Nat).Nodup
    split
    · exact deliveredOnce
    · exact List.nodup_cons.mpr ⟨fun mem => apart _ due _ mem rfl, deliveredOnce⟩
  · intro n left m done
    obtain ⟨mem, other⟩ := still n left
    have done : m ∈ (if report.err then _ else _ : List Nat) := done
    split at done
    · exact apart n mem m done
    · rcases List.mem_cons.mp done with rfl | before
      · exact other
      · exact apart n mem m before

/-- Of the two reports only an error makes a failed message. -/
theorem settle_failed :
    (rdKafka.settle report due).failed.length = rdKafka.failed.length + report.err.toNat := by
  have erased : rdKafka.pending.erase report.message =
      rdKafka.pending.filter (· ≠ report.message) := by
    rw [(List.nodup_append.mp once).1.erase_eq_filter]
    exact List.filter_congr fun n _ => (decide_not ..).symm
  have left := List.length_erase_add_one due
  rw [erased] at left
  have before := messages_length once
  have after := messages_length (settle_once due once)
  have done : (rdKafka.settle report due).delivered.length + report.err.toNat =
      rdKafka.delivered.length + 1 := by
    show (if report.err then _ else _ : List Nat).length + _ = _
    cases report.err <;> rfl
  simp only [RdKafkaProducer.settle] at after done ⊢
  omega

end Settle

section Reports

variable {refused : Nat} {kafka : RdKafkaProducer × ProducerStats}

theorem Reported.serve (reported : Reported refused kafka) (report : DeliveryReport) :
    Reported refused (serve kafka report) := by
  obtain ⟨once, errors⟩ := reported
  unfold LibrdKafkaProducer.serve
  split
  next due =>
    refine ⟨settle_once due once, ?_⟩
    show (drCb report kafka.2).errors.toNat = _
    rw [settle_failed due once]
    unfold drCb
    cases report.err with
    | true =>
      show (kafka.2.errors + 1).toNat = _
      rw [UInt64.toNat_add, errors, ← Nat.add_assoc]
      exact Nat.mod_add_mod _ _ _
    | false => exact errors
  next => exact ⟨once, errors⟩

theorem Reported.poll (reported : Reported refused kafka) (reports : List DeliveryReport) :
    Reported refused (poll reports kafka) := by
  induction reports generalizing kafka with
  | nil => exact reported
  | cons report reports ih => exact ih (reported.serve report)

/-- A message that is queued has no report yet. -/
theorem Reported.enqueue (reported : Reported refused kafka) (key : Option Bytes)
    (value : Bytes) : Reported refused (kafka.1.enqueue key value, kafka.2) := by
  obtain ⟨rdKafka, stats⟩ := kafka
  have once : (rdKafka.pending ++ rdKafka.delivered).Nodup := reported.once
  have fresh : rdKafka.accepted.length ∉ rdKafka.pending ++ rdKafka.delivered := by
    intro mem
    rcases List.mem_append.mp mem with due | done
    · exact lt_irrefl _ (rdKafka.pending_lt _ due)
    · exact lt_irrefl _ (rdKafka.delivered_lt _ done)
  have once' : ((rdKafka.enqueue key value).pending ++
      (rdKafka.enqueue key value).delivered).Nodup := by
    show (rdKafka.pending ++ [rdKafka.accepted.length] ++ rdKafka.delivered).Nodup
    rw [List.append_assoc, List.singleton_append, List.nodup_middle]
    exact List.nodup_cons.mpr ⟨fresh, once⟩
  have before := messages_length once
  have after := messages_length once'
  have failed : (rdKafka.enqueue key value).failed.length = rdKafka.failed.length := by
    simp only [RdKafkaProducer.enqueue, List.length_append, List.length_singleton] at after ⊢
    omega
  refine ⟨once', ?_⟩
  rw [failed]
  exact reported.errors

theorem serve_sent (kafka : RdKafkaProducer × ProducerStats) (report : DeliveryReport) :
    (serve kafka report).2.messagesSent = kafka.2.messagesSent ∧
      (serve kafka report).2.bytesSent = kafka.2.bytesSent := by
  unfold serve drCb
  split
  · cases report.err <;> exact ⟨rfl, rfl⟩
  · exact ⟨rfl, rfl⟩

/-- Reports do not count messages. -/
theorem poll_sent (reports : List DeliveryReport) (kafka : RdKafkaProducer × ProducerStats) :
    (poll reports kafka).2.messagesSent = kafka.2.messagesSent ∧
      (poll reports kafka).2.bytesSent = kafka.2.bytesSent := by
  induction reports generalizing kafka with
  | nil => exact ⟨rfl, rfl⟩
  | cons report reports ih =>
    obtain ⟨messages, bytes⟩ := ih (serve kafka report)
    obtain ⟨messages', bytes'⟩ := serve_sent kafka report
    exact ⟨messages.trans messages', bytes.trans bytes'⟩

end Reports

/-! ## Counters -/

/-- All three counters are right, as numbers of 64 bits. -/
structure Accounted (refused : Nat) (kafka : RdKafkaProducer × ProducerStats) : Prop
    extends Reported refused kafka where
  messages : kafka.2.messagesSent.toNat = kafka.1.accepted.length % 2 ^ 64
  bytes : kafka.2.bytesSent.toNat = kafka.1.acceptedBytes % 2 ^ 64

section Accounted

variable {refused : Nat} {rdKafka : RdKafkaProducer} {stats : ProducerStats}

theorem Accounted.refuse (accounted : Accounted refused (rdKafka, stats)) :
    Accounted (refused + 1) (rdKafka, { stats with errors := stats.errors + 1 }) := by
  refine ⟨⟨accounted.once, ?_⟩, accounted.messages, accounted.bytes⟩
  show (stats.errors + 1).toNat = _
  have errors : stats.errors.toNat = (refused + rdKafka.failed.length) % 2 ^ 64 :=
    accounted.errors
  rw [UInt64.toNat_add, errors, Nat.add_right_comm]
  exact Nat.mod_add_mod _ _ _

theorem Accounted.poll (accounted : Accounted refused (rdKafka, stats))
    (reports : List DeliveryReport) : Accounted refused (poll reports (rdKafka, stats)) := by
  obtain ⟨messages, bytes⟩ := poll_sent reports (rdKafka, stats)
  refine ⟨accounted.toReported.poll reports, ?_, ?_⟩
  · rw [messages, poll_accepted]
    exact accounted.messages
  · rw [bytes, RdKafkaProducer.acceptedBytes, poll_accepted]
    exact accounted.bytes

theorem Accounted.take (accounted : Accounted refused (rdKafka, stats)) (key : Option Bytes)
    (value : Bytes) (reports : List DeliveryReport) :
    let kafka := LibrdKafkaProducer.poll reports (rdKafka.enqueue key value, stats)
    Accounted refused (kafka.1, { kafka.2 with
      messagesSent := kafka.2.messagesSent + 1
      bytesSent := kafka.2.bytesSent + UInt64.ofNat value.length }) := by
  intro kafka
  have polled := (accounted.toReported.enqueue key value).poll reports
  obtain ⟨messages, bytes⟩ := poll_sent reports (rdKafka.enqueue key value, stats)
  have before : stats.messagesSent.toNat = rdKafka.accepted.length % 2 ^ 64 := accounted.messages
  have before' : stats.bytesSent.toNat = rdKafka.acceptedBytes % 2 ^ 64 := accounted.bytes
  refine ⟨⟨polled.once, polled.errors⟩, ?_, ?_⟩
  · show (kafka.2.messagesSent + 1).toNat = kafka.1.accepted.length % 2 ^ 64
    rw [messages, UInt64.toNat_add, before, poll_accepted]
    show _ = (rdKafka.accepted ++ [(key, value)]).length % _
    rw [List.length_append]
    exact Nat.mod_add_mod _ _ _
  · show (kafka.2.bytesSent + UInt64.ofNat value.length).toNat = kafka.1.acceptedBytes % 2 ^ 64
    rw [bytes, UInt64.toNat_add, before', RdKafkaProducer.acceptedBytes,
      RdKafkaProducer.acceptedBytes, poll_accepted]
    show _ = ((rdKafka.accepted ++ [(key, value)]).map _).sum % _
    rw [List.map_append, List.sum_append, UInt64.toNat_ofNat']
    exact (Nat.add_mod _ _ _).symm

end Accounted

/-- The counters of a producer that `init` has set up. -/
def Accounts (refused : Nat) (self : LibrdKafkaProducer) : Prop :=
  ∃ rdKafka, self.producer = some rdKafka ∧ Accounted refused (rdKafka, self.stats)

section Counters

variable {refused : Nat} {self : LibrdKafkaProducer}

theorem init_accounts : Accounts 0 (init true {}).2 :=
  ⟨.fresh, rfl, ⟨⟨List.nodup_nil, rfl⟩, rfl, rfl⟩⟩

theorem Accounts.call (accounts : Accounts refused self) (call : KafkaCall) :
    Accounts (refused + (!call.taken).toNat) (self.afterCall call) := by
  obtain ⟨producer, stats⟩ := self
  obtain ⟨rdKafka, there, accounted⟩ := accounts
  have there : producer = some rdKafka := there
  subst there
  cases err : call.outcome.produceErr with
  | true =>
    refine ⟨rdKafka, ?_, ?_⟩
    · simp only [afterCall, sendMessage, err, if_true]
    · have refuses : (!call.taken).toNat = 1 := by rw [KafkaCall.taken, err]; rfl
      simp only [afterCall, sendMessage, err, if_true, refuses]
      exact accounted.refuse
  | false =>
    have takes : (!call.taken).toNat = 0 := by rw [KafkaCall.taken, err]; rfl
    rw [takes, afterCall, sendMessage, err]
    exact ⟨_, rfl, accounted.take call.message.1 call.value call.outcome.reports⟩

theorem Accounts.calls (accounts : Accounts refused self) (calls : List KafkaCall) :
    Accounts (refused + calls.countP (!·.taken)) (runFrom afterCall self calls) := by
  induction calls generalizing refused self with
  | nil => exact accounts
  | cons call calls ih =>
    have rest := ih (accounts.call call)
    have count : (call :: calls).countP (!·.taken) =
        (!call.taken).toNat + calls.countP (!·.taken) := by
      rw [List.countP_cons, Nat.add_comm]
      cases call.taken <;> rfl
    rw [count, ← Nat.add_assoc]
    exact rest

theorem Accounts.flush (accounts : Accounts refused self) (reports : List DeliveryReport) :
    Accounts refused (self.flush reports).2 := by
  obtain ⟨rdKafka, there, accounted⟩ := accounts
  rw [LibrdKafkaProducer.flush, there]
  exact ⟨_, rfl, accounted.poll reports⟩

end Counters

theorem flush_accepted (self : LibrdKafkaProducer) (reports : List DeliveryReport) :
    (self.flush reports).2.accepted = self.accepted := by
  cases there : self.producer with
  | none => rw [LibrdKafkaProducer.flush, there]
  | some rdKafka =>
    rw [LibrdKafkaProducer.flush, there, accepted, accepted, there]
    exact poll_accepted reports (rdKafka, self.stats)

/-- Kafka has the messages of the calls, as far as it takes them. -/
theorem accepted_calls {self : LibrdKafkaProducer} (isSome : self.producer.isSome)
    (calls : List KafkaCall) :
    (runFrom afterCall self calls).accepted =
      self.accepted ++ (calls.filter KafkaCall.taken).map KafkaCall.message := by
  induction calls generalizing self with
  | nil => exact (List.append_nil _).symm
  | cons call calls ih =>
    have still : (self.afterCall call).producer.isSome :=
      (sendMessage_isSome call.outcome call.key call.value self).trans isSome
    have first := sendMessage_accepted call.outcome call.key call.value self
    have rest := ih still
    rw [afterCall, first, accepts, isSome, Bool.true_and] at rest
    show (runFrom afterCall (self.afterCall call) calls).accepted = _
    rw [afterCall, rest, List.filter_cons, KafkaCall.taken]
    cases call.outcome.produceErr with
    | true => simp
    | false => simp [KafkaCall.message]

end LibrdKafkaProducer

/-! ## Sessions -/

namespace PostgresqlReplicator

open LibrdKafkaProducer

section Sessions

variable {jsoncpp : JsonCpp}

/-- A message that takes the process down has sent nothing. -/
theorem dispatch_down {env : Surroundings} {self self' : PostgresqlReplicator} {body : ByteVec}
    {fault : Fault} (down : dispatch jsoncpp env body self = .error fault self') :
    self'.kafkaProducer = self.kafkaProducer := by
  have outcome := dispatch_dispatched jsoncpp env self body
  rw [down] at outcome
  cases outcome with
  | empty _ => rfl
  | null _ _ => rfl
  | pastTheEnd _ _ => rfl
  | handled _ _ handled =>
    cases handled with
    | pastTheEnd _ => rfl

theorem parsePacket_kafkaStep (jsoncpp : JsonCpp) (env : Surroundings)
    (self : PostgresqlReplicator) (rawMessage : ByteVec) :
    KafkaStep jsoncpp env.kafka self.kafkaProducer
      (finalState (parsePacket jsoncpp env rawMessage self)).kafkaProducer := by
  have outcome := parsePacket_parsed jsoncpp env self rawMessage
  generalize parsePacket jsoncpp env rawMessage self = result at outcome
  cases outcome with
  | skipped _ _ => exact .same _
  | keepalive _ _ =>
    rw [finalState, answered_kafkaProducer]
    exact .same _
  | completed _ _ run =>
    rw [finalState, answered_kafkaProducer]
    have kafka := dispatch_kafkaStep run
    exact kafka
  | down _ _ run =>
    rw [finalState, dispatch_down run]
    exact .same _

/-- Each round calls `sendJson` once at most. -/
theorem readRound_kafkaStep (jsoncpp : JsonCpp) (round : Round) (self : PostgresqlReplicator) :
    KafkaStep jsoncpp round.env.kafka self.kafkaProducer
      (finalState (readRound jsoncpp round self)).kafkaProducer := by
  cases copy : round.copyData with
  | nothing =>
    rw [readRound_nothing copy]
    exact .same _
  | failed =>
    rw [readRound_failed copy]
    exact .same _
  | done =>
    rw [readRound_done copy, finalState, answered_kafkaProducer]
    exact .same _
  | data rawMessage =>
    rw [readRound_data jsoncpp copy]
    exact parsePacket_kafkaStep jsoncpp round.env self rawMessage

namespace Session

theorem step_kafkaStep (jsoncpp : JsonCpp) (session : Session) (round : Round) :
    KafkaStep jsoncpp round.env.kafka session.replicator.kafkaProducer
      (step jsoncpp session round).replicator.kafkaProducer := by
  cases up : session.down with
  | true =>
    rw [step_down up]
    exact .same _
  | false =>
    have kafka := readRound_kafkaStep jsoncpp round session.replicator
    cases run : readRound jsoncpp round session.replicator with
    | ok result self' =>
      rw [step_ok up run]
      rwa [run] at kafka
    | error fault self' =>
      rw [step_error up run]
      rwa [run] at kafka

/-- What a session does to the Kafka producer are calls of `sendMessage`, one in a round at
most. -/
theorem run_calls (jsoncpp : JsonCpp) {session : Session} {kafka : LibrdKafkaProducer}
    (there : session.replicator.kafkaProducer = some kafka) (rounds : List Round) :
    ∃ calls : List KafkaCall,
      (calls.map KafkaCall.outcome).Sublist (rounds.map fun round => round.env.kafka) ∧
        (runFrom (step jsoncpp) session rounds).replicator.kafkaProducer =
          some (runFrom afterCall kafka calls) := by
  induction rounds generalizing session kafka with
  | nil => exact ⟨[], List.Sublist.refl _, there⟩
  | cons round rounds ih =>
    have first := step_kafkaStep jsoncpp session round
    rw [there] at first
    generalize next_eq : (step jsoncpp session round).replicator.kafkaProducer = next at first
    cases first with
    | same _ =>
      obtain ⟨calls, within, after⟩ := ih next_eq
      exact ⟨calls, within.cons _, after⟩
    | sent _ json key =>
      obtain ⟨calls, within, after⟩ := ih next_eq
      exact ⟨⟨round.env.kafka, key, jsoncpp.writeString json⟩ :: calls, within.cons_cons _, after⟩

/-- In every session that starts behind `init`, whatever the rounds bring, and also behind a flush,
Kafka has the messages of the calls that were not refused. Each of them is pending, delivered or
failed, and the counters are their number, the sum of their sizes, and the number of the refused
and the failed ones. -/
theorem run_accounted (jsoncpp : JsonCpp) (cache : RelationCache)
    (restartLsnHigh restartLsnLow : UInt32) (rounds : List Round) (reports : List DeliveryReport) :
    let session := start cache (some (init true {}).2) restartLsnHigh restartLsnLow
    ∃ (calls : List KafkaCall) (kafka : LibrdKafkaProducer) (rdKafka : RdKafkaProducer),
      (calls.map KafkaCall.outcome).Sublist (rounds.map fun round => round.env.kafka) ∧
        (runFrom (step jsoncpp) session rounds).replicator.kafkaProducer = some kafka ∧
        (kafka.flush reports).2.producer = some rdKafka ∧
        rdKafka.accepted = (calls.filter KafkaCall.taken).map KafkaCall.message ∧
        (rdKafka.pending ++ rdKafka.delivered ++ rdKafka.failed).Perm
          (List.range rdKafka.accepted.length) ∧
        (kafka.flush reports).2.getStats.messagesSent.toNat =
          rdKafka.accepted.length % 2 ^ 64 ∧
        (kafka.flush reports).2.getStats.bytesSent.toNat = rdKafka.acceptedBytes % 2 ^ 64 ∧
        (kafka.flush reports).2.getStats.errors.toNat =
          (calls.countP (!·.taken) + rdKafka.failed.length) % 2 ^ 64 := by
  intro session
  have there : session.replicator.kafkaProducer = some (init true {}).2 := rfl
  obtain ⟨calls, within, after⟩ := run_calls jsoncpp there rounds
  obtain ⟨rdKafka, isThere, accounted⟩ := (init_accounts.calls calls).flush reports
  have isSome : (init true {}).2.producer.isSome := rfl
  have accepted := accepted_calls isSome calls
  rw [← flush_accepted _ reports, LibrdKafkaProducer.accepted, isThere] at accepted
  have errors := accounted.errors
  rw [Nat.zero_add] at errors
  exact ⟨calls, _, rdKafka, within, after, isThere, accepted, messages_perm accounted.once,
    accounted.messages, accounted.bytes, errors⟩

end Session

end Sessions

end PostgresqlReplicator

end KafkaReplication
