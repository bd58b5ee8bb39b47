import KafkaReplication.Producer.PostgresqlReplicator

/-!
# What the handlers send

The events that `handleInsert`, `handleUpdate`, `handleDelete` and `handleTruncate`
(`producer_azs/postgresql_replicator.cpp:412-569`) give to Kafka.
-/

namespace KafkaReplication
open Misc PgOutputParser

/-- The events of the four handlers, from any message, relation and cache. -/
inductive Produced (jsoncpp : JsonCpp) : Json → Prop where
  | insert {relation : RelationMessage} {now : UInt64} {ins : InsertMessage} {event : Json}
      {key : Bytes} (built : insertEvent jsoncpp relation now ins = .ok (event, key)) :
      Produced jsoncpp event
  | update {relation : RelationMessage} {now : UInt64} {upd : UpdateMessage} {event : Json}
      {key : Bytes} (built : updateEvent jsoncpp relation now upd = .ok (event, key)) :
      Produced jsoncpp event
  | delete {relation : RelationMessage} {now : UInt64} {del : DeleteMessage} {event : Json}
      {key : Bytes} (built : deleteEvent jsoncpp relation now del = .ok (event, key)) :
      Produced jsoncpp event
  | truncate {cache : RelationCache} {now : UInt64} {trunc : TruncateMessage} {event : Json}
      (built : truncateEvent cache now trunc = .ok event) : Produced jsoncpp event

namespace LibrdKafkaProducer

/-- The messages that Kafka has accepted, key and value. -/
def accepted (self : LibrdKafkaProducer) : List (Option Bytes × Bytes) :=
  match self.producer with
  | some rdKafka => rdKafka.accepted
  | none => []

/-- Kafka takes the message of the call. -/
def accepts (self : LibrdKafkaProducer) (outcome : KafkaOutcome) : Bool :=
  self.producer.isSome && !outcome.produceErr

/-- A call adds its message, or nothing. -/
theorem sendMessage_accepted (outcome : KafkaOutcome) (key value : Bytes)
    (self : LibrdKafkaProducer) :
    (sendMessage outcome key value self).2.accepted =
      self.accepted ++
        if self.accepts outcome then [(if key = [] then none else some key, value)] else [] := by
  obtain ⟨producer, stats⟩ := self
  cases producer with
  | none => rfl
  | some rdKafka =>
    unfold sendMessage accepted accepts
    cases outcome.produceErr with
    | true => simp
    | false => simp [poll_accepted, RdKafkaProducer.enqueue]

theorem sendMessage_isSome (outcome : KafkaOutcome) (key value : Bytes)
    (self : LibrdKafkaProducer) :
    (sendMessage outcome key value self).2.producer.isSome = self.producer.isSome := by
  obtain ⟨producer, stats⟩ := self
  cases producer with
  | none => rfl
  | some rdKafka =>
    unfold sendMessage
    cases outcome.produceErr <;> rfl

end LibrdKafkaProducer

namespace PostgresqlReplicator

def accepted (self : PostgresqlReplicator) : List (Option Bytes × Bytes) :=
  (self.kafkaProducer.map LibrdKafkaProducer.accepted).getD []

theorem accepted_sendJson (jsoncpp : JsonCpp) (outcome : KafkaOutcome)
    {producer : LibrdKafkaProducer} (event : Json) (key : Bytes) {self : PostgresqlReplicator}
    (there : self.kafkaProducer = some producer) :
    ({ self with kafkaProducer := some (producer.sendJson jsoncpp outcome event key).2 } :
        PostgresqlReplicator).accepted =
      self.accepted ++
        if producer.accepts outcome then
          [(if key = [] then none else some key, jsoncpp.writeString event)]
        else [] := by
  have before : self.accepted = producer.accepted := by rw [accepted, there]; rfl
  rw [before]
  exact producer.sendMessage_accepted outcome key (jsoncpp.writeString event)

/-- The events that `self'` has sent in addition to those of `self`: none, or one that a
handler has built. -/
def SendsProduced (jsoncpp : JsonCpp) (self self' : PostgresqlReplicator) : Prop :=
  self'.accepted = self.accepted ∨
    ∃ event key, Produced jsoncpp event ∧
      self'.accepted = self.accepted ++ [(key, jsoncpp.writeString event)]

variable {jsoncpp : JsonCpp} {env : Surroundings} {self self' : PostgresqlReplicator}

theorem sendsProduced_sendJson {producer : LibrdKafkaProducer} {event : Json}
    (produced : Produced jsoncpp event) (key : Bytes)
    (there : self.kafkaProducer = some producer) :
    SendsProduced jsoncpp self
      { self with kafkaProducer := some (producer.sendJson jsoncpp env.kafka event key).2 } := by
  have sent := accepted_sendJson jsoncpp env.kafka event key there
  by_cases accepts : producer.accepts env.kafka = true
  · rw [if_pos accepts] at sent
    exact .inr ⟨event, _, produced, sent⟩
  · rw [if_neg accepts, List.append_nil] at sent
    exact .inl sent

theorem handleRow_sendsProduced {relationId : UInt32}
    {event : RelationMessage → Except Fault (Json × Bytes)}
    (produced : ∀ relation message key, event relation = .ok (message, key) →
      Produced jsoncpp message)
    (ok : handleRow jsoncpp env relationId event self = .ok () self') :
    SendsProduced jsoncpp self self' := by
  unfold handleRow at ok
  split at ok
  · rename_i relation producer _ there
    split at ok
    · rename_i message key built
      cases ok
      exact sendsProduced_sendJson (produced relation message key built) key there
    · cases ok
  · cases ok
    exact .inl rfl

/-- Whatever message is handled, nothing is sent but what a handler has built. -/
theorem handleMessage_sendsProduced {msg : ReplicationMessage}
    (ok : handleMessage jsoncpp env (some msg) self = .ok () self') :
    SendsProduced jsoncpp self self' := by
  cases msg with
  | insert ins => exact handleRow_sendsProduced (fun _ _ _ built => .insert built) ok
  | update upd => exact handleRow_sendsProduced (fun _ _ _ built => .update built) ok
  | delete del => exact handleRow_sendsProduced (fun _ _ _ built => .delete built) ok
  | truncate trunc =>
    have ok : handleTruncate jsoncpp env trunc self = .ok () self' := ok
    unfold handleTruncate at ok
    split at ok
    · rename_i producer there
      split at ok
      · rename_i message built
        cases ok
        exact sendsProduced_sendJson (.truncate built) [] there
      · cases ok
    · cases ok
      exact .inl rfl
  | begin _ => cases ok; exact .inl rfl
  | commit _ => cases ok; exact .inl rfl
  | relation _ => cases ok; exact .inl rfl

end PostgresqlReplicator

end KafkaReplication
