import KafkaReplication.SharedStructures

/-!
# `LibrdKafkaProducer`

`producer_azs/producer_librdkafka.cpp`. `produce` only queues a message. Whether the brokers
have it is said later by a delivery report, which librdkafka hands to `dr_cb` from inside a
call of `poll`; the only such call is the one behind `produce` in `sendMessage`.
-/

namespace KafkaReplication
open Misc

/-- A delivery report: the message, by its place among the accepted ones, and `message.err()`. -/
structure DeliveryReport where
  message : Nat
  err : Bool
  deriving DecidableEq, Repr

/-- What librdkafka does during one `sendMessage`: whether `produce` refuses the message, and
the reports that `poll(0)` finds. -/
structure KafkaOutcome where
  produceErr : Bool := false
  reports : List DeliveryReport := []
  deriving DecidableEq, Repr

/-- The first report about the message is there and is a success. -/
def KafkaOutcome.reportsSuccess (outcome : KafkaOutcome) (message : Nat) : Bool :=
  (outcome.reports.find? (·.message = message)).any (!·.err)

/-- An `RdKafka::Producer`: the accepted messages, key and value, the numbers of those whose
report is still due, and of those reported without an error. -/
structure RdKafkaProducer where
  accepted : List (Option Bytes × Bytes) := []
  pending : List Nat := []
  delivered : List Nat := []
  pending_lt : ∀ n ∈ pending, n < accepted.length := by simp
  delivered_lt : ∀ n ∈ delivered, n < accepted.length := by simp

namespace RdKafkaProducer

theorem fresh_lt : ∀ n ∈ ([] : List Nat), n < ([] : List (Option Bytes × Bytes)).length := by
  intro n due
  cases due

/-- Nothing has been given to it. -/
def fresh : RdKafkaProducer where
  pending_lt := fresh_lt
  delivered_lt := fresh_lt

/-- `produce` has queued the message under the next number. -/
def enqueue (rdKafka : RdKafkaProducer) (key : Option Bytes) (value : Bytes) : RdKafkaProducer where
  accepted := rdKafka.accepted ++ [(key, value)]
  pending := rdKafka.pending ++ [rdKafka.accepted.length]
  delivered := rdKafka.delivered
  pending_lt := by
    intro n due
    rw [List.length_append, List.length_singleton]
    rcases List.mem_append.mp due with before | new
    · exact Nat.lt_succ_of_lt (rdKafka.pending_lt n before)
    · rw [List.mem_singleton.mp new]
      exact Nat.lt_succ_self _
  delivered_lt := by
    intro n before
    rw [List.length_append, List.length_singleton]
    exact Nat.lt_succ_of_lt (rdKafka.delivered_lt n before)

/-- There is one report for a message, after which none is due. -/
def settle (rdKafka : RdKafkaProducer) (report : DeliveryReport)
    (due : report.message ∈ rdKafka.pending) : RdKafkaProducer where
  accepted := rdKafka.accepted
  pending := rdKafka.pending.filter (· ≠ report.message)
  delivered := if report.err then rdKafka.delivered else report.message :: rdKafka.delivered
  pending_lt := fun n left => rdKafka.pending_lt n (List.mem_of_mem_filter left)
  delivered_lt := by
    intro n member
    split at member
    · exact rdKafka.delivered_lt n member
    · rcases List.mem_cons.mp member with new | before
      · rw [new]
        exact rdKafka.pending_lt _ due
      · exact rdKafka.delivered_lt n before

end RdKafkaProducer

/-- `LibrdKafkaProducer` (`producer_librdkafka.h:14-44`); `none` is the null `producer_`. -/
structure LibrdKafkaProducer where
  producer : Option RdKafkaProducer := none
  stats : ProducerStats := {}

namespace LibrdKafkaProducer

/-- `DeliveryCb::dr_cb` (`producer_librdkafka.cpp:99-119`). -/
def drCb (report : DeliveryReport) (stats : ProducerStats) : ProducerStats :=
  if report.err then { stats with errors := stats.errors + 1 } else stats

/-- One report on its way to `dr_cb`; librdkafka has none for a message that is not due. -/
def serve (kafka : RdKafkaProducer × ProducerStats) (report : DeliveryReport) :
    RdKafkaProducer × ProducerStats :=
  if due : report.message ∈ kafka.1.pending then
    (kafka.1.settle report due, drCb report kafka.2)
  else kafka

/-- `producer_->poll(0)`. -/
def poll (reports : List DeliveryReport) (kafka : RdKafkaProducer × ProducerStats) :
    RdKafkaProducer × ProducerStats :=
  reports.foldl serve kafka

/-- `sendMessage` (`producer_librdkafka.cpp:60-97`). -/
def sendMessage (outcome : KafkaOutcome) (key value : Bytes) (self : LibrdKafkaProducer) :
    Bool × LibrdKafkaProducer :=
  match self.producer with
  | none => (false, self)
  | some rdKafka =>
      if outcome.produceErr then
        (false, { self with stats := { self.stats with errors := self.stats.errors + 1 } })
      else
        let keyPointer := if key = [] then none else some key
        let kafka := poll outcome.reports (rdKafka.enqueue keyPointer value, self.stats)
        let stats := { kafka.2 with
          messagesSent := kafka.2.messagesSent + 1
          bytesSent := kafka.2.bytesSent + UInt64.ofNat value.length }
        (true, { producer := some kafka.1, stats := stats })

/-- `sendJson` (`producer_librdkafka.cpp:138-146`). -/
def sendJson (jsoncpp : JsonCpp) (outcome : KafkaOutcome) (json : Json) (key : Bytes)
    (self : LibrdKafkaProducer) : Bool × LibrdKafkaProducer :=
  sendMessage outcome key (jsoncpp.writeString json) self

/-- The number of messages `produce` has accepted so far. -/
def acceptedCount (self : LibrdKafkaProducer) : Nat :=
  match self.producer with
  | some rdKafka => rdKafka.accepted.length
  | none => 0

/-- `dr_cb` has reported the message without an error. -/
def Delivered (self : LibrdKafkaProducer) (message : Nat) : Prop :=
  ∃ rdKafka, self.producer = some rdKafka ∧ message ∈ rdKafka.delivered

/-- `produce` takes the next message, and `poll` already reports its delivery. -/
def DeliversNext (self : LibrdKafkaProducer) (outcome : KafkaOutcome) : Prop :=
  self.producer.isSome ∧ outcome.produceErr = false ∧
    outcome.reportsSuccess self.acceptedCount = true

/-! ## What a call of `poll` delivers -/

@[simp] theorem poll_nil (kafka : RdKafkaProducer × ProducerStats) : poll [] kafka = kafka := rfl

@[simp] theorem poll_cons (report : DeliveryReport) (reports : List DeliveryReport)
    (kafka : RdKafkaProducer × ProducerStats) :
    poll (report :: reports) kafka = poll reports (serve kafka report) := rfl

theorem serve_accepted (kafka : RdKafkaProducer × ProducerStats) (report : DeliveryReport) :
    (serve kafka report).1.accepted = kafka.1.accepted := by
  unfold serve
  split <;> rfl

theorem poll_accepted (reports : List DeliveryReport) (kafka : RdKafkaProducer × ProducerStats) :
    (poll reports kafka).1.accepted = kafka.1.accepted := by
  induction reports generalizing kafka with
  | nil => rfl
  | cons report reports ih => rw [poll_cons, ih, serve_accepted]

/-- A report says nothing about the other messages. -/
theorem serve_other (kafka : RdKafkaProducer × ProducerStats) {report : DeliveryReport} {n : Nat}
    (other : report.message ≠ n) :
    (n ∈ (serve kafka report).1.pending ↔ n ∈ kafka.1.pending) ∧
      (n ∈ (serve kafka report).1.delivered ↔ n ∈ kafka.1.delivered) := by
  unfold serve
  split
  · constructor
    · simp [RdKafkaProducer.settle, Ne.symm other]
    · cases err : report.err <;> simp [RdKafkaProducer.settle, err, Ne.symm other]
  · exact ⟨Iff.rfl, Iff.rfl⟩

/-- Behind its report a message is not due any more. -/
theorem serve_own (kafka : RdKafkaProducer × ProducerStats) (report : DeliveryReport) :
    report.message ∉ (serve kafka report).1.pending ∧
      (report.message ∈ (serve kafka report).1.delivered ↔
        report.message ∈ kafka.1.delivered ∨
          (report.message ∈ kafka.1.pending ∧ report.err = false)) := by
  unfold serve
  split
  next due =>
    constructor
    · simp [RdKafkaProducer.settle]
    · cases err : report.err <;> simp [RdKafkaProducer.settle, err, due]
  next notDue => exact ⟨notDue, by simp [notDue]⟩

theorem mem_delivered_poll (outcome : KafkaOutcome) (kafka : RdKafkaProducer × ProducerStats)
    (n : Nat) :
    n ∈ (poll outcome.reports kafka).1.delivered ↔
      n ∈ kafka.1.delivered ∨ (n ∈ kafka.1.pending ∧ outcome.reportsSuccess n = true) := by
  obtain ⟨produceErr, reports⟩ := outcome
  induction reports generalizing kafka with
  | nil => simp [KafkaOutcome.reportsSuccess]
  | cons report reports ih =>
    rw [poll_cons, ih]
    by_cases own : report.message = n
    · -- the first report decides, the later ones find the message settled
      subst own
      obtain ⟨settled, delivered⟩ := serve_own kafka report
      rw [delivered]
      simp [settled, KafkaOutcome.reportsSuccess]
    · obtain ⟨pending, delivered⟩ := serve_other kafka own
      rw [pending, delivered]
      simp [KafkaOutcome.reportsSuccess, own]

/-! ## What `sendMessage` does to the messages -/

section SendMessage

variable (outcome : KafkaOutcome) (key value : Bytes) (self : LibrdKafkaProducer)

theorem sendMessage_acceptedCount :
    (sendMessage outcome key value self).2.acceptedCount =
      if self.producer.isSome ∧ outcome.produceErr = false then self.acceptedCount + 1
      else self.acceptedCount := by
  unfold sendMessage acceptedCount
  cases producer : self.producer with
  | none => simp [producer]
  | some rdKafka =>
    cases outcome.produceErr with
    | true => simp
    | false => simp [poll_accepted, RdKafkaProducer.enqueue]

/-- What was delivered stays delivered. -/
theorem Delivered.sendMessage {self : LibrdKafkaProducer} {n : Nat} (delivered : self.Delivered n) :
    (sendMessage outcome key value self).2.Delivered n := by
  obtain ⟨rdKafka, producer, member⟩ := delivered
  unfold LibrdKafkaProducer.sendMessage
  rw [producer]
  cases outcome.produceErr with
  | true => exact ⟨rdKafka, rfl, member⟩
  | false => exact ⟨_, rfl, (mem_delivered_poll outcome _ n).mpr (.inl member)⟩

/-- The message of the call itself is delivered when the call returns, exactly when `produce`
takes it and `poll` already has its success. -/
theorem sendMessage_delivered_iff :
    (sendMessage outcome key value self).2.Delivered self.acceptedCount ↔
      self.DeliversNext outcome := by
  unfold sendMessage Delivered DeliversNext acceptedCount
  cases producer : self.producer with
  | none => simp [producer]
  | some rdKafka =>
    have fresh : rdKafka.accepted.length ∉ rdKafka.delivered :=
      fun member => lt_irrefl _ (rdKafka.delivered_lt _ member)
    cases err : outcome.produceErr with
    | true => simp [fresh]
    | false => simp [mem_delivered_poll, RdKafkaProducer.enqueue, fresh]

end SendMessage

end LibrdKafkaProducer

end KafkaReplication
