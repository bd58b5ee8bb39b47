import KafkaReplication.Consumer.ReplicationConsumer
import KafkaReplication.Misc.Run

/-!
# `LibRdkafkaConsumer`

`consumer_bo/consumer_librdkafka.cpp` with all that it counts and reports, and the thread that calls
it (`consumer_bo/replication_consumer.h:67-75`). A payload that is no JSON is reported but not
counted as an error.
-/

namespace KafkaReplication
open Misc

/-- What `consumer_->consume(1000)` returns, by `msg->err()`. -/
inductive ConsumeResult where
  /-- `ERR_NO_ERROR`, with the key if there is one. -/
  | noError (key : Option Bytes) (payload : Bytes)
  | timedOut
  | partitionEof
  /-- Any other error, with `msg->errstr()`. -/
  | error (errstr : Bytes)

namespace ConsumeResult

def payload? : ConsumeResult → Option Bytes
  | noError _ payload => some payload
  | _ => none

def errstr? : ConsumeResult → Option Bytes
  | error errstr => some errstr
  | _ => none

/-- The payloads that come, in order. -/
def payloads (results : List ConsumeResult) : List Bytes := results.filterMap payload?

/-- The errors. -/
def errstrs (results : List ConsumeResult) : List Bytes := results.filterMap errstr?

section

variable (results : List ConsumeResult)

@[simp] theorem payloads_noError (key : Option Bytes) (payload : Bytes) :
    payloads (noError key payload :: results) = payload :: payloads results := rfl

@[simp] theorem payloads_error (errstr : Bytes) :
    payloads (error errstr :: results) = payloads results := rfl

@[simp] theorem errstrs_noError (key : Option Bytes) (payload : Bytes) :
    errstrs (noError key payload :: results) = errstrs results := rfl

@[simp] theorem errstrs_error (errstr : Bytes) :
    errstrs (error errstr :: results) = errstr :: errstrs results := rfl

end

end ConsumeResult

/-- `message_callback_` and `error_callback_`, which work on `σ`. -/
structure ConsumerCallbacks (σ : Type) where
  message : Option (Json → Bytes → EStateM Fault σ Unit) := none
  error : Option (Bytes → EStateM Fault σ Unit) := none

/-- `LibRdkafkaConsumer` (`consumer_librdkafka.h:12-41`); `consumer` is whether `consumer_` is
there. -/
structure LibRdkafkaConsumer (σ : Type) where
  consumer : Bool := false
  stats : ConsumerStats := {}
  running : Bool := false
  topicName : Bytes := []
  callbacks : ConsumerCallbacks σ := {}

namespace LibRdkafkaConsumer

section Members

variable {σ : Type}

/-- `init` (`consumer_librdkafka.cpp:29-74`); librdkafka gives a consumer if `created`, and
`subscribe` finds no error if `subscribed`. -/
def init (created subscribed : Bool) (topic : Bytes) (self : LibRdkafkaConsumer σ) :
    Bool × LibRdkafkaConsumer σ :=
  let self := { self with topicName := topic, consumer := created }
  if created && subscribed then (true, { self with running := true }) else (false, self)

/-- `status` (`consumer_librdkafka.cpp:23-26`). -/
def status (self : LibRdkafkaConsumer σ) : Bool := self.running

/-- `stop` (`consumer_librdkafka.cpp:164-170`). -/
def stop (self : LibRdkafkaConsumer σ) : LibRdkafkaConsumer σ := { self with running := false }

/-- `getStats` (`consumer_librdkafka.h:26`). -/
def getStats (self : LibRdkafkaConsumer σ) : ConsumerStats := self.stats

/-- A member function that may call the callbacks. -/
abbrev ConsumerM (σ : Type) := EStateM Fault (LibRdkafkaConsumer σ × σ)

/-- `if(callback_) callback_(...)`. -/
def call (callback : LibRdkafkaConsumer σ → Option (EStateM Fault σ Unit)) : ConsumerM σ Unit :=
  fun (self, outside) =>
    match callback self with
    | some callback =>
        match callback outside with
        | .ok _ outside => .ok () (self, outside)
        | .error fault outside => .error fault (self, outside)
    | none => .ok () (self, outside)

/-- An update of `stats_` under `stats_mutex_`. -/
def count (update : ConsumerStats → ConsumerStats) : ConsumerM σ Unit :=
  modify fun (self, outside) => ({ self with stats := update self.stats }, outside)

/-- `preStart` (`consumer_librdkafka.cpp:76-88`). -/
def preStart : ConsumerM σ Unit := do
  if (← get).1.consumer then
    modify fun (self, outside) => ({ self with running := true }, outside)
  else
    throw (.exception "Consumer not initialized")

variable (jsoncpp : JsonCpp) (errs : Bytes → Bytes)

/-- A whole call of `startConsuming` (`consumer_librdkafka.cpp:90-162`), in which `consume` returns
`result`. `errs` is what jsoncpp says about a text that it does not read. Without a message callback
the message is only printed. -/
def startConsumingCall (result : ConsumeResult) : ConsumerM σ Unit := do
  match result with
  | .noError key payload =>
      count fun stats => { stats with
        messageReceived := stats.messageReceived + 1
        bytesReceived := stats.bytesReceived + .ofNat payload.length }
      match jsoncpp.parseFromStream payload with
      | .ok (some root) => call fun self => self.callbacks.message.map (· root (key.getD []))
      | .ok none =>
          let ss := str "Failed to parse JSON: " ++ errs payload ++ str "Raw payload: " ++ payload
          call fun self => self.callbacks.error.map (· ss)
      | .error fault => throw fault
  | .timedOut => pure ()
  | .partitionEof => pure ()
  | .error errstr =>
      call fun self => self.callbacks.error.map (· errstr)
      count fun stats => { stats with errors := stats.errors + 1 }

/-- `while(consumer_->status())`, as far as `consume` has returned. -/
def whileStatus : List ConsumeResult → ConsumerM σ Unit
  | [] => pure ()
  | result :: results => do
      if (← get).1.status then
        startConsumingCall jsoncpp errs result
        whileStatus results

/-- `startConsumer` (`replication_consumer.h:67-75`). -/
def startConsumer (results : List ConsumeResult) : ConsumerM σ Unit := do
  preStart
  whileStatus jsoncpp errs results

end Members

end LibRdkafkaConsumer

/-! ## The callbacks of `ReplicationConsumer` -/

/-- What the thread of `startConsumer` leaves behind: the messages it has pushed, and the texts that
its error callback has written to `std::cerr`. -/
structure ConsumerOutput where
  pushed : List ConsumerMessage := []
  reported : List Bytes := []

namespace ReplicationConsumer

/-- The message callback up to the push (`replication_consumer.h:21-32`). -/
def pushMessage (msg : Json) (_key : Bytes) : EStateM Fault ConsumerOutput Unit := fun output =>
  match messageCallback msg with
  | .ok consumerMsg => .ok () { output with pushed := output.pushed ++ [consumerMsg] }
  | .error fault => .error fault output

/-- The error callback (`replication_consumer.h:34-36`). -/
def printError (errstr : Bytes) : EStateM Fault ConsumerOutput Unit :=
  modify fun output => { output with reported := output.reported ++ [errstr] }

/-- The consumer of the constructor (`replication_consumer.h:16-36`). -/
def started (topic : Bytes) : LibRdkafkaConsumer ConsumerOutput :=
  let consumer : LibRdkafkaConsumer ConsumerOutput := (LibRdkafkaConsumer.init true true topic {}).2
  { consumer with callbacks := ⟨some pushMessage, some printError⟩ }

end ReplicationConsumer

namespace LibRdkafkaConsumer

open ConsumeResult

section Runs

variable (jsoncpp : JsonCpp) (errs : Bytes → Bytes)

/-- The callbacks are those of `ReplicationConsumer`, and the loop goes on. -/
structure Installed (kafka : LibRdkafkaConsumer ConsumerOutput) : Prop where
  running : kafka.running = true
  message : kafka.callbacks.message = some ReplicationConsumer.pushMessage
  error : kafka.callbacks.error = some ReplicationConsumer.printError

/-- The payload of the result, if it has one, makes neither the reader nor the callback throw. -/
def Harmless (result : ConsumeResult) : Prop :=
  ∀ payload, result.payload? = some payload → ∃ pushed, startConsuming jsoncpp payload = .ok pushed

/-- The counters behind a result. -/
def counted (stats : ConsumerStats) : ConsumeResult → ConsumerStats
  | .noError _ payload =>
      { stats with
        messageReceived := stats.messageReceived + 1
        bytesReceived := stats.bytesReceived + .ofNat payload.length }
  | .timedOut => stats
  | .partitionEof => stats
  | .error _ => { stats with errors := stats.errors + 1 }

/-- What is pushed and reported for it. -/
def answered (output : ConsumerOutput) : ConsumeResult → ConsumerOutput
  | .noError _ payload =>
      match startConsuming jsoncpp payload with
      | .ok (some msg) => { output with pushed := output.pushed ++ [msg] }
      | .ok none =>
          let ss := str "Failed to parse JSON: " ++ errs payload ++ str "Raw payload: " ++ payload
          { output with reported := output.reported ++ [ss] }
      | .error _ => output
  | .timedOut => output
  | .partitionEof => output
  | .error errstr => { output with reported := output.reported ++ [errstr] }

variable {jsoncpp} {errs} {kafka : LibRdkafkaConsumer ConsumerOutput} {output : ConsumerOutput}

theorem call_pushMessage (installed : Installed kafka) {root : Json} {msg : ConsumerMessage}
    (key : Bytes) (saved : ReplicationConsumer.messageCallback root = .ok msg) :
    call (fun self => self.callbacks.message.map (· root key)) (kafka, output) =
      .ok () (kafka, { output with pushed := output.pushed ++ [msg] }) := by
  simp only [call, installed.message, Option.map_some, ReplicationConsumer.pushMessage, saved]

theorem call_printError (installed : Installed kafka) (errstr : Bytes) (output : ConsumerOutput) :
    call (fun self => self.callbacks.error.map (· errstr)) (kafka, output) =
      .ok () (kafka, { output with reported := output.reported ++ [errstr] }) := by
  simp only [call, installed.error, Option.map_some]
  rfl

/-- One call that does not throw. -/
theorem startConsumingCall_ok (installed : Installed kafka) {result : ConsumeResult}
    (harmless : Harmless jsoncpp result) (errs : Bytes → Bytes) (output : ConsumerOutput) :
    startConsumingCall jsoncpp errs result (kafka, output) =
      .ok () ({ kafka with stats := counted kafka.stats result },
        answered jsoncpp errs output result) := by
  cases result with
  | noError key payload =>
    obtain ⟨pushed, starts⟩ := harmless payload rfl
    have installed' :
        Installed { kafka with stats := counted kafka.stats (.noError key payload) } :=
      ⟨installed.running, installed.message, installed.error⟩
    have counts (rest : ConsumerM ConsumerOutput Unit) :
        (count (counted · (.noError key payload)) >>= fun _ => rest) (kafka, output) =
          rest ({ kafka with stats := counted kafka.stats (.noError key payload) }, output) := rfl
    rw [startConsumingCall]
    refine (counts _).trans ?_
    rw [answered]
    cases parsed : jsoncpp.parseFromStream payload with
    | error fault =>
      rw [startConsuming, parsed] at starts
      cases starts
    | ok read =>
      cases read with
      | some root =>
        rw [startConsuming, parsed] at starts
        cases saved : ReplicationConsumer.messageCallback root with
        | error fault => simp [saved, Except.map] at starts
        | ok msg =>
          have pushed' : startConsuming jsoncpp payload = .ok (some msg) := by
            simp only [startConsuming, parsed, saved, Except.map]
          rw [pushed']
          exact call_pushMessage installed' _ saved
      | none =>
        have rejected : startConsuming jsoncpp payload = .ok none := by
          rw [startConsuming, parsed]
        rw [rejected]
        exact call_printError installed' _ output
  | timedOut => rfl
  | partitionEof => rfl
  | error errstr =>
    have reports := call_printError installed errstr output
    rw [startConsumingCall]
    simp only [bind, EStateM.bind, reports]
    rfl

/-- The calls of the loop, one after the other. -/
theorem whileStatus_ok (installed : Installed kafka) {results : List ConsumeResult}
    (harmless : ∀ result ∈ results, Harmless jsoncpp result) :
    whileStatus jsoncpp errs results (kafka, output) =
      .ok () ({ kafka with stats := runFrom counted kafka.stats results },
        runFrom (answered jsoncpp errs) output results) := by
  induction results generalizing kafka output with
  | nil => rfl
  | cons result results ih =>
    obtain ⟨first, others⟩ := List.forall_mem_cons.mp harmless
    have called := startConsumingCall_ok installed first errs output
    have goesOn : whileStatus jsoncpp errs (result :: results) (kafka, output) =
        (startConsumingCall jsoncpp errs result >>= fun _ => whileStatus jsoncpp errs results)
          (kafka, output) := by
      have asks : whileStatus jsoncpp errs (result :: results) (kafka, output) =
          (if kafka.running = true then
            startConsumingCall jsoncpp errs result >>= fun _ => whileStatus jsoncpp errs results
          else pure ()) (kafka, output) := rfl
      rw [asks, if_pos installed.running]
    rw [goesOn]
    simp only [bind, EStateM.bind, called]
    exact ih ⟨installed.running, installed.message, installed.error⟩ others

theorem startConsumer_ok (installed : Installed kafka) (there : kafka.consumer = true)
    {results : List ConsumeResult} (harmless : ∀ result ∈ results, Harmless jsoncpp result) :
    startConsumer jsoncpp errs results (kafka, output) =
      .ok () ({ kafka with stats := runFrom counted kafka.stats results },
        runFrom (answered jsoncpp errs) output results) := by
  have asks : startConsumer jsoncpp errs results (kafka, output) =
      ((if kafka.consumer = true then
          modify fun (self, outside) => ({ self with running := true }, outside)
        else throw (.exception "Consumer not initialized") : ConsumerM ConsumerOutput Unit) >>=
        fun _ => whileStatus jsoncpp errs results) (kafka, output) := rfl
  have same : { kafka with running := true } = kafka := by rw [← installed.running]
  have starts : startConsumer jsoncpp errs results (kafka, output) =
      whileStatus jsoncpp errs results ({ kafka with running := true }, output) := by
    rw [asks, if_pos there]
    rfl
  rw [starts, same]
  exact whileStatus_ok installed harmless

/-- The counters behind a run: `message_received` and `bytes_received` are the messages and the
sizes of their payloads, and `errors` the errors of `consume`. -/
theorem runFrom_counted (results : List ConsumeResult) (stats : ConsumerStats) :
    runFrom counted stats results =
      { messageReceived := stats.messageReceived +
          .ofNat (payloads results).length
        bytesReceived := stats.bytesReceived +
          .ofNat ((payloads results).map List.length).sum
        errors := stats.errors + .ofNat (errstrs results).length } := by
  induction results generalizing stats with
  | nil => simp [runFrom, payloads, errstrs]
  | cons result results ih =>
    have rest : runFrom counted stats (result :: results) =
        runFrom counted (counted stats result) results := rfl
    rw [rest, ih]
    cases result with
    | noError key payload =>
      simp [counted, UInt64.add_assoc, UInt64.add_comm]
    | timedOut => rfl
    | partitionEof => rfl
    | error errstr =>
      simp [counted, UInt64.add_assoc, UInt64.add_comm]

/-- Where every payload is read as a change, each is pushed, and what is reported are the errors of
`consume`. -/
theorem runFrom_answered {results : List ConsumeResult}
    (changes : ∀ payload ∈ payloads results,
      ∃ msg, startConsuming jsoncpp payload = .ok (some msg))
    (errs : Bytes → Bytes) (output : ConsumerOutput) :
    ∃ msgs, List.Forall₂ (fun payload msg => startConsuming jsoncpp payload = .ok (some msg))
        (payloads results) msgs ∧
      runFrom (answered jsoncpp errs) output results =
        { pushed := output.pushed ++ msgs, reported := output.reported ++ errstrs results } := by
  induction results generalizing output with
  | nil => exact ⟨[], .nil, by simp [runFrom, errstrs]⟩
  | cons result results ih =>
    have rest : runFrom (answered jsoncpp errs) output (result :: results) =
        runFrom (answered jsoncpp errs) (answered jsoncpp errs output result) results := rfl
    rw [rest]
    cases result with
    | noError key payload =>
      obtain ⟨⟨msg, first⟩, others⟩ := List.forall_mem_cons.mp changes
      obtain ⟨msgs, pushed, after⟩ :=
        ih others (answered jsoncpp errs output (.noError key payload))
      refine ⟨msg :: msgs, .cons first pushed, ?_⟩
      rw [after, answered, first]
      simp
    | timedOut => exact ih changes output
    | partitionEof => exact ih changes output
    | error errstr =>
      obtain ⟨msgs, pushed, after⟩ := ih changes (answered jsoncpp errs output (.error errstr))
      refine ⟨msgs, pushed, ?_⟩
      rw [after, answered]
      simp

end Runs

end LibRdkafkaConsumer

end KafkaReplication
