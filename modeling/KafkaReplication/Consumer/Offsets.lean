import KafkaReplication.Consumer.ReplicationConsumer
import KafkaReplication.Consumer.SafeQueue
import KafkaReplication.Misc.Run

/-!
# Committed offsets

The consumer's process (`consumer_bo/replication_consumer.h:42-131`): one thread takes messages
from Kafka and puts them into the queue, the other takes them from the queue and writes them.
`enable.auto.commit` (`consumer_bo/consumer_librdkafka.cpp:51`) has librdkafka commit what
`consume` has returned, at any time between two steps.
-/

namespace KafkaReplication
open Misc

/-- `QUEUE_SIZE` (`replication_consumer.h:9`). -/
def queueSize : Nat := 1000

/-- Where the thread of `startConsumer` is. A message goes with its offset, which the code does
not keep. -/
inductive ConsumerThread where
  /-- In front of `consume`. -/
  | idle
  /-- `consume` has returned a payload. -/
  | returned (offset : Nat) (payload : Bytes)
  /-- `saveIntoQueue` is about to push. -/
  | pushing (offset : Nat) (msg : ConsumerMessage)

/-- The offset of the message in the thread's hands. -/
def ConsumerThread.offsets : ConsumerThread → List Nat
  | idle => []
  | returned offset _ => [offset]
  | pushing offset _ => [offset]

/-- The consumer, the database it writes to, and its group's committed offset. What has been
handled or skipped is not part of the process. -/
structure ConsumerProcess (pg : Postgres) where
  /-- The offset of the message that `consume` returns next. -/
  position : Nat
  consumer : ConsumerThread
  queue : SafeQueue (Nat × ConsumerMessage) queueSize
  /-- What the thread of `startDbWriter` has taken from the queue. -/
  writer : Option (Nat × ConsumerMessage)
  db : pg.Database
  committed : Nat
  /-- The offsets that `handlerIncomingData` has dealt with, and what it returned. -/
  handled : List (Nat × Bool)
  /-- The offsets that were in memory at a crash and below the committed offset. -/
  skipped : List Nat
  crashes : Nat

/-- What can happen next. A `consume` that returns no message changes nothing and is no step. -/
inductive ConsumerAction (pg : Postgres) where
  | consume
  | callback
  | push
  | pop
  | write
  | commit
  /-- The process ends, perhaps between two statements of the writer, and is started again. -/
  | crash (db : pg.Database)

namespace ConsumerProcess

variable {pg : Postgres}

/-- The first start of the process. -/
def start (db : pg.Database) : ConsumerProcess pg where
  position := 0
  consumer := .idle
  queue := .empty
  writer := none
  db := db
  committed := 0
  handled := []
  skipped := []
  crashes := 0

variable (s : ConsumerProcess pg)

/-- The offsets of the messages that the process holds. -/
def inMemory : List Nat :=
  s.consumer.offsets ++ (s.queue.queueToSave.map Prod.fst ++ (s.writer.map Prod.fst).toList)

/-- A restart resumes at the committed offset with nothing in memory. -/
def crash (db : pg.Database) : ConsumerProcess pg where
  position := s.committed
  consumer := .idle
  queue := .empty
  writer := none
  db := db
  committed := s.committed
  handled := s.handled
  skipped := s.skipped ++ s.inMemory.filter (· < s.committed)
  crashes := s.crashes + 1

section Steps

variable (jsoncpp : JsonCpp) (log : List Bytes)

/-- `consume` returns the next message of the log, if there is one. -/
def consume : ConsumerProcess pg :=
  match s.consumer, log[s.position]? with
  | .idle, some payload =>
      { s with position := s.position + 1, consumer := .returned s.position payload }
  | _, _ => s

/-- The rest of `startConsuming` up to the push. Nobody catches what is thrown in a thread. -/
def callback : ConsumerProcess pg :=
  match s.consumer with
  | .returned offset payload =>
      match LibRdkafkaConsumer.startConsuming jsoncpp payload with
      | .ok (some msg) => { s with consumer := .pushing offset msg }
      | .ok none => { s with consumer := .idle }
      | .error _ => s.crash s.db
  | _ => s

/-- `safe_queue_.push(consumer_msg)`, which waits while the queue is full. -/
def push : ConsumerProcess pg :=
  match s.consumer with
  | .pushing offset msg =>
      match s.queue.push (offset, msg) with
      | some queue => { s with consumer := .idle, queue := queue }
      | none => s
  | _ => s

/-- `safe_queue_.pop()`, which waits while the queue is empty. -/
def pop : ConsumerProcess pg :=
  match s.writer, s.queue.pop with
  | none, some (entry, queue) => { s with queue := queue, writer := some entry }
  | _, _ => s

/-- `db_writer_->handlerIncomingData(data_to_save)`, whose result is not looked at. -/
def write : ConsumerProcess pg :=
  match s.writer with
  | some (offset, msg) =>
      match DatabaseWriter.handlerIncomingData pg jsoncpp msg s.db with
      | .ok result db =>
          { s with writer := none, db := db, handled := s.handled ++ [(offset, result)] }
      | .error _ db => s.crash db
  | none => s

/-- The automatic commit. -/
def commit : ConsumerProcess pg := { s with committed := s.position }

def step : ConsumerAction pg → ConsumerProcess pg
  | .consume => s.consume log
  | .callback => s.callback jsoncpp
  | .push => s.push
  | .pop => s.pop
  | .write => s.write jsoncpp
  | .commit => s.commit
  | .crash db => s.crash db

end Steps

/-! ## What becomes of a message -/

/-- `handlerIncomingData` has reported success for the message. -/
def Applied (offset : Nat) : Prop := (offset, true) ∈ s.handled

/-- `handlerIncomingData` has reported a failure. -/
def Failed (offset : Nat) : Prop := (offset, false) ∈ s.handled

/-- The message has been handled, is in memory, or was there at a crash. -/
def Accounted (offset : Nat) : Prop :=
  s.Applied offset ∨ s.Failed offset ∨ offset ∈ s.inMemory ∨ offset ∈ s.skipped

/-- The message at the offset is not one that the reader finds to be no JSON. -/
def IsChange (jsoncpp : JsonCpp) (log : List Bytes) (offset : Nat) : Prop :=
  ∃ payload, log[offset]? = some payload ∧ jsoncpp.parseFromStream payload ≠ .ok none

/-- There is never more in memory than what the queue and the two threads hold. -/
theorem inMemory_length_le : s.inMemory.length ≤ queueSize + 2 := by
  have queued := s.queue.size_le
  have consumer : s.consumer.offsets.length ≤ 1 := by
    cases s.consumer with
    | idle => exact Nat.zero_le 1
    | returned offset payload => exact Nat.le_refl 1
    | pushing offset msg => exact Nat.le_refl 1
  have writer : (s.writer.map Prod.fst).toList.length ≤ 1 := by
    cases s.writer with
    | none => exact Nat.zero_le 1
    | some entry => exact Nat.le_refl 1
  rw [inMemory, List.length_append, List.length_append, List.length_map]
  omega

variable {s} {jsoncpp : JsonCpp} {log : List Bytes}

theorem accounted_of_handled {offset : Nat} {result : Bool}
    (handled : (offset, result) ∈ s.handled) : s.Accounted offset := by
  cases result with
  | true => exact Or.inl handled
  | false => exact Or.inr (Or.inl handled)

theorem accounted_of_held {offset : Nat} (held : offset ∈ s.inMemory) : s.Accounted offset :=
  Or.inr (Or.inr (Or.inl held))

theorem accounted_of_skipped {offset : Nat} (skipped : offset ∈ s.skipped) :
    s.Accounted offset :=
  Or.inr (Or.inr (Or.inr skipped))

/-- What is kept, and what is in memory is still there or has been dealt with. -/
theorem Accounted.mono {s' : ConsumerProcess pg} {offset : Nat} (accounted : s.Accounted offset)
    (handled : s.handled ⊆ s'.handled)
    (memory : offset ∈ s.inMemory → s'.Accounted offset)
    (skipped : s.skipped ⊆ s'.skipped) : s'.Accounted offset := by
  rcases accounted with applied | failed | held | lost
  · exact Or.inl (handled applied)
  · exact Or.inr (Or.inl (handled failed))
  · exact memory held
  · exact accounted_of_skipped (skipped lost)

theorem mem_inMemory {offset : Nat} : offset ∈ s.inMemory ↔
    offset ∈ s.consumer.offsets ∨ offset ∈ s.queue.queueToSave.map Prod.fst ∨
      offset ∈ (s.writer.map Prod.fst).toList := by
  rw [inMemory, List.mem_append, List.mem_append]

/-- Such a payload does not go to the error callback. -/
theorem startConsuming_ne_none {offset : Nat} {payload : Bytes}
    (change : IsChange jsoncpp log offset) (there : log[offset]? = some payload) :
    LibRdkafkaConsumer.startConsuming jsoncpp payload ≠ .ok none := by
  obtain ⟨payload', there', read⟩ := change
  rw [there] at there'
  cases there'
  unfold LibRdkafkaConsumer.startConsuming
  cases parsed : jsoncpp.parseFromStream payload with
  | error fault => simp
  | ok value =>
    cases value with
    | none => exact absurd parsed read
    | some root =>
      change (ReplicationConsumer.messageCallback root).map some ≠ .ok none
      cases ReplicationConsumer.messageCallback root <;> simp [Except.map]

/-! ## The invariant -/

/-- Every message that `consume` has returned since the last restart or that is committed is
accounted for, and a crash skips no more than there was in memory. -/
structure Inv (jsoncpp : JsonCpp) (log : List Bytes) (s : ConsumerProcess pg) : Prop where
  committed_le : s.committed ≤ s.position
  accounted : ∀ offset < s.position, IsChange jsoncpp log offset → s.Accounted offset
  returned : ∀ offset payload, s.consumer = .returned offset payload →
    log[offset]? = some payload
  skipped_le : s.skipped.length ≤ s.crashes * (queueSize + 2)

theorem start_inv (db : pg.Database) : Inv jsoncpp log (start db) where
  committed_le := Nat.le_refl 0
  accounted := fun offset early => absurd early (Nat.not_lt_zero offset)
  returned := by
    intro offset payload returned
    cases returned
  skipped_le := Nat.zero_le _

theorem crash_inv (inv : Inv jsoncpp log s) (db : pg.Database) :
    Inv jsoncpp log (s.crash db) where
  committed_le := Nat.le_refl _
  accounted := by
    intro offset early change
    have before := inv.accounted offset (Nat.lt_of_lt_of_le early inv.committed_le) change
    refine before.mono (List.Subset.refl _) ?_ (List.subset_append_left _ _)
    intro held
    have lost : offset ∈ s.inMemory.filter (· < s.committed) :=
      List.mem_filter.mpr ⟨held, decide_eq_true early⟩
    exact accounted_of_skipped (List.mem_append_right _ lost)
  returned := by
    intro offset payload returned
    cases returned
  skipped_le := by
    have before := inv.skipped_le
    have lost := (List.length_filter_le (· < s.committed) s.inMemory).trans s.inMemory_length_le
    show (s.skipped ++ s.inMemory.filter (· < s.committed)).length ≤ (s.crashes + 1) * _
    rw [List.length_append, Nat.succ_mul]
    exact Nat.add_le_add before lost

theorem consume_inv (inv : Inv jsoncpp log s) : Inv jsoncpp log (s.consume log) := by
  unfold consume
  split
  next payload idle there =>
    refine ⟨Nat.le_succ_of_le inv.committed_le, ?_, ?_, inv.skipped_le⟩
    · intro offset early change
      rcases Nat.lt_succ_iff_lt_or_eq.mp early with earlier | last
      · refine (inv.accounted offset earlier change).mono (List.Subset.refl _) ?_
          (List.Subset.refl _)
        intro held
        rcases mem_inMemory.mp held with hands | others
        · rw [idle] at hands
          cases hands
        · exact accounted_of_held (mem_inMemory.mpr (Or.inr others))
      · -- the new message is in the thread's hands
        have held : offset ∈ [s.position] := List.mem_singleton.mpr last
        exact accounted_of_held (mem_inMemory.mpr (Or.inl held))
    · intro offset payload' returned
      cases returned
      exact there
  next => exact inv

/-- A step that hands messages on: no offset moves, and what was in memory is accounted for. -/
theorem Inv.handsOn (inv : Inv jsoncpp log s) {s' : ConsumerProcess pg}
    (committed : s'.committed = s.committed) (position : s'.position = s.position)
    (skipped : s'.skipped = s.skipped) (crashes : s'.crashes = s.crashes)
    (handled : s.handled ⊆ s'.handled)
    (memory : ∀ offset ∈ s.inMemory, IsChange jsoncpp log offset → s'.Accounted offset)
    (returned : ∀ offset payload, s'.consumer = .returned offset payload →
      log[offset]? = some payload) : Inv jsoncpp log s' where
  committed_le := by
    rw [committed, position]
    exact inv.committed_le
  accounted := by
    intro offset early change
    rw [position] at early
    refine (inv.accounted offset early change).mono handled (memory offset · change) ?_
    rw [skipped]
    exact List.Subset.refl _
  returned := returned
  skipped_le := by
    rw [skipped, crashes]
    exact inv.skipped_le

theorem callback_inv (inv : Inv jsoncpp log s) : Inv jsoncpp log (s.callback jsoncpp) := by
  unfold callback
  split
  next offset payload returned =>
    have there := inv.returned offset payload returned
    split
    next msg _ =>
      refine inv.handsOn rfl rfl rfl rfl (List.Subset.refl _) ?_ ?_
      · intro other held _
        rw [mem_inMemory, returned] at held
        exact accounted_of_held (mem_inMemory.mpr held)
      · intro other payload' returned'
        cases returned'
    next dropped =>
      refine inv.handsOn rfl rfl rfl rfl (List.Subset.refl _) ?_ ?_
      · intro other held change
        rcases mem_inMemory.mp held with hands | others
        · -- what was dropped was not JSON
          rw [returned] at hands
          have same : other = offset := List.mem_singleton.mp hands
          subst same
          exact absurd dropped (startConsuming_ne_none change there)
        · exact accounted_of_held (mem_inMemory.mpr (Or.inr others))
      · intro other payload' returned'
        cases returned'
    next => exact crash_inv inv s.db
  next => exact inv

theorem push_inv (inv : Inv jsoncpp log s) : Inv jsoncpp log s.push := by
  unfold push
  split
  next offset msg pushing =>
    split
    next queue pushed =>
      refine inv.handsOn rfl rfl rfl rfl (List.Subset.refl _) ?_ ?_
      · intro other held _
        have queued := SafeQueue.push_eq_some pushed
        refine accounted_of_held (mem_inMemory.mpr (Or.inr ?_))
        show other ∈ queue.queueToSave.map Prod.fst ∨ _
        rw [queued, List.map_append, List.mem_append]
        rcases mem_inMemory.mp held with hands | inQueue | writing
        · rw [pushing] at hands
          exact Or.inl (Or.inr hands)
        · exact Or.inl (Or.inl inQueue)
        · exact Or.inr writing
      · intro other payload returned
        cases returned
    next => exact inv
  next => exact inv

theorem pop_inv (inv : Inv jsoncpp log s) : Inv jsoncpp log s.pop := by
  unfold pop
  split
  next entry queue idle popped =>
    refine inv.handsOn rfl rfl rfl rfl (List.Subset.refl _) ?_ inv.returned
    intro offset held _
    have queued := SafeQueue.pop_eq_some popped
    refine accounted_of_held (mem_inMemory.mpr ?_)
    show offset ∈ s.consumer.offsets ∨ offset ∈ queue.queueToSave.map Prod.fst ∨
      offset ∈ [entry.1]
    rcases mem_inMemory.mp held with hands | inQueue | writing
    · exact Or.inl hands
    · rw [queued, List.map_cons, List.mem_cons] at inQueue
      rcases inQueue with first | later
      · exact Or.inr (Or.inr (List.mem_singleton.mpr first))
      · exact Or.inr (Or.inl later)
    · rw [idle] at writing
      cases writing
  next => exact inv

theorem write_inv (inv : Inv jsoncpp log s) : Inv jsoncpp log (s.write jsoncpp) := by
  unfold write
  split
  next offset msg taken =>
    split
    next result db _ =>
      refine inv.handsOn rfl rfl rfl rfl (List.subset_append_left _ _) ?_ inv.returned
      intro other held _
      rcases mem_inMemory.mp held with hands | inQueue | writing
      · exact accounted_of_held (mem_inMemory.mpr (Or.inl hands))
      · exact accounted_of_held (mem_inMemory.mpr (Or.inr (Or.inl inQueue)))
      · rw [taken] at writing
        have same : other = offset := List.mem_singleton.mp writing
        rw [same]
        exact accounted_of_handled (List.mem_append_right _ List.mem_cons_self)
    next db _ => exact crash_inv inv db
  next => exact inv

theorem commit_inv (inv : Inv jsoncpp log s) : Inv jsoncpp log s.commit :=
  ⟨Nat.le_refl _, inv.accounted, inv.returned, inv.skipped_le⟩

theorem step_inv (inv : Inv jsoncpp log s) (action : ConsumerAction pg) :
    Inv jsoncpp log (s.step jsoncpp log action) := by
  cases action with
  | consume => exact consume_inv inv
  | callback => exact callback_inv inv
  | push => exact push_inv inv
  | pop => exact pop_inv inv
  | write => exact write_inv inv
  | commit => exact commit_inv inv
  | crash db => exact crash_inv inv db

/-! ## Runs -/

/-- The process after the actions, whatever their order. -/
def run (jsoncpp : JsonCpp) (log : List Bytes) (db : pg.Database)
    (actions : List (ConsumerAction pg)) : ConsumerProcess pg :=
  runFrom (step · jsoncpp log ·) (start db) actions

theorem run_inv (jsoncpp : JsonCpp) (log : List Bytes) (db : pg.Database)
    (actions : List (ConsumerAction pg)) : Inv jsoncpp log (run jsoncpp log db actions) := by
  apply runFrom_invariant
  · intro s action inv
    exact step_inv inv action
  · exact start_inv db

/-- A committed message has been handled, or is in memory, or was skipped by a crash, and each
crash skips no more than the queue and the two threads hold. -/
theorem committed_accounted (jsoncpp : JsonCpp) (log : List Bytes) (db : pg.Database)
    (actions : List (ConsumerAction pg)) :
    let s := run jsoncpp log db actions
    (∀ offset < s.committed, IsChange jsoncpp log offset → s.Accounted offset) ∧
      s.inMemory.length ≤ queueSize + 2 ∧
      s.skipped.length ≤ s.crashes * (queueSize + 2) := by
  intro s
  have inv := run_inv jsoncpp log db actions
  refine ⟨?_, s.inMemory_length_le, inv.skipped_le⟩
  intro offset early
  exact inv.accounted offset (Nat.lt_of_lt_of_le early inv.committed_le)

/-! ## A message that nobody writes -/

/-- Every committed message has been written to the database. -/
def CommittedApplied (jsoncpp : JsonCpp) (log : List Bytes) (s : ConsumerProcess pg) : Prop :=
  ∀ offset < s.committed, IsChange jsoncpp log offset → s.Applied offset

def noteEvent : Json := .object
  [(str "data", .object [(str "text", .string (str "milk"))]), (str "op", .string (str "INSERT")),
    (str "primary", .string (str "text")), (str "schema", .string (str "notes")),
    (str "table", .string (str "notes")), (str "timestamp", .int 0)]

def noteLog : List Bytes := [noteEvent.compactText]

/-- A server that would take the row. -/
def noteServer : Postgres :=
  .ofStatement .plain (str "INSERT INTO notes (\"text\") VALUES ('milk')") fun db table =>
    if table = str "notes" then
      db table ++ [fun column => if column = str "text" then some (str "milk") else none]
    else db table

/-- The message is committed while it is on its way to the queue. After the restart it is not
read again. -/
def lostNote : ConsumerProcess noteServer :=
  run (JsonCpp.compact noteEvent) noteLog (fun _ => [])
    [.consume, .callback, .commit, .crash fun _ => []]

theorem lostNote_not_applied :
    ¬ CommittedApplied (JsonCpp.compact noteEvent) noteLog lostNote := by
  intro applied
  have change : IsChange (JsonCpp.compact noteEvent) noteLog 0 :=
    ⟨noteEvent.compactText, rfl, fun unread => by
      have read : (JsonCpp.compact noteEvent).parseFromStream noteEvent.compactText =
          .ok (some noteEvent) := JsonCpp.compact_roundTrips noteEvent
      simp [read] at unread⟩
  have committed : lostNote.committed = 1 := by
    rfl
  have nothing : lostNote.handled = [] := by
    rfl
  have handled := applied 0 (committed ▸ Nat.one_pos) change
  rw [Applied, nothing] at handled
  cases handled

end ConsumerProcess

end KafkaReplication
