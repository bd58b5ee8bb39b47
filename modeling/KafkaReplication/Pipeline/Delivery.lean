import KafkaReplication.Consumer.Offsets
import KafkaReplication.Pipeline.EventTrip
import KafkaReplication.Producer.SentEvents

/-!
# Every event is delivered once and in order

The events that the handlers of the producer build
(`producer_azs/postgresql_replicator.cpp:412-569`) lie in a partition. The consumer's two threads
and the queue between them
(`consumer_bo/replication_consumer.h:67-131`) hand them to `handlerIncomingData`, which sees the
images of a prefix of the events as long as the process does not crash.
-/

namespace KafkaReplication
open Misc ReplicationConsumer

/-! ## The events -/

section Events

variable {jsoncpp : JsonCpp} {relation : RelationMessage} {now : UInt64}

/-- A row event that was built has its row, and the column it is keyed by as `"primary"`. -/
theorem rowEvent_eq_ok {op field : Bytes} {tuple : List Bytes} {built : Json × Bytes}
    (ok : rowEvent op field jsoncpp relation now tuple = .ok built) :
    ∃ primary, built.1 = .object (Json.insertMember (str "primary") (.string primary)
      (Json.insertMember field (rowJson (rowPairs relation.columns tuple))
        (headerMembers op relation now))) := by
  by_cases fits : tuple.length ≤ relation.columns.length
  · obtain ⟨primary, text, -, built_eq⟩ := rowEvent_ok op field jsoncpp relation now fits
    rw [built_eq] at ok
    cases ok
    exact ⟨primary, rfl⟩
  · rw [rowEvent_long op field jsoncpp relation now (Nat.lt_of_not_le fits)] at ok
    cases ok

theorem updateEvent_eq_ok {upd : UpdateMessage} {built : Json × Bytes}
    (ok : updateEvent jsoncpp relation now upd = .ok built) :
    ∃ primary, built.1 = .object (Json.insertMember (str "primary") (.string primary)
      (Json.insertMember (str "after") (rowJson (rowPairs relation.columns upd.newTuple))
        (updateMembers relation now upd))) := by
  by_cases fits : upd.oldTuple.length ≤ relation.columns.length ∧
      upd.newTuple.length ≤ relation.columns.length
  · obtain ⟨primary, text, -, built_eq⟩ := updateEvent_ok jsoncpp relation now fits.1 fits.2
    rw [built_eq] at ok
    cases ok
    exact ⟨primary, rfl⟩
  · rw [updateEvent_long jsoncpp relation now (by omega)] at ok
    cases ok

end Events

/-! ## What the events stand for -/

namespace Json

/-- The member of that name, null if there is none. -/
def member (json : Json) (name : Bytes) : Json :=
  match json with
  | object members => (members.lookup name).getD null
  | _ => null

/-- The text of the member of that name, empty if there is none. -/
def textMember (json : Json) (name : Bytes) : Bytes :=
  match json.member name with
  | string text => text
  | _ => []

end Json

/-- What an event says to the consumer: what the operation is, on which table and key, and the
rows of that operation. -/
def image (event : Json) : ConsumerMessage :=
  let op := event.textMember (str "op")
  { primaryKey := event.textMember (str "primary")
    op := op
    table := event.textMember (str "table")
    data := if op = str "INSERT" then event.member (str "data") else .null
    before :=
      if op = str "UPDATE" ∨ op = str "DELETE" then event.member (str "before") else .null
    after := if op = str "UPDATE" then event.member (str "after") else .null }

/-- The member is a text or is not there. -/
def TextOrAbsent (members : List (Bytes × Json)) (name : Bytes) : Prop :=
  members.lookup name = none ∨ ∃ text, members.lookup name = some (.string text)

section Callback

variable {members : List (Bytes × Json)} {name : Bytes}

theorem TextOrAbsent.getString (texts : TextOrAbsent members name) :
    ReplicationConsumer.getString (.object members) name =
      .ok (Json.textMember (.object members) name) := by
  rcases texts with absent | ⟨text, found⟩
  · rw [getString_absent absent, Json.textMember, Json.member, absent]
    rfl
  · rw [getString_found found, Json.textMember, Json.member, found]
    rfl

theorem TextOrAbsent.printed (texts : TextOrAbsent members name) :
    ∃ text, ReplicationConsumer.printed (.object members) name = .ok text := by
  rcases texts with absent | ⟨text, found⟩
  · exact ⟨[], printed_absent absent⟩
  · exact ⟨text, printed_found found⟩

/-- What the consumer queues for an event is its image. -/
theorem messageCallback_image (op : TextOrAbsent members (str "op"))
    (table : TextOrAbsent members (str "table"))
    (primary : TextOrAbsent members (str "primary")) :
    messageCallback (.object members) = .ok (image (.object members)) := by
  obtain ⟨opText, opPrinted⟩ := op.printed
  obtain ⟨tableText, tablePrinted⟩ := table.printed
  have notUpdate : str "INSERT" ≠ str "UPDATE" := by decide
  have notDelete : str "INSERT" ≠ str "DELETE" := by decide
  have notInsert : str "UPDATE" ≠ str "INSERT" := by decide
  have noUpdate : str "DELETE" ≠ str "UPDATE" := by decide
  have noInsert : str "DELETE" ≠ str "INSERT" := by decide
  rw [messageCallback, opPrinted, tablePrinted]
  simp only [bind, Except.bind, saveIntoQueue, op.getString, table.getString, primary.getString,
    index_object, image]
  by_cases insert : Json.textMember (.object members) (str "op") = str "INSERT"
  · simp only [insert, if_pos, if_neg notUpdate, if_neg notDelete]
    rfl
  · by_cases update : Json.textMember (.object members) (str "op") = str "UPDATE"
    · simp only [update, if_neg notInsert, true_or, if_true]
      rfl
    · by_cases delete : Json.textMember (.object members) (str "op") = str "DELETE"
      · simp only [delete, if_neg noUpdate, if_neg noInsert, or_true, if_true]
        rfl
      · simp only [if_neg insert, or_self, update, delete]
        rfl

end Callback

section Produced

variable {jsoncpp : JsonCpp}

theorem textOrAbsent_rowEvent {primary field : Bytes} {row : Json} {others : List (Bytes × Json)}
    {name : Bytes} (apart : name ≠ field) (texts : TextOrAbsent others name) :
    TextOrAbsent (Json.insertMember (str "primary") (.string primary)
      (Json.insertMember field row others)) name := by
  unfold TextOrAbsent
  rw [lookup_rowEvent, if_neg apart]
  by_cases isPrimary : name = str "primary"
  · rw [if_pos isPrimary]
    exact .inr ⟨primary, rfl⟩
  · rw [if_neg isPrimary]
    exact texts

theorem textOrAbsent_header (op : Bytes) (relation : RelationMessage) (now : UInt64) :
    TextOrAbsent (headerMembers op relation now) (str "op") ∧
      TextOrAbsent (headerMembers op relation now) (str "table") ∧
      TextOrAbsent (headerMembers op relation now) (str "primary") :=
  ⟨.inr ⟨op, rfl⟩, .inr ⟨relation.getRelationName, rfl⟩, .inl rfl⟩

/-- A row event has three text members besides its rows. -/
theorem messageCallback_rowEvent {primary field : Bytes} {row : Json}
    {others : List (Bytes × Json)} (op : TextOrAbsent others (str "op"))
    (table : TextOrAbsent others (str "table")) (noPrimary : TextOrAbsent others (str "primary"))
    (apart : field = str "data" ∨ field = str "before" ∨ field = str "after") {event : Json}
    (built : event = .object (Json.insertMember (str "primary") (.string primary)
      (Json.insertMember field row others))) :
    messageCallback event = .ok (image event) := by
  have opApart : str "op" ≠ field := by rcases apart with rfl | rfl | rfl <;> decide
  have tableApart : str "table" ≠ field := by rcases apart with rfl | rfl | rfl <;> decide
  have primaryApart : str "primary" ≠ field := by rcases apart with rfl | rfl | rfl <;> decide
  rw [built]
  exact messageCallback_image (textOrAbsent_rowEvent opApart op)
    (textOrAbsent_rowEvent tableApart table) (textOrAbsent_rowEvent primaryApart noPrimary)

theorem textOrAbsent_updateMembers (relation : RelationMessage) (now : UInt64)
    (upd : UpdateMessage) {name : Bytes} (apart : name ≠ str "before")
    (texts : TextOrAbsent (headerMembers (str "UPDATE") relation now) name) :
    TextOrAbsent (updateMembers relation now upd) name := by
  unfold updateMembers
  split
  · exact texts
  · unfold TextOrAbsent
    rw [Json.lookup_insertMember, if_neg apart]
    exact texts

/-- The consumer queues the image of every event that a handler has built. -/
theorem Produced.messageCallback {event : Json} (produced : Produced jsoncpp event) :
    ReplicationConsumer.messageCallback event = .ok (image event) := by
  cases produced with
  | @insert relation now _ _ _ built =>
    obtain ⟨primary, event_eq⟩ := rowEvent_eq_ok built
    obtain ⟨op, table, noPrimary⟩ := textOrAbsent_header (str "INSERT") relation now
    exact messageCallback_rowEvent op table noPrimary (.inl rfl) event_eq
  | @update relation now upd _ _ built =>
    obtain ⟨primary, event_eq⟩ := updateEvent_eq_ok built
    obtain ⟨op, table, noPrimary⟩ := textOrAbsent_header (str "UPDATE") relation now
    exact messageCallback_rowEvent (textOrAbsent_updateMembers relation now upd (by decide) op)
      (textOrAbsent_updateMembers relation now upd (by decide) table)
      (textOrAbsent_updateMembers relation now upd (by decide) noPrimary)
      (.inr (.inr rfl)) event_eq
  | @delete relation now _ _ _ built =>
    obtain ⟨primary, event_eq⟩ := rowEvent_eq_ok built
    obtain ⟨op, table, noPrimary⟩ := textOrAbsent_header (str "DELETE") relation now
    exact messageCallback_rowEvent op table noPrimary (.inr (.inl rfl)) event_eq
  | @truncate cache now trunc _ built =>
    obtain ⟨members, event_eq, lookups⟩ := truncateEvent_ok cache now trunc
    rw [event_eq] at built
    cases built
    have op := lookups (str "op") (by decide)
    have table := lookups (str "table") (by decide)
    have primary := lookups (str "primary") (by decide)
    exact messageCallback_image (.inr ⟨_, op⟩) (.inl table) (.inl primary)

theorem Produced.startConsuming {event : Json} (produced : Produced jsoncpp event)
    (roundTrips : jsoncpp.RoundTrips event) :
    LibRdkafkaConsumer.startConsuming jsoncpp (jsoncpp.writeString event) =
      .ok (some (image event)) := by
  have through := trip_eq roundTrips
  rw [produced.messageCallback] at through
  exact through

end Produced

/-! ## The two threads of the consumer -/

/-- The consumer's process with the messages that `handlerIncomingData` has been given. -/
structure ConsumerHistory (pg : Postgres) where
  process : ConsumerProcess pg
  given : List ConsumerMessage

namespace ConsumerHistory

variable {pg : Postgres}

def start (db : pg.Database) : ConsumerHistory pg := ⟨.start db, []⟩

/-- The writer's thread passes on what it has popped. -/
def step (jsoncpp : JsonCpp) (log : List Bytes) (s : ConsumerHistory pg)
    (action : ConsumerAction pg) : ConsumerHistory pg where
  process := s.process.step jsoncpp log action
  given :=
    match action, s.process.writer with
    | .write, some (_, msg) => s.given ++ [msg]
    | _, _ => s.given

def run (jsoncpp : JsonCpp) (log : List Bytes) (db : pg.Database)
    (actions : List (ConsumerAction pg)) : ConsumerHistory pg :=
  runFrom (step jsoncpp log) (start db) actions

/-- What the thread of `startConsumer` is about to queue. -/
def held (jsoncpp : JsonCpp) : ConsumerThread → List ConsumerMessage
  | .idle => []
  | .returned _ payload =>
      match LibRdkafkaConsumer.startConsuming jsoncpp payload with
      | .ok (some msg) => [msg]
      | _ => []
  | .pushing _ msg => [msg]

/-- All messages that have been taken from the partition, the oldest first. -/
def taken (jsoncpp : JsonCpp) (s : ConsumerHistory pg) : List ConsumerMessage :=
  s.given ++ ((s.process.writer.map Prod.snd).toList ++
    (s.process.queue.queueToSave.map Prod.snd ++ held jsoncpp s.process.consumer))

/-- Without a crash, what has been taken is what the events up to the position stand for. -/
def Faithful (jsoncpp : JsonCpp) (events : List Json) (s : ConsumerHistory pg) : Prop :=
  s.process.crashes = 0 →
    s.taken jsoncpp = (events.take s.process.position).map image

section Steps

variable {jsoncpp : JsonCpp} {events : List Json} {s : ConsumerHistory pg}

/-- The messages of the partition. -/
def payloads (jsoncpp : JsonCpp) (events : List Json) : List Bytes :=
  events.map jsoncpp.writeString

/-- What is taken comes from the next event. -/
theorem faithful_consume (produced : ∀ event ∈ events, Produced jsoncpp event)
    (roundTrips : ∀ event ∈ events, jsoncpp.RoundTrips event)
    (faithful : Faithful jsoncpp events s) :
    Faithful jsoncpp events ⟨s.process.consume (payloads jsoncpp events), s.given⟩ := by
  unfold ConsumerProcess.consume
  split
  next payload idle there =>
    intro crashes
    have before := faithful crashes
    rw [payloads, List.getElem?_map] at there
    obtain ⟨event, next, rfl⟩ := Option.map_eq_some_iff.mp there
    have member := List.mem_of_getElem? next
    have starts := (produced event member).startConsuming (roundTrips event member)
    simp only [taken, idle, held, starts, List.append_nil] at before ⊢
    rw [List.take_add_one, next, List.map_append, ← before]
    simp
  next => exact faithful

theorem faithful_callback (faithful : Faithful jsoncpp events s) :
    Faithful jsoncpp events ⟨s.process.callback jsoncpp, s.given⟩ := by
  unfold ConsumerProcess.callback
  split
  next offset payload returned =>
    split
    next msg starts =>
      intro crashes
      have before := faithful crashes
      simp only [taken, returned, held, starts] at before ⊢
      exact before
    next starts =>
      intro crashes
      have before := faithful crashes
      simp only [taken, returned, held, starts] at before ⊢
      exact before
    next =>
      intro crashes
      cases crashes
  next => exact faithful

theorem faithful_push (faithful : Faithful jsoncpp events s) :
    Faithful jsoncpp events ⟨s.process.push, s.given⟩ := by
  unfold ConsumerProcess.push
  split
  next offset msg pushing =>
    split
    next queue pushed =>
      intro crashes
      have before := faithful crashes
      have queued := SafeQueue.push_eq_some pushed
      simp only [taken, pushing, held] at before
      simp only [taken, queued, held, List.map_append, List.map_cons, List.map_nil,
        List.append_nil]
      exact before
    next => exact faithful
  next => exact faithful

theorem faithful_pop (faithful : Faithful jsoncpp events s) :
    Faithful jsoncpp events ⟨s.process.pop, s.given⟩ := by
  unfold ConsumerProcess.pop
  split
  next entry queue idle popped =>
    intro crashes
    have before := faithful crashes
    have queued := SafeQueue.pop_eq_some popped
    simp only [taken, idle, queued] at before
    simp only [taken]
    exact before
  next => exact faithful

/-- The message goes from the writer's hands to `handlerIncomingData`. -/
theorem faithful_write (log : List Bytes) (faithful : Faithful jsoncpp events s) :
    Faithful jsoncpp events (s.step jsoncpp log .write) := by
  intro crashes
  cases writing : s.process.writer with
  | none =>
    simp only [step, ConsumerProcess.step, ConsumerProcess.write, writing] at crashes ⊢
    exact faithful crashes
  | some entry =>
    obtain ⟨offset, msg⟩ := entry
    simp only [step, ConsumerProcess.step, ConsumerProcess.write, writing] at crashes ⊢
    cases outcome : DatabaseWriter.handlerIncomingData pg jsoncpp msg s.process.db with
    | ok result db =>
      rw [outcome] at crashes
      have before := faithful crashes
      simp only [taken, writing] at before ⊢
      rw [← before]
      simp
    | error fault db =>
      rw [outcome] at crashes
      cases crashes

theorem faithful_step (produced : ∀ event ∈ events, Produced jsoncpp event)
    (roundTrips : ∀ event ∈ events, jsoncpp.RoundTrips event)
    (faithful : Faithful jsoncpp events s) (action : ConsumerAction pg) :
    Faithful jsoncpp events (s.step jsoncpp (payloads jsoncpp events) action) := by
  cases action with
  | consume => exact faithful_consume produced roundTrips faithful
  | callback => exact faithful_callback faithful
  | push => exact faithful_push faithful
  | pop => exact faithful_pop faithful
  | write => exact faithful_write _ faithful
  | commit => exact faithful
  | crash db =>
    intro crashes
    cases crashes

end Steps

/-- Whatever the order of the threads' steps, without a crash `handlerIncomingData` has been
given the images of the first events, each once and in their order. -/
theorem given_prefix (pg : Postgres) (jsoncpp : JsonCpp) (events : List Json)
    (produced : ∀ event ∈ events, Produced jsoncpp event)
    (roundTrips : ∀ event ∈ events, jsoncpp.RoundTrips event) (db : pg.Database)
    (actions : List (ConsumerAction pg)) :
    let s := run jsoncpp (payloads jsoncpp events) db actions
    s.process.crashes = 0 → s.given <+: events.map image := by
  intro s crashes
  have kept : ∀ (s : ConsumerHistory pg) (action : ConsumerAction pg),
      Faithful jsoncpp events s →
      Faithful jsoncpp events (s.step jsoncpp (payloads jsoncpp events) action) :=
    fun s action faithful => faithful_step produced roundTrips faithful action
  have faithful : Faithful jsoncpp events s := runFrom_invariant kept (fun _ => rfl) actions
  have given : s.given <+: (events.take s.process.position).map image :=
    ⟨_, faithful crashes⟩
  rw [List.map_take] at given
  exact given.trans (List.take_prefix _ _)

/-- The note is deleted again. -/
def deletedNoteEvent : Json := .object
  [(str "before", .object [(str "text", .string (str "milk"))]), (str "op", .string (str "DELETE")),
    (str "primary", .string (str "text")), (str "schema", .string (str "notes")),
    (str "table", .string (str "notes")), (str "timestamp", .int 0)]

def noteEvents : List Json := [ConsumerProcess.noteEvent, deletedNoteEvent]

/-- An Insert event and a Delete event go all the way, the second one close behind the first. -/
theorem given_prefix_note :
    let s : ConsumerHistory ConsumerProcess.noteServer :=
      run (JsonCpp.compactOf noteEvents) (payloads (JsonCpp.compactOf noteEvents) noteEvents)
        (fun _ => []) [.consume, .callback, .push, .consume, .callback, .pop, .push, .write, .pop,
          .write]
    s.process.crashes = 0 ∧ s.given = [image ConsumerProcess.noteEvent, image deletedNoteEvent] ∧
      s.given <+: noteEvents.map image := by
  let notes : RelationMessage := ⟨7, [], str "notes", chr 'd', [⟨1, str "text", 25, -1⟩]⟩
  have inserted : insertEvent (JsonCpp.compactOf noteEvents) notes 0
      ⟨7, chr 'N', [str "milk"]⟩ =
      .ok (ConsumerProcess.noteEvent, Json.compactText (.string (str "milk"))) := rfl
  have deleted : deleteEvent (JsonCpp.compactOf noteEvents) notes 0 ⟨7, [str "milk"]⟩ =
      .ok (deletedNoteEvent, Json.compactText (.string (str "milk"))) := rfl
  intro s
  have crashes : s.process.crashes = 0 := rfl
  refine ⟨crashes, rfl, ?_⟩
  apply given_prefix _ _ noteEvents
  · intro event member
    simp only [noteEvents, List.mem_cons, List.not_mem_nil, or_false] at member
    rcases member with rfl | rfl
    · exact .insert inserted
    · exact .delete deleted
  · intro event member
    simp only [noteEvents, List.mem_cons, List.not_mem_nil, or_false] at member
    rcases member with rfl | rfl <;> rfl
  · exact crashes

end ConsumerHistory

end KafkaReplication
