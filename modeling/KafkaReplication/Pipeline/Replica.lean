import KafkaReplication.Consumer.Progress
import KafkaReplication.Pipeline.Restart
import KafkaReplication.Pipeline.TargetServer

/-!
# The replica

From the packets of the source to the tables of the target: the loop of the producer
(`producer_azs/postgresql_replicator.cpp:168-317`), the partition, and the two threads of the
consumer (`consumer_bo/replication_consumer.h:67-131`) in any order, with any commits and ends of
the process.
-/

namespace KafkaReplication
open Misc PgOutputParser PostgresqlReplicator DatabaseWriter

/-! ## The partition -/

/-- The changes that rounds bring, with the times at which they are handled. -/
def handlings (rounds : List StreamRound) : List (UInt64 × SourceChange) :=
  rounds.filterMap StreamRound.handling

def changes (rounds : List StreamRound) : List SourceChange := (handlings rounds).map Prod.snd

/-- The messages that the consumer queues for them. -/
def queuedMessages (jsoncpp : JsonCpp) (rounds : List StreamRound) : List ConsumerMessage :=
  (handlings rounds).map fun handling => handling.2.queued jsoncpp handling.1

/-- The values of the messages that Kafka has got. -/
def partition (jsoncpp : JsonCpp) (rounds : List StreamRound) : List Bytes :=
  (rounds.flatMap (·.sent jsoncpp)).map Prod.snd

/-- The events of the changes can be read back. -/
def EventsRoundTrip (jsoncpp : JsonCpp) (rounds : List StreamRound) : Prop :=
  ∀ handling ∈ handlings rounds, ∀ event key,
    handling.2.event jsoncpp handling.1 = .ok (event, key) → jsoncpp.RoundTrips event

section Partition

variable {jsoncpp : JsonCpp} {rounds : List StreamRound}

theorem handlings_cons (round : StreamRound) (rounds : List StreamRound) :
    handlings (round :: rounds) = round.handling.toList ++ handlings rounds := by
  rw [handlings, List.filterMap_cons]
  cases round.handling <;> rfl

/-- The consumer reads from the partition what it queues for the changes. -/
theorem partition_readable (roundTrips : EventsRoundTrip jsoncpp rounds) :
    Readable jsoncpp (partition jsoncpp rounds) (queuedMessages jsoncpp rounds) := by
  unfold Readable partition queuedMessages
  induction rounds with
  | nil => rfl
  | cons round rounds ih =>
    have later : EventsRoundTrip jsoncpp rounds := by
      intro handling mem
      apply roundTrips
      rw [handlings_cons]
      exact List.mem_append_right _ mem
    rw [List.flatMap_cons, List.map_append, List.map_append, handlings_cons, List.map_append,
      List.map_append, ih later]
    congr 1
    cases brought : round.handling with
    | none =>
      rw [StreamRound.sent, brought]
      rfl
    | some handling =>
      obtain ⟨now, source⟩ := handling
      obtain ⟨event, key, built⟩ := source.event_ok jsoncpp now
      have here : (now, source) ∈ handlings (round :: rounds) := by
        rw [handlings_cons, brought]
        exact List.mem_cons_self
      have consumed := (SourceChange.produced built).startConsuming
        (roundTrips _ here event key built)
      simp only [StreamRound.sent, brought, SourceChange.sent, SourceChange.queued, built,
        List.map_cons, List.map_nil, consumed, Option.toList]

end Partition

/-! ## The target in every state -/

section Target

variable {pg : Postgres} {jsoncpp : JsonCpp} {dialect : Dialect} {ready : Set pg.Database}
  {rounds : List StreamRound}

/-- What the tables become, one change after the other. -/
def replay (dialect : Dialect) (sources : List SourceChange) (tables : dialect.Tables) :
    dialect.Tables :=
  sources.foldl (fun tables source => source.replicated dialect tables) tables

/-- The process ends in front of the statements of the change that the writer is at, or behind
them. -/
def EndsBetween (dialect : Dialect) (ready : Set pg.Database) (sources : List SourceChange)
    (s : ConsumerProcess pg) : ConsumerAction pg → Prop
  | .crash db => db ∈ ready ∧ (dialect.tables pg db = dialect.tables pg s.db ∨
      ∃ offset msg source, s.writer = some (offset, msg) ∧ sources[offset]? = some source ∧
        dialect.tables pg db = source.replicated dialect (dialect.tables pg s.db))
  | _ => True

variable (roundTrips : EventsRoundTrip jsoncpp rounds)
  (replicates : dialect.Replicates pg ready (changes rounds))

/-- The change at an offset. -/
def replicatedAt (dialect : Dialect) (rounds : List StreamRound) (tables : dialect.Tables)
    (entry : Nat × ConsumerMessage) : dialect.Tables :=
  (changes rounds)[entry.1]?.elim tables (·.replicated dialect tables)

include roundTrips replicates

theorem replicated_queued {entry : Nat × ConsumerMessage}
    (mem : entry ∈ numbered (queuedMessages jsoncpp rounds)) {db : pg.Database}
    (isReady : db ∈ ready) :
    ∃ result db', handlerIncomingData pg jsoncpp entry.2 db = .ok result db' ∧ db' ∈ ready ∧
      dialect.tables pg db' = replicatedAt dialect rounds (dialect.tables pg db) entry := by
  have there := msg_of_numbered mem
  rw [queuedMessages, List.getElem?_map, Option.map_eq_some_iff] at there
  obtain ⟨⟨now, source⟩, found, queued⟩ := there
  have inHandlings := List.mem_of_getElem? found
  have isChange : (changes rounds)[entry.1]? = some source := by
    rw [changes, List.getElem?_map, found]
    rfl
  have done := handlerIncomingData_replicated replicates (List.mem_of_getElem? isChange)
    (roundTrips (now, source) inHandlings) isReady
  rw [replicatedAt, isChange, ← queued]
  exact done

/-- The tables as they are seen while the messages are handled. -/
def replicaView :
    ConsumerProcess.View pg jsoncpp (queuedMessages jsoncpp rounds) dialect.Tables where
  ready := ready
  view db _ := dialect.tables pg db
  apply := replicatedAt dialect rounds
  written := by
    intro entry mem db isReady _ result db' handles
    obtain ⟨result', db'', handles', stays, becomes⟩ :=
      replicated_queued roundTrips replicates mem isReady
    rw [handles'] at handles
    cases handles
    exact ⟨stays, becomes⟩
  failed := by
    intro entry mem db isReady _ fault db' fails
    obtain ⟨result', db'', handles', -⟩ := replicated_queued roundTrips replicates mem isReady
    rw [handles'] at fails
    cases fails

theorem allows_of_endsBetween {s : ConsumerProcess pg} {action : ConsumerAction pg}
    (ends : EndsBetween dialect ready (changes rounds) s action) :
    (replicaView roundTrips replicates).Allows s action := by
  cases action with
  | crash db =>
    obtain ⟨isReady, same | ⟨offset, msg, source, writing, found, becomes⟩⟩ := ends
    · exact ⟨isReady, .inl same⟩
    · refine ⟨isReady, .inr ⟨(offset, msg), writing, ?_⟩⟩
      show dialect.tables pg db = replicatedAt dialect rounds (dialect.tables pg s.db) _
      rw [replicatedAt, found]
      exact becomes
  | consume => trivial
  | callback => trivial
  | push => trivial
  | pop => trivial
  | write => trivial
  | commit => trivial

omit roundTrips replicates in
/-- Item by item of the partition, or change by change. -/
theorem replay_stretches (stretches : List Stretch) (tables : dialect.Tables) :
    (stretches.flatMap (Stretch.items (numbered (queuedMessages jsoncpp rounds)))).foldl
        (replicatedAt dialect rounds) tables =
      replay dialect (stretches.flatMap (Stretch.items (changes rounds))) tables := by
  let at_ : Nat × ConsumerMessage → Option SourceChange := fun entry => (changes rounds)[entry.1]?
  let become : dialect.Tables → Option SourceChange → dialect.Tables := fun tables source =>
    source.elim tables (·.replicated dialect tables)
  have items : (numbered (queuedMessages jsoncpp rounds)).map at_ = (changes rounds).map some := by
    have offsets := numbered_offsets (queuedMessages jsoncpp rounds)
    have count : (queuedMessages jsoncpp rounds).length = (changes rounds).length := by
      rw [queuedMessages, changes, List.length_map, List.length_map]
    have at_offsets : (numbered (queuedMessages jsoncpp rounds)).map at_ =
        (List.range (changes rounds).length).map ((changes rounds)[·]?) := by
      rw [← count, ← offsets, List.map_map]
      rfl
    rw [at_offsets]
    apply List.ext_getElem?
    intro offset
    rw [List.getElem?_map, List.getElem?_map]
    by_cases within : offset < (changes rounds).length
    · rw [List.getElem?_range within, List.getElem?_eq_getElem within]
      exact congrArg some (List.getElem?_eq_getElem within)
    · rw [List.getElem?_eq_none (by rw [List.length_range]; omega),
        List.getElem?_eq_none (by omega)]
      rfl
  have folded : ∀ entries : List (Nat × ConsumerMessage),
      entries.foldl (replicatedAt dialect rounds) tables =
        (entries.map at_).foldl become tables := by
    intro entries
    rw [List.foldl_map]
    rfl
  rw [folded, Stretch.map_flatMap_items, items, ← Stretch.map_flatMap_items, List.foldl_map]
  rfl

end Target

/-! ## The whole way -/

/-- A session that has just been opened. The server sends every relation before its changes, Kafka
takes what it is given, and that can be read back. -/
structure Streams (jsoncpp : JsonCpp) (session : Session) (rounds : List StreamRound) : Prop where
  up : session.down = false
  initialised : session.replicator.Initialised
  nothing : session.replicator.accepted = []
  known : RelationsKnown session.replicator.relationCache rounds
  takes : ∀ round ∈ rounds, round.round.env.kafka.produceErr = false
  roundTrips : EventsRoundTrip jsoncpp rounds

section Streams

variable {pg : Postgres} {jsoncpp : JsonCpp} {dialect : Dialect} {ready : Set pg.Database}
  {session : Session} {rounds : List StreamRound}

/-- The values that librdkafka has taken in the session, and that the partition holds when they are
delivered. -/
def keptLog (jsoncpp : JsonCpp) (session : Session) (rounds : List StreamRound) : List Bytes :=
  (session.reads jsoncpp rounds).replicator.accepted.map Prod.snd

theorem Streams.goesOn (streams : Streams jsoncpp session rounds) :
    (session.reads jsoncpp rounds).down = false ∧
      keptLog jsoncpp session rounds = partition jsoncpp rounds := by
  obtain ⟨goesOn, accepted⟩ :=
    Session.reads_sent streams.up streams.initialised streams.takes streams.known
  refine ⟨goesOn, ?_⟩
  rw [keptLog, accepted, streams.nothing, List.nil_append, partition]

theorem Streams.readable (streams : Streams jsoncpp session rounds) :
    Readable jsoncpp (keptLog jsoncpp session rounds) (queuedMessages jsoncpp rounds) := by
  rw [streams.goesOn.2]
  exact partition_readable streams.roundTrips

theorem Streams.count (streams : Streams jsoncpp session rounds) :
    (keptLog jsoncpp session rounds).length = (changes rounds).length := by
  rw [streams.readable.length_eq, queuedMessages, changes, List.length_map, List.length_map]

/-- The tables are what the reader's stretches of the changes make of the first ones. -/
theorem shown_replayed {roundTrips : EventsRoundTrip jsoncpp rounds}
    {replicates : dialect.Replicates pg ready (changes rounds)} {log : List Bytes}
    {tables : dialect.Tables} {s : ConsumerProcess pg} {r : LogReader dialect.Tables}
    (shown : ConsumerProcess.Shown (replicaView roundTrips replicates) log tables s r) :
    dialect.tables pg s.db =
      replay dialect (r.stretches.flatMap (Stretch.items (changes rounds))) tables := by
  have replayed := shown.sound.replayed
  rw [shown.store] at replayed
  exact replayed.trans (replay_stretches _ _)

end Streams

/-! ## A stream of users -/

/-- A round that brings a message in a packet, with all positions zero. -/
def packetRound (message : ChangeMessage) (size_lt : message.encode.length < 2 ^ 62) :
    StreamRound where
  round :=
    { env := {}
      copyData := .data ⟨chr 'w' :: (List.replicate 24 0 ++ message.encode), by
        rw [List.length_cons, List.length_append, List.length_replicate]
        omega⟩ }
  message := some message
  brings := by
    refine .wal ⟨rfl, ?_⟩ rfl
    show 25 ≤ (chr 'w' :: (List.replicate 24 0 ++ message.encode)).length
    rw [List.length_cons, List.length_append, List.length_replicate]
    omega

theorem digit_short (digit : UInt8) : [digit].length < 2 ^ 32 := by
  rw [List.length_singleton]
  decide

/-- A number of one digit. -/
def digitText (digit : UInt8) : { bytes : Bytes // bytes.length < 2 ^ 32 } :=
  ⟨[digit], digit_short digit⟩

def userTuple (id : { bytes : Bytes // bytes.length < 2 ^ 32 }) : RowTuple publicUsers :=
  ⟨⟨[.text id], by rw [List.length_singleton]; decide⟩, rfl⟩

def userChange (change : TupleChange publicUsers) : SourceChange := ⟨publicUsers, change, by decide⟩

def insertUser (id : { bytes : Bytes // bytes.length < 2 ^ 32 }) : SourceChange :=
  userChange (.insert (userTuple id))

/-- `DELETE FROM users WHERE id = 1`. -/
def deleteUser : SourceChange := userChange (.delete .key (userTuple (digitText (chr '1'))))

/-- `UPDATE users SET id = 3 WHERE id = 2`. -/
def updateUser : SourceChange :=
  userChange (.update (some (.key, userTuple (digitText (chr '2'))))
    (userTuple (digitText (chr '3'))))

def userRounds : List StreamRound :=
  [packetRound (.relation publicUsers publicUsers_documented) (by decide),
    packetRound (.change (insertUser (digitText (chr '1')))) (by decide),
    packetRound (.change (insertUser (digitText (chr '2')))) (by decide),
    packetRound (.change updateUser) (by decide),
    packetRound (.change deleteUser) (by decide)]

def updatedUserEvent : Json := .object
  [(str "after", .object [(str "id", .string (str "2"))]), (str "op", .string (str "UPDATE")),
    (str "primary", .string (str "id")), (str "schema", .string (str "users")),
    (str "table", .string (str "users")), (str "timestamp", .int 0)]

def deletedUserEvent : Json := .object
  [(str "before", .object [(str "id", .string (str "1"))]), (str "op", .string (str "DELETE")),
    (str "primary", .string (str "id")), (str "schema", .string (str "users")),
    (str "table", .string (str "users")), (str "timestamp", .int 0)]

def userEvents : List Json :=
  [userEvent (str "1"), userEvent (str "2"), updatedUserEvent, deletedUserEvent]

theorem userRounds_roundTrip :
    EventsRoundTrip (JsonCpp.compactOf userEvents) userRounds := by
  intro handling mem event key built
  have all : handlings userRounds = [(0, insertUser (digitText (chr '1'))),
    (0, insertUser (digitText (chr '2'))), (0, updateUser), (0, deleteUser)] := rfl
  rw [all] at mem
  simp only [List.mem_cons, List.not_mem_nil, or_false] at mem
  rcases mem with rfl | rfl | rfl | rfl
  all_goals
    cases built
    rfl

theorem userRounds_stream :
    Streams (JsonCpp.compactOf userEvents) ⟨startedReplicator, false, []⟩ userRounds where
  up := rfl
  initialised := startedReplicator_fresh.initialised
  nothing := rfl
  known := by
    refine ⟨?_, ?_, ?_, ?_, ?_, trivial⟩
    · rintro message ⟨⟩ source ⟨⟩
    all_goals
      rintro message ⟨⟩ source ⟨⟩
      rfl
  takes := by decide
  roundTrips := userRounds_roundTrip

theorem publicUsers_replicable : letterDialect.Replicable publicUsers where
  toPlain := publicUsers_plain
  keyed := ⟨by decide, _, List.mem_cons_self, rfl⟩
  tablePlain := by decide
  named := by decide

theorem userRounds_replicates :
    letterDialect.Replicates (letterDialect.targetServer 23) Set.univ (changes userRounds) := by
  have all : changes userRounds = [insertUser (digitText (chr '1')),
    insertUser (digitText (chr '2')), updateUser, deleteUser] := rfl
  apply Dialect.targetServer_replicates
  · intro source mem
    rw [all] at mem
    simp only [List.mem_cons, List.not_mem_nil, or_false] at mem
    rcases mem with rfl | rfl | rfl | rfl <;> exact publicUsers_replicable
  · intro source mem
    rw [all] at mem
    simp only [List.mem_cons, List.not_mem_nil, or_false] at mem
    rcases mem with rfl | rfl | rfl | rfl
    · trivial
    · trivial
    · trivial
    · intro entry first
      cases first
      exact ⟨rfl, by decide⟩
  · intro source mem
    rw [all] at mem
    simp only [List.mem_cons, List.not_mem_nil, or_false] at mem
    rcases mem with rfl | rfl | rfl | rfl
    · have fits : (letterDialect.targetServer 23).TextsFit
          (textMembers (userTuple (digitText (chr '1'))).tuple.pairs) := by decide
      exact fits
    · have fits : (letterDialect.targetServer 23).TextsFit
          (textMembers (userTuple (digitText (chr '2'))).tuple.pairs) := by decide
      exact fits
    · have fits : (letterDialect.targetServer 23).TextsFit
          (textMembers (userTuple (digitText (chr '2'))).tuple.pairs) := by decide
      exact fits
    · trivial

end KafkaReplication
