import Mathlib.Data.List.Perm.Basic
import KafkaReplication.Pipeline.TargetTables
import KafkaReplication.Producer.Stored
import KafkaReplication.Producer.WalStream

/-!
# A restart of the producer

`parsePacket` (`producer_azs/postgresql_replicator.cpp:246-301`) reports a position for every
packet, and PostgreSQL sends a transaction again from its beginning. Neither the events nor the
statements of `consumer_bo/database_writer.cpp:98-173` say which row of the source they are
about: an event that comes again is one more row. What the process that stops has only queued may be
lost with it.
-/

namespace KafkaReplication
open Misc PgOutputParser PostgresqlReplicator DatabaseWriter

/-! ## Rows of transactions -/

/-- A row that a transaction inserts, with the LSN of its commit. -/
structure CommittedRow where
  commitLsn : Nat
  relation : RelationMessage
  tuple : TupleData
  full : tuple.columns.length = relation.columns.length

/-- A committed transaction made of INSERTs. -/
structure SourceTransaction where
  commitLsn : Nat
  rows : List CommittedRow
  committed : ∀ row ∈ rows, row.commitLsn = commitLsn

/-- The rows of transactions, in the order of their commits. -/
def rowsOf (transactions : List SourceTransaction) : List CommittedRow :=
  transactions.flatMap SourceTransaction.rows

/-- The rows of the transactions above a position. -/
theorem rowsOf_filter (lsn : Nat) (transactions : List SourceTransaction) :
    rowsOf (transactions.filter (lsn < ·.commitLsn)) =
      (rowsOf transactions).filter (lsn < ·.commitLsn) := by
  induction transactions with
  | nil => rfl
  | cons transaction transactions ih =>
    have unfolded : rowsOf (transaction :: transactions) =
        transaction.rows ++ rowsOf transactions := List.flatMap_cons
    rw [unfolded, List.filter_append, ← ih]
    by_cases above : lsn < transaction.commitLsn
    · have all : transaction.rows.filter (lsn < ·.commitLsn) = transaction.rows := by
        rw [List.filter_eq_self]
        intro row mem
        rw [transaction.committed row mem]
        exact decide_eq_true above
      rw [all, List.filter_cons, if_pos (decide_eq_true above)]
      exact List.flatMap_cons
    · have none_ : transaction.rows.filter (lsn < ·.commitLsn) = [] := by
        rw [List.filter_eq_nil_iff]
        intro row mem
        rw [transaction.committed row mem, decide_eq_true_eq]
        exact above
      rw [none_, List.filter_cons, if_neg (by rwa [decide_eq_true_eq])]
      rfl

namespace CommittedRow

variable (row : CommittedRow)

def values : FullTuple row.relation where
  values := row.tuple.values
  full := by rw [TupleData.values, List.length_map, row.full]

/-- The event of a row that is handled at `now`. -/
def event (jsoncpp : JsonCpp) (now : UInt64) : Except Fault (Json × Bytes) :=
  insertEvent jsoncpp row.relation now ⟨row.relation.relationId, chr 'N', row.tuple.values⟩

/-- The message that Kafka is given for it. -/
def payload (jsoncpp : JsonCpp) (now : UInt64) : Bytes :=
  match row.event jsoncpp now with
  | .ok (event, _) => jsoncpp.writeString event
  | .error _ => []

/-- The row as the consumer's INSERT has it. -/
def written : Row := fun name =>
  ((textMembers row.values.pairs).map fun member => (member.1, cStr member.2)).lookup name

/-- The row, where it belongs to the table of a name. -/
def landing (dialect : Dialect) (name : Bytes) : List Row :=
  if dialect.denotes name = dialect.denotes row.relation.getRelationName then [row.written] else []

theorem event_ok (jsoncpp : JsonCpp) (now : UInt64) :
    ∃ event key, row.event jsoncpp now = .ok (event, key) := by
  obtain ⟨primary, key, -, built⟩ := rowEvent_ok (str "INSERT") (str "data") jsoncpp row.relation
    now (Nat.le_of_eq row.values.full)
  exact ⟨_, key, built⟩

end CommittedRow

/-! ## Rows of a stream -/

/-- The row of a message. -/
def StreamMessage.row (commitLsn : Nat) : StreamMessage → Option CommittedRow
  | insert table tuple full => some ⟨commitLsn, table, tuple, full⟩
  | _ => none

namespace StreamItem

/-- The row of an item. -/
def row : StreamItem → Option CommittedRow
  | wal _ packet commitLsn => packet.message.row commitLsn
  | keepalive _ _ => none

/-- The row with the time at which it is handled. -/
def handling (item : StreamItem) : Option (UInt64 × CommittedRow) :=
  item.row.map (item.env.now, ·)

/-- What Kafka is given for an item is the message of its row. -/
theorem sent_values (jsoncpp : JsonCpp) (item : StreamItem) :
    (item.sent jsoncpp).map Prod.snd =
      (item.handling.map fun handling => handling.2.payload jsoncpp handling.1).toList := by
  cases item with
  | keepalive env body => rfl
  | wal env packet commitLsn =>
    have message_sent : (packet.message.sent jsoncpp env.now).map Prod.snd =
        ((packet.message.row commitLsn).map (·.payload jsoncpp env.now)).toList := by
      cases packet.message with
      | begin _ _ _ => rfl
      | relation _ _ => rfl
      | commit _ _ _ _ => rfl
      | insert relation tuple full =>
        let row : CommittedRow := ⟨commitLsn, relation, tuple, full⟩
        obtain ⟨event, key, built⟩ := row.event_ok jsoncpp env.now
        have sent : (StreamMessage.insert relation tuple full).event jsoncpp env.now =
            some (row.event jsoncpp env.now) := rfl
        rw [StreamMessage.sent, sent, built]
        show [jsoncpp.writeString event] = [row.payload jsoncpp env.now]
        rw [CommittedRow.payload, built]
    rw [handling, Option.map_map]
    exact message_sent

end StreamItem

/-- The rows of a stream. -/
def streamRows (items : List StreamItem) : List CommittedRow := items.filterMap StreamItem.row

theorem streamRows_append (front rest : List StreamItem) :
    streamRows (front ++ rest) = streamRows front ++ streamRows rest := List.filterMap_append

theorem handlings_rows (items : List StreamItem) :
    (items.filterMap StreamItem.handling).map Prod.snd = streamRows items := by
  rw [List.map_filterMap, streamRows]
  congr 1
  funext item
  rw [StreamItem.handling, Option.map_map]
  exact Option.map_id'

/-- The values of the messages, row after row. -/
def rowLog (jsoncpp : JsonCpp) (handlings : List (UInt64 × CommittedRow)) : List Bytes :=
  handlings.map fun handling => handling.2.payload jsoncpp handling.1

theorem flatMap_sent_values (jsoncpp : JsonCpp) (items : List StreamItem) :
    (items.flatMap (·.sent jsoncpp)).map Prod.snd =
      rowLog jsoncpp (items.filterMap StreamItem.handling) := by
  rw [rowLog, List.map_flatMap, List.map_filterMap, List.filterMap_eq_flatMap_toList]
  congr 1
  funext item
  exact item.sent_values jsoncpp

/-! ## What is assumed -/

/-- A producer that has just been started. -/
structure PostgresqlReplicator.Fresh (replicator : PostgresqlReplicator) : Prop where
  initialised : replicator.Initialised
  cache : replicator.relationCache = fun _ => none
  accepted : replicator.accepted = []
  applied : replicator.stats.appliedLsn = 0
  sent : replicator.sent = []

/-- PostgreSQL sends the transactions: every relation before its rows, and in front of a row only
packets at positions below the commit of its transaction. -/
structure Sends (items : List StreamItem) (transactions : List SourceTransaction) : Prop where
  relations : RelationsFirst (fun _ => none) items
  rows : streamRows items = rowsOf transactions
  positions : items.Pairwise fun earlier later =>
    ∀ row ∈ later.row, earlier.Before row.commitLsn

/-- Kafka takes what it is given for the items, and it can be read back. -/
structure Carries (jsoncpp : JsonCpp) (items : List StreamItem) : Prop where
  taken : ∀ item ∈ items, item.env.kafka.produceErr = false
  roundTrips : ∀ handling ∈ items.filterMap StreamItem.handling, ∀ event key,
    handling.2.event jsoncpp handling.1 = .ok (event, key) → jsoncpp.RoundTrips event

/-- In these databases the target has a place for each of the rows, also when it is there
already, and the block that a text is escaped into has room for it. -/
structure Dialect.TakesRows (dialect : Dialect) (pg : Postgres) (ready : Set pg.Database)
    (rows : List CommittedRow) : Prop where
  plain : ∀ row ∈ rows, dialect.Plain row.relation
  alike : ∀ (db : pg.Database) a b, dialect.unquoted a → dialect.unquoted b →
    dialect.denotes a = dialect.denotes b → pg.rows db a = pg.rows db b
  fit : ∀ row ∈ rows, pg.TextsFit (textMembers row.values.pairs)
  taken : ∀ row ∈ rows, ∀ db ∈ ready,
    (insertOutcome pg row.values db).1.commandOk = true ∧ (insertOutcome pg row.values db).2 ∈ ready

/-! ## The consumer -/

section Consumer

variable (pg : Postgres) (jsoncpp : JsonCpp)

/-- What the consumer does for a message that it is given. -/
def consume (payload : Bytes) : WriterM pg Bool := do
  let pushed ← liftE pg (LibRdkafkaConsumer.startConsuming jsoncpp payload)
  match pushed with
  | some msg => handlerIncomingData pg jsoncpp msg
  | none => return false

/-- One message after the other. -/
def consumeAll : List Bytes → WriterM pg Unit
  | [] => pure ()
  | payload :: payloads => do
      let _done ← consume pg jsoncpp payload
      consumeAll payloads

variable {pg jsoncpp}

/-- The message of a row is its INSERT. -/
theorem consume_payload {row : CommittedRow} {now : UInt64}
    (roundTrips : ∀ event key, row.event jsoncpp now = .ok (event, key) →
      jsoncpp.RoundTrips event) (fits : pg.TextsFit (textMembers row.values.pairs))
    (db : pg.Database) :
    consume pg jsoncpp (row.payload jsoncpp now) db =
      .ok (insertOutcome pg row.values db).1.commandOk (insertOutcome pg row.values db).2 := by
  have roundTrips' : ∀ event text, insertEvent jsoncpp row.relation now
      ⟨row.relation.relationId, chr 'N', row.values.values⟩ = .ok (event, text) →
        jsoncpp.RoundTrips event := roundTrips
  obtain ⟨event, key, built⟩ := row.event_ok jsoncpp now
  have replicated : replicateInsert pg jsoncpp row.relation now row.values =
      replicate pg jsoncpp event := by
    have built' : insertEvent jsoncpp row.relation now
        ⟨row.relation.relationId, chr 'N', row.values.values⟩ = .ok (event, key) := built
    rw [replicateInsert, built', liftE_ok_bind]
  have message : row.payload jsoncpp now = jsoncpp.writeString event := by
    rw [CommittedRow.payload, built]
  have done : replicateInsert pg jsoncpp row.relation now row.values db = .ok _ _ :=
    replicateInsert_ok roundTrips' fits db
  rw [message, ← done, replicated]
  rfl

variable {dialect : Dialect} {ready : Set pg.Database} {rows : List CommittedRow}

/-- A row that the target takes is added to its table. -/
theorem rows_taken (documented : dialect.DocumentsInserts pg)
    (takes : dialect.TakesRows pg ready rows) {row : CommittedRow} (mem : row ∈ rows)
    {db : pg.Database} (isReady : db ∈ ready) {name : Bytes} (unquoted : dialect.unquoted name) :
    pg.rows (insertOutcome pg row.values db).2 name =
      pg.rows db name ++ row.landing dialect name := by
  have plain := takes.plain row mem
  have taken := (takes.taken row mem db isReady).1
  rcases rows_inserted plain.nulFree row.values plain documented db with
    ⟨rejected, -⟩ | ⟨-, here, others⟩
  · rw [taken] at rejected
    cases rejected
  · by_cases same : dialect.denotes name = dialect.denotes row.relation.getRelationName
    · rw [takes.alike _ _ _ unquoted plain.unquoted same, here,
        takes.alike db _ _ unquoted plain.unquoted same, CommittedRow.landing, if_pos same]
      rfl
    · rw [others name same, CommittedRow.landing, if_neg same, List.append_nil]

/-- The messages of rows add these rows, in the order in which they are consumed. -/
theorem consumeAll_ok (documented : dialect.DocumentsInserts pg)
    (takes : dialect.TakesRows pg ready rows) {handlings : List (UInt64 × CommittedRow)}
    (known : ∀ handling ∈ handlings, handling.2 ∈ rows)
    (roundTrips : ∀ handling ∈ handlings, ∀ event key,
      handling.2.event jsoncpp handling.1 = .ok (event, key) → jsoncpp.RoundTrips event)
    {db : pg.Database} (isReady : db ∈ ready) :
    ∃ db', consumeAll pg jsoncpp (rowLog jsoncpp handlings) db = .ok () db' ∧
      ∀ name, dialect.unquoted name → pg.rows db' name =
        pg.rows db name ++ (handlings.map Prod.snd).flatMap (·.landing dialect name) := by
  induction handlings generalizing db with
  | nil => exact ⟨db, rfl, fun name _ => (List.append_nil _).symm⟩
  | cons handling handlings ih =>
    have here := known handling List.mem_cons_self
    have consumed : consume pg jsoncpp (handling.2.payload jsoncpp handling.1) db = .ok _ _ :=
      consume_payload (roundTrips handling List.mem_cons_self) (takes.fit handling.2 here) db
    obtain ⟨db', rest, added⟩ := ih (fun later mem => known later (List.mem_cons_of_mem _ mem))
      (fun later mem => roundTrips later (List.mem_cons_of_mem _ mem))
      (takes.taken handling.2 here db isReady).2
    refine ⟨db', ?_, ?_⟩
    · rw [rowLog, List.map_cons, consumeAll, bind_ok consumed]
      exact rest
    · intro name unquoted
      rw [added name unquoted, rows_taken documented takes here isReady unquoted, List.map_cons,
        List.flatMap_cons, List.append_assoc]

end Consumer

/-! ## The restart -/

section Restart

variable {stop : Stop} {slot : Nat} {transactions : List SourceTransaction}
  {first second stopped : PostgresqlReplicator}

/-- The rows that Kafka has got by the stop and that are sent again. -/
def Stop.doubled (stop : Stop) (flush : Nat) : List CommittedRow :=
  (streamRows stop.handed).filter (flush < ·.commitLsn)

/-- Nothing is reported that would keep a row that Kafka has not got from being sent again. -/
theorem unhanded_above (fresh : first.Fresh)
    (sends : Sends (stop.front ++ stop.rest) transactions)
    (above : ∀ row ∈ rowsOf transactions, slot < row.commitLsn)
    (ran : HandedOver jsoncpp stop.handed first stopped) {row : CommittedRow}
    (mem : row ∈ streamRows stop.unhanded) :
    lastFlush slot stopped < row.commitLsn := by
  have slotBelow : slot < row.commitLsn := by
    apply above
    rw [← sends.rows, ← stop.handed_append_unhanded, streamRows_append]
    exact List.mem_append_right _ mem
  apply lastFlush_lt _ slotBelow
  apply ran.below
  · intro item handed
    obtain ⟨later, unhanded, isRow⟩ := List.mem_filterMap.mp mem
    have positions := sends.positions
    rw [← stop.handed_append_unhanded] at positions
    exact (List.pairwise_append.mp positions).2.2 item handed later unhanded row isRow
  · refine ⟨?_, ?_⟩
    · rw [fresh.applied]
      exact Nat.lt_of_le_of_lt (Nat.zero_le slot) slotBelow
    · intro reply sent
      rw [fresh.sent] at sent
      cases sent

/-- What Kafka has got by the stop and what is sent again: all rows, and the doubled ones. -/
theorem handed_resent_perm {flush : Nat}
    (rows : streamRows (stop.front ++ stop.rest) = rowsOf transactions)
    (above : ∀ row ∈ streamRows stop.unhanded, flush < row.commitLsn) :
    (streamRows stop.handed ++ rowsOf (transactions.filter (flush < ·.commitLsn))).Perm
      (rowsOf transactions ++ stop.doubled flush) := by
  have all : rowsOf transactions = streamRows stop.handed ++ streamRows stop.unhanded := by
    rw [← rows, ← stop.handed_append_unhanded, streamRows_append]
  have again : rowsOf (transactions.filter (flush < ·.commitLsn)) =
      stop.doubled flush ++ streamRows stop.unhanded := by
    rw [rowsOf_filter, all, List.filter_append, Stop.doubled]
    congr 1
    rw [List.filter_eq_self]
    intro row mem
    exact decide_eq_true (above row mem)
  rw [again, all, List.append_assoc]
  exact List.perm_append_comm.append_left _

variable {pg : Postgres} {jsoncpp : JsonCpp} {dialect : Dialect} {ready : Set pg.Database}

/-- What holds of all items holds of those that Kafka has got. -/
theorem Carries.handed (carries : Carries jsoncpp (stop.front ++ stop.rest)) :
    Carries jsoncpp stop.handed := by
  rw [← stop.handed_append_unhanded] at carries
  refine ⟨fun item mem => carries.taken item (List.mem_append_left _ mem), ?_⟩
  intro handling mem
  apply carries.roundTrips
  rw [List.filterMap_append]
  exact List.mem_append_left _ mem

theorem Carries.append {items items' : List StreamItem} (carries : Carries jsoncpp items)
    (carries' : Carries jsoncpp items') : Carries jsoncpp (items ++ items') where
  taken item mem := by
    rcases List.mem_append.mp mem with before | behind
    · exact carries.taken item before
    · exact carries'.taken item behind
  roundTrips handling mem := by
    rw [List.filterMap_append, List.mem_append] at mem
    rcases mem with before | behind
    · exact carries.roundTrips handling before
    · exact carries'.roundTrips handling behind

/-- Where values are split and put in some order, what they are the values of can be, too. -/
theorem perm_append_map {α β : Type} {f : α → β} {kept lost : List β} {items : List α}
    (perm : (kept ++ lost).Perm (items.map f)) :
    ∃ here missing : List α, kept = here.map f ∧ lost = missing.map f ∧
      (here ++ missing).Perm items := by
  have composed := congrFun (congrFun (List.eq_map_comp_perm f) (kept ++ lost)) items
  obtain ⟨items', values, perm'⟩ := composed.mpr perm
  obtain ⟨here, missing, rfl, isKept, isLost⟩ := List.append_eq_map_iff.mp values
  exact ⟨here, missing, isKept.symm, isLost.symm, perm'⟩

/-- Two lots of values that are split, put together. -/
theorem append_split_perm {β : Type} {kept lost kept' lost' given given' : List β}
    (split : (kept ++ lost).Perm given) (split' : (kept' ++ lost').Perm given') :
    ((kept ++ kept') ++ (lost ++ lost')).Perm (given ++ given') := by
  refine List.Perm.trans ?_ (split.append split')
  rw [List.append_assoc, List.append_assoc]
  refine List.Perm.append_left kept ?_
  rw [← List.append_assoc, ← List.append_assoc]
  exact List.perm_append_comm.append_right lost'

theorem rowLog_missing_nil {jsoncpp : JsonCpp} {missing : List (UInt64 × CommittedRow)}
    (isLost : [] = rowLog jsoncpp missing) : missing.map Prod.snd = [] := by
  rw [rowLog, eq_comm, List.map_eq_nil_iff] at isLost
  rw [isLost, List.map_nil]

/-- The messages of some items, consumed in any order, add the rows of these items, but for those
of the messages that are lost. -/
theorem consumed_rows {items : List StreamItem} (carries : Carries jsoncpp items)
    {rows : List CommittedRow} (known : ∀ row ∈ streamRows items, row ∈ rows)
    (documented : dialect.DocumentsInserts pg) (takes : dialect.TakesRows pg ready rows)
    {consumed lost : List Bytes}
    (order : (consumed ++ lost).Perm ((items.flatMap (·.sent jsoncpp)).map Prod.snd)) :
    ∃ missing : List (UInt64 × CommittedRow), lost = rowLog jsoncpp missing ∧
      (∀ row ∈ missing.map Prod.snd, row ∈ streamRows items) ∧
      ∀ db ∈ ready, ∃ db', consumeAll pg jsoncpp consumed db = .ok () db' ∧
        ∀ name, dialect.unquoted name →
          (pg.rows db' name ++ (missing.map Prod.snd).flatMap (·.landing dialect name)).Perm
            (pg.rows db name ++ (streamRows items).flatMap (·.landing dialect name)) := by
  rw [flatMap_sent_values] at order
  obtain ⟨here, missing, isConsumed, isLost, perm⟩ := perm_append_map order
  have rowsPerm : (here.map Prod.snd ++ missing.map Prod.snd).Perm (streamRows items) := by
    rw [← List.map_append, ← handlings_rows]
    exact perm.map Prod.snd
  have known' : ∀ handling ∈ here, handling.2 ∈ rows := by
    intro handling mem
    apply known
    exact rowsPerm.subset (List.mem_append_left _ (List.mem_map_of_mem mem))
  have roundTrips : ∀ handling ∈ here, ∀ event key,
      handling.2.event jsoncpp handling.1 = .ok (event, key) → jsoncpp.RoundTrips event :=
    fun handling mem => carries.roundTrips handling (perm.subset (List.mem_append_left _ mem))
  refine ⟨missing, isLost, fun row mem => rowsPerm.subset (List.mem_append_right _ mem), ?_⟩
  intro db isReady
  obtain ⟨db', ran, added⟩ := consumeAll_ok documented takes known' roundTrips isReady
  refine ⟨db', isConsumed ▸ ran, ?_⟩
  intro name unquoted
  rw [added name unquoted, List.append_assoc, ← List.flatMap_append]
  exact (rowsPerm.flatMap_right _).append_left _

/-- Every row of the transactions is added to its table once. -/
def Dialect.EachOnce (dialect : Dialect) (transactions : List SourceTransaction)
    (before after : Bytes → List Row) : Prop :=
  ∀ name, dialect.unquoted name →
    (after name).Perm (before name ++ (rowsOf transactions).flatMap (·.landing dialect name))

/-- These rows and those are the same for every table. -/
def Dialect.SameRows (dialect : Dialect) (rows others : List CommittedRow) : Prop :=
  ∀ name, dialect.unquoted name →
    (rows.flatMap (·.landing dialect name)).Perm (others.flatMap (·.landing dialect name))

/-- Each row is added once just when the rows that are added beside them make up for the missing
ones. -/
theorem eachOnce_iff {before after : Bytes → List Row} {missing doubled : List CommittedRow}
    (added : ∀ name, dialect.unquoted name →
      (after name ++ missing.flatMap (·.landing dialect name)).Perm (before name ++
        (rowsOf transactions ++ doubled).flatMap (·.landing dialect name))) :
    dialect.EachOnce transactions before after ↔ dialect.SameRows missing doubled := by
  constructor
  · intro once name unquoted
    have whole := added name unquoted
    rw [List.flatMap_append, ← List.append_assoc] at whole
    exact (List.perm_append_left_iff _).mp
      (((once name unquoted).symm.append_right _).trans whole)
  · intro same name unquoted
    have whole := added name unquoted
    rw [List.flatMap_append, ← List.append_assoc] at whole
    exact (List.perm_append_right_iff _).mp
      (whole.trans ((same name unquoted).symm.append_left _))

/-- With nothing missing no row may be doubled. -/
theorem sameRows_nil_iff {doubled : List CommittedRow}
    (plain : ∀ row ∈ doubled, dialect.Plain row.relation) :
    dialect.SameRows [] doubled ↔ doubled = [] := by
  constructor
  · intro same
    rw [List.eq_nil_iff_forall_not_mem]
    intro row mem
    have nothing := (same _ (plain row mem).unquoted).symm.eq_nil
    have lands : row.written ∈ doubled.flatMap (·.landing dialect row.relation.getRelationName) :=
      List.mem_flatMap.mpr ⟨row, mem, by rw [CommittedRow.landing, if_pos rfl]; exact .head _⟩
    rw [nothing] at lands
    cases lands
  · rintro rfl name _
    exact .refl _

/-- After a restart the rows of the transactions are in their tables, and once more those that
Kafka had been given by the stop and whose transaction is sent again, but for the rows of the
messages that Kafka has not kept. -/
theorem restart_rows (fresh : first.Fresh) (fresh' : second.Fresh)
    (above : ∀ transaction ∈ transactions, slot < transaction.commitLsn)
    (sends : Sends (stop.front ++ stop.rest) transactions)
    (carries : Carries jsoncpp (stop.front ++ stop.rest))
    (documented : dialect.DocumentsInserts pg)
    (takes : dialect.TakesRows pg ready (rowsOf transactions)) :
    ∃ stopped, stop.run jsoncpp first = .ok () stopped ∧
      ∀ resent, Sends resent (transactions.filter (lastFlush slot stopped < ·.commitLsn)) →
        Carries jsoncpp resent →
        ∃ ended, handlePackets jsoncpp resent second = .ok () ended ∧
          ∀ kept lost kept' lost', stopped.Stores kept lost → ended.Stores kept' lost' →
            ∀ consumed, consumed.Perm (kept ++ kept') →
              ∃ missing, lost ++ lost' = rowLog jsoncpp missing ∧
                (∀ row ∈ missing.map Prod.snd, row ∈ rowsOf transactions) ∧
                ∀ db ∈ ready, ∃ db', consumeAll pg jsoncpp consumed db = .ok () db' ∧
                  (∀ name, dialect.unquoted name →
                    (pg.rows db' name ++
                      (missing.map Prod.snd).flatMap (·.landing dialect name)).Perm
                        (pg.rows db name ++
                          (rowsOf transactions ++ stop.doubled (lastFlush slot stopped)).flatMap
                            (·.landing dialect name))) ∧
                  (dialect.EachOnce transactions (pg.rows db) (pg.rows db') ↔
                    dialect.SameRows (missing.map Prod.snd)
                      (stop.doubled (lastFlush slot stopped))) ∧
                  (lost ++ lost' = [] →
                    (dialect.EachOnce transactions (pg.rows db) (pg.rows db') ↔
                      stop.doubled (lastFlush slot stopped) = [])) := by
  have above' : ∀ row ∈ rowsOf transactions, slot < row.commitLsn := by
    intro row mem
    obtain ⟨transaction, there, isRow⟩ := List.mem_flatMap.mp mem
    rw [transaction.committed row isRow]
    exact above transaction there
  obtain ⟨stopped, ran, handed⟩ : ∃ stopped, stop.run jsoncpp first = .ok () stopped ∧
      HandedOver jsoncpp stop.handed first stopped :=
    stop.run_ok fresh.initialised carries.taken (fresh.cache ▸ sends.relations)
  refine ⟨stopped, ran, ?_⟩
  intro resent sends' carries'
  obtain ⟨ended, ran', handled⟩ : ∃ ended, handlePackets jsoncpp resent second = .ok () ended ∧
      HandledItems jsoncpp resent second ended :=
    handlePackets_ok fresh'.initialised carries'.taken (fresh'.cache ▸ sends'.relations)
  refine ⟨ended, ran', ?_⟩
  intro kept lost kept' lost' stores stores' consumed isKept
  have perm : (streamRows (stop.handed ++ resent)).Perm
      (rowsOf transactions ++ stop.doubled (lastFlush slot stopped)) := by
    rw [streamRows_append, sends'.rows]
    exact handed_resent_perm sends.rows fun row mem =>
      unhanded_above fresh sends above' handed mem
  have known : ∀ row ∈ streamRows (stop.handed ++ resent), row ∈ rowsOf transactions := by
    intro row mem
    rcases List.mem_append.mp (perm.subset mem) with all | again
    · exact all
    · rw [← sends.rows, ← stop.handed_append_unhanded, streamRows_append]
      exact List.mem_append_left _ (List.mem_filter.mp again).1
  -- of the messages of both processes some have been kept, and the others are lost
  have order : (consumed ++ (lost ++ lost')).Perm
      (((stop.handed ++ resent).flatMap (·.sent jsoncpp)).map Prod.snd) := by
    have both := append_split_perm stores.perm stores'.perm
    rw [handed.accepted, handled.accepted, fresh.accepted, fresh'.accepted, List.nil_append,
      List.nil_append, ← List.map_append, ← List.flatMap_append] at both
    exact (isKept.append_right _).trans both
  obtain ⟨missing, isLost, among, done⟩ :=
    consumed_rows (carries.handed.append carries') known documented takes order
  refine ⟨missing, isLost, fun row mem => known row (among row mem), ?_⟩
  intro db isReady
  obtain ⟨db', consumed', added⟩ := done db isReady
  have added' : ∀ name, dialect.unquoted name →
      (pg.rows db' name ++ (missing.map Prod.snd).flatMap (·.landing dialect name)).Perm
        (pg.rows db name ++ (rowsOf transactions ++
          stop.doubled (lastFlush slot stopped)).flatMap (·.landing dialect name)) := by
    intro name unquoted
    exact (added name unquoted).trans ((perm.flatMap_right _).append_left _)
  refine ⟨db', consumed', added', eachOnce_iff added', ?_⟩
  intro nothing
  have none_ : missing.map Prod.snd = [] := rowLog_missing_nil (nothing ▸ isLost)
  rw [none_] at added'
  refine (eachOnce_iff added').trans (sameRows_nil_iff ?_)
  intro row mem
  exact takes.plain row (known row (perm.symm.subset (List.mem_append_right _ mem)))

end Restart

/-! ## A row that is there twice -/

theorem Dialect.wildServer_takes {dialect : Dialect} {spare : Nat} {rows : List CommittedRow}
    (plain : ∀ row ∈ rows, dialect.Plain row.relation)
    (fit : ∀ row ∈ rows, (dialect.wildServer spare).TextsFit (textMembers row.values.pairs)) :
    dialect.TakesRows (dialect.wildServer spare) Set.univ rows where
  plain := plain
  alike db a b unquotedA unquotedB same := by
    have places : dialect.place a = dialect.place b := by
      rw [place, place, same, eq_true unquotedA, eq_true unquotedB]
    exact congrArg db places
  fit := fit
  taken _ _ _ _ := ⟨wildServer_commandOk _ _, trivial⟩

/-- `INSERT INTO users VALUES (1)`, committed at 120. -/
def userRow : CommittedRow := ⟨120, publicUsers, ⟨[.text ⟨str "1", by decide⟩], by decide⟩, rfl⟩

def userTransaction : SourceTransaction where
  commitLsn := 120
  rows := [userRow]
  committed _ mem := congrArg CommittedRow.commitLsn (List.mem_singleton.mp mem)

theorem publicUsers_documented : publicUsers.Documented where
  nspname_nulFree := by decide
  relationName_nulFree := by decide
  names_nulFree := by decide
  count_lt := by decide

/-- The transaction as it is sent, in front of its COMMIT. -/
def userFront : List StreamItem :=
  [.wal {} ⟨100, 100, 0, .begin 120 0 500, by decide⟩ 120,
    .wal {} ⟨100, 100, 0, .relation publicUsers publicUsers_documented, by decide⟩ 120,
    .wal {} ⟨110, 110, 0, .insert publicUsers userRow.tuple rfl, by decide⟩ 120]

/-- Its COMMIT. -/
def userRest : List StreamItem := [.wal {} ⟨120, 120, 0, .commit 0 120 120 0, by decide⟩ 120]

/-- The producer stops between the row and the COMMIT. -/
def userStop : Stop := ⟨userFront, userRest, none⟩

/-- The producer as it is started. -/
def startedReplicator : PostgresqlReplicator where
  kafkaProducer := some { producer := some .fresh }

theorem startedReplicator_fresh : startedReplicator.Fresh :=
  ⟨⟨_, rfl, rfl⟩, rfl, rfl, by decide, rfl⟩

theorem user_sends : Sends (userFront ++ userRest) [userTransaction] where
  relations := ⟨trivial, trivial, rfl, trivial, trivial⟩
  rows := rfl
  positions := by decide

theorem user_carries : Carries userJson (userFront ++ userRest) where
  taken := by decide
  roundTrips := by
    intro handling mem event key built
    have only : (userFront ++ userRest).filterMap StreamItem.handling = [(0, userRow)] := rfl
    rw [only, List.mem_singleton] at mem
    have first : userRow.event userJson 0 = .ok (userEvent (str "1"), str "\"1\"") := rfl
    rw [mem, first] at built
    cases built
    rfl

theorem publicUsers_plain : letterDialect.Plain publicUsers where
  unquoted := by
    unfold letterDialect Dialect.ofTables
    decide +kernel
  some_ := by decide
  columns := by
    unfold letterDialect Dialect.ofTables
    decide +kernel

theorem user_takes :
    letterDialect.TakesRows (letterDialect.wildServer 23) Set.univ
      (rowsOf [userTransaction]) := by
  have only : ∀ row ∈ rowsOf [userTransaction], row = userRow :=
    fun row mem => List.mem_singleton.mp mem
  apply Dialect.wildServer_takes
  · intro row mem
    exact only row mem ▸ publicUsers_plain
  · intro row mem
    rw [only row mem]
    decide

/-- The row has been given to Kafka, no delivery has been reported, and nothing that would keep the
transaction from being sent again. -/
theorem userStop_state {stopped : PostgresqlReplicator}
    (ran : userStop.run userJson startedReplicator = .ok () stopped) :
    stopped.accepted.map Prod.snd = [userRow.payload userJson 0] ∧
      (∃ rdKafka, stopped.rdKafka = some rdKafka ∧ rdKafka.delivered = []) ∧
      lastFlush 0 stopped < 120 := by
  obtain ⟨stopped', ran', handed⟩ : ∃ stopped,
      userStop.run userJson startedReplicator = .ok () stopped ∧ HandedOver _ _ _ stopped :=
    userStop.run_ok startedReplicator_fresh.initialised user_carries.taken user_sends.relations
  rw [ran] at ran'
  cases ran'
  have accepted : stopped.accepted = [] ++ userStop.handed.flatMap (·.sent userJson) :=
    handed.accepted
  refine ⟨?_, ?_, ?_⟩
  · rw [accepted, List.nil_append, flatMap_sent_values]
    rfl
  · have reported : (finalState (userStop.run userJson startedReplicator)).rdKafka.map
        RdKafkaProducer.delivered = some [] := by decide +kernel
    rw [ran] at reported
    exact Option.map_eq_some_iff.mp reported
  · refine lastFlush_lt (handed.below _ (by decide) ⟨by decide, ?_⟩) (by decide)
    intro reply sent
    cases sent

theorem userStop_resent {stopped : PostgresqlReplicator}
    (ran : userStop.run userJson startedReplicator = .ok () stopped) :
    Sends (userFront ++ userRest) ([userTransaction].filter (lastFlush 0 stopped < ·.commitLsn)) ∧
      userStop.doubled (lastFlush 0 stopped) = [userRow] := by
  obtain ⟨-, -, told⟩ := userStop_state ran
  have above : decide (lastFlush 0 stopped < 120) = true := decide_eq_true told
  have again : [userTransaction].filter (lastFlush 0 stopped < ·.commitLsn) =
      [userTransaction] := List.filter_cons_of_pos above
  have doubled : [userRow].filter (lastFlush 0 stopped < ·.commitLsn) = [userRow] :=
    List.filter_cons_of_pos above
  exact ⟨again.symm ▸ user_sends, doubled⟩

/-- The whole transaction, handled by the process that has been started again. -/
theorem userEnded {ended : PostgresqlReplicator}
    (ran : handlePackets userJson (userFront ++ userRest) startedReplicator = .ok () ended) :
    ended.Stores [userRow.payload userJson 0] [] := by
  obtain ⟨ended', ran', handled⟩ : ∃ ended, handlePackets userJson (userFront ++ userRest)
      startedReplicator = .ok () ended ∧ HandledItems _ _ _ ended :=
    handlePackets_ok startedReplicator_fresh.initialised user_carries.taken user_sends.relations
  rw [ran] at ran'
  cases ran'
  have values : ended.accepted.map Prod.snd = [userRow.payload userJson 0] := by
    have accepted : ended.accepted = [] ++ (userFront ++ userRest).flatMap (·.sent userJson) :=
      handled.accepted
    rw [accepted, List.nil_append, flatMap_sent_values]
    rfl
  obtain ⟨kafka, hasKafka, hasProducer⟩ := handled.initialised
  obtain ⟨rdKafka, isThere⟩ := Option.isSome_iff_exists.mp hasProducer
  rw [← values]
  exact stores_all (Option.bind_eq_some_iff.mpr ⟨kafka, hasKafka, isThere⟩)

/-- One message that is lost is one row that is missing. -/
theorem userRow_missing {missing : List (UInt64 × CommittedRow)}
    (isLost : [userRow.payload userJson 0] = rowLog userJson missing)
    (only : ∀ row ∈ missing.map Prod.snd, row = userRow) : missing.map Prod.snd = [userRow] := by
  have size := congrArg List.length isLost
  rw [rowLog, List.length_map] at size
  have same : missing.map Prod.snd = List.replicate 1 userRow := by
    refine List.eq_replicate_iff.mpr ⟨?_, only⟩
    rw [List.length_map]
    exact size.symm
  exact same

/-- The message that was pending is lost with the process, and the transaction is sent again: the
row is there once. -/
theorem restart_rows_user :
    ∃ stopped ended db', userStop.run userJson startedReplicator = .ok () stopped ∧
      stopped.Stores [] [userRow.payload userJson 0] ∧
      handlePackets userJson (userFront ++ userRest) startedReplicator = .ok () ended ∧
      ended.Stores [userRow.payload userJson 0] [] ∧
      consumeAll (letterDialect.wildServer 23) userJson [userRow.payload userJson 0]
        (fun _ => []) = .ok () db' ∧
      letterDialect.EachOnce [userTransaction] (fun _ => [])
        ((letterDialect.wildServer 23).rows db') := by
  have above : ∀ transaction ∈ [userTransaction], 0 < transaction.commitLsn := by decide
  have sends : Sends (userStop.front ++ userStop.rest) [userTransaction] := user_sends
  obtain ⟨stopped, ran, restarted⟩ := restart_rows startedReplicator_fresh startedReplicator_fresh
    above sends user_carries Dialect.wildServer_documents user_takes
  obtain ⟨values, ⟨rdKafka, isThere, none_⟩, -⟩ := userStop_state ran
  obtain ⟨resends, doubled⟩ := userStop_resent ran
  have carries : Carries userJson (userFront ++ userRest) := user_carries
  obtain ⟨ended, ran', consumes⟩ := restarted (userFront ++ userRest) resends carries
  have stores : stopped.Stores [] [userRow.payload userJson 0] :=
    values ▸ stores_nothing isThere none_
  have stores' := userEnded ran'
  obtain ⟨missing, isLost, among, done⟩ := consumes _ _ _ _ stores stores' _ (.refl _)
  obtain ⟨db', consumed, -, once, -⟩ := done (fun _ => []) (Set.mem_univ _)
  refine ⟨stopped, ended, db', ran, stores, ran', stores', consumed, once.mpr ?_⟩
  rw [userRow_missing isLost fun row mem => List.mem_singleton.mp (among row mem), doubled]
  exact fun name _ => .refl _

/-- Kafka has kept that message, the transaction is sent again, and its row is in the table
twice. -/
theorem userRow_twice :
    startedReplicator.Fresh ∧ Sends (userStop.front ++ userStop.rest) [userTransaction] ∧
      Carries userJson (userStop.front ++ userStop.rest) ∧
      letterDialect.DocumentsInserts (letterDialect.wildServer 23) ∧
      letterDialect.TakesRows (letterDialect.wildServer 23) Set.univ (rowsOf [userTransaction]) ∧
      ∃ stopped ended db', userStop.run userJson startedReplicator = .ok () stopped ∧
        stopped.Stores [userRow.payload userJson 0] [] ∧
        Sends (userFront ++ userRest)
          ([userTransaction].filter (lastFlush 0 stopped < ·.commitLsn)) ∧
        handlePackets userJson (userFront ++ userRest) startedReplicator = .ok () ended ∧
        ended.Stores [userRow.payload userJson 0] [] ∧
        consumeAll (letterDialect.wildServer 23) userJson
          [userRow.payload userJson 0, userRow.payload userJson 0] (fun _ => []) = .ok () db' ∧
        ¬ letterDialect.EachOnce [userTransaction] (fun _ => [])
          ((letterDialect.wildServer 23).rows db') := by
  refine ⟨startedReplicator_fresh, user_sends, user_carries, Dialect.wildServer_documents,
    user_takes, ?_⟩
  obtain ⟨stopped, ran, -⟩ : ∃ stopped,
      userStop.run userJson startedReplicator = .ok () stopped ∧ HandedOver _ _ _ stopped :=
    userStop.run_ok startedReplicator_fresh.initialised user_carries.taken user_sends.relations
  obtain ⟨ended, ran', -⟩ : ∃ ended, handlePackets userJson (userFront ++ userRest)
      startedReplicator = .ok () ended ∧ HandledItems _ _ _ ended :=
    handlePackets_ok startedReplicator_fresh.initialised user_carries.taken user_sends.relations
  obtain ⟨values, ⟨rdKafka, isThere, -⟩, -⟩ := userStop_state ran
  have stores : stopped.Stores [userRow.payload userJson 0] [] := values ▸ stores_all isThere
  have twice : streamRows (userStop.handed ++ (userFront ++ userRest)) =
      rowsOf [userTransaction] ++ [userRow] := rfl
  have known : ∀ row ∈ streamRows (userStop.handed ++ (userFront ++ userRest)),
      row ∈ rowsOf [userTransaction] := by
    intro row mem
    rw [twice] at mem
    rcases List.mem_append.mp mem with once | again
    · exact once
    · exact again
  have order : ([userRow.payload userJson 0, userRow.payload userJson 0] ++ []).Perm
      (((userStop.handed ++ (userFront ++ userRest)).flatMap (StreamItem.sent userJson)).map
        Prod.snd) := by
    rw [flatMap_sent_values]
    exact .refl _
  obtain ⟨missing, isLost, -, done⟩ := consumed_rows
    (user_carries.handed.append user_carries) known Dialect.wildServer_documents user_takes order
  obtain ⟨db', consumed, added⟩ := done (fun _ => []) (Set.mem_univ _)
  have none_ : missing.map Prod.snd = [] := rowLog_missing_nil isLost
  rw [twice, none_] at added
  refine ⟨stopped, ended, db', ran, stores, (userStop_resent ran).1, ran', userEnded ran', consumed,
    ?_⟩
  intro once
  have plain : ∀ row ∈ [userRow], letterDialect.Plain row.relation := user_takes.plain
  exact absurd ((sameRows_nil_iff plain).mp ((eachOnce_iff added).mp once))
    (List.cons_ne_nil _ _)

end KafkaReplication
