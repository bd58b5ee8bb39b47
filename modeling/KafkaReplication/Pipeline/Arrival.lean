import KafkaReplication.Pipeline.ReplicatedChange
import KafkaReplication.Pipeline.Restarts
import KafkaReplication.Consumer.Progress

/-!
# Every row arrives

From the transactions of the source to the tables of the target, with restarts of both sides: the
sessions of the producer (`producer_azs/postgresql_replicator.cpp:168-317`) fill the partition, and
the two threads of the consumer (`consumer_bo/replication_consumer.h:67-131`) take the rows from it.
A row is missing in the end only if its message was lost with a producer that ended, or was in the
memory of a consumer that ended, and was committed.
-/

namespace KafkaReplication
open Misc PgOutputParser PostgresqlReplicator DatabaseWriter

/-! ## A partition of rows -/

/-- The message that the consumer queues for a row. -/
def CommittedRow.queued (jsoncpp : JsonCpp) (now : UInt64) (row : CommittedRow) :
    ConsumerMessage :=
  match row.event jsoncpp now with
  | .ok (event, _) => image event
  | .error _ => {}

section Partition

variable (jsoncpp : JsonCpp) (handlings : List (UInt64 × CommittedRow))

def rowMessages : List ConsumerMessage :=
  handlings.map fun handling => handling.2.queued jsoncpp handling.1

/-- The events of the rows can be read back. -/
def RowsRoundTrip : Prop := ∀ handling ∈ handlings, ∀ event key,
  handling.2.event jsoncpp handling.1 = .ok (event, key) → jsoncpp.RoundTrips event

variable {jsoncpp handlings}

theorem startConsuming_row {row : CommittedRow} {now : UInt64}
    (roundTrips : ∀ event key, row.event jsoncpp now = .ok (event, key) →
      jsoncpp.RoundTrips event) :
    LibRdkafkaConsumer.startConsuming jsoncpp (row.payload jsoncpp now) =
      .ok (some (row.queued jsoncpp now)) := by
  obtain ⟨event, key, built⟩ := row.event_ok jsoncpp now
  have produced : Produced jsoncpp event := .insert built
  rw [CommittedRow.payload, CommittedRow.queued, built]
  exact produced.startConsuming (roundTrips event key built)

theorem rowLog_readable (roundTrips : RowsRoundTrip jsoncpp handlings) :
    Readable jsoncpp (rowLog jsoncpp handlings) (rowMessages jsoncpp handlings) := by
  rw [Readable, rowLog, rowMessages, List.map_map, List.map_map]
  apply List.map_congr_left
  intro handling mem
  exact startConsuming_row (roundTrips handling mem)

variable {pg : Postgres} {dialect : Dialect} {ready : Set pg.Database} {rows : List CommittedRow}

/-- The message of a row adds it to its table. -/
theorem handlerIncomingData_row (documented : dialect.DocumentsInserts pg)
    (takes : dialect.TakesRows pg ready rows) {row : CommittedRow} (mem : row ∈ rows)
    {now : UInt64} (roundTrips : ∀ event key, row.event jsoncpp now = .ok (event, key) →
      jsoncpp.RoundTrips event) {db : pg.Database} (isReady : db ∈ ready) :
    ∃ result db', handlerIncomingData pg jsoncpp (row.queued jsoncpp now) db = .ok result db' ∧
      db' ∈ ready ∧ ∀ name, dialect.unquoted name →
        pg.rows db' name = pg.rows db name ++ row.landing dialect name := by
  have consumed : consume pg jsoncpp (row.payload jsoncpp now) db = _ :=
    consume_payload roundTrips (takes.fit row mem) db
  rw [consume, startConsuming_row roundTrips, liftE_ok_bind] at consumed
  refine ⟨_, _, consumed, (takes.taken row mem db isReady).2, ?_⟩
  intro name unquoted
  exact rows_taken documented takes mem isReady unquoted

end Partition

/-! ## What has been delivered -/

/-- The rows at these offsets. -/
def rowsAt (rows : List CommittedRow) (offsets : List Nat) : List CommittedRow :=
  offsets.filterMap (rows[·]?)

theorem rowsAt_append (rows : List CommittedRow) (offsets others : List Nat) :
    rowsAt rows (offsets ++ others) = rowsAt rows offsets ++ rowsAt rows others :=
  List.filterMap_append

theorem rowsAt_range (rows : List CommittedRow) : rowsAt rows (List.range rows.length) = rows := by
  induction rows using List.reverseRecOn with
  | nil => rfl
  | append_singleton rows row ih =>
    have front : rowsAt (rows ++ [row]) (List.range rows.length) =
        rowsAt rows (List.range rows.length) := by
      apply List.filterMap_congr
      intro offset mem
      exact List.getElem?_append_left (List.mem_range.mp mem)
    have last : rowsAt (rows ++ [row]) [rows.length] = [row] := by
      rw [rowsAt, List.filterMap_cons, List.getElem?_concat_length]
      rfl
    rw [List.length_append, List.length_singleton, List.range_succ, rowsAt_append, front, ih, last]

theorem length_rowsAt_le (rows : List CommittedRow) (offsets : List Nat) :
    (rowsAt rows offsets).length ≤ offsets.length := List.length_filterMap_le _ _

theorem rowsAt_perm (rows : List CommittedRow) {offsets others : List Nat}
    (perm : offsets.Perm others) : (rowsAt rows offsets).Perm (rowsAt rows others) :=
  perm.filterMap _

theorem rowsAt_subset (rows : List CommittedRow) (offsets : List Nat) :
    rowsAt rows offsets ⊆ rows := by
  intro row mem
  obtain ⟨offset, -, there⟩ := List.mem_filterMap.mp mem
  exact List.mem_of_getElem? there

/-- The process ends in front of the INSERT of the row that the writer is at, or behind it. -/
def EndsAround (dialect : Dialect) {pg : Postgres} (ready : Set pg.Database)
    (rows : List CommittedRow) (s : ConsumerProcess pg) : ConsumerAction pg → Prop
  | .crash db => db ∈ ready ∧
      ((∀ name, dialect.unquoted name → pg.rows db name = pg.rows s.db name) ∨
        ∃ offset msg row, s.writer = some (offset, msg) ∧ rows[offset]? = some row ∧
          ∀ name, dialect.unquoted name →
            pg.rows db name = pg.rows s.db name ++ row.landing dialect name)
  | _ => True

/-- The tables have the rows of the messages that were handled, and of some that a process had not
finished with. -/
structure Delivered (dialect : Dialect) {pg : Postgres} (ready : Set pg.Database)
    (rows : List CommittedRow) (initial : pg.Database) (s : ConsumerProcess pg) : Prop where
  isReady : s.db ∈ ready
  landed : ∃ unfinished : List Nat, ∀ name, dialect.unquoted name →
    (pg.rows s.db name).Perm (pg.rows initial name ++
      (rowsAt rows (s.handled.map Prod.fst ++ unfinished)).flatMap (·.landing dialect name))

section Delivery

variable {pg : Postgres} {jsoncpp : JsonCpp} {dialect : Dialect} {ready : Set pg.Database}
  {handlings : List (UInt64 × CommittedRow)} {rows : List CommittedRow} {initial : pg.Database}
  {s s' : ConsumerProcess pg}

theorem Delivered.start (isReady : initial ∈ ready) :
    Delivered dialect ready rows initial (.start initial) where
  isReady := isReady
  landed := by
    refine ⟨[], ?_⟩
    intro name _
    have nothing : pg.rows initial name ++
        (rowsAt rows []).flatMap (·.landing dialect name) = pg.rows initial name :=
      List.append_nil _
    exact .of_eq nothing.symm

/-- A step that does not reach the database delivers nothing. -/
theorem Delivered.same (delivered : Delivered dialect ready rows initial s)
    (unchanged : s'.db = s.db ∧ s'.handled = s.handled) :
    Delivered dialect ready rows initial s' := by
  obtain ⟨db, handled⟩ := unchanged
  refine ⟨?_, ?_⟩
  · rw [db]
    exact delivered.isReady
  · rw [db, handled]
    exact delivered.landed

/-- One more row at an offset, wherever the offset is noted. -/
theorem Delivered.more (delivered : Delivered dialect ready rows initial s) {offset : Nat}
    {row : CommittedRow} (there : rows[offset]? = some row) (isReady : s'.db ∈ ready)
    (added : ∀ name, dialect.unquoted name →
      pg.rows s'.db name = pg.rows s.db name ++ row.landing dialect name)
    {noted : List Nat}
    (handled : s'.handled.map Prod.fst ++ noted = s.handled.map Prod.fst ++ [offset]) :
    Delivered dialect ready rows initial s' := by
  obtain ⟨-, unfinished, landed⟩ := delivered
  refine ⟨isReady, noted ++ unfinished, ?_⟩
  intro name unquoted
  have one : rowsAt rows [offset] = [row] := by
    rw [rowsAt, List.filterMap_cons, there]
    rfl
  rw [added name unquoted, ← List.append_assoc, handled, rowsAt_append, rowsAt_append, one,
    List.flatMap_append, List.flatMap_append, List.flatMap_singleton]
  have before := landed name unquoted
  rw [rowsAt_append, List.flatMap_append] at before
  refine (before.append_right _).trans ?_
  simp only [List.append_assoc]
  exact (List.perm_append_comm.append_left _).append_left _

/-- The threads reach the database in `write` alone. -/
theorem step_unchanged (jsoncpp : JsonCpp) (log : List Bytes) (s : ConsumerProcess pg)
    {action : ConsumerAction pg} (isWrite : action ≠ .write)
    (isCrash : ∀ db, action ≠ .crash db) :
    (s.step jsoncpp log action).db = s.db ∧
      (s.step jsoncpp log action).handled = s.handled := by
  cases action with
  | consume =>
    show (s.consume log).db = s.db ∧ (s.consume log).handled = s.handled
    unfold ConsumerProcess.consume
    split <;> exact ⟨rfl, rfl⟩
  | callback =>
    show (s.callback jsoncpp).db = s.db ∧ (s.callback jsoncpp).handled = s.handled
    unfold ConsumerProcess.callback
    split
    · split <;> exact ⟨rfl, rfl⟩
    · exact ⟨rfl, rfl⟩
  | push =>
    show s.push.db = s.db ∧ s.push.handled = s.handled
    unfold ConsumerProcess.push
    split
    · split <;> exact ⟨rfl, rfl⟩
    · exact ⟨rfl, rfl⟩
  | pop =>
    show s.pop.db = s.db ∧ s.pop.handled = s.handled
    unfold ConsumerProcess.pop
    split <;> exact ⟨rfl, rfl⟩
  | commit => exact ⟨rfl, rfl⟩
  | write => exact absurd rfl isWrite
  | crash db => exact absurd rfl (isCrash db)

variable (roundTrips : RowsRoundTrip jsoncpp handlings)
  (documented : dialect.DocumentsInserts pg) (takes : dialect.TakesRows pg ready rows)
  (known : ∀ handling ∈ handlings, handling.2 ∈ rows)

include roundTrips documented takes known

/-- The message at an offset of the partition is handled as its row. -/
theorem handled_row {entry : Nat × ConsumerMessage}
    (mem : entry ∈ numbered (rowMessages jsoncpp handlings)) {db : pg.Database}
    (isReady : db ∈ ready) :
    ∃ row result db', (handlings.map Prod.snd)[entry.1]? = some row ∧
      handlerIncomingData pg jsoncpp entry.2 db = .ok result db' ∧ db' ∈ ready ∧
        ∀ name, dialect.unquoted name →
          pg.rows db' name = pg.rows db name ++ row.landing dialect name := by
  have there := msg_of_numbered mem
  rw [rowMessages, List.getElem?_map, Option.map_eq_some_iff] at there
  obtain ⟨⟨now, row⟩, found, queued⟩ := there
  have inHandlings := List.mem_of_getElem? found
  obtain ⟨result, db', handles, stays, added⟩ :=
    handlerIncomingData_row documented takes (known (now, row) inHandlings)
      (roundTrips (now, row) inHandlings) isReady
  refine ⟨row, result, db', ?_, queued ▸ handles, stays, added⟩
  rw [List.getElem?_map, found]
  rfl

/-- Every step keeps it. -/
theorem Delivered.step {r : LogReader (List Nat)}
    (shown : ConsumerProcess.Shown (ConsumerProcess.handledOffsets pg jsoncpp
      (rowMessages jsoncpp handlings)) (rowLog jsoncpp handlings) [] s r)
    (delivered : Delivered dialect ready (handlings.map Prod.snd) initial s)
    {action : ConsumerAction pg}
    (ends : EndsAround dialect ready (handlings.map Prod.snd) s action) :
    Delivered dialect ready (handlings.map Prod.snd) initial
      (s.step jsoncpp (rowLog jsoncpp handlings) action) := by
  cases action with
  | write =>
    show Delivered dialect ready (handlings.map Prod.snd) initial (s.write jsoncpp)
    unfold ConsumerProcess.write
    split
    next offset msg writing =>
      have mem := List.mem_of_getElem? (shown.writing writing).2.1
      obtain ⟨row, result, db', there, handles, stays, added⟩ :=
        handled_row roundTrips documented takes known mem delivered.isReady
      simp only [handles]
      have noted : (s.handled ++ [(offset, result)]).map Prod.fst ++ [] =
          s.handled.map Prod.fst ++ [offset] := by
        rw [List.append_nil]
        exact List.map_append
      exact delivered.more there stays added noted
    next => exact delivered
  | crash db =>
    obtain ⟨stays, same | ⟨offset, msg, row, -, there, added⟩⟩ := ends
    · obtain ⟨-, unfinished, landed⟩ := delivered
      refine ⟨stays, unfinished, ?_⟩
      intro name unquoted
      rw [show (s.step jsoncpp (rowLog jsoncpp handlings) (.crash db)).db = db from rfl,
        same name unquoted]
      exact landed name unquoted
    · exact delivered.more there stays added rfl
  | consume => exact delivered.same (step_unchanged _ _ s (by simp) (by simp))
  | callback => exact delivered.same (step_unchanged _ _ s (by simp) (by simp))
  | push => exact delivered.same (step_unchanged _ _ s (by simp) (by simp))
  | pop => exact delivered.same (step_unchanged _ _ s (by simp) (by simp))
  | commit => exact delivered.same (step_unchanged _ _ s (by simp) (by simp))

/-- In every run. -/
theorem run_delivered (isReady : initial ∈ ready) {actions : List (ConsumerAction pg)}
    (ends : Always (ConsumerProcess.step · jsoncpp (rowLog jsoncpp handlings) ·)
      (EndsAround dialect ready (handlings.map Prod.snd)) (.start initial) actions) :
    Delivered dialect ready (handlings.map Prod.snd) initial
      (ConsumerProcess.run jsoncpp (rowLog jsoncpp handlings) initial actions) := by
  let view := ConsumerProcess.handledOffsets pg jsoncpp (rowMessages jsoncpp handlings)
  let Inv : ConsumerProcess pg → Prop := fun s =>
    (∃ r, ConsumerProcess.Shown view (rowLog jsoncpp handlings) [] s r) ∧
      Delivered dialect ready (handlings.map Prod.snd) initial s
  have kept : ∀ s action, Inv s → EndsAround dialect ready (handlings.map Prod.snd) s action →
      Inv (s.step jsoncpp (rowLog jsoncpp handlings) action) := by
    rintro s action ⟨⟨r, shown⟩, delivered⟩ ends
    obtain ⟨r', -, shown'⟩ := shown.step (rowLog_readable roundTrips)
      (view.allows_all rfl (fun _ _ _ => rfl) s action)
    exact ⟨⟨r', shown'⟩, delivered.step roundTrips documented takes known shown ends⟩
  have begins : Inv (.start initial) :=
    ⟨ConsumerProcess.run_handled (rowLog_readable roundTrips) initial [], .start isReady⟩
  exact (Always.invariant kept begins ends).2

theorem rowMessages_handleable {db : pg.Database} (isReady : db ∈ ready) :
    ∀ msg ∈ rowMessages jsoncpp handlings, Handleable pg jsoncpp msg := by
  intro msg mem
  obtain ⟨offset, there⟩ := List.getElem?_of_mem mem
  have inNumbered := List.mem_of_getElem? (numbered_getElem? there)
  obtain ⟨row, result, db', -, handles, -⟩ :=
    handled_row roundTrips documented takes known inNumbered isReady
  exact (handlerIncomingData_returned_iff pg jsoncpp msg db).mp ⟨result, db', handles⟩

end Delivery

/-! ## What has become of every message -/

namespace ConsumerProcess

variable {pg : Postgres} {jsoncpp : JsonCpp} {msgs : List ConsumerMessage} {log : List Bytes}

theorem isChange_of_readable (readable : Readable jsoncpp log msgs) {offset : Nat}
    (within : offset < log.length) : IsChange jsoncpp log offset := by
  have there := List.getElem?_eq_getElem within
  obtain ⟨msg, -, consumed⟩ := readable.message there
  refine ⟨_, there, ?_⟩
  intro rejected
  rw [LibRdkafkaConsumer.startConsuming, rejected] at consumed
  cases consumed

/-- A consumer that is left running has in the end handled every message that it has not
skipped. -/
theorem settled_handled (readable : Readable jsoncpp log msgs)
    (handleable : ∀ msg ∈ msgs, DatabaseWriter.Handleable pg jsoncpp msg) (db : pg.Database)
    (before : List (ConsumerAction pg)) {rounds : List (List (ConsumerAction pg))}
    (fair : ∀ round ∈ rounds, FairRound (threads pg) Running round)
    (enough : 5 * log.length ≤ rounds.length) :
    let s := run jsoncpp log db (before ++ rounds.flatten)
    s.inMemory = [] ∧ ∀ offset < log.length,
      offset ∈ s.handled.map Prod.fst ∨ offset ∈ s.skipped := by
  intro s
  obtain ⟨r, shown⟩ : ∃ r, Shown (handledOffsets pg jsoncpp msgs) log [] s r :=
    run_handled readable db (before ++ rounds.flatten)
  obtain ⟨finished, -⟩ := rounds_left readable handleable db before fair enough
  obtain ⟨next, memory⟩ := left_eq_zero shown readable finished
  refine ⟨memory, ?_⟩
  intro offset within
  have position : offset < s.position := by
    have read := shown.sound.read
    rw [shown.position, next] at read
    exact Nat.lt_of_lt_of_le within read
  have accounted := (run_inv jsoncpp log db (before ++ rounds.flatten)).accounted offset position
    (isChange_of_readable readable within)
  rcases accounted with applied | failed | held | skipped
  · exact .inl (List.mem_map_of_mem applied)
  · exact .inl (List.mem_map_of_mem failed)
  · have here : offset ∈ s.inMemory := held
    rw [memory] at here
    cases here
  · exact .inr skipped

end ConsumerProcess

/-- Where every offset has been handled or skipped, all rows are delivered but for those that were
skipped and those that were missing before. -/
theorem rowsAt_complete {rows missing all more : List CommittedRow} {handled skipped : List Nat}
    (unfinished : List Nat) (whole : (rows ++ missing).Perm (all ++ more))
    (complete : ∀ offset < rows.length, offset ∈ handled ∨ offset ∈ skipped) :
    ∃ here lost again, all.Perm (here ++ lost) ∧
      lost.length ≤ skipped.length + missing.length ∧ again ⊆ rows ∧
      (rowsAt rows (handled ++ unfinished)).Perm (here ++ again) := by
  let absent := (List.range rows.length).filter (· ∈ skipped)
  let present := (List.range rows.length).filter fun offset => !decide (offset ∈ skipped)
  have split : rows.Perm (rowsAt rows present ++ rowsAt rows absent) := by
    have offsets : (present ++ absent).Perm (List.range rows.length) :=
      List.perm_append_comm.trans (List.filter_append_perm _ _)
    rw [← rowsAt_append]
    have back := (rowsAt_perm rows offsets).symm
    rwa [rowsAt_range] at back
  have parts : (all ++ more).Perm (rowsAt rows present ++ (rowsAt rows absent ++ missing)) := by
    rw [← List.append_assoc]
    exact whole.symm.trans (split.append_right missing)
  have among : all.Subperm (rowsAt rows present ++ (rowsAt rows absent ++ missing)) :=
    (List.sublist_append_left all more).subperm.trans parts.subperm
  obtain ⟨here, lost, parts, inPresent, inAbsent⟩ := subperm_split among
  have absent_le : absent.length ≤ skipped.length := by
    apply List.Subperm.length_le
    apply List.Nodup.subperm (List.nodup_range.filter _)
    intro offset mem
    exact of_decide_eq_true (List.mem_filter.mp mem).2
  have present_handled : present.Subperm handled := by
    apply List.Nodup.subperm (List.nodup_range.filter _)
    intro offset mem
    obtain ⟨within, notSkipped⟩ := List.mem_filter.mp mem
    rcases complete offset (List.mem_range.mp within) with isHandled | isSkipped
    · exact isHandled
    · rw [decide_eq_true isSkipped] at notSkipped
      cases notSkipped
  obtain ⟨others, handledSplit⟩ := subperm_append_rest present_handled
  obtain ⟨rest, presentSplit⟩ := subperm_append_rest inPresent
  refine ⟨here, lost, rest ++ rowsAt rows (others ++ unfinished), parts, ?_, ?_, ?_⟩
  · have inAbsent_le := inAbsent.length_le
    rw [List.length_append] at inAbsent_le
    have rows_le := length_rowsAt_le rows absent
    omega
  · intro row mem
    rcases List.mem_append.mp mem with isRest | isOther
    · apply rowsAt_subset rows present
      exact presentSplit.symm.subset (List.mem_append_right _ isRest)
    · exact rowsAt_subset rows _ isOther
  · have offsets := rowsAt_perm rows (handledSplit.append_right unfinished)
    rw [List.append_assoc, rowsAt_append rows present] at offsets
    rw [← List.append_assoc]
    exact offsets.trans (presentSplit.append_right _)

/-! ## From the source to the target -/

section Arrival

variable {pg : Postgres} {jsoncpp : JsonCpp} {dialect : Dialect} {ready : Set pg.Database}
  {transactions : List SourceTransaction} {slot : Nat} {stops : List Stop} {stop : Stop}
  {s : SlotState}

/-- Any number of stops of the producer, and then a session that gets to its end; any order of the
consumer's threads, any commits and ends of its process, and then enough turns of both threads:
every row of the source is in its table, but for at most as many as were lost with a producer, or
were in a consumer's memory and committed when it ended. -/
theorem rows_arrive (above : ∀ transaction ∈ transactions, slot < transaction.commitLsn)
    (sessions : Sessions jsoncpp transactions ⟨slot, [], []⟩ stops s)
    (last : stops.getLast? = some stop) (finished : stop.unhanded = [])
    (documented : dialect.DocumentsInserts pg)
    (takes : dialect.TakesRows pg ready (rowsOf transactions)) :
    ∃ handlings missing : List (UInt64 × CommittedRow),
      s.kept = rowLog jsoncpp handlings ∧ s.lost = rowLog jsoncpp missing ∧
      (handlings ++ missing).Perm ((handedItems stops).filterMap StreamItem.handling) ∧
      ∀ (db : pg.Database) (before : List (ConsumerAction pg))
        (rounds : List (List (ConsumerAction pg))), db ∈ ready →
        Always (ConsumerProcess.step · jsoncpp s.kept ·)
          (EndsAround dialect ready (handlings.map Prod.snd)) (.start db) before →
        (∀ round ∈ rounds,
          FairRound (ConsumerProcess.threads pg) ConsumerProcess.Running round) →
        5 * s.kept.length ≤ rounds.length →
        let p := ConsumerProcess.run jsoncpp s.kept db (before ++ rounds.flatten)
        p.inMemory = [] ∧ p.skipped.length ≤ p.crashes * (queueSize + 2) ∧
          ∃ here lost again, (rowsOf transactions).Perm (here ++ lost) ∧
            lost.length ≤ p.skipped.length + s.lost.length ∧ again ⊆ rowsOf transactions ∧
            ∀ name, dialect.unquoted name → (pg.rows p.db name).Perm
              (pg.rows db name ++ (here ++ again).flatMap (·.landing dialect name)) := by
  obtain ⟨front, rest, again, covered⟩ := sessions.covered above
  have covers := covered.covers
  have nothing : rest = [] := covered.finished stop last finished
  have all : rowsOf transactions = front := by rw [covers.all, nothing, List.append_nil]
  have given := covered.given
  rw [flatMap_sent_values] at given
  obtain ⟨handlings, missing, isKept, isLost, perm⟩ := perm_append_map given
  have kept : s.kept = rowLog jsoncpp handlings := isKept
  have notKept : s.lost = rowLog jsoncpp missing := isLost
  refine ⟨handlings, missing, kept, notKept, perm, ?_⟩
  intro db before rounds isReady ends fair enough p
  have whole : (handlings.map Prod.snd ++ missing.map Prod.snd).Perm
      (rowsOf transactions ++ again) := by
    have rows := perm.map Prod.snd
    rw [List.map_append, handlings_rows] at rows
    rw [all]
    exact rows.trans covers.taken
  have inSource : handlings.map Prod.snd ⊆ rowsOf transactions := by
    intro row mem
    rcases List.mem_append.mp (whole.subset (List.mem_append_left _ mem)) with once | more
    · exact once
    · rw [all]
      exact covers.known row more
  have known : ∀ handling ∈ handlings, handling.2 ∈ rowsOf transactions := by
    intro handling mem
    exact inSource (List.mem_map_of_mem mem)
  have roundTrips : RowsRoundTrip jsoncpp handlings := fun handling mem =>
    covered.carries.roundTrips handling (perm.subset (List.mem_append_left _ mem))
  have handleable := rowMessages_handleable roundTrips documented takes known isReady
  rw [kept] at enough
  have isRun : p = ConsumerProcess.run jsoncpp (rowLog jsoncpp handlings) db
      (before ++ rounds.flatten) := by
    rw [← kept]
  obtain ⟨memory, complete⟩ := ConsumerProcess.settled_handled (rowLog_readable roundTrips)
    handleable db before fair enough
  have running : Always (ConsumerProcess.step · jsoncpp (rowLog jsoncpp handlings) ·)
      (EndsAround dialect ready (handlings.map Prod.snd)) (.start db)
      (before ++ rounds.flatten) := by
    rw [kept] at ends
    refine ends.append (Always.of_mem ?_)
    intro action mem state
    obtain ⟨round, inRounds, inRound⟩ := List.mem_flatten.mp mem
    have runs := (fair round inRounds).2 action inRound
    cases action with
    | crash db => exact runs.elim
    | consume => trivial
    | callback => trivial
    | push => trivial
    | pop => trivial
    | write => trivial
    | commit => trivial
  obtain ⟨-, unfinished, landed⟩ :=
    run_delivered roundTrips documented takes known isReady running
  have count : (handlings.map Prod.snd).length = (rowLog jsoncpp handlings).length := by
    rw [rowLog, List.length_map, List.length_map]
  rw [← count] at complete
  obtain ⟨here, lost, again', parts, lost_le, fromRows, delivered⟩ :=
    rowsAt_complete unfinished whole complete
  have lostCount : s.lost.length = (missing.map Prod.snd).length := by
    rw [notKept, rowLog, List.length_map, List.length_map]
  rw [isRun, lostCount]
  refine ⟨memory, (ConsumerProcess.run_inv _ _ _ _).skipped_le, here, lost, again', parts, lost_le,
    List.Subset.trans fromRows inSource, ?_⟩
  intro name unquoted
  exact (landed name unquoted).trans ((delivered.flatMap_right _).append_left _)

end Arrival

/-- The transaction has been sent twice, and Kafka has kept both messages. The consumer ends as soon
as it has been started, and is started again. -/
theorem rows_arrive_user :
    let payload := userRow.payload userJson 0
    Sessions userJson [userTransaction] ⟨0, [], []⟩ [userStop, userAgain]
        ⟨0, [payload, payload], []⟩ ∧
      let p : ConsumerProcess (letterDialect.wildServer 23) :=
        ConsumerProcess.run userJson [payload, payload] (fun _ => [])
          ([.crash fun _ => []] ++ (List.replicate 10 (ConsumerProcess.threads _)).flatten)
      p.inMemory = [] ∧ p.skipped.length ≤ p.crashes * (queueSize + 2) ∧
        ∃ here lost again, (rowsOf [userTransaction]).Perm (here ++ lost) ∧
          lost.length ≤ p.skipped.length ∧ again ⊆ rowsOf [userTransaction] ∧
          ∀ name, letterDialect.unquoted name →
            ((letterDialect.wildServer 23).rows p.db name).Perm
              ([] ++ (here ++ again).flatMap (·.landing letterDialect name)) := by
  intro payload
  have sessions : Sessions userJson [userTransaction] ⟨0, [], []⟩ [userStop, userAgain]
      ⟨0, [payload, payload], []⟩ := by
    have twice : [payload, payload] = [payload] ++ [payload] := rfl
    rw [twice]
    apply userSessions
    intro stopped ran
    obtain ⟨values, ⟨rdKafka, isThere, -⟩, -⟩ := userStop_state ran
    exact values ▸ stores_all isThere
  clear_value payload
  refine ⟨sessions, ?_⟩
  have above : ∀ transaction ∈ [userTransaction], 0 < transaction.commitLsn := by decide
  obtain ⟨handlings, missing, -, -, -, arrive⟩ :=
    rows_arrive above sessions rfl rfl Dialect.wildServer_documents user_takes
  refine arrive (fun _ => []) [.crash fun _ => []]
    (List.replicate 10 (ConsumerProcess.threads _)) (Set.mem_univ _) ?_ ?_ ?_
  · exact ⟨⟨Set.mem_univ _, .inl fun _ _ => rfl⟩, trivial⟩
  · intro round mem
    rw [List.eq_of_mem_replicate mem]
    exact ConsumerProcess.fair_threads
  · rw [List.length_replicate]
    exact Nat.le_refl 10

end KafkaReplication
