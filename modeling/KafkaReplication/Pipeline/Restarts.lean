import KafkaReplication.Misc.Resend
import KafkaReplication.Pipeline.Restart

/-!
# Any number of restarts of the producer

A producer that is started (`producer_azs/main.cpp`) has nothing of the one before it. It asks for
the stream from the position of its configuration file on (`startReplicationAll`,
`producer_azs/postgresql_replicator.cpp:144-166`), which it never writes, and PostgreSQL goes on
behind what it has been told by status updates. So the sessions are those of a sender that resumes.
What a process has queued and no delivery report has settled may be lost with it.
-/

namespace KafkaReplication
open Misc PgOutputParser PostgresqlReplicator DatabaseWriter

/-- What is left between two sessions: where the server resumes, and the values that Kafka has
kept and those that are lost. -/
structure SlotState where
  position : Nat
  kept : List Bytes
  lost : List Bytes

/-- Sessions of producers that have just been started, each up to a stop, behind which Kafka keeps
what was delivered and some of the rest. The server sends the transactions above its position, and
resumes at no position above those that it has been told. -/
inductive Sessions (jsoncpp : JsonCpp) (transactions : List SourceTransaction)
    (start : SlotState) : List Stop → SlotState → Prop
  | none : Sessions jsoncpp transactions start [] start
  | next {stops : List Stop} {s : SlotState} {first stopped : PostgresqlReplicator} {stop : Stop}
      {position : Nat} {kept lost : List Bytes}
      (earlier : Sessions jsoncpp transactions start stops s)
      (fresh : first.Fresh)
      (sends : Sends (stop.front ++ stop.rest) (transactions.filter (s.position < ·.commitLsn)))
      (carries : Carries jsoncpp (stop.front ++ stop.rest))
      (ran : stop.run jsoncpp first = .ok () stopped) (stores : stopped.Stores kept lost)
      (resumes : position ≤ max s.position (lastFlush s.position stopped)) :
      Sessions jsoncpp transactions start (stops ++ [stop])
        ⟨position, s.kept ++ kept, s.lost ++ lost⟩

section Sessions

variable {jsoncpp : JsonCpp} {transactions : List SourceTransaction} {slot : Nat} {stop : Stop}
  {stops : List Stop} {s : SlotState} {first : PostgresqlReplicator}

/-- A producer that has just been started gets to any stop. -/
theorem Stop.run_fresh (stop : Stop) (fresh : first.Fresh)
    (sends : Sends (stop.front ++ stop.rest) transactions)
    (carries : Carries jsoncpp (stop.front ++ stop.rest)) :
    ∃ stopped, stop.run jsoncpp first = .ok () stopped ∧
      HandedOver jsoncpp stop.handed first stopped :=
  stop.run_ok fresh.initialised carries.taken (fresh.cache ▸ sends.relations)

/-- The items whose events Kafka has been given, session after session. -/
def handedItems (stops : List Stop) : List StreamItem := stops.flatMap Stop.handed

theorem handedItems_append (stops : List Stop) (stop : Stop) :
    handedItems (stops ++ [stop]) = handedItems stops ++ stop.handed := by
  rw [handedItems, List.flatMap_append, List.flatMap_singleton]
  rfl

/-- A session of a producer is one of a sender of rows. -/
theorem stop_session (fresh : first.Fresh)
    (sends : Sends (stop.front ++ stop.rest) (transactions.filter (s.position < ·.commitLsn)))
    {stopped : PostgresqlReplicator} (handed : HandedOver jsoncpp stop.handed first stopped)
    {position : Nat} (resumes : position ≤ max s.position (lastFlush s.position stopped))
    (taken : List CommittedRow) :
    Sender.Session CommittedRow.commitLsn (rowsOf transactions) ⟨s.position, taken⟩
      (streamRows stop.unhanded) ⟨position, taken ++ streamRows stop.handed⟩ := by
  have sent : (rowsOf transactions).filter (s.position < ·.commitLsn) =
      streamRows stop.handed ++ streamRows stop.unhanded := by
    rw [← rowsOf_filter, ← sends.rows, ← stop.handed_append_unhanded, streamRows_append]
  have above : ∀ row ∈ rowsOf (transactions.filter (s.position < ·.commitLsn)),
      s.position < row.commitLsn := by
    intro row mem
    rw [rowsOf_filter] at mem
    exact of_decide_eq_true (List.mem_filter.mp mem).2
  refine .ends sent ?_
  intro row mem
  have told : lastFlush s.position stopped < row.commitLsn :=
    unhanded_above fresh sends above handed mem
  have before : s.position < row.commitLsn := by
    have there := List.mem_append_right (streamRows stop.handed) mem
    rw [← sent] at there
    exact of_decide_eq_true (List.mem_filter.mp there).2
  omega

/-- What the sessions leave. -/
structure Covered (jsoncpp : JsonCpp) (transactions : List SourceTransaction)
    (stops : List Stop) (s : SlotState) (front rest again : List CommittedRow) : Prop where
  given : (s.kept ++ s.lost).Perm (((handedItems stops).flatMap (·.sent jsoncpp)).map Prod.snd)
  carries : Carries jsoncpp (handedItems stops)
  covers : Sender.Covers CommittedRow.commitLsn (rowsOf transactions)
    ⟨s.position, streamRows (handedItems stops)⟩ front rest again
  finished : ∀ stop ∈ stops.getLast?, stop.unhanded = [] → rest = []

theorem Sessions.covered (above : ∀ transaction ∈ transactions, slot < transaction.commitLsn)
    (sessions : Sessions jsoncpp transactions ⟨slot, [], []⟩ stops s) :
    ∃ front rest again, Covered jsoncpp transactions stops s front rest again := by
  induction sessions with
  | none =>
    refine ⟨[], _, [], .refl _, ⟨?_, ?_⟩, Sender.covers_start ?_, ?_⟩
    · intro item mem
      cases mem
    · intro handling mem
      cases mem
    · intro row mem
      obtain ⟨transaction, there, isRow⟩ := List.mem_flatMap.mp mem
      rw [transaction.committed row isRow]
      exact above transaction there
    · intro stop last
      cases last
  | @next stops s first stopped stop position kept lost earlier fresh sends carries ran stores
      resumes ih =>
    obtain ⟨front, rest, again, covered⟩ := ih
    obtain ⟨stopped', ran', handed⟩ := stop.run_fresh fresh sends carries
    rw [ran] at ran'
    cases ran'
    obtain ⟨front', rest', again', covers, finished⟩ :=
      covered.covers.session (stop_session fresh sends handed resumes _)
    refine ⟨front', rest', again', ?_, ?_, ?_, ?_⟩
    · have both := append_split_perm covered.given stores.perm
      rwa [handed.accepted, fresh.accepted, List.nil_append, ← List.map_append,
        ← List.flatMap_append, ← handedItems_append] at both
    · rw [handedItems_append]
      exact covered.carries.append carries.handed
    · rw [handedItems_append, streamRows_append]
      exact covers
    · intro last isLast nothing
      rw [List.getLast?_concat, Option.mem_some] at isLast
      rw [← isLast] at nothing
      apply finished
      rw [nothing]
      rfl

variable {pg : Postgres} {dialect : Dialect} {ready : Set pg.Database}

/-- However often the producer is ended, between two packets or within one, and wherever the server
resumes: the rows of the target are the first rows of the source, each as often as a session has
handed it over, and all of them once a session has got to the end; but for the rows of the messages
that Kafka has not kept. -/
theorem sessions_rows (above : ∀ transaction ∈ transactions, slot < transaction.commitLsn)
    (sessions : Sessions jsoncpp transactions ⟨slot, [], []⟩ stops s)
    (documented : dialect.DocumentsInserts pg)
    (takes : dialect.TakesRows pg ready (rowsOf transactions)) :
    ∃ front rest again, rowsOf transactions = front ++ rest ∧
      (stops.flatMap fun stop => streamRows stop.handed).Perm (front ++ again) ∧
      (∀ row ∈ again, row ∈ front) ∧ (∀ row ∈ rest, s.position < row.commitLsn) ∧
      (∀ stop ∈ stops.getLast?, stop.unhanded = [] → rest = []) ∧
      (∀ (first : PostgresqlReplicator) (stop : Stop), first.Fresh →
        Sends (stop.front ++ stop.rest) (transactions.filter (s.position < ·.commitLsn)) →
        Carries jsoncpp (stop.front ++ stop.rest) →
        ∃ stopped, stop.run jsoncpp first = .ok () stopped) ∧
      ∀ consumed, consumed.Perm s.kept →
        ∃ missing, s.lost = rowLog jsoncpp missing ∧
          (∀ row ∈ missing.map Prod.snd, row ∈ front) ∧
          ∀ db ∈ ready, ∃ db', consumeAll pg jsoncpp consumed db = .ok () db' ∧
            (∀ name, dialect.unquoted name →
              (pg.rows db' name ++
                (missing.map Prod.snd).flatMap (·.landing dialect name)).Perm
                  (pg.rows db name ++ (front ++ again).flatMap (·.landing dialect name))) ∧
            (rest = [] →
              (dialect.EachOnce transactions (pg.rows db) (pg.rows db') ↔
                dialect.SameRows (missing.map Prod.snd) again)) ∧
            (rest = [] → s.lost = [] →
              (dialect.EachOnce transactions (pg.rows db) (pg.rows db') ↔ again = [])) := by
  obtain ⟨front, rest, again, covered⟩ := sessions.covered above
  have covers := covered.covers
  refine ⟨front, rest, again, covers.all, ?_, covers.known, covers.above, covered.finished, ?_, ?_⟩
  · have rows : streamRows (handedItems stops) =
        stops.flatMap fun stop => streamRows stop.handed := by
      simp only [streamRows, handedItems, List.filterMap_flatMap]
    rw [← rows]
    exact covers.taken
  · intro first stop fresh sends carries
    obtain ⟨stopped, ran, -⟩ := stop.run_fresh fresh sends carries
    exact ⟨stopped, ran⟩
  · intro consumed isKept
    have inFront : ∀ row ∈ front ++ again, row ∈ front := by
      intro row mem
      rcases List.mem_append.mp mem with once | more
      · exact once
      · exact covers.known row more
    have known : ∀ row ∈ streamRows (handedItems stops), row ∈ rowsOf transactions := by
      intro row mem
      rw [covers.all]
      exact List.mem_append_left _ (inFront row (covers.taken.subset mem))
    obtain ⟨missing, isLost, among, done⟩ := consumed_rows covered.carries known documented takes
      ((isKept.append_right _).trans covered.given)
    refine ⟨missing, isLost, fun row mem => inFront row (covers.taken.subset (among row mem)), ?_⟩
    intro db isReady
    obtain ⟨db', ran, added⟩ := done db isReady
    have added' : ∀ name, dialect.unquoted name →
        (pg.rows db' name ++ (missing.map Prod.snd).flatMap (·.landing dialect name)).Perm
          (pg.rows db name ++ (front ++ again).flatMap (·.landing dialect name)) := by
      intro name unquoted
      exact (added name unquoted).trans ((covers.taken.flatMap_right _).append_left _)
    have all (finished : rest = []) : rowsOf transactions = front := by
      rw [covers.all, finished, List.append_nil]
    refine ⟨db', ran, added', ?_, ?_⟩
    · intro finished
      rw [← all finished] at added'
      exact eachOnce_iff added'
    · intro finished nothing
      have none_ : missing.map Prod.snd = [] := rowLog_missing_nil (nothing ▸ isLost)
      rw [← all finished, none_] at added'
      refine (eachOnce_iff added').trans (sameRows_nil_iff ?_)
      intro row mem
      apply takes.plain row
      rw [all finished]
      exact covers.known row mem

end Sessions

/-- The producer is started again, and handles the transaction to its end. -/
def userAgain : Stop := ⟨userFront ++ userRest, [], none⟩

theorem userAgain_stores {ended : PostgresqlReplicator}
    (ran : userAgain.run userJson startedReplicator = .ok () ended) :
    ended.Stores [userRow.payload userJson 0] [] := by
  have sends : Sends (userAgain.front ++ userAgain.rest) [userTransaction] := by
    rw [userAgain, List.append_nil]
    exact user_sends
  have carries : Carries userJson (userAgain.front ++ userAgain.rest) := by
    rw [userAgain, List.append_nil]
    exact user_carries
  obtain ⟨ended', ran', handed⟩ := userAgain.run_fresh startedReplicator_fresh sends carries
  rw [ran] at ran'
  cases ran'
  have values : ended.accepted.map Prod.snd = [userRow.payload userJson 0] := by
    have accepted : ended.accepted = [] ++ userAgain.handed.flatMap (·.sent userJson) :=
      handed.accepted
    rw [accepted, List.nil_append, flatMap_sent_values]
    rfl
  have there : (finalState (userAgain.run userJson startedReplicator)).rdKafka.isSome := by
    decide +kernel
  rw [ran] at there
  obtain ⟨rdKafka, isThere⟩ := Option.isSome_iff_exists.mp there
  exact values ▸ stores_all isThere

/-- Whatever becomes of the message of the first session, the transaction is sent again. -/
theorem userSessions {kept lost : List Bytes}
    (stores : ∀ stopped, userStop.run userJson startedReplicator = .ok () stopped →
      stopped.Stores kept lost) :
    Sessions userJson [userTransaction] ⟨0, [], []⟩ [userStop, userAgain]
      ⟨0, kept ++ [userRow.payload userJson 0], lost⟩ := by
  have carries : Carries userJson (userAgain.front ++ userAgain.rest) := by
    rw [userAgain, List.append_nil]
    exact user_carries
  have sends : Sends (userAgain.front ++ userAgain.rest)
      ([userTransaction].filter (0 < ·.commitLsn)) := by
    rw [userAgain, List.append_nil]
    exact user_sends
  obtain ⟨stopped, ran, -⟩ := userStop.run_fresh startedReplicator_fresh user_sends user_carries
  obtain ⟨ended, ran', -⟩ := userAgain.run_fresh startedReplicator_fresh sends carries
  have first : Sessions userJson [userTransaction] ⟨0, [], []⟩ [userStop] ⟨0, kept, lost⟩ :=
    .next .none startedReplicator_fresh user_sends user_carries ran (stores stopped ran)
      (Nat.zero_le _)
  have both := Sessions.next first startedReplicator_fresh sends carries ran'
    (userAgain_stores ran') (Nat.zero_le _)
  rwa [List.append_nil] at both

/-- The message of the first session is lost with its process. The transaction has been sent twice,
and its row is there once. -/
theorem sessions_rows_user :
    Sessions userJson [userTransaction] ⟨0, [], []⟩ [userStop, userAgain]
        ⟨0, [userRow.payload userJson 0], [userRow.payload userJson 0]⟩ ∧
      ∃ db', consumeAll (letterDialect.wildServer 23) userJson [userRow.payload userJson 0]
          (fun _ => []) = .ok () db' ∧
        letterDialect.EachOnce [userTransaction] (fun _ => [])
          ((letterDialect.wildServer 23).rows db') := by
  have sessions : Sessions userJson [userTransaction] ⟨0, [], []⟩ [userStop, userAgain]
      ⟨0, [] ++ [userRow.payload userJson 0], [userRow.payload userJson 0]⟩ := by
    apply userSessions
    intro stopped ran
    obtain ⟨values, ⟨rdKafka, isThere, none_⟩, -⟩ := userStop_state ran
    exact values ▸ stores_nothing isThere none_
  refine ⟨sessions, ?_⟩
  have above : ∀ transaction ∈ [userTransaction], 0 < transaction.commitLsn := by decide
  obtain ⟨front, rest, again, all, handed, inFront, -, finished, -, done⟩ :=
    sessions_rows above sessions Dialect.wildServer_documents user_takes
  obtain ⟨missing, isLost, among, rows⟩ := done _ (.refl _)
  obtain ⟨db', ran, -, once, -⟩ := rows (fun _ => []) (Set.mem_univ _)
  have nothing : rest = [] := finished userAgain rfl rfl
  have whole : [userRow] = front := by
    rw [nothing, List.append_nil] at all
    exact all
  subst whole
  have twice : again = [userRow] := by
    have perm : ([userRow] ++ [userRow]).Perm ([userRow] ++ again) := handed
    exact (List.perm_append_left_iff _).mp perm |>.symm.eq_singleton
  have lost : missing.map Prod.snd = [userRow] :=
    userRow_missing isLost fun row mem => List.mem_singleton.mp (among row mem)
  refine ⟨db', ran, (once nothing).mpr ?_⟩
  rw [lost, twice]
  exact fun name _ => .refl _

end KafkaReplication
