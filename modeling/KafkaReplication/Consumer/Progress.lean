import KafkaReplication.Consumer.Redelivery
import KafkaReplication.Misc.FairRounds

/-!
# What the consumer gets done

`startConsumer` and `startDbWriter` (`consumer_bo/replication_consumer.h:67-86`) loop for ever, and
neither takes the next step from the other. So each round in which both have their turns brings
some message a step further, and a consumer that is left running handles whatever lies in front
of it.
-/

namespace KafkaReplication
open Misc

/-- How many steps the message in the thread's hands is from being handled. -/
def ConsumerThread.left : ConsumerThread → Nat
  | idle => 0
  | returned _ _ => 4
  | pushing _ _ => 3

namespace ConsumerProcess

variable {pg : Postgres}

/-- The steps of the two loops. -/
def threads (pg : Postgres) : List (ConsumerAction pg) :=
  [.consume, .callback, .push, .pop, .write]

/-- The process does not end. -/
def Running : ConsumerAction pg → Prop
  | .crash _ => False
  | _ => True

/-- Both loops once around. -/
theorem fair_threads : FairRound (threads pg) Running (threads pg) := by
  refine ⟨List.Subset.refl _, ?_⟩
  intro action turn
  simp only [threads, List.mem_cons, List.not_mem_nil, or_false] at turn
  rcases turn with rfl | rfl | rfl | rfl | rfl <;> trivial

section Work

variable (log : List Bytes)

/-- The steps that are left until every message is handled. -/
def left (s : ConsumerProcess pg) : Nat :=
  5 * (log.length - s.position) + s.consumer.left + 2 * s.queue.queueToSave.length +
    s.writer.toList.length

/-- The loop has something to do at this step, and does not wait. -/
def Useful (s : ConsumerProcess pg) : ConsumerAction pg → Prop
  | .consume => s.consumer = .idle ∧ s.position < log.length
  | .callback => ∃ offset payload, s.consumer = .returned offset payload
  | .push => (∃ offset msg, s.consumer = .pushing offset msg) ∧
      s.queue.queueToSave.length < queueSize
  | .pop => s.writer = none ∧ s.queue.queueToSave ≠ []
  | .write => ∃ entry, s.writer = some entry
  | _ => False

end Work

variable {jsoncpp : JsonCpp} {msgs : List ConsumerMessage} {log : List Bytes}
  {s : ConsumerProcess pg} {σ : Type} {view : View pg jsoncpp msgs σ} {initial : σ}
  {r : LogReader σ}

theorem exists_useful (unfinished : 0 < s.left log) :
    ∃ thread ∈ threads pg, s.Useful log thread := by
  cases writer : s.writer with
  | some entry => exact ⟨.write, by simp [threads], entry, writer⟩
  | none =>
    cases queue : s.queue.queueToSave with
    | cons entry entries =>
      exact ⟨.pop, by simp [threads], writer, queue ▸ List.cons_ne_nil entry entries⟩
    | nil =>
      cases consumer : s.consumer with
      | returned offset payload => exact ⟨.callback, by simp [threads], offset, payload, consumer⟩
      | pushing offset msg =>
        refine ⟨.push, by simp [threads], ⟨offset, msg, consumer⟩, ?_⟩
        rw [queue]
        exact Nat.succ_pos _
      | idle =>
        refine ⟨.consume, by simp [threads], consumer, ?_⟩
        simp only [left, writer, queue, consumer, ConsumerThread.left] at unfinished
        simp at unfinished
        omega

/-- A step with nothing to do at most commits. -/
theorem step_useless (jsoncpp : JsonCpp) {action : ConsumerAction pg}
    (useless : ¬ s.Useful log action) (running : Running action) :
    ∃ committed, s.step jsoncpp log action = { s with committed := committed } := by
  cases action with
  | consume =>
    refine ⟨s.committed, ?_⟩
    show s.consume log = s
    unfold consume
    split
    next payload idle there =>
      exact absurd ⟨idle, (List.getElem?_eq_some_iff.mp there).1⟩ useless
    next => rfl
  | callback =>
    refine ⟨s.committed, ?_⟩
    show s.callback jsoncpp = s
    unfold callback
    split
    next offset payload returned => exact absurd ⟨offset, payload, returned⟩ useless
    next => rfl
  | push =>
    refine ⟨s.committed, ?_⟩
    show s.push = s
    unfold push
    split
    next offset msg pushing =>
      split
      next queue pushed =>
        have room := queue.size_le
        rw [SafeQueue.push_eq_some pushed, List.length_append] at room
        exact absurd ⟨⟨offset, msg, pushing⟩, room⟩ useless
      next => rfl
    next => rfl
  | pop =>
    refine ⟨s.committed, ?_⟩
    show s.pop = s
    unfold pop
    split
    next entry queue idle popped =>
      refine absurd ⟨idle, ?_⟩ useless
      rw [SafeQueue.pop_eq_some popped]
      exact List.cons_ne_nil entry _
    next => rfl
  | write =>
    refine ⟨s.committed, ?_⟩
    show s.write jsoncpp = s
    unfold write
    split
    next offset msg writing => exact absurd ⟨_, writing⟩ useless
    next => rfl
  | commit => exact ⟨s.position, rfl⟩
  | crash db => exact running.elim

/-- A step that has something to do is one fewer to do, and none that ends the process. -/
theorem step_useful {action : ConsumerAction pg} (useful : s.Useful log action)
    (shown : Shown view log initial s r) (readable : Readable jsoncpp log msgs)
    (handleable : ∀ msg ∈ msgs, DatabaseWriter.Handleable pg jsoncpp msg) :
    (s.step jsoncpp log action).left log < s.left log ∧
      (s.step jsoncpp log action).crashes = s.crashes := by
  cases action with
  | consume =>
    obtain ⟨idle, within⟩ := useful
    have stepped : s.consume log =
        { s with
          position := s.position + 1
          consumer := .returned s.position log[s.position] } := by
      rw [consume, idle, List.getElem?_eq_getElem within]
    rw [ConsumerProcess.step, stepped]
    refine ⟨?_, rfl⟩
    simp only [left, idle, ConsumerThread.left]
    omega
  | callback =>
    obtain ⟨offset, payload, returned⟩ := useful
    obtain ⟨msg, -, consumed⟩ := readable.message (shown.returned offset payload returned)
    have stepped : s.callback jsoncpp = { s with consumer := .pushing offset msg } := by
      simp only [callback, returned, consumed]
    rw [ConsumerProcess.step, stepped]
    refine ⟨?_, rfl⟩
    simp only [left, returned, ConsumerThread.left]
    omega
  | push =>
    obtain ⟨⟨offset, msg, pushing⟩, room⟩ := useful
    cases pushed : s.queue.push (offset, msg) with
    | none => exact absurd (SafeQueue.push_eq_none pushed) (Nat.ne_of_lt room)
    | some queue =>
      have stepped : s.push = { s with consumer := .idle, queue := queue } := by
        simp only [push, pushing, pushed]
      rw [ConsumerProcess.step, stepped]
      refine ⟨?_, rfl⟩
      simp only [left, pushing, ConsumerThread.left, SafeQueue.push_eq_some pushed,
        List.length_append, List.length_singleton]
      omega
  | pop =>
    obtain ⟨idle, filled⟩ := useful
    cases popped : s.queue.pop with
    | none => exact absurd (SafeQueue.pop_eq_none popped) filled
    | some taken =>
      obtain ⟨entry, queue⟩ := taken
      have stepped : s.pop = { s with queue := queue, writer := some entry } := by
        simp only [pop, idle, popped]
      rw [ConsumerProcess.step, stepped]
      refine ⟨?_, rfl⟩
      simp only [left, idle, SafeQueue.pop_eq_some popped, List.length_cons, Option.toList]
      omega
  | write =>
    obtain ⟨⟨offset, msg⟩, writing⟩ := useful
    have mem := msg_of_numbered (List.mem_of_getElem? (shown.writing writing).2.1)
    obtain ⟨result, db, handles⟩ :=
      (DatabaseWriter.handlerIncomingData_returned_iff pg jsoncpp msg s.db).mpr
        (handleable msg (List.mem_of_getElem? mem))
    have stepped : s.write jsoncpp =
        { s with writer := none, db := db, handled := s.handled ++ [(offset, result)] } := by
      simp only [write, writing, handles]
    rw [ConsumerProcess.step, stepped]
    refine ⟨?_, rfl⟩
    simp only [left, writing, Option.toList, List.length_cons, List.length_nil]
    omega
  | commit => exact useful.elim
  | crash db => exact useful.elim

section Rounds

variable (readable : Readable jsoncpp log msgs)
  (handleable : ∀ msg ∈ msgs, DatabaseWriter.Handleable pg jsoncpp msg)

/-- The process is a reader, and has not ended since. -/
def Ongoing (pg : Postgres) (jsoncpp : JsonCpp) (msgs : List ConsumerMessage) (log : List Bytes)
    (crashes : Nat) (s : ConsumerProcess pg) : Prop :=
  (∃ r, Shown (handledOffsets pg jsoncpp msgs) log [] s r) ∧ s.crashes = crashes

/-- The measure of the two loops. -/
def progress (crashes : Nat) :
    Progress (step · jsoncpp log ·) (threads pg) (Ongoing pg jsoncpp msgs log crashes) Running where
  work := left log
  Useful := Useful log
  kept := by
    rintro s action ⟨⟨r, shown⟩, same⟩ running
    obtain ⟨r', -, shown'⟩ := shown.step readable
      (View.allows_all _ rfl (fun _ _ _ => rfl) s action)
    refine ⟨⟨r', shown'⟩, ?_⟩
    by_cases useful : s.Useful log action
    · exact (step_useful useful shown readable handleable).2.trans same
    · obtain ⟨committed, stepped⟩ := step_useless jsoncpp useful running
      rw [stepped]
      exact same
  lowers := by
    rintro s thread ⟨⟨r, shown⟩, -⟩ useful
    exact (step_useful useful shown readable handleable).1
  stays := by
    rintro s action ⟨⟨r, shown⟩, -⟩ running
    by_cases useful : s.Useful log action
    · exact Or.inl (step_useful useful shown readable handleable).1
    · obtain ⟨committed, stepped⟩ := step_useless jsoncpp useful running
      rw [stepped]
      refine Or.inr ⟨rfl, ?_⟩
      intro thread useful'
      cases thread <;> exact useful'
  someone := fun s _ unfinished => exists_useful unfinished

/-- What is read and not handled is at most so many steps from it. -/
theorem left_le (shown : Shown view log initial s r) (readable : Readable jsoncpp log msgs) :
    s.left log ≤ 5 * log.length := by
  have within := shown.sound.within
  have flight := shown.flight_length
  rw [numbered_length, ← readable.length_eq] at within
  have hands : s.consumer.left ≤ 4 * (holding jsoncpp s.consumer).length := by
    cases consumer : s.consumer with
    | idle => exact Nat.le_refl 0
    | pushing offset msg => exact Nat.le_succ 3
    | returned offset payload =>
      obtain ⟨msg, -, consumed⟩ := readable.message (shown.returned offset payload consumer)
      rw [holding, consumed]
      exact Nat.le_refl 4
  rw [inFlight, List.length_append, List.length_append] at flight
  have position := shown.position
  unfold left
  omega

/-- With nothing left to do everything that has been read is handled, and nothing is unread. -/
theorem left_eq_zero (shown : Shown view log initial s r) (readable : Readable jsoncpp log msgs)
    (finished : s.left log = 0) : r.next = log.length ∧ s.inMemory = [] := by
  have within := shown.sound.within
  have flight := shown.flight_length
  have position := shown.position
  rw [numbered_length, ← readable.length_eq] at within
  unfold left at finished
  have idle : s.consumer = .idle := by
    cases consumer : s.consumer with
    | idle => rfl
    | returned offset payload =>
      rw [consumer, ConsumerThread.left] at finished
      omega
    | pushing offset msg =>
      rw [consumer, ConsumerThread.left] at finished
      omega
  have queue : s.queue.queueToSave = [] := List.length_eq_zero_iff.mp (by omega)
  have writer : s.writer = none := by
    cases writer : s.writer with
    | none => rfl
    | some entry =>
      rw [writer, Option.toList, List.length_singleton] at finished
      omega
  refine ⟨?_, ?_⟩
  · rw [inFlight, idle, queue, writer] at flight
    have none_ : r.position = r.next + 0 := flight
    omega
  · rw [inMemory, idle, queue, writer]
    rfl

/-- As many rounds are enough as there are steps from a message in the partition to its row. -/
theorem rounds_left (readable : Readable jsoncpp log msgs)
    (handleable : ∀ msg ∈ msgs, DatabaseWriter.Handleable pg jsoncpp msg) (db : pg.Database)
    (before : List (ConsumerAction pg)) {rounds : List (List (ConsumerAction pg))}
    (fair : ∀ round ∈ rounds, FairRound (threads pg) Running round)
    (enough : 5 * log.length ≤ rounds.length) :
    let s' := run jsoncpp log db (before ++ rounds.flatten)
    s'.left log = 0 ∧ s'.crashes = (run jsoncpp log db before).crashes := by
  intro s'
  let s := run jsoncpp log db before
  obtain ⟨r, shown⟩ : ∃ r, Shown (handledOffsets pg jsoncpp msgs) log [] s r :=
    run_handled readable db before
  have last : s' = runFrom (step · jsoncpp log ·) s rounds.flatten := runFrom_append _ _ _
  let measure : Progress (step · jsoncpp log ·) (threads pg) _ Running :=
    progress readable handleable s.crashes
  have ongoing : Ongoing pg jsoncpp msgs log s.crashes s := ⟨⟨r, shown⟩, rfl⟩
  have running : ∀ action ∈ rounds.flatten, Running action := by
    intro action mem
    obtain ⟨round, inRounds, inRound⟩ := List.mem_flatten.mp mem
    exact (fair round inRounds).2 action inRound
  have bound : s.left log ≤ 5 * log.length := left_le shown readable
  have work : s'.left log ≤ s.left log - rounds.length := by
    rw [last]
    exact measure.rounds ongoing fair
  refine ⟨by omega, ?_⟩
  rw [last]
  exact (measure.kept_run ongoing running).2

/-- Nothing that the consumer does by itself ends the process. -/
theorem run_crashes (readable : Readable jsoncpp log msgs)
    (handleable : ∀ msg ∈ msgs, DatabaseWriter.Handleable pg jsoncpp msg) (db : pg.Database)
    {actions : List (ConsumerAction pg)} (running : ∀ action ∈ actions, Running action) :
    (run jsoncpp log db actions).crashes = 0 := by
  let measure : Progress (step · jsoncpp log ·) (threads pg) _ Running :=
    progress readable handleable 0
  obtain ⟨r, shown⟩ : ∃ r, Shown (handledOffsets pg jsoncpp msgs) log [] (start db) r :=
    run_handled readable db []
  have ongoing : Ongoing pg jsoncpp msgs log 0 (start db) := ⟨⟨r, shown⟩, rfl⟩
  exact (measure.kept_run ongoing running).2

/-- Whatever has happened before, a consumer that is left running handles every message from the
offset on where it was started last, in their order and each once. It is not ended by any of
them. -/
theorem settles (readable : Readable jsoncpp log msgs)
    (handleable : ∀ msg ∈ msgs, DatabaseWriter.Handleable pg jsoncpp msg) (db : pg.Database)
    (before : List (ConsumerAction pg)) {rounds : List (List (ConsumerAction pg))}
    (fair : ∀ round ∈ rounds, FairRound (threads pg) Running round)
    (enough : 5 * log.length ≤ rounds.length) :
    let s := run jsoncpp log db before
    let s' := run jsoncpp log db (before ++ rounds.flatten)
    ∃ (stretches : List Stretch) (start : Nat),
      s'.handled.map Prod.fst =
        (stretches ++ [Stretch.mk start log.length]).flatMap Stretch.offsets ∧
      stretches.length = s.crashes ∧ start ≤ s.committed ∧
      (stretches ++ [Stretch.mk start log.length]).head?.map Stretch.start = some 0 ∧
      s'.crashes = s.crashes ∧ s'.inMemory = [] := by
  intro s s'
  obtain ⟨r, shown⟩ : ∃ r, Shown (handledOffsets pg jsoncpp msgs) log [] s r :=
    run_handled readable db before
  have last : s' = runFrom (step · jsoncpp log ·) s rounds.flatten := runFrom_append _ _ _
  obtain ⟨r', steps, shown'⟩ := shown.run readable
    (Always.of_all ((handledOffsets pg jsoncpp msgs).allows_all rfl fun _ _ _ => rfl) s
      rounds.flatten)
  rw [← last] at shown'
  obtain ⟨finished, crashes⟩ : s'.left log = 0 ∧ s'.crashes = s.crashes :=
    rounds_left readable handleable db before fair enough
  obtain ⟨next, memory⟩ := left_eq_zero shown' readable finished
  obtain ⟨closed, start⟩ : r'.closed = r.closed ∧ r'.start = r.start := by
    rcases LogReader.Steps.same_stretch steps with longer | same
    · rw [shown.crashes, shown'.crashes, crashes] at longer
      exact absurd longer (Nat.lt_irrefl _)
    · exact same
  have stretches : r'.stretches = r.closed ++ [Stretch.mk r.start log.length] := by
    rw [LogReader.stretches, closed, start, next]
  refine ⟨r.closed, r.start, ?_, shown.crashes, ?_, ?_, crashes, memory⟩
  · rw [← stretches]
    exact shown'.handled_offsets
  · rw [← shown.committed]
    exact shown.sound.resumed
  · rw [← stretches]
    exact shown'.sound.first

end Rounds

theorem settles_note :
    let s : ConsumerProcess noteServer :=
      run (JsonCpp.compact noteEvent) noteLog (fun _ => []) twiceWritten
    let s' := run (JsonCpp.compact noteEvent) noteLog (fun _ => [])
      (twiceWritten ++ (List.replicate 5 (threads noteServer)).flatten)
    ∃ (stretches : List Stretch) (start : Nat),
      s'.handled.map Prod.fst =
        (stretches ++ [Stretch.mk start noteLog.length]).flatMap Stretch.offsets ∧
      stretches.length = s.crashes ∧ start ≤ s.committed ∧
      (stretches ++ [Stretch.mk start noteLog.length]).head?.map Stretch.start = some 0 ∧
      s'.crashes = s.crashes ∧ s'.inMemory = [] := by
  refine settles note_readable ?_ _ twiceWritten ?_ (Nat.le_refl 5)
  · intro msg mem
    rw [List.mem_singleton.mp mem]
    exact ⟨_, rfl, by decide⟩
  · intro round mem
    rw [List.eq_of_mem_replicate mem]
    exact fair_threads

end ConsumerProcess

end KafkaReplication
