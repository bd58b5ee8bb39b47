import KafkaReplication.Consumer.Offsets
import KafkaReplication.Consumer.WriterFaults
import KafkaReplication.Misc.LogReader

/-!
# What a restart of the consumer repeats

The two threads of `consumer_bo/replication_consumer.h:67-131` and the queue between them are a
reader of the partition: what they hold are the messages behind the last one that was handled, in
their order. A restart goes on at the offset that librdkafka has committed, which has nothing to do
with what was handled, so the messages reach `handlerIncomingData` in stretches of the partition.
-/

namespace KafkaReplication
open Misc

/-- The messages with their offsets. -/
def numbered (msgs : List ConsumerMessage) : List (Nat × ConsumerMessage) :=
  (List.range msgs.length).zip msgs

theorem numbered_getElem? {msgs : List ConsumerMessage} {offset : Nat} {msg : ConsumerMessage}
    (there : msgs[offset]? = some msg) : (numbered msgs)[offset]? = some (offset, msg) := by
  obtain ⟨within, -⟩ := List.getElem?_eq_some_iff.mp there
  rw [numbered, List.getElem?_zip_eq_some]
  exact ⟨List.getElem?_range within, there⟩

theorem numbered_offsets (msgs : List ConsumerMessage) :
    (numbered msgs).map Prod.fst = List.range msgs.length := by
  rw [numbered, List.map_fst_zip (by rw [List.length_range])]

theorem numbered_length (msgs : List ConsumerMessage) : (numbered msgs).length = msgs.length := by
  rw [numbered, List.length_zip, List.length_range, Nat.min_self]

theorem msg_of_numbered {msgs : List ConsumerMessage} {entry : Nat × ConsumerMessage}
    (mem : entry ∈ numbered msgs) : msgs[entry.1]? = some entry.2 := by
  obtain ⟨offset, there⟩ := List.getElem?_of_mem mem
  rw [numbered, List.getElem?_zip_eq_some] at there
  obtain ⟨within, -⟩ := List.getElem?_eq_some_iff.mp there.1
  rw [List.length_range] at within
  rw [List.getElem?_range within] at there
  rw [← Option.some.inj there.1]
  exact there.2

/-- Every payload is one for which `saveIntoQueue` pushes a message. -/
def Readable (jsoncpp : JsonCpp) (log : List Bytes) (msgs : List ConsumerMessage) : Prop :=
  log.map (LibRdkafkaConsumer.startConsuming jsoncpp) = msgs.map fun msg => .ok (some msg)

namespace Readable

variable {jsoncpp : JsonCpp} {log : List Bytes} {msgs : List ConsumerMessage}

theorem length_eq (readable : Readable jsoncpp log msgs) : log.length = msgs.length := by
  have lengths := congrArg List.length readable
  rwa [List.length_map, List.length_map] at lengths

theorem message (readable : Readable jsoncpp log msgs) {offset : Nat} {payload : Bytes}
    (there : log[offset]? = some payload) :
    ∃ msg, msgs[offset]? = some msg ∧
      LibRdkafkaConsumer.startConsuming jsoncpp payload = .ok (some msg) := by
  have same := congrArg (·[offset]?) readable
  simp only [List.getElem?_map, there, Option.map_some] at same
  obtain ⟨msg, found, consumed⟩ := Option.map_eq_some_iff.mp same.symm
  exact ⟨msg, found, consumed.symm⟩

end Readable

namespace ConsumerProcess

variable {pg : Postgres}

/-- What the thread of `startConsumer` is about to queue. -/
def holding (jsoncpp : JsonCpp) : ConsumerThread → List (Nat × ConsumerMessage)
  | .idle => []
  | .returned offset payload =>
      match LibRdkafkaConsumer.startConsuming jsoncpp payload with
      | .ok (some msg) => [(offset, msg)]
      | _ => []
  | .pushing offset msg => [(offset, msg)]

/-- What has been read and not handled, the oldest first. -/
def inFlight (jsoncpp : JsonCpp) (s : ConsumerProcess pg) : List (Nat × ConsumerMessage) :=
  s.writer.toList ++ (s.queue.queueToSave ++ holding jsoncpp s.consumer)

/-- At most so many messages are read and not handled. -/
def window : Nat := queueSize + 2

theorem inFlight_idle {s : ConsumerProcess pg} (idle : s.consumer = .idle) (jsoncpp : JsonCpp) :
    (s.inFlight jsoncpp).length < window := by
  have queued := s.queue.size_le
  have writer : s.writer.toList.length ≤ 1 := by
    cases s.writer with
    | none => exact Nat.zero_le 1
    | some entry => exact Nat.le_refl 1
  rw [inFlight, idle, holding, List.append_nil, List.length_append, window]
  omega

/-! ## Views -/

/-- What is watched of a process: something about its database and what it has handled. A message
that is handled changes the view by `apply`, and one whose handling throws leaves it as it was. -/
structure View (pg : Postgres) (jsoncpp : JsonCpp) (msgs : List ConsumerMessage) (σ : Type) where
  ready : Set pg.Database
  view : pg.Database → List (Nat × Bool) → σ
  apply : σ → Nat × ConsumerMessage → σ
  written : ∀ entry ∈ numbered msgs, ∀ db ∈ ready, ∀ handled result db',
    DatabaseWriter.handlerIncomingData pg jsoncpp entry.2 db = .ok result db' →
      db' ∈ ready ∧ view db' (handled ++ [(entry.1, result)]) = apply (view db handled) entry
  failed : ∀ entry ∈ numbered msgs, ∀ db ∈ ready, ∀ handled fault db',
    DatabaseWriter.handlerIncomingData pg jsoncpp entry.2 db = .error fault db' →
      db' ∈ ready ∧ view db' handled = view db handled

section Views

variable {jsoncpp : JsonCpp} {msgs : List ConsumerMessage} {σ : Type}

/-- The process may end in front of the statements of the message that is being handled, or behind
them. -/
def View.Allows (view : View pg jsoncpp msgs σ) (s : ConsumerProcess pg) :
    ConsumerAction pg → Prop
  | .crash db => db ∈ view.ready ∧
      (view.view db s.handled = view.view s.db s.handled ∨
        ∃ entry, s.writer = some entry ∧
          view.view db s.handled = view.apply (view.view s.db s.handled) entry)
  | _ => True

/-- The process is a reader whose store is the view. -/
structure Shown (view : View pg jsoncpp msgs σ) (log : List Bytes) (initial : σ)
    (s : ConsumerProcess pg) (r : LogReader σ) : Prop where
  sound : r.Sound (numbered msgs) window view.apply initial
  position : r.position = s.position
  committed : r.committed = s.committed
  inFlight : Stretch.items (numbered msgs) ⟨r.next, r.position⟩ = s.inFlight jsoncpp
  returned : ∀ offset payload, s.consumer = .returned offset payload →
    log[offset]? = some payload
  ready : s.db ∈ view.ready
  store : r.store = view.view s.db s.handled
  crashes : r.closed.length = s.crashes

variable {view : View pg jsoncpp msgs σ} {log : List Bytes} {initial : σ}
  {s : ConsumerProcess pg} {r : LogReader σ}

/-- The reader can make a step to what the process has become. -/
def Matched (view : View pg jsoncpp msgs σ) (log : List Bytes) (initial : σ) (r : LogReader σ)
    (s' : ConsumerProcess pg) : Prop :=
  ∃ r', LogReader.Steps (numbered msgs) window view.apply r r' ∧ Shown view log initial s' r'

theorem Shown.stays (shown : Shown view log initial s r) : Matched view log initial r s :=
  ⟨r, .refl, shown⟩

/-- A step that hands a message on is none of the reader's. -/
theorem Shown.handsOn (shown : Shown view log initial s r) {s' : ConsumerProcess pg}
    (position : s'.position = s.position) (committed : s'.committed = s.committed)
    (inFlight : s'.inFlight jsoncpp = s.inFlight jsoncpp)
    (notReturned : ∀ offset payload, s'.consumer = .returned offset payload →
      s.consumer = .returned offset payload)
    (db : s'.db = s.db) (handled : s'.handled = s.handled) (crashes : s'.crashes = s.crashes) :
    Matched view log initial r s' := by
  refine ⟨r, .refl, shown.sound, ?_, ?_, ?_, ?_, ?_, ?_, ?_⟩
  · rw [position, shown.position]
  · rw [committed, shown.committed]
  · rw [inFlight, shown.inFlight]
  · intro offset payload returned
    exact shown.returned offset payload (notReturned offset payload returned)
  · rw [db]
    exact shown.ready
  · rw [db, handled, shown.store]
  · rw [crashes, shown.crashes]

theorem Shown.flight_length (shown : Shown view log initial s r) :
    r.position = r.next + (s.inFlight jsoncpp).length := by
  have read := shown.sound.read
  rw [← shown.inFlight, Stretch.items_length shown.sound.within]
  omega

theorem Shown.consume (shown : Shown view log initial s r) (readable : Readable jsoncpp log msgs) :
    Matched view log initial r (s.consume log) := by
  unfold ConsumerProcess.consume
  split
  next payload idle there =>
    obtain ⟨msg, found, consumed⟩ := readable.message there
    have item := numbered_getElem? found
    rw [← shown.position] at item
    obtain ⟨within, -⟩ := List.getElem?_eq_some_iff.mp item
    have room : r.position < r.next + window := by
      have short := inFlight_idle idle jsoncpp
      have flight := shown.flight_length
      omega
    have step : LogReader.Step (numbered msgs) window view.apply r _ := .reads within room
    refine ⟨_, .single step, step.sound shown.sound, ?_, shown.committed, ?_, ?_, shown.ready,
      shown.store, shown.crashes⟩
    · rw [shown.position]
    · have before := shown.inFlight
      rw [Stretch.items_succ item shown.sound.read, before]
      simp only [ConsumerProcess.inFlight, idle, holding, consumed, List.append_nil,
        List.append_assoc, shown.position]
    · intro offset payload' returned
      cases returned
      exact there
  next => exact shown.stays

theorem Shown.callback (shown : Shown view log initial s r)
    (readable : Readable jsoncpp log msgs) :
    Matched view log initial r (s.callback jsoncpp) := by
  unfold ConsumerProcess.callback
  split
  next offset payload returned =>
    obtain ⟨msg, -, consumed⟩ := readable.message (shown.returned offset payload returned)
    rw [consumed]
    refine shown.handsOn rfl rfl ?_ ?_ rfl rfl rfl
    · simp only [ConsumerProcess.inFlight, returned, holding, consumed]
    · intro offset' payload' returned'
      cases returned'
  next => exact shown.stays

theorem Shown.push (shown : Shown view log initial s r) : Matched view log initial r s.push := by
  unfold ConsumerProcess.push
  split
  next offset msg pushing =>
    split
    next queue pushed =>
      have queued := SafeQueue.push_eq_some pushed
      refine shown.handsOn rfl rfl ?_ ?_ rfl rfl rfl
      · simp only [ConsumerProcess.inFlight, pushing, holding, queued, List.append_nil]
      · intro offset' payload' returned'
        cases returned'
    next => exact shown.stays
  next => exact shown.stays

theorem Shown.pop (shown : Shown view log initial s r) : Matched view log initial r s.pop := by
  unfold ConsumerProcess.pop
  split
  next entry queue idle popped =>
    have queued := SafeQueue.pop_eq_some popped
    refine shown.handsOn rfl rfl ?_ (fun _ _ returned => returned) rfl rfl rfl
    simp only [ConsumerProcess.inFlight, idle, queued]
    rfl
  next => exact shown.stays

/-- A crash loses what is in flight. -/
theorem Shown.crash (shown : Shown view log initial s r) {db : pg.Database}
    (ready : db ∈ view.ready)
    (same : view.view db s.handled = view.view s.db s.handled) :
    Matched view log initial r (s.crash db) := by
  have step : LogReader.Step (numbered msgs) window view.apply r _ := .crashes
  refine ⟨_, .single step, step.sound shown.sound, shown.committed, shown.committed, ?_, ?_,
    ready, ?_, ?_⟩
  · exact Stretch.items_same _ _
  · intro offset payload returned
    cases returned
  · exact shown.store.trans same.symm
  · show (r.stretches).length = s.crashes + 1
    rw [LogReader.stretches, List.length_append, shown.crashes]
    rfl

/-- What the writer holds is the next item. -/
theorem Shown.writing (shown : Shown view log initial s r) {entry : Nat × ConsumerMessage}
    (writing : s.writer = some entry) :
    r.next < r.position ∧ (numbered msgs)[r.next]? = some entry ∧
      Stretch.items (numbered msgs) ⟨r.next + 1, r.position⟩ =
        s.queue.queueToSave ++ holding jsoncpp s.consumer := by
  have flight := shown.inFlight
  rw [ConsumerProcess.inFlight, writing] at flight
  exact Stretch.items_cons flight

theorem Shown.write (shown : Shown view log initial s r) :
    Matched view log initial r (s.write jsoncpp) := by
  unfold ConsumerProcess.write
  split
  next offset msg writing =>
    obtain ⟨before, item, behind⟩ := shown.writing writing
    have mem := List.mem_of_getElem? item
    split
    next result db' handles =>
      obtain ⟨ready, changed⟩ :=
        view.written _ mem s.db shown.ready s.handled result db' handles
      have step : LogReader.Step (numbered msgs) window view.apply r _ := .applies item before
      refine ⟨_, .single step, step.sound shown.sound, shown.position, shown.committed, ?_,
        shown.returned, ready, ?_, shown.crashes⟩
      · exact behind
      · show view.apply r.store (offset, msg) = _
        rw [shown.store, ← changed]
    next fault db' fails =>
      obtain ⟨ready, same⟩ := view.failed _ mem s.db shown.ready s.handled _ db' fails
      exact shown.crash ready same
  next => exact shown.stays

theorem Shown.commit (shown : Shown view log initial s r) :
    Matched view log initial r s.commit := by
  have step : LogReader.Step (numbered msgs) window view.apply r _ := .commits
  exact ⟨_, .single step, step.sound shown.sound, shown.position, shown.position, shown.inFlight,
    shown.returned, shown.ready, shown.store, shown.crashes⟩

/-- A crash behind the statements of a message: it is applied, and comes again all the same. -/
theorem Shown.crashApplied (shown : Shown view log initial s r) {db : pg.Database}
    (ready : db ∈ view.ready) {entry : Nat × ConsumerMessage} (writing : s.writer = some entry)
    (changed : view.view db s.handled = view.apply (view.view s.db s.handled) entry) :
    Matched view log initial r (s.crash db) := by
  obtain ⟨before, item, -⟩ := shown.writing writing
  have first : LogReader.Step (numbered msgs) window view.apply r _ := .applies item before
  have second : LogReader.Step (numbered msgs) window view.apply _ _ :=
    .crashes (r := { r with next := r.next + 1, store := view.apply r.store entry })
  refine ⟨_, .head first (.single second), second.sound (first.sound shown.sound),
    shown.committed, shown.committed, ?_, ?_, ready, ?_, ?_⟩
  · exact Stretch.items_same _ _
  · intro offset payload returned
    cases returned
  · show view.apply r.store entry = _
    rw [shown.store]
    exact changed.symm
  · show (r.closed ++ [_]).length = s.crashes + 1
    rw [List.length_append, shown.crashes]
    rfl

/-- Every step of the process is matched by the reader. -/
theorem Shown.step (shown : Shown view log initial s r) (readable : Readable jsoncpp log msgs)
    {action : ConsumerAction pg} (allowed : view.Allows s action) :
    Matched view log initial r (s.step jsoncpp log action) := by
  cases action with
  | consume => exact shown.consume readable
  | callback => exact shown.callback readable
  | push => exact shown.push
  | pop => exact shown.pop
  | write => exact shown.write
  | commit => exact shown.commit
  | crash db =>
    obtain ⟨ready, same | ⟨entry, writing, changed⟩⟩ := allowed
    · exact shown.crash ready same
    · exact shown.crashApplied ready writing changed

/-- Every run is matched by the reader. -/
theorem Shown.run (shown : Shown view log initial s r) (readable : Readable jsoncpp log msgs)
    {actions : List (ConsumerAction pg)}
    (allowed : Always (ConsumerProcess.step · jsoncpp log ·) view.Allows s actions) :
    Matched view log initial r (runFrom (ConsumerProcess.step · jsoncpp log ·) s actions) :=
  Always.simulates (fun _ _ _ shown allowed => shown.step readable allowed) shown allowed

/-- In every run the view is that of a reader, which begins with what is there at the start. -/
theorem run_shown (view : View pg jsoncpp msgs σ) (readable : Readable jsoncpp log msgs)
    {db : pg.Database} (ready : db ∈ view.ready) {actions : List (ConsumerAction pg)}
    (allowed : Always (step · jsoncpp log ·) view.Allows (start db) actions) :
    ∃ r, Shown view log (view.view db []) (run jsoncpp log db actions) r := by
  have begins :
      Shown view log (view.view db []) (start db) (LogReader.begin (view.view db [])) := by
    refine ⟨LogReader.begin_sound _ _ _ _, rfl, rfl, rfl, ?_, ready, rfl, rfl⟩
    intro offset payload returned
    cases returned
  obtain ⟨r, -, shown⟩ := begins.run readable allowed
  exact ⟨r, shown⟩

end Views

/-! ## What is handled -/

section Handled

variable (pg) (jsoncpp : JsonCpp) (msgs : List ConsumerMessage)

/-- The offsets of the messages that were handled. -/
def handledOffsets : View pg jsoncpp msgs (List Nat) where
  ready := Set.univ
  view _ handled := handled.map Prod.fst
  apply offsets entry := offsets ++ [entry.1]
  written _ _ _ _ _ _ _ _ := ⟨trivial, List.map_append⟩
  failed _ _ _ _ _ _ _ _ := ⟨trivial, rfl⟩

variable {pg jsoncpp msgs} {log : List Bytes}

/-- A view that does not look at the database allows every crash. -/
theorem View.allows_all {σ : Type} (view : View pg jsoncpp msgs σ) (all : view.ready = Set.univ)
    (blind : ∀ db db' handled, view.view db handled = view.view db' handled)
    (s : ConsumerProcess pg) (action : ConsumerAction pg) : view.Allows s action := by
  cases action with
  | crash db =>
    refine ⟨?_, .inl (blind db s.db s.handled)⟩
    rw [all]
    exact Set.mem_univ db
  | consume => trivial
  | callback => trivial
  | push => trivial
  | pop => trivial
  | write => trivial
  | commit => trivial

theorem foldl_offsets (entries : List (Nat × ConsumerMessage)) (offsets : List Nat) :
    entries.foldl (handledOffsets pg jsoncpp msgs).apply offsets =
      offsets ++ entries.map Prod.fst := by
  induction entries generalizing offsets with
  | nil => exact (List.append_nil offsets).symm
  | cons entry entries ih =>
    rw [List.foldl_cons, ih]
    exact List.append_assoc _ _ _

/-- What a reader has applied is what was handled. -/
theorem Shown.handled_offsets {s : ConsumerProcess pg} {r : LogReader (List Nat)}
    (shown : Shown (handledOffsets pg jsoncpp msgs) log [] s r) :
    s.handled.map Prod.fst = r.stretches.flatMap Stretch.offsets := by
  have replayed := shown.sound.replayed
  rw [shown.store, foldl_offsets, List.map_flatMap] at replayed
  refine replayed.trans ?_
  show r.stretches.flatMap (fun stretch => (stretch.items (numbered msgs)).map Prod.fst) = _
  apply List.flatMap_congr
  intro stretch mem
  have within := (shown.sound.bounded stretch mem).2
  rw [numbered_length] at within
  rw [Stretch.map_items, numbered_offsets, Stretch.items_range within]

/-- The reader of the handled offsets. -/
theorem run_handled (readable : Readable jsoncpp log msgs) (db : pg.Database)
    (actions : List (ConsumerAction pg)) :
    ∃ r, Shown (handledOffsets pg jsoncpp msgs) log [] (run jsoncpp log db actions) r :=
  run_shown (handledOffsets pg jsoncpp msgs) readable (Set.mem_univ db)
    (Always.of_all ((handledOffsets pg jsoncpp msgs).allows_all rfl fun _ _ _ => rfl) (start db)
      actions)

end Handled

/-- What `saveIntoQueue` makes of the note. -/
def noteMessage : ConsumerMessage where
  primaryKey := str "text"
  op := str "INSERT"
  table := str "notes"
  data := .object [(str "text", .string (str "milk"))]

theorem note_readable : Readable (JsonCpp.compact noteEvent) noteLog [noteMessage] := rfl

/-- The note is written, the process ends in front of the commit, and the note is written again. -/
def twiceWritten : List (ConsumerAction noteServer) :=
  [.consume, .callback, .push, .pop, .write, .crash fun _ => [],
    .consume, .callback, .push, .pop, .write]

example : (run (JsonCpp.compact noteEvent) noteLog (fun _ => []) twiceWritten).handled.map
    Prod.fst = [0, 0] := rfl

section Poison

variable {jsoncpp : JsonCpp} {msgs : List ConsumerMessage} {log : List Bytes}

/-- A message that `handlerIncomingData` does not get through with, for its shape or its long texts,
ends the process each time. Nothing behind it is handled unless it has been committed, so that no
restart reads it again. -/
theorem poison_committed (readable : Readable jsoncpp log msgs) {offset : Nat}
    {poison : ConsumerMessage} (there : msgs[offset]? = some poison)
    (shape : ¬ DatabaseWriter.Handleable pg jsoncpp poison)
    (db : pg.Database) (actions : List (ConsumerAction pg)) :
    let s := run jsoncpp log db actions
    (∀ entry ∈ s.handled, entry.1 ≠ offset) ∧
      ∀ entry ∈ s.handled, offset < entry.1 → offset < s.committed := by
  intro s
  let watched : View pg jsoncpp msgs Prop :=
    { ready := Set.univ
      view := fun _ handled => ∀ entry ∈ handled, entry.1 ≠ offset
      apply := fun never _ => never
      written := by
        intro entry mem db _ handled result db' handles
        refine ⟨trivial, ?_⟩
        have other : entry.1 ≠ offset := by
          rintro rfl
          rw [msg_of_numbered mem] at there
          rw [Option.some.inj there] at handles
          apply shape
          exact (DatabaseWriter.handlerIncomingData_returned_iff pg jsoncpp poison db).mp
            ⟨result, db', handles⟩
        simp only [List.mem_append, List.mem_singleton, or_imp, forall_and, forall_eq, other,
          ne_eq, not_false_eq_true, and_true]
      failed := fun _ _ _ _ _ _ _ _ => ⟨trivial, rfl⟩ }
  obtain ⟨r, shown⟩ := run_shown watched readable (Set.mem_univ db)
    (Always.of_all (watched.allows_all rfl fun _ _ _ => rfl) (start db) actions)
  have constant (entries : List (Nat × ConsumerMessage)) (never : Prop) :
      entries.foldl watched.apply never = never := by
    induction entries with
    | nil => rfl
    | cons entry entries ih => exact ih
  have never : ∀ entry ∈ s.handled, entry.1 ≠ offset := by
    have replayed := shown.sound.replayed
    rw [shown.store, constant] at replayed
    have none_ : ∀ entry ∈ ([] : List (Nat × Bool)), entry.1 ≠ offset := by
      intro entry mem
      cases mem
    exact replayed.mpr none_
  refine ⟨never, ?_⟩
  intro entry mem behind
  obtain ⟨r', shown'⟩ := run_handled readable db actions
  have offsets := shown'.handled_offsets
  have applied : entry.1 ∈ r'.stretches.flatMap Stretch.offsets :=
    offsets ▸ List.mem_map_of_mem mem
  have absent : offset ∉ r'.stretches.flatMap Stretch.offsets := by
    rw [← offsets, List.mem_map]
    rintro ⟨other, mem', same⟩
    exact never other mem' same
  rw [← shown'.committed]
  exact shown'.sound.passed_committed absent applied behind

end Poison

/-- An event whose old row is a list. -/
def listEvent : Json := .object
  [(str "before", .array []), (str "op", .string (str "DELETE")),
    (str "table", .string (str "notes"))]

def listMessage : ConsumerMessage where
  op := str "DELETE"
  table := str "notes"
  before := .array []

theorem poison_committed_list :
    let s : ConsumerProcess noteServer :=
      run (JsonCpp.compactOf [listEvent, noteEvent])
        [listEvent.compactText, noteEvent.compactText] (fun _ => [])
        [.consume, .commit, .crash fun _ => [], .consume, .callback, .push, .pop, .write]
    (∀ entry ∈ s.handled, entry.1 ≠ 0) ∧ ∀ entry ∈ s.handled, 0 < entry.1 → 0 < s.committed := by
  have readable : Readable (JsonCpp.compactOf [listEvent, noteEvent])
      [listEvent.compactText, noteEvent.compactText] [listMessage, noteMessage] := rfl
  have there : [listMessage, noteMessage][0]? = some listMessage := rfl
  have shape : ¬ DatabaseWriter.Handleable noteServer (JsonCpp.compactOf [listEvent, noteEvent])
      listMessage := by
    rintro ⟨column, compared, -⟩
    cases compared
  exact poison_committed readable there shape _ _

end ConsumerProcess

end KafkaReplication
