import KafkaReplication.Pipeline.Replica

/-!
# The source and its mirror

What the changes of a stream mean in the source database (`producer_azs/readme:143-210`), and when
the target's tables come to hold the same rows. UPDATEs have to be left out: they never reach the
target.
-/

namespace KafkaReplication
open Misc PgOutputParser PostgresqlReplicator DatabaseWriter

/-! ## The source -/

/-- The rows of each table, by its namespace and name. -/
abbrev SourceTables : Type := Bytes × Bytes → List Row

def RelationMessage.sourceTable (relation : RelationMessage) : Bytes × Bytes :=
  (relation.nspname, relation.relationName)

namespace RowTuple

variable {relation : RelationMessage} (tuple : RowTuple relation)

/-- The columns with their items. -/
def items : List (Column × TupleColumn) := relation.columns.zip tuple.data.columns

/-- The items by the names of their columns. -/
def namedItems : List (Bytes × TupleColumn) :=
  (relation.columns.map Column.name).zip tuple.data.columns

/-- A row that is given new values, where there are any. -/
def overwrite (row : Row) : Row := fun name =>
  (tuple.namedItems.lookup name).elim (row name) (·.overwrite (row name))

/-- A new row. -/
def row : Row := tuple.overwrite fun _ => none

/-- The row has the tuple's key. -/
def SameKey (row : Row) : Prop :=
  ∀ item ∈ tuple.items, item.1.isKey = true → row item.1.name = item.2.overwrite none

instance : DecidablePred tuple.SameKey := fun row =>
  inferInstanceAs (Decidable (∀ item ∈ tuple.items, item.1.isKey = true →
    row item.1.name = item.2.overwrite none))

end RowTuple

namespace SourceChange

/-- The rows of the table behind the change. -/
def rowsAfter (source : SourceChange) (rows : List Row) : List Row :=
  match source.change with
  | .insert new => rows ++ [new.row]
  | .update old new =>
      rows.map fun row => if (firstTuple old new).SameKey row then new.overwrite row else row
  | .delete _ old => rows.filter fun row => ¬ old.SameKey row

def applied (source : SourceChange) (tables : SourceTables) : SourceTables :=
  Function.update tables source.relation.sourceTable
    (source.rowsAfter (tables source.relation.sourceTable))

def isUpdate (source : SourceChange) : Bool :=
  match source.change with
  | .update _ _ => true
  | _ => false

/-- An inserted row has a text in every column, none with a NUL, and a deleted one is known by one
column, which has a text. -/
def Textual (source : SourceChange) : Prop :=
  match source.change with
  | .insert new => ∀ item ∈ new.data.columns, ∃ value, item = .text value ∧ 0 ∉ value.val
  | .update _ _ => True
  | .delete _ old => ∃ key value, source.relation.columns.filter Column.isKey = [key] ∧
      (key, TupleColumn.text value) ∈ old.items

end SourceChange

/-- The source after the changes. -/
def sourceAfter (sources : List SourceChange) (tables : SourceTables) : SourceTables :=
  sources.foldl (fun tables source => source.applied tables) tables

/-- The changes without the UPDATEs. -/
def withoutUpdates (sources : List SourceChange) : List SourceChange :=
  sources.filter fun source => !source.isUpdate

/-! ## Rows -/

theorem lookup_zip_map {α β : Type} (f : α → β) (names : List Bytes) (values : List α)
    (name : Bytes) :
    (names.zip (values.map f)).lookup name = ((names.zip values).lookup name).map f := by
  induction names generalizing values with
  | nil => rfl
  | cons first names ih =>
    cases values with
    | nil => rfl
    | cons value values =>
      rw [List.map_cons, List.zip_cons_cons, List.zip_cons_cons, List.lookup_cons,
        List.lookup_cons, ih]
      cases name == first <;> rfl

/-- Under distinct names the members of a row are its pairs in another order. -/
theorem lookup_members {pairs : List (Bytes × Bytes)} (distinct : (pairs.map Prod.fst).Nodup)
    (name : Bytes) : (textMembers pairs).lookup name = pairs.lookup name := by
  have texts := lookup_textMembers pairs name
  cases found : pairs.lookup name with
  | some value =>
    obtain ⟨front, back, same, -⟩ := List.lookup_eq_some_iff.mp found
    have mem : (name, value) ∈ pairs := by
      rw [same]
      simp
    rw [lookup_fillMembers distinct mem] at texts
    obtain ⟨text, there, isText⟩ := Option.map_eq_some_iff.mp texts.symm
    cases isText
    exact there
  | none =>
    have absent : name ∉ pairs.map Prod.fst := by
      intro mem
      obtain ⟨pair, there, rfl⟩ := List.mem_map.mp mem
      rw [List.lookup_eq_none_iff] at found
      exact bne_iff_ne.mp (found pair there) rfl
    rw [lookup_fillMembers_of_notMem absent] at texts
    exact Option.map_eq_none_iff.mp texts.symm

section Rows

variable {relation : RelationMessage} {tuple : RowTuple relation}

theorem pairs_lookup (tuple : RowTuple relation) (name : Bytes) :
    tuple.tuple.pairs.lookup name = (tuple.namedItems.lookup name).map TupleColumn.value :=
  lookup_zip_map TupleColumn.value _ _ name

/-- A row of texts is written as it is. -/
theorem written_eq_row (distinct : (relation.columns.map Column.name).Nodup)
    (texts : ∀ item ∈ tuple.data.columns, ∃ value, item = .text value ∧ 0 ∉ value.val) :
    tuple.tuple.written = tuple.row := by
  funext name
  have names : (tuple.tuple.pairs.map Prod.fst).Nodup := by
    rw [tuple.tuple.pairs_names]
    exact distinct
  have cut : ∀ members : List (Bytes × Bytes),
      (members.map fun member => (member.1, cStr member.2)).lookup name =
        (members.lookup name).map cStr := by
    intro members
    induction members with
    | nil => rfl
    | cons member members ih =>
      rw [List.map_cons, List.lookup_cons, List.lookup_cons, ih]
      cases name == member.1 <;> rfl
  rw [FullTuple.written, cut, lookup_members names, pairs_lookup, RowTuple.row, RowTuple.overwrite]
  cases found : tuple.namedItems.lookup name with
  | none => rfl
  | some item =>
    obtain ⟨front, back, same, -⟩ := List.lookup_eq_some_iff.mp found
    have mem : (name, item) ∈ tuple.namedItems := by
      rw [same]
      simp
    obtain ⟨value, rfl, nulFree⟩ := texts item (List.of_mem_zip mem).2
    show some (cStr value.val) = some value.val
    rw [cStr_of_notMem nulFree]

theorem sameKey_iff (tuple : RowTuple relation) {row : Row} :
    tuple.SameKey row ↔
      ∀ item ∈ tuple.items.filter (·.1.isKey), row item.1.name = item.2.overwrite none := by
  constructor
  · intro same item mem
    obtain ⟨inItems, isKey⟩ := List.mem_filter.mp mem
    exact same item inItems isKey
  · intro same item mem isKey
    exact same item (List.mem_filter.mpr ⟨mem, isKey⟩)

theorem keyEntries_eq (tuple : RowTuple relation) :
    tuple.tuple.keyEntries =
      (tuple.items.filter (·.1.isKey)).map fun item => (item.1, item.2.value) := by
  have entries : tuple.tuple.entries = tuple.items.map fun item => (item.1, item.2.value) := by
    show relation.columns.zip (tuple.data.columns.map TupleColumn.value) = _
    rw [List.zip_map_right]
    rfl
  rw [FullTuple.keyEntries, entries, List.filter_map]
  rfl

/-- A key of one column with a text is looked for as it is. -/
theorem matches_iff_sameKey {key : Column} {value : { bytes : Bytes // bytes.length < 2 ^ 32 }}
    (single : relation.columns.filter Column.isKey = [key])
    (keyed : (key, TupleColumn.text value) ∈ tuple.items) (row : Row) :
    tuple.tuple.Matches row ↔ tuple.SameKey row := by
  have columns : tuple.items.map Prod.fst = relation.columns :=
    List.map_fst_zip (Nat.le_of_eq tuple.full.symm)
  have isKey : key.isKey = true := by
    have mem : key ∈ relation.columns.filter Column.isKey := single ▸ List.mem_cons_self
    exact (List.mem_filter.mp mem).2
  have only : tuple.items.filter (·.1.isKey) = [(key, .text value)] := by
    have names : (tuple.items.filter (·.1.isKey)).map Prod.fst = [key] := by
      rw [← single, ← columns, List.filter_map]
      rfl
    have there : (key, TupleColumn.text value) ∈ tuple.items.filter (·.1.isKey) :=
      List.mem_filter.mpr ⟨keyed, isKey⟩
    obtain ⟨item, one⟩ : ∃ item, tuple.items.filter (·.1.isKey) = [item] := by
      rw [← List.length_eq_one_iff, ← List.length_map Prod.fst, names]
      rfl
    rw [one] at there ⊢
    rw [List.mem_singleton.mp there]
  rw [sameKey_iff, FullTuple.Matches, keyEntries_eq, only]
  simp [TupleColumn.value, TupleColumn.overwrite]

end Rows

/-! ## One change on both sides -/

/-- What the target has of each of the tables is what the source has. -/
def Mirrors (dialect : Dialect) (sources : List SourceChange) (tables : SourceTables)
    (replica : dialect.Tables) : Prop :=
  ∀ source ∈ sources, ∀ unquoted : dialect.unquoted source.relation.getRelationName,
    replica ⟨source.relation.getRelationName, unquoted⟩ = tables source.relation.sourceTable

/-- Tables that are apart in the source are apart in the target. -/
def TablesApart (dialect : Dialect) (sources : List SourceChange) : Prop :=
  ∀ source ∈ sources, ∀ other ∈ sources,
    dialect.denotes source.relation.getRelationName =
        dialect.denotes other.relation.getRelationName ↔
      source.relation.sourceTable = other.relation.sourceTable

section Mirrors

variable {dialect : Dialect} {sources : List SourceChange} {tables : SourceTables}
  {replica : dialect.Tables}

theorem replicated_update {source : SourceChange} (isUpdate : source.isUpdate = true)
    (replica : dialect.Tables) : source.replicated dialect replica = replica := by
  unfold SourceChange.isUpdate at isUpdate
  split at isUpdate
  · rename_i old new update
    rw [SourceChange.replicated, update]
  · cases isUpdate

/-- A change of a table, and the others stay as they are. -/
theorem mirrors_onTable (apart : TablesApart dialect sources)
    (mirrors : Mirrors dialect sources tables replica) {source : SourceChange}
    (mem : source ∈ sources) {change rowsAfter : List Row → List Row}
    (same : ∀ rows, change rows = rowsAfter rows) :
    Mirrors dialect sources
      (Function.update tables source.relation.sourceTable
        (rowsAfter (tables source.relation.sourceTable)))
      (dialect.onTable source.relation change replica) := by
  intro other there unquoted'
  have iff_ := apart other there source mem
  by_cases here : other.relation.sourceTable = source.relation.sourceTable
  · rw [Dialect.onTable, if_pos (iff_.mpr here), same, mirrors other there unquoted', here,
      Function.update_self]
  · rw [Dialect.onTable, if_neg (mt iff_.mp here), mirrors other there unquoted',
      Function.update_of_ne here]

theorem mirrors_applied (apart : TablesApart dialect sources)
    (mirrors : Mirrors dialect sources tables replica) {source : SourceChange}
    (mem : source ∈ sources) (replicable : dialect.Replicable source.relation)
    (textual : source.Textual) (notUpdate : source.isUpdate = false) :
    Mirrors dialect sources (source.applied tables) (source.replicated dialect replica) := by
  obtain ⟨relation, change, narrow⟩ := source
  cases change with
  | update old new => cases notUpdate
  | insert new =>
    have added (rows : List Row) : rows ++ [new.tuple.written] = rows ++ [new.row] := by
      rw [written_eq_row replicable.keyed.distinct textual]
    exact mirrors_onTable apart mirrors mem added
  | delete part old =>
    obtain ⟨key, value, single, keyed⟩ := textual
    have left (rows : List Row) :
        (rows.filter fun row => ¬ old.tuple.Matches row) =
          rows.filter fun row => ¬ old.SameKey row := by
      apply List.filter_congr
      intro row _
      exact decide_eq_decide.mpr (not_congr (matches_iff_sameKey single keyed row))
    exact mirrors_onTable apart mirrors mem left

/-- The target replays the changes as the source would have made them without the UPDATEs. -/
theorem mirrors_replay (apart : TablesApart dialect sources)
    (replicable : ∀ source ∈ sources, dialect.Replicable source.relation)
    (textual : ∀ source ∈ sources, source.Textual) {some_ : List SourceChange}
    (within : some_ ⊆ sources) (mirrors : Mirrors dialect sources tables replica) :
    Mirrors dialect sources (sourceAfter (withoutUpdates some_) tables)
      (replay dialect some_ replica) := by
  induction some_ generalizing tables replica with
  | nil => exact mirrors
  | cons source some_ ih =>
    have here := within List.mem_cons_self
    have later : some_ ⊆ sources := fun other mem => within (List.mem_cons_of_mem _ mem)
    cases isUpdate : source.isUpdate with
    | true =>
      have left_out : withoutUpdates (source :: some_) = withoutUpdates some_ := by
        simp [withoutUpdates, isUpdate]
      rw [left_out, replay, List.foldl_cons, replicated_update isUpdate]
      exact ih later mirrors
    | false =>
      have kept : withoutUpdates (source :: some_) = source :: withoutUpdates some_ := by
        simp [withoutUpdates, isUpdate]
      rw [kept, replay, List.foldl_cons, sourceAfter, List.foldl_cons]
      exact ih later (mirrors_applied apart mirrors here (replicable source here)
        (textual source here) isUpdate)

end Mirrors

/-! ## The mirror -/

section Mirror

variable {pg : Postgres} {jsoncpp : JsonCpp} {dialect : Dialect} {ready : Set pg.Database}
  {session : Session} {rounds : List StreamRound} {tables : SourceTables}

/-- What is asked of the changes so that the target can hold the source's rows. -/
structure Mirrorable (dialect : Dialect) (sources : List SourceChange) : Prop where
  apart : TablesApart dialect sources
  textual : ∀ source ∈ sources, source.Textual

theorem queued_handleable (streams : Streams jsoncpp session rounds)
    (replicates : dialect.Replicates pg ready (changes rounds)) {db : pg.Database}
    (isReady : db ∈ ready) : ∀ msg ∈ queuedMessages jsoncpp rounds, Handleable pg jsoncpp msg := by
  intro msg mem
  obtain ⟨offset, there⟩ := List.getElem?_of_mem mem
  have inNumbered := List.mem_of_getElem? (numbered_getElem? there)
  obtain ⟨result, db', handles, -⟩ :=
    replicated_queued streams.roundTrips replicates inNumbered isReady
  exact (handlerIncomingData_returned_iff pg jsoncpp msg db).mp ⟨result, db', handles⟩

/-- Without a crash the target is at one of the source's states with the UPDATEs left out. -/
theorem mirrors_shown (mirrorable : Mirrorable dialect (changes rounds))
    {roundTrips : EventsRoundTrip jsoncpp rounds}
    {replicates : dialect.Replicates pg ready (changes rounds)} {log : List Bytes}
    {db : pg.Database} (begins : Mirrors dialect (changes rounds) tables (dialect.tables pg db))
    {s : ConsumerProcess pg} {r : LogReader dialect.Tables}
    (shown : ConsumerProcess.Shown (replicaView roundTrips replicates) log (dialect.tables pg db)
      s r) (noCrash : s.crashes = 0) :
    Mirrors dialect (changes rounds)
      (sourceAfter (withoutUpdates ((changes rounds).take r.next)) tables)
      (dialect.tables pg s.db) := by
  have closed : r.closed = [] := List.length_eq_zero_iff.mp (shown.crashes.trans noCrash)
  rw [shown_replayed shown, shown.sound.stretches_eq closed, List.flatMap_singleton]
  exact mirrors_replay mirrorable.apart replicates.replicable mirrorable.textual
    (List.take_subset _ _) begins

/-- As long as the consumer runs the target holds the source as it was after some of its changes,
with the UPDATEs left out, and as soon as both threads have had enough turns it is all of them. -/
theorem replica_mirrors (streams : Streams jsoncpp session rounds)
    (replicates : dialect.Replicates pg ready (changes rounds))
    (mirrorable : Mirrorable dialect (changes rounds)) {db : pg.Database} (isReady : db ∈ ready)
    (begins : Mirrors dialect (changes rounds) tables (dialect.tables pg db))
    {actions : List (ConsumerAction pg)}
    (running : ∀ action ∈ actions, ConsumerProcess.Running action) :
    let log := keptLog jsoncpp session rounds
    (∃ n ≤ (changes rounds).length,
      Mirrors dialect (changes rounds)
        (sourceAfter (withoutUpdates ((changes rounds).take n)) tables)
        (dialect.tables pg (ConsumerProcess.run jsoncpp log db actions).db)) ∧
      ∀ turns : List (List (ConsumerAction pg)),
        (∀ turn ∈ turns,
          FairRound (ConsumerProcess.threads pg) ConsumerProcess.Running turn) →
        5 * (changes rounds).length ≤ turns.length →
        Mirrors dialect (changes rounds) (sourceAfter (withoutUpdates (changes rounds)) tables)
          (dialect.tables pg
            (ConsumerProcess.run jsoncpp log db (actions ++ turns.flatten)).db) := by
  intro log
  have readable : Readable jsoncpp log (queuedMessages jsoncpp rounds) := streams.readable
  have handleable := queued_handleable streams replicates isReady
  -- in front of the turns and behind them
  have reached {actions : List (ConsumerAction pg)}
      (running : ∀ action ∈ actions, ConsumerProcess.Running action) :
      ∃ r, ConsumerProcess.Shown (replicaView streams.roundTrips replicates) log
          (dialect.tables pg db) (ConsumerProcess.run jsoncpp log db actions) r ∧
        Mirrors dialect (changes rounds)
          (sourceAfter (withoutUpdates ((changes rounds).take r.next)) tables)
          (dialect.tables pg (ConsumerProcess.run jsoncpp log db actions).db) := by
    have allowed : Always (ConsumerProcess.step · jsoncpp log ·)
        (replicaView streams.roundTrips replicates).Allows (.start db) actions := by
      apply Always.of_mem
      intro action mem s
      apply allows_of_endsBetween
      cases action with
      | crash db => exact (running _ mem).elim
      | consume => trivial
      | callback => trivial
      | push => trivial
      | pop => trivial
      | write => trivial
      | commit => trivial
    obtain ⟨r, shown⟩ := ConsumerProcess.run_shown (replicaView streams.roundTrips replicates)
      readable isReady allowed
    exact ⟨r, shown, mirrors_shown mirrorable begins shown
      (ConsumerProcess.run_crashes readable handleable db running)⟩
  constructor
  · obtain ⟨r, shown, mirrors⟩ := reached running
    have within := shown.sound.read.trans shown.sound.within
    rw [numbered_length, ← readable.length_eq] at within
    exact ⟨r.next, within.trans (Nat.le_of_eq streams.count), mirrors⟩
  · intro turns fair enough
    have running' : ∀ action ∈ actions ++ turns.flatten, ConsumerProcess.Running action := by
      intro action mem
      rcases List.mem_append.mp mem with before | later
      · exact running action before
      · obtain ⟨turn, inTurns, inTurn⟩ := List.mem_flatten.mp later
        exact (fair turn inTurns).2 action inTurn
    obtain ⟨r, shown, mirrors⟩ := reached running'
    rw [← streams.count] at enough
    have finished := (ConsumerProcess.rounds_left readable handleable db actions fair enough).1
    obtain ⟨next, -⟩ := ConsumerProcess.left_eq_zero shown readable finished
    have all : r.next = (changes rounds).length := next.trans streams.count
    rwa [all, List.take_length] at mirrors

end Mirror

theorem userRounds_mirrorable : Mirrorable letterDialect (changes userRounds) := by
  have all : changes userRounds = [insertUser (digitText (chr '1')),
    insertUser (digitText (chr '2')), updateUser, deleteUser] := rfl
  have one : ∀ source ∈ changes userRounds, source.relation = publicUsers := by
    intro source mem
    rw [all] at mem
    simp only [List.mem_cons, List.not_mem_nil, or_false] at mem
    rcases mem with rfl | rfl | rfl | rfl <;> rfl
  have inserted (id : { bytes : Bytes // bytes.length < 2 ^ 32 }) (nulFree : 0 ∉ id.val) :
      (insertUser id).Textual := by
    intro item mem
    exact ⟨id, List.mem_singleton.mp mem, nulFree⟩
  constructor
  · intro source mem other there
    rw [one source mem, one other there]
    exact iff_of_true rfl rfl
  · intro source mem
    rw [all] at mem
    simp only [List.mem_cons, List.not_mem_nil, or_false] at mem
    rcases mem with rfl | rfl | rfl | rfl
    · exact inserted _ (by decide)
    · exact inserted _ (by decide)
    · trivial
    · exact ⟨_, _, rfl, List.mem_cons_self⟩

theorem replica_mirrors_users :
    let session : Session := ⟨startedReplicator, false, []⟩
    let jsoncpp := JsonCpp.compactOf userEvents
    let pg := letterDialect.targetServer 23
    let log := keptLog jsoncpp session userRounds
    let actions : List (ConsumerAction pg) := [.consume, .callback, .push, .commit]
    (∃ n ≤ (changes userRounds).length,
      Mirrors letterDialect (changes userRounds)
        (sourceAfter (withoutUpdates ((changes userRounds).take n)) fun _ => [])
        (letterDialect.tables pg
          (ConsumerProcess.run jsoncpp log (fun _ => []) actions).db)) ∧
      ∀ turns : List (List (ConsumerAction pg)),
        (∀ turn ∈ turns,
          FairRound (ConsumerProcess.threads pg) ConsumerProcess.Running turn) →
        5 * (changes userRounds).length ≤ turns.length →
        Mirrors letterDialect (changes userRounds)
          (sourceAfter (withoutUpdates (changes userRounds)) fun _ => [])
          (letterDialect.tables pg
            (ConsumerProcess.run jsoncpp log (fun _ => []) (actions ++ turns.flatten)).db) := by
  refine replica_mirrors userRounds_stream userRounds_replicates userRounds_mirrorable
    (Set.mem_univ fun _ => []) (fun source mem unquoted => rfl) ?_
  intro action mem
  simp only [List.mem_cons, List.not_mem_nil, or_false] at mem
  rcases mem with rfl | rfl | rfl | rfl <;> trivial

/-- The second user is left of the two that were inserted, and has kept its id. -/
example : (sourceAfter (withoutUpdates (changes userRounds)) (fun _ => [])
    publicUsers.sourceTable).map (· (str "id")) = [some (str "2")] := by
  decide +kernel

end KafkaReplication
