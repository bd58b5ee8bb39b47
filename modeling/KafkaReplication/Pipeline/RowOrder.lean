import KafkaReplication.Misc.KeyedOrder
import KafkaReplication.Pipeline.UpdateKey
import KafkaReplication.Producer.SentEvents

/-!
# The order in which the changes of a row arrive

Each handler computes the Kafka key of its event by itself
(`producer_azs/postgresql_replicator.cpp:412-594`): from the new row for an Insert and an
Update, from the old one for a Delete, and none at all for a Truncate. Kafka keeps the order of
events with equal keys only.
-/

namespace KafkaReplication
open Misc PgOutputParser

/-! ## Changes of a table -/

/-- The changes of the relation's table. -/
inductive RowChange (relation : RelationMessage) where
  | insert (row : FullTuple relation)
  | update (upd : RowUpdate relation)
  | delete (row : FullTuple relation)
  | truncate (trunc : TruncateMessage) (covers : relation.relationId ∈ trunc.relationIds)

namespace RowChange

variable {relation : RelationMessage}

def message : RowChange relation → ReplicationMessage
  | insert row => .insert ⟨relation.relationId, chr 'N', row.values⟩
  | update upd => .update upd.message
  | delete row => .delete ⟨relation.relationId, row.values⟩
  | truncate trunc _ => .truncate trunc

/-- The key of the row in front of the change. An inserted row counts under the key it gets. -/
def keyBefore : RowChange relation → Option Bytes
  | insert row => some row.keyValue
  | update upd => some upd.rowBefore.keyValue
  | delete row => some row.keyValue
  | truncate _ _ => none

/-- The key of the row behind the change. A deleted row counts under the key it had. -/
def keyAfter : RowChange relation → Option Bytes
  | insert row => some row.keyValue
  | update upd => some upd.new.keyValue
  | delete row => some row.keyValue
  | truncate _ _ => none

/-- One of the two empties the table, or the row behind the earlier is the row in front of the
later. -/
def Touches (earlier later : RowChange relation) : Prop :=
  earlier.keyAfter = none ∨ later.keyBefore = none ∨ earlier.keyAfter = later.keyBefore

/-- The Kafka key of the change's event. -/
def kafkaKey (jsoncpp : JsonCpp) (change : RowChange relation) : Option Bytes :=
  change.keyAfter.map fun value => jsoncpp.writeString (.string value)

end RowChange

/-! ## What the producer sends for them -/

namespace PostgresqlReplicator

/-- The handlers for one message after the other. -/
def handleAll (jsoncpp : JsonCpp) : List (Surroundings × ReplicationMessage) → ReplicatorM Unit
  | [] => pure ()
  | (env, msg) :: rest => do
      handleMessage jsoncpp env (some msg)
      handleAll jsoncpp rest

/-- The relation is cached and the Kafka producer is initialised. -/
structure Ready (relation : RelationMessage) (replicator : PostgresqlReplicator) : Prop where
  cached : replicator.relationCache relation.relationId = some relation
  connected : ∃ producer, replicator.kafkaProducer = some producer ∧ producer.producer.isSome

variable {jsoncpp : JsonCpp} {env : Surroundings} {relation : RelationMessage}
  {self : PostgresqlReplicator}

/-- `self'` has sent one event with the key, if Kafka took it. -/
def SendsUnder (jsoncpp : JsonCpp) (env : Surroundings) (relation : RelationMessage)
    (self : PostgresqlReplicator) (msg : ReplicationMessage) (key : Option Bytes) : Prop :=
  ∃ self' payload, handleMessage jsoncpp env (some msg) self = .ok () self' ∧
    Ready relation self' ∧
    self'.accepted = self.accepted ++ if env.kafka.produceErr then [] else [(key, payload)]

theorem Ready.sends (ready : Ready relation self) {msg : ReplicationMessage} (event : Json)
    {key : Bytes}
    (sent : ∀ producer, self.kafkaProducer = some producer →
      handleMessage jsoncpp env (some msg) self = .ok () { self with
        kafkaProducer := some (producer.sendJson jsoncpp env.kafka event key).2 }) :
    SendsUnder jsoncpp env relation self msg (if key = [] then none else some key) := by
  obtain ⟨producer, there, initialised⟩ := ready.connected
  refine ⟨_, jsoncpp.writeString event, sent producer there, ⟨ready.cached, _, rfl, ?_⟩, ?_⟩
  · rw [LibrdKafkaProducer.sendJson, LibrdKafkaProducer.sendMessage_isSome]
    exact initialised
  · rw [accepted_sendJson jsoncpp env.kafka event key there, LibrdKafkaProducer.accepts,
      initialised]
    cases env.kafka.produceErr <;> rfl

theorem Ready.sendsRow (ready : Ready relation self) {msg : ReplicationMessage}
    {event : RelationMessage → Except Fault (Json × Bytes)}
    (handled : handleMessage jsoncpp env (some msg) =
      handleRow jsoncpp env relation.relationId event)
    {message : Json} {key : Bytes} (built : event relation = .ok (message, key)) :
    SendsUnder jsoncpp env relation self msg (if key = [] then none else some key) := by
  apply ready.sends message
  intro producer there
  have cached : getCachedRelation self.relationCache relation.relationId = some relation :=
    ready.cached
  simp only [handled, handleRow, cached, there, built]

variable (key : SingleKey relation)

include key

theorem rowEvent_key (op field : Bytes) (now : UInt64) (row : FullTuple relation) :
    ∃ event, rowEvent op field jsoncpp relation now row.values =
      .ok (event, jsoncpp.writeString (.string row.keyValue)) := by
  obtain ⟨primary, text, extracted, built⟩ :=
    rowEvent_ok op field jsoncpp relation now (Nat.le_of_eq row.full)
  have same := extracted.symm.trans (key.extractKey_eq jsoncpp row)
  cases same
  exact ⟨_, built⟩

theorem updateEvent_key (now : UInt64) (upd : RowUpdate relation) :
    ∃ event, updateEvent jsoncpp relation now upd.message =
      .ok (event, jsoncpp.writeString (.string upd.new.keyValue)) := by
  obtain ⟨primary, text, extracted, built⟩ :=
    updateEvent_ok jsoncpp relation now upd.oldTuple_le (Nat.le_of_eq upd.new.full)
  have same := extracted.symm.trans (key.extractKey_eq jsoncpp upd.new)
  cases same
  exact ⟨_, built⟩

/-- Every change of the table is sent under its key. -/
theorem Ready.sendsChange (ready : Ready relation self) (change : RowChange relation)
    (named : ∀ value, change.keyAfter = some value →
      jsoncpp.writeString (.string value) ≠ []) :
    SendsUnder jsoncpp env relation self change.message (change.kafkaKey jsoncpp) := by
  cases change with
  | insert row =>
    obtain ⟨event, built⟩ := rowEvent_key key (str "INSERT") (str "data") env.now row
    have handled : handleMessage jsoncpp env (some (RowChange.insert row).message) =
        handleRow jsoncpp env relation.relationId
          (insertEvent jsoncpp · env.now ⟨relation.relationId, chr 'N', row.values⟩) := rfl
    have sends := ready.sendsRow handled built
    rwa [if_neg (named _ rfl)] at sends
  | update upd =>
    obtain ⟨event, built⟩ := updateEvent_key key env.now upd
    have handled : handleMessage jsoncpp env (some (RowChange.update upd).message) =
        handleRow jsoncpp env relation.relationId
          (updateEvent jsoncpp · env.now upd.message) := rfl
    have sends := ready.sendsRow handled built
    rwa [if_neg (named _ rfl)] at sends
  | delete row =>
    obtain ⟨event, built⟩ := rowEvent_key key (str "DELETE") (str "before") env.now row
    have handled : handleMessage jsoncpp env (some (RowChange.delete row).message) =
        handleRow jsoncpp env relation.relationId
          (deleteEvent jsoncpp · env.now ⟨relation.relationId, row.values⟩) := rfl
    have sends := ready.sendsRow handled built
    rwa [if_neg (named _ rfl)] at sends
  | truncate trunc covers =>
    obtain ⟨members, built, -⟩ := truncateEvent_ok self.relationCache env.now trunc
    have sends : SendsUnder jsoncpp env relation self (RowChange.truncate trunc covers).message
        (if ([] : Bytes) = [] then none else some []) := by
      apply ready.sends (.object members)
      intro producer there
      simp only [RowChange.message, handleMessage, handleTruncate, there, built]
    exact sends

/-- The changes that Kafka took, and the keys they were sent under. -/
theorem Ready.handleAll (ready : Ready relation self)
    (changes : List (Surroundings × RowChange relation))
    (named : ∀ change ∈ changes, ∀ value, change.2.keyAfter = some value →
      jsoncpp.writeString (.string value) ≠ []) :
    ∃ self' sent, PostgresqlReplicator.handleAll jsoncpp
        (changes.map fun change => (change.1, change.2.message)) self = .ok () self' ∧
      self'.accepted = self.accepted ++ sent ∧
      sent.map Prod.fst =
        (changes.filter fun change => !change.1.kafka.produceErr).map
          (·.2.kafkaKey jsoncpp) := by
  induction changes generalizing self with
  | nil => exact ⟨self, [], rfl, (List.append_nil _).symm, rfl⟩
  | cons change changes ih =>
    obtain ⟨next, payload, handled, ready', accepted⟩ : SendsUnder jsoncpp change.1 relation self
        change.2.message (change.2.kafkaKey jsoncpp) :=
      ready.sendsChange key change.2 (named change List.mem_cons_self)
    obtain ⟨self', sent, run, accepted', keys⟩ :=
      ih ready' fun other member => named other (List.mem_cons_of_mem change member)
    rw [List.map_cons, PostgresqlReplicator.handleAll, bind_ok handled]
    rw [accepted, List.append_assoc] at accepted'
    refine ⟨self', _, run, accepted', ?_⟩
    cases refused : change.1.kafka.produceErr <;> simp [refused, keys]

end PostgresqlReplicator

/-! ## Which changes of a row stay in order -/

namespace RowChange

variable {relation : RelationMessage}

/-- The change gives the row another key. -/
def MovesRow : RowChange relation → Prop
  | update upd => upd.rowBefore.keyValue ≠ upd.new.keyValue
  | _ => False

def IsTruncate : RowChange relation → Prop
  | truncate _ _ => True
  | _ => False

/-- The changes that Kafka takes from the producer. -/
def events (changes : List (Surroundings × RowChange relation)) : List (RowChange relation) :=
  (changes.filter fun change => !change.1.kafka.produceErr).map Prod.snd

/-- jsoncpp reads back the key values it has written, and reads nothing in an empty text. -/
structure KeyTexts (jsoncpp : JsonCpp) (changes : List (Surroundings × RowChange relation)) :
    Prop where
  roundTrips : ∀ change ∈ changes, ∀ value, change.2.keyAfter = some value →
    jsoncpp.RoundTrips (.string value)
  empty : jsoncpp.parseFromStream [] = .ok none

theorem KeyTexts.named {jsoncpp : JsonCpp} {changes : List (Surroundings × RowChange relation)}
    (texts : KeyTexts jsoncpp changes) :
    ∀ change ∈ changes, ∀ value, change.2.keyAfter = some value →
      jsoncpp.writeString (.string value) ≠ [] := by
  intro change member value after nothing
  have trips := texts.roundTrips change member value after
  rw [JsonCpp.RoundTrips, nothing, texts.empty] at trips
  cases trips

variable {jsoncpp : JsonCpp} {earlier later : RowChange relation}

/-- Different key values are written differently. -/
theorem kafkaKey_same
    (earlierTrips : ∀ value, earlier.keyAfter = some value → jsoncpp.RoundTrips (.string value))
    (laterTrips : ∀ value, later.keyAfter = some value → jsoncpp.RoundTrips (.string value)) :
    (∃ key, earlier.kafkaKey jsoncpp = some key ∧ later.kafkaKey jsoncpp = some key) ↔
      ∃ value, earlier.keyAfter = some value ∧ later.keyAfter = some value := by
  constructor
  · rintro ⟨key, first, second⟩
    obtain ⟨value, after, rfl⟩ := Option.map_eq_some_iff.mp first
    obtain ⟨value', after', same⟩ := Option.map_eq_some_iff.mp second
    have trips := earlierTrips value after
    have trips' := laterTrips value' after'
    rw [JsonCpp.RoundTrips, same, trips] at trips'
    cases trips'
    exact ⟨value, after, after'⟩
  · rintro ⟨value, after, after'⟩
    refine ⟨jsoncpp.writeString (.string value), ?_, ?_⟩
    · rw [kafkaKey, after]
      rfl
    · rw [kafkaKey, after']
      rfl

/-- Of two changes that touch one row, the later leaves its key alone or both keys differ. -/
theorem Touches.keyAfter_iff (touches : earlier.Touches later) :
    (∃ value, earlier.keyAfter = some value ∧ later.keyAfter = some value) ↔
      ¬ earlier.IsTruncate ∧ ¬ later.IsTruncate ∧ ¬ later.MovesRow := by
  unfold Touches at touches
  cases earlier with
  | truncate trunc covers => simp [IsTruncate, keyAfter]
  | insert row | delete row | update upd =>
    cases later with
    | truncate trunc covers => simp [IsTruncate, keyAfter]
    | insert row' | delete row' =>
      simp only [keyAfter, keyBefore, reduceCtorEq, false_or] at touches
      simp [IsTruncate, MovesRow, keyAfter, touches]
    | update upd' =>
      simp only [keyAfter, keyBefore, reduceCtorEq, false_or] at touches
      simp only [IsTruncate, MovesRow, keyAfter, touches]
      simp [eq_comm]

end RowChange

open RowChange

theorem sameKey_map {κ α : Type} {key : α → Option κ} {events : List α} {i j : Nat}
    {earlier later : α} (first : events[i]? = some earlier) (second : events[j]? = some later) :
    SameKey (events.map key) i j ↔
      ∃ k, key earlier = some k ∧ key later = some k := by
  unfold SameKey
  simp only [List.getElem?_map, first, second, Option.map_some, Option.some.injEq]

/-- The events of two changes that touch one row carry the same key, and arrive in the order of
the log whatever the partitions do, exactly when neither is a Truncate and the later does not
give the row another key. -/
theorem rowOrder {relation : RelationMessage} (jsoncpp : JsonCpp) (key : SingleKey relation)
    (changes : List (Surroundings × RowChange relation)) (texts : KeyTexts jsoncpp changes)
    (self : PostgresqlReplicator) (ready : self.Ready relation) :
    ∃ self' sent, PostgresqlReplicator.handleAll jsoncpp
        (changes.map fun change => (change.1, change.2.message)) self = .ok () self' ∧
      self'.accepted = self.accepted ++ sent ∧ sent.length = (events changes).length ∧
      ∀ i j earlier later, i < j → (events changes)[i]? = some earlier →
        (events changes)[j]? = some later → earlier.Touches later →
          (SameKey (sent.map Prod.fst) i j ↔
            ¬ earlier.IsTruncate ∧ ¬ later.IsTruncate ∧ ¬ later.MovesRow) ∧
          ((∀ consumption : Consumption (sent.map Prod.fst),
              consumption.rank i < consumption.rank j) ↔
            ¬ earlier.IsTruncate ∧ ¬ later.IsTruncate ∧ ¬ later.MovesRow) := by
  obtain ⟨self', sent, run, accepted, keys⟩ := ready.handleAll key changes texts.named
  have keys_eq : sent.map Prod.fst = (events changes).map (kafkaKey jsoncpp) := by
    rw [keys, events, List.map_map]
    rfl
  have size : sent.length = (events changes).length := by
    have := congrArg List.length keys_eq
    simpa using this
  refine ⟨self', sent, run, accepted, size, ?_⟩
  intro i j earlier later before first second touches
  have trips : ∀ change ∈ events changes, ∀ value, change.keyAfter = some value →
      jsoncpp.RoundTrips (.string value) := by
    intro change member value after
    obtain ⟨pair, filtered, rfl⟩ := List.mem_map.mp member
    exact texts.roundTrips pair (List.mem_of_mem_filter filtered) value after
  have same : SameKey (sent.map Prod.fst) i j ↔
      ¬ earlier.IsTruncate ∧ ¬ later.IsTruncate ∧ ¬ later.MovesRow := by
    rw [keys_eq, sameKey_map first second,
      kafkaKey_same (trips earlier (List.mem_of_getElem? first))
        (trips later (List.mem_of_getElem? second)),
      touches.keyAfter_iff]
  have inside : j < (sent.map Prod.fst).length := by
    rw [List.length_map, size]
    exact (List.getElem?_eq_some_iff.mp second).1
  exact ⟨same, (kept_iff (sent.map Prod.fst) before inside).trans same⟩

/-! ## An account that gets another number -/

/-- jsoncpp on the two account numbers. -/
def accountJson : JsonCpp where
  writeString := Json.compactText
  parseFromStream text := .ok ([.string (str "1"), .string (str "2")].find? (·.compactText = text))
  toStyledString := Json.compactText

/-- A producer that has seen the relation. -/
def accountReplicator : PostgresqlReplicator where
  relationCache := fun relationId => if relationId = 7 then some accountRelation else none
  kafkaProducer := some { producer := some .fresh }

def accountTuple (id owner : Bytes) : FullTuple accountRelation := ⟨[id, owner], rfl⟩

/-- `INSERT INTO accounts VALUES (1, 'ann')`. -/
def openAccount : RowChange accountRelation := .insert (accountTuple (str "1") (str "ann"))

/-- `UPDATE accounts SET owner = 'bob' WHERE id = 1`. -/
def handAccountOver : RowChange accountRelation :=
  .update ⟨none, accountTuple (str "1") (str "bob")⟩

/-- `UPDATE accounts SET id = 2 WHERE id = 1`. -/
def renumberAccount : RowChange accountRelation :=
  .update ⟨some (accountTuple (str "1") (str "ann")), accountTuple (str "2") (str "ann")⟩

theorem accountReplicator_ready : accountReplicator.Ready accountRelation :=
  ⟨rfl, _, rfl, rfl⟩

theorem rowOrder_handedOver :
    ∃ self' sent, PostgresqlReplicator.handleAll accountJson
        [({}, openAccount.message), ({}, handAccountOver.message)] accountReplicator =
          .ok () self' ∧
      self'.accepted = sent ∧
      ∀ consumption : Consumption (sent.map Prod.fst),
        consumption.rank 0 < consumption.rank 1 := by
  have texts : KeyTexts accountJson [({}, openAccount), ({}, handAccountOver)] := by
    refine ⟨?_, rfl⟩
    intro change member value after
    rcases List.mem_cons.mp member with rfl | member
    · cases after
      rfl
    · cases List.mem_singleton.mp member
      cases after
      rfl
  obtain ⟨self', sent, run, accepted, -, ordered⟩ := rowOrder accountJson accountKey
    [({}, openAccount), ({}, handAccountOver)] texts accountReplicator accountReplicator_ready
  have inOrder := (ordered 0 1 openAccount handAccountOver Nat.one_pos rfl rfl
    (.inr (.inr rfl))).2
  have touched : ¬ openAccount.IsTruncate ∧ ¬ handAccountOver.IsTruncate ∧
      ¬ handAccountOver.MovesRow := ⟨fun no => no, fun no => no, fun moved => moved rfl⟩
  exact ⟨self', sent, run, accepted, inOrder.mpr touched⟩

/-- Any two events that touch the same row carry the same key, and arrive in the order of the
log. -/
def SharesKeys {relation : RelationMessage} (jsoncpp : JsonCpp)
    (changes : List (Surroundings × RowChange relation)) (self : PostgresqlReplicator) : Prop :=
  ∀ self' sent, PostgresqlReplicator.handleAll jsoncpp
      (changes.map fun change => (change.1, change.2.message)) self = .ok () self' →
    self'.accepted = self.accepted ++ sent →
    ∀ i j earlier later, i < j → (events changes)[i]? = some earlier →
      (events changes)[j]? = some later → earlier.Touches later →
        SameKey (sent.map Prod.fst) i j ∧
          ∀ consumption : Consumption (sent.map Prod.fst),
            consumption.rank i < consumption.rank j

/-- The second event goes under the new number, perhaps to another partition. -/
theorem renumbered_exchanged :
    ¬ SharesKeys accountJson [({}, openAccount), ({}, renumberAccount)] accountReplicator := by
  intro shares
  have sent : ∃ self', PostgresqlReplicator.handleAll accountJson
      [({}, openAccount.message), ({}, renumberAccount.message)] accountReplicator =
        .ok () self' ∧
      self'.accepted.map Prod.fst = [some (str "\"1\""), some (str "\"2\"")] :=
    ⟨_, rfl, rfl⟩
  obtain ⟨self', run, keys⟩ := sent
  have different : ¬ SameKey (self'.accepted.map Prod.fst) 0 1 := by
    rw [keys]
    rintro ⟨key, first, second⟩
    cases first
    exact absurd (Option.some.inj (Option.some.inj second)) (by decide)
  have two : 1 < (self'.accepted.map Prod.fst).length := by
    rw [keys]
    exact Nat.one_lt_two
  obtain ⟨consumption, exchanged⟩ := (exists_exchanged_iff _ Nat.one_pos two).mpr different
  have inOrder := (shares self' self'.accepted run rfl 0 1 openAccount renumberAccount Nat.one_pos
    rfl rfl (.inr (.inr rfl))).2 consumption
  omega

end KafkaReplication
