import KafkaReplication.Consumer.ReplicationConsumer

/-!
# What a payload can do to the consumer thread

`startConsuming` (`consumer_bo/consumer_librdkafka.cpp:90-162`) answers a payload that is no JSON
with the error callback. The callback for one that is (`replication_consumer.h:21-32,88-118`)
takes members of whatever value it is handed and turns three of them into strings. There is no
handler between it and the thread, and none between the thread and the reader, which throws at
values that are nested too deeply.
-/

namespace KafkaReplication
open Misc ReplicationConsumer

namespace Json

/-- Everything but an array and an object has a string form. -/
def isConvertible : Json → Bool
  | array _ | object _ => false
  | _ => true

theorem asString_returns (json : Json) :
    (∃ text, json.asString = .ok text) ↔ json.isConvertible = true := by
  cases json <;> simp [asString, isConvertible]

/-- The value has members, and the one of that name has a string form if it is there. -/
def ConvertibleMember (json : Json) (name : Bytes) : Prop :=
  match json with
  | null => True
  | object members => ∀ value, members.lookup name = some value → value.isConvertible = true
  | _ => False

/-- What `json.get(name, other).asString()` needs, where `other` has a string form. -/
theorem get_asString_returns (json : Json) (name : Bytes) {other : Json}
    (convertible : other.isConvertible = true) :
    (∃ text, (json.get name other).bind asString = .ok text) ↔ json.ConvertibleMember name := by
  cases json with
  | null =>
    simp only [get, find, Except.map, Except.bind, Option.getD_none, ConvertibleMember, iff_true]
    exact (asString_returns other).mpr convertible
  | object members =>
    simp only [get, find, Except.map, Except.bind, ConvertibleMember]
    rw [asString_returns]
    cases members.lookup name with
    | none => simp [convertible]
    | some value => simp
  | int _ | uint _ | real _ | string _ | bool _ | array _ =>
    simp [get, find, Except.map, Except.bind, ConvertibleMember]

/-- A value with a convertible member has members at all. -/
theorem ConvertibleMember.find_returns {json : Json} {name : Bytes}
    (convertible : json.ConvertibleMember name) (other : Bytes) :
    ∃ value, json.find other = .ok value := by
  cases json with
  | null => exact ⟨none, rfl⟩
  | object members => exact ⟨members.lookup other, rfl⟩
  | int _ | uint _ | real _ | string _ | bool _ | array _ => exact convertible.elim

end Json

namespace ReplicationConsumer

theorem getString_returns (msg : Json) (name : Bytes) :
    (∃ text, getString msg name = .ok text) ↔ msg.ConvertibleMember name :=
  Json.get_asString_returns msg name rfl

theorem printed_returns (msg : Json) (name : Bytes) :
    (∃ text, printed msg name = .ok text) ↔ msg.ConvertibleMember name :=
  Json.get_asString_returns msg name rfl

/-- The shape of a value that the callback gets through with. -/
structure Readable (msg : Json) : Prop where
  op : msg.ConvertibleMember (str "op")
  table : msg.ConvertibleMember (str "table")
  primary : msg.ConvertibleMember (str "primary")

/-- What comes before the branch on the operation decides whether a message is pushed. -/
theorem saveIntoQueue_returns (msg : Json) :
    (∃ message, saveIntoQueue msg = .ok message) ↔ Readable msg := by
  constructor
  · rintro ⟨message, pushed⟩
    unfold saveIntoQueue at pushed
    obtain ⟨_, _, pushed⟩ := except_bind_eq_ok.mp pushed
    obtain ⟨_, primary, pushed⟩ := except_bind_eq_ok.mp pushed
    obtain ⟨_, op, pushed⟩ := except_bind_eq_ok.mp pushed
    obtain ⟨_, table, _⟩ := except_bind_eq_ok.mp pushed
    exact ⟨(getString_returns msg _).mp ⟨_, op⟩, (getString_returns msg _).mp ⟨_, table⟩,
      (getString_returns msg _).mp ⟨_, primary⟩⟩
  · intro readable
    obtain ⟨primaryKey, primaryKey_eq⟩ := (getString_returns msg _).mpr readable.primary
    obtain ⟨op, op_eq⟩ := (getString_returns msg _).mpr readable.op
    obtain ⟨table, table_eq⟩ := (getString_returns msg _).mpr readable.table
    have isMember : ∀ name, ∃ found, msg.isMember name = .ok found := by
      intro name
      obtain ⟨value, find⟩ := readable.op.find_returns name
      exact ⟨value.isSome, by rw [Json.isMember, find]; rfl⟩
    have index : ∀ name, ∃ value, msg.index name = .ok value := by
      intro name
      obtain ⟨value, find⟩ := readable.op.find_returns name
      exact ⟨value.getD .null, by rw [Json.index, Json.get, find]; rfl⟩
    obtain ⟨hasPrimary, hasPrimary_eq⟩ := isMember (str "primary")
    obtain ⟨data, data_eq⟩ := index (str "data")
    obtain ⟨before, before_eq⟩ := index (str "before")
    obtain ⟨after, after_eq⟩ := index (str "after")
    rw [saveIntoQueue, hasPrimary_eq, primaryKey_eq, op_eq, table_eq, data_eq, before_eq, after_eq]
    simp only [bind, Except.bind, pure, Except.pure]
    split_ifs <;> exact ⟨_, rfl⟩

/-- What the callback prints needs no more than what it saves. -/
theorem messageCallback_returns (msg : Json) :
    (∃ message, messageCallback msg = .ok message) ↔ Readable msg := by
  constructor
  · rintro ⟨message, pushed⟩
    unfold messageCallback at pushed
    obtain ⟨_, _, pushed⟩ := except_bind_eq_ok.mp pushed
    obtain ⟨_, _, pushed⟩ := except_bind_eq_ok.mp pushed
    obtain ⟨_, _, pushed⟩ := except_bind_eq_ok.mp pushed
    exact (saveIntoQueue_returns msg).mp ⟨message, pushed⟩
  · intro readable
    obtain ⟨message, pushed⟩ := (saveIntoQueue_returns msg).mpr readable
    obtain ⟨op, op_eq⟩ := (printed_returns msg _).mpr readable.op
    obtain ⟨table, table_eq⟩ := (printed_returns msg _).mpr readable.table
    obtain ⟨data, find⟩ := readable.op.find_returns (str "data")
    have hasData : msg.isMember (str "data") = .ok data.isSome := by
      rw [Json.isMember, find]
      rfl
    refine ⟨message, ?_⟩
    rw [messageCallback, op_eq, table_eq, hasData]
    exact pushed

end ReplicationConsumer

namespace LibRdkafkaConsumer

/-- The call has pushed one message or called the error callback once, and has returned. -/
def Returns (jsoncpp : JsonCpp) (payload : Bytes) : Prop :=
  (∃ message, startConsuming jsoncpp payload = .ok (some message)) ∨
    startConsuming jsoncpp payload = .ok none

/-- No exception leaves `startConsuming` exactly for those payloads that the reader does not throw
at and that are no JSON or a value of the shape the callback expects. -/
theorem startConsuming_returns_iff (jsoncpp : JsonCpp) (payload : Bytes) :
    Returns jsoncpp payload ↔
      ∃ read, jsoncpp.parseFromStream payload = .ok read ∧
        ∀ root, read = some root → Readable root := by
  unfold Returns startConsuming
  cases parsed : jsoncpp.parseFromStream payload with
  | error fault => simp
  | ok read =>
    cases read with
    | none => simp
    | some root =>
      simp only [Except.ok.injEq, exists_eq_left', Option.some.injEq, forall_eq',
        ← messageCallback_returns root]
      cases run : messageCallback root with
      | ok message => simp [Except.map]
      | error fault => simp [Except.map]

/-- jsoncpp reads the array `[]` as the value of that shape. -/
theorem emptyArray_kills :
    ¬ ∀ (jsoncpp : JsonCpp) (payload : Bytes), Returns jsoncpp payload := by
  intro always
  have returns := always (JsonCpp.compact (.array [])) (str "[]")
  rcases returns with ⟨message, pushed⟩ | called
  · cases pushed
  · cases called

end LibRdkafkaConsumer

end KafkaReplication
