import KafkaReplication.Producer.Dispatch

/-!
# Null messages and empty bodies

`parsePacket` hands the body of every long enough `'w'` packet to `parseMessage`, which takes
the first byte of whatever it gets, and hands what comes back to `handleMessage`, which calls a
member of it. `Dispatchable` packets are those for which both are in order.
-/

namespace KafkaReplication
open Misc PgOutputParser

namespace PostgresqlReplicator

/-- `parseMessage` is not called on an empty body nor `handleMessage` on a null message. -/
def NeverNull (jsoncpp : JsonCpp) (env : Surroundings) (self : PostgresqlReplicator)
    (rawMessage : ByteVec) : Prop :=
  ∀ self', parsePacket jsoncpp env rawMessage self ≠ .error (.undefined .frontOfEmpty) self' ∧
    parsePacket jsoncpp env rawMessage self ≠ .error (.undefined .nullPointer) self'

/-- If the packet is a `'w'` packet with a full header, then its body starts with one of the
types that `parseMessage` knows and its `parse` does not throw. -/
def Dispatchable (offset0 : Nat) (cache : RelationCache) (rawMessage : ByteVec) : Prop :=
  IsWal rawMessage → ∃ msgType rest, rawMessage.bytes.drop 25 = msgType :: rest ∧
    msgType ∈ supportedTypes ∧
    ∀ what, parseBody offset0 cache msgType ((rawMessage.dropFront 25).dropFront 1) ≠
      .error (.exception what)

section Bodies

variable (jsoncpp : JsonCpp) (env : Surroundings) (self : PostgresqlReplicator) {body : ByteVec}

/-- A body that is dispatchable ends in no null call. -/
theorem dispatch_ne_null {msgType : UInt8} {rest : Bytes} (bytes : body.bytes = msgType :: rest)
    (supported : msgType ∈ supportedTypes)
    (parses : ∀ what, parseBody env.offset0.toNat self.relationCache msgType (body.dropFront 1) ≠
      .error (.exception what)) {why : Undefined} {self' : PostgresqlReplicator}
    (run : dispatch jsoncpp env body self = .error (.undefined why) self') :
    why = .pastTheEnd := by
  have outcome := dispatch_dispatched jsoncpp env self body
  rw [run] at outcome
  cases outcome with
  | empty nothing =>
    rw [bytes] at nothing
    cases nothing
  | null bytes' noMessage =>
    rw [bytes] at bytes'
    cases bytes'
    rcases noMessage with none | ⟨what, thrown⟩
    · exact absurd none (parseBody_supported supported)
    · exact absurd thrown (parses what)
  | pastTheEnd _ _ => rfl
  | handled _ _ handled =>
    cases handled
    rfl

theorem dispatch_empty (nothing : body.bytes = []) :
    dispatch jsoncpp env body self = .error (.undefined .frontOfEmpty) self := by
  have outcome := dispatch_dispatched jsoncpp env self body
  generalize dispatch jsoncpp env body self = result at outcome
  cases outcome with
  | empty _ => rfl
  | null bytes _ => rw [nothing] at bytes; cases bytes
  | pastTheEnd bytes _ => rw [nothing] at bytes; cases bytes
  | handled bytes _ _ => rw [nothing] at bytes; cases bytes

theorem dispatch_null {msgType : UInt8} {rest : Bytes} (bytes : body.bytes = msgType :: rest)
    (noMessage : parseBody env.offset0.toNat self.relationCache msgType (body.dropFront 1) =
        .ok none ∨
      ∃ what, parseBody env.offset0.toNat self.relationCache msgType (body.dropFront 1) =
        .error (.exception what)) :
    dispatch jsoncpp env body self = .error (.undefined .nullPointer) self := by
  have outcome := dispatch_dispatched jsoncpp env self body
  generalize dispatch jsoncpp env body self = result at outcome
  cases outcome with
  | empty nothing => rw [bytes] at nothing; cases nothing
  | null _ _ => rfl
  | pastTheEnd bytes' leaves =>
    rw [bytes] at bytes'
    cases bytes'
    rw [leaves] at noMessage
    rcases noMessage with none | ⟨what, thrown⟩
    · cases none
    · cases thrown
  | handled bytes' parsed _ =>
    rw [bytes] at bytes'
    cases bytes'
    rw [parsed] at noMessage
    rcases noMessage with none | ⟨what, thrown⟩
    · cases none
    · cases thrown

end Bodies

/-- A `'w'` packet whose body leaves the language takes `parsePacket` along. -/
theorem parsePacket_down {jsoncpp : JsonCpp} {env : Surroundings}
    {self self' : PostgresqlReplicator} {rawMessage : ByteVec} (isWal : IsWal rawMessage)
    {why : Undefined}
    (run : dispatch jsoncpp env (rawMessage.dropFront 25) (received rawMessage self) =
      .error (.undefined why) self') :
    parsePacket jsoncpp env rawMessage self = .error (.undefined why) self' := by
  have outcome := parsePacket_parsed jsoncpp env self rawMessage
  generalize parsePacket jsoncpp env rawMessage self = result at outcome
  cases outcome with
  | skipped notWal _ => exact absurd isWal notWal
  | keepalive notWal _ => exact absurd isWal notWal
  | completed _ _ completed => rw [run] at completed; cases completed
  | down _ _ down =>
    rw [run] at down
    cases down
    rfl

theorem parsePacket_neverNull_iff (jsoncpp : JsonCpp) (env : Surroundings)
    (self : PostgresqlReplicator) (rawMessage : ByteVec) :
    NeverNull jsoncpp env self rawMessage ↔
      Dispatchable env.offset0.toNat self.relationCache rawMessage := by
  constructor
  · intro never isWal
    cases bytes : (rawMessage.dropFront 25).bytes with
    | nil =>
      have run := dispatch_empty jsoncpp env (received rawMessage self) bytes
      exact absurd (parsePacket_down isWal run) (never _).1
    | cons msgType rest =>
      have noNull (noMessage : parseBody env.offset0.toNat self.relationCache msgType
            ((rawMessage.dropFront 25).dropFront 1) = .ok none ∨
          ∃ what, parseBody env.offset0.toNat self.relationCache msgType
            ((rawMessage.dropFront 25).dropFront 1) = .error (.exception what)) : False := by
        have run := dispatch_null jsoncpp env (received rawMessage self) bytes noMessage
        exact (never _).2 (parsePacket_down isWal run)
      refine ⟨msgType, rest, bytes, ?_, fun what thrown => noNull (.inr ⟨what, thrown⟩)⟩
      by_contra unsupported
      exact noNull (.inl (parseBody_unsupported _ _ _ unsupported))
  · intro dispatchable
    have only {why : Undefined} {self' : PostgresqlReplicator}
        (fails : parsePacket jsoncpp env rawMessage self = .error (.undefined why) self') :
        why = .pastTheEnd := by
      have outcome := parsePacket_parsed jsoncpp env self rawMessage
      rw [fails] at outcome
      cases outcome with
      | down isWal _ run =>
        obtain ⟨msgType, rest, bytes, supported, parses⟩ := dispatchable isWal
        exact dispatch_ne_null jsoncpp env (received rawMessage self) bytes supported parses run
    intro self'
    constructor
    · intro fails
      cases only fails
    · intro fails
      cases only fails

/-- A Type message: the header of a `'w'` packet and the body `'Y'`, an OID, two names. -/
def typePacket : ByteVec :=
  ⟨str "w" ++ List.replicate 24 0 ++ str "Y" ++ [0, 0, 64, 0] ++ str "public" ++ [0] ++
    str "mood" ++ [0], by decide⟩

/-- PostgreSQL sends Type messages, and each of them is a call through a null pointer. -/
theorem parsePacket_typePacket_null :
    ¬ NeverNull (JsonCpp.compact .null) {} {} typePacket := by
  intro never
  exact (never _).2 rfl

/-- So is a packet that ends behind its header: its body is empty. -/
example : ¬ NeverNull (JsonCpp.compact .null) {} {} ⟨str "w" ++ List.replicate 24 0, by decide⟩ :=
  fun never => (never _).1 rfl

end PostgresqlReplicator

end KafkaReplication
