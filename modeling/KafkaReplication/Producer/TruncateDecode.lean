import KafkaReplication.Producer.PgOutputParser
import KafkaReplication.Producer.Protocol

/-!
# Decoding Truncate messages

`TruncateMessage::parse` starts from an uninitialised offset, so its result is a function
of whatever the stack holds. Near the top of `size_t` the sums of the bounds checks wrap,
and the first load is out of the body on every input.
-/

namespace KafkaReplication
open Misc PgOutputParser

/-- An offset from which `offset + 4` wraps to zero. -/
def wrappingOffset : UInt64 := 0xFFFFFFFFFFFFFFFC

/-- From there the bounds check of `read_uint32` passes and its load leaves the body. -/
theorem TruncateMessage.parse_wrapping (data : ByteVec) :
    TruncateMessage.parse data wrappingOffset.toNat =
      .error (.undefined .pastTheEnd) wrappingOffset.toNat := by
  have offset : wrappingOffset.toNat = 2 ^ 64 - 4 := rfl
  have bound := data.size_lt'
  have wraps : sizeAdd wrappingOffset.toNat 4 = 0 := rfl
  have passes : require data 4 "Buffer underflow in read_uint8" wrappingOffset.toNat =
      .ok () wrappingOffset.toNat := by
    rw [require, wraps, if_neg (Nat.not_lt_zero _)]
  have leaves : copy data 4 wrappingOffset.toNat =
      .error (.undefined .pastTheEnd) wrappingOffset.toNat := by
    rw [copy, if_neg (by omega)]
  have load : load32 data wrappingOffset.toNat =
      .error (.undefined .pastTheEnd) wrappingOffset.toNat := by
    rw [load32, bind_error leaves]
  rw [TruncateMessage.parse, bind_error (by rw [readUint32, bind_ok passes, bind_error load])]

theorem parseMessage_truncate_wrapping (cache : RelationCache) (rawMessage : ByteVec)
    {body : Bytes} (bytes : rawMessage.bytes = chr 'T' :: body) :
    parseMessage wrappingOffset.toNat rawMessage cache =
      .error (.undefined .pastTheEnd) cache := by
  have switch : parseBody wrappingOffset.toNat cache (chr 'T') (rawMessage.dropFront 1) =
      ((TruncateMessage.parse (rawMessage.dropFront 1)).result wrappingOffset.toNat).map
        (some ∘ .truncate) := rfl
  simp only [parseMessage, bytes, switch, Reader.result, TruncateMessage.parse_wrapping,
    Except.map]

/-- On no Truncate message is the result right whatever the uninitialised offset is, and
on no body, least of all on one with fewer OIDs than it announces, does `parse` throw
whatever it is. -/
theorem parseMessage_truncate_never (cache : RelationCache) (options : UInt8)
    (oids : List UInt32) (count_lt : oids.length < 2 ^ 32) (body : ByteVec) :
    (¬ ∀ offset0 : UInt64, ∃ transactionId numberOfRelations,
        parseMessage offset0.toNat (encodeTruncate options oids count_lt) cache =
          .ok (some (.truncate ⟨transactionId, numberOfRelations, options, oids⟩)) cache) ∧
    (¬ ∀ offset0 : UInt64, ∃ what last,
        TruncateMessage.parse body offset0.toNat = .error (.exception what) last) := by
  constructor
  · intro decodes
    obtain ⟨transactionId, numberOfRelations, ok⟩ := decodes wrappingOffset
    rw [parseMessage_truncate_wrapping cache _ rfl] at ok
    cases ok
  · intro throws
    obtain ⟨what, last, thrown⟩ := throws wrappingOffset
    rw [TruncateMessage.parse_wrapping] at thrown
    cases thrown

/-- A Truncate of one table, and a body that announces one table and ends. -/
theorem parseMessage_truncate_never_one :
    (¬ ∀ offset0 : UInt64, ∃ transactionId numberOfRelations,
        parseMessage offset0.toNat (encodeTruncate 0 [16384] (by decide)) (fun _ => none) =
          .ok (some (.truncate ⟨transactionId, numberOfRelations, 0, [16384]⟩))
            (fun _ => none)) ∧
    (¬ ∀ offset0 : UInt64, ∃ what last,
        TruncateMessage.parse ⟨[0, 0, 0, 1, 0], by decide⟩ offset0.toNat =
          .error (.exception what) last) :=
  parseMessage_truncate_never (fun _ => none) 0 [16384] (by decide) ⟨[0, 0, 0, 1, 0], by decide⟩

/-- Even from offset 0 the Truncate of one table is not decoded: the count is taken for a
transaction id and the loads leave the body. -/
theorem parseMessage_truncate_one_undefined :
    ¬ ∃ transactionId numberOfRelations,
      parseMessage 0 (encodeTruncate 0 [16384] (by decide)) (fun _ => none) =
        .ok (some (.truncate ⟨transactionId, numberOfRelations, 0, [16384]⟩))
          (fun _ => none) := by
  rintro ⟨transactionId, numberOfRelations, same⟩
  have outcome : parseMessage 0 (encodeTruncate 0 [16384] (by decide)) (fun _ => none) =
      .error (.undefined .pastTheEnd) (fun _ => none) := rfl
  rw [outcome] at same
  cases same

end KafkaReplication
