import KafkaReplication.Producer.PgOutputParser

/-!
# How the parsers fail

The readers check most of what they read. Where they do not, the only thing that can happen
is a read past the end of the body; and a message type that `parseMessage` knows gives a
message unless its `parse` fails.
-/

namespace KafkaReplication
open Misc PgOutputParser

section ParserBounds

variable (data : ByteVec)

theorem load32_bounds : OnlyPastTheEnd (load32 data) :=
  (OnlyPastTheEnd.copy data 4).bind fun _ => .pure _

theorem readUint8_bounds : OnlyPastTheEnd (readUint8 data) :=
  (OnlyPastTheEnd.requireNext data _).bind fun _ => (OnlyPastTheEnd.peek data).bind fun byte =>
    (OnlyPastTheEnd.advance 1).bind fun _ => .pure byte

theorem readUint16_bounds : OnlyPastTheEnd (readUint16 data) :=
  (OnlyPastTheEnd.require data 2 _).bind fun _ =>
    ((OnlyPastTheEnd.copy data 2).bind fun _ => .pure _).bind fun _ =>
      (OnlyPastTheEnd.advance 2).bind fun _ => .pure _

theorem readUint32_bounds : OnlyPastTheEnd (readUint32 data) :=
  (OnlyPastTheEnd.require data 4 _).bind fun _ => (load32_bounds data).bind fun _ =>
    (OnlyPastTheEnd.advance 4).bind fun _ => .pure _

theorem readUint64_bounds : OnlyPastTheEnd (readUint64 data) :=
  (OnlyPastTheEnd.require data 8 _).bind fun _ => (readUint32_bounds data).bind fun _ =>
    (readUint32_bounds data).bind fun _ => .pure _

theorem readStringLoop_bounds (rest text : Bytes) :
    OnlyPastTheEnd (readStringLoop data rest text) := by
  induction rest generalizing text with
  | nil => exact .pure text
  | cons c rest ih =>
    unfold readStringLoop
    exact .ite (.pure text) ((OnlyPastTheEnd.advance 1).bind fun _ => ih _)

theorem readString_bounds : OnlyPastTheEnd (readString data) := by
  have offset : OnlyPastTheEnd (get : Reader Nat) := by
    intro s why s' fails
    cases fails
  exact (OnlyPastTheEnd.requireNext data _).bind fun _ => offset.bind fun _ =>
    (readStringLoop_bounds data _ []).bind fun text =>
      (OnlyPastTheEnd.requireNext data _).bind fun _ =>
        (OnlyPastTheEnd.advance 1).bind fun _ => .pure text

theorem readText_bounds : OnlyPastTheEnd (readText data) :=
  (readUint32_bounds data).bind fun _ =>
    .ite ((OnlyPastTheEnd.copy data _).bind fun value =>
      (OnlyPastTheEnd.advance _).bind fun _ => .pure value) (.pure [])

theorem parseColumns_bounds (unknown : List Bytes) (n : Nat) (tuple : List Bytes) :
    OnlyPastTheEnd (parseColumns unknown data n tuple) := by
  induction n generalizing tuple with
  | zero => exact .pure tuple
  | succ n ih =>
    unfold parseColumns
    exact (readUint8_bounds data).bind fun _ => .ite (ih _) <| .ite (ih _) <|
      .ite ((readText_bounds data).bind fun _ => ih _) (ih _)

theorem parseRow_bounds (cache : RelationCache) (relationId : UInt32) :
    OnlyPastTheEnd (parseRow cache relationId data) := by
  unfold parseRow
  split
  · exact (readUint16_bounds data).bind fun _ => parseColumns_bounds data [[]] _ []
  · exact (readUint16_bounds data).bind fun _ => parseColumns_bounds data [] _ []

theorem relationColumns_bounds (n : Nat) (columns : List Column) :
    OnlyPastTheEnd (RelationMessage.parseColumns data n columns) := by
  induction n generalizing columns with
  | zero => exact .pure columns
  | succ n ih =>
    unfold RelationMessage.parseColumns
    exact (readUint8_bounds data).bind fun _ => (readString_bounds data).bind fun _ =>
      (readUint32_bounds data).bind fun _ => (readUint32_bounds data).bind fun _ => ih _

theorem truncateOids_bounds (n : Nat) (relationIds : List UInt32) :
    OnlyPastTheEnd (TruncateMessage.parseOids data n relationIds) := by
  induction n generalizing relationIds with
  | zero => exact .pure relationIds
  | succ n ih =>
    unfold TruncateMessage.parseOids
    exact (load32_bounds data).bind fun _ => ih _

theorem beginMessage_bounds : OnlyPastTheEnd (BeginMessage.parse data) :=
  (readUint64_bounds data).bind fun _ => (readUint64_bounds data).bind fun _ =>
    (load32_bounds data).bind fun _ => .pure _

theorem commitMessage_bounds : OnlyPastTheEnd (CommitMessage.parse data) :=
  (OnlyPastTheEnd.peek data).bind fun _ => (OnlyPastTheEnd.advance 1).bind fun _ =>
    (readUint64_bounds data).bind fun _ => (readUint64_bounds data).bind fun _ =>
      (readUint64_bounds data).bind fun _ => .pure _

theorem relationMessage_bounds : OnlyPastTheEnd (RelationMessage.parse data) :=
  (readUint32_bounds data).bind fun _ => (readString_bounds data).bind fun _ =>
    (readString_bounds data).bind fun _ => (OnlyPastTheEnd.peek data).bind fun _ =>
      (OnlyPastTheEnd.advance 1).bind fun _ => (readUint16_bounds data).bind fun _ =>
        (relationColumns_bounds data _ []).bind fun _ => .pure _

theorem insertMessage_bounds (cache : RelationCache) :
    OnlyPastTheEnd (InsertMessage.parse cache data) :=
  (readUint32_bounds data).bind fun relationId => (readUint8_bounds data).bind fun _ =>
    (parseRow_bounds data cache relationId).bind fun _ => .pure _

theorem deleteMessage_bounds (cache : RelationCache) :
    OnlyPastTheEnd (DeleteMessage.parse cache data) :=
  (readUint32_bounds data).bind fun relationId => (readUint8_bounds data).bind fun _ =>
    (parseRow_bounds data cache relationId).bind fun _ => .pure _

theorem updateTuples_bounds (cache : RelationCache) (relationId : UInt32) (hasOldTuple : UInt8) :
    OnlyPastTheEnd (UpdateMessage.parseTuples cache relationId hasOldTuple data) := by
  have row := parseRow_bounds data cache relationId
  unfold UpdateMessage.parseTuples
  exact .ite (row.bind fun _ => row.bind fun _ => .pure _)
    ((OnlyPastTheEnd.pure []).bind fun _ => row.bind fun _ => .pure _)

theorem updateMessage_bounds (cache : RelationCache) :
    OnlyPastTheEnd (UpdateMessage.parse cache data) :=
  (readUint32_bounds data).bind fun relationId => (readUint8_bounds data).bind fun _ =>
    (OnlyPastTheEnd.peek data).bind fun hasOldTuple =>
      updateTuples_bounds data cache relationId hasOldTuple

theorem truncateMessage_bounds : OnlyPastTheEnd (TruncateMessage.parse data) :=
  (readUint32_bounds data).bind fun _ => (readUint32_bounds data).bind fun _ =>
    (OnlyPastTheEnd.peek data).bind fun _ => (OnlyPastTheEnd.advance 1).bind fun _ =>
      (truncateOids_bounds data _ []).bind fun _ => .pure _

end ParserBounds

/-- The undefined behaviour of a reader is that of its result. -/
theorem Misc.OnlyPastTheEnd.result_map {α β : Type} {reader : Reader α}
    (bounds : OnlyPastTheEnd reader) {f : α → β} {offset : Nat} {why : Undefined}
    (fails : (reader.result offset).map f = .error (.undefined why)) : why = .pastTheEnd := by
  unfold Reader.result at fails
  cases run : reader offset with
  | ok a s => rw [run] at fails; cases fails
  | error e s =>
    rw [run] at fails
    cases fails
    exact bounds offset why s run

theorem parseBody_bounds {offset0 : Nat} {cache : RelationCache} {msgType : UInt8}
    {cleanData : ByteVec} {why : Undefined}
    (fails : parseBody offset0 cache msgType cleanData = .error (.undefined why)) :
    why = .pastTheEnd := by
  unfold parseBody at fails
  split_ifs at fails
  · exact (beginMessage_bounds cleanData).result_map fails
  · exact (commitMessage_bounds cleanData).result_map fails
  · exact (relationMessage_bounds cleanData).result_map fails
  · exact (insertMessage_bounds cleanData cache).result_map fails
  · exact (updateMessage_bounds cleanData cache).result_map fails
  · exact (deleteMessage_bounds cleanData cache).result_map fails
  · exact (truncateMessage_bounds cleanData).result_map fails

/-- The types of the `switch` in `parseMessage`. -/
def supportedTypes : Bytes := str "BCRIUDT"

theorem parseBody_unsupported (offset0 : Nat) (cache : RelationCache) {msgType : UInt8}
    (cleanData : ByteVec) (unsupported : msgType ∉ supportedTypes) :
    parseBody offset0 cache msgType cleanData = .ok none := by
  have types : supportedTypes =
      [chr 'B', chr 'C', chr 'R', chr 'I', chr 'U', chr 'D', chr 'T'] := rfl
  rw [types] at unsupported
  simp only [List.mem_cons, List.not_mem_nil, or_false, not_or] at unsupported
  obtain ⟨notB, notC, notR, notI, notU, notD, notT⟩ := unsupported
  rw [parseBody, if_neg notB, if_neg notC, if_neg notR, if_neg notI, if_neg notU, if_neg notD,
    if_neg notT]

/-- A supported type gives a message when its fields are there. -/
theorem parseBody_supported {offset0 : Nat} {cache : RelationCache} {msgType : UInt8}
    {cleanData : ByteVec} (supported : msgType ∈ supportedTypes) :
    parseBody offset0 cache msgType cleanData ≠ .ok none := by
  have some_ne {α : Type} (result : Except Fault α) (f : α → ReplicationMessage) :
      result.map (some ∘ f) ≠ .ok none := by
    cases result <;> simp [Except.map]
  unfold parseBody
  split_ifs with isB isC isR isI isU isD isT
  · exact some_ne _ _
  · exact some_ne _ _
  · exact some_ne _ _
  · exact some_ne _ _
  · exact some_ne _ _
  · exact some_ne _ _
  · exact some_ne _ _
  · have types : supportedTypes =
        [chr 'B', chr 'C', chr 'R', chr 'I', chr 'U', chr 'D', chr 'T'] := rfl
    rw [types] at supported
    simp only [List.mem_cons, List.not_mem_nil, or_false] at supported
    tauto

end KafkaReplication
