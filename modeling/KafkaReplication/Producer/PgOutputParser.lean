import KafkaReplication.Producer.ReplicationMessage

/-!
# `PgOutputParser::parseMessage` and the relation cache

`producer_azs/pgoutput_parser.cpp:93-178,306-315`.
-/

namespace KafkaReplication
open Misc

/-- What a reader gives from `offset` on, without the offset it ends at. -/
def Misc.Reader.result {α : Type} (reader : Reader α) (offset : Nat) : Except Fault α :=
  match reader offset with
  | .ok value _ => .ok value
  | .error fault _ => .error fault

namespace PgOutputParser

/-- The `switch` of `parseMessage` (`pgoutput_parser.cpp:103-166`). `offset0` is the value of
the uninitialised local of `TruncateMessage::parse`. -/
def parseBody (offset0 : Nat) (cache : RelationCache) (msgType : UInt8) (cleanData : ByteVec) :
    Except Fault (Option ReplicationMessage) :=
  if msgType = chr 'B' then
    ((BeginMessage.parse cleanData).result 0).map (some ∘ .begin)
  else if msgType = chr 'C' then
    ((CommitMessage.parse cleanData).result 0).map (some ∘ .commit)
  else if msgType = chr 'R' then
    ((RelationMessage.parse cleanData).result 0).map (some ∘ .relation)
  else if msgType = chr 'I' then
    ((InsertMessage.parse cache cleanData).result 0).map (some ∘ .insert)
  else if msgType = chr 'U' then
    ((UpdateMessage.parse cache cleanData).result 0).map (some ∘ .update)
  else if msgType = chr 'D' then
    ((DeleteMessage.parse cache cleanData).result 0).map (some ∘ .delete)
  else if msgType = chr 'T' then
    ((TruncateMessage.parse cleanData).result offset0).map (some ∘ .truncate)
  else
    .ok none

/-- `cacheRelation` (`pgoutput_parser.cpp:175-178`), which only the `'R'` case calls. -/
def cacheRelation (message : ReplicationMessage) (cache : RelationCache) : RelationCache :=
  match message with
  | .relation relation => Function.update cache relation.relationId (some relation)
  | _ => cache

/-- `parseMessage` (`pgoutput_parser.cpp:93-173`) on the relation cache. `raw_message[0]` is
not checked; an exception of a `parse` is swallowed and leaves the null message. -/
def parseMessage (offset0 : Nat) (rawMessage : ByteVec) :
    EStateM Fault RelationCache (Option ReplicationMessage) := fun cache =>
  match rawMessage.bytes with
  | [] => .error (.undefined .frontOfEmpty) cache
  | msgType :: _ =>
      match parseBody offset0 cache msgType (rawMessage.dropFront 1) with
      | .ok (some message) => .ok (some message) (cacheRelation message cache)
      | .ok none => .ok none cache
      | .error (.exception _) => .ok none cache
      | .error (.undefined why) => .error (.undefined why) cache

/-- `getCachedRelation` (`pgoutput_parser.cpp:306-315`). -/
def getCachedRelation (cache : RelationCache) (relationId : UInt32) : Option RelationMessage :=
  cache relationId

end PgOutputParser

end KafkaReplication
