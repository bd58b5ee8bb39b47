import KafkaReplication.Misc.Run
import KafkaReplication.Producer.MessageDecode

/-!
# The relation cache over a history of messages

`parseMessage` caches what a Relation message decodes to, behind a complete `parse` only
(`producer_azs/pgoutput_parser.cpp:93-178`). Over any history `getCachedRelation` gives the
last relation that was decoded with the id. A message is taken together with the value that
the uninitialised local of `TruncateMessage::parse` has when it arrives; undefined behaviour
counts as a failed `parse`.
-/

namespace KafkaReplication
open Misc PgOutputParser

/-- The relation a message carries, if it is a Relation message that can be decoded. -/
def decodedRelation (rawMessage : ByteVec) : Option RelationMessage :=
  match rawMessage.bytes with
  | [] => none
  | msgType :: _ =>
      if msgType = chr 'R' then
        ((RelationMessage.parse (rawMessage.dropFront 1)).result 0).toOption
      else none

/-- The cache after a history of messages. -/
def cacheAfter (history : List (Nat × ByteVec)) : RelationCache :=
  runFrom (fun cache message => finalState (parseMessage message.1 message.2 cache))
    (fun _ => none) history

section Step

variable {offset0 : Nat} {cache : RelationCache} {rawMessage : ByteVec}

/-- Only the `'R'` case builds a message that is cached. -/
theorem cacheRelation_other {msgType : UInt8} {cleanData : ByteVec} {message : ReplicationMessage}
    (other : msgType ≠ chr 'R')
    (parsed : parseBody offset0 cache msgType cleanData = .ok (some message)) :
    cacheRelation message cache = cache := by
  have same {α : Type} {result : Except Fault α} {make : α → ReplicationMessage}
      (uncached : ∀ a, cacheRelation (make a) cache = cache)
      (made : result.map (some ∘ make) = .ok (some message)) :
      cacheRelation message cache = cache := by
    cases result with
    | error fault => cases made
    | ok a =>
      cases made
      exact uncached a
  rw [parseBody, if_neg other] at parsed
  split_ifs at parsed
  · exact same (fun _ => rfl) parsed
  · exact same (fun _ => rfl) parsed
  · exact same (fun _ => rfl) parsed
  · exact same (fun _ => rfl) parsed
  · exact same (fun _ => rfl) parsed
  · exact same (fun _ => rfl) parsed
  · cases parsed

/-- A message of another type leaves the cache alone, however its `parse` ends. -/
theorem finalState_parseMessage_other (other : rawMessage.bytes.head? ≠ some (chr 'R')) :
    finalState (parseMessage offset0 rawMessage cache) = cache := by
  unfold parseMessage
  cases bytes : rawMessage.bytes with
  | nil => rfl
  | cons msgType body =>
    have notRelation : msgType ≠ chr 'R' := by
      rintro rfl
      rw [bytes] at other
      exact other rfl
    cases parsed : parseBody offset0 cache msgType (rawMessage.dropFront 1) with
    | error fault => cases fault <;> simp only [parsed, finalState]
    | ok message =>
      cases message with
      | none => simp only [parsed, finalState]
      | some message =>
        simp only [parsed, finalState]
        exact cacheRelation_other notRelation parsed

theorem parseBody_relation (offset0 : Nat) (cache : RelationCache) (cleanData : ByteVec) :
    parseBody offset0 cache (chr 'R') cleanData =
      ((RelationMessage.parse cleanData).result 0).map (some ∘ .relation) := rfl

/-- A Relation message that cannot be decoded leaves the cache alone, wherever `parse`
stopped. -/
theorem finalState_parseMessage_failed {body : Bytes} {fault : Fault}
    (bytes : rawMessage.bytes = chr 'R' :: body)
    (failed : (RelationMessage.parse (rawMessage.dropFront 1)).result 0 = .error fault) :
    finalState (parseMessage offset0 rawMessage cache) = cache := by
  have parsed := parseBody_relation offset0 cache (rawMessage.dropFront 1)
  rw [failed] at parsed
  simp only [parseMessage, bytes, parsed, Except.map]
  cases fault <;> rfl

theorem finalState_parseMessage_relation {body : Bytes} {relation : RelationMessage}
    (bytes : rawMessage.bytes = chr 'R' :: body)
    (decoded : (RelationMessage.parse (rawMessage.dropFront 1)).result 0 = .ok relation) :
    finalState (parseMessage offset0 rawMessage cache) =
      Function.update cache relation.relationId (some relation) := by
  have parsed := parseBody_relation offset0 cache (rawMessage.dropFront 1)
  rw [decoded] at parsed
  rw [parseMessage_cons bytes parsed]
  rfl

/-- One message changes the cache exactly where it carries a relation. -/
theorem finalState_parseMessage (offset0 : Nat) (cache : RelationCache) (rawMessage : ByteVec) :
    finalState (parseMessage offset0 rawMessage cache) =
      match decodedRelation rawMessage with
      | some relation => Function.update cache relation.relationId (some relation)
      | none => cache := by
  unfold decodedRelation
  cases bytes : rawMessage.bytes with
  | nil => exact finalState_parseMessage_other (by rw [bytes]; simp)
  | cons msgType body =>
    by_cases isRelation : msgType = chr 'R'
    · subst isRelation
      simp only [if_pos]
      cases decoded : (RelationMessage.parse (rawMessage.dropFront 1)).result 0 with
      | error fault => exact finalState_parseMessage_failed bytes decoded
      | ok relation => exact finalState_parseMessage_relation bytes decoded
    · simp only [if_neg isRelation]
      exact finalState_parseMessage_other (by simpa [bytes] using isRelation)

end Step

/-! ## Names -/

theorem parseColumns_nulFree {data : ByteVec} {n : Nat} {columns columns' : List Column}
    {offset offset' : Nat} (nulFree : ∀ col ∈ columns, 0 ∉ col.name)
    (parsed : RelationMessage.parseColumns data n columns offset = .ok columns' offset') :
    ∀ col ∈ columns', 0 ∉ col.name := by
  induction n generalizing columns offset with
  | zero =>
    cases parsed
    exact nulFree
  | succ n ih =>
    rw [RelationMessage.parseColumns] at parsed
    obtain ⟨flags, _, -, parsed⟩ := bind_eq_ok.mp parsed
    obtain ⟨name, _, read, parsed⟩ := bind_eq_ok.mp parsed
    obtain ⟨typeId, _, -, parsed⟩ := bind_eq_ok.mp parsed
    obtain ⟨typeModifier, _, -, parsed⟩ := bind_eq_ok.mp parsed
    refine ih ?_ parsed
    intro col mem
    rcases List.mem_append.mp mem with earlier | last
    · exact nulFree col earlier
    · rw [List.mem_singleton.mp last]
      exact readString_nulFree read

theorem RelationMessage.parse_nulFree {data : ByteVec} {relation : RelationMessage}
    {offset offset' : Nat} (parsed : RelationMessage.parse data offset = .ok relation offset') :
    relation.NulFree := by
  rw [RelationMessage.parse] at parsed
  obtain ⟨relationId, _, -, parsed⟩ := bind_eq_ok.mp parsed
  obtain ⟨nspname, _, -, parsed⟩ := bind_eq_ok.mp parsed
  obtain ⟨relationName, _, read, parsed⟩ := bind_eq_ok.mp parsed
  obtain ⟨replicaIdentity, _, -, parsed⟩ := bind_eq_ok.mp parsed
  obtain ⟨_, _, -, parsed⟩ := bind_eq_ok.mp parsed
  obtain ⟨numColumns, _, -, parsed⟩ := bind_eq_ok.mp parsed
  obtain ⟨columns, _, loop, parsed⟩ := bind_eq_ok.mp parsed
  cases parsed
  have noColumns : ∀ col ∈ ([] : List Column), 0 ∉ col.name :=
    fun _ mem => absurd mem List.not_mem_nil
  exact ⟨readString_nulFree read, parseColumns_nulFree noColumns loop⟩

theorem decodedRelation_nulFree {rawMessage : ByteVec} {relation : RelationMessage}
    (decoded : decodedRelation rawMessage = some relation) : relation.NulFree := by
  unfold decodedRelation at decoded
  cases bytes : rawMessage.bytes with
  | nil =>
    rw [bytes] at decoded
    cases decoded
  | cons msgType body =>
    rw [bytes] at decoded
    simp only at decoded
    split_ifs at decoded
    cases parsed : RelationMessage.parse (rawMessage.dropFront 1) 0 with
    | error fault offset =>
      rw [Reader.result, parsed] at decoded
      cases decoded
    | ok relation' offset =>
      rw [Reader.result, parsed] at decoded
      cases decoded
      exact RelationMessage.parse_nulFree parsed

/-- The last relation with the id that a history decodes to. -/
def lastRelation (history : List (Nat × ByteVec)) (relationId : UInt32) :
    Option RelationMessage :=
  ((history.filterMap fun message => decodedRelation message.2).filter
    fun relation => relation.relationId = relationId).getLast?

theorem cacheAfter_append (history : List (Nat × ByteVec)) (message : Nat × ByteVec) :
    cacheAfter (history ++ [message]) =
      finalState (parseMessage message.1 message.2 (cacheAfter history)) := by
  rw [cacheAfter, runFrom, List.foldl_append]
  rfl

theorem getCachedRelation_cacheAfter (history : List (Nat × ByteVec)) (relationId : UInt32) :
    getCachedRelation (cacheAfter history) relationId = lastRelation history relationId := by
  induction history using List.reverseRecOn with
  | nil => rfl
  | append_singleton history message ih =>
    rw [cacheAfter_append, finalState_parseMessage]
    unfold lastRelation getCachedRelation at *
    rw [List.filterMap_append, List.filter_append]
    cases decoded : decodedRelation message.2 with
    | none => simpa [decoded] using ih
    | some relation =>
      by_cases same : relation.relationId = relationId
      · subst same
        simp [decoded]
      · simpa [decoded, same, Function.update_of_ne (Ne.symm same)] using ih

/-- No cached relation has a NUL in its names. -/
theorem cached_nulFree {history : List (Nat × ByteVec)} {relationId : UInt32}
    {relation : RelationMessage}
    (cached : getCachedRelation (cacheAfter history) relationId = some relation) :
    relation.NulFree := by
  rw [getCachedRelation_cacheAfter, lastRelation] at cached
  have last := List.mem_of_getLast? cached
  obtain ⟨message, -, decoded⟩ := List.mem_filterMap.mp (List.mem_filter.mp last).1
  exact decodedRelation_nulFree decoded

/-- After any history the cache gives the relation of the last Relation message with that id
that could be decoded, and nothing if there was none; messages of other types and Relation
messages that cannot be decoded leave the whole cache unchanged. -/
theorem relationCache_latest (history : List (Nat × ByteVec)) :
    (∀ relationId, getCachedRelation (cacheAfter history) relationId =
      lastRelation history relationId) ∧
    ∀ message : Nat × ByteVec,
      (message.2.bytes.head? ≠ some (chr 'R') ∨
        ∃ fault, (RelationMessage.parse (message.2.dropFront 1)).result 0 = .error fault) →
      cacheAfter (history ++ [message]) = cacheAfter history := by
  refine ⟨getCachedRelation_cacheAfter history, ?_⟩
  intro message unchanged
  rw [cacheAfter_append]
  rcases unchanged with other | ⟨fault, failed⟩
  · exact finalState_parseMessage_other other
  · by_cases other : message.2.bytes.head? = some (chr 'R')
    · obtain ⟨body, bytes⟩ := List.head?_eq_some_iff.mp other
      exact finalState_parseMessage_failed bytes failed
    · exact finalState_parseMessage_other other

/-- The Relation message of a table without columns. -/
def smallRelation : RelationMessage := ⟨7, [], str "t", chr 'd', []⟩

/-- The same message cut inside its name, and an Insert message of the table. -/
theorem relationCache_latest_cut :
    (getCachedRelation (cacheAfter [(0, ⟨smallRelation.encode, by decide⟩)]) 7 =
      lastRelation [(0, ⟨smallRelation.encode, by decide⟩)] 7) ∧
    (cacheAfter ([(0, ⟨smallRelation.encode, by decide⟩)] ++
        [(0, ⟨smallRelation.encode.take 7, by decide⟩)]) =
      cacheAfter [(0, ⟨smallRelation.encode, by decide⟩)]) ∧
    cacheAfter ([(0, ⟨smallRelation.encode, by decide⟩)] ++
        [(0, ⟨encodeInsert 7 ⟨[], by decide⟩, by decide⟩)]) =
      cacheAfter [(0, ⟨smallRelation.encode, by decide⟩)] :=
  ⟨(relationCache_latest _).1 7,
    (relationCache_latest _).2 (0, ⟨smallRelation.encode.take 7, by decide⟩)
      (.inr ⟨.exception "String not null-terminated", rfl⟩),
    (relationCache_latest _).2 (0, ⟨encodeInsert 7 ⟨[], by decide⟩, by decide⟩)
      (.inl (by decide))⟩

example : lastRelation [(0, ⟨smallRelation.encode, by decide⟩)] 7 = some smallRelation := rfl

end KafkaReplication
