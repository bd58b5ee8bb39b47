import KafkaReplication.Misc.ReaderGrammar
import KafkaReplication.Producer.BigEndianReads

/-!
# The grammar of `parseMessage`

What the seven `parse` members (`producer_azs/replication_message.cpp`) accept, and so what
`parseMessage` (`producer_azs/pgoutput_parser.cpp:93-173`) takes for a message, and for which: the
documented formats of BEGIN, COMMIT and RELATION but for the transaction id, which is not swapped,
and formats of their own for the others.
-/

namespace KafkaReplication
open Misc PgOutputParser

/-! ## Fields -/

section Fields

variable {data : ByteVec}

theorem readUint8_grammar : HasGrammar data (readUint8 data) (.encoded fun byte => [byte]) where
  sound := by
    intro offset rest byte last at_ run
    cases rest with
    | nil =>
      rw [readUint8_nil at_] at run
      cases run
    | cons first rest =>
      rw [readUint8_cons at_] at run
      cases run
      exact ⟨[byte], rest, rfl, rfl, rfl⟩
  complete := by
    rintro offset behind byte field rfl at_
    exact readUint8_cons at_

theorem readUint16_grammar :
    HasGrammar data (readUint16 data) (.encoded fun word => beBytes 2 word.toNat) := by
  refine .ofWidth (fun field => UInt16.ofNat (beValue field)) 2
    (fun len at_ => readUint16_append at_ len) ?_ ?_ (fun _ => beBytes_length _ _) ?_
  · intro offset rest word last short at_ run
    rw [readUint16_short at_ short] at run
    cases run
  · intro word
    rw [beValue_beBytes word.toNat_lt, UInt16.ofNat_toNat]
  · intro field len
    have same := beBytes_beValue field
    rwa [len, ← toNat_beValue16 len] at same

theorem readUint32_grammar :
    HasGrammar data (readUint32 data) (.encoded fun word => beBytes 4 word.toNat) := by
  refine .ofWidth (fun field => UInt32.ofNat (beValue field)) 4
    (fun len at_ => readUint32_append at_ len) ?_ ?_ (fun _ => beBytes_length _ _) ?_
  · intro offset rest word last short at_ run
    rw [readUint32_short at_ short] at run
    cases run
  · intro word
    rw [beValue_beBytes word.toNat_lt, UInt32.ofNat_toNat]
  · intro field len
    have same := beBytes_beValue field
    rwa [len, ← toNat_beValue32 len] at same

theorem readUint64_grammar :
    HasGrammar data (readUint64 data) (.encoded fun word => beBytes 8 word.toNat) := by
  refine .ofWidth (fun field => UInt64.ofNat (beValue field)) 8 ?_ ?_ ?_
    (fun _ => beBytes_length _ _) ?_
  · intro offset field behind len at_
    have front : (field.take 4).length = 4 := List.length_take_of_le (by omega)
    have back : (field.drop 4).length = 4 := by rw [List.length_drop, len]
    rw [← List.take_append_drop 4 field, List.append_assoc] at at_
    have read := readUint64_append at_ front back
    rwa [List.take_append_drop] at read
  · intro offset rest word last short at_ run
    exact Throws.not_ok run (readUint64_throws at_ short)
  · intro word
    rw [beValue_beBytes word.toNat_lt, UInt64.ofNat_toNat]
  · intro field len
    have same := beBytes_beValue field
    rwa [len, ← toNat_beValue64 len] at same

theorem load32_leBytes {offset : Nat} {rest : Bytes} (word : UInt32)
    (at_ : At data offset (leBytes 4 word.toNat ++ rest)) :
    load32 data offset = .ok word offset := by
  have small := word.toNat_lt
  rw [load32_append at_ (by simp), leValue_leBytes (by omega), UInt32.ofNat_toNat]

/-- A word that is loaded as it is, or the end in front of it. -/
theorem load32_cases {offset : Nat} {rest : Bytes} (at_ : At data offset rest) :
    (∃ word behind, rest = leBytes 4 (UInt32.toNat word) ++ behind ∧
        load32 data offset = .ok word offset) ∨
      load32 data offset = .error (.undefined .pastTheEnd) offset := by
  rcases Nat.lt_or_ge rest.length 4 with short | enough
  · have size := at_.size_eq
    have outside : ¬ offset + 4 ≤ data.size := by omega
    have fails : copy data 4 offset = .error (.undefined .pastTheEnd) offset := if_neg outside
    exact .inr (by rw [load32, bind_error fails])
  · have len : (rest.take 4).length = 4 := List.length_take_of_le enough
    have small := leValue_lt (rest.take 4)
    have same := leBytes_leValue (rest.take 4)
    rw [len] at small same
    have split : rest = leBytes 4 (UInt32.ofNat (leValue (rest.take 4))).toNat ++ rest.drop 4 := by
      rw [UInt32.toNat_ofNat_of_lt' small, same, List.take_append_drop]
    rw [split] at at_
    exact .inl ⟨_, _, split, load32_leBytes _ at_⟩

theorem load32_sees : Sees data (load32 data) (.encoded fun word => leBytes 4 word.toNat) where
  sound := by
    intro offset rest word last at_ run
    rcases load32_cases at_ with ⟨found, behind, rfl, loads⟩ | fails
    · rw [run] at loads
      cases loads
      exact ⟨_, behind, rfl, rfl⟩
    · rw [run] at fails
      cases fails
  complete := by
    rintro offset behind word field rfl at_
    exact ⟨offset, load32_leBytes word at_⟩

theorem readString_grammar :
    HasGrammar data (readString data) (.encodedIf (0 ∉ ·) encodeString) where
  sound := by
    intro offset rest text last at_ run
    by_cases terminated : 0 ∈ rest
    · obtain ⟨nulFree, behind, split⟩ := split_at_nul terminated
      rw [split] at at_
      rw [readString_append nulFree at_] at run
      cases run
      refine ⟨encodeString (rest.takeWhile (· ≠ 0)), behind, ?_, ⟨nulFree, rfl⟩, ?_⟩
      · rw [encodeString, List.append_assoc]
        exact split
      · rw [encodeString, List.length_append, List.length_singleton]
    · exact absurd (readString_throws terminated at_) (Throws.not_ok run)
  complete := by
    rintro offset behind text field ⟨nulFree, rfl⟩ at_
    exact readString_encode nulFree at_

end Fields

/-! ## Messages -/

/-- A tuple as `parseTuple` reads it: a count and that many columns, of which those of an unknown
kind become `other`. -/
def tupleGrammar (other : List Bytes) : Grammar (List Bytes) := fun values field =>
  ∃ columns : List ReadColumn, columns.length < 2 ^ 16 ∧
    field = beBytes 2 columns.length ++ ReadColumn.encodeAll columns ∧
      values = columns.flatMap (ReadColumn.values other)

theorem parseTupleWith_grammar (data : ByteVec) (other : List Bytes) :
    HasGrammar data (parseTupleWith other data) (tupleGrammar other) where
  sound := by
    intro offset rest values last at_ run
    rcases tuple_cases rest with whole | cut | overlong
    · obtain ⟨count, behind, rfl, len, columns, after, size, rfl⟩ := whole
      obtain ⟨last', ran, atLast⟩ := parseTupleWith_whole other len size at_
      rw [run] at ran
      cases ran
      have field := beBytes_beValue count
      rw [len, ← size] at field
      have small := beValue_lt_of_length len
      refine ⟨count ++ ReadColumn.encodeAll columns, after, (List.append_assoc ..).symm,
        ⟨columns, by omega, by rw [field], rfl⟩, ?_⟩
      have before := at_.size_eq
      have behind := atLast.size_eq
      simp only [List.length_append] at before ⊢
      omega
    · obtain ⟨what, last', ran, -⟩ := parseTupleWith_cut other at_ cut
      rw [run] at ran
      cases ran
    · obtain ⟨last', ran, -⟩ := parseTupleWith_overlong other at_ overlong
      rw [run] at ran
      cases ran
  complete := by
    rintro offset behind values field ⟨columns, small, rfl, rfl⟩ at_
    have size : columns.length = beValue (beBytes 2 columns.length) :=
      (beValue_beBytes (by omega)).symm
    rw [List.append_assoc] at at_
    obtain ⟨last, ran, atLast⟩ := parseTupleWith_whole other (beBytes_length 2 _) size at_
    have before := at_.size_eq
    have after := atLast.size_eq
    rw [ran]
    congr 1
    simp only [List.length_append] at before ⊢
    omega

/-- What a column of an unknown kind becomes: an empty value if the relation is cached. -/
def otherKind (cache : RelationCache) (relationId : UInt32) : List Bytes :=
  if (cache relationId).isSome then [[]] else []

theorem parseRow_grammar (cache : RelationCache) (relationId : UInt32) (data : ByteVec) :
    HasGrammar data (parseRow cache relationId data)
      (tupleGrammar (otherKind cache relationId)) := by
  unfold otherKind
  cases cached : cache relationId with
  | none =>
    rw [parseRow_uncached cached]
    exact parseTupleWith_grammar data []
  | some relation =>
    rw [parseRow_cached cached]
    exact parseTupleWith_grammar data [[]]

/-- The body of a message, as it is read. The transaction id of a BEGIN, and the relations of a
TRUNCATE, are taken in the order of the host; the relations are all the same one. -/
def bodyGrammar (cache : RelationCache) : Grammar ReplicationMessage
  | .begin msg, body => body = beBytes 8 msg.lsn.toNat ++ (beBytes 8 msg.commitTimestamp.toNat ++
      leBytes 4 msg.transactionId.toNat)
  | .commit msg, body => body = msg.flags :: (beBytes 8 msg.lsn.toNat ++
      (beBytes 8 msg.endLsn.toNat ++ beBytes 8 msg.commitTimestamp.toNat))
  | .relation msg, body => msg.Documented ∧ body = msg.encodeBody
  | .insert msg, body => ∃ tuple,
      body = beBytes 4 msg.relationId.toNat ++ msg.tupleType :: tuple ∧
        tupleGrammar (otherKind cache msg.relationId) msg.newTuple tuple
  | .delete msg, body => ∃ flags tuple, body = beBytes 4 msg.relationId.toNat ++ flags :: tuple ∧
      tupleGrammar (otherKind cache msg.relationId) msg.oldTuple tuple
  | .update msg, body => ∃ flags old new,
      body = beBytes 4 msg.relationId.toNat ++ flags :: (old ++ new) ∧
        tupleGrammar (otherKind cache msg.relationId) msg.newTuple new ∧
        if (old ++ new).head? = some (chr 'O') then
          tupleGrammar (otherKind cache msg.relationId) msg.oldTuple old
        else old = [] ∧ msg.oldTuple = []
  | .truncate msg, body => ∃ oid : UInt32,
      msg.relationIds = List.replicate msg.numberOfRelations.toNat oid ∧
        body = beBytes 4 msg.transactionId.toNat ++ (beBytes 4 msg.numberOfRelations.toNat ++
          msg.options :: if msg.numberOfRelations.toNat = 0 then [] else leBytes 4 oid.toNat)

section Messages

variable (data : ByteVec) (cache : RelationCache)

theorem BeginMessage.parse_sees :
    Sees data (BeginMessage.parse data) fun msg body => bodyGrammar cache (.begin msg) body := by
  refine (readUint64_grammar.bindSees fun lsn => readUint64_grammar.bindSees fun timestamp =>
    load32_sees.map fun xid => BeginMessage.mk lsn timestamp xid).congr fun msg body => ?_
  simp only [Grammar.encoded_andThen, Grammar.encoded]
  constructor
  · intro derived
    exact ⟨_, _, derived, _, _, rfl, _, rfl, rfl⟩
  · rintro ⟨lsn, back, rfl, timestamp, back, rfl, xid, rfl, rfl⟩
    rfl

theorem CommitMessage.parse_grammar :
    HasGrammar data (CommitMessage.parse data) fun msg body =>
      bodyGrammar cache (.commit msg) body := by
  refine (HasGrammar.byteThen fun flags => readUint64_grammar.bind fun lsn =>
    readUint64_grammar.bind fun endLsn => readUint64_grammar.map fun timestamp =>
      CommitMessage.mk flags lsn endLsn timestamp).congr fun msg body => ?_
  simp only [Grammar.encoded_andThen, Grammar.encoded]
  constructor
  · intro derived
    exact ⟨_, _, derived, _, _, rfl, _, _, rfl, _, rfl, rfl⟩
  · rintro ⟨flags, back, rfl, lsn, back, rfl, endLsn, back, rfl, timestamp, rfl, rfl⟩
    rfl

theorem InsertMessage.parse_grammar :
    HasGrammar data (InsertMessage.parse cache data) fun msg body =>
      bodyGrammar cache (.insert msg) body := by
  refine (readUint32_grammar.bind fun relationId => readUint8_grammar.bind fun tupleType =>
    (parseRow_grammar cache relationId data).map fun newTuple =>
      InsertMessage.mk relationId tupleType newTuple).congr fun msg body => ?_
  simp only [Grammar.encoded_andThen]
  constructor
  · rintro ⟨tuple, rfl, derived⟩
    exact ⟨_, _, rfl, _, _, rfl, _, rfl, derived⟩
  · rintro ⟨relationId, back, rfl, tupleType, tuple, rfl, newTuple, rfl, derived⟩
    exact ⟨tuple, rfl, derived⟩

theorem DeleteMessage.parse_grammar :
    HasGrammar data (DeleteMessage.parse cache data) fun msg body =>
      bodyGrammar cache (.delete msg) body := by
  refine (readUint32_grammar.bind fun relationId => readUint8_grammar.bind fun flags =>
    (parseRow_grammar cache relationId data).map fun oldTuple =>
      DeleteMessage.mk relationId oldTuple).congr fun msg body => ?_
  simp only [Grammar.encoded_andThen]
  constructor
  · rintro ⟨flags, tuple, rfl, derived⟩
    exact ⟨_, _, rfl, flags, tuple, rfl, _, rfl, derived⟩
  · rintro ⟨relationId, back, rfl, flags, tuple, rfl, oldTuple, rfl, derived⟩
    exact ⟨flags, tuple, rfl, derived⟩

theorem tupleGrammar_ne_nil {other values : List Bytes} {field : Bytes}
    (derived : tupleGrammar other values field) : field ≠ [] := by
  obtain ⟨columns, -, rfl, -⟩ := derived
  intro nothing
  have length := congrArg List.length nothing
  rw [List.length_append, beBytes_length] at length
  simp at length

theorem UpdateMessage.parseTuples_grammar (relationId : UInt32) (hasOldTuple : UInt8) :
    HasGrammar data (UpdateMessage.parseTuples cache relationId hasOldTuple data)
      fun msg field => ∃ old new, field = old ++ new ∧ msg.relationId = relationId ∧
        tupleGrammar (otherKind cache relationId) msg.newTuple new ∧
        if hasOldTuple = chr 'O' then
          tupleGrammar (otherKind cache relationId) msg.oldTuple old
        else old = [] ∧ msg.oldTuple = [] := by
  have row := parseRow_grammar cache relationId data
  have first : HasGrammar data
      (if hasOldTuple = chr 'O' then parseRow cache relationId data else pure [])
      fun oldTuple old =>
        if hasOldTuple = chr 'O' then tupleGrammar (otherKind cache relationId) oldTuple old
        else old = [] ∧ oldTuple = [] := by
    split
    · exact row
    · exact (HasGrammar.pure []).congr fun _ _ => and_comm
  have parts : UpdateMessage.parseTuples cache relationId hasOldTuple data =
      (if hasOldTuple = chr 'O' then parseRow cache relationId data else pure []) >>=
        fun oldTuple => do
          return UpdateMessage.mk relationId oldTuple (← parseRow cache relationId data) := by
    unfold UpdateMessage.parseTuples
    split <;> rfl
  rw [parts]
  refine (first.bind fun oldTuple => row.map fun newTuple =>
    UpdateMessage.mk relationId oldTuple newTuple).congr fun msg field => ?_
  constructor
  · rintro ⟨old, new, rfl, rfl, derived, derived'⟩
    exact ⟨_, old, new, rfl, derived', _, rfl, derived⟩
  · rintro ⟨oldTuple, old, new, rfl, derived', newTuple, rfl, derived⟩
    exact ⟨old, new, rfl, rfl, derived, derived'⟩

theorem UpdateMessage.parse_grammar :
    HasGrammar data (UpdateMessage.parse cache data) fun msg body =>
      bodyGrammar cache (.update msg) body := by
  refine (readUint32_grammar.bind fun relationId => readUint8_grammar.bind fun flags =>
    HasGrammar.peekBind (fun hasOldTuple =>
      UpdateMessage.parseTuples_grammar data cache relationId hasOldTuple) ?_).congr
    fun msg body => ?_
  · rintro hasOldTuple msg field ⟨old, new, rfl, -, derived, -⟩
    exact List.append_ne_nil_of_right_ne_nil old (tupleGrammar_ne_nil derived)
  · simp only [Grammar.encoded_andThen]
    constructor
    · rintro ⟨flags, old, new, rfl, derived, derived'⟩
      have some_ := List.append_ne_nil_of_right_ne_nil old (tupleGrammar_ne_nil derived)
      obtain ⟨first, head⟩ := Option.isSome_iff_exists.mp (List.isSome_head?.mpr some_)
      refine ⟨_, _, rfl, flags, _, rfl, first, head, old, new, rfl, rfl, derived, ?_⟩
      simpa only [head, Option.some.injEq] using derived'
    · rintro ⟨relationId, back, rfl, flags, back, rfl, first, head, old, new, rfl, rfl, derived,
        derived'⟩
      refine ⟨flags, old, new, rfl, derived, ?_⟩
      simpa only [head, Option.some.injEq] using derived'

theorem RelationMessage.encodeColumns_column (flags : UInt8) (name : Bytes) (typeId : UInt32)
    (typeModifier : Int32) (columns : List Column) :
    encodeColumns (⟨flags, name, typeId, typeModifier⟩ :: columns) =
      [flags] ++ (encodeString name ++ (beBytes 4 typeId.toNat ++
        (beBytes 4 typeModifier.toUInt32.toNat ++ encodeColumns columns))) := by
  have cons : encodeColumns (⟨flags, name, typeId, typeModifier⟩ :: columns) =
      (⟨flags, name, typeId, typeModifier⟩ : Column).encode ++ encodeColumns columns := rfl
  rw [cons, Column.encode]
  simp only [List.cons_append, List.nil_append, List.append_assoc]

theorem RelationMessage.parseColumns_grammar (n : Nat) (front : List Column) :
    HasGrammar data (RelationMessage.parseColumns data n front) fun columns field =>
      ∃ new, columns = front ++ new ∧ new.length = n ∧ (∀ column ∈ new, 0 ∉ column.name) ∧
        field = encodeColumns new := by
  induction n generalizing front with
  | zero =>
    refine (HasGrammar.pure front).congr fun columns field => ?_
    constructor
    · rintro ⟨new, rfl, none, -, rfl⟩
      rw [List.length_eq_zero_iff.mp none]
      exact ⟨List.append_nil front, rfl⟩
    · rintro ⟨rfl, rfl⟩
      exact ⟨[], (List.append_nil columns).symm, rfl, by simp, rfl⟩
  | succ n ih =>
    refine (readUint8_grammar.bind fun flags => readString_grammar.bind fun name =>
      readUint32_grammar.bind fun typeId => readUint32_grammar.bind fun typeModifier =>
        ih (front ++ [⟨flags, name, typeId, typeModifier.toInt32⟩])).congr fun columns field => ?_
    simp only [Grammar.encoded_andThen, Grammar.encodedIf_andThen]
    constructor
    · rintro ⟨new, rfl, count, nulFree, rfl⟩
      cases new with
      | nil => cases count
      | cons column new =>
        obtain ⟨flags, name, typeId, typeModifier⟩ := column
        refine ⟨flags, _, encodeColumns_column .., name, _, rfl, nulFree _ List.mem_cons_self,
          typeId, _, rfl, typeModifier.toUInt32, _, rfl, new, ?_, Nat.succ.inj count,
          fun other mem => nulFree other (List.mem_cons_of_mem _ mem), rfl⟩
        rw [Int32.toInt32_toUInt32, List.append_assoc, List.singleton_append]
    · rintro ⟨flags, back, rfl, name, back, rfl, nulFree, typeId, back, rfl, typeModifier, back,
        rfl, new, rfl, count, nulFree', rfl⟩
      refine ⟨⟨flags, name, typeId, typeModifier.toInt32⟩ :: new, ?_, ?_, ?_, ?_⟩
      · rw [List.append_assoc, List.singleton_append]
      · rw [List.length_cons, count]
      · intro column mem
        rcases List.mem_cons.mp mem with rfl | later
        · exact nulFree
        · exact nulFree' column later
      · rw [encodeColumns_column, UInt32.toUInt32_toInt32]

theorem RelationMessage.parse_grammar :
    HasGrammar data (RelationMessage.parse data) fun msg body =>
      bodyGrammar cache (.relation msg) body := by
  refine (readUint32_grammar.bind fun relationId => readString_grammar.bind fun nspname =>
    readString_grammar.bind fun relationName => HasGrammar.byteThen fun replicaIdentity =>
      readUint16_grammar.bind fun numColumns =>
        (RelationMessage.parseColumns_grammar data numColumns.toNat []).map fun columns =>
          RelationMessage.mk relationId nspname relationName replicaIdentity columns).congr
    fun msg body => ?_
  simp only [Grammar.encoded_andThen, Grammar.encodedIf_andThen]
  constructor
  · rintro ⟨documented, rfl⟩
    obtain ⟨relationId, nspname, relationName, replicaIdentity, columns⟩ := msg
    have count : (UInt16.ofNat columns.length).toNat = columns.length :=
      UInt16.toNat_ofNat_of_lt' documented.count_lt
    refine ⟨relationId, _, rfl, nspname, _, rfl, documented.nspname_nulFree, relationName, _, rfl,
      documented.relationName_nulFree, replicaIdentity,
      beBytes 2 columns.length ++ encodeColumns columns, rfl, .ofNat columns.length,
      encodeColumns columns, ?_, columns, rfl, columns, rfl, count.symm, documented.names_nulFree,
      rfl⟩
    rw [count]
  · rintro ⟨relationId, back, rfl, nspname, back, rfl, nulFree, relationName, back, rfl, nulFree',
      replicaIdentity, back, rfl, numColumns, back, rfl, columns, rfl, new, rfl, count, nulFree'',
      rfl⟩
    refine ⟨⟨nulFree, nulFree', nulFree'', ?_⟩, ?_⟩
    · show columns.length < 2 ^ 16
      rw [count]
      exact numColumns.toNat_lt
    · simp only [RelationMessage.encodeBody, count]
      rfl

/-- The loop takes the same relation in each round. -/
theorem TruncateMessage.parseOids_same {offset : Nat} {oid : UInt32}
    (loads : load32 data offset = .ok oid offset) (n : Nat) (front : List UInt32) :
    TruncateMessage.parseOids data n front offset = .ok (front ++ List.replicate n oid) offset := by
  induction n generalizing front with
  | zero =>
    rw [List.replicate_zero, List.append_nil]
    rfl
  | succ n ih =>
    rw [TruncateMessage.parseOids, bind_ok loads, ih, List.append_assoc, List.replicate_succ,
      List.singleton_append]

theorem TruncateMessage.parseOids_sees (n : Nat) :
    Sees data (TruncateMessage.parseOids data n []) fun relationIds field =>
      ∃ oid : UInt32, relationIds = List.replicate n oid ∧
        field = if n = 0 then [] else leBytes 4 oid.toNat where
  sound := by
    intro offset rest relationIds last at_ run
    cases n with
    | zero =>
      cases run
      exact ⟨[], rest, rfl, 0, rfl, rfl⟩
    | succ n =>
      rcases load32_cases at_ with ⟨oid, behind, rfl, loads⟩ | fails
      · rw [TruncateMessage.parseOids_same data loads] at run
        cases run
        exact ⟨leBytes 4 oid.toNat, behind, rfl, oid, rfl, (if_neg (Nat.succ_ne_zero n)).symm⟩
      · rw [TruncateMessage.parseOids, bind_error fails] at run
        cases run
  complete := by
    rintro offset behind relationIds field ⟨oid, rfl, rfl⟩ at_
    cases n with
    | zero => exact ⟨offset, rfl⟩
    | succ n =>
      rw [if_neg (Nat.succ_ne_zero n)] at at_
      exact ⟨offset, TruncateMessage.parseOids_same data (load32_leBytes oid at_) _ []⟩

theorem TruncateMessage.parse_sees :
    Sees data (TruncateMessage.parse data) fun msg body =>
      bodyGrammar cache (.truncate msg) body := by
  refine (readUint32_grammar.bindSees fun transactionId => readUint32_grammar.bindSees
    fun numberOfRelations => HasGrammar.byteThenSees fun options =>
      (TruncateMessage.parseOids_sees data numberOfRelations.toNat).map fun relationIds =>
        TruncateMessage.mk transactionId numberOfRelations options relationIds).congr
    fun msg body => ?_
  simp only [Grammar.encoded_andThen]
  constructor
  · rintro ⟨oid, same, rfl⟩
    obtain ⟨transactionId, numberOfRelations, options, relationIds⟩ := msg
    obtain rfl : relationIds = List.replicate numberOfRelations.toNat oid := same
    exact ⟨transactionId, _, rfl, numberOfRelations, _, rfl, options, _, rfl, _, rfl, oid, rfl, rfl⟩
  · rintro ⟨transactionId, back, rfl, numberOfRelations, back, rfl, options, back, rfl, relationIds,
      rfl, oid, rfl, rfl⟩
    exact ⟨oid, rfl, rfl⟩

end Messages

/-! ## `parseMessage` -/

namespace ReplicationMessage

/-- The byte in front of the body. -/
def msgType : ReplicationMessage → UInt8
  | .begin _ => chr 'B'
  | .commit _ => chr 'C'
  | .relation _ => chr 'R'
  | .insert _ => chr 'I'
  | .update _ => chr 'U'
  | .delete _ => chr 'D'
  | .truncate _ => chr 'T'

/-- Where the body is looked for behind that byte: a TRUNCATE at the uninitialised offset. -/
def bodyStart (offset0 : Nat) : ReplicationMessage → Nat
  | .truncate _ => offset0
  | _ => 0

end ReplicationMessage

section Parse

variable {data : ByteVec} {cache : RelationCache}

theorem Misc.Sees.result_iff {α : Type} {read : Reader α} {P : Grammar α} (sees : Sees data read P)
    {offset : Nat} {rest : Bytes} (at_ : At data offset rest) (wrap : α → ReplicationMessage)
    (msg : ReplicationMessage) :
    (read.result offset).map (some ∘ wrap) = .ok (some msg) ↔
      ∃ a, msg = wrap a ∧ ∃ body behind, rest = body ++ behind ∧ P a body := by
  unfold Misc.Reader.result
  constructor
  · intro returned
    cases run : read offset with
    | ok a last =>
      rw [run] at returned
      cases returned
      exact ⟨a, rfl, sees.sound at_ run⟩
    | error fault last =>
      rw [run] at returned
      cases returned
  · rintro ⟨a, rfl, body, behind, rfl, derived⟩
    obtain ⟨last, run⟩ := sees.complete derived at_
    rw [run]
    rfl

theorem truncate_outside {offset0 : Nat} (outside : data.size < offset0)
    (msg : ReplicationMessage) :
    ((TruncateMessage.parse data).result offset0).map (some ∘ .truncate) ≠ .ok (some msg) := by
  have beyond : ¬ offset0 + 4 ≤ data.size := by omega
  have fails : copy data 4 offset0 = .error (.undefined .pastTheEnd) offset0 := if_neg beyond
  have stops : ∃ fault, readUint32 data offset0 = .error fault offset0 := by
    have loads : load32 data offset0 = .error (.undefined .pastTheEnd) offset0 := by
      rw [load32, bind_error fails]
    by_cases short : sizeAdd offset0 4 > data.size
    · have throws : require data 4 "Buffer underflow in read_uint8" offset0 =
          .error (.exception "Buffer underflow in read_uint8") offset0 := if_pos short
      exact ⟨_, by rw [readUint32, bind_error throws]⟩
    · have passes : require data 4 "Buffer underflow in read_uint8" offset0 = .ok () offset0 :=
        if_neg short
      exact ⟨_, by rw [readUint32, bind_ok passes, bind_error loads]⟩
  obtain ⟨fault, stops⟩ := stops
  rw [Misc.Reader.result, TruncateMessage.parse, bind_error stops]
  intro returned
  cases returned

theorem parseBody_some_iff (offset0 : Nat) (cache : RelationCache) (msgType : UInt8)
    (data : ByteVec) (msg : ReplicationMessage) :
    parseBody offset0 cache msgType data = .ok (some msg) ↔
      msgType = msg.msgType ∧ ∃ body behind,
        data.bytes.drop (msg.bodyStart offset0) = body ++ behind ∧ bodyGrammar cache msg body := by
  have start := At.start data
  constructor
  · intro parsed
    unfold parseBody at parsed
    split_ifs at parsed with isB isC isR isI isU isD isT
    · obtain ⟨m, rfl, rest⟩ := ((BeginMessage.parse_sees data cache).result_iff start _ _).mp parsed
      exact ⟨isB, rest⟩
    · obtain ⟨m, rfl, rest⟩ :=
        ((CommitMessage.parse_grammar data cache).sees.result_iff start _ _).mp parsed
      exact ⟨isC, rest⟩
    · obtain ⟨m, rfl, rest⟩ :=
        ((RelationMessage.parse_grammar data cache).sees.result_iff start _ _).mp parsed
      exact ⟨isR, rest⟩
    · obtain ⟨m, rfl, rest⟩ :=
        ((InsertMessage.parse_grammar data cache).sees.result_iff start _ _).mp parsed
      exact ⟨isI, rest⟩
    · obtain ⟨m, rfl, rest⟩ :=
        ((UpdateMessage.parse_grammar data cache).sees.result_iff start _ _).mp parsed
      exact ⟨isU, rest⟩
    · obtain ⟨m, rfl, rest⟩ :=
        ((DeleteMessage.parse_grammar data cache).sees.result_iff start _ _).mp parsed
      exact ⟨isD, rest⟩
    · rcases Nat.lt_or_ge data.size offset0 with outside | inside
      · exact absurd parsed (truncate_outside outside msg)
      · have at_ : At data offset0 (data.bytes.drop offset0) := ⟨inside, rfl⟩
        obtain ⟨m, rfl, rest⟩ :=
          ((TruncateMessage.parse_sees data cache).result_iff at_ _ _).mp parsed
        exact ⟨isT, rest⟩
    · cases parsed
  · rintro ⟨rfl, rest⟩
    cases msg with
    | begin m =>
      exact ((BeginMessage.parse_sees data cache).result_iff start _ _).mpr ⟨m, rfl, rest⟩
    | commit m =>
      exact ((CommitMessage.parse_grammar data cache).sees.result_iff start _ _).mpr ⟨m, rfl, rest⟩
    | relation m =>
      exact ((RelationMessage.parse_grammar data cache).sees.result_iff start _ _).mpr
        ⟨m, rfl, rest⟩
    | insert m =>
      exact ((InsertMessage.parse_grammar data cache).sees.result_iff start _ _).mpr ⟨m, rfl, rest⟩
    | update m =>
      exact ((UpdateMessage.parse_grammar data cache).sees.result_iff start _ _).mpr ⟨m, rfl, rest⟩
    | delete m =>
      exact ((DeleteMessage.parse_grammar data cache).sees.result_iff start _ _).mpr ⟨m, rfl, rest⟩
    | truncate m =>
      rcases Nat.lt_or_ge data.size offset0 with outside | inside
      · obtain ⟨body, behind, split, oid, -, rfl⟩ := rest
        have nothing : data.bytes.drop offset0 = [] := List.drop_eq_nil_of_le (Nat.le_of_lt outside)
        have length := congrArg List.length (nothing.symm.trans split)
        rw [List.append_assoc, List.length_append, beBytes_length] at length
        simp at length
      · have at_ : At data offset0 (data.bytes.drop offset0) := ⟨inside, rfl⟩
        exact ((TruncateMessage.parse_sees data cache).result_iff at_ _ _).mpr ⟨m, rfl, rest⟩

/-- Whatever the bytes and the cache, `parseMessage` returns a message just where they are its type
and what its grammar derives for it, with anything behind. -/
theorem parseMessage_some_iff (offset0 : Nat) (rawMessage : ByteVec)
    (cache cache' : RelationCache) (msg : ReplicationMessage) :
    parseMessage offset0 rawMessage cache = .ok (some msg) cache' ↔
      (∃ cleanData body behind, rawMessage.bytes = msg.msgType :: cleanData ∧
        cleanData.drop (msg.bodyStart offset0) = body ++ behind ∧ bodyGrammar cache msg body) ∧
        cache' = cacheRelation msg cache := by
  unfold parseMessage
  cases bytes : rawMessage.bytes with
  | nil => simp
  | cons msgType cleanData =>
    have dropped : (rawMessage.dropFront 1).bytes = cleanData := by
      rw [ByteVec.dropFront_bytes, bytes]
      rfl
    have parsed_iff := parseBody_some_iff offset0 cache msgType (rawMessage.dropFront 1) msg
    rw [dropped] at parsed_iff
    have there : (∃ cleanData' body behind, msgType :: cleanData = msg.msgType :: cleanData' ∧
        cleanData'.drop (msg.bodyStart offset0) = body ++ behind ∧ bodyGrammar cache msg body) ↔
        parseBody offset0 cache msgType (rawMessage.dropFront 1) = .ok (some msg) := by
      rw [parsed_iff]
      constructor
      · rintro ⟨_, body, behind, same, split, derived⟩
        obtain ⟨rfl, rfl⟩ := List.cons.inj same
        exact ⟨rfl, body, behind, split, derived⟩
      · rintro ⟨rfl, body, behind, split, derived⟩
        exact ⟨cleanData, body, behind, rfl, split, derived⟩
    rw [there]
    cases run : parseBody offset0 cache msgType (rawMessage.dropFront 1) with
    | ok found =>
      cases found with
      | none => simp [run]
      | some found =>
        simp only [run, EStateM.Result.ok.injEq, Option.some.injEq, Except.ok.injEq]
        constructor
        · rintro ⟨rfl, rfl⟩
          exact ⟨rfl, rfl⟩
        · rintro ⟨rfl, rfl⟩
          exact ⟨rfl, rfl⟩
    | error fault => cases fault <;> simp [run]

end Parse

end KafkaReplication
