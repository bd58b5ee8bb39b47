import KafkaReplication.Producer.MessageDecode
import KafkaReplication.Producer.TupleGrammar

/-!
# Messages that end too early

What the `parse` members (`producer_azs/replication_message.cpp:14-153,253-289`) make of a body
that breaks off. The readers throw at the end of the vector; the raw accesses between them
(`data[offset++]`, `*reinterpret_cast<const uint32_t*>(...)`) do not look at it.
-/

namespace KafkaReplication
open Misc PgOutputParser

/-! ## Cuts -/

/-- `cut` is a strict prefix of `whole`. -/
def CutOf {α : Type} (cut whole : List α) : Prop := ∃ missing, missing ≠ [] ∧ whole = cut ++ missing

section Cuts

variable {α : Type} {cut front back : List α}

theorem CutOf.length_lt {whole : List α} (isCut : CutOf cut whole) :
    cut.length < whole.length := by
  obtain ⟨missing, some_, rfl⟩ := isCut
  have := List.length_pos_iff.mpr some_
  rw [List.length_append]
  omega

/-- A cut lies in the first part, or behind it. -/
theorem CutOf.append_cases (isCut : CutOf cut (front ++ back)) :
    CutOf cut front ∨ ∃ rest, cut = front ++ rest ∧ CutOf rest back := by
  obtain ⟨missing, some_, same⟩ := isCut
  rcases List.append_eq_append_iff.mp same with ⟨rest, rfl, rfl⟩ | ⟨rest, rfl, rfl⟩
  · exact .inr ⟨rest, rfl, missing, some_, rfl⟩
  · by_cases nothing : rest = []
    · subst nothing
      exact .inr ⟨[], by simp, back, some_, rfl⟩
    · exact .inl ⟨rest, nothing, rfl⟩

theorem CutOf.cons_cases {a : α} (isCut : CutOf cut (a :: back)) :
    cut = [] ∨ ∃ rest, cut = a :: rest ∧ CutOf rest back := by
  have parts : CutOf cut ([a] ++ back) := isCut
  rcases parts.append_cases with inside | behind
  · have short := inside.length_lt
    exact .inl (List.length_eq_zero_iff.mp (by simpa using short))
  · exact .inr behind

end Cuts

/-! ## Readers that throw -/

/-- The reader throws a `std::exception` at this offset. -/
def Throws {α : Type} (x : Reader α) (offset : Nat) : Prop :=
  ∃ what last, x offset = .error (.exception what) last

section Readers

variable {α β : Type} {x : Reader α} {f : α → Reader β} {data : ByteVec} {offset offset' : Nat}
  {cut rest : Bytes}

theorem Throws.first (throws : Throws x offset) : Throws (x >>= f) offset := by
  obtain ⟨what, last, run⟩ := throws
  exact ⟨what, last, bind_error run⟩

theorem throws_bind_ok {a : α} (run : x offset = .ok a offset') :
    Throws (x >>= f) offset ↔ Throws (f a) offset' := by
  rw [Throws, Throws, bind_ok run]

theorem Throws.next {a : α} (run : x offset = .ok a offset') (throws : Throws (f a) offset') :
    Throws (x >>= f) offset := (throws_bind_ok run).mpr throws

theorem Throws.not_ok {a : α} (run : x offset = .ok a offset') : ¬ Throws x offset := by
  rintro ⟨what, last, thrown⟩
  rw [run] at thrown
  cases thrown

theorem Throws.not_undefined {why : Undefined} (run : x offset = .error (.undefined why) offset') :
    ¬ Throws x offset := by
  rintro ⟨what, last, thrown⟩
  rw [run] at thrown
  cases thrown

/-- What follows does not throw, so the first part decides. -/
theorem throws_bind_iff (returns : ∀ a offset', ¬ Throws (f a) offset') :
    Throws (x >>= f) offset ↔ Throws x offset := by
  refine ⟨fun throws => ?_, Throws.first⟩
  obtain ⟨what, last, thrown⟩ := throws
  cases run : x offset with
  | ok a offset' =>
    rw [bind_ok run] at thrown
    exact absurd ⟨what, last, thrown⟩ (returns a offset')
  | error fault offset' =>
    rw [bind_error run] at thrown
    cases thrown
    exact ⟨what, last, run⟩

theorem readUint8_throws (at_ : At data offset []) : Throws (readUint8 data) offset :=
  ⟨_, _, readUint8_nil at_⟩

theorem readUint16_throws (at_ : At data offset rest) (short : rest.length < 2) :
    Throws (readUint16 data) offset := ⟨_, _, readUint16_short at_ short⟩

theorem readUint32_throws (at_ : At data offset rest) (short : rest.length < 4) :
    Throws (readUint32 data) offset := ⟨_, _, readUint32_short at_ short⟩

theorem readUint64_throws (at_ : At data offset rest) (short : rest.length < 8) :
    Throws (readUint64 data) offset :=
  ⟨_, _, by rw [readUint64, bind_error (at_.require_short short (by omega) _)]⟩

/-- Eight bytes are enough. -/
theorem readUint64_returns (at_ : At data offset rest) (enough : 8 ≤ rest.length) :
    ∃ value, readUint64 data offset = .ok value (offset + 8) ∧
      At data (offset + 8) (rest.drop 8) := by
  have high : (rest.take 4).length = 4 := List.length_take_of_le (by omega)
  have low : ((rest.drop 4).take 4).length = 4 :=
    List.length_take_of_le (by rw [List.length_drop]; omega)
  have twice : (rest.drop 4).drop 4 = rest.drop 8 := by rw [List.drop_drop]
  have split : rest = rest.take 4 ++ ((rest.drop 4).take 4 ++ rest.drop 8) := by
    rw [← twice, List.take_append_drop, List.take_append_drop]
  have whole : At data offset (rest.take 8 ++ rest.drop 8) := by
    rwa [List.take_append_drop]
  have behind := whole.advance
  rw [List.length_take_of_le enough] at behind
  rw [split] at at_
  exact ⟨_, readUint64_append at_ high low, behind⟩

/-- Without a NUL the loop takes all there is. -/
theorem readStringLoop_unterminated (front : Bytes) (nulFree : 0 ∉ rest)
    (at_ : At data offset rest) :
    readStringLoop data rest front offset = .ok (front ++ rest) (offset + rest.length) := by
  induction rest generalizing front offset with
  | nil =>
    rw [List.append_nil]
    rfl
  | cons c rest ih =>
    rw [List.mem_cons, not_or] at nulFree
    rw [readStringLoop, if_neg (Ne.symm nulFree.1), bind_ok (advance_at at_ (by omega)),
      ih (front ++ [c]) nulFree.2 at_.advance_cons]
    simp only [List.append_assoc, List.singleton_append, List.length_cons, Nat.add_comm,
      Nat.add_left_comm]

theorem readString_throws (nulFree : 0 ∉ rest) (at_ : At data offset rest) :
    Throws (readString data) offset := by
  unfold readString
  cases rest with
  | nil => exact Throws.first ⟨_, _, at_.requireNext_nil _⟩
  | cons c rest =>
    have loop := readStringLoop_unterminated [] nulFree at_
    have ended : At data (offset + (c :: rest).length) [] := by
      have whole : At data offset ((c :: rest) ++ []) := by rwa [List.append_nil]
      exact whole.advance
    have offset_eq : (get : Reader Nat) offset = .ok offset offset := rfl
    rw [← at_.drop_eq] at loop
    refine Throws.next (at_.requireNext_cons _) (Throws.next offset_eq (Throws.next loop ?_))
    rw [at_.drop_eq]
    exact Throws.first ⟨_, _, ended.requireNext_nil _⟩

/-- A text that breaks off has lost its NUL. -/
theorem readString_cut {text : Bytes} (nulFree : 0 ∉ text) (isCut : CutOf cut (encodeString text))
    (at_ : At data offset cut) : Throws (readString data) offset := by
  apply readString_throws _ at_
  rcases isCut.append_cases with ⟨missing, _, rfl⟩ | ⟨rest, rfl, inside⟩
  · exact fun member => nulFree (List.mem_append_left _ member)
  · rcases inside.cons_cases with rfl | ⟨_, _, nothing⟩
    · rwa [List.append_nil]
    · exact absurd nothing.length_lt (by simp)

end Readers

/-! ## Begin and Commit -/

section Transactions

variable {data : ByteVec}

/-- Only the two words in front of the transaction id are checked for. -/
theorem BeginMessage.throws_iff (short : data.size < 20) :
    Throws (BeginMessage.parse data) 0 ↔ data.size < 16 := by
  have start := At.start data
  have size : data.bytes.length = data.size := rfl
  unfold BeginMessage.parse
  rcases Nat.lt_or_ge data.size 8 with noLsn | lsn
  · exact ⟨fun _ => by omega, fun _ => (readUint64_throws start noLsn).first⟩
  obtain ⟨lsnValue, lsnRead, atTimestamp⟩ := readUint64_returns start lsn
  rcases Nat.lt_or_ge data.size 16 with noTimestamp | timestamp
  · refine ⟨fun _ => noTimestamp, fun _ => Throws.next lsnRead (Throws.first ?_)⟩
    exact readUint64_throws atTimestamp (by rw [List.length_drop]; omega)
  obtain ⟨timestampValue, timestampRead, atXid⟩ :=
    readUint64_returns atTimestamp (by rw [List.length_drop]; omega)
  have leaves : copy data 4 (0 + 8 + 8) = .error (.undefined .pastTheEnd) (0 + 8 + 8) := by
    rw [copy, if_neg (by omega)]
  rw [throws_bind_ok lsnRead, throws_bind_ok timestampRead]
  refine ⟨fun throws => ?_, fun shorter => by omega⟩
  exact absurd throws (Throws.not_undefined (bind_error (bind_error leaves)))

/-- The flags are taken from wherever the vector begins. -/
theorem CommitMessage.throws_iff (short : data.size < 25) :
    Throws (CommitMessage.parse data) 0 ↔ data.bytes ≠ [] := by
  have start := At.start data
  have size : data.bytes.length = data.size := rfl
  unfold CommitMessage.parse
  cases bytes : data.bytes with
  | nil =>
    rw [bytes] at start
    refine ⟨fun throws => ?_, fun some_ => absurd rfl some_⟩
    exact absurd throws (Throws.not_undefined (bind_error start.peek_nil))
  | cons flags rest =>
    rw [bytes] at start size
    rw [List.length_cons] at size
    refine ⟨fun _ => List.cons_ne_nil _ _, fun _ => ?_⟩
    refine Throws.next start.peek_cons (Throws.next (advance_at start (by omega)) ?_)
    have atLsn := start.advance_cons
    rcases Nat.lt_or_ge rest.length 8 with noLsn | lsn
    · exact (readUint64_throws atLsn noLsn).first
    obtain ⟨_, lsnRead, atEnd⟩ := readUint64_returns atLsn lsn
    refine Throws.next lsnRead ?_
    rcases Nat.lt_or_ge rest.length 16 with noEnd | end_
    · exact (readUint64_throws atEnd (by rw [List.length_drop]; omega)).first
    obtain ⟨_, endRead, atTimestamp⟩ :=
      readUint64_returns atEnd (by rw [List.length_drop]; omega)
    refine Throws.next endRead (Throws.first ?_)
    exact readUint64_throws atTimestamp (by simp only [List.length_drop]; omega)

end Transactions

/-! ## Relation -/

namespace RelationMessage

variable {data : ByteVec} {offset : Nat} {cut : Bytes}

/-- A column that breaks off. -/
theorem parseColumns_cutColumn {column : Column} (nulFree : 0 ∉ column.name)
    (isCut : CutOf cut column.encode) (n : Nat) (columns : List Column)
    (at_ : At data offset cut) :
    Throws (RelationMessage.parseColumns data (n + 1) columns) offset := by
  unfold RelationMessage.parseColumns
  rcases isCut.cons_cases with rfl | ⟨afterFlags, rfl, cutName⟩
  · exact (readUint8_throws at_).first
  refine Throws.next (readUint8_cons at_) ?_
  have atName := at_.advance_cons
  rcases cutName.append_cases with inName | ⟨afterName, rfl, cutType⟩
  · exact (readString_cut nulFree inName atName).first
  refine Throws.next (readString_encode nulFree atName) ?_
  have atType := atName.advance
  rcases cutType.append_cases with inType | ⟨afterType, rfl, cutModifier⟩
  · have short := inType.length_lt
    rw [beBytes_length] at short
    exact (readUint32_throws atType short).first
  refine Throws.next (readUint32_word _ atType) ?_
  have atModifier := atType.advance
  have short := cutModifier.length_lt
  rw [beBytes_length] at short atModifier
  exact (readUint32_throws atModifier short).first

theorem parseColumns_cut {columns : List Column} (nulFree : ∀ column ∈ columns, 0 ∉ column.name)
    (isCut : CutOf cut (encodeColumns columns)) (front : List Column) (at_ : At data offset cut) :
    Throws (RelationMessage.parseColumns data columns.length front) offset := by
  induction columns generalizing front offset cut with
  | nil => exact absurd isCut.length_lt (by simp [encodeColumns])
  | cons column columns ih =>
    have cons : encodeColumns (column :: columns) = column.encode ++ encodeColumns columns := rfl
    have first := nulFree column List.mem_cons_self
    rw [cons] at isCut
    rw [List.length_cons]
    rcases isCut.append_cases with inColumn | ⟨rest, rfl, behind⟩
    · exact parseColumns_cutColumn first inColumn _ _ at_
    · have goesOn := parseColumns_column first columns.length front at_
      obtain ⟨what, last, thrown⟩ := ih (fun c mem => nulFree c (List.mem_cons_of_mem column mem))
        behind (front ++ [column]) at_.advance
      exact ⟨what, last, goesOn.trans thrown⟩

/-- Everything is checked for but the replica identity. -/
theorem throws_iff {relation : RelationMessage} (documented : relation.Documented)
    (isCut : CutOf data.bytes relation.encodeBody) :
    Throws (RelationMessage.parse data) 0 ↔
      data.size ≠ 4 + (encodeString relation.nspname).length +
        (encodeString relation.relationName).length := by
  have start := At.start data
  have size : data.bytes.length = data.size := rfl
  unfold RelationMessage.parse
  generalize data.bytes = cut at isCut start size
  rcases isCut.append_cases with inId | ⟨afterId, rfl, cutNspname⟩
  · have short := inId.length_lt
    rw [beBytes_length] at short
    exact ⟨fun _ => by omega, fun _ => (readUint32_throws start short).first⟩
  have atNspname := start.advance
  rw [List.length_append, beBytes_length] at size
  rw [beBytes_length] at atNspname
  have idRead := readUint32_word relation.relationId start
  rcases cutNspname.append_cases with inNspname | ⟨afterNspname, rfl, cutName⟩
  · have short := inNspname.length_lt
    refine ⟨fun _ => by omega, fun _ => Throws.next idRead (Throws.first ?_)⟩
    exact readString_cut documented.nspname_nulFree inNspname atNspname
  have atName := atNspname.advance
  rw [List.length_append] at size
  have nspnameRead := readString_encode documented.nspname_nulFree atNspname
  rcases cutName.append_cases with inName | ⟨afterName, rfl, cutIdentity⟩
  · have short := inName.length_lt
    refine ⟨fun _ => by omega,
      fun _ => Throws.next idRead (Throws.next nspnameRead (Throws.first ?_))⟩
    exact readString_cut documented.relationName_nulFree inName atName
  have atIdentity := atName.advance
  rw [List.length_append] at size
  have nameRead := readString_encode documented.relationName_nulFree atName
  rcases cutIdentity.cons_cases with rfl | ⟨afterIdentity, rfl, cutCount⟩
  · -- the identity is read without a look at the end
    rw [List.length_nil] at size
    rw [throws_bind_ok idRead, throws_bind_ok nspnameRead, throws_bind_ok nameRead]
    refine ⟨fun throws => ?_, fun other => absurd size.symm (by omega)⟩
    exact absurd throws (Throws.not_undefined (bind_error atIdentity.peek_nil))
  rw [List.length_cons] at size
  refine ⟨fun _ => by omega, fun _ => Throws.next idRead (Throws.next nspnameRead
    (Throws.next nameRead (Throws.next atIdentity.peek_cons (Throws.next
      (advance_at atIdentity (by omega)) ?_))))⟩
  have atCount := atIdentity.advance_cons
  rcases cutCount.append_cases with inCount | ⟨afterCount, rfl, cutColumns⟩
  · have short := inCount.length_lt
    rw [beBytes_length] at short
    exact (readUint16_throws atCount short).first
  have count := toNat_beBytes16 documented.count_lt
  have atColumns := atCount.advance
  rw [beBytes_length] at atColumns
  refine Throws.next (readUint16_append atCount (beBytes_length 2 _)) (Throws.first ?_)
  rw [count]
  exact parseColumns_cut documented.names_nulFree cutColumns [] atColumns

end RelationMessage

/-! ## Update -/

/-- A whole tuple and behind it one that is cut. -/
def SecondCut (bytes : Bytes) : Prop :=
  ∃ count columns behind, bytes = count ++ (ReadColumn.encodeAll columns ++ behind) ∧
    count.length = 2 ∧ columns.length = beValue count ∧ CutTuple behind

/-- The cuts that the tuples of an Update message notice, from the byte behind the marker on:
the count and the kinds of their columns, and the lengths of texts. The byte in front of them is
looked at as well, and an `'O'` there makes it two tuples. -/
def RowsCut (bytes : Bytes) : Prop :=
  CutTuple bytes ∨ bytes.head? = some (chr 'O') ∧ SecondCut bytes

section Rows

variable {cache : RelationCache} {relationId : UInt32} {data : ByteVec} {offset : Nat}
  {rest : Bytes}

theorem parseRow_eq (cache : RelationCache) (relationId : UInt32) (data : ByteVec) :
    ∃ unknown, parseRow cache relationId data = parseTupleWith unknown data := by
  cases cached : cache relationId with
  | none => exact ⟨[], parseRow_uncached cached data⟩
  | some relation => exact ⟨[[]], parseRow_cached cached data⟩

/-- One tuple throws where it is cut. -/
theorem parseTupleWith_throws_iff (unknown : List Bytes) (at_ : At data offset rest) :
    Throws (parseTupleWith unknown data) offset ↔ CutTuple rest := by
  constructor
  · intro throws
    rcases tuple_cases rest with ⟨count, _, rfl, len, columns, behind, size, rfl⟩ | cut | overlong
    · obtain ⟨last, returned, _⟩ := parseTupleWith_whole unknown len size at_
      exact absurd throws (Throws.not_ok returned)
    · exact cut
    · obtain ⟨last, leaves, _⟩ := parseTupleWith_overlong unknown at_ overlong
      exact absurd throws (Throws.not_undefined leaves)
  · intro cut
    obtain ⟨what, last, thrown, _⟩ := parseTupleWith_cut unknown at_ cut
    exact ⟨what, last, thrown⟩

/-- Behind a whole tuple there is one second tuple only. -/
theorem secondCut_whole {count behind : Bytes} {columns : List ReadColumn}
    (len : count.length = 2) (size : columns.length = beValue count) :
    SecondCut (count ++ (ReadColumn.encodeAll columns ++ behind)) ↔ CutTuple behind := by
  constructor
  · rintro ⟨count', columns', behind', same, len', size', cut⟩
    obtain ⟨rfl, columns_eq⟩ := List.append_inj same (by rw [len, len'])
    obtain ⟨_, rfl⟩ := ReadColumn.encodeAll_append_inj (size.trans size'.symm) columns_eq
    exact cut
  · exact fun cut => ⟨count, columns, behind, rfl, len, size, cut⟩

/-- Two tuples throw where one of them is cut. -/
theorem twoTuples_throws_iff (unknown : List Bytes)
    (next : List Bytes → List Bytes → UpdateMessage) (at_ : At data offset rest) :
    Throws (do
      let oldTuple ← parseTupleWith unknown data
      let newTuple ← parseTupleWith unknown data
      return next oldTuple newTuple) offset ↔ CutTuple rest ∨ SecondCut rest := by
  rcases tuple_cases rest with whole | cut | overlong
  · obtain ⟨count, _, rfl, len, columns, behind, size, rfl⟩ := whole
    obtain ⟨last, returned, atSecond⟩ := parseTupleWith_whole unknown len size at_
    have notCut : ¬ CutTuple (count ++ (ReadColumn.encodeAll columns ++ behind)) := fun cut =>
      Throws.not_ok returned ((parseTupleWith_throws_iff unknown at_).mpr cut)
    rw [throws_bind_ok returned, secondCut_whole len size, or_iff_right notCut,
      ← parseTupleWith_throws_iff unknown atSecond]
    exact throws_bind_iff fun newTuple last' => Throws.not_ok (a := next _ newTuple) rfl
  · exact ⟨fun _ => .inl cut,
      fun _ => ((parseTupleWith_throws_iff unknown at_).mpr cut).first⟩
  · obtain ⟨last, leaves, _⟩ := parseTupleWith_overlong unknown at_ overlong
    have notCut : ¬ CutTuple rest := fun cut =>
      Throws.not_undefined leaves ((parseTupleWith_throws_iff unknown at_).mpr cut)
    constructor
    · exact fun throws => absurd throws (Throws.not_undefined (bind_error leaves))
    · rintro (cut | ⟨count, columns, behind, rfl, len, size, _⟩)
      · exact absurd cut notCut
      · obtain ⟨last', returned, _⟩ := parseTupleWith_whole unknown len size at_
        rw [leaves] at returned
        cases returned

theorem UpdateMessage.parseTuples_throws_iff (hasOldTuple : UInt8) (at_ : At data offset rest) :
    Throws (UpdateMessage.parseTuples cache relationId hasOldTuple data) offset ↔
      CutTuple rest ∨ hasOldTuple = chr 'O' ∧ SecondCut rest := by
  obtain ⟨unknown, row_eq⟩ := parseRow_eq cache relationId data
  unfold UpdateMessage.parseTuples
  rw [row_eq]
  by_cases hasOld : hasOldTuple = chr 'O'
  · simp only [hasOld, if_true, true_and]
    exact twoTuples_throws_iff unknown
      (fun oldTuple newTuple => { relationId, oldTuple, newTuple }) at_
  · have noOld : (pure [] : Reader (List Bytes)) offset = .ok [] offset := rfl
    simp only [hasOld, if_false, false_and, or_false]
    rw [throws_bind_ok noOld, ← parseTupleWith_throws_iff unknown at_]
    exact throws_bind_iff fun newTuple last =>
      Throws.not_ok (a := UpdateMessage.mk relationId [] newTuple) rfl

theorem UpdateMessage.throws_iff (cache : RelationCache) (data : ByteVec) :
    Throws (UpdateMessage.parse cache data) 0 ↔
      data.size < 5 ∨ 5 < data.size ∧ RowsCut (data.bytes.drop 5) := by
  have start := At.start data
  have size : data.bytes.length = data.size := rfl
  unfold UpdateMessage.parse
  rcases Nat.lt_or_ge data.size 4 with noId | id
  · exact ⟨fun _ => .inl (by omega), fun _ => (readUint32_throws start noId).first⟩
  have idLen : (data.bytes.take 4).length = 4 := List.length_take_of_le id
  rw [← List.take_append_drop 4 data.bytes] at start
  have idRead := readUint32_append start idLen
  have atFlags := start.advance
  rw [idLen] at atFlags
  have dropped : data.bytes.drop 5 = (data.bytes.drop 4).drop 1 := by rw [List.drop_drop]
  rw [throws_bind_ok idRead, dropped]
  have flagsSize : (data.bytes.drop 4).length = data.size - 4 := List.length_drop
  generalize data.bytes.drop 4 = afterId at atFlags flagsSize
  cases afterId with
  | nil =>
    rw [List.length_nil] at flagsSize
    exact ⟨fun _ => .inl (by omega), fun _ => (readUint8_throws atFlags).first⟩
  | cons flags afterFlags =>
    rw [List.length_cons] at flagsSize
    have atRows := atFlags.advance_cons
    rw [throws_bind_ok (readUint8_cons atFlags), List.drop_one, List.tail_cons]
    cases afterFlags with
    | nil =>
      -- the byte that tells an old tuple is looked at without a check
      rw [List.length_nil] at flagsSize
      refine ⟨fun throws => ?_, fun cut => by omega⟩
      exact absurd throws (Throws.not_undefined (bind_error atRows.peek_nil))
    | cons hasOldTuple rest =>
      rw [List.length_cons] at flagsSize
      rw [throws_bind_ok atRows.peek_cons,
        UpdateMessage.parseTuples_throws_iff hasOldTuple atRows, RowsCut, List.head?_cons,
        Option.some.injEq, or_iff_right (by omega : ¬ data.size < 5),
        and_iff_right (by omega : 5 < data.size)]

end Rows

/-! ## Any of the four -/

/-- What may stand behind the type byte of a Begin, Commit, Relation or Update message. -/
inductive DocumentedBody where
  | begin (finalLsn commitTimestamp : UInt64) (xid : UInt32)
  | commit (flags : UInt8) (commitLsn endLsn commitTimestamp : UInt64)
  | relation (relation : RelationMessage) (documented : relation.Documented)
  | update (relationId : UInt32) (oldPart : OldPart) (newTuple : TupleData)

namespace DocumentedBody

def bytes : DocumentedBody → Bytes
  | begin finalLsn commitTimestamp xid => (encodeBegin finalLsn commitTimestamp xid).tail
  | commit flags commitLsn endLsn commitTimestamp =>
      (encodeCommit flags commitLsn endLsn commitTimestamp).tail
  | relation rel _ => rel.encodeBody
  | update relationId oldPart newTuple => (encodeUpdate relationId oldPart newTuple).bytes.tail

/-- The `parse` of the message throws on `data`, so nothing has been read behind its end. -/
def Rejects (cache : RelationCache) (data : ByteVec) : DocumentedBody → Prop
  | begin .. => Throws (BeginMessage.parse data) 0
  | commit .. => Throws (CommitMessage.parse data) 0
  | relation .. => Throws (RelationMessage.parse data) 0
  | update .. => Throws (UpdateMessage.parse cache data) 0

/-- The cuts that are noticed. -/
def NoticesCut (cut : Bytes) : DocumentedBody → Prop
  | begin .. => cut.length < 16
  | commit .. => cut ≠ []
  | relation rel _ => cut.length ≠ 4 + (encodeString rel.nspname).length +
      (encodeString rel.relationName).length
  | update .. => cut.length < 5 ∨ 5 < cut.length ∧ RowsCut (cut.drop 5)

/-- A message that breaks off is rejected inside its buffer exactly where no raw access comes
first: to a transaction id, to flags, to a replica identity, to the byte behind a marker or to
the bytes of a text. -/
theorem rejects_cut_iff (cache : RelationCache) (body : DocumentedBody) (data : ByteVec)
    (isCut : CutOf data.bytes body.bytes) :
    body.Rejects cache data ↔ body.NoticesCut data.bytes := by
  have short := isCut.length_lt
  cases body with
  | begin finalLsn commitTimestamp xid =>
    have size : data.size < 20 := by simpa [bytes, encodeBegin, ByteVec.size] using short
    exact BeginMessage.throws_iff size
  | commit flags commitLsn endLsn commitTimestamp =>
    have size : data.size < 25 := by simpa [bytes, encodeCommit, ByteVec.size] using short
    exact CommitMessage.throws_iff size
  | relation rel documented => exact RelationMessage.throws_iff documented isCut
  | update relationId oldPart newTuple => exact UpdateMessage.throws_iff cache data

/-- A Commit body that breaks off inside its first position. -/
theorem rejects_cut_commit :
    (commit 0 7 8 9).Rejects (fun _ => none) ⟨[0, 0, 0], by decide⟩ :=
  (rejects_cut_iff (fun _ => none) (commit 0 7 8 9) ⟨[0, 0, 0], by decide⟩
    ⟨(commit 0 7 8 9).bytes.drop 3, by decide, by decide⟩).mpr (List.cons_ne_nil _ _)

/-- The empty prefix of a Commit body has no flags, and they are read. -/
theorem emptyCommit_leaves :
    ¬ ∀ (cache : RelationCache) (body : DocumentedBody) (data : ByteVec),
      CutOf data.bytes body.bytes → body.Rejects cache data := by
  intro always
  obtain ⟨what, last, thrown⟩ := always (fun _ => none) (commit 0 7 8 9) ⟨[], by decide⟩
    ⟨(commit 0 7 8 9).bytes, by decide, rfl⟩
  cases thrown

end DocumentedBody

end KafkaReplication
