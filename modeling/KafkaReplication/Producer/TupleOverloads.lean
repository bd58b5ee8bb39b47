import KafkaReplication.Producer.CutBodies

/-!
# Two parsers for one tuple

`parseTuple` without columns and `parseTuple` with columns
(`producer_azs/pgoutput_parser.cpp:215-289`). A row message takes the second where its relation is
cached (`producer_azs/replication_message.cpp:166-192,211-235,253-289`). They differ at a column of
no known kind, which adds nothing to the one tuple and an empty value to the other.
-/

namespace KafkaReplication
open Misc PgOutputParser

/-- Both throw a `std::exception`, or both return the same and leave the same offset. -/
def Alike {α : Type} (x y : Reader α) (offset : Nat) : Prop :=
  Throws x offset ∧ Throws y offset ∨ ∃ a last, x offset = .ok a last ∧ y offset = .ok a last

section Sequencing

variable {α β : Type} {x y : Reader α} {f g : α → Reader β} {offset offset' : Nat}

theorem Alike.of_throws (throwsX : Throws x offset) (throwsY : Throws y offset) :
    Alike x y offset := .inl ⟨throwsX, throwsY⟩

/-- A reader that leaves its buffer is like no other. -/
theorem Alike.not_undefined {why : Undefined} (run : x offset = .error (.undefined why) offset') :
    ¬ Alike x y offset := by
  rintro (⟨throws, _⟩ | ⟨a, last, returned, _⟩)
  · exact Throws.not_undefined run throws
  · rw [run] at returned
    cases returned

/-- What both return makes the difference. -/
theorem alike_ok_iff {a b : α} {last last' : Nat} (runX : x offset = .ok a last)
    (runY : y offset = .ok b last') : Alike x y offset ↔ a = b ∧ last = last' := by
  constructor
  · rintro (⟨throws, _⟩ | ⟨c, end_, returned, returned'⟩)
    · exact absurd throws (Throws.not_ok runX)
    · rw [runX] at returned
      rw [runY] at returned'
      cases returned
      cases returned'
      exact ⟨rfl, rfl⟩
  · rintro ⟨rfl, rfl⟩
    exact .inr ⟨a, last, runX, runY⟩

/-- Behind the same first part. -/
theorem alike_bind_ok {a b : α} (runX : x offset = .ok a offset')
    (runY : y offset = .ok b offset') :
    Alike (x >>= f) (y >>= g) offset ↔ Alike (f a) (g b) offset' := by
  simp only [Alike, Throws, bind_ok runX, bind_ok runY]

/-- In front of last parts that tell whether they are `same` and what they are given. -/
theorem alike_bind_pure {h k : α → β} {same : Prop} (tells : ∀ a b, h a = k b ↔ same ∧ a = b) :
    Alike (do let a ← x; return h a) (do let a ← y; return k a) offset ↔
      Throws x offset ∧ Throws y offset ∨
        same ∧ ∃ a last, x offset = .ok a last ∧ y offset = .ok a last := by
  have returns : ∀ (l : α → β) a last, ¬ Throws (pure (l a) : Reader β) last :=
    fun l a last => Throws.not_ok (a := l a) rfl
  have ends : ∀ (z : Reader α) (l : α → β) (b : β) (last : Nat),
      (do let a ← z; return l a : Reader β) offset = .ok b last ↔
        ∃ a, z offset = .ok a last ∧ l a = b := by
    intro z l b last
    rw [bind_eq_ok]
    constructor
    · rintro ⟨a, last', run, result⟩
      cases result
      exact ⟨a, run, rfl⟩
    · rintro ⟨a, run, rfl⟩
      exact ⟨a, last, run, rfl⟩
  rw [Alike, throws_bind_iff (returns h), throws_bind_iff (returns k)]
  apply or_congr_right
  constructor
  · rintro ⟨b, last, endsX, endsY⟩
    obtain ⟨a, runX, rfl⟩ := (ends x h b last).mp endsX
    obtain ⟨a', runY, result⟩ := (ends y k _ last).mp endsY
    obtain ⟨agrees, rfl⟩ := (tells a a').mp result.symm
    exact ⟨agrees, a, last, runX, runY⟩
  · rintro ⟨agrees, a, last, runX, runY⟩
    have result := (tells a a).mpr ⟨agrees, rfl⟩
    exact ⟨h a, last, (ends x h _ last).mpr ⟨a, runX, rfl⟩,
      (ends y k _ last).mpr ⟨a, runY, result.symm⟩⟩

/-- And in front of one that tells what it is given. -/
theorem alike_bind_pure_iff {h : α → β} (injective : ∀ a b, h a = h b → a = b) :
    Alike (do let a ← x; return h a) (do let a ← y; return h a) offset ↔ Alike x y offset := by
  have tells : ∀ a b, h a = h b ↔ True ∧ a = b :=
    fun a b => ⟨fun result => ⟨trivial, injective a b result⟩, fun eq => congrArg h eq.2⟩
  rw [alike_bind_pure tells, true_and]
  rfl

end Sequencing

/-! ## One tuple -/

namespace ReadColumn

theorem flatMap_values_length (columns : List ReadColumn) :
    (columns.flatMap (values [[]])).length = columns.length := by
  induction columns with
  | nil => rfl
  | cons column columns ih =>
    rw [List.flatMap_cons, List.length_append, ih, List.length_cons]
    cases column with
    | known column => exact Nat.add_comm 1 _
    | unknown kind => exact Nat.add_comm 1 _

theorem flatMap_values_length_le (columns : List ReadColumn) :
    (columns.flatMap (values [])).length ≤ columns.length := by
  induction columns with
  | nil => exact Nat.le_refl _
  | cons column columns ih =>
    rw [List.flatMap_cons, List.length_append, List.length_cons]
    cases column with
    | known column =>
      simp only [values, List.length_singleton]
      omega
    | unknown kind =>
      simp only [values, List.length_nil]
      omega

/-- One value for each column and one for each known column are the same values where every column
is known. -/
theorem flatMap_values_eq_iff (columns : List ReadColumn) :
    columns.flatMap (values []) = columns.flatMap (values [[]]) ↔
      ∀ column ∈ columns, column.IsKnown := by
  induction columns with
  | nil => simp
  | cons column columns ih =>
    rw [List.flatMap_cons, List.flatMap_cons, List.forall_mem_cons, ← ih]
    cases column with
    | known column => simp [values, IsKnown]
    | unknown kind =>
      refine ⟨fun same => ?_, fun known => known.1.elim⟩
      have fewer := flatMap_values_length_le columns
      have lengths := congrArg List.length same
      simp only [values, List.nil_append, List.singleton_append, List.length_cons,
        flatMap_values_length] at lengths
      omega

end ReadColumn

/-- The bytes begin with TupleData, or they end where a parser looks whether they do. -/
def TupleOrCut (bytes : Bytes) : Prop := BeginsWithTuple bytes ∨ CutTuple bytes

section Tuples

variable {data : ByteVec} {offset : Nat} {rest : Bytes}

/-- A whole tuple is TupleData where its columns are all known, and it is not cut. -/
theorem tupleOrCut_whole {count : Bytes} {columns : List ReadColumn} (len : count.length = 2)
    (size : columns.length = beValue count)
    (at_ : At data offset (count ++ (ReadColumn.encodeAll columns ++ rest))) :
    TupleOrCut (count ++ (ReadColumn.encodeAll columns ++ rest)) ↔
      ∀ column ∈ columns, column.IsKnown := by
  obtain ⟨last, returned, _⟩ := parseTupleWith_whole [] len size at_
  have notCut : ¬ CutTuple (count ++ (ReadColumn.encodeAll columns ++ rest)) := fun cut =>
    Throws.not_ok returned ((parseTupleWith_throws_iff [] at_).mpr cut)
  rw [TupleOrCut, or_iff_left notCut, beginsWithTuple_iff]
  constructor
  · rintro ⟨_, native⟩
    by_contra foreign
    exact native ⟨count, _, rfl, len, columns, rest, size, rfl, foreign⟩
  · intro known
    refine ⟨⟨count, _, rfl, len, columns, rest, size, rfl⟩, ?_⟩
    rintro ⟨count', behind, same, len', columns', rest', size', rfl, foreign⟩
    obtain ⟨rfl, columns_eq⟩ := List.append_inj same (by rw [len, len'])
    obtain ⟨rfl, _⟩ := ReadColumn.encodeAll_append_inj (size.trans size'.symm) columns_eq
    exact foreign known

/-- A text longer than what follows is neither. -/
theorem not_tupleOrCut_overlong (at_ : At data offset rest) (overlong : OverlongTuple rest) :
    ¬ TupleOrCut rest := by
  obtain ⟨last, leaves, _⟩ := parseTupleWith_overlong [] at_ overlong
  rintro (⟨tuple, behind, rfl⟩ | cut)
  · rw [parseTupleWith_encode [] tuple at_] at leaves
    cases leaves
  · exact Throws.not_undefined leaves ((parseTupleWith_throws_iff [] at_).mpr cut)

/-- Whole tuples are read to the same end. -/
theorem parseTupleWith_whole_both {count : Bytes} {columns : List ReadColumn}
    (len : count.length = 2) (size : columns.length = beValue count)
    (at_ : At data offset (count ++ (ReadColumn.encodeAll columns ++ rest))) :
    ∃ last, parseTupleWith [] data offset =
        .ok (columns.flatMap (ReadColumn.values [])) last ∧
      parseTupleWith [[]] data offset = .ok (columns.flatMap (ReadColumn.values [[]])) last ∧
      At data last rest := by
  obtain ⟨last, returned, behind⟩ := parseTupleWith_whole [] len size at_
  obtain ⟨last', returned', behind'⟩ := parseTupleWith_whole [[]] len size at_
  have same : last = last' := by
    have end_ := behind.size_eq
    have end_' := behind'.size_eq
    omega
  subst same
  exact ⟨last, returned, returned', behind⟩

theorem parseTuple_alike_at (at_ : At data offset rest) :
    Alike (parseTupleWith [] data) (parseTupleWith [[]] data) offset ↔ TupleOrCut rest := by
  rcases tuple_cases rest with whole | cut | overlong
  · obtain ⟨count, _, rfl, len, columns, behind, size, rfl⟩ := whole
    obtain ⟨last, returned, returned', _⟩ := parseTupleWith_whole_both len size at_
    rw [alike_ok_iff returned returned', tupleOrCut_whole len size at_,
      ReadColumn.flatMap_values_eq_iff]
    exact and_iff_left rfl
  · refine ⟨fun _ => .inr cut, fun _ => Alike.of_throws ?_ ?_⟩
    · exact (parseTupleWith_throws_iff [] at_).mpr cut
    · exact (parseTupleWith_throws_iff [[]] at_).mpr cut
  · obtain ⟨last, leaves, _⟩ := parseTupleWith_overlong [] at_ overlong
    exact ⟨fun alike => absurd alike (Alike.not_undefined leaves),
      fun fits => absurd fits (not_tupleOrCut_overlong at_ overlong)⟩

/-- Behind the end both throw, unless the sum that is compared with the size wraps. -/
theorem parseTuple_alike_behind (behind : data.size < offset) :
    Alike (parseTupleWith [] data) (parseTupleWith [[]] data) offset ↔
      data.size < sizeAdd offset 2 := by
  have count : ∀ unknown, data.size < sizeAdd offset 2 →
      Throws (parseTupleWith unknown data) offset := by
    intro unknown noticed
    refine Throws.first (Throws.first ⟨"Buffer underflow in read_uint8", offset, ?_⟩)
    rw [require, if_pos noticed]
  refine ⟨fun alike => ?_, fun noticed => Alike.of_throws (count [] noticed) (count [[]] noticed)⟩
  by_contra unnoticed
  have passes : require data 2 "Buffer underflow in read_uint8" offset = .ok () offset := by
    rw [require, if_neg unnoticed]
  have leaves : copy data 2 offset = .error (.undefined .pastTheEnd) offset := by
    rw [copy, if_neg (by omega)]
  have loaded : load16 data offset = .error (.undefined .pastTheEnd) offset := by
    rw [load16, bind_error leaves]
  have read : readUint16 data offset = .error (.undefined .pastTheEnd) offset := by
    rw [readUint16, bind_ok passes, bind_error loaded]
  exact Alike.not_undefined (bind_error read) alike

end Tuples

/-- Where the two overloads do the same. -/
def TupleSettled (data : ByteVec) (offset : Nat) : Prop :=
  TupleOrCut (data.bytes.drop offset) ∧ (data.size < offset → data.size < sizeAdd offset 2)

theorem parseTuple_alike_iff (data : ByteVec) (offset : Nat) :
    Alike (parseTuple data) (parseTupleColumns data) offset ↔ TupleSettled data offset := by
  unfold parseTuple parseTupleColumns TupleSettled
  by_cases inside : offset ≤ data.size
  · rw [parseTuple_alike_at ⟨inside, rfl⟩]
    exact (and_iff_left fun behind => by omega).symm
  · have nothing : data.bytes.drop offset = [] :=
      List.drop_eq_nil_of_le (Nat.le_of_not_le inside)
    rw [parseTuple_alike_behind (Nat.lt_of_not_le inside), nothing]
    have cut : TupleOrCut [] := .inr (.inl (by decide))
    exact ⟨fun noticed => ⟨cut, fun _ => noticed⟩, fun both => both.2 (Nat.lt_of_not_le inside)⟩

/-! ## Row messages -/

/-- An Update message with an old tuple begins with TupleData twice, or it ends where a parser
looks whether it does. -/
def TwoTuplesOrCut (bytes : Bytes) : Prop :=
  (∃ (tuple : TupleData) (behind : Bytes), bytes = tuple.encode ++ behind ∧
    BeginsWithTuple behind) ∨ CutTuple bytes ∨ SecondCut bytes

section Rows

variable {data : ByteVec} {offset : Nat} {rest : Bytes}

/-- Behind a whole tuple there is one rest only. -/
theorem behind_unique {count behind behind' : Bytes} {columns : List ReadColumn}
    (len : count.length = 2) (size : columns.length = beValue count) {tuple : TupleData}
    (at_ : At data offset (count ++ (ReadColumn.encodeAll columns ++ behind)))
    (same : count ++ (ReadColumn.encodeAll columns ++ behind) = tuple.encode ++ behind') :
    behind' = behind := by
  obtain ⟨last, returned, atSecond⟩ := parseTupleWith_whole [] len size at_
  rw [same] at at_
  rw [parseTupleWith_encode [] tuple at_] at returned
  have ends := (EStateM.Result.ok.inj returned).2
  have atRest := at_.advance
  rw [ends] at atRest
  exact atRest.drop_eq.symm.trans atSecond.drop_eq

/-- Both overloads return the same where there is TupleData. -/
theorem parseTuple_same_iff (at_ : At data offset rest) :
    (∃ tuple last, parseTupleWith [] data offset = .ok tuple last ∧
      parseTupleWith [[]] data offset = .ok tuple last) ↔ BeginsWithTuple rest := by
  constructor
  · rintro ⟨tuple, last, returned, returned'⟩
    have settled := (parseTuple_alike_at at_).mp (.inr ⟨tuple, last, returned, returned'⟩)
    refine settled.resolve_right fun cut => ?_
    exact Throws.not_ok returned ((parseTupleWith_throws_iff [] at_).mpr cut)
  · rintro ⟨tuple, behind, rfl⟩
    exact ⟨tuple.values, _, parseTupleWith_encode [] tuple at_,
      parseTupleWith_encode [[]] tuple at_⟩

theorem twoTuples_alike_iff {next : List Bytes → List Bytes → UpdateMessage}
    (tells : ∀ old old' new new', next old new = next old' new' ↔ old = old' ∧ new = new')
    (at_ : At data offset rest) :
    Alike (do
        let oldTuple ← parseTupleWith [] data
        let newTuple ← parseTupleWith [] data
        return next oldTuple newTuple)
      (do
        let oldTuple ← parseTupleWith [[]] data
        let newTuple ← parseTupleWith [[]] data
        return next oldTuple newTuple) offset ↔ TwoTuplesOrCut rest := by
  rcases tuple_cases rest with whole | cut | overlong
  · obtain ⟨count, _, rfl, len, columns, behind, size, rfl⟩ := whole
    obtain ⟨last, returned, returned', atSecond⟩ := parseTupleWith_whole_both len size at_
    have notCut : ¬ CutTuple (count ++ (ReadColumn.encodeAll columns ++ behind)) := fun cut =>
      Throws.not_ok returned ((parseTupleWith_throws_iff [] at_).mpr cut)
    have known_iff := tupleOrCut_whole len size at_
    have twice : (∃ (tuple : TupleData) (behind' : Bytes),
        count ++ (ReadColumn.encodeAll columns ++ behind) = tuple.encode ++ behind' ∧
          BeginsWithTuple behind') ↔
        (∀ column ∈ columns, column.IsKnown) ∧ BeginsWithTuple behind := by
      constructor
      · rintro ⟨tuple, behind', same, begins⟩
        rw [behind_unique len size at_ same] at begins
        exact ⟨known_iff.mp (.inl ⟨tuple, behind', same.symm⟩), begins⟩
      · rintro ⟨known, begins⟩
        obtain ⟨tuple, behind', same⟩ := (known_iff.mpr known).resolve_right notCut
        rw [← behind_unique len size at_ same.symm] at begins
        exact ⟨tuple, behind', same.symm, begins⟩
    rw [alike_bind_ok returned returned', alike_bind_pure (tells _ _), TwoTuplesOrCut, twice,
      secondCut_whole len size, or_iff_right notCut, parseTupleWith_throws_iff [] atSecond,
      parseTupleWith_throws_iff [[]] atSecond, and_self, parseTuple_same_iff atSecond,
      ReadColumn.flatMap_values_eq_iff]
    exact or_comm
  · refine ⟨fun _ => .inr (.inl cut), fun _ => Alike.of_throws (Throws.first ?_) (Throws.first ?_)⟩
    · exact (parseTupleWith_throws_iff [] at_).mpr cut
    · exact (parseTupleWith_throws_iff [[]] at_).mpr cut
  · obtain ⟨last, leaves, _⟩ := parseTupleWith_overlong [] at_ overlong
    refine ⟨fun alike => absurd alike (Alike.not_undefined (bind_error leaves)), fun fits => ?_⟩
    have strange := not_tupleOrCut_overlong at_ overlong
    rcases fits with ⟨tuple, behind, rfl, _⟩ | cut | ⟨count, columns, behind, rfl, len, size, _⟩
    · exact absurd (.inl ⟨tuple, behind, rfl⟩) strange
    · exact absurd (.inr cut) strange
    · obtain ⟨last', returned, _⟩ := parseTupleWith_whole [] len size at_
      rw [leaves] at returned
      cases returned

/-- The relation that a row message names. -/
def relationIdOf (data : ByteVec) : UInt32 := UInt32.ofNat (beValue (data.bytes.take 4))

/-- Too short for a relation id and a marker. -/
theorem rowHead_throws {α : Type} {f : UInt32 → UInt8 → Reader α} (short : data.size < 5) :
    Throws (do
      let relationId ← readUint32 data
      let marker ← readUint8 data
      f relationId marker) 0 := by
  have start := At.start data
  have size : data.bytes.length = data.size := rfl
  rcases Nat.lt_or_ge data.size 4 with noId | id
  · exact (readUint32_throws start (by omega)).first
  have idLen : (data.bytes.take 4).length = 4 := List.length_take_of_le (by omega)
  have nothing : data.bytes.drop 4 = [] := List.drop_eq_nil_of_le (by omega)
  rw [← List.take_append_drop 4 data.bytes] at start
  have atMarker := start.advance
  rw [idLen, nothing] at atMarker
  exact Throws.next (readUint32_append start idLen) (readUint8_throws atMarker).first

theorem rowHead_reads (enough : 5 ≤ data.size) :
    ∃ marker, readUint32 data 0 = .ok (relationIdOf data) 4 ∧
      readUint8 data 4 = .ok marker 5 ∧ At data 5 (data.bytes.drop 5) := by
  have start := At.start data
  have size : data.bytes.length = data.size := rfl
  have idLen : (data.bytes.take 4).length = 4 := List.length_take_of_le (by omega)
  have dropped : data.bytes.drop 5 = (data.bytes.drop 4).drop 1 := by rw [List.drop_drop]
  have markerSize : (data.bytes.drop 4).length = data.size - 4 := List.length_drop
  rw [← List.take_append_drop 4 data.bytes] at start
  have idRead := readUint32_append start idLen
  have atMarker := start.advance
  rw [idLen] at atMarker
  rw [dropped]
  generalize data.bytes.drop 4 = afterId at atMarker markerSize
  cases afterId with
  | nil =>
    rw [List.length_nil] at markerSize
    omega
  | cons marker afterMarker =>
    exact ⟨marker, idRead, readUint8_cons atMarker, atMarker.advance_cons⟩

variable (cache : RelationCache) (relation : RelationMessage)

/-- The cache without the relation of the message. -/
def uncached (data : ByteVec) : RelationCache := Function.update cache (relationIdOf data) none

/-- And with it. -/
def cached (data : ByteVec) : RelationCache :=
  Function.update cache (relationIdOf data) (some relation)

theorem parseRow_of_uncached (data : ByteVec) :
    parseRow (uncached cache data) (relationIdOf data) data = parseTupleWith [] data :=
  parseRow_uncached (Function.update_self _ _ _) data

theorem parseRow_of_cached (data : ByteVec) :
    parseRow (cached cache relation data) (relationIdOf data) data = parseTupleWith [[]] data :=
  parseRow_cached (Function.update_self _ _ _) data

theorem tupleOrCut_short (short : data.size < 6) : TupleOrCut (data.bytes.drop 5) := by
  have size : data.bytes.length = data.size := rfl
  refine .inr (.inl ?_)
  rw [List.length_drop]
  omega

/-- A message of a relation id, a byte and one tuple. -/
theorem rowMessage_alike_iff {α : Type} (message : UInt32 → UInt8 → List Bytes → α)
    (tells : ∀ relationId marker tuple tuple',
      message relationId marker tuple = message relationId marker tuple' → tuple = tuple')
    (data : ByteVec) :
    Alike (do
        let relationId ← readUint32 data
        let marker ← readUint8 data
        let tuple ← parseRow (uncached cache data) relationId data
        return message relationId marker tuple)
      (do
        let relationId ← readUint32 data
        let marker ← readUint8 data
        let tuple ← parseRow (cached cache relation data) relationId data
        return message relationId marker tuple) 0 ↔ TupleOrCut (data.bytes.drop 5) := by
  rcases Nat.lt_or_ge data.size 5 with short | enough
  · exact ⟨fun _ => tupleOrCut_short (by omega),
      fun _ => Alike.of_throws (rowHead_throws short) (rowHead_throws short)⟩
  obtain ⟨marker, idRead, markerRead, atTuple⟩ := rowHead_reads enough
  rw [alike_bind_ok idRead idRead, alike_bind_ok markerRead markerRead, parseRow_of_uncached,
    parseRow_of_cached, ← parseTuple_alike_at atTuple]
  exact alike_bind_pure_iff (tells _ _)

/-- The message is decoded to the same whether or not its relation is cached. -/
def InsertMessage.DecodesAlike (data : ByteVec) : Prop :=
  Alike (InsertMessage.parse (uncached cache data) data)
    (InsertMessage.parse (cached cache relation data) data) 0

theorem InsertMessage.decodesAlike_iff (data : ByteVec) :
    InsertMessage.DecodesAlike cache relation data ↔ TupleOrCut (data.bytes.drop 5) := by
  unfold InsertMessage.DecodesAlike InsertMessage.parse
  apply rowMessage_alike_iff cache relation InsertMessage.mk
  exact fun _ _ _ _ same => congrArg InsertMessage.newTuple same

def DeleteMessage.DecodesAlike (data : ByteVec) : Prop :=
  Alike (DeleteMessage.parse (uncached cache data) data)
    (DeleteMessage.parse (cached cache relation data) data) 0

theorem DeleteMessage.decodesAlike_iff (data : ByteVec) :
    DeleteMessage.DecodesAlike cache relation data ↔ TupleOrCut (data.bytes.drop 5) := by
  unfold DeleteMessage.DecodesAlike DeleteMessage.parse
  apply rowMessage_alike_iff cache relation fun relationId _ => DeleteMessage.mk relationId
  exact fun _ _ _ _ same => congrArg DeleteMessage.oldTuple same

/-- Where an Update message is decoded the same: there is a byte behind the marker, and it is not
the beginning of two tuples of which one is neither TupleData nor cut. -/
def UpdateSettled (data : ByteVec) : Prop :=
  data.size ≠ 5 ∧ if (data.bytes.drop 5).head? = some (chr 'O')
    then TwoTuplesOrCut (data.bytes.drop 5) else TupleOrCut (data.bytes.drop 5)

def UpdateMessage.DecodesAlike (data : ByteVec) : Prop :=
  Alike (UpdateMessage.parse (uncached cache data) data)
    (UpdateMessage.parse (cached cache relation data) data) 0

theorem UpdateMessage.decodesAlike_iff (data : ByteVec) :
    UpdateMessage.DecodesAlike cache relation data ↔ UpdateSettled data := by
  unfold UpdateMessage.DecodesAlike UpdateMessage.parse UpdateSettled
  have size : data.bytes.length = data.size := rfl
  rcases Nat.lt_or_ge data.size 5 with short | enough
  · have nothing : data.bytes.drop 5 = [] := List.drop_eq_nil_of_le (by omega)
    have settled : TupleOrCut (data.bytes.drop 5) := tupleOrCut_short (by omega)
    rw [nothing] at settled ⊢
    exact ⟨fun _ => ⟨by omega, settled⟩,
      fun _ => Alike.of_throws (rowHead_throws short) (rowHead_throws short)⟩
  obtain ⟨marker, idRead, markerRead, atRows⟩ := rowHead_reads enough
  rw [alike_bind_ok idRead idRead, alike_bind_ok markerRead markerRead]
  generalize data.bytes.drop 5 = rows at atRows
  cases rows with
  | nil =>
    have ended := atRows.size_eq
    rw [List.length_nil] at ended
    exact ⟨fun alike => absurd alike (Alike.not_undefined (bind_error atRows.peek_nil)),
      fun settled => absurd ended.symm settled.1⟩
  | cons hasOldTuple rest =>
    have longer := atRows.size_eq
    rw [List.length_cons] at longer
    have six : data.size ≠ 5 := by omega
    unfold UpdateMessage.parseTuples
    rw [alike_bind_ok atRows.peek_cons atRows.peek_cons, parseRow_of_uncached,
      parseRow_of_cached, and_iff_right six]
    by_cases hasOld : hasOldTuple = chr 'O'
    · simp only [List.head?_cons, Option.some.injEq, if_pos hasOld]
      apply twoTuples_alike_iff _ atRows
      simp
    · have noOld : (pure [] : Reader (List Bytes)) 5 = .ok [] 5 := rfl
      simp only [List.head?_cons, Option.some.injEq, if_neg hasOld]
      rw [alike_bind_ok noOld noOld, ← parseTuple_alike_at atRows]
      apply alike_bind_pure_iff
      exact fun tuple tuple' same => congrArg UpdateMessage.newTuple same

end Rows

/-- The two overloads do the same, and with them the row messages with and without their relation
in the cache, exactly where no tuple that is read whole has a column of no known kind, no text is
longer than what follows, and the offset is not so large that a sum with it wraps. -/
theorem overloads_alike_iff (cache : RelationCache) (relation : RelationMessage) (data : ByteVec)
    (offset : Nat) :
    (Alike (parseTuple data) (parseTupleColumns data) offset ↔ TupleSettled data offset) ∧
    (InsertMessage.DecodesAlike cache relation data ↔ TupleOrCut (data.bytes.drop 5)) ∧
    (UpdateMessage.DecodesAlike cache relation data ↔ UpdateSettled data) ∧
    (DeleteMessage.DecodesAlike cache relation data ↔ TupleOrCut (data.bytes.drop 5)) := by
  refine ⟨?_, ?_, ?_, ?_⟩
  · exact parseTuple_alike_iff data offset
  · exact InsertMessage.decodesAlike_iff cache relation data
  · exact UpdateMessage.decodesAlike_iff cache relation data
  · exact DeleteMessage.decodesAlike_iff cache relation data

/-- The column `'x'` is an empty value to the one overload and no value to the other. -/
theorem overloads_differ :
    ¬ ∀ cache relation data offset, Alike (parseTuple data) (parseTupleColumns data) offset ∧
      InsertMessage.DecodesAlike cache relation data ∧
      UpdateMessage.DecodesAlike cache relation data ∧
      DeleteMessage.DecodesAlike cache relation data := by
  intro always
  have returned : parseTuple foreignTuple 0 = .ok [] 3 := rfl
  have returned' : parseTupleColumns foreignTuple 0 = .ok [[]] 3 := rfl
  have alike := (always (fun _ => none) ⟨0, [], [], 0, []⟩ foreignTuple 0).1
  have same := (alike_ok_iff returned returned').mp alike
  exact absurd same.1 (by simp)

end KafkaReplication
