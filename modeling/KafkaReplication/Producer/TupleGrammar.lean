import KafkaReplication.Producer.Protocol

/-!
# What `parseTuple` takes for a tuple

The two overloads of `parseTuple` (`producer_azs/pgoutput_parser.cpp:215-289`) read more than
TupleData: a column of any other kind is one byte long and gets a value of its own, and the bytes
of a text are taken without a look at how many there are. So any bytes begin with a tuple in
this wider sense, are cut inside one, or announce a text that is longer than what follows.
-/

namespace KafkaReplication
open Misc

/-! ## Columns as they are read -/

/-- A column of TupleData, or a byte that is no kind of column. -/
inductive ReadColumn where
  | known (column : TupleColumn)
  | unknown (kind : { kind : UInt8 // kind ≠ chr 'n' ∧ kind ≠ chr 'u' ∧ kind ≠ chr 't' })

namespace ReadColumn

def encode : ReadColumn → Bytes
  | known column => column.encode
  | unknown kind => [kind.val]

/-- What the column adds to the tuple, where one of no kind adds `other`. -/
def values (other : List Bytes) : ReadColumn → List Bytes
  | known column => [column.value]
  | unknown _ => other

def IsKnown : ReadColumn → Prop
  | known _ => True
  | unknown _ => False

/-- The columns one after the other. -/
def encodeAll (columns : List ReadColumn) : Bytes := columns.flatMap encode

@[simp] theorem encodeAll_nil : encodeAll [] = [] := rfl

@[simp] theorem encodeAll_cons (column : ReadColumn) (columns : List ReadColumn) :
    encodeAll (column :: columns) = column.encode ++ encodeAll columns := rfl

theorem encodeAll_known (columns : List TupleColumn) :
    encodeAll (columns.map known) = encodeColumns columns := by
  induction columns with
  | nil => rfl
  | cons column columns ih =>
    rw [List.map_cons, encodeAll_cons, ih]
    rfl

/-- Columns of known kinds only are those of TupleData. -/
theorem exists_known {columns : List ReadColumn} (all : ∀ column ∈ columns, column.IsKnown) :
    ∃ documented : List TupleColumn, columns = documented.map known := by
  induction columns with
  | nil => exact ⟨[], rfl⟩
  | cons column columns ih =>
    obtain ⟨documented, rfl⟩ := ih fun later mem => all later (List.mem_cons_of_mem column mem)
    cases column with
    | known column => exact ⟨column :: documented, rfl⟩
    | unknown kind => exact (all _ List.mem_cons_self).elim

theorem text_append_inj {value value' : { bytes : Bytes // bytes.length < 2 ^ 32 }}
    {rest rest' : Bytes}
    (same : beBytes 4 value.val.length ++ value.val ++ rest =
      beBytes 4 value'.val.length ++ value'.val ++ rest') : value = value' ∧ rest = rest' := by
  have small := value.property
  have small' := value'.property
  rw [List.append_assoc, List.append_assoc] at same
  obtain ⟨lengths, texts⟩ := List.append_inj same (by simp)
  have length : value.val.length = value'.val.length := by
    have numbers := congrArg beValue lengths
    rwa [beValue_beBytes (by omega), beValue_beBytes (by omega)] at numbers
  obtain ⟨values, rests⟩ := List.append_inj texts length
  exact ⟨Subtype.ext values, rests⟩

/-- The kind decides where a column ends, and the length where a text does. -/
theorem encode_append_inj {column column' : ReadColumn} {rest rest' : Bytes}
    (same : column.encode ++ rest = column'.encode ++ rest') : column = column' ∧ rest = rest' := by
  rcases column with (_ | _ | value) | kind <;> rcases column' with (_ | _ | value') | kind' <;>
    obtain ⟨kinds, behind⟩ := List.cons.inj same
  case known.null.known.null => exact ⟨rfl, behind⟩
  case known.toast.known.toast => exact ⟨rfl, behind⟩
  case known.text.known.text =>
    obtain ⟨rfl, rests⟩ := text_append_inj behind
    exact ⟨rfl, rests⟩
  case unknown.unknown => exact ⟨by rw [Subtype.ext kinds], behind⟩
  case known.null.unknown => exact absurd kinds.symm kind'.property.1
  case known.toast.unknown => exact absurd kinds.symm kind'.property.2.1
  case known.text.unknown => exact absurd kinds.symm kind'.property.2.2
  case unknown.known.null => exact absurd kinds kind.property.1
  case unknown.known.toast => exact absurd kinds kind.property.2.1
  case unknown.known.text => exact absurd kinds kind.property.2.2
  all_goals exact absurd kinds (by decide)

theorem encodeAll_append_inj {columns columns' : List ReadColumn} {rest rest' : Bytes}
    (count : columns.length = columns'.length)
    (same : encodeAll columns ++ rest = encodeAll columns' ++ rest') :
    columns = columns' ∧ rest = rest' := by
  induction columns generalizing columns' with
  | nil =>
    cases columns' with
    | nil => exact ⟨rfl, same⟩
    | cons _ _ => cases count
  | cons column columns ih =>
    cases columns' with
    | nil => cases count
    | cons column' columns' =>
      rw [encodeAll_cons, encodeAll_cons, List.append_assoc, List.append_assoc] at same
      obtain ⟨rfl, tails⟩ := encode_append_inj same
      obtain ⟨rfl, rests⟩ := ih (Nat.succ.inj count) tails
      exact ⟨rfl, rests⟩

end ReadColumn

open ReadColumn

/-! ## Bytes in front of a reader -/

/-- The bytes begin with `n` columns. -/
def WholeColumns (n : Nat) (bytes : Bytes) : Prop :=
  ∃ columns behind, columns.length = n ∧ bytes = encodeAll columns ++ behind

/-- They begin with `n` columns of which not all are known. -/
def ForeignColumns (n : Nat) (bytes : Bytes) : Prop :=
  ∃ columns behind, columns.length = n ∧ bytes = encodeAll columns ++ behind ∧
    ¬ ∀ column ∈ columns, column.IsKnown

/-- Before `n` columns have been read they end, at a kind or inside a length. -/
def CutColumns (n : Nat) (bytes : Bytes) : Prop :=
  ∃ columns cut, columns.length < n ∧ bytes = encodeAll columns ++ cut ∧
    (cut = [] ∨ ∃ length, cut = chr 't' :: length ∧ length.length < 4)

/-- Before `n` columns have been read they announce a text longer than what follows. -/
def OverlongColumns (n : Nat) (bytes : Bytes) : Prop :=
  ∃ columns length behind, columns.length < n ∧
    bytes = encodeAll columns ++ chr 't' :: (length ++ behind) ∧ length.length = 4 ∧
    behind.length < beValue length

section Classification

variable {n : Nat} {bytes : Bytes}

theorem WholeColumns.cons {column : ReadColumn} (whole : WholeColumns n bytes) :
    WholeColumns (n + 1) (column.encode ++ bytes) := by
  obtain ⟨columns, behind, count, rfl⟩ := whole
  refine ⟨column :: columns, behind, by rw [List.length_cons, count], ?_⟩
  rw [encodeAll_cons, List.append_assoc]

theorem CutColumns.cons {column : ReadColumn} (cut : CutColumns n bytes) :
    CutColumns (n + 1) (column.encode ++ bytes) := by
  obtain ⟨columns, tail, count, rfl, ends⟩ := cut
  refine ⟨column :: columns, tail, Nat.succ_lt_succ count, ?_, ends⟩
  rw [encodeAll_cons, List.append_assoc]

theorem OverlongColumns.cons {column : ReadColumn} (overlong : OverlongColumns n bytes) :
    OverlongColumns (n + 1) (column.encode ++ bytes) := by
  obtain ⟨columns, length, behind, count, rfl, len, short⟩ := overlong
  refine ⟨column :: columns, length, behind, Nat.succ_lt_succ count, ?_, len, short⟩
  rw [encodeAll_cons, List.append_assoc]

/-- One column, or what keeps the reader from having one. -/
theorem column_cases (bytes : Bytes) :
    (∃ column behind, bytes = ReadColumn.encode column ++ behind) ∨
      (bytes = [] ∨ ∃ length, bytes = chr 't' :: length ∧ length.length < 4) ∨
      ∃ length behind, bytes = chr 't' :: (length ++ behind) ∧ length.length = 4 ∧
        behind.length < beValue length := by
  cases bytes with
  | nil => exact .inr (.inl (.inl rfl))
  | cons kind rest =>
    by_cases isNull : kind = chr 'n'
    · exact .inl ⟨.known .null, rest, by rw [isNull]; rfl⟩
    by_cases isToast : kind = chr 'u'
    · exact .inl ⟨.known .toast, rest, by rw [isToast]; rfl⟩
    by_cases isText : kind = chr 't'
    · subst isText
      rcases Nat.lt_or_ge rest.length 4 with short | enough
      · exact .inr (.inl (.inr ⟨rest, rfl, short⟩))
      have len : (rest.take 4).length = 4 := List.length_take_of_le enough
      have small := beValue_lt_of_length len
      rcases Nat.lt_or_ge (rest.drop 4).length (beValue (rest.take 4)) with short | inside
      · refine .inr (.inr ⟨rest.take 4, rest.drop 4, ?_, len, short⟩)
        rw [List.take_append_drop]
      · have textLen : ((rest.drop 4).take (beValue (rest.take 4))).length =
            beValue (rest.take 4) := List.length_take_of_le inside
        have field := beBytes_beValue (rest.take 4)
        rw [len] at field
        refine .inl ⟨.known (.text ⟨(rest.drop 4).take (beValue (rest.take 4)), by omega⟩),
          (rest.drop 4).drop (beValue (rest.take 4)), ?_⟩
        simp only [ReadColumn.encode, TupleColumn.encode, textLen, field, List.cons_append,
          List.append_assoc, List.take_append_drop]
    · exact .inl ⟨.unknown ⟨kind, isNull, isToast, isText⟩, rest, rfl⟩

/-- Any bytes are of one of three sorts. -/
theorem columns_cases (n : Nat) (bytes : Bytes) :
    WholeColumns n bytes ∨ CutColumns n bytes ∨ OverlongColumns n bytes := by
  induction n generalizing bytes with
  | zero => exact .inl ⟨[], bytes, rfl, rfl⟩
  | succ n ih =>
    rcases column_cases bytes with ⟨column, behind, rfl⟩ | ends | ⟨length, behind, rfl, len, short⟩
    · rcases ih behind with whole | cut | overlong
      · exact .inl whole.cons
      · exact .inr (.inl cut.cons)
      · exact .inr (.inr overlong.cons)
    · exact .inr (.inl ⟨[], bytes, Nat.succ_pos n, rfl, ends⟩)
    · exact .inr (.inr ⟨[], length, behind, Nat.succ_pos n, rfl, len, short⟩)

end Classification

/-! ## What the loop does with them -/

section Columns

open PgOutputParser

variable {data : ByteVec} {offset n : Nat} {rest : Bytes} (unknown : List Bytes)
  (tuple : List Bytes)

/-- One column adds its values, and the loop goes on behind it. -/
theorem parseColumns_readColumn (column : ReadColumn) (n : Nat)
    (at_ : At data offset (column.encode ++ rest)) :
    parseColumns unknown data (n + 1) tuple offset =
      parseColumns unknown data n (tuple ++ column.values unknown)
        (offset + column.encode.length) := by
  cases column with
  | known column => exact parseColumns_column unknown column n tuple at_
  | unknown kind =>
    obtain ⟨kind, notNull, notToast, notText⟩ := kind
    rw [parseColumns, bind_ok (readUint8_cons at_), if_neg notNull, if_neg notToast,
      if_neg notText]
    rfl

theorem parseColumns_encodeAll (columns : List ReadColumn) (n : Nat)
    (at_ : At data offset (encodeAll columns ++ rest)) :
    parseColumns unknown data (columns.length + n) tuple offset =
      parseColumns unknown data n (tuple ++ columns.flatMap (ReadColumn.values unknown))
        (offset + (encodeAll columns).length) := by
  induction columns generalizing tuple offset with
  | nil => simp
  | cons column columns ih =>
    rw [encodeAll_cons, List.append_assoc] at at_
    have count : (column :: columns).length + n = columns.length + n + 1 := by
      simp only [List.length_cons]
      omega
    rw [count, parseColumns_readColumn unknown tuple column _ at_, ih _ at_.advance]
    simp only [encodeAll_cons, List.length_append, List.flatMap_cons, List.append_assoc,
      Nat.add_assoc]

/-- With fewer columns read than asked for, the loop goes on where they end. -/
theorem parseColumns_behind {columns : List ReadColumn} {n : Nat} (fewer : columns.length < n)
    (at_ : At data offset (encodeAll columns ++ rest)) :
    ∃ m front, parseColumns unknown data n tuple offset =
        parseColumns unknown data (m + 1) front (offset + (encodeAll columns).length) ∧
      At data (offset + (encodeAll columns).length) rest := by
  obtain ⟨m, rfl⟩ : ∃ m, n = columns.length + (m + 1) := ⟨n - columns.length - 1, by omega⟩
  exact ⟨m, _, parseColumns_encodeAll unknown tuple columns (m + 1) at_, at_.advance⟩

/-- A cut is noticed by the reader of the kind or of the length. -/
theorem parseColumns_cut (at_ : At data offset rest) (cut : CutColumns n rest) :
    ∃ what last, parseColumns unknown data n tuple offset = .error (.exception what) last ∧
      last ≤ data.size := by
  obtain ⟨columns, cut, fewer, rfl, ends⟩ := cut
  obtain ⟨m, front, goesOn, behind⟩ := parseColumns_behind unknown tuple fewer at_
  rw [goesOn]
  rcases ends with rfl | ⟨length, rfl, short⟩
  · refine ⟨"Buffer underflow in read_uint8", _, ?_, behind.le⟩
    rw [parseColumns, bind_error (readUint8_nil behind)]
  · have notNull : chr 't' ≠ chr 'n' := by decide
    have notToast : chr 't' ≠ chr 'u' := by decide
    have atLength := behind.advance_cons
    have text : readText data (offset + (encodeAll columns).length + 1) =
        .error (.exception "Buffer underflow in read_uint8")
          (offset + (encodeAll columns).length + 1) := by
      rw [readText, bind_error (readUint32_short atLength short)]
    refine ⟨"Buffer underflow in read_uint8", _, ?_, atLength.le⟩
    rw [parseColumns, bind_ok (readUint8_cons behind), if_neg notNull, if_neg notToast,
      if_pos rfl, bind_error text]

/-- The length of a text is read and then believed. -/
theorem readText_overlong {length : Bytes} (len : length.length = 4)
    (short : rest.length < beValue length) (at_ : At data offset (length ++ rest)) :
    readText data offset = .error (.undefined .pastTheEnd) (offset + 4) := by
  have behind := at_.advance
  rw [len] at behind
  have size := behind.size_eq
  have toNat := toNat_beValue32 len
  have positive : UInt32.ofNat (beValue length) > 0 := by
    rw [gt_iff_lt, UInt32.lt_iff_toNat_lt, toNat]
    exact Nat.zero_lt_of_lt short
  have leaves : copy data (beValue length) (offset + 4) =
      .error (.undefined .pastTheEnd) (offset + 4) := by
    rw [copy, if_neg (by omega)]
  rw [readText, bind_ok (readUint32_append at_ len), if_pos positive, toNat, bind_error leaves]

theorem parseColumns_overlong (at_ : At data offset rest) (overlong : OverlongColumns n rest) :
    ∃ last, parseColumns unknown data n tuple offset = .error (.undefined .pastTheEnd) last ∧
      last ≤ data.size := by
  obtain ⟨columns, length, behind, fewer, rfl, len, short⟩ := overlong
  obtain ⟨m, front, goesOn, atText⟩ := parseColumns_behind unknown tuple fewer at_
  have notNull : chr 't' ≠ chr 'n' := by decide
  have notToast : chr 't' ≠ chr 'u' := by decide
  have atLength := atText.advance_cons
  have size := atLength.size_eq
  rw [List.length_append, len] at size
  rw [goesOn]
  refine ⟨_, ?_, (by omega : offset + (encodeAll columns).length + 1 + 4 ≤ data.size)⟩
  rw [parseColumns, bind_ok (readUint8_cons atText), if_neg notNull, if_neg notToast,
    if_pos rfl, bind_error (readText_overlong len short atLength)]

end Columns

/-! ## Tuples -/

/-- The bytes begin with an Int16, and what is behind it is `P` of that many columns. -/
def CountThen (P : Nat → Bytes → Prop) (bytes : Bytes) : Prop :=
  ∃ count behind, bytes = count ++ behind ∧ count.length = 2 ∧ P (beValue count) behind

/-- The bytes begin with a tuple in the wider sense of the parser. -/
def WholeTuple (bytes : Bytes) : Prop := CountThen WholeColumns bytes

/-- They do, and one of its columns is of no known kind. -/
def ForeignTuple (bytes : Bytes) : Prop := CountThen ForeignColumns bytes

/-- They end at the count, at a kind or inside a length. -/
def CutTuple (bytes : Bytes) : Prop := bytes.length < 2 ∨ CountThen CutColumns bytes

/-- They announce a text longer than what follows. -/
def OverlongTuple (bytes : Bytes) : Prop := CountThen OverlongColumns bytes

/-- The bytes begin with TupleData. -/
def BeginsWithTuple (bytes : Bytes) : Prop := ∃ tuple : TupleData, tuple.encode <+: bytes

theorem tuple_cases (bytes : Bytes) : WholeTuple bytes ∨ CutTuple bytes ∨ OverlongTuple bytes := by
  rcases Nat.lt_or_ge bytes.length 2 with short | enough
  · exact .inr (.inl (.inl short))
  have len : (bytes.take 2).length = 2 := List.length_take_of_le enough
  have split := (List.take_append_drop 2 bytes).symm
  rcases columns_cases (beValue (bytes.take 2)) (bytes.drop 2) with whole | cut | overlong
  · exact .inl ⟨_, _, split, len, whole⟩
  · exact .inr (.inl (.inr ⟨_, _, split, len, cut⟩))
  · exact .inr (.inr ⟨_, _, split, len, overlong⟩)

/-- TupleData is a tuple with known columns only. -/
theorem beginsWithTuple_iff (bytes : Bytes) :
    BeginsWithTuple bytes ↔ WholeTuple bytes ∧ ¬ ForeignTuple bytes := by
  constructor
  · rintro ⟨tuple, behind, rfl⟩
    have small := tuple.count_lt
    have count : beValue (beBytes 2 tuple.columns.length) = tuple.columns.length :=
      beValue_beBytes (by omega)
    have known : ∀ column ∈ tuple.columns.map ReadColumn.known, column.IsKnown := by
      intro column mem
      obtain ⟨documented, _, rfl⟩ := List.mem_map.mp mem
      exact trivial
    have columnsLen : (tuple.columns.map ReadColumn.known).length = tuple.columns.length :=
      List.length_map _
    rw [TupleData.encode, ← encodeAll_known, List.append_assoc]
    refine ⟨⟨_, _, rfl, beBytes_length _ _, _, behind, ?_, rfl⟩, ?_⟩
    · rw [count, columnsLen]
    · rintro ⟨count', behind', same, len, columns, last, columnsLen', rfl, foreign⟩
      obtain ⟨rfl, columns_eq⟩ := List.append_inj same (by rw [beBytes_length, len])
      rw [count] at columnsLen'
      obtain ⟨rfl, _⟩ := encodeAll_append_inj (columnsLen.trans columnsLen'.symm) columns_eq
      exact foreign known
  · rintro ⟨⟨count, behind, rfl, len, columns, last, columnsLen, rfl⟩, native⟩
    have known : ∀ column ∈ columns, column.IsKnown := by
      by_contra foreign
      exact native ⟨count, _, rfl, len, columns, last, columnsLen, rfl, foreign⟩
    obtain ⟨documented, rfl⟩ := exists_known known
    have small := beValue_lt_of_length len
    rw [List.length_map] at columnsLen
    have field := beBytes_beValue count
    rw [len, ← columnsLen] at field
    refine ⟨⟨documented, by omega⟩, last, ?_⟩
    rw [TupleData.encode, field, encodeAll_known, List.append_assoc]

section Tuples

open PgOutputParser

variable {data : ByteVec} {offset : Nat} {rest : Bytes} (unknown : List Bytes)

/-- Behind the count the loop takes over. -/
theorem parseTupleWith_count {count behind : Bytes} (len : count.length = 2)
    (at_ : At data offset (count ++ behind)) :
    parseTupleWith unknown data offset =
        parseColumns unknown data (beValue count) [] (offset + 2) ∧
      At data (offset + 2) behind := by
  refine ⟨?_, len ▸ at_.advance⟩
  rw [parseTupleWith, bind_ok (readUint16_append at_ len), toNat_beValue16 len]

theorem parseTupleWith_whole {count : Bytes} {columns : List ReadColumn} (len : count.length = 2)
    (size : columns.length = beValue count)
    (at_ : At data offset (count ++ (encodeAll columns ++ rest))) :
    ∃ last, parseTupleWith unknown data offset =
        .ok (columns.flatMap (ReadColumn.values unknown)) last ∧ At data last rest := by
  obtain ⟨goesOn, behind⟩ := parseTupleWith_count unknown len at_
  have columns_eq := parseColumns_encodeAll unknown [] columns 0 behind
  rw [Nat.add_zero, size] at columns_eq
  exact ⟨_, goesOn.trans columns_eq, behind.advance⟩

theorem parseTupleWith_cut (at_ : At data offset rest) (cut : CutTuple rest) :
    ∃ what last, parseTupleWith unknown data offset = .error (.exception what) last ∧
      last ≤ data.size := by
  rcases cut with short | ⟨count, behind, rfl, len, cut⟩
  · refine ⟨"Buffer underflow in read_uint8", offset, ?_, at_.le⟩
    rw [parseTupleWith, bind_error (readUint16_short at_ short)]
  · obtain ⟨goesOn, atColumns⟩ := parseTupleWith_count unknown len at_
    rw [goesOn]
    exact parseColumns_cut unknown [] atColumns cut

theorem parseTupleWith_overlong (at_ : At data offset rest) (overlong : OverlongTuple rest) :
    ∃ last, parseTupleWith unknown data offset = .error (.undefined .pastTheEnd) last ∧
      last ≤ data.size := by
  obtain ⟨count, behind, rfl, len, overlong⟩ := overlong
  obtain ⟨goesOn, atColumns⟩ := parseTupleWith_count unknown len at_
  rw [goesOn]
  exact parseColumns_overlong unknown [] atColumns overlong

end Tuples

/-- What is asked of `parseTuple` at an offset: TupleData is returned, all else is thrown at, and
nothing is read past the end. -/
structure AcceptsTuples (data : ByteVec) (offset : Nat) : Prop where
  returns_iff : (∃ tuple last, PgOutputParser.parseTupleColumns data offset = .ok tuple last) ↔
    BeginsWithTuple (data.bytes.drop offset)
  throws : ¬ BeginsWithTuple (data.bytes.drop offset) →
    ∃ what last, PgOutputParser.parseTupleColumns data offset = .error (.exception what) last
  within : ∀ why last,
    PgOutputParser.parseTupleColumns data offset ≠ .error (.undefined why) last
  offset_le : finalState (PgOutputParser.parseTupleColumns data offset) ≤ data.size

namespace AcceptsTuples

variable {data : ByteVec} {offset last : Nat}

theorem of_returned {tuple : List Bytes} (begins : BeginsWithTuple (data.bytes.drop offset))
    (returned : PgOutputParser.parseTupleColumns data offset = .ok tuple last)
    (last_le : last ≤ data.size) : AcceptsTuples data offset where
  returns_iff := ⟨fun _ => begins, fun _ => ⟨tuple, last, returned⟩⟩
  throws := fun stranger => absurd begins stranger
  within := by
    intro why last' leaves
    rw [returned] at leaves
    cases leaves
  offset_le := by
    rw [returned]
    exact last_le

theorem of_thrown {what : String} (stranger : ¬ BeginsWithTuple (data.bytes.drop offset))
    (thrown : PgOutputParser.parseTupleColumns data offset = .error (.exception what) last)
    (last_le : last ≤ data.size) : AcceptsTuples data offset where
  returns_iff := by
    refine ⟨?_, fun begins => absurd begins stranger⟩
    rintro ⟨tuple, last', returned⟩
    rw [thrown] at returned
    cases returned
  throws := fun _ => ⟨what, last, thrown⟩
  within := by
    intro why last' leaves
    rw [thrown] at leaves
    cases leaves
  offset_le := by
    rw [thrown]
    exact last_le

end AcceptsTuples

/-- `parseTuple` accepts exactly TupleData and stays in its buffer except where a column is of no
known kind or a text is longer than what follows. -/
theorem acceptsTuples_iff (data : ByteVec) (offset : Nat) (inside : offset ≤ data.size) :
    AcceptsTuples data offset ↔
      ¬ ForeignTuple (data.bytes.drop offset) ∧ ¬ OverlongTuple (data.bytes.drop offset) := by
  have at_ : At data offset (data.bytes.drop offset) := ⟨inside, rfl⟩
  have parse_eq : PgOutputParser.parseTupleColumns data offset =
    PgOutputParser.parseTupleWith [[]] data offset := rfl
  constructor
  · intro accepts
    constructor
    · rintro ⟨count, behind, split, len, columns, last, size, rfl, foreign⟩
      rw [split] at at_
      obtain ⟨last', returned, _⟩ := parseTupleWith_whole [[]] len size at_
      have begins := accepts.returns_iff.mp ⟨_, last', returned⟩
      exact ((beginsWithTuple_iff _).mp begins).2
        ⟨count, _, split, len, columns, last, size, rfl, foreign⟩
    · intro overlong
      obtain ⟨last, leaves, _⟩ := parseTupleWith_overlong [[]] at_ overlong
      exact accepts.within _ last leaves
  · rintro ⟨native, fits⟩
    rcases tuple_cases (data.bytes.drop offset) with whole | cut | overlong
    · have begins := (beginsWithTuple_iff _).mpr ⟨whole, native⟩
      obtain ⟨count, behind, split, len, columns, last, size, rfl⟩ := whole
      rw [split] at at_
      obtain ⟨last', returned, behind⟩ := parseTupleWith_whole [[]] len size at_
      exact .of_returned begins (parse_eq.trans returned) behind.le
    · obtain ⟨what, last, thrown, last_le⟩ := parseTupleWith_cut [[]] at_ cut
      have stranger : ¬ BeginsWithTuple (data.bytes.drop offset) := by
        rintro ⟨tuple, behind, same⟩
        rw [← same] at at_
        rw [parseTupleWith_encode [[]] tuple at_] at thrown
        cases thrown
      exact .of_thrown stranger (parse_eq.trans thrown) last_le
    · exact absurd overlong fits

/-- A tuple of one column that is none. -/
def foreignTuple : ByteVec := ⟨[0, 1, chr 'x'], by decide⟩

theorem foreignTuple_foreign : ForeignTuple foreignTuple.bytes := by
  refine ⟨[0, 1], [chr 'x'], rfl, rfl, [.unknown ⟨chr 'x', by decide⟩], [], rfl, rfl, ?_⟩
  exact fun known => known _ List.mem_cons_self

theorem acceptsTuples_foreign : ¬ AcceptsTuples foreignTuple 0 := by
  intro accepts
  exact ((acceptsTuples_iff foreignTuple 0 (Nat.zero_le _)).mp accepts).1 foreignTuple_foreign

/-- The column `'x'` is returned as an empty value. -/
theorem foreignTuple_returned :
    ¬ ∀ (data : ByteVec) (offset : Nat), offset ≤ data.size → AcceptsTuples data offset := by
  intro always
  have accepts := always foreignTuple 0 (Nat.zero_le _)
  have returned : PgOutputParser.parseTupleColumns foreignTuple 0 = .ok [[]] 3 := rfl
  have begins := accepts.returns_iff.mp ⟨_, _, returned⟩
  exact ((beginsWithTuple_iff _).mp begins).2 foreignTuple_foreign

end KafkaReplication
