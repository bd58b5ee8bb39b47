import KafkaReplication.Producer.PgOutputParser
import KafkaReplication.Producer.Protocol

/-!
# Decoding Update messages

`UpdateMessage::parse` takes the byte behind the first marker, which is the high byte of
a column count, for the marker of an old tuple. On a documented Update message it then
reads one tuple too few or one too many. `parseMessage_update_iff` says on which messages
the result is right all the same.

The hard case is an old part of 79 * 256 columns or more: the second tuple is read from
the byte `'N'` on, so that the marker and the count are taken for a count and the kind of
a column. `parseColumns_misaligned` says when that still gives the columns of the message.
-/

namespace KafkaReplication
open Misc PgOutputParser

/-! ## Reading backwards from a result -/

section Inversion

variable {data : ByteVec} {offset last : Nat} {rest : Bytes} {unknown : List Bytes}

theorem readUint32_ok {value : UInt32} (at_ : At data offset rest)
    (ok : readUint32 data offset = .ok value last) :
    ∃ field behind, rest = field ++ behind ∧ field.length = 4 ∧
      value = UInt32.ofNat (beValue field) ∧ last = offset + 4 := by
  by_cases short : rest.length < 4
  · rw [readUint32_short at_ short] at ok
    cases ok
  · refine ⟨rest.take 4, rest.drop 4, (List.take_append_drop 4 rest).symm, by simp; omega, ?_⟩
    rw [← List.take_append_drop 4 rest] at at_
    rw [readUint32_append at_ (by simp; omega)] at ok
    cases ok
    exact ⟨rfl, rfl⟩

theorem copy_ok {n : Nat} {value : Bytes} (at_ : At data offset rest)
    (ok : copy data n offset = .ok value last) :
    ∃ behind, rest = value ++ behind ∧ value.length = n ∧ last = offset := by
  have size := at_.size_eq
  unfold copy at ok
  split at ok
  · rename_i inside
    rw [at_.drop_eq] at ok
    cases ok
    exact ⟨rest.drop n, (List.take_append_drop n rest).symm, by simp; omega, rfl⟩
  · cases ok

/-- A text that was read stood there, behind its length. -/
theorem readText_ok {value : Bytes} (at_ : At data offset rest)
    (ok : readText data offset = .ok value last) :
    ∃ field behind, rest = field ++ (value ++ behind) ∧ field.length = 4 ∧
      beValue field = value.length ∧ At data last behind := by
  obtain ⟨length, u, read, ok⟩ := bind_eq_ok.mp ok
  obtain ⟨field, behind, rfl, len, rfl, rfl⟩ := readUint32_ok at_ read
  have toNat := toNat_beValue32 len
  have at' : At data (offset + 4) behind := len ▸ at_.advance
  split at ok
  · rw [toNat] at ok
    obtain ⟨text, u, copied, ok⟩ := bind_eq_ok.mp ok
    obtain ⟨behind, rfl, size, rfl⟩ := copy_ok at' copied
    have total := at'.size_eq
    have bound := data.size_lt'
    rw [List.length_append] at total
    rw [bind_ok (advance_at at' (by omega))] at ok
    cases ok
    exact ⟨field, behind, rfl, len, size.symm, size ▸ at'.advance⟩
  · rename_i zero
    have none : beValue field = 0 := by
      rw [← toNat]
      rw [gt_iff_lt, UInt32.lt_iff_toNat_lt] at zero
      simpa using zero
    cases ok
    exact ⟨field, behind, rfl, len, by simpa using none, at'⟩

/-- The loop only appends to the tuple. -/
theorem parseColumns_prefix {n : Nat} {tuple result : List Bytes}
    (ok : parseColumns unknown data n tuple offset = .ok result last) :
    ∃ more, result = tuple ++ more := by
  induction n generalizing tuple offset with
  | zero =>
    cases ok
    exact ⟨[], by simp⟩
  | succ n ih =>
    rw [parseColumns] at ok
    obtain ⟨kind, u, -, ok⟩ := bind_eq_ok.mp ok
    split at ok
    · obtain ⟨more, rfl⟩ := ih ok
      exact ⟨_, List.append_assoc _ _ _⟩
    · split at ok
      · obtain ⟨more, rfl⟩ := ih ok
        exact ⟨_, List.append_assoc _ _ _⟩
      · split at ok
        · obtain ⟨value, v, -, ok⟩ := bind_eq_ok.mp ok
          obtain ⟨more, rfl⟩ := ih ok
          exact ⟨_, List.append_assoc _ _ _⟩
        · obtain ⟨more, rfl⟩ := ih ok
          exact ⟨_, List.append_assoc _ _ _⟩

/-- From the start of documented columns that end the message, `m` rounds of the loop
read `m` of them, or fail. -/
theorem parseColumns_aligned {columns : List TupleColumn} {m : Nat} {tuple result : List Bytes}
    (at_ : At data offset (encodeColumns columns))
    (ok : parseColumns unknown data m tuple offset = .ok result last) :
    m ≤ columns.length ∧ result = tuple ++ (columns.take m).map TupleColumn.value := by
  rcases Nat.lt_or_ge columns.length m with long | enough
  · -- All columns are read, and the next round finds the end of the message.
    have ended : At data (offset + (encodeColumns columns).length) [] := by
      rw [← List.append_nil (encodeColumns columns)] at at_
      exact at_.advance
    have whole : At data offset (encodeColumns columns ++ []) := by rwa [List.append_nil]
    have all := parseColumns_columns unknown columns (m - columns.length) tuple whole
    rw [show columns.length + (m - columns.length) = m by omega,
      show m - columns.length = (m - columns.length - 1) + 1 by omega, parseColumns,
      bind_error (readUint8_nil ended)] at all
    rw [all] at ok
    cases ok
  · have split : encodeColumns columns =
        encodeColumns (columns.take m) ++ encodeColumns (columns.drop m) := by
      rw [← encodeColumns_append, List.take_append_drop]
    have read := parseColumns_columns unknown (columns.take m) 0 tuple (split ▸ at_)
    have count : (columns.take m).length + 0 = m := by simp; omega
    rw [count, ok] at read
    cases read
    exact ⟨enough, rfl⟩

/-- A text that starts one byte late, behind a copy of its own first byte, leaves that
byte for what follows it. -/
theorem append_eq_cons_append {x : UInt8} {text behind tail : Bytes}
    (same : text ++ behind = x :: (text ++ tail)) : behind = x :: tail := by
  induction text with
  | nil => exact same
  | cons a text ih =>
    obtain ⟨rfl, next⟩ := List.cons.inj same
    exact ih next

theorem eq_of_append_singleton {x z : Bytes} {values : List Bytes}
    (same : values ++ [z] = x :: values) : z = x ∧ ∀ value ∈ values, value = x := by
  induction values with
  | nil => simpa using same
  | cons a values ih =>
    obtain ⟨rfl, next⟩ := List.cons.inj same
    obtain ⟨last, all⟩ := ih next
    exact ⟨last, by simpa using all⟩

theorem beValue_cons (b : UInt8) (bytes : Bytes) :
    beValue (b :: bytes) = b.toNat * 256 ^ bytes.length + beValue bytes := by
  simp only [beValue, leValue, List.reverse_cons, List.map_append, Nat.ofDigits_append,
    List.length_map, List.length_reverse, List.map_cons, List.map_nil, Nat.ofDigits_singleton]
  rw [Nat.mul_comm]
  omega

/-- Read one byte early, behind a stray `'t'`, the first column gives its value only if it
is a text made of that byte, and then the rest is read one byte early again. -/
theorem readText_shifted {column : TupleColumn} {tail : Bytes}
    (at_ : At data offset (column.encode ++ tail))
    (ok : readText data offset = .ok column.value last) : At data last (chr 't' :: tail) := by
  obtain ⟨field, behind, same, len, size, at'⟩ := readText_ok at_ ok
  obtain ⟨f0, f1, f2, f3, rfl⟩ : ∃ a b c d, field = [a, b, c, d] := by
    match field, len with
    | [a, b, c, d], _ => exact ⟨a, b, c, d, rfl⟩
  have value := beValue_cons f0 [f1, f2, f3]
  cases column with
  | null =>
    obtain ⟨rfl, -⟩ := List.cons.inj same
    simp [TupleColumn.value, str, chr] at size value
    omega
  | toast =>
    obtain ⟨rfl, -⟩ := List.cons.inj same
    simp [TupleColumn.value, str, chr] at size value
    omega
  | text text =>
    -- The four bytes read as a length are the kind and the upper bytes of the length.
    have digits : beBytes 4 text.val.length = [f0, f1, f2, f3] := by
      rw [← beBytes_beValue [f0, f1, f2, f3], size]
      rfl
    rw [TupleColumn.encode, digits] at same
    simp only [TupleColumn.value, List.cons_append, List.nil_append, List.cons.injEq] at same
    obtain ⟨rfl, rfl, rfl, rfl, same⟩ := same
    rw [← append_eq_cons_append same.symm]
    exact at'

theorem parseColumns_shifted {columns : List TupleColumn} {m : Nat} {tuple : List Bytes}
    (at_ : At data offset (chr 't' :: encodeColumns columns))
    (ok : parseColumns unknown data m tuple offset =
      .ok (tuple ++ columns.map TupleColumn.value) last) :
    m = columns.length := by
  have notNull : chr 't' ≠ chr 'n' := by decide
  have notToast : chr 't' ≠ chr 'u' := by decide
  induction columns generalizing m tuple offset with
  | nil =>
    cases m with
    | zero => rfl
    | succ m =>
      have short := readUint32_short at_.advance_cons (by simp)
      rw [parseColumns, bind_ok (readUint8_cons at_), if_neg notNull, if_neg notToast,
        if_pos rfl, bind_error (by rw [readText, bind_error short])] at ok
      cases ok
  | cons column columns ih =>
    cases m with
    | zero =>
      injection ok with same
      have longer := congrArg List.length same
      simp at longer
    | succ m =>
      rw [parseColumns, bind_ok (readUint8_cons at_), if_neg notNull, if_neg notToast,
        if_pos rfl] at ok
      obtain ⟨value, u, read, ok⟩ := bind_eq_ok.mp ok
      obtain ⟨more, same⟩ := parseColumns_prefix ok
      simp only [List.map_cons, List.append_assoc, List.append_cancel_left_eq,
        List.singleton_append, List.cons.injEq] at same
      obtain ⟨rfl, rfl⟩ := same
      have behind := readText_shifted at_.advance_cons read
      have all : parseColumns unknown data m (tuple ++ [column.value]) u =
          .ok ((tuple ++ [column.value]) ++ columns.map TupleColumn.value) last := by
        simpa using ok
      simp [ih behind all]

/-- The low byte of a count as a column kind, when it is one of the three. -/
theorem kind_eq_iff (n : Nat) (c : Char) (small : c.toNat < 256) :
    UInt8.ofNat n = chr c ↔ n % 256 = c.toNat := by
  rw [chr, ← UInt8.toNat_inj, UInt8.toNat_ofNat', UInt8.toNat_ofNat']
  omega

/-- `'N'` and a column count, read as a count and the kind of a column, in front of the
columns: the loop gives their values only if the kind is unknown and what that adds to the
tuple fits. -/
theorem parseColumns_misaligned {columns : List TupleColumn}
    (at_ : At data offset (UInt8.ofNat columns.length :: encodeColumns columns)) :
    (∃ last, parseColumns unknown data (19968 + columns.length / 256) [] offset =
        .ok (columns.map TupleColumn.value) last) ↔
      UInt8.ofNat columns.length ≠ chr 'n' ∧ UInt8.ofNat columns.length ≠ chr 'u' ∧
      UInt8.ofNat columns.length ≠ chr 't' ∧ 19967 + columns.length / 256 ≤ columns.length ∧
      columns.map TupleColumn.value =
        unknown ++ (columns.take (19967 + columns.length / 256)).map TupleColumn.value := by
  have behind := at_.advance_cons
  have rounds : 19968 + columns.length / 256 = (19967 + columns.length / 256) + 1 := by omega
  have kind := readUint8_cons at_
  constructor
  · rintro ⟨last, ok⟩
    have notText : UInt8.ofNat columns.length ≠ chr 't' := by
      intro text
      have all : parseColumns unknown data (19968 + columns.length / 256) [] offset =
          .ok ([] ++ columns.map TupleColumn.value) last := ok
      have all := parseColumns_shifted (text ▸ at_) all
      rw [kind_eq_iff _ _ (by decide)] at text
      simp at text
      omega
    rw [rounds, parseColumns, bind_ok kind] at ok
    split at ok
    · rename_i null
      rw [kind_eq_iff _ _ (by decide)] at null
      obtain ⟨-, same⟩ := parseColumns_aligned behind ok
      have := congrArg List.length same
      simp at this null
      omega
    · rename_i notNull
      split at ok
      · rename_i toast
        rw [kind_eq_iff _ _ (by decide)] at toast
        obtain ⟨-, same⟩ := parseColumns_aligned behind ok
        have := congrArg List.length same
        simp at this toast
        omega
      · rename_i notToast
        -- What `unknown` adds has come first.
        obtain ⟨enough, same⟩ := parseColumns_aligned behind ok
        exact ⟨notNull, notToast, notText, enough, same⟩
  · rintro ⟨notNull, notToast, notText, enough, same⟩
    have split : encodeColumns columns =
        encodeColumns (columns.take (19967 + columns.length / 256)) ++
          encodeColumns (columns.drop (19967 + columns.length / 256)) := by
      rw [← encodeColumns_append, List.take_append_drop]
    have read := parseColumns_columns unknown
      (columns.take (19967 + columns.length / 256)) 0 unknown (split ▸ behind)
    have count : (columns.take (19967 + columns.length / 256)).length + 0 =
        19967 + columns.length / 256 := by
      simp only [List.length_take]
      omega
    rw [count, ← same] at read
    refine ⟨offset + 1 +
      (encodeColumns (columns.take (19967 + columns.length / 256))).length, ?_⟩
    rw [rounds, parseColumns, bind_ok kind, if_neg notNull, if_neg notToast, if_neg notText,
      List.nil_append, read]
    rfl

/-- Without a column list an unknown kind adds nothing, and 20045 columns fit. -/
theorem parseColumns_misaligned_plain {columns : List TupleColumn}
    (at_ : At data offset (UInt8.ofNat columns.length :: encodeColumns columns)) :
    (∃ last, parseColumns [] data (19968 + columns.length / 256) [] offset =
        .ok (columns.map TupleColumn.value) last) ↔ columns.length = 20045 := by
  rw [parseColumns_misaligned at_]
  constructor
  · rintro ⟨-, -, -, enough, same⟩
    have := congrArg List.length same
    simp only [List.length_map, List.nil_append, List.length_take] at this
    omega
  · intro count
    have kind : UInt8.ofNat columns.length = chr 'M' := by rw [count]; rfl
    rw [kind]
    refine ⟨by decide, by decide, by decide, by omega, ?_⟩
    rw [List.take_of_length_le (by omega), List.nil_append]

/-- With a column list an unknown kind adds an empty value, and 20046 empty texts fit. -/
theorem parseColumns_misaligned_columns {columns : List TupleColumn}
    (at_ : At data offset (UInt8.ofNat columns.length :: encodeColumns columns)) :
    (∃ last, parseColumns [[]] data (19968 + columns.length / 256) [] offset =
        .ok (columns.map TupleColumn.value) last) ↔
      columns.length = 20046 ∧ ∀ column ∈ columns, column.value = [] := by
  rw [parseColumns_misaligned at_]
  constructor
  · rintro ⟨-, -, -, enough, same⟩
    have sizes := congrArg List.length same
    simp only [List.length_map, List.length_append, List.length_take, List.length_cons,
      List.length_nil] at sizes
    have count : columns.length = 20046 := by omega
    have lastColumn : ∃ front last, columns = front ++ [last] := by
      refine ⟨columns.dropLast, columns.getLast (by intro none; simp [none] at count), ?_⟩
      rw [List.dropLast_append_getLast]
    obtain ⟨front, last, rfl⟩ := lastColumn
    have size : front.length = 19967 + (front ++ [last]).length / 256 := by
      rw [count]
      simpa using count
    rw [← size, List.take_left] at same
    obtain ⟨lastEmpty, frontEmpty⟩ := eq_of_append_singleton (by simpa using same)
    refine ⟨count, ?_⟩
    intro column member
    rcases List.mem_append.mp member with member | member
    · exact frontEmpty _ (List.mem_map_of_mem member)
    · rw [List.mem_singleton.mp member, lastEmpty]
  · rintro ⟨count, empty⟩
    have kind : UInt8.ofNat columns.length = chr 'N' := by rw [count]; rfl
    have values : ∀ n, (columns.take n).map TupleColumn.value =
        List.replicate (min n 20046) [] := by
      intro n
      rw [List.eq_replicate_iff]
      refine ⟨by simp [count], ?_⟩
      intro value member
      obtain ⟨column, found, rfl⟩ := List.mem_map.mp member
      exact empty column (List.mem_of_mem_take found)
    rw [kind]
    refine ⟨by decide, by decide, by decide, by omega, ?_⟩
    have all := values columns.length
    rw [List.take_length] at all
    rw [all, values, count]
    rfl

end Inversion

/-! ## The Update message -/

theorem TupleData.encode_eq (tuple : TupleData) :
    tuple.encode = UInt8.ofNat (tuple.columns.length / 256) ::
      UInt8.ofNat tuple.columns.length :: encodeColumns tuple.columns := rfl

/-- The marker of an old tuple as the high byte of a count. -/
theorem highByte_eq_O (tuple : TupleData) :
    UInt8.ofNat (tuple.columns.length / 256) = chr 'O' ↔ tuple.columns.length / 256 = 79 := by
  have := tuple.count_lt
  rw [kind_eq_iff _ _ (by decide)]
  simp
  omega

theorem TupleData.values_eq_nil (tuple : TupleData) : tuple.values = [] ↔ tuple.columns = [] := by
  simp [values]

section Parse

variable {data : ByteVec} {rest : Bytes} {cache : RelationCache} {relationId : UInt32}

/-- `UpdateMessage::parse` behind the relation id and the first marker. -/
theorem UpdateMessage.parse_eq {marker next : UInt8}
    (at_ : At data 0 (beBytes 4 relationId.toNat ++ marker :: next :: rest)) :
    UpdateMessage.parse cache data 0 =
      UpdateMessage.parseTuples cache relationId next data 5 := by
  have small := relationId.toNat_lt
  have id : UInt32.ofNat (beValue (beBytes 4 relationId.toNat)) = relationId := by
    rw [beValue_beBytes (by omega), UInt32.ofNat_toNat]
  have atMarker := at_.advance
  rw [beBytes_length] at atMarker
  have atNext := atMarker.advance_cons
  rw [UpdateMessage.parse, bind_ok (readUint32_append at_ (beBytes_length 4 _)), id,
    bind_ok (readUint8_cons atMarker), bind_ok atNext.peek_cons]

/-- With an old tuple announced, the two tuples are read one behind the other. -/
theorem UpdateMessage.parseTuples_old {next : UInt8} {old : List Bytes} {u : Nat}
    (isOld : next = chr 'O') (read : parseRow cache relationId data 5 = .ok old u)
    (msg : UpdateMessage) :
    (∃ last, UpdateMessage.parseTuples cache relationId next data 5 = .ok msg last) ↔
      msg.relationId = relationId ∧ msg.oldTuple = old ∧
        ∃ last, parseRow cache relationId data u = .ok msg.newTuple last := by
  have second : UpdateMessage.parseTuples cache relationId next data 5 =
      (do
        let newTuple ← parseRow cache relationId data
        return { relationId, oldTuple := old, newTuple : UpdateMessage } : Reader _) u := by
    rw [UpdateMessage.parseTuples, if_pos isOld, bind_ok read]
  rw [second]
  constructor
  · rintro ⟨last, ok⟩
    obtain ⟨new, v, readNew, ok⟩ := bind_eq_ok.mp ok
    cases ok
    exact ⟨rfl, rfl, last, readNew⟩
  · rintro ⟨rfl, rfl, last, readNew⟩
    refine ⟨last, ?_⟩
    rw [bind_ok readNew]
    rfl

theorem UpdateMessage.parseTuples_new {next : UInt8} {new : List Bytes} {u : Nat}
    (noOld : next ≠ chr 'O') (read : parseRow cache relationId data 5 = .ok new u)
    (msg : UpdateMessage) :
    (∃ last, UpdateMessage.parseTuples cache relationId next data 5 = .ok msg last) ↔
      msg = { relationId, oldTuple := [], newTuple := new } := by
  have none : (pure [] : Reader (List Bytes)) 5 = .ok [] 5 := rfl
  have parsed : UpdateMessage.parseTuples cache relationId next data 5 =
      .ok { relationId, oldTuple := [], newTuple := new } u := by
    rw [UpdateMessage.parseTuples, if_neg noOld]
    exact (bind_ok none).trans (bind_ok read)
  rw [parsed]
  constructor
  · rintro ⟨last, ok⟩
    cases ok
    rfl
  · rintro rfl
    exact ⟨u, rfl⟩

end Parse

/-- What `parseMessage` makes of an Update message is what `UpdateMessage::parse` makes
of its body. -/
theorem parseMessage_update (offset0 : Nat) (cache : RelationCache) (rawMessage : ByteVec)
    {body : Bytes} (bytes : rawMessage.bytes = chr 'U' :: body) (msg : UpdateMessage) :
    parseMessage offset0 rawMessage cache = .ok (some (.update msg)) cache ↔
      ∃ last, UpdateMessage.parse cache (rawMessage.dropFront 1) 0 = .ok msg last := by
  have switch : parseBody offset0 cache (chr 'U') (rawMessage.dropFront 1) =
      ((UpdateMessage.parse cache (rawMessage.dropFront 1)).result 0).map (some ∘ .update) := rfl
  simp only [parseMessage, bytes, switch, Reader.result]
  cases UpdateMessage.parse cache (rawMessage.dropFront 1) 0 with
  | ok parsed last => simp [Except.map, cacheRelation]
  | error fault last => cases fault <;> simp [Except.map]

/-- The condition under which an Update message is decoded as documented: no old part and
a column count whose high byte is not an `'O'`; or two empty tuples; or an old tuple whose
count has an `'O'` there, with just the new tuple that reads the same from the `'N'` on. -/
def UpdateDecodes (cached : Bool) (oldPart : OldPart) (newTuple : TupleData) : Prop :=
  match oldPart with
  | .none => newTuple.columns.length / 256 ≠ 79
  | .key tuple | .old tuple =>
      (tuple.columns = [] ∧ newTuple.columns = []) ∨
      (tuple.columns.length / 256 = 79 ∧
        if cached then
          newTuple.columns.length = 20046 ∧ ∀ column ∈ newTuple.columns, column.value = []
        else newTuple.columns.length = 20045)

/-- A tuple read from the `'N'` in front of it on. -/
theorem parseRow_misaligned {cache : RelationCache} {relationId : UInt32} {data : ByteVec}
    {offset : Nat} {tuple : TupleData} (at_ : At data offset (chr 'N' :: tuple.encode)) :
    (∃ last, parseRow cache relationId data offset = .ok tuple.values last) ↔
      if (cache relationId).isSome then
        tuple.columns.length = 20046 ∧ ∀ column ∈ tuple.columns, column.value = []
      else tuple.columns.length = 20045 := by
  have small := tuple.count_lt
  rw [TupleData.encode_eq] at at_
  have behind : At data (offset + 2)
      (UInt8.ofNat tuple.columns.length :: encodeColumns tuple.columns) :=
    at_.advance_cons.advance_cons
  have value : beValue [chr 'N', UInt8.ofNat (tuple.columns.length / 256)] =
      19968 + tuple.columns.length / 256 := by
    have high := beValue_cons (chr 'N') [UInt8.ofNat (tuple.columns.length / 256)]
    have low := beValue_cons (UInt8.ofNat (tuple.columns.length / 256)) []
    have none : beValue [] = 0 := rfl
    have N : (chr 'N').toNat = 78 := rfl
    rw [none, List.length_nil, UInt8.toNat_ofNat', Nat.mod_eq_of_lt (by omega)] at low
    rw [low, N, List.length_singleton] at high
    omega
  have count : (UInt16.ofNat (beValue [chr 'N', UInt8.ofNat (tuple.columns.length / 256)])).toNat
      = 19968 + tuple.columns.length / 256 := by
    rw [value, UInt16.toNat_ofNat', Nat.mod_eq_of_lt (by omega)]
  have atCount : At data offset ([chr 'N', UInt8.ofNat (tuple.columns.length / 256)] ++
      UInt8.ofNat tuple.columns.length :: encodeColumns tuple.columns) := at_
  have read := readUint16_append atCount rfl
  have loop : ∀ unknown, parseTupleWith unknown data offset =
      parseColumns unknown data (19968 + tuple.columns.length / 256) [] (offset + 2) := by
    intro unknown
    rw [parseTupleWith, bind_ok read, count]
  cases cached : cache relationId with
  | none =>
    rw [parseRow_uncached cached, loop]
    exact parseColumns_misaligned_plain behind
  | some relation =>
    rw [parseRow_cached cached, loop]
    exact parseColumns_misaligned_columns behind

/-- The decoding of an Update message with an old part, whichever its marker. -/
theorem parse_update_oldPart {cache : RelationCache} {relationId : UInt32} {data : ByteVec}
    {marker : UInt8} {tuple newTuple : TupleData}
    (at_ : At data 0 (beBytes 4 relationId.toNat ++
      marker :: (tuple.encode ++ chr 'N' :: newTuple.encode))) :
    (∃ last, UpdateMessage.parse cache data 0 =
        .ok { relationId, oldTuple := tuple.values, newTuple := newTuple.values } last) ↔
      UpdateDecodes (cache relationId).isSome (.old tuple) newTuple := by
  have behindMarker : At data 5 (tuple.encode ++ (chr 'N' :: newTuple.encode)) := by
    have := at_.advance
    rw [beBytes_length] at this
    exact this.advance_cons
  have readOld := parseRow_encode cache relationId tuple behindMarker
  rw [TupleData.encode_eq] at at_
  rw [UpdateMessage.parse_eq at_]
  by_cases isOld : tuple.columns.length / 256 = 79
  · -- The old tuple is read as one, and the new one from its marker on.
    have someOld : tuple.columns ≠ [] := by
      intro none
      simp [none] at isOld
    rw [UpdateMessage.parseTuples_old ((highByte_eq_O tuple).mpr isOld) readOld,
      parseRow_misaligned behindMarker.advance]
    simp [UpdateDecodes, isOld, someOld]
  · rw [UpdateMessage.parseTuples_new (by rwa [ne_eq, highByte_eq_O]) readOld]
    simp only [UpdateDecodes, isOld, false_and, or_false, UpdateMessage.mk.injEq, true_and,
      TupleData.values_eq_nil]
    constructor
    · rintro ⟨noColumns, same⟩
      refine ⟨noColumns, ?_⟩
      rw [(TupleData.values_eq_nil tuple).mpr noColumns, TupleData.values_eq_nil] at same
      exact same
    · rintro ⟨noColumns, noNew⟩
      refine ⟨noColumns, ?_⟩
      rw [(TupleData.values_eq_nil tuple).mpr noColumns, TupleData.values_eq_nil]
      exact noNew

/-- `parseMessage` returns the documented contents of an Update message exactly under
`UpdateDecodes`. -/
theorem parseMessage_update_iff (offset0 : Nat) (cache : RelationCache) (relationId : UInt32)
    (oldPart : OldPart) (newTuple : TupleData) :
    parseMessage offset0 (encodeUpdate relationId oldPart newTuple) cache =
        .ok (some (.update
          { relationId, oldTuple := oldPart.values, newTuple := newTuple.values })) cache ↔
      UpdateDecodes (cache relationId).isSome oldPart newTuple := by
  rw [parseMessage_update offset0 cache _ rfl]
  cases oldPart with
  | none =>
    have at_ := At.start ((encodeUpdate relationId .none newTuple).dropFront 1)
    have behindMarker : At ((encodeUpdate relationId .none newTuple).dropFront 1) 5
        newTuple.encode := by
      have atId : At ((encodeUpdate relationId .none newTuple).dropFront 1) 0
          (beBytes 4 relationId.toNat ++ chr 'N' :: newTuple.encode) := at_
      have := atId.advance
      rw [beBytes_length] at this
      exact this.advance_cons
    have whole : At ((encodeUpdate relationId .none newTuple).dropFront 1) 5
        (newTuple.encode ++ []) := by rwa [List.append_nil]
    have read := parseRow_encode cache relationId newTuple whole
    have next : At ((encodeUpdate relationId .none newTuple).dropFront 1) 0
        (beBytes 4 relationId.toNat ++ chr 'N' ::
          UInt8.ofNat (newTuple.columns.length / 256) ::
            UInt8.ofNat newTuple.columns.length :: encodeColumns newTuple.columns) := at_
    rw [UpdateMessage.parse_eq next]
    by_cases isOld : newTuple.columns.length / 256 = 79
    · -- The only tuple is taken for an old one, and nothing is left for the new one.
      have someNew : newTuple.columns ≠ [] := by
        intro none
        simp [none] at isOld
      have someValue := mt (TupleData.values_eq_nil newTuple).mp someNew
      rw [UpdateMessage.parseTuples_old ((highByte_eq_O newTuple).mpr isOld) read]
      simp [UpdateDecodes, isOld, OldPart.values, Ne.symm someValue]
    · rw [UpdateMessage.parseTuples_new (by rwa [ne_eq, highByte_eq_O]) read]
      simp [UpdateDecodes, isOld, OldPart.values]
  | key tuple => exact parse_update_oldPart (At.start _)
  | old tuple => exact parse_update_oldPart (At.start _)

/-- The key of a row goes from 1 to 2: the old key comes out as the new row, and the new
row is not read. -/
theorem parseMessage_update_exchanged :
    parseMessage 0
        (encodeUpdate 7 (.key ⟨[.text ⟨str "1", by decide⟩], by decide⟩)
          ⟨[.text ⟨str "2", by decide⟩], by decide⟩) (fun _ => none) ≠
      .ok (some (.update
        { relationId := 7, oldTuple := [str "1"], newTuple := [str "2"] })) (fun _ => none) := by
  intro same
  have exchanged : parseMessage 0
      (encodeUpdate 7 (.key ⟨[.text ⟨str "1", by decide⟩], by decide⟩)
        ⟨[.text ⟨str "2", by decide⟩], by decide⟩) (fun _ => none) =
      .ok (some (.update { relationId := 7, oldTuple := [], newTuple := [str "1"] }))
        (fun _ => none) := rfl
  rw [exchanged] at same
  injection same with message
  exact absurd message (by decide)

end KafkaReplication
