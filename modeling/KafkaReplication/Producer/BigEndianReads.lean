import KafkaReplication.Producer.CutBodies

/-!
# What the byte readers read

`read_uint8`, `read_uint16`, `read_uint32`, `read_uint64`, `read_string` and `read_int64`
(`producer_azs/pgoutput_parser.cpp:9-90`) against what they are for: numbers in network order and
texts that end at a NUL, from any offset inside any vector. The loop of `read_string`, which
`readStringLoop` follows over the bytes that are left, is compared with the loop over the offset
that the source has.
-/

namespace KafkaReplication
open Misc PgOutputParser

/-! ## Numbers -/

/-- `read` gives the `width` bytes at the offset as one number in network order and moves behind
them, or throws where there are fewer and stays. It looks at nothing outside the vector. -/
structure ReadsBigEndian {α : Type} (read : Reader α) (toNat : α → Nat) (width : Nat)
    (data : ByteVec) (offset : Nat) : Prop where
  short : data.size < offset + width →
    read offset = .error (.exception "Buffer underflow in read_uint8") offset
  enough : offset + width ≤ data.size → ∃ value, read offset = .ok value (offset + width) ∧
    toNat value = beValue ((data.bytes.drop offset).take width)
  within : ∀ why last, read offset ≠ .error (.undefined why) last

section Numbers

variable {α : Type} {read : Reader α} {toNat : α → Nat} {width : Nat} {data : ByteVec}
  {offset : Nat}

/-- A reader is known by what it does with too little and with a field of its width. -/
theorem ReadsBigEndian.of_at (inside : offset ≤ data.size)
    (short : ∀ {rest : Bytes}, At data offset rest → rest.length < width →
      read offset = .error (.exception "Buffer underflow in read_uint8") offset)
    (enough : ∀ {field rest : Bytes}, At data offset (field ++ rest) → field.length = width →
      ∃ value, read offset = .ok value (offset + width) ∧ toNat value = beValue field) :
    ReadsBigEndian read toNat width data offset := by
  have at_ : At data offset (data.bytes.drop offset) := ⟨inside, rfl⟩
  have size := at_.size_eq
  have throws : data.size < offset + width →
      read offset = .error (.exception "Buffer underflow in read_uint8") offset :=
    fun tooFew => short at_ (by omega)
  have returns : offset + width ≤ data.size → ∃ value, read offset = .ok value (offset + width) ∧
      toNat value = beValue ((data.bytes.drop offset).take width) := by
    intro fits
    have len : ((data.bytes.drop offset).take width).length = width :=
      List.length_take_of_le (by omega)
    rw [← List.take_append_drop width (data.bytes.drop offset)] at at_
    exact enough at_ len
  refine ⟨throws, returns, ?_⟩
  intro why last leaves
  rcases Nat.lt_or_ge data.size (offset + width) with tooFew | fits
  · rw [throws tooFew] at leaves
    cases leaves
  · obtain ⟨value, returned, _⟩ := returns fits
    rw [returned] at leaves
    cases leaves

theorem be64toh_leValue {field : Bytes} (len : field.length = 8) :
    be64toh (UInt64.ofNat (leValue field)) = UInt64.ofNat (beValue field) := by
  have small := leValue_lt field
  rw [len] at small
  rw [be64toh, UInt64.toNat_ofNat', Nat.mod_eq_of_lt (by omega), ← len, beValue_leBytes_leValue]

theorem load64_append {field rest : Bytes} (at_ : At data offset (field ++ rest))
    (len : field.length = 8) :
    load64 data offset = .ok (UInt64.ofNat (leValue field)) offset := by
  rw [load64, ← len, bind_ok at_.copy_append]
  rfl

theorem readInt64_append {field rest : Bytes} (at_ : At data offset (field ++ rest))
    (len : field.length = 8) :
    readInt64 data offset = .ok (UInt64.ofNat (beValue field)).toInt64 (offset + 8) := by
  have enough : 8 ≤ (field ++ rest).length := by simp [len]
  rw [readInt64, bind_ok (at_.require_ok enough _), bind_ok (load64_append at_ len),
    bind_ok (advance_at at_ (by omega)), ← be64toh_leValue len]
  rfl

/-- Eight bytes in one field, as they are in one field of four and another. -/
theorem readUint64_field {field rest : Bytes} (at_ : At data offset (field ++ rest))
    (len : field.length = 8) :
    readUint64 data offset = .ok (UInt64.ofNat (beValue field)) (offset + 8) := by
  have high : (field.take 4).length = 4 := List.length_take_of_le (by omega)
  have low : (field.drop 4).length = 4 := by rw [List.length_drop, len]
  have halves := List.take_append_drop 4 field
  rw [← halves, List.append_assoc] at at_
  have read := readUint64_append at_ high low
  rwa [halves] at read

theorem readUint64_short {rest : Bytes} (at_ : At data offset rest) (short : rest.length < 8) :
    readUint64 data offset = .error (.exception "Buffer underflow in read_uint8") offset := by
  rw [readUint64, bind_error (at_.require_short short (by omega) _)]

theorem readInt64_short {rest : Bytes} (at_ : At data offset rest) (short : rest.length < 8) :
    readInt64 data offset = .error (.exception "Buffer underflow in read_uint8") offset := by
  rw [readInt64, bind_error (at_.require_short short (by omega) _)]

theorem readUint8_bigEndian (inside : offset ≤ data.size) :
    ReadsBigEndian (readUint8 data) UInt8.toNat 1 data offset := by
  apply ReadsBigEndian.of_at inside
  · intro rest at_ short
    rw [List.length_eq_zero_iff.mp (Nat.lt_one_iff.mp short)] at at_
    exact readUint8_nil at_
  · intro field rest at_ len
    obtain ⟨b, rfl⟩ := List.length_eq_one_iff.mp len
    refine ⟨b, readUint8_cons at_, ?_⟩
    rw [beValue, List.reverse_singleton, leValue_cons]
    rfl

theorem readUint16_bigEndian (inside : offset ≤ data.size) :
    ReadsBigEndian (readUint16 data) UInt16.toNat 2 data offset := by
  apply ReadsBigEndian.of_at inside
  · exact readUint16_short
  · intro field rest at_ len
    exact ⟨_, readUint16_append at_ len, toNat_beValue16 len⟩

theorem readUint32_bigEndian (inside : offset ≤ data.size) :
    ReadsBigEndian (readUint32 data) UInt32.toNat 4 data offset := by
  apply ReadsBigEndian.of_at inside
  · exact readUint32_short
  · intro field rest at_ len
    exact ⟨_, readUint32_append at_ len, toNat_beValue32 len⟩

theorem readUint64_bigEndian (inside : offset ≤ data.size) :
    ReadsBigEndian (readUint64 data) UInt64.toNat 8 data offset := by
  apply ReadsBigEndian.of_at inside
  · exact readUint64_short
  · intro field rest at_ len
    exact ⟨_, readUint64_field at_ len, toNat_beValue64 len⟩

/-- The sign is the first bit of the eight bytes. -/
theorem readInt64_bigEndian (inside : offset ≤ data.size) :
    ReadsBigEndian (readInt64 data) (fun value => value.toUInt64.toNat) 8 data offset := by
  apply ReadsBigEndian.of_at inside
  · exact readInt64_short
  · intro field rest at_ len
    refine ⟨_, readInt64_append at_ len, ?_⟩
    rw [UInt64.toUInt64_toInt64, toNat_beValue64 len]

/-- The joined halves and `be64toh` are one number. -/
theorem readInt64_eq_readUint64 (inside : offset ≤ data.size) (fits : offset + 8 ≤ data.size) :
    ∃ value, readUint64 data offset = .ok value (offset + 8) ∧
      readInt64 data offset = .ok value.toInt64 (offset + 8) := by
  have at_ : At data offset (data.bytes.drop offset) := ⟨inside, rfl⟩
  have size := at_.size_eq
  have len : ((data.bytes.drop offset).take 8).length = 8 := List.length_take_of_le (by omega)
  rw [← List.take_append_drop 8 (data.bytes.drop offset)] at at_
  exact ⟨_, readUint64_field at_ len, readInt64_append at_ len⟩

end Numbers

/-! ## Texts -/

/-- The loop of `read_string` over the offset:
`while(offset < data.size() && data[offset] != '\0') str.push_back(data[offset++]);`. -/
def readStringWhile (data : ByteVec) (text : Bytes) (offset : Nat) :
    EStateM.Result Fault Nat Bytes :=
  if offset < data.size then
    match peek data offset with
    | .ok c _ =>
        if c = 0 then .ok text offset
        else readStringWhile data (text ++ [c]) (sizeAdd offset 1)
    | .error fault last => .error fault last
  else .ok text offset
termination_by data.size - offset
decreasing_by
  have bound := data.size_lt'
  unfold sizeAdd
  omega

section Texts

variable {data : ByteVec} {offset : Nat} {rest : Bytes}

theorem readStringWhile_at (text : Bytes) (at_ : At data offset rest) :
    readStringWhile data text offset = readStringLoop data rest text offset := by
  have size := at_.size_eq
  induction rest generalizing text offset with
  | nil =>
    rw [List.length_nil] at size
    rw [readStringWhile, if_neg (by omega)]
    rfl
  | cons c rest ih =>
    rw [List.length_cons] at size
    rw [readStringWhile, if_pos (by omega), at_.peek_cons, readStringLoop]
    by_cases isNul : c = 0
    · simp only [if_pos isNul]
      rfl
    · simp only [if_neg isNul]
      rw [bind_ok (advance_at at_ (by omega)), at_.sizeAdd_eq (by omega)]
      exact ih (text ++ [c]) at_.advance_cons at_.advance_cons.size_eq

/-- From any offset the two loops do the same. -/
theorem readStringWhile_eq (data : ByteVec) (text : Bytes) (offset : Nat) :
    readStringWhile data text offset =
      readStringLoop data (data.bytes.drop offset) text offset := by
  by_cases inside : offset ≤ data.size
  · exact readStringWhile_at text ⟨inside, rfl⟩
  · have nothing : data.bytes.drop offset = [] :=
      List.drop_eq_nil_of_le (Nat.le_of_not_le inside)
    rw [readStringWhile, if_neg (by omega), nothing]
    rfl

/-- A NUL splits the bytes at the first one there is. -/
theorem split_at_nul (terminated : 0 ∈ rest) :
    0 ∉ rest.takeWhile (· ≠ 0) ∧ ∃ behind, rest = rest.takeWhile (· ≠ 0) ++ 0 :: behind := by
  induction rest with
  | nil => cases terminated
  | cons c rest ih =>
    by_cases isNul : c = 0
    · subst isNul
      exact ⟨by simp, rest, by simp⟩
    · have later : 0 ∈ rest := (List.mem_cons.mp terminated).resolve_left (Ne.symm isNul)
      obtain ⟨nulFree, behind, split⟩ := ih later
      have taken : (c :: rest).takeWhile (· ≠ 0) = c :: rest.takeWhile (· ≠ 0) :=
        List.takeWhile_cons_of_pos (by simpa using isNul)
      rw [taken]
      refine ⟨?_, behind, by rw [List.cons_append, ← split]⟩
      rw [List.mem_cons, not_or]
      exact ⟨Ne.symm isNul, nulFree⟩

/-- `read_string` gives the bytes in front of the first NUL and moves behind it, or throws where
there is none. Its loop ends, and it looks at no byte outside the vector. -/
structure ReadsTerminated (data : ByteVec) (offset : Nat) : Prop where
  loop : ∀ text, readStringLoop data (data.bytes.drop offset) text offset =
    readStringWhile data text offset
  throws_iff : Throws (readString data) offset ↔ 0 ∉ data.bytes.drop offset
  returns : 0 ∈ data.bytes.drop offset →
    readString data offset = .ok ((data.bytes.drop offset).takeWhile (· ≠ 0))
      (offset + (((data.bytes.drop offset).takeWhile (· ≠ 0)).length + 1))
  within : ∀ why last, readString data offset ≠ .error (.undefined why) last

theorem readString_terminated (inside : offset ≤ data.size) : ReadsTerminated data offset := by
  have at_ : At data offset (data.bytes.drop offset) := ⟨inside, rfl⟩
  have returns : 0 ∈ data.bytes.drop offset →
      readString data offset = .ok ((data.bytes.drop offset).takeWhile (· ≠ 0))
        (offset + (((data.bytes.drop offset).takeWhile (· ≠ 0)).length + 1)) := by
    intro terminated
    obtain ⟨nulFree, behind, split⟩ := split_at_nul terminated
    rw [split] at at_
    exact readString_append nulFree at_
  have throws : 0 ∉ data.bytes.drop offset → Throws (readString data) offset :=
    fun nulFree => readString_throws nulFree at_
  refine ⟨fun text => (readStringWhile_eq data text offset).symm, ⟨?_, throws⟩, returns, ?_⟩
  · intro thrown terminated
    exact Throws.not_ok (returns terminated) thrown
  · intro why last leaves
    by_cases terminated : 0 ∈ data.bytes.drop offset
    · rw [returns terminated] at leaves
      cases leaves
    · exact Throws.not_undefined leaves (throws terminated)

end Texts

/-! ## All of them -/

/-- The six readers at an offset. -/
structure ReadersRefine (data : ByteVec) (offset : Nat) : Prop where
  uint8 : ReadsBigEndian (readUint8 data) UInt8.toNat 1 data offset
  uint16 : ReadsBigEndian (readUint16 data) UInt16.toNat 2 data offset
  uint32 : ReadsBigEndian (readUint32 data) UInt32.toNat 4 data offset
  uint64 : ReadsBigEndian (readUint64 data) UInt64.toNat 8 data offset
  int64 : ReadsBigEndian (readInt64 data) (fun value => value.toUInt64.toNat) 8 data offset
  sameBits : offset + 8 ≤ data.size → ∃ value, readUint64 data offset = .ok value (offset + 8) ∧
    readInt64 data offset = .ok value.toInt64 (offset + 8)
  string : ReadsTerminated data offset

/-- From every offset inside a vector the readers read what they are for. -/
theorem readersRefine (data : ByteVec) (offset : Nat) (inside : offset ≤ data.size) :
    ReadersRefine data offset where
  uint8 := readUint8_bigEndian inside
  uint16 := readUint16_bigEndian inside
  uint32 := readUint32_bigEndian inside
  uint64 := readUint64_bigEndian inside
  int64 := readInt64_bigEndian inside
  sameBits := readInt64_eq_readUint64 inside
  string := readString_terminated inside

/-- Behind a byte: eight that are a negative number, the last of them the only NUL. -/
theorem readersRefine_negative :
    ReadersRefine ⟨[7, 255, 1, 2, 3, 4, 5, 6, 0], by decide⟩ 1 :=
  readersRefine ⟨[7, 255, 1, 2, 3, 4, 5, 6, 0], by decide⟩ 1 (by decide)

end KafkaReplication
