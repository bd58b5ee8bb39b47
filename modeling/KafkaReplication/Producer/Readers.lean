import KafkaReplication.Misc.Buffer

/-!
# The byte readers of `PgOutputParser`

`producer_azs/pgoutput_parser.cpp:9-90` and the two `parseTuple` overloads
(`:215-289`). The integers travel in network order: `memcpy` loads them in the
order of the (little-endian) host and `ntohs`, `ntohl`, `be64toh` swap them.
-/

namespace KafkaReplication
open Misc

/-! ## Loads and byte swaps -/

def ntohs (x : UInt16) : UInt16 := UInt16.ofNat (beValue (leBytes 2 x.toNat))

def ntohl (x : UInt32) : UInt32 := UInt32.ofNat (beValue (leBytes 4 x.toNat))

def be64toh (x : UInt64) : UInt64 := UInt64.ofNat (beValue (leBytes 8 x.toNat))

/-- `memcpy(&bytes_read, &data[offset], 2)` into a `uint16_t`. -/
def load16 (data : ByteVec) : Reader UInt16 := do
  let bytes ← copy data 2
  return UInt16.ofNat (leValue bytes)

/-- The same for a `uint32_t`; also `*reinterpret_cast<const uint32_t*>(&data[offset])`. -/
def load32 (data : ByteVec) : Reader UInt32 := do
  let bytes ← copy data 4
  return UInt32.ofNat (leValue bytes)

def load64 (data : ByteVec) : Reader UInt64 := do
  let bytes ← copy data 8
  return UInt64.ofNat (leValue bytes)

namespace PgOutputParser

/-- `read_uint8` (`pgoutput_parser.cpp:9-15`). -/
def readUint8 (data : ByteVec) : Reader UInt8 := do
  requireNext data "Buffer underflow in read_uint8"
  let byte ← peek data
  advance 1
  return byte

/-- `read_uint16` (`pgoutput_parser.cpp:17-27`). -/
def readUint16 (data : ByteVec) : Reader UInt16 := do
  require data 2 "Buffer underflow in read_uint8"
  let bytesRead ← load16 data
  advance 2
  return ntohs bytesRead

/-- `read_uint32` (`pgoutput_parser.cpp:29-39`). -/
def readUint32 (data : ByteVec) : Reader UInt32 := do
  require data 4 "Buffer underflow in read_uint8"
  let bytesRead ← load32 data
  advance 4
  return ntohl bytesRead

/-- `read_uint64` (`pgoutput_parser.cpp:41-55`). -/
def readUint64 (data : ByteVec) : Reader UInt64 := do
  require data 8 "Buffer underflow in read_uint8"
  let lsnHigh ← readUint32 data
  let lsnLow ← readUint32 data
  return (lsnHigh.toUInt64 <<< 32) ||| lsnLow.toUInt64

/-- The loop of `read_string` (`pgoutput_parser.cpp:65-68`), over what is left of the vector. -/
def readStringLoop (data : ByteVec) : Bytes → Bytes → Reader Bytes
  | [], text => pure text
  | c :: rest, text =>
      if c = 0 then pure text
      else do
        advance 1
        readStringLoop data rest (text ++ [c])

/-- `read_string` (`pgoutput_parser.cpp:57-77`). -/
def readString (data : ByteVec) : Reader Bytes := do
  requireNext data "Buffer underflow in read_string start"
  let offset ← get
  let text ← readStringLoop data (data.bytes.drop offset) []
  requireNext data "String not null-terminated"
  advance 1
  return text

/-- `read_int64` (`pgoutput_parser.cpp:79-90`). -/
def readInt64 (data : ByteVec) : Reader Int64 := do
  require data 8 "Buffer underflow in read_uint8"
  let bytesRead ← load64 data
  advance 8
  return (be64toh bytesRead).toInt64

/-! ## Tuples -/

/-- One text value: its length, then `value.assign(&data[offset], length)`, unchecked. -/
def readText (data : ByteVec) : Reader Bytes := do
  let length ← readUint32 data
  if length > 0 then
    let value ← copy data length.toNat
    advance length.toNat
    return value
  else
    return []

/-- The loops of the two `parseTuple` overloads. They differ in what a column of unknown
kind adds to the tuple, which is `unknown`. -/
def parseColumns (unknown : List Bytes) (data : ByteVec) :
    Nat → List Bytes → Reader (List Bytes)
  | 0, tuple => pure tuple
  | n + 1, tuple => do
      let columnType ← readUint8 data
      if columnType = chr 'n' then
        parseColumns unknown data n (tuple ++ [str "NULL"])
      else if columnType = chr 'u' then
        parseColumns unknown data n (tuple ++ [str "TOAST"])
      else if columnType = chr 't' then do
        let value ← readText data
        parseColumns unknown data n (tuple ++ [value])
      else
        parseColumns unknown data n (tuple ++ unknown)

def parseTupleWith (unknown : List Bytes) (data : ByteVec) : Reader (List Bytes) := do
  let numColumns ← readUint16 data
  parseColumns unknown data numColumns.toNat []

/-- `parseTuple` without columns (`pgoutput_parser.cpp:215-245`): an unknown kind adds nothing. -/
def parseTuple (data : ByteVec) : Reader (List Bytes) := parseTupleWith [] data

/-- `parseTuple` with columns (`pgoutput_parser.cpp:247-289`): an unknown kind adds an empty
value. The columns decide nothing but a notice on the console. -/
def parseTupleColumns (data : ByteVec) : Reader (List Bytes) := parseTupleWith [[]] data

/-! ## What the readers return -/

section Specs

variable {data : ByteVec} {offset : Nat} {rest field : Bytes}

theorem ntohs_leValue (len : field.length = 2) :
    ntohs (UInt16.ofNat (leValue field)) = UInt16.ofNat (beValue field) := by
  have small := leValue_lt field
  rw [len] at small
  rw [ntohs, UInt16.toNat_ofNat', Nat.mod_eq_of_lt (by omega), ← len, beValue_leBytes_leValue]

theorem ntohl_leValue (len : field.length = 4) :
    ntohl (UInt32.ofNat (leValue field)) = UInt32.ofNat (beValue field) := by
  have small := leValue_lt field
  rw [len] at small
  rw [ntohl, UInt32.toNat_ofNat', Nat.mod_eq_of_lt (by omega), ← len, beValue_leBytes_leValue]

theorem advance_at (at_ : At data offset rest) {n : Nat} (fits : n ≤ 2 ^ 63) :
    advance n offset = .ok () (offset + n) := by
  rw [advance, at_.sizeAdd_eq fits]

theorem load16_append (at_ : At data offset (field ++ rest)) (len : field.length = 2) :
    load16 data offset = .ok (UInt16.ofNat (leValue field)) offset := by
  rw [load16, ← len, bind_ok at_.copy_append]
  rfl

theorem load32_append (at_ : At data offset (field ++ rest)) (len : field.length = 4) :
    load32 data offset = .ok (UInt32.ofNat (leValue field)) offset := by
  rw [load32, ← len, bind_ok at_.copy_append]
  rfl

theorem readUint8_cons {b : UInt8} (at_ : At data offset (b :: rest)) :
    readUint8 data offset = .ok b (offset + 1) := by
  rw [readUint8, bind_ok (at_.requireNext_cons _), bind_ok at_.peek_cons,
    bind_ok (advance_at at_ (by omega))]
  rfl

theorem readUint8_nil (at_ : At data offset []) :
    readUint8 data offset = .error (.exception "Buffer underflow in read_uint8") offset := by
  rw [readUint8, bind_error (at_.requireNext_nil _)]

theorem readUint16_append (at_ : At data offset (field ++ rest)) (len : field.length = 2) :
    readUint16 data offset = .ok (UInt16.ofNat (beValue field)) (offset + 2) := by
  have enough : 2 ≤ (field ++ rest).length := by simp [len]
  rw [readUint16, bind_ok (at_.require_ok enough _), bind_ok (load16_append at_ len),
    bind_ok (advance_at at_ (by omega)), ← ntohs_leValue len]
  rfl

theorem readUint16_short (at_ : At data offset rest) (short : rest.length < 2) :
    readUint16 data offset = .error (.exception "Buffer underflow in read_uint8") offset := by
  rw [readUint16, bind_error (at_.require_short short (by omega) _)]

theorem readUint32_append (at_ : At data offset (field ++ rest)) (len : field.length = 4) :
    readUint32 data offset = .ok (UInt32.ofNat (beValue field)) (offset + 4) := by
  have enough : 4 ≤ (field ++ rest).length := by simp [len]
  rw [readUint32, bind_ok (at_.require_ok enough _), bind_ok (load32_append at_ len),
    bind_ok (advance_at at_ (by omega)), ← ntohl_leValue len]
  rfl

theorem readUint32_short (at_ : At data offset rest) (short : rest.length < 4) :
    readUint32 data offset = .error (.exception "Buffer underflow in read_uint8") offset := by
  rw [readUint32, bind_error (at_.require_short short (by omega) _)]

/-- The two halves of a 64-bit word. -/
theorem toNat_halves (high low : UInt32) :
    ((high.toUInt64 <<< 32) ||| low.toUInt64).toNat = high.toNat * 2 ^ 32 + low.toNat := by
  have highLt := high.toNat_lt
  have lowLt := low.toNat_lt
  have width : (32 : UInt64).toNat % 64 = 32 := rfl
  have shifted : (high.toUInt64 <<< 32).toNat = high.toNat <<< 32 := by
    rw [UInt64.toNat_shiftLeft, UInt32.toNat_toUInt64, width, Nat.shiftLeft_eq,
      Nat.mod_eq_of_lt (by omega)]
  rw [UInt64.toNat_or, shifted, UInt32.toNat_toUInt64, ← Nat.shiftLeft_add_eq_or_of_lt lowLt,
    Nat.shiftLeft_eq]

theorem readUint64_append {low : Bytes} (at_ : At data offset (field ++ (low ++ rest)))
    (len : field.length = 4) (lowLen : low.length = 4) :
    readUint64 data offset = .ok (UInt64.ofNat (beValue (field ++ low))) (offset + 8) := by
  have enough : 8 ≤ (field ++ (low ++ rest)).length := by
    simp only [List.length_append, len, lowLen]
    omega
  have behind := at_.advance
  rw [len] at behind
  have wholeLen : (field ++ low).length = 8 := by rw [List.length_append, len, lowLen]
  have joined : ((UInt32.ofNat (beValue field)).toUInt64 <<< 32) |||
      (UInt32.ofNat (beValue low)).toUInt64 = UInt64.ofNat (beValue (field ++ low)) := by
    apply UInt64.toNat_inj.mp
    rw [toNat_halves, toNat_beValue32 len, toNat_beValue32 lowLen, toNat_beValue64 wholeLen,
      beValue_append, lowLen]
    norm_num
  rw [readUint64, bind_ok (at_.require_ok enough _), bind_ok (readUint32_append at_ len),
    bind_ok (readUint32_append behind lowLen), joined]
  rfl

/-- A length followed by at least that many bytes is read as a text. -/
theorem readText_append {text : Bytes} (len : field.length = 4)
    (size : beValue field = text.length) (at_ : At data offset (field ++ (text ++ rest))) :
    readText data offset = .ok text (offset + 4 + text.length) := by
  have bound := data.size_lt'
  have total := at_.size_eq
  simp only [List.length_append, len] at total
  have behind : At data (offset + 4) (text ++ rest) := len ▸ at_.advance
  have toNat : (UInt32.ofNat (beValue field)).toNat = text.length :=
    (toNat_beValue32 len).trans size
  rw [readText, bind_ok (readUint32_append at_ len)]
  by_cases positive : UInt32.ofNat (beValue field) > 0
  · rw [if_pos positive, toNat, bind_ok behind.copy_append,
      bind_ok (advance_at behind (by omega))]
    rfl
  · rw [if_neg positive]
    have zero : text.length = 0 := by
      rw [← toNat]
      rw [gt_iff_lt, UInt32.lt_iff_toNat_lt] at positive
      simpa using positive
    rw [List.length_eq_zero_iff.mp zero]
    rfl

/-- The loop stops in front of the first NUL. -/
theorem readStringLoop_append {text : Bytes} (front : Bytes) (nulFree : 0 ∉ text)
    (at_ : At data offset (text ++ 0 :: rest)) :
    readStringLoop data (text ++ 0 :: rest) front offset =
      .ok (front ++ text) (offset + text.length) := by
  induction text generalizing front offset with
  | nil =>
    rw [List.append_nil]
    rfl
  | cons c text ih =>
    rw [List.mem_cons, not_or] at nulFree
    obtain ⟨notNul, nulFree⟩ := nulFree
    have behind : At data (offset + 1) (text ++ 0 :: rest) := at_.advance_cons
    rw [List.cons_append, readStringLoop, if_neg (Ne.symm notNul),
      bind_ok (advance_at at_ (by omega)), ih (front ++ [c]) nulFree behind]
    simp only [List.append_assoc, List.singleton_append, List.length_cons, Nat.add_comm,
      Nat.add_left_comm]

theorem readStringLoop_nulFree {data : ByteVec} {bytes front text : Bytes} {offset offset' : Nat}
    (nulFree : 0 ∉ front) (read : readStringLoop data bytes front offset = .ok text offset') :
    0 ∉ text := by
  induction bytes generalizing front offset with
  | nil =>
    cases read
    exact nulFree
  | cons c bytes ih =>
    rw [readStringLoop] at read
    split_ifs at read with isNul
    · cases read
      exact nulFree
    · obtain ⟨_, next, -, loop⟩ := bind_eq_ok.mp read
      refine ih ?_ loop
      rw [List.mem_append, List.mem_singleton, not_or]
      exact ⟨nulFree, Ne.symm isNul⟩

/-- No text that is read has a NUL in it. -/
theorem readString_nulFree {data : ByteVec} {text : Bytes} {offset offset' : Nat}
    (read : readString data offset = .ok text offset') : 0 ∉ text := by
  rw [readString] at read
  obtain ⟨_, _, -, read⟩ := bind_eq_ok.mp read
  obtain ⟨_, _, -, read⟩ := bind_eq_ok.mp read
  obtain ⟨text', _, loop, read⟩ := bind_eq_ok.mp read
  obtain ⟨_, _, -, read⟩ := bind_eq_ok.mp read
  obtain ⟨_, _, -, read⟩ := bind_eq_ok.mp read
  cases read
  exact readStringLoop_nulFree List.not_mem_nil loop

/-- A NUL-terminated text is read up to its NUL. -/
theorem readString_append {text : Bytes} (nulFree : 0 ∉ text)
    (at_ : At data offset (text ++ 0 :: rest)) :
    readString data offset = .ok text (offset + (text.length + 1)) := by
  have starts : requireNext data "Buffer underflow in read_string start" offset =
      .ok () offset := by
    cases text with
    | nil => exact at_.requireNext_cons _
    | cons c text => exact at_.requireNext_cons _
  have behind : At data (offset + text.length) (0 :: rest) := at_.advance
  have loop := readStringLoop_append [] nulFree at_
  rw [← at_.drop_eq, List.nil_append] at loop
  have offset_eq : (get : Reader Nat) offset = .ok offset offset := rfl
  rw [readString, bind_ok starts, bind_ok offset_eq, bind_ok loop,
    bind_ok (behind.requireNext_cons _), bind_ok (advance_at behind (by omega)), Nat.add_assoc]
  rfl

end Specs

end PgOutputParser

end KafkaReplication
