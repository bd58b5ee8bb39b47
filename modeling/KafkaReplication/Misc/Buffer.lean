import KafkaReplication.Misc.BigEndian

/-!
# Byte vectors and readers in the manner of C++

A `std::vector<uint8_t>` as a list with the length bound every vector has, and
programs that read one through a `size_t` offset passed by reference. A reader
runs in `EStateM`: the offset is its state and stays changed when the reader
throws. Reads that the language leaves unchecked (`operator[]`, `memcpy`, a
dereference) are undefined past the end, and undefined behaviour is an outcome
of its own, apart from exceptions.

`At data offset rest` says what is left to read. The rules `At.advance` and
`At.advance_cons` carry it along a layout, so that a decoder is proved by one
lemma for each field, in the order of the fields.
-/

namespace KafkaReplication.Misc

/-- The contents of a `std::string` or of a memory block. -/
abbrev Bytes := List UInt8

/-- A character of the source as the byte it is. -/
def chr (c : Char) : UInt8 := UInt8.ofNat c.toNat

/-- A string literal of the source as its bytes. -/
def str (s : String) : Bytes := s.toList.map chr

/-- The ways of leaving the language that the modelled code has. -/
inductive Undefined where
  /-- An index or pointer past the end of a container. -/
  | pastTheEnd
  /-- The first element of an empty container. -/
  | frontOfEmpty
  /-- A member call through a null pointer. -/
  | nullPointer
  deriving DecidableEq, Repr

/-- What stops a call before it returns. -/
inductive Fault where
  /-- A `std::exception` with the text of its `what()`. -/
  | exception (what : String)
  | undefined (why : Undefined)
  deriving DecidableEq, Repr

/-- A `std::vector<uint8_t>`; no vector is longer than `PTRDIFF_MAX`. -/
structure ByteVec where
  bytes : Bytes
  size_lt : bytes.length < 2 ^ 63
  deriving DecidableEq, Repr

namespace ByteVec

def size (data : ByteVec) : Nat := data.bytes.length

theorem size_lt' (data : ByteVec) : data.size < 2 ^ 63 := data.size_lt

/-- `std::vector<uint8_t>(v.begin() + n, v.end())`. -/
def dropFront (data : ByteVec) (n : Nat) : ByteVec :=
  ⟨data.bytes.drop n, by
    have := data.size_lt
    simp only [List.length_drop]
    omega⟩

@[simp] theorem dropFront_bytes (data : ByteVec) (n : Nat) :
    (data.dropFront n).bytes = data.bytes.drop n := rfl

end ByteVec

/-! ## Sequencing -/

section Sequencing

variable {ε σ α β : Type} {x : EStateM ε σ α} {f : α → EStateM ε σ β} {s s' : σ}

theorem bind_ok {a : α} (h : x s = .ok a s') : (x >>= f) s = f a s' := by
  simp only [bind, EStateM.bind, h]

theorem bind_error {e : ε} (h : x s = .error e s') : (x >>= f) s = .error e s' := by
  simp only [bind, EStateM.bind, h]

/-- A sequence that returns has run both parts to their end. -/
theorem bind_eq_ok {b : β} {t : σ} :
    (x >>= f) s = .ok b t ↔ ∃ a u, x s = .ok a u ∧ f a u = .ok b t := by
  simp only [bind, EStateM.bind]
  cases h : x s with
  | ok a u => simp
  | error e u => simp

/-- The same where there is no state. -/
theorem except_bind_eq_ok {y : Except ε α} {g : α → Except ε β} {b : β} :
    (y >>= g) = .ok b ↔ ∃ a, y = .ok a ∧ g a = .ok b := by
  cases y with
  | ok a => simp [bind, Except.bind]
  | error e => simp [bind, Except.bind]

theorem except_mapM_ok {f : α → Except ε β} {g : α → β} {xs : List α}
    (total : ∀ x ∈ xs, f x = .ok (g x)) : xs.mapM f = .ok (xs.map g) := by
  induction xs with
  | nil => rfl
  | cons x xs ih =>
    have rest := ih fun later mem => total later (List.mem_cons_of_mem x mem)
    rw [List.mapM_cons, total x List.mem_cons_self, rest]
    rfl

/-- Where only one fault can come up, it comes out as soon as one element has it. -/
theorem except_mapM_error {f : α → Except ε β} {e : ε} {xs : List α}
    (each : ∀ x ∈ xs, f x = .error e ∨ ∃ b, f x = .ok b) {x : α} (mem : x ∈ xs)
    (fails : f x = .error e) : xs.mapM f = .error e := by
  induction xs with
  | nil => cases mem
  | cons head xs ih =>
    rw [List.mapM_cons]
    rcases each head List.mem_cons_self with failed | ⟨b, passed⟩
    · rw [failed]
      rfl
    · have later : x ∈ xs := by
        rcases List.mem_cons.mp mem with rfl | later
        · rw [passed] at fails
          cases fails
        · exact later
      have rest := ih (fun y there => each y (List.mem_cons_of_mem head there)) later
      rw [passed, rest]
      rfl

/-- What comes out for a list where each element passes or has one and the same fault. -/
theorem except_mapM_ite {f : α → Except ε β} {g : α → β} {good : α → Prop} {e : ε} {xs : List α}
    [Decidable (∀ x ∈ xs, good x)] (passes : ∀ x ∈ xs, good x → f x = .ok (g x))
    (fails : ∀ x ∈ xs, ¬good x → f x = .error e) :
    xs.mapM f = if ∀ x ∈ xs, good x then .ok (xs.map g) else .error e := by
  split
  case isTrue all =>
    exact except_mapM_ok fun x mem => passes x mem (all x mem)
  case isFalse some_ =>
    simp only [not_forall] at some_
    obtain ⟨x, mem, bad⟩ := some_
    refine except_mapM_error ?_ mem (fails x mem bad)
    intro y there
    by_cases holds : good y
    · exact .inr ⟨g y, passes y there holds⟩
    · exact .inl (fails y there holds)

/-- The state in which a call has ended. -/
def finalState : EStateM.Result ε σ α → σ
  | .ok _ s => s
  | .error _ s => s

end Sequencing

/-! ## Readers -/

/-- A program over a `size_t` offset. -/
abbrev Reader := EStateM Fault Nat

/-- `offset + n` on `size_t`. -/
def sizeAdd (offset n : Nat) : Nat := (offset + n) % 2 ^ 64

/-- `if(offset + n > data.size()) throw std::runtime_error(what);`. The sum wraps. -/
def require (data : ByteVec) (n : Nat) (what : String) : Reader Unit := fun offset =>
  if sizeAdd offset n > data.size then .error (.exception what) offset else .ok () offset

/-- `if(offset >= data.size()) throw std::runtime_error(what);` -/
def requireNext (data : ByteVec) (what : String) : Reader Unit := fun offset =>
  if offset ≥ data.size then .error (.exception what) offset else .ok () offset

/-- `offset += n`. -/
def advance (n : Nat) : Reader Unit := fun offset => .ok () (sizeAdd offset n)

/-- `data[offset]`, which is not checked. -/
def peek (data : ByteVec) : Reader UInt8 := fun offset =>
  match data.bytes[offset]? with
  | some b => .ok b offset
  | none => .error (.undefined .pastTheEnd) offset

/-- The `n` bytes from `&data[offset]` on, as `memcpy` takes them. -/
def copy (data : ByteVec) (n : Nat) : Reader Bytes := fun offset =>
  if offset + n ≤ data.size then .ok ((data.bytes.drop offset).take n) offset
  else .error (.undefined .pastTheEnd) offset

/-! ## How a program leaves the language -/

/-- The only undefined behaviour of `x` is reading past an end. -/
def OnlyPastTheEnd {σ α : Type} (x : EStateM Fault σ α) : Prop :=
  ∀ s why s', x s = .error (.undefined why) s' → why = .pastTheEnd

namespace OnlyPastTheEnd

variable {σ α β : Type}

theorem pure (a : α) : OnlyPastTheEnd (pure a : EStateM Fault σ α) := by
  intro s why s' fails
  cases fails

theorem bind {x : EStateM Fault σ α} {f : α → EStateM Fault σ β} (first : OnlyPastTheEnd x)
    (next : ∀ a, OnlyPastTheEnd (f a)) : OnlyPastTheEnd (x >>= f) := by
  intro s why s' fails
  cases run : x s with
  | ok a u =>
    rw [bind_ok run] at fails
    exact next a u why s' fails
  | error e u =>
    rw [bind_error run] at fails
    cases fails
    exact first s why s' run

theorem ite {c : Prop} [Decidable c] {x y : EStateM Fault σ α} (yes : OnlyPastTheEnd x)
    (no : OnlyPastTheEnd y) : OnlyPastTheEnd (if c then x else y) := by
  split
  · exact yes
  · exact no

theorem require (data : ByteVec) (n : Nat) (what : String) :
    OnlyPastTheEnd (require data n what) := by
  intro s why s' fails
  unfold Misc.require at fails
  split at fails <;> cases fails

theorem requireNext (data : ByteVec) (what : String) :
    OnlyPastTheEnd (requireNext data what) := by
  intro s why s' fails
  unfold Misc.requireNext at fails
  split at fails <;> cases fails

theorem advance (n : Nat) : OnlyPastTheEnd (advance n) := by
  intro s why s' fails
  cases fails

theorem peek (data : ByteVec) : OnlyPastTheEnd (peek data) := by
  intro s why s' fails
  unfold Misc.peek at fails
  split at fails <;> cases fails
  rfl

theorem copy (data : ByteVec) (n : Nat) : OnlyPastTheEnd (copy data n) := by
  intro s why s' fails
  unfold Misc.copy at fails
  split at fails <;> cases fails
  rfl

end OnlyPastTheEnd

/-! ## What is left to read -/

/-- `rest` is what `data` holds from `offset` on. -/
structure At (data : ByteVec) (offset : Nat) (rest : Bytes) : Prop where
  le : offset ≤ data.size
  drop_eq : data.bytes.drop offset = rest

namespace At

variable {data : ByteVec} {offset : Nat} {rest : Bytes}

theorem start (data : ByteVec) : At data 0 data.bytes := ⟨Nat.zero_le _, rfl⟩

theorem size_eq (at_ : At data offset rest) : offset + rest.length = data.size := by
  have le := at_.le
  have := congrArg List.length at_.drop_eq
  simp only [List.length_drop] at this
  simp only [ByteVec.size] at le ⊢
  omega

theorem advance {field : Bytes} (at_ : At data offset (field ++ rest)) :
    At data (offset + field.length) rest := by
  have size := at_.size_eq
  rw [List.length_append] at size
  refine ⟨by omega, ?_⟩
  rw [← List.drop_drop, at_.drop_eq, List.drop_left]

theorem advance_cons {b : UInt8} (at_ : At data offset (b :: rest)) :
    At data (offset + 1) rest := by
  have whole : At data offset ([b] ++ rest) := at_
  exact whole.advance

/-- A step of `n` bytes inside the vector does not wrap. -/
theorem sizeAdd_eq (at_ : At data offset rest) {n : Nat} (fits : n ≤ 2 ^ 63) :
    sizeAdd offset n = offset + n := by
  have size := at_.size_eq
  have bound := data.size_lt'
  unfold sizeAdd
  omega

theorem peek_cons {b : UInt8} (at_ : At data offset (b :: rest)) :
    peek data offset = .ok b offset := by
  have found : data.bytes[offset]? = some b := by
    have := congrArg (fun l : Bytes => l[0]?) at_.drop_eq
    simpa using this
  simp only [peek, found]

theorem peek_nil (at_ : At data offset []) :
    peek data offset = .error (.undefined .pastTheEnd) offset := by
  have size := at_.size_eq
  have absent : data.bytes[offset]? = none := by
    rw [List.getElem?_eq_none_iff]
    simp only [ByteVec.size, List.length_nil] at size
    omega
  simp only [peek, absent]

theorem copy_append {field : Bytes} (at_ : At data offset (field ++ rest)) :
    copy data field.length offset = .ok field offset := by
  have size := at_.size_eq
  rw [List.length_append] at size
  have fits : offset + field.length ≤ data.size := by omega
  simp only [copy, if_pos fits, at_.drop_eq, List.take_left]

theorem require_ok (at_ : At data offset rest) {n : Nat} (enough : n ≤ rest.length)
    (what : String) : require data n what offset = .ok () offset := by
  have size := at_.size_eq
  have bound := data.size_lt'
  have sum : sizeAdd offset n = offset + n := at_.sizeAdd_eq (by omega)
  have inside : ¬ sizeAdd offset n > data.size := by omega
  simp only [require, if_neg inside]

theorem requireNext_cons {b : UInt8} (at_ : At data offset (b :: rest)) (what : String) :
    requireNext data what offset = .ok () offset := by
  have size := at_.size_eq
  rw [List.length_cons] at size
  have inside : ¬ offset ≥ data.size := by omega
  simp only [requireNext, if_neg inside]

theorem requireNext_nil (at_ : At data offset []) (what : String) :
    requireNext data what offset = .error (.exception what) offset := by
  have size := at_.size_eq
  rw [List.length_nil] at size
  have outside : offset ≥ data.size := by omega
  simp only [requireNext, if_pos outside]

theorem require_short (at_ : At data offset rest) {n : Nat} (short : rest.length < n)
    (fits : n ≤ 2 ^ 63) (what : String) :
    require data n what offset = .error (.exception what) offset := by
  have size := at_.size_eq
  have sum : sizeAdd offset n = offset + n := at_.sizeAdd_eq fits
  have outside : sizeAdd offset n > data.size := by omega
  simp only [require, if_pos outside]

end At

end KafkaReplication.Misc
