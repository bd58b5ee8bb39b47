import KafkaReplication.Misc.Buffer

/-!
# The grammar of a reader

A reader over a vector has a grammar if it returns a value just where the vector goes on with bytes
that the grammar derives for it, and stops behind them (`HasGrammar`), or wherever it stops
(`Sees`). Readers are put together by `bind`, and so are their grammars.
-/

namespace KafkaReplication.Misc

/-- The bytes that stand for a value. -/
abbrev Grammar (α : Type) : Type := α → Bytes → Prop

namespace Grammar

variable {α β : Type}

/-- One after the other, where the second one may depend on the first value. -/
def andThen (P : Grammar α) (Q : α → Grammar β) : Grammar β := fun b field =>
  ∃ a front back, field = front ++ back ∧ P a front ∧ Q a b back

/-- Each value has one text. -/
def encoded (encode : α → Bytes) : Grammar α := fun a field => field = encode a

theorem encoded_andThen (encode : α → Bytes) (Q : α → Grammar β) (b : β) (field : Bytes) :
    (encoded encode).andThen Q b field ↔ ∃ a back, field = encode a ++ back ∧ Q a b back := by
  constructor
  · rintro ⟨a, front, back, rfl, rfl, derived⟩
    exact ⟨a, back, rfl, derived⟩
  · rintro ⟨a, back, rfl, derived⟩
    exact ⟨a, _, back, rfl, rfl, derived⟩

/-- Each valid value has one text. -/
def encodedIf (valid : α → Prop) (encode : α → Bytes) : Grammar α := fun a field =>
  valid a ∧ field = encode a

theorem encodedIf_andThen (valid : α → Prop) (encode : α → Bytes) (Q : α → Grammar β) (b : β)
    (field : Bytes) :
    (encodedIf valid encode).andThen Q b field ↔
      ∃ a back, field = encode a ++ back ∧ valid a ∧ Q a b back := by
  constructor
  · rintro ⟨a, front, back, rfl, ⟨isValid, rfl⟩, derived⟩
    exact ⟨a, back, rfl, isValid, derived⟩
  · rintro ⟨a, back, rfl, isValid, derived⟩
    exact ⟨a, _, back, rfl, ⟨isValid, rfl⟩, derived⟩

end Grammar

/-- The reader returns what the grammar derives and stops behind it. -/
structure HasGrammar {α : Type} (data : ByteVec) (read : Reader α) (P : Grammar α) : Prop where
  sound : ∀ {offset rest a last}, At data offset rest → read offset = .ok a last →
    ∃ field behind, rest = field ++ behind ∧ P a field ∧ last = offset + field.length
  complete : ∀ {offset behind a field}, P a field → At data offset (field ++ behind) →
    read offset = .ok a (offset + field.length)

/-- The reader returns what the grammar derives, wherever it stops. -/
structure Sees {α : Type} (data : ByteVec) (read : Reader α) (P : Grammar α) : Prop where
  sound : ∀ {offset rest a last}, At data offset rest → read offset = .ok a last →
    ∃ field behind, rest = field ++ behind ∧ P a field
  complete : ∀ {offset behind a field}, P a field → At data offset (field ++ behind) →
    ∃ last, read offset = .ok a last

section Rules

variable {α β : Type} {data : ByteVec} {read : Reader α} {next : α → Reader β}
  {P P' : Grammar α} {Q : α → Grammar β}

theorem HasGrammar.sees (grammar : HasGrammar data read P) : Sees data read P where
  sound at_ run := by
    obtain ⟨field, behind, split, derived, -⟩ := grammar.sound at_ run
    exact ⟨field, behind, split, derived⟩
  complete derived at_ := ⟨_, grammar.complete derived at_⟩

theorem HasGrammar.congr (grammar : HasGrammar data read P)
    (same : ∀ a field, P' a field ↔ P a field) : HasGrammar data read P' where
  sound at_ run := by
    obtain ⟨field, behind, split, derived, last⟩ := grammar.sound at_ run
    exact ⟨field, behind, split, (same _ _).mpr derived, last⟩
  complete derived at_ := grammar.complete ((same _ _).mp derived) at_

theorem Sees.congr (sees : Sees data read P) (same : ∀ a field, P' a field ↔ P a field) :
    Sees data read P' where
  sound at_ run := by
    obtain ⟨field, behind, split, derived⟩ := sees.sound at_ run
    exact ⟨field, behind, split, (same _ _).mpr derived⟩
  complete derived at_ := sees.complete ((same _ _).mp derived) at_

theorem HasGrammar.pure (a : α) :
    HasGrammar data (pure a) fun b field => b = a ∧ field = [] where
  sound _ run := by
    cases run
    exact ⟨[], _, rfl, ⟨rfl, rfl⟩, rfl⟩
  complete derived _ := by
    obtain ⟨rfl, rfl⟩ := derived
    rfl

theorem HasGrammar.bind (first : HasGrammar data read P)
    (second : ∀ a, HasGrammar data (next a) (Q a)) :
    HasGrammar data (read >>= next) (P.andThen Q) where
  sound at_ run := by
    obtain ⟨a, middle, ran, run⟩ := bind_eq_ok.mp run
    obtain ⟨front, behind, rfl, derived, rfl⟩ := first.sound at_ ran
    obtain ⟨back, last, rfl, derived', rfl⟩ := (second a).sound at_.advance run
    refine ⟨front ++ back, last, (List.append_assoc ..).symm, ⟨a, front, back, rfl, derived,
      derived'⟩, ?_⟩
    rw [List.length_append, Nat.add_assoc]
  complete derived at_ := by
    obtain ⟨a, front, back, rfl, derived, derived'⟩ := derived
    rw [List.append_assoc] at at_
    rw [bind_ok (first.complete derived at_), (second a).complete derived' at_.advance,
      List.length_append, Nat.add_assoc]

theorem HasGrammar.bindSees (first : HasGrammar data read P)
    (second : ∀ a, Sees data (next a) (Q a)) : Sees data (read >>= next) (P.andThen Q) where
  sound at_ run := by
    obtain ⟨a, middle, ran, run⟩ := bind_eq_ok.mp run
    obtain ⟨front, behind, rfl, derived, rfl⟩ := first.sound at_ ran
    obtain ⟨back, last, rfl, derived'⟩ := (second a).sound at_.advance run
    exact ⟨front ++ back, last, (List.append_assoc ..).symm, a, front, back, rfl, derived,
      derived'⟩
  complete derived at_ := by
    obtain ⟨a, front, back, rfl, derived, derived'⟩ := derived
    rw [List.append_assoc] at at_
    rw [bind_ok (first.complete derived at_)]
    exact (second a).complete derived' at_.advance

/-- What is made of the value afterwards reads nothing. -/
theorem HasGrammar.map (grammar : HasGrammar data read P) (g : α → β) :
    HasGrammar data (do return g (← read)) fun b field => ∃ a, b = g a ∧ P a field := by
  refine (grammar.bind fun a => HasGrammar.pure (g a)).congr fun b field => ?_
  constructor
  · rintro ⟨a, rfl, derived⟩
    exact ⟨a, field, [], (List.append_nil field).symm, derived, rfl, rfl⟩
  · rintro ⟨a, front, back, rfl, derived, rfl, rfl⟩
    exact ⟨a, rfl, by rwa [List.append_nil]⟩

theorem Sees.map (sees : Sees data read P) (g : α → β) :
    Sees data (do return g (← read)) fun b field => ∃ a, b = g a ∧ P a field where
  sound at_ run := by
    obtain ⟨a, middle, ran, run⟩ := bind_eq_ok.mp run
    cases run
    obtain ⟨field, behind, split, derived⟩ := sees.sound at_ ran
    exact ⟨field, behind, split, a, rfl, derived⟩
  complete derived at_ := by
    obtain ⟨a, rfl, derived⟩ := derived
    obtain ⟨last, ran⟩ := sees.complete derived at_
    exact ⟨last, bind_ok ran⟩

/-- A field of a fixed width. -/
theorem HasGrammar.ofWidth {encode : α → Bytes} (decode : Bytes → α) (width : Nat)
    (reads : ∀ {offset field behind}, field.length = width → At data offset (field ++ behind) →
      read offset = .ok (decode field) (offset + width))
    (short : ∀ {offset rest a last}, rest.length < width → At data offset rest →
      read offset ≠ .ok a last)
    (decode_encode : ∀ a, decode (encode a) = a) (encode_length : ∀ a, (encode a).length = width)
    (encode_decode : ∀ field : Bytes, field.length = width → encode (decode field) = field) :
    HasGrammar data read (Grammar.encoded encode) where
  sound := by
    intro offset rest a last at_ run
    rcases Nat.lt_or_ge rest.length width with tooShort | enough
    · exact absurd run (short tooShort at_)
    · have len : (rest.take width).length = width := List.length_take_of_le enough
      rw [← List.take_append_drop width rest] at at_
      have ran := reads len at_
      rw [run] at ran
      cases ran
      refine ⟨rest.take width, rest.drop width, (List.take_append_drop width rest).symm,
        (encode_decode _ len).symm, ?_⟩
      rw [len]
  complete := by
    rintro offset behind a field rfl at_
    rw [reads (encode_length a) at_, decode_encode, encode_length]

/-- A byte is looked at before it is read. -/
theorem HasGrammar.peekBind {next : UInt8 → Reader β} {Q : UInt8 → Grammar β}
    (grammar : ∀ byte, HasGrammar data (next byte) (Q byte))
    (some_ : ∀ byte b field, Q byte b field → field ≠ []) :
    HasGrammar data (peek data >>= next) fun b field =>
      ∃ byte, field.head? = some byte ∧ Q byte b field where
  sound := by
    intro offset rest b last at_ run
    obtain ⟨byte, middle, ran, run⟩ := bind_eq_ok.mp run
    cases rest with
    | nil =>
      rw [at_.peek_nil] at ran
      cases ran
    | cons first rest =>
      rw [at_.peek_cons] at ran
      cases ran
      obtain ⟨field, behind, split, derived, rfl⟩ := (grammar _).sound at_ run
      refine ⟨field, behind, split, ⟨_, ?_, derived⟩, rfl⟩
      cases field with
      | nil => exact absurd rfl (some_ _ _ _ derived)
      | cons head field =>
        cases split
        rfl
  complete := by
    rintro offset behind b field ⟨byte, head, derived⟩ at_
    cases field with
    | nil => cases head
    | cons first field =>
      cases head
      have looks : peek data offset = .ok byte offset := At.peek_cons at_
      rw [bind_ok looks]
      exact (grammar byte).complete derived at_

/-- A byte is read without a check. -/
theorem HasGrammar.peekByte :
    HasGrammar data (do let byte ← peek data; advance 1; return byte)
      (Grammar.encoded fun byte => [byte]) where
  sound := by
    intro offset rest byte last at_ run
    cases rest with
    | nil =>
      rw [bind_error at_.peek_nil] at run
      cases run
    | cons first rest =>
      rw [bind_ok at_.peek_cons] at run
      cases run
      refine ⟨[byte], rest, rfl, rfl, ?_⟩
      exact at_.sizeAdd_eq (by omega)
  complete := by
    rintro offset behind byte field rfl at_
    have looks : peek data offset = .ok byte offset := At.peek_cons at_
    rw [bind_ok looks]
    exact congrArg (EStateM.Result.ok byte) (at_.sizeAdd_eq (by omega))

/-- A byte that is read without a check, and what is behind it. -/
theorem byte_then (next : UInt8 → Reader β) :
    (do let byte ← peek data; advance 1; next byte) =
      (do let byte ← peek data; advance 1; return byte : Reader UInt8) >>= next := by
  simp only [bind_assoc, pure_bind]

theorem HasGrammar.byteThen {next : UInt8 → Reader β} {Q : UInt8 → Grammar β}
    (grammar : ∀ byte, HasGrammar data (next byte) (Q byte)) :
    HasGrammar data (do let byte ← peek data; advance 1; next byte)
      ((Grammar.encoded fun byte => [byte]).andThen Q) := by
  rw [byte_then]
  exact HasGrammar.peekByte.bind grammar

theorem HasGrammar.byteThenSees {next : UInt8 → Reader β} {Q : UInt8 → Grammar β}
    (sees : ∀ byte, Sees data (next byte) (Q byte)) :
    Sees data (do let byte ← peek data; advance 1; next byte)
      ((Grammar.encoded fun byte => [byte]).andThen Q) := by
  rw [byte_then]
  exact HasGrammar.peekByte.bindSees sees

end Rules

end KafkaReplication.Misc
