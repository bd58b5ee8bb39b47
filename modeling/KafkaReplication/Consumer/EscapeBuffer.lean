import KafkaReplication.Consumer.InsertMeaning

/-!
# The buffer of `escapeString`

The memory that `escapeString` (`consumer_bo/database_writer.cpp:87-96`) has escaped text written
to. `PQescapeStringConn` may write twice the length of its text and a zero byte, and the source asks
for a block of that value: `new char(len * 2 + 1)` is one character, with what the allocator has
left behind it.
-/

namespace KafkaReplication
open Misc Misc.Sql

namespace DatabaseWriter

/-- The bytes that `PQescapeStringConn` may write for a text of this length: each character
escaped, and a zero byte. -/
def escapedSize (length : Nat) : Nat := length * 2 + 1

section Buffer

variable {pg : Postgres} {text : Bytes}

theorem escapeStringConn_length_le (escapes : pg.Escapes) (text : Bytes) :
    (pg.escapeStringConn (cStr text)).length + 1 ≤ escapedSize text.length := by
  have shorter := length_cStr_le text
  have quotes : (cStr text).count quoteMark ≤ (cStr text).length := List.count_le_length
  rw [escapes _ (zero_notMem_cStr text), length_doubled, escapedSize]
  omega

/-- A block of the size that was meant is large enough for every text. -/
theorem fits_of_escapedSize_le (escapes : pg.Escapes)
    (enough : escapedSize text.length ≤ (newChar (text.length * 2 + 1)).length + pg.spare) :
    pg.Fits text := by
  have written := escapeStringConn_length_le escapes text
  rw [newChar, List.length_singleton] at enough
  unfold Escaping.Fits
  omega

end Buffer

/-! ## The text between quotes -/

section Literals

variable {pg : Postgres}

/-- Between single quotes the escaped text is read back, wherever no further literal follows. -/
def ReadsBack (pg : Postgres) (text : Bytes) : Prop :=
  ∀ rest, ((skip .blank rest).any fun after => after.head? = some quoteMark) = false →
    ReadsAs (textLiteral pg.escapedText text) [.string text] rest

theorem readsBack_iff (escapes : pg.Escapes) (text : Bytes) : ReadsBack pg text ↔ 0 ∉ text := by
  have written : textLiteral pg.escapedText text = delimited quoteMark (cStr text) := by
    rw [textLiteral, escapedText_eq escapes, List.append_assoc]
    rfl
  unfold ReadsBack
  rw [written]
  constructor
  · intro reads
    have read : ReadsAs (delimited quoteMark (cStr text)) [.string text] [] := reads [] rfl
    have lexes := (read.whole _).mpr rfl
    have same := ((ReadsAs.string rfl).whole _).mp lexes
    rw [List.singleton_inj, Token.string.injEq] at same
    exact zero_notMem_of_cStr text same.symm
  · intro nulFree rest last
    rw [cStr_of_notMem nulFree]
    exact .string last

/-- What is asked of `escapeString`: all that may be written for the text lies in the block that it
allocated, and what it returns is read back as the text. -/
structure SafeAndLossless (pg : Postgres) (text : Bytes) : Prop where
  inside : escapedSize text.length ≤ (newChar (text.length * 2 + 1)).length
  returns : escapeString pg text = .ok (pg.escapedText text)
  readsBack : ReadsBack pg text

/-- Only the empty text is escaped inside the block. Between quotes the escaped text would be read
back for every text without a NUL. -/
theorem safeAndLossless_iff (pg : Postgres) (text : Bytes) (escapes : pg.Escapes) :
    (SafeAndLossless pg text ↔ text = []) ∧ (ReadsBack pg text ↔ 0 ∉ text) := by
  refine ⟨⟨?_, ?_⟩, readsBack_iff escapes text⟩
  · intro safe
    have inside := safe.inside
    rw [escapedSize, newChar, List.length_singleton] at inside
    exact List.length_eq_zero_iff.mp (by omega)
  · rintro rfl
    have inside : escapedSize ([] : Bytes).length ≤
        (newChar (([] : Bytes).length * 2 + 1)).length := Nat.le_refl 1
    have fits : pg.Fits [] := fits_of_escapedSize_le escapes (Nat.le_add_right_of_le inside)
    exact ⟨inside, escapeString_fits fits, (readsBack_iff escapes []).mpr List.not_mem_nil⟩

theorem safeAndLossless_empty : SafeAndLossless escapingServer [] :=
  (safeAndLossless_iff escapingServer [] fun _ _ => rfl).1.mpr rfl

/-- The three bytes that a single letter may take are more than one character. -/
theorem escapedLetter_overflows :
    ¬ ∀ (pg : Postgres) (text : Bytes), pg.Escapes → SafeAndLossless pg text := by
  intro always
  have safe := always escapingServer (str "a") fun _ _ => rfl
  exact absurd safe.inside (by decide)

end Literals

end DatabaseWriter

end KafkaReplication
