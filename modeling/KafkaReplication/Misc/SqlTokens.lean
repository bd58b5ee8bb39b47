import KafkaReplication.Misc.SqlLexer

/-!
# Tokens, one kind at a time

What each kind of token is written as, in front of which rest, and what can be said of a text
from the tokens it gives.
-/

namespace KafkaReplication.Misc.Sql

/-! ## Characters -/

theorem toNat_space : (chr ' ').toNat = 32 := rfl
theorem toNat_quote : (chr '"').toNat = 34 := rfl
theorem toNat_quoteMark : quoteMark.toNat = 39 := rfl
theorem toNat_minus : (chr '-').toNat = 45 := rfl
theorem toNat_slash : (chr '/').toNat = 47 := rfl
theorem toNat_underscore : (chr '_').toNat = 95 := rfl

/-- A character with a number of its own. -/
theorem ne_of_toNat {c d : UInt8} {n : Nat} (value : d.toNat = n) (other : c.toNat ≠ n) : c ≠ d :=
  fun same => other (same ▸ value)

theorem isSolid_of_toNat {c : UInt8} (high : 32 < c.toNat) (noMinus : c.toNat ≠ 45)
    (noSlash : c.toNat ≠ 47) : isSolid c = true := by
  have noSpace : c ≠ chr ' ' := ne_of_toNat toNat_space (by omega)
  have noMinus' : c ≠ chr '-' := ne_of_toNat toNat_minus noMinus
  have noSlash' : c ≠ chr '/' := ne_of_toNat toNat_slash noSlash
  have visible : ¬c.toNat ≤ 13 := by omega
  simp [isSolid, isSpace, noSpace, noMinus', noSlash', visible]

theorem isWordStart_toNat {c : UInt8} (start : isWordStart c = true) :
    97 ≤ c.toNat ∧ c.toNat ≤ 122 ∨ 65 ≤ c.toNat ∧ c.toNat ≤ 90 ∨ c.toNat = 95 ∨ 128 ≤ c.toNat := by
  simp only [isWordStart, inRange, Bool.or_eq_true, Bool.and_eq_true, decide_eq_true_eq] at start
  rcases start with ((lower | upper) | underscore) | high
  · exact .inl lower
  · exact .inr (.inl upper)
  · exact .inr (.inr (.inl (underscore ▸ toNat_underscore)))
  · exact .inr (.inr (.inr high))

theorem isDigit_toNat {c : UInt8} (digit : isDigit c = true) : 48 ≤ c.toNat ∧ c.toNat ≤ 57 := by
  simpa [isDigit, inRange] using digit

theorem isSolid_of_isWordStart {c : UInt8} (start : isWordStart c = true) : isSolid c = true := by
  have range := isWordStart_toNat start
  exact isSolid_of_toNat (by omega) (by omega) (by omega)

theorem isSolid_of_isDigit {c : UInt8} (digit : isDigit c = true) : isSolid c = true := by
  have range := isDigit_toNat digit
  exact isSolid_of_toNat (by omega) (by omega) (by omega)

theorem isWordStart_false_of_isDigit {c : UInt8} (digit : isDigit c = true) :
    isWordStart c = false := by
  have range := isDigit_toNat digit
  apply Bool.eq_false_iff.mpr
  intro start
  have range' := isWordStart_toNat start
  omega

theorem isWordPart_of_isWordStart {c : UInt8} (start : isWordStart c = true) :
    isWordPart c = true := by
  rw [isWordPart, start]
  rfl

/-! ## Runs of characters -/

section Runs

variable {α : Type} {p : α → Bool} {run rest : List α}

theorem takeWhile_run (all : ∀ c ∈ run, p c = true) (stops : rest.head?.any p = false) :
    (run ++ rest).takeWhile p = run := by
  rw [List.takeWhile_append_of_pos all]
  cases rest with
  | nil => exact List.append_nil run
  | cons c rest =>
    have stop : p c = false := stops
    rw [List.takeWhile_cons, stop]
    exact List.append_nil run

theorem dropWhile_run (all : ∀ c ∈ run, p c = true) (stops : rest.head?.any p = false) :
    (run ++ rest).dropWhile p = rest := by
  rw [List.dropWhile_append_of_pos all]
  cases rest with
  | nil => rfl
  | cons c rest =>
    have stop : p c = false := stops
    rw [List.dropWhile_cons, stop]
    rfl

end Runs

/-! ## Words -/

theorem readToken_word {c : UInt8} {text rest : Bytes} (start : isWordStart c = true)
    (parts : ∀ d ∈ c :: text, isWordPart d = true)
    (ends : rest.head?.any isWordPart = false)
    (plain : marksLiteral ((c :: text).map foldCase) rest = false) :
    readToken (c :: text ++ rest) = some (.word ((c :: text).map foldCase), rest) := by
  have range := isWordStart_toNat start
  have noQuote : c ≠ chr '"' := ne_of_toNat toNat_quote (by omega)
  have noMark : c ≠ quoteMark := ne_of_toNat toNat_quoteMark (by omega)
  have taken := takeWhile_run parts ends
  have dropped := dropWhile_run parts ends
  rw [List.cons_append] at taken dropped ⊢
  simp only [readToken, if_neg noQuote, if_neg noMark, if_pos start, taken, dropped, plain,
    Bool.false_eq_true, if_false]

/-- A space keeps a word and a literal apart. -/
theorem marksLiteral_space (word rest : Bytes) : marksLiteral word (chr ' ' :: rest) = false := by
  have apart : (chr ' ' :: rest).take 2 ∉ [[chr '&', quoteMark], [chr '&', chr '"']] := by
    intro member
    rcases List.mem_pair.mp member with same | same <;>
      exact absurd (List.head_eq_of_cons_eq same) (by decide)
  rw [marksLiteral, decide_eq_false apart, Bool.and_false, Bool.or_false]
  exact Bool.and_false _

theorem ReadsAs.word {c : UInt8} {text rest : Bytes} (start : isWordStart c = true)
    (parts : ∀ d ∈ c :: text, isWordPart d = true)
    (ends : rest.head?.any isWordPart = false)
    (plain : marksLiteral ((c :: text).map foldCase) rest = false) :
    ReadsAs (c :: text) [.word ((c :: text).map foldCase)] rest := by
  apply ReadsAs.of_next
  rw [List.cons_append, nextToken_solid (isSolid_of_isWordStart start), ← List.cons_append]
  exact readToken_word start parts ends plain

/-! ## Names in quotes -/

theorem nextToken_quoted (s : Bytes) :
    nextToken (chr '"' :: s) = (readDelimited (chr '"') s).bind fun (name, rest) =>
      if name = [] then none else some (.quoted name, rest) := by
  rw [nextToken_solid rfl, readToken, if_pos rfl]

theorem ReadsAs.quoted {name rest : Bytes} (some_ : name ≠ [])
    (ends : rest.head? ≠ some (chr '"')) :
    ReadsAs (delimited (chr '"') name) [.quoted name] rest := by
  apply ReadsAs.of_next
  rw [delimited, List.cons_append, List.append_assoc, List.singleton_append, nextToken_quoted,
    readDelimited_doubled ends, Option.bind_some]
  exact if_neg some_

/-! ## Literals -/

theorem readString_doubled {text rest : Bytes}
    (last : ((skip .blank rest).any fun after => after.head? = some quoteMark) = false) :
    readString (doubled quoteMark text ++ quoteMark :: rest) = some (text, rest) := by
  have ends : rest.head? ≠ some quoteMark := by
    intro another
    obtain ⟨tail, rfl⟩ := List.head?_eq_some_iff.mp another
    rw [skip_solid (show isSolid quoteMark = true from rfl)] at last
    cases last
  rw [readString, readDelimited_doubled ends, Option.bind_some]
  simp only [last, Bool.false_eq_true, if_false]

theorem nextToken_string (s : Bytes) :
    nextToken (quoteMark :: s) = (readString s).map fun (text, rest) => (.string text, rest) := by
  have noQuote : quoteMark ≠ chr '"' := by decide
  rw [nextToken_solid rfl, readToken, if_neg noQuote, if_pos rfl]

theorem ReadsAs.string {text rest : Bytes}
    (last : ((skip .blank rest).any fun after => after.head? = some quoteMark) = false) :
    ReadsAs (delimited quoteMark text) [.string text] rest := by
  apply ReadsAs.of_next
  rw [delimited, List.cons_append, List.append_assoc, List.singleton_append, nextToken_string,
    readString_doubled last]
  rfl

/-! ## Marks and operators -/

theorem ReadsAs.special {c : UInt8} (special : isSpecial c = true) (rest : Bytes) :
    ReadsAs [c] [.special c] rest := by
  have mark : c ∈ str "(),;:[]." := of_decide_eq_true special
  apply ReadsAs.of_next
  simp only [str, List.mem_map] at mark
  obtain ⟨d, written, rfl⟩ := mark
  have listed : d ∈ ['(', ')', ',', ';', ':', '[', ']', '.'] := written
  simp only [List.mem_cons, List.not_mem_nil, or_false] at listed
  rcases listed with rfl | rfl | rfl | rfl | rfl | rfl | rfl | rfl <;>
    exact nextToken_solid rfl rest

theorem operatorOf_single (c : UInt8) : operatorOf [c] = [c] := by
  unfold operatorOf
  by_cases rare : isRareOperator c = true
  · rw [if_pos (by simp [rare])]
  · by_cases sign : (c = chr '+' || c = chr '-') = true <;> simp [rare, sign]

theorem operatorRun_stop {d : UInt8} (stop : isOperator d = false) (rest : Bytes) :
    operatorRun (d :: rest) = [] := by
  cases rest with
  | nil => exact if_neg (by simp [stop])
  | cons e rest =>
    rw [operatorRun]
    split
    · rfl
    · exact if_neg (by simp [stop])

theorem operatorRun_single {c : UInt8} {rest : Bytes} (operator : isOperator c = true)
    (ends : rest.head?.any isOperator = false) : operatorRun (c :: rest) = [c] := by
  cases rest with
  | nil => exact if_pos operator
  | cons d rest =>
    have stop : isOperator d = false := ends
    have noComment : ¬(c = chr '-' ∧ d = chr '-' ∨ c = chr '/' ∧ d = chr '*') := by
      rintro (⟨_, rfl⟩ | ⟨_, rfl⟩) <;> cases stop
    rw [operatorRun, if_neg noComment, if_pos operator, operatorRun_stop stop]

/-- The two operators that the statements here have, on their own. -/
theorem readToken_operator {c : UInt8} {rest : Bytes} (used : c = chr '=' ∨ c = chr '-')
    (ends : rest.head?.any isOperator = false) :
    readToken (c :: rest) = some (.operator [c], rest) := by
  have operator : isOperator c = true := by rcases used with rfl | rfl <;> rfl
  have run := operatorRun_single operator ends
  rcases used with rfl | rfl <;>
  · rw [readToken, if_neg (by decide), if_neg (by decide), if_neg (by decide), if_neg (by decide),
      if_neg (by decide), run, operatorOf_single]
    exact if_neg (List.cons_ne_nil _ _)

theorem ReadsAs.equals {rest : Bytes} (ends : rest.head?.any isOperator = false) :
    ReadsAs [chr '='] [.operator [chr '=']] rest :=
  ReadsAs.of_next ((nextToken_solid rfl rest).trans (readToken_operator (.inl rfl) ends))

theorem ReadsAs.minus {rest : Bytes} (ends : rest.head?.any isOperator = false) :
    ReadsAs [chr '-'] [.operator [chr '-']] rest := by
  have single : rest.head? ≠ some (chr '-') := by
    intro another
    rw [another] at ends
    cases ends
  exact ReadsAs.of_next ((nextToken_minus single).trans (readToken_operator (.inr rfl) ends))

/-! ## From the tokens to the text -/

/-- The characters of a token; a number has none of interest. -/
def Token.text : Token → Bytes
  | .word text => text
  | .quoted name => name
  | .string text => text
  | .number _ => []
  | .operator text => text
  | .special mark => [mark]

theorem readToken_cases {c : UInt8} {s rest : Bytes} {token : Token}
    (read : readToken (c :: s) = some (token, rest)) :
    (c = chr '"' ∧ ∃ name, token = .quoted name ∧ readDelimited c s = some (name, rest)) ∨
    (c = quoteMark ∧ ∃ text, token = .string text ∧ readString s = some (text, rest)) ∨
    (isWordStart c = true ∧ token = .word (((c :: s).takeWhile isWordPart).map foldCase) ∧
      rest = (c :: s).dropWhile isWordPart) ∨
    (∃ value, token = .number value ∧ readNumber (c :: s) = some (value, rest)) ∨
    (token = .special c ∧ rest = s) ∨
    (operatorOf (operatorRun (c :: s)) ≠ [] ∧
      token = .operator (operatorOf (operatorRun (c :: s))) ∧
        rest = (c :: s).drop (operatorOf (operatorRun (c :: s))).length) := by
  rw [readToken] at read
  split at read
  next isQuote =>
    obtain ⟨⟨name, rest'⟩, inner, read⟩ := Option.bind_eq_some_iff.mp read
    dsimp only at read
    split at read
    · cases read
    · cases read
      exact .inl ⟨isQuote, name, rfl, inner⟩
  next =>
    split at read
    next isMark =>
      obtain ⟨⟨text, rest'⟩, inner, read⟩ := Option.map_eq_some_iff.mp read
      cases read
      exact .inr (.inl ⟨isMark, text, rfl, inner⟩)
    next =>
      split at read
      next start =>
        dsimp only at read
        split at read
        · cases read
        · cases read
          exact .inr (.inr (.inl ⟨start, rfl, rfl⟩))
      next =>
        split at read
        next =>
          obtain ⟨⟨value, rest'⟩, inner, read⟩ := Option.map_eq_some_iff.mp read
          cases read
          exact .inr (.inr (.inr (.inl ⟨value, rfl, inner⟩)))
        next =>
          split at read
          next =>
            cases read
            exact .inr (.inr (.inr (.inr (.inl ⟨rfl, rfl⟩))))
          next =>
            dsimp only at read
            split at read
            · cases read
            · next some_ =>
              cases read
              exact .inr (.inr (.inr (.inr (.inr ⟨some_, rfl, rfl⟩))))

theorem operatorRun_begins (s : Bytes) : operatorRun s <+: s := by
  fun_induction operatorRun s with
  | case1 | case3 | case4 | case6 => exact List.nil_prefix
  | case2 c _ => exact List.prefix_rfl
  | case5 c d rest _ _ ih => exact List.cons_prefix_cons.mpr ⟨rfl, ih⟩

theorem operatorOf_begins (run : Bytes) : operatorOf run <+: run := by
  unfold operatorOf
  split
  · exact List.prefix_rfl
  · dsimp only
    split
    · exact List.take_prefix 1 run
    · rw [← List.reverse_suffix, List.reverse_reverse]
      exact List.dropWhile_suffix _

/-- An operator is at least its first character. -/
theorem readToken_operator_head {s text rest : Bytes}
    (read : readToken s = some (.operator text, rest)) : text.head? = s.head? := by
  cases s with
  | nil => cases read
  | cons c s =>
    rcases readToken_cases read with ⟨_, _, same, _⟩ | ⟨_, _, same, _⟩ | ⟨_, same, _⟩ |
      ⟨_, same, _⟩ | ⟨same, _⟩ | ⟨some_, same, _⟩
    · cases same
    · cases same
    · cases same
    · cases same
    · cases same
    · cases same
      have front := (operatorOf_begins (operatorRun (c :: s))).trans (operatorRun_begins (c :: s))
      obtain ⟨back, split⟩ := front
      obtain ⟨first, others, shown⟩ := List.exists_cons_of_ne_nil some_
      rw [shown] at split ⊢
      exact congrArg some (List.head_eq_of_cons_eq split)

theorem readExponent_suffix (s : Bytes) : (readExponent s).2 <:+ s := by
  have sign_suffix (s : Bytes) : (readSign s).2 <:+ s := by
    cases s with
    | nil => exact List.suffix_rfl
    | cons c s =>
      rw [readSign]
      split
      · exact List.suffix_cons c s
      · split
        · exact List.suffix_cons c s
        · exact List.suffix_rfl
  cases s with
  | nil => exact List.suffix_rfl
  | cons c s =>
    rw [readExponent]
    split
    · dsimp only
      split
      · exact List.suffix_rfl
      · exact ((List.dropWhile_suffix isDigit).trans (sign_suffix s)).trans (List.suffix_cons c s)
    · exact List.suffix_rfl

theorem readFraction_suffix (s : Bytes) : (readFraction s).2 <:+ s := by
  cases s with
  | nil => exact List.suffix_rfl
  | cons c s =>
    rw [readFraction]
    split
    · exact (List.dropWhile_suffix isDigit).trans (List.suffix_cons c s)
    · exact List.suffix_rfl

theorem readNumber_suffix {s rest : Bytes} {value : Rat}
    (read : readNumber s = some (value, rest)) : rest <:+ s := by
  rw [readNumber] at read
  dsimp only at read
  split at read
  · cases read
  · cases read
    exact ((readExponent_suffix _).trans (readFraction_suffix _)).trans
      (List.dropWhile_suffix isDigit)

theorem foldCase_lower {c : UInt8} (upper : inRange 'A' 'Z' c = true) :
    inRange 'a' 'z' (foldCase c) = true := by
  have range : 65 ≤ c.toNat ∧ c.toNat ≤ 90 := by simpa [inRange] using upper
  have moved : (c + 32).toNat = c.toNat + 32 := by
    rw [UInt8.toNat_add]
    exact Nat.mod_eq_of_lt (by simp; omega)
  rw [foldCase, if_pos upper]
  simp only [inRange, moved, Bool.and_eq_true, decide_eq_true_eq]
  exact ⟨by simp; omega, by simp; omega⟩

/-- Folding makes lower case letters only. -/
theorem count_foldCase_le {c : UInt8} (noLetter : inRange 'a' 'z' c = false) (text : Bytes) :
    (text.map foldCase).count c ≤ text.count c := by
  rw [List.count, List.countP_map]
  apply List.countP_mono_left
  intro d _ folded
  have same : foldCase d = c := beq_iff_eq.mp folded
  have unfolded : d = c := by
    by_cases upper : inRange 'A' 'Z' d = true
    · have lower := foldCase_lower upper
      rw [same, noLetter] at lower
      cases lower
    · rwa [foldCase, if_neg upper] at same
  exact beq_iff_eq.mpr unfolded

/-- A token has no more of a character than the text it was read from. -/
theorem readToken_count {c : UInt8} (noLetter : inRange 'a' 'z' c = false) {s rest : Bytes}
    {token : Token} (read : readToken s = some (token, rest)) :
    token.text.count c + rest.count c ≤ s.count c := by
  cases s with
  | nil => cases read
  | cons d s =>
    have delimited_count {quote : UInt8} {text : Bytes}
        (inner : readDelimited quote s = some (text, rest)) :
        text.count c + rest.count c ≤ (d :: s).count c := by
      have text_le : text.count c ≤ (doubled quote text).count c :=
        (sublist_doubled text).count_le c
      have rest_le : rest.count c ≤ (quote :: rest).count c :=
        (List.sublist_cons_self quote rest).count_le c
      have tail_le : s.count c ≤ (d :: s).count c := (List.sublist_cons_self d s).count_le c
      have whole := congrArg (List.count c) (eq_of_readDelimited inner).1
      rw [List.count_append] at whole
      omega
    rcases readToken_cases read with ⟨_, name, rfl, inner⟩ | ⟨_, text, rfl, inner⟩ |
      ⟨_, rfl, rfl⟩ | ⟨value, rfl, inner⟩ | ⟨rfl, rfl⟩ | ⟨_, rfl, rfl⟩
    · exact delimited_count inner
    · obtain ⟨⟨text', rest'⟩, inner, shown⟩ := Option.bind_eq_some_iff.mp inner
      dsimp only at shown
      split at shown
      · cases shown
      · cases shown
        exact delimited_count inner
    · have folded := count_foldCase_le noLetter ((d :: s).takeWhile isWordPart)
      have parts := congrArg (List.count c)
        (@List.takeWhile_append_dropWhile _ isWordPart (d :: s))
      rw [List.count_append] at parts
      simp only [Token.text]
      omega
    · simpa [Token.text] using (readNumber_suffix inner).sublist.count_le c
    · exact le_of_eq (@List.count_append _ _ c [d] _).symm
    · have front := (operatorOf_begins (operatorRun (d :: s))).trans (operatorRun_begins (d :: s))
      have parts := congrArg (List.count c) (List.prefix_iff_eq_append.mp front)
      rw [List.count_append] at parts
      exact le_of_eq parts

theorem nextToken_count {c : UInt8} (noLetter : inRange 'a' 'z' c = false) {s rest : Bytes}
    {token : Token} (read : nextToken s = some (token, rest)) :
    token.text.count c + rest.count c ≤ s.count c := by
  obtain ⟨s', skipped, read⟩ := Option.bind_eq_some_iff.mp read
  exact (readToken_count noLetter read).trans ((skip_suffix skipped).sublist.count_le c)

/-- How often a character is in tokens. -/
def countIn (c : UInt8) (tokens : List Token) : Nat :=
  (tokens.map fun token => token.text.count c).sum

theorem countIn_append (c : UInt8) (front back : List Token) :
    countIn c (front ++ back) = countIn c front + countIn c back := by
  rw [countIn, List.map_append, List.sum_append]
  rfl

theorem countIn_cons (c : UInt8) (token : Token) (tokens : List Token) :
    countIn c (token :: tokens) = token.text.count c + countIn c tokens := List.sum_cons

/-- All tokens together have no more of a character than the text. -/
theorem Lexes.count_le {c : UInt8} (noLetter : inRange 'a' 'z' c = false) {s : Bytes}
    {tokens : List Token} (lexes : Lexes s tokens) : countIn c tokens ≤ s.count c := by
  induction lexes with
  | done _ => exact Nat.zero_le _
  | next read _ ih =>
    have first := nextToken_count noLetter read
    rw [countIn_cons]
    omega

/-- A character that is not in the text is in no token. -/
theorem Lexes.notMem {c : UInt8} (noLetter : inRange 'a' 'z' c = false) {s : Bytes}
    {tokens : List Token} (lexes : Lexes s tokens) (none_ : c ∉ s) :
    ∀ token ∈ tokens, c ∉ token.text := by
  have total := lexes.count_le noLetter
  rw [List.count_eq_zero_of_not_mem none_, Nat.le_zero, countIn,
    List.sum_eq_zero_iff_forall_eq_nat] at total
  intro token member
  exact List.count_eq_zero.mp (total _ (List.mem_map.mpr ⟨token, member, rfl⟩))

/-! ## A text that is its own first token -/

/-- A key word, or a name that needs no quotes. -/
def IsWord (text : Bytes) : Prop :=
  text.head?.any isWordStart = true ∧ (∀ c ∈ text, isWordPart c = true) ∧ text.map foldCase = text

instance : DecidablePred IsWord := fun text => inferInstanceAs (Decidable
  (text.head?.any isWordStart = true ∧ (∀ c ∈ text, isWordPart c = true) ∧
    text.map foldCase = text))

theorem isWordStart_foldCase {c : UInt8} (start : isWordStart c = true) :
    isWordStart (foldCase c) = true := by
  by_cases upper : inRange 'A' 'Z' c = true
  · rw [isWordStart, foldCase_lower upper]
    rfl
  · rwa [foldCase, if_neg upper]

theorem isWordPart_foldCase {c : UInt8} (part : isWordPart c = true) :
    isWordPart (foldCase c) = true := by
  by_cases upper : inRange 'A' 'Z' c = true
  · rw [isWordPart, isWordStart, foldCase_lower upper]
    rfl
  · rwa [foldCase, if_neg upper]

/-- A word that denotes the text at whose place it stands is this text, in lower case. -/
theorem lexes_word_self {text back : Bytes} (ends : back.head?.any isWordPart = false)
    {tokens : List Token} (lexes : Lexes (text ++ back) (.word text :: tokens)) :
    IsWord text ∧ Lexes back tokens := by
  cases lexes with
  | next read more =>
    obtain ⟨s, skipped, read⟩ := Option.bind_eq_some_iff.mp read
    cases s with
    | nil => cases read
    | cons c s =>
      rcases readToken_cases read with ⟨_, _, same, _⟩ | ⟨_, _, same, _⟩ |
        ⟨start, same, rest_eq⟩ | ⟨_, same, _⟩ | ⟨same, _⟩ | ⟨_, same, _⟩
      · cases same
      · cases same
      · rw [Token.word.injEq] at same
        have parts : ∀ d ∈ text, isWordPart d = true := by
          intro d member
          rw [same] at member
          obtain ⟨d', taken, rfl⟩ := List.mem_map.mp member
          exact isWordPart_foldCase (List.all_eq_true.mp List.all_takeWhile d' taken)
        have first : text.head? = some (foldCase c) := by
          rw [same, List.takeWhile_cons_of_pos (isWordPart_of_isWordStart start)]
          rfl
        obtain ⟨tail, text_eq⟩ := List.head?_eq_some_iff.mp first
        have here : c :: s = text ++ back := by
          rw [text_eq, List.cons_append] at skipped ⊢
          rw [skip_solid (isSolid_of_isWordStart (isWordStart_foldCase start))] at skipped
          exact (Option.some.inj skipped).symm
        rw [here, takeWhile_run parts ends] at same
        rw [here, dropWhile_run parts ends] at rest_eq
        refine ⟨⟨?_, parts, same.symm⟩, rest_eq ▸ more⟩
        rw [first]
        exact isWordStart_foldCase start
      · cases same
      · cases same
      · cases same

theorem ReadsAs.word_self {text rest : Bytes} (word : IsWord text)
    (ends : rest.head?.any isWordPart = false) (plain : marksLiteral text rest = false) :
    ReadsAs text [.word text] rest := by
  obtain ⟨start, parts, lower⟩ := word
  cases text with
  | nil => cases start
  | cons c text =>
    have reads := ReadsAs.word start parts ends (lower.symm ▸ plain)
    rwa [lower] at reads

theorem mem_of_two_le {α : Type} {a c : α} {back front rest : List α}
    (split : a :: c :: back = front ++ rest) (two : 2 ≤ front.length) : c ∈ front := by
  rcases front with _ | ⟨first, _ | ⟨second, front⟩⟩
  · cases two
  · exact absurd two (by simp)
  · rw [List.head_eq_of_cons_eq (List.tail_eq_of_cons_eq split)]
    exact List.mem_cons_of_mem first List.mem_cons_self

/-- A quoted name that denotes the text at whose place it stands reaches into what follows. So
the tokens behind it have less of some character than what follows. -/
theorem lexes_quoted_self {text back : Bytes} {a c : UInt8}
    (noLetter : inRange 'a' 'z' c = false) {tokens : List Token}
    (lexes : Lexes (text ++ (a :: c :: back)) (.quoted text :: tokens)) :
    countIn c tokens < (a :: c :: back).count c := by
  cases lexes with
  | @next _ rest _ _ read more =>
    obtain ⟨s, skipped, read⟩ := Option.bind_eq_some_iff.mp read
    obtain ⟨gap, split⟩ := skip_suffix skipped
    cases s with
    | nil => cases read
    | cons d s =>
      rcases readToken_cases read with ⟨rfl, _, same, inner⟩ | ⟨_, _, same, _⟩ |
        ⟨_, same, _⟩ | ⟨_, same, _⟩ | ⟨same, _⟩ | ⟨_, same, _⟩
      · rw [Token.quoted.injEq] at same
        subst same
        have written : gap ++ delimited (chr '"') text ++ rest = text ++ (a :: c :: back) := by
          rw [← split, (eq_of_readDelimited inner).1, delimited, List.append_assoc,
            List.cons_append, List.append_assoc]
          rfl
        rcases List.append_eq_append_iff.mp written with
          ⟨inside, text_eq, _⟩ | ⟨reach, front, back_eq⟩
        · have longer := congrArg List.length text_eq
          rw [List.length_append, List.length_append, length_delimited] at longer
          omega
        · have lengths := congrArg List.length front
          rw [List.length_append, List.length_append, length_delimited] at lengths
          have reached : 0 < reach.count c :=
            List.count_pos_iff.mpr (mem_of_two_le back_eq (by omega))
          have later := more.count_le noLetter
          rw [back_eq, List.count_append]
          omega
      · cases same
      · cases same
      · cases same
      · cases same
      · cases same

end KafkaReplication.Misc.Sql
