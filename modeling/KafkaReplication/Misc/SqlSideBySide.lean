import KafkaReplication.Misc.SqlTokens

/-!
# Two texts with the same names

What the lexer makes of two texts that have the same names between quotes, but other characters
between the names. If a name ends before the quote that was put behind it, what follows in it is
the same in both texts, up to where a comment may take the lexer. So no text has a word there where
the other one has a punctuation mark.
-/

namespace KafkaReplication.Misc.Sql

/-- A text has one list of tokens at most. -/
theorem Lexes.unique {s : Bytes} {tokens tokens' : List Token} (lexes : Lexes s tokens)
    (lexes' : Lexes s tokens') : tokens = tokens' := by
  induction lexes generalizing tokens' with
  | done blank =>
    cases lexes' with
    | done _ => rfl
    | next read _ =>
      rw [nextToken, blank] at read
      cases read
  | next read _ ih =>
    obtain ⟨later, rfl, more⟩ := (lexes_iff_of_next read _).mp lexes'
    rw [ih more]

/-! ## Comments -/

/-- What can be in a comment without ending it or beginning another. -/
def CommentPlain (text : Bytes) : Prop :=
  ∀ c ∈ text, c ≠ chr '*' ∧ c ≠ chr '/' ∧ isNewline c = false

instance : DecidablePred CommentPlain := fun text => inferInstanceAs (Decidable
  (∀ c ∈ text, c ≠ chr '*' ∧ c ≠ chr '/' ∧ isNewline c = false))

theorem CommentPlain.append {front back : Bytes} (plain : CommentPlain front)
    (plain' : CommentPlain back) : CommentPlain (front ++ back) :=
  List.forall_mem_append.mpr ⟨plain, plain'⟩

section Comments

variable {comment : Gap} {text : Bytes}

theorem skip_line {c : UInt8} (noNewline : isNewline c = false) (rest : Bytes) :
    skip .line (c :: rest) = skip .line rest := by
  rw [skip, if_neg (by simp [noNewline])]

theorem skip_block {c : UInt8} (noStar : c ≠ chr '*') (noSlash : c ≠ chr '/') (depth : Nat)
    (rest : Bytes) : skip (.block depth) (c :: rest) = skip (.block depth) rest := by
  cases rest with
  | nil => rfl
  | cons d rest => simp [skip, noStar, noSlash]

theorem skip_commentPlain (inside : comment ≠ .blank) (plain : CommentPlain text) (rest : Bytes) :
    skip comment (text ++ rest) = skip comment rest := by
  induction text with
  | nil => rfl
  | cons c text ih =>
    obtain ⟨⟨noStar, noSlash, noNewline⟩, plain⟩ := List.forall_mem_cons.mp plain
    rw [← ih plain, List.cons_append]
    cases comment with
    | blank => exact absurd rfl inside
    | line => exact skip_line noNewline _
    | block depth => exact skip_block noStar noSlash depth _

/-- In front of a quote the lexer stops at the same character, or it is in the same comment at the
quote, whatever follows. -/
def SettledAtQuote (gap : Gap) (text : Bytes) : Prop :=
  (∃ visible, ∀ rest, skip gap (text ++ chr '"' :: rest) = some (visible ++ chr '"' :: rest)) ∨
    ∃ comment, comment ≠ .blank ∧
      ∀ rest, skip gap (text ++ chr '"' :: rest) = skip comment rest

theorem SettledAtQuote.of_eq {gap gap' : Gap} {text text' : Bytes}
    (settled : SettledAtQuote gap' text')
    (same : ∀ rest, skip gap (text ++ chr '"' :: rest) = skip gap' (text' ++ chr '"' :: rest)) :
    SettledAtQuote gap text := by
  rcases settled with ⟨visible, stops⟩ | ⟨comment, inside, goesOn⟩
  · exact .inl ⟨visible, fun rest => (same rest).trans (stops rest)⟩
  · exact .inr ⟨comment, inside, fun rest => (same rest).trans (goesOn rest)⟩

theorem settledAtQuote (gap : Gap) (text : Bytes) : SettledAtQuote gap text := by
  have quote_solid (rest : Bytes) : skip .blank (chr '"' :: rest) = some (chr '"' :: rest) :=
    skip_solid rfl rest
  have blank : SettledAtQuote .blank [] := .inl ⟨[], quote_solid⟩
  have line : SettledAtQuote .line [] := .inr ⟨.line, nofun, skip_line rfl⟩
  have block (depth : Nat) : SettledAtQuote (.block depth) [] :=
    .inr ⟨.block depth, nofun, skip_block (by decide) (by decide) depth⟩
  have noDash : chr '"' ≠ chr '-' := by decide
  have noStar : chr '"' ≠ chr '*' := by decide
  have noSlash : chr '"' ≠ chr '/' := by decide
  have slashDash : chr '/' ≠ chr '-' := by decide
  have slashStar : chr '/' ≠ chr '*' := by decide
  fun_induction skip gap text with
  | case1 c d text begins ih => exact ih.of_eq fun rest => by simp [skip, begins]
  | case2 c d text _ begins ih => exact ih.of_eq fun rest => by simp [skip, slashDash, begins]
  | case3 c d text noLine noBlock space ih =>
    exact ih.of_eq fun rest => by simp [skip, noBlock, noLine, space]
  | case4 c d text noLine noBlock space =>
    exact .inl ⟨c :: d :: text, fun rest => by simp [skip, noBlock, noLine, space]⟩
  | case5 c space => exact blank.of_eq fun rest => by simp [skip, noDash, noStar, space]
  | case6 c space => exact .inl ⟨[c], fun rest => by simp [skip, noDash, noStar, space]⟩
  | case7 => exact blank
  | case8 c text ends ih => exact ih.of_eq fun rest => by simp [skip, ends]
  | case9 c text goesOn ih => exact ih.of_eq fun rest => by simp [skip, goesOn]
  | case10 => exact line
  | case11 c d text ends ih => exact ih.of_eq fun rest => by simp [skip, ends]
  | case12 c d text ends depth ih => exact ih.of_eq fun rest => by simp [skip, ends]
  | case13 depth c d text _ begins ih =>
    exact ih.of_eq fun rest => by simp [skip, slashStar, begins]
  | case14 depth c d text noEnd noBegin ih =>
    exact ih.of_eq fun rest => by simp [skip, noEnd, noBegin]
  | case15 s depth short =>
    cases s with
    | nil => exact block depth
    | cons c s =>
      cases s with
      | nil => exact (block depth).of_eq fun rest => by simp [skip, noSlash, noStar]
      | cons d s => exact absurd rfl (short c d s)

end Comments

/-! ## Names in both texts -/

/-- Two texts behind the quote of a name: the same names with quotes behind them, and in front of
the names what does not matter to a comment. Both texts may be cut in a name; the second one goes
on as it likes when the first one is at its end. -/
inductive Alongside : Bytes → Bytes → Prop
  | last {front : Bytes} (plain : CommentPlain front) (back : Bytes) : Alongside front back
  | cut {front back : Bytes} (plain : CommentPlain front) (plain' : CommentPlain back)
      (name : Bytes) : Alongside (front ++ name) (back ++ name)
  | next {front back rest rest' : Bytes} (plain : CommentPlain front)
      (plain' : CommentPlain back) (name : Bytes) (later : Alongside rest rest') :
      Alongside (front ++ (name ++ chr '"' :: rest)) (back ++ (name ++ chr '"' :: rest'))

/-- A comment that ends in both texts ends in front of the same character. -/
theorem Alongside.skip_head {comment : Gap} (inside : comment ≠ .blank) {s s' : Bytes}
    (along : Alongside s s') {c c' : UInt8} {rest rest' : Bytes}
    (stops : skip comment s = some (c :: rest)) (stops' : skip comment s' = some (c' :: rest')) :
    c = c' := by
  induction along generalizing comment with
  | @last front plain back =>
    have nothing := skip_commentPlain inside plain []
    rw [List.append_nil, stops] at nothing
    cases comment <;> cases nothing
  | cut plain plain' name =>
    rw [skip_commentPlain inside plain] at stops
    rw [skip_commentPlain inside plain', stops] at stops'
    cases stops'
    rfl
  | @next front back rest rest' plain plain' name later ih =>
    rw [skip_commentPlain inside plain] at stops
    rw [skip_commentPlain inside plain'] at stops'
    rcases settledAtQuote comment name with ⟨visible, stop⟩ | ⟨comment', inside', goesOn⟩
    · rw [stop] at stops stops'
      cases visible with
      | nil =>
        cases stops
        cases stops'
        rfl
      | cons d visible =>
        cases stops
        cases stops'
        rfl
    · rw [goesOn] at stops stops'
      exact ih inside' stops stops'

/-- What begins with a letter is a word. -/
theorem readToken_start {c : UInt8} {s rest : Bytes} {token : Token}
    (start : isWordStart c = true) (read : readToken (c :: s) = some (token, rest)) :
    ∃ text, token = .word text := by
  have range := isWordStart_toNat start
  have noQuote : c ≠ chr '"' := ne_of_toNat toNat_quote (by omega)
  have noMark : c ≠ quoteMark := ne_of_toNat toNat_quoteMark (by omega)
  rw [readToken, if_neg noQuote, if_neg noMark, if_pos start] at read
  dsimp only at read
  split at read
  · cases read
  · cases read
    exact ⟨_, rfl⟩

/-- Behind a part of a name that is followed by a quote there is no word in one text and a mark in
the other. -/
theorem Alongside.no_word_and_mark {s s' : Bytes} (along : Alongside s s') {text : Bytes}
    {word rest rest' : Bytes} {mark : UInt8}
    (read : nextToken (text ++ chr '"' :: s) = some (.word word, rest))
    (read' : nextToken (text ++ chr '"' :: s') = some (.special mark, rest')) : False := by
  obtain ⟨shown, skipped, read⟩ := Option.bind_eq_some_iff.mp read
  obtain ⟨shown', skipped', read'⟩ := Option.bind_eq_some_iff.mp read'
  cases shown with
  | nil => cases read
  | cons c tail =>
    cases shown' with
    | nil => cases read'
    | cons c' tail' =>
      have same : c = c' := by
        rcases settledAtQuote .blank text with ⟨visible, stop⟩ | ⟨comment, inside, goesOn⟩
        · rw [stop] at skipped skipped'
          cases visible with
          | nil =>
            cases skipped
            cases skipped'
            rfl
          | cons d visible =>
            cases skipped
            cases skipped'
            rfl
        · rw [goesOn] at skipped skipped'
          exact along.skip_head inside skipped skipped'
      have start : isWordStart c = true := by
        rcases readToken_cases read with ⟨_, _, same, _⟩ | ⟨_, _, same, _⟩ | ⟨start, _⟩ |
          ⟨_, same, _⟩ | ⟨same, _⟩ | ⟨_, same, _⟩
        · cases same
        · cases same
        · exact start
        · cases same
        · cases same
        · cases same
      obtain ⟨_, word_⟩ := readToken_start (same ▸ start) read'
      cases word_

/-- A name between quotes that is read as the same token in front of different characters: it is
read whole, or the token ends in it, and what follows in it is left over in both texts. -/
theorem name_in_both {name s s' rest rest' : Bytes} {token : Token}
    (apart : s.head? ≠ s'.head?) (noQuote : s.head? ≠ some (chr '"'))
    (read : nextToken (chr '"' :: (name ++ chr '"' :: s)) = some (token, rest))
    (read' : nextToken (chr '"' :: (name ++ chr '"' :: s')) = some (token, rest')) :
    (∃ text, text ≠ [] ∧ name = doubled (chr '"') text ∧ token = .quoted text ∧ rest = s ∧
        rest' = s') ∨
      ∃ more, rest = more ++ chr '"' :: s ∧ rest' = more ++ chr '"' :: s' := by
  have inner {s rest : Bytes}
      (read : nextToken (chr '"' :: (name ++ chr '"' :: s)) = some (token, rest)) :
      ∃ text, token = .quoted text ∧ text ≠ [] ∧
        name ++ chr '"' :: s = doubled (chr '"') text ++ chr '"' :: rest := by
    rw [nextToken_quoted] at read
    obtain ⟨⟨text, rest''⟩, inner, shown⟩ := Option.bind_eq_some_iff.mp read
    dsimp only at shown
    split at shown
    · cases shown
    · next some_ =>
      cases shown
      exact ⟨text, rfl, some_, (eq_of_readDelimited inner).1⟩
  obtain ⟨text, rfl, some_, written⟩ := inner read
  obtain ⟨text', same, -, written'⟩ := inner read'
  cases same
  rcases List.append_eq_append_iff.mp written with ⟨tail, doubled_eq, behind⟩ |
    ⟨tail, name_eq, behind⟩
  · cases tail with
    | nil =>
      rw [List.append_nil] at doubled_eq
      rw [doubled_eq] at written'
      have rests := List.append_cancel_left written'
      exact .inl ⟨text, some_, doubled_eq.symm, rfl, (List.tail_eq_of_cons_eq behind).symm,
        (List.tail_eq_of_cons_eq rests).symm⟩
    | cons q tail =>
      -- the token goes on behind the quote, where the texts differ
      have s_eq : s = tail ++ chr '"' :: rest := List.tail_eq_of_cons_eq behind
      rw [doubled_eq, List.append_assoc] at written'
      have s'_eq : s' = tail ++ chr '"' :: rest' :=
        List.tail_eq_of_cons_eq (List.append_cancel_left written')
      cases tail with
      | nil =>
        rw [s_eq] at noQuote
        exact absurd rfl noQuote
      | cons d tail =>
        rw [s_eq, s'_eq] at apart
        exact absurd rfl apart
  · cases tail with
    | nil =>
      rw [List.append_nil] at name_eq
      rw [name_eq] at written'
      have rests := List.append_cancel_left written'
      exact .inl ⟨text, some_, name_eq, rfl, List.tail_eq_of_cons_eq behind,
        (List.tail_eq_of_cons_eq rests).symm⟩
    | cons q more =>
      rw [name_eq, List.append_assoc] at written'
      have rests := List.append_cancel_left written'
      exact .inr ⟨more, List.tail_eq_of_cons_eq behind, (List.tail_eq_of_cons_eq rests).symm⟩

end KafkaReplication.Misc.Sql
