import KafkaReplication.Misc.SqlNumbers

/-!
# Rules of PostgreSQL's grammar

Names, literals, comparisons, assignments and the INSERT of one row, as rules on tokens with what
they denote. A name of 64 bytes or more is cut by the lexer, so that it denotes another name.
Which words are reserved is a parameter.
-/

namespace KafkaReplication.Misc.Sql

/-- What a literal stands for. -/
inductive Value where
  | null
  | bool (value : Bool)
  | number (value : Rat)
  | text (value : Bytes)

/-- `-` belongs to the number behind it. -/
inductive IsLiteral : List Token → Value → Prop
  | null : IsLiteral [.word (str "null")] .null
  | true_ : IsLiteral [.word (str "true")] (.bool true)
  | false_ : IsLiteral [.word (str "false")] (.bool false)
  | number (value : Rat) : IsLiteral [.number value] (.number value)
  | minus (value : Rat) : IsLiteral [.operator [chr '-'], .number value] (.number (-value))
  | string (text : Bytes) : IsLiteral [.string text] (.text text)

/-- Items of a list with commas between them. -/
def commas (items : List (List Token)) : List Token :=
  [Token.special (chr ',')].intercalate items

section Rules

variable (reserved : Bytes → Prop)

/-- The token is an identifier that denotes `name`. -/
inductive Names (name : Bytes) : Token → Prop
  | word (free : ¬reserved name) (short : name.length < 64) : Names name (.word name)
  | quoted (short : name.length < 64) : Names name (.quoted name)

/-- `column = 'value'` and nothing else. -/
def IsComparison (tokens : List Token) (column value : Bytes) : Prop :=
  ∃ name, Names reserved column name ∧ tokens = [name, .operator [chr '='], .string value]

/-- `column = value`. -/
def IsAssignment (tokens : List Token) (assigned : Bytes × Value) : Prop :=
  ∃ name literal, Names reserved assigned.1 name ∧ IsLiteral literal assigned.2 ∧
    tokens = name :: .operator [chr '='] :: literal

def IsAssignmentList (tokens : List Token) (assigned : List (Bytes × Value)) : Prop :=
  ∃ items, List.Forall₂ (IsAssignment reserved) items assigned ∧ tokens = commas items

/-- `INSERT INTO table (columns) VALUES (values)`. -/
def IsInsert (tokens : List Token) (table : Bytes) (columns : List Bytes) (values : List Value) :
    Prop :=
  ∃ tableName columnNames literals, Names reserved table tableName ∧
    List.Forall₂ (Names reserved) columns columnNames ∧ List.Forall₂ IsLiteral literals values ∧
      tokens = [.word (str "insert"), .word (str "into"), tableName, .special (chr '(')] ++
        (commas (columnNames.map fun name => [name]) ++
          ([.special (chr ')'), .word (str "values"), .special (chr '(')] ++
            (commas literals ++ [.special (chr ')')])))

variable {reserved} {name : Bytes} {token : Token}

theorem Names.text_eq (names : Names reserved name token) : token.text = name := by
  cases names <;> rfl

theorem Names.short (names : Names reserved name token) : name.length < 64 := by
  cases names <;> assumption

/-- A name that was put between quotes is itself only without quotes in it. -/
theorem lexes_name_iff {tail : Bytes} (ends : tail.head? ≠ some (chr '"'))
    (names : Names reserved name token) (tokens : List Token) :
    Lexes (chr '"' :: (name ++ chr '"' :: tail)) (token :: tokens) ↔
      token = .quoted name ∧ name ≠ [] ∧ chr '"' ∉ name ∧ Lexes tail tokens := by
  constructor
  · intro lexes
    cases lexes with
    | next read more =>
      rw [nextToken_quoted] at read
      obtain ⟨⟨name', rest⟩, inner, shown⟩ := Option.bind_eq_some_iff.mp read
      dsimp only at shown
      split at shown
      · cases shown
      · next some_ =>
        cases shown
        cases names with
        | quoted _ =>
          obtain ⟨plain, rfl⟩ := (readDelimited_plain_iff ends).mp inner
          exact ⟨rfl, some_, plain, more⟩
  · rintro ⟨rfl, some_, plain, lexes⟩
    have reads : ReadsAs (delimited (chr '"') name) [.quoted name] tail := .quoted some_ ends
    have all := (reads (.quoted name :: tokens)).mpr ⟨tokens, rfl, lexes⟩
    rw [delimited_of_notMem plain, List.cons_append, List.append_assoc] at all
    exact all

/-- The same for a literal at the end. -/
theorem lexes_string_iff (text : Bytes) :
    Lexes (quoteMark :: (text ++ [quoteMark])) [.string text] ↔ quoteMark ∉ text := by
  constructor
  · intro lexes
    cases lexes with
    | next read more =>
      rw [nextToken_string] at read
      obtain ⟨⟨text', rest⟩, inner, shown⟩ := Option.map_eq_some_iff.mp read
      cases shown
      obtain ⟨⟨text', rest'⟩, inner, shown⟩ := Option.bind_eq_some_iff.mp inner
      dsimp only at shown
      split at shown
      · cases shown
      · cases shown
        have ends : ([] : Bytes).head? ≠ some quoteMark := by simp
        exact ((readDelimited_plain_iff ends).mp inner).1
  · intro plain
    have reads : ReadsAs (delimited quoteMark text) [.string text] [] := .string rfl
    have all := (reads.whole [.string text]).mpr rfl
    rwa [delimited_of_notMem plain] at all

end Rules

/-! ## Lists with commas -/

section Lists

/-- A list or its closing parenthesis goes on here. -/
def Closes (rest : Bytes) : Prop := rest.head? = some (chr ',') ∨ rest.head? = some (chr ')')

namespace Closes

variable {rest : Bytes} (closes : Closes rest)
include closes

theorem head?_any {p : UInt8 → Bool} (comma : p (chr ',') = false) (paren : p (chr ')') = false) :
    rest.head?.any p = false := by
  rcases closes with next | next <;> rw [next]
  · exact comma
  · exact paren

theorem endsNumber : EndsNumber rest := closes.head?_any rfl rfl

theorem noQuote : rest.head? ≠ some (chr '"') := by
  rcases closes with next | next <;> rw [next] <;> decide

/-- No literal follows. -/
theorem lastLiteral :
    ((skip .blank rest).any fun after => after.head? = some quoteMark) = false := by
  rcases closes with next | next
  · obtain ⟨tail, rfl⟩ := List.head?_eq_some_iff.mp next
    rw [skip_solid (show isSolid (chr ',') = true from rfl)]
    rfl
  · obtain ⟨tail, rfl⟩ := List.head?_eq_some_iff.mp next
    rw [skip_solid (show isSolid (chr ')') = true from rfl)]
    rfl

end Closes

theorem ReadsAs.nil (rest : Bytes) : ReadsAs [] [] rest := by
  intro all
  simp

theorem ReadsAs.comma (rest : Bytes) : ReadsAs (str ", ") [.special (chr ',')] rest :=
  (ReadsAs.special rfl _).append .space

theorem closes_flatMap (parts : List Bytes) {rest : Bytes} (closes : Closes rest) :
    Closes (parts.flatMap (str ", " ++ ·) ++ rest) := by
  cases parts with
  | nil => exact closes
  | cons part parts => exact .inl rfl

variable {α : Type} {text : α → Bytes} {tokens : α → List Token}

theorem ReadsAs.flatMap_commas {items : List α}
    (each : ∀ item ∈ items, ∀ rest, Closes rest → ReadsAs (text item) (tokens item) rest)
    {rest : Bytes} (closes : Closes rest) :
    ReadsAs ((items.map text).flatMap (str ", " ++ ·))
      ((items.map tokens).flatMap ([.special (chr ',')] ++ ·)) rest := by
  induction items with
  | nil => exact .nil rest
  | cons item items ih =>
    rw [List.forall_mem_cons] at each
    have next := each.1 _ (closes_flatMap (items.map text) closes)
    exact ((ReadsAs.comma _).append next).append (ih each.2)

/-- A list is read item by item. -/
theorem ReadsAs.commas {items : List α}
    (each : ∀ item ∈ items, ∀ rest, Closes rest → ReadsAs (text item) (tokens item) rest)
    {rest : Bytes} (closes : Closes rest) :
    ReadsAs ((str ", ").intercalate (items.map text)) (commas (items.map tokens)) rest := by
  cases items with
  | nil => exact .nil rest
  | cons item items =>
    rw [List.forall_mem_cons] at each
    rw [List.map_cons, List.map_cons, Sql.commas, intercalate_cons_eq_append,
      intercalate_cons_eq_append]
    exact (each.1 _ (closes_flatMap (items.map text) closes)).append
      (ReadsAs.flatMap_commas each.2 closes)

end Lists

/-! ## Counting -/

/-- How often a character is in the texts among values. -/
def Value.count (c : UInt8) : Value → Nat
  | .text value => value.count c
  | .null | .bool _ | .number _ => 0

section Counting

/-- What is counted of a text, where the separators have none of it, is what its parts have. -/
theorem sum_intercalate {α : Type} {sep : List α} {amount : List α → Nat}
    (append : ∀ front back, amount (front ++ back) = amount front + amount back)
    (none_ : amount sep = 0) (parts : List (List α)) :
    amount (sep.intercalate parts) = (parts.map amount).sum := by
  induction parts with
  | nil => exact Nat.left_eq_add.mp (append [] [])
  | cons part parts ih =>
    cases parts with
    | nil => rw [List.intercalate_singleton, List.map_singleton, List.sum_singleton]
    | cons next parts =>
      rw [List.intercalate_cons_cons, append, append, none_, Nat.add_zero, ih,
        List.map_cons (l := next :: parts), List.sum_cons (l := (next :: parts).map amount)]

theorem count_intercalate {α : Type} [DecidableEq α] {sep : List α} {a : α} (apart : a ∉ sep)
    (parts : List (List α)) : (sep.intercalate parts).count a = (parts.map (List.count a)).sum :=
  sum_intercalate (fun _ _ => List.count_append) (List.count_eq_zero_of_not_mem apart) parts

variable {c : UInt8}

theorem countIn_commas (apart : c ≠ chr ',') (items : List (List Token)) :
    countIn c (commas items) = (items.map (countIn c)).sum := by
  have comma : countIn c [Token.special (chr ',')] = 0 := by
    have none_ : c ∉ [chr ','] := fun member => apart (List.mem_singleton.mp member)
    rw [countIn_cons, Token.text, List.count_eq_zero_of_not_mem none_]
    rfl
  exact sum_intercalate (countIn_append c) comma items

theorem countIn_names {reserved : Bytes → Prop} {names : List Bytes} {tokens : List Token}
    (each : List.Forall₂ (Names reserved) names tokens) :
    ((tokens.map fun token => [token]).map (countIn c)).sum = (names.map (List.count c)).sum := by
  induction each with
  | nil => rfl
  | @cons _ token _ _ named _ ih =>
    have one : countIn c [token] = token.text.count c := Nat.add_zero _
    rw [List.map_cons, List.map_cons, List.map_cons, List.sum_cons, List.sum_cons, ih, one,
      named.text_eq]

/-- Only texts have parentheses. -/
theorem IsLiteral.parens {tokens : List Token} {value : Value}
    (literal : IsLiteral tokens value) : countIn (chr '(') tokens = value.count (chr '(') := by
  cases literal with
  | string text => exact Nat.add_zero _
  | null | true_ | false_ | number _ | minus _ => rfl

theorem parens_literals {literals : List (List Token)} {values : List Value}
    (each : List.Forall₂ IsLiteral literals values) :
    (literals.map (countIn (chr '('))).sum = (values.map (Value.count (chr '('))).sum := by
  induction each with
  | nil => rfl
  | cons literal _ ih =>
    rw [List.map_cons, List.map_cons, List.sum_cons, List.sum_cons, ih, literal.parens]

end Counting

/-! ## Telling lists apart -/

/-- No punctuation. -/
def NoMarks (tokens : List Token) : Prop := ∀ token ∈ tokens, ∀ mark, token ≠ .special mark

theorem IsLiteral.noMarks {tokens : List Token} {value : Value}
    (literal : IsLiteral tokens value) : NoMarks tokens := by
  intro token member mark same
  subst same
  cases literal <;> simp at member

/-- A list whose items each stand for something that only plain tokens stand for. -/
theorem noMarks_each {α : Type} {means : List Token → α → Prop} {items : List (List Token)}
    {meant : List α} (plain : ∀ item value, means item value → NoMarks item)
    (each : List.Forall₂ means items meant) : ∀ item ∈ items, NoMarks item := by
  induction each with
  | nil =>
    intro item member
    cases member
  | cons first _ ih => exact List.forall_mem_cons.mpr ⟨plain _ _ first, ih⟩

theorem noMarks_literals {literals : List (List Token)} {values : List Value}
    (each : List.Forall₂ IsLiteral literals values) : ∀ item ∈ literals, NoMarks item :=
  noMarks_each (fun _ _ literal => literal.noMarks) each

theorem commas_cons_cons (item next : List Token) (items : List (List Token)) :
    commas (item :: next :: items) = item ++ .special (chr ',') :: commas (next :: items) := by
  rw [commas, List.intercalate_cons_cons, List.append_assoc]
  rfl

/-- Items without punctuation can be read off a list. -/
theorem commas_inj {items items' : List (List Token)} (plain : ∀ item ∈ items, NoMarks item)
    (plain' : ∀ item ∈ items', NoMarks item) (lengths : items.length = items'.length)
    (same : commas items = commas items') : items = items' := by
  have noComma {item : List Token} (noMarks : NoMarks item) : Token.special (chr ',') ∉ item :=
    fun member => noMarks _ member _ rfl
  induction items generalizing items' with
  | nil => exact (List.length_eq_zero_iff.mp lengths.symm).symm
  | cons item items ih =>
    cases items' with
    | nil => cases lengths
    | cons item' items' =>
      have lengths := Nat.succ.inj lengths
      rw [List.forall_mem_cons] at plain plain'
      cases items with
      | nil =>
        obtain rfl := List.length_eq_zero_iff.mp lengths.symm
        rw [commas, commas, List.intercalate_singleton, List.intercalate_singleton] at same
        rw [same]
      | cons next items =>
        cases items' with
        | nil => cases lengths
        | cons next' items' =>
          rw [commas_cons_cons, commas_cons_cons] at same
          obtain ⟨heads, tails⟩ :=
            append_cons_inj_left (noComma plain.1) (noComma plain'.1) same
          rw [heads, ih plain.2 plain'.2 lengths tails]

end KafkaReplication.Misc.Sql
