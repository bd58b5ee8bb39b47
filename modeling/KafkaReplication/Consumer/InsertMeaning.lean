import KafkaReplication.Consumer.LiteralTokens
import KafkaReplication.Consumer.WhereClause
import Mathlib.Algebra.Order.BigOperators.Group.List

/-!
# What an INSERT means

`insertRow` (`consumer_bo/database_writer.cpp:118-173`) puts the table's name into the statement as
it is and a column's between quotes as it is. Texts among the values are escaped. A boolean comes
out as `1` or `0`, because `<<` binds more tightly than `?:`, and a double with the six digits that
a stream shows. The statement means the row exactly where none of this matters, and it is built
where every text fits into the block that it is escaped into.
-/

namespace KafkaReplication
open Misc Misc.Sql

namespace DatabaseWriter

/-- What the row has in its members, in their order. -/
def rowValues (members : List (Bytes × Json)) : List Json :=
  members.map fun member => Json.valueOf members member.1

/-- The server reads the text as the insertion of this row into the table of this name. -/
def TextMeans (pg : Postgres) (jsoncpp : JsonCpp) (reserved : Bytes → Prop) (table : Bytes)
    (members : List (Bytes × Json)) : Prop :=
  ∃ tokens, Lexes (cStr (insertText pg jsoncpp table members)) tokens ∧
    IsInsert reserved tokens table (members.map Prod.fst)
      ((rowValues members).map (Json.sqlValue jsoncpp))

/-- The statement is built inside its blocks, and means the row. -/
def InsertMeans (pg : Postgres) (jsoncpp : JsonCpp) (reserved : Bytes → Prop) (table : Bytes)
    (members : List (Bytes × Json)) : Prop :=
  RowFits pg jsoncpp members ∧ TextMeans pg jsoncpp reserved table members

/-- A name that denotes its table without quotes. -/
def TableWord (reserved : Bytes → Prop) (table : Bytes) : Prop :=
  IsWord table ∧ ¬reserved table ∧ table.length < 64

/-! ## The parts of the statement -/

section Parts

variable (pg : Postgres) (jsoncpp : JsonCpp)

def columnsText (names : List Bytes) : Bytes := commaSeparated (names.map quoteColumn)

/-- The statement behind its columns. -/
def valuesText (values : List Json) : Bytes :=
  str ") VALUES (" ++
    (commaSeparated (values.map (literalText pg jsoncpp insertedBool)) ++ str ")")

def valuesTokens (literals : List (List Token)) : List Token :=
  [.special (chr ')'), .word (str "values"), .special (chr '(')] ++
    (commas literals ++ [.special (chr ')')])

theorem insertText_eq (table : Bytes) (members : List (Bytes × Json)) :
    insertText pg jsoncpp table members = str "INSERT INTO " ++ (table ++ (str " (" ++
      (columnsText (members.map Prod.fst) ++ valuesText pg jsoncpp (rowValues members)))) := by
  unfold insertText columnsText valuesText rowValues
  simp only [List.append_assoc, List.map_map]
  rfl

theorem readsAs_insertInto (rest : Bytes) :
    ReadsAs (str "INSERT INTO ") [.word (str "insert"), .word (str "into")] rest := by
  have insert_ : ReadsAs (str "INSERT") [.word (str "insert")] (str " INTO " ++ rest) :=
    .word rfl (List.all_eq_true.mp rfl) rfl rfl
  have into_ : ReadsAs (str "INTO") [.word (str "into")] (str " " ++ rest) :=
    .word rfl (List.all_eq_true.mp rfl) rfl rfl
  have spaced : ReadsAs (str " INTO ") [.word (str "into")] rest :=
    (ReadsAs.space.append into_).append .space
  exact insert_.append spaced

theorem readsAs_open (rest : Bytes) : ReadsAs (str " (") [.special (chr '(')] rest :=
  ReadsAs.space.append (.special rfl rest)

variable {pg}

theorem readsAs_valuesText (escapes : pg.Escapes) (values : List Json) :
    ReadsAs (valuesText pg jsoncpp values)
      (valuesTokens (values.map (insertedTokens jsoncpp))) [] := by
  have close : ReadsAs (str ")") [.special (chr ')')] [] := .special rfl []
  have items : ReadsAs (commaSeparated (values.map (literalText pg jsoncpp insertedBool)))
      (commas (values.map (insertedTokens jsoncpp))) (str ")" ++ []) :=
    ReadsAs.commas (fun value _ rest closes => readsAs_literalText escapes jsoncpp value closes)
      (.inr rfl)
  have key (rest : Bytes) : ReadsAs (str ") VALUES (")
      [.special (chr ')'), .word (str "values"), .special (chr '(')] rest := by
    have word : ReadsAs (str "VALUES") [.word (str "values")] (str " (" ++ rest) :=
      .word rfl (List.all_eq_true.mp rfl) rfl rfl
    exact (((ReadsAs.special rfl _).append .space).append word).append (readsAs_open rest)
  exact (key _).append (items.append close)

end Parts

/-! ## What is in the statement -/

section Contents

variable {pg : Postgres} (jsoncpp : JsonCpp)

theorem zero_notMem_literalText (value : Json) :
    0 ∉ literalText pg jsoncpp insertedBool value := by
  have textual (text : Bytes) : 0 ∉ textLiteral pg.escapedText text := by
    have mark : 0 ∉ str "'" := by decide
    simp only [textLiteral, List.mem_append, not_or]
    exact ⟨⟨mark, zero_notMem_cStr _⟩, mark⟩
  have numeric (value : Json) : 0 ∉ numberText value := by
    intro nul
    rcases numberText_chars value 0 nul with digit | mark
    · cases digit
    · exact absurd mark (by decide)
  cases value with
  | null => exact (by decide : 0 ∉ str "NULL")
  | string text => exact textual text
  | bool b =>
    cases b with
    | false => exact (by decide : 0 ∉ str "0")
    | true => exact (by decide : 0 ∉ str "1")
  | int _ | uint _ | real _ => exact numeric _
  | array _ | object _ => exact textual _

theorem zero_notMem_valuesText (values : List Json) : 0 ∉ valuesText pg jsoncpp values := by
  have literals : 0 ∉ commaSeparated (values.map (literalText pg jsoncpp insertedBool)) := by
    apply zero_notMem_commaSeparated
    intro value _
    exact zero_notMem_literalText jsoncpp value
  simp only [valuesText, List.mem_append, not_or]
  exact ⟨by decide, literals, by decide⟩

theorem zero_notMem_insertText {table : Bytes} {members : List (Bytes × Json)}
    (nulTable : 0 ∉ table) (nulNames : ∀ name ∈ members.map Prod.fst, 0 ∉ name) :
    0 ∉ insertText pg jsoncpp table members := by
  have columns : 0 ∉ columnsText (members.map Prod.fst) := by
    apply zero_notMem_commaSeparated
    intro name listed
    exact zero_notMem_quoteColumn (nulNames name listed)
  rw [insertText_eq]
  simp only [List.mem_append, not_or]
  exact ⟨by decide, nulTable, by decide, columns, zero_notMem_valuesText jsoncpp _⟩

/-- Escaping adds no parenthesis. -/
theorem parens_literalText_le (escapes : pg.Escapes) (value : Json) :
    (literalText pg jsoncpp insertedBool value).count (chr '(') ≤
      (value.sqlValue jsoncpp).count (chr '(') := by
  have textual (text : Bytes) :
      (textLiteral pg.escapedText text).count (chr '(') ≤ text.count (chr '(') := by
    have mark : (str "'").count (chr '(') = 0 := rfl
    have seen : (cStr text).count (chr '(') ≤ text.count (chr '(') :=
      (List.takeWhile_sublist _).count_le _
    rw [textLiteral, escapedText_eq escapes, List.count_append, List.count_append, mark,
      count_doubled_of_ne (by decide)]
    omega
  have numeric (value : Json) : (numberText value).count (chr '(') = 0 := by
    apply List.count_eq_zero_of_not_mem
    intro paren
    rcases numberText_chars value _ paren with digit | mark
    · cases digit
    · exact absurd mark (by decide)
  cases value with
  | null => exact Nat.le_of_eq rfl
  | string text => exact textual text
  | bool b => cases b <;> exact Nat.le_of_eq rfl
  | int _ | uint _ | real _ => exact (numeric _).le
  | array _ | object _ => exact textual _

/-- The statement behind the table's name has no more parentheses than a row of these names and
values has. -/
theorem parens_statement_le (escapes : pg.Escapes) (names : List Bytes) (values : List Json) :
    (str " (" ++ (columnsText names ++ valuesText pg jsoncpp values)).count (chr '(') ≤
      (names.map (List.count (chr '('))).sum +
        ((values.map (Json.sqlValue jsoncpp)).map (Value.count (chr '('))).sum + 2 := by
  have comma : chr '(' ∉ str ", " := by decide
  have columns : (columnsText names).count (chr '(') =
      (names.map (List.count (chr '('))).sum := by
    have one (name : Bytes) : (quoteColumn name).count (chr '(') = name.count (chr '(') := by
      have quote : (str "\"").count (chr '(') = 0 := rfl
      rw [quoteColumn, List.count_append, List.count_append, quote, Nat.zero_add, Nat.add_zero]
    rw [columnsText, commaSeparated, count_intercalate comma, List.map_map]
    exact congrArg List.sum (List.map_congr_left fun name _ => one name)
  have literals : (commaSeparated (values.map (literalText pg jsoncpp insertedBool))).count
      (chr '(') ≤ ((values.map (Json.sqlValue jsoncpp)).map (Value.count (chr '('))).sum := by
    rw [commaSeparated, count_intercalate comma, List.map_map, List.map_map]
    exact List.sum_le_sum fun value _ => parens_literalText_le jsoncpp escapes value
  have opens : (str " (").count (chr '(') = 1 := rfl
  have key : (str ") VALUES (").count (chr '(') = 1 := rfl
  have close : (str ")").count (chr '(') = 0 := rfl
  rw [valuesText, List.count_append, List.count_append, List.count_append, List.count_append,
    columns, opens, key, close]
  omega

end Contents

/-! ## Reading it -/

/-- Names that were put between quotes are read as themselves, one by one. -/
theorem lexes_columns_iff {reserved : Bytes → Prop} {names : List Bytes}
    {columnNames : List Token} (each : List.Forall₂ (Names reserved) names columnNames)
    (some_ : names ≠ []) {rest : Bytes} (closes : Closes rest) (later : List Token) :
    Lexes (columnsText names ++ rest) (commas (columnNames.map fun name => [name]) ++ later) ↔
      (columnNames = names.map .quoted ∧ ∀ name ∈ names, name ≠ [] ∧ chr '"' ∉ name) ∧
        Lexes rest later := by
  induction each with
  | nil => exact absurd rfl some_
  | @cons name token names columnNames named each ih =>
    cases each with
    | nil =>
      have text : columnsText [name] ++ rest = chr '"' :: (name ++ chr '"' :: rest) := by
        rw [columnsText, List.map_singleton, commaSeparated_singleton, quoteColumn_append]
      have tokens : commas ([token].map fun name => [name]) ++ later = token :: later := rfl
      rw [text, tokens, lexes_name_iff closes.noQuote named, List.forall_mem_singleton,
        List.map_singleton, List.singleton_inj]
      tauto
    | @cons next token' names columnNames named' each =>
      have text : columnsText (name :: next :: names) ++ rest = chr '"' :: (name ++ chr '"' ::
          (str ", " ++ (columnsText (next :: names) ++ rest))) := by
        rw [columnsText, List.map_cons, List.map_cons, commaSeparated_cons_cons,
          List.append_assoc, List.append_assoc, quoteColumn_append]
        rfl
      have tokens : commas ((token :: token' :: columnNames).map fun name => [name]) ++ later =
          token :: ([.special (chr ',')] ++
            (commas ((token' :: columnNames).map fun name => [name]) ++ later)) := by
        rw [List.map_cons, List.map_cons, commas_cons_cons]
        rfl
      have apart : (str ", " ++ (columnsText (next :: names) ++ rest)).head? ≠ some (chr '"') :=
        fun same => absurd (Option.some.inj same) (by decide)
      rw [text, tokens, lexes_name_iff apart named, (ReadsAs.comma _).cancel,
        ih (List.cons_ne_nil _ _), List.map_cons (l := next :: names), List.cons.injEq,
        List.forall_mem_cons (l := next :: names)]
      constructor
      · rintro ⟨rfl, some_, plain, ⟨others, each⟩, lexes⟩
        exact ⟨⟨⟨rfl, others⟩, ⟨some_, plain⟩, each⟩, lexes⟩
      · rintro ⟨⟨⟨rfl, others⟩, ⟨some_, plain⟩, each⟩, lexes⟩
        exact ⟨rfl, some_, plain, ⟨others, each⟩, lexes⟩

/-- The table's name, with what follows it in the statement. -/
theorem lexes_table {reserved : Bytes → Prop} {table : Bytes} {tableName : Token}
    (named : Names reserved table tableName) {rest : Bytes} {later : List Token}
    (balanced : (str " (" ++ rest).count (chr '(') ≤ countIn (chr '(') later)
    (lexes : Lexes (table ++ (str " (" ++ rest)) (tableName :: later)) :
    TableWord reserved table ∧ Lexes (str " (" ++ rest) later := by
  cases named with
  | word free short =>
    obtain ⟨word, lexes⟩ := lexes_word_self (show (str " (" ++ rest).head?.any isWordPart = false
      from rfl) lexes
    exact ⟨⟨word, free, short⟩, lexes⟩
  | quoted _ =>
    -- such a name would take a parenthesis of the statement with it
    exact absurd (lexes_quoted_self rfl lexes) (not_lt.mpr balanced)

theorem parens_insert {reserved : Bytes → Prop} {names : List Bytes} {columnNames : List Token}
    {literals : List (List Token)} {values : List Value}
    (columns : List.Forall₂ (Names reserved) names columnNames)
    (each : List.Forall₂ IsLiteral literals values) :
    countIn (chr '(') (.special (chr '(') :: (commas (columnNames.map fun name => [name]) ++
        valuesTokens literals)) =
      (names.map (List.count (chr '('))).sum +
        (values.map (Value.count (chr '('))).sum + 2 := by
  have apart : chr '(' ≠ chr ',' := by decide
  have opens : (Token.special (chr '(')).text.count (chr '(') = 1 := rfl
  have key : countIn (chr '(')
      [.special (chr ')'), .word (str "values"), .special (chr '(')] = 1 := rfl
  have close : countIn (chr '(') [.special (chr ')')] = 0 := rfl
  rw [valuesTokens, countIn_cons, countIn_append, countIn_append, countIn_append,
    countIn_commas apart, countIn_commas apart, countIn_names columns, parens_literals each, opens,
    key, close]
  omega

theorem noMarks_insertedTokens (jsoncpp : JsonCpp) (value : Json) :
    NoMarks (insertedTokens jsoncpp value) := by
  have number (shown : Rat) : NoMarks (numberTokens shown) :=
    ((isLiteral_numberTokens_iff shown shown).mpr rfl).noMarks
  cases value with
  | null => exact IsLiteral.null.noMarks
  | string text => exact (IsLiteral.string (cStr text)).noMarks
  | bool b => exact (IsLiteral.number _).noMarks
  | int _ | uint _ | real _ => exact number _
  | array _ | object _ => exact (IsLiteral.string _).noMarks

theorem noMarks_map_insertedTokens (jsoncpp : JsonCpp) (values : List Json) :
    ∀ item ∈ values.map (insertedTokens jsoncpp), NoMarks item := by
  intro item member
  obtain ⟨value, _, rfl⟩ := List.mem_map.mp member
  exact noMarks_insertedTokens jsoncpp value

theorem names_nulFree {reserved : Bytes → Prop} {names : List Bytes} {columnNames : List Token}
    (columns : List.Forall₂ (Names reserved) names columnNames)
    (nulFree : ∀ token ∈ commas (columnNames.map fun name => [name]), 0 ∉ token.text) :
    ∀ name ∈ names, 0 ∉ name := by
  have none_ : countIn 0 (commas (columnNames.map fun name => [name])) = 0 := by
    rw [countIn, List.sum_eq_zero_iff_forall_eq_nat]
    intro count member
    obtain ⟨token, listed, rfl⟩ := List.mem_map.mp member
    exact List.count_eq_zero_of_not_mem (nulFree token listed)
  rw [countIn_commas (by decide), countIn_names columns,
    List.sum_eq_zero_iff_forall_eq_nat] at none_
  intro name member
  exact List.count_eq_zero.mp (none_ _ (List.mem_map.mpr ⟨name, member, rfl⟩))

section Means

variable {pg : Postgres} (jsoncpp : JsonCpp) (reserved : Bytes → Prop) (table : Bytes)
  {members : List (Bytes × Json)}

/-- Everything in the statement that the server would have to take otherwise is ruled out. -/
theorem of_textMeans (escapes : pg.Escapes) (some_ : members ≠ [])
    (means : TextMeans pg jsoncpp reserved table members) :
    TableWord reserved table ∧ (∀ member ∈ members, PlainName member.1) ∧
      ∀ member ∈ members, WrittenExactly jsoncpp (Json.valueOf members member.1) := by
  obtain ⟨tokens, lexes, tableName, columnNames, literals, named, columns, each, rfl⟩ := means
  have someNames : members.map Prod.fst ≠ [] := by simpa using some_
  -- the server sees no NUL
  have nulFree := lexes.notMem rfl (zero_notMem_cStr _)
  have nulTable : 0 ∉ table := named.text_eq ▸ nulFree tableName (by simp)
  have nulNames : ∀ name ∈ members.map Prod.fst, 0 ∉ name := by
    apply names_nulFree columns
    intro token member
    apply nulFree token
    exact List.mem_append_right _ (List.mem_append_left _ member)
  rw [cStr_of_notMem (zero_notMem_insertText jsoncpp nulTable nulNames), insertText_eq] at lexes
  -- the table
  have afterInto : Lexes (table ++ (str " (" ++ (columnsText (members.map Prod.fst) ++
      valuesText pg jsoncpp (rowValues members)))) (tableName :: (.special (chr '(') ::
        (commas (columnNames.map fun name => [name]) ++ valuesTokens literals))) :=
    (readsAs_insertInto _).cancel.mp lexes
  have balanced := parens_statement_le jsoncpp escapes (members.map Prod.fst) (rowValues members)
  rw [← parens_insert columns each] at balanced
  obtain ⟨word, afterTable⟩ := lexes_table named balanced afterInto
  -- the columns
  have afterOpen := (readsAs_open _).cancel.mp afterTable
  obtain ⟨⟨quoted_, plain⟩, afterColumns⟩ :=
    (lexes_columns_iff columns someNames (.inr rfl) _).mp afterOpen
  rw [quoted_, List.forall₂_map_right_iff, List.forall₂_same] at columns
  -- the values
  have shown := ((readsAs_valuesText jsoncpp escapes _).whole _).mp afterColumns
  have lists := List.append_cancel_right (List.append_cancel_left shown)
  have lengths : literals.length = ((rowValues members).map (insertedTokens jsoncpp)).length := by
    rw [each.length_eq, List.length_map, List.length_map]
  have written := noMarks_map_insertedTokens jsoncpp (rowValues members)
  rw [commas_inj (noMarks_literals each) written lengths lists, List.forall₂_map_left_iff,
    List.forall₂_map_right_iff, List.forall₂_same] at each
  refine ⟨word, ?_, ?_⟩
  · intro member listed
    have name : member.1 ∈ members.map Prod.fst := List.mem_map.mpr ⟨member, listed, rfl⟩
    obtain ⟨someChars, noQuote⟩ := plain member.1 name
    exact ⟨someChars, (columns member.1 name).short, noQuote, nulNames member.1 name⟩
  · intro member listed
    have value : Json.valueOf members member.1 ∈ rowValues members :=
      List.mem_map.mpr ⟨member, listed, rfl⟩
    exact (isLiteral_insertedTokens_iff jsoncpp _).mp (each _ value)

theorem textMeans_of (escapes : pg.Escapes) (some_ : members ≠ [])
    (word : TableWord reserved table) (plain : ∀ member ∈ members, PlainName member.1)
    (exact_ : ∀ member ∈ members, WrittenExactly jsoncpp (Json.valueOf members member.1)) :
    TextMeans pg jsoncpp reserved table members := by
  have someNames : members.map Prod.fst ≠ [] := by simpa using some_
  have plainNames : ∀ name ∈ members.map Prod.fst, PlainName name := by
    intro name listed
    obtain ⟨member, inRow, rfl⟩ := List.mem_map.mp listed
    exact plain member inRow
  have columns : List.Forall₂ (Names reserved) (members.map Prod.fst)
      ((members.map Prod.fst).map .quoted) := by
    rw [List.forall₂_map_right_iff, List.forall₂_same]
    exact fun name listed => .quoted (plainNames name listed).2.1
  have each : List.Forall₂ IsLiteral ((rowValues members).map (insertedTokens jsoncpp))
      ((rowValues members).map (Json.sqlValue jsoncpp)) := by
    rw [List.forall₂_map_left_iff, List.forall₂_map_right_iff, List.forall₂_same]
    intro value listed
    obtain ⟨member, inRow, rfl⟩ := List.mem_map.mp listed
    exact (isLiteral_insertedTokens_iff jsoncpp _).mpr (exact_ member inRow)
  obtain ⟨isWord, free, short⟩ := word
  refine ⟨_, ?_, .word table, _, _, .word free short, columns, each, rfl⟩
  have nulTable : 0 ∉ table := fun nul => absurd (isWord.2.1 0 nul) (by decide)
  have nulNames : ∀ name ∈ members.map Prod.fst, 0 ∉ name := fun name listed =>
    (plainNames name listed).2.2.2
  rw [cStr_of_notMem (zero_notMem_insertText jsoncpp nulTable nulNames), insertText_eq]
  have afterColumns := ((readsAs_valuesText jsoncpp escapes (rowValues members)).whole _).mpr rfl
  have afterOpen := (lexes_columns_iff columns someNames (.inr rfl) _).mpr
    ⟨⟨rfl, fun name listed => ⟨(plainNames name listed).1, (plainNames name listed).2.2.1⟩⟩,
      afterColumns⟩
  have afterTable := (readsAs_open _).cancel.mpr afterOpen
  have afterInto :=
    (ReadsAs.word_self isWord rfl (marksLiteral_space table _)).cancel.mpr afterTable
  exact (readsAs_insertInto _).cancel.mpr afterInto

end Means

/-- The statement is the row's exactly if the table's name needs no quotes, the columns' names have
nothing in them that quotes do not take as it is, there is no boolean, every other value is
written exactly, and what is escaped for it fits. -/
theorem insertMeansRow_iff (pg : Postgres) (jsoncpp : JsonCpp) (reserved : Bytes → Prop)
    (table : Bytes) {data : Json} {members : List (Bytes × Json)} (escapes : pg.Escapes)
    (has : data.memberList = some members) (some_ : members ≠ []) :
    insertRow pg jsoncpp table data =
        (if RowFits pg jsoncpp members then execute pg (insertText pg jsoncpp table members)
        else liftE pg (.error (.undefined .pastTheEnd))) ∧
      (InsertMeans pg jsoncpp reserved table members ↔
        TableWord reserved table ∧ ∀ member ∈ members, PlainName member.1 ∧
          WrittenExactly jsoncpp (Json.valueOf members member.1) ∧
          LiteralFits pg jsoncpp (Json.valueOf members member.1)) := by
  refine ⟨insertRow_eq pg table has, ?_, ?_⟩
  · rintro ⟨fits, means⟩
    obtain ⟨word, plain, exact_⟩ := of_textMeans jsoncpp reserved table escapes some_ means
    exact ⟨word, fun member listed =>
      ⟨plain member listed, exact_ member listed, fits member listed⟩⟩
  · rintro ⟨word, each⟩
    have fits : RowFits pg jsoncpp members := fun member listed => (each member listed).2.2
    exact ⟨fits, textMeans_of jsoncpp reserved table escapes some_ word
      (fun member listed => (each member listed).1)
      (fun member listed => (each member listed).2.1)⟩

/-- A server that carries nothing out, with the escaping of libpq in front of it. -/
def escapingServer : Postgres := .ofStatement ⟨doubled quoteMark, 23⟩ [] id

theorem insertMeansRow_iff_note :
    InsertMeans escapingServer (JsonCpp.compactOf []) (fun _ => False) (str "notes")
      [(str "id", .int (-7)), (str "text", .string (str "it's \"new\""))] := by
  have has : (Json.object [(str "id", .int (-7)),
      (str "text", .string (str "it's \"new\""))]).memberList =
        some [(str "id", .int (-7)), (str "text", .string (str "it's \"new\""))] := rfl
  have word : TableWord (fun _ => False) (str "notes") :=
    ⟨by decide +kernel, not_false, by decide⟩
  have each : ∀ member ∈ [(str "id", Json.int (-7)),
      (str "text", Json.string (str "it's \"new\""))], PlainName member.1 ∧
        WrittenExactly (JsonCpp.compactOf []) (Json.valueOf [(str "id", Json.int (-7)),
          (str "text", Json.string (str "it's \"new\""))] member.1) ∧
        LiteralFits escapingServer (JsonCpp.compactOf []) (Json.valueOf [(str "id",
          Json.int (-7)), (str "text", Json.string (str "it's \"new\""))] member.1) := by
    rw [List.forall_mem_cons, List.forall_mem_singleton]
    exact ⟨⟨by decide, .inl rfl, trivial⟩, by decide, (by decide : 0 ∉ str "it's \"new\""),
      by decide⟩
  exact (insertMeansRow_iff escapingServer (JsonCpp.compactOf []) (fun _ => False) (str "notes")
    (fun _ _ => rfl) has (List.cons_ne_nil _ _)).2.mpr ⟨word, each⟩

/-- A boolean is inserted as a number. -/
theorem insertedBool_asNumber :
    insertRow escapingServer (JsonCpp.compactOf []) (str "users")
        (.object [(str "active", .bool true)]) =
      execute escapingServer (str "INSERT INTO users (\"active\") VALUES (1)") ∧
    ¬InsertMeans escapingServer (JsonCpp.compactOf []) (fun _ => False) (str "users")
      [(str "active", .bool true)] := by
  refine ⟨rfl, ?_⟩
  intro means
  obtain ⟨_, _, exact_⟩ :=
    of_textMeans _ _ _ (fun _ _ => rfl) (List.cons_ne_nil _ _) means.2
  exact exact_ _ List.mem_cons_self

end DatabaseWriter

end KafkaReplication
