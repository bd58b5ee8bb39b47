import KafkaReplication.Consumer.ColumnTypes
import KafkaReplication.Consumer.InsertMeaning
import KafkaReplication.Misc.SqlSideBySide

/-!
# CREATE TABLE and INSERT for the same row

`buildCreateTableSql` and `insertRow` (`consumer_bo/database_writer.cpp:98-173`) go through the
members of the same object. As long as no name ends its quotes early, the table has the columns
that the INSERT names; and each column takes its literal, but for a boolean, which is written as a
number.
-/

namespace KafkaReplication
open Misc Misc.Sql

namespace DatabaseWriter

/-! ## What both statements have behind the table's name -/

/-- The columns of `buildCreateTableSql`. -/
def definitionsText (members : List (Bytes × Json)) : Bytes :=
  str " (" ++ (commaSeparated (members.map fun member =>
    quoteColumn member.1 ++ str " " ++ getColumnType (Json.valueOf members member.1)) ++ str ")")

/-- The columns and the values of `insertRow`. -/
def rowText (pg : Postgres) (jsoncpp : JsonCpp) (members : List (Bytes × Json)) : Bytes :=
  str " (" ++ (columnsText (members.map Prod.fst) ++ valuesText pg jsoncpp (rowValues members))

/-- `(column type, ...)`. -/
def definitionListTokens (columns : List (Token × ColumnType)) : List Token :=
  .special (chr '(') :: (commas (columns.map definitionTokens) ++ [.special (chr ')')])

/-- `(column, ...) VALUES (literal, ...)`. -/
def rowTokens (names : List Token) (literals : List (List Token)) : List Token :=
  .special (chr '(') :: (commas (names.map fun name => [name]) ++ valuesTokens literals)

/-- The server reads a list of columns with their types in the one statement and the same columns in
the other, each with a literal that a column of its type takes. -/
def DeclaresInserted (pg : Postgres) (jsoncpp : JsonCpp) (reserved : Bytes → Prop)
    (input : ColumnType → Bytes → Prop) (members : List (Bytes × Json)) : Prop :=
  ∃ columns literals, (∀ column ∈ columns, IsIdentifier reserved column.1) ∧
    Lexes (cStr (definitionsText members)) (definitionListTokens columns) ∧
    Lexes (cStr (rowText pg jsoncpp members)) (rowTokens (columns.map Prod.fst) literals) ∧
    List.Forall₂ (fun literal column => Accepts input literal column.2) literals columns

/-- Quotes around it make it one name, for every quote in it is doubled. -/
def Enclosable (name : Bytes) : Prop :=
  ∃ text, text ≠ [] ∧ 0 ∉ text ∧ name = doubled (chr '"') text

/-! ## Column by column -/

section Columns

/-- A column of a CREATE TABLE. -/
def definitionText (column : Bytes × ColumnType) : Bytes :=
  quoteColumn column.1 ++ (str " " ++ column.2.name)

/-- The columns behind the first one. -/
def moreDefinitions (columns : List (Bytes × ColumnType)) : Bytes :=
  columns.flatMap (fun column => str ", " ++ definitionText column) ++ str ")"

/-- Their names, in front of the values. -/
def moreNames (columns : List (Bytes × ColumnType)) (values : Bytes) : Bytes :=
  columns.flatMap (fun column => str ", " ++ quoteColumn column.1) ++ values

variable (columns : List (Bytes × ColumnType)) (column : Bytes × ColumnType) (values : Bytes)

theorem definitionText_append (rest : Bytes) :
    definitionText column ++ rest = chr '"' :: (column.1 ++ chr '"' ::
      (str " " ++ (column.2.name ++ rest))) := by
  rw [definitionText, List.append_assoc, List.append_assoc, quoteColumn_append]

theorem moreDefinitions_cons :
    moreDefinitions (column :: columns) =
      str ", " ++ (definitionText column ++ moreDefinitions columns) := by
  rw [moreDefinitions, List.flatMap_cons, List.append_assoc, List.append_assoc]
  rfl

theorem moreNames_cons :
    moreNames (column :: columns) values =
      str ", " ++ (quoteColumn column.1 ++ moreNames columns values) := by
  rw [moreNames, List.flatMap_cons, List.append_assoc, List.append_assoc]
  rfl

theorem closes_moreDefinitions : Closes (moreDefinitions columns) := by
  cases columns with
  | nil => exact .inr rfl
  | cons column columns => exact .inl rfl

theorem zero_notMem_name (type : ColumnType) : 0 ∉ type.name := by
  cases type <;> decide

theorem commentPlain_name (type : ColumnType) : CommentPlain type.name := by
  cases type <;> decide +kernel

/-- What stands behind the name of a column. -/
theorem typeText_plain (type : ColumnType) {tail : Bytes} (nulFree : 0 ∉ tail)
    (plain : CommentPlain tail) :
    0 ∉ str " " ++ (type.name ++ tail) ∧ CommentPlain (str " " ++ (type.name ++ tail)) := by
  have space : 0 ∉ str " " := by decide
  have space' : CommentPlain (str " ") := by decide +kernel
  constructor
  · simp only [List.mem_append, not_or]
    exact ⟨space, zero_notMem_name type, nulFree⟩
  · exact space'.append ((commentPlain_name type).append plain)

/-- Behind a name, both statements have the other names in the same order. -/
theorem alongside_columns (type : ColumnType) :
    Alongside (cStr (str " " ++ (type.name ++ moreDefinitions columns)))
      (cStr (moreNames columns values)) := by
  have comma : CommentPlain (str ", \"") := by decide +kernel
  have commaNulFree : 0 ∉ str ", \"" := by decide
  induction columns generalizing type with
  | nil =>
    have close : CommentPlain (moreDefinitions []) := by decide +kernel
    obtain ⟨nulFree, plain⟩ := typeText_plain type (by decide : 0 ∉ moreDefinitions []) close
    rw [cStr_of_notMem nulFree]
    exact .last plain _
  | cons column columns ih =>
    obtain ⟨nulFree, plain⟩ := typeText_plain type commaNulFree comma
    have definitions : str " " ++ (type.name ++ moreDefinitions (column :: columns)) =
        (str " " ++ (type.name ++ str ", \"")) ++ (column.1 ++ chr '"' ::
          (str " " ++ (column.2.name ++ moreDefinitions columns))) := by
      rw [moreDefinitions_cons, definitionText_append, List.append_assoc, List.append_assoc]
      rfl
    have names : moreNames (column :: columns) values = str ", \"" ++ (column.1 ++ chr '"' ::
        moreNames columns values) := by
      rw [moreNames_cons, quoteColumn_append]
      rfl
    rw [definitions, names, cStr_append nulFree, cStr_append commaNulFree]
    by_cases nul : 0 ∈ column.1
    · rw [cStr_append_of_mem nul, cStr_append_of_mem nul]
      exact .cut plain comma _
    · rw [cStr_append nul, cStr_append nul, cStr_cons (by decide), cStr_cons (by decide)]
      exact .next plain comma column.1 (ih column.2)

/-- The tokens of the columns behind the first one. -/
def moreDefinitionTokens (columns : List (Token × ColumnType)) : List Token :=
  columns.flatMap (fun column => [.special (chr ',')] ++ definitionTokens column) ++
    [.special (chr ')')]

def moreNameTokens (columns : List (Token × ColumnType)) (later : List Token) : List Token :=
  columns.flatMap (fun column => [.special (chr ','), column.1]) ++ later

theorem moreDefinitionTokens_cons (column : Token × ColumnType)
    (columns : List (Token × ColumnType)) :
    moreDefinitionTokens (column :: columns) =
      [.special (chr ',')] ++ (definitionTokens column ++ moreDefinitionTokens columns) := by
  rw [moreDefinitionTokens, List.flatMap_cons, List.append_assoc, List.append_assoc]
  rfl

theorem closes_cStr {rest : Bytes} (closes : Closes rest) : Closes (cStr rest) := by
  rcases closes with comma | paren
  · obtain ⟨tail, rfl⟩ := List.head?_eq_some_iff.mp comma
    exact .inl (by rw [cStr_cons (by decide)]; rfl)
  · obtain ⟨tail, rfl⟩ := List.head?_eq_some_iff.mp paren
    exact .inr (by rw [cStr_cons (by decide)]; rfl)

theorem closes_moreNames {values : Bytes} (closes : Closes values)
    (columns : List (Bytes × ColumnType)) : Closes (moreNames columns values) := by
  cases columns with
  | nil => exact closes
  | cons column columns => exact .inl rfl

/-- A name behind which there is a word in one statement and a mark in the other is read whole. -/
theorem name_read {name definition names : Bytes} (along : Alongside (cStr definition) (cStr names))
    (spaced : (cStr definition).head? = some (chr ' ')) (closes : Closes (cStr names))
    {token : Token} {word : Bytes} {mark : UInt8} {later later' : List Token}
    (lexes : Lexes (cStr (chr '"' :: (name ++ chr '"' :: definition)))
      (token :: .word word :: later))
    (lexes' : Lexes (cStr (chr '"' :: (name ++ chr '"' :: names)))
      (token :: .special mark :: later')) :
    Enclosable name ∧ Lexes (cStr definition) (.word word :: later) ∧
      Lexes (cStr names) (.special mark :: later') := by
  have quote : chr '"' ≠ 0 := by decide
  rw [cStr_cons quote] at lexes lexes'
  by_cases nul : 0 ∈ name
  · rw [cStr_append_of_mem nul] at lexes lexes'
    have same := List.tail_eq_of_cons_eq (lexes.unique lexes')
    cases same
  · rw [cStr_append nul, cStr_cons quote] at lexes lexes'
    have apart : (cStr definition).head? ≠ (cStr names).head? := by
      rw [spaced]
      rcases closes with comma | paren
      · rw [comma]
        decide
      · rw [paren]
        decide
    have noQuote : (cStr definition).head? ≠ some (chr '"') := by
      rw [spaced]
      decide
    cases lexes with
    | next read more =>
      cases lexes' with
      | next read' more' =>
        rcases name_in_both apart noQuote read read' with
          ⟨text, some_, written, -, rfl, rfl⟩ | ⟨rest, rfl, rfl⟩
        · have nulFree : 0 ∉ text := fun nul' => nul (written ▸ mem_doubled.mpr nul')
          exact ⟨⟨text, some_, nulFree, written⟩, more, more'⟩
        · cases more with
          | next readWord _ =>
            cases more' with
            | next readMark _ => exact (along.no_word_and_mark readWord readMark).elim

section Reading

variable {columns : List (Bytes × ColumnType)} {column : Bytes × ColumnType} {values : Bytes}
  {read : Token × ColumnType} {reads : List (Token × ColumnType)} {later : List Token}

/-- One column of both statements. -/
theorem column_read (closes : Closes values)
    (definitions : Lexes (cStr (definitionText column ++ moreDefinitions columns))
      (definitionTokens read ++ moreDefinitionTokens reads))
    (names : Lexes (cStr (quoteColumn column.1 ++ moreNames columns values))
      (read.1 :: moreNameTokens reads (.special (chr ')') :: later))) :
    Enclosable column.1 ∧ read.2 = column.2 ∧
      Lexes (cStr (moreDefinitions columns)) (moreDefinitionTokens reads) ∧
        Lexes (cStr (moreNames columns values))
          (moreNameTokens reads (.special (chr ')') :: later)) := by
  obtain ⟨word, words, type⟩ := read.2.tokens_eq_word
  obtain ⟨mark, marks, behind⟩ : ∃ mark marks,
      moreNameTokens reads (.special (chr ')') :: later) = .special mark :: marks := by
    cases reads <;> exact ⟨_, _, rfl⟩
  have spaceNul : chr ' ' ≠ 0 := by decide
  have spaced : cStr (str " " ++ (column.2.name ++ moreDefinitions columns)) =
      chr ' ' :: (column.2.name ++ cStr (moreDefinitions columns)) := by
    rw [← cStr_append (zero_notMem_name column.2)]
    exact cStr_cons spaceNul _
  rw [definitionText_append, definitionTokens, type, List.cons_append,
    List.cons_append] at definitions
  rw [quoteColumn_append, behind] at names
  obtain ⟨enclosable, afterName, afterName'⟩ := name_read
    (alongside_columns columns values column.2) (by rw [spaced]; rfl)
    (closes_cStr (closes_moreNames closes columns)) definitions names
  rw [← List.cons_append, ← type, spaced, lexes_space] at afterName
  have typeRead := ReadsAs.columnType column.2 (closes_cStr (closes_moreDefinitions columns))
  obtain ⟨others, same, afterType⟩ := (typeRead _).mp afterName
  obtain ⟨types, rfl⟩ := ColumnType.tokens_append_inj same
  exact ⟨enclosable, types, afterType, behind ▸ afterName'⟩

/-- What the lexer reads from the columns of both statements: each name is one token, and each type
the one that was written. -/
theorem columns_read (closes : Closes values)
    (definitions : Lexes (cStr (definitionText column ++ moreDefinitions columns))
      (definitionTokens read ++ moreDefinitionTokens reads))
    (names : Lexes (cStr (quoteColumn column.1 ++ moreNames columns values))
      (read.1 :: moreNameTokens reads (.special (chr ')') :: later))) :
    (∀ other ∈ column :: columns, Enclosable other.1) ∧
      (read :: reads).map Prod.snd = (column :: columns).map Prod.snd ∧
        Lexes (cStr values) (.special (chr ')') :: later) := by
  have commaNul : 0 ∉ str ", " := by decide
  have apart : Token.special (chr ')') ≠ .special (chr ',') := by decide
  induction columns generalizing column read reads with
  | nil =>
    obtain ⟨enclosable, type, afterType, afterName⟩ := column_read closes definitions names
    have close : ReadsAs (cStr (moreDefinitions [])) [.special (chr ')')] [] :=
      ReadsAs.special rfl []
    cases reads with
    | nil =>
      refine ⟨List.forall_mem_singleton.mpr enclosable, ?_, afterName⟩
      rw [List.map_singleton, List.map_singleton, type]
    | cons other reads =>
      have same := (close.whole _).mp afterType
      exact absurd (List.head_eq_of_cons_eq same).symm apart
  | cons next columns ih =>
    obtain ⟨enclosable, type, afterType, afterName⟩ := column_read closes definitions names
    rw [moreDefinitions_cons, cStr_append commaNul] at afterType
    rw [moreNames_cons, cStr_append commaNul] at afterName
    cases reads with
    | nil =>
      obtain ⟨others, same, _⟩ := (ReadsAs.comma _ _).mp afterType
      exact absurd (List.head_eq_of_cons_eq same) apart
    | cons other reads =>
      rw [moreDefinitionTokens_cons] at afterType
      obtain ⟨each, types, afterNames⟩ := ih ((ReadsAs.comma _).cancel.mp afterType)
        ((ReadsAs.comma _).cancel.mp afterName)
      refine ⟨List.forall_mem_cons.mpr ⟨enclosable, each⟩, ?_, afterNames⟩
      rw [List.map_cons (l := other :: reads), List.map_cons (l := next :: columns), type, types]

end Reading

end Columns

/-! ## The statements of a row -/

/-- The columns that both statements have for a row. -/
def columnsOf (members : List (Bytes × Json)) : List (Bytes × ColumnType) :=
  members.map fun member => (member.1, columnType (Json.valueOf members member.1))

section Statements

variable {members : List (Bytes × Json)}

theorem definitionsText_eq (members : List (Bytes × Json)) :
    definitionsText members =
      str " (" ++ (commaSeparated ((columnsOf members).map definitionText) ++ str ")") := by
  rw [definitionsText, columnsOf, List.map_map]
  congr 3
  apply List.map_congr_left
  intro member _
  rw [getColumnType_eq, List.append_assoc]
  rfl

theorem rowText_eq (pg : Postgres) (jsoncpp : JsonCpp) (members : List (Bytes × Json)) :
    rowText pg jsoncpp members = str " (" ++ (commaSeparated ((columnsOf members).map
      fun column => quoteColumn column.1) ++ valuesText pg jsoncpp (rowValues members)) := by
  rw [rowText, columnsText, columnsOf, List.map_map, List.map_map]
  rfl

theorem definitions_cons (column : Bytes × ColumnType) (columns : List (Bytes × ColumnType)) :
    commaSeparated ((column :: columns).map definitionText) ++ str ")" =
      definitionText column ++ moreDefinitions columns := by
  rw [commaSeparated, intercalate_map_cons]
  rfl

theorem names_cons (column : Bytes × ColumnType) (columns : List (Bytes × ColumnType))
    (values : Bytes) :
    commaSeparated ((column :: columns).map fun column => quoteColumn column.1) ++ values =
      quoteColumn column.1 ++ moreNames columns values := by
  rw [commaSeparated, intercalate_map_cons]
  rfl

theorem definitionListTokens_cons (column : Token × ColumnType)
    (columns : List (Token × ColumnType)) :
    definitionListTokens (column :: columns) =
      .special (chr '(') :: (definitionTokens column ++ moreDefinitionTokens columns) := by
  rw [definitionListTokens, commas, intercalate_map_cons]
  rfl

theorem rowTokens_cons (column : Token × ColumnType) (columns : List (Token × ColumnType))
    (literals : List (List Token)) :
    rowTokens ((column :: columns).map Prod.fst) literals =
      .special (chr '(') :: (column.1 :: moreNameTokens columns (valuesTokens literals)) := by
  rw [rowTokens, List.map_map, commas, intercalate_map_cons]
  rfl

/-- What begins with a quote begins with a name. -/
theorem lexes_quote {s : Bytes} {token : Token} {later : List Token}
    (lexes : Lexes (chr '"' :: s) (token :: later)) : ∃ name, token = .quoted name := by
  cases lexes with
  | next read _ =>
    rw [nextToken_quoted] at read
    obtain ⟨⟨name, rest⟩, _, shown⟩ := Option.bind_eq_some_iff.mp read
    dsimp only at shown
    split at shown
    · cases shown
    · cases shown
      exact ⟨name, rfl⟩

/-- Behind the opening parenthesis. -/
theorem lexes_open {rest : Bytes} {later : List Token} :
    Lexes (cStr (str " (" ++ rest)) (.special (chr '(') :: later) ↔ Lexes (cStr rest) later := by
  have nulFree : 0 ∉ str " (" := by decide
  rw [cStr_append nulFree]
  exact (readsAs_open _).cancel

theorem noMarks_accepted {input : ColumnType → Bytes → Prop} {literals : List (List Token)}
    {columns : List (Token × ColumnType)}
    (each : List.Forall₂ (fun literal column => Accepts input literal column.2) literals columns) :
    ∀ literal ∈ literals, NoMarks literal := by
  apply noMarks_each _ each
  rintro literal column ⟨value, isLiteral, _⟩
  exact isLiteral.noMarks

theorem closes_valuesText (pg : Postgres) (jsoncpp : JsonCpp) (values : List Json) :
    Closes (valuesText pg jsoncpp values) := .inr rfl

section Means

variable {pg : Postgres} (jsoncpp : JsonCpp) (reserved : Bytes → Prop)
  (input : ColumnType → Bytes → Prop) {members : List (Bytes × Json)}

/-- What the lexer reads of both statements: the columns that were written, and the literals. -/
theorem of_declaresInserted (escapes : pg.Escapes)
    (declares : DeclaresInserted pg jsoncpp reserved input members) :
    ∀ member ∈ members, Enclosable member.1 ∧
      Accepts input (insertedTokens jsoncpp (Json.valueOf members member.1))
        (columnType (Json.valueOf members member.1)) := by
  obtain ⟨reads, literals, -, definitions, row, each⟩ := declares
  rw [definitionsText_eq] at definitions
  rw [rowText_eq] at row
  have quote : chr '"' ≠ 0 := by decide
  cases shape : columnsOf members with
  | nil =>
    obtain rfl := List.map_eq_nil_iff.mp shape
    exact List.forall_mem_nil _
  | cons column columns =>
    rw [shape, definitions_cons] at definitions
    rw [shape, names_cons] at row
    cases reads with
    | nil =>
      have afterOpen := lexes_open.mp definitions
      rw [definitionText_append, cStr_cons quote] at afterOpen
      obtain ⟨name, same⟩ := lexes_quote afterOpen
      cases same
    | cons read reads =>
      rw [definitionListTokens_cons] at definitions
      rw [rowTokens_cons] at row
      obtain ⟨enclosable, types, afterNames⟩ := columns_read
        (closes_valuesText pg jsoncpp _) (lexes_open.mp definitions) (lexes_open.mp row)
      rw [← shape] at enclosable types
      rw [cStr_of_notMem (zero_notMem_valuesText jsoncpp _)] at afterNames
      have shown : valuesTokens literals =
          valuesTokens ((rowValues members).map (insertedTokens jsoncpp)) :=
        ((readsAs_valuesText jsoncpp escapes (rowValues members)).whole _).mp afterNames
      have lists := List.append_cancel_right (List.append_cancel_left shown)
      have lengths : literals.length =
          ((rowValues members).map (insertedTokens jsoncpp)).length := by
        have columns_length := congrArg List.length types
        rw [List.length_map, List.length_map, columnsOf, List.length_map] at columns_length
        rw [each.length_eq, columns_length, List.length_map, rowValues, List.length_map]
      have written := noMarks_map_insertedTokens jsoncpp (rowValues members)
      obtain rfl := commas_inj (noMarks_accepted each) written lengths lists
      have accepted : List.Forall₂ (Accepts input)
          ((rowValues members).map (insertedTokens jsoncpp)) ((read :: reads).map Prod.snd) :=
        List.forall₂_map_right_iff.mpr each
      rw [types, columnsOf, rowValues, List.map_map, List.map_map, List.forall₂_map_left_iff,
        List.forall₂_map_right_iff, List.forall₂_same] at accepted
      intro member listed
      have column : (member.1, columnType (Json.valueOf members member.1)) ∈ columnsOf members :=
        List.mem_map.mpr ⟨member, listed, rfl⟩
      exact ⟨enclosable _ column, accepted member listed⟩

/-- The text that a name between quotes is read as. -/
def enclosed (name : Bytes) : Bytes :=
  ((readDelimited (chr '"') (name ++ [chr '"'])).map Prod.fst).getD []

theorem readsAs_enclosable {name rest : Bytes} (enclosable : Enclosable name)
    (ends : rest.head? ≠ some (chr '"')) :
    ReadsAs (quoteColumn name) [.quoted (enclosed name)] rest := by
  obtain ⟨text, some_, -, rfl⟩ := enclosable
  have nothing : ([] : Bytes).head? ≠ some (chr '"') := by simp
  have text_eq : enclosed (doubled (chr '"') text) = text := by
    rw [enclosed, readDelimited_doubled nothing]
    rfl
  have quotes : quoteColumn (doubled (chr '"') text) = delimited (chr '"') text := by
    rw [quoteColumn, List.append_assoc]
    rfl
  rw [text_eq, quotes]
  exact .quoted some_ ends

theorem zero_notMem_enclosable {name : Bytes} (enclosable : Enclosable name) : 0 ∉ name := by
  obtain ⟨text, -, nulFree, rfl⟩ := enclosable
  exact fun nul => nulFree (mem_doubled.mp nul)

/-- The tokens of the columns, where each name is one. -/
def readColumns (members : List (Bytes × Json)) : List (Token × ColumnType) :=
  (columnsOf members).map fun column => (.quoted (enclosed column.1), column.2)

theorem enclosable_columnsOf (enclosable : ∀ member ∈ members, Enclosable member.1) :
    ∀ column ∈ columnsOf members, Enclosable column.1 := by
  intro column listed
  obtain ⟨member, inRow, rfl⟩ := List.mem_map.mp listed
  exact enclosable member inRow

theorem lexes_definitionsText (enclosable : ∀ member ∈ members, Enclosable member.1) :
    Lexes (cStr (definitionsText members)) (definitionListTokens (readColumns members)) := by
  have enclosable := enclosable_columnsOf enclosable
  have each : ∀ column ∈ columnsOf members, ∀ rest, Closes rest → ReadsAs (definitionText column)
      (definitionTokens (.quoted (enclosed column.1), column.2)) rest := by
    intro column listed rest closes
    have name : ReadsAs (quoteColumn column.1) [.quoted (enclosed column.1)]
        (str " " ++ column.2.name ++ rest) :=
      readsAs_enclosable (enclosable column listed) fun same =>
        absurd (Option.some.inj same) (by decide)
    exact name.append (ReadsAs.space.append (.columnType column.2 closes))
  have nulFree : 0 ∉ definitionsText members := by
    have columns : 0 ∉ commaSeparated ((columnsOf members).map definitionText) := by
      apply zero_notMem_commaSeparated
      intro column listed
      simp only [definitionText, List.mem_append, not_or]
      exact ⟨zero_notMem_quoteColumn (zero_notMem_enclosable (enclosable column listed)),
        by decide, zero_notMem_name column.2⟩
    rw [definitionsText_eq]
    simp only [List.mem_append, not_or]
    exact ⟨by decide, columns, by decide⟩
  have close : ReadsAs (str ")") [.special (chr ')')] [] := .special rfl []
  have list := (ReadsAs.commas each (.inr rfl)).append close
  rw [cStr_of_notMem nulFree, definitionsText_eq, definitionListTokens, readColumns, List.map_map]
  exact (((readsAs_open _).append list).whole _).mpr rfl

theorem lexes_rowText (escapes : pg.Escapes)
    (enclosable : ∀ member ∈ members, Enclosable member.1) :
    Lexes (cStr (rowText pg jsoncpp members)) (rowTokens ((readColumns members).map Prod.fst)
      ((rowValues members).map (insertedTokens jsoncpp))) := by
  have enclosable := enclosable_columnsOf enclosable
  have each : ∀ column ∈ columnsOf members, ∀ rest, Closes rest → ReadsAs (quoteColumn column.1)
      [.quoted (enclosed column.1)] rest := by
    intro column listed rest closes
    exact readsAs_enclosable (enclosable column listed) closes.noQuote
  have nulFree : 0 ∉ rowText pg jsoncpp members := by
    have columns : 0 ∉ commaSeparated ((columnsOf members).map
        fun column => quoteColumn column.1) := by
      apply zero_notMem_commaSeparated
      intro column listed
      exact zero_notMem_quoteColumn (zero_notMem_enclosable (enclosable column listed))
    rw [rowText_eq]
    simp only [List.mem_append, not_or]
    exact ⟨by decide, columns, zero_notMem_valuesText jsoncpp _⟩
  have values := readsAs_valuesText jsoncpp escapes (rowValues members)
  have closes := closes_valuesText pg jsoncpp (rowValues members)
  have list := (ReadsAs.commas each (by rw [List.append_nil]; exact closes)).append values
  rw [cStr_of_notMem nulFree, rowText_eq, rowTokens, readColumns, List.map_map, List.map_map]
  exact (((readsAs_open _).append list).whole _).mpr rfl

theorem declaresInserted_of (escapes : pg.Escapes)
    (enclosable : ∀ member ∈ members, Enclosable member.1)
    (accepted : ∀ member ∈ members,
      Accepts input (insertedTokens jsoncpp (Json.valueOf members member.1))
        (columnType (Json.valueOf members member.1))) :
    DeclaresInserted pg jsoncpp reserved input members := by
  refine ⟨readColumns members, (rowValues members).map (insertedTokens jsoncpp), ?_,
    lexes_definitionsText enclosable, lexes_rowText jsoncpp escapes enclosable, ?_⟩
  · intro column listed
    obtain ⟨written, _, rfl⟩ := List.mem_map.mp listed
    exact .quoted _
  · rw [readColumns, columnsOf, rowValues, List.map_map, List.map_map, List.forall₂_map_left_iff,
      List.forall₂_map_right_iff, List.forall₂_same]
    exact accepted

end Means

theorem createTableText_definitions (table : Bytes) (members : List (Bytes × Json)) :
    createTableText table members =
      str "CREATE TABLE IF NOT EXISTS " ++ (table ++ definitionsText members) := by
  unfold createTableText definitionsText
  simp only [List.append_assoc]

end Statements

/-- The table has the columns of the INSERT, and they take what it has for them, exactly if every
name can stand between quotes and no member is a boolean. The INSERT is built where its texts fit
into their blocks. -/
theorem declaresInserted_iff (pg : Postgres) (jsoncpp : JsonCpp) (reserved : Bytes → Prop)
    (input : ColumnType → Bytes → Prop) (table : Bytes) {data : Json}
    {members : List (Bytes × Json)} (escapes : pg.Escapes)
    (has : data.memberList = some members)
    (holds : ∀ member ∈ members, (Json.valueOf members member.1).Holds) :
    buildCreateTableSql table data =
        .ok (str "CREATE TABLE IF NOT EXISTS " ++ (table ++ definitionsText members)) ∧
      insertRow pg jsoncpp table data =
        (if RowFits pg jsoncpp members then
          execute pg (str "INSERT INTO " ++ (table ++ rowText pg jsoncpp members))
        else liftE pg (.error (.undefined .pastTheEnd))) ∧
      (DeclaresInserted pg jsoncpp reserved input members ↔
        ∀ member ∈ members, Enclosable member.1 ∧
          (Json.valueOf members member.1).isBool = false) := by
  refine ⟨?_, ?_, ?_⟩
  · rw [buildCreateTableSql_eq table has, createTableText_definitions]
  · rw [insertRow_eq pg table has, insertText_eq]
    rfl
  · constructor
    · intro declares member listed
      obtain ⟨enclosable, accepted⟩ :=
        of_declaresInserted jsoncpp reserved input escapes declares member listed
      exact ⟨enclosable, (accepts_insertedTokens_iff input jsoncpp (holds member listed)).mp
        accepted⟩
    · intro each
      apply declaresInserted_of jsoncpp reserved input escapes
      · exact fun member listed => (each member listed).1
      · intro member listed
        exact (accepts_insertedTokens_iff input jsoncpp (holds member listed)).mpr
          (each member listed).2

/-- A row with integers on both sides of 32 bits, and a name with a quote that is doubled. -/
theorem declaresInserted_integers :
    DeclaresInserted escapingServer (JsonCpp.compactOf []) (fun _ => False) (fun _ _ => False)
      [(str "id", .int 7), (str "size\"\"", .int 3000000000), (str "text", .null)] := by
  have has : (Json.object [(str "id", .int 7), (str "size\"\"", .int 3000000000),
      (str "text", .null)]).memberList =
        some [(str "id", .int 7), (str "size\"\"", .int 3000000000), (str "text", .null)] := rfl
  have holds : ∀ member ∈ [(str "id", Json.int 7), (str "size\"\"", Json.int 3000000000),
      (str "text", Json.null)], (Json.valueOf [(str "id", .int 7),
        (str "size\"\"", .int 3000000000), (str "text", .null)] member.1).Holds := by
    rw [List.forall_mem_cons, List.forall_mem_cons, List.forall_mem_singleton]
    exact ⟨⟨by decide, by decide⟩, ⟨by decide, by decide⟩, trivial⟩
  have each : ∀ member ∈ [(str "id", Json.int 7), (str "size\"\"", Json.int 3000000000),
      (str "text", Json.null)], Enclosable member.1 ∧ (Json.valueOf [(str "id", .int 7),
        (str "size\"\"", .int 3000000000), (str "text", .null)] member.1).isBool = false := by
    rw [List.forall_mem_cons, List.forall_mem_cons, List.forall_mem_singleton]
    exact ⟨⟨⟨str "id", by decide, by decide, by decide⟩, rfl⟩,
      ⟨⟨str "size\"", by decide, by decide, by decide⟩, rfl⟩,
      ⟨str "text", by decide, by decide, by decide⟩, rfl⟩
  exact (declaresInserted_iff escapingServer (JsonCpp.compactOf []) (fun _ => False)
    (fun _ _ => False) (str "notes") (fun _ _ => rfl) has holds).2.2.mpr each

/-- The column of a boolean is not given one, whatever texts the columns take. -/
theorem booleanColumn_number :
    buildCreateTableSql (str "users") (.object [(str "active", .bool true)]) =
        .ok (str "CREATE TABLE IF NOT EXISTS users (\"active\" BOOLEAN)") ∧
      insertRow escapingServer (JsonCpp.compactOf []) (str "users")
          (.object [(str "active", .bool true)]) =
        execute escapingServer (str "INSERT INTO users (\"active\") VALUES (1)") ∧
      ¬DeclaresInserted escapingServer (JsonCpp.compactOf []) (fun _ => False) (fun _ _ => True)
        [(str "active", .bool true)] := by
  refine ⟨rfl, rfl, ?_⟩
  intro declares
  obtain ⟨_, accepted⟩ := of_declaresInserted _ _ _ (fun _ _ => rfl) declares _
    List.mem_cons_self
  have holds : (Json.valueOf [(str "active", Json.bool true)] (str "active")).Holds := trivial
  have noBool := (accepts_insertedTokens_iff _ _ holds).mp accepted
  cases noBool

end DatabaseWriter

end KafkaReplication
