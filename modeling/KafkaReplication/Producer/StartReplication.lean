import KafkaReplication.Connection
import KafkaReplication.Misc.Run
import KafkaReplication.Misc.SqlGrammar
import KafkaReplication.Misc.SqlSideBySide

/-!
# What replication starts with

`createReplicationSlot` and `createPublicationAllTables`
(`producer_azs/postgresql_replicator.cpp:66-119`), which `startReplicationAll` calls before it asks
for the slot and the publication. The slot is created under a literal and asked for by a word. The
publication is looked for under a literal, created under a word, and asked for in quotes. The
server folds words to lower case, and nothing else.
-/

namespace KafkaReplication
open Misc Misc.Sql

/-! ## The server -/

/-- What the code asks the answer of the server for. -/
structure SetupResult where
  /-- `PQresultStatus(res) == PGRES_TUPLES_OK`. -/
  tuplesOk : Bool
  commandOk : Bool
  ntuples : Nat
  errorMessage : Bytes

/-- The server of the source, behind `conn_`. -/
structure SourceServer where
  Catalog : Type
  slots : Catalog → Set Bytes
  publications : Catalog → Set Bytes
  /-- `PQexec`, which takes a C string. -/
  exec : Bytes → Catalog → SetupResult × Catalog

/-! ## `startReplicationAll` -/

section Queries

variable (conninfo : EnvConnInfo)

def slotQuery : Bytes :=
  str "SELECT * FROM pg_create_logical_replication_slot('" ++ conninfo.slotName ++ str "', '" ++
    conninfo.outputPlugin.val ++ str "')"

def checkQuery : Bytes :=
  str "SELECT 1 FROM  pg_publication WHERE pubname = '" ++ conninfo.publicationName ++ str "'"

def createQuery : Bytes :=
  str "CREATE PUBLICATION " ++ conninfo.publicationName ++ str " FOR ALL TABLES"

end Queries

namespace SourceServer

variable (server : SourceServer) (conninfo : EnvConnInfo)

/-- `PQexec(conn_, query.c_str())`. -/
def query (sql : Bytes) : StateM server.Catalog SetupResult := server.exec (cStr sql)

/-- `createReplicationSlot` (`postgresql_replicator.cpp:66-88`). -/
def createReplicationSlot : StateM server.Catalog Bool := do
  let res ← server.query (slotQuery conninfo)
  if res.tuplesOk then
    return true
  else
    return decide (str "already exists" <:+: res.errorMessage)

/-- `createPublicationAllTables` (`postgresql_replicator.cpp:92-119`). -/
def createPublicationAllTables : StateM server.Catalog Bool := do
  let resTest ← server.query (checkQuery conninfo)
  if 0 < resTest.ntuples then
    return true
  else
    let res ← server.query (createQuery conninfo)
    return res.commandOk

/-- What both return is not looked at. -/
def prepare : StateM server.Catalog Unit := do
  let _slot ← server.createReplicationSlot conninfo
  let _publication ← server.createPublicationAllTables conninfo

/-- `startReplicationAll` (`postgresql_replicator.cpp:123-165`) on the server's catalog. -/
def startReplicationAll (values : ConfigValues) (env : StartSurroundings) :
    EStateM Fault (Stats × server.Catalog) (Bool × Option Bytes) := fun (stats, catalog) =>
  if env.conn then
    let catalog := (server.prepare conninfo catalog).2
    match KafkaReplication.startReplicationAll conninfo.toConnInfo values env stats with
    | .ok result stats => .ok result (stats, catalog)
    | .error fault stats => .error fault (stats, catalog)
  else .ok (false, none) (stats, catalog)

/-- A start of the process, which keeps nothing but what is in the catalog. -/
structure Start where
  values : ConfigValues
  env : StartSurroundings

def afterStart (catalog : server.Catalog) (start : Start) : server.Catalog :=
  (finalState (server.startReplicationAll conninfo start.values start.env ({}, catalog))).2

end SourceServer

/-! ## What the command asks for -/

/-- The name behind `SLOT`. -/
def askedSlot (query : Bytes) : Bytes :=
  ((query.drop (str "START_REPLICATION SLOT ").length).takeWhile isWordPart).map foldCase

/-- The name in a list of names that has one name. -/
def singleName : Bytes → Option Bytes
  | [] => none
  | c :: text =>
      if c = chr '"' then
        (readDelimited c text).bind fun (name, rest) => if rest = [] then some name else none
      else if (c :: text).all isWordPart then some ((c :: text).map foldCase)
      else none

/-- The command up to the list of names. -/
def optionsFront (conninfo : ConnInfo) (stats : Stats) : Bytes :=
  slotCommand conninfo ++ (decimal stats.restartLsnHigh.toNat ++ str "/" ++
    decimal stats.restartLsnLow.toNat ++
      (str " (proto_version '" ++ conninfo.protoVersion ++ str "', publication_names '"))

/-- The publication of the literal behind `publication_names`. -/
def askedPublication (conninfo : ConnInfo) (stats : Stats) (query : Bytes) : Option Bytes :=
  (readDelimited quoteMark (query.drop (optionsFront conninfo stats).length)).bind fun (text, _) =>
    singleName text

/-! ## The statements -/

/-- `SELECT * FROM pg_create_logical_replication_slot('slot', 'plugin')`. -/
def slotCall (slot plugin : Bytes) : List Token :=
  [.word (str "select"), .operator (str "*"), .word (str "from"),
    .word (str "pg_create_logical_replication_slot"), .special (chr '('), .string slot,
    .special (chr ','), .string plugin, .special (chr ')')]

/-- `SELECT 1 FROM pg_publication WHERE pubname = 'name'`. -/
def publicationCheck (name : Bytes) : List Token :=
  [.word (str "select"), .number 1, .word (str "from"), .word (str "pg_publication"),
    .word (str "where"), .word (str "pubname"), .operator (str "="), .string name]

/-- `CREATE PUBLICATION name FOR ALL TABLES`. -/
def publicationCreate (name : Token) : List Token :=
  [.word (str "create"), .word (str "publication"), name, .word (str "for"), .word (str "all"),
    .word (str "tables")]

/-- The names that a slot can have. -/
def SlotName (name : Bytes) : Prop :=
  name ≠ [] ∧ name.length < 64 ∧
    ∀ c ∈ name, (inRange 'a' 'z' c || isDigit c || c = chr '_') = true

/-- What the server does for the three statements. Which words are reserved and which plugins are
installed are parameters. -/
structure SourceServer.Documents (server : SourceServer) (reserved installed : Bytes → Prop) :
    Prop where
  slot : ∀ text slot plugin catalog, Lexes text (slotCall slot plugin) →
    server.slots (server.exec text catalog).2 =
        server.slots catalog ∪ {name | name = slot ∧ SlotName slot ∧ installed plugin} ∧
      server.publications (server.exec text catalog).2 = server.publications catalog
  check : ∀ text name catalog, name.length < 64 → Lexes text (publicationCheck name) →
    (server.exec text catalog).2 = catalog ∧
      (0 < (server.exec text catalog).1.ntuples ↔ name ∈ server.publications catalog)
  create : ∀ text name token catalog, Names reserved name token →
    Lexes text (publicationCreate token) →
    server.slots (server.exec text catalog).2 = server.slots catalog ∧
      server.publications (server.exec text catalog).2 =
        server.publications catalog ∪ {name}
  reject : ∀ text name catalog, reserved name → Lexes text (publicationCreate (.word name)) →
    (server.exec text catalog).2 = catalog

/-! ## How they are read -/

/-- A name that can be written without quotes, if case does not matter. -/
structure IsIdentifier (name : Bytes) : Prop where
  start : name.head?.any isWordStart = true
  parts : ∀ c ∈ name, isWordPart c = true
  short : name.length < 64

section Reading

theorem readsAs_word (text : Bytes) (start : text.head?.any isWordStart = true)
    (parts : text.all isWordPart = true) {rest : Bytes} (ends : rest.head?.any isWordPart = false)
    (plain : marksLiteral (text.map foldCase) rest = false) :
    ReadsAs text [.word (text.map foldCase)] rest := by
  cases text with
  | nil => cases start
  | cons c text => exact ReadsAs.word start (List.all_eq_true.mp parts) ends plain

theorem readsAs_keyword (text : Bytes) (start : text.head?.any isWordStart = true)
    (parts : text.all isWordPart = true) (rest : Bytes) :
    ReadsAs (text ++ [chr ' ']) [.word (text.map foldCase)] rest :=
  (readsAs_word text start parts rfl (marksLiteral_space _ _)).append .space

theorem IsIdentifier.readsAs {name : Bytes} (identifier : IsIdentifier name) (rest : Bytes) :
    ReadsAs (name ++ [chr ' ']) [.word (name.map foldCase)] rest :=
  readsAs_keyword name identifier.start (List.all_eq_true.mpr identifier.parts) rest

theorem IsIdentifier.notMem {name : Bytes} (identifier : IsIdentifier name) {c : UInt8}
    (other : isWordPart c = false) : c ∉ name := by
  intro mem
  have part := identifier.parts c mem
  rw [other] at part
  cases part

/-- A text without apostrophes in apostrophes. -/
theorem readsAs_literal {text rest : Bytes} (plain : quoteMark ∉ text)
    (last : ((skip .blank rest).any fun after => after.head? = some quoteMark) = false) :
    ReadsAs (str "'" ++ text ++ str "'") [.string text] rest := by
  have reads : ReadsAs (delimited quoteMark text) [.string text] rest := .string last
  rw [delimited_of_notMem plain] at reads
  exact reads

theorem noLiteral {c : UInt8} (solid : isSolid c = true) (other : c ≠ quoteMark) (rest : Bytes) :
    ((skip .blank (c :: rest)).any fun after => after.head? = some quoteMark) = false := by
  rw [skip_solid solid]
  simp [other]

theorem lexes_createQuery {conninfo : EnvConnInfo}
    (identifier : IsIdentifier conninfo.publicationName) :
    Lexes (createQuery conninfo)
      (publicationCreate (.word (conninfo.publicationName.map foldCase))) := by
  have tables : ReadsAs (str "TABLES") [.word (str "tables")] [] :=
    readsAs_word (str "TABLES") rfl rfl rfl rfl
  have whole := (readsAs_keyword (str "CREATE") rfl rfl _).append <|
    (readsAs_keyword (str "PUBLICATION") rfl rfl _).append <| (identifier.readsAs _).append <|
      (readsAs_keyword (str "FOR") rfl rfl _).append <|
        (readsAs_keyword (str "ALL") rfl rfl _).append tables
  have text : createQuery conninfo = str "CREATE" ++ [chr ' '] ++ (str "PUBLICATION" ++ [chr ' '] ++
      (conninfo.publicationName ++ [chr ' '] ++ (str "FOR" ++ [chr ' '] ++
        (str "ALL" ++ [chr ' '] ++ str "TABLES")))) := by
    simp only [createQuery, List.append_assoc]
    rfl
  rw [text]
  exact (whole.whole _).mpr rfl

theorem lexes_checkQuery {conninfo : EnvConnInfo} (plain : quoteMark ∉ conninfo.publicationName) :
    Lexes (checkQuery conninfo) (publicationCheck conninfo.publicationName) := by
  have one (rest : Bytes) : ReadsAs (str "1") [.number 1] (chr ' ' :: rest) :=
    ReadsAs.decimal 1 rfl
  have name : ReadsAs (str "'" ++ conninfo.publicationName ++ str "'")
      [.string conninfo.publicationName] [] := readsAs_literal plain rfl
  have whole := (readsAs_keyword (str "SELECT") rfl rfl _).append <|
    (one _).append <| ReadsAs.space.append <| (readsAs_keyword (str "FROM") rfl rfl _).append <|
      ReadsAs.space.append <| (readsAs_keyword (str "pg_publication") rfl rfl _).append <|
        (readsAs_keyword (str "WHERE") rfl rfl _).append <|
          (readsAs_keyword (str "pubname") rfl rfl _).append <|
            (ReadsAs.equals rfl).append <| ReadsAs.space.append name
  have text : checkQuery conninfo = str "SELECT" ++ [chr ' '] ++ (str "1" ++ ([chr ' '] ++
      (str "FROM" ++ [chr ' '] ++ ([chr ' '] ++ (str "pg_publication" ++ [chr ' '] ++
        (str "WHERE" ++ [chr ' '] ++ (str "pubname" ++ [chr ' '] ++ ([chr '='] ++ ([chr ' '] ++
          (str "'" ++ conninfo.publicationName ++ str "'")))))))))) := by
    simp only [checkQuery, List.append_assoc]
    rfl
  rw [text]
  exact (whole.whole _).mpr rfl

theorem readsAs_star {rest : Bytes} (ends : rest.head?.any isOperator = false) :
    ReadsAs [chr '*'] [.operator [chr '*']] rest := by
  apply ReadsAs.of_next
  have read : readToken (chr '*' :: rest) = some (.operator [chr '*'], rest) := by
    rw [readToken, if_neg (by decide), if_neg (by decide), if_neg (by decide), if_neg (by decide),
      if_neg (by decide), operatorRun_single rfl ends, operatorOf_single]
    exact if_neg (List.cons_ne_nil _ _)
  exact (nextToken_solid rfl rest).trans read

theorem lexes_slotQuery {conninfo : EnvConnInfo} (plainSlot : quoteMark ∉ conninfo.slotName)
    (plainPlugin : quoteMark ∉ conninfo.outputPlugin.val) :
    Lexes (slotQuery conninfo) (slotCall conninfo.slotName conninfo.outputPlugin.val) := by
  have comma_ne : chr ',' ≠ quoteMark := by decide
  have closed_ne : chr ')' ≠ quoteMark := by decide
  have opened (rest : Bytes) : ReadsAs (str "(") [.special (chr '(')] rest := .special rfl rest
  have comma (rest : Bytes) : ReadsAs (str ",") [.special (chr ',')] rest := .special rfl rest
  have closed : ReadsAs (str ")") [.special (chr ')')] [] := .special rfl []
  have whole := (readsAs_keyword (str "SELECT") rfl rfl _).append <|
    (readsAs_star rfl).append <| ReadsAs.space.append <|
      (readsAs_keyword (str "FROM") rfl rfl _).append <|
        (readsAs_word (str "pg_create_logical_replication_slot") rfl rfl rfl rfl).append <|
        (opened _).append <|
          (readsAs_literal plainSlot (noLiteral rfl comma_ne _)).append <| (comma _).append <|
            ReadsAs.space.append <|
              (readsAs_literal plainPlugin (noLiteral rfl closed_ne _)).append closed
  have text : slotQuery conninfo = str "SELECT" ++ [chr ' '] ++ ([chr '*'] ++ ([chr ' '] ++
      (str "FROM" ++ [chr ' '] ++ (str "pg_create_logical_replication_slot" ++ (str "(" ++
        (str "'" ++ conninfo.slotName ++ str "'" ++ (str "," ++ ([chr ' '] ++
          (str "'" ++ conninfo.outputPlugin.val ++ str "'" ++ str ")"))))))))) := by
    simp only [slotQuery, List.append_assoc]
    rfl
  rw [text]
  exact (whole.whole _).mpr rfl

end Reading

/-! ## The catalog behind a start -/

namespace SourceServer

variable {server : SourceServer} {reserved installed : Bytes → Prop} {conninfo : EnvConnInfo}

theorem cStr_slotQuery (slot : 0 ∉ conninfo.slotName) :
    cStr (slotQuery conninfo) = slotQuery conninfo := by
  have texts : ∀ text ∈ [str "SELECT * FROM pg_create_logical_replication_slot('", str "', '",
      str "')"], (0 : UInt8) ∉ text := by decide +kernel
  simp only [List.forall_mem_cons] at texts
  obtain ⟨front, between, back, -⟩ := texts
  apply cStr_of_notMem
  simp only [slotQuery, List.mem_append, not_or]
  exact ⟨⟨⟨⟨front, slot⟩, between⟩, conninfo.outputPlugin.property⟩, back⟩

theorem cStr_publicationQueries (publication : 0 ∉ conninfo.publicationName) :
    cStr (checkQuery conninfo) = checkQuery conninfo ∧
      cStr (createQuery conninfo) = createQuery conninfo := by
  have texts : ∀ text ∈ [str "SELECT 1 FROM  pg_publication WHERE pubname = '", str "'",
      str "CREATE PUBLICATION ", str " FOR ALL TABLES"], (0 : UInt8) ∉ text := by decide +kernel
  simp only [List.forall_mem_cons] at texts
  obtain ⟨checkFront, checkBack, createFront, createBack, -⟩ := texts
  constructor
  · apply cStr_of_notMem
    simp only [checkQuery, List.mem_append, not_or]
    exact ⟨⟨checkFront, publication⟩, checkBack⟩
  · apply cStr_of_notMem
    simp only [createQuery, List.mem_append, not_or]
    exact ⟨⟨createFront, publication⟩, createBack⟩

/-- The values of the configuration that go into the statements as they are. -/
structure PlainNames (conninfo : EnvConnInfo) : Prop where
  slot : IsIdentifier conninfo.slotName
  publication : IsIdentifier conninfo.publicationName
  plugin : quoteMark ∉ conninfo.outputPlugin.val

theorem createReplicationSlot_catalog (documents : server.Documents reserved installed)
    (names : PlainNames conninfo) (catalog : server.Catalog) :
    let after := (server.createReplicationSlot conninfo catalog).2
    server.slots after = server.slots catalog ∪ {name | name = conninfo.slotName ∧
        SlotName conninfo.slotName ∧ installed conninfo.outputPlugin.val} ∧
      server.publications after = server.publications catalog := by
  intro after
  have same : after = (server.exec (slotQuery conninfo) catalog).2 := by
    rw [← cStr_slotQuery (names.slot.notMem rfl)]
    show (server.createReplicationSlot conninfo catalog).2 = _
    simp only [createReplicationSlot, query, bind, StateT.bind]
    split <;> rfl
  rw [same]
  exact documents.slot _ _ _ catalog (lexes_slotQuery (names.slot.notMem rfl) names.plugin)

theorem createPublicationAllTables_catalog (documents : server.Documents reserved installed)
    (names : PlainNames conninfo) (catalog : server.Catalog) :
    let after := (server.createPublicationAllTables conninfo catalog).2
    server.slots after = server.slots catalog ∧
      server.publications after = server.publications catalog ∪
        {name | name = conninfo.publicationName.map foldCase ∧ ¬reserved name ∧
          conninfo.publicationName ∉ server.publications catalog} := by
  intro after
  obtain ⟨check, create⟩ := cStr_publicationQueries (names.publication.notMem rfl)
  obtain ⟨unchanged, found⟩ := documents.check _ _ catalog names.publication.short
    (lexes_checkQuery (names.publication.notMem rfl))
  have called : after =
      let tested := server.exec (checkQuery conninfo) catalog
      if 0 < tested.1.ntuples then tested.2
      else (server.exec (createQuery conninfo) tested.2).2 := by
    rw [← check, ← create]
    show (server.createPublicationAllTables conninfo catalog).2 = _
    simp only [createPublicationAllTables, query, bind, StateT.bind]
    split <;> rfl
  rw [called]
  dsimp only
  rw [unchanged]
  by_cases there : conninfo.publicationName ∈ server.publications catalog
  · rw [if_pos (found.mpr there)]
    simp [there]
  · rw [if_neg (mt found.mp there)]
    have lexes := lexes_createQuery names.publication
    by_cases isReserved : reserved (conninfo.publicationName.map foldCase)
    · rw [documents.reject _ _ catalog isReserved lexes]
      refine ⟨rfl, Set.ext fun name => ?_⟩
      constructor
      · exact Or.inl
      · rintro (before | ⟨rfl, free, -⟩)
        · exact before
        · exact absurd isReserved free
    · have short : (conninfo.publicationName.map foldCase).length < 64 := by
        rw [List.length_map]
        exact names.publication.short
      obtain ⟨slots, publications⟩ :=
        documents.create _ _ _ catalog (.word isReserved short) lexes
      refine ⟨slots, ?_⟩
      rw [publications]
      ext name
      constructor
      · rintro (before | rfl)
        · exact .inl before
        · exact .inr ⟨rfl, isReserved, there⟩
      · rintro (before | ⟨rfl, -, -⟩)
        · exact .inl before
        · exact .inr rfl

/-- What a start adds to the catalog. -/
theorem prepare_catalog (documents : server.Documents reserved installed)
    (names : PlainNames conninfo) (catalog : server.Catalog) :
    let after := (server.prepare conninfo catalog).2
    server.slots after = server.slots catalog ∪ {name | name = conninfo.slotName ∧
        SlotName conninfo.slotName ∧ installed conninfo.outputPlugin.val} ∧
      server.publications after = server.publications catalog ∪
        {name | name = conninfo.publicationName.map foldCase ∧ ¬reserved name ∧
          conninfo.publicationName ∉ server.publications catalog} := by
  intro after
  obtain ⟨slots, publications⟩ := createReplicationSlot_catalog documents names catalog
  obtain ⟨slots', publications'⟩ := createPublicationAllTables_catalog documents names
    (server.createReplicationSlot conninfo catalog).2
  rw [slots] at slots'
  rw [publications] at publications'
  exact ⟨slots', publications'⟩

/-! ## Any number of starts -/

/-- What is in the catalog is what was there, and what a first start adds. -/
structure Prepared (server : SourceServer) (reserved installed : Bytes → Prop)
    (conninfo : EnvConnInfo) (first catalog : server.Catalog) : Prop where
  slots : server.slots catalog = server.slots first ∪ {name | name = conninfo.slotName ∧
    SlotName conninfo.slotName ∧ installed conninfo.outputPlugin.val}
  publications : server.publications catalog = server.publications first ∪
    {name | name = conninfo.publicationName.map foldCase ∧ ¬reserved name ∧
      conninfo.publicationName ∉ server.publications first}

/-- A further start adds nothing. -/
theorem Prepared.prepare (documents : server.Documents reserved installed)
    (names : PlainNames conninfo) {first catalog : server.Catalog}
    (prepared : Prepared server reserved installed conninfo first catalog) :
    Prepared server reserved installed conninfo first (server.prepare conninfo catalog).2 := by
  obtain ⟨slots, publications⟩ := prepare_catalog documents names catalog
  refine ⟨?_, ?_⟩
  · rw [slots, prepared.slots, Set.union_assoc, Set.union_self]
  · rw [publications, prepared.publications]
    ext name
    constructor
    · rintro (before | ⟨rfl, free, missing⟩)
      · exact before
      · exact .inr ⟨rfl, free, fun found => missing (.inl found)⟩
    · exact .inl

/-- The slot of the command is folded to lower case. -/
theorem askedSlot_startQuery (names : PlainNames conninfo) (stats : Stats) :
    askedSlot (startQuery conninfo.toConnInfo stats) = conninfo.slotName.map foldCase := by
  have text : startQuery conninfo.toConnInfo stats = str "START_REPLICATION SLOT " ++
      (conninfo.slotName ++ (chr ' ' :: (str "LOGICAL " ++ (decimal stats.restartLsnHigh.toNat ++
        str "/" ++ decimal stats.restartLsnLow.toNat ++ (str " (proto_version '" ++
          conninfo.protoVersion ++ str "', publication_names '\"" ++ conninfo.publicationName ++
            str "\"')"))))) := by
    simp only [startQuery, slotCommand, List.append_assoc]
    rfl
  rw [askedSlot, text, List.drop_left, takeWhile_run names.slot.parts rfl]

/-- The publication is not. -/
theorem askedPublication_startQuery (names : PlainNames conninfo) (stats : Stats) :
    askedPublication conninfo.toConnInfo stats (startQuery conninfo.toConnInfo stats) =
      some conninfo.publicationName := by
  have text : startQuery conninfo.toConnInfo stats = optionsFront conninfo.toConnInfo stats ++
      ((chr '"' :: (conninfo.publicationName ++ [chr '"'])) ++ quoteMark :: str ")") := by
    have opens : str "', publication_names '\"" = str "', publication_names '" ++ [chr '"'] := rfl
    have closes : str "\"')" = chr '"' :: quoteMark :: str ")" := rfl
    rw [startQuery, opens, closes]
    simp only [optionsFront, List.append_assoc, List.cons_append, List.nil_append]
  have noMark : quoteMark ∉ chr '"' :: (conninfo.publicationName ++ [chr '"']) := by
    have inName : quoteMark ∉ conninfo.publicationName := names.publication.notMem rfl
    simp [inName]
    decide
  have noQuote : chr '"' ∉ conninfo.publicationName := names.publication.notMem rfl
  have ends : (str ")").head? ≠ some quoteMark := by decide
  have literal := readDelimited_doubled ends (chr '"' :: (conninfo.publicationName ++ [chr '"']))
  rw [doubled_of_notMem noMark] at literal
  have noRest : ([] : Bytes).head? ≠ some (chr '"') := by simp
  have quoted := readDelimited_doubled noRest conninfo.publicationName
  rw [doubled_of_notMem noQuote] at quoted
  rw [askedPublication, text, List.drop_left, literal, Option.bind_some]
  simp only [singleName, if_true, quoted, Option.bind_some]

/-- The first catalog behind any starts: it has been prepared, or no connection was there yet. -/
def Reached (server : SourceServer) (reserved installed : Bytes → Prop) (conninfo : EnvConnInfo)
    (first catalog : server.Catalog) : Prop :=
  (server.slots catalog = server.slots first ∧
      server.publications catalog = server.publications first) ∨
    Prepared server reserved installed conninfo first catalog

theorem Reached.prepare (documents : server.Documents reserved installed)
    (names : PlainNames conninfo) {first catalog : server.Catalog}
    (reached : Reached server reserved installed conninfo first catalog) :
    Prepared server reserved installed conninfo first (server.prepare conninfo catalog).2 := by
  rcases reached with ⟨slots, publications⟩ | prepared
  · obtain ⟨slots', publications'⟩ := prepare_catalog documents names catalog
    rw [slots] at slots'
    rw [publications] at publications'
    exact ⟨slots', publications'⟩
  · exact prepared.prepare documents names

theorem afterStart_eq (catalog : server.Catalog) (start : Start) :
    server.afterStart conninfo catalog start =
      if start.env.conn then (server.prepare conninfo catalog).2 else catalog := by
  unfold afterStart startReplicationAll
  dsimp only
  split
  · cases KafkaReplication.startReplicationAll conninfo.toConnInfo start.values start.env {} with
    | ok result stats => rfl
    | error fault stats => rfl
  · rfl

theorem afterStarts_reached (documents : server.Documents reserved installed)
    (names : PlainNames conninfo) (first : server.Catalog) (starts : List Start) :
    Reached server reserved installed conninfo first
      (runFrom (server.afterStart conninfo) first starts) := by
  have kept (catalog : server.Catalog) (start : Start)
      (reached : Reached server reserved installed conninfo first catalog) :
      Reached server reserved installed conninfo first
        (server.afterStart conninfo catalog start) := by
    rw [afterStart_eq]
    split
    · exact .inr (reached.prepare documents names)
    · exact reached
  exact runFrom_invariant kept (.inl ⟨rfl, rfl⟩) starts

/-- A command is sent over a connection, with the position that has been loaded. -/
theorem startReplicationAll_command {values : ConfigValues} {env : StartSurroundings}
    {stats stats' : Stats} {catalog catalog' : server.Catalog} {copyBoth : Bool} {query : Bytes}
    (started : server.startReplicationAll conninfo values env (stats, catalog) =
      .ok (copyBoth, some query) (stats', catalog')) :
    catalog' = (server.prepare conninfo catalog).2 ∧
      query = startQuery conninfo.toConnInfo stats' := by
  unfold startReplicationAll at started
  dsimp only at started
  split at started
  · rename_i conn
    cases connectionOk : env.connectionOk with
    | false =>
      have closed : KafkaReplication.startReplicationAll conninfo.toConnInfo values env stats =
          .ok (false, none) stats := by
        rw [KafkaReplication.startReplicationAll, conn, connectionOk]
        rfl
      rw [closed] at started
      cases started
    | true =>
      rw [startReplicationAll_eq conninfo.toConnInfo values env stats conn connectionOk] at started
      cases loaded : loadRestart values stats with
      | ok _ stats'' =>
        rw [loaded] at started
        cases started
        exact ⟨rfl, rfl⟩
      | error fault stats'' =>
        rw [loaded] at started
        cases started
  · cases started

/-- The names of slots have no upper case. -/
theorem foldCase_slotName {name : Bytes} (slotName : SlotName name) :
    name.map foldCase = name := by
  obtain ⟨-, -, parts⟩ := slotName
  have same : ∀ c ∈ name, foldCase c = c := by
    intro c mem
    have part := parts c mem
    rw [foldCase, if_neg]
    intro upper
    have range : 65 ≤ c.toNat ∧ c.toNat ≤ 90 := by simpa [inRange] using upper
    rcases Bool.or_eq_true_iff.mp part with alnum | underscore
    · rcases Bool.or_eq_true_iff.mp alnum with lower | digit
      · have range' : 97 ≤ c.toNat ∧ c.toNat ≤ 122 := by simpa [inRange] using lower
        omega
      · have range' := isDigit_toNat digit
        omega
    · rw [of_decide_eq_true underscore, toNat_underscore] at range
      omega
  exact (List.map_congr_left same).trans (List.map_id' name)

/-- Whenever the command is sent, after any starts with any outcome: the slot that it asks for is
the folded name and is there exactly if it was there before or the name is that of a slot; the
publication that it asks for is there exactly if it was there before or its name is a word of its
own. Nothing else has been added to the catalog. -/
theorem started_asks (documents : server.Documents reserved installed)
    (names : PlainNames conninfo) (first : server.Catalog) (starts : List Start)
    (values : ConfigValues) (env : StartSurroundings) (stats : Stats) {stats' : Stats}
    {catalog : server.Catalog} {copyBoth : Bool} {query : Bytes}
    (started : server.startReplicationAll conninfo values env
        (stats, runFrom (server.afterStart conninfo) first starts) =
      .ok (copyBoth, some query) (stats', catalog)) :
    askedSlot query = conninfo.slotName.map foldCase ∧
      askedPublication conninfo.toConnInfo stats' query = some conninfo.publicationName ∧
      (askedSlot query ∈ server.slots catalog ↔ askedSlot query ∈ server.slots first ∨
        SlotName conninfo.slotName ∧ installed conninfo.outputPlugin.val) ∧
      (conninfo.publicationName ∈ server.publications catalog ↔
        conninfo.publicationName ∈ server.publications first ∨
          IsWord conninfo.publicationName ∧ ¬reserved conninfo.publicationName) ∧
      Prepared server reserved installed conninfo first catalog := by
  obtain ⟨rfl, rfl⟩ := startReplicationAll_command started
  have prepared := (afterStarts_reached documents names first starts).prepare documents names
  have slot := askedSlot_startQuery names stats'
  refine ⟨slot, askedPublication_startQuery names stats', ?_, ?_, prepared⟩
  · rw [slot, prepared.slots]
    constructor
    · rintro (before | ⟨-, slotName, isInstalled⟩)
      · exact .inl before
      · exact .inr ⟨slotName, isInstalled⟩
    · rintro (before | ⟨slotName, isInstalled⟩)
      · exact .inl before
      · exact .inr ⟨foldCase_slotName slotName, slotName, isInstalled⟩
  · rw [prepared.publications]
    constructor
    · rintro (before | ⟨folds, free, -⟩)
      · exact .inl before
      · exact .inr ⟨⟨names.publication.start, names.publication.parts, folds.symm⟩, free⟩
    · rintro (before | ⟨⟨-, -, folds⟩, free⟩)
      · exact .inl before
      · by_cases there : conninfo.publicationName ∈ server.publications first
        · exact .inl there
        · exact .inr ⟨folds.symm, free, there⟩

/-! ## A server -/

section Documented

variable (reserved installed : Bytes → Prop)

def createdSlots (text : Bytes) : Set Bytes :=
  {name | ∃ plugin, Lexes text (slotCall name plugin) ∧ SlotName name ∧ installed plugin}

def createdPublications (text : Bytes) : Set Bytes :=
  {name | ∃ token, Names reserved name token ∧ Lexes text (publicationCreate token)}

open Classical in
/-- The rows of the check. -/
noncomputable def foundPublications (text : Bytes) (publications : Set Bytes) : Nat :=
  if ∃ name ∈ publications, Lexes text (publicationCheck name) then 1 else 0

/-- A server that does what is documented and nothing else. -/
noncomputable def documented : SourceServer where
  Catalog := Set Bytes × Set Bytes
  slots := Prod.fst
  publications := Prod.snd
  exec text catalog := (⟨true, true, foundPublications text catalog.2, []⟩,
    (catalog.1 ∪ createdSlots installed text, catalog.2 ∪ createdPublications reserved text))

variable {reserved installed} {text : Bytes}

theorem createdSlots_slotCall {slot plugin : Bytes} (lexes : Lexes text (slotCall slot plugin)) :
    createdSlots installed text = {name | name = slot ∧ SlotName slot ∧ installed plugin} := by
  ext name
  constructor
  · rintro ⟨plugin', lexes', slotName, isInstalled⟩
    cases lexes.unique lexes'
    exact ⟨rfl, slotName, isInstalled⟩
  · rintro ⟨rfl, slotName, isInstalled⟩
    exact ⟨plugin, lexes, slotName, isInstalled⟩

theorem createdSlots_other {tokens : List Token} (lexes : Lexes text tokens)
    (other : ∀ slot plugin, tokens ≠ slotCall slot plugin) : createdSlots installed text = ∅ := by
  rw [Set.eq_empty_iff_forall_notMem]
  rintro name ⟨plugin, lexes', -⟩
  exact other name plugin (lexes.unique lexes')

theorem createdPublications_other {tokens : List Token} (lexes : Lexes text tokens)
    (other : ∀ name token, Names reserved name token → tokens ≠ publicationCreate token) :
    createdPublications reserved text = ∅ := by
  rw [Set.eq_empty_iff_forall_notMem]
  rintro name ⟨token, names, lexes'⟩
  exact other name token names (lexes.unique lexes')

theorem createdPublications_create {name : Bytes} {token : Token}
    (names : Names reserved name token) (lexes : Lexes text (publicationCreate token)) :
    createdPublications reserved text = {name} := by
  ext name'
  constructor
  · rintro ⟨token', names', lexes'⟩
    have same := lexes.unique lexes'
    simp only [publicationCreate, List.cons.injEq, true_and] at same
    rw [← names.text_eq, same.1, names'.text_eq]
    rfl
  · rintro rfl
    exact ⟨token, names, lexes⟩

theorem foundPublications_check {name : Bytes} (lexes : Lexes text (publicationCheck name))
    (publications : Set Bytes) : 0 < foundPublications text publications ↔ name ∈ publications := by
  have same : (∃ name' ∈ publications, Lexes text (publicationCheck name')) ↔
      name ∈ publications := by
    constructor
    · rintro ⟨name', mem, lexes'⟩
      have tokens := lexes.unique lexes'
      simp only [publicationCheck, List.cons.injEq, Token.string.injEq, and_true, true_and]
        at tokens
      rwa [tokens]
    · intro mem
      exact ⟨name, mem, lexes⟩
  rw [← same, foundPublications]
  split <;> simp_all

/-- A statement that creates nothing. -/
theorem documented_idle (noSlots : createdSlots installed text = ∅)
    (noPublications : createdPublications reserved text = ∅)
    (catalog : (documented reserved installed).Catalog) :
    ((documented reserved installed).exec text catalog).2 = catalog := by
  have all : ((documented reserved installed).exec text catalog).2 =
      (catalog.1 ∪ createdSlots installed text,
        catalog.2 ∪ createdPublications reserved text) := rfl
  rw [all, noSlots, noPublications, Set.union_empty, Set.union_empty]
  rfl

theorem documented_documents : (documented reserved installed).Documents reserved installed where
  slot text slot plugin catalog lexes := by
    have noPublications : createdPublications reserved text = ∅ := by
      apply createdPublications_other lexes
      intro name token _ same
      simpa [slotCall, publicationCreate] using congrArg List.length same
    exact ⟨congrArg (catalog.1 ∪ ·) (createdSlots_slotCall lexes),
      (congrArg (catalog.2 ∪ ·) noPublications).trans (Set.union_empty _)⟩
  check text name catalog _ lexes := by
    have noSlots : createdSlots installed text = ∅ := by
      apply createdSlots_other lexes
      intro slot plugin same
      simpa [slotCall, publicationCheck] using congrArg List.length same
    have noPublications : createdPublications reserved text = ∅ := by
      apply createdPublications_other lexes
      intro name token _ same
      simpa [publicationCheck, publicationCreate] using congrArg List.length same
    exact ⟨documented_idle noSlots noPublications catalog, foundPublications_check lexes catalog.2⟩
  create text name token catalog names lexes := by
    have noSlots : createdSlots installed text = ∅ := by
      apply createdSlots_other lexes
      intro slot plugin same
      simpa [slotCall, publicationCreate] using congrArg List.length same
    exact ⟨(congrArg (catalog.1 ∪ ·) noSlots).trans (Set.union_empty _),
      congrArg (catalog.2 ∪ ·) (createdPublications_create names lexes)⟩
  reject text name catalog isReserved lexes := by
    have noSlots : createdSlots installed text = ∅ := by
      apply createdSlots_other lexes
      intro slot plugin same
      simpa [slotCall, publicationCreate] using congrArg List.length same
    have noPublications : createdPublications reserved text = ∅ := by
      apply createdPublications_other lexes
      intro name' token names same
      simp only [publicationCreate, List.cons.injEq, true_and] at same
      rw [← same.1] at names
      cases names with
      | word free _ => exact free isReserved
    exact documented_idle noSlots noPublications catalog

end Documented

/-- A publication's name with upper case. -/
def salesConnInfo : EnvConnInfo :=
  { testConnInfo with slotName := str "sales_slot", publicationName := str "Sales" }

theorem salesConnInfo_names : PlainNames salesConnInfo where
  slot := ⟨rfl, List.all_eq_true.mp rfl, by decide⟩
  publication := ⟨rfl, List.all_eq_true.mp rfl, by decide⟩
  plugin := by decide

/-- In the third start the publication that the command asks for is still not there. -/
theorem started_asks_sales :
    let starts := [⟨fun _ => none, {}⟩, ⟨fun _ => none, { connectionOk := false }⟩]
    let server := documented (fun _ => False) (fun _ => True)
    let before := runFrom (server.afterStart salesConnInfo) (∅, ∅) starts
    let catalog := (server.prepare salesConnInfo before).2
    askedPublication salesConnInfo.toConnInfo {} (startQuery salesConnInfo.toConnInfo {}) =
        some (str "Sales") ∧
      str "Sales" ∉ server.publications catalog ∧ str "sales_slot" ∈ server.slots catalog := by
  intro starts server before catalog
  have started : server.startReplicationAll salesConnInfo (fun _ => none) {} ({}, before) =
      .ok (true, some (startQuery salesConnInfo.toConnInfo {})) ({}, catalog) := rfl
  obtain ⟨slot, publication, slotThere, publicationThere, -⟩ :=
    started_asks documented_documents salesConnInfo_names (∅, ∅) starts (fun _ => none) {} {}
      started
  refine ⟨publication, ?_, ?_⟩
  · intro there
    rcases publicationThere.mp there with before | ⟨isWord, -⟩
    · exact before
    · exact absurd isWord (by decide +kernel)
  · have slotName : SlotName (str "sales_slot") :=
      ⟨by decide, by decide, List.all_eq_true.mp rfl⟩
    have folded : (str "sales_slot").map foldCase = str "sales_slot" := foldCase_slotName slotName
    have isThere := slotThere.mpr (.inr ⟨slotName, trivial⟩)
    rw [slot] at isThere
    rwa [← folded]

end SourceServer

end KafkaReplication
