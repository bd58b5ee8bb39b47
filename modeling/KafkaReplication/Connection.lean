import KafkaReplication.Misc.Conninfo
import KafkaReplication.Misc.Numerals
import KafkaReplication.Consumer.DatabaseWriter
import KafkaReplication.Producer.RestartLsn

/-!
# The way to the databases

`ConnInfo` (`shared_structures.h:103-154`) takes its values from the environment, and
`concateToString` writes five of them one after the other for libpq, with no apostrophes around any.
`connect` of both programs and `startReplicationAll` (`producer_azs/postgresql_replicator.cpp:50-64,
123-142`, `consumer_bo/database_writer.cpp:24-37`) give that text to `PQconnectdb`.
-/

namespace KafkaReplication
open Misc Misc.Numerals

/-- A value of the environment, which ends at its NUL. -/
abbrev EnvText := { text : Bytes // 0 ∉ text }

/-- `std::stoi(text)`. -/
def stoi (text : Bytes) : Except Fault Int32 :=
  let shown := Sql.readSign (text.dropWhile Sql.isSpace)
  let digits := shown.2.takeWhile Sql.isDigit
  let value : Int := if shown.1 then -(Sql.digitsValue digits : Int) else Sql.digitsValue digits
  if digits = [] ∨ value < -2 ^ 31 ∨ 2 ^ 31 ≤ value then .error (.exception "stoi")
  else .ok (.ofInt value)

/-- `ConnInfo` with the rest of the values that its constructor reads. -/
structure EnvConnInfo extends ConnInfo where
  host : EnvText
  port : Int32
  dbName : EnvText
  dbUser : EnvText
  dbPassword : EnvText
  outputPlugin : EnvText
  brokersNames : EnvText
  topic : EnvText
  groupId : EnvText

namespace EnvConnInfo

/-- `getEnvLocal` (`shared_structures.h:131-144`) makes a string of what `getenv` returns before it
asks whether that is null. -/
def getEnvLocal (getenv : Bytes → Option EnvText) (env : Bytes) : Except Fault EnvText :=
  match getenv env with
  | some text => .ok text
  | none => .error (.undefined .nullPointer)

/-- `ConnInfo::ConnInfo` (`shared_structures.h:115-129`). -/
def read (getenv : Bytes → Option EnvText) : Except Fault EnvConnInfo := do
  let host ← getEnvLocal getenv (str "HOSTNAME")
  let port ← getEnvLocal getenv (str "MCC_DB_PORT")
  let port ← stoi port.val
  let dbName ← getEnvLocal getenv (str "DBNAME_REPLICA")
  let dbUser ← getEnvLocal getenv (str "MCC_DB_USER")
  let dbPassword ← getEnvLocal getenv (str "MCC_DB_PASSWORD")
  let slotName ← getEnvLocal getenv (str "SLOT_NAME")
  let publicationName ← getEnvLocal getenv (str "PUBLICATION_NAME")
  let outputPlugin ← getEnvLocal getenv (str "OUTPUT_PLUGIN")
  let protoVersion ← getEnvLocal getenv (str "PROTO_VERSION")
  let brokersNames ← getEnvLocal getenv (str "BROKERS")
  let topic ← getEnvLocal getenv (str "TOPIC")
  let groupId ← getEnvLocal getenv (str "GROUP_ID_KAFKA")
  return {
    slotName := slotName.val, publicationName := publicationName.val
    protoVersion := protoVersion.val
    host, port, dbName, dbUser, dbPassword, outputPlugin, brokersNames, topic, groupId }

variable (conninfo : EnvConnInfo)

/-- `concateToString` (`shared_structures.h:146-154`). -/
def concateToString : Bytes :=
  str "host=" ++ conninfo.host.val ++ str " " ++
    (str "port=" ++ decimal conninfo.port.toInt ++ str " ") ++
    (str "dbname=" ++ conninfo.dbName.val ++ str " ") ++
    (str "user=" ++ conninfo.dbUser.val ++ str " ") ++
    (str "password=" ++ conninfo.dbPassword.val)

/-- `repl_conninfo` (`postgresql_replicator.cpp:134`). -/
def replConninfo : Bytes := conninfo.concateToString ++ str " replication=database"

/-- What is meant by it. -/
def settings : List (Bytes × Bytes) :=
  [(str "host", conninfo.host.val), (str "port", decimal conninfo.port.toInt),
    (str "dbname", conninfo.dbName.val), (str "user", conninfo.dbUser.val),
    (str "password", conninfo.dbPassword.val)]

def replSettings : List (Bytes × Bytes) :=
  conninfo.settings ++ [(str "replication", str "database")]

/-- The values that libpq reads as they are. -/
structure ReadAsIs : Prop where
  host : Conninfo.Bare conninfo.host.val ∧ conninfo.host.val ≠ []
  dbName : Conninfo.Bare conninfo.dbName.val ∧ conninfo.dbName.val ≠ []
  dbUser : Conninfo.Bare conninfo.dbUser.val ∧ conninfo.dbUser.val ≠ []
  dbPassword : Conninfo.Bare conninfo.dbPassword.val

theorem concateToString_eq : conninfo.concateToString = Conninfo.write conninfo.settings := by
  simp only [concateToString, settings, Conninfo.write, List.append_assoc]
  rfl

theorem replConninfo_eq : conninfo.replConninfo = Conninfo.write conninfo.replSettings := by
  simp only [replConninfo, concateToString, replSettings, settings, Conninfo.write,
    List.cons_append, List.nil_append, List.append_assoc]
  rfl

theorem settings_keywords :
    ∀ setting ∈ conninfo.replSettings, Conninfo.Keyword setting.1 := by
  have keyword {name : Bytes} (all : name.all Conninfo.isName = true) : Conninfo.Keyword name :=
    List.all_eq_true.mp all
  intro setting mem
  simp only [replSettings, settings, List.cons_append, List.nil_append, List.mem_cons,
    List.not_mem_nil, or_false] at mem
  rcases mem with rfl | rfl | rfl | rfl | rfl | rfl <;> exact keyword rfl

theorem numberChar_solid {c : UInt8} (isChar : Sql.isDigit c = true ∨ c ∈ str "+-.e") :
    Sql.isSpace c = false ∧ c ≠ Conninfo.backslash ∧ c ≠ Sql.quoteMark ∧ c ≠ 0 := by
  rcases isChar with digit | mark
  · have hex : isHexDigit c = true := by rw [isHexDigit, digit, Bool.true_or, Bool.true_or]
    have range := Sql.isDigit_toNat digit
    refine ⟨(isHexDigit_solid hex).1, ?_, ?_, ?_⟩
    all_goals
      rintro rfl
      exact absurd range (by decide)
  · have marks : str "+-.e" = [43, 45, 46, 101] := rfl
    simp only [marks, List.mem_cons, List.not_mem_nil, or_false] at mark
    rcases mark with rfl | rfl | rfl | rfl <;> decide

theorem bare_decimal (n : Int) : Conninfo.Bare (decimal n) where
  plain c mem :=
    have solid := numberChar_solid (Sql.numberChars_decimal n c mem)
    ⟨solid.1, solid.2.1⟩
  unquoted first :=
    have solid := numberChar_solid (Sql.numberChars_decimal n _ (List.mem_of_head? first))
    solid.2.2.1 rfl

theorem decimal_ne_nil (n : Int) : decimal n ≠ [] := by
  rcases lt_or_ge n 0 with negative | nonneg
  · rw [Sql.decimal_of_neg negative]
    exact List.cons_ne_nil _ _
  · obtain ⟨m, rfl⟩ := Int.eq_ofNat_of_zero_le nonneg
    rw [Sql.decimal_natCast]
    exact Sql.digitsOf_ne_nil m

/-- The port never hurts. -/
theorem writable_settings : Conninfo.Writable conninfo.settings ↔ conninfo.ReadAsIs := by
  have port := bare_decimal conninfo.port.toInt
  have portFilled := decimal_ne_nil conninfo.port.toInt
  constructor
  · rintro ⟨bare, filled⟩
    simp only [settings, List.forall_mem_cons, List.dropLast_cons_cons, List.dropLast_singleton]
      at bare filled
    exact ⟨⟨bare.1, filled.1⟩, ⟨bare.2.2.1, filled.2.2.1⟩, ⟨bare.2.2.2.1, filled.2.2.2.1⟩,
      bare.2.2.2.2.1⟩
  · rintro ⟨host, dbName, dbUser, dbPassword⟩
    refine ⟨?_, ?_⟩
    · simp only [settings, List.forall_mem_cons]
      exact ⟨host.1, port, dbName.1, dbUser.1, dbPassword, by simp⟩
    · simp only [settings, List.forall_mem_cons, List.dropLast_cons_cons, List.dropLast_singleton]
      exact ⟨host.2, portFilled, dbName.2, dbUser.2, by simp⟩

theorem writable_replSettings :
    Conninfo.Writable conninfo.replSettings ↔
      conninfo.ReadAsIs ∧ conninfo.dbPassword.val ≠ [] := by
  have database : Conninfo.Bare (str "database") :=
    ⟨fun c mem => by
      have all : (str "database").all (fun c => !Sql.isSpace c && c ≠ Conninfo.backslash) := rfl
      simpa using List.all_eq_true.mp all c mem, by decide⟩
  have front : conninfo.replSettings.dropLast = conninfo.settings := List.dropLast_concat
  rw [← conninfo.writable_settings]
  constructor
  · rintro ⟨bare, filled⟩
    rw [front] at filled
    refine ⟨⟨fun setting mem => bare setting (List.mem_append_left _ mem), ?_⟩, ?_⟩
    · intro setting mem
      exact filled setting (List.mem_of_mem_dropLast mem)
    · exact filled (str "password", conninfo.dbPassword.val) (by simp [settings])
  · rintro ⟨⟨bare, filled⟩, password⟩
    refine ⟨List.forall_mem_append.mpr ⟨bare, List.forall_mem_singleton.mpr database⟩, ?_⟩
    rw [front]
    have last : conninfo.settings =
        conninfo.settings.dropLast ++ [(str "password", conninfo.dbPassword.val)] := rfl
    rw [last]
    exact List.forall_mem_append.mpr ⟨filled, List.forall_mem_singleton.mpr password⟩

/-- What `PQconnectdb` is given has no NUL in it. -/
theorem zero_notMem_replConninfo : 0 ∉ conninfo.replConninfo := by
  have port : 0 ∉ decimal conninfo.port.toInt := by
    intro mem
    exact (numberChar_solid (Sql.numberChars_decimal _ _ mem)).2.2.2 rfl
  simp only [replConninfo, concateToString, List.mem_append, not_or]
  have names : ∀ text ∈ [str "host=", str " ", str "port=", str "dbname=", str "user=",
      str "password=", str " replication=database"], (0 : UInt8) ∉ text := by decide +kernel
  simp only [List.forall_mem_cons] at names
  obtain ⟨host, blank, portName, dbName, user, password, replication, -⟩ := names
  exact ⟨⟨⟨⟨⟨⟨⟨host, conninfo.host.property⟩, blank⟩, ⟨portName, port⟩, blank⟩,
    ⟨dbName, conninfo.dbName.property⟩, blank⟩, ⟨user, conninfo.dbUser.property⟩, blank⟩,
    password, conninfo.dbPassword.property⟩, replication⟩

theorem getEnvLocal_eq_ok {getenv : Bytes → Option EnvText} {env : Bytes} {text : EnvText} :
    getEnvLocal getenv env = .ok text ↔ getenv env = some text := by
  unfold getEnvLocal
  cases getenv env with
  | none => simp
  | some found => simp

variable {conninfo}

/-- The values of the environment are what libpq reads exactly if there is no blank, no backslash
and no apostrophe at the front in any of them, and only the password is empty. For replication that
must not be empty either. -/
theorem connection_read {getenv : Bytes → Option EnvText} (read : read getenv = .ok conninfo) :
    (getenv (str "HOSTNAME") = some conninfo.host ∧
      (∃ port, getenv (str "MCC_DB_PORT") = some port ∧ stoi port.val = .ok conninfo.port) ∧
      getenv (str "DBNAME_REPLICA") = some conninfo.dbName ∧
      getenv (str "MCC_DB_USER") = some conninfo.dbUser ∧
      getenv (str "MCC_DB_PASSWORD") = some conninfo.dbPassword) ∧
    (Conninfo.parse (cStr conninfo.concateToString) = some conninfo.settings ↔
      conninfo.ReadAsIs) ∧
    (Conninfo.parse (cStr conninfo.replConninfo) = some conninfo.replSettings ↔
      conninfo.ReadAsIs ∧ conninfo.dbPassword.val ≠ []) := by
  have noNul := conninfo.zero_notMem_replConninfo
  have noNul' : 0 ∉ conninfo.concateToString := by
    intro mem
    exact noNul (List.mem_append_left _ mem)
  have keywords := conninfo.settings_keywords
  have keywords' : ∀ setting ∈ conninfo.settings, Conninfo.Keyword setting.1 := by
    intro setting mem
    exact keywords setting (List.mem_append_left _ mem)
  refine ⟨?_, ?_, ?_⟩
  · unfold EnvConnInfo.read at read
    obtain ⟨host, isHost, read⟩ := except_bind_eq_ok.mp read
    obtain ⟨portText, isPortText, read⟩ := except_bind_eq_ok.mp read
    obtain ⟨port, isPort, read⟩ := except_bind_eq_ok.mp read
    obtain ⟨dbName, isName, read⟩ := except_bind_eq_ok.mp read
    obtain ⟨dbUser, isUser, read⟩ := except_bind_eq_ok.mp read
    obtain ⟨dbPassword, isPassword, read⟩ := except_bind_eq_ok.mp read
    obtain ⟨slotName, -, read⟩ := except_bind_eq_ok.mp read
    obtain ⟨publicationName, -, read⟩ := except_bind_eq_ok.mp read
    obtain ⟨outputPlugin, -, read⟩ := except_bind_eq_ok.mp read
    obtain ⟨protoVersion, -, read⟩ := except_bind_eq_ok.mp read
    obtain ⟨brokersNames, -, read⟩ := except_bind_eq_ok.mp read
    obtain ⟨topic, -, read⟩ := except_bind_eq_ok.mp read
    obtain ⟨groupId, -, read⟩ := except_bind_eq_ok.mp read
    cases read
    rw [getEnvLocal_eq_ok] at isHost isPortText isName isUser isPassword
    exact ⟨isHost, ⟨portText, isPortText, isPort⟩, isName, isUser, isPassword⟩
  · rw [cStr_of_notMem noNul', concateToString_eq, Conninfo.parse_write_iff keywords',
      writable_settings]
  · rw [cStr_of_notMem noNul, replConninfo_eq, Conninfo.parse_write_iff keywords,
      writable_replSettings]

end EnvConnInfo

def dbText : EnvText := ⟨str "db", by decide⟩

/-- The environment of a test installation. -/
def testEnv (name : Bytes) : Option EnvText :=
  if name = str "MCC_DB_PORT" then some ⟨str "5432", by decide⟩ else some dbText

def testConnInfo : EnvConnInfo where
  slotName := str "db"
  publicationName := str "db"
  protoVersion := str "db"
  host := dbText
  port := 5432
  dbName := dbText
  dbUser := dbText
  dbPassword := dbText
  outputPlugin := dbText
  brokersNames := dbText
  topic := dbText
  groupId := dbText

theorem connection_read_test :
    (testEnv (str "HOSTNAME") = some testConnInfo.host ∧
      (∃ port, testEnv (str "MCC_DB_PORT") = some port ∧ stoi port.val = .ok testConnInfo.port) ∧
      testEnv (str "DBNAME_REPLICA") = some testConnInfo.dbName ∧
      testEnv (str "MCC_DB_USER") = some testConnInfo.dbUser ∧
      testEnv (str "MCC_DB_PASSWORD") = some testConnInfo.dbPassword) ∧
    (Conninfo.parse (cStr testConnInfo.concateToString) = some testConnInfo.settings ↔
      testConnInfo.ReadAsIs) ∧
    (Conninfo.parse (cStr testConnInfo.replConninfo) = some testConnInfo.replSettings ↔
      testConnInfo.ReadAsIs ∧ testConnInfo.dbPassword.val ≠ []) :=
  EnvConnInfo.connection_read rfl

end KafkaReplication
