import KafkaReplication.Producer.ConfigManager
import KafkaReplication.SharedStructures

/-!
# The position of a restart

`startReplicationAll` (`producer_azs/postgresql_replicator.cpp:123-165`) takes `RESTART_LSN` from
the configuration file and asks the server to go on from there. The server writes and reads
positions as two hexadecimal numerals with a slash between them; `parseLSN` and `std::to_string`
take them for decimal ones. Only a position both of whose numerals have one digit, and no letter,
is parsed as what it is.
-/

namespace KafkaReplication
open Misc Misc.Numerals

/-! ## The server -/

namespace Server

/-- The first half of a position. -/
def highHalf (lsn : UInt64) : UInt32 := UInt32.ofNat (lsn.toNat / 2 ^ 32)

def lowHalf (lsn : UInt64) : UInt32 := UInt32.ofNat lsn.toNat

/-- `%X/%X`. -/
def lsnText (lsn : UInt64) : Bytes :=
  hexText (highHalf lsn).toNat ++ chr '/' :: hexText (lowHalf lsn).toNat

/-- The position at the front of a text. -/
def readLsn (text : Bytes) : Option Nat :=
  match text.dropWhile isHexDigit with
  | [] => none
  | c :: rest =>
      let high := text.takeWhile isHexDigit
      let low := rest.takeWhile isHexDigit
      if c = chr '/' ∧ high ≠ [] ∧ low ≠ [] then
        some (lsnOf (UInt32.ofNat (hexDigitsValue high)) (UInt32.ofNat (hexDigitsValue low)))
      else none

theorem lsnOf_halves (lsn : UInt64) : lsnOf (highHalf lsn) (lowHalf lsn) = lsn.toNat := by
  have bound := lsn.toNat_lt
  rw [lsnOf, highHalf, lowHalf, UInt32.toNat_ofNat', UInt32.toNat_ofNat']
  omega

/-- What the server writes it reads. -/
theorem readLsn_lsnText (lsn : UInt64) {rest : Bytes}
    (ends : rest.head?.any isHexDigit = false) :
    readLsn (lsnText lsn ++ rest) = some lsn.toNat := by
  have slash : (chr '/' :: (hexText (lowHalf lsn).toNat ++ rest)).head?.any isHexDigit = false :=
    rfl
  rw [lsnText, List.append_assoc, List.cons_append, readLsn,
    Sql.dropWhile_run (hexText_all _) slash]
  dsimp only
  rw [Sql.takeWhile_run (hexText_all _) slash, Sql.takeWhile_run (hexText_all _) ends,
    if_pos ⟨rfl, hexText_ne_nil _, hexText_ne_nil _⟩, hexDigitsValue_hexText,
    hexDigitsValue_hexText, UInt32.ofNat_toNat, UInt32.ofNat_toNat, lsnOf_halves]

end Server

/-! ## `startReplicationAll` -/

/-- The names in the command, of `ConnInfo` (`shared_structures.h:103-170`). -/
structure ConnInfo where
  slotName : Bytes := []
  publicationName : Bytes := []
  protoVersion : Bytes := []

/-- What `startReplicationAll` finds on its way to the command and behind it. -/
structure StartSurroundings where
  /-- `conn_` is set. -/
  conn : Bool := true
  /-- `PQstatus(repl_conn_)` is `CONNECTION_OK`. -/
  connectionOk : Bool := true
  /-- The server has answered `PGRES_COPY_BOTH`. -/
  copyBoth : Bool := true

/-- The command up to the position (`postgresql_replicator.cpp:149-150`). -/
def slotCommand (conninfo : ConnInfo) : Bytes :=
  str "START_REPLICATION SLOT " ++ conninfo.slotName ++ str " LOGICAL "

/-- The text given to `PQexec` (`postgresql_replicator.cpp:149-151`). -/
def startQuery (conninfo : ConnInfo) (stats : Stats) : Bytes :=
  slotCommand conninfo ++ (decimal stats.restartLsnHigh.toNat ++ str "/" ++
    decimal stats.restartLsnLow.toNat ++ (str " (proto_version '" ++ conninfo.protoVersion ++
      str "', publication_names '\"" ++ conninfo.publicationName ++ str "\"')"))

/-- The position of the configuration becomes that of the statistics
(`postgresql_replicator.cpp:144-145`). -/
def loadRestart (values : ConfigValues) : EStateM Fault Stats Unit := fun stats =>
  match ConfigManager.parseLSN (ConfigManager.getValueByKeyFromConfig values (str "RESTART_LSN"))
    (stats.restartLsnHigh, stats.restartLsnLow) with
  | .ok _ (high, low) => .ok () { stats with restartLsnHigh := high, restartLsnLow := low }
  | .error fault (high, low) =>
      .error fault { stats with restartLsnHigh := high, restartLsnLow := low }

/-- `startReplicationAll` (`postgresql_replicator.cpp:123-165`): what it returns, and the command
that was given to the server. -/
def startReplicationAll (conninfo : ConnInfo) (values : ConfigValues) (env : StartSurroundings) :
    EStateM Fault Stats (Bool × Option Bytes) := do
  if !env.conn then return (false, none)
  if !env.connectionOk then return (false, none)
  loadRestart values
  let query := startQuery conninfo (← get)
  return (env.copyBoth, some query)

/-! ## Passing the position on -/

open Server

section Restart

variable (conninfo : ConnInfo) (values : ConfigValues) (env : StartSurroundings) (stats : Stats)
  (lsn : UInt64)

/-- The values when a position is written to `RESTART_LSN`. -/
def withRestart : ConfigValues :=
  Function.update values (str "RESTART_LSN") (some (lsnText lsn))

/-- The position that the server reads behind `LOGICAL`. -/
def askedPosition (query : Bytes) : Option Nat :=
  readLsn (query.drop (slotCommand conninfo).length)

/-- The written position is parsed and goes back to the server. -/
structure RestartPassedOn : Prop where
  parsed : ConfigManager.parseLSN (lsnText lsn) (stats.restartLsnHigh, stats.restartLsnLow) =
    .ok () (highHalf lsn, lowHalf lsn)
  asked : ∃ query stats', startReplicationAll conninfo (withRestart values lsn) env stats =
    .ok (env.copyBoth, some query) stats' ∧ askedPosition conninfo query = some lsn.toNat

/-- Over open connections the position is loaded and asked for. -/
theorem startReplicationAll_eq (conn : env.conn = true) (connectionOk : env.connectionOk = true) :
    startReplicationAll conninfo values env stats =
      match loadRestart values stats with
      | .ok _ stats' => .ok (env.copyBoth, some (startQuery conninfo stats')) stats'
      | .error fault stats' => .error fault stats' := by
  have body : startReplicationAll conninfo values env = (do
      loadRestart values
      let query := startQuery conninfo (← get)
      return (env.copyBoth, some query)) := by
    rw [startReplicationAll, conn, connectionOk]
    rfl
  rw [body]
  show EStateM.bind (loadRestart values) _ stats = _
  rw [EStateM.bind]
  cases loadRestart values stats with
  | ok _ stats' => rfl
  | error fault stats' => rfl

theorem getValue_withRestart :
    ConfigManager.getValueByKeyFromConfig (withRestart values lsn) (str "RESTART_LSN") =
      lsnText lsn := by
  rw [ConfigManager.getValueByKeyFromConfig, withRestart, Function.update_self]
  rfl

theorem parseLSN_lsnText (halves : UInt32 × UInt32) :
    ConfigManager.parseLSN (lsnText lsn) halves = .ok () (highHalf lsn, lowHalf lsn) ↔
      (highHalf lsn).toNat < 10 ∧ (lowHalf lsn).toNat < 10 := by
  have noSlash : chr '/' ∉ hexText (highHalf lsn).toNat := by
    intro member
    exact (isHexDigit_solid (hexText_all _ _ member)).2.2.2 rfl
  rw [lsnText, ConfigManager.parseLSN_ok_iff noSlash, stoul_hexText_iff, stoul_hexText_iff]

/-- Numerals of one digit are the same in both systems. -/
theorem askedPosition_startQuery (high : (highHalf lsn).toNat < 10)
    (low : (lowHalf lsn).toNat < 10) :
    askedPosition conninfo (startQuery conninfo
      { stats with restartLsnHigh := highHalf lsn, restartLsnLow := lowHalf lsn }) =
        some lsn.toNat := by
  have text : decimal (highHalf lsn).toNat ++ str "/" ++ decimal (lowHalf lsn).toNat =
      lsnText lsn := by
    rw [decimal_digit high, decimal_digit low, List.append_assoc]
    rfl
  rw [askedPosition, startQuery, text, List.drop_left]
  exact readLsn_lsnText lsn rfl

/-- A written position is passed on unchanged exactly if both its numerals are one decimal digit:
no other is parsed as what it is. -/
theorem restartPassedOn_iff (conn : env.conn = true) (connectionOk : env.connectionOk = true) :
    RestartPassedOn conninfo values env stats lsn ↔
      (highHalf lsn).toNat < 10 ∧ (lowHalf lsn).toNat < 10 := by
  constructor
  · intro passedOn
    exact (parseLSN_lsnText lsn _).mp passedOn.parsed
  · intro small
    have parsed := (parseLSN_lsnText lsn (stats.restartLsnHigh, stats.restartLsnLow)).mpr small
    have asked := askedPosition_startQuery conninfo stats lsn small.1 small.2
    have started := startReplicationAll_eq conninfo (withRestart values lsn) env stats conn
      connectionOk
    rw [loadRestart, getValue_withRestart, parsed] at started
    exact ⟨parsed, _, _, started, asked⟩

/-- A position like `3/7` is not harmed. -/
theorem restartPassedOn_threeSeven :
    RestartPassedOn {} (fun _ => none) {} {} 0x300000007 :=
  (restartPassedOn_iff {} (fun _ => none) {} {} 0x300000007 rfl rfl).mpr
    ⟨by decide, by decide⟩

/-- The decimal number `10` takes the place of sixteen, and a numeral that begins with a letter is
none to `stoul`. -/
theorem restartRadix_lost :
    lsnText 0x10 = str "0/10" ∧
      ConfigManager.parseLSN (str "0/10") (0, 0) = .ok () (0, 10) ∧
      lsnText 0x16B374D848 = str "16/B374D848" ∧
      ConfigManager.parseLSN (str "16/B374D848") (0, 0) = .error (.exception "stoul") (16, 0) ∧
      ¬ RestartPassedOn {} (fun _ => none) {} {} 0x10 := by
  refine ⟨?_, rfl, ?_, rfl, ?_⟩
  · simp [lsnText, highHalf, lowHalf, hexText, hexDigit]
    decide
  · simp [lsnText, highHalf, lowHalf, hexText, hexDigit]
    decide
  · intro passedOn
    have small := (parseLSN_lsnText 0x10 _).mp passedOn.parsed
    exact absurd small.2 (by decide)

end Restart

end KafkaReplication
