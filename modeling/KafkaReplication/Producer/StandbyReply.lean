import KafkaReplication.Producer.StandbyLsn

/-!
# The content of a status update

`sendStandbyStatusUpdate` (`producer_azs/postgresql_replicator.cpp:319-375`) writes the applied
position three times. The applied position is that of the last `'w'` packet handled to the end,
also where a handling throws between the two critical sections: what such a packet has left
in the received position is never applied.
-/

namespace KafkaReplication
open Misc

namespace PostgresqlReplicator

/-! ## A handling that may throw -/

/-- `parser_.parseMessage(clean_data)` and `handleMessage(message)` on the body of a packet. -/
abbrev Handling := Surroundings → ByteVec → ReplicatorM Unit

/-- `handling` is what the code does with a body, but any call of it may end in a
`std::exception` instead, such as a `std::bad_alloc`. The statistics and the connection are
out of its reach. -/
def CompletesOrThrows (jsoncpp : JsonCpp) (handling : Handling) : Prop :=
  ∀ env body self, handling env body self = dispatch jsoncpp env body self ∨
    ∃ what self', handling env body self = .error (.exception what) self' ∧
      self'.stats = self.stats ∧ self'.sent = self.sent

/-- The case `'w'` of `parsePacket`, for any handling of the body. -/
def handleWalWith (handling : Handling) (env : Surroundings) (rawMessage : ByteVec) :
    ReplicatorM Unit := do
  requireHeader rawMessage
  receiveLsn rawMessage
  handling env (rawMessage.dropFront 25)
  applyReceived
  sendStandbyStatusUpdate env

/-- `parsePacket` for any handling of the body. -/
def parsePacketWith (handling : Handling) (env : Surroundings) (rawMessage : ByteVec) :
    ReplicatorM Unit :=
  match rawMessage.bytes with
  | [] => pure ()
  | msgType :: _ =>
      swallow <|
        if msgType = chr 'w' then handleWalWith handling env rawMessage
        else if msgType = chr 'k' then sendStandbyStatusUpdate env
        else pure ()

/-- With the code's own handling this is `parsePacket`. -/
theorem parsePacketWith_dispatch (jsoncpp : JsonCpp) :
    parsePacketWith (dispatch jsoncpp) = parsePacket jsoncpp := rfl

theorem completesOrThrows_dispatch (jsoncpp : JsonCpp) :
    CompletesOrThrows jsoncpp (dispatch jsoncpp) := fun _ _ _ => .inl rfl

section Packets

variable {jsoncpp : JsonCpp} {handling : Handling} {env : Surroundings}
  {self : PostgresqlReplicator}

theorem CompletesOrThrows.frame (mayThrow : CompletesOrThrows jsoncpp handling)
    (env : Surroundings) (self : PostgresqlReplicator) (body : ByteVec) :
    (finalState (handling env body self)).stats = self.stats ∧
      (finalState (handling env body self)).sent = self.sent := by
  rcases mayThrow env body self with same | ⟨what, self', thrown, stats, sent⟩
  · rw [same]
    exact dispatch_frame jsoncpp env self body
  · rw [thrown]
    exact ⟨stats, sent⟩

theorem handleWalWith_long {rawMessage : ByteVec} (long : 25 ≤ rawMessage.size) :
    handleWalWith handling env rawMessage self =
      match handling env (rawMessage.dropFront 25) (received rawMessage self) with
      | .ok () self' => .ok () (answered env (applied self'))
      | .error fault self' => .error fault self' := by
  rw [handleWalWith, bind_ok (requireHeader_long long), bind_ok (receiveLsn_long long)]
  cases run : handling env (rawMessage.dropFront 25) (received rawMessage self) with
  | ok _ self' => exact bind_ok run
  | error fault self' => exact bind_error run

theorem parsePacketWith_wal (handling : Handling) (env : Surroundings)
    (self : PostgresqlReplicator) {rawMessage : ByteVec} (isWal : IsWal rawMessage) :
    parsePacketWith handling env rawMessage self =
      match handling env (rawMessage.dropFront 25) (received rawMessage self) with
      | .ok () self' => .ok () (answered env (applied self'))
      | .error (.exception _) self' => .ok () self'
      | .error (.undefined why) self' => .error (.undefined why) self' := by
  obtain ⟨head, long⟩ := isWal
  obtain ⟨rest, bytes⟩ : ∃ rest, rawMessage.bytes = chr 'w' :: rest := by
    cases bytes : rawMessage.bytes with
    | nil => rw [bytes] at head; cases head
    | cons msgType rest =>
      rw [bytes] at head
      exact ⟨rest, by rw [Option.some.inj head]⟩
  simp only [parsePacketWith, bytes, if_true, swallow, handleWalWith_long long]
  cases run : handling env (rawMessage.dropFront 25) (received rawMessage self) with
  | ok _ self' => rfl
  | error fault self' => cases fault <;> rfl

theorem parsePacketWith_keepalive {rawMessage : ByteVec} (isKeepalive : IsKeepalive rawMessage) :
    parsePacketWith handling env rawMessage self = .ok () (answered env self) := by
  cases bytes : rawMessage.bytes with
  | nil => rw [IsKeepalive, bytes] at isKeepalive; cases isKeepalive
  | cons msgType rest =>
    rw [IsKeepalive, bytes] at isKeepalive
    cases isKeepalive
    simp only [parsePacketWith, bytes]
    rfl

theorem parsePacketWith_other {rawMessage : ByteVec} (notWal : ¬ IsWal rawMessage)
    (notKeepalive : ¬ IsKeepalive rawMessage) :
    parsePacketWith handling env rawMessage self = .ok () self := by
  cases bytes : rawMessage.bytes with
  | nil =>
    simp only [parsePacketWith, bytes]
    rfl
  | cons msgType rest =>
    have head : rawMessage.bytes.head? = some msgType := by rw [bytes]; rfl
    simp only [parsePacketWith, bytes]
    by_cases isW : msgType = chr 'w'
    · have short : rawMessage.size < 25 :=
        Nat.lt_of_not_le fun long => notWal ⟨by rw [head, isW], long⟩
      have thrown : handleWalWith handling env rawMessage self =
          .error (.exception "WAL message too short") self := by
        rw [handleWalWith, bind_error (requireHeader_short short)]
      simp only [if_pos isW, swallow, thrown]
    · have notK : ¬ msgType = chr 'k' := fun isK => notKeepalive (by rw [IsKeepalive, head, isK])
      rw [if_neg isW, if_neg notK]
      rfl

end Packets

/-! ## Runs -/

/-- What the producer does with its connection: it takes a packet, or it reports its position,
as the end of the stream makes it do (`postgresql_replicator.cpp:189`). -/
inductive Call where
  | parsePacket (env : Surroundings) (rawMessage : ByteVec)
  | sendStandbyStatusUpdate (env : Surroundings)

/-- The replicator between two calls. `completed` is the position, eight bytes, in the last
`'w'` packet that has been handled to the end. -/
structure Standby where
  replicator : PostgresqlReplicator
  down : Bool := false
  completed : Bytes := List.replicate 8 0

/-- Bytes 9 to 16 of a packet. -/
def lsnBytes (rawMessage : ByteVec) : Bytes := (rawMessage.bytes.drop 9).take 8

namespace Standby

/-- The position of the last completed packet when one more has come in. -/
def completedBy (handling : Handling) (env : Surroundings) (rawMessage : ByteVec)
    (standby : Standby) : Bytes :=
  if IsWal rawMessage then
    match handling env (rawMessage.dropFront 25) (received rawMessage standby.replicator) with
    | .ok () _ => lsnBytes rawMessage
    | .error _ _ => standby.completed
  else standby.completed

/-- One call; nothing happens once the process is gone. -/
def step (handling : Handling) (standby : Standby) (call : Call) : Standby :=
  if standby.down then standby
  else
    match call with
    | .parsePacket env rawMessage =>
        let completed := completedBy handling env rawMessage standby
        match parsePacketWith handling env rawMessage standby.replicator with
        | .ok () self' => { replicator := self', completed := completed }
        | .error _ self' => { replicator := self', down := true, completed := completed }
    | .sendStandbyStatusUpdate env =>
        { standby with replicator := answered env standby.replicator }

/-- `startReplicationAll` has loaded `RESTART_LSN`; the other positions are zero. -/
def start (cache : RelationCache) (kafkaProducer : Option LibrdKafkaProducer)
    (restartLsnHigh restartLsnLow : UInt32) : Standby where
  replicator :=
    { relationCache := cache
      stats := { restartLsnHigh, restartLsnLow }
      kafkaProducer := kafkaProducer }

end Standby

/-- `reply` is a status update that reports `position` as written, flushed and applied. -/
structure ReportsPosition (position reply : Bytes) : Prop where
  length_eq : reply.length = 34
  head_eq : reply.head? = some (chr 'r')
  first : (reply.drop 1).take 8 = position
  second : (reply.drop 9).take 8 = position
  third : (reply.drop 17).take 8 = position

/-- What a call sends reports the last completed position, and a call that is not given a whole
`'w'` packet leaves the received and the applied position alone. -/
structure ReportsCompleted (handling : Handling) (standby : Standby) (call : Call) : Prop where
  sent : (standby.step handling call).replicator.sent = standby.replicator.sent ∨
    ∃ reply, (standby.step handling call).replicator.sent =
        standby.replicator.sent ++ [reply] ∧
      ReportsPosition (standby.step handling call).completed reply
  others : (∀ env rawMessage, call = .parsePacket env rawMessage → ¬ IsWal rawMessage) →
    (standby.step handling call).replicator.stats.receivedLsn =
        standby.replicator.stats.receivedLsn ∧
      (standby.step handling call).replicator.stats.appliedLsn =
        standby.replicator.stats.appliedLsn

section Steps

variable {jsoncpp : JsonCpp} {handling : Handling} {env : Surroundings} {standby : Standby}
  {self : PostgresqlReplicator}

/-- The applied position as a status update writes it. -/
def appliedBytes (stats : Stats) : Bytes :=
  beBytes 4 stats.appliedLsnHigh.toNat ++ beBytes 4 stats.appliedLsnLow.toNat

/-- The hand-kept offsets of the encoder agree with the layout. -/
theorem standbyReply_reports (stats : Stats) (clock : UInt64) :
    ReportsPosition (appliedBytes stats) (standbyReply stats.restartAtApplied clock) := by
  have reply : standbyReply stats.restartAtApplied clock =
      [chr 'r'] ++ appliedBytes stats ++ appliedBytes stats ++ appliedBytes stats ++
        store64 (htobe64 clock) ++ [stats.flag] := by
    simp only [standbyReply, store32_htonl, Stats.restartAtApplied, appliedBytes,
      List.append_assoc]
  have len : (appliedBytes stats).length = 8 := by simp [appliedBytes]
  have clockLen : (store64 (htobe64 clock)).length = 8 := by simp [store64]
  rw [reply]
  generalize appliedBytes stats = position at len ⊢
  constructor
  · simp [len, clockLen]
  · rfl
  · simp [len]
  · simp [len]
  · simp [List.drop_append, List.take_append, len]

/-- Both halves are read in network order, so they are written back as they came. -/
theorem appliedBytes_received {rawMessage : ByteVec} (long : 25 ≤ rawMessage.size)
    {self' : PostgresqlReplicator} (stats : self'.stats = (received rawMessage self).stats) :
    appliedBytes (applied self').stats = lsnBytes rawMessage := by
  have size : rawMessage.bytes.length = rawMessage.size := rfl
  have written : ∀ bytes : Bytes, bytes.length = 4 →
      beBytes 4 (UInt32.ofNat (beValue bytes)).toNat = bytes := by
    intro bytes len
    rw [toNat_beValue32 len, ← len, beBytes_beValue]
  have high : (appliedBytes (applied self').stats) =
      beBytes 4 (packetLsnHigh rawMessage).toNat ++ beBytes 4 (packetLsnLow rawMessage).toNat := by
    simp only [appliedBytes, applied, stats, received]
    rfl
  rw [high, packetLsnHigh, packetLsnLow, written _ (by simp; omega), written _ (by simp; omega),
    lsnBytes, show 8 = 4 + 4 from rfl, List.take_add, List.drop_drop]

/-- A status update reports the applied position and leaves it alone. -/
theorem answered_reports (env : Surroundings) (self : PostgresqlReplicator) :
    ((answered env self).sent = self.sent ∨
      ∃ reply, (answered env self).sent = self.sent ++ [reply] ∧
        ReportsPosition (appliedBytes self.stats) reply) ∧
    appliedBytes (answered env self).stats = appliedBytes self.stats ∧
    (answered env self).stats.receivedLsn = self.stats.receivedLsn ∧
    (answered env self).stats.appliedLsn = self.stats.appliedLsn := by
  unfold answered
  split
  · exact ⟨.inr ⟨_, rfl, standbyReply_reports self.stats env.clock⟩, rfl, rfl, rfl⟩
  · exact ⟨.inl rfl, rfl, rfl, rfl⟩

/-- Between two calls the applied position is that of the last completed packet. -/
def InStep (standby : Standby) : Prop := appliedBytes standby.replicator.stats = standby.completed

theorem step_ok (up : standby.down = false) {rawMessage : ByteVec}
    (run : parsePacketWith handling env rawMessage standby.replicator = .ok () self) :
    standby.step handling (.parsePacket env rawMessage) =
      { replicator := self, completed := standby.completedBy handling env rawMessage } := by
  simp only [Standby.step, up, run, Bool.false_eq_true, if_false]

theorem step_error (up : standby.down = false) {rawMessage : ByteVec} {fault : Fault}
    (run : parsePacketWith handling env rawMessage standby.replicator = .error fault self) :
    standby.step handling (.parsePacket env rawMessage) =
      { replicator := self
        down := true
        completed := standby.completedBy handling env rawMessage } := by
  simp only [Standby.step, up, run, Bool.false_eq_true, if_false]

/-- A step that sends nothing and keeps the applied position and the completed one. -/
theorem reportsCompleted_silent {call : Call} {next : Standby}
    (stepped : standby.step handling call = next)
    (sent : next.replicator.sent = standby.replicator.sent)
    (others : (∀ env rawMessage, call = .parsePacket env rawMessage → ¬ IsWal rawMessage) →
      next.replicator.stats = standby.replicator.stats)
    (kept : appliedBytes next.replicator.stats = next.completed) :
    ReportsCompleted handling standby call ∧ InStep (standby.step handling call) := by
  rw [InStep, stepped]
  refine ⟨⟨?_, ?_⟩, kept⟩
  · rw [stepped]
    exact .inl sent
  · intro notWal
    rw [stepped, others notWal]
    exact ⟨rfl, rfl⟩

/-- A step that answers from a replicator whose applied position is the completed one. -/
theorem reportsCompleted_answered {call : Call} {next : Standby}
    (stepped : standby.step handling call = next)
    (replicator : next.replicator = answered env self)
    (sent : self.sent = standby.replicator.sent)
    (others : (∀ env rawMessage, call = .parsePacket env rawMessage → ¬ IsWal rawMessage) →
      self.stats = standby.replicator.stats)
    (kept : appliedBytes self.stats = next.completed) :
    ReportsCompleted handling standby call ∧ InStep (standby.step handling call) := by
  obtain ⟨reports, appliedKept, receivedLsn, appliedLsn⟩ := answered_reports env self
  rw [InStep, stepped, replicator, appliedKept]
  refine ⟨⟨?_, ?_⟩, kept⟩
  · rw [stepped, replicator, ← sent, ← kept]
    exact reports
  · intro notWal
    rw [stepped, replicator, receivedLsn, appliedLsn, others notWal]
    exact ⟨rfl, rfl⟩

theorem step_packet_reports (mayThrow : CompletesOrThrows jsoncpp handling)
    (inStep : InStep standby) (up : standby.down = false) (env : Surroundings)
    (rawMessage : ByteVec) :
    ReportsCompleted handling standby (.parsePacket env rawMessage) ∧
      InStep (standby.step handling (.parsePacket env rawMessage)) := by
  by_cases isWal : IsWal rawMessage
  · have wal := parsePacketWith_wal handling env standby.replicator isWal
    obtain ⟨stats, sent⟩ := mayThrow.frame env (received rawMessage standby.replicator)
      (rawMessage.dropFront 25)
    have isPacket : ¬ ∀ env' raw, Call.parsePacket env rawMessage = .parsePacket env' raw →
        ¬ IsWal raw := fun notWal => notWal env rawMessage rfl isWal
    cases run : handling env (rawMessage.dropFront 25)
      (received rawMessage standby.replicator) with
    | ok _ self' =>
      rw [run] at wal stats sent
      refine reportsCompleted_answered (step_ok up wal) rfl
        sent (fun notWal => absurd notWal isPacket) ?_
      simp only [Standby.completedBy, if_pos isWal, run]
      exact appliedBytes_received isWal.2 stats
    | error fault self' =>
      -- the received position has moved, the applied one has not
      rw [run] at wal stats sent
      have kept : appliedBytes self'.stats = standby.completedBy handling env rawMessage := by
        simp only [Standby.completedBy, if_pos isWal, run]
        rw [← inStep, show self'.stats = _ from stats]
        rfl
      cases fault with
      | exception what =>
        exact reportsCompleted_silent (step_ok up wal) sent
          (fun notWal => absurd notWal isPacket) kept
      | undefined why =>
        exact reportsCompleted_silent (step_error up wal) sent
          (fun notWal => absurd notWal isPacket) kept
  · have kept : appliedBytes standby.replicator.stats =
        standby.completedBy handling env rawMessage := by
      rw [Standby.completedBy, if_neg isWal, inStep]
    by_cases isKeepalive : IsKeepalive rawMessage
    · exact reportsCompleted_answered (step_ok up (parsePacketWith_keepalive isKeepalive)) rfl rfl
        (fun _ => rfl) kept
    · exact reportsCompleted_silent (step_ok up (parsePacketWith_other isWal isKeepalive)) rfl
        (fun _ => rfl) kept

theorem step_reports (mayThrow : CompletesOrThrows jsoncpp handling) (inStep : InStep standby)
    (call : Call) :
    ReportsCompleted handling standby call ∧ InStep (standby.step handling call) := by
  cases up : standby.down with
  | true =>
    have stays : standby.step handling call = standby := by simp only [Standby.step, up, if_true]
    exact reportsCompleted_silent stays rfl (fun _ => rfl) inStep
  | false =>
    cases call with
    | parsePacket env rawMessage => exact step_packet_reports mayThrow inStep up env rawMessage
    | sendStandbyStatusUpdate env =>
      have stepped : standby.step handling (.sendStandbyStatusUpdate env) =
          { standby with replicator := answered env standby.replicator } := by
        simp only [Standby.step, up, Bool.false_eq_true, if_false]
      exact reportsCompleted_answered stepped rfl rfl (fun _ => rfl) inStep

end Steps

/-- In every run, whatever handling throws where, each status update is 34 bytes with the last
completed position in its three fields. -/
theorem reportsCompleted_run (jsoncpp : JsonCpp) {handling : Handling}
    (mayThrow : CompletesOrThrows jsoncpp handling) (cache : RelationCache)
    (kafkaProducer : Option LibrdKafkaProducer) (restartLsnHigh restartLsnLow : UInt32)
    (calls : List Call) :
    Always (Standby.step handling) (ReportsCompleted handling)
      (Standby.start cache kafkaProducer restartLsnHigh restartLsnLow) calls := by
  have zero : beBytes 4 (0 : UInt32).toNat ++ beBytes 4 (0 : UInt32).toNat =
      List.replicate 8 0 := by decide
  have inStep : InStep (Standby.start cache kafkaProducer restartLsnHigh restartLsnLow) := zero
  refine Always.of_kept ?_ ?_ inStep calls
  · exact fun standby call inStep => (step_reports mayThrow inStep call).2
  · exact fun standby call inStep => (step_reports mayThrow inStep call).1

/-- A Begin message in a packet at a small position. -/
def beginPacket (low : UInt8) : ByteVec :=
  ⟨str "w" ++ List.replicate 15 0 ++ [low] ++ List.replicate 8 0 ++ str "B" ++
    List.replicate 20 0, by
      have size : (str "w" ++ List.replicate 15 0 ++ [low] ++ List.replicate 8 0 ++ str "B" ++
        List.replicate 20 0).length = 46 := rfl
      rw [size]
      decide⟩

/-- At one time the handling runs out of memory. -/
def failingDispatch : Handling := fun env body self =>
  if env.now = 1 then .error (.exception "std::bad_alloc") self
  else dispatch (JsonCpp.compact .null) env body self

theorem completesOrThrows_failingDispatch :
    CompletesOrThrows (JsonCpp.compact .null) failingDispatch := by
  intro env body self
  unfold failingDispatch
  split
  · exact .inr ⟨_, self, rfl, rfl, rfl⟩
  · exact completesOrThrows_dispatch _ env body self

def beginCalls : List Call :=
  [.parsePacket {} (beginPacket 7), .parsePacket { now := 1 } (beginPacket 9),
    .parsePacket {} Session.keepalivePacket]

/-- The packet at 0/7 is answered. The one at 0/9 is not handled to the end, and the keepalive
behind it has the same answer as the first packet. -/
theorem reportsCompleted_begin :
    let standby := Standby.start (fun _ => none) none 0 5
    Always (Standby.step failingDispatch) (ReportsCompleted failingDispatch) standby beginCalls ∧
      ∃ reply, (runFrom (Standby.step failingDispatch) standby beginCalls).replicator.sent =
          [reply, reply] ∧
        ReportsPosition [0, 0, 0, 0, 0, 0, 0, 7] reply := by
  intro standby
  refine ⟨reportsCompleted_run _ completesOrThrows_failingDispatch _ none 0 5 _, ?_⟩
  refine ⟨standbyReply { appliedLsnLow := 7, restartLsnLow := 7 } 0, by decide, ?_⟩
  exact ⟨by decide, by decide, by decide, by decide, by decide⟩

end PostgresqlReplicator

end KafkaReplication
