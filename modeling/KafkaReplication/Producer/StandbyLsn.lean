import KafkaReplication.Producer.Session

/-!
# The positions reported to the server

A status update overwrites the restart position with the applied one before it is sent, so
nothing of the loaded `RESTART_LSN` survives the first report, and the applied position is that
of whatever packet came last. `Advances` is what the packets and the state have to satisfy for
the reports never to go back.
-/

namespace KafkaReplication
open Misc

namespace PostgresqlReplicator.Session

variable (jsoncpp : JsonCpp)

/-- All positions reported so far, the first one first. -/
def reported (session : Session) : List Nat := session.replicator.sent.map reportedLsn

/-- The position below which the next report must not fall: the last one reported, or the
loaded `RESTART_LSN`. -/
def floor (session : Session) : Nat := session.replicator.stats.restartLsn

/-- If this round is answered, then not below the floor: a `'w'` packet that is handled to the
end carries a position at or above it, and when only the applied position is reported, that
one has reached it. -/
def Advances (session : Session) (round : Round) : Prop :=
  session.down = false → round.env.connectionOk = true →
    match round.copyData with
    | .data rawMessage =>
        (IsWal rawMessage →
          (∃ self', dispatch jsoncpp round.env (rawMessage.dropFront 25)
            (PostgresqlReplicator.received rawMessage session.replicator) = .ok () self') →
          session.floor ≤ packetLsn rawMessage) ∧
        (IsKeepalive rawMessage → session.floor ≤ session.replicator.stats.appliedLsn)
    | .done => session.floor ≤ session.replicator.stats.appliedLsn
    | _ => True

/-- What a round reports, if anything. -/
inductive Reports (session : Session) (round : Round) : Session → Option Nat → Prop where
  | silent {next : Session} (sent : next.replicator.sent = session.replicator.sent)
      (floor : next.floor = session.floor) (advances : Advances jsoncpp session round) :
      Reports session round next none
  | answer {next : Session} {reply : Bytes} {lsn : Nat}
      (sent : next.replicator.sent = session.replicator.sent ++ [reply])
      (reported : reportedLsn reply = lsn) (floor : next.floor = lsn)
      (advances : Advances jsoncpp session round ↔ session.floor ≤ lsn) :
      Reports session round next (some lsn)

variable {jsoncpp}

/-- A status update with the applied position reports it or, without a connection, nothing. -/
theorem reports_answered {session next : Session} {round : Round} (self : PostgresqlReplicator)
    (replicator : next.replicator = answered round.env self)
    (sent : self.sent = session.replicator.sent)
    (floor : self.stats.restartLsn = session.floor)
    (advances : round.env.connectionOk = true →
      (Advances jsoncpp session round ↔ session.floor ≤ self.stats.appliedLsn)) :
    ∃ lsn, Reports jsoncpp session round next lsn := by
  rcases answered_cases round.env self with ⟨closed, same⟩ | ⟨connected, reply, cases_⟩
  · rw [same] at replicator
    refine ⟨none, .silent (by rw [replicator, sent]) (by rw [Session.floor, replicator, floor]) ?_⟩
    intro _ connected
    rw [closed] at connected
    cases connected
  · obtain ⟨sent', reported, restart, _, _⟩ := cases_
    refine ⟨some self.stats.appliedLsn, .answer ?_ reported ?_ (advances connected)⟩
    · rw [replicator, sent', sent]
    · rw [Session.floor, replicator, restart]

/-- What a round with a packet reports. -/
theorem step_reports_data (jsoncpp : JsonCpp) {session : Session} {round : Round}
    {rawMessage : ByteVec} (up : session.down = false)
    (copy : round.copyData = .data rawMessage) :
    ∃ lsn, Reports jsoncpp session round (step jsoncpp session round) lsn := by
  have run := readRound_data jsoncpp copy session.replicator
  have outcome := parsePacket_parsed jsoncpp round.env session.replicator rawMessage
  obtain ⟨stats, sent⟩ := dispatch_frame jsoncpp round.env
    (PostgresqlReplicator.received rawMessage session.replicator) (rawMessage.dropFront 25)
  generalize parsePacket jsoncpp round.env rawMessage session.replicator = result at outcome run
  cases outcome with
  | skipped notWal notKeepalive =>
    rw [step_ok up run]
    refine ⟨none, .silent rfl rfl ?_⟩
    intro _ _
    rw [copy]
    exact ⟨fun isWal => absurd isWal notWal, fun isK => absurd isK notKeepalive⟩
  | keepalive notWal isKeepalive =>
    rw [step_ok up run]
    refine reports_answered session.replicator rfl rfl rfl ?_
    intro connected
    simp [Advances, up, connected, copy, notWal, isKeepalive]
  | completed isWal notKeepalive completed =>
    rw [completed, finalState] at stats sent
    obtain ⟨appliedLsn, restartLsn⟩ := applied_lsn isWal stats
    rw [step_ok up run]
    refine reports_answered _ rfl sent restartLsn ?_
    intro connected
    rw [appliedLsn]
    simp [Advances, up, connected, copy, isWal, notKeepalive, completed]
  | down isWal notKeepalive down =>
    rw [down, finalState] at stats sent
    have floor := congrArg Stats.restartLsn stats
    rw [step_error up run]
    refine ⟨none, .silent sent floor ?_⟩
    intro _ _
    rw [copy]
    refine ⟨fun _ completes => ?_, fun isK => absurd isK notKeepalive⟩
    obtain ⟨_, completed⟩ := completes
    rw [down] at completed
    cases completed

theorem step_reports (jsoncpp : JsonCpp) (session : Session) (round : Round) :
    ∃ lsn, Reports jsoncpp session round (step jsoncpp session round) lsn := by
  cases up : session.down with
  | true =>
    rw [step_down up]
    refine ⟨none, .silent rfl rfl ?_⟩
    intro isUp
    rw [up] at isUp
    cases isUp
  | false =>
    cases copy : round.copyData with
    | nothing =>
      rw [step_ok up (readRound_nothing copy _)]
      refine ⟨none, .silent rfl rfl ?_⟩
      intro _ _
      rw [copy]
      trivial
    | failed =>
      rw [step_error up (readRound_failed copy _)]
      refine ⟨none, .silent rfl rfl ?_⟩
      intro _ _
      rw [copy]
      trivial
    | done =>
      rw [step_ok up (readRound_done copy _)]
      refine reports_answered session.replicator rfl rfl rfl ?_
      intro connected
      simp [Advances, up, connected, copy]
    | data rawMessage => exact step_reports_data jsoncpp up copy

/-- The reports of a session, behind the loaded `RESTART_LSN`, do not go back. -/
def NeverBack (restartLsn : Nat) (session : Session) : Prop :=
  (restartLsn :: session.reported).Pairwise (· ≤ ·)

instance (restartLsn : Nat) (session : Session) : Decidable (NeverBack restartLsn session) :=
  inferInstanceAs (Decidable (List.Pairwise _ _))

/-- The reports do not go back and the floor is the highest of them. -/
structure Level (restartLsn : Nat) (session : Session) : Prop where
  neverBack : NeverBack restartLsn session
  floor_mem : session.floor ∈ restartLsn :: session.reported
  le_floor : ∀ lsn ∈ restartLsn :: session.reported, lsn ≤ session.floor

section Runs

variable {restartLsn : Nat} {session : Session} {round : Round}

theorem Reports.reported_append {next : Session} {lsn : Nat}
    (reports : Reports jsoncpp session round next (some lsn)) :
    next.reported = session.reported ++ [lsn] := by
  cases reports with
  | answer sent reported floor advances =>
    rw [Session.reported, sent, List.map_append, List.map_singleton, reported]
    rfl

theorem Reports.reported_prefix {next : Session} {lsn : Option Nat}
    (reports : Reports jsoncpp session round next lsn) : session.reported <+: next.reported := by
  cases lsn with
  | some lsn =>
    rw [reports.reported_append]
    exact List.prefix_append _ _
  | none =>
    cases reports with
    | silent sent floor advances =>
      rw [Session.reported, Session.reported, sent]

/-- A step from a level session keeps the reports from going back just when it advances, and
then leaves the session level. -/
theorem Level.step (level : Level restartLsn session) (jsoncpp : JsonCpp) (round : Round) :
    (NeverBack restartLsn (Session.step jsoncpp session round) ↔
        Advances jsoncpp session round) ∧
      (Advances jsoncpp session round →
        Level restartLsn (Session.step jsoncpp session round)) := by
  obtain ⟨lsn, reports⟩ := step_reports jsoncpp session round
  generalize Session.step jsoncpp session round = next at reports
  cases lsn with
  | none =>
    cases reports with
    | silent sent floor advances =>
      have reported : next.reported = session.reported := by
        rw [Session.reported, sent, Session.reported]
      have stays : Level restartLsn next := by
        constructor
        · rw [NeverBack, reported]
          exact level.neverBack
        · rw [reported, floor]
          exact level.floor_mem
        · rw [reported, floor]
          exact level.le_floor
      exact ⟨⟨fun _ => advances, fun _ => stays.neverBack⟩, fun _ => stays⟩
  | some lsn =>
    have reported := reports.reported_append
    cases reports with
    | answer sent reportedLsn floor advances =>
      -- with the floor as the highest report, the new one only has to be compared with it
      have above : (∀ a ∈ restartLsn :: session.reported, a ≤ lsn) ↔ session.floor ≤ lsn :=
        ⟨fun all => all _ level.floor_mem,
          fun le a member => Nat.le_trans (level.le_floor a member) le⟩
      have neverBack : NeverBack restartLsn next ↔ session.floor ≤ lsn := by
        rw [NeverBack, reported, ← List.cons_append, List.pairwise_append, ← above]
        simp only [List.mem_singleton, forall_eq]
        exact ⟨fun ⟨_, _, all⟩ => all, fun all =>
          ⟨level.neverBack, List.pairwise_singleton _ _, all⟩⟩
      rw [neverBack, advances]
      refine ⟨Iff.rfl, fun le => ⟨neverBack.mpr le, ?_, ?_⟩⟩
      · rw [reported, floor]
        exact List.mem_append_right (restartLsn :: session.reported) List.mem_cons_self
      · rw [reported, floor]
        intro a member
        rcases List.mem_append.mp (List.cons_append ▸ member) with before | new
        · exact above.mpr le a before
        · exact Nat.le_of_eq (List.mem_singleton.mp new)

/-- What has been reported stays reported. -/
theorem reported_prefix_run (jsoncpp : JsonCpp) (session : Session) (rounds : List Round) :
    session.reported <+: (runFrom (Session.step jsoncpp) session rounds).reported := by
  induction rounds generalizing session with
  | nil => exact List.prefix_refl _
  | cons round rounds ih =>
    obtain ⟨lsn, reports⟩ := step_reports jsoncpp session round
    exact reports.reported_prefix.trans (ih _)

theorem Level.run_iff (level : Level restartLsn session) (rounds : List Round) :
    NeverBack restartLsn (runFrom (Session.step jsoncpp) session rounds) ↔
      Always (Session.step jsoncpp) (Advances jsoncpp) session rounds := by
  induction rounds generalizing session with
  | nil => exact ⟨fun _ => trivial, fun _ => level.neverBack⟩
  | cons round rounds ih =>
    obtain ⟨step_iff, stays⟩ := level.step jsoncpp round
    constructor
    · intro neverBack
      have longer := reported_prefix_run jsoncpp (Session.step jsoncpp session round) rounds
      have first : NeverBack restartLsn (Session.step jsoncpp session round) :=
        neverBack.sublist (longer.sublist.cons_cons restartLsn)
      have advances := step_iff.mp first
      exact ⟨advances, (ih (stays advances)).mp neverBack⟩
    · rintro ⟨advances, others⟩
      exact (ih (stays advances)).mpr others

end Runs

/-- The session starts with its floor at the loaded `RESTART_LSN`. -/
theorem level_start (cache : RelationCache) (kafkaProducer : Option LibrdKafkaProducer)
    (restartLsnHigh restartLsnLow : UInt32) :
    Level (lsnOf restartLsnHigh restartLsnLow)
      (start cache kafkaProducer restartLsnHigh restartLsnLow) where
  neverBack := List.pairwise_singleton _ _
  floor_mem := List.mem_singleton.mpr rfl
  le_floor := fun _ member => Nat.le_of_eq (List.mem_singleton.mp member)

/-- The reported positions are non-decreasing and not below `RESTART_LSN` in exactly those
sessions in which every round advances. -/
theorem neverBack_iff (jsoncpp : JsonCpp) (cache : RelationCache)
    (kafkaProducer : Option LibrdKafkaProducer) (restartLsnHigh restartLsnLow : UInt32)
    (rounds : List Round) :
    NeverBack (lsnOf restartLsnHigh restartLsnLow)
        (runFrom (step jsoncpp) (start cache kafkaProducer restartLsnHigh restartLsnLow) rounds) ↔
      Always (step jsoncpp) (Advances jsoncpp)
        (start cache kafkaProducer restartLsnHigh restartLsnLow) rounds :=
  (level_start cache kafkaProducer restartLsnHigh restartLsnLow).run_iff rounds

/-- A keepalive as PostgreSQL sends it: the end of its log, its clock, no answer asked for. -/
def keepalivePacket : ByteVec := ⟨str "k" ++ List.replicate 17 0, by decide⟩

/-- With `RESTART_LSN = 0/5`, a keepalive before the first change is answered with 0/0. -/
theorem keepalive_goes_back :
    ¬ NeverBack (lsnOf 0 5)
        (runFrom (step (JsonCpp.compact .null)) (start (fun _ => none) none 0 5)
          [⟨{}, .data keepalivePacket⟩]) := by
  decide

end PostgresqlReplicator.Session

end KafkaReplication
