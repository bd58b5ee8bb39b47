import KafkaReplication.Consumer.SafeQueueThreads
import KafkaReplication.Misc.MonitorQuiet

/-!
# What `SafeQueue` gets done

`push` and `pop` (`consumer_bo/safe_queue.h:15-36`) by any number of threads. The two conditions
cannot both fail as long as there is a place in the queue, so that whatever the schedule, the calls
settle: of each kind there have been as many as the other kind allows.
-/

namespace KafkaReplication
open Misc

namespace QueueCall

variable {α : Type}

def isPush : QueueCall α → Bool
  | .push _ => true
  | .pop => false

def isPop (call : QueueCall α) : Bool := !call.isPush

end QueueCall

namespace SafeQueue

variable {α : Type} {maxQueueSize : Nat}

/-- The values in the queue and those that have been taken are those that were pushed. -/
def InOrder (history : QueueHistory α maxQueueSize) : Prop :=
  history.popped ++ history.queue.queueToSave = history.pushed

theorem attempt_inOrder {call : QueueCall α} {history next : QueueHistory α maxQueueSize}
    (got : monitor.attempt call history = some next) (inOrder : InOrder history) :
    InOrder next := by
  unfold InOrder at *
  cases call with
  | push value =>
    obtain ⟨queue, pushed, popped⟩ := attempt_push got
    rw [queue, pushed, popped, ← inOrder, List.append_assoc]
  | pop =>
    obtain ⟨value, queue, pushed, popped⟩ := attempt_pop got
    rw [pushed, popped, ← inOrder, queue, List.append_assoc, List.singleton_append]

/-- The pushes that are done. -/
def pushTally : Monitor.Tally (@monitor α maxQueueSize) QueueCall.isPush where
  done history := history.pushed.length
  counts := by
    intro call history next got
    cases call with
    | push value =>
      obtain ⟨-, pushed, -⟩ := attempt_push got
      rw [pushed, List.length_append]
      rfl
    | pop =>
      obtain ⟨value, -, pushed, -⟩ := attempt_pop got
      rw [pushed]
      rfl

/-- The pops that are done. -/
def popTally : Monitor.Tally (@monitor α maxQueueSize) QueueCall.isPop where
  done history := history.popped.length
  counts := by
    intro call history next got
    cases call with
    | push value =>
      obtain ⟨-, -, popped⟩ := attempt_push got
      rw [popped]
      rfl
    | pop =>
      obtain ⟨value, -, -, popped⟩ := attempt_pop got
      rw [popped, List.length_append]
      rfl

section Rest

variable {threads : Nat} {actions : List (Monitor.Action (QueueCall α))}

/-- At rest a push that has not come through has found no place, and a pop no value. -/
theorem waiting_of_quiet
    (quiet : monitor.Quiet (afterSteps α maxQueueSize threads actions)) :
    let s := afterSteps α maxQueueSize threads actions
    (0 < s.threads.countP (Thread.waits QueueCall.isPush) →
        s.resource.queue.queueToSave.length = maxQueueSize) ∧
      (0 < s.threads.countP (Thread.waits QueueCall.isPop) →
        s.resource.queue.queueToSave = []) := by
  intro s
  have asleep {p : QueueCall α → Bool} (some_ : 0 < s.threads.countP (Thread.waits p)) :
      ∃ call, .asleep call ∈ s.threads ∧ p call = true := by
    obtain ⟨thread, mem, waits⟩ := List.countP_pos_iff.mp some_
    rcases quiet.resting mem with rfl | ⟨call, rfl⟩
    · cases waits
    · exact ⟨call, mem, waits⟩
  constructor
  · intro some_
    obtain ⟨call, mem, kind⟩ := asleep some_
    have none_ := quiet.exhausted supply mem
    have size := s.resource.queue.size_le
    cases call with
    | push value =>
      have places : maxQueueSize - s.resource.queue.queueToSave.length = 0 := none_
      omega
    | pop => cases kind
  · intro some_
    obtain ⟨call, mem, kind⟩ := asleep some_
    have none_ := quiet.exhausted supply mem
    cases call with
    | push value => cases kind
    | pop => exact List.length_eq_zero_iff.mp none_

end Rest

/-- Without new calls the threads take at most three steps for each of them, all together, and two
more for each spurious wake-up, and from every state they can come to rest. At rest the pops have
taken the first values that were pushed, one each as far as there are any, and there have been as
many pushes as the pops and the places of the queue allow. -/
theorem served (α : Type) {maxQueueSize : Nat} (room : 0 < maxQueueSize) (threads : Nat)
    (actions : List (Monitor.Action (QueueCall α))) :
    let s := afterSteps α maxQueueSize threads actions
    let calls := (@monitor α maxQueueSize).taken (Monitor.start ⟨.empty, [], []⟩ threads) actions
    (∀ later : List (Monitor.Action (QueueCall α)), (∀ action ∈ later, action.Continues) →
        Always monitor.step (fun s action => monitor.step s action ≠ s) s later →
        later.length ≤ 3 * threads + 2 * later.countP Monitor.Action.isSpurious) ∧
      (∃ later : List (Monitor.Action (QueueCall α)), (∀ action ∈ later, action.Internal) ∧
        later.length ≤ 3 * threads ∧
        monitor.Quiet (afterSteps α maxQueueSize threads (actions ++ later))) ∧
      (monitor.Quiet s →
        s.resource.popped = s.resource.pushed.take (calls.countP QueueCall.isPop) ∧
          s.resource.pushed.length =
            min (calls.countP QueueCall.isPush) (calls.countP QueueCall.isPop + maxQueueSize)) := by
  intro s calls
  have most : s.left ≤ 3 * threads := by
    have count : s.threads.length = threads := Monitor.run_length _ _ _
    have most := Monitor.left_le s
    rwa [count] at most
  refine ⟨?_, ?_, ?_⟩
  · intro later continues moves
    have steps := Monitor.length_le_of_moves continues moves
    omega
  · obtain ⟨later, internal, short, atRest⟩ := Monitor.exists_quiet monitor s
    refine ⟨later, internal, Nat.le_trans short most, ?_⟩
    have goesOn : afterSteps α maxQueueSize threads (actions ++ later) =
        runFrom monitor.step s later := List.foldl_append
    rw [goesOn]
    exact atRest
  · intro quiet
    have inOrder : InOrder s.resource := by
      refine Monitor.run_resource ?_ ?_ threads actions
      · intro call history next got
        exact attempt_inOrder got
      · rfl
    obtain ⟨full, nothing⟩ := waiting_of_quiet quiet
    have done : s.resource.pushed.length + s.threads.countP (Thread.waits QueueCall.isPush) =
        calls.countP QueueCall.isPush :=
      pushTally.run_start ⟨.empty, [], []⟩ threads actions rfl
    have taken : s.resource.popped.length + s.threads.countP (Thread.waits QueueCall.isPop) =
        calls.countP QueueCall.isPop :=
      popTally.run_start ⟨.empty, [], []⟩ threads actions rfl
    have lengths := congrArg List.length inOrder
    rw [List.length_append] at lengths
    have size := s.resource.queue.size_le
    constructor
    · rcases Nat.eq_zero_or_pos (s.threads.countP (Thread.waits QueueCall.isPop)) with all | some_
      · rw [← inOrder, ← taken, all, Nat.add_zero, List.take_left]
      · have empty : s.resource.queue.queueToSave = [] := nothing some_
        rw [← inOrder, empty, List.append_nil, List.take_of_length_le (by omega)]
    · rcases Nat.eq_zero_or_pos (s.threads.countP (Thread.waits QueueCall.isPop)) with all | some_
      · rcases Nat.eq_zero_or_pos (s.threads.countP (Thread.waits QueueCall.isPush)) with
          every | others
        · omega
        · have places : s.resource.queue.queueToSave.length = maxQueueSize := full others
          omega
      · -- no push waits next to an empty queue
        have empty : s.resource.queue.queueToSave.length = 0 :=
          List.length_eq_zero_iff.mpr (nothing some_)
        have every : ¬ 0 < s.threads.countP (Thread.waits QueueCall.isPush) := by
          intro others
          have places : s.resource.queue.queueToSave.length = maxQueueSize := full others
          omega
        omega

/-- Two pops and a push behind them: one pop has the value, the other sleeps on. -/
theorem served_pops :
    let actions : List (Monitor.Action (QueueCall Nat)) :=
      [.call 0 .pop, .lock 0, .call 1 .pop, .lock 1, .call 2 (.push 5), .lock 2, .notify 2 1,
        .lock 1, .notify 1 1]
    let s := afterSteps Nat 1 3 actions
    (@monitor Nat 1).Quiet s ∧ s.resource.popped = [5] ∧ s.resource.pushed = [5] ∧
      ∀ later : List (Monitor.Action (QueueCall Nat)), (∀ action ∈ later, action.Continues) →
        Always monitor.step (fun s action => monitor.step s action ≠ s) s later →
        later.length ≤ 9 + 2 * later.countP Monitor.Action.isSpurious := by
  intro actions s
  obtain ⟨steps, -, rest⟩ := served Nat Nat.one_pos 3 actions
  have quiet : (@monitor Nat 1).Quiet s := by
    apply Monitor.quiet_of_resting
    have threads : s.threads = [.asleep .pop, .outside, .outside] := rfl
    rw [threads]
    intro thread mem
    simp only [List.mem_cons, List.not_mem_nil, or_false] at mem
    rcases mem with rfl | rfl | rfl
    · exact .inr ⟨_, rfl⟩
    · exact .inl rfl
    · exact .inl rfl
  obtain ⟨popped, -⟩ := rest quiet
  have pushed : s.resource.pushed = [5] := rfl
  rw [pushed] at popped
  exact ⟨quiet, popped, pushed, steps⟩

end SafeQueue

end KafkaReplication
