import KafkaReplication.Consumer.SafeQueue
import KafkaReplication.Misc.Monitor

/-!
# `SafeQueue` under any number of threads

`consumer_bo/safe_queue.h:15-36` as a monitor: `push` waits on `cond_push_` and notifies on
`cond_pop_` after it has unlocked, `pop` the other way round. The values that `push` has put in
and that `pop` has taken out are recorded next to the queue, in the order in which it happened.
-/

namespace KafkaReplication
open Misc

/-- What a thread calls. -/
inductive QueueCall (α : Type) where
  | push (consumerObject : α)
  | pop

/-- The condition variables. -/
inductive QueueCondition where
  | condPush
  | condPop
  deriving DecidableEq

/-- The queue with what has happened to it. -/
structure QueueHistory (α : Type) (maxQueueSize : Nat) where
  queue : SafeQueue α maxQueueSize
  pushed : List α
  popped : List α

namespace SafeQueue

variable {α : Type} {maxQueueSize : Nat}

/-- The critical sections and condition variables of `push` and `pop`. -/
def monitor : Monitor (QueueHistory α maxQueueSize) (QueueCall α) QueueCondition where
  attempt
    | .push value, history =>
        (history.queue.push value).map fun queue =>
          ⟨queue, history.pushed ++ [value], history.popped⟩
    | .pop, history =>
        history.queue.pop.map fun (value, queue) =>
          ⟨queue, history.pushed, history.popped ++ [value]⟩
  waitsOn
    | .push _ => .condPush
    | .pop => .condPop
  notifies
    | .push _ => .condPop
    | .pop => .condPush

/-- Any number of threads in front of an empty queue, after any steps of theirs. -/
def afterSteps (α : Type) (maxQueueSize threads : Nat)
    (actions : List (Monitor.Action (QueueCall α))) :
    Monitor.State (QueueHistory α maxQueueSize) (QueueCall α) :=
  runFrom monitor.step (Monitor.start ⟨.empty, [], []⟩ threads) actions

theorem attempt_push {value : α} {history next : QueueHistory α maxQueueSize}
    (got : monitor.attempt (.push value) history = some next) :
    next.queue.queueToSave = history.queue.queueToSave ++ [value] ∧
      next.pushed = history.pushed ++ [value] ∧ next.popped = history.popped := by
  obtain ⟨queue, pushed, rfl⟩ := Option.map_eq_some_iff.mp got
  exact ⟨push_eq_some pushed, rfl, rfl⟩

theorem attempt_pop {history next : QueueHistory α maxQueueSize}
    (got : monitor.attempt .pop history = some next) :
    ∃ value, history.queue.queueToSave = value :: next.queue.queueToSave ∧
      next.pushed = history.pushed ∧ next.popped = history.popped ++ [value] := by
  obtain ⟨⟨value, queue⟩, popped, rfl⟩ := Option.map_eq_some_iff.mp got
  exact ⟨value, pop_eq_some popped, rfl, rfl⟩

/-- In every reachable state what was popped, followed by what is in the queue, is what was
pushed, and the queue keeps its bound. -/
theorem fifo (α : Type) (maxQueueSize threads : Nat)
    (actions : List (Monitor.Action (QueueCall α))) :
    let history := (afterSteps α maxQueueSize threads actions).resource
    history.popped ++ history.queue.queueToSave = history.pushed ∧
      history.queue.queueToSave.length ≤ maxQueueSize := by
  intro history
  refine ⟨?_, history.queue.size_le⟩
  have kept : ∀ (call : QueueCall α) (before after : QueueHistory α maxQueueSize),
      monitor.attempt call before = some after →
      before.popped ++ before.queue.queueToSave = before.pushed →
      after.popped ++ after.queue.queueToSave = after.pushed := by
    intro call before after got inv
    cases call with
    | push value =>
      obtain ⟨queue, pushed, popped⟩ := attempt_push got
      rw [queue, pushed, popped, ← inv, List.append_assoc]
    | pop =>
      obtain ⟨value, queue, pushed, popped⟩ := attempt_pop got
      rw [pushed, popped, ← inv, queue, List.append_assoc, List.singleton_append]
  exact Monitor.run_resource kept rfl threads actions

/-- The second push has waited for the pop, which has taken the first value. -/
theorem fifo_pushes :
    let history := (afterSteps Nat 1 2 [.call 0 (.push 5), .lock 0, .notify 0 0, .call 1 (.push 6),
      .lock 1, .call 0 .pop, .lock 0, .notify 0 1, .lock 1]).resource
    history.pushed = [5, 6] ∧ history.popped = [5] ∧ history.queue.queueToSave = [6] ∧
      history.queue.queueToSave.length ≤ 1 := by
  intro history
  obtain ⟨inOrder, size⟩ : history.popped ++ history.queue.queueToSave = history.pushed ∧
      history.queue.queueToSave.length ≤ 1 := fifo Nat 1 2 _
  have pushed : history.pushed = [5] ++ [6] := rfl
  have popped : history.popped = [5] := rfl
  rw [pushed, popped] at inOrder
  exact ⟨pushed, popped, List.append_cancel_left inOrder, size⟩

/-- A push spends a free place and supplies a value, a pop the other way round. -/
def supply : Monitor.Supply (@monitor α maxQueueSize) where
  available
    | .condPush, history => maxQueueSize - history.queue.queueToSave.length
    | .condPop, history => history.queue.queueToSave.length
  spends := by
    intro call history next got
    cases call with
    | push value =>
      obtain ⟨queue, -, -⟩ := attempt_push got
      have size := next.queue.size_le
      simp only [monitor, queue, List.length_append, List.length_singleton] at size ⊢
      omega
    | pop =>
      obtain ⟨value, queue, -, -⟩ := attempt_pop got
      simp only [monitor, queue, List.length_cons, Nat.le_refl]
  supplies := by
    intro call history next got cond
    cases call with
    | push value =>
      obtain ⟨queue, -, -⟩ := attempt_push got
      cases cond with
      | condPush => simp only [queue, List.length_append]; omega
      | condPop => simp [monitor, queue]
    | pop =>
      obtain ⟨value, queue, -, -⟩ := attempt_pop got
      cases cond with
      | condPush =>
        simp only [monitor, queue, List.length_cons, decide_true, Bool.toNat_true]
        omega
      | condPop => simp only [queue, List.length_cons]; omega
  exhausted := by
    intro call history failed
    cases call with
    | push value =>
      have full := push_eq_none (Option.map_eq_none_iff.mp failed)
      simp only [monitor, full, Nat.sub_self]
    | pop =>
      have nothing := pop_eq_none (Option.map_eq_none_iff.mp failed)
      simp only [monitor, nothing, List.length_nil]

/-- In no reachable state is a popper asleep next to a value, or a pusher next to a free place,
with no notification to come and nobody woken who is about to look. -/
theorem noLostWakeup (α : Type) (maxQueueSize threads : Nat)
    (actions : List (Monitor.Action (QueueCall α))) :
    let s := afterSteps α maxQueueSize threads actions
    ¬ (s.resource.queue.queueToSave ≠ [] ∧ .asleep .pop ∈ s.threads ∧
        (∀ value, .notifying (.push value) ∉ s.threads) ∧ .woken .pop ∉ s.threads) ∧
    ¬ (s.resource.queue.queueToSave.length < maxQueueSize ∧
        (∃ value, .asleep (.push value) ∈ s.threads) ∧
        .notifying .pop ∉ s.threads ∧ ∀ value, .woken (.push value) ∉ s.threads) := by
  intro s
  have answered := Monitor.asleep_answered supply
    (⟨.empty, [], []⟩ : QueueHistory α maxQueueSize) threads actions
  constructor
  · rintro ⟨nonempty, asleep, unsent, unwoken⟩
    rcases answered .pop asleep (List.length_pos_iff.mpr nonempty) with
      ⟨other, sent, same⟩ | ⟨other, woken, same⟩
    · cases other with
      | push value => exact unsent value sent
      | pop => cases same
    · cases other with
      | push value => cases same
      | pop => exact unwoken woken
  · rintro ⟨room, ⟨value, asleep⟩, unsent, unwoken⟩
    rcases answered (.push value) asleep (Nat.sub_pos_of_lt room) with
      ⟨other, sent, same⟩ | ⟨other, woken, same⟩
    · cases other with
      | push other => cases same
      | pop => exact unsent sent
    · cases other with
      | push other => exact unwoken other woken
      | pop => cases same

/-- A pop that comes first sleeps until the push has notified. -/
example : (afterSteps Nat 1 2 [.call 0 .pop, .lock 0, .call 1 (.push 5), .lock 1, .notify 1 0,
    .lock 0]).resource.popped = [5] := rfl

end SafeQueue

end KafkaReplication
