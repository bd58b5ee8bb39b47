import Mathlib.Data.List.Basic

/-!
# `SafeQueue`

`consumer_bo/safe_queue.h:9-44`: what the critical sections of `push` and `pop` do to the
queue. A caller whose condition does not hold waits, which is `none` here.
-/

namespace KafkaReplication

/-- The queue of a `SafeQueue<T>`, never longer than `max_queue_size_`. -/
structure SafeQueue (α : Type) (maxQueueSize : Nat) where
  queueToSave : List α
  size_le : queueToSave.length ≤ maxQueueSize

namespace SafeQueue

variable {α : Type} {maxQueueSize : Nat}

/-- `SafeQueue(size_t max_size)`. -/
def empty : SafeQueue α maxQueueSize := ⟨[], Nat.zero_le _⟩

/-- `push` (`safe_queue.h:15-23`) waits for a free place. -/
def push (value : α) (queue : SafeQueue α maxQueueSize) : Option (SafeQueue α maxQueueSize) :=
  if room : queue.queueToSave.length < maxQueueSize then
    some ⟨queue.queueToSave ++ [value], by
      rw [List.length_append, List.length_singleton]
      exact room⟩
  else none

/-- `pop` (`safe_queue.h:25-36`) waits for a value. -/
def pop (queue : SafeQueue α maxQueueSize) : Option (α × SafeQueue α maxQueueSize) :=
  match found : queue.queueToSave with
  | [] => none
  | value :: rest => some (value, ⟨rest, by
      have size := queue.size_le
      rw [found, List.length_cons] at size
      omega⟩)

/-- A `push` that does not wait appends its value. -/
theorem push_eq_some {value : α} {queue next : SafeQueue α maxQueueSize}
    (pushed : queue.push value = some next) : next.queueToSave = queue.queueToSave ++ [value] := by
  unfold push at pushed
  split at pushed
  · cases pushed
    rfl
  · cases pushed

/-- A `pop` that does not wait takes the oldest value. -/
theorem pop_eq_some {value : α} {queue next : SafeQueue α maxQueueSize}
    (popped : queue.pop = some (value, next)) : queue.queueToSave = value :: next.queueToSave := by
  unfold pop at popped
  split at popped
  · cases popped
  · rename_i found
    cases popped
    exact found

/-- A `push` waits only on a full queue. -/
theorem push_eq_none {value : α} {queue : SafeQueue α maxQueueSize}
    (waits : queue.push value = none) : queue.queueToSave.length = maxQueueSize := by
  have size := queue.size_le
  unfold push at waits
  split at waits
  · cases waits
  · omega

/-- A `pop` waits only on an empty queue. -/
theorem pop_eq_none {queue : SafeQueue α maxQueueSize} (waits : queue.pop = none) :
    queue.queueToSave = [] := by
  unfold pop at waits
  split at waits
  · assumption
  · cases waits

end SafeQueue

end KafkaReplication
