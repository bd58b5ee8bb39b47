import KafkaReplication.Misc.Monitor
import Mathlib.Algebra.BigOperators.Group.List.Basic
import Mathlib.Algebra.GroupWithZero.Nat

/-!
# Monitors that come to rest

When nobody calls any more, the threads that are under way lock and notify until none of them can
do anything: `Monitor.length_le_of_moves` bounds the number of these steps, by what is left and by
the spurious wake-ups. Then every thread is outside or asleep, and `Monitor.Quiet.exhausted` says
that no sleeper could proceed. `Monitor.Tally.run` counts what became of the calls.
-/

namespace KafkaReplication.Misc

/-- How many steps a thread can bring about by itself. A sleeper is woken by another one's step and
has one more then. -/
def Thread.left {κ : Type} : Thread κ → Nat
  | outside => 0
  | entering _ => 3
  | asleep _ => 2
  | woken _ => 3
  | notifying _ => 2

/-- A call of the kind `p` that has not proceeded. -/
def Thread.waits {κ : Type} (p : κ → Bool) : Thread κ → Bool
  | entering call => p call
  | asleep call => p call
  | woken call => p call
  | _ => false

namespace Monitor

variable {ρ κ ν : Type}

/-- A step of a thread that has called and is not asleep. -/
def Action.Internal : Action κ → Prop
  | .lock _ => True
  | .notify _ _ => True
  | _ => False

/-- A step that begins no call. -/
def Action.Continues : Action κ → Prop
  | .call _ _ => False
  | _ => True

def Action.isSpurious : Action κ → Bool
  | .spurious _ => true
  | _ => false

/-- The call that an action begins. -/
def State.takes (s : State ρ κ) : Action κ → Option κ
  | .call thread call =>
      match s.threads[thread]? with
      | some .outside => some call
      | _ => none
  | _ => none

def State.left (s : State ρ κ) : Nat := (s.threads.map Thread.left).sum

section Quiet

variable [DecidableEq ν] (monitor : Monitor ρ κ ν)

/-- The calls that the actions begin. -/
def taken : State ρ κ → List (Action κ) → List κ
  | _, [] => []
  | s, action :: actions => (s.takes action).toList ++ taken (monitor.step s action) actions

/-- No thread that is under way can do anything. -/
def Quiet (s : State ρ κ) : Prop := ∀ action : Action κ, action.Internal → monitor.step s action = s

/-- All that a step of a thread that is under way can do. -/
inductive Moved (s : State ρ κ) : State ρ κ → Prop
  | stays : Moved s s
  | proceeds {thread : Nat} {call : κ} {old : Thread κ} {resource : ρ}
      (found : s.threads[thread]? = some old) (ready : old = .entering call ∨ old = .woken call)
      (got : monitor.attempt call s.resource = some resource) :
      Moved s ⟨resource, s.threads.set thread (.notifying call)⟩
  | waits {thread : Nat} {call : κ} {old : Thread κ}
      (found : s.threads[thread]? = some old) (ready : old = .entering call ∨ old = .woken call) :
      Moved s ⟨s.resource, s.threads.set thread (.asleep call)⟩
  | wakes {thread chosen : Nat} {call sleeper : κ}
      (found : s.threads[thread]? = some (.notifying call))
      (sleeps : s.threads[chosen]? = some (.asleep sleeper)) :
      Moved s ⟨s.resource, (s.threads.set thread .outside).set chosen (.woken sleeper)⟩
  | nobody {thread : Nat} {call : κ} (found : s.threads[thread]? = some (.notifying call)) :
      Moved s ⟨s.resource, s.threads.set thread .outside⟩

variable {monitor} {s : State ρ κ}

omit [DecidableEq ν] in
theorem critical_moved {thread : Nat} {call : κ} {old : Thread κ}
    (found : s.threads[thread]? = some old) (ready : old = .entering call ∨ old = .woken call) :
    Moved monitor s (monitor.critical thread call s) := by
  unfold critical
  cases outcome : monitor.attempt call s.resource with
  | some resource => exact .proceeds found ready outcome
  | none => exact .waits found ready

theorem notifyOne_moved {thread chosen : Nat} {call : κ}
    (found : s.threads[thread]? = some (.notifying call)) :
    Moved monitor s (monitor.notifyOne thread chosen call s) := by
  have unheard : Moved monitor s
      (if s.threads.any (monitor.sleepsOn (monitor.notifies call)) then s
        else ⟨s.resource, s.threads.set thread .outside⟩) := by
    split
    · exact .stays
    · exact .nobody found
  unfold notifyOne
  split
  · rename_i sleeper sleeps
    split
    · exact .wakes found sleeps
    · exact unheard
  · exact unheard

theorem step_moved (monitor : Monitor ρ κ ν) (s : State ρ κ) {action : Action κ}
    (internal : action.Internal) :
    Moved monitor s (monitor.step s action) := by
  cases action with
  | call thread call => exact internal.elim
  | spurious thread => exact internal.elim
  | lock thread =>
    simp only [step]
    split
    · rename_i call found
      exact critical_moved found (.inl rfl)
    · rename_i call found
      exact critical_moved found (.inr rfl)
    · exact .stays
  | notify thread chosen =>
    simp only [step]
    split
    · rename_i call found
      exact notifyOne_moved found
    · exact .stays

/-! ## The steps come to an end -/

/-- One thread that moves changes the sum by what it was and what it becomes. -/
theorem sum_left_set {threads : List (Thread κ)} {thread : Nat} {old : Thread κ}
    (found : threads[thread]? = some old) (new : Thread κ) :
    ((threads.set thread new).map Thread.left).sum + old.left =
      (threads.map Thread.left).sum + new.left := by
  induction threads generalizing thread with
  | nil => cases found
  | cons head threads ih =>
    cases thread with
    | zero =>
      cases found
      simp only [List.set_cons_zero, List.map_cons, List.sum_cons]
      omega
    | succ thread =>
      have rest := ih found
      simp only [List.set_cons_succ, List.map_cons, List.sum_cons]
      omega

theorem left_le (s : State ρ κ) : s.left ≤ 3 * s.threads.length := by
  unfold State.left
  induction s.threads with
  | nil => exact Nat.le_refl _
  | cons thread threads ih =>
    have first : thread.left ≤ 3 := by
      cases thread <;> simp [Thread.left]
    rw [List.map_cons, List.sum_cons, List.length_cons]
    omega

theorem apart_of_found {thread chosen : Nat} {call sleeper : κ}
    (found : s.threads[thread]? = some (.notifying call))
    (sleeps : s.threads[chosen]? = some (.asleep sleeper)) :
    (s.threads.set thread .outside)[chosen]? = some (.asleep sleeper) := by
  have apart : thread ≠ chosen := by
    rintro rfl
    rw [found] at sleeps
    cases sleeps
  rw [List.getElem?_set_ne apart, sleeps]

theorem ready_left {call : κ} {old : Thread κ}
    (ready : old = .entering call ∨ old = .woken call) : old.left = 3 := by
  rcases ready with rfl | rfl <;> rfl

omit [DecidableEq ν] in
theorem Moved.left_lt {next : State ρ κ} (moved : Moved monitor s next) :
    next = s ∨ next.left < s.left := by
  cases moved with
  | stays => exact .inl rfl
  | @proceeds thread call old resource found ready got =>
    right
    have sum := sum_left_set found (.notifying call)
    rw [ready_left ready] at sum
    simp only [State.left, Thread.left] at *
    omega
  | @waits thread call old found ready =>
    right
    have sum := sum_left_set found (.asleep call)
    rw [ready_left ready] at sum
    simp only [State.left, Thread.left] at *
    omega
  | @wakes thread chosen call sleeper found sleeps =>
    right
    have goes := sum_left_set found .outside
    have wakes := sum_left_set (apart_of_found found sleeps) (.woken sleeper)
    simp only [State.left, Thread.left] at *
    omega
  | nobody found =>
    right
    have sum := sum_left_set found .outside
    simp only [State.left, Thread.left] at *
    omega

/-- A sleeper that wakes up has one step more than he had. -/
theorem spurious_left (s : State ρ κ) (thread : Nat) :
    (monitor.step s (.spurious thread)).left ≤ s.left + 1 := by
  simp only [step]
  split
  · rename_i call found
    have sum := sum_left_set found (.woken call)
    simp only [State.left, Thread.left] at *
    omega
  · exact Nat.le_succ _

/-- Each step that changes anything is one fewer to come, but for the spurious wake-ups. -/
theorem length_le_of_moves {actions : List (Action κ)}
    (continues : ∀ action ∈ actions, action.Continues)
    (moves : Always monitor.step (fun s action => monitor.step s action ≠ s) s actions) :
    actions.length ≤ s.left + 2 * actions.countP Action.isSpurious := by
  induction actions generalizing s with
  | nil => exact Nat.zero_le _
  | cons action actions ih =>
    have rest := ih (fun other mem => continues other (List.mem_cons_of_mem _ mem)) moves.2
    have internal_case (internal : action.Internal) (calm : action.isSpurious = false) :
        (action :: actions).length ≤
          s.left + 2 * (action :: actions).countP Action.isSpurious := by
      rcases (step_moved monitor s internal).left_lt with same | lower
      · exact absurd same moves.1
      · rw [List.length_cons, List.countP_cons, calm]
        simp only [Bool.false_eq_true, if_false]
        omega
    cases action with
    | call thread call => exact (continues _ List.mem_cons_self).elim
    | lock thread => exact internal_case trivial rfl
    | notify thread chosen => exact internal_case trivial rfl
    | spurious thread =>
      have more : (monitor.step s (.spurious thread)).left ≤ s.left + 1 := spurious_left s thread
      have one : (Action.spurious thread : Action κ).isSpurious = true := rfl
      rw [List.length_cons, List.countP_cons, if_pos one]
      omega

/-- From every state the threads can come to rest by themselves. -/
theorem exists_quiet (monitor : Monitor ρ κ ν) (s : State ρ κ) :
    ∃ later : List (Action κ), (∀ action ∈ later, action.Internal) ∧ later.length ≤ s.left ∧
      Quiet monitor (runFrom monitor.step s later) := by
  induction left : s.left using Nat.strongRecOn generalizing s with
  | ind left_ ih =>
    by_cases quiet : Quiet monitor s
    · exact ⟨[], List.forall_mem_nil _, Nat.zero_le _, quiet⟩
    · obtain ⟨action, notQuiet⟩ := not_forall.mp quiet
      obtain ⟨internal, moves⟩ := Classical.not_imp.mp notQuiet
      rcases (step_moved monitor s internal).left_lt with same | lower
      · exact absurd same moves
      · obtain ⟨later, internals, short, atRest⟩ :=
          ih _ (left ▸ lower) (monitor.step s action) rfl
        refine ⟨action :: later, ?_, ?_, atRest⟩
        · intro other mem
          rcases List.mem_cons.mp mem with rfl | rest
          · exact internal
          · exact internals other rest
        · rw [List.length_cons]
          omega

theorem step_length (s : State ρ κ) (action : Action κ) :
    (monitor.step s action).threads.length = s.threads.length := by
  have stepped := step_stepped monitor s action
  generalize monitor.step s action = next at stepped ⊢
  cases stepped <;> simp only [List.length_set]

theorem run_length (resource : ρ) (count : Nat) (actions : List (Action κ)) :
    (runFrom monitor.step (start resource count) actions).threads.length = count := by
  have kept : ∀ (s : State ρ κ) (action : Action κ), s.threads.length = count →
      (monitor.step s action).threads.length = count := by
    intro s action length
    rw [step_length, length]
  exact runFrom_invariant kept List.length_replicate actions

/-! ## At rest -/

/-- A thread in front of the mutex can always go on. -/
theorem lock_left {thread : Nat} {call : κ} {old : Thread κ}
    (found : s.threads[thread]? = some old) (ready : old = .entering call ∨ old = .woken call) :
    monitor.step s (.lock thread) ≠ s := by
  have becomes : monitor.step s (.lock thread) = monitor.critical thread call s := by
    rcases ready with rfl | rfl <;> simp only [step, found]
  have within := (List.getElem?_eq_some_iff.mp found).1
  intro same
  rw [becomes] at same
  have here := congrArg (fun s => s.threads[thread]?) same
  unfold critical at here
  cases outcome : monitor.attempt call s.resource with
  | some resource =>
    simp only [outcome, List.getElem?_set_self within, found] at here
    rcases ready with rfl | rfl <;> cases here
  | none =>
    simp only [outcome, List.getElem?_set_self within, found] at here
    rcases ready with rfl | rfl <;> cases here

/-- A notification can always be sent, to some thread or to none. -/
theorem exists_notify {thread : Nat} {call : κ}
    (found : s.threads[thread]? = some (.notifying call)) :
    ∃ chosen, monitor.step s (.notify thread chosen) ≠ s := by
  have within := (List.getElem?_eq_some_iff.mp found).1
  have outside_ne {next : State ρ κ} (here : next.threads[thread]? = some .outside) :
      next ≠ s := by
    rintro rfl
    rw [found] at here
    cases here
  by_cases someone : s.threads.any (monitor.sleepsOn (monitor.notifies call)) = true
  · obtain ⟨sleeper, mem, sleeps⟩ := List.any_eq_true.mp someone
    obtain ⟨chosen, there⟩ := List.getElem?_of_mem mem
    refine ⟨chosen, ?_⟩
    cases sleeper with
    | asleep other =>
      have same : monitor.waitsOn other = monitor.notifies call := by
        simpa [sleepsOn] using sleeps
      have apart : chosen ≠ thread := by
        rintro rfl
        rw [found] at there
        cases there
      apply outside_ne
      simp only [step, found, notifyOne, there, if_pos same]
      rw [List.getElem?_set_ne apart, List.getElem?_set_self within]
    | outside => cases sleeps
    | entering other => cases sleeps
    | woken other => cases sleeps
    | notifying other => cases sleeps
  · refine ⟨thread, ?_⟩
    apply outside_ne
    simp only [step, found, notifyOne, if_neg someone]
    exact List.getElem?_set_self within

/-- At rest every thread is outside or asleep. -/
theorem Quiet.resting (quiet : Quiet monitor s) {thread : Thread κ} (mem : thread ∈ s.threads) :
    thread = .outside ∨ ∃ call, thread = .asleep call := by
  obtain ⟨number, found⟩ := List.getElem?_of_mem mem
  cases thread with
  | outside => exact .inl rfl
  | asleep call => exact .inr ⟨call, rfl⟩
  | entering call => exact absurd (quiet (.lock number) trivial) (lock_left found (.inl rfl))
  | woken call => exact absurd (quiet (.lock number) trivial) (lock_left found (.inr rfl))
  | notifying call =>
    obtain ⟨chosen, moves⟩ : ∃ chosen, monitor.step s (.notify number chosen) ≠ s :=
      exists_notify found
    exact absurd (quiet (.notify number chosen) trivial) moves

/-- Threads that are outside or asleep do nothing. -/
theorem quiet_of_resting
    (resting : ∀ thread ∈ s.threads, thread = .outside ∨ ∃ call, thread = .asleep call) :
    Quiet monitor s := by
  intro action internal
  cases action with
  | call thread call => exact internal.elim
  | spurious thread => exact internal.elim
  | lock thread =>
    cases found : s.threads[thread]? with
    | none => simp only [step, found]
    | some old =>
      rcases resting old (List.mem_of_getElem? found) with rfl | ⟨call, rfl⟩ <;>
        simp only [step, found]
  | notify thread chosen =>
    cases found : s.threads[thread]? with
    | none => simp only [step, found]
    | some old =>
      rcases resting old (List.mem_of_getElem? found) with rfl | ⟨call, rfl⟩ <;>
        simp only [step, found]

/-- At rest no sleeper could proceed. -/
theorem Quiet.exhausted (supply : Supply monitor) {resource : ρ} {count : Nat}
    {actions : List (Action κ)}
    (quiet : Quiet monitor (runFrom monitor.step (start resource count) actions)) {call : κ}
    (asleep : .asleep call ∈ (runFrom monitor.step (start resource count) actions).threads) :
    supply.available (monitor.waitsOn call)
      (runFrom monitor.step (start resource count) actions).resource = 0 := by
  by_contra available
  rcases asleep_answered supply resource count actions call asleep (Nat.pos_of_ne_zero available)
    with ⟨other, sent, -⟩ | ⟨other, woken, -⟩
  · rcases quiet.resting sent with impossible | ⟨call, impossible⟩ <;> cases impossible
  · rcases quiet.resting woken with impossible | ⟨call, impossible⟩ <;> cases impossible

/-! ## What became of the calls -/

theorem call_cases (monitor : Monitor ρ κ ν) (s : State ρ κ) (thread : Nat) (call : κ) :
    (s.threads[thread]? = some .outside ∧ s.takes (.call thread call) = some call ∧
      monitor.step s (.call thread call) =
        ⟨s.resource, s.threads.set thread (.entering call)⟩) ∨
      s.takes (.call thread call) = none ∧ monitor.step s (.call thread call) = s := by
  cases found : s.threads[thread]? with
  | none => exact .inr ⟨by simp only [State.takes, found], by simp only [step, found]⟩
  | some old =>
    cases old with
    | outside =>
      exact .inl ⟨rfl, by simp only [State.takes, found], by simp only [step, found]⟩
    | entering _ => exact .inr ⟨by simp only [State.takes, found], by simp only [step, found]⟩
    | asleep _ => exact .inr ⟨by simp only [State.takes, found], by simp only [step, found]⟩
    | woken _ => exact .inr ⟨by simp only [State.takes, found], by simp only [step, found]⟩
    | notifying _ => exact .inr ⟨by simp only [State.takes, found], by simp only [step, found]⟩

/-- A count of the calls of a kind that have proceeded. -/
structure Tally (monitor : Monitor ρ κ ν) (p : κ → Bool) where
  done : ρ → Nat
  counts : ∀ call resource next, monitor.attempt call resource = some next →
    done next = done resource + (p call).toNat

namespace Tally

variable {p : κ → Bool} (tally : Tally monitor p)

/-- The calls that have proceeded and those that have not. -/
def all (s : State ρ κ) : Nat := tally.done s.resource + s.threads.countP (Thread.waits p)

theorem waits_ready {call : κ} {old : Thread κ}
    (ready : old = .entering call ∨ old = .woken call) : old.waits p = p call := by
  rcases ready with rfl | rfl <;> rfl

omit [DecidableEq ν] in
theorem moved {next : State ρ κ} (moved : Moved monitor s next) : tally.all next = tally.all s := by
  unfold all
  cases moved with
  | stays => rfl
  | @proceeds thread call old resource found ready got =>
    have counted := countP_set_add found (.notifying call) (Thread.waits p)
    rw [waits_ready ready] at counted
    have goes := tally.counts call _ _ got
    simp only [Thread.waits, Bool.toNat_false] at *
    omega
  | @waits thread call old found ready =>
    have counted := countP_set_add found (.asleep call) (Thread.waits p)
    rw [waits_ready ready] at counted
    simp only [Thread.waits] at *
    omega
  | @wakes thread chosen call sleeper found sleeps =>
    have goes := countP_set_add found .outside (Thread.waits p)
    have wakes := countP_set_add (apart_of_found found sleeps) (.woken sleeper) (Thread.waits p)
    simp only [Thread.waits, Bool.toNat_false] at *
    omega
  | nobody found =>
    have goes := countP_set_add found .outside (Thread.waits p)
    simp only [Thread.waits, Bool.toNat_false] at *
    omega

theorem step (s : State ρ κ) (action : Action κ) :
    tally.all (monitor.step s action) = tally.all s + (s.takes action).toList.countP p := by
  cases action with
  | lock thread => exact tally.moved (step_moved monitor s trivial)
  | notify thread chosen => exact tally.moved (step_moved monitor s trivial)
  | spurious thread =>
    unfold all
    simp only [Monitor.step]
    split
    · rename_i call found
      have wakes := countP_set_add found (.woken call) (Thread.waits p)
      simp only [Thread.waits, State.takes, Option.toList, List.countP_nil] at *
      omega
    · rfl
  | call thread call =>
    rcases call_cases monitor s thread call with ⟨found, takes, becomes⟩ | ⟨takes, becomes⟩
    · have enters := countP_set_add found (.entering call) (Thread.waits p)
      rw [takes, becomes, Option.toList, List.countP_singleton]
      simp only [all, Thread.waits, Bool.toNat_false] at *
      cases isKind : p call <;> simp [isKind] at * <;> omega
    · rw [takes, becomes]
      rfl

/-- Every call that was begun has proceeded or has not. -/
theorem run (s : State ρ κ) (actions : List (Action κ)) :
    tally.all (runFrom monitor.step s actions) =
      tally.all s + (monitor.taken s actions).countP p := by
  induction actions generalizing s with
  | nil => rfl
  | cons action actions ih =>
    rw [taken, List.countP_append, ← Nat.add_assoc, ← tally.step]
    exact ih _

theorem run_start (resource : ρ) (count : Nat) (actions : List (Action κ))
    (nothing : tally.done resource = 0) :
    tally.all (runFrom monitor.step (start resource count) actions) =
      (monitor.taken (start resource count) actions).countP p := by
  have nobody : (start resource count : State ρ κ).threads.countP (Thread.waits p) = 0 := by
    simp [start, List.countP_replicate, Thread.waits]
  rw [tally.run, all, nobody]
  show tally.done resource + 0 + _ = _
  rw [nothing, Nat.zero_add]

end Tally

end Quiet

end Monitor

end KafkaReplication.Misc
