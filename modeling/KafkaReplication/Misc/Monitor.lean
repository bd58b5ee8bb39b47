import KafkaReplication.Misc.Run

/-!
# Monitors: a mutex, condition variables and any number of threads

Every operation locks the mutex, waits on its condition variable until its condition holds,
changes the resource, unlocks, and then notifies one thread on some condition variable. What
happens under the mutex is one step; a notification and a spurious wake-up are steps of
their own, so that other threads may run in between.

`Monitor.run_resource` is the rule for invariants of the resource. `Monitor.asleep_answered` says
when no wake-up is lost: it suffices to measure, for each condition variable, how many more
calls that wait on it could proceed, such that a call that proceeds spends one and supplies at
most one where it notifies.
-/

namespace KafkaReplication.Misc

/-- Where a thread is with an operation it has called. -/
inductive Thread (κ : Type) where
  | outside
  /-- In front of the mutex. -/
  | entering (call : κ)
  | asleep (call : κ)
  /-- Woken, and about to lock the mutex and check its condition again. -/
  | woken (call : κ)
  /-- The mutex is unlocked, the notification is not sent. -/
  | notifying (call : κ)

/-- The operations `κ` on a resource `ρ`, with condition variables `ν`. -/
structure Monitor (ρ κ ν : Type) where
  /-- The resource behind a call whose condition holds. -/
  attempt : κ → ρ → Option ρ
  waitsOn : κ → ν
  notifies : κ → ν

namespace Monitor

variable {ρ κ ν : Type}

structure State (ρ κ : Type) where
  resource : ρ
  threads : List (Thread κ)

/-- What the scheduler can choose. A choice that is not possible changes nothing. -/
inductive Action (κ : Type) where
  | call (thread : Nat) (call : κ)
  | lock (thread : Nat)
  /-- `woken` is the sleeping thread that is chosen, if there is one. -/
  | notify (thread woken : Nat)
  | spurious (thread : Nat)

/-- All threads outside. -/
def start (resource : ρ) (count : Nat) : State ρ κ := ⟨resource, List.replicate count .outside⟩

section Steps

variable [DecidableEq ν] (monitor : Monitor ρ κ ν)

def sleepsOn (cond : ν) : Thread κ → Bool
  | .asleep call => monitor.waitsOn call = cond
  | _ => false

def wokenOn (cond : ν) : Thread κ → Bool
  | .woken call => monitor.waitsOn call = cond
  | _ => false

def notifiesOn (cond : ν) : Thread κ → Bool
  | .notifying call => monitor.notifies call = cond
  | _ => false

/-- A thread with the mutex either gets through and unlocks or goes to sleep, which unlocks too. -/
def critical (thread : Nat) (call : κ) (s : State ρ κ) : State ρ κ :=
  match monitor.attempt call s.resource with
  | some resource => ⟨resource, s.threads.set thread (.notifying call)⟩
  | none => ⟨s.resource, s.threads.set thread (.asleep call)⟩

/-- `notify_one` wakes one thread if one is asleep on the condition variable. -/
def notifyOne (thread chosen : Nat) (call : κ) (s : State ρ κ) : State ρ κ :=
  match s.threads[chosen]? with
  | some (.asleep sleeper) =>
      if monitor.waitsOn sleeper = monitor.notifies call then
        ⟨s.resource, (s.threads.set thread .outside).set chosen (.woken sleeper)⟩
      else if s.threads.any (monitor.sleepsOn (monitor.notifies call)) then s
      else ⟨s.resource, s.threads.set thread .outside⟩
  | _ =>
      if s.threads.any (monitor.sleepsOn (monitor.notifies call)) then s
      else ⟨s.resource, s.threads.set thread .outside⟩

def step (s : State ρ κ) : Action κ → State ρ κ
  | .call thread call =>
      match s.threads[thread]? with
      | some .outside => ⟨s.resource, s.threads.set thread (.entering call)⟩
      | _ => s
  | .lock thread =>
      match s.threads[thread]? with
      | some (.entering call) | some (.woken call) => monitor.critical thread call s
      | _ => s
  | .notify thread chosen =>
      match s.threads[thread]? with
      | some (.notifying call) => monitor.notifyOne thread chosen call s
      | _ => s
  | .spurious thread =>
      match s.threads[thread]? with
      | some (.asleep call) => ⟨s.resource, s.threads.set thread (.woken call)⟩
      | _ => s

/-- All that one step can do. -/
inductive Stepped (s : State ρ κ) : State ρ κ → Prop
  | stays : Stepped s s
  | calls {thread : Nat} {call : κ} (found : s.threads[thread]? = some .outside) :
      Stepped s ⟨s.resource, s.threads.set thread (.entering call)⟩
  | proceeds {thread : Nat} {call : κ} {old : Thread κ} {resource : ρ}
      (found : s.threads[thread]? = some old) (ready : old = .entering call ∨ old = .woken call)
      (got : monitor.attempt call s.resource = some resource) :
      Stepped s ⟨resource, s.threads.set thread (.notifying call)⟩
  | waits {thread : Nat} {call : κ} {old : Thread κ}
      (found : s.threads[thread]? = some old) (ready : old = .entering call ∨ old = .woken call)
      (failed : monitor.attempt call s.resource = none) :
      Stepped s ⟨s.resource, s.threads.set thread (.asleep call)⟩
  | wakes {thread chosen : Nat} {call sleeper : κ}
      (found : s.threads[thread]? = some (.notifying call))
      (sleeps : s.threads[chosen]? = some (.asleep sleeper))
      (same : monitor.waitsOn sleeper = monitor.notifies call) :
      Stepped s ⟨s.resource, (s.threads.set thread .outside).set chosen (.woken sleeper)⟩
  | nobody {thread : Nat} {call : κ} (found : s.threads[thread]? = some (.notifying call))
      (awake : s.threads.countP (monitor.sleepsOn (monitor.notifies call)) = 0) :
      Stepped s ⟨s.resource, s.threads.set thread .outside⟩
  | spurious {thread : Nat} {call : κ} (found : s.threads[thread]? = some (.asleep call)) :
      Stepped s ⟨s.resource, s.threads.set thread (.woken call)⟩

variable {monitor}

theorem critical_stepped {s : State ρ κ} {thread : Nat} {call : κ} {old : Thread κ}
    (found : s.threads[thread]? = some old) (ready : old = .entering call ∨ old = .woken call) :
    Stepped monitor s (monitor.critical thread call s) := by
  unfold critical
  cases outcome : monitor.attempt call s.resource with
  | some resource => exact .proceeds found ready outcome
  | none => exact .waits found ready outcome

theorem unheard_stepped {s : State ρ κ} {thread : Nat} {call : κ}
    (found : s.threads[thread]? = some (.notifying call)) :
    Stepped monitor s
      (if s.threads.any (monitor.sleepsOn (monitor.notifies call)) then s
        else ⟨s.resource, s.threads.set thread .outside⟩) := by
  by_cases someone : s.threads.any (monitor.sleepsOn (monitor.notifies call)) = true
  · rw [if_pos someone]
    exact .stays
  · rw [if_neg someone]
    apply Stepped.nobody found
    rw [List.countP_eq_zero]
    simpa using someone

theorem notifyOne_stepped {s : State ρ κ} {thread chosen : Nat} {call : κ}
    (found : s.threads[thread]? = some (.notifying call)) :
    Stepped monitor s (monitor.notifyOne thread chosen call s) := by
  unfold notifyOne
  split
  · rename_i sleeper sleeps
    by_cases same : monitor.waitsOn sleeper = monitor.notifies call
    · rw [if_pos same]
      exact .wakes found sleeps same
    · rw [if_neg same]
      exact unheard_stepped found
  · exact unheard_stepped found

theorem step_stepped (monitor : Monitor ρ κ ν) (s : State ρ κ) (action : Action κ) :
    Stepped monitor s (monitor.step s action) := by
  cases action with
  | call thread call =>
    simp only [step]
    split
    · rename_i found
      exact .calls found
    · exact .stays
  | lock thread =>
    simp only [step]
    split
    · rename_i call found
      exact critical_stepped found (.inl rfl)
    · rename_i call found
      exact critical_stepped found (.inr rfl)
    · exact .stays
  | notify thread chosen =>
    simp only [step]
    split
    · rename_i call found
      exact notifyOne_stepped found
    · exact .stays
  | spurious thread =>
    simp only [step]
    split
    · rename_i call found
      exact .spurious found
    · exact .stays

end Steps

/-! ## Invariants of the resource -/

section Runs

variable [DecidableEq ν] {monitor : Monitor ρ κ ν}

/-- What every call that proceeds keeps holds of the resource in every reachable state. -/
theorem run_resource {Inv : ρ → Prop}
    (kept : ∀ call resource next, monitor.attempt call resource = some next →
      Inv resource → Inv next)
    {resource : ρ} (initial : Inv resource) (count : Nat) (actions : List (Action κ)) :
    Inv (runFrom monitor.step (start resource count) actions).resource := by
  have step_kept : ∀ (s : State ρ κ) (action : Action κ),
      Inv s.resource → Inv (monitor.step s action).resource := by
    intro s action inv
    have stepped := step_stepped monitor s action
    generalize monitor.step s action = next at stepped ⊢
    cases stepped with
    | proceeds found ready got => exact kept _ _ _ got inv
    | stays => exact inv
    | calls found => exact inv
    | waits found ready failed => exact inv
    | wakes found sleeps same => exact inv
    | nobody found awake => exact inv
    | spurious found => exact inv
  exact runFrom_invariant (σ := State ρ κ) step_kept initial actions

end Runs

/-! ## Lost wake-ups -/

section Wakeups

variable [DecidableEq ν] {monitor : Monitor ρ κ ν}

/-- One thread that moves changes a count by what it was and what it becomes. -/
theorem countP_set_add {threads : List (Thread κ)} {thread : Nat} {old : Thread κ}
    (found : threads[thread]? = some old) (new : Thread κ) (p : Thread κ → Bool) :
    (threads.set thread new).countP p + (p old).toNat = threads.countP p + (p new).toNat := by
  induction threads generalizing thread with
  | nil => cases found
  | cons head threads ih =>
    cases thread with
    | zero =>
      cases found
      cases was : p old <;> cases becomes : p new <;> simp [was, becomes]
    | succ thread =>
      have rest := ih found
      rw [List.set_cons_succ, List.countP_cons, List.countP_cons]
      omega

/-- How many more calls that wait on a condition variable could proceed. -/
structure Supply (monitor : Monitor ρ κ ν) where
  available : ν → ρ → Nat
  spends : ∀ call resource next, monitor.attempt call resource = some next →
    available (monitor.waitsOn call) next + 1 ≤ available (monitor.waitsOn call) resource
  supplies : ∀ call resource next, monitor.attempt call resource = some next → ∀ cond,
    available cond next ≤
      available cond resource + (decide (monitor.notifies call = cond)).toNat
  exhausted : ∀ call resource, monitor.attempt call resource = none →
    available (monitor.waitsOn call) resource = 0

variable (supply : Supply monitor)

/-- While a thread is asleep on the condition variable, every call that could proceed there is
matched by a notification to come or by a thread that is awake already. -/
def Covered (cond : ν) (s : State ρ κ) : Prop :=
  0 < s.threads.countP (monitor.sleepsOn cond) →
    supply.available cond s.resource ≤
      s.threads.countP (monitor.notifiesOn cond) + s.threads.countP (monitor.wokenOn cond)

variable {supply} {s : State ρ κ} {cond : ν}

/-- One thread moves: it must not fall asleep, and what it brings must match what it takes. -/
theorem Covered.move {thread : Nat} {old new : Thread κ} {resource : ρ}
    (covered : Covered supply cond s) (found : s.threads[thread]? = some old)
    (awake : (monitor.sleepsOn cond new).toNat ≤ (monitor.sleepsOn cond old).toNat)
    (matched : supply.available cond resource +
        ((monitor.notifiesOn cond old).toNat + (monitor.wokenOn cond old).toNat) ≤
      supply.available cond s.resource +
        ((monitor.notifiesOn cond new).toNat + (monitor.wokenOn cond new).toNat)) :
    Covered supply cond ⟨resource, s.threads.set thread new⟩ := by
  intro asleep
  have sleeping := countP_set_add found new (monitor.sleepsOn cond)
  have notifying := countP_set_add found new (monitor.notifiesOn cond)
  have woken := countP_set_add found new (monitor.wokenOn cond)
  simp only at asleep ⊢
  have before := covered (by omega)
  omega

theorem Covered.proceeds {thread : Nat} {call : κ} {old : Thread κ} {resource : ρ}
    (covered : Covered supply cond s) (found : s.threads[thread]? = some old)
    (ready : old = .entering call ∨ old = .woken call)
    (got : monitor.attempt call s.resource = some resource) :
    Covered supply cond ⟨resource, s.threads.set thread (.notifying call)⟩ := by
  have supplied := supply.supplies call _ _ got cond
  have spent := supply.spends call _ _ got
  apply covered.move found
  · exact Nat.zero_le _
  · by_cases own : monitor.waitsOn call = cond
    · subst own
      rcases ready with rfl | rfl <;> simp [notifiesOn, wokenOn] <;> omega
    · rcases ready with rfl | rfl <;> simp [notifiesOn, wokenOn, own] <;> simpa using supplied

theorem Covered.waits {thread : Nat} {call : κ} {old : Thread κ}
    (covered : Covered supply cond s) (found : s.threads[thread]? = some old)
    (ready : old = .entering call ∨ old = .woken call)
    (failed : monitor.attempt call s.resource = none) :
    Covered supply cond ⟨s.resource, s.threads.set thread (.asleep call)⟩ := by
  by_cases own : monitor.waitsOn call = cond
  · subst own
    intro _
    rw [supply.exhausted call s.resource failed]
    exact Nat.zero_le _
  · apply covered.move found
    · simp [sleepsOn, own]
    · rcases ready with rfl | rfl <;> simp [notifiesOn, wokenOn, own]

theorem Covered.wakes {thread chosen : Nat} {call sleeper : κ} (covered : Covered supply cond s)
    (found : s.threads[thread]? = some (.notifying call))
    (sleeps : s.threads[chosen]? = some (.asleep sleeper))
    (same : monitor.waitsOn sleeper = monitor.notifies call) :
    Covered supply cond
      ⟨s.resource, (s.threads.set thread .outside).set chosen (.woken sleeper)⟩ := by
  have apart : thread ≠ chosen := by
    rintro rfl
    rw [found] at sleeps
    cases sleeps
  have sleeps' : (s.threads.set thread .outside)[chosen]? = some (.asleep sleeper) := by
    rw [List.getElem?_set_ne apart, sleeps]
  intro asleep
  have sleeping := countP_set_add found .outside (monitor.sleepsOn cond)
  have sleeping' := countP_set_add sleeps' (.woken sleeper) (monitor.sleepsOn cond)
  have notifying := countP_set_add found .outside (monitor.notifiesOn cond)
  have notifying' := countP_set_add sleeps' (.woken sleeper) (monitor.notifiesOn cond)
  have woken := countP_set_add found .outside (monitor.wokenOn cond)
  have woken' := countP_set_add sleeps' (.woken sleeper) (monitor.wokenOn cond)
  simp only [sleepsOn, notifiesOn, wokenOn, same, Bool.toNat_false] at *
  have before := covered (by omega)
  omega

theorem Covered.step (covered : Covered supply cond s) (action : Action κ) :
    Covered supply cond (monitor.step s action) := by
  have stepped := step_stepped monitor s action
  generalize monitor.step s action = next at stepped ⊢
  cases stepped with
  | stays => exact covered
  | calls found => exact covered.move found (Nat.le_refl _) (Nat.le_refl _)
  | proceeds found ready got => exact covered.proceeds found ready got
  | waits found ready failed => exact covered.waits found ready failed
  | wakes found sleeps same => exact covered.wakes found sleeps same
  | @nobody thread call found nobody =>
    by_cases own : monitor.notifies call = cond
    · -- Nobody sleeps there, before and after.
      subst own
      intro asleep
      have sleeping := countP_set_add found .outside (monitor.sleepsOn (monitor.notifies call))
      simp only [sleepsOn] at *
      omega
    · apply covered.move found
      · exact Nat.le_refl _
      · simp [notifiesOn, wokenOn, own]
  | spurious found =>
    apply covered.move found
    · exact Nat.zero_le _
    · simp [notifiesOn, wokenOn]

theorem run_covered (supply : Supply monitor) (resource : ρ) (count : Nat)
    (actions : List (Action κ)) (cond : ν) :
    Covered supply cond (runFrom monitor.step (start resource count) actions) := by
  have kept : ∀ (s : State ρ κ) (action : Action κ), Covered supply cond s →
      Covered supply cond (monitor.step s action) := fun s action covered => covered.step action
  refine runFrom_invariant kept ?_ actions
  intro asleep
  have outside : (start resource count : State ρ κ).threads.countP (monitor.sleepsOn cond) = 0 := by
    simp [start, List.countP_replicate, sleepsOn]
  omega

/-- In every reachable state in which a thread is asleep and a call that waits like it could
proceed, a notification is to come for them, or a woken thread is about to look. -/
theorem asleep_answered (supply : Supply monitor) (resource : ρ) (count : Nat)
    (actions : List (Action κ)) :
    let s := runFrom monitor.step (start resource count) actions
    ∀ call, .asleep call ∈ s.threads →
      0 < supply.available (monitor.waitsOn call) s.resource →
        (∃ other, .notifying other ∈ s.threads ∧
          monitor.notifies other = monitor.waitsOn call) ∨
        ∃ other, .woken other ∈ s.threads ∧ monitor.waitsOn other = monitor.waitsOn call := by
  intro s call asleep available
  have sleeping : 0 < s.threads.countP (monitor.sleepsOn (monitor.waitsOn call)) :=
    List.countP_pos_iff.mpr ⟨_, asleep, by simp [sleepsOn]⟩
  have covered : supply.available (monitor.waitsOn call) s.resource ≤
      s.threads.countP (monitor.notifiesOn (monitor.waitsOn call)) +
        s.threads.countP (monitor.wokenOn (monitor.waitsOn call)) :=
    run_covered supply resource count actions _ sleeping
  have answered : 0 < s.threads.countP (monitor.notifiesOn (monitor.waitsOn call)) ∨
      0 < s.threads.countP (monitor.wokenOn (monitor.waitsOn call)) := by omega
  rcases answered with sent | woken
  · left
    obtain ⟨thread, mem, notifies⟩ := List.countP_pos_iff.mp sent
    cases thread with
    | notifying other => exact ⟨other, mem, by simpa [notifiesOn] using notifies⟩
    | outside => cases notifies
    | entering other => cases notifies
    | asleep other => cases notifies
    | woken other => cases notifies
  · right
    obtain ⟨thread, mem, wakes⟩ := List.countP_pos_iff.mp woken
    cases thread with
    | woken other => exact ⟨other, mem, by simpa [wokenOn] using wakes⟩
    | outside => cases wakes
    | entering other => cases wakes
    | asleep other => cases wakes
    | notifying other => cases wakes

end Wakeups

end Monitor

end KafkaReplication.Misc
