import KafkaReplication.Misc.Run

/-!
# Fair rounds

The threads of a machine take turns in any order, but every thread has its turn in each round.
A thread whose turn is of use stays so until the work that is left falls, so that each round does
a part of the work: `Progress.rounds` says how much is left after any number of them.
-/

namespace KafkaReplication.Misc

section Append

variable {σ ι : Type} {step : σ → ι → σ} {P : σ → ι → Prop}

theorem runFrom_append (s : σ) (inputs others : List ι) :
    runFrom step s (inputs ++ others) = runFrom step (runFrom step s inputs) others :=
  List.foldl_append

theorem Always.append {s : σ} {inputs others : List ι} (first : Always step P s inputs)
    (rest : Always step P (runFrom step s inputs) others) :
    Always step P s (inputs ++ others) := by
  induction inputs generalizing s with
  | nil => exact rest
  | cons input inputs ih => exact ⟨first.1, ih first.2 rest⟩

end Append

/-- A measure of the work that is left. A turn that is of use lowers it, no allowed step raises
it, and one that leaves it alone takes no thread's turn from it. -/
structure Progress {σ ι : Type} (step : σ → ι → σ) (threads : List ι) (Inv : σ → Prop)
    (Allowed : ι → Prop) where
  work : σ → Nat
  Useful : σ → ι → Prop
  kept : ∀ s input, Inv s → Allowed input → Inv (step s input)
  lowers : ∀ s thread, Inv s → Useful s thread → work (step s thread) < work s
  stays : ∀ s input, Inv s → Allowed input →
    work (step s input) < work s ∨
      work (step s input) = work s ∧ ∀ thread, Useful s thread → Useful (step s input) thread
  someone : ∀ s, Inv s → 0 < work s → ∃ thread ∈ threads, Useful s thread

/-- Every thread has its turn, and nothing happens that is not allowed. -/
def FairRound {ι : Type} (threads : List ι) (Allowed : ι → Prop) (round : List ι) : Prop :=
  threads ⊆ round ∧ ∀ input ∈ round, Allowed input

namespace Progress

variable {σ ι : Type} {step : σ → ι → σ} {threads : List ι} {Inv : σ → Prop}
  {Allowed : ι → Prop} {s : σ}

theorem kept_run (progress : Progress step threads Inv Allowed) (inv : Inv s)
    {inputs : List ι} (allowed : ∀ input ∈ inputs, Allowed input) :
    Inv (runFrom step s inputs) := by
  induction inputs generalizing s with
  | nil => exact inv
  | cons input inputs ih =>
    have first := progress.kept s input inv (allowed input List.mem_cons_self)
    exact ih first fun other mem => allowed other (List.mem_cons_of_mem _ mem)

variable (progress : Progress step threads Inv Allowed)

theorem work_le (inv : Inv s) {inputs : List ι} (allowed : ∀ input ∈ inputs, Allowed input) :
    progress.work (runFrom step s inputs) ≤ progress.work s := by
  induction inputs generalizing s with
  | nil => exact Nat.le_refl _
  | cons input inputs ih =>
    have here := allowed input List.mem_cons_self
    have rest := ih (progress.kept s input inv here)
      fun other mem => allowed other (List.mem_cons_of_mem _ mem)
    rcases progress.stays s input inv here with lower | ⟨same, -⟩
    · exact Nat.le_trans rest (Nat.le_of_lt lower)
    · exact Nat.le_trans rest (Nat.le_of_eq same)

/-- The thread whose turn is of use has it somewhere in the round, if nothing is done before. -/
theorem useful_run {thread : ι} (inv : Inv s) (useful : progress.Useful s thread)
    {inputs : List ι} (turn : thread ∈ inputs) (allowed : ∀ input ∈ inputs, Allowed input) :
    progress.work (runFrom step s inputs) < progress.work s := by
  induction inputs generalizing s with
  | nil => cases turn
  | cons input inputs ih =>
    have here := allowed input List.mem_cons_self
    have others : ∀ other ∈ inputs, Allowed other :=
      fun other mem => allowed other (List.mem_cons_of_mem _ mem)
    have next := progress.kept s input inv here
    rcases progress.stays s input inv here with lower | ⟨same, still⟩
    · exact Nat.lt_of_le_of_lt (progress.work_le next others) lower
    · rcases List.mem_cons.mp turn with now | later
      · have lower := progress.lowers s thread inv useful
        rw [now] at lower
        exact Nat.lt_of_le_of_lt (progress.work_le next others) lower
      · have rest := ih next (still thread useful) later others
        rw [same] at rest
        exact rest

theorem round (inv : Inv s) {inputs : List ι} (fair : FairRound threads Allowed inputs) :
    progress.work (runFrom step s inputs) ≤ progress.work s - 1 := by
  rcases Nat.eq_zero_or_pos (progress.work s) with done | left
  · have least := progress.work_le inv fair.2
    omega
  · obtain ⟨thread, mem, useful⟩ := progress.someone s inv left
    have lower := progress.useful_run inv useful (fair.1 mem) fair.2
    omega

/-- Each round does some of the work, until there is none. -/
theorem rounds (inv : Inv s) {inputs : List (List ι)}
    (fair : ∀ round ∈ inputs, FairRound threads Allowed round) :
    progress.work (runFrom step s inputs.flatten) ≤ progress.work s - inputs.length := by
  induction inputs generalizing s with
  | nil => exact Nat.le_refl _
  | cons round inputs ih =>
    have here := fair round List.mem_cons_self
    have first := progress.round inv here
    have rest := ih (progress.kept_run inv here.2)
      fun other mem => fair other (List.mem_cons_of_mem _ mem)
    rw [List.flatten_cons, runFrom_append, List.length_cons]
    omega

end Progress

end KafkaReplication.Misc
