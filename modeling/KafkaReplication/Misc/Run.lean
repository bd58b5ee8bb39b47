import Mathlib.Data.List.Basic

/-!
# Runs of a machine over its inputs

A machine takes one input after the other. `Always` says that a property of the state and
the input holds at every step of a run; `Always.of_invariant` and `always_iff` are the
rules that derive such a property from what one step preserves.
-/

namespace KafkaReplication.Misc

section Runs

variable {σ ι : Type} (step : σ → ι → σ)

/-- The state after all inputs. -/
def runFrom (s : σ) (inputs : List ι) : σ := inputs.foldl step s

/-- `P` holds of the state and the input at each step of the run from `s`. -/
def Always (P : σ → ι → Prop) : σ → List ι → Prop
  | _, [] => True
  | s, input :: inputs => P s input ∧ Always P (step s input) inputs

variable {step} {Inv : σ → Prop} {Q R : σ → ι → Prop}

/-- An invariant that each step keeps holds at the end. -/
theorem runFrom_invariant (kept : ∀ s input, Inv s → Inv (step s input)) {s : σ} (start : Inv s)
    (inputs : List ι) : Inv (runFrom step s inputs) := by
  induction inputs generalizing s with
  | nil => exact start
  | cons input inputs ih => exact ih (kept s input start)

/-- What a step guarantees under an invariant and a condition holds at every step of a run
whose steps all meet the condition. -/
theorem Always.of_invariant (kept : ∀ s input, Inv s → R s input → Inv (step s input))
    (holds : ∀ s input, Inv s → R s input → Q s input)
    {s : σ} {inputs : List ι} (start : Inv s) (steps : Always step R s inputs) :
    Always step Q s inputs := by
  induction inputs generalizing s with
  | nil => trivial
  | cons input inputs ih =>
    exact ⟨holds s input start steps.1, ih (kept s input start steps.1) steps.2⟩

/-- What a step guarantees under an invariant alone holds at every step of every run. -/
theorem Always.of_kept (kept : ∀ s input, Inv s → Inv (step s input))
    (holds : ∀ s input, Inv s → Q s input) {s : σ} (start : Inv s) (inputs : List ι) :
    Always step Q s inputs := by
  induction inputs generalizing s with
  | nil => trivial
  | cons input inputs ih => exact ⟨holds s input start, ih (kept s input start)⟩

/-- Where condition and property agree at every step that starts from the invariant, they
agree on runs. `P` restricts the inputs. -/
theorem always_iff {P : ι → Prop}
    (kept : ∀ s input, P input → Inv s → R s input → Inv (step s input))
    (same : ∀ s input, P input → Inv s → (Q s input ↔ R s input))
    {s : σ} {inputs : List ι} (all : ∀ input ∈ inputs, P input) (start : Inv s) :
    Always step Q s inputs ↔ Always step R s inputs := by
  induction inputs generalizing s with
  | nil => exact Iff.rfl
  | cons input inputs ih =>
    have first := all input List.mem_cons_self
    have others := fun other member => all other (List.mem_cons_of_mem input member)
    simp only [Always]
    rw [same s input first start]
    exact and_congr_right fun met => ih others (kept s input first start met)

end Runs

end KafkaReplication.Misc
