import Mathlib.Logic.Function.Basic
import Mathlib.Data.List.Basic

/-!
# Orders of consumption that keep the order inside each key

Messages lie in a log, each with a key or without one. A broker keeps the order of two
messages for certain only where they have one and the same key. `kept_iff` says that nothing
more can be relied on: any other pair is exchanged by some order that keeps all keys.
-/

namespace KafkaReplication.Misc

variable {κ : Type}

/-- The messages at `i` and `j` have one and the same key. -/
def SameKey (keys : List (Option κ)) (i j : Nat) : Prop :=
  ∃ key, keys[i]? = some (some key) ∧ keys[j]? = some (some key)

/-- An order in which the messages may be consumed: `rank i` is when the message at `i` is. -/
structure Consumption (keys : List (Option κ)) where
  rank : Nat → Nat
  injective : Function.Injective rank
  keepsKeys : ∀ i j, i < j → SameKey keys i j → rank i < rank j

namespace SameKey

variable {keys : List (Option κ)} {i j l : Nat}

theorem symm (same : SameKey keys i j) : SameKey keys j i := by
  obtain ⟨key, first, second⟩ := same
  exact ⟨key, second, first⟩

theorem trans (same : SameKey keys i j) (same' : SameKey keys j l) : SameKey keys i l := by
  obtain ⟨key, first, second⟩ := same
  obtain ⟨key', second', third⟩ := same'
  rw [second] at second'
  cases second'
  exact ⟨key, first, third⟩

theorem lt_length (same : SameKey keys i j) : i < keys.length := by
  obtain ⟨key, first, -⟩ := same
  exact (List.getElem?_eq_some_iff.mp first).1

end SameKey

open Classical in
/-- The messages with the key of the message at `j` come first, then all others. -/
noncomputable def Consumption.favouring (keys : List (Option κ)) (j : Nat)
    (inside : j < keys.length) : Consumption keys where
  rank m := if m = j ∨ SameKey keys m j then m else keys.length + m
  injective := by
    have bound : ∀ m, m = j ∨ SameKey keys m j → m < keys.length := by
      intro m favoured
      rcases favoured with rfl | same
      · exact inside
      · exact same.lt_length
    intro m n same
    by_cases first : m = j ∨ SameKey keys m j <;> by_cases second : n = j ∨ SameKey keys n j
    · simpa only [if_pos first, if_pos second] using same
    · have := bound m first
      simp only [if_pos first, if_neg second] at same
      omega
    · have := bound n second
      simp only [if_neg first, if_pos second] at same
      omega
    · simp only [if_neg first, if_neg second] at same
      omega
  keepsKeys := by
    intro m n before same
    have together : (m = j ∨ SameKey keys m j) ↔ (n = j ∨ SameKey keys n j) := by
      constructor
      · rintro (rfl | favoured)
        · exact .inr same.symm
        · exact .inr (same.symm.trans favoured)
      · rintro (rfl | favoured)
        · exact .inr same
        · exact .inr (same.trans favoured)
    by_cases favoured : n = j ∨ SameKey keys n j
    · rw [if_pos (together.mpr favoured), if_pos favoured]
      exact before
    · rw [if_neg (fun first => favoured (together.mp first)), if_neg favoured]
      omega

/-- A pair of messages is consumed in the order of the log, whatever the order that keeps the
keys, exactly when the two have one key. -/
theorem kept_iff (keys : List (Option κ)) {i j : Nat} (before : i < j)
    (inside : j < keys.length) :
    (∀ consumption : Consumption keys, consumption.rank i < consumption.rank j) ↔
      SameKey keys i j := by
  constructor
  · intro kept
    by_contra apart
    have exchanged := kept (.favouring keys j inside)
    have other : ¬ (i = j ∨ SameKey keys i j) := by
      rintro (rfl | same)
      · omega
      · exact apart same
    simp only [Consumption.favouring, if_neg other, true_or, if_true] at exchanged
    omega
  · intro same consumption
    exact consumption.keepsKeys i j before same

/-- The later one may be consumed first, exactly when they have not. -/
theorem exists_exchanged_iff (keys : List (Option κ)) {i j : Nat} (before : i < j)
    (inside : j < keys.length) :
    (∃ consumption : Consumption keys, consumption.rank j < consumption.rank i) ↔
      ¬ SameKey keys i j := by
  rw [← kept_iff keys before inside, not_forall]
  apply exists_congr
  intro consumption
  have apart : consumption.rank i ≠ consumption.rank j := by
    intro same
    exact absurd (consumption.injective same) (Nat.ne_of_lt before)
  omega

end KafkaReplication.Misc
