import Mathlib.Data.List.Basic
import Mathlib.Data.List.Perm.Basic

/-!
# A sender that resumes

A sender goes through items in their order, is ended anywhere, and resumes at a position: it sends
the items above it again. It must not resume at or above an item that has not been taken.
-/

namespace KafkaReplication.Misc

variable {α : Type}

/-- Where a sender resumes, and what has been taken from it, once for each time. -/
structure Sender (α : Type) where
  position : Nat
  taken : List α

namespace Sender

section Resume

variable (place : α → Nat) (items : List α)

/-- A session: of the items above the position the first ones are taken, and the sender resumes in
front of the others. -/
inductive Session : Sender α → List α → Sender α → Prop
  | ends {s : Sender α} {handed unhanded : List α} {position : Nat}
      (sent : items.filter (s.position < place ·) = handed ++ unhanded)
      (resumes : ∀ item ∈ unhanded, position < place item) :
      Session s unhanded ⟨position, s.taken ++ handed⟩

/-- The first items have been taken, some of them again, and the others lie above the position. -/
structure Covers (s : Sender α) (front rest again : List α) : Prop where
  all : items = front ++ rest
  taken : s.taken.Perm (front ++ again)
  known : ∀ item ∈ again, item ∈ front
  above : ∀ item ∈ rest, s.position < place item

variable {place items} {s s' : Sender α} {front rest again : List α}

theorem covers_start {position : Nat} (above : ∀ item ∈ items, position < place item) :
    Covers place items ⟨position, []⟩ [] items [] where
  all := rfl
  taken := .refl []
  known item mem := by cases mem
  above := above

/-- A session goes through some of the first items again, and perhaps on through the others. -/
theorem Covers.session (covers : Covers place items s front rest again) {unhanded : List α}
    (session : Session place items s unhanded s') :
    ∃ front' rest' again', Covers place items s' front' rest' again' ∧
      (unhanded = [] → rest' = []) := by
  obtain ⟨sent, resumes⟩ := session
  rename_i handed position
  have others : rest.filter (s.position < place ·) = rest := by
    rw [List.filter_eq_self]
    intro item mem
    exact decide_eq_true (covers.above item mem)
  rw [covers.all, List.filter_append, others] at sent
  have resent : ∀ item ∈ front.filter (s.position < place ·), item ∈ front := by
    intro item mem
    exact (List.mem_filter.mp mem).1
  rcases List.append_eq_append_iff.mp sent with ⟨further, rfl, split⟩ | ⟨left, split, rfl⟩
  · -- the items that were sent again have all been taken, and `further` behind them
    refine ⟨front ++ further, unhanded, again ++ front.filter (s.position < place ·), ?_, id⟩
    refine ⟨?_, ?_, ?_, resumes⟩
    · rw [covers.all, split, List.append_assoc]
    · have more := covers.taken.append_right (front.filter (s.position < place ·) ++ further)
      refine more.trans ?_
      simp only [List.append_assoc]
      refine List.Perm.append_left front ?_
      rw [← List.append_assoc]
      exact List.perm_append_comm
    · intro item mem
      rcases List.mem_append.mp mem with before | now
      · exact List.mem_append_left _ (covers.known item before)
      · exact List.mem_append_left _ (resent item now)
  · -- the sender has been ended before it was through with them
    refine ⟨front, rest, again ++ handed, ⟨covers.all, ?_, ?_, ?_⟩, ?_⟩
    · rw [← List.append_assoc]
      exact covers.taken.append_right handed
    · intro item mem
      rcases List.mem_append.mp mem with before | now
      · exact covers.known item before
      · exact resent item (split ▸ List.mem_append_left _ now)
    · intro item mem
      exact resumes item (List.mem_append_right _ mem)
    · intro nothing
      exact (List.append_eq_nil_iff.mp nothing).2

end Resume

end Sender

/-- Where the items are among those of two lists, they split into what is in the first one and what
is only in the second. -/
theorem subperm_split {items first second : List α} (sub : items.Subperm (first ++ second)) :
    ∃ here lost, items.Perm (here ++ lost) ∧ here.Subperm first ∧ lost.Subperm second := by
  obtain ⟨items', perm, sublist⟩ := sub
  obtain ⟨here, lost, rfl, inFirst, inSecond⟩ := List.sublist_append_iff.mp sublist
  exact ⟨here, lost, perm.symm, inFirst.subperm, inSecond.subperm⟩

theorem subperm_append_rest {items more : List α} (sub : items.Subperm more) :
    ∃ rest, more.Perm (items ++ rest) := by
  obtain ⟨items', perm, sublist⟩ := sub
  obtain ⟨rest, whole⟩ := sublist.exists_perm_append
  exact ⟨rest, whole.trans (perm.append_right rest)⟩

end KafkaReplication.Misc
