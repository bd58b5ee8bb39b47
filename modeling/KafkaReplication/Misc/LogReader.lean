import Mathlib.Data.List.Chain
import Mathlib.Logic.Relation
import KafkaReplication.Misc.Run

/-!
# Readers of a log

A reader takes the items of a log one after the other and applies each to a store some time
after it has read it. It commits how far it has read whenever it likes, and after a crash it goes
on from there: what was read but not applied is gone, what was applied but not committed comes
again. `LogReader.Sound` says what is in the store then, `LogReader.Step.sound` that every step
keeps this, and `Always.simulates` is the rule by which a machine that simulates a reader inherits
it.
-/

namespace KafkaReplication.Misc

/-- The offsets from `start` up to `stop`. -/
structure Stretch where
  start : Nat
  stop : Nat
  deriving DecidableEq, Repr

namespace Stretch

variable {α : Type} {log : List α} {start stop : Nat}

def offsets (stretch : Stretch) : List Nat :=
  List.range' stretch.start (stretch.stop - stretch.start)

/-- What a log has at these offsets. -/
def items (log : List α) (stretch : Stretch) : List α :=
  (log.take stretch.stop).drop stretch.start

@[simp] theorem items_same (log : List α) (offset : Nat) : items log ⟨offset, offset⟩ = [] := by
  rw [items, List.drop_eq_nil_iff]
  exact List.length_take_le _ _

theorem items_length (within : stop ≤ log.length) :
    (items log ⟨start, stop⟩).length = stop - start := by
  rw [items, List.length_drop, List.length_take, Nat.min_eq_left within]

theorem mem_offsets {stretch : Stretch} {offset : Nat} :
    offset ∈ stretch.offsets ↔ stretch.start ≤ offset ∧ offset < stretch.stop := by
  rw [offsets, List.mem_range'_1]
  omega

/-- What is said of the items in their order is said of the offsets. -/
theorem map_items {β : Type} (f : α → β) (log : List α) (stretch : Stretch) :
    (items log stretch).map f = items (log.map f) stretch := by
  rw [items, items, List.map_drop, List.map_take]

theorem map_flatMap_items {β : Type} (f : α → β) (log : List α) (stretches : List Stretch) :
    (stretches.flatMap (items log)).map f = stretches.flatMap (items (log.map f)) := by
  rw [List.map_flatMap]
  exact List.flatMap_congr fun stretch _ => map_items f log stretch

theorem items_range {n : Nat} {stretch : Stretch} (within : stretch.stop ≤ n) :
    items (List.range n) stretch = stretch.offsets := by
  rw [items, List.take_range, Nat.min_eq_left within, List.range_eq_range', List.drop_range',
    offsets]
  simp

/-- One more item at the end. -/
theorem items_succ {item : α} (there : log[stop]? = some item) (started : start ≤ stop) :
    items log ⟨start, stop + 1⟩ = items log ⟨start, stop⟩ ++ [item] := by
  obtain ⟨within, -⟩ := List.getElem?_eq_some_iff.mp there
  have enough : start ≤ (log.take stop).length := by
    rw [List.length_take, Nat.min_eq_left (Nat.le_of_lt within)]
    exact started
  rw [items, items, List.take_add_one, there, List.drop_append_of_le_length enough]
  rfl

/-- The first item is the one at `start`. -/
theorem items_cons {item : α} {rest : List α}
    (begins : items log ⟨start, stop⟩ = item :: rest) :
    start < stop ∧ log[start]? = some item ∧ items log ⟨start + 1, stop⟩ = rest := by
  have some_ : items log ⟨start, stop⟩ ≠ [] := begins ▸ List.cons_ne_nil item rest
  have short : start < (log.take stop).length := by
    rw [items, ne_eq, List.drop_eq_nil_iff] at some_
    exact Nat.lt_of_not_le some_
  have before : start < stop := by
    rw [List.length_take] at short
    omega
  rw [items, List.drop_eq_getElem_cons short, List.cons.injEq] at begins
  refine ⟨before, ?_, begins.2⟩
  rw [← begins.1, List.getElem_take]
  exact List.getElem?_eq_getElem _

/-- A later stretch starts where the reader can have committed: not in front of the earlier one,
and beyond its end by no more than what is read at once. -/
def Resumes (window : Nat) (earlier later : Stretch) : Prop :=
  earlier.start ≤ later.start ∧ later.start ≤ earlier.stop + window

end Stretch

/-- A reader with its store. -/
structure LogReader (σ : Type) where
  /-- The offset that is read next. -/
  position : Nat
  /-- The offset whose item is applied next. -/
  next : Nat
  committed : Nat
  /-- What was applied in front of each crash. -/
  closed : List Stretch
  /-- Where it has begun, or gone on after the last crash. -/
  start : Nat
  store : σ

namespace LogReader

variable {α σ : Type}

/-- All that has been applied, in this order. -/
def stretches (r : LogReader σ) : List Stretch := r.closed ++ [⟨r.start, r.next⟩]

def begin (store : σ) : LogReader σ := ⟨0, 0, 0, [], 0, store⟩

section Steps

variable (log : List α) (window : Nat) (apply : σ → α → σ)

inductive Step : LogReader σ → LogReader σ → Prop where
  | reads {r : LogReader σ} (more : r.position < log.length) (room : r.position < r.next + window) :
      Step r { r with position := r.position + 1 }
  | applies {r : LogReader σ} {item : α} (there : log[r.next]? = some item)
      (isRead : r.next < r.position) :
      Step r { r with next := r.next + 1, store := apply r.store item }
  | commits {r : LogReader σ} : Step r { r with committed := r.position }
  | crashes {r : LogReader σ} :
      Step r ⟨r.committed, r.committed, r.committed, r.stretches, r.committed, r.store⟩

/-- Any number of steps. -/
def Steps : LogReader σ → LogReader σ → Prop := Relation.ReflTransGen (Step log window apply)

/-- The store is what applying the stretches makes of the first one, and each stretch resumes
the one before. -/
structure Sound (initial : σ) (r : LogReader σ) : Prop where
  started : r.start ≤ r.next
  read : r.next ≤ r.position
  within : r.position ≤ log.length
  room : r.position ≤ r.next + window
  resumed : r.start ≤ r.committed
  committed_le : r.committed ≤ r.position
  first : r.stretches.head?.map Stretch.start = some 0
  bounded : ∀ stretch ∈ r.stretches,
    stretch.start ≤ stretch.stop ∧ stretch.stop ≤ log.length
  chain : r.stretches.IsChain (Stretch.Resumes window)
  replayed : r.store = (r.stretches.flatMap (Stretch.items log)).foldl apply initial

variable {log window apply} {initial : σ} {r s : LogReader σ}

theorem begin_sound (log : List α) (window : Nat) (apply : σ → α → σ) (initial : σ) :
    Sound log window apply initial (begin initial) where
  started := Nat.le_refl 0
  read := Nat.le_refl 0
  within := Nat.zero_le _
  room := Nat.zero_le _
  resumed := Nat.le_refl 0
  committed_le := Nat.le_refl 0
  first := rfl
  bounded := by
    intro stretch mem
    rw [List.mem_singleton.mp mem]
    exact ⟨Nat.le_refl 0, Nat.zero_le _⟩
  chain := List.isChain_singleton _
  replayed := by simp [begin, stretches]

/-- Only where the last stretch starts matters to those in front. -/
theorem chain_last {closed : List Stretch} {start stop stop' : Nat}
    (chain : (closed ++ [Stretch.mk start stop]).IsChain (Stretch.Resumes window)) :
    (closed ++ [Stretch.mk start stop']).IsChain (Stretch.Resumes window) := by
  obtain ⟨before, -, last⟩ := List.isChain_append.mp chain
  refine List.isChain_append.mpr ⟨before, List.isChain_singleton _, ?_⟩
  intro earlier isLast later isHead
  cases isHead
  exact last earlier isLast ⟨start, stop⟩ rfl

theorem first_last {closed : List Stretch} {start stop stop' : Nat} :
    (closed ++ [Stretch.mk start stop]).head?.map Stretch.start =
      (closed ++ [Stretch.mk start stop']).head?.map Stretch.start := by
  cases closed with
  | nil => rfl
  | cons stretch closed => rfl

theorem Step.sound (step : Step log window apply r s) (sound : Sound log window apply initial r) :
    Sound log window apply initial s := by
  cases step with
  | reads more room =>
    exact { sound with
      read := Nat.le_succ_of_le sound.read
      within := more
      room := room
      committed_le := Nat.le_succ_of_le sound.committed_le }
  | @applies item there isRead =>
    have whole := sound.replayed
    refine ⟨Nat.le_succ_of_le sound.started, isRead, sound.within, ?_, sound.resumed,
      sound.committed_le, ?_, ?_, ?_, ?_⟩
    · have room := sound.room
      simp only
      omega
    · exact first_last.trans sound.first
    · intro stretch mem
      rcases List.mem_append.mp mem with before | last
      · exact sound.bounded stretch (List.mem_append_left _ before)
      · rw [List.mem_singleton.mp last]
        exact ⟨Nat.le_succ_of_le sound.started, Nat.lt_of_lt_of_le isRead sound.within⟩
    · exact chain_last sound.chain
    · rw [stretches, List.flatMap_append, List.flatMap_singleton] at whole ⊢
      rw [Stretch.items_succ there sound.started, ← List.append_assoc, List.foldl_append, ← whole]
      rfl
  | commits =>
    exact { sound with
      resumed := Nat.le_trans sound.started sound.read
      committed_le := Nat.le_refl _ }
  | crashes =>
    refine ⟨Nat.le_refl _, Nat.le_refl _, sound.committed_le.trans sound.within,
      Nat.le_add_right _ _, Nat.le_refl _, Nat.le_refl _, ?_, ?_, ?_, ?_⟩
    · have first := sound.first
      show (r.stretches ++ _).head?.map Stretch.start = some 0
      rw [List.head?_append_of_ne_nil _ (by simp [stretches])]
      exact first
    · intro stretch mem
      rcases List.mem_append.mp mem with before | last
      · exact sound.bounded stretch before
      · rw [List.mem_singleton.mp last]
        exact ⟨Nat.le_refl _, sound.committed_le.trans sound.within⟩
    · refine List.isChain_append.mpr ⟨sound.chain, List.isChain_singleton _, ?_⟩
      intro earlier isLast later isHead
      have last : r.stretches.getLast? = some ⟨r.start, r.next⟩ := List.getLast?_concat
      rw [last] at isLast
      cases isLast
      cases isHead
      exact ⟨sound.resumed, sound.committed_le.trans sound.room⟩
    · have whole := sound.replayed
      show r.store = ((r.stretches ++ [_]).flatMap (Stretch.items log)).foldl apply initial
      rw [List.flatMap_append, List.flatMap_singleton, Stretch.items_same, List.append_nil]
      exact whole

/-- No stretch starts behind the last one. -/
theorem Sound.start_le (sound : Sound log window apply initial r) {stretch : Stretch}
    (mem : stretch ∈ r.stretches) : stretch.start ≤ r.start := by
  let Earlier : Stretch → Stretch → Prop := fun a b => a.start ≤ b.start
  have trans : IsTrans Stretch Earlier := ⟨fun _ _ _ => Nat.le_trans⟩
  have chain : r.stretches.IsChain Earlier := sound.chain.imp fun _ _ resumes => resumes.1
  have sorted := List.isChain_iff_pairwise.mp chain
  rw [stretches] at mem sorted
  rcases List.mem_append.mp mem with before | last
  · exact (List.pairwise_append.mp sorted).2.2 stretch before _ (List.mem_singleton_self _)
  · rw [List.mem_singleton.mp last]

/-- A stretch starts at an offset that has been committed. -/
theorem Sound.start_le_committed (sound : Sound log window apply initial r) {stretch : Stretch}
    (mem : stretch ∈ r.stretches) : stretch.start ≤ r.committed :=
  (sound.start_le mem).trans sound.resumed

/-- An offset that was never applied is behind the committed one as soon as a later offset
was applied: the reader has lost it. -/
theorem Sound.passed_committed (sound : Sound log window apply initial r) {offset later : Nat}
    (never : offset ∉ r.stretches.flatMap Stretch.offsets)
    (applied : later ∈ r.stretches.flatMap Stretch.offsets) (before : offset < later) :
    offset < r.committed := by
  obtain ⟨stretch, mem, inside⟩ := List.mem_flatMap.mp applied
  have bounds := Stretch.mem_offsets.mp inside
  have started : offset < stretch.start := by
    by_contra reached
    apply never
    exact List.mem_flatMap.mpr ⟨stretch, mem, Stretch.mem_offsets.mpr ⟨by omega, by omega⟩⟩
  exact Nat.lt_of_lt_of_le started (sound.start_le_committed mem)

/-- Without a crash there is one stretch, from the beginning on. -/
theorem Sound.stretches_eq (sound : Sound log window apply initial r) (noCrash : r.closed = []) :
    r.stretches = [⟨0, r.next⟩] := by
  have first := sound.first
  rw [stretches, noCrash] at first ⊢
  have start : r.start = 0 := Option.some.inj first
  rw [start, List.nil_append]

/-- A step closes a stretch, or begins none. -/
theorem Step.closed (step : Step log window apply r s) :
    r.closed.length < s.closed.length ∨ s.closed = r.closed ∧ s.start = r.start := by
  cases step with
  | reads more room => exact Or.inr ⟨rfl, rfl⟩
  | applies there isRead => exact Or.inr ⟨rfl, rfl⟩
  | commits => exact Or.inr ⟨rfl, rfl⟩
  | crashes =>
    refine Or.inl ?_
    show r.closed.length < (r.closed ++ [_]).length
    rw [List.length_append]
    exact Nat.lt_succ_self _

/-- As long as no stretch is closed the reader goes on with the one it is in. -/
theorem Steps.same_stretch (steps : Steps log window apply r s) :
    r.closed.length < s.closed.length ∨ s.closed = r.closed ∧ s.start = r.start := by
  induction steps with
  | refl => exact Or.inr ⟨rfl, rfl⟩
  | tail _ step before =>
    rcases before, step.closed with ⟨longer | ⟨closed, start⟩, longer' | ⟨closed', start'⟩⟩
    · exact Or.inl (Nat.lt_trans longer longer')
    · exact Or.inl (closed' ▸ longer)
    · exact Or.inl (closed ▸ longer')
    · exact Or.inr ⟨closed'.trans closed, start'.trans start⟩

end Steps

end LogReader

section Simulation

variable {σ τ ι : Type} {step : σ → ι → σ} {Step : τ → τ → Prop} {R : σ → τ → Prop}
  {Allowed : σ → ι → Prop}

/-- What each of the inputs guarantees in every state holds at every step of a run. -/
theorem Always.of_mem {P : σ → ι → Prop} {s : σ} {inputs : List ι}
    (all : ∀ input ∈ inputs, ∀ s, P s input) : Always step P s inputs := by
  induction inputs generalizing s with
  | nil => trivial
  | cons input inputs ih =>
    exact ⟨all input List.mem_cons_self s,
      ih fun other mem => all other (List.mem_cons_of_mem _ mem)⟩

theorem Always.of_all {P : σ → ι → Prop} (all : ∀ s input, P s input) (s : σ)
    (inputs : List ι) : Always step P s inputs :=
  .of_mem fun input _ s => all s input

theorem Always.mono {P Q : σ → ι → Prop} (weaker : ∀ s input, P s input → Q s input) {s : σ}
    {inputs : List ι} (always : Always step P s inputs) : Always step Q s inputs := by
  induction inputs generalizing s with
  | nil => trivial
  | cons input inputs ih => exact ⟨weaker s input always.1, ih always.2⟩

/-- An invariant that is kept by the steps that are allowed. -/
theorem Always.invariant {Inv : σ → Prop}
    (kept : ∀ s input, Inv s → Allowed s input → Inv (step s input))
    {s : σ} (start : Inv s) {inputs : List ι} (allowed : Always step Allowed s inputs) :
    Inv (runFrom step s inputs) := by
  induction inputs generalizing s with
  | nil => exact start
  | cons input inputs ih => exact ih (kept s input start allowed.1) allowed.2

/-- A machine whose steps are matched by steps of another one is matched by it in every run. -/
theorem Always.simulates
    (simulated : ∀ s t input, R s t → Allowed s input →
      ∃ t', Relation.ReflTransGen Step t t' ∧ R (step s input) t')
    {s : σ} {t : τ} (start : R s t) {inputs : List ι} (allowed : Always step Allowed s inputs) :
    ∃ t', Relation.ReflTransGen Step t t' ∧ R (runFrom step s inputs) t' := by
  induction inputs generalizing s t with
  | nil => exact ⟨t, .refl, start⟩
  | cons input inputs ih =>
    obtain ⟨first, rest⟩ := allowed
    obtain ⟨next, steps, related⟩ := simulated s t input start first
    obtain ⟨last, steps', related'⟩ := ih related rest
    exact ⟨last, steps.trans steps', related'⟩

end Simulation

end KafkaReplication.Misc
