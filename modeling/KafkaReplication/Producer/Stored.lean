import KafkaReplication.Producer.Accounting

/-!
# What the brokers keep

A message that `produce` has taken (`producer_azs/producer_librdkafka.cpp:60-97`) lies in the memory
of librdkafka until the brokers have it. Of a producer that has ended they have the messages whose
delivery was reported (`:99-119`), and any of the others.
-/

namespace KafkaReplication
open Misc

namespace RdKafkaProducer

variable (rdKafka : RdKafkaProducer)

/-- The value of a message. -/
def value (n : Nat) : Bytes := ((rdKafka.accepted[n]?).map Prod.snd).getD []

/-- The brokers may have kept `stored`: no message twice, and all whose delivery was reported. -/
structure Kept (stored : List Nat) : Prop where
  once : stored.Nodup
  known : ∀ n ∈ stored, n < rdKafka.accepted.length
  delivered : ∀ n ∈ rdKafka.delivered, n ∈ stored

variable {rdKafka} {stored : List Nat}

theorem range_value : (List.range rdKafka.accepted.length).map rdKafka.value =
    rdKafka.accepted.map Prod.snd := by
  apply List.ext_getElem
  · simp
  · intro n short _
    have within : n < rdKafka.accepted.length := by simpa using short
    simp [value, within]

theorem acceptedBytes_value : rdKafka.acceptedBytes =
    (((List.range rdKafka.accepted.length).map rdKafka.value).map List.length).sum := by
  rw [range_value, List.map_map]
  rfl

/-- What Kafka has taken is stored or missing. -/
theorem Kept.counts (kept : rdKafka.Kept stored) :
    rdKafka.accepted.length = stored.length + (rdKafka.missing stored).length ∧
      rdKafka.acceptedBytes = ((stored.map rdKafka.value).map List.length).sum +
        (((rdKafka.missing stored).map rdKafka.value).map List.length).sum := by
  have perm := LibrdKafkaProducer.missing_perm kept.once kept.known
  constructor
  · have lengths := perm.length_eq
    rwa [List.length_append, List.length_range, eq_comm] at lengths
  · have sizes := ((perm.map rdKafka.value).map List.length).sum_eq
    rw [acceptedBytes_value, ← sizes, List.map_append, List.map_append, List.sum_append]

/-- Nothing is missing that was delivered. -/
theorem Kept.missing_undelivered (kept : rdKafka.Kept stored) :
    ∀ n ∈ rdKafka.missing stored, n ∈ rdKafka.pending ++ rdKafka.failed := by
  intro n mem
  obtain ⟨inRange, notStored⟩ := List.mem_filter.mp mem
  have notStored : n ∉ stored := by simpa using notStored
  by_cases due : n ∈ rdKafka.pending
  · exact List.mem_append_left _ due
  · apply List.mem_append_right
    refine List.mem_filter.mpr ⟨inRange, ?_⟩
    have undelivered : n ∉ rdKafka.delivered := fun done => notStored (kept.delivered n done)
    simp [due, undelivered]

/-- What Kafka has taken is stored or missing, value by value. -/
theorem Kept.values_perm (kept : rdKafka.Kept stored) :
    (stored.map rdKafka.value ++ (rdKafka.missing stored).map rdKafka.value).Perm
      (rdKafka.accepted.map Prod.snd) := by
  have perm := LibrdKafkaProducer.missing_perm kept.once kept.known
  rw [← List.map_append, ← range_value]
  exact perm.map rdKafka.value

end RdKafkaProducer

namespace PostgresqlReplicator

/-- The librdkafka producer of the replicator. -/
def rdKafka (self : PostgresqlReplicator) : Option RdKafkaProducer :=
  self.kafkaProducer.bind LibrdKafkaProducer.producer

/-- Kafka has kept these values of what the replicator has sent, and these are lost. None of them
was reported as delivered. -/
def Stores (self : PostgresqlReplicator) (kept lost : List Bytes) : Prop :=
  ∃ rdKafka stored, self.rdKafka = some rdKafka ∧ rdKafka.Kept stored ∧
    kept = stored.map rdKafka.value ∧ lost = (rdKafka.missing stored).map rdKafka.value

section Stores

variable {self : PostgresqlReplicator} {rdKafka : RdKafkaProducer}

theorem accepted_eq (there : self.rdKafka = some rdKafka) : self.accepted = rdKafka.accepted := by
  obtain ⟨kafka, hasKafka, hasProducer⟩ := Option.bind_eq_some_iff.mp there
  rw [accepted, hasKafka, Option.map_some, LibrdKafkaProducer.accepted, hasProducer]
  rfl

theorem Stores.perm {kept lost : List Bytes} (stores : self.Stores kept lost) :
    (kept ++ lost).Perm (self.accepted.map Prod.snd) := by
  obtain ⟨rdKafka, stored, there, isKept, rfl, rfl⟩ := stores
  rw [accepted_eq there]
  exact isKept.values_perm

/-- Kafka may have kept everything, -/
theorem stores_all (there : self.rdKafka = some rdKafka) :
    self.Stores (self.accepted.map Prod.snd) [] := by
  have isKept : rdKafka.Kept (List.range rdKafka.accepted.length) :=
    ⟨List.nodup_range, fun n mem => List.mem_range.mp mem,
      fun n mem => List.mem_range.mpr (rdKafka.delivered_lt n mem)⟩
  have nothing : rdKafka.missing (List.range rdKafka.accepted.length) = [] := by
    rw [RdKafkaProducer.missing, List.filter_eq_nil_iff]
    intro n mem
    simp [List.mem_range.mp mem]
  refine ⟨rdKafka, _, there, isKept, ?_, ?_⟩
  · rw [accepted_eq there, RdKafkaProducer.range_value]
  · rw [nothing, List.map_nil]

/-- and nothing, where no delivery has been reported. -/
theorem stores_nothing (there : self.rdKafka = some rdKafka) (none_ : rdKafka.delivered = []) :
    self.Stores [] (self.accepted.map Prod.snd) := by
  have isKept : rdKafka.Kept [] := by
    refine ⟨List.nodup_nil, List.forall_mem_nil _, ?_⟩
    rw [none_]
    exact List.forall_mem_nil _
  have all : rdKafka.missing [] = List.range rdKafka.accepted.length := by
    rw [RdKafkaProducer.missing, List.filter_eq_self]
    intro n _
    simp
  refine ⟨rdKafka, _, there, isKept, rfl, ?_⟩
  rw [accepted_eq there, all, RdKafkaProducer.range_value]

end Stores

end PostgresqlReplicator

end KafkaReplication
