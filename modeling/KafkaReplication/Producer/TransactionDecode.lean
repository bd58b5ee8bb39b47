import KafkaReplication.Producer.MessageDecode

/-!
# What Begin and Commit messages are decoded to

`BeginMessage::parse` and `CommitMessage::parse` (`producer_azs/replication_message.cpp:14-39,
119-153`) against the formats of `producer_azs/readme:15-28,54-70`. The readers put every Int64
into the order of the host. The transaction id of a Begin message is taken by a cast, and its bytes
stay as they were sent.
-/

namespace KafkaReplication
open Misc

/-- A word that is the same in network and in host order. -/
def SameBackwards (word : UInt32) : Prop :=
  (beBytes 4 word.toNat).reverse = beBytes 4 word.toNat

instance (word : UInt32) : Decidable (SameBackwards word) := inferInstanceAs (Decidable (_ = _))

/-- A load that does not swap gives the word that was sent. -/
theorem ofNat_leValue_eq_iff (word : UInt32) :
    UInt32.ofNat (leValue (beBytes 4 word.toNat)) = word ↔ SameBackwards word := by
  have small := word.toNat_lt
  have loaded := leValue_lt (beBytes 4 word.toNat)
  rw [beBytes_length] at loaded
  have restored := leBytes_leValue (beBytes 4 word.toNat)
  rw [beBytes_length] at restored
  have host : (beBytes 4 word.toNat).reverse = leBytes 4 word.toNat := by
    rw [beBytes, List.reverse_reverse]
  rw [SameBackwards, host]
  constructor
  · intro same
    have number := congrArg UInt32.toNat same
    rw [UInt32.toNat_ofNat', Nat.mod_eq_of_lt (by omega)] at number
    rw [← restored, number]
  · intro same
    rw [← same, leValue_leBytes (by omega), UInt32.ofNat_toNat]

/-- What was sent with a Begin message is what its `parse` stores. -/
def BeginMessage.Stores (sent : BeginMessage) (data : ByteVec) : Prop :=
  ∃ last, BeginMessage.parse data 0 = .ok sent last

def CommitMessage.Stores (sent : CommitMessage) (data : ByteVec) : Prop :=
  ∃ last, CommitMessage.parse data 0 = .ok sent last

theorem BeginMessage.stores_iff {sent : BeginMessage} {data : ByteVec} {trailing : Bytes}
    (bytes : data.bytes =
      (encodeBegin sent.lsn sent.commitTimestamp sent.transactionId).tail ++ trailing) :
    sent.Stores data ↔ SameBackwards sent.transactionId := by
  have start := At.start data
  rw [bytes, encodeBegin, List.tail_cons, List.append_assoc, List.append_assoc] at start
  have parsed := BeginMessage.parse_encode sent.lsn sent.commitTimestamp sent.transactionId start
  rw [← ofNat_leValue_eq_iff]
  constructor
  · rintro ⟨last, stored⟩
    rw [parsed] at stored
    exact congrArg BeginMessage.transactionId (EStateM.Result.ok.inj stored).1
  · intro same
    rw [same] at parsed
    exact ⟨16, parsed⟩

theorem CommitMessage.stores {sent : CommitMessage} {data : ByteVec} {trailing : Bytes}
    (bytes : data.bytes =
      (encodeCommit sent.flags sent.lsn sent.endLsn sent.commitTimestamp).tail ++ trailing) :
    sent.Stores data := by
  have start := At.start data
  rw [bytes, encodeCommit, List.tail_cons, List.cons_append, List.append_assoc,
    List.append_assoc] at start
  exact ⟨25, CommitMessage.parse_encode _ _ _ _ start⟩

/-- Of a Begin and a Commit message everything is stored as it was sent, whatever follows either,
exactly where the transaction id is the same in network and in host order. -/
theorem storesSent_iff (begun : BeginMessage) (committed : CommitMessage) (body body' : ByteVec)
    (trailing trailing' : Bytes)
    (begunBytes : body.bytes =
      (encodeBegin begun.lsn begun.commitTimestamp begun.transactionId).tail ++ trailing)
    (committedBytes : body'.bytes = (encodeCommit committed.flags committed.lsn committed.endLsn
      committed.commitTimestamp).tail ++ trailing') :
    begun.Stores body ∧ committed.Stores body' ↔ SameBackwards begun.transactionId := by
  rw [BeginMessage.stores_iff begunBytes]
  exact and_iff_left (CommitMessage.stores committedBytes)

/-- Transaction `0x01020201`, with a byte behind each message. -/
theorem storesSent_palindrome :
    (⟨7, 8, 0x01020201⟩ : BeginMessage).Stores
        ⟨(encodeBegin 7 8 0x01020201).tail ++ [1], by decide⟩ ∧
      (⟨0, 7, 9, 8⟩ : CommitMessage).Stores ⟨(encodeCommit 0 7 9 8).tail ++ [1], by decide⟩ :=
  (storesSent_iff ⟨7, 8, 0x01020201⟩ ⟨0, 7, 9, 8⟩ _ _ [1] [1] rfl rfl).mpr (by decide)

/-- Transaction 1 is stored as transaction 16777216. -/
theorem firstTransaction_swapped :
    ¬ ∀ (begun : BeginMessage) (committed : CommitMessage) (body body' : ByteVec)
      (trailing trailing' : Bytes),
      body.bytes = (encodeBegin begun.lsn begun.commitTimestamp begun.transactionId).tail ++
        trailing →
      body'.bytes = (encodeCommit committed.flags committed.lsn committed.endLsn
        committed.commitTimestamp).tail ++ trailing' →
      begun.Stores body ∧ committed.Stores body' := by
  intro always
  obtain ⟨⟨last, stored⟩, _⟩ := always ⟨7, 8, 1⟩ ⟨0, 7, 9, 8⟩
    ⟨(encodeBegin 7 8 1).tail, by decide⟩ ⟨(encodeCommit 0 7 9 8).tail, by decide⟩ [] [] rfl rfl
  have parsed : BeginMessage.parse ⟨(encodeBegin 7 8 1).tail, by decide⟩ 0 =
      .ok ⟨7, 8, 16777216⟩ 16 := rfl
  rw [parsed] at stored
  cases stored

end KafkaReplication
