import LedgerGateway.Proofs.Wire.RoundTrip
import LedgerGateway.Protocol.Schema

/-!
# Reading messages of the schema

Every type of message is read as it was written (`Schema.decode_written`): whatever its fields hold,
and in whichever order the entries of its dictionaries were written.  The message has to fit into
memory, that is, its size has to be a number of 64 bits, as the one the writer computes.
-/

namespace LedgerGateway.Protocol.Schema

open Wire

/-- Reading a message by its schema gives the record of the message. -/
theorem decode_of_eq_ok_iff {α : Type} [Message α] {b : Bytes} {m : α} :
    (of α).decode b = .ok (Message.toRecord m) ↔ Wire.decode b = .ok m := by
  constructor
  · intro h
    have hm := Message.ofRecord_toRecord m
    exact bind_eq_ok_iff.2 ⟨_, h, congrArg Except.ok hm⟩
  · intro h
    obtain ⟨r, hr, hm⟩ := bind_eq_ok_iff.1 h
    cases hm
    rw [Message.toRecord_ofRecord]
    exact hr

/-- **Reading undoes writing**, for every type of message.  The entries of dictionaries may have been
written in any order. -/
theorem decode_written : ∀ (s : Schema) {m : s.fields.Record},
    s.fields.encodedLength m < sizeLimit →
      s.decode (s.fields.encode m) = .ok m ∧
      ∀ {b : Bytes}, s.fields.Writes m b → s.decode b = .ok m := by
  intro s m hsize
  have hread : ∀ {b : Bytes}, s.fields.Writes m b → s.decode b = .ok m := by
    intro b hwrites
    exact hwrites.decode_eq s.wellFormed s.nesting_le hsize s.typeName
  exact ⟨hread (s.fields.writes_encode m), hread⟩

/-- Arguments one of which is empty, an entry without content and one without a name. -/
def sampleInput : ChaincodeInput where
  args := [[], [7]]
  decorations := (Dictionary.empty.insert "a" []).insert "" [1]
  isInit := true

/-- `sampleInput`, with the entry that `encode` writes first behind the other. -/
def sampleBytes : Bytes :=
  [0x0a, 0x00, 0x0a, 0x01, 0x07, 0x12, 0x03, 0x0a, 0x01, 0x61, 0x12, 0x03, 0x12, 0x01, 0x01,
    0x18, 0x01]

theorem writes_sampleBytes : (of ChaincodeInput).fields.Writes (Message.toRecord sampleInput)
    sampleBytes := by
  have hwrites : (of ChaincodeInput).fields.Writes (Message.toRecord sampleInput) _ :=
    .scalars _ .bytes [[], [7]] (.dictionary (.swap ("", [1]) ("a", []) [])
      (.scalar _ .bool true .nil))
  convert hwrites using 1
  decide +kernel

theorem decode_sampleBytes :
    (of ChaincodeInput).fields.encodedLength (Message.toRecord sampleInput) < sizeLimit ∧
    (of ChaincodeInput).fields.Writes (Message.toRecord sampleInput) sampleBytes ∧
    (of ChaincodeInput).decode sampleBytes = .ok (Message.toRecord sampleInput) := by
  have hsize :
      (of ChaincodeInput).fields.encodedLength (Message.toRecord sampleInput) < sizeLimit := by
    rw [← writes_sampleBytes.length_eq]
    decide
  exact ⟨hsize, writes_sampleBytes, (decode_written (of ChaincodeInput) hsize).2 writes_sampleBytes⟩

end LedgerGateway.Protocol.Schema
