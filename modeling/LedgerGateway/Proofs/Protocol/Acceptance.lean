import LedgerGateway.Proofs.Protocol.Schema
import LedgerGateway.Proofs.Wire.Acceptance

/-!
# Which bytes are messages of the schema

A message of any type is read from exactly the rows of complete records (`Schema.decode_accepts`).
The only thing that the reader lets through and the strict grammar does not are entries of a
dictionary that do not come with the wire type of messages, such as in `looseInput`.
-/

namespace LedgerGateway.Protocol.Schema

open Wire

/-- **Exactly the rows of complete records are read**, and all other bytes give an error.  So
reading agrees with the strict grammar on just those bytes that are a strict row if they are a row
at all. -/
theorem decode_accepts : ∀ (s : Schema) (b : Bytes),
    ((∃ m, s.decode b = .ok m) ↔ s.fields.IsRow false nestingLimit b) ∧
    ((∃ e, s.decode b = .error e) ↔ ¬ s.fields.IsRow false nestingLimit b) ∧
    (((∃ m, s.decode b = .ok m) ↔ s.fields.IsRow true nestingLimit b) ↔
      (s.fields.IsRow false nestingLimit b → s.fields.IsRow true nestingLimit b)) := by
  intro s b
  have haccepts : (∃ m, s.decode b = .ok m) ↔ s.fields.IsRow false nestingLimit b :=
    Fields.exists_decode_iff
  have hstrict : s.fields.IsRow true nestingLimit b → ∃ m, s.decode b = .ok m := by
    intro hrow
    obtain ⟨m, hall⟩ := hrow.takesAll s.typeName s.fields.default
    exact ⟨m, hall.decode_eq⟩
  refine ⟨haccepts, ?_, ?_⟩
  · rw [← haccepts]
    cases s.decode b <;> simp
  · rw [← haccepts]
    exact ⟨Iff.mp, fun h => ⟨h, hstrict⟩⟩

/-- An entry without content, with the wire type of numbers. -/
def looseInput : Bytes := [0x10, 0x00]

/-- `looseInput` is read, but its only record is an entry and has another wire type than messages
have. -/
theorem decode_looseInput :
    (of ChaincodeInput).decode looseInput =
      .ok (Message.toRecord { decorations := Dictionary.empty.insert "" [] : ChaincodeInput }) ∧
    ¬ (of ChaincodeInput).fields.IsRow true nestingLimit looseInput := by
  refine ⟨decode_of_eq_ok_iff.2 (by decide +kernel), ?_⟩
  intro hrow
  have hkey : IsKey [0x10] _ := isKey_of_lt ⟨2, .varint⟩ (by decide) (by decide)
  have hentry : (of ChaincodeInput).fields.item? 2 = some .entry := rfl
  generalize hb : looseInput = b at hrow
  cases hrow with
  | nil => cases hb
  | @cons _ _ _ _ v rest hkey' hvalue _ =>
    have hread := readKey_exact.reads hkey' (v ++ rest)
    rw [← hb] at hread
    obtain ⟨rfl, _⟩ := hread.unique (readKey_exact.reads hkey [0x00])
    cases hvalue with
    | scalar hitem => cases hentry.symm.trans hitem
    | message hitem => cases hentry.symm.trans hitem
    | entry _ hfound => cases hfound rfl
    | unknown hitem => cases hentry.symm.trans hitem

end LedgerGateway.Protocol.Schema
