import LedgerGateway.Wire.Decoding

/-!
# Types of messages

A structure is a type of message once it is said which fields it has on the wire and how its values
and records become each other without loss (`Wire.Message`). Writing and reading then come for free
(`encode`, `decode`), and so does the number of bytes (`encodedLength`). A type of message comes with
the proof that its fields can be told apart and are nested less deeply than a reader goes.
-/

namespace LedgerGateway.Wire

class Message (α : Type) where
  /-- The name of the type in the schema. -/
  name : String
  /-- The name of the type in error texts. -/
  typeName : String
  /-- The fields on the wire. -/
  fields : Fields
  wellFormed : fields.IsWellFormed := by decide
  nesting_le : fields.nesting ≤ nestingLimit := by decide
  /-- The record of a message. -/
  toRecord : α → fields.Record
  /-- The message that a record stands for. -/
  ofRecord : fields.Record → α
  ofRecord_toRecord : ∀ m, ofRecord (toRecord m) = m
  toRecord_ofRecord : ∀ r, toRecord (ofRecord r) = r

variable {α : Type} [Message α]

def encode (m : α) : Bytes :=
  (Message.fields α).encode (Message.toRecord m)

def encodedLength (m : α) : Nat :=
  (Message.fields α).encodedLength (Message.toRecord m)

def decode (b : Bytes) : Except DecodeError α :=
  return Message.ofRecord (← (Message.fields α).decode (Message.typeName α) b)

/-- The messages that fields hold as records. -/
theorem map_ofRecord_map_toRecord : ∀ l : List α,
    (l.map Message.toRecord).map Message.ofRecord = l := by
  intro l
  simp [Function.comp_def, Message.ofRecord_toRecord]

theorem map_toRecord_map_ofRecord : ∀ l : List (Message.fields α).Record,
    (l.map (Message.ofRecord (α := α))).map Message.toRecord = l := by
  intro l
  simp [Function.comp_def, Message.toRecord_ofRecord]

theorem optionMap_ofRecord_toRecord : ∀ o : Option α,
    (o.map Message.toRecord).map Message.ofRecord = o := by
  intro o
  cases o <;> simp [Message.ofRecord_toRecord]

theorem optionMap_toRecord_ofRecord : ∀ o : Option (Message.fields α).Record,
    (o.map (Message.ofRecord (α := α))).map Message.toRecord = o := by
  intro o
  cases o <;> simp [Message.toRecord_ofRecord]

end LedgerGateway.Wire
