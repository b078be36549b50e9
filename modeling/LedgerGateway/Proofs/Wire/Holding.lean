import LedgerGateway.Proofs.Wire.RoundTrip

/-!
# Bytes held in a message

A message may hold the bytes of another in one of its fields.  Such bytes are no longer than what
holds them (`Fields.Holds.length_le`), so if a message fits into memory then so does every message
that is kept as bytes inside it (`length_lt_of_holds`).
-/

namespace LedgerGateway.Wire

namespace Fields

/-- Somewhere in the message, or in a message inside it, a field holds these bytes. -/
inductive Holds : (f : Fields) → f.Record → Bytes → Prop
  | scalar {label : Label} {rest : Fields} {b : Bytes} {m : rest.Record} :
      Holds (.scalar label .bytes rest) (b, m) b
  | scalars {label : Label} {rest : Fields} {b : Bytes} {bs : List Bytes} {m : rest.Record} :
      b ∈ bs → Holds (.scalars label .bytes rest) (bs, m) b
  | message {label : Label} {type : String} {inner rest : Fields} {b : Bytes} {v : inner.Record}
      {m : rest.Record} : Holds inner v b → Holds (.message label type inner rest) (some v, m) b
  | messages {label : Label} {type : String} {inner rest : Fields} {b : Bytes} {v : inner.Record}
      {vs : List inner.Record} {m : rest.Record} : v ∈ vs → Holds inner v b →
      Holds (.messages label type inner rest) (vs, m) b
  | behindScalar {label : Label} {kind : Scalar} {rest : Fields} {b : Bytes} {v : kind.Carrier}
      {m : rest.Record} : Holds rest m b → Holds (.scalar label kind rest) (v, m) b
  | behindScalars {label : Label} {kind : Scalar} {rest : Fields} {b : Bytes}
      {vs : List kind.Carrier} {m : rest.Record} : Holds rest m b →
      Holds (.scalars label kind rest) (vs, m) b
  | behindMessage {label : Label} {type : String} {inner rest : Fields} {b : Bytes}
      {v : Option inner.Record} {m : rest.Record} : Holds rest m b →
      Holds (.message label type inner rest) (v, m) b
  | behindMessages {label : Label} {type : String} {inner rest : Fields} {b : Bytes}
      {vs : List inner.Record} {m : rest.Record} : Holds rest m b →
      Holds (.messages label type inner rest) (vs, m) b
  | behindDictionary {label : Label} {rest : Fields} {b : Bytes} {d : Dictionary}
      {m : rest.Record} : Holds rest m b → Holds (.dictionary label rest) (d, m) b

theorem le_foldr_add {α : Type} (size : α → Nat) (n : Nat) : ∀ xs : List α,
    n ≤ xs.foldr (fun x n => size x + n) n := by
  intro xs
  induction xs with
  | nil => exact le_rfl
  | cons x xs ih => exact le_trans ih (Nat.le_add_left _ _)

theorem le_foldr_add_of_mem {α : Type} (size : α → Nat) (n : Nat) {x : α} : ∀ {xs : List α},
    x ∈ xs → size x ≤ xs.foldr (fun x n => size x + n) n := by
  intro xs
  induction xs with
  | nil => simp
  | cons y xs ih =>
    intro hx
    rw [List.foldr_cons]
    rcases List.mem_cons.1 hx with rfl | hx
    · exact Nat.le_add_right _ _
    · exact le_trans (ih hx) (Nat.le_add_left _ _)

/-- **Bytes in a message are no longer than what it is written as.** -/
theorem Holds.length_le {f : Fields} {m : f.Record} {b : Bytes} (h : f.Holds m b) :
    b.length ≤ f.encodedLength m := by
  induction h with
  | @scalar label rest b m =>
    exact le_trans (length_le_lengthUnlessZero label b) (Nat.le_add_right _ _)
  | @scalars label rest b bs m hb =>
    refine le_trans ?_ (le_foldr_add_of_mem
      (fun v => lengthKey (scalarKey label .bytes) + Scalar.bytes.encodedLength v) _ hb)
    simp only [Scalar.encodedLength]
    omega
  | @message label _ inner rest b v m _ ih =>
    have hnested : inner.encodedLength v ≤ lengthNested label (inner.encodedLength v) :=
      Nat.le_add_left _ _
    exact le_trans (le_trans ih hnested) (Nat.le_add_right _ _)
  | @messages label _ inner rest b v vs m hv _ ih =>
    have hnested : inner.encodedLength v ≤ lengthNested label (inner.encodedLength v) :=
      Nat.le_add_left _ _
    exact le_trans (le_trans ih hnested)
      (le_foldr_add_of_mem (fun v => lengthNested label (inner.encodedLength v)) _ hv)
  | behindScalar _ ih => exact le_trans ih (Nat.le_add_left _ _)
  | behindScalars _ ih => exact le_trans ih (le_foldr_add _ _ _)
  | behindMessage _ ih => exact le_trans ih (Nat.le_add_left _ _)
  | behindMessages _ ih => exact le_trans ih (le_foldr_add _ _ _)
  | behindDictionary _ ih => exact le_trans ih (le_foldr_add _ _ _)

end Fields

section Message

variable {α : Type} [Message α]

/-- Bytes in a message fit into memory if the message does. -/
theorem length_lt_of_holds {m : α} {b : Bytes}
    (h : (Message.fields α).Holds (Message.toRecord m) b)
    (hsize : (encode m).length < sizeLimit) : b.length < sizeLimit := by
  rw [length_encode] at hsize
  exact lt_of_le_of_lt h.length_le hsize

end Message

end LedgerGateway.Wire
