import LedgerGateway.Proofs.Wire.RoundTrip

/-!
# Sizes are those of the bytes

How many bytes a message takes is computed before any of them is written, and so is the number that
stands in front of a nested message or an entry.  `Fields.encodeCounted` is a writer that computes
nothing beforehand: it writes what is nested first and counts the bytes.  Both writers write the
same, and the size of the whole is the number of its bytes (`Fields.encode_sized`).

The fields are any fields, so this is about the messages inside a message as well.
-/

namespace LedgerGateway.Wire.Fields

/-- Writes a message from the inside out: what is nested is written first, and then put behind the
number of its bytes. -/
def encodeCounted : (f : Fields) → f.Record → Bytes
  | nil, _ => []
  | scalar label kind rest, (v, m) => encodeUnlessZero label kind v ++ rest.encodeCounted m
  | scalars label kind rest, (vs, m) =>
    (vs.flatMap fun v => writeKey (scalarKey label kind) ++ kind.encode v) ++ rest.encodeCounted m
  | message label _ inner rest, (v, m) =>
    (match v with
      | none => []
      | some v => writeKey (nestedKey label) ++ writeSized (inner.encodeCounted v)) ++
      rest.encodeCounted m
  | messages label _ inner rest, (vs, m) =>
    (vs.flatMap fun v => writeKey (nestedKey label) ++ writeSized (inner.encodeCounted v)) ++
      rest.encodeCounted m
  | dictionary label rest, (d, m) =>
    (d.entries.flatMap fun e => writeKey (nestedKey label) ++ writeSized (encodeEntry e)) ++
      rest.encodeCounted m

/-- A nested message stands behind the number of its bytes. -/
theorem encodeNested_encode (label : Label) (inner : Fields) (v : inner.Record) :
    encodeNested label (inner.encodedLength v) (inner.encode v) =
      writeKey (nestedKey label) ++ writeSized (inner.encode v) :=
  encodeNested_eq label (inner.length_encode v)

/-- An entry stands behind the number of its bytes. -/
theorem encodeNested_encodeEntry (label : Label) (e : String × Bytes) :
    encodeNested label (lengthEntry e) (encodeEntry e) =
      writeKey (nestedKey label) ++ writeSized (encodeEntry e) :=
  encodeNested_eq label (length_encodeEntry e)

/-- Both writers write the same. -/
theorem encode_eq_encodeCounted : ∀ (f : Fields) (m : f.Record), f.encode m = f.encodeCounted m
  | nil, _ => rfl
  | scalar _ _ rest, (_, m) => by rw [encode, encodeCounted, rest.encode_eq_encodeCounted m]
  | scalars _ _ rest, (_, m) => by rw [encode, encodeCounted, rest.encode_eq_encodeCounted m]
  | message _ _ _ rest, (none, m) => by rw [encode, encodeCounted, rest.encode_eq_encodeCounted m]
  | message label _ inner rest, (some v, m) => by
    rw [encode, encodeCounted, encodeNested_encode, inner.encode_eq_encodeCounted v,
      rest.encode_eq_encodeCounted m]
  | messages label _ inner rest, (vs, m) => by
    have hone : ∀ v, encodeNested label (inner.encodedLength v) (inner.encode v) =
        writeKey (nestedKey label) ++ writeSized (inner.encodeCounted v) := by
      intro v
      rw [encodeNested_encode, inner.encode_eq_encodeCounted v]
    rw [encode, encodeCounted, rest.encode_eq_encodeCounted m]
    simp only [hone]
  | dictionary label rest, (_, m) => by
    rw [encode, encodeCounted, rest.encode_eq_encodeCounted m]
    simp only [encodeNested_encodeEntry]

/-- **Sizes are those of the bytes**, for every type of message and therefore for the messages inside
a message, too: the size that is computed is the number of bytes that are written, and every number
in front of a nested message or an entry is the one that counting gives. -/
theorem encode_sized :
    (∀ (f : Fields) (m : f.Record),
      f.encodedLength m = (f.encode m).length ∧ f.encode m = f.encodeCounted m) ∧
    ∀ e : String × Bytes, lengthEntry e = (encodeEntry e).length := by
  refine ⟨fun f m => ⟨?_, f.encode_eq_encodeCounted m⟩, fun e => (length_encodeEntry e).symm⟩
  exact (f.length_encode m).symm

/-- A field that holds a message with a byte string. -/
def nestedBytes : Fields :=
  .message (.plain 1 "inner") "Inner" (.scalar (.plain 1 "content") .bytes .nil) .nil

/-- The number in front of a nested message takes a second byte from the size 128 on. -/
example :
    (nestedBytes.encode (some (List.replicate 125 7, ()), ())).take 4 = [0x0a, 0x7f, 0x0a, 0x7d] ∧
    (nestedBytes.encode (some (List.replicate 126 7, ()), ())).take 4 = [0x0a, 0x80, 0x01, 0x0a] ∧
    nestedBytes.encodedLength (some (List.replicate 126 7, ()), ()) = 131 := by
  decide +kernel

end LedgerGateway.Wire.Fields
