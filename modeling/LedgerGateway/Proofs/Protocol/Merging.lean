import LedgerGateway.Proofs.Protocol.Schema

/-!
# Messages that come in parts

Two messages of one type, written one behind the other, are read as one message, the second put on
top of the first (`Schema.decode_append`).  What that message is, field by field, is said by
`Fields.IsMerge`, without any of the operations by which a reader gets there: the last scalar counts
unless it is zero, elements are strung together, an entry of the second part wins over one of the
same name, and nested messages are put on top of each other in the same way.  There is one such
message (`Fields.isMerge_iff`).

The reader starts from the message without content, so the first part takes it to the first message
and the second part from there to both together.
-/

namespace LedgerGateway.Wire.Fields

/-- The third message is the second on top of the first. -/
def IsMerge : (f : Fields) → (m m' merged : f.Record) → Prop
  | nil, _, _, _ => True
  | scalar _ kind rest, (v, m), (v', m'), (u, merged) =>
    (v' ≠ kind.zero → u = v') ∧ (v' = kind.zero → u = v) ∧ rest.IsMerge m m' merged
  | scalars _ _ rest, (vs, m), (vs', m'), (us, merged) =>
    us = vs ++ vs' ∧ rest.IsMerge m m' merged
  | message _ _ inner rest, (v, m), (v', m'), (u, merged) =>
    (match v, v' with
      | none, v' => u = v'
      | v, none => u = v
      | some v, some v' => ∃ w, u = some w ∧ inner.IsMerge v v' w) ∧ rest.IsMerge m m' merged
  | messages _ _ _ rest, (vs, m), (vs', m'), (us, merged) =>
    us = vs ++ vs' ∧ rest.IsMerge m m' merged
  | dictionary _ rest, (d, m), (d', m'), (u, merged) =>
    (∀ e, e ∈ u.entries ↔
      e ∈ d'.entries ∨ e.1 ∉ d'.entries.map Prod.fst ∧ e ∈ d.entries) ∧ rest.IsMerge m m' merged

theorem isMerge_merge : ∀ (f : Fields) (m m' : f.Record), f.IsMerge m m' (f.merge m m')
  | nil, _, _ => trivial
  | scalar _ _ rest, (_, m), (_, m') =>
    ⟨fun h => if_neg h, fun h => if_pos h, rest.isMerge_merge m m'⟩
  | scalars _ _ rest, (_, m), (_, m') => ⟨rfl, rest.isMerge_merge m m'⟩
  | message _ _ _ rest, (none, m), (none, m') => ⟨rfl, rest.isMerge_merge m m'⟩
  | message _ _ _ rest, (none, m), (some _, m') => ⟨rfl, rest.isMerge_merge m m'⟩
  | message _ _ _ rest, (some _, m), (none, m') => ⟨rfl, rest.isMerge_merge m m'⟩
  | message _ _ inner rest, (some v, m), (some v', m') =>
    ⟨⟨inner.merge v v', rfl, inner.isMerge_merge v v'⟩, rest.isMerge_merge m m'⟩
  | messages _ _ _ rest, (_, m), (_, m') => ⟨rfl, rest.isMerge_merge m m'⟩
  | dictionary _ rest, (_, m), (d', m') =>
    ⟨fun _ => Dictionary.mem_insertAll d'.nodup_names, rest.isMerge_merge m m'⟩

theorem IsMerge.unique : ∀ {f : Fields} {m m' u w : f.Record},
    f.IsMerge m m' u → f.IsMerge m m' w → u = w
  | nil, _, _, _, _, _, _ => rfl
  | scalar _ kind rest, (v, m), (v', m'), (u, r), (w, t), ⟨hu, hu', hr⟩, ⟨hw, hw', ht⟩ => by
    have hrest := hr.unique ht
    by_cases h : v' = kind.zero
    · rw [hu' h, hw' h, hrest]
    · rw [hu h, hw h, hrest]
  | scalars _ _ rest, (_, m), (_, m'), (_, r), (_, t), ⟨hu, hr⟩, ⟨hw, ht⟩ => by
    rw [hu, hw, hr.unique ht]
  | message _ _ _ rest, (none, m), (v', m'), (_, r), (_, t), ⟨hu, hr⟩, ⟨hw, ht⟩ => by
    rw [hu, hw, hr.unique ht]
  | message _ _ _ rest, (some v, m), (none, m'), (_, r), (_, t), ⟨hu, hr⟩, ⟨hw, ht⟩ => by
    rw [hu, hw, hr.unique ht]
  | message _ _ inner rest, (some v, m), (some v', m'), (_, r), (_, t), ⟨⟨a, hu, ha⟩, hr⟩,
      ⟨⟨b, hw, hb⟩, ht⟩ => by
    rw [hu, hw, ha.unique hb, hr.unique ht]
  | messages _ _ _ rest, (_, m), (_, m'), (_, r), (_, t), ⟨hu, hr⟩, ⟨hw, ht⟩ => by
    rw [hu, hw, hr.unique ht]
  | dictionary _ rest, (_, m), (_, m'), (u, r), (w, t), ⟨hu, hr⟩, ⟨hw, ht⟩ => by
    have hentries : u = w := Dictionary.ext_mem fun e => (hu e).trans (hw e).symm
    rw [hentries, hr.unique ht]

theorem isMerge_iff {f : Fields} {m m' u : f.Record} : f.IsMerge m m' u ↔ u = f.merge m m' := by
  constructor
  · intro h
    exact h.unique (f.isMerge_merge m m')
  · rintro rfl
    exact f.isMerge_merge m m'

end LedgerGateway.Wire.Fields

namespace LedgerGateway.Protocol.Schema

open Wire

/-- **Parts that are strung together are read as one message**, for every type of message: the
second part is put on top of the first.  The entries of dictionaries may have been written in any
order. -/
theorem decode_append : ∀ (s : Schema) {m m' : s.fields.Record},
    s.fields.encodedLength m < sizeLimit → s.fields.encodedLength m' < sizeLimit →
      s.fields.IsMerge m m' (s.fields.merge m m') ∧
      s.decode (s.fields.encode m ++ s.fields.encode m') = .ok (s.fields.merge m m') ∧
      ∀ {b b' : Bytes}, s.fields.Writes m b → s.fields.Writes m' b' →
        s.decode (b ++ b') = .ok (s.fields.merge m m') := by
  intro s m m' hsize hsize'
  have hread : ∀ {b b' : Bytes}, s.fields.Writes m b → s.fields.Writes m' b' →
      s.decode (b ++ b') = .ok (s.fields.merge m m') := by
    intro b b' h h'
    rw [← h.length_eq] at hsize
    rw [← h'.length_eq] at hsize'
    have hfirst := h.takesAll s.wellFormed s.nesting_le hsize s.typeName s.fields.default
    have hsecond := h'.takesAll s.wellFormed s.nesting_le hsize' s.typeName m
    rw [Fields.default_merge] at hfirst
    exact (hfirst.append hsecond).decode_eq
  exact ⟨s.fields.isMerge_merge m m',
    hread (s.fields.writes_encode m) (s.fields.writes_encode m'), hread⟩

/-- The first part of a call: a chaincode by its path, an argument and two entries. -/
def firstPart : ChaincodeSpec where
  type := 1
  chaincodeId := some { path := "p", name := "a" }
  input := some { args := [[1]], decorations := (Dictionary.empty.insert "a" [1]).insert "b" [2] }

/-- The second part of a call: a name, more arguments, and an entry that empties one of the first
part. -/
def secondPart : ChaincodeSpec where
  chaincodeId := some { name := "c" }
  input := some { args := [[], [7]], decorations := Dictionary.empty.insert "a" [], isInit := true }

def wholeCall : ChaincodeSpec where
  type := 1
  chaincodeId := some { path := "p", name := "c" }
  input := some
    { args := [[1], [], [7]]
      decorations := (Dictionary.empty.insert "a" []).insert "b" [2]
      isInit := true }

theorem decode_append_parts :
    (of ChaincodeSpec).fields.encodedLength (Message.toRecord firstPart) < sizeLimit ∧
    (of ChaincodeSpec).fields.encodedLength (Message.toRecord secondPart) < sizeLimit ∧
    (of ChaincodeSpec).fields.merge (Message.toRecord firstPart) (Message.toRecord secondPart) =
      Message.toRecord wholeCall ∧
    (of ChaincodeSpec).decode ((of ChaincodeSpec).fields.encode (Message.toRecord firstPart) ++
      (of ChaincodeSpec).fields.encode (Message.toRecord secondPart)) =
      .ok (Message.toRecord wholeCall) := by
  have hsize :
      (of ChaincodeSpec).fields.encodedLength (Message.toRecord firstPart) < sizeLimit := by
    decide +kernel
  have hsize' :
      (of ChaincodeSpec).fields.encodedLength (Message.toRecord secondPart) < sizeLimit := by
    decide +kernel
  have hmerge : (of ChaincodeSpec).fields.merge (Message.toRecord firstPart)
      (Message.toRecord secondPart) = Message.toRecord wholeCall := by
    rfl
  refine ⟨hsize, hsize', hmerge, ?_⟩
  rw [← hmerge]
  exact (decode_append (of ChaincodeSpec) hsize hsize').2.1

end LedgerGateway.Protocol.Schema
