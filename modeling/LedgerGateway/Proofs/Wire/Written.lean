import LedgerGateway.Proofs.Wire.Dictionary
import LedgerGateway.Proofs.Wire.Scalar
import LedgerGateway.Wire.Fields

/-!
# Bytes that stand for a message

A dictionary has no order of its own, so a writer may put its entries in any.  `Fields.Writes` says
of which bytes a message may be written as: those are the bytes of `Fields.encode`
(`Fields.writes_encode`) and the same with the entries of some dictionaries in another order, in the
messages inside, too.  All of them have the length that is announced (`Fields.Writes.length_eq`), so
a length in front of a nested message is always right.

Messages can also be put on top of each other (`Fields.merge`), as a reader does with a message that
comes in parts.  The message without content is neutral on the left (`Fields.default_merge`).
-/

namespace LedgerGateway.Wire.Fields

/-! ### Writings -/

/-- The message may be written as these bytes.  The number in front of a nested message is the one
that the writer computes, before anything of the message is written. -/
inductive Writes : (f : Fields) → f.Record → Bytes → Prop
  | nil : Writes .nil () []
  | scalar (label : Label) (kind : Scalar) {rest : Fields} {m : rest.Record} {b : Bytes}
      (v : kind.Carrier) : Writes rest m b →
      Writes (.scalar label kind rest) (v, m) (encodeUnlessZero label kind v ++ b)
  | scalars (label : Label) (kind : Scalar) {rest : Fields} {m : rest.Record} {b : Bytes}
      (vs : List kind.Carrier) : Writes rest m b →
      Writes (.scalars label kind rest) (vs, m)
        ((vs.flatMap fun v => writeKey (scalarKey label kind) ++ kind.encode v) ++ b)
  | messageNone {label : Label} {type : String} {inner rest : Fields} {m : rest.Record}
      {b : Bytes} : Writes rest m b →
      Writes (.message label type inner rest) (none, m) b
  | messageSome {label : Label} {type : String} {inner rest : Fields} {v : inner.Record}
      {m : rest.Record} {w b : Bytes} : Writes inner v w → Writes rest m b →
      Writes (.message label type inner rest) (some v, m)
        (encodeNested label (inner.encodedLength v) w ++ b)
  | messagesNil {label : Label} {type : String} {inner rest : Fields} {m : rest.Record}
      {b : Bytes} : Writes rest m b →
      Writes (.messages label type inner rest) ([], m) b
  | messagesCons {label : Label} {type : String} {inner rest : Fields} {v : inner.Record}
      {vs : List inner.Record} {m : rest.Record} {w b : Bytes} : Writes inner v w →
      Writes (.messages label type inner rest) (vs, m) b →
      Writes (.messages label type inner rest) (v :: vs, m)
        (encodeNested label (inner.encodedLength v) w ++ b)
  | dictionary {label : Label} {rest : Fields} {d : Dictionary} {m : rest.Record} {b : Bytes}
      {es : List (String × Bytes)} : es.Perm d.entries → Writes rest m b →
      Writes (.dictionary label rest) (d, m)
        ((es.flatMap fun e => encodeNested label (lengthEntry e) (encodeEntry e)) ++ b)

/-- Messages written one after the other, in front of the rest. -/
theorem writes_messages {label : Label} {type : String} {inner rest : Fields}
    (hinner : ∀ v, inner.Writes v (inner.encode v)) {m : rest.Record} {b : Bytes}
    (hrest : rest.Writes m b) : ∀ vs : List inner.Record,
    Writes (.messages label type inner rest) (vs, m)
      ((vs.flatMap fun v => encodeNested label (inner.encodedLength v) (inner.encode v)) ++ b) := by
  intro vs
  induction vs with
  | nil => exact .messagesNil hrest
  | cons v vs ih =>
    rw [List.flatMap_cons, List.append_assoc]
    exact .messagesCons (hinner v) ih

/-- A message may be written as `encode` does. -/
theorem writes_encode : ∀ (f : Fields) (m : f.Record), f.Writes m (f.encode m)
  | nil, _ => .nil
  | scalar label kind rest, (v, m) => .scalar label kind v (rest.writes_encode m)
  | scalars label kind rest, (vs, m) => .scalars label kind vs (rest.writes_encode m)
  | message _ _ _ rest, (none, m) => .messageNone (rest.writes_encode m)
  | message _ _ inner rest, (some v, m) =>
    .messageSome (inner.writes_encode v) (rest.writes_encode m)
  | messages _ _ inner rest, (vs, m) =>
    writes_messages inner.writes_encode (rest.writes_encode m) vs
  | dictionary _ rest, (_, m) => .dictionary (.refl _) (rest.writes_encode m)

/-! ### Lengths -/

theorem length_writeKey (k : Key) : (writeKey k).length = lengthKey k := by
  rw [writeKey, length_writeVarint, lengthKey]

theorem length_encodeUnlessZero (label : Label) (kind : Scalar) (v : kind.Carrier) :
    (encodeUnlessZero label kind v).length = lengthUnlessZero label kind v := by
  rw [encodeUnlessZero, lengthUnlessZero]
  split
  · rfl
  · rw [List.length_append, length_writeKey, Scalar.length_encode]

theorem lengthKey_of_lt {k : Key} (h : k.number < 16) : lengthKey k = 1 := by
  have hcode : k.wireType.code < 8 := by cases k.wireType <;> decide
  rw [lengthKey, ← length_writeVarint, writeVarint_of_lt (by omega)]
  rfl

/-- As long as the numbers of fields are small, it does not matter which they are. -/
theorem lengthUnlessZero_eq_of_lt (label label' : Label) (kind : Scalar) (v : kind.Carrier)
    (h : label.number < 16) (h' : label'.number < 16) :
    lengthUnlessZero label kind v = lengthUnlessZero label' kind v := by
  have hkey : lengthKey (scalarKey label kind) = 1 := lengthKey_of_lt h
  have hkey' : lengthKey (scalarKey label' kind) = 1 := lengthKey_of_lt h'
  rw [lengthUnlessZero, lengthUnlessZero, hkey, hkey']

/-- A byte string in a field is no longer than what it is written as. -/
theorem length_le_lengthUnlessZero (label : Label) (v : Bytes) :
    v.length ≤ lengthUnlessZero label .bytes v := by
  rw [lengthUnlessZero]
  by_cases h : v = Scalar.bytes.zero
  · rw [if_pos h, h]
    exact le_rfl
  · rw [if_neg h, Scalar.encodedLength]
    omega

theorem length_encodeEntry (e : String × Bytes) : (encodeEntry e).length = lengthEntry e := by
  rw [encodeEntry, lengthEntry, List.length_append, length_encodeUnlessZero,
    length_encodeUnlessZero]

theorem length_encodeNested (label : Label) (length : Nat) (content : Bytes) :
    (encodeNested label length content).length =
      lengthKey (nestedKey label) + lengthVarint length + content.length := by
  rw [encodeNested, List.length_append, List.length_append, length_writeKey, length_writeVarint]

/-- Pieces in front of the rest take their lengths on top of it. -/
theorem length_flatMap_append {α : Type} {write : α → Bytes} {length : α → Nat}
    (h : ∀ x, (write x).length = length x) (b : Bytes) : ∀ xs : List α,
    (xs.flatMap write ++ b).length = xs.foldr (fun x n => length x + n) b.length := by
  intro xs
  induction xs with
  | nil => rfl
  | cons x xs ih =>
    rw [List.flatMap_cons, List.append_assoc, List.length_append, h, ih, List.foldr_cons]

/-- **A message takes as many bytes as is computed**, and so does every message inside it. -/
theorem Writes.length_eq {f : Fields} {m : f.Record} {b : Bytes} (h : f.Writes m b) :
    b.length = f.encodedLength m := by
  induction h with
  | nil => rfl
  | scalar _ _ _ _ ih => rw [List.length_append, length_encodeUnlessZero, ih, encodedLength]
  | scalars label kind vs _ ih =>
    have hone : ∀ v : kind.Carrier, (writeKey (scalarKey label kind) ++ kind.encode v).length =
        lengthKey (scalarKey label kind) + kind.encodedLength v := by
      intro v
      rw [List.length_append, length_writeKey, Scalar.length_encode]
    rw [length_flatMap_append hone, ih, encodedLength]
  | messageNone _ ih => rw [ih, encodedLength, Nat.zero_add]
  | messageSome _ _ ihInner ih =>
    rw [List.length_append, length_encodeNested, ihInner, ih, encodedLength, lengthNested]
  | messagesNil _ ih => rw [ih, encodedLength, List.foldr_nil]
  | messagesCons _ _ ihInner ih =>
    rw [List.length_append, length_encodeNested, ihInner, ih, encodedLength, encodedLength,
      List.foldr_cons, lengthNested]
  | @dictionary label rest d m b es hperm _ ih =>
    have hone : ∀ e, (encodeNested label (lengthEntry e) (encodeEntry e)).length =
        lengthNested label (lengthEntry e) := by
      intro e
      rw [length_encodeNested, length_encodeEntry, lengthNested]
    rw [List.length_append, (hperm.flatMap_right _).length_eq, ← List.length_append,
      length_flatMap_append hone, ih, encodedLength]

theorem length_encode (f : Fields) (m : f.Record) : (f.encode m).length = f.encodedLength m :=
  (f.writes_encode m).length_eq

/-! ### Messages on top of each other -/

/-- A message on top of another.  A scalar that is not zero replaces the one below, elements come
behind those that are there, entries replace those of the same name, and nested messages are put on
top of each other. -/
def merge : (f : Fields) → f.Record → f.Record → f.Record
  | nil, _, _ => ()
  | scalar _ kind rest, (v, m), (v', m') =>
    (if v' = kind.zero then v else v', rest.merge m m')
  | scalars _ _ rest, (vs, m), (vs', m') => (vs ++ vs', rest.merge m m')
  | message _ _ inner rest, (v, m), (v', m') => (Option.merge inner.merge v v', rest.merge m m')
  | messages _ _ _ rest, (vs, m), (vs', m') => (vs ++ vs', rest.merge m m')
  | dictionary _ rest, (d, m), (d', m') => (d.insertAll d'.entries, rest.merge m m')

/-- A message on top of the one without content is itself. -/
theorem default_merge : ∀ (f : Fields) (m : f.Record), f.merge f.default m = m
  | nil, _ => rfl
  | scalar _ kind rest, (v, m) => by
    rw [default, merge, default_merge]
    by_cases h : v = kind.zero
    · rw [if_pos h, h]
    · rw [if_neg h]
  | scalars _ _ rest, (vs, m) => by rw [default, merge, default_merge, List.nil_append]
  | message _ _ _ rest, (v, m) => by
    rw [default, merge, default_merge]
    cases v <;> rfl
  | messages _ _ _ rest, (vs, m) => by rw [default, merge, default_merge, List.nil_append]
  | dictionary _ rest, (d, m) => by
    rw [default, merge, default_merge, Dictionary.empty_insertAll]

/-- Reading a nested message on top of the one that is there, if any, puts it on top. -/
theorem some_merge_getD (f : Fields) (v : Option f.Record) (v' : f.Record) :
    some (f.merge (v.getD f.default) v') = Option.merge f.merge v (some v') := by
  cases v with
  | none => rw [Option.getD_none, default_merge]; rfl
  | some v => rfl

end LedgerGateway.Wire.Fields
