import LedgerGateway.Proofs.Wire.Primitive
import LedgerGateway.Wire.Fields

/-!
# The grammar of encoded messages

Which bytes are a message of a given type is said here without a reader.  A message is a row of
records (`Fields.IsRow`), each a key and a value (`IsKey`, `Fields.IsValue`).  What the value has to
be depends on what the type says about the number in the key (`Fields.item?`): a scalar, a message,
an entry, or nothing.  In the last case the value is only passed over (`IsSkipped`), but it has to
be complete, and a group has to be closed by an end of the same number (`IsGroup`).

The grammar is strict if an entry has to come with the wire type of messages, as a message has.  The
reader does not ask for that.

Lengths are exact.  A message or entry inside another is a row of its own that fills the length in
front of it.  The depth is what is left of `nestingLimit`; a message, an entry or a group takes one,
and where nothing is left none of them can be entered and no record can be passed over.

What a writer writes is in the grammar (`isVarint_writeVarint`, `isSized_writeSized`,
`isKey_writeKey`).  A number is written as short as it can be, which the grammar does not ask for.
-/

namespace LedgerGateway.Wire

/-! ### Numbers, byte strings and keys -/

/-- Bytes that write a number, seven bits to a byte and the low ones first.  All but the last have
their high bit set. -/
inductive IsDigits : Bytes → Nat → Prop
  | last {x : UInt8} : x < 128 → IsDigits [x] x.toNat
  | more {x : UInt8} {w : Bytes} {n : Nat} : 128 ≤ x → IsDigits w n →
      IsDigits (x :: w) (x.toNat - 128 + 128 * n)

/-- A number of variable width has at most ten bytes and at most 64 bits.  It need not be written as
short as it could be. -/
structure IsVarint (w : Bytes) (n : Nat) : Prop where
  digits : IsDigits w n
  length_le : w.length ≤ 10
  lt : n < sizeLimit

/-- A byte string stands behind its length. -/
def IsSized (w content : Bytes) : Prop :=
  ∃ l, w = l ++ content ∧ IsVarint l content.length

/-- A key is a number of 32 bits, the wire type in the low three of them, and names a field. -/
structure IsKey (w : Bytes) (k : Key) : Prop where
  varint : IsVarint w (8 * k.number + k.wireType.code)
  valid : k.IsValid

theorem isDigits_writeVarint : ∀ n : Nat, IsDigits (writeVarint n) n := by
  intro n
  induction n using Nat.strong_induction_on with
  | _ n ih =>
    by_cases h : n < 128
    · have hn := toNat_ofNat (n := n) (by omega)
      have hlast : UInt8.ofNat n < 128 := by rw [UInt8.lt_iff_toNat_lt, hn]; exact h
      have hdigits := IsDigits.last hlast
      rw [hn] at hdigits
      rwa [writeVarint_of_lt h]
    · -- The first byte takes seven bits off the number.
      have hn := toNat_ofNat (n := n % 128 + 128) (by omega)
      have hmore : 128 ≤ UInt8.ofNat (n % 128 + 128) := by
        rw [UInt8.le_iff_toNat_le, hn]
        exact Nat.le_add_left _ _
      have hdigits := IsDigits.more hmore (ih (n / 128) (by omega))
      rw [hn, Nat.add_sub_cancel, Nat.mod_add_div] at hdigits
      rwa [writeVarint_of_le (by omega)]

theorem isVarint_writeVarint {n : Nat} (h : n < sizeLimit) : IsVarint (writeVarint n) n := by
  refine ⟨isDigits_writeVarint n, ?_, h⟩
  have hlog : Nat.log2 n < 64 := by
    by_cases hzero : n = 0
    · rw [hzero]; decide
    · exact (Nat.log2_lt hzero).mpr h
  rw [length_writeVarint, lengthVarint]
  omega

theorem isSized_writeSized {content : Bytes} (h : content.length < sizeLimit) :
    IsSized (writeSized content) content :=
  ⟨_, rfl, isVarint_writeVarint h⟩

theorem isKey_writeKey {k : Key} (h : k.IsValid) : IsKey (writeKey k) k := by
  have hcode : k.wireType.code < 8 := by cases k.wireType <;> decide
  have hlimit := h.2
  exact ⟨isVarint_writeVarint (by rw [sizeLimit]; omega), h⟩

theorem isVarint_of_lt {n : Nat} (h : n < 128) : IsVarint [UInt8.ofNat n] n := by
  have hvarint := isVarint_writeVarint (n := n) (by rw [sizeLimit]; omega)
  rwa [writeVarint_of_lt h] at hvarint

theorem isKey_of_lt (k : Key) (h : k.number < 16) (hpos : 0 < k.number) :
    IsKey [UInt8.ofNat (8 * k.number + k.wireType.code)] k := by
  have hcode : k.wireType.code < 8 := by cases k.wireType <;> decide
  exact ⟨isVarint_of_lt (by omega), by rw [Key.IsValid]; omega⟩

/-! ### Records of no declared field -/

mutual

/-- The bytes are a complete value for this key, whatever the field. -/
inductive IsSkipped : (depth : Nat) → Key → Bytes → Prop
  | varint {depth number n : Nat} {w : Bytes} : IsVarint w n →
      IsSkipped (depth + 1) ⟨number, .varint⟩ w
  | sixtyFourBit {depth number : Nat} {w : Bytes} : w.length = 8 →
      IsSkipped (depth + 1) ⟨number, .sixtyFourBit⟩ w
  | lengthDelimited {depth number : Nat} {w content : Bytes} : IsSized w content →
      IsSkipped (depth + 1) ⟨number, .lengthDelimited⟩ w
  | group {depth number : Nat} {w : Bytes} : IsGroup depth number w →
      IsSkipped (depth + 1) ⟨number, .startGroup⟩ w
  | thirtyTwoBit {depth number : Nat} {w : Bytes} : w.length = 4 →
      IsSkipped (depth + 1) ⟨number, .thirtyTwoBit⟩ w

/-- The bytes are the records of a group and the end of it. -/
inductive IsGroup : (depth : Nat) → (number : Nat) → Bytes → Prop
  | ended {depth number : Nat} {w : Bytes} : IsKey w ⟨number, .endGroup⟩ → IsGroup depth number w
  | record {depth number : Nat} {key : Key} {w v b : Bytes} : IsKey w key →
      IsSkipped depth key v → IsGroup depth number b → IsGroup depth number (w ++ (v ++ b))

end

/-! ### Records of declared fields -/

/-- The bytes are the scalar.  Of a number that has more bits than the kind the low ones count. -/
def Scalar.Denotes : (k : Scalar) → Bytes → k.Carrier → Prop
  | int32, w, v => ∃ n, IsVarint w n ∧ v = Int32.ofNat n
  | int64, w, v => ∃ n, IsVarint w n ∧ v = Int64.ofNat n
  | uint64, w, v => ∃ n, IsVarint w n ∧ v = UInt64.ofNat n
  | bool, w, v => ∃ n, IsVarint w n ∧ v = (n != 0)
  | string, w, v => IsSized w (Text.encodeUtf8 v)
  | bytes, w, v => IsSized w v

/-- What a record of a field holds. -/
inductive Item where
  | scalar (kind : Scalar)
  | message (type : String) (inner : Fields)
  | entry

namespace Fields

/-- What the records of a number hold, if the type of message has a field of that number. -/
def item? : Fields → Nat → Option Item
  | nil, _ => none
  | scalar label kind rest, n => if n = label.number then some (.scalar kind) else rest.item? n
  | scalars label kind rest, n => if n = label.number then some (.scalar kind) else rest.item? n
  | message label type inner rest, n =>
    if n = label.number then some (.message type inner) else rest.item? n
  | messages label type inner rest, n =>
    if n = label.number then some (.message type inner) else rest.item? n
  | dictionary label rest, n => if n = label.number then some .entry else rest.item? n

/-- The fields of an entry, which is a message like any other. -/
def entryFields : Fields :=
  .scalar entryKey .string <|
  .scalar entryValue .bytes <|
  .nil

mutual

/-- The bytes are the value of a record with this key in a message with these fields. -/
inductive IsValue (strict : Bool) : (f : Fields) → (depth : Nat) → Key → Bytes → Prop
  | scalar {f : Fields} {depth : Nat} {key : Key} {kind : Scalar} {w : Bytes} {v : kind.Carrier} :
      f.item? key.number = some (.scalar kind) → key.wireType = kind.wireType →
      kind.Denotes w v → IsValue strict f depth key w
  | message {f inner : Fields} {depth : Nat} {key : Key} {type : String} {l content : Bytes} :
      f.item? key.number = some (.message type inner) → key.wireType = .lengthDelimited →
      IsVarint l content.length → IsRow strict inner depth content →
      IsValue strict f (depth + 1) key (l ++ content)
  | entry {f : Fields} {depth : Nat} {key : Key} {l content : Bytes} :
      f.item? key.number = some .entry → (strict → key.wireType = .lengthDelimited) →
      IsVarint l content.length → IsRow strict entryFields depth content →
      IsValue strict f (depth + 1) key (l ++ content)
  | unknown {f : Fields} {depth : Nat} {key : Key} {w : Bytes} :
      f.item? key.number = none → IsSkipped depth key w → IsValue strict f depth key w

/-- The bytes are a row of complete records of a message with these fields. -/
inductive IsRow (strict : Bool) : (f : Fields) → (depth : Nat) → Bytes → Prop
  | nil {f : Fields} {depth : Nat} : IsRow strict f depth []
  | cons {f : Fields} {depth : Nat} {key : Key} {w v b : Bytes} : IsKey w key →
      IsValue strict f depth key v → IsRow strict f depth b → IsRow strict f depth (w ++ (v ++ b))

end

end Fields

end LedgerGateway.Wire
