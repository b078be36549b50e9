import LedgerGateway.Proofs.Wire.Exact

/-!
# Reading scalars

What a scalar is written as stands for it (`Scalar.denotes_encode`), so it is read as it was written
(`Scalar.reads_read`).  It takes as many bytes as it is said to (`Scalar.length_encode`).  The only
kind that needs an argument of its own is `int32`: it is written with 64 bits, the upper ones filled
with the sign, and read from the lower ones.
-/

namespace LedgerGateway.Wire.Scalar

/-- The lower half of a number whose sign was extended is the number. -/
theorem int32_ofNat_toInt64 (v : Int32) : Int32.ofNat v.toInt64.toUInt64.toNat = v := by
  rw [← Int32.toBitVec_inj]
  have hhalf : (Int32.ofNat v.toInt64.toUInt64.toNat).toBitVec =
      (v.toBitVec.signExtend 64).setWidth 32 := rfl
  rw [hhalf]
  ext i hi
  have hi64 : i < 64 := by omega
  rw [BitVec.getElem_setWidth, BitVec.getLsbD_eq_getElem hi64, BitVec.getElem_signExtend,
    dif_pos hi]

theorem int64_ofNat_toUInt64 (v : Int64) : Int64.ofNat v.toUInt64.toNat = v := by
  rw [← Int64.toBitVec_inj]
  simp

theorem length_encodeUtf8 (s : String) : (Text.encodeUtf8 s).length = s.utf8ByteSize := by
  simp [Text.encodeUtf8]

theorem length_writeSized (content : Bytes) :
    (writeSized content).length = lengthVarint content.length + content.length := by
  rw [writeSized, List.length_append, length_writeVarint]

theorem length_encode : ∀ (k : Scalar) (v : k.Carrier), (k.encode v).length = k.encodedLength v
  | int32, v => length_writeVarint _
  | int64, v => length_writeVarint _
  | uint64, v => length_writeVarint _
  | bool, v => by
    rw [encode, length_writeVarint]
    cases v <;> rfl
  | string, v => by rw [encode, encodedLength, length_writeSized, length_encodeUtf8]
  | bytes, v => length_writeSized v

/-- A byte string is shorter than its record. -/
theorem length_lt_of_writeSized {content : Bytes} (h : (writeSized content).length < sizeLimit) :
    content.length < sizeLimit := by
  rw [length_writeSized] at h
  omega

/-- What a scalar is written as stands for it. -/
theorem denotes_encode : ∀ (k : Scalar) (v : k.Carrier), (k.encode v).length < sizeLimit →
    k.Denotes (k.encode v) v
  | int32, v, _ =>
    ⟨_, isVarint_writeVarint v.toInt64.toUInt64.toNat_lt, (int32_ofNat_toInt64 v).symm⟩
  | int64, v, _ => ⟨_, isVarint_writeVarint v.toUInt64.toNat_lt, (int64_ofNat_toUInt64 v).symm⟩
  | uint64, v, _ => ⟨_, isVarint_writeVarint v.toNat_lt, UInt64.ofNat_toNat.symm⟩
  | bool, v, _ => by
    have hlt : v.toNat < sizeLimit := by cases v <;> decide
    exact ⟨_, isVarint_writeVarint hlt, by cases v <;> rfl⟩
  | string, _, hsize => isSized_writeSized (length_lt_of_writeSized hsize)
  | bytes, _, hsize => isSized_writeSized (length_lt_of_writeSized hsize)

/-- **A scalar is read as it was written.** -/
theorem reads_read (k : Scalar) (v : k.Carrier) (hsize : (k.encode v).length < sizeLimit)
    (rest : Bytes) : Reads (k.read k.wireType (k.encode v ++ rest)) v rest :=
  reads_read_iff.2 ⟨rfl, _, rfl, denotes_encode k v hsize⟩

end LedgerGateway.Wire.Scalar
