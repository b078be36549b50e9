import LedgerGateway.Proofs.Protocol.Extension
import LedgerGateway.Proofs.Wire.Order

/-!
# The order of the fields of a message

Peers write the fields of a message in any order.  For every type of message the result depends only
on the records of each declared field, in the order in which these come (`Schema.decode_reordered`).
How the records of different fields are mixed does not matter, and nor do records of other numbers.

A record is here what is one for the type of message.  Whatever can be read is a row of such records
in exactly one way.
-/

namespace LedgerGateway.Protocol.Schema

open Wire Fields

/-- **The order of different fields does not matter.**  Every message that can be read is a row of
records, and in one way only.  Any reordering that keeps the order among records of the same number
gives the same message; and so does every row that has the same records in each declared field. -/
theorem decode_reordered : ∀ s : Schema,
    (∀ {b : Bytes} {m : s.fields.Record}, s.decode b = .ok m →
      ∃! rs : List s.fields.RawRecord, RawRecord.join rs = b) ∧
    (∀ {rs rs' : List s.fields.RawRecord} {m : s.fields.Record},
      s.decode (RawRecord.join rs) = .ok m → rs'.Perm rs →
      (∀ n, RawRecord.withNumber n rs' = RawRecord.withNumber n rs) →
      s.decode (RawRecord.join rs') = .ok m) ∧
    ∀ {rs rs' : List s.fields.RawRecord},
      (∀ n ∈ s.fields.numbers, RawRecord.withNumber n rs' = RawRecord.withNumber n rs) →
      ∃ m, s.decode (RawRecord.join rs) = .ok m ∧ s.decode (RawRecord.join rs') = .ok m := by
  intro s
  refine ⟨?_, ?_, RawRecord.exists_decode_join s.typeName⟩
  · intro b m h
    obtain ⟨rs, rfl⟩ := RawRecord.exists_join (Fields.exists_decode_iff.1 ⟨m, h⟩) rfl
    exact ⟨rs, rfl, fun rs' h' => RawRecord.join_injective h'⟩
  · intro rs rs' m h _ hsame
    obtain ⟨m', hm', hreordered⟩ :=
      RawRecord.exists_decode_join s.typeName fun n _ => hsame n
    cases h.symm.trans hm'
    exact hreordered

theorem isValue_chaincodeId {l content : Bytes} (hl : l = [UInt8.ofNat content.length])
    (hlt : content.length < 128) (h : ChaincodeId.fields.IsRow false 99 content) :
    (of ChaincodeSpec).fields.IsValue false nestingLimit ⟨2, .lengthDelimited⟩ (l ++ content) := by
  subst hl
  exact .message rfl rfl (isVarint_of_lt hlt) h

/-- The name of a chaincode, as a part of a call. -/
def nameRecord : (of ChaincodeSpec).fields.RawRecord where
  key := ⟨2, .lengthDelimited⟩
  front := [0x12]
  value := [0x03] ++ shortRecord 2 [0x61]
  isKey := isKey_of_lt ⟨2, .lengthDelimited⟩ (by decide) (by decide)
  isValue :=
    have hname : Scalar.string.Denotes [0x01, 0x61] "a" := ⟨_, rfl, isVarint_of_lt (by decide)⟩
    isValue_chaincodeId rfl (by decide)
      (.cons (isKey_of_lt ⟨2, .lengthDelimited⟩ (by decide) (by decide)) (.scalar rfl rfl hname) .nil)

def pathRecord : (of ChaincodeSpec).fields.RawRecord where
  key := ⟨2, .lengthDelimited⟩
  front := [0x12]
  value := [0x03] ++ shortRecord 1 [0x70]
  isKey := isKey_of_lt ⟨2, .lengthDelimited⟩ (by decide) (by decide)
  isValue :=
    have hpath : Scalar.string.Denotes [0x01, 0x70] "p" := ⟨_, rfl, isVarint_of_lt (by decide)⟩
    isValue_chaincodeId rfl (by decide)
      (.cons (isKey_of_lt ⟨1, .lengthDelimited⟩ (by decide) (by decide)) (.scalar rfl rfl hpath) .nil)

def typeRecord : (of ChaincodeSpec).fields.RawRecord where
  key := ⟨1, .varint⟩
  front := [0x08]
  value := [0x01]
  isKey := isKey_of_lt ⟨1, .varint⟩ (by decide) (by decide)
  isValue :=
    have hone : Scalar.int32.Denotes [0x01] (1 : Int32) := ⟨1, isVarint_of_lt (by decide), rfl⟩
    .scalar rfl rfl hone

/-- A group of no declared field, with nothing in it. -/
def groupRecord : (of ChaincodeSpec).fields.RawRecord where
  key := ⟨9, .startGroup⟩
  front := [0x4b]
  value := [0x4c]
  isKey := isKey_of_lt ⟨9, .startGroup⟩ (by decide) (by decide)
  isValue :=
    have hskipped : IsSkipped nestingLimit ⟨9, .startGroup⟩ [0x4c] :=
      .group (.ended (isKey_of_lt ⟨9, .endGroup⟩ (by decide) (by decide)))
    .unknown rfl hskipped

theorem decode_reordered_parts :
    (of ChaincodeSpec).decode (RawRecord.join [nameRecord, groupRecord, pathRecord, typeRecord]) =
      .ok (Message.toRecord
        { type := 1, chaincodeId := some { path := "p", name := "a" } : ChaincodeSpec }) ∧
    (of ChaincodeSpec).decode (RawRecord.join [typeRecord, nameRecord, pathRecord, groupRecord]) =
      .ok (Message.toRecord
        { type := 1, chaincodeId := some { path := "p", name := "a" } : ChaincodeSpec }) := by
  have hfirst : (of ChaincodeSpec).decode
      (RawRecord.join [nameRecord, groupRecord, pathRecord, typeRecord]) = .ok (Message.toRecord
        { type := 1, chaincodeId := some { path := "p", name := "a" } : ChaincodeSpec }) :=
    decode_of_eq_ok_iff.2 (by decide +kernel)
  have hperm : [typeRecord, nameRecord, pathRecord, groupRecord].Perm
      [nameRecord, groupRecord, pathRecord, typeRecord] :=
    (List.perm_append_comm : ([typeRecord] ++ [nameRecord, pathRecord, groupRecord]).Perm _).trans
      ((List.Perm.swap groupRecord pathRecord [typeRecord]).cons nameRecord)
  refine ⟨hfirst, (decode_reordered (of ChaincodeSpec)).2.1 hfirst hperm fun n => ?_⟩
  have hname : nameRecord.number = 2 := rfl
  have hpath : pathRecord.number = 2 := rfl
  have htype : typeRecord.number = 1 := rfl
  have hgroup : groupRecord.number = 9 := rfl
  simp only [RawRecord.withNumber, List.filter_cons, List.filter_nil, hname, hpath, htype, hgroup,
    decide_eq_true_eq]
  split_ifs <;> first | rfl | omega

end LedgerGateway.Protocol.Schema
