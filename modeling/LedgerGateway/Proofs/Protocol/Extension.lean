import LedgerGateway.Proofs.Proposal.Result
import LedgerGateway.Proofs.Protocol.Schema
import LedgerGateway.Proofs.Wire.Extension

/-!
# Messages with more fields than the schema

The schema declares a part of the fields that peers write.  The records of all others can be put
into a message anywhere, also into the messages inside it, and the same message is read.

In an envelope most messages are held as bytes (`envelopeLayers`), so with records put into these
the envelopes that are read differ.  But they are alike, and so is every message on the way to the
result (`readLayer_bind_eq`).  The result itself is in no layer.  Both together are
`decode_extended`.
-/

namespace LedgerGateway.Protocol

open Wire

/-! ### Layers of an envelope -/

/-- A field of the messages `α` holds the bytes of a message `β`. -/
def layerOf (α : Type) [Message α] (number : Nat) (β : Type) [Message β] :
    (Fields × Nat) × Fields :=
  ((Message.fields α, number), Message.fields β)

/-- The fields of an envelope and of all that is inside it that hold the bytes of a message. -/
def envelopeLayers : Layers :=
  [layerOf Envelope 1 Payload,
    layerOf Header 1 ChannelHeader, layerOf Header 2 SignatureHeader,
    layerOf ChannelHeader 7 ChaincodeHeaderExtension,
    layerOf SignatureHeader 1 SerializedIdentity,
    layerOf Payload 2 Transaction,
    layerOf TransactionAction 1 SignatureHeader, layerOf TransactionAction 2 ChaincodeActionPayload,
    layerOf ChaincodeActionPayload 1 ChaincodeProposalPayload,
    layerOf ChaincodeProposalPayload 1 ChaincodeInvocationSpec,
    layerOf ChaincodeEndorsedAction 1 ProposalResponsePayload,
    layerOf ProposalResponsePayload 2 ChaincodeAction,
    layerOf Endorsement 1 SerializedIdentity]

/-- Two messages of a type are alike. -/
def Alike {α : Type} [Message α] (m m' : α) : Prop :=
  (Message.fields α).Alike envelopeLayers (Message.fields α) (Message.toRecord m)
    (Message.toRecord m')

def AlikeBytes (α : Type) [Message α] (b b' : Bytes) : Prop :=
  b = b' ∨ (Message.fields α).Extends envelopeLayers nestingLimit b b'

theorem exists_decode_of_extends {α : Type} [Message α] {b b' : Bytes}
    (h : (Message.fields α).Extends envelopeLayers nestingLimit b b') :
    ∃ m m' : α, Wire.decode b = .ok m ∧ Wire.decode b' = .ok m' ∧ Alike m m' := by
  obtain ⟨r, r', hr, hr', halike⟩ := h.exists_decode (Message.typeName α)
  refine ⟨Message.ofRecord r, Message.ofRecord r', ?_, ?_, ?_⟩
  · rw [Wire.decode, hr]
    rfl
  · rw [Wire.decode, hr']
    rfl
  · rwa [Alike, Message.toRecord_ofRecord, Message.toRecord_ofRecord]

theorem alikeBytes_of_alikeScalar {α β : Type} [Message α] [Message β] {number : Nat} {b b' : Bytes}
    (h : Fields.AlikeScalar envelopeLayers (Message.fields α) number .bytes b b')
    (hlayer : envelopeLayers.lookup (Message.fields α, number) = some (Message.fields β)) :
    AlikeBytes β b b' := by
  obtain h | ⟨inner, hinner, h⟩ := h
  · exact .inl h
  · cases hlayer.symm.trans hinner
    exact .inr h

theorem readLayer_bind_eq {α β : Type} [Message α] {b b' : Bytes} {f : α → Result β}
    (h : AlikeBytes α b b') (hf : ∀ {m m' : α}, Alike m m' → f m' = f m) :
    (readLayer α b' >>= f) = (readLayer α b >>= f) := by
  obtain rfl | h := h
  · rfl
  · obtain ⟨m, m', hm, hm', halike⟩ := exists_decode_of_extends h
    rw [readLayer, readLayer, hm, hm']
    exact hf halike

theorem alike_of_optionMap {α : Type} [Message α] {o o' : Option α}
    (h : Option.Rel ((Message.fields α).Alike envelopeLayers (Message.fields α))
      (o.map Message.toRecord) (o'.map Message.toRecord)) : Option.Rel Alike o o' :=
  match o, o', h with
  | none, none, .none => .none
  | some _, some _, .some h => .some h

theorem alike_of_listMap {α : Type} [Message α] {l l' : List α}
    (h : List.Forall₂ ((Message.fields α).Alike envelopeLayers (Message.fields α))
      (l.map Message.toRecord) (l'.map Message.toRecord)) : List.Forall₂ Alike l l' := by
  rw [List.forall₂_map_left_iff, List.forall₂_map_right_iff] at h
  exact h

/-! ### The result -/

theorem payload_eq_of_alike {r r' : Response} (h : Alike r r') : r.payload = r'.payload := by
  -- The payload of a response is in no layer.
  have hlayer : envelopeLayers.lookup (Response.fields, 3) = none := by rfl
  exact Fields.eq_of_alikeScalar hlayer h.2.2.1

theorem signedResult_eq_of_alikeBytes {b b' : Bytes} (h : AlikeBytes ProposalResponsePayload b b') :
    signedResult b' = signedResult b := by
  refine readLayer_bind_eq h ?_
  rintro m m' ⟨_, hextension, _⟩
  refine readLayer_bind_eq
    (alikeBytes_of_alikeScalar (α := ProposalResponsePayload) hextension rfl) ?_
  rintro ⟨_, _, response, _⟩ ⟨_, _, response', _⟩ ⟨_, _, hresponse, _⟩
  cases alike_of_optionMap (α := Response) hresponse with
  | none => rfl
  | some hr => exact congrArg Except.ok (payload_eq_of_alike hr).symm

theorem actionResult_eq_of_alikeBytes {b b' : Bytes} (h : AlikeBytes ChaincodeActionPayload b b') :
    actionResult b' = actionResult b := by
  refine readLayer_bind_eq h ?_
  rintro ⟨_, action⟩ ⟨_, action'⟩ ⟨_, haction, _⟩
  cases alike_of_optionMap (α := ChaincodeEndorsedAction) haction with
  | none => rfl
  | some hendorsed =>
    exact signedResult_eq_of_alikeBytes
      (alikeBytes_of_alikeScalar (α := ChaincodeEndorsedAction) hendorsed.1 rfl)

theorem actionsResult_eq_of_alike : ∀ {m m' : Transaction}, Alike m m' →
    actionsResult m'.actions = actionsResult m.actions := by
  rintro ⟨actions⟩ ⟨actions'⟩ ⟨hactions, _⟩
  cases alike_of_listMap (α := TransactionAction) hactions with
  | nil => rfl
  | cons hfirst _ =>
    exact actionResult_eq_of_alikeBytes
      (alikeBytes_of_alikeScalar (α := TransactionAction) hfirst.2.1 rfl)

theorem transactionResult_eq_of_alike : ∀ {e e' : Envelope}, Alike e e' →
    transactionResult e' = transactionResult e := by
  rintro e e' ⟨hpayload, _⟩
  rw [transactionResult_eq, transactionResult_eq]
  refine readLayer_bind_eq (alikeBytes_of_alikeScalar (α := Envelope) hpayload rfl) ?_
  rintro m m' ⟨_, hdata, _⟩
  exact readLayer_bind_eq (alikeBytes_of_alikeScalar (α := Payload) hdata rfl)
    actionsResult_eq_of_alike

/-! ### All messages -/

/-- **Records of no declared field are not seen.**  Whatever their numbers and values are, putting
them into a message of any type does not change what is read, and putting them into an envelope,
into all the messages that it is made of, does not change the result that is dug out of it. -/
theorem decode_extended :
    (∀ (s : Schema) {b b' : Bytes} {m : s.fields.Record}, s.decode b = .ok m →
      s.fields.Extends [] nestingLimit b b' → s.decode b' = .ok m) ∧
    ∀ {b b' : Bytes}, Envelope.fields.Extends envelopeLayers nestingLimit b b' →
      ∃ e e' : Envelope, Wire.decode b = .ok e ∧ Wire.decode b' = .ok e' ∧
        transactionResult e' = transactionResult e := by
  constructor
  · intro s b b' m hm h
    obtain ⟨n, n', hn, hn', halike⟩ := h.exists_decode s.typeName
    obtain rfl := Fields.eq_of_alike_nil _ halike
    cases hm.symm.trans hn
    exact hn'
  · intro b b' h
    obtain ⟨e, e', he, he', halike⟩ := exists_decode_of_extends (α := Envelope) h
    exact ⟨e, e', he, he', transactionResult_eq_of_alike halike⟩

/-! ### Samples -/

/-- A record that holds bytes, of a small number and with few bytes. -/
def shortRecord (number : Nat) (content : Bytes) : Bytes :=
  UInt8.ofNat (8 * number + 2) :: UInt8.ofNat content.length :: content

/-- An envelope with a transaction that has one action.  The payload has some records in front, and
the response to the action consists of these. -/
def shortEnvelope (records response : Bytes) : Bytes :=
  shortRecord 1 <| records ++ (shortRecord 2 <| shortRecord 1 <| shortRecord 2 <| shortRecord 2 <|
    shortRecord 1 <| shortRecord 2 <| shortRecord 3 response)

section Short

variable {layers : Layers} {f inner : Fields} {depth : Nat} {key : Key} {w v v' c c' : Bytes}

theorem extends_record (hkey : IsKey w key) (h : Fields.ExtendsValue layers f depth key v v') :
    f.Extends layers depth (w ++ v) (w ++ v') := by
  have hrecord := Fields.Extends.record hkey h .nil
  rwa [List.append_nil, List.append_nil] at hrecord

theorem extends_layer (n : Nat) (hn : 0 < n ∧ n < 16) (hitem : f.item? n = some (.scalar .bytes))
    (hlayer : layers.lookup (f, n) = some inner) (hc : c.length < 128) (hc' : c'.length < 128)
    (h : inner.Extends layers nestingLimit c c') :
    f.Extends layers depth (shortRecord n c) (shortRecord n c') :=
  extends_record (isKey_of_lt ⟨n, .lengthDelimited⟩ hn.2 hn.1)
    (.layer hitem rfl hlayer ⟨_, rfl, isVarint_of_lt hc⟩ ⟨_, rfl, isVarint_of_lt hc'⟩ h)

theorem extends_message {type : String} (n : Nat) (hn : 0 < n ∧ n < 16)
    (hitem : f.item? n = some (.message type inner)) (hc : c.length < 128) (hc' : c'.length < 128)
    (h : inner.Extends layers depth c c') :
    f.Extends layers (depth + 1) (shortRecord n c) (shortRecord n c') :=
  extends_record (isKey_of_lt ⟨n, .lengthDelimited⟩ hn.2 hn.1)
    (.message hitem rfl (isVarint_of_lt hc) (isVarint_of_lt hc') h)

theorem extends_entry (n : Nat) (hn : 0 < n ∧ n < 16) (hitem : f.item? n = some .entry)
    (hc : c.length < 128) (hc' : c'.length < 128)
    (h : Fields.entryFields.Extends [] depth c c') :
    f.Extends layers (depth + 1) (shortRecord n c) (shortRecord n c') :=
  extends_record (isKey_of_lt ⟨n, .lengthDelimited⟩ hn.2 hn.1)
    (.entry hitem (isVarint_of_lt hc) (isVarint_of_lt hc') h)

end Short

/-- The number five in field 15. -/
theorem isForeign_number {f : Fields} {depth : Nat} (h : f.item? 15 = none) :
    f.IsForeign (depth + 1) [0x78, 0x05] :=
  ⟨⟨15, .varint⟩, _, [0x05], rfl, isKey_of_lt _ (by decide) (by decide), h,
    .varint (isVarint_of_lt (by decide))⟩

/-- A group in field 9, with the number one in it. -/
theorem isForeign_group : Fields.entryFields.IsForeign 99 [0x4b, 0x08, 0x01, 0x4c] := by
  have hone : IsKey [0x08] _ := isKey_of_lt ⟨1, .varint⟩ (by decide) (by decide)
  have hend : IsKey [0x4c] _ := isKey_of_lt ⟨9, .endGroup⟩ (by decide) (by decide)
  exact ⟨⟨9, .startGroup⟩, _, [0x08, 0x01, 0x4c], rfl, isKey_of_lt _ (by decide) (by decide), rfl,
    .group (.record hone (.varint (isVarint_of_lt (by decide))) (.ended hend))⟩

/-- Four bytes in field 4. -/
theorem isForeign_fourBytes : Response.fields.IsForeign 99 [0x25, 0x01, 0x02, 0x03, 0x04] :=
  ⟨⟨4, .thirtyTwoBit⟩, _, [0x01, 0x02, 0x03, 0x04], rfl, isKey_of_lt _ (by decide) (by decide), rfl,
    .thirtyTwoBit rfl⟩

/-- An input with one entry, which has a name only. -/
def bareInput : Bytes := shortRecord 2 (shortRecord 1 [0x61])

/-- `bareInput` with a group in the entry and a number behind it. -/
def fullInput : Bytes :=
  shortRecord 2 ([0x4b, 0x08, 0x01, 0x4c] ++ shortRecord 1 [0x61]) ++ [0x78, 0x05]

theorem extends_fullInput : ChaincodeInput.fields.Extends [] nestingLimit bareInput fullInput := by
  have hname : Scalar.string.Denotes [0x01, 0x61] "a" := ⟨_, rfl, isVarint_of_lt (by decide)⟩
  have hcontent : Fields.entryFields.IsRow false 99 (shortRecord 1 [0x61]) :=
    .cons (isKey_of_lt ⟨1, .lengthDelimited⟩ (by decide) (by decide)) (.scalar rfl rfl hname) .nil
  have hentry : ChaincodeInput.fields.Extends [] nestingLimit bareInput _ :=
    extends_entry 2 (by decide) rfl (by decide) (by decide)
      (Fields.extends_insert .nil isForeign_group hcontent [])
  exact hentry.append (.inserted (isForeign_number rfl) .nil)

/-- An envelope in which the response has a payload. -/
def bareEnvelope : Bytes := shortEnvelope [] (shortRecord 3 [0x07])

/-- `bareEnvelope` with a number in the payload and four bytes in the response. -/
def fullEnvelope : Bytes :=
  shortEnvelope [0x78, 0x05] ([0x25, 0x01, 0x02, 0x03, 0x04] ++ shortRecord 3 [0x07])

theorem extends_fullEnvelope :
    Envelope.fields.Extends envelopeLayers nestingLimit bareEnvelope fullEnvelope := by
  have hpayload : Scalar.bytes.Denotes [0x01, 0x07] [0x07] := ⟨_, rfl, isVarint_of_lt (by decide)⟩
  have hresponse : Response.fields.Extends envelopeLayers 99 (shortRecord 3 [0x07])
      ([0x25, 0x01, 0x02, 0x03, 0x04] ++ shortRecord 3 [0x07]) :=
    .inserted isForeign_fourBytes
      (extends_record (isKey_of_lt ⟨3, .lengthDelimited⟩ (by decide) (by decide))
        (.scalar rfl rfl hpayload))
  have haction : ChaincodeAction.fields.Extends envelopeLayers nestingLimit _ _ :=
    extends_message 3 (by decide) rfl (by decide) (by decide) hresponse
  have hsigned : ProposalResponsePayload.fields.Extends envelopeLayers nestingLimit _ _ :=
    extends_layer 2 (by decide) rfl rfl (by decide) (by decide) haction
  have hendorsed : ChaincodeEndorsedAction.fields.Extends envelopeLayers 99 _ _ :=
    extends_layer 1 (by decide) rfl rfl (by decide) (by decide) hsigned
  have hcontent : ChaincodeActionPayload.fields.Extends envelopeLayers nestingLimit _ _ :=
    extends_message 2 (by decide) rfl (by decide) (by decide) hendorsed
  have hfirst : TransactionAction.fields.Extends envelopeLayers 99 _ _ :=
    extends_layer 2 (by decide) rfl rfl (by decide) (by decide) hcontent
  have htransaction : Transaction.fields.Extends envelopeLayers nestingLimit _ _ :=
    extends_message 1 (by decide) rfl (by decide) (by decide) hfirst
  have hdata : Payload.fields.Extends envelopeLayers nestingLimit _ _ :=
    extends_layer 2 (by decide) rfl rfl (by decide) (by decide) htransaction
  exact extends_layer 1 (by decide) rfl rfl (by decide) (by decide)
    (.inserted (isForeign_number rfl) hdata)

theorem decode_extended_sample :
    (Schema.of ChaincodeInput).decode bareInput =
      .ok (Message.toRecord { decorations := Dictionary.empty.insert "a" [] : ChaincodeInput }) ∧
    ChaincodeInput.fields.Extends [] nestingLimit bareInput fullInput ∧
    (Schema.of ChaincodeInput).decode fullInput =
      .ok (Message.toRecord { decorations := Dictionary.empty.insert "a" [] : ChaincodeInput }) ∧
    Envelope.fields.Extends envelopeLayers nestingLimit bareEnvelope fullEnvelope ∧
    ∃ e e' : Envelope, Wire.decode bareEnvelope = .ok e ∧ Wire.decode fullEnvelope = .ok e' ∧
      transactionResult e = .ok [0x07] ∧ transactionResult e' = .ok [0x07] := by
  have hbare : (Schema.of ChaincodeInput).decode bareInput =
      .ok (Message.toRecord { decorations := Dictionary.empty.insert "a" [] : ChaincodeInput }) :=
    Schema.decode_of_eq_ok_iff.2 (by decide +kernel)
  have hresult : (readLayer Envelope bareEnvelope >>= transactionResult) = .ok [0x07] := by
    decide +kernel
  obtain ⟨e, e', he, he', heq⟩ := decode_extended.2 extends_fullEnvelope
  rw [readLayer, he] at hresult
  exact ⟨hbare, extends_fullInput,
    decode_extended.1 (Schema.of ChaincodeInput) hbare extends_fullInput,
    extends_fullEnvelope, e, e', he, he', hresult, heq.trans hresult⟩

end LedgerGateway.Protocol
