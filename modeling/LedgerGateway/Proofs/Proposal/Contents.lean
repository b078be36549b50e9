import LedgerGateway.Proofs.Proposal
import LedgerGateway.Proofs.Wire.Holding

/-!
# A proposal says what was asked for

A proposal is made of seven messages, five of them kept as bytes inside others.  Reading the bytes
of a proposal layer by layer (`ProposalLayers.read`) succeeds at every layer and leads to messages
that say what the call was, in which nothing else is set (`ProposalLayers.Says`).  So nothing of a
call is lost on the way: another call, or the same one with other bytes that are used only once or
at another time, makes another proposal (`Call.propose_says`).  The proposal has to fit into memory
(`Wire.sizeLimit`).
-/

namespace LedgerGateway

open Protocol Wire

/-! ### Layers -/

/-- No two texts have the same bytes. -/
theorem Text.encodeUtf8_injective : Function.Injective Text.encodeUtf8 := by
  intro s s' h
  have hread := Text.decodeUtf8?_encodeUtf8 s
  rw [h, Text.decodeUtf8?_encodeUtf8] at hread
  exact (Option.some.inj hread).symm

/-- The messages that a proposal is made of. -/
structure ProposalLayers where
  proposal : Protocol.Proposal
  header : Header
  channelHeader : ChannelHeader
  signatureHeader : SignatureHeader
  headerExtension : ChaincodeHeaderExtension
  payload : ChaincodeProposalPayload
  invocation : ChaincodeInvocationSpec

namespace ProposalLayers

def read (b : Bytes) : Except DecodeError ProposalLayers := do
  let proposal ← decode (α := Protocol.Proposal) b
  let header ← decode (α := Header) proposal.header
  let channelHeader ← decode (α := ChannelHeader) header.channelHeader
  let signatureHeader ← decode header.signatureHeader
  let headerExtension ← decode channelHeader.extension
  let payload ← decode (α := ChaincodeProposalPayload) proposal.payload
  let invocation ← decode payload.input
  return { proposal, header, channelHeader, signatureHeader, headerExtension, payload, invocation }

/-- The layers say that this call was made, with these bytes that are used only once and at this
time.  A field that is not named has the value it has when nothing is written. -/
structure Says (l : ProposalLayers) (c : Call) (nonce : Bytes) (time : Timestamp) : Prop where
  proposal : l.proposal = { header := l.proposal.header, payload := l.proposal.payload }
  channelHeader : l.channelHeader =
    { type := 3
      timestamp := some time
      channelId := c.channel
      txId := Bytes.hex (Hash.sha256.digest (nonce ++ c.creator))
      extension := l.channelHeader.extension }
  signatureHeader : l.signatureHeader = { creator := c.creator, nonce := nonce }
  headerExtension : l.headerExtension = { chaincodeId := some { name := c.chaincode } }
  payload : l.payload = { input := l.payload.input }
  invocation : l.invocation =
    { chaincodeSpec := some
        { chaincodeId := some { name := c.chaincode }
          input := some { args := (c.function :: c.arguments).map Text.encodeUtf8 } } }

/-- What the layers say, they say of one call only. -/
theorem Says.unique {l : ProposalLayers} {c c' : Call} {nonce nonce' : Bytes}
    {time time' : Timestamp} (h : l.Says c nonce time) (h' : l.Says c' nonce' time') :
    c = c' ∧ nonce = nonce' ∧ time = time' := by
  have hchannel := h.channelHeader.symm.trans h'.channelHeader
  have hcaller := h.signatureHeader.symm.trans h'.signatureHeader
  have hcall := h.invocation.symm.trans h'.invocation
  simp only [ChannelHeader.mk.injEq, Option.some.injEq] at hchannel
  simp only [SignatureHeader.mk.injEq] at hcaller
  simp only [ChaincodeInvocationSpec.mk.injEq, ChaincodeSpec.mk.injEq, ChaincodeId.mk.injEq,
    ChaincodeInput.mk.injEq, Option.some.injEq] at hcall
  obtain ⟨_, _, htime, hid, _⟩ := hchannel
  obtain ⟨hcreator, hnonce⟩ := hcaller
  obtain ⟨_, ⟨_, hchaincode, _⟩, ⟨hargs, _⟩, _⟩ := hcall
  obtain ⟨hfunction, harguments⟩ :=
    List.cons.inj (List.map_injective_iff.2 Text.encodeUtf8_injective hargs)
  refine ⟨?_, hnonce, htime⟩
  cases c
  cases c'
  simp_all

end ProposalLayers

namespace Call

/-! ### Reading the layers of a call -/

section Read

variable {c : Call} {nonce : Bytes} {time : Timestamp}
  (hsize : (c.propose nonce time).bytes.length < sizeLimit)

include hsize

theorem length_payload_lt : (c.proposal nonce time).payload.length < sizeLimit :=
  length_lt_of_holds (.behindScalar .scalar) hsize

theorem length_extension_lt : (c.channelHeader nonce time).extension.length < sizeLimit := by
  have hchannel : (encode (c.channelHeader nonce time)).length < sizeLimit := by
    have hle := c.length_headers_le nonce time
    omega
  exact length_lt_of_holds (.behindScalar (.behindScalar (.behindMessage (.behindScalar
    (.behindScalar (.behindScalar .scalar)))))) hchannel

theorem decode_headerExtension : decode (c.channelHeader nonce time).extension =
    .ok ({ chaincodeId := some c.chaincodeId } : ChaincodeHeaderExtension) := by
  have hlt := length_extension_lt hsize
  rw [channelHeader] at hlt ⊢
  exact decode_encode hlt

theorem decode_payload : decode (c.proposal nonce time).payload = .ok c.payload :=
  decode_encode (length_payload_lt hsize)

theorem decode_invocation : decode c.payload.input = .ok c.invocation :=
  decode_encode (length_lt_of_holds (m := c.payload) .scalar (length_payload_lt hsize))

/-- The layers of a proposal are those it was made of, and say which call it is. -/
theorem exists_read_propose : ∃ l, ProposalLayers.read (c.propose nonce time).bytes = .ok l ∧
    l.Says c nonce time ∧ l.channelHeader.txId = (c.propose nonce time).transactionId := by
  refine ⟨⟨c.proposal nonce time, c.header nonce time, c.channelHeader nonce time,
    c.signatureHeader nonce, { chaincodeId := some c.chaincodeId }, c.payload, c.invocation⟩,
    ?_, ⟨rfl, rfl, rfl, rfl, rfl, rfl⟩, rfl⟩
  simp only [ProposalLayers.read, decode_propose hsize, decode_header hsize,
    decode_channelHeader hsize, decode_signatureHeader hsize, decode_headerExtension hsize,
    decode_payload hsize, decode_invocation hsize, bind, Except.bind, pure, Except.pure]

end Read

/-- **A proposal says exactly what was asked for.**  Its layers can all be read and say which call
it is, the id of the transaction among them.  No other call, and no other bytes or time for the same
one, make the same proposal. -/
theorem propose_says {c : Call} {nonce : Bytes} {time : Timestamp}
    (hsize : (c.propose nonce time).bytes.length < sizeLimit) :
    (∃ l, ProposalLayers.read (c.propose nonce time).bytes = .ok l ∧ l.Says c nonce time ∧
      l.channelHeader.txId = (c.propose nonce time).transactionId) ∧
    ∀ (c' : Call) (nonce' : Bytes) (time' : Timestamp), (c', nonce', time') ≠ (c, nonce, time) →
      (c'.propose nonce' time').bytes ≠ (c.propose nonce time).bytes := by
  refine ⟨exists_read_propose hsize, ?_⟩
  intro c' nonce' time' hne heq
  obtain ⟨l, hread, hsays, _⟩ := exists_read_propose hsize
  -- The same bytes have the same size, so the layers of the other proposal can be read as well.
  rw [← heq] at hsize hread
  obtain ⟨l', hread', hsays', _⟩ := exists_read_propose hsize
  obtain rfl : l' = l := Except.ok.inj (hread'.symm.trans hread)
  obtain ⟨rfl, rfl, rfl⟩ := hsays'.unique hsays
  exact hne rfl

/-- A call with an argument that is empty and one that is not ASCII. -/
def sampleCall : Call := ⟨[1, 2], "mychannel", "basic", "Create", ["", "é"]⟩

/-- A second before 1970 and the largest part of a second. -/
def sampleTime : Timestamp := ⟨-1, 999999999⟩

theorem sampleCall_says :
    (sampleCall.propose [7] sampleTime).bytes.length < sizeLimit ∧
    (∃ l, ProposalLayers.read (sampleCall.propose [7] sampleTime).bytes = .ok l ∧
      l.Says sampleCall [7] sampleTime ∧
      l.channelHeader.txId = (sampleCall.propose [7] sampleTime).transactionId) ∧
    (sampleCall, ([] : Bytes), sampleTime) ≠ (sampleCall, [7], sampleTime) ∧
    (sampleCall.propose [] sampleTime).bytes ≠ (sampleCall.propose [7] sampleTime).bytes := by
  have hsize : (sampleCall.propose [7] sampleTime).bytes.length < sizeLimit := by
    decide +kernel
  have hsays := propose_says hsize
  have hne : (sampleCall, ([] : Bytes), sampleTime) ≠ (sampleCall, [7], sampleTime) := by
    decide
  exact ⟨hsize, hsays.1, hne, hsays.2 sampleCall [] sampleTime hne⟩

end Call

end LedgerGateway
