import LedgerGateway.Proofs.Wire.RoundTrip
import LedgerGateway.Proposal

/-!
# Reading proposals

A proposal is made in layers, each kept as the bytes of a message inside the one around it.  If the
bytes of a proposal fit into memory then so does every layer, and each is read as it was made:
`Call.decode_propose`, `Call.decode_header`, `Call.decode_channelHeader` and
`Call.decode_signatureHeader`.
-/

namespace LedgerGateway

open Protocol Wire

/-! ### Layers are shorter than what is around them -/

theorem Protocol.Proposal.length_header_le (m : Proposal) :
    m.header.length ≤ (encode m).length := by
  rw [length_encode]
  exact le_trans (Fields.length_le_lengthUnlessZero _ _) (Nat.le_add_right _ _)

/-- The two parts of a header have room side by side. -/
theorem Protocol.Header.length_add_length_le (m : Header) :
    m.channelHeader.length + m.signatureHeader.length ≤ (encode m).length := by
  rw [length_encode]
  exact Nat.add_le_add (Fields.length_le_lengthUnlessZero _ _)
    (Fields.length_le_lengthUnlessZero _ _)

namespace Call

variable (c : Call) (nonce : Bytes) (time : Timestamp)

theorem length_header_le :
    (encode (c.header nonce time)).length ≤ (c.propose nonce time).bytes.length :=
  (c.proposal nonce time).length_header_le

theorem length_headers_le :
    (encode (c.channelHeader nonce time)).length + (encode (c.signatureHeader nonce)).length ≤
      (c.propose nonce time).bytes.length :=
  le_trans (c.header nonce time).length_add_length_le (c.length_header_le nonce time)

/-! ### Reading the layers -/

section Read

variable {c nonce time} (hsize : (c.propose nonce time).bytes.length < sizeLimit)

include hsize

theorem decode_propose : decode (c.propose nonce time).bytes = .ok (c.proposal nonce time) :=
  decode_encode hsize

theorem decode_header : decode (c.proposal nonce time).header = .ok (c.header nonce time) :=
  decode_encode (lt_of_le_of_lt (c.length_header_le nonce time) hsize)

theorem decode_channelHeader :
    decode (c.header nonce time).channelHeader = .ok (c.channelHeader nonce time) := by
  refine decode_encode ?_
  have hle := c.length_headers_le nonce time
  omega

theorem decode_signatureHeader :
    decode (c.header nonce time).signatureHeader = .ok (c.signatureHeader nonce) := by
  refine decode_encode ?_
  have hle := c.length_headers_le nonce time
  omega

end Read

end Call

end LedgerGateway
