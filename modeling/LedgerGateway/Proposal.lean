import LedgerGateway.Error
import LedgerGateway.Protocol.Envelope
import LedgerGateway.Protocol.Transaction

/-!
# Proposals

A proposal says who calls which function of which chaincode on which channel (`Call`). It is made
together with bytes that are used only once and the time (`Call.propose`), and it is told apart from
all others by a transaction id, a hash of those bytes and of the caller (`transactionId`).

What peers make of a proposal comes back as an envelope, many layers deep. `transactionResult` digs
out what the chaincode returned.
-/

namespace LedgerGateway

def nonceLength : Nat := 24

def transactionId (nonce creator : Bytes) : String :=
  Bytes.hex (Hash.sha256.digest (nonce ++ creator))

structure Call where
  /-- The bytes of the caller's identity. -/
  creator : Bytes
  channel : String
  chaincode : String
  function : String
  arguments : List String
deriving DecidableEq, Repr

/-- The bytes of a proposal, and the id of the transaction it leads to. -/
structure UnsignedProposal where
  transactionId : String
  bytes : Bytes
deriving DecidableEq, Repr

namespace Call

open Protocol

def chaincodeId (c : Call) : ChaincodeId :=
  { name := c.chaincode }

/-- What the proposal says about the channel and the transaction. -/
def channelHeader (c : Call) (nonce : Bytes) (time : Timestamp) : ChannelHeader where
  type := HeaderType.endorserTransaction.code
  timestamp := some time
  channelId := c.channel
  txId := LedgerGateway.transactionId nonce c.creator
  extension := Wire.encode ({ chaincodeId := some c.chaincodeId } : ChaincodeHeaderExtension)

/-- What the proposal says about the caller. -/
def signatureHeader (c : Call) (nonce : Bytes) : SignatureHeader :=
  { creator := c.creator, nonce := nonce }

/-- What the chaincode is called with: the name of the function, and its arguments. -/
def input (c : Call) : ChaincodeInput :=
  { args := (c.function :: c.arguments).map Text.encodeUtf8 }

def invocation (c : Call) : ChaincodeInvocationSpec :=
  { chaincodeSpec := some { chaincodeId := some c.chaincodeId, input := some c.input } }

def header (c : Call) (nonce : Bytes) (time : Timestamp) : Header :=
  { channelHeader := Wire.encode (c.channelHeader nonce time)
    signatureHeader := Wire.encode (c.signatureHeader nonce) }

/-- The call as the payload of the proposal. -/
def payload (c : Call) : ChaincodeProposalPayload :=
  { input := Wire.encode c.invocation }

def proposal (c : Call) (nonce : Bytes) (time : Timestamp) : Proposal :=
  { header := Wire.encode (c.header nonce time), payload := Wire.encode c.payload }

def propose (c : Call) (nonce : Bytes) (time : Timestamp) : UnsignedProposal :=
  ⟨transactionId nonce c.creator, Wire.encode (c.proposal nonce time)⟩

end Call

def readLayer (α : Type) [Wire.Message α] (b : Bytes) : Result α :=
  (Wire.decode (α := α) b).mapError .decode

/-- What the chaincode returned, from the envelope that peers prepared. Only the first action
counts, and no response is an empty one. -/
def transactionResult (prepared : Protocol.Envelope) : Result Bytes := do
  let payload ← readLayer Protocol.Payload prepared.payload
  let transaction ← readLayer Protocol.Transaction payload.data
  match transaction.actions with
  | [] => .error (.invalidResponse .noActions)
  | action :: _ =>
    let actionPayload ← readLayer Protocol.ChaincodeActionPayload action.payload
    match actionPayload.action with
    | none => .error (.invalidResponse .noEndorsedAction)
    | some endorsed =>
      let response ←
        readLayer Protocol.ProposalResponsePayload endorsed.proposalResponsePayload
      let chaincodeAction ← readLayer Protocol.ChaincodeAction response.extension
      return (chaincodeAction.response.map (·.payload)).getD []

end LedgerGateway
