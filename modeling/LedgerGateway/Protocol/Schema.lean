import LedgerGateway.Protocol.Gateway
import LedgerGateway.Protocol.Identity
import LedgerGateway.Protocol.Status

/-!
# The schema

All types of messages of the ledger in one list (`Schema.all`), so that a message can be read by the
name of its type.
-/

namespace LedgerGateway.Protocol

structure Schema where
  /-- The name of the type. -/
  name : String
  /-- The name of the type in error texts. -/
  typeName : String
  /-- The fields on the wire. -/
  fields : Wire.Fields
  wellFormed : fields.IsWellFormed
  nesting_le : fields.nesting ≤ Wire.nestingLimit
deriving DecidableEq, Repr

namespace Schema

def of (α : Type) [Wire.Message α] : Schema :=
  ⟨Wire.Message.name α, Wire.Message.typeName α, Wire.Message.fields α, Wire.Message.wellFormed,
    Wire.Message.nesting_le⟩

def all : List Schema :=
  [of Timestamp, of Any, of Status,
    of Header, of ChannelHeader, of SignatureHeader, of Payload, of Envelope,
    of SerializedIdentity,
    of ChaincodeId, of ChaincodeInput, of ChaincodeSpec, of ChaincodeInvocationSpec,
    of SignedProposal, of Proposal, of ChaincodeHeaderExtension, of ChaincodeProposalPayload,
    of ChaincodeAction, of Response, of ProposalResponsePayload, of Endorsement,
    of Transaction, of TransactionAction, of ChaincodeActionPayload, of ChaincodeEndorsedAction,
    of EndorseRequest, of EndorseResponse, of SubmitRequest, of SubmitResponse,
    of SignedCommitStatusRequest, of CommitStatusRequest, of CommitStatusResponse,
    of EvaluateRequest, of EvaluateResponse, of ErrorDetail]

def find? (name : String) : Option Schema :=
  all.find? (·.name == name)

def decode (s : Schema) (b : Bytes) : Except Wire.DecodeError s.fields.Record :=
  s.fields.decode s.typeName b

end Schema

end LedgerGateway.Protocol
