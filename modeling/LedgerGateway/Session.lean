import LedgerGateway.Action
import LedgerGateway.Proposal
import LedgerGateway.Run

/-!
# Sessions

A session is an identity with the key to sign for it and some choices (`Session`). In a session,
functions of a contract, which is a chaincode on a channel, can be evaluated or submitted.

`Session.evaluate` makes one call. `Session.submit` makes up to three: it has the proposal endorsed,
signs what was prepared and hands it in, and asks what became of it. The result is the one that was
endorsed, and it is only given when the ledger has found the transaction valid.
-/

namespace LedgerGateway

/-- The choices of a session: how messages are hashed, and how long each call may take. -/
structure Options where
  hash : HashAlgorithm := .sha256
  evaluateLimit : Duration := .ofSeconds 5
  endorseLimit : Duration := .ofSeconds 15
  submitLimit : Duration := .ofSeconds 5
  commitStatusLimit : Duration := .ofSeconds 60
deriving DecidableEq, Repr

/-- An identity with the key to sign for it. -/
structure Session where
  identity : Identity
  signer : Signer
  options : Options
deriving DecidableEq

/-- A chaincode on a channel. -/
structure Contract where
  channel : String
  chaincode : String
deriving DecidableEq, Repr

/-- What makes a proposal unlike all others. -/
structure Occasion where
  /-- Bytes that are used only once. -/
  nonce : Bytes
  time : Protocol.Timestamp
deriving DecidableEq, Repr

def Signer.sign (signer : Signer) (digest : Bytes) : Result Bytes :=
  match signer.sign? digest with
  | some signature => .ok signature
  | none => .error .signing

namespace Session

open Protocol

def creator (s : Session) : Bytes :=
  s.identity.creator

def sign (s : Session) (message : Bytes) : Result Bytes :=
  s.signer.sign (s.options.hash.digest message)

def call (s : Session) (c : Contract) (function : String) (arguments : List String) : Call :=
  ⟨s.creator, c.channel, c.chaincode, function, arguments⟩

def signedProposal (s : Session) (p : UnsignedProposal) : Result SignedProposal := do
  let signature ← s.sign p.bytes
  return { proposalBytes := p.bytes, signature := signature }

/-- Runs a function without putting anything on the ledger. -/
def evaluate (s : Session) (c : Contract) (peer : Peer) (occasion : Occasion)
    (function : String) (arguments : List String) : Run Bytes := do
  let proposal := (s.call c function arguments).propose occasion.nonce occasion.time
  let signed ← s.signedProposal proposal
  let response ← Run.call (.evaluate {
      transactionId := proposal.transactionId
      channelId := c.channel
      proposedTransaction := some signed }) s.options.evaluateLimit peer.evaluate
  return (response.result.map (·.payload)).getD []

/-- The envelope that an endorsement prepared. -/
def prepared (response : EndorseResponse) : Result Envelope :=
  match response.preparedTransaction with
  | some envelope => .ok envelope
  | none => .error (.invalidResponse .noPreparedTransaction)

/-- The question what became of a transaction. -/
def commitQuestion (s : Session) (c : Contract) (transactionId : String) : Bytes :=
  Wire.encode ({
    transactionId := transactionId
    channelId := c.channel
    identity := s.creator } : CommitStatusRequest)

/-- The result of a transaction, if the ledger found it valid. -/
def accepted (transactionId : String) (result : Bytes) (status : CommitStatusResponse) :
    Result Bytes :=
  match ValidationCode.ofCode? status.result with
  | some .valid => .ok result
  | some code => .error (.commit transactionId status.result code.name)
  | none => .error (.commit transactionId status.result "UNKNOWN")

/-- Runs a function and puts what it did on the ledger. -/
def submit (s : Session) (c : Contract) (peer : Peer) (occasion : Occasion)
    (function : String) (arguments : List String) : Run Bytes := do
  let proposal := (s.call c function arguments).propose occasion.nonce occasion.time
  let signed ← s.signedProposal proposal
  let endorsed ← Run.call (.endorse {
      transactionId := proposal.transactionId
      channelId := c.channel
      proposedTransaction := some signed }) s.options.endorseLimit peer.endorse
  let envelope ← prepared endorsed
  let result ← transactionResult envelope
  let signature ← s.sign envelope.payload
  let _ ← Run.call (.submit {
      transactionId := proposal.transactionId
      channelId := c.channel
      preparedTransaction := some { envelope with signature := signature } })
    s.options.submitLimit peer.submit
  let question := s.commitQuestion c proposal.transactionId
  let questionSignature ← s.sign question
  let status ← Run.call (.commitStatus { request := question, signature := questionSignature })
    s.options.commitStatusLimit peer.commitStatus
  accepted proposal.transactionId result status

def perform (s : Session) (action : Action) (c : Contract) (peer : Peer) (occasion : Occasion)
    (function : String) (arguments : List String) : Run Bytes :=
  match action with
  | .submit => s.submit c peer occasion function arguments
  | .evaluate => s.evaluate c peer occasion function arguments

end Session

end LedgerGateway
