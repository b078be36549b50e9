import LedgerGateway.Protocol.Envelope
import LedgerGateway.Protocol.Transaction

/-!
# The gateway service

A gateway peer answers four calls. *Evaluate* runs a proposal and returns its result. *Endorse*
collects endorsements and returns the transaction that is prepared from them, *submit* hands the
signed transaction to the ordering service, and *commit status* waits until the ledger holds it.
-/

namespace LedgerGateway.Protocol

structure EvaluateRequest where
  transactionId : String := ""
  channelId : String := ""
  proposedTransaction : Option SignedProposal := none
  targetOrganizations : List String := []
deriving DecidableEq, Repr

def EvaluateRequest.fields : Wire.Fields :=
  .scalar (.plain 1 "transaction_id") .string <|
  .scalar (.plain 2 "channel_id") .string <|
  .message (.plain 3 "proposed_transaction") "SignedProposal" SignedProposal.fields <|
  .scalars (.plain 4 "target_organizations") .string <|
  .nil

instance : Wire.Message EvaluateRequest where
  name := "gateway.EvaluateRequest"
  typeName := "EvaluateRequest"
  fields := EvaluateRequest.fields
  toRecord m := (m.transactionId, m.channelId, m.proposedTransaction.map Wire.Message.toRecord,
    m.targetOrganizations, ())
  ofRecord := fun (transactionId, channelId, proposedTransaction, targetOrganizations, ()) =>
    ⟨transactionId, channelId, proposedTransaction.map Wire.Message.ofRecord,
      targetOrganizations⟩
  ofRecord_toRecord m :=
    congrArg (fun proposedTransaction => { m with proposedTransaction := proposedTransaction })
      (Wire.optionMap_ofRecord_toRecord m.proposedTransaction)
  toRecord_ofRecord := fun (transactionId, channelId, proposedTransaction, rest) =>
    congrArg (fun proposedTransaction => (transactionId, channelId, proposedTransaction, rest))
      (Wire.optionMap_toRecord_ofRecord (α := SignedProposal) proposedTransaction)

structure EvaluateResponse where
  result : Option Response := none
deriving DecidableEq, Repr

def EvaluateResponse.fields : Wire.Fields :=
  .message (.plain 1 "result") "Response" Response.fields <|
  .nil

instance : Wire.Message EvaluateResponse where
  name := "gateway.EvaluateResponse"
  typeName := "EvaluateResponse"
  fields := EvaluateResponse.fields
  toRecord m := (m.result.map Wire.Message.toRecord, ())
  ofRecord := fun (result, ()) =>
    ⟨result.map Wire.Message.ofRecord⟩
  ofRecord_toRecord m :=
    congrArg (fun result => EvaluateResponse.mk result)
      (Wire.optionMap_ofRecord_toRecord m.result)
  toRecord_ofRecord := fun (result, rest) =>
    congrArg (fun result => (result, rest))
      (Wire.optionMap_toRecord_ofRecord (α := Response) result)

structure EndorseRequest where
  transactionId : String := ""
  channelId : String := ""
  proposedTransaction : Option SignedProposal := none
  endorsingOrganizations : List String := []
deriving DecidableEq, Repr

def EndorseRequest.fields : Wire.Fields :=
  .scalar (.plain 1 "transaction_id") .string <|
  .scalar (.plain 2 "channel_id") .string <|
  .message (.plain 3 "proposed_transaction") "SignedProposal" SignedProposal.fields <|
  .scalars (.plain 4 "endorsing_organizations") .string <|
  .nil

instance : Wire.Message EndorseRequest where
  name := "gateway.EndorseRequest"
  typeName := "EndorseRequest"
  fields := EndorseRequest.fields
  toRecord m := (m.transactionId, m.channelId, m.proposedTransaction.map Wire.Message.toRecord,
    m.endorsingOrganizations, ())
  ofRecord := fun (transactionId, channelId, proposedTransaction, endorsingOrganizations, ()) =>
    ⟨transactionId, channelId, proposedTransaction.map Wire.Message.ofRecord,
      endorsingOrganizations⟩
  ofRecord_toRecord m :=
    congrArg (fun proposedTransaction => { m with proposedTransaction := proposedTransaction })
      (Wire.optionMap_ofRecord_toRecord m.proposedTransaction)
  toRecord_ofRecord := fun (transactionId, channelId, proposedTransaction, rest) =>
    congrArg (fun proposedTransaction => (transactionId, channelId, proposedTransaction, rest))
      (Wire.optionMap_toRecord_ofRecord (α := SignedProposal) proposedTransaction)

/-- The transaction prepared from the endorsements. -/
structure EndorseResponse where
  preparedTransaction : Option Envelope := none
deriving DecidableEq, Repr

def EndorseResponse.fields : Wire.Fields :=
  .message (.plain 1 "prepared_transaction") "Envelope" Envelope.fields <|
  .nil

instance : Wire.Message EndorseResponse where
  name := "gateway.EndorseResponse"
  typeName := "EndorseResponse"
  fields := EndorseResponse.fields
  toRecord m := (m.preparedTransaction.map Wire.Message.toRecord, ())
  ofRecord := fun (preparedTransaction, ()) =>
    ⟨preparedTransaction.map Wire.Message.ofRecord⟩
  ofRecord_toRecord m :=
    congrArg (fun preparedTransaction => EndorseResponse.mk preparedTransaction)
      (Wire.optionMap_ofRecord_toRecord m.preparedTransaction)
  toRecord_ofRecord := fun (preparedTransaction, rest) =>
    congrArg (fun preparedTransaction => (preparedTransaction, rest))
      (Wire.optionMap_toRecord_ofRecord (α := Envelope) preparedTransaction)

structure SubmitRequest where
  transactionId : String := ""
  channelId : String := ""
  preparedTransaction : Option Envelope := none
deriving DecidableEq, Repr

def SubmitRequest.fields : Wire.Fields :=
  .scalar (.plain 1 "transaction_id") .string <|
  .scalar (.plain 2 "channel_id") .string <|
  .message (.plain 3 "prepared_transaction") "Envelope" Envelope.fields <|
  .nil

instance : Wire.Message SubmitRequest where
  name := "gateway.SubmitRequest"
  typeName := "SubmitRequest"
  fields := SubmitRequest.fields
  toRecord m := (m.transactionId, m.channelId, m.preparedTransaction.map Wire.Message.toRecord,
    ())
  ofRecord := fun (transactionId, channelId, preparedTransaction, ()) =>
    ⟨transactionId, channelId, preparedTransaction.map Wire.Message.ofRecord⟩
  ofRecord_toRecord m :=
    congrArg (fun preparedTransaction => { m with preparedTransaction := preparedTransaction })
      (Wire.optionMap_ofRecord_toRecord m.preparedTransaction)
  toRecord_ofRecord := fun (transactionId, channelId, preparedTransaction, rest) =>
    congrArg (fun preparedTransaction => (transactionId, channelId, preparedTransaction, rest))
      (Wire.optionMap_toRecord_ofRecord (α := Envelope) preparedTransaction)

structure SubmitResponse where
deriving DecidableEq, Repr

def SubmitResponse.fields : Wire.Fields :=
  .nil

instance : Wire.Message SubmitResponse where
  name := "gateway.SubmitResponse"
  typeName := "SubmitResponse"
  fields := SubmitResponse.fields
  toRecord _ := ()
  ofRecord _ := {}
  ofRecord_toRecord _ := rfl
  toRecord_ofRecord _ := rfl

structure CommitStatusRequest where
  transactionId : String := ""
  channelId : String := ""
  identity : Bytes := []
deriving DecidableEq, Repr

def CommitStatusRequest.fields : Wire.Fields :=
  .scalar (.plain 1 "transaction_id") .string <|
  .scalar (.plain 2 "channel_id") .string <|
  .scalar (.plain 3 "identity") .bytes <|
  .nil

instance : Wire.Message CommitStatusRequest where
  name := "gateway.CommitStatusRequest"
  typeName := "CommitStatusRequest"
  fields := CommitStatusRequest.fields
  toRecord m := (m.transactionId, m.channelId, m.identity, ())
  ofRecord := fun (transactionId, channelId, identity, ()) =>
    ⟨transactionId, channelId, identity⟩
  ofRecord_toRecord _ := rfl
  toRecord_ofRecord _ := rfl

structure SignedCommitStatusRequest where
  /-- The bytes of a `CommitStatusRequest`. -/
  request : Bytes := []
  signature : Bytes := []
deriving DecidableEq, Repr

def SignedCommitStatusRequest.fields : Wire.Fields :=
  .scalar (.plain 1 "request") .bytes <|
  .scalar (.plain 2 "signature") .bytes <|
  .nil

instance : Wire.Message SignedCommitStatusRequest where
  name := "gateway.SignedCommitStatusRequest"
  typeName := "SignedCommitStatusRequest"
  fields := SignedCommitStatusRequest.fields
  toRecord m := (m.request, m.signature, ())
  ofRecord := fun (request, signature, ()) =>
    ⟨request, signature⟩
  ofRecord_toRecord _ := rfl
  toRecord_ofRecord _ := rfl

/-- What became of a transaction, and in which block. -/
structure CommitStatusResponse where
  /-- The code of a `ValidationCode`. -/
  result : Int32 := 0
  blockNumber : UInt64 := 0
deriving DecidableEq, Repr

def CommitStatusResponse.fields : Wire.Fields :=
  .scalar (.plain 1 "result") .int32 <|
  .scalar (.plain 2 "block_number") .uint64 <|
  .nil

instance : Wire.Message CommitStatusResponse where
  name := "gateway.CommitStatusResponse"
  typeName := "CommitStatusResponse"
  fields := CommitStatusResponse.fields
  toRecord m := (m.result, m.blockNumber, ())
  ofRecord := fun (result, blockNumber, ()) =>
    ⟨result, blockNumber⟩
  ofRecord_toRecord _ := rfl
  toRecord_ofRecord _ := rfl

end LedgerGateway.Protocol
