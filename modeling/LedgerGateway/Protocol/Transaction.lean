import LedgerGateway.Protocol.Proposal
import LedgerGateway.Protocol.ValidationCode

/-!
# Transactions

A transaction is what is put on the ledger: a list of actions, each a proposal with what peers
answered to it and their endorsements.
-/

namespace LedgerGateway.Protocol

structure TransactionAction where
  header : Bytes := []
  /-- The bytes of a `ChaincodeActionPayload`. -/
  payload : Bytes := []
deriving DecidableEq, Repr

def TransactionAction.fields : Wire.Fields :=
  .scalar (.plain 1 "header") .bytes <|
  .scalar (.plain 2 "payload") .bytes <|
  .nil

instance : Wire.Message TransactionAction where
  name := "protos.TransactionAction"
  typeName := "TransactionAction"
  fields := TransactionAction.fields
  toRecord m := (m.header, m.payload, ())
  ofRecord := fun (header, payload, ()) =>
    ⟨header, payload⟩
  ofRecord_toRecord _ := rfl
  toRecord_ofRecord _ := rfl

/-- The actions of a transaction, in order. -/
structure Transaction where
  actions : List TransactionAction := []
deriving DecidableEq, Repr

def Transaction.fields : Wire.Fields :=
  .messages (.plain 1 "actions") "TransactionAction" TransactionAction.fields <|
  .nil

instance : Wire.Message Transaction where
  name := "protos.Transaction"
  typeName := "Transaction"
  fields := Transaction.fields
  toRecord m := (m.actions.map Wire.Message.toRecord, ())
  ofRecord := fun (actions, ()) =>
    ⟨actions.map Wire.Message.ofRecord⟩
  ofRecord_toRecord m :=
    congrArg (fun actions => Transaction.mk actions) (Wire.map_ofRecord_map_toRecord m.actions)
  toRecord_ofRecord := fun (actions, rest) =>
    congrArg (fun actions => (actions, rest))
      (Wire.map_toRecord_map_ofRecord (α := TransactionAction) actions)

/-- What a call did, and the peers that vouch for it. -/
structure ChaincodeEndorsedAction where
  /-- The bytes of a `ProposalResponsePayload`. -/
  proposalResponsePayload : Bytes := []
  endorsements : List Endorsement := []
deriving DecidableEq, Repr

def ChaincodeEndorsedAction.fields : Wire.Fields :=
  .scalar (.plain 1 "proposal_response_payload") .bytes <|
  .messages (.plain 2 "endorsements") "Endorsement" Endorsement.fields <|
  .nil

instance : Wire.Message ChaincodeEndorsedAction where
  name := "protos.ChaincodeEndorsedAction"
  typeName := "ChaincodeEndorsedAction"
  fields := ChaincodeEndorsedAction.fields
  toRecord m := (m.proposalResponsePayload, m.endorsements.map Wire.Message.toRecord, ())
  ofRecord := fun (proposalResponsePayload, endorsements, ()) =>
    ⟨proposalResponsePayload, endorsements.map Wire.Message.ofRecord⟩
  ofRecord_toRecord m :=
    congrArg (fun endorsements => { m with endorsements := endorsements })
      (Wire.map_ofRecord_map_toRecord m.endorsements)
  toRecord_ofRecord := fun (proposalResponsePayload, endorsements, rest) =>
    congrArg (fun endorsements => (proposalResponsePayload, endorsements, rest))
      (Wire.map_toRecord_map_ofRecord (α := Endorsement) endorsements)

/-- The proposal of an action, and what became of it. -/
structure ChaincodeActionPayload where
  chaincodeProposalPayload : Bytes := []
  action : Option ChaincodeEndorsedAction := none
deriving DecidableEq, Repr

def ChaincodeActionPayload.fields : Wire.Fields :=
  .scalar (.plain 1 "chaincode_proposal_payload") .bytes <|
  .message (.plain 2 "action") "ChaincodeEndorsedAction" ChaincodeEndorsedAction.fields <|
  .nil

instance : Wire.Message ChaincodeActionPayload where
  name := "protos.ChaincodeActionPayload"
  typeName := "ChaincodeActionPayload"
  fields := ChaincodeActionPayload.fields
  toRecord m := (m.chaincodeProposalPayload, m.action.map Wire.Message.toRecord, ())
  ofRecord := fun (chaincodeProposalPayload, action, ()) =>
    ⟨chaincodeProposalPayload, action.map Wire.Message.ofRecord⟩
  ofRecord_toRecord m :=
    congrArg (fun action => { m with action := action })
      (Wire.optionMap_ofRecord_toRecord m.action)
  toRecord_ofRecord := fun (chaincodeProposalPayload, action, rest) =>
    congrArg (fun action => (chaincodeProposalPayload, action, rest))
      (Wire.optionMap_toRecord_ofRecord (α := ChaincodeEndorsedAction) action)

end LedgerGateway.Protocol
