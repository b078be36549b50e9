import LedgerGateway.Protocol.Chaincode

/-!
# Proposals and what peers answer to them

A client proposes to call a chaincode (`Proposal`) and signs what it proposes (`SignedProposal`).
Peers simulate the call and answer what it did and returned (`ChaincodeAction`), and vouch for that
with their signatures (`Endorsement`).
-/

namespace LedgerGateway.Protocol

structure SignedProposal where
  /-- The bytes of a `Proposal`. -/
  proposalBytes : Bytes := []
  signature : Bytes := []
deriving DecidableEq, Repr

def SignedProposal.fields : Wire.Fields :=
  .scalar (.plain 1 "proposal_bytes") .bytes <|
  .scalar (.plain 2 "signature") .bytes <|
  .nil

instance : Wire.Message SignedProposal where
  name := "protos.SignedProposal"
  typeName := "SignedProposal"
  fields := SignedProposal.fields
  toRecord m := (m.proposalBytes, m.signature, ())
  ofRecord := fun (proposalBytes, signature, ()) =>
    ⟨proposalBytes, signature⟩
  ofRecord_toRecord _ := rfl
  toRecord_ofRecord _ := rfl

/-- A call that a client proposes. -/
structure Proposal where
  /-- The bytes of a `Header`. -/
  header : Bytes := []
  /-- The bytes of a `ChaincodeProposalPayload`. -/
  payload : Bytes := []
  extension : Bytes := []
deriving DecidableEq, Repr

def Proposal.fields : Wire.Fields :=
  .scalar (.plain 1 "header") .bytes <|
  .scalar (.plain 2 "payload") .bytes <|
  .scalar (.plain 3 "extension") .bytes <|
  .nil

instance : Wire.Message Proposal where
  name := "protos.Proposal"
  typeName := "Proposal"
  fields := Proposal.fields
  toRecord m := (m.header, m.payload, m.extension, ())
  ofRecord := fun (header, payload, extension, ()) =>
    ⟨header, payload, extension⟩
  ofRecord_toRecord _ := rfl
  toRecord_ofRecord _ := rfl

/-- What the channel header says about the chaincode. -/
structure ChaincodeHeaderExtension where
  chaincodeId : Option ChaincodeId := none
deriving DecidableEq, Repr

def ChaincodeHeaderExtension.fields : Wire.Fields :=
  .message (.plain 2 "chaincode_id") "ChaincodeId" ChaincodeId.fields <|
  .nil

instance : Wire.Message ChaincodeHeaderExtension where
  name := "protos.ChaincodeHeaderExtension"
  typeName := "ChaincodeHeaderExtension"
  fields := ChaincodeHeaderExtension.fields
  toRecord m := (m.chaincodeId.map Wire.Message.toRecord, ())
  ofRecord := fun (chaincodeId, ()) =>
    ⟨chaincodeId.map Wire.Message.ofRecord⟩
  ofRecord_toRecord m :=
    congrArg (fun chaincodeId => ChaincodeHeaderExtension.mk chaincodeId)
      (Wire.optionMap_ofRecord_toRecord m.chaincodeId)
  toRecord_ofRecord := fun (chaincodeId, rest) =>
    congrArg (fun chaincodeId => (chaincodeId, rest))
      (Wire.optionMap_toRecord_ofRecord (α := ChaincodeId) chaincodeId)

/-- The call itself, and data that peers see but the ledger does not keep. -/
structure ChaincodeProposalPayload where
  /-- The bytes of a `ChaincodeInvocationSpec`. -/
  input : Bytes := []
  transientMap : Wire.Dictionary := .empty
deriving DecidableEq, Repr

def ChaincodeProposalPayload.fields : Wire.Fields :=
  .scalar (.plain 1 "input") .bytes <|
  .dictionary ⟨2, "TransientMap", "transient_map"⟩ <|
  .nil

instance : Wire.Message ChaincodeProposalPayload where
  name := "protos.ChaincodeProposalPayload"
  typeName := "ChaincodeProposalPayload"
  fields := ChaincodeProposalPayload.fields
  toRecord m := (m.input, m.transientMap, ())
  ofRecord := fun (input, transientMap, ()) =>
    ⟨input, transientMap⟩
  ofRecord_toRecord _ := rfl
  toRecord_ofRecord _ := rfl

structure Response where
  status : Int32 := 0
  message : String := ""
  payload : Bytes := []
deriving DecidableEq, Repr

def Response.fields : Wire.Fields :=
  .scalar (.plain 1 "status") .int32 <|
  .scalar (.plain 2 "message") .string <|
  .scalar (.plain 3 "payload") .bytes <|
  .nil

instance : Wire.Message Response where
  name := "protos.Response"
  typeName := "Response"
  fields := Response.fields
  toRecord m := (m.status, m.message, m.payload, ())
  ofRecord := fun (status, message, payload, ()) =>
    ⟨status, message, payload⟩
  ofRecord_toRecord _ := rfl
  toRecord_ofRecord _ := rfl

/-- What a call read, wrote and returned. -/
structure ChaincodeAction where
  results : Bytes := []
  events : Bytes := []
  response : Option Response := none
  chaincodeId : Option ChaincodeId := none
deriving DecidableEq, Repr

def ChaincodeAction.fields : Wire.Fields :=
  .scalar (.plain 1 "results") .bytes <|
  .scalar (.plain 2 "events") .bytes <|
  .message (.plain 3 "response") "Response" Response.fields <|
  .message (.plain 4 "chaincode_id") "ChaincodeId" ChaincodeId.fields <|
  .nil

instance : Wire.Message ChaincodeAction where
  name := "protos.ChaincodeAction"
  typeName := "ChaincodeAction"
  fields := ChaincodeAction.fields
  toRecord m := (m.results, m.events, m.response.map Wire.Message.toRecord,
    m.chaincodeId.map Wire.Message.toRecord, ())
  ofRecord := fun (results, events, response, chaincodeId, ()) =>
    ⟨results, events, response.map Wire.Message.ofRecord, chaincodeId.map Wire.Message.ofRecord⟩
  ofRecord_toRecord m :=
    congr (congrArg (fun response chaincodeId =>
        { m with response := response, chaincodeId := chaincodeId })
      (Wire.optionMap_ofRecord_toRecord m.response))
      (Wire.optionMap_ofRecord_toRecord m.chaincodeId)
  toRecord_ofRecord := fun (results, events, response, chaincodeId, rest) =>
    (congrArg (fun response => (results, events, response, _, rest))
      (Wire.optionMap_toRecord_ofRecord (α := Response) response)).trans
    (congrArg (fun chaincodeId => (results, events, response, chaincodeId, rest))
      (Wire.optionMap_toRecord_ofRecord (α := ChaincodeId) chaincodeId))

/-- What a peer signs: the proposal by its hash, and what the call did. -/
structure ProposalResponsePayload where
  proposalHash : Bytes := []
  /-- The bytes of a `ChaincodeAction`. -/
  extension : Bytes := []
deriving DecidableEq, Repr

def ProposalResponsePayload.fields : Wire.Fields :=
  .scalar (.plain 1 "proposal_hash") .bytes <|
  .scalar (.plain 2 "extension") .bytes <|
  .nil

instance : Wire.Message ProposalResponsePayload where
  name := "protos.ProposalResponsePayload"
  typeName := "ProposalResponsePayload"
  fields := ProposalResponsePayload.fields
  toRecord m := (m.proposalHash, m.extension, ())
  ofRecord := fun (proposalHash, extension, ()) =>
    ⟨proposalHash, extension⟩
  ofRecord_toRecord _ := rfl
  toRecord_ofRecord _ := rfl

structure Endorsement where
  endorser : Bytes := []
  signature : Bytes := []
deriving DecidableEq, Repr

def Endorsement.fields : Wire.Fields :=
  .scalar (.plain 1 "endorser") .bytes <|
  .scalar (.plain 2 "signature") .bytes <|
  .nil

instance : Wire.Message Endorsement where
  name := "protos.Endorsement"
  typeName := "Endorsement"
  fields := Endorsement.fields
  toRecord m := (m.endorser, m.signature, ())
  ofRecord := fun (endorser, signature, ()) =>
    ⟨endorser, signature⟩
  ofRecord_toRecord _ := rfl
  toRecord_ofRecord _ := rfl

end LedgerGateway.Protocol
