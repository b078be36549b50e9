/-!
# Verdicts on transactions

Every transaction that reaches the ledger is judged. A verdict is a number, and only zero means that
the transaction took effect. Numbers without a name may come, too.
-/

namespace LedgerGateway.Protocol

/-- What the ledger found about a transaction. -/
inductive ValidationCode where
  | valid
  | nilEnvelope
  | badPayload
  | badCommonHeader
  | badCreatorSignature
  | invalidEndorserTransaction
  | invalidConfigTransaction
  | unsupportedTxPayload
  | badProposalTxid
  | duplicateTxid
  | endorsementPolicyFailure
  | mvccReadConflict
  | phantomReadConflict
  | unknownTxType
  | targetChainNotFound
  | marshalTxError
  | nilTxaction
  | expiredChaincode
  | chaincodeVersionConflict
  | badHeaderExtension
  | badChannelHeader
  | badResponsePayload
  | badRwset
  | illegalWriteset
  | invalidWriteset
  | invalidChaincode
  | notValidated
  | invalidOtherReason
deriving DecidableEq, Repr

namespace ValidationCode

def all : List ValidationCode :=
  [valid, nilEnvelope, badPayload, badCommonHeader, badCreatorSignature,
    invalidEndorserTransaction, invalidConfigTransaction, unsupportedTxPayload, badProposalTxid,
    duplicateTxid, endorsementPolicyFailure, mvccReadConflict, phantomReadConflict, unknownTxType,
    targetChainNotFound, marshalTxError, nilTxaction, expiredChaincode, chaincodeVersionConflict,
    badHeaderExtension, badChannelHeader, badResponsePayload, badRwset, illegalWriteset,
    invalidWriteset, invalidChaincode, notValidated, invalidOtherReason]

def code : ValidationCode → Int32
  | valid => 0
  | nilEnvelope => 1
  | badPayload => 2
  | badCommonHeader => 3
  | badCreatorSignature => 4
  | invalidEndorserTransaction => 5
  | invalidConfigTransaction => 6
  | unsupportedTxPayload => 7
  | badProposalTxid => 8
  | duplicateTxid => 9
  | endorsementPolicyFailure => 10
  | mvccReadConflict => 11
  | phantomReadConflict => 12
  | unknownTxType => 13
  | targetChainNotFound => 14
  | marshalTxError => 15
  | nilTxaction => 16
  | expiredChaincode => 17
  | chaincodeVersionConflict => 18
  | badHeaderExtension => 19
  | badChannelHeader => 20
  | badResponsePayload => 21
  | badRwset => 22
  | illegalWriteset => 23
  | invalidWriteset => 24
  | invalidChaincode => 25
  | notValidated => 254
  | invalidOtherReason => 255

def name : ValidationCode → String
  | valid => "VALID"
  | nilEnvelope => "NIL_ENVELOPE"
  | badPayload => "BAD_PAYLOAD"
  | badCommonHeader => "BAD_COMMON_HEADER"
  | badCreatorSignature => "BAD_CREATOR_SIGNATURE"
  | invalidEndorserTransaction => "INVALID_ENDORSER_TRANSACTION"
  | invalidConfigTransaction => "INVALID_CONFIG_TRANSACTION"
  | unsupportedTxPayload => "UNSUPPORTED_TX_PAYLOAD"
  | badProposalTxid => "BAD_PROPOSAL_TXID"
  | duplicateTxid => "DUPLICATE_TXID"
  | endorsementPolicyFailure => "ENDORSEMENT_POLICY_FAILURE"
  | mvccReadConflict => "MVCC_READ_CONFLICT"
  | phantomReadConflict => "PHANTOM_READ_CONFLICT"
  | unknownTxType => "UNKNOWN_TX_TYPE"
  | targetChainNotFound => "TARGET_CHAIN_NOT_FOUND"
  | marshalTxError => "MARSHAL_TX_ERROR"
  | nilTxaction => "NIL_TXACTION"
  | expiredChaincode => "EXPIRED_CHAINCODE"
  | chaincodeVersionConflict => "CHAINCODE_VERSION_CONFLICT"
  | badHeaderExtension => "BAD_HEADER_EXTENSION"
  | badChannelHeader => "BAD_CHANNEL_HEADER"
  | badResponsePayload => "BAD_RESPONSE_PAYLOAD"
  | badRwset => "BAD_RWSET"
  | illegalWriteset => "ILLEGAL_WRITESET"
  | invalidWriteset => "INVALID_WRITESET"
  | invalidChaincode => "INVALID_CHAINCODE"
  | notValidated => "NOT_VALIDATED"
  | invalidOtherReason => "INVALID_OTHER_REASON"

def ofCode? (n : Int32) : Option ValidationCode :=
  all.find? (·.code == n)

def ofName? (s : String) : Option ValidationCode :=
  all.find? (·.name == s)

end ValidationCode

end LedgerGateway.Protocol
