/-!
# Kinds of messages

The channel header of a message says what kind of message it is, by a number. Seven kinds have a
name.
-/

namespace LedgerGateway.Protocol

inductive HeaderType where
  | message
  | config
  | configUpdate
  | endorserTransaction
  | ordererTransaction
  | deliverSeekInfo
  | chaincodePackage
deriving DecidableEq, Repr

namespace HeaderType

def all : List HeaderType :=
  [message, config, configUpdate, endorserTransaction, ordererTransaction, deliverSeekInfo,
    chaincodePackage]

def code : HeaderType → Int32
  | message => 0
  | config => 1
  | configUpdate => 2
  | endorserTransaction => 3
  | ordererTransaction => 4
  | deliverSeekInfo => 5
  | chaincodePackage => 6

def name : HeaderType → String
  | message => "MESSAGE"
  | config => "CONFIG"
  | configUpdate => "CONFIG_UPDATE"
  | endorserTransaction => "ENDORSER_TRANSACTION"
  | ordererTransaction => "ORDERER_TRANSACTION"
  | deliverSeekInfo => "DELIVER_SEEK_INFO"
  | chaincodePackage => "CHAINCODE_PACKAGE"

def ofCode? (n : Int32) : Option HeaderType :=
  all.find? (·.code == n)

def ofName? (s : String) : Option HeaderType :=
  all.find? (·.name == s)

end HeaderType

end LedgerGateway.Protocol
