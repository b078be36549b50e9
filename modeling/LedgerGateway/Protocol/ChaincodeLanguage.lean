/-!
# Languages of chaincodes

A chaincode is written in one of four languages, or it is not said in which.
-/

namespace LedgerGateway.Protocol

inductive ChaincodeLanguage where
  | undefined
  | golang
  | node
  | car
  | java
deriving DecidableEq, Repr

namespace ChaincodeLanguage

def all : List ChaincodeLanguage := [undefined, golang, node, car, java]

def code : ChaincodeLanguage → Int32
  | undefined => 0
  | golang => 1
  | node => 2
  | car => 3
  | java => 4

def name : ChaincodeLanguage → String
  | undefined => "UNDEFINED"
  | golang => "GOLANG"
  | node => "NODE"
  | car => "CAR"
  | java => "JAVA"

def ofCode? (n : Int32) : Option ChaincodeLanguage :=
  all.find? (·.code == n)

def ofName? (s : String) : Option ChaincodeLanguage :=
  all.find? (·.name == s)

end ChaincodeLanguage

end LedgerGateway.Protocol
