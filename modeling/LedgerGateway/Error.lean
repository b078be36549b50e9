import LedgerGateway.Disk
import LedgerGateway.Duration
import LedgerGateway.Identity
import LedgerGateway.Signer

/-!
# Errors

All that can go wrong between the start of the client and the result of a transaction (`Error`), and
the words for it (`Error.message`).
-/

namespace LedgerGateway

/-- What keeps an address from being called. -/
inductive AddressFault where
  /-- The address does not make a URI. -/
  | invalidUri
  /-- The certificates cannot be trusted, or the host is not a name that a server can prove. -/
  | unprovable
deriving DecidableEq, Repr

def AddressFault.message : AddressFault → String
  | invalidUri => "invalid URI"
  | unprovable => "transport error"

/-- What is missing in an answer of the peer. -/
inductive ResponseFault where
  | noPreparedTransaction
  | noActions
  | noEndorsedAction
deriving DecidableEq, Repr

def ResponseFault.message : ResponseFault → String
  | noPreparedTransaction => "endorse returned no prepared transaction"
  | noActions => "transaction has no actions"
  | noEndorsedAction => "missing endorsed action"

inductive Error where
  /-- A variable of the environment is missing. -/
  | missingVariable (name : String)
  /-- Several variables of the environment are missing. -/
  | missingVariables (names : List String)
  /-- A file or directory cannot be read. -/
  | io (path : String) (cause : IoError)
  /-- A directory for a credential holds no file. -/
  | emptyStore (path : String)
  /-- A directory for a credential holds several files. -/
  | ambiguousStore (path : String) (entries : List String)
  /-- A certificate is none. -/
  | certificate (fault : CertificateFault)
  /-- A private key is none. -/
  | privateKey (fault : KeyFault)
  /-- A digest cannot be signed. -/
  | signing
  /-- The peer's address cannot be called. -/
  | address (fault : AddressFault)
  /-- The text, in lower case, is not that of an action. -/
  | invalidAction (text : String)
  /-- A call failed. -/
  | rpc (operation message : String)
  /-- A call was not answered in time. -/
  | timeout (operation : String) (limit : Duration)
  /-- The ledger did not accept a transaction. -/
  | commit (transactionId : String) (code : Int32) (status : String)
  /-- An answer of the peer lacks something. -/
  | invalidResponse (fault : ResponseFault)
  /-- A message cannot be read. -/
  | decode (error : Wire.DecodeError)
deriving DecidableEq, Repr

namespace Error

def message : Error → String
  | missingVariable name => "missing an environment variable: " ++ name
  | missingVariables names => "missing environment variables: " ++ String.intercalate ", " names
  | io path cause => "failed to read " ++ path ++ ": " ++ cause.message
  | emptyStore path => "credential store " ++ path ++ " contains no files"
  | ambiguousStore path entries =>
    "credential store " ++ path ++ " contains more than one file: " ++
      String.intercalate ", " entries
  | certificate fault => "invalid certificate: " ++ fault.message
  | privateKey fault => "invalid private key: " ++ fault.message
  | signing => "signing failed: signature error"
  | address fault => "failed to create gRPC connection: " ++ fault.message
  | invalidAction text => "invalid action " ++ text ++ " (should be 'submit' or 'evaluate')"
  | rpc operation message => operation ++ " failed: " ++ message
  | timeout operation limit => operation ++ " timed out after " ++ limit.text
  | commit transactionId code status =>
    "transaction " ++ transactionId ++ " failed to commit with status code " ++
      toString code.toInt ++ " (" ++ status ++ ")"
  | invalidResponse fault => "invalid gateway response: " ++ fault.message
  | decode error => "protobuf decode error: " ++ error.message

def ofMissing : List String → Error
  | [name] => missingVariable name
  | names => missingVariables names

end Error

abbrev Result (α : Type) := Except Error α

end LedgerGateway
