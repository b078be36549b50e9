import LedgerGateway.Error
import LedgerGateway.Protocol.Status

/-!
# Failed calls

A call fails with a status: a code, a text, and bytes with details (`RpcStatus`). The error that is
made of it (`RpcStatus.toError`) gives the name of the code and the text, and a line for each peer
that the details report about. Details that cannot be read are passed over.
-/

namespace LedgerGateway

inductive StatusCode where
  | ok
  | cancelled
  | unknown
  | invalidArgument
  | deadlineExceeded
  | notFound
  | alreadyExists
  | permissionDenied
  | resourceExhausted
  | failedPrecondition
  | aborted
  | outOfRange
  | unimplemented
  | internal
  | unavailable
  | dataLoss
  | unauthenticated
deriving DecidableEq, Repr, Inhabited

namespace StatusCode

def all : List StatusCode :=
  [ok, cancelled, unknown, invalidArgument, deadlineExceeded, notFound, alreadyExists,
    permissionDenied, resourceExhausted, failedPrecondition, aborted, outOfRange, unimplemented,
    internal, unavailable, dataLoss, unauthenticated]

/-- The code of a number. A number without one stands for an unknown failure. -/
def ofInt (n : Int) : StatusCode :=
  if n < 0 then unknown else all.getD n.toNat unknown

def name : StatusCode → String
  | ok => "Ok"
  | cancelled => "Cancelled"
  | unknown => "Unknown"
  | invalidArgument => "InvalidArgument"
  | deadlineExceeded => "DeadlineExceeded"
  | notFound => "NotFound"
  | alreadyExists => "AlreadyExists"
  | permissionDenied => "PermissionDenied"
  | resourceExhausted => "ResourceExhausted"
  | failedPrecondition => "FailedPrecondition"
  | aborted => "Aborted"
  | outOfRange => "OutOfRange"
  | unimplemented => "Unimplemented"
  | internal => "Internal"
  | unavailable => "Unavailable"
  | dataLoss => "DataLoss"
  | unauthenticated => "Unauthenticated"

end StatusCode

/-- How a call failed. -/
structure RpcStatus where
  code : StatusCode
  message : String
  /-- The bytes of a `Protocol.Status`, or nothing. -/
  details : Bytes
deriving DecidableEq, Repr

namespace RpcStatus

/-- The detail that an entry holds, if it is one about a peer and can be read. -/
def detail? (entry : Protocol.Any) : Option Protocol.ErrorDetail :=
  if entry.typeUrl = Protocol.ErrorDetail.typeUrl then
    (Wire.decode (α := Protocol.ErrorDetail) entry.value).toOption
  else none

/-- What a status reports about peers. -/
def peerDetails (s : RpcStatus) : List Protocol.ErrorDetail :=
  match Wire.decode (α := Protocol.Status) s.details with
  | .ok status => status.details.filterMap detail?
  | .error _ => []

def detailText (d : Protocol.ErrorDetail) : String :=
  "\n    address: " ++ d.address ++ ", mspId: " ++ d.mspId ++ ", message: " ++ d.message

def text (s : RpcStatus) : String :=
  s.code.name ++ ": " ++ s.message ++ String.join (s.peerDetails.map detailText)

def toError (s : RpcStatus) (operation : String) : Error :=
  .rpc operation s.text

end RpcStatus

end LedgerGateway
