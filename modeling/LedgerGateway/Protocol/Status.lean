import LedgerGateway.Wire.Message

/-!
# Why a call failed

A failed call may carry a status with details of any type. A gateway peer puts one `ErrorDetail` in
it for each peer that took part in the failure.
-/

namespace LedgerGateway.Protocol

/-- The bytes of a message, and a name for its type. -/
structure Any where
  typeUrl : String := ""
  value : Bytes := []
deriving DecidableEq, Repr

def Any.fields : Wire.Fields :=
  .scalar (.plain 1 "type_url") .string <|
  .scalar (.plain 2 "value") .bytes <|
  .nil

instance : Wire.Message Any where
  name := "google.protobuf.Any"
  typeName := "Any"
  fields := Any.fields
  toRecord m := (m.typeUrl, m.value, ())
  ofRecord := fun (typeUrl, value, ()) =>
    ⟨typeUrl, value⟩
  ofRecord_toRecord _ := rfl
  toRecord_ofRecord _ := rfl

structure Status where
  code : Int32 := 0
  message : String := ""
  details : List Any := []
deriving DecidableEq, Repr

def Status.fields : Wire.Fields :=
  .scalar (.plain 1 "code") .int32 <|
  .scalar (.plain 2 "message") .string <|
  .messages (.plain 3 "details") "Any" Any.fields <|
  .nil

instance : Wire.Message Status where
  name := "google.rpc.Status"
  typeName := "Status"
  fields := Status.fields
  toRecord m := (m.code, m.message, m.details.map Wire.Message.toRecord, ())
  ofRecord := fun (code, message, details, ()) =>
    ⟨code, message, details.map Wire.Message.ofRecord⟩
  ofRecord_toRecord m :=
    congrArg (fun details => { m with details := details })
      (Wire.map_ofRecord_map_toRecord m.details)
  toRecord_ofRecord := fun (code, message, details, rest) =>
    congrArg (fun details => (code, message, details, rest))
      (Wire.map_toRecord_map_ofRecord (α := Any) details)

/-- What went wrong at one peer. -/
structure ErrorDetail where
  address : String := ""
  mspId : String := ""
  message : String := ""
deriving DecidableEq, Repr

def ErrorDetail.fields : Wire.Fields :=
  .scalar (.plain 1 "address") .string <|
  .scalar (.plain 2 "msp_id") .string <|
  .scalar (.plain 3 "message") .string <|
  .nil

instance : Wire.Message ErrorDetail where
  name := "gateway.ErrorDetail"
  typeName := "ErrorDetail"
  fields := ErrorDetail.fields
  toRecord m := (m.address, m.mspId, m.message, ())
  ofRecord := fun (address, mspId, message, ()) =>
    ⟨address, mspId, message⟩
  ofRecord_toRecord _ := rfl
  toRecord_ofRecord _ := rfl

/-- The name under which an `ErrorDetail` stands in a status. -/
def ErrorDetail.typeUrl : String := "type.googleapis.com/gateway.ErrorDetail"

end LedgerGateway.Protocol
