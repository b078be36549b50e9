import LedgerGateway.Protocol.ChaincodeLanguage
import LedgerGateway.Wire.Message

/-!
# Calling a chaincode

A chaincode is a program on the ledger. To call it one names it (`ChaincodeId`) and gives the name
of a function with its arguments (`ChaincodeInput`).
-/

namespace LedgerGateway.Protocol

structure ChaincodeId where
  path : String := ""
  name : String := ""
  version : String := ""
deriving DecidableEq, Repr

def ChaincodeId.fields : Wire.Fields :=
  .scalar (.plain 1 "path") .string <|
  .scalar (.plain 2 "name") .string <|
  .scalar (.plain 3 "version") .string <|
  .nil

instance : Wire.Message ChaincodeId where
  name := "protos.ChaincodeID"
  typeName := "ChaincodeId"
  fields := ChaincodeId.fields
  toRecord m := (m.path, m.name, m.version, ())
  ofRecord := fun (path, name, version, ()) =>
    ⟨path, name, version⟩
  ofRecord_toRecord _ := rfl
  toRecord_ofRecord _ := rfl

structure ChaincodeInput where
  /-- The name of the function, and its arguments. -/
  args : List Bytes := []
  decorations : Wire.Dictionary := .empty
  isInit : Bool := false
deriving DecidableEq, Repr

def ChaincodeInput.fields : Wire.Fields :=
  .scalars (.plain 1 "args") .bytes <|
  .dictionary (.plain 2 "decorations") <|
  .scalar (.plain 3 "is_init") .bool <|
  .nil

instance : Wire.Message ChaincodeInput where
  name := "protos.ChaincodeInput"
  typeName := "ChaincodeInput"
  fields := ChaincodeInput.fields
  toRecord m := (m.args, m.decorations, m.isInit, ())
  ofRecord := fun (args, decorations, isInit, ()) =>
    ⟨args, decorations, isInit⟩
  ofRecord_toRecord _ := rfl
  toRecord_ofRecord _ := rfl

structure ChaincodeSpec where
  /-- The code of a `ChaincodeLanguage`. -/
  type : Int32 := 0
  chaincodeId : Option ChaincodeId := none
  input : Option ChaincodeInput := none
  timeout : Int32 := 0
deriving DecidableEq, Repr

def ChaincodeSpec.fields : Wire.Fields :=
  .scalar ⟨1, "type", "r#type"⟩ .int32 <|
  .message (.plain 2 "chaincode_id") "ChaincodeId" ChaincodeId.fields <|
  .message (.plain 3 "input") "ChaincodeInput" ChaincodeInput.fields <|
  .scalar (.plain 4 "timeout") .int32 <|
  .nil

instance : Wire.Message ChaincodeSpec where
  name := "protos.ChaincodeSpec"
  typeName := "ChaincodeSpec"
  fields := ChaincodeSpec.fields
  toRecord m := (m.type, m.chaincodeId.map Wire.Message.toRecord,
    m.input.map Wire.Message.toRecord, m.timeout, ())
  ofRecord := fun (type, chaincodeId, input, timeout, ()) =>
    ⟨type, chaincodeId.map Wire.Message.ofRecord, input.map Wire.Message.ofRecord, timeout⟩
  ofRecord_toRecord m :=
    congr (congrArg (fun chaincodeId input =>
        { m with chaincodeId := chaincodeId, input := input })
      (Wire.optionMap_ofRecord_toRecord m.chaincodeId))
      (Wire.optionMap_ofRecord_toRecord m.input)
  toRecord_ofRecord := fun (type, chaincodeId, input, rest) =>
    (congrArg (fun chaincodeId => (type, chaincodeId, _, rest))
      (Wire.optionMap_toRecord_ofRecord (α := ChaincodeId) chaincodeId)).trans
    (congrArg (fun input => (type, chaincodeId, input, rest))
      (Wire.optionMap_toRecord_ofRecord (α := ChaincodeInput) input))

structure ChaincodeInvocationSpec where
  chaincodeSpec : Option ChaincodeSpec := none
deriving DecidableEq, Repr

def ChaincodeInvocationSpec.fields : Wire.Fields :=
  .message (.plain 1 "chaincode_spec") "ChaincodeSpec" ChaincodeSpec.fields <|
  .nil

instance : Wire.Message ChaincodeInvocationSpec where
  name := "protos.ChaincodeInvocationSpec"
  typeName := "ChaincodeInvocationSpec"
  fields := ChaincodeInvocationSpec.fields
  toRecord m := (m.chaincodeSpec.map Wire.Message.toRecord, ())
  ofRecord := fun (chaincodeSpec, ()) =>
    ⟨chaincodeSpec.map Wire.Message.ofRecord⟩
  ofRecord_toRecord m :=
    congrArg (fun chaincodeSpec => ChaincodeInvocationSpec.mk chaincodeSpec)
      (Wire.optionMap_ofRecord_toRecord m.chaincodeSpec)
  toRecord_ofRecord := fun (chaincodeSpec, rest) =>
    congrArg (fun chaincodeSpec => (chaincodeSpec, rest))
      (Wire.optionMap_toRecord_ofRecord (α := ChaincodeSpec) chaincodeSpec)

end LedgerGateway.Protocol
