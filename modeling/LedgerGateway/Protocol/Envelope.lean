import LedgerGateway.Protocol.HeaderType
import LedgerGateway.Wire.Message

/-!
# Envelopes and headers

Everything that is sent to the ledger is bytes with a signature on them (`Envelope`). The bytes are
a payload, and what a payload holds is told by its header. A header has two parts, each kept as
bytes: one about the channel and the transaction, and one about who made it.
-/

namespace LedgerGateway.Protocol

/-- A point in time, counted from the beginning of 1970. -/
structure Timestamp where
  seconds : Int64 := 0
  /-- The part of a second, never negative. -/
  nanos : Int32 := 0
deriving DecidableEq, Repr

def Timestamp.fields : Wire.Fields :=
  .scalar (.plain 1 "seconds") .int64 <|
  .scalar (.plain 2 "nanos") .int32 <|
  .nil

instance : Wire.Message Timestamp where
  name := "google.protobuf.Timestamp"
  typeName := "Timestamp"
  fields := Timestamp.fields
  toRecord m := (m.seconds, m.nanos, ())
  ofRecord := fun (seconds, nanos, ()) =>
    ⟨seconds, nanos⟩
  ofRecord_toRecord _ := rfl
  toRecord_ofRecord _ := rfl

structure Header where
  /-- The bytes of a `ChannelHeader`. -/
  channelHeader : Bytes := []
  /-- The bytes of a `SignatureHeader`. -/
  signatureHeader : Bytes := []
deriving DecidableEq, Repr

def Header.fields : Wire.Fields :=
  .scalar (.plain 1 "channel_header") .bytes <|
  .scalar (.plain 2 "signature_header") .bytes <|
  .nil

instance : Wire.Message Header where
  name := "common.Header"
  typeName := "Header"
  fields := Header.fields
  toRecord m := (m.channelHeader, m.signatureHeader, ())
  ofRecord := fun (channelHeader, signatureHeader, ()) =>
    ⟨channelHeader, signatureHeader⟩
  ofRecord_toRecord _ := rfl
  toRecord_ofRecord _ := rfl

/-- What kind of message it is, and for which channel. -/
structure ChannelHeader where
  /-- The code of a `HeaderType`. -/
  type : Int32 := 0
  version : Int32 := 0
  timestamp : Option Timestamp := none
  channelId : String := ""
  txId : String := ""
  epoch : UInt64 := 0
  /-- For a transaction, the bytes of a `ChaincodeHeaderExtension`. -/
  extension : Bytes := []
  tlsCertHash : Bytes := []
deriving DecidableEq, Repr

def ChannelHeader.fields : Wire.Fields :=
  .scalar ⟨1, "type", "r#type"⟩ .int32 <|
  .scalar (.plain 2 "version") .int32 <|
  .message (.plain 3 "timestamp") "Timestamp" Timestamp.fields <|
  .scalar (.plain 4 "channel_id") .string <|
  .scalar (.plain 5 "tx_id") .string <|
  .scalar (.plain 6 "epoch") .uint64 <|
  .scalar (.plain 7 "extension") .bytes <|
  .scalar (.plain 8 "tls_cert_hash") .bytes <|
  .nil

instance : Wire.Message ChannelHeader where
  name := "common.ChannelHeader"
  typeName := "ChannelHeader"
  fields := ChannelHeader.fields
  toRecord m := (m.type, m.version, m.timestamp.map Wire.Message.toRecord, m.channelId, m.txId,
    m.epoch, m.extension, m.tlsCertHash, ())
  ofRecord := fun (type, version, timestamp, channelId, txId, epoch, extension, tlsCertHash,
      ()) =>
    ⟨type, version, timestamp.map Wire.Message.ofRecord, channelId, txId, epoch, extension,
      tlsCertHash⟩
  ofRecord_toRecord m :=
    congrArg (fun timestamp => { m with timestamp := timestamp })
      (Wire.optionMap_ofRecord_toRecord m.timestamp)
  toRecord_ofRecord := fun (type, version, timestamp, rest) =>
    congrArg (fun timestamp => (type, version, timestamp, rest))
      (Wire.optionMap_toRecord_ofRecord (α := Timestamp) timestamp)

structure SignatureHeader where
  /-- The bytes of a `SerializedIdentity`. -/
  creator : Bytes := []
  /-- Bytes that are used only once. -/
  nonce : Bytes := []
deriving DecidableEq, Repr

def SignatureHeader.fields : Wire.Fields :=
  .scalar (.plain 1 "creator") .bytes <|
  .scalar (.plain 2 "nonce") .bytes <|
  .nil

instance : Wire.Message SignatureHeader where
  name := "common.SignatureHeader"
  typeName := "SignatureHeader"
  fields := SignatureHeader.fields
  toRecord m := (m.creator, m.nonce, ())
  ofRecord := fun (creator, nonce, ()) =>
    ⟨creator, nonce⟩
  ofRecord_toRecord _ := rfl
  toRecord_ofRecord _ := rfl

/-- The content of an envelope. -/
structure Payload where
  header : Option Header := none
  /-- For a transaction, the bytes of a `Transaction`. -/
  data : Bytes := []
deriving DecidableEq, Repr

def Payload.fields : Wire.Fields :=
  .message (.plain 1 "header") "Header" Header.fields <|
  .scalar (.plain 2 "data") .bytes <|
  .nil

instance : Wire.Message Payload where
  name := "common.Payload"
  typeName := "Payload"
  fields := Payload.fields
  toRecord m := (m.header.map Wire.Message.toRecord, m.data, ())
  ofRecord := fun (header, data, ()) =>
    ⟨header.map Wire.Message.ofRecord, data⟩
  ofRecord_toRecord m :=
    congrArg (fun header => { m with header := header })
      (Wire.optionMap_ofRecord_toRecord m.header)
  toRecord_ofRecord := fun (header, rest) =>
    congrArg (fun header => (header, rest))
      (Wire.optionMap_toRecord_ofRecord (α := Header) header)

/-- A payload and the signature on it. -/
structure Envelope where
  /-- The bytes of a `Payload`. -/
  payload : Bytes := []
  signature : Bytes := []
deriving DecidableEq, Repr

def Envelope.fields : Wire.Fields :=
  .scalar (.plain 1 "payload") .bytes <|
  .scalar (.plain 2 "signature") .bytes <|
  .nil

instance : Wire.Message Envelope where
  name := "common.Envelope"
  typeName := "Envelope"
  fields := Envelope.fields
  toRecord m := (m.payload, m.signature, ())
  ofRecord := fun (payload, signature, ()) =>
    ⟨payload, signature⟩
  ofRecord_toRecord _ := rfl
  toRecord_ofRecord _ := rfl

end LedgerGateway.Protocol
