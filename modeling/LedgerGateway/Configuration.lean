import LedgerGateway.Disk
import LedgerGateway.Text.Utf8

/-!
# Configuration

All that the client has to know about its surroundings comes from six variables of the environment.
Five of them have to be there and not empty; the sixth may be missing. `Configuration.load` reads
them all or says which ones are missing, in a fixed order.

From the configuration follow the paths of the credentials, the address to call and the name that
the peer has to prove.
-/

namespace LedgerGateway

/-- What the client knows about its surroundings. -/
structure Configuration where
  /-- The organisation that the client belongs to. -/
  mspId : String
  /-- The directory of the client's credentials. -/
  mspConfigPath : String
  /-- The address of the gateway peer, with or without a port. -/
  peerAddress : String
  chaincodeName : String
  channelName : String
  /-- Where the certificate that the peer is checked against is, if not in its usual place. -/
  tlsRootCert : Option String
deriving DecidableEq, Repr

namespace Configuration

def mspIdVariable : String := "CORE_PEER_LOCALMSPID"

def mspConfigPathVariable : String := "CORE_PEER_MSPCONFIGPATH"

def peerAddressVariable : String := "CORE_PEER_ADDRESS"

def chaincodeNameVariable : String := "CHAINCODE_NAME"

def channelNameVariable : String := "CHANNEL_NAME"

/-- The variable for the certificate that the peer is checked against, which may be missing. -/
def tlsRootCertVariable : String := "CORE_PEER_TLS_ROOTCERT_FILE"

/-- The variables that have to be there, in the order in which missing ones are reported. -/
def requiredVariables : List String :=
  [mspIdVariable, mspConfigPathVariable, peerAddressVariable, chaincodeNameVariable,
    channelNameVariable]

def allVariables : List String :=
  requiredVariables ++ [tlsRootCertVariable]

/-- The value of a variable, unless it is empty. -/
def value? (lookup : String → Option String) (name : String) : Option String :=
  (lookup name).filter (· ≠ "")

def missing (lookup : String → Option String) : List String :=
  requiredVariables.filter fun name => (value? lookup name).isNone

def required (lookup : String → Option String) (name : String) : String :=
  (value? lookup name).getD ""

/-- The configuration in an environment, or the variables that are missing. -/
def load (lookup : String → Option String) : Except (List String) Configuration :=
  match missing lookup with
  | [] => .ok {
      mspId := required lookup mspIdVariable
      mspConfigPath := required lookup mspConfigPathVariable
      peerAddress := required lookup peerAddressVariable
      chaincodeName := required lookup chaincodeNameVariable
      channelName := required lookup channelNameVariable
      tlsRootCert := value? lookup tlsRootCertVariable }
  | names => .error names

/-- The environment in which the variables have values of bytes. A value that is not text counts as
missing. -/
def ofBytes (lookup : String → Option Bytes) (name : String) : Option String :=
  (lookup name).bind Text.decodeUtf8?

def certificateDirectory (c : Configuration) : String :=
  Disk.join c.mspConfigPath "signcerts"

def keyDirectory (c : Configuration) : String :=
  Disk.join c.mspConfigPath "keystore"

/-- The file with the certificate that the peer is checked against. Its usual place is beside the
directory of the credentials. -/
def tlsRootCertFile (c : Configuration) : String :=
  c.tlsRootCert.getD (Disk.join c.mspConfigPath "../tls/ca.crt")

end Configuration

/-- The host of an address: what stands before the first colon. -/
def gatewayHost (address : String) : String :=
  String.ofList (address.toList.takeWhile (· != ':'))

namespace Configuration

/-- The name that the peer has to prove. -/
def serverName (c : Configuration) : String :=
  gatewayHost c.peerAddress

def endpoint (c : Configuration) : String :=
  "https://" ++ c.peerAddress

end Configuration

end LedgerGateway
