import LedgerGateway.CommandLine
import LedgerGateway.Connection
import LedgerGateway.CredentialStore
import LedgerGateway.ResultText
import LedgerGateway.Session

/-!
# The client

The client does one transaction. First it gets ready (`prepare`), and there the order of the steps
counts: the configuration, the action, the certificates to trust, the connection, the identity and
the private key. The first step that fails decides what is reported. Nothing is read from the disk
before the action is known, and nobody is called before all steps are done (`run`).
-/

namespace LedgerGateway.Client

/-- The credentials that are read from the disk. -/
inductive Credential where
  | tlsRootCert
  | certificate
  | privateKey
deriving DecidableEq, Repr

/-- What is said in front of an error with a credential. -/
def Credential.context : Credential → String
  | tlsRootCert => "failed to read TLS certificate file"
  | certificate => "failed to read certificate file"
  | privateKey => "failed to read private key file"

/-- An error, and the credential it is about, if it is about one. -/
structure Failure where
  credential : Option Credential
  error : Error
deriving DecidableEq, Repr

def Failure.plain (e : Error) : Failure := ⟨none, e⟩

def Failure.about (c : Credential) (e : Error) : Failure := ⟨some c, e⟩

structure Ready where
  action : Action
  connection : Connection
  session : Session
  contract : Contract
deriving DecidableEq

def prepare (lookup : String → Option String) (disk : Disk) (word : String) :
    Except Failure Ready := do
  let c ← (Configuration.load lookup).mapError fun names => .plain (.ofMissing names)
  let action ← (Action.parse word).mapError .plain
  let trusted ← (CredentialStore.loadTlsRootCert disk c).mapError (.about .tlsRootCert)
  let connection ← (Connection.connect c trusted).mapError .plain
  let identity ← (CredentialStore.loadIdentity disk c).mapError (.about .certificate)
  let signer ← (CredentialStore.loadSigner disk c).mapError (.about .privateKey)
  return ⟨action, connection, ⟨identity, signer, {}⟩, ⟨c.channelName, c.chaincodeName⟩⟩

/-- Does a transaction: the calls that were made, and the result. -/
def run (lookup : String → Option String) (disk : Disk) (peer : Peer) (occasion : Occasion)
    (line : CommandLine) : List MadeCall × Except Failure Bytes :=
  match prepare lookup disk line.action with
  | .error e => ([], .error e)
  | .ok ready =>
    let r := ready.session.perform ready.action ready.contract peer occasion line.function
      line.arguments
    (r.calls, r.outcome.mapError .plain)

def printed (result : Bytes) : String :=
  match resultText result with
  | some text => text ++ "\n"
  | none => ""

end LedgerGateway.Client

namespace LedgerGateway

/-- The failure of a call to a peer that no network leads to. -/
def RpcStatus.unreachable : RpcStatus where
  code := .unavailable
  message := "error trying to connect: tcp connect error: Network is unreachable (os error 101)"
  details := []

def Answer.unreachable {α : Type} : Answer α := ⟨some ⟨0⟩, .error .unreachable⟩

def Peer.unreachable : Peer := ⟨.unreachable, .unreachable, .unreachable, .unreachable⟩

end LedgerGateway
