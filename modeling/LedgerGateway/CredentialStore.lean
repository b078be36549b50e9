import LedgerGateway.Configuration
import LedgerGateway.Error

/-!
# Credential stores

A credential is kept as the only file of a directory (`readSingleFile`). Entries whose names begin
with a dot are not looked at, and directories do not count. Where there is no file, or more than
one, nothing is read: the client does not guess.
-/

namespace LedgerGateway.CredentialStore

def isHidden (name : String) : Bool :=
  name.startsWith "."

/-- The names of the regular files among entries of a directory. -/
def files (disk : Disk) (directory : String) : List String → Result (List String)
  | [] => return []
  | name :: rest => do
    let path := Disk.join directory name
    let isFile ← (disk.isFile path).mapError (.io path)
    let others ← files disk directory rest
    return if isFile then name :: others else others

def visible (names : List String) : List String :=
  names.filter (!isHidden ·)

def singleFile (disk : Disk) (directory : String) : Result String := do
  let names ← (disk.list directory).mapError (.io directory)
  match ← files disk directory (visible names) with
  | [] => .error (.emptyStore directory)
  | [name] => return Disk.join directory name
  | several => .error (.ambiguousStore directory (several.mergeSort fun a b => decide (a ≤ b)))

def readFile (disk : Disk) (path : String) : Result Bytes :=
  (disk.read path).mapError (.io path)

/-- The content of the only file of a directory. -/
def readSingleFile (disk : Disk) (directory : String) : Result Bytes := do
  readFile disk (← singleFile disk directory)

def loadIdentity (disk : Disk) (c : Configuration) : Result Identity := do
  let pem ← readSingleFile disk c.certificateDirectory
  (Identity.ofPem c.mspId pem).mapError .certificate

def loadSigner (disk : Disk) (c : Configuration) : Result Signer := do
  let pem ← readSingleFile disk c.keyDirectory
  (Signer.ofPem pem).mapError .privateKey

def loadTlsRootCert (disk : Disk) (c : Configuration) : Result Bytes :=
  readFile disk c.tlsRootCertFile

end LedgerGateway.CredentialStore
