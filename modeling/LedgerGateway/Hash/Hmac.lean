import LedgerGateway.Hash.Sha2

/-!
# Keyed hashes

`hmac` hashes a message together with a key, by HMAC over SHA-256.
-/

namespace LedgerGateway.Hash

/-- The length of the blocks of SHA-256 in bytes. -/
def blockLength : Nat := 64

/-- The key as one block: hashed if it is too long, and zeros behind it. -/
def keyBlock (key : Bytes) : Bytes :=
  let key := if key.length ≤ blockLength then key else sha256.digest key
  key ++ List.replicate (blockLength - key.length) 0

def hmac (key message : Bytes) : Bytes :=
  let block := keyBlock key
  let inner := sha256.digest (block.map (· ^^^ 0x36) ++ message)
  sha256.digest (block.map (· ^^^ 0x5C) ++ inner)

end LedgerGateway.Hash
