import LedgerGateway.Pem.Base64
import LedgerGateway.Pem.Lines

/-!
# The PEM text of a key

The PEM text of a key is read strictly (`readKeyText`). Text may come before it, but nothing behind
it. Its two boundaries name the same thing, the one that is asked for; between them stands padded
base64 in lines of 64 digits, of which the last may be shorter. A line may end with a line feed, a
carriage return, or both.
-/

namespace LedgerGateway.Pem

/-- The bytes behind the end of a line. -/
def behindLineEnd? : Bytes → Option Bytes
  | 0x0D :: 0x0A :: rest => some rest
  | 0x0D :: rest => some rest
  | 0x0A :: rest => some rest
  | _ => none

theorem length_behindLineEnd? : ∀ {b rest : Bytes},
    behindLineEnd? b = some rest → rest.length < b.length := by
  intro b rest h
  unfold behindLineEnd? at h
  split at h
  · cases h
    simp only [List.length_cons]
    omega
  · cases h
    exact Nat.lt_succ_self _
  · cases h
    exact Nat.lt_succ_self _
  · cases h

/-- The bytes before the end of the last line, from behind. -/
def beforeLineEnd? : Bytes → Option Bytes
  | 0x0A :: 0x0D :: rest => some rest
  | 0x0A :: rest => some rest
  | 0x0D :: rest => some rest
  | _ => none

/-- The bytes behind the text that begins the first boundary. It stands at the start or behind a
line feed, and no zero byte comes before it. -/
def behindPreamble? (atStart : Bool) : Bytes → Option Bytes
  | [] => none
  | x :: rest =>
    match if atStart then behind? "-----BEGIN " (x :: rest) else none with
    | some named => some named
    | none =>
      if x = 0x00 then none else behindPreamble? (x == 0x0A) rest

/-- Joins lines of 64 bytes, of which the last may be shorter, but not empty. -/
def joinLines (b : Bytes) : Option Bytes :=
  if b = [] then none
  else if b.length ≤ 64 then some b
  else
    match h : behindLineEnd? (b.drop 64) with
    | none => none
    | some rest =>
      have : rest.length < b.length := by
        have := length_behindLineEnd? h
        rw [List.length_drop] at this
        omega
      (joinLines rest).map (b.take 64 ++ ·)
termination_by b.length

/-- The content of a PEM text of a key with a given name. -/
def readKeyText (label : String) (b : Bytes) : Option Bytes := do
  let named ← behindPreamble? true b
  let body ← behindLineEnd? (← behind? (label ++ "-----") named)
  let reversed := (beforeLineEnd? body.reverse).getD body.reverse
  let framed ← (ascii ("-----END " ++ label ++ "-----")).reverse.isPrefixOf? reversed
  let digits ← beforeLineEnd? framed
  Base64.decodePadded (← joinLines digits.reverse)

/-- Cuts digits into lines of 64. -/
def cutLines (b : Bytes) : Bytes :=
  if b.length ≤ 64 then b ++ [0x0A]
  else b.take 64 ++ 0x0A :: cutLines (b.drop 64)
termination_by b.length
decreasing_by rw [List.length_drop]; omega

def writeKeyText (label : String) (content : Bytes) : Bytes :=
  ascii ("-----BEGIN " ++ label ++ "-----\n") ++ cutLines (Base64.encode content) ++
    ascii ("-----END " ++ label ++ "-----\n")

end LedgerGateway.Pem
