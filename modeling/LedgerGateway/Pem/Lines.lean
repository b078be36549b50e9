import LedgerGateway.Bytes

/-!
# Lines of bytes

Cutting bytes into lines, each with the byte that ends it. What ends a line is up to the reader. The
lines that matter begin with ASCII texts and name what stands between them.
-/

namespace LedgerGateway.Pem

/-- The lines of bytes, each with its end. The last line may have none. -/
def linesEndedBy (isEnd : UInt8 → Bool) (b : Bytes) : List Bytes :=
  if b = [] then []
  else
    (b.takeWhile (!isEnd ·) ++ (b.dropWhile (!isEnd ·)).take 1) ::
      linesEndedBy isEnd ((b.dropWhile (!isEnd ·)).drop 1)
termination_by b.length
decreasing_by
  have h := congrArg List.length (List.takeWhile_append_dropWhile (p := (!isEnd ·)) (l := b))
  have : b.length ≠ 0 := fun h => ‹b ≠ []› (List.length_eq_zero_iff.1 h)
  rw [List.length_append] at h
  rw [List.length_drop]
  omega

def ascii (s : String) : Bytes :=
  s.toList.map fun c => UInt8.ofNat c.toNat

/-- The bytes behind a text that they begin with. -/
def behind? (text : String) (b : Bytes) : Option Bytes :=
  (ascii text).isPrefixOf? b

def certificateLabel : String := "CERTIFICATE"

end LedgerGateway.Pem
