import LedgerGateway.Json.Layout
import LedgerGateway.Json.Scan
import LedgerGateway.Text.Utf8

/-!
# The text of a result

A transaction returns bytes. `resultText` shows them to a person: JSON is laid out over lines, other
bytes are shown as the text they are, and no bytes are shown as nothing.
-/

namespace LedgerGateway

/-- What is printed for the result of a transaction. -/
def resultText (result : Bytes) : Option String :=
  if result.isEmpty then none
  else
    let text := Text.decodeLossy result
    some (if Json.isJson result then Json.Layout.ofJson text else text)

end LedgerGateway
