import LedgerGateway.Error
import LedgerGateway.Text.LowerCase

/-!
# Actions

A transaction is either submitted, which puts it on the ledger, or evaluated, which only returns its
result. The word for it is read without regard to case.
-/

namespace LedgerGateway

/-- What to do with a transaction. -/
inductive Action where
  | submit
  | evaluate
deriving DecidableEq, Repr

namespace Action

def name : Action → String
  | submit => "submit"
  | evaluate => "evaluate"

def parse (word : String) : Result Action :=
  let lower := Text.lowerCase word
  if lower = submit.name then .ok submit
  else if lower = evaluate.name then .ok evaluate
  else .error (.invalidAction lower)

end Action

end LedgerGateway
