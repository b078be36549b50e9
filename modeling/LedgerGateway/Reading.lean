import LedgerGateway.Bytes

/-!
# Reading from the front of bytes

A reader takes a value off the front of bytes and gives it back with what is left (`Reading`). What
is left is always shorter, and the reading says so itself: this is why a loop of readings ends.
-/

namespace LedgerGateway

/-- A value read from the front of `b`, and the bytes behind it. -/
structure Reading (α : Type) (b : Bytes) where
  value : α
  rest : Bytes
  shorter : rest.length < b.length

namespace Reading

variable {α β : Type} {b : Bytes}

theorem length_lt_cons (x : UInt8) (b : Bytes) : b.length < (x :: b).length :=
  Nat.lt_succ_self _

theorem shorter_cons (r : Reading α b) (x : UInt8) : r.rest.length < (x :: b).length :=
  Nat.lt_succ_of_lt r.shorter

def map (f : α → β) (r : Reading α b) : Reading β b :=
  ⟨f r.value, r.rest, r.shorter⟩

/-- A reading behind another is a reading of the whole. -/
def behind (first : Reading α b) (second : Reading β first.rest) : Reading β b :=
  ⟨second.value, second.rest, Nat.lt_trans second.shorter first.shorter⟩

end Reading

end LedgerGateway
