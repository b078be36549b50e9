import LedgerGateway.Protocol.Gateway
import LedgerGateway.RpcStatus

/-!
# Runs

A transaction runs by calling the peer. A run (`Run`) is the calls that were made, in order, and
what came of it in the end; runs are put together in the way of a monad, and no call is made once
something has gone wrong.

The peer is given by its answers (`Peer`), one for each of the four calls it knows. An answer comes
after a delay, or never, and it is a message or a failure. A call waits for its answer as long as
its limit allows, and no longer (`Run.call`).
-/

namespace LedgerGateway

/-- The calls that a peer knows. -/
inductive Phase where
  | evaluate
  | endorse
  | submit
  | commitStatus
deriving DecidableEq, Repr

def Phase.name : Phase → String
  | evaluate => "evaluate"
  | endorse => "endorse"
  | submit => "submit"
  | commitStatus => "commit status"

inductive Request where
  | evaluate (message : Protocol.EvaluateRequest)
  | endorse (message : Protocol.EndorseRequest)
  | submit (message : Protocol.SubmitRequest)
  | commitStatus (message : Protocol.SignedCommitStatusRequest)
deriving DecidableEq, Repr

def Request.phase : Request → Phase
  | evaluate _ => .evaluate
  | endorse _ => .endorse
  | submit _ => .submit
  | commitStatus _ => .commitStatus

/-- A call that was made, with the limit that the peer was told. -/
structure MadeCall where
  request : Request
  limit : Duration
deriving DecidableEq, Repr

/-- An answer, and how long it takes. -/
structure Answer (α : Type) where
  /-- The time until the answer is there, unless it never is. -/
  delay : Option Duration
  outcome : Except RpcStatus α

def Answer.isInTime {α : Type} (a : Answer α) (limit : Duration) : Bool :=
  match a.delay with
  | some delay => decide (delay.nanoseconds ≤ limit.nanoseconds)
  | none => false

structure Peer where
  evaluate : Answer Protocol.EvaluateResponse
  endorse : Answer Protocol.EndorseResponse
  submit : Answer Protocol.SubmitResponse
  commitStatus : Answer Protocol.CommitStatusResponse

/-- The calls that were made, and what came of it. -/
structure Run (α : Type) where
  calls : List MadeCall
  outcome : Result α

namespace Run

variable {α β : Type}

def ofResult (r : Result α) : Run α := ⟨[], r⟩

/-- A run, and another one with its result if there is one. -/
def andThen (r : Run α) (next : α → Run β) : Run β :=
  match r.outcome with
  | .error e => ⟨r.calls, .error e⟩
  | .ok a => ⟨r.calls ++ (next a).calls, (next a).outcome⟩

instance : Monad Run where
  pure a := ofResult (.ok a)
  bind := andThen

instance : MonadLift (Except Error) Run where
  monadLift := ofResult

/-- What comes of a call with a limit. -/
def await (phase : Phase) (limit : Duration) (answer : Answer α) : Result α :=
  if answer.isInTime limit then
    answer.outcome.mapError (·.toError phase.name)
  else .error (.timeout phase.name limit)

def call (request : Request) (limit : Duration) (answer : Answer α) : Run α :=
  ⟨[⟨request, limit⟩], await request.phase limit answer⟩

end Run

end LedgerGateway
