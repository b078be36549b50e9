import LedgerGateway.Run

/-!
# Reasoning about runs

A run that is put together of two comes out well if both do, and badly if the first does or the second
does after the first came out well (`Run.outcome_bind_eq_ok`, `Run.outcome_bind_eq_error`).  Its calls
are those of the first, and those of the second if there is one (`Run.mem_calls_bind`).  So what a
run does can be read off the way it is written down, step by step.

That the calls of a run follow a plan, and stop somewhere on the way, is shown in the same steps
(`Run.Follows`).  For a single call there are only two ends: the answer is there in time and is a
message (`Answer.Yields`), or the call fails (`Answer.Fails`).
-/

namespace LedgerGateway

variable {α β : Type}

/-! ### Answers -/

namespace Answer

/-- The answer is there before the limit is over. -/
def ComesWithin (a : Answer α) (limit : Duration) : Prop :=
  ∃ delay, a.delay = some delay ∧ delay.nanoseconds ≤ limit.nanoseconds

theorem isInTime_iff {a : Answer α} {limit : Duration} : a.isInTime limit ↔ a.ComesWithin limit := by
  rw [isInTime, ComesWithin]
  cases a.delay <;> simp

/-- The answer is there in time, and it is a message. -/
def Yields (a : Answer α) (limit : Duration) (message : α) : Prop :=
  a.ComesWithin limit ∧ a.outcome = .ok message

/-- How a call can fail: the answer is not there in time, or it is a failure. -/
inductive Fails (a : Answer α) (phase : Phase) (limit : Duration) : Error → Prop
  | late : ¬ a.ComesWithin limit → Fails a phase limit (.timeout phase.name limit)
  | refused {status : RpcStatus} : a.ComesWithin limit → a.outcome = .error status →
      Fails a phase limit (.rpc phase.name status.text)

end Answer

namespace Run

theorem mapError_eq_ok {ε : Type} {r : Except ε α} {f : ε → Error} {a : α} :
    r.mapError f = .ok a ↔ r = .ok a := by
  cases r with
  | error e => exact ⟨nofun, nofun⟩
  | ok b =>
    constructor
    · rintro ⟨⟩
      rfl
    · rintro ⟨⟩
      rfl

theorem await_eq_ok {phase : Phase} {limit : Duration} {a : Answer α} {m : α} :
    await phase limit a = .ok m ↔ a.Yields limit m := by
  rw [await, Answer.Yields, ← Answer.isInTime_iff]
  by_cases h : a.isInTime limit
  · rw [if_pos h]
    rw [mapError_eq_ok, and_iff_right h]
  · rw [if_neg h]
    simp [h]

theorem await_eq_error {phase : Phase} {limit : Duration} {a : Answer α} {e : Error} :
    await phase limit a = .error e ↔ a.Fails phase limit e := by
  rw [await]
  by_cases h : a.isInTime limit
  · rw [if_pos h]
    have hin := Answer.isInTime_iff.1 h
    constructor
    · intro he
      cases houtcome : a.outcome with
      | ok m => rw [houtcome] at he; cases he
      | error status => rw [houtcome] at he; cases he; exact .refused hin houtcome
    · rintro (hlate | ⟨_, houtcome⟩)
      · exact absurd hin hlate
      · rw [houtcome]; rfl
  · rw [if_neg h]
    have hlate : ¬ a.ComesWithin limit := fun hin => h (Answer.isInTime_iff.2 hin)
    constructor
    · intro he
      cases he
      exact .late hlate
    · rintro (_ | ⟨hin, _⟩)
      · rfl
      · exact absurd hin hlate

/-! ### Outcomes -/

@[simp]
theorem outcome_pure (a : α) : (pure a : Run α).outcome = .ok a := rfl

@[simp]
theorem outcome_liftM (r : Result α) : (liftM r : Run α).outcome = r := rfl

@[simp]
theorem outcome_call (request : Request) (limit : Duration) (answer : Answer α) :
    (call request limit answer).outcome = await request.phase limit answer := rfl

theorem outcome_bind_eq_ok {r : Run α} {next : α → Run β} {b : β} :
    (r >>= next).outcome = .ok b ↔ ∃ a, r.outcome = .ok a ∧ (next a).outcome = .ok b := by
  show (r.andThen next).outcome = _ ↔ _
  rw [andThen]
  cases r.outcome <;> simp

theorem outcome_bind_eq_error {r : Run α} {next : α → Run β} {e : Error} :
    (r >>= next).outcome = .error e ↔
      r.outcome = .error e ∨ ∃ a, r.outcome = .ok a ∧ (next a).outcome = .error e := by
  show (r.andThen next).outcome = _ ↔ _
  rw [andThen]
  cases r.outcome <;> simp

theorem outcome_bind_of_eq_ok {r : Run α} {a : α} (h : r.outcome = .ok a) (next : α → Run β) :
    (r >>= next).outcome = (next a).outcome := by
  show (r.andThen next).outcome = _
  rw [andThen, h]

theorem outcome_bind_of_eq_error {r : Run α} {e : Error} (h : r.outcome = .error e)
    (next : α → Run β) : (r >>= next).outcome = .error e := by
  show (r.andThen next).outcome = _
  rw [andThen, h]

/-! ### Calls -/

@[simp]
theorem calls_pure (a : α) : (pure a : Run α).calls = [] := rfl

@[simp]
theorem calls_liftM (r : Result α) : (liftM r : Run α).calls = [] := rfl

@[simp]
theorem calls_call (request : Request) (limit : Duration) (answer : Answer α) :
    (call request limit answer).calls = [⟨request, limit⟩] := rfl

theorem mem_calls_bind {r : Run α} {next : α → Run β} {x : MadeCall} :
    x ∈ (r >>= next).calls ↔ x ∈ r.calls ∨ ∃ a, r.outcome = .ok a ∧ x ∈ (next a).calls := by
  show x ∈ (r.andThen next).calls ↔ _
  rw [andThen]
  cases r.outcome <;> simp

def phases (r : Run α) : List Phase :=
  r.calls.map fun x => x.request.phase

theorem mem_phases {r : Run α} {phase : Phase} :
    phase ∈ r.phases ↔ ∃ x ∈ r.calls, x.request.phase = phase := List.mem_map

/-- The calls are those of a plan, up to some place. -/
def Follows (r : Run α) (plan : List Phase) : Prop :=
  r.phases <+: plan

theorem follows_of_calls_eq_nil {r : Run α} (h : r.calls = []) (plan : List Phase) :
    r.Follows plan := by
  rw [Follows, phases, h]
  exact List.nil_prefix

/-- A step without a call does not change the plan. -/
theorem follows_liftM_bind {r : Result α} {next : α → Run β} {plan : List Phase}
    (h : ∀ a, r = .ok a → (next a).Follows plan) :
    ((liftM r : Run α) >>= next).Follows plan := by
  cases hr : r with
  | error e => exact follows_of_calls_eq_nil rfl plan
  | ok a => exact h a hr

/-- A call is the first one of the plan. -/
theorem follows_call_bind {request : Request} {limit : Duration} {answer : Answer α}
    {next : α → Run β} {plan : List Phase} (h : ∀ a, (next a).Follows plan) :
    (call request limit answer >>= next).Follows (request.phase :: plan) := by
  show ((call request limit answer).andThen next).Follows _
  rw [andThen, outcome_call]
  cases await request.phase limit answer with
  | error e => exact List.cons_prefix_cons.2 ⟨rfl, List.nil_prefix⟩
  | ok a => exact List.cons_prefix_cons.2 ⟨rfl, h a⟩

end Run

end LedgerGateway
