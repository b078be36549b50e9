import LedgerGateway.Proofs.Session.Agreement

/-!
# Deadlines

Each call has a limit of its own, and the time that other calls took does not count.  What can go
over time is told by the limits and the delays alone (`Timing`): a phase expires if its own answer
comes after its own limit (`Timing.Expires`).

A run keeps to the timing (`Run.Keeps`) if it goes over time just where a phase of its plan is the
first to expire, and ends there.  A run persists in another (`Run.Persists`) if the other asks and
answers the same unless the first one went over time.  Both are shown along the steps of a run, as it
is written down, and hold of submissions and evaluations (`Session.deadlines`).
-/

namespace LedgerGateway

variable {α β : Type}

/-! ### Timings -/

/-- How long each call may take, and how long its answer takes, unless it never comes. -/
structure Timing where
  limit : Phase → Duration
  delay : Phase → Option Duration

namespace Timing

variable {t t' : Timing} {phase : Phase}

/-- The limit of the phase is over before its answer is there. -/
def Expires (t : Timing) (phase : Phase) : Prop :=
  ∀ delay, t.delay phase = some delay → (t.limit phase).nanoseconds < delay.nanoseconds

/-- Of the phases of a plan, this one is the first that expires. -/
structure FirstExpires (t : Timing) (plan before : List Phase) (phase : Phase) : Prop where
  inPlan : ∃ after, plan = before ++ phase :: after
  expires : t.Expires phase
  before_inTime : ∀ earlier ∈ before, ¬ t.Expires earlier

/-- Two timings say the same about a phase. -/
def Agrees (t t' : Timing) (phase : Phase) : Prop :=
  t.limit phase = t'.limit phase ∧ t.delay phase = t'.delay phase

/-- The second timing gives the phase as much time or more, and its answer comes no later. -/
def Eases (t t' : Timing) (phase : Phase) : Prop :=
  (t.limit phase).nanoseconds ≤ (t'.limit phase).nanoseconds ∧
    ∀ delay, t.delay phase = some delay →
      ∃ delay', t'.delay phase = some delay' ∧ delay'.nanoseconds ≤ delay.nanoseconds

/-- With more time and less delay nothing expires that did not. -/
theorem Eases.expires (h : t.Eases t' phase) (hexpires : t'.Expires phase) : t.Expires phase := by
  intro delay hdelay
  obtain ⟨delay', hdelay', hle⟩ := h.2 delay hdelay
  have hlate := hexpires delay' hdelay'
  have hlimit := h.1
  omega

/-- The answer of a phase has the delay that a timing gives it. -/
theorem expires_iff {a : Answer α} (h : a.delay = t.delay phase) :
    t.Expires phase ↔ ¬ a.ComesWithin (t.limit phase) := by
  rw [Expires, Answer.ComesWithin, h]
  push Not
  rfl

/-- What comes before the plan and does not expire does not matter for what expires first. -/
theorem FirstExpires.cons {earlier : Phase} {plan before : List Phase}
    (h : t.FirstExpires plan before phase) (hearlier : ¬ t.Expires earlier) :
    t.FirstExpires (earlier :: plan) (earlier :: before) phase where
  inPlan := by
    obtain ⟨after, rfl⟩ := h.inPlan
    exact ⟨after, rfl⟩
  expires := h.expires
  before_inTime := List.forall_mem_cons.2 ⟨hearlier, h.before_inTime⟩

end Timing

theorem Answer.Fails.eq_timeout_iff {a : Answer α} {phase : Phase} {limit : Duration} {e : Error}
    (h : a.Fails phase limit e) : e = .timeout phase.name limit ↔ ¬ a.ComesWithin limit := by
  cases h with
  | late hlate => exact ⟨fun _ => hlate, fun _ => rfl⟩
  | refused hin _ =>
    constructor
    · rintro ⟨⟩
    · exact fun hlate => absurd hin hlate

theorem Phase.name_injective : Function.Injective Phase.name := by
  intro p q h
  cases p <;> cases q <;> first | rfl | exact absurd h (by decide)

/-! ### Runs -/

namespace Run

variable {t t' : Timing} {plan : List Phase} {request : Request} {limit : Duration}
  {answer : Answer α} {next next' : α → Run β}

/-- The run ends because a call took too long. -/
def TimesOut (r : Run α) (operation : String) (limit : Duration) : Prop :=
  r.outcome = .error (.timeout operation limit)

/-- The run goes along a plan, with the limits of a timing, and is over time just where the timing
says so. -/
structure Keeps (r : Run α) (t : Timing) (plan : List Phase) : Prop where
  follows : r.Follows plan
  /-- The peer is told the limit of each phase. -/
  limits : ∀ x ∈ r.calls, x.limit = t.limit x.request.phase
  /-- Whether a phase that is reached expires is a matter of its own limit and delay. -/
  expires : ∀ phase ∈ r.phases, r.TimesOut phase.name (t.limit phase) ↔ t.Expires phase
  /-- A run is over time at the first phase that expires, and makes no call after it. -/
  timesOut : ∀ operation limit, r.TimesOut operation limit → ∃ before phase,
    t.FirstExpires plan before phase ∧ r.phases = before ++ [phase] ∧
      operation = phase.name ∧ limit = t.limit phase

/-- A step that is never over time. -/
def Untimed (r : Result α) : Prop :=
  ∀ operation limit, r ≠ .error (.timeout operation limit)

theorem keeps_of_calls_eq_nil {r : Run α} (hcalls : r.calls = []) (h : Untimed r.outcome) :
    r.Keeps t plan where
  follows := follows_of_calls_eq_nil hcalls plan
  limits := by simp [hcalls]
  expires := by simp [phases, hcalls]
  timesOut operation limit htimes := absurd htimes (h operation limit)

/-- If no phase of the plan expires, the run is not over time. -/
theorem Keeps.untimed {r : Run α} (h : r.Keeps t plan)
    (hinTime : ∀ phase ∈ plan, ¬ t.Expires phase) : Untimed r.outcome := by
  intro operation limit htimes
  obtain ⟨before, phase, hfirst, _⟩ := h.timesOut operation limit htimes
  obtain ⟨after, rfl⟩ := hfirst.inPlan
  exact hinTime phase (List.mem_append_right before List.mem_cons_self) hfirst.expires

/-- A step without a call changes nothing about the timing. -/
theorem keeps_liftM_bind {r : Result α} (hr : Untimed r)
    (h : ∀ a, r = .ok a → (next a).Keeps t plan) : ((liftM r : Run α) >>= next).Keeps t plan := by
  cases r with
  | error e =>
    refine keeps_of_calls_eq_nil rfl ?_
    rintro operation limit ⟨⟩
    exact hr operation limit rfl
  | ok a => exact h a rfl

/-- A call that fails keeps to its own limit, and to nothing else. -/
theorem keeps_of_fails {e : Error} (hdelay : answer.delay = t.delay request.phase)
    (h : answer.Fails request.phase (t.limit request.phase) e) :
    (⟨[⟨request, t.limit request.phase⟩], .error e⟩ : Run β).Keeps t (request.phase :: plan) where
  follows := List.cons_prefix_cons.2 ⟨rfl, List.nil_prefix⟩
  limits := by simp
  expires phase hphase := by
    obtain rfl := List.mem_singleton.1 hphase
    rw [TimesOut, Except.error.injEq, h.eq_timeout_iff, Timing.expires_iff hdelay]
  timesOut := by
    rintro operation limit ⟨⟩
    cases h with
    | late hlate =>
      have hexpires := (Timing.expires_iff hdelay).2 hlate
      exact ⟨[], request.phase, ⟨⟨plan, rfl⟩, hexpires, by simp⟩, rfl, rfl, rfl⟩

/-- A call that is in time leaves it to what comes then. -/
theorem Keeps.cons {r : Run β} (h : r.Keeps t plan) (hinTime : ¬ t.Expires request.phase) :
    (⟨⟨request, t.limit request.phase⟩ :: r.calls, r.outcome⟩ : Run β).Keeps t
      (request.phase :: plan) := by
  have htimesOut : ∀ operation limit, r.TimesOut operation limit → ∃ before phase,
      t.FirstExpires (request.phase :: plan) before phase ∧
        request.phase :: r.phases = before ++ [phase] ∧
        operation = phase.name ∧ limit = t.limit phase := by
    intro operation limit htimes
    obtain ⟨before, phase, hfirst, hphases, hnames⟩ := h.timesOut operation limit htimes
    exact ⟨request.phase :: before, phase, hfirst.cons hinTime, by rw [hphases]; rfl, hnames⟩
  refine ⟨List.cons_prefix_cons.2 ⟨rfl, h.follows⟩, ?_, ?_, htimesOut⟩
  · exact List.forall_mem_cons.2 ⟨rfl, h.limits⟩
  · intro phase hphase
    constructor
    · intro htimes
      -- The name in the error tells which phase it was.
      obtain ⟨_, phase', hfirst, _, hname, _⟩ := htimesOut _ _ htimes
      rw [Phase.name_injective hname]
      exact hfirst.expires
    · intro hlate
      rcases List.mem_cons.1 hphase with rfl | hmem
      · exact absurd hlate hinTime
      · exact (h.expires phase hmem).2 hlate

theorem keeps_call_bind (hlimit : limit = t.limit request.phase)
    (hdelay : answer.delay = t.delay request.phase)
    (h : ∀ a, answer.outcome = .ok a → (next a).Keeps t plan) :
    (call request limit answer >>= next).Keeps t (request.phase :: plan) := by
  subst hlimit
  show ((call request _ answer).andThen next).Keeps t _
  rw [andThen, outcome_call]
  cases hawait : await request.phase (t.limit request.phase) answer with
  | error e => exact keeps_of_fails hdelay (await_eq_error.1 hawait)
  | ok a =>
    obtain ⟨hin, houtcome⟩ := await_eq_ok.1 hawait
    exact (h a houtcome).cons fun hlate => (Timing.expires_iff hdelay).1 hlate hin

/-- Unless the first run is over time, the second one makes the same requests and ends alike. -/
def Persists (r r' : Run α) : Prop :=
  Untimed r.outcome →
    r'.outcome = r.outcome ∧ r'.calls.map (·.request) = r.calls.map (·.request)

theorem Persists.refl (r : Run α) : r.Persists r :=
  fun _ => ⟨rfl, rfl⟩

theorem Persists.bind {r r' : Run α} (h : r.Persists r')
    (hnext : ∀ a, (next a).Persists (next' a)) : (r >>= next).Persists (r' >>= next') := by
  intro huntimed
  cases houtcome : r.outcome with
  | error e =>
    rw [outcome_bind_of_eq_error houtcome] at huntimed
    have hfirst : Untimed r.outcome := by
      rw [houtcome]
      rintro operation limit ⟨⟩
      exact huntimed operation limit rfl
    obtain ⟨hsame, hcalls⟩ := h hfirst
    rw [houtcome] at hsame
    show (r'.andThen next').outcome = (r.andThen next).outcome ∧
      (r'.andThen next').calls.map _ = (r.andThen next).calls.map _
    rw [andThen, andThen, houtcome, hsame]
    exact ⟨rfl, hcalls⟩
  | ok a =>
    rw [outcome_bind_of_eq_ok houtcome] at huntimed
    have hfirst : Untimed r.outcome := by
      rw [houtcome]
      rintro operation limit ⟨⟩
    obtain ⟨hsame, hcalls⟩ := h hfirst
    obtain ⟨hsame', hcalls'⟩ := hnext a huntimed
    rw [houtcome] at hsame
    show (r'.andThen next').outcome = (r.andThen next).outcome ∧
      (r'.andThen next').calls.map _ = (r.andThen next).calls.map _
    rw [andThen, andThen, houtcome, hsame]
    exact ⟨hsame', by rw [List.map_append, List.map_append, hcalls, hcalls']⟩

/-- A call whose answer comes in time does so with more time and less delay. -/
theorem persists_call {limit' : Duration} {answer' : Answer α}
    (hlimit : limit = t.limit request.phase) (hlimit' : limit' = t'.limit request.phase)
    (hdelay : answer.delay = t.delay request.phase)
    (hdelay' : answer'.delay = t'.delay request.phase) (houtcome : answer'.outcome = answer.outcome)
    (heases : t.Eases t' request.phase) :
    (call request limit answer).Persists (call request limit' answer') := by
  subst hlimit hlimit'
  intro huntimed
  refine ⟨?_, rfl⟩
  have hin : answer.ComesWithin (t.limit request.phase) := by
    by_contra hlate
    exact huntimed _ _ (await_eq_error.2 (.late hlate))
  have hin' : answer'.ComesWithin (t'.limit request.phase) := by
    by_contra hlate
    exact (Timing.expires_iff hdelay).1
      (heases.expires ((Timing.expires_iff hdelay').2 hlate)) hin
  rw [outcome_call, outcome_call, await, await, if_pos (Answer.isInTime_iff.2 hin),
    if_pos (Answer.isInTime_iff.2 hin'), houtcome]

end Run

/-! ### Actions -/

/-- The calls that an action needs, in order. -/
def Action.plan : Action → List Phase
  | submit => [.endorse, .submit, .commitStatus]
  | evaluate => [.evaluate]

def Options.limit (o : Options) : Phase → Duration
  | .evaluate => o.evaluateLimit
  | .endorse => o.endorseLimit
  | .submit => o.submitLimit
  | .commitStatus => o.commitStatusLimit

def Peer.delay (peer : Peer) : Phase → Option Duration
  | .evaluate => peer.evaluate.delay
  | .endorse => peer.endorse.delay
  | .submit => peer.submit.delay
  | .commitStatus => peer.commitStatus.delay

def Peer.withDelays (peer : Peer) (delay : Phase → Option Duration) : Peer where
  evaluate := { peer.evaluate with delay := delay .evaluate }
  endorse := { peer.endorse with delay := delay .endorse }
  submit := { peer.submit with delay := delay .submit }
  commitStatus := { peer.commitStatus with delay := delay .commitStatus }

@[simp]
theorem Peer.withDelays_delay (peer : Peer) : peer.withDelays peer.delay = peer := rfl

namespace Session

open Protocol

def withLimits (s : Session) (limit : Phase → Duration) : Session where
  identity := s.identity
  signer := s.signer
  options := {
    hash := s.options.hash
    evaluateLimit := limit .evaluate
    endorseLimit := limit .endorse
    submitLimit := limit .submit
    commitStatusLimit := limit .commitStatus }

@[simp]
theorem withLimits_limit (s : Session) : s.withLimits s.options.limit = s := rfl

/-! ### Steps without a call -/

theorem untimed_signedProposal (s : Session) (p : UnsignedProposal) :
    Run.Untimed (s.signedProposal p) := by
  intro operation limit h
  obtain ⟨_, herror⟩ := signedProposal_eq_error.1 h
  cases herror

theorem untimed_sign (s : Session) (message : Bytes) : Run.Untimed (s.sign message) := by
  intro operation limit h
  obtain ⟨_, herror⟩ := sign_eq_error.1 h
  cases herror

theorem untimed_prepared (response : EndorseResponse) : Run.Untimed (prepared response) := by
  intro operation limit h
  obtain ⟨_, herror⟩ := prepared_eq_error.1 h
  cases herror

theorem untimed_transactionResult (envelope : Envelope) :
    Run.Untimed (transactionResult envelope) := by
  intro operation limit h
  cases failsUnusable_transactionResult envelope _ h

theorem untimed_accepted (id : String) (v : Bytes) (status : CommitStatusResponse) :
    Run.Untimed (accepted id v status) := by
  intro operation limit h
  obtain ⟨_, _, _, herror⟩ := accepted_eq_error.1 h
  cases herror

/-! ### Both actions -/

section Deadlines

variable (s : Session) (c : Contract) (peer : Peer) (occasion : Occasion) (function : String)
  (arguments : List String)

theorem submit_keeps (t : Timing) :
    ((s.withLimits t.limit).submit c (peer.withDelays t.delay) occasion function arguments).Keeps
      t Action.submit.plan := by
  refine Run.keeps_liftM_bind (untimed_signedProposal _ _) fun signed _ => ?_
  refine Run.keeps_call_bind rfl rfl fun endorsed _ => ?_
  refine Run.keeps_liftM_bind (untimed_prepared _) fun envelope _ => ?_
  refine Run.keeps_liftM_bind (untimed_transactionResult _) fun result _ => ?_
  refine Run.keeps_liftM_bind (untimed_sign _ _) fun signature _ => ?_
  refine Run.keeps_call_bind rfl rfl fun _ _ => ?_
  refine Run.keeps_liftM_bind (untimed_sign _ _) fun questionSignature _ => ?_
  refine Run.keeps_call_bind rfl rfl fun status _ => ?_
  exact Run.keeps_of_calls_eq_nil rfl (untimed_accepted _ _ _)

theorem evaluate_keeps (t : Timing) :
    ((s.withLimits t.limit).evaluate c (peer.withDelays t.delay) occasion function
      arguments).Keeps t Action.evaluate.plan := by
  refine Run.keeps_liftM_bind (untimed_signedProposal _ _) fun signed _ => ?_
  refine Run.keeps_call_bind rfl rfl fun response _ => ?_
  exact Run.keeps_of_calls_eq_nil rfl nofun

theorem submit_persists {t t' : Timing} (h : ∀ phase ∈ Action.submit.plan, t.Eases t' phase) :
    ((s.withLimits t.limit).submit c (peer.withDelays t.delay) occasion function
      arguments).Persists
      ((s.withLimits t'.limit).submit c (peer.withDelays t'.delay) occasion function arguments) := by
  have hendorse := h .endorse (by decide)
  have hsubmit := h .submit (by decide)
  have hstatus := h .commitStatus (by decide)
  refine .bind (.refl _) fun signed => ?_
  refine .bind (Run.persists_call rfl rfl rfl rfl rfl hendorse) fun endorsed => ?_
  refine .bind (.refl _) fun envelope => ?_
  refine .bind (.refl _) fun result => ?_
  refine .bind (.refl _) fun signature => ?_
  refine .bind (Run.persists_call rfl rfl rfl rfl rfl hsubmit) fun _ => ?_
  refine .bind (.refl _) fun questionSignature => ?_
  exact .bind (Run.persists_call rfl rfl rfl rfl rfl hstatus) fun status => .refl _

theorem evaluate_persists {t t' : Timing} (h : ∀ phase ∈ Action.evaluate.plan, t.Eases t' phase) :
    ((s.withLimits t.limit).evaluate c (peer.withDelays t.delay) occasion function
      arguments).Persists
      ((s.withLimits t'.limit).evaluate c (peer.withDelays t'.delay) occasion function
        arguments) := by
  have hevaluate := h .evaluate (by decide)
  refine .bind (.refl _) fun signed => ?_
  exact .bind (Run.persists_call rfl rfl rfl rfl rfl hevaluate) fun response => .refl _

/-- **The limits of one action are nothing to the other.**  Only those of its own plan count. -/
theorem perform_congr (action : Action) {t t' : Timing}
    (h : ∀ phase ∈ action.plan, t.Agrees t' phase) :
    (s.withLimits t.limit).perform action c (peer.withDelays t.delay) occasion function arguments =
      (s.withLimits t'.limit).perform action c (peer.withDelays t'.delay) occasion function
        arguments := by
  cases action with
  | submit =>
    obtain ⟨hendorse, hendorse'⟩ := h .endorse (by decide)
    obtain ⟨hsubmit, hsubmit'⟩ := h .submit (by decide)
    obtain ⟨hstatus, hstatus'⟩ := h .commitStatus (by decide)
    show Session.submit _ _ _ _ _ _ = Session.submit _ _ _ _ _ _
    simp only [submit, withLimits, Peer.withDelays, hendorse, hendorse', hsubmit, hsubmit', hstatus,
      hstatus']
    rfl
  | evaluate =>
    obtain ⟨hevaluate, hevaluate'⟩ := h .evaluate (by decide)
    show Session.evaluate _ _ _ _ _ _ = Session.evaluate _ _ _ _ _ _
    simp only [evaluate, withLimits, Peer.withDelays, hevaluate, hevaluate']
    rfl

end Deadlines

/-- **Each phase is bounded by its own limit only.**  Whatever the limits and the delays are, a run
is over time just where a phase of its plan is the first that expires, names it with its limit, and
makes no call after it.  The other action's limits do not matter, and with more time and less delay
a run that was not over time stays as it is. -/
theorem deadlines (s : Session) (action : Action) (c : Contract) (peer : Peer)
    (occasion : Occasion) (function : String) (arguments : List String) :
    let run := fun t : Timing => (s.withLimits t.limit).perform action c (peer.withDelays t.delay)
      occasion function arguments
    (∀ t, (run t).Keeps t action.plan) ∧
    (∀ t t', (∀ phase ∈ action.plan, t.Agrees t' phase) → run t = run t') ∧
    ∀ t t', (∀ phase ∈ action.plan, t.Eases t' phase) → (run t).Persists (run t') := by
  refine ⟨?_, fun t t' => s.perform_congr c peer occasion function arguments action, ?_⟩
  · intro t
    cases action with
    | submit => exact s.submit_keeps c peer occasion function arguments t
    | evaluate => exact s.evaluate_keeps c peer occasion function arguments t
  · intro t t' h
    cases action with
    | submit => exact s.submit_persists c peer occasion function arguments h
    | evaluate => exact s.evaluate_persists c peer occasion function arguments h

/-- A timing in which only endorsing takes time, all spans being in seconds. -/
def sampleTiming (endorseDelay endorseLimit evaluateLimit : Nat) : Timing where
  limit
    | .evaluate => .ofSeconds evaluateLimit
    | .endorse => .ofSeconds endorseLimit
    | .submit => .ofSeconds 5
    | .commitStatus => .ofSeconds 60
  delay
    | .endorse => some (.ofSeconds endorseDelay)
    | _ => some (.ofSeconds 0)

theorem deadlines_sampleTiming :
    let run := fun t : Timing => (sample.withLimits t.limit).perform .submit sampleContract
      (samplePeer.withDelays t.delay) ⟨[7], {}⟩ "Read" ["a", ""]
    (run (sampleTiming 20 15 5)).TimesOut "endorse" (.ofSeconds 15) ∧
    (run (sampleTiming 20 15 5)).phases = [.endorse] ∧
    run (sampleTiming 20 15 5) = run (sampleTiming 20 15 1) ∧
    Run.Untimed (run (sampleTiming 10 15 5)).outcome ∧
    (run (sampleTiming 10 30 5)).outcome = (run (sampleTiming 10 15 5)).outcome := by
  intro run
  obtain ⟨hkeeps, hcongr, hpersists⟩ :=
    deadlines sample .submit sampleContract samplePeer ⟨[7], {}⟩ "Read" ["a", ""]
  have hlate : (sampleTiming 20 15 5).Expires .endorse := by
    rintro delay ⟨⟩
    decide
  have hreached : Phase.endorse ∈ (run (sampleTiming 20 15 5)).phases :=
    endorse_mem_phases.2 signs_sampleProposal
  have htimesOut : (run (sampleTiming 20 15 5)).TimesOut "endorse" (.ofSeconds 15) :=
    ((hkeeps _).expires .endorse hreached).2 hlate
  have hinTime : Run.Untimed (run (sampleTiming 10 15 5)).outcome := by
    refine (hkeeps _).untimed fun phase _ hlate => ?_
    cases phase with
    | evaluate | endorse | submit | commitStatus => exact absurd (hlate _ rfl) (by decide)
  refine ⟨htimesOut, ?_, hcongr _ _ ?_, hinTime, (hpersists _ _ ?_ hinTime).1⟩
  · obtain ⟨before, phase, ⟨⟨after, hplan⟩, _, hbefore⟩, hphases, _⟩ :=
      (hkeeps _).timesOut _ _ htimesOut
    cases before with
    | nil =>
      cases hplan
      exact hphases
    | cons earlier before =>
      obtain ⟨rfl, _⟩ := List.cons.inj hplan
      exact absurd hlate (hbefore _ List.mem_cons_self)
  · intro phase hphase
    cases phase with
    | evaluate => exact absurd hphase (by decide)
    | endorse | submit | commitStatus => exact ⟨rfl, rfl⟩
  · intro phase _
    cases phase with
    | endorse => exact ⟨by decide, fun delay hdelay => ⟨delay, hdelay, le_rfl⟩⟩
    | evaluate | submit | commitStatus =>
      exact ⟨le_rfl, fun delay hdelay => ⟨delay, hdelay, le_rfl⟩⟩

end Session

end LedgerGateway
