import LedgerGateway.Proofs.Session.Run
import LedgerGateway.Session

/-!
# The flow of a transaction

`Session.submit` goes through three calls, and each of them has to come out well before the next is
made.  How far it got is told by what the peer did: the proposal was endorsed (`Session.Endorsed`),
the transaction was handed in (`Session.HandedIn`), the ledger gave its verdict (`Session.Judged`).
What is left to do from there on is a run of its own (`Session.handIn`, `Session.awaitVerdict`).  What
can go wrong, and which error it gives, is listed in `Session.FailsFirst`; every case of the list says
that all before it went well.  `Session.flow` puts this together.

A signature can fail to be made, too, and then the run ends there (`Session.Signs`).
-/

namespace LedgerGateway

open Protocol

/-! ### Verdicts -/

namespace Protocol.ValidationCode

theorem ofCode?_code : ∀ v : ValidationCode, ofCode? v.code = some v := by
  intro v
  cases v <;> decide

theorem ofCode?_eq_some {n : Int32} {v : ValidationCode} : ofCode? n = some v ↔ v.code = n := by
  constructor
  · intro h
    have hfound := List.find?_some h
    exact beq_iff_eq.1 hfound
  · rintro rfl
    exact ofCode?_code v

theorem ofCode?_eq_none {n : Int32} : ofCode? n = none ↔ ∀ v : ValidationCode, v.code ≠ n := by
  constructor
  · intro h v hv
    rw [ofCode?_eq_some.2 hv] at h
    cases h
  · intro h
    cases hcode : ofCode? n with
    | none => rfl
    | some v => exact absurd (ofCode?_eq_some.1 hcode) (h v)

end Protocol.ValidationCode

/-- What the verdict with a number is called in errors. -/
inductive VerdictName (n : Int32) : String → Prop
  | known {v : ValidationCode} : v.code = n → VerdictName n v.name
  | unknown : (∀ v : ValidationCode, v.code ≠ n) → VerdictName n "UNKNOWN"

theorem VerdictName.unique {n : Int32} {a b : String} (ha : VerdictName n a)
    (hb : VerdictName n b) : a = b := by
  cases ha with
  | @known v hv =>
    cases hb with
    | @known w hw =>
      have hcode := ValidationCode.ofCode?_eq_some.2 hv
      rw [ValidationCode.ofCode?_eq_some.2 hw] at hcode
      rw [Option.some.inj hcode]
    | unknown hb => exact absurd hv (hb v)
  | unknown ha =>
    cases hb with
    | @known w hw => exact absurd hw (ha w)
    | unknown _ => rfl

namespace Session

theorem accepted_of_eq_zero (id : String) (v : Bytes) {status : CommitStatusResponse}
    (h : status.result = 0) : accepted id v status = .ok v := by
  have hcode : ValidationCode.ofCode? status.result = some .valid := by rw [h]; decide
  rw [accepted, hcode]

/-- **A verdict other than zero is never taken for success**, whether it has a name or not. -/
theorem accepted_of_ne_zero (id : String) (v : Bytes) {status : CommitStatusResponse}
    (h : status.result ≠ 0) : ∃ name, VerdictName status.result name ∧
      accepted id v status = .error (.commit id status.result name) := by
  rw [accepted]
  split
  · rename_i hcode
    exact absurd (ValidationCode.ofCode?_eq_some.1 hcode).symm h
  · rename_i hcode
    exact ⟨_, .known (ValidationCode.ofCode?_eq_some.1 hcode), rfl⟩
  · rename_i hcode
    exact ⟨_, .unknown (ValidationCode.ofCode?_eq_none.1 hcode), rfl⟩

theorem accepted_eq_ok {id : String} {v w : Bytes} {status : CommitStatusResponse} :
    accepted id v status = .ok w ↔ status.result = 0 ∧ w = v := by
  by_cases hzero : status.result = 0
  · rw [accepted_of_eq_zero id v hzero, Except.ok.injEq, and_iff_right hzero, eq_comm]
  · obtain ⟨name, _, heq⟩ := accepted_of_ne_zero id v hzero
    simp [heq, hzero]

theorem accepted_eq_error {id : String} {v : Bytes} {status : CommitStatusResponse} {e : Error} :
    accepted id v status = .error e ↔ status.result ≠ 0 ∧
      ∃ name, VerdictName status.result name ∧ e = .commit id status.result name := by
  by_cases hzero : status.result = 0
  · simp [accepted_of_eq_zero id v hzero, hzero]
  · obtain ⟨name, hname, heq⟩ := accepted_of_ne_zero id v hzero
    rw [heq]
    constructor
    · rintro ⟨⟩
      exact ⟨hzero, name, hname, rfl⟩
    · rintro ⟨_, name', hname', rfl⟩
      rw [hname.unique hname']

/-! ### What is unusable -/

/-- An error that an unusable endorsement gives: something is missing in it, or it cannot be read. -/
inductive IsUnusable : Error → Prop
  | lacking (fault : ResponseFault) : IsUnusable (.invalidResponse fault)
  | unreadable (error : Wire.DecodeError) : IsUnusable (.decode error)

/-- A step that gives no other errors. -/
def FailsUnusable {α : Type} (r : Result α) : Prop := ∀ e, r = .error e → IsUnusable e

theorem FailsUnusable.bind {α β : Type} {r : Result α} {next : α → Result β}
    (h : FailsUnusable r) (hnext : ∀ a, FailsUnusable (next a)) : FailsUnusable (r >>= next) := by
  intro e he
  cases r with
  | error e' => cases he; exact h e rfl
  | ok a => exact hnext a e he

theorem failsUnusable_readLayer {α : Type} [Wire.Message α] (b : Bytes) :
    FailsUnusable (readLayer α b) := by
  intro e he
  rw [readLayer] at he
  cases hdecode : Wire.decode (α := α) b with
  | ok m => rw [hdecode] at he; cases he
  | error fault => rw [hdecode] at he; cases he; exact .unreadable fault

/-- Whatever an envelope holds, there is no other error in reading the result from it. -/
theorem failsUnusable_transactionResult (envelope : Envelope) :
    FailsUnusable (transactionResult envelope) := by
  refine (failsUnusable_readLayer _).bind fun payload => ?_
  refine (failsUnusable_readLayer _).bind fun transaction => ?_
  split
  · intro e he
    cases he
    exact .lacking _
  · refine (failsUnusable_readLayer _).bind fun actionPayload => ?_
    split
    · intro e he
      cases he
      exact .lacking _
    · refine (failsUnusable_readLayer _).bind fun response => ?_
      refine (failsUnusable_readLayer _).bind fun chaincodeAction => ?_
      intro e he
      cases he

/-! ### How far a submission gets -/

section Submission

variable (s : Session) (c : Contract) (peer : Peer) (p : UnsignedProposal)

def proposal (occasion : Occasion) (function : String) (arguments : List String) :
    UnsignedProposal :=
  (s.call c function arguments).propose occasion.nonce occasion.time

def Signs (message : Bytes) : Prop := ∃ signature, s.sign message = .ok signature

/-- The proposal was endorsed: an envelope was prepared for it, and there is a result in it. -/
def Endorsed (envelope : Envelope) (v : Bytes) : Prop :=
  s.Signs p.bytes ∧
  peer.endorse.Yields s.options.endorseLimit { preparedTransaction := some envelope } ∧
  transactionResult envelope = .ok v

/-- The envelope that was prepared was handed in, with a signature. -/
def HandedIn (envelope : Envelope) (v : Bytes) : Prop :=
  s.Endorsed peer p envelope v ∧ s.Signs envelope.payload ∧
  peer.submit.Yields s.options.submitLimit {}

/-- The ledger was asked about the transaction and gave a verdict. -/
def Judged (envelope : Envelope) (v : Bytes) (status : CommitStatusResponse) : Prop :=
  s.HandedIn peer p envelope v ∧ s.Signs (s.commitQuestion c p.transactionId) ∧
  peer.commitStatus.Yields s.options.commitStatusLimit status

def evaluateCall (signature : Bytes) : MadeCall where
  request := .evaluate {
    transactionId := p.transactionId
    channelId := c.channel
    proposedTransaction := some { proposalBytes := p.bytes, signature := signature } }
  limit := s.options.evaluateLimit

def endorseCall (signature : Bytes) : MadeCall where
  request := .endorse {
    transactionId := p.transactionId
    channelId := c.channel
    proposedTransaction := some { proposalBytes := p.bytes, signature := signature } }
  limit := s.options.endorseLimit

/-- The call to hand in what was prepared, with another signature. -/
def submitCall (envelope : Envelope) (signature : Bytes) : MadeCall where
  request := .submit {
    transactionId := p.transactionId
    channelId := c.channel
    preparedTransaction := some { envelope with signature := signature } }
  limit := s.options.submitLimit

/-- The call to ask what became of the transaction. -/
def commitStatusCall (signature : Bytes) : MadeCall where
  request := .commitStatus {
    request := s.commitQuestion c p.transactionId
    signature := signature }
  limit := s.options.commitStatusLimit

/-- The calls that are made, each with all that has to come out well before. -/
inductive Makes : MadeCall → Prop
  | endorse {signature : Bytes} : s.sign p.bytes = .ok signature →
      Makes (s.endorseCall c p signature)
  | submit {envelope : Envelope} {v signature : Bytes} : s.Endorsed peer p envelope v →
      s.sign envelope.payload = .ok signature → Makes (s.submitCall c p envelope signature)
  | commitStatus {envelope : Envelope} {v signature : Bytes} : s.HandedIn peer p envelope v →
      s.sign (s.commitQuestion c p.transactionId) = .ok signature →
      Makes (s.commitStatusCall c p signature)

/-- What can go wrong first, and the error it gives. -/
inductive FailsFirst : Error → Prop
  | proposal : ¬ s.Signs p.bytes → FailsFirst .signing
  | endorse {e : Error} : s.Signs p.bytes →
      peer.endorse.Fails .endorse s.options.endorseLimit e → FailsFirst e
  | unprepared : s.Signs p.bytes →
      peer.endorse.Yields s.options.endorseLimit { preparedTransaction := none } →
      FailsFirst (.invalidResponse .noPreparedTransaction)
  | unusable {envelope : Envelope} {e : Error} : s.Signs p.bytes →
      peer.endorse.Yields s.options.endorseLimit { preparedTransaction := some envelope } →
      transactionResult envelope = .error e → IsUnusable e → FailsFirst e
  | transaction {envelope : Envelope} {v : Bytes} : s.Endorsed peer p envelope v →
      ¬ s.Signs envelope.payload → FailsFirst .signing
  | submit {envelope : Envelope} {v : Bytes} {e : Error} : s.Endorsed peer p envelope v →
      s.Signs envelope.payload → peer.submit.Fails .submit s.options.submitLimit e → FailsFirst e
  | question {envelope : Envelope} {v : Bytes} : s.HandedIn peer p envelope v →
      ¬ s.Signs (s.commitQuestion c p.transactionId) → FailsFirst .signing
  | commitStatus {envelope : Envelope} {v : Bytes} {e : Error} : s.HandedIn peer p envelope v →
      s.Signs (s.commitQuestion c p.transactionId) →
      peer.commitStatus.Fails .commitStatus s.options.commitStatusLimit e → FailsFirst e
  | verdict {envelope : Envelope} {v : Bytes} {status : CommitStatusResponse} {name : String} :
      s.Judged c peer p envelope v status → status.result ≠ 0 → VerdictName status.result name →
      FailsFirst (.commit p.transactionId status.result name)

end Submission

/-! ### Signing -/

theorem sign_eq_error {s : Session} {message : Bytes} {e : Error} :
    s.sign message = .error e ↔ ¬ s.Signs message ∧ e = .signing := by
  rw [Signs, sign, Signer.sign]
  cases s.signer.sign? (s.options.hash.digest message) with
  | none => simp [eq_comm]
  | some signature => simp

theorem signedProposal_eq_ok {s : Session} {p : UnsignedProposal} {signed : SignedProposal} :
    s.signedProposal p = .ok signed ↔ ∃ signature, s.sign p.bytes = .ok signature ∧
      signed = { proposalBytes := p.bytes, signature := signature } := by
  rw [signedProposal]
  cases s.sign p.bytes with
  | error e => simp [bind, Except.bind]
  | ok signature => simp [bind, Except.bind, pure, Except.pure, eq_comm]

theorem signedProposal_eq_error {s : Session} {p : UnsignedProposal} {e : Error} :
    s.signedProposal p = .error e ↔ ¬ s.Signs p.bytes ∧ e = .signing := by
  rw [← sign_eq_error, signedProposal]
  cases s.sign p.bytes with
  | error e => simp [bind, Except.bind]
  | ok signature => simp [bind, Except.bind, pure, Except.pure]

theorem prepared_eq_ok {response : EndorseResponse} {envelope : Envelope} :
    prepared response = .ok envelope ↔ response = { preparedTransaction := some envelope } := by
  obtain ⟨envelope?⟩ := response
  cases envelope? <;> simp [prepared]

theorem prepared_eq_error {response : EndorseResponse} {e : Error} :
    prepared response = .error e ↔ response = { preparedTransaction := none } ∧
      e = .invalidResponse .noPreparedTransaction := by
  obtain ⟨envelope?⟩ := response
  cases envelope? <;> simp [prepared, eq_comm]

/-! ### What is left to do -/

section Stages

/-- What is left to do once the transaction is handed in. -/
def awaitVerdict (s : Session) (c : Contract) (peer : Peer) (p : UnsignedProposal) (v : Bytes) :
    Run Bytes := do
  let question := s.commitQuestion c p.transactionId
  let signature ← s.sign question
  let status ← Run.call (.commitStatus { request := question, signature := signature })
    s.options.commitStatusLimit peer.commitStatus
  accepted p.transactionId v status

/-- What is left to do once the proposal is endorsed. -/
def handIn (s : Session) (c : Contract) (peer : Peer) (p : UnsignedProposal) (envelope : Envelope)
    (v : Bytes) : Run Bytes := do
  let signature ← s.sign envelope.payload
  let _ ← Run.call (.submit {
      transactionId := p.transactionId
      channelId := c.channel
      preparedTransaction := some { envelope with signature := signature } })
    s.options.submitLimit peer.submit
  s.awaitVerdict c peer p v

variable {s : Session} {c : Contract} {peer : Peer} {p : UnsignedProposal} {envelope : Envelope}
  {v w : Bytes} {e : Error}

theorem awaitVerdict_outcome_eq_ok :
    (s.awaitVerdict c peer p v).outcome = .ok w ↔
      w = v ∧ s.Signs (s.commitQuestion c p.transactionId) ∧
        ∃ status, peer.commitStatus.Yields s.options.commitStatusLimit status ∧
          status.result = 0 := by
  simp only [awaitVerdict, Run.outcome_bind_eq_ok, Run.outcome_liftM, Run.outcome_call,
    Run.await_eq_ok, accepted_eq_ok]
  constructor
  · rintro ⟨signature, hsigned, status, hstatus, hzero, rfl⟩
    exact ⟨rfl, ⟨signature, hsigned⟩, status, hstatus, hzero⟩
  · rintro ⟨rfl, ⟨signature, hsigned⟩, status, hstatus, hzero⟩
    exact ⟨signature, hsigned, status, hstatus, hzero, rfl⟩

theorem awaitVerdict_outcome_eq_error :
    (s.awaitVerdict c peer p v).outcome = .error e ↔
      ¬ s.Signs (s.commitQuestion c p.transactionId) ∧ e = .signing ∨
      s.Signs (s.commitQuestion c p.transactionId) ∧
        (peer.commitStatus.Fails .commitStatus s.options.commitStatusLimit e ∨
          ∃ status, peer.commitStatus.Yields s.options.commitStatusLimit status ∧
            status.result ≠ 0 ∧ ∃ name, VerdictName status.result name ∧
              e = .commit p.transactionId status.result name) := by
  simp only [awaitVerdict, Run.outcome_bind_eq_error, Run.outcome_liftM, Run.outcome_call,
    Run.await_eq_ok, Run.await_eq_error, sign_eq_error, accepted_eq_error]
  constructor
  · rintro (hunsigned | ⟨signature, hsigned, h⟩)
    · exact .inl hunsigned
    · exact .inr ⟨⟨signature, hsigned⟩, h⟩
  · rintro (hunsigned | ⟨⟨signature, hsigned⟩, h⟩)
    · exact .inl hunsigned
    · exact .inr ⟨signature, hsigned, h⟩

theorem handIn_outcome_eq_ok :
    (s.handIn c peer p envelope v).outcome = .ok w ↔
      s.Signs envelope.payload ∧ peer.submit.Yields s.options.submitLimit {} ∧
        (s.awaitVerdict c peer p v).outcome = .ok w := by
  simp only [handIn, Run.outcome_bind_eq_ok, Run.outcome_liftM, Run.outcome_call,
    Run.await_eq_ok]
  constructor
  · rintro ⟨signature, hsigned, _, hsubmit, h⟩
    exact ⟨⟨signature, hsigned⟩, hsubmit, h⟩
  · rintro ⟨⟨signature, hsigned⟩, hsubmit, h⟩
    exact ⟨signature, hsigned, _, hsubmit, h⟩

theorem handIn_outcome_eq_error :
    (s.handIn c peer p envelope v).outcome = .error e ↔
      ¬ s.Signs envelope.payload ∧ e = .signing ∨
      s.Signs envelope.payload ∧
        (peer.submit.Fails .submit s.options.submitLimit e ∨
          peer.submit.Yields s.options.submitLimit {} ∧
            (s.awaitVerdict c peer p v).outcome = .error e) := by
  simp only [handIn, Run.outcome_bind_eq_error, Run.outcome_liftM, Run.outcome_call,
    Run.await_eq_ok, Run.await_eq_error, sign_eq_error]
  constructor
  · rintro (hunsigned | ⟨signature, hsigned, hfails | ⟨_, hsubmit, h⟩⟩)
    · exact .inl hunsigned
    · exact .inr ⟨⟨signature, hsigned⟩, .inl hfails⟩
    · exact .inr ⟨⟨signature, hsigned⟩, .inr ⟨hsubmit, h⟩⟩
  · rintro (hunsigned | ⟨⟨signature, hsigned⟩, hfails | ⟨hsubmit, h⟩⟩)
    · exact .inl hunsigned
    · exact .inr ⟨signature, hsigned, .inl hfails⟩
    · exact .inr ⟨signature, hsigned, .inr ⟨_, hsubmit, h⟩⟩

theorem handIn_outcome_of_handedIn (h : s.HandedIn peer p envelope v) :
    (s.handIn c peer p envelope v).outcome = (s.awaitVerdict c peer p v).outcome := by
  obtain ⟨_, ⟨signature, hsigned⟩, hsubmit⟩ := h
  rw [handIn, Run.outcome_bind_of_eq_ok hsigned,
    Run.outcome_bind_of_eq_ok (Run.await_eq_ok.2 hsubmit)]

end Stages

/-! ### Submissions -/

section Flow

variable {s : Session} {c : Contract} {peer : Peer} {occasion : Occasion} {function : String}
  {arguments : List String}

theorem submit_eq : s.submit c peer occasion function arguments = (do
    let p := s.proposal c occasion function arguments
    let signed ← s.signedProposal p
    let endorsed ← Run.call (.endorse {
        transactionId := p.transactionId
        channelId := c.channel
        proposedTransaction := some signed }) s.options.endorseLimit peer.endorse
    let envelope ← prepared endorsed
    let v ← transactionResult envelope
    s.handIn c peer p envelope v) := rfl

theorem submit_outcome_of_endorsed {envelope : Envelope} {v : Bytes}
    (h : s.Endorsed peer (s.proposal c occasion function arguments) envelope v) :
    (s.submit c peer occasion function arguments).outcome =
      (s.handIn c peer (s.proposal c occasion function arguments) envelope v).outcome := by
  obtain ⟨⟨signature, hsigned⟩, hendorse, hresult⟩ := h
  rw [submit_eq, Run.outcome_bind_of_eq_ok (signedProposal_eq_ok.2 ⟨signature, hsigned, rfl⟩),
    Run.outcome_bind_of_eq_ok (Run.await_eq_ok.2 hendorse),
    Run.outcome_bind_of_eq_ok (prepared_eq_ok.2 rfl), Run.outcome_bind_of_eq_ok hresult]

theorem submit_outcome_eq_ok {v : Bytes} :
    (s.submit c peer occasion function arguments).outcome = .ok v ↔
      ∃ envelope status, s.Judged c peer (s.proposal c occasion function arguments) envelope v
        status ∧ status.result = 0 := by
  constructor
  · simp only [submit_eq, Run.outcome_bind_eq_ok, Run.outcome_liftM, Run.outcome_call,
      Run.await_eq_ok, signedProposal_eq_ok, prepared_eq_ok]
    rintro ⟨_, ⟨signature, hsigned, _⟩, response, hendorse, envelope, rfl, w, hresult, h⟩
    obtain ⟨hsigns', hsubmit, h⟩ := handIn_outcome_eq_ok.1 h
    obtain ⟨rfl, hsigns'', status, hstatus, hzero⟩ := awaitVerdict_outcome_eq_ok.1 h
    exact ⟨envelope, status, ⟨⟨⟨⟨signature, hsigned⟩, hendorse, hresult⟩, hsigns', hsubmit⟩,
      hsigns'', hstatus⟩, hzero⟩
  · rintro ⟨envelope, status, ⟨hhanded, hsigns, hstatus⟩, hzero⟩
    rw [submit_outcome_of_endorsed hhanded.1, handIn_outcome_of_handedIn hhanded]
    exact awaitVerdict_outcome_eq_ok.2 ⟨rfl, hsigns, status, hstatus, hzero⟩

theorem failsFirst_of_submit {e : Error}
    (h : (s.submit c peer occasion function arguments).outcome = .error e) :
    s.FailsFirst c peer (s.proposal c occasion function arguments) e := by
  simp only [submit_eq, Run.outcome_bind_eq_error, Run.outcome_liftM, Run.outcome_call,
    Run.await_eq_ok, Run.await_eq_error, signedProposal_eq_ok, signedProposal_eq_error,
    prepared_eq_ok, prepared_eq_error] at h
  rcases h with ⟨hunsigned, rfl⟩ | ⟨_, ⟨signature, hsigned, rfl⟩, h⟩
  · exact .proposal hunsigned
  have hsigns : s.Signs (s.proposal c occasion function arguments).bytes := ⟨signature, hsigned⟩
  rcases h with hfails | ⟨_, hendorse, h⟩
  · exact .endorse hsigns hfails
  rcases h with ⟨rfl, rfl⟩ | ⟨envelope, rfl, h⟩
  · exact .unprepared hsigns hendorse
  rcases h with herror | ⟨v, hresult, h⟩
  · exact .unusable hsigns hendorse herror (failsUnusable_transactionResult envelope e herror)
  have hendorsed : s.Endorsed peer (s.proposal c occasion function arguments) envelope v :=
    ⟨hsigns, hendorse, hresult⟩
  rcases handIn_outcome_eq_error.1 h with ⟨hunsigned, rfl⟩ | ⟨hsigns', hfails | ⟨hsubmit, h⟩⟩
  · exact .transaction hendorsed hunsigned
  · exact .submit hendorsed hsigns' hfails
  have hhanded : s.HandedIn peer (s.proposal c occasion function arguments) envelope v :=
    ⟨hendorsed, hsigns', hsubmit⟩
  rcases awaitVerdict_outcome_eq_error.1 h with
    ⟨hunsigned, rfl⟩ | ⟨hsigns'', hfails | ⟨status, hstatus, hne, name, hname, rfl⟩⟩
  · exact .question hhanded hunsigned
  · exact .commitStatus hhanded hsigns'' hfails
  · exact .verdict ⟨hhanded, hsigns'', hstatus⟩ hne hname

theorem submit_outcome_of_failsFirst {e : Error}
    (h : s.FailsFirst c peer (s.proposal c occasion function arguments) e) :
    (s.submit c peer occasion function arguments).outcome = .error e := by
  cases h with
  | proposal hunsigned =>
    rw [submit_eq]
    exact Run.outcome_bind_of_eq_error (signedProposal_eq_error.2 ⟨hunsigned, rfl⟩) _
  | endorse hsigns hfails =>
    obtain ⟨signature, hsigned⟩ := hsigns
    rw [submit_eq, Run.outcome_bind_of_eq_ok (signedProposal_eq_ok.2 ⟨signature, hsigned, rfl⟩)]
    exact Run.outcome_bind_of_eq_error (Run.await_eq_error.2 hfails) _
  | unprepared hsigns hendorse =>
    obtain ⟨signature, hsigned⟩ := hsigns
    rw [submit_eq, Run.outcome_bind_of_eq_ok (signedProposal_eq_ok.2 ⟨signature, hsigned, rfl⟩),
      Run.outcome_bind_of_eq_ok (Run.await_eq_ok.2 hendorse)]
    exact Run.outcome_bind_of_eq_error (prepared_eq_error.2 ⟨rfl, rfl⟩) _
  | unusable hsigns hendorse herror _ =>
    obtain ⟨signature, hsigned⟩ := hsigns
    rw [submit_eq, Run.outcome_bind_of_eq_ok (signedProposal_eq_ok.2 ⟨signature, hsigned, rfl⟩),
      Run.outcome_bind_of_eq_ok (Run.await_eq_ok.2 hendorse),
      Run.outcome_bind_of_eq_ok (prepared_eq_ok.2 rfl)]
    exact Run.outcome_bind_of_eq_error herror _
  | transaction hendorsed hunsigned =>
    rw [submit_outcome_of_endorsed hendorsed]
    exact handIn_outcome_eq_error.2 (.inl ⟨hunsigned, rfl⟩)
  | submit hendorsed hsigns hfails =>
    rw [submit_outcome_of_endorsed hendorsed]
    exact handIn_outcome_eq_error.2 (.inr ⟨hsigns, .inl hfails⟩)
  | question hhanded hunsigned =>
    rw [submit_outcome_of_endorsed hhanded.1, handIn_outcome_of_handedIn hhanded]
    exact awaitVerdict_outcome_eq_error.2 (.inl ⟨hunsigned, rfl⟩)
  | commitStatus hhanded hsigns hfails =>
    rw [submit_outcome_of_endorsed hhanded.1, handIn_outcome_of_handedIn hhanded]
    exact awaitVerdict_outcome_eq_error.2 (.inr ⟨hsigns, .inl hfails⟩)
  | verdict hjudged hne hname =>
    obtain ⟨hhanded, hsigns, hstatus⟩ := hjudged
    rw [submit_outcome_of_endorsed hhanded.1, handIn_outcome_of_handedIn hhanded]
    exact awaitVerdict_outcome_eq_error.2 (.inr ⟨hsigns, .inr ⟨_, hstatus, hne, _, hname, rfl⟩⟩)

theorem submit_outcome_eq_error {e : Error} :
    (s.submit c peer occasion function arguments).outcome = .error e ↔
      s.FailsFirst c peer (s.proposal c occasion function arguments) e :=
  ⟨failsFirst_of_submit, submit_outcome_of_failsFirst⟩

/-- **The calls of a submission are those that are due.** -/
theorem mem_calls_submit {x : MadeCall} :
    x ∈ (s.submit c peer occasion function arguments).calls ↔
      s.Makes c peer (s.proposal c occasion function arguments) x := by
  simp only [submit, Run.mem_calls_bind, Run.calls_liftM, Run.calls_call, Run.outcome_liftM,
    Run.outcome_call, Run.await_eq_ok, signedProposal_eq_ok, prepared_eq_ok, List.mem_singleton,
    List.not_mem_nil, false_or, and_false, exists_false, or_false]
  constructor
  · rintro ⟨_, ⟨signature, hsigned, rfl⟩, rfl | ⟨_, hendorse, envelope, rfl, v, hresult, signature',
      hsigned', h⟩⟩
    · exact .endorse hsigned
    have hendorsed : s.Endorsed peer (s.proposal c occasion function arguments) envelope v :=
      ⟨⟨signature, hsigned⟩, hendorse, hresult⟩
    rcases h with rfl | ⟨_, hsubmit, signature'', hsigned'', rfl⟩
    · exact .submit hendorsed hsigned'
    exact .commitStatus ⟨hendorsed, ⟨signature', hsigned'⟩, hsubmit⟩ hsigned''
  · intro h
    cases h with
    | endorse hsigned => exact ⟨_, ⟨_, hsigned, rfl⟩, .inl rfl⟩
    | submit hendorsed hsigned' =>
      obtain ⟨⟨signature, hsigned⟩, hendorse, hresult⟩ := hendorsed
      exact ⟨_, ⟨signature, hsigned, rfl⟩, .inr ⟨_, hendorse, _, rfl, _, hresult, _, hsigned',
        .inl rfl⟩⟩
    | commitStatus hhanded hsigned'' =>
      obtain ⟨⟨⟨signature, hsigned⟩, hendorse, hresult⟩, ⟨signature', hsigned'⟩, hsubmit⟩ := hhanded
      exact ⟨_, ⟨signature, hsigned, rfl⟩, .inr ⟨_, hendorse, _, rfl, _, hresult, _, hsigned',
        .inr ⟨_, hsubmit, _, hsigned'', rfl⟩⟩⟩

theorem submit_follows :
    (s.submit c peer occasion function arguments).Follows [.endorse, .submit, .commitStatus] := by
  refine Run.follows_liftM_bind fun signed _ => ?_
  refine Run.follows_call_bind fun endorsed => ?_
  refine Run.follows_liftM_bind fun envelope _ => ?_
  refine Run.follows_liftM_bind fun result _ => ?_
  refine Run.follows_liftM_bind fun signature _ => ?_
  refine Run.follows_call_bind fun _ => ?_
  refine Run.follows_liftM_bind fun questionSignature _ => ?_
  refine Run.follows_call_bind fun status => ?_
  exact Run.follows_of_calls_eq_nil rfl []

theorem endorse_mem_phases :
    Phase.endorse ∈ (s.submit c peer occasion function arguments).phases ↔
      s.Signs (s.proposal c occasion function arguments).bytes := by
  rw [Run.mem_phases]
  constructor
  · rintro ⟨x, hx, hphase⟩
    cases mem_calls_submit.1 hx with
    | endorse hsigned => exact ⟨_, hsigned⟩
    | submit _ _ => cases hphase
    | commitStatus _ _ => cases hphase
  · rintro ⟨signature, hsigned⟩
    exact ⟨_, mem_calls_submit.2 (.endorse hsigned), rfl⟩

theorem submit_mem_phases :
    Phase.submit ∈ (s.submit c peer occasion function arguments).phases ↔
      ∃ envelope v, s.Endorsed peer (s.proposal c occasion function arguments) envelope v ∧
        s.Signs envelope.payload := by
  rw [Run.mem_phases]
  constructor
  · rintro ⟨x, hx, hphase⟩
    cases mem_calls_submit.1 hx with
    | endorse _ => cases hphase
    | submit hendorsed hsigned => exact ⟨_, _, hendorsed, _, hsigned⟩
    | commitStatus _ _ => cases hphase
  · rintro ⟨envelope, v, hendorsed, signature, hsigned⟩
    exact ⟨_, mem_calls_submit.2 (.submit hendorsed hsigned), rfl⟩

theorem commitStatus_mem_phases :
    Phase.commitStatus ∈ (s.submit c peer occasion function arguments).phases ↔
      ∃ envelope v, s.HandedIn peer (s.proposal c occasion function arguments) envelope v ∧
        s.Signs (s.commitQuestion c
          (s.proposal c occasion function arguments).transactionId) := by
  rw [Run.mem_phases]
  constructor
  · rintro ⟨x, hx, hphase⟩
    cases mem_calls_submit.1 hx with
    | endorse _ => cases hphase
    | submit _ _ => cases hphase
    | commitStatus hhanded hsigned => exact ⟨_, _, hhanded, _, hsigned⟩
  · rintro ⟨envelope, v, hhanded, signature, hsigned⟩
    exact ⟨_, mem_calls_submit.2 (.commitStatus hhanded hsigned), rfl⟩

/-! ### Evaluations -/

/-- What an evaluation comes to: the payload of the response, which is empty if there is none. -/
inductive EvaluatesTo (s : Session) (peer : Peer) (p : UnsignedProposal) : Result Bytes → Prop
  | proposal : ¬ s.Signs p.bytes → EvaluatesTo s peer p (.error .signing)
  | failure {e : Error} : s.Signs p.bytes →
      peer.evaluate.Fails .evaluate s.options.evaluateLimit e → EvaluatesTo s peer p (.error e)
  | payload {response : Response} : s.Signs p.bytes →
      peer.evaluate.Yields s.options.evaluateLimit { result := some response } →
      EvaluatesTo s peer p (.ok response.payload)
  | nothing : s.Signs p.bytes →
      peer.evaluate.Yields s.options.evaluateLimit { result := none } →
      EvaluatesTo s peer p (.ok [])

theorem evaluate_outcome_eq_ok {v : Bytes} :
    (s.evaluate c peer occasion function arguments).outcome = .ok v ↔
      s.EvaluatesTo peer (s.proposal c occasion function arguments) (.ok v) := by
  simp only [evaluate, Run.outcome_bind_eq_ok, Run.outcome_liftM, Run.outcome_call,
    Run.outcome_pure, Run.await_eq_ok, signedProposal_eq_ok]
  constructor
  · rintro ⟨_, ⟨signature, hsigned, _⟩, ⟨response?⟩, hevaluate, hv⟩
    cases response? with
    | none => cases hv; exact .nothing ⟨signature, hsigned⟩ hevaluate
    | some response => cases hv; exact .payload ⟨signature, hsigned⟩ hevaluate
  · intro h
    cases h with
    | payload hsigns hevaluate =>
      obtain ⟨signature, hsigned⟩ := hsigns
      exact ⟨_, ⟨signature, hsigned, rfl⟩, _, hevaluate, rfl⟩
    | nothing hsigns hevaluate =>
      obtain ⟨signature, hsigned⟩ := hsigns
      exact ⟨_, ⟨signature, hsigned, rfl⟩, _, hevaluate, rfl⟩

theorem evaluate_outcome_eq_error {e : Error} :
    (s.evaluate c peer occasion function arguments).outcome = .error e ↔
      s.EvaluatesTo peer (s.proposal c occasion function arguments) (.error e) := by
  simp only [evaluate, Run.outcome_bind_eq_error, Run.outcome_liftM, Run.outcome_call,
    Run.outcome_pure, Run.await_eq_error, signedProposal_eq_ok, signedProposal_eq_error]
  constructor
  · rintro (⟨hunsigned, rfl⟩ | ⟨_, ⟨signature, hsigned, _⟩, hfails | ⟨_, _, hpure⟩⟩)
    · exact .proposal hunsigned
    · exact .failure ⟨signature, hsigned⟩ hfails
    · cases hpure
  · intro h
    cases h with
    | proposal hunsigned => exact .inl ⟨hunsigned, rfl⟩
    | failure hsigns hfails =>
      obtain ⟨signature, hsigned⟩ := hsigns
      exact .inr ⟨_, ⟨signature, hsigned, rfl⟩, .inl hfails⟩

theorem evaluate_outcome_eq {r : Result Bytes} :
    (s.evaluate c peer occasion function arguments).outcome = r ↔
      s.EvaluatesTo peer (s.proposal c occasion function arguments) r := by
  cases r with
  | ok v => exact evaluate_outcome_eq_ok
  | error e => exact evaluate_outcome_eq_error

theorem evaluate_follows :
    (s.evaluate c peer occasion function arguments).Follows [.evaluate] := by
  refine Run.follows_liftM_bind fun signed _ => ?_
  refine Run.follows_call_bind fun response => ?_
  exact Run.follows_of_calls_eq_nil rfl []

theorem mem_calls_evaluate {x : MadeCall} :
    x ∈ (s.evaluate c peer occasion function arguments).calls ↔
      ∃ signature, s.sign (s.proposal c occasion function arguments).bytes = .ok signature ∧
        x = s.evaluateCall c (s.proposal c occasion function arguments) signature := by
  simp only [evaluate, Run.mem_calls_bind, Run.calls_liftM, Run.calls_call, Run.calls_pure,
    Run.outcome_liftM, signedProposal_eq_ok, List.mem_singleton, List.not_mem_nil, false_or,
    and_false, exists_false, or_false]
  constructor
  · rintro ⟨_, ⟨signature, hsigned, rfl⟩, rfl⟩
    exact ⟨signature, hsigned, rfl⟩
  · rintro ⟨signature, hsigned, rfl⟩
    exact ⟨_, ⟨signature, hsigned, rfl⟩, rfl⟩

/-- An evaluation calls the peer once if it can be signed, and only then. -/
theorem evaluate_phases_eq :
    (s.evaluate c peer occasion function arguments).phases = [.evaluate] ↔
      s.Signs (s.proposal c occasion function arguments).bytes := by
  constructor
  · intro h
    have hmem : Phase.evaluate ∈ (s.evaluate c peer occasion function arguments).phases := by
      rw [h]
      exact List.mem_singleton_self _
    obtain ⟨x, hx, _⟩ := Run.mem_phases.1 hmem
    obtain ⟨signature, hsigned, _⟩ := mem_calls_evaluate.1 hx
    exact ⟨signature, hsigned⟩
  · rintro ⟨signature, hsigned⟩
    have hmem : Phase.evaluate ∈ (s.evaluate c peer occasion function arguments).phases :=
      Run.mem_phases.2 ⟨_, mem_calls_evaluate.2 ⟨signature, hsigned, rfl⟩, rfl⟩
    rcases List.prefix_cons_iff.1 evaluate_follows with hnil | ⟨behind, hone, hbehind⟩
    · rw [hnil] at hmem
      cases hmem
    · rw [hone, List.prefix_nil.1 hbehind]

/-! ### Both -/

/-- **The flow of a transaction.**  A submission calls the peer to endorse, to submit and for the
commit status, in this order, each at most once, and each exactly when everything before came out
well.  It succeeds exactly when the ledger gave the verdict zero, with the result that was endorsed,
and otherwise fails with what went wrong first.  An evaluation makes the one call to evaluate, if it
can be signed at all, and comes to what the peer answered. -/
theorem flow (s : Session) (c : Contract) (peer : Peer) (occasion : Occasion) (function : String)
    (arguments : List String) :
    let p := s.proposal c occasion function arguments
    let submission := s.submit c peer occasion function arguments
    let evaluation := s.evaluate c peer occasion function arguments
    (submission.phases <+: [.endorse, .submit, .commitStatus] ∧
      (.endorse ∈ submission.phases ↔ s.Signs p.bytes) ∧
      (.submit ∈ submission.phases ↔ ∃ envelope v, s.Endorsed peer p envelope v ∧
        s.Signs envelope.payload) ∧
      (.commitStatus ∈ submission.phases ↔ ∃ envelope v, s.HandedIn peer p envelope v ∧
        s.Signs (s.commitQuestion c p.transactionId)) ∧
      (∀ v, submission.outcome = .ok v ↔ ∃ envelope status,
        s.Judged c peer p envelope v status ∧ status.result = 0) ∧
      ∀ e, submission.outcome = .error e ↔ s.FailsFirst c peer p e) ∧
    (evaluation.phases <+: [.evaluate] ∧
      (evaluation.phases = [.evaluate] ↔ s.Signs p.bytes) ∧
      ∀ r, evaluation.outcome = r ↔ s.EvaluatesTo peer p r) := by
  refine ⟨⟨submit_follows, endorse_mem_phases, submit_mem_phases, commitStatus_mem_phases, ?_, ?_⟩,
    evaluate_follows, evaluate_phases_eq, ?_⟩
  · intro v
    exact submit_outcome_eq_ok
  · intro e
    exact submit_outcome_eq_error
  · intro r
    exact evaluate_outcome_eq

end Flow

end Session

end LedgerGateway
