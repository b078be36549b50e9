import LedgerGateway.Proofs.Key.Signing
import LedgerGateway.Proofs.Session.Agreement

/-!
# The key is used for signatures only

Two sessions that differ in the key and in the choice of a hash make the same calls, up to the
signatures, and end alike (`Session.secrecy`).  The requests are compared without their signatures
(`Request.unsigned`), so nothing else in them can depend on the key, not even where it is hidden in
the bytes of a message.

A signature that cannot be made ends the run, and whether it can be made depends on the key.  So
this is asked of both runs (`Run.Signed`).
-/

namespace LedgerGateway

open Protocol

variable {α α' β : Type}

/-! ### Requests without their signatures -/

/-- The request, with nothing in the place of its signature. -/
def Request.unsigned : Request → Request
  | evaluate m => .evaluate { m with
      proposedTransaction := m.proposedTransaction.map fun p => { p with signature := [] } }
  | endorse m => .endorse { m with
      proposedTransaction := m.proposedTransaction.map fun p => { p with signature := [] } }
  | submit m => .submit { m with
      preparedTransaction := m.preparedTransaction.map fun e => { e with signature := [] } }
  | commitStatus m => .commitStatus { m with signature := [] }

@[simp]
theorem Request.phase_unsigned (request : Request) : request.unsigned.phase = request.phase := by
  cases request <;> rfl

def MadeCall.unsigned (x : MadeCall) : MadeCall :=
  { x with request := x.request.unsigned }

/-- The transaction that a request is about.  In the last one its id stands inside the question. -/
inductive Request.Names (id : String) : Request → Prop
  | evaluate {m : EvaluateRequest} : m.transactionId = id → Names id (.evaluate m)
  | endorse {m : EndorseRequest} : m.transactionId = id → Names id (.endorse m)
  | submit {m : SubmitRequest} : m.transactionId = id → Names id (.submit m)
  | commitStatus {m : SignedCommitStatusRequest} {question : CommitStatusRequest} :
      m.request = Wire.encode question → question.transactionId = id → Names id (.commitStatus m)

/-! ### Runs that are alike -/

namespace Run

variable {next : α → Run β} {next' : α' → Run β} {r r' : Run β}

/-- No signature failed to be made. -/
def Signed (r : Run α) : Prop :=
  r.outcome ≠ .error .signing

/-- The calls are the same up to signatures, and what comes of them is the same. -/
structure SameUpToSignatures (r r' : Run α) : Prop where
  calls : r.calls.map MadeCall.unsigned = r'.calls.map MadeCall.unsigned
  outcome : r.outcome = r'.outcome

/-- In particular the same calls are made, in the same order. -/
theorem SameUpToSignatures.phases_eq (h : r.SameUpToSignatures r') : r.phases = r'.phases := by
  have hphases : ∀ l : List MadeCall,
      (l.map MadeCall.unsigned).map (·.request.phase) = l.map (·.request.phase) := by
    intro l
    simp [MadeCall.unsigned]
  rw [Run.phases, Run.phases, ← hphases, h.calls, hphases]

/-- The runs are the same up to signatures, if all of these can be made. -/
def Alike (r r' : Run α) : Prop :=
  r.Signed → r'.Signed → r.SameUpToSignatures r'

theorem Alike.refl (r : Run α) : r.Alike r :=
  fun _ _ => ⟨rfl, rfl⟩

/-- A step without a call and without a signature is the same in both runs. -/
theorem alike_liftM_bind {next' : α → Run β} (r : Result α)
    (hnext : ∀ a, (next a).Alike (next' a)) :
    ((liftM r : Run α) >>= next).Alike ((liftM r : Run α) >>= next') := by
  cases r with
  | error e => exact .refl _
  | ok a => exact hnext a

/-- A step that only fails for want of a signature. -/
def OnlySigns (r : Result α) : Prop :=
  ∀ e, r = .error e → e = .signing

/-- Behind a signature the runs have to be alike whatever the two signatures are. -/
theorem alike_signing_bind {r : Result α} {r' : Result α'} (h : OnlySigns r) (h' : OnlySigns r')
    (hnext : ∀ a a', r = .ok a → r' = .ok a' → (next a).Alike (next' a')) :
    ((liftM r : Run α) >>= next).Alike ((liftM r' : Run α') >>= next') := by
  intro hsigned hsigned'
  cases hr : r with
  | error e =>
    subst hr
    exact absurd (congrArg Except.error (h e rfl)) hsigned
  | ok a =>
    cases hr' : r' with
    | error e =>
      subst hr'
      exact absurd (congrArg Except.error (h' e rfl)) hsigned'
    | ok a' =>
      subst hr hr'
      exact hnext a a' rfl rfl hsigned hsigned'

/-- Requests that are the same up to signatures get the same answer in the same phase. -/
theorem alike_call_bind {request request' : Request} {limit : Duration} {answer : Answer α}
    {next' : α → Run β} (hrequest : request.unsigned = request'.unsigned)
    (hnext : ∀ a, (next a).Alike (next' a)) :
    (call request limit answer >>= next).Alike (call request' limit answer >>= next') := by
  have hphase : request'.phase = request.phase := by
    rw [← request'.phase_unsigned, ← hrequest, request.phase_unsigned]
  have hcall : MadeCall.unsigned ⟨request, limit⟩ = MadeCall.unsigned ⟨request', limit⟩ := by
    rw [MadeCall.unsigned, MadeCall.unsigned, hrequest]
  show ((call request limit answer).andThen next).Alike ((call request' limit answer).andThen next')
  rw [andThen, andThen, outcome_call, outcome_call, hphase]
  cases await request.phase limit answer with
  | error e =>
    intro _ _
    exact ⟨congrArg (fun x => [x]) hcall, rfl⟩
  | ok a =>
    intro hsigned hsigned'
    obtain ⟨hcalls, houtcome⟩ := hnext a hsigned hsigned'
    exact ⟨congrArg₂ List.cons hcall hcalls, houtcome⟩

end Run

namespace Session

/-- The session, with the key and the hash of another one. -/
def withKey (s : Session) (signer : Signer) (hash : HashAlgorithm) : Session where
  identity := s.identity
  signer := signer
  options := { s.options with hash := hash }

/-- An evaluation signs nothing but the proposal. -/
theorem evaluate_signed_iff {s : Session} {c : Contract} {peer : Peer} {occasion : Occasion}
    {function : String} {arguments : List String} :
    (s.evaluate c peer occasion function arguments).Signed ↔
      s.Signs (s.proposal c occasion function arguments).bytes := by
  rw [Run.Signed, Ne, evaluate_outcome_eq_error]
  constructor
  · intro h
    exact not_not.1 fun hunsigned => h (.proposal hunsigned)
  · intro hsigns h
    cases h with
    | proposal hunsigned => exact hunsigned hsigns
    | failure _ hfails => cases hfails

/-! ### Both actions -/

theorem onlySigns_sign (s : Session) (message : Bytes) : Run.OnlySigns (s.sign message) :=
  fun _ h => (sign_eq_error.1 h).2

theorem onlySigns_signedProposal (s : Session) (p : UnsignedProposal) :
    Run.OnlySigns (s.signedProposal p) :=
  fun _ h => (signedProposal_eq_error.1 h).2

section Secrecy

variable (s : Session) (signer signer' : Signer) (hash hash' : HashAlgorithm) (c : Contract)
  (peer : Peer) (occasion : Occasion) (function : String) (arguments : List String)

theorem submit_alike :
    ((s.withKey signer hash).submit c peer occasion function arguments).Alike
      ((s.withKey signer' hash').submit c peer occasion function arguments) := by
  refine Run.alike_signing_bind (onlySigns_signedProposal _ _) (onlySigns_signedProposal _ _)
    fun signed signed' hsigned hsigned' => ?_
  obtain ⟨signature, _, rfl⟩ := signedProposal_eq_ok.1 hsigned
  obtain ⟨signature', _, rfl⟩ := signedProposal_eq_ok.1 hsigned'
  refine Run.alike_call_bind rfl fun endorsed => ?_
  refine Run.alike_liftM_bind _ fun envelope => ?_
  refine Run.alike_liftM_bind _ fun result => ?_
  refine Run.alike_signing_bind (onlySigns_sign _ _) (onlySigns_sign _ _) fun _ _ _ _ => ?_
  refine Run.alike_call_bind rfl fun _ => ?_
  refine Run.alike_signing_bind (onlySigns_sign _ _) (onlySigns_sign _ _) fun _ _ _ _ => ?_
  exact Run.alike_call_bind rfl fun status => .refl _

theorem evaluate_alike :
    ((s.withKey signer hash).evaluate c peer occasion function arguments).Alike
      ((s.withKey signer' hash').evaluate c peer occasion function arguments) := by
  refine Run.alike_signing_bind (onlySigns_signedProposal _ _) (onlySigns_signedProposal _ _)
    fun signed signed' hsigned hsigned' => ?_
  obtain ⟨signature, _, rfl⟩ := signedProposal_eq_ok.1 hsigned
  obtain ⟨signature', _, rfl⟩ := signedProposal_eq_ok.1 hsigned'
  exact Run.alike_call_bind rfl fun response => .refl _

theorem names_of_mem_calls (action : Action) {x : MadeCall}
    (hx : x ∈ (s.perform action c peer occasion function arguments).calls) :
    x.request.Names (transactionId occasion.nonce s.creator) := by
  cases action with
  | submit =>
    cases mem_calls_submit.1 hx with
    | endorse _ => exact .endorse rfl
    | submit _ _ => exact .submit rfl
    | commitStatus _ _ => exact .commitStatus rfl rfl
  | evaluate =>
    obtain ⟨signature, _, rfl⟩ := mem_calls_evaluate.1 hx
    exact .evaluate rfl

end Secrecy

/-- **The key and the hash reach the peer in signatures only.**  Whatever the peer answers, two
sessions of one identity make the same calls up to signatures and end alike, if all the signatures
can be made.  The id of the transaction comes from SHA-256, whichever hash is signed. -/
theorem secrecy (s : Session) (action : Action) (c : Contract) (peer : Peer) (occasion : Occasion)
    (function : String) (arguments : List String) :
    let run := fun (signer : Signer) (hash : HashAlgorithm) =>
      (s.withKey signer hash).perform action c peer occasion function arguments
    (∀ signer signer' hash hash', (run signer hash).Signed → (run signer' hash').Signed →
      (run signer hash).SameUpToSignatures (run signer' hash')) ∧
    ∀ signer hash, ∀ x ∈ (run signer hash).calls,
      x.request.Names (Bytes.hex (Hash.sha256.digest (occasion.nonce ++ s.creator))) := by
  constructor
  · intro signer signer' hash hash'
    cases action with
    | submit => exact s.submit_alike signer signer' hash hash' c peer occasion function arguments
    | evaluate =>
      exact s.evaluate_alike signer signer' hash hash' c peer occasion function arguments
  · intro signer hash x hx
    exact (s.withKey signer hash).names_of_mem_calls c peer occasion function arguments action hx

/-! ### Two keys -/

section Sample

open Curve.Ecdsa

/-- A peer that evaluates to a single byte. -/
def evaluatingPeer : Peer :=
  { samplePeer with evaluate := ⟨some ⟨0⟩, .ok { result := some { payload := [1] } }⟩ }

theorem signs_sampleProposal_sha384 :
    (sample.withKey Signer.sampleSigner .sha384).Signs sampleProposal.bytes := by
  exact signs_of_draw?
    (Bytes.bigEndian 32 0x52D28A407DCD1C740C1D5FFB54FC4D27641C6C9A82EAC78F873A664DBD6EC45A)
    0xDAEE596EC296235C4529C41D5066AE55B5956AF8F2EE0278AF5F7D387EC320D8
    (by decide +kernel) (by decide +kernel) (by decide +kernel)

theorem secrecy_sampleKeys :
    let run := fun (signer : Signer) (hash : HashAlgorithm) =>
      (sample.withKey signer hash).perform .evaluate sampleContract evaluatingPeer ⟨[7], {}⟩ "Read"
        ["a", ""]
    (run sample.signer .sha256).Signed ∧ (run Signer.sampleSigner .sha384).Signed ∧
      (run sample.signer .sha256).SameUpToSignatures (run Signer.sampleSigner .sha384) ∧
      (run Signer.sampleSigner .sha384).phases = [.evaluate] ∧
      (run Signer.sampleSigner .sha384).outcome = .ok [1] := by
  intro run
  have hsigned : (run sample.signer .sha256).Signed := evaluate_signed_iff.2 signs_sampleProposal
  have hsigned' : (run Signer.sampleSigner .sha384).Signed :=
    evaluate_signed_iff.2 signs_sampleProposal_sha384
  have hsame : (run sample.signer .sha256).SameUpToSignatures (run Signer.sampleSigner .sha384) :=
    (secrecy sample .evaluate sampleContract evaluatingPeer ⟨[7], {}⟩ "Read" ["a", ""]).1
      _ _ _ _ hsigned hsigned'
  have hphases : (run sample.signer .sha256).phases = [.evaluate] :=
    evaluate_phases_eq.2 signs_sampleProposal
  have hyields : evaluatingPeer.evaluate.Yields sample.options.evaluateLimit
      { result := some { payload := [1] } } := ⟨⟨⟨0⟩, rfl, Nat.zero_le _⟩, rfl⟩
  have houtcome : (run sample.signer .sha256).outcome = .ok [1] :=
    evaluate_outcome_eq_ok.2 (.payload signs_sampleProposal hyields)
  exact ⟨hsigned, hsigned', hsame, hsame.phases_eq ▸ hphases, hsame.outcome ▸ houtcome⟩

end Sample

end Session

end LedgerGateway
