import LedgerGateway.Proofs.Curve.Ecdsa
import LedgerGateway.Proofs.Proposal
import LedgerGateway.Proofs.Proposal.Result
import LedgerGateway.Proofs.Session.Flow

/-!
# The messages of a transaction agree

A submission sends up to three requests, and what they say about the transaction is put together in
three places.  They agree all the same (`Session.agreement`): whoever reads the proposal inside the
first request finds in its headers the id, the channel and the caller that all three carry
(`Session.Agrees`).  What is handed in is what the peer prepared, with another signature, and each
signature is one of the very bytes that stand beside it.  Nothing is asked of the peer.  Of the call
it is only asked that the proposal fits into memory (`Wire.sizeLimit`); the question that comes last
repeats parts of it and is no longer (`Session.length_commitQuestion_le`).
-/

namespace LedgerGateway

open Protocol Wire

/-! ### Headers -/

structure Headers where
  channel : ChannelHeader
  signature : SignatureHeader

/-- Reading the bytes of a proposal layer by layer leads to these headers. -/
def Headers.AreIn (h : Headers) (b : Bytes) : Prop :=
  ∃ (proposal : Proposal) (header : Header), decode b = .ok proposal ∧
    decode proposal.header = .ok header ∧ decode header.channelHeader = .ok h.channel ∧
    decode header.signatureHeader = .ok h.signature

def Call.headers (c : Call) (nonce : Bytes) (time : Timestamp) : Headers :=
  ⟨c.channelHeader nonce time, c.signatureHeader nonce⟩

theorem Call.headers_areIn {c : Call} {nonce : Bytes} {time : Timestamp}
    (hsize : (c.propose nonce time).bytes.length < sizeLimit) :
    (c.headers nonce time).AreIn (c.propose nonce time).bytes :=
  ⟨_, _, decode_propose hsize, decode_header hsize, decode_channelHeader hsize,
    decode_signatureHeader hsize⟩

namespace Session

/-! ### The question what became of a transaction -/

/-- The question repeats what is in the headers of the proposal, so it is no longer than the
proposal.  That the fields have other numbers makes no difference, all of them being small. -/
theorem length_commitQuestion_le (s : Session) (c : Contract) (occasion : Occasion)
    (function : String) (arguments : List String) :
    (s.commitQuestion c (s.proposal c occasion function arguments).transactionId).length ≤
      (s.proposal c occasion function arguments).bytes.length := by
  have hheaders := (s.call c function arguments).length_headers_le occasion.nonce occasion.time
  have hid := Fields.lengthUnlessZero_eq_of_lt (.plain 1 "transaction_id") (.plain 5 "tx_id")
    .string (transactionId occasion.nonce s.creator) (by decide) (by decide)
  have hchannel := Fields.lengthUnlessZero_eq_of_lt (.plain 2 "channel_id")
    (.plain 4 "channel_id") .string c.channel (by decide) (by decide)
  have hcreator := Fields.lengthUnlessZero_eq_of_lt (.plain 3 "identity") (.plain 1 "creator")
    .bytes s.creator (by decide) (by decide)
  refine le_trans ?_ hheaders
  rw [commitQuestion, length_encode, length_encode, length_encode]
  simp only [encodedLength, Message.fields, Message.toRecord, ChannelHeader.fields,
    SignatureHeader.fields, CommitStatusRequest.fields, Fields.encodedLength, proposal,
    Call.propose, Call.channelHeader, Call.signatureHeader, call, hid, hchannel, hcreator]
  omega

/-! ### Agreement -/

/-- The bytes are the session's signature of a message. -/
def IsSignature (s : Session) (message signature : Bytes) : Prop :=
  s.signer.sign? (s.options.hash.digest message) = some signature

theorem isSignature_of_sign {s : Session} {message signature : Bytes}
    (h : s.sign message = .ok signature) : s.IsSignature message signature := by
  rw [sign, Signer.sign] at h
  rw [IsSignature]
  cases hsign : s.signer.sign? (s.options.hash.digest message) with
  | none => rw [hsign] at h; cases h
  | some signature' => rw [hsign] at h; cases h; rfl

/-- A request says what the headers of the proposal say, and is signed. -/
inductive Agrees (s : Session) (peer : Peer) (h : Headers) : Request → Prop
  | endorse {signed : SignedProposal} : h.AreIn signed.proposalBytes →
      s.IsSignature signed.proposalBytes signed.signature →
      Agrees s peer h (.endorse {
        transactionId := h.channel.txId
        channelId := h.channel.channelId
        proposedTransaction := some signed })
  | submit {envelope : Envelope} {signature : Bytes} :
      peer.endorse.outcome = .ok { preparedTransaction := some envelope } →
      s.IsSignature envelope.payload signature →
      Agrees s peer h (.submit {
        transactionId := h.channel.txId
        channelId := h.channel.channelId
        preparedTransaction := some { envelope with signature := signature } })
  | commitStatus {question signature : Bytes} :
      decode question = .ok ({
        transactionId := h.channel.txId
        channelId := h.channel.channelId
        identity := h.signature.creator } : CommitStatusRequest) →
      s.IsSignature question signature →
      Agrees s peer h (.commitStatus { request := question, signature := signature })

/-- What the messages of a submission have in common, given the headers of its proposal. -/
structure Coherent (s : Session) (c : Contract) (peer : Peer) (occasion : Occasion)
    (function : String) (arguments : List String) (h : Headers) : Prop where
  areIn : h.AreIn (s.proposal c occasion function arguments).bytes
  txId : h.channel.txId = Bytes.hex (Hash.sha256.digest (occasion.nonce ++ s.creator))
  channelId : h.channel.channelId = c.channel
  signature : h.signature = { creator := s.creator, nonce := occasion.nonce }
  /-- All requests say what the headers say. -/
  requests : ∀ x ∈ (s.submit c peer occasion function arguments).calls, s.Agrees peer h x.request
  /-- The result is the one in the envelope that was prepared, and so handed in. -/
  result : ∀ v, (s.submit c peer occasion function arguments).outcome = .ok v →
    ∃ envelope, peer.endorse.outcome = .ok { preparedTransaction := some envelope } ∧
      transactionResult envelope = .ok v
  /-- The error about a verdict names the transaction. -/
  verdict : ∀ id code name,
    (s.submit c peer occasion function arguments).outcome = .error (.commit id code name) →
      id = h.channel.txId

/-- **All messages of one transaction agree**, whatever the peer answers. -/
theorem agreement {s : Session} {c : Contract} {occasion : Occasion} {function : String}
    {arguments : List String}
    (hsize : (s.proposal c occasion function arguments).bytes.length < sizeLimit) (peer : Peer) :
    ∃ h, s.Coherent c peer occasion function arguments h := by
  refine ⟨(s.call c function arguments).headers occasion.nonce occasion.time,
    Call.headers_areIn hsize, rfl, rfl, rfl, ?_, ?_, ?_⟩
  · intro x hx
    cases mem_calls_submit.1 hx with
    | endorse hsigned => exact .endorse (Call.headers_areIn hsize) (isSignature_of_sign hsigned)
    | submit hendorsed hsigned => exact .submit hendorsed.2.1.2 (isSignature_of_sign hsigned)
    | commitStatus _ hsigned =>
      refine .commitStatus (decode_encode ?_) (isSignature_of_sign hsigned)
      exact lt_of_le_of_lt (s.length_commitQuestion_le c occasion function arguments) hsize
  · intro v hv
    obtain ⟨envelope, status, ⟨⟨⟨_, hendorse, hresult⟩, _⟩, _⟩, _⟩ := submit_outcome_eq_ok.1 hv
    exact ⟨envelope, hendorse.2, hresult⟩
  · intro id code name herror
    -- No step before the verdict gives an error of this kind.
    cases submit_outcome_eq_error.1 herror with
    | endorse _ hfails => cases hfails
    | unusable _ _ _ hunusable => cases hunusable
    | submit _ _ hfails => cases hfails
    | commitStatus _ _ hfails => cases hfails
    | verdict _ _ _ => rfl

/-! ### A transaction that the ledger refuses -/

section Sample

open Curve.Ecdsa

/-- A message can be signed if the first number that is drawn for it makes a signature. -/
theorem signs_of_draw? {s : Session} {message : Bytes} (field : Bytes) (k : Nat)
    (hfield : field? (s.options.hash.digest message) = some field)
    (hdraw : (Drawing.start s.signer.secret field).draw? attempts = some k)
    (hmade : (signWithPowers? s.signer.secret field k).isSome) : s.Signs message := by
  rw [← signWith?_eq_signWithPowers? _ _ (Drawing.draw?_inRange hdraw).2] at hmade
  obtain ⟨made, hmade⟩ := Option.isSome_iff_exists.1 hmade
  have hsign := sign?_eq_some_iff.2 ⟨field, k, made, hfield, hdraw, hmade, rfl⟩
  refine ⟨made.lower.toBytes, ?_⟩
  rw [sign, Signer.sign, Signer.sign?, hsign]
  rfl

/-- A session of someone with the smallest secret. -/
def sample : Session where
  identity := { mspId := "Org1MSP", certificate := [45] }
  signer := ⟨⟨1, by decide, by decide⟩⟩
  options := {}

def sampleContract : Contract := ⟨"mychannel", "basic"⟩

def sampleProposal : UnsignedProposal :=
  sample.proposal sampleContract ⟨[7], {}⟩ "Read" ["a", ""]

/-- A peer that prepares a transaction and takes it, but finds that it came too late. -/
def samplePeer : Peer where
  evaluate := ⟨none, .ok {}⟩
  endorse := ⟨some ⟨0⟩, .ok { preparedTransaction := some Prepared.sample.envelope }⟩
  submit := ⟨some ⟨0⟩, .ok {}⟩
  commitStatus := ⟨some ⟨0⟩, .ok { result := ValidationCode.mvccReadConflict.code }⟩

theorem signs_sampleProposal : sample.Signs sampleProposal.bytes := by
  exact signs_of_draw?
    (Bytes.bigEndian 32 0xA3E973EC5313D468A6878D399DD8F11A24570809DBA59F29DD7A0884A62DF585)
    0xB291257B0E3235FE405F3362E2126959D40CBE4BBCE8D87398F4A943DCAE6184
    (by decide +kernel) (by decide +kernel) (by decide +kernel)

theorem signs_sampleEnvelope : sample.Signs Prepared.sample.envelope.payload := by
  exact signs_of_draw?
    (Bytes.bigEndian 32 0x5EF4973D96A992FB99C03D7B9C8A1B6EADF9DD151E019741F72A4734329215A9)
    0x1A182735ABA1461559D2D62124F085B79BC34E06D43C48A25B3718E844F02CA3
    (by decide +kernel) (by decide +kernel) (by decide +kernel)

theorem signs_sampleQuestion :
    sample.Signs (sample.commitQuestion sampleContract sampleProposal.transactionId) := by
  exact signs_of_draw?
    (Bytes.bigEndian 32 0x3B357927C7C24FDD4E8E46D3FDD09CF355C2E56E3E51CB439010782494D92278)
    0x1C8F9D9C9654CFEF7BCD5FD2F6B75B2B214941711AD9919F206C43F28C7D89D5
    (by decide +kernel) (by decide +kernel) (by decide +kernel)

theorem judged_sample : sample.Judged sampleContract samplePeer sampleProposal
    Prepared.sample.envelope [4, 5] { result := ValidationCode.mvccReadConflict.code } := by
  have hsize : Prepared.sample.envelope.payload.length < sizeLimit := by decide +kernel
  have hresult : transactionResult Prepared.sample.envelope = .ok [4, 5] :=
    (transactionResult_envelopeOf hsize).trans (Prepared.actionsResult_messages hsize)
  have hendorse : samplePeer.endorse.Yields sample.options.endorseLimit
      { preparedTransaction := some Prepared.sample.envelope } := ⟨⟨⟨0⟩, rfl, Nat.zero_le _⟩, rfl⟩
  have hsubmit : samplePeer.submit.Yields sample.options.submitLimit {} :=
    ⟨⟨⟨0⟩, rfl, Nat.zero_le _⟩, rfl⟩
  have hstatus : samplePeer.commitStatus.Yields sample.options.commitStatusLimit
      { result := ValidationCode.mvccReadConflict.code } := ⟨⟨⟨0⟩, rfl, Nat.zero_le _⟩, rfl⟩
  exact ⟨⟨⟨signs_sampleProposal, hendorse, hresult⟩, signs_sampleEnvelope, hsubmit⟩,
    signs_sampleQuestion, hstatus⟩

theorem agreement_sample :
    sampleProposal.bytes.length < sizeLimit ∧
    ∃ h, sample.Coherent sampleContract samplePeer ⟨[7], {}⟩ "Read" ["a", ""] h ∧
      (∃ x ∈ (sample.submit sampleContract samplePeer ⟨[7], {}⟩ "Read" ["a", ""]).calls,
        x.request.phase = .submit ∧ sample.Agrees samplePeer h x.request) ∧
      (∃ x ∈ (sample.submit sampleContract samplePeer ⟨[7], {}⟩ "Read" ["a", ""]).calls,
        x.request.phase = .commitStatus ∧ sample.Agrees samplePeer h x.request) ∧
      (sample.submit sampleContract samplePeer ⟨[7], {}⟩ "Read" ["a", ""]).outcome =
        .error (.commit h.channel.txId 11 "MVCC_READ_CONFLICT") := by
  have hsize : sampleProposal.bytes.length < sizeLimit := by decide +kernel
  obtain ⟨h, hcoherent⟩ := agreement hsize samplePeer
  have hhanded := judged_sample.1
  have hcall : ∀ {phase},
      phase ∈ (sample.submit sampleContract samplePeer ⟨[7], {}⟩ "Read" ["a", ""]).phases →
      ∃ x ∈ (sample.submit sampleContract samplePeer ⟨[7], {}⟩ "Read" ["a", ""]).calls,
        x.request.phase = phase ∧ sample.Agrees samplePeer h x.request := by
    intro phase hphase
    obtain ⟨x, hx, hphase⟩ := Run.mem_phases.1 hphase
    exact ⟨x, hx, hphase, hcoherent.requests x hx⟩
  have houtcome : (sample.submit sampleContract samplePeer ⟨[7], {}⟩ "Read" ["a", ""]).outcome =
      .error (.commit sampleProposal.transactionId 11 "MVCC_READ_CONFLICT") :=
    submit_outcome_eq_error.2 (.verdict judged_sample (by decide)
      (.known (v := .mvccReadConflict) rfl))
  refine ⟨hsize, h, hcoherent, hcall ?_, hcall ?_, ?_⟩
  · exact submit_mem_phases.2 ⟨_, _, hhanded.1, hhanded.2.1⟩
  · exact commitStatus_mem_phases.2 ⟨_, _, hhanded, judged_sample.2.1⟩
  · rw [houtcome, hcoherent.verdict _ _ _ houtcome]

end Sample

end Session

end LedgerGateway
