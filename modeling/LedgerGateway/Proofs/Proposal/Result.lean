import LedgerGateway.Proofs.Wire.Holding
import LedgerGateway.Proposal

/-!
# The result inside an envelope

What a chaincode returned lies five messages deep in the envelope that peers prepare (`Prepared`).
Digging it out finds exactly what was put in, and finds what is missing when there is no action or
when the first one is not endorsed (`Prepared.result`).

Most of what is around it does not count.  The reader goes from the actions of a transaction
(`actionsResult`) to the first of them (`actionResult`) and from there to the bytes that peers
signed (`signedResult`), and the lemmas follow it.  Whatever these bytes are, nothing beside them
has a part in the outcome (`SameCore`): neither the headers, the signature and the later actions,
nor the endorsements.  Both together are `Prepared.transactionResult_envelope`.
-/

namespace LedgerGateway

open Protocol Wire

/-! ### The layers below the payload -/

/-- What the chaincode returned, from the bytes that peers signed. -/
def signedResult (signed : Bytes) : Result Bytes := do
  let response ← readLayer ProposalResponsePayload signed
  let action ← readLayer ChaincodeAction response.extension
  return (action.response.map (·.payload)).getD []

/-- What the chaincode returned, from an action that may be endorsed. -/
def endorsedResult : Option ChaincodeEndorsedAction → Result Bytes
  | none => .error (.invalidResponse .noEndorsedAction)
  | some endorsed => signedResult endorsed.proposalResponsePayload

/-- What the chaincode returned, from the bytes of an action. -/
def actionResult (content : Bytes) : Result Bytes := do
  let payload ← readLayer ChaincodeActionPayload content
  endorsedResult payload.action

/-- What the chaincode returned, from the actions of a transaction. -/
def actionsResult : List TransactionAction → Result Bytes
  | [] => .error (.invalidResponse .noActions)
  | action :: _ => actionResult action.payload

theorem transactionResult_eq (e : Envelope) : transactionResult e = (do
    let payload ← readLayer Payload e.payload
    let transaction ← readLayer Transaction payload.data
    actionsResult transaction.actions) := by
  rw [transactionResult]
  refine bind_congr fun payload => bind_congr fun transaction => ?_
  cases transaction.actions with
  | nil => rfl
  | cons action later =>
    refine bind_congr fun actionPayload => ?_
    cases actionPayload.action <;> rfl

/-! ### Layers that were written -/

theorem readLayer_encode {α : Type} [Message α] {m : α} (hsize : (encode m).length < sizeLimit) :
    readLayer α (encode m) = .ok m := by
  rw [readLayer, decode_encode hsize]
  rfl

/-- What peers sign about a call: the proposal by its hash, and what the call did. -/
def signedBytes (proposalHash : Bytes) (action : ChaincodeAction) : Bytes :=
  encode ({ proposalHash, extension := encode action } : ProposalResponsePayload)

theorem signedResult_signedBytes {proposalHash : Bytes} {action : ChaincodeAction}
    (hsize : (signedBytes proposalHash action).length < sizeLimit) :
    signedResult (signedBytes proposalHash action) =
      .ok ((action.response.map (·.payload)).getD []) := by
  have haction : (encode action).length < sizeLimit :=
    length_lt_of_holds (.behindScalar .scalar) hsize
  rw [signedResult, signedBytes, readLayer_encode hsize]
  simp only [bind, Except.bind, readLayer_encode haction, pure, Except.pure]

theorem actionResult_encode {m : ChaincodeActionPayload} (hsize : (encode m).length < sizeLimit) :
    actionResult (encode m) = endorsedResult m.action := by
  rw [actionResult, readLayer_encode hsize]
  rfl

/-- The envelope around the actions of a transaction. -/
def envelopeOf (header : Option Header) (actions : List TransactionAction) (signature : Bytes) :
    Envelope where
  payload := encode ({ header, data := encode ({ actions } : Transaction) } : Payload)
  signature := signature

section Envelope

variable {header : Option Header} {actions : List TransactionAction} {signature : Bytes}
  (hsize : (envelopeOf header actions signature).payload.length < sizeLimit)

include hsize

theorem length_transaction_lt : (encode ({ actions } : Transaction)).length < sizeLimit :=
  length_lt_of_holds (.behindMessage .scalar) hsize

theorem length_action_lt {action : TransactionAction} (h : action ∈ actions) :
    action.payload.length < sizeLimit :=
  length_lt_of_holds (.messages (List.mem_map_of_mem h) (.behindScalar .scalar))
    (length_transaction_lt hsize)

/-- Of an envelope only the actions count. -/
theorem transactionResult_envelopeOf :
    transactionResult (envelopeOf header actions signature) = actionsResult actions := by
  rw [transactionResult_eq, envelopeOf, readLayer_encode hsize]
  simp only [bind, Except.bind, readLayer_encode (length_transaction_lt hsize)]

end Envelope

/-! ### What does not count -/

/-- The envelopes differ only in what does not count.  They have the same payload, or their first
actions have, whatever it is, or peers signed the same bytes about the first actions of both. -/
inductive SameCore : Envelope → Envelope → Prop
  | signature {payload signature signature' : Bytes} :
      SameCore { payload, signature } { payload, signature := signature' }
  | payload {header header' : Option Header} {first first' : TransactionAction}
      {later later' : List TransactionAction} {signature signature' : Bytes} :
      first.payload = first'.payload →
      SameCore (envelopeOf header (first :: later) signature)
        (envelopeOf header' (first' :: later') signature')
  | signed {header header' : Option Header} {m m' : ChaincodeActionPayload}
      {endorsed endorsed' : ChaincodeEndorsedAction} {actionHeader actionHeader' : Bytes}
      {later later' : List TransactionAction} {signature signature' : Bytes} :
      m.action = some endorsed → m'.action = some endorsed' →
      endorsed.proposalResponsePayload = endorsed'.proposalResponsePayload →
      SameCore (envelopeOf header (⟨actionHeader, encode m⟩ :: later) signature)
        (envelopeOf header' (⟨actionHeader', encode m'⟩ :: later') signature')

theorem SameCore.transactionResult_eq {e e' : Envelope} (h : SameCore e e')
    (hsize : e.payload.length < sizeLimit) (hsize' : e'.payload.length < sizeLimit) :
    transactionResult e = transactionResult e' := by
  cases h with
  | signature => rfl
  | payload hpayload =>
    rw [transactionResult_envelopeOf hsize, transactionResult_envelopeOf hsize']
    exact congrArg actionResult hpayload
  | signed hm hm' hsigned =>
    have hcontent := length_action_lt hsize List.mem_cons_self
    have hcontent' := length_action_lt hsize' List.mem_cons_self
    rw [transactionResult_envelopeOf hsize, transactionResult_envelopeOf hsize', actionsResult,
      actionsResult, actionResult_encode hcontent, actionResult_encode hcontent', hm, hm']
    exact congrArg signedResult hsigned

/-! ### Envelopes before they are written -/

/-- What peers say about a call: what it did, and that they vouch for it. -/
structure Endorsed where
  proposalHash : Bytes
  action : ChaincodeAction
  endorsements : List Endorsement

/-- The first action of a transaction, endorsed or not. -/
structure FirstAction where
  header : Bytes
  proposalPayload : Bytes
  endorsed : Option Endorsed

/-- An envelope before its layers are written as bytes.  Other actions may stand behind the first,
and their payloads may be any bytes. -/
structure Prepared where
  header : Option Header
  actions : Option (FirstAction × List TransactionAction)
  signature : Bytes

def Endorsed.message (e : Endorsed) : ChaincodeEndorsedAction where
  proposalResponsePayload := signedBytes e.proposalHash e.action
  endorsements := e.endorsements

/-- What the first action says, before it is written as bytes. -/
def FirstAction.content (a : FirstAction) : ChaincodeActionPayload where
  chaincodeProposalPayload := a.proposalPayload
  action := a.endorsed.map Endorsed.message

def FirstAction.message (a : FirstAction) : TransactionAction where
  header := a.header
  payload := encode a.content

namespace Prepared

def messages (p : Prepared) : List TransactionAction :=
  match p.actions with
  | none => []
  | some (first, later) => first.message :: later

/-- The envelope, with all layers written as bytes. -/
def envelope (p : Prepared) : Envelope :=
  envelopeOf p.header p.messages p.signature

/-- What the chaincode returned, or what is missing.  No response is an empty one. -/
def result (p : Prepared) : Result Bytes :=
  match p.actions with
  | none => .error (.invalidResponse .noActions)
  | some (first, _) =>
    match first.endorsed with
    | none => .error (.invalidResponse .noEndorsedAction)
    | some endorsed =>
      match endorsed.action.response with
      | none => .ok []
      | some response => .ok response.payload

theorem actionsResult_messages : ∀ {p : Prepared}, p.envelope.payload.length < sizeLimit →
    actionsResult p.messages = p.result := by
  rintro ⟨header, actions, signature⟩ hsize
  cases actions with
  | none => rfl
  | some actions =>
    obtain ⟨⟨actionHeader, proposalPayload, endorsed⟩, later⟩ := actions
    have hcontent := length_action_lt hsize List.mem_cons_self
    have haction := actionResult_encode hcontent
    cases endorsed with
    | none => exact haction
    | some endorsed =>
      obtain ⟨proposalHash, action, endorsements⟩ := endorsed
      have hsigned : (signedBytes proposalHash action).length < sizeLimit :=
        length_lt_of_holds (.behindScalar (.message .scalar)) hcontent
      refine (haction.trans (signedResult_signedBytes hsigned)).trans ?_
      cases hresponse : action.response <;> simp [result, hresponse]

/-- **Digging out the result of an envelope undoes the wrapping**, and depends on nothing but the
bytes on the way to the result. -/
theorem transactionResult_envelope :
    (∀ {p : Prepared}, p.envelope.payload.length < sizeLimit →
      transactionResult p.envelope = p.result) ∧
    ∀ {e e' : Envelope}, SameCore e e' → e.payload.length < sizeLimit →
      e'.payload.length < sizeLimit → transactionResult e = transactionResult e' := by
  constructor
  · intro p hsize
    exact (transactionResult_envelopeOf hsize).trans (actionsResult_messages hsize)
  · intro e e' hcore hsize hsize'
    exact hcore.transactionResult_eq hsize hsize'

/-- An answer in the first action, and bytes that are no message in the second. -/
def sample : Prepared where
  header := none
  actions := some
    ({ header := []
       proposalPayload := [9]
       endorsed := some
        { proposalHash := [1, 2, 3]
          action := { response := some { status := 200, payload := [4, 5] } }
          endorsements := [⟨[6], [7]⟩] } },
      [⟨[], [255]⟩])
  signature := []

/-- `sample` with other headers, without endorsements and without the second action. -/
def bareSample : Prepared where
  header := some { channelHeader := [8] }
  actions := some
    ({ header := [1]
       proposalPayload := []
       endorsed := some
        { proposalHash := [1, 2, 3]
          action := { response := some { status := 200, payload := [4, 5] } }
          endorsements := [] } },
      [])
  signature := [2]

theorem transactionResult_sample :
    sample.envelope.payload.length < sizeLimit ∧ transactionResult sample.envelope = .ok [4, 5] ∧
    SameCore sample.envelope bareSample.envelope ∧
    bareSample.envelope.payload.length < sizeLimit ∧
    transactionResult sample.envelope = transactionResult bareSample.envelope := by
  have hsize : sample.envelope.payload.length < sizeLimit := by decide +kernel
  have hsize' : bareSample.envelope.payload.length < sizeLimit := by decide +kernel
  have hcore : SameCore sample.envelope bareSample.envelope := .signed rfl rfl rfl
  exact ⟨hsize, transactionResult_envelope.1 hsize, hcore, hsize',
    transactionResult_envelope.2 hcore hsize hsize'⟩

end Prepared

end LedgerGateway
