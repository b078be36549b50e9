import LedgerGateway.Proofs.Wire.RoundTrip
import LedgerGateway.RpcStatus

/-!
# What the error of a failed call reports

The details of a failed call are a row of entries of any type.  An entry may be about a peer, or
about something else, or it may claim to be about a peer and be garbage; a relation says which lines
a row of entries stands for, an entry at a time (`RpcStatus.Reports`).  Each row stands for one text
(`Reports.eq_peerText`), and rows that are put together stand for the texts put together
(`Reports.append`).

The error has the text of the entries behind the code and the message of the status, and nothing
else (`RpcStatus.toError_reports`).
-/

namespace LedgerGateway

open Protocol (Any ErrorDetail Status)

namespace RpcStatus

/-- The lines that a row of entries stands for. -/
inductive Reports : List Any → String → Prop
  | nil : Reports [] ""
  /-- An entry about a peer has a line. -/
  | peer {entry : Any} {entries : List Any} {address mspId message text : String} :
      entry.typeUrl = ErrorDetail.typeUrl →
      Wire.decode entry.value = .ok (⟨address, mspId, message⟩ : ErrorDetail) →
      Reports entries text →
      Reports (entry :: entries)
        ("\n    address: " ++ address ++ ", mspId: " ++ mspId ++ ", message: " ++ message ++ text)
  /-- An entry of another type has none. -/
  | foreign {entry : Any} {entries : List Any} {text : String} :
      entry.typeUrl ≠ ErrorDetail.typeUrl → Reports entries text → Reports (entry :: entries) text
  /-- Nor has one that cannot be read. -/
  | corrupt {entry : Any} {entries : List Any} {text : String} {e : Wire.DecodeError} :
      Wire.decode (α := ErrorDetail) entry.value = .error e → Reports entries text →
      Reports (entry :: entries) text

variable {entries entries' : List Any} {text text' : String}

/-- The text of the lines for a row of entries. -/
def peerText (entries : List Any) : String :=
  String.join ((entries.filterMap detail?).map detailText)

theorem peerText_cons_of_some {entry : Any} {d : ErrorDetail} (h : detail? entry = some d) :
    peerText (entry :: entries) = detailText d ++ peerText entries := by
  rw [peerText, List.filterMap_cons_some h, List.map_cons, String.join_cons, peerText]

theorem peerText_cons_of_none {entry : Any} (h : detail? entry = none) :
    peerText (entry :: entries) = peerText entries := by
  rw [peerText, List.filterMap_cons_none h, peerText]

theorem peerText_append (entries entries' : List Any) :
    peerText (entries ++ entries') = peerText entries ++ peerText entries' := by
  rw [peerText, List.filterMap_append, List.map_append, String.join_append, peerText, peerText]

/-! ### Entries -/

theorem detail?_of_decode {entry : Any} {d : ErrorDetail}
    (htype : entry.typeUrl = ErrorDetail.typeUrl) (h : Wire.decode entry.value = .ok d) :
    detail? entry = some d := by
  rw [detail?, if_pos htype, h]
  rfl

theorem detail?_foreign {entry : Any} (htype : entry.typeUrl ≠ ErrorDetail.typeUrl) :
    detail? entry = none :=
  if_neg htype

theorem detail?_corrupt {entry : Any} {e : Wire.DecodeError}
    (h : Wire.decode (α := ErrorDetail) entry.value = .error e) : detail? entry = none := by
  rw [detail?, h]
  split <;> rfl

/-- A row of entries stands for no other text. -/
theorem Reports.eq_peerText (h : Reports entries text) : text = peerText entries := by
  induction h with
  | nil => rfl
  | peer htype hdecode _ ih =>
    rw [peerText_cons_of_some (detail?_of_decode htype hdecode), ← ih]
    rfl
  | foreign htype _ ih => rw [peerText_cons_of_none (detail?_foreign htype), ih]
  | corrupt hdecode _ ih => rw [peerText_cons_of_none (detail?_corrupt hdecode), ih]

/-- Every row of entries stands for a text, whatever it is that the entries hold. -/
theorem reports_peerText (entries : List Any) : Reports entries (peerText entries) := by
  induction entries with
  | nil => exact .nil
  | cons entry entries ih =>
    by_cases htype : entry.typeUrl = ErrorDetail.typeUrl
    · cases hdecode : Wire.decode (α := ErrorDetail) entry.value with
      | ok d =>
        rw [peerText_cons_of_some (detail?_of_decode htype hdecode)]
        exact .peer htype hdecode ih
      | error e =>
        rw [peerText_cons_of_none (detail?_corrupt hdecode)]
        exact .corrupt hdecode ih
    · rw [peerText_cons_of_none (detail?_foreign htype)]
      exact .foreign htype ih

theorem reports_iff : Reports entries text ↔ text = peerText entries :=
  ⟨Reports.eq_peerText, fun h => h ▸ reports_peerText entries⟩

/-- Entries do not disturb each other. -/
theorem Reports.append (h : Reports entries text) (h' : Reports entries' text') :
    Reports (entries ++ entries') (text ++ text') := by
  rw [reports_iff] at h h' ⊢
  rw [h, h', peerText_append]

/-! ### Errors -/

theorem toError_of_decode {s : RpcStatus} {status : Status}
    (h : Wire.decode s.details = .ok status) (operation : String) :
    s.toError operation =
      .rpc operation (s.code.name ++ ": " ++ s.message ++ peerText status.details) := by
  rw [toError, RpcStatus.text, peerDetails, h, peerText]

theorem toError_of_error {s : RpcStatus} {e : Wire.DecodeError}
    (h : Wire.decode (α := Status) s.details = .error e) (operation : String) :
    s.toError operation = .rpc operation (s.code.name ++ ": " ++ s.message) := by
  rw [toError, RpcStatus.text, peerDetails, h]
  exact congrArg (Error.rpc operation) String.append_empty

/-- **The error of a failed call reports every peer and nothing else.**  Its text goes on, behind
the code and the message, with the lines that the entries of the details stand for.  There are none
if the details are empty or cannot be read. -/
theorem toError_reports (s : RpcStatus) (operation : String) :
    ∃ text, s.toError operation = .rpc operation (s.code.name ++ ": " ++ s.message ++ text) ∧
      (∀ status : Status, Wire.decode s.details = .ok status ∨
          (s.details = Wire.encode status ∧ s.details.length < Wire.sizeLimit) →
        (∀ other, Reports status.details other ↔ other = text) ∧
        ∀ front back, status.details = front ++ back → ∃ frontText backText,
          Reports front frontText ∧ Reports back backText ∧ text = frontText ++ backText) ∧
      (s.details = [] ∨ (∃ e, Wire.decode (α := Status) s.details = .error e) → text = "") := by
  cases hdecode : Wire.decode (α := Status) s.details with
  | error e =>
    refine ⟨"", ?_, ?_, fun _ => rfl⟩
    · rw [toError_of_error hdecode, String.append_empty]
    · rintro status (h | ⟨h, hsize⟩)
      · cases h
      · rw [h] at hdecode hsize
        cases hdecode.symm.trans (Wire.decode_encode hsize)
  | ok found =>
    refine ⟨peerText found.details, toError_of_decode hdecode operation, ?_, ?_⟩
    · intro status h
      obtain rfl : found = status := by
        rcases h with h | ⟨h, hsize⟩
        · cases h
          rfl
        · rw [h] at hdecode hsize
          cases hdecode.symm.trans (Wire.decode_encode hsize)
          rfl
      refine ⟨fun _ => reports_iff, fun front back hsplit => ?_⟩
      have happend := (reports_peerText front).append (reports_peerText back)
      exact ⟨_, _, reports_peerText front, reports_peerText back, hsplit ▸ happend.eq_peerText.symm⟩
    · rintro (h | ⟨_, h⟩)
      · rw [h] at hdecode
        have hempty : Wire.decode (Wire.encode ({} : Status)) = .ok ({} : Status) :=
          Wire.decode_encode (by decide)
        cases hdecode.symm.trans hempty
        rfl
      · cases h

/-- A status with an entry about something else and a broken one among those about peers. -/
def mixedStatus : Status where
  code := 10
  message := "failed to endorse"
  details := [
    ⟨"type.googleapis.com/google.rpc.RetryInfo", [0x00]⟩,
    ⟨ErrorDetail.typeUrl, Wire.encode (⟨"peer0:7051", "Org1MSP", "no such asset"⟩ : ErrorDetail)⟩,
    ⟨ErrorDetail.typeUrl, [0x00]⟩,
    ⟨ErrorDetail.typeUrl, Wire.encode (⟨"peer1:7051", "Org2MSP", ""⟩ : ErrorDetail)⟩]

theorem toError_reports_mixedStatus :
    (⟨.aborted, "failed to endorse", Wire.encode mixedStatus⟩ : RpcStatus).toError "endorse" =
      .rpc "endorse" ("Aborted: failed to endorse" ++
        "\n    address: peer0:7051, mspId: Org1MSP, message: no such asset" ++
        "\n    address: peer1:7051, mspId: Org2MSP, message: ") := by
  obtain ⟨text, herror, hreports, -⟩ := toError_reports
    ⟨.aborted, "failed to endorse", Wire.encode mixedStatus⟩ "endorse"
  have hbroken : Wire.decode (α := ErrorDetail) [0x00] = .error ⟨.zeroNumber, []⟩ := by
    decide +kernel
  have htext := (hreports mixedStatus (.inr ⟨rfl, by decide +kernel⟩)).1 _ |>.mp <|
    .foreign (by decide) <| .peer rfl (Wire.decode_encode (by decide +kernel)) <|
    .corrupt hbroken <| .peer rfl (Wire.decode_encode (by decide +kernel)) .nil
  rw [herror, ← htext]
  rfl

end RpcStatus

end LedgerGateway
