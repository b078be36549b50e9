import LedgerGateway.Configuration
import LedgerGateway.Error
import Mathlib.Data.List.Basic
import Mathlib.Tactic.SplitIfs

/-!
# What is loaded from an environment

Five variables have to have a value that is not empty.  If they do, the configuration holds the
values as they are (`Configuration.Holds`), and otherwise the error names the variables that lack a
value, in their fixed order (`Configuration.Reports`).  A variable that is empty counts as one that
is not there, and so does one whose value is not text.  Nothing else of the environment matters
(`Configuration.load_exact`).
-/

namespace LedgerGateway.Configuration

variable {lookup lookup' : String → Option String} {name value : String} {names : List String}
  {c : Configuration} {e : Error}

/-! ### Values -/

/-- The variable has this value, and it is not empty. -/
def Has (lookup : String → Option String) (name value : String) : Prop :=
  lookup name = some value ∧ value ≠ ""

/-- The variable is not there, or it is empty. -/
def Lacks (lookup : String → Option String) (name : String) : Prop :=
  lookup name = none ∨ lookup name = some ""

theorem value?_eq_some_iff : value? lookup name = some value ↔ Has lookup name value := by
  simp [value?, Has, Option.filter_eq_some_iff]

theorem value?_eq_none_iff : value? lookup name = none ↔ Lacks lookup name := by
  rw [value?, Lacks]
  cases lookup name <;> simp

/-- An environment is as good as another if the same variables have the same values. -/
theorem value?_congr (h : ∀ value, Has lookup name value ↔ Has lookup' name value) :
    value? lookup name = value? lookup' name := by
  refine Option.ext fun value => ?_
  rw [value?_eq_some_iff, value?_eq_some_iff, h]

theorem required_eq (h : Has lookup name value) : required lookup name = value := by
  rw [required, value?_eq_some_iff.2 h, Option.getD_some]

/-! ### What is missing -/

theorem missing_eq_nil_iff :
    missing lookup = [] ↔ ∀ name ∈ requiredVariables, ¬ Lacks lookup name := by
  simp [missing, List.filter_eq_nil_iff, value?_eq_none_iff]

theorem has_required (h : missing lookup = []) (hname : name ∈ requiredVariables) :
    Has lookup name (required lookup name) := by
  cases hvalue : value? lookup name with
  | none => exact absurd (value?_eq_none_iff.1 hvalue) (missing_eq_nil_iff.1 h name hname)
  | some value =>
    have hhas := value?_eq_some_iff.1 hvalue
    rwa [required_eq hhas]

/-- These are the required variables that lack a value, in the order of the required variables. -/
structure AreLacking (lookup : String → Option String) (names : List String) : Prop where
  inOrder : names.Sublist requiredVariables
  mem_iff : ∀ name ∈ requiredVariables, name ∈ names ↔ Lacks lookup name

/-- Elements that are picked out of a list in its order are known by their property. -/
theorem eq_filter_of_sublist {all : List String} {p : String → Bool} (hsublist : names.Sublist all)
    (hnodup : all.Nodup) (h : ∀ name ∈ all, name ∈ names ↔ p name) : names = all.filter p := by
  induction hsublist with
  | slnil => rfl
  | @cons names all name hsublist ih =>
    obtain ⟨hname, hnodup⟩ := List.nodup_cons.1 hnodup
    have hout : ¬ p name := fun hp => hname (hsublist.subset ((h name List.mem_cons_self).2 hp))
    rw [List.filter_cons_of_neg hout]
    exact ih hnodup fun other hother => h other (List.mem_cons_of_mem _ hother)
  | @cons_cons names all name hsublist ih =>
    obtain ⟨hname, hnodup⟩ := List.nodup_cons.1 hnodup
    have hin : p name := (h name List.mem_cons_self).1 List.mem_cons_self
    rw [List.filter_cons_of_pos hin, ← ih hnodup]
    intro other hother
    have hne : other ≠ name := fun heq => hname (heq ▸ hother)
    rw [← h other (List.mem_cons_of_mem _ hother), List.mem_cons, or_iff_right hne]

theorem areLacking_iff : AreLacking lookup names ↔ missing lookup = names := by
  constructor
  · intro h
    refine (eq_filter_of_sublist h.inOrder (by decide) fun name hname => ?_).symm
    rw [h.mem_iff name hname, Option.isNone_iff_eq_none, value?_eq_none_iff]
  · rintro rfl
    refine ⟨List.filter_sublist, fun name hname => ?_⟩
    rw [missing, List.mem_filter, Option.isNone_iff_eq_none, value?_eq_none_iff,
      and_iff_right hname]

/-! ### Loading -/

theorem load_eq_error_iff : load lookup = .error names ↔ missing lookup = names ∧ names ≠ [] := by
  rw [load]
  cases missing lookup with
  | nil =>
    constructor
    · intro h
      cases h
    · rintro ⟨rfl, h⟩
      exact absurd rfl h
  | cons name rest =>
    constructor
    · intro h
      cases h
      exact ⟨rfl, List.cons_ne_nil _ _⟩
    · rintro ⟨rfl, -⟩
      rfl

theorem exists_load_iff : (∃ c, load lookup = .ok c) ↔ missing lookup = [] := by
  rw [load]
  cases missing lookup with
  | nil => exact ⟨fun _ => rfl, fun _ => ⟨_, rfl⟩⟩
  | cons name rest =>
    constructor
    · rintro ⟨c, h⟩
      cases h
    · intro h
      cases h

/-- The fields of a configuration are the values of the variables.  Only the last one may be
missing. -/
structure Holds (lookup : String → Option String) (c : Configuration) : Prop where
  mspId : Has lookup mspIdVariable c.mspId
  mspConfigPath : Has lookup mspConfigPathVariable c.mspConfigPath
  peerAddress : Has lookup peerAddressVariable c.peerAddress
  chaincodeName : Has lookup chaincodeNameVariable c.chaincodeName
  channelName : Has lookup channelNameVariable c.channelName
  tlsRootCert : ∀ path, c.tlsRootCert = some path ↔ Has lookup tlsRootCertVariable path

theorem Has.not_lacks (h : Has lookup name value) : ¬ Lacks lookup name := by
  rw [← value?_eq_none_iff, value?_eq_some_iff.2 h]
  exact Option.some_ne_none value

theorem Holds.missing_eq (h : Holds lookup c) : missing lookup = [] := by
  rw [missing_eq_nil_iff]
  simp only [requiredVariables, List.forall_mem_cons, List.not_mem_nil, false_implies,
    implies_true, and_true]
  exact ⟨h.mspId.not_lacks, h.mspConfigPath.not_lacks, h.peerAddress.not_lacks,
    h.chaincodeName.not_lacks, h.channelName.not_lacks⟩

/-- **A configuration is loaded exactly if its fields are the values of the variables.** -/
theorem load_eq_ok_iff : load lookup = .ok c ↔ Holds lookup c := by
  constructor
  · intro h
    have hmissing := exists_load_iff.1 ⟨c, h⟩
    have hhas : ∀ name ∈ requiredVariables, Has lookup name (required lookup name) :=
      fun name hname => has_required hmissing hname
    rw [load, hmissing] at h
    cases h
    exact ⟨hhas _ (by decide), hhas _ (by decide), hhas _ (by decide), hhas _ (by decide),
      hhas _ (by decide), fun path => value?_eq_some_iff⟩
  · intro h
    have hcert : value? lookup tlsRootCertVariable = c.tlsRootCert :=
      Option.ext fun path => value?_eq_some_iff.trans (h.tlsRootCert path).symm
    rw [load, h.missing_eq]
    simp only [required_eq h.mspId, required_eq h.mspConfigPath, required_eq h.peerAddress,
      required_eq h.chaincodeName, required_eq h.channelName, hcert]

/-- What is said about the variables that lack a value: the name of the only one, or all names. -/
inductive Reports (lookup : String → Option String) : Error → Prop
  | one {name : String} : AreLacking lookup [name] → Reports lookup (.missingVariable name)
  | several {names : List String} : AreLacking lookup names → 2 ≤ names.length →
      Reports lookup (.missingVariables names)

theorem mapError_load_eq_error_iff :
    (load lookup).mapError Error.ofMissing = .error e ↔ Reports lookup e := by
  constructor
  · intro h
    cases hload : load lookup with
    | ok c => rw [hload] at h; cases h
    | error names =>
      rw [hload] at h
      cases h
      obtain ⟨hmissing, hne⟩ := load_eq_error_iff.1 hload
      have hlacking := areLacking_iff.2 hmissing
      match names with
      | [] => exact absurd rfl hne
      | [name] => exact .one hlacking
      | first :: second :: rest => exact .several hlacking (by simp)
  · intro h
    cases h with
    | one hlacking =>
      rw [load_eq_error_iff.2 ⟨areLacking_iff.1 hlacking, List.cons_ne_nil _ _⟩]
      rfl
    | @several names hlacking hlength =>
      have hne : names ≠ [] := by rintro rfl; simp at hlength
      rw [load_eq_error_iff.2 ⟨areLacking_iff.1 hlacking, hne⟩]
      match names with
      | [name] => simp at hlength
      | first :: second :: rest => rfl

/-- Only the values of the six variables are looked at. -/
theorem load_congr
    (h : ∀ name ∈ allVariables, ∀ value, Has lookup name value ↔ Has lookup' name value) :
    load lookup = load lookup' := by
  have hvalue : ∀ name ∈ allVariables, value? lookup name = value? lookup' name :=
    fun name hname => value?_congr (h name hname)
  have hrequired : ∀ name ∈ requiredVariables, value? lookup name = value? lookup' name :=
    fun name hname => hvalue name (List.mem_append_left _ hname)
  have hmissing : missing lookup = missing lookup' :=
    List.filter_congr fun name hname => by rw [hrequired name hname]
  simp only [load, hmissing, required, hrequired mspIdVariable (by decide),
    hrequired mspConfigPathVariable (by decide), hrequired peerAddressVariable (by decide),
    hrequired chaincodeNameVariable (by decide), hrequired channelNameVariable (by decide),
    hvalue tlsRootCertVariable (by decide)]

/-- A value of bytes counts if it is what some text is written as. -/
theorem ofBytes_eq_some_iff {environment : String → Option Bytes} :
    ofBytes environment name = some value ↔ environment name = some (Text.encodeUtf8 value) := by
  rw [ofBytes, Option.bind_eq_some_iff]
  constructor
  · rintro ⟨b, hb, hvalue⟩
    rw [hb, Text.encodeUtf8_of_decodeUtf8? hvalue]
  · intro h
    exact ⟨_, h, Text.decodeUtf8?_encodeUtf8 value⟩

/-- **What is loaded from an environment.**  A configuration is loaded exactly if no required
variable lacks a value, and holds the values as they are.  Otherwise just those that lack one are
named, in their order.  No other variable counts, and a value that is not text counts as none. -/
theorem load_exact (lookup : String → Option String) :
    ((∃ c, load lookup = .ok c) ↔ ∀ name ∈ requiredVariables, ¬ Lacks lookup name) ∧
    (∀ c, load lookup = .ok c ↔ Holds lookup c) ∧
    (∀ e, (load lookup).mapError Error.ofMissing = .error e ↔ Reports lookup e) ∧
    (∀ lookup', (∀ name ∈ allVariables, ∀ value,
        Has lookup name value ↔ Has lookup' name value) → load lookup' = load lookup) ∧
    ∀ environment : String → Option Bytes,
      (∀ name value, lookup name = some value ↔
        environment name = some (Text.encodeUtf8 value)) →
      load (ofBytes environment) = load lookup := by
  refine ⟨exists_load_iff.trans missing_eq_nil_iff, fun c => load_eq_ok_iff,
    fun e => mapError_load_eq_error_iff, fun lookup' h => (load_congr h).symm, ?_⟩
  intro environment h
  have heq : ofBytes environment = lookup :=
    funext fun name => Option.ext fun value => ofBytes_eq_some_iff.trans (h name value).symm
  rw [heq]

/-- An environment with an empty variable, one that is not text, and one that is not there. -/
def sampleEnvironment (name : String) : Option Bytes :=
  if name = mspIdVariable then some (Text.encodeUtf8 "Org1MSP")
  else if name = mspConfigPathVariable then some []
  else if name = peerAddressVariable then some [0xFF]
  else if name = chaincodeNameVariable then some (Text.encodeUtf8 "basic")
  else none

def sampleLookup (name : String) : Option String :=
  if name = mspIdVariable then some "Org1MSP"
  else if name = mspConfigPathVariable then some ""
  else if name = peerAddressVariable then none
  else if name = chaincodeNameVariable then some "basic"
  else none

theorem ofBytes_sampleEnvironment : ofBytes sampleEnvironment = sampleLookup := by
  have hempty : Text.decodeUtf8? [] = some "" := Text.decodeUtf8?_encodeUtf8 ""
  have hbad : Text.decodeUtf8? [0xFF] = none := by decide +kernel
  funext name
  rw [ofBytes, sampleEnvironment, sampleLookup]
  split_ifs <;> simp [Text.decodeUtf8?_encodeUtf8, hempty, hbad]

theorem load_exact_sample :
    (∀ name value, sampleLookup name = some value ↔
      sampleEnvironment name = some (Text.encodeUtf8 value)) ∧
    (load (ofBytes sampleEnvironment)).mapError Error.ofMissing = .error (.missingVariables
      [mspConfigPathVariable, peerAddressVariable, channelNameVariable]) ∧
    load (fun name => if name ∈ allVariables then sampleLookup name else some "other") =
      load sampleLookup := by
  have hsample : ∀ name value, sampleLookup name = some value ↔
      sampleEnvironment name = some (Text.encodeUtf8 value) := by
    intro name value
    rw [← ofBytes_sampleEnvironment, ofBytes_eq_some_iff]
  obtain ⟨-, -, hreports, hcongr, hbytes⟩ := load_exact sampleLookup
  refine ⟨hsample, ?_, hcongr _ fun name hname value => ?_⟩
  · rw [hbytes sampleEnvironment hsample, hreports]
    exact .several (areLacking_iff.2 (by decide)) (by decide)
  · rw [Has, Has, if_pos hname]

end LedgerGateway.Configuration
