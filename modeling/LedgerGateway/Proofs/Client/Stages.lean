import LedgerGateway.Client
import LedgerGateway.Proofs.Configuration
import LedgerGateway.Proofs.Key.Consistency

/-!
# The order of the stages

Before the client opens its session it goes through seven stages (`Stage`).  Each of them can fail,
and `Stage.Fails` says when it does and what is reported for it, without regard to the other stages;
only that a stage for which something has to be known from an earlier one does not fail where that
is not known.

The session is opened exactly if no stage fails.  Otherwise what is reported is the failure of the
first stage that fails (`FailsFirst`), and nobody is called (`run_stages`).  A stage looks at little
(`Stage.SeesSame`): the variables, the word for the action, one file, or one directory.  So a failure
stays the same whatever else is changed that only later stages look at.
-/

namespace LedgerGateway.Client

/-! ### What there is to look at -/

/-- What the client finds when it is started: the environment, the disk and the word for the
action. -/
structure Surroundings where
  lookup : String → Option String
  disk : Disk
  word : String

namespace Surroundings

/-- The environment holds this configuration. -/
def Configures (w : Surroundings) (c : Configuration) : Prop :=
  Configuration.load w.lookup = .ok c

/-- The certificates to trust are read from the disk as these bytes. -/
def Trusts (w : Surroundings) (c : Configuration) (pem : Bytes) : Prop :=
  w.Configures c ∧ CredentialStore.loadTlsRootCert w.disk c = .ok pem

variable {w : Surroundings} {c c' : Configuration} {pem pem' : Bytes}

theorem Configures.unique (h : w.Configures c) (h' : w.Configures c') : c = c' :=
  Except.ok.inj (h.symm.trans h')

theorem Trusts.unique (h : w.Trusts c pem) (h' : w.Trusts c' pem') : c = c' ∧ pem = pem' := by
  obtain rfl := h.1.unique h'.1
  exact ⟨rfl, Except.ok.inj (h.2.symm.trans h'.2)⟩

end Surroundings

/-! ### Stages -/

/-- The stages that come before the session is opened. -/
inductive Stage where
  /-- The variables are there. -/
  | configuration
  /-- The word stands for an action. -/
  | action
  /-- The file of the certificates to trust can be read. -/
  | trustedFile
  /-- There is a certificate in it. -/
  | trustedCertificate
  /-- The address can be called, and the peer there can prove its name. -/
  | connection
  /-- The certificate of the client is read. -/
  | identity
  /-- The private key of the client is read. -/
  | privateKey

namespace Stage

def position : Stage → Nat
  | configuration => 0
  | action => 1
  | trustedFile => 2
  | trustedCertificate => 3
  | connection => 4
  | identity => 5
  | privateKey => 6

theorem position_injective : ∀ {s t : Stage}, s.position = t.position → s = t := by
  intro s t h
  cases s <;> cases t <;> first | rfl | cases h

/-- A stage fails, and this is reported if it is the first one. -/
inductive Fails (w : Surroundings) : Stage → Failure → Prop
  | configuration {names : List String} : Configuration.load w.lookup = .error names →
      Fails w .configuration (.plain (.ofMissing names))
  | action {e : Error} : Action.parse w.word = .error e → Fails w .action (.plain e)
  | trustedFile {c : Configuration} {e : Error} : w.Configures c →
      CredentialStore.loadTlsRootCert w.disk c = .error e →
      Fails w .trustedFile (.about .tlsRootCert e)
  | trustedCertificate {c : Configuration} {pem : Bytes} {fault : CertificateFault} :
      w.Trusts c pem → checkCertificate pem = .error fault →
      Fails w .trustedCertificate (.plain (.certificate fault))
  | address {c : Configuration} : w.Configures c → Endpoint.isUri c.peerAddress = false →
      Fails w .connection (.plain (.address .invalidUri))
  | proof {c : Configuration} {pem : Bytes} : w.Trusts c pem →
      Endpoint.isUri c.peerAddress = true →
      (Connection.isTrustedBundle pem && Endpoint.isServerName c.serverName) = false →
      Fails w .connection (.plain (.address .unprovable))
  | identity {c : Configuration} {e : Error} : w.Configures c →
      CredentialStore.loadIdentity w.disk c = .error e →
      Fails w .identity (.about .certificate e)
  | privateKey {c : Configuration} {e : Error} : w.Configures c →
      CredentialStore.loadSigner w.disk c = .error e →
      Fails w .privateKey (.about .privateKey e)

def Passes (w : Surroundings) (s : Stage) : Prop := ∀ f, ¬ s.Fails w f

end Stage

/-- A stage fails, and none that comes before it does. -/
def FailsFirst (w : Surroundings) (s : Stage) (f : Failure) : Prop :=
  s.Fails w f ∧ ∀ t : Stage, t.position < s.position → t.Passes w

/-- All stages are done, and this is what the client is ready to do then. -/
inductive Opens (w : Surroundings) : Ready → Prop
  | intro {c : Configuration} {action : Action} {pem : Bytes} {identity : Identity}
      {signer : Signer} : w.Trusts c pem → Action.parse w.word = .ok action →
      checkCertificate pem = .ok () → Endpoint.isUri c.peerAddress = true →
      (Connection.isTrustedBundle pem && Endpoint.isServerName c.serverName) = true →
      CredentialStore.loadIdentity w.disk c = .ok identity →
      CredentialStore.loadSigner w.disk c = .ok signer →
      Opens w ⟨action, ⟨c.endpoint, c.serverName⟩, ⟨identity, signer, {}⟩,
        ⟨c.channelName, c.chaincodeName⟩⟩

section Stages

variable {w : Surroundings} {c : Configuration} {pem : Bytes} {s t : Stage} {f g : Failure}
  {ready : Ready}

/-! ### Stages that pass -/

namespace Stage

theorem Fails.unique (h : s.Fails w f) (h' : s.Fails w g) : f = g := by
  cases h with
  | configuration hnames =>
    cases h' with
    | configuration hnames' => cases hnames.symm.trans hnames'; rfl
  | action he =>
    cases h' with
    | action he' => cases he.symm.trans he'; rfl
  | trustedFile hc he =>
    cases h' with
    | trustedFile hc' he' =>
      obtain rfl := hc.unique hc'
      cases he.symm.trans he'
      rfl
  | trustedCertificate hpem hfault =>
    cases h' with
    | trustedCertificate hpem' hfault' =>
      obtain ⟨-, rfl⟩ := hpem.unique hpem'
      cases hfault.symm.trans hfault'
      rfl
  | address hc huri =>
    cases h' with
    | address => rfl
    | proof hpem huri' =>
      obtain rfl := hc.unique hpem.1
      cases huri.symm.trans huri'
  | proof hpem huri =>
    cases h' with
    | address hc huri' =>
      obtain rfl := hc.unique hpem.1
      cases huri.symm.trans huri'
    | proof => rfl
  | identity hc he =>
    cases h' with
    | identity hc' he' =>
      obtain rfl := hc.unique hc'
      cases he.symm.trans he'
      rfl
  | privateKey hc he =>
    cases h' with
    | privateKey hc' he' =>
      obtain rfl := hc.unique hc'
      cases he.symm.trans he'
      rfl

theorem passes_configuration (h : w.Configures c) : Stage.configuration.Passes w := by
  intro f hf
  cases hf with
  | configuration hnames => cases hnames.symm.trans h

theorem passes_action {action : Action} (h : Action.parse w.word = .ok action) :
    Stage.action.Passes w := by
  intro f hf
  cases hf with
  | action he => cases he.symm.trans h

theorem passes_trustedFile (h : w.Trusts c pem) : Stage.trustedFile.Passes w := by
  intro f hf
  cases hf with
  | trustedFile hc he =>
    obtain rfl := hc.unique h.1
    cases he.symm.trans h.2

theorem passes_trustedCertificate (h : w.Trusts c pem) (hpem : checkCertificate pem = .ok ()) :
    Stage.trustedCertificate.Passes w := by
  intro f hf
  cases hf with
  | trustedCertificate htrusts hfault =>
    obtain ⟨-, rfl⟩ := htrusts.unique h
    cases hfault.symm.trans hpem

theorem passes_connection (h : w.Trusts c pem) (huri : Endpoint.isUri c.peerAddress = true)
    (hproof : (Connection.isTrustedBundle pem && Endpoint.isServerName c.serverName) = true) :
    Stage.connection.Passes w := by
  intro f hf
  cases hf with
  | address hc huri' =>
    obtain rfl := hc.unique h.1
    cases huri.symm.trans huri'
  | proof htrusts _ hproof' =>
    obtain ⟨rfl, rfl⟩ := htrusts.unique h
    cases hproof.symm.trans hproof'

theorem passes_identity {identity : Identity} (h : w.Configures c)
    (hidentity : CredentialStore.loadIdentity w.disk c = .ok identity) :
    Stage.identity.Passes w := by
  intro f hf
  cases hf with
  | identity hc he =>
    obtain rfl := hc.unique h
    cases he.symm.trans hidentity

theorem passes_privateKey {signer : Signer} (h : w.Configures c)
    (hsigner : CredentialStore.loadSigner w.disk c = .ok signer) : Stage.privateKey.Passes w := by
  intro f hf
  cases hf with
  | privateKey hc he =>
    obtain rfl := hc.unique h
    cases he.symm.trans hsigner

/-- One more stage passes. -/
theorem passes_of_lt_succ (hearlier : ∀ t : Stage, t.position < s.position → t.Passes w)
    (hs : s.Passes w) : ∀ t : Stage, t.position < s.position + 1 → t.Passes w := by
  intro t ht
  rcases Nat.lt_succ_iff_lt_or_eq.mp ht with hlt | heq
  · exact hearlier t hlt
  · rw [position_injective heq]
    exact hs

end Stage

open Stage

theorem FailsFirst.unique (h : FailsFirst w s f) (h' : FailsFirst w t g) : s = t ∧ f = g := by
  rcases Nat.lt_trichotomy s.position t.position with hlt | heq | hgt
  · exact absurd h.1 (h'.2 s hlt f)
  · obtain rfl := position_injective heq
    exact ⟨rfl, h.1.unique h'.1⟩
  · exact absurd h'.1 (h.2 t hgt g)

theorem Opens.passes (h : Opens w ready) : ∀ s : Stage, s.Passes w := by
  obtain ⟨hpem, haction, hcertificate, huri, hproof, hidentity, hsigner⟩ := h
  intro s
  cases s with
  | configuration => exact passes_configuration hpem.1
  | action => exact passes_action haction
  | trustedFile => exact passes_trustedFile hpem
  | trustedCertificate => exact passes_trustedCertificate hpem hcertificate
  | connection => exact passes_connection hpem huri hproof
  | identity => exact passes_identity hpem.1 hidentity
  | privateKey => exact passes_privateKey hpem.1 hsigner

/-! ### Getting ready -/

/-- The client is ready, or reports the failure of the first stage that fails. -/
inductive Settles (w : Surroundings) : Except Failure Ready → Prop
  | ready {ready : Ready} : Opens w ready → Settles w (.ok ready)
  | failure {s : Stage} {f : Failure} : FailsFirst w s f → Settles w (.error f)

section Bind

variable {ε ε' α β : Type} {r : Except ε α}

/-- **One stage more.**  Those before it have passed.  If it fails, it is the first to fail, and if
not, the rest decides. -/
theorem Settles.stage {wrap : ε → Failure} {next : α → Except Failure Ready} (s : Stage)
    (hearlier : ∀ t : Stage, t.position < s.position → t.Passes w)
    (herror : ∀ e, r = .error e → s.Fails w (wrap e)) (hpasses : ∀ a, r = .ok a → s.Passes w)
    (hok : ∀ a, r = .ok a → (∀ t : Stage, t.position < s.position + 1 → t.Passes w) →
      Settles w (next a)) : Settles w (r.mapError wrap >>= next) := by
  cases hr : r with
  | error e => exact .failure ⟨herror e hr, hearlier⟩
  | ok a => exact hok a hr (passes_of_lt_succ hearlier (hpasses a hr))

theorem mapError_bind_mapError {k : Except ε' β} (f : ε → ε') (g : ε' → Failure)
    (next : β → Except Failure Ready) :
    ((r.mapError f >>= fun _ => k).mapError g >>= next) =
      (r.mapError (g ∘ f) >>= fun _ => k.mapError g >>= next) := by
  cases r <;> rfl

end Bind

/-- The stages are gone through one by one. -/
theorem prepare_settles (w : Surroundings) : Settles w (prepare w.lookup w.disk w.word) := by
  refine .stage .configuration (fun _ h => absurd h (Nat.not_lt_zero _))
    (fun _ h => .configuration h) (fun _ h => passes_configuration h) fun c hc hone => ?_
  refine .stage .action hone (fun _ h => .action h) (fun _ h => passes_action h)
    fun action haction htwo => ?_
  refine .stage .trustedFile htwo (fun _ h => .trustedFile hc h)
    (fun _ h => passes_trustedFile ⟨hc, h⟩) fun pem hpem hthree => ?_
  have htrusts : w.Trusts c pem := ⟨hc, hpem⟩
  rw [Connection.connect, mapError_bind_mapError]
  refine .stage .trustedCertificate hthree (fun _ h => .trustedCertificate htrusts h)
    (fun _ h => passes_trustedCertificate htrusts h) fun _ hcertificate hfour => ?_
  -- The address and the name of the peer are one stage, in which two things can go wrong.
  cases huri : Endpoint.isUri c.peerAddress with
  | false => exact .failure ⟨.address hc huri, hfour⟩
  | true =>
  rw [← Bool.not_and]
  cases hproof : Connection.isTrustedBundle pem && Endpoint.isServerName c.serverName with
  | false => exact .failure ⟨.proof htrusts huri hproof, hfour⟩
  | true =>
  have hfive := passes_of_lt_succ (s := .connection) hfour (passes_connection htrusts huri hproof)
  show Settles w ((CredentialStore.loadIdentity w.disk c).mapError (.about .certificate) >>= _)
  refine .stage .identity hfive (fun _ h => .identity hc h) (fun _ h => passes_identity hc h)
    fun identity hidentity hsix => ?_
  refine .stage .privateKey hsix (fun _ h => .privateKey hc h) (fun _ h => passes_privateKey hc h)
    fun signer hsigner _ => ?_
  exact .ready (.intro htrusts haction hcertificate huri hproof hidentity hsigner)

theorem Opens.unique {ready' : Ready} (h : Opens w ready) (h' : Opens w ready') :
    ready = ready' := by
  obtain ⟨hpem, haction, -, -, -, hidentity, hsigner⟩ := h
  obtain ⟨hpem', haction', -, -, -, hidentity', hsigner'⟩ := h'
  obtain ⟨rfl, rfl⟩ := hpem.unique hpem'
  cases haction.symm.trans haction'
  cases hidentity.symm.trans hidentity'
  cases hsigner.symm.trans hsigner'
  rfl

theorem Settles.eq_ok {p : Except Failure Ready} (h : Settles w p) (hopens : Opens w ready) :
    p = .ok ready := by
  cases h with
  | ready hopens' => rw [hopens.unique hopens']
  | failure hfirst => exact absurd hfirst.1 (hopens.passes _ _)

theorem Settles.eq_error {p : Except Failure Ready} (h : Settles w p) (hfirst : FailsFirst w s f) :
    p = .error f := by
  cases h with
  | ready hopens => exact absurd hfirst.1 (hopens.passes _ _)
  | failure hfirst' => rw [(hfirst.unique hfirst').2]

theorem exists_opens_or_failsFirst (w : Surroundings) :
    (∃ ready, Opens w ready) ∨ ∃ s f, FailsFirst w s f := by
  have hsettles := prepare_settles w
  generalize prepare w.lookup w.disk w.word = p at hsettles
  cases hsettles with
  | ready hopens => exact .inl ⟨_, hopens⟩
  | failure hfirst => exact .inr ⟨_, _, hfirst⟩

theorem exists_opens_iff : (∃ ready, Opens w ready) ↔ ∀ s : Stage, s.Passes w := by
  constructor
  · rintro ⟨ready, hopens⟩
    exact hopens.passes
  · intro hpasses
    rcases exists_opens_or_failsFirst w with hopens | ⟨s, f, hfirst⟩
    · exact hopens
    · exact absurd hfirst.1 (hpasses s f)

end Stages

/-! ### What a stage looks at -/

/-- Two disks hold the same in a directory. -/
def SameDirectory (d d' : Disk) (directory : String) : Prop :=
  d.list directory = d'.list directory ∧ ∀ name,
    d.isFile (Disk.join directory name) = d'.isFile (Disk.join directory name) ∧
    d.read (Disk.join directory name) = d'.read (Disk.join directory name)

/-- What a stage looks at is the same in two surroundings.  The later stages look at one value of
the configuration each, and at what it leads to on the disk. -/
def Stage.SeesSame (w w' : Surroundings) : Stage → Prop
  | .configuration => Configuration.missing w.lookup = Configuration.missing w'.lookup
  | .action => w.word = w'.word
  | .trustedFile | .trustedCertificate => ∀ c c', w.Configures c → w'.Configures c' →
      c.tlsRootCertFile = c'.tlsRootCertFile ∧
      w.disk.read c.tlsRootCertFile = w'.disk.read c.tlsRootCertFile
  | .connection => ∀ c c', w.Configures c → w'.Configures c' → c.peerAddress = c'.peerAddress
  | .identity => ∀ c c', w.Configures c → w'.Configures c' →
      c.certificateDirectory = c'.certificateDirectory ∧
      SameDirectory w.disk w'.disk c.certificateDirectory
  | .privateKey => ∀ c c', w.Configures c → w'.Configures c' →
      c.keyDirectory = c'.keyDirectory ∧ SameDirectory w.disk w'.disk c.keyDirectory

/-- All that is looked at up to a stage is the same in two surroundings. -/
def SameUpTo (s : Stage) (w w' : Surroundings) : Prop :=
  ∀ t : Stage, t.position ≤ s.position → t.SeesSame w w'

section Same

open LedgerGateway.Configuration (exists_load_iff load_eq_error_iff)

variable {w w' : Surroundings} {d d' : Disk} {directory : String} {c c' : Configuration}
  {s t : Stage} {f : Failure}

namespace SameDirectory

theorem symm (h : SameDirectory d d' directory) : SameDirectory d' d directory :=
  ⟨h.1.symm, fun name => ⟨(h.2 name).1.symm, (h.2 name).2.symm⟩⟩

theorem files_eq (h : SameDirectory d d' directory) : ∀ names : List String,
    CredentialStore.files d directory names = CredentialStore.files d' directory names := by
  intro names
  induction names with
  | nil => rfl
  | cons name names ih => simp only [CredentialStore.files, (h.2 name).1, ih]

theorem readSingleFile_eq (h : SameDirectory d d' directory) :
    CredentialStore.readSingleFile d directory = CredentialStore.readSingleFile d' directory := by
  rw [CredentialStore.readSingleFile, CredentialStore.readSingleFile, CredentialStore.singleFile,
    CredentialStore.singleFile, h.1]
  cases d'.list directory with
  | error e => rfl
  | ok names =>
    simp only [Except.mapError, bind, Except.bind, h.files_eq]
    cases CredentialStore.files d' directory (CredentialStore.visible names) with
    | error e => rfl
    | ok found =>
      rcases found with _ | ⟨name, _ | ⟨other, others⟩⟩
      · rfl
      · show CredentialStore.readFile d _ = CredentialStore.readFile d' _
        rw [CredentialStore.readFile, CredentialStore.readFile, (h.2 name).2]
      · rfl

/-- Whom the certificate is for has no part in whether it is read. -/
theorem loadIdentity_error (h : SameDirectory d d' c.certificateDirectory)
    (hdirectory : c.certificateDirectory = c'.certificateDirectory) {e : Error}
    (he : CredentialStore.loadIdentity d c = .error e) :
    CredentialStore.loadIdentity d' c' = .error e := by
  rw [CredentialStore.loadIdentity, h.readSingleFile_eq, hdirectory] at he
  rw [CredentialStore.loadIdentity, ← he]
  cases hread : CredentialStore.readSingleFile d' c'.certificateDirectory with
  | error fault => rfl
  | ok pem =>
    simp only [hread, Identity.ofPem, bind, Except.bind] at he ⊢
    cases hcheck : checkCertificate pem with
    | error fault => rfl
    | ok _ =>
      rw [hcheck] at he
      cases he

theorem loadSigner_eq (h : SameDirectory d d' c.keyDirectory)
    (hdirectory : c.keyDirectory = c'.keyDirectory) :
    CredentialStore.loadSigner d c = CredentialStore.loadSigner d' c' := by
  rw [CredentialStore.loadSigner, CredentialStore.loadSigner, h.readSingleFile_eq, hdirectory]

end SameDirectory

namespace SameUpTo

theorem symm (h : SameUpTo s w w') : SameUpTo s w' w := by
  intro t ht
  have hsees := h t ht
  cases t with
  | configuration => exact Eq.symm hsees
  | action => exact Eq.symm hsees
  | trustedFile | trustedCertificate =>
    intro c' c hc' hc
    obtain ⟨hfile, hread⟩ := hsees c c' hc hc'
    exact ⟨hfile.symm, hfile ▸ hread.symm⟩
  | connection => exact fun c' c hc' hc => (hsees c c' hc hc').symm
  | identity | privateKey =>
    intro c' c hc' hc
    obtain ⟨hdirectory, hsame⟩ := hsees c c' hc hc'
    exact ⟨hdirectory.symm, hdirectory ▸ hsame.symm⟩

theorem mono (h : SameUpTo s w w') (hle : t.position ≤ s.position) : SameUpTo t w w' :=
  fun u hu => h u (Nat.le_trans hu hle)

theorem missing_eq (h : SameUpTo s w w') :
    Configuration.missing w.lookup = Configuration.missing w'.lookup :=
  h .configuration (Nat.zero_le _)

theorem exists_configures (h : SameUpTo s w w') (hc : w.Configures c) :
    ∃ c', w'.Configures c' :=
  exists_load_iff.mpr (h.missing_eq.symm.trans (exists_load_iff.mp ⟨c, hc⟩))

theorem loadTlsRootCert_eq (h : SameUpTo s w w') (hle : Stage.trustedFile.position ≤ s.position)
    (hc : w.Configures c) (hc' : w'.Configures c') :
    CredentialStore.loadTlsRootCert w'.disk c' = CredentialStore.loadTlsRootCert w.disk c := by
  obtain ⟨hfile, hread⟩ := h .trustedFile hle c c' hc hc'
  rw [CredentialStore.loadTlsRootCert, CredentialStore.loadTlsRootCert, CredentialStore.readFile,
    CredentialStore.readFile, hread, hfile]

theorem exists_trusts (h : SameUpTo s w w') (hle : Stage.trustedFile.position ≤ s.position)
    {pem : Bytes} (htrusts : w.Trusts c pem) : ∃ c', w'.Trusts c' pem := by
  obtain ⟨c', hc'⟩ := h.exists_configures htrusts.1
  exact ⟨c', hc', (h.loadTlsRootCert_eq hle htrusts.1 hc').trans htrusts.2⟩

/-- **A stage that fails does so wherever all up to it looks the same.** -/
theorem fails (h : SameUpTo s w w') (hfails : s.Fails w f) : s.Fails w' f := by
  cases hfails with
  | configuration hnames =>
    exact .configuration (load_eq_error_iff.mpr (h.missing_eq ▸ load_eq_error_iff.mp hnames))
  | action he =>
    have hword : w.word = w'.word := h .action (Nat.le_refl _)
    exact .action (hword ▸ he)
  | trustedFile hc he =>
    obtain ⟨c', hc'⟩ := h.exists_configures hc
    exact .trustedFile hc' ((h.loadTlsRootCert_eq (Nat.le_refl _) hc hc').trans he)
  | trustedCertificate htrusts hfault =>
    obtain ⟨c', htrusts'⟩ := h.exists_trusts (by decide) htrusts
    exact .trustedCertificate htrusts' hfault
  | @address c hc huri =>
    obtain ⟨c', hc'⟩ := h.exists_configures hc
    have haddress : c.peerAddress = c'.peerAddress := h .connection (Nat.le_refl _) c c' hc hc'
    exact .address hc' (haddress ▸ huri)
  | @proof c pem htrusts huri hproof =>
    obtain ⟨c', htrusts'⟩ := h.exists_trusts (by decide) htrusts
    have haddress : c.peerAddress = c'.peerAddress :=
      h .connection (Nat.le_refl _) c c' htrusts.1 htrusts'.1
    rw [Configuration.serverName, haddress] at hproof
    exact .proof htrusts' (haddress ▸ huri) hproof
  | @identity c e hc he =>
    obtain ⟨c', hc'⟩ := h.exists_configures hc
    obtain ⟨hdirectory, hsame⟩ := h .identity (Nat.le_refl _) c c' hc hc'
    exact .identity hc' (hsame.loadIdentity_error hdirectory he)
  | @privateKey c e hc he =>
    obtain ⟨c', hc'⟩ := h.exists_configures hc
    obtain ⟨hdirectory, hsame⟩ := h .privateKey (Nat.le_refl _) c c' hc hc'
    exact .privateKey hc' ((hsame.loadSigner_eq hdirectory).symm.trans he)

theorem failsFirst (h : SameUpTo s w w') (hfirst : FailsFirst w s f) : FailsFirst w' s f := by
  refine ⟨h.fails hfirst.1, fun t ht g hg => ?_⟩
  exact hfirst.2 t ht g ((h.mono (Nat.le_of_lt ht)).symm.fails hg)

end SameUpTo

end Same

/-! ### Runs -/

section Run

variable {w : Surroundings} {peer : Peer} {occasion : Occasion} {function : String}
  {arguments : List String} {s : Stage} {f : Failure} {ready : Ready}

theorem failsFirst_configuration {names : List String}
    (h : Configuration.load w.lookup = .error names) :
    FailsFirst w .configuration (.plain (.ofMissing names)) :=
  ⟨.configuration h, fun _ ht => absurd ht (Nat.not_lt_zero _)⟩

theorem failsFirst_action {c : Configuration} {e : Error} (hc : w.Configures c)
    (he : Action.parse w.word = .error e) : FailsFirst w .action (.plain e) :=
  ⟨.action he, Stage.passes_of_lt_succ (fun _ ht => absurd ht (Nat.not_lt_zero _))
    (Stage.passes_configuration hc)⟩

theorem prepare_eq_ok_iff : prepare w.lookup w.disk w.word = .ok ready ↔ Opens w ready := by
  constructor
  · intro h
    have hsettles := prepare_settles w
    rw [h] at hsettles
    cases hsettles with
    | ready hopens => exact hopens
  · exact (prepare_settles w).eq_ok

theorem prepare_eq_error_iff :
    prepare w.lookup w.disk w.word = .error f ↔ ∃ s, FailsFirst w s f := by
  constructor
  · intro h
    have hsettles := prepare_settles w
    rw [h] at hsettles
    cases hsettles with
    | failure hfirst => exact ⟨_, hfirst⟩
  · rintro ⟨s, hfirst⟩
    exact (prepare_settles w).eq_error hfirst

/-- The session does what it is asked, and the calls are those it makes. -/
theorem run_of_opens (h : Opens w ready) :
    run w.lookup w.disk peer occasion ⟨w.word, function, arguments⟩ =
      let r := ready.session.perform ready.action ready.contract peer occasion function arguments
      (r.calls, r.outcome.mapError .plain) := by
  rw [run, prepare_eq_ok_iff.mpr h]

theorem run_of_failsFirst (h : FailsFirst w s f) :
    run w.lookup w.disk peer occasion ⟨w.word, function, arguments⟩ = ([], .error f) := by
  rw [run, prepare_eq_error_iff.mpr ⟨s, h⟩]

end Run

/-- **The stages come in a fixed order, and the first failure is the end.**  The session is opened
exactly if no stage fails, and only a session makes calls.  Otherwise the failure of the first stage
that fails is reported, whatever the peer, the function and the arguments are, and whatever later
stages find.  That variables are missing hides that the word stands for no action, and neither has
to do with the disk. -/
theorem run_stages (w : Surroundings) (peer : Peer) (occasion : Occasion) (function : String)
    (arguments : List String) :
    ((∃ ready, Opens w ready) ↔ ∀ s : Stage, s.Passes w) ∧
    (∀ ready, prepare w.lookup w.disk w.word = .ok ready ↔ Opens w ready) ∧
    (∀ ready, Opens w ready →
      run w.lookup w.disk peer occasion ⟨w.word, function, arguments⟩ =
        let r := ready.session.perform ready.action ready.contract peer occasion function arguments
        (r.calls, r.outcome.mapError .plain)) ∧
    ((∃ ready, Opens w ready) ∨ ∃ s f, FailsFirst w s f) ∧
    (∀ s f, FailsFirst w s f → ∀ w', SameUpTo s w w' →
      run w'.lookup w'.disk peer occasion ⟨w'.word, function, arguments⟩ = ([], .error f)) ∧
    (∀ names, Configuration.load w.lookup = .error names → ∀ disk word,
      run w.lookup disk peer occasion ⟨word, function, arguments⟩ =
        ([], .error (.plain (.ofMissing names)))) ∧
    ∀ c e, Configuration.load w.lookup = .ok c → Action.parse w.word = .error e → ∀ disk,
      run w.lookup disk peer occasion ⟨w.word, function, arguments⟩ = ([], .error (.plain e)) := by
  refine ⟨exists_opens_iff, fun ready => prepare_eq_ok_iff, fun ready h => run_of_opens h,
    exists_opens_or_failsFirst w, ?_, ?_, ?_⟩
  · intro s f hfirst w' hsame
    exact run_of_failsFirst (hsame.failsFirst hfirst)
  · intro names hnames disk word
    exact run_of_failsFirst (w := ⟨w.lookup, disk, word⟩) (failsFirst_configuration hnames)
  · intro c e hc he disk
    exact run_of_failsFirst (w := ⟨w.lookup, disk, w.word⟩) (failsFirst_action hc he)

/-! ### A client that gets ready -/

/-- A certificate of version one with an empty key and an empty signature. -/
def emptyCertificate : Bytes :=
  let algorithm := Asn1.write Asn1.sequence (Asn1.write Asn1.objectIdentifier [0x2A])
  let bits := Asn1.write Asn1.bitString [0]
  let name := Asn1.write Asn1.sequence []
  let time := Asn1.write Asn1.utcTime (Pem.ascii "250101000000Z")
  let parts := Asn1.writeNatural 1 ++ algorithm ++ name ++ Asn1.write Asn1.sequence (time ++ time) ++
    name ++ Asn1.write Asn1.sequence (algorithm ++ bits)
  Asn1.write Asn1.sequence (Asn1.write Asn1.sequence parts ++ algorithm ++ bits)

/-- A disk with the certificate wherever a file is asked for, but for the directory of keys. -/
def sampleDisk : Disk where
  list path := .ok [if path = "/msp/keystore" then "key" else "certificate"]
  isFile _ := .ok true
  read path := .ok <|
    if path = "/msp/keystore/key" then
      Pem.writeKeyText Signer.shortLabel (Key.toSec1 Signer.one false false)
    else Pem.writeKeyText Pem.certificateLabel emptyCertificate

def sampleLookup (name : String) : Option String :=
  some (if name = Configuration.mspConfigPathVariable then "/msp" else "localhost")

/-- The session is opened there, and for a word that stands for no action nothing is looked at on
the disk. -/
theorem run_stages_sample :
    (∃ ready, Opens ⟨sampleLookup, sampleDisk, "submit"⟩ ready) ∧
    ∀ disk, run sampleLookup disk .unreachable ⟨[], {}⟩ ⟨"no", "Pay", []⟩ =
      ([], .error (.plain (.invalidAction "no"))) := by
  have hready : (prepare sampleLookup sampleDisk "submit").isOk = true := by decide +kernel
  have hload : (Configuration.load sampleLookup).isOk = true := by decide +kernel
  have hlower : Text.lowerCase "no" = "no" := by decide +kernel
  have hword : Action.parse "no" = .error (.invalidAction "no") := by
    simp [Action.parse, hlower, Action.name]
  constructor
  · obtain ⟨-, hopens, -⟩ :=
      run_stages ⟨sampleLookup, sampleDisk, "submit"⟩ .unreachable ⟨[], {}⟩ "Pay" []
    cases hprepare : prepare sampleLookup sampleDisk "submit" with
    | error f => rw [hprepare] at hready; cases hready
    | ok ready => exact ⟨ready, (hopens ready).mp hprepare⟩
  · obtain ⟨-, -, -, -, -, -, haction⟩ :=
      run_stages ⟨sampleLookup, sampleDisk, "no"⟩ .unreachable ⟨[], {}⟩ "Pay" []
    cases hconfiguration : Configuration.load sampleLookup with
    | error names => rw [hconfiguration] at hload; cases hload
    | ok c => exact haction c _ hconfiguration hword

end LedgerGateway.Client
