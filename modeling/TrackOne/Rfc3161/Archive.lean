import TrackOne.Rfc3161.GenerationTime

/-!
# The archive of certificates and revocation lists

`validate_archive_applicability` and `validate_crl_for_certificate` of
`trackone-rfc3161/src/lib.rs`: from the certificate of the signer up to an anchor, each certificate
needs one revocation list that covers the time and does not revoke it. Certificates and lists come
parsed; the parsers of the `x509-cert` package are parameters.

* `Path`: the path that an archive determines, with a property of the certificates on it.
* `Passes` and `validateCrlForCertificate_eq_ok`: what the check of one list looks at: the first
  entry of a serial number and the first distribution point.
* `validateArchiveApplicability_eq_ok`: the loop accepts exactly the paths that are not too long.
* `archive_check_exact`: no revoked certificate passes, exactly when no list on the path says
  something behind what is looked at.
-/

namespace TrackOne.Rfc3161

/-- The tested fields of a certificate. -/
structure Certificate (Name Serial : Type) where
  subject : Name
  issuer : Name
  serialNumber : Serial
deriving DecidableEq

/-- An extension: the arcs of its identifier, and its value. -/
structure Extension where
  extnId : List Nat
  extnValue : Bytes
deriving DecidableEq

structure RevokedCert (Serial : Type) where
  serialNumber : Serial
  revocationDate : UnixTime
deriving DecidableEq

structure CertificateList (Name Serial : Type) where
  issuer : Name
  thisUpdate : UnixTime
  nextUpdate : Option UnixTime
  revokedCertificates : Option (List (RevokedCert Serial))
  crlExtensions : Option (List Extension)
deriving DecidableEq

def idCeDeltaCrlIndicator : List Nat := [2, 5, 29, 27]

def idCeIssuingDistributionPoint : List Nat := [2, 5, 29, 28]

def maxCertificates : Nat := 8

/-- The parsers: of a certificate, and of the `indirectCRL` flag of a distribution point. -/
structure X509 (Name Serial : Type) where
  certificateFromDer : Bytes → Except String (Certificate Name Serial)
  indirectCrlFromDer : Bytes → Except String Bool

section

variable {Name Serial : Type} [DecidableEq Name] [DecidableEq Serial] (x509 : X509 Name Serial)

/-! ## The code -/

/-- The check of the first distribution point. -/
def validateDistributionPoint (extensions : List Extension) : Except TimestampError Unit :=
  match extensions.find? fun extension => extension.extnId = idCeIssuingDistributionPoint with
  | none => .ok ()
  | some extension => do
    let indirectCrl ← (x509.indirectCrlFromDer extension.extnValue).mapError .malformed
    Except.require
      (.historicalValidation "indirect CRLs are outside the VTL deployment archive profile")
      (!indirectCrl)

/-- The checks of the extensions of a list. -/
def validateCrlExtensions : Option (List Extension) → Except TimestampError Unit
  | none => .ok ()
  | some extensions => do
    Except.require
      (.historicalValidation "delta CRLs are outside the VTL deployment archive profile")
      (!extensions.any fun extension => extension.extnId = idCeDeltaCrlIndicator)
    validateDistributionPoint x509 extensions

/-- The check of the first entry for the serial number. -/
def validateRevocation (revokedCertificates : Option (List (RevokedCert Serial)))
    (serialNumber : Serial) (atTime : UInt64) : Except TimestampError Unit :=
  match revokedCertificates with
  | none => .ok ()
  | some revoked =>
    match revoked.find? fun entry => entry.serialNumber = serialNumber with
    | none => .ok ()
    | some entry => Except.require
        (.historicalValidation "certificate was revoked at or before the TSA-asserted genTime")
        (!decide (entry.revocationDate.1 ≤ atTime))

def validateCrlForCertificate (crl : CertificateList Name Serial)
    (certificate : Certificate Name Serial) (time : TimestampGenerationTime) :
    Except TimestampError Unit := do
  validateCrlExtensions x509 crl.crlExtensions
  let atTime := time.unixSeconds
  Except.require (.historicalValidation "CRL thisUpdate is later than the TSA-asserted genTime")
    (!decide (atTime < crl.thisUpdate.1))
  let nextUpdate ← Except.ofOption
    (.historicalValidation "a historical CRL must include nextUpdate") crl.nextUpdate
  Except.require (.historicalValidation "CRL does not cover the TSA-asserted genTime")
    (!decide (nextUpdate.1 ≤ atTime))
  validateRevocation crl.revokedCertificates certificate.serialNumber atTime

/-- The deployment archive. -/
structure Archive (Name Serial : Type) where
  anchors : List (Certificate Name Serial)
  intermediates : List (Certificate Name Serial)
  crls : List (CertificateList Name Serial)

namespace Archive

variable (archive : Archive Name Serial)

def applicable (current : Certificate Name Serial) : List (CertificateList Name Serial) :=
  archive.crls.filter fun crl => crl.issuer = current.issuer

def issuerIntermediates (current : Certificate Name Serial) : List (Certificate Name Serial) :=
  archive.intermediates.filter fun certificate => certificate.subject = current.issuer

def issuerAnchors (current : Certificate Name Serial) : List (Certificate Name Serial) :=
  archive.anchors.filter fun certificate => certificate.subject = current.issuer

end Archive

/-- What the certificates with the name of the issuer say: nothing when it is one anchor, else the
certificate to go on with. -/
def nextOf (issuerIntermediates issuerAnchors : List (Certificate Name Serial)) :
    Except TimestampError (Option (Certificate Name Serial)) :=
  match issuerIntermediates, issuerAnchors with
  | [], [_] => .ok none
  | [next], [] => .ok (some next)
  | _, _ => .error (.historicalValidation
      "certification path is missing or ambiguous in the deployment archive")

/-- The body of the loop behind the test of the depth: nothing when the loop is left, else the
certificate it goes on with. -/
def pathStep (archive : Archive Name Serial) (time : TimestampGenerationTime)
    (current : Certificate Name Serial) :
    Except TimestampError (Option (Certificate Name Serial)) := do
  match archive.applicable current with
  | [crl] => validateCrlForCertificate x509 crl current time
  | applicable => throw (.historicalValidation
      ("expected exactly one complete base CRL for non-root certificate issuer; found "
        ++ toString applicable.length))
  nextOf (archive.issuerIntermediates current) (archive.issuerAnchors current)

/-- The loop, for a number of iterations; nothing when they do not suffice. -/
def pathLoop (archive : Archive Name Serial) (time : TimestampGenerationTime) :
    (iterations depth : Nat) → (current : Certificate Name Serial) →
      Option (Except TimestampError Unit)
  | 0, _, _ => none
  | iterations + 1, depth, current =>
    if maxCertificates < depth + 1 then
      some (.error (.historicalValidation "certification path exceeds the profile depth limit"))
    else
      match pathStep x509 archive time current with
      | .error error => some (.error error)
      | .ok none => some (.ok ())
      | .ok (some next) => pathLoop archive time iterations (depth + 1) next

def validateArchiveApplicability (iterations : Nat) (signerDer : Bytes)
    (archive : Archive Name Serial) (time : TimestampGenerationTime) :
    Option (Except TimestampError Unit) :=
  match x509.certificateFromDer signerDer with
  | .error error => some (.error (.malformed error))
  | .ok signer => pathLoop x509 archive time iterations 0 signer

/-! ## What the check of a list finds -/

variable {x509}

/-- A list that is not a delta. -/
def NotDelta (extensions : List Extension) : Prop :=
  ∀ extension ∈ extensions, extension.extnId ≠ idCeDeltaCrlIndicator

omit [DecidableEq Name] [DecidableEq Serial] in
/-- The extensions pass when the list is no delta and its first distribution point, if it has one,
does not say that it is indirect. -/
theorem validateCrlExtensions_eq_ok {extensions : List Extension} :
    validateCrlExtensions x509 (some extensions) = .ok ()
      ↔ NotDelta extensions ∧ ∀ first, extensions.find?
          (fun extension => extension.extnId = idCeIssuingDistributionPoint) = some first →
        x509.indirectCrlFromDer first.extnValue = .ok false := by
  have hpoint : validateDistributionPoint x509 extensions = .ok () ↔ ∀ first, extensions.find?
      (fun extension => extension.extnId = idCeIssuingDistributionPoint) = some first →
        x509.indirectCrlFromDer first.extnValue = .ok false := by
    unfold validateDistributionPoint
    cases extensions.find? fun extension => extension.extnId = idCeIssuingDistributionPoint with
    | none => simp
    | some first =>
      simp only [Except.bind_eq_ok, Except.mapError_eq_ok, Except.require_eq_ok, Option.some.injEq,
        forall_eq', Bool.not_eq_true']
      constructor
      · rintro ⟨indirectCrl, hdecoded, rfl⟩
        exact hdecoded
      · intro hdecoded
        exact ⟨false, hdecoded, rfl⟩
  simp only [validateCrlExtensions, Except.bind_eq_ok, Except.require_eq_ok, hpoint, NotDelta]
  simp

omit [DecidableEq Name] in
/-- The entries pass when the first one for the serial number, if there is one, is of a later
second. -/
theorem validateRevocation_eq_ok {revoked : Option (List (RevokedCert Serial))}
    {serialNumber : Serial} {atTime : UInt64} :
    validateRevocation revoked serialNumber atTime = .ok ()
      ↔ ∀ entries first, revoked = some entries →
        entries.find? (fun entry => entry.serialNumber = serialNumber) = some first →
          atTime < first.revocationDate.1 := by
  unfold validateRevocation
  cases revoked with
  | none => simp
  | some entries =>
    dsimp only
    cases hfind : entries.find? fun entry => entry.serialNumber = serialNumber with
    | none =>
      refine iff_of_true rfl fun entries' first heq hfirst => ?_
      rw [← Option.some.inj heq, hfind] at hfirst
      cases hfirst
    | some first =>
      simp only [Except.require_eq_ok, Bool.not_eq_true', decide_eq_false_iff_not, UInt64.not_le]
      constructor
      · intro hlater entries' first' heq hfirst
        rw [← Option.some.inj heq, hfind] at hfirst
        rwa [← Option.some.inj hfirst]
      · intro h
        exact h entries first rfl hfind

variable (x509) in
/-- What the check of one list looks at, in whole seconds: the extensions up to the first
distribution point, the two updates, and the entries up to the first one for the serial number. -/
structure Passes (crl : CertificateList Name Serial) (certificate : Certificate Name Serial)
    (seconds : UInt64) : Prop where
  not_delta : ∀ extensions, crl.crlExtensions = some extensions → NotDelta extensions
  first_point : ∀ extensions first, crl.crlExtensions = some extensions →
    extensions.find? (fun extension => extension.extnId = idCeIssuingDistributionPoint)
      = some first → x509.indirectCrlFromDer first.extnValue = .ok false
  thisUpdate_le : crl.thisUpdate.1 ≤ seconds
  lt_nextUpdate : ∃ nextUpdate, crl.nextUpdate = some nextUpdate ∧ seconds < nextUpdate.1
  first_entry : ∀ revoked first, crl.revokedCertificates = some revoked →
    revoked.find? (fun entry => entry.serialNumber = certificate.serialNumber) = some first →
      seconds < first.revocationDate.1

omit [DecidableEq Name] in
/-- The check of one list looks at the first distribution point and at the first entry. -/
theorem validateCrlForCertificate_eq_ok {crl : CertificateList Name Serial}
    {certificate : Certificate Name Serial} {time : TimestampGenerationTime} :
    validateCrlForCertificate x509 crl certificate time = .ok ()
      ↔ Passes x509 crl certificate time.unixSeconds := by
  have hextensions : validateCrlExtensions x509 crl.crlExtensions = .ok ()
      ↔ ∀ extensions, crl.crlExtensions = some extensions → NotDelta extensions ∧ ∀ first,
        extensions.find? (fun extension => extension.extnId = idCeIssuingDistributionPoint)
          = some first → x509.indirectCrlFromDer first.extnValue = .ok false := by
    cases crl.crlExtensions with
    | none => exact iff_of_true rfl fun extensions hsome => by cases hsome
    | some extensions =>
      simp only [validateCrlExtensions_eq_ok, Option.some.injEq, forall_eq']
  simp only [validateCrlForCertificate, Except.bind_eq_ok, Except.require_eq_ok,
    Except.ofOption_eq_ok, Bool.not_eq_true', decide_eq_false_iff_not, UInt64.not_lt, UInt64.not_le]
  constructor
  · rintro ⟨u, hlist, u', hthis, next, hnext, u'', hcovers, hrevocation⟩
    exact ⟨fun extensions hsome => (hextensions.mp hlist extensions hsome).1,
      fun extensions first hsome => (hextensions.mp hlist extensions hsome).2 first, hthis,
      ⟨next, hnext, hcovers⟩, validateRevocation_eq_ok.mp hrevocation⟩
  · rintro ⟨hdelta, hpoint, hthis, ⟨next, hnext, hcovers⟩, hentry⟩
    exact ⟨(), hextensions.mpr fun extensions hsome =>
      ⟨hdelta extensions hsome, fun first => hpoint extensions first hsome⟩, (), hthis, next, hnext,
      (), hcovers, validateRevocation_eq_ok.mpr hentry⟩

/-! ## Paths -/

/-- The path from a certificate up to an anchor: every issuer but the last is one intermediate and
no anchor, the last is one anchor and no intermediate; and `P` holds of every certificate on it. -/
inductive Path (archive : Archive Name Serial) (P : Certificate Name Serial → Prop) :
    Certificate Name Serial → List (Certificate Name Serial) → Prop
  | anchored {current anchor} (hP : P current) (hnone : archive.issuerIntermediates current = [])
      (hone : archive.issuerAnchors current = [anchor]) : Path archive P current [current]
  | link {current next path} (hP : P current) (hone : archive.issuerIntermediates current = [next])
      (hnone : archive.issuerAnchors current = []) (hnext : Path archive P next path) :
      Path archive P current (current :: path)

omit [DecidableEq Serial] in
theorem Path.mono {archive : Archive Name Serial} {P Q : Certificate Name Serial → Prop}
    {current : Certificate Name Serial} {path : List (Certificate Name Serial)}
    (h : Path archive P current path) (hPQ : ∀ certificate ∈ path, P certificate → Q certificate) :
    Path archive Q current path := by
  induction h with
  | anchored hP hnone hone => exact .anchored (hPQ _ List.mem_cons_self hP) hnone hone
  | link hP hone hnone hnext ih =>
    exact .link (hPQ _ List.mem_cons_self hP) hone hnone
      (ih fun certificate hmem => hPQ certificate (List.mem_cons_of_mem _ hmem))

omit [DecidableEq Serial] in
theorem Path.forall_mem {archive : Archive Name Serial} {P : Certificate Name Serial → Prop}
    {current : Certificate Name Serial} {path : List (Certificate Name Serial)}
    (h : Path archive P current path) : ∀ certificate ∈ path, P certificate := by
  induction h with
  | anchored hP => simpa using hP
  | link hP _ _ _ ih => exact List.forall_mem_cons.mpr ⟨hP, ih⟩

omit [DecidableEq Serial] in
/-- The archive determines the path. -/
theorem Path.unique {archive : Archive Name Serial} {P Q : Certificate Name Serial → Prop}
    {current : Certificate Name Serial} {path path' : List (Certificate Name Serial)}
    (h : Path archive P current path) (h' : Path archive Q current path') : path = path' := by
  induction h generalizing path' with
  | anchored _ hnone hone =>
    cases h' with
    | anchored => rfl
    | link _ hone' => rw [hnone] at hone'; cases hone'
  | link _ hone _ _ ih =>
    cases h' with
    | anchored _ hnone' => rw [hone] at hnone'; cases hnone'
    | link _ hone' _ hnext' =>
      rw [hone] at hone'
      obtain ⟨rfl, -⟩ := List.cons.inj hone'
      rw [ih hnext']

/-! ## What the code checks -/

variable (x509) in
/-- The one list of the issuer passes the check. -/
def Checked (archive : Archive Name Serial) (time : TimestampGenerationTime)
    (current : Certificate Name Serial) : Prop :=
  ∃ crl, archive.applicable current = [crl] ∧ Passes x509 crl current time.unixSeconds

omit [DecidableEq Name] [DecidableEq Serial] in
theorem nextOf_eq_ok {intermediates anchors : List (Certificate Name Serial)}
    {next : Option (Certificate Name Serial)} :
    nextOf intermediates anchors = .ok next
      ↔ (next = none ∧ intermediates = [] ∧ ∃ anchor, anchors = [anchor])
        ∨ ∃ issuer, next = some issuer ∧ intermediates = [issuer] ∧ anchors = [] := by
  rcases intermediates with _ | ⟨a, _ | ⟨a', as⟩⟩ <;> rcases anchors with _ | ⟨b, _ | ⟨b', bs⟩⟩ <;>
    simp [nextOf, eq_comm]

theorem pathStep_eq_ok {archive : Archive Name Serial} {time : TimestampGenerationTime}
    {current : Certificate Name Serial} {next : Option (Certificate Name Serial)} :
    pathStep x509 archive time current = .ok next
      ↔ Checked x509 archive time current
        ∧ ((next = none ∧ archive.issuerIntermediates current = []
            ∧ ∃ anchor, archive.issuerAnchors current = [anchor])
          ∨ ∃ issuer, next = some issuer ∧ archive.issuerIntermediates current = [issuer]
            ∧ archive.issuerAnchors current = []) := by
  unfold pathStep Checked
  rcases happlicable : archive.applicable current with _ | ⟨crl, _ | ⟨crl', crls⟩⟩
  · refine iff_of_false (fun h => by cases h) ?_
    rintro ⟨⟨crl, h, -⟩, -⟩
    cases h
  · rw [Except.bind_eq_ok]
    simp only [nextOf_eq_ok, List.cons.injEq, and_true, exists_eq_left']
    constructor
    · rintro ⟨u, hcheck, hnext⟩
      exact ⟨validateCrlForCertificate_eq_ok.mp hcheck, hnext⟩
    · rintro ⟨hpasses, hnext⟩
      exact ⟨(), validateCrlForCertificate_eq_ok.mpr hpasses, hnext⟩
  · refine iff_of_false (fun h => by cases h) ?_
    rintro ⟨⟨crl, h, -⟩, -⟩
    simp at h

/-- The loop ends within nine iterations, whatever the archive says. -/
theorem exists_pathLoop (archive : Archive Name Serial) (time : TimestampGenerationTime)
    {iterations depth : Nat} (h : maxCertificates < iterations + depth)
    (current : Certificate Name Serial) :
    depth ≤ maxCertificates →
      ∃ result, pathLoop x509 archive time iterations depth current = some result := by
  induction iterations generalizing depth current with
  | zero =>
    intro hle
    omega
  | succ iterations ih =>
    intro hle
    rw [pathLoop]
    split_ifs with hdepth
    · exact ⟨_, rfl⟩
    · cases hstep : pathStep x509 archive time current with
      | error error => exact ⟨_, rfl⟩
      | ok next =>
        cases next with
        | none => exact ⟨_, rfl⟩
        | some next => exact ih (by omega) next (by omega)

/-- The loop accepts exactly the checked paths that are not too long. -/
theorem pathLoop_eq_ok {archive : Archive Name Serial} {time : TimestampGenerationTime}
    {iterations depth : Nat} (h : maxCertificates < iterations + depth)
    (hle : depth ≤ maxCertificates) {current : Certificate Name Serial} :
    pathLoop x509 archive time iterations depth current = some (.ok ())
      ↔ ∃ path, path.length + depth ≤ maxCertificates
        ∧ Path archive (Checked x509 archive time) current path := by
  induction iterations generalizing depth current with
  | zero => omega
  | succ iterations ih =>
    rw [pathLoop]
    split_ifs with hdepth
    -- too deep: a path of at least one certificate does not fit
    · refine iff_of_false (fun heq => by cases heq) ?_
      rintro ⟨path, hlength, hpath⟩
      have hpos : 0 < path.length := by cases hpath <;> simp
      omega
    · cases hstep : pathStep x509 archive time current with
      | error error =>
        refine iff_of_false (fun heq => by cases heq) ?_
        rintro ⟨path, -, hpath⟩
        -- a path has a first step
        have hsome : ∃ next, pathStep x509 archive time current = .ok next := by
          cases hpath with
          | anchored hP hnone hone => exact ⟨_, pathStep_eq_ok.mpr ⟨hP, .inl ⟨rfl, hnone, _, hone⟩⟩⟩
          | link hP hone hnone => exact ⟨_, pathStep_eq_ok.mpr ⟨hP, .inr ⟨_, rfl, hone, hnone⟩⟩⟩
        obtain ⟨next, hnext⟩ := hsome
        rw [hstep] at hnext
        cases hnext
      | ok next =>
        obtain ⟨hP, ⟨rfl, hnone, anchor, hone⟩ | ⟨issuer, rfl, hone, hnone⟩⟩ :=
          pathStep_eq_ok.mp hstep
        -- the path ends here
        · refine iff_of_true rfl ⟨[current], ?_, .anchored hP hnone hone⟩
          rw [List.length_singleton]
          omega
        -- the path goes on: what is left of it is one shorter
        · dsimp only
          rw [ih (by omega) (by omega)]
          constructor
          · rintro ⟨path, hlength, hpath⟩
            refine ⟨current :: path, ?_, .link hP hone hnone hpath⟩
            rw [List.length_cons]
            omega
          · rintro ⟨path, hlength, hpath⟩
            cases hpath with
            | anchored _ hnone' => rw [hone] at hnone'; cases hnone'
            | link _ hone' _ hnext =>
              rw [hone] at hone'
              obtain ⟨rfl, -⟩ := List.cons.inj hone'
              rw [List.length_cons] at hlength
              exact ⟨_, by omega, hnext⟩

/-! ## What a list says -/

variable (x509) in
/-- No distribution point of the list says that it is indirect. -/
def NotIndirect (extensions : List Extension) : Prop :=
  ∀ extension ∈ extensions, extension.extnId = idCeIssuingDistributionPoint →
    x509.indirectCrlFromDer extension.extnValue ≠ .ok true

variable (x509) in
/-- The list covers the time, and does not revoke the certificate at or before it. Times are
compared with the exact instant. -/
structure Covers (crl : CertificateList Name Serial) (certificate : Certificate Name Serial)
    (instant : ℚ) : Prop where
  not_delta : ∀ extensions, crl.crlExtensions = some extensions → NotDelta extensions
  not_indirect : ∀ extensions, crl.crlExtensions = some extensions → NotIndirect x509 extensions
  thisUpdate_le : (crl.thisUpdate.1.toNat : ℚ) ≤ instant
  lt_nextUpdate : ∃ nextUpdate, crl.nextUpdate = some nextUpdate
    ∧ instant < (nextUpdate.1.toNat : ℚ)
  not_revoked : ∀ revoked, crl.revokedCertificates = some revoked → ∀ entry ∈ revoked,
    entry.serialNumber = certificate.serialNumber → instant < (entry.revocationDate.1.toNat : ℚ)

/-- An element behind the first one with the property. -/
def Behind {α : Type} (p : α → Bool) (items : List α) (item : α) : Prop :=
  ∃ before after, items = before ++ item :: after ∧ ∃ first ∈ before, p first = true

variable (x509) in
/-- The list says more than is looked at: behind the first entry for the serial number there is
another one, of a time at or before the instant; or behind the first distribution point there is
another one, that says that the list is indirect. -/
def SaysMore (crl : CertificateList Name Serial) (certificate : Certificate Name Serial)
    (instant : ℚ) : Prop :=
  (∃ revoked entry, crl.revokedCertificates = some revoked
      ∧ Behind (fun e => e.serialNumber = certificate.serialNumber) revoked entry
      ∧ entry.serialNumber = certificate.serialNumber
      ∧ (entry.revocationDate.1.toNat : ℚ) ≤ instant)
    ∨ ∃ extensions extension, crl.crlExtensions = some extensions
      ∧ Behind (fun e => e.extnId = idCeIssuingDistributionPoint) extensions extension
      ∧ extension.extnId = idCeIssuingDistributionPoint
      ∧ x509.indirectCrlFromDer extension.extnValue = .ok true

/-- A whole second is at or before the instant when it is at or before its whole second. -/
theorem seconds_le_instant (time : TimestampGenerationTime) (seconds : UInt64) :
    (seconds.toNat : ℚ) ≤ time.instant ↔ seconds ≤ time.unixSeconds := by
  have hlow := fractionValue_nonneg time.fractionalSeconds
  have hhigh := fractionValue_lt_one time.fractionalSeconds
  rw [UInt64.le_iff_toNat_le, TimestampGenerationTime.instant]
  constructor
  · intro h
    by_contra hlt
    have : (time.unixSeconds.toNat : ℚ) + 1 ≤ seconds.toNat := by exact_mod_cast not_le.mp hlt
    linarith
  · intro h
    have : (seconds.toNat : ℚ) ≤ time.unixSeconds.toNat := by exact_mod_cast h
    linarith

/-- What is not the first of its kind is behind the first. -/
theorem behind_of_find {α : Type} {p : α → Bool} {items : List α} {first item : α}
    (hfirst : items.find? p = some first) (hmem : item ∈ items) (hp : p item = true)
    (hne : item ≠ first) : Behind p items item := by
  obtain ⟨hpfirst, before, after, rfl, hbefore⟩ := List.find?_eq_some_iff_append.mp hfirst
  rcases List.mem_append.mp hmem with hin | hin
  · have := hbefore item hin
    simp [hp] at this
  · rcases List.mem_cons.mp hin with heq | hafter
    · exact absurd heq hne
    · obtain ⟨left, right, rfl⟩ := List.append_of_mem hafter
      exact ⟨before ++ first :: left, right, by simp, first, by simp, hpfirst⟩

omit [DecidableEq Name] in
/-- A list that passes the check covers the certificate unless it says more. -/
theorem covers_iff {crl : CertificateList Name Serial} {certificate : Certificate Name Serial}
    {time : TimestampGenerationTime} (h : Passes x509 crl certificate time.unixSeconds) :
    Covers x509 crl certificate time.instant ↔ ¬ SaysMore x509 crl certificate time.instant := by
  constructor
  · rintro hcovered (⟨revoked, entry, hrevoked, ⟨before, after, rfl, -⟩, hserial, hdate⟩
      | ⟨extensions, extension, hsome, ⟨before, after, rfl, -⟩, hid, hindirect⟩)
    · have := hcovered.not_revoked _ hrevoked entry (by simp) hserial
      exact absurd hdate (not_le.mpr this)
    · exact hcovered.not_indirect _ hsome extension (by simp) hid hindirect
  · intro hmore
    obtain ⟨next, hnext, hcovers⟩ := h.lt_nextUpdate
    refine ⟨h.not_delta, ?_, (seconds_le_instant time _).mpr h.thisUpdate_le, ⟨next, hnext, ?_⟩, ?_⟩
    -- an indirect distribution point is not the first, so the list says more
    · intro extensions hsome extension hmem hid hindirect
      cases hfind : extensions.find? fun e => e.extnId = idCeIssuingDistributionPoint with
      | none =>
        have := List.find?_eq_none.mp hfind extension hmem
        simp [hid] at this
      | some first =>
        have hne : extension ≠ first := by
          rintro rfl
          rw [h.first_point extensions extension hsome hfind] at hindirect
          cases hindirect
        exact hmore (.inr ⟨extensions, extension, hsome,
          behind_of_find hfind hmem (by simpa using hid) hne, hid, hindirect⟩)
    · rw [← not_le, seconds_le_instant]
      exact UInt64.not_le.mpr hcovers
    -- an entry at or before the time is not the first of its serial number
    · intro revoked hrevoked entry hmem hserial
      rw [← not_le]
      intro hdate
      cases hfind : revoked.find? fun e => e.serialNumber = certificate.serialNumber with
      | none =>
        have := List.find?_eq_none.mp hfind entry hmem
        simp [hserial] at this
      | some first =>
        have hne : entry ≠ first := by
          rintro rfl
          have hlater := h.first_entry revoked entry hrevoked hfind
          exact absurd ((seconds_le_instant time _).mp hdate) (UInt64.not_le.mpr hlater)
        exact hmore (.inl ⟨revoked, entry, hrevoked,
          behind_of_find hfind hmem (by simpa using hserial) hne, hserial, hdate⟩)

variable (x509) in
/-- The one list of the issuer covers the certificate. -/
def Covered (archive : Archive Name Serial) (instant : ℚ)
    (current : Certificate Name Serial) : Prop :=
  ∃ crl, archive.applicable current = [crl] ∧ Covers x509 crl current instant

theorem covered_iff {archive : Archive Name Serial} {time : TimestampGenerationTime}
    {current : Certificate Name Serial} (h : Checked x509 archive time current) :
    Covered x509 archive time.instant current
      ↔ ∀ crl ∈ archive.applicable current, ¬ SaysMore x509 crl current time.instant := by
  obtain ⟨crl, hone, hcheck⟩ := h
  rw [Covered, hone, List.forall_mem_singleton, ← covers_iff hcheck]
  simp

theorem validateArchiveApplicability_eq_ok {signerDer : Bytes} {archive : Archive Name Serial}
    {time : TimestampGenerationTime} :
    validateArchiveApplicability x509 (maxCertificates + 1) signerDer archive time = some (.ok ())
      ↔ ∃ signer path, x509.certificateFromDer signerDer = .ok signer
        ∧ path.length ≤ maxCertificates ∧ Path archive (Checked x509 archive time) signer path := by
  unfold validateArchiveApplicability
  cases hsigner : x509.certificateFromDer signerDer with
  | error error => simp
  | ok signer =>
    dsimp only
    rw [pathLoop_eq_ok (by omega) (by omega)]
    simp

end

/-- **A revoked certificate passes only where a list says more than is looked at.** The loop ends
for every archive. And whenever the check succeeds there is a path of at most eight certificates
from the signer to one anchor, all but the anchor from the intermediates, with exactly one list for
each certificate, which covers it at the exact time, if and only if on the checked path no list
names the serial number again, behind the first entry and for a time at or before the generation
time, nor has a second distribution point that says that the list is indirect. -/
theorem archive_check_exact {Name Serial : Type} [DecidableEq Name] [DecidableEq Serial]
    (x509 : X509 Name Serial) (signerDer : Bytes) (archive : Archive Name Serial)
    (time : TimestampGenerationTime) :
    (∃ result, validateArchiveApplicability x509 (maxCertificates + 1) signerDer archive time
        = some result)
      ∧ ((validateArchiveApplicability x509 (maxCertificates + 1) signerDer archive time
            = some (.ok ()) →
          ∃ signer path, x509.certificateFromDer signerDer = .ok signer
            ∧ path.length ≤ maxCertificates
            ∧ Path archive (Covered x509 archive time.instant) signer path)
        ↔ ∀ signer path, x509.certificateFromDer signerDer = .ok signer →
          path.length ≤ maxCertificates → Path archive (Checked x509 archive time) signer path →
          ∀ certificate ∈ path, ∀ crl ∈ archive.applicable certificate,
            ¬ SaysMore x509 crl certificate time.instant) := by
  refine ⟨?_, ?_, ?_⟩
  · unfold validateArchiveApplicability
    cases x509.certificateFromDer signerDer with
    | error error => exact ⟨_, rfl⟩
    | ok signer => exact exists_pathLoop archive time (by omega) signer (by omega)
  · intro h signer path hsigner hlength hpath
    obtain ⟨signer', path', hsigner', -, hcovered⟩ := h
      (validateArchiveApplicability_eq_ok.mpr ⟨signer, path, hsigner, hlength, hpath⟩)
    obtain rfl : signer = signer' := Except.ok.inj (hsigner.symm.trans hsigner')
    obtain rfl := hpath.unique hcovered
    intro certificate hmem
    exact (covered_iff (hpath.forall_mem certificate hmem)).mp
      (hcovered.forall_mem certificate hmem)
  · intro h haccepted
    obtain ⟨signer, path, hsigner, hlength, hpath⟩ :=
      validateArchiveApplicability_eq_ok.mp haccepted
    refine ⟨signer, path, hsigner, hlength, hpath.mono fun certificate hmem hchecked => ?_⟩
    exact (covered_iff hchecked).mpr (h signer path hsigner hlength hpath certificate hmem)

/-! ### A list that names a serial number twice -/

/-- The certificate of the signer has serial number 7. -/
def sampleX509 : X509 Nat Nat where
  certificateFromDer _ := .ok ⟨1, 0, 7⟩
  indirectCrlFromDer _ := .ok false

/-- The list of the anchor revokes serial number 7 at 300, and then again at 100. -/
def sampleArchive : Archive Nat Nat where
  anchors := [⟨0, 0, 1⟩]
  intermediates := []
  crls := [{
    issuer := 0
    thisUpdate := ⟨50, by decide⟩
    nextUpdate := some ⟨400, by decide⟩
    revokedCertificates := some [⟨7, ⟨300, by decide⟩⟩, ⟨7, ⟨100, by decide⟩⟩]
    crlExtensions := none }]

def sampleTime : TimestampGenerationTime := ⟨⟨200, by decide⟩, none⟩

/-- The archive is accepted at 200, with the certificate revoked since 100. -/
theorem archive_check_misses_second_entry :
    validateArchiveApplicability sampleX509 (maxCertificates + 1) [] sampleArchive sampleTime
        = some (.ok ())
      ∧ ¬ ∃ signer path, sampleX509.certificateFromDer [] = .ok signer
        ∧ path.length ≤ maxCertificates
        ∧ Path sampleArchive (Covered sampleX509 sampleArchive sampleTime.instant) signer path := by
  refine ⟨by decide, ?_⟩
  rintro ⟨signer, path, hsigner, -, hpath⟩
  obtain rfl := Except.ok.inj hsigner
  obtain ⟨crl, hone, hcovers⟩ : Covered sampleX509 sampleArchive sampleTime.instant ⟨1, 0, 7⟩ := by
    cases hpath <;> assumption
  obtain ⟨rfl, -⟩ := List.cons.inj hone
  have hlater := hcovers.not_revoked _ rfl ⟨7, ⟨100, by decide⟩⟩ (by simp) rfl
  rw [← not_le, seconds_le_instant] at hlater
  exact hlater (by decide)

end TrackOne.Rfc3161
