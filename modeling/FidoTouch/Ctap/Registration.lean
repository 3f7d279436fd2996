import FidoTouch.Ctap.RecordForms
import FidoTouch.Ctap.RoundTrip
import FidoTouch.Ctap.StoreSearch

/-! What a successful authenticatorMakeCredential registers: the credential it makes, the key it answers with and what
it stores of them. -/
namespace FidoTouch.Ctap
open FidoTouch.Program Handler FidoTouch.Storage FidoTouch.Resident

-- The search for `Keeps` follows whole commands.
set_option synthInstance.maxSize 4096

variable [Sdk] {ε α : Type}

/-! ### Commands that change nothing that is loaded -/

/-- The flash is the same, and so is what the master key depends on in RAM. -/
theorem sameLoads_of_store {d d' : Device} (hstore : d'.store = d.store)
    (hkeydev : (d'.hasKeydevDec, d'.keydevDec, d'.sessionPin) = (d.hasKeydevDec, d.keydevDec, d.sessionPin)) : SameLoads d d' := by
  have hfiles : d'.files = d.files := by rw [Device.files_eq, Device.files_eq, hstore]
  obtain ⟨hhas, hdec, hsession⟩ : d'.hasKeydevDec = d.hasKeydevDec ∧ d'.keydevDec = d.keydevDec ∧ d'.sessionPin = d.sessionPin := by
    simpa only [Prod.mk.injEq] using hkeydev
  refine ⟨fun fid _ => by rw [hfiles], fun key => ?_⟩
  rw [keydevValue, keydevValue, hfiles, hhas, hdec, hsession]

/-- What is loaded is the same when a message starts. -/
theorem sameLoads_begun (d : Device) : SameLoads d (ticked d).forgotten := sameLoads_of_store (ticked_store d) (ticked_keydev d)

instance : Keeps SameLoads (getFiles : Handler Device ε Files) := keeps_of fun _ => sameLoads_of_store rfl rfl

instance (f : PinUvAuthToken → PinUvAuthToken) : Keeps SameLoads (modifyPaut f : Handler Device ε Unit) :=
  keeps_of fun _ => sameLoads_of_store rfl rfl

instance : Keeps SameLoads (sessionInvalidate : Handler Device ε Unit) := keeps_of fun _ => sameLoads_of_store rfl rfl

instance : Keeps SameLoads (waitButtonPressed : Handler Device ε Press) := keeps_of fun _ => sameLoads_of_store rfl rfl

instance : Keeps SameLoads (checkUserPresence : Handler Device ε Bool) := by
  unfold checkUserPresence
  have hasked (f : Device → List Bool) : Keeps SameLoads (modify fun d => { d with checks := f d } : Handler Device ε Unit) :=
    keeps_of fun _ => sameLoads_of_store rfl rfl
  infer_instance

instance : Keeps SameLoads (getUserVerifiedFlagValue : Handler Device ε Bool) := by
  unfold getUserVerifiedFlagValue
  infer_instance

instance : Keeps SameLoads (getUserPresentFlagValue : Handler Device ε Bool) := by
  unfold getUserPresentFlagValue
  infer_instance

instance : Keeps SameLoads (clearTokenFlags : Handler Device ε Unit) := by
  unfold clearTokenFlags clearUserPresentFlag clearUserVerifiedFlag clearPinUvAuthTokenPermissionsExceptLbw
  infer_instance

instance : Keeps SameLoads requireButton := by
  unfold requireButton
  infer_instance

instance (f : Entropy → Option (α × Nat)) : Keeps SameLoads (randomly f : Handler Device ε (Option α)) := keeps_of fun d => by
  unfold randomly
  split <;> exact sameLoads_of_store rfl rfl

instance (param : Option Bytes) (protocol : UInt64) : Keeps SameLoads (pinUvAuthParamChecks param protocol) := by
  unfold pinUvAuthParamChecks
  split <;> infer_instance

instance (protocol : UInt8) (key input : Bytes) : Keeps SameLoads (encrypt protocol key input : Handler Device ε Bytes) := by
  unfold encrypt
  infer_instance

instance (entries : List Bytes) : Keeps SameLoads (extensionMap entries) := by
  unfold extensionMap
  infer_instance

instance (key : EcKey) (md : Option Md) (hash : Block 64) (data : Bytes) : Keeps SameLoads (writeSignature key md hash data) := by
  unfold writeSignature
  infer_instance

section
variable [Fact KeydevCiphers] [ObjectLibrary]

instance (p : MakeCredentialParams) : Keeps SameLoads (mcVerifyParam p) := by
  unfold mcVerifyParam refuseParam refusePermission bindRp refuseUnverified claimRp
  split <;> infer_instance

instance (p : MakeCredentialParams) (flags : UInt8) (entry : Option Bytes × Option Bytes) :
    Keeps SameLoads (excludeStep p flags entry) := by
  have hexcluded (loaded : Except CtapError Credential) : Keeps SameLoads (refuseExcluded flags loaded) := by
    unfold refuseExcluded
    split <;> infer_instance
  unfold excludeStep
  split
  · split
    · infer_instance
    · split <;> infer_instance
  · infer_instance

instance (p : MakeCredentialParams) : Keeps SameLoads (mcPrepare p) := by
  unfold mcPrepare
  infer_instance

instance (p : MakeCredentialParams) : Keeps SameLoads (mcUserPresence p) := by
  unfold mcUserPresence requireUserPresent
  infer_instance

instance (h : HmacSecretParams) (seed : Bytes) (uv : Bool) : Keeps SameLoads (hmacSecretOutput h seed uv) := by
  unfold hmacSecretOutput
  infer_instance

instance (p : MakeCredentialParams) (keySeed : Bytes) (flags : UInt8) : Keeps SameLoads (mcExtensions p keySeed flags) := by
  have hmac : Keeps SameLoads (mcHmacSecret p keySeed flags) := by
    unfold mcHmacSecret
    split <;> infer_instance
  unfold mcExtensions
  infer_instance

instance (p : MakeCredentialParams) (key : EcKey) (data : Bytes) : Keeps SameLoads (attestationSignature p key data) := by
  unfold attestationSignature
  split
  · infer_instance
  · refine .bind inferInstance fun keydev => ?_
    split <;> infer_instance

instance (p : MakeCredentialParams) (keySeed : Bytes) : Keeps SameLoads (mcLargeBlobKey p keySeed) := by
  unfold mcLargeBlobKey
  infer_instance

end

/-! ### The algorithm -/

/-- An entry of the list whose keys can be made. -/
def supported (entry : Option Bytes × Int) : Bool := entry.1.any isPublicKey && (curveOfAlg entry.2).isSome

/-- Curve and algorithm of an entry. -/
def choiceOf (entry : Option Bytes × Int) : Option (Int × Int) := (curveOfAlg entry.2).map fun curve => (curve, entry.2)

private theorem selectStep_ok {chosen chosen' : Option (Int × Int)} {entry : Option Bytes × Int}
    (h : selectStep chosen entry = .ok chosen') : chosen' = chosen.or (if supported entry then choiceOf entry else none) := by
  obtain ⟨type, alg⟩ := entry
  cases type with
  | none => cases h
  | some type =>
    simp only [selectStep] at h
    split at h
    · cases h
    · split at h
      · next hskip =>
        cases h
        rcases hskip with hother | hchosen
        · rw [if_neg (by simp [supported, hother]), Option.or_none]
        · obtain ⟨c, hc⟩ := Option.isSome_iff_exists.mp hchosen
          rw [hc, Option.some_or]
      · next htake =>
        cases h
        obtain ⟨hkey, hnone⟩ := not_or.mp htake
        obtain rfl : chosen = none := by simpa using hnone
        rw [Option.none_or]
        cases hcurve : curveOfAlg alg <;> simp [supported, choiceOf, hcurve, hkey]

/-- The first supported entry is taken. By induction on the entries, with what was chosen before them. -/
theorem selectSteps_ok {entries : List (Option Bytes × Int)} {chosen chosen' : Option (Int × Int)}
    (h : entries.foldlM selectStep chosen = .ok chosen') : chosen' = chosen.or ((entries.find? supported).bind choiceOf) := by
  induction entries generalizing chosen with
  | nil =>
    cases h
    exact (Option.or_none).symm
  | cons entry entries ih =>
    rw [List.foldlM_cons] at h
    cases hstep : selectStep chosen entry with
    | error e =>
      rw [hstep] at h
      cases h
    | ok next =>
      rw [hstep] at h
      rw [ih h, selectStep_ok hstep, Option.or_assoc]
      by_cases hsupported : supported entry = true
      · rw [if_pos hsupported, List.find?_cons_of_pos hsupported]
        have hsome : (choiceOf entry).isSome := by
          simp only [supported, Bool.and_eq_true] at hsupported
          simpa [choiceOf] using hsupported.2
        obtain ⟨c, hc⟩ := Option.isSome_iff_exists.mp hsome
        simp only [Option.bind_some, hc, Option.some_or]
      · rw [if_neg hsupported, List.find?_cons_of_neg hsupported, Option.none_or]

theorem selectAlgorithm_first {p : MakeCredentialParams} {curve alg : Int} (h : selectAlgorithm p = .ok (curve, alg)) :
    ∃ entry, p.pubKeyCredParams.find? supported = some entry ∧ entry.2 = alg ∧ curveOfAlg alg = some curve := by
  unfold selectAlgorithm at h
  split at h
  · cases h
  · split at h
    · cases h
    · cases h
    · next hchosen =>
      cases h
      have hfirst := selectSteps_ok hchosen
      rw [Option.none_or] at hfirst
      obtain ⟨entry, hentry, hchoice⟩ := Option.bind_eq_some_iff.mp hfirst.symm
      obtain ⟨c, hc, hpair⟩ := Option.map_eq_some_iff.mp hchoice
      cases hpair
      exact ⟨entry, hentry, rfl, hc⟩

/-- Numbers of algorithms and curves are small. -/
theorem curveOfAlg_small {alg curve : Int} (h : curveOfAlg alg = some curve) : alg.natAbs < 2 ^ 64 ∧ curve.natAbs < 2 ^ 64 := by
  unfold curveOfAlg at h
  simp only [curveP256, curveP384, curveP521, curveBp256r1, curveBp384r1, curveBp512r1, curveP256k1, curveEd25519, curveEd448] at h
  split_ifs at h <;> cases h <;> omega

/-! ### What is registered -/

/-- The credential id in attested credential data, behind AAGUID and length. -/
def attestedId (attested : Bytes) : Bytes := (attested.drop 18).take (beNat ((attested.drop 16).take 2))

/-- The COSE key behind the credential id. -/
def attestedKey (attested : Bytes) : Bytes := (attested.drop 18).drop (beNat ((attested.drop 16).take 2))

omit [Sdk] in
private theorem beNat_be16 {n : Nat} (h : n < 65536) : beNat (be16 n) = n := by
  have hhigh : (UInt8.ofNat (n / 256)).toNat = n / 256 := by rw [UInt8.toNat_ofNat']; omega
  have hlow : (UInt8.ofNat n).toNat = n % 256 := UInt8.toNat_ofNat'
  simp only [beNat, be16, List.foldl_cons, List.foldl_nil, hhigh, hlow]
  omega

omit [Sdk] in
theorem attested_parts (cose : Bytes) {id : Bytes} (h : id.length < 65536) :
    attestedId (aaguid ++ be16 id.length ++ id ++ cose) = id ∧ attestedKey (aaguid ++ be16 id.length ++ id ++ cose) = cose := by
  have hlength : ((aaguid ++ be16 id.length ++ id ++ cose).drop 16).take 2 = be16 id.length := rfl
  have hrest : (aaguid ++ be16 id.length ++ id ++ cose).drop 18 = id ++ cose := rfl
  rw [attestedId, attestedKey, hlength, hrest, beNat_be16 h]
  exact ⟨List.take_left' rfl, List.drop_left' rfl⟩

section
variable [Fact KeydevCiphers] [ObjectLibrary]

/-- The credential that a request makes. -/
def MakeCredentialParams.credential (p : MakeCredentialParams) (curve alg : Int) : NewCredential :=
  ⟨p.rpId, p.userId, p.userName, p.userDisplayName, p.opts, p.extensions, useSignCount p.rpIdHash, alg, curve⟩

omit [Fact KeydevCiphers] [ObjectLibrary] in
theorem encodable_credential {p : MakeCredentialParams} {curve alg : Int} (hprotect : p.extensions.credProtect < 2 ^ 64)
    (clock : ∀ time, Sdk.rtcTime = some time → time < 2 ^ 64) (h : selectAlgorithm p = .ok (curve, alg)) :
    Encodable (p.credential curve alg) := by
  obtain ⟨entry, -, -, hcurve⟩ := selectAlgorithm_first h
  obtain ⟨halg, hsmall⟩ := curveOfAlg_small hcurve
  exact ⟨hprotect, halg, hsmall, clock⟩

/-- The id that the platform gets: a discoverable credential is known by the seed of its keys. -/
def MakeCredentialParams.answeredId (p : MakeCredentialParams) (credId : Bytes) : Bytes := if p.rk then deriveResident credId else credId

omit [ObjectLibrary] in
/-- The length of that id fits into its two bytes. -/
theorem answeredId_length (p : MakeCredentialParams) {c : NewCredential} {residue : Block 16} {d d' : Device} {credId : Bytes}
    (h : credentialCreate c residue d = (.ok credId, d')) : (p.answeredId credId).length < 65536 := by
  unfold MakeCredentialParams.answeredId
  split
  · rw [deriveResident_length]
    decide
  · exact (credentialCreate_length h).2

omit [Fact KeydevCiphers] [ObjectLibrary] in
theorem answeredId_twice (p : MakeCredentialParams) (credId : Bytes) :
    (if p.rk then if p.rk then deriveResident credId else credId else credId) = p.answeredId credId := by
  unfold MakeCredentialParams.answeredId
  split <;> rfl

/-- An answer about a new credential and its key, and what has been stored of the two. -/
structure Registers (p : MakeCredentialParams) (curve alg : Int) (d : Device) (credId : Bytes) (key : EcKey) (a : MakeCredentialAnswer)
    (d' : Device) : Prop where
  created : ∃ s, credentialCreate (p.credential curve alg) (.zero 16) d = (.ok credId, s)
  loaded : (fidoLoadKey curve (p.answeredId credId) d).1 = .ok key
  rpIdHash : a.authData.rpIdHash = p.rpIdHash
  attested : a.authData.attested = aaguid ++ be16 (p.answeredId credId).length ++ p.answeredId credId ++ coseKey key
  extended : ∃ s s' flags, SameLoads d s ∧ mcExtensions p (p.answeredId credId) flags s = (.ok a.authData.ext, s')
  statement : a.alg = if selfAttestation p = true ∨ Sdk.isNk = true then alg else algEs256
  stored : if p.rk then ∃ s s', SameLoads d s ∧ credentialStore credId p.rpIdHash (coseKey key) s = (.ok (), s') ∧
      ∀ slot, SameSlot slot s' d'
    else ∀ slot, SameSlot slot d d'

/-- The platform gets the id and the public key. -/
theorem Registers.parts {p : MakeCredentialParams} {curve alg : Int} {d d' : Device} {credId : Bytes} {key : EcKey} {a : MakeCredentialAnswer}
    (h : Registers p curve alg d credId key a d') :
    attestedId a.authData.attested = p.answeredId credId ∧ attestedKey a.authData.attested = coseKey key := by
  obtain ⟨s, hcreated⟩ := h.created
  rw [h.attested]
  exact attested_parts _ (answeredId_length p hcreated)

omit [Fact KeydevCiphers] [ObjectLibrary] in
/-- Outside the slot files may change, but not the master key. -/
private theorem sameSlot_of {slot : Slot} {x : CtapOp α} (hfiles : Keeps (SameFiles (SlotFile slot)) x) (hmaster : Keeps SameMaster x) :
    Keeps (SameSlot slot) x := keeps_of fun d => ⟨hfiles.rel d, hmaster.rel d⟩

private instance (slot : Slot) : Keeps (SameSlot slot) (devStateUpdate : CtapOp Unit) := by
  refine sameSlot_of ?_ inferInstance
  unfold devStateUpdate
  infer_instance

private instance (slot : Slot) (counter : UInt32) : Keeps (SameSlot slot) (setSignCounter counter : CtapOp Unit) := by
  have hkeydev : Fact (¬ IsKeydevFile efCounter) := ⟨by decide⟩
  exact sameSlot_of inferInstance inferInstance

omit [Fact KeydevCiphers] in
private theorem mcPrepare_selects {p : MakeCredentialParams} {curve alg : Int} {uv : UInt8} {d d' : Device}
    (h : mcPrepare p d = (.ok (curve, alg, uv), d')) : selectAlgorithm p = .ok (curve, alg) := by
  obtain ⟨_, _, -, h⟩ := bind_ok h
  obtain ⟨_, _, -, h⟩ := bind_ok h
  obtain ⟨selected, _, hselected, h⟩ := bind_ok h
  obtain ⟨_, _, -, h⟩ := bind_ok h
  obtain ⟨_, _, -, h⟩ := bind_ok h
  obtain ⟨_, _, -, h⟩ := bind_ok h
  obtain ⟨_, _, -, h⟩ := bind_ok h
  obtain ⟨_, _, -, h⟩ := bind_ok h
  obtain ⟨_, _, -, h⟩ := bind_ok h
  obtain ⟨-, h⟩ := refuseIf_bind_ok h
  obtain ⟨hr, -⟩ := pure_ok h
  cases hr
  exact (ofExcept_ok hselected).1

theorem attest_registers {p : MakeCredentialParams} {curve alg : Int} {flags : UInt8} {a : MakeCredentialAnswer} {d d' : Device}
    (h : attest p curve alg flags d = (.ok a, d')) : ∃ credId key, Registers p curve alg d credId key a d' := by
  unfold attest newCredentialId at h
  obtain ⟨⟨credId, keySeed⟩, s₁, h₁, h⟩ := bind_ok h
  obtain ⟨credId', s₁', hcreated, h₁⟩ := bind_ok h₁
  obtain ⟨hr, rfl⟩ := pure_ok h₁
  cases hr
  obtain ⟨verified, s₂, hverified, h⟩ := bind_ok h
  obtain ⟨ext, s₃, hext, h⟩ := bind_ok h
  obtain ⟨key, s₄, hkey, h⟩ := bind_ok h
  obtain ⟨files, s₅, hfiles, h⟩ := bind_ok h
  obtain ⟨-, rfl⟩ := gets_ok hfiles
  obtain ⟨sig, s₆, hsig, h⟩ := bind_ok h
  obtain ⟨largeBlobKey, s₇, hlarge, h⟩ := bind_ok h
  obtain ⟨files', s₈, hfiles', h⟩ := bind_ok h
  obtain ⟨-, rfl⟩ := gets_ok hfiles'
  obtain ⟨-, h⟩ := refuseIf_bind_ok h
  obtain ⟨_, s₉, hstored, h⟩ := bind_ok h
  obtain ⟨_, s₁₀, hcounted, h⟩ := bind_ok h
  obtain ⟨rfl, rfl⟩ := pure_ok h
  have hloads₂ : SameLoads d s₂ := IsTrans.trans _ _ _ (Keeps.of_run inferInstance hcreated) (Keeps.of_run inferInstance hverified)
  have hloads₃ : SameLoads d s₃ := IsTrans.trans _ _ _ hloads₂ (Keeps.of_run inferInstance hext)
  have hloads₄ : SameLoads d s₄ := IsTrans.trans _ _ _ hloads₃ (Keeps.of_run inferInstance hkey)
  have hloads₆ : SameLoads d s₆ := IsTrans.trans _ _ _ hloads₄ (Keeps.of_run inferInstance hsig)
  have hloads₇ : SameLoads d s₇ := IsTrans.trans _ _ _ hloads₆ (Keeps.of_run inferInstance hlarge)
  have hafter (slot : Slot) : SameSlot slot s₉ s₁₀ := Keeps.of_run inferInstance hcounted
  refine ⟨credId, key, ⟨_, hcreated⟩, ?_, rfl, by rw [← answeredId_twice], ⟨s₂, s₃, _, hloads₂, hext⟩, rfl, ?_⟩
  · have hsame := Repeats.same (x := fidoLoadKey curve (p.answeredId credId)) hloads₃
    rw [← hsame]
    exact congrArg Prod.fst (mapError_ok hkey)
  · cases hrk : p.rk with
    | false =>
      rw [runIf_false (by simp [hrk])] at hstored
      obtain ⟨-, rfl⟩ := pure_ok hstored
      exact fun slot => IsTrans.trans _ _ _ (hloads₇.sameSlot slot) (hafter slot)
    | true =>
      rw [runIf_true hrk, storeNew] at hstored
      obtain ⟨_, t, hstore, hstate⟩ := bind_ok hstored
      refine ⟨s₇, t, hloads₇, mapError_ok hstore, fun slot => ?_⟩
      exact IsTrans.trans _ _ _ (Keeps.of_run inferInstance hstate) (hafter slot)

/-- A request that is answered has registered the credential with the algorithm it selects. -/
theorem cborMakeCredential_registers {p : MakeCredentialParams} {a : MakeCredentialAnswer} {d d' : Device}
    (h : cborMakeCredential (.params p) d = (.ok a, d')) : ∃ curve alg credId key s, selectAlgorithm p = .ok (curve, alg) ∧
      SameLoads d s ∧ Registers p curve alg s credId key a d' := by
  obtain ⟨curve, alg, uv, up, s₁, s₂, hprepare, hpresence, hattest⟩ := cborMakeCredential_ok h
  obtain ⟨credId, key, hregisters⟩ := attest_registers hattest
  refine ⟨curve, alg, credId, key, s₂, mcPrepare_selects hprepare, ?_, hregisters⟩
  exact IsTrans.trans _ _ _ (Keeps.of_run inferInstance hprepare) (Keeps.of_run inferInstance hpresence)

/-! ### What is remembered -/

/-- A credential id that a request with this answer may have made. -/
def MakeCredentialParams.Made (p : MakeCredentialParams) (d : Device) (a : MakeCredentialAnswer) (credId : Bytes) : Prop :=
  ∃ curve alg key s d', selectAlgorithm p = .ok (curve, alg) ∧ SameLoads d s ∧ Registers p curve alg s credId key a d'

/-- A credential loaded for the RP: by the id itself, or from a slot that stores it. -/
inductive Remembered (credId : Bytes) (rpIdHash : Block 32) (d : Device) (cred : Credential) : Prop
  | listed (loads : (credentialLoad credId rpIdHash d).1 = .ok cred)
  | stored {slot : Slot} {residentId : Block 42} (form : InContainer d slot rpIdHash residentId credId ∨ InFile d slot rpIdHash residentId credId)
      (loads : (loadResident slot rpIdHash d).1 = .ok cred)

/-- What is remembered of a registration are the fields that its id records. -/
theorem Remembered.recorded (reads : CborReads) (clock : ∀ time, Sdk.rtcTime = some time → time < 2 ^ 64)
    {p : MakeCredentialParams} {a : MakeCredentialAnswer} {credId : Bytes} {d d₁ : Device} {cred : Credential}
    (h : Remembered credId p.rpIdHash d₁ cred) (hprotect : p.extensions.credProtect < 2 ^ 64) (made : p.Made d a credId)
    (hmaster : SameMaster d d₁) : ∃ curve alg boardMillis, selectAlgorithm p = .ok (curve, alg) ∧
      cred = { Ctap.recorded (p.credential curve alg) boardMillis with id := some credId, residentId := cred.residentId, present := true } := by
  obtain ⟨curve, alg, key, s, d', hselect, hloads, hregisters⟩ := made
  obtain ⟨t, hcreated⟩ := hregisters.created
  have hsame : SameMaster s d₁ := IsTrans.trans _ _ _ (Std.Symm.symm _ _ hloads.master) hmaster
  have hload := credentialLoad_created reads (encodable_credential hprotect clock hselect) hcreated hsame
  refine ⟨curve, alg, s.boardMillis, hselect, ?_⟩
  have hstored {slot : Slot} {residentId : Block 42} {guarded : Bool}
      (hanswers : AnswersWith d₁ slot p.rpIdHash residentId credId guarded) (hloaded : (loadResident slot p.rpIdHash d₁).1 = .ok cred) :
      cred = { Ctap.recorded (p.credential curve alg) s.boardMillis with id := some credId, residentId := cred.residentId, present := true } := by
    rw [hanswers.load, if_neg (by simp)] at hloaded
    rw [show p.rpIdHash = Sdk.sha256 ((p.credential curve alg).rpId.getD []) from rfl, hload] at hloaded
    cases hloaded
    rfl
  cases h with
  | listed hlisted =>
    rw [show p.rpIdHash = Sdk.sha256 ((p.credential curve alg).rpId.getD []) from rfl, hload] at hlisted
    cases hlisted
    rfl
  | stored form hloaded =>
    rcases form with hin | hin
    · exact hstored hin.answers hloaded
    · exact hstored hin.answers hloaded

end
end FidoTouch.Ctap
