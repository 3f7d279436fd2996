import FidoTouch.CborMaps
import FidoTouch.Ctap.MasterKey
import FidoTouch.Ctap.Registration
import FidoTouch.Program.Errors

/-! The algorithm of a new credential: which entry of a request is selected, and where the answer and the credential
name its algorithm and its curve. -/
namespace FidoTouch.Ctap
open FidoTouch.Program Handler FidoTouch.Storage FidoTouch.Resident

variable {ε α : Type}

/-! ### Commands that never say UNSUPPORTED_ALGORITHM -/

section
variable {e : ε}

instance : Avoids e (getFiles : Handler Device ε Files) := avoids_of fun d => ⟨d.files, rfl⟩
instance (n : Nat) : Avoids e (randomBlock n : Handler Device ε (Block n)) := avoids_of fun d => ⟨d.entropy.block n, rfl⟩
instance : Avoids e (commit : Handler Device ε Unit) := avoids_of fun _ => ⟨(), rfl⟩
instance : Avoids e (waitButtonPressed : Handler Device ε Press) := avoids_of fun d => ⟨d.presses 0, rfl⟩

instance (f : Entropy → Option (α × Nat)) : Avoids e (randomly f : Handler Device ε (Option α)) := avoids_of fun d => by
  unfold randomly
  split
  · next a n _ => exact ⟨some a, rfl⟩
  · exact ⟨none, rfl⟩

instance (fid : Nat) (data : Bytes) : Avoids e (putFile fid data : Handler Device ε Unit) := avoids_of fun d => by
  obtain ⟨store, hrun, -⟩ := putFile_cases (ε := ε) fid data d
  exact ⟨(), by rw [hrun]⟩

instance : Avoids e (checkUserPresence : Handler Device ε Bool) := by
  unfold checkUserPresence
  refine .bind inferInstance fun d => ?_
  split <;> infer_instance

instance : Avoids e (getUserVerifiedFlagValue : Handler Device ε Bool) := by
  unfold getUserVerifiedFlagValue modifyPaut
  infer_instance

instance : Avoids e (getUserPresentFlagValue : Handler Device ε Bool) := by
  unfold getUserPresentFlagValue modifyPaut
  infer_instance

instance : Avoids e (clearTokenFlags : Handler Device ε Unit) := by
  unfold clearTokenFlags clearUserPresentFlag clearUserVerifiedFlag clearPinUvAuthTokenPermissionsExceptLbw modifyPaut sessionInvalidate
  infer_instance

instance : Avoids e (devStateUpdate : Handler Device ε Unit) := by
  unfold devStateUpdate
  infer_instance

instance (counter : UInt32) : Avoids e (setSignCounter counter : Handler Device ε Unit) := by
  unfold setSignCounter
  infer_instance

instance (rp : Block 32) : Avoids e (claimRp rp : Handler Device ε Unit) := by
  unfold claimRp modifyPaut
  infer_instance

section
variable [Sdk]

instance (protocol : UInt8) (key input : Bytes) : Avoids e (encrypt protocol key input : Handler Device ε Bytes) := by
  unfold encrypt
  split
  · infer_instance
  · split <;> infer_instance

instance (proto : Bytes) : Avoids e (chachaKeyOrZero proto : Handler Device ε Bytes) := by
  unfold chachaKeyOrZero
  infer_instance

end
end

/-- Not a refusal of the algorithm, whatever else it answers. -/
abbrev NotAlgorithm (x : CtapOp α) : Prop := Avoids CtapError.unsupportedAlgorithm x

private theorem requireButton_avoids : NotAlgorithm requireButton :=
  .bind inferInstance fun _ => avoids_refuseIf _ (by decide)

private theorem pinUvAuthParamChecks_avoids (param : Option Bytes) (protocol : UInt64) :
    NotAlgorithm (pinUvAuthParamChecks param protocol) := by
  unfold pinUvAuthParamChecks
  split
  · infer_instance
  · exact requireButton_avoids.bind fun _ => .bind inferInstance fun _ =>
      (avoids_refuseIf _ (by decide)).bind fun _ => avoids_fail (by decide)
  · exact (avoids_refuseIf _ (by decide)).bind fun _ => avoids_refuseIf _ (by decide)

private theorem mcUserPresence_avoids (p : MakeCredentialParams) : NotAlgorithm (mcUserPresence p) := by
  have hpresent : NotAlgorithm requireUserPresent := .bind inferInstance fun present => by
    have hbutton := requireButton_avoids
    infer_instance
  unfold mcUserPresence
  split <;> infer_instance

private theorem extensionMap_avoids (entries : List Bytes) : NotAlgorithm (extensionMap entries) := by
  unfold extensionMap
  split
  · infer_instance
  · exact (avoids_refuseIf _ (by decide)).bind fun _ => inferInstance

section
variable [Sdk]

private theorem mcVerifyParam_avoids (p : MakeCredentialParams) : NotAlgorithm (mcVerifyParam p) := by
  unfold mcVerifyParam
  split
  · infer_instance
  · have hparam (data param : Bytes) : NotAlgorithm (refuseParam p.pinUvAuthProtocol data param) :=
      .bind inferInstance fun _ => avoids_refuseIf _ (by decide)
    have hpermission : NotAlgorithm (refusePermission permissionMc) := .bind inferInstance fun _ => avoids_refuseIf _ (by decide)
    have hbound : NotAlgorithm (bindRp p.rpIdHash) := .bind inferInstance fun _ => avoids_refuseIf _ (by decide)
    have hverified : NotAlgorithm refuseUnverified := .bind inferInstance fun _ => avoids_refuseIf _ (by decide)
    infer_instance

private theorem hmacSecretOutput_avoids (h : HmacSecretParams) (seed : Bytes) (uv : Bool) : NotAlgorithm (hmacSecretOutput h seed uv) := by
  unfold hmacSecretOutput
  exact .bind inferInstance fun _ => (avoids_orFail _ (by decide)).bind fun _ => (avoids_refuseIf _ (by decide)).bind fun _ =>
    (avoids_orFail _ (by decide)).bind fun _ => (avoids_mapError (fun _ => by decide) _).bind fun _ => inferInstance

private theorem mcExtensions_avoids (p : MakeCredentialParams) (seed : Bytes) (flags : UInt8) : NotAlgorithm (mcExtensions p seed flags) := by
  have hmac : NotAlgorithm (mcHmacSecret p seed flags) := by
    unfold mcHmacSecret
    split
    · infer_instance
    · next h _ =>
      have := hmacSecretOutput_avoids h seed (flags &&& autFlagUv ≠ 0)
      infer_instance
  unfold mcExtensions
  split
  · infer_instance
  · exact .bind inferInstance fun _ => hmac.bind fun _ => extensionMap_avoids _

private theorem attestationSignature_avoids (p : MakeCredentialParams) (key : EcKey) (data : Bytes) :
    NotAlgorithm (attestationSignature p key data) := by
  have hsigns (key : EcKey) (md : Option Md) (hash : Block 64) : NotAlgorithm (writeSignature key md hash data) :=
    .bind inferInstance fun _ => avoids_orFail _ (by decide)
  unfold attestationSignature
  split
  · infer_instance
  · refine (avoids_mapError (fun _ => by decide) _).bind fun keydev => ?_
    split
    · infer_instance
    · exact avoids_fail (by decide)

variable [ObjectLibrary]

private theorem excludeStep_avoids (p : MakeCredentialParams) (flags : UInt8) (entry : Option Bytes × Option Bytes) :
    NotAlgorithm (excludeStep p flags entry) := by
  have hexcluded (loaded : Except CtapError Credential) : NotAlgorithm (refuseExcluded flags loaded) := by
    unfold refuseExcluded
    split
    · infer_instance
    · exact avoids_refuseIf _ (by decide)
  unfold excludeStep
  split
  · split
    · infer_instance
    · split <;> infer_instance
  · exact avoids_fail (by decide)

private theorem attest_avoids (p : MakeCredentialParams) (curve alg : Int) (flags : UInt8) : NotAlgorithm (attest p curve alg flags) := by
  have hcreates : NotAlgorithm (newCredentialId p curve alg) := by
    unfold newCredentialId credentialCreate
    exact .bind (.bind inferInstance fun _ => (avoids_refuseIf _ (by decide)).bind fun _ => inferInstance) fun _ => inferInstance
  have hlarge (seed : Bytes) : NotAlgorithm (mcLargeBlobKey p seed) := by
    have hderives : NotAlgorithm (mapError (fun _ => .processing) (deriveLargeBlobKey seed)) := avoids_mapError (fun _ => by decide) _
    unfold mcLargeBlobKey
    split <;> infer_instance
  have hstores (credId publicKey : Bytes) : NotAlgorithm (storeNew p credId publicKey) :=
    (avoids_mapError (fun _ => by decide) _).bind fun _ => inferInstance
  unfold attest
  exact hcreates.bind fun _ => .bind inferInstance fun _ => (mcExtensions_avoids ..).bind fun _ =>
    (avoids_mapError (fun _ => by decide) _).bind fun _ => .bind inferInstance fun _ => (attestationSignature_avoids ..).bind fun _ =>
      (hlarge _).bind fun _ => .bind inferInstance fun _ => (avoids_refuseIf _ (by decide)).bind fun _ => inferInstance

/-! ### Selection -/

omit [ObjectLibrary] in
private theorem choiceOf_eq_none {entry : Option Bytes × Int} (h : supported entry = true) : choiceOf entry ≠ none := by
  simp only [supported, Bool.and_eq_true] at h
  have hcurve := h.2
  cases hchoice : curveOfAlg entry.2 <;> simp_all [choiceOf]

omit [ObjectLibrary] in
private theorem selectSteps_typed {entries : List (Option Bytes × Int)} (chosen : Option (Int × Int))
    (typed : ∀ entry ∈ entries, entry.1.isSome = true ∧ entry.2 ≠ 0) : ∃ chosen', entries.foldlM selectStep chosen = .ok chosen' := by
  induction entries generalizing chosen with
  | nil => exact ⟨chosen, rfl⟩
  | cons entry entries ih =>
    obtain ⟨type, alg⟩ := entry
    obtain ⟨htype, halg⟩ := typed _ List.mem_cons_self
    obtain ⟨type, rfl⟩ := Option.isSome_iff_exists.mp htype
    have hstep : ∃ next, selectStep chosen (some type, alg) = .ok next := by
      simp only [selectStep, if_neg halg]
      split <;> exact ⟨_, rfl⟩
    obtain ⟨next, hnext⟩ := hstep
    obtain ⟨chosen', hrest⟩ := ih next fun entry hentry => typed entry (List.mem_cons_of_mem _ hentry)
    exact ⟨chosen', by rw [List.foldlM_cons, hnext]; exact hrest⟩

omit [ObjectLibrary] in
/-- Without an entry that is not typed or names no algorithm, the first supported one is what counts. -/
theorem selectAlgorithm_typed {p : MakeCredentialParams} (hentries : p.pubKeyCredParams ≠ [])
    (typed : ∀ entry ∈ p.pubKeyCredParams, entry.1.isSome = true ∧ entry.2 ≠ 0) :
    selectAlgorithm p = ((p.pubKeyCredParams.find? supported).bind choiceOf).elim (.error .unsupportedAlgorithm) .ok := by
  obtain ⟨chosen, hchosen⟩ := selectSteps_typed none typed
  have hfirst := selectSteps_ok hchosen
  rw [Option.none_or] at hfirst
  rw [selectAlgorithm, if_neg hentries, hchosen, ← hfirst]
  cases chosen <;> rfl

omit [ObjectLibrary] in
private theorem selectAlgorithm_none {p : MakeCredentialParams} (hentries : p.pubKeyCredParams ≠ [])
    (typed : ∀ entry ∈ p.pubKeyCredParams, entry.1.isSome = true ∧ entry.2 ≠ 0) :
    selectAlgorithm p = .error .unsupportedAlgorithm ↔ p.pubKeyCredParams.find? supported = none := by
  rw [selectAlgorithm_typed hentries typed]
  cases hfirst : p.pubKeyCredParams.find? supported with
  | none => simp
  | some entry =>
    obtain ⟨choice, hchoice⟩ := Option.ne_none_iff_exists'.mp (choiceOf_eq_none (List.find?_some hfirst))
    simp [hchoice]

/-- The checks in front of the selection let the request through. -/
def MakeCredentialParams.Reaches (p : MakeCredentialParams) (d : Device) : Prop :=
  hmacSecretMcChecks p = .ok () ∧ ∃ d', pinUvAuthParamChecks p.pinUvAuthParam p.pinUvAuthProtocol d = (.ok (), d')

omit [Sdk] [ObjectLibrary] in
private theorem mcChecks_avoid (p : MakeCredentialParams) (files : Files) : hmacSecretMcChecks p ≠ .error .unsupportedAlgorithm ∧
    optionChecks files p ≠ .error .unsupportedAlgorithm ∧ uvChecks files p ≠ .error .unsupportedAlgorithm ∧
      attestationChecks files p ≠ .error .unsupportedAlgorithm := by
  refine ⟨?_, ?_, ?_, ?_⟩
  · unfold hmacSecretMcChecks
    split
    · decide
    · split_ifs <;> decide
  · unfold optionChecks
    split
    · decide
    · split_ifs <;> decide
  · unfold uvChecks
    dsimp only
    split_ifs <;> decide
  · unfold attestationChecks
    split_ifs <;> decide

private theorem mcPrepare_refused {p : MakeCredentialParams} {d : Device} (h : (mcPrepare p d).1 = .error .unsupportedAlgorithm) :
    p.Reaches d ∧ selectAlgorithm p = .error .unsupportedAlgorithm := by
  unfold mcPrepare at h
  obtain ⟨_, s₁, hhmac, h⟩ := error_after (avoids_ofExcept (mcChecks_avoid p d.files).1) h
  obtain ⟨hchecked, rfl⟩ := ofExcept_ok hhmac
  obtain ⟨_, s₂, hparam, h⟩ := error_after (pinUvAuthParamChecks_avoids _ _) h
  refine ⟨⟨hchecked, s₂, hparam⟩, bind_error (fun ⟨curve, alg⟩ => ?_) h⟩
  refine .bind inferInstance fun files => ?_
  have hverify := mcVerifyParam_avoids p
  have hexclude := excludeStep_avoids p
  exact (avoids_ofExcept (mcChecks_avoid p files).2.1).bind fun _ => (avoids_ofExcept (mcChecks_avoid p files).2.2.1).bind fun _ =>
    (avoids_ofExcept (mcChecks_avoid p files).2.2.2).bind fun _ => .bind inferInstance fun _ => .bind inferInstance fun _ =>
      (avoids_refuseIf _ (by decide)).bind fun _ => inferInstance

/-- UNSUPPORTED_ALGORITHM is the answer when no entry is supported, and only then. -/
theorem cborMakeCredential_unsupported {p : MakeCredentialParams} (hentries : p.pubKeyCredParams ≠ [])
    (typed : ∀ entry ∈ p.pubKeyCredParams, entry.1.isSome = true ∧ entry.2 ≠ 0) (d : Device) :
    (cborMakeCredential (.params p) d).1 = .error .unsupportedAlgorithm ↔ p.Reaches d ∧ p.pubKeyCredParams.find? supported = none := by
  rw [← selectAlgorithm_none hentries typed]
  refine ⟨fun h => ?_, fun ⟨⟨hhmac, d', hparam⟩, hselect⟩ => ?_⟩
  · refine mcPrepare_refused (bind_error (fun ⟨curve, alg, uv⟩ => ?_) h)
    exact (mcUserPresence_avoids p).bind fun up => attest_avoids ..
  · have hprepare : mcPrepare p d = (.error .unsupportedAlgorithm, d') := by
      unfold mcPrepare
      rw [hhmac, ofExcept_ok_bind, bind_eq hparam, hselect]
      rfl
    unfold cborMakeCredential
    rw [Parsed.result, ofExcept_ok_bind, bind_run, hprepare]

/-! ### The COSE key -/

omit [ObjectLibrary] in
private theorem coseKey_layout (key : EcKey) : ∃ k kty rest, k < 3 ∧ kty < 3 ∧ coseKey key = Cbor.map (k + 3) ++
    (Cbor.uint 1 ++ (Cbor.uint kty ++ (Cbor.uint 3 ++ (Cbor.negativeInt (coseAlg key.curve).natAbs ++
      (Cbor.negativeInt 1 ++ (Cbor.uint (coseCurve key.curve) ++ rest)))))) := by
  by_cases hec2 : key.curve = curveP256 ∨ key.curve = curveP384 ∨ key.curve = curveP521 ∨ key.curve = curveP256k1
  · refine ⟨2, 2, Cbor.negativeInt 2 ++ (Cbor.byteString (Sdk.ecPublicKey key).1 ++
      (Cbor.negativeInt 3 ++ Cbor.byteString (Sdk.ecPublicKey key).2)), by decide, by decide, ?_⟩
    simp only [coseKey, if_pos hec2, List.append_assoc]
  · refine ⟨1, 1, Cbor.negativeInt 2 ++ (Cbor.byteString (Sdk.ecPublicKey key).1 ++ []), by decide, by decide, ?_⟩
    simp only [coseKey, if_neg hec2, List.append_assoc]

omit [Sdk] [ObjectLibrary] in
private theorem coseCurve_small (curve : Int) : coseCurve curve < 2 ^ 64 := by
  unfold coseCurve curveBp256r1
  split <;> omega

omit [ObjectLibrary] in
/-- The key names the algorithm and the number of its curve, as `COSE_key` works them out. -/
private theorem coseKey_names (key : EcKey) :
    Cbor.mapValue (Cbor.uint 3) (coseKey key) = some (Cbor.negativeInt (coseAlg key.curve).natAbs) ∧
      Cbor.mapValue (Cbor.negativeInt 1) (coseKey key) = some (Cbor.uint (coseCurve key.curve)) := by
  obtain ⟨k, kty, rest, hk, hkty, hkey⟩ := coseKey_layout key
  have hpos (major : UInt8) (n : Nat) : 1 ≤ (Cbor.head major n).length := by simpa using Cbor.head_pos major n []
  have hentry (wanted : Bytes) (n : Nat) (rest : Bytes) : Cbor.valueOf wanted (n + 2) (Cbor.uint 1 ++ (Cbor.uint kty ++ (Cbor.uint 3 ++
      (Cbor.negativeInt (coseAlg key.curve).natAbs ++ rest)))) = if Cbor.uint 1 = wanted then some (Cbor.uint kty) else
        if Cbor.uint 3 = wanted then some (Cbor.negativeInt (coseAlg key.curve).natAbs) else Cbor.valueOf wanted n rest := by
    rw [Cbor.valueOf_cons (.uint (by decide)) (hpos ..) (.uint (by omega)) (hpos ..),
      Cbor.valueOf_cons (.uint (by decide)) (hpos ..) (.negativeInt _) (hpos ..)]
  rw [hkey, Cbor.mapValue_map (by omega), Cbor.mapValue_map (by omega), hentry, hentry]
  refine ⟨by rw [if_neg (by decide), if_pos rfl], ?_⟩
  rw [if_neg (by decide), if_neg (by decide), Cbor.valueOf_cons (.negativeInt _) (hpos ..) (.uint (coseCurve_small _)) (hpos ..), if_pos rfl]

/-- Algorithms that `COSE_key` gives a key of their curve. -/
def coseAlgorithms : List Int := [-7, -35, -36, -47, -8, -53]

omit [ObjectLibrary] in
private theorem coseAlgorithms_iff {alg curve : Int} (h : curveOfAlg alg = some curve) :
    Cbor.negativeInt (coseAlg curve).natAbs = Cbor.int alg ∧ Cbor.uint (coseCurve curve) = Cbor.int curve ↔ alg ∈ coseAlgorithms := by
  unfold curveOfAlg at h
  split_ifs at h with h256 h384 h521 hb256 hb384 hb512 hk hed hed448
  · cases h
    rcases h256 with rfl | rfl <;> decide
  · cases h
    rcases h384 with rfl | rfl <;> decide
  · cases h
    rcases h521 with rfl | rfl <;> decide
  · cases h
    subst hb256
    decide
  · cases h
    subst hb384
    decide
  · cases h
    subst hb512
    decide
  · cases h
    obtain ⟨rfl, -⟩ := hk
    decide
  · cases h
    obtain ⟨-, rfl | rfl⟩ := hed <;> decide
  · cases h
    obtain ⟨-, rfl⟩ := hed448
    decide

/-! ### Negotiation -/

variable [ciphers : Fact KeydevCiphers]

/-- The key of the answer, its statement where the key signs it, and the credential all name the algorithm and its curve. -/
structure Negotiated (p : MakeCredentialParams) (d : Device) (a : MakeCredentialAnswer) (alg curve : Int) : Prop where
  keyAlgorithm : Cbor.mapValue (Cbor.uint 3) (attestedKey a.authData.attested) = some (Cbor.int alg)
  keyCurve : Cbor.mapValue (Cbor.negativeInt 1) (attestedKey a.authData.attested) = some (Cbor.int curve)
  statement : selfAttestation p = true → a.alg = alg
  recorded : ∀ {credId : Bytes} {d₁ : Device} {cred : Credential}, p.Made d a credId → SameMaster d d₁ →
    Remembered credId p.rpIdHash d₁ cred → cred.alg = alg ∧ cred.curve = curve

/-- Every answer names the selected algorithm and its curve, except that the COSE key has six algorithms for itself: a key of another
one is given that of its curve, or none. -/
theorem algorithm_negotiation (reads : CborReads) (keys : EcKeys) (clock : ∀ time, Sdk.rtcTime = some time → time < 2 ^ 64)
    {p : MakeCredentialParams} (hprotect : p.extensions.credProtect < 2 ^ 64) (hentries : p.pubKeyCredParams ≠ [])
    (typed : ∀ entry ∈ p.pubKeyCredParams, entry.1.isSome = true ∧ entry.2 ≠ 0) :
    (∀ d, (cborMakeCredential (.params p) d).1 = .error .unsupportedAlgorithm ↔ p.Reaches d ∧ p.pubKeyCredParams.find? supported = none) ∧
      ∀ d a d', cborMakeCredential (.params p) d = (.ok a, d') → ∃ entry curve, p.pubKeyCredParams.find? supported = some entry ∧
        curveOfAlg entry.2 = some curve ∧ (Negotiated p d a entry.2 curve ↔ entry.2 ∈ coseAlgorithms) := by
  refine ⟨cborMakeCredential_unsupported hentries typed, fun d a d' hmake => ?_⟩
  obtain ⟨curve, alg, credId, key, s, hselect, -, hregisters⟩ := cborMakeCredential_registers hmake
  obtain ⟨entry, hfirst, rfl, hcurve⟩ := selectAlgorithm_first hselect
  refine ⟨entry, curve, hfirst, hcurve, ?_⟩
  obtain rfl : key.curve = curve := deriveKey_curve keys hregisters.loaded
  obtain ⟨halg, hcrv⟩ := coseKey_names key
  rw [← coseAlgorithms_iff hcurve]
  constructor
  · rintro ⟨hkey, hkeyCurve, -, -⟩
    rw [hregisters.parts.2] at hkey hkeyCurve
    exact ⟨Option.some.inj (halg.symm.trans hkey), Option.some.inj (hcrv.symm.trans hkeyCurve)⟩
  · rintro ⟨hkey, hkeyCurve⟩
    refine ⟨?_, ?_, fun hself => ?_, fun hmade hmaster hremembered => ?_⟩
    · rw [hregisters.parts.2, halg, hkey]
    · rw [hregisters.parts.2, hcrv, hkeyCurve]
    · rw [hregisters.statement, if_pos (.inl hself)]
    · obtain ⟨curve', alg', boardMillis, hselected, hrecorded⟩ := hremembered.recorded reads clock hprotect hmade hmaster
      obtain ⟨rfl, rfl⟩ := Prod.mk.inj (Except.ok.inj (hselect.symm.trans hselected))
      rw [hrecorded]
      exact ⟨rfl, rfl⟩

end

/-! ### On a plain device -/

section Plain

attribute [local instance] cborSdk plainLibrary

private theorem cborSdk_keys : EcKeys where
  curve curve b key h := by
    cases h
    rfl
  scalar b key _ h := by
    cases h
    rfl
  p256 := rfl
  none := rfl

private def algorithmDevice : Device := plainDevice [(efKeyDev, plainKeydev)]

/-- The request of a credential with one of these algorithms. -/
private def algorithmRequest (algs : List Int) : MakeCredentialParams :=
  { plainMakeCredential with pubKeyCredParams := algs.map fun alg => (some publicKeyType, alg) }

/-- An algorithm that the device does not have stands in front of ES256. -/
theorem es256_negotiated : ∃ a, (cborMakeCredential (.params (algorithmRequest [-257, -7])) algorithmDevice).1 = .ok a ∧
    Negotiated (algorithmRequest [-257, -7]) algorithmDevice a (-7) curveP256 := by
  obtain ⟨a, hmake⟩ := exists_ok (r := (cborMakeCredential (.params (algorithmRequest [-257, -7])) algorithmDevice).1) (by decide +kernel)
  obtain ⟨entry, curve, hfirst, hcurve, hnegotiated⟩ := (algorithm_negotiation cborSdk_reads cborSdk_keys (fun _ h => nomatch h)
    (p := algorithmRequest [-257, -7]) (by decide) (by decide) (by decide)).2 _ a _ (run_of_ok hmake)
  obtain rfl : (some publicKeyType, -7) = entry := Option.some.inj hfirst
  obtain rfl : curveP256 = curve := Option.some.inj hcurve
  exact ⟨a, hmake, hnegotiated.mpr (by decide)⟩

private def keyAlgorithmOf (made : Except CtapError MakeCredentialAnswer) : Option Bytes := match made with
  | .ok answer => Cbor.mapValue (Cbor.uint 3) (attestedKey answer.authData.attested)
  | .error _ => none

private def statementOf (made : Except CtapError MakeCredentialAnswer) : Option Int := match made with
  | .ok answer => some answer.alg
  | .error _ => none

/-- A key for ESP256 says in its COSE form that it is one for ES256, and the statement beside it says ESP256. -/
theorem esp256_key_misnamed : (algorithmRequest [-9]).pubKeyCredParams.find? supported = some (some publicKeyType, -9) ∧
    selfAttestation (algorithmRequest [-9]) = true ∧
      ∃ a, (cborMakeCredential (.params (algorithmRequest [-9])) algorithmDevice).1 = .ok a ∧ a.alg = -9 ∧
        Cbor.mapValue (Cbor.uint 3) (attestedKey a.authData.attested) = some (Cbor.int (-7)) ∧
          ¬ Negotiated (algorithmRequest [-9]) algorithmDevice a (-9) curveP256 := by
  obtain ⟨a, hmake⟩ := exists_ok (r := (cborMakeCredential (.params (algorithmRequest [-9])) algorithmDevice).1) (by decide +kernel)
  have hkey : keyAlgorithmOf (cborMakeCredential (.params (algorithmRequest [-9])) algorithmDevice).1 = some (Cbor.int (-7)) := by
    decide +kernel
  have hstatement : statementOf (cborMakeCredential (.params (algorithmRequest [-9])) algorithmDevice).1 = some (-9) := by decide +kernel
  rw [hmake] at hkey hstatement
  have hnamed : Cbor.mapValue (Cbor.uint 3) (attestedKey a.authData.attested) = some (Cbor.int (-7)) := hkey
  refine ⟨rfl, rfl, a, hmake, Option.some.inj hstatement, hnamed, fun h => ?_⟩
  exact absurd (h.keyAlgorithm.symm.trans hnamed) (by decide)

end Plain
end FidoTouch.Ctap
