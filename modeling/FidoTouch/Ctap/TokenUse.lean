import FidoTouch.Ctap.Algorithms
import FidoTouch.Ctap.PinSession

/-! What a platform can do with its token: no ceremony for the token's RP is refused for want of a verified user. -/
namespace FidoTouch.Ctap
open FidoTouch.Program Handler FidoTouch.Storage FidoTouch.Resident

/-- A refusal for want of a verified user. -/
def WantsUser (e : CtapError) : Prop := e = .pinAuthInvalid ∨ e = .puatRequired

section
variable {e : CtapError} (he : WantsUser e) {α : Type}

private theorem wants_ne {e e' : CtapError} (he : WantsUser e) (h : e' ≠ .pinAuthInvalid) (h' : e' ≠ .puatRequired) : e' ≠ e := by
  rcases he with rfl | rfl
  · exact h
  · exact h'

/-! ### Commands that never ask for a verified user -/

include he

private theorem button_wants : Avoids e requireButton := .bind inferInstance fun _ => avoids_refuseIf _ (wants_ne he (by decide) (by decide))

private theorem mcPresence_wants (p : MakeCredentialParams) : Avoids e (mcUserPresence p) := by
  have hbutton := button_wants he
  have hpresent : Avoids e requireUserPresent := .bind inferInstance fun present => inferInstance
  unfold mcUserPresence
  split <;> infer_instance

private theorem gaPresence_wants (p : GetAssertionParams) : Avoids e (gaUserPresence p) := by
  have hbutton := button_wants he
  have hpresent : Avoids e requireUserPresent := .bind inferInstance fun present => inferInstance
  have hasks : Avoids e (gaAskUser p) := by
    unfold gaAskUser
    split <;> assumption
  unfold gaUserPresence
  split <;> infer_instance

private theorem extensions_wants (entries : List Bytes) : Avoids e (extensionMap entries) := by
  unfold extensionMap
  split
  · infer_instance
  · exact (avoids_refuseIf _ (wants_ne he (by decide) (by decide))).bind fun _ => inferInstance

variable [Sdk]

private theorem hmac_wants (h : HmacSecretParams) (seed : Bytes) (uv : Bool) : Avoids e (hmacSecretOutput h seed uv) := by
  have hmac : Avoids e (mapError (fun _ => .invalidParameter) (deriveHmacKey seed) : CtapOp Bytes) :=
    avoids_mapError (fun _ => wants_ne he (by decide) (by decide)) _
  unfold hmacSecretOutput
  exact .bind inferInstance fun _ => (avoids_orFail _ (wants_ne he (by decide) (by decide))).bind fun _ =>
    (avoids_refuseIf _ (wants_ne he (by decide) (by decide))).bind fun _ => (avoids_orFail _ (wants_ne he (by decide) (by decide))).bind
      fun _ => hmac.bind fun _ => inferInstance

private theorem signature_wants (key : EcKey) (md : Option Md) (hash : Block 64) (data : Bytes) : Avoids e (writeSignature key md hash data) :=
  .bind inferInstance fun _ => avoids_orFail _ (wants_ne he (by decide) (by decide))

private theorem largeBlobKey_wants (seed : Bytes) : Avoids e (mapError (fun _ => .processing) (deriveLargeBlobKey seed) : CtapOp Bytes) :=
  avoids_mapError (fun _ => wants_ne he (by decide) (by decide)) _

variable [ObjectLibrary]

private theorem exclude_wants (p : MakeCredentialParams) (flags : UInt8) (entry : Option Bytes × Option Bytes) :
    Avoids e (excludeStep p flags entry) := by
  have hexcluded (loaded : Except CtapError Credential) : Avoids e (refuseExcluded flags loaded) := by
    unfold refuseExcluded
    split
    · infer_instance
    · exact avoids_refuseIf _ (wants_ne he (by decide) (by decide))
  unfold excludeStep
  split
  · split
    · infer_instance
    · split <;> infer_instance
  · exact avoids_fail (wants_ne he (by decide) (by decide))

private theorem attest_wants (p : MakeCredentialParams) (curve alg : Int) (flags : UInt8) : Avoids e (attest p curve alg flags) := by
  have hcreates : Avoids e (newCredentialId p curve alg) := by
    unfold newCredentialId credentialCreate
    exact .bind (.bind inferInstance fun _ => (avoids_refuseIf _ (wants_ne he (by decide) (by decide))).bind fun _ => inferInstance)
      fun _ => inferInstance
  have hextensions (seed : Bytes) (flags : UInt8) : Avoids e (mcExtensions p seed flags) := by
    have hmac : Avoids e (mcHmacSecret p seed flags) := by
      unfold mcHmacSecret
      split
      · infer_instance
      · next h _ =>
        have := hmac_wants he h seed (flags &&& autFlagUv ≠ 0)
        infer_instance
    unfold mcExtensions
    split
    · infer_instance
    · exact .bind inferInstance fun _ => hmac.bind fun _ => extensions_wants he _
  have hsigns (key : EcKey) (data : Bytes) : Avoids e (attestationSignature p key data) := by
    unfold attestationSignature
    split
    · exact signature_wants he ..
    · refine (avoids_mapError (fun _ => wants_ne he (by decide) (by decide)) _).bind fun keydev => ?_
      split
      · exact signature_wants he ..
      · exact avoids_fail (wants_ne he (by decide) (by decide))
  have hlarge (seed : Bytes) : Avoids e (mcLargeBlobKey p seed) := by
    have := largeBlobKey_wants he seed
    unfold mcLargeBlobKey
    split <;> infer_instance
  have hstores (credId publicKey : Bytes) : Avoids e (storeNew p credId publicKey) :=
    (avoids_mapError (fun _ => wants_ne he (by decide) (by decide)) _).bind fun _ => inferInstance
  unfold attest
  exact hcreates.bind fun _ => .bind inferInstance fun _ => (hextensions ..).bind fun _ =>
    (avoids_mapError (fun _ => wants_ne he (by decide) (by decide)) _).bind fun _ => .bind inferInstance fun _ => (hsigns ..).bind fun _ =>
      (hlarge _).bind fun _ => .bind inferInstance fun _ => (avoids_refuseIf _ (wants_ne he (by decide) (by decide))).bind fun _ => inferInstance

private theorem find_wants (p : GetAssertionParams) : Avoids e (findCredentials p) := by
  have hmatching (rpIdHash : Block 32) (id : Bytes) (found : Selection × Bool) (slot : Slot) : Avoids e (loadMatching rpIdHash id found slot) := by
    unfold loadMatching
    refine .bind inferInstance fun d => ?_
    split <;> infer_instance
  have hlisted (rpIdHash : Block 32) (id : Bytes) (found : Selection) : Avoids e (loadListed rpIdHash id found) := by
    unfold loadListed
    refine .bind inferInstance fun loaded => ?_
    split <;> infer_instance
  have hallow (rpIdHash : Block 32) (found : Selection) (entry : Option Bytes × Option Bytes) : Avoids e (allowStep rpIdHash found entry) := by
    unfold allowStep
    split
    · infer_instance
    · split
      · split
        · infer_instance
        · split <;> infer_instance
      · exact avoids_fail (wants_ne he (by decide) (by decide))
  have hdiscover (rpIdHash : Block 32) (found : Selection) (slot : Slot) : Avoids e (discoverStep rpIdHash found slot) := by
    unfold discoverStep
    refine .bind inferInstance fun d => ?_
    split <;> infer_instance
  unfold findCredentials
  split <;> infer_instance

private theorem count_wants (p : GetAssertionParams) (found : Selection) (creds : List Credential) : Avoids e (countCredentials p found creds) := by
  have hsilent (rpIdHash : Block 32) (count : Nat) (entry : Option Bytes × Option Bytes) : Avoids e (silentStep rpIdHash count entry) := by
    unfold silentStep
    split
    · infer_instance
    · exact avoids_fail (wants_ne he (by decide) (by decide))
  unfold countCredentials countSilent
  split
  · split <;> infer_instance
  · infer_instance

omit [ObjectLibrary] in
private theorem assertion_wants (p : GetAssertionParams) (c : Choice) (flags : UInt8) : Avoids e (makeAssertion p c flags) := by
  have hselected {β : Type} (without : β) (f : Credential → CtapOp β) (hf : ∀ cred, Avoids e (f cred)) :
      Avoids e (ofSelected c.selcred without f) := by
    unfold ofSelected
    split
    · infer_instance
    · exact hf _
  have hlarge (cred : Credential) : Avoids e (assertedLargeBlobKey p cred) := by
    have := largeBlobKey_wants he (keySeed cred)
    unfold assertedLargeBlobKey
    split <;> infer_instance
  have hextensions (cred : Credential) : Avoids e (gaExtensions p cred flags) := by
    have hmac : Avoids e (gaHmacSecret p cred flags) := by
      have := hmac_wants he p.hmacSecret (keySeed cred) (flags &&& autFlagUv ≠ 0)
      unfold gaHmacSecret
      split <;> infer_instance
    unfold gaExtensions
    split
    · infer_instance
    · exact hmac.bind fun _ => extensions_wants he _
  have hsigns (authData : AuthData) (cred : Credential) : Avoids e (assertionSignature p authData cred) := by
    have hkey : Avoids e (assertionKey cred) := by
      unfold assertionKey
      refine .bind inferInstance fun key => ?_
      split
      · infer_instance
      · exact avoids_mapError (fun _ => wants_ne he (by decide) (by decide)) _
    exact hkey.bind fun _ => signature_wants he ..
  unfold makeAssertion
  exact (hselected _ _ hlarge).bind fun _ => (hselected _ _ hextensions).bind fun _ => .bind inferInstance fun _ =>
    (hselected _ _ (hsigns _)).bind fun _ => (avoids_refuseIf _ (wants_ne he (by decide) (by decide))).bind fun _ => inferInstance

end

/-! ### A parameter that verifies -/

section
variable {u : Device} {param : Bytes} {e : CtapError}

private theorem refusePermission_passes {permission : UInt8} (h : u.paut.permissions &&& permission ≠ 0) :
    refusePermission permission u = (.ok (), u) := by
  unfold refusePermission
  rw [bind_eq (get_run u), refuseIf_false h]
  rfl

private theorem bindRp_passes {rpIdHash : Block 32} (h : u.paut.hasRpId = true → u.paut.rpIdHash = rpIdHash) : bindRp rpIdHash u = (.ok (), u) := by
  unfold bindRp
  rw [bind_eq (get_run u), refuseIf_false fun hother => hother.2 (h hother.1)]
  rfl

private theorem refuseUnverified_passes (hinUse : u.paut.inUse = true) (hverified : u.paut.userVerified = true) :
    ∃ s, refuseUnverified u = (.ok (), s) ∧ s.paut = u.paut := by
  unfold refuseUnverified
  rw [bind_eq (getUserVerifiedFlagValue_run u), hinUse, hverified]
  refine ⟨_, rfl, ?_⟩
  dsimp only
  rw [Bool.and_self, ← hverified]

private theorem claimRp_runs (rpIdHash : Block 32) (u : Device) : ∃ s, (claimRp rpIdHash : CtapOp Unit) u = (.ok (), s) := by
  unfold claimRp runIf
  rw [bind_eq (get_run u)]
  split <;> exact ⟨_, rfl⟩

variable [Sdk]

private theorem refuseParam_passes {protocol : UInt64} {data : Bytes} (h : verify protocol.toUInt8 u.paut.data data param = true) :
    refuseParam protocol data param u = (.ok (), u) := by
  unfold refuseParam
  rw [bind_eq (get_run u), refuseIf_false (by simp [h])]
  rfl

private theorem mcVerifyParam_passes {p : MakeCredentialParams} (hparam : p.pinUvAuthParam = some param)
    (h : ParamVerified p.pinUvAuthProtocol (p.clientDataHash.getD []) param permissionMc p.rpIdHash u) :
    ∃ s, mcVerifyParam p u = (.ok autFlagUv, s) := by
  obtain ⟨s, hrun, -⟩ := refuseUnverified_passes h.inUse h.userVerified
  obtain ⟨t, hclaim⟩ := claimRp_runs p.rpIdHash s
  refine ⟨t, ?_⟩
  simp only [mcVerifyParam, hparam]
  rw [bind_eq (refuseParam_passes h.verified), bind_eq (refusePermission_passes h.permitted), bind_eq (bindRp_passes h.bound),
    bind_eq hrun, bind_eq hclaim]
  rfl

private theorem gaVerifyParam_passes {p : GetAssertionParams} (hparam : p.pinUvAuthParam = some param)
    (h : ParamVerified p.pinUvAuthProtocol (p.clientDataHash.getD []) param permissionGa p.rpIdHash u) :
    ∃ s, gaVerifyParam p u = (.ok autFlagUv, s) := by
  obtain ⟨s, hrun, hsame⟩ := refuseUnverified_passes h.inUse h.userVerified
  obtain ⟨t, hclaim⟩ := claimRp_runs p.rpIdHash s
  refine ⟨t, ?_⟩
  simp only [gaVerifyParam, hparam]
  rw [bind_eq (refuseParam_passes h.verified), bind_eq hrun, bind_eq (refusePermission_passes (by rw [hsame]; exact h.permitted)),
    bind_eq (bindRp_passes (by rw [hsame]; exact h.bound)), bind_eq hclaim]
  rfl

omit [Sdk] in
private theorem paramChecks_pass {protocol : UInt64} (hprotocol : protocol = 1 ∨ protocol = 2) (hparam : param ≠ []) :
    pinUvAuthParamChecks (some param) protocol u = (.ok (), u) := by
  cases param with
  | nil => exact absurd rfl hparam
  | cons b bs => rcases hprotocol with rfl | rfl <;> rfl

private theorem selection_wants (he : WantsUser e) (p : MakeCredentialParams) : selectAlgorithm p ≠ .error e := by
  have hsteps (entries : List (Option Bytes × Int)) (chosen : Option (Int × Int)) : entries.foldlM selectStep chosen ≠ .error e := by
    induction entries generalizing chosen with
    | nil => simp [pure, Except.pure]
    | cons entry entries ih =>
      have hstep : selectStep chosen entry ≠ .error e := by
        unfold selectStep
        rcases he with rfl | rfl <;> (repeat' split) <;> simp
      rw [List.foldlM_cons]
      cases hnext : selectStep chosen entry with
      | error e' => exact fun h => hstep (hnext.trans h)
      | ok next => exact ih next
  unfold selectAlgorithm
  split
  · rcases he with rfl | rfl <;> simp
  · split
    · next e' herror => exact fun h => hsteps _ _ (herror.trans (congrArg _ (Except.error.inj h)))
    · rcases he with rfl | rfl <;> simp
    · simp

variable [ObjectLibrary]

/-- With a parameter that verifies no credential is refused for want of a verified user. -/
private theorem made_for_verified (he : WantsUser e) {p : MakeCredentialParams} (hprotocol : p.pinUvAuthProtocol = 1 ∨ p.pinUvAuthProtocol = 2)
    (hparam : p.pinUvAuthParam = some param) (hparam' : param ≠ []) (hset : (pinRecord u.files).isSome = true)
    (h : ParamVerified p.pinUvAuthProtocol (p.clientDataHash.getD []) param permissionMc p.rpIdHash u) :
    (cborMakeCredential (.params p) u).1 ≠ .error e := by
  have hhmac : hmacSecretMcChecks p ≠ .error e := by
    unfold hmacSecretMcChecks
    rcases he with rfl | rfl <;> (repeat' split) <;> simp
  have hoptions : optionChecks u.files p ≠ .error e := by
    unfold optionChecks
    rcases he with rfl | rfl <;> (repeat' split) <;> simp
  have huv : uvChecks u.files p = .ok () := by
    unfold uvChecks
    rw [show (fileData u.files efPin).isSome = true from hset, hparam]
    simp
  have hattestation : attestationChecks u.files p ≠ .error e := by
    unfold attestationChecks
    rcases he with rfl | rfl <;> (repeat' split) <;> simp
  obtain ⟨s, hverify⟩ := mcVerifyParam_passes hparam h
  have hfiles (u : Device) : ((getFiles : CtapOp Files) u).1 ≠ .error e := by simp
  have hprepare : (mcPrepare p u).1 ≠ .error e := by
    unfold mcPrepare
    rw [hparam]
    refine ne_bind hhmac fun _ _ hrun => ?_
    obtain ⟨-, rfl⟩ := ofExcept_ok hrun
    rw [bind_eq (paramChecks_pass hprotocol hparam')]
    refine ne_bind (selection_wants he p) fun _ _ hrun => ?_
    obtain ⟨-, rfl⟩ := ofExcept_ok hrun
    refine ne_bind (hfiles u) fun files _ hrun => ?_
    obtain ⟨rfl, rfl⟩ := gets_ok hrun
    refine ne_bind hoptions fun _ _ hrun => ?_
    obtain ⟨-, rfl⟩ := ofExcept_ok hrun
    rw [huv, ofExcept_ok_bind]
    refine ne_bind hattestation fun _ _ hrun => ?_
    obtain ⟨-, rfl⟩ := ofExcept_ok hrun
    rw [bind_eq hverify]
    have hexcluded := exclude_wants he p autFlagUv
    exact (Avoids.bind inferInstance fun _ => (avoids_refuseIf _ (wants_ne he (by decide) (by decide))).bind fun _ => inferInstance).ne s
  unfold cborMakeCredential
  rw [Parsed.result, ofExcept_ok_bind]
  refine ne_bind hprepare fun prepared s _ => ?_
  exact ((mcPresence_wants he p).bind fun _ => attest_wants he ..).ne s

private theorem asserted_for_verified (he : WantsUser e) {p : GetAssertionParams} (hprotocol : p.pinUvAuthProtocol = 1 ∨ p.pinUvAuthProtocol = 2)
    (hparam : p.pinUvAuthParam = some param) (hparam' : param ≠ [])
    (h : ParamVerified p.pinUvAuthProtocol (p.clientDataHash.getD []) param permissionGa p.rpIdHash u) :
    (cborGetAssertion (.params p) u).1 ≠ .error e := by
  have hrequired : gaRequired p ≠ .error e := by
    unfold gaRequired
    rcases he with rfl | rfl <;> split <;> simp
  have hoptions : gaOptionChecks p ≠ .error e := by
    unfold gaOptionChecks
    rcases he with rfl | rfl <;> (repeat' split) <;> simp
  have hhmac : gaHmacSecretChecks p ≠ .error e := by
    unfold gaHmacSecretChecks
    dsimp only
    rcases he with rfl | rfl <;> (repeat' split) <;> simp
  obtain ⟨s, hverify⟩ := gaVerifyParam_passes hparam h
  have hprepare : (gaPrepare p u).1 ≠ .error e := by
    unfold gaPrepare
    rw [hparam]
    refine ne_bind hrequired fun _ _ hrun => ?_
    obtain ⟨-, rfl⟩ := ofExcept_ok hrun
    rw [bind_eq (paramChecks_pass hprotocol hparam')]
    refine ne_bind hoptions fun _ _ hrun => ?_
    obtain ⟨-, rfl⟩ := ofExcept_ok hrun
    rw [bind_eq hverify]
    exact ((avoids_ofExcept hhmac).bind fun _ => (find_wants he p).bind fun found => (count_wants he p found _).bind fun _ =>
      (avoids_refuseIf _ (wants_ne he (by decide) (by decide))).bind fun _ => inferInstance).ne s
  have hfirst : (firstAssertion (.params p) u).1 ≠ .error e := by
    unfold firstAssertion
    rw [Parsed.result, ofExcept_ok_bind]
    refine ne_bind hprepare fun prepared s _ => ?_
    have hchoice (found : Selection) (creds : List Credential) (count : Nat) (flags : UInt8) :
        Avoids e (chooseCredential p found creds count flags) := by
      unfold chooseCredential keepAssertion
      split <;> infer_instance
    exact ((gaPresence_wants he p).bind fun _ => (avoids_refuseIf _ (wants_ne he (by decide) (by decide))).bind fun _ =>
      (hchoice ..).bind fun _ => assertion_wants he ..).ne s
  unfold cborGetAssertion
  rw [bind_eq (attempt_run _ u)]
  rcases hrun : (firstAssertion (.params p) u).1 with e' | a <;> rw [hrun] at hfirst
  · exact fun h => hfirst (congrArg _ (Except.error.inj h))
  · simp

/-! ### The flags of the answer -/

private theorem made_uv {p : MakeCredentialParams} (hparam : p.pinUvAuthParam = some param) {a : MakeCredentialAnswer}
    (h : (cborMakeCredential (.params p) u).1 = .ok a) : a.authData.Uv := by
  obtain ⟨curve, alg, uv, up, s₁, s₂, h₁, -, h₃⟩ := cborMakeCredential_ok (run_of_ok h)
  obtain ⟨-, s, hs, -⟩ := mcPrepare_ok h₁
  obtain ⟨ed, -, hflags⟩ := attest_flags h₃
  rcases mcVerifyParam_ok hs with ⟨hnone, -⟩ | ⟨_, -, rfl, -⟩
  · rw [hparam] at hnone
    cases hnone
  · rw [AuthData.Uv, hflags]
    split
    · exact uv_set _ _
    · rw [UInt8.or_assoc]
      exact uv_set _ _

private theorem asserted_uv {p : GetAssertionParams} (hparam : p.pinUvAuthParam = some param) {a : GetAssertionAnswer}
    (h : (cborGetAssertion (.params p) u).1 = .ok a) : a.authData.Uv := by
  obtain ⟨uv, found, creds, count, up, choice, s₁, s₂, s₃, h₁, -, -, h₄⟩ := firstAssertion_ok (cborGetAssertion_ok (run_of_ok h))
  obtain ⟨s, hs, -⟩ := gaPrepare_ok h₁
  obtain ⟨ed, -, hflags⟩ := makeAssertion_flags h₄
  rcases gaVerifyParam_ok hs with ⟨hnone, -⟩ | ⟨_, -, rfl, -⟩
  · rw [hparam] at hnone
    cases hnone
  · rw [AuthData.Uv, hflags, UInt8.or_comm autFlagUv]
    exact uv_set _ _

/-! ### The session -/

omit [ObjectLibrary] in
/-- Within half a minute the clock stops nothing, unless it turns over. -/
private theorem given_lasts {q : ClientPinParams} {token : Bytes} {t : Device} (hgiven : Given q token t) {ms : UInt32} (hms : ms.toNat < 30000)
    (hturn : t.boardMillis.toNat + 600000 < 4294967296) : (ticked { t with boardMillis := t.boardMillis + ms }).paut = t.paut := by
  have hearly : ∀ limit : UInt32, 30000 ≤ limit.toNat → limit.toNat ≤ 600000 → ¬ t.boardMillis + limit ≤ t.boardMillis + ms := by
    intro limit hlow hhigh
    rw [UInt32.le_iff_toNat_le, UInt32.toNat_add, UInt32.toNat_add]
    omega
  have hlong := hearly maxUsageTimePeriod (by decide) (by decide)
  have hshort := hearly transportTimeLimit (by decide) (by decide)
  unfold ticked pinUvAuthTokenTick
  rw [bind_eq (get_run _)]
  dsimp only
  rw [hgiven.usageTimer, hgiven.initialUsageTimeLimit]
  split
  · rfl
  · next hon =>
    rw [if_neg fun h => h.2.elim hlong fun h => h.elim hon hshort]
    unfold runIf
    split
    · unfold clearUserPresentFlag
      rw [bind_eq (get_run _), runIf_false fun h => by rw [hgiven.userPresent] at h; cases h.2]
      rfl
    · rfl

/-- The answer to a message is the refusal of a switched-off application, or what its command answers. -/
private theorem message_answer {α : Type} {r : Request} (hends : continuesAssertion r = false) {x : CtapOp α} {f : α → Response}
    (hx : cborCommand r = f <$> x) (t : Device) :
    (∀ e, e ≠ .invalidCmd → (x (ticked t).forgotten).1 ≠ .error e → (authenticate (.cbor r) t).1 ≠ .error e) ∧
      ∀ b, (authenticate (.cbor r) t).1 = .ok (some b) → ∃ a, (x (ticked t).forgotten).1 = .ok a ∧ b = f a := by
  have hanswer : (authenticate (.cbor r) t).1 = .error .invalidCmd ∨
      (authenticate (.cbor r) t).1 = ((f <$> x) (ticked t).forgotten).1.map some := hx ▸ (move_message hends t).imp And.left And.left
  rw [map_run] at hanswer
  rcases hanswer with hanswer | hanswer <;> rw [hanswer]
  · exact ⟨fun e he _ h => he (Except.error.inj h).symm, fun b h => by cases h⟩
  · rcases x (ticked t).forgotten with ⟨e' | a, s⟩
    · exact ⟨fun e _ he h => he (congrArg _ (Except.error.inj h)), fun b h => by cases h⟩
    · refine ⟨fun e _ _ h => (by cases h), fun b h => ⟨a, rfl, ?_⟩⟩
      exact (Option.some.inj (Except.ok.inj h)).symm

/-- A request of a platform: with its MAC under the token, and for the RP that the token was asked for. -/
structure Platform.Authorizes (P : Platform) (q : ClientPinParams) (token : Bytes) (protocol : UInt64) (clientDataHash param rpId : Option Bytes) :
    Prop where
  protocol : protocol = P.protocol
  param : param = P.authenticate token (clientDataHash.getD [])
  rp : ∀ asked, q.rpId = some asked → rpId = some asked

/-- What the token lets its platform do: no ceremony for which it has the permission is refused for want of a verified
user, and what succeeds says that the user was verified. -/
structure LetIn (P : Platform) (q : ClientPinParams) (token : Bytes) (t : Device) : Prop where
  made : grantedPermissions q &&& permissionMc ≠ 0 → ∀ p : MakeCredentialParams,
    P.Authorizes q token p.pinUvAuthProtocol p.clientDataHash p.pinUvAuthParam p.rpId →
      (∀ e, WantsUser e → (authenticate (.cbor (.makeCredential (.params p))) t).1 ≠ .error e) ∧
        ∀ a, (authenticate (.cbor (.makeCredential (.params p))) t).1 = .ok (some (.makeCredential a)) → a.authData.Uv
  asserted : grantedPermissions q &&& permissionGa ≠ 0 → ∀ p : GetAssertionParams,
    P.Authorizes q token p.pinUvAuthProtocol p.clientDataHash p.pinUvAuthParam p.rpId →
      (∀ e, WantsUser e → (authenticate (.cbor (.getAssertion (.params p))) t).1 ≠ .error e) ∧
        ∀ a, (authenticate (.cbor (.getAssertion (.params p))) t).1 = .ok (some (.getAssertion a)) → a.authData.Uv

private theorem letIn (C : ProtocolCiphers) {P : Platform} (hP : P.Sound) {q : ClientPinParams} {token : Bytes} (htoken : token.length = 32)
    {t : Device} (hgiven : Given q token t) (hset : (pinRecord t.store.view).isSome = true) {ms : UInt32} (hms : ms.toNat < 30000)
    (hturn : t.boardMillis.toNat + 600000 < 4294967296) : LetIn P q token (authenticate (.elapse ms) t).2 := by
  let t' : Device := { t with boardMillis := t.boardMillis + ms }
  change LetIn P q token t'
  have hpaut : (ticked t').forgotten.paut = t.paut := given_lasts hgiven hms hturn
  have hset' : (pinRecord (ticked t').forgotten.files).isSome = true := by
    rwa [Device.files_eq, show (ticked t').forgotten.store = t.store from ticked_store t']
  have hverifies : ∀ {permission : UInt8} {protocol : UInt64} {clientDataHash param rpId : Option Bytes},
      grantedPermissions q &&& permission ≠ 0 → P.Authorizes q token protocol clientDataHash param rpId →
        (protocol = 1 ∨ protocol = 2) ∧ ∃ bytes, param = some bytes ∧ bytes ≠ [] ∧
          ParamVerified protocol (clientDataHash.getD []) bytes permission (Sdk.sha256 (rpId.getD [])) (ticked t').forgotten := by
    intro permission protocol clientDataHash param rpId hpermission hp
    obtain ⟨bytes, hbytes, hnonempty, hverified⟩ := Platform.authenticate_verified C hP (Nat.le_of_eq htoken.symm) (clientDataHash.getD [])
    refine ⟨hp.protocol ▸ hP.protocol, bytes, hp.param.trans hbytes, hnonempty, ?_⟩
    constructor <;> rw [hpaut]
    · rw [hgiven.data, hp.protocol, hverified]
    · rw [hgiven.permissions]
      exact hpermission
    · intro hhas
      obtain ⟨asked, hasked, hhash⟩ := hgiven.bound hhas
      rw [hp.rp asked hasked, hhash]
      rfl
    · exact hgiven.inUse
    · exact hgiven.userVerified
  constructor
  · intro hpermission p hp
    obtain ⟨hprotocol, param, hparam, hnonempty, hverified⟩ := hverifies hpermission hp
    obtain ⟨hrefuses, hanswers⟩ := message_answer (r := .makeCredential (.params p)) rfl rfl t'
    refine ⟨fun e he => hrefuses e ?_ (made_for_verified he hprotocol hparam hnonempty hset' hverified), fun a ha => ?_⟩
    · rcases he with rfl | rfl <;> decide
    · obtain ⟨a', ha', hsame⟩ := hanswers _ ha
      cases hsame
      exact made_uv hparam ha'
  · intro hpermission p hp
    obtain ⟨hprotocol, param, hparam, hnonempty, hverified⟩ := hverifies hpermission hp
    obtain ⟨hrefuses, hanswers⟩ := message_answer (r := .getAssertion (.params p)) rfl rfl t'
    refine ⟨fun e he => hrefuses e ?_ (asserted_for_verified he hprotocol hparam hnonempty hverified), fun a ha => ?_⟩
    · rcases he with rfl | rfl <;> decide
    · obtain ⟨a', ha', hsame⟩ := hanswers _ ha
      cases hsame
      exact asserted_uv hparam ha'

end

section Plain

/-- The plain SDK with a key agreement that comes out the same on both sides. -/
@[reducible] private def agreeingSdk : Sdk :=
  { plainSdk with ecdhComputeShared := fun d x _ => some (.ofBytes 32 (List.zipWith (· ^^^ ·) d.1 x)) }

attribute [local instance] agreeingSdk plainLibrary

private theorem agreeingSdk_ciphers : ProtocolCiphers where
  generates e := ⟨e.block 32, 32, rfl⟩
  agreed _ _ := ⟨_, rfl, congrArg (fun z => some (Block.ofBytes 32 z)) (List.zipWith_comm_of_comm fun x y => UInt8.xor_comm x y)⟩
  derived _ _ := ⟨_, rfl⟩
  deciphered _ _ _ plain _ _ := ⟨plain, rfl, rfl⟩
  authenticated _ _ := ⟨_, rfl⟩

private def plainPlatform : Platform := ⟨2, Entropy.block (fun n => UInt8.ofNat (3 * n)) 32⟩

/-- The state after the key agreement. -/
private def agreedPinDevice : Device := (authenticate (.cbor (.clientPin (.params plainPlatform.agreementRequest))) (pinDevice [])).2

end Plain
end FidoTouch.Ctap
