import FidoTouch.Ctap.Changes

/-! The kinds of change each command is made of, and the first invariant of runs: that a token with
permissions is in use. -/
namespace FidoTouch.Ctap
open FidoTouch.Program Handler FidoTouch.Storage FidoTouch.Resident

-- The search for `Keeps` follows whole commands.
set_option synthInstance.maxSize 4096

variable {ε α : Type}

section
variable {R : Device → Device → Prop} {P : Nat → Prop} [hR : Spares R P] [AdmitsOthers R]
include hR

/-! ### The values of tokens -/

instance (fid : Nat) [Fact (¬ P fid)] : Keeps R (resetAuthToken fid : Handler Device ε Unit) := by
  unfold resetAuthToken
  infer_instance

variable [Ordinary P]

instance [AdmitsGlobals R] [AdmitsToken R .reset] : Keeps R (resetPinUvAuthToken : Handler Device ε Unit) := by
  unfold resetPinUvAuthToken
  exact .bind inferInstance fun _ => .bind (keeps_of_token .reset fun _ => ⟨⟨_, rfl⟩, rfl⟩) fun _ => inferInstance

instance [AdmitsGlobals R] : Keeps R (resetPersistentPinUvAuthToken : Handler Device ε Unit) := by
  unfold resetPersistentPinUvAuthToken
  infer_instance

variable [Sdk]

instance : Keeps R (regenerate : Handler Device ε Unit) := by
  unfold regenerate
  refine .bind inferInstance fun key => ?_
  split <;> infer_instance

instance [AdmitsGlobals R] [AdmitsToken R .reset] : Keeps R (initializeKeyAgreement : Handler Device ε Unit) := by
  unfold initializeKeyAgreement
  infer_instance

/-! ### authenticatorClientPIN -/

instance (pinData : Bytes) [Fact (¬ P efPin)] : Keeps R (persistPinRetryCounter pinData : Handler Device ε Bool) := by
  unfold persistPinRetryCounter
  infer_instance

instance (key : Block 32) : Keeps R (setSessionPin key : Handler Device ε Unit) := by
  unfold setSessionPin
  infer_instance

instance (retries : UInt8) [AdmitsPinGuard R] : Keeps R (pinMismatch retries : CtapOp α) := by
  unfold pinMismatch
  infer_instance

instance (p : ClientPinParams) (sharedSecret : Bytes) [AdmitsPinGuard R] [Fact (¬ P efPin)] :
    Keeps R (comparePin p sharedSecret) := by
  unfold comparePin
  infer_instance

section
variable [Fact (¬ P efKeyDev)]

instance (record hash : Bytes) (keydev : Block 32) : Keeps R (upgradePin record hash keydev) := by
  unfold upgradePin
  infer_instance

instance (hash : Bytes) (keydev : Block 32) : Keeps R (rekey hash keydev) := by
  unfold rekey
  infer_instance

end

instance [AdmitsGlobals R] : Keeps R (issuePersistentToken : Handler Device ε Bytes) := by
  unfold issuePersistentToken
  infer_instance

instance : Keeps R getPinRetries := by
  unfold getPinRetries
  infer_instance

instance (p : ClientPinParams) : Keeps R (getKeyAgreement p) := by
  unfold getKeyAgreement
  infer_instance

section
variable [AdmitsPinGuard R] [Fact (¬ P efPin)]
  [∀ (ε : Type) (key : Block 32), Keeps R (checkKeydevEncrypted key : Handler Device ε Unit)]

instance (p : ClientPinParams) : Keeps R (setPin p) := by
  unfold setPin
  infer_instance

instance (record hash : Bytes) : Keeps R (confirmPin record hash : Handler Device ε Unit) := by
  unfold confirmPin
  infer_instance

instance (record hash : Bytes) : Keeps R (confirmPinForToken record hash : Handler Device ε Unit) := by
  unfold confirmPinForToken
  infer_instance

end

section
variable [AdmitsGlobals R] [AdmitsToken R .issue]

instance (p : ClientPinParams) : Keeps R (beginToken p : Handler Device ε Unit) :=
  keeps_of_token .issue fun _ => ⟨rfl, rfl⟩

variable [AdmitsToken R .reset]

instance (p : ClientPinParams) : Keeps R (issueToken p : Handler Device ε Bytes) := by
  unfold issueToken
  infer_instance

instance (p : ClientPinParams) : Keeps R (grantToken p : Handler Device ε Bytes) := by
  unfold grantToken
  infer_instance

variable [AdmitsPinGuard R]

instance (p : ClientPinParams) (sharedSecret : Bytes) : Keeps R (answerToken p sharedSecret) := by
  unfold answerToken
  infer_instance

variable [Fact (¬ P efPin)] [Fact (¬ P efMinpinlen)]

instance (pin : Bytes) : Keeps R (storeNewPin pin) := by
  unfold storeNewPin
  infer_instance

variable [Fact (¬ P efKeyDev)]

instance (p : ClientPinParams) : Keeps R (changePin p) := by
  unfold changePin
  infer_instance

instance (p : ClientPinParams) : Keeps R (getPinToken p) := by
  unfold getPinToken
  infer_instance

instance (request : Parsed ClientPinParams) : Keeps R (cborClientPin request) := by
  unfold cborClientPin
  split <;> infer_instance

end

/-! ### authenticatorConfig and the vendor commands -/

instance (p : ConfigParams) : Keeps R (configAuthorize p) := by
  unfold configAuthorize
  infer_instance

instance : Keeps R toggleAlwaysUv := by
  unfold toggleAlwaysUv
  infer_instance

instance [AdmitsGlobals R] [AdmitsToken R .reset] [Fact (¬ P efMinpinlen)] (p : ConfigParams) : Keeps R (setMinPinLength p) := by
  unfold setMinPinLength
  infer_instance

instance (b : Bytes) : Keeps R (answerBytes b) := by
  unfold answerBytes
  infer_instance

instance : Keeps R backupSave := by
  unfold backupSave
  infer_instance

instance (p : VendorParams) : Keeps R (mseKeyAgreement p) := by
  unfold mseKeyAgreement
  infer_instance

instance [∀ key, Keeps R (loadKeydev key)] : Keeps R attestationRequest := by
  unfold attestationRequest
  refine .bind inferInstance fun keydev => ?_
  split <;> infer_instance

section
variable [AdmitsKeydev R] [Fact (¬ P efKeyDev)] [Fact (¬ P efKeyDevEnc)]

instance : Keeps R autDisable := by
  unfold autDisable
  infer_instance

instance (p : ConfigParams) : Keeps R (autEnable p) := by
  unfold autEnable
  infer_instance

instance (p : ConfigParams) : Keeps R (configVendor p) := by
  unfold configVendor
  infer_instance

instance [AdmitsGlobals R] [AdmitsToken R .reset] [Fact (¬ P efMinpinlen)] (request : Parsed ConfigParams) :
    Keeps R (cborConfig request) := by
  unfold cborConfig
  infer_instance

instance (p : VendorParams) : Keeps R (backupRestore p) := by
  unfold backupRestore
  infer_instance

omit [Fact (¬ P efKeyDev)] [Fact (¬ P efKeyDevEnc)] in
instance (p : VendorParams) : Keeps R (unlock p) := by
  unfold unlock
  refine .bind inferInstance fun d => .bind inferInstance fun _ => .bind inferInstance fun _ =>
    .bind inferInstance fun _ => .bind inferInstance fun _ => ?_
  split <;> infer_instance

instance (cmd : UInt8) (request : Parsed VendorParams) : Keeps R (cborVendorGeneric cmd request) := by
  unfold cborVendorGeneric
  infer_instance

instance (cmd : UInt8) (request : Parsed VendorParams) : Keeps R (cborVendor cmd request) := by
  unfold cborVendor
  infer_instance

end

variable [∀ key, Keeps R (loadKeydev key)]

/-! ### Large blobs and credential management -/

instance (p : LargeBlobsParams) (count : UInt64) : Keeps R (largeBlobsGet p count) := by
  unfold largeBlobsGet
  infer_instance

instance (p : LargeBlobsParams) (fragment : Bytes) : Keeps R (largeBlobsAuthorize p fragment) := by
  unfold largeBlobsAuthorize
  infer_instance

section
variable [AdmitsUpload R]

instance (p : LargeBlobsParams) : Keeps R (largeBlobsBegin p) := by
  unfold largeBlobsBegin
  infer_instance

variable [Fact (¬ P efLargeblob)]

instance (p : LargeBlobsParams) (fragment : Bytes) : Keeps R (largeBlobsSet p fragment) := by
  unfold largeBlobsSet
  infer_instance

instance (request : Parsed LargeBlobsParams) : Keeps R (cborLargeBlobs request) := by
  unfold cborLargeBlobs
  refine .bind inferInstance fun p => .bind inferInstance fun _ => ?_
  split <;> infer_instance

end

instance (f : Enumeration → Enumeration) : Keeps R (modifyEnumeration f : Handler Device ε Unit) := by
  unfold modifyEnumeration
  infer_instance

variable [ObjectLibrary]

instance (p : CredMgmtParams) : Keeps R (authorizePaut p) := by
  unfold authorizePaut
  infer_instance

instance (p : CredMgmtParams) : Keeps R (authorizeRead p) := by
  unfold authorizeRead
  infer_instance

instance (p : CredMgmtParams) : Keeps R (getCredsMetadata p) := by
  unfold getCredsMetadata
  infer_instance

instance (record : Option Bytes) (totalRps : Option UInt16) : Keeps R (listRp record totalRps) := by
  unfold listRp
  infer_instance

instance (p : CredMgmtParams) : Keeps R (enumerateRpsBegin p) := by
  unfold enumerateRpsBegin
  infer_instance

instance : Keeps R enumerateRpsGetNext := by
  unfold enumerateRpsGetNext
  infer_instance

instance (slot : Slot) (cred : Credential) : Keeps R (listedPublicKey slot cred) := by
  unfold listedPublicKey
  refine .bind inferInstance fun d => ?_
  split <;> infer_instance

instance (cred : Credential) : Keeps R (listedLargeBlobKey cred) := by
  unfold listedLargeBlobKey
  infer_instance

instance (slot : Option Slot) (rpIdHash : Block 32) (totalCredentials : Option UInt16) :
    Keeps R (listCredential slot rpIdHash totalCredentials) := by
  unfold listCredential
  infer_instance

instance (p : CredMgmtParams) : Keeps R (enumerateCredentialsBegin p) := by
  unfold enumerateCredentialsBegin
  infer_instance

instance : Keeps R enumerateCredentialsGetNext := by
  unfold enumerateCredentialsGetNext
  infer_instance

instance (p : CredMgmtParams) : Keeps R (deleteCredential p) := by
  unfold deleteCredential
  infer_instance

instance (p : CredMgmtParams) : Keeps R (updateUserInformation p) := by
  unfold updateUserInformation updatedCredential
  infer_instance

instance (request : Parsed CredMgmtParams) : Keeps R (cborCredMgmt request) := by
  unfold cborCredMgmt
  infer_instance

/-! ### Starting up and resetting -/

instance (fid : Nat) (data : Bytes) [Fact (¬ P fid)] : Keeps R (putIfEmpty fid data : Handler Device ε Unit) := by
  unfold putIfEmpty
  infer_instance

instance (fid : Nat) [Fact (¬ P fid)] : Keeps R (randomizeIfEmpty fid : Handler Device ε Unit) := by
  unfold randomizeIfEmpty
  infer_instance

instance [Fact (¬ P efKeyDev)] : Keeps R ensureKeydev := by
  unfold ensureKeydev
  infer_instance

instance : Keeps R ensureCertdev := by
  unfold ensureCertdev
  infer_instance

instance (slot : Slot) : Keeps R (migrateRp slot : Handler Device ε Bool) := by
  unfold migrateRp
  refine .bind inferInstance fun files => ?_
  split
  · infer_instance
  · split
    · infer_instance
    · refine .bind inferInstance fun out => ?_
      split <;> infer_instance

instance : Keeps R (migrateRpSecure : Handler Device ε Unit) := by
  unfold migrateRpSecure
  infer_instance

instance : Keeps R cborSelection := by
  unfold cborSelection
  infer_instance

section
variable [AdmitsGlobals R] [AdmitsToken R .load] [Keeps R ensureKeydev] [Fact (¬ P efCounter)] [Fact (¬ P efLargeblob)]

instance : Keeps R scanFilesFido := by
  unfold scanFilesFido
  exact .bind inferInstance fun _ => .bind inferInstance fun _ => .bind inferInstance fun _ => .bind inferInstance fun _ =>
    .bind (keeps_of_token .load fun _ => ⟨⟨_, rfl⟩, rfl⟩) fun _ => inferInstance

instance [AdmitsPinGuard R] : Keeps R (initFido : Handler Device ε Unit) := by
  unfold initFido
  infer_instance

end

/-! ### Making a credential -/

instance : Keeps R requireButton := by
  unfold requireButton
  infer_instance

instance (param : Option Bytes) (protocol : UInt64) : Keeps R (pinUvAuthParamChecks param protocol) := by
  unfold pinUvAuthParamChecks
  split <;> infer_instance

instance (protocol : UInt64) (data param : Bytes) : Keeps R (refuseParam protocol data param) := by
  unfold refuseParam
  infer_instance

instance (permission : UInt8) : Keeps R (refusePermission permission) := by
  unfold refusePermission
  infer_instance

instance (rpIdHash : Block 32) : Keeps R (bindRp rpIdHash) := by
  unfold bindRp
  infer_instance

section
variable [Keeps R (getUserPresentFlagValue : CtapOp Bool)] [Keeps R (getUserVerifiedFlagValue : CtapOp Bool)]

instance : Keeps R requireUserPresent := by
  unfold requireUserPresent
  infer_instance

instance : Keeps R refuseUnverified := by
  unfold refuseUnverified
  infer_instance

instance [AdmitsGlobals R] [AdmitsToken R .lower] [AdmitsToken R .clear] : Keeps R (clearTokenFlags : Handler Device ε Unit) := by
  unfold clearTokenFlags
  infer_instance

instance [hbind : AdmitsToken R .bind] (rpIdHash : Block 32) : Keeps R (claimRp rpIdHash : Handler Device ε Unit) := keeps_of fun d => by
  unfold claimRp
  rw [bind_eq (get_run d)]
  by_cases hrp : d.paut.hasRpId = false
  · rw [runIf_true hrp]
    exact hbind.rel d _ ⟨hrp, rpIdHash, rfl⟩
  · rw [runIf_false hrp]
    exact Std.Refl.refl d

instance [AdmitsToken R .bind] (p : MakeCredentialParams) : Keeps R (mcVerifyParam p) := by
  unfold mcVerifyParam
  split <;> infer_instance

instance [AdmitsToken R .bind] (p : MakeCredentialParams) : Keeps R (mcPrepare p) := by
  unfold mcPrepare
  infer_instance

instance [AdmitsGlobals R] [AdmitsToken R .lower] [AdmitsToken R .clear] (p : MakeCredentialParams) : Keeps R (mcUserPresence p) := by
  unfold mcUserPresence
  infer_instance

instance [Fact (¬ P efCounter)] (p : MakeCredentialParams) (curve alg : Int) (flags : UInt8) : Keeps R (attest p curve alg flags) := by
  unfold attest
  infer_instance

instance [AdmitsGlobals R] [AdmitsToken R .lower] [AdmitsToken R .bind] [AdmitsToken R .clear] [Fact (¬ P efCounter)]
    (request : Parsed MakeCredentialParams) :
    Keeps R (cborMakeCredential request) := by
  unfold cborMakeCredential
  infer_instance

/-! ### Asserting a credential -/

instance [AdmitsToken R .bind] (p : GetAssertionParams) : Keeps R (gaVerifyParam p) := by
  unfold gaVerifyParam
  split <;> infer_instance

instance [AdmitsToken R .bind] (p : GetAssertionParams) : Keeps R (gaPrepare p) := by
  unfold gaPrepare
  infer_instance

instance (p : GetAssertionParams) : Keeps R (gaAskUser p) := by
  unfold gaAskUser
  infer_instance

instance [AdmitsGlobals R] [AdmitsToken R .lower] [AdmitsToken R .clear] (p : GetAssertionParams) : Keeps R (gaUserPresence p) := by
  unfold gaUserPresence
  infer_instance

end

section
variable [AdmitsAssertions R]

instance (p : GetAssertionParams) (found : Selection) (creds : List Credential) (count : Nat) (flags : UInt8) :
    Keeps R (chooseCredential p found creds count flags) := by
  unfold chooseCredential keepAssertion
  infer_instance

instance : Keeps R (resetGnaState : Handler Device ε Unit) := by
  unfold resetGnaState
  infer_instance

variable [Fact (¬ P efCounter)]

instance : Keeps R nextAssertion := by
  unfold nextAssertion
  infer_instance

instance : Keeps R cborGetNextAssertion := by
  unfold cborGetNextAssertion
  refine .bind inferInstance fun answer => .bind inferInstance fun d => ?_
  split <;> infer_instance

section
variable [AdmitsGlobals R] [AdmitsToken R .lower] [AdmitsToken R .bind] [AdmitsToken R .clear]

instance (request : Parsed GetAssertionParams) : Keeps R (firstAssertion request) := by
  unfold firstAssertion
  infer_instance

instance (request : Parsed GetAssertionParams) : Keeps R (cborGetAssertion request) := by
  unfold cborGetAssertion
  refine .bind inferInstance fun answer => ?_
  split <;> infer_instance

variable [Fact (¬ P efLargeblob)] [AdmitsUpload R]

/-- What is left of the commands when those on the PIN, the configuration and the reset are told apart. -/
theorem cborCommand_other {r : Request} (hpin : ∀ p, r = .clientPin p → Keeps R (cborClientPin p))
    (hconfig : ∀ p, r = .config p → Keeps R (cborConfig p)) (hreset : r = .reset → Keeps R cborReset) :
    Keeps R (cborCommand r) := by
  unfold cborCommand
  split
  case h_4 p =>
    have := hpin p rfl
    infer_instance
  case h_6 p =>
    have := hconfig p rfl
    infer_instance
  case h_9 =>
    have := hreset rfl
    infer_instance
  all_goals infer_instance

end
end
end

section
variable {R : Device → Device → Prop} {P : Nat → Prop} [hR : Spares R P] [AdmitsGlobals R] [AdmitsToken R .lower] [AdmitsToken R .stop]
  [AdmitsAssertions R] [Sdk] [ObjectLibrary]
include hR

/-- A message keeps what its command keeps. -/
theorem authenticate_keeps {i : Input} (hcbor : ∀ r, i = .cbor r → Keeps R (cborCommand r))
    (hvendor : ∀ cmd p, i = .vendor cmd p → Keeps R (cborVendor cmd p)) (hon : i ≠ .powerCycle) : Keeps R (authenticate i) := by
  cases i with
  | cbor r =>
    have := hcbor r rfl
    unfold authenticate cborParse
    infer_instance
  | vendor cmd p =>
    have := hvendor cmd p rfl
    unfold authenticate vendorParse
    infer_instance
  | emptyMessage =>
    unfold authenticate emptyMessage
    infer_instance
  | elapse ms =>
    unfold authenticate
    infer_instance
  | powerCycle => exact absurd rfl hon

end

theorem configAuthorize_same [Sdk] (p : ConfigParams) : Keeps Eq (configAuthorize p) := by
  unfold configAuthorize
  infer_instance

/-! ### Every command -/

section
variable {R : Device → Device → Prop} [Std.Refl R] [IsTrans Device R] [Admits R .other] [Sdk] [ObjectLibrary]

omit [Std.Refl R] [IsTrans Device R] [Sdk] [ObjectLibrary] in
instance : Keeps R (fileInitializeFlash : Handler Device ε Unit) := keeps_of_makes .other fun _ => ⟨rfl, fun _ _ => rfl⟩

section
variable [Admits R .load] [Admits R .lower] [Admits R .stop] [Admits R .reset] [Admits R .clear] [Admits R .bind] [Admits R .issue]

omit [Admits R .lower] [Admits R .stop] [Admits R .reset] [Admits R .clear] [Admits R .bind] [Admits R .issue] in
instance : Keeps R cborReset := by
  unfold cborReset
  infer_instance

omit [Admits R .stop] in
/-- Every command but an assertion leaves the kept assertions as they are. -/
theorem cborCommand_keeps {r : Request} (hfirst : ∀ p, r ≠ .getAssertion p) (hnext : r ≠ .getNextAssertion) :
    Keeps R (cborCommand r) := by
  unfold cborCommand
  split
  case h_2 p => exact absurd rfl (hfirst p)
  case h_3 => exact absurd rfl hnext
  all_goals infer_instance

instance [Admits R .keep] (r : Request) : Keeps R (cborCommand r) := by
  unfold cborCommand
  split <;> infer_instance

instance [Admits R .keep] (r : Request) : Keeps R (cborParse r) := by
  unfold cborParse
  infer_instance
end

instance [Admits R .lower] [Admits R .stop] (cmd : UInt8) (p : Parsed VendorParams) : Keeps R (vendorParse cmd p) := by
  unfold vendorParse
  infer_instance

instance [Admits R .lower] [Admits R .stop] : Keeps R emptyMessage := by
  unfold emptyMessage
  infer_instance

end

/-! ### Single relations -/

/-- The kept assertions are the same. -/
def SameAssertions (d d' : Device) : Prop := d'.gna = d.gna

instance : Std.Refl SameAssertions := ⟨fun _ => rfl⟩
instance : IsTrans Device SameAssertions := ⟨fun _ _ _ h h' => h'.trans h⟩

instance : Admits SameAssertions .other := ⟨fun h => h.gna (by simp) (by simp)⟩
instance : Admits SameAssertions .load := ⟨fun h => h.gna (by simp) (by simp)⟩
instance : Admits SameAssertions .lower := ⟨fun h => h.gna (by simp) (by simp)⟩
instance : Admits SameAssertions .stop := ⟨fun h => h.gna (by simp) (by simp)⟩
instance : Admits SameAssertions .reset := ⟨fun h => h.gna (by simp) (by simp)⟩
instance : Admits SameAssertions .clear := ⟨fun h => h.gna (by simp) (by simp)⟩
instance : Admits SameAssertions .bind := ⟨fun h => h.gna (by simp) (by simp)⟩
instance : Admits SameAssertions .issue := ⟨fun h => h.gna (by simp) (by simp)⟩

/-- A token out of use has no permissions. -/
def TokenLive (d : Device) : Prop := d.paut.permissions ≠ 0 → d.paut.inUse = true

instance (k : Change) : Admits (Preserves TokenLive) k :=
  admits_preserves (I := fun t => t.permissions ≠ 0 → t.inUse = true) fun t t' h hlive => by
    cases k with
    | other | keep => rwa [show t' = t from h]
    | load =>
      obtain ⟨data, rfl⟩ := h
      exact hlive
    | lower =>
      obtain ⟨up, uv, -, rfl⟩ := h
      exact hlive
    | bind =>
      obtain ⟨-, rpIdHash, rfl⟩ := h
      exact hlive
    | reset =>
      obtain ⟨data, rfl⟩ := h
      exact absurd rfl
    | clear =>
      obtain ⟨hinUse, rfl⟩ := h
      exact fun _ => hinUse
    | issue => exact fun _ => h
    | stop | powerUp =>
      rw [h]
      exact absurd rfl

variable [Sdk] [ObjectLibrary]

omit [ObjectLibrary] in
/-- After a power cycle there is no token in use, and none with permissions. -/
theorem boot_live (d : Device) : TokenLive d.boot :=
  (inferInstance : Keeps (Preserves TokenLive) (initFido : Handler Device PicoError Unit)).rel d.powerUp fun h => absurd rfl h

/-- Every input keeps a token with permissions in use. -/
theorem authenticate_live (i : Input) {d : Device} (hd : TokenLive d) : TokenLive (authenticate i d).2 := by
  cases i with
  | cbor r => exact (inferInstance : Keeps (Preserves TokenLive) (some <$> cborParse r)).rel d hd
  | vendor cmd p => exact (inferInstance : Keeps (Preserves TokenLive) (some <$> vendorParse cmd p)).rel d hd
  | emptyMessage => exact (inferInstance : Keeps (Preserves TokenLive) (some <$> emptyMessage)).rel d hd
  | elapse ms => exact hd
  | powerCycle => exact boot_live d

end FidoTouch.Ctap
