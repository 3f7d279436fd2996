import FidoTouch.Ctap.Authenticator
import FidoTouch.Storage.Carries

/-! What leaves the PIN's files alone: relations that see no other file are kept by start-up, by time, and by
every part of authenticatorClientPIN and authenticatorConfig that is not about the PIN. -/
namespace FidoTouch.Ctap
open FidoTouch.Program Handler FidoTouch.Storage FidoTouch.Resident

-- The search for `Keeps` follows whole commands.
set_option synthInstance.maxSize 4096

variable {ε α : Type}

/-- The record of the PIN, and its least length with the flag of a forced change. -/
def IsPinFile (fid : Nat) : Prop := fid = efPin ∨ fid = efMinpinlen

instance : DecidablePred IsPinFile := fun fid => inferInstanceAs (Decidable (fid = efPin ∨ fid = efMinpinlen))

instance : Fact (¬ IsPinFile efKeyDev) := ⟨by decide⟩
instance : Fact (¬ IsPinFile efKeyDevEnc) := ⟨by decide⟩
instance : Fact (¬ IsPinFile efEeDev) := ⟨by decide⟩
instance : Fact (¬ IsPinFile efEeDevEa) := ⟨by decide⟩
instance : Fact (¬ IsPinFile efCounter) := ⟨by decide⟩
instance : Fact (¬ IsPinFile efOpts) := ⟨by decide⟩
instance : Fact (¬ IsPinFile efAuthtoken) := ⟨by decide⟩
instance : Fact (¬ IsPinFile efPauthtoken) := ⟨by decide⟩
instance : Fact (¬ IsPinFile efPinComplexityPolicy) := ⟨by decide⟩
instance : Fact (¬ IsPinFile efDevState) := ⟨by decide⟩
instance : Fact (¬ IsPinFile efLargeblob) := ⟨by decide⟩
instance (slot : Slot) : Fact (¬ IsPinFile (rpFid slot)) := ⟨by simp only [IsPinFile, rpFid, efRp, efPin, efMinpinlen]; omega⟩

/-- A relation of the stores of two states. -/
def InStore (S : Store Nat UInt8 → Store Nat UInt8 → Prop) (d d' : Device) : Prop := S d.store d'.store

/-- No token gained a permission that it did not have. -/
structure Weakened (d d' : Device) : Prop where
  paut : d'.paut.permissions = d.paut.permissions ∨ d'.paut.permissions = 0
  ppaut : d'.ppaut.permissions = d.ppaut.permissions ∨ d'.ppaut.permissions = 0

/-- The stores are related, and no token gained a permission. -/
def Quiet (S : Store Nat UInt8 → Store Nat UInt8 → Prop) (d d' : Device) : Prop := S d.store d'.store ∧ Weakened d d'

theorem Weakened.refl (d : Device) : Weakened d d := ⟨.inl rfl, .inl rfl⟩

theorem Weakened.trans {d d' d'' : Device} (h : Weakened d d') (h' : Weakened d' d'') : Weakened d d'' where
  paut := h'.paut.elim (fun heq => heq ▸ h.paut) .inr
  ppaut := h'.ppaut.elim (fun heq => heq ▸ h.ppaut) .inr

/-- A relation of devices that looks at the stores, and at most at what tokens gain. -/
class Settles (R : Device → Device → Prop) (S : outParam (Store Nat UInt8 → Store Nat UInt8 → Prop)) : Prop where
  rel : ∀ {d d'}, S d.store d'.store → Weakened d d' → R d d'
  trans : ∀ {d d' d''}, R d d' → R d' d'' → R d d''

variable {S : Store Nat UInt8 → Store Nat UInt8 → Prop} [hS : Sees S IsPinFile] {R : Device → Device → Prop}

instance : Settles (InStore S) S := ⟨fun h _ => h, fun h h' => hS.trans h h'⟩
instance : Settles (Quiet S) S := ⟨fun h hweak => ⟨h, hweak⟩, fun h h' => ⟨hS.trans h.1 h'.1, h.2.trans h'.2⟩⟩

variable [hR : Settles R S]

namespace Settles
section
include hS hR

instance (priority := low) : Std.Refl R := ⟨fun d => hR.rel (hS.refl d.store) (.refl d)⟩
omit hS in
instance (priority := low) : IsTrans Device R := ⟨fun _ _ _ => hR.trans⟩

/-- An update of globals other than the tokens. -/
instance (hasKeydevDec : Device → Bool) (keydevDec sessionPin certdevSha256 : Device → Block 32)
    (usageTimer initialUsageTimeLimit userPresentTimeLimit : Device → UInt32) (needsPowerCycle : Device → Bool)
    (newPinMismatches : Device → UInt8) (hkey : Device → Option (Block 32)) (mse : Device → Mse)
    (enumeration : Device → Enumeration) (gna : Device → GnaState) (largeBlobs : Device → LargeBlobs)
    (sessionEpoch boardMillis : Device → UInt32) (presses : Device → Nat → Press) (entropy : Device → Entropy)
    (checks : Device → List Bool) :
    Keeps R (modify fun d => ⟨d.store, hasKeydevDec d, keydevDec d, sessionPin d, certdevSha256 d, d.paut, d.ppaut,
      usageTimer d, initialUsageTimeLimit d, userPresentTimeLimit d, needsPowerCycle d, newPinMismatches d, hkey d,
      mse d, enumeration d, gna d, largeBlobs d, sessionEpoch d, boardMillis d, presses d, entropy d, checks d⟩ :
      Handler Device ε Unit) := ⟨fun d => hR.rel (hS.refl d.store) ⟨.inl rfl, .inl rfl⟩⟩

omit hS in
instance (x : Handler (Store Nat UInt8) ε α) [hx : Keeps S x] : Keeps R (onStore x) :=
  ⟨fun d => hR.rel (hx.rel d.store) ⟨.inl rfl, .inl rfl⟩⟩

instance : Keeps R (getFiles : Handler Device ε Files) := ⟨fun d => hR.rel (hS.refl d.store) (.refl d)⟩
instance (n : Nat) : Keeps R (randomBlock n : Handler Device ε (Block n)) :=
  ⟨fun d => hR.rel (hS.refl d.store) ⟨.inl rfl, .inl rfl⟩⟩

instance (f : Entropy → Option (α × Nat)) : Keeps R (randomly f : Handler Device ε (Option α)) where
  rel d := by
    unfold randomly
    split
    · exact hR.rel (hS.refl d.store) ⟨.inl rfl, .inl rfl⟩
    · exact Std.Refl.refl d

instance (fid : Nat) (data : Bytes) [Fact (¬ IsPinFile fid)] : Keeps R (putFile fid data : Handler Device ε Unit) := by
  unfold putFile
  infer_instance

instance : Keeps R (commit : Handler Device ε Unit) := by
  unfold commit
  infer_instance

instance (opts : UInt8) : Keeps R (setOpts opts : Handler Device ε Unit) := by
  unfold setOpts
  infer_instance

instance : Keeps R (sessionInvalidate : Handler Device ε Unit) := by
  unfold sessionInvalidate
  infer_instance

instance : Keeps R (stopUsingPinUvAuthToken : Handler Device ε Unit) := by
  unfold stopUsingPinUvAuthToken
  exact .bind inferInstance fun _ => .bind ⟨fun d => hR.rel (hS.refl d.store) ⟨.inr rfl, .inl rfl⟩⟩ fun _ => inferInstance

instance : Keeps R (clearUserPresentFlag : Handler Device ε Unit) := by
  unfold clearUserPresentFlag
  have : Keeps R (modifyPaut fun t => { t with userPresent := false } : Handler Device ε Unit) :=
    ⟨fun d => hR.rel (hS.refl d.store) ⟨.inl rfl, .inl rfl⟩⟩
  infer_instance

instance : Keeps R (pinUvAuthTokenTick : Handler Device ε Unit) := by
  unfold pinUvAuthTokenTick
  infer_instance

instance : Keeps R (resetGnaState : Handler Device ε Unit) := by
  unfold resetGnaState
  infer_instance

omit hS hR in
/-- A write is over, whatever became of it. -/
theorem putFile_run (fid : Nat) (data : Bytes) (d : Device) : ∃ store,
    (putFile fid data : Handler Device ε Unit) d = (.ok (), { d with store := store }) ∧ store.durable = d.store.durable ∧
      (store.view = Function.update d.store.view fid (some data) ∧ store.log = .write fid (some data) :: d.store.log ∨
        store.view = d.store.view ∧ store.log = d.store.log ∧ d.store.fates.head? = some false) := by
  obtain ⟨store, hrun, rfl | ⟨rfl, hfate⟩⟩ := putFile_cases fid data d
  · exact ⟨_, hrun, rfl, .inl ⟨rfl, rfl⟩⟩
  · exact ⟨_, hrun, rfl, .inr ⟨rfl, rfl, hfate⟩⟩

/-- Writing one of the PIN's files, where the relation allows it. -/
theorem filePut_rel {fid : Nat} {data : Bytes} {d : Device}
    (h : ∀ fates, S { d.store with fates := fates } ({ d.store with fates := fates }.set fid (some data))) :
    R d ((onStore (filePutData fid data) : Handler Device ε Bool) d).2 := by
  unfold onStore
  rw [zoom_run]
  rcases filePutData_run (ε := ε) fid data d.store with hrun | ⟨hrun, -⟩ <;> rw [hrun]
  · exact hR.rel (hS.trans (hS.fates d.store) (h _)) ⟨.inl rfl, .inl rfl⟩
  · exact hR.rel (hS.fates d.store) ⟨.inl rfl, .inl rfl⟩

theorem putFile_rel {fid : Nat} {data : Bytes} {d : Device}
    (h : ∀ fates, S { d.store with fates := fates } ({ d.store with fates := fates }.set fid (some data))) :
    R d ((putFile fid data : Handler Device ε Unit) d).2 :=
  rel_bind (filePut_rel h) fun _ _ _ => Std.Refl.refl _

/-! ### Tokens and keys -/

instance (fid : Nat) [Fact (¬ IsPinFile fid)] : Keeps R (resetAuthToken fid : Handler Device ε Unit) := by
  unfold resetAuthToken
  infer_instance

instance : Keeps R (resetPinUvAuthToken : Handler Device ε Unit) := by
  unfold resetPinUvAuthToken
  exact .bind inferInstance fun _ => .bind ⟨fun d => hR.rel (hS.refl d.store) ⟨.inr rfl, .inl rfl⟩⟩ fun _ => inferInstance

instance : Keeps R (resetPersistentPinUvAuthToken : Handler Device ε Unit) := by
  unfold resetPersistentPinUvAuthToken
  exact .bind inferInstance fun _ => .bind ⟨fun d => hR.rel (hS.refl d.store) ⟨.inl rfl, .inr rfl⟩⟩ fun _ => inferInstance

variable [Sdk]

instance : Keeps R (regenerate : Handler Device ε Unit) := by
  unfold regenerate
  refine .bind inferInstance fun key => ?_
  split <;> infer_instance

instance : Keeps R (initializeKeyAgreement : Handler Device ε Unit) := by
  unfold initializeKeyAgreement
  infer_instance

instance (key : Block 32) : Keeps R (loadKeydev key) := by
  unfold loadKeydev
  refine .bind inferInstance fun d => ?_
  split
  · infer_instance
  · split
    · infer_instance
    · unfold loadKeydevFile unwrapKeydev
      infer_instance

instance (keydev : Block 32) : Keeps R (encryptKeydevF1 keydev : Handler Device ε Unit) := by
  unfold encryptKeydevF1
  split <;> infer_instance

instance (pinToken : Block 32) : Keeps R (checkKeydevEncrypted pinToken : Handler Device ε Unit) := by
  unfold checkKeydevEncrypted
  refine .bind inferInstance fun files => ?_
  split <;> infer_instance

instance (key : Block 32) : Keeps R (setSessionPin key : Handler Device ε Unit) := by
  unfold setSessionPin
  infer_instance

instance (protocol : UInt8) (key input : Bytes) : Keeps R (encrypt protocol key input : Handler Device ε Bytes) := by
  unfold encrypt
  infer_instance

/-! ### authenticatorClientPIN -/

instance (retries : UInt8) : Keeps R (pinMismatch retries : CtapOp α) := by
  unfold pinMismatch
  infer_instance

instance (record hash : Bytes) (keydev : Block 32) : Keeps R (upgradePin record hash keydev) := by
  unfold upgradePin
  infer_instance

instance (hash : Bytes) (keydev : Block 32) : Keeps R (rekey hash keydev) := by
  unfold rekey
  infer_instance

instance : Keeps R getPinRetries := by
  unfold getPinRetries
  infer_instance

instance (p : ClientPinParams) : Keeps R (getKeyAgreement p) := by
  unfold getKeyAgreement
  infer_instance

/-! ### authenticatorConfig -/

instance (p : ConfigParams) : Keeps R (configAuthorize p) := by
  unfold configAuthorize
  infer_instance

instance (p : ConfigParams) : Keeps R (configVendor p) := by
  unfold configVendor autDisable autEnable
  infer_instance

instance : Keeps R toggleAlwaysUv := by
  unfold toggleAlwaysUv
  infer_instance

/-! ### Starting up -/

instance (fid : Nat) (data : Bytes) [Fact (¬ IsPinFile fid)] :
    Keeps R (putIfEmpty fid data : Handler Device ε Unit) := by
  unfold putIfEmpty
  infer_instance

instance (fid : Nat) [Fact (¬ IsPinFile fid)] : Keeps R (randomizeIfEmpty fid : Handler Device ε Unit) := by
  unfold randomizeIfEmpty
  infer_instance

instance : Keeps R ensureKeydev := by
  unfold ensureKeydev
  infer_instance

instance : Keeps R ensureCertdev := by
  unfold ensureCertdev
  infer_instance

instance : Keeps R scanFilesFido := by
  unfold scanFilesFido
  exact .bind inferInstance fun _ => .bind inferInstance fun _ => .bind inferInstance fun _ => .bind inferInstance fun _ =>
    .bind ⟨fun d => hR.rel (hS.refl d.store) ⟨.inl rfl, .inl rfl⟩⟩ fun _ => .bind inferInstance fun _ =>
    .bind ⟨fun d => hR.rel (hS.refl d.store) ⟨.inl rfl, .inl rfl⟩⟩ fun _ => inferInstance

instance (rpIdHash rpId : Bytes) : Keeps R (rpIdEncrypt rpIdHash rpId) := by
  unfold rpIdEncrypt deriveChachaKey
  infer_instance

instance (slot : Slot) : Keeps R (migrateRp slot : Handler Device ε Bool) := by
  unfold migrateRp
  refine .bind inferInstance fun files => ?_
  split
  · infer_instance
  · split
    · infer_instance
    · refine .bind inferInstance fun out => ?_
      split <;> infer_instance

instance : Keeps R (migrateRpSecure : Handler Device ε Unit) := by
  unfold migrateRpSecure
  infer_instance

instance : Keeps R (initFido : Handler Device ε Unit) := by
  unfold initFido
  infer_instance

end
end Settles

/-! ### Issuing a token -/

/-- An update of any globals. -/
instance {P : Nat → Prop} {S : Store Nat UInt8 → Store Nat UInt8 → Prop} [hS : Sees S P] (hasKeydevDec : Device → Bool) (keydevDec sessionPin certdevSha256 : Device → Block 32)
    (paut : Device → PinUvAuthToken) (ppaut : Device → PersistentPinUvAuthToken)
    (usageTimer initialUsageTimeLimit userPresentTimeLimit : Device → UInt32) (needsPowerCycle : Device → Bool)
    (newPinMismatches : Device → UInt8) (hkey : Device → Option (Block 32)) (mse : Device → Mse)
    (enumeration : Device → Enumeration) (gna : Device → GnaState) (largeBlobs : Device → LargeBlobs)
    (sessionEpoch boardMillis : Device → UInt32) (presses : Device → Nat → Press) (entropy : Device → Entropy)
    (checks : Device → List Bool) :
    Keeps (InStore S) (modify fun d => ⟨d.store, hasKeydevDec d, keydevDec d, sessionPin d, certdevSha256 d, paut d, ppaut d,
      usageTimer d, initialUsageTimeLimit d, userPresentTimeLimit d, needsPowerCycle d, newPinMismatches d, hkey d,
      mse d, enumeration d, gna d, largeBlobs d, sessionEpoch d, boardMillis d, presses d, entropy d, checks d⟩ :
      Handler Device ε Unit) := ⟨fun d => hS.refl d.store⟩

section
include hS

instance [Sdk] (p : ClientPinParams) : Keeps (InStore S) (grantToken p : Handler Device ε Bytes) := by
  unfold grantToken issuePersistentToken issueToken beginToken beginUsingPinUvAuthToken modifyPaut
  infer_instance

instance [Sdk] (p : ClientPinParams) (sharedSecret : Bytes) : Keeps (InStore S) (answerToken p sharedSecret) := by
  unfold answerToken
  infer_instance

end

end FidoTouch.Ctap
