import FidoTouch.Ctap.KeyMigration
import FidoTouch.Ctap.Selection
import FidoTouch.Ctap.U2fRegister

/-! Keys under one master key: what commands leave of it before they sign, and which key a path leads to. -/
namespace FidoTouch.Ctap
open FidoTouch.Program Handler FidoTouch.Storage

-- The search for `Keeps` follows whole commands.
set_option synthInstance.maxSize 4096

variable {ε α : Type} [Sdk]

/-! ### Commands that leave the master key alone -/

instance : Spares SameMaster IsKeydevFile where
  refl _ _ := rfl
  trans h h' key := (h' key).trans (h key)
  sync _ _ := rfl
  fates _ _ := rfl
  set d fid v hfid key := by
    have hview : (d.store.set fid v).view efKeyDev = d.store.view efKeyDev := by
      rw [Store.set_view, Function.update_of_ne (fun hsame : efKeyDev = fid => hfid hsame.symm)]
    simp only [keydevValue, fileData, Device.files_eq, hview]
  entropy _ _ _ := rfl

/-- The files in `P` are the same. -/
def SameFiles (P : Nat → Prop) (d d' : Device) : Prop := SameOn P d.store d'.store

instance (P : Nat → Prop) : Spares (SameFiles P) P where
  refl _ _ _ := rfl
  trans h h' fid hfid := (h' fid hfid).trans (h fid hfid)
  sync _ _ _ := rfl
  fates _ _ _ := rfl
  set d fid v hfid other hother := by
    have hne : other ≠ fid := fun hsame => hfid (hsame ▸ hother)
    rw [Store.set_view, Function.update_of_ne hne]
  entropy _ _ _ _ := rfl

/-- An update of what the master key does not depend on. -/
instance (certdevSha256 : Device → Block 32) (paut : Device → PinUvAuthToken) (ppaut : Device → PersistentPinUvAuthToken)
    (usageTimer initialUsageTimeLimit userPresentTimeLimit sessionEpoch boardMillis : Device → UInt32)
    (needsPowerCycle : Device → Bool) (newPinMismatches : Device → UInt8) (hkey : Device → Option (Block 32)) (mse : Device → Mse)
    (enumeration : Device → Enumeration) (gna : Device → GnaState) (largeBlobs : Device → LargeBlobs) (presses : Device → Nat → Press)
    (entropy : Device → Entropy) (checks : Device → List Bool) :
    Keeps SameMaster (modify fun d => ⟨d.store, d.hasKeydevDec, d.keydevDec, d.sessionPin, certdevSha256 d, paut d, ppaut d,
      usageTimer d, initialUsageTimeLimit d, userPresentTimeLimit d, needsPowerCycle d, newPinMismatches d, hkey d,
      mse d, enumeration d, gna d, largeBlobs d, sessionEpoch d, boardMillis d, presses d, entropy d, checks d⟩ :
      Handler Device ε Unit) := ⟨fun _ _ => rfl⟩

instance : Keeps SameMaster (waitButtonPressed : Handler Device ε Press) := ⟨fun _ _ => rfl⟩
instance : Keeps SameMaster (getUserVerifiedFlagValue : Handler Device ε Bool) := ⟨fun _ _ => rfl⟩
instance : Keeps SameMaster (getUserPresentFlagValue : Handler Device ε Bool) := ⟨fun _ _ => rfl⟩

instance (f : PinUvAuthToken → PinUvAuthToken) : Keeps SameMaster (modifyPaut f : Handler Device ε Unit) := by
  unfold modifyPaut
  infer_instance

instance : Keeps SameMaster (checkUserPresence : Handler Device ε Bool) := by
  unfold checkUserPresence
  infer_instance

instance : Keeps SameMaster (clearTokenFlags : Handler Device ε Unit) := by
  unfold clearTokenFlags clearUserPresentFlag clearUserVerifiedFlag clearPinUvAuthTokenPermissionsExceptLbw sessionInvalidate
  infer_instance

instance (rpIdHash : Block 32) : Keeps SameMaster (claimRp rpIdHash : Handler Device ε Unit) := by
  unfold claimRp
  infer_instance

instance : Keeps SameMaster requireButton := by
  unfold requireButton
  infer_instance

instance : Keeps SameMaster requireUserPresent := by
  unfold requireUserPresent
  infer_instance

instance (param : Option Bytes) (protocol : UInt64) : Keeps SameMaster (pinUvAuthParamChecks param protocol) := by
  unfold pinUvAuthParamChecks
  split <;> infer_instance

section
variable [Fact KeydevCiphers] [ObjectLibrary]

instance (p : MakeCredentialParams) : Keeps SameMaster (mcVerifyParam p) := by
  unfold mcVerifyParam refuseParam refusePermission bindRp refuseUnverified
  split <;> infer_instance

instance (p : MakeCredentialParams) : Keeps SameMaster (mcPrepare p) := by
  unfold mcPrepare
  infer_instance

instance (p : MakeCredentialParams) : Keeps SameMaster (mcUserPresence p) := by
  unfold mcUserPresence
  infer_instance

instance (p : GetAssertionParams) : Keeps SameMaster (gaVerifyParam p) := by
  unfold gaVerifyParam refuseParam refusePermission bindRp refuseUnverified
  split <;> infer_instance

instance (p : GetAssertionParams) : Keeps SameMaster (gaPrepare p) := by
  unfold gaPrepare
  infer_instance

instance (p : GetAssertionParams) : Keeps SameMaster (gaUserPresence p) := by
  unfold gaUserPresence gaAskUser
  infer_instance

instance (p : GetAssertionParams) (found : Selection) (creds : List Credential) (count : Nat) (flags : UInt8) :
    Keeps SameMaster (chooseCredential p found creds count flags) := by
  unfold chooseCredential keepAssertion
  infer_instance

end

/-! ### Where a path leads -/

/-- What keys have in common, whatever made them: they are on the curve they were read for, the bytes of a P-256 key are its
scalar, and there is no curve zero. -/
structure EcKeys : Prop where
  curve : ∀ curve b key, Sdk.ecpReadKey curve b = .ok key → key.curve = curve
  scalar : ∀ b key, b.length = 32 → Sdk.ecpReadKey curveP256 b = .ok key → key.d = b
  p256 : Sdk.curveBitSize curveP256 = some 256
  none : Sdk.curveBitSize 0 = none

theorem keyOfBytes_curve (keys : EcKeys) {curve : Int} {outk : Bytes} {key : EcKey} (h : keyOfBytes curve outk = .ok key) :
    key.curve = curve := by
  unfold keyOfBytes at h
  split at h
  · cases h
  · dsimp only at h
    split at h
    · next hread =>
      cases h
      exact keys.curve curve _ _ hread
    · cases h

theorem keyOfBytes_scalar (keys : EcKeys) {outk : Bytes} {key : EcKey} (hlength : 32 ≤ outk.length)
    (h : keyOfBytes curveP256 outk = .ok key) : key.d = outk.take 32 := by
  rw [keyOfBytes, keys.p256] at h
  simp only [show 256 % 8 = 0 from rfl, if_true, show (256 + 7) / 8 = 32 from rfl] at h
  split at h
  · next hread =>
    cases h
    exact keys.scalar _ _ (by rw [List.length_take]; omega) hread
  · cases h

/-- There is no key on curve zero. -/
theorem keyOfBytes_zero (keys : EcKeys) (outk : Bytes) : keyOfBytes 0 outk = .error (.other 1) := by
  rw [keyOfBytes, keys.none]

theorem hkdfPath_length (path : Bytes) (entries : List Nat) {outk outk' : Bytes} (hlength : outk.length = 67)
    (h : hkdfPath path entries outk = some outk') : outk'.length = 67 := by
  induction entries generalizing outk with
  | nil =>
    cases h
    exact hlength
  | cons i entries ih =>
    rw [hkdfPath, Option.bind_eq_bind, Option.bind_eq_some_iff] at h
    obtain ⟨next, -, hrest⟩ := h
    exact ih next.2 hrest

/-- A derivation looks no further than its words. -/
theorem hkdfPath_congr {path path' : Bytes} (entries : List Nat)
    (h : ∀ i ∈ entries, (path.drop (4 * i)).take 4 = (path'.drop (4 * i)).take 4) (outk : Bytes) :
    hkdfPath path entries outk = hkdfPath path' entries outk := by
  induction entries generalizing outk with
  | nil => rfl
  | cons i entries ih =>
    simp only [hkdfPath, h i (by simp), fun outk => ih (fun j hj => h j (List.mem_cons_of_mem i hj)) outk]

theorem hkdfPath_take (path : Bytes) (outk : Bytes) :
    hkdfPath (path.take 32) (List.range 8) outk = hkdfPath path (List.range 8) outk := by
  refine hkdfPath_congr (List.range 8) (fun i hi => ?_) outk
  have hi : i < 8 := List.mem_range.mp hi
  rw [List.drop_take, List.take_take, Nat.min_eq_left (by omega)]

section
variable [ciphers : Fact KeydevCiphers] {d d' : Device} {path : Bytes} {curve : Int} {key : EcKey}

/-- The key of a path is what the master key makes of its words. -/
theorem deriveKey_iff : (deriveKey path curve d).1 = .ok key ↔ ∃ keydev outk, keydevValue d (.zero 32) = .ok keydev ∧
    hkdfPath path (List.range 8) (keydev.1 ++ List.replicate 35 0) = some outk ∧ keyOfBytes curve outk = .ok key := by
  rw [← (loadKeydev_answers ciphers.out (.zero 32) d).1]
  constructor
  · intro h
    obtain ⟨keydev, s, hkeydev, h⟩ := bind_ok (run_of_ok h)
    obtain ⟨outk, s', houtk, h⟩ := bind_ok h
    exact ⟨keydev, outk, by rw [hkeydev], (orFail_ok houtk).1, (ofExcept_ok h).1⟩
  · rintro ⟨keydev, outk, hkeydev, houtk, hkey⟩
    unfold deriveKey
    rw [bind_eq (run_of_ok hkeydev), houtk, orFail_some_bind, hkey]
    rfl

/-- A key that is derived is derived from a master key. -/
theorem master_of_deriveKey (h : (deriveKey path curve d).1 = .ok key) : ∃ keydev, keydevValue d (.zero 32) = .ok keydev := by
  obtain ⟨keydev, -, hkeydev, -⟩ := deriveKey_iff.mp h
  exact ⟨keydev, hkeydev⟩

theorem deriveKey_curve (keys : EcKeys) (h : (deriveKey path curve d).1 = .ok key) : key.curve = curve := by
  obtain ⟨-, outk, -, -, hkey⟩ := deriveKey_iff.mp h
  exact keyOfBytes_curve keys hkey

/-- Past its words the path does not matter. -/
theorem deriveKey_take : (deriveKey (path.take 32) curve d).1 = .ok key ↔ (deriveKey path curve d).1 = .ok key := by
  simp only [deriveKey_iff, hkdfPath_take]

theorem SameMaster.deriveKey (h : SameMaster d d') : (deriveKey path curve d').1 = (deriveKey path curve d).1 := Repeats.same h

end
end FidoTouch.Ctap
