import FidoTouch.Ctap.CredMgmt
import FidoTouch.Ctap.GetAssertion
import FidoTouch.Ctap.MakeCredential
import FidoTouch.Resident.Writes

/-! What commands leave alone: loading keys, opening credentials and signing touch no global
but the files and the random source, and no file that is not theirs. -/
namespace FidoTouch.Ctap
open FidoTouch.Program Handler FidoTouch.Storage FidoTouch.Resident

-- The search for `Keeps` follows whole calls.
set_option synthInstance.maxSize 4096

variable {ε ε' α β : Type}

/-- The globals without the files and the random source. -/
def Device.ram (d : Device) : Device :=
  { d with store := ⟨fun _ => none, fun _ => none, [], []⟩, entropy := fun _ => 0 }

/-- Only files were written and random bytes drawn. -/
def OnlyStorage (d d' : Device) : Prop := d'.ram = d.ram

namespace OnlyStorage

instance : Std.Refl OnlyStorage := ⟨fun _ => rfl⟩
instance : IsTrans Device OnlyStorage := ⟨fun _ _ _ h h' => Eq.trans h' h⟩

variable {d d' : Device}

private theorem global {f : Device → α} (hf : ∀ d, f d.ram = f d) (h : OnlyStorage d d') : f d' = f d := by
  rw [← hf d', ← hf d, h]

theorem checks (h : OnlyStorage d d') : d'.checks = d.checks := h.global fun _ => rfl
theorem certdevSha256 (h : OnlyStorage d d') : d'.certdevSha256 = d.certdevSha256 := h.global fun _ => rfl
theorem paut (h : OnlyStorage d d') : d'.paut = d.paut := h.global fun _ => rfl
theorem gna (h : OnlyStorage d d') : d'.gna = d.gna := h.global fun _ => rfl
theorem enumeration (h : OnlyStorage d d') : d'.enumeration = d.enumeration := h.global fun _ => rfl
theorem boardMillis (h : OnlyStorage d d') : d'.boardMillis = d.boardMillis := h.global fun _ => rfl
theorem newPinMismatches (h : OnlyStorage d d') : d'.newPinMismatches = d.newPinMismatches := h.global fun _ => rfl

end OnlyStorage

theorem keeps_of {R : Device → Device → Prop} {x : Handler Device ε α} (h : ∀ d, R d (x d).2) : Keeps R x := ⟨h⟩

/-- What a command that only works on storage leaves, after a successful run. -/
theorem onlyStorage_of_ok {x : Handler Device ε α} [hx : Keeps OnlyStorage x] {d d' : Device} {r : Except ε α}
    (h : x d = (r, d')) : OnlyStorage d d' := by
  have hk := hx.rel d
  rwa [h] at hk

/-! ### Relations that respect storage -/

/-- The relation respects commits, random bytes and every write outside the files in `P`. -/
class Spares (R : Device → Device → Prop) (P : outParam (Nat → Prop)) : Prop where
  refl : ∀ d, R d d
  trans : ∀ {d d' d''}, R d d' → R d' d'' → R d d''
  sync : ∀ d, R d { d with store := d.store.sync }
  fates : ∀ d, R d { d with store := { d.store with fates := d.store.fates.tail } }
  set : ∀ d {fid} v, ¬ P fid → R d { d with store := d.store.set fid v }
  entropy : ∀ d entropy, R d { d with entropy := entropy }

instance : Spares OnlyStorage NoFile where
  refl _ := rfl
  trans h h' := h'.trans h
  sync _ := rfl
  fates _ := rfl
  set _ _ _ _ := rfl
  entropy _ _ := rfl

/-- The files in `P` are of none of the kinds that commands write in passing. -/
class Ordinary (P : Nat → Prop) : Prop where
  cred : ∀ slot : Slot, ¬ P (efCred + slot)
  manifest : ∀ (slot : Slot) (m : ManifestSlot), ¬ P (residentManifestFid slot m)
  record : ∀ (slot : Slot) (m : ManifestSlot) (t : Nat), ¬ P (residentRecordFid slot m t)
  rp : ∀ slot : Slot, ¬ P (rpFid slot)
  single : ∀ fid ∈ [efOpts, efAuthtoken, efPauthtoken, efDevState, efEeDev, efEeDevEa, efPinComplexityPolicy], ¬ P fid

instance : Ordinary NoFile := ⟨fun _ => id, fun _ _ => id, fun _ _ _ => id, fun _ => id, fun _ _ => id⟩

section
variable {P : Nat → Prop} [hP : Ordinary P]

instance (slot : Slot) : Fact (¬ P (efCred + slot)) := ⟨hP.cred slot⟩
instance (slot : Slot) : Fact (¬ P (credFid slot)) := ⟨hP.cred slot⟩
instance (slot : Slot) (m : ManifestSlot) : Fact (¬ P (residentManifestFid slot m)) := ⟨hP.manifest slot m⟩
instance (slot : Slot) (m : ManifestSlot) (t : Nat) : Fact (¬ P (residentRecordFid slot m t)) := ⟨hP.record slot m t⟩
instance (slot : Slot) : Fact (¬ P (rpFid slot)) := ⟨hP.rp slot⟩
instance : Fact (¬ P efOpts) := ⟨hP.single _ (by decide)⟩
instance : Fact (¬ P efAuthtoken) := ⟨hP.single _ (by decide)⟩
instance : Fact (¬ P efPauthtoken) := ⟨hP.single _ (by decide)⟩
instance : Fact (¬ P efDevState) := ⟨hP.single _ (by decide)⟩
instance : Fact (¬ P efEeDev) := ⟨hP.single _ (by decide)⟩
instance : Fact (¬ P efEeDevEa) := ⟨hP.single _ (by decide)⟩
instance : Fact (¬ P efPinComplexityPolicy) := ⟨hP.single _ (by decide)⟩

end

/-- What the relation says of the store alone. -/
def AtStore (R : Device → Device → Prop) (s s' : Store Nat UInt8) : Prop := ∀ d : Device, d.store = s → R d { d with store := s' }

/-! ### Files and random bytes -/

instance (x : Handler (Store Nat UInt8) ε α) : Keeps OnlyStorage (onStore x) := keeps_of fun _ => rfl
instance (x : FileOp α) : Keeps OnlyStorage (onContainer x) := keeps_of fun _ => rfl

section
variable {R : Device → Device → Prop} {P : Nat → Prop} [hR : Spares R P]
include hR

instance (priority := low) : Std.Refl R := ⟨hR.refl⟩
instance (priority := low) : IsTrans Device R := ⟨fun _ _ _ => hR.trans⟩

instance : Sees (AtStore R) P where
  refl s d h := by
    subst h
    exact hR.refl d
  trans h h' d hd := hR.trans (h d hd) (h' _ rfl)
  sync s d h := by
    subst h
    exact hR.sync d
  fates s d h := by
    subst h
    exact hR.fates d
  set s fid v hfid d h := by
    subst h
    exact hR.set d v hfid

instance (x : Handler (Store Nat UInt8) ε α) [hx : Keeps (AtStore R) x] : Keeps R (onStore x) :=
  keeps_of fun d => hx.rel d.store d rfl
instance (x : FileOp α) [hx : Keeps (AtStore R) x] : Keeps R (onContainer x) := keeps_of fun d => hx.rel d.store d rfl

instance : Keeps R (getFiles : Handler Device ε Files) := keeps_of hR.refl
instance (n : Nat) : Keeps R (randomBlock n : Handler Device ε (Block n)) := keeps_of fun d => hR.entropy d _

instance (f : Entropy → Option (α × Nat)) : Keeps R (randomly f : Handler Device ε (Option α)) :=
  keeps_of fun d => by
    unfold randomly
    split
    · exact hR.entropy d _
    · exact hR.refl d

instance (fid : Nat) (data : Bytes) [Fact (¬ P fid)] : Keeps R (putFile fid data : Handler Device ε Unit) := by
  unfold putFile
  infer_instance

instance : Keeps R (commit : Handler Device ε Unit) := by
  unfold commit
  infer_instance

instance (fid : Nat) [Fact (¬ P fid)] : Keeps R (fileDelete fid : Handler Device ε Bool) := by
  unfold fileDelete
  infer_instance

instance (fid : Nat) (data : Bytes) [Fact (¬ P fid)] : Keeps R (putFileIo fid data) := by
  unfold putFileIo
  infer_instance

variable [Ordinary P]

instance : Keeps R (devStateUpdate : Handler Device ε Unit) := by
  unfold devStateUpdate
  infer_instance

instance (opts : UInt8) : Keeps R (setOpts opts : Handler Device ε Unit) := by
  unfold setOpts
  infer_instance

instance (counter : UInt32) [Fact (¬ P efCounter)] : Keeps R (setSignCounter counter : Handler Device ε Unit) := by
  unfold setSignCounter
  infer_instance

/-! ### Keys -/

variable [Sdk]

section
variable [Fact (¬ P efKeyDev)]
omit [Ordinary P]

instance (file : Bytes) : Keeps R (unwrapKeydev file) := by
  unfold unwrapKeydev
  infer_instance

instance (file : Bytes) (key : Block 32) : Keeps R (loadKeydevFile file key) := by
  unfold loadKeydevFile
  infer_instance

instance (key : Block 32) : Keeps R (loadKeydev key) := by
  unfold loadKeydev
  refine .bind inferInstance fun d => ?_
  split
  · infer_instance
  · split <;> infer_instance

instance (keydev : Block 32) : Keeps R (encryptKeydevF1 keydev : Handler Device ε Unit) := by
  unfold encryptKeydevF1
  split <;> infer_instance

instance (pinToken : Block 32) : Keeps R (checkKeydevEncrypted pinToken : Handler Device ε Unit) := by
  unfold checkKeydevEncrypted
  refine .bind inferInstance fun files => ?_
  split <;> infer_instance

end

variable [∀ key, Keeps R (loadKeydev key)]

instance (proto : Bytes) : Keeps R (deriveChachaKey proto) := by
  unfold deriveChachaKey
  infer_instance

instance (proto : Bytes) : Keeps R (chachaKeyOrZero proto : Handler Device ε Bytes) := by
  unfold chachaKeyOrZero
  infer_instance

instance (credId : Bytes) : Keeps R (deriveHmacKey credId) := by
  unfold deriveHmacKey
  infer_instance

instance (credId : Bytes) : Keeps R (deriveLargeBlobKey credId) := by
  unfold deriveLargeBlobKey
  infer_instance

instance (keyHandle : Bytes) (curve : Int) : Keeps R (deriveKey keyHandle curve) := by
  unfold deriveKey
  infer_instance

instance (curve : Int) (seed : Bytes) : Keeps R (fidoLoadKey curve seed) := by
  unfold fidoLoadKey
  infer_instance

instance (appId : Block 32) (keyHandle : Bytes) : Keeps R (verifyKey appId keyHandle : Handler Device ε Bool) := by
  unfold verifyKey
  infer_instance

instance (protocol : UInt8) (key input : Bytes) : Keeps R (encrypt protocol key input : Handler Device ε Bytes) := by
  unfold encrypt
  infer_instance

/-! ### Credentials -/

instance (credId : Bytes) (rpIdHash : Block 32) :
    Keeps R (credentialVerify credId rpIdHash : Handler Device ε (Option Bytes)) := by
  unfold credentialVerify
  infer_instance

instance (c : NewCredential) (residue : Block 16) : Keeps R (credentialCreate c residue) := by
  unfold credentialCreate
  infer_instance

instance (credId : Bytes) (rpIdHash : Block 32) : Keeps R (credentialLoad credId rpIdHash) := by
  unfold credentialLoad
  refine .bind inferInstance fun payload => ?_
  split <;> infer_instance

variable [ObjectLibrary]

instance (slot : Slot) (rpIdHash : Block 32) : Keeps R (loadResident slot rpIdHash) := by
  unfold loadResident
  refine .bind inferInstance fun d => ?_
  split <;> infer_instance

instance (slot : Slot) (credential : Bytes) : Keeps R (residentUpdate slot credential) := by
  unfold residentUpdate
  refine .bind inferInstance fun d => ?_
  split <;> infer_instance

instance (slot : Slot) : Keeps R (residentDelete slot) := by
  unfold residentDelete
  infer_instance

omit [ObjectLibrary] in
instance (rpIdHash rpId : Bytes) : Keeps R (rpIdEncrypt rpIdHash rpId) := by
  unfold rpIdEncrypt
  infer_instance

omit [ObjectLibrary] in
instance (record : Bytes) : Keeps R (rpIdDecrypt record) := by
  unfold rpIdDecrypt
  infer_instance

omit [ObjectLibrary] in
instance (rpIdHash : Bytes) : Keeps R (decreaseRp rpIdHash : Handler Device ε Unit) := by
  unfold decreaseRp
  refine .bind inferInstance fun files => ?_
  split <;> infer_instance

instance (rpIdHash : Block 32) (userId : Bytes) (target : StoreTarget) (slot : Slot) :
    Keeps R (storeSearchStep rpIdHash userId target slot : Handler Device ε StoreTarget) := by
  unfold storeSearchStep
  refine .bind inferInstance fun d => ?_
  split
  · infer_instance
  · split
    · infer_instance
    · split
      · infer_instance
      · refine .bind inferInstance fun loaded => ?_
        split <;> infer_instance

omit [ObjectLibrary] in
instance (rpIdHash : Block 32) (rpId : Bytes) : Keeps R (increaseRp rpIdHash rpId) := by
  unfold increaseRp
  refine .bind inferInstance fun files => .bind inferInstance fun slot => ?_
  split <;> infer_instance

instance (slot : Slot) (useContainer : Bool) (credId : Bytes) (rpIdHash : Block 32) (publicKey : Bytes) :
    Keeps R (storeRecord slot useContainer credId rpIdHash publicKey) := by
  unfold storeRecord
  infer_instance

instance (credId : Bytes) (rpIdHash : Block 32) (publicKey : Bytes) :
    Keeps R (credentialStore credId rpIdHash publicKey) := by
  unfold credentialStore
  infer_instance

/-! ### Making a credential -/

instance (flags : UInt8) (loaded : Except CtapError Credential) : Keeps R (refuseExcluded flags loaded) := by
  unfold refuseExcluded
  split <;> infer_instance

instance (p : MakeCredentialParams) (flags : UInt8) (entry : Option Bytes × Option Bytes) :
    Keeps R (excludeStep p flags entry) := by
  unfold excludeStep
  split
  · split
    · infer_instance
    · split <;> infer_instance
  · infer_instance

omit [ObjectLibrary] in
instance (h : HmacSecretParams) (seed : Bytes) (uv : Bool) : Keeps R (hmacSecretOutput h seed uv) := by
  unfold hmacSecretOutput
  infer_instance

omit [ObjectLibrary] in
instance (entries : List Bytes) : Keeps R (extensionMap entries) := by
  unfold extensionMap
  infer_instance

omit [ObjectLibrary] in
instance (p : MakeCredentialParams) (keySeed : Bytes) (flags : UInt8) : Keeps R (mcHmacSecret p keySeed flags) := by
  unfold mcHmacSecret
  split <;> infer_instance

instance (p : MakeCredentialParams) (keySeed : Bytes) (flags : UInt8) : Keeps R (mcExtensions p keySeed flags) := by
  unfold mcExtensions
  infer_instance

omit [ObjectLibrary] in
instance (key : EcKey) (md : Option Md) (hash : Block 64) (data : Bytes) :
    Keeps R (writeSignature key md hash data) := by
  unfold writeSignature
  infer_instance

instance (p : MakeCredentialParams) (key : EcKey) (data : Bytes) : Keeps R (attestationSignature p key data) := by
  unfold attestationSignature
  split
  · infer_instance
  · refine .bind inferInstance fun keydev => ?_
    split <;> infer_instance

instance (p : MakeCredentialParams) (curve alg : Int) : Keeps R (newCredentialId p curve alg) := by
  unfold newCredentialId
  infer_instance

instance (p : MakeCredentialParams) (keySeed : Bytes) : Keeps R (mcLargeBlobKey p keySeed) := by
  unfold mcLargeBlobKey
  infer_instance

instance (p : MakeCredentialParams) (credId publicKey : Bytes) : Keeps R (storeNew p credId publicKey) := by
  unfold storeNew
  infer_instance

/-! ### Asserting a credential -/

instance (rpIdHash : Block 32) (id : Bytes) (found : Selection × Bool) (slot : Slot) :
    Keeps R (loadMatching rpIdHash id found slot) := by
  unfold loadMatching
  infer_instance

instance (rpIdHash : Block 32) (id : Bytes) (found : Selection) : Keeps R (loadListed rpIdHash id found) := by
  unfold loadListed
  refine .bind inferInstance fun loaded => ?_
  split <;> infer_instance

instance (rpIdHash : Block 32) (found : Selection) (entry : Option Bytes × Option Bytes) :
    Keeps R (allowStep rpIdHash found entry) := by
  unfold allowStep
  split
  · infer_instance
  · split
    · split
      · infer_instance
      · split <;> infer_instance
    · infer_instance

instance (rpIdHash : Block 32) (found : Selection) (slot : Slot) : Keeps R (discoverStep rpIdHash found slot) := by
  unfold discoverStep
  infer_instance

instance (p : GetAssertionParams) : Keeps R (findCredentials p) := by
  unfold findCredentials
  infer_instance

instance (rpIdHash : Block 32) (count : Nat) (entry : Option Bytes × Option Bytes) :
    Keeps R (silentStep rpIdHash count entry) := by
  unfold silentStep
  split <;> infer_instance

instance (p : GetAssertionParams) (found : Selection) : Keeps R (countSilent p found) := by
  unfold countSilent
  infer_instance

instance (p : GetAssertionParams) (found : Selection) (creds : List Credential) :
    Keeps R (countCredentials p found creds) := by
  unfold countCredentials
  infer_instance

omit [Sdk] [ObjectLibrary] in
instance (selcred : Option Credential) (without : α) (f : Credential → CtapOp α) [∀ cred, Keeps R (f cred)] :
    Keeps R (ofSelected selcred without f) := by
  unfold ofSelected
  split <;> infer_instance

instance (p : GetAssertionParams) (cred : Credential) : Keeps R (assertedLargeBlobKey p cred) := by
  unfold assertedLargeBlobKey
  infer_instance

instance (p : GetAssertionParams) (cred : Credential) (flags : UInt8) : Keeps R (gaHmacSecret p cred flags) := by
  unfold gaHmacSecret
  infer_instance

instance (p : GetAssertionParams) (cred : Credential) (flags : UInt8) : Keeps R (gaExtensions p cred flags) := by
  unfold gaExtensions
  infer_instance

instance (cred : Credential) : Keeps R (assertionKey cred) := by
  unfold assertionKey
  refine .bind inferInstance fun key => ?_
  split <;> infer_instance

instance (p : GetAssertionParams) (authData : AuthData) (cred : Credential) :
    Keeps R (assertionSignature p authData cred) := by
  unfold assertionSignature
  infer_instance

instance [Fact (¬ P efCounter)] (p : GetAssertionParams) (c : Choice) (flags : UInt8) : Keeps R (makeAssertion p c flags) := by
  unfold makeAssertion
  infer_instance

end
end FidoTouch.Ctap
