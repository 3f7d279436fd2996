import FidoTouch.Ctap.Frame
import FidoTouch.Program.Repeats
import FidoTouch.Resident.Reads

/-! Loading keys and credentials, time and again: as long as the master key is the same, and the records are,
whatever was loaded in between changes no answer. -/
namespace FidoTouch.Ctap
open FidoTouch.Program Handler FidoTouch.Storage FidoTouch.Resident

-- The search for `Repeats` follows whole calls.
set_option synthInstance.maxSize 4096

variable [Sdk] {ε α : Type}

/-! ### The master key -/

/-- The master key is the same, whatever form its file has. -/
def SameMaster (d d' : Device) : Prop := ∀ key, keydevValue d' key = keydevValue d key

instance : IsEquiv Device SameMaster where
  refl _ _ := rfl
  trans _ _ _ h h' key := (h' key).trans (h key)
  symm _ _ h key := (h key).symm

/-- What is loaded comes out the same: the files are, and the master key in whatever form. -/
structure SameLoads (d d' : Device) : Prop where
  files : ∀ fid ≠ efKeyDev, d'.files fid = d.files fid
  master : SameMaster d d'

instance : IsEquiv Device SameLoads where
  refl d := ⟨fun _ _ => rfl, Std.Refl.refl d⟩
  trans _ _ _ h h' := ⟨fun fid hfid => (h'.files fid hfid).trans (h.files fid hfid), IsTrans.trans _ _ _ h.master h'.master⟩
  symm _ _ h := ⟨fun fid hfid => (h.files fid hfid).symm, Std.Symm.symm _ _ h.master⟩

private theorem sameLoads_rewritten {d : Device} {file : Bytes} {plain blob : Bytes} (hdec : d.hasKeydevDec = false)
    (hfile : fileData d.files efKeyDev = some file) (hlength : file.length = 33 ∨ file.length = 61) (hfirst : byteAt file 0 = 0x02)
    (hplain : Sdk.decryptWithAad d.sessionPin ((readPast 61 file).drop 1) 1 = .ok plain) (hblob : blob.length = 60)
    (hopens : Sdk.decryptWithAad d.sessionPin blob 2 = .ok (Block.ofBytes 32 plain).1) {d' : Device} (hram : d'.ram = d.ram)
    (hview : d'.files = Function.update d.files efKeyDev (some (0x03 :: blob))) : SameLoads d d' := by
  refine ⟨fun fid hfid => by rw [hview, Function.update_of_ne hfid], fun key => ?_⟩
  have hdec' : d'.hasKeydevDec = false := (congrArg Device.hasKeydevDec hram :).trans hdec
  have hsession : d'.sessionPin = d.sessionPin := (congrArg Device.sessionPin hram :)
  have hfile' : fileData d'.files efKeyDev = some (0x03 :: blob) := by rw [fileData, hview, Function.update_self]
  have hread : (readPast 61 (0x03 :: blob)).drop 1 = blob := by simp [readPast, hblob]
  have hne : file.length ≠ 32 := by omega
  have hold : openKeydev d.sessionPin file key = kbaseDecrypt (.ofBytes 32 plain) := by
    have hversion : (if byteAt file 0 = 0x03 then 2 else 1 : Nat) = 1 := by rw [hfirst]; rfl
    rw [openKeydev, if_neg hne, if_pos hlength, if_pos (.inl hfirst), hversion, hplain]
    rfl
  have hnew : openKeydev d.sessionPin (0x03 :: blob) key = kbaseDecrypt (.ofBytes 32 plain) := by
    rw [openKeydev, if_neg (by simp [hblob]), if_pos (by simp [hblob]), if_pos (.inr rfl), hread]
    simp [byteAt, hopens, orExecError, Except.mapError, bind, Except.bind, Block.ofBytes_val]
  simp only [keydevValue, hdec, hdec', hfile, hfile', Bool.false_eq_true, if_false, hsession, hold, hnew]

/-- What `load_keydev` answers, and that it changes no later answer. -/
private theorem unwrapKeydev_answers (ciphers : KeydevCiphers) {file : Bytes} {d : Device} (hdec : d.hasKeydevDec = false)
    (hfile : fileData d.files efKeyDev = some file) (hlength : file.length = 33 ∨ file.length = 61) :
    (unwrapKeydev file d).1 = ((orExecError (Sdk.decryptWithAad d.sessionPin ((readPast 61 file).drop 1)
      (if byteAt file 0 = 0x03 then 2 else 1))).map (Block.ofBytes 32)) ∧ SameLoads d (unwrapKeydev file d).2 := by
  unfold unwrapKeydev
  rw [bind_eq (get_run d)]
  cases hplain : Sdk.decryptWithAad d.sessionPin ((readPast 61 file).drop 1) (if byteAt file 0 = 0x03 then 2 else 1) with
  | error e => exact ⟨rfl, Std.Refl.refl d⟩
  | ok plain =>
    rw [show orExecError (.ok plain) = .ok plain from rfl, ofExcept_ok_bind]
    by_cases hfirst : byteAt file 0 = 0x02
    · obtain ⟨blob, hblob, hlen, hopens⟩ := ciphers.encrypt d.sessionPin (d.entropy.block 12) (Block.ofBytes 32 plain).1
      have hversion : (if byteAt file 0 = 0x03 then 2 else 1 : Nat) = 1 := by rw [hfirst]; rfl
      rw [hversion] at hplain
      have hrandom : (randomBlock 12 : DeviceIo (Block 12)) d = (.ok (d.entropy.block 12), { d with entropy := d.entropy.rest 12 }) := rfl
      rw [runIf_true hfirst, bind_run, bind_eq hrandom, hblob, show orExecError (.ok blob) = .ok blob from rfl, ofExcept_ok_bind]
      obtain ⟨store, hput, hstore⟩ := putFile_cases (ε := PicoError) efKeyDev (0x03 :: blob) { d with entropy := d.entropy.rest 12 }
      rw [bind_eq hput]
      refine ⟨rfl, ?_⟩
      rcases hstore with rfl | ⟨rfl, -⟩
      · exact sameLoads_rewritten hdec hfile hlength hfirst hplain (by rw [hlen, (Block.ofBytes 32 plain).2]) hopens rfl rfl
      · exact ⟨fun _ _ => rfl, fun _ => rfl⟩
    · rw [runIf_false hfirst]
      exact ⟨rfl, Std.Refl.refl d⟩

/-- `load_keydev` answers the key, and changes nothing but the form of its file. -/
theorem loadKeydev_answers (ciphers : KeydevCiphers) (key : Block 32) (d : Device) :
    (loadKeydev key d).1 = keydevValue d key ∧ SameLoads d (loadKeydev key d).2 := by
  have hstays : ∀ r : Except PicoError (Block 32), (ofExcept r d).1 = r ∧ SameLoads d (ofExcept r d).2 := fun r =>
    ⟨rfl, Std.Refl.refl d⟩
  unfold loadKeydev keydevValue
  rw [bind_eq (get_run d)]
  cases hdec : d.hasKeydevDec with
  | true => exact hstays _
  | false =>
    simp only [Bool.false_eq_true, if_false]
    cases hfile : fileData d.files efKeyDev with
    | none => exact hstays _
    | some file =>
      dsimp only
      unfold loadKeydevFile openKeydev
      by_cases h32 : file.length = 32
      · simp only [if_pos h32]
        exact hstays _
      · simp only [if_neg h32]
        by_cases hlength : file.length = 33 ∨ file.length = 61
        · simp only [if_pos hlength]
          by_cases hwrapped : byteAt file 0 = 0x02 ∨ byteAt file 0 = 0x03
          · simp only [if_pos hwrapped]
            obtain ⟨hanswer, hsame⟩ := unwrapKeydev_answers ciphers hdec hfile hlength
            rw [bind_run]
            generalize orExecError (Sdk.decryptWithAad d.sessionPin ((readPast 61 file).drop 1)
              (if byteAt file 0 = 0x03 then 2 else 1)) = opened at hanswer ⊢
            generalize unwrapKeydev file d = run at hanswer hsame
            rcases run with ⟨e | wrapped, s⟩ <;> rcases opened with e' | plain <;> cases hanswer <;> exact ⟨rfl, hsame⟩
          · simp only [if_neg hwrapped]
            split <;> exact hstays _
        · simp only [if_neg hlength]
          exact hstays _

/-! ### What is derived from the master key -/

section
variable [ciphers : Fact KeydevCiphers]

instance (key : Block 32) : Repeats SameMaster (loadKeydev key) where
  keeps d := (loadKeydev_answers ciphers.out key d).2.master
  same {d d'} h := by
    rw [(loadKeydev_answers ciphers.out key d).1, (loadKeydev_answers ciphers.out key d').1, h key]

instance (key : Block 32) : Repeats SameLoads (loadKeydev key) where
  keeps d := (loadKeydev_answers ciphers.out key d).2
  same {d d'} h := by
    rw [(loadKeydev_answers ciphers.out key d).1, (loadKeydev_answers ciphers.out key d').1, h.master key]

end

section
variable {E : Device → Device → Prop} [IsEquiv Device E] [∀ key, Repeats E (loadKeydev key)]

instance (proto : Bytes) : Repeats E (deriveChachaKey proto) := by
  unfold deriveChachaKey
  infer_instance

instance (proto : Bytes) : Repeats E (chachaKeyOrZero proto : Handler Device ε Bytes) := by
  unfold chachaKeyOrZero
  infer_instance

instance (credId : Bytes) : Repeats E (deriveHmacKey credId) := by
  unfold deriveHmacKey
  infer_instance

instance (credId : Bytes) : Repeats E (deriveLargeBlobKey credId) := by
  unfold deriveLargeBlobKey
  infer_instance

instance (keyHandle : Bytes) (curve : Int) : Repeats E (deriveKey keyHandle curve) := by
  unfold deriveKey
  infer_instance

instance (curve : Int) (seed : Bytes) : Repeats E (fidoLoadKey curve seed) := by
  unfold fidoLoadKey
  infer_instance

instance (cred : Credential) : Repeats E (assertionKey cred) := by
  unfold assertionKey
  refine .bind inferInstance fun key => ?_
  split <;> infer_instance

instance (appId : Block 32) (keyHandle : Bytes) : Repeats E (verifyKey appId keyHandle : Handler Device ε Bool) := by
  unfold verifyKey
  infer_instance

instance (credId : Bytes) (rpIdHash : Block 32) : Repeats E (credentialVerify credId rpIdHash : Handler Device ε (Option Bytes)) := by
  unfold credentialVerify
  infer_instance

instance (credId : Bytes) (rpIdHash : Block 32) : Repeats E (credentialLoad credId rpIdHash) := by
  unfold credentialLoad
  refine .bind inferInstance fun payload => ?_
  split <;> infer_instance

instance (record : Bytes) : Repeats E (rpIdDecrypt record) := by
  unfold rpIdDecrypt
  infer_instance

instance [ObjectLibrary] (cred : Credential) : Repeats E (listedLargeBlobKey cred) := by
  unfold listedLargeBlobKey
  infer_instance

end

/-! ### What is read of the records -/

omit [Sdk] in
theorem slotFile_ne {slot : Slot} {fid : Nat} (h : SlotFile slot fid) : fid ≠ efKeyDev ∧ fid ≠ efDevState ∧ fid ≠ efCounter := by
  rcases h with ⟨m, rfl⟩ | ⟨m, t, ht, rfl⟩ | rfl
  · cases m <;> simp only [residentManifestFid, efKeyDev, efDevState, efCounter] <;> omega
  · rw [residentObjectTypeValid_iff] at ht
    cases m <;> simp only [residentRecordFid, efKeyDev, efDevState, efCounter] <;> omega
  · simp only [efCred, efKeyDev, efDevState, efCounter]
    omega

instance (slot : Slot) : Fact (¬ SlotFile slot efDevState) := ⟨fun h => (slotFile_ne h).2.1 rfl⟩
instance (slot : Slot) : Fact (¬ SlotFile slot efCounter) := ⟨fun h => (slotFile_ne h).2.2 rfl⟩

section
variable {d d' : Device} {slot : Slot}

/-- What is loaded of one slot comes out the same. -/
structure SameSlot (slot : Slot) (d d' : Device) : Prop where
  files : ∀ fid, SlotFile slot fid → d'.files fid = d.files fid
  master : SameMaster d d'

instance : IsEquiv Device (SameSlot slot) where
  refl d := ⟨fun _ _ => rfl, Std.Refl.refl d⟩
  trans _ _ _ h h' := ⟨fun fid hfid => (h'.files fid hfid).trans (h.files fid hfid), IsTrans.trans _ _ _ h.master h'.master⟩
  symm _ _ h := ⟨fun fid hfid => (h.files fid hfid).symm, Std.Symm.symm _ _ h.master⟩

theorem SameLoads.slotFile (h : SameLoads d d') {fid : Nat} (hfid : SlotFile slot fid) : d'.files fid = d.files fid :=
  h.files fid (slotFile_ne hfid).1

theorem SameLoads.sameSlot (h : SameLoads d d') (slot : Slot) : SameSlot slot d d' := ⟨fun _ => h.slotFile, h.master⟩

/-- Equivalent states have the same files in the slot. -/
class SeesSlot (slot : Slot) (E : Device → Device → Prop) : Prop where
  sameSlot : ∀ {d d'}, E d d' → SameSlot slot d d'

instance : SeesSlot slot (SameSlot slot) := ⟨id⟩
instance : SeesSlot slot SameLoads := ⟨fun h => h.sameSlot slot⟩

instance [ciphers : Fact KeydevCiphers] (key : Block 32) : Repeats (SameSlot slot) (loadKeydev key) where
  keeps d := (loadKeydev_answers ciphers.out key d).2.sameSlot slot
  same h := Repeats.same h.master

theorem SameSlot.fileData (h : SameSlot slot d d') : fileData d'.files (credFid slot) = fileData d.files (credFid slot) := by
  have hfile : d'.files (credFid slot) = d.files (credFid slot) := h.files _ (.inr (.inr rfl))
  rw [FidoTouch.fileData, FidoTouch.fileData, hfile]

theorem SameSlot.isMarker (h : SameSlot slot d d') : isMarker d' slot = isMarker d slot := residentContainerIsMarker_same h.files

variable [ObjectLibrary]

theorem provider_same (h : SameMaster d d') : provider d' = provider d := congrArg ObjectLibrary.provider (h _)

namespace SameSlot

theorem containerRead (h : SameSlot slot d d') (t capacity : Nat) : containerRead d' slot t capacity = containerRead d slot t capacity := by
  rw [Ctap.containerRead, Ctap.containerRead, provider_same h.master]
  exact residentContainerRead_same h.files t capacity

theorem containerReadAlloc (h : SameSlot slot d d') (t : Nat) : containerReadAlloc d' slot t = containerReadAlloc d slot t := by
  have hsize : residentContainerObjectSize (provider d') slot d'.files t = residentContainerObjectSize (provider d) slot d.files t := by
    rw [provider_same h.master]
    exact residentContainerObjectSize_same h.files t
  simp only [Ctap.containerReadAlloc, h.isMarker, h.containerRead, hsize]

theorem residentRpIdHash (h : SameSlot slot d d') : residentRpIdHash d' slot = residentRpIdHash d slot := by
  simp only [Ctap.residentRpIdHash, h.fileData, h.isMarker, h.containerRead]

theorem residentMatchesRp (h : SameSlot slot d d') (rpIdHash : Bytes) :
    residentMatchesRp d' slot rpIdHash = residentMatchesRp d slot rpIdHash := by
  simp only [Ctap.residentMatchesRp, h.residentRpIdHash]

theorem residentMatchesId (h : SameSlot slot d d') (id : Bytes) : residentMatchesId d' slot id = residentMatchesId d slot id := by
  simp only [Ctap.residentMatchesId, h.fileData, h.isMarker, h.containerRead]

theorem canCreate (h : SameSlot slot d d') :
    residentContainerCanCreate (provider d') slot d'.files = residentContainerCanCreate (provider d) slot d.files := by
  rw [provider_same h.master]
  exact residentContainerCanCreate_same h.files

theorem residentPublicKey (h : SameSlot slot d d') : residentPublicKey d' slot = residentPublicKey d slot := by
  simp only [Ctap.residentPublicKey, h.isMarker, h.containerReadAlloc]

end SameSlot

instance {E : Device → Device → Prop} [IsEquiv Device E] [∀ key, Repeats E (loadKeydev key)] [hslot : SeesSlot slot E]
    (rpIdHash : Block 32) : Repeats E (loadResident slot rpIdHash) := by
  unfold loadResident
  refine repeats_get (fun h => ?_) fun d => ?_
  · have hsame := hslot.sameSlot h
    have hrp := hsame.residentMatchesRp rpIdHash.1
    simp only [hsame.fileData, hsame.isMarker, hsame.containerReadAlloc]
    rw [hrp]
  · split
    · infer_instance
    · split
      · infer_instance
      · split
        · infer_instance
        · split <;> infer_instance

instance (n : Nat) : Keeps SameLoads (randomBlock n : Handler Device ε (Block n)) := keeps_of fun _ => ⟨fun _ _ => rfl, fun _ => rfl⟩

instance [Fact KeydevCiphers] (c : NewCredential) (residue : Block 16) : Keeps SameLoads (credentialCreate c residue) := by
  unfold credentialCreate
  infer_instance

namespace SameLoads

omit [ObjectLibrary] in
theorem fileData (h : SameLoads d d') (slot : Slot) : fileData d'.files (credFid slot) = fileData d.files (credFid slot) :=
  (h.sameSlot slot).fileData

omit [ObjectLibrary] in
theorem isMarker (h : SameLoads d d') (slot : Slot) : isMarker d' slot = isMarker d slot := (h.sameSlot slot).isMarker

theorem containerReadAlloc (h : SameLoads d d') (slot : Slot) (t : Nat) : containerReadAlloc d' slot t = containerReadAlloc d slot t :=
  (h.sameSlot slot).containerReadAlloc t

theorem residentRpIdHash (h : SameLoads d d') (slot : Slot) : residentRpIdHash d' slot = residentRpIdHash d slot :=
  (h.sameSlot slot).residentRpIdHash

theorem residentMatchesRp (h : SameLoads d d') (slot : Slot) (rpIdHash : Bytes) :
    residentMatchesRp d' slot rpIdHash = residentMatchesRp d slot rpIdHash := (h.sameSlot slot).residentMatchesRp rpIdHash

theorem residentMatchesId (h : SameLoads d d') (slot : Slot) (id : Bytes) :
    residentMatchesId d' slot id = residentMatchesId d slot id := (h.sameSlot slot).residentMatchesId id

end SameLoads

end
end FidoTouch.Ctap
