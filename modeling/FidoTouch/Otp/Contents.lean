import FidoTouch.Ctap.Commands
import FidoTouch.Otp.Applet

/-! What the slots hold, as it is read back, and what storing into one of them leaves there and in the others. -/
namespace FidoTouch.Otp
open FidoTouch.Program Handler FidoTouch.Storage FidoTouch.Resident FidoTouch.Ctap

variable {ε α β : Type}

/-! ### The files of the slots -/

def IsOtpSlot (fid : Nat) : Prop := 0xBB00 ≤ fid ∧ fid < 0xBB04

theorem isOtpSlot {n : Nat} (hn : n < 4) : IsOtpSlot (efOtpSlot n) := ⟨by simp [efOtpSlot], by simp only [efOtpSlot]; omega⟩

theorem efOtpSlot_ne {n m : Nat} (h : n ≠ m) : efOtpSlot n ≠ efOtpSlot m := by
  simp only [efOtpSlot]
  omega

instance : Ordinary IsOtpSlot where
  cred slot := by simp only [IsOtpSlot, efCred]; omega
  manifest slot m := by cases m <;> simp only [IsOtpSlot, residentManifestFid] <;> omega
  record slot m t := by cases m <;> simp only [IsOtpSlot, residentRecordFid] <;> omega
  rp slot := by simp only [IsOtpSlot, rpFid, efRp]; omega
  single := by simp only [IsOtpSlot]; decide

instance : Fact (¬ IsOtpSlot efKeyDev) := ⟨by simp [IsOtpSlot, efKeyDev]⟩
instance : Fact (¬ IsOtpSlot efCounter) := ⟨by simp [IsOtpSlot, efCounter]⟩
instance : Fact (¬ IsOtpSlot efLargeblob) := ⟨by simp [IsOtpSlot, efLargeblob]⟩

/-- What the files of the slots hold is durable. -/
def SlotsCommitted (d : Device) : Prop := ∀ fid, IsOtpSlot fid → fileData d.store.durable fid = fileData d.store.view fid

/-- The files of the slots hold the same; what was committed is, and what was not to fail is not to fail. -/
structure SlotsStill (d d' : Device) : Prop where
  data : ∀ fid, IsOtpSlot fid → fileData d'.store.view fid = fileData d.store.view fid
  committed : SlotsCommitted d → SlotsCommitted d'
  reliable : d.store.fates = [] → d'.store.fates = []

private theorem still_of_store {d d' : Device} (h : d'.store = d.store) : SlotsStill d d' where
  data _ _ := by rw [h]
  committed hd fid hfid := by rw [h]; exact hd fid hfid
  reliable hd := h ▸ hd

instance : Std.Refl SlotsStill := ⟨fun _ => still_of_store rfl⟩
instance : IsTrans Device SlotsStill := ⟨fun _ _ _ h h' =>
  ⟨fun fid hfid => (h'.data fid hfid).trans (h.data fid hfid), h'.committed ∘ h.committed, h'.reliable ∘ h.reliable⟩⟩

instance : Spares SlotsStill IsOtpSlot where
  refl := Std.Refl.refl
  trans := IsTrans.trans _ _ _
  sync _ := ⟨fun _ _ => rfl, fun _ _ _ => rfl, id⟩
  fates d := ⟨fun _ _ => rfl, fun hd fid hfid => hd fid hfid, fun hd => by rw [hd]; rfl⟩
  set d fid v hfid := by
    have hdata : ∀ slot, IsOtpSlot slot → fileData (d.store.set fid v).view slot = fileData d.store.view slot :=
      fun slot hslot => by
        rw [fileData, fileData, Store.set_view, Function.update_of_ne fun hsame : slot = fid => hfid (hsame ▸ hslot)]
    exact ⟨hdata, fun hd slot hslot => (hd slot hslot).trans (hdata slot hslot).symm, id⟩
  entropy _ _ := still_of_store rfl

instance : AdmitsGlobals SlotsStill := ⟨fun h => still_of_store (congrArg Device.store h :)⟩
instance (k : Change) : AdmitsToken SlotsStill k := ⟨fun _ _ _ => still_of_store rfl⟩
instance : AdmitsPinGuard SlotsStill := ⟨fun _ _ _ => still_of_store rfl⟩

/-! ### States -/

/-- The part of the state that is in RAM is the same, and so are the files of the slots. -/
structure Still (s s' : OtpState) : Prop where
  fido : SlotsStill s.fido s'.fido
  sessionCounter : s'.sessionCounter = s.sessionCounter

instance : Std.Refl Still := ⟨fun _ => ⟨Std.Refl.refl _, rfl⟩⟩
instance : IsTrans OtpState Still :=
  ⟨fun _ _ _ h h' => ⟨IsTrans.trans _ _ _ h.fido h'.fido, h'.sessionCounter.trans h.sessionCounter⟩⟩

/-- An update of what is neither a file nor a session counter. -/
instance (scanned : OtpState → Bool) (configSeq statusByte : OtpState → UInt8) (otpFrameRx sendBuffer : OtpState → Bytes)
    (otpCurrSeq otpExpSeq : OtpState → UInt8) :
    Keeps Still (modify fun s => ⟨s.fido, scanned s, s.sessionCounter, configSeq s, statusByte s, otpFrameRx s, sendBuffer s,
      otpCurrSeq s, otpExpSeq s⟩ : Handler OtpState ε Unit) := ⟨fun _ => ⟨still_of_store rfl, rfl⟩⟩

instance (x : Handler Device ε α) [hx : Keeps SlotsStill x] : Keeps Still (onFido x) where
  rel s := by
    rw [onFido, zoom_run]
    exact ⟨hx.rel s.fido, rfl⟩

instance : Keeps Still (getFiles : Handler OtpState ε Files) := ⟨fun _ => Std.Refl.refl _⟩

instance : Keeps Still (bumpConfigSeq : Handler OtpState ε Unit) := by
  unfold bumpConfigSeq
  infer_instance

instance (b : UInt8) : Keeps Still (setStatusByte b : Handler OtpState ε Unit) := by
  unfold setStatusByte
  infer_instance

instance (isOtp : Bool) (data : Bytes) : Keeps Still (editData isOtp data : Handler OtpState ε Unit) := by
  unfold editData
  infer_instance

/-- A file that is new has no data. -/
instance (fid : Nat) : Keeps Still (newSlot fid : Handler OtpState ε Bool) := by
  have hnew : Keeps SlotsStill (onStore (fileNew fid) : Handler Device ε Bool) := keeps_of fun d => by
    rw [onStore, zoom_run, fileNew]
    rcases tryOp_cases (ε := ε) (fun s : Store Nat UInt8 => if s.view fid = none then s.set fid (some []) else s) d.store with
      hrun | ⟨hrun, -⟩ <;> rw [hrun]
    · refine IsTrans.trans _ _ _ (Spares.fates d) ?_
      dsimp only
      split
      · rename_i hnone
        have hdata : ∀ slot, fileData (Function.update d.store.view fid (some [])) slot = fileData d.store.view slot := fun slot => by
          by_cases hslot : slot = fid
          · rw [hslot, fileData, fileData, Function.update_self, show d.store.view fid = none from hnone]
          · rw [fileData, fileData, Function.update_of_ne hslot]
        exact ⟨fun slot _ => hdata slot, fun hd slot hslot => (hd slot hslot).trans (hdata slot).symm, id⟩
      · exact Std.Refl.refl _
    · exact Spares.fates d
  unfold newSlot
  infer_instance

variable [Sdk]

instance : Keeps Still (scanAll : Handler OtpState ε Unit) := by
  unfold scanAll
  infer_instance

instance (isOtp : Bool) : Keeps Still (otpStatus isOtp : Handler OtpState ε Bytes) := by
  unfold otpStatus
  infer_instance

/-! ### What a slot holds -/

/-- The configuration in a slot, and after it the counter where there is one. -/
def slotContent (d : Device) (n : Nat) : Option Bytes := (otpSlotLoad d.files (efOtpSlot n)).toOption

theorem slotContent_of_data {d d' : Device} {n : Nat}
    (h : fileData d'.store.view (efOtpSlot n) = fileData d.store.view (efOtpSlot n)) : slotContent d' n = slotContent d n := by
  simp only [slotContent, otpSlotLoad, Device.files_eq, h]

theorem SlotsStill.content {d d' : Device} (h : SlotsStill d d') {n : Nat} (hn : n < 4) : slotContent d' n = slotContent d n :=
  slotContent_of_data (h.data _ (isOtpSlot hn))

theorem slotContent_ok {d : Device} {n : Nat} {plain : Bytes} (h : otpSlotLoad d.files (efOtpSlot n) = .ok plain) :
    slotContent d n = some plain := by rw [slotContent, h]; rfl

theorem slotContent_some {d : Device} {n : Nat} {plain : Bytes} (h : slotContent d n = some plain) :
    otpSlotLoad d.files (efOtpSlot n) = .ok plain := by
  unfold slotContent at h
  rcases hload : otpSlotLoad d.files (efOtpSlot n) with e | loaded <;> rw [hload] at h <;> cases h
  rfl

/-- An occupied slot has a file with data. -/
theorem occupied_of_content {d : Device} {n : Nat} {plain : Bytes} (h : slotContent d n = some plain) :
    (fileData d.files (efOtpSlot n)).isSome = true := by
  have hload := slotContent_some h
  unfold otpSlotLoad at hload
  cases hdata : fileData d.files (efOtpSlot n) with
  | none =>
    rw [hdata] at hload
    cases hload
  | some stored => rfl

/-- A slot holds a configuration, or one with its counter. -/
theorem otpSlotLoad_length {files : Files} {fid : Nat} {plain : Bytes} (h : otpSlotLoad files fid = .ok plain) :
    plain.length = otpConfigSize ∨ plain.length = otpSlotPlainMax := by
  unfold otpSlotLoad at h
  split at h
  · cases h
  · rename_i stored hdata
    split at h
    · split at h
      · cases h
      · rename_i hlen
        cases h
        exact Decidable.or_iff_not_not_and_not.mpr hlen
    · dsimp only at h
      split at h
      · cases h
      · rename_i hlen
        have hsize := Decidable.or_iff_not_not_and_not.mpr hlen
        split at h
        · cases h
        · split at h <;> cases h
          rename_i decrypted _
          rw [List.length_take, List.length_append, List.length_replicate]
          simp only [otpConfigSize, otpSlotPlainMax] at hsize ⊢
          omega

omit [Sdk] in
theorem putUsageCounter_config {plain : Bytes} (h : plain.length = otpConfigSize ∨ plain.length = otpSlotPlainMax) (counter : UInt16) :
    (putUsageCounter plain counter).take otpConfigSize = plain.take otpConfigSize := by
  have hlen : (plain.take otpConfigSize).length = otpConfigSize := by
    simp only [otpSlotPlainMax] at h
    rw [List.length_take]
    omega
  rw [putUsageCounter, List.append_assoc, List.take_left' hlen]

omit [Sdk] in
/-- Only where there was no file none can be made. -/
theorem newSlot_absent {fid : Nat} {s s' : OtpState} (h : (newSlot fid : Handler OtpState ε Bool) s = (.ok false, s')) :
    fileData s.fido.files fid = none := by
  unfold newSlot at h
  obtain ⟨files, t, hfiles, h⟩ := bind_ok h
  cases hfiles
  split at h
  · cases h
  · rename_i hnone
    have hfile : s.fido.files fid = none := Option.not_isSome_iff_eq_none.mp hnone
    rw [fileData, hfile]

/-- What the slots are encrypted with is undone by the decryption. -/
structure OtpCiphers : Prop where
  decrypt : ∀ {key nonce data blob}, Sdk.encryptWithAad key nonce data Sdk.pinKdfV2 = .ok blob →
    blob.length = 12 + data.length + 16 ∧ Sdk.decryptWithAad key blob Sdk.pinKdfV2 = .ok data

/-- A slot holds new content, and the files of the others hold what they did. -/
structure StoredIn (n : Nat) (plain : Bytes) (d d' : Device) : Prop where
  content : slotContent d' n = some plain
  others : ∀ m < 4, m ≠ n → fileData d'.store.view (efOtpSlot m) = fileData d.store.view (efOtpSlot m)
  reliable : d.store.fates = [] → d'.store.fates = []

/-- A file as `otp_slot_store` writes it is read back. -/
private theorem load_stored (hciphers : OtpCiphers) {files : Files} {fid : Nat} {plain blob : Bytes} {key : Block 32} {nonce : Block 12}
    (hlen : plain.length = otpConfigSize ∨ plain.length = otpSlotPlainMax) (hkey : otpSlotDeriveKey fid = .ok key)
    (hblob : Sdk.encryptWithAad key nonce plain Sdk.pinKdfV2 = .ok blob)
    (hfile : files fid = some (otpSlotMagic ++ [otpSlotFormatV1] ++ (Block.ofBytes (12 + plain.length + 16) blob).1)) :
    otpSlotLoad files fid = .ok plain := by
  obtain ⟨hbloblen, hdecrypt⟩ := hciphers.decrypt hblob
  have hbytes : (Block.ofBytes (12 + plain.length + 16) blob).1 = blob :=
    congrArg Subtype.val (Block.ofBytes_val (⟨blob, hbloblen⟩ : Block (12 + plain.length + 16)))
  rw [hbytes] at hfile
  have hdata : fileData files fid = some (otpSlotMagic ++ [otpSlotFormatV1] ++ blob) := by
    rw [fileData, hfile]
    rfl
  have hmin : 52 ≤ plain.length := by
    simp only [otpConfigSize, otpSlotPlainMax] at hlen
    omega
  have hstored : (otpSlotMagic ++ [otpSlotFormatV1] ++ blob).length = 34 + plain.length := by
    simp only [List.length_append, hbloblen, otpSlotMagic, List.length_cons, List.length_nil]
    omega
  have hsecure : otpSlotIsSecure (otpSlotMagic ++ [otpSlotFormatV1] ++ blob) = true := by
    simp only [otpSlotIsSecure, decide_eq_true_eq, hstored]
    refine ⟨by simp only [otpSlotSecureOverhead, otpConfigSize]; omega, rfl, rfl⟩
  have hrest : (otpSlotMagic ++ [otpSlotFormatV1] ++ blob).drop 6 = blob := rfl
  simp only [otpSlotLoad, hdata, hsecure, hstored, hrest, hkey, hdecrypt, otpSlotSecureOverhead]
  rw [if_neg (by simp), if_neg (by omega)]
  congr 1
  rw [Nat.add_sub_cancel_left, List.take_left' rfl]

/-- There is a key of a slot, and the content is encrypted with it and the next nonce. -/
def Encrypts (n : Nat) (plain : Bytes) (entropy : Entropy) : Prop :=
  ∃ key blob, otpSlotDeriveKey (efOtpSlot n) = .ok key ∧ Sdk.encryptWithAad key (entropy.block 12) plain Sdk.pinKdfV2 = .ok blob

/-- What storing into a slot needs beside its file: the encryption, and a write that is not to fail. -/
def StoreTakes (n : Nat) (plain : Bytes) (d : Device) : Prop := Encrypts n plain d.entropy ∧ d.store.fates.head? ≠ some false

theorem otpSlotStore_taken (hciphers : OtpCiphers) {n : Nat} {plain : Bytes}
    (hlen : plain.length = otpConfigSize ∨ plain.length = otpSlotPlainMax) {s : OtpState} (htakes : StoreTakes n plain s.fido) :
    ∃ fido, otpSlotStore true (efOtpSlot n) plain s = (.ok (), { s with fido := fido }) ∧ StoredIn n plain s.fido fido ∧
      fido.entropy = s.fido.entropy.rest 12 ∧ fido.store.fates = s.fido.store.fates.tail := by
  obtain ⟨⟨key, blob, hkey, hblob⟩, hfate⟩ := htakes
  let drawn : Device := { s.fido with entropy := s.fido.entropy.rest 12 }
  have hdrawn : (onFido (randomBlock 12) : OtpIo (Block 12)) s = (.ok (s.fido.entropy.block 12), { s with fido := drawn }) := rfl
  have hallowed : ¬ (true = false ∨ plain.length ≠ otpConfigSize ∧ plain.length ≠ otpSlotPlainMax) := by
    rintro (h | ⟨h, h'⟩)
    · cases h
    · exact hlen.elim h h'
  unfold otpSlotStore
  rw [refuseIf_false hallowed, bind_eq (pure_run () s), hkey, ofExcept_ok_bind, bind_eq hdrawn, hblob, ofExcept_ok_bind, bind_run,
    onFido, zoom_run, onStore, zoom_run, filePutData_taken (show drawn.store.fates.head? ≠ some false from hfate)]
  refine ⟨_, rfl, ⟨slotContent_ok ?_, fun m _ hm => ?_, fun hfates => ?_⟩, rfl, rfl⟩
  · exact load_stored hciphers hlen hkey hblob (by simp)
  · simp only [fileData, Store.set_view, Function.update_of_ne (efOtpSlot_ne hm)]
    rfl
  · simp only [Store.set_fates]
    rw [show drawn.store.fates = [] from hfates]
    rfl

theorem otpSlotStore_failed {n : Nat} {plain : Bytes} {s : OtpState} (hfails : ¬ StoreTakes n plain s.fido) :
    ∃ e fido, otpSlotStore true (efOtpSlot n) plain s = (.error e, { s with fido := fido }) ∧ SlotsStill s.fido fido := by
  unfold otpSlotStore
  by_cases hrefused : true = false ∨ plain.length ≠ otpConfigSize ∧ plain.length ≠ otpSlotPlainMax
  · rw [refuseIf_true hrefused]
    exact ⟨_, s.fido, rfl, Std.Refl.refl _⟩
  rw [refuseIf_false hrefused, bind_eq (pure_run () s)]
  rcases hkey : otpSlotDeriveKey (efOtpSlot n) with e | key
  · exact ⟨_, s.fido, rfl, Std.Refl.refl _⟩
  rw [ofExcept_ok_bind]
  let drawn : Device := { s.fido with entropy := s.fido.entropy.rest 12 }
  have hdrawn : (onFido (randomBlock 12) : OtpIo (Block 12)) s = (.ok (s.fido.entropy.block 12), { s with fido := drawn }) := rfl
  rw [bind_eq hdrawn]
  rcases hblob : Sdk.encryptWithAad key (s.fido.entropy.block 12) plain Sdk.pinKdfV2 with e | blob
  · exact ⟨_, drawn, rfl, still_of_store rfl⟩
  have hfate : drawn.store.fates.head? = some false := by
    by_contra hfate
    exact hfails ⟨⟨key, blob, hkey, hblob⟩, hfate⟩
  rw [ofExcept_ok_bind, bind_run, onFido, zoom_run, onStore, zoom_run, filePutData_failed hfate]
  refine ⟨.noMemory, { drawn with store := { drawn.store with fates := drawn.store.fates.tail } }, rfl, fun _ _ => rfl,
    fun hd fid hfid => hd fid hfid, fun hfates => ?_⟩
  rw [show drawn.store.fates = [] from hfates] at hfate
  cases hfate

/-- A slot is stored into and reads back, or its file is left alone. -/
theorem otpSlotStore_run (hciphers : OtpCiphers) (there : Bool) (n : Nat) (plain : Bytes) (s : OtpState) : ∃ r fido,
    otpSlotStore there (efOtpSlot n) plain s = (r, { s with fido := fido }) ∧
      ((∃ e, r = .error e) ∧ SlotsStill s.fido fido ∨ r = .ok () ∧ there = true ∧ StoredIn n plain s.fido fido) := by
  by_cases hrefused : there = false ∨ plain.length ≠ otpConfigSize ∧ plain.length ≠ otpSlotPlainMax
  · unfold otpSlotStore
    rw [refuseIf_true hrefused]
    exact ⟨_, s.fido, rfl, .inl ⟨⟨_, rfl⟩, Std.Refl.refl _⟩⟩
  obtain ⟨hthere, hlen⟩ := not_or.mp hrefused
  obtain rfl : there = true := by simpa using hthere
  by_cases htakes : StoreTakes n plain s.fido
  · obtain ⟨fido, hrun, hstored, -, -⟩ := otpSlotStore_taken hciphers (by omega) htakes
    exact ⟨.ok (), fido, hrun, .inr ⟨rfl, rfl, hstored⟩⟩
  · obtain ⟨e, fido, hrun, hstill⟩ := otpSlotStore_failed htakes
    exact ⟨.error e, fido, hrun, .inl ⟨⟨e, rfl⟩, hstill⟩⟩

omit [Sdk] in
/-- A slot's file may go, and does where nothing fails; the files of the others hold what they did. -/
theorem deleteSlot_run (there : Bool) (n : Nat) (s : OtpState) : ∃ fido,
    (deleteSlot there (efOtpSlot n) : Handler OtpState ε Unit) s = (.ok (), { s with fido := fido }) ∧
      (∀ m < 4, m ≠ n → fileData fido.store.view (efOtpSlot m) = fileData s.fido.store.view (efOtpSlot m)) ∧
      (s.fido.store.fates = [] → fido.store.fates = [] ∧
        (there = true → fileData fido.store.view (efOtpSlot n) = none ∧ SlotsCommitted fido)) := by
  cases there with
  | false => exact ⟨s.fido, rfl, fun _ _ _ => rfl, fun hfates => ⟨hfates, fun h => absurd h (by simp)⟩⟩
  | true =>
    rw [deleteSlot, runIf_true rfl, bind_run, onFido, zoom_run, fileDelete, bind_run, onStore, zoom_run, fileDeleteNoCommit]
    rcases tryOp_cases (ε := ε) (fun s : Store Nat UInt8 => s.set (efOtpSlot n) none) s.fido.store with hrun | ⟨hrun, hfate⟩ <;>
      rw [hrun]
    · let gone : Store Nat UInt8 := { s.fido.store with fates := s.fido.store.fates.tail }.set (efOtpSlot n) none
      refine ⟨{ s.fido with store := gone.sync }, rfl, fun m _ hm => ?_, fun hfates => ⟨?_, fun _ => ⟨?_, fun _ _ => rfl⟩⟩⟩
      · simp only [gone, fileData, Store.sync_view, Store.set_view, Function.update_of_ne (efOtpSlot_ne hm)]
      · simp only [gone, Store.sync_fates, Store.set_fates, hfates, List.tail_nil]
      · simp only [gone, fileData, Store.sync_view, Store.set_view, Function.update_self]
    · refine ⟨_, rfl, fun _ _ _ => rfl, fun hfates => ?_⟩
      rw [hfates] at hfate
      cases hfate

end FidoTouch.Otp
