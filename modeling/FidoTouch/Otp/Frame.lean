import FidoTouch.Ctap.PinFiles
import FidoTouch.Otp.AccessCode

/-! What the OTP application leaves alone: relations of stores that see neither the slots nor what a start-up makes. -/
namespace FidoTouch.Ctap
open FidoTouch.Program Handler FidoTouch.Storage FidoTouch.Resident

-- The search for `Keeps` follows whole commands.
set_option synthInstance.maxSize 4096

variable {ε α : Type} {S : Store Nat UInt8 → Store Nat UInt8 → Prop} {P : Nat → Prop} [hS : Sees S P]

/-! ### Relations of the stores of two devices -/

include hS in
private theorem inStore_of_same {d d' : Device} (h : d'.store = d.store) : InStore S d d' := by
  rw [InStore, h]
  exact hS.refl _

instance : Spares (InStore S) P where
  refl _ := inStore_of_same rfl
  trans h h' := hS.trans h h'
  sync d := hS.sync d.store
  fates d := hS.fates d.store
  set d _ v hfid := hS.set d.store v hfid
  entropy _ _ := inStore_of_same rfl

instance : AdmitsGlobals (InStore S) := ⟨fun h => inStore_of_same (congrArg Device.store h :)⟩
instance (k : Change) : AdmitsToken (InStore S) k := ⟨fun _ _ _ => inStore_of_same rfl⟩
instance : AdmitsAssertions (InStore S) := ⟨fun _ _ => inStore_of_same rfl⟩
instance : AdmitsPinGuard (InStore S) := ⟨fun _ _ _ => inStore_of_same rfl⟩
instance : AdmitsKeydev (InStore S) := ⟨fun _ _ _ => inStore_of_same rfl⟩
instance : AdmitsUpload (InStore S) := ⟨fun _ _ => inStore_of_same rfl⟩

/-! ### Starting up -/

/-- The files in `P` are not among those that a start-up may make or rewrite. -/
class StartFree (P : Nat → Prop) : Prop where
  made : ∀ fid ∈ [efKeyDev, efEeDev, efCounter, efAuthtoken, efPauthtoken, efLargeblob, efDevState], ¬ P fid
  rp : ∀ slot : Slot, ¬ P (rpFid slot)

section
variable [hP : StartFree P]

instance (priority := low) : Fact (¬ P efKeyDev) := ⟨hP.made _ (by decide)⟩
instance (priority := low) : Fact (¬ P efEeDev) := ⟨hP.made _ (by decide)⟩
instance (priority := low) : Fact (¬ P efCounter) := ⟨hP.made _ (by decide)⟩
instance (priority := low) : Fact (¬ P efAuthtoken) := ⟨hP.made _ (by decide)⟩
instance (priority := low) : Fact (¬ P efPauthtoken) := ⟨hP.made _ (by decide)⟩
instance (priority := low) : Fact (¬ P efLargeblob) := ⟨hP.made _ (by decide)⟩
instance (priority := low) : Fact (¬ P efDevState) := ⟨hP.made _ (by decide)⟩
instance (priority := low) (slot : Slot) : Fact (¬ P (rpFid slot)) := ⟨hP.rp slot⟩

end

variable [hP : StartFree P]
include hS

omit hP in
private theorem modify_store {f : Device → Device} (hf : ∀ d, (f d).store = d.store) :
    Keeps (InStore S) (modify f : Handler Device ε Unit) := keeps_of fun d => inStore_of_same (hf d)

variable [Sdk]
include hP

theorem scanFilesFido_inStore : Keeps (InStore S) scanFilesFido := by
  have hcertdev : Keeps (InStore S) ensureCertdev := by
    unfold ensureCertdev
    infer_instance
  unfold scanFilesFido
  refine .bind inferInstance fun _ => .bind inferInstance fun _ => .bind inferInstance fun _ => .bind inferInstance fun _ => ?_
  exact .bind (modify_store fun _ => rfl) fun _ => inferInstance

private theorem migrateRp_inStore (slot : Slot) : Keeps (InStore S) (migrateRp slot : Handler Device ε Bool) := by
  have hencrypt : ∀ hash rpId, Keeps (InStore S) (rpIdEncrypt hash rpId) := fun hash rpId => by
    unfold rpIdEncrypt deriveChachaKey
    infer_instance
  unfold migrateRp
  refine .bind inferInstance fun files => ?_
  split
  · infer_instance
  · split
    · infer_instance
    · refine .bind inferInstance fun out => ?_
      split <;> infer_instance

theorem initFido_inStore : Keeps (InStore S) (initFido : Handler Device ε Unit) := by
  have := scanFilesFido_inStore (S := S)
  have := migrateRp_inStore (ε := ε) (S := S)
  have : Keeps (InStore S) (migrateRpSecure : Handler Device ε Unit) := by
    unfold migrateRpSecure
    infer_instance
  unfold initFido
  infer_instance

end FidoTouch.Ctap

namespace FidoTouch.Otp
open FidoTouch.Program Handler FidoTouch.Storage FidoTouch.Ctap

-- The search for `Keeps` follows whole commands.
set_option synthInstance.maxSize 4096

variable {ε α : Type} {S : Store Nat UInt8 → Store Nat UInt8 → Prop} {P : Nat → Prop} [hS : Sees S P]

/-- A relation of the flash that all applications share. -/
def InFlash (S : Store Nat UInt8 → Store Nat UInt8 → Prop) (s s' : OtpState) : Prop := S s.fido.store s'.fido.store

include hS in
private theorem inFlash_of_same {s s' : OtpState} (h : s'.fido.store = s.fido.store) : InFlash S s s' := by
  rw [InFlash, h]
  exact hS.refl _

instance : Std.Refl (InFlash S) := ⟨fun _ => inFlash_of_same rfl⟩
instance : IsTrans OtpState (InFlash S) := ⟨fun _ _ _ h h' => hS.trans h h'⟩

include hS in
private theorem keeps_flash {x : Handler OtpState ε α} (h : ∀ s, (x s).2.fido.store = s.fido.store) : Keeps (InFlash S) x :=
  ⟨fun s => inFlash_of_same (h s)⟩

omit hS in
instance (x : Handler Device ε α) [hx : Keeps (InStore S) x] : Keeps (InFlash S) (onFido x) := ⟨fun s => hx.rel s.fido⟩

instance : Keeps (InFlash S) (getFiles : Handler OtpState ε Files) := keeps_flash fun _ => rfl
instance : Keeps (InFlash S) (bumpConfigSeq : Handler OtpState ε Unit) := keeps_flash fun _ => rfl
instance (b : UInt8) : Keeps (InFlash S) (setStatusByte b : Handler OtpState ε Unit) := keeps_flash fun _ => rfl
instance (frame : Bytes) : Keeps (InFlash S) (otpSendFrame frame : Handler OtpState ε Unit) := keeps_flash fun _ => rfl

/-- An update of the application's own globals. -/
instance (scanned : OtpState → Bool) (sessionCounter : OtpState → Nat → UInt8) (configSeq statusByte : OtpState → UInt8)
    (otpFrameRx sendBuffer : OtpState → Bytes) (otpCurrSeq otpExpSeq : OtpState → UInt8) :
    Keeps (InFlash S) (modify fun s => ⟨s.fido, scanned s, sessionCounter s, configSeq s, statusByte s, otpFrameRx s, sendBuffer s,
      otpCurrSeq s, otpExpSeq s⟩ : Handler OtpState ε Unit) := keeps_flash fun _ => rfl

instance (isOtp : Bool) (data : Bytes) : Keeps (InFlash S) (editData isOtp data : Handler OtpState ε Unit) := by
  unfold editData
  infer_instance

/-! ### Slots -/

/-- The files in `P` are neither those of a start-up nor slots. -/
class SlotFree (P : Nat → Prop) : Prop extends StartFree P where
  slot : ∀ n < 257, ¬ P (efOtpSlot n)

variable [hP : SlotFree P]

instance (fid : Nat) [Fact (¬ P fid)] : Keeps (InFlash S) (newSlot fid : Handler OtpState ε Bool) := by
  unfold newSlot
  refine .bind inferInstance fun files => ?_
  split <;> infer_instance

instance (there : Bool) (fid : Nat) [Fact (¬ P fid)] : Keeps (InFlash S) (deleteSlot there fid : Handler OtpState ε Unit) := by
  unfold deleteSlot
  infer_instance

variable [Sdk]

instance (there : Bool) (fid : Nat) (plain : Bytes) [Fact (¬ P fid)] : Keeps (InFlash S) (otpSlotStore there fid plain) := by
  unfold otpSlotStore
  infer_instance

instance : Keeps (InFlash S) (scanAll : Handler OtpState ε Unit) := by
  have := scanFilesFido_inStore (S := S)
  unfold scanAll
  infer_instance

omit hS [Sdk] in
private theorem fixed_slot {n : Nat} (hn : n ∈ otpSlots) : Fact (¬ P (efOtpSlot n)) := by
  refine ⟨hP.slot n ?_⟩
  simp only [otpSlots, List.mem_cons, List.not_mem_nil, or_false] at hn
  omega

include hS hP in
private theorem otpMigrateSlot_inFlash {n : Nat} (hn : n ∈ otpSlots) : Keeps (InFlash S) (otpMigrateSlot n) := by
  have := fixed_slot (P := P) hn
  unfold otpMigrateSlot
  refine .bind inferInstance fun files => ?_
  split
  · infer_instance
  · refine .bind inferInstance fun plain => ?_
    split <;> infer_instance

include hS hP in
private theorem countPowerUp_inFlash {n : Nat} (hn : n ∈ otpSlots) : Keeps (InFlash S) (countPowerUp n) := by
  have := fixed_slot (P := P) hn
  unfold countPowerUp
  refine .bind inferInstance fun files => ?_
  split <;> infer_instance

instance : Keeps (InFlash S) otpMigrateSlots := by
  unfold otpMigrateSlots otpSlots
  simp only [foldFor]
  have h0 := otpMigrateSlot_inFlash (S := S) (n := 0) (by decide)
  have h1 := otpMigrateSlot_inFlash (S := S) (n := 1) (by decide)
  have h2 := otpMigrateSlot_inFlash (S := S) (n := 2) (by decide)
  have h3 := otpMigrateSlot_inFlash (S := S) (n := 3) (by decide)
  infer_instance

instance : Keeps (InFlash S) (initOtp : Handler OtpState ε Unit) := by
  have hcount : Keeps (InFlash S) (forEach otpSlots countPowerUp : OtpIo Unit) := by
    unfold otpSlots
    simp only [forEach]
    have h0 := countPowerUp_inFlash (S := S) (n := 0) (by decide)
    have h1 := countPowerUp_inFlash (S := S) (n := 1) (by decide)
    have h2 := countPowerUp_inFlash (S := S) (n := 2) (by decide)
    have h3 := countPowerUp_inFlash (S := S) (n := 3) (by decide)
    infer_instance
  have hrest : ∀ counted : Except PicoError Unit, Keeps (InFlash S) (match counted with
      | .error _ => pure ()
      | .ok () => do
        modify fun s => { s with scanned := true }
        onFido commit : Handler OtpState ε Unit) := fun counted => by
    split <;> infer_instance
  unfold initOtp
  infer_instance

instance (isOtp : Bool) : Keeps (InFlash S) (otpStatus isOtp : Handler OtpState ε Bytes) := by
  unfold otpStatus
  infer_instance

/-! ### Commands -/

omit hS hP [Sdk] in
private theorem slotOf_bound (first : Bool) (p2 : UInt8) : slotOf first p2 < 257 := by
  have := p2.toNat_lt
  unfold slotOf
  split <;> omega

omit hS [Sdk] in
private theorem named_slot (first : Bool) (p2 : UInt8) : Fact (¬ P (efOtpSlot (slotOf first p2))) := ⟨hP.slot _ (slotOf_bound first p2)⟩

instance (p1 p2 : UInt8) (data : Bytes) (isOtp : Bool) : Keeps (InFlash S) (configure p1 p2 data isOtp) := by
  have := named_slot (P := P) (decide (p1 = 0x01)) p2
  unfold configure
  refine .bind inferInstance fun _ => .bind inferInstance fun _ => .bind inferInstance fun there => .bind inferInstance fun files => ?_
  refine .bind inferInstance fun _ => ?_
  split <;> infer_instance

instance (p1 p2 : UInt8) (data : Bytes) (isOtp : Bool) : Keeps (InFlash S) (update p1 p2 data isOtp) := by
  have := named_slot (P := P) (decide (p1 = 0x04)) p2
  unfold update
  infer_instance

instance (data : Bytes) (isOtp : Bool) : Keeps (InFlash S) (swap data isOtp) := by
  unfold swap
  rcases hrequest : swapRequest data isOtp with e | request
  · exact ⟨fun s => Std.Refl.refl s⟩
  obtain ⟨hslot1, hslot2⟩ := swapRequest_slots hrequest
  have : Fact (¬ P (efOtpSlot request.slot1)) := ⟨hP.slot _ (by omega)⟩
  have : Fact (¬ P (efOtpSlot request.slot2)) := ⟨hP.slot _ (by omega)⟩
  have hsecond : ∀ data2 there1 there2, Keeps (InFlash S)
      (swap.moveSecond data2 there1 there2 (efOtpSlot request.slot1) (efOtpSlot request.slot2)) := fun data2 _ _ => by
    unfold swap.moveSecond
    cases data2 <;> infer_instance
  have hfirst : ∀ data1 data2 there2, Keeps (InFlash S) (swap.moveFirst data1 data2 there2 (efOtpSlot request.slot2)) := fun data1 _ _ => by
    unfold swap.moveFirst
    cases data1 <;> infer_instance
  rw [ofExcept_ok_bind]
  infer_instance

section
variable [OtpSdk]

instance (p1 p2 : UInt8) (data : Bytes) (isOtp : Bool) : Keeps (InFlash S) (calculate p1 p2 data isOtp) := by
  have htouch : ∀ plain, Keeps (InFlash S) (awaitTouch plain isOtp) := fun plain => by
    unfold awaitTouch
    infer_instance
  unfold calculate
  infer_instance

instance (p1 p2 : UInt8) (data : Bytes) (isOtp : Bool) : Keeps (InFlash S) (cmdOtp p1 p2 data isOtp) := by
  unfold cmdOtp
  infer_instance

instance (a : Oath.Apdu) (isOtp : Bool) : Keeps (InFlash S) (otpProcessApdu a isOtp) := by
  unfold otpProcessApdu
  infer_instance

instance : Keeps (InFlash S) (frameCommand : Handler OtpState ε Unit) := by
  unfold frameCommand
  refine .bind (keeps_flash fun _ => rfl) fun s => ?_
  have hanswer : ∀ answer : Except Oath.Sw Bytes, Keeps (InFlash S) (match answer with
      | .ok response => runIf (response ≠ []) (otpSendFrame response)
      | .error _ => pure () : Handler OtpState ε Unit) := fun answer => by
    split <;> infer_instance
  infer_instance

instance (buffer : Block 8) : Keeps (InFlash S) (otpHidSetReport buffer : Handler OtpState ε Unit) := by
  unfold otpHidSetReport
  infer_instance

instance : Keeps (InFlash S) (otpHidGetReport : Handler OtpState ε Bytes) := by
  unfold otpHidGetReport
  infer_instance

end

instance : Keeps (InFlash S) otpSelect := by
  unfold otpSelect
  infer_instance

/-! ### The button -/

instance (fid : Nat) (plain : Bytes) [Fact (¬ P fid)] : Keeps (InFlash S) (pressHotp fid plain : Handler OtpState ε Pressed) := by
  unfold pressHotp
  split <;> infer_instance

variable [OtpSdk]

instance (slot fid : Nat) (plain : Bytes) [Fact (¬ P fid)] : Keeps (InFlash S) (pressYubico slot fid plain : Handler OtpState ε Pressed) := by
  unfold pressYubico
  infer_instance

instance (slot : Fin 4) : Keeps (InFlash S) (otpButtonPressed slot : Handler OtpState ε Pressed) := by
  have : Fact (¬ P (efOtpSlot slot)) := ⟨hP.slot _ (by omega)⟩
  unfold otpButtonPressed
  refine .bind inferInstance fun _ => .bind inferInstance fun files => ?_
  split
  · infer_instance
  · split <;> infer_instance

include hS hP in
/-- Every message but one that cycles power. -/
theorem otpInput_inFlash [ObjectLibrary] {i : OtpInput} (hon : i ≠ .powerCycle) : Keeps (InFlash S) (otpInput i) := by
  have := initFido_inStore (ε := PicoError) (S := S)
  cases i with
  | powerCycle => exact absurd rfl hon
  | elapse ms => exact .bind (keeps_flash fun _ => rfl) fun _ => inferInstance
  | _ =>
    unfold otpInput
    infer_instance

end FidoTouch.Otp
