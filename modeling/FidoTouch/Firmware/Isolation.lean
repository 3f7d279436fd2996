import FidoTouch.Firmware
import FidoTouch.Oath.PinFile
import FidoTouch.Oath.Twins
import FidoTouch.Otp.Frame
import FidoTouch.Otp.PlainSlots
import FidoTouch.Program.Parts

/-! The applications do not disturb each other: what one of them keeps on the flash changes by its own messages only. -/
namespace FidoTouch.Firmware
open FidoTouch.Program Handler FidoTouch.Storage FidoTouch.Resident FidoTouch.Ctap FidoTouch.Otp

-- The search for `Keeps` follows whole commands.
set_option synthInstance.maxSize 4096

variable {ε α : Type}

/-! ### Whose file it is -/

/-- A resident credential in any of its forms, or the record of the PIN with its least length. -/
def FidoFile (fid : Nat) : Prop :=
  (fid = efPin ∨ fid = efMinpinlen) ∨ ∃ slot : Slot, fid = efCred + slot ∨
    (∃ m, fid = residentManifestFid slot m) ∨ ∃ m t, residentObjectTypeValid t = true ∧ fid = residentRecordFid slot m t

def Application.Owns : Application → Nat → Prop
  | .fido => FidoFile
  | .otp => IsOtpSlot
  | .oath => Oath.AppletFile
  | .management => fun fid => fid = efDevConf

/-- Where in the space of file ids an application's files lie. -/
def Application.Within : Application → Nat → Prop
  | .fido, fid => fid = 0x1080 ∨ fid = 0x1100 ∨ 0xCF00 ≤ fid ∧ fid < 0xD000 ∨ 0xD100 ≤ fid ∧ fid < 0xDB00
  | .otp, fid => 0xBB00 ≤ fid ∧ fid < 0xBB04
  | .oath, fid => 0xBA00 ≤ fid ∧ fid ≤ 0xBAFF ∨ fid = 0x10A0
  | .management, fid => fid = 0x1122

theorem Application.Owns.within {a : Application} {fid : Nat} (h : a.Owns fid) : a.Within fid := by
  cases a with
  | fido =>
    rcases h with (rfl | rfl) | ⟨slot, rfl | ⟨m, rfl⟩ | ⟨m, t, ht, rfl⟩⟩
    · exact .inl rfl
    · exact .inr (.inl rfl)
    · have := slot.isLt
      exact .inr (.inr (.inl (by simp only [efCred]; omega)))
    · have := slot.isLt
      refine .inr (.inr (.inr ?_))
      cases m <;> simp only [residentManifestFid] <;> omega
    · have := slot.isLt
      have htype : 1 ≤ t ∧ t ≤ 4 := of_decide_eq_true ht
      refine .inr (.inr (.inr ?_))
      cases m <;> simp only [residentRecordFid] <;> omega
  | otp => exact h
  | oath =>
    rcases h with ⟨i, hi, rfl⟩ | rfl | rfl
    · simp only [Oath.maxOathCred] at hi
      exact .inl (by simp only [efOathCred]; omega)
    · exact .inl (by decide)
    · exact .inr rfl
  | management => exact h

/-- No file lies in the room of another application. -/
private theorem not_owns {a : Application} {fid : Nat} (h : ¬ a.Within fid) : ¬ a.Owns fid := fun howns => h howns.within

/-- The files of an application are those with these contents. -/
def Holds (a : Application) (v : Files) (im : Files) : Prop := ∀ fid, a.Owns fid → im fid = v fid

variable {a : Application} {v : Files}

instance : ReadsOnly (Holds a v) a.Owns := ⟨fun h him fid hfid => (h fid hfid).trans (him fid hfid)⟩

/-! ### What an application writes -/

/-- The files in `P` are none that commands of the FIDO application write. -/
class FidoFree (P : Nat → Prop) : Prop extends Ordinary P where
  files : ∀ fid ∈ [efCounter, efPin, efMinpinlen, efKeyDev, efKeyDevEnc, efLargeblob], ¬ P fid

/-- The files in `P` are not those of the OATH application. -/
class OathFree (P : Nat → Prop) : Prop where
  files : ∀ fid, Oath.AppletFile fid → ¬ P fid

section
variable {S : Store Nat UInt8 → Store Nat UInt8 → Prop} {P : Nat → Prop} [hS : Sees S P] [Sdk]
include hS

private theorem cmdRegister_inStore [FidoFree P] (apdu : U2fApdu) : Keeps (InStore S) (cmdRegister apdu) := by
  have : Fact (¬ P efKeyDev) := ⟨FidoFree.files _ (by decide)⟩
  have hpath : ∀ entries outk, Keeps (InStore S) (newPath entries outk) := fun entries => by
    induction entries with
    | zero =>
      intro outk
      unfold newPath
      infer_instance
    | succ entries ih =>
      intro outk
      unfold newPath newPathWord
      infer_instance
  unfold cmdRegister deriveNewKey
  infer_instance

/-- A message to the FIDO application that neither erases the flash nor cycles power. -/
private theorem fido_inStore [ObjectLibrary] [FidoFree P] {c : Command} (hreset : c ≠ .ctap2 (.cbor .reset)) (hon : c ≠ .ctap2 .powerCycle)
    (d : Device) : InStore S d (token.step d c).2 := by
  have : Fact (¬ P efCounter) := ⟨FidoFree.files _ (by decide)⟩
  have : Fact (¬ P efPin) := ⟨FidoFree.files _ (by decide)⟩
  have : Fact (¬ P efMinpinlen) := ⟨FidoFree.files _ (by decide)⟩
  have : Fact (¬ P efKeyDev) := ⟨FidoFree.files _ (by decide)⟩
  have : Fact (¬ P efKeyDevEnc) := ⟨FidoFree.files _ (by decide)⟩
  have : Fact (¬ P efLargeblob) := ⟨FidoFree.files _ (by decide)⟩
  cases c with
  | ctap2 i =>
    refine (authenticate_keeps (R := InStore S) (fun r hr => ?_) (fun _ _ _ => inferInstance) fun h => hon (by rw [h])).rel d
    subst hr
    unfold cborCommand
    split
    case h_9 => exact absurd rfl hreset
    all_goals infer_instance
  | u2f apdu => exact (inferInstance : Keeps (InStore S) (cmdAuthenticate apdu)).rel d

private theorem oath_inStore [hP : OathFree P] (i : Oath.Input) (s : Oath.OathState) : S s.store (oathStep i s).2.store := by
  have : Oath.CredFree P := ⟨fun i hi => hP.files _ (.inl ⟨i, hi, rfl⟩)⟩
  have : Fact (¬ P efOathCode) := ⟨hP.files _ (.inr (.inl rfl))⟩
  have : Fact (¬ P efOtpPin) := ⟨hP.files _ (.inr (.inr rfl))⟩
  cases i with
  | select => exact (inferInstance : Keeps (Oath.InStore S) Oath.oathSelect).rel { s with resApdu := [] }
  | apdu apdu => exact (Oath.oathProcessApdu_keeps (S := S) apdu).rel { s with resApdu := [] }

private theorem cmdWriteConfig_inStore [Management.ManSdk] [Fact (¬ P efDevConf)]
    (hphy : ∀ keyboard s, S s (Management.ManSdk.phySave keyboard s)) (data : Bytes) : Keeps (InStore S) (Management.cmdWriteConfig data) := by
  have hput : ∀ config, Keeps (InStore S) (Management.putConfig config : Management.ManOp Unit) := fun config => by
    unfold Management.putConfig Management.newFile
    infer_instance
  have hsave : ∀ keyboard : Device → Bool, Keeps (InStore S)
      (modify fun d => { d with store := Management.ManSdk.phySave (keyboard d) d.store } : Management.ManOp Unit) :=
    fun keyboard => keeps_of fun d => hphy (keyboard d) d.store
  unfold Management.cmdWriteConfig
  refine .bind inferInstance fun _ => .bind inferInstance fun _ => .bind inferInstance fun present => .bind inferInstance fun _ => ?_
  refine .bind (hput _) fun _ => .bind inferInstance fun files => ?_
  have := hsave fun _ => capSupported files Otp.capOtp
  infer_instance

private theorem management_inStore [Management.ManSdk] [ObjectLibrary] {a : Oath.Apdu} (hreset : a.ins ≠ Management.insReset)
    (hwrite : a.ins = Management.insWriteConfig → Keeps (InStore S) (Management.cmdWriteConfig a.data)) :
    Keeps (InStore S) (Management.manProcessApdu a) := by
  unfold Management.manProcessApdu
  refine .bind inferInstance fun _ => ?_
  split
  · unfold Management.cmdReadConfig
    infer_instance
  · split
    · exact hwrite ‹_›
    · infer_instance

end

/-! ### Instances for the files of each application -/

private instance isolationFido [ha : Fact (a ≠ .fido)] : FidoFree a.Owns where
  cred slot := not_owns <| by
    have := slot.isLt
    cases a <;> simp only [Application.Within, efCred] <;> first | omega | exact absurd rfl ha.out
  manifest slot m := not_owns <| by
    have := slot.isLt
    cases a <;> cases m <;> simp only [Application.Within, residentManifestFid] <;> first | omega | exact absurd rfl ha.out
  record slot m t := not_owns <| by
    have := slot.isLt
    cases a <;> cases m <;> simp only [Application.Within, residentRecordFid] <;> first | omega | exact absurd rfl ha.out
  rp slot := not_owns <| by
    have := slot.isLt
    cases a <;> simp only [Application.Within, rpFid, efRp] <;> omega
  single fid hfid := not_owns <| by
    simp only [List.mem_cons, List.not_mem_nil, or_false] at hfid
    rcases hfid with rfl | rfl | rfl | rfl | rfl | rfl | rfl <;> cases a <;> simp only [Application.Within] <;> decide
  files fid hfid := not_owns <| by
    simp only [List.mem_cons, List.not_mem_nil, or_false] at hfid
    rcases hfid with rfl | rfl | rfl | rfl | rfl | rfl <;> cases a <;> simp only [Application.Within] <;>
      first | decide | exact absurd rfl ha.out

private instance isolationOtp [ha : Fact (a ≠ .otp)] : SlotFree a.Owns where
  made fid hfid := not_owns <| by
    simp only [List.mem_cons, List.not_mem_nil, or_false] at hfid
    rcases hfid with rfl | rfl | rfl | rfl | rfl | rfl | rfl <;> cases a <;> simp only [Application.Within] <;> decide
  rp slot := not_owns <| by
    have := slot.isLt
    cases a <;> simp only [Application.Within, rpFid, efRp] <;> omega
  slot n hn := not_owns <| by
    cases a <;> simp only [Application.Within, efOtpSlot] <;> first | omega | exact absurd rfl ha.out

private instance isolationOath [ha : Fact (a ≠ .oath)] : OathFree a.Owns where
  files fid hfid := not_owns <| by
    have hwithin := Application.Owns.within (a := .oath) hfid
    simp only [Application.Within] at hwithin
    cases a <;> simp only [Application.Within] <;> first | omega | exact absurd rfl ha.out

private instance isolationManagement [ha : Fact (a ≠ .management)] : Fact (¬ a.Owns efDevConf) := ⟨not_owns <| by
  cases a <;> simp only [Application.Within] <;> first | decide | exact absurd rfl ha.out⟩

/-! ### Runs of the firmware -/

section
variable [Sdk] [OtpSdk] [Management.ManSdk] [ObjectLibrary]

/-- `phy_save` writes a file of its own, and what it makes durable is what is there. -/
def PhyApart : Prop := ∀ keyboard s a v, Carries (Holds a v) s (Management.ManSdk.phySave keyboard s)

/-- The message is for another application, it does not erase the flash, and it starts no slots. -/
structure Foreign (a : Application) (i : Input) : Prop where
  application : i.application ≠ a
  keeps : ¬ i.Resets
  starts : i.powersUp = true → a ≠ .otp

omit [Sdk] [OtpSdk] [Management.ManSdk] [ObjectLibrary] in
private theorem setOath_store (s : Oath.OathState) (f : Globals) : (f.setOath s).store = s.store := rfl

/-- A message for another application. -/
private theorem step_carries (hphy : PhyApart) {f : Globals} {i : Input} (hi : Foreign a i) (hon : i.powersUp = false) :
    Carries (Holds a v) f.store (firmware.step f i).2.store := by
  obtain ⟨happlication, hkeeps, -⟩ := hi
  cases i with
  | fido c =>
    have : Fact (a ≠ .fido) := ⟨fun h => happlication h.symm⟩
    have hstep := fido_inStore (S := Carries (Holds a v)) (c := c) (fun h => hkeeps (by rw [h]; exact trivial)) (fun h => by rw [h] at hon; cases hon) f.fido
    have hset : (firmware.step f (.fido c)).2 = f.setFido (token.step f.fido c).2 := if_neg (by simp only [hon, Bool.false_eq_true, not_false_eq_true])
    exact hset ▸ hstep
  | u2fRegister apdu =>
    have : Fact (a ≠ .fido) := ⟨fun h => happlication h.symm⟩
    exact (cmdRegister_inStore (S := Carries (Holds a v)) apdu).rel f.fido
  | otp i' =>
    have : Fact (a ≠ .otp) := ⟨fun h => happlication h.symm⟩
    have hstep := (otpInput_inFlash (S := Carries (Holds a v)) (i := i') fun h => by rw [h] at hon; cases hon).rel f.otp
    have hset : (firmware.step f (.otp i')).2 = { f with otp := (otpInput i' f.otp).2 } := if_neg (by simp only [hon, Bool.false_eq_true, not_false_eq_true])
    exact hset ▸ hstep
  | oath i' =>
    have : Fact (a ≠ .oath) := ⟨fun h => happlication h.symm⟩
    exact oath_inStore (S := Carries (Holds a v)) i' f.oathNow
  | management apdu =>
    have : Fact (a ≠ .management) := ⟨fun h => happlication h.symm⟩
    refine (management_inStore (S := Carries (Holds a v)) hkeeps fun _ => ?_).rel f.fido
    exact cmdWriteConfig_inStore (fun keyboard s => hphy keyboard s a v) apdu.data

omit [Management.ManSdk] in
/-- When power comes back, the applications that start leave the others' files alone. -/
private theorem powerUp_carries (ha : a ≠ .otp) (f : Globals) :
    Carries (Holds a v) (.powerUp f.store.durable f.store.fates) f.powerUp.store := by
  have : Fact (a ≠ .otp) := ⟨ha⟩
  exact (otpInput_inFlash (S := Carries (Holds a v)) (i := .initFido) (by simp)).rel f.otp.powerUp

omit [Sdk] [Management.ManSdk] in
private theorem step_powersUp {f : Globals} {i : Input} [Sdk] [Management.ManSdk] (hon : i.powersUp = true) : (firmware.step f i).2 = f.powerUp := by
  cases i with
  | fido c => exact if_pos hon
  | otp i' => exact if_pos hon
  | _ => cases hon

def Input.oathPart : Input → Option Oath.Input
  | .oath i => some i
  | _ => none

def Output.oathPart : Output → Option OathAnswer
  | .oath a => some a
  | _ => none

/-- The message neither erases the flash, nor writes a configuration, nor brings power back. -/
structure Steady (i : Input) : Prop where
  keeps : ¬ i.Resets
  starts : i.powersUp = false
  config : ∀ apdu, i = .management apdu → apdu.ins ≠ Management.insWriteConfig

private instance isolationOathFido : Fact (Application.oath ≠ .fido) := ⟨by decide⟩
private instance isolationOathOtp : Fact (Application.oath ≠ .otp) := ⟨by decide⟩
private instance isolationManagementFido : Fact (Application.management ≠ .fido) := ⟨by decide⟩
private instance isolationManagementOtp : Fact (Application.management ≠ .otp) := ⟨by decide⟩

private instance readFidoFree : FidoFree Oath.ReadFile where
  cred slot h := h.elim (Ordinary.cred (P := Application.oath.Owns) slot) (Ordinary.cred (P := Application.management.Owns) slot)
  manifest slot m h :=
    h.elim (Ordinary.manifest (P := Application.oath.Owns) slot m) (Ordinary.manifest (P := Application.management.Owns) slot m)
  record slot m t h :=
    h.elim (Ordinary.record (P := Application.oath.Owns) slot m t) (Ordinary.record (P := Application.management.Owns) slot m t)
  rp slot h := h.elim (Ordinary.rp (P := Application.oath.Owns) slot) (Ordinary.rp (P := Application.management.Owns) slot)
  single fid hfid h :=
    h.elim (Ordinary.single (P := Application.oath.Owns) fid hfid) (Ordinary.single (P := Application.management.Owns) fid hfid)
  files fid hfid h :=
    h.elim (FidoFree.files (P := Application.oath.Owns) fid hfid) (FidoFree.files (P := Application.management.Owns) fid hfid)

private instance readSlotFree : SlotFree Oath.ReadFile where
  made fid hfid h :=
    h.elim (StartFree.made (P := Application.oath.Owns) fid hfid) (StartFree.made (P := Application.management.Owns) fid hfid)
  rp slot h := h.elim (StartFree.rp (P := Application.oath.Owns) slot) (StartFree.rp (P := Application.management.Owns) slot)
  slot n hn h := h.elim (SlotFree.slot (P := Application.oath.Owns) n hn) (SlotFree.slot (P := Application.management.Owns) n hn)

omit [Sdk] [OtpSdk] [Management.ManSdk] [ObjectLibrary] in
private theorem aside_sameApplet {f g : Globals} {s : Oath.OathState} (h : Oath.SameApplet f.oathNow s) (hoath : g.oath = f.oath)
    (hstore : Aside Oath.ReadFile f.store g.store) : Oath.SameApplet g.oathNow s := by
  refine ⟨h.store.aside hstore, ?_⟩
  rw [← h.ram, Globals.oathNow, Globals.oathNow, hoath]

/-- A message for another application leaves what the OATH application reads. -/
private theorem step_aside {f : Globals} {i : Input} (hi : Steady i) (hpart : i.oathPart = none) :
    (firmware.step f i).1.oathPart = none ∧ (firmware.step f i).2.oath = f.oath ∧
      Aside Oath.ReadFile f.store (firmware.step f i).2.store := by
  obtain ⟨hkeeps, hon, hconfig⟩ := hi
  cases i with
  | fido c =>
    have hset : (firmware.step f (.fido c)).2 = f.setFido (token.step f.fido c).2 := if_neg (by simp only [hon, Bool.false_eq_true, not_false_eq_true])
    rw [hset]
    exact ⟨rfl, rfl, fido_inStore (S := Aside Oath.ReadFile) (fun h => hkeeps (by rw [h]; exact trivial)) (fun h => by rw [h] at hon; cases hon) f.fido⟩
  | u2fRegister apdu => exact ⟨rfl, rfl, (cmdRegister_inStore (S := Aside Oath.ReadFile) apdu).rel f.fido⟩
  | otp i' =>
    have hset : (firmware.step f (.otp i')).2 = { f with otp := (otpInput i' f.otp).2 } := if_neg (by simp only [hon, Bool.false_eq_true, not_false_eq_true])
    rw [hset]
    exact ⟨rfl, rfl, (otpInput_inFlash (S := Aside Oath.ReadFile) fun h => by rw [h] at hon; cases hon).rel f.otp⟩
  | oath i' => cases hpart
  | management apdu =>
    exact ⟨rfl, rfl, (management_inStore (S := Aside Oath.ReadFile) hkeeps fun hwrite => absurd hwrite (hconfig apdu rfl)).rel f.fido⟩

omit [OtpSdk] [Management.ManSdk] [ObjectLibrary] in
/-- A message of the OATH application is answered from what it reads. -/
private theorem step_oath {f : Globals} {s : Oath.OathState} (h : Oath.SameApplet f.oathNow s) (i : Oath.Input) :
    (oathStep i f.oathNow).1 = (oathStep i s).1 ∧ Oath.SameApplet (oathStep i f.oathNow).2 (oathStep i s).2 := by
  have hcleared : Oath.SameApplet { f.oathNow with resApdu := [] } { s with resApdu := [] } :=
    h.of_ram (f := fun s => { s with resApdu := [] }) (fun _ => rfl) fun _ _ => rfl
  have hresponse : ∀ {s t : Oath.OathState}, Oath.SameApplet s t → s.resApdu = t.resApdu := fun hst => by rw [← hst.ram]
  cases i with
  | select =>
    have halike := (inferInstance : Twins Oath.SameApplet Oath.oathSelect).alike hcleared
    exact ⟨congrArg₂ OathAnswer.selected halike.answer (hresponse halike.states), halike.states⟩
  | apdu apdu =>
    have halike := (inferInstance : Twins Oath.SameApplet (Oath.oathProcessApdu apdu)).alike hcleared
    exact ⟨congrArg₂ OathAnswer.apdu halike.answer (hresponse halike.states), halike.states⟩

private theorem oath_part :
    firmware.Part oathApplication (fun f s => Oath.SameApplet f.oathNow s) Steady Input.oathPart Output.oathPart where
  own {f s i k} hsame _ hpart := by
    obtain rfl : i = .oath k := by
      cases i <;> simp_all [Input.oathPart]
    obtain ⟨hanswer, hstate⟩ := step_oath hsame k
    exact ⟨congrArg some hanswer, hstate⟩
  other hsame hi hpart := by
    obtain ⟨houtput, hoath, hstore⟩ := step_aside hi hpart
    exact ⟨houtput, aside_sameApplet hsame hoath hstore⟩

/-- What the OATH application answers, it would answer if it were alone on the device: on a flash that does not fail, its answers
in a run of the firmware are those to its own messages, however messages of the other applications come between them. -/
theorem oath_alone {f : Globals} {is : List Input} (hreliable : f.store.fates = []) (hsteady : ∀ i ∈ is, Steady i) :
    (firmware.trace f is).filterMap (fun t => t.output.oathPart) =
      (oathApplication.trace f.oathNow (is.filterMap Input.oathPart)).map Move.output :=
  oath_part.outputs ⟨⟨fun _ _ => rfl, hreliable, hreliable⟩, rfl⟩ hsteady

end

/-! ### Runs on the plain SDK -/

section Plain
attribute [local instance] plainSdk plainLibrary plainOtpSdk

private def efPhy : Nat := 0xE020

@[reducible] private def isolationManSdk : Management.ManSdk where
  emulation := false
  appExists _ := false
  phySave keyboard s := (s.set efPhy (some [if keyboard then 2 else 0])).sync

attribute [local instance] isolationManSdk

private theorem isolationManSdk_apart : PhyApart := fun keyboard s a v => by
  have hphy : ¬ a.Owns efPhy := not_owns <| by cases a <;> simp only [Application.Within, efPhy] <;> decide
  exact (Carries.set_outside s (some [if keyboard then 2 else 0]) hphy).trans (.sync _)

/-- A device that keeps these files, when power has come back. -/
private def poweredOn (files : List (Nat × Bytes)) : Globals :=
  ⟨plainOtp files, (plainOtp files).fido.store, true, false, List.replicate Oath.challengeLen 0, [], fun _ => 0⟩

private def credentialApart : Globals := poweredOn [(efOathCred, [0x71, 1, 0x61, 0x73, 2, 0x21, 6])]

private def configuring : Input := .management ⟨0x00, Management.insWriteConfig, 0, 0, [4, 0x03, 0x02, 0x02, 0x20]⟩

/-- Between the selection of the OATH application and its list, slots are selected and a configuration is read. -/
theorem oath_alone_listed :
    (firmware.trace credentialApart [.oath .select, .otp .select, .management ⟨0x00, Management.insReadConfig, 0, 0, []⟩,
        .oath (.apdu ⟨0, Oath.insList, 0, 0, []⟩)]).filterMap (fun t => t.output.oathPart) =
      (oathApplication.trace credentialApart.oathNow [.select, .apdu ⟨0, Oath.insList, 0, 0, []⟩]).map Move.output := by
  refine oath_alone rfl fun i hi => ?_
  simp only [List.mem_cons, List.not_mem_nil, or_false] at hi
  rcases hi with rfl | rfl | rfl | rfl
  · exact ⟨id, rfl, fun _ h => by cases h⟩
  · exact ⟨id, rfl, fun _ h => by cases h⟩
  · exact ⟨show ¬ (Management.insReadConfig = Management.insReset) by decide, rfl, fun _ h => by cases h; decide⟩
  · exact ⟨id, rfl, fun _ h => by cases h⟩

end Plain
end FidoTouch.Firmware
