import FidoTouch.Oath.Session
import FidoTouch.Storage.Carries

/-! Relations of stores that do not see some files: the commands of the applet that only write other files keep them. -/
namespace FidoTouch.Oath
open FidoTouch.Program Handler FidoTouch.Storage

-- The search for `Keeps` follows whole commands.
set_option synthInstance.maxSize 4096

variable {ε α : Type}

/-- A relation of the stores of two states. -/
def InStore (S : Store Nat UInt8 → Store Nat UInt8 → Prop) (s s' : OathState) : Prop := S s.store s'.store

variable {S : Store Nat UInt8 → Store Nat UInt8 → Prop} {P : Nat → Prop} [hS : Sees S P]

include hS in
private theorem same_store {s s' : OathState} (h : s'.store = s.store) : InStore S s s' := by
  rw [InStore, h]
  exact hS.refl _

instance : Std.Refl (InStore S) := ⟨fun _ => same_store rfl⟩
instance : IsTrans OathState (InStore S) := ⟨fun _ _ _ h h' => hS.trans h h'⟩

include hS in
private theorem keeps_inStore (x : Handler OathState ε α) (h : ∀ s, (x s).2.store = s.store) : Keeps (InStore S) x :=
  ⟨fun s => same_store (h s)⟩

omit hS in
instance (x : Handler (Store Nat UInt8) ε α) [hx : Keeps S x] : Keeps (InStore S) (onStore x) := ⟨fun s => hx.rel s.store⟩

instance : Keeps (InStore S) (getFiles : Handler OathState ε Files) := keeps_inStore _ fun _ => rfl
instance (b : Bool) : Keeps (InStore S) (setValidated b : Handler OathState ε Unit) := keeps_inStore _ fun _ => rfl
instance (b : Bytes) : Keeps (InStore S) (respond b : Handler OathState ε Unit) := keeps_inStore _ fun _ => rfl
instance (b : Bytes) : Keeps (InStore S) (setChallenge b : Handler OathState ε Unit) := keeps_inStore _ fun _ => rfl
instance : Keeps (InStore S) (setMigrationDone : Handler OathState ε Unit) := keeps_inStore _ fun _ => rfl
instance : Keeps (InStore S) (clearResponse : Handler OathState ε Unit) := keeps_inStore _ fun _ => rfl
instance (n : Nat) : Keeps (InStore S) (randomBlock n : Handler OathState ε (Block n)) := keeps_inStore _ fun _ => rfl

instance (fid : Nat) (data : Bytes) [Fact (¬ P fid)] : Keeps (InStore S) (putFile fid data) := by
  unfold putFile
  infer_instance

instance (fid : Nat) [Fact (¬ P fid)] : Keeps (InStore S) (fileDelete fid : Handler OathState ε Unit) := by
  unfold fileDelete
  infer_instance

instance : Keeps (InStore S) requireValidated := by
  unfold requireValidated
  infer_instance

section
variable [Sdk]

/-! ### Parts of commands that write -/

instance (plain : Bytes) : Keeps (InStore S) (oathEncryptKey plain) := by
  unfold oathEncryptKey
  infer_instance

instance (fid : Nat) (data : Bytes) [Fact (¬ P fid)] : Keeps (InStore S) (oathPutCredentialData fid data) := by
  unfold oathPutCredentialData
  split <;> infer_instance

instance (fid : Nat) (key : Bytes) [Fact (¬ P fid)] : Keeps (InStore S) (oathPutCodeKey fid key) := by
  unfold oathPutCodeKey
  infer_instance

instance (fid : Nat) [Fact (¬ P fid)] : Keeps (InStore S) (oathMigrateCredential fid) := by
  unfold oathMigrateCredential
  refine .bind inferInstance fun files => ?_
  split
  · infer_instance
  · split <;> infer_instance

instance [Fact (¬ P efOathCode)] : Keeps (InStore S) oathMigrateCode := by
  unfold oathMigrateCode
  refine .bind inferInstance fun files => ?_
  split <;> infer_instance

/-! ### Commands that write no credential -/

instance : Keeps (InStore S) selectChallenge := by
  unfold selectChallenge
  infer_instance

instance : Keeps (InStore S) selectNitrokey := by
  unfold selectNitrokey
  have hpin : ∀ files : Files, Keeps (InStore S) (match fileData files efOtpPin with
      | none => pure ()
      | some pinData => respond [UInt8.ofNat tagPinCounter, 1, byteAt pinData 0] : OathIo Unit) := by
    intro files
    split <;> infer_instance
  infer_instance

/-- A selection writes in its migration only. -/
instance [Keeps (InStore S) oathMigrateSecrets] : Keeps (InStore S) oathSelect := by
  unfold oathSelect selectAnswer
  infer_instance

instance [Fact (¬ P efOathCode)] : Keeps (InStore S) removeCode := by
  unfold removeCode
  infer_instance

instance (apdu : Apdu) [Fact (¬ P efOathCode)] : Keeps (InStore S) (cmdSetCode apdu) := by
  unfold cmdSetCode
  refine .bind inferInstance fun _ => ?_
  split
  · infer_instance
  · refine .bind inferInstance fun key => .bind inferInstance fun _ => ?_
    split <;> infer_instance

instance (ext : Bool) (data : Bytes) : Keeps (InStore S) (listEntry ext data) := by
  unfold listEntry
  split <;> infer_instance

instance (apdu : Apdu) : Keeps (InStore S) (cmdList apdu) := by
  unfold cmdList
  have hentry : ∀ (ext : Bool) (files : Files) fid, Keeps (InStore S) (match fileData files fid with
      | none => pure ()
      | some data => listEntry ext data) := by
    intro ext files fid
    split <;> infer_instance
  infer_instance

instance (apdu : Apdu) : Keeps (InStore S) (cmdValidate apdu) := by
  unfold cmdValidate
  refine .bind inferInstance fun chal => .bind inferInstance fun resp => .bind inferInstance fun files => ?_
  split <;> infer_instance

instance (truncate : UInt8) (key chal : Bytes) : Keeps (InStore S) (calculateOath truncate key chal) := by
  unfold calculateOath
  infer_instance

instance (apdu : Apdu) (chal data : Bytes) : Keeps (InStore S) (calculateAllEntry apdu chal data) := by
  unfold calculateAllEntry
  split
  · refine .bind inferInstance fun _ => ?_
    split <;> infer_instance
  · infer_instance

instance (apdu : Apdu) : Keeps (InStore S) (cmdCalculateAll apdu) := by
  unfold cmdCalculateAll
  have hentry : ∀ (chal : TlvField) (files : Files) fid, Keeps (InStore S) (match fileData files fid with
      | none => pure ()
      | some data => calculateAllEntry apdu chal.data data) := by
    intro chal files fid
    split <;> infer_instance
  infer_instance

instance (apdu : Apdu) : Keeps (InStore S) (cmdVerifyHotp apdu) := by
  unfold cmdVerifyHotp
  refine .bind inferInstance fun _ => .bind inferInstance fun name => .bind inferInstance fun files => .bind inferInstance fun fid => ?_
  refine .bind inferInstance fun data => .bind inferInstance fun _ => .bind inferInstance fun key => .bind inferInstance fun _ => ?_
  dsimp only
  infer_instance

instance (tag : Nat) (data : Bytes) : Keeps (InStore S) (oathResponseAppend tag data) := by
  unfold oathResponseAppend
  infer_instance

instance (apdu : Apdu) : Keeps (InStore S) (cmdGetCredential apdu) := by
  unfold cmdGetCredential
  have hfield : ∀ (data : Bytes) tag, Keeps (InStore S) (match Sdk.tlvFindTag data tag with
      | none => pure ()
      | some field => do
        let appended ← oathResponseAppend tag field.data
        refuseIf (appended = false) .wrongLength) := by
    intro data tag
    split <;> infer_instance
  infer_instance

instance (apdu : Apdu) : Keeps (InStore S) (cmdSendRemaining apdu) := inferInstanceAs (Keeps (InStore S) (pure () : OathOp Unit))

/-! ### The OTP PIN -/

section
variable [hpin : Fact (¬ P efOtpPin)]
include hpin

instance (pin : Bytes) : Keeps (InStore S) (oathCheckPin pin) := by
  unfold oathCheckPin
  refine .bind inferInstance fun files => ?_
  split <;> infer_instance

instance (apdu : Apdu) : Keeps (InStore S) (cmdSetOtpPin apdu) := by
  unfold cmdSetOtpPin
  infer_instance

instance (apdu : Apdu) : Keeps (InStore S) (cmdChangeOtpPin apdu) := by
  unfold cmdChangeOtpPin
  infer_instance

instance (apdu : Apdu) : Keeps (InStore S) (cmdVerifyOtpPin apdu) := by
  unfold cmdVerifyOtpPin
  infer_instance

end

end
end FidoTouch.Oath
