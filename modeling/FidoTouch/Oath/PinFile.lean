import FidoTouch.Oath.Frame

/-! What leaves the record of the OTP PIN alone: relations of stores that see neither the credentials nor the access code are
kept by every part of the applet that is not about the PIN. -/
namespace FidoTouch.Oath
open FidoTouch.Program Handler FidoTouch.Storage

-- The search for `Keeps` follows whole commands.
set_option synthInstance.maxSize 4096

variable {ε α : Type}

def IsOtpPin (fid : Nat) : Prop := fid = efOtpPin

/-- The files in `P` are not those of credentials. -/
class CredFree (P : Nat → Prop) : Prop where
  cred : ∀ i < maxOathCred, ¬ P (efOathCred + i)

instance : CredFree IsOtpPin := ⟨fun i hi => by simp only [IsOtpPin, efOathCred, efOtpPin, maxOathCred] at hi ⊢; omega⟩

instance : Fact (¬ IsOtpPin efOathCode) := ⟨by simp only [IsOtpPin, efOathCode, efOtpPin]; omega⟩

variable {S : Store Nat UInt8 → Store Nat UInt8 → Prop} {P : Nat → Prop} [hS : Sees S P] [hcred : CredFree P]

/-! ### Files of credentials -/

omit hS in
theorem oathCred_fact {i : Nat} (hi : i < maxOathCred) : Fact (¬ P (efOathCred + i)) := ⟨hcred.cred i hi⟩

omit hS in
theorem present_fact {files : Files} {fid : Nat} (h : fid ∈ presentOathCredFids files) : Fact (¬ P fid) := by
  obtain ⟨i, hi, rfl⟩ := List.mem_map.1 (List.mem_filter.1 h).1
  exact oathCred_fact (List.mem_range.1 hi)

section
variable [Sdk]

omit hS in
theorem found_fact {files : Files} {name : Bytes} {fid : Nat} (h : findOathCred files name = some fid) : Fact (¬ P fid) :=
  present_fact (List.mem_of_find?_eq_some h)

include hS hcred

/-- A command may go on with the file of the credential that a request names. -/
theorem keeps_found {files : Files} {name : Bytes} {e : Sw} {f : Nat → OathOp α}
    (hf : ∀ fid, Fact (¬ P fid) → Keeps (InStore S) (f fid)) :
    Keeps (InStore S) (orFail (findOathCred files name) e >>= f) := by
  cases h : findOathCred files name with
  | none => exact inferInstanceAs (Keeps (InStore S) (fail e))
  | some fid => exact hf fid (found_fact h)

/-! ### The commands -/

private theorem migrate_keeps {files : Files} (fids : List Nat) (h : ∀ fid ∈ fids, fid ∈ presentOathCredFids files)
    (changed : Bool) :
    Keeps (InStore S) (foldFor fids changed fun changed fid => do
      let rewritten ← oathMigrateCredential fid
      return changed || rewritten) := by
  induction fids generalizing changed with
  | nil => exact inferInstanceAs (Keeps (InStore S) (pure changed))
  | cons fid fids ih =>
    have hfid := present_fact (P := P) (h fid (List.mem_cons_self ..))
    have hrest := ih fun k hk => h k (List.mem_cons_of_mem _ hk)
    exact .bind inferInstance hrest

instance [Fact (¬ P efOathCode)] : Keeps (InStore S) oathMigrateSecrets := by
  unfold oathMigrateSecrets
  refine .bind inferInstance fun s => ?_
  have hfold := migrate_keeps (S := S) (presentOathCredFids s.store.view) (fun _ => id) false
  infer_instance

instance (apdu : Apdu) : Keeps (InStore S) (cmdPut apdu) := by
  unfold cmdPut
  refine .bind inferInstance fun _ => .bind inferInstance fun key => .bind inferInstance fun _ => .bind inferInstance fun name => ?_
  refine .bind inferInstance fun _ => .bind inferInstance fun files => ?_
  split
  · next fid hfid =>
    have := found_fact (P := P) hfid
    infer_instance
  · split
    · infer_instance
    · next i hi =>
      have := oathCred_fact (P := P) (List.mem_range.1 (List.mem_of_find?_eq_some hi))
      infer_instance

instance (apdu : Apdu) : Keeps (InStore S) (cmdDelete apdu) := by
  unfold cmdDelete
  refine .bind inferInstance fun _ => .bind inferInstance fun name => .bind inferInstance fun files => ?_
  exact keeps_found fun fid _ => inferInstance

instance (apdu : Apdu) : Keeps (InStore S) (cmdCalculate apdu) := by
  unfold cmdCalculate
  refine .bind inferInstance fun _ => .bind inferInstance fun _ => .bind inferInstance fun chal => .bind inferInstance fun name => ?_
  refine .bind inferInstance fun files => keeps_found fun fid _ => .bind inferInstance fun data => .bind inferInstance fun _ => ?_
  refine .bind inferInstance fun key => .bind inferInstance fun _ => .bind inferInstance fun s => .bind inferInstance fun _ => ?_
  refine .bind inferInstance fun _ => .bind inferInstance fun _ => ?_
  split <;> infer_instance

instance (apdu : Apdu) : Keeps (InStore S) (cmdRename apdu) := by
  unfold cmdRename
  refine .bind inferInstance fun _ => .bind inferInstance fun _ => .bind inferInstance fun name => .bind inferInstance fun newName => ?_
  refine .bind inferInstance fun _ => .bind inferInstance fun files => keeps_found fun fid _ => inferInstance

/-- The commands that touch the record of the OTP PIN. -/
def pinIns : List UInt8 := [insReset, insSetPin, insChangePin, insVerifyPin]

/-- All the others keep what does not see it. -/
theorem cmd_keeps [Fact (¬ P efOathCode)] {cmd : UInt8 × (Apdu → OathOp Unit)} (hmem : cmd ∈ cmds) (hins : cmd.1 ∉ pinIns) (apdu : Apdu) :
    Keeps (InStore S) (cmd.2 apdu) := by
  simp only [cmds, List.mem_cons, List.not_mem_nil, or_false] at hmem
  rcases hmem with rfl | rfl | rfl | rfl | rfl | rfl | rfl | rfl | rfl | rfl | rfl | rfl | rfl | rfl | rfl <;>
    first
      | (refine absurd ?_ hins; simp only [pinIns, List.mem_cons, true_or, or_true]; done)
      | infer_instance

/-! ### Relations that do not see the PIN either -/

section
variable [hpin : Fact (¬ P efOtpPin)]
include hpin

omit hcred [Sdk] hpin in
private theorem eraseFiles_keeps {fids : List Nat} (h : ∀ fid ∈ fids, Fact (¬ P fid)) : Keeps (InStore S) (eraseFiles fids) := by
  unfold eraseFiles
  induction fids with
  | nil => exact inferInstanceAs (Keeps (InStore S) (pure ()))
  | cons fid fids ih =>
    have hfid := h fid (List.mem_cons_self ..)
    have hrest := ih fun k hk => h k (List.mem_cons_of_mem _ hk)
    exact .bind inferInstance fun _ => hrest

omit [Sdk] in
private theorem cmdReset_keeps_store [Fact (¬ P efOathCode)] (apdu : Apdu) : Keeps (InStore S) (cmdReset apdu) := by
  have hclear : Keeps (InStore S) (flashClearFile efOtpPin : OathOp Unit) := ⟨fun s => hS.set s.store none hpin.out⟩
  unfold cmdReset
  refine .bind inferInstance fun _ => .bind inferInstance fun files => ?_
  have : Keeps (InStore S) (eraseFiles (presentOathCredFids files)) := eraseFiles_keeps fun fid hfid => present_fact hfid
  infer_instance

/-- An APDU leaves all files alone but those of the applet. -/
theorem oathProcessApdu_keeps [hcode : Fact (¬ P efOathCode)] (apdu : Apdu) : Keeps (InStore S) (oathProcessApdu apdu) := by
  refine ⟨fun s => ?_⟩
  obtain ⟨-, -, cmd, hmem, -, hrun⟩ | ⟨e, hrun⟩ := oathProcessApdu_cmd apdu s <;> rw [hrun]
  · by_cases hins : cmd.1 ∈ pinIns
    · simp only [cmds, List.mem_cons, List.not_mem_nil, or_false] at hmem
      have := cmdReset_keeps_store (S := S) apdu
      rcases hmem with rfl | rfl | rfl | rfl | rfl | rfl | rfl | rfl | rfl | rfl | rfl | rfl | rfl | rfl | rfl <;>
        exact (inferInstance : Keeps (InStore S) _).rel s
    · exact (cmd_keeps hmem hins apdu).rel s
  · exact Std.Refl.refl s

end

end
end FidoTouch.Oath
