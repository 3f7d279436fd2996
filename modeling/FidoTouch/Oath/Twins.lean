import FidoTouch.Oath.Effects
import FidoTouch.Storage.Agree
import Mathlib.Data.List.Find

/-! What the applet reads: from states that agree on its files, on the configuration and in RAM every command ends alike, whatever
else is on the flash. -/
namespace FidoTouch.Oath
open FidoTouch.Program Handler FidoTouch.Storage

-- The search for `Twins` follows whole commands.
set_option synthInstance.maxSize 4096

variable {ε α β : Type}

/-- The credentials, the access code and the OTP PIN. -/
def AppletFile (fid : Nat) : Prop := CredFile fid ∨ fid = efOathCode ∨ fid = efOtpPin

/-- The applet's files, and the configuration that enables it. -/
def ReadFile (fid : Nat) : Prop := AppletFile fid ∨ fid = efDevConf

theorem CredFile.read {fid : Nat} (h : CredFile fid) : ReadFile fid := .inl (.inl h)

instance : Fact (ReadFile efOathCode) := ⟨.inl (.inr (.inl rfl))⟩

/-- The same in RAM, and on the flash in what the applet reads. -/
structure SameApplet (s t : OathState) : Prop where
  store : Agree ReadFile s.store t.store
  ram : { s with store := t.store } = t

theorem SameApplet.of_ram {s t : OathState} (h : SameApplet s t) {f : OathState → OathState} (hstore : ∀ s, (f s).store = s.store)
    (hf : ∀ s store, f { s with store } = { f s with store }) : SameApplet (f s) (f t) := by
  refine ⟨by rw [hstore, hstore]; exact h.store, ?_⟩
  rw [hstore t, ← hf, h.ram]

/-! ### Single operations -/

instance (x : Handler (Store Nat UInt8) ε α) [hx : Twins (Agree ReadFile) x] : Twins SameApplet (onStore x) where
  alike {s t} h := by
    obtain ⟨hanswer, hstates⟩ := hx.alike h.store
    refine ⟨hanswer, hstates, ?_⟩
    show { s with store := (x t.store).2 } = { t with store := (x t.store).2 }
    rw [← h.ram]

private theorem twins_modify {f : OathState → OathState} (hstore : ∀ s, (f s).store = s.store)
    (hf : ∀ s store, f { s with store } = { f s with store }) : Twins SameApplet (modify f : Handler OathState ε Unit) :=
  ⟨fun h => ⟨rfl, h.of_ram hstore hf⟩⟩

instance (b : Bool) : Twins SameApplet (setValidated b : Handler OathState ε Unit) := twins_modify (fun _ => rfl) fun _ _ => rfl
instance (b : Bytes) : Twins SameApplet (setChallenge b : Handler OathState ε Unit) := twins_modify (fun _ => rfl) fun _ _ => rfl
instance : Twins SameApplet (setMigrationDone : Handler OathState ε Unit) := twins_modify (fun _ => rfl) fun _ _ => rfl
instance (b : Bytes) : Twins SameApplet (respond b : Handler OathState ε Unit) := twins_modify (fun _ => rfl) fun _ _ => rfl
instance : Twins SameApplet (clearResponse : Handler OathState ε Unit) := twins_modify (fun _ => rfl) fun _ _ => rfl

instance (n : Nat) : Twins SameApplet (randomBlock n : Handler OathState ε (Block n)) where
  alike {s t} h := by
    refine ⟨?_, h.of_ram (f := fun s => { s with entropy := s.entropy.rest n }) (fun _ => rfl) fun _ _ => rfl⟩
    rw [← h.ram]
    rfl

instance (fid : Nat) : Twins SameApplet (flashClearFile fid : Handler OathState ε Unit) where
  alike {s t} h := by
    refine ⟨rfl, h.store.set fid none, ?_⟩
    show { s with store := t.store.set fid none } = { t with store := t.store.set fid none }
    rw [← h.ram]

/-- What is read of the state in RAM is the same. -/
private theorem twins_ram {f : OathState → Handler OathState ε β} (hf : ∀ s store, f { s with store } = f s)
    (h : ∀ s, Twins SameApplet (f s)) : Twins SameApplet (get >>= f) := .reads fun {s t} hst => by
  have hsame : f t = f s := by rw [← hst.ram, hf]
  rw [hsame]
  exact (h s).alike hst

/-- What is read of the files that the applet reads is the same. -/
private theorem twins_files {f : Files → Handler OathState ε β}
    (hf : ∀ files files' : Files, (∀ fid, ReadFile fid → files fid = files' fid) → f files = f files')
    (h : ∀ files, Twins SameApplet (f files)) : Twins SameApplet (getFiles >>= f) where
  alike {s t} hst := by
    rw [bind_eq (getFiles_run s), bind_eq (getFiles_run t), hf _ _ hst.store.files]
    exact (h t.store.view).alike hst

instance (fid : Nat) (data : Bytes) : Twins SameApplet (putFile fid data) := by
  unfold putFile
  infer_instance

instance (fid : Nat) : Twins SameApplet (fileDelete fid : Handler OathState ε Unit) := by
  unfold fileDelete
  infer_instance

instance : Twins SameApplet requireValidated := twins_ram (fun _ _ => rfl) fun _ => inferInstance

/-! ### What is read of files -/

section
variable {files files' : Files} (h : ∀ fid, ReadFile fid → files fid = files' fid)
include h

private theorem fileData_same {fid : Nat} (hfid : ReadFile fid) : fileData files fid = fileData files' fid := by
  unfold fileData
  rw [h fid hfid]

private theorem present_same : presentOathCredFids files = presentOathCredFids files' := by
  refine List.filter_congr fun fid hfid => ?_
  obtain ⟨i, hi, rfl⟩ := List.mem_map.1 hfid
  rw [h _ (CredFile.read ⟨i, List.mem_range.1 hi, rfl⟩)]

private theorem secretStored_same : secretStored files = secretStored files' := by
  rw [secretStored, secretStored, h efOathCode (.inl (.inr (.inl rfl))), h efOtpPin (.inl (.inr (.inr rfl)))]

private theorem otpPinUsable_same : otpPinUsable files = otpPinUsable files' := by
  rw [otpPinUsable, otpPinUsable, fileData_same h (.inl (.inr (.inr rfl)))]

private theorem forEach_same {f g : Nat → OathOp Unit} (hfg : ∀ fid, ReadFile fid → f fid = g fid) :
    forEach (presentOathCredFids files) f = forEach (presentOathCredFids files') g := by
  rw [present_same h]
  have hmem : ∀ fids : List Nat, (∀ fid ∈ fids, ReadFile fid) → forEach fids f = forEach fids g := fun fids => by
    induction fids with
    | nil => exact fun _ => rfl
    | cons fid fids ih =>
      intro hread
      rw [forEach, forEach, hfg fid (hread fid (List.mem_cons_self ..)), ih fun k hk => hread k (List.mem_cons_of_mem _ hk)]
  exact hmem _ fun fid hfid => (mem_present.mp hfid).1.read

private theorem firstFree_same :
    ((List.range maxOathCred).find? fun i => files (efOathCred + i) = none) =
      (List.range maxOathCred).find? fun i => files' (efOathCred + i) = none := by
  refine List.find?_congr fun i hi => ?_
  rw [h _ (CredFile.read ⟨i, List.mem_range.1 hi, rfl⟩)]

variable [Sdk]

private theorem capSupported_same (cap : Nat) : capSupported files cap = capSupported files' cap := by
  rw [capSupported, capSupported, fileData_same h (.inr rfl)]

private theorem findOathCred_same (name : Bytes) : findOathCred files name = findOathCred files' name := by
  rw [findOathCred_eq, findOathCred_eq, present_same h]
  refine List.find?_congr fun fid hfid => ?_
  rw [nameAt, nameAt, fileData_same h (mem_present.mp hfid).1.read]

/-- A command that goes on with the credential that a request names. -/
private theorem found_same {name : Bytes} {e : Sw} {f g : Nat → OathOp α} (hfg : ∀ fid, ReadFile fid → f fid = g fid) :
    (orFail (findOathCred files name) e >>= f) = orFail (findOathCred files' name) e >>= g := by
  rw [findOathCred_same h]
  cases hfound : findOathCred files' name with
  | none => rfl
  | some fid =>
    rw [orFail_some_bind, orFail_some_bind]
    exact hfg fid (findOathCred_some hfound).1.read

/-- It goes on with what the credential holds. -/
private theorem found_data_same {name : Bytes} {e e' : Sw} {f : Nat → Bytes → OathOp α} :
    (orFail (findOathCred files name) e >>= fun fid => orFail (fileData files fid) e' >>= f fid) =
      orFail (findOathCred files' name) e >>= fun fid => orFail (fileData files' fid) e' >>= f fid :=
  found_same h fun fid hfid => by rw [fileData_same h hfid]

end

section
variable [Sdk]

/-! ### Parts of commands -/

instance (plain : Bytes) : Twins SameApplet (oathEncryptKey plain) := by
  unfold oathEncryptKey
  infer_instance

instance (fid : Nat) (data : Bytes) : Twins SameApplet (oathPutCredentialData fid data) := by
  unfold oathPutCredentialData
  split
  · infer_instance
  · split <;> infer_instance

instance (fid : Nat) (key : Bytes) : Twins SameApplet (oathPutCodeKey fid key) := by
  unfold oathPutCodeKey
  split <;> infer_instance

private theorem oathMigrateCredential_twins {fid : Nat} (hfid : ReadFile fid) : Twins SameApplet (oathMigrateCredential fid) := by
  refine twins_files (fun files files' h => by rw [fileData_same h hfid]) fun files => ?_
  split
  · infer_instance
  · split
    · infer_instance
    · split <;> infer_instance

instance : Twins SameApplet oathMigrateCode := by
  refine twins_files (fun files files' h => by rw [fileData_same h (.inl (.inr (.inl rfl)))]) fun files => ?_
  split
  · infer_instance
  · split <;> infer_instance

instance : Twins SameApplet oathMigrateSecrets := by
  refine .reads fun {s t} h => ?_
  have hdone : t.migrationDone = s.migrationDone := by rw [← h.ram]
  rw [hdone, present_same h.store.files]
  split
  · exact ⟨rfl, h⟩
  · have hfold : ∀ fids : List Nat, (∀ fid ∈ fids, ReadFile fid) → Twins SameApplet (foldFor fids false fun changed fid => do
        let rewritten ← oathMigrateCredential fid
        return changed || rewritten : OathIo Bool) := fun fids hread => .foldFor fun fid hfid changed => by
      have := oathMigrateCredential_twins (hread fid hfid)
      infer_instance
    have := hfold (presentOathCredFids t.store.view) fun fid hfid => (mem_present.mp hfid).1.read
    exact Twins.alike (x := _ >>= _) h

instance : Twins SameApplet selectChallenge := by
  refine twins_files (fun files files' h => by rw [h efOathCode (.inl (.inr (.inl rfl)))]) fun files => ?_
  infer_instance

instance : Twins SameApplet selectNitrokey := by
  unfold selectNitrokey
  refine .bind inferInstance fun _ => ?_
  refine twins_files (fun files files' h => by rw [fileData_same h (.inl (.inr (.inr rfl)))]) fun files => ?_
  split <;> infer_instance

instance : Twins SameApplet oathSelect := by
  unfold oathSelect selectAnswer
  refine twins_files (fun files files' h => by rw [capSupported_same h, secretStored_same h]) fun files => ?_
  infer_instance

/-! ### The commands -/

instance (apdu : Apdu) : Twins SameApplet (cmdPut apdu) := by
  unfold cmdPut
  refine .bind inferInstance fun _ => .bind inferInstance fun key => .bind inferInstance fun _ => .bind inferInstance fun name => ?_
  refine .bind inferInstance fun _ => twins_files (fun files files' h => by rw [findOathCred_same h, firstFree_same h]) fun files => ?_
  split
  · infer_instance
  · split
    · infer_instance
    · next i hi =>
      have hfree : Fact (ReadFile (efOathCred + i)) := ⟨CredFile.read ⟨i, List.mem_range.1 (List.mem_of_find?_eq_some hi), rfl⟩⟩
      infer_instance

instance (apdu : Apdu) : Twins SameApplet (cmdDelete apdu) := by
  unfold cmdDelete
  refine .bind inferInstance fun _ => .bind inferInstance fun name => ?_
  exact twins_files (fun files files' h => by rw [findOathCred_same h]) fun files => inferInstance

instance : Twins SameApplet removeCode := by
  unfold removeCode
  infer_instance

instance (apdu : Apdu) : Twins SameApplet (cmdSetCode apdu) := by
  unfold cmdSetCode
  refine .bind inferInstance fun _ => ?_
  split
  · infer_instance
  · refine .bind inferInstance fun key => .bind inferInstance fun _ => ?_
    split <;> infer_instance

omit [Sdk] in
private theorem eraseFiles_twins {fids : List Nat} (h : ∀ fid ∈ fids, ReadFile fid) : Twins SameApplet (eraseFiles fids) :=
  .forEach fun fid hfid => twins_files (fun files files' hsame => by rw [hsame fid (h fid hfid)]) fun files => inferInstance

instance (apdu : Apdu) : Twins SameApplet (cmdReset apdu) := by
  unfold cmdReset
  refine .bind inferInstance fun _ => twins_files (fun files files' h => by rw [present_same h]) fun files => ?_
  have : Twins SameApplet (eraseFiles (presentOathCredFids files)) := eraseFiles_twins fun fid hfid => (mem_present.mp hfid).1.read
  infer_instance

instance (ext : Bool) (data : Bytes) : Twins SameApplet (listEntry ext data) := by
  unfold listEntry
  split
  · exact twins_ram (fun _ _ => rfl) fun _ => inferInstance
  · infer_instance

instance (apdu : Apdu) : Twins SameApplet (cmdList apdu) := by
  unfold cmdList
  refine .bind inferInstance fun _ => twins_files (fun files files' h => forEach_same h fun fid hfid => by rw [fileData_same h hfid])
    fun files => .forEach fun fid _ => ?_
  split <;> infer_instance

instance (apdu : Apdu) : Twins SameApplet (cmdValidate apdu) := by
  unfold cmdValidate
  refine .bind inferInstance fun chal => .bind inferInstance fun resp => ?_
  refine twins_files (fun files files' h => by rw [fileData_same h (.inl (.inr (.inl rfl)))]) fun files => ?_
  split
  · infer_instance
  · exact .bind inferInstance fun code => twins_ram (fun _ _ => rfl) fun _ => inferInstance

instance (truncate : UInt8) (key chal : Bytes) : Twins SameApplet (calculateOath truncate key chal) := by
  unfold calculateOath
  refine .bind inferInstance fun _ => .bind inferInstance fun md => .bind inferInstance fun mac => ?_
  refine twins_ram (fun _ _ => rfl) fun s => ?_
  split <;> infer_instance

instance (apdu : Apdu) : Twins SameApplet (cmdCalculate apdu) := by
  unfold cmdCalculate
  refine .bind inferInstance fun _ => .bind inferInstance fun _ => .bind inferInstance fun chal => .bind inferInstance fun name => ?_
  refine twins_files (fun files files' h => found_data_same h) fun files => .bind inferInstance fun fid => .bind inferInstance fun data => ?_
  refine .bind inferInstance fun _ => .bind inferInstance fun key => .bind inferInstance fun _ => twins_ram (fun _ _ => rfl) fun s => ?_
  refine .bind inferInstance fun _ => .bind inferInstance fun _ => .bind inferInstance fun _ => ?_
  split <;> infer_instance

instance (apdu : Apdu) (chal data : Bytes) : Twins SameApplet (calculateAllEntry apdu chal data) := by
  unfold calculateAllEntry
  split
  · refine .bind inferInstance fun _ => ?_
    split
    · infer_instance
    · refine twins_ram (fun _ _ => rfl) fun s => .bind inferInstance fun _ => .bind inferInstance fun _ => ?_
      split
      · infer_instance
      · split <;> infer_instance
  · infer_instance

instance (apdu : Apdu) : Twins SameApplet (cmdCalculateAll apdu) := by
  unfold cmdCalculateAll
  refine .bind inferInstance fun _ => .bind inferInstance fun _ => .bind inferInstance fun chal => .bind inferInstance fun _ => ?_
  refine twins_files (fun files files' h => forEach_same h fun fid hfid => by rw [fileData_same h hfid]) fun files => .forEach fun fid _ => ?_
  split <;> infer_instance

instance (pin : Bytes) : Twins SameApplet (oathCheckPin pin) := by
  unfold oathCheckPin
  refine twins_files (fun files files' h => by rw [fileData_same h (.inl (.inr (.inr rfl)))]) fun files => ?_
  split
  · infer_instance
  · split
    · infer_instance
    · split
      · infer_instance
      · refine .bind inferInstance fun written => ?_
        split
        · infer_instance
        · refine .bind inferInstance fun committed => ?_
          split <;> infer_instance

instance (apdu : Apdu) : Twins SameApplet (cmdSetOtpPin apdu) := by
  unfold cmdSetOtpPin
  refine .bind inferInstance fun _ => ?_
  exact twins_files (fun files files' h => by rw [h efOtpPin (.inl (.inr (.inr rfl)))]) fun files => inferInstance

instance (apdu : Apdu) : Twins SameApplet (cmdChangeOtpPin apdu) := by
  unfold cmdChangeOtpPin
  exact twins_files (fun files files' h => by rw [otpPinUsable_same h]) fun files => inferInstance

instance (apdu : Apdu) : Twins SameApplet (cmdVerifyOtpPin apdu) := by
  unfold cmdVerifyOtpPin
  exact twins_files (fun files files' h => by rw [otpPinUsable_same h]) fun files => inferInstance

instance (apdu : Apdu) : Twins SameApplet (cmdVerifyHotp apdu) := by
  unfold cmdVerifyHotp
  refine .bind inferInstance fun _ => .bind inferInstance fun name => ?_
  refine twins_files (fun files files' h => found_data_same h) fun files => .bind inferInstance fun fid => .bind inferInstance fun data => ?_
  refine .bind inferInstance fun _ => .bind inferInstance fun key => .bind inferInstance fun _ => .bind inferInstance fun imf => ?_
  refine .bind inferInstance fun _ => .bind inferInstance fun code => .bind inferInstance fun _ => .bind inferInstance fun _ => ?_
  exact twins_ram (fun _ _ => rfl) fun s => inferInstance

instance (apdu : Apdu) : Twins SameApplet (cmdRename apdu) := by
  unfold cmdRename
  refine .bind inferInstance fun _ => .bind inferInstance fun _ => .bind inferInstance fun name => .bind inferInstance fun newName => ?_
  refine .bind inferInstance fun _ => twins_files (fun files files' h => found_data_same h) fun files => inferInstance

instance (tag : Nat) (data : Bytes) : Twins SameApplet (oathResponseAppend tag data) := by
  unfold oathResponseAppend
  refine twins_ram (fun _ _ => rfl) fun s => ?_
  split <;> infer_instance

instance (apdu : Apdu) : Twins SameApplet (cmdGetCredential apdu) := by
  unfold cmdGetCredential
  refine .bind inferInstance fun _ => .bind inferInstance fun _ => .bind inferInstance fun _ => .bind inferInstance fun name => ?_
  refine twins_files (fun files files' h => found_data_same h) fun files => .bind inferInstance fun fid => .bind inferInstance fun data => ?_
  refine .forEach fun tag _ => ?_
  split <;> infer_instance

instance (apdu : Apdu) : Twins SameApplet (cmdSendRemaining apdu) := inferInstanceAs (Twins SameApplet (pure () : OathOp Unit))

/-- Every command of the table. -/
private theorem cmd_twins {cmd : UInt8 × (Apdu → OathOp Unit)} (hmem : cmd ∈ cmds) (apdu : Apdu) : Twins SameApplet (cmd.2 apdu) := by
  simp only [cmds, List.mem_cons, List.not_mem_nil, or_false] at hmem
  rcases hmem with rfl | rfl | rfl | rfl | rfl | rfl | rfl | rfl | rfl | rfl | rfl | rfl | rfl | rfl | rfl <;> infer_instance

instance (apdu : Apdu) : Twins SameApplet (oathProcessApdu apdu) := by
  unfold oathProcessApdu
  refine .bind inferInstance fun _ => twins_files (fun files files' h => by rw [capSupported_same h]) fun files => ?_
  split
  · cases hfind : cmds.find? fun cmd => cmd.1 = apdu.ins with
    | none => infer_instance
    | some cmd => exact cmd_twins (List.mem_of_find?_eq_some hfind) apdu
  · infer_instance

end
end FidoTouch.Oath
