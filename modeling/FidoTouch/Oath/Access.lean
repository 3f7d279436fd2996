import FidoTouch.Oath.Applet
import FidoTouch.PlainSdk
import FidoTouch.Program.Runs

/-! Access control of the OATH applet: which commands raise `validated`, and that the guarded
commands do nothing before one of them has. -/
namespace FidoTouch.Oath
open FidoTouch.Program Handler FidoTouch.Storage

section
variable [Sdk] {ε α β : Type}

/-! ### Commands that leave the flag alone -/

def SameFlag (s s' : OathState) : Prop := s'.validated = s.validated

instance : Std.Refl SameFlag := ⟨fun _ => rfl⟩
instance : IsTrans OathState SameFlag := ⟨fun _ _ _ h h' => h'.trans h⟩

omit [Sdk] in
private theorem keeps_of (x : Handler OathState ε α) (h : ∀ s, (x s).2.validated = s.validated) : Keeps SameFlag x :=
  ⟨h⟩

instance (x : Handler (Store Nat UInt8) ε α) : Keeps SameFlag (onStore x) := keeps_of _ fun _ => rfl
instance : Keeps SameFlag (getFiles : Handler OathState ε Files) := keeps_of _ fun _ => rfl
instance (b : Bytes) : Keeps SameFlag (respond b : Handler OathState ε Unit) := keeps_of _ fun _ => rfl
instance (b : Bytes) : Keeps SameFlag (setChallenge b : Handler OathState ε Unit) := keeps_of _ fun _ => rfl
instance : Keeps SameFlag (setMigrationDone : Handler OathState ε Unit) := keeps_of _ fun _ => rfl
instance : Keeps SameFlag (clearResponse : Handler OathState ε Unit) := keeps_of _ fun _ => rfl
instance (n : Nat) : Keeps SameFlag (randomBlock n : Handler OathState ε (Block n)) := keeps_of _ fun _ => rfl
instance (fid : Nat) : Keeps SameFlag (flashClearFile fid : Handler OathState ε Unit) := keeps_of _ fun _ => rfl

instance (fid : Nat) (data : Bytes) : Keeps SameFlag (putFile fid data) := by
  unfold putFile
  infer_instance

instance (plain : Bytes) : Keeps SameFlag (oathEncryptKey plain) := by
  unfold oathEncryptKey
  infer_instance

instance (fid : Nat) (data : Bytes) : Keeps SameFlag (oathPutCredentialData fid data) := by
  unfold oathPutCredentialData
  split <;> infer_instance

instance (fid : Nat) (key : Bytes) : Keeps SameFlag (oathPutCodeKey fid key) := by
  unfold oathPutCodeKey
  infer_instance

instance (fid : Nat) : Keeps SameFlag (oathMigrateCredential fid) := by
  unfold oathMigrateCredential
  refine .bind inferInstance fun files => ?_
  split
  · infer_instance
  · split <;> infer_instance

instance : Keeps SameFlag oathMigrateCode := by
  unfold oathMigrateCode
  refine .bind inferInstance fun files => ?_
  split <;> infer_instance

instance : Keeps SameFlag oathMigrateSecrets := by
  unfold oathMigrateSecrets
  infer_instance

instance : Keeps SameFlag selectChallenge := by
  unfold selectChallenge
  infer_instance

instance : Keeps SameFlag selectNitrokey := by
  unfold selectNitrokey
  refine .bind inferInstance fun _ => .bind inferInstance fun files => ?_
  split <;> infer_instance

instance : Keeps SameFlag selectAnswer := by
  unfold selectAnswer
  infer_instance

instance (pin : Bytes) : Keeps SameFlag (oathCheckPin pin) := by
  unfold oathCheckPin
  refine .bind inferInstance fun files => ?_
  split <;> infer_instance

set_option synthInstance.maxSize 1024 in
instance (apdu : Apdu) : Keeps SameFlag (cmdChangeOtpPin apdu) := by
  unfold cmdChangeOtpPin
  infer_instance

/-! ### The guard -/

/-- An error answer and a state that is exactly the one before. -/
def Refused (r : Except Sw Unit × OathState) (s : OathState) : Prop := (∃ e, r.1 = .error e) ∧ r.2 = s

omit [Sdk] in
private theorem requireValidated_refused {f : Unit → OathOp Unit} {s : OathState} (h : s.validated = false) :
    Refused ((requireValidated >>= f) s) s := by
  have : (requireValidated >>= f) s = (.error .securityStatusNotSatisfied, s) := by
    simp [requireValidated, bind_run, h]
  rw [this]
  exact ⟨⟨_, rfl⟩, rfl⟩

omit [Sdk] in
private theorem refuseIf_refused {c : Prop} [Decidable c] {e : Sw} {f : Unit → OathOp Unit} {s : OathState}
    (h : Refused (f () s) s) : Refused ((refuseIf c e >>= f) s) s := by
  by_cases hc : c
  · rw [refuseIf_true hc]
    exact ⟨⟨e, rfl⟩, rfl⟩
  · rw [refuseIf_false hc]
    exact h

/-- The instructions whose commands start with the guard. -/
def guardedIns : List UInt8 :=
  [insPut, insDelete, insSetCode, insRename, insList, insCalculate, insCalcAll, insSetPin, insVerifyCode,
    insGetCredential]

private theorem guarded_cmd {apdu : Apdu} (hg : apdu.ins ∈ guardedIns) :
    ∃ cmd, cmds.find? (fun cmd => cmd.1 = apdu.ins) = some cmd ∧
      ∀ s : OathState, s.validated = false → Refused (cmd.2 apdu s) s := by
  simp only [guardedIns, List.mem_cons, List.not_mem_nil, or_false] at hg
  rcases hg with h | h | h | h | h | h | h | h | h | h <;> rw [h]
  · exact ⟨(insPut, cmdPut), rfl, fun s hs => requireValidated_refused hs⟩
  · exact ⟨(insDelete, cmdDelete), rfl, fun s hs => requireValidated_refused hs⟩
  · exact ⟨(insSetCode, cmdSetCode), rfl, fun s hs => requireValidated_refused hs⟩
  · exact ⟨(insRename, cmdRename), rfl, fun s hs => requireValidated_refused hs⟩
  · exact ⟨(insList, cmdList), rfl, fun s hs => requireValidated_refused hs⟩
  · exact ⟨(insCalculate, cmdCalculate), rfl, fun s hs => refuseIf_refused (requireValidated_refused hs)⟩
  · exact ⟨(insCalcAll, cmdCalculateAll), rfl, fun s hs => refuseIf_refused (requireValidated_refused hs)⟩
  · exact ⟨(insSetPin, cmdSetOtpPin), rfl, fun s hs => requireValidated_refused hs⟩
  · exact ⟨(insVerifyCode, cmdVerifyHotp), rfl, fun s hs => requireValidated_refused hs⟩
  · exact ⟨(insGetCredential, cmdGetCredential), rfl, fun s hs => requireValidated_refused hs⟩

/-- While the flag is down a guarded command answers an error and changes nothing. -/
theorem guarded_refused {apdu : Apdu} (hg : apdu.ins ∈ guardedIns) {s : OathState} (hs : s.validated = false) :
    Refused (oathProcessApdu apdu s) s := by
  obtain ⟨cmd, hfind, hcmd⟩ := guarded_cmd hg
  refine refuseIf_refused ?_
  simp only [bind_run, getFiles, gets_run, hfind]
  split
  · exact hcmd s hs
  · exact ⟨⟨_, rfl⟩, rfl⟩

/-! ### The commands that raise the flag -/

/-- The response in a VALIDATE is the HMAC of the current challenge under the stored access code. -/
def ValidatePassed (s : OathState) (apdu : Apdu) : Prop :=
  apdu.ins = insValidate ∧ ∃ stored md key resp mac, fileData s.store.view efOathCode = some stored ∧
    accessCode stored = .ok (md, key) ∧ Sdk.tlvFindTag apdu.data tagResponse = some resp ∧
    Sdk.mdHmac md key s.challenge = some mac ∧ resp.data = mac.1

/-- The password in a VERIFY PIN matches the stored OTP PIN record, which had retries left. -/
def VerifyPassed (s : OathState) (apdu : Apdu) : Prop :=
  apdu.ins = insVerifyPin ∧ ∃ record pw, fileData s.store.view efOtpPin = some record ∧ byteAt record 0 ≠ 0 ∧
    Sdk.tlvFindTag apdu.data tagPassword = some pw ∧ otpPinMatches record pw.data = true

/-- Neither a credential nor a secret is left. -/
def Wiped (files : Files) : Prop :=
  (∀ i < maxOathCred, hasData (files (efOathCred + i)) = false) ∧ secretStored files = false

/-- A RESET with its parameters; when every file operation succeeded, it left nothing behind. -/
def ResetDone (s : OathState) (apdu : Apdu) (s' : OathState) : Prop :=
  apdu.ins = insReset ∧ apdu.p1 = 0xde ∧ apdu.p2 = 0xad ∧ (s.store.fates = [] → Wiped s'.store.view)

omit [Sdk] in
/-- If the flag goes up in a sequence whose first command leaves it alone, it goes up in the rest. -/
private theorem bind_raise {x : OathOp α} {f : α → OathOp β} [hx : Keeps SameFlag x] {s : OathState}
    (hs : s.validated = false) (h : ((x >>= f) s).2.validated = true) :
    ∃ a s', x s = (.ok a, s') ∧ s'.validated = false ∧ (f a s').2.validated = true := by
  have hflag := hx.rel s
  rw [bind_run] at h
  rcases hxs : x s with ⟨_ | a, s'⟩ <;> rw [hxs] at h hflag
  · exact absurd (hflag.symm.trans h) (by simp [hs])
  · exact ⟨a, s', rfl, hflag.trans hs, h⟩

private theorem cmdValidate_raise {apdu : Apdu} {s : OathState} (hs : s.validated = false)
    (h : (cmdValidate apdu s).2.validated = true) :
    ((Sdk.tlvFindTag apdu.data tagChallenge).isSome ∧ (Sdk.tlvFindTag apdu.data tagResponse).isSome ∧
      fileData s.store.view efOathCode = none) ∨
    ∃ stored md key resp mac, fileData s.store.view efOathCode = some stored ∧
      accessCode stored = .ok (md, key) ∧ Sdk.tlvFindTag apdu.data tagResponse = some resp ∧
      Sdk.mdHmac md key s.challenge = some mac ∧ resp.data = mac.1 := by
  unfold cmdValidate at h
  obtain ⟨chal, s₁, r₁, hs₁, h₁⟩ := bind_raise hs h
  obtain ⟨hchal, rfl⟩ := orFail_ok r₁
  obtain ⟨resp, s₂, r₂, hs₂, h₂⟩ := bind_raise hs₁ h₁
  obtain ⟨hresp, rfl⟩ := orFail_ok r₂
  obtain ⟨files, s₃, r₃, hs₃, h₃⟩ := bind_raise hs₂ h₂
  cases r₃
  cases hcode : fileData s.store.view efOathCode with
  | none => exact .inl ⟨by simp [hchal], by simp [hresp], rfl⟩
  | some stored =>
    simp only [hcode] at h₃
    obtain ⟨⟨md, key⟩, s₄, r₄, hs₄, h₄⟩ := bind_raise hs₃ h₃
    obtain ⟨hkey, rfl⟩ := Prod.ext_iff.mp r₄
    obtain ⟨_, s₅, r₅, hs₅, h₅⟩ := bind_raise hs₄ h₄
    cases r₅
    obtain ⟨mac, s₆, r₆, hs₆, h₆⟩ := bind_raise hs₅ h₅
    obtain ⟨hmac, rfl⟩ := orFail_ok r₆
    obtain ⟨_, s₇, r₇, hs₇, h₇⟩ := bind_raise hs₆ h₆
    obtain ⟨-, rfl⟩ := refuseIf_ok r₇
    obtain ⟨_, s₈, r₈, hs₈, h₈⟩ := bind_raise hs₇ h₇
    obtain ⟨heq, rfl⟩ := refuseIf_ok r₈
    exact .inr ⟨stored, md, key, resp, mac, rfl, hkey, hresp, hmac, not_not.mp heq⟩

/-- The retry byte takes no part in the comparison. -/
private theorem otpPinMatches_set (record pin : Bytes) (x : UInt8) :
    otpPinMatches (record.set 0 x) pin = otpPinMatches record pin := by
  cases record with
  | nil => rfl
  | cons b bs => simp [otpPinMatches, byteAt]

private theorem oathCheckPin_matched {pin : Bytes} {s s' : OathState}
    (h : oathCheckPin pin s = (.ok .matched, s')) :
    ∃ record, fileData s.store.view efOtpPin = some record ∧ byteAt record 0 ≠ 0 ∧ otpPinMatches record pin = true := by
  unfold oathCheckPin at h
  obtain ⟨files, s₁, h₁, h⟩ := bind_ok h
  cases h₁
  cases hrecord : fileData s.store.view efOtpPin with
  | none => simp [hrecord] at h
  | some record =>
    simp only [hrecord] at h
    split at h
    · simp at h
    split at h
    · simp at h
    rename_i hretries
    obtain ⟨written, s₂, -, h⟩ := bind_ok h
    split at h
    · simp at h
    obtain ⟨committed, s₃, -, h⟩ := bind_ok h
    split at h
    · simp at h
    refine ⟨record, rfl, hretries, ?_⟩
    rw [pure_run, otpPinMatches_set] at h
    by_contra hno
    simp [hno] at h

private theorem cmdVerifyOtpPin_raise {apdu : Apdu} {s : OathState} (hs : s.validated = false)
    (h : (cmdVerifyOtpPin apdu s).2.validated = true) :
    ∃ record pw, fileData s.store.view efOtpPin = some record ∧ byteAt record 0 ≠ 0 ∧
      Sdk.tlvFindTag apdu.data tagPassword = some pw ∧ otpPinMatches record pw.data = true := by
  unfold cmdVerifyOtpPin at h
  obtain ⟨files, s₁, r₁, hs₁, h₁⟩ := bind_raise hs h
  cases r₁
  obtain ⟨_, s₂, r₂, hs₂, h₂⟩ := bind_raise hs₁ h₁
  obtain ⟨-, rfl⟩ := refuseIf_ok r₂
  obtain ⟨pw, s₃, r₃, hs₃, h₃⟩ := bind_raise hs₂ h₂
  obtain ⟨hpw, rfl⟩ := orFail_ok r₃
  obtain ⟨result, s₄, r₄, hs₄, h₄⟩ := bind_raise hs₃ h₃
  by_cases hresult : result = .matched
  · subst hresult
    obtain ⟨record, hr, hretries, hmatch⟩ := oathCheckPin_matched r₄
    exact ⟨record, pw, hr, hretries, hpw, hmatch⟩
  · obtain ⟨_, s₅, r₅, hs₅, h₅⟩ := bind_raise hs₄ h₄
    rw [runIf_true hresult] at h₅
    simp [bind_run, setValidated] at h₅

omit [Sdk] in
private theorem eraseFiles_run {fids : List Nat} {s : OathState} (hs : s.store.fates = []) :
    ∃ s', eraseFiles fids s = (.ok (), s') ∧ s'.store.fates = [] ∧
      (∀ fid ∈ fids, hasData (s'.store.view fid) = false) ∧
      ∀ fid, hasData (s.store.view fid) = false → hasData (s'.store.view fid) = false := by
  induction fids generalizing s with
  | nil => exact ⟨s, rfl, hs, by simp, fun _ h => h⟩
  | cons fid fids ih =>
    by_cases hd : hasData (s.store.view fid) = true
    · obtain ⟨s', hrun, hf, hall, hkeep⟩ := ih (s := { s with store := s.store.set fid none }) hs
      refine ⟨s', ?_, hf, ?_, fun k hk => hkeep k ?_⟩
      · rw [← hrun]
        simp [eraseFiles, forEach, bind_run, map_run, getFiles, hd, onStore, fileDeleteNoCommit, tryOp, hs]
      · intro k hk
        rcases List.mem_cons.mp hk with rfl | hk
        · exact hkeep k (by simp [hasData])
        · exact hall k hk
      · by_cases hkf : k = fid
        · simp [hkf, hasData]
        · simpa [Function.update_of_ne hkf] using hk
    · obtain ⟨s', hrun, hf, hall, hkeep⟩ := ih hs
      refine ⟨s', ?_, hf, ?_, hkeep⟩
      · rw [← hrun]
        simp [eraseFiles, forEach, bind_run, getFiles, hd]
      · intro k hk
        rcases List.mem_cons.mp hk with rfl | hk
        · exact hkeep k (by simpa using hd)
        · exact hall k hk

omit [Sdk] in
/-- With every file operation succeeding RESET leaves no credential, no code and no PIN. -/
theorem cmdReset_wipes {apdu : Apdu} {s : OathState} (hs : s.store.fates = []) (h1 : apdu.p1 = 0xde)
    (h2 : apdu.p2 = 0xad) : Wiped (cmdReset apdu s).2.store.view := by
  obtain ⟨s', hrun, hf, hall, hkeep⟩ := @eraseFiles_run (presentOathCredFids s.store.view) s hs
  have erased : ∀ i < maxOathCred, hasData (s'.store.view (efOathCred + i)) = false := by
    intro i hi
    by_cases hsome : (s.store.view (efOathCred + i)).isSome
    · exact hall _ (List.mem_filter.mpr ⟨List.mem_map.mpr ⟨i, List.mem_range.mpr hi, rfl⟩, hsome⟩)
    · refine hkeep _ ?_
      rw [Option.not_isSome_iff_eq_none.mp hsome]
      rfl
  have hview : (cmdReset apdu s).2.store.view =
      Function.update (Function.update s'.store.view efOathCode none) efOtpPin none := by
    unfold cmdReset
    rw [refuseIf_false (by simp [h1, h2])]
    simp [bind_run, getFiles, hrun, onStore, fileDeleteNoCommit, tryOp, hf, flashClearFile, flashCommit, setValidated]
  rw [hview]
  refine ⟨fun i hi => ?_, by simp [secretStored, hasData, efOathCode, efOtpPin]⟩
  rw [Function.update_of_ne, Function.update_of_ne]
  · exact erased i hi
  · simp only [efOathCred, efOathCode, maxOathCred] at hi ⊢
    omega
  · simp only [efOathCred, efOtpPin, maxOathCred] at hi ⊢
    omega

/-! ### One command -/

/-- The applet as a machine: an APDU in, a status out. -/
def oath : Machine OathState Apdu (Except Sw Unit) := ⟨fun s apdu => oathProcessApdu apdu s⟩

abbrev OathMove := Move OathState Apdu (Except Sw Unit)

/-- The command presented a secret that was accepted, or reset the applet. -/
def Opened (t : OathMove) : Prop :=
  ValidatePassed t.before t.input ∨ VerifyPassed t.before t.input ∨ ResetDone t.before t.input t.after

/-- A complete VALIDATE for which there is no access code to check it against. -/
def ValidateWithoutCode (s : OathState) (apdu : Apdu) : Prop :=
  s.validated = false ∧ apdu.ins = insValidate ∧ (Sdk.tlvFindTag apdu.data tagChallenge).isSome ∧
    (Sdk.tlvFindTag apdu.data tagResponse).isSome ∧ fileData s.store.view efOathCode = none

private theorem oathProcessApdu_raise {apdu : Apdu} {s : OathState} (hs : s.validated = false)
    (h : (oathProcessApdu apdu s).2.validated = true) :
    ∃ cmd, cmd ∈ cmds ∧ cmd.1 = apdu.ins ∧ oathProcessApdu apdu s = cmd.2 apdu s := by
  unfold oathProcessApdu at h ⊢
  by_cases hcla : apdu.cla ≠ 0
  · rw [refuseIf_true hcla] at h
    simp [bind_run, hs] at h
  rw [refuseIf_false hcla] at h ⊢
  simp only [bind_run, pure_run, getFiles, gets_run] at h ⊢
  split at h
  · cases hfind : cmds.find? fun cmd => cmd.1 = apdu.ins with
    | none => simp [hfind, hs] at h
    | some cmd =>
      refine ⟨cmd, List.mem_of_find?_eq_some hfind, by simpa using List.find?_some hfind, ?_⟩
      rw [if_pos ‹_›]
  · simp [hs] at h

/-- The flag goes up only in a command that was given a secret, in a RESET, or in a VALIDATE
that finds no access code. -/
theorem oath_raise {apdu : Apdu} {s : OathState} (hs : s.validated = false)
    (h : (oathProcessApdu apdu s).2.validated = true) :
    Opened (oath.move s apdu) ∨ ValidateWithoutCode s apdu := by
  obtain ⟨cmd, hmem, hins, hrun⟩ := oathProcessApdu_raise hs h
  by_cases hg : apdu.ins ∈ guardedIns
  · have := (guarded_refused hg hs).2
    rw [this, hs] at h
    simp at h
  rw [hrun] at h
  have hafter : (oath.move s apdu).after = (cmd.2 apdu s).2 := congrArg Prod.snd hrun
  rw [← hins] at hg
  simp only [cmds, List.mem_cons, List.not_mem_nil, or_false] at hmem
  rcases hmem with rfl | rfl | rfl | rfl | rfl | rfl | rfl | rfl | rfl | rfl | rfl | rfl | rfl | rfl | rfl <;>
    try (refine absurd ?_ hg; simp only [guardedIns, List.mem_cons, true_or, or_true]; done)
  · -- RESET
    by_cases hp : apdu.p1 ≠ 0xde ∨ apdu.p2 ≠ 0xad
    · simp [cmdReset, hp, bind_run, hs] at h
    · rw [not_or, not_not, not_not] at hp
      refine .inl (.inr (.inr ⟨hins.symm, hp.1, hp.2, fun hf => ?_⟩))
      rw [hafter]
      exact cmdReset_wipes hf hp.1 hp.2
  · -- VALIDATE
    rcases cmdValidate_raise hs h with ⟨h1, h2, h3⟩ | hpassed
    · exact .inr ⟨hs, hins.symm, h1, h2, h3⟩
    · exact .inl (.inl ⟨hins.symm, hpassed⟩)
  · -- SEND REMAINING
    exact absurd (h.symm.trans hs) (by simp)
  · -- CHANGE PIN
    have hflag := (inferInstance : Keeps SameFlag (cmdChangeOtpPin apdu)).rel s
    exact absurd (h.symm.trans (hflag.trans hs)) (by simp)
  · -- VERIFY PIN
    exact .inl (.inr (.inl ⟨hins.symm, cmdVerifyOtpPin_raise hs h⟩))

/-! ### A session -/

/-- SELECT starts a session with the flag down exactly when a secret is stored. -/
theorem oathSelect_validated {s s' : OathState} (h : oathSelect s = (.ok (), s')) :
    s'.validated = !secretStored s.store.view := by
  unfold oathSelect at h
  obtain ⟨files, s₁, r₁, h₁⟩ := bind_ok h
  cases r₁
  obtain ⟨-, h₂⟩ := refuseIf_bind_ok h₁
  obtain ⟨_, s₃, r₃, h₃⟩ := bind_ok h₂
  cases r₃
  have hflag := (inferInstance : Keeps SameFlag selectAnswer).rel
    { s with validated := !secretStored s.store.view }
  rw [h₃] at hflag
  exact hflag

end

/-! ### Runs on the plain SDK -/

section Plain
attribute [local instance] plainSdk

def plainPin : Bytes := [1, 2, 3, 4]

/-- A card with an OTP PIN and no access code. -/
def pinOnly : OathState :=
  ⟨Storage.Store.powerUp (fun fid => if fid = efOtpPin then some (otpPinRecordV1 plainPin) else none) [], true,
    false, List.replicate 8 0, [], fun _ => 0⟩

def pinOnlySession : OathState := (oathSelect pinOnly).2

def listApdu : Apdu := ⟨0, insList, 0, 0, []⟩
def verifyPinApdu : Apdu := ⟨0, insVerifyPin, 0, 0, [0x80, 4] ++ plainPin⟩
def validateApdu : Apdu := ⟨0, insValidate, 0, 0, [0x74, 1, 0, 0x75, 1, 0]⟩

private theorem eq_of_fst {p : Except PicoError Unit × OathState} {a : Except PicoError Unit} (h : p.1 = a) :
    p = (a, p.2) := by
  rw [← h]

theorem pinOnly_select : oathSelect pinOnly = (.ok (), pinOnlySession) := by
  unfold pinOnlySession
  exact eq_of_fst (by decide +kernel)

end Plain
end FidoTouch.Oath
