import FidoTouch.Ctap.MinPin
import FidoTouch.Ctap.SoftLock

/-! A new PIN: setPIN and changePIN accept the same blocks and store the same record, and later comparisons accept the hash of
that PIN and no other. -/
namespace FidoTouch.Ctap
open FidoTouch.Program Handler FidoTouch.Storage FidoTouch.Resident Settles

-- The search for `Keeps` follows whole commands.
set_option synthInstance.maxSize 4096

section
variable [Sdk] {ε α : Type}

/-! ### Records with the verifier of a hash -/

/-- EF_PIN holds a record in the current format, with the verifier of a hash. -/
def VerifierOf (hash : Bytes) (files : Files) : Prop :=
  ∃ record, files efPin = some record ∧ record.length = pinDataLen ∧ record.drop 3 = (Sdk.pinDeriveVerifier hash).1

instance (hash : Bytes) : ReadsOnly (VerifierOf hash) IsPinFile where
  congr h := by
    rw [VerifierOf, VerifierOf, h efPin (.inl rfl)]
    exact id

section
variable {hash : Bytes} {files : Files}

private theorem VerifierOf.record (h : VerifierOf hash files) :
    ∃ record, pinRecord files = some record ∧ record.length = pinDataLen ∧ record.drop 3 = (Sdk.pinDeriveVerifier hash).1 := by
  obtain ⟨record, hfile, hlength, hdrop⟩ := h
  refine ⟨record, fileData_some.mpr ⟨hfile, fun hnil => ?_⟩, hlength, hdrop⟩
  rw [hnil] at hlength
  cases hlength

private theorem verifierOf_set {record : Bytes} (b : UInt8) (hlength : record.length = pinDataLen)
    (hdrop : record.drop 3 = (Sdk.pinDeriveVerifier hash).1) :
    VerifierOf hash (Function.update files efPin (some (record.set 0 b))) := by
  refine ⟨_, Function.update_self _ _ _, by rw [List.length_set, hlength], ?_⟩
  rw [← hdrop]
  cases record <;> rfl

private theorem verifierOf_new (retries codepoints : UInt8) :
    VerifierOf hash (Function.update files efPin (some (newPinRecord retries codepoints hash))) :=
  ⟨_, Function.update_self _ _ _, by simp [newPinRecord, pinDataLen, (Sdk.pinDeriveVerifier hash).2], rfl⟩

end

instance (hash : Bytes) : Spends (Carries (VerifierOf hash)) where
  spend s stored hrecord _ := .set efPin _ fun hs => by
    obtain ⟨record, hrecord', hlength, hdrop⟩ := hs.record
    obtain rfl : stored = record := Option.some.inj (hrecord.symm.trans hrecord')
    exact verifierOf_set _ hlength hdrop

/-- Outside of authenticatorClientPIN no command writes the record. -/
instance (hash : Bytes) : Spares (InStore (Carries (VerifierOf hash))) IsPinRecord where
  refl d := .refl d.store
  trans h h' := h.trans h'
  sync d := .sync d.store
  fates d := ⟨[], rfl, .inl rfl, fun h => ⟨h, by simp⟩⟩
  set d fid v hfid := .set fid v fun ⟨record, hfile, hrest⟩ =>
    ⟨record, by rwa [Function.update_of_ne (fun h : efPin = fid => hfid h.symm)], hrest⟩
  entropy d _ := .refl d.store

instance (hash : Bytes) : AdmitsGlobals (InStore (Carries (VerifierOf hash))) where
  rel {d d'} h := by
    have hstore : d'.store = d.store := (congrArg Device.store h :)
    rw [InStore, hstore]
    exact .refl d.store

instance (hash : Bytes) (k : Change) : AdmitsToken (InStore (Carries (VerifierOf hash))) k := ⟨fun d _ _ => .refl d.store⟩
instance (hash : Bytes) : AdmitsUpload (InStore (Carries (VerifierOf hash))) := ⟨fun d _ => .refl d.store⟩
instance (hash : Bytes) : AdmitsAssertions (InStore (Carries (VerifierOf hash))) := ⟨fun d _ => .refl d.store⟩
instance (hash : Bytes) : AdmitsKeydev (InStore (Carries (VerifierOf hash))) := ⟨fun d _ _ => .refl d.store⟩

/-! ### Blocks -/

/-- The PIN in a block: the bytes before its first NUL. -/
def pinIn (block : Bytes) : Bytes := block.takeWhile (· ≠ 0)

/-- What both commands take for a new PIN. -/
structure AcceptableBlock (files : Files) (block : Bytes) : Prop where
  length : block.length = 64
  padded : byteAt block 63 = 0
  least : minPinLen files ≤ pinCodepointLen (pinIn block)
  policy : pinPolicyPass files (pinIn block) = true

section
variable {p : ClientPinParams} {sharedSecret block pin : Bytes} {files files' : Files}

private theorem aes_length {key : Block 32} {iv : Option Bytes} {input : Bytes} (h : decrypt.aes key iv input = some block) :
    block.length = input.length := by
  unfold decrypt.aes at h
  split at h
  · next out _ =>
    cases h
    exact out.2
  · cases h

/-- The block is as long as the request's ciphertext says. -/
private theorem newPin_length (hprotocol : p.pinUvAuthProtocol = 1 ∨ p.pinUvAuthProtocol = 2)
    (hblock : decrypt p.protocol sharedSecret p.newPin = some block) : block.length = p.newPinPlainLen := by
  unfold ClientPinParams.protocol decrypt at hblock
  unfold ClientPinParams.newPinPlainLen
  rcases hprotocol with h | h <;> rw [h] at hblock ⊢
  · exact aes_length hblock
  · rw [if_neg (by decide)] at hblock ⊢
    split at hblock
    · rw [aes_length hblock, List.length_drop]
    · cases hblock

private theorem acceptedPin_eq (files : Files) (n : Nat) (block : Bytes) : acceptedPin files n block =
    if n > 64 ∨ byteAt block 63 ≠ 0 then .error .pinPolicyViolation
    else if pinCodepointLen (pinIn block) < minPinLen files then .error .pinPolicyViolation
    else if pinPolicyPass files (pinIn block) = false then .error .pinPolicyViolation
    else .ok (pinIn block) := rfl

/-- A block is taken if it is acceptable, and the PIN is the one in it. -/
theorem newPinOf_iff (hprotocol : p.pinUvAuthProtocol = 1 ∨ p.pinUvAuthProtocol = 2) (hfits : p.newPinEncFits = true)
    (hblock : decrypt p.protocol sharedSecret p.newPin = some block) :
    newPinOf files p sharedSecret = .ok pin ↔ AcceptableBlock files block ∧ pin = pinIn block := by
  have hlength := newPin_length hprotocol hblock
  have hleast : 64 ≤ block.length := by
    rw [hlength]
    unfold ClientPinParams.newPinEncFits at hfits
    unfold ClientPinParams.newPinPlainLen
    split at hfits
    · next h =>
      rw [if_pos h]
      exact (of_decide_eq_true hfits).1
    · next h =>
      have hlong := (of_decide_eq_true hfits).1
      rw [if_neg h]
      omega
  unfold newPinOf
  rw [← hlength, hblock]
  dsimp only
  rw [acceptedPin_eq]
  constructor
  · intro h
    split at h
    · cases h
    · split at h
      · cases h
      · next hends =>
        obtain ⟨hshort, hpadded⟩ := not_or.mp hends
        split at h
        · cases h
        · next hlong =>
          split at h
          · cases h
          · next hpolicy =>
            exact ⟨⟨by omega, not_not.mp hpadded, Nat.not_lt.mp hlong, by simpa using hpolicy⟩, (Except.ok.inj h).symm⟩
  · rintro ⟨h, rfl⟩
    rw [h.length, if_neg (by decide), if_neg (by simp [h.padded]), if_neg (Nat.not_lt.mpr h.least), if_neg (by simp [h.policy])]

end

/-! ### Storing -/

/-- The record of a PIN is what the device works with, and durable. -/
structure StoresPin (pin : Bytes) (d : Device) : Prop where
  view : RecordFile (changedRecord pin) d.store.view
  durable : RecordFile (changedRecord pin) d.store.durable

/-- Another record than that of the PIN, or none. -/
private def LacksRecord (record : Bytes) (files : Files) : Prop := ¬ RecordFile record files

omit [Sdk] in
private instance (record : Bytes) : ReadsOnly (LacksRecord record) IsPinFile where
  congr h hlacks hfile := hlacks ((h efPin (.inl rfl)).symm.trans hfile)

omit [Sdk] in
/-- What a commit finds in the files is durable as well, and both stay so where the rest carries it. -/
private theorem commit_holds {I : Files → Prop} [ReadsOnly I IsPinFile] {f : Unit → CtapOp α} {d : Device}
    (hf : Keeps (InStore (Carries I)) (f ())) (hd : I d.store.view) :
    I ((commit >>= f) d).2.store.view ∧ I ((commit >>= f) d).2.store.durable :=
  have hkept := hf.rel { d with store := d.store.sync }
  ⟨hkept.view hd, hkept.durable hd hd⟩

/-- Once its record is written or not, the rest of a command leaves the PIN stored or not. -/
private theorem commit_stores {f : Unit → CtapOp α} {d : Device} {pin : Bytes}
    (hf : ∀ (I : Files → Prop) [ReadsOnly I IsPinFile], Keeps (InStore (Carries I)) (f ())) :
    StoresPin pin ((commit >>= f) d).2 ↔ RecordFile (changedRecord pin) d.store.view := by
  constructor
  · intro h
    by_contra hlacks
    exact (commit_holds (I := LacksRecord (changedRecord pin)) (hf _) hlacks).1 h.view
  · intro h
    obtain ⟨hview, hdurable⟩ := commit_holds (hf (RecordFile (changedRecord pin))) h
    exact ⟨hview, hdurable⟩

/-! ### A first PIN -/

instance (pinToken : Block 32) : NeverFails (checkKeydevEncrypted pinToken : Handler Device ε Unit) := by
  unfold checkKeydevEncrypted
  refine .bind inferInstance fun files => ?_
  split <;> infer_instance

/-- What is left of setPIN once the record is written. -/
def finishSetPin (pin : Bytes) : CtapOp Unit := do
  commit
  setSessionPin (Sdk.pinDeriveSession (hashOfPin pin))
  checkKeydevEncrypted (Sdk.pinDeriveSession (hashOfPin pin))
  modify fun d => { d with newPinMismatches := 0, needsPowerCycle := false }

private theorem setPin_eq (p : ClientPinParams) : setPin p = (do
    let d ← get
    let sharedSecret ← ofExcept (setPinChecks d p)
    let pin ← ofExcept (newPinOf d.files p sharedSecret)
    putFile efPin (changedRecord pin)
    finishSetPin pin) := rfl

section
variable {p : ClientPinParams} {sharedSecret pin : Bytes} {s : Device}

private theorem finishSetPin_run (pin : Bytes) (s : Device) :
    ∃ t, finishSetPin pin s = (.ok (), t) ∧ (StoresPin pin t ↔ RecordFile (changedRecord pin) s.store.view) := by
  have hfinish : NeverFails (finishSetPin pin) := by
    unfold finishSetPin setSessionPin
    infer_instance
  obtain ⟨u, t, ht⟩ := hfinish.ok s
  have hstores : StoresPin pin (finishSetPin pin s).2 ↔ RecordFile (changedRecord pin) s.store.view := by
    unfold finishSetPin
    exact commit_stores fun _ _ => inferInstance
  rw [ht] at hstores
  exact ⟨t, ht, hstores⟩

/-- A first PIN that is taken is stored if and only if its record is written. -/
private theorem setPin_taken (hchecked : setPinChecks s p = .ok sharedSecret) (hpin : newPinOf s.files p sharedSecret = .ok pin) :
    ∃ t, setPin p s = (.ok (), t) ∧ (StoresPin pin t ↔ s.store.fates.head? ≠ some false) := by
  have hrun : setPin p s = (putFile efPin (changedRecord pin) >>= fun _ => finishSetPin pin : CtapOp Unit) s := by
    rw [setPin_eq, bind_eq (get_run s), hchecked, ofExcept_ok_bind, hpin, ofExcept_ok_bind]
  by_cases hfate : s.store.fates.head? = some false
  · obtain ⟨t, ht, hstores⟩ := finishSetPin_run pin { s with store := { s.store with fates := s.store.fates.tail } }
    refine ⟨t, hrun.trans ((bind_eq (putFile_failed hfate _ _)).trans ht), hstores.trans (iff_of_false (fun hfile => ?_) (not_not.mpr hfate))⟩
    have hunset := setPinChecks_ok hchecked
    rw [pinRecord, fileData, show s.store.view efPin = some (changedRecord pin) from hfile] at hunset
    cases hunset
  · obtain ⟨t, ht, hstores⟩ := finishSetPin_run pin
      { s with store := ({ s.store with fates := s.store.fates.tail }).set efPin (some (changedRecord pin)) }
    have hwritten : RecordFile (changedRecord pin) (({ s.store with fates := s.store.fates.tail }).set efPin (some (changedRecord pin))).view := by
      rw [RecordFile, Store.set_view, Function.update_self]
    exact ⟨t, hrun.trans ((bind_eq (putFile_written hfate _ _)).trans ht), hstores.trans (iff_of_true hwritten hfate)⟩

end

/-! ### What the limits are read from -/

/-- The least length of a PIN, and its complexity policy. -/
private def IsPinLimit (fid : Nat) : Prop := fid = efMinpinlen ∨ fid = efPinComplexityPolicy

private instance : Fact (¬ IsPinLimit efPin) := ⟨by unfold IsPinLimit; decide⟩
private instance : Fact (¬ IsPinLimit efKeyDev) := ⟨by unfold IsPinLimit; decide⟩
private instance : Fact (¬ IsPinLimit efAuthtoken) := ⟨by unfold IsPinLimit; decide⟩

/-- The limits are left as they are. -/
private abbrev SameLimits : Device → Device → Prop := InStore (SameOn IsPinLimit)

omit [Sdk] in
private theorem SameLimits.files {d d' : Device} (h : SameLimits d d') {fid : Nat} (hfid : IsPinLimit fid) :
    d'.store.view fid = d.store.view fid := h fid hfid

private theorem AcceptableBlock.congr {d d' : Device} (h : SameLimits d d') {block : Bytes} :
    AcceptableBlock d'.files block ↔ AcceptableBlock d.files block := by
  have hleast : minPinLen d'.files = minPinLen d.files := by
    simp only [minPinLen, fileData, Device.files_eq, h.files (.inl rfl)]
  have hpolicy : ∀ pin, pinPolicyPass d'.files pin = pinPolicyPass d.files pin := fun pin => by
    simp only [pinPolicyPass, fileData, Device.files_eq, h.files (.inr rfl)]
  exact ⟨fun ha => ⟨ha.length, ha.padded, hleast ▸ ha.least, hpolicy _ ▸ ha.policy⟩,
    fun ha => ⟨ha.length, ha.padded, hleast ▸ ha.least, hpolicy _ ▸ ha.policy⟩⟩

omit [Sdk] in
private instance : Spares SameLimits IsPinLimit where
  refl _ _ _ := rfl
  trans h h' fid hfid := (h' fid hfid).trans (h fid hfid)
  sync _ _ _ := rfl
  fates _ _ _ := rfl
  set _ fid _ hfid k hk := Function.update_of_ne (fun heq : k = fid => hfid (heq ▸ hk)) _ _
  entropy _ _ _ _ := rfl

private instance : Keeps SameLimits (initializeKeyAgreement : Handler Device ε Unit) := by
  have hregenerate : Keeps SameLimits (regenerate : Handler Device ε Unit) := by
    unfold regenerate
    refine .bind inferInstance fun key => ?_
    split <;> infer_instance
  unfold initializeKeyAgreement resetPinUvAuthToken resetAuthToken sessionInvalidate
  infer_instance

private instance : Keeps SameLimits beginClientPin := by
  have htick : Keeps SameLimits (pinUvAuthTokenTick : CtapOp Unit) :=
    ⟨fun d fid _ => by rw [pinUvAuthTokenTick_run, ticked_store]⟩
  unfold beginClientPin resetGnaState
  infer_instance

private instance (p : ClientPinParams) : Keeps SameLimits (comparing p) := by
  unfold comparing presentPin persistPinRetryCounter
  infer_instance

private instance (record hash : Bytes) (keydev : Block 32) : Keeps SameLimits (upgradePin record hash keydev) := by
  unfold upgradePin setSessionPin
  infer_instance

private instance (record hash : Bytes) : Keeps SameLimits (confirmPin record hash : CtapOp Unit) := by
  unfold confirmPin setSessionPin
  infer_instance

/-! ### Another PIN -/

section
variable {p : ClientPinParams} {c : Presented} {d s : Device} {block pin : Bytes}

/-- The loads of the master key that changePIN makes on the way to the new record succeed. -/
def KeydevLoads (c : Presented) (d : Device) : Prop :=
  ∃ upgraded s t keydev, upgradePin c.record c.hash (.zero 32) d = (.ok upgraded, s) ∧
    (confirmPin upgraded.1 c.hash : CtapOp Unit) s = (.ok (), t) ∧ (loadKeydev upgraded.2 t).1 = .ok keydev

private theorem rekey_ok_iff (hash : Bytes) (keydev : Block 32) (d : Device) :
    (∃ t, rekey hash keydev d = (.ok (), t)) ↔ ∃ loaded, (loadKeydev keydev d).1 = .ok loaded := by
  have hencrypt : ∀ key, NeverFails (encryptKeydevF1 key : CtapOp Unit) := fun key => by
    unfold encryptKeydevF1
    split <;> infer_instance
  constructor
  · rintro ⟨t, h⟩
    obtain ⟨loaded, u, hload, -⟩ := bind_ok h
    exact ⟨loaded, congrArg Prod.fst (mapError_ok hload)⟩
  · rintro ⟨loaded, hload⟩
    have hmapped : mapError (fun _ => CtapError.pinInvalid) (loadKeydev keydev) d = (.ok loaded, (loadKeydev keydev d).2) := by
      unfold mapError
      rw [run_of_ok hload]
    have hrest : NeverFails (encryptKeydevF1 loaded >>= fun _ => setSessionPin (Sdk.pinDeriveSession hash) >>= fun _ =>
        checkKeydevEncrypted (Sdk.pinDeriveSession hash) >>= fun _ => commit : CtapOp Unit) := by
      unfold setSessionPin
      infer_instance
    obtain ⟨u, t, ht⟩ := hrest.ok (loadKeydev keydev d).2
    exact ⟨t, (bind_eq hmapped).trans ht⟩

/-- changePIN comes to the new record if and only if the block is acceptable and the master key can be loaded. -/
private theorem storing_iff (hprotocol : p.pinUvAuthProtocol = 1 ∨ p.pinUvAuthProtocol = 2) (hfits : p.newPinEncFits = true)
    (hblock : decrypt p.protocol c.sharedSecret p.newPin = some block) :
    (∃ s, storing p c d = (.ok pin, s)) ↔ AcceptableBlock d.files block ∧ KeydevLoads c d ∧ pin = pinIn block := by
  have hsame : ∀ {upgraded s t}, upgradePin c.record c.hash (.zero 32) d = (.ok upgraded, s) →
      (confirmPin upgraded.1 c.hash : CtapOp Unit) s = (.ok (), t) →
      (newPinOf t.files p c.sharedSecret = .ok pin ↔ AcceptableBlock d.files block ∧ pin = pinIn block) := fun hupgrade hconfirm => by
    have hlimits : SameLimits d _ := IsTrans.trans _ _ _
      ((inferInstance : Keeps SameLimits (upgradePin c.record c.hash (.zero 32))).of_run hupgrade)
      ((inferInstance : Keeps SameLimits (confirmPin _ c.hash : CtapOp Unit)).of_run hconfirm)
    rw [newPinOf_iff hprotocol hfits hblock, AcceptableBlock.congr hlimits]
  constructor
  · rintro ⟨s, h⟩
    obtain ⟨upgraded, t, hupgrade, h⟩ := bind_ok h
    obtain ⟨_, t', hconfirm, h⟩ := bind_ok h
    obtain ⟨files, _, hfiles, h⟩ := bind_ok h
    cases hfiles
    obtain ⟨pin', _, hpin, h⟩ := bind_ok h
    obtain ⟨haccept, rfl⟩ := ofExcept_ok hpin
    obtain ⟨_, s', hrekey, h⟩ := bind_ok h
    obtain ⟨rfl, -⟩ := pure_ok h
    obtain ⟨hacceptable, rfl⟩ := (hsame hupgrade hconfirm).mp haccept
    obtain ⟨keydev, hload⟩ := (rekey_ok_iff _ _ _).mp ⟨s', hrekey⟩
    exact ⟨hacceptable, ⟨upgraded, t, t', keydev, hupgrade, hconfirm, hload⟩, rfl⟩
  · rintro ⟨hacceptable, ⟨⟨record, loaded⟩, t, t', keydev, hupgrade, hconfirm, hload⟩, hpin⟩
    have haccept := (hsame hupgrade hconfirm).mpr ⟨hacceptable, hpin⟩
    obtain ⟨s, hrekey⟩ := (rekey_ok_iff (hashOfPin pin) loaded t').mpr ⟨keydev, hload⟩
    refine ⟨s, ?_⟩
    unfold storing
    rw [bind_eq hupgrade]
    dsimp only at hconfirm ⊢
    rw [bind_eq hconfirm, bind_eq (getFiles_run t'), haccept, ofExcept_ok_bind, bind_eq hrekey]
    rfl

/-- A legacy record whose upgrade is not written is still there when the new one is stored. -/
private theorem storing_legacy (hrecord : pinRecord d.store.view = some c.record) (hfails : UpgradeFails c d)
    (h : storing p c d = (.ok pin, s)) : RecordFile c.record s.store.view := by
  obtain ⟨upgraded, t, hupgrade, -, hfate⟩ := hfails
  obtain ⟨upgraded', t', hupgrade', h⟩ := bind_ok h
  cases hupgrade'.symm.trans hupgrade
  have hfile : RecordFile c.record t.store.view :=
    ((inferInstance : Keeps (InStore (Carries (RecordFile c.record))) (upgradePin c.record c.hash (.zero 32))).of_run hupgrade).view
      (pinRecord_file hrecord)
  obtain ⟨_, t', hconfirm, h⟩ := bind_ok h
  obtain ⟨_, _, hsession, hconfirm⟩ := bind_ok hconfirm
  cases hsession
  obtain ⟨_, _, hput, hconfirm⟩ := bind_ok hconfirm
  cases (putFile_failed (d := { t with sessionPin := Sdk.pinDeriveSession c.hash }) hfate _ _).symm.trans hput
  have hrest : Keeps (InStore (Carries (RecordFile c.record))) ((commit >>= fun _ =>
      checkKeydevEncrypted (Sdk.pinDeriveSession c.hash) >>= fun _ => modify fun d => { d with newPinMismatches := 0 }) : CtapOp Unit) :=
    inferInstance
  have hconfirmed : RecordFile c.record t'.store.view := (hrest.of_run hconfirm).view hfile
  obtain ⟨files, _, hfiles, h⟩ := bind_ok h
  cases hfiles
  obtain ⟨pin', _, hpin, h⟩ := bind_ok h
  obtain ⟨-, rfl⟩ := ofExcept_ok hpin
  obtain ⟨_, s', hrekey, h⟩ := bind_ok h
  obtain ⟨-, rfl⟩ := pure_ok h
  exact ((inferInstance : Keeps (InStore (Carries (RecordFile c.record))) (rekey (hashOfPin pin') upgraded.2)).of_run hrekey).view hconfirmed

end

/-! ### Until the PIN is changed again -/

section
variable [ObjectLibrary] {p : ClientPinParams} {d d' : Device} {i : Input} {hash pin record : Bytes} {c : Comparison}

/-- A changePIN or a reset that succeeds. -/
def EndsPin (d : Device) (i : Input) : Prop :=
  (∃ p, i = .cbor (.clientPin (.params p)) ∧ p.subcommand = 0x4 ∧ (authenticate i d).1 = .ok (some (.clientPin .done))) ∨
    i = .cbor .reset ∧ (authenticate i d).1 = .ok (some .done)

omit [ObjectLibrary] in
/-- Where the record is there no first PIN is set. -/
private theorem setPin_verifier (p : ClientPinParams) : Keeps (InStore (Carries (VerifierOf hash))) (setPin p) where
  rel d := by
    rw [setPin_eq, bind_eq (get_run d)]
    refine rel_bind (Keeps.rel d) fun sharedSecret s hchecked => ?_
    obtain ⟨hpassed, rfl⟩ := ofExcept_ok hchecked
    refine rel_bind (Keeps.rel d) fun pin s hpin => ?_
    obtain ⟨-, rfl⟩ := ofExcept_ok hpin
    have hput : InStore (Carries (VerifierOf hash)) d ((putFile efPin (changedRecord pin) : CtapOp Unit) d).2 :=
      Settles.putFile_rel fun fates => .set efPin _ fun hs => by
        obtain ⟨record, hrecord, -⟩ := VerifierOf.record hs
        cases (setPinChecks_ok hpassed).symm.trans hrecord
    refine rel_bind hput fun _ s _ => ?_
    unfold finishSetPin
    exact Keeps.rel s

omit [ObjectLibrary] in
private theorem confirmPin_verifier (hlength : record.length = pinDataLen) (hdrop : record.drop 3 = (Sdk.pinDeriveVerifier hash).1)
    (presented : Bytes) : Keeps (InStore (Carries (VerifierOf hash))) (confirmPin record presented : CtapOp Unit) := by
  have hput : Keeps (InStore (Carries (VerifierOf hash))) (putFile efPin (record.set 0 maxPinRetries) : CtapOp Unit) :=
    ⟨fun _ => Settles.putFile_rel fun _ => .set efPin _ fun _ => verifierOf_set _ hlength hdrop⟩
  unfold confirmPin
  infer_instance

omit [ObjectLibrary] in
private theorem confirmPinForToken_verifier (hlength : record.length = pinDataLen)
    (hdrop : record.drop 3 = (Sdk.pinDeriveVerifier hash).1) (presented : Bytes) :
    Keeps (InStore (Carries (VerifierOf hash))) (confirmPinForToken record presented : CtapOp Unit) := by
  have hput : Keeps (InStore (Carries (VerifierOf hash))) (putFile efPin (record.set 0 maxPinRetries) : CtapOp Unit) :=
    ⟨fun _ => Settles.putFile_rel fun _ => .set efPin _ fun _ => verifierOf_set _ hlength hdrop⟩
  unfold confirmPinForToken
  infer_instance

omit [Sdk] [ObjectLibrary] in
private theorem current (hlength : record.length = pinDataLen) : isLegacy record = false := by
  unfold isLegacy
  rw [hlength]
  decide

omit [ObjectLibrary] in
private theorem upgradePin_skips (hlength : record.length = pinDataLen) (presented : Bytes) (keydev : Block 32) :
    upgradePin record presented keydev = pure (record, keydev) := by
  rw [upgradePin, if_neg (by simp [current hlength])]

omit [ObjectLibrary] in
private theorem comparing_hash {c : Presented} {s : Device} (h : comparing p d = (.ok c, s)) : c.hash.length = 16 := by
  obtain ⟨_, _, -, h⟩ := bind_ok h
  obtain ⟨sharedSecret, _, -, h⟩ := bind_ok h
  obtain ⟨_, _, hpresent, h⟩ := bind_ok h
  obtain ⟨rfl, -⟩ := pure_ok h
  obtain ⟨_, _, -, hpresent⟩ := bind_ok hpresent
  obtain ⟨_, _, -, hpresent⟩ := bind_ok hpresent
  obtain ⟨_, _, -, hpresent⟩ := bind_ok hpresent
  obtain ⟨_, _, -, hpresent⟩ := bind_ok hpresent
  obtain ⟨_, _, -, hpresent⟩ := bind_ok hpresent
  obtain ⟨rfl, -⟩ := pure_ok hpresent
  exact readPast_length 16 _

omit [ObjectLibrary] in
/-- What a comparison is made with is the record of the PIN. -/
private theorem comparing_verifier {c : Presented} {s : Device} (hd : VerifierOf hash d.store.view) (h : comparing p d = (.ok c, s)) :
    c.record.length = pinDataLen ∧ c.record.drop 3 = (Sdk.pinDeriveVerifier hash).1 := by
  obtain ⟨stored, hloaded, -, hrecord, -⟩ := comparing_ok h
  obtain ⟨record, hrecord', hlength, hdrop⟩ := hd.record
  obtain rfl : stored = record := Option.some.inj ((loadPinData_some hloaded).symm.trans hrecord')
  refine ⟨by rw [hrecord, List.length_set, hlength], ?_⟩
  rw [hrecord, ← hdrop]
  cases stored <;> rfl

/-- After a right PIN the record stays, unless another takes its place. -/
private theorem right_verifier (hd : VerifierOf hash d.store.view) (hc : comparison i d = some c) (haccepted : c.presented.accepted = true)
    (hends : ¬ EndsPin d i) : InStore (Carries (VerifierOf hash)) c.state (authenticate i d).2 := by
  obtain ⟨p, hi, hp, hrun⟩ := comparison_some hc
  obtain ⟨hlength, hdrop⟩ := comparing_verifier hd hrun
  have hafter : (authenticate i d).2 = (acceptPin p c.presented c.state).2 := by
    rw [hi, clientPin_eq hp, map_snd, bind_eq hrun, afterComparison_right haccepted]
  rw [hafter]
  have hconfirm := confirmPin_verifier hlength hdrop c.presented.hash
  have hconfirm' := confirmPinForToken_verifier hlength hdrop c.presented.hash
  by_cases h4 : p.subcommand = 0x4
  · rw [acceptPin_change h4]
    have hstoring : Keeps (InStore (Carries (VerifierOf hash))) (storing p c.presented) := by
      unfold storing
      rw [upgradePin_skips hlength, pure_bind]
      infer_instance
    refine rel_bind (hstoring.rel c.state) fun pin s hs => ?_
    rcases storeNewPin_run pin s with ⟨e, hrefused⟩ | ⟨store, hstored, -⟩
    · rw [bind_run, hrefused]
      exact Std.Refl.refl s
    · obtain ⟨t, hdone⟩ := finishNewPin_run { s with store := store }
      exact absurd (.inl ⟨p, hi, h4, changePin_done hi h4 hc haccepted hs (hstored.trans hdone)⟩) hends
  · rw [acceptPin, if_neg h4, upgradePin_skips hlength]
    exact (inferInstance : Keeps (InStore (Carries (VerifierOf hash))) (confirmPinForToken c.presented.record c.presented.hash >>= fun _ =>
      answerToken p c.presented.sharedSecret >>= fun enc => pure (.pinUvAuthToken enc) : CtapOp ClientPinAnswer)).rel c.state

omit [ObjectLibrary] in
private instance : NeverFails (initFido : Handler Device ε Unit) := by
  have hmigrate : ∀ slot, NeverFails (migrateRp slot : Handler Device ε Bool) := fun slot => by
    unfold migrateRp
    refine .bind inferInstance fun files => ?_
    split
    · infer_instance
    · split
      · infer_instance
      · refine .bind inferInstance fun out => ?_
        split <;> infer_instance
  unfold initFido sessionInvalidate migrateRpSecure
  infer_instance

omit [ObjectLibrary] in
/-- A reset that does not succeed was refused before anything was erased. -/
private theorem cborReset_verifier {e : CtapError} {s : Device} (h : cborReset d = (.error e, s)) :
    InStore (Carries (VerifierOf hash)) d s := by
  unfold cborReset at h
  rw [bind_eq (get_run d)] at h
  by_cases hlate : Sdk.build.enablePowerOnReset = true ∧ Sdk.phyDisablePowerReset = false ∧ d.boardMillis > 10000
  · rw [refuseIf_true hlate] at h
    cases h
    exact Std.Refl.refl d
  · rw [refuseIf_false hlate, pure_bind, bind_eq (show (waitButtonPressed : CtapOp Press) d = _ from rfl)] at h
    by_cases hpress : d.presses 0 ≠ .pressed
    · rw [refuseIf_true hpress] at h
      cases h
      exact Std.Refl.refl d.store
    · rw [refuseIf_false hpress, pure_bind] at h
      have hrest : NeverFails (fileInitializeFlash >>= fun _ => initFido >>= fun _ => Handler.get >>= fun d : Device =>
          runIf (Sdk.build.defaultMcuvNotRequired = true) (setOpts (getOpts d.files ||| optMcuvNotrqd)) >>= fun _ =>
          runIf (Sdk.build.defaultPinPolicy = true) (putFile efPinComplexityPolicy [0, 0] >>= fun _ => commit) : CtapOp Unit) := by
        unfold fileInitializeFlash setOpts
        infer_instance
      obtain ⟨u, t, ht⟩ := hrest.ok { d with presses := fun k => d.presses (k + 1) }
      cases ht.symm.trans h

/-- A message that ends nothing keeps the record. -/
private theorem message_verifier (hd : VerifierOf hash d.store.view) (hon : i ≠ .powerCycle) (hends : ¬ EndsPin d i) :
    Carries (VerifierOf hash) d.store (authenticate i d).2.store := by
  by_cases hpresents : i.Presents
  · unfold Input.Presents at hpresents
    split at hpresents
    · next p =>
      cases hc : comparison (.cbor (.clientPin (.params p))) d with
      | none =>
        rw [authenticate_uncompared hpresents hc]
        exact (inferInstance : Keeps (InStore (Carries (VerifierOf hash))) (comparing p)).rel d
      | some c =>
        obtain ⟨q, -, -, hrun⟩ := comparison_some hc
        have hcompared : Carries (VerifierOf hash) d.store c.state.store :=
          (inferInstance : Keeps (InStore (Carries (VerifierOf hash))) (comparing q)).of_run hrun
        refine hcompared.trans ?_
        cases haccepted : c.presented.accepted with
        | true => exact right_verifier hd hc haccepted hends
        | false =>
          obtain ⟨q, hafter, -⟩ := authenticate_after hc
          rw [hafter]
          exact (afterComparison_wrong (R := InStore (Carries (VerifierOf hash))) haccepted c.state).2
    · exact hpresents.elim
  · by_cases hreset : i = .cbor .reset
    · subst hreset
      rcases move_message (r := .reset) rfl d with ⟨-, hafter⟩ | ⟨houtput, hafter⟩
      · rw [show (authenticate (.cbor .reset) d).2 = ticked d from hafter, ticked_store]
        exact .refl d.store
      · rcases hrun : cborReset (ticked d).forgotten with ⟨e | u, s⟩
        · rw [show (authenticate (.cbor .reset) d).2 = s from hafter.trans (by rw [cborCommand, bind_run, hrun])]
          have hkept : InStore (Carries (VerifierOf hash)) (ticked d).forgotten s := cborReset_verifier hrun
          change Carries (VerifierOf hash) (ticked d).store s.store at hkept
          rwa [ticked_store] at hkept
        · exact absurd (.inr ⟨rfl, houtput.trans (by rw [cborCommand, bind_eq hrun]; rfl)⟩) hends
    · refine (authenticate_keeps (R := InStore (Carries (VerifierOf hash))) (fun r hr => ?_) (fun _ _ _ => inferInstance) hon).rel d
      subst hr
      refine cborCommand_other (fun request hrequest => clientPin_idle setPin_verifier fun p hp hpresented => ?_)
        (fun _ _ => inferInstance) fun h => absurd (congrArg Input.cbor h) hreset
      subst hrequest hp
      exact hpresents hpresented

/-- Both what the device works with and what is durable have the verifier. -/
private structure HoldsVerifier (hash : Bytes) (d : Device) : Prop where
  view : VerifierOf hash d.store.view
  durable : VerifierOf hash d.store.durable

private theorem ends_verifier (hd : HoldsVerifier hash d) (hends : ¬ EndsPin d i) (h : Ends d i d') : HoldsVerifier hash d' := by
  have hstarts : ∀ {im}, VerifierOf hash im → Starts im d' → HoldsVerifier hash d' := fun him hstart =>
    ⟨(hstart.holds him).1, (hstart.holds him).2⟩
  by_cases hon : i = .powerCycle
  · subst hon
    cases h with
    | completes => exact hstarts hd.durable (.up d)
    | cut him hstart => exact hstarts ((boot_carries d).crash hd.durable hd.durable (crash_powerCycle him)) hstart
  · have hkept := message_verifier hd.view hon hends
    cases h with
    | completes => exact ⟨hkept.view hd.view, hkept.durable hd.view hd.durable⟩
    | cut him hstart => exact hstarts (hkept.crash hd.view hd.durable him) hstart

/-- No two hashes of PINs have the same verifier. -/
def VerifierInjective : Prop :=
  ∀ hash hash' : Bytes, hash.length = 16 → hash'.length = 16 →
    (Sdk.pinDeriveVerifier hash).1 = (Sdk.pinDeriveVerifier hash').1 → hash = hash'

omit [ObjectLibrary] in
theorem hashOfPin_length (pin : Bytes) : (hashOfPin pin).length = 16 := by
  rw [hashOfPin, List.length_take, (Sdk.sha256 pin).2]
  rfl

omit [ObjectLibrary] in
private theorem accepted_iff (hverifier : VerifierInjective) (hd : VerifierOf (hashOfPin pin) d.store.view)
    (hc : comparison i d = some c) : c.presented.accepted = true ↔ c.presented.hash = hashOfPin pin := by
  obtain ⟨p, -, -, hrun⟩ := comparison_some hc
  obtain ⟨hlength, hdrop⟩ := comparing_verifier hd hrun
  rw [Presented.accepted, pinMatches, current hlength, if_neg (by decide), decide_eq_true_iff, hdrop]
  exact ⟨hverifier _ _ (comparing_hash hrun) (hashOfPin_length pin), fun h => by rw [h]⟩

/-- From here on, until a changePIN or a reset succeeds, every comparison accepts the hash of the PIN and no other. -/
def AcceptsOnly (pin : Bytes) (d : Device) : Prop :=
  ∀ run, Run Ends d run → (∀ t ∈ run, ¬ EndsPin t.before t.shown) →
    ∀ t ∈ run, ∀ c, comparison t.shown t.before = some c → (c.presented.accepted = true ↔ c.presented.hash = hashOfPin pin)

private theorem StoresPin.accepts (hverifier : VerifierInjective) (h : StoresPin pin d) : AcceptsOnly pin d := by
  have hrecord : ∀ {files : Files}, RecordFile (changedRecord pin) files → VerifierOf (hashOfPin pin) files := fun hfile =>
    ⟨_, hfile, by simp [changedRecord, newPinRecord, pinDataLen, (Sdk.pinDeriveVerifier _).2], rfl⟩
  intro run hrun hends t ht c hc
  obtain ⟨-, hbefore, -⟩ := hrun.invariant (I := HoldsVerifier (hashOfPin pin))
    (A := fun t : Step Device Input => ¬ EndsPin t.before t.shown) (fun t hstep hA hbefore => ends_verifier hbefore hA hstep) hends
    ⟨hrecord h.view, hrecord h.durable⟩ t ht
  exact accepted_iff hverifier hbefore.view hc

/-! ### Both commands -/

/-- A setPIN on a device without a PIN, with the block it brings: it begins, and passes its checks in the state `s`. -/
structure SetsFirst (p : ClientPinParams) (d s : Device) (block : Bytes) : Prop where
  subcommand : p.subcommand = 0x3
  begun : beginClientPin d = (.ok s, s)
  checked : ∃ sharedSecret, setPinChecks s p = .ok sharedSecret ∧ decrypt p.protocol sharedSecret p.newPin = some block

/-- A changePIN whose current PIN is right, with the block it brings. -/
structure ChangesRight (p : ClientPinParams) (d : Device) (c : Comparison) (block : Bytes) : Prop where
  subcommand : p.subcommand = 0x4
  compared : comparison (.cbor (.clientPin (.params p))) d = some c
  accepted : c.presented.accepted = true
  decrypted : decrypt p.protocol c.presented.sharedSecret p.newPin = some block

/-- The message succeeds under the given condition, and then its PIN is stored, and the only one accepted from there on. -/
def Installs (p : ClientPinParams) (d : Device) (pin : Bytes) (condition : Prop) : Prop :=
  ((authenticate (.cbor (.clientPin (.params p))) d).1 = .ok (some (.clientPin .done)) ↔ condition) ∧
    ((authenticate (.cbor (.clientPin (.params p))) d).1 = .ok (some (.clientPin .done)) →
      StoresPin pin (authenticate (.cbor (.clientPin (.params p))) d).2 ∧ AcceptsOnly pin (authenticate (.cbor (.clientPin (.params p))) d).2)

/-- The PIN has to be changed, and the new one is the one presented. -/
def RepeatsPin (d : Device) (c : Presented) (pin : Bytes) : Prop := forceChangePin d.files = true ∧ hashOfPin pin = c.hash

section
variable {s : Device} {block : Bytes}

omit [ObjectLibrary] in
theorem setPinChecks_fits {sharedSecret : Bytes} (h : setPinChecks d p = .ok sharedSecret) :
    (p.pinUvAuthProtocol = 1 ∨ p.pinUvAuthProtocol = 2) ∧ p.newPinEncFits = true := by
  unfold setPinChecks at h
  split at h
  · cases h
  · split at h
    · cases h
    · next hprotocol =>
      split at h
      · cases h
      · split at h
        · cases h
        · next hfits => exact ⟨by tauto, by simpa using hfits⟩

omit [ObjectLibrary] in
theorem changePinChecks_fits {sharedSecret : Bytes} (h : changePinChecks d p = .ok sharedSecret) :
    (p.pinUvAuthProtocol = 1 ∨ p.pinUvAuthProtocol = 2) ∧ p.newPinEncFits = true := by
  unfold changePinChecks at h
  split at h
  · cases h
  · split at h
    · cases h
    · next hprotocol =>
      split at h
      · cases h
      · split at h
        · cases h
        · split at h
          · cases h
          · next hfits => exact ⟨by tauto, by simpa using (not_or.mp hfits).1⟩

/-- setPIN answers as it should, and stores what it takes where the write of the record happens. -/
private theorem setPin_installs (hverifier : VerifierInjective) (h : SetsFirst p d s block) :
    Installs p d (pinIn block) (AcceptableBlock d.files block) ↔ (AcceptableBlock d.files block → s.store.fates.head? ≠ some false) := by
  obtain ⟨sharedSecret, hchecked, hblock⟩ := h.checked
  obtain ⟨hprotocol, hfits⟩ := setPinChecks_fits hchecked
  have hlimits : AcceptableBlock s.files block ↔ AcceptableBlock d.files block :=
    AcceptableBlock.congr ((inferInstance : Keeps SameLimits beginClientPin).of_run h.begun)
  have hrun : authenticate (.cbor (.clientPin (.params p))) d =
      ((fun _ => some (Response.clientPin .done)) <$> setPin p) s := by
    rw [setPin_message h.subcommand, map_run, map_run, bind_eq h.begun]
  unfold Installs
  rw [hrun, map_run]
  by_cases hacceptable : AcceptableBlock d.files block
  · obtain ⟨t, hset, hstores⟩ := setPin_taken hchecked ((newPinOf_iff hprotocol hfits hblock).mpr ⟨hlimits.mpr hacceptable, rfl⟩)
    rw [hset]
    refine ⟨fun h _ => hstores.mp (h.2 rfl).1, fun h => ⟨iff_of_true rfl hacceptable, fun _ => ?_⟩⟩
    have hstored := hstores.mpr (h hacceptable)
    exact ⟨hstored, hstored.accepts hverifier⟩
  · have hrefused : ∃ e, setPin p s = (.error e, s) := by
      rw [setPin_eq, bind_eq (get_run s), hchecked, ofExcept_ok_bind]
      cases hpin : newPinOf s.files p sharedSecret with
      | error e => exact ⟨e, rfl⟩
      | ok pin => exact absurd (hlimits.mp ((newPinOf_iff hprotocol hfits hblock).mp hpin).1) hacceptable
    obtain ⟨e, hrefused⟩ := hrefused
    rw [hrefused]
    exact iff_of_true ⟨iff_of_false nofun hacceptable, nofun⟩ fun h => absurd h hacceptable

omit [ObjectLibrary] in
private theorem finishNewPin_stores (pin : Bytes) (s : Device) : StoresPin pin (finishNewPin s).2 ↔ RecordFile (changedRecord pin) s.store.view := by
  unfold finishNewPin
  exact commit_stores fun _ _ => inferInstance

omit [ObjectLibrary] in
/-- The new record is refused, or changePIN is done: with the record where its write happens, else with what was there. -/
private theorem storeNewPin_taken (pin : Bytes) (s : Device) :
    ((storeNewPin pin s).1 = .ok () ↔
      ¬ (forceChangePin s.files = true ∧ (changedRecord pin).drop 3 = readPast 32 (((s.files efPin).getD []).drop 3))) ∧
    ((storeNewPin pin s).1 = .ok () → (StoresPin pin (storeNewPin pin s).2 ↔
      s.store.fates.head? ≠ some false ∨ RecordFile (changedRecord pin) s.store.view)) := by
  rw [storeNewPin_eq, bind_eq (getFiles_run s)]
  by_cases hrepeats : forceChangePin s.files = true ∧ (changedRecord pin).drop 3 = readPast 32 (((s.files efPin).getD []).drop 3)
  · rw [refuseIf_true hrepeats]
    exact ⟨iff_of_false nofun (not_not.mpr hrepeats), nofun⟩
  rw [refuseIf_false hrepeats, pure_bind]
  -- The write of the flag comes between the record and the commit, and leaves the record alone.
  have hflag : ∀ t : Device, ∃ t', (runIf (forceChangePin s.files = true)
      (putFile efMinpinlen (((fileData s.files efMinpinlen).getD []).set 1 0)) : CtapOp Unit) t = (.ok (), t') ∧
      t'.store.view efPin = t.store.view efPin := fun t => by
    by_cases hforced : forceChangePin s.files = true
    · rw [runIf_true hforced]
      obtain ⟨store, hput, -, ⟨hview, -⟩ | ⟨hview, -, -⟩⟩ := Settles.putFile_run (ε := CtapError) efMinpinlen
        (((fileData s.files efMinpinlen).getD []).set 1 0) t
      · exact ⟨_, hput, by rw [hview, Function.update_of_ne (by decide)]⟩
      · exact ⟨_, hput, by rw [hview]⟩
    · rw [runIf_false hforced]
      exact ⟨t, rfl, rfl⟩
  have hfinish : ∀ {t : Device}, (putFile efPin (changedRecord pin) : CtapOp Unit) s = (.ok (), t) → ∃ u,
      (putFile efPin (changedRecord pin) >>= fun _ => runIf (forceChangePin s.files = true)
        (putFile efMinpinlen (((fileData s.files efMinpinlen).getD []).set 1 0)) >>= fun _ => finishNewPin : CtapOp Unit) s = (.ok (), u) ∧
      (StoresPin pin u ↔ RecordFile (changedRecord pin) t.store.view) := fun {t} hput => by
    obtain ⟨t', hrun, hsame⟩ := hflag t
    obtain ⟨u, hu⟩ := finishNewPin_run t'
    have hstores := finishNewPin_stores pin t'
    rw [hu] at hstores
    exact ⟨u, by rw [bind_eq hput, bind_eq hrun, hu], hstores.trans (by rw [RecordFile, RecordFile, hsame])⟩
  by_cases hfate : s.store.fates.head? = some false
  · obtain ⟨u, hrun, hstores⟩ := hfinish (putFile_failed hfate _ _)
    rw [hrun]
    exact ⟨iff_of_true rfl hrepeats, fun _ => hstores.trans ⟨.inr, fun h => h.resolve_left (not_not.mpr hfate)⟩⟩
  · obtain ⟨u, hrun, hstores⟩ := hfinish (putFile_written hfate _ _)
    rw [hrun]
    exact ⟨iff_of_true rfl hrepeats, fun _ => hstores.trans
      (iff_of_true (by rw [RecordFile, Store.set_view, Function.update_self]) (.inl hfate))⟩

/-- The new record tells the new PIN from the one presented, and its write happens or changes nothing. -/
structure ChangeRecorded (p : ClientPinParams) (c : Comparison) (pin : Bytes) : Prop where
  tells : UpgradeFails c.presented c.state → forceChangePin c.state.files = true →
    ((Sdk.pinDeriveVerifier (hashOfPin pin)).1 = readPast 32 (c.presented.record.drop 3) ↔ hashOfPin pin = c.presented.hash)
  written : ¬ RepeatsPin c.state c.presented pin → ∀ s, storing p c.presented c.state = (.ok pin, s) →
    s.store.fates.head? ≠ some false ∨ RecordFile (changedRecord pin) s.store.view

/-- changePIN answers as it should, and stores what it takes, where the new record tells the PINs apart and is written. -/
private theorem changePin_installs (hverifier : VerifierInjective) (h : ChangesRight p d c block) :
    Installs p d (pinIn block) (AcceptableBlock d.files block ∧ KeydevLoads c.presented c.state ∧ ¬ RepeatsPin d c.presented (pinIn block)) ↔
      (AcceptableBlock d.files block → KeydevLoads c.presented c.state → ChangeRecorded p c (pinIn block)) := by
  obtain ⟨q, hq, hp, hrun⟩ := comparison_some h.compared
  obtain rfl : p = q := by
    cases hq
    rfl
  obtain ⟨hlengths, hlength, hrecord⟩ := comparison_lengths h.compared
  have hforced : forceChangePin c.state.files = forceChangePin d.files := congrArg PinLengths.forced hlengths
  have hlimits : AcceptableBlock c.state.files block ↔ AcceptableBlock d.files block :=
    AcceptableBlock.congr ((inferInstance : Keeps SameLimits (comparing p)).of_run hrun)
  obtain ⟨hprotocol, hfits⟩ : (p.pinUvAuthProtocol = 1 ∨ p.pinUvAuthProtocol = 2) ∧ p.newPinEncFits = true := by
    obtain ⟨s, t, -, hrest⟩ := bind_ok hrun
    obtain ⟨sharedSecret, _, hchecked, -⟩ := bind_ok hrest
    have hpassed := (ofExcept_ok hchecked).1
    rw [presentationChecks, if_pos h.subcommand] at hpassed
    exact changePinChecks_fits hpassed
  have hafter : authenticate (.cbor (.clientPin (.params p))) d =
      ((fun a => some (Response.clientPin a)) <$> (storing p c.presented >>= fun pin => storeNewPin pin >>= fun _ => pure .done)) c.state := by
    rw [clientPin_eq hp, map_run, map_run, bind_eq hrun, afterComparison_right h.accepted, acceptPin_change h.subcommand]
  have hcomes : ∀ pin, (∃ s, storing p c.presented c.state = (.ok pin, s)) ↔
      AcceptableBlock c.state.files block ∧ KeydevLoads c.presented c.state ∧ pin = pinIn block := fun _ =>
    storing_iff hprotocol hfits h.decrypted
  by_cases hready : AcceptableBlock d.files block ∧ KeydevLoads c.presented c.state
  · obtain ⟨hacceptable, hloads⟩ := hready
    obtain ⟨s, hstoring⟩ := (hcomes (pinIn block)).mpr ⟨hlimits.mpr hacceptable, hloads, rfl⟩
    obtain ⟨-, -, hsame, hrecorded⟩ := storing_ok hlength hrecord h.accepted hstoring
    have hforced' : forceChangePin s.files = forceChangePin d.files :=
      (congrArg PinLengths.forced hsame : forceChangePin s.store.view = forceChangePin c.state.store.view).trans hforced
    obtain ⟨htaken, hstores⟩ := storeNewPin_taken (pinIn block) s
    have hdone : (authenticate (.cbor (.clientPin (.params p))) d).1 = .ok (some (.clientPin .done)) ↔ (storeNewPin (pinIn block) s).1 = .ok () := by
      rw [hafter, map_run, bind_eq hstoring, bind_run]
      rcases storeNewPin (pinIn block) s with ⟨_ | _, _⟩ <;> simp
    have hstate : (storeNewPin (pinIn block) s).1 = .ok () →
        (authenticate (.cbor (.clientPin (.params p))) d).2 = (storeNewPin (pinIn block) s).2 := fun hok => by
      rw [hafter, map_snd, bind_eq hstoring, bind_eq (run_of_ok hok)]
      rfl
    -- The refusal compares with what is stored: the verifier of the PIN presented, or a legacy record that is still there.
    have hverdict : (forceChangePin d.files = true → ((changedRecord (pinIn block)).drop 3 = readPast 32 (((s.files efPin).getD []).drop 3) ↔
        hashOfPin (pinIn block) = c.presented.hash)) ↔ (UpgradeFails c.presented c.state → forceChangePin c.state.files = true →
          ((Sdk.pinDeriveVerifier (hashOfPin (pinIn block))).1 = readPast 32 (c.presented.record.drop 3) ↔
            hashOfPin (pinIn block) = c.presented.hash)) := by
      rw [hforced]
      by_cases hfails : UpgradeFails c.presented c.state
      · have hlegacy : s.files efPin = some c.presented.record := storing_legacy hrecord hfails hstoring
        rw [hlegacy]
        exact ⟨fun htells _ => htells, fun htells => htells hfails⟩
      · obtain ⟨record, hstored, hdrop⟩ := hrecorded hfails
        refine iff_of_true (fun _ => ?_) fun h => absurd h hfails
        rw [show s.files efPin = some record from hstored, Option.getD_some, hdrop, readPast_of_length (Sdk.pinDeriveVerifier _).2]
        have hhash : c.presented.hash.length = 16 := comparing_hash hrun
        exact ⟨hverifier _ _ (hashOfPin_length _) hhash, fun h => by rw [← h]; rfl⟩
    rw [hforced'] at htaken
    have hrepeats : RepeatsPin c.state c.presented (pinIn block) ↔ RepeatsPin d c.presented (pinIn block) := by
      rw [RepeatsPin, RepeatsPin, hforced]
    constructor
    · rintro ⟨hanswers, hinstalls⟩ - -
      have hsameTaken : (storeNewPin (pinIn block) s).1 = .ok () ↔ ¬ RepeatsPin d c.presented (pinIn block) :=
        hdone.symm.trans (hanswers.trans ⟨fun h => h.2.2, fun h => ⟨hacceptable, hloads, h⟩⟩)
      refine ⟨hverdict.mp fun hnow => ?_, fun hfresh t ht => ?_⟩
      · have hno := not_congr (htaken.symm.trans hsameTaken)
        simp only [RepeatsPin, hnow, true_and, not_not] at hno
        exact hno
      · cases hstoring.symm.trans ht
        have hok := hsameTaken.mpr fun hagain => hfresh (hrepeats.mpr hagain)
        have hstored := (hinstalls (hdone.mpr hok)).1
        rw [hstate hok] at hstored
        exact (hstores hok).mp hstored
    · intro hcondition
      obtain ⟨htells, hwritten⟩ := hcondition hacceptable hloads
      have hsameTaken : (storeNewPin (pinIn block) s).1 = .ok () ↔ ¬ RepeatsPin d c.presented (pinIn block) := by
        rw [htaken, RepeatsPin]
        exact not_congr (and_congr_right (hverdict.mpr htells))
      refine ⟨hdone.trans (hsameTaken.trans ⟨fun h => ⟨hacceptable, hloads, h⟩, fun h => h.2.2⟩), fun hanswered => ?_⟩
      have hok := hdone.mp hanswered
      have hstored := (hstores hok).mpr (hwritten (fun hagain => hsameTaken.mp hok (hrepeats.mp hagain)) s hstoring)
      rw [hstate hok]
      exact ⟨hstored, hstored.accepts hverifier⟩
  · have hnever : ¬ (authenticate (.cbor (.clientPin (.params p))) d).1 = .ok (some (.clientPin .done)) := fun hok => by
      rw [hafter] at hok
      obtain ⟨a, ha, -⟩ := map_ok (run_of_ok hok)
      obtain ⟨pin, s, hstoring, -⟩ := bind_ok ha
      obtain ⟨hacceptable, hloads, -⟩ := (hcomes pin).mp ⟨s, hstoring⟩
      exact hready ⟨hlimits.mp hacceptable, hloads⟩
    exact iff_of_true ⟨iff_of_false hnever fun h => hready ⟨h.1, h.2.1⟩, fun h => absurd h hnever⟩
      fun hacceptable hloads => absurd ⟨hacceptable, hloads⟩ hready

/-- setPIN and changePIN take the same blocks, store the same record for the PIN in one, and have later comparisons
accept its hash alone, exactly where the record they write is written, and an upgraded one before it. -/
theorem new_pin_rules (hverifier : VerifierInjective) :
    (∀ p d s block, SetsFirst p d s block →
      (Installs p d (pinIn block) (AcceptableBlock d.files block) ↔ (AcceptableBlock d.files block → s.store.fates.head? ≠ some false))) ∧
    ∀ p d c block, ChangesRight p d c block →
      (Installs p d (pinIn block) (AcceptableBlock d.files block ∧ KeydevLoads c.presented c.state ∧ ¬ RepeatsPin d c.presented (pinIn block)) ↔
        (AcceptableBlock d.files block → KeydevLoads c.presented c.state → ChangeRecorded p c (pinIn block))) :=
  ⟨fun _ _ _ _ h => setPin_installs hverifier h, fun _ _ _ _ h => changePin_installs hverifier h⟩

end

end

end

section Plain

/-- The plain SDK with a verifier that is the hash itself. -/
@[reducible] private def verifierSdk : Sdk := { plainSdk with pinDeriveVerifier := fun hash => .ofBytes 32 hash }

attribute [local instance] verifierSdk plainLibrary

private theorem verifierSdk_injective : VerifierInjective := fun hash hash' h h' hsame => by
  change (hash ++ List.replicate 32 0).take 32 = (hash' ++ List.replicate 32 0).take 32 at hsame
  have hprefix := congrArg (List.take 16) hsame
  rw [List.take_take, List.take_take, Nat.min_eq_left (by decide)] at hprefix
  rwa [List.take_left' h, List.take_left' h'] at hprefix

/-- A device without a PIN, some of whose writes may fail. -/
private def unsetDevice (fates : List Bool) : Device :=
  let d := plainDevice [(efKeyDev, plainKeydev)]
  { d with store := { d.store with fates := fates } }

/-- The PIN `"1234"` in a block. -/
private def fourDigits : Bytes := [0x31, 0x32, 0x33, 0x34] ++ List.replicate 60 0

private def fourDigitPin : ClientPinParams :=
  { pinUvAuthProtocol := 1, subcommand := 3, alg := -25, kax := some [1], kay := some [2],
    pinUvAuthParam := some (List.replicate 16 73), newPinEnc := some fourDigits, pinHashEnc := none, permissions := 0, rpId := none }

private theorem fourDigits_acceptable (fates : List Bool) : AcceptableBlock (unsetDevice fates).files fourDigits := by
  change AcceptableBlock (unsetDevice []).files fourDigits
  exact ⟨by decide, by decide, by decide +kernel, by decide +kernel⟩

/-- The state in which the request is checked. -/
private def checkedState (fates : List Bool) : Device := (beginClientPin (unsetDevice fates)).2

private def passes (s : Device) : Bool :=
  match setPinChecks s fourDigitPin with
  | .ok sharedSecret => decrypt fourDigitPin.protocol sharedSecret fourDigitPin.newPin = some fourDigits
  | .error _ => false

private theorem fourDigitPin_sets {fates : List Bool} (hbegun : (beginClientPin (unsetDevice fates)).1.toBool = true)
    (hpasses : passes (checkedState fates) = true) : SetsFirst fourDigitPin (unsetDevice fates) (checkedState fates) fourDigits := by
  obtain ⟨s, hs⟩ := exists_ok hbegun
  have hrun := run_of_ok hs
  refine ⟨rfl, ?_, ?_⟩
  · rw [beginClientPin_ok hrun] at hrun
    exact hrun
  · unfold passes at hpasses
    split at hpasses
    · next sharedSecret hchecked => exact ⟨sharedSecret, hchecked, of_decide_eq_true hpasses⟩
    · cases hpasses

/-- A first PIN of four digits is taken, stored and from there on the only one accepted. -/
theorem first_pin_installed :
    Installs fourDigitPin (unsetDevice []) (pinIn fourDigits) (AcceptableBlock (unsetDevice []).files fourDigits) ∧
      StoresPin (pinIn fourDigits) (authenticate (.cbor (.clientPin (.params fourDigitPin))) (unsetDevice [])).2 := by
  have hinstalls := ((new_pin_rules verifierSdk_injective).1 fourDigitPin (unsetDevice []) (checkedState []) fourDigits
    (fourDigitPin_sets (by decide +kernel) (by decide +kernel))).mpr fun _ => by decide +kernel
  exact ⟨hinstalls, (hinstalls.2 (hinstalls.1.mpr (fourDigits_acceptable []))).1⟩

/-- The two writes of the key agreement happen, and that of the record does not. -/
private def recordFails : List Bool := [true, false]

/-- setPIN answers that it is done, and no PIN is stored. -/
theorem first_pin_lost :
    ∃ s, SetsFirst fourDigitPin (unsetDevice recordFails) s fourDigits ∧ AcceptableBlock (unsetDevice recordFails).files fourDigits ∧
      (authenticate (.cbor (.clientPin (.params fourDigitPin))) (unsetDevice recordFails)).1.toBool = true ∧
      pinRecord (authenticate (.cbor (.clientPin (.params fourDigitPin))) (unsetDevice recordFails)).2.files = none ∧
      ¬ Installs fourDigitPin (unsetDevice recordFails) (pinIn fourDigits) (AcceptableBlock (unsetDevice recordFails).files fourDigits) := by
  have hnone : pinRecord (authenticate (.cbor (.clientPin (.params fourDigitPin))) (unsetDevice recordFails)).2.files = none := by
    decide +kernel
  refine ⟨_, fourDigitPin_sets (by decide +kernel) (by decide +kernel), fourDigits_acceptable _, by decide +kernel, hnone, fun hinstalls => ?_⟩
  have hstored := (hinstalls.2 (hinstalls.1.mpr (fourDigits_acceptable _))).1.view
  rw [pinRecord, fileData, show (authenticate (.cbor (.clientPin (.params fourDigitPin))) (unsetDevice recordFails)).2.files efPin = _ from hstored] at hnone
  cases hnone

end Plain
end FidoTouch.Ctap
