import FidoTouch.Ctap.SoftLock

/-! The secure lock of the master key: what keeps EF_KEY_DEV empty once AUT_ENABLE has locked it. -/
namespace FidoTouch.Ctap
open FidoTouch.Program Handler FidoTouch.Storage FidoTouch.Resident

-- The search for `Keeps` follows whole commands.
set_option synthInstance.maxSize 4096

variable {ε α : Type} {d d' : Device} {blob : Bytes}

/-! ### The lock -/

/-- EF_KEY_DEV is empty, and EF_KEY_DEV_ENC holds the locked key. -/
structure KeyLocked (blob : Bytes) (files : Files) : Prop where
  empty : fileData files efKeyDev = none
  locked : fileData files efKeyDevEnc = some blob

/-- The key is locked, and a power cycle does not unlock it. -/
structure LockedStore (blob : Bytes) (s : Store Nat UInt8) : Prop where
  view : KeyLocked blob s.view
  durable : KeyLocked blob s.durable

/-- A locked key stays locked, in the files and in RAM. -/
def StaysLocked (blob : Bytes) (d d' : Device) : Prop :=
  LockedStore blob d.store → LockedStore blob d'.store ∧ (d'.hasKeydevDec = true → d.hasKeydevDec = true)

def IsKeyFile (fid : Nat) : Prop := fid = efKeyDev ∨ fid = efKeyDevEnc

instance : DecidablePred IsKeyFile := fun fid => inferInstanceAs (Decidable (fid = efKeyDev ∨ fid = efKeyDevEnc))

instance : Ordinary IsKeyFile where
  cred slot := by simp only [IsKeyFile, efCred, efKeyDev, efKeyDevEnc]; omega
  manifest slot m := by cases m <;> simp only [IsKeyFile, residentManifestFid, efKeyDev, efKeyDevEnc] <;> omega
  record slot m t := by cases m <;> simp only [IsKeyFile, residentRecordFid, efKeyDev, efKeyDevEnc] <;> omega
  rp slot := by simp only [IsKeyFile, rpFid, efRp, efKeyDev, efKeyDevEnc]; omega
  single := by decide

instance : Fact (¬ IsKeyFile efCounter) := ⟨by decide⟩
instance : Fact (¬ IsKeyFile efLargeblob) := ⟨by decide⟩
instance : Fact (¬ IsKeyFile efPin) := ⟨by decide⟩
instance : Fact (¬ IsKeyFile efMinpinlen) := ⟨by decide⟩

private theorem staysLocked_of_view (h : KeyLocked blob d.files → KeyLocked blob d'.files) (hdurable : d'.store.durable = d.store.durable)
    (hhas : d'.hasKeydevDec = d.hasKeydevDec) : StaysLocked blob d d' := fun hd =>
  ⟨⟨h hd.view, hdurable ▸ hd.durable⟩, fun hhas' => hhas ▸ hhas'⟩

instance : Spares (StaysLocked blob) IsKeyFile where
  refl d hd := ⟨hd, id⟩
  trans h h' hd := ⟨(h' (h hd).1).1, fun hhas => (h hd).2 ((h' (h hd).1).2 hhas)⟩
  sync d hd := ⟨⟨hd.view, hd.view⟩, id⟩
  fates d hd := ⟨⟨hd.view, hd.durable⟩, id⟩
  set d fid v hfid := staysLocked_of_view (fun h => by
    have hdev : (d.store.set fid v).view efKeyDev = d.store.view efKeyDev :=
      Function.update_of_ne (fun h : efKeyDev = fid => hfid (.inl h.symm)) _ _
    have henc : (d.store.set fid v).view efKeyDevEnc = d.store.view efKeyDevEnc :=
      Function.update_of_ne (fun h : efKeyDevEnc = fid => hfid (.inr h.symm)) _ _
    exact ⟨by simpa only [Device.files_eq, fileData, hdev] using h.empty,
      by simpa only [Device.files_eq, fileData, henc] using h.locked⟩) rfl rfl
  entropy d _ hd := ⟨hd, id⟩

instance : AdmitsGlobals (StaysLocked blob) where
  rel {d d'} h := by
    have hstore : d'.store = d.store := (congrArg Device.store h :)
    have hhas : d'.hasKeydevDec = d.hasKeydevDec := (congrArg Device.hasKeydevDec h :)
    exact fun hd => ⟨hstore ▸ hd, fun hhas' => hhas ▸ hhas'⟩

instance (k : Change) : AdmitsToken (StaysLocked blob) k := ⟨fun _ _ _ hd => ⟨hd, id⟩⟩
instance : AdmitsUpload (StaysLocked blob) := ⟨fun _ _ hd => ⟨hd, id⟩⟩
instance : AdmitsAssertions (StaysLocked blob) := ⟨fun _ _ hd => ⟨hd, id⟩⟩
instance : AdmitsPinGuard (StaysLocked blob) := ⟨fun _ _ _ hd => ⟨hd, id⟩⟩

section
variable [Sdk]

/-! ### The master key while it is locked -/

/-- Without an unlock there is no master key. -/
theorem loadKeydev_locked (hd : KeyLocked blob d.files) (hhas : d.hasKeydevDec = false) (key : Block 32) :
    loadKeydev key d = (.error .memoryFatal, d) := by
  unfold loadKeydev
  rw [bind_eq (get_run d), if_neg (by simp [hhas]), hd.empty]
  rfl

instance (key : Block 32) : Keeps (StaysLocked blob) (loadKeydev key) where
  rel d hd := by
    cases hhas : d.hasKeydevDec with
    | false =>
      rw [loadKeydev_locked hd.view hhas]
      exact ⟨hd, fun h => hhas ▸ h⟩
    | true =>
      unfold loadKeydev
      rw [bind_eq (get_run d), if_pos hhas]
      exact ⟨hd, fun _ => rfl⟩

private theorem checkKeydevEncrypted_empty (hempty : fileData d.files efKeyDev = none) (pinToken : Block 32) :
    (checkKeydevEncrypted pinToken : Handler Device ε Unit) d = (.ok (), d) := by
  unfold checkKeydevEncrypted
  rw [bind_eq (getFiles_run d), hempty]
  rfl

instance (pinToken : Block 32) : Keeps (StaysLocked blob) (checkKeydevEncrypted pinToken : Handler Device ε Unit) where
  rel d hd := by
    rw [checkKeydevEncrypted_empty hd.view.empty]
    exact ⟨hd, id⟩

instance : Keeps (StaysLocked blob) ensureKeydev where
  rel d hd := by
    have hlocked : fileData d.files efKeyDevEnc = some blob := hd.view.locked
    unfold ensureKeydev
    rw [bind_eq (getFiles_run d), runIf_false fun h => by rw [hlocked] at h; cases h.2]
    exact ⟨hd, id⟩

/-! ### Commands that leave the lock alone -/

instance (p : ConfigParams) : Keeps (StaysLocked blob) (autEnable p) where
  rel d hd := by
    have hempty : fileData d.files efKeyDev = none := hd.view.empty
    unfold autEnable
    rw [bind_eq (get_run d), hempty]
    exact ⟨hd, id⟩

private theorem configVendor_staysLocked {p : ConfigParams} (h : p.vendorCommandId ≠ configAutDisable) :
    Keeps (StaysLocked blob) (configVendor p) := by
  unfold configVendor
  rw [if_neg h]
  infer_instance

private theorem cborConfig_staysLocked {request : Parsed ConfigParams}
    (h : ∀ p, request = .params p → p.subcommand = 0xFF → p.vendorCommandId ≠ configAutDisable) :
    Keeps (StaysLocked blob) (cborConfig request) := by
  cases request with
  | empty e | malformed e => exact inferInstanceAs (Keeps (StaysLocked blob) (fail e))
  | params p =>
    unfold cborConfig
    by_cases hvendor : p.subcommand = 0xFF
    · have : Keeps (StaysLocked blob) (configVendor p) := configVendor_staysLocked (h p rfl hvendor)
      simp only [Parsed.result, ofExcept_ok_bind, if_pos hvendor]
      infer_instance
    · simp only [Parsed.result, ofExcept_ok_bind, if_neg hvendor]
      infer_instance

variable [ObjectLibrary]

/-- The messages that may unlock the key for good. -/
def Input.liftsLock : Input → Bool
  | .cbor .reset => true
  | .cbor (.config (.params p)) => p.subcommand = 0xFF ∧ p.vendorCommandId = configAutDisable
  | .vendor cmd (.params p) => cmd = vendorBackup ∧ p.vendorCmd = 0x02
  | _ => false

/-- The messages that ask for the locked key. -/
def Input.asksUnlock : Input → Bool
  | .vendor cmd _ => cmd = vendorUnlock
  | _ => false

omit [ObjectLibrary] in
private theorem cborVendor_staysLocked {cmd : UInt8} {request : Parsed VendorParams}
    (hlift : (Input.vendor cmd request).liftsLock = false) (hask : (Input.vendor cmd request).asksUnlock = false) :
    Keeps (StaysLocked blob) (cborVendor cmd request) := by
  unfold cborVendor cborVendorGeneric
  cases request with
  | empty e | malformed e => exact inferInstanceAs (Keeps (StaysLocked blob) (refuseIf _ _ >>= fun _ => fail e))
  | params p =>
    simp only [Parsed.result, ofExcept_ok_bind]
    refine .bind inferInstance fun _ => ?_
    split
    · next hbackup =>
      have hsave : p.vendorCmd ≠ 0x02 := fun h => by simp [Input.liftsLock, hbackup, h] at hlift
      rw [if_neg hsave]
      infer_instance
    · split
      · infer_instance
      · have hother : cmd ≠ vendorUnlock := by simpa [Input.asksUnlock] using hask
        rw [if_neg hother]
        infer_instance

/-- What neither unlocks the key nor presents a PIN leaves the lock alone. -/
private theorem authenticate_staysLocked {i : Input} (hlift : i.liftsLock = false) (hask : i.asksUnlock = false)
    (hidle : ¬ i.Presents) (hon : i ≠ .powerCycle) : Keeps (StaysLocked blob) (authenticate i) := by
  refine authenticate_keeps (fun r hr => ?_) (fun cmd p hvendor => ?_) hon
  · subst hr
    refine cborCommand_other (fun request hr => clientPin_idle inferInstance fun p hp hpresents => ?_)
      (fun request hr => cborConfig_staysLocked fun p hp hvendor hdisable => ?_) fun hr => ?_
    · subst hr hp
      exact hidle hpresents
    · subst hr hp
      simp [Input.liftsLock, hvendor, hdisable] at hlift
    · subst hr
      cases hlift
  · subst hvendor
    exact cborVendor_staysLocked hlift hask

/-! ### Messages that present a PIN -/

/-- The message gets to where the master key is written back under the PIN: its PIN is right, and the record of the PIN
is an old one or a new PIN is accepted. -/
def Rewraps (i : Input) (d : Device) : Prop :=
  ∃ p c, i = .cbor (.clientPin (.params p)) ∧ comparison i d = some c ∧ c.presented.accepted = true ∧
    (isLegacy c.presented.record = true ∨
      p.subcommand = 0x4 ∧ ∃ pin, newPinOf c.state.files p c.presented.sharedSecret = .ok pin)

omit [ObjectLibrary] in
/-- A confirmed PIN changes its record, and nothing else while the key is locked. -/
private theorem confirmPin_files {record hash : Bytes} {s s' : Device} (hd : KeyLocked blob s.files)
    (h : (confirmPin record hash : CtapOp Unit) s = (.ok (), s')) {fid : Nat} (hfid : fid ≠ efPin) :
    s'.files fid = s.files fid := by
  obtain ⟨store, hput, -, hview⟩ := Settles.putFile_run (ε := CtapError) efPin (record.set 0 maxPinRetries)
    { s with sessionPin := Sdk.pinDeriveSession hash }
  have hsame : ∀ fid ≠ efPin, store.view fid = s.store.view fid := fun fid hfid => by
    rcases hview with ⟨hview, -⟩ | ⟨hview, -⟩
    · rw [hview, Function.update_of_ne hfid]
    · rw [hview]
  unfold confirmPin setSessionPin at h
  rw [bind_eq (modify_run _ s), bind_eq hput] at h
  obtain ⟨_, t, hcommit, h⟩ := bind_ok h
  have ht : t.files = store.view := by
    cases hcommit
    rfl
  have hempty : fileData t.files efKeyDev = none := by
    rw [ht, fileData, hsame efKeyDev (by decide)]
    exact hd.empty
  rw [bind_eq (checkKeydevEncrypted_empty hempty _)] at h
  cases h
  exact (congrFun ht fid).trans (hsame fid hfid)

omit [ObjectLibrary] in
private theorem newPinOf_congr {files files' : Files} (hmin : files' efMinpinlen = files efMinpinlen)
    (hpolicy : files' efPinComplexityPolicy = files efPinComplexityPolicy) (p : ClientPinParams) (sharedSecret : Bytes) :
    newPinOf files' p sharedSecret = newPinOf files p sharedSecret := by
  have hlen : minPinLen files' = minPinLen files := by rw [minPinLen, fileData, hmin, minPinLen, fileData]
  have hpass : pinPolicyPass files' = pinPolicyPass files := by
    funext pin
    rw [pinPolicyPass, fileData, hpolicy, pinPolicyPass, fileData]
  have haccepted : acceptedPin files' p.newPinPlainLen = acceptedPin files p.newPinPlainLen := by
    funext padded
    rw [acceptedPin, hlen, hpass, acceptedPin]
  rw [newPinOf, haccepted, newPinOf]

omit [ObjectLibrary] in
private theorem mapLoad_locked {s : Device} (hd : KeyLocked blob s.files) (hhas : s.hasKeydevDec = false) (key : Block 32) :
    mapError (fun _ => CtapError.pinInvalid) (loadKeydev key) s = (.error .pinInvalid, s) := by
  unfold mapError
  rw [loadKeydev_locked hd hhas]

omit [ObjectLibrary] in
/-- A locked key is not written back under the PIN while it is not in RAM. -/
private theorem rekey_locked {s : Device} (hd : KeyLocked blob s.files) (hhas : s.hasKeydevDec = false) (hash : Bytes)
    (key : Block 32) : rekey hash key s = (.error .pinInvalid, s) := by
  rw [rekey, bind_run, mapLoad_locked hd hhas]

omit [ObjectLibrary] in
/-- An old record is not upgraded without the key, and one of the current format has nothing to upgrade. -/
private theorem upgradePin_locked {record : Bytes} {s : Device} (hd : KeyLocked blob s.files)
    (hlegacy : s.hasKeydevDec = true → isLegacy record = false) (hash : Bytes) (key : Block 32) :
    upgradePin record hash key s = (.ok (record, key), s) ∨
      upgradePin record hash key s = (.error .pinInvalid, { s with sessionPin := Sdk.hashMulti hash }) := by
  unfold upgradePin
  by_cases hold : isLegacy record = true
  · have hhas : s.hasKeydevDec = false := by
      cases h : s.hasKeydevDec with
      | false => rfl
      | true => exact absurd (hlegacy h) (by simp [hold])
    have hload := mapLoad_locked (s := { s with sessionPin := Sdk.hashMulti hash }) hd hhas key
    rw [if_pos hold, setSessionPin, bind_eq (modify_run _ s), bind_run, hload]
    exact .inr rfl
  · rw [if_neg hold]
    exact .inl rfl

omit [ObjectLibrary] in
private theorem acceptPin_staysLocked {p : ClientPinParams} {c : Presented} {s : Device}
    (hlegacy : s.hasKeydevDec = true → isLegacy c.record = false)
    (hnew : s.hasKeydevDec = true → p.subcommand = 0x4 → ∀ pin, newPinOf s.files p c.sharedSecret ≠ .ok pin) :
    StaysLocked blob s (acceptPin p c s).2 := by
  intro hs
  unfold acceptPin
  rcases upgradePin_locked hs.view hlegacy c.hash (.zero 32) with hupgrade | hupgrade
  · split
    · next hchange =>
      rw [bind_eq hupgrade]
      refine rel_bind (R := StaysLocked blob) (Keeps.rel s) (fun _ t hconfirm ht => ?_) hs
      rw [bind_eq (getFiles_run t)]
      have hsame : newPinOf t.files p c.sharedSecret = newPinOf s.files p c.sharedSecret :=
        newPinOf_congr (confirmPin_files hs.view hconfirm (by decide)) (confirmPin_files hs.view hconfirm (by decide)) p _
      cases hpin : newPinOf t.files p c.sharedSecret with
      | error e => exact ⟨ht, id⟩
      | ok pin =>
        have hhas : t.hasKeydevDec = false := by
          cases h : t.hasKeydevDec with
          | false => rfl
          | true =>
            have hmem := ((inferInstance : Keeps (StaysLocked blob) (confirmPin c.record c.hash : CtapOp Unit)).of_run hconfirm hs).2 h
            exact absurd (hsame ▸ hpin) (hnew hmem hchange pin)
        rw [ofExcept_ok_bind, bind_run, rekey_locked ht.view hhas]
        exact ⟨ht, id⟩
    · rw [bind_eq hupgrade]
      exact (inferInstance : Keeps (StaysLocked blob) (confirmPinForToken c.record c.hash >>= _)).rel s hs
  · have hend : LockedStore blob ({ s with sessionPin := Sdk.hashMulti c.hash } : Device).store ∧ (s.hasKeydevDec = true → s.hasKeydevDec = true) :=
      ⟨hs, id⟩
    split <;> (rw [bind_run, hupgrade]; exact hend)

omit [ObjectLibrary] in
private theorem comparing_staysLocked (p : ClientPinParams) : Keeps (StaysLocked blob) (comparing p) := by
  have := begin_idle (R := StaysLocked blob)
  unfold comparing presentPin
  infer_instance

/-- A presented PIN leaves the lock alone where it does not wrap the key anew. -/
private theorem present_staysLocked {p : ClientPinParams} (hp : p.PresentsPin) {d : Device}
    (h : d.hasKeydevDec = true → ¬ Rewraps (.cbor (.clientPin (.params p))) d) :
    StaysLocked blob d (authenticate (.cbor (.clientPin (.params p))) d).2 := by
  intro hd
  rw [clientPin_eq hp, map_snd]
  refine rel_bind (R := StaysLocked blob) ((comparing_staysLocked p).rel d) (fun c s hrun hs => ?_) hd
  have hmem : s.hasKeydevDec = true → d.hasKeydevDec = true := ((comparing_staysLocked p).of_run hrun hd).2
  have hcompared : comparison (.cbor (.clientPin (.params p))) d = some ⟨c, s⟩ := by simp [comparison, hp, hrun]
  cases hright : c.accepted with
  | false =>
    obtain ⟨e, t, hmismatch, hafter⟩ := afterComparison_mismatch (p := p) hright s
    have hkept : StaysLocked blob s t :=
      (inferInstance : Keeps (StaysLocked blob) (pinMismatch (byteAt c.record 0) : CtapOp Unit)).of_run hmismatch
    rw [hafter]
    exact hkept hs
  | true =>
    rw [afterComparison_right hright]
    refine acceptPin_staysLocked (fun hhas => ?_) (fun hhas hchange pin hpin => ?_) hs
    · cases hold : isLegacy c.record with
      | false => rfl
      | true => exact absurd ⟨p, ⟨c, s⟩, rfl, hcompared, hright, .inl hold⟩ (h (hmem hhas))
    · exact h (hmem hhas) ⟨p, ⟨c, s⟩, rfl, hcompared, hright, .inr ⟨hchange, pin, hpin⟩⟩

/-! ### Unlocking and starting up -/

/-- The key that a request brings opens the locked key, and VENDOR_UNLOCK answers. -/
def Unlocks (blob : Bytes) (t : Move Device Input (Except CtapError (Option Response))) : Prop :=
  ∃ p lockKey, t.input = .vendor vendorUnlock (.params p) ∧ p.vendorParam.bind (mseDecryptCt t.before.mse) = some lockKey ∧
    (openKeydevEnc lockKey blob).isSome = true ∧ t.output = .ok (some (.vendor .done))

omit [ObjectLibrary] in
private theorem unlock_locked {p : VendorParams} {s : Device} (hs : LockedStore blob s.store) :
    LockedStore blob (unlock p s).2.store ∧ ((unlock p s).2.hasKeydevDec = s.hasKeydevDec ∨
      (unlock p s).1 = .ok () ∧ ∃ lockKey, p.vendorParam.bind (mseDecryptCt s.mse) = some lockKey ∧
        (openKeydevEnc lockKey blob).isSome = true) := by
  have hkeyenc : fileData s.files efKeyDevEnc = some blob := hs.view.locked
  unfold unlock
  rw [bind_eq (get_run s), hkeyenc]
  by_cases hinit : s.mse.init = false
  · rw [refuseIf_true hinit]
    exact ⟨hs, .inl rfl⟩
  rw [refuseIf_false hinit, pure_bind]
  cases hparam : p.vendorParam.filter fun b => b.length = 32 + 16 with
  | none => exact ⟨hs, .inl rfl⟩
  | some param =>
    have hvendor : p.vendorParam = some param := (Option.filter_eq_some_iff.mp hparam).1
    rw [orFail_some_bind, hvendor]
    cases hkey : mseDecryptCt s.mse param with
    | none => exact ⟨hs, .inl rfl⟩
    | some lockKey =>
      rw [orFail_some_bind, orFail_some_bind]
      cases hopen : openKeydevEnc lockKey blob with
      | none => exact ⟨hs, .inl rfl⟩
      | some keydev => exact ⟨hs, .inr ⟨rfl, lockKey, hkey, by rw [hopen]; rfl⟩⟩

/-- A message for VENDOR_UNLOCK leaves the files alone; the key comes into RAM only when the lock key is right. -/
private theorem unlock_move {request : Parsed VendorParams} {d : Device} (hd : LockedStore blob d.store) :
    LockedStore blob (authenticate (.vendor vendorUnlock request) d).2.store ∧
      ((authenticate (.vendor vendorUnlock request) d).2.hasKeydevDec = true → d.hasKeydevDec = true ∨
        Unlocks blob (authenticator.move d (.vendor vendorUnlock request))) := by
  have htick : StaysLocked blob d (ticked d) := (inferInstance : Keeps _ (pinUvAuthTokenTick : CtapOp Unit)).rel d
  obtain ⟨hticked, hmem⟩ := htick hd
  unfold Unlocks
  simp only [Machine.move, authenticator, authenticate, vendorParse, map_snd]
  rw [map_run, bind_eq (pinUvAuthTokenTick_run d), bind_eq (getFiles_run (ticked d))]
  by_cases hcap : capSupported (ticked d).files capFido2 = false
  · rw [refuseIf_true hcap]
    exact ⟨hticked, fun h => .inl (hmem h)⟩
  rw [refuseIf_false hcap, pure_bind, map_snd, map_run]
  cases request with
  | empty e | malformed e => exact ⟨hticked, fun h => .inl (hmem h)⟩
  | params p =>
    have hcommand : cborVendor vendorUnlock (.params p) = unlock p >>= fun _ => pure .done := rfl
    obtain ⟨hstore, hkey⟩ := unlock_locked (p := p) hticked
    rw [hcommand, bind_run]
    rcases hrun : unlock p (ticked d) with ⟨e | u, t⟩ <;> rw [hrun] at hstore hkey
    · refine ⟨hstore, fun h => .inl ?_⟩
      rcases hkey with hsame | ⟨hok, -⟩
      · exact hmem (hsame ▸ h)
      · cases hok
    · refine ⟨hstore, fun h => ?_⟩
      rcases hkey with hsame | ⟨-, lockKey, hparam, hopen⟩
      · exact .inl (hmem (hsame ▸ h))
      · rw [ticked_mse] at hparam
        exact .inr ⟨p, lockKey, rfl, hparam, hopen, rfl⟩

omit [ObjectLibrary] in
/-- A power cycle leaves the key locked, and it is not in RAM. -/
private theorem boot_locked {d : Device} (hd : LockedStore blob d.store) :
    LockedStore blob d.boot.store ∧ d.boot.hasKeydevDec = false := by
  have hkept : StaysLocked blob d.powerUp d.boot :=
    (inferInstance : Keeps (StaysLocked blob) (initFido : Handler Device PicoError Unit)).rel d.powerUp
  obtain ⟨hboot, hmem⟩ := hkept ⟨hd.durable, hd.durable⟩
  exact ⟨hboot, Bool.eq_false_iff.mpr fun h => by cases hmem h⟩

/-! ### Locking -/

omit [Sdk] [ObjectLibrary] in
/-- A write takes one outcome; unless that is a failure the file holds the data. -/
theorem putFile_fate (fid : Nat) (data : Bytes) (s : Device) : ∃ store,
    (putFile fid data : CtapOp Unit) s = (.ok (), { s with store := store }) ∧ store.fates = s.store.fates.tail ∧
      (∀ k ≠ fid, store.view k = s.store.view k) ∧ (s.store.fates.head? ≠ some false → store.view fid = some data) := by
  obtain ⟨store, hrun, rfl | ⟨rfl, hfate⟩⟩ := putFile_cases (ε := CtapError) fid data s
  · exact ⟨_, hrun, rfl, fun k hk => Function.update_of_ne hk _ _, fun _ => Function.update_self _ _ _⟩
  · exact ⟨_, hrun, rfl, fun _ _ => rfl, fun h => absurd hfate h⟩

omit [ObjectLibrary] in
/-- What AUT_ENABLE ends with when it answers. -/
theorem autEnable_ok {p : ConfigParams} {s s' : Device} (h : autEnable p s = (.ok (), s')) :
    ∃ (file lockKey : Bytes) (nonce : Block 12) (t : Device), t.store = s.store ∧
      (do
        putFile efKeyDevEnc (keyDevEnc lockKey nonce file)
        putFile efKeyDev (List.replicate file.length 0)
        putFile efKeyDev []
        commit : CtapOp Unit) t = (.ok (), s') := by
  unfold autEnable at h
  rw [bind_eq (get_run s)] at h
  obtain ⟨file, _, hfile, h⟩ := bind_ok h
  obtain ⟨-, rfl⟩ := orFail_ok hfile
  obtain ⟨-, h⟩ := refuseIf_bind_ok h
  obtain ⟨param, _, hparam, h⟩ := bind_ok h
  obtain ⟨-, rfl⟩ := orFail_ok hparam
  obtain ⟨lockKey, _, hkey, h⟩ := bind_ok h
  obtain ⟨-, rfl⟩ := orFail_ok hkey
  obtain ⟨nonce, t, hnonce, h⟩ := bind_ok h
  have ht : t.store = s.store := by
    cases hnonce
    rfl
  exact ⟨file, lockKey, nonce, t, ht, h⟩

omit [ObjectLibrary] in
/-- AUT_ENABLE locks the key when the first and the last of its three writes are carried out. -/
private theorem autEnable_locks {p : ConfigParams} {s s' : Device} (h : autEnable p s = (.ok (), s'))
    (hfirst : s.store.fates[0]? ≠ some false) (hlast : s.store.fates[2]? ≠ some false) : ∃ blob, LockedStore blob s'.store := by
  obtain ⟨file, lockKey, nonce, t, ht, h⟩ := autEnable_ok h
  obtain ⟨store₁, hput₁, hfates₁, -, hview₁⟩ := putFile_fate efKeyDevEnc (keyDevEnc lockKey nonce file) t
  obtain ⟨store₂, hput₂, hfates₂, hother₂, -⟩ := putFile_fate efKeyDev (List.replicate file.length 0) { t with store := store₁ }
  obtain ⟨store₃, hput₃, -, hother₃, hview₃⟩ := putFile_fate efKeyDev [] { t with store := store₂ }
  rw [bind_eq hput₁, bind_eq hput₂, bind_eq hput₃] at h
  cases h
  rw [ht] at hfates₁ hview₁
  have hlocked : KeyLocked (keyDevEnc lockKey nonce file) store₃.view := by
    refine ⟨?_, ?_⟩
    · rw [fileData, hview₃ ?_]
      rw [hfates₂, hfates₁]
      simpa [List.head?_tail] using hlast
    · have hblob : (keyDevEnc lockKey nonce file).length = keyDevEncLen := readPast_length _ _
      have hkept : store₃.view efKeyDevEnc = some (keyDevEnc lockKey nonce file) := by
        rw [hother₃ efKeyDevEnc (by decide), hother₂ efKeyDevEnc (by decide)]
        exact hview₁ (by rwa [List.head?_eq_getElem?])
      rw [fileData, hkept]
      cases hempty : keyDevEnc lockKey nonce file with
      | nil => rw [hempty] at hblob; cases hblob
      | cons b bs => rfl
  exact ⟨_, hlocked, hlocked⟩

/-- An answer to AUT_ENABLE is that of its command. -/
theorem autEnable_answered {p : ConfigParams} {r : Response} {d : Device} (hvendor : p.subcommand = 0xFF)
    (henable : p.vendorCommandId = configAutEnable)
    (hok : (authenticator.move d (.cbor (.config (.params p)))).output = .ok (some r)) :
    autEnable p (ticked d).forgotten = (.ok (), (authenticator.move d (.cbor (.config (.params p)))).after) := by
  obtain ⟨_, s, hconfig, h⟩ := bind_ok (move_answered (r := .config (.params p)) rfl hok)
  obtain ⟨-, hs⟩ := pure_ok h
  unfold cborConfig at hconfig
  rw [Parsed.result, ofExcept_ok_bind] at hconfig
  obtain ⟨_, t, hauthorize, hrun⟩ := bind_ok hconfig
  obtain rfl : (ticked d).forgotten = t := (configAuthorize_same p).of_run hauthorize
  rw [if_pos hvendor, configVendor, henable, if_neg (by decide), if_pos rfl] at hrun
  rwa [← hs]

private theorem enabled_locked {p : ConfigParams} {r : Response} {d : Device} (hvendor : p.subcommand = 0xFF)
    (henable : p.vendorCommandId = configAutEnable)
    (hok : (authenticator.move d (.cbor (.config (.params p)))).output = .ok (some r))
    (hfirst : d.store.fates[0]? ≠ some false) (hlast : d.store.fates[2]? ≠ some false) :
    ∃ blob, LockedStore blob (authenticator.move d (.cbor (.config (.params p)))).after.store := by
  have hstore : (ticked d).forgotten.store = d.store := ticked_store d
  exact autEnable_locks (autEnable_answered hvendor henable hok) (by rwa [hstore]) (by rwa [hstore])

/-! ### Runs -/

/-- Where a message neither lifts the lock nor wraps the key anew, the key stays locked, and comes into RAM only by
VENDOR_UNLOCK under the lock key. -/
private theorem locked_step {i : Input} {d : Device} (hlift : i.liftsLock = false) (hrewraps : d.hasKeydevDec = true → ¬ Rewraps i d)
    (hd : LockedStore blob d.store) : LockedStore blob (authenticate i d).2.store ∧
      ((authenticate i d).2.hasKeydevDec = true → d.hasKeydevDec = true ∨ Unlocks blob (authenticator.move d i)) := by
  by_cases hp : i.Presents
  · unfold Input.Presents at hp
    split at hp
    · next p =>
      have hkept : StaysLocked blob d (authenticate (.cbor (.clientPin (.params p))) d).2 := present_staysLocked hp hrewraps
      obtain ⟨hlocked, hmem⟩ := hkept hd
      exact ⟨hlocked, fun h => .inl (hmem h)⟩
    · exact hp.elim
  by_cases hon : i = .powerCycle
  · subst hon
    obtain ⟨hboot, hshut⟩ := boot_locked hd
    exact ⟨hboot, fun h => absurd (hshut.symm.trans h) (by simp)⟩
  by_cases hask : i.asksUnlock = true
  · unfold Input.asksUnlock at hask
    split at hask
    · next cmd request =>
      obtain rfl : cmd = vendorUnlock := by simpa using hask
      exact unlock_move hd
    · cases hask
  · have hkept : Keeps (StaysLocked blob) (authenticate i) := authenticate_staysLocked hlift (by simpa using hask) hp hon
    obtain ⟨hlocked, hmem⟩ := hkept.rel d hd
    exact ⟨hlocked, fun h => .inl (hmem h)⟩

/-- After AUT_ENABLE, where no message lifts the lock and none presents a right PIN that wraps the unlocked key anew,
EF_KEY_DEV stays empty, and from each power cycle on there is no master key until VENDOR_UNLOCK comes with the lock key. -/
theorem lock_confinement {p : ConfigParams} {r : Response} {d : Device} (hvendor : p.subcommand = 0xFF)
    (henable : p.vendorCommandId = configAutEnable)
    (hok : (authenticator.move d (.cbor (.config (.params p)))).output = .ok (some r))
    (hfirst : d.store.fates[0]? ≠ some false) (hlast : d.store.fates[2]? ≠ some false) {is : List Input}
    (hlift : ∀ i ∈ is, i.liftsLock = false)
    (hrewraps : ∀ t ∈ authenticator.trace (authenticator.move d (.cbor (.config (.params p)))).after is,
      t.before.hasKeydevDec = true → ¬ Rewraps t.input t.before) :
    ∃ blob, fileData (authenticator.move d (.cbor (.config (.params p)))).after.files efKeyDevEnc = some blob ∧
      (∀ t ∈ authenticator.trace (authenticator.move d (.cbor (.config (.params p)))).after is,
        fileData t.before.files efKeyDev = none ∧ fileData t.after.files efKeyDev = none) ∧
      ∀ before c mid t after, authenticator.trace (authenticator.move d (.cbor (.config (.params p)))).after is =
        before ++ c :: (mid ++ t :: after) → c.input = .powerCycle → (∀ u ∈ mid, ¬ Unlocks blob u) →
        ∀ key, ∃ e, (loadKeydev key t.before).1 = .error e := by
  obtain ⟨blob, hlocked⟩ := enabled_locked hvendor henable hok hfirst hlast
  revert hlocked hrewraps
  generalize (authenticator.move d (.cbor (.config (.params p)))).after = s
  intro hrewraps hlocked
  have hallowed : ∀ t ∈ authenticator.trace s is, t.input.liftsLock = false ∧
      (t.before.hasKeydevDec = true → ¬ Rewraps t.input t.before) := fun t ht =>
    ⟨hlift t.input (Machine.trace_inputs s is ▸ List.mem_map_of_mem ht), hrewraps t ht⟩
  have hinv : ∀ t ∈ authenticator.trace s is, LockedStore blob t.before.store ∧ LockedStore blob t.after.store :=
    Machine.trace_invariant (I := fun d => LockedStore blob d.store)
      (A := fun d i => i.liftsLock = false ∧ (d.hasKeydevDec = true → ¬ Rewraps i d))
      (fun d i hd hi => (locked_step hi.1 hi.2 hd).1) hlocked hallowed
  refine ⟨blob, hlocked.view.locked, fun t ht => ⟨(hinv t ht).1.view.empty, (hinv t ht).2.view.empty⟩,
    fun before c mid t after hrun hcycle hno key => ?_⟩
  have hc : c ∈ authenticator.trace s is := by simp [hrun]
  have hstep : ∀ t ∈ authenticator.trace s is, LockedStore blob t.before.store ∧ t.before.hasKeydevDec = false →
      Unlocks blob t ∨ LockedStore blob t.after.store ∧ t.after.hasKeydevDec = false := fun t ht ⟨hd, hshut⟩ => by
    rw [Machine.trace_move ht]
    obtain ⟨hafter, hmem⟩ := locked_step (hallowed t ht).1 (hallowed t ht).2 hd
    cases hhas : (authenticate t.input t.before).2.hasKeydevDec with
    | false => exact .inr ⟨hafter, hhas⟩
    | true => exact .inl ((hmem hhas).resolve_left (by simp [hshut]))
  have hnow : LockedStore blob c.after.store ∧ c.after.hasKeydevDec = false := by
    rw [Machine.trace_move hc, hcycle]
    exact boot_locked (hinv c hc).1
  obtain ⟨ht, hshut⟩ := Machine.trace_between (I := fun d => LockedStore blob d.store ∧ d.hasKeydevDec = false) hstep hrun hnow hno
  rw [loadKeydev_locked ht.view hshut]
  exact ⟨_, rfl⟩

end

section Plain
attribute [local instance] plainSdk plainLibrary

private def mseRequest : Input :=
  .vendor vendorMse (.params { vendorCmd := 1, vendorParam := none, alg := -25, kax := some [1], kay := some [2] })

/-- A device whose EF_KEY_DEV is of the oldest format, with a PIN, a management session and a token for configuration. -/
private def lockable : Device :=
  let d := plainDevice [(efKeyDev, List.replicate 32 9), (efPin, newPinRecord maxPinRetries 4 plainPinHash)]
  (authenticate (tokenRequest 9 0x20 none) (authenticate mseRequest d).2).2

/-- A lock key, under the keys of the management session. -/
private def sealedLockKey : Bytes :=
  let (ciphertext, tag) := chachapolyEncryptAndTag (lockable.mse.keyEnc.1.drop 12) (lockable.mse.keyEnc.1.take 12) lockable.mse.qpt
    (List.replicate 32 7)
  ciphertext ++ tag.1

private def enableParams : ConfigParams where
  subcommand := 0xFF
  rawSubpara := []
  pinUvAuthProtocol := 1
  pinUvAuthParam := some (plainMac lockable (List.replicate 32 0xff ++ [0x0d, 0xff]))
  vendorCommandId := configAutEnable
  vendorParamByteString := some sealedLockKey
  vendorParamInt := 0
  newMinPinLength := 0
  minPinLengthRPIDs := []
  forceChangePin := none
  pinPolicy := none

private def unlockRequest : Input :=
  .vendor vendorUnlock (.params { vendorCmd := 1, vendorParam := some sealedLockKey, alg := 0, kax := none, kay := none })

private def paddedPin : Bytes := [0x31, 0x32, 0x33, 0x34, 0x35, 0x36] ++ List.replicate 58 0

/-- changePIN to `"123456"`. -/
private def changeRequest : Input :=
  .cbor (.clientPin (.params
    { pinUvAuthProtocol := 1, subcommand := 4, alg := -25, kax := some [1], kay := some [2],
      pinUvAuthParam := some (PlainSdk.fill 16 ((ecdh lockable 1 [1] [2]).getD [] ++ paddedPin ++ plainPinHash)).1,
      newPinEnc := some paddedPin, pinHashEnc := some plainPinHash, permissions := 0, rpId := none }))

private def tokenOfNewPin : Input :=
  .cbor (.clientPin (.params
    { pinUvAuthProtocol := 1, subcommand := 5, alg := -25, kax := some [1], kay := some [2], pinUvAuthParam := none,
      newPinEnc := none, pinHashEnc := some (hashOfPin [0x31, 0x32, 0x33, 0x34, 0x35, 0x36]), permissions := 0, rpId := none }))

private def endOf (is : List Input) : Device := is.foldl (fun d i => (authenticate i d).2) lockable

private def enabled : List Input := [.cbor (.config (.params enableParams))]

private theorem answered_done {out : Except CtapError (Option Response)}
    (h : (match out with
      | .ok (some .done) => true
      | _ => false) = true) : out = .ok (some .done) := by
  split at h
  · rfl
  · cases h

/-- The key is there after the next power cycle without any unlock, once the new PIN was presented. -/
theorem changePin_writes_locked_key :
    (authenticator.move lockable (.cbor (.config (.params enableParams)))).output.toBool = true ∧
      (∀ i ∈ [unlockRequest, changeRequest, .powerCycle, tokenOfNewPin], i.liftsLock = false) ∧
      (fileData (endOf (enabled ++ [unlockRequest, changeRequest])).files efKeyDev).isSome = true ∧
      (loadKeydev (.zero 32) (endOf (enabled ++ [unlockRequest, changeRequest, .powerCycle, tokenOfNewPin]))).1.toBool = true := by
  decide +kernel

private theorem two_moves (s : Device) : authenticator.trace s [.powerCycle, .emptyMessage] =
    [] ++ authenticator.move s .powerCycle :: ([] ++ authenticator.move s.boot .emptyMessage :: []) := rfl

theorem enabled_key_confined : ∃ blob,
    fileData (authenticator.move lockable (.cbor (.config (.params enableParams)))).after.files efKeyDevEnc = some blob ∧
    ∀ key, ∃ e, (loadKeydev key (authenticator.move lockable (.cbor (.config (.params enableParams)))).after.boot).1 = .error e := by
  obtain ⟨blob, hblob, -, hcycle⟩ := @lock_confinement plainSdk plainLibrary enableParams .done lockable rfl rfl
    (answered_done (by decide +kernel)) (by decide +kernel) (by decide +kernel) [.powerCycle, .emptyMessage] (by decide)
    fun t ht _ ⟨p, _, hi, _⟩ => by
      have hinput := List.mem_map_of_mem (f := Move.input) ht
      rw [Machine.trace_inputs, hi] at hinput
      simp at hinput
  generalize (authenticator.move lockable (.cbor (.config (.params enableParams)))).after = s at hblob hcycle ⊢
  exact ⟨blob, hblob, hcycle [] _ [] _ [] (two_moves s) rfl (by simp)⟩

end Plain
end FidoTouch.Ctap
